import DomQuery.Proofs.Pattern.Denotes
import DomQuery.Proofs.Text.CharSet

/-!
# Language ranges as patterns

A range of languages can be written as a pattern: the first subtag, then each of the
others with a hyphen before it, and after each of them any further subtags
(`patternText?`). To hold a tag against that pattern and to look for the subtags of the
range among those of the tag come to the same, for all ranges and tags (`selects_eq`).

* `spells_range`: the pieces of the pattern.
* `denotes_first`, `denotes_later`: the texts that they read.
* `selects_extended_iff`: what the subtags of a tag have to be.
* `selects_eq`: the two ways to select a language are one.
-/

namespace DomQuery.Text.LanguageRange

open DomQuery.Pattern

/-! ### Subtags -/

/-- Subtags, each with a hyphen before it. -/
def hyphened (subtags : List (List Char)) : List Char :=
  subtags.flatMap ('-' :: ·)

theorem hyphened_cons (s : List Char) (subtags : List (List Char)) :
    hyphened (s :: subtags) = '-' :: (s ++ hyphened subtags) :=
  rfl

theorem hyphened_append (subtags others : List (List Char)) :
    hyphened (subtags ++ others) = hyphened subtags ++ hyphened others :=
  List.flatMap_append

theorem exists_cut (cs : List Char) : ∃ head rest, cut (· == '-') cs = head :: rest ∧
    cs = head ++ hyphened rest ∧ ∀ s ∈ head :: rest, '-' ∉ s := by
  induction cs with
  | nil => exact ⟨[], [], rfl, rfl, by simp⟩
  | cons c cs ih =>
    obtain ⟨head, rest, hcut, rfl, hfree⟩ := ih
    by_cases hc : c = '-'
    · subst hc
      exact ⟨[], head :: rest, by rw [cut, if_pos (beq_self_eq_true _), hcut], rfl,
        List.forall_mem_cons.mpr ⟨List.not_mem_nil, hfree⟩⟩
    · obtain ⟨hhead, hrest⟩ := List.forall_mem_cons.mp hfree
      refine ⟨c :: head, rest, by rw [cut, if_neg (by simpa using hc), hcut], rfl,
        List.forall_mem_cons.mpr ⟨fun hmem => ?_, hrest⟩⟩
      exact (List.mem_cons.mp hmem).elim (fun h => hc h.symm) hhead

theorem cut_append {head cs : List Char} (hhead : '-' ∉ head) {piece : List Char}
    {pieces : List (List Char)} (h : cut (· == '-') cs = piece :: pieces) :
    cut (· == '-') (head ++ cs) = (head ++ piece) :: pieces := by
  induction head with
  | nil => exact h
  | cons c head ih =>
    obtain ⟨hc, hhead⟩ := not_or.mp fun hmem => hhead (List.mem_cons.mpr hmem)
    rw [List.cons_append, cut, if_neg (by simpa using Ne.symm hc), ih hhead]
    rfl

theorem cut_hyphened {head : List Char} {rest : List (List Char)}
    (h : ∀ s ∈ head :: rest, '-' ∉ s) : cut (· == '-') (head ++ hyphened rest) = head :: rest := by
  induction rest generalizing head with
  | nil =>
    have hnil : cut (· == '-') (hyphened []) = [[]] := rfl
    rw [cut_append (h head List.mem_cons_self) hnil, List.append_nil]
  | cons s rest ih =>
    obtain ⟨hhead, hrest⟩ := List.forall_mem_cons.mp h
    have hcut : cut (· == '-') (hyphened (s :: rest)) = [] :: s :: rest := by
      rw [hyphened_cons, cut, if_pos (beq_self_eq_true _), ih hrest]
    rw [cut_append hhead hcut, List.append_nil]

/-- A letter or a digit, or what counts as a case of one, is no hyphen. -/
theorem not_mem_of_isWord {w : List Char} (h : isWord w = true) : '-' ∉ w := fun hmem => by
  rw [isWord, Bool.and_eq_true, List.all_eq_true] at h
  have hfalse : isAlnum (caseFold '-') = false := by decide
  exact Bool.false_ne_true (hfalse.symm.trans (h.2 _ hmem))

/-- A subtag of a range, but no star. -/
def IsPlain (s : List Char) : Prop :=
  s ≠ [] ∧ ∀ c ∈ s, isAlnum c = true

instance (s : List Char) : Decidable (IsPlain s) :=
  decidable_of_iff (s ≠ [] ∧ s.all isAlnum = true) (and_congr_right fun _ => List.all_eq_true)

theorem isWord_of_sameSubtag {s w : List Char} (hs : IsPlain s) (h : sameSubtag s w = true) :
    isWord w = true := by
  have hmap : s.map caseFold = w.map caseFold := beq_iff_eq.mp h
  have hall : ∀ c ∈ w.map caseFold, isAlnum c = true := by
    rw [← hmap]
    intro d hd
    obtain ⟨c, hc, rfl⟩ := List.mem_map.mp hd
    exact isAlnum_caseFold c (mem_foldable_of_lt (lt_of_isAlnum (hs.2 c hc))) (hs.2 c hc)
  have hne : w ≠ [] := by
    rintro rfl
    exact hs.1 (List.map_eq_nil_iff.mp hmap)
  rw [isWord, Bool.and_eq_true, List.all_eq_true]
  exact ⟨by simpa using hne, fun c hc => hall _ (List.mem_map_of_mem hc)⟩

/-- The subtags of a range are looked for one after the other, each as early as it can be
found; so they are found if they are there in their order. -/
theorem inOrder_iff_sublist {later subtags : List (List Char)} :
    inOrder later subtags = true ↔
      (later.map (List.map caseFold)).Sublist (subtags.map (List.map caseFold)) := by
  induction subtags generalizing later with
  | nil => cases later <;> simp [inOrder]
  | cons t subtags ih =>
    cases later with
    | nil => simp [inOrder]
    | cons s later =>
      rw [inOrder, List.map_cons, List.map_cons]
      split
      · rename_i hsame
        have heq : s.map caseFold = t.map caseFold := beq_iff_eq.mp hsame
        rw [heq, List.cons_sublist_cons, ih]
      · rename_i hsame
        have hne : s.map caseFold ≠ t.map caseFold := fun heq => hsame (beq_iff_eq.mpr heq)
        rw [ih, List.map_cons, List.sublist_cons_iff, or_iff_left]
        rintro ⟨rest, heq, -⟩
        exact hne (List.cons.inj heq).1

theorem inOrder_cons_iff {s : List Char} {later subtags : List (List Char)} :
    inOrder (s :: later) subtags = true ↔ ∃ skipped t rest, subtags = skipped ++ t :: rest ∧
      sameSubtag s t = true ∧ inOrder later rest = true := by
  constructor
  · intro h
    induction subtags with
    | nil => cases h
    | cons t subtags ih =>
      rw [inOrder] at h
      split at h
      · rename_i hsame
        exact ⟨[], t, subtags, rfl, hsame, h⟩
      · obtain ⟨skipped, t', rest, rfl, hsame, hrest⟩ := ih h
        exact ⟨t :: skipped, t', rest, rfl, hsame, hrest⟩
  · -- the search may find the subtag earlier than here, but that is no loss
    rintro ⟨skipped, t, rest, rfl, hsame, hrest⟩
    rw [inOrder_iff_sublist, List.map_append, List.map_cons, List.map_cons, beq_iff_eq.mp hsame]
    exact ((inOrder_iff_sublist.mp hrest).cons_cons _).trans (List.sublist_append_right _ _)

/-! ### The pattern of a range -/

/-- Any number of further subtags. -/
def furtherSubtags : String := "(?:-[A-Za-z0-9]+)*"

/-- The pattern of a range. A star stands for any first subtag and adds nothing later on. -/
def patternText? (range : String) : Option String :=
  match splitAt '-' range with
  | first :: later =>
    if (first :: later).all isSubtag then
      some ("(?i)^" ++ (if first == "*" then "[A-Za-z]+" else first) ++ furtherSubtags ++
        String.join ((later.filter (· != "*")).map fun s => "-" ++ s ++ furtherSubtags) ++ "$")
    else none
  | [] => none

/-- The range selects the language `tag`, as its pattern says. -/
def selectsByPattern (range tag : String) : Bool :=
  if range == "*" then !tag.isEmpty
  else if range == "" then tag.isEmpty
  else ((patternText? range).bind parse?).any fun p => p.matchesAtStart tag

/-- The letters of ASCII. -/
def letters : CharSet :=
  (CharSet.empty.union (.ofRange 65 90)).union (.ofRange 97 122)

/-- The letters and digits of ASCII. -/
def lettersAndDigits : CharSet :=
  letters.union (.ofRange 48 57)

theorem exists_char_iff {Q : Nat → Prop} (hQ : ∀ n, Q n → n < 128) {n : Nat} :
    (∃ c : Char, c.toNat = n ∧ Q c.toNat) ↔ Q n := by
  constructor
  · rintro ⟨c, rfl, hc⟩
    exact hc
  · intro hn
    have hascii : ∀ n < 128, (Char.ofNat n).toNat = n := by decide
    have heq := hascii n (hQ n hn)
    exact ⟨Char.ofNat n, heq, heq.symm ▸ hn⟩

/-- The code of a letter. -/
def IsLetter (n : Nat) : Prop :=
  65 ≤ n ∧ n ≤ 90 ∨ 97 ≤ n ∧ n ≤ 122

theorem hasCode_letters {n : Nat} : letters.hasCode n = true ↔ IsLetter n := by
  rw [letters, CharSet.hasCode_union, CharSet.hasCode_union, CharSet.hasCode_empty,
    CharSet.hasCode_ofRange, CharSet.hasCode_ofRange]
  simp [IsLetter]

theorem contains_letters (c : Char) : letters.closeCase.contains c = (caseFold c).isAlpha := by
  have hlt : ∀ n, IsLetter n → n < 128 := fun n h => by
    unfold IsLetter at h
    omega
  refine CharSet.contains_closeCase (fun n => ?_) (fun c hc => ?_) isAlpha_caseFold c
  · simp only [isAlpha_iff]
    exact hasCode_letters.trans (exists_char_iff hlt).symm
  · exact isAlnum_iff.mpr (.inl (isAlpha_iff.mp hc))

theorem contains_lettersAndDigits (c : Char) :
    lettersAndDigits.closeCase.contains c = isAlnum (caseFold c) := by
  have hlt : ∀ n, IsLetter n ∨ 48 ≤ n ∧ n ≤ 57 → n < 128 := fun n h => by
    unfold IsLetter at h
    omega
  refine CharSet.contains_closeCase (fun n => ?_) (fun _ => id) isAlnum_caseFold c
  simp only [isAlnum_iff]
  rw [lettersAndDigits, CharSet.hasCode_union, hasCode_letters, CharSet.hasCode_ofRange]
  exact (exists_char_iff hlt).symm

/-! ### Pieces -/

/-- A character of a range. -/
def literal (c : Char) : Pattern :=
  .chars (CharSet.ofRange c.toNat c.toNat).closeCase

/-- A hyphen and a subtag after it. -/
def furtherPieces : List (Nested Pattern) :=
  [⟨literal '-', 0⟩, ⟨.times 1 none (.chars lettersAndDigits.closeCase), 3⟩]

def further : Nested Pattern :=
  ⟨.times 0 none (inSequence furtherPieces).value, 6⟩

def literals (s : List Char) : List (Nested Pattern) :=
  s.map fun c => ⟨literal c, 0⟩

def firstPieces : Option (List Char) → List (Nested Pattern)
  | some s => literals s
  | none => [⟨.times 1 none (.chars letters.closeCase), 3⟩]

def firstText : Option (List Char) → List Char
  | some s => s
  | none => "[A-Za-z]+".toList

/-- The pieces for what follows the first subtag. -/
def laterPieces : List (List Char) → List (Nested Pattern)
  | [] => [further]
  | s :: later => further :: ⟨literal '-', 0⟩ :: (literals s ++ laterPieces later)

def laterText : List (List Char) → List Char
  | [] => furtherSubtags.toList
  | s :: later => furtherSubtags.toList ++ '-' :: (s ++ laterText later)

/-- The pieces of the whole pattern. -/
def rangePieces (first : Option (List Char)) (later : List (List Char)) : List (Nested Pattern) :=
  ⟨.look .textStart, 0⟩ :: (firstPieces first ++ laterPieces later ++ [⟨.look .textEnd, 0⟩])

/-- The text of the whole pattern after the flag. -/
def rangeText (first : Option (List Char)) (later : List (List Char)) : List Char :=
  '^' :: (firstText first ++ laterText later ++ ['$'])

theorem spells_letters : Spells "[A-Za-z]".toList [⟨.chars letters.closeCase, 2⟩] := by
  intro p rest hp _
  change Proceeds p ('[' :: ("A-Za-z]".toList ++ rest)) _ rest
  refine .step (by simp only [List.length_append]; omega) fun fuel => ?_
  rw [readAlternatives, skip_caseless hp]
  simp only [hp]
  rfl

theorem spells_lettersAndDigits :
    Spells "[A-Za-z0-9]".toList [⟨.chars lettersAndDigits.closeCase, 2⟩] := by
  intro p rest hp _
  change Proceeds p ('[' :: ("A-Za-z0-9]".toList ++ rest)) _ rest
  refine .step (by simp only [List.length_append]; omega) fun fuel => ?_
  rw [readAlternatives, skip_caseless hp]
  simp only [hp]
  rfl

theorem spells_further : Spells furtherSubtags.toList [further] := by
  have hpieces : Spells ("-[A-Za-z0-9]+".toList) furtherPieces :=
    (spells_literal (.inr rfl)).append spells_lettersAndDigits.plus (by decide)
  exact hpieces.group.star

theorem spells_literals {s : List Char} (hs : ∀ c ∈ s, isAlnum c = true) :
    Spells s (literals s) := by
  induction s with
  | nil => exact spells_nil
  | cons c s ih =>
    obtain ⟨hc, hs⟩ := List.forall_mem_cons.mp hs
    refine (spells_literal (.inl hc)).append (ih hs) fun hnext => ?_
    obtain ⟨rest, rfl⟩ := List.head?_eq_some_iff.mp hnext
    exact absurd (hs '?' List.mem_cons_self) (by decide)

theorem head?_append_ne {s rest : List Char} (hs : ∀ c ∈ s, isAlnum c = true)
    (hrest : rest.head? ≠ some '?') : (s ++ rest).head? ≠ some '?' := by
  cases s with
  | nil => exact hrest
  | cons c s =>
    intro h
    obtain rfl : c = '?' := Option.some.inj h
    exact absurd (hs '?' List.mem_cons_self) (by decide)

theorem head?_laterText (later : List (List Char)) : (laterText later).head? ≠ some '?' := by
  cases later <;> exact (by decide : some '(' ≠ some '?')

theorem spells_first {first : Option (List Char)} (h : ∀ s ∈ first, IsPlain s) :
    Spells (firstText first) (firstPieces first) := by
  cases first with
  | none => exact spells_letters.plus
  | some s => exact spells_literals (h s rfl).2

theorem spells_later {later : List (List Char)} (h : ∀ s ∈ later, IsPlain s) :
    Spells (laterText later) (laterPieces later) := by
  induction later with
  | nil => exact spells_further
  | cons s later ih =>
    obtain ⟨hs, hlater⟩ := List.forall_mem_cons.mp h
    have hnext := head?_laterText later
    have hword := (spells_literals hs.2).append (ih hlater) hnext
    have hhyphen := (spells_literal (.inr rfl)).append hword (head?_append_ne hs.2 hnext)
    exact spells_further.append hhyphen (by decide : some '-' ≠ some '?')

theorem spells_range {first : Option (List Char)} {later : List (List Char)}
    (hfirst : ∀ s ∈ first, IsPlain s) (hlater : ∀ s ∈ later, IsPlain s) :
    Spells (rangeText first later) (rangePieces first later) := by
  have hbody := (spells_first hfirst).append (spells_later hlater) (head?_laterText later)
  have hend := hbody.append spells_textEnd (by decide)
  have hstart : (firstText first ++ laterText later ++ ['$']).head? ≠ some '?' := by
    rw [List.append_assoc]
    cases first with
    | none => exact (by decide : some '[' ≠ some '?')
    | some s =>
      refine head?_append_ne (hfirst s rfl).2 ?_
      cases later <;> exact (by decide : some '(' ≠ some '?')
  exact spells_textStart.append hend hstart

/-! ### The texts that are read -/

theorem denotes_hyphen : Denotes (literal '-').Reads (textsWith (· = ['-'])) := by
  refine Denotes.chars.congr fun w => ?_
  rw [mem_textsWith, mem_textsWith]
  constructor
  · rintro ⟨c, hc, rfl⟩
    rw [CharSet.contains_closeCase_hyphen, beq_iff_eq] at hc
    rw [hc]
  · rintro rfl
    exact ⟨'-', by rw [CharSet.contains_closeCase_hyphen]; rfl, rfl⟩

theorem denotes_literals {s : List Char} (hs : ∀ c ∈ s, isAlnum c = true) :
    Denotes (ReadsAll ((literals s).map Nested.value))
      (textsWith fun w => sameSubtag s w = true) := by
  induction s with
  | nil =>
    refine Denotes.readsAll_nil.congr fun w => ?_
    rw [Language.mem_one, mem_textsWith]
    cases w <;> simp [sameSubtag]
  | cons c s ih =>
    obtain ⟨hc, hs⟩ := List.forall_mem_cons.mp hs
    refine (Denotes.readsAll_cons Denotes.chars (ih hs)).congr fun w => ?_
    rw [Language.mem_mul]
    simp only [mem_textsWith, CharSet.contains_closeCase_ofRange hc]
    cases w with
    | nil => simp [sameSubtag]
    | cons d w => simp [sameSubtag]

theorem denotes_furtherPieces :
    Denotes (inSequence furtherPieces).value.Reads
      (textsWith fun w => ∃ s, isWord s = true ∧ w = '-' :: s) := by
  have hall : Denotes (ReadsAll (furtherPieces.map Nested.value)) _ :=
    Denotes.readsAll_cons denotes_hyphen
      (Denotes.readsAll_cons Denotes.chars_plus Denotes.readsAll_nil)
  refine (Denotes.inSequence hall).congr fun w => ?_
  rw [mul_one, Language.mem_mul]
  simp only [mem_textsWith, contains_lettersAndDigits]
  constructor
  · rintro ⟨_, rfl, s, ⟨hne, hs⟩, rfl⟩
    refine ⟨s, ?_, rfl⟩
    rw [isWord, Bool.and_eq_true, List.all_eq_true]
    exact ⟨by simpa using hne, hs⟩
  · rintro ⟨s, hs, rfl⟩
    rw [isWord, Bool.and_eq_true, List.all_eq_true] at hs
    exact ⟨['-'], rfl, s, ⟨by simpa using hs.1, hs.2⟩, rfl⟩

theorem denotes_further : Denotes further.value.Reads
    (textsWith fun w => ∃ subtags, (∀ s ∈ subtags, isWord s = true) ∧ w = hyphened subtags) := by
  refine (denotes_furtherPieces.times 0).congr fun w => ?_
  rw [pow_zero, one_mul, Language.mem_kstar, mem_textsWith]
  constructor
  · rintro ⟨words, rfl, hwords⟩
    induction words with
    | nil => exact ⟨[], nofun, rfl⟩
    | cons word words ih =>
      obtain ⟨⟨s, hs, rfl⟩, hrest⟩ := List.forall_mem_cons.mp hwords
      obtain ⟨subtags, hsubtags, heq⟩ := ih hrest
      refine ⟨s :: subtags, List.forall_mem_cons.mpr ⟨hs, hsubtags⟩, ?_⟩
      rw [List.flatten_cons, heq]
      rfl
  · rintro ⟨subtags, hsubtags, rfl⟩
    refine ⟨subtags.map ('-' :: ·), rfl, fun word hword => ?_⟩
    obtain ⟨s, hs, rfl⟩ := List.mem_map.mp hword
    exact ⟨s, hsubtags s hs, rfl⟩

/-- Any further subtags may stand before and after those of the range. -/
theorem denotes_later {later : List (List Char)} (h : ∀ s ∈ later, IsPlain s) :
    Denotes (ReadsAll ((laterPieces later).map Nested.value))
      (textsWith fun w => ∃ subtags, (∀ s ∈ subtags, isWord s = true) ∧
        inOrder later subtags = true ∧ w = hyphened subtags) := by
  induction later with
  | nil =>
    refine (Denotes.readsAll_cons denotes_further Denotes.readsAll_nil).congr fun w => ?_
    rw [mul_one, mem_textsWith, mem_textsWith]
    simp only [inOrder, true_and]
  | cons s later ih =>
    obtain ⟨hs, hlater⟩ := List.forall_mem_cons.mp h
    have hword := (denotes_literals hs.2).readsAll_append (ih hlater)
    rw [← List.map_append] at hword
    refine (Denotes.readsAll_cons denotes_further
      (Denotes.readsAll_cons denotes_hyphen hword)).congr fun w => ?_
    simp only [Language.mem_mul, mem_textsWith]
    constructor
    · rintro ⟨_, ⟨skipped, hskipped, rfl⟩, _,
        ⟨_, rfl, _, ⟨t, hsame, _, ⟨rest, hrest, hin, rfl⟩, rfl⟩, rfl⟩, rfl⟩
      refine ⟨skipped ++ t :: rest, ?_, inOrder_cons_iff.mpr ⟨skipped, t, rest, rfl, hsame, hin⟩,
        (hyphened_append skipped (t :: rest)).symm⟩
      exact List.forall_mem_append.mpr
        ⟨hskipped, List.forall_mem_cons.mpr ⟨isWord_of_sameSubtag hs hsame, hrest⟩⟩
    · rintro ⟨subtags, hwords, hin, rfl⟩
      obtain ⟨skipped, t, rest, rfl, hsame, hin⟩ := inOrder_cons_iff.mp hin
      obtain ⟨hskipped, htrest⟩ := List.forall_mem_append.mp hwords
      obtain ⟨-, hrest⟩ := List.forall_mem_cons.mp htrest
      exact ⟨_, ⟨skipped, hskipped, rfl⟩, _,
        ⟨['-'], rfl, _, ⟨t, hsame, _, ⟨rest, hrest, hin, rfl⟩, rfl⟩, rfl⟩,
        (hyphened_append skipped (t :: rest)).symm⟩

/-- The first subtag of a range, or a star, lets these begin a tag. -/
def beginsWith (first : Option (List Char)) (head : List Char) : Bool :=
  match first with
  | some s => sameSubtag s head
  | none => !head.isEmpty && head.all fun c => (caseFold c).isAlpha

theorem denotes_first {first : Option (List Char)} (h : ∀ s ∈ first, IsPlain s) :
    Denotes (ReadsAll ((firstPieces first).map Nested.value))
      (textsWith fun w => beginsWith first w = true) := by
  cases first with
  | some s => exact denotes_literals (h s rfl).2
  | none =>
    refine (Denotes.readsAll_cons Denotes.chars_plus Denotes.readsAll_nil).congr fun w => ?_
    rw [mul_one, mem_textsWith, mem_textsWith]
    simp [beginsWith, contains_letters]

/-! ### Selection -/

theorem isWord_of_beginsWith {first : Option (List Char)} (h : ∀ s ∈ first, IsPlain s)
    {head : List Char} (hhead : beginsWith first head = true) : isWord head = true := by
  cases first with
  | some s => exact isWord_of_sameSubtag (h s rfl) hhead
  | none =>
    rw [beginsWith, Bool.and_eq_true, List.all_eq_true] at hhead
    rw [isWord, Bool.and_eq_true, List.all_eq_true]
    exact ⟨hhead.1, fun c hc => isAlnum_iff.mpr (.inl (isAlpha_iff.mp (hhead.2 c hc)))⟩

theorem selects_of_cut {first : Option String} {later : List String} {tag : String}
    {head : List Char} {rest : List (List Char)} (hcut : cut (· == '-') tag.toList = head :: rest) :
    (extended first later).selects tag = (beginsWith (first.map String.toList) head &&
      rest.all isWord && inOrder (later.map String.toList) rest) := by
  simp only [selects, hcut]
  cases first <;> rfl

/-- What a range asks of the subtags of a tag. -/
theorem selects_extended_iff {first : Option String} {later : List String} {tag : String}
    (hfirst : ∀ s ∈ first.map String.toList, IsPlain s) :
    (extended first later).selects tag = true ↔ ∃ head rest, tag.toList = head ++ hyphened rest ∧
      beginsWith (first.map String.toList) head = true ∧ (∀ s ∈ rest, isWord s = true) ∧
        inOrder (later.map String.toList) rest = true := by
  constructor
  · intro h
    obtain ⟨head, rest, hcut, htag, -⟩ := exists_cut tag.toList
    rw [selects_of_cut hcut, Bool.and_eq_true, Bool.and_eq_true, List.all_eq_true] at h
    exact ⟨head, rest, htag, h.1.1, h.1.2, h.2⟩
  · rintro ⟨head, rest, htag, hhead, hrest, hin⟩
    have hwords : ∀ s ∈ head :: rest, isWord s = true :=
      List.forall_mem_cons.mpr ⟨isWord_of_beginsWith hfirst hhead, hrest⟩
    have hcut : cut (· == '-') tag.toList = head :: rest := by
      rw [htag, cut_hyphened fun s hs => not_mem_of_isWord (hwords s hs)]
    rw [selects_of_cut hcut, Bool.and_eq_true, Bool.and_eq_true, List.all_eq_true]
    exact ⟨⟨hhead, hrest⟩, hin⟩

theorem depth_le_of_mem_rangePieces {first : Option (List Char)} {later : List (List Char)} :
    ∀ q ∈ rangePieces first later, q.depth ≤ 6 := by
  have hliterals (s : List Char) : ∀ q ∈ literals s, q.depth ≤ 6 := by
    intro q hq
    obtain ⟨c, -, rfl⟩ := List.mem_map.mp hq
    exact Nat.zero_le 6
  have hlater : ∀ q ∈ laterPieces later, q.depth ≤ 6 := by
    induction later with
    | nil => exact List.forall_mem_singleton.mpr (Nat.le_refl 6)
    | cons s later ih =>
      exact List.forall_mem_cons.mpr ⟨Nat.le_refl 6, List.forall_mem_cons.mpr
        ⟨Nat.zero_le 6, List.forall_mem_append.mpr ⟨hliterals s, ih⟩⟩⟩
  have hfirst : ∀ q ∈ firstPieces first, q.depth ≤ 6 := by
    cases first with
    | none => exact List.forall_mem_singleton.mpr (by decide)
    | some s => exact hliterals s
  exact List.forall_mem_cons.mpr ⟨Nat.zero_le 6, List.forall_mem_append.mpr
    ⟨List.forall_mem_append.mpr ⟨hfirst, hlater⟩, List.forall_mem_singleton.mpr (Nat.zero_le 6)⟩⟩

/-- A pattern with this text selects what the range selects. -/
theorem any_matchesAtStart_eq {first : Option String} {later : List String}
    (hfirst : ∀ s ∈ first.map String.toList, IsPlain s)
    (hlater : ∀ s ∈ later.map String.toList, IsPlain s) {text : String}
    (htext : text.toList = '(' :: '?' :: 'i' :: ')' ::
      rangeText (first.map String.toList) (later.map String.toList))
    (tag : String) :
    (parse? text).any (fun p => p.matchesAtStart tag) = (extended first later).selects tag := by
  obtain ⟨p, hparse, hfits⟩ :=
    parse?_of_spells (spells_range hfirst hlater) depth_le_of_mem_rangePieces (by decide) htext
  have hbody := (denotes_first hfirst).readsAll_append (denotes_later hlater)
  rw [hparse, Option.any_some, Bool.eq_iff_iff, matchesAtStart_iff, hfits,
    selects_extended_iff hfirst]
  simp only [rangePieces, List.map_cons, List.map_append, List.map_nil]
  rw [hbody.readsAll_anchored, Language.mem_mul]
  simp only [mem_textsWith]
  constructor
  · rintro ⟨head, hhead, _, ⟨rest, hrest, hin, rfl⟩, htag⟩
    exact ⟨head, rest, htag.symm, hhead, hrest, hin⟩
  · rintro ⟨head, rest, htag, hhead, hrest, hin⟩
    exact ⟨head, hhead, _, ⟨rest, hrest, hin, rfl⟩, htag.symm⟩

theorem toList_join_later (later : List String) :
    furtherSubtags.toList ++ (String.join (later.map fun s => "-" ++ s ++ furtherSubtags)).toList =
      laterText (later.map String.toList) := by
  induction later with
  | nil => simp [laterText]
  | cons s later ih =>
    rw [List.map_cons, List.map_cons, laterText, ← ih]
    simp [String.join_cons]

theorem isPlain_of_isSubtag {s : String} (h : isSubtag s = true) (hstar : s ≠ "*") :
    IsPlain s.toList := by
  rw [isSubtag, Bool.or_eq_true, beq_iff_eq, or_iff_right hstar, Bool.and_eq_true,
    List.all_eq_true] at h
  exact ⟨by simpa using h.1, h.2⟩

/-- To look for subtags is to match the pattern of the range. -/
theorem selects_eq (range tag : String) :
    (ofText range).selects tag = selectsByPattern range tag := by
  rw [ofText, selectsByPattern]
  split
  · rfl
  split
  · rfl
  unfold patternText?
  cases splitAt '-' range with
  | nil => rfl
  | cons first later =>
    simp only []
    split
    · rename_i hall
      obtain ⟨hfirst, hlater⟩ := List.forall_mem_cons.mp (List.all_eq_true.mp hall)
      rw [Option.bind_some]
      refine (any_matchesAtStart_eq ?_ ?_ ?_ tag).symm
      · intro s hs
        obtain ⟨t, ht, rfl⟩ := Option.map_eq_some_iff.mp hs
        split at ht
        · cases ht
        · rename_i hstar
          obtain rfl := Option.some.inj ht
          exact isPlain_of_isSubtag hfirst (by simpa using hstar)
      · intro s hs
        obtain ⟨t, ht, rfl⟩ := List.mem_map.mp hs
        obtain ⟨hmem, hstar⟩ := List.mem_filter.mp ht
        exact isPlain_of_isSubtag (hlater t hmem) (by simpa using hstar)
      · rw [rangeText, ← toList_join_later]
        have hfirst : (if first == "*" then "[A-Za-z]+" else first).toList =
            firstText ((if first == "*" then none else some first).map String.toList) := by
          split <;> rfl
        simp only [String.toList_append, hfirst]
        simp
    · rfl

end DomQuery.Text.LanguageRange
