import DomQuery.Pattern.Parser
import DomQuery.Proofs.Pattern.Reads
import DomQuery.Text.Ascii

/-!
# Reading the notation of patterns

Reading goes on from one state to another (`Proceeds`), and with enough fuel at the
start there is enough left at the end. A text that adds pieces wherever it stands
`Spells` them, and what is spelled one after the other is spelled by the whole.
Case is ignored here, for that is how the patterns of language ranges are read.

* `Spells.append`: texts are put together like their pieces.
* `parse?_of_spells`: the pattern of a text is the sequence of its pieces.
* `reads_concat`: a sequence reads what its pieces read in turn.
-/

namespace DomQuery.Pattern

open DomQuery.Text

/-- The flags after `(?i)`. -/
def caseless : Flags :=
  ⟨true, false, false, false, true, false⟩

/-- The state with further pieces, given in order. -/
def Progress.adds (p : Progress) (ps : List (Nested Pattern)) : Progress :=
  { p with pieces := (ps.map Piece.pattern).reverse ++ p.pieces }

/-- Reading goes on from one state to another, and has fuel left there if it had
enough. -/
def Proceeds (p : Progress) (cs : List Char) (q : Progress) (rest : List Char) : Prop :=
  ∀ fuel, cs.length < fuel → ∃ fuel', rest.length < fuel' ∧
    readAlternatives fuel p cs = readAlternatives fuel' q rest

/-- The text adds these pieces, wherever it stands, unless what follows makes a
repetition lazy. -/
def Spells (cs : List Char) (ps : List (Nested Pattern)) : Prop :=
  ∀ p rest, p.flags = caseless → rest.head? ≠ some '?' → Proceeds p (cs ++ rest) (p.adds ps) rest

namespace Proceeds

variable {p q r : Progress} {cs ds es : List Char}

theorem trans (h : Proceeds p cs q ds) (h' : Proceeds q ds r es) : Proceeds p cs r es :=
  fun fuel hfuel => by
    obtain ⟨fuel', hfuel', heq⟩ := h fuel hfuel
    obtain ⟨fuel'', hfuel'', heq'⟩ := h' fuel' hfuel'
    exact ⟨fuel'', hfuel'', heq.trans heq'⟩

/-- One step takes a character at least, and one unit of fuel. -/
theorem step {c : Char} (hlength : ds.length ≤ cs.length)
    (h : ∀ fuel, readAlternatives (fuel + 1) p (c :: cs) = readAlternatives fuel q ds) :
    Proceeds p (c :: cs) q ds := fun fuel hfuel => by
  rw [List.length_cons] at hfuel
  obtain ⟨fuel, rfl⟩ : ∃ k, fuel = k + 1 := ⟨fuel - 1, by omega⟩
  exact ⟨fuel, by omega, h fuel⟩

end Proceeds

theorem Progress.adds_adds (p : Progress) (ps qs : List (Nested Pattern)) :
    (p.adds ps).adds qs = p.adds (ps ++ qs) := by
  simp [Progress.adds]

theorem Spells.append {cs ds : List Char} {ps qs : List (Nested Pattern)} (h : Spells cs ps)
    (h' : Spells ds qs) (hd : ds.head? ≠ some '?') : Spells (cs ++ ds) (ps ++ qs) := by
  intro p rest hp hrest
  have hnext : (ds ++ rest).head? ≠ some '?' := by
    cases ds with
    | nil => exact hrest
    | cons d ds => exact hd
  rw [List.append_assoc, ← Progress.adds_adds]
  exact (h p _ hp hnext).trans (h' _ rest hp hrest)

theorem spells_nil : Spells [] [] :=
  fun _ _ _ _ fuel hfuel => ⟨fuel, hfuel, rfl⟩

/-! ### Pieces in sequence -/

/-- The pieces as one pattern. -/
def inSequence (ps : List (Nested Pattern)) : Nested Pattern :=
  concat (ps.map Piece.pattern).reverse

/-- The patterns read in turn. -/
def ReadsAll : List Pattern → Point → Point → Prop
  | [], x, y => x = y
  | p :: ps, x, y => ∃ z, p.Reads x z ∧ ReadsAll ps z y

theorem readsAll_append {ps qs : List Pattern} {x y : Point} :
    ReadsAll (ps ++ qs) x y ↔ ∃ z, ReadsAll ps x z ∧ ReadsAll qs z y := by
  induction ps generalizing x with
  | nil => simp [ReadsAll]
  | cons p ps ih =>
    constructor
    · rintro ⟨w, hw, hrest⟩
      obtain ⟨z, hz, hqs⟩ := ih.mp hrest
      exact ⟨z, ⟨w, hw, hz⟩, hqs⟩
    · rintro ⟨z, ⟨w, hw, hz⟩, hqs⟩
      exact ⟨w, hw, ih.mpr ⟨z, hz, hqs⟩⟩

theorem readsAll_singleton {p : Pattern} {x y : Point} : ReadsAll [p] x y ↔ p.Reads x y := by
  simp [ReadsAll]

/-- The pieces come last first. -/
theorem reads_concat (pieces : List Piece) {x y : Point} : (concat pieces).value.Reads x y ↔
    ReadsAll (pieces.reverse.map fun piece => piece.toNested.value) x y := by
  have hfold (others : List Piece) (q : Pattern) :
      (others.foldl (fun p piece => .seq piece.toNested.value p) q).Reads x y ↔
        ReadsAll (others.reverse.map (fun piece => piece.toNested.value) ++ [q]) x y := by
    -- each step puts one more piece in front of what is there
    induction others generalizing q with
    | nil => exact readsAll_singleton.symm
    | cons piece others ih =>
      rw [List.foldl_cons, ih, List.reverse_cons, List.map_append, List.append_assoc,
        readsAll_append, readsAll_append]
      simp [ReadsAll, Reads]
  match pieces with
  | [] => rfl
  | [piece] => exact readsAll_singleton.symm
  | last :: next :: others =>
    rw [List.reverse_cons, List.map_append]
    exact hfold (next :: others) last.toNested.value

theorem reads_inSequence {ps : List (Nested Pattern)} {x y : Point} :
    (inSequence ps).value.Reads x y ↔ ReadsAll (ps.map Nested.value) x y := by
  rw [inSequence, reads_concat, List.reverse_reverse, List.map_map]
  rfl

theorem depth_concat_le {pieces : List Piece} {n : Nat}
    (h : ∀ piece ∈ pieces, piece.toNested.depth ≤ n) : (concat pieces).depth ≤ n + 1 := by
  have hfold (pieces : List Piece) (m : Nat) (hm : m ≤ n)
      (h : ∀ piece ∈ pieces, piece.toNested.depth ≤ n) :
      pieces.foldl (fun n piece => max n piece.toNested.depth) m ≤ n := by
    induction pieces generalizing m with
    | nil => exact hm
    | cons piece rest ih =>
      obtain ⟨hpiece, hrest⟩ := List.forall_mem_cons.mp h
      exact ih _ (Nat.max_le.mpr ⟨hm, hpiece⟩) hrest
  match pieces with
  | [] => exact Nat.zero_le _
  | [piece] => exact Nat.le_succ_of_le (h piece List.mem_cons_self)
  | last :: next :: others => exact Nat.succ_le_succ (hfold _ 0 (Nat.zero_le n) h)

/-! ### Single pieces -/

section Steps

variable {p : Progress} (hp : p.flags = caseless)

include hp

theorem skip_caseless (cs : List Char) : p.flags.skip cs = cs := by
  rw [hp]
  rfl

theorem readAlternatives_close (fuel : Nat) (rest : List Char) :
    readAlternatives (fuel + 1) p (')' :: rest) = some (p, ')' :: rest) := by
  rw [readAlternatives, skip_caseless hp]
  rfl

theorem readAlternatives_nil (fuel : Nat) : readAlternatives (fuel + 1) p [] = some (p, []) := by
  rw [readAlternatives, skip_caseless hp]

theorem readAlternatives_group (fuel : Nat) (rest : List Char) :
    readAlternatives (fuel + 1) p ('(' :: '?' :: ':' :: rest) =
      readAlternatives.readGroup fuel p caseless rest := by
  rw [readAlternatives]
  simp only [hp]
  rfl

end Steps

/-- A piece of one character. -/
theorem spells_char {c : Char} {q : Pattern} {n : Nat} (hstep : ∀ fuel p rest, p.flags = caseless →
      readAlternatives (fuel + 1) p (c :: rest) = readAlternatives fuel (p.adds [⟨q, n⟩]) rest) :
    Spells [c] [⟨q, n⟩] := by
  intro p rest hp _
  change Proceeds p (c :: rest) _ rest
  exact .step (Nat.le_refl _) fun fuel => hstep fuel p rest hp

/-- A letter, a digit or a hyphen stands for itself in any case. -/
theorem spells_literal {c : Char} (hc : isAlnum c = true ∨ c = '-') :
    Spells [c] [⟨.chars (CharSet.ofRange c.toNat c.toNat).closeCase, 0⟩] := by
  refine spells_char fun fuel p rest hp => ?_
  -- none of the characters that begin another kind of piece is a letter, a digit or a hyphen
  have hatom : readAtom p.flags c rest = some (.literal c false, rest) := by
    unfold readAtom
    split
    case h_5 => rfl
    all_goals rcases hc with hc | hc <;> cases hc
  rw [readAlternatives, skip_caseless hp]
  split
  case h_10 h =>
    obtain ⟨rfl, rfl⟩ := List.cons.inj h
    rw [hatom, hp]
    rfl
  all_goals
    rename_i h
    cases h
    try rcases hc with hc | hc <;> cases hc

theorem spells_textStart : Spells ['^'] [⟨.look .textStart, 0⟩] :=
  spells_char fun fuel p rest hp => by
    rw [readAlternatives, skip_caseless hp]
    simp only [hp]
    rfl

theorem spells_textEnd : Spells ['$'] [⟨.look .textEnd, 0⟩] :=
  spells_char fun fuel p rest hp => by
    rw [readAlternatives, skip_caseless hp]
    simp only [hp]
    rfl

/-! ### Repetition and groups -/

section Repeated

variable {cs : List Char} {q : Pattern} {n : Nat} (h : Spells cs [⟨q, n⟩])

include h

/-- A repetition takes the piece that was added last. -/
theorem Spells.repeated {c : Char} {least : Nat} (hc : c ≠ '?')
    (hstep : ∀ fuel p rest, p.flags = caseless → readAlternatives (fuel + 1) p (c :: rest) =
      readAlternatives.readRepeated fuel p least none (dropLazy rest)) :
    Spells (cs ++ [c]) [⟨.times least none q, n + 1⟩] := by
  intro p rest hp hrest
  have hlazy : dropLazy rest = rest := by
    unfold dropLazy
    split
    · exact absurd rfl hrest
    · rfl
  rw [List.append_assoc]
  change Proceeds p (cs ++ c :: rest) _ rest
  refine (h p (c :: rest) hp (by simpa using hc)).trans (.step (Nat.le_refl _) fun fuel => ?_)
  rw [hstep fuel (p.adds [⟨q, n⟩]) rest hp, hlazy, readAlternatives.readRepeated]
  have hq : q.repeated least none = .times least none q := by simp [Pattern.repeated]
  simp [Progress.adds, repeatLast, hq]

theorem Spells.plus : Spells (cs ++ ['+']) [⟨.times 1 none q, n + 1⟩] :=
  h.repeated (by decide) fun fuel p rest hp => by
    rw [readAlternatives, skip_caseless hp]
    rfl

theorem Spells.star : Spells (cs ++ ['*']) [⟨.times 0 none q, n + 1⟩] :=
  h.repeated (by decide) fun fuel p rest hp => by
    rw [readAlternatives, skip_caseless hp]
    rfl

end Repeated

theorem Spells.group {cs : List Char} {ps : List (Nested Pattern)} (h : Spells cs ps) :
    Spells ('(' :: '?' :: ':' :: (cs ++ [')']))
      [⟨(inSequence ps).value, (inSequence ps).depth + 1⟩] := by
  intro p rest hp hrest fuel hfuel
  obtain ⟨fuel, rfl⟩ : ∃ k, fuel = k + 1 := ⟨fuel - 1, by omega⟩
  simp only [List.cons_append, List.length_cons, List.length_append, List.append_assoc,
    List.nil_append] at hfuel ⊢
  obtain ⟨inner, hinner, hread⟩ := h ⟨caseless, [], [], p.names⟩ (')' :: rest) rfl (by simp) fuel
    (by simp only [List.length_append, List.length_cons]; omega)
  obtain ⟨inner, rfl⟩ : ∃ k, inner = k + 1 := ⟨inner - 1, by omega⟩
  rw [readAlternatives_close rfl] at hread
  refine ⟨fuel, by omega, ?_⟩
  rw [readAlternatives_group hp, readAlternatives.readGroup, hread]
  simp [Progress.adds, Progress.toNested, alternation, Progress.add, inSequence]

/-! ### Whole patterns -/

/-- The pattern of a text that ignores case is the sequence of its pieces. -/
theorem parse?_of_spells {cs : List Char} {ps : List (Nested Pattern)} (h : Spells cs ps) {n : Nat}
    (hdepth : ∀ q ∈ ps, q.depth ≤ n) (hn : n < maxDepth) {text : String}
    (htext : text.toList = '(' :: '?' :: 'i' :: ')' :: cs) :
    ∃ p, parse? text = some p ∧ ∀ x, p.Fits x ↔ ∃ y, ReadsAll (ps.map Nested.value) x y := by
  have hflags (fuel : Nat) : readAlternatives (fuel + 1) ⟨.initial, [], [], []⟩ text.toList =
      readAlternatives fuel ⟨caseless, [], [.flags], []⟩ cs := by
    rw [htext, readAlternatives]
    rfl
  have hlength : cs.length < text.length := by
    rw [← String.length_toList, htext]
    simp only [List.length_cons]
    omega
  obtain ⟨fuel, hfuel, hread⟩ := h ⟨caseless, [], [.flags], []⟩ [] rfl (by simp) text.length
    (by simpa using hlength)
  rw [List.append_nil] at hread
  obtain ⟨fuel, rfl⟩ : ∃ k, fuel = k + 1 := ⟨fuel - 1, by omega⟩
  rw [readAlternatives_nil rfl] at hread
  -- the flags are a piece of their own, which reads nothing
  have hpieces : ∀ piece ∈ (ps.map Piece.pattern).reverse ++ [.flags],
      piece.toNested.depth ≤ n := by
    intro piece hpiece
    rcases List.mem_append.mp hpiece with hpiece | hpiece
    · obtain ⟨q, hq, rfl⟩ := List.mem_map.mp (List.mem_reverse.mp hpiece)
      exact hdepth q hq
    · rw [List.mem_singleton.mp hpiece]
      exact Nat.zero_le n
  have hnested : (concat ((ps.map Piece.pattern).reverse ++ [.flags])).depth ≤ maxDepth :=
    (depth_concat_le hpieces).trans hn
  refine ⟨(concat ((ps.map Piece.pattern).reverse ++ [.flags])).value, ?_, fun x => ?_⟩
  · rw [parse?, hflags, hread]
    exact if_pos hnested
  · refine exists_congr fun y => ?_
    rw [reads_concat, List.reverse_append, List.reverse_reverse, List.map_append, List.map_map]
    simp only [List.reverse_singleton, List.map_singleton, List.singleton_append, ReadsAll]
    exact exists_eq_left'

end DomQuery.Pattern
