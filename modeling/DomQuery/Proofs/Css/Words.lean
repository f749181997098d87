import DomQuery.Proofs.Css.Said

/-!
# Words with commas between them

Tokens in a row put a word together from what they say, and commas stand between words.
The characters of such a list are told apart here from what they are read as: a word with
a star in it is written without escapes, and other words are written as identifiers.

* `Says`: how words are read from a text.
* `Says.group`: the text of the first word, and what it has lost.
* `escapeFree_of_says`: if words are read back from their list, each of those with a star
  needs no escapes.
-/

namespace DomQuery.Css

open DomQuery.Text

variable {c : Char} {cs rest said word : List Char} {words : List (List Char)} {t : Token}
  {stars : Prop}

/-! ### Reading words -/

/-- The text after an opening parenthesis says the words. Single stars are read only if `stars`
holds. -/
inductive Says (stars : Prop) : List Char → List (List Char) → Prop
  | nil : Says stars [] [[]]
  | close (rest : List Char) : Says stars (')' :: rest) [[]]
  | comma {rest : List Char} {words : List (List Char)} (h : Says stars rest words) :
    Says stars (',' :: rest) ([] :: words)
  | token {cs rest said word : List Char} {words : List (List Char)} {t : Token}
      (hscan : Token.scan? cs = some (t, rest)) (hsaid : t.said? = some said)
      (hstar : t = .delim '*' → stars) (h : Says stars rest (word :: words)) :
    Says stars cs ((said ++ word) :: words)

namespace Says

theorem exists_cons (h : Says stars cs words) : ∃ word words', words = word :: words' := by
  cases h with
  | nil | close | comma | token => exact ⟨_, _, rfl⟩

theorem of_comma (h : Says stars (',' :: rest) (word :: words)) :
    word = [] ∧ Says stars rest words := by
  cases h with
  | comma h => exact ⟨rfl, h⟩
  | token hscan hsaid =>
    obtain ⟨rfl, -⟩ : Token.comma = _ ∧ rest = _ := Prod.mk.inj (Option.some.inj hscan)
    cases hsaid

theorem of_close (h : Says stars (')' :: rest) (word :: words)) : word = [] ∧ words = [] := by
  cases h with
  | close => exact ⟨rfl, rfl⟩
  | token hscan hsaid =>
    obtain ⟨rfl, -⟩ : Token.closeParen = _ ∧ rest = _ := Prod.mk.inj (Option.some.inj hscan)
    cases hsaid

theorem of_token (h : Says stars cs (word :: words)) (hscan : Token.scan? cs = some (t, rest))
    (hsaid : t.said? = some said) :
    ∃ word', word = said ++ word' ∧ Says stars rest (word' :: words) := by
  cases h with
  | nil => cases hscan
  | close =>
    obtain ⟨rfl, -⟩ : Token.closeParen = _ ∧ _ = rest := Prod.mk.inj (Option.some.inj hscan)
    cases hsaid
  | comma =>
    obtain ⟨rfl, -⟩ : Token.comma = _ ∧ _ = rest := Prod.mk.inj (Option.some.inj hscan)
    cases hsaid
  | token hscan' hsaid' _ h =>
    obtain ⟨rfl, rfl⟩ := Prod.mk.inj (Option.some.inj (hscan.symm.trans hscan'))
    obtain rfl := Option.some.inj (hsaid.symm.trans hsaid')
    exact ⟨_, rfl, h⟩

theorem isListed (h : Says stars cs words) (hscan : Token.scan? cs = some (t, rest)) :
    t.isListed = true := by
  cases h with
  | nil => cases hscan
  | close =>
    obtain ⟨rfl, -⟩ : Token.closeParen = _ ∧ _ = rest := Prod.mk.inj (Option.some.inj hscan)
    rfl
  | comma =>
    obtain ⟨rfl, -⟩ : Token.comma = _ ∧ _ = rest := Prod.mk.inj (Option.some.inj hscan)
    rfl
  | token hscan' hsaid =>
    obtain ⟨rfl, -⟩ := Prod.mk.inj (Option.some.inj (hscan.symm.trans hscan'))
    rw [Token.isListed, hsaid]
    rfl

/-- Blanks in front say nothing. -/
theorem of_blank (h : Says stars (' ' :: cs) (word :: words)) : Says stars cs (word :: words) := by
  have hscan : ∀ {c cs}, isSpace c = true → Token.scan? (c :: cs) = some (.whitespace
      (String.ofList (c :: cs.takeWhile isSpace)), cs.dropWhile isSpace) := by
    intro c cs hc
    refine congrArg some ?_
    unfold scanFrom
    rw [if_pos hc, List.span_eq_takeWhile_dropWhile]
  obtain ⟨word', rfl, hrest⟩ := h.of_token (hscan rfl) rfl
  rcases cs with _ | ⟨c, cs⟩
  · exact hrest
  rcases hc : isSpace c with _ | _
  · rwa [List.dropWhile_cons, hc] at hrest
  · rw [List.dropWhile_cons, hc, if_pos rfl] at hrest
    exact .token (hscan hc) rfl nofun hrest

end Says

/-! ### Words without escapes -/

/-- Between its stars, the word is made of identifiers that are written as they are. -/
def EscapeFree (word : List Char) : Prop :=
  ∀ part ∈ word.splitOn '*', identifierChars part = part

instance (word : List Char) : Decidable (EscapeFree word) :=
  inferInstanceAs (Decidable (∀ part ∈ word.splitOn '*', identifierChars part = part))

theorem splitOn_of_notMem (h : '*' ∉ word) : word.splitOn '*' = [word] := by
  have hsplit : (['*'].intercalate [word]).splitOn '*' = [word] :=
    List.splitOn_intercalate '*' (by simpa using h) (List.cons_ne_nil _ _)
  simpa using hsplit

theorem splitOn_append_star (h : '*' ∉ word) (cs : List Char) :
    (word ++ '*' :: cs).splitOn '*' = word :: cs.splitOn '*' := by
  have hword : ∀ c ∈ word, (c == '*') = false := fun c hc =>
    beq_false_of_ne fun heq => h (heq ▸ hc)
  rw [List.splitOn_eq_splitOnP, List.splitOn_eq_splitOnP,
    List.splitOnP_append_cons_of_forall_mem hword '*' rfl]

theorem escapeFree_of_notMem (h : '*' ∉ word) :
    EscapeFree word ↔ identifierChars word = word := by
  rw [EscapeFree, splitOn_of_notMem h, List.forall_mem_singleton]

theorem escapeFree_append_star (h : '*' ∉ word) (cs : List Char) :
    EscapeFree (word ++ '*' :: cs) ↔ identifierChars word = word ∧ EscapeFree cs := by
  rw [EscapeFree, splitOn_append_star h, List.forall_mem_cons]
  rfl

/-- What says just itself: stars, and identifiers that are written as they are, no two of them side
by side. -/
inductive Ranged : List Char → Prop
  | nil : Ranged []
  | star {cs : List Char} (h : Ranged cs) : Ranged ('*' :: cs)
  | ident {name cs : List Char} (hname : identifierChars name = name) (hne : name ≠ [])
      (hchars : ∀ c ∈ name, isNameChar c = true) (hcs : ∀ c ∈ cs.head?, c = '*') (h : Ranged cs) :
    Ranged (name ++ cs)

namespace Ranged

theorem head? (h : Ranged cs) : ∀ c ∈ cs.head?, c = '*' ∨ isNameChar c = true := by
  cases h with
  | nil => exact nofun
  | star =>
    rintro _ ⟨⟩
    exact .inl rfl
  | ident _ hne hchars =>
    obtain ⟨d, name, rfl⟩ := List.exists_cons_of_ne_nil hne
    rintro _ ⟨⟩
    exact .inr (hchars d List.mem_cons_self)

theorem escapeFree (h : Ranged cs) : EscapeFree cs := by
  induction h with
  | nil => exact (escapeFree_of_notMem List.not_mem_nil).mpr rfl
  | star _ ih => exact (escapeFree_append_star List.not_mem_nil _).mpr ⟨rfl, ih⟩
  | @ident name cs hname _ hchars hcs _ ih =>
    have hstar : '*' ∉ name := fun hmem => absurd (hchars _ hmem) (by decide)
    rcases cs with _ | ⟨c, cs⟩
    · rw [List.append_nil]
      exact (escapeFree_of_notMem hstar).mpr hname
    · obtain rfl := hcs c rfl
      exact (escapeFree_append_star hstar cs).mpr
        ⟨hname, ((escapeFree_append_star List.not_mem_nil cs).mp ih).2⟩

end Ranged

/-! ### The first word -/

/-- The text ends a word, and the words after it are these. -/
inductive EndsWord (stars : Prop) : List Char → List (List Char) → Prop
  | nil : EndsWord stars [] []
  | close (rest : List Char) : EndsWord stars (')' :: rest) []
  | comma {rest : List Char} {words : List (List Char)} (h : Says stars rest words) :
    EndsWord stars (',' :: rest) words

theorem EndsWord.head? (h : EndsWord stars rest words) : ∀ c ∈ rest.head?, c = ')' ∨ c = ',' := by
  cases h with
  | nil => exact nofun
  | close =>
    rintro _ ⟨⟩
    exact .inl rfl
  | comma =>
    rintro _ ⟨⟩
    exact .inr rfl

/-- A token that says just what is written, in front of more of that kind. -/
theorem Bare.ranged {source source' : List Char} (h : Bare t source (source' ++ rest))
    (hsource : Ranged source') (hrest : ∀ c ∈ rest.head?, c = ')' ∨ c = ',') :
    Ranged (source ++ source') := by
  have hnext : ∀ c ∈ (source' ++ rest).head?, c ≠ '\\' := by
    rcases source' with _ | ⟨d, source'⟩
    · rintro _ hc rfl
      rcases hrest _ hc with h | h
      all_goals cases h
    · rintro _ ⟨⟩ rfl
      rcases hsource.head? _ rfl with h | h
      all_goals cases h
  cases h with
  | star hstar =>
    rw [hstar]
    exact .star hsource
  | ident hname hne hchars hend =>
    refine .ident hname hne hchars (fun c hc => ?_) hsource
    obtain ⟨tail, rfl⟩ := List.head?_eq_some_iff.mp hc
    exact (hsource.head? c hc).resolve_right (Bool.eq_false_iff.mp (hend c rfl))
  | hyphen _ hend => exact absurd rfl (hnext '\\' (by rw [hend]; rfl))

/-- The text of the first word says no more than is written there, and if it says just that, the
word needs no escapes. -/
theorem Says.group (h : Says stars cs (word :: words)) (hfirm : Firm cs) :
    ∃ source rest, cs = source ++ rest ∧ Tells source word ∧
      (word = source → Ranged source ∧ ('*' ∈ source → stars)) ∧ EndsWord stars rest words := by
  generalize hw : word :: words = all at h
  induction h generalizing word with
  | nil =>
    obtain ⟨rfl, rfl⟩ := List.cons.inj hw
    exact ⟨[], [], rfl, .verbatim [], fun _ => ⟨.nil, nofun⟩, .nil⟩
  | close rest =>
    obtain ⟨rfl, rfl⟩ := List.cons.inj hw
    exact ⟨[], _, rfl, .verbatim [], fun _ => ⟨.nil, nofun⟩, .close rest⟩
  | comma h =>
    obtain ⟨rfl, rfl⟩ := List.cons.inj hw
    exact ⟨[], _, rfl, .verbatim [], fun _ => ⟨.nil, nofun⟩, .comma h⟩
  | @token cs rest said word' words' t hscan hsaid hstar h ih =>
    obtain ⟨rfl, rfl⟩ := List.cons.inj hw
    obtain ⟨source, rfl, htells, hbare⟩ := tells_of_scan? hfirm hscan hsaid
    obtain ⟨source', rest', rfl, htells', hranged, hends⟩ :=
      ih (hfirm.suffix (List.suffix_append _ _)) rfl
    refine ⟨source ++ source', rest', (List.append_assoc _ _ _).symm, htells.append htells',
      fun heq => ?_, hends⟩
    obtain ⟨hsame, hsame'⟩ : said = source ∧ word' = source' := by
      have hle := htells.length_le
      have hle' := htells'.length_le
      have hlength := congrArg List.length heq
      rw [List.length_append, List.length_append] at hlength
      exact List.append_inj heq (by omega)
    obtain ⟨hsource', hstars⟩ := hranged hsame'
    refine ⟨(hbare hsame).ranged hsource' hends.head?, fun hmem => ?_⟩
    rcases List.mem_append.mp hmem with hmem | hmem
    · cases hbare hsame with
      | star _ ht => exact hstar ht
      | ident _ _ hchars => exact absurd (hchars _ hmem) (by decide)
      | hyphen hsource => exact absurd (hsource ▸ hmem) (by decide)
    · exact hstars hmem

/-! ### Words as they are written -/

/-- A word with a star in it is written as it is, other words as identifiers. -/
def wordChars (word : List Char) : List Char :=
  if '*' ∈ word then word else identifierChars word

/-- What comes after a word: more words, and a closing parenthesis. -/
def listTail : List (List Char) → List Char
  | [] => [')']
  | word :: words => ',' :: ' ' :: (wordChars word ++ listTail words)

theorem wordChars_of_escapeFree (h : EscapeFree word) : wordChars word = word := by
  unfold wordChars
  split
  · rfl
  · exact (escapeFree_of_notMem ‹_›).mp h

theorem suffix_append_cases {α : Type} {s l l' : List α} (h : s <:+ l ++ l') :
    s <:+ l' ∨ ∃ a s', s = a :: s' ++ l' ∧ a :: s' <:+ l := by
  obtain ⟨before, heq⟩ := h
  rcases List.append_eq_append_iff.mp heq with ⟨_ | ⟨a, s'⟩, rfl, rfl⟩ | ⟨between, rfl, rfl⟩
  · exact .inl List.suffix_rfl
  · exact .inr ⟨a, s', rfl, List.suffix_append before _⟩
  · exact .inl (List.suffix_append between s)

theorem exists_append_of_length_le {α : Type} {l r l' r' : List α} (h : l ++ r = l' ++ r')
    (hle : l.length ≤ l'.length) : ∃ between, l' = l ++ between ∧ r = between ++ r' := by
  rcases List.append_eq_append_iff.mp h with hbetween | ⟨between, rfl, rfl⟩
  · exact hbetween
  · rw [List.length_append] at hle
    obtain rfl : between = [] := List.length_eq_zero_iff.mp (by omega)
    exact ⟨[], by simp⟩

theorem comma_notMem_hexEscape (h : c.toNat < 0x80) : ',' ∉ hexEscape c := by
  have hall : ∀ n : Fin 128, ',' ∉ '\\' :: Nat.toDigits 16 n ++ [' '] := by decide
  exact hall ⟨c.toNat, h⟩

/-- A comma is only written behind a backslash. -/
theorem eq_nil_of_suffix_nameChar (h : ',' :: rest <:+ nameChar c) : rest = [] := by
  unfold nameChar at h
  split at h
  · simpa using h.length_le
  split at h
  · simpa using h.length_le
  split at h
  · exact absurd (h.mem List.mem_cons_self) (comma_notMem_hexEscape (toNat_lt_of_isControl ‹_›))
  · rcases List.suffix_cons_iff.mp h with heq | h
    · cases (List.cons.inj heq).1
    · simpa using h.length_le

/-- After each comma in the text, a proper end of the word follows as a name. -/
def Resumes (text word : List Char) : Prop :=
  ∀ rest, ',' :: rest <:+ text →
    ∃ word', rest = serializeName word' ∧ word' <:+ word ∧ word' ≠ word

namespace Resumes

variable {text : List Char}

theorem nil : Resumes [] word :=
  fun _ h => nomatch List.eq_nil_of_suffix_nil h

theorem longer (h : Resumes text word) (hs : ',' :: rest <:+ text) :
    ∃ word', rest = serializeName word' ∧ word' <:+ c :: word ∧ word' ≠ c :: word := by
  obtain ⟨word', hrest, hw, -⟩ := h rest hs
  refine ⟨word', hrest, hw.trans (List.suffix_cons c word), ?_⟩
  rintro rfl
  exact absurd hw.length_le (Nat.not_succ_le_self _)

theorem cons {d : Char} (h : Resumes text word) (hd : d ≠ ',') :
    Resumes (d :: text) (c :: word) := by
  intro rest hs
  rcases List.suffix_cons_iff.mp hs with heq | hs
  · exact absurd (List.cons.inj heq).1.symm hd
  · exact h.longer hs

/-- A piece that has a comma at most at its end, before a name. -/
theorem append {piece : List Char} (h : Resumes (serializeName word) word)
    (hpiece : ∀ rest, ',' :: rest <:+ piece → rest = []) :
    Resumes (piece ++ serializeName word) (c :: word) := by
  intro rest hs
  rcases suffix_append_cases hs with hs | ⟨d, piece', heq, hpiece'⟩
  · exact h.longer hs
  · obtain ⟨rfl, rfl⟩ := List.cons.inj heq
    rw [hpiece piece' hpiece']
    have hne : word ≠ c :: word := fun heq => absurd (congrArg List.length heq) (by simp)
    exact ⟨word, rfl, List.suffix_cons c word, hne⟩

end Resumes

theorem resumes_serializeName (word : List Char) : Resumes (serializeName word) word := by
  induction word with
  | nil => exact .nil
  | cons c word ih => exact ih.append fun _ => eq_nil_of_suffix_nameChar

theorem resumes_serializeStart (word : List Char) : Resumes (serializeStart word) word := by
  rcases word with _ | ⟨c, word⟩
  · exact .nil
  rw [serializeStart]
  split
  · refine (resumes_serializeName word).append fun rest hs => ?_
    exact absurd (hs.mem List.mem_cons_self) (comma_notMem_hexEscape (toNat_lt_of_isDigit ‹_›))
  · exact resumes_serializeName (c :: word)

theorem resumes_identifierChars (word : List Char) : Resumes (identifierChars word) word := by
  have hhyphen : ('-' : Char) ≠ ',' := by decide
  unfold identifierChars
  split
  · exact ((resumes_serializeName _).cons hhyphen).cons hhyphen
  · exact fun rest hs => absurd (hs.mem List.mem_cons_self) (by decide)
  · exact (resumes_serializeStart _).cons hhyphen
  · exact resumes_serializeStart _

theorem nul_notMem_hexEscape (h : c.toNat < 0x80) : '\x00' ∉ hexEscape c := by
  have hall : ∀ n : Fin 128, '\x00' ∉ '\\' :: Nat.toDigits 16 n ++ [' '] := by decide
  exact hall ⟨c.toNat, h⟩

theorem nul_notMem_serializeName (h : '\x00' ∉ word) : '\x00' ∉ serializeName word := by
  intro hmem
  obtain ⟨c, hc, hmem⟩ := List.mem_flatMap.mp hmem
  have hnul : '\x00' ≠ c := fun heq => h (heq ▸ hc)
  unfold nameChar at hmem
  split at hmem
  · exact absurd hmem (by decide)
  split at hmem
  · exact hnul (List.mem_singleton.mp hmem)
  split at hmem
  · exact nul_notMem_hexEscape (toNat_lt_of_isControl ‹_›) hmem
  · simp [hnul] at hmem

theorem nul_notMem_serializeStart (h : '\x00' ∉ word) : '\x00' ∉ serializeStart word := by
  rcases word with _ | ⟨c, word⟩
  · exact List.not_mem_nil
  rw [serializeStart]
  split
  · rw [List.mem_append, not_or]
    exact ⟨nul_notMem_hexEscape (toNat_lt_of_isDigit ‹_›),
      nul_notMem_serializeName fun hmem => h (List.mem_cons_of_mem _ hmem)⟩
  · exact nul_notMem_serializeName h

theorem nul_notMem_identifierChars (h : '\x00' ∉ word) : '\x00' ∉ identifierChars word := by
  unfold identifierChars
  split
  · have hname := nul_notMem_serializeName fun hmem =>
      h (List.mem_cons_of_mem _ (List.mem_cons_of_mem _ hmem))
    simpa using hname
  · decide
  · have hname := nul_notMem_serializeStart fun hmem => h (List.mem_cons_of_mem _ hmem)
    simpa using hname
  · exact nul_notMem_serializeStart h

theorem nul_notMem_wordChars (h : '\x00' ∉ word) : '\x00' ∉ wordChars word := by
  unfold wordChars
  split
  · exact h
  · exact nul_notMem_identifierChars h

theorem firm_listTail (h : ∀ word ∈ words, '\x00' ∉ word) : Firm (listTail words) := by
  induction words with
  | nil => exact ⟨by decide, by decide⟩
  | cons word words ih =>
    obtain ⟨hword, hwords⟩ := List.forall_mem_cons.mp h
    obtain ⟨hnul, hlast⟩ := ih hwords
    refine ⟨?_, ?_⟩
    · have := nul_notMem_wordChars hword
      simp [listTail, hnul, this]
    · have hne : listTail words ≠ [] := by
        rcases words with _ | ⟨next, words⟩
        · exact List.cons_ne_nil _ _
        · exact List.cons_ne_nil _ _
      have hlist : listTail (word :: words) = (',' :: ' ' :: wordChars word) ++ listTail words := rfl
      rwa [hlist, List.getLast?_append_of_ne_nil _ hne]

theorem firm_list (h : ∀ w ∈ word :: words, '\x00' ∉ w) :
    Firm (wordChars word ++ listTail words) := by
  have hfirm := firm_listTail h
  rw [listTail] at hfirm
  exact hfirm.tail.tail

theorem stops_listTail (words : List (List Char)) : Stops (listTail words) := by
  rcases words with _ | ⟨next, words⟩
  · exact ⟨[], .inr rfl⟩
  · exact ⟨_, .inl rfl⟩

theorem Stops.endsName (h : Stops rest) : EndsName rest := by
  obtain ⟨rest, rfl | rfl⟩ := h
  · exact endsName_cons (by decide)
  · exact endsName_cons (by decide)

theorem Stops.head?_ne (h : Stops rest) (hc : c ≠ ',' ∧ c ≠ ')') : rest.head? ≠ some c := by
  obtain ⟨rest, rfl | rfl⟩ := h
  · exact fun heq => hc.1 (Option.some.inj heq).symm
  · exact fun heq => hc.2 (Option.some.inj heq).symm

theorem isName_ofList (hne : word ≠ []) (hnul : '\x00' ∉ word) : IsName (String.ofList word) :=
  ⟨fun heq => hne (by simpa using congrArg String.toList heq), by rwa [String.toList_ofList]⟩

theorem Says.of_listTail {words' : List (List Char)}
    (h : Says stars (listTail words) (word :: words')) : word = [] := by
  rcases words with _ | ⟨next, words⟩
  · exact h.of_close.1
  · exact h.of_comma.1

theorem suffix_tail_of_append {α : Type} {l between s : List α} (h : l = between ++ s)
    (hne : between ≠ []) : s <:+ l.tail := by
  obtain ⟨a, between, rfl⟩ := List.exists_cons_of_ne_nil hne
  rw [h]
  exact List.suffix_append between s

/-- A word that ends behind the first character after it takes all of the list with it. -/
def EndsLast (stars : Prop) (words : List (List Char)) : Prop :=
  ∀ after, EndsWord stars after words → after <:+ (listTail words).tail → words = [] ∧ after = []

/-- A word with a star is not said by a text that begins within it, behind a comma. -/
theorem not_says_within_star (hlast : EndsLast stars words) {within : List Char}
    (hfirm : Firm (within ++ listTail words)) (hs : ',' :: within <:+ word) :
    ¬ Says stars (within ++ listTail words) (word :: words) := by
  intro hspoken
  have hle := hs.length_le
  obtain ⟨source, after, heq, htells, -, hends⟩ := hspoken.group hfirm
  have hsource := htells.length_le
  rw [List.length_cons] at hle
  obtain ⟨between, rfl, htail⟩ := exists_append_of_length_le heq (by omega)
  have hne : between ≠ [] := by
    rintro rfl
    rw [List.append_nil] at hsource
    omega
  obtain ⟨rfl, rfl⟩ := hlast after hends (suffix_tail_of_append htail hne)
  obtain rfl : between = [')'] := by simpa [listTail] using htail.symm
  rw [List.length_append, List.length_singleton] at hsource
  have hword : word = within ++ [')'] :=
    htells.eq_or_lt.resolve_right (by rw [List.length_append, List.length_singleton]; omega)
  rw [hword] at hs
  exact concat_ne_cons (by decide) within (hs.eq_of_length (by simp)).symm

/-- A word that is written as an identifier is not said by the rest of it, behind a comma. -/
theorem not_says_within_name (hnul : '\x00' ∉ word) {within : List Char}
    (hs : ',' :: within <:+ identifierChars word) :
    ¬ Says stars (within ++ listTail words) (word :: words) := by
  intro hspoken
  obtain ⟨word', rfl, hword', hne⟩ := resumes_identifierChars word within hs
  rcases word' with _ | ⟨c, word'⟩
  · exact hne hspoken.of_listTail.symm
  have hnul' : '\x00' ∉ c :: word' := fun hmem => hnul (hword'.mem hmem)
  have hwrites := writes_serializeName hnul'
  have htext : serializeName (c :: word') ≠ [] := by
    have := hwrites.length_le
    exact List.ne_nil_of_length_pos (Nat.lt_of_lt_of_le (Nat.succ_pos _) this)
  have hhead : ∀ d ∈ (serializeName (c :: word')).head?, d = '\\' ∨ isNameChar d = true := by
    have hc : c ≠ '\x00' := fun hc => hnul' (hc ▸ List.mem_cons_self)
    rw [serializeName, List.flatMap_cons]
    rcases nameChar_cases hc with ⟨hchar, hname⟩ | ⟨d, text, hchar, -⟩
    · rw [hchar]
      rintro _ ⟨⟩
      exact .inr hname
    · rw [hchar]
      rintro _ ⟨⟩
      exact .inl rfl
  obtain ⟨t, rest, hscan⟩ : ∃ t rest, Token.scan? (serializeName (c :: word') ++ listTail words) =
      some (t, rest) := by
    obtain ⟨d, text, htext⟩ := List.exists_cons_of_ne_nil htext
    rw [htext]
    exact ⟨_, _, rfl⟩
  obtain ⟨rfl, rfl⟩ := scan?_of_writes hwrites htext hhead (stops_listTail words).endsName hscan
    (hspoken.isListed hscan)
  obtain ⟨later, hlater, hrest⟩ := hspoken.of_token hscan rfl
  rw [hrest.of_listTail, List.append_nil, String.toList_ofList] at hlater
  exact hne hlater.symm

/-- Behind a comma within the list, the list is not said once more. -/
theorem not_says_behind_comma (hlast : EndsLast stars words)
    (hnul : ∀ w ∈ word :: words, '\x00' ∉ w)
    (hs : ',' :: rest <:+ wordChars word ++ listTail words) : ¬ Says stars rest (word :: words) := by
  have hfirm : Firm rest := (firm_list hnul).suffix ((List.suffix_cons _ _).trans hs)
  rcases suffix_append_cases hs with hs | ⟨c, within, heq, hwithin⟩
  · intro hspoken
    obtain ⟨source, after, rfl, -, -, hends⟩ := hspoken.group hfirm
    have hafter : after <:+ (listTail words).tail := by
      obtain ⟨before, heq⟩ := hs
      have hlist : listTail words = (before ++ ',' :: source) ++ after := by rw [← heq]; simp
      exact suffix_tail_of_append hlist (by simp)
    obtain ⟨rfl, rfl⟩ := hlast after hends hafter
    exact absurd (hs.mem List.mem_cons_self) (by decide)
  · obtain ⟨rfl, rfl⟩ := List.cons.inj heq
    unfold wordChars at hwithin
    split at hwithin
    · exact not_says_within_star hlast hfirm hwithin
    · exact not_says_within_name (List.forall_mem_cons.mp hnul).1 hwithin

/-- No word is read past its end and then goes on with the rest of the list. -/
theorem endsLast (hnul : ∀ w ∈ words, '\x00' ∉ w) : EndsLast stars words := by
  induction words with
  | nil => exact fun after _ hs => ⟨rfl, List.eq_nil_of_suffix_nil hs⟩
  | cons next words ih =>
    intro after hends hs
    cases hends with
    | comma hspoken =>
      rcases List.suffix_cons_iff.mp hs with heq | hs
      · cases (List.cons.inj heq).1
      · exact absurd hspoken
          (not_says_behind_comma (ih (List.forall_mem_cons.mp hnul).2) hnul hs)

theorem EndsWord.says_empty (h : EndsWord stars rest words) : Says stars rest ([] :: words) := by
  cases h with
  | nil => exact .nil
  | close rest => exact .close rest
  | comma h => exact .comma h

/-- If a list of words is read from its text, so is its first word from the text of that word. -/
theorem Says.first (hnul : ∀ w ∈ word :: words, '\x00' ∉ w)
    (h : Says stars (wordChars word ++ listTail words) (word :: words)) :
    ('*' ∈ word → stars ∧ EscapeFree word) ∧ Says stars (listTail words) ([] :: words) := by
  obtain ⟨hword, hwords⟩ := List.forall_mem_cons.mp hnul
  have hfirm := firm_list hnul
  unfold wordChars at h hfirm
  split at h
  · rename_i hmem
    rw [if_pos hmem] at hfirm
    obtain ⟨source, after, heq, htells, hranged, hends⟩ := h.group hfirm
    obtain ⟨_ | ⟨c, between⟩, rfl, htail⟩ := exists_append_of_length_le heq htells.length_le
    · rw [List.append_nil] at hranged
      obtain ⟨hfree, hstars⟩ := hranged rfl
      rw [List.nil_append] at htail
      rw [htail]
      exact ⟨fun hmem => ⟨hstars hmem, hfree.escapeFree⟩, hends.says_empty⟩
    · -- A closing parenthesis that the word has taken is missing from it.
      obtain ⟨rfl, rfl⟩ := endsLast hwords after hends
        (suffix_tail_of_append htail (List.cons_ne_nil _ _))
      rw [List.append_nil] at htail
      rw [← htail] at htells
      refine absurd ?_ (htells.loses [])
      simp [listTail]
  · refine ⟨fun hmem => absurd hmem ‹_›, ?_⟩
    rcases word with _ | ⟨c, word⟩
    · exact h
    · have hstops := stops_listTail words
      have hscan := scan?_ident (isName_ofList (List.cons_ne_nil c word) hword) hstops.endsName
        (hstops.head?_ne (by decide))
      rw [toList_identifier, String.toList_ofList] at hscan
      obtain ⟨later, hlater, hrest⟩ := h.of_token hscan rfl
      obtain rfl := hrest.of_listTail
      exact hrest

/-- If the words are read back from their list, those with a star need no escapes. -/
theorem escapeFree_of_says (hnul : ∀ w ∈ word :: words, '\x00' ∉ w)
    (h : Says stars (wordChars word ++ listTail words) (word :: words)) :
    ∀ w ∈ word :: words, '*' ∈ w → stars ∧ EscapeFree w := by
  induction words generalizing word with
  | nil => exact List.forall_mem_singleton.mpr (h.first hnul).1
  | cons next words ih =>
    obtain ⟨hfirst, hlater⟩ := h.first hnul
    have hnext := ih (List.forall_mem_cons.mp hnul).2 hlater.of_comma.2.of_blank
    exact List.forall_mem_cons.mpr ⟨hfirst, hnext⟩

/-- A single word without stars, which may be read in another case of letters than it is written
in. -/
theorem star_notMem_of_says (hnul : '\x00' ∉ said.map Char.toLower)
    (h : Says False (wordChars (said.map Char.toLower) ++ listTail []) [said]) :
    '*' ∉ said.map Char.toLower := by
  intro hmem
  have hfirm := firm_list (List.forall_mem_singleton.mpr hnul)
  rw [wordChars, if_pos hmem] at h hfirm
  obtain ⟨source, after, heq, htells, hranged, -⟩ := h.group hfirm
  have hle := htells.length_le
  rw [← List.length_map Char.toLower] at hle
  obtain ⟨_ | ⟨c, between⟩, rfl, htail⟩ := exists_append_of_length_le heq hle
  · rw [List.append_nil] at hranged htells
    have hsame : said = said.map Char.toLower := htells.eq_or_lt.resolve_right (by simp)
    exact (hranged hsame).2 hmem
  · obtain ⟨rfl, hbetween⟩ := List.cons.inj htail
    obtain ⟨rfl, rfl⟩ := List.append_eq_nil_iff.mp hbetween.symm
    refine htells.loses [] ?_
    simp [Function.comp_def]

end DomQuery.Css
