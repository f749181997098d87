import DomQuery.Proofs.Css.Spells

/-!
# Texts that are followed by more

The tokens of a text are those that it has in front of a comma or a closing
parenthesis too, unless the text ends too early for its last token: in a string, a
URL or a comment, or after the backslash of an escape.

* `scanFrom_append`: the first token of a text that goes on.
* `lex_append`: the tokens of a text that goes on.
-/

namespace DomQuery.Css

open DomQuery.Text

variable {fuel : Nat} {c q : Char} {cs t : List Char}

/-- The text ends in `q`, and no backslash takes it. -/
def endsIn (q : Char) : List Char → Bool
  | [] => false
  | [c] => c == q
  | c :: d :: cs => if c == '\\' then endsIn q cs else endsIn q (d :: cs)

/-- The text ended too early for its last token `l`. -/
def Lexeme.isCutOff (l : Lexeme) : Bool :=
  match l.token, l.source with
  | .quoted _, quote :: body => !endsIn quote body
  | .url _, source => !endsIn ')' source
  | .badUrl contents, source => !(contents.toList ++ [')']).isSuffixOf source
  | .comment text, source => source != '/' :: '*' :: text.toList ++ ['*', '/']
  | _, source => endsIn '\\' source

/-- A comma or a closing parenthesis comes next. -/
def Stops (t : List Char) : Prop :=
  ∃ rest, t = ',' :: rest ∨ t = ')' :: rest

/-! ### Ends of texts -/

theorem endsIn_cons (hq : c ≠ q) (hc : c ≠ '\\') (cs : List Char) :
    endsIn q (c :: cs) = endsIn q cs := by
  rcases cs with _ | ⟨d, cs⟩
  · simp [endsIn, hq]
  · simp [endsIn, hc]

theorem endsIn_backslash (d : Char) (cs : List Char) : endsIn q ('\\' :: d :: cs) = endsIn q cs := by
  simp [endsIn]

theorem endsIn_append {before : List Char} (h : ∀ c ∈ before, c ≠ q ∧ c ≠ '\\') (cs : List Char) :
    endsIn q (before ++ cs) = endsIn q cs := by
  induction before with
  | nil => rfl
  | cons c before ih =>
    obtain ⟨⟨hq, hc⟩, hbefore⟩ := List.forall_mem_cons.mp h
    rw [List.cons_append, endsIn_cons hq hc, ih hbefore]

theorem endsIn_dropWhile {p : Char → Bool} (hq : p q = false) (hp : p '\\' = false)
    (cs : List Char) : endsIn q (cs.dropWhile p) = endsIn q cs := by
  conv_rhs => rw [← List.takeWhile_append_dropWhile (p := p) (l := cs)]
  refine (endsIn_append (fun c hc => ?_) _).symm
  have hpc := List.mem_takeWhile_imp hc
  constructor
  · rintro rfl
    rw [hq] at hpc
    cases hpc
  · rintro rfl
    rw [hp] at hpc
    cases hpc

/-- A character that an escape does not take, unless right after the backslash. -/
def IsEnd (q : Char) : Prop :=
  hexValue? q = none ∧ isSpace q = false ∧ isNameChar q = false

theorem isEnd_cases (h : q = '\\' ∨ q = '"' ∨ q = '\'' ∨ q = ')') : IsEnd q := by
  rcases h with rfl | rfl | rfl | rfl
  all_goals exact ⟨by decide, by decide, by decide⟩

theorem endsIn_takeHex (hq : IsEnd q) (limit value : Nat) (cs : List Char) :
    endsIn q (takeHex limit value cs).2 = endsIn q cs := by
  fun_induction takeHex limit value cs with
  | case1 | case2 | case4 => rfl
  | case3 limit value c cs d hd ih =>
    have hc : c ≠ q := fun h => by rw [h, hq.1] at hd; cases hd
    have hbackslash : c ≠ '\\' := fun h => by rw [h] at hd; cases hd
    rw [ih, endsIn_cons hc hbackslash]

theorem endsIn_space (hq : IsEnd q) (hc : isSpace c = true) (cs : List Char) :
    endsIn q (c :: cs) = endsIn q cs := by
  refine endsIn_cons ?_ ?_ cs
  · rintro rfl
    rw [hq.2.1] at hc
    cases hc
  · rintro rfl
    cases hc

theorem endsIn_dropBlank (hq : IsEnd q) (cs : List Char) :
    endsIn q (dropBlank cs) = endsIn q cs := by
  unfold dropBlank dropNewline
  split
  · rw [endsIn_space hq rfl]
  · rw [endsIn_space hq rfl]
  split
  · rw [endsIn_space hq rfl, endsIn_space hq rfl]
  · rw [endsIn_space hq rfl]
  · rw [endsIn_space hq rfl]
  · rw [endsIn_space hq rfl]
  · rfl

theorem dropNewline_eq {d : Char} (hd : isNewline d = true) (cs : List Char) :
    dropNewline (d :: cs) = dropBlank (d :: cs) := by
  refine (dropBlank.eq_3 _ ?_ ?_).symm
  · rintro cs heq
    rw [(List.cons.inj heq).1] at hd
    cases hd
  · rintro cs heq
    rw [(List.cons.inj heq).1] at hd
    cases hd

theorem isSpace_of_isNewline {d : Char} (hd : isNewline d = true) : isSpace d = true := by
  simp only [isNewline, Bool.or_eq_true, beq_iff_eq] at hd
  rcases hd with (rfl | rfl) | rfl
  · rfl
  · rfl
  · rfl

theorem endsIn_dropNewline (hq : IsEnd q) {d : Char} (hd : isNewline d = true) (cs : List Char) :
    endsIn q (dropNewline (d :: cs)) = endsIn q cs := by
  rw [dropNewline_eq hd, endsIn_dropBlank hq, endsIn_space hq (isSpace_of_isNewline hd)]

/-- What an escape takes is no end. -/
theorem endsIn_scanEscape (hq : IsEnd q) (d : Char) (cs : List Char) :
    endsIn q (scanEscape (d :: cs)).2 = endsIn q ('\\' :: d :: cs) := by
  rw [endsIn_backslash]
  rcases h : hexValue? d with _ | value
  · rw [scanEscape_other h]
  · rw [scanEscape_hex h, endsIn_dropBlank hq, endsIn_takeHex hq]

theorem endsIn_scanSign (cs : List Char) : endsIn '\\' (scanSign cs).2 = endsIn '\\' cs := by
  unfold scanSign
  split
  · rw [endsIn_cons (by decide) (by decide)]
  · rw [endsIn_cons (by decide) (by decide)]
  · rfl

theorem endsIn_scanDigits (cs : List Char) : endsIn '\\' (scanDigits cs).2 = endsIn '\\' cs := by
  rw [scanDigits_eq, endsIn_dropWhile rfl rfl]

theorem endsIn_scanFraction (cs : List Char) :
    endsIn '\\' (scanFraction cs).2 = endsIn '\\' cs := by
  unfold scanFraction
  split
  · split
    · rw [endsIn_scanDigits, endsIn_cons (by decide) (by decide)]
    · rfl
  · rfl

theorem endsIn_scanExponent (cs : List Char) :
    endsIn '\\' (scanExponent cs).2 = endsIn '\\' cs := by
  unfold scanExponent
  split
  · rename_i e cs
    split
    · rename_i he
      have hne : e ≠ '\\' := by
        rintro rfl
        cases he
      simp only
      split
      · rw [endsIn_scanDigits, endsIn_scanSign, endsIn_cons hne hne]
      · rfl
    · rfl
  · rfl

theorem endsIn_scanNumeral (cs : List Char) :
    endsIn '\\' (scanNumeral cs).2 = endsIn '\\' cs := by
  rw [scanNumeral_eq]
  simp only
  rw [endsIn_scanExponent, endsIn_scanFraction, endsIn_scanDigits, endsIn_scanSign]

theorem endsIn_scanNameWith (hq : IsEnd q) (hne : q ≠ '\\') (fuel : Nat) (cs : List Char) :
    endsIn q (scanNameWith fuel cs).2 = endsIn q cs := by
  induction fuel generalizing cs with
  | zero => rfl
  | succ fuel ih =>
    rcases cs with _ | ⟨c, cs⟩
    · rfl
    rw [scanNameWith_cons]
    by_cases hc : c = '\\'
    · subst hc
      rw [if_pos rfl]
      split
      · rfl
      · rcases cs with _ | ⟨d, cs⟩
        · rw [ih]
          simp [scanEscape, endsIn, hne.symm]
        · rw [ih, endsIn_scanEscape hq]
    · rw [if_neg hc]
      split
      · rename_i hn
        have hcq : c ≠ q := by
          rintro rfl
          rw [hq.2.2] at hn
          cases hn
        rw [ih, endsIn_cons hcq hc]
      · rfl

theorem endsIn_scanName (hq : IsEnd q) (hne : q ≠ '\\') (cs : List Char) :
    endsIn q (scanName cs).2 = endsIn q cs :=
  endsIn_scanNameWith hq hne _ cs

/-- Only a run of one character can be put before itself like that. -/
theorem eq_of_prefixes {α : Type} {a : α} {r l : List α} (h : r <+: l) (h' : a :: r <+: l) :
    ∀ x ∈ r, x = a := by
  induction r generalizing l with
  | nil => exact fun x hx => absurd hx List.not_mem_nil
  | cons b r ih =>
    obtain ⟨l, rfl⟩ : ∃ tail, l = b :: tail := by
      obtain ⟨tail, rfl⟩ := h
      exact ⟨r ++ tail, rfl⟩
    obtain ⟨rfl, h'⟩ := List.cons_prefix_cons.mp h'
    exact List.forall_mem_cons.mpr ⟨rfl, ih (List.cons_prefix_cons.mp h).2 h'⟩

theorem eq_of_suffixes {α : Type} {a : α} {s l : List α} (h : s <:+ l) (h' : s ++ [a] <:+ l) :
    ∀ x ∈ s, x = a := by
  have hall := eq_of_prefixes (List.reverse_prefix.mpr h) (a := a)
    (by simpa using List.reverse_prefix.mpr h')
  exact fun x hx => hall x (List.mem_reverse.mpr hx)

/-! ### Scanners in front of more text -/

theorem dropBlank_of_not_isSpace (h : isSpace c = false) (cs : List Char) :
    dropBlank (c :: cs) = c :: cs := by
  simp only [isSpace, Bool.or_eq_false_iff, beq_eq_false_iff_ne, ne_eq] at h
  obtain ⟨⟨⟨⟨hspace, htab⟩, hfeed⟩, hform⟩, hreturn⟩ := h
  unfold dropBlank dropNewline
  simp [hspace, htab, hfeed, hform, hreturn]

theorem dropBlank_return (h : c ≠ '\n') (cs : List Char) :
    dropBlank ('\r' :: c :: cs) = c :: cs := by
  unfold dropBlank dropNewline
  simp [h]

section Stops

variable (ht : Stops t)
include ht

theorem takeHex_append (limit value : Nat) (cs : List Char) : takeHex limit value (cs ++ t) =
    ((takeHex limit value cs).1, (takeHex limit value cs).2 ++ t) := by
  obtain ⟨rest, rfl | rfl⟩ := ht
  all_goals
    fun_induction takeHex limit value cs with
    | case1 | case2 => rfl
    | case3 limit value c cs d hd ih =>
      rw [List.cons_append, takeHex, hd]
      exact ih
    | case4 limit value c cs hd => rw [List.cons_append, takeHex, hd]

theorem dropBlank_append (cs : List Char) : dropBlank (cs ++ t) = dropBlank cs ++ t := by
  have hstop : ∃ c rest, t = c :: rest ∧ isSpace c = false := by
    obtain ⟨rest, rfl | rfl⟩ := ht
    · exact ⟨_, rest, rfl, rfl⟩
    · exact ⟨_, rest, rfl, rfl⟩
  obtain ⟨e, rest, rfl, he⟩ := hstop
  have hfeed : ∀ {d}, isSpace d = false → d ≠ '\n' := by
    rintro _ hd rfl
    cases hd
  rcases cs with _ | ⟨c, cs⟩
  · exact dropBlank_of_not_isSpace he rest
  rcases hc : isSpace c with _ | _
  · rw [List.cons_append, dropBlank_of_not_isSpace hc, dropBlank_of_not_isSpace hc, List.cons_append]
  rcases eq_of_isSpace hc with rfl | rfl | rfl | rfl | rfl
  · rfl
  · rfl
  · rfl
  · rfl
  rcases cs with _ | ⟨d, cs⟩
  · exact dropBlank_return (hfeed he) rest
  by_cases hd : d = '\n'
  · subst hd
    rfl
  · rw [List.cons_append, List.cons_append, dropBlank_return hd, dropBlank_return hd, List.cons_append]

theorem dropNewline_append {d : Char} (hd : isNewline d = true) (cs : List Char) :
    dropNewline (d :: cs ++ t) = dropNewline (d :: cs) ++ t := by
  rw [List.cons_append, dropNewline_eq hd, dropNewline_eq hd, ← List.cons_append, dropBlank_append ht]

theorem scanEscape_append (hcs : cs ≠ []) :
    scanEscape (cs ++ t) = ((scanEscape cs).1, (scanEscape cs).2 ++ t) := by
  obtain ⟨c, cs, rfl⟩ := List.exists_cons_of_ne_nil hcs
  rcases h : hexValue? c with _ | value
  · rw [List.cons_append, scanEscape_other h, scanEscape_other h]
  · rw [List.cons_append, scanEscape_hex h, scanEscape_hex h, takeHex_append ht,
      dropBlank_append ht]

theorem startsLine_append (cs : List Char) : startsLine (cs ++ t) = startsLine cs := by
  rcases cs with _ | ⟨c, cs⟩
  · obtain ⟨rest, rfl | rfl⟩ := ht
    · rfl
    · rfl
  · rfl

theorem scanNameWith_stops (fuel : Nat) : scanNameWith fuel t = ([], t) := by
  rcases fuel with _ | fuel
  · rfl
  · obtain ⟨rest, rfl | rfl⟩ := ht
    · rfl
    · rfl

/-- Names go on in front of more text, unless they end in a backslash. -/
theorem scanNameWith_append (fuel fuel' : Nat) (cs : List Char) (hf : cs.length ≤ fuel)
    (hf' : cs.length ≤ fuel') :
    endsIn '\\' cs = true ∧ (scanNameWith fuel cs).2 = [] ∨ scanNameWith fuel' (cs ++ t) =
      ((scanNameWith fuel cs).1, (scanNameWith fuel cs).2 ++ t) := by
  induction fuel generalizing fuel' cs with
  | zero =>
    obtain rfl := List.length_eq_zero_iff.mp (Nat.le_zero.mp hf)
    exact .inr (scanNameWith_stops ht fuel')
  | succ fuel ih =>
    rcases cs with _ | ⟨c, cs⟩
    · exact .inr (scanNameWith_stops ht fuel')
    rcases fuel' with _ | fuel'
    · cases hf'
    rw [List.length_cons] at hf hf'
    rw [List.cons_append, scanNameWith_cons, scanNameWith_cons]
    by_cases hc : c = '\\'
    · subst hc
      simp only [if_true, startsLine_append ht]
      rcases hl : startsLine cs with _ | _
      · rcases cs with _ | ⟨d, cs⟩
        · exact .inl ⟨rfl, by cases fuel <;> rfl⟩
        · have hle := (scanEscape_suffix (d :: cs)).length_le
          rw [scanEscape_append ht (List.cons_ne_nil d cs), ← endsIn_scanEscape (isEnd_cases (.inl rfl))]
          simp only [Bool.false_eq_true, if_false]
          rcases ih fuel' (scanEscape (d :: cs)).2 (by omega) (by omega) with h | h
          · exact .inl h
          · exact .inr (by rw [h])
      · exact .inr rfl
    · simp only [hc, if_false]
      rcases hn : isNameChar c with _ | _
      · exact .inr rfl
      · have hend : endsIn '\\' (c :: cs) = endsIn '\\' cs := endsIn_cons hc hc cs
        rw [hend]
        simp only [if_true]
        rcases ih fuel' cs (by omega) (by omega) with h | h
        · exact .inl h
        · exact .inr (by rw [h])

theorem scanName_append (cs : List Char) : endsIn '\\' cs = true ∧ (scanName cs).2 = [] ∨
    scanName (cs ++ t) = ((scanName cs).1, (scanName cs).2 ++ t) := by
  rcases scanNameWith_append ht cs.length (cs ++ t).length cs le_rfl (by simp) with h | h
  · exact .inl h
  · exact .inr (by rw [scanName, h]; rfl)

theorem startsIdent_append (cs : List Char) : startsIdent (cs ++ t) = startsIdent cs := by
  obtain ⟨rest, rfl | rfl⟩ := ht
  all_goals
    rcases cs with _ | ⟨c, cs⟩
    · rfl
    by_cases hminus : c = '-'
    · subst hminus
      rcases cs with _ | ⟨d, cs⟩
      · rfl
      · rfl
    by_cases hbackslash : c = '\\'
    · subst hbackslash
      rcases cs with _ | ⟨d, cs⟩
      · rfl
      · rfl
    · rw [List.cons_append, startsIdent_of_ne hminus hbackslash, startsIdent_of_ne hminus hbackslash]

theorem startsDigit_append (cs : List Char) : startsDigit (cs ++ t) = startsDigit cs := by
  rcases cs with _ | ⟨c, cs⟩
  · obtain ⟨rest, rfl | rfl⟩ := ht
    · rfl
    · rfl
  · rfl

theorem scanDigits_append (cs : List Char) :
    scanDigits (cs ++ t) = ((scanDigits cs).1, (scanDigits cs).2 ++ t) := by
  have hstops : t.takeWhile Char.isDigit = [] ∧ t.dropWhile Char.isDigit = t := by
    obtain ⟨rest, rfl | rfl⟩ := ht
    · exact ⟨rfl, rfl⟩
    · exact ⟨rfl, rfl⟩
  induction cs with
  | nil => rw [List.nil_append, scanDigits_eq, hstops.1, hstops.2]; rfl
  | cons c cs ih =>
    rcases hc : c.isDigit with _ | _
    · simp [scanDigits_eq, hc]
    · rw [List.cons_append, scanDigits_cons hc, scanDigits_cons hc, ih]

theorem scanSign_append (cs : List Char) :
    scanSign (cs ++ t) = ((scanSign cs).1, (scanSign cs).2 ++ t) := by
  rcases cs with _ | ⟨c, cs⟩
  · obtain ⟨rest, rfl | rfl⟩ := ht
    · rfl
    · rfl
  · by_cases hplus : c = '+'
    · subst hplus
      rfl
    by_cases hminus : c = '-'
    · subst hminus
      rfl
    · rw [List.cons_append, scanSign_of_ne hplus hminus, scanSign_of_ne hplus hminus]
      rfl

theorem scanFraction_append (cs : List Char) :
    scanFraction (cs ++ t) = ((scanFraction cs).1, (scanFraction cs).2 ++ t) := by
  rcases cs with _ | ⟨c, cs⟩
  · obtain ⟨rest, rfl | rfl⟩ := ht
    · rfl
    · rfl
  · by_cases hpoint : c = '.'
    · subst hpoint
      simp only [List.cons_append, scanFraction, startsDigit_append ht]
      split
      · exact scanDigits_append ht cs
      · rfl
    · rw [List.cons_append, scanFraction_of_ne hpoint, scanFraction_of_ne hpoint]
      rfl

theorem startsNumber_append (cs : List Char) : startsNumber (cs ++ t) = startsNumber cs := by
  rw [startsNumber_eq, startsNumber_eq, scanSign_append ht]
  simp only
  rcases (scanSign cs).2 with _ | ⟨c, rest⟩
  · obtain ⟨rest, rfl | rfl⟩ := ht
    · rfl
    · rfl
  · by_cases hpoint : c = '.'
    · subst hpoint
      exact startsDigit_append ht rest
    · rw [List.cons_append, startsMagnitude_of_ne hpoint, startsMagnitude_of_ne hpoint]

theorem scanExponent_append (cs : List Char) :
    scanExponent (cs ++ t) = ((scanExponent cs).1, (scanExponent cs).2 ++ t) := by
  rcases cs with _ | ⟨c, cs⟩
  · obtain ⟨rest, rfl | rfl⟩ := ht
    · rfl
    · rfl
  · simp only [List.cons_append, scanExponent, scanSign_append ht, startsDigit_append ht,
      scanDigits_append ht]
    split
    · split
      · rfl
      · rfl
    · rfl

theorem scanNumeral_append (cs : List Char) :
    scanNumeral (cs ++ t) = ((scanNumeral cs).1, (scanNumeral cs).2 ++ t) := by
  simp only [scanNumeral_eq, scanSign_append ht, scanDigits_append ht, scanFraction_append ht,
    scanExponent_append ht]

/-- The text ended too early for the token that was read from it. -/
def CutOff (source : List Char) (read : Token × List Char) : Prop :=
  Lexeme.isCutOff ⟨read.1, source⟩ = true ∧ read.2 = []

theorem head?_append_ne {c : Char} (hc : c ≠ ',') (hc' : c ≠ ')') (h : cs.head? ≠ some c) :
    (cs ++ t).head? ≠ some c := by
  rcases cs with _ | ⟨d, cs⟩
  · obtain ⟨rest, rfl | rfl⟩ := ht
    · simpa using hc.symm
    · simpa using hc'.symm
  · exact h

theorem prefix_of_append {p : List Char} (hp : ∀ c ∈ p, c ≠ ',' ∧ c ≠ ')') (h : p <+: cs ++ t) :
    p <+: cs := by
  induction p generalizing cs with
  | nil => exact List.nil_prefix
  | cons c p ih =>
    obtain ⟨⟨hcomma, hclose⟩, hp⟩ := List.forall_mem_cons.mp hp
    rcases cs with _ | ⟨d, cs⟩
    · obtain ⟨rest, rfl | rfl⟩ := ht
      · exact absurd (List.cons_prefix_cons.mp h).1 hcomma
      · exact absurd (List.cons_prefix_cons.mp h).1 hclose
    · rw [List.cons_append, List.cons_prefix_cons] at h
      exact List.cons_prefix_cons.mpr ⟨h.1, ih hp h.2⟩

theorem scanNumeric_append (cs : List Char) : CutOff cs (scanNumeric cs) ∨
    scanNumeric (cs ++ t) = ((scanNumeric cs).1, (scanNumeric cs).2 ++ t) := by
  have hend := endsIn_scanNumeral cs
  rw [scanNumeric_eq, scanNumeric_eq, scanNumeral_append ht]
  generalize scanNumeral cs = numeral at hend ⊢
  obtain ⟨value, rest⟩ := numeral
  by_cases hpercent : rest.head? = some '%'
  · obtain ⟨tail, rfl⟩ := List.head?_eq_some_iff.mp hpercent
    exact .inr rfl
  rw [scanUnit_of_ne hpercent, scanUnit_of_ne (head?_append_ne ht (by decide) (by decide) hpercent),
    startsIdent_append ht]
  split
  · rcases scanName_append ht rest with ⟨h, hnil⟩ | h
    · exact .inl ⟨hend.symm.trans h, hnil⟩
    · exact .inr (by rw [h])
  · exact .inr rfl

/-! ### Strings, comments and URLs -/

theorem scanQuotedWith_append (hq : IsEnd q) (fuel fuel' : Nat) (cs : List Char)
    (hf : cs.length ≤ fuel) (hf' : cs.length < fuel') :
    endsIn q cs = false ∧ (scanQuotedWith q fuel cs).2 = (true, []) ∨
      scanQuotedWith q fuel' (cs ++ t) = ((scanQuotedWith q fuel cs).1,
        (scanQuotedWith q fuel cs).2.1, (scanQuotedWith q fuel cs).2.2 ++ t) := by
  induction fuel generalizing fuel' cs with
  | zero =>
    obtain rfl := List.length_eq_zero_iff.mp (Nat.le_zero.mp hf)
    exact .inl ⟨rfl, rfl⟩
  | succ fuel ih =>
    rcases cs with _ | ⟨c, cs⟩
    · exact .inl ⟨rfl, rfl⟩
    obtain ⟨fuel', rfl⟩ : ∃ n, fuel' = n + 1 := ⟨fuel' - 1, by omega⟩
    rw [List.length_cons] at hf hf'
    rw [List.cons_append, scanQuotedWith_cons, scanQuotedWith_cons]
    by_cases hc : c = q
    · exact .inr (by rw [if_pos hc, if_pos hc])
    rw [if_neg hc, if_neg hc]
    rcases hline : isNewline c with _ | _
    · simp only [Bool.false_eq_true, if_false]
      by_cases hbackslash : c = '\\'
      · subst hbackslash
        rw [if_pos rfl, if_pos rfl]
        rcases cs with _ | ⟨d, cs⟩
        · exact .inl ⟨by simp [endsIn, hc], rfl⟩
        simp only [List.cons_append]
        rcases hd : isNewline d with _ | _
        · have hle := (scanEscape_suffix (d :: cs)).length_le
          have hescape := scanEscape_append ht (List.cons_ne_nil d cs)
          rw [List.cons_append] at hescape
          rw [hescape, ← endsIn_scanEscape hq]
          simp only [Bool.false_eq_true, if_false]
          rcases ih fuel' (scanEscape (d :: cs)).2 (by omega) (by omega) with h | h
          · exact .inl h
          · exact .inr (by rw [h])
        · have hdrop := dropNewline_append ht hd cs
          have hle := (dropNewline_suffix (d :: cs)).length_le
          rw [List.cons_append] at hdrop
          rw [hdrop, endsIn_backslash, ← endsIn_dropNewline hq hd]
          simp only [if_true]
          rcases ih fuel' (dropNewline (d :: cs)) (by omega) (by omega) with h | h
          · exact .inl h
          · exact .inr h
      · rw [if_neg hbackslash, if_neg hbackslash, endsIn_cons hc hbackslash]
        rcases ih fuel' cs (by omega) (by omega) with h | h
        · exact .inl h
        · exact .inr (by rw [h])
    · exact .inr rfl

theorem scanQuoted_append (hq : IsEnd q) (cs : List Char) :
    CutOff (q :: cs) (scanQuoted q cs) ∨
      scanQuoted q (cs ++ t) = ((scanQuoted q cs).1, (scanQuoted q cs).2 ++ t) := by
  rcases scanQuotedWith_append ht hq (cs.length + 1) ((cs ++ t).length + 1) cs (by omega)
    (by simp) with ⟨h, hscan⟩ | h
  · refine .inl ?_
    rw [scanQuoted]
    generalize scanQuotedWith q (cs.length + 1) cs = read at hscan
    obtain ⟨value, whole, rest⟩ := read
    obtain ⟨rfl, rfl⟩ := Prod.mk.inj hscan
    exact ⟨by simp [Lexeme.isCutOff, h], rfl⟩
  · refine .inr ?_
    rw [scanQuoted, scanQuoted, h]
    generalize scanQuotedWith q (cs.length + 1) cs = read
    obtain ⟨value, _ | _, rest⟩ := read
    · rfl
    · rfl

theorem scanComment_append (cs : List Char) :
    cs = (scanComment cs).1 ∧ (scanComment cs).2 = [] ∨
      cs = (scanComment cs).1 ++ '*' :: '/' :: (scanComment cs).2 ∧
        scanComment (cs ++ t) = ((scanComment cs).1, (scanComment cs).2 ++ t) := by
  induction cs with
  | nil => exact .inl ⟨rfl, rfl⟩
  | cons c cs ih =>
    by_cases hend : c = '*' ∧ cs.head? = some '/'
    · obtain ⟨rfl, hhead⟩ := hend
      obtain ⟨rest, rfl⟩ := List.head?_eq_some_iff.mp hhead
      exact .inr ⟨rfl, rfl⟩
    · have hne : c = '*' → cs.head? ≠ some '/' := fun hc hhead => hend ⟨hc, hhead⟩
      rw [List.cons_append, scanComment_of_ne hne,
        scanComment_of_ne fun hc => head?_append_ne ht (by decide) (by decide) (hne hc)]
      rcases ih with ⟨h, hnil⟩ | ⟨h, happend⟩
      · exact .inl ⟨by rw [← h], hnil⟩
      · exact .inr ⟨by rw [List.cons_append, ← h], by rw [happend]⟩

omit ht in
theorem scanBadUrl_append (cs : List Char) :
    cs = (scanBadUrl cs).1 ∧ (scanBadUrl cs).2 = [] ∨
      cs = (scanBadUrl cs).1 ++ ')' :: (scanBadUrl cs).2 ∧
        scanBadUrl (cs ++ t) = ((scanBadUrl cs).1, (scanBadUrl cs).2 ++ t) := by
  fun_induction scanBadUrl cs with
  | case1 => exact .inl ⟨rfl, rfl⟩
  | case2 cs => exact .inr ⟨rfl, rfl⟩
  | case3 c cs hc text rest h ih =>
    rw [h] at ih
    rcases ih with ⟨hcs, hnil⟩ | ⟨hcs, happend⟩
    · exact .inl ⟨congrArg (fun cs => '\\' :: c :: cs) hcs, hnil⟩
    · refine .inr ⟨congrArg (fun cs => '\\' :: c :: cs) hcs, ?_⟩
      rw [List.cons_append, List.cons_append, scanBadUrl, if_pos hc, happend]
  | case4 c cs hc text rest h ih =>
    rw [h] at ih
    rcases ih with ⟨hcs, hnil⟩ | ⟨hcs, happend⟩
    · exact .inl ⟨congrArg ('\\' :: ·) hcs, hnil⟩
    · refine .inr ⟨congrArg ('\\' :: ·) hcs, ?_⟩
      rw [List.cons_append] at happend
      rw [List.cons_append, List.cons_append, scanBadUrl, if_neg hc, happend]
  | case5 c cs hend hbackslash text rest h ih =>
    rw [h] at ih
    rcases ih with ⟨hcs, hnil⟩ | ⟨hcs, happend⟩
    · exact .inl ⟨congrArg (c :: ·) hcs, hnil⟩
    · refine .inr ⟨congrArg (c :: ·) hcs, ?_⟩
      rw [List.cons_append, scanBadUrl.eq_4 _ _ hend, happend]
      rintro d tail rfl hcons
      rcases cs with _ | ⟨e, cs⟩
      · simp at hcs
      · exact hbackslash e cs rfl rfl

omit ht in
theorem dropWhile_isSpace_append (h : cs.dropWhile isSpace ≠ []) :
    (cs ++ t).dropWhile isSpace = cs.dropWhile isSpace ++ t := by
  rw [List.dropWhile_append, if_neg (by simpa using h)]

theorem scanUrlWith_append (fuel fuel' : Nat) (cs : List Char) (hf : cs.length ≤ fuel)
    (hf' : cs.length < fuel') :
    endsIn ')' cs = false ∧ (scanUrlWith fuel cs).1.isSome = true ∧ (scanUrlWith fuel cs).2 = [] ∨
      scanUrlWith fuel' (cs ++ t) =
        ((scanUrlWith fuel cs).1, (scanUrlWith fuel cs).2 ++ t) := by
  induction fuel generalizing fuel' cs with
  | zero =>
    obtain rfl := List.length_eq_zero_iff.mp (Nat.le_zero.mp hf)
    exact .inl ⟨rfl, rfl, rfl⟩
  | succ fuel ih =>
    rcases cs with _ | ⟨c, cs⟩
    · exact .inl ⟨rfl, rfl, rfl⟩
    obtain ⟨fuel', rfl⟩ : ∃ n, fuel' = n + 1 := ⟨fuel' - 1, by omega⟩
    rw [List.length_cons] at hf hf'
    have hend : IsEnd ')' := isEnd_cases (.inr (.inr (.inr rfl)))
    rw [List.cons_append, scanUrlWith_cons, scanUrlWith_cons]
    by_cases hc : c = ')'
    · exact .inr (by rw [if_pos hc, if_pos hc])
    rw [if_neg hc, if_neg hc]
    rcases hspace : isSpace c with _ | _
    · simp only [Bool.false_eq_true, if_false]
      by_cases hfault : (isUnprintable c || c == '"' || c == '\'' || c == '(') = true
      · exact .inr (by rw [if_pos hfault, if_pos hfault])
      rw [if_neg hfault, if_neg hfault]
      by_cases hbackslash : c = '\\'
      · subst hbackslash
        rw [if_pos rfl, if_pos rfl, startsLine_append ht]
        rcases hl : startsLine cs with _ | _
        · rcases cs with _ | ⟨d, cs⟩
          · exact .inl ⟨rfl, by cases fuel <;> rfl, by cases fuel <;> rfl⟩
          · have hle := (scanEscape_suffix (d :: cs)).length_le
            rw [scanEscape_append ht (List.cons_ne_nil d cs), ← endsIn_scanEscape hend]
            simp only [Bool.false_eq_true, if_false]
            rcases ih fuel' (scanEscape (d :: cs)).2 (by omega) (by omega) with h | h
            · exact .inl (by simpa using h)
            · exact .inr (by rw [h])
        · exact .inr rfl
      · rw [if_neg hbackslash, if_neg hbackslash, endsIn_cons hc hbackslash]
        rcases ih fuel' cs (by omega) (by omega) with h | h
        · exact .inl (by simpa using h)
        · exact .inr (by rw [h])
    · simp only [if_true]
      rcases hdrop : cs.dropWhile isSpace with _ | ⟨d, rest⟩
      · refine .inl ⟨?_, rfl, rfl⟩
        rw [endsIn_space hend hspace, ← endsIn_dropWhile (p := isSpace) rfl rfl, hdrop]
        rfl
      · rw [dropWhile_isSpace_append (by simp [hdrop]), hdrop, List.cons_append]
        by_cases hd : d = ')'
        · subst hd
          exact .inr rfl
        · exact .inr (by rw [scanUrlEnd_of_ne hd, scanUrlEnd_of_ne hd])

/-- The text ended in a URL, well-formed or not. -/
inductive UrlCutOff (cs : List Char) : Token → Prop
  | url (value : String) (h : endsIn ')' cs = false) : UrlCutOff cs (.url value)
  | badUrl (c : Char) (rest : List Char) (hc : c ≠ ')') (h : c :: rest <:+ cs) :
      UrlCutOff cs (.badUrl (String.ofList (c :: rest)))

theorem scanUrl_append (cs : List Char) :
    (∃ token, scanUrl cs = some (token, []) ∧ UrlCutOff cs token) ∨
      scanUrl (cs ++ t) = (scanUrl cs).map fun read => (read.1, read.2 ++ t) := by
  rcases hdrop : cs.dropWhile isSpace with _ | ⟨c, rest⟩
  · refine .inl ⟨.url "", by rw [scanUrl, hdrop], .url "" ?_⟩
    rw [← endsIn_dropWhile (p := isSpace) rfl rfl, hdrop]
    rfl
  have hsuffix : c :: rest <:+ cs := hdrop ▸ List.dropWhile_suffix _
  have hend : endsIn ')' cs = endsIn ')' (c :: rest) := by
    rw [← hdrop, endsIn_dropWhile rfl rfl]
  rw [scanUrl, scanUrl, dropWhile_isSpace_append (by simp [hdrop]), hdrop, List.cons_append]
  simp only
  by_cases hquote : (c == '"' || c == '\'') = true
  · exact .inr (by rw [if_pos hquote, if_pos hquote]; rfl)
  rw [if_neg hquote, if_neg hquote]
  have hwith := scanUrlWith_append ht (rest.length + 2) ((rest ++ t).length + 2) (c :: rest)
    (by simp) (by simp)
  have hfault := scanUrlWith_suffix (rest.length + 2) (c :: rest)
  have hc : c = ')' → (scanUrlWith (rest.length + 2) (c :: rest)).1 = some [] := by
    rintro rfl
    rfl
  generalize scanUrlWith (rest.length + 2) (c :: rest) = read at hwith hfault hc ⊢
  obtain ⟨_ | value, after⟩ := read
  · rcases hwith with ⟨-, h, -⟩ | h
    · cases h
    rw [List.cons_append] at h
    have hlength : (rest ++ t).length + 1 - (after ++ t).length = rest.length + 1 - after.length := by
      simp only [List.length_append]
      omega
    have htake : (c :: (rest ++ t)).take (rest.length + 1 - after.length) =
        (c :: rest).take (rest.length + 1 - after.length) := by
      rw [← List.cons_append, List.take_append_of_le_length (by simp)]
    rw [h]
    simp only [hlength, htake]
    rcases scanBadUrl_append after with ⟨htext, hnil⟩ | ⟨-, happend⟩
    · refine .inl ⟨_, by rw [hnil], ?_⟩
      have hcontents : (c :: rest).take (rest.length + 1 - after.length) ++ after = c :: rest := by
        conv_rhs => rw [← List.take_append_drop (rest.length + 1 - after.length) (c :: rest)]
        rw [← List.length_cons (a := c), ← List.suffix_iff_eq_drop.mp hfault]
      rw [← htext, hcontents]
      exact .badUrl c rest (fun h => by cases hc h) hsuffix
    · exact .inr (by rw [happend]; rfl)
  · rcases hwith with ⟨hcut, -, rfl⟩ | h
    · exact .inl ⟨_, rfl, .url _ (hend.trans hcut)⟩
    · rw [List.cons_append] at h
      exact .inr (by rw [h]; rfl)

omit ht in
theorem UrlCutOff.isCutOff {token : Token} (h : UrlCutOff cs token) {source : List Char}
    (hs : cs <:+ source) (hend : endsIn ')' source = endsIn ')' cs) :
    Lexeme.isCutOff ⟨token, source⟩ = true := by
  cases h with
  | url value h => simp [Lexeme.isCutOff, hend, h]
  | badUrl c rest hc h =>
    have hnot : ¬ c :: rest ++ [')'] <:+ source := fun hsuffix =>
      hc (eq_of_suffixes (h.trans hs) hsuffix c List.mem_cons_self)
    rw [← List.isSuffixOf_iff_suffix, Bool.not_eq_true] at hnot
    simpa [Lexeme.isCutOff] using hnot

theorem scanFunction_append (name : String) (cs : List Char) :
    (∃ rest token, cs = '(' :: rest ∧ scanFunction name cs = (token, []) ∧ UrlCutOff rest token) ∨
      scanFunction name (cs ++ t) = ((scanFunction name cs).1, (scanFunction name cs).2 ++ t) := by
  by_cases hopen : cs.head? = some '('
  · obtain ⟨rest, rfl⟩ := List.head?_eq_some_iff.mp hopen
    rw [List.cons_append, scanFunction, scanFunction]
    split
    · rcases scanUrl_append ht rest with ⟨token, hurl, hcut⟩ | h
      · exact .inl ⟨rest, token, rfl, by rw [hurl]; rfl, hcut⟩
      · rw [h]
        rcases scanUrl rest with _ | read
        · exact .inr rfl
        · exact .inr rfl
    · exact .inr rfl
  · rw [scanFunction_of_ne hopen,
      scanFunction_of_ne (head?_append_ne ht (by decide) (by decide) hopen)]
    exact .inr rfl

theorem scanIdentLike_append (cs : List Char) : CutOff cs (scanIdentLike cs) ∨
    scanIdentLike (cs ++ t) = ((scanIdentLike cs).1, (scanIdentLike cs).2 ++ t) := by
  rw [scanIdentLike_eq, scanIdentLike_eq]
  rcases scanName_append ht cs with ⟨hend, hnil⟩ | h
  · refine .inl ?_
    rw [hnil]
    exact ⟨hend, rfl⟩
  · rw [h]
    rcases scanFunction_append ht (scanName cs).1 (scanName cs).2 with
      ⟨rest, token, hrest, hscan, hcut⟩ | h
    · refine .inl ?_
      have hclose : IsEnd ')' := isEnd_cases (.inr (.inr (.inr rfl)))
      have hends : endsIn ')' cs = endsIn ')' rest := by
        rw [← endsIn_scanName hclose (by decide), hrest, endsIn_cons (by decide) (by decide)]
      have hsuffix : rest <:+ cs := (List.suffix_cons _ _).trans (hrest ▸ scanName_suffix cs)
      rw [hscan]
      exact ⟨hcut.isCutOff hsuffix hends, rfl⟩
    · exact .inr h

theorem scanHash_append (cs : List Char) : CutOff ('#' :: cs) (scanHash cs) ∨
    scanHash (cs ++ t) = ((scanHash cs).1, (scanHash cs).2 ++ t) := by
  have hname : ∀ f : String → Token, (∀ name, Lexeme.isCutOff ⟨f name, '#' :: cs⟩ = endsIn '\\' cs) →
      CutOff ('#' :: cs) (f (scanName cs).1, (scanName cs).2) ∨
        (f (scanName (cs ++ t)).1, (scanName (cs ++ t)).2) =
          (f (scanName cs).1, (scanName cs).2 ++ t) := by
    intro f hf
    rcases scanName_append ht cs with ⟨hend, hnil⟩ | h
    · exact .inl ⟨(hf _).trans hend, hnil⟩
    · exact .inr (by rw [h])
  have hend : endsIn '\\' ('#' :: cs) = endsIn '\\' cs := endsIn_cons (by decide) (by decide) cs
  rw [scanHash.eq_def, scanHash.eq_def, startsIdent_append ht]
  split
  · exact hname .idHash fun _ => hend
  · rcases cs with _ | ⟨c, cs⟩
    · obtain ⟨rest, rfl | rfl⟩ := ht
      · exact .inr rfl
      · exact .inr rfl
    · simp only [List.cons_append]
      split
      · exact hname .hash fun _ => hend
      · exact .inr rfl

theorem scanMatch_append {token : Token} (cs : List Char) :
    scanMatch c token (cs ++ t) = ((scanMatch c token cs).1, (scanMatch c token cs).2 ++ t) := by
  by_cases h : cs.head? = some '='
  · obtain ⟨rest, rfl⟩ := List.head?_eq_some_iff.mp h
    rfl
  · rw [scanMatch_of_ne h, scanMatch_of_ne (head?_append_ne ht (by decide) (by decide) h)]

theorem span_isSpace_append (cs : List Char) :
    (cs ++ t).span isSpace = ((cs.span isSpace).1, (cs.span isSpace).2 ++ t) := by
  have hstops : t.takeWhile isSpace = [] ∧ t.dropWhile isSpace = t := by
    obtain ⟨rest, rfl | rfl⟩ := ht
    · exact ⟨rfl, rfl⟩
    · exact ⟨rfl, rfl⟩
  simp only [List.span_eq_takeWhile_dropWhile]
  induction cs with
  | nil => simp [hstops]
  | cons c cs ih =>
    rcases hc : isSpace c with _ | _
    · simp [hc]
    · simpa [hc] using ih

theorem scanHyphen_append (cs : List Char) : CutOff ('-' :: cs) (scanHyphen cs) ∨
    scanHyphen (cs ++ t) = ((scanHyphen cs).1, (scanHyphen cs).2 ++ t) := by
  by_cases h : ['-', '>'] <+: cs
  · obtain ⟨rest, rfl⟩ := h
    exact .inr rfl
  · have happend : ¬ ['-', '>'] <+: cs ++ t := fun hp => h (prefix_of_append ht (by simp) hp)
    have hstarts : startsIdent ('-' :: (cs ++ t)) = startsIdent ('-' :: cs) :=
      startsIdent_append ht ('-' :: cs)
    rw [scanHyphen_of_ne h, scanHyphen_of_ne happend, hstarts]
    split
    · exact scanIdentLike_append ht ('-' :: cs)
    · exact .inr rfl

theorem scanSlash_append (cs : List Char) : CutOff ('/' :: cs) (scanSlash cs) ∨
    scanSlash (cs ++ t) = ((scanSlash cs).1, (scanSlash cs).2 ++ t) := by
  by_cases h : ['*'] <+: cs
  · obtain ⟨rest, rfl⟩ := h
    rcases scanComment_append ht rest with ⟨htext, hnil⟩ | ⟨-, happend⟩
    · refine .inl ⟨?_, hnil⟩
      have hne : '/' :: '*' :: rest ≠ '/' :: '*' :: rest ++ ['*', '/'] := fun h => by
        simpa using congrArg List.length h
      change (_ != '/' :: '*' :: (String.ofList (scanComment rest).1).toList ++ ['*', '/']) = true
      rw [← htext, String.toList_ofList]
      exact bne_iff_ne.mpr hne
    · refine .inr ?_
      change (Token.comment (String.ofList (scanComment (rest ++ t)).1), (scanComment (rest ++ t)).2) = _
      rw [happend]
      rfl
  · rw [scanSlash_of_ne h, scanSlash_of_ne fun hp => h (prefix_of_append ht (by simp) hp)]
    exact .inr rfl

theorem scanLess_append (cs : List Char) :
    scanLess (cs ++ t) = ((scanLess cs).1, (scanLess cs).2 ++ t) := by
  by_cases h : ['!', '-', '-'] <+: cs
  · obtain ⟨rest, rfl⟩ := h
    rfl
  · rw [scanLess_of_ne h, scanLess_of_ne fun hp => h (prefix_of_append ht (by simp) hp)]

/-- The first token of a text that goes on. -/
theorem scanFrom_append (c : Char) (cs : List Char) : CutOff (c :: cs) (scanFrom c cs) ∨
    scanFrom c (cs ++ t) = ((scanFrom c cs).1, (scanFrom c cs).2 ++ t) := by
  have hstarts : startsIdent (c :: (cs ++ t)) = startsIdent (c :: cs) :=
    startsIdent_append ht (c :: cs)
  have hnumber : startsNumber (c :: (cs ++ t)) = startsNumber (c :: cs) :=
    startsNumber_append ht (c :: cs)
  unfold scanFrom
  rw [hnumber, span_isSpace_append ht, startsIdent_append ht]
  split
  · exact .inr rfl
  split
  · exact scanNumeric_append ht (c :: cs)
  split
  case h_1 => exact scanQuoted_append ht (isEnd_cases (.inr (.inl rfl))) cs
  case h_2 => exact scanQuoted_append ht (isEnd_cases (.inr (.inr (.inl rfl)))) cs
  case h_3 => exact scanHash_append ht cs
  case h_4 | h_5 | h_6 | h_7 | h_8 => exact .inr (scanMatch_append ht cs)
  case h_18 => exact scanHyphen_append ht cs
  case h_19 => exact scanSlash_append ht cs
  case h_20 => exact .inr (scanLess_append ht cs)
  case h_21 =>
    split
    · rcases scanName_append ht cs with ⟨hend, hnil⟩ | h
      · exact .inl ⟨(endsIn_cons (by decide) (by decide) cs).trans hend, hnil⟩
      · exact .inr (by rw [h])
    · exact .inr rfl
  case h_22 =>
    rw [hstarts]
    split
    · exact scanIdentLike_append ht (c :: cs)
    · exact .inr rfl
  all_goals exact .inr rfl

end Stops

/-- The text ended too early for its last token. -/
def IsCutOff (cs : List Char) : Prop :=
  ∃ l, (lex cs).getLast? = some l ∧ l.isCutOff = true

/-- The tokens of a text that goes on. -/
theorem lex_append (h : ¬ IsCutOff cs) (ht : Stops t) : lex (cs ++ t) = lex cs ++ lex t := by
  induction hn : cs.length using Nat.strongRecOn generalizing cs with
  | ind n ih =>
    rcases cs with _ | ⟨c, cs⟩
    · rfl
    obtain ⟨source, hsource, hlex⟩ := exists_lex_cons c cs
    have hlt : (scanFrom c cs).2.length < n := by
      have := (scanFrom_suffix c cs).length_le
      rw [List.length_cons] at hn
      omega
    rcases scanFrom_append ht c cs with ⟨hcut, hnil⟩ | hscan
    · rw [hnil, List.append_nil] at hsource
      rw [hnil, hsource] at hlex
      exact absurd ⟨⟨(scanFrom c cs).1, c :: cs⟩, by rw [hlex]; rfl, hcut⟩ h
    · have hrest : ¬ IsCutOff (scanFrom c cs).2 := by
        rintro ⟨l, hl, hcut⟩
        refine h ⟨l, ?_, hcut⟩
        rw [hlex, List.getLast?_cons, hl]
        rfl
      have hfirst : Token.scan? (c :: source ++ ((scanFrom c cs).2 ++ t)) =
          some ((scanFrom c cs).1, (scanFrom c cs).2 ++ t) := by
        rw [← List.append_assoc, hsource]
        exact congrArg some hscan
      rw [hlex, ← hsource, List.append_assoc, lex_of_scan? hfirst, ih _ hlt hrest rfl]
      rfl

/-- What the brackets and ends of a text say about its values, in front of more text. -/
theorem spells_values {p : Token → Prop} {text : String} (hb : Balanced p (lex text.toList))
    (h : ¬ IsCutOff text.toList) (ht : Stops t) :
    Spells text.toList (values text) t ∧
      ∀ v ∈ values text, p v.first ∨ v.first.closer?.isSome = true := by
  obtain ⟨vs, pieces, hadds, hpieces, hvs⟩ := hb.exists_adds
  rw [flatten_sources] at hpieces
  have hvalues : values text = vs :=
    Spells.values_eq ⟨lex text.toList, pieces, by simp, hadds, hpieces⟩
  rw [hvalues]
  exact ⟨⟨lex text.toList, pieces, lex_append h ht, hadds, hpieces⟩, hvs⟩

end DomQuery.Css
