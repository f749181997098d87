import DomQuery.Css.Lexer
import Mathlib

/-!
# What scanners leave

Every scanner leaves an end of the text it was given, and every token takes at least
one character. So a text is cut into tokens one after the other, and the bounds on
the number of steps play no part.

* `scanFrom_suffix`: what is left after a token.
* `lex_of_scan?`: the tokens of a text are its first token and those of the rest.
-/

namespace DomQuery.Css

open DomQuery.Text

variable {fuel : Nat} {c : Char} {cs rest : List Char}

/-! ### Names -/

theorem takeHex_suffix (limit value : Nat) (cs : List Char) : (takeHex limit value cs).2 <:+ cs := by
  fun_induction takeHex limit value cs with
  | case1 | case2 | case4 => exact List.suffix_rfl
  | case3 limit value c cs d hd ih => exact ih.trans (List.suffix_cons c cs)

theorem dropNewline_suffix (cs : List Char) : dropNewline cs <:+ cs := by
  unfold dropNewline
  split
  · exact (List.suffix_cons _ _).trans (List.suffix_cons _ _)
  · exact List.suffix_cons _ _
  · exact List.suffix_cons _ _
  · exact List.suffix_cons _ _
  · exact List.suffix_rfl

/-- Drops the blank that belongs to an escape. -/
def dropBlank : List Char → List Char
  | ' ' :: cs => cs
  | '\t' :: cs => cs
  | cs => dropNewline cs

theorem dropBlank_suffix (cs : List Char) : dropBlank cs <:+ cs := by
  unfold dropBlank
  split
  · exact List.suffix_cons _ _
  · exact List.suffix_cons _ _
  · exact dropNewline_suffix cs

theorem scanEscape_hex {value : Nat} (h : hexValue? c = some value) (cs : List Char) :
    scanEscape (c :: cs) = (charOf (takeHex 5 value cs).1, dropBlank (takeHex 5 value cs).2) := by
  have hnul : c ≠ '\x00' := by
    rintro rfl
    cases h
  unfold scanEscape
  split
  · cases ‹c :: cs = []›
  · exact absurd (List.cons.inj ‹c :: cs = _›).1 hnul
  · obtain ⟨rfl, rfl⟩ := List.cons.inj ‹c :: cs = _›
    simp only [h]
    generalize takeHex 5 value _ = digits
    obtain ⟨value, rest⟩ := digits
    simp only
    split
    · rfl
    · rfl
    · rename_i hspace htab
      rw [dropBlank.eq_3 rest hspace htab]

theorem scanEscape_other (h : hexValue? c = none) (cs : List Char) :
    scanEscape (c :: cs) = (if c = '\x00' then replacement else c, cs) := by
  unfold scanEscape
  split
  · cases ‹c :: cs = []›
  · obtain ⟨rfl, rfl⟩ := List.cons.inj ‹c :: cs = _›
    rfl
  · rename_i hnul heq
    obtain ⟨rfl, rfl⟩ := List.cons.inj heq
    rw [h, if_neg hnul]

theorem scanEscape_suffix (cs : List Char) : (scanEscape cs).2 <:+ cs := by
  rcases cs with _ | ⟨c, cs⟩
  · exact List.suffix_rfl
  · rcases h : hexValue? c with _ | value
    · rw [scanEscape_other h]
      exact List.suffix_cons c cs
    · rw [scanEscape_hex h]
      exact ((dropBlank_suffix _).trans (takeHex_suffix 5 value cs)).trans (List.suffix_cons c cs)

theorem scanNameWith_cons (fuel : Nat) (c : Char) (cs : List Char) :
    scanNameWith (fuel + 1) (c :: cs) =
      if c = '\\' then
        if startsLine cs then ([], c :: cs)
        else ((scanEscape cs).1 :: (scanNameWith fuel (scanEscape cs).2).1,
          (scanNameWith fuel (scanEscape cs).2).2)
      else if isNameChar c then
        ((if c == '\x00' then replacement else c) :: (scanNameWith fuel cs).1,
          (scanNameWith fuel cs).2)
      else ([], c :: cs) := by
  rw [scanNameWith]
  simp only [beq_iff_eq]

theorem scanNameWith_suffix (fuel : Nat) (cs : List Char) : (scanNameWith fuel cs).2 <:+ cs := by
  induction fuel generalizing cs with
  | zero => exact List.suffix_rfl
  | succ fuel ih =>
    rcases cs with _ | ⟨c, cs⟩
    · exact List.suffix_rfl
    · rw [scanNameWith_cons]
      split
      · split
        · exact List.suffix_rfl
        · exact ((ih _).trans (scanEscape_suffix cs)).trans (List.suffix_cons c cs)
      split
      · exact (ih cs).trans (List.suffix_cons c cs)
      · exact List.suffix_rfl

theorem scanName_suffix (cs : List Char) : (scanName cs).2 <:+ cs :=
  scanNameWith_suffix cs.length cs

/-! ### Strings and comments -/

theorem scanQuotedWith_cons (q : Char) (fuel : Nat) (c : Char) (cs : List Char) :
    scanQuotedWith q (fuel + 1) (c :: cs) =
      if c = q then ([], true, cs)
      else if isNewline c then ([], false, c :: cs)
      else if c = '\\' then
        match cs with
        | [] => ([], true, [])
        | d :: _ =>
          if isNewline d then scanQuotedWith q fuel (dropNewline cs)
          else ((scanEscape cs).1 :: (scanQuotedWith q fuel (scanEscape cs).2).1,
            (scanQuotedWith q fuel (scanEscape cs).2).2)
      else ((if c == '\x00' then replacement else c) :: (scanQuotedWith q fuel cs).1,
        (scanQuotedWith q fuel cs).2) := by
  cases cs with
  | nil => simp only [scanQuotedWith, beq_iff_eq]
  | cons d cs => simp only [scanQuotedWith, beq_iff_eq]

theorem scanQuotedWith_suffix (q : Char) (fuel : Nat) (cs : List Char) :
    (scanQuotedWith q fuel cs).2.2 <:+ cs := by
  induction fuel generalizing cs with
  | zero => exact List.suffix_rfl
  | succ fuel ih =>
    rcases cs with _ | ⟨c, cs⟩
    · exact List.suffix_rfl
    · have htail : ∀ {rest}, rest <:+ cs → rest <:+ c :: cs := fun h => h.trans (List.suffix_cons c cs)
      rw [scanQuotedWith_cons]
      split
      · exact List.suffix_cons c cs
      split
      · exact List.suffix_rfl
      split
      · split
        · exact List.nil_suffix
        · split
          · exact htail ((ih _).trans (dropNewline_suffix _))
          · exact htail ((ih _).trans (scanEscape_suffix _))
      · exact htail (ih cs)

theorem scanQuoted_snd (q : Char) (cs : List Char) :
    (scanQuoted q cs).2 = (scanQuotedWith q (cs.length + 1) cs).2.2 := by
  rw [scanQuoted]
  split
  · rename_i h
    rw [h]
  · rename_i h
    rw [h]

theorem scanQuoted_suffix (q : Char) (cs : List Char) : (scanQuoted q cs).2 <:+ cs := by
  rw [scanQuoted_snd]
  exact scanQuotedWith_suffix _ _ _

theorem scanComment_of_ne (h : c = '*' → cs.head? ≠ some '/') :
    scanComment (c :: cs) = (c :: (scanComment cs).1, (scanComment cs).2) := by
  rw [scanComment.eq_3]
  rintro rest rfl rfl
  exact h rfl rfl

theorem scanComment_suffix (cs : List Char) : (scanComment cs).2 <:+ cs := by
  fun_induction scanComment cs with
  | case1 => exact List.suffix_rfl
  | case2 => exact (List.suffix_cons _ _).trans (List.suffix_cons _ _)
  | case3 c cs _ text rest h ih =>
    rw [h] at ih
    exact ih.trans (List.suffix_cons c cs)

/-! ### Numbers -/

theorem scanDigits_eq (cs : List Char) : scanDigits cs =
    ((cs.takeWhile Char.isDigit).map fun c => c.toNat - 48, cs.dropWhile Char.isDigit) := by
  rw [scanDigits, List.span_eq_takeWhile_dropWhile]

theorem scanDigits_suffix (cs : List Char) : (scanDigits cs).2 <:+ cs := by
  rw [scanDigits_eq]
  exact List.dropWhile_suffix _

theorem scanSign_suffix (cs : List Char) : (scanSign cs).2 <:+ cs := by
  unfold scanSign
  split
  · exact List.suffix_cons _ _
  · exact List.suffix_cons _ _
  · exact List.suffix_rfl

theorem scanSign_of_ne (hplus : c ≠ '+') (hminus : c ≠ '-') (cs : List Char) :
    scanSign (c :: cs) = (none, c :: cs) := by
  unfold scanSign
  split
  · exact absurd (List.cons.inj ‹_›).1 hplus
  · exact absurd (List.cons.inj ‹_›).1 hminus
  · rfl

theorem scanExponent_suffix (cs : List Char) : (scanExponent cs).2 <:+ cs := by
  unfold scanExponent
  split
  · rename_i e cs
    split
    · simp only
      split
      · exact ((scanDigits_suffix _).trans (scanSign_suffix cs)).trans (List.suffix_cons e cs)
      · exact List.suffix_rfl
    · exact List.suffix_rfl
  · exact List.suffix_rfl

/-- The digits after a point, if both are there. -/
def scanFraction (cs : List Char) : List Nat × List Char :=
  match cs with
  | '.' :: after => if startsDigit after then scanDigits after else ([], cs)
  | _ => ([], cs)

theorem scanFraction_of_ne (h : c ≠ '.') (cs : List Char) : scanFraction (c :: cs) = ([], c :: cs) := by
  unfold scanFraction
  split
  · exact absurd (List.cons.inj ‹_›).1 h
  · rfl

theorem scanFraction_suffix (cs : List Char) : (scanFraction cs).2 <:+ cs := by
  unfold scanFraction
  split
  · split
    · exact (scanDigits_suffix _).trans (List.suffix_cons _ _)
    · exact List.suffix_rfl
  · exact List.suffix_rfl

theorem scanNumeral_eq (cs : List Char) : scanNumeral cs =
    let whole := scanDigits (scanSign cs).2
    let fraction := scanFraction whole.2
    let exponent := scanExponent fraction.2
    (⟨(scanSign cs).1, whole.1, fraction.1, exponent.1⟩, exponent.2) :=
  rfl

theorem scanNumeral_suffix (cs : List Char) :
    (scanNumeral cs).2 <:+ (scanFraction (scanDigits (scanSign cs).2).2).2 :=
  scanExponent_suffix _

/-- A digit, or a point with a digit, comes next. -/
def startsMagnitude : List Char → Bool
  | '.' :: cs => startsDigit cs
  | cs => startsDigit cs

theorem startsNumber_eq (cs : List Char) : startsNumber cs = startsMagnitude (scanSign cs).2 :=
  rfl

theorem startsMagnitude_of_ne (h : c ≠ '.') (cs : List Char) :
    startsMagnitude (c :: cs) = c.isDigit := by
  unfold startsMagnitude
  split
  · exact absurd (List.cons.inj ‹_›).1 h
  · rfl

theorem startsDigit_iff : startsDigit cs = true ↔ ∃ d rest, cs = d :: rest ∧ d.isDigit = true := by
  rcases cs with _ | ⟨d, rest⟩
  · simp [startsDigit]
  · simp [startsDigit]

theorem scanDigits_cons (h : c.isDigit = true) (cs : List Char) :
    scanDigits (c :: cs) = ((c.toNat - 48) :: (scanDigits cs).1, (scanDigits cs).2) := by
  simp [scanDigits_eq, h]

/-- A number takes at least one character. -/
theorem scanNumeral_lt (h : startsNumber cs = true) : (scanNumeral cs).2.length < cs.length := by
  have hnumeral := (scanNumeral_suffix cs).length_le
  have hsign := (scanSign_suffix cs).length_le
  have hfraction := (scanFraction_suffix (scanDigits (scanSign cs).2).2).length_le
  rw [startsNumber_eq, startsMagnitude.eq_def] at h
  split at h
  · rename_i rest hrest
    obtain ⟨d, tail, rfl, hd⟩ := startsDigit_iff.mp h
    have hpoint : (scanFraction (scanDigits (scanSign cs).2).2).2 = (scanDigits tail).2 := by
      have hdigits : (scanDigits ('.' :: d :: tail)).2 = '.' :: d :: tail := by simp [scanDigits_eq]
      rw [hrest, hdigits, scanFraction, if_pos h, scanDigits_cons hd]
    have htail := (scanDigits_suffix tail).length_le
    rw [hpoint] at hnumeral
    rw [hrest, List.length_cons, List.length_cons] at hsign
    omega
  · obtain ⟨d, tail, hrest, hd⟩ := startsDigit_iff.mp h
    have hdigits : (scanDigits (scanSign cs).2).2 = (scanDigits tail).2 := by
      rw [hrest, scanDigits_cons hd]
    have htail := (scanDigits_suffix tail).length_le
    rw [hdigits] at hfraction hnumeral
    rw [hrest, List.length_cons] at hsign
    omega

/-- The token of a number, by what follows it. -/
def scanUnit (value : Numeral) : List Char → Token × List Char
  | '%' :: rest => (.percentage value, rest)
  | rest =>
    if startsIdent rest then (.dimension value (scanName rest).1, (scanName rest).2)
    else (.number value, rest)

theorem scanNumeric_eq (cs : List Char) :
    scanNumeric cs = scanUnit (scanNumeral cs).1 (scanNumeral cs).2 :=
  rfl

theorem scanUnit_of_ne (h : cs.head? ≠ some '%') (value : Numeral) : scanUnit value cs =
    if startsIdent cs then (.dimension value (scanName cs).1, (scanName cs).2)
    else (.number value, cs) := by
  unfold scanUnit
  split
  · exact absurd rfl h
  · rfl

theorem scanUnit_suffix (value : Numeral) (cs : List Char) : (scanUnit value cs).2 <:+ cs := by
  by_cases h : cs.head? = some '%'
  · obtain ⟨rest, rfl⟩ := List.head?_eq_some_iff.mp h
    exact List.suffix_cons _ _
  · rw [scanUnit_of_ne h]
    split
    · exact scanName_suffix cs
    · exact List.suffix_rfl

theorem scanNumeric_suffix (cs : List Char) : (scanNumeric cs).2 <:+ (scanNumeral cs).2 :=
  scanUnit_suffix _ _

/-! ### URLs -/

theorem scanBadUrl_suffix (cs : List Char) : (scanBadUrl cs).2 <:+ cs := by
  fun_induction scanBadUrl cs with
  | case1 => exact List.suffix_rfl
  | case2 cs => exact List.suffix_cons _ _
  | case3 c cs _ text rest h ih =>
    rw [h] at ih
    exact (ih.trans (List.suffix_cons _ _)).trans (List.suffix_cons _ _)
  | case4 c cs _ text rest h ih =>
    rw [h] at ih
    exact ih.trans (List.suffix_cons _ _)
  | case5 c cs _ _ text rest h ih =>
    rw [h] at ih
    exact ih.trans (List.suffix_cons _ _)

/-- What comes after the blanks in a URL: its end, or it is malformed. -/
def scanUrlEnd : List Char → Option (List Char) × List Char
  | [] => (some [], [])
  | ')' :: rest => (some [], rest)
  | _ :: rest => (none, rest)

theorem scanUrlEnd_of_ne (h : c ≠ ')') (cs : List Char) : scanUrlEnd (c :: cs) = (none, cs) := by
  rw [scanUrlEnd]
  exact fun hc => h hc

theorem scanUrlEnd_suffix (cs : List Char) : (scanUrlEnd cs).2 <:+ cs := by
  unfold scanUrlEnd
  split
  · exact List.nil_suffix
  · exact List.suffix_cons _ _
  · exact List.suffix_cons _ _

theorem scanUrlWith_cons (fuel : Nat) (c : Char) (cs : List Char) :
    scanUrlWith (fuel + 1) (c :: cs) =
      if c = ')' then (some [], cs)
      else if isSpace c then scanUrlEnd (cs.dropWhile isSpace)
      else if isUnprintable c || c == '"' || c == '\'' || c == '(' then (none, cs)
      else if c = '\\' then
        if startsLine cs then (none, cs)
        else ((scanUrlWith fuel (scanEscape cs).2).1.map ((scanEscape cs).1 :: ·),
          (scanUrlWith fuel (scanEscape cs).2).2)
      else ((scanUrlWith fuel cs).1.map ((if c == '\x00' then replacement else c) :: ·),
        (scanUrlWith fuel cs).2) := by
  rw [scanUrlWith.eq_def]
  simp only [beq_iff_eq]
  rfl

theorem scanUrlWith_suffix (fuel : Nat) (cs : List Char) : (scanUrlWith fuel cs).2 <:+ cs := by
  induction fuel generalizing cs with
  | zero => exact List.suffix_rfl
  | succ fuel ih =>
    rcases cs with _ | ⟨c, cs⟩
    · exact List.suffix_rfl
    · have htail : ∀ {rest}, rest <:+ cs → rest <:+ c :: cs := fun h => h.trans (List.suffix_cons c cs)
      rw [scanUrlWith_cons]
      split
      · exact List.suffix_cons c cs
      split
      · exact htail ((scanUrlEnd_suffix _).trans (List.dropWhile_suffix _))
      split
      · exact List.suffix_cons c cs
      split
      · split
        · exact List.suffix_cons c cs
        · exact htail ((ih _).trans (scanEscape_suffix cs))
      · exact htail (ih cs)

theorem scanUrl_suffix {t : Token} (h : scanUrl cs = some (t, rest)) : rest <:+ cs := by
  rw [scanUrl] at h
  split at h
  · obtain ⟨-, rfl⟩ := Prod.mk.inj (Option.some.inj h)
    exact List.nil_suffix
  · rename_i c tail hdrop
    have hcs : c :: tail <:+ cs := hdrop ▸ List.dropWhile_suffix _
    have hurl := scanUrlWith_suffix (tail.length + 2) (c :: tail)
    split at h
    · cases h
    · split at h
      · rename_i hscan
        obtain ⟨-, rfl⟩ := Prod.mk.inj (Option.some.inj h)
        rw [hscan] at hurl
        exact hurl.trans hcs
      · rename_i fault hscan
        obtain ⟨-, rfl⟩ := Prod.mk.inj (Option.some.inj h)
        rw [hscan] at hurl
        exact ((scanBadUrl_suffix fault).trans hurl).trans hcs

/-! ### Tokens -/

/-- The token that begins with a name, by what follows it. -/
def scanFunction (name : String) : List Char → Token × List Char
  | '(' :: rest =>
    if eqFold name "url" then (scanUrl rest).getD (.function name, rest)
    else (.function name, rest)
  | rest => (.ident name, rest)

theorem scanFunction_of_ne (h : cs.head? ≠ some '(') (name : String) :
    scanFunction name cs = (.ident name, cs) := by
  unfold scanFunction
  split
  · exact absurd rfl h
  · rfl

theorem scanIdentLike_eq (cs : List Char) :
    scanIdentLike cs = scanFunction (scanName cs).1 (scanName cs).2 := by
  rw [scanIdentLike]
  generalize scanName cs = read
  obtain ⟨name, rest⟩ := read
  by_cases h : rest.head? = some '('
  · obtain ⟨tail, rfl⟩ := List.head?_eq_some_iff.mp h
    rfl
  · rw [scanFunction_of_ne h]
    split
    · rename_i heq
      obtain ⟨rfl, rfl⟩ := Prod.mk.inj heq
      exact absurd rfl h
    · rename_i heq
      obtain ⟨rfl, rfl⟩ := Prod.mk.inj heq
      rfl

theorem scanFunction_suffix (name : String) (cs : List Char) : (scanFunction name cs).2 <:+ cs := by
  unfold scanFunction
  split
  · rename_i rest
    split
    · rcases hurl : scanUrl rest with _ | ⟨t, rest'⟩
      · exact List.suffix_cons _ _
      · exact (scanUrl_suffix hurl).trans (List.suffix_cons _ _)
    · exact List.suffix_cons _ _
  · exact List.suffix_rfl

theorem scanIdentLike_suffix (cs : List Char) : (scanIdentLike cs).2 <:+ (scanName cs).2 := by
  rw [scanIdentLike_eq]
  exact scanFunction_suffix _ _

theorem startsIdent_of_ne (hminus : c ≠ '-') (hbackslash : c ≠ '\\') (cs : List Char) :
    startsIdent (c :: cs) = isNameStart c := by
  unfold startsIdent
  split
  · exact absurd (List.cons.inj ‹_›).1 hminus
  · exact absurd (List.cons.inj ‹_›).1 hbackslash
  · rw [(List.cons.inj ‹c :: cs = _›).1]
  · cases ‹c :: cs = []›

/-- What an identifier may begin with, a name takes. -/
theorem startsIdent_cons (h : startsIdent (c :: cs) = true) :
    c = '\\' ∧ startsLine cs = false ∨ c ≠ '\\' ∧ isNameChar c = true := by
  unfold startsIdent at h
  split at h
  · rename_i heq
    obtain ⟨rfl, -⟩ := List.cons.inj heq
    exact .inr ⟨by decide, by decide⟩
  · rename_i heq
    obtain ⟨rfl, rfl⟩ := List.cons.inj heq
    exact .inl ⟨rfl, by simpa using h⟩
  · rename_i hbackslash heq
    obtain ⟨rfl, rfl⟩ := List.cons.inj heq
    refine .inr ⟨hbackslash, ?_⟩
    rw [isNameChar, h]
    rfl
  · rename_i heq
    cases heq

theorem scanName_of_startsIdent (h : startsIdent (c :: cs) = true) :
    (scanName (c :: cs)).2 <:+ cs := by
  change (scanNameWith (cs.length + 1) (c :: cs)).2 <:+ cs
  rw [scanNameWith_cons]
  rcases startsIdent_cons h with ⟨rfl, hl⟩ | ⟨hc, hn⟩
  · rw [if_pos rfl, hl, if_neg Bool.false_ne_true]
    exact (scanNameWith_suffix _ _).trans (scanEscape_suffix cs)
  · rw [if_neg hc, if_pos hn]
    exact scanNameWith_suffix _ _

theorem scanMatch_of_ne (h : cs.head? ≠ some '=') (c : Char) (t : Token) :
    scanMatch c t cs = (.delim c, cs) := by
  unfold scanMatch
  split
  · exact absurd rfl h
  · rfl

theorem scanMatch_suffix (c : Char) (t : Token) (cs : List Char) : (scanMatch c t cs).2 <:+ cs := by
  unfold scanMatch
  split
  · exact List.suffix_cons _ _
  · exact List.suffix_rfl

theorem scanHash_suffix (cs : List Char) : (scanHash cs).2 <:+ cs := by
  unfold scanHash
  split
  · exact scanName_suffix cs
  split
  · rename_i c rest _
    split
    · exact scanName_suffix (c :: rest)
    · exact List.suffix_rfl
  · exact List.suffix_rfl

/-- What follows a hyphen. -/
def scanHyphen (cs : List Char) : Token × List Char :=
  match cs with
  | '-' :: '>' :: rest => (.commentClose, rest)
  | _ => if startsIdent ('-' :: cs) then scanIdentLike ('-' :: cs) else (.delim '-', cs)

/-- What follows a slash. -/
def scanSlash (cs : List Char) : Token × List Char :=
  match cs with
  | '*' :: rest => (.comment (String.ofList (scanComment rest).1), (scanComment rest).2)
  | _ => (.delim '/', cs)

/-- What follows a less-than sign. -/
def scanLess (cs : List Char) : Token × List Char :=
  match cs with
  | '!' :: '-' :: '-' :: rest => (.commentOpen, rest)
  | _ => (.delim '<', cs)

theorem scanHyphen_of_ne (h : ¬ ['-', '>'] <+: cs) : scanHyphen cs =
    if startsIdent ('-' :: cs) then scanIdentLike ('-' :: cs) else (.delim '-', cs) := by
  unfold scanHyphen
  split
  · exact absurd ⟨_, rfl⟩ h
  · rfl

theorem scanSlash_of_ne (h : ¬ ['*'] <+: cs) : scanSlash cs = (.delim '/', cs) := by
  unfold scanSlash
  split
  · exact absurd ⟨_, rfl⟩ h
  · rfl

theorem scanLess_of_ne (h : ¬ ['!', '-', '-'] <+: cs) : scanLess cs = (.delim '<', cs) := by
  unfold scanLess
  split
  · exact absurd ⟨_, rfl⟩ h
  · rfl

theorem eq_of_isSpace (h : isSpace c = true) :
    c = ' ' ∨ c = '\t' ∨ c = '\n' ∨ c = '\x0c' ∨ c = '\r' := by
  simpa [isSpace, or_assoc] using h

/-- A token takes the character that it begins with. -/
theorem scanFrom_suffix (c : Char) (cs : List Char) : (scanFrom c cs).2 <:+ cs := by
  have hident : startsIdent (c :: cs) = true → (scanIdentLike (c :: cs)).2 <:+ cs := fun h =>
    (scanIdentLike_suffix _).trans (scanName_of_startsIdent h)
  unfold scanFrom
  split
  · rw [List.span_eq_takeWhile_dropWhile]
    exact List.dropWhile_suffix _
  split
  · rename_i hnumber
    have hsuffix := (scanNumeric_suffix (c :: cs)).trans
      ((scanNumeral_suffix (c :: cs)).trans ((scanFraction_suffix _).trans
        ((scanDigits_suffix _).trans (scanSign_suffix _))))
    rcases List.suffix_cons_iff.mp hsuffix with heq | hsuffix
    · have hlt := scanNumeral_lt hnumber
      have hle := (scanNumeric_suffix (c :: cs)).length_le
      rw [heq] at hle
      omega
    · exact hsuffix
  split
  case h_1 | h_2 => exact scanQuoted_suffix _ cs
  case h_3 => exact scanHash_suffix cs
  case h_4 | h_5 | h_6 | h_7 | h_8 => exact scanMatch_suffix _ _ cs
  case h_18 =>
    split
    · exact (List.suffix_cons _ _).trans (List.suffix_cons _ _)
    split
    · exact hident ‹_›
    · exact List.suffix_rfl
  case h_19 =>
    split
    · exact (scanComment_suffix _).trans (List.suffix_cons _ _)
    · exact List.suffix_rfl
  case h_20 =>
    split
    · exact ((List.suffix_cons _ _).trans (List.suffix_cons _ _)).trans (List.suffix_cons _ _)
    · exact List.suffix_rfl
  case h_21 =>
    split
    · exact scanName_suffix cs
    · exact List.suffix_rfl
  case h_22 =>
    split
    · exact hident ‹_›
    · exact List.suffix_rfl
  all_goals exact List.suffix_rfl

theorem scan?_suffix {t : Token} (h : Token.scan? cs = some (t, rest)) : rest.length < cs.length := by
  rcases cs with _ | ⟨c, cs⟩
  · cases h
  · obtain rfl : (scanFrom c cs).2 = rest := congrArg Prod.snd (Option.some.inj h)
    exact Nat.lt_succ_of_le (scanFrom_suffix c cs).length_le

/-! ### Texts -/

theorem lexWith_congr (fuel fuel' : Nat) (cs : List Char) (h : cs.length ≤ fuel)
    (h' : cs.length ≤ fuel') : lexWith fuel cs.length cs = lexWith fuel' cs.length cs := by
  induction fuel generalizing cs fuel' with
  | zero =>
    obtain rfl := List.length_eq_zero_iff.mp (Nat.le_zero.mp h)
    rcases fuel' with _ | fuel'
    · rfl
    · rfl
  | succ fuel ih =>
    rcases fuel' with _ | fuel'
    · obtain rfl := List.length_eq_zero_iff.mp (Nat.le_zero.mp h')
      rfl
    · rw [lexWith, lexWith]
      rcases hscan : Token.scan? cs with _ | ⟨t, rest⟩
      · rfl
      · have := scan?_suffix hscan
        simp only
        rw [ih fuel' rest (by omega) (by omega)]

@[simp]
theorem lex_nil : lex [] = [] :=
  rfl

/-- The tokens of a text are its first token and those of the rest. -/
theorem lex_of_scan? {t : Token} {source : List Char}
    (h : Token.scan? (source ++ rest) = some (t, rest)) :
    lex (source ++ rest) = ⟨t, source⟩ :: lex rest := by
  have hlt := scan?_suffix h
  obtain ⟨n, hn⟩ : ∃ n, (source ++ rest).length = n + 1 := ⟨_, (Nat.succ_pred (by omega)).symm⟩
  have htake : (source ++ rest).take (n + 1 - rest.length) = source := by
    rw [← hn, List.length_append, Nat.add_sub_cancel, List.take_left]
  rw [lex, hn, lexWith, h]
  simp only [htake]
  rw [lexWith_congr n rest.length rest (by omega) le_rfl, lex]

/-- A text that is not empty begins with a token. -/
theorem exists_lex_cons (c : Char) (cs : List Char) : ∃ source,
    c :: source ++ (scanFrom c cs).2 = c :: cs ∧
      lex (c :: cs) = ⟨(scanFrom c cs).1, c :: source⟩ :: lex (scanFrom c cs).2 := by
  obtain ⟨source, hsource⟩ := scanFrom_suffix c cs
  have happend : c :: source ++ (scanFrom c cs).2 = c :: cs := by rw [List.cons_append, hsource]
  refine ⟨source, happend, ?_⟩
  conv_lhs => rw [← happend]
  exact lex_of_scan? (by rw [happend]; rfl)

end DomQuery.Css
