import DomQuery.Css.Serialize
import DomQuery.Proofs.Css.Sound
import DomQuery.Proofs.Css.Spells

/-!
# Reading what was written

Names and strings are written with escapes such that they are read back as they were,
in front of anything that does not go on with the name.

* `writes_identifierChars`: the characters of an identifier.
* `scan?_ident`, `scan?_function`, `scan?_idHash`, `scan?_quoted`: whole tokens.
-/

namespace DomQuery.Css

open DomQuery.Text

variable {c : Char} {cs rest : List Char}

/-! ### Escapes -/

theorem isNameChar_of_hexValue? {value : Nat} (h : hexValue? c = some value) :
    isNameChar c = true := by
  have halpha : c.isAlpha = true → isNameChar c = true := fun h => by
    simp [isNameChar, isNameStart, h]
  unfold hexValue? at h
  split at h
  · rename_i hdigit
    simp [isNameChar, hdigit]
  split at h
  · rename_i hlower
    obtain ⟨hlo, hhi⟩ : 'a' ≤ c ∧ c ≤ 'f' := by simpa using hlower
    refine halpha ?_
    have hlower : c.isLower = true := by
      simp only [Char.isLower, Bool.and_eq_true, decide_eq_true_eq]
      exact ⟨hlo, Char.le_trans hhi (by decide)⟩
    simp [Char.isAlpha, hlower]
  split at h
  · rename_i hupper
    obtain ⟨hlo, hhi⟩ : 'A' ≤ c ∧ c ≤ 'F' := by simpa using hupper
    refine halpha ?_
    have hupper : c.isUpper = true := by
      simp only [Char.isUpper, decide_eq_true_eq]
      exact ⟨hlo, Char.le_trans hhi (by decide)⟩
    simp [Char.isAlpha, hupper]
  · cases h

theorem isNewline_cases (h : isNewline c = true) : c = '\n' ∨ c = '\r' ∨ c = '\x0c' := by
  simpa only [isNewline, Bool.or_eq_true, beq_iff_eq, or_assoc] using h

theorem isNewline_of_isNameChar (h : isNameChar c = true) : isNewline c = false := by
  refine Bool.eq_false_iff.mpr fun hline => ?_
  rcases isNewline_cases hline with rfl | rfl | rfl
  all_goals cases h

theorem isControl_of_isNewline (h : isNewline c = true) : isControl c = true := by
  rcases isNewline_cases h with rfl | rfl | rfl
  all_goals rfl

theorem hexValue?_digitChar {d : Nat} (h : d < 16) : hexValue? d.digitChar = some d := by
  have hall : ∀ d : Fin 16, hexValue? d.val.digitChar = some d.val := by decide
  exact hall ⟨d, h⟩

theorem charOf_toNat (h : c ≠ '\x00') : charOf c.toNat = c := by
  have hne : c.toNat ≠ 0 := fun h0 => h (by rw [← Char.ofNat_toNat c, h0])
  have hvalid : c.toNat.isValidChar := c.valid
  simp [charOf, hne, hvalid]

/-- The digits of an escape by number. -/
theorem exists_toDigits (h : c.toNat < 0x80) :
    ∃ d value ds, Nat.toDigits 16 c.toNat = d :: ds ∧ hexValue? d = some value := by
  rcases Nat.lt_or_ge c.toNat 16 with hlt | hge
  · exact ⟨_, _, [], Nat.toDigits_of_lt_base hlt, hexValue?_digitChar hlt⟩
  · have hhigh : c.toNat / 16 < 16 := by omega
    rw [Nat.toDigits_of_base_le (by decide) hge, Nat.toDigits_of_lt_base hhigh]
    exact ⟨_, _, _, rfl, hexValue?_digitChar hhigh⟩

/-- An escape by number, which ends with a blank. -/
theorem scanEscape_toDigits (h : c ≠ '\x00') (hascii : c.toNat < 0x80) (rest : List Char) :
    scanEscape (Nat.toDigits 16 c.toNat ++ ' ' :: rest) = (c, rest) := by
  have hblank : hexValue? ' ' = none := rfl
  have hchar := charOf_toNat h
  rcases Nat.lt_or_ge c.toNat 16 with hlt | hge
  · rw [Nat.toDigits_of_lt_base hlt, List.singleton_append,
      scanEscape_hex (hexValue?_digitChar hlt), takeHex, hblank, hchar]
    rfl
  · have hhigh : c.toNat / 16 < 16 := by omega
    have hlow : c.toNat % 16 < 16 := by omega
    rw [Nat.toDigits_of_base_le (by decide) hge, Nat.toDigits_of_lt_base hhigh,
      List.singleton_append, List.cons_append, List.singleton_append,
      scanEscape_hex (hexValue?_digitChar hhigh), takeHex, hexValue?_digitChar hlow]
    simp only [takeHex, hblank]
    rw [Nat.div_add_mod, hchar]
    rfl

theorem toNat_lt_of_isControl (h : isControl c = true) : c.toNat < 0x80 := by
  simp only [isControl, Bool.or_eq_true, decide_eq_true_eq, beq_iff_eq] at h
  omega

theorem toNat_of_isDigit (h : c.isDigit = true) : 48 ≤ c.toNat ∧ c.toNat ≤ 57 := by
  simp only [Char.isDigit, Bool.and_eq_true, decide_eq_true_eq] at h
  exact h

theorem toNat_lt_of_isDigit (h : c.isDigit = true) : c.toNat < 0x80 :=
  Nat.lt_of_le_of_lt (toNat_of_isDigit h).2 (by decide)

/-! ### Names -/

/-- No name goes on here. -/
def EndsName (rest : List Char) : Prop :=
  ∀ c ∈ rest.head?, isNameChar c = false ∧ c ≠ '\\' ∧ c ≠ '>'

theorem endsName_cons (h : isNameChar c = false ∧ c ≠ '\\' ∧ c ≠ '>') : EndsName (c :: cs) := by
  rintro _ ⟨⟩
  exact h

/-- Reading the text as a name, in front of anything that is not part of it, gives `name`. -/
structure Writes (text name : List Char) : Prop where
  length_le : name.length ≤ text.length
  scan : ∀ {rest fuel}, EndsName rest → name.length ≤ fuel →
    scanNameWith fuel (text ++ rest) = (name, rest)

theorem writes_nil : Writes [] [] := by
  refine ⟨Nat.le_refl 0, @fun rest fuel hrest _ => ?_⟩
  rcases fuel with _ | fuel
  · rfl
  rcases rest with _ | ⟨c, rest⟩
  · rfl
  obtain ⟨hname, hbackslash, -⟩ := hrest c rfl
  rw [List.nil_append, scanNameWith_cons, if_neg hbackslash, hname]
  rfl

theorem Writes.cons {text name : List Char} (h : Writes text name) (hc : isNameChar c = true)
    (hnul : c ≠ '\x00') : Writes (c :: text) (c :: name) := by
  refine ⟨Nat.succ_le_succ h.length_le, @fun rest fuel hrest hfuel => ?_⟩
  obtain ⟨fuel, rfl⟩ := Nat.exists_eq_add_one_of_ne_zero (Nat.ne_zero_of_lt hfuel)
  have hbackslash : c ≠ '\\' := by
    rintro rfl
    cases hc
  rw [List.cons_append, scanNameWith_cons, if_neg hbackslash, hc, if_pos rfl,
    h.scan hrest (Nat.le_of_succ_le_succ hfuel)]
  simp [hnul]

/-- An escape in front of what is written so. -/
theorem Writes.escape {text name : List Char} (h : Writes text name) (escape : List Char)
    (hline : ∀ rest, startsLine (escape ++ rest) = false)
    (hc : ∀ rest, scanEscape (escape ++ rest) = (c, rest)) :
    Writes ('\\' :: escape ++ text) (c :: name) := by
  have hlength := h.length_le
  refine ⟨by simp; omega, @fun rest fuel hrest hfuel => ?_⟩
  obtain ⟨fuel, rfl⟩ := Nat.exists_eq_add_one_of_ne_zero (Nat.ne_zero_of_lt hfuel)
  rw [List.append_assoc, List.cons_append, scanNameWith_cons, if_pos rfl, hline, hc,
    h.scan hrest (Nat.le_of_succ_le_succ hfuel)]
  rfl

theorem Writes.hexEscape {text name : List Char} (h : Writes text name) (hnul : c ≠ '\x00')
    (hascii : c.toNat < 0x80) : Writes (hexEscape c ++ text) (c :: name) := by
  obtain ⟨d, value, ds, hdigits, hvalue⟩ := exists_toDigits hascii
  refine h.escape (Nat.toDigits 16 c.toNat ++ [' ']) (fun rest => ?_) fun rest => ?_
  · rw [hdigits]
    exact isNewline_of_isNameChar (isNameChar_of_hexValue? hvalue)
  · rw [List.append_assoc]
    exact scanEscape_toDigits hnul hascii rest

theorem Writes.nameChar {text name : List Char} (h : Writes text name) (hnul : c ≠ '\x00') :
    Writes (nameChar c ++ text) (c :: name) := by
  unfold DomQuery.Css.nameChar
  split
  · rename_i hc
    exact absurd (beq_iff_eq.mp hc) hnul
  split
  · exact h.cons ‹_› hnul
  split
  · exact h.hexEscape hnul (toNat_lt_of_isControl ‹_›)
  · rename_i hname hcontrol
    have hhex : hexValue? c = none := by
      rcases hvalue : hexValue? c with _ | value
      · rfl
      · exact absurd (isNameChar_of_hexValue? hvalue) hname
    refine h.escape [c] (fun rest => ?_) fun rest => ?_
    · exact Bool.eq_false_iff.mpr fun hline => hcontrol (isControl_of_isNewline hline)
    · rw [List.singleton_append, scanEscape_other hhex, if_neg hnul]

theorem writes_serializeName {name : List Char} (h : '\x00' ∉ name) :
    Writes (serializeName name) name := by
  induction name with
  | nil => exact writes_nil
  | cons c name ih =>
    rw [List.mem_cons, not_or] at h
    exact (ih h.2).nameChar (Ne.symm h.1)

theorem writes_serializeStart {name : List Char} (h : '\x00' ∉ name) :
    Writes (serializeStart name) name := by
  rcases name with _ | ⟨c, name⟩
  · exact writes_nil
  · rw [List.mem_cons, not_or] at h
    rw [serializeStart]
    split
    · rename_i hdigit
      exact (writes_serializeName h.2).hexEscape (Ne.symm h.1) (toNat_lt_of_isDigit hdigit)
    · exact (writes_serializeName h.2).nameChar (Ne.symm h.1)

theorem writes_identifierChars {name : List Char} (h : '\x00' ∉ name) :
    Writes (identifierChars name) name := by
  unfold identifierChars
  split
  · have hname := writes_serializeName fun hmem => h (List.mem_cons_of_mem _ (List.mem_cons_of_mem _ hmem))
    exact (hname.cons rfl (by decide)).cons rfl (by decide)
  · exact writes_nil.escape ['-'] (fun _ => rfl) fun _ => rfl
  · exact (writes_serializeStart fun hmem => h (List.mem_cons_of_mem _ hmem)).cons rfl (by decide)
  · exact writes_serializeStart h

/-- What is written of a character is the character or an escape. -/
theorem hexEscape_cases (h : c.toNat < 0x80) :
    ∃ d text, hexEscape c = '\\' :: d :: text ∧ isNewline d = false := by
  obtain ⟨d, value, ds, hdigits, hvalue⟩ := exists_toDigits h
  refine ⟨d, ds ++ [' '], ?_, isNewline_of_isNameChar (isNameChar_of_hexValue? hvalue)⟩
  rw [hexEscape, hdigits]
  rfl

theorem nameChar_cases (hnul : c ≠ '\x00') : nameChar c = [c] ∧ isNameChar c = true ∨
    ∃ d text, nameChar c = '\\' :: d :: text ∧ isNewline d = false := by
  unfold nameChar
  split
  · rename_i hc
    exact absurd (beq_iff_eq.mp hc) hnul
  split
  · exact .inl ⟨rfl, ‹_›⟩
  split
  · exact .inr (hexEscape_cases (toNat_lt_of_isControl ‹_›))
  · rename_i hcontrol
    exact .inr ⟨c, [], rfl, Bool.eq_false_iff.mpr fun hline => hcontrol (isControl_of_isNewline hline)⟩

/-- The first character of an identifier that does not begin with a hyphen. -/
theorem serializeStart_cases (hnul : c ≠ '\x00') (hhyphen : c ≠ '-') (cs : List Char) :
    ∃ d text, serializeStart (c :: cs) = d :: text ∧ d ≠ '-' ∧
      (isNameStart d = true ∨ d = '\\' ∧ ∀ rest, startsLine (text ++ rest) = false) := by
  have hescape : ∀ {text tail : List Char} {d : Char}, text = '\\' :: d :: tail → isNewline d = false →
      ∀ after, ∃ d text', text ++ after = d :: text' ∧ d ≠ '-' ∧
        (isNameStart d = true ∨ d = '\\' ∧ ∀ rest, startsLine (text' ++ rest) = false) := by
    rintro text tail d rfl hline after
    exact ⟨_, _, rfl, by decide, .inr ⟨rfl, fun _ => hline⟩⟩
  rw [serializeStart]
  split
  · obtain ⟨d, text, heq, hline⟩ := hexEscape_cases (toNat_lt_of_isDigit ‹_›)
    exact hescape heq hline _
  · rename_i hdigit
    rw [serializeName, List.flatMap_cons]
    rcases nameChar_cases hnul with ⟨heq, hname⟩ | ⟨d, text, heq, hline⟩
    · refine ⟨c, _, by rw [heq]; rfl, hhyphen, .inl ?_⟩
      simpa [isNameChar, hdigit, hhyphen] using hname
    · exact hescape heq hline _

/-- What does not begin with a hyphen begins an identifier, also after a hyphen. -/
theorem startsIdent_serializeStart (hnul : c ≠ '\x00') (hhyphen : c ≠ '-') (cs rest : List Char) :
    startsIdent (serializeStart (c :: cs) ++ rest) = true ∧
      startsIdent ('-' :: (serializeStart (c :: cs) ++ rest)) = true := by
  obtain ⟨d, text, heq, hd, hstart | ⟨rfl, hline⟩⟩ := serializeStart_cases hnul hhyphen cs
  · have hbackslash : d ≠ '\\' := by
      rintro rfl
      cases hstart
    rw [heq]
    exact ⟨(startsIdent_of_ne hd hbackslash _).trans hstart, by simp [startsIdent, hstart]⟩
  · rw [heq]
    exact ⟨congrArg not (hline rest), rfl⟩

theorem startsIdent_identifierChars {name : List Char} (hne : name ≠ []) (h : '\x00' ∉ name)
    (rest : List Char) : startsIdent (identifierChars name ++ rest) = true := by
  unfold identifierChars
  split
  · rfl
  · rfl
  · rename_i cs hdash hone
    rcases cs with _ | ⟨c, cs⟩
    · exact absurd rfl hone
    have hnul : c ≠ '\x00' := fun hc => h (by simp [hc])
    have hhyphen : c ≠ '-' := fun hc => hdash cs (by rw [hc])
    exact (startsIdent_serializeStart hnul hhyphen cs rest).2
  · rename_i hdash hone hhyphen
    rcases name with _ | ⟨c, cs⟩
    · exact absurd rfl hne
    have hnul : c ≠ '\x00' := fun hc => h (by simp [hc])
    exact (startsIdent_serializeStart hnul (fun hc => hhyphen cs (by rw [hc])) cs rest).1

/-- An identifier is no end of a comment. -/
theorem not_commentClose_identifierChars {name : List Char} (h : '\x00' ∉ name)
    (hrest : EndsName rest) : ¬ ['-', '-', '>'] <+: identifierChars name ++ rest := by
  unfold identifierChars
  split
  · rename_i cs
    rintro ⟨after, heq⟩
    obtain ⟨-, -, heq⟩ : True ∧ True ∧ '>' :: after = serializeName cs ++ rest := by
      simpa using heq
    rcases cs with _ | ⟨c, cs⟩
    · exact (hrest '>' (by rw [← show '>' :: after = rest from heq]; rfl)).2.2 rfl
    · have hnul : c ≠ '\x00' := fun hc => h (by simp [hc])
      rw [serializeName, List.flatMap_cons] at heq
      rcases nameChar_cases hnul with ⟨hchar, hname⟩ | ⟨d, text, hchar, -⟩
      · rw [hchar] at heq
        obtain rfl := (List.cons.inj heq).1
        cases hname
      · rw [hchar] at heq
        cases (List.cons.inj heq).1
  · rintro ⟨after, heq⟩
    cases heq
  · rename_i cs hdash hone
    rcases cs with _ | ⟨c, cs⟩
    · exact absurd rfl hone
    have hnul : c ≠ '\x00' := fun hc => h (by simp [hc])
    obtain ⟨d, text, heq, hd, -⟩ := serializeStart_cases hnul (fun hc => hdash cs (by rw [hc])) cs
    rintro ⟨after, hstarts⟩
    rw [heq] at hstarts
    exact hd (List.cons.inj (List.cons.inj hstarts).2).1.symm
  · rename_i hdash hone hhyphen
    rintro ⟨after, hstarts⟩
    rcases name with _ | ⟨c, cs⟩
    · have hrest := hrest '-' (by rw [← show _ = rest from hstarts]; rfl)
      cases hrest.1
    · have hnul : c ≠ '\x00' := fun hc => h (by simp [hc])
      obtain ⟨d, text, heq, hd, -⟩ :=
        serializeStart_cases hnul (fun hc => hhyphen cs (by rw [hc])) cs
      rw [heq] at hstarts
      exact hd (List.cons.inj hstarts).1.symm

/-! ### Tokens -/

theorem toList_identifier (name : String) : (identifier name).toList = identifierChars name.toList :=
  String.toList_ofList

/-- An identifier as a name. -/
theorem scanName_identifier {name : String} (h : '\x00' ∉ name.toList) (hrest : EndsName rest) :
    scanName ((identifier name).toList ++ rest) = (name, rest) := by
  have hwrites := writes_identifierChars h
  have hlength : name.toList.length ≤ (identifierChars name.toList ++ rest).length := by
    have := hwrites.length_le
    rw [List.length_append]
    omega
  rw [scanName, toList_identifier, hwrites.scan hrest hlength]
  simp only [String.ofList_toList]

theorem startsIdent_identifier {name : String} (h : IsName name) (rest : List Char) :
    startsIdent ((identifier name).toList ++ rest) = true := by
  rw [toList_identifier]
  exact startsIdent_identifierChars (fun hnil => h.1 (String.toList_eq_nil_iff.mp hnil)) h.2 rest

theorem isDigit_of_isNameStart (h : isNameStart c = true) : c.isDigit = false := by
  refine Bool.eq_false_iff.mpr fun hdigit => ?_
  obtain ⟨hlo, hhi⟩ := toNat_of_isDigit hdigit
  rw [← Char.ofNat_toNat c] at h
  generalize c.toNat = n at h hlo hhi
  interval_cases n
  all_goals cases h

/-- The first character of what begins an identifier, or the one after its hyphen, is not the first
one of a number. -/
theorem startsMagnitude_of_isNameStart (h : isNameStart c = true ∨ c = '-' ∨ c = '\\')
    (cs : List Char) : startsMagnitude (c :: cs) = false := by
  rcases h with h | rfl | rfl
  · have hpoint : c ≠ '.' := by
      rintro rfl
      cases h
    rw [startsMagnitude_of_ne hpoint, isDigit_of_isNameStart h]
  · rfl
  · rfl

theorem startsNumber_of_startsIdent (h : startsIdent cs = true) : startsNumber cs = false := by
  unfold startsIdent at h
  split at h
  · rename_i c rest
    refine startsMagnitude_of_isNameStart ?_ rest
    simpa [or_assoc] using h
  · exact startsMagnitude_of_isNameStart (.inr (.inr rfl)) _
  · rename_i c rest hhyphen hbackslash
    have hplus : c ≠ '+' := by
      rintro rfl
      cases h
    have hminus : c ≠ '-' := by
      rintro rfl
      cases h
    rw [startsNumber_eq, scanSign_of_ne hplus hminus]
    exact startsMagnitude_of_isNameStart (.inl h) _
  · cases h

/-- What begins an identifier is read as one. -/
theorem scan?_of_startsIdent (h : startsIdent cs = true) (hclose : ¬ ['-', '-', '>'] <+: cs) :
    Token.scan? cs = some (scanIdentLike cs) := by
  rcases cs with _ | ⟨c, cs⟩
  · cases h
  have hspace : isSpace c = false := by
    refine Bool.eq_false_iff.mpr fun hspace => ?_
    rcases eq_of_isSpace hspace with rfl | rfl | rfl | rfl | rfl
    all_goals cases h
  refine congrArg some ?_
  unfold scanFrom
  rw [hspace, startsNumber_of_startsIdent h, if_neg Bool.false_ne_true, if_neg Bool.false_ne_true]
  split
  case h_18 =>
    have hhyphen : ¬ ['-', '>'] <+: cs := fun hp => hclose (List.cons_prefix_cons.mpr ⟨rfl, hp⟩)
    exact (scanHyphen_of_ne hhyphen).trans (if_pos h)
  case h_22 => exact if_pos h
  all_goals cases h

theorem scan?_ident {name : String} (h : IsName name) (hrest : EndsName rest)
    (hparen : rest.head? ≠ some '(') :
    Token.scan? ((identifier name).toList ++ rest) = some (.ident name, rest) := by
  have hclose := not_commentClose_identifierChars h.2 hrest
  rw [← toList_identifier] at hclose
  rw [scan?_of_startsIdent (startsIdent_identifier h rest) hclose, scanIdentLike_eq,
    scanName_identifier h.2 hrest, scanFunction_of_ne hparen]

theorem scan?_function {name : String} (h : IsName name) (hurl : eqFold name "url" = false)
    (rest : List Char) :
    Token.scan? ((identifier name).toList ++ '(' :: rest) = some (.function name, rest) := by
  have hrest : EndsName ('(' :: rest) := endsName_cons (by decide)
  have hclose := not_commentClose_identifierChars h.2 hrest
  rw [← toList_identifier] at hclose
  rw [scan?_of_startsIdent (startsIdent_identifier h _) hclose, scanIdentLike_eq,
    scanName_identifier h.2 hrest, scanFunction, hurl]
  rfl

/-- A function with what stands between its brackets. -/
theorem Spells.function {name : String} {s : List Char} {vs : List Value} (h : IsName name)
    (hurl : eqFold name "url" = false) (hs : Spells s vs (')' :: rest)) :
    Spells ((identifier name).toList ++ ['('] ++ s ++ [')']) [.block (.function name) vs s] rest := by
  refine @Spells.block s rest vs _ .closeParen _ [')'] hs rfl ?_ rfl
  rw [List.append_assoc]
  exact scan?_function h hurl _

theorem scan?_idHash {name : String} (h : IsName name) (hrest : EndsName rest) :
    Token.scan? ('#' :: (identifier name).toList ++ rest) = some (.idHash name, rest) := by
  change some (scanHash ((identifier name).toList ++ rest)) = _
  rw [scanHash.eq_def, startsIdent_identifier h, scanName_identifier h.2 hrest]
  rfl

/-! ### Strings -/

theorem scanQuotedWith_escape {d : Char} {tail : List Char} (hline : isNewline d = false)
    (hc : scanEscape (d :: tail) = (c, rest)) (fuel : Nat) :
    scanQuotedWith '"' (fuel + 1) ('\\' :: d :: tail) =
      (c :: (scanQuotedWith '"' fuel rest).1, (scanQuotedWith '"' fuel rest).2) := by
  rw [scanQuotedWith_cons, if_neg (by decide), if_neg (by decide), if_pos rfl]
  simp only [hline, Bool.false_eq_true, if_false, hc]

/-- A character as it stands in a string. -/
theorem scanQuotedWith_stringChar (hnul : c ≠ '\x00') (fuel : Nat) (rest : List Char) :
    scanQuotedWith '"' (fuel + 1) (stringChar c ++ rest) =
      (c :: (scanQuotedWith '"' fuel rest).1, (scanQuotedWith '"' fuel rest).2) := by
  unfold stringChar
  split
  · obtain rfl := beq_iff_eq.mp ‹_›
    exact scanQuotedWith_escape rfl (scanEscape_other rfl rest) fuel
  split
  · obtain rfl := beq_iff_eq.mp ‹_›
    exact scanQuotedWith_escape rfl (scanEscape_other rfl rest) fuel
  split
  · exact absurd (beq_iff_eq.mp ‹_›) hnul
  split
  · have hascii := toNat_lt_of_isControl ‹_›
    obtain ⟨d, value, ds, hdigits, hvalue⟩ := exists_toDigits hascii
    have hescape := scanEscape_toDigits hnul hascii rest
    rw [hexEscape, List.append_assoc, List.cons_append, hdigits, List.cons_append]
    rw [hdigits] at hescape
    exact scanQuotedWith_escape (isNewline_of_isNameChar (isNameChar_of_hexValue? hvalue)) hescape fuel
  · rename_i hquote hbackslash _ hcontrol
    have hline : isNewline c = false :=
      Bool.eq_false_iff.mpr fun hline => hcontrol (isControl_of_isNewline hline)
    rw [List.singleton_append, scanQuotedWith_cons, if_neg fun hc => hquote (beq_iff_eq.mpr hc),
      hline, if_neg Bool.false_ne_true, if_neg fun hc => hbackslash (beq_iff_eq.mpr hc)]
    simp [hnul]

theorem scanQuotedWith_body {value : List Char} (h : '\x00' ∉ value) {fuel : Nat}
    (hfuel : value.length ≤ fuel) (rest : List Char) :
    scanQuotedWith '"' (fuel + 1) (value.flatMap stringChar ++ '"' :: rest) = (value, true, rest) := by
  induction value generalizing fuel with
  | nil => rfl
  | cons c value ih =>
    rw [List.mem_cons, not_or] at h
    obtain ⟨fuel, rfl⟩ := Nat.exists_eq_add_one_of_ne_zero (Nat.ne_zero_of_lt hfuel)
    rw [List.flatMap_cons, List.append_assoc, scanQuotedWith_stringChar (Ne.symm h.1),
      ih h.2 (Nat.le_of_succ_le_succ hfuel)]

theorem stringChar_ne_nil (c : Char) : stringChar c ≠ [] := by
  unfold stringChar hexEscape
  repeat' split
  all_goals exact List.cons_ne_nil _ _

theorem length_le_flatMap_stringChar (value : List Char) :
    value.length ≤ (value.flatMap stringChar).length := by
  induction value with
  | nil => exact Nat.le_refl 0
  | cons c value ih =>
    have := List.length_pos_iff.mpr (stringChar_ne_nil c)
    rw [List.flatMap_cons, List.length_append, List.length_cons]
    omega

theorem toList_quotedString (value : String) :
    (quotedString value).toList = '"' :: (value.toList.flatMap stringChar ++ ['"']) := by
  simp [quotedString, stringBody]

theorem scan?_quoted {value : String} (h : '\x00' ∉ value.toList) (rest : List Char) :
    Token.scan? ((quotedString value).toList ++ rest) = some (.quoted value, rest) := by
  have hlength : value.toList.length ≤ (value.toList.flatMap stringChar ++ '"' :: rest).length := by
    have := length_le_flatMap_stringChar value.toList
    rw [List.length_append]
    omega
  rw [toList_quotedString, List.cons_append, List.append_assoc, List.singleton_append]
  change some (scanQuoted '"' _) = _
  rw [scanQuoted, scanQuotedWith_body h hlength]
  simp only [String.ofList_toList]

end DomQuery.Css
