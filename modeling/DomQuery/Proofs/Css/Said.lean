import DomQuery.Proofs.Css.CutOff
import DomQuery.Proofs.Css.Serialize

/-!
# What tokens say

Names, strings and stars say a text, and blanks and comments say nothing. What a token says
is never longer than what it was read from. It is as long only if it is what was written:
with an escape, a quote or a blank, something is lost.

* `Tells`: how a piece of text and what it says are related.
* `tells_of_scan?`: they are, for every token that says something.
* `Bare`: the tokens that say just what is written.
* `scan?_of_writes`: the rest of a name is read as a name.
-/

namespace DomQuery.Css

open DomQuery.Text

variable {c d q : Char} {cs rest source said : List Char} {fuel : Nat} {t : Token}

/-! ### Texts -/

/-- All of the text counts: no NUL character is replaced, and no backslash is left at its end. -/
structure Firm (cs : List Char) : Prop where
  nul : '\x00' ∉ cs
  backslash : cs.getLast? ≠ some '\\'

namespace Firm

theorem suffix (h : Firm cs) (hs : rest <:+ cs) : Firm rest := by
  obtain ⟨before, rfl⟩ := hs
  refine ⟨fun hn => h.nul (List.mem_append_right _ hn), fun hlast => h.backslash ?_⟩
  rw [List.getLast?_append, hlast]
  rfl

theorem tail (h : Firm (c :: cs)) : Firm cs :=
  h.suffix (List.suffix_cons c cs)

theorem ne_nul (h : Firm (c :: cs)) : c ≠ '\x00' :=
  fun hc => h.nul (hc ▸ List.mem_cons_self)

theorem ne_nil (h : Firm ('\\' :: cs)) : cs ≠ [] :=
  fun hcs => h.backslash (by rw [hcs]; rfl)

end Firm

theorem concat_ne_cons {α : Type} {a b : α} (h : a ≠ b) (l : List α) : l ++ [a] ≠ b :: l := by
  induction l with
  | nil => exact fun heq => h (List.cons.inj heq).1
  | cons x l ih =>
    intro heq
    obtain ⟨rfl, htail⟩ := List.cons.inj heq
    exact ih htail

/-! ### Pieces of text and what they say -/

/-- What is said is what is written, or it is shorter; and then a closing parenthesis at its end
does not make up for what is lost, in any case of letters. -/
structure Tells (source said : List Char) : Prop where
  eq_or_lt : said = source ∨ said.length < source.length
  loses : ∀ after, (said ++ (after ++ [')'])).map Char.toLower ≠ (source ++ after).map Char.toLower

namespace Tells

theorem length_le (h : Tells source said) : said.length ≤ source.length := by
  rcases h.eq_or_lt with rfl | hlt
  · exact Nat.le_refl _
  · exact Nat.le_of_lt hlt

protected theorem verbatim (source : List Char) : Tells source source := by
  refine ⟨.inl rfl, fun after heq => ?_⟩
  have hlength := congrArg List.length heq
  simp at hlength

/-- Two characters that are lost are too many. -/
theorem of_length (h : said.length + 2 ≤ source.length) : Tells source said := by
  refine ⟨.inr (by omega), fun after heq => ?_⟩
  have hlength := congrArg List.length heq
  simp only [List.length_map, List.length_append, List.length_singleton] at hlength
  omega

/-- A character that is lost. -/
theorem dropped (h : c.toLower ≠ ')') : Tells [c] [] := by
  refine ⟨.inr Nat.zero_lt_one, fun after heq => ?_⟩
  rw [List.nil_append, List.map_append, List.singleton_append, List.map_cons] at heq
  exact concat_ne_cons (Ne.symm h) _ heq

/-- A backslash before a character that stands for itself. -/
theorem escaped (c : Char) : Tells ['\\', c] [c] := by
  refine ⟨.inr (Nat.lt_succ_self 1), fun after heq => ?_⟩
  have hlower : ('\\' : Char).toLower ≠ ')' := by decide
  refine (dropped hlower).loses (c :: after) ?_
  simpa using heq

/-- A backslash before something that stands for no backslash. -/
theorem of_escape (hd : d ≠ '\\') (c : Char) : Tells ['\\', c] [d] := by
  refine ⟨.inr (Nat.lt_succ_self 1), fun after heq => ?_⟩
  have hlower : d.toLower = '\\' := (List.cons.inj heq).1
  rcases toLower_cases d with hsame | hletter
  · exact hd (hsame.symm.trans hlower)
  · rw [hlower] at hletter
    exact absurd hletter.1 (by decide)

protected theorem append {source' said' : List Char} (h : Tells source said)
    (h' : Tells source' said') : Tells (source ++ source') (said ++ said') := by
  have hle := h.length_le
  have hle' := h'.length_le
  rcases h.eq_or_lt with rfl | hlt
  · refine ⟨h'.eq_or_lt.imp (congrArg _) fun hlt' => by simp [hlt'], fun after heq => ?_⟩
    refine h'.loses after ?_
    simpa using heq
  rcases h'.eq_or_lt with rfl | hlt'
  · refine ⟨.inr (by simp [hlt]), fun after heq => h.loses (said' ++ after) ?_⟩
    simpa using heq
  · refine of_length ?_
    simp only [List.length_append]
    omega

end Tells

/-! ### Names, strings and blanks -/

theorem takeHex_of_nothing {limit value : Nat} (h : (takeHex limit value cs).2 = cs) :
    (takeHex limit value cs).1 = value := by
  rcases limit with _ | limit
  · rfl
  rcases cs with _ | ⟨c, cs⟩
  · rfl
  rw [takeHex] at h ⊢
  rcases hc : hexValue? c with _ | d
  · rfl
  · simp only [hc] at h
    have hle := (takeHex_suffix limit (16 * value + d) cs).length_le
    rw [h, List.length_cons] at hle
    omega

theorem lt_of_hexValue? {value : Nat} (h : hexValue? c = some value) : value < 16 := by
  unfold hexValue? at h
  split at h
  · rename_i hdigit
    have := toNat_of_isDigit hdigit
    obtain rfl := Option.some.inj h
    omega
  split at h
  · rename_i hlower
    obtain ⟨-, hhi⟩ : 'a' ≤ c ∧ c ≤ 'f' := by simpa using hlower
    have hle : c.toNat ≤ 102 := hhi
    obtain rfl := Option.some.inj h
    omega
  split at h
  · rename_i hupper
    obtain ⟨-, hhi⟩ : 'A' ≤ c ∧ c ≤ 'F' := by simpa using hupper
    have hle : c.toNat ≤ 70 := hhi
    obtain rfl := Option.some.inj h
    omega
  · cases h

theorem charOf_ne_backslash {n : Nat} (h : n < 16) : charOf n ≠ '\\' := by
  have hall : ∀ n : Fin 16, charOf n ≠ '\\' := by decide
  exact hall ⟨n, h⟩

theorem tells_scanEscape (h : Firm cs) (hne : cs ≠ []) :
    ∃ escape, cs = escape ++ (scanEscape cs).2 ∧ escape ≠ [] ∧
      Tells ('\\' :: escape) [(scanEscape cs).1] := by
  obtain ⟨c, cs, rfl⟩ := List.exists_cons_of_ne_nil hne
  rcases hc : hexValue? c with _ | value
  · rw [scanEscape_other hc, if_neg h.ne_nul]
    exact ⟨[c], rfl, List.cons_ne_nil _ _, .escaped c⟩
  · obtain ⟨taken, htaken⟩ :=
      (dropBlank_suffix (takeHex 5 value cs).2).trans (takeHex_suffix 5 value cs)
    rw [scanEscape_hex hc]
    refine ⟨c :: taken, by rw [List.cons_append, htaken], List.cons_ne_nil _ _, ?_⟩
    rcases taken with _ | ⟨d, taken⟩
    · -- A single digit stands for a control character.
      have hrest : (takeHex 5 value cs).2 = cs := by
        refine (takeHex_suffix 5 value cs).eq_of_length_le ?_
        have hle := (dropBlank_suffix (takeHex 5 value cs).2).length_le
        rw [List.nil_append] at htaken
        rwa [htaken] at hle
      rw [takeHex_of_nothing hrest]
      exact .of_escape (charOf_ne_backslash (lt_of_hexValue? hc)) c
    · exact .of_length (by simp)

theorem tells_scanNameWith (h : Firm cs) (fuel : Nat) :
    ∃ source, cs = source ++ (scanNameWith fuel cs).2 ∧ Tells source (scanNameWith fuel cs).1 ∧
      ((scanNameWith fuel cs).1 = source → ∀ c ∈ source, isNameChar c = true) := by
  induction fuel generalizing cs with
  | zero => exact ⟨[], rfl, .verbatim [], by simp⟩
  | succ fuel ih =>
    rcases cs with _ | ⟨c, cs⟩
    · exact ⟨[], rfl, .verbatim [], by simp⟩
    rw [scanNameWith_cons]
    split
    · rename_i hc
      subst hc
      split
      · exact ⟨[], rfl, .verbatim [], by simp⟩
      · obtain ⟨escape, hescape, hne, htells⟩ := tells_scanEscape h.tail h.ne_nil
        have hfirm : Firm (scanEscape cs).2 := h.tail.suffix (scanEscape_suffix cs)
        obtain ⟨source, hsource, htells', -⟩ := ih hfirm
        refine ⟨'\\' :: escape ++ source, ?_, htells.append htells', fun heq => ?_⟩
        · rw [List.append_assoc, ← hsource, List.cons_append, ← hescape]
        · have hle := htells'.length_le
          have hpos := List.length_pos_iff.mpr hne
          have hlength := congrArg List.length heq
          simp only [List.length_cons, List.length_append] at hlength
          omega
    split
    · rename_i hname
      obtain ⟨source, hsource, htells, hchars⟩ := ih h.tail
      have hnul : (c == '\x00') = false := beq_false_of_ne h.ne_nul
      refine ⟨c :: source, by rw [List.cons_append, ← hsource], ?_, fun heq => ?_⟩
      · rw [hnul, if_neg Bool.false_ne_true]
        exact (Tells.verbatim [c]).append htells
      · exact List.forall_mem_cons.mpr ⟨hname, hchars (List.cons.inj heq).2⟩
    · exact ⟨[], rfl, .verbatim [], by simp⟩

theorem dropNewline_suffix_tail (hd : isNewline d = true) (cs : List Char) :
    dropNewline (d :: cs) <:+ cs := by
  rcases isNewline_cases hd with rfl | rfl | rfl
  · exact List.suffix_rfl
  · unfold dropNewline
    split
    · rename_i heq
      exact (List.cons.inj heq).2 ▸ List.suffix_cons _ _
    · rename_i heq
      exact (List.cons.inj heq).2 ▸ List.suffix_rfl
    · rename_i heq
      cases (List.cons.inj heq).1
    · rename_i heq
      cases (List.cons.inj heq).1
    · rename_i hreturn _ _
      exact absurd rfl (hreturn cs)
  · exact List.suffix_rfl

theorem tells_scanQuotedWith (hq : q.toLower ≠ ')') (h : Firm cs) (fuel : Nat) :
    ∃ source, cs = source ++ (scanQuotedWith q fuel cs).2.2 ∧
      Tells source (scanQuotedWith q fuel cs).1 := by
  induction fuel generalizing cs with
  | zero => exact ⟨[], rfl, .verbatim []⟩
  | succ fuel ih =>
    rcases cs with _ | ⟨c, cs⟩
    · exact ⟨[], rfl, .verbatim []⟩
    rw [scanQuotedWith_cons]
    split
    · rename_i hc
      exact ⟨[c], rfl, .dropped (hc ▸ hq)⟩
    split
    · exact ⟨[], rfl, .verbatim []⟩
    split
    · rename_i hc
      subst hc
      obtain ⟨d, cs, rfl⟩ := List.exists_cons_of_ne_nil h.ne_nil
      simp only
      split
      · rename_i hd
        obtain ⟨line, hline⟩ := dropNewline_suffix_tail hd cs
        obtain ⟨source, hsource, htells⟩ := ih (h.tail.suffix (dropNewline_suffix (d :: cs)))
        have hlost : Tells ('\\' :: d :: line) [] := .of_length (by simp)
        refine ⟨'\\' :: d :: line ++ source, ?_, hlost.append htells⟩
        rw [List.append_assoc, ← hsource, List.cons_append, List.cons_append, hline]
      · obtain ⟨escape, hescape, -, htells⟩ := tells_scanEscape h.tail (List.cons_ne_nil d cs)
        obtain ⟨source, hsource, htells'⟩ := ih (h.tail.suffix (scanEscape_suffix (d :: cs)))
        refine ⟨'\\' :: escape ++ source, ?_, htells.append htells'⟩
        rw [List.append_assoc, ← hsource, List.cons_append, ← hescape]
    · obtain ⟨source, hsource, htells⟩ := ih h.tail
      have hnul : (c == '\x00') = false := beq_false_of_ne h.ne_nul
      refine ⟨c :: source, by rw [List.cons_append, ← hsource], ?_⟩
      rw [hnul, if_neg Bool.false_ne_true]
      exact (Tells.verbatim [c]).append htells

theorem Tells.blanks (h : ∀ c ∈ source, isSpace c = true) : Tells source [] := by
  induction source with
  | nil => exact .verbatim []
  | cons c source ih =>
    obtain ⟨hc, hsource⟩ := List.forall_mem_cons.mp h
    have hlower : c.toLower ≠ ')' := by
      rcases eq_of_isSpace hc with rfl | rfl | rfl | rfl | rfl
      all_goals decide
    exact (Tells.dropped hlower).append (ih hsource)

/-! ### Tokens -/

/-- What a token says, if it is of a kind that may stand in a word. -/
def Token.said? : Token → Option (List Char)
  | .ident text | .quoted text => some text.toList
  | .delim '*' => some ['*']
  | .whitespace _ | .comment _ => some []
  | _ => none

theorem said?_of_isBracket (h : t.isBracket = true) : t.said? = none := by
  cases t
  case function | openParen | openSquare | openCurly | closeParen | closeSquare | closeCurly => rfl
  all_goals cases h

theorem nul_notMem_said (h : t.Sound) (hsaid : t.said? = some said) : '\x00' ∉ said := by
  unfold Token.said? at hsaid
  split at hsaid
  · obtain rfl := Option.some.inj hsaid
    exact h.2
  · obtain rfl := Option.some.inj hsaid
    exact h
  · obtain rfl := Option.some.inj hsaid
    decide
  · obtain rfl := Option.some.inj hsaid
    exact List.not_mem_nil
  · obtain rfl := Option.some.inj hsaid
    exact List.not_mem_nil
  · cases hsaid

/-- The token may stand in a list of words, or end it. -/
def Token.isListed (t : Token) : Bool :=
  t.said?.isSome || t == .comma || t == .closeParen

/-- How such a token begins with `c`, where `cs` follows: the token and what is left. -/
inductive Speaks (c : Char) (cs : List Char) : Token × List Char → Prop
  | blank (h : isSpace c = true) :
    Speaks c cs (.whitespace (String.ofList (c :: cs.takeWhile isSpace)), cs.dropWhile isSpace)
  | quoted {value rest : List Char} (h : c = '"' ∨ c = '\'')
      (hscan : scanQuotedWith c (cs.length + 1) cs = (value, true, rest)) :
    Speaks c cs (.quoted (String.ofList value), rest)
  | star (h : c = '*') : Speaks c cs (.delim '*', cs)
  | comment {tail : List Char} (h : c = '/') (hcs : cs = '*' :: tail) :
    Speaks c cs (.comment (String.ofList (scanComment tail).1), (scanComment tail).2)
  | ident (h : startsIdent (c :: cs) = true) (hparen : (scanName (c :: cs)).2.head? ≠ some '(') :
    Speaks c cs (.ident (scanName (c :: cs)).1, (scanName (c :: cs)).2)
  | comma (h : c = ',') : Speaks c cs (.comma, cs)
  | close (h : c = ')') : Speaks c cs (.closeParen, cs)

theorem speaks_scanQuoted (hq : q = '"' ∨ q = '\'') (h : (scanQuoted q cs).1.isListed = true) :
    Speaks q cs (scanQuoted q cs) := by
  rw [scanQuoted] at h ⊢
  rcases hscan : scanQuotedWith q (cs.length + 1) cs with ⟨value, _ | _, rest⟩
  · rw [hscan] at h
    cases h
  · exact .quoted hq hscan

/-- No URL is listed. -/
theorem isListed_scanUrl (h : scanUrl cs = some (t, rest)) : t.isListed = false := by
  rw [scanUrl] at h
  split at h
  · obtain ⟨rfl, -⟩ := Prod.mk.inj (Option.some.inj h)
    rfl
  · split at h
    · cases h
    · split at h
      · obtain ⟨rfl, -⟩ := Prod.mk.inj (Option.some.inj h)
        rfl
      · obtain ⟨rfl, -⟩ := Prod.mk.inj (Option.some.inj h)
        rfl

theorem speaks_scanIdentLike (hstart : startsIdent (c :: cs) = true)
    (h : (scanIdentLike (c :: cs)).1.isListed = true) :
    Speaks c cs (scanIdentLike (c :: cs)) := by
  rw [scanIdentLike_eq] at h ⊢
  by_cases hparen : (scanName (c :: cs)).2.head? = some '('
  · obtain ⟨tail, htail⟩ := List.head?_eq_some_iff.mp hparen
    rw [htail, scanFunction] at h
    split at h
    · rcases hurl : scanUrl tail with _ | ⟨t, rest⟩
      · rw [hurl] at h
        cases h
      · rw [hurl, Option.getD_some, isListed_scanUrl hurl] at h
        cases h
    · cases h
  · rw [scanFunction_of_ne hparen]
    exact .ident hstart hparen

theorem isListed_scanNumeric (cs : List Char) : (scanNumeric cs).1.isListed = false := by
  rw [scanNumeric_eq, scanUnit.eq_def]
  split
  · rfl
  · split
    · rfl
    · rfl

theorem isListed_scanHash (cs : List Char) : (scanHash cs).1.isListed = false := by
  rw [scanHash.eq_def]
  split
  · rfl
  split
  · split
    · rfl
    · rfl
  · rfl

theorem isListed_delim (h : c ≠ '*') : (Token.delim c).isListed = false := by
  rw [Token.isListed, Token.said?.eq_def]
  simp [h]

theorem isListed_scanMatch (ht : t.isListed = false) (hc : (Token.delim c).isListed = false)
    (cs : List Char) : (scanMatch c t cs).1.isListed = false := by
  rw [scanMatch.eq_def]
  split
  · exact ht
  · exact hc

theorem speaks_scanFrom (h : (scanFrom c cs).1.isListed = true) : Speaks c cs (scanFrom c cs) := by
  have hnone : ∀ {r : Token × List Char}, r.1.isListed = false → r.1.isListed = true →
      Speaks c cs r := fun hr h => absurd (hr.symm.trans h) Bool.false_ne_true
  revert h
  unfold scanFrom
  split
  · intro _
    rw [List.span_eq_takeWhile_dropWhile]
    exact .blank ‹_›
  split
  · exact hnone (isListed_scanNumeric _)
  split
  case h_1 => exact speaks_scanQuoted (.inl rfl)
  case h_2 => exact speaks_scanQuoted (.inr rfl)
  case h_3 => exact hnone (isListed_scanHash cs)
  case h_4 | h_6 | h_7 | h_8 => exact hnone (isListed_scanMatch rfl rfl cs)
  case h_5 =>
    rw [scanMatch.eq_def]
    split
    · exact hnone rfl
    · exact fun _ => .star rfl
  case h_10 => exact fun _ => .close rfl
  case h_15 => exact fun _ => .comma rfl
  case h_18 =>
    split
    · exact hnone rfl
    split
    · exact speaks_scanIdentLike ‹_›
    · exact hnone rfl
  case h_19 =>
    split
    · exact fun _ => .comment rfl rfl
    · exact hnone rfl
  case h_20 | h_21 =>
    split
    · exact hnone rfl
    · exact hnone rfl
  case h_22 =>
    split
    · exact speaks_scanIdentLike ‹_›
    · exact hnone (isListed_delim ‹_›)
  all_goals exact hnone rfl

theorem speaks_of_scan? (hscan : Token.scan? (c :: cs) = some (t, rest))
    (h : t.isListed = true) : Speaks c cs (t, rest) := by
  have hfrom : scanFrom c cs = (t, rest) := Option.some.inj hscan
  rw [← hfrom]
  exact speaks_scanFrom (by rwa [hfrom])

/-- What follows a name does not go on with it. -/
theorem scanNameWith_rest (hf : cs.length ≤ fuel) (h : (scanNameWith fuel cs).2 = c :: rest) :
    isNameChar c = false ∧ (c = '\\' → startsLine rest = true) := by
  induction fuel generalizing cs with
  | zero =>
    obtain rfl := List.length_eq_zero_iff.mp (Nat.le_zero.mp hf)
    cases h
  | succ fuel ih =>
    rcases cs with _ | ⟨d, cs⟩
    · cases h
    have hlength := Nat.le_of_succ_le_succ hf
    rw [scanNameWith_cons] at h
    split at h
    · split at h
      · obtain ⟨rfl, rfl⟩ := List.cons.inj h
        rename_i hd hline
        subst hd
        exact ⟨by decide, fun _ => hline⟩
      · exact ih ((scanEscape_suffix cs).length_le.trans hlength) h
    · rename_i hd
      split at h
      · exact ih hlength h
      · obtain ⟨rfl, rfl⟩ := List.cons.inj h
        exact ⟨Bool.eq_false_iff.mpr ‹_›, fun hc => absurd hc hd⟩

theorem serializeName_eq_self (h : ∀ c ∈ source, isNameChar c = true ∧ c ≠ '\x00') :
    serializeName source = source := by
  have hchar : ∀ c ∈ source, nameChar c = [c] := fun c hc => by
    rw [nameChar, if_neg (by simpa using (h c hc).2), if_pos (h c hc).1]
  rw [serializeName, List.flatMap_congr hchar, List.flatMap_singleton']

theorem serializeStart_eq_self (hstart : isNameStart c = true)
    (h : ∀ d ∈ c :: source, isNameChar d = true ∧ d ≠ '\x00') :
    serializeStart (c :: source) = c :: source := by
  rw [serializeStart, isDigit_of_isNameStart hstart, if_neg Bool.false_ne_true]
  exact serializeName_eq_self h

/-- Tokens that say just what is written, in front of `rest`: a star, a whole identifier, or a
hyphen before a backslash that escapes nothing. -/
inductive Bare (t : Token) (source rest : List Char) : Prop
  | star (h : source = ['*']) (ht : t = .delim '*')
  | ident (h : identifierChars source = source) (hne : source ≠ [])
      (hchars : ∀ c ∈ source, isNameChar c = true) (hrest : ∀ c ∈ rest.head?, isNameChar c = false)
  | hyphen (h : source = ['-']) {tail : List Char} (hrest : rest = '\\' :: tail)
      (hline : startsLine tail = true)

theorem identifierChars_of_ne (h : c ≠ '-') (cs : List Char) :
    identifierChars (c :: cs) = serializeStart (c :: cs) := by
  unfold identifierChars
  split
  · exact absurd (List.cons.inj ‹_›).1 h
  · exact absurd (List.cons.inj ‹_›).1 h
  · exact absurd (List.cons.inj ‹_›).1 h
  · rfl

theorem identifierChars_hyphen (h : d ≠ '-') (cs : List Char) :
    identifierChars ('-' :: d :: cs) = '-' :: serializeStart (d :: cs) := by
  unfold identifierChars
  split
  · rename_i heq
    exact absurd (List.cons.inj (List.cons.inj heq).2).1 h
  · rename_i heq
    cases (List.cons.inj heq).2
  · rename_i heq
    rw [(List.cons.inj heq).2]
  · rename_i hhyphen
    exact absurd rfl (hhyphen (d :: cs))

theorem bare_of_isNameChar (h : startsIdent (c :: (source ++ rest)) = true)
    (hchars : ∀ d ∈ c :: source, isNameChar d = true ∧ d ≠ '\x00')
    (hrest : ∀ d tail, rest = d :: tail →
      isNameChar d = false ∧ (d = '\\' → startsLine tail = true)) : Bare t (c :: source) rest := by
  have hident : identifierChars (c :: source) = c :: source → Bare t (c :: source) rest := fun h =>
    .ident h (List.cons_ne_nil _ _) (fun d hd => (hchars d hd).1) fun d hd => by
      obtain ⟨tail, htail⟩ := List.head?_eq_some_iff.mp hd
      exact (hrest d tail htail).1
  have hback : ∀ d ∈ c :: source, d ≠ '\\' := by
    rintro _ hd rfl
    cases (hchars _ hd).1
  by_cases hhyphen : c = '-'
  · subst hhyphen
    rcases source with _ | ⟨d, source⟩
    · rcases rest with _ | ⟨d, rest⟩
      · cases h
      obtain ⟨hd, hline⟩ := hrest d rest rfl
      have hname : isNameStart d = false ∧ d ≠ '-' := by
        simp only [isNameChar, Bool.or_eq_false_iff, beq_eq_false_iff_ne, ne_eq] at hd
        exact ⟨hd.1.1, hd.2⟩
      have hbackslash : d = '\\' := by simpa [startsIdent, hname.1, hname.2] using h
      exact .hyphen rfl (by rw [hbackslash]) (hline hbackslash)
    · have htail := (List.forall_mem_cons.mp hchars).2
      refine hident ?_
      by_cases hd : d = '-'
      · subst hd
        rw [identifierChars, serializeName_eq_self (List.forall_mem_cons.mp htail).2]
      · have hne := hback d (List.mem_cons_of_mem _ List.mem_cons_self)
        have hstart : isNameStart d = true := by simpa [startsIdent, hd, hne] using h
        rw [identifierChars_hyphen hd, serializeStart_eq_self hstart htail]
  · rw [startsIdent_of_ne hhyphen (hback c List.mem_cons_self)] at h
    refine hident ?_
    rw [identifierChars_of_ne hhyphen, serializeStart_eq_self h hchars]

/-- A name says no more than is written, and one that says just that is bare. -/
theorem tells_scanName (h : Firm (c :: cs)) (hstart : startsIdent (c :: cs) = true) :
    ∃ source, c :: cs = source ++ (scanName (c :: cs)).2 ∧
      Tells source (scanName (c :: cs)).1.toList ∧
      ((scanName (c :: cs)).1.toList = source → Bare t source (scanName (c :: cs)).2) := by
  obtain ⟨source, hsource, htells, hchars⟩ := tells_scanNameWith h (c :: cs).length
  have htail := scanName_of_startsIdent hstart
  rw [scanName, String.toList_ofList]
  refine ⟨source, hsource, htells, fun heq => ?_⟩
  change (scanNameWith (c :: cs).length (c :: cs)).2 <:+ cs at htail
  change Bare _ source (scanNameWith (c :: cs).length (c :: cs)).2
  have hends : ∀ d tail, (scanNameWith (c :: cs).length (c :: cs)).2 = d :: tail →
      isNameChar d = false ∧ (d = '\\' → startsLine tail = true) := fun d tail htail =>
    scanNameWith_rest (Nat.le_refl _) htail
  have hnul : '\x00' ∉ source := fun hmem => h.nul (by
    rw [hsource]
    exact List.mem_append_left _ hmem)
  have hplain : ∀ d ∈ source, isNameChar d = true ∧ d ≠ '\x00' := fun d hd =>
    ⟨hchars heq d hd, fun heq => hnul (heq ▸ hd)⟩
  generalize (scanNameWith (c :: cs).length (c :: cs)).2 = rest at hsource htail hends
  rcases source with _ | ⟨d, source⟩
  · have hle := htail.length_le
    rw [List.nil_append] at hsource
    rw [← hsource] at hle
    exact absurd hle (Nat.not_succ_le_self _)
  · obtain ⟨rfl, rfl⟩ := List.cons.inj hsource
    exact bare_of_isNameChar hstart hplain hends

/-- A string says less than is written, as its quotes are lost. -/
theorem tells_quoted (hq : q = '"' ∨ q = '\'') (h : Firm (q :: cs)) (fuel : Nat) :
    ∃ source, q :: cs = source ++ (scanQuotedWith q fuel cs).2.2 ∧
      Tells source (scanQuotedWith q fuel cs).1 ∧ (scanQuotedWith q fuel cs).1 ≠ source := by
  have hlower : q.toLower ≠ ')' := by
    rcases hq with rfl | rfl
    all_goals decide
  obtain ⟨source, hsource, htells⟩ := tells_scanQuotedWith hlower h.tail fuel
  refine ⟨q :: source, by rw [List.cons_append, ← hsource],
    (Tells.dropped hlower).append htells, fun heq => ?_⟩
  have hle := htells.length_le
  rw [heq] at hle
  exact absurd hle (Nat.not_succ_le_self _)

/-- A token that says something says no more than is written, and what says just that is bare. -/
theorem tells_of_scan? (h : Firm cs) (hscan : Token.scan? cs = some (t, rest))
    (hsaid : t.said? = some said) :
    ∃ source, cs = source ++ rest ∧ Tells source said ∧ (said = source → Bare t source rest) := by
  rcases cs with _ | ⟨c, cs⟩
  · cases hscan
  have hspeaks : Speaks c cs (t, rest) :=
    speaks_of_scan? hscan (by rw [Token.isListed, hsaid]; rfl)
  cases hspeaks with
  | blank hblank =>
    obtain rfl := Option.some.inj hsaid
    have hspaces : ∀ d ∈ c :: cs.takeWhile isSpace, isSpace d = true :=
      List.forall_mem_cons.mpr ⟨hblank, fun d hd => List.mem_takeWhile_imp hd⟩
    refine ⟨c :: cs.takeWhile isSpace, ?_, .blanks hspaces, nofun⟩
    rw [List.cons_append, List.takeWhile_append_dropWhile]
  | quoted hq hscan =>
    obtain rfl := Option.some.inj hsaid
    obtain ⟨source, hsource, htells, hne⟩ := tells_quoted hq h (cs.length + 1)
    rw [hscan] at hsource htells hne
    rw [String.toList_ofList]
    exact ⟨source, hsource, htells, fun heq => absurd heq hne⟩
  | star hc =>
    obtain rfl := Option.some.inj hsaid
    exact ⟨['*'], by rw [hc]; rfl, .verbatim ['*'], fun _ => .star rfl rfl⟩
  | comment hc hcs =>
    obtain rfl := Option.some.inj hsaid
    rename_i tail
    obtain ⟨text, htext⟩ := scanComment_suffix tail
    refine ⟨c :: '*' :: text, ?_, .of_length (by simp), nofun⟩
    rw [hcs, List.cons_append, List.cons_append, htext]
  | ident hstart =>
    obtain rfl := Option.some.inj hsaid
    exact tells_scanName h hstart
  | comma => cases hsaid
  | close => cases hsaid

/-- Commas and closing parentheses are single characters. -/
theorem eq_of_scan?_comma (hscan : Token.scan? cs = some (.comma, rest)) : cs = ',' :: rest := by
  rcases cs with _ | ⟨c, cs⟩
  · cases hscan
  have hspeaks : Speaks c cs (.comma, rest) := speaks_of_scan? hscan rfl
  cases hspeaks with
  | comma hc => rw [hc]

theorem eq_of_scan?_close (hscan : Token.scan? cs = some (.closeParen, rest)) : cs = ')' :: rest := by
  rcases cs with _ | ⟨c, cs⟩
  · cases hscan
  have hspeaks : Speaks c cs (.closeParen, rest) := speaks_of_scan? hscan rfl
  cases hspeaks with
  | close hc => rw [hc]

/-- What is written as the rest of a name is read as a name, if it is listed at all. -/
theorem scan?_of_writes {text name : List Char} (h : Writes text name) (hne : text ≠ [])
    (hc : ∀ c ∈ text.head?, c = '\\' ∨ isNameChar c = true) {after : List Char}
    (hafter : EndsName after) (hscan : Token.scan? (text ++ after) = some (t, rest))
    (ht : t.isListed = true) : t = .ident (String.ofList name) ∧ rest = after := by
  obtain ⟨c, text, rfl⟩ := List.exists_cons_of_ne_nil hne
  have hlength : name.length ≤ (c :: text ++ after).length := by
    have := h.length_le
    rw [List.length_append]
    omega
  have hname : scanName (c :: text ++ after) = (String.ofList name, after) := by
    rw [scanName, h.scan hafter hlength]
  have hno : ∀ {d}, isNameChar d = false → d ≠ '\\' → c ≠ d := by
    rintro _ hd hback rfl
    rcases hc c rfl with rfl | hname
    · exact hback rfl
    · exact Bool.false_ne_true (hd.symm.trans hname)
  have hspeaks : Speaks c (text ++ after) (t, rest) := speaks_of_scan? hscan ht
  cases hspeaks with
  | blank hblank =>
    rcases eq_of_isSpace hblank with rfl | rfl | rfl | rfl | rfl
    all_goals exact absurd rfl (hno (by decide) (by decide))
  | quoted hq =>
    rcases hq with rfl | rfl
    all_goals exact absurd rfl (hno (by decide) (by decide))
  | star hstar => exact absurd hstar (hno (by decide) (by decide))
  | comment hslash => exact absurd hslash (hno (by decide) (by decide))
  | ident =>
    rw [List.cons_append] at hname
    rw [hname]
    exact ⟨rfl, rfl⟩
  | comma hcomma => exact absurd hcomma (hno (by decide) (by decide))
  | close hclose => exact absurd hclose (hno (by decide) (by decide))

end DomQuery.Css
