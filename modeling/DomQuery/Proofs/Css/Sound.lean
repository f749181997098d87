import DomQuery.Css.Step
import DomQuery.Proofs.Css.Spells
import DomQuery.Proofs.Outcome

/-!
# What tokens hold

No token has a NUL character in its name or value, no identifier is empty, and
integers stay within 32 bits. The same goes for the tokens in the values of a text.

* `sound_scanFrom`: the token at the head of a text.
* `sound_values`: the values of a text.
* `readStep_inRange`: what `an+b` stands for.
-/

namespace DomQuery.Css

open DomQuery.Text

variable {c : Char} {cs : List Char}

/-- A name that a token may have. -/
def IsName (name : String) : Prop :=
  name ≠ "" ∧ '\x00' ∉ name.toList

/-- An integer of 32 bits. -/
def InRange (i : Int) : Prop :=
  -2147483648 ≤ i ∧ i ≤ 2147483647

def Token.Sound : Token → Prop
  | .ident name | .idHash name | .function name => IsName name
  | .quoted value => '\x00' ∉ value.toList
  | _ => True

/-! ### Names and strings -/

theorem toLower_cases (c : Char) : c.toLower = c ∨ 97 ≤ c.toLower.toNat ∧ c.toLower.toNat ≤ 122 := by
  have hA : 'A'.val.toNat = 65 := rfl
  have hZ : 'Z'.val.toNat = 90 := rfl
  have hshift : ('a'.val - 'A'.val).toNat = 32 := rfl
  unfold Char.toLower
  split
  · rename_i h
    right
    simp only [ge_iff_le, UInt32.le_iff_toNat_le, hA, hZ] at h
    simp only [Char.toNat, UInt32.toNat_add, hshift]
    omega
  · exact .inl rfl

theorem toLower_toLower (c : Char) : c.toLower.toLower = c.toLower := by
  rcases toLower_cases c with h | h
  · rw [h, h]
  · generalize c.toLower = d at h
    have hZ : 'Z'.val.toNat = 90 := rfl
    refine dif_neg fun hd => ?_
    have hle := UInt32.le_iff_toNat_le.mp hd.2
    rw [hZ] at hle
    exact absurd hle (by simp only [Char.toNat] at h; omega)

theorem toNat_ofNat {n : Nat} (h : n.isValidChar) : (Char.ofNat n).toNat = n := by
  rw [Char.ofNat, dif_pos h]
  simp [Char.ofNatAux, Char.toNat]

theorem charOf_ne_nul (n : Nat) : charOf n ≠ '\x00' := by
  unfold charOf
  split
  · rename_i h
    obtain ⟨hne, hvalid⟩ : n ≠ 0 ∧ n.isValidChar := by simpa using h
    intro heq
    have hn := congrArg Char.toNat heq
    rw [toNat_ofNat hvalid] at hn
    exact hne hn
  · decide

theorem scanEscape_ne_nul (cs : List Char) : (scanEscape cs).1 ≠ '\x00' := by
  rcases cs with _ | ⟨c, cs⟩
  · decide
  · rcases h : hexValue? c with _ | value
    · rw [scanEscape_other h]
      simp only
      split
      · decide
      · assumption
    · rw [scanEscape_hex h]
      exact charOf_ne_nul _

theorem nul_notMem_scanNameWith (fuel : Nat) (cs : List Char) :
    '\x00' ∉ (scanNameWith fuel cs).1 := by
  induction fuel generalizing cs with
  | zero => exact List.not_mem_nil
  | succ fuel ih =>
    rcases cs with _ | ⟨c, cs⟩
    · exact List.not_mem_nil
    rw [scanNameWith_cons]
    split
    · split
      · exact List.not_mem_nil
      · exact List.not_mem_cons_of_ne_of_not_mem (scanEscape_ne_nul cs).symm (ih _)
    split
    · refine List.not_mem_cons_of_ne_of_not_mem ?_ (ih _)
      split
      · decide
      · rename_i hc
        exact fun h => hc (beq_iff_eq.mpr h.symm)
    · exact List.not_mem_nil

theorem nul_notMem_scanQuotedWith (q : Char) (fuel : Nat) (cs : List Char) :
    '\x00' ∉ (scanQuotedWith q fuel cs).1 := by
  induction fuel generalizing cs with
  | zero => exact List.not_mem_nil
  | succ fuel ih =>
    rcases cs with _ | ⟨c, cs⟩
    · exact List.not_mem_nil
    rw [scanQuotedWith_cons]
    split
    · exact List.not_mem_nil
    split
    · exact List.not_mem_nil
    split
    · split
      · exact List.not_mem_nil
      · split
        · exact ih _
        · exact List.not_mem_cons_of_ne_of_not_mem (scanEscape_ne_nul _).symm (ih _)
    · refine List.not_mem_cons_of_ne_of_not_mem ?_ (ih _)
      split
      · decide
      · rename_i hc
        exact fun h => hc (beq_iff_eq.mpr h.symm)

theorem isName_scanName (h : startsIdent (c :: cs) = true) : IsName (scanName (c :: cs)).1 := by
  have hnul := nul_notMem_scanNameWith (c :: cs).length (c :: cs)
  refine ⟨?_, by rw [scanName, String.toList_ofList]; exact hnul⟩
  change String.ofList (scanNameWith (cs.length + 1) (c :: cs)).1 ≠ ""
  rw [scanNameWith_cons]
  rcases startsIdent_cons h with ⟨rfl, hl⟩ | ⟨hc, hn⟩
  · simp [hl]
  · simp [hc, hn]

/-! ### Tokens -/

theorem sound_scanQuoted (q : Char) (cs : List Char) : (scanQuoted q cs).1.Sound := by
  have hnul := nul_notMem_scanQuotedWith q (cs.length + 1) cs
  rw [scanQuoted]
  generalize scanQuotedWith q (cs.length + 1) cs = read at hnul
  obtain ⟨value, _ | _, rest⟩ := read
  · trivial
  · change '\x00' ∉ (String.ofList value).toList
    rwa [String.toList_ofList]

theorem sound_scanUrl {t : Token} {rest : List Char} (h : scanUrl cs = some (t, rest)) : t.Sound := by
  rw [scanUrl] at h
  split at h
  · obtain ⟨rfl, -⟩ := Prod.mk.inj (Option.some.inj h)
    trivial
  · split at h
    · cases h
    · split at h
      · obtain ⟨rfl, -⟩ := Prod.mk.inj (Option.some.inj h)
        trivial
      · obtain ⟨rfl, -⟩ := Prod.mk.inj (Option.some.inj h)
        trivial

theorem sound_scanIdentLike (h : startsIdent (c :: cs) = true) :
    (scanIdentLike (c :: cs)).1.Sound := by
  have hname := isName_scanName h
  rw [scanIdentLike_eq]
  generalize scanName (c :: cs) = read at hname
  obtain ⟨name, rest⟩ := read
  unfold scanFunction
  split
  · rename_i inner _
    split
    · rcases hurl : scanUrl inner with _ | ⟨t, after⟩
      · exact hname
      · exact sound_scanUrl hurl
    · exact hname
  · exact hname

theorem sound_scanHash (cs : List Char) : (scanHash cs).1.Sound := by
  rw [scanHash.eq_def]
  split
  · rename_i h
    rcases cs with _ | ⟨c, cs⟩
    · cases h
    · exact isName_scanName h
  · rcases cs with _ | ⟨c, cs⟩
    · trivial
    · simp only
      split
      · trivial
      · trivial

theorem sound_scanMatch (c : Char) {t : Token} (ht : t.Sound) (cs : List Char) :
    (scanMatch c t cs).1.Sound := by
  unfold scanMatch
  split
  · exact ht
  · trivial

theorem sound_scanNumeric (cs : List Char) : (scanNumeric cs).1.Sound := by
  rw [scanNumeric_eq]
  by_cases h : (scanNumeral cs).2.head? = some '%'
  · obtain ⟨rest, hrest⟩ := List.head?_eq_some_iff.mp h
    rw [hrest]
    trivial
  · rw [scanUnit_of_ne h]
    split
    · trivial
    · trivial

/-- The token at the head of a text. -/
theorem sound_scanFrom (c : Char) (cs : List Char) : (scanFrom c cs).1.Sound := by
  unfold scanFrom
  split
  · trivial
  split
  · exact sound_scanNumeric (c :: cs)
  split
  case h_1 | h_2 => exact sound_scanQuoted _ cs
  case h_3 => exact sound_scanHash cs
  case h_4 | h_5 | h_6 | h_7 | h_8 =>
    refine sound_scanMatch _ ?_ cs
    trivial
  case h_18 =>
    split
    · trivial
    split
    · exact sound_scanIdentLike ‹_›
    · trivial
  case h_19 | h_20 =>
    split
    · trivial
    · trivial
  case h_21 =>
    split
    · trivial
    · trivial
  case h_22 =>
    split
    · exact sound_scanIdentLike ‹_›
    · trivial
  all_goals trivial

theorem sound_lex (cs : List Char) : ∀ l ∈ lex cs, l.token.Sound := by
  induction hn : cs.length using Nat.strongRecOn generalizing cs with
  | ind n ih =>
    rcases cs with _ | ⟨c, cs⟩
    · exact fun l hl => absurd hl List.not_mem_nil
    obtain ⟨source, -, hlex⟩ := exists_lex_cons c cs
    have hlt : (scanFrom c cs).2.length < n := by
      have := (scanFrom_suffix c cs).length_le
      rw [List.length_cons] at hn
      omega
    rw [hlex]
    exact List.forall_mem_cons.mpr ⟨sound_scanFrom c cs, ih _ hlt _ rfl⟩

/-! ### Values -/

/-- The tokens in the value are sound, at any depth. -/
inductive Value.Sound : Value → Prop
  | token {t : Token} (h : t.Sound) : Sound (.token t)
  | block {opener : Token} {contents : List Value} {source : List Char} (ho : opener.Sound)
      (hc : ∀ v ∈ contents, Sound v) : Sound (.block opener contents source)

namespace Nesting

/-- All that was read is sound. -/
structure Sound (n : Nesting) : Prop where
  values : ∀ v ∈ n.values, v.Sound
  frames : ∀ f ∈ n.frames, f.opener.Sound ∧ ∀ v ∈ f.contents, v.Sound

variable {n : Nesting}

theorem Sound.push (h : n.Sound) {v : Option Value} (hv : ∀ w ∈ v, w.Sound) (text : List Char) :
    (n.push v text).Sound := by
  obtain ⟨values, _ | ⟨f, fs⟩⟩ := n
  · refine ⟨fun w hw => ?_, h.frames⟩
    rcases List.mem_append.mp hw with hw | hw
    · exact hv w (Option.mem_toList.mp hw)
    · exact h.values w hw
  · obtain ⟨hf, hfs⟩ := List.forall_mem_cons.mp h.frames
    refine ⟨h.values, List.forall_mem_cons.mpr ⟨⟨hf.1, fun w hw => ?_⟩, hfs⟩⟩
    rcases List.mem_append.mp hw with hw | hw
    · exact hv w (Option.mem_toList.mp hw)
    · exact hf.2 w hw

theorem Sound.pop (h : n.Sound) (trail : List Char) : (n.pop trail).Sound := by
  obtain ⟨values, _ | ⟨f, fs⟩⟩ := n
  · exact h
  · obtain ⟨hf, hfs⟩ := List.forall_mem_cons.mp h.frames
    have houter : Sound ⟨values, fs⟩ := ⟨h.values, hfs⟩
    refine houter.push (fun w hw => ?_) _
    obtain rfl := Option.some.inj hw
    exact .block hf.1 fun v hv => hf.2 v (List.mem_reverse.mp hv)

theorem Sound.read (h : n.Sound) {l : Lexeme} (hl : l.token.Sound) : (n.read l).Sound := by
  unfold Nesting.read
  split
  · exact h.push (fun w hw => by cases hw) _
  · split
    · exact h.pop _
    · split
      · exact ⟨h.values, List.forall_mem_cons.mpr ⟨⟨hl, fun v hv => by cases hv⟩, h.frames⟩⟩
      · refine h.push (fun w hw => ?_) _
        obtain rfl := Option.some.inj hw
        exact .token hl

end Nesting

/-- The values of a text. -/
theorem sound_values (text : String) : ∀ v ∈ values text, v.Sound := by
  have hread : ∀ (ls : List Lexeme) (n : Nesting), n.Sound → (∀ l ∈ ls, l.token.Sound) →
      (ls.foldl Nesting.read n).Sound := by
    intro ls
    induction ls with
    | nil => exact fun n hn _ => hn
    | cons l ls ih =>
      intro n hn hls
      obtain ⟨hl, hls⟩ := List.forall_mem_cons.mp hls
      exact ih _ (hn.read hl) hls
  have hpop : ∀ (frames : List Frame) (n : Nesting), n.Sound →
      (frames.foldl (fun m _ => m.pop []) n).Sound := by
    intro frames
    induction frames with
    | nil => exact fun n hn => hn
    | cons f frames ih => exact fun n hn => ih _ (hn.pop [])
  have hempty : Nesting.Sound .empty :=
    ⟨fun v hv => absurd hv List.not_mem_nil, fun f hf => absurd hf List.not_mem_nil⟩
  intro v hv
  exact (hpop _ _ (hread _ _ hempty (sound_lex text.toList))).values v (List.mem_reverse.mp hv)

/-! ### Integers -/

theorem saturate_inRange (i : Int) : InRange (Numeral.saturate i) := by
  unfold InRange Numeral.saturate
  omega

theorem int?_inRange {value : Numeral} {i : Int} (h : value.int? = some i) : InRange i := by
  unfold Numeral.int? at h
  split at h
  · obtain rfl := Option.some.inj h
    exact saturate_inRange _
  · cases h

/-- Without a sign, no integer is below zero. -/
theorem int?_nonneg {value : Numeral} {i : Int} (h : value.int? = some i)
    (hsign : value.sign = none) : 0 ≤ i := by
  have hnegative : value.isNegative = false := by
    rw [Numeral.isNegative, hsign]
    rfl
  unfold Numeral.int? at h
  split at h
  · obtain rfl := Option.some.inj h
    rw [hnegative]
    simp only [Bool.false_eq_true, if_false, Numeral.saturate]
    omega
  · cases h

section Step

variable {α : Type} {tokenOf : α → Token} {items rest : List α} {i j : Int}

theorem readUnsigned_inRange {negative : Bool}
    (h : readUnsigned tokenOf negative items = .ok (i, rest)) : InRange i := by
  obtain ⟨⟨item, after⟩, -, h⟩ := bind_eq_ok.mp h
  simp only at h
  split at h
  · split at h
    · rename_i hsign hint
      obtain ⟨rfl, -⟩ := Prod.mk.inj (pure_eq_ok.mp h)
      have hrange := int?_inRange hint
      have hnonneg := int?_nonneg hint hsign
      unfold InRange at hrange ⊢
      split
      · omega
      · omega
    · cases h
  · cases h

theorem readOffset_inRange (h : readOffset tokenOf items = .ok (i, rest)) : InRange i := by
  have hzero : InRange 0 := ⟨by decide, by decide⟩
  unfold readOffset at h
  split at h
  · obtain ⟨rfl, -⟩ := Prod.mk.inj (pure_eq_ok.mp h)
    exact hzero
  · split at h
    · exact readUnsigned_inRange h
    · exact readUnsigned_inRange h
    · split at h
      · rename_i hint
        obtain ⟨rfl, -⟩ := Prod.mk.inj (pure_eq_ok.mp h)
        exact int?_inRange hint
      · obtain ⟨rfl, -⟩ := Prod.mk.inj (pure_eq_ok.mp h)
        exact hzero
    · obtain ⟨rfl, -⟩ := Prod.mk.inj (pure_eq_ok.mp h)
      exact hzero

theorem dashDigits?_inRange {name : String} (h : dashDigits? name = some i) : InRange i := by
  unfold dashDigits? at h
  split at h
  · split at h
    · obtain rfl := Option.some.inj h
      exact saturate_inRange _
    · cases h
  · cases h

theorem readAfterStep_inRange {a : Int} (ha : InRange a) {name : String}
    (h : readAfterStep tokenOf a name items = .ok ((i, j), rest)) : InRange i ∧ InRange j := by
  unfold readAfterStep at h
  split at h
  · obtain ⟨⟨b, after⟩, hb, h⟩ := bind_eq_ok.mp h
    obtain ⟨heq, -⟩ := Prod.mk.inj (pure_eq_ok.mp h)
    obtain ⟨rfl, rfl⟩ := Prod.mk.inj heq
    exact ⟨ha, readOffset_inRange hb⟩
  · obtain ⟨⟨b, after⟩, hb, h⟩ := bind_eq_ok.mp h
    obtain ⟨heq, -⟩ := Prod.mk.inj (pure_eq_ok.mp h)
    obtain ⟨rfl, rfl⟩ := Prod.mk.inj heq
    exact ⟨ha, readUnsigned_inRange hb⟩
  · split at h
    · rename_i hb
      obtain ⟨heq, -⟩ := Prod.mk.inj (pure_eq_ok.mp h)
      obtain ⟨rfl, rfl⟩ := Prod.mk.inj heq
      exact ⟨ha, dashDigits?_inRange hb⟩
    · cases h

/-- What `an+b` stands for. -/
theorem readStep_inRange (h : readStep tokenOf items = .ok ((i, j), rest)) :
    InRange i ∧ InRange j := by
  have hzero : InRange 0 := ⟨by decide, by decide⟩
  have hone : InRange 1 := ⟨by decide, by decide⟩
  have htwo : InRange 2 := ⟨by decide, by decide⟩
  have hminus : InRange (-1) := ⟨by decide, by decide⟩
  have hpair : ∀ {p : Int × Int}, InRange p.1 ∧ InRange p.2 → p = (i, j) →
      InRange i ∧ InRange j := by
    rintro _ hp rfl
    exact hp
  obtain ⟨⟨item, after⟩, -, h⟩ := bind_eq_ok.mp h
  simp only at h
  split at h
  · split at h
    · rename_i hint
      exact hpair ⟨hzero, int?_inRange hint⟩ (Prod.mk.inj (pure_eq_ok.mp h)).1
    · cases h
  · split at h
    · rename_i hint
      exact readAfterStep_inRange (int?_inRange hint) h
    · cases h
  · unfold readNamed at h
    split at h
    · exact hpair ⟨htwo, hzero⟩ (Prod.mk.inj (pure_eq_ok.mp h)).1
    · exact hpair ⟨htwo, hone⟩ (Prod.mk.inj (pure_eq_ok.mp h)).1
    · split at h
      · simp only at h
        split at h
        · exact readAfterStep_inRange hminus h
        · cases h
      · exact readAfterStep_inRange hone h
  · split at h
    · cases h
    · split at h
      · exact readAfterStep_inRange hone h
      · cases h
  · cases h

end Step

end DomQuery.Css
