import DomQuery.Text.CaseOrbit
import DomQuery.Text.Language
import Mathlib

/-!
# Members of sets of characters

Ranges are sorted and joined where they touch, which adds nothing and loses nothing
(`hasCode_ofList`). So the members of a set that was put together are those of its
parts, and those of a set closed under case are the variants of its members
(`hasCode_closeCase`). Among letters and digits of ASCII, and what counts as a case of
them, variants are what `caseFold` takes for the same (`sameCase_iff`).
-/

namespace DomQuery.Text

namespace CharSet

/-- The code is in one of the ranges. -/
def InRanges (ranges : List (Nat × Nat)) (n : Nat) : Prop :=
  ∃ r ∈ ranges, r.1 ≤ n ∧ n ≤ r.2

theorem hasCode_iff {s : CharSet} {n : Nat} : s.hasCode n = true ↔ InRanges s.ranges n := by
  simp [hasCode, InRanges]

theorem inRanges_cons {r : Nat × Nat} {ranges : List (Nat × Nat)} {n : Nat} :
    InRanges (r :: ranges) n ↔ r.1 ≤ n ∧ n ≤ r.2 ∨ InRanges ranges n := by
  simp [InRanges]

/-- Ranges that begin later and touch or overlap are joined to one. -/
theorem inRanges_joinFrom {ranges : List (Nat × Nat)} {a b n : Nat}
    (h : ((a, b) :: ranges).Pairwise fun r s => r.1 ≤ s.1) :
    InRanges (joinFrom a b ranges) n ↔ InRanges ((a, b) :: ranges) n := by
  induction ranges generalizing a b with
  | nil => rfl
  | cons r rest ih =>
    obtain ⟨c, d⟩ := r
    obtain ⟨hfirst, hrest⟩ := List.pairwise_cons.mp h
    have hac : a ≤ c := hfirst (c, d) List.mem_cons_self
    rw [joinFrom]
    split
    · -- the joined range still begins before all that follow
      have hjoined : ((a, max b d) :: rest).Pairwise fun r s => r.1 ≤ s.1 :=
        List.pairwise_cons.mpr
          ⟨fun s hs => hfirst s (List.mem_cons_of_mem _ hs), (List.pairwise_cons.mp hrest).2⟩
      rw [ih hjoined, inRanges_cons, inRanges_cons, inRanges_cons, ← or_assoc]
      refine or_congr_left ?_
      dsimp only
      omega
    · rw [inRanges_cons, ih hrest, ← inRanges_cons]

theorem hasCode_ofList {ranges : List (Nat × Nat)} {n : Nat} :
    (ofList ranges).hasCode n = true ↔ InRanges ranges n := by
  have hsorted : ((ranges.filter fun r => r.1 ≤ r.2).mergeSort fun r s => r.1 ≤ s.1).Pairwise
      fun r s => decide (r.1 ≤ s.1) = true :=
    List.pairwise_mergeSort (fun a b c hab hbc => by simp only [decide_eq_true_eq] at *; omega)
      (fun a b => by simpa using Nat.le_total a.1 b.1) _
  have hmem : InRanges ((ranges.filter fun r => r.1 ≤ r.2).mergeSort fun r s => r.1 ≤ s.1) n ↔
      InRanges ranges n := by
    simp only [InRanges, List.mem_mergeSort, List.mem_filter, decide_eq_true_eq]
    exact exists_congr fun r => ⟨fun h => ⟨h.1.1, h.2⟩, fun h => ⟨⟨h.1, h.2.1.trans h.2.2⟩, h.2⟩⟩
  rw [hasCode_iff, ← hmem, ofList]
  generalize (ranges.filter fun r => r.1 ≤ r.2).mergeSort _ = sorted at hsorted ⊢
  cases sorted with
  | nil => rfl
  | cons r rest => exact inRanges_joinFrom (hsorted.imp fun h => of_decide_eq_true h)

theorem hasCode_ofRange {a b n : Nat} : (ofRange a b).hasCode n = true ↔ a ≤ n ∧ n ≤ b := by
  rw [ofRange, hasCode_ofList]
  simp [InRanges]

theorem hasCode_union {s t : CharSet} {n : Nat} :
    (s.union t).hasCode n = true ↔ s.hasCode n = true ∨ t.hasCode n = true := by
  rw [union, hasCode_ofList, hasCode_iff, hasCode_iff]
  simp only [InRanges, List.mem_append, or_and_right, exists_or]

theorem hasCode_empty {n : Nat} : empty.hasCode n = false :=
  rfl

end CharSet

/-! ### Case -/

/-- The codes are variants of each other. -/
def SameCase (m n : Nat) : Prop :=
  m = n ∨ ∃ orbit ∈ caseOrbits, m ∈ orbit ∧ n ∈ orbit

theorem CharSet.hasCode_closeCase {s : CharSet} {n : Nat} :
    s.closeCase.hasCode n = true ↔ ∃ m, s.hasCode m = true ∧ SameCase m n := by
  have hvariants : InRanges ((caseOrbits.filter fun orbit => orbit.any s.hasCode).flatMap
      fun orbit => orbit.map fun n => (n, n)) n ↔
      ∃ orbit ∈ caseOrbits, (∃ m ∈ orbit, s.hasCode m = true) ∧ n ∈ orbit := by
    simp only [InRanges, List.mem_flatMap, List.mem_filter, List.any_eq_true, List.mem_map]
    constructor
    · rintro ⟨_, ⟨orbit, ⟨horbit, hm⟩, k, hk, rfl⟩, hle, hge⟩
      exact ⟨orbit, horbit, hm, Nat.le_antisymm hge hle ▸ hk⟩
    · rintro ⟨orbit, horbit, hm, hn⟩
      exact ⟨(n, n), ⟨orbit, ⟨horbit, hm⟩, n, hn, rfl⟩, Nat.le_refl n, Nat.le_refl n⟩
  rw [closeCase, hasCode_union, hasCode_ofList, hvariants]
  constructor
  · rintro (hn | ⟨orbit, horbit, ⟨m, hm, hs⟩, hn⟩)
    · exact ⟨n, hn, .inl rfl⟩
    · exact ⟨m, hs, .inr ⟨orbit, horbit, hm, hn⟩⟩
  · rintro ⟨m, hs, rfl | ⟨orbit, horbit, hm, hn⟩⟩
    · exact .inl hs
    · exact .inr ⟨orbit, horbit, ⟨m, hm, hs⟩, hn⟩

/-- The classes that have to do with ASCII. -/
def asciiOrbits : List (List Nat) :=
  [(65, 32, 1, 10), (76, 32, 1, 7), (84, 32, 1, 7)].flatMap pairsOf ++
    [[75, 107, 8490], [83, 115, 383]]

theorem filter_caseOrbits :
    (caseOrbits.filter fun orbit => orbit.any fun n => n < 128) = asciiOrbits := by
  decide +kernel

/-- The characters that `caseFold` may take for a letter or a digit. -/
def foldable : List Char :=
  (List.range 128).map Char.ofNat ++ ['\u017F', '\u212A']

theorem forall_foldable {P : Char → Prop} [DecidablePred P]
    (h : foldable.all (fun c => decide (P c)) = true) : ∀ c ∈ foldable, P c :=
  fun c hc => of_decide_eq_true (List.all_eq_true.mp h c hc)

/-- The variants of letters and digits of ASCII are what folds to the same. -/
theorem asciiOrbits_eq : ∀ c ∈ foldable, isAlnum c = true →
    (asciiOrbits.filter fun orbit => orbit.contains c.toNat).flatten =
      if c.isDigit then []
      else (foldable.filter fun d => caseFold d == caseFold c).map Char.toNat :=
  forall_foldable (by decide +kernel)

theorem mem_foldable_of_lt {c : Char} (h : c.toNat < 128) : c ∈ foldable :=
  List.mem_append_left _ (List.mem_map.mpr ⟨c.toNat, List.mem_range.mpr h, Char.ofNat_toNat c⟩)

theorem isAlpha_iff {c : Char} : c.isAlpha = true ↔
    65 ≤ c.toNat ∧ c.toNat ≤ 90 ∨ 97 ≤ c.toNat ∧ c.toNat ≤ 122 := by
  simp only [Char.isAlpha, Char.isUpper, Char.isLower, Bool.or_eq_true, Bool.and_eq_true,
    decide_eq_true_eq]
  rfl

theorem isAlnum_iff {c : Char} : isAlnum c = true ↔ (65 ≤ c.toNat ∧ c.toNat ≤ 90 ∨
    97 ≤ c.toNat ∧ c.toNat ≤ 122) ∨ 48 ≤ c.toNat ∧ c.toNat ≤ 57 := by
  rw [isAlnum, Char.isAlphanum, Bool.or_eq_true, isAlpha_iff]
  simp only [Char.isDigit, Bool.and_eq_true, decide_eq_true_eq]
  rfl

theorem lt_of_isAlnum {c : Char} (h : isAlnum c = true) : c.toNat < 128 := by
  have := isAlnum_iff.mp h
  omega

/-- Whatever folds to a letter or a digit is among those. -/
theorem mem_foldable {d : Char} (h : isAlnum (caseFold d) = true) : d ∈ foldable := by
  by_cases hs : d = '\u017F'
  · exact List.mem_append_right _ (by simp [hs])
  by_cases hk : d = '\u212A'
  · exact List.mem_append_right _ (by simp [hk])
  rw [caseFold, if_neg (by simpa using hs), if_neg (by simpa using hk), Char.toLower] at h
  split at h
  · rename_i hupper
    have hle : d.toNat ≤ 90 := hupper.2
    exact mem_foldable_of_lt (by omega)
  · exact mem_foldable_of_lt (lt_of_isAlnum h)

theorem isAlnum_caseFold : ∀ c ∈ foldable, isAlnum c = true → isAlnum (caseFold c) = true :=
  forall_foldable (by decide +kernel)

theorem isAlpha_caseFold : ∀ c ∈ foldable, c.isAlpha = true → (caseFold c).isAlpha = true :=
  forall_foldable (by decide +kernel)

/-- A digit has no variants. -/
theorem variants_of_isDigit : ∀ c ∈ foldable, c.isDigit = true →
    (foldable.filter fun d => caseFold d == caseFold c) = [c] :=
  forall_foldable (by decide +kernel)

theorem sameCase_iff_of_lt {m n : Nat} (hm : m < 128) : SameCase m n ↔
    m = n ∨ n ∈ (asciiOrbits.filter fun orbit => orbit.contains m).flatten := by
  refine or_congr_right ?_
  simp only [← filter_caseOrbits, List.mem_flatten, List.mem_filter, List.any_eq_true,
    decide_eq_true_eq, List.contains_iff_mem]
  constructor
  · rintro ⟨orbit, horbit, hmo, hno⟩
    exact ⟨orbit, ⟨⟨horbit, m, hmo, hm⟩, hmo⟩, hno⟩
  · rintro ⟨orbit, ⟨⟨horbit, -⟩, hmo⟩, hno⟩
    exact ⟨orbit, horbit, hmo, hno⟩

theorem sameCase_iff {c d : Char} (hc : isAlnum c = true) :
    SameCase c.toNat d.toNat ↔ caseFold d = caseFold c := by
  have hmem := mem_foldable_of_lt (lt_of_isAlnum hc)
  have hfold : isAlnum (caseFold c) = true := isAlnum_caseFold c hmem hc
  have hsame : caseFold d = caseFold c ↔
      d.toNat ∈ (foldable.filter fun d => caseFold d == caseFold c).map Char.toNat := by
    simp only [List.mem_map, List.mem_filter, beq_iff_eq]
    constructor
    · exact fun h => ⟨d, ⟨mem_foldable (h ▸ hfold), h⟩, rfl⟩
    · rintro ⟨e, ⟨-, he⟩, heq⟩
      exact Char.toNat_inj.mp heq ▸ he
  rw [sameCase_iff_of_lt (lt_of_isAlnum hc), asciiOrbits_eq c hmem hc, hsame]
  split
  · rename_i hdigit
    rw [variants_of_isDigit c hmem hdigit]
    simp [eq_comm]
  · rw [or_iff_right_of_imp]
    intro h
    rw [← hsame, Char.toNat_inj.mp h]

theorem caseFold_caseFold : ∀ c ∈ foldable, caseFold (caseFold c) = caseFold c :=
  forall_foldable (by decide +kernel)

/-- A set of letters and digits closed under case has what folds to one of them. -/
theorem CharSet.contains_closeCase {s : CharSet} {p : Char → Bool}
    (hs : ∀ n, s.hasCode n = true ↔ ∃ c : Char, c.toNat = n ∧ p c = true)
    (halnum : ∀ c, p c = true → isAlnum c = true)
    (hfold : ∀ c ∈ foldable, p c = true → p (caseFold c) = true) (d : Char) :
    s.closeCase.contains d = p (caseFold d) := by
  rw [Bool.eq_iff_iff, CharSet.contains, CharSet.hasCode_closeCase]
  constructor
  · rintro ⟨m, hm, hsame⟩
    obtain ⟨c, rfl, hc⟩ := (hs m).mp hm
    rw [(sameCase_iff (halnum c hc)).mp hsame]
    exact hfold c (mem_foldable_of_lt (lt_of_isAlnum (halnum c hc))) hc
  · intro hd
    have hfolded := halnum _ hd
    refine ⟨_, (hs _).mpr ⟨caseFold d, rfl, hd⟩, (sameCase_iff hfolded).mpr ?_⟩
    exact (caseFold_caseFold d (mem_foldable hfolded)).symm

theorem CharSet.contains_closeCase_ofRange {c : Char} (hc : isAlnum c = true) (d : Char) :
    (CharSet.ofRange c.toNat c.toNat).closeCase.contains d = (caseFold c == caseFold d) := by
  rw [Bool.eq_iff_iff, CharSet.contains, CharSet.hasCode_closeCase, beq_iff_eq]
  have hmem {m : Nat} : (CharSet.ofRange c.toNat c.toNat).hasCode m = true ↔ m = c.toNat := by
    rw [CharSet.hasCode_ofRange]
    omega
  simp only [hmem, exists_eq_left, sameCase_iff hc, eq_comm]

theorem CharSet.contains_closeCase_hyphen (d : Char) :
    (CharSet.ofRange '-'.toNat '-'.toNat).closeCase.contains d = (d == '-') := by
  have horbits : (asciiOrbits.filter fun orbit => orbit.contains '-'.toNat).flatten = [] := by
    decide +kernel
  have hmem {m : Nat} : (CharSet.ofRange '-'.toNat '-'.toNat).hasCode m = true ↔ m = '-'.toNat := by
    rw [CharSet.hasCode_ofRange]
    omega
  rw [Bool.eq_iff_iff, CharSet.contains, CharSet.hasCode_closeCase, beq_iff_eq, ← Char.toNat_inj]
  simp only [hmem, exists_eq_left]
  rw [sameCase_iff_of_lt (by decide), horbits]
  simp [eq_comm]

end DomQuery.Text
