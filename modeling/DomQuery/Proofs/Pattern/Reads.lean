import DomQuery.Pattern.Basic
import Mathlib.Data.Finset.Card
import Mathlib.Data.Finset.Dedup
import Mathlib.Data.Finset.Range
import Mathlib.Tactic.Push

/-!
# What a pattern reads

A pattern reads from one point of a text to another (`Pattern.Reads`): that is its
meaning, told by cases on the pattern and without any bound on repetition. `ends`
computes with sets of positions and bounds each repetition by the length of the text,
which leaves nothing out (`mem_ends`), for there are no more positions to come to.

* `mem_applyUpTo`: a repetition that is cut off has come to all it would come to.
* `mem_ends`: the positions that are computed are those a pattern reads to.
* `matchesAtStart_iff`: what it is to match a text.
-/

namespace DomQuery.Pattern

open DomQuery.Text

/-- A point of a text: the character before it and all that follow. -/
structure Point where
  before : Option Char
  rest : List Char

/-- `y` is reached from `x` in `n` steps. -/
def Leads {α : Type} (R : α → α → Prop) : Nat → α → α → Prop
  | 0, x, y => x = y
  | n + 1, x, y => ∃ z, R x z ∧ Leads R n z y

/-- The pattern can read from one point to another. -/
def Reads : Pattern → Point → Point → Prop
  | .empty => fun x y => x = y
  | .look l => fun x y => x = y ∧ l.holds ⟨x.before, x.rest.head?⟩ = true
  | .chars s => fun x y => ∃ c rest, x.rest = c :: rest ∧ s.contains c = true ∧ y = ⟨some c, rest⟩
  | .seq p q => fun x y => ∃ z, p.Reads x z ∧ q.Reads z y
  | .alt p q => fun x y => p.Reads x y ∨ q.Reads x y
  -- a limit below `least` is taken for `least`
  | .times least most p => fun x y =>
    ∃ n, (∀ m ∈ most, n ≤ m - least) ∧ Leads p.Reads (least + n) x y

/-- The pattern can read some way from a point on. -/
def Fits (p : Pattern) (x : Point) : Prop :=
  ∃ y, p.Reads x y

/-! ### Positions as points -/

/-- The point at a position. -/
def pointAt (text : Array Char) (i : Nat) : Point :=
  ⟨(surroundings text i).before, text.toList.drop i⟩

section Points

variable {text : Array Char} {i j : Nat}

theorem pointAt_injective (hi : i ≤ text.size) (hj : j ≤ text.size)
    (h : pointAt text i = pointAt text j) : i = j := by
  have hlength := congrArg (fun x : Point => x.rest.length) h
  simp only [pointAt, List.length_drop, Array.length_toList] at hlength
  omega

theorem surroundings_eq (text : Array Char) (i : Nat) :
    surroundings text i = ⟨(pointAt text i).before, (pointAt text i).rest.head?⟩ := by
  have hafter : (text.toList.drop i).head? = text[i]? := by
    rw [List.head?_drop, Array.getElem?_toList]
  rw [pointAt, hafter]
  rfl

theorem pointAt_rest_eq_cons {c : Char} {rest : List Char} :
    (pointAt text i).rest = c :: rest ↔ text[i]? = some c ∧ rest = text.toList.drop (i + 1) := by
  change text.toList.drop i = c :: rest ↔ _
  rw [← Array.getElem?_toList]
  constructor
  · intro h
    refine ⟨by rw [← List.head?_drop, h]; rfl, ?_⟩
    rw [← List.tail_drop, h]
    rfl
  · rintro ⟨hc, rfl⟩
    obtain ⟨hi, rfl⟩ := List.getElem?_eq_some_iff.mp hc
    exact List.drop_eq_getElem_cons hi

theorem pointAt_succ {c : Char} (h : text[i]? = some c) :
    pointAt text (i + 1) = ⟨some c, text.toList.drop (i + 1)⟩ := by
  have hbefore : (surroundings text (i + 1)).before = text[i]? := rfl
  rw [pointAt, hbefore, h]

end Points

/-! ### Repetition -/

section Leads

variable {α : Type} {R : α → α → Prop} {x y : α}

theorem leads_add {m n : Nat} : Leads R (m + n) x y ↔ ∃ z, Leads R m x z ∧ Leads R n z y := by
  induction m generalizing x with
  | zero => simp [Leads]
  | succ m ih =>
    rw [Nat.succ_add]
    constructor
    · rintro ⟨w, hw, hrest⟩
      obtain ⟨z, hz, hlast⟩ := ih.mp hrest
      exact ⟨z, ⟨w, hw, hz⟩, hlast⟩
    · rintro ⟨z, ⟨w, hw, hz⟩, hlast⟩
      exact ⟨w, hw, ih.mpr ⟨z, hz, hlast⟩⟩

end Leads

section Repetition

variable {R : Nat → Nat → Prop} {f : List Nat → List Nat} {size : Nat}

theorem le_of_leads (hR : ∀ i j, R i j → j ≤ size) {n i j : Nat} (hi : i ≤ size)
    (h : Leads R n i j) : j ≤ size := by
  induction n generalizing i with
  | zero => exact h ▸ hi
  | succ n ih =>
    obtain ⟨z, hz, hlast⟩ := h
    exact ih (hR i z hz) hlast

theorem mem_merge {xs ys : List Nat} {j : Nat} : j ∈ merge xs ys ↔ j ∈ xs ∨ j ∈ ys := by
  rw [merge, List.mem_append, List.mem_filter, Bool.not_eq_true', ← Bool.not_eq_true,
    List.contains_iff_mem]
  tauto

theorem applyTimes_succ (n : Nat) (xs : List Nat) :
    applyTimes f (n + 1) xs = applyTimes f n (f xs) := by
  have hfixed (h : f xs = xs) : applyTimes f n xs = xs := by
    cases n with
    | zero => rfl
    | succ n => exact if_pos (beq_iff_eq.mpr h)
  rw [applyTimes]
  split
  · rename_i h
    rw [beq_iff_eq.mp h, hfixed (beq_iff_eq.mp h)]
  · rfl

/-- Once a merge adds nothing, no step leads out of the set. -/
theorem applyUpTo_succ (n : Nat) (xs : List Nat) :
    (∀ j ∈ f xs, j ∈ xs) ∧ applyUpTo f (n + 1) xs = xs ∨
      (∃ j ∈ f xs, j ∉ xs) ∧ applyUpTo f (n + 1) xs = applyUpTo f n (merge xs (f xs)) := by
  have hlength : (merge xs (f xs)).length = xs.length ↔ ∀ j ∈ f xs, j ∈ xs := by
    simp [merge]
  rw [applyUpTo]
  split
  · rename_i h
    exact .inl ⟨hlength.mp (beq_iff_eq.mp h), rfl⟩
  · rename_i h
    refine .inr ⟨?_, rfl⟩
    by_contra hnone
    push Not at hnone
    exact h (beq_iff_eq.mpr (hlength.mpr hnone))

variable (hf : ∀ xs, (∀ i ∈ xs, i ≤ size) → ∀ j, j ∈ f xs ↔ ∃ i ∈ xs, R i j)
  (hR : ∀ i j, R i j → j ≤ size) {xs : List Nat} (hxs : ∀ i ∈ xs, i ≤ size) {j n : Nat}

include hf hR hxs

theorem le_of_mem_image : ∀ i ∈ f xs, i ≤ size := fun i hi => by
  obtain ⟨_, _, h⟩ := (hf xs hxs i).mp hi
  exact hR _ _ h

theorem mem_applyTimes : j ∈ applyTimes f n xs ↔ ∃ i ∈ xs, Leads R n i j := by
  induction n generalizing xs with
  | zero => simp [applyTimes, Leads]
  | succ n ih =>
    rw [applyTimes_succ, ih (le_of_mem_image hf hR hxs)]
    constructor
    · rintro ⟨z, hz, hlast⟩
      obtain ⟨i, hi, hiz⟩ := (hf xs hxs z).mp hz
      exact ⟨i, hi, z, hiz, hlast⟩
    · rintro ⟨i, hi, z, hiz, hlast⟩
      exact ⟨z, (hf xs hxs z).mpr ⟨i, hi, hiz⟩, hlast⟩

theorem le_of_mem_merge : ∀ i ∈ merge xs (f xs), i ≤ size := fun i hi =>
  (mem_merge.mp hi).elim (hxs i) (le_of_mem_image hf hR hxs i)

omit hR in
/-- Steps do not lead out of a set that one step does not lead out of. -/
theorem mem_of_leads (hclosed : ∀ j ∈ f xs, j ∈ xs) {i : Nat} (hi : i ∈ xs) (h : Leads R n i j) :
    j ∈ xs := by
  induction n generalizing i with
  | zero => exact h ▸ hi
  | succ n ih =>
    obtain ⟨z, hiz, hlast⟩ := h
    exact ih (hclosed z ((hf xs hxs z).mpr ⟨i, hi, hiz⟩)) hlast

theorem mem_applyUpTo : j ∈ applyUpTo f n xs ↔ ∃ i ∈ xs, ∃ m ≤ n, Leads R m i j := by
  induction n generalizing xs with
  | zero => simp [applyUpTo, Leads]
  | succ n ih =>
    rcases applyUpTo_succ (f := f) n xs with ⟨hclosed, heq⟩ | ⟨-, heq⟩ <;> rw [heq]
    · exact ⟨fun hj => ⟨j, hj, 0, Nat.zero_le _, rfl⟩,
        fun ⟨i, hi, m, _, h⟩ => mem_of_leads hf hxs hclosed hi h⟩
    · rw [ih (le_of_mem_merge hf hR hxs)]
      constructor
      · rintro ⟨z, hz, m, hm, hlast⟩
        rcases mem_merge.mp hz with hz | hz
        · exact ⟨z, hz, m, by omega, hlast⟩
        · obtain ⟨i, hi, hiz⟩ := (hf xs hxs z).mp hz
          exact ⟨i, hi, m + 1, by omega, z, hiz, hlast⟩
      · rintro ⟨i, hi, m, hm, h⟩
        cases m with
        | zero => exact ⟨i, mem_merge.mpr (.inl hi), 0, Nat.zero_le _, h⟩
        | succ m =>
          obtain ⟨z, hiz, hlast⟩ := h
          exact ⟨z, mem_merge.mpr (.inr ((hf xs hxs z).mpr ⟨i, hi, hiz⟩)), m, by omega, hlast⟩

/-- With every step that adds something there are fewer positions left to add. -/
theorem applyUpTo_closed (hn : size + 1 ≤ n + xs.toFinset.card) :
    ∀ j ∈ f (applyUpTo f n xs), j ∈ applyUpTo f n xs := by
  induction n generalizing xs with
  | zero =>
    intro j hj
    have hsub : xs.toFinset ⊆ Finset.range (size + 1) := fun i hi =>
      Finset.mem_range_succ_iff.mpr (hxs i (List.mem_toFinset.mp hi))
    have heq := Finset.eq_of_subset_of_card_le hsub (by simpa using hn)
    rw [applyUpTo, ← List.mem_toFinset, heq, Finset.mem_range_succ_iff]
    exact le_of_mem_image hf hR hxs j hj
  | succ n ih =>
    rcases applyUpTo_succ (f := f) n xs with ⟨hclosed, heq⟩ | ⟨⟨j, hj, hnew⟩, heq⟩ <;> rw [heq]
    · exact hclosed
    · refine ih (le_of_mem_merge hf hR hxs) ?_
      have hlt : xs.toFinset.card < (merge xs (f xs)).toFinset.card := by
        refine Finset.card_lt_card (Finset.ssubset_iff_exists_cons_subset.mpr ⟨j, by simpa, ?_⟩)
        intro i hi
        rw [List.mem_toFinset, mem_merge]
        rcases Finset.mem_cons.mp hi with rfl | hi
        · exact .inr hj
        · exact .inl (List.mem_toFinset.mp hi)
      omega

/-- More steps than there are positions lead nowhere else. -/
theorem mem_applyUpTo_of_size_lt (hn : size < n) :
    j ∈ applyUpTo f n xs ↔ ∃ i ∈ xs, ∃ m, Leads R m i j := by
  constructor
  · intro hj
    obtain ⟨i, hi, m, -, h⟩ := (mem_applyUpTo hf hR hxs).mp hj
    exact ⟨i, hi, m, h⟩
  · rintro ⟨i, hi, m, h⟩
    have hclosed := applyUpTo_closed hf hR hxs (n := n) (by omega)
    have hbound : ∀ i ∈ applyUpTo f n xs, i ≤ size := fun k hk => by
      obtain ⟨i, hi, m, -, h⟩ := (mem_applyUpTo hf hR hxs).mp hk
      exact le_of_leads hR (hxs i hi) h
    refine mem_of_leads hf hbound hclosed ?_ h
    exact (mem_applyUpTo hf hR hxs).mpr ⟨i, hi, 0, Nat.zero_le _, rfl⟩

theorem mem_applyUpTo_min {limit : Nat} : j ∈ applyUpTo f (min limit (size + 1)) xs ↔
    ∃ i ∈ xs, ∃ m ≤ limit, Leads R m i j := by
  rcases Nat.le_total limit (size + 1) with hle | hle
  · rw [Nat.min_eq_left hle, mem_applyUpTo hf hR hxs]
  · rw [Nat.min_eq_right hle]
    constructor
    · intro hj
      obtain ⟨i, hi, m, hm, h⟩ := (mem_applyUpTo hf hR hxs).mp hj
      exact ⟨i, hi, m, hm.trans hle, h⟩
    · rintro ⟨i, hi, m, -, h⟩
      exact (mem_applyUpTo_of_size_lt hf hR hxs (Nat.lt_succ_self _)).mpr ⟨i, hi, m, h⟩

end Repetition

/-! ### Positions that a pattern reads to -/

section Ends

variable {text : Array Char} {i j : Nat}

/-- The pattern reads from one position of the text to another. -/
def ReadsTo (text : Array Char) (p : Pattern) (i j : Nat) : Prop :=
  j ≤ text.size ∧ p.Reads (pointAt text i) (pointAt text j)

theorem leads_pointAt_iff {p : Pattern} (hp : ∀ {i}, i ≤ text.size → ∀ {y},
      p.Reads (pointAt text i) y → ∃ j, pointAt text j = y ∧ ReadsTo text p i j)
    (hi : i ≤ text.size) {n : Nat} {y : Point} : Leads p.Reads n (pointAt text i) y ↔
      ∃ j, pointAt text j = y ∧ Leads (ReadsTo text p) n i j := by
  induction n generalizing i with
  | zero =>
    constructor
    · rintro rfl
      exact ⟨i, rfl, rfl⟩
    · rintro ⟨j, rfl, rfl⟩
      rfl
  | succ n ih =>
    constructor
    · rintro ⟨z, hz, hlast⟩
      obtain ⟨k, rfl, hk⟩ := hp hi hz
      obtain ⟨j, rfl, hj⟩ := (ih hk.1).mp hlast
      exact ⟨j, rfl, k, hk, hj⟩
    · rintro ⟨j, rfl, k, hk, hj⟩
      exact ⟨_, hk.2, (ih hk.1).mpr ⟨j, rfl, hj⟩⟩

/-- Reading does not leave the text. -/
theorem exists_readsTo (p : Pattern) (hi : i ≤ text.size) {y : Point}
    (h : p.Reads (pointAt text i) y) : ∃ j, pointAt text j = y ∧ ReadsTo text p i j := by
  induction p generalizing i y with
  | empty =>
    obtain rfl : pointAt text i = y := h
    exact ⟨i, rfl, hi, rfl⟩
  | look l =>
    obtain ⟨rfl, hl⟩ : pointAt text i = y ∧ _ := h
    exact ⟨i, rfl, hi, rfl, hl⟩
  | chars s =>
    obtain ⟨c, rest, hrest, hs, rfl⟩ := h
    obtain ⟨hc, rfl⟩ := pointAt_rest_eq_cons.mp hrest
    obtain ⟨hlt, -⟩ := Array.getElem?_eq_some_iff.mp hc
    exact ⟨i + 1, pointAt_succ hc, hlt, c, _, hrest, hs, pointAt_succ hc⟩
  | seq p q ihp ihq =>
    obtain ⟨z, hp, hq⟩ := h
    obtain ⟨k, rfl, hk, -⟩ := ihp hi hp
    obtain ⟨j, rfl, hj, -⟩ := ihq hk hq
    exact ⟨j, rfl, hj, _, hp, hq⟩
  | alt p q ihp ihq =>
    rcases h with hp | hq
    · obtain ⟨j, rfl, hj, -⟩ := ihp hi hp
      exact ⟨j, rfl, hj, .inl hp⟩
    · obtain ⟨j, rfl, hj, -⟩ := ihq hi hq
      exact ⟨j, rfl, hj, .inr hq⟩
  | times least most p ih =>
    obtain ⟨n, hn, hleads⟩ := h
    obtain ⟨j, rfl, hj⟩ := (leads_pointAt_iff ih hi).mp hleads
    exact ⟨j, rfl, le_of_leads (fun _ _ => And.left) hi hj, n, hn, hleads⟩

theorem readsTo_seq {p q : Pattern} (hi : i ≤ text.size) :
    ReadsTo text (.seq p q) i j ↔ ∃ k, ReadsTo text p i k ∧ ReadsTo text q k j := by
  constructor
  · rintro ⟨hj, z, hp, hq⟩
    obtain ⟨k, rfl, hk⟩ := exists_readsTo p hi hp
    exact ⟨k, hk, hj, hq⟩
  · rintro ⟨k, hk, hj, hq⟩
    exact ⟨hj, _, hk.2, hq⟩

theorem readsTo_times {least : Nat} {most : Option Nat} {p : Pattern} (hi : i ≤ text.size) :
    ReadsTo text (.times least most p) i j ↔
      ∃ n, (∀ m ∈ most, n ≤ m - least) ∧ Leads (ReadsTo text p) (least + n) i j := by
  constructor
  · rintro ⟨hj, n, hn, hleads⟩
    obtain ⟨k, heq, hk⟩ := (leads_pointAt_iff (exists_readsTo p) hi).mp hleads
    obtain rfl := pointAt_injective (le_of_leads (fun _ _ => And.left) hi hk) hj heq
    exact ⟨n, hn, hk⟩
  · rintro ⟨n, hn, hleads⟩
    exact ⟨le_of_leads (fun _ _ => And.left) hi hleads, n, hn,
      (leads_pointAt_iff (exists_readsTo p) hi).mpr ⟨j, rfl, hleads⟩⟩

/-- A character is read at each of the positions where it is in the set. -/
theorem mem_ends_chars (s : CharSet) {starts : List Nat} :
    j ∈ (Pattern.chars s).ends text starts ↔ ∃ i ∈ starts, ReadsTo text (.chars s) i j := by
  rw [ends, List.mem_filterMap]
  refine exists_congr fun i => and_congr_right fun hi => ?_
  constructor
  · intro h
    split at h
    · rename_i c hc
      split at h
      · rename_i hs
        obtain rfl := Option.some.inj h
        obtain ⟨hlt, -⟩ := Array.getElem?_eq_some_iff.mp hc
        exact ⟨hlt, c, _, pointAt_rest_eq_cons.mpr ⟨hc, rfl⟩, hs, pointAt_succ hc⟩
      · cases h
    · cases h
  · rintro ⟨hj, c, rest, hrest, hs, heq⟩
    obtain ⟨hc, rfl⟩ := pointAt_rest_eq_cons.mp hrest
    obtain ⟨hlt, -⟩ := Array.getElem?_eq_some_iff.mp hc
    obtain rfl := pointAt_injective hj hlt (heq.trans (pointAt_succ hc).symm)
    simp only [hc, hs, if_true]

/-- The least number of times is read first, then as many more as there may be. -/
theorem mem_ends_times {p : Pattern} {least : Nat} {most : Option Nat} {starts : List Nat}
    (hp : ∀ xs, (∀ i ∈ xs, i ≤ text.size) → ∀ j, j ∈ p.ends text xs ↔
      ∃ i ∈ xs, ReadsTo text p i j) (hstarts : ∀ i ∈ starts, i ≤ text.size) :
    j ∈ (Pattern.times least most p).ends text starts ↔
      ∃ i ∈ starts, ReadsTo text (.times least most p) i j := by
  have hbound : ∀ i j, ReadsTo text p i j → j ≤ text.size := fun _ _ => And.left
  have hreached : ∀ i ∈ applyTimes (p.ends text) least starts, i ≤ text.size := fun i hi => by
    obtain ⟨k, hk, h⟩ := (mem_applyTimes hp hbound hstarts).mp hi
    exact le_of_leads hbound (hstarts k hk) h
  have hmore : j ∈ (Pattern.times least most p).ends text starts ↔
      ∃ i ∈ applyTimes (p.ends text) least starts, ∃ n, (∀ m ∈ most, n ≤ m - least) ∧
        Leads (ReadsTo text p) n i j := by
    rcases most with _ | limit
    · refine (mem_applyUpTo_of_size_lt hp hbound hreached (Nat.lt_succ_self _)).trans ?_
      simp
    · refine (mem_applyUpTo_min hp hbound hreached).trans ?_
      simp
  rw [hmore]
  constructor
  · rintro ⟨k, hk, n, hn, hkj⟩
    obtain ⟨i, hi, hik⟩ := (mem_applyTimes hp hbound hstarts).mp hk
    exact ⟨i, hi, (readsTo_times (hstarts i hi)).mpr ⟨n, hn, leads_add.mpr ⟨k, hik, hkj⟩⟩⟩
  · rintro ⟨i, hi, h⟩
    obtain ⟨n, hn, hleads⟩ := (readsTo_times (hstarts i hi)).mp h
    obtain ⟨k, hik, hkj⟩ := leads_add.mp hleads
    exact ⟨k, (mem_applyTimes hp hbound hstarts).mpr ⟨i, hi, hik⟩, n, hn, hkj⟩

/-- The positions that are computed are those the pattern reads to. -/
theorem mem_ends (p : Pattern) {starts : List Nat} (hstarts : ∀ i ∈ starts, i ≤ text.size) :
    j ∈ p.ends text starts ↔ ∃ i ∈ starts, ReadsTo text p i j := by
  induction p generalizing starts j with
  | empty =>
    constructor
    · exact fun hj => ⟨j, hj, hstarts j hj, rfl⟩
    · rintro ⟨i, hi, hj, heq⟩
      exact pointAt_injective (hstarts i hi) hj heq ▸ hi
  | look l =>
    rw [ends, List.mem_filter, surroundings_eq]
    constructor
    · rintro ⟨hj, hl⟩
      exact ⟨j, hj, hstarts j hj, rfl, hl⟩
    · rintro ⟨i, hi, hj, heq, hl⟩
      obtain rfl := pointAt_injective (hstarts i hi) hj heq
      exact ⟨hi, hl⟩
  | chars s => exact mem_ends_chars s
  | seq p q ihp ihq =>
    have hmiddle : ∀ k ∈ p.ends text starts, k ≤ text.size := fun k hk => by
      obtain ⟨i, -, h⟩ := (ihp hstarts).mp hk
      exact h.1
    rw [ends, ihq hmiddle]
    constructor
    · rintro ⟨k, hk, hkj⟩
      obtain ⟨i, hi, hik⟩ := (ihp hstarts).mp hk
      exact ⟨i, hi, (readsTo_seq (hstarts i hi)).mpr ⟨k, hik, hkj⟩⟩
    · rintro ⟨i, hi, h⟩
      obtain ⟨k, hik, hkj⟩ := (readsTo_seq (hstarts i hi)).mp h
      exact ⟨k, (ihp hstarts).mpr ⟨i, hi, hik⟩, hkj⟩
  | alt p q ihp ihq =>
    rw [ends, mem_merge, ihp hstarts, ihq hstarts, ← exists_or]
    refine exists_congr fun i => ?_
    rw [← and_or_left]
    exact and_congr_right fun _ => and_or_left.symm
  | times least most p ih => exact mem_ends_times (fun _ hxs _ => ih hxs) hstarts

/-- A text is matched if the pattern can read some way into it. -/
theorem matchesAtStart_iff (p : Pattern) (text : String) :
    p.matchesAtStart text = true ↔ p.Fits ⟨none, text.toList⟩ := by
  have hstarts : ∀ i ∈ [0], i ≤ text.toList.toArray.size := by simp
  have hends {j : Nat} : j ∈ p.ends text.toList.toArray [0] ↔ ReadsTo text.toList.toArray p 0 j := by
    rw [mem_ends p hstarts]
    simp
  rw [matchesAtStart, Bool.not_eq_true', ← Bool.not_eq_true, List.isEmpty_iff]
  constructor
  · intro hne
    obtain ⟨j, hj⟩ := List.exists_mem_of_ne_nil _ hne
    exact ⟨_, (hends.mp hj).2⟩
  · rintro ⟨y, hy⟩
    obtain ⟨j, -, hj⟩ := exists_readsTo p (Nat.zero_le _) hy
    exact List.ne_nil_of_mem (hends.mpr hj)

end Ends

end DomQuery.Pattern
