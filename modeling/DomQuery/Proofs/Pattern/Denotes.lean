import DomQuery.Proofs.Pattern.Notation
import Mathlib.Computability.Language

/-!
# The language of a pattern

A pattern that does not look around reads any word of a language, wherever it stands,
and nothing else: it `Denotes` that language. Sequences and repetitions denote products
and powers. Between the anchors of a text, a pattern fits the texts of its language.
-/

namespace DomQuery.Pattern

open DomQuery.Text
open scoped Computability

/-- The texts with a property. -/
def textsWith (P : List Char → Prop) : Language Char :=
  {w | P w}

theorem mem_textsWith {P : List Char → Prop} {w : List Char} : w ∈ textsWith P ↔ P w :=
  Iff.rfl

/-- Reading is reading a word of the language. -/
structure Denotes (R : Point → Point → Prop) (L : Language Char) : Prop where
  sound : ∀ {x y}, R x y → ∃ w ∈ L, x.rest = w ++ y.rest
  complete : ∀ {w}, w ∈ L → ∀ before rest, ∃ before', R ⟨before, w ++ rest⟩ ⟨before', rest⟩

namespace Denotes

variable {R S : Point → Point → Prop} {L M : Language Char}

theorem congr (h : Denotes R L) (hL : ∀ w, w ∈ L ↔ w ∈ M) : Denotes R M :=
  (Set.ext hL : L = M) ▸ h

theorem chars {s : CharSet} : Denotes (Pattern.chars s).Reads
    (textsWith fun w => ∃ c, s.contains c = true ∧ w = [c]) where
  sound := by
    rintro x _ ⟨c, rest, hrest, hc, rfl⟩
    exact ⟨[c], ⟨c, hc, rfl⟩, hrest⟩
  complete := by
    rintro _ ⟨c, hc, rfl⟩ before rest
    exact ⟨some c, c, rest, rfl, hc, rfl⟩

/-- One step after another. -/
theorem trans (hR : Denotes R L) (hS : Denotes S M) :
    Denotes (fun x y => ∃ z, R x z ∧ S z y) (L * M) where
  sound := by
    rintro x y ⟨z, hz, hy⟩
    obtain ⟨w, hw, hrest⟩ := hR.sound hz
    obtain ⟨v, hv, hrest'⟩ := hS.sound hy
    exact ⟨w ++ v, Language.append_mem_mul hw hv, by rw [hrest, hrest', List.append_assoc]⟩
  complete := by
    intro u hu before rest
    obtain ⟨w, hw, v, hv, rfl⟩ := Language.mem_mul.mp hu
    obtain ⟨middle, hR⟩ := hR.complete hw before (v ++ rest)
    obtain ⟨after, hS⟩ := hS.complete hv middle rest
    rw [List.append_assoc]
    exact ⟨after, _, hR, hS⟩

theorem eq : Denotes (fun x y => x = y) 1 where
  sound := by
    rintro x _ rfl
    exact ⟨[], Language.nil_mem_one, rfl⟩
  complete := by
    intro w hw before rest
    obtain rfl := (Language.mem_one w).mp hw
    exact ⟨before, rfl⟩

theorem leads (h : Denotes R L) (n : Nat) : Denotes (Leads R n) (L ^ n) := by
  induction n with
  | zero => exact eq
  | succ n ih =>
    rw [pow_succ']
    exact h.trans ih

theorem mem_kstar_iff_pow {w : List Char} : w ∈ L∗ ↔ ∃ n, w ∈ L ^ n := by
  rw [Language.kstar_eq_iSup_pow, Language.mem_iSup]

/-- Unlimited repetition. -/
theorem times {p : Pattern} (h : Denotes p.Reads L) (least : Nat) :
    Denotes (Pattern.times least none p).Reads (L ^ least * L∗) where
  sound := by
    rintro x y ⟨n, -, hleads⟩
    obtain ⟨w, hw, hrest⟩ := (h.leads (least + n)).sound hleads
    rw [pow_add] at hw
    obtain ⟨u, hu, v, hv, rfl⟩ := Language.mem_mul.mp hw
    exact ⟨u ++ v, Language.append_mem_mul hu (mem_kstar_iff_pow.mpr ⟨n, hv⟩), hrest⟩
  complete := by
    intro w hw before rest
    obtain ⟨u, hu, v, hv, rfl⟩ := Language.mem_mul.mp hw
    obtain ⟨n, hv⟩ := mem_kstar_iff_pow.mp hv
    have hpow : u ++ v ∈ L ^ (least + n) := by
      rw [pow_add]
      exact Language.append_mem_mul hu hv
    obtain ⟨after, hleads⟩ := (h.leads (least + n)).complete hpow before rest
    exact ⟨after, n, nofun, hleads⟩

/-- One character of a set or more. -/
theorem chars_plus {s : CharSet} : Denotes (Pattern.times 1 none (.chars s)).Reads
    (textsWith fun w => w ≠ [] ∧ ∀ c ∈ w, s.contains c = true) := by
  refine (chars.times 1).congr fun w => ?_
  rw [pow_one, Language.mem_mul, mem_textsWith]
  constructor
  · rintro ⟨_, ⟨c, hc, rfl⟩, v, hv, rfl⟩
    obtain ⟨words, rfl, hwords⟩ := Language.mem_kstar.mp hv
    refine ⟨List.cons_ne_nil _ _, fun d hd => ?_⟩
    rcases List.mem_cons.mp hd with rfl | hd
    · exact hc
    · obtain ⟨word, hword, hd⟩ := List.mem_flatten.mp hd
      obtain ⟨e, he, rfl⟩ := hwords word hword
      exact List.mem_singleton.mp hd ▸ he
  · rintro ⟨hne, hall⟩
    obtain ⟨c, rest, rfl⟩ := List.exists_cons_of_ne_nil hne
    obtain ⟨hc, hrest⟩ := List.forall_mem_cons.mp hall
    refine ⟨[c], ⟨c, hc, rfl⟩, rest, Language.mem_kstar.mpr ⟨rest.map fun d => [d], ?_, ?_⟩, rfl⟩
    · exact (List.flatMap_singleton' rest).symm
    · intro word hword
      obtain ⟨d, hd, rfl⟩ := List.mem_map.mp hword
      exact ⟨d, hrest d hd, rfl⟩

/-! ### Sequences -/

section Sequences

variable {p : Pattern} {ps qs : List Pattern}

theorem readsAll_nil : Denotes (ReadsAll []) 1 :=
  eq

theorem readsAll_cons (hp : Denotes p.Reads L) (hps : Denotes (ReadsAll ps) M) :
    Denotes (ReadsAll (p :: ps)) (L * M) :=
  hp.trans hps

theorem readsAll_append (hps : Denotes (ReadsAll ps) L) (hqs : Denotes (ReadsAll qs) M) :
    Denotes (ReadsAll (ps ++ qs)) (L * M) := by
  have heq : ReadsAll (ps ++ qs) = fun x y => ∃ z, ReadsAll ps x z ∧ ReadsAll qs z y := by
    funext x y
    exact propext Pattern.readsAll_append
  rw [heq]
  exact hps.trans hqs

theorem inSequence {ps : List (Nested Pattern)} (h : Denotes (ReadsAll (ps.map Nested.value)) L) :
    Denotes (Pattern.inSequence ps).value.Reads L := by
  have heq : (Pattern.inSequence ps).value.Reads = ReadsAll (ps.map Nested.value) := by
    funext x y
    exact propext reads_inSequence
  rw [heq]
  exact h

/-- Between the anchors of a text, the whole of it is read. -/
theorem readsAll_anchored (h : Denotes (ReadsAll ps) L) {text : List Char} :
    (∃ y, ReadsAll (.look .textStart :: (ps ++ [.look .textEnd])) ⟨none, text⟩ y) ↔ text ∈ L := by
  constructor
  · rintro ⟨y, _, ⟨rfl, -⟩, hall⟩
    obtain ⟨z, hps, hend⟩ := Pattern.readsAll_append.mp hall
    obtain ⟨rfl, hz⟩ : z = y ∧ _ := readsAll_singleton.mp hend
    obtain ⟨w, hw, hrest⟩ := h.sound hps
    have hnil : z.rest = [] := by simpa [Look.holds] using hz
    rw [hnil, List.append_nil] at hrest
    exact (show text = w from hrest) ▸ hw
  · intro htext
    obtain ⟨after, hps⟩ := h.complete htext none []
    rw [List.append_nil] at hps
    exact ⟨_, ⟨none, text⟩, ⟨rfl, rfl⟩,
      Pattern.readsAll_append.mpr ⟨_, hps, readsAll_singleton.mpr ⟨rfl, rfl⟩⟩⟩

end Sequences

end Denotes

end DomQuery.Pattern
