import DomQuery.Selector.Simple

/-!
# Selectors inside of selectors

The argument of a simple selector holds chains of compounds of simple selectors
again. `Simple.induct` is induction along that nesting, and `Simple.All` says
that a property holds of a simple selector and of all that are nested in it.
-/

namespace DomQuery.Selector

namespace Chain

variable {κ μ : Type}

theorem mem_compounds {c : Chain κ} {k : κ} :
    k ∈ c.compounds ↔ (∃ link ∈ c.links, link.compound = k) ∨ k = c.last := by
  simp [compounds]

theorem last_mem_compounds (c : Chain κ) : c.last ∈ c.compounds :=
  mem_compounds.mpr (.inr rfl)

theorem compound_mem_compounds {c : Chain κ} {link : Link κ} (h : link ∈ c.links) :
    link.compound ∈ c.compounds :=
  mem_compounds.mpr (.inl ⟨link, h, rfl⟩)

theorem first_mem_compounds (c : Chain κ) : c.first ∈ c.compounds := by
  rcases c with ⟨leading, _ | ⟨link, links⟩, last⟩
  · exact last_mem_compounds _
  · exact compound_mem_compounds (by simp)

theorem sizeOf_lt_of_mem_compounds [SizeOf κ] {c : Chain κ} {k : κ} (h : k ∈ c.compounds) :
    sizeOf k < sizeOf c := by
  obtain ⟨leading, links, last⟩ := c
  rcases mem_compounds.mp h with ⟨⟨k, combinator⟩, hl, rfl⟩ | rfl
  · have := List.sizeOf_lt_of_mem hl
    simp only [Link.mk.sizeOf_spec, mk.sizeOf_spec] at *
    omega
  · simp only [mk.sizeOf_spec]
    omega

@[simp]
theorem map_first (f : κ → μ) (c : Chain κ) : (c.map f).first = f c.first := by
  rcases c with ⟨leading, _ | ⟨link, links⟩, last⟩ <;> rfl

theorem map_congr {f g : κ → μ} {c : Chain κ} (h : ∀ k ∈ c.compounds, f k = g k) :
    c.map f = c.map g := by
  unfold map
  rw [h c.last c.last_mem_compounds, List.map_congr_left fun link hl => by
    rw [h link.compound (c.compound_mem_compounds hl)]]

end Chain

/-- Every simple selector of the chains, on the outermost level, satisfies `p`. -/
def Each (p : Simple → Prop) (branches : List (Chain Compound)) : Prop :=
  ∀ c ∈ branches, ∀ k ∈ c.compounds, ∀ s ∈ k, p s

namespace Simple

/-- The chains in the argument of a simple selector. -/
def branches : Simple → List (Chain Compound)
  | .matchesAny branches | .matchesNone branches | .has branches | .hostContext branches => branches
  | .nth _ (some (_, branches)) => branches
  | .host (some branches) => branches
  | _ => []

theorem sizeOf_lt_of_mem_branches {s : Simple} {c : Chain Compound} (h : c ∈ s.branches) :
    sizeOf c < sizeOf s := by
  unfold branches at h
  split at h
  case h_7 => simp at h
  all_goals
    have := List.sizeOf_lt_of_mem h
    simp only [matchesAny.sizeOf_spec, matchesNone.sizeOf_spec, has.sizeOf_spec, nth.sizeOf_spec,
      host.sizeOf_spec, hostContext.sizeOf_spec, Option.some.sizeOf_spec, Prod.mk.sizeOf_spec]
    omega

theorem sizeOf_lt_of_nested (s : Simple) :
    Each (fun nested => sizeOf nested < sizeOf s) s.branches := by
  intro c hc k hk nested hn
  exact Nat.lt_trans (List.sizeOf_lt_of_mem hn)
    (Nat.lt_trans (Chain.sizeOf_lt_of_mem_compounds hk) (sizeOf_lt_of_mem_branches hc))

/-- Induction along the nesting. -/
theorem induct {motive : Simple → Prop} (h : ∀ s, Each motive s.branches → motive s) :
    ∀ s, motive s := by
  intro s
  exact h s fun c hc k hk nested hn =>
    have := sizeOf_lt_of_nested s c hc k hk nested hn
    induct h nested
termination_by s => sizeOf s

/-- `p` holds of a simple selector and of all that are nested in it. -/
inductive All (p : Simple → Prop) : Simple → Prop
  | intro {s : Simple} (self : p s)
      (nested : ∀ c ∈ s.branches, ∀ k ∈ c.compounds, ∀ s' ∈ k, All p s') : All p s

namespace All

variable {p q : Simple → Prop} {s : Simple}

theorem self (h : All p s) : p s := by
  obtain ⟨h, -⟩ := h
  exact h

theorem nested (h : All p s) : Each (All p) s.branches := by
  obtain ⟨-, h⟩ := h
  exact h

theorem of_forall (h : ∀ s, p s) (s : Simple) : All p s := by
  induction s using Simple.induct with
  | h s ih => exact .intro (h s) ih

theorem leaf (hs : s.branches = []) (h : p s) : All p s :=
  .intro h (by simp [hs])

theorem mono (h : All p s) (hpq : ∀ s, p s → q s) : All q s := by
  induction h with
  | intro self _ ih => exact .intro (hpq _ self) ih

end All

/-- The second one is the first one, or nested in it. -/
inductive Nests : Simple → Simple → Prop
  | self (s : Simple) : Nests s s
  | nested {s t : Simple} {c : Chain Compound} {k : Compound} {s' : Simple} (hc : c ∈ s.branches)
      (hk : k ∈ c.compounds) (hs : s' ∈ k) (h : Nests s' t) : Nests s t

theorem All.of_nests {p : Simple → Prop} {s : Simple} (h : ∀ t, s.Nests t → p t) : s.All p := by
  induction s using Simple.induct with
  | h s ih =>
    exact .intro (h s (.self s)) fun c hc k hk s' hs =>
      ih c hc k hk s' hs fun t ht => h t (.nested hc hk hs ht)

end Simple

/-- The prefix is written in a type selector of the chain, in an argument or not. -/
def Chain.Writes (c : Chain Compound) (q : String) : Prop :=
  ∃ k ∈ c.compounds, ∃ s ∈ k, ∃ name, s.Nests (.type ⟨some (.named q), name⟩)

end DomQuery.Selector
