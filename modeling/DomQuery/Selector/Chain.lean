import DomQuery.Selector.Error

/-!
# Chains of compounds

A complex selector makes sense when its compounds and combinators alternate:
`compound (combinator compound)*`. A chain is that shape as a type. Every
compound but the last comes with the combinator that links it to the next, so a
dangling combinator cannot be written down. A relative selector may begin with
a combinator, which is kept apart.

`Chain.split` finds the shape or names what breaks it. It is the same for all
kinds of simple selectors.
-/

namespace DomQuery.Selector

/-- A compound and the combinator that follows it. -/
structure Link (κ : Type) where
  compound : κ
  combinator : Combinator
deriving Repr

/-- A complex selector in shape, for compounds of any kind. -/
structure Chain (κ : Type) where
  /-- The combinator a relative selector begins with. -/
  leading : Option Combinator
  links : List (Link κ)
  last : κ
deriving Repr

/-- How the branches of a list are read. -/
inductive ListMode where
  | strict
  /-- A branch that makes no sense is dropped. -/
  | forgiving
  /-- Branches may begin with a combinator. -/
  | relative
  /-- Branches are single compounds. -/
  | compound
deriving DecidableEq, Repr

namespace Chain

section Shape

variable {κ μ : Type}

/-- The compounds in order. -/
def compounds (c : Chain κ) : List κ :=
  c.links.map Link.compound ++ [c.last]

/-- The combinators between the compounds, in order. -/
def combinators (c : Chain κ) : List Combinator :=
  c.links.map Link.combinator

/-- The first compound. -/
def first (c : Chain κ) : κ :=
  match c.links with
  | link :: _ => link.compound
  | [] => c.last

/-- The chain with every compound replaced. -/
def map (f : κ → μ) (c : Chain κ) : Chain μ :=
  ⟨c.leading, c.links.map fun link => ⟨f link.compound, link.combinator⟩, f c.last⟩

end Shape

/-- The chain of what `f` makes of the compounds, one after another. -/
def mapM {κ μ : Type} {m : Type → Type} [Monad m] (f : κ → m μ) (c : Chain κ) : m (Chain μ) := do
  let links ← c.links.mapM fun link => do
    return (⟨← f link.compound, link.combinator⟩ : Link μ)
  let last ← f c.last
  return ⟨c.leading, links, last⟩

variable {σ : Type}

/-- What was read of a chain: its links and its open compound, both last
first, and the combinator just read. -/
structure Partial (σ : Type) where
  leading : Option Combinator
  links : List (Link (List σ))
  compound : List σ
  previous : Option Combinator

/-- Splits what is left of `within` after `read`. -/
def splitFrom (mode : ListMode) (within : Complex) (read : Partial σ) :
    List (Combinator ⊕ Except SelectorError σ) → Except SelectorError (Chain (List σ))
  | [] =>
    if read.compound.isEmpty then throw (.dangling within)
    else if mode == .compound && !read.links.isEmpty then throw (.notCompound within)
    else return ⟨read.leading, read.links.reverse, read.compound.reverse⟩
  | .inl c :: rest =>
    match read.previous with
    | some before => throw (.adjacent before c within)
    | none =>
      if read.compound.isEmpty then
        if mode == .relative && read.links.isEmpty then
          splitFrom mode within ⟨some c, [], [], some c⟩ rest
        else throw (.dangling within)
      else
        splitFrom mode within
          ⟨read.leading, ⟨read.compound.reverse, c⟩ :: read.links, [], some c⟩ rest
  | .inr simple :: rest => do
    let s ← simple
    splitFrom mode within { read with compound := s :: read.compound, previous := none } rest

/-- The chain of the components of `within`, given as combinators and what
became of the simple selectors. The first fault in the order of the text wins. -/
def split (mode : ListMode) (within : Complex)
    (parts : List (Combinator ⊕ Except SelectorError σ)) :
    Except SelectorError (Chain (List σ)) :=
  splitFrom mode within ⟨none, [], [], none⟩ parts

end Chain

end DomQuery.Selector
