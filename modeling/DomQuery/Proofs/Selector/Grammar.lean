import DomQuery.Proofs.Outcome
import DomQuery.Selector.Parser
import Mathlib.Data.List.Chain

/-!
# The grammar of simple selectors

Which items a simple selector is made of, apart from the reader that finds them. A
branch that is read is a sequence of simple selectors, combinators and white space, and
`readComponents_induct` is induction along that sequence.

* `Component.MadeOf`: the items of a simple selector.
* `Complex.TypesFirst`: compounds have no type selectors but at their beginning.
* `readAs_readSimple`: what is read as a simple selector is made of items at the front.
* `readComponents_induct`: induction along a branch that is read.
* `forall_readComponents`: what the items of a branch say of all its components.
-/

namespace DomQuery.Selector

open DomQuery.Css DomQuery.Text

/-- The item stands for the local name of a type selector. -/
inductive Item.Names : Item → String → Prop
  | ident (name : String) : Names (.token (.ident name)) name
  | star : Names (.token (.delim '*')) "*"

/-- What is written in front of a qualified name. -/
def Qualifier.items : Qualifier → List Item
  | .any => [.token (.delim '*'), .token (.delim '|')]
  | .none => [.token (.delim '|')]
  | .named p => [.token (.ident p), .token (.delim '|')]

/-- The items are those of the simple selector. -/
inductive Component.MadeOf : Component → List Item → Prop
  | type {i : Item} {name : String} (h : i.Names name) : MadeOf (.type ⟨none, name⟩) [i]
  | qualified (q : Qualifier) {i : Item} {name : String} (h : i.Names name) :
      MadeOf (.type ⟨some q, name⟩) (q.items ++ [i])
  | id (name : String) : MadeOf (.id name) [.token (.idHash name)]
  | className (name : String) :
      MadeOf (.className name) [.token (.delim '.'), .token (.ident name)]
  | attr (a : AttributeSelector) : MadeOf (.attr a) [.bracketed (.ok a)]
  | keyword (name : String) :
      MadeOf (.pseudoClass (lower name) none) [.token .colon, .token (.ident name)]
  | functional (name source : String) {argument : Read Argument} {a : Argument} {n m : Nat}
      (h : argument.run.run n = (.ok a, m)) :
      MadeOf (.pseudoClass (lower name) (some a)) [.token .colon, .function name argument source]
  | element (name : String) : MadeOf (.pseudoElement (lower name) none)
      [.token .colon, .token .colon, .token (.ident name)]
  | functionalElement (name source : String) (argument : Read Argument) :
      MadeOf (.pseudoElement (lower name) (some source))
        [.token .colon, .token .colon, .function name argument source]

theorem Component.MadeOf.ne_nil {c : Component} {taken : List Item} (h : c.MadeOf taken) :
    taken ≠ [] := by
  cases h with
  | qualified q => cases q <;> exact List.cons_ne_nil _ _
  | _ => exact List.cons_ne_nil _ _

/-- No bar with a name goes on here. -/
def Unbarred (items : List Item) : Prop :=
  ∀ i name rest, i.Names name → items ≠ .token (.delim '|') :: i :: rest

/-! ### Compounds -/

def Component.isCombinator : Component → Bool
  | .combinator _ => true
  | _ => false

/-- A type selector or the universal selector. -/
def Component.isType : Component → Bool
  | .type _ => true
  | _ => false

/-- The components between combinators. -/
def Complex.compounds (within : Complex) : List (List Component) :=
  within.components.splitOnP Component.isCombinator

/-- In each compound only the first simple selector may be a type selector. -/
def Complex.TypesFirst (within : Complex) : Prop :=
  ∀ compound ∈ within.compounds, ∀ c ∈ compound.tail, c.isType = false

instance : DecidablePred Complex.TypesFirst := fun within =>
  inferInstanceAs (Decidable (∀ compound ∈ within.compounds, ∀ c ∈ compound.tail, c.isType = false))

/-- Where there is a type selector, a combinator or nothing comes before. -/
def Apart (before c : Component) : Prop :=
  c.isType = true → before.isCombinator = true

theorem Complex.typesFirst_iff {within : Complex} :
    within.TypesFirst ↔ within.components.IsChain Apart := by
  obtain ⟨components⟩ := within
  unfold TypesFirst compounds
  rw [show (Complex.mk components).components = components from rfl]
  -- The first compound begins with the first component, unless that is a combinator.
  suffices h : ∃ first others, components.splitOnP Component.isCombinator = first :: others ∧
      (∀ c ∈ first.head?, components.head? = some c) ∧
      (∀ c ∈ components.head?, c.isType = true → first.head? = some c) ∧
      ((∀ compound ∈ first :: others, ∀ c ∈ compound.tail, c.isType = false) ↔
        components.IsChain Apart) by
    obtain ⟨first, others, heq, -, -, h⟩ := h
    rw [heq, h]
  induction components with
  | nil => exact ⟨[], [], rfl, by simp, by simp, by simp⟩
  | cons c rest ih =>
    obtain ⟨first, others, heq, hfirst, hhead, hiff⟩ := ih
    rw [List.splitOnP_cons_eq_if_modifyHead, heq]
    have hnext : (∀ d ∈ first, d.isType = false) ↔
        (∀ d ∈ rest.head?, d.isType = false) ∧ ∀ d ∈ first.tail, d.isType = false := by
      rcases first with _ | ⟨d, tail⟩
      · have hnone : ∀ d ∈ rest.head?, d.isType = false := fun d hd =>
          Bool.eq_false_iff.mpr fun ht => nomatch hhead d hd ht
        simpa using hnone
      · simp [hfirst d rfl]
    cases hc : c.isCombinator with
    | true =>
      refine ⟨[], first :: others, rfl, by simp, ?_, ?_⟩
      · rintro _ ⟨⟩ ht
        cases c <;> cases ht
        cases hc
      · rw [List.isChain_cons, ← hiff, List.forall_mem_cons]
        simp [Apart, hc]
    | false =>
      refine ⟨c :: first, others, rfl, by simp, by simp, ?_⟩
      have happart : ∀ d, Apart c d ↔ d.isType = false := by simp [Apart, hc]
      rw [List.isChain_cons, ← hiff, List.forall_mem_cons, List.forall_mem_cons, List.tail_cons,
        hnext]
      simp only [happart, and_assoc]

/-- What is read after the components, by whether white space comes between. -/
theorem apart_cons_joined {c : Component} {space : Bool} {components : List Component} :
    (c :: joined space components).IsChain (flip Apart) ↔ components.IsChain (flip Apart) ∧
      (c.isType = true → (endsCompound components && !space) = false) := by
  rcases components with _ | ⟨d, components⟩
  · simp [joined, endsCompound]
  · cases space <;> cases d <;>
      simp [joined, endsCompound, List.isChain_cons, flip, Apart, Component.isCombinator,
        Component.isType, and_comm]

/-! ### Readers -/

section Readers

variable {items rest after : List Item} {c : Component} {n m : Nat}

theorem barredType?_eq_some {q : Qualifier} (h : barredType? q items = some (c, after)) :
    ∃ i name, i.Names name ∧ items = i :: after ∧ c = .type ⟨some q, name⟩ := by
  unfold barredType? at h
  split at h
  · obtain ⟨rfl, rfl⟩ := Prod.mk.inj (Option.some.inj h)
    exact ⟨_, _, .ident _, rfl, rfl⟩
  · obtain ⟨rfl, rfl⟩ := Prod.mk.inj (Option.some.inj h)
    exact ⟨_, _, .star, rfl, rfl⟩
  · cases h

theorem barredType?_of_names (q : Qualifier) {i : Item} {name : String} (h : i.Names name) :
    barredType? q (i :: rest) = some (.type ⟨some q, name⟩, rest) := by
  cases h with
  | ident => rfl
  | star => rfl

/-- What is read of the items is made of those in front, and is read as far as it goes. -/
def ReadAs (items : List Item) (c : Component) (after : List Item) : Prop :=
  ∃ taken, c.MadeOf taken ∧ items = taken ++ after ∧
    ∀ t, c = .type t → t.qualifier = none → Unbarred after

theorem ReadAs.of_ne_type {taken : List Item} (h : c.MadeOf taken) (hc : ∀ t, c ≠ .type t) :
    ReadAs (taken ++ after) c after :=
  ⟨taken, h, rfl, fun t ht => absurd ht (hc t)⟩

theorem ReadAs.qualified (q : Qualifier) {i : Item} {name : String} (h : i.Names name) :
    ReadAs (q.items ++ i :: after) (.type ⟨some q, name⟩) after := by
  refine ⟨q.items ++ [i], .qualified q h, by simp, fun t ht hq => ?_⟩
  obtain rfl := Component.type.inj ht
  cases hq

theorem barredType?_eq_none {q : Qualifier} (h : Unbarred (.token (.delim '|') :: items)) :
    barredType? q items = none := by
  rcases hb : barredType? q items with _ | ⟨c, after⟩
  · rfl
  · obtain ⟨i, name, hi, rfl, -⟩ := barredType?_eq_some hb
    exact absurd rfl (h i name after hi)

theorem readSimple_of_names {i : Item} {name : String} (hi : i.Names name) (h : Unbarred after) :
    readSimple i after = pure (.type ⟨none, name⟩, after) := by
  have hplain : ∀ name?, readType name? after = (.type ⟨none, name?.getD "*"⟩, after) := by
    intro name?
    unfold readType
    split
    · rw [barredType?_eq_none h]
      rfl
    · rfl
  cases hi with
  | ident => exact congrArg pure (hplain (some name))
  | star => exact congrArg pure (hplain none)

theorem readSimple_of_qualified (q : Qualifier) {i j : Item} {name : String} (hj : j.Names name)
    (h : q.items ++ j :: after = i :: rest) :
    readSimple i rest = pure (.type ⟨some q, name⟩, after) := by
  have hbarred : ∀ q, barredType? q (j :: after) = some (.type ⟨some q, name⟩, after) :=
    fun q => barredType?_of_names q hj
  rcases q with _ | _ | p
  · obtain ⟨rfl, rfl⟩ := List.cons.inj h
    exact congrArg (fun r => pure (Option.getD r _)) (hbarred .any)
  · obtain ⟨rfl, rfl⟩ := List.cons.inj h
    change readSimple (.token (.delim '|')) (j :: after) = _
    rw [readSimple, hbarred]
  · obtain ⟨rfl, rfl⟩ := List.cons.inj h
    exact congrArg (fun r => pure (Option.getD r _)) (hbarred (.named p))

theorem readAs_barred {q : Qualifier} {i : Item} {name : String} {r : Component × List Item}
    (hi : i.Names name) (hq : q.items = [i, .token (.delim '|')])
    (hr : (barredType? q rest).getD (.type ⟨none, name⟩, .token (.delim '|') :: rest) = r) :
    ReadAs (i :: .token (.delim '|') :: rest) r.1 r.2 := by
  subst hr
  rcases hb : barredType? q rest with _ | ⟨c, after⟩
  · refine ⟨[i], .type hi, rfl, fun _ _ _ j name' tail hj heq => ?_⟩
    obtain ⟨-, rfl⟩ := List.cons.inj heq
    rw [barredType?_of_names q hj] at hb
    cases hb
  · obtain ⟨j, name', hj, rfl, rfl⟩ := barredType?_eq_some hb
    have hread : ReadAs (q.items ++ j :: after) (.type ⟨some q, name'⟩) after := .qualified q hj
    rw [hq] at hread
    exact hread

theorem readAs_readType {name : Option String} {i : Item} {r : Component × List Item}
    (hi : i.Names (name.getD "*"))
    (hq : ((name.map Qualifier.named).getD .any).items = [i, .token (.delim '|')])
    (hr : readType name rest = r) : ReadAs (i :: rest) r.1 r.2 := by
  unfold readType at hr
  split at hr
  · rcases name with _ | p
    · exact readAs_barred hi hq hr
    · exact readAs_barred hi hq hr
  · rename_i hbar
    subst hr
    exact ⟨[i], .type hi, rfl, fun _ _ _ j name' tail _ heq => hbar _ heq⟩

theorem readAs_readPseudo (h : (readPseudo items).run.run n = (.ok (c, after), m)) :
    ReadAs (.token .colon :: items) c after := by
  unfold readPseudo at h
  split at h
  · cases h
    exact .of_ne_type (.element _) nofun
  · cases h
    exact .of_ne_type (.functionalElement _ _ _) nofun
  · cases h
  · cases h
    exact .of_ne_type (.keyword _) nofun
  · rename_i name argument source rest
    rw [run_bind] at h
    rcases ha : argument.run.run n with ⟨e | a, n'⟩
    · rw [ha] at h
      cases h
    · rw [ha] at h
      cases h
      exact .of_ne_type (.functional name source ha) nofun
  · cases h

/-- What is read as a simple selector is made of the items at the front. -/
theorem readAs_readSimple {item : Item}
    (h : (readSimple item rest).run.run n = (.ok (c, after), m)) : ReadAs (item :: rest) c after := by
  unfold readSimple at h
  split at h
  · rename_i name
    obtain ⟨hr, -⟩ := Prod.mk.inj h
    exact readAs_readType (.ident name) rfl (Except.ok.inj hr)
  · obtain ⟨hr, -⟩ := Prod.mk.inj h
    exact readAs_readType .star rfl (Except.ok.inj hr)
  · split at h
    · rename_i hb
      cases h
      obtain ⟨i, name, hi, rfl, rfl⟩ := barredType?_eq_some hb
      exact .qualified .none hi
    · cases h
  · cases h
    exact .of_ne_type (.id _) nofun
  · split at h
    · cases h
      exact .of_ne_type (.className _) nofun
    · cases h
  · split at h
    · cases h
      exact .of_ne_type (.attr _) nofun
    · cases h
  · exact readAs_readPseudo h
  · cases h

/-- Induction along a branch that is read as `out`: `components` were read so far, last first. -/
theorem readComponents_induct {out : List Component}
    {motive : Bool → List Component → List Item → Prop}
    (nil : ∀ space components, out = components.reverse → components ≠ [] →
      motive space components [])
    (space : ∀ space components item rest, item.first.isWhitespace = true →
      motive true components rest → motive space components (item :: rest))
    (combinator : ∀ space components item rest c, combinator? item = some c →
      motive false (.combinator c :: components) rest → motive space components (item :: rest))
    (simple : ∀ space components items c after, ReadAs items c after →
      motive false (c :: joined space components) after → motive space components items)
    {fuel : Nat} {between : Bool} {components : List Component} (hlength : items.length ≤ fuel)
    (h : (readComponents fuel between components items).run.run n = (.ok out, m)) :
    motive between components items := by
  induction fuel generalizing between components items n with
  | zero =>
    obtain rfl := List.length_eq_zero_iff.mp (Nat.le_zero.mp hlength)
    rcases components with _ | ⟨c, components⟩
    · cases h
    · cases h
      exact nil _ _ rfl (List.cons_ne_nil _ _)
  | succ fuel ih =>
    rcases items with _ | ⟨item, rest⟩
    · rcases components with _ | ⟨c, components⟩
      · cases h
      · cases h
        exact nil _ _ rfl (List.cons_ne_nil _ _)
    have hrest : rest.length ≤ fuel := Nat.le_of_succ_le_succ hlength
    rw [readComponents] at h
    split at h
    · exact space _ _ _ _ ‹_› (ih hrest h)
    split at h
    · exact combinator _ _ _ _ _ ‹_› (ih hrest h)
    · rw [run_bind] at h
      rcases hs : (readSimple item rest).run.run n with ⟨e | ⟨c, after⟩, n'⟩
      · rw [hs] at h
        cases h
      · rw [hs] at h
        have hread := readAs_readSimple hs
        refine simple _ _ _ c after hread (ih ?_ h)
        obtain ⟨taken, htaken, heq, -⟩ := hread
        have hlen := congrArg List.length heq
        have := List.length_pos_iff.mpr htaken.ne_nil
        rw [List.length_cons, List.length_append] at hlen
        omega

theorem mem_joined {c : Component} {space : Bool} {components : List Component}
    (h : c ∈ joined space components) : c = .combinator .descendant ∨ c ∈ components := by
  unfold joined at h
  split at h
  · exact List.mem_cons.mp h
  · exact .inr h

/-- What holds of combinators, and of simple selectors that are made of good items, holds of
all that is read from good items. -/
theorem forall_readComponents {good : Item → Prop} {fine : Component → Prop}
    (hcombinator : ∀ combinator, fine (.combinator combinator))
    (hsimple : ∀ c taken, Component.MadeOf c taken → (∀ i ∈ taken, good i) → fine c)
    {fuel : Nat} {space : Bool} {components out : List Component} (hlength : items.length ≤ fuel)
    (h : (readComponents fuel space components items).run.run n = (.ok out, m))
    (hitems : ∀ i ∈ items, good i) (hcomponents : ∀ c ∈ components, fine c) : ∀ c ∈ out, fine c := by
  revert hitems hcomponents
  refine readComponents_induct (motive := fun _ components items => (∀ i ∈ items, good i) →
    (∀ c ∈ components, fine c) → ∀ c ∈ out, fine c) ?_ ?_ ?_ ?_ hlength h
  · rintro space components rfl - - hcomponents c hc
    exact hcomponents c (List.mem_reverse.mp hc)
  · rintro space components item rest - ih hitems
    exact ih (List.forall_mem_cons.mp hitems).2
  · rintro space components item rest c - ih hitems hcomponents
    exact ih (List.forall_mem_cons.mp hitems).2
      (List.forall_mem_cons.mpr ⟨hcombinator c, hcomponents⟩)
  · rintro space components _ c after ⟨taken, hc, rfl, -⟩ ih hitems hcomponents
    obtain ⟨htaken, hafter⟩ := List.forall_mem_append.mp hitems
    refine ih hafter (List.forall_mem_cons.mpr ⟨hsimple c taken hc htaken, fun c' hc' => ?_⟩)
    rcases mem_joined hc' with rfl | hc'
    · exact hcombinator .descendant
    · exact hcomponents c' hc'

end Readers

end DomQuery.Selector
