import DomQuery.Proofs.Form.Controls
import DomQuery.Proofs.Query.Single
import DomQuery.Proofs.Tree.Elements

/-!
# Validity of forms and fieldsets

A form is as valid as the controls inside, and so is a fieldset. They are looked for
below it, and a form or fieldset that is found there says nothing itself: it is no
control, and what is below it is looked at as well. `:has(:invalid)` does ask it, and
comes to the same (`exists_invalid_iff`), for an invalid control below the one inside
is below the one outside too.

* `container_validity`: `:invalid` is `:has(:invalid)`, and `:valid` its opposite.
-/

namespace DomQuery.Query

open DomQuery.Form DomQuery.Selector DomQuery.Tree

variable {ν : Type}

/-- `n` is a form or a fieldset. -/
def IsContainer (t : Links ν) (n : ν) : Prop :=
  t.isHtmlNamed n "form" = true ∨ t.isHtmlNamed n "fieldset" = true

namespace IsContainer

variable {t : Links ν} {n : ν} (h : IsContainer t n)
include h

theorem isElement : t.isElement n = true :=
  h.elim Links.isElement_of_isHtmlNamed Links.isElement_of_isHtmlNamed

theorem localName_eq : t.localName n = "form" ∨ t.localName n = "fieldset" :=
  h.imp Links.localName_of_isHtmlNamed Links.localName_of_isHtmlNamed

end IsContainer

/-- `:has(:invalid)` -/
def hasInvalid : Simple :=
  .has [⟨none, [], [.keyword .invalid]⟩]

/-- `:not(:has(:invalid))` -/
def hasNoInvalid : Simple :=
  .matchesNone [⟨none, [], [hasInvalid]⟩]

variable [DecidableEq ν]

namespace Context

variable {ctx : Context ν} {f n : ν}

theorem validity?_of_isContainer (h : IsContainer ctx.tree.toLinks n) :
    ctx.validity? n =
      some ((ctx.tree.walk n).all fun m => ctx.controlValidity? m != some false) := by
  rw [validity?, if_pos (by rwa [Bool.or_eq_true])]

theorem validity?_of_not_isContainer (h : ¬ IsContainer ctx.tree.toLinks n) :
    ctx.validity? n = ctx.controlValidity? n := by
  rw [validity?, if_neg (by rwa [Bool.or_eq_true])]

/-- A form or a fieldset is no control. -/
theorem controlValidity?_of_isContainer (h : IsContainer ctx.tree.toLinks n) :
    ctx.controlValidity? n = none := by
  have hname : validated.contains (ctx.tree.localName n) = false := by
    rcases h.localName_eq with h | h <;> rw [h] <;> rfl
  rw [controlValidity?, hname]
  simp

theorem validity?_eq_false_iff (h : IsContainer ctx.tree.toLinks n) :
    ctx.validity? n = some false ↔ ∃ m ∈ ctx.tree.walk n, ctx.controlValidity? m = some false := by
  rw [validity?_of_isContainer h, Option.some.injEq, List.all_eq_false]
  simp only [Bool.not_eq_true, bne_eq_false_iff_eq]

/-- What is asked for below a container is answered by the controls there, for what is
below a container inside is below the one outside. -/
theorem exists_invalid_iff (ht : ctx.tree.WellFormed) :
    (∃ m ∈ ctx.tree.walk f, ctx.validity? m = some false) ↔
      ∃ m ∈ ctx.tree.walk f, ctx.controlValidity? m = some false := by
  constructor
  · rintro ⟨m, hm, hinvalid⟩
    by_cases hc : IsContainer ctx.tree.toLinks m
    · obtain ⟨x, hx, hinvalid⟩ := (validity?_eq_false_iff hc).mp hinvalid
      obtain ⟨hex, hbelow⟩ := ht.mem_walk.mp hx
      exact ⟨x, ht.mem_walk.mpr ⟨hex, (ht.mem_walk.mp hm).2.trans hbelow⟩, hinvalid⟩
    · rw [validity?_of_not_isContainer hc] at hinvalid
      exact ⟨m, hm, hinvalid⟩
  · rintro ⟨m, hm, hinvalid⟩
    refine ⟨m, hm, ?_⟩
    have hc : ¬ IsContainer ctx.tree.toLinks m := fun hc => by
      rw [controlValidity?_of_isContainer hc] at hinvalid
      cases hinvalid
    rwa [validity?_of_not_isContainer hc]

/-- The test for an invalid element below a container. -/
def invalidBelow (ctx : Context ν) (f : ν) : Bool :=
  (ctx.tree.walk f).any fun m => ctx.validity? m == some false

theorem invalidBelow_iff (ht : ctx.tree.WellFormed) :
    ctx.invalidBelow f = true ↔ ∃ n, ctx.tree.isElement n = true ∧ ctx.tree.Below f n ∧
      ctx.controlValidity? n = some false := by
  rw [invalidBelow, List.any_eq_true]
  simp only [beq_iff_eq]
  rw [exists_invalid_iff ht]
  simp only [ht.mem_walk, and_assoc]

theorem validity?_eq (ht : ctx.tree.WellFormed) (h : IsContainer ctx.tree.toLinks f) :
    ctx.validity? f = some !ctx.invalidBelow f := by
  have hiff : ctx.validity? f = some false ↔ ctx.invalidBelow f = true := by
    rw [validity?_eq_false_iff h, ← exists_invalid_iff ht, invalidBelow, List.any_eq_true]
    simp only [beq_iff_eq]
  obtain ⟨valid, hvalid⟩ : ∃ valid, ctx.validity? f = some valid := ⟨_, validity?_of_isContainer h⟩
  rw [hvalid, Option.some.injEq] at hiff
  rw [hvalid, Option.some.injEq]
  cases valid <;> cases hb : ctx.invalidBelow f <;> simp [hb] at hiff ⊢

section Tests

variable (ht : ctx.tree.WellFormed) (h : IsContainer ctx.tree.toLinks f) (forgive : Bool)
include ht h

theorem holdsSimple_invalid :
    ctx.holdsSimple forgive (.keyword .invalid) f = pure (ctx.invalidBelow f) := by
  rw [holdsSimple_keyword h.isElement, holdsKeyword, validity?_eq ht h]
  cases ctx.invalidBelow f <;> rfl

theorem holdsSimple_valid :
    ctx.holdsSimple forgive (.keyword .valid) f = pure !ctx.invalidBelow f := by
  rw [holdsSimple_keyword h.isElement, holdsKeyword, validity?_eq ht h]
  cases ctx.invalidBelow f <;> rfl

theorem holdsSimple_hasInvalid :
    ctx.holdsSimple forgive hasInvalid f = pure (ctx.invalidBelow f) :=
  holdsSimple_has h.isElement rfl fun m hm => by
    rw [holdsSimple_keyword (ht.mem_walk.mp hm).1, holdsKeyword]

theorem holdsSimple_hasNoInvalid :
    ctx.holdsSimple forgive hasNoInvalid f = pure !ctx.invalidBelow f :=
  holdsSimple_matchesNone h.isElement (holdsSimple_hasInvalid ht h false)

end Tests

end Context

/-! ### Asked as selectors -/

/-- What is looked for by `:has()`, if that is a single simple selector. -/
def has? : Simple → Option Simple
  | .has branches => single? branches
  | _ => none

/-- What is ruled out by `:not()`, if that is a single simple selector. -/
def ruledOut? : Simple → Option Simple
  | .matchesNone branches => single? branches
  | _ => none

theorem eq_hasInvalid {s : Simple} (h : (has? s).bind keyword? = some .invalid) :
    s = hasInvalid := by
  obtain ⟨inner, hinner, hk⟩ := Option.bind_eq_some_iff.mp h
  unfold has? at hinner
  split at hinner
  · rw [single?_eq_some hinner, keyword?_eq_some hk, hasInvalid]
  · cases hinner

theorem spells_hasInvalid : SpellsSimple ":has(:invalid)" hasInvalid := by
  obtain ⟨s, hs, hhas⟩ := Option.bind_eq_some_iff.mp
    (by decide +kernel : ((simpleOf? ":has(:invalid)").bind fun s => (has? s).bind keyword?) =
      some .invalid)
  exact eq_hasInvalid hhas ▸ spells_of_simpleOf? hs

theorem spells_hasNoInvalid : SpellsSimple ":not(:has(:invalid))" hasNoInvalid := by
  obtain ⟨s, hs, hnot⟩ := Option.bind_eq_some_iff.mp
    (by decide +kernel : ((simpleOf? ":not(:has(:invalid))").bind fun s =>
      (ruledOut? s).bind fun inner => (has? inner).bind keyword?) = some .invalid)
  obtain ⟨inner, hinner, hhas⟩ := Option.bind_eq_some_iff.mp hnot
  unfold ruledOut? at hinner
  split at hinner
  · rw [single?_eq_some hinner, eq_hasInvalid hhas] at hs
    exact spells_of_simpleOf? hs
  · cases hinner

/-- A form or a fieldset matches `:invalid` if it matches `:has(:invalid)`, and `:valid` if
it matches `:not(:has(:invalid))`, wherever these stand in a selector. Asked on their own,
they have an answer: there is an invalid control below it. -/
theorem container_validity {tree : View ν} (ht : tree.WellFormed) {f : ν}
    (hf : IsContainer tree.toLinks f) :
    (∀ ctx : Context ν, ctx.tree = tree → ∀ forgive,
      ctx.holdsSimple forgive (.keyword .invalid) f = ctx.holdsSimple forgive hasInvalid f ∧
      ctx.holdsSimple forgive (.keyword .valid) f = ctx.holdsSimple forgive hasNoInvalid f) ∧
    ∀ warn, ∃ invalid,
      Says tree ":invalid" f warn invalid ∧ Says tree ":has(:invalid)" f warn invalid ∧
      Says tree ":valid" f warn (!invalid) ∧ Says tree ":not(:has(:invalid))" f warn (!invalid) ∧
      ∀ ctx, Context.of tree f warn = .ok ctx → (invalid = true ↔
        ∃ n, tree.isElement n = true ∧ tree.Below f n ∧ ctx.controlValidity? n = some false) := by
  refine ⟨?_, fun warn => ?_⟩
  · rintro ctx rfl forgive
    rw [Context.holdsSimple_invalid ht hf, Context.holdsSimple_hasInvalid ht hf,
      Context.holdsSimple_valid ht hf, Context.holdsSimple_hasNoInvalid ht hf]
    exact ⟨rfl, rfl⟩
  · have he := hf.isElement
    obtain ⟨ctx, hctx⟩ := Context.exists_of he warn
    obtain ⟨rfl, -, -⟩ := Context.of_ok hctx
    have hall {P : Context ν → Prop} (h : P ctx) :
        ∀ ctx', Context.of ctx.tree f warn = .ok ctx' → P ctx' := fun ctx' hctx' =>
      Except.ok.inj (hctx.symm.trans hctx') ▸ h
    have hinvalid : SpellsSimple ":invalid" (.keyword .invalid) := spells_controlState (by decide)
    have hvalid : SpellsSimple ":valid" (.keyword .valid) := spells_controlState (by decide)
    exact ⟨ctx.invalidBelow f,
      hinvalid.answers he (hall (Context.holdsSimple_invalid ht hf false)),
      spells_hasInvalid.answers he (hall (Context.holdsSimple_hasInvalid ht hf false)),
      hvalid.answers he (hall (Context.holdsSimple_valid ht hf false)),
      spells_hasNoInvalid.answers he (hall (Context.holdsSimple_hasNoInvalid ht hf false)),
      hall (Context.invalidBelow_iff ht)⟩

/-! ### A fieldset in a form -/

section Sheet

open Document

/-- A form with two fieldsets. The first one is disabled, and so is the control inside;
the control inside of the second one is missing a value. -/
def sheet : Document :=
  (Document.empty .html).run
    [.createElement "form", .append root ⟨1⟩,
      .createElement "fieldset", .setAttribute ⟨2⟩ "disabled" "", .append ⟨1⟩ ⟨2⟩,
      .createElement "input", .setAttribute ⟨3⟩ "required" "", .append ⟨2⟩ ⟨3⟩,
      .createElement "fieldset", .append ⟨1⟩ ⟨4⟩,
      .createElement "input", .setAttribute ⟨5⟩ "required" "", .append ⟨4⟩ ⟨5⟩]

theorem wellFormed_sheet : sheet.view.WellFormed :=
  Regular.wellFormed (by decide +kernel) (Reachable.run (.empty .html) _).coherent

theorem container_validity_sheet : sheet.view.WellFormed ∧
    IsContainer sheet.links ⟨1⟩ ∧ IsContainer sheet.links ⟨2⟩ ∧
    Says sheet.view ":invalid" ⟨1⟩ false true ∧ Says sheet.view ":has(:invalid)" ⟨1⟩ false true ∧
    Says sheet.view ":valid" ⟨2⟩ false true ∧
    Says sheet.view ":not(:has(:invalid))" ⟨2⟩ false true := by
  have hform : IsContainer sheet.links ⟨1⟩ := .inl (by decide +kernel)
  have hfieldset : IsContainer sheet.links ⟨2⟩ := .inr (by decide +kernel)
  have hinvalid : Says sheet.view ":invalid" ⟨1⟩ false true := by decide +kernel
  have hvalid : Says sheet.view ":valid" ⟨2⟩ false true := by decide +kernel
  obtain ⟨b, hb, hhas, -⟩ := (container_validity wellFormed_sheet hform).2 false
  obtain ⟨b', -, -, hb', hnot, -⟩ := (container_validity wellFormed_sheet hfieldset).2 false
  obtain rfl := hb.unique hinvalid
  rw [hb'.unique hvalid] at hnot
  exact ⟨wellFormed_sheet, hform, hfieldset, hb, hhas, hvalid, hnot⟩

end Sheet

end DomQuery.Query
