import DomQuery.Proofs.Form.Controls
import DomQuery.Proofs.Query.Search
import DomQuery.Proofs.Query.Single
import DomQuery.Proofs.Tree.Elements

/-!
# Default buttons

A form should have the first of the submit buttons that it owns as its default. What is
looked for is the first submit button inside of the form (`isDefault_iff`), which may be
owned by another form; and what a form owns may be outside of it. So the form has no
default if the first button inside is not its own, and another one than expected if its
first button is outside, before those inside. For all else there is just one default, the
first button of the form (`default_button`).
-/

namespace DomQuery.Query

open DomQuery.Document DomQuery.Form DomQuery.Selector DomQuery.Tree

namespace Context

variable {ν : Type} [DecidableEq ν] (ctx : Context ν)

/-- `n` is a submit button that `form` owns. -/
def Owns (form n : ν) : Prop :=
  isSubmitButton ctx.tree.toLinks n = true ∧ ctx.formOwner n = some form

/-- `n` is a submit button that `form` owns, in the tree of the form. -/
def OwnsHere (form n : ν) : Prop :=
  ctx.Owns form n ∧ ctx.tree.SameTree form n

/-- `n` is a submit button inside of `form`, whoever owns it. -/
def Encloses (form n : ν) : Prop :=
  isSubmitButton ctx.tree.toLinks n = true ∧ ctx.tree.Reaches form n

/-- If `form` owns submit buttons in its tree, the first of them is its default, and no
other button that it owns is. If it owns none there, it has no default. -/
structure HasOneDefault (form : ν) : Prop where
  of_owned : (∃ n, ctx.OwnsHere form n) → ∃ n, ctx.IsEarliest (ctx.OwnsHere form) (some n) ∧
    ∀ m, ctx.Owns form m → (ctx.isDefault m = true ↔ m = n)
  of_none : (¬ ∃ n, ctx.OwnsHere form n) → ∀ m, ctx.Owns form m → ctx.isDefault m = false

variable {ctx} {form m n : ν}

/-! ### One button -/

theorem isDefault_of_owns (h : ctx.Owns form n) :
    ctx.isDefault n =
      ((ctx.tree.walk form).find? (isSubmitButton ctx.tree.toLinks) == some n) := by
  obtain ⟨hsubmit, howner⟩ := h
  rw [isDefault, hsubmit, howner, Bool.true_and]
  rcases isSubmitButton_cases hsubmit with ⟨hbutton, htype⟩ | htype | htype
  · rw [htype, Links.isHtmlNamed_of_ne hbutton (by decide)]
    rfl
  all_goals
    rw [htype, Links.isHtmlNamed_of_ne (isHtmlNamed_of_inputType? htype) (by decide)]
    rfl

/-- Whether a node is a default is not a matter of the context node. -/
theorem isDefault_congr {ctx' : Context ν} (htree : ctx'.tree = ctx.tree)
    (hdocument : ctx'.document = ctx.document) : ctx'.isDefault n = ctx.isDefault n := by
  simp only [isDefault, formOwner, elementById, htree, hdocument]

/-! ### The buttons of a form -/

section Forms

variable (ht : ctx.tree.IsForest)

include ht

omit [DecidableEq ν] in
theorem Encloses.sameTree (h : ctx.Encloses form n) : ctx.tree.SameTree form n :=
  ht.sameTree_of_within h.2.below.within

/-- A form that owns buttons in its tree owns a first one there. -/
theorem exists_isEarliest_ownsHere (h : ctx.OwnsHere form n) :
    ∃ first, ctx.IsEarliest (ctx.OwnsHere form) (some first) := by
  classical
  obtain ⟨nodes, -, hmem⟩ := ht.finite
  have hlisted {m : ν} (hm : ctx.OwnsHere form m) :
      m ∈ (ctx.tree.topmost form :: nodes).filter fun m => decide (ctx.OwnsHere form m) := by
    refine List.mem_filter.mpr ⟨?_, decide_eq_true hm⟩
    rw [hm.2]
    rcases Links.within_iff.mp (ht.within_topmost m) with htop | hbelow
    · exact List.mem_cons.mpr (.inl htop)
    · obtain ⟨p, hp, -⟩ := Links.below_iff_parent.mp hbelow
      exact List.mem_cons_of_mem _ (hmem m p hp).1
  obtain ⟨first, hfirst, hearliest⟩ := ht.exists_first_of_sameTree
    (List.ne_nil_of_mem (hlisted h)) fun x hx y hy =>
      (of_decide_eq_true (List.mem_filter.mp hx).2).2.symm.trans
        (of_decide_eq_true (List.mem_filter.mp hy).2).2
  exact ⟨first, of_decide_eq_true (List.mem_filter.mp hfirst).2,
    fun m hm => hearliest m (hlisted hm)⟩

variable (hk : ∀ {n p}, ctx.tree.parent n = some p →
  ctx.tree.kind p = .document ∨ ctx.tree.kind p = .fragment ∨ ctx.tree.kind p = .element)

include hk

/-- A button of a form is the default one if it is the first of those inside. -/
theorem isDefault_iff (h : ctx.Owns form n) :
    ctx.isDefault n = true ↔ ctx.IsEarliest (ctx.Encloses form) (some n) := by
  rw [isDefault_of_owns h, beq_iff_eq,
    Links.find?_eq_some_iff_of_pairwise ht.before_asymm (ht.pairwise_walk hk form)]
  simp only [IsEarliest, Encloses, ht.mem_walk_iff_reaches hk]

theorem default_unique (hm : ctx.Owns form m) (hn : ctx.Owns form n)
    (hdm : ctx.isDefault m = true) (hdn : ctx.isDefault n = true) : m = n :=
  Option.some.inj (((isDefault_iff ht hk hm).mp hdm).unique ht ((isDefault_iff ht hk hn).mp hdn))

/-- A default is in the tree of its form. -/
theorem ownsHere_of_isDefault (h : ctx.Owns form n) (hd : ctx.isDefault n = true) :
    ctx.OwnsHere form n :=
  ⟨h, ((isDefault_iff ht hk h).mp hd).1.sameTree ht⟩

/-- The default is the expected one if the first button of the form is inside of it, and before
those inside that belong to another form. -/
theorem hasOneDefault_iff : ctx.HasOneDefault form ↔
    ∀ n, ctx.IsEarliest (ctx.OwnsHere form) (some n) → ctx.tree.Reaches form n ∧
      ∀ m, ctx.Encloses form m → ¬ ctx.Owns form m → ctx.tree.Before n m := by
  constructor
  · intro h n hfirst
    obtain ⟨n', hfirst', hdefault⟩ := h.of_owned ⟨n, hfirst.1⟩
    obtain rfl := Option.some.inj (hfirst.unique ht hfirst')
    obtain ⟨hencloses, hbefore⟩ :=
      (isDefault_iff ht hk hfirst.1.1).mp ((hdefault n hfirst.1.1).mpr rfl)
    refine ⟨hencloses.2, fun m hm hother => (hbefore m hm).resolve_left ?_⟩
    rintro rfl
    exact hother hfirst.1.1
  · intro h
    refine ⟨fun ⟨n, hn⟩ => ?_, fun hnone m hm => ?_⟩
    · obtain ⟨first, hfirst⟩ := exists_isEarliest_ownsHere ht hn
      obtain ⟨hreaches, hothers⟩ := h first hfirst
      have hdefault : ctx.isDefault first = true := by
        refine (isDefault_iff ht hk hfirst.1.1).mpr ⟨⟨hfirst.1.1.1, hreaches⟩, fun m hm => ?_⟩
        by_cases howns : ctx.Owns form m
        · exact hfirst.2 m ⟨howns, hm.sameTree ht⟩
        · exact .inr (hothers m hm howns)
      refine ⟨first, hfirst, fun m hm => ⟨fun hdm => ?_, ?_⟩⟩
      · exact default_unique ht hk hm hfirst.1.1 hdm hdefault
      · rintro rfl
        exact hdefault
    · rw [← Bool.not_eq_true]
      exact fun hd => hnone ⟨m, ownsHere_of_isDefault ht hk hm hd⟩

end Forms

end Context

/-! ### In a document -/

/-- Default buttons in a document. Of the buttons that a form owns, `:default` matches the one
that is the first submit button inside of the form. That is one at most, and none if the form
owns no button in its tree. If the form owns some, it is the first of them, provided that this
is inside of the form and before all buttons inside that it does not own; else it is not. -/
theorem default_button {d : Document} (h : d.Reachable) {node : NodeId} {warn : Bool}
    {ctx : Context NodeId} (hc : Context.of d.view node warn = .ok ctx) (form : NodeId) :
    (∀ n, ctx.Owns form n → Says d.view ":default" n warn (ctx.isDefault n) ∧
      (ctx.isDefault n = true ↔ ctx.IsEarliest (ctx.Encloses form) (some n))) ∧
    (∀ m n, ctx.Owns form m → ctx.Owns form n → ctx.isDefault m = true →
      ctx.isDefault n = true → m = n) ∧
    ((¬ ∃ n, ctx.OwnsHere form n) → ∀ n, ctx.Owns form n → ctx.isDefault n = false) ∧
    (ctx.HasOneDefault form ↔
      ∀ n, ctx.IsEarliest (ctx.OwnsHere form) (some n) → ctx.tree.Reaches form n ∧
        ∀ m, ctx.Encloses form m → ¬ ctx.Owns form m → ctx.tree.Before n m) := by
  obtain ⟨htree, -, -⟩ := Context.of_ok hc
  have ht : ctx.tree.IsForest := htree ▸ h.coherent.linked.isForest
  have hk : ∀ {n p}, ctx.tree.parent n = some p →
      ctx.tree.kind p = .document ∨ ctx.tree.kind p = .fragment ∨ ctx.tree.kind p = .element :=
    htree ▸ h.coherent.canHold
  have ho := h.coherent.hasOwners_view
  refine ⟨fun n hn => ⟨?_, Context.isDefault_iff ht hk hn⟩,
    fun m n hm hn => Context.default_unique ht hk hm hn, fun hnone n hn => ?_,
    Context.hasOneDefault_iff ht hk⟩
  · have he : d.view.isElement n = true := htree ▸ isElement_of_isSubmitButton hn.1
    refine says_controlState (k := .default) (by decide) he fun ctx' hc' => ?_
    obtain ⟨htree', -, -⟩ := Context.of_ok hc'
    -- the document of a node is that of any other
    have hdocument : ctx'.document = ctx.document := by
      rw [Context.document_of ho hc', Context.document_of ho hc]
      rfl
    rw [Context.holdsKeyword, Context.isDefault_congr (htree'.trans htree.symm) hdocument]
  · rw [← Bool.not_eq_true]
    exact fun hd => hnone ⟨n, Context.ownsHere_of_isDefault ht hk hn hd⟩

/-! ### Forms with and without a default -/

/-- A form with two buttons, and two more forms: in the last one, there is a button of the
form before it, and one of its own. -/
def forms : Document :=
  (Document.empty .html).run
    [.createElement "form", .append root ⟨1⟩,
      .createElement "input", .setAttribute ⟨2⟩ "type" "submit", .append ⟨1⟩ ⟨2⟩,
      .createElement "button", .append ⟨1⟩ ⟨3⟩,
      .createElement "form", .setAttribute ⟨4⟩ "id" "f", .append root ⟨4⟩,
      .createElement "form", .append root ⟨5⟩,
      .createElement "button", .setAttribute ⟨6⟩ "form" "f", .append ⟨5⟩ ⟨6⟩,
      .createElement "button", .append ⟨5⟩ ⟨7⟩]

theorem reachable_forms : forms.Reachable :=
  (Reachable.empty .html).run _

theorem wellFormed_forms : forms.view.WellFormed :=
  Regular.wellFormed (by decide +kernel) reachable_forms.coherent

theorem default_button_forms : ∃ ctx, forms.Reachable ∧
    Context.of forms.view root false = .ok ctx ∧ ctx.Owns ⟨1⟩ ⟨2⟩ ∧ ctx.Owns ⟨1⟩ ⟨3⟩ ∧
    ctx.HasOneDefault ⟨1⟩ ∧ ctx.IsEarliest (ctx.Encloses ⟨1⟩) (some ⟨2⟩) ∧
    Says forms.view ":default" ⟨2⟩ false true ∧ ctx.isDefault ⟨3⟩ = false := by
  have heval : (Context.of forms.view root false).toOption.map (fun ctx =>
      (ctx.isDefault ⟨2⟩, ctx.formOwner ⟨2⟩, ctx.formOwner ⟨3⟩,
        (forms.view.walk root).filter fun n => ctx.formOwner n == some ⟨1⟩)) =
      some (true, some ⟨1⟩, some ⟨1⟩, [⟨2⟩, ⟨3⟩]) := by decide +kernel
  obtain ⟨ctx, hctx, h⟩ := exists_of_toOption_map heval
  simp only [Prod.mk.injEq] at h
  obtain ⟨hdefault, hfirst, hsecond, hall⟩ := h
  obtain ⟨htree, -, -⟩ := Context.of_ok hctx
  have ht := wellFormed_forms
  have hinside : forms.view.walk ⟨1⟩ = [⟨2⟩, ⟨3⟩] := by decide +kernel
  have hreaches {n : NodeId} : n ∈ [(⟨2⟩ : NodeId), ⟨3⟩] ↔ ctx.tree.Reaches ⟨1⟩ n := by
    rw [htree, ← hinside]
    exact ht.toIsForest.mem_walk_iff_reaches ht.kind_of_parent
  have hsubmit : ∀ n ∈ [(⟨2⟩ : NodeId), ⟨3⟩], isSubmitButton ctx.tree.toLinks n = true := by
    rw [htree]
    decide +kernel
  have howns : ∀ n ∈ [(⟨2⟩ : NodeId), ⟨3⟩], ctx.Owns ⟨1⟩ n := by
    intro n hn
    refine ⟨hsubmit n hn, ?_⟩
    rcases (by simpa using hn : n = ⟨2⟩ ∨ n = ⟨3⟩) with rfl | rfl
    · exact hfirst
    · exact hsecond
  obtain ⟨hanswer, hunique, -, hone⟩ := default_button reachable_forms hctx ⟨1⟩
  obtain ⟨hanswer, hearliest⟩ := hanswer ⟨2⟩ (howns _ (by simp))
  refine ⟨ctx, reachable_forms, hctx, howns _ (by simp), howns _ (by simp),
    hone.mpr fun n hn => ⟨?_, fun m hm hother => ?_⟩, hearliest.mp hdefault, hdefault ▸ hanswer, ?_⟩
  · -- all that the form owns is found inside of it
    obtain ⟨⟨hbutton, howner⟩, hsame⟩ := hn.1
    have he : forms.view.isElement n = true :=
      htree ▸ isElement_of_isSubmitButton hbutton
    have hroot : forms.view.topmost n = root :=
      (htree ▸ hsame.symm : forms.view.topmost n = forms.view.topmost ⟨1⟩).trans
        (by decide +kernel)
    have hwithin : forms.view.Within root n := hroot ▸ ht.within_topmost n
    have hbelow : forms.view.Below root n := (Links.within_iff.mp hwithin).resolve_left fun hn =>
      absurd (hn ▸ he) (by decide +kernel)
    rw [← hreaches, ← hall]
    exact List.mem_filter.mpr ⟨ht.mem_walk.mpr ⟨he, hbelow⟩, beq_iff_eq.mpr howner⟩
  · exact absurd (howns m (hreaches.mpr hm.2)) hother
  · rw [← Bool.not_eq_true]
    intro h
    exact absurd (hunique ⟨2⟩ ⟨3⟩ (howns _ (by simp)) (howns _ (by simp)) hdefault h) (by decide)

/-- So not every form has the default that it should have. Neither of the last two forms has
any, and each of them owns a button. -/
theorem forms_without_default : (¬ ∀ (d : Document), d.Reachable →
      ∀ node warn ctx, Context.of d.view node warn = .ok ctx →
        ∀ form, ctx.tree.isHtmlNamed form "form" = true → ctx.HasOneDefault form) ∧
    ∃ ctx, Context.of forms.view root false = .ok ctx ∧
      ctx.OwnsHere ⟨4⟩ ⟨6⟩ ∧ Says forms.view ":default" ⟨6⟩ false false ∧
      ctx.OwnsHere ⟨5⟩ ⟨7⟩ ∧ Says forms.view ":default" ⟨7⟩ false false := by
  have heval : (Context.of forms.view root false).toOption.map (fun ctx =>
      (ctx.formOwner ⟨6⟩, ctx.formOwner ⟨7⟩)) = some (some ⟨4⟩, some ⟨5⟩) := by decide +kernel
  obtain ⟨ctx, hctx, howners⟩ := exists_of_toOption_map heval
  obtain ⟨howner, howner'⟩ := Prod.mk.inj howners
  obtain ⟨htree, -, -⟩ := Context.of_ok hctx
  have hsubmit : ∀ n ∈ [(⟨6⟩ : NodeId), ⟨7⟩], isSubmitButton ctx.tree.toLinks n = true := by
    rw [htree]
    decide +kernel
  have hsame : ctx.tree.topmost ⟨4⟩ = ctx.tree.topmost ⟨6⟩ ∧
      ctx.tree.topmost ⟨5⟩ = ctx.tree.topmost ⟨7⟩ := by
    rw [htree]
    decide +kernel
  have howns : ctx.OwnsHere ⟨5⟩ ⟨7⟩ := ⟨⟨hsubmit _ (by simp), howner'⟩, hsame.2⟩
  refine ⟨fun hall => ?_, ctx, hctx, ⟨⟨hsubmit _ (by simp), howner⟩, hsame.1⟩, by decide +kernel,
    howns, by decide +kernel⟩
  have hform : ctx.tree.isHtmlNamed ⟨5⟩ "form" = true := by
    rw [htree]
    decide +kernel
  obtain ⟨n, hfirst, hdefault⟩ :=
    (hall forms reachable_forms root false ctx hctx ⟨5⟩ hform).of_owned ⟨_, howns⟩
  have hfound : (ctx.tree.walk ⟨5⟩).find? (isSubmitButton ctx.tree.toLinks) = some ⟨6⟩ := by
    rw [htree]
    decide +kernel
  have hn := (hdefault n hfirst.1.1).mpr rfl
  rw [Context.isDefault_of_owns hfirst.1.1, hfound, beq_iff_eq] at hn
  -- the button found belongs to the form before
  obtain rfl := Option.some.inj hn
  have hother := howner.symm.trans hfirst.1.1.2
  exact absurd (Option.some.inj hother) (by decide)

end DomQuery.Query
