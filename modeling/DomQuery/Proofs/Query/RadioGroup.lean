import DomQuery.Proofs.Document.Answers
import DomQuery.Proofs.Form.Controls
import DomQuery.Proofs.Query.AlikeSearch
import DomQuery.Proofs.Tree.Elements

/-!
# Groups of radio buttons

Buttons that have a name and an owner in common form a group, which is looked for
below the owner, or in the whole tree if there is none (`groupScope`). A button that
is not below its scope is not found in its own group: the owner that it names may be
elsewhere, and without an owner it may be the top of its tree. For all else a group
is what one expects (`radioGroup_members`): of two buttons of a tree that have name
and owner in common, one is in the group of the other if it is in its own, and a
button in its own group is not indeterminate while it is checked.
-/

namespace DomQuery.Query

open DomQuery.Document DomQuery.Form DomQuery.Tree

namespace Context

variable {ν : Type} [DecidableEq ν] (ctx : Context ν)

/-- `n` is a radio button with a name. -/
structure IsNamedRadio (n : ν) : Prop where
  inputType_eq : inputType? ctx.tree.toLinks n = some .radio
  name_ne : (ctx.tree.attribute? n "name").getD "" ≠ ""

/-- Where the group of `n` is looked for. -/
def groupScope (n : ν) : ν :=
  (ctx.formOwner n).getD (ctx.tree.topmost n)

/-- The nodes have their name and their owner in common. -/
def SharesGroup (m n : ν) : Prop :=
  ctx.tree.attribute? m "name" = ctx.tree.attribute? n "name" ∧ ctx.formOwner m = ctx.formOwner n

variable {ctx} {m n r : ν}

theorem SharesGroup.symm (h : ctx.SharesGroup m n) : ctx.SharesGroup n m :=
  ⟨h.1.symm, h.2.symm⟩

namespace IsNamedRadio

omit [DecidableEq ν]

variable (hr : ctx.IsNamedRadio r)

include hr

theorem isHtmlNamed_input : ctx.tree.isHtmlNamed r "input" = true :=
  isHtmlNamed_of_inputType? hr.inputType_eq

theorem isElement : ctx.tree.isElement r = true :=
  Links.isElement_of_isHtmlNamed hr.isHtmlNamed_input

theorem attribute?_eq :
    ctx.tree.attribute? r "name" = some ((ctx.tree.attribute? r "name").getD "") := by
  have h := hr.name_ne
  cases hname : ctx.tree.attribute? r "name" with
  | none => exact absurd (by rw [hname]; rfl) h
  | some name => rfl

end IsNamedRadio

/-! ### The state of a button -/

section State

theorem isGroupUnchecked_eq_true :
    ctx.isGroupUnchecked r = true ↔ ∀ m ∈ ctx.radioGroup r, ctx.tree.isChecked m = false := by
  rw [isGroupUnchecked, Bool.not_eq_true', List.any_eq_false]
  simp only [Bool.not_eq_true]

variable (hr : ctx.IsNamedRadio r)

include hr

omit [DecidableEq ν] in
theorem isChecked_radio : Form.isChecked ctx.tree r = ctx.tree.isChecked r := by
  rw [Form.isChecked, hr.inputType_eq]

theorem isIndeterminate_radio : ctx.isIndeterminate r = ctx.isGroupUnchecked r := by
  rw [isIndeterminate, hr.inputType_eq]

/-- A required button is missing a value while its group is unchecked. -/
theorem isValueMissing_radio : ctx.isValueMissing r =
    (ctx.tree.hasAttribute r "required" && ctx.isGroupUnchecked r) := by
  have hselect : ctx.tree.isHtmlNamed r "select" = false :=
    Links.isHtmlNamed_of_ne hr.isHtmlNamed_input (by decide)
  have hrequired : required? ctx.tree.toLinks r = some (ctx.tree.hasAttribute r "required") := by
    rw [required?, hr.inputType_eq]
    exact if_pos (Bool.or_true _)
  rw [isValueMissing, hrequired, hselect, hr.inputType_eq]
  cases ctx.tree.hasAttribute r "required" <;> rfl

end State

/-! ### Who is in the group -/

section Members

variable (ht : ctx.tree.IsForest) (hk : ∀ {n p}, ctx.tree.parent n = some p →
  ctx.tree.kind p = .document ∨ ctx.tree.kind p = .fragment ∨ ctx.tree.kind p = .element)

include ht

omit [DecidableEq ν] in
/-- A path of elements leads from the elements around a node down to it. -/
theorem reaches_of_mem_elementAncestors {a : ν} (hn : ctx.tree.isElement n = true)
    (ha : a ∈ elementAncestors ctx.tree.toLinks n) : ctx.tree.Reaches a n := by
  induction n using ht.induction with
  | top n hp =>
    rw [elementAncestors, Links.ancestors_of_parent_none hp] at ha
    cases ha
  | child n p hp ih =>
    rw [elementAncestors, ht.ancestors_of_parent hp, List.takeWhile_cons] at ha
    split at ha
    · rename_i hep
      rcases List.mem_cons.mp ha with rfl | ha
      · exact .single ⟨hp, hn⟩
      · exact (ih hep ha).tail ⟨hp, hn⟩
    · cases ha

include hk

theorem mem_radioGroup (hr : ctx.IsNamedRadio r) : m ∈ ctx.radioGroup r ↔
    ctx.IsNamedRadio m ∧ ctx.SharesGroup m r ∧ ctx.tree.Reaches (ctx.groupScope r) m := by
  rw [radioGroup, if_neg (by simpa using hr.name_ne), List.mem_filter,
    ht.mem_walk_iff_reaches hk, Bool.and_eq_true, Bool.and_eq_true, beq_iff_eq, beq_iff_eq,
    beq_iff_eq, ← hr.attribute?_eq]
  constructor
  · rintro ⟨hreach, ⟨htype, hname⟩, howner⟩
    exact ⟨⟨htype, hname ▸ hr.name_ne⟩, ⟨hname, howner⟩, hreach⟩
  · rintro ⟨hm, ⟨hname, howner⟩, hreach⟩
    exact ⟨hreach, ⟨hm.inputType_eq, hname⟩, howner⟩

/-- A button is in its own group if it is below the scope of it. -/
theorem mem_radioGroup_self (hr : ctx.IsNamedRadio r) :
    r ∈ ctx.radioGroup r ↔ ctx.tree.Reaches (ctx.groupScope r) r := by
  rw [mem_radioGroup ht hk hr]
  exact ⟨fun h => h.2.2, fun h => ⟨hr, ⟨rfl, rfl⟩, h⟩⟩

/-- A button that names no owner has one around it, or is not the top of its tree; then it
is in its own group, if fragments are at the top only. -/
theorem mem_radioGroup_self_of_no_form (hr : ctx.IsNamedRadio r)
    (hform : ctx.tree.attribute? r "form" = none) :
    (ctx.formOwner r ≠ none → r ∈ ctx.radioGroup r) ∧
      (ctx.tree.WellFormed → (r ∈ ctx.radioGroup r ↔ ctx.tree.parent r ≠ none)) := by
  have howner : ctx.formOwner r = (elementAncestors ctx.tree.toLinks r).find?
      fun form => ctx.tree.isHtmlNamed form "form" := by
    rw [formOwner, hform]
  have hself := mem_radioGroup_self ht hk hr
  have hinside : ctx.formOwner r ≠ none → r ∈ ctx.radioGroup r := fun hsome => by
    obtain ⟨form, hfind⟩ := Option.ne_none_iff_exists'.mp hsome
    rw [hself, groupScope, hfind]
    exact reaches_of_mem_elementAncestors ht hr.isElement
      (List.mem_of_find?_eq_some (howner ▸ hfind))
  refine ⟨hinside, fun hw => ⟨fun hmem hnone => ?_, fun hp => ?_⟩⟩
  · exact Links.not_below_of_parent_none hnone (hself.mp hmem).below
  · by_cases hnone : ctx.formOwner r = none
    · rw [hself, ← ht.mem_walk_iff_reaches hk, hw.mem_walk, groupScope, hnone]
      refine ⟨hr.isElement, (Links.within_iff.mp (ht.within_topmost r)).resolve_left fun htop => ?_⟩
      exact hp (htop ▸ ht.parent_topmost r)
    · exact hinside hnone

variable (hr : ctx.IsNamedRadio r) (hm : ctx.IsNamedRadio m) (hsame : ctx.tree.SameTree r m)

include hr hm hsame

/-- In a tree, a button is in the group of another one if it has name and owner in common
with that and is in its own group. -/
theorem mem_radioGroup_iff_self :
    m ∈ ctx.radioGroup r ↔ ctx.SharesGroup m r ∧ m ∈ ctx.radioGroup m := by
  rw [mem_radioGroup ht hk hr, mem_radioGroup_self ht hk hm, and_iff_right hm]
  refine and_congr_right fun ⟨_, howner⟩ => ?_
  rw [groupScope, groupScope, howner, hsame]

end Members

end Context

/-- Groups of radio buttons in a document. A button is in its own group if a path of elements
leads to it from its scope; if it names no owner, that is so if it has one, and else if it is
not the top of its tree. Two buttons of one tree are in each other's groups alike, unless they
share a group and only one of them is in its own. A button in its own group is not
indeterminate while it is checked, and a checked one that is required is missing a value only
while it is. -/
theorem radioGroup_members {d : Document} (h : d.Reachable) {node : NodeId} {warn : Bool}
    {ctx : Context NodeId} (hc : Context.of d.view node warn = .ok ctx) {r : NodeId}
    (hr : ctx.IsNamedRadio r) :
    (r ∈ ctx.radioGroup r ↔ ctx.tree.Reaches (ctx.groupScope r) r) ∧
    (ctx.tree.attribute? r "form" = none →
      (ctx.formOwner r ≠ none → r ∈ ctx.radioGroup r) ∧
      (ctx.tree.WellFormed → (r ∈ ctx.radioGroup r ↔ ctx.tree.parent r ≠ none))) ∧
    (∀ m, ctx.IsNamedRadio m → ctx.tree.SameTree r m →
      (m ∈ ctx.radioGroup r ↔ ctx.SharesGroup m r ∧ m ∈ ctx.radioGroup m) ∧
      ((m ∈ ctx.radioGroup r ↔ r ∈ ctx.radioGroup m) ↔
        (ctx.SharesGroup m r → (m ∈ ctx.radioGroup m ↔ r ∈ ctx.radioGroup r)))) ∧
    (Form.isChecked ctx.tree r = true →
      (r ∈ ctx.radioGroup r → ctx.isIndeterminate r = false) ∧
      (ctx.isIndeterminate r = true ↔ ∀ m ∈ ctx.radioGroup r, ctx.tree.isChecked m = false) ∧
      ctx.isValueMissing r = (ctx.tree.hasAttribute r "required" && ctx.isIndeterminate r)) := by
  obtain ⟨htree, -, -⟩ := Context.of_ok hc
  have ht : ctx.tree.IsForest := htree ▸ h.coherent.linked.isForest
  have hk : ∀ {n p}, ctx.tree.parent n = some p →
      ctx.tree.kind p = .document ∨ ctx.tree.kind p = .fragment ∨ ctx.tree.kind p = .element :=
    htree ▸ h.coherent.canHold
  have hindeterminate := Context.isIndeterminate_radio hr
  refine ⟨Context.mem_radioGroup_self ht hk hr, Context.mem_radioGroup_self_of_no_form ht hk hr,
    fun m hm hsame => ?_, fun hchecked => ⟨fun hself => ?_, ?_, ?_⟩⟩
  · have hmr := Context.mem_radioGroup_iff_self ht hk hr hm hsame
    have hrm := Context.mem_radioGroup_iff_self ht hk hm hr hsame.symm
    have hshares : ctx.SharesGroup r m ↔ ctx.SharesGroup m r := ⟨.symm, .symm⟩
    rw [hshares] at hrm
    exact ⟨hmr, by rw [hmr, hrm, and_congr_right_iff]⟩
  · rw [Context.isChecked_radio hr] at hchecked
    rw [hindeterminate, Context.isGroupUnchecked, List.any_eq_true.mpr ⟨r, hself, hchecked⟩]
    rfl
  · rw [hindeterminate, Context.isGroupUnchecked_eq_true]
  · rw [Context.isValueMissing_radio hr, hindeterminate]

/-! ### Buttons in and out of a form -/

/-- A form with two buttons, and another button that was not inserted. -/
def buttons : Document :=
  (Document.empty .html).run
    [.createElement "form", .append root ⟨1⟩,
      .createElement "input", .setAttribute ⟨2⟩ "type" "radio", .setAttribute ⟨2⟩ "name" "g",
      .setAttribute ⟨2⟩ "checked" "", .append ⟨1⟩ ⟨2⟩,
      .createElement "input", .setAttribute ⟨3⟩ "type" "radio", .setAttribute ⟨3⟩ "name" "g",
      .append ⟨1⟩ ⟨3⟩,
      .createElement "input", .setAttribute ⟨4⟩ "type" "radio", .setAttribute ⟨4⟩ "name" "g",
      .setAttribute ⟨4⟩ "checked" "", .setAttribute ⟨4⟩ "required" ""]

theorem reachable_buttons : buttons.Reachable :=
  (Reachable.empty .html).run _

theorem isNamedRadio_buttons {ctx : Context NodeId} (h : ctx.tree = buttons.view) :
    ∀ n ∈ [(⟨2⟩ : NodeId), ⟨3⟩, ⟨4⟩], ctx.IsNamedRadio n := by
  have hall : ∀ n ∈ [(⟨2⟩ : NodeId), ⟨3⟩, ⟨4⟩], inputType? buttons.links n = some .radio ∧
      (buttons.links.attribute? n "name").getD "" ≠ "" := by decide +kernel
  intro n hn
  constructor <;> rw [h]
  · exact (hall n hn).1
  · exact (hall n hn).2

theorem radioGroup_members_buttons : ∃ ctx, buttons.Reachable ∧
    Context.of buttons.view ⟨2⟩ false = .ok ctx ∧ ctx.IsNamedRadio ⟨2⟩ ∧ ctx.IsNamedRadio ⟨3⟩ ∧
    Form.isChecked ctx.tree ⟨2⟩ = true ∧
    ⟨2⟩ ∈ ctx.radioGroup ⟨2⟩ ∧ ctx.isIndeterminate ⟨2⟩ = false ∧
    (⟨3⟩ ∈ ctx.radioGroup ⟨2⟩ ↔ ⟨2⟩ ∈ ctx.radioGroup ⟨3⟩) := by
  have heval : (Context.of buttons.view ⟨2⟩ false).toOption.map (fun ctx =>
      (ctx.formOwner ⟨2⟩, ctx.formOwner ⟨3⟩)) = some (some ⟨1⟩, some ⟨1⟩) := by decide +kernel
  obtain ⟨ctx, hctx, howners⟩ := exists_of_toOption_map heval
  obtain ⟨howner, howner'⟩ := Prod.mk.inj howners
  obtain ⟨htree, -, -⟩ := Context.of_ok hctx
  obtain ⟨hr, hm, -⟩ : _ ∧ _ ∧ _ := by simpa using isNamedRadio_buttons htree
  have hchecked : Form.isChecked ctx.tree ⟨2⟩ = true := by
    rw [htree]
    decide +kernel
  have hno : ∀ n ∈ [(⟨2⟩ : NodeId), ⟨3⟩], ctx.tree.attribute? n "form" = none := by
    rw [htree]
    decide +kernel
  have hsame : ctx.tree.SameTree ⟨2⟩ ⟨3⟩ := by
    rw [htree]
    exact (by decide +kernel : buttons.links.topmost ⟨2⟩ = buttons.links.topmost ⟨3⟩)
  obtain ⟨-, hown, hpairs, hstate⟩ := radioGroup_members reachable_buttons hctx hr
  obtain ⟨-, hown', -⟩ := radioGroup_members reachable_buttons hctx hm
  have hself := (hown (hno _ (by simp))).1 (by simp [howner])
  have hself' := (hown' (hno _ (by simp))).1 (by simp [howner'])
  exact ⟨ctx, reachable_buttons, hctx, hr, hm, hchecked, hself, (hstate hchecked).1 hself,
    (hpairs _ hm hsame).2.mpr fun _ => iff_of_true hself' hself⟩

/-- So not every button is in its own group. The one that was not inserted is checked and
indeterminate, and it is invalid because it is required. -/
theorem radioGroup_without_itself : (¬ ∀ (d : Document), d.Reachable →
      ∀ node warn ctx, Context.of d.view node warn = .ok ctx →
        ∀ r, ctx.IsNamedRadio r → r ∈ ctx.radioGroup r) ∧
    ∃ ctx, Context.of buttons.view ⟨4⟩ false = .ok ctx ∧
      Form.isChecked ctx.tree ⟨4⟩ = true ∧ ctx.isIndeterminate ⟨4⟩ = true ∧
      ctx.isValueMissing ⟨4⟩ = true ∧ ctx.validity? ⟨4⟩ = some false := by
  have heval : (Context.of buttons.view ⟨4⟩ false).toOption.map (fun ctx =>
      (ctx.radioGroup ⟨4⟩, Form.isChecked ctx.tree ⟨4⟩, ctx.isIndeterminate ⟨4⟩,
        ctx.isValueMissing ⟨4⟩, ctx.validity? ⟨4⟩)) =
      some ([], true, true, true, some false) := by decide +kernel
  obtain ⟨ctx, hctx, h⟩ := exists_of_toOption_map heval
  obtain ⟨hgroup, hstate⟩ := Prod.mk.inj h
  refine ⟨fun hall => ?_, ctx, hctx, by simpa using hstate⟩
  obtain ⟨htree, -, -⟩ := Context.of_ok hctx
  have hmem := hall buttons reachable_buttons ⟨4⟩ false ctx hctx ⟨4⟩
    (isNamedRadio_buttons htree _ (by simp))
  rw [hgroup] at hmem
  cases hmem

end DomQuery.Query
