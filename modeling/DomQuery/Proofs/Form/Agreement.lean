import DomQuery.Form.Format
import DomQuery.Form.Range
import DomQuery.Proofs.Query.Parallel
import DomQuery.Proofs.Tree.Agreement

/-!
# Controls in a region

Whether a control is disabled, required or in range is said by the control and by
what is around it. So it is the same in trees that agree in a region around it.
`View.Agree` adds to the links of such trees what they know of their nodes besides.
-/

namespace DomQuery

open DomQuery.Query DomQuery.Tree

variable {ν : Type} {inside : ν → Prop}

namespace Tree

/-- The two trees are the same inside of a region, and so is what they know of the
nodes there. -/
structure View.Agree (inside : ν → Prop) (v v' : View ν) : Prop
    extends Links.Agree inside v.toLinks v'.toLinks where
  ownerDocument_eq : ∀ n, inside n → v'.ownerDocument n = v.ownerDocument n
  inside_ownerDocument : ∀ n d, inside n → v.ownerDocument n = some d → inside d
  compare_eq : ∀ a b, inside a → inside b → v'.compare a b = v.compare a b
  elementsById : ∀ scope id, inside scope →
    Option.Rel (Shared inside) (v.elementsById scope id) (v'.elementsById scope id)
  elementsByClass : ∀ scope name, inside scope →
    Option.Rel (Shared inside) (v.elementsByClass scope name) (v'.elementsByClass scope name)
  elementsByName : ∀ scope name, inside scope →
    Option.Rel (Shared inside) (v.elementsByName scope name) (v'.elementsByName scope name)
  direction_eq : ∀ n, inside n → v'.direction n = v.direction n
  isDefined_eq : ∀ n, inside n → v'.isDefined n = v.isDefined n
  activeElement_eq : ∀ n, inside n → v'.activeElement n = v.activeElement n
  fragment_eq : ∀ n, inside n → v'.fragment n = v.fragment n
  isChecked_eq : ∀ n, inside n → v'.isChecked n = v.isChecked n
  isSelected_eq : ∀ n, inside n → v'.isSelected n = v.isSelected n
  isIndeterminate_eq : ∀ n, inside n → v'.isIndeterminate n = v.isIndeterminate n
  value_eq : ∀ n, inside n → v'.value n = v.value n

end Tree

namespace Form

section Links

variable {t t' : Links ν} (h : Links.Agree inside t t') {n : ν} (hn : inside n)
include h hn

theorem inputType?_eq : inputType? t' n = inputType? t n := by
  rw [inputType?, inputType?, h.isHtmlNamed_eq hn, h.attribute?_eq hn]

theorem isSubmitButton_eq : isSubmitButton t' n = isSubmitButton t n := by
  rw [isSubmitButton, isSubmitButton, h.isHtmlNamed_eq hn, h.attribute?_eq hn, inputType?_eq h hn]

theorem required?_eq : required? t' n = required? t n := by
  rw [required?, required?, h.isHtmlNamed_eq hn, h.isHtmlNamed_eq hn, inputType?_eq h hn,
    h.hasAttribute_eq hn]

theorem legend?_eq : legend? t' n = legend? t n := by
  rw [legend?, legend?, h.children_eq n hn]
  exact List.find?_congr fun c hc => h.isHtmlNamed_eq (h.inside_children hn c hc) "legend"

theorem elementAncestors_eq : elementAncestors t' n = elementAncestors t n := by
  rw [elementAncestors, elementAncestors, h.ancestors_eq hn]
  exact takeWhile_congr fun m hm => h.isElement_eq (h.inside_ancestors hn m hm)

theorem inside_elementAncestors : ∀ m ∈ elementAncestors t n, inside m :=
  fun m hm => h.inside_ancestors hn m (List.takeWhile_subset _ hm)

variable [DecidableEq ν]

theorem disables_eq {fieldset : ν} (hf : inside fieldset) :
    disables t' n fieldset = disables t n fieldset := by
  have hcontains : ∀ legend, t'.contains legend n = t.contains legend n := fun legend =>
    h.contains_eq legend hn
  rw [disables, disables, h.isHtmlNamed_eq hf, h.hasAttribute_eq hf, legend?_eq h hf]
  simp only [hcontains]

theorem inDisabledFieldset_eq : inDisabledFieldset t' n = inDisabledFieldset t n := by
  rw [inDisabledFieldset, inDisabledFieldset, elementAncestors_eq h hn]
  exact any_congr fun m hm => disables_eq h hn (inside_elementAncestors h hn m hm)

theorem disabled?_eq : disabled? t' n = disabled? t n := by
  have hgroup : ((t.parent n).any fun p => t'.isHtmlNamed p "optgroup" && t'.hasAttribute p "disabled") =
      (t.parent n).any fun p => t.isHtmlNamed p "optgroup" && t.hasAttribute p "disabled" := by
    cases hp : t.parent n with
    | none => rfl
    | some p =>
      have hinside := h.inside_parent n p hn hp
      rw [Option.any_some, Option.any_some, h.isHtmlNamed_eq hinside, h.hasAttribute_eq hinside]
  rw [disabled?, disabled?, h.isHtmlElement_eq hn, h.localName_eq n hn, h.hasAttribute_eq hn,
    h.parent_eq n hn, hgroup, inDisabledFieldset_eq h hn]

theorem isMutable_eq : isMutable t' n = isMutable t n := by
  rw [isMutable, isMutable, h.hasAttribute_eq hn, disabled?_eq h hn]

theorem isReadWrite_eq : isReadWrite t' n = isReadWrite t n := by
  rw [isReadWrite, isReadWrite, h.isHtmlNamed_eq hn, isMutable_eq h hn, inputType?_eq h hn,
    h.isContentEditable_eq hn]

end Links

section View

variable {v v' : View ν} (h : View.Agree inside v v') {n : ν} (hn : inside n)
include h hn

theorem isChecked_eq : isChecked v' n = isChecked v n := by
  rw [isChecked, isChecked, inputType?_eq h.toAgree hn, h.isChecked_eq n hn, h.isHtmlNamed_eq hn,
    h.isSelected_eq n hn]

theorem isPlaceholderShown_eq : isPlaceholderShown v' n = isPlaceholderShown v n := by
  rw [isPlaceholderShown, isPlaceholderShown, h.isHtmlNamed_eq hn, inputType?_eq h.toAgree hn,
    h.attribute?_eq hn, h.value_eq n hn]

theorem inRange?_eq [DecidableEq ν] : inRange? v' n = inRange? v n := by
  rw [inRange?, inRange?, inputType?_eq h.toAgree hn, isMutable_eq h.toAgree hn,
    h.attribute?_eq hn, h.attribute?_eq hn, h.value_eq n hn]

end View

end Form

end DomQuery
