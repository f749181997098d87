import DomQuery.Proofs.Form.Controls
import DomQuery.Proofs.Query.Single
import DomQuery.Proofs.Tree.Elements

/-!
# Disabled fieldsets

A control that is not disabled by itself is looked at together with the fieldsets around
it, from the inside to the outside. One that is disabled disables the control, unless
that is in its first legend. Going on to the next fieldset is what matters after one
has spared the control: any of them may disable it (`inDisabledFieldset_iff`).

The way up ends at the first node that is no element. In a well-formed tree that is the
top, so no fieldset is missed (`mem_elementAncestors`).

* `disabled_by_fieldset`: a control is disabled if some fieldset disables it, and else
  it is enabled.
-/

namespace DomQuery.Query

open DomQuery.Document DomQuery.Form DomQuery.Selector DomQuery.Tree

variable {ν : Type}

/-- `legend` is the first legend among the children of `fieldset`. -/
structure IsFirstLegend (t : Links ν) (fieldset legend : ν) : Prop where
  parent_eq : t.parent legend = some fieldset
  isLegend : t.isHtmlNamed legend "legend" = true
  first : ∀ other, t.parent other = some fieldset → t.isHtmlNamed other "legend" = true →
    other = legend ∨ t.Precedes legend other

/-- `n` is inside of the first legend of `fieldset`. -/
def Spares (t : Links ν) (fieldset n : ν) : Prop :=
  ∃ legend, IsFirstLegend t fieldset legend ∧ t.Below legend n

/-- `fieldset` is disabled, and `n` is inside of it but not in its first legend. -/
structure Disables (t : Links ν) (fieldset n : ν) : Prop where
  below : t.Below fieldset n
  isFieldset : t.isHtmlNamed fieldset "fieldset" = true
  isDisabled : t.hasAttribute fieldset "disabled" = true
  not_spares : ¬ Spares t fieldset n

section Fieldsets

variable {t : Links ν} {n fieldset legend : ν}

/-- The first legend is the one that a search of the children finds. -/
theorem legend?_eq_some_iff (ht : t.IsForest) :
    legend? t fieldset = some legend ↔ IsFirstLegend t fieldset legend := by
  have hasymm {x y : ν} (h : t.Precedes x y) : ¬ t.Precedes y x := fun h' =>
    ht.not_precedes_self x (ht.precedes_trans h h')
  rw [legend?, Links.find?_eq_some_iff_of_pairwise hasymm (Links.pairwise_children fieldset)]
  simp only [ht.mem_children]
  exact ⟨fun ⟨⟨hlegend, hp⟩, hfirst⟩ => ⟨hp, hlegend, fun y hp hy => hfirst y ⟨hy, hp⟩⟩,
    fun ⟨hp, hlegend, hfirst⟩ => ⟨⟨hlegend, hp⟩, fun y ⟨hy, hp⟩ => hfirst y hp hy⟩⟩

/-- In a well-formed tree, the elements around a node are all that are above it. -/
theorem mem_elementAncestors (ht : t.WellFormed) {a : ν} (ha : t.isElement a = true) :
    a ∈ elementAncestors t n ↔ t.Below a n := by
  induction n using ht.toIsForest.induction with
  | top n hp =>
    rw [elementAncestors, Links.ancestors_of_parent_none hp]
    exact iff_of_false List.not_mem_nil (Links.not_below_of_parent_none hp)
  | child n p hp ih =>
    rw [elementAncestors, ht.ancestors_of_parent hp, Links.below_iff_parent]
    have habove : (∃ q, t.parent n = some q ∧ t.Within a q) ↔ a = p ∨ t.Below a p := by
      rw [hp, eq_comm (a := a), ← Links.within_iff]
      simp
    rw [habove]
    by_cases hep : t.isElement p = true
    · rw [List.takeWhile_cons_of_pos hep, List.mem_cons, ← elementAncestors, ih]
    · -- the parent is a document or a fragment, which has no parent
      rw [List.takeWhile_cons_of_neg hep]
      refine iff_of_false List.not_mem_nil ?_
      rintro (rfl | hbelow)
      · exact hep ha
      · obtain ⟨q, hq, -⟩ := Links.below_iff_parent.mp hbelow
        obtain ⟨hdocument, hfragment⟩ := ht.kind_of_child hq
        exact hep (Links.isElement_iff.mpr
          (((ht.kind_of_parent hp).resolve_left hdocument).resolve_left hfragment))

variable [DecidableEq ν]

theorem disables_eq_true (ht : t.IsForest) (hn : t.localName n ≠ "legend") :
    disables t n fieldset = true ↔ t.isHtmlNamed fieldset "fieldset" = true ∧
      t.hasAttribute fieldset "disabled" = true ∧ ¬ Spares t fieldset n := by
  have hspares : ((legend? t fieldset).any fun legend => t.contains legend n) = true ↔
      Spares t fieldset n := by
    rw [Option.any_eq_true, Spares]
    refine exists_congr fun legend => ?_
    rw [legend?_eq_some_iff ht, ht.contains_iff, Links.within_iff]
    refine and_congr_right fun h => or_iff_right ?_
    rintro rfl
    exact hn (Links.localName_of_isHtmlNamed h.isLegend)
  rw [disables, Bool.and_eq_true, Bool.and_eq_true, Bool.not_eq_true', ← Bool.not_eq_true, hspares,
    and_assoc]

/-- A control is in a disabled fieldset if any of those around it disables it. -/
theorem inDisabledFieldset_iff (ht : t.WellFormed) (hn : t.localName n ≠ "legend") :
    inDisabledFieldset t n = true ↔ ∃ fieldset, Disables t fieldset n := by
  rw [inDisabledFieldset, List.any_eq_true]
  refine exists_congr fun fieldset => ?_
  rw [disables_eq_true ht.toIsForest hn]
  constructor
  · rintro ⟨hmem, hfieldset, hdisabled, hspares⟩
    exact ⟨(mem_elementAncestors ht (Links.isElement_of_isHtmlNamed hfieldset)).mp hmem, hfieldset,
      hdisabled, hspares⟩
  · rintro ⟨hbelow, hfieldset, hdisabled, hspares⟩
    exact ⟨(mem_elementAncestors ht (Links.isElement_of_isHtmlNamed hfieldset)).mpr hbelow,
      hfieldset, hdisabled, hspares⟩

/-- The elements that are disabled by fieldsets. -/
def fieldsetControls : List String :=
  ["button", "fieldset", "input", "select", "textarea"]

theorem disabled?_of_control {name : String} (hname : name ∈ fieldsetControls)
    (hn : t.isHtmlNamed n name = true) (hattribute : t.hasAttribute n "disabled" = false) :
    disabled? t n = some (inDisabledFieldset t n) := by
  have hhtml := Links.isHtmlElement_of_isHtmlNamed hn
  have hnames : ∀ name ∈ fieldsetControls, disableable.contains name = true ∧
      isCustomElementName name = false ∧ (name == "option") = false ∧
      (name != "optgroup") = true := by decide +kernel
  obtain ⟨hdisableable, hcustom, hoption, hoptgroup⟩ := hnames name hname
  simp only [disabled?, Links.localName_of_isHtmlNamed hn, hhtml, hattribute, hdisableable, hcustom,
    hoption, hoptgroup, Bool.not_true, Bool.false_and, Bool.true_and, Bool.false_eq_true, if_false]

end Fieldsets

/-! ### Asked as selectors -/

variable [DecidableEq ν]

/-- A control without a `disabled` attribute is disabled if a fieldset around it disables
it, and else it is enabled. If one that is further in spares the control, one that is
further out may still disable it. -/
theorem disabled_by_fieldset {tree : View ν} (ht : tree.WellFormed) {n : ν} {name : String}
    (hname : name ∈ fieldsetControls) (hn : tree.isHtmlNamed n name = true)
    (hattribute : tree.hasAttribute n "disabled" = false) (warn : Bool) :
    ∃ disabled, Says tree ":disabled" n warn disabled ∧ Says tree ":enabled" n warn (!disabled) ∧
      (disabled = true ↔ ∃ fieldset, Disables tree.toLinks fieldset n) ∧
      ∀ inner outer, Spares tree.toLinks inner n → tree.Below outer inner →
        Disables tree.toLinks outer n → disabled = true := by
  have he := Links.isElement_of_isHtmlNamed hn
  have hstate := disabled?_of_control hname hn hattribute
  have hlegend : tree.localName n ≠ "legend" := by
    rw [Links.localName_of_isHtmlNamed hn]
    rintro rfl
    exact absurd hname (by decide)
  have hiff := inDisabledFieldset_iff ht hlegend
  refine ⟨inDisabledFieldset tree.toLinks n,
    says_controlState (k := .disabled) (by decide) he fun ctx h => ?_,
    says_controlState (k := .enabled) (by decide) he fun ctx h => ?_, hiff,
    fun _ outer _ _ hdisables => hiff.mpr ⟨outer, hdisables⟩⟩
  all_goals
    obtain ⟨rfl, -, -⟩ := Context.of_ok h
    rw [Context.holdsKeyword, hstate]
    cases inDisabledFieldset ctx.tree.toLinks n <;> rfl

/-! ### Fieldsets in a fieldset -/

/-- A disabled fieldset with two more inside: one in its legend, and one beside that. Both
are disabled, and have a control in their own legends. -/
def fieldsets : Document :=
  (Document.empty .html).run
    [.createElement "fieldset", .setAttribute ⟨1⟩ "disabled" "", .append root ⟨1⟩,
      .createElement "legend", .append ⟨1⟩ ⟨2⟩,
      .createElement "fieldset", .setAttribute ⟨3⟩ "disabled" "", .append ⟨2⟩ ⟨3⟩,
      .createElement "legend", .append ⟨3⟩ ⟨4⟩, .createElement "input", .append ⟨4⟩ ⟨5⟩,
      .createElement "fieldset", .setAttribute ⟨6⟩ "disabled" "", .append ⟨1⟩ ⟨6⟩,
      .createElement "legend", .append ⟨6⟩ ⟨7⟩, .createElement "button", .append ⟨7⟩ ⟨8⟩]

theorem wellFormed_fieldsets : fieldsets.view.WellFormed :=
  Regular.wellFormed (by decide +kernel) (Reachable.run (.empty .html) _).coherent

/-- The button is in the legend of the fieldset inside, and the one outside disables it. The
input is in the legends of both. -/
theorem disabled_by_fieldset_nested : fieldsets.view.WellFormed ∧
    "button" ∈ fieldsetControls ∧ fieldsets.view.isHtmlNamed ⟨8⟩ "button" = true ∧
    fieldsets.view.hasAttribute ⟨8⟩ "disabled" = false ∧
    "input" ∈ fieldsetControls ∧ fieldsets.view.isHtmlNamed ⟨5⟩ "input" = true ∧
    fieldsets.view.hasAttribute ⟨5⟩ "disabled" = false ∧
    Spares fieldsets.links ⟨6⟩ ⟨8⟩ ∧ Says fieldsets.view ":disabled" ⟨8⟩ false true ∧
    (∃ fieldset, Disables fieldsets.links fieldset ⟨8⟩) ∧
    Says fieldsets.view ":enabled" ⟨5⟩ false true ∧
    ¬ ∃ fieldset, Disables fieldsets.links fieldset ⟨5⟩ := by
  have hbutton : fieldsets.view.isHtmlNamed ⟨8⟩ "button" = true := by decide +kernel
  have hinput : fieldsets.view.isHtmlNamed ⟨5⟩ "input" = true := by decide +kernel
  have hno : ∀ n ∈ [(⟨5⟩ : NodeId), ⟨8⟩], fieldsets.view.hasAttribute n "disabled" = false := by
    decide +kernel
  have hspares : Spares fieldsets.links ⟨6⟩ ⟨8⟩ :=
    ⟨⟨7⟩, (legend?_eq_some_iff wellFormed_fieldsets.toIsForest).mp (by decide +kernel),
      Links.below_of_parent (by decide +kernel)⟩
  have hdisabled : Says fieldsets.view ":disabled" ⟨8⟩ false true := by decide +kernel
  have henabled : Says fieldsets.view ":enabled" ⟨5⟩ false true := by decide +kernel
  obtain ⟨b, hb, -, hiff, -⟩ := disabled_by_fieldset wellFormed_fieldsets
    (by decide : "button" ∈ fieldsetControls) hbutton (hno _ (by simp)) false
  obtain ⟨b', -, hb', hiff', -⟩ := disabled_by_fieldset wellFormed_fieldsets
    (by decide : "input" ∈ fieldsetControls) hinput (hno _ (by simp)) false
  obtain rfl := hb.unique hdisabled
  obtain rfl : b' = false := by simpa using hb'.unique henabled
  exact ⟨wellFormed_fieldsets, by decide, hbutton, hno _ (by simp), by decide, hinput,
    hno _ (by simp), hspares, hdisabled, hiff.mp rfl, henabled, fun h => nomatch hiff'.mpr h⟩

end DomQuery.Query
