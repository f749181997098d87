import DomQuery.Proofs.Form.Agreement
import DomQuery.Proofs.Query.AlikeSearch

/-!
# Queries in a region

A query does not leave the region that its context is in. So two trees that agree
there look alike to it: what a node is, what controls and texts are around it, and
where a combinator leads.

* `Context.holdsKeyword_withTree` and its kin: tests at a node inside come out the same.
* `Context.alike_withTree`: the two contexts look alike.
* `outcome_eq_of_agree`: a question from inside the region is answered alike.
-/

namespace DomQuery.Query

open DomQuery.Form DomQuery.Selector DomQuery.Text DomQuery.Tree

variable {ν : Type} {inside : ν → Prop}

/-! ### Names, attributes and languages -/

section Links

variable {t t' : Links ν} (h : Links.Agree inside t t') {n : ν}
include h

section Node

variable (hn : inside n)
include hn

theorem nameParts_eq : nameParts t' n = nameParts t n := by
  rw [nameParts, nameParts, h.localName_eq n hn, h.nsPrefix_eq n hn]

theorem selectsType?_eq (s : TypeSelector) : selectsType? t' s n = selectsType? t s n := by
  unfold selectsType?
  rw [nameParts_eq h hn, h.isHtmlElement_eq hn, h.ns_eq n hn]
  simp only [h.lookupNamespace_eq hn]

theorem language?_eq : language? t' n = language? t n := by
  refine h.findSome?_heritageLine_eq (fun m hm => ?_) hn
  rw [declaredLanguage?, declaredLanguage?, h.attributes_eq m hm, h.attribute?_eq hm]

theorem hasLanguage_eq (ranges : List LanguageRange) :
    hasLanguage t' ranges n = hasLanguage t ranges n := by
  rw [hasLanguage, hasLanguage, language?_eq h hn]

theorem holdsAttribute_eq (test : AttributeTest) : holdsAttribute t' test n = holdsAttribute t test n := by
  have hname : ∀ fold wanted name, selectsName t' n test.qualifier fold wanted name =
      selectsName t n test.qualifier fold wanted name := by
    intro fold wanted name
    unfold selectsName
    simp only [h.lookupNamespace_eq hn]
  have hfold : foldsCase t' test.flag n = foldsCase t test.flag n := by
    rw [foldsCase, foldsCase, h.isHtmlDocument_eq n hn]
  unfold holdsAttribute
  simp only [h.attributes_eq n hn, hfold, hname]

end Node

/-! ### Groups of siblings -/

theorem sameType_eq {a b : ν} (ha : inside a) (hb : inside b) : sameType t' a b = sameType t a b := by
  rw [sameType, sameType, h.localName_eq a ha, h.localName_eq b hb, h.nsPrefix_eq a ha,
    h.nsPrefix_eq b hb, h.ns_eq a ha, h.ns_eq b hb]

theorem addToGroup_eq (hn : inside n) {groups : List (List ν)}
    (hg : ∀ group ∈ groups, ∀ m ∈ group, inside m) :
    addToGroup t' n groups = addToGroup t n groups ∧
      ∀ group ∈ addToGroup t n groups, ∀ m ∈ group, inside m := by
  induction groups with
  | nil => simpa [addToGroup] using hn
  | cons group groups ih =>
    obtain ⟨hgroup, hgroups⟩ := List.forall_mem_cons.mp hg
    obtain ⟨heq, hrest⟩ := ih hgroups
    have htype : group.head?.any (sameType t' n) = group.head?.any (sameType t n) := by
      cases group with
      | nil => rfl
      | cons m group => exact sameType_eq h hn (hgroup m List.mem_cons_self)
    rw [addToGroup, addToGroup, htype]
    split
    · refine ⟨rfl, List.forall_mem_cons.mpr ⟨fun m hm => ?_, hgroups⟩⟩
      rcases List.mem_append.mp hm with hm | hm
      · exact hgroup m hm
      · exact List.mem_singleton.mp hm ▸ hn
    · exact ⟨by rw [heq], List.forall_mem_cons.mpr ⟨hgroup, hrest⟩⟩

theorem groupByType_eq {nodes : List ν} (hn : ∀ n ∈ nodes, inside n) :
    groupByType t' nodes = groupByType t nodes := by
  have hfold : ∀ groups : List (List ν), (∀ group ∈ groups, ∀ m ∈ group, inside m) →
      nodes.foldl (fun groups n => addToGroup t' n groups) groups =
        nodes.foldl (fun groups n => addToGroup t n groups) groups := by
    induction nodes with
    | nil => exact fun _ _ => rfl
    | cons n nodes ih =>
      obtain ⟨hn, hnodes⟩ := List.forall_mem_cons.mp hn
      intro groups hg
      obtain ⟨heq, hinside⟩ := addToGroup_eq h hn hg
      rw [List.foldl_cons, List.foldl_cons, heq]
      exact ih hnodes _ hinside
  exact hfold [] (by simp)

theorem selectAmong_eq (form : NthForm) {nodes : List ν} (hn : ∀ n ∈ nodes, inside n) :
    selectAmong t' form nodes = selectAmong t form nodes := by
  rw [selectAmong, selectAmong, groupByType_eq h hn]

end Links

/-! ### Contexts -/

namespace Context

/-- The same surroundings in another tree. -/
def withTree (ctx : Context ν) (tree : View ν) : Context ν :=
  { ctx with tree }

@[simp]
theorem withTree_tree (ctx : Context ν) (tree : View ν) : (ctx.withTree tree).tree = tree :=
  rfl

@[simp]
theorem withTree_node (ctx : Context ν) (tree : View ν) : (ctx.withTree tree).node = ctx.node :=
  rfl

@[simp]
theorem withTree_document (ctx : Context ν) (tree : View ν) :
    (ctx.withTree tree).document = ctx.document :=
  rfl

variable {ctx : Context ν} {v : View ν} (h : View.Agree inside ctx.tree v)
include h

section Node

variable {n : ν} (hn : inside n)
include hn

theorem place_withTree : (ctx.withTree v).place n = ctx.place n := by
  unfold place
  simp only [withTree_tree, h.kind_eq n hn, h.shadowHost_eq n hn]
  rfl

theorem inside_place {host : ν} (hp : ctx.place n = .shadowRoot host) : inside host := by
  unfold place at hp
  split at hp
  · cases hp
  · split at hp
    · split at hp
      · rename_i hhost
        obtain rfl := Place.shadowRoot.inj hp
        exact h.inside_host n _ hn hhost
      · cases hp
    · cases hp
  · cases hp

theorem isAncestorCandidate_withTree :
    (ctx.withTree v).isAncestorCandidate n = ctx.isAncestorCandidate n := by
  unfold isAncestorCandidate
  rw [withTree_tree, h.kind_eq n hn]
  rfl

theorem isRoot_withTree : (ctx.withTree v).isRoot n = ctx.isRoot n := by
  rw [isRoot, isRoot, withTree_tree, h.parent_eq n hn]
  cases hp : ctx.tree.parent n with
  | none => rfl
  | some p => rw [Option.any_some, Option.any_some, h.kind_eq p (h.inside_parent n p hn hp)]

theorem isEmpty_withTree : (ctx.withTree v).isEmpty n = ctx.isEmpty n := by
  rw [isEmpty, isEmpty, withTree_tree, h.children_eq n hn]
  refine all_congr fun c hc => ?_
  have hinside := h.inside_children hn c hc
  rw [h.kind_eq c hinside, h.textData_eq c hinside]

theorem isLink_withTree : (ctx.withTree v).isLink n = ctx.isLink n := by
  rw [isLink, isLink, withTree_tree, h.isHtmlElement_eq hn, h.localName_eq n hn,
    h.hasAttribute_eq hn]

theorem open?_withTree : (ctx.withTree v).open? n = ctx.open? n := by
  rw [open?, open?, withTree_tree, h.isHtmlElement_eq hn, h.localName_eq n hn, h.hasAttribute_eq hn]

theorem optionValue_withTree : (ctx.withTree v).optionValue n = ctx.optionValue n := by
  rw [optionValue, optionValue, withTree_tree, h.attribute?_eq hn, h.childText_eq hn]

theorem hasWrongForm_withTree (type : InputType) (value : String) :
    (ctx.withTree v).hasWrongForm type n value = ctx.hasWrongForm type n value := by
  unfold hasWrongForm
  rw [withTree_tree, h.hasAttribute_eq hn]

theorem missesPattern_withTree (type : InputType) (value : String) :
    (ctx.withTree v).missesPattern type n value = ctx.missesPattern type n value := by
  rw [missesPattern, missesPattern, withTree_tree, h.attribute?_eq hn]

variable [DecidableEq ν]

theorem inScope_withTree : (ctx.withTree v).inScope n = ctx.inScope n := by
  rw [inScope, inScope, withTree_tree, h.contains_eq _ hn]
  rfl

theorem isScope_withTree (hnode : inside ctx.node) :
    (ctx.withTree v).isScope n = ctx.isScope n := by
  rw [isScope, isScope, withTree_tree, withTree_node, h.isElement_eq hnode, isRoot_withTree h hn]
  rfl

theorem chosenOption_withTree : (ctx.withTree v).chosenOption n = ctx.chosenOption n ∧
    ∀ m ∈ ctx.chosenOption n, inside m := by
  obtain ⟨hwalk, hinside⟩ := h.walk_eq hn
  have hoptions : ((ctx.tree.walk n).filter fun m => v.isHtmlNamed m "option") =
      (ctx.tree.walk n).filter fun m => ctx.tree.isHtmlNamed m "option" :=
    List.filter_congr fun m hm => h.isHtmlNamed_eq (hinside m hm) "option"
  have hmem : ∀ m ∈ ((ctx.tree.walk n).filter fun m => ctx.tree.isHtmlNamed m "option").reverse,
      inside m := fun m hm => hinside m (List.mem_of_mem_filter (List.mem_reverse.mp hm))
  unfold chosenOption
  rw [withTree_tree, hwalk, hoptions, h.hasAttribute_eq hn]
  dsimp only
  rw [List.find?_congr fun m hm => h.isSelected_eq m (hmem m hm)]
  refine ⟨rfl, fun m hm => ?_⟩
  split at hm
  · rename_i hfind
    obtain rfl := Option.some.inj hm
    exact hmem _ (List.mem_of_find?_eq_some hfind)
  · split at hm
    · cases hm
    · exact hmem m (List.mem_reverse.mpr (List.mem_of_head? hm))

theorem isBarred_withTree : (ctx.withTree v).isBarred n = ctx.isBarred n := by
  unfold isBarred
  rw [withTree_tree, h.localName_eq n hn, disabled?_eq h.toAgree hn, isSubmitButton_eq h.toAgree hn,
    inputType?_eq h.toAgree hn, h.hasAttribute_eq hn, h.ancestors_eq hn, any_congr fun m hm =>
      h.isHtmlNamed_eq (h.inside_ancestors hn m hm) "datalist"]

end Node

/-! ### Forms -/

section Document

variable [DecidableEq ν] (hd : ∀ d ∈ ctx.document, inside d)
include hd

theorem elementById_withTree (id : String) :
    (ctx.withTree v).elementById id = ctx.elementById id ∧ ∀ n ∈ ctx.elementById id, inside n := by
  unfold elementById
  rw [withTree_document, withTree_tree]
  cases hdoc : ctx.document with
  | none => simp
  | some d =>
    have hinside := hd d hdoc
    have hfound := h.elementsById d id hinside
    dsimp only
    generalize ctx.tree.elementsById d id = found at hfound
    generalize v.elementsById d id = found' at hfound
    rcases hfound with hfound | _
    · dsimp only
      rw [hfound.eq]
      exact ⟨rfl, fun n hn => hfound.mem n (List.mem_of_head? hn)⟩
    · obtain ⟨heq, hwalk⟩ := h.walk_eq hinside
      dsimp only
      rw [heq, List.find?_congr fun n hn => by rw [h.id?_eq (hwalk n hn)]]
      exact ⟨rfl, fun n hn => hwalk n (List.mem_of_find?_eq_some hn)⟩

theorem target_withTree : (ctx.withTree v).target = ctx.target ∧ ∀ n ∈ ctx.target, inside n := by
  have hfragment : ctx.document.bind v.fragment = ctx.document.bind ctx.tree.fragment := by
    cases hdoc : ctx.document with
    | none => rfl
    | some d => exact h.fragment_eq d (hd d hdoc)
  unfold target
  rw [withTree_document, withTree_tree, hfragment]
  cases ctx.document.bind ctx.tree.fragment with
  | none => simp
  | some fragment =>
    dsimp only
    rw [(elementById_withTree h hd fragment).1]
    refine ⟨rfl, fun n hn => ?_⟩
    split at hn
    · cases hn
    · exact (elementById_withTree h hd fragment).2 n hn

omit [DecidableEq ν] in
theorem focused_withTree : (ctx.withTree v).focused = ctx.focused := by
  unfold focused
  rw [withTree_document, withTree_tree]
  cases hdoc : ctx.document with
  | none => rfl
  | some d => exact h.activeElement_eq d (hd d hdoc)

variable {n : ν} (hn : inside n)
include hn

theorem formOwner_withTree : (ctx.withTree v).formOwner n = ctx.formOwner n ∧
    ∀ m ∈ ctx.formOwner n, inside m := by
  unfold formOwner
  rw [withTree_tree, h.attribute?_eq hn]
  split
  · rename_i id _
    obtain ⟨heq, hinside⟩ := elementById_withTree h hd id
    rw [heq]
    refine ⟨?_, fun m hm => hinside m (Option.mem_filter_iff.mp hm).1⟩
    cases he : ctx.elementById id with
    | none => rfl
    | some m => rw [Option.filter_some, Option.filter_some, h.isHtmlNamed_eq (hinside m he)]
  · have hinside := inside_elementAncestors h.toAgree hn
    rw [elementAncestors_eq h.toAgree hn,
      List.find?_congr fun m hm => h.isHtmlNamed_eq (hinside m hm) "form"]
    exact ⟨rfl, fun m hm => hinside m (List.mem_of_find?_eq_some hm)⟩

theorem radioGroup_withTree : (ctx.withTree v).radioGroup n = ctx.radioGroup n ∧
    ∀ m ∈ ctx.radioGroup n, inside m := by
  obtain ⟨howner, hinside⟩ := formOwner_withTree h hd hn
  have hscope : inside ((ctx.formOwner n).getD (ctx.tree.topmost n)) := by
    cases hform : ctx.formOwner n with
    | none => exact h.inside_topmost hn
    | some form => exact hinside form hform
  obtain ⟨hwalk, hmem⟩ := h.walk_eq hscope
  unfold radioGroup
  simp only [withTree_tree, h.attribute?_eq hn, howner, h.topmost_eq hn, hwalk]
  split
  · simpa using hn
  · refine ⟨List.filter_congr fun m hm => ?_, fun m hm => hmem m (List.mem_of_mem_filter hm)⟩
    rw [inputType?_eq h.toAgree (hmem m hm), h.attribute?_eq (hmem m hm),
      (formOwner_withTree h hd (hmem m hm)).1]

theorem isGroupUnchecked_withTree :
    (ctx.withTree v).isGroupUnchecked n = ctx.isGroupUnchecked n := by
  obtain ⟨hgroup, hinside⟩ := radioGroup_withTree h hd hn
  rw [isGroupUnchecked, isGroupUnchecked, hgroup, withTree_tree,
    any_congr fun m hm => h.isChecked_eq m (hinside m hm)]

theorem isIndeterminate_withTree : (ctx.withTree v).isIndeterminate n = ctx.isIndeterminate n := by
  rw [isIndeterminate, isIndeterminate, withTree_tree, inputType?_eq h.toAgree hn,
    h.isIndeterminate_eq n hn, isGroupUnchecked_withTree h hd hn, h.isHtmlNamed_eq hn,
    h.hasAttribute_eq hn]

theorem isDefault_withTree : (ctx.withTree v).isDefault n = ctx.isDefault n := by
  obtain ⟨howner, hinside⟩ := formOwner_withTree h hd hn
  unfold isDefault
  rw [withTree_tree, inputType?_eq h.toAgree hn, h.hasAttribute_eq hn, h.hasAttribute_eq hn,
    h.isHtmlNamed_eq hn, isSubmitButton_eq h.toAgree hn, howner]
  cases hform : ctx.formOwner n with
  | none => rfl
  | some form =>
    obtain ⟨hwalk, hmem⟩ := h.walk_eq (hinside form hform)
    dsimp only
    rw [hwalk, List.find?_congr fun m hm => isSubmitButton_eq h.toAgree (hmem m hm)]

/-! ### Validity -/

theorem isValueMissing_withTree : (ctx.withTree v).isValueMissing n = ctx.isValueMissing n := by
  obtain ⟨hoption, hinside⟩ := chosenOption_withTree h hn
  have hempty : ((ctx.chosenOption n).all fun m => ((ctx.withTree v).optionValue m).isEmpty) =
      (ctx.chosenOption n).all fun m => (ctx.optionValue m).isEmpty := by
    cases hm : ctx.chosenOption n with
    | none => rfl
    | some m => rw [Option.all_some, Option.all_some, optionValue_withTree h (hinside m hm)]
  unfold isValueMissing
  rw [withTree_tree, required?_eq h.toAgree hn, h.isHtmlNamed_eq hn, hoption, hempty,
    inputType?_eq h.toAgree hn, h.isChecked_eq n hn, isGroupUnchecked_withTree h hd hn,
    h.value_eq n hn]

theorem violatesConstraints_withTree :
    (ctx.withTree v).violatesConstraints n = ctx.violatesConstraints n := by
  unfold violatesConstraints
  simp only [withTree_tree, isValueMissing_withTree h hd hn, inRange?_eq h hn,
    inputType?_eq h.toAgree hn, h.value_eq n hn, hasWrongForm_withTree h hn,
    missesPattern_withTree h hn]

theorem controlValidity?_withTree :
    (ctx.withTree v).controlValidity? n = ctx.controlValidity? n := by
  rw [controlValidity?, controlValidity?, withTree_tree, h.isHtmlElement_eq hn, h.localName_eq n hn,
    isBarred_withTree h hn, violatesConstraints_withTree h hd hn]

theorem validity?_withTree : (ctx.withTree v).validity? n = ctx.validity? n := by
  obtain ⟨hwalk, hinside⟩ := h.walk_eq hn
  rw [validity?, validity?, withTree_tree, h.isHtmlNamed_eq hn, h.isHtmlNamed_eq hn, hwalk,
    all_congr fun m hm => by rw [controlValidity?_withTree h hd (hinside m hm)],
    controlValidity?_withTree h hd hn]

end Document

/-! ### What a query sees -/

section Related

variable [DecidableEq ν] {n : ν}

omit [DecidableEq ν] in
theorem searchesDocument_withTree (hr : inside ctx.root) :
    (ctx.withTree v).searchesDocument = ctx.searchesDocument := by
  unfold searchesDocument
  rw [withTree_tree]
  exact congrArg (fun kind => !ctx.shadow && kind == .document) (h.kind_eq _ hr)

theorem indexedBelow_withTree (hr : inside ctx.root) (lookup : Lookup) (hn : inside n) :
    Option.Rel (Shared inside) (ctx.indexedBelow n lookup) ((ctx.withTree v).indexedBelow n lookup) := by
  cases lookup with
  | id name =>
    rw [indexedBelow, indexedBelow, searchesDocument_withTree h hr, withTree_tree]
    split
    · have hfound := h.elementsById ctx.root name hr
      change Option.Rel _ _ ((v.elementsById ctx.root name).map _)
      generalize ctx.tree.elementsById ctx.root name = found at hfound
      generalize v.elementsById ctx.root name = found' at hfound
      rcases hfound with hfound | _
      · refine .some ⟨?_, fun m hm => hfound.mem m (List.mem_of_mem_filter hm)⟩
        rw [hfound.eq]
        exact List.filter_congr fun m hm => by rw [h.contains_eq n (hfound.mem m hm)]
      · exact .none
    · exact .none
  | className name => exact h.elementsByClass n name hn
  | localName name => exact h.elementsByName n name hn

omit [DecidableEq ν] in
theorem indexedById_withTree (hr : inside ctx.root) (name : String) : Option.Rel (Shared inside)
    (if ctx.searchesDocument then ctx.tree.elementsById ctx.root name else none)
    (if (ctx.withTree v).searchesDocument then v.elementsById ctx.root name else none) := by
  rw [searchesDocument_withTree h hr]
  split
  · exact h.elementsById ctx.root name hr
  · exact .none

omit [DecidableEq ν] in
theorem siblings_withTree (hn : inside n) {step step' : ν → Option ν}
    (hstep : ∀ p, ctx.tree.parent n = some p → follow step' v.size n = follow step ctx.tree.size n ∧
      ∀ m ∈ follow step ctx.tree.size n, inside m) :
    Shared inside (ctx.siblings step n) ((ctx.withTree v).siblings step' n) := by
  rw [siblings, siblings, withTree_tree, h.parent_eq n hn]
  cases hp : ctx.tree.parent n with
  | none => exact .nil
  | some p =>
    obtain ⟨heq, hinside⟩ := hstep p hp
    dsimp only
    rw [heq]
    exact ⟨List.filter_congr fun m hm => h.isElement_eq (hinside m hm),
      fun m hm => hinside m (List.mem_of_mem_filter hm)⟩

omit [DecidableEq ν] in
theorem adjacent_withTree (hn : inside n) {find find' : ν → Option ν}
    (hfind : ∀ p, ctx.tree.parent n = some p → find' n = find n ∧ ∀ m ∈ find n, inside m) :
    Shared inside (ctx.adjacent find n) ((ctx.withTree v).adjacent find' n) := by
  rw [adjacent, adjacent, withTree_tree, h.parent_eq n hn]
  cases hp : ctx.tree.parent n with
  | none => exact .nil
  | some p =>
    obtain ⟨heq, hinside⟩ := hfind p hp
    dsimp only
    rw [heq]
    exact .of_subset fun m hm => hinside m (Option.mem_toList.mp hm)

theorem descendants_withTree (hr : inside ctx.root) (lookup : Option Lookup) (hn : inside n) :
    Shared inside (ctx.descendants lookup n) ((ctx.withTree v).descendants lookup n) := by
  have hwalk : Shared inside (ctx.tree.walk n) (v.walk n) := h.walk_eq hn
  rw [descendants, descendants, withTree_tree]
  cases lookup with
  | none => exact hwalk
  | some lookup =>
    have hfound := indexedBelow_withTree h hr lookup hn
    dsimp only [Option.bind_some]
    generalize ctx.indexedBelow n lookup = found at hfound
    generalize (ctx.withTree v).indexedBelow n lookup = found' at hfound
    rcases hfound with hfound | _
    · exact hfound
    · exact hwalk

theorem related_withTree (hr : inside ctx.root) (heading : Heading) (c : Combinator)
    (lookup : Option Lookup) (hn : inside n) : Shared inside
      (ctx.related heading c lookup n) ((ctx.withTree v).related heading c lookup n) := by
  cases heading with
  | forward =>
    cases c with
    | descendant => exact descendants_withTree h hr lookup hn
    | child =>
      exact ⟨h.elementChildren_eq hn, fun m hm => h.inside_children hn m (List.mem_of_mem_filter hm)⟩
    | nextSibling => exact adjacent_withTree h hn fun p hp => h.nextElementSibling_eq hp hn
    | subsequentSibling => exact siblings_withTree h hn fun p hp => h.follow_nextSibling_eq hp hn
  | backward =>
    cases c with
    | descendant =>
      rw [related, related, withTree_tree, h.ancestors_eq hn]
      have hinside := h.inside_ancestors hn
      exact ⟨takeWhile_congr fun m hm => isAncestorCandidate_withTree h (hinside m hm),
        fun m hm => hinside m (List.takeWhile_subset _ hm)⟩
    | child =>
      rw [related, related, withTree_tree, h.parent_eq n hn]
      have hinside : ∀ m ∈ (ctx.tree.parent n).toList, inside m := fun m hm =>
        h.inside_parent n m hn (Option.mem_toList.mp hm)
      exact ⟨List.filter_congr fun m hm => isAncestorCandidate_withTree h (hinside m hm),
        fun m hm => hinside m (List.mem_of_mem_filter hm)⟩
    | nextSibling => exact adjacent_withTree h hn fun p hp => h.previousElementSibling_eq hp hn
    | subsequentSibling => exact siblings_withTree h hn fun p hp => h.follow_previousSibling_eq hp hn

end Related

section Tests

variable [DecidableEq ν] (hd : ∀ d ∈ ctx.document, inside d) (hnode : inside ctx.node) {n : ν}
  (hn : inside n)
include hd hnode hn

/-- The keywords that ask no other selector test a node alike. -/
theorem holdsKeyword_withTree {k : Keyword} (hk : (Simple.keyword k).isPlain = true) :
    (ctx.withTree v).holdsKeyword k n = ctx.holdsKeyword k n := by
  have hcontains : v.contains n = ctx.tree.contains n := funext fun m => h.contains_eq_of_inside hn m
  cases k
  case onlyChild | onlyOfType => cases hk
  all_goals
    simp only [holdsKeyword, withTree_tree, isRoot_withTree h hn, isEmpty_withTree h hn,
      isLink_withTree h hn, open?_withTree h hn, isScope_withTree h hn hnode,
      (target_withTree h hd).1, focused_withTree h hd, isIndeterminate_withTree h hd hn,
      isDefault_withTree h hd hn, validity?_withTree h hd hn, hcontains, isChecked_eq h hn,
      disabled?_eq h.toAgree hn, inRange?_eq h hn, required?_eq h.toAgree hn,
      isPlaceholderShown_eq h hn, isReadWrite_eq h.toAgree hn, h.isHtmlElement_eq hn,
      h.isDefined_eq n hn]

theorem holdsSimple_withTree {s : Simple} (hs : s.isPlain = true) (forgive : Bool) :
    (ctx.withTree v).holdsSimple forgive s n = ctx.holdsSimple forgive s n := by
  have helements : ∀ {test test' : ν → Eval ν Bool}, test' n = test n →
      (ctx.withTree v).onElements test' n = ctx.onElements test n := by
    intro test test' htest
    rw [onElements, onElements, byPlace, byPlace, place_withTree h hn, htest]
  cases s
  case keyword k => exact helements (holdsKeyword_withTree h hd hnode hn hs)
  case id name => exact helements (by rw [withTree_tree, h.id?_eq hn])
  case className name => exact helements (by rw [withTree_tree, h.hasClass_eq hn])
  case attr test => exact helements (by rw [withTree_tree, holdsAttribute_eq h.toAgree hn])
  case lang ranges => exact helements (by rw [withTree_tree, hasLanguage_eq h.toAgree hn])
  case dir direction => exact helements (by rw [withTree_tree, h.direction_eq n hn])
  all_goals cases hs

end Tests

/-- The trees look alike from the context. -/
theorem alike_withTree [DecidableEq ν] (hd : ∀ d ∈ ctx.document, inside d) (hnode : inside ctx.node)
    (hroot : inside ctx.root) :
    Pairing.Alike ⟨fun _ => False, fun _ => True, inside, ctx, ctx.withTree v⟩ where
  node_eq := rfl
  root_eq := rfl
  inside_node := hnode
  inside_root := hroot
  complain e _ := by
    change Parallel _ _ Eq (ctx.complain e) (ctx.complain e)
    unfold complain
    split
    · exact .throw trivial
    · exact .pure rfl
  isElement_eq n hn := h.isElement_eq hn
  place_eq n hn := place_withTree h hn
  inside_host n host hn hp := inside_place h hn hp
  plain_eq s hs forgive n hn := holdsSimple_withTree h hd hnode hn hs forgive
  selectsType_eq s n hn := selectsType?_eq h.toAgree hn s
  parent_eq := h.parent_eq
  inside_parent := h.inside_parent
  elementChildren n hn :=
    ⟨h.elementChildren_eq hn, fun m hm => h.inside_children hn m (List.mem_of_mem_filter hm)⟩
  selectAmong_eq form nodes hn := selectAmong_eq h.toAgree form hn
  elementLine n hn := ⟨h.elementLine_eq hn, h.inside_elementLine hn⟩
  related heading c lookup n hn := related_withTree h hroot heading c lookup hn
  walk n hn := h.walk_eq hn
  indexedBelow scope lookup hs := indexedBelow_withTree h hroot lookup hs
  indexedById name := indexedById_withTree h hroot name
  ancestors_eq n hn := h.ancestors_eq hn
  inScope_eq n hn := inScope_withTree h hn
  compare_eq := h.compare_eq

/-- The same is found in both trees. -/
theorem fresh_find_withTree [DecidableEq ν] (hd : ∀ d ∈ ctx.document, inside d)
    (hnode : inside ctx.node) (hroot : inside ctx.root) (target : Target)
    (branches : List (Chain Compound)) :
    fresh ((ctx.withTree v).find target branches) = fresh (ctx.find target branches) :=
  ((alike_withTree h hd hnode hroot).find (fun _ he => he.elim)
    (fun _ _ _ _ s _ => Simple.All.of_forall (fun _ _ _ _ _ _ _ => trivial) s) target).fresh_eq.symm

end Context

/-! ### Questions -/

variable {v v' : View ν} (h : View.Agree inside v v') {node : ν} (hn : inside node)
include h hn

/-- The context of a node inside is in the region. -/
theorem Context.of_of_agree (warn : Bool) :
    of v' node warn = (of v node warn).map (withTree · v') ∧
      ∀ ctx, of v node warn = .ok ctx → (∀ d ∈ ctx.document, inside d) ∧ inside ctx.root := by
  have htop := h.inside_topmost hn
  unfold of
  rw [h.kind_eq node hn, h.ownerDocument_eq node hn, h.shadowHost_eq node hn, h.topmost_eq hn]
  dsimp only
  rw [h.kind_eq _ htop, h.shadowHost_eq _ htop]
  cases v.kind node
  case document =>
    refine ⟨rfl, fun ctx hctx => ?_⟩
    obtain rfl := Except.ok.inj hctx
    exact ⟨fun d hd => Option.some.inj hd ▸ hn, hn⟩
  case fragment =>
    refine ⟨rfl, fun ctx hctx => ?_⟩
    obtain rfl := Except.ok.inj hctx
    exact ⟨fun d hd => h.inside_ownerDocument node d hn hd, hn⟩
  case element =>
    refine ⟨rfl, fun ctx hctx => ?_⟩
    obtain rfl := Except.ok.inj hctx
    exact ⟨fun d hd => h.inside_ownerDocument node d hn hd, htop⟩
  all_goals exact ⟨rfl, fun ctx hctx => nomatch hctx⟩

omit h hn in
/-- A question is answered alike in both trees. -/
theorem Matcher.fresh_ask_withTree [DecidableEq ν] {m : Matcher ν} {v : View ν}
    (h : View.Agree inside m.context.tree v) (hd : ∀ d ∈ m.context.document, inside d)
    (hnode : inside m.context.node) (hroot : inside m.context.root) (call : Call) :
    fresh (ask { m with context := m.context.withTree v } call) = fresh (m.ask call) := by
  have hrefusal : refusal? { m with context := m.context.withTree v } call = m.refusal? call := by
    cases call with
    | isMatch | closest =>
      rw [refusal?, refusal?]
      simp only [Context.withTree_tree, Context.withTree_node, h.isElement_eq hnode,
        h.kind_eq _ hnode]
    | first | all => rfl
  rw [fresh_ask, fresh_ask, hrefusal, fresh_find, fresh_find,
    Context.fresh_find_withTree h hd hnode hroot]
  rfl

/-- A question from inside the region has the same answer in both trees, or fails
alike. -/
theorem outcome_eq_of_agree [DecidableEq ν] (text : String) (warn : Bool) (call : Call) :
    outcome v' text node warn call = outcome v text node warn call := by
  obtain ⟨hof, hinside⟩ := Context.of_of_agree h hn warn
  rw [outcome_eq, outcome_eq, hof]
  rcases hctx : Context.of v node warn with e | ctx
  · rfl
  obtain ⟨hd, hroot⟩ := hinside ctx hctx
  obtain ⟨htree, hnode, -⟩ := Context.of_ok hctx
  subst htree hnode
  -- from here on the two contexts differ, and `rfl` would compare whole searches
  simp only [Except.map, bind, Except.bind]
  rcases chainsOf text with e | branches
  · simp only
  · simp only
    have hm : View.Agree inside (Matcher.mk ctx text branches).context.tree v' := h
    exact Matcher.fresh_ask_withTree hm hd hn hroot call

end DomQuery.Query
