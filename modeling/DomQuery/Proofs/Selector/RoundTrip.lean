import DomQuery.Proofs.Selector.Legible

/-!
# Selectors that are written and read again

A selector that was read, and keeps no argument as words or text, is read back from its
canonical text: it comes out as it was, but for the numbers of its lists. For this its type
selectors have to begin their compounds.

* `spells_branchTexts`: the branches of a list, with commas between them.
* `SelectorList.readsBack`: the text of a list, by induction along its nesting.
* `SelectorList.ofText_text`: the text of a selector.
-/

namespace DomQuery.Selector

open DomQuery.Css DomQuery.Text

/-! ### Branches of a list -/

/-- The items are read as the branch, up to the numbers of lists. -/
def Complex.IsReadOf (within : Complex) (group : List Item) : Prop :=
  Gives (readComplex group) fun found => found.unnumbered = within.unnumbered

/-- The branch is one that is read, and the lists in it are read back. -/
structure Complex.Readable (within : Complex) : Prop where
  fits : within.Fits
  typesFirst : within.TypesFirst
  components : ∀ c ∈ within.components, c.Readable

section Branches

variable {rest : List Char}

theorem Complex.Readable.spells {within : Complex} (h : within.Readable) (hrest : EndsBranch rest)
    (k : Nat) : ∃ vs, Spells (List.replicate k ' ' ++ within.text.toList) vs rest ∧
      (∀ v ∈ vs, v.first ≠ .comma) ∧ within.IsReadOf (Item.ofValues vs) := by
  obtain ⟨vs, hspells, hreads⟩ :=
    (h.fits.legible h.typesFirst).spells h.components hrest (fun _ : k ≠ 0 => rfl) true
  refine ⟨vs, hspells, hreads.comma, ?_⟩
  have hread : ReadsTo false [] vs within.components :=
    hreads.reads rfl nofun fun hnil => absurd hnil h.fits.nonempty
  exact (hread _ (Nat.le_refl _)).map fun found hfound => congrArg Complex.mk hfound

/-- The texts of the branches of a list, in order. -/
theorem texts_eq (selectors : List Complex) :
    Complex.texts selectors = selectors.map Complex.text := by
  induction selectors with
  | nil => rfl
  | cons within selectors ih =>
    obtain ⟨components⟩ := within
    rw [Complex.texts, ih]
    rfl

theorem spells_branchTexts {selectors : List Complex} (h : ∀ within ∈ selectors, within.Readable)
    (hne : selectors ≠ []) (hrest : EndsList rest) (k : Nat) :
    ∃ vs, Spells (List.replicate k ' ' ++ (", ".intercalate (selectors.map Complex.text)).toList) vs
        rest ∧
      List.Forall₂ (fun group within => within.IsReadOf group) (splitCommas (Item.ofValues vs))
        selectors := by
  induction selectors generalizing k with
  | nil => exact absurd rfl hne
  | cons within selectors ih =>
    obtain ⟨hwithin, hselectors⟩ := List.forall_mem_cons.mp h
    rcases selectors with _ | ⟨within', selectors⟩
    · have hend : EndsBranch rest := fun c hc => .inr (hrest c hc)
      obtain ⟨vs, hspells, hcomma, hread⟩ := hwithin.spells hend k
      rw [List.map_cons, List.map_nil, String.intercalate_singleton]
      refine ⟨vs, hspells, ?_⟩
      rw [splitCommas_of_forall (isComma_ofValues hcomma)]
      exact .cons hread .nil
    · obtain ⟨ws, hspellsRest, hreadRest⟩ := ih hselectors (List.cons_ne_nil _ _) 1
      have hend : ∀ rest, EndsBranch (',' :: rest) := by
        rintro rest _ ⟨⟩
        exact .inl rfl
      obtain ⟨vs, hspells, hcomma, hread⟩ := hwithin.spells (hend _) k
      have htext : (", ".intercalate ((within :: within' :: selectors).map Complex.text)).toList =
          within.text.toList ++ ([','] ++ (List.replicate 1 ' ' ++
            (", ".intercalate ((within' :: selectors).map Complex.text)).toList)) := by
        rw [List.map_cons, List.map_cons, String.intercalate_cons_cons]
        simp
      refine ⟨vs ++ ([.token .comma] ++ ws), ?_, ?_⟩
      · rw [htext, ← List.append_assoc]
        have hcomma : Spells [','] [.token .comma] (List.replicate 1 ' ' ++
            (", ".intercalate ((within' :: selectors).map Complex.text)).toList ++ rest) :=
          spells_token (show Token.scan? _ = some (.comma, _) from rfl) rfl
        exact hspells.append (hcomma.append hspellsRest)
      · rw [Item.ofValues_append, Item.ofValues_append]
        change List.Forall₂ _ (splitCommas (_ ++ .token .comma :: Item.ofValues ws)) _
        rw [splitCommas_append (isComma_ofValues hcomma)]
        exact .cons hread hreadRest

end Branches

/-! ### Lists -/

theorem gives_freshId : Gives freshId fun _ => True :=
  fun n => ⟨⟨n⟩, n + 1, rfl, trivial⟩

theorem SelectorList.unnumbered_eq {list list' : SelectorList}
    (h : List.Forall₂ (fun found within => found.unnumbered = within.unnumbered) list'.selectors
      list.selectors) : list'.unnumbered = list.unnumbered := by
  have hmap : list'.selectors.map Complex.unnumbered = list.selectors.map Complex.unnumbered := by
    rw [← List.forall₂_eq_eq_eq, List.forall₂_map_left_iff, List.forall₂_map_right_iff]
    exact h
  obtain ⟨id, selectors⟩ := list
  obtain ⟨id', selectors'⟩ := list'
  rw [unnumbered, unnumbered, renumber_mk, renumber_mk]
  exact congrArg (SelectorList.mk ⟨0⟩) hmap

/-- Nothing is left out if every branch is read. -/
theorem forall₂_of_found {α κ : Type} {R : α → κ → Prop} {found : List (Option α)} {ks : List κ}
    (h : List.Forall₂ (fun r k => ∃ a, r = some a ∧ R a k) found ks) :
    List.Forall₂ R (found.filterMap fun r => r) ks := by
  induction h with
  | nil => exact .nil
  | cons hr _ ih =>
    obtain ⟨a, rfl, ha⟩ := hr
    exact .cons ha ih

theorem gives_readList {items : List Item} {list : SelectorList}
    (h : List.Forall₂ (fun group within => within.IsReadOf group) (splitCommas items)
      list.selectors) (forgiving : Bool) :
    Gives (readList forgiving items) fun list' => list'.unnumbered = list.unnumbered := by
  have hbranches : List.Forall₂ (fun branch (within : Complex) => Gives branch fun found =>
      found.unnumbered = within.unnumbered) ((splitCommas items).map readComplex) list.selectors :=
    List.forall₂_map_left_iff.mpr h
  refine gives_freshId.bind fun id _ => ?_
  cases forgiving with
  | true =>
    have hattempts := hbranches.imp fun branch within hread => hread.attempt
    exact (Gives.mapM hattempts).bind fun found hfound =>
      .pure (SelectorList.unnumbered_eq (forall₂_of_found hfound))
  | false =>
    exact (Gives.mapM hbranches).bind fun found hfound =>
      .pure (SelectorList.unnumbered_eq hfound)

/-- The branch that an empty text stands for is left out. -/
theorem gives_readList_nil {list : SelectorList} (h : list.selectors = []) :
    Gives (readList true []) fun list' => list'.unnumbered = list.unnumbered := by
  intro n
  refine ⟨.mk ⟨n⟩ [], n + 1, rfl, SelectorList.unnumbered_eq ?_⟩
  rw [h]
  exact .nil

theorem SelectorList.text_eq (list : SelectorList) :
    list.text = ", ".intercalate (list.selectors.map Complex.text) := by
  obtain ⟨id, selectors⟩ := list
  rw [text, texts_eq]
  rfl

theorem SelectorList.readsBack_of_readable {list : SelectorList}
    (h : ∀ within ∈ list.selectors, within.Readable) : list.ReadsBack := by
  intro k rest hk hrest
  rw [text_eq]
  by_cases hnil : list.selectors = []
  · obtain rfl := hk hnil
    refine ⟨[], ?_, fun forgiving hforgiving => ?_⟩
    · rw [hnil]
      exact spells_nil
    · obtain rfl := hforgiving hnil
      exact gives_readList_nil hnil
  · obtain ⟨vs, hspells, hread⟩ := spells_branchTexts h hnil hrest k
    exact ⟨vs, hspells, fun forgiving _ => gives_readList hread forgiving⟩

/-- In this list and in all lists in it, type selectors begin their compounds, and no argument is
kept as words or as text. -/
structure SelectorList.Printable (list : SelectorList) : Prop where
  typesFirst : ∀ inner ∈ list.allLists, ∀ within ∈ inner.selectors, within.TypesFirst
  isVerbatim : ∀ inner ∈ list.allLists, ∀ within ∈ inner.selectors, ∀ c ∈ within.components,
    c.isVerbatim = false

theorem SelectorList.mem_allLists_self (list : SelectorList) : list ∈ list.allLists :=
  List.mem_cons_self

/-- The lists in an argument are among all lists, with those in them. -/
theorem SelectorList.allLists_subset {list inner : SelectorList} {within : Complex} {c : Component}
    (hw : within ∈ list.selectors) (hc : c ∈ within.components) (hi : inner ∈ c.lists) :
    inner.allLists ⊆ list.allLists := by
  intro list' hl
  rw [allLists_eq]
  refine List.mem_cons_of_mem _ (List.mem_flatMap.mpr ⟨within, hw, ?_⟩)
  exact List.mem_flatMap.mpr ⟨c, hc, List.mem_flatMap.mpr ⟨inner, hi, hl⟩⟩

/-- A sound list is read back from its text. -/
theorem SelectorList.readsBack {list : SelectorList} (h : list.Sound) (hp : list.Printable) :
    list.ReadsBack := by
  induction list using SelectorList.induct with
  | h list ih =>
    have hself := list.mem_allLists_self
    refine readsBack_of_readable fun within hw => ⟨h list hself within hw,
      hp.typesFirst list hself within hw, fun c hc => ⟨(h list hself within hw).components c hc,
        hp.isVerbatim list hself within hw c hc, fun inner hi => ?_⟩⟩
    have hsubset := allLists_subset hw hc hi
    exact ih within hw c hc inner hi (fun list' hl => h list' (hsubset hl))
      ⟨fun list' hl => hp.typesFirst list' (hsubset hl),
        fun list' hl => hp.isVerbatim list' (hsubset hl)⟩

/-- A selector is read back from its text, up to the numbers of its lists. -/
theorem SelectorList.ofText_text {text : String} {list : SelectorList} (h : ofText text = .ok list)
    (hp : list.Printable) :
    ∃ list', ofText list.text = .ok list' ∧ list'.unnumbered = list.unnumbered := by
  obtain ⟨hsound, hne⟩ := sound_of_parse (mapError_eq_ok.mp h)
  have hend : EndsList [] := nofun
  obtain ⟨vs, hspells, hread⟩ := readsBack hsound hp 0 [] (fun _ => rfl) hend
  have hvalues : values list.text = vs := Spells.values_eq hspells
  obtain ⟨list', n, hrun, hlist⟩ := hread false (fun hnil => absurd hnil hne) 0
  refine ⟨list', mapError_eq_ok.mpr ?_, hlist⟩
  rw [parse, hvalues, hrun]

/-- A list in a step in a list, with an escaped comma and combinators side by side. -/
def nestedList : SelectorList :=
  .mk ⟨0⟩
    [.mk [.combinator .child, .type ⟨some .any, "p"⟩, .className "x,", .combinator .descendant,
      .type ⟨none, "y"⟩, .combinator .subsequentSibling, .combinator .nextSibling,
      .attr ⟨some (.named "p"), "a", some ⟨.equals, "v", some "i"⟩⟩,
      .pseudoClass "not" (some (.selectors (.mk ⟨1⟩ [.mk [.type ⟨none, "b"⟩],
        .mk [.pseudoClass "nth-child"
          (some (.nth 2 (-3) (some (.mk ⟨2⟩ [.mk [.id "c"]]))))]])))],
    .mk [.pseudoClass "is" (some (.selectors (.mk ⟨3⟩ [])))]]

theorem ofText_nestedList : SelectorList.ofText
    "> *|p.x\\, y~+[p|a=v i]:not(b, :nth-child(2n - 3 of #c)), :is()" = .ok nestedList := by cbv

theorem printable_nestedList : nestedList.Printable :=
  ⟨by decide, by decide⟩

theorem SelectorList.ofText_text_nested : nestedList.Printable ∧ ∃ list',
    ofText nestedList.text = .ok list' ∧ list'.unnumbered = nestedList.unnumbered :=
  ⟨printable_nestedList, ofText_text ofText_nestedList printable_nestedList⟩

example : nestedList.text =
    "> *|p.x\\, y ~  + [p|a=\"v\" i]:not(b, :nth-child(2n-3 of #c)), :is()" := by cbv

end DomQuery.Selector
