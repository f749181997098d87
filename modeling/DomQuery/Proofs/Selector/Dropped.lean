import DomQuery.Proofs.Selector.Replaced

/-!
# Leaving a faulty branch out

A faulty branch of `:is()` or `:where()` has no chain, so it can as well be missing.
The list may be anywhere in a selector, with other lists around it, strict ones and
forgiving ones. One thing is looked at before faulty branches are left out, though:
whether there is a `:has()` in the argument of a `:has()`.

* `Component.Drops`: a faulty branch is left out somewhere in a component.
* `Drops.toOption_resolve`: the selector comes to the same chains, if in the
  arguments of `:has()` around the branch no other `:has()` goes missing with it.
-/

namespace DomQuery.Selector

/-- A list but for one of its components. -/
structure Slot where
  id : ListId
  before : List Complex
  pre : List Component
  post : List Component
  after : List Complex

/-- The list with this component. -/
def Slot.list (slot : Slot) (c : Component) : SelectorList :=
  .mk slot.id (slot.before ++ .mk (slot.pre ++ c :: slot.post) :: slot.after)

/-- `c'` is `c` without a faulty branch of a forgiving list somewhere in it. Of each
argument of `:has()` around that list, `keeps` is asked, before and after. -/
inductive Component.Drops (keeps : SelectorList → SelectorList → Prop) :
    Component → Component → Prop
  | here {name : String} {id : ListId} {before after : List Complex} {branch : Complex}
      {e : SelectorError} (hname : name = "is" ∨ name = "where")
      (hfault : fresh (branch.branch .forgiving) = .error e) :
      Drops keeps (.pseudoClass name (some (.selectors (.mk id (before ++ branch :: after)))))
        (.pseudoClass name (some (.selectors (.mk id (before ++ after)))))
  | inside {c d d' : Component} {slot : Slot} (hlist : c.lists = [slot.list d])
      (h : Drops keeps d d')
      (hhas : ∀ argument, c = .pseudoClass "has" argument → keeps (slot.list d) (slot.list d')) :
      Drops keeps c (c.withLists [slot.list d'])

/-- `list'` is `list` without a faulty branch of a forgiving list somewhere in it. -/
def SelectorList.Drops (keeps : SelectorList → SelectorList → Prop) (list list' : SelectorList) :
    Prop :=
  ∃ (slot : Slot) (c c' : Component), list = slot.list c ∧ list' = slot.list c' ∧ c.Drops keeps c'

/-- Both lists contain `:has()`, or neither does. -/
def SelectorList.SameHas (list list' : SelectorList) : Prop :=
  list'.containsHas = list.containsHas

namespace Slot

variable (slot : Slot)

theorem ids_list (c : Component) : (slot.list c).ids =
    slot.id :: (slot.before.flatMap Complex.ids ++ (slot.pre.flatMap Component.ids ++
      (c.ids ++ (slot.post.flatMap Component.ids ++ slot.after.flatMap Complex.ids)))) := by
  rw [SelectorList.ids_eq]
  simp [list, SelectorList.id, SelectorList.selectors, Complex.ids, Complex.components]

theorem sublist_ids_list {c c' : Component} (h : c'.ids.Sublist c.ids) :
    (slot.list c').ids.Sublist (slot.list c).ids := by
  rw [ids_list, ids_list]
  exact ((List.Sublist.append_left (List.Sublist.append_left (h.append_right _) _) _).cons_cons _)

theorem nodup_ids {c : Component} (h : (slot.list c).Distinct) : c.ids.Nodup := by
  change (slot.list c).ids.Nodup at h
  rw [ids_list] at h
  refine h.sublist (List.Sublist.cons _ ?_)
  exact ((List.sublist_append_left _ _).trans (List.sublist_append_right _ _)).trans
    (List.sublist_append_right _ _)

theorem partOf_self (part : Combinator ⊕ Except SelectorError Simple) :
    PartOf (Simple.renumber fun number => number) part part := by
  rcases part with c | e | s
  · exact .combinator c
  · exact .faulty e e
  · have h := PartOf.simple (ρ := Simple.renumber fun number => number) s
    rwa [s.renumber_self] at h

/-- A component counts for its simple selector. -/
theorem replaces {c c' : Component} (hd : (slot.list c).Distinct) (hd' : (slot.list c').Distinct)
    (h : PartOf (Simple.renumber fun number => number) c.simplePart c'.simplePart) :
    (slot.list c).Replaces (fun number => number) (slot.list c') := by
  have hsame : ∀ components : List Component, List.Forall₂ (fun c c' =>
      PartOf (Simple.renumber fun number => number) c.simplePart c'.simplePart)
        components components :=
    fun _ => List.forall₂_same.mpr fun _ _ => partOf_self _
  have hwithin : ∀ selectors : List Complex,
      List.Forall₂ (Complex.PartsOf fun number => number) selectors selectors :=
    fun _ => List.forall₂_same.mpr fun _ _ => hsame _
  exact hd.replaces hd' rfl
    (List.rel_append (hwithin _) (.cons (List.rel_append (hsame _) (.cons h (hsame _))) (hwithin _)))

end Slot

namespace SelectorList.Distinct

variable {id : ListId} {before after : List Complex} {branch : Complex} {e : SelectorError}

theorem without (hd : (mk id (before ++ branch :: after)).Distinct) :
    (mk id (before ++ after)).Distinct := by
  change (mk id (before ++ branch :: after)).ids.Nodup at hd
  change (mk id (before ++ after)).ids.Nodup
  rw [ids_eq] at hd ⊢
  refine hd.sublist (List.Sublist.cons_cons _ ?_)
  simp only [selectors, List.flatMap_append, List.flatMap_cons]
  exact List.Sublist.append_left (List.sublist_append_right _ _) _

/-- A forgiving list has the chains of its branches that are not faulty. -/
theorem toOption_resolve_without (hd : (mk id (before ++ branch :: after)).Distinct)
    (hfault : fresh (branch.branch .forgiving) = .error e) :
    ((mk id (before ++ after)).resolve .forgiving).toOption =
      ((mk id (before ++ branch :: after)).resolve .forgiving).toOption := by
  have hmode : ∀ list : SelectorList, ListMode.forgiving = .relative → list.containsHas = false :=
    fun _ h => nomatch h
  obtain ⟨top, htop, hrequests⟩ := hd.exists_requests (hmode _)
  obtain ⟨known, hk⟩ := htop.exists_knows
  have hnone : branch.chain? .forgiving = none :=
    hrequests.chain?_of_error htop hk (by simp [selectors]) hfault
  rw [hd.toOption_resolve (hmode _), hd.without.toOption_resolve (hmode _), collectChains,
    collectChains]
  simp [selectors, hnone]

end SelectorList.Distinct

theorem renumberBranches_self (branches : List (Chain Compound)) :
    renumberBranches (fun number => number) branches = branches := by
  have hcompound : Compound.renumber (fun number => number) = fun k => k := by
    funext k
    rw [Compound.renumber, List.map_congr_left fun s _ => s.renumber_self, List.map_id']
  have hchain : Chain.map (fun k : Compound => k) = fun c => c := by
    funext c
    simp [Chain.map]
  rw [renumberBranches, hcompound, hchain, List.map_id']

theorem Component.lists_withLists {c : Component} {list list' : SelectorList}
    (h : c.lists = [list]) : (c.withLists [list']).lists = [list'] := by
  rcases c with _ | _ | _ | _ | _ | ⟨name, _ | ⟨inner⟩ | ⟨a, b, _ | inner⟩ | _ | _⟩ | _
  all_goals
    first
    | rfl
    | cases h

/-- A component without a faulty branch somewhere in it has the same simple selector. -/
theorem Component.Drops.partOf {c c' : Component} (h : c.Drops SelectorList.SameHas c')
    (hd : c.ids.Nodup) : c'.ids.Sublist c.ids ∧
      PartOf (Simple.renumber fun number => number) c.simplePart c'.simplePart := by
  induction h with
  | @here name id before after branch e hname hfault =>
    have hd : (SelectorList.mk id (before ++ branch :: after)).Distinct := by
      change (SelectorList.ids _).Nodup
      simpa [ids, lists, Argument.lists] using hd
    refine ⟨?_, ?_⟩
    · simp only [ids, lists, Argument.lists, List.flatMap_cons, List.flatMap_nil, List.append_nil]
      rw [SelectorList.ids_eq, SelectorList.ids_eq]
      refine List.Sublist.cons_cons _ ?_
      simp only [SelectorList.selectors, List.flatMap_append, List.flatMap_cons]
      exact List.Sublist.append_left (List.sublist_append_right _ _) _
    · have hpart : PartOf (Simple.renumber fun number => number)
          (.inr (Simple.matchesAny <$> (SelectorList.mk id (before ++ branch :: after)).resolve .forgiving))
          (.inr (Simple.matchesAny <$> (SelectorList.mk id (before ++ after)).resolve .forgiving)) := by
        refine toOption_map_comm ?_ fun branches => ?_
        · rw [hd.toOption_resolve_without hfault, funext renumberBranches_self, Option.map_id']
        · rw [renumberBranches_self, Simple.renumber_self]
      rcases hname with rfl | rfl
      · exact hpart
      · exact hpart
  | @inside c d d' slot hlist h hhas ih =>
    have hids : c.ids = (slot.list d).ids := by simp [ids, hlist]
    have hd : (slot.list d).Distinct := by
      change (slot.list d).ids.Nodup
      rwa [← hids]
    obtain ⟨hsub, hpart⟩ := ih (slot.nodup_ids hd)
    have hsub : (slot.list d').ids.Sublist (slot.list d).ids := slot.sublist_ids_list hsub
    have hd' : (slot.list d').Distinct := hsub.nodup hd
    refine ⟨?_, c.partOf_replaced hlist (slot.replaces hd hd' hpart) hhas⟩
    rw [hids]
    simpa [ids, Component.lists_withLists hlist] using hsub

namespace SelectorList.Drops

variable {list list' : SelectorList}

theorem distinct (h : list.Drops SameHas list') (hd : list.Distinct) : list'.Distinct := by
  obtain ⟨slot, c, c', rfl, rfl, hdrops⟩ := h
  exact (slot.sublist_ids_list (hdrops.partOf (slot.nodup_ids hd)).1).nodup hd

/-- A selector without a faulty branch of a forgiving list has the same chains. -/
theorem toOption_resolve (h : list.Drops SameHas list') (hd : list.Distinct) :
    (list'.resolve .strict).toOption = (list.resolve .strict).toOption := by
  have hd' := h.distinct hd
  obtain ⟨slot, c, c', rfl, rfl, hdrops⟩ := h
  have hreplaces := slot.replaces hd hd' (hdrops.partOf (slot.nodup_ids hd)).2
  rw [hreplaces.resolve_eq .strict nofun, funext renumberBranches_self, Option.map_id']

end SelectorList.Drops

end DomQuery.Selector
