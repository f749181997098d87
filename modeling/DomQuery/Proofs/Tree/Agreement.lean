import DomQuery.Proofs.Tree.Walk
import DomQuery.Tree.View
import Mathlib.Data.List.Basic
import Mathlib.Data.List.Find

/-!
# Trees that agree in a region

Two forests may have a region in common and differ elsewhere, also in how many
nodes they have. Whatever is found from inside the region by going along links,
without leaving it, is then the same in both.

* `findSome?_follow_eq`: what is found first along steps does not depend on the fuel,
  even where the steps go round in a circle.
* `Agree` says what the two forests have in common; `Agree.ancestors_eq`,
  `Agree.walk_eq`, `Agree.compareOrder_eq` and so on, that they look the same from
  inside.
-/

namespace DomQuery.Tree

/-! ### Lists -/

section Lists

variable {α β : Type} {l : List α}

theorem findSome?_congr {f g : α → Option β} (h : ∀ a ∈ l, f a = g a) :
    l.findSome? f = l.findSome? g := by
  induction l with
  | nil => rfl
  | cons a l ih =>
    obtain ⟨ha, hl⟩ := List.forall_mem_cons.mp h
    rw [List.findSome?_cons, List.findSome?_cons, ha, ih hl]

theorem findSome?_filter (p : α → Bool) (f : α → Option β) :
    (l.filter p).findSome? f = l.findSome? fun a => if p a then f a else none := by
  induction l with
  | nil => rfl
  | cons a l ih =>
    rw [List.filter_cons, List.findSome?_cons]
    split
    · rw [List.findSome?_cons, ih]
    · exact ih

theorem any_congr {p q : α → Bool} (h : ∀ a ∈ l, p a = q a) : l.any p = l.any q := by
  have hmap : l.map p = l.map q := List.map_congr_left h
  simpa [List.any_map] using congrArg (List.any · id) hmap

theorem all_congr {p q : α → Bool} (h : ∀ a ∈ l, p a = q a) : l.all p = l.all q := by
  have hmap : l.map p = l.map q := List.map_congr_left h
  simpa [List.all_map] using congrArg (List.all · id) hmap

theorem takeWhile_congr {p q : α → Bool} (h : ∀ a ∈ l, p a = q a) :
    l.takeWhile p = l.takeWhile q := by
  induction l with
  | nil => rfl
  | cons a l ih =>
    obtain ⟨ha, hl⟩ := List.forall_mem_cons.mp h
    rw [List.takeWhile_cons, List.takeWhile_cons, ha, ih hl]

end Lists

/-! ### Steps -/

section Follow

variable {ν β : Type} {step step' : ν → Option ν} {P : ν → Prop} {n : ν} {k k' : Nat}

/-- Steps that agree lead through the same nodes. -/
theorem follow_congr (h : ∀ n, P n → step' n = step n) (hP : ∀ n m, P n → step n = some m → P m)
    (k : Nat) {n : ν} (hn : P n) :
    follow step' k n = follow step k n ∧ ∀ m ∈ follow step k n, P m := by
  induction k generalizing n with
  | zero => simp [follow]
  | succ k ih =>
    rw [follow, follow, h n hn]
    cases hs : step n with
    | none => simp
    | some m =>
      obtain ⟨heq, hall⟩ := ih (hP n m hn hs)
      simp only [heq, true_and]
      exact List.forall_mem_cons.mpr ⟨hP n m hn hs, hall⟩

/-- More fuel leads through the same nodes, and then on. -/
theorem follow_isInit (step : ν → Option ν) (h : k ≤ k') (n : ν) :
    follow step k n <+: follow step k' n := by
  induction k generalizing n k' with
  | zero => exact List.nil_prefix
  | succ k ih =>
    obtain ⟨k', rfl⟩ : ∃ j, k' = j + 1 := ⟨k' - 1, by omega⟩
    rw [follow, follow]
    split
    · exact List.cons_prefix_cons.mpr ⟨rfl, ih (by omega) _⟩
    · exact List.prefix_rfl

/-- Where the fuel was not used up, more of it leads nowhere else. -/
theorem follow_eq_of_lt (hk : (follow step k n).length < k) (h : k ≤ k') :
    follow step k' n = follow step k n := by
  induction h with
  | refl => rfl
  | step hj ih => rw [follow_succ_of_lt (by rw [ih]; exact Nat.lt_of_lt_of_le hk hj), ih]

/-- Where every step leads on, so do all of them together. -/
theorem pairwise_follow {R : ν → ν → Prop} (htrans : ∀ {a b c}, R a b → R b c → R a c)
    (hP : ∀ n m, P n → step n = some m → P m ∧ R n m) (k : Nat) {n : ν} (hn : P n) :
    (n :: follow step k n).Pairwise R := by
  induction k generalizing n with
  | zero => simp [follow]
  | succ k ih =>
    rw [follow]
    cases hs : step n with
    | none => simp
    | some m =>
      obtain ⟨hm, hnm⟩ := hP n m hn hs
      refine List.pairwise_cons.mpr ⟨List.forall_mem_cons.mpr ⟨hnm, fun x hx => ?_⟩, ih hm⟩
      exact htrans hnm ((List.pairwise_cons.mp (ih hm)).1 x hx)

/-- Where no node comes up twice, the fuel does not matter. -/
theorem follow_eq_of_nodup {nodes : List ν} (hn : ∀ k, (n :: follow step k n).Nodup)
    (hs : ∀ k, n :: follow step k n ⊆ nodes) (hk : nodes.length ≤ k) (hk' : nodes.length ≤ k') :
    follow step k' n = follow step k n := by
  have hlt : ∀ j, (follow step j n).length < nodes.length := fun j =>
    (hn j).length_le_of_subset (hs j)
  rw [follow_eq_of_lt (hlt nodes.length) hk, follow_eq_of_lt (hlt nodes.length) hk']

/-- What comes after a node along steps is found by steps from that node. -/
theorem exists_follow_of_append {before after : List ν} {m : ν}
    (h : n :: follow step k n = before ++ m :: after) : ∃ j, after = follow step j m := by
  induction before generalizing n k with
  | nil =>
    obtain ⟨rfl, rfl⟩ := List.cons.inj h
    exact ⟨k, rfl⟩
  | cons x before ih =>
    have htail := (List.cons.inj h).2
    cases k with
    | zero => simp [follow] at htail
    | succ k =>
      rw [follow] at htail
      split at htail
      · exact ih htail
      · simp at htail

/-- The nodes up to the first one where something is found are different, even
where the steps go round in a circle. -/
theorem nodup_of_first {f : ν → Option β} {before after : List ν} {m : ν}
    (h : n :: follow step k n = before ++ m :: after) (hbefore : ∀ x ∈ before, f x = none)
    (hm : f m ≠ none) : (before ++ [m]).Nodup := by
  induction before generalizing n k with
  | nil => simp
  | cons x before ih =>
    obtain ⟨rfl, htail⟩ := List.cons.inj h
    obtain ⟨hx, hbefore⟩ := List.forall_mem_cons.mp hbefore
    have hfrom := htail
    cases k with
    | zero => simp [follow] at htail
    | succ k =>
      rw [follow] at htail
      split at htail
      case h_2 => simp at htail
      rename_i y hy
      refine List.nodup_cons.mpr ⟨fun hmem => ?_, ih htail hbefore⟩
      rcases List.mem_append.mp hmem with hmem | hmem
      · -- the steps from `n` would come to `m` sooner than they do
        obtain ⟨p, q, rfl⟩ := List.append_of_mem hmem
        have hagain : y :: follow step k y = p ++ n :: (q ++ m :: after) := by simpa using htail
        obtain ⟨j, hj⟩ := exists_follow_of_append hagain
        have hsooner : q ++ m :: after <+: follow step (k + 1) n := by
          rw [hj]
          refine follow_isInit step ?_ n
          by_contra hlonger
          have hlength := (follow_isInit step (Nat.le_of_not_ge hlonger) n).length_le
          rw [← hj, hfrom] at hlength
          simp at hlength
          omega
        rw [hfrom] at hsooner
        have hinit : q ++ [m] <+: p ++ n :: q := by
          refine List.prefix_of_prefix_length_le ?_ (List.prefix_append _ (m :: after)) (by simp)
          exact List.IsPrefix.trans ⟨after, by simp⟩ hsooner
        exact hm (hbefore m (hinit.subset (by simp)))
      · obtain rfl := List.mem_singleton.mp hmem
        exact hm hx

/-- What is found first along steps is found before any node comes up again. So it
does not depend on the fuel, if that is as much as there are nodes. -/
theorem findSome?_follow_eq {nodes : List ν} (f : ν → Option β)
    (hs : ∀ k, n :: follow step k n ⊆ nodes) (hk : nodes.length ≤ k) (hk' : k ≤ k') :
    (n :: follow step k' n).findSome? f = (n :: follow step k n).findSome? f := by
  by_cases hlt : (follow step k n).length < k
  · rw [follow_eq_of_lt hlt hk']
  obtain ⟨more, hmore⟩ := follow_isInit step hk' n
  have hsplit : n :: follow step k' n = (n :: follow step k n) ++ more := by rw [← hmore]; rfl
  rw [hsplit, List.findSome?_append]
  cases hfirst : (n :: follow step k n).findSome? f with
  | some b => rfl
  | none =>
    rw [Option.none_or]
    by_contra hfound
    obtain ⟨b, hb⟩ := Option.ne_none_iff_exists'.mp hfound
    obtain ⟨before, m, after, rfl, hm, hbefore⟩ := List.findSome?_eq_some_iff.mp hb
    have hfirst : ∀ x ∈ n :: follow step k n ++ before, f x = none := fun x hx =>
      (List.mem_append.mp hx).elim (List.findSome?_eq_none_iff.mp hfirst x) (hbefore x)
    have hnodup := nodup_of_first (hsplit.trans (List.append_assoc _ _ _).symm) hfirst (by simp [hm])
    have hsub : n :: follow step k n ++ before ++ [m] ⊆ nodes := fun x hx =>
      hs k' (by rw [hsplit]; simp only [List.mem_append, List.mem_cons] at hx ⊢; tauto)
    have hlength := hnodup.length_le_of_subset hsub
    simp only [List.length_append, List.length_cons, List.length_nil] at hlength
    omega

end Follow

/-! ### Regions -/

namespace Links

variable {ν : Type}

namespace IsForest

variable {t : Links ν} (ht : t.IsForest) [DecidableEq ν] {root n m : ν}
include ht

/-- A climb leads to what comes after the subtree of a node. -/
theorem after_of_climb {k : Nat} (hw : t.Within root n) (hm : t.climb root k n = some m) :
    t.After n m ∧ t.Below root m := by
  induction k generalizing n with
  | zero => cases hm
  | succ k ih =>
    rw [climb] at hm
    split at hm
    · cases hm
    · rename_i hn
      obtain ⟨p, hp, hwp⟩ := below_iff_parent.mp ((within_iff.mp hw).resolve_left hn)
      obtain ⟨before, after, hs⟩ := ht.children_of_parent hp
      rw [ht.nextElementSibling_eq hs] at hm
      split at hm
      · rename_i sibling hfind
        obtain rfl := Option.some.inj hm
        have hnext := (ht.precedes_iff_right hs).mpr (List.mem_of_find?_eq_some hfind)
        obtain ⟨q, hq, hsibling⟩ := ht.parent_of_precedes hnext
        obtain rfl := Option.some.inj (hp.symm.trans hq)
        exact ⟨hnext.after, below_iff_parent.mpr ⟨p, hsibling, hwp⟩⟩
      · simp only [hp] at hm
        obtain ⟨hafter, hbelow⟩ := ih hwp hm
        exact ⟨hafter.of_within (below_of_parent hp).within (.refl m), hbelow⟩

/-- The next element comes later and lies below the root. -/
theorem before_of_nextElement (hw : t.Within root n) (hm : t.nextElement root n = some m) :
    t.Before n m ∧ t.Below root m := by
  rw [nextElement, ht.firstElementChild_eq] at hm
  split at hm
  · rename_i child hfind
    obtain rfl := Option.some.inj hm
    have hp := ht.mem_children.mp (List.mem_of_find?_eq_some hfind)
    exact ⟨ht.before_of_below (below_of_parent hp), below_iff_parent.mpr ⟨n, hp, hw⟩⟩
  · obtain ⟨hafter, hbelow⟩ := ht.after_of_climb hw hm
    exact ⟨ht.before_of_after hafter, hbelow⟩

end IsForest

/-- The two forests are the same inside of a region, a part of one tree that links
do not lead out of. -/
structure Agree (inside : ν → Prop) (t t' : Links ν) : Prop where
  forest : t.IsForest
  forest' : t'.IsForest
  bounded : ∃ nodes : List ν, (∀ n, inside n → n ∈ nodes) ∧
    nodes.length ≤ t.size ∧ nodes.length ≤ t'.size
  connected : ∀ a b, inside a → inside b → t.SameTree a b
  inside_parent : ∀ n p, inside n → t.parent n = some p → inside p
  inside_child : ∀ p n, inside p → t.parent n = some p → inside n
  inside_host : ∀ n host, inside n → t.shadowHost n = some host → inside host
  kind_eq : ∀ n, inside n → t'.kind n = t.kind n
  parent_eq : ∀ n, inside n → t'.parent n = t.parent n
  children_eq : ∀ n, inside n → t'.children n = t.children n
  localName_eq : ∀ n, inside n → t'.localName n = t.localName n
  nsPrefix_eq : ∀ n, inside n → t'.nsPrefix n = t.nsPrefix n
  ns_eq : ∀ n, inside n → t'.ns n = t.ns n
  attributes_eq : ∀ n, inside n → t'.attributes n = t.attributes n
  textData_eq : ∀ n, inside n → t'.textData n = t.textData n
  shadowHost_eq : ∀ n, inside n → t'.shadowHost n = t.shadowHost n
  isHtmlDocument_eq : ∀ n, inside n → t'.isHtmlDocument n = t.isHtmlDocument n

namespace Agree

variable {inside : ν → Prop} {t t' : Links ν} (h : Agree inside t t')
include h

/-! #### Ways up and down -/

theorem inside_children {n : ν} (hn : inside n) : ∀ c ∈ t.children n, inside c :=
  fun c hc => h.inside_child n c hn (h.forest.mem_children.mp hc)

theorem parent_iff {p n : ν} (hp : inside p) : t'.parent n = some p ↔ t.parent n = some p := by
  rw [← h.forest'.mem_children, ← h.forest.mem_children, h.children_eq p hp]

theorem ancestors_eq {n : ν} (hn : inside n) : t'.ancestors n = t.ancestors n := by
  induction n using h.forest.induction with
  | top n hp =>
    rw [ancestors_of_parent_none hp, ancestors_of_parent_none ((h.parent_eq n hn).trans hp)]
  | child n p hp ih =>
    rw [h.forest.ancestors_of_parent hp,
      h.forest'.ancestors_of_parent ((h.parent_eq n hn).trans hp), ih (h.inside_parent n p hn hp)]

theorem inside_ancestors {n : ν} (hn : inside n) : ∀ m ∈ t.ancestors n, inside m := by
  induction n using h.forest.induction with
  | top n hp => simp [ancestors_of_parent_none hp]
  | child n p hp ih =>
    have hinside := h.inside_parent n p hn hp
    rw [h.forest.ancestors_of_parent hp]
    exact List.forall_mem_cons.mpr ⟨hinside, ih hinside⟩

theorem inside_line {n : ν} (hn : inside n) : ∀ m ∈ n :: t.ancestors n, inside m :=
  List.forall_mem_cons.mpr ⟨hn, h.inside_ancestors hn⟩

/-- A way up has fewer nodes than the region. -/
theorem length_ancestors_lt {nodes : List ν} (hnodes : ∀ n, inside n → n ∈ nodes) {n : ν}
    (hn : inside n) : (t.ancestors n).length < nodes.length :=
  (nodup_follow h.forest.acyclic t.size n).2.length_le_of_subset fun m hm =>
    hnodes m (h.inside_line hn m hm)

theorem topmost_eq {n : ν} (hn : inside n) : t'.topmost n = t.topmost n := by
  rw [topmost, topmost, h.ancestors_eq hn]

theorem inside_topmost {n : ν} (hn : inside n) : inside (t.topmost n) := by
  rw [topmost]
  cases hl : (t.ancestors n).getLast? with
  | none => exact hn
  | some m => exact h.inside_ancestors hn m (List.mem_of_getLast? hl)

theorem contains_eq [DecidableEq ν] (top : ν) {n : ν} (hn : inside n) :
    t'.contains top n = t.contains top n := by
  rw [contains, contains, h.ancestors_eq hn]

theorem within_iff {top n : ν} (hn : inside n) : t'.Within top n ↔ t.Within top n := by
  classical rw [← h.forest'.contains_iff, ← h.forest.contains_iff, h.contains_eq top hn]

theorem below_iff {top n : ν} (hn : inside n) : t'.Below top n ↔ t.Below top n := by
  rw [← h.forest'.mem_ancestors, ← h.forest.mem_ancestors, h.ancestors_eq hn]

theorem inside_above {top n : ν} (hn : inside n) (hw : t.Within top n) : inside top := by
  rcases Links.within_iff.mp hw with rfl | hb
  · exact hn
  · exact h.inside_ancestors hn top (h.forest.mem_ancestors.mpr hb)

theorem inside_below {top n : ν} (ht : inside top) (hw : t.Within top n) : inside n := by
  induction hw with
  | refl => exact ht
  | tail _ hp ih => exact h.inside_child _ _ ih hp

/-- Nothing else lies below a node inside in the other forest. -/
theorem inside_below' {top n : ν} (ht : inside top) (hw : t'.Within top n) : inside n := by
  induction hw with
  | refl => exact ht
  | tail _ hp ih => exact h.inside_child _ _ ih ((h.parent_iff ih).mp hp)

/-- What lies below a node inside does so in both forests, wherever it is. -/
theorem contains_eq_of_inside [DecidableEq ν] {top : ν} (ht : inside top) (n : ν) :
    t'.contains top n = t.contains top n := by
  rw [Bool.eq_iff_iff, h.forest'.contains_iff, h.forest.contains_iff]
  exact ⟨fun hw => (h.within_iff (h.inside_below' ht hw)).mp hw,
    fun hw => (h.within_iff (h.inside_below ht hw)).mpr hw⟩

/-! #### Order -/

theorem precedes_iff {a b : ν} (ha : inside a) : t'.Precedes a b ↔ t.Precedes a b := by
  constructor
  · rintro ⟨p, before, between, after, hs⟩
    have hp : t.parent a = some p :=
      (h.parent_eq a ha).symm.trans (h.forest'.parent_of_children hs)
    exact ⟨p, before, between, after, (h.children_eq p (h.inside_parent a p ha hp)).symm.trans hs⟩
  · rintro ⟨p, before, between, after, hs⟩
    have hp := h.forest.parent_of_children hs
    exact ⟨p, before, between, after, (h.children_eq p (h.inside_parent a p ha hp)).trans hs⟩

theorem before_iff {a b : ν} (ha : inside a) (hb : inside b) : t'.Before a b ↔ t.Before a b := by
  rw [h.forest'.before_iff, h.forest.before_iff, h.below_iff hb]
  refine or_congr_right ⟨?_, ?_⟩
  · rintro ⟨x, y, hxy, hx, hy⟩
    have hx := (h.within_iff ha).mp hx
    exact ⟨x, y, (h.precedes_iff (h.inside_above ha hx)).mp hxy, hx, (h.within_iff hb).mp hy⟩
  · rintro ⟨x, y, hxy, hx, hy⟩
    exact ⟨x, y, (h.precedes_iff (h.inside_above ha hx)).mpr hxy, (h.within_iff ha).mpr hx,
      (h.within_iff hb).mpr hy⟩

theorem compareOrder_eq [DecidableEq ν] (apart apart' : ν → ν → Ordering) {a b : ν}
    (ha : inside a) (hb : inside b) : t'.compareOrder apart' a b = t.compareOrder apart a b := by
  rcases h.forest.before_total (h.connected a b ha hb) with rfl | hab | hba
  · simp [compareOrder]
  · rw [(h.forest.compareOrder_of_before apart hab).1,
      (h.forest'.compareOrder_of_before apart' ((h.before_iff ha hb).mpr hab)).1]
  · rw [(h.forest.compareOrder_of_before apart hba).2,
      (h.forest'.compareOrder_of_before apart' ((h.before_iff hb ha).mpr hba)).2]

/-- What is listed in document order is the same list, when it has the same members. -/
theorem eq_of_lists {scope : ν} {p q : ν → Prop} {found found' : List ν} (hs : inside scope)
    (hf : t.Lists scope p found) (hf' : t'.Lists scope q found')
    (hpq : ∀ n, inside n → (t'.isElement n = true ∧ q n ↔ t.isElement n = true ∧ p n)) :
    found' = found ∧ ∀ n ∈ found, inside n := by
  have hinside : ∀ n ∈ found, inside n := fun n hn =>
    h.inside_below hs ((hf.2 n).mp hn).2.1.within
  have hinside' : ∀ n ∈ found', inside n := fun n hn =>
    h.inside_below' hs ((hf'.2 n).mp hn).2.1.within
  refine ⟨h.forest.eq_of_pairwise_before ?_ hf.1 fun n => ?_, hinside⟩
  · exact hf'.1.imp_of_mem fun ha hb hab => (h.before_iff (hinside' _ ha) (hinside' _ hb)).mp hab
  · rw [hf.2, hf'.2]
    constructor
    · rintro ⟨he, hb, hq⟩
      have hn := h.inside_below' hs hb.within
      obtain ⟨he, hp⟩ := (hpq n hn).mp ⟨he, hq⟩
      exact ⟨he, (h.below_iff hn).mp hb, hp⟩
    · rintro ⟨he, hb, hp⟩
      have hn := h.inside_below hs hb.within
      obtain ⟨he, hq⟩ := (hpq n hn).mpr ⟨he, hp⟩
      exact ⟨he, (h.below_iff hn).mpr hb, hq⟩

/-! #### Elements -/

theorem isElement_eq {n : ν} (hn : inside n) : t'.isElement n = t.isElement n := by
  rw [isElement, isElement, h.kind_eq n hn]

theorem elementChildren_eq {n : ν} (hn : inside n) : t'.elementChildren n = t.elementChildren n := by
  rw [elementChildren, elementChildren, h.children_eq n hn]
  exact List.filter_congr fun c hc => h.isElement_eq (h.inside_children hn c hc)

theorem elementLine_eq {n : ν} (hn : inside n) : t'.elementLine n = t.elementLine n := by
  rw [elementLine, elementLine, h.ancestors_eq hn]
  exact takeWhile_congr fun m hm => h.isElement_eq (h.inside_line hn m hm)

theorem inside_elementLine {n : ν} (hn : inside n) : ∀ m ∈ t.elementLine n, inside m :=
  fun m hm => h.inside_line hn m (List.takeWhile_subset _ hm)

section Siblings

variable {p n : ν} (hp : t.parent n = some p) (hn : inside n)
include hp hn

/-- The siblings around a node, in both forests. -/
theorem exists_split : ∃ before after, t.children p = before ++ n :: after ∧
    t'.children p = before ++ n :: after ∧ (∀ m ∈ before, inside m) ∧ ∀ m ∈ after, inside m := by
  have hinside := h.inside_parent n p hn hp
  obtain ⟨before, after, hs⟩ := h.forest.children_of_parent hp
  have hall := h.inside_children hinside
  rw [hs] at hall
  exact ⟨before, after, hs, (h.children_eq p hinside).trans hs, fun m hm => hall m (by simp [hm]),
    fun m hm => hall m (by simp [hm])⟩

theorem nextElementSibling_eq : t'.nextElementSibling n = t.nextElementSibling n ∧
    ∀ m ∈ t.nextElementSibling n, inside m := by
  obtain ⟨before, after, hs, hs', -, hafter⟩ := h.exists_split hp hn
  rw [h.forest.nextElementSibling_eq hs, h.forest'.nextElementSibling_eq hs']
  exact ⟨List.find?_congr fun m hm => h.isElement_eq (hafter m hm),
    fun m hm => hafter m (List.mem_of_find?_eq_some hm)⟩

theorem previousElementSibling_eq : t'.previousElementSibling n = t.previousElementSibling n ∧
    ∀ m ∈ t.previousElementSibling n, inside m := by
  obtain ⟨before, after, hs, hs', hbefore, -⟩ := h.exists_split hp hn
  rw [h.forest.previousElementSibling_eq hs, h.forest'.previousElementSibling_eq hs']
  exact ⟨List.find?_congr fun m hm => h.isElement_eq (hbefore m (List.mem_reverse.mp hm)),
    fun m hm => hbefore m (List.mem_reverse.mp (List.mem_of_find?_eq_some hm))⟩

theorem follow_nextSibling_eq :
    follow t'.nextSibling t'.size n = follow t.nextSibling t.size n ∧
      ∀ m ∈ follow t.nextSibling t.size n, inside m := by
  obtain ⟨before, after, hs, hs', -, hafter⟩ := h.exists_split hp hn
  rw [h.forest.follow_nextSibling hs (h.forest.length_split_le hs).2,
    h.forest'.follow_nextSibling hs' (h.forest'.length_split_le hs').2]
  exact ⟨rfl, hafter⟩

theorem follow_previousSibling_eq :
    follow t'.previousSibling t'.size n = follow t.previousSibling t.size n ∧
      ∀ m ∈ follow t.previousSibling t.size n, inside m := by
  obtain ⟨before, after, hs, hs', hbefore, -⟩ := h.exists_split hp hn
  rw [h.forest.follow_previousSibling hs (h.forest.length_split_le hs).1,
    h.forest'.follow_previousSibling hs' (h.forest'.length_split_le hs').1]
  exact ⟨rfl, fun m hm => hbefore m (List.mem_reverse.mp hm)⟩

end Siblings

/-! #### Walks -/

theorem firstElementChild_eq {n : ν} (hn : inside n) :
    t'.firstElementChild n = t.firstElementChild n := by
  rw [h.forest.firstElementChild_eq, h.forest'.firstElementChild_eq, h.children_eq n hn]
  exact List.find?_congr fun c hc => h.isElement_eq (h.inside_children hn c hc)

section Walk

variable [DecidableEq ν] {root n : ν} (hr : inside root)
include hr

theorem climb_eq {k k' : Nat} (hw : t.Within root n) (hk : (t.ancestors n).length < k)
    (hk' : (t.ancestors n).length < k') : t'.climb root k' n = t.climb root k n := by
  have hn := h.inside_below hr hw
  induction k generalizing n k' with
  | zero => omega
  | succ k ih =>
    obtain ⟨k', rfl⟩ : ∃ j, k' = j + 1 := ⟨k' - 1, by omega⟩
    rw [climb, climb]
    split
    · rfl
    · rename_i hne
      obtain ⟨p, hp, hwp⟩ := below_iff_parent.mp ((Links.within_iff.mp hw).resolve_left hne)
      rw [h.forest.ancestors_of_parent hp, List.length_cons] at hk hk'
      rw [(h.nextElementSibling_eq hp hn).1, h.parent_eq n hn, hp]
      split
      · rfl
      · exact ih hwp (by omega) (by omega) (h.inside_below hr hwp)

theorem nextElement_eq (hw : t.Within root n) : t'.nextElement root n = t.nextElement root n := by
  have hn := h.inside_below hr hw
  have hlength := t.length_ancestors_le n
  have hlength' := t'.length_ancestors_le n
  rw [h.ancestors_eq hn] at hlength'
  rw [nextElement, nextElement, h.firstElementChild_eq hn,
    h.climb_eq hr hw (by omega : _ < t.size + 1) (by omega : _ < t'.size + 1)]

theorem walk_eq : t'.walk root = t.walk root ∧ ∀ m ∈ t.walk root, inside m := by
  obtain ⟨nodes, hnodes, hsize, hsize'⟩ := h.bounded
  have hstep : ∀ n m, t.Within root n → t.nextElement root n = some m →
      t.Within root m ∧ t.Before n m := fun n m hw hm =>
    have hnext := h.forest.before_of_nextElement hw hm
    ⟨hnext.2.within, hnext.1⟩
  have hsame := fun k => follow_congr (fun n hw => h.nextElement_eq hr hw)
    (fun n m hw hm => (hstep n m hw hm).1) k (Within.refl root)
  have hinside : ∀ k, ∀ m ∈ root :: follow (t.nextElement root) k root, inside m := fun k =>
    List.forall_mem_cons.mpr ⟨hr, fun m hm => h.inside_below hr ((hsame k).2 m hm)⟩
  have hordered : ∀ k, (root :: follow (t.nextElement root) k root).Pairwise t.Before := fun k =>
    pairwise_follow (R := t.Before) (fun hab hbc => h.forest.before_trans hab hbc) hstep k (.refl root)
  have hfuel := follow_eq_of_nodup (fun k => h.forest.nodup_of_pairwise (hordered k))
    (fun k m hm => hnodes m (hinside k m hm)) hsize hsize'
  exact ⟨((hsame t'.size).1).trans hfuel, fun m hm => hinside t.size m (List.mem_cons_of_mem _ hm)⟩

end Walk

/-! #### Heritage -/

theorem heritage_eq {n : ν} (hn : inside n) : t'.heritage n = t.heritage n := by
  rw [heritage, heritage, h.kind_eq n hn, h.parent_eq n hn, h.shadowHost_eq n hn]

theorem inside_heritage {n m : ν} (hn : inside n) (hm : t.heritage n = some m) : inside m := by
  unfold heritage at hm
  split at hm
  · exact h.inside_parent n m hn hm
  · exact h.inside_host n m hn hm
  · cases hm

/-- What is inherited is the same, also where the lines of heritage are not. -/
theorem findSome?_heritageLine_eq {β : Type} {f f' : ν → Option β}
    (hf : ∀ m, inside m → f' m = f m) {n : ν} (hn : inside n) :
    (t'.heritageLine n).findSome? f' = (t.heritageLine n).findSome? f := by
  obtain ⟨nodes, hnodes, hsize, hsize'⟩ := h.bounded
  have hsame := fun k => follow_congr (fun n hn => h.heritage_eq hn)
    (fun n m hn hm => h.inside_heritage hn hm) k hn
  have hinside : ∀ k, ∀ m ∈ n :: follow t.heritage k n, inside m := fun k =>
    List.forall_mem_cons.mpr ⟨hn, (hsame k).2⟩
  have hsub : ∀ k, n :: follow t.heritage k n ⊆ nodes := fun k m hm => hnodes m (hinside k m hm)
  let inherited (m : ν) : Option β := if t.isElement m then f m else none
  have hfuel : ∀ k, nodes.length ≤ k → (n :: follow t.heritage k n).findSome? inherited =
      (n :: follow t.heritage nodes.length n).findSome? inherited := fun k hk =>
    findSome?_follow_eq inherited hsub (Nat.le_refl _) hk
  rw [heritageLine, heritageLine, findSome?_filter, findSome?_filter, (hsame t'.size).1,
    findSome?_congr fun m hm => ?_]
  · exact (hfuel t'.size hsize').trans (hfuel t.size hsize).symm
  · rw [h.isElement_eq (hinside _ m hm), hf m (hinside _ m hm)]

/-! #### Names, attributes and texts -/

section Attributes

variable {n : ν} (hn : inside n)
include hn

theorem isHtmlElement_eq : t'.isHtmlElement n = t.isHtmlElement n := by
  rw [isHtmlElement, isHtmlElement, h.ns_eq n hn, h.isHtmlDocument_eq n hn]

theorem isHtmlNamed_eq (name : String) : t'.isHtmlNamed n name = t.isHtmlNamed n name := by
  rw [isHtmlNamed, isHtmlNamed, h.isElement_eq hn, h.isHtmlElement_eq hn, h.localName_eq n hn]

theorem attribute?_eq (name : String) : t'.attribute? n name = t.attribute? n name := by
  rw [attribute?, attribute?, h.isHtmlElement_eq hn, h.attributes_eq n hn]

theorem hasAttribute_eq (name : String) : t'.hasAttribute n name = t.hasAttribute n name := by
  rw [hasAttribute, hasAttribute, h.attribute?_eq hn]

theorem id?_eq : t'.id? n = t.id? n :=
  h.attribute?_eq hn "id"

theorem hasClass_eq (name : String) : t'.hasClass n name = t.hasClass n name := by
  rw [hasClass, hasClass, h.attribute?_eq hn]

theorem childText_eq : t'.childText n = t.childText n := by
  rw [childText, childText, h.children_eq n hn]
  refine congrArg String.join (List.filterMap_congr fun c hc => ?_)
  rw [h.kind_eq c (h.inside_children hn c hc), h.textData_eq c (h.inside_children hn c hc)]

theorem initialValue_eq : t'.initialValue n = t.initialValue n := by
  rw [initialValue, initialValue, h.localName_eq n hn, h.childText_eq hn, h.attribute?_eq hn]

theorem declaredNamespace?_eq (p : String) : t'.declaredNamespace? p n = t.declaredNamespace? p n := by
  unfold declaredNamespace?
  rw [h.nsPrefix_eq n hn, h.ns_eq n hn, h.attributes_eq n hn]

theorem lookupNamespace_eq (p : String) : t'.lookupNamespace n p = t.lookupNamespace n p := by
  rw [lookupNamespace, lookupNamespace, h.elementLine_eq hn, findSome?_congr fun m hm =>
    h.declaredNamespace?_eq (h.inside_elementLine hn m hm) p]

theorem isContentEditable_eq : t'.isContentEditable n = t.isContentEditable n := by
  rw [isContentEditable, isContentEditable, h.elementLine_eq hn, findSome?_congr fun m hm => ?_]
  rw [h.attribute?_eq (h.inside_elementLine hn m hm)]

end Attributes

end Agree

end Links

end DomQuery.Tree
