import DomQuery.Proofs.Document.Move

/-!
# Text in chunks

A page comes in pieces, and a text is cut where a piece of the page ends. Each chunk looks
for the text that was inserted before it, at the place where it would stand itself: the last
child of a parent, or the sibling in front of a reference.

* `Place`: where texts are inserted. `IsAt` is the gap among the children of a parent that
  is meant.
* `run_insert`: what comes of one text.
* `withText_withText`: the next text finds the one before it.
* `Reachable.insert_chunks`: a text in chunks leaves the same document as the whole text. Either
  a text node becomes longer, or there is one more in the gap.
-/

namespace DomQuery.Document

open DomQuery.Tree

variable {d d' : Document} {m n p reference fallback : NodeId} {before after : List NodeId}
  {text more : String}

/-! ### Changes of one node after another -/

/-- Documents are the same if their tables are and what stands beside them. -/
theorem eq_of_node?_eq (hrest : { d' with nodes := d.nodes } = d)
    (h : ∀ m, d'.node? m = d.node? m) : d' = d := by
  have hnodes : d'.nodes = d.nodes := Array.ext_getElem? fun i => h ⟨i⟩
  rw [← hrest, ← hnodes]

theorem modifyNode_congr {f g : Node → Node}
    (h : ∀ node, d.node? n = some node → f node = g node) : d.modifyNode n f = d.modifyNode n g := by
  refine eq_of_node?_eq rfl fun m => ?_
  rw [node?_modifyNode, node?_modifyNode]
  split
  · rename_i hm
    subst hm
    exact Option.map_congr h
  · rfl

/-- Changes that do not see each other are made in any order. -/
theorem modifyNode_comm {f g : Node → Node} (h : ∀ node, g (f node) = f (g node)) :
    (d.modifyNode n f).modifyNode m g = (d.modifyNode m g).modifyNode n f := by
  refine eq_of_node?_eq rfl fun q => ?_
  simp only [node?_modifyNode]
  split
  · split
    · simp only [Option.map_map, Function.comp_def, h]
    · rfl
  · rfl

theorem modifyNode_modifyNode {f g : Node → Node} :
    (d.modifyNode n f).modifyNode n g = d.modifyNode n fun node => g (f node) := by
  refine eq_of_node?_eq rfl fun q => ?_
  simp only [node?_modifyNode]
  split
  · rw [Option.map_map]
    rfl
  · rfl

/-- Only the place among the children counts. -/
theorem link_congr {place place' : List NodeId → List NodeId}
    (h : place (d.children p) = place' (d.children p)) : d.link p n place = d.link p n place' := by
  unfold link
  congr 1
  refine modifyNode_congr fun node hnode => ?_
  rw [children, hnode, Option.map_some, Option.getD_some] at h
  rw [h]

/-! ### Longer texts -/

theorem extendText_extendText :
    (d.extendText n text).extendText n more = d.extendText n (text ++ more) := by
  unfold extendText
  rw [modifyNode_modifyNode]
  refine modifyNode_congr fun node _ => ?_
  cases hdata : node.data <;> simp [hdata, String.append_assoc]

theorem extendText_addNode : (d.addNode (.text text)).2.extendText ⟨d.nodes.size⟩ more =
    (d.addNode (.text (text ++ more))).2 := by
  refine eq_of_node?_eq rfl fun m => ?_
  rw [extendText, node?_modifyNode, node?_addNode, node?_addNode]
  split
  · rfl
  · rfl

/-- Texts and links are apart. -/
theorem extendText_link {place : List NodeId → List NodeId} :
    (d.link p n place).extendText m text = (d.extendText m text).link p n place := by
  unfold extendText link
  rw [modifyNode_comm, modifyNode_comm (m := m) (n := p)]
  all_goals
    intro node
    cases hdata : node.data <;> simp [hdata]

theorem data?_extendText : (d.extendText n text).data? m =
    if m = n then (d.text? m).elim (d.data? m) fun old => some (.text (old ++ text))
    else d.data? m := by
  rw [extendText, data?, node?_modifyNode, text?, data?]
  split
  · rcases d.node? m with _ | ⟨data, _, _⟩
    · rfl
    · cases data <;> rfl
  · rfl

theorem parent_extendText : (d.extendText n text).parent m = d.parent m :=
  parent_modifyNode fun node => by cases node.data <;> rfl

theorem children_extendText : (d.extendText n text).children m = d.children m :=
  children_modifyNode fun node => by cases node.data <;> rfl

/-! ### Places -/

/-- Where a text is inserted. -/
inductive Place where
  | atEnd (p : NodeId)
  | inFront (reference : NodeId)
  /-- In front of a node in a tree, and at the end of another one while it is in none. -/
  | around (reference fallback : NodeId)
deriving DecidableEq, Repr

def Place.insert : Place → Piece → Edit Unit
  | .atEnd p => insertLast p
  | .inFront reference => insertInFront reference
  | .around reference fallback => insertAround reference fallback

instance (place : Place) (piece : Piece) : IsLawful (place.insert piece) := by
  cases place with
  | atEnd p => exact IsLawful.insertLast p piece
  | inFront reference => exact IsLawful.insertInFront reference piece
  | around reference fallback => exact IsLawful.insertAround reference fallback piece

/-- There is such a place: the parent can hold nodes, the reference has a parent. -/
def Place.IsOpen (d : Document) : Place → Prop
  | .atEnd p => d.CanHold p
  | .inFront reference => ∃ p, d.parent reference = some p
  | .around reference fallback => (∃ p, d.parent reference = some p) ∨
      (d.node? reference).isSome = true ∧ d.parent reference = none ∧ d.CanHold fallback

/-- The place is between `before` and `after`, the children of `p`. -/
inductive Place.IsAt (d : Document) : Place → NodeId → List NodeId → List NodeId → Prop
  | atEnd {p : NodeId} (hp : d.CanHold p) : IsAt d (.atEnd p) p (d.children p) []
  | inFront {reference p : NodeId} {before after : List NodeId} (hr : d.parent reference = some p)
      (hs : d.children p = before ++ reference :: after) :
      IsAt d (.inFront reference) p before (reference :: after)
  | around {reference fallback p : NodeId} {before after : List NodeId}
      (h : IsAt d (.inFront reference) p before after) :
      IsAt d (.around reference fallback) p before after
  | fallback {reference fallback : NodeId} (hn : (d.node? reference).isSome = true)
      (hr : d.parent reference = none) (hp : d.CanHold fallback) :
      IsAt d (.around reference fallback) fallback (d.children fallback) []

theorem Place.IsOpen.exists_isAt {place : Place} (h : d.Coherent) (hopen : place.IsOpen d) :
    ∃ p before after, place.IsAt d p before after := by
  have hfront {reference p : NodeId} (hr : d.parent reference = some p) :
      ∃ before after, IsAt d (.inFront reference) p before after := by
    obtain ⟨before, after, hs⟩ := List.append_of_mem (h.linked.mem_children.mpr hr)
    exact ⟨before, _, .inFront hr hs⟩
  cases place with
  | atEnd p => exact ⟨p, _, _, .atEnd hopen⟩
  | inFront reference =>
    obtain ⟨p, hr⟩ := hopen
    exact ⟨p, hfront hr⟩
  | around reference fallback =>
    rcases hopen with ⟨p, hr⟩ | ⟨hn, hr, hp⟩
    · obtain ⟨before, after, hat⟩ := hfront hr
      exact ⟨p, before, after, .around hat⟩
    · exact ⟨fallback, _, _, .fallback hn hr hp⟩

theorem Place.IsAt.children_eq {place : Place} (hat : place.IsAt d p before after) :
    d.children p = before ++ after := by
  induction hat with
  | atEnd | fallback => exact (List.append_nil _).symm
  | inFront hr hs => exact hs
  | around h ih => exact ih

theorem Place.IsAt.canHold {place : Place} (h : d.Coherent) (hat : place.IsAt d p before after) :
    d.CanHold p := by
  induction hat with
  | atEnd hp | fallback _ _ hp => exact hp
  | inFront hr hs => exact h.canHold hr
  | around _ ih => exact ih

/-! ### One text -/

/-- The document with a new text node between `before` and `after`, the children of `p`. -/
def addText (d : Document) (p : NodeId) (before after : List NodeId) (text : String) : Document :=
  (d.addNode (.text text)).2.link p ⟨d.nodes.size⟩ fun _ => before ++ ⟨d.nodes.size⟩ :: after

/-- The document with a text between `before` and `after`, the children of `p`. A text node
there becomes longer, else there is a new one. -/
def withText (d : Document) (p : NodeId) (before after : List NodeId) (text : String) : Document :=
  match before.getLast?.filter fun n => (d.text? n).isSome with
  | some n => d.extendText n text
  | none => d.addText p before after text

/-- Looking at the neighbour in the gap, and inserting into the gap otherwise. -/
theorem run_mergeText {insert : NodeId → Edit Unit}
    (h : (insert ⟨d.nodes.size⟩).run.run (d.addNode (.text text)).2 =
      (.ok (), d.addText p before after text)) :
    (mergeText before.getLast? text insert).run.run d =
      (.ok (), d.withText p before after text) := by
  rw [mergeText, run_bind, run_get, withText]
  cases hneighbour : before.getLast?.filter fun n => (d.text? n).isSome with
  | some n =>
    simp only [hneighbour]
    rfl
  | none =>
    simp only [hneighbour]
    exact h

theorem ne_size_of_isSome (h : (d.node? n).isSome = true) : n ≠ ⟨d.nodes.size⟩ := by
  rintro rfl
  simp [node?_size] at h

theorem CanHold.ne_size (h : d.CanHold p) : p ≠ ⟨d.nodes.size⟩ := by
  obtain ⟨data, hdata, -⟩ := any_isContainer (canHold_iff.mp h)
  exact ne_size_of_isSome (isSome_node?_of_data? hdata)

/-- Nothing is in a node that was not there before. -/
theorem Linked.not_within_size {data : NodeData} (h : (d.addNode data).2.Linked)
    (hn : n ≠ ⟨d.nodes.size⟩) : ¬ (d.addNode data).2.links.Within ⟨d.nodes.size⟩ n := by
  rw [Links.within_iff, not_or]
  refine ⟨hn, fun hb => ?_⟩
  obtain ⟨c, hc, -⟩ := Links.below_iff_child.mp hb
  have hmem := h.mem_children.mpr hc
  rw [children_addNode, children, node?_size] at hmem
  exact List.not_mem_nil hmem

section New

variable {data : NodeData}

theorem isSome_node?_new : ((d.addNode data).2.node? ⟨d.nodes.size⟩).isSome = true := by
  rw [node?_addNode, if_pos rfl]
  rfl

theorem detach_new : (d.addNode data).2.detach ⟨d.nodes.size⟩ = (d.addNode data).2 := by
  rw [detach_eq_self_iff, parent_addNode, parent, node?_size]
  rfl

theorem CanHold.addNode (hp : d.CanHold p) : (d.addNode data).2.CanHold p := by
  obtain ⟨x, hx, hc⟩ := any_isContainer (canHold_iff.mp hp)
  rw [canHold_iff, data?_addNode_of_some hx]
  exact hc

end New

section Insert

variable (h : d.Reachable)
include h

theorem coherent_addNode (text : String) : (d.addNode (.text text)).2.Coherent :=
  ((IsLawful.createText text).reachable h).coherent

theorem run_insertLast (hp : d.CanHold p) (text : String) :
    (insertLast p (.text text)).run.run d = (.ok (), d.withText p (d.children p) [] text) := by
  have hc := coherent_addNode h text
  change (do mergeText ((← get).children p).getLast? text (append p) : Edit Unit).run.run d = _
  rw [run_bind, run_get]
  refine run_mergeText ((run_append_iff hc).mpr
    ⟨⟨hp.addNode, isSome_node?_new, hc.linked.not_within_size hp.ne_size⟩, ?_⟩)
  rw [detach_new]
  refine link_congr ?_
  rw [children_addNode]
  rfl

theorem run_insertInFront (hr : d.parent reference = some p)
    (hs : d.children p = before ++ reference :: after) (text : String) :
    (insertInFront reference (.text text)).run.run d =
      (.ok (), d.withText p before (reference :: after) text) := by
  have hc := coherent_addNode h text
  have hne := ne_size_of_isSome (isSome_node?_of_parent hr)
  change (do mergeText ((← get).previousSibling reference) text (insertBefore reference) :
    Edit Unit).run.run d = _
  rw [run_bind, run_get]
  dsimp only
  rw [h.coherent.linked.previousSibling_eq hs]
  refine run_mergeText ((run_insertBefore_iff hc).mpr
    ⟨p, ⟨(parent_addNode _).trans hr, isSome_node?_new, hc.linked.not_within_size hne⟩, ?_⟩)
  rw [detach_new]
  refine link_congr ?_
  have hnodup := hc.linked.nodup_children p
  rw [children_addNode, hs] at hnodup ⊢
  exact (placeBefore_eq fun hb =>
    (List.nodup_append.mp hnodup).2.2 _ hb _ List.mem_cons_self rfl).symm

/-- Inserting a text succeeds. -/
theorem run_insert {place : Place} (hat : place.IsAt d p before after) (text : String) :
    (place.insert (.text text)).run.run d = (.ok (), d.withText p before after text) := by
  cases hat with
  | atEnd hp => exact run_insertLast h hp text
  | inFront hr hs => exact run_insertInFront h hr hs text
  | around hat =>
    cases hat with
    | inFront hr hs =>
      rw [Place.insert, insertAround, run_bind, run_get]
      simp only [hr, Option.isSome_some, if_true]
      exact run_insertInFront h hr hs text
  | fallback hn hr hp =>
    rw [Place.insert, insertAround, run_bind, run_get]
    simp only [hr, Option.isSome_none, Bool.false_eq_true, if_false]
    exact run_insertLast h hp text

end Insert

/-! ### The next text -/

/-- The place stays where it is when nodes are put into it. -/
theorem Place.IsAt.change {place : Place} {new : List NodeId} (hat : place.IsAt d p before after)
    (hnode : ∀ m, (d.node? m).isSome = true → (d'.node? m).isSome = true)
    (hparent : ∀ m, (d.node? m).isSome = true → d'.parent m = d.parent m)
    (hhold : ∀ m, d.CanHold m → d'.CanHold m)
    (hchildren : d'.children p = before ++ new ++ after) :
    place.IsAt d' p (before ++ new) after := by
  induction hat with
  | atEnd hp =>
    rw [List.append_nil] at hchildren
    exact hchildren ▸ .atEnd (hhold _ hp)
  | inFront hr hs => exact .inFront ((hparent _ (isSome_node?_of_parent hr)).trans hr) hchildren
  | around _ ih => exact .around (ih hchildren)
  | fallback hn hr hp =>
    rw [List.append_nil] at hchildren
    exact hchildren ▸ .fallback (hnode _ hn) ((hparent _ hn).trans hr) (hhold _ hp)

theorem text?_extendText :
    (d.extendText n text).text? n = (d.text? n).map fun old => old ++ text := by
  rw [text?, data?_extendText, if_pos rfl]
  cases hold : d.text? n with
  | none =>
    unfold text? at hold
    simpa using hold
  | some old => rfl

theorem canHold_extendText : (d.extendText n text).CanHold p ↔ d.CanHold p := by
  rw [canHold_iff, canHold_iff, data?_extendText, text?]
  split
  · rcases d.data? p with _ | (_ | _ | _ | _ | _ | _) <;> rfl
  · rfl

/-- The new node, its parent with it among the children, and all the others as before. -/
theorem node?_addText (hp : p ≠ ⟨d.nodes.size⟩) : (d.addText p before after text).node? m =
    if m = ⟨d.nodes.size⟩ then some { data := .text text, parent := some p }
    else if m = p then
      (d.node? m).map fun node => { node with children := before ++ ⟨d.nodes.size⟩ :: after }
    else d.node? m := by
  rw [addText, link, node?_modifyNode, node?_modifyNode, node?_addNode]
  by_cases hm : m = ⟨d.nodes.size⟩
  · subst hm
    rw [if_pos rfl, if_pos rfl, if_pos rfl, if_neg (Ne.symm hp)]
    rfl
  · simp only [if_neg hm]

theorem isSome_node?_addText (hp : p ≠ ⟨d.nodes.size⟩) (hm : (d.node? m).isSome = true) :
    ((d.addText p before after text).node? m).isSome = true := by
  rw [node?_addText hp, if_neg (ne_size_of_isSome hm)]
  split
  · rw [Option.isSome_map, hm]
  · exact hm

theorem parent_addText (hp : p ≠ ⟨d.nodes.size⟩) (hm : m ≠ ⟨d.nodes.size⟩) :
    (d.addText p before after text).parent m = d.parent m := by
  rw [parent, node?_addText hp, if_neg hm, parent]
  split
  · cases d.node? m <;> rfl
  · rfl

theorem data?_addText (hp : p ≠ ⟨d.nodes.size⟩) (hm : m ≠ ⟨d.nodes.size⟩) :
    (d.addText p before after text).data? m = d.data? m := by
  rw [data?, node?_addText hp, if_neg hm, data?]
  split
  · cases d.node? m <;> rfl
  · rfl

theorem children_addText_self (hp : d.CanHold p) :
    (d.addText p before after text).children p = before ++ ⟨d.nodes.size⟩ :: after := by
  obtain ⟨data, hdata, -⟩ := any_isContainer (canHold_iff.mp hp)
  obtain ⟨node, hnode, -⟩ := Option.map_eq_some_iff.mp hdata
  rw [children, node?_addText hp.ne_size, if_neg hp.ne_size, if_pos rfl, hnode]
  rfl

theorem children_addText (hp : p ≠ ⟨d.nodes.size⟩) (hm : m ≠ p) :
    (d.addText p before after text).children m = d.children m := by
  rw [children, node?_addText hp, if_neg hm, children]
  split
  · rename_i hm
    rw [hm, node?_size]
    rfl
  · rfl

theorem CanHold.addText (hp : p ≠ ⟨d.nodes.size⟩) (hm : d.CanHold m) :
    (d.addText p before after text).CanHold m := by
  rw [canHold_iff] at hm ⊢
  rw [data?_addText hp (CanHold.ne_size (canHold_iff.mpr hm)), hm]

/-- The gap is behind the text that was inserted, and so the next text makes it longer. -/
theorem withText_withText {place : Place} (hat : place.IsAt d p before after) (hp : d.CanHold p)
    (text : String) : ∃ before', place.IsAt (d.withText p before after text) p before' after ∧
      ∀ more, (d.withText p before after text).withText p before' after more =
        d.withText p before after (text ++ more) := by
  have hchildren := hat.children_eq
  have hne := hp.ne_size
  cases hneighbour : before.getLast?.filter fun n => (d.text? n).isSome with
  | some n =>
    obtain ⟨hlast, htext⟩ := Option.filter_eq_some_iff.mp hneighbour
    have hwith (text : String) : d.withText p before after text = d.extendText n text := by
      rw [withText, hneighbour]
    have hat' : place.IsAt (d.extendText n text) p (before ++ []) after :=
      hat.change (fun m hm => isSome_node?_modifyNode.trans hm) (fun m _ => parent_extendText)
        (fun m => canHold_extendText.mpr) (by rw [children_extendText, hchildren, List.append_nil])
    rw [List.append_nil] at hat'
    have hneighbour' : before.getLast?.filter
        (fun m => ((d.extendText n text).text? m).isSome) = some n := by
      rw [Option.filter_eq_some_iff, text?_extendText, Option.isSome_map]
      exact ⟨hlast, htext⟩
    refine ⟨before, hwith text ▸ hat', fun more => ?_⟩
    rw [hwith, hwith, withText, hneighbour']
    exact extendText_extendText
  | none =>
    have hwith (text : String) :
        d.withText p before after text = d.addText p before after text := by
      rw [withText, hneighbour]
    have hat' : place.IsAt (d.addText p before after text) p (before ++ [⟨d.nodes.size⟩]) after :=
      hat.change (fun m hm => isSome_node?_addText hne hm)
        (fun m hm => parent_addText hne (ne_size_of_isSome hm)) (fun m hm => hm.addText hne)
        (by rw [children_addText_self hp, List.append_assoc]; rfl)
    have htext : (d.addText p before after text).text? ⟨d.nodes.size⟩ = some text := by
      rw [text?, data?, node?_addText hne, if_pos rfl]
      rfl
    refine ⟨_, hwith text ▸ hat', fun more => ?_⟩
    rw [hwith, hwith, withText, List.getLast?_append, List.getLast?_singleton, Option.some_or,
      Option.filter_some, htext, Option.isSome_some, if_pos rfl]
    change (addText ..).extendText _ _ = _
    rw [addText, extendText_link, extendText_addNode]
    rfl

/-! ### What has changed -/

/-- The text node `n` is longer than it was, and nothing else is different. -/
structure IsExtended (d : Document) (n : NodeId) (text : String) (d' : Document) : Prop where
  node?_self : ∃ node old, d.node? n = some node ∧ node.data = .text old ∧
    d'.node? n = some { node with data := .text (old ++ text) }
  node?_eq : ∀ m, m ≠ n → d'.node? m = d.node? m
  size_eq : d'.nodes.size = d.nodes.size
  nextSibling_eq : ∀ m, d'.nextSibling m = d.nextSibling m
  previousSibling_eq : ∀ m, d'.previousSibling m = d.previousSibling m
  /-- Indices and settings. -/
  rest_eq : { d' with nodes := d.nodes } = d

/-- There is a new text node between `before` and `after`, the children of `p`. Of the nodes
that were there, its parent has one more child, its neighbours have another sibling, and all
else is as it was. -/
structure IsTextAdded (d : Document) (p : NodeId) (before after : List NodeId) (text : String)
    (d' : Document) : Prop where
  node?_self : d'.node? ⟨d.nodes.size⟩ = some { data := .text text, parent := some p }
  node?_parent : d'.node? p =
    (d.node? p).map fun node => { node with children := before ++ ⟨d.nodes.size⟩ :: after }
  node?_eq : ∀ m, m ≠ ⟨d.nodes.size⟩ → m ≠ p → d'.node? m = d.node? m
  size_eq : d'.nodes.size = d.nodes.size + 1
  nextSibling_self : d'.nextSibling ⟨d.nodes.size⟩ = after.head?
  previousSibling_self : d'.previousSibling ⟨d.nodes.size⟩ = before.getLast?
  nextSibling_before : ∀ m ∈ before.getLast?, d'.nextSibling m = some ⟨d.nodes.size⟩
  previousSibling_after : ∀ m ∈ after.head?, d'.previousSibling m = some ⟨d.nodes.size⟩
  nextSibling_eq : ∀ m, m ≠ ⟨d.nodes.size⟩ → before.getLast? ≠ some m →
    d'.nextSibling m = d.nextSibling m
  previousSibling_eq : ∀ m, m ≠ ⟨d.nodes.size⟩ → after.head? ≠ some m →
    d'.previousSibling m = d.previousSibling m
  /-- Indices and settings. -/
  rest_eq : { d' with nodes := d.nodes } = d

theorem exists_node_of_text? (h : d.text? n = some text) :
    ∃ node, d.node? n = some node ∧ node.data = .text text := by
  unfold text? at h
  split at h
  · rename_i hdata
    obtain rfl := Option.some.inj h
    exact Option.map_eq_some_iff.mp hdata
  · cases h

theorem isExtended_extendText (hn : (d.text? n).isSome = true) :
    d.IsExtended n text (d.extendText n text) := by
  have hsiblings (m : NodeId) : (d.extendText n text).siblings m = d.siblings m := by
    rw [siblings, siblings, parent_extendText]
    cases d.parent m with
    | none => rfl
    | some q => exact children_extendText
  refine ⟨?_, fun m hm => ?_, Array.size_modify .., fun m => ?_, fun m => ?_, rfl⟩
  · obtain ⟨old, hold⟩ := Option.isSome_iff_exists.mp hn
    obtain ⟨node, hnode, hdata⟩ := exists_node_of_text? hold
    refine ⟨node, old, hnode, hdata, ?_⟩
    rw [extendText, node?_modifyNode, if_pos rfl, hnode, Option.map_some, hdata]
  · rw [extendText, node?_modifyNode, if_neg hm]
  · rw [nextSibling, nextSibling, hsiblings]
  · rw [previousSibling, previousSibling, hsiblings]

/-- Only behind the last of `before` is there something else. -/
theorem head?_following (hm : m ≠ n) (hlast : before.getLast? ≠ some m) :
    (following m (before ++ n :: after)).head? = (following m (before ++ after)).head? := by
  induction before with
  | nil => rw [List.nil_append, following, if_neg (Ne.symm hm), List.nil_append]
  | cons q before ih =>
    rw [List.cons_append, List.cons_append, following, following]
    split
    · cases before with
      | nil => simp_all
      | cons => rfl
    · refine ih fun he => hlast ?_
      rw [List.getLast?_cons, he]
      rfl

theorem siblings_addText (hp : d.CanHold p) (hs : d.children p = before ++ after)
    (hm : m ≠ ⟨d.nodes.size⟩) :
    d.siblings m = before ++ after ∧
        (d.addText p before after text).siblings m = before ++ ⟨d.nodes.size⟩ :: after ∨
      (d.addText p before after text).siblings m = d.siblings m := by
  rw [siblings, siblings, parent_addText hp.ne_size hm]
  cases d.parent m with
  | none => exact .inr rfl
  | some q =>
    by_cases hq : q = p
    · subst hq
      exact .inl ⟨hs, children_addText_self hp⟩
    · exact .inr (children_addText hp.ne_size hq)

theorem isTextAdded_addText (hlinked : (d.addText p before after text).Linked) (hp : d.CanHold p)
    (hs : d.children p = before ++ after) :
    d.IsTextAdded p before after text (d.addText p before after text) := by
  have hne := hp.ne_size
  have hsiblings : ∀ m : NodeId, m ≠ ⟨d.nodes.size⟩ → d.siblings m = before ++ after ∧
        (d.addText p before after text).siblings m = before ++ ⟨d.nodes.size⟩ :: after ∨
      (d.addText p before after text).siblings m = d.siblings m := fun m hm =>
    siblings_addText hp hs hm
  have hchildren : (d.addText p before after text).children p = before ++ ⟨d.nodes.size⟩ :: after :=
    children_addText_self hp
  refine ⟨?_, ?_, fun m hm hmp => ?_, ?_, hlinked.nextSibling_eq hchildren,
    hlinked.previousSibling_eq hchildren, fun m hm => ?_, fun m hm => ?_, fun m hm hlast => ?_,
    fun m hm hfirst => ?_, rfl⟩
  · rw [node?_addText hne, if_pos rfl]
  · rw [node?_addText hne, if_neg hne, if_pos rfl]
  · rw [node?_addText hne, if_neg hm, if_neg hmp]
  · simp [addText, link, modifyNode, addNode]
  · obtain ⟨first, rfl⟩ := List.getLast?_eq_some_iff.mp hm
    rw [List.append_assoc] at hchildren
    exact hlinked.nextSibling_eq hchildren
  · obtain ⟨rest, rfl⟩ := List.head?_eq_some_iff.mp hm
    rw [List.append_cons] at hchildren
    rw [hlinked.previousSibling_eq hchildren, List.getLast?_concat]
  · rw [nextSibling, nextSibling]
    rcases hsiblings m hm with ⟨hold, hnew⟩ | hsame
    · rw [hold, hnew, head?_following hm hlast]
    · rw [hsame]
  · rw [previousSibling, previousSibling]
    rcases hsiblings m hm with ⟨hold, hnew⟩ | hsame
    · have hreverse : (before ++ ⟨d.nodes.size⟩ :: after).reverse =
          after.reverse ++ ⟨d.nodes.size⟩ :: before.reverse := by simp
      rw [hold, hnew, hreverse, List.reverse_append]
      exact head?_following hm (by rwa [List.getLast?_reverse])
    · rw [hsame]

/-! ### All chunks -/

theorem reachable_withText {place : Place} (h : d.Reachable) (hat : place.IsAt d p before after)
    (text : String) : (d.withText p before after text).Reachable := by
  have hafter : d.after (place.insert (.text text)) = d.withText p before after text := by
    rw [Document.after, run_insert h hat text]
  rw [← hafter]
  exact IsLawful.reachable h

theorem run_chunks {place : Place} : ∀ {chunks : List String} {d : Document}
    {before : List NodeId}, d.Reachable → place.IsAt d p before after → ∀ text,
    ((text :: chunks).forM fun text => place.insert (.text text)).run.run d =
      (.ok (), d.withText p before after (String.join (text :: chunks)))
  | [], d, before, h, hat, text => by
    rw [List.forM_eq_forM, List.forM_cons, run_bind, run_insert h hat, String.join_cons,
      String.join_nil, String.append_empty]
    rfl
  | next :: chunks, d, before, h, hat, text => by
    obtain ⟨before', hat', hwith⟩ := withText_withText hat (hat.canHold h.coherent) text
    rw [List.forM_eq_forM, List.forM_cons, run_bind, run_insert h hat, String.join_cons, ← hwith]
    exact run_chunks (reachable_withText h hat text) hat' next

/-- What one text changes. -/
theorem withText_cases {place : Place} (h : d.Reachable) (hat : place.IsAt d p before after)
    (text : String) :
    (∃ n, before.getLast? = some n ∧ d.IsExtended n text (d.withText p before after text)) ∨
      (∀ n, before.getLast? = some n → d.text? n = none) ∧
        d.IsTextAdded p before after text (d.withText p before after text) := by
  have hreachable := reachable_withText h hat text
  unfold withText at hreachable ⊢
  cases hneighbour : before.getLast?.filter fun n => (d.text? n).isSome with
  | some n =>
    obtain ⟨hlast, htext⟩ := Option.filter_eq_some_iff.mp hneighbour
    exact .inl ⟨n, hlast, isExtended_extendText htext⟩
  | none =>
    rw [hneighbour] at hreachable
    refine .inr ⟨fun n hn => ?_, isTextAdded_addText hreachable.coherent.linked
      (hat.canHold h.coherent) hat.children_eq⟩
    simpa [hn] using hneighbour

/-- Whatever operations a document went through, a text is inserted at an open place, and it
makes no difference how it is cut into chunks: the document afterwards is the same. The place
is a gap among the children of a node. If a text node is in front of the gap then that is
longer afterwards, and else there is one new text node in the gap. Nothing else has changed but
the links to that. -/
theorem Reachable.insert_chunks (h : d.Reachable) {place : Place} (hopen : place.IsOpen d)
    {chunks : List String} (hne : chunks ≠ []) :
    ∃ d' p before after,
      (chunks.forM fun text => place.insert (.text text)).run.run d = (.ok (), d') ∧
      (place.insert (.text (String.join chunks))).run.run d = (.ok (), d') ∧
      place.IsAt d p before after ∧ d.children p = before ++ after ∧
      ((∃ n, before.getLast? = some n ∧ d.IsExtended n (String.join chunks) d') ∨
        (∀ n, before.getLast? = some n → d.text? n = none) ∧
          d.IsTextAdded p before after (String.join chunks) d') := by
  obtain ⟨p, before, after, hat⟩ := hopen.exists_isAt h.coherent
  obtain ⟨text, chunks, rfl⟩ := List.exists_cons_of_ne_nil hne
  exact ⟨_, p, before, after, run_chunks h hat text, run_insert h hat _, hat, hat.children_eq,
    withText_cases h hat _⟩

/-- A text in three chunks, one of them empty, goes between the children of the box. -/
theorem insert_chunks_nested : nested.Reachable ∧ (Place.around ⟨3⟩ root).IsOpen nested ∧
    ∃ d', (["a", "", "b"].forM fun text => (Place.around ⟨3⟩ root).insert (.text text)).run.run
        nested = (.ok (), d') ∧
      ((Place.around ⟨3⟩ root).insert (.text "ab")).run.run nested = (.ok (), d') ∧
      nested.IsTextAdded ⟨1⟩ [⟨2⟩] [⟨3⟩] "ab" d' := by
  have hparent : nested.parent ⟨3⟩ = some ⟨1⟩ := by decide +kernel
  have hchildren : nested.children ⟨1⟩ = [⟨2⟩, ⟨3⟩] := by decide +kernel
  have htext : nested.text? ⟨2⟩ = none := by decide +kernel
  have hjoin : String.join ["a", "", "b"] = "ab" := by decide +kernel
  have hopen : (Place.around ⟨3⟩ root).IsOpen nested := .inl ⟨_, hparent⟩
  have hne : ["a", "", "b"] ≠ [] := nofun
  obtain ⟨d', p, before, after, hchunks, hwhole, hat, -, hchange⟩ :=
    Reachable.insert_chunks reachable_nested hopen hne
  rw [hjoin] at hwhole hchange
  obtain ⟨rfl, rfl, rfl⟩ : p = ⟨1⟩ ∧ before = [⟨2⟩] ∧ after = [⟨3⟩] := by
    cases hat with
    | around hfront =>
      cases hfront with
      | inFront hr hs =>
        obtain rfl := Option.some.inj (hparent.symm.trans hr)
        rw [hchildren] at hs
        rcases before with _ | ⟨m, _ | ⟨m', before⟩⟩ <;> simp_all
    | fallback _ hr => cases hparent.symm.trans hr
  refine ⟨reachable_nested, hopen, d', hchunks, hwhole, (hchange.resolve_left ?_).2⟩
  rintro ⟨n, hn, hextended⟩
  obtain rfl : ⟨2⟩ = n := Option.some.inj hn
  obtain ⟨node, old, hnode, hdata, -⟩ := hextended.node?_self
  simp [text?, data?, hnode, hdata] at htext

end DomQuery.Document
