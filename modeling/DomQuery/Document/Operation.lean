import DomQuery.Document.Insert

/-!
# What a document goes through

A document changes by operations only. Pages are built and edited by different
ones, and each may fail and leave a part of its work behind. `Reachable` says
that a document came about by operations, whatever became of them, and an edit
is lawful if it is put together from operations.
-/

namespace DomQuery.Document

open DomQuery.Tree

inductive Operation where
  | createText (text : String)
  | createComment (text : String)
  | createDoctype (name : String)
  | createFragment
  | createElement (name : String)
  | createElementNS (ns : Option String) (qualifiedName : String)
  /-- Creates an element of a page, its name as it is written there. -/
  | createParsedElement (localName : String) (ns : Option String)
  | append (p child : NodeId)
  | insertBefore (reference n : NodeId)
  | remove (n : NodeId)
  | extendText (n : NodeId) (text : String)
  | setAttribute (n : NodeId) (name value : String)
  | setAttributeNS (n : NodeId) (ns : Option String) (name value : String)
  | removeAttribute (n : NodeId) (name : String)
  | addMissingAttributes (n : NodeId) (attributes : List Attribute)
  | attachShadow (host : NodeId) (mode : ShadowMode)
  | ensureContents (template : NodeId)
  | setChecked (n : NodeId) (on : Bool)
  | setSelected (n : NodeId) (on : Bool)
  | setIndeterminate (n : NodeId) (on : Bool)
  | setValue (n : NodeId) (value : String)
  | focus (target : Option NodeId)
  | define (name : String)
  | setAddress (address : String)
deriving DecidableEq, Repr

/-- The document after an edit, whether that failed or not. -/
def after {α : Type} (d : Document) (e : Edit α) : Document :=
  (e.run.run d).2

/-- The second step of a sequence is taken if the first one succeeds. -/
theorem after_bind {α β : Type} (d : Document) (x : Edit α) (f : α → Edit β) :
    d.after (x >>= f) = match x.run.run d with
      | (.ok a, d') => d'.after (f a)
      | (.error _, d') => d' := by
  simp only [after, ExceptT.run_bind, StateT.run_bind]
  rcases x.run.run d with ⟨e | a, d'⟩ <;> rfl

def Operation.apply (d : Document) : Operation → Document
  | .createText text => d.after (createNode (.text text))
  | .createComment text => d.after (createNode (.comment text))
  | .createDoctype name => d.after (createNode (.doctype name))
  | .createFragment => d.after (createNode (.fragment none))
  | .createElement name => d.after (Document.createElement name)
  | .createElementNS ns name => d.after (Document.createElementNS ns name)
  | .createParsedElement localName ns => d.after (createElementNode localName ns none)
  | .append p child => d.after (Document.append p child)
  | .insertBefore reference n => d.after (Document.insertBefore reference n)
  | .remove n => d.after (Document.remove n)
  | .extendText n text => d.extendText n text
  | .setAttribute n name value => d.after (Document.setAttribute n name value)
  | .setAttributeNS n ns name value => d.after (Document.setAttributeNS n ns name value)
  | .removeAttribute n name => d.after (Document.removeAttribute n name)
  | .addMissingAttributes n attributes => d.after (Document.addMissingAttributes n attributes)
  | .attachShadow host mode => d.after (Document.attachShadow host mode)
  | .ensureContents template => d.after (Document.ensureContents template)
  | .setChecked n on => d.after (Document.setChecked n on)
  | .setSelected n on => d.after (Document.setSelected n on)
  | .setIndeterminate n on => d.after (Document.setIndeterminate n on)
  | .setValue n value => d.after (Document.setValue n value)
  | .focus target => d.after (Document.focus target)
  | .define name => d.after (Document.define name)
  | .setAddress address => d.after (Document.setAddress address)

/-- The document after a sequence of operations. -/
def run (d : Document) (ops : List Operation) : Document :=
  ops.foldl Operation.apply d

/-- Operations lead to this document, beginning with an empty one. -/
inductive Reachable : Document → Prop
  | empty (contentType : ContentType) : Reachable (Document.empty contentType)
  | apply {d : Document} (h : Reachable d) (op : Operation) : Reachable (op.apply d)

theorem Reachable.run {d : Document} (h : d.Reachable) (ops : List Operation) :
    (d.run ops).Reachable := by
  induction ops generalizing d with
  | nil => exact h
  | cons op ops ih => exact ih (h.apply op)

theorem reachable_iff_run {d : Document} :
    d.Reachable ↔ ∃ contentType ops, (Document.empty contentType).run ops = d := by
  constructor
  · intro h
    induction h with
    | empty contentType => exact ⟨contentType, [], rfl⟩
    | apply _ op ih =>
      obtain ⟨contentType, ops, rfl⟩ := ih
      exact ⟨contentType, ops ++ [op], by simp [Document.run]⟩
  · rintro ⟨contentType, ops, rfl⟩
    exact (Reachable.empty contentType).run ops

/-- A document that operations lead to. -/
abbrev Grown := {d : Document // d.Reachable}

/-! ### Lawful edits -/

/-- Whatever becomes of the edit, it does what operations do. -/
class IsLawful {α : Type} (e : Edit α) : Prop where
  reachable : ∀ {d : Document}, Reachable d → Reachable (d.after e)

namespace IsLawful

variable {α β : Type}

theorem of_operation {e : Edit α} (op : Operation) (h : ∀ d, op.apply d = d.after e) :
    IsLawful e where
  reachable hd := h _ ▸ hd.apply op

protected theorem pure (a : α) : IsLawful (pure a : Edit α) where
  reachable hd := hd

protected theorem get : IsLawful (get : Edit Document) where
  reachable hd := hd

protected theorem bind {x : Edit α} {f : α → Edit β} (hx : IsLawful x) (hf : ∀ a, IsLawful (f a)) :
    IsLawful (x >>= f) where
  reachable {d} hd := by
    have h := hx.reachable hd
    rw [after_bind]
    unfold after at h
    rcases hr : x.run.run d with ⟨e | a, d'⟩ <;> rw [hr] at h
    · exact h
    · exact (hf a).reachable h

protected theorem map {x : Edit α} (hx : IsLawful x) (f : α → β) : IsLawful (f <$> x) := by
  rw [map_eq_pure_bind]
  exact .bind hx fun a => .pure (f a)

instance createText (text : String) : IsLawful (createNode (.text text) : Edit NodeId) :=
  of_operation (.createText text) fun _ => rfl

instance createComment (text : String) : IsLawful (createNode (.comment text) : Edit NodeId) :=
  of_operation (.createComment text) fun _ => rfl

instance createDoctype (name : String) : IsLawful (createNode (.doctype name) : Edit NodeId) :=
  of_operation (.createDoctype name) fun _ => rfl

instance createElementNode (localName : String) (ns : Option String) :
    IsLawful (createElementNode localName ns none : Edit NodeId) :=
  of_operation (.createParsedElement localName ns) fun _ => rfl

instance append (p child : NodeId) : IsLawful (append p child) :=
  of_operation (.append p child) fun _ => rfl

instance insertBefore (reference n : NodeId) : IsLawful (insertBefore reference n) :=
  of_operation (.insertBefore reference n) fun _ => rfl

instance remove (n : NodeId) : IsLawful (remove n : Edit Unit) :=
  of_operation (.remove n) fun _ => rfl

instance addMissingAttributes (n : NodeId) (attributes : List Attribute) :
    IsLawful (addMissingAttributes n attributes) :=
  of_operation (.addMissingAttributes n attributes) fun _ => rfl

theorem extendText (n : NodeId) (text : String) :
    IsLawful (modify fun d => d.extendText n text : Edit Unit) :=
  of_operation (.extendText n text) fun _ => rfl

instance ensureContents (template : NodeId) : IsLawful (discard (ensureContents template)) :=
  .map (of_operation (.ensureContents template) fun _ => rfl) fun _ => ()

theorem mergeText {neighbour : Option NodeId} {text : String} {insert : NodeId → Edit Unit}
    (h : ∀ n, IsLawful (insert n)) : IsLawful (mergeText neighbour text insert) := by
  refine .bind .get fun d => ?_
  split
  · exact extendText _ text
  · exact .bind (createText text) h

instance insertLast (p : NodeId) (piece : Piece) : IsLawful (insertLast p piece) := by
  cases piece with
  | node n => exact append p n
  | text text => exact .bind .get fun d => mergeText (append p)

theorem insertInFront (reference : NodeId) (piece : Piece) :
    IsLawful (insertInFront reference piece) := by
  cases piece with
  | node n => exact insertBefore reference n
  | text text => exact .bind .get fun d => mergeText (insertBefore reference)

instance insertAround (reference fallback : NodeId) (piece : Piece) :
    IsLawful (insertAround reference fallback piece) := by
  refine .bind .get fun d => ?_
  split
  · exact insertInFront reference piece
  · exact insertLast fallback piece

theorem forM {f : α → Edit Unit} (h : ∀ a, IsLawful (f a)) (as : List α) :
    IsLawful (as.forM f) := by
  induction as with
  | nil => exact .pure ()
  | cons a as ih => exact .bind (h a) fun _ => ih

instance moveChildren (n p : NodeId) : IsLawful (moveChildren n p) :=
  .bind .get fun _ => forM (append p) _

end IsLawful

end DomQuery.Document
