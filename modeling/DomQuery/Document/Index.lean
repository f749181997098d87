import DomQuery.Text.Ascii

/-!
# Indices of elements

Which elements have an id, a class or a name. Elements are entered when they are
created and when their attributes are written, wherever they are in the tree or
outside of it.
-/

namespace DomQuery.Document

open DomQuery.Text

/-- A node, by the order of creation. -/
structure NodeId where
  index : Nat
deriving DecidableEq, Repr, Inhabited, Hashable

/-- The nodes entered under each key, as pairs. -/
abbrev Entries := List (String × NodeId)

namespace Entries

/-- The nodes entered under `key`. -/
def find (entries : Entries) (key : String) : List NodeId :=
  entries.filterMap fun entry => if entry.1 == key then some entry.2 else none

/-- Enters `n` under `key`, once. -/
def add (n : NodeId) (entries : Entries) (key : String) : Entries :=
  if entries.contains (key, n) then entries else (key, n) :: entries

/-- Takes `n` from under `key`. -/
def erase (n : NodeId) (entries : Entries) (key : String) : Entries :=
  entries.filter fun entry => entry != (key, n)

end Entries

structure Index where
  ids : Entries := []
  classes : Entries := []
  /-- Elements by local name. -/
  names : Entries := []

namespace Index

/-- Enters a new element under its name. -/
def addElement (index : Index) (n : NodeId) (localName : String) : Index :=
  { index with names := index.names.add n localName }

/-- Follows an attribute of `n` from its old value to the new one. An empty id
is not entered. -/
def update (index : Index) (n : NodeId) (name : String) (before after : Option String) : Index :=
  match name with
  | "id" =>
    let ids := before.toList.foldl (Entries.erase n) index.ids
    { index with ids := (after.toList.filter (· != "")).foldl (Entries.add n) ids }
  | "class" =>
    let classes := (words (before.getD "")).foldl (Entries.erase n) index.classes
    { index with classes := (words (after.getD "")).foldl (Entries.add n) classes }
  | _ => index

end Index

end DomQuery.Document
