import DomQuery.Query.Context

/-!
# The language of an element

An element's language is what the nearest element on its line of heritage
declares, its own declaration first. `xml:lang` goes before `lang`.
-/

namespace DomQuery.Query

open DomQuery.Text DomQuery.Tree

variable {ν : Type}

/-- The language that an element declares. -/
def declaredLanguage? (t : Links ν) (n : ν) : Option String :=
  match (t.attributes n).find? fun a =>
      a.ns == some xmlNamespace && (splitName a.name).2 == "lang" with
  | some a => some a.value
  | none => t.attribute? n "lang"

def language? (t : Links ν) (n : ν) : Option String :=
  (t.heritageLine n).findSome? (declaredLanguage? t)

/-- The language of `n` is known and in one of the ranges. -/
def hasLanguage (t : Links ν) (ranges : List LanguageRange) (n : ν) : Bool :=
  match language? t n with
  | some tag => ranges.any fun range => range.selects tag
  | none => false

end DomQuery.Query
