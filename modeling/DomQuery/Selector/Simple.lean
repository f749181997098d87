import DomQuery.Selector.Chain
import DomQuery.Selector.Names
import DomQuery.Text.Language
import DomQuery.Tree.Basic

/-!
# Simple selectors ready for matching

A simple selector after its name, its flags and its argument have been looked
at. Selector lists in arguments are chains here, so nothing that can be wrong
with a selector on its own is left to be found while matching.
-/

namespace DomQuery.Selector

open DomQuery.Text DomQuery.Tree

/-- Whether an attribute selector was told how to treat case. -/
inductive CaseFlag where
  | insensitive
  | sensitive
deriving DecidableEq, Repr

/-- An attribute selector whose flag is one that exists. -/
structure AttributeTest where
  qualifier : Option Qualifier
  name : String
  flag : Option CaseFlag
  comparison : Option (Operator × String)
deriving DecidableEq, Repr

/-- Positions among siblings: `step · n + offset` for `n ≥ 0`, counted from
either end, among all siblings or those of the same type. -/
structure NthForm where
  fromEnd : Bool
  ofType : Bool
  step : Int
  offset : Int
deriving DecidableEq, Repr, Hashable

/-- A simple selector. -/
inductive Simple where
  /-- Recognized, and never matched. -/
  | pseudoElement (name : String)
  | id (name : String)
  | className (name : String)
  | type (t : TypeSelector)
  | attr (test : AttributeTest)
  /-- `:is()`, `:where()` -/
  | matchesAny (branches : List (Chain (List Simple)))
  /-- `:not()` -/
  | matchesNone (branches : List (Chain (List Simple)))
  | has (branches : List (Chain (List Simple)))
  /-- `:nth-child()` and its kin; the list filters the siblings counted. -/
  | nth (form : NthForm) (of : Option (ListId × List (Chain (List Simple))))
  | lang (ranges : List LanguageRange)
  /-- `none` for a keyword that is no direction. -/
  | dir (direction : Option Direction)
  | host (compounds : Option (List (Chain (List Simple))))
  | hostContext (compounds : List (Chain (List Simple)))
  | keyword (k : Keyword)
  /-- Never matches, and needs no excuse. -/
  | never
  /-- A pseudo-class that is recognized and not evaluated. -/
  | unsupported (name : String)

/-- The simple selectors that one node has to satisfy together. -/
abbrev Compound := List Simple

instance : Inhabited Simple := ⟨.never⟩

namespace Simple

/-- The place of a simple selector in its compound: cheap and telling ones come
first. -/
def priority : Simple → Nat
  | .pseudoElement _ => 0
  | .id _ => 1
  | .className _ => 2
  | .type _ => 3
  | .attr _ => 4
  | _ => 5

end Simple

end DomQuery.Selector
