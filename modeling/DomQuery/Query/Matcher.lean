import DomQuery.Query.Search
import DomQuery.Selector.Resolve

/-!
# Matchers

A matcher is a selector bound to a context node. It answers four questions: does
the context match, which element on the way up does, which one below comes
first, and which ones below there are.

A query that would need a construct that is recognized and not evaluated finds
nothing.

A session is a matcher in use. It keeps the branches of the selector's lists and
the children counted so far from one question to the next.
-/

namespace DomQuery.Query

open DomQuery.Selector DomQuery.Tree

structure Matcher (ν : Type) where
  context : Context ν
  /-- The text of the selector. -/
  selector : String
  branches : List (Chain Compound)

/-- The questions that a matcher answers. -/
inductive Call where
  | isMatch
  | closest
  | first
  | all
deriving DecidableEq, Repr

inductive Answer (ν : Type) where
  | truth (b : Bool)
  | node (n : Option ν)
  | nodes (l : List ν)
deriving DecidableEq, Repr

namespace Matcher

variable {ν : Type} [DecidableEq ν] (m : Matcher ν)

/-- What is found, or nothing if that takes what is not evaluated. -/
def find (target : Target) : Eval ν (List ν) :=
  tryCatch (m.context.find target m.branches) fun e =>
    if e.fault == .unsupported then return [] else throw e

/-- `operation` makes sense for the context node. -/
def requireElement (operation : String) : Eval ν Unit :=
  match m.context.tree.kind m.context.node with
  | .element => return ()
  | kind => throw (.elementRequired operation kind)

/-- The context node matches. -/
def isMatch : Eval ν Bool := do
  m.requireElement "matches"
  return (← m.find .itself).contains m.context.node

/-- The context node, or the nearest element above it, that matches. -/
def closest : Eval ν (Option ν) := do
  m.requireElement "closest"
  return (← m.find .nearest).head?

/-- The first match below the context node. -/
def first : Eval ν (Option ν) :=
  return (← m.find .first).head?

/-- All matches below the context node, in document order. -/
def all : Eval ν (List ν) :=
  m.find .all

def ask : Call → Eval ν (Answer ν)
  | .isMatch => .truth <$> m.isMatch
  | .closest => .node <$> m.closest
  | .first => .node <$> m.first
  | .all => .nodes <$> m.all

/-- The outcome of a query that nothing was asked before. -/
protected abbrev fresh {ν α : Type} (query : Eval ν α) : Except QueryError α :=
  DomQuery.fresh query

end Matcher

/-! ### Sessions -/

/-- A selector bound to a context node, and what was looked up and counted for
it so far. -/
structure Session (ν : Type) where
  context : Context ν
  /-- The text of the selector. -/
  selector : String
  list : SelectorList
  lists : List (ListId × List (Chain (List Leaf)))
  counts : Memo ν

namespace Session

variable {ν : Type}

/-- Binds the selector that `text` spells to `node`. The node is looked at
first, then the text, then its branches. -/
def start (tree : View ν) (text : String) (node : ν) (warn : Bool) :
    Except QueryError (Session ν) := do
  let context ← Context.of tree node warn
  let list ← (SelectorList.ofText text).mapError .selector
  let (outcome, lists) := (list.branches .strict).run.run []
  let _ ← outcome.mapError .selector
  return ⟨context, text, list, lists, []⟩

/-- Looks the lists of the selector up. -/
def matcher (s : Session ν) : Except QueryError (Matcher ν) × Session ν :=
  let (outcome, lists) := (s.list.load s.list.depth .strict).run.run s.lists
  ((outcome.mapError .selector).map fun branches => ⟨s.context, s.selector, branches⟩,
    { s with lists })

variable [DecidableEq ν]

/-- Answers a question. Nothing that was remembered is given up when that
fails. -/
def ask (call : Call) (s : Session ν) : Except QueryError (Answer ν) × Session ν :=
  match s.matcher with
  | (.error e, s) => (.error e, s)
  | (.ok m, s) =>
    let (outcome, counts) := (m.ask call).run.run s.counts
    (outcome, { s with counts })

/-- Answers questions one after another. -/
def askAll : List Call → Session ν → List (Except QueryError (Answer ν)) × Session ν
  | [], s => ([], s)
  | call :: calls, s =>
    let (outcome, s) := s.ask call
    let (outcomes, s) := askAll calls s
    (outcome :: outcomes, s)

end Session

/-- The matcher that a new session answers with. -/
def Matcher.new {ν : Type} (tree : View ν) (text : String) (node : ν) (warn : Bool) :
    Except QueryError (Matcher ν) := do
  let s ← Session.start tree text node warn
  s.matcher.1

end DomQuery.Query
