import DomQuery.Remember
import DomQuery.Selector.Leaf
import DomQuery.Selector.Parser

/-!
# Looking lists up

The branches of a list are found once and then remembered under the number of
the list. The lists inside of them are looked up right away, so that whatever is
wrong with a selector shows when its outermost list is looked up. In a forgiving
list a faulty branch is left out; in the others it makes the whole list faulty.

For matching, the lists are looked up again, from the outermost one inwards.
-/

namespace DomQuery.Selector

/-- A computation that looks lists up. -/
abbrev Lookup (α : Type) := Remembering ListId (List (Chain (List Leaf))) SelectorError α

/-- The branches that are not faulty, or the first fault. -/
def collectBranches {α : Type} (mode : ListMode) (branches : List (Lookup α)) : Lookup (List α) :=
  if mode == .forgiving then do
    let found ← branches.mapM attempt
    return found.filterMap fun branch => branch
  else branches.mapM fun branch => branch

/-- How to read the branches of the list in the argument of a component. -/
def Component.nestedMode? (c : Component) : Option ListMode :=
  match c.leaf with
  | .ok leaf => leaf.nested?.map Prod.fst
  | .error _ => none

mutual

/-- The branches of a list. -/
def SelectorList.branches (mode : ListMode) : SelectorList → Lookup (List (Chain (List Leaf)))
  | .mk id selectors => remembered id (collectBranches mode (Complex.branches mode selectors))

/-- The chain of each branch, after the lists in it were looked up. -/
def Complex.branches (mode : ListMode) : List Complex → List (Lookup (Chain (List Leaf)))
  | [] => []
  | .mk components :: rest =>
    (do
      let chain ← liftExcept (Complex.decompose mode (.mk components))
      Component.requestAll components
      return chain) :: Complex.branches mode rest

/-- Looks up the lists in the arguments of the components. -/
def Component.requestAll : List Component → Lookup Unit
  | [] => return ()
  | c :: rest => do
    c.request
    Component.requestAll rest

def Component.request : Component → Lookup Unit
  | .pseudoClass name (some argument) =>
    argument.request (Component.nestedMode? (.pseudoClass name (some argument)))
  | _ => return ()

def Argument.request (mode? : Option ListMode) : Argument → Lookup Unit
  | .selectors list | .nth _ _ (some list) =>
    match mode? with
    | some mode => discard (list.branches mode)
    | none => return ()
  | _ => return ()

end

/-! ### For matching -/

mutual

/-- How deep lists are nested in the argument of a component. -/
def Component.depth : Component → Nat
  | .pseudoClass _ argument => Argument.depth argument
  | _ => 0

def Argument.depth : Option Argument → Nat
  | some (.selectors list) => list.depth
  | some (.nth _ _ (some list)) => list.depth
  | _ => 0

/-- How deep lists are nested, this one counted. -/
def SelectorList.depth : SelectorList → Nat
  | .mk _ selectors => Complex.maxDepth selectors + 1

def Complex.maxDepth : List Complex → Nat
  | [] => 0
  | .mk components :: rest => max (Component.maxDepth components) (Complex.maxDepth rest)

def Component.maxDepth : List Component → Nat
  | [] => 0
  | c :: rest => max c.depth (Component.maxDepth rest)

end

/-- The simple selector of a leaf, for which `look` gives the chains of lists. -/
def Leaf.simple {m : Type → Type} [Monad m]
    (look : ListMode → SelectorList → m (List (Chain Compound))) : Leaf → m Simple
  | .plain s => return s
  | .matchesAny list => .matchesAny <$> look .forgiving list
  | .matchesNone list => .matchesNone <$> look .strict list
  | .has list => if list.containsHas then return .never else .has <$> look .relative list
  | .nth form list => (fun branches => .nth form (some (list.id, branches))) <$> look .strict list
  | .host list => (fun branches => .host (some branches)) <$> look .compound list
  | .hostContext list => .hostContext <$> look .compound list

/-- The chains of branches, for which `look` gives those of the lists inside. -/
def linkAll {m : Type → Type} [Monad m]
    (look : ListMode → SelectorList → m (List (Chain Compound)))
    (branches : List (Chain (List Leaf))) : m (List (Chain Compound)) :=
  branches.mapM fun chain => chain.mapM fun compound => compound.mapM (Leaf.simple look)

/-- The chains of a list, down to the simple selectors of the lists inside of
it; `fuel` bounds how deep these are nested. -/
def SelectorList.load : Nat → ListMode → SelectorList → Lookup (List (Chain Compound))
  | 0, _, _ => return []
  | fuel + 1, mode, list => do
    let branches ← list.branches mode
    linkAll (load fuel) branches

/-- The chains of a list when nothing was looked up before. -/
def SelectorList.resolve (mode : ListMode) (list : SelectorList) :
    Except SelectorError (List (Chain Compound)) :=
  fresh (list.load list.depth mode)

/-- Reads a selector list; the error names the text. -/
def SelectorList.ofText (text : String) : Except SelectorError SelectorList :=
  (SelectorList.parse text).mapError (.unreadable text)

end DomQuery.Selector
