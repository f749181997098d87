/-!
# Computations that remember

A computation may be told to remember what it comes to, under a key, and to ask
there first the next time. What was remembered stays, also when the computation
fails later on.
-/

namespace DomQuery

/-- A computation that may fail and remembers results under keys, the latest
first. -/
abbrev Remembering (κ υ ε α : Type) := ExceptT ε (StateM (List (κ × υ))) α

variable {κ υ ε α : Type}

/-- What is remembered for `key`; if nothing is, `compute` and remember it. -/
def remembered [DecidableEq κ] (key : κ) (compute : Remembering κ υ ε υ) :
    Remembering κ υ ε υ := do
  let memo ← getThe (List (κ × υ))
  match memo.find? fun entry => entry.1 = key with
  | some entry => return entry.2
  | none =>
    let value ← compute
    modifyThe (List (κ × υ)) fun memo => (key, value) :: memo
    return value

/-- What `x` comes to, or nothing if it fails. What it did to the state stays. -/
def attempt {σ : Type} (x : ExceptT ε (StateM σ) α) : ExceptT ε (StateM σ) (Option α) :=
  tryCatch (some <$> x) fun _ => return none

/-- The outcome of a computation for which nothing is remembered. -/
def fresh (x : Remembering κ υ ε α) : Except ε α :=
  (x.run.run []).1

end DomQuery
