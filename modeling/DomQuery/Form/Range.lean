import DomQuery.Form.Disabled
import DomQuery.Number.Double

/-!
# Values in a range

Inputs for numbers, dates and times may have a least and a greatest value.
Numbers are compared as numbers. Dates and times are compared as texts, which
is the order in time for texts of one width.
-/

namespace DomQuery.Form

open DomQuery.Number DomQuery.Text DomQuery.Tree

/-- The order of two values of an input. An empty text compares with nothing,
and so does what should be a number and is none. -/
def compareValues (type : InputType) (left right : String) : Option Ordering :=
  match type with
  | .number | .range =>
    match readDouble? (trim left), readDouble? (trim right) with
    | some a, some b => a.compare? b
    | _, _ => none
  | _ => if left.isEmpty || right.isEmpty then none else some (compare left right)

variable {ν : Type} [DecidableEq ν]

/-- Whether the value of `n` is in its range; `none` when there is no range, or
the value is not for the user to change. -/
def inRange? (t : View ν) (n : ν) : Option Bool :=
  match inputType? t.toLinks n with
  | none => none
  | some type =>
    if !type.takesRange || !isMutable t.toLinks n then none
    else if type == .range then some true
    else
      match t.attribute? n "min", t.attribute? n "max" with
      | none, none => none
      | least, greatest =>
        let value := t.value n
        some (!(least.any fun bound => compareValues type value bound == some .lt) &&
          !(greatest.any fun bound => compareValues type value bound == some .gt))

end DomQuery.Form
