/-
The values that Python's `json.loads` hands on, with its equality and its
order of numbers: an integer, a float and a boolean compare by what they are
worth, a NaN with nothing.
-/
import PredictiveAutoscaler.Json

namespace PredictiveAutoscaler

/-- A float: a double, an infinity or a NaN. -/
inductive PyFloat
  | finite (q : ℚ)
  | infinite (negative : Bool)
  | nan
deriving DecidableEq, Repr

inductive Value
  | none
  | bool (b : Bool)
  | int (n : ℤ)
  | float (x : PyFloat)
  | str (s : String)
  | list (items : List Value)
  /-- The keys of a `dict` are distinct. -/
  | dict (members : List (String × Value))

namespace Value

/-- A number that is compared as such; a boolean is 0 or 1. -/
def number? : Value → Option PyFloat
  | .bool b => some (.finite (if b then 1 else 0))
  | .int n => some (.finite n)
  | .float x => some x
  | _ => Option.none

end Value

/-- `x <= y` of two numbers. -/
def PyFloat.le : PyFloat → PyFloat → Bool
  | .nan, _ => false
  | _, .nan => false
  | .infinite true, _ => true
  | _, .infinite false => true
  | .finite p, .finite q => p ≤ q
  | _, _ => false

/-- `x == y` of two numbers. -/
def PyFloat.eq (x y : PyFloat) : Bool := x.le y && y.le x

namespace Value

mutual

/-- `v == w`. -/
def eq : Value → Value → Bool
  | .none, .none => true
  | .str s, .str t => s = t
  | .list items, .list items' => listEq items items'
  | .dict members, .dict members' =>
      members.length = members'.length && membersIn members members'
  | v, w =>
      match v.number?, w.number? with
      | some x, some y => x.eq y
      | _, _ => false

def listEq : List Value → List Value → Bool
  | [], [] => true
  | v :: rest, w :: rest' => eq v w && listEq rest rest'
  | _, _ => false

/-- Every member has an equal one under its key. -/
def membersIn : List (String × Value) → List (String × Value) → Bool
  | [], _ => true
  | (k, v) :: rest, members =>
      (match members.lookup k with
        | some w => eq v w
        | Option.none => false) && membersIn rest members

end

/-- `v <= w`; what is not a number is not compared. -/
def le? (v w : Value) : Option Bool :=
  match v.number?, w.number? with
  | some x, some y => some (x.le y)
  | _, _ => Option.none

end Value

end PredictiveAutoscaler
