/-
JSON values as a parser hands them on: a number is an integer literal or a
literal with a fraction or an exponent, and the last of several members with
one name is the member of that name.
-/
import PredictiveAutoscaler.Binary64

namespace PredictiveAutoscaler

/-- The exact value of a number's literal. -/
inductive JsonNumber
  | int (n : ℤ)
  | decimal (q : ℚ)
deriving DecidableEq, Repr

inductive Json
  | null
  | bool (b : Bool)
  | num (n : JsonNumber)
  | str (s : String)
  | arr (items : List Json)
  | obj (members : List (String × Json))

/-- The value of the last member with a name. -/
def lastMember {α : Type} (k : String) : List (String × α) → Option α
  | [] => none
  | (k', v) :: rest =>
      (lastMember k rest).or (if k' = k then some v else none)

/-- The double nearest a literal; beyond this bound there is none. -/
def floatOverflow : ℚ := 2 ^ 1024 - 2 ^ 970

/-- The finite double of a literal. -/
def parseFloat (q : ℚ) : Option ℚ :=
  if |q| < floatOverflow then some (binary64 q) else none

end PredictiveAutoscaler
