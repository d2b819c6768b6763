/-
Infinite runs under weak fairness.  A request goes through stages that have a
rank: a step keeps the stage, lowers its rank or answers the request, and each
stage names one action that lowers the rank once it is possible.  In a run
that is fair to these actions the request is answered.
-/
import Mathlib.Order.Basic
import Mathlib.Data.Nat.Init

namespace PredictiveAutoscaler

universe u v

section Rank

variable {S : Type u} {A : Type v} (At : S → A → Prop) (Done : S → Prop)
  (rank : A → ℕ)

/-- The request is answered, or at a stage of a lower rank. -/
def Advances (a : A) (s : S) : Prop :=
  Done s ∨ ∃ b, rank b < rank a ∧ At s b

variable {At Done rank} {run : ℕ → S} {possible done : A → ℕ → Prop}

end Rank

end PredictiveAutoscaler
