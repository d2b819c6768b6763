/-
The Holt-Winters fit of the ensemble: heuristic initial states from a centred
moving average, and the best of three runs of an optimiser over the smoothing
parameters.
-/
import PredictiveAutoscaler.Models.SeasonalEnsemble
import PredictiveAutoscaler.MovingAverage

namespace PredictiveAutoscaler.Models

open MovingAverage

/-- `OptimizeResult`; a `fun` that is no number is absent. -/
structure OptimizeResult where
  success : Bool
  value : Option ℚ
  x : List ℚ
  nit : ℕ
  message : String

/-- The solvers: `scipy.optimize.minimize` of an objective from a start within
bounds, `np.linalg.pinv` and `np.linalg.lstsq`. -/
structure Solvers where
  minimize : (List ℚ → ℚ) → List ℚ → List (ℚ × ℚ) → ℕ → OptimizeResult
  pinv : List (List ℚ) → List (List ℚ)
  lstsq : List (List ℚ) → List ℚ → Except String (List (Option ℚ))

/-- `np.dot` of two vectors. -/
def dot (u v : List ℚ) : ℚ := (List.zipWith (· * ·) u v).sum

/-- The cycles that the initial states are taken from. -/
def initCycles (n m : ℕ) : ℕ :=
  max (min 5 (n / m)) ((10 + 2 * (m / 2) + m - 1) / m)

/-- The mean detrended value of each position of the season; every position
has one when there are two cycles. -/
def seasonalMeans (detrended : List (Option ℚ)) (k m : ℕ) : List ℚ :=
  (List.range m).map fun p =>
    mean ((List.range k).filterMap fun r => detrended.getD (r * m + p) none)

/-- The level, the slope and the season's states of a series and its trend: a
line through the first ten trend values, and the detrended means around 0. -/
def initialStates (pinv : List (List ℚ) → List (List ℚ)) (m k : ℕ)
    (x : List ℚ) (trend : List (Option ℚ)) :
    Except String (ℚ × ℚ × List ℚ) :=
  let detrended := List.zipWith (fun v t => t.map fun t => v - t) x trend
  let seasonal := seasonalMeans detrended k m
  let levelInput := (trend.filterMap id).take 10
  if levelInput.length ≠ 10 then
    .error s!"shapes (2,10) and ({levelInput.length},) not aligned"
  else
    let exog := (List.range 10).map fun i : ℕ => [1, (i + 1 : ℚ)]
    let coef := (pinv exog).map fun row => dot row levelInput
    .ok (coef.getD 0 0, coef.getD 1 0,
      seasonal.map fun s => s - mean seasonal)

/-- `HW_STARTS`. -/
def hwStarts : List (ℚ × ℚ × ℚ) :=
  [(3 / 10, 1 / 10, 1 / 10), (1 / 10, 1 / 100, 1 / 20),
    (3 / 5, 1 / 20, 3 / 10)]

/-- `_params`: 0 ≤ beta ≤ alpha, 0 ≤ gamma ≤ 1 - alpha. -/
def params (x : List ℚ) : ℚ × ℚ × ℚ :=
  let a := clip (x.getD 0 0) 0 1
  (a, clip (x.getD 1 0) 0 1 * a, clip (x.getD 2 0) 0 1 * (1 - a))

/-- Whether a result is better than the best so far. -/
def OptimizeResult.better (res : OptimizeResult) :
    Option OptimizeResult → Bool
  | none => true
  | some best =>
      match res.value, best.value with
      | some v, some w => v < w
      | _, _ => false

/-- The best converged result of the three starts. -/
def bestOf (S : Solvers) (objective : List ℚ → ℚ) (maxiter : ℕ) :
    Option OptimizeResult :=
  hwStarts.foldl (fun best (a, b, g) =>
    let x0 := [a, if 0 < a then b / a else 0, g / (1 - a)]
    let res := S.minimize objective x0 [(0, 1), (0, 1), (0, 1)] maxiter
    if res.success ∧ res.value.isSome ∧ res.better best then some res
    else best) none

namespace SeasonalEnsemble

/-- The trend of the first cycles: a centred moving average of a season, twice
for an even one. -/
def rollingTrend (m : ℕ) (x : List ℚ) : List (Option ℚ) :=
  let trend := rollingMean m ((m - 1) / 2) (x.map some)
  if m % 2 = 0 then rollingMean 2 0 (shiftBack trend) else trend

variable (S : Solvers)

/-- `heuristic_init`. -/
def heuristicInit (y : List ℚ) (m : ℕ) : Except String (ℚ × ℚ × List ℚ) :=
  if y.length < 2 * m then
    .error "Holt-Winters needs at least two full seasonal cycles"
  else
    let k := initCycles y.length m
    let series := y.take (m * k)
    initialStates S.pinv m k series (rollingTrend m series)

/-- `fit_hw` of a complete window. -/
def fitHw (y : List ℚ) : Except String HWFit :=
  match heuristicInit S y season with
  | .error e => .error e
  | .ok (level0, trend0, season0) =>
      let run := fun x =>
        let (al, be, ga) := params x
        hwRun y al be ga level0 trend0 season0
      match bestOf S (fun x => (run x).1) 200 with
      | none =>
          .error "Holt-Winters optimiser did not converge from any start"
      | some best =>
          let (al, be, ga) := params best.x
          let (sse, level, trend, rolled) := run best.x
          .ok ⟨al, be, ga, level0, trend0, season0, level, trend, rolled, sse,
            y.length, best.nit, best.message⟩

/-- The ensemble's solvers. -/
def fitsOf : Fits where
  fitHw := fitHw S
  lstsq := S.lstsq

end SeasonalEnsemble

end PredictiveAutoscaler.Models
