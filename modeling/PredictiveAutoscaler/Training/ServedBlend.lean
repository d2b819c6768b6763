/-
The blended forecast of the network and the previous-day pattern, as predict
serves it and as evaluate scores it.  Numbers are exact, with infinities and
NaN, also where evaluate writes the blend into an array of the network's dtype
(`np.empty_like`).  The two agree at a step exactly when the step has no
pattern, or the network's share is usable and the two percentiles give one
pattern.
-/
import Mathlib.Data.List.Sort
import Mathlib.Data.PNat.Basic
import Mathlib.Data.Rat.Defs
import Mathlib.Algebra.Order.Field.Rat
import Mathlib.Tactic.FieldSimp
import Mathlib.Tactic.Linarith
import Mathlib.Tactic.Ring
import PredictiveAutoscaler.ListTraversal

namespace PredictiveAutoscaler.ServedBlend

open ListTraversal

inductive Num
  | finite (q : ℚ)
  | inf (negative : Bool)
  | nan
deriving DecidableEq

namespace Num

def isFinite : Num → Bool
  | .finite _ => true
  | _ => false

def add : Num → Num → Num
  | .finite a, .finite b => .finite (a + b)
  | .finite _, .inf s => .inf s
  | .inf s, .finite _ => .inf s
  | .inf s, .inf t => if s = t then .inf s else .nan
  | _, _ => .nan

/-- The product with a positive finite number. -/
def scale (w : ℚ) : Num → Num
  | .finite a => .finite (w * a)
  | x => x

def lt : Num → Num → Bool
  | .finite a, .finite b => a < b
  | .finite _, .inf s => !s
  | .inf s, .finite _ => s
  | .inf s, .inf t => s && !t
  | _, _ => false

def mean (xs : List Num) : Num :=
  scale (1 / xs.length) (xs.foldl add (.finite 0))

end Num

/-- An observation; instants are in microseconds. -/
structure Point where
  time : ℤ
  value : Num
deriving DecidableEq

def minute : ℤ := 60000000

def day : ℤ := 1440 * minute

def stepsAhead : ℕ := 6

/-- Linear interpolation with constant ends. -/
def interp (x : ℚ) : List (ℚ × ℚ) → ℚ
  | [] => 0
  | [(_, y)] => y
  | (x₀, y₀) :: (x₁, y₁) :: rest =>
      if x ≤ x₀ then y₀
      else if x < x₁ then y₀ + (y₁ - y₀) / (x₁ - x₀) * (x - x₀)
      else interp x ((x₁, y₁) :: rest)

/-- Each value at the middle of its share of the summed weights. -/
def cumulate (total : ℚ) : ℚ → List (ℚ × ℚ) → List (ℚ × ℚ)
  | _, [] => []
  | before, (value, weight) :: rest =>
      ((before + weight - weight / 2) / total, value) ::
        cumulate total (before + weight) rest

/-- The weighted percentile of values with their weights. -/
def weightedPercentile (values : List (ℚ × ℚ)) (percentile : ℚ) : ℚ :=
  match values with
  | [(value, _)] => value
  | _ =>
      let sorted := values.insertionSort fun a b => a.1 ≤ b.1
      let total := (sorted.map Prod.snd).sum
      interp (percentile / 100) (cumulate total 0 sorted)

/-- The observation nearest in time; of two as near, the later. -/
def nearest (s : List Point) (want : ℤ) : Option Point :=
  match (s.filter (·.time ≤ want)).getLast?, s.find? (want ≤ ·.time) with
  | some l, some r => if want - l.time < r.time - want then some l else some r
  | some l, none => some l
  | none, r => r

/-- The finite observations at a target's clock time, by days back, up to the
start of the history. -/
def daysBack (s : List Point) (first target : ℤ) :
    List ℕ → Except String (List (ℕ × ℚ))
  | [] => return []
  | d :: ds => do
      let want := target - d * day
      if want < first - 5 * minute then return []
      else if ¬(s.map Point.time).Nodup then
        throw "Reindexing only valid with uniquely valued Index objects"
      else
        let rest ← daysBack s first target ds
        match nearest s want with
        | none => return rest
        | some p =>
            if |p.time - want| ≤ 5 * minute then
              match p.value with
              | .finite value => return (d, value) :: rest
              | _ => return rest
            else return rest

/-- The matched days of one step; none without a history. -/
def stepDays (history : Option (List Point)) (origin : ℤ) (step : ℕ) :
    Except String (List (ℕ × ℚ)) :=
  match (history.getD []).insertionSort fun a b => a.time ≤ b.time with
  | [] => return []
  | first :: rest =>
      daysBack (first :: rest) first.time (origin + 10 * minute * (step + 1))
        [1, 2, 3, 4, 5, 6, 7]

/-- The pattern of a step from its matched days. -/
def stepPattern (effectivePct : ℚ) (days : List (ℕ × ℚ)) : Num :=
  if days = [] then .nan
  else .finite (weightedPercentile
    (days.map fun x => (x.2, (3 / 10 : ℚ) ^ (x.1 - 1))) effectivePct)

/-- `_pattern_forecast`: a value or NaN for each step, nothing when no step
has one. -/
def patternForecast (origin : ℤ) (steps : ℕ) (history : Option (List Point))
    (effectivePct : ℚ) : Except String (Option (List Num)) := do
  let days ← (List.range steps).mapM (stepDays history origin)
  if ∀ x ∈ days, x = [] then return none
  else return some (days.map (stepPattern effectivePct))

/-- `pattern_weight_override` as it is set. -/
inductive WeightOverride
  | scalar (w : Num)
  | perStep (ws : List Num)

/-- A validated override. -/
inductive Weights
  | constant (w : ℚ)
  | perStep (ws : List ℚ)

/-- A weight that is finite and within [0, 1]. -/
def fraction : Num → Option ℚ
  | .finite w => if 0 ≤ w ∧ w ≤ 1 then some w else none
  | _ => none

def validateWeightOverride (override : Option WeightOverride) (steps : ℕ) :
    Except String (Option Weights) :=
  match override with
  | none => return none
  | some (.scalar w) =>
      match fraction w with
      | none => throw "pattern_weight_override must be finite and within [0, 1]"
      | some w => return some (.constant w)
  | some (.perStep ws) =>
      if ws.length ≠ steps then
        throw "pattern_weight_override has the wrong number of entries"
      else
        match ws.mapM fraction with
        | none =>
            throw "pattern_weight_override entries must be finite and within [0, 1]"
        | some ws => return some (.perStep ws)

def deployedPatternWeight (step steps : ℕ) : ℚ :=
  min (95 / 100) (7 / 10 + step / max steps 1 * (25 / 100))

def patternWeightFor (step steps : ℕ) (override : Option Weights)
    (patternStepAvailable : Bool) : ℚ :=
  if ¬patternStepAvailable then 0
  else
    match override with
    | none => deployedPatternWeight step steps
    | some (.constant w) => w
    | some (.perStep ws) => ws.getD step 0

/-- Blend one step; a term of weight zero is not touched. -/
def serveStep (networkValue patternValue : Num) (patternWeight : ℚ) : Num :=
  if 1 ≤ patternWeight then patternValue
  else if patternWeight ≤ 0 then networkValue
  else (networkValue.scale (1 - patternWeight)).add
    (patternValue.scale patternWeight)

/-- The directional percentile of the last scaled inputs. -/
def directionPct (lastSequence : List Num) : ℚ :=
  let n := lastSequence.length
  if 12 ≤ n then
    let prevMean := Num.mean ((lastSequence.drop (n - 12)).take 6)
    let lastMean := Num.mean (lastSequence.drop (n - 6))
    if lastMean.lt prevMean then 70 else 75
  else 75

/-- The percentile of the tracked error; `max(0, nan)` is 0. -/
def mapePct : Num → ℚ
  | .finite mape => max 50 (min 75 (75 - max 0 (mape - 10) * (25 / 20)))
  | .inf false => 50
  | _ => 75

def effectivePct (direction mape : ℚ) : ℚ :=
  if 75 ≤ direction then max 50 (min 75 (max direction mape))
  else max 50 (min 75 (min direction mape))

variable {F : Type}

/-- The network takes scaled values with the calendar features of their
instants and returns scaled values. -/
structure LSTMForecastModel (F : Type) where
  network : List (Num × F) → Except String (Fin stepsAhead → Num)
  timeFeatures : ℤ → F
  transform : Num → Num
  inverseTransform : Num → Num
  sequenceLength : ℕ+
  isTrained : Bool := true
  lastSequence : Option (List Num) := none
  inputTimestamps : Option (List ℤ) := none
  mapeForFloor : Num := .finite 0
  patternWeightOverride : Option WeightOverride := none
  seasonalHistory : Option (List Point) := none

/-- The network's values for a horizon, cut or padded with the last. -/
def fitSteps (xs : List Num) (steps : ℕ) : List Num :=
  if steps < stepsAhead then xs.take steps
  else xs ++ List.replicate (steps - stepsAhead) (xs.getLast?.getD .nan)

section Model

variable (m : LSTMForecastModel F)

/-- The network's rescaled values. -/
def LSTMForecastModel.rescaled (out : Fin stepsAhead → Num) : List Num :=
  List.ofFn fun j => m.inverseTransform (out j)

/-- One served step: the pattern alone where the network is not finite. -/
def predictStep (network pattern : List Num) (steps : ℕ)
    (override : Option Weights) (step : ℕ) : Num :=
  let networkValue := network.getD step .nan
  let patternValue := pattern.getD step .nan
  let available := decide (patternValue ≠ .nan)
  let weight := patternWeightFor step steps override available
  let weight := if !networkValue.isFinite && available then 1 else weight
  serveStep networkValue patternValue weight

def predict (steps : ℕ) (origin : Option ℤ) (inputTimestamps : Option (List ℤ))
    (seasonalHistory : Option (List Point)) (now : ℤ) :
    Except String (List Num) :=
  if ¬m.isTrained then throw "Model must be trained before making predictions"
  else
    let timestamps := inputTimestamps.or m.inputTimestamps
    let origin := origin.getD (((timestamps.getD []).getLast?).getD now)
    let length := (m.sequenceLength : ℕ)
    let grid := (List.range length).map fun i : ℕ =>
      origin - 10 * minute * (length - 1 - i)
    let seqTimestamps := (timestamps.filter (·.length = length)).getD grid
    match m.lastSequence with
    | none => throw "the model has no input window"
    | some last =>
        if last.length ≠ length then throw "the input window has another length"
        else do
          let lstm := match m.network
              (last.zip (seqTimestamps.map m.timeFeatures)) with
            | .ok out => m.rescaled out
            | .error _ => List.replicate stepsAhead .nan
          let pct := effectivePct (directionPct last) (mapePct m.mapeForFloor)
          let pattern ← patternForecast origin steps
            (seasonalHistory.or m.seasonalHistory) pct
          let override ← validateWeightOverride m.patternWeightOverride steps
          return (List.range steps).map (predictStep (fitSteps lstm steps)
            (pattern.getD (List.replicate steps .nan)) steps override)

/-- The scaled input window of a sequence, with its instants. -/
def window (rows : List Point) (i : ℕ) : List (Num × ℤ) :=
  ((rows.drop i).take m.sequenceLength).map fun row =>
    (m.transform row.value, row.time)

/-- The kept sequences: none of their targets is imputed. -/
def keptIdx (rows : List Point) (imputed : Option (List Bool)) : List ℕ :=
  let length := (m.sequenceLength : ℕ)
  (List.range (rows.length + 1 - length - stepsAhead)).filter fun i =>
    match imputed with
    | none => true
    | some flags =>
        if flags.length = rows.length then
          !((flags.drop (i + length)).take stepsAhead).any id
        else true

/-- The origin of a sequence: its last input row's instant. -/
def originOf (rows : List Point) (i : ℕ) : ℤ :=
  ((rows[i + m.sequenceLength - 1]?).map Point.time).getD 0

/-- One scored step. -/
def scoreStep (network pattern : List Num) (override : Option Weights)
    (step : ℕ) : Num :=
  let patternValue := pattern.getD step .nan
  let available := decide (patternValue ≠ .nan)
  serveStep (network.getD step .nan) patternValue
    (patternWeightFor step stepsAhead override available)

/-- The served blend of one sequence. -/
def servedRow (override : Option Weights) (origin : ℤ) (network : List Num) :
    Except String (List Num) := do
  let pattern ← patternForecast origin stepsAhead m.seasonalHistory 75
  match pattern with
  | none => return network
  | some pattern =>
      return (List.range stepsAhead).map (scoreStep network pattern override)

structure Evaluation where
  scored : String
  kept : List ℕ
  networkPred : List (List Num)
  servedPred : Option (List (List Num))

def evaluate (rows : List Point) (imputed : Option (List Bool)) :
    Except String Evaluation :=
  if ¬m.isTrained then throw "Model must be trained before evaluation"
  else
    let kept := keptIdx m rows imputed
    if kept = [] then
      return ⟨"unavailable: test partition too short", [], [], none⟩
    else do
      let outs ← kept.mapM fun i => m.network
        ((window m rows i).map fun x => (x.1, m.timeFeatures x.2))
      let testPred := outs.map m.rescaled
      let override ← validateWeightOverride m.patternWeightOverride stepsAhead
      -- Any exception here leaves the raw network to be scored.
      let served :=
        if (m.seasonalHistory.getD []) = [] then none
        else ((kept.zip testPred).mapM fun x =>
          servedRow m override (originOf m rows x.1) x.2).toOption
      return ⟨if served.isSome then "served_blend" else "raw_network", kept,
        testPred, served⟩

end Model

section Step

theorem fraction_eq_some {x : Num} {w : ℚ} (h : fraction x = some w) :
    0 ≤ w ∧ w ≤ 1 := by
  cases x with
  | finite q =>
      simp only [fraction, Option.ite_none_right_eq_some,
        Option.some.injEq] at h
      obtain ⟨hq, rfl⟩ := h
      exact hq
  | _ => cases h

theorem mapM_fraction {xs : List Num} {ws : List ℚ}
    (h : xs.mapM fraction = some ws) : ∀ w ∈ ws, 0 ≤ w ∧ w ≤ 1 := by
  induction xs generalizing ws with
  | nil =>
      cases h
      simp
  | cons x xs ih =>
      simp only [List.mapM_cons, Option.pure_def, Option.bind_eq_bind,
        Option.bind_eq_some_iff, Option.some.injEq] at h
      obtain ⟨w, hw, rest, hrest, rfl⟩ := h
      intro v hv
      rcases List.mem_cons.mp hv with rfl | hv
      · exact fraction_eq_some hw
      · exact ih hrest v hv

/-- A validated weight of an available step is a fraction. -/
theorem weight_fraction {override : Option WeightOverride} {steps : ℕ}
    {weights : Option Weights} (step : ℕ)
    (h : validateWeightOverride override steps = .ok weights) :
    0 ≤ patternWeightFor step steps weights true ∧
      patternWeightFor step steps weights true ≤ 1 := by
  cases override with
  | none =>
      cases h
      have hsteps : (1 : ℚ) ≤ ((max steps 1 : ℕ) : ℚ) := by
        exact_mod_cast le_max_right steps 1
      have hshare : (0 : ℚ) ≤ step / ((max steps 1 : ℕ) : ℚ) :=
        div_nonneg (Nat.cast_nonneg step) (by linarith)
      simp only [patternWeightFor, not_true_eq_false, if_false,
        deployedPatternWeight]
      constructor
      · refine le_min (by norm_num) ?_
        linarith
      · exact (min_le_left _ _).trans (by norm_num)
  | some set =>
      cases set with
      | scalar w =>
          simp only [validateWeightOverride] at h
          split at h
          · cases h
          · rename_i q hq
            cases h
            exact fraction_eq_some hq
      | perStep ws =>
          simp only [validateWeightOverride] at h
          split at h
          · cases h
          split at h
          · cases h
          · rename_i qs hqs
            cases h
            simp only [patternWeightFor, not_true_eq_false, if_false]
            rw [List.getD_eq_getElem?_getD]
            cases hget : qs[step]? with
            | none => exact ⟨le_rfl, zero_le_one⟩
            | some q => exact mapM_fraction hqs q (List.mem_of_getElem? hget)

/-- What is served and what is scored at a step with a pattern. -/
theorem serve_eq_iff (network : Num) (p q : ℚ) {w : ℚ} (hw : 0 ≤ w ∧ w ≤ 1) :
    serveStep network (.finite p) w =
        serveStep network (.finite q) (if !network.isFinite then 1 else w) ↔
      (network.isFinite = true ∨ w = 1) ∧ (w = 0 ∨ p = q) := by
  obtain ⟨hnonneg, hle⟩ := hw
  rcases eq_or_lt_of_le hle with rfl | hlt
  · simp [serveStep]
  rcases eq_or_lt_of_le hnonneg with rfl | hpos
  · have hone : ¬(1 : ℚ) ≤ 0 := not_le.mpr zero_lt_one
    cases network <;> simp [serveStep, Num.isFinite, hone]
  have hserve : ∀ r : ℚ, serveStep network (.finite r) w =
      (network.scale (1 - w)).add (.finite (w * r)) := by
    intro r
    rw [serveStep, if_neg (not_le.mpr hlt), if_neg (not_le.mpr hpos)]
    rfl
  cases network with
  | finite x =>
      simp only [Num.isFinite, Bool.not_true, Bool.false_eq_true, if_false,
        hserve, Num.scale, Num.add, Num.finite.injEq, add_right_inj, true_or,
        true_and, hpos.ne', false_or]
      exact mul_right_inj' hpos.ne'
  | inf s =>
      rw [hserve]
      simp [Num.isFinite, serveStep, Num.scale, Num.add, hlt.ne]
  | nan =>
      rw [hserve]
      simp [Num.isFinite, serveStep, Num.scale, Num.add, hlt.ne]

/-- When the scored step is the served one. -/
def AgreesAt (weights : Option Weights) (days : List (ℕ × ℚ)) (network : Num)
    (pct : ℚ) (step : ℕ) : Prop :=
  let w := patternWeightFor step stepsAhead weights true
  days = [] ∨ ((network.isFinite = true ∨ w = 1) ∧
    (w = 0 ∨ stepPattern 75 days = stepPattern pct days))

theorem step_eq_iff {override : Option WeightOverride}
    {weights : Option Weights} {network : List Num} {days : List (List (ℕ × ℚ))}
    {pct : ℚ} {step : ℕ} (hstep : step < stepsAhead)
    (hdays : days.length = stepsAhead)
    (h : validateWeightOverride override stepsAhead = .ok weights) :
    scoreStep network (days.map (stepPattern 75)) weights step =
        predictStep network (days.map (stepPattern pct)) stepsAhead weights
          step ↔
      AgreesAt weights (days.getD step []) (network.getD step .nan) pct step := by
  have hget : ∀ q : ℚ, (days.map (stepPattern q)).getD step .nan =
      stepPattern q (days.getD step []) := by
    intro q
    have hlt : step < days.length := hdays ▸ hstep
    simp [List.getD_eq_getElem?_getD, hlt]
  unfold scoreStep predictStep AgreesAt
  rw [hget, hget]
  generalize days.getD step [] = d
  generalize network.getD step .nan = x
  by_cases hd : d = []
  · subst hd
    simp [stepPattern, patternWeightFor, serveStep]
  · have hserve := serve_eq_iff x
      (weightedPercentile (d.map fun x => (x.2, (3 / 10 : ℚ) ^ (x.1 - 1))) 75)
      (weightedPercentile (d.map fun x => (x.2, (3 / 10 : ℚ) ^ (x.1 - 1))) pct)
      (weight_fraction step h)
    simpa [stepPattern, hd] using hserve

end Step

section Agreement

variable {m : LSTMForecastModel F} {rows : List Point}

/-- What an evaluation that scores the served blend computed for one
sequence. -/
theorem evaluate_row {imputed : Option (List Bool)} {ev : Evaluation}
    (h : evaluate m rows imputed = .ok ev) {served : List (List Num)}
    (hserved : ev.servedPred = some served) {k : ℕ} {values : List Num}
    (hvalues : served[k]? = some values) :
    ∃ i out weights, ev.kept[k]? = some i ∧ i ∈ keptIdx m rows imputed ∧
      m.isTrained = true ∧
      m.network ((window m rows i).map fun x => (x.1, m.timeFeatures x.2)) =
        .ok out ∧
      validateWeightOverride m.patternWeightOverride stepsAhead =
        .ok weights ∧
      ev.networkPred[k]? = some (m.rescaled out) ∧
      servedRow m weights (originOf m rows i) (m.rescaled out) =
        .ok values := by
  unfold evaluate at h
  split at h
  · cases h
  rename_i htrained
  dsimp only at h
  split at h
  · cases h
    cases hserved
  cases houts : (keptIdx m rows imputed).mapM (fun i => m.network
      ((window m rows i).map fun x => (x.1, m.timeFeatures x.2))) with
  | error e => simp [houts, bind, Except.bind] at h
  | ok outs =>
      cases hweights : validateWeightOverride m.patternWeightOverride
          stepsAhead with
      | error e => simp [houts, hweights, bind, Except.bind] at h
      | ok weights =>
          simp only [houts, hweights, bind, Except.bind, pure, Except.pure,
            Except.ok.injEq] at h
          subst h
          dsimp only at hserved ⊢
          split at hserved
          · cases hserved
          cases hrows : ((keptIdx m rows imputed).zip
              (outs.map m.rescaled)).mapM (fun x =>
                servedRow m weights (originOf m rows x.1) x.2) with
          | error e =>
              rw [hrows] at hserved
              cases hserved
          | ok all =>
              rw [hrows] at hserved
              cases hserved
              obtain ⟨⟨i, network⟩, hzip, hrow⟩ :=
                getElem?_of_forall₂ (mapM_eq_ok hrows) hvalues
              obtain ⟨hi, hnetwork⟩ := List.getElem?_zip_eq_some.mp hzip
              rw [List.getElem?_map, Option.map_eq_some_iff] at hnetwork
              obtain ⟨out, hout, rfl⟩ := hnetwork
              obtain ⟨j, hj, hnet⟩ :=
                getElem?_of_forall₂ (mapM_eq_ok houts) hout
              rw [hi] at hj
              cases hj
              exact ⟨i, out, weights, hi, List.mem_of_getElem? hi,
                by simpa using htrained, hnet, rfl,
                by rw [List.getElem?_map, hout]; rfl, hrow⟩

/-- The model at a scored sequence: its window, and any tracked error. -/
def atSequence (m : LSTMForecastModel F) (rows : List Point) (i : ℕ)
    (mape : Num) : LSTMForecastModel F :=
  { m with
    lastSequence := some ((window m rows i).map Prod.fst)
    inputTimestamps := some ((window m rows i).map Prod.snd)
    mapeForFloor := mape }

/-- The percentile that predict takes there. -/
def servedPct (m : LSTMForecastModel F) (rows : List Point) (i : ℕ)
    (mape : Num) : ℚ :=
  effectivePct (directionPct ((window m rows i).map Prod.fst)) (mapePct mape)

theorem window_length {imputed : Option (List Bool)} {i : ℕ}
    (hi : i ∈ keptIdx m rows imputed) :
    (window m rows i).length = m.sequenceLength := by
  have hlt := List.mem_range.mp (List.mem_filter.mp hi).1
  simp only [window, List.length_map, List.length_take, List.length_drop]
  omega

/-- Predict at a scored sequence. -/
theorem predict_row {imputed : Option (List Bool)} {i : ℕ}
    (hi : i ∈ keptIdx m rows imputed) (htrained : m.isTrained = true)
    {out : Fin stepsAhead → Num} (hout : m.network
      ((window m rows i).map fun x => (x.1, m.timeFeatures x.2)) = .ok out)
    {weights : Option Weights}
    (hweights : validateWeightOverride m.patternWeightOverride stepsAhead =
      .ok weights) (mape : Num) (now : ℤ) :
    predict (atSequence m rows i mape) stepsAhead (some (originOf m rows i))
        none none now =
      (do
        let pattern ← patternForecast (originOf m rows i) stepsAhead
          m.seasonalHistory (servedPct m rows i mape)
        return (List.range stepsAhead).map (predictStep (m.rescaled out)
          (pattern.getD (List.replicate stepsAhead .nan)) stepsAhead
          weights)) := by
  have hlength := window_length hi
  have hzip : ((window m rows i).map Prod.fst).zip
      (((window m rows i).map Prod.snd).map m.timeFeatures) =
        (window m rows i).map fun x => (x.1, m.timeFeatures x.2) := by
    rw [List.map_map, List.zip_map']
    rfl
  have hfit : fitSteps (m.rescaled out) stepsAhead = m.rescaled out := by
    simp [fitSteps]
  unfold predict
  simp only [atSequence, htrained, not_true_eq_false, if_false, Option.none_or,
    Option.getD_some, Option.filter_some, List.length_map, hlength,
    decide_true, if_true, ne_eq, hzip, hout, hweights]
  rw [servedPct]
  cases hpattern : patternForecast (originOf m rows i) stepsAhead
      m.seasonalHistory (effectivePct
        (directionPct ((window m rows i).map Prod.fst)) (mapePct mape)) with
  | error e => rfl
  | ok pattern =>
      simp only [bind, Except.bind, pure, Except.pure]
      rw [← hfit]
      rfl

/-- At every step of every sequence that is scored as the served blend, the
scored value is the one that predict returns exactly when `AgreesAt` holds. -/
theorem scored_eq_served_iff {imputed : Option (List Bool)} {ev : Evaluation}
    (h : evaluate m rows imputed = .ok ev) {served : List (List Num)}
    (hserved : ev.servedPred = some served) {k : ℕ} {values : List Num}
    (hvalues : served[k]? = some values) (mape : Num) (now : ℤ) {step : ℕ}
    (hstep : step < stepsAhead) :
    ∃ i predicted weights days network, ev.kept[k]? = some i ∧
      predict (atSequence m rows i mape) stepsAhead (some (originOf m rows i))
        none none now = .ok predicted ∧
      validateWeightOverride m.patternWeightOverride stepsAhead =
        .ok weights ∧
      stepDays m.seasonalHistory (originOf m rows i) step = .ok days ∧
      ev.networkPred[k]? = some network ∧
      (values[step]? = predicted[step]? ↔
        AgreesAt weights days (network.getD step .nan)
          (servedPct m rows i mape) step) := by
  obtain ⟨i, out, weights, hkept, hi, htrained, hout, hweights, hnetwork,
    hrow⟩ := evaluate_row h hserved hvalues
  unfold servedRow at hrow
  cases hdays : (List.range stepsAhead).mapM
      (stepDays m.seasonalHistory (originOf m rows i)) with
  | error e => simp [patternForecast, hdays, bind, Except.bind] at hrow
  | ok days =>
      have hall := mapM_eq_ok hdays
      have hlength : days.length = stepsAhead := by
        rw [← hall.length_eq, List.length_range]
      have hget : days[step]? = some (days.getD step []) := by
        rw [List.getD_eq_getElem?_getD,
          List.getElem?_eq_getElem (hlength ▸ hstep)]
        rfl
      have hstepDays : stepDays m.seasonalHistory (originOf m rows i) step =
          .ok (days.getD step []) := by
        obtain ⟨j, hj, hok⟩ := getElem?_of_forall₂ hall hget
        rw [List.getElem?_range hstep] at hj
        cases hj
        exact hok
      have hpredict := predict_row hi htrained hout hweights mape now
      simp only [patternForecast, hdays, bind, Except.bind] at hrow hpredict
      by_cases hnone : ∀ x ∈ days, x = []
      · rw [if_pos hnone] at hrow hpredict
        cases hrow
        refine ⟨i, _, weights, _, _, hkept, hpredict, hweights, hstepDays,
          hnetwork, iff_of_true ?_ ?_⟩
        · simp [hstep, predictStep, patternWeightFor, serveStep,
            LSTMForecastModel.rescaled, List.getD_eq_getElem?_getD]
        · exact .inl (hnone _ (List.mem_of_getElem? hget))
      · rw [if_neg hnone] at hrow hpredict
        cases hrow
        refine ⟨i, _, weights, _, _, hkept, hpredict, hweights, hstepDays,
          hnetwork, ?_⟩
        rw [← step_eq_iff hstep hlength hweights]
        simp [hstep]

end Agreement

namespace ServedWitness

/-- A model of twelve inputs whose network returns zeros, with two days of
history before the first target. -/
def model : LSTMForecastModel Unit where
  network _ := .ok fun _ => .finite 0
  timeFeatures _ := ()
  transform := id
  inverseTransform := id
  sequenceLength := 12
  seasonalHistory := some [⟨120 * minute - 2 * day, .finite 10⟩,
    ⟨120 * minute - day, .finite 0⟩]

/-- Eighteen rows, the first six of them at this value and the others at
zero. -/
def rows (early : ℚ) : List Point :=
  (List.range 18).map fun i : ℕ =>
    ⟨10 * minute * i, .finite (if i < 6 then early else 0)⟩

/-- What predict returns at the first sequence. -/
def predicted (early : ℚ) : Except String (List Num) :=
  predict (atSequence model (rows early) 0 (.finite 0)) stepsAhead
    (some (originOf model (rows early) 0)) none none 0

/-- The scored and the served first step, when there are both. -/
def firstSteps (early : ℚ) : Option (Option Num × Option Num) :=
  (evaluate model (rows early) none).toOption.bind fun ev =>
    ev.servedPred.bind fun served => (served[0]?).bind fun values =>
      (predicted early).toOption.map fun ps => (values[0]?, ps[0]?)

theorem ok_of_toOption {A : Type} {x : Except String A} {a : A}
    (h : x.toOption = some a) : x = .ok a := by
  cases x with
  | error e => cases h
  | ok b =>
      cases h
      rfl

theorem exists_of_firstSteps {early : ℚ} {x : Option Num × Option Num}
    (h : firstSteps early = some x) :
    ∃ ev served values ps, evaluate model (rows early) none = .ok ev ∧
      ev.servedPred = some served ∧ served[0]? = some values ∧
      predicted early = .ok ps ∧ (values[0]?, ps[0]?) = x := by
  obtain ⟨ev, hev, h⟩ := Option.bind_eq_some_iff.mp h
  obtain ⟨served, hserved, h⟩ := Option.bind_eq_some_iff.mp h
  obtain ⟨values, hvalues, h⟩ := Option.bind_eq_some_iff.mp h
  obtain ⟨ps, hps, h⟩ := Option.map_eq_some_iff.mp h
  exact ⟨ev, served, values, ps, ok_of_toOption hev, hserved, hvalues,
    ok_of_toOption hps, h⟩

/-- On inputs that do not fall, the first step is scored as it is served. -/
theorem steady_scored_as_served :
    ∃ ev served values ps, evaluate model (rows 0) none = .ok ev ∧
      ev.servedPred = some served ∧ served[0]? = some values ∧
      predicted 0 = .ok ps ∧ values[0]? = ps[0]? := by
  obtain ⟨ev, served, values, ps, hev, hserved, hvalues, hps, -⟩ :=
    @exists_of_firstSteps 0
      (some (.finite (133 / 26)), some (.finite (133 / 26))) (by decide +kernel)
  have hrow : (evaluate model (rows 0) none).toOption.map
      (fun ev => (ev.kept[0]?, ev.networkPred[0]?)) =
        some (some 0, some (List.replicate 6 (.finite 0))) := by decide +kernel
  rw [hev] at hrow
  obtain ⟨hkept, hnetwork⟩ := Prod.mk.inj (Option.some.inj hrow)
  obtain ⟨i, ps', weights, days, network, hi, hps', hweights, -, hnet, hiff⟩ :=
    scored_eq_served_iff hev hserved hvalues (.finite 0) 0
      (show 0 < stepsAhead by decide)
  rw [hkept] at hi
  cases hi
  rw [hnetwork] at hnet
  cases hnet
  have hsame : ps' = ps := by
    rw [predicted, hps'] at hps
    exact Except.ok.inj hps
  refine ⟨ev, served, values, ps, hev, hserved, hvalues, hps, ?_⟩
  rw [← hsame]
  have hpct : servedPct model (rows 0) 0 (.finite 0) = 75 := by decide +kernel
  rw [hiff, hpct]
  exact .inr ⟨.inl rfl, .inr rfl⟩

/-- On falling inputs, the first step is scored at another percentile. -/
theorem falling_scored_apart :
    ¬∀ (m : LSTMForecastModel Unit) (rows : List Point)
      (imputed : Option (List Bool)) (ev : Evaluation)
      (served : List (List Num)) (k i : ℕ) (values ps : List Num) (mape : Num)
      (now : ℤ) (step : ℕ), evaluate m rows imputed = .ok ev →
      ev.servedPred = some served → served[k]? = some values →
      ev.kept[k]? = some i →
      predict (atSequence m rows i mape) stepsAhead (some (originOf m rows i))
        none none now = .ok ps →
      step < stepsAhead → values[step]? = ps[step]? := by
  intro hall
  obtain ⟨ev, served, values, ps, hev, hserved, hvalues, hps, hx⟩ :=
    @exists_of_firstSteps 1
      (some (.finite (133 / 26)), some (.finite (287 / 65))) (by decide +kernel)
  have hkept : (evaluate model (rows 1) none).toOption.map
      (fun ev => ev.kept[0]?) = some (some 0) := by decide +kernel
  rw [hev] at hkept
  have heq := hall model (rows 1) none ev served 0 0 values ps (.finite 0) 0 0
    hev hserved hvalues (Option.some.inj hkept) hps (by decide)
  obtain ⟨hscored, hpredicted⟩ := Prod.mk.inj hx
  rw [hscored, hpredicted] at heq
  exact absurd heq (by decide +kernel)

end ServedWitness

end PredictiveAutoscaler.ServedBlend
