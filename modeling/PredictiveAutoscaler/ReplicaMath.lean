/-
The replica arithmetic of the operator: the per-replica capacity, the reactive
and the headroom counts, the lead-time window of a forecast, the predictive
term of a v2 forecast and the unified decision rule.  Counts are integers in
the range of Go's `int32`; request rates are doubles (`binary64`); instants
and durations are nanoseconds.
-/
import PredictiveAutoscaler.Binary64

namespace PredictiveAutoscaler

/-- `math.MaxInt32`. -/
def maxInt32 : ℤ := 2147483647

/-- `math.MinInt32`. -/
def minInt32 : ℤ := -2147483648

/-- Go's `int32(x)` of a double: the truncated value when it is representable,
otherwise what amd64 leaves in the register. -/
def toInt32 (x : ℚ) : ℤ :=
  let t := if 0 ≤ x then ⌊x⌋ else ⌈x⌉
  if minInt32 ≤ t ∧ t ≤ maxInt32 then t else minInt32

/-- Instants and durations count nanoseconds. -/
def second : ℤ := 1000000000

def minute : ℤ := 60 * second

/-- Go's `time.Duration(x)` of a double number of nanoseconds. -/
def durationOf (x : ℚ) : ℤ := if 0 ≤ x then ⌊x⌋ else ⌈x⌉

/-- Convert a computed count without wrapping: non-positive values are `0`,
values beyond `int32` saturate. -/
def boundedReplicas (x : ℚ) : ℤ :=
  if x ≤ 0 then 0
  else if (maxInt32 : ℚ) ≤ x then maxInt32
  else ⌊x⌋

theorem boundedReplicas_nonneg (x : ℚ) : 0 ≤ boundedReplicas x := by
  unfold boundedReplicas
  split_ifs with hnonpos hbig
  · exact le_rfl
  · decide
  · exact Int.floor_nonneg.mpr (not_le.mp hnonpos).le

theorem boundedReplicas_eq (x : ℚ) :
    boundedReplicas x = max 0 (min ⌊x⌋ maxInt32) := by
  unfold boundedReplicas
  split_ifs with hnonpos hbig
  · have : ⌊x⌋ ≤ 0 := by exact_mod_cast (Int.floor_le x).trans hnonpos
    omega
  · have : maxInt32 ≤ ⌊x⌋ := Int.le_floor.mpr hbig
    rw [min_eq_right this]
    decide
  · have hfloor : 0 ≤ ⌊x⌋ := Int.floor_nonneg.mpr (not_le.mp hnonpos).le
    have hlt : ⌊x⌋ < maxInt32 := Int.floor_lt.mpr (not_le.mp hbig)
    omega

theorem boundedReplicas_mono {x y : ℚ} (hxy : x ≤ y) :
    boundedReplicas x ≤ boundedReplicas y := by
  rw [boundedReplicas_eq, boundedReplicas_eq]
  have hfloor := Int.floor_mono hxy
  omega

theorem boundedReplicas_le (x : ℚ) : boundedReplicas x ≤ maxInt32 := by
  rw [boundedReplicas_eq]
  exact max_le (by decide) (min_le_right _ _)

/-- `spec.metrics.requests`: the double of the capacity quantity, when set,
and the deprecated integer rate (`0` when absent). -/
structure RequestsMetric where
  capacityPerReplica : Option ℚ
  targetRPS : ℤ
deriving DecidableEq

inductive CapacitySource
  | perReplica
  | targetRPS
deriving DecidableEq, Repr

/-- The upper bound on `capacityPerReplica`, in requests per second. -/
def maxCapacityPerReplicaRPS : ℚ := 1000000

/-- The per-replica capacity in requests per minute and the field it came
from; `none` when none resolves. -/
def perReplicaCapacityRPM :
    Option RequestsMetric → Option (ℚ × CapacitySource)
  | none => none
  | some req =>
      match req.capacityPerReplica with
      | some rps =>
          if req.targetRPS ≠ 0 ∨ rps ≤ 0 ∨ maxCapacityPerReplicaRPS < rps then
            none
          else some (binary64 (rps * 60), .perReplica)
      | none =>
          if 0 < req.targetRPS then
            some (binary64 (req.targetRPS * 60), .targetRPS)
          else none

/-- `ceil(rpm / (perPodRPM x (1 - headroomPercent / 100)))` in doubles. -/
def exactHeadroomFloor (rpm perPodRPM : ℚ) (headroomPercent : ℤ) : ℤ :=
  ⌈binary64 (rpm / binary64
    (perPodRPM * binary64 (1 - binary64 (headroomPercent / 100))))⌉

/-- The smallest count that leaves `headroomPercent` of spare capacity at the
measured rate, capped at `maxReplicas`; `0` when the headroom is off. -/
def headroomFloor (rpm perPodRPM : ℚ) (headroomPercent maxReplicas : ℤ) : ℤ :=
  if headroomPercent ≤ 0 ∨ 100 ≤ headroomPercent ∨ perPodRPM ≤ 0 ∨ rpm < 0 then
    0
  else
    let f := boundedReplicas (exactHeadroomFloor rpm perPodRPM headroomPercent)
    if maxReplicas < f then maxReplicas else f

/-- The bounds of the spec applied to a count, in the order of the code. -/
def clampReplicas (minReplicas maxReplicas v : ℤ) : ℤ :=
  let v := if v < minReplicas then minReplicas else v
  if maxReplicas < v then maxReplicas else v

/-- The one decision rule.  A missing measurement holds the current count. -/
def unifiedDesired (predicted reactive minReplicas maxReplicas current : ℤ)
    (forecastUsed telemetryOK : Bool) : ℤ × Bool :=
  if telemetryOK = false then
    (clampReplicas minReplicas maxReplicas current, true)
  else
    let desired := if forecastUsed then predicted else 0
    let desired := if desired < reactive then reactive else desired
    (clampReplicas minReplicas maxReplicas desired, false)

theorem clampReplicas_eq {minReplicas maxReplicas : ℤ}
    (hbounds : minReplicas ≤ maxReplicas) (v : ℤ) :
    clampReplicas minReplicas maxReplicas v =
      min (max v minReplicas) maxReplicas := by
  unfold clampReplicas
  dsimp only
  split_ifs <;> omega

/-- A saturated count and the exact one are the same once clamped to bounds
that are counts themselves. -/
theorem clamp_boundedReplicas {minReplicas maxReplicas : ℤ}
    (hmin : 0 ≤ minReplicas) (hmax : maxReplicas ≤ maxInt32) (p n : ℤ) :
    min (max (max p (boundedReplicas n)) minReplicas) maxReplicas =
      min (max (max p n) minReplicas) maxReplicas := by
  unfold boundedReplicas
  split_ifs with hnonpos hbig
  · have : n ≤ 0 := by exact_mod_cast hnonpos
    omega
  · have : maxInt32 ≤ n := by exact_mod_cast hbig
    omega
  · rw [Int.floor_intCast]

/-- A measured decision is the clamped larger of the participating forecast
and the reactive count. -/
theorem unifiedDesired_measured {minReplicas maxReplicas : ℤ}
    (hbounds : minReplicas ≤ maxReplicas) (predicted reactive current : ℤ)
    (forecastUsed : Bool) :
    unifiedDesired predicted reactive minReplicas maxReplicas current
        forecastUsed true =
      (min (max (max (if forecastUsed then predicted else 0) reactive)
        minReplicas) maxReplicas, false) := by
  unfold unifiedDesired
  rw [if_neg Bool.true_eq_false.mp]
  simp only [clampReplicas_eq hbounds]
  split_ifs <;> congr 2 <;> omega

/-- An unmeasured decision is the clamped current count. -/
theorem unifiedDesired_unmeasured {minReplicas maxReplicas : ℤ}
    (hbounds : minReplicas ≤ maxReplicas) (predicted reactive current : ℤ)
    (forecastUsed : Bool) :
    unifiedDesired predicted reactive minReplicas maxReplicas current
        forecastUsed false =
      (min (max current minReplicas) maxReplicas, true) := by
  simp only [unifiedDesired, if_true, clampReplicas_eq hbounds]

/-- The floor is the exact one, capped at the maximum. -/
theorem min_exactHeadroomFloor_le {rpm perPodRPM : ℚ}
    {headroomPercent maxReplicas : ℤ} (hrpm : 0 ≤ rpm) (hpod : 0 ≤ perPodRPM)
    (hlow : 0 < headroomPercent) (hhigh : headroomPercent < 100)
    (hmax : maxReplicas ≤ maxInt32) :
    min maxReplicas (exactHeadroomFloor rpm perPodRPM headroomPercent) ≤
      max 0 (headroomFloor rpm perPodRPM headroomPercent maxReplicas) := by
  rcases hpod.eq_or_lt with rfl | hpos
  · have hzero : exactHeadroomFloor rpm 0 headroomPercent = 0 := by
      simp [exactHeadroomFloor]
    rw [hzero]
    exact (min_le_right _ _).trans (le_max_left _ _)
  have hon : ¬(headroomPercent ≤ 0 ∨ 100 ≤ headroomPercent ∨ perPodRPM ≤ 0 ∨
      rpm < 0) := by
    rintro (h | h | h | h)
    · omega
    · omega
    · exact absurd hpos (not_lt.mpr h)
    · exact absurd hrpm (not_le.mpr h)
  unfold headroomFloor
  rw [if_neg hon]
  generalize exactHeadroomFloor rpm perPodRPM headroomPercent = f
  have hclamp := @clamp_boundedReplicas 0 maxReplicas le_rfl hmax 0 f
  dsimp only
  split_ifs <;> omega

/-- The predictive term of a v2 decision. -/
structure V2Policy where
  uncapped : ℤ
  allowance : ℤ
  capped : ℤ
  binding : Bool
deriving DecidableEq, Repr

/-- `ceil(U / c)`, capped at the predictive extra above the reactive need. -/
def v2PredictiveReplicas (upperRPS capacityRPM : ℚ)
    (reactive minReplicas maxExtra maxPercent : ℤ) : V2Policy :=
  let uncapped := boundedReplicas
    (⌈binary64 (binary64 (upperRPS * 60) / capacityRPM)⌉ : ℤ)
  let base := if reactive < minReplicas then minReplicas else reactive
  let byPercent := (maxPercent * base + 99).tdiv 100
  let allowance := if byPercent < maxExtra then byPercent else maxExtra
  let allowance := if maxInt32 < allowance then maxInt32 else allowance
  let limit := reactive + allowance
  if limit < uncapped then ⟨uncapped, allowance, limit, true⟩
  else ⟨uncapped, allowance, uncapped, false⟩

/-- What the loop of `selectLeadTimeWindow` carries. -/
structure LeadScan where
  window : List ℚ
  firstFuture : Option ℚ
  lastTarget : Option ℤ
deriving DecidableEq

/-- The target of the `i`-th step (from `0`) of a forecast. -/
def stepTarget (anchor : ℤ) (stepMin : ℚ) (i : ℕ) : ℤ :=
  anchor + durationOf (binary64 (binary64 ((i + 1) * stepMin) * minute))

/-- One turn of the loop: an elapsed step is skipped. -/
def LeadScan.visit (now leadEnd : ℤ) (scan : LeadScan)
    (target : ℤ) (v : ℚ) : LeadScan :=
  if target ≤ now then scan
  else
    { window := if target ≤ leadEnd then scan.window ++ [v] else scan.window
      firstFuture := scan.firstFuture.or (some v)
      lastTarget :=
        match scan.lastTarget with
        | none => some target
        | some last => if last < target then some target else some last }

/-- The values whose targets lie in `(now, now + lead]`, or the first future
value; `none` when the remaining horizon does not reach `now + lead`. -/
def selectLeadTimeWindow (predictions : List ℚ) (anchor now : ℤ)
    (horizonMinutes leadTimeMinutes : ℤ) : Option (List ℚ) :=
  if predictions.isEmpty then none
  else
    let stepMin := binary64 (horizonMinutes / predictions.length)
    let leadEnd := now + leadTimeMinutes * minute
    let scan : LeadScan := predictions.zipIdx.foldl
      (fun scan p => scan.visit now leadEnd (stepTarget anchor stepMin p.2) p.1)
      ⟨[], none, none⟩
    match scan.firstFuture, scan.lastTarget with
    | some first, some last =>
        if last < leadEnd then none
        else if scan.window.isEmpty then some [first]
        else some scan.window
    | _, _ => none

/-- The largest value of a window, as the loop finds it. -/
def peakOf : List ℚ → ℚ
  | [] => 0
  | v :: rest => rest.foldl (fun peak w => if peak < w then w else peak) v

def defaultHorizonMinutes : ℤ := 60

def defaultLeadTimeMinutes : ℤ := 20

inductive Safeguard
  | confidenceDamping
  | minClamp
  | maxClamp
  | predictiveExtraCap
  | sanityRejected
  | overestimateCap
  | capacityMissingHold
  | telemetryUnavailableHold
deriving DecidableEq, Repr

/-- A v1 forecast as the service answered it. -/
structure Prediction where
  predictions : List ℚ
  confidence : ℚ
  anchorAt : Option ℤ
deriving DecidableEq

/-- The intermediate values of the predictive component. -/
structure PredictedDetail where
  peakRPM : ℚ
  confidence : ℚ
  raw : ℤ
  damped : ℤ
  clamped : ℤ
  safeguards : List Safeguard
deriving DecidableEq

/-- The replica count of a v1 forecast: the peak of its lead-time window over
the capacity, damped when the model is unsure and clamped to the bounds.
`none` when the forecast is not usable. -/
def calculatePredictedReplicasDetail (minReplicas maxReplicas : ℤ)
    (horizonMinutes leadTimeMinutes : ℤ) (capacity : Option ℚ)
    (prediction : Prediction) (now : ℤ) :
    Option (ℤ × PredictedDetail) :=
  if prediction.predictions.isEmpty then
    some (minReplicas,
      ⟨0, prediction.confidence, minReplicas, minReplicas, minReplicas, []⟩)
  else
    let horizon :=
      if horizonMinutes = 0 then defaultHorizonMinutes else horizonMinutes
    let lead :=
      if leadTimeMinutes = 0 then defaultLeadTimeMinutes else leadTimeMinutes
    let anchor := prediction.anchorAt.getD now
    match selectLeadTimeWindow prediction.predictions anchor now horizon lead,
        capacity with
    | some window, some capacityRPM =>
        let peakRPM := peakOf window
        let raw := boundedReplicas (⌈binary64 (peakRPM / capacityRPM)⌉ : ℤ)
        let unsure :=
          prediction.confidence < binary64 (7 / 10) ∧ 0 < prediction.confidence
        let damped :=
          if unsure then
            boundedReplicas
              (⌈binary64 (minReplicas + binary64
                (prediction.confidence * (raw - minReplicas : ℤ)))⌉ : ℤ)
          else raw
        let raised := if damped < minReplicas then minReplicas else damped
        let clamped := if maxReplicas < raised then maxReplicas else raised
        some (clamped,
          { peakRPM := peakRPM, confidence := prediction.confidence, raw := raw
            damped := damped, clamped := clamped
            safeguards :=
              (if unsure ∧ damped ≠ raw then [.confidenceDamping] else []) ++
              (if damped < minReplicas then [.minClamp] else []) ++
              (if maxReplicas < raised then [.maxClamp] else []) })
    | _, _ => none

end PredictiveAutoscaler
