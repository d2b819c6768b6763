/-
The conversion of a v1 forecast with the durations of the code: `int64` counts
of nanoseconds, which the minutes of a spec can exceed.
-/
import PredictiveAutoscaler.LeadWindow

namespace PredictiveAutoscaler

/-- An `int64` product as the machine leaves it. -/
def wrapInt64 (n : ℤ) : ℤ := n.bmod (2 ^ 64)

/-- Go's `int64(x)` of a double: the truncated value when it is representable,
otherwise what amd64 leaves in the register. -/
def toInt64 (x : ℚ) : ℤ :=
  let t := durationOf x
  if -2 ^ 63 ≤ t ∧ t < 2 ^ 63 then t else -2 ^ 63

/-- The most whole minutes that a `time.Duration` holds. -/
def maxDurationMinutes : ℤ := 153722867

/-- The offset of the `i`-th step in nanoseconds, as a double. -/
def stepOffset (horizonMinutes : ℤ) (n i : ℕ) : ℚ :=
  let stepMin := binary64 (horizonMinutes / binary64 n)
  binary64 (binary64 (binary64 (i + 1) * stepMin) * minute)

theorem minute_cast : ((minute : ℤ) : ℚ) = 60000000000 := by
  simp only [minute, second]
  norm_num

theorem stepOffset_mono {horizonMinutes : ℤ} (hpos : 0 ≤ horizonMinutes)
    (n : ℕ) : Monotone (stepOffset horizonMinutes n) := by
  intro i j hij
  have hstep : 0 ≤ binary64 ((horizonMinutes : ℚ) / binary64 n) :=
    binary64_nonneg (div_nonneg (by exact_mod_cast hpos)
      (binary64_nonneg (by positivity)))
  have hindex : binary64 ((i : ℚ) + 1) ≤ binary64 ((j : ℚ) + 1) := by
    have hcast : (i : ℚ) ≤ j := by exact_mod_cast hij
    exact binary64_monotone (by linarith)
  have hminute : (0 : ℚ) ≤ (minute : ℤ) := by rw [minute_cast]; norm_num
  exact binary64_monotone (mul_le_mul_of_nonneg_right
    (binary64_monotone (mul_le_mul_of_nonneg_right hindex hstep)) hminute)

theorem stepOffset_nonneg {horizonMinutes : ℤ} (hpos : 0 ≤ horizonMinutes)
    (n i : ℕ) : 0 ≤ stepOffset horizonMinutes n i := by
  have hstep : 0 ≤ binary64 ((horizonMinutes : ℚ) / binary64 n) :=
    binary64_nonneg (div_nonneg (by exact_mod_cast hpos)
      (binary64_nonneg (by positivity)))
  have hminute : (0 : ℚ) ≤ (minute : ℤ) := by rw [minute_cast]; norm_num
  exact binary64_nonneg (mul_nonneg (binary64_nonneg (mul_nonneg
    (binary64_nonneg (by positivity)) hstep)) hminute)

/-- The relative error of a rounding away from the subnormal range. -/
theorem binary64_le_mul {q : ℚ} (hq : 1 / 2 ^ 100 ≤ q) :
    binary64 q ≤ q * (1 + 1 / 2 ^ 53) := by
  have hpos : 0 < q := lt_of_lt_of_le (by positivity) hq
  have hlow : -100 ≤ Int.log 2 |q| := by
    rw [← Int.zpow_le_iff_le_log (by norm_num) (abs_pos.mpr hpos.ne'),
      abs_of_pos hpos]
    norm_num at hq ⊢
    exact hq
  have hexp : ulpExponent q = Int.log 2 |q| - 52 := by
    unfold ulpExponent
    omega
  have hlog : (2 : ℚ) ^ Int.log 2 |q| ≤ q := by
    conv_rhs => rw [← abs_of_pos hpos]
    exact_mod_cast Int.zpow_log_le_self (by norm_num) (abs_pos.mpr hpos.ne')
  have hulp : (2 : ℚ) ^ ulpExponent q = 2 ^ Int.log 2 |q| / 2 ^ 52 := by
    rw [hexp, zpow_sub₀ (by norm_num)]
    norm_num
  have herror := (abs_le.mp (abs_binary64_sub_le_half_ulp q)).2
  rw [hulp] at herror
  have hhalf : (2 : ℚ) ^ Int.log 2 |q| / 2 ^ 52 / 2 ≤ q / 2 ^ 53 := by
    rw [div_div]
    norm_num
    linarith
  linarith

/-- Offsets of an admitted horizon fit a duration. -/
theorem stepOffset_lt {horizonMinutes : ℤ} (hpos : 0 < horizonMinutes)
    (hle : horizonMinutes ≤ maxDurationMinutes) {n i : ℕ} (hi : i < n)
    (hn : n < 2 ^ 63) : stepOffset horizonMinutes n i < 2 ^ 63 := by
  have hpos' : (1 : ℚ) ≤ horizonMinutes := by exact_mod_cast hpos
  have hle' : (horizonMinutes : ℚ) ≤ 153722867 := by exact_mod_cast hle
  have hindex : binary64 ((i : ℚ) + 1) ≤ binary64 n := by
    have : ((i + 1 : ℕ) : ℚ) ≤ n := by exact_mod_cast hi
    exact binary64_monotone (by push_cast at this; exact this)
  set count := binary64 (n : ℚ)
  have hone : 1 ≤ count := by
    have h1 : binary64 1 = 1 := by
      exact_mod_cast binary64_intCast (n := 1) (by norm_num)
    rw [← h1]
    refine binary64_monotone ?_
    exact_mod_cast Nat.one_le_of_lt hi
  have hcount : count ≤ 2 ^ 64 := by
    have hcast : (n : ℚ) ≤ 2 ^ 63 := by exact_mod_cast hn.le
    have hrel := binary64_le_mul (q := 2 ^ 63) (by norm_num)
    calc count ≤ binary64 (2 ^ 63) := binary64_monotone hcast
      _ ≤ 2 ^ 63 * (1 + 1 / 2 ^ 53) := hrel
      _ ≤ 2 ^ 64 := by norm_num
  have hstep : binary64 (horizonMinutes / count) ≤
      horizonMinutes / count * (1 + 1 / 2 ^ 53) := by
    refine binary64_le_mul ?_
    rw [le_div_iff₀ (by linarith)]
    calc 1 / 2 ^ 100 * count ≤ 1 / 2 ^ 100 * 2 ^ 64 :=
          mul_le_mul_of_nonneg_left hcount (by norm_num)
      _ ≤ 1 := by norm_num
      _ ≤ horizonMinutes := hpos'
  have hstep0 : 0 ≤ binary64 (horizonMinutes / count) :=
    binary64_nonneg (div_nonneg (by linarith) (by linarith))
  have hproduct : binary64 ((i : ℚ) + 1) * binary64 (horizonMinutes / count) ≤
      horizonMinutes * (1 + 1 / 2 ^ 53) := by
    calc binary64 ((i : ℚ) + 1) * binary64 (horizonMinutes / count)
        ≤ count * binary64 (horizonMinutes / count) :=
          mul_le_mul_of_nonneg_right hindex hstep0
      _ ≤ count * (horizonMinutes / count * (1 + 1 / 2 ^ 53)) :=
          mul_le_mul_of_nonneg_left hstep (by linarith)
      _ = horizonMinutes * (1 + 1 / 2 ^ 53) := by
          rw [← mul_assoc, mul_div_cancel₀]
          linarith
  have hminutes : binary64 (binary64 ((i : ℚ) + 1) *
      binary64 (horizonMinutes / count)) ≤
      horizonMinutes * (1 + 1 / 2 ^ 53) * (1 + 1 / 2 ^ 53) :=
    (binary64_monotone hproduct).trans
      (binary64_le_mul (by norm_num; linarith))
  calc stepOffset horizonMinutes n i
      ≤ binary64 (horizonMinutes * (1 + 1 / 2 ^ 53) * (1 + 1 / 2 ^ 53) *
          (minute : ℤ)) :=
        binary64_monotone (mul_le_mul_of_nonneg_right hminutes
          (by rw [minute_cast]; norm_num))
    _ ≤ horizonMinutes * (1 + 1 / 2 ^ 53) * (1 + 1 / 2 ^ 53) * (minute : ℤ) *
          (1 + 1 / 2 ^ 53) :=
        binary64_le_mul (by rw [minute_cast]; norm_num; linarith)
    _ < 2 ^ 63 := by
        rw [minute_cast]
        norm_num
        linarith

theorem durationOf_nonneg {x : ℚ} (hx : 0 ≤ x) : durationOf x = ⌊x⌋ := by
  rw [durationOf, if_pos hx]

theorem toInt64_of_lt {x : ℚ} (hx : 0 ≤ x) (hlt : x < 2 ^ 63) :
    toInt64 x = durationOf x := by
  have hfloor : 0 ≤ ⌊x⌋ := Int.floor_nonneg.mpr hx
  have hfloor' : ⌊x⌋ < 2 ^ 63 := Int.floor_lt.mpr (by exact_mod_cast hlt)
  rw [toInt64, durationOf_nonneg hx]
  exact if_pos ⟨by omega, hfloor'⟩

theorem toInt64_of_le {x : ℚ} (hle : 2 ^ 63 ≤ x) : toInt64 x = -2 ^ 63 := by
  have hx : 0 ≤ x := le_trans (by norm_num) hle
  have hfloor : 2 ^ 63 ≤ ⌊x⌋ := Int.le_floor.mpr (by exact_mod_cast hle)
  rw [toInt64, durationOf_nonneg hx]
  exact if_neg fun h => by omega

theorem wrapInt64_of_lt {n : ℤ} (hlow : -2 ^ 63 ≤ n) (hhigh : n < 2 ^ 63) :
    wrapInt64 n = n :=
  Int.bmod_eq_of_le (by norm_num; omega) (by norm_num; omega)

theorem wrapInt64_lt (n : ℤ) : wrapInt64 n < 2 ^ 63 := by
  have h := @Int.bmod_lt n (2 ^ 64) (by norm_num)
  norm_num at h
  exact h

/-- The target of the `i`-th step, with no bound on durations. -/
def targetOf (anchor horizonMinutes : ℤ) (n i : ℕ) : ℤ :=
  anchor + durationOf (stepOffset horizonMinutes n i)

theorem targetOf_mono (anchor : ℤ) {horizonMinutes : ℤ}
    (hpos : 0 ≤ horizonMinutes) (n : ℕ) :
    Monotone (targetOf anchor horizonMinutes n) := by
  intro i j hij
  unfold targetOf
  rw [durationOf_nonneg (stepOffset_nonneg hpos n i),
    durationOf_nonneg (stepOffset_nonneg hpos n j)]
  exact add_le_add_right (Int.floor_mono (stepOffset_mono hpos n hij)) anchor

namespace Int64Durations

def selectLeadTimeWindow (predictions : List ℚ) (anchor now : ℤ)
    (horizonMinutes leadTimeMinutes : ℤ) : Option (List ℚ) :=
  if predictions.isEmpty then none
  else
    let leadEnd := now + wrapInt64 (leadTimeMinutes * minute)
    let target := fun i =>
      anchor + toInt64 (stepOffset horizonMinutes predictions.length i)
    selectSteps (stepsOf target predictions) now leadEnd

/-- `opened` is the reading of the clock that stands for a missing anchor. -/
def calculatePredictedReplicasDetail (minReplicas maxReplicas : ℤ)
    (horizonMinutes leadTimeMinutes : ℤ) (capacity : Option ℚ)
    (prediction : Prediction) (opened now : ℤ) :
    Option (ℤ × PredictedDetail) :=
  if prediction.predictions.isEmpty then
    some (minReplicas,
      ⟨0, prediction.confidence, minReplicas, minReplicas, minReplicas, []⟩)
  else
    match selectLeadTimeWindow prediction.predictions
        (prediction.anchorAt.getD opened) now (horizonOrDefault horizonMinutes)
        (leadOrDefault leadTimeMinutes), capacity with
    | some window, some capacityRPM =>
        some (convertWindow minReplicas maxReplicas capacityRPM
          prediction.confidence window)
    | _, _ => none

end Int64Durations

/-- One call of the conversion. -/
structure ConversionCall where
  minReplicas : ℤ
  maxReplicas : ℤ
  capacityRPM : ℚ
  prediction : Prediction
  opened : ℤ
  now : ℤ
  one_le_min : 1 ≤ minReplicas
  min_le_max : minReplicas ≤ maxReplicas
  max_le : maxReplicas ≤ maxInt32
  capacity_pos : 0 < capacityRPM
  nonempty : prediction.predictions ≠ []
  length_lt : prediction.predictions.length < 2 ^ 63

namespace ConversionCall

variable (c : ConversionCall) (horizonMinutes leadTimeMinutes : ℤ)

def values : List ℚ := c.prediction.predictions

/-- The result with the values in place of the forecast's own. -/
def resultOf (values : List ℚ) : Option (ℤ × PredictedDetail) :=
  Int64Durations.calculatePredictedReplicasDetail c.minReplicas c.maxReplicas
    horizonMinutes leadTimeMinutes (some c.capacityRPM)
    { c.prediction with predictions := values } c.opened c.now

/-- The target of the `i`-th step. -/
def target (i : ℕ) : ℤ :=
  targetOf (c.prediction.anchorAt.getD c.opened)
    (horizonOrDefault horizonMinutes) c.values.length i

def leadEnd : ℤ := c.now + leadOrDefault leadTimeMinutes * minute

/-- What a conversion that is well timed and monotone does. -/
structure WellTimed : Prop where
  usable : (c.resultOf horizonMinutes leadTimeMinutes c.values).isSome ↔
    (∃ i < c.values.length, c.now < c.target horizonMinutes i) ∧
      c.leadEnd leadTimeMinutes ≤
        c.target horizonMinutes (c.values.length - 1)
  peak : ∀ count detail,
    c.resultOf horizonMinutes leadTimeMinutes c.values = some (count, detail) →
      IsLeadPeak (c.target horizonMinutes) c.values c.now
        (c.leadEnd leadTimeMinutes) detail.peakRPM
  bounded : ∀ count detail,
    c.resultOf horizonMinutes leadTimeMinutes c.values = some (count, detail) →
      c.minReplicas ≤ count ∧ count ≤ c.maxReplicas
  monotone : ∀ count detail values',
    c.resultOf horizonMinutes leadTimeMinutes c.values = some (count, detail) →
      List.Forall₂ (· ≤ ·) c.values values' →
      ∃ count' detail', c.resultOf horizonMinutes leadTimeMinutes values' =
        some (count', detail') ∧ count ≤ count'
  damped : ∀ count detail,
    c.resultOf horizonMinutes leadTimeMinutes c.values = some (count, detail) →
      c.minReplicas ≤ detail.raw → detail.damped ≤ detail.raw

theorem resultOf_eq {values : List ℚ} (hne : values ≠ []) :
    c.resultOf horizonMinutes leadTimeMinutes values =
      (Int64Durations.selectLeadTimeWindow values
        (c.prediction.anchorAt.getD c.opened) c.now
        (horizonOrDefault horizonMinutes) (leadOrDefault leadTimeMinutes)).map
        (convertWindow c.minReplicas c.maxReplicas c.capacityRPM
          c.prediction.confidence) := by
  have hempty : values.isEmpty = false := by simpa using hne
  unfold resultOf Int64Durations.calculatePredictedReplicasDetail
  dsimp only
  rw [hempty, if_neg Bool.false_ne_true]
  cases Int64Durations.selectLeadTimeWindow values
    (c.prediction.anchorAt.getD c.opened) c.now
    (horizonOrDefault horizonMinutes) (leadOrDefault leadTimeMinutes) <;> rfl

section InRange

variable {horizonMinutes leadTimeMinutes : ℤ}

theorem horizonOrDefault_pos (hpos : 0 ≤ horizonMinutes) :
    0 < horizonOrDefault horizonMinutes := by
  unfold horizonOrDefault defaultHorizonMinutes
  split_ifs <;> omega

theorem horizonOrDefault_le (hle : horizonMinutes ≤ maxDurationMinutes) :
    horizonOrDefault horizonMinutes ≤ maxDurationMinutes := by
  unfold horizonOrDefault defaultHorizonMinutes
  split_ifs
  · decide
  · exact hle

theorem leadOrDefault_pos (hpos : 0 ≤ leadTimeMinutes) :
    0 < leadOrDefault leadTimeMinutes := by
  unfold leadOrDefault defaultLeadTimeMinutes
  split_ifs <;> omega

theorem leadOrDefault_le (hle : leadTimeMinutes ≤ maxDurationMinutes) :
    leadOrDefault leadTimeMinutes ≤ maxDurationMinutes := by
  unfold leadOrDefault defaultLeadTimeMinutes
  split_ifs
  · decide
  · exact hle

/-- Durations that fit leave the targets and the end of the lead time as they
are. -/
theorem resultOf_inRange (hhorizon : 0 ≤ horizonMinutes)
    (hhorizon' : horizonMinutes ≤ maxDurationMinutes)
    (hlead : 0 ≤ leadTimeMinutes)
    (hlead' : leadTimeMinutes ≤ maxDurationMinutes)
    {values : List ℚ} (hlength : values.length = c.values.length) :
    c.resultOf horizonMinutes leadTimeMinutes values =
      (selectSteps (stepsOf (c.target horizonMinutes) values) c.now
        (c.leadEnd leadTimeMinutes)).map
        (convertWindow c.minReplicas c.maxReplicas c.capacityRPM
          c.prediction.confidence) := by
  have hpos : 0 < values.length := by
    rw [hlength]
    exact List.length_pos_iff.mpr c.nonempty
  have hne : values ≠ [] := List.length_pos_iff.mp hpos
  have hempty : values.isEmpty = false := by simpa using hne
  have hstep := horizonOrDefault_pos hhorizon
  have hsteps : stepsOf (fun i => c.prediction.anchorAt.getD c.opened +
      toInt64 (stepOffset (horizonOrDefault horizonMinutes) values.length i))
        values = stepsOf (c.target horizonMinutes) values := by
    refine List.map_congr_left fun q hq => ?_
    have hi : q.2 < values.length := List.snd_lt_of_mem_zipIdx hq
    have hlt := stepOffset_lt hstep (horizonOrDefault_le hhorizon') hi
      (hlength ▸ c.length_lt)
    dsimp only
    rw [toInt64_of_lt (stepOffset_nonneg hstep.le _ _) hlt, target, targetOf,
      hlength]
  have hminute : minute = 60000000000 := rfl
  have hlimit : maxDurationMinutes = 153722867 := rfl
  have hpos' := leadOrDefault_pos hlead
  have hle' := leadOrDefault_le hlead'
  have hend : wrapInt64 (leadOrDefault leadTimeMinutes * minute) =
      leadOrDefault leadTimeMinutes * minute := by
    rw [hminute]
    exact wrapInt64_of_lt (by omega) (by omega)
  rw [resultOf_eq c _ _ hne, Int64Durations.selectLeadTimeWindow, hempty,
    if_neg Bool.false_ne_true]
  dsimp only
  rw [hsteps, hend]
  rfl

theorem target_mono (hhorizon : 0 ≤ horizonMinutes) :
    Monotone (c.target horizonMinutes) :=
  targetOf_mono _ (horizonOrDefault_pos hhorizon).le _

/-- In range, every conversion is well timed and monotone. -/
theorem wellTimed_of_inRange (hhorizon : 0 ≤ horizonMinutes)
    (hhorizon' : horizonMinutes ≤ maxDurationMinutes)
    (hlead : 0 ≤ leadTimeMinutes)
    (hlead' : leadTimeMinutes ≤ maxDurationMinutes) :
    c.WellTimed horizonMinutes leadTimeMinutes := by
  have hresult : ∀ values : List ℚ, values.length = c.values.length → _ :=
    fun values => c.resultOf_inRange hhorizon hhorizon' hlead hlead'
  have hwindow : ∀ count detail,
      c.resultOf horizonMinutes leadTimeMinutes c.values =
        some (count, detail) → ∃ window,
        selectSteps (stepsOf (c.target horizonMinutes) c.values) c.now
          (c.leadEnd leadTimeMinutes) = some window ∧
        convertWindow c.minReplicas c.maxReplicas c.capacityRPM
          c.prediction.confidence window = (count, detail) := by
    intro count detail hsome
    rw [hresult c.values rfl] at hsome
    exact Option.map_eq_some_iff.mp hsome
  constructor
  case usable =>
    rw [hresult c.values rfl, Option.isSome_map]
    exact selectSteps_stepsOf_isSome (c.target_mono hhorizon) c.nonempty
  case peak =>
    intro count detail hsome
    obtain ⟨window, hselect, hconvert⟩ := hwindow count detail hsome
    have hdetail : (convertWindow c.minReplicas c.maxReplicas c.capacityRPM
      c.prediction.confidence window).2 = detail := congrArg Prod.snd hconvert
    rw [← hdetail]
    exact isLeadPeak_of_selectSteps hselect
  case bounded =>
    intro count detail hsome
    obtain ⟨window, hselect, hconvert⟩ := hwindow count detail hsome
    have hcount := convertWindow_count c.min_le_max c.capacityRPM
      c.prediction.confidence window
    rw [hconvert] at hcount
    have hbounds := c.min_le_max
    dsimp only at hcount
    omega
  case monotone =>
    intro count detail values' hsome hle
    obtain ⟨window, hselect, hconvert⟩ := hwindow count detail hsome
    obtain ⟨window', hselect', hgrows⟩ :=
      (grows_stepsOf (c.target horizonMinutes) hle).selectSteps hselect
    have hcount := convertWindow_mono c.min_le_max c.capacity_pos
      c.prediction.confidence hgrows
    rw [hconvert] at hcount
    have hresult' := hresult values' hle.length_eq.symm
    rw [hselect', Option.map_some] at hresult'
    exact ⟨_, _, hresult', hcount⟩
  case damped =>
    intro count detail hsome hraw
    obtain ⟨window, hselect, hconvert⟩ := hwindow count detail hsome
    have hdetail : (convertWindow c.minReplicas c.maxReplicas c.capacityRPM
      c.prediction.confidence window).2 = detail := congrArg Prod.snd hconvert
    have hbounds := c.one_le_min
    rw [← hdetail] at hraw ⊢
    exact dampenedReplicas_le c.prediction.confidence (by omega) hraw
      (rawReplicas_bounds _ _).2

end InRange

end ConversionCall

/-- In range, the code over its durations is the conversion of the reconcile
model. -/
theorem int64Durations_eq {horizonMinutes leadTimeMinutes : ℤ}
    (hhorizon : 0 ≤ horizonMinutes)
    (hhorizon' : horizonMinutes ≤ maxDurationMinutes)
    (hlead : 0 ≤ leadTimeMinutes)
    (hlead' : leadTimeMinutes ≤ maxDurationMinutes)
    (c : ConversionCall) (hlength : c.values.length < 2 ^ 53)
    (hopened : c.opened = c.now) :
    c.resultOf horizonMinutes leadTimeMinutes c.values =
      calculatePredictedReplicasDetail c.minReplicas c.maxReplicas
        horizonMinutes leadTimeMinutes (some c.capacityRPM) c.prediction
        c.now := by
  have hempty : c.prediction.predictions.isEmpty = false := by
    simpa using c.nonempty
  have hcast : ∀ n : ℕ, n < 2 ^ 53 → binary64 (n : ℚ) = n := by
    intro n hn
    exact_mod_cast binary64_intCast (n := n) (by
      rw [abs_of_nonneg (by positivity)]
      exact_mod_cast hn)
  have hsteps : stepsOf (c.target horizonMinutes) c.values =
      c.values.zipIdx.map fun q => (stepTarget
        (c.prediction.anchorAt.getD c.now) (binary64
          (horizonOrDefault horizonMinutes / c.values.length)) q.2, q.1) := by
    refine List.map_congr_left fun q hq => ?_
    have hi : q.2 < c.values.length := List.snd_lt_of_mem_zipIdx hq
    have hindex : binary64 ((q.2 : ℚ) + 1) = q.2 + 1 := by
      exact_mod_cast hcast (q.2 + 1) (by omega)
    rw [ConversionCall.target, targetOf, stepOffset, stepTarget,
      hcast _ hlength, hopened, hindex]
  rw [calculatePredictedReplicasDetail_eq hempty,
    c.resultOf_inRange hhorizon hhorizon' hlead hlead' rfl, hsteps]
  unfold selectLeadTimeWindow selectSteps
  rw [hempty, if_neg Bool.false_ne_true]
  dsimp only
  rw [List.foldl_map]
  rfl

/-- A forecast of one value, anchored at zero.  It decides by its one target, so
that a conversion that is well timed for every clock reading has the very bounds
of the exact one. -/
def singleStep (now : ℤ) : ConversionCall where
  minReplicas := 1
  maxReplicas := 1
  capacityRPM := 1
  prediction := ⟨[0], 0, some 0⟩
  opened := now
  now := now
  one_le_min := le_rfl
  min_le_max := le_rfl
  max_le := by decide
  capacity_pos := by norm_num
  nonempty := by simp
  length_lt := by norm_num

theorem selectSteps_single (target now leadEnd : ℤ) :
    (selectSteps [(target, 0)] now leadEnd).isSome ↔
      now < target ∧ leadEnd ≤ target := by
  rw [selectSteps_isSome]
  simp

section OutOfRange

variable {horizonMinutes leadTimeMinutes : ℤ}

/-- The offset of a single step. -/
def singleOffset (horizonMinutes : ℤ) : ℚ :=
  stepOffset (horizonOrDefault horizonMinutes) 1 0

theorem singleStep_wellTimed_iff (now : ℤ)
    (h : (singleStep now).WellTimed horizonMinutes leadTimeMinutes) :
    (now < toInt64 (singleOffset horizonMinutes) ∧
        now + wrapInt64 (leadOrDefault leadTimeMinutes * minute) ≤
          toInt64 (singleOffset horizonMinutes)) ↔
      now < durationOf (singleOffset horizonMinutes) ∧
        now + leadOrDefault leadTimeMinutes * minute ≤
          durationOf (singleOffset horizonMinutes) := by
  have husable := h.usable
  have hne : (singleStep now).values ≠ [] := (singleStep now).nonempty
  rw [ConversionCall.resultOf_eq _ _ _ hne, Option.isSome_map] at husable
  have hcode : (Int64Durations.selectLeadTimeWindow (singleStep now).values
      ((singleStep now).prediction.anchorAt.getD (singleStep now).opened)
      (singleStep now).now (horizonOrDefault horizonMinutes)
      (leadOrDefault leadTimeMinutes)) =
      selectSteps [(0 + toInt64 (singleOffset horizonMinutes), 0)] now
        (now + wrapInt64 (leadOrDefault leadTimeMinutes * minute)) := rfl
  have hexact : ((∃ i < (singleStep now).values.length, (singleStep now).now <
      (singleStep now).target horizonMinutes i) ∧
      (singleStep now).leadEnd leadTimeMinutes ≤ (singleStep now).target
        horizonMinutes ((singleStep now).values.length - 1)) ↔
      now < 0 + durationOf (singleOffset horizonMinutes) ∧
        now + leadOrDefault leadTimeMinutes * minute ≤
          0 + durationOf (singleOffset horizonMinutes) := by
    refine and_congr ⟨?_, fun hnow => ⟨0, Nat.one_pos, hnow⟩⟩ Iff.rfl
    rintro ⟨i, hi, hnow⟩
    obtain rfl : i = 0 := Nat.lt_one_iff.mp hi
    exact hnow
  rw [hcode, hexact, selectSteps_single] at husable
  simpa only [zero_add] using husable

theorem singleOffset_eq (hpos : 0 ≤ horizonMinutes)
    (hle : horizonMinutes ≤ maxInt32) :
    singleOffset horizonMinutes =
      binary64 (horizonOrDefault horizonMinutes * (minute : ℤ)) := by
  have hone : binary64 1 = 1 := by
    exact_mod_cast binary64_intCast (n := 1) (by norm_num)
  have hstep := ConversionCall.horizonOrDefault_pos hpos
  have hbound : horizonOrDefault horizonMinutes ≤ maxInt32 := by
    unfold horizonOrDefault defaultHorizonMinutes
    split_ifs
    · decide
    · exact hle
  have hbits : maxInt32 < 2 ^ 53 := by decide
  have hself : binary64 (horizonOrDefault horizonMinutes : ℤ) =
      (horizonOrDefault horizonMinutes : ℤ) :=
    binary64_intCast (by rw [abs_of_pos hstep]; omega)
  unfold singleOffset stepOffset
  simp only [Nat.cast_zero, zero_add, Nat.cast_one, hone, div_one, hself,
    one_mul]

/-- An offset of a `time.Duration` or more is a whole number of `2048`
nanoseconds, and near the product it rounds. -/
theorem singleOffset_large (hlarge : maxDurationMinutes < horizonMinutes)
    (hle : horizonMinutes ≤ maxInt32) :
    2 ^ 63 ≤ singleOffset horizonMinutes ∧
      ∃ m : ℤ, singleOffset horizonMinutes = (2048 * m : ℤ) ∧
        |2048 * m - horizonMinutes * 60000000000| ≤ 8192 := by
  have hlimit : maxDurationMinutes = 153722867 := rfl
  have hmax : maxInt32 = 2147483647 := rfl
  have hraw : horizonOrDefault horizonMinutes = horizonMinutes :=
    if_neg (by omega)
  have heq := singleOffset_eq (by omega) hle
  rw [hraw, minute_cast] at heq
  set product : ℚ := horizonMinutes * 60000000000 with hproduct
  have hlow : (2 : ℚ) ^ 63 ≤ product := by
    have : (153722868 : ℚ) ≤ horizonMinutes := by
      exact_mod_cast (by omega : 153722868 ≤ horizonMinutes)
    norm_num
    linarith
  have hhigh : product < 2 ^ 67 := by
    have : (horizonMinutes : ℚ) ≤ 2147483647 := by exact_mod_cast hle
    norm_num
    linarith
  have hpos : 0 < product := lt_of_lt_of_le (by norm_num) hlow
  have hexp : 11 ≤ ulpExponent product := by
    have hlog : 63 ≤ Int.log 2 |product| := by
      rw [← Int.zpow_le_iff_le_log (by norm_num) (abs_pos.mpr hpos.ne'),
        abs_of_pos hpos]
      exact_mod_cast hlow
    unfold ulpExponent
    omega
  have hexp' : ulpExponent product ≤ 14 :=
    ulpExponent_le_of_abs_lt (b := 67) hpos.ne' (by norm_num)
      (by rw [abs_of_pos hpos]; exact_mod_cast hhigh)
  have hself : binary64 (2 ^ 63) = 2 ^ 63 := by
    refine binary64_eq_self_of_eq_mul_zpow (m := 1) (e := 63) (by norm_num) ?_
    exact (ulpExponent_le_of_abs_lt (b := 64) (by norm_num) (by norm_num)
      (by norm_num)).trans (by norm_num)
  refine ⟨?_, ?_⟩
  · rw [heq, ← hself]
    exact binary64_monotone hlow
  · obtain ⟨shift, hshift⟩ := Int.eq_ofNat_of_zero_le (sub_nonneg.mpr hexp)
    have hulp : (2 : ℚ) ^ ulpExponent product = 2 ^ shift * 2048 := by
      have : ulpExponent product = shift + 11 := by omega
      rw [this, zpow_add₀ (by norm_num), zpow_natCast]
      norm_num
    have hulp' : (2 : ℚ) ^ ulpExponent product ≤ 2 ^ (14 : ℤ) :=
      zpow_le_zpow_right₀ (by norm_num) hexp'
    have hvalue : binary64 product = (2048 * (roundHalfEven
        (product / 2 ^ ulpExponent product) * 2 ^ shift) : ℤ) := by
      rw [binary64]
      conv_lhs => rw [hulp]
      conv_rhs => rw [hulp]
      push_cast
      ring
    refine ⟨_, heq.trans hvalue, ?_⟩
    have herror := abs_binary64_sub_le_half_ulp product
    rw [hvalue, hproduct] at herror
    have hclose : |((2048 * (roundHalfEven (product / 2 ^ ulpExponent product) *
        2 ^ shift) - horizonMinutes * 60000000000 : ℤ) : ℚ)| ≤ 8192 := by
      push_cast at herror ⊢
      norm_num at hulp'
      linarith
    exact_mod_cast hclose

/-- A single step tells an inexact lead time from the exact one. -/
theorem bounds_of_wellTimed (hlead : 0 ≤ leadTimeMinutes)
    (h : ∀ now, (singleStep now).WellTimed horizonMinutes leadTimeMinutes) :
    let exact := durationOf (singleOffset horizonMinutes)
    let code := toInt64 (singleOffset horizonMinutes)
    let lead := leadOrDefault leadTimeMinutes * minute
    exact - lead + 1 = code ∨ exact - lead + wrapInt64 lead = code := by
  intro exact code lead
  have hminute : minute = 60000000000 := rfl
  have hpos : 0 < lead := by
    have := ConversionCall.leadOrDefault_pos hlead
    simp only [lead, hminute]
    omega
  have hlast := singleStep_wellTimed_iff (exact - lead) (h (exact - lead))
  have hnext :=
    singleStep_wellTimed_iff (exact - lead + 1) (h (exact - lead + 1))
  have hin := hlast.mpr ⟨by omega, by omega⟩
  have hout : ¬(exact - lead + 1 < code ∧
      exact - lead + 1 + wrapInt64 lead ≤ code) :=
    fun hcode => absurd (hnext.mp hcode).2 (by omega)
  have hin' : exact - lead < code ∧ exact - lead + wrapInt64 lead ≤ code := hin
  omega

/-- No horizon beyond the durations passes for the exact one. -/
theorem horizon_le_of_wellTimed (hlead : 0 ≤ leadTimeMinutes)
    (hle : horizonMinutes ≤ maxInt32)
    (h : ∀ now, (singleStep now).WellTimed horizonMinutes leadTimeMinutes) :
    horizonMinutes ≤ maxDurationMinutes := by
  by_contra hlarge
  have hlarge := not_le.mp hlarge
  have hlimit : maxDurationMinutes = 153722867 := rfl
  have hmax : maxInt32 = 2147483647 := rfl
  have hminute : minute = 60000000000 := rfl
  obtain ⟨hbig, m, hm, hclose⟩ := singleOffset_large hlarge hle
  have hcode := toInt64_of_le hbig
  have hexact : durationOf (singleOffset horizonMinutes) = 2048 * m := by
    rw [durationOf_nonneg (le_trans (by norm_num) hbig), hm, Int.floor_intCast]
  have hcases := bounds_of_wellTimed hlead h
  have hwrap := Int.bmod_add_bdiv
    (leadOrDefault leadTimeMinutes * minute) (2 ^ 64)
  simp only [hcode, hexact, wrapInt64] at hcases
  rw [hminute] at hcases hwrap
  generalize (leadOrDefault leadTimeMinutes * 60000000000).bmod (2 ^ 64) =
    wrapped at hcases hwrap
  generalize (leadOrDefault leadTimeMinutes * 60000000000).bdiv (2 ^ 64) = turns
    at hwrap
  rw [abs_le] at hclose
  norm_num at hwrap hcases
  rcases hcases with hparity | hturns
  · omega
  · have hlow : 1 ≤ turns := by omega
    have hhigh : turns ≤ 7 := by omega
    interval_cases turns <;> omega

theorem lead_le_of_wellTimed (hhorizon : 0 ≤ horizonMinutes)
    (hhorizon' : horizonMinutes ≤ maxDurationMinutes)
    (hlead : 0 ≤ leadTimeMinutes)
    (h : ∀ now, (singleStep now).WellTimed horizonMinutes leadTimeMinutes) :
    leadTimeMinutes ≤ maxDurationMinutes := by
  have hlimit : maxDurationMinutes = 153722867 := rfl
  have hminute : minute = 60000000000 := rfl
  have hstep := ConversionCall.horizonOrDefault_pos hhorizon
  have hlt := stepOffset_lt hstep (ConversionCall.horizonOrDefault_le hhorizon')
    Nat.one_pos (by norm_num : 1 < 2 ^ 63)
  have hcode : toInt64 (singleOffset horizonMinutes) =
      durationOf (singleOffset horizonMinutes) :=
    toInt64_of_lt (stepOffset_nonneg hstep.le _ _) hlt
  have hcases := bounds_of_wellTimed hlead h
  simp only [hcode, hminute] at hcases
  have hwrapped := wrapInt64_lt (leadOrDefault leadTimeMinutes * 60000000000)
  have hraw : leadTimeMinutes ≤ leadOrDefault leadTimeMinutes := by
    unfold leadOrDefault defaultLeadTimeMinutes
    split_ifs <;> omega
  omega

end OutOfRange

/-- The conversion is well timed and monotone for every call exactly when its
horizon and its lead time fit a duration. -/
theorem conversion_wellTimed_iff {horizonMinutes leadTimeMinutes : ℤ}
    (hhorizon : 0 ≤ horizonMinutes ∧ horizonMinutes ≤ maxInt32)
    (hlead : 0 ≤ leadTimeMinutes ∧ leadTimeMinutes ≤ maxInt32) :
    (∀ c : ConversionCall, c.WellTimed horizonMinutes leadTimeMinutes) ↔
      horizonMinutes ≤ maxDurationMinutes ∧
        leadTimeMinutes ≤ maxDurationMinutes := by
  constructor
  · intro h
    have hhorizon' := horizon_le_of_wellTimed hlead.1 hhorizon.2
      fun now => h (singleStep now)
    exact ⟨hhorizon', lead_le_of_wellTimed hhorizon.1 hhorizon' hlead.1
      fun now => h (singleStep now)⟩
  · rintro ⟨hhorizon', hlead'⟩ c
    exact c.wellTimed_of_inRange hhorizon.1 hhorizon' hlead.1 hlead'

namespace ConversionWitness

theorem ten_le_maxInt32 : 10 ≤ maxInt32 := by decide

/-- One hour of 1200 requests a minute, for 300 a replica. -/
def hourForecast : ConversionCall where
  minReplicas := 1
  maxReplicas := 10
  capacityRPM := 300
  prediction := ⟨[1200, 1200, 1200, 1200, 1200, 1200], 4 / 5, some 0⟩
  opened := 0
  now := 0
  one_le_min := le_rfl
  min_le_max := by norm_num
  max_le := ten_le_maxInt32
  capacity_pos := by norm_num
  nonempty := by simp
  length_lt := by norm_num

theorem hourForecast_wellTimed : hourForecast.WellTimed 60 20 :=
  (conversion_wellTimed_iff (by decide) (by decide)).mpr
    ⟨by decide, by decide⟩ hourForecast

/-- The end of a lead time of 153722868 minutes lies in the past for the code,
so that an hour of forecast covers it. -/
theorem overflowing_lead_covered : ¬hourForecast.WellTimed 60 153722868 := by
  intro h
  have hcovered := (h.usable.mp (by decide +kernel)).2
  exact absurd hcovered (by decide +kernel)

end ConversionWitness

end PredictiveAutoscaler
