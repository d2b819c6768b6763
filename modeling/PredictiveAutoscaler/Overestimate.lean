/-
The operator's in-memory scale state and the overestimate detector.  After
three reconciles in a row with a forecast more than a fifth above the reactive
count, the forecast is capped and the override that skips the scale-down holds
is raised; every other branch either clears the override or leaves it as it
found it.
-/
import PredictiveAutoscaler.ReplicaMath

namespace PredictiveAutoscaler

/-- `spec.mode`: only an explicit Active writes. -/
inductive Mode
  | recommend
  | active
deriving DecidableEq, Repr

/-- The scale state of one autoscaler.  A missing entry of the map, and every
zero time or empty name, is `none`. -/
structure ScaleState where
  lastScaleUp : Option ℤ := none
  lastScaleDown : Option ℤ := none
  belowCurrentSince : Option ℤ := none
  overestimateStreak : ℕ := 0
  lastRPM : ℚ := 0
  reEvalCounter : ℕ := 0
  overrideActive : Bool := false
  mode : Option Mode := none
  signal : Option String := none
  targetUID : Option String := none
deriving DecidableEq

def overestimateRatioThreshold : ℚ := binary64 (12 / 10)

def overestimateHeadroom : ℚ := binary64 (11 / 10)

def overestimateStreakRequired : ℕ := 3

def overestimateMaxStreak : ℕ := 10

def rampUpThreshold : ℚ := binary64 (2 / 100)

def predictionRampRatio : ℚ := binary64 (12 / 10)

def overestimateReEvalInterval : ℕ := 30

/-- Drop the forecast-dependent part: override, streak and re-evaluation
counter.  The holds and the cooldown stay. -/
def ScaleState.clearForecastOverride (state : ScaleState) : ScaleState :=
  { state with
    overestimateStreak := 0, reEvalCounter := 0, overrideActive := false }

/-- Safeguard 1: the measured rate rose since the previous reconcile. -/
def rampUp (lastRPM currentRPM : ℚ) : Prop :=
  0 < lastRPM ∧ 0 < currentRPM ∧
    rampUpThreshold < binary64 (binary64 (currentRPM - lastRPM) / lastRPM)

instance (lastRPM currentRPM : ℚ) : Decidable (rampUp lastRPM currentRPM) :=
  inferInstanceAs (Decidable (_ ∧ _ ∧ _))

/-- Safeguard 2: the second or the sixth step exceeds the first by a fifth. -/
def upcomingRamp : List ℚ → Bool
  | first :: second :: rest =>
      decide (0 < first) &&
        (decide (binary64 (first * predictionRampRatio) < second) ||
          (match rest[3]? with
            | some sixth =>
                decide (binary64 (first * predictionRampRatio) < sixth)
            | none => false))
  | _ => false

/-- The streak after this reconcile. -/
def nextStreak (predicted reactive : ℤ) (streak : ℕ) : ℕ :=
  if overestimateRatioThreshold < binary64 (predicted / reactive) then
    streak + 1
  else 0

/-- The capped prediction. -/
def overestimateCap (reactive : ℤ) : ℤ :=
  toInt32 (⌈binary64 (reactive * overestimateHeadroom)⌉ : ℤ)

/-- Cap a forecast that stays more than a fifth above the reactive count. -/
def adjustForOverestimation (predicted reactive : ℤ) (state : ScaleState)
    (currentRPM : ℚ) (predictions : List ℚ) : ℤ × ScaleState :=
  if reactive = 0 ∨ predicted ≤ reactive then
    (predicted, state.clearForecastOverride)
  else if rampUp state.lastRPM currentRPM ∨ upcomingRamp predictions then
    (predicted, state.clearForecastOverride)
  else
    let streak := nextStreak predicted reactive state.overestimateStreak
    if overestimateMaxStreak < streak then
      if overestimateReEvalInterval ≤ state.reEvalCounter + 1 then
        (predicted, state.clearForecastOverride)
      else
        (predicted,
          { state with
            overestimateStreak := streak
            reEvalCounter := state.reEvalCounter + 1 })
    else if overestimateStreakRequired ≤ streak ∧
        overestimateCap reactive < predicted then
      (overestimateCap reactive,
        { state with overestimateStreak := streak, overrideActive := true })
    else (predicted, { state with overestimateStreak := streak })

/-- The detector neither clears nor re-evaluates the episode: the prediction
exceeds a positive reactive count and no ramp explains it. -/
def Overpredicts (predicted reactive : ℤ) (state : ScaleState)
    (currentRPM : ℚ) (predictions : List ℚ) : Prop :=
  reactive ≠ 0 ∧ reactive < predicted ∧
    ¬rampUp state.lastRPM currentRPM ∧ upcomingRamp predictions = false

/-- The cap fires: the streak is in its range and the cap is below. -/
def CapFires (predicted reactive : ℤ) (streak : ℕ) : Prop :=
  overestimateStreakRequired ≤ streak ∧ streak ≤ overestimateMaxStreak ∧
    overestimateCap reactive < predicted

/-- Past the maximum streak the counter reaches the re-evaluation interval. -/
def ReEvaluates (streak reEvalCounter : ℕ) : Prop :=
  overestimateMaxStreak < streak ∧
    overestimateReEvalInterval ≤ reEvalCounter + 1

/-- An override of an earlier reconcile that this one neither renews, by
capping, nor clears. -/
def LeftoverOverride (predicted reactive : ℤ) (state : ScaleState)
    (currentRPM : ℚ) (predictions : List ℚ) : Prop :=
  state.overrideActive = true ∧
    Overpredicts predicted reactive state currentRPM predictions ∧
    ¬CapFires predicted reactive
      (nextStreak predicted reactive state.overestimateStreak) ∧
    ¬ReEvaluates (nextStreak predicted reactive state.overestimateStreak)
      state.reEvalCounter

section Spec

variable (predicted reactive : ℤ) (state : ScaleState) (currentRPM : ℚ)
  (predictions : List ℚ)

/-- Everything a call can do: clear the override, cap and raise it, or go on
counting with the override as it was. -/
theorem adjustForOverestimation_cases :
    adjustForOverestimation predicted reactive state currentRPM predictions =
        (predicted, state.clearForecastOverride) ∨
      (overestimateCap reactive < predicted ∧
        ∃ streak, adjustForOverestimation predicted reactive state currentRPM
            predictions =
          (overestimateCap reactive,
            { state with
              overestimateStreak := streak, overrideActive := true })) ∨
      (Overpredicts predicted reactive state currentRPM predictions ∧
        ¬CapFires predicted reactive
          (nextStreak predicted reactive state.overestimateStreak) ∧
        ¬ReEvaluates (nextStreak predicted reactive state.overestimateStreak)
          state.reEvalCounter ∧
        ∃ streak counter, adjustForOverestimation predicted reactive state
            currentRPM predictions =
          (predicted,
            { state with
              overestimateStreak := streak, reEvalCounter := counter })) := by
  unfold adjustForOverestimation
  by_cases hsmall : reactive = 0 ∨ predicted ≤ reactive
  · exact Or.inl (if_pos hsmall)
  rw [if_neg hsmall]
  by_cases hramp : rampUp state.lastRPM currentRPM ∨ upcomingRamp predictions
  · exact Or.inl (if_pos hramp)
  rw [if_neg hramp]
  push Not at hsmall hramp
  have hover : Overpredicts predicted reactive state currentRPM predictions :=
    ⟨hsmall.1, hsmall.2, hramp.1, by simpa using hramp.2⟩
  dsimp only
  split_ifs with hmax hinterval hcap
  · exact Or.inl rfl
  · refine Or.inr (Or.inr ⟨hover, ?_, ?_, _, _, rfl⟩)
    · exact fun hfires => absurd hfires.2.1 (not_le.mpr hmax)
    · exact fun hre => hinterval hre.2
  · exact Or.inr (Or.inl ⟨hcap.2, _, rfl⟩)
  · refine Or.inr (Or.inr ⟨hover, ?_, ?_, _, state.reEvalCounter, rfl⟩)
    · exact fun hfires => hcap ⟨hfires.1, hfires.2.2⟩
    · exact fun hre => hmax hre.1

/-- An override that is active after a call without a cap is left over from an
earlier reconcile. -/
theorem leftover_of_overrideActive
    (hactive : (adjustForOverestimation predicted reactive state currentRPM
      predictions).2.overrideActive = true)
    (huncapped : ¬(adjustForOverestimation predicted reactive state currentRPM
      predictions).1 < predicted) :
    LeftoverOverride predicted reactive state currentRPM predictions := by
  rcases adjustForOverestimation_cases predicted reactive state currentRPM
      predictions with hclear | ⟨hcap, streak, heq⟩ |
      ⟨hover, hfires, hre, streak, counter, heq⟩
  · rw [hclear] at hactive
    simp [ScaleState.clearForecastOverride] at hactive
  · rw [heq] at huncapped
    exact absurd hcap huncapped
  · rw [heq] at hactive
    exact ⟨hactive, hover, hfires, hre⟩

/-- The part of the scale state the detector never touches. -/
structure ScaleState.SameHolds (s t : ScaleState) : Prop where
  lastScaleUp : t.lastScaleUp = s.lastScaleUp
  lastScaleDown : t.lastScaleDown = s.lastScaleDown
  belowCurrentSince : t.belowCurrentSince = s.belowCurrentSince
  mode : t.mode = s.mode

theorem ScaleState.clearForecastOverride_sameHolds :
    state.SameHolds state.clearForecastOverride :=
  ⟨rfl, rfl, rfl, rfl⟩

theorem adjustForOverestimation_sameHolds :
    state.SameHolds (adjustForOverestimation predicted reactive state
      currentRPM predictions).2 := by
  rcases adjustForOverestimation_cases predicted reactive state currentRPM
      predictions with heq | ⟨-, streak, heq⟩ | ⟨-, -, -, streak, counter, heq⟩
  all_goals
    rw [heq]
    exact ⟨rfl, rfl, rfl, rfl⟩

/-- Without a reactive count the detector clears the override. -/
theorem adjustForOverestimation_zero_reactive :
    adjustForOverestimation predicted 0 state currentRPM predictions =
      (predicted, state.clearForecastOverride) :=
  if_pos (Or.inl rfl)

end Spec

end PredictiveAutoscaler
