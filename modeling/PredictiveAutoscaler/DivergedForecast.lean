/-
The divergence check against the lead-time window: it reads the first step of
a v1 forecast, while the conversion takes the steps that are still ahead.
-/
import PredictiveAutoscaler.LeadWindow

namespace PredictiveAutoscaler

/-- A measured reconcile on the v1 path whose forecast is converted: the rate
is positive and the conversion takes the values of `window`. -/
structure Observation.Converts (obs : Observation) (times : Instants)
    (rpm : ℚ≥0) (prediction : Prediction) (window : List ℚ) : Prop where
  rate : obs.rate = some rpm
  positive : 0 < rpm
  enabled : obs.spec.predictionEnabled = true
  capacity : obs.spec.capacityRPM.isSome
  v1 : obs.spec.v2Selected = false
  forecast : obs.forecasts.v1 = .ok prediction
  taken : selectLeadTimeWindow prediction.predictions
    (prediction.anchorAt.getD times.forecast) times.forecast
    (horizonOrDefault obs.spec.horizonMinutes)
    (leadOrDefault obs.spec.leadTimeMinutes) = some window

/-- The count of the reactive need alone. -/
def Observation.reactiveDesired (obs : Observation) (dep : Deployment) : ℤ :=
  (unifiedDesired 0 (reactiveReplicas obs.spec obs.rate) obs.spec.minReplicas
    obs.spec.maxReplicas dep.replicas false
    (obs.rate.isSome && obs.spec.capacityRPM.isSome)).1

/-- The forecast takes no part in a decision, which is the reactive one. -/
structure Decision.Reactive (d : Decision) (obs : Observation)
    (dep : Deployment) : Prop where
  unused : d.term.status ≠ .used
  desired : d.desired = obs.reactiveDesired dep

section Converts

variable {obs : Observation} {times : Instants} {rpm : ℚ≥0}
  {prediction : Prediction} {window : List ℚ}

theorem Observation.Converts.nonempty
    (h : obs.Converts times rpm prediction window) :
    prediction.predictions.isEmpty = false := by
  cases hempty : prediction.predictions.isEmpty with
  | false => rfl
  | true =>
      have htaken := h.taken
      rw [selectLeadTimeWindow, if_pos hempty] at htaken
      cases htaken

/-- A converted forecast is used before the divergence check. -/
theorem Observation.Converts.forecastTerm_used
    (h : obs.Converts times rpm prediction window) (reactive : ℤ) :
    (forecastTerm obs.spec obs.forecasts reactive times.forecast).status =
        .used ∧
      (forecastTerm obs.spec obs.forecasts reactive times.forecast).steps =
        some prediction.predictions := by
  obtain ⟨capacity, hcapacity⟩ := Option.isSome_iff_exists.mp h.capacity
  have hdetail := calculatePredictedReplicasDetail_eq h.nonempty
    obs.spec.minReplicas obs.spec.maxReplicas obs.spec.horizonMinutes
    obs.spec.leadTimeMinutes capacity times.forecast
  rw [h.taken, Option.map_some] at hdetail
  unfold forecastTerm
  rw [if_neg (by rw [h.enabled]; decide), hcapacity]
  simp only [h.v1, Bool.false_eq_true, if_false, h.forecast, hdetail,
    and_self]

/-- The check decides whether a converted forecast takes part. -/
theorem Observation.Converts.status_iff
    (h : obs.Converts times rpm prediction window) :
    (obs.term times).status = .used ↔
      ¬diverged prediction.predictions rpm := by
  obtain ⟨hused, hsteps⟩ :=
    h.forecastTerm_used (reactiveReplicas obs.spec obs.rate)
  have hrate : ((obs.rate.getD 0 : ℚ≥0) : ℚ) = rpm := by rw [h.rate]; rfl
  unfold Observation.term sanityCheck
  dsimp only
  rw [hsteps, hrate]
  by_cases hdiverged : diverged prediction.predictions rpm
  · simp [hdiverged]
  · simp [hdiverged, hused]

/-- A decision whose forecast takes no part is the reactive one. -/
theorem decideReplicas_desired_of_unused (dep : Deployment)
    (state : ScaleState) (hunused : (obs.term times).status ≠ .used) :
    (decideReplicas obs dep times state).1.desired =
      obs.reactiveDesired dep := by
  have hflag : decide ((obs.term times).status = .used) = false :=
    decide_eq_false hunused
  unfold decideReplicas Observation.reactiveDesired
  dsimp only
  rw [hflag]
  cases (obs.rate.isSome && obs.spec.capacityRPM.isSome) with
  | false => rfl
  | true => rfl

theorem decideReplicas_reactive_iff (dep : Deployment) (state : ScaleState) :
    (decideReplicas obs dep times state).1.Reactive obs dep ↔
      (obs.term times).status ≠ .used :=
  ⟨fun h => h.unused,
    fun h => ⟨h, decideReplicas_desired_of_unused dep state h⟩⟩

end Converts

/-- A reconcile keeps every forecast with a diverged window out of its decision
exactly when the forecast's first step has diverged as well. -/
theorem diverged_window_reactive_iff {obs : Observation} {times : Instants}
    {rpm : ℚ≥0} {prediction : Prediction} {window : List ℚ}
    (dep : Deployment) (state : ScaleState)
    (hconverts : obs.Converts times rpm prediction window) :
    ((∃ v ∈ window, 10 * (rpm : ℚ) < v) →
        (decideReplicas obs dep times state).1.Reactive obs dep) ↔
      ((∃ v ∈ window, 10 * (rpm : ℚ) < v) →
        diverged prediction.predictions rpm) := by
  refine imp_congr_right fun _ => ?_
  rw [decideReplicas_reactive_iff, ne_eq, hconverts.status_iff, not_not]

namespace DivergedForecastWitness

open ReconcileWitness

def offered (prediction : Prediction) : Observation :=
  { observation with forecasts := ⟨.ok prediction, .error .noResponse⟩ }

def times : Instants := observation.delays.instants 0

/-- An hour in six steps, a hundred times the rate from the first one on. -/
def spike : Prediction :=
  ⟨[60000, 60000, 60000, 60000, 60000, 60000], 1, some 0⟩

theorem spike_converts :
    (offered spike).Converts times 600 spike [60000, 60000] where
  rate := rfl
  positive := by norm_num
  enabled := rfl
  capacity := rfl
  v1 := rfl
  forecast := rfl
  taken := by decide +kernel

theorem spike_reactive :
    (decideReplicas (offered spike) target times {}).1.Reactive (offered spike)
      target := by
  refine (diverged_window_reactive_iff target {} spike_converts).mpr
    (fun _ => ?_) ⟨60000, by simp, by norm_num⟩
  decide +kernel

/-- The same hour after one sane step. -/
def blowup : Prediction := ⟨[600, 60000, 60000, 60000, 60000, 60000], 1, some 0⟩

/-- The window holds a hundred times the rate, and the decision is a hundred
replicas for a measured need of ten. -/
theorem blowup_participates :
    (offered blowup).Converts times 600 blowup [600, 60000] ∧
      (∃ v ∈ [600, 60000], 10 * ((600 : ℚ≥0) : ℚ) < v) ∧
      (decideReplicas (offered blowup) target times {}).1.desired = 100 ∧
      (offered blowup).reactiveDesired target = 10 ∧
      ¬(decideReplicas (offered blowup) target times {}).1.Reactive
        (offered blowup) target := by
  have hdesired :
      (decideReplicas (offered blowup) target times {}).1.desired = 100 := by
    decide +kernel
  have hreactive : (offered blowup).reactiveDesired target = 10 := by
    decide +kernel
  refine ⟨⟨rfl, by norm_num, rfl, rfl, rfl, rfl, by decide +kernel⟩,
    ⟨60000, by simp, by norm_num⟩, hdesired, hreactive, fun h => ?_⟩
  have heq := h.desired
  rw [hdesired, hreactive] at heq
  omega

end DivergedForecastWitness

end PredictiveAutoscaler
