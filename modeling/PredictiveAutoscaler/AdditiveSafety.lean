/-
Additive safety of every write.  With a measured need, a scale-up writes the
clamped larger of forecast and need, and a scale-down stays above the clamped
need and the headroom floor.  Without one, a write only restores the bounds,
and a forecast takes no part in it, with one exception: an expired v2 forecast
aborts a write that it had no part in deciding.
-/
import PredictiveAutoscaler.Reconcile

namespace PredictiveAutoscaler

/-- The count of an applied write. -/
def Outcome.written : Outcome → Option ℤ
  | .decided _ (.scaleUp n .written) => some n
  | .decided _ (.scaleDown n .written) => some n
  | _ => none

/-- The same observation with no forecast on either path. -/
def Observation.withoutForecast (obs : Observation) : Observation :=
  { obs with forecasts := ⟨.error .unavailable, .error .noResponse⟩ }

/-- The predicted replicas that take part in a decision. -/
def Decision.participating (d : Decision) : ℤ :=
  if d.term.status = .used then d.predicted else 0

/-- The bounds of a spec applied to a count. -/
def AutoscalerSpec.clamp (spec : AutoscalerSpec) (x : ℤ) : ℤ :=
  min (max x spec.minReplicas) spec.maxReplicas

/-- The bounds the custom resource definition enforces, as `int32` values. -/
structure AutoscalerSpec.Bounded (spec : AutoscalerSpec) : Prop where
  one_le_min : 1 ≤ spec.minReplicas
  min_le_max : spec.minReplicas ≤ spec.maxReplicas
  max_le : spec.maxReplicas ≤ maxInt32

/-- The need `R` of a measured rate, in doubles. -/
def measuredNeed (rpm capacity : ℚ) : ℤ := ⌈binary64 (rpm / capacity)⌉

/-- What a write may do with a measured rate and a capacity. -/
def MeasuredSafe (spec : AutoscalerSpec) (rpm capacity : ℚ) (d : Decision)
    (action : Action) : Prop :=
  (∀ n, action = .scaleUp n .written →
    n = spec.clamp (max d.participating (measuredNeed rpm capacity)) ∧
      spec.clamp (measuredNeed rpm capacity) ≤ n ∧ n ≤ spec.maxReplicas) ∧
  (∀ n, action = .scaleDown n .written →
    spec.clamp (measuredNeed rpm capacity) ≤ n ∧
      (0 < spec.scaleDownHeadroomPercent →
        spec.scaleDownHeadroomPercent < 100 →
        min spec.maxReplicas (exactHeadroomFloor rpm capacity
          spec.scaleDownHeadroomPercent) ≤ n) ∧
      n < d.current)

/-- What a write may do otherwise: only move an outlying count toward its
nearest bound. -/
def UnmeasuredSafe (spec : AutoscalerSpec) (current : ℤ)
    (written : Option ℤ) : Prop :=
  ∀ n, written = some n →
    (current < spec.minReplicas ∧ current < n ∧ n ≤ spec.minReplicas) ∨
      (spec.maxReplicas < current ∧ spec.maxReplicas ≤ n ∧ n < current)

/-- Additive safety of one reconcile. -/
structure AdditivelySafe (obs : Observation) (start : ℤ)
    (state : ScaleState) : Prop where
  measured : ∀ rpm capacity d action, obs.rate = some rpm →
    obs.spec.capacityRPM = some capacity →
    (reconcile state start obs).2 = .decided d action →
    MeasuredSafe obs.spec rpm capacity d action
  unmeasured : obs.rate = none ∨ obs.spec.capacityRPM = none →
    ∀ dep, obs.target = some dep →
      UnmeasuredSafe obs.spec dep.replicas
        (reconcile state start obs).2.written
  uninfluenced : obs.rate = none ∨ obs.spec.capacityRPM = none →
    (reconcile state start obs).2.written =
      (reconcile state start obs.withoutForecast).2.written

/-- A bound is to be restored, and for a scale-down the holds and the cooldown
of the scale state are over. -/
def RestoresBound (spec : AutoscalerSpec) (current : ℤ) (state : ScaleState)
    (now : ℤ) : Prop :=
  current < spec.minReplicas ∨
    (spec.maxReplicas < current ∧ ¬HoldRunning state now ∧
      ¬Within scaleDownCooldown state.lastScaleDown now)

/-- No rate is measured, a v2 forecast was accepted but has expired when the
write is checked, and nothing else stands in the way of a write that restores
a bound. -/
def ExpiredForecastBlocks (obs : Observation) (start : ℤ)
    (state : ScaleState) : Prop :=
  ∃ dep sha f, obs.Decides dep sha ∧ obs.rate = none ∧
    obs.spec.capacityRPM ≠ none ∧ obs.spec.v2Selected = true ∧
    obs.forecasts.v2 = .ok f ∧
    f.actionable (obs.delays.instants start).expiryCheck = false ∧
    obs.spec.mode = .active ∧ obs.blocked = false ∧
    obs.answers = ⟨.matching, true, .applied⟩ ∧
    RestoresBound obs.spec dep.replicas (obs.prepared dep sha start state)
      (obs.delays.instants start).decision

theorem capacityRPM_nonneg {spec : AutoscalerSpec} {capacity : ℚ}
    (h : spec.capacityRPM = some capacity) : 0 ≤ capacity := by
  unfold AutoscalerSpec.capacityRPM perReplicaCapacityRPM at h
  cases hreq : spec.requests with
  | none => simp [hreq] at h
  | some req =>
      cases hcap : req.capacityPerReplica with
      | none =>
          simp only [hreq, hcap] at h
          split_ifs at h with hpos
          · simp only [Option.map_some, Option.some.injEq] at h
            rw [← h]
            have : (0 : ℚ) < req.targetRPS := by exact_mod_cast hpos
            exact binary64_nonneg (by positivity)
          · cases h
      | some rps =>
          simp only [hreq, hcap] at h
          split_ifs at h with hbad
          · cases h
          · simp only [Option.map_some, Option.some.injEq] at h
            push Not at hbad
            rw [← h]
            exact binary64_nonneg (by linarith [hbad.2.1])

section Measured

variable {obs : Observation} {rpm : ℚ≥0} {capacity : ℚ}
  (hrate : obs.rate = some rpm) (hcapacity : obs.spec.capacityRPM = some capacity)

include hrate hcapacity

theorem decideReplicas_desired_measured (hbounds : obs.spec.Bounded)
    (dep : Deployment) (times : Instants) (state : ScaleState) :
    (decideReplicas obs dep times state).1.desired =
      obs.spec.clamp (max (decideReplicas obs dep times state).1.participating
        (measuredNeed rpm capacity)) := by
  have hreactive : reactiveReplicas obs.spec obs.rate =
      boundedReplicas (measuredNeed rpm capacity) := by
    simp only [reactiveReplicas, hrate, hcapacity, measuredNeed]
  have hneed : (obs.rate.isSome && obs.spec.capacityRPM.isSome) = true := by
    simp [hrate, hcapacity]
  unfold decideReplicas Decision.participating AutoscalerSpec.clamp
  simp only [hneed, unifiedDesired_measured hbounds.min_le_max, hreactive,
    decide_eq_true_eq]
  exact clamp_boundedReplicas (le_trans zero_le_one hbounds.one_le_min)
    hbounds.max_le _ _

theorem decideReplicas_floor_measured (dep : Deployment) (times : Instants)
    (state : ScaleState) :
    (decideReplicas obs dep times state).1.floor =
      headroomFloor rpm capacity obs.spec.scaleDownHeadroomPercent
        obs.spec.maxReplicas := by
  simp only [decideReplicas, hrate, hcapacity]

/-- The measured part holds of every reconcile. -/
theorem measuredSafe_of_applied (hbounds : obs.spec.Bounded)
    {dep : Deployment} {times : Instants} {state s' : ScaleState}
    {action : Action}
    (happlied : Applied obs times (decideReplicas obs dep times state).1
      (decideReplicas obs dep times state).2 action s') :
    MeasuredSafe obs.spec rpm capacity
      (decideReplicas obs dep times state).1 action := by
  have hdesired := decideReplicas_desired_measured hrate hcapacity hbounds dep
    times state
  have hfloor := decideReplicas_floor_measured hrate hcapacity dep times state
  have hmin := hbounds.min_le_max
  have hone := hbounds.one_le_min
  unfold AutoscalerSpec.clamp at hdesired
  unfold MeasuredSafe AutoscalerSpec.clamp
  constructor
  · rintro n rfl
    have hn := happlied.scaleUp_inv
    subst hn
    rw [hdesired]
    omega
  · rintro n rfl
    have hdown := happlied.scaleDown_inv
    have hle := le_gradualTarget (decideReplicas obs dep times state).1.current
      (decideReplicas obs dep times state).1.eventual
    rw [← hdown.target_eq] at hle
    unfold Decision.eventual at hle
    refine ⟨?_, fun hlow hhigh => ?_, hdown.target_lt⟩
    · omega
    · have hexact := min_exactHeadroomFloor_le rpm.2
        (capacityRPM_nonneg hcapacity) hlow hhigh hbounds.max_le
      change min _ (exactHeadroomFloor (rpm : ℚ) capacity _) ≤
        max 0 (headroomFloor (rpm : ℚ) capacity _ _) at hexact
      rw [hfloor] at hle
      omega

end Measured

section Unmeasured

variable {obs : Observation}
  (hunmeasured : obs.rate = none ∨ obs.spec.capacityRPM = none)

include hunmeasured

theorem reactiveReplicas_unmeasured : reactiveReplicas obs.spec obs.rate = 0 := by
  rcases hunmeasured with h | h
  · simp [reactiveReplicas, h]
  · cases hrate : obs.rate <;> simp [reactiveReplicas, h]

/-- An unmeasured decision: the clamped current count, no floor, and no
override, whatever the forecast. -/
theorem decideReplicas_unmeasured (hbounds : obs.spec.Bounded)
    (dep : Deployment) (times : Instants) (state : ScaleState) :
    let decided := decideReplicas obs dep times state
    decided.1.desired = obs.spec.clamp dep.replicas ∧ decided.1.floor = 0 ∧
      decided.2.overrideActive = false := by
  have hneed : (obs.rate.isSome && obs.spec.capacityRPM.isSome) = false := by
    rcases hunmeasured with h | h <;> simp [h]
  have hreactive := reactiveReplicas_unmeasured hunmeasured
  refine ⟨?_, ?_, ?_⟩
  · simp only [decideReplicas, hneed,
      unifiedDesired_unmeasured hbounds.min_le_max, AutoscalerSpec.clamp]
  · rcases hunmeasured with h | h
    · simp [decideReplicas, h]
    · cases hrate : obs.rate <;> simp [decideReplicas, h, hrate]
  · simp only [decideReplicas, hreactive, safeguardForecast]
    cases (obs.term times).steps with
    | none => rfl
    | some steps => simp [adjustForOverestimation_zero_reactive,
        ScaleState.clearForecastOverride]

end Unmeasured

/-- The count an unmeasured write restores a bound with. -/
def restoredCount (spec : AutoscalerSpec) (current : ℤ) : ℤ :=
  if current < spec.minReplicas then spec.minReplicas
  else gradualTarget current spec.maxReplicas

/-- A decision that only restores the bounds, and the state it is applied
to. -/
structure RestoringDecision (obs : Observation) (dep : Deployment)
    (times : Instants) (prepared : ScaleState) (d : Decision)
    (scale : ScaleState) : Prop where
  current_eq : d.current = dep.replicas
  desired_eq : d.desired = obs.spec.clamp dep.replicas
  eventual_eq : d.eventual = obs.spec.clamp dep.replicas
  term_eq : d.term = obs.term times
  override_eq : scale.overrideActive = false
  holds : prepared.SameHolds scale

theorem restoringDecision_of_unmeasured {obs : Observation}
    (hunmeasured : obs.rate = none ∨ obs.spec.capacityRPM = none)
    (hbounds : obs.spec.Bounded) (dep : Deployment) (times : Instants)
    (prepared : ScaleState) :
    RestoringDecision obs dep times prepared
      (decideReplicas obs dep times prepared).1
      (decideReplicas obs dep times prepared).2 := by
  obtain ⟨hdesired, hfloor, hover⟩ :=
    decideReplicas_unmeasured hunmeasured hbounds dep times prepared
  refine ⟨rfl, hdesired, ?_, rfl, hover, decideReplicas_sameHolds ..⟩
  have hone := hbounds.one_le_min
  have hle := hbounds.min_le_max
  unfold Decision.eventual
  rw [hdesired, hfloor]
  unfold AutoscalerSpec.clamp
  omega

section Restoring

variable {obs : Observation} {dep : Deployment} {times : Instants}
  {prepared scale : ScaleState} {d : Decision}
  (h : RestoringDecision obs dep times prepared d scale)

include h

theorem RestoringDecision.holdRunning_iff :
    HoldRunning scale times.decision ↔ HoldRunning prepared times.decision := by
  unfold HoldRunning
  rw [h.holds.lastScaleUp, h.holds.belowCurrentSince]

/-- An applied write restores a bound. -/
theorem RestoringDecision.restores (hbounds : obs.spec.Bounded)
    {action : Action} {s' : ScaleState} {n : ℤ}
    (happlied : Applied obs times d scale action s')
    (hwritten : (Outcome.decided d action).written = some n) :
    obs.spec.mode = .active ∧ obs.blocked = false ∧
      RestoresBound obs.spec dep.replicas prepared times.decision ∧
      write obs.answers (obs.term times).policy times.expiryCheck = .written ∧
      n = restoredCount obs.spec dep.replicas := by
  have hcurrent := h.current_eq
  have hdesired := h.desired_eq
  have heventual := h.eventual_eq
  have hle := hbounds.min_le_max
  unfold AutoscalerSpec.clamp at hdesired heventual
  unfold RestoresBound restoredCount
  cases happlied with
  | recommend => cases hwritten
  | conflictHold => cases hwritten
  | holdHeadroom => cases hwritten
  | pending _ _ _ haction =>
      rcases haction with rfl | rfl <;> cases hwritten
  | atTarget _ _ _ haction =>
      rcases haction with rfl | rfl <;> cases hwritten
  | @scaleUp hmode hblocked hup result hresult =>
      cases result <;> cases hwritten
      have hlow : dep.replicas < obs.spec.minReplicas := by omega
      rw [if_pos hlow]
      exact ⟨hmode, hblocked, Or.inl hlow, h.term_eq ▸ hresult, by omega⟩
  | @scaleDown hmode hblocked hdown hfree hcool htarget result hresult =>
      cases result <;> cases hwritten
      have hhigh : obs.spec.maxReplicas < dep.replicas := by omega
      have hmax : d.eventual = obs.spec.maxReplicas := by omega
      rw [if_neg (by omega), hmax, hcurrent]
      refine ⟨hmode, hblocked, Or.inr ⟨hhigh, ?_, ?_⟩, h.term_eq ▸ hresult,
        rfl⟩
      · rw [← h.holdRunning_iff]
        exact hfree.resolve_left (by rw [h.override_eq]; exact Bool.false_ne_true)
      · rw [← h.holds.lastScaleDown]
        exact hcool

/-- Conversely, a bound to restore is restored when the write goes through. -/
theorem RestoringDecision.written (hbounds : obs.spec.Bounded)
    (hmode : obs.spec.mode = .active) (hblocked : obs.blocked = false)
    (hrestore : RestoresBound obs.spec dep.replicas prepared times.decision)
    (hwrite : write obs.answers (obs.term times).policy times.expiryCheck =
      .written) :
    (Outcome.decided d (applyScaling obs times d scale).1).written =
      some (restoredCount obs.spec dep.replicas) := by
  have hcurrent := h.current_eq
  have hdesired := h.desired_eq
  have heventual := h.eventual_eq
  have hone := hbounds.one_le_min
  have hle := hbounds.min_le_max
  unfold AutoscalerSpec.clamp at hdesired heventual
  unfold applyScaling restoredCount
  rw [if_neg (not_not.mpr hmode), if_neg (by rw [hblocked]; simp)]
  rcases hrestore with hlow | ⟨hhigh, hhold, hcool⟩
  · rw [if_pos (by omega), if_pos hlow]
    have hmin : d.desired = obs.spec.minReplicas := by omega
    simp only [applyScaleUp, h.term_eq, hwrite, hmin, Outcome.written]
  · have hmax : d.eventual = obs.spec.maxReplicas := by omega
    have htarget : gradualTarget d.current d.eventual < d.current :=
      gradualTarget_lt (by omega) (by omega)
    rw [if_neg (by omega), if_pos (by omega), if_neg (by omega),
      applyScaleDown_free obs times d scale (by omega)
        (Or.inr (h.holdRunning_iff.not.mpr hhold))
        (by rw [h.holds.lastScaleDown]; exact hcool) htarget,
      h.term_eq, hwrite, hmax, hcurrent]
    rfl

end Restoring

/-- An unmeasured reconcile writes the restored count exactly when a bound is
to be restored and its write goes through. -/
theorem written_unmeasured {obs : Observation} {dep : Deployment}
    {sha : String} (hdecides : obs.Decides dep sha)
    (hbounds : obs.spec.Bounded)
    (hunmeasured : obs.rate = none ∨ obs.spec.capacityRPM = none)
    (start : ℤ) (state : ScaleState) (n : ℤ) :
    (reconcile state start obs).2.written = some n ↔
      obs.spec.mode = .active ∧ obs.blocked = false ∧
        RestoresBound obs.spec dep.replicas
          (obs.prepared dep sha start state)
          (obs.delays.instants start).decision ∧
        write obs.answers (obs.term (obs.delays.instants start)).policy
          (obs.delays.instants start).expiryCheck = .written ∧
        n = restoredCount obs.spec dep.replicas := by
  have hrestoring := restoringDecision_of_unmeasured hunmeasured hbounds dep
    (obs.delays.instants start) (obs.prepared dep sha start state)
  rw [reconcile_of_decides hdecides]
  constructor
  · exact hrestoring.restores hbounds (applyScaling_applied ..)
  · rintro ⟨hmode, hblocked, hrestore, hwrite, rfl⟩
    exact hrestoring.written hbounds hmode hblocked hrestore hwrite

/-- An expired v2 forecast that took part is all that separates the two write
paths. -/
theorem write_without_policy {answers : WriteAnswers}
    {policy : Option (V2Policy × V2Forecast)} {now : ℤ} :
    write answers policy now = .written ↔
      write answers none now = .written ∧
        ∀ p ∈ policy, p.2.actionable now = true := by
  obtain ⟨freshScale, guard, update⟩ := answers
  cases policy with
  | none => simp
  | some p =>
      cases freshScale <;> cases guard <;> cases update <;>
        cases hp : p.2.actionable now <;> simp [write, hp]

theorem write_none_eq_written {answers : WriteAnswers} {now : ℤ} :
    write answers none now = .written ↔
      answers = ⟨.matching, true, .applied⟩ := by
  obtain ⟨freshScale, guard, update⟩ := answers
  cases freshScale <;> cases guard <;> cases update <;> simp [write]

/-- A v2 forecast takes part exactly when it is selected, a capacity resolves
and the operator accepted an answer. -/
theorem term_policy_iff (obs : Observation) (times : Instants)
    (f : V2Forecast) :
    (∃ p, (obs.term times).policy = some (p, f)) ↔
      obs.spec.capacityRPM ≠ none ∧ obs.spec.v2Selected = true ∧
        obs.forecasts.v2 = .ok f := by
  unfold Observation.term forecastTerm
  simp only [sanityCheck_policy]
  by_cases henabled : obs.spec.predictionEnabled = false
  · have hv2 : obs.spec.v2Selected = false := by
      simp [AutoscalerSpec.v2Selected, henabled]
    simp [henabled, hv2, ForecastTerm.without]
  rw [if_neg henabled]
  cases hcapacity : obs.spec.capacityRPM with
  | none => simp [ForecastTerm.without]
  | some capacity =>
      cases hv2 : obs.spec.v2Selected with
      | true =>
          cases obs.forecasts.v2 with
          | error reason => simp [ForecastTerm.without]
          | ok g => simp
      | false =>
          cases obs.forecasts.v1 with
          | error failure => simp [ForecastTerm.without]
          | ok prediction =>
              cases hdetail : calculatePredictedReplicasDetail
                  obs.spec.minReplicas obs.spec.maxReplicas
                  obs.spec.horizonMinutes obs.spec.leadTimeMinutes
                  (some capacity) prediction times.forecast with
              | none => simp [hdetail, ForecastTerm.without]
              | some result => simp [hdetail]

theorem withoutForecast_policy (obs : Observation) (times : Instants) :
    (obs.withoutForecast.term times).policy = none := by
  cases hpolicy : (obs.withoutForecast.term times).policy with
  | none => rfl
  | some p =>
      have h := (term_policy_iff obs.withoutForecast times p.2).mp ⟨p.1, hpolicy⟩
      cases h.2.2

/-- A reconcile that writes was decided. -/
theorem decides_of_written {obs : Observation} {start : ℤ}
    {state : ScaleState} {n : ℤ}
    (h : (reconcile state start obs).2.written = some n) :
    ∃ dep sha, obs.Decides dep sha := by
  cases hout : (reconcile state start obs).2 with
  | exited reason =>
      rw [hout] at h
      cases h
  | decided d action =>
      obtain ⟨dep, sha, hdecides, -⟩ := reconcile_decided hout
      exact ⟨dep, sha, hdecides⟩

theorem Observation.Decides.withoutForecast {obs : Observation}
    {dep : Deployment} {sha : String} :
    obs.withoutForecast.Decides dep sha ↔ obs.Decides dep sha :=
  ⟨fun h => ⟨h.1, h.2, h.3, h.4⟩, fun h => ⟨h.1, h.2, h.3, h.4⟩⟩

/-- An unmeasured write only moves an outlying count toward its bound. -/
theorem unmeasuredSafe_of_bounded {obs : Observation} {dep : Deployment}
    (hbounds : obs.spec.Bounded)
    (hunmeasured : obs.rate = none ∨ obs.spec.capacityRPM = none)
    (htarget : obs.target = some dep) (start : ℤ) (state : ScaleState) :
    UnmeasuredSafe obs.spec dep.replicas
      (reconcile state start obs).2.written := by
  intro n hwritten
  obtain ⟨dep', sha, hdecides⟩ := decides_of_written hwritten
  obtain rfl : dep' = dep :=
    Option.some.inj (hdecides.target.symm.trans htarget)
  obtain ⟨-, -, hrestore, -, rfl⟩ :=
    (written_unmeasured hdecides hbounds hunmeasured start state n).mp hwritten
  have hone := hbounds.one_le_min
  have hle := hbounds.min_le_max
  unfold restoredCount
  rcases hrestore with hlow | ⟨hhigh, -⟩
  · rw [if_pos hlow]
    omega
  · rw [if_neg (by omega)]
    exact Or.inr ⟨hhigh, le_gradualTarget _ _,
      gradualTarget_lt hhigh (by omega)⟩

/-- Without a measured need, a forecast changes the write exactly when an
expired one blocks it. -/
theorem uninfluenced_iff {obs : Observation} (hbounds : obs.spec.Bounded)
    (hunmeasured : obs.rate = none ∨ obs.spec.capacityRPM = none)
    (start : ℤ) (state : ScaleState) :
    (reconcile state start obs).2.written =
        (reconcile state start obs.withoutForecast).2.written ↔
      ¬ExpiredForecastBlocks obs start state := by
  constructor
  · rintro heq ⟨dep, sha, f, hdecides, hrate, hcapacity, hv2, hforecast,
      hexpired, hmode, hblocked, hanswers, hrestore⟩
    have hwithout : (reconcile state start obs.withoutForecast).2.written =
        some (restoredCount obs.spec dep.replicas) := by
      rw [written_unmeasured (Observation.Decides.withoutForecast.mpr hdecides)
        hbounds hunmeasured]
      refine ⟨hmode, hblocked, hrestore, ?_, rfl⟩
      rw [withoutForecast_policy]
      exact write_none_eq_written.mpr hanswers
    rw [← heq, written_unmeasured hdecides hbounds hunmeasured] at hwithout
    obtain ⟨p, hp⟩ := (term_policy_iff obs (obs.delays.instants start) f).mpr
      ⟨hcapacity, hv2, hforecast⟩
    have hlive := (write_without_policy.mp hwithout.2.2.2.1).2 (p, f) hp
    rw [hexpired] at hlive
    cases hlive
  · intro hnot
    apply Option.ext
    intro n
    constructor
    · intro hwritten
      obtain ⟨dep, sha, hdecides⟩ := decides_of_written hwritten
      rw [written_unmeasured hdecides hbounds hunmeasured] at hwritten
      obtain ⟨hmode, hblocked, hrestore, hwrite, hn⟩ := hwritten
      rw [written_unmeasured (Observation.Decides.withoutForecast.mpr hdecides)
        hbounds hunmeasured]
      refine ⟨hmode, hblocked, hrestore, ?_, hn⟩
      rw [withoutForecast_policy]
      exact (write_without_policy.mp hwrite).1
    · intro hwritten
      obtain ⟨dep, sha, hdecides'⟩ := decides_of_written hwritten
      have hdecides := Observation.Decides.withoutForecast.mp hdecides'
      rw [written_unmeasured hdecides' hbounds hunmeasured] at hwritten
      obtain ⟨hmode, hblocked, hrestore, hwrite, hn⟩ := hwritten
      rw [withoutForecast_policy] at hwrite
      rw [written_unmeasured hdecides hbounds hunmeasured]
      refine ⟨hmode, hblocked, hrestore, write_without_policy.mpr ⟨hwrite, ?_⟩,
        hn⟩
      rintro ⟨p, f⟩ hp
      obtain ⟨hcapacity, hv2, hforecast⟩ := (term_policy_iff obs _ f).mp ⟨p, hp⟩
      by_contra hexpired
      exact hnot ⟨dep, sha, f, hdecides, hunmeasured.resolve_right hcapacity,
        hcapacity, hv2, hforecast, by simpa using hexpired, hmode, hblocked,
        write_none_eq_written.mp hwrite, hrestore⟩

/-- Additive safety of every reconcile, with the one exception of an expired
forecast that blocks a write it takes no part in. -/
theorem additivelySafe_iff (obs : Observation) (start : ℤ)
    (state : ScaleState) (hbounds : obs.spec.Bounded) :
    AdditivelySafe obs start state ↔
      ¬ExpiredForecastBlocks obs start state := by
  constructor
  · intro hsafe hblocks
    have hunmeasured : obs.rate = none ∨ obs.spec.capacityRPM = none := by
      obtain ⟨dep, sha, f, hdecides, hrate, -⟩ := hblocks
      exact Or.inl hrate
    exact (uninfluenced_iff hbounds hunmeasured start state).mp
      (hsafe.uninfluenced hunmeasured) hblocks
  · intro hnot
    refine ⟨?_, ?_, ?_⟩
    · intro rpm capacity d action hrate hcapacity hout
      obtain ⟨dep, sha, hdecides, rfl, happly⟩ := reconcile_decided hout
      have happlied := applyScaling_applied obs (obs.delays.instants start)
        (decideReplicas obs dep (obs.delays.instants start)
          (obs.prepared dep sha start state)).1
        (decideReplicas obs dep (obs.delays.instants start)
          (obs.prepared dep sha start state)).2
      rw [happly] at happlied
      exact measuredSafe_of_applied hrate hcapacity hbounds happlied
    · intro hunmeasured dep htarget
      exact unmeasuredSafe_of_bounded hbounds hunmeasured htarget start state
    · intro hunmeasured
      exact (uninfluenced_iff hbounds hunmeasured start state).mpr hnot

namespace AdditiveSafetyWitness

open ReconcileWitness

/-- A verified answer for the grid origin `0`, valid until 300 s. -/
def forecast : V2Forecast where
  upperWindowMaxRPS := 20
  extraMaxReplicas := 2
  extraMaxPercent := 50
  window := ⟨0, 300, 600⟩
  startupDelaySeconds := 0
  actuationAllowanceSeconds := 0

/-- A measured need of twenty-five replicas and a verified answer of forty,
which may add two. -/
def raised : Observation :=
  { observation with
    spec := { spec with engine := .statistical }
    forecasts := ⟨.error .unavailable,
      .ok { forecast with upperWindowMaxRPS := 40 }⟩
    rate := some 1490 }

theorem raised_spec_bounded : raised.spec.Bounded :=
  ⟨by decide, by decide, by decide⟩

/-- No rate is measured and twenty replicas are below the minimum of thirty.
The forecast is accepted at 299 s and has expired two seconds later, when the
write is checked. -/
def expiring : Observation :=
  { observation with
    spec := { spec with minReplicas := 30, engine := .statistical }
    forecasts := ⟨.error .unavailable, .ok forecast⟩
    rate := none
    delays := ⟨0, 0, 2000000000, 0, 0⟩ }

theorem expiring_spec_bounded : expiring.spec.Bounded :=
  ⟨by decide, by decide, by decide⟩

end AdditiveSafetyWitness

/-- The forecast raises the count that is written, by what it may add. -/
theorem raised_additivelySafe :
    (reconcile {} (100 * second)
        AdditiveSafetyWitness.raised.withoutForecast).2.written = some 25 ∧
      (reconcile {} (100 * second) AdditiveSafetyWitness.raised).2.written =
        some 27 ∧
      AdditivelySafe AdditiveSafetyWitness.raised (100 * second) {} := by
  refine ⟨by decide +kernel, by decide +kernel, (additivelySafe_iff _ _ _
    AdditiveSafetyWitness.raised_spec_bounded).mpr ?_⟩
  rintro ⟨dep, sha, f, -, hrate, -⟩
  cases hrate

/-- An accepted forecast keeps the count below the minimum although it takes
no part in the decision. -/
theorem expiring_not_additivelySafe :
    ¬∀ (obs : Observation) (start : ℤ) (state : ScaleState),
      obs.spec.Bounded → AdditivelySafe obs start state := by
  intro hall
  have hsafe := hall AdditiveSafetyWitness.expiring (299 * second) {}
    AdditiveSafetyWitness.expiring_spec_bounded
  have hwritten := hsafe.uninfluenced (Or.inl rfl)
  revert hwritten
  decide +kernel

end PredictiveAutoscaler
