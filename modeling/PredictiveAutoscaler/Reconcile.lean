/-
One reconcile of the operator as a function of its scale state, of the instant
it starts and of everything it reads: the resets of the scale state, the
forecast, the unified decision, and the application of the decision with the
answers of the write path.
-/
import PredictiveAutoscaler.ScaleDown

namespace PredictiveAutoscaler

/-- The target Deployment as the reconcile reads it. -/
structure Deployment where
  uid : String
  replicas : ℤ
  replicas_nonneg : 0 ≤ replicas
  replicas_le : replicas ≤ maxInt32
deriving DecidableEq

inductive Engine
  | legacyLSTM
  | statistical
deriving DecidableEq, Repr

/-- The part of an autoscaler's spec that a reconcile reads. -/
structure AutoscalerSpec where
  mode : Mode
  minReplicas : ℤ
  maxReplicas : ℤ
  requests : Option RequestsMetric
  headroomPercent : Option ℤ
  enabled : Option Bool
  engine : Engine
  horizonMinutes : ℤ
  leadTimeMinutes : ℤ
deriving DecidableEq

def defaultScaleDownHeadroomPercent : ℤ := 10

def AutoscalerSpec.scaleDownHeadroomPercent (spec : AutoscalerSpec) : ℤ :=
  spec.headroomPercent.getD defaultScaleDownHeadroomPercent

def AutoscalerSpec.predictionEnabled (spec : AutoscalerSpec) : Bool :=
  spec.enabled.getD true

def AutoscalerSpec.v2Selected (spec : AutoscalerSpec) : Bool :=
  spec.predictionEnabled && decide (spec.engine = .statistical)

def AutoscalerSpec.capacityRPM (spec : AutoscalerSpec) : Option ℚ :=
  (perReplicaCapacityRPM spec.requests).map Prod.fst

/-- The window of a v2 answer, in epoch seconds. -/
structure V2Window where
  origin : ℤ
  interval : ℤ
  lead : ℤ
deriving DecidableEq, Repr

/-- The last instant a write may act on the window. -/
def V2Window.validUntil (w : V2Window) (startup allowance : ℤ) : ℤ :=
  let a := w.origin + w.interval - allowance
  let b := w.origin + w.lead - startup - w.interval - allowance
  if b < a then b else a

/-- The allowance precedes the first target and the deadline has not passed;
`nowMs` is in epoch milliseconds. -/
def V2Window.actionableAt (w : V2Window) (nowMs startup allowance : ℤ) : Bool :=
  decide (nowMs + allowance * 1000 < (w.origin + w.interval) * 1000) &&
    decide (nowMs < w.validUntil startup allowance * 1000)

/-- A v2 answer the operator verified as eligible. -/
structure V2Forecast where
  upperWindowMaxRPS : ℚ
  extraMaxReplicas : ℤ
  extraMaxPercent : ℤ
  window : V2Window
  startupDelaySeconds : ℤ
  actuationAllowanceSeconds : ℤ
deriving DecidableEq

/-- The answer's own window can still be acted on at `now`. -/
def V2Forecast.actionable (f : V2Forecast) (now : ℤ) : Bool :=
  f.window.actionableAt (now / 1000000) f.startupDelaySeconds
    f.actuationAllowanceSeconds

/-- Why a request for a forecast failed. -/
inductive ForecastFailure
  | authMisconfigured
  | unauthorized
  | forbidden
  | authUnavailable
  | unavailable
deriving DecidableEq, Repr

/-- Why the v2 path offers no forecast. -/
inductive V2Unused
  | settingsInvalid
  | leadInsufficient
  | rejected
  | failed (failure : ForecastFailure)
  | noResponse
  | notEligible
deriving DecidableEq, Repr

/-- The forecast status of the decision record. -/
inductive ForecastStatus
  | disabled
  | capacityMissing
  | unused (reason : V2Unused)
  | failed (failure : ForecastFailure)
  | horizonElapsed
  | sanityRejected
  | used
deriving DecidableEq, Repr

/-- What the uncached coexistence check found. -/
structure WriterCheck where
  failed : Bool
  conflicts : List String
deriving DecidableEq, Repr

/-- `freshScale`: the `/scale` read matches the decision, is stale or fails. -/
inductive FreshScale
  | matching
  | stale
  | failed
deriving DecidableEq, Repr

/-- The conditional update is applied, conflicts or fails; only an applied one
reports success. -/
inductive ScaleUpdate
  | applied
  | conflict
  | failed
deriving DecidableEq, Repr

/-- The answers the write path gets, in the order it asks. -/
structure WriteAnswers where
  freshScale : FreshScale
  identityGuard : Bool
  update : ScaleUpdate
deriving DecidableEq, Repr

/-- The forecasts a reconcile is offered, on the v1 and on the v2 path. -/
structure Forecasts where
  v1 : Except ForecastFailure Prediction
  v2 : Except V2Unused V2Forecast

/-- The time that passes before each instant the reconcile reads. -/
structure Delays where
  forecast : ℕ
  decision : ℕ
  expiryCheck : ℕ
  update : ℕ
  stamp : ℕ
deriving DecidableEq, Repr

/-- Everything one reconcile reads.  `target = none` is a reconcile that ends
before it has a target: none found, or in another namespace; `query` is the
hash of the compiled query. -/
structure Observation where
  spec : AutoscalerSpec
  target : Option Deployment
  query : Option String
  sourcePublished : Bool
  leadPublished : Bool
  forecasts : Forecasts
  rate : Option ℚ≥0
  writers : WriterCheck
  answers : WriteAnswers
  delays : Delays

/-- The instants of a reconcile that starts at `start`. -/
structure Instants where
  start : ℤ
  forecast : ℤ
  decision : ℤ
  expiryCheck : ℤ
  update : ℤ
  stamp : ℤ
deriving DecidableEq, Repr

def Delays.instants (d : Delays) (start : ℤ) : Instants where
  start := start
  forecast := start + d.forecast
  decision := start + d.forecast + d.decision
  expiryCheck := start + d.forecast + d.decision + d.expiryCheck
  update := start + d.forecast + d.decision + d.expiryCheck + d.update
  stamp := start + d.forecast + d.decision + d.expiryCheck + d.update + d.stamp

/-- The state belongs to one mode and one target object.  A fresh Active state
is treated as if a write had just happened. -/
def ScaleState.resetFor (state : ScaleState) (mode : Mode) (uid : String)
    (now : ℤ) : ScaleState :=
  if state.mode ≠ some mode ∨ state.targetUID ≠ some uid then
    match mode with
    | .active =>
        { mode := some mode, targetUID := some uid
          lastScaleUp := some now, lastScaleDown := some now }
    | .recommend => { mode := some mode, targetUID := some uid }
  else state

/-- The signal-dependent part belongs to one compiled query; the write
timestamps stay. -/
def ScaleState.resetSignal (state : ScaleState) (sha : String) : ScaleState :=
  if state.signal ≠ some sha then
    { state with
      overestimateStreak := 0, overrideActive := false, lastRPM := 0
      reEvalCounter := 0, belowCurrentSince := none, signal := some sha }
  else state

/-- The predictive term before the safeguards on it. -/
structure ForecastTerm where
  status : ForecastStatus
  predicted : ℤ
  /-- The steps of a v1 forecast that takes part. -/
  steps : Option (List ℚ)
  policy : Option (V2Policy × V2Forecast)
  safeguards : List Safeguard
deriving DecidableEq

/-- A reconcile whose forecast is not used. -/
def ForecastTerm.without (status : ForecastStatus) : ForecastTerm :=
  ⟨status, 0, none, none, []⟩

/-- The predictive component and the v2 predictive term. -/
def forecastTerm (spec : AutoscalerSpec) (forecasts : Forecasts)
    (reactive : ℤ) (now : ℤ) : ForecastTerm :=
  if spec.predictionEnabled = false then .without .disabled
  else
    match spec.capacityRPM with
    | none => .without .capacityMissing
    | some capacity =>
        if spec.v2Selected then
          match forecasts.v2 with
          | .error reason => .without (.unused reason)
          | .ok f =>
              let policy := v2PredictiveReplicas f.upperWindowMaxRPS capacity
                reactive spec.minReplicas f.extraMaxReplicas f.extraMaxPercent
              { status := .used, predicted := policy.capped, steps := none
                policy := some (policy, f)
                safeguards :=
                  if policy.binding then [.predictiveExtraCap] else [] }
        else
          match forecasts.v1 with
          | .error failure => .without (.failed failure)
          | .ok prediction =>
              match calculatePredictedReplicasDetail spec.minReplicas
                  spec.maxReplicas spec.horizonMinutes spec.leadTimeMinutes
                  (some capacity) prediction now with
              | none => .without .horizonElapsed
              | some (predicted, detail) =>
                  { status := .used, predicted := predicted
                    steps := some prediction.predictions, policy := none
                    safeguards := detail.safeguards }

/-- The first step is more than ten times the measured rate. -/
def diverged (steps : List ℚ) (currentRPM : ℚ) : Prop :=
  0 < currentRPM ∧ ∃ first, steps.head? = some first ∧
    binary64 (currentRPM * 10) < first

instance (steps : List ℚ) (currentRPM : ℚ) :
    Decidable (diverged steps currentRPM) :=
  match steps with
  | [] => isFalse (by rintro ⟨-, _, ⟨⟩, -⟩)
  | first :: _ =>
      decidable_of_iff (0 < currentRPM ∧ binary64 (currentRPM * 10) < first)
        ⟨fun h => ⟨h.1, first, rfl, h.2⟩,
          by rintro ⟨h, _, ⟨⟩, hlt⟩; exact ⟨h, hlt⟩⟩

/-- A diverged forecast is discarded. -/
def sanityCheck (term : ForecastTerm) (currentRPM : ℚ) (reactive : ℤ) :
    ForecastTerm :=
  match term.steps with
  | none => term
  | some steps =>
      if diverged steps currentRPM then
        { term with
          status := .sanityRejected, predicted := reactive, steps := none
          safeguards := term.safeguards ++ [.sanityRejected] }
      else term

theorem sanityCheck_policy (term : ForecastTerm) (currentRPM : ℚ)
    (reactive : ℤ) :
    (sanityCheck term currentRPM reactive).policy = term.policy := by
  unfold sanityCheck
  cases term.steps with
  | none => rfl
  | some steps =>
      dsimp only
      split_ifs <;> rfl

/-- The overestimate detector runs on a v1 forecast that takes part; otherwise
an override left by an earlier reconcile is cleared. -/
def safeguardForecast (term : ForecastTerm) (reactive : ℤ) (currentRPM : ℚ)
    (state : ScaleState) : ℤ × ScaleState :=
  match term.steps with
  | some steps =>
      adjustForOverestimation term.predicted reactive state currentRPM steps
  | none => (term.predicted, state.clearForecastOverride)

/-- The decision record. -/
structure Decision where
  current : ℤ
  currentRPM : ℚ
  reactive : ℤ
  needMeasured : Bool
  term : ForecastTerm
  /-- The predicted count after the overestimate detector. -/
  predicted : ℤ
  desired : ℤ
  keepCurrent : Bool
  /-- The headroom floor, `0` when the need is not measured. -/
  floor : ℤ
  /-- The overestimate override the decision is applied under. -/
  overrideActive : Bool
deriving DecidableEq

/-- The overestimate detector returned less than its input. -/
def Decision.Capped (d : Decision) : Prop := d.predicted < d.term.predicted

/-- The eventual count: the larger of the decision and the headroom floor. -/
def Decision.eventual (d : Decision) : ℤ := max d.desired d.floor

/-- The reactive count of a measured rate. -/
def reactiveReplicas (spec : AutoscalerSpec) (rate : Option ℚ≥0) : ℤ :=
  match rate, spec.capacityRPM with
  | some rpm, some capacity =>
      boundedReplicas (⌈binary64 (rpm / capacity)⌉ : ℤ)
  | _, _ => 0

/-- The predictive term of an observation, after the divergence check. -/
def Observation.term (obs : Observation) (times : Instants) : ForecastTerm :=
  let reactive := reactiveReplicas obs.spec obs.rate
  sanityCheck (forecastTerm obs.spec obs.forecasts reactive times.forecast)
    ((obs.rate.getD 0 : ℚ≥0) : ℚ) reactive

/-- The unified decision and the scale state it leaves. -/
def decideReplicas (obs : Observation) (dep : Deployment) (times : Instants)
    (state : ScaleState) : Decision × ScaleState :=
  let currentRPM : ℚ := (obs.rate.getD 0 : ℚ≥0)
  let reactive := reactiveReplicas obs.spec obs.rate
  let needMeasured := obs.rate.isSome && obs.spec.capacityRPM.isSome
  let term := obs.term times
  let (predicted, state) := safeguardForecast term reactive currentRPM state
  let (desired, keepCurrent) := unifiedDesired predicted reactive
    obs.spec.minReplicas obs.spec.maxReplicas dep.replicas
    (decide (term.status = .used)) needMeasured
  let floor := match obs.rate, obs.spec.capacityRPM with
    | some rpm, some capacity =>
        headroomFloor rpm capacity obs.spec.scaleDownHeadroomPercent
          obs.spec.maxReplicas
    | _, _ => 0
  (⟨dep.replicas, currentRPM, reactive, needMeasured, term, predicted, desired,
      keepCurrent, floor, state.overrideActive⟩,
    { state with lastRPM := currentRPM })

/-- How a write ended: applied, aborted before or by the update, or failed. -/
inductive WriteResult
  | written
  | stale
  | refused
  | expired
  | failed
deriving DecidableEq, Repr

/-- The fresh `/scale` read, the identity guard, the expiry of a v2 forecast
that took part, then the conditional update. -/
def write (answers : WriteAnswers) (policy : Option (V2Policy × V2Forecast))
    (now : ℤ) : WriteResult :=
  match answers.freshScale with
  | .stale => .stale
  | .failed => .failed
  | .matching =>
      if answers.identityGuard = false then .refused
      else if policy.any fun p => !p.2.actionable now then .expired
      else
        match answers.update with
        | .applied => .written
        | .conflict => .stale
        | .failed => .failed

/-- What a reconcile did with its decision. -/
inductive Action
  | recommend
  | conflictHold
  | scaleUp (count : ℤ) (result : WriteResult)
  | scaleDown (count : ℤ) (result : WriteResult)
  | holdHeadroom
  | holdStabilizing
  | holdCooldown
  | atTarget
  | keepCurrent
deriving DecidableEq, Repr

/-- Another writer owns the count, or ownership is unknown. -/
def Observation.blocked (obs : Observation) : Bool :=
  decide (obs.spec.mode = .active) &&
    (obs.writers.failed || !obs.writers.conflicts.isEmpty)

/-- Scale up at once; only an applied write stamps the state. -/
def applyScaleUp (obs : Observation) (times : Instants) (d : Decision)
    (state : ScaleState) : Action × ScaleState :=
  let result := write obs.answers d.term.policy times.expiryCheck
  (.scaleUp d.desired result,
    if result = .written then
      { state with lastScaleUp := some times.stamp, belowCurrentSince := none }
    else state)

/-- Scale down no lower than the headroom floor, through the holds. -/
def applyScaleDown (obs : Observation) (times : Instants) (d : Decision)
    (state : ScaleState) : Action × ScaleState :=
  let (eventual, hold, state) :=
    headroomEventual state d.current d.desired d.floor
  if hold then (.holdHeadroom, state)
  else
    let (target, state) :=
      calculateScaleDownTarget state times.decision d.current eventual
    if target < d.current then
      let result := write obs.answers d.term.policy times.expiryCheck
      (.scaleDown target result,
        if result = .written then
          { state with
            lastScaleDown := some times.stamp, overrideActive := false }
        else state)
    else
      let pending :=
        match state.belowCurrentSince with
        | some since =>
            if scaleDownStabilization ≤ times.expiryCheck - since then
              .holdCooldown
            else .holdStabilizing
        | none => .holdStabilizing
      (pending, state)

/-- Apply the decision: nothing in Recommend mode, nothing while another
writer owns the count. -/
def applyScaling (obs : Observation) (times : Instants) (d : Decision)
    (state : ScaleState) : Action × ScaleState :=
  if obs.spec.mode ≠ .active then (.recommend, state)
  else if obs.blocked then
    (.conflictHold, { state with belowCurrentSince := none })
  else if d.current < d.desired then applyScaleUp obs times d state
  else if d.desired < d.current then applyScaleDown obs times d state
  else
    (if d.keepCurrent then .keepCurrent else .atTarget,
      { state with belowCurrentSince := none })

/-- A reconcile that ends before its decision. -/
inductive Exit
  | noTarget
  | invalidMetricQuery
  | sourceUnpublished
  | leadUnpublished
deriving DecidableEq, Repr

inductive Outcome
  | exited (reason : Exit)
  | decided (decision : Decision) (action : Action)
deriving DecidableEq

/-- One reconcile that starts at `start`. -/
def reconcile (state : ScaleState) (start : ℤ) (obs : Observation) :
    ScaleState × Outcome :=
  match obs.target with
  | none => (state, .exited .noTarget)
  | some dep =>
      let state := state.resetFor obs.spec.mode dep.uid start
      match obs.query with
      | none => (state, .exited .invalidMetricQuery)
      | some sha =>
          let state := state.resetSignal sha
          if obs.sourcePublished = false then
            (state, .exited .sourceUnpublished)
          else if obs.spec.v2Selected && !obs.leadPublished then
            (state, .exited .leadUnpublished)
          else
            let times := obs.delays.instants start
            let (d, state) := decideReplicas obs dep times state
            let (action, state) := applyScaling obs times d state
            (state, .decided d action)

/-- The scale state a reconcile decides from, after both resets. -/
def Observation.prepared (obs : Observation) (dep : Deployment) (sha : String)
    (start : ℤ) (state : ScaleState) : ScaleState :=
  (state.resetFor obs.spec.mode dep.uid start).resetSignal sha

/-- Nothing ends the reconcile before its decision. -/
structure Observation.Decides (obs : Observation) (dep : Deployment)
    (sha : String) : Prop where
  target : obs.target = some dep
  query : obs.query = some sha
  sourcePublished : obs.sourcePublished = true
  leadPublished : obs.spec.v2Selected = true → obs.leadPublished = true

/-- A decided reconcile, stage by stage. -/
theorem reconcile_decided {state : ScaleState} {start : ℤ}
    {obs : Observation} {d : Decision} {action : Action}
    (hout : (reconcile state start obs).2 = .decided d action) :
    ∃ dep sha, obs.Decides dep sha ∧
      let times := obs.delays.instants start
      let decided := decideReplicas obs dep times
        (obs.prepared dep sha start state)
      d = decided.1 ∧
        applyScaling obs times d decided.2 =
          (action, (reconcile state start obs).1) := by
  unfold reconcile at hout ⊢
  cases htarget : obs.target with
  | none => simp [htarget] at hout
  | some dep =>
      cases hquery : obs.query with
      | none => simp [htarget, hquery] at hout
      | some sha =>
          simp only [htarget, hquery] at hout ⊢
          by_cases hsource : obs.sourcePublished = false
          · simp [hsource] at hout
          by_cases hlead : (obs.spec.v2Selected && !obs.leadPublished) = true
          · simp [hsource, hlead] at hout
          simp only [if_neg hsource, if_neg hlead] at hout ⊢
          refine ⟨dep, sha, ⟨htarget, hquery, by simpa using hsource, ?_⟩, ?_⟩
          · simpa using hlead
          · obtain ⟨rfl, rfl⟩ := Outcome.decided.inj hout
            exact ⟨rfl, rfl⟩

/-- Conversely, a reconcile that nothing ends early is decided. -/
theorem reconcile_of_decides {obs : Observation} {dep : Deployment}
    {sha : String} (hdecides : obs.Decides dep sha) (state : ScaleState)
    (start : ℤ) :
    reconcile state start obs =
      let times := obs.delays.instants start
      let decided := decideReplicas obs dep times
        (obs.prepared dep sha start state)
      let applied := applyScaling obs times decided.1 decided.2
      (applied.2, .decided decided.1 applied.1) := by
  have hlead : ¬(obs.spec.v2Selected && !obs.leadPublished) = true := by
    simpa using hdecides.leadPublished
  simp only [reconcile, hdecides.target, hdecides.query,
    hdecides.sourcePublished, hlead, Bool.true_eq_false, if_false]
  rfl

/-- A property of the scale state that every stage keeps holds after the
reconcile. -/
theorem reconcile_preserves {P : ScaleState → Prop} {start : ℤ}
    {obs : Observation} {state : ScaleState}
    (hreset : ∀ dep, obs.target = some dep →
      P (state.resetFor obs.spec.mode dep.uid start))
    (hsignal : ∀ s sha, P s → P (s.resetSignal sha))
    (happly : ∀ dep sha, obs.Decides dep sha →
      P (obs.prepared dep sha start state) →
      let times := obs.delays.instants start
      let decided := decideReplicas obs dep times
        (obs.prepared dep sha start state)
      P (applyScaling obs times decided.1 decided.2).2)
    (hstate : P state) : P (reconcile state start obs).1 := by
  unfold reconcile
  cases htarget : obs.target with
  | none => exact hstate
  | some dep =>
      cases hquery : obs.query with
      | none => exact hreset dep htarget
      | some sha =>
          have hprepared := hsignal _ sha (hreset dep htarget)
          dsimp only
          split_ifs with hsource hlead
          · exact hprepared
          · exact hprepared
          · exact happly dep sha ⟨htarget, hquery, by simpa using hsource,
              by simpa using hlead⟩ hprepared

section Stages

variable (obs : Observation) (times : Instants)

theorem safeguardForecast_sameHolds (term : ForecastTerm) (reactive : ℤ)
    (currentRPM : ℚ) (state : ScaleState) :
    state.SameHolds (safeguardForecast term reactive currentRPM state).2 := by
  unfold safeguardForecast
  cases term.steps with
  | none => exact state.clearForecastOverride_sameHolds
  | some steps => exact adjustForOverestimation_sameHolds ..

/-- Deciding touches none of the holds. -/
theorem decideReplicas_sameHolds (dep : Deployment) (state : ScaleState) :
    state.SameHolds (decideReplicas obs dep times state).2 := by
  have h := safeguardForecast_sameHolds (obs.term times)
    (reactiveReplicas obs.spec obs.rate) ((obs.rate.getD 0 : ℚ≥0) : ℚ) state
  exact ⟨h.lastScaleUp, h.lastScaleDown, h.belowCurrentSince, h.mode⟩

/-- An override that is active at the application of an uncapped decision is
left over from an earlier reconcile. -/
theorem decideReplicas_leftover (dep : Deployment) (state : ScaleState)
    (hactive : (decideReplicas obs dep times state).2.overrideActive = true)
    (huncapped : ¬(decideReplicas obs dep times state).1.Capped) :
    ∃ steps, (obs.term times).steps = some steps ∧
      LeftoverOverride (obs.term times).predicted
        (reactiveReplicas obs.spec obs.rate) state
        ((obs.rate.getD 0 : ℚ≥0) : ℚ) steps := by
  cases hsteps : (obs.term times).steps with
  | none =>
      simp [decideReplicas, safeguardForecast, hsteps,
        ScaleState.clearForecastOverride] at hactive
  | some steps =>
      refine ⟨steps, rfl, leftover_of_overrideActive _ _ _ _ _ ?_ ?_⟩
      · simpa [decideReplicas, safeguardForecast, hsteps] using hactive
      · simpa [decideReplicas, safeguardForecast, hsteps, Decision.Capped]
          using huncapped

/-- What applying a decision can do to the scale state. -/
inductive Applied (d : Decision) (state : ScaleState) :
    Action → ScaleState → Prop
  | recommend (hmode : obs.spec.mode ≠ .active) :
      Applied d state .recommend state
  | conflictHold (hmode : obs.spec.mode = .active)
      (hblocked : obs.blocked = true) :
      Applied d state .conflictHold { state with belowCurrentSince := none }
  | scaleUp (hmode : obs.spec.mode = .active) (hblocked : obs.blocked = false)
      (hup : d.current < d.desired) {result : WriteResult}
      (hresult : write obs.answers d.term.policy times.expiryCheck = result) :
      Applied d state (.scaleUp d.desired result)
        (if result = .written then
          { state with
            lastScaleUp := some times.stamp, belowCurrentSince := none }
        else state)
  | holdHeadroom (hmode : obs.spec.mode = .active)
      (hblocked : obs.blocked = false) (hdown : d.desired < d.current)
      (hfloor : d.current ≤ d.eventual) :
      Applied d state .holdHeadroom { state with belowCurrentSince := none }
  | scaleDown (hmode : obs.spec.mode = .active)
      (hblocked : obs.blocked = false) (hdown : d.eventual < d.current)
      (hfree : state.overrideActive = true ∨
        ¬HoldRunning state times.decision)
      (hcool : ¬Within scaleDownCooldown state.lastScaleDown times.decision)
      (htarget : gradualTarget d.current d.eventual < d.current)
      {result : WriteResult}
      (hresult : write obs.answers d.term.policy times.expiryCheck = result) :
      Applied d state
        (.scaleDown (gradualTarget d.current d.eventual) result)
        (if result = .written then
          { state with
            lastScaleDown := some times.stamp, overrideActive := false }
        else state)
  | pending (hmode : obs.spec.mode = .active)
      (hblocked : obs.blocked = false) (hdown : d.eventual < d.current)
      {action : Action}
      (haction : action = .holdStabilizing ∨ action = .holdCooldown)
      {state' : ScaleState}
      (hstate : state' = state ∨ (state.belowCurrentSince = none ∧
        state' = { state with belowCurrentSince := some times.decision })) :
      Applied d state action state'
  | atTarget (hmode : obs.spec.mode = .active)
      (hblocked : obs.blocked = false) (heq : d.desired = d.current)
      {action : Action}
      (haction : action = .atTarget ∨ action = .keepCurrent) :
      Applied d state action { state with belowCurrentSince := none }

/-- What lets a scale-down reach its write. -/
structure ScaleDownApplied (d : Decision) (state : ScaleState) (n : ℤ)
    (result : WriteResult) : Prop where
  mode : obs.spec.mode = .active
  blocked : obs.blocked = false
  below : d.eventual < d.current
  free : state.overrideActive = true ∨ ¬HoldRunning state times.decision
  cooled : ¬Within scaleDownCooldown state.lastScaleDown times.decision
  target_eq : n = gradualTarget d.current d.eventual
  target_lt : n < d.current
  result_eq : write obs.answers d.term.policy times.expiryCheck = result

variable {obs times} in
theorem Applied.scaleDown_inv {d : Decision} {state state' : ScaleState}
    {n : ℤ} {result : WriteResult}
    (h : Applied obs times d state (.scaleDown n result) state') :
    ScaleDownApplied obs times d state n result := by
  cases h with
  | scaleDown hmode hblocked hdown hfree hcool htarget hresult =>
      exact ⟨hmode, hblocked, hdown, hfree, hcool, rfl, htarget, hresult⟩
  | pending _ _ _ haction => rcases haction with h | h <;> cases h
  | atTarget _ _ _ haction => rcases haction with h | h <;> cases h

variable {obs times} in
theorem Applied.scaleDown_written {d : Decision} {state state' : ScaleState}
    {n : ℤ} (h : Applied obs times d state (.scaleDown n .written) state') :
    state'.lastScaleDown = some times.stamp := by
  cases h with
  | scaleDown => rw [if_pos rfl]
  | pending _ _ _ haction => rcases haction with h | h <;> cases h
  | atTarget _ _ _ haction => rcases haction with h | h <;> cases h

variable {obs times} in
theorem Applied.scaleUp_inv {d : Decision} {state state' : ScaleState}
    {n : ℤ} {result : WriteResult}
    (h : Applied obs times d state (.scaleUp n result) state') :
    n = d.desired := by
  cases h with
  | scaleUp => rfl
  | pending _ _ _ haction => rcases haction with h | h <;> cases h
  | atTarget _ _ _ haction => rcases haction with h | h <;> cases h

variable {obs times} in
theorem Applied.scaleUp_written {d : Decision} {state state' : ScaleState}
    {n : ℤ} (h : Applied obs times d state (.scaleUp n .written) state') :
    state'.lastScaleUp = some times.stamp := by
  cases h with
  | scaleUp => rw [if_pos rfl]
  | pending _ _ _ haction => rcases haction with h | h <;> cases h
  | atTarget _ _ _ haction => rcases haction with h | h <;> cases h

theorem applyScaleDown_applied (d : Decision) (state : ScaleState)
    (hmode : obs.spec.mode = .active) (hblocked : obs.blocked = false)
    (hdown : d.desired < d.current) :
    Applied obs times d state (applyScaleDown obs times d state).1
      (applyScaleDown obs times d state).2 := by
  have hmax : (if d.desired < d.floor then d.floor else d.desired) =
      d.eventual := by
    unfold Decision.eventual
    split_ifs <;> omega
  unfold applyScaleDown headroomEventual
  simp only [hmax]
  by_cases hfloor : d.current ≤ d.eventual
  · simp only [if_pos hfloor, if_true]
    exact .holdHeadroom hmode hblocked hdown hfloor
  simp only [if_neg hfloor, Bool.false_eq_true, if_false]
  have heventual : d.eventual < d.current := not_le.mp hfloor
  by_cases htarget : (calculateScaleDownTarget state times.decision d.current
      d.eventual).1 < d.current
  · obtain ⟨hfree, hcool, heq⟩ :=
      calculateScaleDownTarget_lt state times.decision d.current d.eventual
        htarget
    rw [if_pos htarget, heq]
    rw [heq] at htarget
    exact .scaleDown hmode hblocked heventual hfree hcool htarget rfl
  · rw [if_neg htarget]
    refine .pending hmode hblocked heventual ?_
      (calculateScaleDownTarget_state state times.decision d.current
        d.eventual)
    split
    · split_ifs
      · exact Or.inr rfl
      · exact Or.inl rfl
    · exact Or.inl rfl

/-- A scale-down that no hold and no cooldown blocks reaches its write. -/
theorem applyScaleDown_free (d : Decision) (state : ScaleState)
    (hdown : d.eventual < d.current)
    (hfree : state.overrideActive = true ∨ ¬HoldRunning state times.decision)
    (hcool : ¬Within scaleDownCooldown state.lastScaleDown times.decision)
    (htarget : gradualTarget d.current d.eventual < d.current) :
    (applyScaleDown obs times d state).1 =
      .scaleDown (gradualTarget d.current d.eventual)
        (write obs.answers d.term.policy times.expiryCheck) := by
  have hmax : (if d.desired < d.floor then d.floor else d.desired) =
      d.eventual := by
    unfold Decision.eventual
    split_ifs <;> omega
  have hcooled : cooledTarget state times.decision d.current d.eventual =
      gradualTarget d.current d.eventual := if_neg hcool
  unfold applyScaleDown headroomEventual
  simp only [hmax, if_neg (not_le.mpr hdown), Bool.false_eq_true, if_false]
  rw [calculateScaleDownTarget_free state times.decision _ _ hfree, hcooled,
    if_pos htarget]

theorem applyScaling_applied (d : Decision) (state : ScaleState) :
    Applied obs times d state (applyScaling obs times d state).1
      (applyScaling obs times d state).2 := by
  unfold applyScaling
  by_cases hmode : obs.spec.mode = .active
  swap
  · rw [if_pos hmode]
    exact .recommend hmode
  rw [if_neg (not_not.mpr hmode)]
  by_cases hblocked : obs.blocked = true
  · rw [if_pos hblocked]
    exact .conflictHold hmode hblocked
  rw [if_neg hblocked]
  have hfree : obs.blocked = false := by simpa using hblocked
  by_cases hup : d.current < d.desired
  · rw [if_pos hup]
    exact .scaleUp hmode hfree hup rfl
  rw [if_neg hup]
  by_cases hdown : d.desired < d.current
  · rw [if_pos hdown]
    exact applyScaleDown_applied obs times d state hmode hfree hdown
  · rw [if_neg hdown]
    refine .atTarget hmode hfree (by omega) ?_
    split_ifs
    · exact Or.inr rfl
    · exact Or.inl rfl

end Stages

namespace ReconcileWitness

/-- An Active autoscaler of one request per second and replica. -/
def spec : AutoscalerSpec where
  mode := .active
  minReplicas := 1
  maxReplicas := 100
  requests := some ⟨none, 1⟩
  headroomPercent := none
  enabled := some true
  engine := .legacyLSTM
  horizonMinutes := 60
  leadTimeMinutes := 20

def target : Deployment := ⟨"target", 20, by decide, by decide⟩

/-- A measured need of ten replicas, no forecast, and a write path that lets
every write through, without delay. -/
def observation : Observation where
  spec := spec
  target := some target
  query := some "rate"
  sourcePublished := true
  leadPublished := true
  forecasts := ⟨.error .unavailable, .error .noResponse⟩
  rate := some 600
  writers := ⟨false, []⟩
  answers := ⟨.matching, true, .applied⟩
  delays := ⟨0, 0, 0, 0, 0⟩

end ReconcileWitness

end PredictiveAutoscaler
