/-
The chronological replay of a dataset.  Each tick ingests what was received by
its origin, closes the windows that have settled, folds their outcomes in,
forecasts from the visible history, commits the issuance and a checkpoint.  A
run starts at the tick after the last checkpoint.  The quota and the size caps
of the journal, which can only stop a run, are outside.
-/
import PredictiveAutoscaler.Durable
import PredictiveAutoscaler.Evaluation.ReplayJournal

namespace PredictiveAutoscaler.Evaluation

open Forecasting (Raised BoundInfo Truth inCohort maxRps)

/-- `range(start, stop, step)` for a positive step. -/
def range (start stop step : ℤ) : List ℤ :=
  (List.range ((stop - start + step - 1) / step).toNat).map fun (i : ℕ) =>
    start + i * step

/-- A declared exclusion of a manifest. -/
structure Exclusion where
  start : ℤ
  stop : ℤ
  reason : String
  start_lt : start < stop
  reason_ne : reason ≠ ""
deriving DecidableEq

/-- A verified dataset: its observations lie on the grid, one for each event
time, in time order, none received before it happened. -/
structure Dataset where
  manifestSha256 : String
  dataSha256 : String
  intervalSeconds : ℤ
  exclusions : List Exclusion
  observations : List Observation
  interval_pos : 0 < intervalSeconds
  on_grid : ∀ o ∈ observations, o.eventTime % intervalSeconds = 0
  increasing : observations.Pairwise fun a b => a.eventTime < b.eventTime
  value_nonneg : ∀ o ∈ observations, 0 ≤ o.valueRps
  available_ge : ∀ o ∈ observations, o.eventTime * 1000 ≤ o.availableAtMs

/-- The exclusion that covers a time. -/
def Dataset.excluded (d : Dataset) (t : ℤ) : Option String :=
  (d.exclusions.find? fun ex => ex.start ≤ t ∧ t < ex.stop).map Exclusion.reason

/-- The order of receipt. -/
def receivedBefore (a b : Observation) : Prop :=
  a.availableAtMs < b.availableAtMs ∨
    a.availableAtMs = b.availableAtMs ∧ a.eventTime ≤ b.eventTime

instance : DecidableRel receivedBefore := fun _ _ =>
  inferInstanceAs (Decidable (_ ∨ _))

def Dataset.arrivals (d : Dataset) : List Observation :=
  d.observations.insertionSort receivedBefore

/-- The parameters lie on the grid, the lead is positive and the range is
ordered. -/
def ReplayConfig.check (c : ReplayConfig) (interval : ℤ) :
    Except Failure Unit :=
  if c.firstOrigin % interval ≠ 0 then
    .error (.replayError s!"first_origin must lie on the {interval} s grid")
  else if c.lastOrigin % interval ≠ 0 then
    .error (.replayError s!"last_origin must lie on the {interval} s grid")
  else if c.leadSeconds % interval ≠ 0 then
    .error (.replayError s!"lead_seconds must lie on the {interval} s grid")
  else if c.leadSeconds ≤ 0 ∨ c.lastOrigin < c.firstOrigin then
    .error (.replayError
      "a positive lead and an ordered origin range are required")
  else if c.settlementSeconds < 0 ∨ c.outcomeGraceSeconds < 0 then
    .error (.replayError "settlement and grace are non-negative")
  else .ok ()

/-- The received samples by event time, the first of each. -/
abbrev Received := List Observation

/-- `received.get(t)`. -/
def Received.at? (received : Received) (t : ℤ) : Option Observation :=
  received.find? fun o => o.eventTime = t

/-- `received.setdefault`. -/
def Received.setDefault (received : Received) (o : Observation) : Received :=
  if (received.at? o.eventTime).isSome then received else received ++ [o]

/-- The newest finalized grid point at a wall time. -/
def watermark (now intervalSeconds settlementSeconds : ℤ) : ℤ :=
  ⌊binary64 (binary64 (binary64 now - binary64 settlementSeconds) /
    intervalSeconds)⌋ * intervalSeconds

/-- What a forecaster reads: the samples that were received by `nowMs`, up to
the watermark and not excluded, in time order. -/
structure VisibleHistory where
  samples : List Observation
  nowMs : ℤ
  intervalSeconds : ℤ
  through : ℤ
deriving DecidableEq, Repr

def VisibleHistory.ofReceived (received : Received)
    (nowMs intervalSeconds through : ℤ) (excluded : ℤ → Option String) :
    VisibleHistory :=
  { samples := (received.filter fun o =>
        decide (o.availableAtMs ≤ nowMs) && decide (o.eventTime ≤ through) &&
          (excluded o.eventTime).isNone).insertionSort
      fun a b => a.eventTime ≤ b.eventTime
    nowMs
    intervalSeconds
    through }

def VisibleHistory.latest (view : VisibleHistory) : Option ℤ :=
  (view.samples.map Observation.eventTime).max?

def VisibleHistory.receivedThroughMs (view : VisibleHistory) : Option ℤ :=
  (view.samples.map Observation.availableAtMs).max?

/-- A deterministic forecaster; a point that is not finite has no value. -/
abbrev Forecaster := VisibleHistory → ℤ → List ℤ → Option (List (Option ℚ))

def truthDeadlineMs (windowEnd settlement grace : ℤ) : ℤ :=
  (windowEnd + settlement + grace) * 1000

/-- The steps between the targets of a window. -/
def targetSteps (targets : List ℤ) : List ℤ :=
  List.zipWith (fun a b => b - a) targets targets.tail

/-- One or more grid times, strictly increasing at a constant step. -/
def checkWindow (targets : List ℤ) : Except Raised Unit :=
  let steps := targetSteps targets
  if targets = [] then
    .error (.valueError "a window has integer target times")
  else if ∃ d ∈ steps, d ≠ steps.headD 1 ∨ d ≤ 0 then
    .error (.valueError "window targets must be evenly spaced and increasing")
  else .ok ()

/-- The value of a target received by the cutoff. -/
def Received.by (received : Received) (cutoffMs t : ℤ) : Option Observation :=
  (received.at? t).filter fun o => decide (o.availableAtMs ≤ cutoffMs)

/-- The payload of a window with every target received. -/
def scoredPayload (targets : List ℤ) (base : ℚ) (upper : Option ℚ)
    (got : List Observation) : ScoredPayload :=
  let values := got.map Observation.valueRps
  let y := maxRps values
  { targets
    yWindowMaxRps := y
    baseWindowMaxRps := base
    upperWindowMaxRps := upper
    covered := upper.map fun u => decide (y ≤ u)
    residualRps := binary64 (y - base)
    absErrorRps := |binary64 (y - base)|
    values
    completedAtMs := (got.map Observation.availableAtMs).foldl max 0 }

/-- None while the window is pending, else its terminal payload. -/
def windowOutcome (targets : List ℤ) (base : ℚ) (upper : Option ℚ)
    (received : Received) (nowMs settlement grace : ℤ)
    (excluded : ℤ → Option String) : Except Raised (Option OutcomePayload) := do
  checkWindow targets
  let windowEnd := targets.getLastD 0
  let deadlineMs := truthDeadlineMs windowEnd settlement grace
  if nowMs < (windowEnd + settlement) * 1000 then return none
  else
    match targets.filterMap fun t => (excluded t).map fun why => (t, why) with
    | (first, why) :: rest =>
        return some (.excluded targets (rest.length + 1) first why deadlineMs)
    | [] =>
        let cutoff := min nowMs deadlineMs
        match targets.filter fun t => (received.by cutoff t).isNone with
        | first :: rest =>
            if nowMs < deadlineMs then return none
            else
              return some
                (.missingTruth targets (rest.length + 1) first deadlineMs)
        | [] =>
            return some (.scored (scoredPayload targets base upper
              (targets.filterMap (received.by cutoff))))

/-- `issued_outcome`: on the bundle's own grid, base and bound. -/
def issuedOutcome (bundle : Bundle) (model : String) (received : Received)
    (nowMs settlement grace : ℤ) (excluded : ℤ → Option String) :
    Except Raised (Option OutcomePayload) :=
  if bundle.modelFamily ≠ model then
    .error (.valueError "the issuance was made by another model")
  else
    windowOutcome bundle.targetTimestamps bundle.baseWindowMaxRps
      bundle.upperWindowMaxRps received nowMs settlement grace excluded

/-- `CalibrationRecord.from_journal`: refuses an outcome that does not agree
with its issuance, whose bundle carries its one candidate at the top level. -/
def CalibrationRecord.fromJournal (issuance : Issuance) (outcome : Outcome) :
    Except Raised CalibrationRecord :=
  let b := issuance.bundle
  let key := issuance.key
  if outcome.issuanceId ≠ key ∨ outcome.evidenceKey ≠ key.evidenceKey ∨
      outcome.windowEnd ≠ key.windowEnd then
    .error (.calibrationError "the outcome does not belong to this issuance")
  else if b.decisionOrigin ≠ key.decisionOrigin ∨
      b.targetTimestamps ≠
        range (key.decisionOrigin + b.sampleIntervalSeconds)
          (key.windowEnd + 1) b.sampleIntervalSeconds then
    .error (.calibrationError
      "the issuance's targets are not exactly its window's grid")
  else if outcome.model ∉ issuance.models then
    .error (.calibrationError
      s!"the issuance expected no outcome for model {outcome.model}")
  else if b.modelFamily ≠ outcome.model then
    .error (.calibrationError
      s!"the issuance was made by {b.modelFamily}, not {outcome.model}")
  else if b.pointRps.length ≠ b.targetTimestamps.length then
    .error (.calibrationError
      "the candidate's trajectory does not cover the issued targets")
  else if outcome.payload.targets ≠ b.targetTimestamps then
    .error (.calibrationError
      "the outcome was not matured on the issued target grid")
  else
    let record (truth : Truth) : CalibrationRecord :=
      ⟨outcome.seq, key.evidenceKey, outcome.model, b.modelRecipe, key,
        key.decisionOrigin, key.windowEnd, b.baseWindowMaxRps,
        b.upperWindowMaxRps, truth⟩
    match outcome.payload with
    | .missingTruth .. => .ok (record .unscorable)
    | .excluded .. => .ok (record .unscorable)
    | .scored p =>
        if (p.baseWindowMaxRps, p.upperWindowMaxRps) ≠
            (b.baseWindowMaxRps, b.upperWindowMaxRps) then
          .error (.calibrationError
            "the outcome was not scored against the bound that was issued")
        else .ok (record (.scored p.yWindowMaxRps))

/-- The counters after one terminal outcome. -/
def ReplayState.count (s : ReplayState) : OutcomePayload → ReplayState
  | .missingTruth .. =>
      { s with
        unscorable := s.unscorable + 1
        missingTruth := s.missingTruth + 1 }
  | .excluded .. =>
      { s with unscorable := s.unscorable + 1, excluded := s.excluded + 1 }
  | .scored p =>
      let s := { s with
        scored := s.scored + 1
        absErrorSumRps := binary64 (s.absErrorSumRps + p.absErrorRps) }
      match p.covered with
      | none => { s with unbounded := s.unbounded + 1 }
      | some true => { s with covered := s.covered + 1 }
      | some false => { s with missed := s.missed + 1 }

/-- The checkpoint fold of one terminal outcome. -/
def fold (state : ReplayState) (o : Outcome) (issuance : Issuance)
    (policy : CalibrationPolicy) : Except Raised ReplayState := do
  let record ← CalibrationRecord.fromJournal issuance o
  let calibration ← state.calibration.apply record policy
  return { state with calibration, lastWindowEnd := some o.windowEnd }.count
    o.payload

/-- A replay: the arguments of a run with the policy of its parameters. -/
structure Replay where
  dataset : Dataset
  config : ReplayConfig
  forecaster : Forecaster
  policy : CalibrationPolicy

namespace Replay

variable (r : Replay)

def settings : ReplaySettings := ⟨r.config, r.dataset.intervalSeconds⟩

def evidenceKey : EvidenceKey := ⟨r.dataset.manifestSha256, r.settings⟩

def series : String := "replay:" ++ r.dataset.manifestSha256

def initialState : ReplayState :=
  { calibration := .initial r.policy r.evidenceKey r.config.modelFamily
      r.config.modelRecipe }

/-- The targets of the window of an origin. -/
def targets (t : ℤ) : List ℤ :=
  (List.range (r.config.leadSeconds / r.dataset.intervalSeconds).toNat).map
    fun (k : ℕ) => t + (k + 1) * r.dataset.intervalSeconds

/-- A raising step of the journal. -/
def journal {α : Type} (f : Journal → Except Raised (α × Journal)) :
    Durable Store Failure α :=
  Durable.commit fun s =>
    match f s.toJournal with
    | .error err => .error (.raised err)
    | .ok (a, j) => .ok (a, { s with toJournal := j })

/-- Ingest what arrived since the last tick, in one transaction. -/
def ingest (batch : List Observation) : Durable Store Failure Unit :=
  if batch = [] then pure ()
  else
    Durable.commit fun s =>
      match s.recordObservations r.series r.dataset.dataSha256 batch with
      | .error err => .error (.raised err)
      | .ok next => .ok next

/-- What an issued window closes with at a tick. -/
def closing (received : Received) (t : ℤ) (iss : Issuance) :
    Except Raised (Option OutcomePayload) :=
  issuedOutcome iss.bundle r.config.modelFamily received (t * 1000)
    r.config.settlementSeconds r.config.outcomeGraceSeconds r.dataset.excluded

/-- Close one issued window, unless it is still pending. -/
def closeWindow (received : Received) (t : ℤ) (iss : Issuance) :
    Durable Store Failure Unit :=
  match r.closing received t iss with
  | .error err => Durable.liftExcept (.error (.raised err))
  | .ok none => pure ()
  | .ok (some payload) =>
      journal (fun j => (j.commitOutcome iss.key r.config.modelFamily payload
        (t * 1000))) >>= fun _ => pure ()

/-- The issued windows that have settled by a tick. -/
def settled (t : ℤ) (s : Store) : List Issuance :=
  s.openIssuances r.evidenceKey r.config.modelFamily
    (t - r.config.settlementSeconds)

/-- Close the windows that have settled, in window-end order. -/
def closeWindows (received : Received) (t : ℤ) : Durable Store Failure Unit :=
  Durable.read (r.settled t) >>= fun opened =>
  Durable.each opened (r.closeWindow received t)

/-- Fold one outcome of the journal into the state. -/
def foldOutcome (j : Journal) (folded : ReplayState × ℕ) (o : Outcome) :
    Except Raised (ReplayState × ℕ) :=
  match j.issuance? o.issuanceId with
  | none => .error (.attributeError "payload")
  | some iss => do return (← fold folded.1 o iss r.policy, o.seq)

/-- The latest checkpoint plus every later outcome, each folded in once. -/
def recover (j : Journal) : Except Raised (ReplayState × ℕ) :=
  let start := match j.latestCheckpoint r.evidenceKey with
    | none => (r.initialState, 0)
    | some cp => (cp.state, cp.lastOutcomeSeq)
  (j.outcomesAfter r.evidenceKey start.2).foldlM (r.foldOutcome j) start

/-- The finite, non-negative points of a trajectory, one for each target. -/
def trajectory (targets : List ℤ) (points : List (Option ℚ)) (t : ℤ) :
    Except Failure (List ℚ) :=
  match points.mapM id with
  | none => .error (.replayError
      s!"the forecaster returned an invalid trajectory at {t}")
  | some points =>
      if points.length ≠ targets.length ∨ ∃ x ∈ points, x < 0 then
        .error (.replayError
          s!"the forecaster returned an invalid trajectory at {t}")
      else .ok points

/-- The bundle that an origin issues. -/
def bundle (view : VisibleHistory) (t : ℤ) (points : List ℚ)
    (upper : Option ℚ × BoundInfo) : Bundle :=
  { evidenceKey := r.evidenceKey
    settings := r.settings
    datasetSha256 := r.dataset.manifestSha256
    modelFamily := r.config.modelFamily
    modelRecipe := r.config.modelRecipe
    decisionOrigin := t
    windowStart := t
    windowEnd := (r.targets t).getLastD t
    targetTimestamps := r.targets t
    sampleIntervalSeconds := view.intervalSeconds
    pointRps := points
    baseWindowMaxRps := maxRps points
    upperWindowMaxRps := upper.1
    nominalMiscoverageBps := r.config.miscoverageBps
    calibration := upper.2
    calibrationInCohort := inCohort t r.config.leadSeconds
    issuedAtMs := view.nowMs
    inputEnd := view.latest
    inputReceivedThroughMs := view.receivedThroughMs }

/-- The valid points, the key and the bound of an origin's issuance. -/
def prepare (t : ℤ) (points : List (Option ℚ)) (state : ReplayState) :
    Except Failure (List ℚ × IssuanceKey × (Option ℚ × BoundInfo)) := do
  let points ← trajectory (r.targets t) points t
  let key ← (IssuanceKey.make r.evidenceKey t t ((r.targets t).getLastD t)
    r.settings).mapError .raised
  let upper ← (state.calibration.upperBound r.policy (maxRps points) t).mapError
    .raised
  return (points, key, upper)

/-- `_issue`: whether the issuance of an origin was created now. -/
def issue (view : VisibleHistory) (t : ℤ) (points : List (Option ℚ))
    (state : ReplayState) : Durable Store Failure Bool :=
  Durable.liftExcept (r.prepare t points state) >>= fun prepared =>
  journal (fun j => j.getOrIssue prepared.2.1
    (r.bundle view t prepared.1 prepared.2.2) r.config.modelFamily
    (t * 1000)) >>= fun issued =>
  pure issued.2

/-- The history that the forecaster of a tick reads. -/
def view (received : Received) (t : ℤ) : VisibleHistory :=
  .ofReceived received (t * 1000) r.dataset.intervalSeconds
    (watermark t r.dataset.intervalSeconds r.config.settlementSeconds)
    r.dataset.excluded

/-- Forecast and issue; none without a forecast. -/
def forecast (received : Received) (t : ℤ) (state : ReplayState) :
    Durable Store Failure (Option Bool) :=
  match r.forecaster (r.view received t) t (r.targets t) with
  | none => pure none
  | some points =>
      r.issue (r.view received t) t points state >>= fun created =>
      pure (some created)

/-- A tick up to its checkpoint: the recovered state with its last outcome and
whether the origin was issued. -/
def tickBody (received : Received) (batch : List Observation) (t : ℤ) :
    Durable Store Failure ((ReplayState × ℕ) × Option Bool) :=
  r.ingest batch >>= fun _ =>
  r.closeWindows received t >>= fun _ =>
  Durable.read (fun s => (r.recover s.toJournal).mapError .raised) >>= fun e =>
  Durable.liftExcept e >>= fun recovered =>
  r.forecast received t recovered.1 >>= fun created =>
  pure (recovered, created)

/-- The checkpoint of a tick that is complete. -/
def complete (t : ℤ) (recovered : ReplayState × ℕ) :
    Durable Store Failure Unit :=
  journal fun j => j.writeCheckpoint r.evidenceKey
    { recovered.1 with replayTick := some t } recovered.2 (t * 1000)

/-- The variables of a run's loop: the clock, the samples taken so far, the
arrivals that are left and the counts. -/
structure Progress where
  clockMs : ℤ := 0
  received : Received := []
  arrivals : List Observation
  issued : ℕ := 0
  noForecast : ℕ := 0
deriving DecidableEq, Repr

/-- `ManualClock.set`: forward only. -/
def setClock (fromMs toMs : ℤ) : Except Failure Unit :=
  if toMs < fromMs then .error (.clockError fromMs toMs) else .ok ()

/-- The samples taken once those received by `nowMs` are. -/
def Progress.batch (p : Progress) (nowMs : ℤ) : List Observation :=
  p.arrivals.takeWhile fun o => decide (o.availableAtMs ≤ nowMs)

def Progress.advance (p : Progress) (nowMs : ℤ) : Progress :=
  { p with
    clockMs := nowMs
    received := (p.batch nowMs).foldl Received.setDefault p.received
    arrivals := p.arrivals.dropWhile fun o => decide (o.availableAtMs ≤ nowMs) }

def Progress.count (p : Progress) : Option Bool → Progress
  | none => { p with noForecast := p.noForecast + 1 }
  | some created => { p with issued := p.issued + created.toNat }

/-- One tick of the loop. -/
def tick (t : ℤ) (p : Progress) : Durable Store Failure Progress :=
  Durable.liftExcept (setClock p.clockMs (t * 1000)) >>= fun _ =>
  r.tickBody (p.advance (t * 1000)).received (p.batch (t * 1000)) t >>=
    fun done =>
  r.complete t done.1 >>= fun _ =>
  pure ((p.advance (t * 1000)).count done.2)

def ticks : List ℤ → Progress → Durable Store Failure Progress
  | [], p => pure p
  | t :: rest, p => r.tick t p >>= fun next => ticks rest next

/-- Where a run starts: at the tick after the last checkpointed one. -/
def resumeFrom (j : Journal) : Except Failure ℤ :=
  match j.latestCheckpoint r.evidenceKey with
  | none => .ok r.config.firstOrigin
  | some cp =>
      match cp.state.replayTick with
      | none => .error (.raised (.keyError "replay_tick"))
      | some t => .ok (t + r.dataset.intervalSeconds)

/-- What a run reports. -/
structure Result where
  evidenceKey : EvidenceKey
  settings : ReplaySettings
  issued : ℕ
  noForecast : ℕ
  scored : ℕ
  unscorable : ℕ
  excluded : ℕ
  pending : ℕ
  checkpoint : Option ReplayState
  journal : JournalContent

/-- The report of a run that ended with a store. -/
def result (p : Progress) (s : Store) : Result :=
  let checkpoint := (s.latestCheckpoint r.evidenceKey).map Checkpoint.state
  let totals := checkpoint.getD r.initialState
  { evidenceKey := r.evidenceKey
    settings := r.settings
    issued := p.issued
    noForecast := p.noForecast
    scored := totals.scored
    unscorable := totals.unscorable
    excluded := totals.excluded
    pending := (s.openIssuances r.evidenceKey r.config.modelFamily
      (r.config.lastOrigin + r.config.leadSeconds)).length
    checkpoint
    journal := s.journalDigest }

/-- The run once its arguments are accepted. -/
def run : Durable Store Failure Result :=
  Durable.read (fun s => r.resumeFrom s.toJournal) >>= fun start =>
  Durable.liftExcept start >>= fun start =>
  r.ticks (range start (r.config.lastOrigin + 1) r.dataset.intervalSeconds)
    { arrivals := r.dataset.arrivals } >>= fun p =>
  Durable.read (r.result p)

end Replay

/-- `run_replay`, on a manual clock that starts at zero. -/
def runReplay (dataset : Dataset) (config : ReplayConfig)
    (forecaster : Forecaster) : Durable Store Failure Replay.Result :=
  Durable.liftExcept (config.check dataset.intervalSeconds) >>= fun _ =>
  Durable.liftExcept (config.policy.mapError .raised) >>= fun policy =>
  Replay.run ⟨dataset, config, forecaster, policy⟩

end PredictiveAutoscaler.Evaluation
