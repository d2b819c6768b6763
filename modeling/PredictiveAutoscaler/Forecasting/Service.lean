/-
The statistical forecasting service: one predict request, end to end.  A
request is bound to the live autoscaler, its history is recorded, settled
windows are closed, the epoch's state is recovered, and one immutable issuance
is committed between two checkpoints; the answer is built from the issuance
alone.  A crash or a failing journal may cut a request off after any commit.
-/
import PredictiveAutoscaler.Durable
import PredictiveAutoscaler.Forecasting.Store

namespace PredictiveAutoscaler.Forecasting

/-- A signal's finalized history on its grid: the observed points, in time
order. -/
structure RpsGrid where
  gridStart : ℕ
  gridEnd : ℕ
  points : List Store.Sample
deriving DecidableEq, Repr

def RpsGrid.latestObserved (grid : RpsGrid) : Option ℕ :=
  grid.points.getLast?.map Store.Sample.time

/-- The newest observation is no older than the settlement and two
intervals. -/
def RpsGrid.isFresh (grid : RpsGrid) (nowMs settlement dt : ℕ) : Bool :=
  grid.latestObserved.any fun latest =>
    decide (nowMs ≤ (latest + settlement + 2 * dt) * 1000)

/-- The newest finalized grid point at a wall time. -/
def watermark (nowMs dt settlement : ℕ) : ℕ :=
  (nowMs / 1000 - settlement) / dt * dt

inductive History
  | refused (message : String)
  | unavailable (message : String)
  | received (grid : RpsGrid)
deriving DecidableEq, Repr

/-- A forecast of the fitted kernel. -/
structure E1Forecast where
  points : List ℚ
  cutoff : ℕ
  artifactSha256 : String
deriving DecidableEq, Repr

/-- The clock readings of one request, in the order they are taken. -/
structure Clock where
  bindMs : ℕ
  freshMs : ℕ
  nowMs : ℕ
  outcomeMs : IssuanceKey → Model → ℕ
  buildMs : ℕ
  issuedMs : ℕ
  committedMs : ℕ

/-- One request with everything it reads: the live objects, the history, the
fitted kernel's forecast, the clock and whether it could be registered. -/
structure Call where
  request : V2Request
  lookup : Lookup
  registered : Bool
  history : History
  e1 : Option E1Forecast
  clock : Clock

structure ServiceConfig where
  recipes : Recipes
  store : StoreConfig := {}
  compactEverySeconds : ℕ := hour

/-- The journal file and what the process holds beside it. -/
structure Service where
  store : Store := {}
  compacted : Option ℕ := none
  healthy : Bool := true
  clockMs : ℕ := 0

/-- `RELEASE_GATES_PASSED`. -/
def releaseGatesPassed : Bool := false

/-- A transaction of the journal. -/
def onStore {α : Type} (f : Store → Except Raised (α × Store)) :
    Durable Service Raised α :=
  .commit fun svc =>
    match f svc.store with
    | .error raised => .error raised
    | .ok (a, store) => .ok (a, { svc with store })

/-- A value computed from the journal. -/
def readStore {α : Type} (f : Store → α) : Durable Service Raised α :=
  .read fun svc => f svc.store

/-- A new issuance must still be able to act. -/
def refuseLate (window : ForecastWindow) (lead : LeadSelection) (nowMs : ℕ) :
    Except Raised Unit :=
  if window.targetTimestamps.headD 0 * 1000 ≤
      nowMs + lead.actuationAllowanceSeconds * 1000 then
    .error (.serviceError 503 .leadInsufficient
      ("too late to issue for this decision origin; the next origin will be " ++
        "served"))
  else .ok ()

/-- The observed value of a grid point. -/
def RpsGrid.at? (grid : RpsGrid) (t : ℕ) : Option ℚ :=
  (grid.points.find? fun p => p.time = t).map Store.Sample.value

/-- The value one season before every target, when each is observed. -/
def seasonalNaive (grid : RpsGrid) (inputEnd : ℕ) (targets : List ℕ) :
    Option (List ℚ) :=
  targets.mapM fun s =>
    if s < day ∨ inputEnd < s - day then none else grid.at? (s - day)

/-- The trajectory of one model family. -/
structure FamilyPoints where
  model : Model
  recipe : String
  pointRps : List ℚ
  fitCutoff : Option ℕ
  artifactSha256 : Option String

/-- Every available family, the naive first. -/
def familyPoints (recipes : Recipes) (call : Call) (grid : RpsGrid)
    (inputEnd : ℕ) (targets : List ℕ) : List FamilyPoints :=
  ((seasonalNaive grid inputEnd targets).map fun points =>
      ⟨.seasonalNaive, recipes.naive, points, none, none⟩).toList ++
    (call.e1.map fun e1 => ⟨.statistical, recipes.e1, e1.points,
      some e1.cutoff, some e1.artifactSha256⟩).toList

/-- `REQUIRED_HISTORY_SECONDS`. -/
def requiredHistorySeconds : Model → ℕ
  | .seasonalNaive => day
  | _ => 7 * day

/-- The candidates of a build, with the states they were read from. -/
structure Built where
  state : EpochState
  candidates : Model → Option IssuedCandidate := fun _ => none
  inputs : List CandidateInputs := []

/-- Add one family to a build. -/
def buildCandidate (ctx : RecoverContext) (t inputEnd firstObserved : ℕ)
    (built : Built) (p : FamilyPoints) : Except Raised Built := do
  let m := built.state.modelState ctx p.model p.recipe
  let base := maxRps p.pointRps
  let (upper, info) ← m.calibration.upperBound ctx.policy base t
  let dt := ctx.settings.sampleIntervalSeconds
  return {
    state := built.state.setModel p.model m
    candidates := Function.update built.candidates p.model (some
      ⟨p.recipe, p.pointRps, base, upper, info, p.fitCutoff,
        p.artifactSha256⟩)
    inputs := built.inputs ++ [
      { model := p.model
        ledger := m.ledger
        boundAvailable := upper.isSome
        calibrationWindows := info.n
        minCalibrationWindows := ctx.policy.minWindows
        historySeconds := (inputEnd : ℤ) - firstObserved + dt
        requiredHistorySeconds := requiredHistorySeconds p.model
        dataFresh := true
        fitAgeSeconds := p.fitCutoff.map fun cutoff =>
          (inputEnd : ℤ) - cutoff }] }

/-- The paired evidence needs its naive baseline; without costs no verdict
reads its sums, in whatever order. -/
def offeredPairs (state : EpochState) (families : List FamilyPoints) :
    Model → Option HeldPairs
  | .statistical =>
      if families.any fun p => p.model = .seasonalNaive then
        some ⟨state.pairs, .sorted _⟩
      else none
  | _ => none

/-- What a bundle keeps of a verdict. -/
def issuedVerdict (state : EpochState) (model : Model) (v : CandidateVerdict) :
    IssuedVerdict where
  trusted := v.trusted
  phase := v.phase
  reason := v.reason
  coverageGate := v.info.coverageGate
  availability := v.info.availability
  prospectiveGateBounds := v.info.prospective
  evidenceCutoff :=
    (state.models model).bind fun m => m.ledger.lastProspectiveOutcome

/-- The parts of a request that the build works on. -/
structure IssueContext extends RecoverContext where
  bound : BoundRequest
  lead : LeadSelection
  window : ForecastWindow
  grid : RpsGrid

/-- `_build`: the bundle, before it is stamped, and the state it leaves. -/
def build (config : ServiceConfig) (ic : IssueContext) (call : Call)
    (healthy : Bool) (state : EpochState) :
    Except Raised (Bundle × EpochState) := do
  let t := ic.bound.decisionOrigin
  let targets := ic.window.targetTimestamps
  let inputEnd := ic.grid.latestObserved.getD 0
  let firstObserved := (ic.grid.points.head?.map Store.Sample.time).getD 0
  let families := familyPoints config.recipes call ic.grid inputEnd targets
  if families.isEmpty then
    throw (.serviceError 503 .historyInsufficient
      "no forecast family has the history it needs yet")
  let built ← families.foldlM
    (buildCandidate ic.toRecoverContext t inputEnd firstObserved) { state }
  let g : Global :=
    { now := call.clock.buildMs / 1000
      leadSeconds := ic.lead.leadSeconds
      nominalMiscoverage := ic.policy.nominalRatio
      identityOk := true
      storeHealthy := healthy
      replaySuitePassed := releaseGatesPassed
      startupBudgetValid := true }
  let (verdict, trust) ← evaluate built.inputs built.state.trust g
    ic.settings.trust (offeredPairs built.state families) fun _ => none
  let state := { built.state with trust }
  return (
    { evidenceMode := .prospective
      evidenceKey := ic.ek
      settings := ic.bound.settings
      decisionOrigin := t
      windowEnd := ic.window.windowEnd
      targetTimestamps := targets
      sampleIntervalSeconds := ic.settings.sampleIntervalSeconds
      leadSeconds := ic.lead.leadSeconds
      startupDelaySeconds := ic.lead.startupDelaySeconds
      actuationAllowanceSeconds := ic.lead.actuationAllowanceSeconds
      validUntil := ic.window.validUntil ic.lead
      inputEnd
      inputReceivedThroughMs :=
        (ic.grid.points.map Store.Sample.receivedMs).foldl max 0
      nominalMiscoverageBps := ic.policy.nominalBps
      candidates := built.candidates
      selected := verdict.selected
      phase := verdict.phase
      reason := verdict.reason
      predictionReady := verdict.predictionReady
      verdicts := fun model =>
        (verdict.candidates model).map (issuedVerdict state model)
      issuedAtMs := 0
      checkpoint := state }, state)

/-- The models of a bundle, by name. -/
def Bundle.models (b : Bundle) : List Model :=
  [.lstm, .seasonalNaive, .statistical].filter fun model =>
    (b.candidates model).isSome

/-- The model a response reports: the selected one, or the naive before the
statistical one. -/
def Bundle.reported (b : Bundle) : Model :=
  b.selected.getD
    (if (b.candidates .seasonalNaive).isSome then .seasonalNaive
    else .statistical)

/-- The response that a bundle gives a request. -/
def response (bound : BoundRequest) (lead : LeadSelection) (key : IssuanceKey)
    (b : Bundle) (c : IssuedCandidate) (v : IssuedVerdict) : V2Response where
  autoscalerNamespace := bound.autoscalerNamespace
  autoscalerName := bound.autoscalerName
  autoscalerUid := bound.signal.autoscalerUid
  autoscalerGeneration := bound.signal.generation
  targetNamespace := bound.signal.targetNamespace
  targetName := bound.signal.targetName
  targetUid := bound.signal.targetUid
  metricQuerySha256 := bound.signal.querySha256
  contract := bound.signal.contract
  settings := bound.settings
  forecastContract := forecastContract
  unit := unit
  issuanceId := key
  issuedAtMs := b.issuedAtMs
  inputEnd := b.inputEnd
  inputReceivedThroughMs := b.inputReceivedThroughMs
  fitCutoff := c.fitCutoff
  modelFamily := b.reported
  modelRecipe := c.recipe
  artifactSha256 := c.artifactSha256
  calibrationEpoch := bound.evidenceKey lead
  checkpoint := b.checkpoint
  decisionOrigin := b.decisionOrigin
  windowStart := b.decisionOrigin
  windowEnd := b.windowEnd
  targetTimestamps := b.targetTimestamps
  sampleIntervalSeconds := b.sampleIntervalSeconds
  leadSeconds := b.leadSeconds
  startupDelaySeconds := b.startupDelaySeconds
  actuationAllowanceSeconds := b.actuationAllowanceSeconds
  validUntil := b.validUntil
  pointRps := c.pointRps
  baseWindowMaxRps := c.baseWindowMaxRps
  upperWindowMaxRps := c.upperWindowMaxRps
  nominalMiscoverageBps := b.nominalMiscoverageBps
  workingMiscoverageRatio := some c.calibration.workingMiscoverage
  calibrationWindows := c.calibration.n
  prospectiveWindows := v.prospectiveGateBounds
  gateCoverageRatio := v.coverageGate
  missingOutcomeRatio := v.availability.map fun r => binary64 (1 - r)
  selectedCandidate := b.reported
  trustState := if b.selected.isSome then b.phase else v.phase
  reason := b.reason
  predictiveEligible := releaseGatesPassed && b.predictionReady &&
    b.selected.isSome && c.upperWindowMaxRps.isSome
  evidenceCutoff := v.evidenceCutoff

/-- `_response`: answer from the bundle alone. -/
def answer (bound : BoundRequest) (lead : LeadSelection) (iss : Issuance) :
    Except Raised V2Response := do
  let b := iss.bundle
  match b.candidates b.reported, b.verdicts b.reported with
  | some c, some v =>
      let r := response bound lead iss.key b c v
      checkResponse r bound
      return r
  | _, _ => throw (.keyError b.reported.name)

/-- The key of an issuance; a window ends after its origin. -/
def issuanceKey (ek : EvidenceKey) (origin windowEnd : ℕ)
    (settings : ForecastSettings) : Except Raised IssuanceKey :=
  if h : origin < windowEnd then .ok ⟨ek, origin, windowEnd, settings, h⟩
  else
    .error (.storeError
      "a window starts at its decision origin and ends after it")

/-- What recovery starts from: the latest checkpoint's state, or the initial
one. -/
def Store.startState (store : Store) (recipes : Recipes) (ek : EvidenceKey) :
    EpochState :=
  ((store.latestCheckpoint ek).map Checkpoint.state).getD
    (.initial recipes ek)

section Issue

variable (config : ServiceConfig) (call : Call)

/-- Close what has settled, model by model. -/
def closeSettled (ic : IssueContext) (received : Receipts) :
    Durable Service Raised Unit :=
  let s := ic.settings
  let nowMs := call.clock.nowMs
  .each [.seasonalNaive, .statistical] fun model => do
    let settled ← readStore fun store =>
      store.openIssuances ic.ek model (nowMs / 1000 - s.settlementSeconds)
    .each settled fun iss => do
      let payload ← .liftExcept (issuedOutcome iss.bundle model received nowMs
        s.settlementSeconds s.outcomeGraceSeconds)
      match payload with
      | none => pure ()
      | some payload => do
          let _ ← onStore (Store.commitOutcome iss.key model payload
            (call.clock.outcomeMs iss.key model))

/-- The epoch's state: the latest checkpoint with every later row folded in. -/
def recoverLatest (ic : IssueContext) : Durable Service Raised EpochState := do
  let recovered ← readStore fun store =>
    recover ic.toRecoverContext store.toJournal
      (store.startState config.recipes ic.ek)
  .liftExcept recovered

/-- Decide and commit a new issuance: the trust transition is durable before
anything is issued. -/
def issueNew (ic : IssueContext) (key : IssuanceKey) (state : EpochState) :
    Durable Service Raised (Issuance × EpochState) := do
  .liftExcept (refuseLate ic.window ic.lead call.clock.nowMs)
  let healthy ← .read Service.healthy
  let (bundle, state) ← .liftExcept (build config ic call healthy state)
  onStore (Store.writeCheckpoint ic.ek state state.lastOutcomeSeq)
  .liftExcept (refuseLate ic.window ic.lead call.clock.issuedMs)
  let bundle := { bundle with issuedAtMs := call.clock.issuedMs }
  let (iss, _) ← onStore (Store.getOrIssue key bundle bundle.models
    call.clock.committedMs)
  return (iss, state)

/-- The committed issuance of the key, or a new one. -/
def findOrIssue (ic : IssueContext) (key : IssuanceKey) (state : EpochState) :
    Durable Service Raised (Issuance × EpochState) := do
  let found ← readStore fun store => store.issuance? key
  match found with
  | some iss => return (iss, state)
  | none => issueNew config call ic key state

/-- Fold the issuance into the state, checkpoint again and compact when it is
due. -/
def settle (ic : IssueContext) (state : EpochState) :
    Durable Service Raised Unit := do
  let recovered ← readStore fun store =>
    recover ic.toRecoverContext store.toJournal state
  let state ← .liftExcept recovered
  onStore (Store.writeCheckpoint ic.ek state state.lastOutcomeSeq)
  let now := call.clock.nowMs / 1000
  .commit fun svc =>
    .ok ((),
      if svc.compacted.all fun last =>
          decide (last + config.compactEverySeconds ≤ now) then
        { svc with
          store := svc.store.compact config.store now
          compacted := some now }
      else svc)

/-- `_issue`, under the service's lock. -/
def issue (bound : BoundRequest) (lead : LeadSelection) (grid : RpsGrid) :
    Durable Service Raised V2Response := do
  let s := bound.settings
  let ek := bound.evidenceKey lead
  let window ← .liftExcept (makeWindow bound.decisionOrigin s lead)
  let policy ← .liftExcept (CalibrationPolicy.fromSettings s lead.leadSeconds)
  let ic : IssueContext := ⟨⟨s, ek, policy⟩, bound, lead, window, grid⟩
  onStore fun store => .ok ((), store.recordObservations ek grid.points)
  let received ← readStore fun store =>
    store.receipts ek grid.gridStart grid.gridEnd
  closeSettled call ic received
  let state ← recoverLatest config ic
  let key ← .liftExcept (issuanceKey ek bound.decisionOrigin window.windowEnd s)
  let (iss, state) ← findOrIssue config call ic key state
  settle config call ic state
  .liftExcept (answer bound lead iss)

/-- The exceptions of binding a request, as the service answers them. -/
def bindError : Raised → Raised
  | .contractRefused message => .serviceError 422 .identityMismatch message
  | .provenanceRefused message => .serviceError 422 .identityMismatch message
  | .lookupFailed message =>
      .serviceError 503 .identityMismatch
        ("the autoscaler could not be read: " ++ message)
  | raised => raised

/-- The service's answer to what the journal refuses. -/
def notJournaled (message : String) : Raised :=
  .serviceError 503 .stateUnavailable
    ("the forecast state cannot be journaled: " ++ message)

/-- What the journal refuses is answered as unavailable. -/
def storeError : Raised → Raised
  | .storeError message => notJournaled message
  | .integrityConflict message => notJournaled message
  | .retiredKey message => notJournaled message
  | raised => raised

/-- What a bound request needs before the lock: a registration, a healthy
journal, a lead and a fresh history. -/
def admitted (bound : BoundRequest) (healthy : Bool) :
    Except Raised (LeadSelection × RpsGrid) :=
  if !call.registered then
    .error (.serviceError 503 .stateUnavailable
      "the service's registration limit is reached")
  else if !healthy then
    .error (.serviceError 503 .stateUnavailable
      "the forecast journal is unavailable; no issuance")
  else
    match bound.lead, call.history with
    | .error why, _ => .error (.serviceError 503 .leadInsufficient why)
    | .ok _, .refused message =>
        .error (.serviceError 422 .dataUnavailable
          ("history refused: " ++ message))
    | .ok _, .unavailable message =>
        .error (.serviceError 503 .dataUnavailable
          ("history unavailable: " ++ message))
    | .ok lead, .received grid =>
        if !grid.isFresh call.clock.freshMs bound.settings.settlementSeconds
            bound.settings.sampleIntervalSeconds then
          .error (.serviceError 503 .dataUnavailable
            "the newest finalized observation is too old")
        else .ok (lead, grid)

/-- One request. -/
def predict : Durable Service Raised V2Response := do
  let bound ← .mapError bindError (.liftExcept
    (bindRequest call.request call.lookup call.clock.bindMs))
  let healthy ← .read Service.healthy
  let (lead, grid) ← .liftExcept (admitted call bound healthy)
  .mapError storeError (issue config call bound lead grid)

end Issue

/-- A request that is answered, one during which the journal fails after some
of its commits, one during which the process dies after some of them, or a
restart. -/
inductive Event
  | request (call : Call)
  | journalFails (call : Call) (commits : ℕ)
  | crash (call : Call) (commits : ℕ)
  | restart

def Event.call? : Event → Option Call
  | .request call => some call
  | .journalFails call _ => some call
  | .crash call _ => some call
  | .restart => none

/-- The process starts on the journal it finds. -/
def Service.restarted (svc : Service) : Service :=
  { svc with compacted := none, healthy := true }

def Service.step (config : ServiceConfig) (svc : Service) : Event → Service
  | .request call =>
      { (predict config call svc).store svc with
        clockMs := call.clock.committedMs }
  | .journalFails call commits =>
      { (predict config call svc).cutAt svc commits with
        healthy := false, clockMs := call.clock.committedMs }
  | .crash call commits =>
      { ((predict config call svc).cutAt svc commits).restarted with
        clockMs := call.clock.committedMs }
  | .restart => svc.restarted

def Service.run (config : ServiceConfig) (svc : Service)
    (events : List Event) : Service :=
  events.foldl (Service.step config) svc

end PredictiveAutoscaler.Forecasting
