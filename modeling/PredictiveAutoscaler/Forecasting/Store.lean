/-
The forecast journal: immutable issuances and outcomes, the first receipts of
observations, and replaceable checkpoints.  Every operation is one transaction:
it commits the next store or refuses and leaves the store as it is.
-/
import PredictiveAutoscaler.Forecasting.Maturation
import PredictiveAutoscaler.Forecasting.Recovery

namespace PredictiveAutoscaler.Forecasting

instance : ToString Model := ⟨Model.name⟩

/-- A checkpoint of one evidence key; the state stands for its digest. -/
structure Checkpoint where
  lastOutcomeSeq : ℕ
  state : EpochState
deriving DecidableEq

/-- What the digest chain of an epoch keeps of one removed issuance. -/
structure RetentionEntry where
  issuanceId : IssuanceKey
  bundle : Bundle
  models : List Model
  payloads : List OutcomePayload
deriving DecidableEq

/-- What is kept of the issuances removed from one epoch; the chain's entries
stand for its digest. -/
structure Retention where
  throughWindowEnd : ℕ := 0
  issued : ℕ := 0
  scored : ℕ := 0
  unscorable : ℕ := 0
  digest : List RetentionEntry := []
deriving DecidableEq

/-- The retention counts of an epoch with one more removed issuance. -/
def Retention.remove (r : Retention)
    (iss : Issuance) (outs : List Outcome) : Retention :=
  { r with
    issued := r.issued + 1
    scored := r.scored + outs.countP fun o => o.payload matches .scored _
    unscorable :=
      r.unscorable + outs.countP fun o => o.payload matches .unscorable _
    digest := r.digest ++
      [⟨iss.key, iss.bundle, iss.models, outs.map Rows.Outcome.payload⟩] }

/-- `CHECKPOINTS_KEPT`. -/
def checkpointsKept : ℕ := 3

/-- The journal file.  `issuanceSeq` and `outcomeSeq` are the numbers last
given to a row; the checkpoints of a key are listed newest first. -/
structure Store extends Journal where
  issuanceSeq : ℕ := 0
  outcomeSeq : ℕ := 0
  observations : EvidenceKey → Receipts := fun _ _ => none
  checkpoints : EvidenceKey → List Checkpoint := fun _ => []
  horizon : ℕ := 0
  retention : EvidenceKey → Option Retention := fun _ => none

/-- How long rows are kept. -/
structure StoreConfig where
  retentionSeconds : ℕ := 7 * day
  observationExtraSeconds : ℕ := 21 * day

namespace Store

/-- A received sample: event time, value and receipt. -/
structure Sample where
  time : ℕ
  value : ℚ
  receivedMs : ℕ
deriving DecidableEq, Repr

/-- The first receipt of an event time is kept. -/
def recordObservation (receipts : Receipts) (sample : Sample) : Receipts :=
  fun t =>
    if t = sample.time then
      some ((receipts t).getD ⟨sample.value, sample.receivedMs⟩)
    else receipts t

/-- Record received samples.  The format check on the digest of their source
is left out. -/
def recordObservations (ek : EvidenceKey) (samples : List Sample)
    (store : Store) : Store :=
  { store with
    observations := Function.update store.observations ek
      (samples.foldl recordObservation (store.observations ek)) }

/-- The first receipts of event times within `lo` and `hi`. -/
def receipts (store : Store) (ek : EvidenceKey) (lo hi : ℕ) : Receipts :=
  fun t => if lo ≤ t ∧ t ≤ hi then store.observations ek t else none

/-- The terminal outcome of one model of an issuance. -/
def outcome? (store : Store) (id : IssuanceKey) (model : Model) :
    Option Outcome :=
  Rows.outcome? store.outcomes id model

/-- The issuances of an epoch without an outcome of `model` whose window ended
by the given time, in window-end order. -/
def openIssuances (store : Store) (ek : EvidenceKey) (model : Model)
    (windowEndAtMost : ℕ) : List Issuance :=
  Rows.openIssuances store.issuances store.outcomes ek model windowEndAtMost

/-- The next row of the outcomes. -/
def nextOutcome (store : Store) (iss : Issuance) (model : Model)
    (payload : OutcomePayload) (nowMs : ℕ) : Outcome :=
  ⟨store.outcomeSeq + 1, iss.key, iss.key.evidenceKey, iss.key.windowEnd,
    model, payload, nowMs⟩

def appendOutcome (store : Store) (o : Outcome) : Store :=
  { store with
    outcomeSeq := store.outcomeSeq + 1
    outcomes := store.outcomes ++ [o] }

/-- The one terminal outcome of an issuance and a model, and whether it was
created. -/
def commitOutcome (id : IssuanceKey) (model : Model) (payload : OutcomePayload)
    (nowMs : ℕ) (store : Store) : Except Raised ((Outcome × Bool) × Store) := do
  let (o, created) ← Rows.commitOutcome store.issuances store.outcomes
    (store.outcomeSeq + 1) id model payload nowMs
  return ((o, created), if created then store.appendOutcome o else store)

/-- The next row of the issuances. -/
def nextIssuance (store : Store) (key : IssuanceKey) (bundle : Bundle)
    (models : List Model) (nowMs : ℕ) : Issuance :=
  ⟨store.issuanceSeq + 1, key, bundle, models, nowMs⟩

def appendIssuance (store : Store) (iss : Issuance) : Store :=
  { store with
    issuanceSeq := store.issuanceSeq + 1
    issuances := store.issuances ++ [iss] }

/-- `_models`: the expected models, one or more distinct names in name
order.  The names are those of the three families; the source takes any of
`[a-z0-9_]{1,32}`. -/
def expectedModels (models : List Model) : Except Raised (List Model) :=
  if models = [] ∨ ¬models.Nodup then
    .error (.storeError "models must be 1..3 distinct names")
  else .ok ([.lstm, .seasonalNaive, .statistical].filter (· ∈ models))

/-- Keys whose window ended below the horizon are retired. -/
def refuseRetired (store : Store) (key : IssuanceKey) : Except Raised Unit :=
  if key.windowEnd < store.horizon then
    .error (.retiredKey
      (s!"issuance key with window end {key.windowEnd} is below the " ++
        "retention horizon"))
  else .ok ()

/-- Commit an immutable issuance; the second value says whether it was
created. -/
def commitIssuance (key : IssuanceKey) (bundle : Bundle) (models : List Model)
    (nowMs : ℕ) (store : Store) :
    Except Raised ((Issuance × Bool) × Store) := do
  let (iss, created) ← Rows.commitIssuance store.issuances
    (store.refuseRetired key) (expectedModels models) (store.issuanceSeq + 1)
    key bundle nowMs
  return ((iss, created), if created then store.appendIssuance iss else store)

/-- The committed issuance of a key, or the bundle committed now. -/
def getOrIssue (key : IssuanceKey) (bundle : Bundle) (models : List Model)
    (nowMs : ℕ) (store : Store) :
    Except Raised ((Issuance × Bool) × Store) := do
  let (iss, created) ← Rows.getOrIssue store.issuances
    (store.refuseRetired key) (expectedModels models) (store.issuanceSeq + 1)
    key bundle nowMs
  return ((iss, created), if created then store.appendIssuance iss else store)

def latestCheckpoint (store : Store) (ek : EvidenceKey) : Option Checkpoint :=
  (store.checkpoints ek).head?

/-- A new checkpoint row; the older ones beyond those kept go. -/
def pushCheckpoint (store : Store) (ek : EvidenceKey) (next : Checkpoint) :
    Store :=
  { store with
    checkpoints := Function.update store.checkpoints ek
      ((next :: store.checkpoints ek).take checkpointsKept) }

/-- A new checkpoint; one identical to the latest is not written. -/
def writeCheckpoint (ek : EvidenceKey) (state : EpochState)
    (lastOutcomeSeq : ℕ) (store : Store) : Except Raised (Unit × Store) := do
  let written ← Rows.writesCheckpoint
    ((store.latestCheckpoint ek).map fun cp => (cp.lastOutcomeSeq, cp.state))
    (lastOutcomeSeq, state)
  return ((), if written then store.pushCheckpoint ek ⟨lastOutcomeSeq, state⟩
    else store)

/-- The outcomes of an issuance, in commit order. -/
def outcomesOf (store : Store) (id : IssuanceKey) : List Outcome :=
  store.outcomes.filter fun o => o.issuanceId = id

/-- Every expected model has its terminal outcome, each folded into the
epoch's latest checkpoint. -/
def covered (store : Store) (iss : Issuance) : Bool :=
  let outs := store.outcomesOf iss.key
  let through := ((store.latestCheckpoint iss.key.evidenceKey).map
    Checkpoint.lastOutcomeSeq).getD 0
  decide (∀ model, model ∈ outs.map Rows.Outcome.model ↔ model ∈ iss.models) &&
    outs.all fun o => decide (o.seq ≤ through)

/-- The issuance ended below the horizon and may leave the journal. -/
def retired (store : Store) (horizon : ℕ) (iss : Issuance) : Bool :=
  decide (iss.key.windowEnd < horizon) && store.covered iss

/-- The retention of an epoch once its retired issuances are removed. -/
def retain (store : Store) (horizon : ℕ) (ek : EvidenceKey) :
    Option Retention :=
  let gone := store.issuances.filter fun iss =>
    decide (iss.key.evidenceKey = ek) && store.retired horizon iss
  if gone = [] then store.retention ek
  else
    some { gone.foldl (fun r iss => r.remove iss (store.outcomesOf iss.key))
        ((store.retention ek).getD {}) with
      throughWindowEnd := horizon }

/-- The issuance of an outcome is retired. -/
def outcomeRetired (store : Store) (horizon : ℕ) (o : Outcome) : Bool :=
  store.issuances.any fun iss =>
    decide (iss.key = o.issuanceId) && store.retired horizon iss

/-- Retire the windows that ended before the retention: remove the issuances
that the latest checkpoint covers, with their outcomes, and the observations
older than their own retention. -/
def compact (config : StoreConfig) (now : ℕ) (store : Store) : Store :=
  let horizon := now - config.retentionSeconds
  if horizon ≤ store.horizon then store
  else
    { store with
      horizon
      issuances := store.issuances.filter fun iss =>
        !store.retired horizon iss
      outcomes := store.outcomes.filter fun o =>
        !store.outcomeRetired horizon o
      retention := store.retain horizon
      observations := fun ek t =>
        if t + config.observationExtraSeconds < horizon then none
        else store.observations ek t }

end Store

end PredictiveAutoscaler.Forecasting
