/-
The journal of a chronological replay: the issuances, outcomes and checkpoints
of its evidence key, the first receipts of its observations and their
corrections.  Times are the integers of the source, which may be negative; a
digest stands for what it was computed from.
-/
import Mathlib.Data.List.Sort
import PredictiveAutoscaler.Forecasting.Contracts

namespace PredictiveAutoscaler.Evaluation

open Forecasting (Raised Truth BoundInfo bps)

/-- How a replay stops before its end. -/
inductive Failure
  | clockError (fromMs toMs : ℤ)
  | replayError (message : String)
  | raised (err : Raised)
deriving DecidableEq, Repr

/-- Every parameter of a replay. -/
structure ReplayConfig where
  firstOrigin : ℤ
  lastOrigin : ℤ
  leadSeconds : ℤ
  settlementSeconds : ℤ := 120
  outcomeGraceSeconds : ℤ := 600
  modelFamily : String := "seasonal_naive"
  modelRecipe : String := "replay-skeleton/daily-naive/v1"
  miscoverageBps : ℤ := 1000
  etaBps : ℤ := 50
  minMiscoverageBps : ℤ := 100
  maxMiscoverageBps : ℤ := 2500
  minWindows : ℤ := 128
  maxScores : ℤ := 512
  retentionSeconds : ℤ := 7 * 86400
deriving DecidableEq, Repr

/-- The body of a replay's settings hash. -/
structure ReplaySettings where
  config : ReplayConfig
  intervalSeconds : ℤ
deriving DecidableEq, Repr

/-- The body of a replay's evidence key; `dataset` is the manifest's digest. -/
structure EvidenceKey where
  dataset : String
  settings : ReplaySettings
deriving DecidableEq, Repr

/-- A valid issuance key; a window starts at its decision origin. -/
structure IssuanceKey where
  evidenceKey : EvidenceKey
  decisionOrigin : ℤ
  windowEnd : ℤ
  settings : ReplaySettings
  origin_nonneg : 0 ≤ decisionOrigin
  origin_lt : decisionOrigin < windowEnd

theorem IssuanceKey.eq_iff {a b : IssuanceKey} : a = b ↔
    a.evidenceKey = b.evidenceKey ∧ a.decisionOrigin = b.decisionOrigin ∧
      a.windowEnd = b.windowEnd ∧ a.settings = b.settings := by
  cases a
  cases b
  simp only [IssuanceKey.mk.injEq]

instance : DecidableEq IssuanceKey := fun _ _ =>
  decidable_of_iff _ IssuanceKey.eq_iff.symm

/-- The constructor of an invalid key raises. -/
def IssuanceKey.make (evidenceKey : EvidenceKey)
    (decisionOrigin windowStart windowEnd : ℤ) (settings : ReplaySettings) :
    Except Raised IssuanceKey :=
  if h : (0 ≤ decisionOrigin ∧ 0 ≤ windowStart ∧ 0 ≤ windowEnd) ∧
      windowStart = decisionOrigin ∧ windowStart < windowEnd then
    .ok ⟨evidenceKey, decisionOrigin, windowEnd, settings, h.1.1,
      h.2.1 ▸ h.2.2⟩
  else
    .error (.storeError
      "a window starts at its decision origin and ends after it")

/-- The policy, the records and the states of a replay. -/
abbrev CalibrationPolicy := Forecasting.Calibration.Policy ℤ

abbrev CalibrationRecord :=
  Forecasting.Calibration.Record ℤ EvidenceKey String IssuanceKey

abbrev CalibrationState :=
  Forecasting.Calibration.State ℤ EvidenceKey String

/-- `policy`: the constructor of an inconsistent one raises. -/
def ReplayConfig.policy (c : ReplayConfig) : Except Raised CalibrationPolicy :=
  if h : (0 < c.minMiscoverageBps ∧ c.minMiscoverageBps ≤ c.miscoverageBps ∧
      c.miscoverageBps ≤ c.maxMiscoverageBps ∧ c.maxMiscoverageBps < bps) ∧
      0 < c.leadSeconds ∧ 1 ≤ c.minWindows ∧ c.minWindows ≤ c.maxScores ∧
      0 ≤ c.etaBps ∧ c.etaBps ≤ bps then
    .ok
      { leadSeconds := c.leadSeconds
        nominalBps := c.miscoverageBps.toNat
        etaBps := c.etaBps.toNat
        minBps := c.minMiscoverageBps.toNat
        maxBps := c.maxMiscoverageBps.toNat
        minWindows := c.minWindows.toNat
        maxScores := c.maxScores.toNat
        retentionSeconds := c.retentionSeconds
        level_bounds := by omega
        leadSeconds_pos := h.2.1
        minWindows_pos := by omega
        minWindows_le := by omega
        etaBps_le := by omega }
  else
    .error (.valueError "inconsistent calibration policy")

/-- A replay's issuance bundle: one model, its trajectory and its bound. -/
structure Bundle where
  evidenceKey : EvidenceKey
  settings : ReplaySettings
  datasetSha256 : String
  modelFamily : String
  modelRecipe : String
  decisionOrigin : ℤ
  windowStart : ℤ
  windowEnd : ℤ
  targetTimestamps : List ℤ
  sampleIntervalSeconds : ℤ
  pointRps : List ℚ
  baseWindowMaxRps : ℚ
  upperWindowMaxRps : Option ℚ
  nominalMiscoverageBps : ℤ
  calibration : BoundInfo
  calibrationInCohort : Bool
  issuedAtMs : ℤ
  inputEnd : Option ℤ
  inputReceivedThroughMs : Option ℤ
deriving DecidableEq

instance : Rows.WindowKey IssuanceKey EvidenceKey ℤ :=
  ⟨IssuanceKey.evidenceKey, IssuanceKey.windowEnd⟩

abbrev Issuance := Rows.Issuance IssuanceKey Bundle String ℤ

/-- The payload of a scored window; the targets stand for their count and
digest. -/
structure ScoredPayload where
  targets : List ℤ
  yWindowMaxRps : ℚ
  baseWindowMaxRps : ℚ
  upperWindowMaxRps : Option ℚ
  covered : Option Bool
  residualRps : ℚ
  absErrorRps : ℚ
  values : List ℚ
  completedAtMs : ℤ
deriving DecidableEq, Repr

inductive OutcomePayload
  | scored (payload : ScoredPayload)
  | missingTruth (targets : List ℤ) (missingTargets : ℕ) (firstMissing : ℤ)
      (deadlineMs : ℤ)
  | excluded (targets : List ℤ) (excludedTargets : ℕ) (firstExcluded : ℤ)
      (exclusion : String) (deadlineMs : ℤ)
deriving DecidableEq, Repr

def OutcomePayload.targets : OutcomePayload → List ℤ
  | .scored p => p.targets
  | .missingTruth targets .. => targets
  | .excluded targets .. => targets

abbrev Outcome :=
  Rows.Outcome IssuanceKey EvidenceKey String OutcomePayload ℤ

/-- The counters over terminal outcomes and the calibration, as a checkpoint
keeps them with the tick that it completed. -/
structure ReplayState where
  scored : ℕ := 0
  unscorable : ℕ := 0
  excluded : ℕ := 0
  missingTruth : ℕ := 0
  covered : ℕ := 0
  missed : ℕ := 0
  unbounded : ℕ := 0
  absErrorSumRps : ℚ := 0
  lastWindowEnd : Option ℤ := none
  calibration : CalibrationState
  replayTick : Option ℤ := none
deriving DecidableEq, Repr

/-- A checkpoint; the state stands for its digest. -/
structure Checkpoint where
  evidenceKey : EvidenceKey
  lastOutcomeSeq : ℕ
  state : ReplayState
  createdAtMs : ℤ
deriving DecidableEq, Repr

/-- The first receipt of an event time. -/
structure Observed where
  value : ℚ
  firstReceivedMs : ℤ
  sourceSha256 : String
deriving DecidableEq, Repr

/-- A later value of an event time that was received before. -/
structure Correction where
  series : String
  eventTime : ℤ
  value : ℚ
  receivedMs : ℤ
  sourceSha256 : String
deriving DecidableEq, Repr

/-- A sample of a dataset and when it was received. -/
structure Observation where
  eventTime : ℤ
  valueRps : ℚ
  availableAtMs : ℤ
deriving DecidableEq, Repr

/-- The rows that a replay reads back; the checkpoints are listed newest
first. -/
structure Journal where
  issuances : List Issuance := []
  outcomes : List Outcome := []
  checkpoints : List Checkpoint := []
deriving DecidableEq

/-- The journal file.  A replay never compacts it, so its retention horizon is
zero, nothing is retired and rows are numbered by their place. -/
structure Store extends Journal where
  observations : String → ℤ → Option Observed := fun _ _ => none
  corrections : List Correction := []

/-- What the journal's digest covers: every row but its number. -/
structure JournalContent where
  issuances : List (IssuanceKey × Bundle × List String × ℤ)
  outcomes : List (IssuanceKey × String × OutcomePayload × ℤ)
  checkpoints : List (EvidenceKey × ℕ × ReplayState × ℤ)
  corrections : List Correction
  observations : String → ℤ → Option Observed

namespace Store

/-- `journal_digest`; the content stands for its digest. -/
def journalDigest (s : Store) : JournalContent :=
  { issuances := s.issuances.map fun i =>
      (i.key, i.bundle, i.models, i.committedAtMs)
    outcomes := s.outcomes.map fun o =>
      (o.issuanceId, o.model, o.payload, o.committedAtMs)
    checkpoints := s.checkpoints.reverse.map fun c =>
      (c.evidenceKey, c.lastOutcomeSeq, c.state, c.createdAtMs)
    corrections := s.corrections
    observations := s.observations }

/-- The first receipt is kept; a different later value is a correction. -/
def recordObservation (series source : String) (s : Store) (o : Observation) :
    Store :=
  match s.observations series o.eventTime with
  | none =>
      { s with
        observations := Function.update s.observations series
          (Function.update (s.observations series) o.eventTime
            (some ⟨o.valueRps, o.availableAtMs, source⟩)) }
  | some kept =>
      if kept.value = o.valueRps then s
      else
        { s with
          corrections := s.corrections ++
            [⟨series, o.eventTime, o.valueRps, o.availableAtMs, source⟩] }

/-- Record received samples in one transaction.  The format check on the
digest of their source is left out. -/
def recordObservations (series source : String) (samples : List Observation)
    (s : Store) : Except Raised (Unit × Store) :=
  if ∃ o ∈ samples, o.valueRps < 0 ∨ o.availableAtMs < 0 then
    .error (.storeError "invalid observation")
  else .ok ((), samples.foldl (recordObservation series source) s)

end Store

namespace Journal

/-- `get_issuance` and `get_issuance_by_id`. -/
def issuance? (j : Journal) (key : IssuanceKey) : Option Issuance :=
  Rows.issuance? j.issuances key

/-- The terminal outcome of one model of an issuance. -/
def outcome? (j : Journal) (id : IssuanceKey) (model : String) :
    Option Outcome :=
  Rows.outcome? j.outcomes id model

/-- The open issuances of an epoch, in window-end order. -/
def openIssuances (j : Journal) (ek : EvidenceKey) (model : String)
    (windowEndAtMost : ℤ) : List Issuance :=
  Rows.openIssuances j.issuances j.outcomes ek model windowEndAtMost

/-- The outcomes of an epoch after a sequence number. -/
def outcomesAfter (j : Journal) (ek : EvidenceKey) (after : ℕ) :
    List Outcome :=
  Rows.outcomesAfter j.outcomes ek after

/-- The one terminal outcome of an issuance and a model, and whether it was
created. -/
def commitOutcome (id : IssuanceKey) (model : String)
    (payload : OutcomePayload) (nowMs : ℤ) (j : Journal) :
    Except Raised ((Outcome × Bool) × Journal) := do
  let (o, created) ← Rows.commitOutcome j.issuances j.outcomes
    (j.outcomes.length + 1) id model payload nowMs
  return ((o, created),
    if created then { j with outcomes := j.outcomes ++ [o] } else j)

/-- `_MODEL`: one to thirty-two lower-case letters, digits or underscores; the
`$` of the pattern admits a final newline. -/
def modelName (name : String) : Bool :=
  let chars := name.toList
  let body := if chars.getLast? = some '\n' then chars.dropLast else chars
  decide (1 ≤ body.length ∧ body.length ≤ 32) &&
    body.all fun c => c.isLower || c.isDigit || c == '_'

/-- `_models`, for the one model of a replay. -/
def expectedModels (model : String) : Except Raised (List String) :=
  if modelName model then .ok [model]
  else .error (.storeError "models must be 1..3 distinct names")

/-- The committed issuance of a key, or the bundle committed now; no key is
retired. -/
def getOrIssue (key : IssuanceKey) (bundle : Bundle) (model : String)
    (nowMs : ℤ) (j : Journal) :
    Except Raised ((Issuance × Bool) × Journal) := do
  let (iss, created) ← Rows.getOrIssue j.issuances (.ok ())
    (expectedModels model) (j.issuances.length + 1) key bundle nowMs
  return ((iss, created),
    if created then { j with issuances := j.issuances ++ [iss] } else j)

def latestCheckpoint (j : Journal) (ek : EvidenceKey) : Option Checkpoint :=
  j.checkpoints.find? fun c => c.evidenceKey = ek

/-- The newest `n` checkpoints of a key and all of the other keys. -/
def keepNewest (ek : EvidenceKey) : ℕ → List Checkpoint → List Checkpoint
  | _, [] => []
  | n, c :: rest =>
      if c.evidenceKey ≠ ek then c :: keepNewest ek n rest
      else
        match n with
        | 0 => keepNewest ek 0 rest
        | m + 1 => c :: keepNewest ek m rest

/-- A new checkpoint, `CHECKPOINTS_KEPT` of them kept; one identical to the
latest is not written. -/
def writeCheckpoint (ek : EvidenceKey) (state : ReplayState)
    (lastOutcomeSeq : ℕ) (nowMs : ℤ) (j : Journal) :
    Except Raised (Unit × Journal) := do
  let written ← Rows.writesCheckpoint
    ((j.latestCheckpoint ek).map fun cp => (cp.lastOutcomeSeq, cp.state))
    (lastOutcomeSeq, state)
  return ((), if written then
      { j with
        checkpoints := keepNewest ek 3
          (⟨ek, lastOutcomeSeq, state, nowMs⟩ :: j.checkpoints) }
    else j)

variable {j j' : Journal} {model : String} {nowMs : ℤ}

theorem outcome?_append (j : Journal) (o : Outcome) (id : IssuanceKey)
    (model : String) :
    ({ j with outcomes := j.outcomes ++ [o] } : Journal).outcome? id model =
      (j.outcome? id model).or
        (if o.issuanceId = id ∧ o.model = model then some o else none) :=
  Rows.outcome?_append o

/-- An outcome is returned when it is there, and appended when it is not. -/
theorem commitOutcome_cases {id : IssuanceKey} {payload : OutcomePayload}
    {a : Outcome × Bool}
    (h : j.commitOutcome id model payload nowMs = .ok (a, j')) :
    (∃ o, j.outcome? id model = some o ∧ o.payload = payload ∧
      a = (o, false) ∧ j' = j) ∨
    (j.outcome? id model = none ∧ ∃ iss, j.issuance? id = some iss ∧
      iss.key.windowEnd * 1000 ≤ nowMs ∧
      a = (⟨j.outcomes.length + 1, id, iss.key.evidenceKey,
        iss.key.windowEnd, model, payload, nowMs⟩, true) ∧
      j' = { j with outcomes := j.outcomes ++ [a.1] }) := by
  obtain ⟨⟨o, created⟩, hrows, hpair⟩ :=
    Forecasting.Except.bind_eq_ok_iff.mp h
  cases hpair
  rcases Rows.commitOutcome_cases hrows with
    ⟨rfl, hfound, hpayload⟩ | ⟨rfl, hopen, iss, hiss, -, hended, rfl⟩
  · exact .inl ⟨o, hfound, hpayload, rfl, rfl⟩
  · obtain rfl := Rows.issuance?_key hiss
    exact .inr ⟨hopen, iss, hiss, hended, rfl, rfl⟩

/-- A committed outcome is there, with its payload. -/
theorem commitOutcome_outcome? {id : IssuanceKey} {payload : OutcomePayload}
    {a : Outcome × Bool}
    (h : j.commitOutcome id model payload nowMs = .ok (a, j')) :
    j'.outcome? id model = some a.1 ∧ a.1.payload = payload := by
  rcases commitOutcome_cases h with
    ⟨o, hfind, hpayload, rfl, rfl⟩ | ⟨hfind, iss, -, -, rfl, rfl⟩
  · exact ⟨hfind, hpayload⟩
  · rw [outcome?_append, hfind]
    exact ⟨by simp, rfl⟩

/-- The same payload again returns what is there. -/
theorem commitOutcome_of_outcome? {id : IssuanceKey} {o : Outcome}
    (h : j.outcome? id model = some o) :
    j.commitOutcome id model o.payload nowMs = .ok ((o, false), j) := by
  unfold commitOutcome
  rw [Rows.commitOutcome_found h, if_neg (not_not.mpr rfl)]
  rfl

theorem issuance?_append (j : Journal) (iss : Issuance) (key : IssuanceKey) :
    ({ j with issuances := j.issuances ++ [iss] } : Journal).issuance? key =
      (j.issuance? key).or (if iss.key = key then some iss else none) :=
  Rows.issuance?_append iss

/-- An issuance is returned when its key is there, and appended when it is
not. -/
theorem getOrIssue_cases {key : IssuanceKey} {bundle : Bundle}
    {a : Issuance × Bool}
    (h : j.getOrIssue key bundle model nowMs = .ok (a, j')) :
    expectedModels model = .ok [model] ∧
      ((∃ iss, j.issuance? key = some iss ∧ iss.models = [model] ∧
        a = (iss, false) ∧ j' = j) ∨
      (j.issuance? key = none ∧
        a = (⟨j.issuances.length + 1, key, bundle, [model], nowMs⟩, true) ∧
        j' = { j with issuances := j.issuances ++ [a.1] })) := by
  obtain ⟨⟨iss, created⟩, hrows, hpair⟩ :=
    Forecasting.Except.bind_eq_ok_iff.mp h
  cases hpair
  obtain ⟨models, hmodels, hcases⟩ := Rows.getOrIssue_cases hrows
  have hone : models = [model] := by
    unfold expectedModels at hmodels
    split at hmodels
    · exact (Except.ok.inj hmodels).symm
    · cases hmodels
  subst hone
  refine ⟨hmodels, ?_⟩
  rcases hcases with ⟨rfl, hfound, hsame⟩ | ⟨rfl, hnone, -, rfl⟩
  · exact .inl ⟨iss, hfound, hsame, rfl, rfl⟩
  · exact .inr ⟨hnone, rfl, rfl⟩

/-- A retry returns the committed issuance. -/
theorem getOrIssue_again {key : IssuanceKey} {bundle : Bundle}
    {a : Issuance × Bool}
    (h : j.getOrIssue key bundle model nowMs = .ok (a, j')) :
    j'.getOrIssue key bundle model nowMs = .ok ((a.1, false), j') := by
  obtain ⟨hmodels, hcases⟩ := getOrIssue_cases h
  have hfind : j'.issuance? key = some a.1 ∧ a.1.models = [model] := by
    rcases hcases with ⟨iss, hfind, hsame, rfl, rfl⟩ | ⟨hfind, rfl, rfl⟩
    · exact ⟨hfind, hsame⟩
    · rw [issuance?_append, hfind]
      exact ⟨by simp, rfl⟩
  unfold getOrIssue
  rw [Rows.getOrIssue_found hfind.1 hmodels, if_neg (not_not.mpr hfind.2)]
  rfl

/-- A written checkpoint is the latest one; the other rows stay. -/
theorem writeCheckpoint_spec {ek : EvidenceKey} {state : ReplayState}
    {last : ℕ} {u : Unit}
    (h : j.writeCheckpoint ek state last nowMs = .ok (u, j')) :
    j'.issuances = j.issuances ∧ j'.outcomes = j.outcomes ∧
      ∃ cp, j'.latestCheckpoint ek = some cp ∧ cp.state = state ∧
        cp.lastOutcomeSeq = last := by
  have hpushed : ∀ rows : List Checkpoint,
      (keepNewest ek 3 (⟨ek, last, state, nowMs⟩ :: rows)).find?
        (fun c => c.evidenceKey = ek) = some ⟨ek, last, state, nowMs⟩ := by
    intro rows
    rw [keepNewest, if_neg (not_not.mpr rfl), List.find?_cons_of_pos]
    exact decide_eq_true rfl
  obtain ⟨written, hrows, hpair⟩ := Forecasting.Except.bind_eq_ok_iff.mp h
  cases hpair
  rcases Rows.writesCheckpoint_cases hrows with ⟨rfl, hsame⟩ | ⟨rfl, -⟩
  · obtain ⟨latest, hlatest, hsame⟩ := Option.map_eq_some_iff.mp hsame
    rw [Prod.mk.injEq] at hsame
    exact ⟨rfl, rfl, latest, hlatest, hsame.2, hsame.1⟩
  · exact ⟨rfl, rfl, _, hpushed j.checkpoints, rfl, rfl⟩

end Journal

end PredictiveAutoscaler.Evaluation
