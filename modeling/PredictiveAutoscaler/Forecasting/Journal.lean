/-
The journal's rows: immutable issuance bundles and terminal outcomes, in
commit order, and the evidence record of an outcome.  A record is built only
from an outcome that agrees with its issuance.
-/
import PredictiveAutoscaler.Forecasting.JournalRows
import PredictiveAutoscaler.Forecasting.Trust

namespace PredictiveAutoscaler.Forecasting

/-- One model's issued values. -/
structure IssuedCandidate where
  recipe : String
  pointRps : List ℚ
  baseWindowMaxRps : ℚ
  upperWindowMaxRps : Option ℚ
  calibration : BoundInfo
  fitCutoff : Option ℕ
  artifactSha256 : Option String
deriving DecidableEq

/-- What a bundle keeps of a candidate's verdict. -/
structure IssuedVerdict where
  trusted : Bool
  phase : Phase
  reason : Reason
  coverageGate : Option ℚ
  availability : Option ℚ
  prospectiveGateBounds : ℕ
  evidenceCutoff : Option ℕ
deriving DecidableEq

/-- Calibration and evidence of one model under one recipe. -/
structure ModelState where
  recipe : String
  calibration : CalibrationState
  ledger : Ledger
deriving DecidableEq

/-- The state of one evidence key, as a checkpoint keeps it; `pairs` is the
paired evidence of the statistical challenger. -/
structure EpochState where
  epoch : EvidenceKey
  lastOutcomeSeq : ℕ := 0
  lastIssuanceSeq : ℕ := 0
  models : Model → Option ModelState := fun _ => none
  trust : TrustState := {}
  pairs : Pairs
deriving DecidableEq

/-- An immutable issuance bundle; the checkpoint it was decided from stands for
its digest. -/
structure Bundle where
  evidenceMode : EvidenceMode
  evidenceKey : EvidenceKey
  settings : ForecastSettings
  decisionOrigin : ℕ
  windowEnd : ℕ
  targetTimestamps : List ℕ
  sampleIntervalSeconds : ℕ
  leadSeconds : ℕ
  startupDelaySeconds : ℕ
  actuationAllowanceSeconds : ℕ
  validUntil : ℤ
  inputEnd : ℕ
  inputReceivedThroughMs : ℕ
  nominalMiscoverageBps : ℕ
  candidates : Model → Option IssuedCandidate
  selected : Option Model
  phase : Phase
  reason : Reason
  predictionReady : Bool
  verdicts : Model → Option IssuedVerdict
  issuedAtMs : ℕ
  checkpoint : EpochState
deriving DecidableEq

instance : Rows.WindowKey IssuanceKey EvidenceKey ℕ :=
  ⟨IssuanceKey.evidenceKey, IssuanceKey.windowEnd⟩

abbrev Issuance := Rows.Issuance IssuanceKey Bundle Model ℕ

/-- The payload of a scored window; the targets stand for their count and
digest. -/
structure ScoredPayload where
  targets : List ℕ
  yWindowMaxRps : ℚ
  baseWindowMaxRps : ℚ
  upperWindowMaxRps : Option ℚ
  values : List ℚ
  completedAtMs : ℕ
deriving DecidableEq

/-- The payload of a window that closed without its truth. -/
structure UnscorablePayload where
  targets : List ℕ
  missingTargets : ℕ
  firstMissing : ℕ
  deadlineMs : ℕ
deriving DecidableEq

inductive OutcomePayload
  | scored (payload : ScoredPayload)
  | unscorable (payload : UnscorablePayload)
deriving DecidableEq

def OutcomePayload.targets : OutcomePayload → List ℕ
  | .scored p => p.targets
  | .unscorable p => p.targets

abbrev Outcome :=
  Rows.Outcome IssuanceKey EvidenceKey Model OutcomePayload ℕ

/-- `candidate`: one model's issued values in a bundle. -/
def Bundle.candidate (b : Bundle) (model : Model) :
    Except Raised IssuedCandidate :=
  match b.candidates model with
  | some c => .ok c
  | none => .error (.valueError ("the issuance has no candidate " ++ model.name))

/-- The grid of a window: every step after the origin up to the end. -/
def windowGrid (origin windowEnd dt : ℕ) : List ℕ :=
  (List.range ((windowEnd - origin) / dt)).map fun k => origin + (k + 1) * dt

/-- The truth an outcome scored, checked against what was issued. -/
def OutcomePayload.truth (p : OutcomePayload) (c : IssuedCandidate) :
    Except Raised Truth :=
  match p with
  | .unscorable _ => .ok .unscorable
  | .scored p =>
      if (p.baseWindowMaxRps, p.upperWindowMaxRps) ≠
          (c.baseWindowMaxRps, c.upperWindowMaxRps) then
        .error (.calibrationError
          "the outcome was not scored against the bound that was issued")
      else .ok (.scored p.yWindowMaxRps)

/-- `CalibrationRecord.from_journal`: refuses an outcome that does not agree
with its issuance. -/
def CalibrationRecord.fromJournal (issuance : Issuance) (outcome : Outcome) :
    Except Raised CalibrationRecord :=
  let b := issuance.bundle
  let key := issuance.key
  if outcome.issuanceId ≠ key ∨ outcome.evidenceKey ≠ key.evidenceKey ∨
      outcome.windowEnd ≠ key.windowEnd then
    .error (.calibrationError "the outcome does not belong to this issuance")
  else if b.decisionOrigin ≠ key.decisionOrigin ∨ b.targetTimestamps ≠
      windowGrid key.decisionOrigin key.windowEnd b.sampleIntervalSeconds then
    .error (.calibrationError
      "the issuance's targets are not exactly its window's grid")
  else if outcome.model ∉ issuance.models then
    .error (.calibrationError ("the issuance expected no outcome for model " ++
      outcome.model.name))
  else
    match b.candidates outcome.model with
    | none =>
        .error (.calibrationError
          ("the issuance has no candidate " ++ outcome.model.name))
    | some c =>
        if c.pointRps.length ≠ b.targetTimestamps.length then
          .error (.calibrationError
            "the candidate's trajectory does not cover the issued targets")
        else if outcome.payload.targets ≠ b.targetTimestamps then
          .error (.calibrationError
            "the outcome was not matured on the issued target grid")
        else do
          let truth ← outcome.payload.truth c
          return ⟨outcome.seq, key.evidenceKey, outcome.model, c.recipe, key,
            key.decisionOrigin, key.windowEnd, c.baseWindowMaxRps,
            c.upperWindowMaxRps, truth⟩

/-- An outcome that agrees with its issuance: scored or closed on the issued
grid, against the values the model issued. -/
structure Agrees (issuance : Issuance) (outcome : Outcome)
    (c : IssuedCandidate) (truth : Truth) : Prop where
  id_eq : outcome.issuanceId = issuance.key
  evidenceKey_eq : outcome.evidenceKey = issuance.key.evidenceKey
  windowEnd_eq : outcome.windowEnd = issuance.key.windowEnd
  origin_eq : issuance.bundle.decisionOrigin = issuance.key.decisionOrigin
  grid_eq : issuance.bundle.targetTimestamps =
    windowGrid issuance.key.decisionOrigin issuance.key.windowEnd
      issuance.bundle.sampleIntervalSeconds
  model_mem : outcome.model ∈ issuance.models
  candidate_eq : issuance.bundle.candidates outcome.model = some c
  points_eq : c.pointRps.length = issuance.bundle.targetTimestamps.length
  targets_eq : outcome.payload.targets = issuance.bundle.targetTimestamps
  truth_eq : outcome.payload.truth c = .ok truth

/-- The calibration record of an outcome that agrees with its issuance. -/
def calibrationRecord (issuance : Issuance) (outcome : Outcome)
    (c : IssuedCandidate) (truth : Truth) : CalibrationRecord :=
  ⟨outcome.seq, issuance.key.evidenceKey, outcome.model, c.recipe,
    issuance.key, issuance.key.decisionOrigin, issuance.key.windowEnd,
    c.baseWindowMaxRps, c.upperWindowMaxRps, truth⟩

/-- A calibration record is built exactly from an outcome that agrees with its
issuance. -/
theorem CalibrationRecord.fromJournal_eq_ok_iff {issuance : Issuance}
    {outcome : Outcome} {record : CalibrationRecord} :
    CalibrationRecord.fromJournal issuance outcome = .ok record ↔
      ∃ c truth, Agrees issuance outcome c truth ∧
        record = calibrationRecord issuance outcome c truth := by
  constructor
  · intro h
    unfold CalibrationRecord.fromJournal at h
    simp only at h
    split at h
    · cases h
    rename_i hbelongs
    split at h
    · cases h
    rename_i hgrid
    split at h
    · cases h
    rename_i hmodel
    split at h
    · cases h
    rename_i c hcandidate
    split at h
    · cases h
    rename_i hpoints
    split at h
    · cases h
    rename_i htargets
    simp only [not_or, ne_eq, not_not] at hbelongs hgrid hmodel hpoints htargets
    cases htruth : outcome.payload.truth c with
    | error raised => rw [htruth] at h; cases h
    | ok truth =>
        rw [htruth] at h
        refine ⟨c, truth, ⟨hbelongs.1, hbelongs.2.1, hbelongs.2.2, hgrid.1,
          hgrid.2, hmodel, hcandidate, hpoints, htargets, htruth⟩, ?_⟩
        exact (Except.ok.inj h).symm
  · rintro ⟨c, truth, hagrees, rfl⟩
    have hpoints := hagrees.points_eq
    rw [hagrees.grid_eq] at hpoints
    unfold CalibrationRecord.fromJournal
    simp only [hagrees.id_eq, hagrees.evidenceKey_eq, hagrees.windowEnd_eq,
      hagrees.origin_eq, hagrees.grid_eq, hagrees.model_mem,
      hagrees.candidate_eq, hagrees.targets_eq, hagrees.truth_eq,
      hpoints, ne_eq, not_true_eq_false, or_self, if_false]
    rfl

/-- The absolute errors at the first, the middle and the last target. -/
def stepErrors (points values : List ℚ) : ℚ × ℚ × ℚ :=
  let error := fun i => |binary64 (points.getD i 0 - values.getD i 0)|
  (error 0, error (values.length / 2), error (values.length - 1))

/-- `EvidenceRecord.from_journal`. -/
def EvidenceRecord.fromJournal (issuance : Issuance) (outcome : Outcome) :
    Except Raised EvidenceRecord := do
  let cal ← CalibrationRecord.fromJournal issuance outcome
  let record : Option (ℚ × ℚ × ℚ) → EvidenceRecord := fun steps =>
    ⟨cal, issuance.bundle.evidenceMode, outcome.committedAtMs, steps⟩
  match outcome.payload with
  | .unscorable _ => return record none
  | .scored p =>
      let c ← issuance.bundle.candidate outcome.model
      if c.pointRps.length ≠ p.values.length then
        .error (.trustError
          "the outcome's values do not match the issued trajectory")
      else return record (some (stepErrors c.pointRps p.values))

end PredictiveAutoscaler.Forecasting
