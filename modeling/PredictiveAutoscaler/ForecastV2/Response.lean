/-
Forecast contract v2, the operator's side: the answer of the forecasting
service as the operator decodes it, its coherence, its binding to the request
that was sent, and the operator's verdict on it.
-/
import PredictiveAutoscaler.ForecastV2.Lead
import PredictiveAutoscaler.Json
import PredictiveAutoscaler.TimeText

namespace PredictiveAutoscaler

/-- The targets `t + Δ` to `t + L` of a decision at origin `t`. -/
def V2Window.targets (w : V2Window) : List ℤ :=
  (List.range (w.lead.tdiv w.interval).toNat).map fun k =>
    w.origin + (k + 1) * w.interval

namespace ForecastV2

def v2Phases : List String :=
  ["Collecting", "Calibrating", "Shadow", "Trusted", "Degraded"]

def v2Reasons : List String :=
  ["HistoryInsufficient", "CalibrationInsufficient", "ShadowInsufficient",
    "CoverageLow", "DataUnavailable", "IdentityMismatch", "StateUnavailable",
    "LeadInsufficient", "ReplayGateMissing", "Ready"]

def v2ModelFamilies : List String := ["seasonal_naive", "statistical", "lstm"]

/-- An issuance may be this far ahead of the operator's clock. -/
def v2IssueClockSkewMs : ℤ := 2000

/-- `[0-9a-f]` -/
def isHexDigit (c : Char) : Bool :=
  (48 ≤ c.toNat && c.toNat ≤ 57) || (97 ≤ c.toNat && c.toNat ≤ 102)

/-- `^[0-9a-f]{64}$`; the pattern's end is the end of the text. -/
def v2SHA256 (s : String) : Bool :=
  decide (s.toList.length = 64) && s.toList.all isHexDigit

/-- `time.Date`: a month out of its range carries into the year. -/
def timeDate (t : CivilTime) : ℤ :=
  (dayNumber (t.year + (t.month - 1) / 12) ((t.month - 1) % 12 + 1) 1 +
    (t.day - 1)) * 86400 + t.hour * 3600 + t.minute * 60 + t.second

/-- Nothing was carried. -/
def v2Civil (t : CivilTime) (what text : String) : Except String ℤ :=
  let n := timeDate t
  if civilOf n ≠ t then
    .error s!"{what} \"{text}\" is not a valid date and time"
  else .ok n

def v2ParseTS (text what : String) : Except String ℤ :=
  match matchSlots asciiDigit gridTime text.toList with
  | none =>
      .error (s!"{what} \"{text}\" is not an RFC 3339 UTC grid time (whole " ++
        "seconds, Z)")
  | some ds => v2Civil (civilOfDigits ds) what text

def v2ParseMS (text what : String) : Except String ℤ :=
  match matchSlots asciiDigit milliTime text.toList with
  | none =>
      .error s!"{what} \"{text}\" is not an RFC 3339 UTC time with milliseconds"
  | some ds => do
      let s ← v2Civil (civilOfDigits ds) what text
      return s * 1000 + groupValue (ds.drop 14)

theorem timeDate_eq_unix {t : CivilTime} (h : t.Valid) :
    timeDate t = t.unix := by
  have hmonth := h.month_pos
  have hmonth' := h.month_le
  have hyear : t.year + (t.month - 1) / 12 = t.year := by omega
  have hcarry : (t.month - 1) % 12 + 1 = t.month := by omega
  simp only [timeDate, hyear, hcarry, CivilTime.unix, dayNumber]
  ring

/-- What is not carried is valid. -/
theorem v2Civil_eq_ok {t : CivilTime} {what text : String} {n : ℤ} :
    v2Civil t what text = .ok n ↔ t.Valid ∧ n = t.unix := by
  unfold v2Civil
  dsimp only
  constructor
  · intro h
    split at h
    · cases h
    · rename_i heq
      have heq := not_not.mp heq
      have hvalid : t.Valid := heq ▸ CivilTime.civilOf_valid (timeDate t)
      cases h
      exact ⟨hvalid, timeDate_eq_unix hvalid⟩
  · rintro ⟨hvalid, rfl⟩
    rw [timeDate_eq_unix hvalid, CivilTime.civilOf_unix hvalid,
      if_neg (not_not.mpr rfl)]

/-- What the answer is for. -/
structure V2Identity where
  autoscalerNamespace : String
  autoscalerName : String
  autoscalerUID : String
  autoscalerGeneration : ℤ
  targetNamespace : String
  targetName : String
  targetUID : String
  metricQuerySHA256 : String
  contract : String
  settingsSHA256 : String
  forecastContract : String
  unit : String
deriving DecidableEq, Repr

/-- How the answer came about. -/
structure V2Issuance where
  issuanceID : String
  issuedAtMs : ℤ
  inputEnd : ℤ
  inputReceivedThroughMs : ℤ
  fitCutoff : Option ℤ
  modelFamily : String
  modelRecipe : String
  artifactSHA256 : Option String
  calibrationEpoch : String
  checkpointSHA256 : Option String
deriving DecidableEq, Repr

/-- The window and the lead it was chosen for. -/
structure V2Grid where
  decisionOrigin : ℤ
  windowStart : ℤ
  windowEnd : ℤ
  sampleIntervalSeconds : ℤ
  leadSeconds : ℤ
  startupDelaySeconds : ℤ
  actuationAllowanceSeconds : ℤ
  validUntil : ℤ
deriving DecidableEq, Repr

structure V2Bounds where
  baseWindowMaxRPS : ℚ
  upperWindowMaxRPS : Option ℚ
  nominalMiscoverageBps : ℤ
  workingMiscoverageRatio : Option ℚ
deriving DecidableEq, Repr

structure V2Evidence where
  calibrationWindows : ℤ
  prospectiveWindows : ℤ
  gateCoverageRatio : Option ℚ
  missingOutcomeRatio : Option ℚ
  selectedCandidate : String
  trustState : String
  reason : String
  evidenceCutoff : Option ℤ
deriving DecidableEq, Repr

/-- A decoded answer.  Times are epoch seconds or milliseconds. -/
structure V2Response extends V2Identity, V2Issuance, V2Grid, V2Bounds,
    V2Evidence where
  predictiveEligible : Bool
  targetTimestamps : List ℤ
  pointRPS : List ℚ
deriving DecidableEq, Repr

/-- The wire key set. -/
def v2ResponseFields : List String :=
  ["autoscaler_namespace", "autoscaler_name", "autoscaler_uid",
    "autoscaler_generation", "target_namespace", "target_name", "target_uid",
    "metric_query_sha256", "contract", "settings_sha256", "forecast_contract",
    "unit", "issuance_id", "issued_at", "input_end", "input_received_through",
    "fit_cutoff", "model_family", "model_recipe", "artifact_sha256",
    "calibration_epoch", "checkpoint_sha256", "decision_origin",
    "window_start", "window_end", "target_timestamps",
    "sample_interval_seconds", "lead_seconds", "startup_delay_seconds",
    "actuation_allowance_seconds", "valid_until", "point_rps",
    "base_window_max_rps", "upper_window_max_rps", "nominal_miscoverage_bps",
    "working_miscoverage_ratio", "calibration_windows", "prospective_windows",
    "gate_coverage_ratio", "missing_outcome_ratio", "selected_candidate",
    "trust_state", "reason", "predictive_eligible", "evidence_cutoff"]

/-- What `json.Unmarshal` stores in a string: null leaves it empty. -/
def textOf : Json → Option String
  | .str s => some s
  | .null => some ""
  | _ => none

/-- The readers of a member, by its name and its value. -/
def v2Str (k : String) (j : Json) : Except String String :=
  match textOf j with
  | some s => .ok s
  | none => .error s!"{k} is not a string"

/-- The literal must be an integer, of 64 bits. -/
def v2Integer (k : String) : Json → Except String ℤ
  | .num (.int n) =>
      if -2 ^ 63 ≤ n ∧ n < 2 ^ 63 then .ok n
      else .error s!"{k} is out of range"
  | _ => .error s!"{k} is not an integer"

def v2Number : Json → Option ℚ
  | .num (.int n) => parseFloat n
  | .num (.decimal q) => parseFloat q
  | _ => none

def v2Float (k : String) (j : Json) : Except String ℚ :=
  match v2Number j with
  | some v => .ok v
  | none => .error s!"{k} is not a finite number"

def v2GridTime (k : String) (j : Json) : Except String ℤ := do
  let text ← v2Str k j
  v2ParseTS text k

def v2MilliTime (k : String) (j : Json) : Except String ℤ := do
  let text ← v2Str k j
  v2ParseMS text k

/-- A member that may be null. -/
def v2Optional {α : Type} (read : String → Json → Except String α)
    (k : String) : Json → Except String (Option α)
  | .null => .ok none
  | j => some <$> read k j

/-- What `json.Unmarshal` stores in a bool: null leaves it false. -/
def v2Bool (k : String) : Json → Except String Bool
  | .bool b => .ok b
  | .null => .ok false
  | _ => .error s!"{k} is not a boolean"

def v2Targets (j : Json) : Except String (List ℤ) :=
  let texts :=
    match j with
    | .arr items => items.mapM textOf
    | _ => none
  match texts with
  | none => .error "target_timestamps is not an array of times"
  | some texts => do
      failIf (v2MaxSteps < texts.length)
        s!"target_timestamps holds more than {v2MaxSteps} steps"
      texts.mapM fun t => v2ParseTS t "target timestamp"

def v2Points : Json → Except String (List ℚ)
  | .arr items => do
      failIf (v2MaxSteps < items.length)
        s!"point_rps holds more than {v2MaxSteps} steps"
      match items.mapM v2Number with
      | some points => return points
      | none => .error "point_rps holds a value that is not a finite number"
  | _ => .error "point_rps is not an array"

/-- The value of a member that is there. -/
def member (w : List (String × Json)) (k : String) : Json :=
  (lastMember k w).getD .null

section Decode

variable (w : List (String × Json))

def decodeIdentity : Except String V2Identity := do
  let read {α : Type} (f : String → Json → Except String α) (k : String) :=
    f k (member w k)
  let autoscalerNamespace ← read v2Str "autoscaler_namespace"
  let autoscalerName ← read v2Str "autoscaler_name"
  let autoscalerUID ← read v2Str "autoscaler_uid"
  let autoscalerGeneration ← read v2Integer "autoscaler_generation"
  let targetNamespace ← read v2Str "target_namespace"
  let targetName ← read v2Str "target_name"
  let targetUID ← read v2Str "target_uid"
  let metricQuerySHA256 ← read v2Str "metric_query_sha256"
  let contract ← read v2Str "contract"
  let settingsSHA256 ← read v2Str "settings_sha256"
  let forecastContract ← read v2Str "forecast_contract"
  let unit ← read v2Str "unit"
  return ⟨autoscalerNamespace, autoscalerName, autoscalerUID,
    autoscalerGeneration, targetNamespace, targetName, targetUID,
    metricQuerySHA256, contract, settingsSHA256, forecastContract, unit⟩

def decodeIssuance : Except String V2Issuance := do
  let read {α : Type} (f : String → Json → Except String α) (k : String) :=
    f k (member w k)
  let issuanceID ← read v2Str "issuance_id"
  let issuedAtMs ← read v2MilliTime "issued_at"
  let inputEnd ← read v2GridTime "input_end"
  let inputReceivedThroughMs ← read v2MilliTime "input_received_through"
  let fitCutoff ← read (v2Optional v2GridTime) "fit_cutoff"
  let modelFamily ← read v2Str "model_family"
  let modelRecipe ← read v2Str "model_recipe"
  let artifactSHA256 ← read (v2Optional v2Str) "artifact_sha256"
  let calibrationEpoch ← read v2Str "calibration_epoch"
  let checkpointSHA256 ← read (v2Optional v2Str) "checkpoint_sha256"
  return ⟨issuanceID, issuedAtMs, inputEnd, inputReceivedThroughMs, fitCutoff,
    modelFamily, modelRecipe, artifactSHA256, calibrationEpoch,
    checkpointSHA256⟩

def decodeGrid : Except String V2Grid := do
  let read {α : Type} (f : String → Json → Except String α) (k : String) :=
    f k (member w k)
  let decisionOrigin ← read v2GridTime "decision_origin"
  let windowStart ← read v2GridTime "window_start"
  let windowEnd ← read v2GridTime "window_end"
  let sampleIntervalSeconds ← read v2Integer "sample_interval_seconds"
  let leadSeconds ← read v2Integer "lead_seconds"
  let startupDelaySeconds ← read v2Integer "startup_delay_seconds"
  let actuationAllowanceSeconds ← read v2Integer "actuation_allowance_seconds"
  let validUntil ← read v2GridTime "valid_until"
  return ⟨decisionOrigin, windowStart, windowEnd, sampleIntervalSeconds,
    leadSeconds, startupDelaySeconds, actuationAllowanceSeconds, validUntil⟩

def decodeBounds : Except String V2Bounds := do
  let read {α : Type} (f : String → Json → Except String α) (k : String) :=
    f k (member w k)
  let baseWindowMaxRPS ← read v2Float "base_window_max_rps"
  let upperWindowMaxRPS ← read (v2Optional v2Float) "upper_window_max_rps"
  let nominalMiscoverageBps ← read v2Integer "nominal_miscoverage_bps"
  let workingMiscoverageRatio ←
    read (v2Optional v2Float) "working_miscoverage_ratio"
  return ⟨baseWindowMaxRPS, upperWindowMaxRPS, nominalMiscoverageBps,
    workingMiscoverageRatio⟩

def decodeEvidence : Except String V2Evidence := do
  let read {α : Type} (f : String → Json → Except String α) (k : String) :=
    f k (member w k)
  let calibrationWindows ← read v2Integer "calibration_windows"
  let prospectiveWindows ← read v2Integer "prospective_windows"
  let gateCoverageRatio ← read (v2Optional v2Float) "gate_coverage_ratio"
  let missingOutcomeRatio ← read (v2Optional v2Float) "missing_outcome_ratio"
  let selectedCandidate ← read v2Str "selected_candidate"
  let trustState ← read v2Str "trust_state"
  let reason ← read v2Str "reason"
  let evidenceCutoff ← read (v2Optional v2GridTime) "evidence_cutoff"
  return ⟨calibrationWindows, prospectiveWindows, gateCoverageRatio,
    missingOutcomeRatio, selectedCandidate, trustState, reason,
    evidenceCutoff⟩

/-- Every field is there, and no other. -/
def checkFields : Except String Unit :=
  match v2ResponseFields.find? fun k => k ∉ w.map Prod.fst with
  | some k => .error s!"field {k} is missing"
  | none =>
      match (w.map Prod.fst).find? fun k => k ∉ v2ResponseFields with
      | some k => .error s!"unknown field {k}"
      | none => .ok ()

/-- The record of an answer's members, before its coherence is checked. -/
def decodeMembers : Except String V2Response := do
  checkFields w
  let identity ← decodeIdentity w
  let issuance ← decodeIssuance w
  let grid ← decodeGrid w
  let bounds ← decodeBounds w
  let evidence ← decodeEvidence w
  let predictiveEligible ←
    v2Bool "predictive_eligible" (member w "predictive_eligible")
  let targetTimestamps ← v2Targets (member w "target_timestamps")
  let pointRPS ← v2Points (member w "point_rps")
  return ⟨identity, issuance, grid, bounds, evidence, predictiveEligible,
    targetTimestamps, pointRPS⟩

end Decode

namespace V2Response

variable (r : V2Response)

def window : V2Window :=
  ⟨r.decisionOrigin, r.sampleIntervalSeconds, r.leadSeconds⟩

/-- The fields that must not be negative, by their names. -/
def counts : List (String × ℤ) :=
  [("autoscaler_generation", r.autoscalerGeneration),
    ("sample_interval_seconds", r.sampleIntervalSeconds),
    ("lead_seconds", r.leadSeconds),
    ("startup_delay_seconds", r.startupDelaySeconds),
    ("actuation_allowance_seconds", r.actuationAllowanceSeconds),
    ("nominal_miscoverage_bps", r.nominalMiscoverageBps),
    ("calibration_windows", r.calibrationWindows),
    ("prospective_windows", r.prospectiveWindows),
    ("issued_at", r.issuedAtMs),
    ("input_received_through", r.inputReceivedThroughMs),
    ("input_end", r.inputEnd), ("decision_origin", r.decisionOrigin),
    ("window_start", r.windowStart), ("window_end", r.windowEnd),
    ("valid_until", r.validUntil)]

def checkCounts : Except String Unit :=
  match r.counts.find? fun c => c.2 < 0 with
  | some (name, _) => .error s!"{name} must be non-negative"
  | none => .ok ()

/-- Outside zero to one. -/
def ratioOutside (x : Option ℚ) : Prop := ∃ v ∈ x, v < 0 ∨ 1 < v

instance (x : Option ℚ) : Decidable (ratioOutside x) :=
  match x with
  | none => isFalse fun h => nomatch h
  | some v =>
      decidable_of_iff (v < 0 ∨ 1 < v) (by simp [ratioOutside])

def checkWindow : Except String Unit := do
  let dt := r.sampleIntervalSeconds
  let w := r.window
  failIf (dt ∉ v2AllowedIntervals ∨ r.decisionOrigin.tmod dt ≠ 0 ∨
      r.leadSeconds.tmod dt ≠ 0 ∨ r.leadSeconds < dt)
    "the window is not on an admitted grid"
  failIf (v2MaxHorizonSeconds < r.leadSeconds ∨
      v2MaxSteps < r.leadSeconds.tdiv dt ∨
      v2MaxHorizonSeconds < r.startupDelaySeconds ∨
      v2MaxHorizonSeconds < r.actuationAllowanceSeconds ∨
      v2MaxSteps < r.targetTimestamps.length ∨ v2MaxSteps < r.pointRPS.length)
    (s!"the window exceeds the contract's {v2MaxHorizonSeconds} s / " ++
      s!"{v2MaxSteps} steps")
  failIf (r.windowStart ≠ r.decisionOrigin ∨
      r.windowEnd ≠ r.decisionOrigin + r.leadSeconds ∨
      w.targets ≠ r.targetTimestamps)
    "window bounds or target timestamps do not match the origin and lead"
  failIf (r.validUntil ≠
      w.validUntil r.startupDelaySeconds r.actuationAllowanceSeconds)
    "valid_until does not follow from the window and the lead"

def checkRates : Except String Unit := do
  failIf (r.pointRPS.length ≠ r.targetTimestamps.length)
    "point_rps must hold one rate per target"
  failIf (∃ p ∈ r.pointRPS, p < 0) "point_rps must be non-negative"
  failIf (r.baseWindowMaxRPS < 0 ∨ r.pointRPS.max? ≠ some r.baseWindowMaxRPS)
    "base_window_max_rps must be the maximum of point_rps"
  failIf (∃ u ∈ r.upperWindowMaxRPS, u < 0)
    "upper_window_max_rps must be null or non-negative"
  failIf (ratioOutside r.gateCoverageRatio)
    "gate_coverage_ratio must be null or within 0..1"
  failIf (ratioOutside r.missingOutcomeRatio)
    "missing_outcome_ratio must be null or within 0..1"
  failIf (ratioOutside r.workingMiscoverageRatio)
    "working_miscoverage_ratio must be null or within 0..1"
  failIf (r.gateCoverageRatio.isSome ∧ r.calibrationWindows = 0 ∧
      r.prospectiveWindows = 0)
    "coverage without any scored window"

def checkTimes : Except String Unit := do
  failIf (r.decisionOrigin < r.inputEnd ∨
      ∃ cutoff ∈ r.fitCutoff, r.inputEnd < cutoff)
    "input or fit cutoff after the decision origin"
  failIf (r.issuedAtMs < r.inputReceivedThroughMs ∨
      r.issuedAtMs < r.decisionOrigin * 1000)
    "issue/receipt times are out of order"
  failIf (∃ cutoff ∈ r.evidenceCutoff, r.issuedAtMs < cutoff * 1000)
    "evidence cutoff after the issue time"
  failIf (r.targetNamespace ≠ r.autoscalerNamespace)
    "the target must be in the autoscaler's namespace"
  failIf (r.targetTimestamps.headD 0 * 1000 ≤ r.issuedAtMs)
    "the issuance is not before the first target"

def checkEligible : Except String Unit := do
  failIf (r.predictiveEligible ∧ (r.upperWindowMaxRPS = none ∨
      r.trustState ≠ "Trusted" ∨ r.reason ≠ "Ready"))
    ("an eligible forecast needs an upper bound, trust state Trusted and " ++
      "reason Ready")
  failIf (r.predictiveEligible ∧ ¬r.window.actionableAt r.issuedAtMs
      r.startupDelaySeconds r.actuationAllowanceSeconds)
    ("an eligible forecast must be issued while its window is still " ++
      "actionable")

/-- `coherent`: the answer agrees with itself. -/
def coherent : Except String Unit := do
  failIf (r.forecastContract ≠ forecastContractV2 ∨
      r.contract ≠ metricContract ∨ r.unit ≠ v2Unit)
    "unknown forecast contract, signal contract or unit"
  r.checkCounts
  failIf (r.trustState ∉ v2Phases ∨ r.reason ∉ v2Reasons)
    "unknown trust state or reason"
  failIf (r.modelFamily ∉ v2ModelFamilies ∨
      r.selectedCandidate ∉ v2ModelFamilies)
    "unknown model family"
  failIf (¬(v2SHA256 r.metricQuerySHA256 ∧ v2SHA256 r.settingsSHA256))
    "a hash is not a sha256"
  r.checkWindow
  r.checkRates
  r.checkTimes
  r.checkEligible

end V2Response

/-- `decodeV2Response` on the members of a JSON object. -/
def decodeV2Response (w : List (String × Json)) :
    Except String V2Response := do
  let r ← decodeMembers w
  r.coherent
  return r

/-- Everything an answer must echo, fixed when the request is made. -/
structure V2Binding where
  autoscalerNamespace : String
  autoscalerName : String
  autoscalerUID : String
  generation : ℤ
  targetNamespace : String
  targetName : String
  targetUID : String
  querySHA : String
  settings : V2Settings
  settingsSHA : String
  origin : ℤ
  lead : PredictionLead
  evidenceKey : String
deriving DecidableEq

/-- The answer is for exactly the request sent. -/
def V2Response.bound (r : V2Response) (b : V2Binding) :
    Except String Unit := do
  failIf (¬(r.autoscalerNamespace = b.autoscalerNamespace ∧
      r.autoscalerName = b.autoscalerName ∧
      r.autoscalerUID = b.autoscalerUID ∧
      r.autoscalerGeneration = b.generation ∧
      r.targetNamespace = b.targetNamespace ∧ r.targetName = b.targetName ∧
      r.targetUID = b.targetUID ∧ r.metricQuerySHA256 = b.querySHA ∧
      r.settingsSHA256 = b.settingsSHA ∧ r.decisionOrigin = b.origin ∧
      r.sampleIntervalSeconds = b.settings.sampleIntervalSeconds ∧
      r.nominalMiscoverageBps = b.settings.miscoverageBps))
    "the answer does not echo the request's identity, settings and origin"
  failIf (b.settings.horizonSeconds < r.leadSeconds)
    "the answer's lead exceeds the autoscaler's horizon"
  failIf (r.leadSeconds ≠ b.lead.seconds ∨
      r.startupDelaySeconds ≠ b.lead.startupDelaySeconds ∨
      r.actuationAllowanceSeconds ≠ b.lead.actuationAllowanceSeconds)
    "the answer's lead differs from the autoscaler's"
  failIf (r.calibrationEpoch ≠ b.evidenceKey)
    "the answer's calibration epoch is not the request's evidence key"

/-- The operator's decision on a bound answer. -/
structure V2Verdict where
  eligible : Bool := false
  reason : String
deriving DecidableEq, Repr

/-- `verdict`, at `nowMs`. -/
def V2Response.verdict (r : V2Response) (s : V2Settings) (nowMs : ℤ) :
    V2Verdict :=
  let maxAge := r.leadSeconds + s.settlementSeconds + s.outcomeGraceSeconds +
    2 * s.sampleIntervalSeconds
  if r.predictiveEligible = false ∨ r.trustState ≠ "Trusted" ∨
      r.reason ≠ "Ready" ∨ r.upperWindowMaxRPS = none then
    { reason := if r.reason = "Ready" then "NotEligible" else r.reason }
  else if r.calibrationWindows < s.calibration.minWindows ∨
      r.prospectiveWindows < s.trust.minProspectiveWindows then
    { reason := "EvidenceInsufficient" }
  else if ¬∃ cutoff ∈ r.evidenceCutoff,
      nowMs - cutoff * 1000 ≤ maxAge * 1000 then
    { reason := "EvidenceStale" }
  else if nowMs + v2IssueClockSkewMs < r.issuedAtMs then
    { reason := "IssuedInFuture" }
  else if ¬r.window.actionableAt nowMs r.startupDelaySeconds
      r.actuationAllowanceSeconds then
    { reason := "DeadlinePassed" }
  else { eligible := true, reason := "Ready" }

end ForecastV2

end PredictiveAutoscaler
