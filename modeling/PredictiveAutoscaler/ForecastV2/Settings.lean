/-
Forecast contract v2, the operator's side: the settings that the operator
resolves from its typed `spec.prediction`, their fingerprint and the evidence
key.  Counts are `int64`; what they are computed from is `int32`, so nothing
here overflows.
-/
import PredictiveAutoscaler.CanonicalJson
import PredictiveAutoscaler.Forecasting.Contracts

namespace PredictiveAutoscaler.ForecastV2

open Forecasting (RiskSpec CalibrationSpec TrustSpec PredictiveExtraSpec
  PredictionSpec)

def forecastContractV2 : String := "window-max-rps/v1"

def metricContract : String := "requests-per-second/v1"

def v2SettingsSchema : String := "forecast-settings/v1"

def v2EvidenceSchema : String := "forecast-evidence-key/v1"

def v2Unit : String := "requests/second"

def v2MaxHorizonSeconds : ℤ := 3600

def v2MaxSteps : ℤ := 60

def v2MaxHistoryDays : ℤ := 28

def v2LegacyLSTMInterval : ℤ := 600

def v2BPS : ℤ := 10000

def v2AllowedIntervals : List ℤ := [60, 120, 180, 240, 300, 360, 480, 600]

def engineStatistical : String := "statistical"

def engineLegacyLSTM : String := "legacyLstm"

/-- `PredictionConfig`, as the operator's client decodes `spec.prediction`: an
absent text is empty, an absent horizon is zero and a group that is `nil` has
no field. -/
structure PredictionConfig where
  enabled : Option Bool := none
  horizonMinutes : ℤ := 0
  engine : String := ""
  sampleIntervalSeconds : Option ℤ := none
  seasonality : String := ""
  historyDays : Option ℤ := none
  settlementSeconds : Option ℤ := none
  outcomeGraceSeconds : Option ℤ := none
  risk : RiskSpec := {}
  calibration : CalibrationSpec := {}
  trust : TrustSpec := {}
  predictiveExtra : PredictiveExtraSpec := {}
deriving DecidableEq, Repr

/-- `predictionEnabled`. -/
def PredictionConfig.predictionEnabled (p : PredictionConfig) : Bool :=
  p.enabled.getD true

/-- Forecasting on and engine statistical. -/
def v2Selected (p : PredictionConfig) : Bool :=
  p.predictionEnabled && p.engine = engineStatistical

/-- The array `Calibration` by the names of its indices. -/
structure V2Calibration where
  minWindows : ℤ := 128
  maxScores : ℤ := 512
  retentionDays : ℤ := 7
  etaBps : ℤ := 50
  minMiscoverageBps : ℤ := 100
  maxMiscoverageBps : ℤ := 2500
deriving DecidableEq, Repr

/-- The array `Trust` by the names of its indices. -/
structure V2Trust where
  minShadowHours : ℤ := 48
  minProspectiveWindows : ℤ := 64
  coverageToleranceBps : ℤ := 500
  worstDayMinOutcomes : ℤ := 24
  minAvailabilityBps : ℤ := 9500
  acuteConsecutiveMisses : ℤ := 5
  acuteRecentWindows : ℤ := 32
  repromotionHours : ℤ := 24
  repromotionWindows : ℤ := 32
  challengerMinPairs : ℤ := 64
  challengerMinHours : ℤ := 48
  challengerLossRatioBps : ℤ := 9500
  challengerExitLossRatioBps : ℤ := 10000
  challengerCostRatioBps : ℤ := 10200
  maxFitAgeHours : ℤ := 12
deriving DecidableEq, Repr

/-- The resolved settings; the defaults are `v2Default`. -/
structure V2Settings where
  engine : String := engineStatistical
  sampleIntervalSeconds : ℤ := 300
  seasonality : String := "daily"
  historyDays : ℤ := 14
  horizonSeconds : ℤ := 3600
  settlementSeconds : ℤ := 120
  outcomeGraceSeconds : ℤ := 600
  miscoverageBps : ℤ := 1000
  calibration : V2Calibration := {}
  trust : V2Trust := {}
  extraMaxReplicas : ℤ := 2
  extraMaxPercent : ℤ := 50
deriving DecidableEq, Repr

def v2Default : V2Settings := {}

/-- The value of a field within its bounds; an absent one keeps the default. -/
def v2Set (dst : ℤ) (key : String) (value : Option ℤ) (lo hi : ℤ) :
    Except String ℤ :=
  match value with
  | none => .ok dst
  | some v =>
      if v < lo ∨ hi < v then
        .error s!"spec.prediction.{key} must be an integer in {lo}..{hi}, got {v}"
      else .ok v

/-- `fmt.Errorf` and an early return. -/
def failIf (c : Prop) [Decidable c] (message : String) : Except String Unit :=
  if c then .error message else .ok ()

def resolveRisk (d : V2Settings) (r : RiskSpec) : Except String ℤ :=
  v2Set d.miscoverageBps "risk.miscoverageBps" r.miscoverageBps 100 2500

def resolveCalibration (d : V2Calibration) (c : CalibrationSpec) :
    Except String V2Calibration := do
  let minWindows ←
    v2Set d.minWindows "calibration.minWindows" c.minWindows 16 4096
  let maxScores ← v2Set d.maxScores "calibration.maxScores" c.maxScores 16 4096
  let retentionDays ←
    v2Set d.retentionDays "calibration.retentionDays" c.retentionDays 1 28
  let etaBps ← v2Set d.etaBps "calibration.etaBps" c.etaBps 1 1000
  let minMiscoverageBps ← v2Set d.minMiscoverageBps
    "calibration.minMiscoverageBps" c.minMiscoverageBps 1 5000
  let maxMiscoverageBps ← v2Set d.maxMiscoverageBps
    "calibration.maxMiscoverageBps" c.maxMiscoverageBps 1 5000
  return ⟨minWindows, maxScores, retentionDays, etaBps, minMiscoverageBps,
    maxMiscoverageBps⟩

def resolveTrust (d : V2Trust) (t : TrustSpec) : Except String V2Trust := do
  let minShadowHours ← v2Set d.minShadowHours
    "trust.minShadowHours" t.minShadowHours 1 (24 * 28)
  let minProspectiveWindows ← v2Set d.minProspectiveWindows
    "trust.minProspectiveWindows" t.minProspectiveWindows 1 4096
  let coverageToleranceBps ← v2Set d.coverageToleranceBps
    "trust.coverageToleranceBps" t.coverageToleranceBps 0 2500
  let worstDayMinOutcomes ← v2Set d.worstDayMinOutcomes
    "trust.worstDayMinOutcomes" t.worstDayMinOutcomes 1 1440
  let minAvailabilityBps ← v2Set d.minAvailabilityBps
    "trust.minAvailabilityBps" t.minAvailabilityBps 0 v2BPS
  let acuteConsecutiveMisses ← v2Set d.acuteConsecutiveMisses
    "trust.acuteConsecutiveMisses" t.acuteConsecutiveMisses 1 1000
  let acuteRecentWindows ← v2Set d.acuteRecentWindows
    "trust.acuteRecentWindows" t.acuteRecentWindows 1 4096
  let repromotionHours ← v2Set d.repromotionHours
    "trust.repromotionHours" t.repromotionHours 0 (24 * 28)
  let repromotionWindows ← v2Set d.repromotionWindows
    "trust.repromotionWindows" t.repromotionWindows 1 4096
  let challengerMinPairs ← v2Set d.challengerMinPairs
    "trust.challengerMinPairs" t.challengerMinPairs 1 4096
  let challengerMinHours ← v2Set d.challengerMinHours
    "trust.challengerMinHours" t.challengerMinHours 1 (24 * 28)
  let challengerLossRatioBps ← v2Set d.challengerLossRatioBps
    "trust.challengerLossRatioBps" t.challengerLossRatioBps 1 v2BPS
  let challengerExitLossRatioBps ← v2Set d.challengerExitLossRatioBps
    "trust.challengerExitLossRatioBps" t.challengerExitLossRatioBps 1
    (2 * v2BPS)
  let challengerCostRatioBps ← v2Set d.challengerCostRatioBps
    "trust.challengerCostRatioBps" t.challengerCostRatioBps v2BPS (2 * v2BPS)
  let maxFitAgeHours ← v2Set d.maxFitAgeHours
    "trust.maxFitAgeHours" t.maxFitAgeHours 1 24
  return ⟨minShadowHours, minProspectiveWindows, coverageToleranceBps,
    worstDayMinOutcomes, minAvailabilityBps, acuteConsecutiveMisses,
    acuteRecentWindows, repromotionHours, repromotionWindows,
    challengerMinPairs, challengerMinHours, challengerLossRatioBps,
    challengerExitLossRatioBps, challengerCostRatioBps, maxFitAgeHours⟩

/-- The two caps of the predictive extra. -/
def resolveExtra (d : V2Settings) (e : PredictiveExtraSpec) :
    Except String (ℤ × ℤ) := do
  let maxReplicas ← v2Set d.extraMaxReplicas "predictiveExtra.maxReplicas"
    e.maxReplicas 0 1000
  let maxPercent ← v2Set d.extraMaxPercent "predictiveExtra.maxPercent"
    e.maxPercent 0 1000
  return (maxReplicas, maxPercent)

/-- `ceil((n+1)(1-a))` in integers. -/
def v2Rank (n miscoverageBps : ℤ) : ℤ :=
  let num := (n + 1) * (v2BPS - miscoverageBps)
  (num + v2BPS - 1).tdiv v2BPS

/-- The constraints across fields. -/
def V2Settings.feasible (s : V2Settings) : Except String Unit :=
  let c := s.calibration
  if s.miscoverageBps < c.minMiscoverageBps ∨
      c.maxMiscoverageBps < s.miscoverageBps then
    .error "the nominal miscoverage must lie within the adaptive bounds"
  else if c.maxMiscoverageBps ≤ c.minMiscoverageBps then
    .error "calibration.minMiscoverageBps must be below maxMiscoverageBps"
  else if c.maxScores < c.minWindows then
    .error "calibration.maxScores must hold at least minWindows scores"
  else if c.minWindows < v2Rank c.minWindows c.minMiscoverageBps then
    .error ("calibration.minMiscoverageBps is infeasible: with minWindows " ++
      "scores the order-statistic rank exceeds the sample count")
  else if (c.retentionDays * 86400).tdiv s.horizonSeconds < c.minWindows then
    .error ("calibration.retentionDays cannot hold minWindows " ++
      "nonoverlapping windows at this horizon")
  else if c.maxScores < s.trust.acuteRecentWindows ∨
      c.maxScores < s.trust.minProspectiveWindows then
    .error "trust window counts exceed the calibration buffer"
  else if s.trust.challengerExitLossRatioBps <
      s.trust.challengerLossRatioBps then
    .error ("trust.challengerExitLossRatioBps must not be below " ++
      "challengerLossRatioBps")
  else if c.retentionDays * 24 < s.trust.minShadowHours then
    .error "trust.minShadowHours exceeds the retention"
  else .ok ()

def resolveEngine (d : V2Settings) (engine : String) : Except String String :=
  if engine ≠ "" then
    if engine ≠ engineStatistical ∧ engine ≠ engineLegacyLSTM then
      .error s!"spec.prediction.engine \"{engine}\" is unknown"
    else .ok engine
  else .ok d.engine

def resolveSeasonality (d : V2Settings) (seasonality : String) :
    Except String String :=
  if seasonality ≠ "" then
    if seasonality ≠ "daily" then
      .error (s!"spec.prediction.seasonality \"{seasonality}\" is not " ++
        "supported (admitted: daily)")
    else .ok seasonality
  else .ok d.seasonality

/-- The cadence, one of the admitted intervals. -/
def resolveInterval (d : V2Settings) (engine : String) (v : Option ℤ) :
    Except String ℤ := do
  let interval := v.getD d.sampleIntervalSeconds
  failIf (v.isSome ∧ interval ∉ v2AllowedIntervals)
    ("spec.prediction.sampleIntervalSeconds must be one of " ++
      s!"[60 120 180 240 300 360 480 600], got {interval}")
  failIf (engine = engineLegacyLSTM ∧ interval ≠ v2LegacyLSTMInterval)
    "engine legacyLstm supports only the 600 s grid"
  return interval

/-- The horizon in seconds. -/
def resolveHorizon (d : V2Settings) (dt horizonMinutes : ℤ) :
    Except String ℤ := do
  let horizonMin :=
    if horizonMinutes = 0 then d.horizonSeconds.tdiv 60 else horizonMinutes
  failIf (horizonMin ≤ 0)
    (s!"spec.prediction.horizonMinutes must be a positive integer, got " ++
      s!"{horizonMin}")
  let horizon := horizonMin * 60
  failIf (v2MaxHorizonSeconds < horizon ∨ horizon.tmod dt ≠ 0 ∨
      v2MaxSteps < horizon.tdiv dt)
    (s!"horizon {horizonMin} min must be at most 60 min, at most 60 steps " ++
      s!"and a multiple of the {dt} s cadence")
  return horizon

/-- `resolveV2Settings`: field bounds, then the constraints across fields. -/
def resolveV2Settings (p : PredictionConfig) : Except String V2Settings := do
  let d := v2Default
  failIf (p.enabled = some false)
    "forecasting is disabled for this autoscaler (spec.prediction.enabled)"
  let engine ← resolveEngine d p.engine
  let seasonality ← resolveSeasonality d p.seasonality
  let interval ← resolveInterval d engine p.sampleIntervalSeconds
  let horizon ← resolveHorizon d interval p.horizonMinutes
  let historyDays ←
    v2Set d.historyDays "historyDays" p.historyDays 1 v2MaxHistoryDays
  let settlement ← v2Set d.settlementSeconds "settlementSeconds"
    p.settlementSeconds 0 900
  let grace ← v2Set d.outcomeGraceSeconds "outcomeGraceSeconds"
    p.outcomeGraceSeconds 0 3600
  let miscoverage ← resolveRisk d p.risk
  let calibration ← resolveCalibration d.calibration p.calibration
  let trust ← resolveTrust d.trust p.trust
  let extra ← resolveExtra d p.predictiveExtra
  let s : V2Settings := ⟨engine, interval, seasonality, historyDays, horizon,
    settlement, grace, miscoverage, calibration, trust, extra.1, extra.2⟩
  s.feasible
  return s

@[simp] theorem failIf_eq_ok {c : Prop} [Decidable c] {message : String}
    {a : Unit} : failIf c message = .ok a ↔ ¬c := by
  unfold failIf
  by_cases hc : c <;> simp [hc]

/-- What the operator relies on of accepted settings. -/
structure V2Settings.Accepted (s : V2Settings) : Prop where
  interval_mem : s.sampleIntervalSeconds ∈ v2AllowedIntervals
  horizon_le : s.horizonSeconds ≤ v2MaxHorizonSeconds

theorem resolveInterval_mem {engine : String} {v : Option ℤ} {n : ℤ}
    (h : resolveInterval v2Default engine v = .ok n) :
    n ∈ v2AllowedIntervals := by
  simp only [resolveInterval, Forecasting.Except.bind_eq_ok_iff,
    failIf_eq_ok] at h
  obtain ⟨_, hmem, _, -, hn⟩ := h
  cases hn
  cases v with
  | none => decide
  | some v => simpa using hmem

theorem resolveHorizon_le {dt horizonMinutes n : ℤ}
    (h : resolveHorizon v2Default dt horizonMinutes = .ok n) :
    n ≤ v2MaxHorizonSeconds := by
  simp only [resolveHorizon, Forecasting.Except.bind_eq_ok_iff, failIf_eq_ok,
    not_or, not_lt] at h
  obtain ⟨_, -, _, hle, hn⟩ := h
  cases hn
  exact hle.1

theorem resolveV2Settings_accepted {p : PredictionConfig} {s : V2Settings}
    (h : resolveV2Settings p = .ok s) : s.Accepted := by
  simp only [resolveV2Settings, Forecasting.Except.bind_eq_ok_iff] at h
  obtain ⟨_, -, engine, -, seasonality, -, interval, hinterval, horizon,
    hhorizon, historyDays, -, settlement, -, grace, -, miscoverage, -,
    calibration, -, trust, -, extra, -, _, -, hs⟩ := h
  cases hs
  exact ⟨resolveInterval_mem hinterval, resolveHorizon_le hhorizon⟩

theorem V2Settings.Accepted.interval_pos {s : V2Settings} (h : s.Accepted) :
    0 < s.sampleIntervalSeconds := by
  have hall : ∀ dt ∈ v2AllowedIntervals, 0 < dt := by decide
  exact hall _ h.interval_mem

def V2Calibration.doc (c : V2Calibration) : Doc :=
  .record [("min_windows", .int c.minWindows),
    ("max_scores", .int c.maxScores),
    ("retention_days", .int c.retentionDays), ("eta_bps", .int c.etaBps),
    ("min_miscoverage_bps", .int c.minMiscoverageBps),
    ("max_miscoverage_bps", .int c.maxMiscoverageBps)]

def V2Trust.doc (t : V2Trust) : Doc :=
  .record [("min_shadow_hours", .int t.minShadowHours),
    ("min_prospective_windows", .int t.minProspectiveWindows),
    ("coverage_tolerance_bps", .int t.coverageToleranceBps),
    ("worst_day_min_outcomes", .int t.worstDayMinOutcomes),
    ("min_availability_bps", .int t.minAvailabilityBps),
    ("acute_consecutive_misses", .int t.acuteConsecutiveMisses),
    ("acute_recent_windows", .int t.acuteRecentWindows),
    ("repromotion_hours", .int t.repromotionHours),
    ("repromotion_windows", .int t.repromotionWindows),
    ("challenger_min_pairs", .int t.challengerMinPairs),
    ("challenger_min_hours", .int t.challengerMinHours),
    ("challenger_loss_ratio_bps", .int t.challengerLossRatioBps),
    ("challenger_exit_loss_ratio_bps", .int t.challengerExitLossRatioBps),
    ("challenger_cost_ratio_bps", .int t.challengerCostRatioBps),
    ("max_fit_age_hours", .int t.maxFitAgeHours)]

namespace V2Settings

def riskMap (s : V2Settings) : Doc :=
  .record [("miscoverage_bps", .int s.miscoverageBps)]

/-- The document of the settings fingerprint. -/
def canonical (s : V2Settings) : Doc :=
  .record [("schema", .text v2SettingsSchema), ("settings", .record
    [("engine", .text s.engine),
      ("sample_interval_seconds", .int s.sampleIntervalSeconds),
      ("seasonality", .text s.seasonality),
      ("history_days", .int s.historyDays),
      ("horizon_seconds", .int s.horizonSeconds),
      ("settlement_seconds", .int s.settlementSeconds),
      ("outcome_grace_seconds", .int s.outcomeGraceSeconds),
      ("risk", s.riskMap), ("calibration", s.calibration.doc),
      ("trust", s.trust.doc),
      ("predictive_extra", .record
        [("max_replicas", .int s.extraMaxReplicas),
          ("max_percent", .int s.extraMaxPercent)])])]

end V2Settings

/-- The bytes that are hashed; text that is not ASCII is an error. -/
def v2CanonicalJSON (d : Doc) : Option (List UInt8) :=
  let out := utf8 (d.render goEscape)
  if ∃ b ∈ out, 0x7e < b then none else some out

section Hash

-- the hexadecimal digest of bytes
variable (sha256 : List UInt8 → String)

def v2Hash (d : Doc) : String :=
  match v2CanonicalJSON d with
  | none => ""
  | some raw => sha256 raw

def V2Settings.fingerprint (s : V2Settings) : String :=
  v2Hash sha256 s.canonical

/-- The document of the evidence key. -/
def v2EvidenceDoc (paUID targetUID querySHA : String) (s : V2Settings)
    (leadSeconds : ℤ) : Doc :=
  .record [("schema", .text v2EvidenceSchema), ("autoscaler_uid", .text paUID),
    ("target_uid", .text targetUID), ("query_sha256", .text querySHA),
    ("signal_contract", .text metricContract),
    ("forecast_contract", .text forecastContractV2),
    ("interval_seconds", .int s.sampleIntervalSeconds),
    ("lead_seconds", .int leadSeconds), ("engine", .text s.engine),
    ("seasonality", .text s.seasonality),
    ("history_days", .int s.historyDays),
    ("settlement_seconds", .int s.settlementSeconds),
    ("outcome_grace_seconds", .int s.outcomeGraceSeconds),
    ("risk", s.riskMap), ("calibration", s.calibration.doc)]

def v2EvidenceKey (paUID targetUID querySHA : String) (s : V2Settings)
    (leadSeconds : ℤ) : String :=
  v2Hash sha256 (v2EvidenceDoc paUID targetUID querySHA s leadSeconds)

end Hash

end PredictiveAutoscaler.ForecastV2
