/-
Forecast contract v2: the documents that the service hashes, its settings and
the evidence key.
-/
import PredictiveAutoscaler.CanonicalJson
import PredictiveAutoscaler.Forecasting.Contracts

namespace PredictiveAutoscaler.Forecasting

def settingsSchema : String := "forecast-settings/v1"

def evidenceSchema : String := "forecast-evidence-key/v1"

def ForecastEngine.text : ForecastEngine → String
  | .statistical => "statistical"
  | .legacyLstm => "legacyLstm"

def Seasonality.text : Seasonality → String
  | .daily => "daily"

def RiskSettings.doc (r : RiskSettings) : Doc :=
  .record [("miscoverage_bps", .int r.miscoverageBps)]

def CalibrationSettings.doc (c : CalibrationSettings) : Doc :=
  .record [("min_windows", .int c.minWindows),
    ("max_scores", .int c.maxScores),
    ("retention_days", .int c.retentionDays), ("eta_bps", .int c.etaBps),
    ("min_miscoverage_bps", .int c.minMiscoverageBps),
    ("max_miscoverage_bps", .int c.maxMiscoverageBps)]

def TrustSettings.doc (t : TrustSettings) : Doc :=
  .record [("min_shadow_hours", .int t.minShadowHours),
    ("min_prospective_windows", .int t.minProspectiveWindows),
    ("coverage_tolerance_bps", .int t.coverageToleranceBps),
    ("worst_day_min_outcomes", .int t.worstDayMinOutcomes),
    ("min_availability_bps", .int t.minAvailabilityBps),
    ("acute_consecutive_misses", .int t.acuteConsecutiveMisses),
    ("acute_recent_windows", .int t.acuteRecentWindows),
    ("repromotion_hours", .int t.repromotionHours),
    ("repromotion_windows", .int t.repromotionWindows),
    ("challenger_min_pairs", .int t.challengerMinPairs),
    ("challenger_min_hours", .int t.challengerMinHours),
    ("challenger_loss_ratio_bps", .int t.challengerLossRatioBps),
    ("challenger_exit_loss_ratio_bps", .int t.challengerExitLossRatioBps),
    ("challenger_cost_ratio_bps", .int t.challengerCostRatioBps),
    ("max_fit_age_hours", .int t.maxFitAgeHours)]

def PredictiveExtraSettings.doc (e : PredictiveExtraSettings) : Doc :=
  .record [("max_replicas", .int e.maxReplicas),
    ("max_percent", .int e.maxPercent)]

/-- The document of the settings fingerprint. -/
def ForecastSettings.canonical (s : ForecastSettings) : Doc :=
  .record [("schema", .text settingsSchema), ("settings", .record
    [("engine", .text s.engine.text),
      ("sample_interval_seconds", .int s.sampleIntervalSeconds),
      ("seasonality", .text s.seasonality.text),
      ("history_days", .int s.historyDays),
      ("horizon_seconds", .int s.horizonSeconds),
      ("settlement_seconds", .int s.settlementSeconds),
      ("outcome_grace_seconds", .int s.outcomeGraceSeconds),
      ("risk", s.risk.doc), ("calibration", s.calibration.doc),
      ("trust", s.trust.doc), ("predictive_extra", s.predictiveExtra.doc)])]

/-- The document of the evidence key. -/
def evidenceDoc (signal : ResolvedSignal) (s : ForecastSettings)
    (leadSeconds : ℕ) : Doc :=
  .record [("schema", .text evidenceSchema),
    ("autoscaler_uid", .text signal.autoscalerUid),
    ("target_uid", .text signal.targetUid),
    ("query_sha256", .text signal.querySha256),
    ("signal_contract", .text signal.contract),
    ("forecast_contract", .text forecastContract),
    ("interval_seconds", .int s.sampleIntervalSeconds),
    ("lead_seconds", .int leadSeconds), ("engine", .text s.engine.text),
    ("seasonality", .text s.seasonality.text),
    ("history_days", .int s.historyDays),
    ("settlement_seconds", .int s.settlementSeconds),
    ("outcome_grace_seconds", .int s.outcomeGraceSeconds),
    ("risk", s.risk.doc), ("calibration", s.calibration.doc)]

/-- The one serialization that is hashed. -/
def canonicalJson (d : Doc) : List UInt8 := utf8 (d.render pythonEscape)

section Hash

variable (sha256 : List UInt8 → String)

def ForecastSettings.fingerprint (s : ForecastSettings) : String :=
  sha256 (canonicalJson s.canonical)

def evidenceDigest (signal : ResolvedSignal) (s : ForecastSettings)
    (leadSeconds : ℕ) : String :=
  sha256 (canonicalJson (evidenceDoc signal s leadSeconds))

end Hash

end PredictiveAutoscaler.Forecasting
