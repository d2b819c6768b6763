/-
Forecast contract v2: the closed vocabularies, the exceptions and the resolved
settings of the forecasting service.  Ratios are integer basis points; times
are whole seconds and journal sequence numbers are counted from one.
-/
import Mathlib.Data.Fintype.Basic
import PredictiveAutoscaler.Binary64

namespace PredictiveAutoscaler.Forecasting

/-- The model families, in the fallback order. -/
inductive Model
  | lstm
  | statistical
  | seasonalNaive
deriving DecidableEq, Repr

instance : Fintype Model :=
  ⟨{.lstm, .statistical, .seasonalNaive}, fun model => by
    cases model <;> decide⟩

/-- `PHASES`. -/
inductive Phase
  | collecting
  | calibrating
  | shadow
  | trusted
  | degraded
deriving DecidableEq, Repr

/-- `REASONS`, in the order of `REASON_ORDER`. -/
inductive Reason
  | identityMismatch
  | stateUnavailable
  | dataUnavailable
  | historyInsufficient
  | calibrationInsufficient
  | shadowInsufficient
  | coverageLow
  | leadInsufficient
  | replayGateMissing
  | ready
deriving DecidableEq, Repr

/-- The exceptions of the forecasting package. -/
inductive Raised
  | contractRefused (message : String)
  | calibrationError (message : String)
  | trustError (message : String)
  | valueError (message : String)
  | storeError (message : String)
  | integrityConflict (message : String)
  | retiredKey (message : String)
  | attributeError (message : String)
  | keyError (key : String)
  | provenanceRefused (message : String)
  | lookupFailed (message : String)
  | serviceError (status : ℕ) (reason : Reason) (message : String)
deriving DecidableEq, Repr

def hour : ℕ := 3600

def day : ℕ := 86400

/-- Basis points of the whole. -/
def bps : ℕ := 10000

structure RiskSettings where
  miscoverageBps : ℕ := 1000
deriving DecidableEq, Repr, Inhabited

structure CalibrationSettings where
  minWindows : ℕ := 128
  maxScores : ℕ := 512
  retentionDays : ℕ := 7
  etaBps : ℕ := 50
  minMiscoverageBps : ℕ := 100
  maxMiscoverageBps : ℕ := 2500
deriving DecidableEq, Repr, Inhabited

structure TrustSettings where
  minShadowHours : ℕ := 48
  minProspectiveWindows : ℕ := 64
  coverageToleranceBps : ℕ := 500
  worstDayMinOutcomes : ℕ := 24
  minAvailabilityBps : ℕ := 9500
  acuteConsecutiveMisses : ℕ := 5
  acuteRecentWindows : ℕ := 32
  repromotionHours : ℕ := 24
  repromotionWindows : ℕ := 32
  challengerMinPairs : ℕ := 64
  challengerMinHours : ℕ := 48
  challengerLossRatioBps : ℕ := 9500
  challengerExitLossRatioBps : ℕ := 10000
  challengerCostRatioBps : ℕ := 10200
  maxFitAgeHours : ℕ := 12
deriving DecidableEq, Repr

structure PredictiveExtraSettings where
  maxReplicas : ℕ := 2
  maxPercent : ℕ := 50
deriving DecidableEq, Repr

inductive ForecastEngine
  | statistical
  | legacyLstm
deriving DecidableEq, Repr, Inhabited

inductive Seasonality
  | daily
deriving DecidableEq, Repr, Inhabited

structure ForecastSettings where
  engine : ForecastEngine := .statistical
  sampleIntervalSeconds : ℕ := 300
  seasonality : Seasonality := .daily
  historyDays : ℕ := 14
  horizonSeconds : ℕ := 3600
  settlementSeconds : ℕ := 120
  outcomeGraceSeconds : ℕ := 600
  risk : RiskSettings := {}
  calibration : CalibrationSettings := {}
  trust : TrustSettings := {}
  predictiveExtra : PredictiveExtraSettings := {}
deriving DecidableEq, Repr

/-- What forecast evidence belongs to.  The source hashes this body; the body
itself stands for its digest. -/
structure EvidenceKey where
  autoscalerUid : String
  targetUid : String
  querySha256 : String
  intervalSeconds : ℕ
  leadSeconds : ℕ
  engine : ForecastEngine
  seasonality : Seasonality
  historyDays : ℕ
  settlementSeconds : ℕ
  outcomeGraceSeconds : ℕ
  risk : RiskSettings
  calibration : CalibrationSettings
deriving DecidableEq, Repr, Inhabited

/-- What names an issuance: the window starts at its decision origin and ends
after it.  The settings stand for their digest, and the key itself for the
issuance identifier that the source derives from it and the store. -/
structure IssuanceKey where
  evidenceKey : EvidenceKey
  decisionOrigin : ℕ
  windowEnd : ℕ
  settings : ForecastSettings
  origin_lt : decisionOrigin < windowEnd
deriving DecidableEq

end PredictiveAutoscaler.Forecasting
