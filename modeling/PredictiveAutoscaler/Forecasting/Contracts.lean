/-
Forecast contract v2: the settings of a live autoscaler, its lead and window,
the request bound to them and the response checked against them.
-/
import PredictiveAutoscaler.Forecasting.Journal

namespace PredictiveAutoscaler.Forecasting

/-- `ALLOWED_INTERVALS`: minute multiples that divide a UTC day. -/
def allowedIntervals : List ℕ := [60, 120, 180, 240, 300, 360, 480, 600]

def legacyLstmInterval : ℕ := 600

def maxHorizonSeconds : ℕ := 3600

def maxSteps : ℕ := 60

def maxHistoryDays : ℕ := 28

def forecastContract : String := "window-max-rps/v1"

def signalContract : String := "requests-per-second/v1"

def unit : String := "requests/second"

/-- Refuse with a message when a condition holds. -/
def refuseIf (c : Prop) [Decidable c] (message : String) :
    Except Raised Unit :=
  if c then .error (.contractRefused message) else .ok ()

@[simp] theorem refuseIf_bind_eq_ok {α : Type} {c : Prop} [Decidable c]
    {message : String} {f : Unit → Except Raised α} {a : α} :
    (refuseIf c message >>= f) = .ok a ↔ ¬c ∧ f () = .ok a := by
  unfold refuseIf
  by_cases hc : c
  · rw [if_pos hc]
    exact ⟨fun h => (nomatch h), fun h => absurd hc h.1⟩
  · rw [if_neg hc]
    exact ⟨fun h => ⟨hc, h⟩, fun h => h.2⟩

@[simp] theorem refuseIf_eq_ok {c : Prop} [Decidable c] {message : String}
    {a : Unit} : refuseIf c message = .ok a ↔ ¬c := by
  unfold refuseIf
  by_cases hc : c <;> simp [hc]

theorem Except.bind_eq_ok_iff {ε α β : Type} {x : Except ε α}
    {f : α → Except ε β} {b : β} :
    (x >>= f) = .ok b ↔ ∃ a, x = .ok a ∧ f a = .ok b := by
  cases x with
  | error raised =>
      refine ⟨fun h => (nomatch h), ?_⟩
      rintro ⟨a, ha, -⟩
      cases ha
  | ok a =>
      refine ⟨fun h => ⟨a, rfl, h⟩, ?_⟩
      rintro ⟨a', ha', hb⟩
      cases ha'
      exact hb

/-- One integer setting, within its inclusive bounds; an absent one keeps its
default. -/
def boundedField (must : String) (lo hi absent : ℕ) (v : Option ℤ) :
    Except Raised ℕ :=
  match v with
  | none => .ok absent
  | some v =>
      if (lo : ℤ) ≤ v ∧ v ≤ hi then .ok v.toNat
      else .error (.contractRefused s!"{must} {lo}..{hi}, got {v}")

/-- A field of a settings group. -/
def intField (place key : String) (lo hi absent : ℕ) (v : Option ℤ) :
    Except Raised ℕ :=
  boundedField s!"{place}.{key} must be an integer in" lo hi absent v

/-- A field of `spec.prediction` itself. -/
def topField (key : String) (lo hi absent : ℕ) (v : Option ℤ) :
    Except Raised ℕ :=
  boundedField s!"spec.prediction.{key} must be in" lo hi absent v

theorem boundedField_bounds {must : String} {lo hi absent n : ℕ}
    {v : Option ℤ} (h : boundedField must lo hi absent v = .ok n)
    (habsent : lo ≤ absent ∧ absent ≤ hi) : lo ≤ n ∧ n ≤ hi := by
  cases v with
  | none =>
      cases h
      exact habsent
  | some v =>
      simp only [boundedField] at h
      split at h
      · rename_i hv
        cases h
        omega
      · cases h

structure RiskSpec where
  miscoverageBps : Option ℤ := none
deriving DecidableEq, Repr

structure CalibrationSpec where
  minWindows : Option ℤ := none
  maxScores : Option ℤ := none
  retentionDays : Option ℤ := none
  etaBps : Option ℤ := none
  minMiscoverageBps : Option ℤ := none
  maxMiscoverageBps : Option ℤ := none
deriving DecidableEq, Repr

structure TrustSpec where
  minShadowHours : Option ℤ := none
  minProspectiveWindows : Option ℤ := none
  coverageToleranceBps : Option ℤ := none
  worstDayMinOutcomes : Option ℤ := none
  minAvailabilityBps : Option ℤ := none
  acuteConsecutiveMisses : Option ℤ := none
  acuteRecentWindows : Option ℤ := none
  repromotionHours : Option ℤ := none
  repromotionWindows : Option ℤ := none
  challengerMinPairs : Option ℤ := none
  challengerMinHours : Option ℤ := none
  challengerLossRatioBps : Option ℤ := none
  challengerExitLossRatioBps : Option ℤ := none
  challengerCostRatioBps : Option ℤ := none
  maxFitAgeHours : Option ℤ := none
deriving DecidableEq, Repr

structure PredictiveExtraSpec where
  maxReplicas : Option ℤ := none
  maxPercent : Option ℤ := none
deriving DecidableEq, Repr

/-- `spec.prediction` of an autoscaler object. -/
structure PredictionSpec where
  enabled : Bool := true
  engine : Option String := none
  sampleIntervalSeconds : Option ℤ := none
  seasonality : Option String := none
  horizonMinutes : Option ℤ := none
  historyDays : Option ℤ := none
  settlementSeconds : Option ℤ := none
  outcomeGraceSeconds : Option ℤ := none
  risk : RiskSpec := {}
  calibration : CalibrationSpec := {}
  trust : TrustSpec := {}
  predictiveExtra : PredictiveExtraSpec := {}
deriving DecidableEq, Repr

def RiskSpec.resolve (r : RiskSpec) : Except Raised RiskSettings := do
  let int := intField "spec.prediction.risk"
  return ⟨← int "miscoverageBps" 100 2500 1000 r.miscoverageBps⟩

def CalibrationSpec.resolve (c : CalibrationSpec) :
    Except Raised CalibrationSettings := do
  let int := intField "spec.prediction.calibration"
  let minWindows ← int "minWindows" 16 4096 128 c.minWindows
  let maxScores ← int "maxScores" 16 4096 512 c.maxScores
  let retentionDays ← int "retentionDays" 1 28 7 c.retentionDays
  let etaBps ← int "etaBps" 1 1000 50 c.etaBps
  let minBps ← int "minMiscoverageBps" 1 5000 100 c.minMiscoverageBps
  let maxBps ← int "maxMiscoverageBps" 1 5000 2500 c.maxMiscoverageBps
  return ⟨minWindows, maxScores, retentionDays, etaBps, minBps, maxBps⟩

def TrustSpec.resolve (t : TrustSpec) : Except Raised TrustSettings := do
  let int := intField "spec.prediction.trust"
  let minShadowHours ← int "minShadowHours" 1 (24 * 28) 48 t.minShadowHours
  let minProspectiveWindows ←
    int "minProspectiveWindows" 1 4096 64 t.minProspectiveWindows
  let coverageToleranceBps ←
    int "coverageToleranceBps" 0 2500 500 t.coverageToleranceBps
  let worstDayMinOutcomes ←
    int "worstDayMinOutcomes" 1 1440 24 t.worstDayMinOutcomes
  let minAvailabilityBps ←
    int "minAvailabilityBps" 0 bps 9500 t.minAvailabilityBps
  let acuteConsecutiveMisses ←
    int "acuteConsecutiveMisses" 1 1000 5 t.acuteConsecutiveMisses
  let acuteRecentWindows ←
    int "acuteRecentWindows" 1 4096 32 t.acuteRecentWindows
  let repromotionHours ←
    int "repromotionHours" 0 (24 * 28) 24 t.repromotionHours
  let repromotionWindows ←
    int "repromotionWindows" 1 4096 32 t.repromotionWindows
  let challengerMinPairs ←
    int "challengerMinPairs" 1 4096 64 t.challengerMinPairs
  let challengerMinHours ←
    int "challengerMinHours" 1 (24 * 28) 48 t.challengerMinHours
  let challengerLossRatioBps ←
    int "challengerLossRatioBps" 1 bps 9500 t.challengerLossRatioBps
  let challengerExitLossRatioBps ←
    int "challengerExitLossRatioBps" 1 (2 * bps) 10000
      t.challengerExitLossRatioBps
  let challengerCostRatioBps ←
    int "challengerCostRatioBps" bps (2 * bps) 10200 t.challengerCostRatioBps
  let maxFitAgeHours ← int "maxFitAgeHours" 1 24 12 t.maxFitAgeHours
  return ⟨minShadowHours, minProspectiveWindows, coverageToleranceBps,
    worstDayMinOutcomes, minAvailabilityBps, acuteConsecutiveMisses,
    acuteRecentWindows, repromotionHours, repromotionWindows,
    challengerMinPairs, challengerMinHours, challengerLossRatioBps,
    challengerExitLossRatioBps, challengerCostRatioBps, maxFitAgeHours⟩

def PredictiveExtraSpec.resolve (e : PredictiveExtraSpec) :
    Except Raised PredictiveExtraSettings := do
  let int := intField "spec.prediction.predictiveExtra"
  let maxReplicas ← int "maxReplicas" 0 1000 2 e.maxReplicas
  let maxPercent ← int "maxPercent" 0 1000 50 e.maxPercent
  return ⟨maxReplicas, maxPercent⟩

/-- `_rank`, in basis points. -/
def rankBps (n miscoverageBps : ℕ) : ℤ :=
  -(-((n : ℤ) + 1) * ((bps : ℤ) - miscoverageBps) / bps)

/-- `_check_feasible`: the constraints across fields. -/
def ForecastSettings.checkFeasible (s : ForecastSettings) :
    Except Raised Unit := do
  let c := s.calibration
  let t := s.trust
  refuseIf (¬(c.minMiscoverageBps ≤ s.risk.miscoverageBps ∧
      s.risk.miscoverageBps ≤ c.maxMiscoverageBps))
    "the nominal miscoverage must lie within the adaptive bounds"
  refuseIf (c.maxMiscoverageBps ≤ c.minMiscoverageBps)
    "calibration.minMiscoverageBps must be below maxMiscoverageBps"
  refuseIf (c.maxScores < c.minWindows)
    "calibration.maxScores must hold at least minWindows scores"
  refuseIf (c.minWindows < rankBps c.minWindows c.minMiscoverageBps)
    ("calibration.minMiscoverageBps is infeasible: with minWindows scores " ++
      "the order-statistic rank exceeds the sample count")
  refuseIf (c.retentionDays * day / s.horizonSeconds < c.minWindows)
    ("calibration.retentionDays cannot hold minWindows nonoverlapping " ++
      "windows at this horizon")
  refuseIf (c.maxScores < t.acuteRecentWindows ∨
      c.maxScores < t.minProspectiveWindows)
    "trust window counts exceed the calibration buffer"
  refuseIf (t.challengerExitLossRatioBps < t.challengerLossRatioBps)
    ("trust.challengerExitLossRatioBps must not be below " ++
      "challengerLossRatioBps")
  refuseIf (c.retentionDays * 24 < t.minShadowHours)
    "trust.minShadowHours exceeds the retention"

def resolveEngine : Option String → Except Raised ForecastEngine
  | none => .ok .statistical
  | some "statistical" => .ok .statistical
  | some "legacyLstm" => .ok .legacyLstm
  | some engine =>
      .error (.contractRefused
        ("spec.prediction.engine must be one of ('statistical', " ++
          s!"'legacyLstm'), got '{engine}'"))

def resolveSeasonality : Option String → Except Raised Seasonality
  | none => .ok .daily
  | some "daily" => .ok .daily
  | some seasonality =>
      .error (.contractRefused
        (s!"spec.prediction.seasonality '{seasonality}' is not supported " ++
          "(admitted: ('daily',))"))

/-- The cadence, one of the admitted intervals. -/
def resolveInterval (engine : ForecastEngine) (v : Option ℤ) :
    Except Raised ℕ := do
  let interval := v.getD 300
  refuseIf (interval ∉ allowedIntervals.map Int.ofNat)
    ("spec.prediction.sampleIntervalSeconds must be one of (60, 120, 180, " ++
      s!"240, 300, 360, 480, 600), got {interval}")
  refuseIf (engine = .legacyLstm ∧ interval ≠ legacyLstmInterval)
    "engine legacyLstm supports only the 600 s grid"
  return interval.toNat

/-- The horizon in seconds. -/
def resolveHorizon (interval : ℕ) (v : Option ℤ) : Except Raised ℕ := do
  let minutes := v.getD 60
  refuseIf (minutes ≤ 0)
    s!"spec.prediction.horizonMinutes must be a positive integer, got {minutes}"
  let horizon := minutes.toNat * 60
  refuseIf (maxHorizonSeconds < horizon ∨ horizon % interval ≠ 0 ∨
      maxSteps < horizon / interval)
    (s!"horizon {minutes} min must be at most 60 min, at most 60 steps and " ++
      s!"a multiple of the {interval} s cadence")
  return horizon

/-- The settings of a live autoscaler object, validated field by field and
across fields. -/
def resolveSettings (p : PredictionSpec) : Except Raised ForecastSettings := do
  refuseIf (p.enabled = false)
    "forecasting is disabled for this autoscaler (spec.prediction.enabled)"
  let engine ← resolveEngine p.engine
  let seasonality ← resolveSeasonality p.seasonality
  let interval ← resolveInterval engine p.sampleIntervalSeconds
  let horizon ← resolveHorizon interval p.horizonMinutes
  let historyDays ← topField "historyDays" 1 maxHistoryDays 14 p.historyDays
  let settle ← topField "settlementSeconds" 0 900 120 p.settlementSeconds
  let grace ← topField "outcomeGraceSeconds" 0 3600 600 p.outcomeGraceSeconds
  let risk ← p.risk.resolve
  let calibration ← p.calibration.resolve
  let trust ← p.trust.resolve
  let extra ← p.predictiveExtra.resolve
  let s : ForecastSettings := ⟨engine, interval, seasonality, historyDays,
    horizon, settle, grace, risk, calibration, trust, extra⟩
  s.checkFeasible
  return s

/-- What the service relies on of accepted settings. -/
structure ForecastSettings.Accepted (s : ForecastSettings) : Prop where
  interval_mem : s.sampleIntervalSeconds ∈ allowedIntervals
  minMiscoverage_pos : 0 < s.calibration.minMiscoverageBps
  minMiscoverage_le : s.calibration.minMiscoverageBps ≤ s.risk.miscoverageBps
  miscoverage_le : s.risk.miscoverageBps ≤ s.calibration.maxMiscoverageBps
  maxMiscoverage_lt : s.calibration.maxMiscoverageBps < bps
  minWindows_pos : 1 ≤ s.calibration.minWindows
  minWindows_le : s.calibration.minWindows ≤ s.calibration.maxScores
  etaBps_le : s.calibration.etaBps ≤ bps
  historyDays_pos : 1 ≤ s.historyDays
  horizon_le : s.horizonSeconds ≤ maxHorizonSeconds

theorem CalibrationSpec.resolve_bounds {c : CalibrationSpec}
    {s : CalibrationSettings} (h : c.resolve = .ok s) :
    0 < s.minMiscoverageBps ∧ s.maxMiscoverageBps < bps ∧
      1 ≤ s.minWindows ∧ s.etaBps ≤ bps := by
  simp only [CalibrationSpec.resolve, intField, Except.bind_eq_ok_iff] at h
  obtain ⟨minWindows, hminWindows, maxScores, -, retentionDays, -, etaBps, heta,
    minBps, hmin, maxBps, hmax, hs⟩ := h
  cases hs
  have hminWindows := boundedField_bounds hminWindows (by decide)
  have heta := boundedField_bounds heta (by decide)
  have hmin := boundedField_bounds hmin (by decide)
  have hmax := boundedField_bounds hmax (by decide)
  simp only [bps]
  omega

theorem resolveInterval_mem {engine : ForecastEngine} {v : Option ℤ} {n : ℕ}
    (h : resolveInterval engine v = .ok n) : n ∈ allowedIntervals := by
  simp only [resolveInterval, refuseIf_bind_eq_ok, not_not] at h
  obtain ⟨hmem, -, hn⟩ := h
  obtain ⟨m, hm, hv⟩ := List.mem_map.mp hmem
  cases hn
  rw [← hv]
  exact hm

theorem resolveHorizon_le {interval : ℕ} {v : Option ℤ} {n : ℕ}
    (h : resolveHorizon interval v = .ok n) : n ≤ maxHorizonSeconds := by
  simp only [resolveHorizon, refuseIf_bind_eq_ok, not_or, not_lt] at h
  obtain ⟨-, ⟨hle, -⟩, hn⟩ := h
  cases hn
  exact hle

theorem resolveSettings_accepted {p : PredictionSpec} {s : ForecastSettings}
    (h : resolveSettings p = .ok s) : s.Accepted := by
  simp only [resolveSettings, Except.bind_eq_ok_iff] at h
  obtain ⟨_, -, engine, -, seasonality, -, interval, hinterval, horizon,
    hhorizon, historyDays, hhistory, settle, -, grace, -, risk, -, calibration,
    hcalibration, trust, -, extra, -, _, hfeasible, hs⟩ := h
  cases hs
  have hhistoryDays := boundedField_bounds hhistory (by decide)
  obtain ⟨hmin, hmax, hwindows, heta⟩ :=
    CalibrationSpec.resolve_bounds hcalibration
  simp only [ForecastSettings.checkFeasible, refuseIf_bind_eq_ok,
    refuseIf_eq_ok, not_not, not_lt, not_le] at hfeasible
  exact ⟨resolveInterval_mem hinterval, hmin, hfeasible.1.1, hfeasible.1.2,
    hmax, hwindows, hfeasible.2.2.1, heta, hhistoryDays.1,
    resolveHorizon_le hhorizon⟩

theorem ForecastSettings.Accepted.interval_pos {s : ForecastSettings}
    (h : s.Accepted) : 0 < s.sampleIntervalSeconds := by
  have hall : ∀ dt ∈ allowedIntervals, 0 < dt := by decide
  exact hall _ h.interval_mem

/-- Accepted settings and a positive lead give a policy. -/
theorem ForecastSettings.Accepted.fromSettings {s : ForecastSettings}
    (h : s.Accepted) {lead : ℕ} (hlead : 0 < lead) :
    ∃ policy, CalibrationPolicy.fromSettings s lead = .ok policy ∧
      policy.leadSeconds = lead ∧
      policy.nominalBps = s.risk.miscoverageBps := by
  unfold CalibrationPolicy.fromSettings
  rw [dif_pos ⟨⟨h.minMiscoverage_pos, h.minMiscoverage_le, h.miscoverage_le,
    h.maxMiscoverage_lt⟩, hlead, h.minWindows_pos, h.minWindows_le,
    h.etaBps_le⟩]
  exact ⟨_, rfl, rfl, rfl⟩

inductive LeadMethod
  | configured
  | measured
deriving DecidableEq, Repr

/-- The operator's lead choice: the lead, the startup budget and the actuation
allowance. -/
structure LeadSelection where
  leadSeconds : ℕ
  startupDelaySeconds : ℕ
  actuationAllowanceSeconds : ℕ
  method : LeadMethod
  sampleCount : ℕ
  observedGeneration : ℕ
deriving DecidableEq, Repr

/-- `status.prediction.lead` as recorded. -/
structure LeadStatus where
  seconds : ℤ
  startupDelaySeconds : ℤ
  actuationAllowanceSeconds : ℤ
  method : String
  sampleCount : ℤ
  observedGeneration : ℤ
deriving DecidableEq, Repr

/-- The recorded lead read back, or why it is malformed. -/
def LeadStatus.parse (lead : LeadStatus) : Except String LeadSelection :=
  let selection (method : LeadMethod) : Except String LeadSelection :=
    if lead.seconds < 0 ∨ lead.startupDelaySeconds < 0 ∨
        lead.actuationAllowanceSeconds < 0 ∨ lead.sampleCount < 0 ∨
        lead.observedGeneration < 0 then
      .error "lead fields must be non-negative integers"
    else
      .ok ⟨lead.seconds.toNat, lead.startupDelaySeconds.toNat,
        lead.actuationAllowanceSeconds.toNat, method, lead.sampleCount.toNat,
        lead.observedGeneration.toNat⟩
  match lead.method with
  | "configured" => selection .configured
  | "measured" => selection .measured
  | method => .error s!"lead method '{method}' is unknown"

/-- The lead when it is valid for this generation and these settings, else
why it is not. -/
def resolveLead (lead : Option LeadStatus) (settings : ForecastSettings)
    (generation : ℕ) : Except String LeadSelection :=
  match lead with
  | none => .error "no lead recorded in status.prediction.lead"
  | some lead => do
      let sel ← lead.parse
      let dt := settings.sampleIntervalSeconds
      if sel.observedGeneration ≠ generation then
        .error (s!"the lead was selected for generation " ++
          s!"{sel.observedGeneration}, the object is at {generation}")
      else if sel.leadSeconds < dt ∨ sel.leadSeconds % dt ≠ 0 ∨
          settings.horizonSeconds < sel.leadSeconds then
        .error ("the lead must be a positive multiple of the cadence within " ++
          "the horizon")
      else if sel.leadSeconds < sel.startupDelaySeconds + dt +
          sel.actuationAllowanceSeconds then
        .error ("the lead does not cover startup delay + decision interval + " ++
          "actuation allowance")
      else .ok sel

/-- A lead that fits the settings. -/
structure LeadSelection.Fits (lead : LeadSelection)
    (settings : ForecastSettings) : Prop where
  interval_le : settings.sampleIntervalSeconds ≤ lead.leadSeconds
  multiple : lead.leadSeconds % settings.sampleIntervalSeconds = 0
  le_horizon : lead.leadSeconds ≤ settings.horizonSeconds
  covers : lead.startupDelaySeconds + settings.sampleIntervalSeconds +
    lead.actuationAllowanceSeconds ≤ lead.leadSeconds

theorem resolveLead_fits {lead : Option LeadStatus}
    {settings : ForecastSettings} {generation : ℕ} {sel : LeadSelection}
    (h : resolveLead lead settings generation = .ok sel) :
    sel.Fits settings := by
  cases lead with
  | none => cases h
  | some lead =>
      simp only [resolveLead] at h
      cases hparse : lead.parse with
      | error why => rw [hparse] at h; cases h
      | ok parsed =>
          rw [hparse] at h
          change (if _ then _ else if _ then _ else if _ then _ else _) = _ at h
          split at h
          · cases h
          split at h
          · cases h
          rename_i hgrid
          split at h
          · cases h
          rename_i hcovers
          cases h
          simp only [not_or, not_lt, ne_eq, not_not] at hgrid hcovers
          exact ⟨hgrid.1, hgrid.2.1, hgrid.2.2, hcovers⟩

/-- The window of an origin: every grid time after it up to the lead. -/
structure ForecastWindow where
  decisionOrigin : ℕ
  intervalSeconds : ℕ
  leadSeconds : ℕ
deriving DecidableEq, Repr

def ForecastWindow.windowStart (w : ForecastWindow) : ℕ := w.decisionOrigin

def ForecastWindow.windowEnd (w : ForecastWindow) : ℕ :=
  w.decisionOrigin + w.leadSeconds

def ForecastWindow.targetTimestamps (w : ForecastWindow) : List ℕ :=
  (List.range (w.leadSeconds / w.intervalSeconds)).map fun k =>
    w.decisionOrigin + (k + 1) * w.intervalSeconds

/-- The last instant a write may act on this window. -/
def ForecastWindow.validUntil (w : ForecastWindow) (lead : LeadSelection) : ℤ :=
  let t : ℤ := w.decisionOrigin
  let dt : ℤ := w.intervalSeconds
  let a : ℤ := lead.actuationAllowanceSeconds
  min (t + dt - a) (t + w.leadSeconds - lead.startupDelaySeconds - dt - a)

/-- Usable only while now and the allowance precede the first target and the
deadline has not passed. -/
def ForecastWindow.actionableAt (w : ForecastWindow) (nowMs : ℕ)
    (lead : LeadSelection) : Bool :=
  decide (nowMs + lead.actuationAllowanceSeconds * 1000 <
      w.targetTimestamps.headD 0 * 1000 ∧
    (nowMs : ℤ) < w.validUntil lead * 1000)

def makeWindow (origin : ℕ) (settings : ForecastSettings)
    (lead : LeadSelection) : Except Raised ForecastWindow := do
  let dt := settings.sampleIntervalSeconds
  refuseIf (origin % dt ≠ 0)
    s!"decision origin {origin} is not on the {dt} s grid"
  refuseIf (lead.leadSeconds % dt ≠ 0 ∨ ¬(dt ≤ lead.leadSeconds ∧
      lead.leadSeconds ≤ settings.horizonSeconds))
    "the lead must be a positive multiple of the cadence within the horizon"
  return ⟨origin, dt, lead.leadSeconds⟩

theorem LeadSelection.Fits.makeWindow {lead : LeadSelection}
    {settings : ForecastSettings} (h : lead.Fits settings) {origin : ℕ}
    (horigin : origin % settings.sampleIntervalSeconds = 0) :
    Forecasting.makeWindow origin settings lead =
      .ok ⟨origin, settings.sampleIntervalSeconds, lead.leadSeconds⟩ := by
  simp only [Forecasting.makeWindow, refuseIf_bind_eq_ok, horigin, h.multiple,
    h.interval_le, h.le_horizon, ne_eq, not_true_eq_false, and_self, or_self,
    not_false_eq_true, true_and]
  rfl

/-- The grid of the window that an issuance is checked against. -/
theorem ForecastWindow.targetTimestamps_eq (w : ForecastWindow) :
    w.targetTimestamps =
      windowGrid w.decisionOrigin w.windowEnd w.intervalSeconds := by
  unfold ForecastWindow.targetTimestamps windowGrid ForecastWindow.windowEnd
  rw [Nat.add_sub_cancel_left]

/-- The compiled query of an autoscaler and its live target. -/
structure ResolvedSignal where
  targetNamespace : String
  targetName : String
  querySha256 : String
  contract : String
  autoscalerUid : String
  targetUid : String
  generation : ℕ
deriving DecidableEq, Repr

/-- The identity forecast evidence belongs to.  Trust thresholds, the
predictive-extra caps and the horizon are not part of it. -/
def evidenceKey (signal : ResolvedSignal) (settings : ForecastSettings)
    (leadSeconds : ℕ) : EvidenceKey where
  autoscalerUid := signal.autoscalerUid
  targetUid := signal.targetUid
  querySha256 := signal.querySha256
  intervalSeconds := settings.sampleIntervalSeconds
  leadSeconds
  engine := settings.engine
  seasonality := settings.seasonality
  historyDays := settings.historyDays
  settlementSeconds := settings.settlementSeconds
  outcomeGraceSeconds := settings.outcomeGraceSeconds
  risk := settings.risk
  calibration := settings.calibration

/-- A request's body; the settings stand for the digest the caller sends. -/
structure V2Request where
  autoscalerNamespace : String
  autoscalerName : String
  autoscalerUid : String
  autoscalerGeneration : ℕ
  targetUid : String
  metricQuerySha256 : String
  contract : String
  application : String
  applicationNamespace : String
  forecastContract : String
  decisionOrigin : ℕ
  settings : ForecastSettings
deriving DecidableEq, Repr

/-- The live objects a request is checked against, read once. -/
structure LiveAutoscaler where
  signal : ResolvedSignal
  prediction : PredictionSpec
  lead : Option LeadStatus
deriving DecidableEq, Repr

/-- What reading the autoscaler gives. -/
inductive Lookup
  | failed (message : String)
  | refused (message : String)
  | resolved (live : LiveAutoscaler)
deriving DecidableEq, Repr

structure BoundRequest where
  autoscalerNamespace : String
  autoscalerName : String
  signal : ResolvedSignal
  settings : ForecastSettings
  decisionOrigin : ℕ
  lead : Except String LeadSelection

/-- `parse_request`: the schema-level checks that a typed body leaves. -/
def V2Request.parse (r : V2Request) : Except Raised Unit := do
  refuseIf (r.forecastContract ≠ Forecasting.forecastContract)
    (s!"forecast_contract '{r.forecastContract}' is not " ++
      s!"'{Forecasting.forecastContract}'")
  refuseIf (r.contract ≠ signalContract)
    s!"contract '{r.contract}' is not '{signalContract}'"

/-- `resolve_signal`: the request names exactly the live objects. -/
def V2Request.resolveSignal (r : V2Request) (sig : ResolvedSignal) :
    Except Raised ResolvedSignal :=
  if sig.autoscalerUid ≠ r.autoscalerUid then
    .error (.provenanceRefused "the autoscaler was replaced (UID differs)")
  else if sig.generation ≠ r.autoscalerGeneration then
    .error (.provenanceRefused
      (s!"generation mismatch (request {r.autoscalerGeneration}, object and " ++
        s!"compiled {sig.generation})"))
  else if sig.querySha256 ≠ r.metricQuerySha256 then
    .error (.provenanceRefused "query hash mismatch")
  else if sig.targetUid ≠ r.targetUid then
    .error (.provenanceRefused
      "the target Deployment was replaced (UID differs from the request)")
  else if r.application ≠ sig.targetName ∨
      r.applicationNamespace ≠ sig.targetNamespace then
    .error (.provenanceRefused
      "application/namespace do not name the autoscaler's target")
  else .ok sig

/-- The live object of a read. -/
def Lookup.get : Lookup → Except Raised LiveAutoscaler
  | .failed message => .error (.lookupFailed message)
  | .refused message => .error (.provenanceRefused message)
  | .resolved live => .ok live

/-- Validate a request against the live autoscaler: its identity, the exact
settings and the current grid origin. -/
def bindRequest (r : V2Request) (lookup : Lookup) (nowMs : ℕ) :
    Except Raised BoundRequest := do
  r.parse
  let live ← lookup.get
  let sig ← r.resolveSignal live.signal
  let settings ← resolveSettings live.prediction
  refuseIf (settings ≠ r.settings)
    "settings_sha256 does not match the autoscaler's resolved settings"
  let dt := settings.sampleIntervalSeconds
  refuseIf (r.decisionOrigin % dt ≠ 0)
    s!"decision_origin is not on the {dt} s grid"
  refuseIf (¬(r.decisionOrigin * 1000 ≤ nowMs ∧
      nowMs < (r.decisionOrigin + dt) * 1000))
    "decision_origin is not the current grid origin"
  return ⟨r.autoscalerNamespace, r.autoscalerName, sig, settings,
    r.decisionOrigin, resolveLead live.lead settings sig.generation⟩

/-- What a request that was accepted is bound to. -/
structure BoundRequest.Binds (b : BoundRequest) (r : V2Request)
    (nowMs : ℕ) : Prop where
  namespace_eq : b.autoscalerNamespace = r.autoscalerNamespace
  name_eq : b.autoscalerName = r.autoscalerName
  uid_eq : b.signal.autoscalerUid = r.autoscalerUid
  generation_eq : b.signal.generation = r.autoscalerGeneration
  query_eq : b.signal.querySha256 = r.metricQuerySha256
  targetUid_eq : b.signal.targetUid = r.targetUid
  targetName_eq : b.signal.targetName = r.application
  targetNamespace_eq : b.signal.targetNamespace = r.applicationNamespace
  settings_eq : b.settings = r.settings
  origin_eq : b.decisionOrigin = r.decisionOrigin
  accepted : b.settings.Accepted
  on_grid : b.decisionOrigin % b.settings.sampleIntervalSeconds = 0
  origin_le : b.decisionOrigin * 1000 ≤ nowMs
  current : nowMs <
    (b.decisionOrigin + b.settings.sampleIntervalSeconds) * 1000
  lead_fits : ∀ lead, b.lead = .ok lead → lead.Fits b.settings

theorem V2Request.resolveSignal_eq_ok {r : V2Request}
    {sig sig' : ResolvedSignal} (h : r.resolveSignal sig = .ok sig') :
    sig' = sig ∧ sig.autoscalerUid = r.autoscalerUid ∧
      sig.generation = r.autoscalerGeneration ∧
      sig.querySha256 = r.metricQuerySha256 ∧ sig.targetUid = r.targetUid ∧
      sig.targetName = r.application ∧
      sig.targetNamespace = r.applicationNamespace := by
  unfold V2Request.resolveSignal at h
  split_ifs at h with huid hgeneration hquery htarget hname
  cases h
  simp only [not_or, ne_eq, not_not] at huid hgeneration hquery htarget hname
  exact ⟨rfl, huid, hgeneration, hquery, htarget, hname.1.symm, hname.2.symm⟩

theorem bindRequest_binds {r : V2Request} {lookup : Lookup} {nowMs : ℕ}
    {b : BoundRequest} (h : bindRequest r lookup nowMs = .ok b) :
    b.Binds r nowMs := by
  simp only [bindRequest, Except.bind_eq_ok_iff, refuseIf_eq_ok, ne_eq,
    not_not] at h
  obtain ⟨_, -, live, -, sig, hsig, settings, hsettings, _, heq, _, hgrid, _,
    hcurrent, hb⟩ := h
  cases hb
  obtain ⟨rfl, huid, hgeneration, hquery, htarget, hname, hnamespace⟩ :=
    V2Request.resolveSignal_eq_ok hsig
  exact ⟨rfl, rfl, huid, hgeneration, hquery, htarget, hname, hnamespace, heq,
    rfl, resolveSettings_accepted hsettings, hgrid, hcurrent.1, hcurrent.2,
    fun lead hlead => resolveLead_fits hlead⟩

/-- A response; the evidence key, the settings and the checkpoint stand for
their digests. -/
structure V2Response where
  autoscalerNamespace : String
  autoscalerName : String
  autoscalerUid : String
  autoscalerGeneration : ℕ
  targetNamespace : String
  targetName : String
  targetUid : String
  metricQuerySha256 : String
  contract : String
  settings : ForecastSettings
  forecastContract : String
  unit : String
  issuanceId : IssuanceKey
  issuedAtMs : ℕ
  inputEnd : ℕ
  inputReceivedThroughMs : ℕ
  fitCutoff : Option ℕ
  modelFamily : Model
  modelRecipe : String
  artifactSha256 : Option String
  calibrationEpoch : EvidenceKey
  checkpoint : EpochState
  decisionOrigin : ℕ
  windowStart : ℕ
  windowEnd : ℕ
  targetTimestamps : List ℕ
  sampleIntervalSeconds : ℕ
  leadSeconds : ℕ
  startupDelaySeconds : ℕ
  actuationAllowanceSeconds : ℕ
  validUntil : ℤ
  pointRps : List ℚ
  baseWindowMaxRps : ℚ
  upperWindowMaxRps : Option ℚ
  nominalMiscoverageBps : ℕ
  workingMiscoverageRatio : Option ℚ
  calibrationWindows : ℕ
  prospectiveWindows : ℕ
  gateCoverageRatio : Option ℚ
  missingOutcomeRatio : Option ℚ
  selectedCandidate : Model
  trustState : Phase
  reason : Reason
  predictiveEligible : Bool
  evidenceCutoff : Option ℕ
deriving DecidableEq

/-- The maximum of a trajectory. -/
def maxRps (points : List ℚ) : ℚ := points.max?.getD 0

/-- A ratio within zero and one. -/
def ratioOk (x : Option ℚ) : Prop := ∀ r ∈ x, 0 ≤ r ∧ r ≤ 1

instance (x : Option ℚ) : Decidable (ratioOk x) :=
  match x with
  | none => .isTrue fun r hr => nomatch hr
  | some r =>
      decidable_of_iff (0 ≤ r ∧ r ≤ 1) ⟨fun h r' hr' => by cases hr'; exact h,
        fun h => h r rfl⟩

/-- The window of a response. -/
def V2Response.window (r : V2Response) : ForecastWindow :=
  ⟨r.decisionOrigin, r.sampleIntervalSeconds, r.leadSeconds⟩

def V2Response.lead (r : V2Response) : LeadSelection :=
  ⟨r.leadSeconds, r.startupDelaySeconds, r.actuationAllowanceSeconds,
    .configured, 0, 0⟩

/-- The window part of a response's coherence. -/
def V2Response.checkWindow (r : V2Response) : Except Raised Unit := do
  let dt := r.sampleIntervalSeconds
  let w := r.window
  refuseIf (dt ∉ allowedIntervals ∨ r.decisionOrigin % dt ≠ 0 ∨
      r.leadSeconds % dt ≠ 0 ∨ r.leadSeconds < dt)
    "the window is not on an admitted grid"
  refuseIf ((r.windowStart, r.windowEnd, r.targetTimestamps) ≠
      (w.windowStart, w.windowEnd, w.targetTimestamps))
    "window bounds or target timestamps do not match the origin and lead"
  refuseIf (r.validUntil ≠ w.validUntil r.lead)
    "valid_until does not follow from the window and the lead"

/-- The rates of a response. -/
def V2Response.checkRates (r : V2Response) : Except Raised Unit := do
  refuseIf (r.pointRps.length ≠ r.targetTimestamps.length ∨
      ¬∀ x ∈ r.pointRps, 0 ≤ x)
    "point_rps must hold one finite, non-negative rate per target"
  refuseIf (r.baseWindowMaxRps < 0 ∨ r.baseWindowMaxRps ≠ maxRps r.pointRps)
    "base_window_max_rps must be the maximum of point_rps"
  refuseIf (∃ u ∈ r.upperWindowMaxRps, u < 0)
    "upper_window_max_rps must be null or a finite, non-negative rate"
  refuseIf (¬ratioOk r.gateCoverageRatio)
    "gate_coverage_ratio must be null or within 0..1"
  refuseIf (¬ratioOk r.missingOutcomeRatio)
    "missing_outcome_ratio must be null or within 0..1"
  refuseIf (¬ratioOk r.workingMiscoverageRatio)
    "working_miscoverage_ratio must be null or within 0..1"
  refuseIf (r.gateCoverageRatio.isSome ∧ r.calibrationWindows = 0 ∧
      r.prospectiveWindows = 0)
    "coverage without any scored window"

/-- The times of a response. -/
def V2Response.checkTimes (r : V2Response) : Except Raised Unit := do
  refuseIf (r.decisionOrigin < r.inputEnd ∨
      ∃ cutoff ∈ r.fitCutoff, r.inputEnd < cutoff)
    "input or fit cutoff after the decision origin"
  refuseIf (r.issuedAtMs < r.inputReceivedThroughMs ∨
      r.issuedAtMs < r.decisionOrigin * 1000)
    "issue/receipt times are out of order"
  refuseIf (∃ cutoff ∈ r.evidenceCutoff, r.issuedAtMs < cutoff * 1000)
    "evidence cutoff after the issue time"
  refuseIf (r.targetNamespace ≠ r.autoscalerNamespace)
    "the target must be in the autoscaler's namespace"
  refuseIf (r.targetTimestamps.headD 0 * 1000 ≤ r.issuedAtMs)
    "the issuance is not before the first target"

/-- What an eligible response needs. -/
def V2Response.checkEligible (r : V2Response) : Except Raised Unit := do
  refuseIf (r.predictiveEligible ∧ (r.upperWindowMaxRps = none ∨
      r.trustState ≠ .trusted ∨ r.reason ≠ .ready))
    ("an eligible forecast needs an upper bound, trust state Trusted and " ++
      "reason Ready")
  refuseIf (r.predictiveEligible ∧ ¬r.window.actionableAt r.issuedAtMs r.lead)
    ("an eligible forecast must be issued while its window is still " ++
      "actionable")

/-- The internal coherence of a response. -/
def V2Response.checkCoherence (r : V2Response) : Except Raised Unit := do
  refuseIf (r.forecastContract ≠ Forecasting.forecastContract ∨
      r.contract ≠ signalContract ∨ r.unit ≠ Forecasting.unit)
    "unknown forecast contract, signal contract or unit"
  refuseIf (r.validUntil < 0) "valid_until must be a non-negative integer"
  r.checkWindow
  r.checkRates
  r.checkTimes
  r.checkEligible

/-- `bound.evidence_key`. -/
def BoundRequest.evidenceKey (b : BoundRequest) (lead : LeadSelection) :
    EvidenceKey :=
  Forecasting.evidenceKey b.signal b.settings lead.leadSeconds

/-- The response agrees with the request it answers. -/
def V2Response.checkBound (r : V2Response) (b : BoundRequest) :
    Except Raised Unit := do
  let s := b.signal
  refuseIf (¬(r.autoscalerNamespace = b.autoscalerNamespace ∧
      r.autoscalerName = b.autoscalerName ∧
      r.autoscalerUid = s.autoscalerUid ∧
      r.autoscalerGeneration = s.generation ∧
      r.targetNamespace = s.targetNamespace ∧ r.targetName = s.targetName ∧
      r.targetUid = s.targetUid ∧ r.metricQuerySha256 = s.querySha256 ∧
      r.settings = b.settings ∧ r.decisionOrigin = b.decisionOrigin ∧
      r.sampleIntervalSeconds = b.settings.sampleIntervalSeconds ∧
      r.nominalMiscoverageBps = b.settings.risk.miscoverageBps))
    "the response does not echo the request's identity, settings and origin"
  match b.lead with
  | .error _ =>
      .error (.contractRefused
        "the response's lead differs from the autoscaler's")
  | .ok lead =>
      refuseIf ((r.leadSeconds, r.startupDelaySeconds,
          r.actuationAllowanceSeconds) ≠ (lead.leadSeconds,
          lead.startupDelaySeconds, lead.actuationAllowanceSeconds))
        "the response's lead differs from the autoscaler's"
      refuseIf (r.calibrationEpoch ≠ b.evidenceKey lead)
        ("the response's calibration epoch is not the request's evidence " ++
          "key")

/-- `check_response`, with the request it answers. -/
def checkResponse (r : V2Response) (b : BoundRequest) : Except Raised Unit := do
  r.checkCoherence
  r.checkBound b

end PredictiveAutoscaler.Forecasting
