/-
Forecast contract v2, the operator's side: the startup budget, the decision
interval, the lead that is chosen from them and published, and the window of a
decision.  A published lead covers the next decision: a write at the deadline
of a decision's window is usable within that window, whatever the grid time.
-/
import PredictiveAutoscaler.ForecastV2.Settings
import PredictiveAutoscaler.Reconcile

namespace PredictiveAutoscaler.ForecastV2

def v2DefaultActuationSecs : ℤ := 15

def startupMinSamples : ℤ := 20

def startupMarginPercent : ℤ := 25

/-- `spec.behavior.startup`. -/
structure StartupBehavior where
  fallbackDelaySeconds : Option ℤ := none
  minimumDelaySeconds : Option ℤ := none
  actuationAllowanceSeconds : Option ℤ := none
deriving DecidableEq, Repr

/-- `spec.behavior.startup` with its defaults. -/
structure StartupConfig where
  fallback : Option ℤ
  minimum : ℤ
  allowance : ℤ
deriving DecidableEq, Repr

def startupConfigOf (startup : Option StartupBehavior) : StartupConfig :=
  match startup with
  | none => ⟨none, 0, v2DefaultActuationSecs⟩
  | some s => ⟨s.fallbackDelaySeconds, s.minimumDelaySeconds.getD 0,
      s.actuationAllowanceSeconds.getD v2DefaultActuationSecs⟩

/-- What a reconcile observed of the target's starts, in seconds. -/
structure StartupObservation where
  sampleCount : ℤ
  p90 : Option ℤ
  pending : Option ℤ
deriving DecidableEq, Repr

/-- The budget and how it was chosen; `none` when there is none. -/
def startupBudget (obs : StartupObservation) (cfg : StartupConfig) :
    Option (ℤ × String) :=
  let chosen : Option (ℤ × String) :=
    match obs.p90, cfg.fallback with
    | some p90, _ =>
        some ((p90 * (100 + startupMarginPercent) + 99).tdiv 100, "measured")
    | none, some fallback => some (fallback, "configured")
    | none, none => none
  chosen.map fun (d, method) =>
    let d := if d < cfg.minimum then cfg.minimum else d
    match obs.pending with
    | none => (d, method)
    | some pending => (if d < pending then pending else d, method)

/-- Go's `Duration.Seconds()`. -/
def durationSeconds (d : ℤ) : ℚ :=
  binary64 (d.tdiv second + binary64 (d.tmod second / 1000000000))

def v2ScheduleSlackSeconds : ℤ := 5

/-- The reconcile interval rounded up to the cadence, at least one cadence. -/
def v2DecisionInterval (reconcileInterval dt : ℤ) : ℤ :=
  let c := ⌈durationSeconds reconcileInterval⌉
  let c := (c + dt - 1).tdiv dt * dt
  if c < dt then dt else c

/-- The decision period plus the start offset and queueing jitter. -/
def v2LeadDecisionInterval (reconcileInterval dt : ℤ) : ℤ :=
  v2DecisionInterval reconcileInterval dt + v2ScheduleSlackSeconds

theorem interval_le_v2DecisionInterval (reconcileInterval dt : ℤ) :
    dt ≤ v2DecisionInterval reconcileInterval dt := by
  unfold v2DecisionInterval
  dsimp only
  split_ifs with hshort
  · exact le_rfl
  · exact not_lt.mp hshort

/-- `status.prediction.lead`. -/
structure PredictionLead where
  seconds : ℤ
  startupDelaySeconds : ℤ
  actuationAllowanceSeconds : ℤ
  method : String
  sampleCount : ℤ
  observedGeneration : ℤ
deriving DecidableEq, Repr

/-- `ceil((D + C + A + Δ) / Δ) * Δ`. -/
def v2AutomaticLead (startup decisionInterval allowance interval : ℤ) : ℤ :=
  let total := startup + decisionInterval + allowance + interval
  (total + interval - 1).tdiv interval * interval

/-- Why the service would not accept a lead; `none` when it will. -/
def v2LeadProblem (l : PredictionLead) (s : V2Settings) (generation : ℤ) :
    Option String :=
  let dt := s.sampleIntervalSeconds
  if l.method ≠ "configured" ∧ l.method ≠ "measured" then
    some s!"lead method \"{l.method}\" is unknown"
  else if l.seconds < 0 ∨ l.startupDelaySeconds < 0 ∨
      l.actuationAllowanceSeconds < 0 ∨ l.sampleCount < 0 ∨
      l.observedGeneration < 0 then
    some "lead fields must be non-negative integers"
  else if l.observedGeneration ≠ generation then
    some (s!"the lead was selected for generation {l.observedGeneration}, " ++
      s!"the object is at {generation}")
  else if l.seconds < dt ∨ l.seconds.tmod dt ≠ 0 ∨
      s.horizonSeconds < l.seconds then
    some ("the lead must be a positive multiple of the cadence within the " ++
      "horizon")
  else if l.seconds <
      l.startupDelaySeconds + dt + l.actuationAllowanceSeconds then
    some ("the lead does not cover startup delay + decision interval + " ++
      "actuation allowance")
  else none

/-- Go's `int32(x)` of an `int64`. -/
def wrapInt32 (x : ℤ) : ℤ := x.bmod (2 ^ 32)

theorem wrapInt32_eq {x : ℤ} (hlow : minInt32 ≤ x) (hhigh : x ≤ maxInt32) :
    wrapInt32 x = x := by
  simp only [minInt32, maxInt32] at hlow hhigh
  exact Int.bmod_eq_of_le (by omega) (by omega)

/-- What `prepareV2` publishes in `status.prediction`. -/
structure PredictionStatus where
  settingsSHA256 : String := ""
  leadBasis : String := ""
  frozenLeadSeconds : ℤ := 0
  lead : Option PredictionLead := none
deriving DecidableEq, Repr

/-- What `prepareV2` reads of the live autoscaler. -/
structure PreparedObject where
  prediction : PredictionConfig
  startup : Option StartupBehavior
  generation : ℤ
  status : Option PredictionStatus
deriving DecidableEq, Repr

section Prepare

variable (sha256 : List UInt8 → String)

/-- The basis within which a lead is not shortened. -/
def leadBasisDoc (settingsSHA256 : String) (cfg : StartupConfig) (c : ℤ) :
    Doc :=
  .record [("settings_sha256", .text settingsSHA256),
    ("fallback", .int (cfg.fallback.getD (-1))), ("minimum", .int cfg.minimum),
    ("allowance", .int cfg.allowance), ("decision_interval", .int c)]

/-- The lead frozen within this basis, zero when there is none. -/
def frozenLead (status : Option PredictionStatus) (leadBasis : String) : ℤ :=
  match status with
  | some prev => if prev.leadBasis = leadBasis then prev.frozenLeadSeconds else 0
  | none => 0

/-- The lead of accepted settings, or why there is none. -/
def selectLead (a : PreparedObject) (s : V2Settings)
    (obs : StartupObservation) (cfg : StartupConfig) (c frozen : ℤ) :
    Except String PredictionLead :=
  match startupBudget obs cfg with
  | none =>
      .error ("no startup budget: set " ++
        "spec.behavior.startup.fallbackDelaySeconds until enough starts are " ++
        s!"measured ({startupMinSamples} completed starts of the current pod " ++
        "template)")
  | some (d, method) =>
      let lead := v2AutomaticLead d c cfg.allowance s.sampleIntervalSeconds
      let lead := if lead < frozen then frozen else lead
      if s.horizonSeconds < lead then
        .error (s!"the lead {lead} s (startup {d} s + decision interval " ++
          s!"{c} s + allowance {cfg.allowance} s, on the " ++
          s!"{s.sampleIntervalSeconds} s grid) exceeds the " ++
          s!"{s.horizonSeconds} s horizon")
      else
        let sample := if method = "measured" then obs.sampleCount else 0
        let l : PredictionLead := ⟨wrapInt32 lead, wrapInt32 d,
          wrapInt32 cfg.allowance, method, wrapInt32 sample, a.generation⟩
        match v2LeadProblem l s a.generation with
        | some problem => .error problem
        | none => .ok l

/-- `prepareV2`: what is published before any request. -/
def prepareV2 (a : PreparedObject) (obs : StartupObservation)
    (reconcileInterval : ℤ) : PredictionStatus :=
  match resolveV2Settings a.prediction with
  | .error _ => {}
  | .ok s =>
      let cfg := startupConfigOf a.startup
      let settingsSHA256 := s.fingerprint sha256
      let c := v2LeadDecisionInterval reconcileInterval s.sampleIntervalSeconds
      let leadBasis := v2Hash sha256 (leadBasisDoc settingsSHA256 cfg c)
      let frozen := frozenLead a.status leadBasis
      match selectLead a s obs cfg c frozen with
      | .error _ => ⟨settingsSHA256, leadBasis, wrapInt32 frozen, none⟩
      | .ok l => ⟨settingsSHA256, leadBasis, l.seconds, some l⟩

end Prepare

/-- The automatic lead is not shorter than what it rounds up. -/
theorem le_v2AutomaticLead {startup decisionInterval allowance interval : ℤ}
    (hpos : 0 < interval)
    (htotal : 0 ≤ startup + decisionInterval + allowance + interval) :
    startup + decisionInterval + allowance + interval ≤
      v2AutomaticLead startup decisionInterval allowance interval := by
  unfold v2AutomaticLead
  dsimp only
  generalize startup + decisionInterval + allowance + interval = total at *
  rw [Int.tdiv_eq_ediv_of_nonneg (by omega)]
  have hmod := Int.emod_lt_of_pos (total + interval - 1) hpos
  have hdiv := Int.ediv_mul_add_emod (total + interval - 1) interval
  omega

/-- The lead that is selected is at least the automatic one, and passes the
service's checks. -/
theorem selectLead_eq_ok {a : PreparedObject} {s : V2Settings}
    {obs : StartupObservation} {cfg : StartupConfig} {c frozen d : ℤ}
    {method : String} {l : PredictionLead}
    (hbudget : startupBudget obs cfg = some (d, method))
    (h : selectLead a s obs cfg c frozen = .ok l) :
    ∃ lead, v2AutomaticLead d c cfg.allowance s.sampleIntervalSeconds ≤ lead ∧
      lead ≤ s.horizonSeconds ∧ l.seconds = wrapInt32 lead ∧
      l.startupDelaySeconds = wrapInt32 d ∧
      l.actuationAllowanceSeconds = wrapInt32 cfg.allowance ∧
      v2LeadProblem l s a.generation = none := by
  simp only [selectLead, hbudget] at h
  generalize hchosen : (if v2AutomaticLead d c cfg.allowance
    s.sampleIntervalSeconds < frozen then frozen else
      v2AutomaticLead d c cfg.allowance s.sampleIntervalSeconds) = lead at h
  have hlow : v2AutomaticLead d c cfg.allowance s.sampleIntervalSeconds ≤
      lead := by
    rw [← hchosen]
    split <;> omega
  split at h
  · cases h
  · rename_i hhorizon
    split at h
    · cases h
    · rename_i hproblem
      cases h
      exact ⟨lead, hlow, not_lt.mp hhorizon, rfl, rfl, rfl, hproblem⟩

section Published

variable {sha256 : List UInt8 → String} {a : PreparedObject}
  {s : V2Settings} {obs : StartupObservation} {reconcileInterval d : ℤ}
  {method : String} {l : PredictionLead}
  (hsettings : resolveV2Settings a.prediction = .ok s)
  (hbudget : startupBudget obs (startupConfigOf a.startup) = some (d, method))
  (hlead : (prepareV2 sha256 a obs reconcileInterval).lead = some l)
  (hd : 0 ≤ d) (hallowance : 0 ≤ (startupConfigOf a.startup).allowance)

include hsettings hbudget hlead hd hallowance

/-- A published lead carries the budget and the allowance it was chosen for,
and covers them together with a decision period and a cadence. -/
theorem prepareV2_lead :
    l.startupDelaySeconds = d ∧
      l.actuationAllowanceSeconds = (startupConfigOf a.startup).allowance ∧
      d + v2LeadDecisionInterval reconcileInterval s.sampleIntervalSeconds +
        (startupConfigOf a.startup).allowance + s.sampleIntervalSeconds ≤
        l.seconds ∧
      l.seconds ≤ s.horizonSeconds := by
  have haccepted := resolveV2Settings_accepted hsettings
  have hdt := haccepted.interval_pos
  have hhorizon := haccepted.horizon_le
  have hperiod := interval_le_v2DecisionInterval reconcileInterval
    s.sampleIntervalSeconds
  simp only [prepareV2, hsettings] at hlead
  split at hlead
  · cases hlead
  · rename_i selected hselected
    cases hlead
    obtain ⟨lead, hlow, hhigh, hseconds, hstartup, hallow, -⟩ :=
      selectLead_eq_ok hbudget hselected
    have hcovers := @le_v2AutomaticLead d
      (v2LeadDecisionInterval reconcileInterval s.sampleIntervalSeconds)
      (startupConfigOf a.startup).allowance s.sampleIntervalSeconds hdt
      (by unfold v2LeadDecisionInterval v2ScheduleSlackSeconds; omega)
    simp only [v2LeadDecisionInterval, v2ScheduleSlackSeconds,
      v2MaxHorizonSeconds] at *
    rw [hstartup, hallow, hseconds,
      wrapInt32_eq (by unfold minInt32; omega) (by unfold maxInt32; omega),
      wrapInt32_eq (by unfold minInt32; omega) (by unfold maxInt32; omega),
      wrapInt32_eq (by unfold minInt32; omega) (by unfold maxInt32; omega)]
    omega

end Published

/-- Origins a period apart meet every later grid time within a lead that spans
a period more than what a decision needs to become usable. -/
theorem exists_covering_origin {origins : ℕ → ℤ} {period need lead x : ℤ}
    (hperiod : 0 < period) (hneed : 0 < need) (hlead : need + period ≤ lead)
    (hstep : ∀ i, origins (i + 1) = origins i + period)
    (hx : origins 0 + need ≤ x) :
    ∃ i, origins i < x ∧ x ≤ origins i + lead ∧ origins i + need ≤ x := by
  have horigins : ∀ i : ℕ, origins i = origins 0 + i * period := by
    intro i
    induction i with
    | zero => simp
    | succ i ih =>
        rw [hstep, ih]
        push_cast
        ring
  -- The last decision whose window is usable by then.
  have hspan : 0 ≤ x - origins 0 - need := by omega
  obtain ⟨i, hi⟩ := Int.eq_ofNat_of_zero_le
    (Int.ediv_nonneg hspan hperiod.le)
  have hmod := Int.emod_lt_of_pos (x - origins 0 - need) hperiod
  have hnonneg := Int.emod_nonneg (x - origins 0 - need) hperiod.ne'
  have hdiv := Int.ediv_mul_add_emod (x - origins 0 - need) period
  rw [hi] at hdiv
  have horigin := horigins i
  refine ⟨i, ?_, ?_, ?_⟩ <;> omega

/-- For every lead that is published, a window is valid until its next origin
less the allowance, and every grid time from the first usable one on lies in
the window of a decision whose write, at its deadline and delayed by the
allowance and the startup budget, is usable by then. -/
theorem published_lead_covers {sha256 : List UInt8 → String}
    {a : PreparedObject} {s : V2Settings} {obs : StartupObservation}
    {reconcileInterval d : ℤ} {method : String} {l : PredictionLead}
    (hsettings : resolveV2Settings a.prediction = .ok s)
    (hbudget : startupBudget obs (startupConfigOf a.startup) =
      some (d, method))
    (hlead : (prepareV2 sha256 a obs reconcileInterval).lead = some l)
    (hd : 0 ≤ d) (hallowance : 0 ≤ (startupConfigOf a.startup).allowance) :
    (∀ origin, (V2Window.mk origin s.sampleIntervalSeconds l.seconds).validUntil
        l.startupDelaySeconds l.actuationAllowanceSeconds =
      origin + s.sampleIntervalSeconds - l.actuationAllowanceSeconds) ∧
    ∀ origins : ℕ → ℤ,
      (∀ i, origins (i + 1) = origins i +
        v2DecisionInterval reconcileInterval s.sampleIntervalSeconds) →
      ∀ x, origins 0 + s.sampleIntervalSeconds + l.startupDelaySeconds ≤ x →
        ∃ i, origins i < x ∧ x ≤ origins i + l.seconds ∧
          origins i + s.sampleIntervalSeconds + l.startupDelaySeconds ≤ x ∧
          (V2Window.mk (origins i) s.sampleIntervalSeconds
              l.seconds).validUntil l.startupDelaySeconds
            l.actuationAllowanceSeconds + l.actuationAllowanceSeconds +
            l.startupDelaySeconds ≤ x := by
  have hdt := (resolveV2Settings_accepted hsettings).interval_pos
  have hperiod := interval_le_v2DecisionInterval reconcileInterval
    s.sampleIntervalSeconds
  obtain ⟨hstartup, hallow, hcovers, -⟩ :=
    prepareV2_lead hsettings hbudget hlead hd hallowance
  rw [← hallow] at hcovers hallowance
  rw [← hstartup] at hcovers hd
  unfold v2LeadDecisionInterval v2ScheduleSlackSeconds at hcovers
  have hvalid : ∀ origin, (V2Window.mk origin s.sampleIntervalSeconds
      l.seconds).validUntil l.startupDelaySeconds
        l.actuationAllowanceSeconds =
      origin + s.sampleIntervalSeconds - l.actuationAllowanceSeconds := by
    intro origin
    simp only [V2Window.validUntil]
    rw [if_neg (by omega)]
  refine ⟨hvalid, ?_⟩
  intro origins hstep x hx
  have hneed : origins 0 + (s.sampleIntervalSeconds + l.startupDelaySeconds) ≤
      x := by
    omega
  have hspan : s.sampleIntervalSeconds + l.startupDelaySeconds +
      v2DecisionInterval reconcileInterval s.sampleIntervalSeconds ≤
        l.seconds := by
    omega
  obtain ⟨i, hafter, hwithin, husable⟩ :=
    exists_covering_origin (by omega) (by omega) hspan hstep hneed
  refine ⟨i, hafter, hwithin, by omega, ?_⟩
  rw [hvalid]
  omega

namespace LeadWitness

/-- The default settings with a configured budget of a minute. -/
def prepared : PreparedObject where
  prediction := { engine := engineStatistical }
  startup := some { fallbackDelaySeconds := some 60 }
  generation := 1
  status := none

def unmeasured : StartupObservation := ⟨0, none, none⟩

def lead : PredictionLead := ⟨900, 60, 15, "configured", 0, 1⟩

/-- Reconciled every minute, the lead is three cadences of five minutes. -/
theorem default_lead_covers :
    (prepareV2 (fun _ => "") prepared unmeasured (60 * second)).lead =
      some lead ∧
    ∀ x : ℤ, 360 ≤ x → ∃ i : ℕ, (i : ℤ) * 300 < x ∧ x ≤ i * 300 + 900 := by
  have hsettings : resolveV2Settings prepared.prediction = .ok v2Default := by
    decide +kernel
  have hlead : (prepareV2 (fun _ => "") prepared unmeasured
      (60 * second)).lead = some lead := by
    decide +kernel
  have hperiod : v2DecisionInterval (60 * second)
      v2Default.sampleIntervalSeconds = 300 := by
    decide +kernel
  have hbudget : startupBudget unmeasured
      (startupConfigOf prepared.startup) = some (60, "configured") := by
    decide
  have hcovers := (published_lead_covers hsettings hbudget hlead
    (by decide) (by decide)).2 (fun i => i * 300) (by
      intro i
      rw [hperiod]
      push_cast
      ring)
  refine ⟨hlead, ?_⟩
  intro x hx
  have hfirst : (0 : ℤ) * 300 + 300 + 60 ≤ x := by omega
  obtain ⟨i, hafter, hwithin, -⟩ := hcovers x (by exact_mod_cast hfirst)
  exact ⟨i, hafter, hwithin⟩

end LeadWitness

end PredictiveAutoscaler.ForecastV2
