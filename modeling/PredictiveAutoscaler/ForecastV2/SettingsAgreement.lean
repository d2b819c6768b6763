/-
The operator and the service resolve the same settings from one
`spec.prediction`, and hash the same bytes.
-/
import PredictiveAutoscaler.ForecastV2.Settings
import PredictiveAutoscaler.Forecasting.Fingerprint

namespace PredictiveAutoscaler.ForecastV2

open Forecasting (RiskSpec CalibrationSpec TrustSpec PredictiveExtraSpec
  PredictionSpec ForecastSettings CalibrationSettings TrustSettings
  RiskSettings PredictiveExtraSettings ResolvedSignal boundedField refuseIf canonicalJson)

/-- What the operator's client makes of the object's `spec.prediction`. -/
def PredictionConfig.ofSpec (p : PredictionSpec) : PredictionConfig where
  enabled := some p.enabled
  horizonMinutes := p.horizonMinutes.getD 0
  engine := p.engine.getD ""
  sampleIntervalSeconds := p.sampleIntervalSeconds
  seasonality := p.seasonality.getD ""
  historyDays := p.historyDays
  settlementSeconds := p.settlementSeconds
  outcomeGraceSeconds := p.outcomeGraceSeconds
  risk := p.risk
  calibration := p.calibration
  trust := p.trust
  predictiveExtra := p.predictiveExtra

def V2Calibration.mirror (c : CalibrationSettings) : V2Calibration :=
  ⟨c.minWindows, c.maxScores, c.retentionDays, c.etaBps, c.minMiscoverageBps,
    c.maxMiscoverageBps⟩

def V2Trust.mirror (t : TrustSettings) : V2Trust :=
  ⟨t.minShadowHours, t.minProspectiveWindows, t.coverageToleranceBps,
    t.worstDayMinOutcomes, t.minAvailabilityBps, t.acuteConsecutiveMisses,
    t.acuteRecentWindows, t.repromotionHours, t.repromotionWindows,
    t.challengerMinPairs, t.challengerMinHours, t.challengerLossRatioBps,
    t.challengerExitLossRatioBps, t.challengerCostRatioBps, t.maxFitAgeHours⟩

/-- The same values field by field. -/
def V2Settings.mirror (s : ForecastSettings) : V2Settings where
  engine := s.engine.text
  sampleIntervalSeconds := s.sampleIntervalSeconds
  seasonality := s.seasonality.text
  historyDays := s.historyDays
  horizonSeconds := s.horizonSeconds
  settlementSeconds := s.settlementSeconds
  outcomeGraceSeconds := s.outcomeGraceSeconds
  miscoverageBps := s.risk.miscoverageBps
  calibration := .mirror s.calibration
  trust := .mirror s.trust
  extraMaxReplicas := s.predictiveExtra.maxReplicas
  extraMaxPercent := s.predictiveExtra.maxPercent

theorem V2Settings.canonical_mirror (s : ForecastSettings) :
    (V2Settings.mirror s).canonical = s.canonical := rfl

theorem v2EvidenceDoc_mirror {signal : ResolvedSignal}
    (hcontract : signal.contract = metricContract) (s : ForecastSettings)
    (leadSeconds : ℕ) :
    v2EvidenceDoc signal.autoscalerUid signal.targetUid signal.querySha256
        (.mirror s) leadSeconds =
      Forecasting.evidenceDoc signal s leadSeconds := by
  unfold Forecasting.evidenceDoc
  rw [hcontract]
  rfl

/-- A `spec.prediction` that the schema admits, with forecasting on and engine
statistical.  The bounds of the other fields are checked again by both sides. -/
structure Admitted (p : PredictionSpec) : Prop where
  enabled : p.enabled = true
  engine : p.engine = some engineStatistical
  seasonality : p.seasonality = none ∨ p.seasonality = some "daily"
  horizonMinutes : ∀ v, p.horizonMinutes = some v → 5 ≤ v

/-- Both computations fail, or both succeed and the first gives the image of
what the second gives. -/
def Agree {ε ε' α β : Type} (x : Except ε β) (m : α → β)
    (y : Except ε' α) : Prop :=
  x.toOption = y.toOption.map m

section Agree

variable {ε ε' α β : Type}

theorem Agree.ok {m : α → β} (a : α) :
    Agree (.ok (m a) : Except ε β) m (.ok a : Except ε' α) := rfl

theorem Agree.error {m : α → β} {e : ε} {e' : ε'} :
    Agree (.error e : Except ε β) m (.error e' : Except ε' α) := rfl

theorem Agree.bind_of {γ δ : Type} {m : α → β} {m' : γ → δ} {x : Except ε β}
    {y : Except ε' α} {f : β → Except ε δ} {g : α → Except ε' γ}
    (hxy : Agree x m y) (hfg : ∀ a, y = .ok a → Agree (f (m a)) m' (g a)) :
    Agree (x >>= f) m' (y >>= g) := by
  cases y with
  | error raised =>
      cases x with
      | error e => rfl
      | ok b => cases hxy
  | ok a =>
      cases x with
      | error e => cases hxy
      | ok b =>
          have hb : b = m a := Option.some.inj hxy
          subst hb
          exact hfg a rfl

theorem Agree.bind {γ δ : Type} {m : α → β} {m' : γ → δ} {x : Except ε β}
    {y : Except ε' α} {f : β → Except ε δ} {g : α → Except ε' γ}
    (hxy : Agree x m y) (hfg : ∀ a, Agree (f (m a)) m' (g a)) :
    Agree (x >>= f) m' (y >>= g) :=
  hxy.bind_of fun a _ => hfg a

theorem Agree.eq_ok_iff {m : α → β} {x : Except ε β} {y : Except ε' α}
    (hxy : Agree x m y) {b : β} : x = .ok b ↔ ∃ a, y = .ok a ∧ b = m a := by
  cases x <;> cases y <;> simp_all [Agree, Except.toOption, eq_comm]

end Agree

/-- A check that both sides make; what follows may use that it passed. -/
theorem Agree.guard {α β : Type} {m : α → β} {c c' : Prop} [Decidable c]
    [Decidable c'] {message message' : String} {f : Unit → Except String β}
    {g : Unit → Except Forecasting.Raised α} (h : c ↔ c')
    (hrest : ¬c' → Agree (f ()) m (g ())) :
    Agree (failIf c message >>= f) m (refuseIf c' message' >>= g) := by
  unfold failIf refuseIf
  by_cases hc : c
  · rw [if_pos hc, if_pos (h.mp hc)]
    rfl
  · rw [if_neg hc, if_neg (h.not.mp hc)]
    exact hrest (h.not.mp hc)

/-- The same for a chain of conditions. -/
theorem Agree.ite {α β : Type} {m : α → β} {c c' : Prop} [Decidable c]
    [Decidable c'] {message message' : String} {x : Except String β}
    {g : Unit → Except Forecasting.Raised α} (h : c ↔ c')
    (hrest : ¬c' → Agree x m (g ())) :
    Agree (if c then .error message else x) m
      (refuseIf c' message' >>= g) := by
  unfold refuseIf
  by_cases hc : c
  · rw [if_pos hc, if_pos (h.mp hc)]
    rfl
  · rw [if_neg hc, if_neg (h.not.mp hc)]
    exact hrest (h.not.mp hc)

/-- A field with the same bounds on both sides. -/
theorem Agree.v2Set (must key : String) (lo hi absent : ℕ) (v : Option ℤ) :
    Agree (v2Set absent key v lo hi) Int.ofNat
      (boundedField must lo hi absent v) := by
  cases v with
  | none => rfl
  | some v =>
      by_cases hv : (lo : ℤ) ≤ v ∧ v ≤ hi
      · have hin : ¬(v < (lo : ℤ) ∨ (hi : ℤ) < v) := by omega
        have hnat : Int.ofNat v.toNat = v := Int.toNat_of_nonneg (by omega)
        simp only [Agree, ForecastV2.v2Set, boundedField, hv, hin, if_false,
          and_self, if_true, Except.toOption, Option.map_some, hnat]
      · have hout : v < (lo : ℤ) ∨ (hi : ℤ) < v := by omega
        simp only [Agree, ForecastV2.v2Set, boundedField, hv, hout, if_false,
          if_true, Except.toOption, Option.map_none]

theorem Agree.resolveCalibration (c : CalibrationSpec) :
    Agree (resolveCalibration {} c) V2Calibration.mirror c.resolve := by
  refine .bind (.v2Set _ _ 16 4096 128 _) fun minWindows => ?_
  refine .bind (.v2Set _ _ 16 4096 512 _) fun maxScores => ?_
  refine .bind (.v2Set _ _ 1 28 7 _) fun retentionDays => ?_
  refine .bind (.v2Set _ _ 1 1000 50 _) fun etaBps => ?_
  refine .bind (.v2Set _ _ 1 5000 100 _) fun minMiscoverageBps => ?_
  refine .bind (.v2Set _ _ 1 5000 2500 _) fun maxMiscoverageBps => ?_
  exact .ok (m := V2Calibration.mirror) ⟨_, _, _, _, _, _⟩

theorem Agree.resolveTrust (t : TrustSpec) :
    Agree (resolveTrust {} t) V2Trust.mirror t.resolve := by
  refine .bind (.v2Set _ _ 1 (24 * 28) 48 _) fun minShadowHours => ?_
  refine .bind (.v2Set _ _ 1 4096 64 _) fun minProspectiveWindows => ?_
  refine .bind (.v2Set _ _ 0 2500 500 _) fun coverageToleranceBps => ?_
  refine .bind (.v2Set _ _ 1 1440 24 _) fun worstDayMinOutcomes => ?_
  refine .bind (.v2Set _ _ 0 10000 9500 _) fun minAvailabilityBps => ?_
  refine .bind (.v2Set _ _ 1 1000 5 _) fun acuteConsecutiveMisses => ?_
  refine .bind (.v2Set _ _ 1 4096 32 _) fun acuteRecentWindows => ?_
  refine .bind (.v2Set _ _ 0 (24 * 28) 24 _) fun repromotionHours => ?_
  refine .bind (.v2Set _ _ 1 4096 32 _) fun repromotionWindows => ?_
  refine .bind (.v2Set _ _ 1 4096 64 _) fun challengerMinPairs => ?_
  refine .bind (.v2Set _ _ 1 (24 * 28) 48 _) fun challengerMinHours => ?_
  refine .bind (.v2Set _ _ 1 10000 9500 _) fun challengerLossRatioBps => ?_
  refine .bind (.v2Set _ _ 1 20000 10000 _)
    fun challengerExitLossRatioBps => ?_
  refine .bind (.v2Set _ _ 10000 20000 10200 _)
    fun challengerCostRatioBps => ?_
  refine .bind (.v2Set _ _ 1 24 12 _) fun maxFitAgeHours => ?_
  exact .ok (m := V2Trust.mirror)
    ⟨_, _, _, _, _, _, _, _, _, _, _, _, _, _, _⟩

theorem Agree.resolveEngine {engine : Option String} (h : engine ≠ some "") :
    Agree (resolveEngine v2Default (engine.getD ""))
      Forecasting.ForecastEngine.text (Forecasting.resolveEngine engine) := by
  cases engine with
  | none => rfl
  | some e =>
      have hne : e ≠ "" := fun he => h (congrArg some he)
      unfold Forecasting.resolveEngine
      split
      · cases ‹some e = none›
      · cases ‹some e = some "statistical"›
        rfl
      · cases ‹some e = some "legacyLstm"›
        rfl
      · rename_i hstatistical hlegacy heq
        cases heq
        have hunknown : e ≠ engineStatistical ∧ e ≠ engineLegacyLSTM :=
          ⟨hstatistical, hlegacy⟩
        simp only [ForecastV2.resolveEngine, Option.getD_some, if_pos hne,
          if_pos hunknown]
        exact .error

theorem Agree.resolveSeasonality {seasonality : Option String}
    (h : seasonality ≠ some "") :
    Agree (resolveSeasonality v2Default (seasonality.getD ""))
      Forecasting.Seasonality.text
      (Forecasting.resolveSeasonality seasonality) := by
  cases seasonality with
  | none => rfl
  | some e =>
      have hne : e ≠ "" := fun he => h (congrArg some he)
      unfold Forecasting.resolveSeasonality
      split
      · cases ‹some e = none›
      · cases ‹some e = some "daily"›
        rfl
      · rename_i hdaily heq
        cases heq
        have hunknown : e ≠ "daily" := hdaily
        simp only [ForecastV2.resolveSeasonality, Option.getD_some, if_pos hne,
          if_pos hunknown]
        exact .error

theorem Agree.resolveInterval (engine : Forecasting.ForecastEngine)
    (v : Option ℤ) :
    Agree (resolveInterval v2Default engine.text v) Int.ofNat
      (Forecasting.resolveInterval engine v) := by
  have hallowed : v2AllowedIntervals =
      Forecasting.allowedIntervals.map Int.ofNat := rfl
  have hdefault : v2Default.sampleIntervalSeconds = 300 := rfl
  have hmem : (v.isSome ∧ v.getD 300 ∉ v2AllowedIntervals) ↔
      v.getD 300 ∉ Forecasting.allowedIntervals.map Int.ofNat := by
    cases v with
    | none => decide
    | some v => simp [hallowed]
  have hlegacy : engine.text = engineLegacyLSTM ↔ engine = .legacyLstm := by
    cases engine <;> decide
  unfold ForecastV2.resolveInterval Forecasting.resolveInterval
  rw [hdefault]
  refine .guard hmem fun hmember => ?_
  refine .guard (and_congr hlegacy Iff.rfl) fun _ => ?_
  obtain ⟨n, -, hn⟩ := List.mem_map.mp (not_not.mp hmember)
  rw [← hn]
  exact .ok (m := Int.ofNat) n

theorem Agree.resolveHorizon (dt : ℕ) {v : Option ℤ} (h : v ≠ some 0) :
    Agree (resolveHorizon v2Default dt (v.getD 0)) Int.ofNat
      (Forecasting.resolveHorizon dt v) := by
  have hminutes : (if v.getD 0 = 0 then v2Default.horizonSeconds.tdiv 60
      else v.getD 0) = v.getD 60 := by
    cases v with
    | none => rfl
    | some v =>
        have hv : v ≠ 0 := fun hv => h (congrArg some hv)
        simp [hv]
  unfold ForecastV2.resolveHorizon Forecasting.resolveHorizon
  simp only [hminutes]
  refine .guard Iff.rfl fun hpos => ?_
  obtain ⟨n, hn⟩ := Int.eq_ofNat_of_zero_le (not_le.mp hpos).le
  rw [hn]
  have hcast : ((n : ℤ) * 60) = ((n * 60 : ℕ) : ℤ) := by push_cast; rfl
  have hlimit : (v2MaxHorizonSeconds < (n : ℤ) * 60 ∨
      ((n : ℤ) * 60).tmod dt ≠ 0 ∨ v2MaxSteps < ((n : ℤ) * 60).tdiv dt) ↔
      (Forecasting.maxHorizonSeconds < (n : ℤ).toNat * 60 ∨
        (n : ℤ).toNat * 60 % dt ≠ 0 ∨
        Forecasting.maxSteps < (n : ℤ).toNat * 60 / dt) := by
    rw [hcast, ← Int.ofNat_tmod, ← Int.ofNat_tdiv, Int.toNat_natCast]
    simp only [v2MaxHorizonSeconds, v2MaxSteps, Forecasting.maxHorizonSeconds,
      Forecasting.maxSteps]
    omega
  refine .guard hlimit fun _ => ?_
  exact .ok (m := Int.ofNat) (n * 60)

/-- The two roundings of the order-statistic rank. -/
theorem v2Rank_eq_rankBps {n a : ℕ} (ha : a ≤ Forecasting.bps) :
    v2Rank n a = Forecasting.rankBps n a := by
  have hnum : 0 ≤ ((n : ℤ) + 1) * (10000 - a) :=
    mul_nonneg (by omega) (by simp only [Forecasting.bps] at ha; omega)
  simp only [v2Rank, Forecasting.rankBps, v2BPS, Forecasting.bps] at *
  rw [Int.tdiv_eq_ediv_of_nonneg (by omega), Int.neg_mul]
  push_cast
  generalize ((n : ℤ) + 1) * (10000 - a) = num at hnum
  omega

/-- The constraints across fields, in the same order on both sides. -/
theorem Agree.feasible {s : ForecastSettings}
    (hmax : s.calibration.maxMiscoverageBps < Forecasting.bps) :
    Agree (V2Settings.mirror s).feasible id s.checkFeasible := by
  unfold V2Settings.feasible ForecastSettings.checkFeasible
  simp only [V2Settings.mirror, V2Calibration.mirror, V2Trust.mirror]
  refine .ite (by omega) fun _ => ?_
  refine .ite (by omega) fun hbounds => ?_
  refine .ite (by omega) fun _ => ?_
  refine .ite ?_ fun _ => ?_
  · rw [v2Rank_eq_rankBps (by omega)]
  refine .ite ?_ fun _ => ?_
  · have hcapacity : ((s.calibration.retentionDays : ℤ) * 86400).tdiv
        s.horizonSeconds = ((s.calibration.retentionDays * Forecasting.day /
          s.horizonSeconds : ℕ) : ℤ) := by
      rw [Int.ofNat_tdiv]
      rfl
    rw [hcapacity]
    omega
  refine .ite (by omega) fun _ => ?_
  refine .ite (by omega) fun _ => ?_
  rw [← bind_pure (refuseIf _ _)]
  exact .ite (by omega) fun _ => rfl

theorem Agree.resolveRisk (r : RiskSpec) :
    Agree (resolveRisk {} r) (fun r => (r.miscoverageBps : ℤ)) r.resolve := by
  rw [← bind_pure (ForecastV2.resolveRisk {} r)]
  refine .bind (.v2Set _ _ 100 2500 1000 _) fun miscoverageBps => ?_
  exact .ok (m := fun r : RiskSettings => (r.miscoverageBps : ℤ)) ⟨_⟩

theorem Agree.resolveExtra (e : PredictiveExtraSpec) :
    Agree (resolveExtra {} e)
      (fun e => ((e.maxReplicas : ℤ), (e.maxPercent : ℤ))) e.resolve := by
  refine .bind (.v2Set _ _ 0 1000 2 _) fun maxReplicas => ?_
  refine .bind (.v2Set _ _ 0 1000 50 _) fun maxPercent => ?_
  exact .ok (m := fun e : PredictiveExtraSettings =>
    ((e.maxReplicas : ℤ), (e.maxPercent : ℤ))) ⟨_, _⟩

/-- Both sides refuse a `spec.prediction`, or accept it with the same values. -/
theorem Agree.resolveSettings {p : PredictionSpec} (hp : Admitted p) :
    Agree (resolveV2Settings (.ofSpec p)) V2Settings.mirror
      (Forecasting.resolveSettings p) := by
  have hengine : p.engine ≠ some "" := by
    rw [hp.engine]
    decide
  have hseasonality : p.seasonality ≠ some "" := by
    rcases hp.seasonality with h | h <;> rw [h] <;> decide
  have hhorizon : p.horizonMinutes ≠ some 0 := fun h => by
    have hlow := hp.horizonMinutes 0 h
    omega
  refine .guard (by simp [PredictionConfig.ofSpec]) fun _ => ?_
  refine .bind (.resolveEngine hengine) fun engine => ?_
  refine .bind (.resolveSeasonality hseasonality) fun seasonality => ?_
  refine .bind (.resolveInterval engine _) fun interval => ?_
  refine .bind (.resolveHorizon interval hhorizon) fun horizon => ?_
  refine .bind (.v2Set _ _ 1 28 14 _) fun historyDays => ?_
  refine .bind (.v2Set _ _ 0 900 120 _) fun settle => ?_
  refine .bind (.v2Set _ _ 0 3600 600 _) fun grace => ?_
  refine .bind (.resolveRisk _) fun risk => ?_
  refine .bind_of (.resolveCalibration _) fun calibration hcalibration => ?_
  refine .bind (.resolveTrust _) fun trust => ?_
  refine .bind (.resolveExtra _) fun extra => ?_
  have hmax := (Forecasting.CalibrationSpec.resolve_bounds hcalibration).2.1
  refine .bind (.feasible (s := ⟨engine, interval, seasonality, historyDays,
    horizon, settle, grace, risk, calibration, trust, extra⟩) hmax) fun _ => ?_
  rfl

/-- An ASCII document is hashed from the same bytes on both sides. -/
theorem v2CanonicalJSON_eq {d : Doc} (h : ∀ s ∈ d.texts, AsciiText s) :
    v2CanonicalJSON d = some (canonicalJson d) := by
  have hbytes : utf8 (d.render goEscape) = canonicalJson d := by
    rw [canonicalJson, Doc.render_goEscape h]
  have hascii : ¬∃ b ∈ canonicalJson d, 0x7e < b := by
    rintro ⟨b, hb, hlt⟩
    exact absurd (utf8_le (Doc.printable_render d) b hb) (UInt8.not_le.mpr hlt)
  simp only [v2CanonicalJSON, hbytes, hascii, if_false]

/-- The texts of the settings are the source's own words. -/
theorem asciiText_canonical (s : ForecastSettings) :
    ∀ t ∈ s.canonical.texts, AsciiText t := by
  have hshape : s.canonical.texts = (ForecastSettings.canonical
      { engine := s.engine, seasonality := s.seasonality }).texts := rfl
  rw [hshape]
  cases s.engine <;> cases s.seasonality <;> decide +kernel

/-- The identity that both sides hash is ASCII: the identifiers of the API
server and the digest of the query. -/
structure AsciiIdentity (signal : ResolvedSignal) : Prop where
  autoscalerUid : AsciiText signal.autoscalerUid
  targetUid : AsciiText signal.targetUid
  querySha256 : AsciiText signal.querySha256

theorem asciiText_evidenceDoc {signal : ResolvedSignal}
    (hid : AsciiIdentity signal) (hcontract : signal.contract = metricContract)
    (s : ForecastSettings) (leadSeconds : ℕ) :
    ∀ t ∈ (Forecasting.evidenceDoc signal s leadSeconds).texts,
      AsciiText t := by
  have hengine : AsciiText s.engine.text := by
    cases s.engine <;> decide
  have hseasonality : AsciiText s.seasonality.text := by
    cases s.seasonality
    decide
  simp only [Forecasting.evidenceDoc, Forecasting.RiskSettings.doc,
    CalibrationSettings.doc, Doc.texts, Doc.textsOfFields, List.append_nil,
    List.nil_append, List.cons_append, List.forall_mem_cons, hcontract]
  and_intros
  all_goals first
    | decide
    | exact hid.autoscalerUid
    | exact hid.targetUid
    | exact hid.querySha256
    | exact hengine
    | exact hseasonality

/-- The operator's settings `v` are the service's settings `s`: in every
field, in the bytes that are hashed, in their fingerprint and, for one identity
and lead, in the evidence key. -/
structure SameSettings (sha256 : List UInt8 → String) (v : V2Settings)
    (s : ForecastSettings) : Prop where
  fields : v = .mirror s
  bytes : v2CanonicalJSON v.canonical = some (canonicalJson s.canonical)
  fingerprint : v.fingerprint sha256 = s.fingerprint sha256
  evidenceKey : ∀ (signal : ResolvedSignal) (leadSeconds : ℕ),
    AsciiIdentity signal → signal.contract = metricContract →
    v2EvidenceKey sha256 signal.autoscalerUid signal.targetUid
        signal.querySha256 v leadSeconds =
      Forecasting.evidenceDigest sha256 signal s leadSeconds

theorem sameSettings_mirror (sha256 : List UInt8 → String)
    (s : ForecastSettings) : SameSettings sha256 (.mirror s) s := by
  have hbytes : v2CanonicalJSON (V2Settings.mirror s).canonical =
      some (canonicalJson s.canonical) := by
    rw [V2Settings.canonical_mirror]
    exact v2CanonicalJSON_eq (asciiText_canonical s)
  refine ⟨rfl, hbytes, ?_, ?_⟩
  · simp only [V2Settings.fingerprint, v2Hash, hbytes,
      ForecastSettings.fingerprint]
  · intro signal leadSeconds hid hcontract
    have hdoc := v2CanonicalJSON_eq
      (asciiText_evidenceDoc hid hcontract s leadSeconds)
    simp only [v2EvidenceKey, v2Hash, v2EvidenceDoc_mirror hcontract, hdoc,
      Forecasting.evidenceDigest]

/-- For every `spec.prediction` that the schema admits, the operator and the
service both refuse it, or both accept it with the same settings. -/
theorem settings_agree (sha256 : List UInt8 → String) {p : PredictionSpec}
    (hp : Admitted p) :
    (∀ v, resolveV2Settings (.ofSpec p) = .ok v →
      ∃ s, Forecasting.resolveSettings p = .ok s ∧
        SameSettings sha256 v s) ∧
    (∀ s, Forecasting.resolveSettings p = .ok s →
      ∃ v, resolveV2Settings (.ofSpec p) = .ok v ∧
        SameSettings sha256 v s) := by
  have hagree := Agree.resolveSettings hp
  constructor
  · intro v hv
    obtain ⟨s, hs, rfl⟩ := hagree.eq_ok_iff.mp hv
    exact ⟨s, hs, sameSettings_mirror sha256 s⟩
  · intro s hs
    exact ⟨_, hagree.eq_ok_iff.mpr ⟨s, hs, rfl⟩, sameSettings_mirror sha256 s⟩

namespace SettingsWitness

/-- A five-minute grid with a horizon of half an hour. -/
def spec : PredictionSpec where
  engine := some "statistical"
  sampleIntervalSeconds := some 300
  horizonMinutes := some 30

theorem admitted : Admitted spec where
  enabled := rfl
  engine := rfl
  seasonality := .inl rfl
  horizonMinutes := by
    intro v hv
    cases hv
    decide

theorem spec_settings_agree :
    ∃ v s, resolveV2Settings (.ofSpec spec) = .ok v ∧
      Forecasting.resolveSettings spec = .ok s ∧
      SameSettings (fun raw => toString raw.length) v s := by
  have hs : Forecasting.resolveSettings spec =
      .ok { horizonSeconds := 1800 } := by decide +kernel
  obtain ⟨v, hv, hsame⟩ := (settings_agree
    (fun raw => toString raw.length) admitted).2 _ hs
  exact ⟨v, _, hv, hs, hsame⟩

end SettingsWitness

end PredictiveAutoscaler.ForecastV2
