/-
The cached v1 forecast: how it is fetched, recorded at its issuance and used
again, over runs in which users edit the spec between reconciles.  A use takes
its step length from the live spec, so a forecast keeps the target times it was
recorded with exactly while the horizon of the spec stays what it was.
-/
import PredictiveAutoscaler.ForecastLookup
import PredictiveAutoscaler.Reconcile
import PredictiveAutoscaler.Run

namespace PredictiveAutoscaler

/-- What a cached forecast is valid for: the autoscaler, the target and the
compiled query with its contract. -/
structure ForecastBinding where
  uid : String
  targetUID : String
  sha256 : String
  contract : String
deriving DecidableEq

/-- The forecast service's answer; `inferenceInputEnd` when it parses. -/
structure MLResponse where
  predictions : List ℚ
  confidence : ℚ
  inferenceInputEnd : Option ℤ
deriving DecidableEq

/-- The forecast as it is cached at `now`. -/
def MLResponse.prediction (r : MLResponse) (now : ℤ) : Prediction :=
  ⟨r.predictions, r.confidence, some (r.inferenceInputEnd.getD now)⟩

/-- `spec.prediction.horizonMinutes` as the schema admits it, zero when it is
absent. -/
structure HorizonMinutes where
  value : ℤ
  admitted : value = 0 ∨ 5 ≤ value
deriving DecidableEq

def HorizonMinutes.minutes (h : HorizonMinutes) : ℤ :=
  if h.value = 0 then defaultHorizonMinutes else h.value

/-- One step of a recorded forecast; its target is a second of the epoch. -/
structure ForecastStep where
  step : ℕ
  targetAt : ℤ
  rpm : ℚ
deriving DecidableEq

/-- One line of the forecast log. -/
structure ForecastRecord where
  issuedAt : ℤ
  horizonMinutes : ℤ
  stepMinutes : ℚ
  forecasts : List ForecastStep
deriving DecidableEq

/-- The targets of a forecast's steps under a horizon. -/
def stepTargets (p : Prediction) (issuedAt horizonMinutes : ℤ) : List ℤ :=
  let stepMin := binary64 (horizonMinutes / p.predictions.length)
  (List.range p.predictions.length).map
    (stepTarget (p.anchorAt.getD issuedAt) stepMin)

/-- `recordForecast`: targets are written to the second. -/
def recordForecast (h : HorizonMinutes) (p : Prediction) (issuedAt : ℤ) :
    Option ForecastRecord :=
  if p.predictions.isEmpty then none
  else
    some
      { issuedAt := issuedAt / second
        horizonMinutes := h.minutes
        stepMinutes := binary64 (h.minutes / p.predictions.length)
        forecasts := ((stepTargets p issuedAt h.minutes).zip
          p.predictions).zipIdx.map fun ((target, v), i) =>
            ⟨i + 1, target / second, v⟩ }

/-- The recorded steps, each with the instant of its target. -/
def ForecastRecord.steps (rec : ForecastRecord) : List (ℤ × ℚ) :=
  rec.forecasts.map fun s => (s.targetAt * second, s.rpm)

/-- A cached forecast.  The horizon of its issuance is not kept by the source:
it names the record that was written then. -/
structure CachedPrediction where
  answer : MLResponse
  fetchedAt : ℤ
  binding : ForecastBinding
  issuedUnder : HorizonMinutes
deriving DecidableEq

def CachedPrediction.response (c : CachedPrediction) : Prediction :=
  c.answer.prediction c.fetchedAt

/-- What was recorded of a cached forecast at its issuance. -/
def CachedPrediction.record (c : CachedPrediction) : Option ForecastRecord :=
  recordForecast c.issuedUnder c.response c.fetchedAt

/-- The autoscaler as a reconcile reads it. -/
structure LiveSpec where
  spec : AutoscalerSpec
  horizon : HorizonMinutes
  horizon_eq : spec.horizonMinutes = horizon.value
deriving DecidableEq

/-- How a request to the forecast service ended. -/
inductive Fetch
  | answered (response : MLResponse)
  | refused
  | failed
deriving DecidableEq

/-- The answer, or whether the request was refused. -/
def Fetch.result : Fetch → Except Bool MLResponse
  | .answered r => .ok r
  | .refused => .error true
  | .failed => .error false

/-- A lookup under the live spec: the forecast to use and where it came from,
and the cache after it. -/
def getCachedPrediction (cache : Option CachedPrediction)
    (binding : ForecastBinding) (h : HorizonMinutes) (fetch : Fetch)
    (now later : ℤ) :
    Option (CacheUse × CachedPrediction) × Option CachedPrediction :=
  let (found, cache) := ForecastLookup.getCached (· = true)
    CachedPrediction.fetchedAt CachedPrediction.binding cache binding
    fetch.result (fun r => ⟨r, later, binding, h⟩) now later
  (found.returned.map fun u => (u.use, u.forecast), cache)

/-- The clock, the stored autoscaler and the cache. -/
structure Forecaster where
  clock : ℤ
  live : LiveSpec
  cache : Option CachedPrediction
deriving DecidableEq

inductive ForecasterAction
  /-- A user edits the spec. -/
  | edit (live : LiveSpec)
  /-- The operator restarts and loses its memory. -/
  | restart
  /-- A reconcile that finds the metric configuration invalid. -/
  | invalidQuery
  /-- A reconcile whose compiled query and target give `binding`; the request
  takes `requestTook` and the rest up to the computation `restTook`. -/
  | reconcile (binding : ForecastBinding) (fetch : Fetch)
      (requestTook restTook : ℕ)

/-- An action, and how long after the previous one it begins. -/
structure ForecasterEvent where
  wait : ℕ
  action : ForecasterAction

/-- A forecast that a reconcile used: where it came from, and when and with
which lead its window was selected. -/
structure ForecastUse where
  use : CacheUse
  forecast : CachedPrediction
  now : ℤ
  horizonMinutes : ℤ
  leadTimeMinutes : ℤ
deriving DecidableEq

/-- The values that `calculatePredictedReplicasDetail` takes the peak of. -/
def ForecastUse.window (u : ForecastUse) : Option (List ℚ) :=
  selectLeadTimeWindow u.forecast.response.predictions
    (u.forecast.response.anchorAt.getD u.now) u.now u.horizonMinutes
    u.leadTimeMinutes

/-- Forecasts are looked up on the v1 path only, and with a capacity. -/
def AutoscalerSpec.looksUp (spec : AutoscalerSpec) : Bool :=
  spec.predictionEnabled && spec.capacityRPM.isSome && !spec.v2Selected

def forecasterStep (f : Forecaster) (event : ForecasterEvent) :
    Forecaster × Option ForecastUse :=
  let start := f.clock + event.wait
  match event.action with
  | .edit live => ({ f with clock := start, live }, none)
  | .restart => ({ f with clock := start, cache := none }, none)
  | .invalidQuery => ({ f with clock := start, cache := none }, none)
  | .reconcile binding fetch requestTook restTook =>
      let later := start + requestTook
      let now := later + restTook
      let spec := f.live.spec
      if spec.looksUp then
        let (found, cache) := getCachedPrediction f.cache binding
          f.live.horizon fetch start later
        let lead :=
          if spec.leadTimeMinutes = 0 then defaultLeadTimeMinutes
          else spec.leadTimeMinutes
        ({ f with clock := now, cache },
          found.map fun (use, c) =>
            ⟨use, c, now, f.live.horizon.minutes, lead⟩)
      else ({ f with clock := now }, none)

abbrev ForecasterEntry := Entry Forecaster ForecasterEvent (Option ForecastUse)

abbrev forecasterRun (f : Forecaster) (events : List ForecasterEvent) :
    List ForecasterEntry :=
  runTrace forecasterStep f events

/-- Of steps `(target, value)`, a value with a target in `(now, leadEnd]`, or
the one with the earliest target after `now` when no target lies inside. -/
def InLeadTime (steps : List (ℤ × ℚ)) (now leadEnd : ℤ) (v : ℚ) : Prop :=
  (∃ q ∈ steps, q.2 = v ∧ now < q.1 ∧ q.1 ≤ leadEnd) ∨
    (∀ q ∈ steps, ¬(now < q.1 ∧ q.1 ≤ leadEnd)) ∧
      ∃ q ∈ steps, q.2 = v ∧ now < q.1 ∧ ∀ r ∈ steps, now < r.1 → q.1 ≤ r.1

instance (steps : List (ℤ × ℚ)) (now leadEnd : ℤ) (v : ℚ) :
    Decidable (InLeadTime steps now leadEnd v) :=
  inferInstanceAs (Decidable (_ ∨ _))

/-- What the scan of the steps finds. -/
theorem foldl_visit (now leadEnd : ℤ) (steps : List (ℤ × ℚ))
    (scan : LeadScan) :
    (steps.foldl (fun scan q => scan.visit now leadEnd q.1 q.2) scan).window =
        scan.window ++ (steps.filter fun q =>
          decide (now < q.1 ∧ q.1 ≤ leadEnd)).map Prod.snd ∧
      (steps.foldl (fun scan q =>
        scan.visit now leadEnd q.1 q.2) scan).firstFuture =
        scan.firstFuture.or
          ((steps.find? fun q => decide (now < q.1)).map Prod.snd) := by
  induction steps generalizing scan with
  | nil => simp
  | cons q rest ih =>
      obtain ⟨hwindow, hfirst⟩ := ih (scan.visit now leadEnd q.1 q.2)
      rw [List.foldl_cons, hwindow, hfirst]
      by_cases helapsed : q.1 ≤ now
      · simp [LeadScan.visit, helapsed, not_lt.mpr helapsed]
      · have hfuture := not_le.mp helapsed
        by_cases hinside : q.1 ≤ leadEnd <;>
          simp [LeadScan.visit, helapsed, hfuture, hinside]

/-- The first step ahead is the earliest one, when the targets ascend. -/
theorem find?_earliest {steps : List (ℤ × ℚ)} {now : ℤ} {q : ℤ × ℚ}
    (hsorted : steps.Pairwise fun a b => a.1 ≤ b.1)
    (h : steps.find? (fun q => decide (now < q.1)) = some q) :
    ∀ r ∈ steps, now < r.1 → q.1 ≤ r.1 := by
  induction steps with
  | nil => cases h
  | cons a rest ih =>
      obtain ⟨hhead, htail⟩ := List.pairwise_cons.mp hsorted
      intro r hr hnow
      by_cases ha : now < a.1
      · rw [List.find?_cons_of_pos (by simpa using ha)] at h
        cases h
        rcases List.mem_cons.mp hr with rfl | hr
        · exact le_rfl
        · exact hhead r hr
      · rw [List.find?_cons_of_neg (by simpa using ha)] at h
        rcases List.mem_cons.mp hr with rfl | hr
        · exact absurd hnow ha
        · exact ih htail h r hr hnow

/-- The steps of a forecast with the targets it is given. -/
theorem zip_stepTargets (p : Prediction) (issuedAt horizonMinutes : ℤ) :
    (stepTargets p issuedAt horizonMinutes).zip p.predictions =
      p.predictions.zipIdx.map fun q =>
        (stepTarget (p.anchorAt.getD issuedAt)
          (binary64 (horizonMinutes / p.predictions.length)) q.2, q.1) := by
  refine List.ext_getElem (by simp [stepTargets]) fun i hi hi' => ?_
  simp [stepTargets]

/-- A value of a window, by the targets it was selected with. -/
theorem inLeadTime_of_mem {p : Prediction} {issuedAt now horizonMinutes
    leadTimeMinutes : ℤ} {window : List ℚ} {v : ℚ}
    (hsorted : ((stepTargets p issuedAt horizonMinutes).zip
      p.predictions).Pairwise fun a b => a.1 ≤ b.1)
    (h : selectLeadTimeWindow p.predictions (p.anchorAt.getD issuedAt) now
      horizonMinutes leadTimeMinutes = some window) (hv : v ∈ window) :
    InLeadTime ((stepTargets p issuedAt horizonMinutes).zip p.predictions) now
      (now + leadTimeMinutes * minute) v := by
  obtain ⟨hwindow, hfirst⟩ := foldl_visit now (now + leadTimeMinutes * minute)
    ((stepTargets p issuedAt horizonMinutes).zip p.predictions) ⟨[], none, none⟩
  rw [zip_stepTargets, List.foldl_map] at hwindow hfirst
  rw [zip_stepTargets] at hsorted ⊢
  simp only [selectLeadTimeWindow] at h
  split at h
  · cases h
  split at h
  · rename_i first last hfuture hlast
    split at h
    · cases h
    rw [hfirst] at hfuture
    simp only [Option.none_or, Option.map_eq_some_iff] at hfuture
    obtain ⟨q, hq, rfl⟩ := hfuture
    rw [hwindow, List.nil_append] at h
    split at h
    · rename_i hempty
      cases h
      rw [List.mem_singleton] at hv
      subst hv
      rw [List.isEmpty_iff, List.map_eq_nil_iff, List.filter_eq_nil_iff]
        at hempty
      refine .inr ⟨fun q hq hinside => hempty q hq (by simpa using hinside), q,
        List.mem_of_find?_eq_some hq, rfl, ?_, find?_earliest hsorted hq⟩
      simpa using List.find?_some hq
    · cases h
      obtain ⟨q, hq, rfl⟩ := List.mem_map.mp hv
      obtain ⟨hmem, hinside⟩ := List.mem_filter.mp hq
      have hinside := of_decide_eq_true hinside
      exact .inl ⟨q, hmem, rfl, hinside⟩
  · cases h

/-- Targets ascend under an admitted horizon. -/
theorem stepTarget_mono (anchor : ℤ) {stepMin : ℚ} (hstep : 0 ≤ stepMin)
    {i j : ℕ} (hij : i ≤ j) :
    stepTarget anchor stepMin i ≤ stepTarget anchor stepMin j := by
  have hminute : (0 : ℚ) ≤ minute := by
    simp only [minute, second]
    norm_num
  have hproduct : ∀ i : ℕ, 0 ≤ binary64 (((i : ℚ) + 1) * stepMin) := fun i =>
    binary64_nonneg (mul_nonneg (by positivity) hstep)
  have hcast : ((i : ℚ) + 1) * stepMin ≤ ((j : ℚ) + 1) * stepMin := by
    have : (i : ℚ) ≤ j := by exact_mod_cast hij
    exact mul_le_mul_of_nonneg_right (by linarith) hstep
  have hrounded := binary64_mono (mul_nonneg (by positivity) hstep) hcast
  have hspan := binary64_mono (mul_nonneg (hproduct i) hminute)
    (mul_le_mul_of_nonneg_right hrounded hminute)
  have hnonneg := binary64_nonneg (mul_nonneg (hproduct i) hminute)
  unfold stepTarget durationOf
  rw [if_pos hnonneg, if_pos (hnonneg.trans hspan)]
  exact add_le_add_right (Int.floor_le_floor hspan) anchor

theorem HorizonMinutes.minutes_pos (h : HorizonMinutes) : 0 < h.minutes := by
  unfold minutes
  have hadmitted := h.admitted
  split
  · decide
  · omega

theorem pairwise_stepTargets (p : Prediction) (issuedAt : ℤ)
    (h : HorizonMinutes) :
    ((stepTargets p issuedAt h.minutes).zip p.predictions).Pairwise
      fun a b => a.1 ≤ b.1 := by
  have hstep : 0 ≤ binary64 ((h.minutes : ℚ) / p.predictions.length) := by
    have hpos : (0 : ℚ) ≤ h.minutes := by exact_mod_cast h.minutes_pos.le
    exact binary64_nonneg (div_nonneg hpos (by positivity))
  rw [zip_stepTargets, List.pairwise_map, List.pairwise_iff_getElem]
  intro i j hi hj hij
  simp only [List.getElem_zipIdx, Nat.zero_add]
  exact stepTarget_mono _ hstep hij.le

namespace ForecastUse

/-- The recorded targets are those that the steps are used with, and the window
holds the values that they place in the lead time. -/
structure KeepsTargets (u : ForecastUse) (rec : ForecastRecord) : Prop where
  targets : (stepTargets u.forecast.response u.forecast.fetchedAt
    u.horizonMinutes).map (· / second) = rec.forecasts.map ForecastStep.targetAt
  window : ∀ ws, u.window = some ws → ∀ v ∈ ws,
    InLeadTime rec.steps u.now (u.now + u.leadTimeMinutes * minute) v

/-- The spec has the horizon that the forecast was issued under, and the
targets are whole seconds. -/
def SameHorizon (u : ForecastUse) : Prop :=
  u.horizonMinutes = u.forecast.issuedUnder.minutes ∧
    ∀ t ∈ stepTargets u.forecast.response u.forecast.fetchedAt
      u.horizonMinutes, t / second * second = t

instance (u : ForecastUse) : Decidable u.SameHorizon :=
  inferInstanceAs (Decidable (_ ∧ ∀ t ∈ stepTargets _ _ _, _))

theorem steps_record {u : ForecastUse} {rec : ForecastRecord}
    (hrec : u.forecast.record = some rec) :
    rec.forecasts.map ForecastStep.targetAt =
        (stepTargets u.forecast.response u.forecast.fetchedAt
          u.forecast.issuedUnder.minutes).map (· / second) ∧
      rec.steps = ((stepTargets u.forecast.response u.forecast.fetchedAt
        u.forecast.issuedUnder.minutes).zip
          u.forecast.response.predictions).map fun q =>
            (q.1 / second * second, q.2) := by
  unfold CachedPrediction.record recordForecast at hrec
  split at hrec
  · cases hrec
  cases hrec
  constructor
  · refine List.ext_getElem (by simp [stepTargets]) fun i hi hi' => ?_
    simp
  · refine List.ext_getElem (by simp [ForecastRecord.steps]) fun i hi hi' => ?_
    simp [ForecastRecord.steps]

/-- A forecast that is used under the horizon of its issuance keeps its
targets. -/
theorem SameHorizon.keepsTargets {u : ForecastUse} {rec : ForecastRecord}
    (h : u.SameHorizon) (hrec : u.forecast.record = some rec) :
    u.KeepsTargets rec := by
  obtain ⟨hhorizon, hseconds⟩ := h
  obtain ⟨htargets, hsteps⟩ := steps_record hrec
  rw [← hhorizon] at htargets hsteps
  have hexact : rec.steps = (stepTargets u.forecast.response
      u.forecast.fetchedAt u.horizonMinutes).zip
        u.forecast.response.predictions := by
    rw [hsteps]
    conv_rhs => rw [← List.map_id ((stepTargets _ _ _).zip _)]
    refine List.map_congr_left fun q hq => ?_
    rw [hseconds q.1 (List.of_mem_zip hq).1]
    rfl
  refine ⟨htargets.symm, fun ws hws v hv => ?_⟩
  rw [hexact]
  refine inLeadTime_of_mem ?_ hws hv
  rw [hhorizon]
  exact pairwise_stepTargets _ _ _

end ForecastUse

/-- The step looked up `c` as a fresh answer under its live spec. -/
def Issued (c : CachedPrediction) (e : ForecasterEntry) : Prop :=
  e.before.live.horizon = c.issuedUnder ∧
    ∃ u ∈ e.report, u.use = .freshResponse ∧ u.forecast = c

/-- A lookup uses the answer that it got under its spec or the forecast that
was cached, and keeps what it uses or nothing. -/
theorem getCachedPrediction_cases (cache : Option CachedPrediction)
    (binding : ForecastBinding) (h : HorizonMinutes) (fetch : Fetch)
    (now later : ℤ) :
    getCachedPrediction cache binding h fetch now later = (none, none) ∨
      ∃ use c, getCachedPrediction cache binding h fetch now later =
          (some (use, c), some c) ∧
        (use = .freshResponse ∧ c.issuedUnder = h ∨
          use ≠ .freshResponse ∧ cache = some c) := by
  have hlooked := ForecastLookup.getCached_lookedUp (· = true)
    CachedPrediction.fetchedAt CachedPrediction.binding cache binding
    fetch.result (fun r => ⟨r, later, binding, h⟩) now later
  unfold getCachedPrediction
  generalize ForecastLookup.getCached (· = true) CachedPrediction.fetchedAt
    CachedPrediction.binding cache binding fetch.result
    (fun r => ⟨r, later, binding, h⟩) now later = result at hlooked ⊢
  obtain ⟨found, kept⟩ := result
  dsimp only at hlooked ⊢
  cases hlooked with
  | hit hcache => exact .inr ⟨_, _, rfl, .inr ⟨nofun, hcache⟩⟩
  | fresh => exact .inr ⟨_, _, rfl, .inl ⟨rfl, rfl⟩⟩
  | stale hcache => exact .inr ⟨_, _, rfl, .inr ⟨nofun, hcache⟩⟩
  | dropped => exact .inl rfl

/-- The cached forecast was issued by a step of the past. -/
def CacheIssued (past : List ForecasterEntry) (f : Forecaster) : Prop :=
  ∀ c, f.cache = some c → ∃ e ∈ past, Issued c e

/-- A step uses the answer that it issues or the forecast that is cached, and
what it caches was issued by it or cached before. -/
theorem forecasterStep_cases (f : Forecaster) (event : ForecasterEvent) :
    (∀ u ∈ (forecasterStep f event).2, u.use ≠ .freshResponse →
      f.cache = some u.forecast) ∧
    ∀ c, (forecasterStep f event).1.cache = some c →
      f.cache = some c ∨ Issued c (entryAt forecasterStep f event) := by
  obtain ⟨wait, action⟩ := event
  cases action with
  | edit live =>
      exact ⟨fun u hu => absurd hu (Option.not_mem_none u), fun c hc => .inl hc⟩
  | restart =>
      exact ⟨fun u hu => absurd hu (Option.not_mem_none u),
        fun c hc => absurd hc.symm (Option.some_ne_none c)⟩
  | invalidQuery =>
      exact ⟨fun u hu => absurd hu (Option.not_mem_none u),
        fun c hc => absurd hc.symm (Option.some_ne_none c)⟩
  | reconcile binding fetch requestTook restTook =>
      have hlooked := getCachedPrediction_cases f.cache binding
        f.live.horizon fetch (f.clock + wait) (f.clock + wait + requestTook)
      simp only [Issued, entryAt, forecasterStep]
      by_cases hlooks : f.live.spec.looksUp = true
      · simp only [hlooks, if_true]
        rcases hlooked with hnone | ⟨use, c, hsome, hfrom⟩
        · rw [hnone]
          exact ⟨fun u hu => absurd hu (Option.not_mem_none u),
            fun c hc => absurd hc.symm (Option.some_ne_none c)⟩
        · rw [hsome]
          refine ⟨?_, ?_⟩
          · rintro u hu hreuse
            cases hu
            rcases hfrom with ⟨hfresh, -⟩ | ⟨-, hcached⟩
            · exact absurd hfresh hreuse
            · exact hcached
          · rintro c' hc'
            cases hc'
            rcases hfrom with ⟨rfl, hissued⟩ | ⟨-, hcached⟩
            · exact .inr ⟨hissued.symm, _, rfl, rfl, rfl⟩
            · exact .inl hcached
      · simp only [hlooks, Bool.false_eq_true, if_false]
        exact ⟨fun u hu => absurd hu (Option.not_mem_none u),
          fun c hc => .inl hc⟩

theorem CacheIssued.step {past : List ForecasterEntry} {f : Forecaster}
    (event : ForecasterEvent) (h : CacheIssued past f) :
    CacheIssued (past ++ [entryAt forecasterStep f event])
      (forecasterStep f event).1 := by
  intro c hc
  rcases (forecasterStep_cases f event).2 c hc with hcached | hissued
  · obtain ⟨e, he, hissued⟩ := h c hcached
    exact ⟨e, List.mem_append_left _ he, hissued⟩
  · exact ⟨_, List.mem_append_right _ (List.mem_singleton.mpr rfl), hissued⟩

/-- In a run in which every reuse finds the horizon of the issuance and targets
of whole seconds, every forecast that is used again was issued by an earlier
step, and its steps keep the targets that were recorded there. -/
theorem reused_forecast_keeps_targets {f : Forecaster} (hf : f.cache = none)
    {events : List ForecasterEvent}
    (hsame : ∀ e ∈ forecasterRun f events, ∀ u ∈ e.report,
      u.use ≠ .freshResponse → u.SameHorizon)
    {past rest : List ForecasterEntry} {e : ForecasterEntry} {u : ForecastUse}
    (htrace : forecasterRun f events = past ++ e :: rest)
    (hu : u ∈ e.report) (hreuse : u.use ≠ .freshResponse) :
    (∃ e' ∈ past, Issued u.forecast e') ∧
      ∀ rec, u.forecast.record = some rec → u.KeepsTargets rec := by
  have hstart : CacheIssued [] f := by
    intro c hc
    rw [hf] at hc
    cases hc
  obtain ⟨hissued, he⟩ := runTrace_history CacheIssued
    (fun past f event h => h.step event) hstart htrace
  have hmem : e ∈ forecasterRun f events := by
    rw [htrace]
    exact List.mem_append_right _ List.mem_cons_self
  have hreport : u ∈ (forecasterStep e.before e.event).2 := by
    rw [he] at hu
    exact hu
  have hcached := (forecasterStep_cases e.before e.event).1 u hreport hreuse
  exact ⟨hissued u.forecast hcached, fun rec hrec =>
    (hsame e hmem u hu hreuse).keepsTargets hrec⟩

namespace ReuseWitness

/-- An autoscaler on the v1 path with a capacity. -/
def spec (horizonMinutes : ℤ) : AutoscalerSpec where
  mode := .active
  minReplicas := 1
  maxReplicas := 10
  requests := some ⟨some 5, 0⟩
  headroomPercent := none
  enabled := none
  engine := .legacyLSTM
  horizonMinutes
  leadTimeMinutes := 20

def hourly : LiveSpec := ⟨spec 60, ⟨60, by decide⟩, rfl⟩

def halfHourly : LiveSpec := ⟨spec 30, ⟨30, by decide⟩, rfl⟩

def start : Forecaster := ⟨0, hourly, none⟩

def binding : ForecastBinding := ⟨"pa", "dep", "sha", "requests/v1"⟩

/-- Six steps of ten minutes from the epoch. -/
def answer : MLResponse := ⟨[100, 200, 300, 400, 500, 600], 1, some 0⟩

/-- A fresh forecast, an edit half a minute later, and a reconcile a minute
after the first. -/
def events (live : LiveSpec) : List ForecasterEvent :=
  [⟨0, .reconcile binding (.answered answer) 0 0⟩,
    ⟨30000000000, .edit live⟩, ⟨30000000000, .reconcile binding .failed 0 0⟩]

/-- The hour's forecast, cached and used a minute after its issuance. -/
def reuse (horizonMinutes : ℤ) : ForecastUse :=
  ⟨.cacheHit, ⟨answer, 0, binding, ⟨60, by decide⟩⟩, 60000000000,
    horizonMinutes, 20⟩

theorem reports (live : LiveSpec) (h : live = hourly ∨ live = halfHourly) :
    (forecasterRun start (events live)).map Entry.report =
      [some { reuse 60 with use := .freshResponse, now := 0 }, none,
        some (reuse live.horizon.minutes)] := by
  rcases h with rfl | rfl <;> decide +kernel

/-- The steps of ten minutes of the unchanged spec. -/
theorem unedited_forecast_keeps_targets :
    some (reuse 60) ∈
        (forecasterRun start (events hourly)).map Entry.report ∧
      ∀ rec, (reuse 60).forecast.record = some rec →
        (reuse 60).KeepsTargets rec := by
  have hreports := reports hourly (.inl rfl)
  have hsame : ∀ e ∈ forecasterRun start (events hourly), ∀ u ∈ e.report,
      u.use ≠ .freshResponse → u.SameHorizon := by
    have hall : ∀ report ∈
        (forecasterRun start (events hourly)).map Entry.report,
        ∀ u ∈ report, u.use ≠ .freshResponse → u.SameHorizon := by
      rw [hreports]
      decide +kernel
    exact fun e he => hall e.report (List.mem_map_of_mem he)
  refine ⟨?_, ?_⟩
  · rw [hreports]
    exact List.mem_cons_of_mem _ (List.mem_cons_of_mem _ List.mem_cons_self)
  exact (@reused_forecast_keeps_targets start rfl _ hsame
    ((forecasterRun start (events hourly)).take 2) [] _ (reuse 60) rfl
    (by decide +kernel) (by decide)).2

/-- With the horizon edited to half an hour, the cached steps are used as steps
of five minutes: the window of twenty minutes takes the value of the thirtieth
minute. -/
theorem edited_horizon_retimes :
    some (reuse 30) ∈
        (forecasterRun start (events halfHourly)).map Entry.report ∧
      (reuse 30).use = .cacheHit ∧
      ∃ rec, (reuse 30).forecast.record = some rec ∧
        ¬(reuse 30).KeepsTargets rec := by
  refine ⟨by rw [reports halfHourly (.inr rfl)]; decide, rfl, _, rfl,
    fun hkeeps => ?_⟩
  have hthird := hkeeps.window [100, 200, 300, 400] (by decide +kernel) 300
    (by decide)
  revert hthird
  decide +kernel

end ReuseWitness

end PredictiveAutoscaler
