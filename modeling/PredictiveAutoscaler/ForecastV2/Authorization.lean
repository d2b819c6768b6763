/-
The v2 path of a reconcile over runs of the operator: the request that is
bound, the answer that is cached or fetched, the verdict on it and its part in
the decision.  The service answers any bytes, users edit the autoscalers and
re-create them or their targets between reconciles, and the operator restarts.
-/
import PredictiveAutoscaler.ForecastV2.Response
import PredictiveAutoscaler.ForecastV2.SettingsAgreement
import PredictiveAutoscaler.Run

namespace PredictiveAutoscaler.ForecastV2

def v2MaxResponseBytes : ℕ := 2 ^ 20

/-- The parts of a key: what an answer is reused for. -/
def V2Binding.keyParts (b : V2Binding) : List (List Char) :=
  [b.autoscalerUID.toList, decimal b.generation, b.targetUID.toList,
    b.querySHA.toList, b.settingsSHA.toList, decimal b.origin,
    ['/'].intercalate [decimal b.lead.seconds,
      decimal b.lead.startupDelaySeconds,
      decimal b.lead.actuationAllowanceSeconds],
    b.evidenceKey.toList]

/-- `key` -/
def V2Binding.key (b : V2Binding) : List Char :=
  ['|'].intercalate b.keyParts

/-- No bar occurs in a text. -/
def Unbarred (s : String) : Prop := '|' ∉ s.toList

/-- The texts of a binding's key hold no bar. -/
structure V2Binding.Separable (b : V2Binding) : Prop where
  uid : Unbarred b.autoscalerUID
  target : Unbarred b.targetUID
  query : Unbarred b.querySHA
  settings : Unbarred b.settingsSHA
  evidence : Unbarred b.evidenceKey

/-- Two bindings agree on what an answer is reused for. -/
structure V2Binding.SameRequest (b b' : V2Binding) : Prop where
  uid : b.autoscalerUID = b'.autoscalerUID
  generation : b.generation = b'.generation
  target : b.targetUID = b'.targetUID
  query : b.querySHA = b'.querySHA
  settings : b.settingsSHA = b'.settingsSHA
  origin : b.origin = b'.origin
  lead : b.lead.seconds = b'.lead.seconds
  startup : b.lead.startupDelaySeconds = b'.lead.startupDelaySeconds
  allowance :
    b.lead.actuationAllowanceSeconds = b'.lead.actuationAllowanceSeconds
  evidence : b.evidenceKey = b'.evidenceKey

theorem mem_decimal {n : ℤ} {c : Char} (h : c ∈ decimal n) :
    c = '-' ∨ c.isDigit := by
  unfold decimal at h
  split at h
  · rcases List.mem_cons.mp h with h | h
    · exact Or.inl h
    · exact Or.inr (Nat.isDigit_of_mem_toDigits (by norm_num) (by norm_num) h)
  · exact Or.inr (Nat.isDigit_of_mem_toDigits (by norm_num) (by norm_num) h)

theorem decimal_injective : Function.Injective decimal := by
  have hdigits : ∀ m n : ℕ, Nat.toDigits 10 m = Nat.toDigits 10 n → m = n := by
    intro m n h
    rw [← Nat.ofDigitChars_ten_toDigits (n := m), h,
      Nat.ofDigitChars_ten_toDigits]
  have hsign : ∀ (n : ℕ) (rest : List Char),
      Nat.toDigits 10 n ≠ '-' :: rest := by
    intro n rest h
    have hmem : '-' ∈ Nat.toDigits 10 n := h ▸ List.mem_cons_self
    have := Nat.isDigit_of_mem_toDigits (by norm_num) (by norm_num) hmem
    revert this
    decide
  intro m n h
  unfold decimal at h
  split_ifs at h with hm hn hn
  · have := hdigits _ _ (List.cons.inj h).2
    omega
  · exact absurd h.symm (hsign _ _)
  · exact absurd h (hsign _ _)
  · have := hdigits _ _ h
    omega

/-- Texts without a separator are recovered from their joined text. -/
theorem intercalate_injective {sep : Char} {xs ys : List (List Char)}
    (hxs : ∀ x ∈ xs, sep ∉ x) (hys : ∀ y ∈ ys, sep ∉ y) (hx : xs ≠ [])
    (hy : ys ≠ []) (h : [sep].intercalate xs = [sep].intercalate ys) :
    xs = ys := by
  rw [← List.splitOn_intercalate sep hxs hx, h,
    List.splitOn_intercalate sep hys hy]

theorem not_mem_decimal {c : Char} (hminus : c ≠ '-') (hdigit : ¬c.isDigit)
    (n : ℤ) : c ∉ decimal n := by
  intro h
  rcases mem_decimal h with h | h
  · exact hminus h
  · exact hdigit h

theorem V2Binding.Separable.keyParts {b : V2Binding} (h : b.Separable) :
    ∀ part ∈ b.keyParts, '|' ∉ part := by
  have hdecimal := not_mem_decimal (c := '|') (by decide) (by decide)
  intro part hpart
  simp only [V2Binding.keyParts, List.mem_cons, List.not_mem_nil,
    or_false] at hpart
  rcases hpart with rfl | rfl | rfl | rfl | rfl | rfl | rfl | rfl
  · exact h.uid
  · exact hdecimal _
  · exact h.target
  · exact h.query
  · exact h.settings
  · exact hdecimal _
  · simp [hdecimal]
  · exact h.evidence

/-- The key determines what an answer is reused for. -/
theorem V2Binding.sameRequest_of_key {b b' : V2Binding} (h : b.Separable)
    (h' : b'.Separable) (hkey : b.key = b'.key) : b.SameRequest b' := by
  have hparts := intercalate_injective h.keyParts h'.keyParts
    (List.cons_ne_nil _ _) (List.cons_ne_nil _ _) hkey
  simp only [V2Binding.keyParts, List.cons.injEq, and_true] at hparts
  obtain ⟨huid, hgeneration, htarget, hquery, hsettings, horigin, hlead,
    hevidence⟩ := hparts
  have hslash := not_mem_decimal (c := '/') (by decide) (by decide)
  have hleads := intercalate_injective (by simp [hslash]) (by simp [hslash])
    (List.cons_ne_nil _ _) (List.cons_ne_nil _ _) hlead
  simp only [List.cons.injEq, and_true] at hleads
  obtain ⟨hseconds, hstartup, hallowance⟩ := hleads
  exact ⟨String.toList_injective huid, decimal_injective hgeneration,
    String.toList_injective htarget, String.toList_injective hquery,
    String.toList_injective hsettings, decimal_injective horigin,
    decimal_injective hseconds, decimal_injective hstartup,
    decimal_injective hallowance, String.toList_injective hevidence⟩

/-- Why there is no verified answer. -/
inductive FetchError
  /-- `errV2Refused`: malformed, incoherent or bound to another request. -/
  | answerRefused (message : String)
  /-- `forecastRefusedError`: a 4xx status. -/
  | refused (status : ℕ)
  /-- `forecastServerError`: any other status than 200. -/
  | server (status : ℕ) (body : List UInt8)
  /-- `mlAPIConfigError`: no request was sent. -/
  | misconfigured
  | transport
deriving DecidableEq

/-- How the request to the forecasting service ended. -/
inductive Reply
  | misconfigured
  | failed
  | answered (status : ℕ) (body : List UInt8)
deriving DecidableEq

/-- One answer that is kept for reuse. -/
structure V2CachedForecast where
  resp : V2Response
  binding : List Char
deriving DecidableEq

/-- `forecastFailureStatus`. -/
def FetchError.failure : FetchError → ForecastFailure
  | .misconfigured => .authMisconfigured
  | .refused status =>
      if status = 401 then .unauthorized
      else if status = 403 then .forbidden
      else .unavailable
  | .server status body =>
      if status = 503 ∧ utf8 "AuthUnavailable".toList <:+: body then
        .authUnavailable
      else .unavailable
  | _ => .unavailable

/-- The cached answer is dropped after these. -/
def FetchError.drops : FetchError → Bool
  | .answerRefused _ => true
  | .refused status => status = 401 || status = 403
  | _ => false

section Fetch

variable (unmarshal : List UInt8 → Option (List (String × Json)))

/-- A decoded answer to a binding. -/
def decodeBound (w : List (String × Json)) (b : V2Binding) :
    Except String V2Response := do
  let r ← decodeV2Response w
  r.bound b
  return r

/-- What a reply gives. -/
def receive (b : V2Binding) : Reply → Except FetchError V2Response
  | .misconfigured => .error .misconfigured
  | .failed => .error .transport
  | .answered status body =>
      let raw := body.take (v2MaxResponseBytes + 1)
      if 400 ≤ status ∧ status < 500 then .error (.refused status)
      else if status ≠ 200 then .error (.server status raw)
      else if v2MaxResponseBytes < raw.length then
        .error (.answerRefused
          s!"the answer exceeds {v2MaxResponseBytes} bytes")
      else
        match unmarshal raw with
        | none => .error (.answerRefused "the answer is not a JSON object")
        | some w => (decodeBound w b).mapError .answerRefused

/-- The cached answer can be used for a binding at `nowMs`. -/
def V2CachedForecast.serves (c : V2CachedForecast) (b : V2Binding)
    (nowMs : ℤ) : Bool :=
  c.binding = b.key && c.resp.window.actionableAt nowMs
    c.resp.startupDelaySeconds c.resp.actuationAllowanceSeconds

/-- `fetchV2`: the cached answer when it was made for exactly this request and
its window is still actionable, otherwise a fresh one. -/
def fetchV2 (cache : Option V2CachedForecast) (b : V2Binding) (reply : Reply)
    (nowMs : ℤ) :
    Except FetchError V2Response × Option V2CachedForecast :=
  match cache.filter fun c => c.serves b nowMs with
  | some c => (.ok c.resp, some c)
  | none =>
      match receive unmarshal b reply with
      | .ok r => (.ok r, some ⟨r, b.key⟩)
      | .error e => (.error e, none)

end Fetch

/-- What the v2 path of a reconcile reads.  The API server assigns UIDs and the
hash of a compiled query is hexadecimal: neither holds a bar. -/
structure V2Inputs where
  autoscalerNamespace : String
  autoscalerName : String
  autoscalerUID : String
  object : PreparedObject
  starts : StartupObservation
  reconcileInterval : ℤ
  targetNamespace : String
  targetName : String
  reply : Reply
  /-- The time until the origin is read, and from then until the verdict. -/
  originDelay : ℕ
  requestDelay : ℕ
  /-- What the rest of the reconcile reads. -/
  obs : Observation
  uid_unbarred : Unbarred autoscalerUID
  target_unbarred : ∀ dep, obs.target = some dep → Unbarred dep.uid
  query_unbarred : ∀ sha, obs.query = some sha → Unbarred sha

/-- The spec with the live `spec.prediction`. -/
def V2Inputs.spec (i : V2Inputs) : AutoscalerSpec :=
  { i.obs.spec with
    enabled := i.object.prediction.enabled
    engine :=
      if i.object.prediction.engine = engineStatistical then .statistical
      else .legacyLSTM
    horizonMinutes := i.object.prediction.horizonMinutes }

/-- What `runV2` learned. -/
structure V2Outcome where
  settings : Except String V2Settings
  lead : Option PredictionLead
  binding : Option V2Binding := none
  response : Option V2Response := none
  err : Option FetchError := none
  verdict : V2Verdict := { reason := "" }

/-- The part of a verified answer that the decision reads. -/
def V2Response.forecast (r : V2Response) (s : V2Settings) : V2Forecast where
  upperWindowMaxRPS := r.upperWindowMaxRPS.getD 0
  extraMaxReplicas := s.extraMaxReplicas
  extraMaxPercent := s.extraMaxPercent
  window := r.window
  startupDelaySeconds := r.startupDelaySeconds
  actuationAllowanceSeconds := r.actuationAllowanceSeconds

/-- `forecastStatus`: the forecast, or why it is not used. -/
def V2Outcome.forecast (out : V2Outcome) : Except V2Unused V2Forecast :=
  match out.settings, out.lead with
  | .error _, _ => .error .settingsInvalid
  | .ok _, none => .error .leadInsufficient
  | .ok s, some _ =>
      match out.err with
      | some (.answerRefused _) => .error .rejected
      | some e => .error (.failed e.failure)
      | none =>
          match out.response with
          | none => .error .noResponse
          | some r =>
              if out.verdict.eligible then .ok (r.forecast s)
              else .error .notEligible

/-- Epoch milliseconds of an instant. -/
def milliseconds (t : ℤ) : ℤ := t / 1000000

/-- The grid origin of an instant. -/
def gridOrigin (t dt : ℤ) : ℤ := (t / second).tdiv dt * dt

section Path

variable (sha256 : List UInt8 → String)
  (unmarshal : List UInt8 → Option (List (String × Json)))

/-- What the reconcile published before the request. -/
def V2Inputs.published (i : V2Inputs) : PredictionStatus :=
  prepareV2 sha256 i.object i.starts i.reconcileInterval

/-- The binding of a request at `now`. -/
def V2Inputs.binding (i : V2Inputs) (dep : Deployment) (sha : String)
    (s : V2Settings) (lead : PredictionLead) (now : ℤ) : V2Binding where
  autoscalerNamespace := i.autoscalerNamespace
  autoscalerName := i.autoscalerName
  autoscalerUID := i.autoscalerUID
  generation := i.object.generation
  targetNamespace := i.targetNamespace
  targetName := i.targetName
  targetUID := dep.uid
  querySHA := sha
  settings := s
  settingsSHA := (i.published sha256).settingsSHA256
  origin := gridOrigin now s.sampleIntervalSeconds
  lead := lead
  evidenceKey :=
    v2EvidenceKey sha256 i.autoscalerUID dep.uid sha s lead.seconds

/-- `runV2`, with the clock at its start and after the request. -/
def V2Inputs.runV2 (i : V2Inputs) (dep : Deployment) (sha : String)
    (now verdictAt : ℤ) (cache : Option V2CachedForecast) :
    V2Outcome × Option V2CachedForecast :=
  let settings := resolveV2Settings i.object.prediction
  let lead := (i.published sha256).lead
  match settings, lead with
  | .ok s, some l =>
      let b := i.binding sha256 dep sha s l now
      match fetchV2 unmarshal cache b i.reply (milliseconds now) with
      | (.ok r, cache) =>
          ({ settings, lead, binding := some b, response := some r
             verdict := r.verdict s (milliseconds verdictAt) }, cache)
      | (.error e, cache) =>
          ({ settings, lead, binding := some b, err := some e },
            if e.drops then none else cache)
  | _, _ => ({ settings, lead }, none)

/-- The operator's memory of one autoscaler. -/
structure V2Memory where
  scale : ScaleState := {}
  cache : Option V2CachedForecast := none

/-- The v2 path when it is reached; an autoscaler off the path loses its cached
answer. -/
def V2Inputs.askV2 (i : V2Inputs) (start : ℤ)
    (cache : Option V2CachedForecast) :
    Option V2Outcome × Option V2CachedForecast :=
  match i.obs.target, i.obs.query with
  | some dep, some sha =>
      if i.obs.sourcePublished = false then (none, cache)
      else if i.spec.v2Selected = false then (none, none)
      else if i.obs.leadPublished = false ∨ i.spec.capacityRPM = none then
        (none, cache)
      else
        let now := start + i.originDelay
        let (out, cache) :=
          i.runV2 sha256 unmarshal dep sha now (now + i.requestDelay) cache
        (some out, cache)
  | _, _ => (none, cache)

/-- What the whole reconcile reads, the v2 path done. -/
def V2Inputs.observation (i : V2Inputs) (out : Option V2Outcome) :
    Observation :=
  { i.obs with
    spec := i.spec
    forecasts :=
      { i.obs.forecasts with
        v2 := (out.map V2Outcome.forecast).getD (.error .noResponse) }
    delays := { i.obs.delays with forecast := i.originDelay + i.requestDelay } }

/-- What one reconcile did. -/
structure V2Report where
  start : ℤ
  times : Instants
  asked : Option V2Outcome
  outcome : Outcome

/-- The answer whose forecast takes part in the decision. -/
def V2Report.used (report : V2Report) : Option V2Response :=
  match report.outcome with
  | .decided d _ =>
      if d.term.policy.isSome then report.asked.bind V2Outcome.response
      else none
  | .exited _ => none

/-- The grid origin that was asked for. -/
def V2Report.origin (report : V2Report) : Option ℤ :=
  (report.asked.bind V2Outcome.binding).map V2Binding.origin

/-- One reconcile that starts at `start`. -/
def reconcileV2 (m : V2Memory) (start : ℤ) (i : V2Inputs) :
    V2Memory × V2Report :=
  let (asked, cache) := i.askV2 sha256 unmarshal start m.cache
  let obs := i.observation asked
  let (scale, outcome) := reconcile m.scale start obs
  (⟨scale, cache⟩, ⟨start, obs.delays.instants start, asked, outcome⟩)

/-- The clock, and the memory of every autoscaler by its key. -/
structure V2Operator where
  clock : ℤ
  memory : String → V2Memory

inductive V2Action
  /-- A restart or a leader change: every in-memory state is lost. -/
  | restart
  | reconcile (key : String) (i : V2Inputs)

/-- An action, and how long after the previous one it begins. -/
structure V2Event where
  wait : ℕ
  action : V2Action

def v2Step (op : V2Operator) (event : V2Event) :
    V2Operator × Option V2Report :=
  let start := op.clock + event.wait
  match event.action with
  | .restart => (⟨start, fun _ => {}⟩, none)
  | .reconcile key i =>
      let (m, report) := reconcileV2 sha256 unmarshal (op.memory key) start i
      (⟨report.times.stamp, Function.update op.memory key m⟩, some report)

abbrev V2Entry := Entry V2Operator V2Event (Option V2Report)

abbrev v2Run (op : V2Operator) (events : List V2Event) : List V2Entry :=
  runTrace (v2Step sha256 unmarshal) op events

end Path

/-- The answer echoes what it was requested for. -/
structure V2Response.Echoes (r : V2Response) (b : V2Binding) : Prop where
  uid : r.autoscalerUID = b.autoscalerUID
  generation : r.autoscalerGeneration = b.generation
  target : r.targetUID = b.targetUID
  query : r.metricQuerySHA256 = b.querySHA
  settings : r.settingsSHA256 = b.settingsSHA
  origin : r.decisionOrigin = b.origin
  lead : r.leadSeconds = b.lead.seconds
  startup : r.startupDelaySeconds = b.lead.startupDelaySeconds
  allowance : r.actuationAllowanceSeconds = b.lead.actuationAllowanceSeconds
  evidence : r.calibrationEpoch = b.evidenceKey

theorem V2Response.bound_echoes {r : V2Response} {b : V2Binding} {u : Unit}
    (h : r.bound b = .ok u) : r.Echoes b := by
  simp only [V2Response.bound, Forecasting.Except.bind_eq_ok_iff, failIf_eq_ok,
    not_not, not_or] at h
  obtain ⟨_, ⟨-, -, huid, hgeneration, -, -, htarget, hquery, hsettings,
    horigin, -, -⟩, _, -, _, ⟨hlead, hstartup, hallowance⟩, hevidence⟩ := h
  exact ⟨huid, hgeneration, htarget, hquery, hsettings, horigin, hlead,
    hstartup, hallowance, hevidence⟩

theorem V2Response.Echoes.of_same {r : V2Response} {b b' : V2Binding}
    (h : r.Echoes b) (hsame : b.SameRequest b') : r.Echoes b' where
  uid := h.uid.trans hsame.uid
  generation := h.generation.trans hsame.generation
  target := h.target.trans hsame.target
  query := h.query.trans hsame.query
  settings := h.settings.trans hsame.settings
  origin := h.origin.trans hsame.origin
  lead := h.lead.trans hsame.lead
  startup := h.startup.trans hsame.startup
  allowance := h.allowance.trans hsame.allowance
  evidence := h.evidence.trans hsame.evidence

/-- What the verdict demands of an answer at `nowMs`. -/
structure V2Response.Usable (r : V2Response) (s : V2Settings) (nowMs : ℤ) :
    Prop where
  trusted : r.trustState = "Trusted"
  ready : r.reason = "Ready"
  upper : ∃ u, r.upperWindowMaxRPS = some u
  calibration : s.calibration.minWindows ≤ r.calibrationWindows
  prospective : s.trust.minProspectiveWindows ≤ r.prospectiveWindows
  recent : ∃ cutoff, r.evidenceCutoff = some cutoff ∧
    nowMs - cutoff * 1000 ≤ (r.leadSeconds + s.settlementSeconds +
      s.outcomeGraceSeconds + 2 * s.sampleIntervalSeconds) * 1000
  issued : r.issuedAtMs ≤ nowMs + v2IssueClockSkewMs
  actionable : r.window.actionableAt nowMs r.startupDelaySeconds
    r.actuationAllowanceSeconds = true

theorem V2Response.verdict_usable {r : V2Response} {s : V2Settings}
    {nowMs : ℤ} (h : (r.verdict s nowMs).eligible = true) :
    r.Usable s nowMs := by
  unfold V2Response.verdict at h
  dsimp only at h
  split_ifs at h with hoffered hevidence hrecent hissued hactionable
  simp only [not_or, Bool.not_eq_false, not_not, not_lt, ne_eq] at *
  obtain ⟨-, htrusted, hready, hupper⟩ := hoffered
  exact ⟨htrusted, hready, Option.ne_none_iff_exists'.mp hupper, hevidence.1,
    hevidence.2, hrecent, hissued, hactionable⟩

section Fetch

variable {unmarshal : List UInt8 → Option (List (String × Json))}

theorem receive_echoes {b : V2Binding} {reply : Reply} {r : V2Response}
    (h : receive unmarshal b reply = .ok r) : r.Echoes b := by
  cases reply with
  | misconfigured => cases h
  | failed => cases h
  | answered status body =>
      simp only [receive] at h
      split_ifs at h
      split at h
      · cases h
      · rename_i w _
        cases hdecode : decodeBound w b with
        | error e => rw [hdecode] at h; cases h
        | ok decoded =>
            rw [hdecode] at h
            cases h
            simp only [decodeBound, Forecasting.Except.bind_eq_ok_iff]
              at hdecode
            obtain ⟨_, -, _, hbound, hr⟩ := hdecode
            cases hr
            exact V2Response.bound_echoes hbound

/-- An answer comes from the cache, for the same key, or from the reply, and
then is what is cached. -/
theorem fetchV2_cases {cache cache' : Option V2CachedForecast}
    {b : V2Binding} {reply : Reply} {nowMs : ℤ}
    {result : Except FetchError V2Response}
    (h : fetchV2 unmarshal cache b reply nowMs = (result, cache')) :
    (∃ c, cache = some c ∧ c.binding = b.key ∧ result = .ok c.resp ∧
        cache' = cache) ∨
      (∃ r, receive unmarshal b reply = .ok r ∧ result = .ok r ∧
        cache' = some ⟨r, b.key⟩) ∨
      ∃ e, result = .error e ∧ cache' = none := by
  unfold fetchV2 at h
  split at h
  · rename_i c hc
    obtain ⟨hcache, hserves⟩ := Option.filter_eq_some_iff.mp hc
    cases h
    simp only [V2CachedForecast.serves, Bool.and_eq_true,
      decide_eq_true_eq] at hserves
    exact Or.inl ⟨c, hcache, hserves.1, rfl, hcache.symm⟩
  · split at h
    · rename_i r hr
      cases h
      exact Or.inr (Or.inl ⟨r, hr, rfl, rfl⟩)
    · rename_i e he
      cases h
      exact Or.inr (Or.inr ⟨e, rfl, rfl⟩)

end Fetch

section Path

variable {sha256 : List UInt8 → String}
  {unmarshal : List UInt8 → Option (List (String × Json))}

theorem prepareV2_settingsSHA256 {a : PreparedObject}
    {starts : StartupObservation} {reconcileInterval : ℤ} {s : V2Settings}
    (h : resolveV2Settings a.prediction = .ok s) :
    (prepareV2 sha256 a starts reconcileInterval).settingsSHA256 =
      s.fingerprint sha256 := by
  simp only [prepareV2, h]
  split <;> rfl

/-- What the v2 path asks for when it is reached. -/
structure V2Inputs.Asks (i : V2Inputs) (sha256 : List UInt8 → String)
    (dep : Deployment) (sha : String) (s : V2Settings) (l : PredictionLead) :
    Prop where
  target : i.obs.target = some dep
  query : i.obs.query = some sha
  settings : resolveV2Settings i.object.prediction = .ok s
  lead : (i.published sha256).lead = some l

theorem v2Hash_unbarred (hsha : ∀ bytes, Unbarred (sha256 bytes)) (d : Doc) :
    Unbarred (v2Hash sha256 d) := by
  unfold v2Hash
  split
  · unfold Unbarred
    decide
  · exact hsha _

theorem V2Inputs.Asks.separable (hsha : ∀ bytes, Unbarred (sha256 bytes))
    {i : V2Inputs} {dep : Deployment} {sha : String} {s : V2Settings}
    {l : PredictionLead} (h : i.Asks sha256 dep sha s l) (now : ℤ) :
    (i.binding sha256 dep sha s l now).Separable := by
  have hsettings : (i.binding sha256 dep sha s l now).settingsSHA =
      v2Hash sha256 s.canonical := prepareV2_settingsSHA256 h.settings
  have hevidence : (i.binding sha256 dep sha s l now).evidenceKey =
      v2Hash sha256
        (v2EvidenceDoc i.autoscalerUID dep.uid sha s l.seconds) := rfl
  constructor
  · exact i.uid_unbarred
  · exact i.target_unbarred dep h.target
  · exact i.query_unbarred sha h.query
  · rw [hsettings]
    exact v2Hash_unbarred hsha _
  · rw [hevidence]
    exact v2Hash_unbarred hsha _

/-- The v2 path, case by case: it is not reached, it asks and gets an answer,
or it gets none. -/
inductive V2Inputs.Asked (i : V2Inputs) (sha256 : List UInt8 → String)
    (unmarshal : List UInt8 → Option (List (String × Json))) (start : ℤ)
    (cache : Option V2CachedForecast) :
    Option V2Outcome → Option V2CachedForecast → Prop
  | unasked {cache' : Option V2CachedForecast}
      (hcache : cache' = cache ∨ cache' = none) :
      Asked i sha256 unmarshal start cache none cache'
  | unanswered {out : V2Outcome} {cache' : Option V2CachedForecast}
      (hcache : cache' = none)
      (hforecast : ∀ f, out.forecast ≠ .ok f) :
      Asked i sha256 unmarshal start cache (some out) cache'
  | answered {out : V2Outcome} {cache' : Option V2CachedForecast}
      {dep : Deployment} {sha : String} {s : V2Settings} {l : PredictionLead}
      {r : V2Response} (hasks : i.Asks sha256 dep sha s l)
      (hbinding : out.binding =
        some (i.binding sha256 dep sha s l (start + i.originDelay)))
      (hresponse : out.response = some r)
      (hforecast : ∀ f, out.forecast = .ok f →
        f = r.forecast s ∧ (r.verdict s (milliseconds
          (start + i.originDelay + i.requestDelay))).eligible = true)
      (hsource : let b :=
          i.binding sha256 dep sha s l (start + i.originDelay)
        (∃ c, cache = some c ∧ c.binding = b.key ∧ c.resp = r ∧
          cache' = cache) ∨
        (receive unmarshal b i.reply = .ok r ∧ cache' = some ⟨r, b.key⟩)) :
      Asked i sha256 unmarshal start cache (some out) cache'

variable (sha256 unmarshal) in
theorem V2Inputs.askV2_asked (i : V2Inputs) (start : ℤ)
    (cache : Option V2CachedForecast) :
    i.Asked sha256 unmarshal start cache
      (i.askV2 sha256 unmarshal start cache).1
      (i.askV2 sha256 unmarshal start cache).2 := by
  unfold V2Inputs.askV2
  split
  swap
  · exact .unasked (Or.inl rfl)
  rename_i dep sha htarget hquery
  split_ifs
  · exact .unasked (Or.inl rfl)
  · exact .unasked (Or.inr rfl)
  · exact .unasked (Or.inl rfl)
  dsimp only
  unfold V2Inputs.runV2
  dsimp only
  split
  swap
  · rename_i hnone
    refine .unanswered rfl fun f hf => ?_
    unfold V2Outcome.forecast at hf
    dsimp only at hf
    split at hf
    · cases hf
    · cases hf
    · rename_i s l hs hl
      exact hnone s l hs hl
  rename_i s l hs hl
  have hasks : i.Asks sha256 dep sha s l := ⟨htarget, hquery, hs, hl⟩
  generalize hfetch : fetchV2 unmarshal cache (i.binding sha256 dep sha s l
    (start + i.originDelay)) i.reply (milliseconds (start + i.originDelay)) =
      fetched
  obtain ⟨result, cache'⟩ := fetched
  cases result with
  | ok r =>
      refine .answered hasks (r := r) rfl rfl ?_ ?_
      · intro f hf
        simp only [V2Outcome.forecast, hs, hl] at hf
        split at hf
        · rename_i heligible
          cases hf
          exact ⟨rfl, heligible⟩
        · cases hf
      · rcases fetchV2_cases hfetch with ⟨c, hc, hkey, hr, hcache'⟩ |
          ⟨r', hr', hr, hcache'⟩ | ⟨e, hr, -⟩
        · cases hr
          exact Or.inl ⟨c, hc, hkey, rfl, hcache'⟩
        · cases hr
          exact Or.inr ⟨hr', hcache'⟩
        · cases hr
  | error e =>
      rcases fetchV2_cases hfetch with ⟨_, -, -, hr, -⟩ | ⟨_, -, hr, -⟩ |
        ⟨e', hr, hcache'⟩
      · cases hr
      · cases hr
      · refine .unanswered ?_ fun f hf => ?_
        · dsimp only
          rw [hcache']
          split <;> rfl
        · simp only [V2Outcome.forecast, hs, hl] at hf
          split at hf <;> cases hf

end Path

/-- The forecast of a predictive term is the one the v2 path offered. -/
theorem forecastTerm_policy {spec : AutoscalerSpec} {forecasts : Forecasts}
    {reactive now : ℤ} {pol : V2Policy} {f : V2Forecast}
    (h : (forecastTerm spec forecasts reactive now).policy = some (pol, f)) :
    forecasts.v2 = .ok f := by
  unfold forecastTerm at h
  split at h
  · cases h
  split at h
  · cases h
  split at h
  · split at h
    · cases h
    · rename_i f' hf'
      simp only [Option.some.injEq, Prod.mk.injEq] at h
      rw [hf', h.2]
  · split at h
    · cases h
    · split at h <;> cases h

theorem reconcile_policy {state : ScaleState} {start : ℤ} {obs : Observation}
    {d : Decision} {action : Action} {pol : V2Policy} {f : V2Forecast}
    (hout : (reconcile state start obs).2 = .decided d action)
    (hpolicy : d.term.policy = some (pol, f)) : obs.forecasts.v2 = .ok f := by
  obtain ⟨dep, sha, -, hd, -⟩ := reconcile_decided hout
  have hterm : d.term = obs.term (obs.delays.instants start) := by
    rw [hd]
    rfl
  rw [hterm, Observation.term, sanityCheck_policy] at hpolicy
  exact forecastTerm_policy hpolicy

/-- A write goes through only while the window of the forecast that took part
is actionable. -/
theorem write_written {answers : WriteAnswers} {pol : V2Policy}
    {f : V2Forecast} {now : ℤ}
    (h : write answers (some (pol, f)) now = .written) :
    f.actionable now = true := by
  unfold write at h
  split at h
  · cases h
  · cases h
  · split_ifs at h with hguard hexpired
    simpa using hexpired

/-- The action changed the replica count. -/
def Action.Writes (action : Action) : Prop :=
  ∃ n, action = .scaleUp n .written ∨ action = .scaleDown n .written

theorem Applied.write_written {obs : Observation} {times : Instants}
    {d : Decision} {state state' : ScaleState} {action : Action}
    (h : Applied obs times d state action state') (hwrites : Action.Writes action) :
    write obs.answers d.term.policy times.expiryCheck = .written := by
  obtain ⟨n, haction⟩ := hwrites
  cases h with
  | recommend => simp at haction
  | conflictHold => simp at haction
  | scaleUp _ _ _ hresult =>
      rw [hresult]
      simpa using (show _ ∧ _ by simpa using haction).2
  | holdHeadroom => simp at haction
  | scaleDown _ _ _ _ _ _ hresult =>
      rw [hresult]
      simpa using (show _ ∧ _ by simpa using haction).2
  | pending _ _ _ h => rcases h with rfl | rfl <;> simp at haction
  | atTarget _ _ _ h => rcases h with rfl | rfl <;> simp at haction

theorem reconcile_writes {state : ScaleState} {start : ℤ} {obs : Observation}
    {d : Decision} {action : Action} {pol : V2Policy} {f : V2Forecast}
    (hout : (reconcile state start obs).2 = .decided d action)
    (hpolicy : d.term.policy = some (pol, f)) (hwrites : Action.Writes action) :
    f.actionable (obs.delays.instants start).expiryCheck = true := by
  obtain ⟨dep, sha, -, -, happlied⟩ := reconcile_decided hout
  have h := applyScaling_applied obs (obs.delays.instants start) d
    (decideReplicas obs dep (obs.delays.instants start)
      (obs.prepared dep sha start state)).2
  rw [happlied] at h
  have hwritten := Applied.write_written h hwrites
  rw [hpolicy] at hwritten
  exact ForecastV2.write_written hwritten

section Runs

variable {sha256 : List UInt8 → String}
  {unmarshal : List UInt8 → Option (List (String × Json))}

/-- The step was a reconcile of `key` whose reply gave a cached answer. -/
def V2Entry.Gave (unmarshal : List UInt8 → Option (List (String × Json)))
    (key : String) (c : V2CachedForecast) (e : V2Entry) : Prop :=
  ∃ i b, e.event.action = .reconcile key i ∧ b.Separable ∧
    c.binding = b.key ∧ receive unmarshal b i.reply = .ok c.resp

/-- What is cached was given by an earlier step for the same key. -/
def CacheGiven (unmarshal : List UInt8 → Option (List (String × Json)))
    (past : List V2Entry) (op : V2Operator) : Prop :=
  ∀ key c, (op.memory key).cache = some c →
    ∃ e ∈ past, V2Entry.Gave unmarshal key c e

theorem V2Entry.Gave.echoes {key : String} {c : V2CachedForecast}
    {e : V2Entry} (h : V2Entry.Gave unmarshal key c e) {b : V2Binding}
    (hb : b.Separable) (hkey : c.binding = b.key) : c.resp.Echoes b := by
  obtain ⟨i, b', -, hb', hkey', hreceive⟩ := h
  exact (receive_echoes hreceive).of_same
    (V2Binding.sameRequest_of_key hb' hb (hkey'.symm.trans hkey))

theorem v2Step_cacheGiven (hsha : ∀ bytes, Unbarred (sha256 bytes))
    (past : List V2Entry) (op : V2Operator) (event : V2Event)
    (h : CacheGiven unmarshal past op) :
    CacheGiven unmarshal
      (past ++ [entryAt (v2Step sha256 unmarshal) op event])
      (v2Step sha256 unmarshal op event).1 := by
  intro key c hc
  obtain ⟨wait, action⟩ := event
  cases action with
  | restart => cases hc
  | reconcile key' i =>
      by_cases hkey : key = key'
      swap
      · simp only [v2Step, Function.update_of_ne hkey] at hc
        obtain ⟨e, he, hgave⟩ := h key c hc
        exact ⟨e, List.mem_append_left _ he, hgave⟩
      subst hkey
      simp only [v2Step, Function.update_self] at hc
      have hasked := i.askV2_asked sha256 unmarshal
        (op.clock + wait) (op.memory key).cache
      have hcache : (i.askV2 sha256 unmarshal (op.clock + wait)
          (op.memory key).cache).2 = some c := hc
      rw [hcache] at hasked
      have hkept : (op.memory key).cache = some c → ∃ e ∈ past ++
          [entryAt (v2Step sha256 unmarshal) op ⟨wait, .reconcile key i⟩],
          V2Entry.Gave unmarshal key c e := by
        intro hold
        obtain ⟨e, he, hgave⟩ := h key c hold
        exact ⟨e, List.mem_append_left _ he, hgave⟩
      generalize (i.askV2 sha256 unmarshal (op.clock + wait)
        (op.memory key).cache).1 = asked at hasked
      cases hasked with
      | unasked hold =>
          rcases hold with hold | hold
          · exact hkept hold.symm
          · cases hold
      | unanswered hnone => cases hnone
      | answered hasks _ _ _ hsource =>
          rcases hsource with ⟨_, -, -, -, hold⟩ | ⟨hreceive, hnew⟩
          · exact hkept hold.symm
          · cases hnew
            exact ⟨_, List.mem_append_right _ (List.mem_singleton_self _), i,
              _, rfl, hasks.separable hsha _, rfl, hreceive⟩

/-- An answer that took part in the decision of a reconcile, with what was
asked for. -/
structure V2Report.Authorized (report : V2Report)
    (sha256 : List UInt8 → String) (i : V2Inputs) (f : V2Forecast)
    (dep : Deployment) (sha : String) (s : V2Settings) (l : PredictionLead)
    (r : V2Response) : Prop where
  asks : i.Asks sha256 dep sha s l
  used : report.used = some r
  origin : report.origin =
    some (gridOrigin (report.start + i.originDelay) s.sampleIntervalSeconds)
  forecast : f = r.forecast s
  echoes : r.Echoes
    (i.binding sha256 dep sha s l (report.start + i.originDelay))
  usable : r.Usable s
    (milliseconds (report.start + i.originDelay + i.requestDelay))

theorem V2Report.used_decided {report : V2Report} {r : V2Response}
    (h : report.used = some r) :
    ∃ d action pol f, report.outcome = .decided d action ∧
      d.term.policy = some (pol, f) := by
  unfold V2Report.used at h
  split at h
  · rename_i d action hout
    split_ifs at h with hpolicy
    obtain ⟨⟨pol, f⟩, hpolicy⟩ := Option.isSome_iff_exists.mp hpolicy
    exact ⟨d, action, pol, f, hout, hpolicy⟩
  · cases h

theorem reconcileV2_report {m : V2Memory} {start : ℤ} {i : V2Inputs}
    {asked : Option V2Outcome} {cache : Option V2CachedForecast}
    (h : i.askV2 sha256 unmarshal start m.cache = (asked, cache)) :
    (reconcileV2 sha256 unmarshal m start i).2 =
      ⟨start, (i.observation asked).delays.instants start, asked,
        (reconcile m.scale start (i.observation asked)).2⟩ := by
  simp only [reconcileV2, h]

theorem reconcileV2_authorized (hsha : ∀ bytes, Unbarred (sha256 bytes))
    {past : List V2Entry} {op : V2Operator} (hop : CacheGiven unmarshal past op)
    {wait : ℕ} {key : String} {i : V2Inputs} {report : V2Report}
    (hreport : (v2Step sha256 unmarshal op ⟨wait, .reconcile key i⟩).2 =
      some report)
    {d : Decision} {action : Action} (hout : report.outcome = .decided d action)
    {pol : V2Policy} {f : V2Forecast} (hpolicy : d.term.policy = some (pol, f)) :
    ∃ dep sha s l r, report.Authorized sha256 i f dep sha s l r ∧
      (∃ e ∈ past ++ [entryAt (v2Step sha256 unmarshal) op
          ⟨wait, .reconcile key i⟩], V2Entry.Gave unmarshal key
        ⟨r, (i.binding sha256 dep sha s l
          (report.start + i.originDelay)).key⟩ e) ∧
      (Action.Writes action →
        r.window.actionableAt (milliseconds report.times.expiryCheck)
          r.startupDelaySeconds r.actuationAllowanceSeconds = true) := by
  have hasked := i.askV2_asked sha256 unmarshal
    (op.clock + wait) (op.memory key).cache
  generalize hv2 : i.askV2 sha256 unmarshal (op.clock + wait)
    (op.memory key).cache = asked at hasked
  obtain ⟨asked, cache'⟩ := asked
  have hfields : (reconcileV2 sha256 unmarshal (op.memory key)
      (op.clock + wait) i).2 = report := Option.some.inj hreport
  rw [reconcileV2_report hv2] at hfields
  subst hfields
  dsimp only at hout hasked ⊢
  have hoffered := reconcile_policy hout hpolicy
  have hwrites := reconcile_writes hout hpolicy
  simp only [V2Inputs.observation] at hoffered
  cases hasked with
  | unasked => cases hoffered
  | unanswered _ hnone => exact absurd hoffered (hnone f)
  | answered hasks hbinding hresponse hforecast hsource =>
      rename_i out dep sha s l r
      obtain ⟨hf, heligible⟩ := hforecast f hoffered
      have hseparable := hasks.separable hsha
        (op.clock + wait + i.originDelay)
      refine ⟨dep, sha, s, l, r, ⟨hasks, ?_, ?_, hf, ?_,
        V2Response.verdict_usable heligible⟩, ?_, ?_⟩
      · simp [V2Report.used, hout, hpolicy, hresponse]
      · simp [V2Report.origin, hbinding, V2Inputs.binding]
      · rcases hsource with ⟨c, hc, hkey, rfl, -⟩ | ⟨hreceive, -⟩
        · obtain ⟨e, -, hgave⟩ := hop key c hc
          exact hgave.echoes hseparable hkey
        · exact receive_echoes hreceive
      · rcases hsource with ⟨c, hc, hkey, rfl, -⟩ | ⟨hreceive, -⟩
        · obtain ⟨e, he, hgave⟩ := hop key c hc
          refine ⟨e, List.mem_append_left _ he, ?_⟩
          rw [← hkey]
          exact hgave
        · exact ⟨_, List.mem_append_right _ (List.mem_singleton_self _), i, _,
            rfl, hseparable, rfl, hreceive⟩
      · intro hw
        have hactionable := hwrites hw
        rw [hf] at hactionable
        exact hactionable

/-- In every run of an operator that starts with no cached answer: a v2
forecast that takes part in a decision comes from an answer that was received
for exactly this request, echoes it and is usable at the verdict; a write in
that reconcile finds the window still actionable; and no answer is used for two
grid origins. -/
theorem v2_forecast_authorized (hsha : ∀ bytes, Unbarred (sha256 bytes))
    {op : V2Operator} (hop : ∀ key, (op.memory key).cache = none)
    (events : List V2Event) :
    (∀ past e rest, v2Run sha256 unmarshal op events = past ++ e :: rest →
      ∀ key i report d action pol f, e.event.action = .reconcile key i →
        e.report = some report → report.outcome = .decided d action →
        d.term.policy = some (pol, f) →
        ∃ dep sha s l r, report.Authorized sha256 i f dep sha s l r ∧
          (∃ e' ∈ past ++ [e], V2Entry.Gave unmarshal key
            ⟨r, (i.binding sha256 dep sha s l
              (report.start + i.originDelay)).key⟩ e') ∧
          (Action.Writes action →
            r.window.actionableAt (milliseconds report.times.expiryCheck)
              r.startupDelaySeconds r.actuationAllowanceSeconds = true)) ∧
      ∀ e ∈ v2Run sha256 unmarshal op events,
        ∀ e' ∈ v2Run sha256 unmarshal op events, ∀ report report' r o o',
          e.report = some report → e'.report = some report' →
          report.used = some r → report'.used = some r →
          report.origin = some o → report'.origin = some o' → o = o' := by
  have hstart : CacheGiven unmarshal [] op := by
    intro key c hc
    rw [hop key] at hc
    cases hc
  have hentry : ∀ past e rest,
      v2Run sha256 unmarshal op events = past ++ e :: rest →
      ∀ key i report d action pol f, e.event.action = .reconcile key i →
        e.report = some report → report.outcome = .decided d action →
        d.term.policy = some (pol, f) →
        ∃ dep sha s l r, report.Authorized sha256 i f dep sha s l r ∧
          (∃ e' ∈ past ++ [e], V2Entry.Gave unmarshal key
            ⟨r, (i.binding sha256 dep sha s l
              (report.start + i.originDelay)).key⟩ e') ∧
          (Action.Writes action →
            r.window.actionableAt (milliseconds report.times.expiryCheck)
              r.startupDelaySeconds r.actuationAllowanceSeconds = true) := by
    intro past e rest htrace key i report d action pol f haction hreport hout
      hpolicy
    obtain ⟨hgiven, he⟩ := runTrace_history (CacheGiven unmarshal)
      (v2Step_cacheGiven hsha) hstart htrace
    obtain ⟨before, ⟨wait, action'⟩, report'⟩ := e
    dsimp only at haction
    subst haction
    have hstep : (v2Step sha256 unmarshal before
        ⟨wait, .reconcile key i⟩).2 = some report := by
      rw [← hreport]
      exact (congrArg Entry.report he).symm
    rw [he]
    exact reconcileV2_authorized hsha hgiven hstep hout hpolicy
  refine ⟨hentry, ?_⟩
  -- The origin is one of the fields that an answer echoes.
  have horigin : ∀ e ∈ v2Run sha256 unmarshal op events, ∀ report r o,
      e.report = some report → report.used = some r →
      report.origin = some o → r.decisionOrigin = o := by
    intro e he report r o hreport hused ho
    obtain ⟨past, rest, htrace⟩ := List.append_of_mem he
    obtain ⟨d, action, pol, f, hout, hpolicy⟩ := V2Report.used_decided hused
    obtain ⟨-, hentered⟩ := runTrace_history (CacheGiven unmarshal)
      (v2Step_cacheGiven hsha) hstart htrace
    obtain ⟨before, ⟨wait, event⟩, report'⟩ := e
    cases event with
    | restart =>
        have hnone : report' = none := congrArg Entry.report hentered
        rw [hnone] at hreport
        cases hreport
    | reconcile key i =>
        obtain ⟨dep, sha, s, l, r', hauthorized, -⟩ := hentry past _ rest
          htrace key i report d action pol f rfl hreport hout hpolicy
        have hr : r' = r :=
          Option.some.inj (hauthorized.used.symm.trans hused)
        have ho' := Option.some.inj (hauthorized.origin.symm.trans ho)
        rw [← hr, ← ho']
        exact hauthorized.echoes.origin
  intro e he e' he' report report' r o o' hreport hreport' hused hused' ho ho'
  rw [← horigin e he report r o hreport hused ho,
    ← horigin e' he' report' r o' hreport' hused' ho']

end Runs

namespace AuthorizationWitness

def digest : String :=
  "5f1d9c1f2f0d7a1e3b5c7d9e1f2a4b6c8d0e2f4a6b8c0d2e4f6a8b0c2d4e6f80"

/-- An answer for the origin 2027-01-15T08:00:00Z. -/
def answer : List (String × Json) :=
  [("autoscaler_namespace", .str "shop"), ("autoscaler_name", .str "web"),
    ("autoscaler_uid", .str "a-1"), ("autoscaler_generation", .num (.int 1)),
    ("target_namespace", .str "shop"), ("target_name", .str "web"),
    ("target_uid", .str "d-1"), ("metric_query_sha256", .str digest),
    ("contract", .str "requests-per-second/v1"),
    ("settings_sha256", .str digest),
    ("forecast_contract", .str "window-max-rps/v1"),
    ("unit", .str "requests/second"), ("issuance_id", .str "i-1"),
    ("issued_at", .str "2027-01-15T08:00:01.500Z"),
    ("input_end", .str "2027-01-15T07:55:00Z"),
    ("input_received_through", .str "2027-01-15T08:00:00.000Z"),
    ("fit_cutoff", .null), ("model_family", .str "seasonal_naive"),
    ("model_recipe", .str "naive/v1"), ("artifact_sha256", .null),
    ("calibration_epoch", .str digest), ("checkpoint_sha256", .null),
    ("decision_origin", .str "2027-01-15T08:00:00Z"),
    ("window_start", .str "2027-01-15T08:00:00Z"),
    ("window_end", .str "2027-01-15T08:15:00Z"),
    ("target_timestamps", .arr [.str "2027-01-15T08:05:00Z",
      .str "2027-01-15T08:10:00Z", .str "2027-01-15T08:15:00Z"]),
    ("sample_interval_seconds", .num (.int 300)),
    ("lead_seconds", .num (.int 900)),
    ("startup_delay_seconds", .num (.int 60)),
    ("actuation_allowance_seconds", .num (.int 15)),
    ("valid_until", .str "2027-01-15T08:04:45Z"),
    ("point_rps", .arr [.num (.int 9), .num (.int 10), .num (.int 9)]),
    ("base_window_max_rps", .num (.int 10)),
    ("upper_window_max_rps", .num (.decimal (25 / 2))),
    ("nominal_miscoverage_bps", .num (.int 1000)),
    ("working_miscoverage_ratio", .null),
    ("calibration_windows", .num (.int 128)),
    ("prospective_windows", .num (.int 64)), ("gate_coverage_ratio", .null),
    ("missing_outcome_ratio", .null),
    ("selected_candidate", .str "seasonal_naive"),
    ("trust_state", .str "Trusted"), ("reason", .str "Ready"),
    ("predictive_eligible", .bool true),
    ("evidence_cutoff", .str "2027-01-15T07:55:00Z")]

/-- Ten replicas are needed now, and twelve for the bound of the forecast. -/
def inputs : V2Inputs where
  autoscalerNamespace := "shop"
  autoscalerName := "web"
  autoscalerUID := "a-1"
  object := LeadWitness.prepared
  starts := LeadWitness.unmeasured
  reconcileInterval := 60 * second
  targetNamespace := "shop"
  targetName := "web"
  reply := .answered 200 []
  originDelay := 0
  requestDelay := 1000000000
  obs :=
    { ReconcileWitness.observation with
      target := some ⟨"d-1", 10, by decide, by decide⟩
      query := some digest }
  uid_unbarred := by unfold Unbarred; decide
  target_unbarred := by
    intro dep h
    cases h
    unfold Unbarred
    decide
  query_unbarred := by
    intro sha h
    cases h
    unfold Unbarred
    decide

def target : Deployment := ⟨"d-1", 10, by decide, by decide⟩

def start : ℤ := 1800000001 * second

/-- The binding of the request, every hash being the digest. -/
def binding : V2Binding where
  autoscalerNamespace := "shop"
  autoscalerName := "web"
  autoscalerUID := "a-1"
  generation := 1
  targetNamespace := "shop"
  targetName := "web"
  targetUID := "d-1"
  querySHA := digest
  settings := v2Default
  settingsSHA := digest
  origin := 1800000000
  lead := LeadWitness.lead
  evidenceKey := digest

/-- The answer, decoded. -/
def response : V2Response :=
  match decodeV2Response answer with
  | .ok r => r
  | .error _ => ⟨⟨"", "", "", 0, "", "", "", "", "", "", "", ""⟩,
      ⟨"", 0, 0, 0, none, "", "", none, "", none⟩,
      ⟨0, 0, 0, 0, 0, 0, 0, 0⟩, ⟨0, none, 0, none⟩,
      ⟨0, 0, none, none, "", "", "", none⟩, false, [], []⟩

theorem v2Hash_digest {d : Doc} (h : ∀ s ∈ d.texts, AsciiText s) :
    v2Hash (fun _ => digest) d = digest := by
  rw [v2Hash, v2CanonicalJSON_eq h]

theorem inputs_settings :
    resolveV2Settings inputs.object.prediction = .ok v2Default := by
  decide +kernel

theorem inputs_lead :
    (inputs.published (fun _ => digest)).lead = some LeadWitness.lead := by
  decide +kernel

theorem inputs_binding :
    inputs.binding (fun _ => digest) target digest v2Default LeadWitness.lead
      (start + inputs.originDelay) = binding := by
  have hsettings : (inputs.published (fun _ => digest)).settingsSHA256 =
      digest :=
    (prepareV2_settingsSHA256 inputs_settings).trans
      (v2Hash_digest (by decide +kernel))
  have hevidence : v2EvidenceKey (fun _ => digest) "a-1" "d-1" digest
      v2Default 900 = digest := v2Hash_digest (by decide +kernel)
  have horigin : gridOrigin (start + inputs.originDelay)
      v2Default.sampleIntervalSeconds = 1800000000 := by decide +kernel
  change V2Binding.mk "shop" "web" "a-1" 1 "shop" "web" "d-1" digest v2Default
    (inputs.published (fun _ => digest)).settingsSHA256 (gridOrigin
      (start + inputs.originDelay) v2Default.sampleIntervalSeconds)
    LeadWitness.lead (v2EvidenceKey (fun _ => digest) "a-1" "d-1" digest
      v2Default 900) = binding
  rw [hsettings, horigin, hevidence]
  rfl

theorem inputs_receive :
    receive (fun _ => some answer) binding inputs.reply = .ok response := by
  decide +kernel

/-- What the v2 path learned. -/
def outcome : V2Outcome where
  settings := .ok v2Default
  lead := some LeadWitness.lead
  binding := some binding
  response := some response
  verdict := response.verdict v2Default
    (milliseconds (start + inputs.originDelay + inputs.requestDelay))

theorem inputs_askV2 :
    inputs.askV2 (fun _ => digest) (fun _ => some answer) start none =
      (some outcome, some ⟨response, binding.key⟩) := by
  have hrun : inputs.runV2 (fun _ => digest) (fun _ => some answer) target
      digest (start + inputs.originDelay)
      (start + inputs.originDelay + inputs.requestDelay) none =
      (outcome, some ⟨response, binding.key⟩) := by
    simp only [V2Inputs.runV2, inputs_settings, inputs_lead, inputs_binding,
      fetchV2, Option.filter_none, inputs_receive]
    rfl
  have hreached : inputs.askV2 (fun _ => digest) (fun _ => some answer) start
      none = (some (inputs.runV2 (fun _ => digest) (fun _ => some answer)
        target digest (start + inputs.originDelay)
        (start + inputs.originDelay + inputs.requestDelay) none).1,
      (inputs.runV2 (fun _ => digest) (fun _ => some answer) target digest
        (start + inputs.originDelay)
        (start + inputs.originDelay + inputs.requestDelay) none).2) := rfl
  rw [hreached, hrun]

def operator : V2Operator := ⟨start, fun _ => {}⟩

/-- The count that was written with a v2 forecast taking part. -/
def forecastWrite (outcome : Outcome) : Option ℤ :=
  match outcome with
  | .decided d (.scaleUp n .written) =>
      if d.term.policy.isSome then some n else none
  | _ => none

theorem forecastWrite_eq_some {outcome : Outcome} {n : ℤ}
    (h : forecastWrite outcome = some n) :
    ∃ d pol f, outcome = .decided d (.scaleUp n .written) ∧
      d.term.policy = some (pol, f) := by
  unfold forecastWrite at h
  split at h
  · rename_i d m
    split_ifs at h with hpolicy
    obtain ⟨⟨pol, f⟩, hpolicy⟩ := Option.isSome_iff_exists.mp hpolicy
    cases h
    exact ⟨d, pol, f, rfl, hpolicy⟩
  · cases h

/-- One reconcile writes twelve replicas for the forecast of its origin. -/
theorem fresh_answer_writes :
    ∃ report r, (v2Run (fun _ => digest) (fun _ => some answer) operator
        [⟨0, .reconcile "shop/web" inputs⟩]).map Entry.report =
        [some report] ∧
      forecastWrite report.outcome = some 12 ∧ report.used = some r ∧
      r.decisionOrigin = 1800000000 ∧
      r.window.actionableAt (milliseconds report.times.expiryCheck)
        r.startupDelaySeconds r.actuationAllowanceSeconds = true := by
  have hreport := @reconcileV2_report _ _ {} start _ _ _ inputs_askV2
  have hwrite : forecastWrite (reconcile {} start
      (inputs.observation (some outcome))).2 = some 12 := by decide +kernel
  obtain ⟨d, pol, f, hout, hpolicy⟩ := forecastWrite_eq_some hwrite
  have hdigest : ∀ bytes : List UInt8,
      Unbarred ((fun _ : List UInt8 => digest) bytes) := by
    intro _
    change '|' ∉ digest.toList
    decide
  obtain ⟨dep, sha, s, l, r, hauthorized, -, hwritten⟩ :=
    (@v2_forecast_authorized (fun _ => digest) (fun _ => some answer) hdigest
      operator (fun _ => rfl) [⟨0, .reconcile "shop/web" inputs⟩]).1 []
      (entryAt (v2Step (fun _ => digest) (fun _ => some answer)) operator
        ⟨0, .reconcile "shop/web" inputs⟩) [] rfl "shop/web" inputs _ d _ pol f
      rfl (congrArg some hreport) hout hpolicy
  refine ⟨_, r, congrArg (fun x => [some x]) hreport, hwrite,
    hauthorized.used, ?_, hwritten ⟨12, Or.inl rfl⟩⟩
  have hs : s = v2Default := Except.ok.inj
    (hauthorized.asks.settings.symm.trans inputs_settings)
  have horigin : gridOrigin (start + inputs.originDelay)
      v2Default.sampleIntervalSeconds = 1800000000 := by decide +kernel
  rw [hauthorized.echoes.origin, ← horigin, ← hs]
  rfl

end AuthorizationWitness

end PredictiveAutoscaler.ForecastV2
