/-
Which v1 forecasts the cache of one autoscaler returns, over runs of lookups
with arbitrary objects, targets, signals and answers of the forecasting
service.  A forecast that is returned was answered for the query then
compiled, under the binding of the lookup, and is young enough for the way it
is reused; a refusal ends every forecast before it.
-/
import PredictiveAutoscaler.ForecastReuse

namespace PredictiveAutoscaler.ForecastCache

/-- `status.metricSource`: the compiled query and its target. -/
structure MetricSource where
  targetUID : String
  sha256 : String
  contract : String
deriving DecidableEq, Repr

/-- What a lookup reads of the autoscaler. -/
structure Autoscaler where
  uid : String
  metricSource : Option MetricSource
deriving DecidableEq, Repr

/-- `forecastBinding`: the object, the target and the compiled query with its
contract. -/
def forecastBinding (a : Autoscaler) : String :=
  match a.metricSource with
  | none => a.uid ++ "|-"
  | some ms =>
      a.uid ++ "|" ++ ms.targetUID ++ "|" ++ ms.sha256 ++ "|" ++ ms.contract

/-- A decoded answer: the forecast, and the signal it was computed on. -/
structure Answer where
  response : MLResponse
  metricQuerySHA256 : String
  contract : String
deriving DecidableEq

/-- How the exchange with the forecasting service went. -/
inductive Exchange
  /-- The client could not send the request. -/
  | misconfigured
  | transport
  /-- Another status than 200. -/
  | status (code : ℕ)
  /-- Status 200 with a body that does not decode. -/
  | undecodable
  | decoded (answer : Answer)
deriving DecidableEq

inductive ApiError
  | misconfigured
  | refused (code : ℕ)
  | server (code : ℕ)
  | transport
  | undecodable
deriving DecidableEq, Repr

/-- `isForecastRefusal`, or a client configuration error. -/
def ApiError.Refusal : ApiError → Prop
  | .misconfigured => True
  | .refused _ => True
  | _ => False

instance (e : ApiError) : Decidable e.Refusal :=
  match e with
  | .misconfigured => isTrue trivial
  | .refused _ => isTrue trivial
  | .server _ => isFalse id
  | .transport => isFalse id
  | .undecodable => isFalse id

/-- The forecast was computed on the compiled query. -/
def Answer.Matches (r : Answer) (a : Autoscaler) : Prop :=
  ∃ ms, a.metricSource = some ms ∧ ms.sha256 ≠ "" ∧
    r.metricQuerySHA256 = ms.sha256 ∧ r.contract = ms.contract

instance (r : Answer) (a : Autoscaler) : Decidable (r.Matches a) :=
  match hms : a.metricSource with
  | none => isFalse (by rintro ⟨_, h, -⟩; rw [hms] at h; cases h)
  | some ms =>
      decidable_of_iff (ms.sha256 ≠ "" ∧ r.metricQuerySHA256 = ms.sha256 ∧
        r.contract = ms.contract) (by simp [Answer.Matches, hms])

/-- `getPredictionObserved`. -/
def getPrediction (a : Autoscaler) : Exchange → Except ApiError Answer
  | .misconfigured => .error .misconfigured
  | .transport => .error .transport
  | .status code =>
      if 400 ≤ code ∧ code < 500 then .error (.refused code)
      else .error (.server code)
  | .undecodable => .error .undecodable
  | .decoded r => if r.Matches a then .ok r else .error (.refused 200)

structure CachedPrediction where
  response : Answer
  fetchedAt : ℤ
  binding : String
deriving DecidableEq

abbrev Returned := ForecastLookup.Returned CachedPrediction

abbrev Lookup := ForecastLookup.Lookup ApiError Answer CachedPrediction

/-- A lookup for the autoscaler; `now` is before the API call and `later`
after it. -/
def getCachedPrediction (cache : Option CachedPrediction) (a : Autoscaler)
    (exchange : Exchange) (now later : ℤ) :
    Lookup × Option CachedPrediction :=
  ForecastLookup.getCached ApiError.Refusal CachedPrediction.fetchedAt
    CachedPrediction.binding cache (forecastBinding a)
    (getPrediction a exchange) (fun r => ⟨r, later, forecastBinding a⟩) now
    later

/-- What a lookup can do. -/
abbrev LookedUp (cache : Option CachedPrediction) (a : Autoscaler)
    (exchange : Exchange) (now later : ℤ) :
    Lookup → Option CachedPrediction → Prop :=
  ForecastLookup.LookedUp ApiError.Refusal CachedPrediction.fetchedAt
    CachedPrediction.binding cache (forecastBinding a)
    (getPrediction a exchange) (fun r => ⟨r, later, forecastBinding a⟩) now
    later

theorem getCachedPrediction_lookedUp (cache : Option CachedPrediction)
    (a : Autoscaler) (exchange : Exchange) (now later : ℤ) :
    LookedUp cache a exchange now later
      (getCachedPrediction cache a exchange now later).1
      (getCachedPrediction cache a exchange now later).2 :=
  ForecastLookup.getCached_lookedUp _ _ _ _ _ _ _ _ _

structure Memory where
  clock : ℤ
  cache : Option CachedPrediction
deriving DecidableEq

inductive CacheAction
  /-- The operator restarts and loses its memory. -/
  | restart
  /-- A reconcile that finds the metric configuration invalid. -/
  | invalidQuery
  | lookup (a : Autoscaler) (exchange : Exchange) (requestTook : ℕ)

/-- An action, and how long after the previous one it begins. -/
structure CacheEvent where
  wait : ℕ
  action : CacheAction

def cacheStep (m : Memory) (event : CacheEvent) : Memory × Lookup :=
  let start := m.clock + event.wait
  match event.action with
  | .restart => (⟨start, none⟩, {})
  | .invalidQuery => (⟨start, none⟩, {})
  | .lookup a exchange requestTook =>
      let later := start + requestTook
      let (found, cache) := getCachedPrediction m.cache a exchange start later
      (⟨later, cache⟩, found)

abbrev CacheEntry := Entry Memory CacheEvent Lookup

abbrev cacheRun (m : Memory) (events : List CacheEvent) : List CacheEntry :=
  runTrace cacheStep m events

/-- The API call of a step was refused or could not be sent. -/
def Refused (e : CacheEntry) : Prop :=
  ∃ err, e.report.api = some (.error err) ∧ err.Refusal

/-- The step obtained a forecast, with an answer for the compiled query of its
status. -/
structure Obtained (c : CachedPrediction) (e : CacheEntry) : Prop where
  answered : e.report.api = some (.ok c.response)
  matching : ∃ a exchange requestTook,
    e.event.action = .lookup a exchange requestTook ∧ c.response.Matches a ∧
      c.binding = forecastBinding a ∧
      c.fetchedAt = e.before.clock + e.event.wait + requestTook

/-- A cached forecast was obtained by an earlier step, after which nothing was
refused. -/
def CacheObtained (past : List CacheEntry) (m : Memory) : Prop :=
  ∀ c, m.cache = some c → ∃ n e, past[n]? = some e ∧ Obtained c e ∧
    HoldsFrom (fun e => ¬Refused e) past n

theorem getPrediction_matches {a : Autoscaler} {exchange : Exchange}
    {r : Answer} (h : getPrediction a exchange = .ok r) : r.Matches a := by
  cases exchange with
  | misconfigured => cases h
  | transport => cases h
  | status code =>
      simp only [getPrediction] at h
      split_ifs at h
  | undecodable => cases h
  | decoded answer =>
      simp only [getPrediction] at h
      split_ifs at h with hmatches
      cases h
      exact hmatches

/-- A lookup keeps what is known of the cache. -/
theorem cacheStep_obtained (past : List CacheEntry) (m : Memory)
    (event : CacheEvent) (h : CacheObtained past m) :
    CacheObtained (past ++ [entryAt cacheStep m event])
      (cacheStep m event).1 := by
  obtain ⟨wait, action⟩ := event
  intro c hc
  cases action with
  | restart => cases hc
  | invalidQuery => cases hc
  | lookup a exchange requestTook =>
      have hlooked := getCachedPrediction_lookedUp m.cache a exchange
        (m.clock + wait) (m.clock + wait + requestTook)
      simp only [cacheStep] at hc
      rw [hc] at hlooked
      generalize hfound : (getCachedPrediction m.cache a exchange
        (m.clock + wait) (m.clock + wait + requestTook)).1 = found at hlooked
      have hreport : (entryAt cacheStep m
          ⟨wait, .lookup a exchange requestTook⟩).report = found := hfound
      have hkept : ¬Refused (entryAt cacheStep m
          ⟨wait, .lookup a exchange requestTook⟩) → m.cache = some c →
          ∃ n e, (past ++ [entryAt cacheStep m
              ⟨wait, .lookup a exchange requestTook⟩])[n]? = some e ∧
            Obtained c e ∧ HoldsFrom (fun e => ¬Refused e) (past ++
              [entryAt cacheStep m ⟨wait, .lookup a exchange requestTook⟩])
              n := by
        intro hrefused hcache
        obtain ⟨n, e, he, hobtained, hsince⟩ := h c hcache
        exact ⟨n, e, getElem?_snoc_of_some _ he, hobtained,
          hsince.snoc hrefused⟩
      cases hlooked with
      | hit hcache =>
          refine hkept ?_ hcache
          rintro ⟨err, herr, -⟩
          rw [hreport] at herr
          cases herr
      | fresh hanswer =>
          refine ⟨past.length, _, List.getElem?_concat_length, ⟨?_, a,
            exchange, requestTook, rfl, getPrediction_matches hanswer, rfl,
            rfl⟩, HoldsFrom.of_length ?_⟩
          · rw [hreport]
          · rintro ⟨err, herr, -⟩
            rw [hreport] at herr
            cases herr
      | stale hcache _ _ herr =>
          refine hkept ?_ hcache
          rintro ⟨err, herr', hrefusal⟩
          rw [hreport] at herr'
          cases herr'
          exact herr hrefusal

/-- In every run from an empty cache, a forecast that a lookup returns has the
binding of the lookup and was obtained by a step of the run, the lookup's own
or an earlier one, since when nothing was refused.  It is younger than the
cache's limit, or than the limit for failures when the lookup's own API call
failed without a refusal. -/
theorem returned_forecast_eligible {m : Memory} (hm : m.cache = none)
    {events : List CacheEvent} {past rest : List CacheEntry} {e : CacheEntry}
    (htrace : cacheRun m events = past ++ e :: rest) {u : Returned}
    (hu : e.report.returned = some u) :
    ∃ a exchange requestTook, e.event.action = .lookup a exchange requestTook ∧
      e.before.clock + e.event.wait ≤ u.time ∧
      u.time ≤ e.before.clock + e.event.wait + requestTook ∧
      u.forecast.binding = forecastBinding a ∧
      (∃ n e', (past ++ [e])[n]? = some e' ∧ Obtained u.forecast e' ∧
        HoldsFrom (fun e => ¬Refused e) (past ++ [e]) n) ∧
      (u.time - u.forecast.fetchedAt < predictionCacheTTL ∨
        u.time - u.forecast.fetchedAt < predictionStaleMax ∧
          ∃ err, e.report.api = some (.error err) ∧ ¬err.Refusal) := by
  have hstart : CacheObtained [] m := by
    intro c hc
    rw [hm] at hc
    cases hc
  obtain ⟨hobtained, he⟩ :=
    runTrace_history CacheObtained cacheStep_obtained hstart htrace
  have hafter := cacheStep_obtained past e.before e.event hobtained
  rw [← he] at hafter
  obtain ⟨before, ⟨wait, action⟩, report⟩ := e
  have hreport : (cacheStep before ⟨wait, action⟩).2 = report :=
    (congrArg Entry.report he).symm
  cases action with
  | restart => rw [← hreport] at hu; cases hu
  | invalidQuery => rw [← hreport] at hu; cases hu
  | lookup a exchange requestTook =>
      have hlooked := getCachedPrediction_lookedUp before.cache a exchange
        (before.clock + wait) (before.clock + wait + requestTook)
      have hfound : (getCachedPrediction before.cache a exchange
        (before.clock + wait) (before.clock + wait + requestTook)).1 =
          report := hreport
      have hcache : ∀ c, (getCachedPrediction before.cache a exchange
          (before.clock + wait) (before.clock + wait + requestTook)).2 =
            some c → (cacheStep before
          ⟨wait, .lookup a exchange requestTook⟩).1.cache = some c :=
        fun c hc => hc
      rw [hfound] at hlooked
      refine ⟨a, exchange, requestTook, rfl, ?_⟩
      generalize (getCachedPrediction before.cache a exchange
        (before.clock + wait) (before.clock + wait + requestTook)).2 = cache'
          at hlooked hcache
      cases hlooked with
      | hit _ hbinding hage =>
          cases hu
          exact ⟨le_rfl, by dsimp only; omega, hbinding,
            hafter _ (hcache _ rfl), .inl hage⟩
      | fresh hanswer =>
          cases hu
          refine ⟨by dsimp only; omega, le_rfl, rfl, hafter _ (hcache _ rfl),
            .inl ?_⟩
          rw [sub_self]
          decide
      | stale _ hbinding _ herr hage =>
          cases hu
          exact ⟨by dsimp only; omega, le_rfl, hbinding,
            hafter _ (hcache _ rfl), .inr ⟨hage, _, rfl, herr⟩⟩
      | dropped => cases hu

namespace CacheWitness

def autoscaler : Autoscaler :=
  ⟨"a-1", some ⟨"d-1", "rate", "requests-per-second/v1"⟩⟩

def answer : Answer :=
  ⟨⟨[600], 1, none⟩, "rate", "requests-per-second/v1"⟩

/-- An answer, and six minutes later an outage. -/
def events : List CacheEvent :=
  [⟨0, .lookup autoscaler (.decoded answer) 0⟩,
    ⟨360000000000, .lookup autoscaler (.status 503) 0⟩]

/-- The forecast of six minutes ago stands in during the outage. -/
theorem outage_reuses_forecast :
    ∃ u : Returned, ((cacheRun ⟨0, none⟩ events).map fun e =>
        e.report.returned)[1]? = some (some u) ∧
      u.use = .staleAfterError ∧
      u.time - u.forecast.fetchedAt < predictionStaleMax := by
  have h := @returned_forecast_eligible ⟨0, none⟩ rfl events
    ((cacheRun ⟨0, none⟩ events).take 1) []
    (entryAt cacheStep ⟨0, some ⟨answer, 0, forecastBinding autoscaler⟩⟩
      ⟨360000000000, .lookup autoscaler (.status 503) 0⟩) (by rfl)
    ⟨.staleAfterError, ⟨answer, 0, forecastBinding autoscaler⟩,
      360000000000⟩ (by decide +kernel)
  obtain ⟨_, _, _, _, -, -, -, -, hage⟩ := h
  refine ⟨⟨.staleAfterError, ⟨answer, 0, forecastBinding autoscaler⟩,
    360000000000⟩, by decide +kernel, rfl, ?_⟩
  rcases hage with hage | ⟨hage, -⟩
  · exact hage.trans (by decide)
  · exact hage

end CacheWitness

end PredictiveAutoscaler.ForecastCache
