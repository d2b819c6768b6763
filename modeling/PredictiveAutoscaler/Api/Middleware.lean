/-
The authentication middleware of the forecasting service.  A request reaches
the application on an open path, or with the one bearer token of its headers
reviewed and its body read through a cap; the configuration from the
environment says which paths are open and who may call the others.
-/
import PredictiveAutoscaler.Api.Auth
import PredictiveAutoscaler.Forecasting.WireGrammar
import PredictiveAutoscaler.PythonText

namespace PredictiveAutoscaler.Api

open Forecasting Pattern

inductive AuthMode
  | off
  | tokenreview
deriving DecidableEq, Repr

structure AuthConfig where
  mode : AuthMode := .off
  audience : String := "predictive-autoscaler-forecaster"
  subjects : List String := []
  metricsSubjects : List String := []
  allowPlaintext : Bool := false
  openPaths : List String := ["/health", "/ready", "/metrics"]
deriving DecidableEq, Repr

/-- `SUBJECT`: the user name of a service account. -/
def subjectPattern : Pattern :=
  "system:serviceaccount:".toList.foldr (fun c p => .char c * p) dnsLabel *
    (.char ':' * (oneOf alphanumerics *
      opt (.star (oneOf ('-' :: '.' :: alphanumerics)) * oneOf alphanumerics)))

/-- `SUBJECT.match` -/
def isSubject (s : String) : Bool := subjectPattern.matchLine s.toList

/-- `AuthMisconfigured`: the service does not start. -/
inductive AuthMisconfigured
  | notSubjects (name : String)
  | unknownMode (mode : String)
  | noSubjects
  | noMetricsSubjects
  | noTls
deriving DecidableEq, Repr

/-- `_subjects` -/
def subjectsOf (raw name : String) : Except AuthMisconfigured (List String) :=
  let subjects := ((raw.toList.splitOn ',').map fun part =>
    strip (.ofList part)).filter (· ≠ "")
  if subjects.all isSubject then .ok subjects else .error (.notSubjects name)

/-- The environment and the files it may name. -/
structure Environment where
  get : String → Option String
  isFile : String → Bool

/-- `env.get(name, "false").strip().lower() == "true"` -/
def Environment.flag (env : Environment) (name : String) : Bool :=
  (strip ((env.get name).getD "false")).toLower = "true"

/-- `value or default` -/
def orElse (value default : String) : String :=
  if value = "" then default else value

/-- `config_from_env` -/
def configFromEnv (env : Environment) :
    Except AuthMisconfigured AuthConfig := do
  let mode := orElse (strip ((env.get "FORECASTER_AUTH").getD "off")) "off"
  if mode = "off" then return {}
  if mode ≠ "tokenreview" then throw (.unknownMode mode)
  let subjects ← subjectsOf ((env.get "FORECASTER_AUTH_SUBJECTS").getD "")
    "FORECASTER_AUTH_SUBJECTS"
  if subjects = [] then throw .noSubjects
  let metrics := env.flag "FORECASTER_AUTH_METRICS"
  let metricsSubjects ← subjectsOf
    ((env.get "FORECASTER_AUTH_METRICS_SUBJECTS").getD "")
    "FORECASTER_AUTH_METRICS_SUBJECTS"
  if metrics ∧ metricsSubjects = [] then throw .noMetricsSubjects
  let allowPlaintext := env.flag "FORECASTER_AUTH_ALLOW_PLAINTEXT"
  let cert := (env.get "FORECASTER_TLS_CERT").getD ""
  let key := (env.get "FORECASTER_TLS_KEY").getD ""
  if ¬allowPlaintext ∧ ¬(cert ≠ "" ∧ key ≠ "" ∧ env.isFile cert ∧
      env.isFile key) then throw .noTls
  let audience := orElse (strip ((env.get "FORECASTER_AUTH_AUDIENCE").getD
    "predictive-autoscaler-forecaster")) "predictive-autoscaler-forecaster"
  return {
    mode := .tokenreview
    audience
    subjects
    metricsSubjects := if metrics then metricsSubjects else []
    allowPlaintext
    openPaths := ["/health", "/ready"] ++
      if metrics then [] else ["/metrics"] }

abbrev Bytes := List UInt8

/-- An ASGI scope: what the middleware reads of it, and the subject that it
leaves there for the application. -/
structure Scope where
  type : String
  scheme : String
  path : String
  headers : List (Bytes × Bytes)
  authSubject : Option String := none
deriving DecidableEq

/-- What `receive` returns. -/
inductive Message
  | request (body : Bytes) (moreBody : Bool)
  | disconnect
deriving DecidableEq

/-- What becomes of a request: the application is called with a scope and the
messages it will receive, or a response is sent, or nothing. -/
inductive Served
  | app (scope : Scope) (receive : List Message)
  | respond (status : ℕ) (error message : String) (challenge : Bool)
  | closed (code : ℕ)
  | disconnected
  /-- The body never ends. -/
  | waiting
  | raised (error : AuthError)
deriving DecidableEq

/-- `MAX_BEARER` and `MAX_BODY`. -/
def maxBearer : ℕ := 8192

def maxBody : ℕ := 1048576

/-- The bytes of an ASCII text. -/
def ascii (s : String) : Bytes := s.toList.map fun c => c.toNat.toUInt8

/-- `bytes.lower` -/
def lower (b : Bytes) : Bytes :=
  b.map fun c => if 65 ≤ c ∧ c ≤ 90 then c + 32 else c

/-- `decode("ascii")` -/
def decodeAscii (b : Bytes) : Option String :=
  if b.all (· < 128) then some (.ofList (b.map fun c => .ofNat c.toNat))
  else none

/-- The values of the authorization headers. -/
def Scope.authorization (scope : Scope) : List Bytes :=
  scope.headers.filterMap fun header =>
    if lower header.1 = ascii "authorization" then some header.2 else none

/-- The bearer token of a request, or why it is refused. -/
def Scope.bearer (scope : Scope) : Except String String :=
  match scope.authorization with
  | [value] =>
      let prefixBytes := ascii "Bearer "
      if maxBearer < value.length ∨ ¬prefixBytes <+: value ∨
          value.length ≤ prefixBytes.length then
        .error "a bearer token is required"
      else
        match decodeAscii (value.drop prefixBytes.length) with
        | some token => .ok token
        | none => .error "a bearer token is required"
  | _ => .error "exactly one Authorization header is required"

/-- How the body is read: whole, with the messages left after it. -/
inductive BodyRead
  | complete (body : Bytes) (rest : List Message)
  | tooLarge
  | disconnected
  | waiting
deriving DecidableEq

/-- The body, read chunk by chunk up to a number of bytes. -/
def readBody (limit : ℕ) (body : Bytes) : List Message → BodyRead
  | [] => .waiting
  | .disconnect :: _ => .disconnected
  | .request chunk moreBody :: rest =>
      if limit < (body ++ chunk).length then .tooLarge
      else if moreBody then readBody limit (body ++ chunk) rest
      else .complete (body ++ chunk) rest

/-- A request with what it finds: an admission slot, the times and the cluster
of its review. -/
structure Request where
  scope : Scope
  messages : List Message
  admitted : Bool
  lookupAt : ℚ
  cluster : Cluster
  reviewedAt : ℚ

/-- The path of a request is served without authentication. -/
def AuthConfig.isOpen (config : AuthConfig) (scope : Scope) : Prop :=
  scope.type ≠ "http" ∨ scope.path ∈ config.openPaths

instance (config : AuthConfig) (scope : Scope) :
    Decidable (config.isOpen scope) :=
  inferInstanceAs (Decidable (_ ∨ _))

def AuthConfig.allowed (config : AuthConfig) (scope : Scope) : List String :=
  if scope.path = "/metrics" then config.metricsSubjects else config.subjects

/-- The call of the reviewer that a token leads to. -/
def Request.call (request : Request) (config : AuthConfig) (token : String) :
    Call :=
  { token
    allowed := config.allowed request.scope
    lookupAt := request.lookupAt
    cluster := request.cluster
    reviewedAt := request.reviewedAt }

/-- The response to an exception of the review. -/
def refusal : AuthError → Served
  | .unauthenticated message => .respond 401 "Unauthenticated" message true
  | .forbidden _ =>
      .respond 403 "Forbidden" "this caller may not use this endpoint" false
  | .authUnavailable _ =>
      .respond 503 "AuthUnavailable"
        "authentication is temporarily unavailable" false
  | .overflowError message => .raised (.overflowError message)

/-- After authentication: the body, and the application with it. -/
def Request.deliver (request : Request) (subject : String) : Served :=
  match readBody maxBody [] request.messages with
  | .complete body rest =>
      .app { request.scope with authSubject := some subject }
        (.request body false :: rest)
  | .tooLarge =>
      .respond 413 "BodyTooLarge"
        s!"the request body exceeds {maxBody} bytes" false
  | .disconnected => .disconnected
  | .waiting => .waiting

section Middleware

variable {Digest : Type} [DecidableEq Digest] (config : AuthConfig)
  (r : TokenReviewer Digest)

/-- `AuthMiddleware.__call__` -/
def serve (cache : Cache Digest) (request : Request) :
    Cache Digest × Served :=
  let scope := request.scope
  if scope.type = "websocket" then (cache, .closed 1008)
  else if config.isOpen scope then (cache, .app scope request.messages)
  else if scope.scheme ≠ "https" ∧ ¬config.allowPlaintext then
    (cache, .respond 500 "TLSRequired"
      "authentication is served only over TLS" false)
  else
    match scope.bearer with
    | .error message =>
        (cache, .respond 401 "Unauthenticated" message true)
    | .ok token =>
        if ¬request.admitted then
          (cache, refusal (.authUnavailable
            "all token review slots are busy"))
        else
          match review r cache (request.call config token) with
          | (cache, .error e) => (cache, refusal e)
          | (cache, .ok subject) => (cache, request.deliver subject)

end Middleware

/-- The messages of a body sent in chunks. -/
def bodyMessages : List Bytes → List Message
  | [] => []
  | [chunk] => [.request chunk false]
  | chunk :: chunks => .request chunk true :: bodyMessages chunks

/-- The first chunk of a body is the last one, or more follow. -/
theorem eq_bodyMessages_iff {chunk : Bytes} {chunks : List Bytes}
    {messages rest : List Message} :
    messages = bodyMessages (chunk :: chunks) ++ rest ↔
      ∃ tail, messages = .request chunk (chunks ≠ []) :: tail ∧
        tail = bodyMessages chunks ++ rest := by
  cases chunks with
  | nil => simp [bodyMessages]
  | cons next others => simp [bodyMessages]

/-- A body is read exactly when its chunks are there and stay within the
limit. -/
theorem readBody_eq_complete {limit : ℕ} {body whole : Bytes}
    {messages rest : List Message} :
    readBody limit body messages = .complete whole rest ↔
      ∃ chunk chunks, messages = bodyMessages (chunk :: chunks) ++ rest ∧
        whole = body ++ (chunk :: chunks).flatten ∧ whole.length ≤ limit := by
  simp only [eq_bodyMessages_iff]
  induction messages generalizing body with
  | nil =>
      refine ⟨fun h => (nomatch h), ?_⟩
      rintro ⟨chunk, chunks, ⟨tail, hmessages, -⟩, -⟩
      cases hmessages
  | cons message messages ih =>
      cases message with
      | disconnect =>
          refine ⟨fun h => (nomatch h), ?_⟩
          rintro ⟨chunk, chunks, ⟨tail, hmessages, -⟩, -⟩
          cases hmessages
      | request chunk moreBody =>
          unfold readBody
          split
          · rename_i hlarge
            refine ⟨fun h => (nomatch h), ?_⟩
            rintro ⟨chunk', chunks, ⟨tail, hmessages, -⟩, hwhole, hlimit⟩
            cases hmessages
            rw [hwhole, List.flatten_cons, ← List.append_assoc,
              List.length_append] at hlimit
            omega
          · rename_i hfits
            cases moreBody with
            | false =>
                constructor
                · intro h
                  cases h
                  exact ⟨chunk, [], ⟨_, rfl, rfl⟩,
                    by rw [List.flatten_singleton], by omega⟩
                · rintro ⟨chunk', chunks, ⟨tail, hmessages, htail⟩, hwhole, -⟩
                  cases chunks with
                  | nil =>
                      cases hmessages
                      rw [hwhole, List.flatten_singleton, htail]
                      rfl
                  | cons next others => cases hmessages
            | true =>
                simp only [if_true, ih]
                constructor
                · rintro ⟨next, others, ⟨tail, hmessages, htail⟩, hwhole,
                    hlimit⟩
                  refine ⟨chunk, next :: others, ⟨messages, rfl, ?_⟩, ?_,
                    hlimit⟩
                  · exact eq_bodyMessages_iff.mpr ⟨tail, hmessages, htail⟩
                  · rw [hwhole, List.flatten_cons (l := chunk),
                      List.append_assoc]
                · rintro ⟨chunk', chunks, ⟨tail, hmessages, htail⟩, hwhole,
                    hlimit⟩
                  cases chunks with
                  | nil => cases hmessages
                  | cons next others =>
                      cases hmessages
                      refine ⟨next, others, eq_bodyMessages_iff.mp htail, ?_,
                        hlimit⟩
                      rw [hwhole, List.flatten_cons (l := chunk),
                        List.append_assoc]

/-- Every subject that is configured is a service account's name. -/
theorem subjectsOf_eq_ok {raw name : String} {subjects : List String}
    (h : subjectsOf raw name = .ok subjects) :
    ∀ subject ∈ subjects, subjectPattern.rmatch subject.toList = true := by
  unfold subjectsOf at h
  dsimp only at h
  split at h
  · rename_i hall
    cases h
    intro subject hsubject
    have hmatch := List.all_eq_true.mp hall subject hsubject
    rcases matchLine_iff.mp hmatch with hline | ⟨x, hx, -⟩
    · exact hline
    · obtain ⟨part, -, rfl⟩ :=
        List.mem_map.mp (List.mem_of_mem_filter hsubject)
      exact absurd hx (strip_ne_concat (by decide))
  · cases h

/-- What a configuration that authenticates guards: every path but the probes,
and the metrics where they are asked for, has its service accounts, over TLS
unless plain text is allowed. -/
structure AuthConfig.Guards (config : AuthConfig) (env : Environment) :
    Prop where
  open_paths : ∀ path ∈ config.openPaths, path = "/health" ∨
    path = "/ready" ∨
      path = "/metrics" ∧ env.flag "FORECASTER_AUTH_METRICS" = false
  callers : ∀ scope, ¬config.isOpen scope → config.allowed scope ≠ []
  accounts : ∀ scope, ∀ subject ∈ config.allowed scope,
    subjectPattern.rmatch subject.toList = true
  tls : config.allowPlaintext = false → ∃ cert key,
    env.get "FORECASTER_TLS_CERT" = some cert ∧ env.isFile cert = true ∧
      env.get "FORECASTER_TLS_KEY" = some key ∧ env.isFile key = true

theorem getD_ne_empty {value : Option String} (h : value.getD "" ≠ "") :
    value = some (value.getD "") := by
  cases value with
  | none => exact absurd rfl h
  | some text => rfl

theorem configFromEnv_guards {env : Environment} {config : AuthConfig}
    (h : configFromEnv env = .ok config) (hmode : config.mode = .tokenreview) :
    config.Guards env := by
  simp only [configFromEnv, bind, Except.bind, pure, Except.pure, throw,
    throwThe, MonadExceptOf.throw] at h
  split at h
  · cases h
    cases hmode
  split at h
  · cases h
  split at h
  · cases h
  rename_i subjects hsubjects
  split at h
  · cases h
  rename_i hne
  split at h
  · cases h
  rename_i metricsSubjects hmetricsSubjects
  split at h
  · cases h
  rename_i hmetrics
  split at h
  · cases h
  rename_i htls
  cases h
  refine ⟨fun path hpath => ?_, fun scope hscope => ?_,
    fun scope subject hsubject => ?_, fun hplain => ?_⟩
  · rcases List.mem_append.mp hpath with hprobe | hrest
    · simp only [List.mem_cons, List.not_mem_nil, or_false] at hprobe
      exact hprobe.imp_right .inl
    · split at hrest
      · cases hrest
      · rename_i hoff
        exact .inr (.inr
          ⟨List.mem_singleton.mp hrest, eq_false_of_ne_true hoff⟩)
  · have hclosed := fun hmem => hscope (.inr hmem)
    unfold AuthConfig.allowed
    split
    · rename_i hpath
      have hon : env.flag "FORECASTER_AUTH_METRICS" = true := by
        by_contra hoff
        refine hclosed (List.mem_append_right _ ?_)
        rw [if_neg hoff, hpath]
        exact List.mem_singleton_self _
      dsimp only
      rw [if_pos hon]
      exact fun hnone => hmetrics ⟨hon, hnone⟩
    · exact hne
  · unfold AuthConfig.allowed at hsubject
    split at hsubject
    · dsimp only at hsubject
      split at hsubject
      · exact subjectsOf_eq_ok hmetricsSubjects subject hsubject
      · cases hsubject
    · exact subjectsOf_eq_ok hsubjects subject hsubject
  · have hplain' : ¬env.flag "FORECASTER_AUTH_ALLOW_PLAINTEXT" = true :=
      ne_true_of_eq_false hplain
    obtain ⟨hcert, hkey, hcertFile, hkeyFile⟩ :=
      not_not.mp fun hmissing => htls ⟨hplain', hmissing⟩
    exact ⟨_, _, getD_ne_empty hcert, hcertFile, getD_ne_empty hkey, hkeyFile⟩

section Requests

variable {Digest : Type} [DecidableEq Digest] {config : AuthConfig}
  {r : TokenReviewer Digest}

/-- A request, the cache it found and what became of it. -/
abbrev Serving (Digest : Type) := Entry (Cache Digest) Request Served

/-- The token that a request is reviewed for, if it comes to that. -/
def Request.reviewed (request : Request) (config : AuthConfig) :
    Option String :=
  let scope := request.scope
  if scope.type = "websocket" ∨ config.isOpen scope ∨
      (scope.scheme ≠ "https" ∧ ¬config.allowPlaintext) ∨
        ¬request.admitted then none
  else scope.bearer.toOption

/-- The reviews that were made for these requests. -/
def reviewings (config : AuthConfig) (r : TokenReviewer Digest)
    (past : List (Serving Digest)) : List (Reviewing Digest) :=
  past.filterMap fun e => (e.event.reviewed config).map fun token =>
    entryAt (review r) e.before (e.event.call config token)

/-- What stands behind a request that the application receives on a path that
is not open: its one bearer token is justified by a review, this request's or
an earlier one's, as a subject that is allowed on the path; the application is
told the subject, and receives the whole body at once. -/
structure Authenticated (config : AuthConfig) (r : TokenReviewer Digest)
    (past : List (Serving Digest)) (e : Serving Digest) (scope : Scope)
    (receive : List Message) (token subject : String) : Prop where
  http : e.event.scope.type = "http"
  secure : e.event.scope.scheme = "https" ∨ config.allowPlaintext = true
  bearer : e.event.scope.bearer = .ok token
  justified : Justified r (reviewings config r past)
    (entryAt (review r) e.before (e.event.call config token)) subject
  scope_eq : scope = { e.event.scope with authSubject := some subject }
  body : ∃ chunk chunks rest,
    e.event.messages = bodyMessages (chunk :: chunks) ++ rest ∧
      (chunk :: chunks).flatten.length ≤ maxBody ∧
      receive = .request (chunk :: chunks).flatten false :: rest

/-- A request that is reviewed is answered by the review. -/
theorem serve_of_reviewed {cache : Cache Digest} {request : Request}
    {token : String} (h : request.reviewed config = some token) :
    serve config r cache request =
      ((review r cache (request.call config token)).1,
        match (review r cache (request.call config token)).2 with
        | .error e => refusal e
        | .ok subject => request.deliver subject) := by
  unfold Request.reviewed at h
  dsimp only at h
  split at h
  · cases h
  rename_i hgate
  simp only [not_or] at hgate
  obtain ⟨hsocket, hopen, hsecure, hadmitted⟩ := hgate
  have hbearer : request.scope.bearer = .ok token := by
    cases hbearer : request.scope.bearer with
    | error message =>
        rw [hbearer] at h
        cases h
    | ok text =>
        rw [hbearer] at h
        exact congrArg Except.ok (Option.some.inj h)
  unfold serve
  dsimp only
  rw [if_neg hsocket, if_neg hopen, if_neg hsecure, hbearer]
  dsimp only
  rw [if_neg hadmitted]
  split <;> rename_i hreview <;> rw [hreview]

/-- A request that is not reviewed leaves the cache, and reaches the
application on an open path only, as it is. -/
theorem serve_of_not_reviewed {cache : Cache Digest} {request : Request}
    (h : request.reviewed config = none) :
    (serve config r cache request).1 = cache ∧
      ∀ scope receive,
        (serve config r cache request).2 = .app scope receive →
          config.isOpen request.scope ∧ scope = request.scope ∧
            receive = request.messages := by
  unfold serve
  dsimp only
  split
  · exact ⟨rfl, fun scope receive happ => nomatch happ⟩
  rename_i hsocket
  split
  · rename_i hopen
    refine ⟨rfl, fun scope receive happ => ?_⟩
    cases happ
    exact ⟨hopen, rfl, rfl⟩
  rename_i hopen
  split
  · exact ⟨rfl, fun scope receive happ => nomatch happ⟩
  rename_i hsecure
  split
  · exact ⟨rfl, fun scope receive happ => nomatch happ⟩
  · rename_i token hbearer
    split
    · exact ⟨rfl, fun scope receive happ => nomatch happ⟩
    · rename_i hadmitted
      unfold Request.reviewed at h
      dsimp only at h
      rw [if_neg (by simp only [not_or]; exact
        ⟨hsocket, hopen, hsecure, hadmitted⟩), hbearer] at h
      cases h

theorem refusal_ne_app (e : AuthError) (scope : Scope)
    (receive : List Message) : refusal e ≠ .app scope receive := by
  cases e <;> exact fun h => nomatch h

theorem Request.deliver_eq_app {request : Request} {subject : String}
    {scope : Scope} {receive : List Message}
    (h : request.deliver subject = .app scope receive) :
    scope = { request.scope with authSubject := some subject } ∧
      ∃ chunk chunks rest,
        request.messages = bodyMessages (chunk :: chunks) ++ rest ∧
          (chunk :: chunks).flatten.length ≤ maxBody ∧
          receive = .request (chunk :: chunks).flatten false :: rest := by
  unfold Request.deliver at h
  split at h
  · rename_i body rest hread
    cases h
    obtain ⟨chunk, chunks, hmessages, hbody, hlimit⟩ :=
      readBody_eq_complete.mp hread
    rw [List.nil_append] at hbody
    subst hbody
    exact ⟨rfl, chunk, chunks, rest, hmessages, hlimit, rfl⟩
  · cases h
  · cases h
  · cases h

theorem reviewings_snoc (past : List (Serving Digest)) (cache : Cache Digest)
    (request : Request) :
    reviewings config r (past ++ [entryAt (serve config r) cache request]) =
      reviewings config r past ++ ((request.reviewed config).map fun token =>
        entryAt (review r) cache (request.call config token)).toList := by
  unfold reviewings
  rw [List.filterMap_append]
  refine congrArg (_ ++ ·) ?_
  cases hreviewed : request.reviewed config <;>
    simp only [List.filterMap_cons, List.filterMap_nil, entryAt, hreviewed,
      Option.map_none, Option.map_some, Option.toList]

/-- The cache of the middleware is backed by the reviews it made. -/
theorem CacheBacked.serve {past : List (Serving Digest)}
    {cache : Cache Digest} (h : CacheBacked r (reviewings config r past) cache)
    (request : Request) :
    CacheBacked r
      (reviewings config r
        (past ++ [entryAt (Api.serve config r) cache request]))
      (Api.serve config r cache request).1 := by
  rw [reviewings_snoc]
  cases hreviewed : request.reviewed config with
  | none =>
      rw [(serve_of_not_reviewed hreviewed).1, Option.map_none,
        Option.toList_none, List.append_nil]
      exact h
  | some token =>
      rw [serve_of_reviewed hreviewed]
      exact h.review (request.call config token)

theorem Request.reviewed_eq_some {request : Request} {token : String}
    (h : request.reviewed config = some token) :
    request.scope.type = "http" ∧ ¬config.isOpen request.scope ∧
      (request.scope.scheme = "https" ∨ config.allowPlaintext = true) ∧
      request.scope.bearer = .ok token := by
  unfold Request.reviewed at h
  dsimp only at h
  split at h
  · cases h
  rename_i hgate
  simp only [not_or, not_and, not_not] at hgate
  obtain ⟨-, hopen, hsecure, -⟩ := hgate
  refine ⟨?_, hopen, ?_, ?_⟩
  · by_contra hhttp
    exact hopen (.inl hhttp)
  · by_cases hscheme : request.scope.scheme = "https"
    · exact .inl hscheme
    · exact .inr (hsecure hscheme)
  · cases hbearer : request.scope.bearer with
    | error message =>
        rw [hbearer] at h
        cases h
    | ok text =>
        rw [hbearer] at h
        exact congrArg Except.ok (Option.some.inj h)

/-- Over every sequence of requests, what reaches the application came on an
open path, as it was sent, or is authenticated. -/
theorem application_only_authenticated (config : AuthConfig)
    (hdigest : Function.Injective r.digest) {requests : List Request}
    {past rest : List (Serving Digest)} {e : Serving Digest}
    (htrace : runTrace (serve config r) [] requests = past ++ e :: rest)
    {scope : Scope} {receive : List Message}
    (happ : e.report = .app scope receive) :
    (config.isOpen e.event.scope ∧ scope = e.event.scope ∧
      receive = e.event.messages) ∨
      ∃ token subject,
        Authenticated config r past e scope receive token subject := by
  have hempty : CacheBacked r (reviewings config r []) ([] : Cache Digest) :=
    ⟨fun _ hitem => (nomatch hitem), Nat.zero_le _⟩
  obtain ⟨hcache, hentry⟩ := runTrace_history
    (fun past => CacheBacked r (reviewings config r past))
    (fun past cache request h => h.serve request) hempty htrace
  have hserved : (serve config r e.before e.event).2 = .app scope receive := by
    rw [hentry] at happ
    exact happ
  cases hreviewed : e.event.reviewed config with
  | none =>
      exact .inl ((serve_of_not_reviewed hreviewed).2 scope receive hserved)
  | some token =>
      rw [serve_of_reviewed hreviewed] at hserved
      dsimp only at hserved
      split at hserved
      · exact absurd hserved (refusal_ne_app _ scope receive)
      · rename_i subject hok
        obtain ⟨hscope, hbody⟩ := Request.deliver_eq_app hserved
        obtain ⟨hhttp, -, hsecure, hbearer⟩ :=
          Request.reviewed_eq_some hreviewed
        exact .inr ⟨token, subject, hhttp, hsecure, hbearer,
          hcache.justified hdigest hok, hscope, hbody⟩

/-- From every environment that turns authentication on, and over every
sequence of requests, what reaches the application is a probe, or a metrics
scrape where these are left open, or it is authenticated as one of the
configured service accounts. -/
theorem configured_requests_authenticated {env : Environment}
    {config : AuthConfig} (henv : configFromEnv env = .ok config)
    (hmode : config.mode = .tokenreview)
    (hdigest : Function.Injective r.digest) {requests : List Request}
    {past rest : List (Serving Digest)} {e : Serving Digest}
    (htrace : runTrace (serve config r) [] requests = past ++ e :: rest)
    {scope : Scope} {receive : List Message}
    (happ : e.report = .app scope receive) :
    ((e.event.scope.type ≠ "http" ∨ e.event.scope.path = "/health" ∨
        e.event.scope.path = "/ready" ∨ e.event.scope.path = "/metrics" ∧
          env.flag "FORECASTER_AUTH_METRICS" = false) ∧
      scope = e.event.scope ∧ receive = e.event.messages) ∨
      ∃ token subject,
        Authenticated config r past e scope receive token subject ∧
          subjectPattern.rmatch subject.toList = true := by
  have hguards := configFromEnv_guards henv hmode
  rcases application_only_authenticated config hdigest htrace happ with
    ⟨hopen, hsame⟩ | ⟨token, subject, hauthenticated⟩
  · exact .inl ⟨hopen.imp_right (hguards.open_paths _), hsame⟩
  · exact .inr ⟨token, subject, hauthenticated,
      hguards.accounts e.event.scope subject hauthenticated.justified.allowed⟩

end Requests

namespace MiddlewareWitness

def env : Environment where
  get := fun name =>
    if name = "FORECASTER_AUTH" then some " tokenreview"
    else if name = "FORECASTER_AUTH_SUBJECTS" then
      some "system:serviceaccount:a:b, "
    else if name = "FORECASTER_AUTH_ALLOW_PLAINTEXT" then some "True"
    else none
  isFile := fun _ => false

def config : AuthConfig where
  mode := .tokenreview
  subjects := ["system:serviceaccount:a:b"]
  allowPlaintext := true

def reviewer : TokenReviewer String where
  audience := "predictive-autoscaler-forecaster"
  maxEntries := 1
  digest := id
  claims := fun _ => none
  wallOffset := 0

def answer : Json :=
  .obj [("status", .obj [("authenticated", .bool true),
    ("audiences", .arr [.str "predictive-autoscaler-forecaster"]),
    ("user", .obj [("username", .str "system:serviceaccount:a:b")])])]

/-- A body in two chunks, with the token `t`. -/
def request : Request where
  scope :=
    { type := "http"
      scheme := "http"
      path := "/v2/predict"
      headers := [(ascii "Authorization", ascii "Bearer t")] }
  messages := [.request [1, 2] true, .request [3] false, .disconnect]
  admitted := true
  lookupAt := 0
  cluster := ⟨"host", .ok "own", true, fun _ => .answered 201 (some answer)⟩
  reviewedAt := 1

theorem config_eq : configFromEnv env = .ok config := by
  decide +kernel

def served : Scope :=
  { request.scope with authSubject := some "system:serviceaccount:a:b" }

/-- The application receives the two chunks as one body, and who sent it. -/
theorem chunked_request_authenticated :
    configFromEnv env = .ok config ∧
      (serve config reviewer [] request).2 =
        .app served [.request [1, 2, 3] false, .disconnect] ∧
      ∃ token subject,
        Authenticated config reviewer [] (entryAt (serve config reviewer) []
          request) served [.request [1, 2, 3] false, .disconnect] token
            subject ∧ subjectPattern.rmatch subject.toList = true := by
  have happ : (serve config reviewer [] request).2 =
      .app served [.request [1, 2, 3] false, .disconnect] := by
    decide +kernel
  refine ⟨config_eq, happ, ?_⟩
  have htrace : runTrace (serve config reviewer) [] [request] =
      [] ++ entryAt (serve config reviewer) [] request :: [] := rfl
  rcases configured_requests_authenticated config_eq rfl (fun _ _ h => h)
    htrace happ with
    ⟨-, hscope, -⟩ | hauthenticated
  · have hsubject := congrArg Scope.authSubject hscope
    cases hsubject
  · exact hauthenticated

end MiddlewareWitness

end PredictiveAutoscaler.Api
