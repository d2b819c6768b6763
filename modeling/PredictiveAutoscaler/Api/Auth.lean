/-
Caller authentication.  A bearer token is checked with a TokenReview for the
service's audience; a positive answer is remembered under the token's digest
until the earlier of a minute and the token's own expiry, and nothing else is
remembered.
-/
import Mathlib.Algebra.Order.Ring.Rat
import PredictiveAutoscaler.Forecasting.Contracts
import PredictiveAutoscaler.Json
import PredictiveAutoscaler.OrderedDict
import PredictiveAutoscaler.Run

namespace PredictiveAutoscaler.Api

open Forecasting

/-- The exceptions of a review. -/
inductive AuthError
  | unauthenticated (message : String)
  | forbidden (message : String)
  | authUnavailable (message : String)
  | overflowError (message : String)
deriving DecidableEq, Repr

/-- The token and the audiences of a TokenReview that is posted. -/
structure TokenReview where
  token : String
  audiences : List String
deriving DecidableEq, Repr

/-- What became of the request: a transport failure of a kind, or a status and
a body, read as JSON when it is. -/
inductive Reply
  | failed (kind : String)
  | answered (status : ℤ) (body : Option Json)

/-- What one review finds around it: the host, its own token, its CA and what
the API server makes of a request. -/
structure Cluster where
  host : String
  ownToken : Except String String
  caUsable : Bool
  request : TokenReview → Reply

/-- The strings of a list that holds strings only. -/
def strings? : List Json → Option (List String)
  | [] => some []
  | .str s :: rest => (strings? rest).map (s :: ·)
  | _ :: _ => none

/-- `review.get("status")` of an answer. -/
def answerStatus : Json → Except AuthError (List (String × Json))
  | .obj members =>
      match lastMember "status" members with
      | some (.obj status) => .ok status
      | _ => .error (.authUnavailable "TokenReview answer has no status")
  | _ => .error (.authUnavailable "TokenReview answer has no status")

/-- No error is reported. -/
def answerError (status : List (String × Json)) : Except AuthError Unit :=
  match (lastMember "error" status).getD (.str "") with
  | .str message =>
      if message = "" then .ok ()
      else .error (.authUnavailable "TokenReview reported an error")
  | _ => .error (.authUnavailable "TokenReview error field is malformed")

def answerAuthenticated (status : List (String × Json)) :
    Except AuthError Bool :=
  match (lastMember "authenticated" status).getD (.bool false) with
  | .bool b => .ok b
  | _ =>
      .error (.authUnavailable "TokenReview authenticated field is malformed")

def answerAudiences (status : List (String × Json)) :
    Except AuthError (List String) :=
  match (lastMember "audiences" status).getD (.arr []) with
  | .arr items =>
      match strings? items with
      | some audiences => .ok audiences
      | none =>
          .error (.authUnavailable "TokenReview audiences field is malformed")
  | _ => .error (.authUnavailable "TokenReview audiences field is malformed")

def answerUsername (status : List (String × Json)) :
    Except AuthError String :=
  match lastMember "user" status with
  | some (.obj user) =>
      match lastMember "username" user with
      | some (.str username) =>
          if username = "" then
            .error (.authUnavailable "TokenReview answer has no username")
          else .ok username
      | _ => .error (.authUnavailable "TokenReview answer has no username")
  | _ => .error (.authUnavailable "TokenReview answer has no username")

/-- The user that an answer authenticates for the audience. -/
def judge (audience : String) (answer : Json) : Except AuthError String := do
  let status ← answerStatus answer
  answerError status
  let authenticated ← answerAuthenticated status
  let audiences ← answerAudiences status
  if authenticated then
    if audience ∈ audiences then answerUsername status
    else
      .error (.unauthenticated "the token is not for this service's audience")
  else
    .error (.unauthenticated
      "the token is not authenticated for this service")

/-- `_review_remote`. -/
def reviewRemote (audience : String) (cluster : Cluster) (token : String) :
    Except AuthError String :=
  if cluster.host = "" then
    .error (.authUnavailable
      "not running in a cluster (KUBERNETES_SERVICE_HOST unset)")
  else
    match cluster.ownToken with
    | .error e =>
        .error (.authUnavailable
          s!"own service account token unreadable: {e}")
    | .ok _ =>
        if !cluster.caUsable then
          .error (.authUnavailable "TokenReview CA is unreadable or invalid")
        else
          match cluster.request ⟨token, [audience]⟩ with
          | .failed kind =>
              .error (.authUnavailable s!"TokenReview failed: {kind}")
          | .answered status body =>
              if status ≠ 200 ∧ status ≠ 201 then
                .error (.authUnavailable
                  s!"TokenReview answered HTTP {status}")
              else
                match body with
                | none =>
                    .error (.authUnavailable
                      "TokenReview answer is not JSON")
                | some answer => judge audience answer

/-- The value at a path of names. -/
def valueAt : List String → Json → Option Json
  | [], value => some value
  | k :: path, .obj members => (lastMember k members).bind (valueAt path)
  | _ :: _, _ => none

/-- The answer reports no error and authenticates `username` for the
audience. -/
structure AuthenticatedAs (audience : String) (answer : Json)
    (username : String) : Prop where
  no_error : ∀ error, valueAt ["status", "error"] answer = some error →
    error = .str ""
  authenticated :
    valueAt ["status", "authenticated"] answer = some (.bool true)
  for_audience : ∃ items,
    valueAt ["status", "audiences"] answer = some (.arr items) ∧
      Json.str audience ∈ items
  user : valueAt ["status", "user", "username"] answer = some (.str username)

theorem mem_of_strings? {items : List Json} {texts : List String} {s : String}
    (h : strings? items = some texts) (hs : s ∈ texts) :
    Json.str s ∈ items := by
  induction items generalizing texts with
  | nil =>
      cases h
      cases hs
  | cons item rest ih =>
      cases item with
      | str first =>
          obtain ⟨others, hothers, rfl⟩ := Option.map_eq_some_iff.mp h
          rcases List.mem_cons.mp hs with rfl | hrest
          · exact List.mem_cons_self
          · exact List.mem_cons_of_mem _ (ih hothers hrest)
      | null => cases h
      | bool b => cases h
      | num n => cases h
      | arr inner => cases h
      | obj members => cases h

section Answers

variable {status : List (String × Json)}

theorem answerStatus_eq_ok {answer : Json}
    (h : answerStatus answer = .ok status) :
    ∃ members, answer = .obj members ∧
      lastMember "status" members = some (.obj status) := by
  unfold answerStatus at h
  split at h
  · rename_i members
    split at h
    · rename_i found hfound
      cases h
      exact ⟨members, rfl, hfound⟩
    · cases h
  · cases h

theorem answerError_eq_ok (h : answerError status = .ok ()) (error : Json)
    (herror : lastMember "error" status = some error) : error = .str "" := by
  unfold answerError at h
  rw [herror, Option.getD_some] at h
  split at h
  · split at h
    · rename_i hempty
      rw [hempty]
    · cases h
  · cases h

theorem answerAuthenticated_eq_ok
    (h : answerAuthenticated status = .ok true) :
    lastMember "authenticated" status = some (.bool true) := by
  unfold answerAuthenticated at h
  cases hmember : lastMember "authenticated" status with
  | none =>
      rw [hmember] at h
      cases h
  | some value =>
      rw [hmember, Option.getD_some] at h
      split at h
      · cases h
        rfl
      · cases h

theorem answerAudiences_eq_ok {audiences : List String} {audience : String}
    (h : answerAudiences status = .ok audiences) (hmem : audience ∈ audiences) :
    ∃ items, lastMember "audiences" status = some (.arr items) ∧
      Json.str audience ∈ items := by
  unfold answerAudiences at h
  cases hmember : lastMember "audiences" status with
  | none =>
      rw [hmember] at h
      cases h
      cases hmem
  | some value =>
      rw [hmember, Option.getD_some] at h
      split at h
      · rename_i items
        split at h
        · rename_i texts htexts
          cases h
          exact ⟨items, rfl, mem_of_strings? htexts hmem⟩
        · cases h
      · cases h

theorem answerUsername_eq_ok {username : String}
    (h : answerUsername status = .ok username) :
    ∃ user, lastMember "user" status = some (.obj user) ∧
      lastMember "username" user = some (.str username) := by
  unfold answerUsername at h
  split at h
  · rename_i user huser
    split at h
    · rename_i name hname
      split at h
      · cases h
      · cases h
        exact ⟨user, huser, hname⟩
    · cases h
  · cases h

/-- A user is taken from such an answer only. -/
theorem judge_eq_ok {audience username : String} {answer : Json}
    (h : judge audience answer = .ok username) :
    AuthenticatedAs audience answer username := by
  simp only [judge, Except.bind_eq_ok_iff] at h
  obtain ⟨status, hstatus, _, herror, authenticated, hauth, audiences,
    haudiences, h⟩ := h
  obtain ⟨members, rfl, hmembers⟩ := answerStatus_eq_ok hstatus
  split at h
  · rename_i htrue
    rw [htrue] at hauth
    split at h
    · rename_i hmem
      obtain ⟨items, hitems, hin⟩ := answerAudiences_eq_ok haudiences hmem
      obtain ⟨user, huser, hname⟩ := answerUsername_eq_ok h
      have hpath : ∀ k path, valueAt ("status" :: k :: path) (.obj members) =
          (lastMember k status).bind (valueAt path) := by
        intro k path
        rw [valueAt, hmembers]
        rfl
      refine
        { no_error := fun error he => ?_
          authenticated := ?_
          for_audience := ⟨items, ?_, hin⟩
          user := ?_ }
      · rw [hpath] at he
        obtain ⟨found, hfound, hsame⟩ := Option.bind_eq_some_iff.mp he
        rw [← Option.some.inj hsame]
        exact answerError_eq_ok herror found hfound
      · rw [hpath, answerAuthenticated_eq_ok hauth]
        rfl
      · rw [hpath, hitems]
        rfl
      · rw [hpath, huser]
        change (lastMember "username" user).bind (valueAt []) = _
        rw [hname]
        rfl
    · cases h
  · cases h

end Answers

/-- The API server's reply to a TokenReview of exactly this token for the
audience authenticates `username`. -/
def Confirmed (audience : String) (cluster : Cluster)
    (token username : String) : Prop :=
  ∃ status answer,
    cluster.request ⟨token, [audience]⟩ = .answered status (some answer) ∧
      (status = 200 ∨ status = 201) ∧ AuthenticatedAs audience answer username

theorem reviewRemote_eq_ok {audience token username : String}
    {cluster : Cluster}
    (h : reviewRemote audience cluster token = .ok username) :
    Confirmed audience cluster token username := by
  unfold reviewRemote at h
  split at h
  · cases h
  split at h
  · cases h
  split at h
  · cases h
  split at h
  · cases h
  rename_i status body hreply
  split at h
  · cases h
  rename_i hstatus
  split at h
  · cases h
  rename_i answer
  have hfine : status = 200 ∨ status = 201 := by
    by_cases h200 : status = 200
    · exact .inl h200
    · exact .inr (not_not.mp fun h201 => hstatus ⟨h200, h201⟩)
  exact ⟨status, answer, hreply, hfine, judge_eq_ok h⟩

/-- `CACHE_TTL_S`. -/
def cacheTtl : ℚ := 60

/-- `_jwt_exp` of the claims that a token carries, when they can be read: none
without a usable expiry. An integer beyond the doubles raises. -/
def jwtExp (claims : Option Json) : Except AuthError (Option ℚ) :=
  match claims with
  | some (.obj members) =>
      match lastMember "exp" members with
      | some (.num (.int n)) =>
          if |(n : ℚ)| < floatOverflow then .ok (some (binary64 n))
          else
            .error (.overflowError "int too large to convert to float")
      | some (.num (.decimal q)) => .ok (parseFloat q)
      | _ => .ok none
  | _ => .ok none

/-- A reviewer: its audience, its cache's size, the digest of a token, the
claims that can be read from one and how far the wall clock is ahead of the
monotonic one. -/
structure TokenReviewer (Digest : Type) where
  audience : String
  maxEntries : ℕ
  digest : String → Digest
  claims : String → Option Json
  wallOffset : ℚ

/-- The subject and the monotonic time it expires at. -/
abbrev Cache (Digest : Type) := OrderedDict Digest (String × ℚ)

/-- A call: its arguments, the cluster it finds and the monotonic readings at
its lookup and when its own review is over. -/
structure Call where
  token : String
  allowed : List String
  lookupAt : ℚ
  cluster : Cluster
  reviewedAt : ℚ

section Reviewer

variable {Digest : Type} [DecidableEq Digest] (r : TokenReviewer Digest)

/-- `_cached`: an expired entry is dropped, one that is served becomes the
newest. -/
def cached (cache : Cache Digest) (key : Digest) (now : ℚ) :
    Option String × Cache Digest :=
  match cache.get? key with
  | none => (none, cache)
  | some (username, expires) =>
      if expires ≤ now then (none, cache.del key)
      else (some username, cache.moveToEnd key)

/-- `_remember`. -/
def remember (cache : Cache Digest) (key : Digest) (username token : String)
    (now : ℚ) : Except AuthError (Cache Digest) :=
  match jwtExp (r.claims token) with
  | .error e => .error e
  | .ok none => .ok cache
  | .ok (some exp) =>
      let ttl := min cacheTtl (exp - (now + r.wallOffset))
      if ttl ≤ 0 then .ok cache
      else
        .ok (((cache.set key (username, now + ttl)).moveToEnd key).evict
          r.maxEntries)

/-- `review`: the authenticated subject, if it is allowed. -/
def review (cache : Cache Digest) (call : Call) :
    Cache Digest × Except AuthError String :=
  let key := r.digest call.token
  match cached cache key call.lookupAt with
  | (some username, cache) =>
      if username ∈ call.allowed then (cache, .ok username)
      else
        (cache, .error (.forbidden s!"{username} may not call this endpoint"))
  | (none, cache) =>
      match reviewRemote r.audience call.cluster call.token with
      | .error e => (cache, .error e)
      | .ok username =>
          if username ∈ call.allowed then
            match remember r cache key username call.token call.reviewedAt with
            | .error e => (cache, .error e)
            | .ok cache => (cache, .ok username)
          else
            (cache,
              .error (.forbidden s!"{username} may not call this endpoint"))

variable {r}

theorem cached_fst {cache : Cache Digest} {key : Digest} {now : ℚ}
    {username : String} (h : (cached cache key now).1 = some username) :
    ∃ expires, (key, username, expires) ∈ cache ∧ now < expires := by
  unfold cached at h
  split at h
  · cases h
  · rename_i expires hfound
    split at h
    · cases h
    · rename_i hlater
      cases h
      exact ⟨expires, OrderedDict.mem_of_get? hfound, not_le.mp hlater⟩

theorem mem_of_mem_cached {cache : Cache Digest} {key : Digest} {now : ℚ}
    {item : Digest × String × ℚ} (h : item ∈ (cached cache key now).2) :
    item ∈ cache := by
  unfold cached at h
  split at h
  · exact h
  · split at h
    · exact OrderedDict.mem_of_mem_del h
    · exact OrderedDict.mem_of_mem_moveToEnd h

theorem length_cached_le (cache : Cache Digest) (key : Digest) (now : ℚ) :
    (cached cache key now).2.length ≤ cache.length := by
  unfold cached
  split
  · exact le_rfl
  · split
    · exact List.length_filter_le _ _
    · exact OrderedDict.length_moveToEnd_le cache key

/-- What is remembered: for a minute at most and never past the expiry of the
token. -/
theorem mem_of_mem_remember {cache cache' : Cache Digest} {key : Digest}
    {username token : String} {now : ℚ} {item : Digest × String × ℚ}
    (h : remember r cache key username token now = .ok cache')
    (hitem : item ∈ cache') :
    item ∈ cache ∨ ∃ exp, jwtExp (r.claims token) = .ok (some exp) ∧
      item = (key, username,
        now + min cacheTtl (exp - (now + r.wallOffset))) := by
  unfold remember at h
  split at h
  · cases h
  · cases h
    exact .inl hitem
  · rename_i exp hexp
    dsimp only at h
    split at h
    · cases h
      exact .inl hitem
    · cases h
      have hset := OrderedDict.mem_of_mem_moveToEnd
        (OrderedDict.mem_of_mem_evict hitem)
      rcases OrderedDict.mem_of_mem_set hset with hold | hnew
      · exact .inl hold
      · exact .inr ⟨exp, hexp, hnew⟩

theorem length_remember_le {cache cache' : Cache Digest} {key : Digest}
    {username token : String} {now : ℚ}
    (h : remember r cache key username token now = .ok cache')
    (hlength : cache.length ≤ r.maxEntries) :
    cache'.length ≤ r.maxEntries := by
  unfold remember at h
  split at h
  · cases h
  · cases h
    exact hlength
  · dsimp only at h
    split at h
    · cases h
      exact hlength
    · cases h
      exact OrderedDict.length_evict r.maxEntries _

/-- A call that finds nothing in the cache and whose own review confirms
`username`, which is among the allowed. -/
structure Reviewed (r : TokenReviewer Digest) (cache : Cache Digest)
    (call : Call) (username : String) : Prop where
  missed : (cached cache (r.digest call.token) call.lookupAt).1 = none
  confirmed : Confirmed r.audience call.cluster call.token username
  allowed : username ∈ call.allowed

/-- A subject is returned from the cache or by the call's own review. -/
theorem review_eq_ok {cache : Cache Digest} {call : Call} {username : String}
    (h : (review r cache call).2 = .ok username) :
    username ∈ call.allowed ∧
      ((∃ expires, (r.digest call.token, username, expires) ∈ cache ∧
        call.lookupAt < expires) ∨ Reviewed r cache call username) := by
  unfold review at h
  dsimp only at h
  split at h
  · rename_i found after hcached
    split at h
    · rename_i hallowed
      cases h
      refine ⟨hallowed, .inl (cached_fst ?_)⟩
      rw [hcached]
    · cases h
  · rename_i after hcached
    split at h
    · cases h
    · rename_i found hremote
      split at h
      · rename_i hallowed
        split at h
        · cases h
        · cases h
          refine ⟨hallowed, .inr ⟨?_, reviewRemote_eq_ok hremote, hallowed⟩⟩
          rw [hcached]
      · cases h

/-- Only the subject that a call itself reviewed and returns is added to the
cache. -/
theorem mem_of_mem_review {cache : Cache Digest} {call : Call}
    {item : Digest × String × ℚ} (h : item ∈ (review r cache call).1) :
    item ∈ cache ∨ ∃ username exp, Reviewed r cache call username ∧
      (review r cache call).2 = .ok username ∧
      jwtExp (r.claims call.token) = .ok (some exp) ∧
      item = (r.digest call.token, username, call.reviewedAt +
        min cacheTtl (exp - (call.reviewedAt + r.wallOffset))) := by
  have hkept : ∀ {item}, item ∈
      (cached cache (r.digest call.token) call.lookupAt).2 → item ∈ cache :=
    fun hitem => mem_of_mem_cached hitem
  unfold review at h ⊢
  dsimp only at h ⊢
  split at h
  · rename_i found after hcached
    rw [hcached] at hkept
    split at h
    · exact .inl (hkept h)
    · exact .inl (hkept h)
  · rename_i after hcached
    rw [hcached] at hkept
    split at h
    · exact .inl (hkept h)
    · rename_i username hremote
      split at h
      · rename_i hallowed
        split at h
        · exact .inl (hkept h)
        · rename_i cache' hremember
          rcases mem_of_mem_remember hremember h with hold | ⟨exp, hexp, hnew⟩
          · exact .inl (hkept hold)
          · refine .inr ⟨username, exp, ⟨?_, reviewRemote_eq_ok hremote,
              hallowed⟩, ?_, hexp, hnew⟩
            · rw [hcached]
            · rw [if_pos hallowed]
      · exact .inl (hkept h)

theorem length_review_le {cache : Cache Digest} (call : Call)
    (h : cache.length ≤ r.maxEntries) :
    (review r cache call).1.length ≤ r.maxEntries := by
  have hcache := (length_cached_le cache (r.digest call.token)
    call.lookupAt).trans h
  unfold review
  dsimp only
  split
  · rename_i found after hcached
    rw [hcached] at hcache
    split
    · exact hcache
    · exact hcache
  · rename_i after hcached
    rw [hcached] at hcache
    split
    · exact hcache
    · split
      · split
        · exact hcache
        · rename_i hremember
          exact length_remember_le hremember hcache
      · exact hcache

/-- A call, the cache it found and what it returned. -/
abbrev Reviewing (Digest : Type) :=
  Entry (Cache Digest) Call (Except AuthError String)

/-- An item of the cache stems from one of these calls. -/
def Backed (r : TokenReviewer Digest) (past : List (Reviewing Digest))
    (item : Digest × String × ℚ) : Prop :=
  ∃ old ∈ past, item.1 = r.digest old.event.token ∧
    Reviewed r old.before old.event item.2.1 ∧
    ∃ exp, jwtExp (r.claims old.event.token) = .ok (some exp) ∧
      item.2.2 = old.event.reviewedAt +
        min cacheTtl (exp - (old.event.reviewedAt + r.wallOffset))

theorem Backed.snoc {past : List (Reviewing Digest)}
    {item : Digest × String × ℚ} (h : Backed r past item)
    (e : Reviewing Digest) : Backed r (past ++ [e]) item := by
  obtain ⟨old, hold, hitem⟩ := h
  exact ⟨old, List.mem_append_left _ hold, hitem⟩

/-- Every item of the cache stems from an earlier call, and there are not too
many of them. -/
structure CacheBacked (r : TokenReviewer Digest)
    (past : List (Reviewing Digest)) (cache : Cache Digest) : Prop where
  backed : ∀ item ∈ cache, Backed r past item
  bounded : cache.length ≤ r.maxEntries

theorem CacheBacked.review {past : List (Reviewing Digest)}
    {cache : Cache Digest} (h : CacheBacked r past cache) (call : Call) :
    CacheBacked r (past ++ [entryAt (review r) cache call])
      (review r cache call).1 := by
  refine ⟨fun item hitem => ?_, length_review_le call h.bounded⟩
  rcases mem_of_mem_review hitem with
    hold | ⟨username, exp, hreviewed, -, hexp, rfl⟩
  · exact (h.backed item hold).snoc _
  · exact ⟨_, List.mem_append_right _ (List.mem_singleton_self _), rfl,
      hreviewed, exp, hexp, rfl⟩

/-- What the subject that a call returns rests on: it is allowed there, and a
review of the same token confirmed it, in the call itself or in an earlier one
that was over less than `cacheTtl` before, the token not being expired. -/
structure Justified (r : TokenReviewer Digest)
    (past : List (Reviewing Digest)) (e : Reviewing Digest)
    (username : String) : Prop where
  allowed : username ∈ e.event.allowed
  confirmed : Reviewed r e.before e.event username ∨
    ∃ old ∈ past, old.event.token = e.event.token ∧
      Reviewed r old.before old.event username ∧
      e.event.lookupAt < old.event.reviewedAt + cacheTtl ∧
      ∃ exp, jwtExp (r.claims e.event.token) = .ok (some exp) ∧
        e.event.lookupAt + r.wallOffset < exp

theorem CacheBacked.justified {past : List (Reviewing Digest)}
    {cache : Cache Digest} (h : CacheBacked r past cache)
    (hdigest : Function.Injective r.digest) {call : Call} {username : String}
    (hok : (Api.review r cache call).2 = .ok username) :
    Justified r past (entryAt (Api.review r) cache call) username := by
  obtain ⟨hallowed, hrest⟩ := review_eq_ok hok
  refine ⟨hallowed, ?_⟩
  rcases hrest with ⟨expires, hitem, hlater⟩ | hreviewed
  · obtain ⟨old, hold, hkey, hreviewed, exp, hexp, hexpires⟩ :=
      h.backed _ hitem
    have htoken : old.event.token = call.token := (hdigest hkey).symm
    dsimp only at hexpires
    rw [hexpires] at hlater
    have hminute := min_le_left cacheTtl
      (exp - (old.event.reviewedAt + r.wallOffset))
    have hexpiry := min_le_right cacheTtl
      (exp - (old.event.reviewedAt + r.wallOffset))
    refine .inr ⟨old, hold, htoken, hreviewed, ?_, exp, ?_, ?_⟩
    · change call.lookupAt < _
      linarith
    · change jwtExp (r.claims call.token) = _
      rw [← htoken]
      exact hexp
    · change call.lookupAt + r.wallOffset < _
      linarith
  · exact .inl hreviewed

/-- Over every sequence of calls the cache never widens authentication: a
subject is returned for a review of that very token only, nothing but the
subject a call returns is ever remembered, and never more than `maxEntries`. -/
theorem review_never_widens (hdigest : Function.Injective r.digest)
    {calls : List Call} {past rest : List (Reviewing Digest)}
    {e : Reviewing Digest}
    (htrace : runTrace (review r) [] calls = past ++ e :: rest) :
    (∀ username, e.report = .ok username → Justified r past e username) ∧
      (∀ item ∈ (review r e.before e.event).1, item ∈ e.before ∨
        item.1 = r.digest e.event.token ∧ e.report = .ok item.2.1 ∧
          Reviewed r e.before e.event item.2.1) ∧
      (review r e.before e.event).1.length ≤ r.maxEntries := by
  have hempty : CacheBacked r [] ([] : Cache Digest) :=
    ⟨fun _ hitem => (nomatch hitem), Nat.zero_le _⟩
  obtain ⟨hcache, hentry⟩ := runTrace_history (CacheBacked r)
    (fun past cache call h => h.review call) hempty htrace
  have hreport : e.report = (review r e.before e.event).2 := by
    rw [hentry]
    rfl
  refine ⟨fun username hok => ?_, fun item hitem => ?_,
    length_review_le e.event hcache.bounded⟩
  · rw [hreport] at hok
    rw [hentry]
    exact hcache.justified hdigest hok
  · rw [hreport]
    rcases mem_of_mem_review hitem with
      hold | ⟨username, exp, hreviewed, hok, -, rfl⟩
    · exact .inl hold
    · exact .inr ⟨rfl, hok, hreviewed⟩

end Reviewer

namespace AuthWitness

/-- Every token carries one expiry; the digest is the token itself. -/
def reviewer : TokenReviewer String where
  audience := "forecaster"
  maxEntries := 1
  digest := id
  claims := fun _ => some (.obj [("exp", .num (.int 1000))])
  wallOffset := 0

def answer : Json :=
  .obj [("status", .obj [("authenticated", .bool true),
    ("audiences", .arr [.str "forecaster"]),
    ("user", .obj [("username", .str "operator")])])]

def call (lookupAt : ℚ) (request : TokenReview → Reply) : Call :=
  ⟨"t", ["operator"], lookupAt, ⟨"host", .ok "own", true, request⟩,
    lookupAt + 1⟩

/-- Ten seconds after the review the API server is away. -/
def calls : List Call :=
  [call 0 fun _ => .answered 201 (some answer),
    call 11 fun _ => .failed "TransportFailure"]

/-- The second call is served from the cache, for the first one's review. -/
theorem served_in_outage : ∃ past e,
    runTrace (review reviewer) [] calls = past ++ [e] ∧
      e.report = .ok "operator" ∧ Justified reviewer past e "operator" := by
  have hok : (review reviewer (review reviewer []
      (call 0 fun _ => .answered 201 (some answer))).1
      (call 11 fun _ => .failed "TransportFailure")).2 = .ok "operator" := by
    decide +kernel
  have htrace : runTrace (review reviewer) [] calls =
      [entryAt (review reviewer) [] (call 0 fun _ =>
        .answered 201 (some answer))] ++ entryAt (review reviewer) (review
          reviewer [] (call 0 fun _ => .answered 201 (some answer))).1
            (call 11 fun _ => .failed "TransportFailure") :: [] := rfl
  have hkept := review_never_widens (fun _ _ h => h) htrace
  exact ⟨_, _, rfl, hok, hkept.1 "operator" hok⟩

end AuthWitness

end PredictiveAutoscaler.Api
