/-
The lookup of a v1 forecast.  A cached one of the same binding is returned
while it is young; otherwise the service is asked, and when that fails without
a refusal the cached one stands in for a while longer.
-/
import PredictiveAutoscaler.ReplicaMath

namespace PredictiveAutoscaler

def predictionCacheTTL : ℤ := 5 * minute

def predictionStaleMax : ℤ := 2 * predictionCacheTTL

inductive CacheUse
  | freshResponse
  | cacheHit
  | staleAfterError
deriving DecidableEq, Repr

namespace ForecastLookup

/-- A forecast that a lookup returned, and where it came from. -/
structure Returned (Kept : Type) where
  use : CacheUse
  forecast : Kept
  /-- The instant its age was taken at. -/
  time : ℤ
deriving DecidableEq

/-- One lookup: the result of its API call, if it made one, and what it
returned. -/
structure Lookup (Err Answer Kept : Type) where
  api : Option (Except Err Answer) := none
  returned : Option (Returned Kept) := none
deriving DecidableEq

section

variable {Err Answer Kept Binding : Type} [DecidableEq Binding]
  (Refusal : Err → Prop) [DecidablePred Refusal] (fetchedAt : Kept → ℤ)
  (bindingOf : Kept → Binding) (cache : Option Kept) (binding : Binding)
  (answered : Except Err Answer) (keep : Answer → Kept) (now later : ℤ)

/-- `getCachedPredictionObserved`, over what is kept of an answer and the ways
in which the API call can fail; `now` is before the call and `later` after
it. -/
def getCached : Lookup Err Answer Kept × Option Kept :=
  let cache := cache.filter fun c => bindingOf c = binding
  match cache.filter fun c => now - fetchedAt c < predictionCacheTTL with
  | some c => (⟨none, some ⟨.cacheHit, c, now⟩⟩, some c)
  | none =>
      match answered with
      | .ok r =>
          (⟨some answered, some ⟨.freshResponse, keep r, later⟩⟩,
            some (keep r))
      | .error e =>
          if Refusal e then (⟨some answered, none⟩, none)
          else
            match cache with
            | none => (⟨some answered, none⟩, none)
            | some c =>
                if later - fetchedAt c < predictionStaleMax then
                  (⟨some answered, some ⟨.staleAfterError, c, later⟩⟩, some c)
                else (⟨some answered, none⟩, none)

/-- What a lookup can do. -/
inductive LookedUp : Lookup Err Answer Kept → Option Kept → Prop
  | hit {c : Kept} (hcache : cache = some c) (hbinding : bindingOf c = binding)
      (hage : now - fetchedAt c < predictionCacheTTL) :
      LookedUp ⟨none, some ⟨.cacheHit, c, now⟩⟩ (some c)
  | fresh {r : Answer} (hanswer : answered = .ok r) :
      LookedUp ⟨some (.ok r), some ⟨.freshResponse, keep r, later⟩⟩
        (some (keep r))
  | stale {c : Kept} {err : Err} (hcache : cache = some c)
      (hbinding : bindingOf c = binding) (hfailed : answered = .error err)
      (herr : ¬Refusal err) (hage : later - fetchedAt c < predictionStaleMax) :
      LookedUp ⟨some (.error err), some ⟨.staleAfterError, c, later⟩⟩ (some c)
  | dropped {err : Err} (hfailed : answered = .error err) :
      LookedUp ⟨some (.error err), none⟩ none

theorem getCached_lookedUp :
    LookedUp Refusal fetchedAt bindingOf cache binding answered keep now later
      (getCached Refusal fetchedAt bindingOf cache binding answered keep now
        later).1
      (getCached Refusal fetchedAt bindingOf cache binding answered keep now
        later).2 := by
  unfold getCached
  dsimp only
  split
  · rename_i c hc
    obtain ⟨hc, hage⟩ := Option.filter_eq_some_iff.mp hc
    obtain ⟨hcache, hbinding⟩ := Option.filter_eq_some_iff.mp hc
    exact .hit hcache (of_decide_eq_true hbinding) (of_decide_eq_true hage)
  cases answered with
  | ok r => exact .fresh rfl
  | error err =>
      dsimp only
      split_ifs with hrefusal
      · exact .dropped rfl
      split
      · exact .dropped rfl
      rename_i c hc
      obtain ⟨hcache, hbinding⟩ := Option.filter_eq_some_iff.mp hc
      split_ifs with hage
      · exact .stale hcache (of_decide_eq_true hbinding) rfl hrefusal hage
      · exact .dropped rfl

end

end ForecastLookup

end PredictiveAutoscaler
