/-
The accuracy of served forecasts.  A forecast waits in a bounded queue until an
observation at or after its target is there, and is scored with it if the
observation is fresh; the errors are those of the newest scores.  The sums of
errors and of traffic are exact; their percentage is a double, and what is
reported is rounded to decimals.
-/
import Mathlib.Algebra.Order.BigOperators.Group.List
import Mathlib.Algebra.Order.Field.Rat
import Mathlib.Data.List.DropRight
import Mathlib.Data.List.Perm.Subperm
import Mathlib.Tactic.Linarith
import Mathlib.Tactic.NormNum
import PredictiveAutoscaler.Binary64
import PredictiveAutoscaler.NewestKept
import PredictiveAutoscaler.Run

namespace PredictiveAutoscaler.Api

/-- `WINDOW_SIZE`, and the length of a queue of waiting forecasts. -/
def windowSize : ℕ := 144

def pendingSize : ℕ := 512

/-- `MIN_TRAFFIC_RPM` -/
def minTrafficRpm : ℚ := 1000

/-- `deque(maxlen=n).append` -/
def appendBounded {α : Type} (n : ℕ) (xs : List α) (x : α) : List α :=
  (xs ++ [x]).rtake n

/-- `AccuracyTracker`: the scored pairs of predicted and actual values and the
forecasts that wait for their target times, by application, namespace, metric
and component. -/
structure AccuracyTracker (Key : Type) where
  history : Key → List (ℚ × ℚ) := fun _ => []
  pending : Key → List (ℚ × ℚ) := fun _ => []

/-- `round(q, digits)` -/
def roundDecimals (digits : ℕ) (q : ℚ) : ℚ :=
  roundHalfEven (q * 10 ^ digits) / 10 ^ digits

/-- The dictionary of `mape_stats`. -/
structure ErrorStats where
  value : Option ℚ
  scored : ℕ
  recorded : ℕ
  availability : Option ℚ
  measured : Bool
deriving DecidableEq, Repr

/-- The entries that are scored: what is below the traffic floor is only
recorded. -/
def scoredEntries (entries : List (ℚ × ℚ)) : List (ℚ × ℚ) :=
  entries.filter fun entry => decide (minTrafficRpm ≤ entry.2)

/-- The errors over the traffic. -/
def weightedError (valid : List (ℚ × ℚ)) : ℚ :=
  (valid.map fun entry => |entry.2 - entry.1|).sum /
    (valid.map Prod.snd).sum

/-- A ratio in percent, as two operations on doubles give it. -/
def percent (ratio : ℚ) : ℚ :=
  binary64 (binary64 ratio * 100)

/-- `mape_stats` of a window. -/
def mapeStats (entries : List (ℚ × ℚ)) : ErrorStats :=
  let valid := scoredEntries entries
  let out : ErrorStats :=
    { value := none
      scored := valid.length
      recorded := entries.length
      availability :=
        if entries.length = 0 then none
        else some (roundDecimals 4 (valid.length / entries.length))
      measured := false }
  if valid.length < 1 ∨ (valid.map Prod.snd).sum < 1 / 100 then out
  else
    { out with
      value := some (roundDecimals 2 (percent (weightedError valid)))
      measured := true }

section Tracker

variable {Key : Type} [DecidableEq Key] (tracker : AccuracyTracker Key)

/-- The value of a forecast that is due by an observation fresh for it. -/
def dueValue (observationAt toleranceS : ℚ) (entry : ℚ × ℚ) : Option ℚ :=
  if 0 ≤ observationAt - entry.1 ∧ observationAt - entry.1 ≤ toleranceS then
    some entry.2
  else none

namespace AccuracyTracker

/-- `record` and `record_component`. -/
def record (key : Key) (predicted actual : ℚ) : AccuracyTracker Key :=
  { tracker with
    history := Function.update tracker.history key
      (appendBounded windowSize (tracker.history key) (predicted, actual)) }

/-- `store_forecast` -/
def storeForecast (key : Key) (targetAt predicted : ℚ) : AccuracyTracker Key :=
  { tracker with
    pending := Function.update tracker.pending key
      (appendBounded pendingSize (tracker.pending key)
        (targetAt, predicted)) }

/-- `take_matured`: what is due by an observation that is fresh for it; what
is not due stays, the rest is dropped. -/
def takeMatured (key : Key) (observationAt toleranceS : ℚ) :
    List ℚ × AccuracyTracker Key :=
  ((tracker.pending key).filterMap (dueValue observationAt toleranceS),
    { tracker with
      pending := Function.update tracker.pending key
        ((tracker.pending key).filter fun entry =>
          decide (observationAt - entry.1 < 0)) })

end AccuracyTracker

/-- What the handlers do with the tracker. -/
inductive TrackerEvent (Key : Type)
  /-- A forecast is queued. -/
  | store (key : Key) (targetAt predicted : ℚ)
  /-- The newest observation, and what has matured by it. -/
  | observe (key : Key) (observationAt actual : ℚ)

/-- The tolerance that the handlers leave at its default. -/
def toleranceS : ℚ := 300

/-- One event, and the pairs that it scores. -/
def AccuracyTracker.step :
    TrackerEvent Key → AccuracyTracker Key × List (ℚ × ℚ)
  | .store key targetAt predicted =>
      (tracker.storeForecast key targetAt predicted, [])
  | .observe key observationAt actual =>
      let (matured, tracker) :=
        tracker.takeMatured key observationAt toleranceS
      (matured.foldl (fun tracker predicted =>
          tracker.record key predicted actual) tracker,
        matured.map fun predicted => (predicted, actual))

def TrackerEvent.key : TrackerEvent Key → Key
  | store key _ _ => key
  | observe key _ _ => key

/-- The observation of a key that comes at or after a target. -/
def TrackerEvent.reaches (key : Key) (targetAt : ℚ) :
    TrackerEvent Key → Option (ℚ × ℚ)
  | .observe key' observationAt actual =>
      if key' = key ∧ targetAt ≤ observationAt then
        some (observationAt, actual)
      else none
  | .store _ _ _ => none

/-- The score of a forecast: its first observation at or after the target, if
that is fresh. -/
def scoreOf (key : Key) (events : List (TrackerEvent Key))
    (forecast : ℚ × ℚ) : Option (ℚ × ℚ) :=
  match events.findSome? (TrackerEvent.reaches key forecast.1) with
  | some (observationAt, actual) =>
      if observationAt - forecast.1 ≤ toleranceS then
        some (forecast.2, actual)
      else none
  | none => none

/-- The scores of every forecast that the events store, by what follows it. -/
def scoresOf (key : Key) : List (TrackerEvent Key) → List (ℚ × ℚ)
  | [] => []
  | .store key' targetAt predicted :: rest =>
      (if key' = key then (scoreOf key rest (targetAt, predicted)).toList
        else []) ++ scoresOf key rest
  | .observe _ _ _ :: rest => scoresOf key rest

end Tracker

section Bounded

variable {α : Type} {n : ℕ}

theorem appendBounded_sublist (xs : List α) (x : α) :
    (appendBounded n xs x).Sublist (xs ++ [x]) :=
  List.drop_sublist _ _

theorem appendBounded_of_lt {xs : List α} (h : xs.length < n) (x : α) :
    appendBounded n xs x = xs ++ [x] :=
  NewestKept.rtake_of_length_le (by
    rw [List.length_append, List.length_singleton]
    exact h)

/-- What is dropped early would be dropped later. -/
theorem rtake_append_rtake (xs ys : List α) :
    (xs.rtake n ++ ys).rtake n = (xs ++ ys).rtake n := by
  simp only [List.rtake_eq_reverse_take_reverse, List.reverse_append,
    List.reverse_reverse, List.take_append, List.take_take]
  rw [Nat.min_eq_left (Nat.sub_le n ys.reverse.length)]

/-- Appending one after the other keeps the newest. -/
theorem foldl_appendBounded (xs ys : List α) :
    ys.foldl (appendBounded n) (xs.rtake n) = (xs ++ ys).rtake n := by
  induction ys generalizing xs with
  | nil => rw [List.foldl_nil, List.append_nil]
  | cons y ys ih =>
      have happend : appendBounded n (xs.rtake n) y = (xs ++ [y]).rtake n :=
        rtake_append_rtake xs [y]
      rw [List.foldl_cons, happend, ih, List.append_assoc,
        List.singleton_append]

end Bounded

section Events

variable {Key : Type} [DecidableEq Key] {tracker : AccuracyTracker Key}
  {key : Key}

theorem foldl_record_pending (key' : Key) (actual : ℚ) (matured : List ℚ) :
    (matured.foldl (fun tracker predicted =>
      tracker.record key' predicted actual) tracker).pending =
        tracker.pending := by
  induction matured generalizing tracker with
  | nil => rfl
  | cons predicted rest ih => exact ih

theorem foldl_record_history (key' : Key) (actual : ℚ) (matured : List ℚ) :
    (matured.foldl (fun tracker predicted =>
      tracker.record key' predicted actual) tracker).history key =
        if key' = key then
          (matured.map fun predicted => (predicted, actual)).foldl
            (appendBounded windowSize) (tracker.history key)
        else tracker.history key := by
  induction matured generalizing tracker with
  | nil => simp only [List.foldl_nil, List.map_nil, ite_self]
  | cons predicted rest ih =>
      rw [List.foldl_cons, ih, List.map_cons, List.foldl_cons]
      by_cases hkey : key' = key
      · subst hkey
        simp only [if_true, AccuracyTracker.record, Function.update_self]
      · simp only [if_neg hkey, AccuracyTracker.record,
          Function.update_of_ne (Ne.symm hkey)]

theorem history_step (event : TrackerEvent Key) :
    (tracker.step event).1.history key =
      if event.key = key then
        (tracker.step event).2.foldl (appendBounded windowSize)
          (tracker.history key)
      else tracker.history key := by
  cases event with
  | store key' targetAt predicted =>
      simp only [AccuracyTracker.step, AccuracyTracker.storeForecast,
        List.foldl_nil, ite_self]
  | observe key' observationAt actual =>
      exact foldl_record_history key' actual _

theorem pending_store (key' : Key) (targetAt predicted : ℚ) :
    (tracker.step (.store key' targetAt predicted)).1.pending key =
      if key' = key then
        appendBounded pendingSize (tracker.pending key) (targetAt, predicted)
      else tracker.pending key := by
  by_cases hkey : key' = key
  · subst hkey
    simp only [AccuracyTracker.step, AccuracyTracker.storeForecast,
      Function.update_self, if_true]
  · simp only [AccuracyTracker.step, AccuracyTracker.storeForecast,
      Function.update_of_ne (Ne.symm hkey), if_neg hkey]

theorem pending_observe (key' : Key) (observationAt actual : ℚ) :
    (tracker.step (.observe key' observationAt actual)).1.pending key =
      if key' = key then
        (tracker.pending key).filter fun entry =>
          decide (observationAt - entry.1 < 0)
      else tracker.pending key := by
  simp only [AccuracyTracker.step, foldl_record_pending,
    AccuracyTracker.takeMatured]
  by_cases hkey : key' = key
  · subst hkey
    rw [Function.update_self, if_pos rfl]
  · rw [Function.update_of_ne (Ne.symm hkey), if_neg hkey]

theorem report_observe (key' : Key) (observationAt actual : ℚ) :
    (tracker.step (.observe key' observationAt actual)).2 =
      ((tracker.pending key').filterMap
        (dueValue observationAt toleranceS)).map fun predicted =>
          (predicted, actual) :=
  rfl

end Events

section Runs

variable {Key : Type} [DecidableEq Key] {key : Key}

theorem scoreOf_store (key' : Key) (targetAt predicted : ℚ)
    (rest : List (TrackerEvent Key)) :
    scoreOf key (.store key' targetAt predicted :: rest) =
      scoreOf key rest := rfl

theorem scoreOf_observe_of_ne {key' : Key} (hkey : key' ≠ key)
    (observationAt actual : ℚ) (rest : List (TrackerEvent Key)) :
    scoreOf key (.observe key' observationAt actual :: rest) =
      scoreOf key rest := by
  funext forecast
  simp only [scoreOf, List.findSome?_cons, TrackerEvent.reaches, hkey,
    false_and, if_false]

/-- An observation scores the forecasts that are due and fresh, and leaves
those that are not due to what follows. -/
theorem filterMap_scoreOf_observe (key : Key) (observationAt actual : ℚ)
    (rest : List (TrackerEvent Key)) (waiting : List (ℚ × ℚ)) :
    (((waiting.filterMap (dueValue observationAt toleranceS)).map
        fun predicted => (predicted, actual)) ++
      (waiting.filter fun entry =>
        decide (observationAt - entry.1 < 0)).filterMap
          (scoreOf key rest)).Perm
      (waiting.filterMap
        (scoreOf key (.observe key observationAt actual :: rest))) := by
  induction waiting with
  | nil => exact List.Perm.nil
  | cons entry waiting ih =>
      have hvalue : dueValue observationAt toleranceS entry =
          if 0 ≤ observationAt - entry.1 ∧
              observationAt - entry.1 ≤ toleranceS then some entry.2
          else none := rfl
      by_cases hdue : 0 ≤ observationAt - entry.1
      · have hreach : entry.1 ≤ observationAt := sub_nonneg.mp hdue
        by_cases hfresh : observationAt - entry.1 ≤ toleranceS
        · have hscore : scoreOf key
              (.observe key observationAt actual :: rest) entry =
                some (entry.2, actual) := by
            simp only [scoreOf, List.findSome?_cons, TrackerEvent.reaches,
              true_and, if_pos hreach, if_pos hfresh]
          rw [List.filterMap_cons_some (hvalue.trans (if_pos ⟨hdue, hfresh⟩)),
            List.filter_cons_of_neg (by simpa using hdue),
            List.filterMap_cons_some hscore]
          exact ih.cons _
        · have hscore : scoreOf key
              (.observe key observationAt actual :: rest) entry = none := by
            simp only [scoreOf, List.findSome?_cons, TrackerEvent.reaches,
              true_and, if_pos hreach, if_neg hfresh]
          rw [List.filterMap_cons_none
              (hvalue.trans (if_neg fun h => hfresh h.2)),
            List.filter_cons_of_neg (by simpa using hdue),
            List.filterMap_cons_none hscore]
          exact ih
      · have hreach : ¬entry.1 ≤ observationAt := fun h =>
          hdue (sub_nonneg.mpr h)
        have hscore : scoreOf key
            (.observe key observationAt actual :: rest) entry =
              scoreOf key rest entry := by
          simp only [scoreOf, List.findSome?_cons, TrackerEvent.reaches,
            true_and, if_neg hreach]
        rw [List.filterMap_cons_none (hvalue.trans (if_neg fun h => hdue h.1)),
          List.filter_cons_of_pos (by simpa using hdue)]
        cases hrest : scoreOf key rest entry with
        | none =>
            rw [List.filterMap_cons_none hrest,
              List.filterMap_cons_none (hscore.trans hrest)]
            exact ih
        | some score =>
            rw [List.filterMap_cons_some hrest,
              List.filterMap_cons_some (hscore.trans hrest)]
            exact List.perm_middle.trans (ih.cons score)

/-- The pairs that a run records for a key. -/
def recorded (key : Key) (trace : List (Entry (AccuracyTracker Key)
    (TrackerEvent Key) (List (ℚ × ℚ)))) : List (ℚ × ℚ) :=
  trace.flatMap fun e => if e.event.key = key then e.report else []

/-- No forecast of the key finds the queue full. -/
def RoomFor (key : Key) (trace : List (Entry (AccuracyTracker Key)
    (TrackerEvent Key) (List (ℚ × ℚ)))) : Prop :=
  ∀ e ∈ trace, ∀ targetAt predicted, e.event = .store key targetAt predicted →
    (e.before.pending key).length < pendingSize

theorem recorded_cons (event : TrackerEvent Key)
    (tracker : AccuracyTracker Key) (rest : List (TrackerEvent Key)) :
    recorded key (runTrace AccuracyTracker.step tracker (event :: rest)) =
      (if event.key = key then (tracker.step event).2 else []) ++
        recorded key
          (runTrace AccuracyTracker.step (tracker.step event).1 rest) :=
  rfl

/-- What is waiting before a forecast is stored, and the forecast. -/
theorem filterMap_scoreOf_store (targetAt predicted : ℚ)
    (rest : List (TrackerEvent Key)) (waiting : List (ℚ × ℚ)) :
    (waiting ++ [(targetAt, predicted)]).filterMap (scoreOf key rest) ++
        scoresOf key rest =
      waiting.filterMap
          (scoreOf key (.store key targetAt predicted :: rest)) ++
        scoresOf key (.store key targetAt predicted :: rest) := by
  rw [scoreOf_store, List.filterMap_append, List.append_assoc]
  refine congrArg (waiting.filterMap (scoreOf key rest) ++ ·) ?_
  rw [scoresOf, if_pos rfl]
  refine congrArg (· ++ scoresOf key rest) ?_
  cases hscore : scoreOf key rest (targetAt, predicted) with
  | none => exact List.filterMap_cons_none hscore
  | some score => exact List.filterMap_cons_some hscore

/-- A run records the scores of what waits and of what it stores, each at most
once, and all of them where no queue was full. -/
theorem recorded_runTrace (tracker : AccuracyTracker Key)
    (events : List (TrackerEvent Key)) :
    (recorded key (runTrace AccuracyTracker.step tracker events)).Subperm
        ((tracker.pending key).filterMap (scoreOf key events) ++
          scoresOf key events) ∧
      (RoomFor key (runTrace AccuracyTracker.step tracker events) →
        (recorded key (runTrace AccuracyTracker.step tracker events)).Perm
          ((tracker.pending key).filterMap (scoreOf key events) ++
            scoresOf key events)) := by
  induction events generalizing tracker with
  | nil =>
      have hnone : (tracker.pending key).filterMap
          (scoreOf key ([] : List (TrackerEvent Key))) = [] :=
        List.filterMap_eq_nil_iff.mpr fun _ _ => rfl
      rw [hnone]
      exact ⟨List.nil_subperm, fun _ => List.Perm.nil⟩
  | cons event rest ih =>
      obtain ⟨hsub, hperm⟩ := ih (tracker.step event).1
      rw [recorded_cons]
      have hroom : RoomFor key
          (runTrace AccuracyTracker.step tracker (event :: rest)) →
            RoomFor key
              (runTrace AccuracyTracker.step (tracker.step event).1 rest) :=
        fun h e he => h e (List.mem_cons_of_mem _ he)
      cases event with
      | store key' targetAt predicted =>
          have hreport : (tracker.step (.store key' targetAt predicted)).2 =
              [] := rfl
          rw [hreport, ite_self, List.nil_append]
          rw [pending_store] at hsub hperm
          by_cases hkey : key' = key
          · subst hkey
            rw [if_pos rfl] at hsub hperm
            rw [← filterMap_scoreOf_store]
            refine ⟨hsub.trans (List.Sublist.subperm ?_), fun h => ?_⟩
            · exact ((appendBounded_sublist _ _).filterMap _).append_right _
            · have hlt : (tracker.pending key').length < pendingSize :=
                h _ List.mem_cons_self targetAt predicted rfl
              rw [← appendBounded_of_lt hlt]
              exact hperm (hroom h)
          · rw [if_neg hkey] at hsub hperm
            rw [scoreOf_store, scoresOf, if_neg hkey, List.nil_append]
            exact ⟨hsub, fun h => hperm (hroom h)⟩
      | observe key' observationAt actual =>
          rw [pending_observe] at hsub hperm
          rw [scoresOf]
          by_cases hkey : key' = key
          · subst hkey
            rw [if_pos rfl] at hsub hperm
            have hscores := (filterMap_scoreOf_observe key'
              observationAt actual rest (tracker.pending key')).append_right
                (scoresOf key' rest)
            rw [List.append_assoc] at hscores
            rw [show TrackerEvent.key (.observe key' observationAt actual) =
              key' from rfl, if_pos rfl, report_observe]
            exact ⟨((List.subperm_append_left _).mpr hsub).trans
                hscores.subperm,
              fun h => ((hperm (hroom h)).append_left _).trans hscores⟩
          · rw [if_neg hkey] at hsub hperm
            rw [scoreOf_observe_of_ne hkey,
              show TrackerEvent.key (.observe key' observationAt actual) = key'
                from rfl, if_neg hkey, List.nil_append]
            exact ⟨hsub, fun h => hperm (hroom h)⟩

/-- The tracker after a run. -/
def AccuracyTracker.after (tracker : AccuracyTracker Key)
    (events : List (TrackerEvent Key)) : AccuracyTracker Key :=
  events.foldl (fun tracker event => (tracker.step event).1) tracker

theorem history_after (tracker : AccuracyTracker Key)
    (events : List (TrackerEvent Key)) {xs : List (ℚ × ℚ)}
    (h : tracker.history key = xs.rtake windowSize) :
    (tracker.after events).history key =
      (xs ++ recorded key (runTrace AccuracyTracker.step tracker events)).rtake
        windowSize := by
  induction events generalizing tracker xs with
  | nil => rw [runTrace, recorded, List.flatMap_nil, List.append_nil, ← h]; rfl
  | cons event rest ih =>
      have hstep : (tracker.step event).1.history key =
          (xs ++ if event.key = key then (tracker.step event).2
            else []).rtake windowSize := by
        rw [history_step, h]
        split
        · exact foldl_appendBounded xs _
        · rw [List.append_nil]
      rw [recorded_cons, ← List.append_assoc]
      exact ih (tracker.step event).1 hstep

section Stats

variable {entries : List (ℚ × ℚ)}

/-- Scored traffic is never so little that the error is not measured. -/
theorem minTrafficRpm_le_sum (hall : ∀ entry ∈ entries,
    minTrafficRpm ≤ entry.2) (hne : entries ≠ []) :
    minTrafficRpm ≤ (entries.map Prod.snd).sum := by
  obtain ⟨entry, rest, rfl⟩ := List.exists_cons_of_ne_nil hne
  have hrest : 0 ≤ (rest.map Prod.snd).sum := by
    refine List.sum_nonneg fun x hx => ?_
    obtain ⟨pair, hpair, rfl⟩ := List.mem_map.mp hx
    exact le_trans (by norm_num [minTrafficRpm])
      (hall pair (List.mem_cons_of_mem _ hpair))
  rw [List.map_cons, List.sum_cons]
  linarith [hall entry List.mem_cons_self]

/-- The errors add up to nothing when every prediction was exact only. -/
theorem sum_abs_eq_zero_iff :
    (entries.map fun entry => |entry.2 - entry.1|).sum = 0 ↔
      ∀ entry ∈ entries, entry.1 = entry.2 := by
  induction entries with
  | nil => simp
  | cons entry rest ih =>
      have hrest : 0 ≤ (rest.map fun entry => |entry.2 - entry.1|).sum := by
        refine List.sum_nonneg fun x hx => ?_
        obtain ⟨pair, -, rfl⟩ := List.mem_map.mp hx
        exact abs_nonneg _
      rw [List.map_cons, List.sum_cons, List.forall_mem_cons, ← ih,
        add_eq_zero_iff_of_nonneg (abs_nonneg _) hrest, abs_eq_zero,
        sub_eq_zero, eq_comm]

theorem mem_scoredEntries {entry : ℚ × ℚ} :
    entry ∈ scoredEntries entries ↔
      entry ∈ entries ∧ minTrafficRpm ≤ entry.2 := by
  rw [scoredEntries, List.mem_filter, decide_eq_true_eq]

theorem value_of_scored_nil (h : scoredEntries entries = []) :
    (mapeStats entries).value = none := by
  simp only [mapeStats, h, List.length_nil, Nat.lt_one_iff, true_or, if_true]

theorem value_of_scored_ne_nil (h : scoredEntries entries ≠ []) :
    (mapeStats entries).value =
      some (roundDecimals 2
        (percent (weightedError (scoredEntries entries)))) := by
  have hsum := minTrafficRpm_le_sum
    (fun entry he => (mem_scoredEntries.mp he).2) h
  have hfloor : (1 : ℚ) / 100 < minTrafficRpm := by norm_num [minTrafficRpm]
  have hmeasured : ¬((scoredEntries entries).length < 1 ∨
      ((scoredEntries entries).map Prod.snd).sum < 1 / 100) := by
    rintro (hlength | hsmall)
    · exact h (List.length_eq_zero_iff.mp (Nat.lt_one_iff.mp hlength))
    · exact absurd (hfloor.trans_le hsum) (not_lt.mpr hsmall.le)
  unfold mapeStats
  dsimp only
  rw [if_neg hmeasured]

theorem weightedError_nonneg : 0 ≤ weightedError (scoredEntries entries) := by
  have herrors : 0 ≤ ((scoredEntries entries).map
      fun entry => |entry.2 - entry.1|).sum := by
    refine List.sum_nonneg fun x hx => ?_
    obtain ⟨pair, -, rfl⟩ := List.mem_map.mp hx
    exact abs_nonneg _
  have htraffic : 0 ≤ ((scoredEntries entries).map Prod.snd).sum := by
    refine List.sum_nonneg fun x hx => ?_
    obtain ⟨pair, hpair, rfl⟩ := List.mem_map.mp hx
    exact le_trans (by norm_num [minTrafficRpm])
      (mem_scoredEntries.mp hpair).2
  exact div_nonneg herrors htraffic

/-- The error is zero for exact predictions only. -/
theorem weightedError_eq_zero_iff (h : scoredEntries entries ≠ []) :
    weightedError (scoredEntries entries) = 0 ↔
      ∀ entry ∈ entries, minTrafficRpm ≤ entry.2 → entry.1 = entry.2 := by
  have hsum := minTrafficRpm_le_sum
    (fun entry he => (mem_scoredEntries.mp he).2) h
  have hpos : (0 : ℚ) < minTrafficRpm := by norm_num [minTrafficRpm]
  rw [weightedError, div_eq_zero_iff,
    or_iff_left (ne_of_gt (hpos.trans_le hsum)), sum_abs_eq_zero_iff]
  simp only [mem_scoredEntries, and_imp]

theorem roundDecimals_eq_zero_iff {digits : ℕ} {q : ℚ} (hq : 0 ≤ q) :
    roundDecimals digits q = 0 ↔ q * 10 ^ digits ≤ 1 / 2 := by
  have hscaled : 0 ≤ q * 10 ^ digits := by positivity
  rw [roundDecimals, div_eq_zero_iff, or_iff_left (by positivity),
    Int.cast_eq_zero, roundHalfEven_eq_zero_iff hscaled]

/-- An error is unknown exactly when no traffic was above the floor. -/
theorem value_eq_none_iff : (mapeStats entries).value = none ↔
    ∀ entry ∈ entries, entry.2 < minTrafficRpm := by
  by_cases h : scoredEntries entries = []
  · refine iff_of_true (value_of_scored_nil h) fun entry he => ?_
    by_contra hlow
    have hmem := mem_scoredEntries.mpr ⟨he, not_lt.mp hlow⟩
    rw [h] at hmem
    cases hmem
  · obtain ⟨entry, he⟩ := List.exists_mem_of_ne_nil _ h
    refine iff_of_false ?_ fun hall => ?_
    · rw [value_of_scored_ne_nil h]
      exact Option.some_ne_none _
    · exact absurd (hall entry (mem_scoredEntries.mp he).1)
        (not_lt.mpr (mem_scoredEntries.mp he).2)

theorem percent_nonneg {ratio : ℚ} (h : 0 ≤ ratio) : 0 ≤ percent ratio :=
  binary64_nonneg (mul_nonneg (binary64_nonneg h) (by norm_num))

theorem percent_monotone : Monotone percent := fun _ _ h =>
  binary64_monotone
    (mul_le_mul_of_nonneg_right (binary64_monotone h) (by norm_num))

/-- The double next to 0.005 is above it. -/
theorem lt_percent {ratio : ℚ} (h : 1 / 20000 ≤ ratio) :
    1 / 200 < percent ratio :=
  lt_of_lt_of_le (by decide +kernel : 1 / 200 < percent (1 / 20000))
    (percent_monotone h)

theorem percent_le {ratio : ℚ} (h : ratio ≤ 4999999 / 10 ^ 11) :
    percent ratio ≤ 1 / 200 :=
  (percent_monotone h).trans (by decide +kernel)

/-- A reported error of zero is measured, and is at most half of its last
decimal before it is rounded. -/
theorem value_eq_zero_iff : (mapeStats entries).value = some 0 ↔
    (∃ entry ∈ entries, minTrafficRpm ≤ entry.2) ∧
      percent (weightedError (scoredEntries entries)) ≤ 1 / 200 := by
  by_cases h : scoredEntries entries = []
  · refine iff_of_false ?_ ?_
    · rw [value_of_scored_nil h]
      exact (Option.some_ne_none _).symm
    · rintro ⟨⟨entry, he⟩, -⟩
      have hmem := mem_scoredEntries.mpr he
      rw [h] at hmem
      cases hmem
  · obtain ⟨entry, he⟩ := List.exists_mem_of_ne_nil _ h
    have hhalf : percent (weightedError (scoredEntries entries)) * 10 ^ 2 ≤
        1 / 2 ↔ percent (weightedError (scoredEntries entries)) ≤ 1 / 200 := by
      constructor <;> intro hle <;> linarith
    rw [value_of_scored_ne_nil h, Option.some_inj,
      roundDecimals_eq_zero_iff (percent_nonneg weightedError_nonneg), hhalf,
      and_iff_right ⟨entry, mem_scoredEntries.mp he⟩]

example : (mapeStats [(100001, 100000)]).value = some 0 := by decide +kernel

example : (mapeStats [(20001, 20000)]).value = some (1 / 100) := by
  decide +kernel

/-- Scores that are all exact report an error of zero. -/
theorem value_of_exact (h : ∃ entry ∈ entries, minTrafficRpm ≤ entry.2)
    (hexact : ∀ entry ∈ entries, minTrafficRpm ≤ entry.2 →
      entry.1 = entry.2) : (mapeStats entries).value = some 0 := by
  obtain ⟨entry, he, hlow⟩ := h
  have hne : scoredEntries entries ≠ [] :=
    List.ne_nil_of_mem (mem_scoredEntries.mpr ⟨he, hlow⟩)
  refine value_eq_zero_iff.mpr ⟨⟨entry, he, hlow⟩, percent_le ?_⟩
  rw [(weightedError_eq_zero_iff hne).mpr hexact]
  norm_num

end Stats

/-- What a run does with the forecasts of a key: it scores each at most once,
with the first observation at or after its target and while that is fresh, and
scores all of these unless a queue was full; its errors are those of the newest
scores, unknown without traffic, and reported as zero where the percentage is
at most half of the last decimal, as it is for exact predictions. -/
structure ScoredOnce (key : Key) (events : List (TrackerEvent Key)) :
    Prop where
  at_most_once :
    (recorded key (runTrace AccuracyTracker.step {} events)).Subperm
      (scoresOf key events)
  all_with_room : RoomFor key (runTrace AccuracyTracker.step {} events) →
    (recorded key (runTrace AccuracyTracker.step {} events)).Perm
      (scoresOf key events)
  newest : (AccuracyTracker.after {} events).history key =
    (recorded key (runTrace AccuracyTracker.step {} events)).rtake windowSize
  unknown_iff :
    (mapeStats ((AccuracyTracker.after {} events).history key)).value = none ↔
      ∀ entry ∈ (AccuracyTracker.after {} events).history key,
        entry.2 < minTrafficRpm
  zero_iff :
    (mapeStats ((AccuracyTracker.after {} events).history key)).value =
        some 0 ↔
      (∃ entry ∈ (AccuracyTracker.after {} events).history key,
        minTrafficRpm ≤ entry.2) ∧
      percent (weightedError (scoredEntries
        ((AccuracyTracker.after {} events).history key))) ≤ 1 / 200
  zero_below :
    (mapeStats ((AccuracyTracker.after {} events).history key)).value =
        some 0 →
      weightedError (scoredEntries
        ((AccuracyTracker.after {} events).history key)) < 1 / 20000
  below_zero :
    (∃ entry ∈ (AccuracyTracker.after {} events).history key,
      minTrafficRpm ≤ entry.2) →
    weightedError (scoredEntries
      ((AccuracyTracker.after {} events).history key)) ≤ 4999999 / 10 ^ 11 →
    (mapeStats ((AccuracyTracker.after {} events).history key)).value = some 0
  exact_zero :
    (∃ entry ∈ (AccuracyTracker.after {} events).history key,
      minTrafficRpm ≤ entry.2) →
    (∀ entry ∈ (AccuracyTracker.after {} events).history key,
      minTrafficRpm ≤ entry.2 → entry.1 = entry.2) →
    (mapeStats ((AccuracyTracker.after {} events).history key)).value = some 0

theorem forecasts_scored_once (key : Key) (events : List (TrackerEvent Key)) :
    ScoredOnce key events := by
  have hpending : ({} : AccuracyTracker Key).pending key = [] := rfl
  have hhistory : ({} : AccuracyTracker Key).history key =
      ([] : List (ℚ × ℚ)).rtake windowSize := (List.rtake_nil _).symm
  obtain ⟨hsub, hperm⟩ := @recorded_runTrace Key _ key {} events
  have hnewest := history_after {} events hhistory
  rw [hpending, List.filterMap_nil, List.nil_append] at hsub hperm
  rw [List.nil_append] at hnewest
  refine ⟨hsub, hperm, hnewest, value_eq_none_iff, value_eq_zero_iff,
    fun hzero => ?_, fun hlow hsmall => ?_, value_of_exact⟩
  · by_contra hlarge
    exact absurd (value_eq_zero_iff.mp hzero).2
      (not_le.mpr (lt_percent (not_lt.mp hlarge)))
  · exact value_eq_zero_iff.mpr ⟨hlow, percent_le hsmall⟩

end Runs

end PredictiveAutoscaler.Api
