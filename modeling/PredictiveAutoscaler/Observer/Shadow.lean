/-
The shadow observer.  It replays the components of a forecast at the origin
that its issuance recorded, from a history that by then holds much more, and
writes down every predictor at every step, also where one could not answer.
The elapsed time of a row, the note on the budget and the texts of exceptions
are left out.
-/
import Mathlib.Algebra.Order.Ring.Rat
import Mathlib.Algebra.GroupWithZero.Nat
import Mathlib.Data.List.Induction
import Mathlib.Data.List.Basic
import PredictiveAutoscaler.ListTraversal
import PredictiveAutoscaler.PythonText

namespace PredictiveAutoscaler.Observer

open ListTraversal

/-- Microseconds. -/
def minute : ℤ := 60000000

/-- `GRID` -/
def grid : ℤ := 10 * minute

def day : ℤ := 24 * 60 * minute

inductive Predictor
  | servedHybrid
  | rawNetwork
  | seasonalOnly
  | previousDay
  | persistence
deriving DecidableEq, Repr

inductive Status
  | ok
  | unavailable
  | failed
  | nonFinite
deriving DecidableEq, Repr

/-- A number that `float` may or may not find finite. -/
abbrev Value := Option ℚ

/-- `StepObservation` -/
structure StepObservation where
  step : ℕ
  targetAt : String
  value : Option ℚ := none
  status : Status := .ok
  detail : String := ""
deriving DecidableEq, Repr

namespace StepObservation

def unavailable (step : ℕ) (targetAt why : String) : StepObservation :=
  { step, targetAt, status := .unavailable, detail := why }

def failed (step : ℕ) (targetAt why : String) : StepObservation :=
  { step, targetAt, status := .failed, detail := why }

/-- A value that is there: kept if it is finite. -/
def ofValue (step : ℕ) (targetAt : String) (detail : String) :
    Value → StepObservation
  | some q => { step, targetAt, value := some q }
  | none => { step, targetAt, status := .nonFinite, detail }

end StepObservation

/-- One step of a recorded forecast; `rpm` may be absent, or not finite. -/
structure RecordedStep where
  targetAt : String
  step : ℤ
  rpm : Option Value
deriving DecidableEq, Repr

/-- A recorded issuance. -/
structure Issuance where
  forecasts : List RecordedStep
  inferenceInputEnd : String
  sequenceLength : ℤ
  artifactSha256 : String
deriving DecidableEq, Repr

/-- A point of the history: its time, when it can be parsed, and its value. -/
abbrev Point := Option ℤ × Value

/-- What the model is given. -/
structure ModelInput where
  window : List (ℤ × Value)
  steps : ℕ
  origin : ℤ
  seasonal : List (ℤ × Value)
  feedback : ℚ

/-- What it answers, as far as the observer reads it. -/
structure ModelOutput where
  origin : Option ℤ
  targetTimestamps : List (Option ℤ)
  lstm : Option (List Value)
  pattern : Option (List Value)
  patternAvailablePerStep : Option (List Bool)
  patternAvailable : Bool

/-- A loaded model; its `predict` may raise. -/
structure ShadowModel where
  sequenceLength : ℕ
  predict : ModelInput → Option ModelOutput

/-- The feedback of a replayed chronology. -/
structure ReplayState where
  mapeForFloor : Value
  source : String

/-- `ShadowObserver`: its lookups may raise; `parse` reads a timestamp. -/
structure ShadowObserver where
  parse : String → Option ℤ
  history : ℤ → ℤ → Option (List Point)
  loadModel : Option (String → Option (Option ShadowModel))
  replayState : Option (Issuance → Option ReplayState)

/-- `ShadowRecord`, what the observation adds to the issuance. -/
structure ShadowRecord where
  windowPoints : ℕ := 0
  windowComplete : Bool := false
  predictors : Predictor → List StepObservation
  feedbackSource : Option String := none
  notes : List String := []

section Observe

variable (o : ShadowObserver)

/-- The points of a lookup, unless one has no time. -/
def parsedPoints (points : List Point) : Option (List (ℤ × Value)) :=
  points.mapM fun point => point.1.map (·, point.2)

/-- `_window_from_snapshot` -/
def windowFromSnapshot (last : ℤ) (sequenceLength : ℕ) :
    Option (List (ℤ × Value)) := do
  let start := last - grid * (sequenceLength - 1)
  let points ← o.history start last
  let points ← parsedPoints points
  return (points.filter fun point =>
    decide (start ≤ point.1 ∧ point.1 ≤ last)).mergeSort
      fun p q => decide (p.1 ≤ q.1)

/-- The observations of every step of a forecast. -/
def everyStep (targets : List String)
    (f : ℕ → String → StepObservation) : List StepObservation :=
  targets.mapIdx fun i target => f (i + 1) target

/-- `_persistence` -/
def persistence (window : List (ℤ × Value)) (targets : List String)
    (origin : ℤ) : List StepObservation :=
  match window.filter (·.1 = origin) with
  | [endpoint] => everyStep targets fun step target =>
      .ofValue step target "last observation" endpoint.2
  | _ => everyStep targets fun step target =>
      .unavailable step target "no unambiguous observation at recorded origin"

/-- `abs`, of the distance between two times. -/
def apart (s t : ℤ) : ℤ := (s - t).natAbs

/-- The point nearest to a time, the first of several. -/
def nearest (want : ℤ) (points : List (ℤ × Value)) : Option (ℤ × Value) :=
  points.foldl (fun best point =>
    if best.any fun b => decide (apart b.1 want ≤ apart point.1 want) then best
    else some point) none

/-- The points of a lookup that have a time. -/
def timedPoints (points : List Point) : List (ℤ × Value) :=
  points.filterMap fun point => point.1.map (·, point.2)

/-- The observation nearest to a time, within the tolerance. -/
def observedNear (step : ℕ) (target : String) (want : ℤ)
    (points : List Point) : StepObservation :=
  match nearest want ((timedPoints points).filter fun point =>
      decide (apart point.1 want ≤ 5 * minute)) with
  | none => .unavailable step target "no same-time observation yesterday"
  | some point => .ofValue step target "previous-day value" point.2

/-- One step of `_previous_day`. -/
def previousDayStep (step : ℕ) (target : String) : Option StepObservation := do
  let want := (← o.parse target) - day
  let points ← o.history (want - 5 * minute) (want + 5 * minute)
  return observedNear step target want points

/-- `_previous_day`; it raises where a step does. -/
def previousDay (targets : List String) : Option (List StepObservation) :=
  (targets.mapIdx fun i target => previousDayStep o (i + 1) target).mapM id

/-- One component of a model's answer, which must have every step. -/
def component (targets : List String) (detail : String)
    (available : ℕ → Bool) : Option (List Value) → List StepObservation
  | none => everyStep targets fun step target =>
      .unavailable step target "component absent or wrong length"
  | some values =>
      if values.length ≠ targets.length then
        everyStep targets fun step target =>
          .unavailable step target "component absent or wrong length"
      else
        everyStep targets fun step target =>
          if available (step - 1) then
            .ofValue step target detail (values.getD (step - 1) none)
          else .unavailable step target "no genuine previous-day backing"

/-- The availability of the pattern at a step. -/
def ModelOutput.availableAt (out : ModelOutput) (steps i : ℕ) : Bool :=
  match out.patternAvailablePerStep with
  | some flags =>
      if flags.length < steps then out.patternAvailable else flags.getD i false
  | none => out.patternAvailable

/-- `_from_model`: the raw network and the seasonal component. -/
def fromModel (model : Option ShadowModel) (window : List (ℤ × Value))
    (targets : List String) (origin : ℤ) (seasonal : List (ℤ × Value))
    (feedback : Option ℚ) : List StepObservation × List StepObservation :=
  let failed := everyStep targets fun step target =>
    .failed step target "the model did not answer the recorded issuance"
  match model with
  | none =>
      let blank := everyStep targets fun step target =>
        .unavailable step target "no model"
      (blank, blank)
  | some model =>
      if model.sequenceLength ≠ window.length then (failed, failed)
      else
        match model.predict ⟨window, targets.length, origin, seasonal,
            feedback.getD 0⟩ with
        | none => (failed, failed)
        | some out =>
            if out.origin ≠ some origin ∨
                out.targetTimestamps ≠ targets.map o.parse then (failed, failed)
            else
              (component targets "raw_network" (fun _ => true) out.lstm,
                match feedback with
                | none => everyStep targets fun step target =>
                    .unavailable step target
                      "contemporaneous feedback state not provided"
                | some _ => component targets "seasonal_only"
                    (out.availableAt targets.length) out.pattern)

/-- What the controller recorded. -/
def served (forecasts : List RecordedStep) : List StepObservation :=
  forecasts.mapIdx fun i forecast =>
    match forecast.rpm with
    | none => .unavailable (i + 1) forecast.targetAt "recorded RPM absent"
    | some value => .ofValue (i + 1) forecast.targetAt "recorded RPM" value

/-- The recorded steps are the grid of the recorded input's end. -/
def onTargetGrid (issuance : Issuance) (last : ℤ) : Prop :=
  issuance.forecasts.length ≤ 6 ∧ last % grid = 0 ∧
    (issuance.forecasts.map fun f => o.parse f.targetAt) =
      (List.range issuance.forecasts.length).map
        (fun i : ℕ => some (last + grid * (i + 1))) ∧
    issuance.forecasts.map (·.step) =
      (List.range issuance.forecasts.length).map fun i : ℕ => (i : ℤ) + 1

instance (issuance : Issuance) (last : ℤ) :
    Decidable (onTargetGrid o issuance last) :=
  inferInstanceAs (Decidable (_ ∧ _ ∧ _ ∧ _))

/-- The genuinely observed history of the eight days before the input's end. -/
def seasonalHistory (last : ℤ) : Option (List (ℤ × Value)) := do
  let points ← o.history (last - 8 * day) last
  let points ← parsedPoints points
  let points := points.filter fun point =>
    decide (last - 8 * day ≤ point.1 ∧ point.1 ≤ last)
  if ¬(points.map Prod.fst).Nodup ∨ ¬points.all (·.2.isSome) then none
  else return points.mergeSort fun p q => decide (p.1 ≤ q.1)

/-- The feedback state, when it is usable. -/
def feedbackState (issuance : Issuance) : Option (Option (ℚ × String)) :=
  match o.replayState with
  | none => some none
  | some lookup =>
      match lookup issuance with
      | some ⟨some mape, source⟩ =>
          if 0 ≤ mape ∧ strip source ≠ "" then
            some (some (mape, source))
          else none
      | _ => none

/-- Every predictor but the served forecast at every step. -/
def others (issuance : Issuance) (f : ℕ → String → StepObservation) :
    Predictor → List StepObservation :=
  fun _ => everyStep (issuance.forecasts.map (·.targetAt)) f

/-- The window has every slot up to the input's end, all of them finite. -/
def windowComplete (window : List (ℤ × Value)) (last : ℤ)
    (sequenceLength : ℕ) : Bool :=
  window.map Prod.fst = (List.range sequenceLength).map
      (fun i : ℕ => last - grid * (sequenceLength - 1) + grid * i) &&
    window.all (·.2.isSome)

/-- What loading the recorded artifact gave, when it was tried. -/
def loaded (issuance : Issuance) (complete : Bool) :
    Option (Option (Option ShadowModel)) :=
  if complete then o.loadModel.map (· issuance.artifactSha256) else none

/-- The raw network and the seasonal component of a replay. -/
def components (issuance : Issuance) (last : ℤ) (window : List (ℤ × Value))
    (complete : Bool) : List StepObservation × List StepObservation :=
  let targets := issuance.forecasts.map (·.targetAt)
  if complete then
    fromModel o (((loaded o issuance complete).getD (some none)).getD none)
      window targets last ((seasonalHistory o last).getD [])
      (((feedbackState o issuance).getD none).map Prod.fst)
  else
    let invalid := everyStep targets fun step target =>
      .unavailable step target "invalid input snapshot"
    (invalid, invalid)

/-- A replay with the window of the recorded input. -/
def replay (issuance : Issuance) (last : ℤ) (window : List (ℤ × Value)) :
    ShadowRecord :=
  let targets := issuance.forecasts.map (·.targetAt)
  let complete :=
    windowComplete window last issuance.sequenceLength.toNat
  { windowPoints := window.length
    windowComplete := complete
    predictors := fun
      | .servedHybrid => served issuance.forecasts
      | .rawNetwork => (components o issuance last window complete).1
      | .seasonalOnly => (components o issuance last window complete).2
      | .previousDay => (previousDay o targets).getD
          (everyStep targets fun step target =>
            .failed step target "history lookup failed")
      | .persistence => persistence window targets last
    feedbackSource := ((feedbackState o issuance).getD none).map Prod.snd
    notes :=
      (if complete then [] else
        [s!"input window incomplete or invalid: {window.length} of " ++
          s!"{issuance.sequenceLength} slots"]) ++
      (if (seasonalHistory o last).isSome then []
        else ["seasonal history unavailable"]) ++
      (if (feedbackState o issuance).isSome then []
        else ["feedback state unavailable"]) ++
      if (loaded o issuance complete).any Option.isNone then
        ["model load failed"]
      else [] }

/-- `ShadowObserver.observe` -/
def observe (issuance : Issuance) : ShadowRecord :=
  match o.parse issuance.inferenceInputEnd with
  | none =>
      { predictors := fun _ => []
        notes := ["unusable issuance record: missing forecasts, " ++
          "input end or sequence length"] }
  | some last =>
      if issuance.forecasts.length = 0 ∨ issuance.sequenceLength ≤ 0 then
        { predictors := fun _ => []
          notes := ["unusable issuance record: missing forecasts, " ++
            "input end or sequence length"] }
      else if ¬onTargetGrid o issuance last then
        { predictors := fun
            | .servedHybrid => (served issuance.forecasts).map fun s =>
                { s with
                  status := .failed
                  detail := "invalid issuance target grid" }
            | p => others issuance (.failed · · "invalid issuance target grid")
                p
          notes := ["invalid issuance target grid"] }
      else
        match windowFromSnapshot o last issuance.sequenceLength.toNat with
        | none =>
            { predictors := fun
                | .servedHybrid => served issuance.forecasts
                | p => others issuance (.failed · · "history lookup failed") p
              notes := ["history lookup failed"] }
        | some window => replay o issuance last window

/-- The summary of a run, with the log it appends to. -/
structure Summary where
  log : List ShadowRecord := []
  recordsWritten : ℕ := 0
  recordsNotWritten : ℕ := 0
  statusCounts : Predictor → Status → ℕ := fun _ _ => 0

/-- One item of `run`: an issuance, unless observing it raises, and whether
`append_record` can write the record. -/
def runStep (s : Summary) (item : Option Issuance × Bool) : Summary :=
  match item.1 with
  | none => s
  | some issuance =>
      let record := observe o issuance
      let counted := { s with
        statusCounts := fun p status => s.statusCounts p status +
          (record.predictors p).countP
            fun seen : StepObservation => seen.status = status }
      if item.2 then
        { counted with
          log := s.log ++ [record]
          recordsWritten := s.recordsWritten + 1 }
      else { counted with recordsNotWritten := s.recordsNotWritten + 1 }

/-- `run` -/
def run (items : List (Option Issuance × Bool)) : Summary :=
  items.foldl (runStep o) {}

end Observe

/-- The points that are not later than a time, or that have none. -/
def upTo (last : ℤ) (points : List Point) : List Point :=
  points.filter fun point => point.1.all (· ≤ last)

/-- Two histories that raise on the same ranges and hold the same points up
to a time. -/
def AgreeUpTo (last : ℤ) (old later : ℤ → ℤ → Option (List Point)) : Prop :=
  ∀ start stop, (old start stop).map (upTo last) =
    (later start stop).map (upTo last)

theorem upTo_cons_none (last : ℤ) (value : Value) (points : List Point) :
    upTo last ((none, value) :: points) = (none, value) :: upTo last points :=
  rfl

theorem upTo_cons_some (last time : ℤ) (value : Value) (points : List Point) :
    upTo last ((some time, value) :: points) =
      if time ≤ last then (some time, value) :: upTo last points
      else upTo last points := by
  unfold upTo
  rw [List.filter_cons]
  simp only [Option.all_some, decide_eq_true_eq]

theorem parsedPoints_cons_none (value : Value) (points : List Point) :
    parsedPoints ((none, value) :: points) = none := by
  unfold parsedPoints
  rw [List.mapM_cons]
  rfl

theorem parsedPoints_cons_some (time : ℤ) (value : Value)
    (points : List Point) :
    parsedPoints ((some time, value) :: points) =
      (parsedPoints points).map ((time, value) :: ·) := by
  unfold parsedPoints
  rw [List.mapM_cons]
  cases points.mapM fun p : Point => p.1.map (·, p.2) <;> rfl

/-- Reading the points up to a time is reading all of them and dropping the
later ones. -/
theorem parsedPoints_upTo (last : ℤ) (points : List Point) :
    parsedPoints (upTo last points) =
      (parsedPoints points).map (·.filter fun point => point.1 ≤ last) := by
  induction points with
  | nil => rfl
  | cons point points ih =>
      obtain ⟨time, value⟩ := point
      cases time with
      | none => rw [upTo_cons_none, parsedPoints_cons_none,
          parsedPoints_cons_none, Option.map_none]
      | some time =>
          rw [upTo_cons_some, parsedPoints_cons_some]
          by_cases h : time ≤ last
          · rw [if_pos h, parsedPoints_cons_some, ih]
            cases parsedPoints points with
            | none => rfl
            | some rest =>
                rw [Option.map_some, Option.map_some, Option.map_some,
                  Option.map_some, List.filter_cons_of_pos (by simpa using h)]
          · rw [if_neg h, ih]
            cases parsedPoints points with
            | none => rfl
            | some rest =>
                rw [Option.map_some, Option.map_some, Option.map_some,
                  List.filter_cons_of_neg (by simpa using h)]

/-- What is read up to a time is the same in histories that agree. -/
theorem AgreeUpTo.parsed {last : ℤ}
    {old later : ℤ → ℤ → Option (List Point)} (h : AgreeUpTo last old later)
    (start stop : ℤ) :
    ((old start stop).bind parsedPoints).map
        (·.filter fun point => point.1 ≤ last) =
      ((later start stop).bind parsedPoints).map
        (·.filter fun point => point.1 ≤ last) := by
  have key : ∀ found : Option (List Point),
      (found.bind parsedPoints).map (·.filter fun point => point.1 ≤ last) =
        (found.map (upTo last)).bind parsedPoints := by
    intro found
    cases found with
    | none => rfl
    | some points => exact (parsedPoints_upTo last points).symm
  rw [key, key, h start stop]

/-- A selection of points that are not later than a time sees only those. -/
theorem AgreeUpTo.selected {last : ℤ}
    {old later : ℤ → ℤ → Option (List Point)} (h : AgreeUpTo last old later)
    (start stop : ℤ) (p : ℤ × Value → Bool)
    (hp : ∀ point, p point = true → point.1 ≤ last) :
    ((old start stop).bind parsedPoints).map (·.filter p) =
      ((later start stop).bind parsedPoints).map (·.filter p) := by
  have key : ∀ found : Option (List (ℤ × Value)), found.map (·.filter p) =
      (found.map (·.filter fun point => decide (point.1 ≤ last))).map
        (·.filter p) := by
    intro found
    cases found with
    | none => rfl
    | some points =>
        rw [Option.map_some, Option.map_some, Option.map_some,
          List.filter_filter]
        congr 1
        apply List.filter_congr
        intro point _
        cases hcase : p point with
        | false => rfl
        | true => exact (decide_eq_true (hp point hcase)).symm
  rw [key, key (Option.bind (later start stop) _), h.parsed]

variable {o : ShadowObserver} {later : ℤ → ℤ → Option (List Point)}

/-- The same observer, over a history that holds more. -/
def ShadowObserver.withHistory (o : ShadowObserver)
    (later : ℤ → ℤ → Option (List Point)) : ShadowObserver :=
  { o with history := later }

theorem windowFromSnapshot_agrees {last : ℤ} (sequenceLength : ℕ)
    (h : AgreeUpTo last o.history later) :
    windowFromSnapshot (o.withHistory later) last sequenceLength =
      windowFromSnapshot o last sequenceLength := by
  have hform : ∀ o : ShadowObserver,
      windowFromSnapshot o last sequenceLength =
        (((o.history (last - grid * (sequenceLength - 1)) last).bind
          parsedPoints).map (·.filter fun point =>
            decide (last - grid * (sequenceLength - 1) ≤ point.1 ∧
              point.1 ≤ last))).map
          (·.mergeSort fun p q => decide (p.1 ≤ q.1)) := by
    intro o
    rw [Option.map_map, Option.map_eq_bind, Option.bind_assoc]
    rfl
  rw [hform, hform, ShadowObserver.withHistory,
    h.selected _ _ _ fun point hpoint => (of_decide_eq_true hpoint).2]

theorem seasonalHistory_agrees {last : ℤ}
    (h : AgreeUpTo last o.history later) :
    seasonalHistory (o.withHistory later) last = seasonalHistory o last := by
  have hform : ∀ o : ShadowObserver, seasonalHistory o last =
      (((o.history (last - 8 * day) last).bind parsedPoints).map
        (·.filter fun point =>
          decide (last - 8 * day ≤ point.1 ∧ point.1 ≤ last))).bind
        fun points =>
          if ¬(points.map Prod.fst).Nodup ∨ ¬points.all (·.2.isSome) then none
          else some (points.mergeSort fun p q => decide (p.1 ≤ q.1)) := by
    intro o
    rw [Option.map_eq_bind, Option.bind_assoc, Option.bind_assoc]
    rfl
  rw [hform, hform, ShadowObserver.withHistory,
    h.selected _ _ _ fun point hpoint => (of_decide_eq_true hpoint).2]

theorem timedPoints_cons_none (value : Value) (points : List Point) :
    timedPoints ((none, value) :: points) = timedPoints points :=
  List.filterMap_cons_none rfl

theorem timedPoints_cons_some (time : ℤ) (value : Value)
    (points : List Point) :
    timedPoints ((some time, value) :: points) =
      (time, value) :: timedPoints points :=
  List.filterMap_cons_some rfl

/-- A selection among the points that have a time sees no later ones. -/
theorem timedPoints_upTo {last : ℤ} {p : ℤ × Value → Bool}
    (hp : ∀ point, p point = true → point.1 ≤ last) (points : List Point) :
    (timedPoints (upTo last points)).filter p =
      (timedPoints points).filter p := by
  induction points with
  | nil => rfl
  | cons point points ih =>
      obtain ⟨time, value⟩ := point
      cases time with
      | none =>
          rw [upTo_cons_none, timedPoints_cons_none, timedPoints_cons_none, ih]
      | some time =>
          rw [upTo_cons_some, timedPoints_cons_some]
          by_cases h : time ≤ last
          · rw [if_pos h, timedPoints_cons_some, List.filter_cons,
              List.filter_cons, ih]
          · have hdrop : ¬p (time, value) = true := fun hcase =>
              h (hp (time, value) hcase)
            rw [if_neg h, List.filter_cons_of_neg hdrop, ih]

theorem observedNear_upTo {last : ℤ} (step : ℕ) (target : String) {want : ℤ}
    (hwant : want + 5 * minute ≤ last) (points : List Point) :
    observedNear step target want (upTo last points) =
      observedNear step target want points := by
  have hp : ∀ point : ℤ × Value,
      decide (apart point.1 want ≤ 5 * minute) = true → point.1 ≤ last := by
    intro point hpoint
    have hnear := of_decide_eq_true hpoint
    unfold apart at hnear
    omega
  unfold observedNear
  rw [timedPoints_upTo hp]

theorem previousDayStep_agrees {last : ℤ} (step : ℕ) (target : String)
    (h : AgreeUpTo last o.history later)
    (hbefore : ∀ time, o.parse target = some time →
      time - day + 5 * minute ≤ last) :
    previousDayStep (o.withHistory later) step target =
      previousDayStep o step target := by
  have hform : ∀ o : ShadowObserver, previousDayStep o step target =
      (o.parse target).bind fun time =>
        (o.history (time - day - 5 * minute) (time - day + 5 * minute)).map
          (observedNear step target (time - day)) := by
    intro o
    unfold previousDayStep
    simp only [Option.bind_eq_bind, Option.pure_def, Option.map_eq_bind,
      Function.comp_def]
  rw [hform, hform]
  apply Option.bind_congr
  intro time htime
  have hnear : observedNear step target (time - day) =
      observedNear step target (time - day) ∘ upTo last := by
    funext points
    exact (observedNear_upTo step target (hbefore time htime) points).symm
  rw [hnear, ← Option.map_map, ← Option.map_map, h]
  rfl

/-- The targets of a recorded grid lie within an hour of the input's end. -/
theorem onTargetGrid_parse {issuance : Issuance} {last : ℤ}
    (hgrid : onTargetGrid o issuance last) {target : String}
    (htarget : target ∈ issuance.forecasts.map (·.targetAt)) {time : ℤ}
    (htime : o.parse target = some time) : time ≤ last + 6 * grid := by
  obtain ⟨hsix, -, hparse, -⟩ := hgrid
  obtain ⟨forecast, hforecast, rfl⟩ := List.mem_map.mp htarget
  have hmem : some time ∈ issuance.forecasts.map fun f => o.parse f.targetAt :=
    List.mem_map.mpr ⟨forecast, hforecast, htime⟩
  rw [hparse] at hmem
  obtain ⟨i, hi, heq⟩ := List.mem_map.mp hmem
  have hlt := List.mem_range.mp hi
  have htime := Option.some.inj heq
  unfold grid minute at *
  omega

theorem components_agree {issuance : Issuance} {last : ℤ}
    (h : AgreeUpTo last o.history later) (window : List (ℤ × Value))
    (complete : Bool) :
    components (o.withHistory later) issuance last window complete =
      components o issuance last window complete := by
  unfold components
  rw [seasonalHistory_agrees h]
  rfl

theorem previousDay_agrees {issuance : Issuance} {last : ℤ}
    (h : AgreeUpTo last o.history later)
    (hgrid : onTargetGrid o issuance last) :
    previousDay (o.withHistory later) (issuance.forecasts.map (·.targetAt)) =
      previousDay o (issuance.forecasts.map (·.targetAt)) := by
  unfold previousDay
  congr 1
  rw [List.mapIdx_eq_mapIdx_iff]
  intro i hi
  apply previousDayStep_agrees _ _ h
  intro time htime
  have := onTargetGrid_parse hgrid (List.getElem_mem hi) htime
  unfold grid day minute at *
  omega

/-- A replay of a recorded grid sees nothing later than the input's end. -/
theorem replay_agrees {issuance : Issuance} {last : ℤ}
    (h : AgreeUpTo last o.history later)
    (hgrid : onTargetGrid o issuance last) (window : List (ℤ × Value)) :
    replay (o.withHistory later) issuance last window =
      replay o issuance last window := by
  unfold replay
  simp only [components_agree h, seasonalHistory_agrees h,
    previousDay_agrees h hgrid]
  rfl

theorem observe_agrees {issuance : Issuance}
    (h : ∀ last, o.parse issuance.inferenceInputEnd = some last →
      AgreeUpTo last o.history later) :
    observe (o.withHistory later) issuance = observe o issuance := by
  unfold observe
  have hparse : (o.withHistory later).parse = o.parse := rfl
  rw [hparse]
  cases hlast : o.parse issuance.inferenceInputEnd with
  | none => rfl
  | some last =>
      have hgrids : onTargetGrid (o.withHistory later) issuance last ↔
          onTargetGrid o issuance last := Iff.rfl
      have hagree := h last hlast
      by_cases husable : issuance.forecasts.length = 0 ∨
          issuance.sequenceLength ≤ 0
      · simp only [if_pos husable]
      simp only [if_neg husable, hgrids]
      by_cases hgrid : onTargetGrid o issuance last
      · simp only [not_true_eq_false, hgrid, if_false,
          windowFromSnapshot_agrees _ hagree, replay_agrees hagree hgrid]
      · simp only [hgrid, not_false_eq_true, if_true]

/-- Observing recorded issuances from a history that holds more writes the
same log and counts the same: nothing later than the end of an issuance's
input enters its record. -/
theorem run_no_lookahead (items : List (Option Issuance × Bool))
    (h : ∀ issuance ok, (some issuance, ok) ∈ items →
      ∀ last, o.parse issuance.inferenceInputEnd = some last →
        AgreeUpTo last o.history later) :
    run (o.withHistory later) items = run o items := by
  unfold run
  apply List.foldl_ext
  intro summary item hitem
  obtain ⟨found, ok⟩ := item
  cases found with
  | none => rfl
  | some issuance =>
      unfold runStep
      simp only [observe_agrees (h issuance ok hitem)]

namespace ShadowWitness

/-- A history that holds the given points, queried by range. -/
def stored (points : List (ℤ × ℚ)) (start stop : ℤ) : Option (List Point) :=
  some ((points.filter fun point =>
    decide (start ≤ point.1 ∧ point.1 ≤ stop)).map fun point =>
      (some point.1, some point.2))

def parse (text : String) : Option ℤ :=
  if text = "1970-01-02T00:00:00Z" then some day
  else if text = "1970-01-02T00:10:00Z" then some (day + grid)
  else none

def observer : ShadowObserver :=
  { parse
    history := stored [(day, 5)]
    loadModel := none
    replayState := none }

def issuance : Issuance :=
  { forecasts := [⟨"1970-01-02T00:10:00Z", 1, some (some 6)⟩]
    inferenceInputEnd := "1970-01-02T00:00:00Z"
    sequenceLength := 1
    artifactSha256 := "" }

theorem stored_agrees (points fresh : List (ℤ × ℚ)) (last : ℤ)
    (hfresh : ∀ point ∈ fresh, last < point.1) :
    AgreeUpTo last (stored points) (stored (points ++ fresh)) := by
  intro start stop
  unfold stored
  rw [Option.map_some, Option.map_some, List.filter_append, List.map_append,
    upTo, upTo, List.filter_append]
  have hnone : ((fresh.filter fun point =>
      decide (start ≤ point.1 ∧ point.1 ≤ stop)).map fun point =>
        ((some point.1, some point.2) : Point)).filter
          (fun point => point.1.all (· ≤ last)) = [] := by
    rw [List.filter_eq_nil_iff]
    intro point hpoint
    obtain ⟨old, hold, rfl⟩ := List.mem_map.mp hpoint
    have := hfresh old (List.mem_of_mem_filter hold)
    simpa using this
  rw [hnone, List.append_nil]

/-- The observation that was to be forecast does not change the record. -/
theorem target_not_observed :
    stored [(day, 5), (day + grid, 9)] 0 (day + grid) ≠
        observer.history 0 (day + grid) ∧
      run (observer.withHistory (stored [(day, 5), (day + grid, 9)]))
          [(some issuance, true)] =
        run observer [(some issuance, true)] := by
  refine ⟨by decide, run_no_lookahead _ ?_⟩
  intro found ok hitem last hlast
  obtain ⟨rfl, -⟩ : found = issuance ∧ ok = true := by simpa using hitem
  have hday : observer.parse issuance.inferenceInputEnd = some day := rfl
  obtain rfl := Option.some.inj (hday.symm.trans hlast)
  exact stored_agrees [(day, 5)] [(day + grid, 9)] day (by decide)

end ShadowWitness

/-- The observations name every step of a forecast once, in its order. -/
def NamesEveryStep (targets : List String) (seen : List StepObservation) :
    Prop :=
  seen.map (fun s => (s.step, s.targetAt)) =
    targets.mapIdx fun i target => (i + 1, target)

/-- An observation has a value exactly if it answered. -/
def Sound (s : StepObservation) : Prop :=
  s.status = .ok ↔ s.value.isSome

namespace StepObservation

theorem sound_unavailable (step : ℕ) (targetAt why : String) :
    Sound (unavailable step targetAt why) :=
  ⟨nofun, nofun⟩

theorem sound_failed (step : ℕ) (targetAt why : String) :
    Sound (failed step targetAt why) :=
  ⟨nofun, nofun⟩

theorem sound_ofValue (step : ℕ) (targetAt detail : String) (value : Value) :
    Sound (ofValue step targetAt detail value) := by
  cases value with
  | none => exact ⟨nofun, nofun⟩
  | some q => exact ⟨fun _ => rfl, fun _ => rfl⟩

theorem ofValue_names (step : ℕ) (targetAt detail : String) (value : Value) :
    (ofValue step targetAt detail value).step = step ∧
      (ofValue step targetAt detail value).targetAt = targetAt := by
  cases value <;> exact ⟨rfl, rfl⟩

end StepObservation

/-- The observations of a predictor account for a forecast: every step is
there, and has a value exactly if the predictor answered. -/
structure Accounts (targets : List String) (seen : List StepObservation) :
    Prop where
  names : NamesEveryStep targets seen
  sound : ∀ s ∈ seen, Sound s

theorem NamesEveryStep.length {targets : List String}
    {seen : List StepObservation}
    (h : NamesEveryStep targets seen) : seen.length = targets.length := by
  have := congrArg List.length h
  rwa [List.length_map, List.length_mapIdx] at this

/-- One observation for each item, of its own step and target, names every
step. -/
theorem mapIdx_names {A : Type} (items : List A) (target : A → String)
    {f : ℕ → A → StepObservation}
    (hf : ∀ i x, (f i x).step = i + 1 ∧ (f i x).targetAt = target x) :
    NamesEveryStep (items.map target) (items.mapIdx f) := by
  apply List.ext_getElem?
  intro i
  rw [List.getElem?_map, List.getElem?_mapIdx, List.getElem?_mapIdx,
    List.getElem?_map]
  cases items[i]? with
  | none => rfl
  | some x =>
      obtain ⟨hstep, htarget⟩ := hf i x
      simp only [Option.map_some, hstep, htarget]

/-- An observation of every step accounts for the forecast if each is sound
and of its own step. -/
theorem everyStep_accounts {targets : List String}
    {f : ℕ → String → StepObservation}
    (hf : ∀ step target, Sound (f step target) ∧
      (f step target).step = step ∧ (f step target).targetAt = target) :
    Accounts targets (everyStep targets f) where
  names := by
    have hnames := mapIdx_names targets id
      (f := fun i target => f (i + 1) target)
      fun i target => (hf (i + 1) target).2
    rwa [List.map_id] at hnames
  sound := by
    intro s hs
    obtain ⟨i, _, rfl⟩ := List.mem_mapIdx.mp hs
    exact (hf _ _).1

theorem unavailable_accounts (targets : List String) (why : String) :
    Accounts targets
      (everyStep targets fun step target => .unavailable step target why) :=
  everyStep_accounts fun step target =>
    ⟨StepObservation.sound_unavailable step target why, rfl, rfl⟩

theorem failed_accounts (targets : List String) (why : String) :
    Accounts targets
      (everyStep targets fun step target => .failed step target why) :=
  everyStep_accounts fun step target =>
    ⟨StepObservation.sound_failed step target why, rfl, rfl⟩

theorem ofValue_accounts (targets : List String) (detail : String)
    (value : Value) :
    Accounts targets
      (everyStep targets fun step target =>
        .ofValue step target detail value) :=
  everyStep_accounts fun step target =>
    ⟨StepObservation.sound_ofValue step target detail value,
      StepObservation.ofValue_names step target detail value⟩

theorem persistence_accounts (window : List (ℤ × Value))
    (targets : List String) (origin : ℤ) :
    Accounts targets (persistence window targets origin) := by
  unfold persistence
  split
  · exact ofValue_accounts targets _ _
  · exact unavailable_accounts targets _

theorem component_accounts (targets : List String) (detail : String)
    (available : ℕ → Bool) (values : Option (List Value)) :
    Accounts targets (component targets detail available values) := by
  cases values with
  | none => exact unavailable_accounts targets _
  | some values =>
      unfold component
      by_cases hlength : values.length ≠ targets.length
      · simp only [if_pos hlength]
        exact unavailable_accounts targets _
      simp only [if_neg hlength]
      apply everyStep_accounts
      intro step target
      cases available (step - 1) with
      | false => exact ⟨StepObservation.sound_unavailable _ _ _, rfl, rfl⟩
      | true =>
          exact ⟨StepObservation.sound_ofValue _ _ _ _,
            StepObservation.ofValue_names _ _ _ _⟩

theorem fromModel_accounts (model : Option ShadowModel)
    (window : List (ℤ × Value)) (targets : List String) (origin : ℤ)
    (seasonal : List (ℤ × Value)) (feedback : Option ℚ) :
    Accounts targets
        (fromModel o model window targets origin seasonal feedback).1 ∧
      Accounts targets
        (fromModel o model window targets origin seasonal feedback).2 := by
  have hfailed := failed_accounts targets
    "the model did not answer the recorded issuance"
  cases model with
  | none =>
      have hblank := unavailable_accounts targets "no model"
      exact ⟨hblank, hblank⟩
  | some model =>
      unfold fromModel
      by_cases hlength : model.sequenceLength ≠ window.length
      · simp only [if_pos hlength, hfailed, and_self]
      simp only [if_neg hlength]
      cases model.predict ⟨window, targets.length, origin, seasonal,
          feedback.getD 0⟩ with
      | none => exact ⟨hfailed, hfailed⟩
      | some out =>
          by_cases hrecorded : out.origin ≠ some origin ∨
              out.targetTimestamps ≠ targets.map o.parse
          · simp only [if_pos hrecorded, hfailed, and_self]
          simp only [if_neg hrecorded]
          refine ⟨component_accounts targets _ _ _, ?_⟩
          cases feedback with
          | none => exact unavailable_accounts targets _
          | some mape => exact component_accounts targets _ _ _

theorem observedNear_accounts (step : ℕ) (target : String) (want : ℤ)
    (points : List Point) :
    Sound (observedNear step target want points) ∧
      (observedNear step target want points).step = step ∧
      (observedNear step target want points).targetAt = target := by
  unfold observedNear
  split
  · exact ⟨StepObservation.sound_unavailable _ _ _, rfl, rfl⟩
  · exact ⟨StepObservation.sound_ofValue _ _ _ _,
      StepObservation.ofValue_names _ _ _ _⟩

/-- What a lookup of the day before found came of the points it was given. -/
theorem previousDayStep_eq_some {step : ℕ} {target : String}
    {seen : StepObservation}
    (h : previousDayStep o step target = some seen) :
    ∃ want points, seen = observedNear step target want points := by
  unfold previousDayStep at h
  simp only [Option.bind_eq_bind, Option.bind_eq_some_iff, Option.pure_def,
    Option.some.injEq] at h
  obtain ⟨time, -, points, -, rfl⟩ := h
  exact ⟨time - day, points, rfl⟩

theorem previousDay_accounts (targets : List String) :
    Accounts targets ((previousDay o targets).getD
      (everyStep targets fun step target =>
        .failed step target "history lookup failed")) := by
  cases hday : previousDay o targets with
  | none => exact failed_accounts targets _
  | some seen =>
      have heq := mapM_id_eq_some hday
      have hstep : ∀ i s, seen[i]? = some s →
          ∃ target, targets[i]? = some target ∧
            previousDayStep o (i + 1) target = some s := by
        intro i s hs
        have hget : (seen.map some)[i]? = some (some s) := by
          rw [List.getElem?_map, hs, Option.map_some]
        rw [← heq, List.getElem?_mapIdx, Option.map_eq_some_iff] at hget
        exact hget
      rw [Option.getD_some]
      constructor
      case names =>
        apply List.ext_getElem?
        intro i
        have hlength : targets.length = seen.length := by
          have := congrArg List.length heq
          rwa [List.length_mapIdx, List.length_map] at this
        rw [List.getElem?_map, List.getElem?_mapIdx]
        cases hs : seen[i]? with
        | none =>
            have hnone : targets[i]? = none := by
              rw [List.getElem?_eq_none_iff] at hs ⊢
              omega
            rw [hnone, Option.map_none, Option.map_none]
        | some s =>
            obtain ⟨target, htarget, hfound⟩ := hstep i s hs
            obtain ⟨want, points, rfl⟩ := previousDayStep_eq_some hfound
            obtain ⟨-, hnum, hname⟩ :=
              observedNear_accounts (i + 1) target want points
            rw [htarget, Option.map_some, Option.map_some, hnum, hname]
      case sound =>
        intro s hs
        obtain ⟨i, hi⟩ := List.getElem?_of_mem hs
        obtain ⟨target, -, hfound⟩ := hstep i s hi
        obtain ⟨want, points, rfl⟩ := previousDayStep_eq_some hfound
        exact (observedNear_accounts _ _ _ _).1

theorem served_accounts (forecasts : List RecordedStep) :
    Accounts (forecasts.map (·.targetAt)) (served forecasts) where
  names := by
    apply mapIdx_names
    intro i forecast
    cases forecast.rpm with
    | none => exact ⟨rfl, rfl⟩
    | some value => exact StepObservation.ofValue_names _ _ _ _
  sound := by
    intro s hs
    obtain ⟨i, hi, rfl⟩ := List.mem_mapIdx.mp hs
    cases forecasts[i].rpm with
    | none => exact StepObservation.sound_unavailable _ _ _
    | some value => exact StepObservation.sound_ofValue _ _ _ _

/-- An issuance that can be observed at all. -/
def Usable (o : ShadowObserver) (issuance : Issuance) : Prop :=
  (o.parse issuance.inferenceInputEnd).isSome ∧
    issuance.forecasts.length ≠ 0 ∧ 0 < issuance.sequenceLength

instance (issuance : Issuance) : Decidable (Usable o issuance) :=
  inferInstanceAs (Decidable (_ ∧ _ ∧ _))

theorem components_accounts (issuance : Issuance) (last : ℤ)
    (window : List (ℤ × Value)) (complete : Bool) :
    Accounts (issuance.forecasts.map (·.targetAt))
        (components o issuance last window complete).1 ∧
      Accounts (issuance.forecasts.map (·.targetAt))
        (components o issuance last window complete).2 := by
  cases complete with
  | true => exact fromModel_accounts _ _ _ _ _ _
  | false => exact ⟨unavailable_accounts _ _, unavailable_accounts _ _⟩

theorem replay_accounts (issuance : Issuance) (last : ℤ)
    (window : List (ℤ × Value)) (p : Predictor) :
    Accounts (issuance.forecasts.map (·.targetAt))
      ((replay o issuance last window).predictors p) := by
  cases p with
  | servedHybrid => exact served_accounts issuance.forecasts
  | rawNetwork => exact (components_accounts issuance last window _).1
  | seasonalOnly => exact (components_accounts issuance last window _).2
  | previousDay => exact previousDay_accounts _
  | persistence => exact persistence_accounts _ _ _

theorem NamesEveryStep.map {targets : List String}
    {seen : List StepObservation} (h : NamesEveryStep targets seen)
    {f : StepObservation → StepObservation}
    (hf : ∀ s, ((f s).step, (f s).targetAt) = (s.step, s.targetAt)) :
    NamesEveryStep targets (seen.map f) := by
  unfold NamesEveryStep
  rw [List.map_map, ← h]
  exact List.map_congr_left fun s _ => hf s

/-- What a record says of a predictor: every step of a usable issuance is
named, an answer has a value, and only a served forecast may keep a value
that is not one. -/
structure Recorded (o : ShadowObserver) (issuance : Issuance) (p : Predictor) :
    Prop where
  names : Usable o issuance → NamesEveryStep
    (issuance.forecasts.map (·.targetAt)) ((observe o issuance).predictors p)
  unusable : ¬Usable o issuance → (observe o issuance).predictors p = []
  answered : ∀ s ∈ (observe o issuance).predictors p,
    s.status = .ok → s.value.isSome
  silent : p ≠ .servedHybrid → ∀ s ∈ (observe o issuance).predictors p,
    s.value.isSome → s.status = .ok

theorem Recorded.of_accounts {issuance : Issuance} {p : Predictor}
    (husable : Usable o issuance)
    (h : Accounts (issuance.forecasts.map (·.targetAt))
      ((observe o issuance).predictors p)) : Recorded o issuance p where
  names _ := h.names
  unusable hnot := absurd husable hnot
  answered s hs := (h.sound s hs).mp
  silent _ s hs := (h.sound s hs).mpr

/-- A record of an issuance that cannot be observed. -/
theorem Recorded.of_nil {issuance : Issuance} {p : Predictor}
    (hnot : ¬Usable o issuance)
    (h : (observe o issuance).predictors p = []) : Recorded o issuance p where
  names husable := absurd husable hnot
  unusable _ := h
  answered s hs := by
    rw [h] at hs
    exact absurd hs List.not_mem_nil
  silent _ s hs := by
    rw [h] at hs
    exact absurd hs List.not_mem_nil

/-- Every predictor is recorded at every step, whether or not it answered. -/
theorem observe_recorded (issuance : Issuance) (p : Predictor) :
    Recorded o issuance p := by
  cases hlast : o.parse issuance.inferenceInputEnd with
  | none =>
      apply Recorded.of_nil
      case hnot =>
        rintro ⟨hsome, -⟩
        rw [hlast] at hsome
        exact Bool.false_ne_true hsome
      case h => simp only [observe, hlast]
  | some last =>
      by_cases hbad : issuance.forecasts.length = 0 ∨
          issuance.sequenceLength ≤ 0
      · apply Recorded.of_nil
        case hnot =>
          rintro ⟨-, hsteps, hlength⟩
          omega
        case h => simp only [observe, hlast, if_pos hbad]
      have husable : Usable o issuance := by
        refine ⟨by rw [hlast]; rfl, ?_, ?_⟩ <;> omega
      have hserved := served_accounts issuance.forecasts
      by_cases hgrid : onTargetGrid o issuance last
      · cases hwindow : windowFromSnapshot o last
            issuance.sequenceLength.toNat with
        | none =>
            apply Recorded.of_accounts husable
            simp only [observe, hlast, if_neg hbad, hgrid, not_true_eq_false,
              if_false, hwindow]
            cases p with
            | servedHybrid => exact hserved
            | _ => exact failed_accounts _ _
        | some window =>
            apply Recorded.of_accounts husable
            simp only [observe, hlast, if_neg hbad, hgrid, not_true_eq_false,
              if_false, hwindow]
            exact replay_accounts issuance last window p
      · have hobserve : observe o issuance =
            { predictors := fun
                | .servedHybrid => (served issuance.forecasts).map fun s =>
                    { s with
                      status := .failed
                      detail := "invalid issuance target grid" }
                | p => others issuance
                    (.failed · · "invalid issuance target grid") p
              notes := ["invalid issuance target grid"] } := by
          simp only [observe, hlast, if_neg hbad, hgrid, not_false_eq_true,
            if_true]
        cases p with
        | servedHybrid =>
            constructor
            case names =>
              intro _
              rw [hobserve]
              exact hserved.names.map fun _ => rfl
            case unusable => exact fun hnot => absurd husable hnot
            case answered =>
              intro s hs hok
              rw [hobserve] at hs
              obtain ⟨old, -, rfl⟩ := List.mem_map.mp hs
              exact Status.noConfusion hok
            case silent => exact fun hne => absurd rfl hne
        | _ =>
            apply Recorded.of_accounts husable
            rw [hobserve]
            exact failed_accounts _ _

/-- The observations that a run owes each predictor for an item. -/
def owed (o : ShadowObserver) (item : Option Issuance × Bool) : ℕ :=
  item.1.elim 0 fun issuance =>
    if Usable o issuance then issuance.forecasts.length else 0

/-- The observations counted for a predictor. -/
def Summary.total (summary : Summary) (p : Predictor) : ℕ :=
  summary.statusCounts p .ok + summary.statusCounts p .unavailable +
    summary.statusCounts p .failed + summary.statusCounts p .nonFinite

/-- The account of a run: no predictor is counted less often than another,
and no issuance that was observed is lost without being counted. -/
structure Accounted (o : ShadowObserver)
    (items : List (Option Issuance × Bool)) (summary : Summary) : Prop where
  counted : ∀ p, summary.total p = (items.map (owed o)).sum
  written : summary.recordsWritten = summary.log.length
  observed : summary.recordsWritten + summary.recordsNotWritten =
    items.countP (·.1.isSome)
  log : summary.log = items.filterMap fun item =>
    if item.2 then item.1.map (observe o) else none
  recorded : ∀ record ∈ summary.log, ∃ issuance,
    record = observe o issuance ∧ ∀ p, Recorded o issuance p

theorem length_observations (issuance : Issuance) (ok : Bool) (p : Predictor) :
    ((observe o issuance).predictors p).length =
      owed o (some issuance, ok) := by
  have hrecorded := observe_recorded (o := o) issuance p
  unfold owed
  rw [Option.elim_some]
  by_cases husable : Usable o issuance
  · rw [if_pos husable, (hrecorded.names husable).length, List.length_map]
  · rw [if_neg husable, hrecorded.unusable husable, List.length_nil]

/-- Every observation has one of the four statuses. -/
theorem countP_statuses (seen : List StepObservation) :
    seen.countP (·.status = .ok) + seen.countP (·.status = .unavailable) +
        seen.countP (·.status = .failed) +
        seen.countP (·.status = .nonFinite) = seen.length := by
  induction seen with
  | nil => rfl
  | cons s seen ih =>
      simp only [List.countP_cons, List.length_cons]
      cases s.status <;> simp <;> omega

/-- One item keeps the account. -/
theorem Accounted.runStep {items : List (Option Issuance × Bool)}
    {summary : Summary} (h : Accounted o items summary)
    (item : Option Issuance × Bool) :
    Accounted o (items ++ [item]) (runStep o summary item) := by
  obtain ⟨found, ok⟩ := item
  have hsum : ((items ++ [(found, ok)]).map (owed o)).sum =
      (items.map (owed o)).sum + owed o (found, ok) := by
    rw [List.map_append, List.sum_append, List.map_singleton,
      List.sum_singleton]
  cases found with
  | none =>
      constructor
      case counted =>
        intro p
        rw [hsum]
        exact h.counted p
      case written => exact h.written
      case observed =>
        rw [List.countP_append]
        exact h.observed
      case log =>
        rw [List.filterMap_append]
        cases ok <;> exact h.log.trans (List.append_nil _).symm
      case recorded => exact h.recorded
  | some issuance =>
      have hcounted : ∀ p, (Observer.runStep o summary
          (some issuance, ok)).total p =
            ((items ++ [(some issuance, ok)]).map (owed o)).sum := by
        intro p
        have htotal : (Observer.runStep o summary (some issuance, ok)).total p =
            summary.total p + ((observe o issuance).predictors p).length := by
          rw [← countP_statuses]
          unfold Observer.runStep Summary.total
          cases ok <;> simp only [Bool.false_eq_true, if_true, if_false] <;>
            omega
        rw [htotal, h.counted p, length_observations issuance ok p, hsum]
      cases ok with
      | true =>
          constructor
          case counted => exact hcounted
          case written =>
            show summary.recordsWritten + 1 = (summary.log ++ _).length
            rw [List.length_append, h.written, List.length_singleton]
          case observed =>
            show summary.recordsWritten + 1 + summary.recordsNotWritten = _
            rw [List.countP_append, ← h.observed]
            show _ = _ + 1
            omega
          case log =>
            rw [List.filterMap_append, ← h.log]
            rfl
          case recorded =>
            intro record hrecord
            rcases List.mem_append.mp hrecord with hold | hnew
            · exact h.recorded record hold
            · obtain rfl := List.mem_singleton.mp hnew
              exact ⟨issuance, rfl, observe_recorded issuance⟩
      | false =>
          constructor
          case counted => exact hcounted
          case written => exact h.written
          case observed =>
            show summary.recordsWritten + (summary.recordsNotWritten + 1) = _
            rw [List.countP_append, ← h.observed]
            exact (Nat.add_assoc _ _ _).symm
          case log =>
            rw [List.filterMap_append]
            exact h.log.trans (List.append_nil _).symm
          case recorded => exact h.recorded

/-- A run of the observer accounts for every step of every issuance under
every predictor: one that could not answer is a result and not a gap. -/
theorem run_accounted (items : List (Option Issuance × Bool)) :
    Accounted o items (run o items) := by
  unfold run
  induction items using List.reverseRecOn with
  | nil =>
      constructor
      case counted => exact fun _ => rfl
      case written => rfl
      case observed => rfl
      case log => rfl
      case recorded =>
        exact fun record hrecord => absurd hrecord List.not_mem_nil
  | append_singleton items item ih =>
      rw [List.foldl_concat]
      exact ih.runStep item

end PredictiveAutoscaler.Observer
