/-
Window calibration: the scores of the windows on the nonoverlap grid, the
adaptive level and the upper bound of the next window.  The state of one model
belongs to one epoch and one recipe; it applies the records of its matured
windows, each once, in journal order.  The service and the replay share it: the
instants of one are natural numbers, those of the other integers, and their
keys and model names differ.
-/
import Mathlib.Data.List.Sort
import PredictiveAutoscaler.Forecasting.Settings

namespace PredictiveAutoscaler.Forecasting

/-- The working level's unit: `1e-8`. -/
def e8 : ℤ := 100000000

/-- `k = ceil((n + 1)(1 - a))`, in exact integer arithmetic. -/
def rank (n : ℕ) (aE8 : ℤ) : ℤ :=
  -(-((n : ℤ) + 1) * (e8 - aE8) / e8)

/-- The pinball loss of a bound at quantile level one minus the
miscoverage. -/
def pinballRps (y upper miscoverage : ℚ) : ℚ :=
  let tau := binary64 (1 - miscoverage)
  if upper ≤ y then
    binary64 (tau * binary64 (y - upper))
  else
    binary64 (binary64 (1 - tau) * binary64 (upper - y))

/-- `xs[-n:]`. -/
def lastSlice {α : Type} (n : ℕ) (xs : List α) : List α :=
  if n = 0 then xs else xs.drop (xs.length - n)

theorem lastSlice_sublist {α : Type} (n : ℕ) (xs : List α) :
    (lastSlice n xs).Sublist xs := by
  unfold lastSlice
  split
  · exact List.Sublist.refl xs
  · exact List.drop_sublist _ xs

/-- How a window closed: `status` with `y_rps`, the exact maximum that every
scored window carries and no other does. -/
inductive Truth
  | scored (yRps : ℚ)
  | unscorable
deriving DecidableEq, Repr

/-- Cumulative counts of one cohort, with its loss sum: absolute errors over
all windows, pinball losses over the gate windows. -/
structure CalibrationCounts where
  scored : ℕ := 0
  unscorable : ℕ := 0
  bounded : ℕ := 0
  covered : ℕ := 0
  lossSumRps : ℚ := 0
deriving DecidableEq, Repr

inductive BoundUnavailable
  | calibrationInsufficient
  | rankOverflow
deriving DecidableEq, Repr

/-- The details of a bound: what it was computed from, or why there is
none. -/
structure BoundInfo where
  n : ℕ
  rank : ℤ
  workingMiscoverage : ℚ
  unavailable : Option BoundUnavailable := none
  quantileRps : Option ℚ := none
deriving DecidableEq, Repr

/-- Whole instants and spans of time. -/
class Instant (T : Type) where
  toInt : T → ℤ

instance : Instant ℕ := ⟨Nat.cast⟩

instance : Instant ℤ := ⟨id⟩

open Instant (toInt)

/-- The windows of origins on the lead's own grid do not overlap. -/
def inCohort {T : Type} [Instant T] (decisionOrigin leadSeconds : T) : Bool :=
  toInt decisionOrigin % toInt leadSeconds == 0

theorem inCohort_nat {decisionOrigin leadSeconds : ℕ} :
    inCohort decisionOrigin leadSeconds = true ↔
      decisionOrigin % leadSeconds = 0 := by
  unfold inCohort
  rw [beq_iff_eq]
  exact Int.natCast_inj

namespace Calibration

variable {T Epoch Name Id : Type} [LinearOrder T] [Instant T]

/-- A consistent policy; an inconsistent one cannot be built. -/
structure Policy (T : Type) [Instant T] where
  leadSeconds : T
  nominalBps : ℕ
  etaBps : ℕ
  minBps : ℕ
  maxBps : ℕ
  minWindows : ℕ
  maxScores : ℕ
  retentionSeconds : T
  level_bounds : 0 < minBps ∧ minBps ≤ nominalBps ∧ nominalBps ≤ maxBps ∧
    maxBps < bps
  leadSeconds_pos : 0 < toInt leadSeconds
  minWindows_pos : 1 ≤ minWindows
  minWindows_le : minWindows ≤ maxScores
  etaBps_le : etaBps ≤ bps

def Policy.nominalRatio (policy : Policy T) : ℚ :=
  binary64 (policy.nominalBps / bps)

/-- One matured window of one model, as calibration sees it. -/
structure Record (T Epoch Name Id : Type) where
  seq : ℕ
  epoch : Epoch
  model : Name
  recipe : String
  issuanceId : Id
  decisionOrigin : T
  windowEnd : T
  baseRps : ℚ
  upperRps : Option ℚ
  truth : Truth
deriving DecidableEq

structure State (T Epoch Name : Type) where
  epoch : Epoch
  model : Name
  recipe : String
  aE8 : ℤ
  scores : List (T × ℚ) := []
  lastSeq : ℕ := 0
  newestWindowEnd : Option T := none
  all : CalibrationCounts := {}
  gate : CalibrationCounts := {}
  levelUpdates : ℕ := 0
  atBound : ℕ := 0
deriving DecidableEq, Repr

/-- The state of a model that has no record yet. -/
def State.initial (policy : Policy T) (epoch : Epoch) (model : Name)
    (recipe : String) : State T Epoch Name :=
  { epoch, model, recipe, aE8 := policy.nominalBps * bps }

/-- The cohort scores usable at `now`. -/
def State.bufferedScores (state : State T Epoch Name)
    (policy : Policy T) (now : T) : List ℚ :=
  lastSlice policy.maxScores
    ((state.scores.filter fun score =>
      toInt now - toInt policy.retentionSeconds < toInt score.1 ∧
        score.1 ≤ now).map
        Prod.snd)

/-- The upper bound of a window whose point maximum is `baseRps`: the score of
the rank above the base, or none while the buffer is too short. -/
def State.upperBound (state : State T Epoch Name)
    (policy : Policy T) (baseRps : ℚ) (now : T) :
    Except Raised (Option ℚ × BoundInfo) :=
  if baseRps < 0 then
    .error (.calibrationError
      "the point maximum must be a finite, non-negative rate")
  else
    let scores := (state.bufferedScores policy now).insertionSort (· ≤ ·)
    let n := scores.length
    let k := rank n state.aE8
    let info : BoundInfo :=
      { n, rank := k, workingMiscoverage := binary64 (state.aE8 / e8) }
    if n < policy.minWindows then
      .ok (none, { info with unavailable := some .calibrationInsufficient })
    else if n < k then
      .ok (none, { info with unavailable := some .rankOverflow })
    else
      let q := scores.getD (k - 1).toNat 0
      .ok (some (max 0 (binary64 (baseRps + q))),
        { info with quantileRps := some q })

/-- A window that closed without its truth. -/
def State.applyUnscorable (state : State T Epoch Name)
    (record : Record T Epoch Name Id) (policy : Policy T) :
    State T Epoch Name :=
  let gate := state.gate
  { state with
    lastSeq := record.seq
    all := { state.all with unscorable := state.all.unscorable + 1 }
    gate :=
      if inCohort record.decisionOrigin policy.leadSeconds then
        { gate with unscorable := gate.unscorable + 1 }
      else gate }

/-- The diagnostics over every scored window. -/
def State.countScored (state : State T Epoch Name)
    (record : Record T Epoch Name Id) (y : ℚ) : State T Epoch Name :=
  let all :=
    { state.all with
      scored := state.all.scored + 1
      lossSumRps := binary64
        (state.all.lossSumRps + |binary64 (y - record.baseRps)|) }
  { state with
    lastSeq := record.seq
    all :=
      match record.upperRps with
      | none => all
      | some u =>
          { all with
            bounded := all.bounded + 1
            covered := all.covered + if y ≤ u then 1 else 0 } }

/-- `newest_window_end or window_end`: a newest end of zero counts as none. -/
def State.newest (state : State T Epoch Name) (windowEnd : T) : T :=
  match state.newestWindowEnd with
  | none => windowEnd
  | some newest => if toInt newest = 0 then windowEnd else newest

/-- A cohort window enters the buffer: in its window-end place, within the
retention before the newest window, the newest `maxScores` kept. -/
def State.pushScore (state : State T Epoch Name)
    (record : Record T Epoch Name Id) (policy : Policy T) (y : ℚ) :
    State T Epoch Name :=
  let newest := max record.windowEnd (state.newest record.windowEnd)
  let sorted := (state.scores ++
    [(record.windowEnd, binary64 (y - record.baseRps))]).insertionSort
      fun a b => a.1 ≤ b.1
  { state with
    gate := { state.gate with scored := state.gate.scored + 1 }
    newestWindowEnd := some newest
    scores := lastSlice policy.maxScores
      (sorted.filter fun score =>
        toInt newest - toInt policy.retentionSeconds < toInt score.1) }

/-- Only a bound that was issued moves the level. -/
def State.updateLevel (state : State T Epoch Name)
    (policy : Policy T) (y u : ℚ) : State T Epoch Name :=
  let gate := state.gate
  let miss : ℕ := if u < y then 1 else 0
  let a := state.aE8 + policy.etaBps * ((policy.nominalBps : ℤ) - miss * bps)
  let lo : ℤ := policy.minBps * bps
  let hi : ℤ := policy.maxBps * bps
  { state with
    gate :=
      { gate with
        bounded := gate.bounded + 1
        covered := gate.covered + (1 - miss)
        lossSumRps := binary64
          (gate.lossSumRps + pinballRps y u policy.nominalRatio) }
    atBound := state.atBound + if a ≤ lo ∨ hi ≤ a then 1 else 0
    aE8 := min hi (max lo a)
    levelUpdates := state.levelUpdates + 1 }

/-- A scored window. -/
def State.applyScored (state : State T Epoch Name)
    (record : Record T Epoch Name Id) (policy : Policy T) (y : ℚ) :
    State T Epoch Name :=
  let counted := state.countScored record y
  if inCohort record.decisionOrigin policy.leadSeconds then
    let pushed := counted.pushScore record policy y
    match record.upperRps with
    | none => pushed
    | some u => pushed.updateLevel policy y u
  else counted

/-- The state after one record of its own; unchanged when the record was
already applied. -/
def State.applied (state : State T Epoch Name)
    (record : Record T Epoch Name Id) (policy : Policy T) :
    State T Epoch Name :=
  if record.seq ≤ state.lastSeq then state
  else
    match record.truth with
    | .unscorable => state.applyUnscorable record policy
    | .scored y => state.applyScored record policy y

/-- Apply one matured record, or refuse one of another epoch, model or
recipe. -/
def State.apply [DecidableEq Epoch] [DecidableEq Name]
    (state : State T Epoch Name)
    (record : Record T Epoch Name Id) (policy : Policy T) :
    Except Raised (State T Epoch Name) :=
  if record.epoch ≠ state.epoch then
    .error (.calibrationError
      "the record belongs to another calibration epoch")
  else if (record.model, record.recipe) ≠ (state.model, state.recipe) then
    .error (.calibrationError "the record belongs to another model or recipe")
  else .ok (state.applied record policy)

end Calibration

/-- The policy, the records and the states of the service. -/
abbrev CalibrationPolicy := Calibration.Policy ℕ

abbrev CalibrationRecord := Calibration.Record ℕ EvidenceKey Model IssuanceKey

abbrev CalibrationState := Calibration.State ℕ EvidenceKey Model

/-- The policy of settings and a lead; the constructor of an inconsistent one
raises. -/
def CalibrationPolicy.fromSettings (settings : ForecastSettings)
    (leadSeconds : ℕ) : Except Raised CalibrationPolicy :=
  let c := settings.calibration
  let nominal := settings.risk.miscoverageBps
  if h : (0 < c.minMiscoverageBps ∧ c.minMiscoverageBps ≤ nominal ∧
      nominal ≤ c.maxMiscoverageBps ∧ c.maxMiscoverageBps < bps) ∧
      0 < leadSeconds ∧ 1 ≤ c.minWindows ∧ c.minWindows ≤ c.maxScores ∧
      c.etaBps ≤ bps then
    .ok ⟨leadSeconds, nominal, c.etaBps, c.minMiscoverageBps,
      c.maxMiscoverageBps, c.minWindows, c.maxScores,
      c.retentionDays * day, h.1, Int.natCast_pos.mpr h.2.1,
      h.2.2.1, h.2.2.2.1, h.2.2.2.2⟩
  else
    .error (.valueError "inconsistent calibration policy")

end PredictiveAutoscaler.Forecasting
