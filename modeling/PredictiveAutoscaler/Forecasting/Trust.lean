/-
Trust: the gates of a candidate, the hysteresis of its trust, the selection
over the trusted candidates and the verdict of one evaluation.  The state
holds one hysteresis for each model and the selection; an evaluation returns
the state that the next one is given.
-/
import PredictiveAutoscaler.Forecasting.Evidence

namespace PredictiveAutoscaler.Forecasting

open Std (ExtTreeMap)

/-- What an evaluation is given of one candidate. -/
structure CandidateInputs where
  model : Model
  ledger : Ledger
  boundAvailable : Bool
  calibrationWindows : ℕ
  minCalibrationWindows : ℕ
  historySeconds : ℤ
  requiredHistorySeconds : ℕ
  dataFresh : Bool
  fitAgeSeconds : Option ℤ := none
deriving DecidableEq

/-- The part of an evaluation's input that the candidates share. -/
structure Global where
  now : ℕ
  leadSeconds : ℕ
  nominalMiscoverage : ℚ
  identityOk : Bool := true
  storeHealthy : Bool := true
  replaySuitePassed : Bool := false
  startupBudgetValid : Bool := false
deriving DecidableEq, Repr

structure Gates where
  identity : Bool
  state : Bool
  data : Bool
  history : Bool
  calibration : Bool
  prospective : Bool
  coverage : Bool
  availability : Bool
deriving DecidableEq, Repr

/-- All eight gates hold. -/
def Gates.all (gates : Gates) : Bool :=
  gates.identity && gates.state && gates.data && gates.history &&
    gates.calibration && gates.prospective && gates.coverage &&
    gates.availability

/-- The diagnostics an evaluation reports beside the gates. -/
structure GateInfo where
  coverageGate : Option ℚ
  coverageAll : Option ℚ
  availability : Option ℚ
  predictionAvailability : Option ℚ
  overdue : ℕ
  prospective : ℕ
  replay : ℕ
  eta : Option ℤ
deriving DecidableEq, Repr

/-- A ratio that exists and is at least `floor`. -/
def atLeast (floor : ℚ) (r : Option ℚ) : Bool :=
  r.any fun r => decide (floor ≤ r)

/-- The coverage threshold: the nominal coverage less the tolerance. -/
def coverageThreshold (g : Global) (t : TrustSettings) : ℚ :=
  binary64 (binary64 (1 - g.nominalMiscoverage) -
    binary64 (t.coverageToleranceBps / bps))

/-- Every UTC day with enough outcomes meets the threshold. -/
def worstDayOk (ledger : Ledger) (g : Global) (t : TrustSettings) : Bool :=
  (ledger.dailyGateCoverage g.now (7 * day)).all fun (_, bd, cv) =>
    decide (t.worstDayMinOutcomes ≤ bd →
      coverageThreshold g t ≤ binary64 (cv / bd))

/-- No run of misses, and the recent bounds meet the threshold once there are
enough of them. -/
def acuteOk (ledger : Ledger) (g : Global) (t : TrustSettings) : Bool :=
  decide (ledger.consecutiveMisses < t.acuteConsecutiveMisses ∧
    (ledger.recent.length < t.acuteRecentWindows ∨
      coverageThreshold g t ≤
        binary64 (ledger.recent.sum / ledger.recent.length)))

/-- Enough shadow time since the first prospective bound, and enough
prospective gate bounds. -/
def shadowOk (ledger : Ledger) (g : Global) (t : TrustSettings) : Bool :=
  ledger.firstProspective.any (fun first =>
      decide (((t.minShadowHours * hour : ℕ) : ℤ) ≤ (g.now : ℤ) - first)) &&
    decide (t.minProspectiveWindows ≤ (ledger.windowCounts g.now (7 * day)).gBd)

/-- The advisory time left; low coverage with enough windows has none. -/
def gateEta (ci : CandidateInputs) (g : Global) (t : TrustSettings)
    (coverage : Bool) : Option ℤ :=
  let gBd := (ci.ledger.windowCounts g.now (7 * day)).gBd
  let missing : ℤ :=
    max (max ((ci.minCalibrationWindows : ℤ) - ci.calibrationWindows)
      ((t.minProspectiveWindows : ℤ) - gBd)) 0
  let shadowLeft : ℤ := t.minShadowHours * hour -
    ((ci.ledger.firstProspective.map fun first =>
      (g.now : ℤ) - first).getD 0)
  if !coverage && decide (t.minProspectiveWindows ≤ gBd) then none
  else some (max (max (missing * g.leadSeconds) shadowLeft) 0)

/-- `candidate_gates`. -/
def candidateGates (ci : CandidateInputs) (g : Global) (t : TrustSettings) :
    Gates × GateInfo :=
  let w7 := ci.ledger.windowCounts g.now (7 * day)
  let av := ci.ledger.availability g.now
  let covGate := ratio w7.gCv w7.gBd
  let freshFit := ci.fitAgeSeconds.all fun age =>
    decide (age ≤ ((t.maxFitAgeHours * hour : ℕ) : ℤ))
  let floor := binary64 (t.minAvailabilityBps / bps)
  let coverage := atLeast (coverageThreshold g t) covGate &&
    worstDayOk ci.ledger g t && acuteOk ci.ledger g t
  ({ identity := g.identityOk
     state := g.storeHealthy
     data := ci.dataFresh && freshFit
     history := decide ((ci.requiredHistorySeconds : ℤ) ≤ ci.historySeconds)
     calibration := ci.boundAvailable
     prospective := shadowOk ci.ledger g t
     coverage
     availability := atLeast floor av.outcomes && atLeast floor av.predictions },
   { coverageGate := covGate
     coverageAll := ratio w7.aCv w7.aBd
     availability := av.outcomes
     predictionAvailability := av.predictions
     overdue := av.overdue
     prospective := w7.gBd
     replay := w7.rBd
     eta := gateEta ci g t coverage })

/-- `_GATE_REASON`: the reason of the first gate that fails. -/
def Gates.reason (gates : Gates) : Reason :=
  if !gates.identity then .identityMismatch
  else if !gates.state then .stateUnavailable
  else if !gates.data then .dataUnavailable
  else if !gates.history then .historyInsufficient
  else if !gates.calibration then .calibrationInsufficient
  else if !gates.prospective then .shadowInsufficient
  else if !gates.coverage then .coverageLow
  else if !gates.availability then .dataUnavailable
  else .ready

/-- The trust of one candidate over evaluations. -/
structure Hysteresis where
  epoch : EvidenceKey
  recipe : String
  trusted : Bool := false
  everTrusted : Bool := false
  demotedAt : Option ℕ := none
  boundsAtDemotion : ℕ := 0
  gatesOkSince : Option ℕ := none
deriving DecidableEq, Repr

/-- `new_hysteresis`. -/
def Hysteresis.fresh (recipe : String) (epoch : EvidenceKey) : Hysteresis :=
  { epoch, recipe }

/-- The waiting time and the new bounds that a demoted candidate needs. -/
def Hysteresis.regained (h : Hysteresis) (since bounds now : ℕ)
    (t : TrustSettings) : Bool :=
  decide (((t.repromotionHours * hour : ℕ) : ℤ) ≤ (now : ℤ) - since) &&
    h.demotedAt.any (fun demoted => decide (demoted < now)) &&
    decide ((t.repromotionWindows : ℤ) ≤ (bounds : ℤ) - h.boundsAtDemotion)

/-- The hysteresis transition of one evaluation; a state of another epoch or
recipe starts over. -/
def Hysteresis.step (hyst : Hysteresis) (gatesOk : Bool) (ledger : Ledger)
    (now : ℕ) (t : TrustSettings) : Hysteresis :=
  let h :=
    if (hyst.epoch, hyst.recipe) = (ledger.epoch, ledger.recipe) then hyst
    else Hysteresis.fresh ledger.recipe ledger.epoch
  let bounds := ledger.totals.prospectiveGateBounded
  if h.trusted then
    if gatesOk then h
    else
      { h with
        trusted := false, demotedAt := some now, boundsAtDemotion := bounds
        gatesOkSince := none }
  else if !gatesOk then
    { h with gatesOkSince := none }
  else
    let since := h.gatesOkSince.getD now
    let held := { h with gatesOkSince := some since }
    if !h.everTrusted then
      { held with trusted := true, everTrusted := true }
    else if h.regained since bounds now t then
      { held with trusted := true }
    else held

structure CandidateVerdict where
  recipe : String
  gates : Gates
  reason : Reason
  phase : Phase
  trusted : Bool
  info : GateInfo
  etaSeconds : Option ℤ
deriving DecidableEq, Repr

/-- The verdict of one candidate, given the hysteresis after its step. -/
def candidateVerdict (ci : CandidateInputs) (g : Global) (t : TrustSettings)
    (h : Hysteresis) : CandidateVerdict :=
  let gates := (candidateGates ci g t).1
  let info := (candidateGates ci g t).2
  { recipe := ci.ledger.recipe
    gates
    reason :=
      if gates.reason = .ready ∧ h.trusted = false then .shadowInsufficient
      else gates.reason
    phase :=
      if h.trusted then .trusted
      else if h.everTrusted then .degraded
      else if !gates.history then .collecting
      else if !gates.calibration then .calibrating
      else .shadow
    trusted := h.trusted
    info
    etaSeconds := if h.trusted then none else info.eta }

/-- Same-policy replay costs, challenger and baseline; a value that is not
finite is `none`. -/
structure ReplayCosts where
  shortage : Option (Option ℚ × Option ℚ) := none
  replicaTime : Option (Option ℚ × Option ℚ) := none
deriving DecidableEq, Repr

/-- One cost of the challenger is within the ratio of the baseline's. -/
def costOk (t : TrustSettings) : Option (Option ℚ × Option ℚ) → Bool
  | some (some chal, some base) =>
      decide (chal ≤ binary64 (binary64 (t.challengerCostRatioBps / bps) * base))
  | _ => false

/-- `_paired_ok`. -/
def pairedOk (pairs : Option HeldPairs) (now : ℕ) (t : TrustSettings)
    (costs : Option ReplayCosts) (lossRatioBps : ℕ) : Bool :=
  match pairs, costs with
  | some pairs, some costs =>
      let ps := pairs.sums now (7 * day)
      decide (t.challengerMinPairs ≤ ps.n ∧
        (t.challengerMinHours * hour : ℕ) ≤ ps.span ∧ 0 < ps.base ∧
        binary64 (ps.chal / ps.n) ≤
          binary64 (binary64 (binary64 (lossRatioBps / bps) * ps.base) /
            ps.n)) &&
      costOk t costs.shortage && costOk t costs.replicaTime
  | _, _ => false

/-- The entry test of a challenger over the naive. -/
def challengerPromoted (pairs : Option HeldPairs) (now : ℕ) (t : TrustSettings)
    (costs : Option ReplayCosts) : Bool :=
  pairedOk pairs now t costs t.challengerLossRatioBps

/-- The exit band of a selected challenger. -/
def challengerRetained (pairs : Option HeldPairs) (now : ℕ) (t : TrustSettings)
    (costs : Option ReplayCosts) : Bool :=
  pairedOk pairs now t costs t.challengerExitLossRatioBps

/-- The selection state; `entrySince` maps a challenger and its recipe to the
instant since which its entry test has held. -/
structure Selection where
  epoch : Option EvidenceKey
  selected : Option Model := none
  recipe : Option String := none
  since : Option ℕ := none
  switches : ℕ := 0
  entrySince : ExtTreeMap String ℕ := ∅
deriving DecidableEq

/-- `FALLBACK_ORDER`. -/
def fallbackOrder : List Model := [.lstm, .statistical, .seasonalNaive]

def Model.name : Model → String
  | .lstm => "lstm"
  | .statistical => "statistical"
  | .seasonalNaive => "seasonal_naive"

def entryKey (model : Model) (recipe : String) : String :=
  model.name ++ ":" ++ recipe

section Select

variable (verdicts : Model → Option CandidateVerdict)
  (pairs : Model → Option HeldPairs) (costs : Model → Option ReplayCosts)
  (now : ℕ) (t : TrustSettings)

def naiveOk : Bool := (verdicts .seasonalNaive).any (·.trusted)

/-- The entry flag of each challenger present. -/
def entryFlags (model : Model) : Option Bool :=
  if model = .seasonalNaive then none
  else (verdicts model).map fun _ =>
    naiveOk verdicts && challengerPromoted (pairs model) now t (costs model)

/-- Start, keep or drop the entry instant of one challenger. -/
def noteEntry (entries : ExtTreeMap String ℕ) (model : Model) :
    ExtTreeMap String ℕ :=
  match verdicts model, entryFlags verdicts pairs costs now t model with
  | some v, some true =>
      entries.alter (entryKey model v.recipe) fun since =>
        some (since.getD now)
  | some v, some false => entries.erase (entryKey model v.recipe)
  | _, _ => entries

/-- The selected model, while it is safe and within the exit band. -/
def keptSelection (sel : Selection) : Option Model :=
  sel.selected.filter fun current =>
    ((verdicts current).any fun v =>
        v.trusted && decide (some v.recipe = sel.recipe)) &&
      (decide (current = .seasonalNaive) || (naiveOk verdicts &&
        challengerRetained (pairs current) now t (costs current)))

/-- One model of the fallback order can be selected: the naive when it is
trusted, a challenger when it is kept or its entry test has held. -/
def selectable (entries : ExtTreeMap String ℕ) (current : Option Model)
    (model : Model) : Bool :=
  (verdicts model).any fun v =>
    v.trusted &&
      (decide (model = .seasonalNaive) ||
        (decide (current = some model) && naiveOk verdicts) ||
        entries[entryKey model v.recipe]?.any fun since =>
          decide (((t.repromotionHours * hour : ℕ) : ℤ) ≤ (now : ℤ) - since))

/-- The new selection state, with selection hysteresis. -/
def Selection.next (sel : Selection) : Selection :=
  let entries := fallbackOrder.foldl
    (noteEntry verdicts pairs costs now t) sel.entrySince
  let current := keptSelection verdicts pairs costs now t sel
  let target := fallbackOrder.find?
    (selectable verdicts now t entries current)
  if target = sel.selected then { sel with entrySince := entries }
  else
    { sel with
      selected := target
      recipe := target.bind fun model => (verdicts model).map (·.recipe)
      since := some now
      switches := sel.switches + 1
      entrySince := entries }

end Select

structure Verdict where
  selected : Option Model
  phase : Phase
  reason : Reason
  predictionReady : Bool
  candidates : Model → Option CandidateVerdict
  promoted : Model → Option Bool

structure TrustState where
  models : Model → Option Hysteresis := fun _ => none
  selection : Option Selection := none
deriving DecidableEq

/-- The candidates by model; a repeated model keeps its last entry. -/
def byModel (cands : List CandidateInputs) (model : Model) :
    Option CandidateInputs :=
  cands.reverse.find? fun ci => ci.model = model

/-- The paired evidence of a present challenger belongs to the candidates'
epoch, names the challenger and the naive and carries both recipes. -/
def pairIdentityOk (cands : List CandidateInputs)
    (pairs : Model → Option HeldPairs) (model : Model) : Bool :=
  match byModel cands model, pairs model with
  | some ci, some held =>
      let p := held.pairs
      decide (model = .seasonalNaive ∨
        (some p.epoch = cands.head?.map (·.ledger.epoch) ∧
          p.challenger = model ∧ p.baseline = .seasonalNaive ∧
          p.recipe? model = some ci.ledger.recipe ∧
          p.recipe? .seasonalNaive =
            (byModel cands .seasonalNaive).map (·.ledger.recipe)))
  | _, _ => true

/-- The hysteresis of each model present, after its step; a model that is
absent has none. -/
def stepModels (cands : List CandidateInputs) (hyst : TrustState) (g : Global)
    (t : TrustSettings) (model : Model) : Option Hysteresis :=
  (byModel cands model).map fun ci =>
    ((hyst.models model).getD
        (Hysteresis.fresh ci.ledger.recipe ci.ledger.epoch)).step
      (candidateGates ci g t).1.all ci.ledger g.now t

def Reason.index : Reason → ℕ
  | .identityMismatch => 0
  | .stateUnavailable => 1
  | .dataUnavailable => 2
  | .historyInsufficient => 3
  | .calibrationInsufficient => 4
  | .shadowInsufficient => 5
  | .coverageLow => 6
  | .leadInsufficient => 7
  | .replayGateMissing => 8
  | .ready => 9

/-- The candidate furthest along, the first of the fallback order on ties. -/
def furthest (verdicts : Model → Option CandidateVerdict) :
    Option CandidateVerdict :=
  (fallbackOrder.filterMap verdicts).foldl (fun best v =>
    match best with
    | none => some v
    | some b => if b.reason.index < v.reason.index then some v else some b) none

/-- The phase and the reason of a verdict that selects nothing. -/
def unselectedReport (verdicts : Model → Option CandidateVerdict) :
    Phase × Reason :=
  match furthest verdicts with
  | none => (.collecting, .historyInsufficient)
  | some best =>
      if best.trusted then (.shadow, .shadowInsufficient)
      else (best.phase, best.reason)

/-- The reason of a verdict that selects a candidate. -/
def readyReason (g : Global) : Reason :=
  if !g.replaySuitePassed then .replayGateMissing
  else if !g.startupBudgetValid then .leadInsufficient
  else .ready

/-- The selection state an evaluation starts from; a new epoch starts over. -/
def priorSelection (cands : List CandidateInputs) (hyst : TrustState) :
    Selection :=
  let epoch := cands.head?.map (·.ledger.epoch)
  match hyst.selection with
  | some prior => if prior.epoch = epoch then prior else { epoch }
  | none => { epoch }

/-- The verdict and the new state of one autoscaler. -/
def evaluate (cands : List CandidateInputs) (hyst : TrustState) (g : Global)
    (t : TrustSettings) (pairs : Model → Option HeldPairs)
    (costs : Model → Option ReplayCosts) :
    Except Raised (Verdict × TrustState) :=
  let epoch := cands.head?.map (·.ledger.epoch)
  if cands.any fun ci =>
      some ci.ledger.epoch ≠ epoch ∨ ci.ledger.model ≠ ci.model then
    .error (.trustError
      "the candidates' evidence belongs to different epochs or models")
  else
    match fallbackOrder.find? fun model =>
        !pairIdentityOk cands pairs model with
    | some model =>
        .error (.trustError ("the paired evidence of " ++ model.name ++
          " belongs to another epoch, model or recipe"))
    | none =>
        let models := stepModels cands hyst g t
        let verdicts : Model → Option CandidateVerdict := fun model =>
          match byModel cands model, models model with
          | some ci, some h => some (candidateVerdict ci g t h)
          | _, _ => none
        let sel := (priorSelection cands hyst).next verdicts pairs costs g.now t
        let promoted := entryFlags verdicts pairs costs g.now t
        let report : Phase × Reason :=
          if sel.selected.isSome then (.trusted, readyReason g)
          else unselectedReport verdicts
        .ok (⟨sel.selected, report.1, report.2,
            sel.selected.isSome && decide (readyReason g = .ready),
            verdicts, promoted⟩,
          ⟨models, some sel⟩)

end PredictiveAutoscaler.Forecasting
