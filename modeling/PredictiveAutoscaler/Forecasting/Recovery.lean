/-
Recovery of an epoch's state: the latest checkpoint, then every later issuance,
then every later outcome, each folded once.  A refusal is decided by the
journal's rows alone, and an outcome commutes with the issuances after it, so
the recovered state does not depend on when the service recovered, checkpointed
or crashed.
-/
import Mathlib.Data.Fintype.Pi
import PredictiveAutoscaler.FoldPasses
import PredictiveAutoscaler.Forecasting.Confluence
import PredictiveAutoscaler.Forecasting.Journal

namespace PredictiveAutoscaler.Forecasting

/-- The recipes of a service version. -/
structure Recipes where
  naive : String
  e1 : String
deriving DecidableEq, Repr

/-- The issuances and the outcomes of a store, in commit order. -/
structure Journal where
  issuances : List Issuance := []
  outcomes : List Outcome := []

def Journal.issuancesAfter (journal : Journal) (ek : EvidenceKey) (seq : ℕ) :
    List Issuance :=
  journal.issuances.filter fun iss =>
    decide (iss.key.evidenceKey = ek) && decide (seq < iss.seq)

def Journal.outcomesAfter (journal : Journal) (ek : EvidenceKey) (seq : ℕ) :
    List Outcome :=
  Rows.outcomesAfter journal.outcomes ek seq

/-- `get_issuance_by_id`. -/
def Journal.issuance? (journal : Journal) (id : IssuanceKey) :
    Option Issuance :=
  Rows.issuance? journal.issuances id

/-- What a recovery is bound to: the request's settings, its evidence key and
the calibration policy. -/
structure RecoverContext where
  settings : ForecastSettings
  ek : EvidenceKey
  policy : CalibrationPolicy

/-- `_initial`. -/
def EpochState.initial (recipes : Recipes) (ek : EvidenceKey) : EpochState :=
  { epoch := ek
    pairs := Pairs.fresh ek .statistical recipes.e1 recipes.naive }

section Fold

variable (ctx : RecoverContext)

/-- The state of a model without evidence. -/
def freshModel (model : Model) (recipe : String) : ModelState :=
  ⟨recipe, .initial ctx.policy ctx.ek model recipe,
    .fresh ctx.ek model recipe ctx.settings.sampleIntervalSeconds⟩

/-- `_model_state`: the model's state; it starts over under another recipe. -/
def EpochState.modelState (state : EpochState) (model : Model)
    (recipe : String) : ModelState :=
  match state.models model with
  | none => freshModel ctx model recipe
  | some m => if m.recipe = recipe then m else freshModel ctx model recipe

/-- `state["models"][model] = m`. -/
def EpochState.setModel (state : EpochState) (model : Model) (m : ModelState) :
    EpochState :=
  { state with models := Function.update state.models model (some m) }

/-- What the ledger of a candidate notes of an issuance. -/
def issuanceNote (iss : Issuance) (model : Model) (c : IssuedCandidate) :
    IssuanceNote where
  seq := iss.seq
  epoch := ctx.ek
  model := model
  recipe := c.recipe
  origin := iss.key.decisionOrigin
  windowEnd := iss.key.windowEnd
  deadline := iss.key.windowEnd + ctx.settings.settlementSeconds +
    ctx.settings.outcomeGraceSeconds
  leadSeconds := ctx.policy.leadSeconds
  mode := iss.bundle.evidenceMode
  bounded := c.upperWindowMaxRps.isSome

/-- Fold one candidate of an issuance. -/
def foldCandidate (iss : Issuance) (state : EpochState) (model : Model) :
    Except Raised EpochState := do
  let c ← iss.bundle.candidate model
  let m := state.modelState ctx model c.recipe
  let ledger ← m.ledger.noteIssuance (issuanceNote ctx iss model c)
  return state.setModel model { m with ledger }

def foldIssuance (state : EpochState) (iss : Issuance) :
    Except Raised EpochState := do
  let state ← iss.models.foldlM (foldCandidate ctx iss) state
  return { state with lastIssuanceSeq := iss.seq }

/-- Fold the record of an outcome into its model's state and the pairs. -/
def foldRecord (state : EpochState) (r : EvidenceRecord) :
    Except Raised EpochState := do
  let c := r.cal
  let lead := ctx.policy.leadSeconds
  let nominal := ctx.policy.nominalRatio
  let m := state.modelState ctx c.model c.recipe
  let calibration ← m.calibration.apply c ctx.policy
  let ledger ← m.ledger.noteOutcome r lead
    ctx.settings.trust.acuteRecentWindows nominal
  let pairs ← state.pairs.notePair r lead nominal
  return { state.setModel c.model { m with calibration, ledger } with
    pairs, lastOutcomeSeq := c.seq }

/-- The evidence record of an outcome, from the issuance it names. -/
def Journal.record (journal : Journal) (o : Outcome) :
    Except Raised EvidenceRecord :=
  match journal.issuance? o.issuanceId with
  | none => .error (.attributeError "no issuance of this identifier")
  | some iss => EvidenceRecord.fromJournal iss o

def foldOutcome (journal : Journal) (state : EpochState) (o : Outcome) :
    Except Raised EpochState := do
  foldRecord ctx state (← journal.record o)

/-- `_recover`: every issuance after the state's last one, then every outcome
after its last one. -/
def recover (journal : Journal) (state : EpochState) :
    Except Raised EpochState :=
  twoPass (foldIssuance ctx) (foldOutcome ctx journal) state
    (journal.issuancesAfter ctx.ek state.lastIssuanceSeq)
    (journal.outcomesAfter ctx.ek state.lastOutcomeSeq)

end Fold

/-- Evidence of this epoch, this model and the state's own recipe. -/
structure ModelState.Identified (m : ModelState) (ek : EvidenceKey)
    (model : Model) : Prop where
  calibration : (m.calibration.epoch, m.calibration.model,
    m.calibration.recipe) = (ek, model, m.recipe)
  ledger : (m.ledger.epoch, m.ledger.model, m.ledger.recipe) =
    (ek, model, m.recipe)

/-- Every model's state is that of this epoch and model. -/
def EpochState.Identified (state : EpochState) (ek : EvidenceKey) : Prop :=
  ∀ model m, state.models model = some m → m.Identified ek model

@[simp] theorem Ledger.withIssuance_identity (ledger : Ledger)
    (note : IssuanceNote) :
    (ledger.withIssuance note).epoch = ledger.epoch ∧
      (ledger.withIssuance note).model = ledger.model ∧
      (ledger.withIssuance note).recipe = ledger.recipe := by
  unfold Ledger.withIssuance Ledger.addIssuance Ledger.prune
  split
  · exact ⟨rfl, rfl, rfl⟩
  · cases note.mode <;> exact ⟨rfl, rfl, rfl⟩

@[simp] theorem Ledger.withOutcome_identity (ledger : Ledger)
    (r : EvidenceRecord) (lead recentN : ℕ) (nominal : ℚ) :
    (ledger.withOutcome r lead recentN nominal).epoch = ledger.epoch ∧
      (ledger.withOutcome r lead recentN nominal).model = ledger.model ∧
      (ledger.withOutcome r lead recentN nominal).recipe = ledger.recipe := by
  unfold Ledger.withOutcome Ledger.addOutcome Ledger.prune
  split
  · exact ⟨rfl, rfl, rfl⟩
  · cases r.gateBound lead <;> exact ⟨rfl, rfl, rfl⟩

@[simp] theorem CalibrationState.applied_identity (state : CalibrationState)
    (record : CalibrationRecord) (policy : CalibrationPolicy) :
    (state.applied record policy).epoch = state.epoch ∧
      (state.applied record policy).model = state.model ∧
      (state.applied record policy).recipe = state.recipe := by
  unfold Calibration.State.applied
  split
  · exact ⟨rfl, rfl, rfl⟩
  · cases record.truth with
    | unscorable => exact ⟨rfl, rfl, rfl⟩
    | scored y =>
        simp only [Calibration.State.applyScored]
        split
        · cases record.upperRps <;> exact ⟨rfl, rfl, rfl⟩
        · exact ⟨rfl, rfl, rfl⟩

section Pure

variable (ctx : RecoverContext)

/-- Why a candidate of an issuance is refused. -/
def candidateReason (iss : Issuance) (model : Model) : Option Raised :=
  match iss.bundle.candidate model with
  | .error raised => some raised
  | .ok _ => none

/-- A model's state with one of its issuances. -/
def ModelState.withIssuance (m : ModelState) (iss : Issuance) (model : Model)
    (c : IssuedCandidate) : ModelState :=
  { m with ledger := m.ledger.withIssuance (issuanceNote ctx iss model c) }

def addCandidate (iss : Issuance) (state : EpochState) (model : Model) :
    EpochState :=
  match iss.bundle.candidates model with
  | none => state
  | some c =>
      state.setModel model
        ((state.modelState ctx model c.recipe).withIssuance ctx iss model c)

def issuanceReason (iss : Issuance) : Option Raised :=
  iss.models.findSome? (candidateReason iss)

def addIssuance (state : EpochState) (iss : Issuance) : EpochState :=
  { iss.models.foldl (addCandidate ctx iss) state with
    lastIssuanceSeq := iss.seq }

/-- The recipe a service version gives a model. -/
def Recipes.recipe? (recipes : Recipes) : Model → Option String
  | .seasonalNaive => some recipes.naive
  | .statistical => some recipes.e1
  | .lstm => none

/-- A model's state with one of its records. -/
def ModelState.withRecord (m : ModelState) (r : EvidenceRecord) : ModelState :=
  { m with
    calibration := m.calibration.applied r.cal ctx.policy
    ledger := m.ledger.withOutcome r ctx.policy.leadSeconds
      ctx.settings.trust.acuteRecentWindows ctx.policy.nominalRatio }

/-- The epoch's part of a record: the pairs and the cursor. -/
def EpochState.withPair (state : EpochState) (r : EvidenceRecord) :
    EpochState :=
  { state with
    pairs :=
      if state.pairs.takes r.cal then
        state.pairs.withRecord r ctx.policy.leadSeconds ctx.policy.nominalRatio
      else state.pairs
    lastOutcomeSeq := r.cal.seq }

def addRecord (state : EpochState) (r : EvidenceRecord) : EpochState :=
  (state.setModel r.cal.model ((state.modelState ctx r.cal.model
    r.cal.recipe).withRecord ctx r)).withPair ctx r

/-- Why an outcome is refused: it has no record, or its record is of another
recipe than the pairs'. -/
def outcomeReason (recipes : Recipes) (journal : Journal) (o : Outcome) :
    Option Raised :=
  match journal.record o with
  | .error raised => some raised
  | .ok r =>
      if recipes.recipe? r.cal.model = none ∨
          recipes.recipe? r.cal.model = some r.cal.recipe then none
      else
        some (.trustError "the paired evidence belongs to another recipe")

def addOutcome (journal : Journal) (state : EpochState) (o : Outcome) :
    EpochState :=
  match journal.record o with
  | .error _ => state
  | .ok r => addRecord ctx state r

theorem modelState_recipe (state : EpochState) (model : Model)
    (recipe : String) : (state.modelState ctx model recipe).recipe = recipe := by
  unfold EpochState.modelState
  cases state.models model with
  | none => rfl
  | some m =>
      simp only
      split
      · assumption
      · rfl

theorem modelState_identified {state : EpochState}
    (hstate : state.Identified ctx.ek) (model : Model) (recipe : String) :
    (state.modelState ctx model recipe).Identified ctx.ek model := by
  have hfresh : (freshModel ctx model recipe).Identified ctx.ek model :=
    ⟨rfl, rfl⟩
  unfold EpochState.modelState
  cases hm : state.models model with
  | none => exact hfresh
  | some m =>
      simp only
      split
      · exact hstate model m hm
      · exact hfresh

theorem setModel_identified {state : EpochState} {model : Model}
    {m : ModelState} (hstate : state.Identified ctx.ek)
    (hm : m.Identified ctx.ek model) :
    (state.setModel model m).Identified ctx.ek := by
  intro model' m' hm'
  simp only [EpochState.setModel, Function.update_apply] at hm'
  split at hm'
  · rename_i heq
    rw [heq, ← Option.some.inj hm']
    exact hm
  · exact hstate model' m' hm'

/-- On the state of its epoch, a candidate is refused by its bundle alone. -/
theorem foldCandidate_eq {state : EpochState}
    (hstate : state.Identified ctx.ek) (iss : Issuance) (model : Model) :
    foldCandidate ctx iss state model =
        refusing (candidateReason iss) (addCandidate ctx iss) state model ∧
      (addCandidate ctx iss state model).Identified ctx.ek := by
  cases hc : iss.bundle.candidates model with
  | none =>
      simp only [foldCandidate, refusing, candidateReason, Bundle.candidate,
        addCandidate, hc]
      exact ⟨rfl, hstate⟩
  | some c =>
      let m := state.modelState ctx model c.recipe
      have hm : m.Identified ctx.ek model :=
        modelState_identified ctx hstate model c.recipe
      have hrecipe : m.recipe = c.recipe := modelState_recipe ctx state model _
      have hsame : m.ledger.sameIdentity ctx.ek model c.recipe := by
        rw [Ledger.sameIdentity, hm.ledger, hrecipe]
      have hnote : m.ledger.noteIssuance (issuanceNote ctx iss model c) =
          .ok (m.ledger.withIssuance (issuanceNote ctx iss model c)) :=
        if_pos hsame
      constructor
      · simp only [foldCandidate, refusing, candidateReason, Bundle.candidate,
          addCandidate, hc]
        change (m.ledger.noteIssuance _ >>= _) = _
        rw [hnote]
        rfl
      · simp only [addCandidate, hc]
        refine setModel_identified ctx hstate ⟨hm.calibration, ?_⟩
        simpa [ModelState.withIssuance] using hm.ledger

/-- On the state of its epoch, an issuance is refused by its bundle alone. -/
theorem foldIssuance_eq {state : EpochState}
    (hstate : state.Identified ctx.ek) (iss : Issuance) :
    foldIssuance ctx state iss =
        refusing issuanceReason (addIssuance ctx) state iss ∧
      (addIssuance ctx state iss).Identified ctx.ek := by
  have hacts : ActsAs (foldCandidate ctx iss) (candidateReason iss)
      (addCandidate ctx iss) state iss.models := by
    refine actsAs_of_inv (fun s _ => s.Identified ctx.ek) ?_ hstate
    intro s model _ hs
    exact ⟨(foldCandidate_eq ctx hs iss model).1,
      fun _ => (foldCandidate_eq ctx hs iss model).2⟩
  have hfold : ∀ (models : List Model) (s : EpochState),
      s.Identified ctx.ek →
      (models.foldl (addCandidate ctx iss) s).Identified ctx.ek := by
    intro models
    induction models with
    | nil => exact fun s hs => hs
    | cons model rest ih =>
        exact fun s hs => ih _ (foldCandidate_eq ctx hs iss model).2
  refine ⟨?_, hfold iss.models state hstate⟩
  rw [foldIssuance, hacts.foldlM_eq, foldlM_refusing, refusing, issuanceReason]
  cases iss.models.findSome? (candidateReason iss) <;> rfl

/-- The paired evidence of a service version in this epoch. -/
structure PairsOf (recipes : Recipes) (ek : EvidenceKey) (pairs : Pairs) :
    Prop where
  epoch_eq : pairs.epoch = ek
  challenger_eq : pairs.challenger = .statistical
  baseline_eq : pairs.baseline = .seasonalNaive
  challengerRecipe_eq : pairs.challengerRecipe = recipes.e1
  baselineRecipe_eq : pairs.baselineRecipe = recipes.naive

theorem PairsOf.recipe?_eq {recipes : Recipes} {ek : EvidenceKey}
    {pairs : Pairs} (h : PairsOf recipes ek pairs) (model : Model) :
    pairs.recipe? model = recipes.recipe? model := by
  unfold Pairs.recipe? Recipes.recipe?
  rw [h.baseline_eq, h.challenger_eq, h.challengerRecipe_eq,
    h.baselineRecipe_eq]
  cases model <;> rfl

/-- A record that the pairs have not seen is refused by its recipe alone. -/
theorem PairsOf.notePair_eq {recipes : Recipes} {ek : EvidenceKey}
    {pairs : Pairs} (h : PairsOf recipes ek pairs) {r : EvidenceRecord}
    (hepoch : r.cal.epoch = ek) (hseq : pairs.lastSeq < r.cal.seq) (lead : ℕ)
    (nominal : ℚ) :
    pairs.notePair r lead nominal =
      if recipes.recipe? r.cal.model = none ∨
          recipes.recipe? r.cal.model = some r.cal.recipe then
        .ok (if pairs.takes r.cal then pairs.withRecord r lead nominal
          else pairs)
      else
        .error (.trustError
          "the paired evidence belongs to another recipe") := by
  simp only [Pairs.notePair, Pairs.takes, h.recipe?_eq, h.epoch_eq, hepoch,
    hseq, decide_true, Bool.true_and, Bool.and_true]
  cases recipes.recipe? r.cal.model with
  | none => simp
  | some recipe =>
      by_cases heq : recipe = r.cal.recipe
      · simp [heq]
      · simp [heq, Ne.symm heq]

theorem Pairs.withRecord_fields (pairs : Pairs) (r : EvidenceRecord)
    (lead : ℕ) (nominal : ℚ) :
    (pairs.withRecord r lead nominal).lastSeq = r.cal.seq ∧
      ∀ recipes ek, PairsOf recipes ek pairs →
        PairsOf recipes ek (pairs.withRecord r lead nominal) := by
  unfold Pairs.withRecord
  cases r.gateBound lead with
  | none => exact ⟨rfl, fun _ _ h => ⟨h.1, h.2, h.3, h.4, h.5⟩⟩
  | some bound =>
      have hmeet : ∀ (p : Pairs) (c : CalibrationRecord) (loss : ℚ),
          (p.meet c loss).lastSeq = p.lastSeq ∧
            ∀ recipes ek, PairsOf recipes ek p →
              PairsOf recipes ek (p.meet c loss) := by
        intro p c loss
        unfold Pairs.meet Pairs.addPair
        simp only
        split
        · exact ⟨rfl, fun _ _ h => ⟨h.1, h.2, h.3, h.4, h.5⟩⟩
        · split_ifs <;> exact ⟨rfl, fun _ _ h => ⟨h.1, h.2, h.3, h.4, h.5⟩⟩
      obtain ⟨hseq, hpairs⟩ := hmeet { pairs with lastSeq := r.cal.seq } r.cal
        (pinballRps bound.1 bound.2 nominal)
      refine ⟨hseq, fun recipes ek h => ?_⟩
      obtain ⟨h1, h2, h3, h4, h5⟩ := hpairs recipes ek ⟨h.1, h.2, h.3, h.4, h.5⟩
      exact ⟨h1, h2, h3, h4, h5⟩

/-- The record of an outcome carries the outcome's own names, and the values
its model issued. -/
theorem Journal.record_eq_ok {journal : Journal} {o : Outcome}
    {r : EvidenceRecord} (h : journal.record o = .ok r) :
    ∃ iss c truth, journal.issuance? o.issuanceId = some iss ∧
      Agrees iss o c truth ∧ r.cal = calibrationRecord iss o c truth ∧
      r.mode = iss.bundle.evidenceMode := by
  unfold Journal.record at h
  cases hiss : journal.issuance? o.issuanceId with
  | none => rw [hiss] at h; cases h
  | some iss =>
      rw [hiss] at h
      simp only [EvidenceRecord.fromJournal] at h
      cases hcal : CalibrationRecord.fromJournal iss o with
      | error raised => rw [hcal] at h; cases h
      | ok cal =>
          rw [hcal] at h
          obtain ⟨c, truth, hagrees, rfl⟩ :=
            CalibrationRecord.fromJournal_eq_ok_iff.mp hcal
          refine ⟨iss, c, truth, rfl, hagrees, ?_⟩
          cases hpayload : o.payload with
          | unscorable p =>
              rw [hpayload] at h
              cases h
              exact ⟨rfl, rfl⟩
          | scored p =>
              rw [hpayload] at h
              simp only [Bundle.candidate, hagrees.candidate_eq] at h
              change (if _ then _ else _) = _ at h
              split at h
              · cases h
              · cases h
                exact ⟨rfl, rfl⟩

/-- A state that can fold the outcomes to come: its epoch's own, with paired
evidence that has seen none of them. -/
structure ReadyFor (recipes : Recipes) (state : EpochState)
    (outcomes : List Outcome) : Prop where
  identified : state.Identified ctx.ek
  pairs : PairsOf recipes ctx.ek state.pairs
  epoch : ∀ o ∈ outcomes, o.evidenceKey = ctx.ek
  later : ∀ o ∈ outcomes, state.pairs.lastSeq < o.seq
  ordered : outcomes.Pairwise fun a b => a.seq < b.seq

theorem foldRecord_eq {recipes : Recipes} {state : EpochState}
    {r : EvidenceRecord} (hstate : state.Identified ctx.ek)
    (hpairs : PairsOf recipes ctx.ek state.pairs)
    (hepoch : r.cal.epoch = ctx.ek) (hseq : state.pairs.lastSeq < r.cal.seq) :
    foldRecord ctx state r =
        (if recipes.recipe? r.cal.model = none ∨
            recipes.recipe? r.cal.model = some r.cal.recipe then
          .ok (addRecord ctx state r)
        else
          .error (.trustError
            "the paired evidence belongs to another recipe")) ∧
      (addRecord ctx state r).Identified ctx.ek ∧
      PairsOf recipes ctx.ek (addRecord ctx state r).pairs ∧
      (addRecord ctx state r).pairs.lastSeq ≤ r.cal.seq := by
  let m := state.modelState ctx r.cal.model r.cal.recipe
  have hm : m.Identified ctx.ek r.cal.model :=
    modelState_identified ctx hstate _ _
  have hrecipe : m.recipe = r.cal.recipe := modelState_recipe ctx state _ _
  obtain ⟨hcalEpoch, hcalModel, hcalRecipe⟩ :
      m.calibration.epoch = ctx.ek ∧ m.calibration.model = r.cal.model ∧
        m.calibration.recipe = r.cal.recipe := by
    simpa [hrecipe] using hm.calibration
  have happly : m.calibration.apply r.cal ctx.policy =
      .ok (m.calibration.applied r.cal ctx.policy) := by
    simp [Calibration.State.apply, hcalEpoch, hcalModel, hcalRecipe, hepoch]
  have hnote : ∀ lead recentN nominal,
      m.ledger.noteOutcome r lead recentN nominal =
        .ok (m.ledger.withOutcome r lead recentN nominal) := by
    intro lead recentN nominal
    refine if_pos ?_
    rw [Ledger.sameIdentity, hm.ledger, hrecipe, hepoch]
  refine ⟨?_, ?_, ?_, ?_⟩
  · simp only [foldRecord]
    change (m.calibration.apply r.cal ctx.policy >>= _) = _
    rw [happly]
    change (m.ledger.noteOutcome r _ _ _ >>= _) = _
    rw [hnote]
    change (state.pairs.notePair r _ _ >>= _) = _
    rw [hpairs.notePair_eq hepoch hseq]
    by_cases hown : recipes.recipe? r.cal.model = none ∨
        recipes.recipe? r.cal.model = some r.cal.recipe
    · rw [if_pos hown, if_pos hown]
      rfl
    · rw [if_neg hown, if_neg hown]
      rfl
  · refine setModel_identified ctx hstate ⟨?_, ?_⟩
    · simpa [ModelState.withRecord] using hm.calibration
    · simpa [ModelState.withRecord] using hm.ledger
  · change PairsOf recipes ctx.ek (if state.pairs.takes r.cal then _ else _)
    split
    · exact (state.pairs.withRecord_fields r _ _).2 recipes ctx.ek hpairs
    · exact hpairs
  · change Pairs.lastSeq (if state.pairs.takes r.cal then _ else _) ≤ _
    split
    · exact (state.pairs.withRecord_fields r _ _).1.le
    · exact hseq.le

theorem foldOutcome_eq {recipes : Recipes} {journal : Journal}
    {state : EpochState} {o : Outcome} {rest : List Outcome}
    (hready : ReadyFor ctx recipes state (o :: rest)) :
    foldOutcome ctx journal state o =
        refusing (outcomeReason recipes journal) (addOutcome ctx journal)
          state o ∧
      ReadyFor ctx recipes (addOutcome ctx journal state o) rest := by
  obtain ⟨hidentified, hpairs, hepoch, hlater, hordered⟩ := hready
  rw [List.pairwise_cons] at hordered
  cases hrecord : journal.record o with
  | error raised =>
      simp only [foldOutcome, refusing, outcomeReason, addOutcome, hrecord]
      exact ⟨rfl, hidentified, hpairs,
        fun x hx => hepoch x (List.mem_cons_of_mem o hx),
        fun x hx => hlater x (List.mem_cons_of_mem o hx), hordered.2⟩
  | ok r =>
      obtain ⟨iss, c, truth, -, hagrees, hcal, -⟩ :=
        Journal.record_eq_ok hrecord
      have hrepoch : r.cal.epoch = ctx.ek := by
        rw [hcal, ← hepoch o List.mem_cons_self, hagrees.evidenceKey_eq]
        rfl
      have hrseq : r.cal.seq = o.seq := by rw [hcal]; rfl
      obtain ⟨hfold, hnext, hnextPairs, hnextSeq⟩ := foldRecord_eq ctx
        hidentified hpairs hrepoch (hrseq ▸ hlater o List.mem_cons_self)
      simp only [foldOutcome, refusing, outcomeReason, addOutcome, hrecord]
      refine ⟨?_, hnext, hnextPairs,
        fun x hx => hepoch x (List.mem_cons_of_mem o hx),
        fun x hx => ?_, hordered.2⟩
      · change foldRecord ctx state r = _
        rw [hfold]
        split_ifs <;> rfl
      · have hlt := hordered.1 x hx
        omega

theorem modelState_setModel_of_ne {state : EpochState} {model model' : Model}
    (hne : model ≠ model') (m : ModelState) (recipe : String) :
    (state.setModel model' m).modelState ctx model recipe =
      state.modelState ctx model recipe := by
  simp [EpochState.modelState, EpochState.setModel, hne]

theorem modelState_setModel_self {state : EpochState} {model : Model}
    {m : ModelState} {recipe : String} (hrecipe : m.recipe = recipe) :
    (state.setModel model m).modelState ctx model recipe = m := by
  simp [EpochState.modelState, EpochState.setModel, hrecipe]

theorem setModel_setModel (state : EpochState) (model : Model)
    (m m' : ModelState) :
    (state.setModel model m).setModel model m' = state.setModel model m' := by
  simp [EpochState.setModel]

theorem setModel_comm (state : EpochState) {model model' : Model}
    (hne : model ≠ model') (m m' : ModelState) :
    (state.setModel model m).setModel model' m' =
      (state.setModel model' m').setModel model m := by
  simp [EpochState.setModel, Function.update_comm hne]

/-- Both folds of one window's rows meet in one model's state, where the
ledger's folds commute. -/
theorem ModelState.withIssuance_withRecord (m : ModelState) {iss : Issuance}
    {r : EvidenceRecord} (model : Model) (c : IssuedCandidate)
    (hwindow : iss.key.windowEnd ≠ r.cal.windowEnd) :
    (m.withRecord ctx r).withIssuance ctx iss model c =
      (m.withIssuance ctx iss model c).withRecord ctx r := by
  simp only [ModelState.withIssuance, ModelState.withRecord,
    m.ledger.withIssuance_withOutcome (issuanceNote ctx iss model c) r _ _ _
      hwindow]

theorem addCandidate_addRecord {iss : Issuance} {r : EvidenceRecord}
    {model : Model} (hwindow : iss.key.windowEnd ≠ r.cal.windowEnd)
    (hrecipe : ∀ c, iss.bundle.candidates r.cal.model = some c →
      model = r.cal.model → c.recipe = r.cal.recipe) (state : EpochState) :
    addCandidate ctx iss (addRecord ctx state r) model =
      addRecord ctx (addCandidate ctx iss state model) r := by
  cases hc : iss.bundle.candidates model with
  | none => simp only [addCandidate, hc]
  | some c =>
      let m := state.modelState ctx r.cal.model r.cal.recipe
      have hm : m.recipe = r.cal.recipe := modelState_recipe ctx state _ _
      simp only [addCandidate, addRecord, hc]
      by_cases hmodel : model = r.cal.model
      · subst hmodel
        rw [hrecipe c hc rfl]
        change (((state.setModel r.cal.model (m.withRecord ctx r)).setModel
          r.cal.model _).withPair ctx r) = _
        rw [modelState_setModel_self ctx (m := m.withIssuance ctx iss _ c) hm,
          setModel_setModel, setModel_setModel]
        change ((state.setModel r.cal.model (((state.setModel r.cal.model
          (m.withRecord ctx r)).modelState ctx r.cal.model
          r.cal.recipe).withIssuance ctx iss _ c)).withPair ctx r) = _
        rw [modelState_setModel_self ctx (m := m.withRecord ctx r) hm,
          m.withIssuance_withRecord ctx _ c hwindow]
      · rw [modelState_setModel_of_ne ctx (Ne.symm hmodel)]
        change (((state.setModel r.cal.model (m.withRecord ctx r)).setModel
          model (((state.setModel r.cal.model (m.withRecord ctx r)).modelState
          ctx model c.recipe).withIssuance ctx iss _ c)).withPair ctx r) = _
        rw [modelState_setModel_of_ne ctx hmodel,
          setModel_comm _ (Ne.symm hmodel)]

/-- An outcome commutes with an issuance of another window under the same
recipe. -/
theorem addIssuance_addRecord {iss : Issuance} {r : EvidenceRecord}
    (hwindow : iss.key.windowEnd ≠ r.cal.windowEnd)
    (hrecipe : ∀ c, r.cal.model ∈ iss.models →
      iss.bundle.candidates r.cal.model = some c → c.recipe = r.cal.recipe)
    (state : EpochState) :
    addIssuance ctx (addRecord ctx state r) iss =
      addRecord ctx (addIssuance ctx state iss) r := by
  have hcomm : ∀ s, ∀ model ∈ iss.models, ∀ r' ∈ [r],
      addCandidate ctx iss (addRecord ctx s r') model =
        addRecord ctx (addCandidate ctx iss s model) r' := by
    intro s model hmodel r' hr'
    obtain rfl := List.mem_singleton.mp hr'
    exact addCandidate_addRecord ctx hwindow
      (fun c hc heq => hrecipe c (heq ▸ hmodel) hc) s
  have hfold := foldl_foldl_comm hcomm state
  simp only [List.foldl_cons, List.foldl_nil] at hfold
  rw [addIssuance, hfold]
  rfl

end Pure

end PredictiveAutoscaler.Forecasting
