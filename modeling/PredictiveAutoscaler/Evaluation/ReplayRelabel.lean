/-
Another dataset digest in the rows of a journal.  A replay names its dataset in
every key, bundle and state; nothing that it computes depends on the name, so
every operation of the journal commutes with an injective renaming.
-/
import PredictiveAutoscaler.Evaluation.Replay

namespace PredictiveAutoscaler.Evaluation

open Forecasting (Raised inCohort)

section Relabel

variable (σ : String → String)

def EvidenceKey.relabel (ek : EvidenceKey) : EvidenceKey :=
  { ek with dataset := σ ek.dataset }

def IssuanceKey.relabel (key : IssuanceKey) : IssuanceKey :=
  { key with evidenceKey := key.evidenceKey.relabel σ }

def Bundle.relabel (b : Bundle) : Bundle :=
  { b with
    evidenceKey := b.evidenceKey.relabel σ
    datasetSha256 := σ b.datasetSha256 }

def Issuance.relabel (iss : Issuance) : Issuance :=
  { iss with key := iss.key.relabel σ, bundle := iss.bundle.relabel σ }

def Outcome.relabel (o : Outcome) : Outcome :=
  { o with
    issuanceId := o.issuanceId.relabel σ
    evidenceKey := o.evidenceKey.relabel σ }

def CalibrationState.relabel (state : CalibrationState) : CalibrationState :=
  { state with epoch := state.epoch.relabel σ }

def CalibrationRecord.relabel (record : CalibrationRecord) :
    CalibrationRecord :=
  { record with
    epoch := record.epoch.relabel σ
    issuanceId := record.issuanceId.relabel σ }

def ReplayState.relabel (state : ReplayState) : ReplayState :=
  { state with calibration := state.calibration.relabel σ }

def Checkpoint.relabel (cp : Checkpoint) : Checkpoint :=
  { cp with
    evidenceKey := cp.evidenceKey.relabel σ
    state := cp.state.relabel σ }

def Journal.relabel (j : Journal) : Journal :=
  { issuances := j.issuances.map (Issuance.relabel σ)
    outcomes := j.outcomes.map (Outcome.relabel σ)
    checkpoints := j.checkpoints.map (Checkpoint.relabel σ) }

end Relabel

section Commute

theorem Journal.relabel_append_outcome (σ : String → String) (j : Journal)
    (o : Outcome) :
    Journal.relabel σ { j with outcomes := j.outcomes ++ [o] } =
      { j.relabel σ with
        outcomes := (j.relabel σ).outcomes ++ [Outcome.relabel σ o] } := by
  unfold relabel
  rw [List.map_append]
  rfl

theorem Journal.relabel_append_issuance (σ : String → String) (j : Journal)
    (iss : Issuance) :
    Journal.relabel σ { j with issuances := j.issuances ++ [iss] } =
      { j.relabel σ with
        issuances := (j.relabel σ).issuances ++ [Issuance.relabel σ iss] } := by
  unfold relabel
  rw [List.map_append]
  rfl

/-- The records are applied in the same way under the new names. -/
theorem CalibrationState.applied_relabel (σ : String → String)
    (state : CalibrationState) (record : CalibrationRecord)
    (policy : CalibrationPolicy) :
    (state.relabel σ).applied (record.relabel σ) policy =
      CalibrationState.relabel σ (state.applied record policy) := by
  unfold Forecasting.Calibration.State.applied
  change (if record.seq ≤ state.lastSeq then _ else _) = _
  split
  · rfl
  have htruth : (record.relabel σ).truth = record.truth := rfl
  rw [htruth]
  cases record.truth with
  | unscorable => rfl
  | scored y =>
      have hupper : (record.relabel σ).upperRps = record.upperRps := rfl
      dsimp only
      unfold Forecasting.Calibration.State.applyScored
      rw [hupper]
      change (if inCohort record.decisionOrigin policy.leadSeconds then _
        else _) = _
      split
      · cases record.upperRps <;> rfl
      · rfl

variable {σ : String → String} (hσ : Function.Injective σ) {j : Journal}

include hσ

theorem EvidenceKey.relabel_inj {a b : EvidenceKey} :
    a.relabel σ = b.relabel σ ↔ a = b := by
  constructor
  · intro h
    have hparts := (EvidenceKey.mk.injEq ..).mp h
    cases a
    cases b
    rw [EvidenceKey.mk.injEq]
    exact ⟨hσ hparts.1, hparts.2⟩
  · rintro rfl
    rfl

theorem IssuanceKey.relabel_inj {a b : IssuanceKey} :
    a.relabel σ = b.relabel σ ↔ a = b := by
  constructor
  · intro h
    have hparts := (IssuanceKey.mk.injEq ..).mp h
    cases a
    cases b
    rw [IssuanceKey.mk.injEq]
    exact ⟨(EvidenceKey.relabel_inj hσ).mp hparts.1, hparts.2⟩
  · rintro rfl
    rfl

theorem CalibrationState.relabel_inj {a b : CalibrationState} :
    a.relabel σ = b.relabel σ ↔ a = b := by
  constructor
  · intro h
    cases a
    cases b
    have hparts := (Forecasting.Calibration.State.mk.injEq ..).mp h
    rw [Forecasting.Calibration.State.mk.injEq]
    exact ⟨(EvidenceKey.relabel_inj hσ).mp hparts.1, hparts.2⟩
  · rintro rfl
    rfl

theorem ReplayState.relabel_inj {a b : ReplayState} :
    a.relabel σ = b.relabel σ ↔ a = b := by
  constructor
  · intro h
    cases a
    cases b
    simp only [relabel, ReplayState.mk.injEq,
      CalibrationState.relabel_inj hσ] at h ⊢
    exact h
  · rintro rfl
    rfl

namespace Journal

theorem issuance?_relabel (key : IssuanceKey) :
    (j.relabel σ).issuance? (key.relabel σ) =
      (j.issuance? key).map (Issuance.relabel σ) := by
  unfold issuance? Rows.issuance? relabel
  rw [List.find?_map]
  refine congrArg _ (congrArg (List.find? · _) (funext fun iss => ?_))
  exact decide_eq_decide.mpr (IssuanceKey.relabel_inj hσ)

theorem outcome?_relabel (id : IssuanceKey) (model : String) :
    (j.relabel σ).outcome? (id.relabel σ) model =
      (j.outcome? id model).map (Outcome.relabel σ) := by
  unfold outcome? Rows.outcome? relabel
  rw [List.find?_map]
  refine congrArg _ (congrArg (List.find? · _) (funext fun o => ?_))
  exact decide_eq_decide.mpr (and_congr_left' (IssuanceKey.relabel_inj hσ))

theorem openIssuances_relabel (ek : EvidenceKey) (model : String)
    (windowEndAtMost : ℤ) :
    (j.relabel σ).openIssuances (ek.relabel σ) model windowEndAtMost =
      (j.openIssuances ek model windowEndAtMost).map (Issuance.relabel σ) := by
  have hopen : Rows.isOpen (j.relabel σ).outcomes (ek.relabel σ) model
      windowEndAtMost ∘ Issuance.relabel σ =
        Rows.isOpen j.outcomes ek model windowEndAtMost := by
    funext iss
    have houtcome := outcome?_relabel (j := j) hσ iss.key model
    change (decide (iss.key.evidenceKey.relabel σ = ek.relabel σ) &&
      decide (iss.key.windowEnd ≤ windowEndAtMost) &&
        ((j.relabel σ).outcome? (iss.key.relabel σ) model).isNone) = _
    rw [houtcome, Option.isNone_map]
    simp only [EvidenceKey.relabel_inj hσ]
    rfl
  unfold openIssuances Rows.openIssuances
  change (((j.issuances.map (Issuance.relabel σ)).filter _).insertionSort
    Rows.closesBefore).filter _ = _
  rw [List.filter_map, hopen, ← List.map_insertionSort
    (r := Rows.closesBefore) (s := Rows.closesBefore) (Issuance.relabel σ) _
    fun _ _ _ _ => Iff.rfl, List.filter_map]
  rfl

theorem outcomesAfter_relabel (ek : EvidenceKey) (after : ℕ) :
    (j.relabel σ).outcomesAfter (ek.relabel σ) after =
      (j.outcomesAfter ek after).map (Outcome.relabel σ) := by
  unfold outcomesAfter Rows.outcomesAfter relabel
  rw [List.filter_map]
  refine congrArg _ (List.filter_congr fun o _ => ?_)
  exact decide_eq_decide.mpr (and_congr_left' (EvidenceKey.relabel_inj hσ))

theorem latestCheckpoint_relabel (ek : EvidenceKey) :
    (j.relabel σ).latestCheckpoint (ek.relabel σ) =
      (j.latestCheckpoint ek).map (Checkpoint.relabel σ) := by
  unfold latestCheckpoint relabel
  rw [List.find?_map]
  refine congrArg _ (congrArg (List.find? · _) (funext fun cp => ?_))
  exact decide_eq_decide.mpr (EvidenceKey.relabel_inj hσ)

/-- The row of an outcome under the new names. -/
theorem commitOutcome_row_relabel (seq : ℕ) (id : IssuanceKey)
    (model : String) (payload : OutcomePayload) (nowMs : ℤ) :
    Rows.commitOutcome (j.relabel σ).issuances (j.relabel σ).outcomes seq
        (id.relabel σ) model payload nowMs =
      (Rows.commitOutcome j.issuances j.outcomes seq id model payload
        nowMs).map fun a => (Outcome.relabel σ a.1, a.2) := by
  have houtcome : Rows.outcome? (j.relabel σ).outcomes (id.relabel σ) model =
      (Rows.outcome? j.outcomes id model).map (Outcome.relabel σ) :=
    outcome?_relabel hσ id model
  have hissuance : Rows.issuance? (j.relabel σ).issuances (id.relabel σ) =
      (Rows.issuance? j.issuances id).map (Issuance.relabel σ) :=
    issuance?_relabel hσ id
  unfold Rows.commitOutcome
  rw [houtcome]
  cases Rows.outcome? j.outcomes id model with
  | some o =>
      dsimp only [Option.map_some]
      change (if o.payload ≠ payload then _ else _) = _
      split <;> rfl
  | none =>
      dsimp only [Option.map_none]
      rw [hissuance]
      cases Rows.issuance? j.issuances id with
      | none => rfl
      | some iss =>
          dsimp only [Option.map_some]
          change (if model ∉ iss.models then _
            else if nowMs < iss.key.windowEnd * 1000 then _ else _) =
              Except.map _ (if model ∉ iss.models then _
                else if nowMs < iss.key.windowEnd * 1000 then _ else _)
          split
          · rfl
          split <;> rfl

theorem commitOutcome_relabel (id : IssuanceKey) (model : String)
    (payload : OutcomePayload) (nowMs : ℤ) :
    (j.relabel σ).commitOutcome (id.relabel σ) model payload nowMs =
      (j.commitOutcome id model payload nowMs).map fun a =>
        ((Outcome.relabel σ a.1.1, a.1.2), a.2.relabel σ) := by
  have hlength : (j.relabel σ).outcomes.length = j.outcomes.length :=
    List.length_map _
  unfold commitOutcome
  rw [hlength, commitOutcome_row_relabel hσ]
  cases Rows.commitOutcome j.issuances j.outcomes (j.outcomes.length + 1) id
      model payload nowMs with
  | error err => rfl
  | ok row =>
      obtain ⟨o, created⟩ := row
      cases created with
      | false => rfl
      | true =>
          exact congrArg (fun j' => Except.ok ((Outcome.relabel σ o, true), j'))
            (relabel_append_outcome σ j o).symm

/-- The row of an issuance under the new names. -/
theorem getOrIssue_row_relabel (expected : Except Raised (List String))
    (seq : ℕ) (key : IssuanceKey) (bundle : Bundle) (nowMs : ℤ) :
    Rows.getOrIssue (j.relabel σ).issuances (.ok ()) expected seq
        (key.relabel σ) (bundle.relabel σ) nowMs =
      (Rows.getOrIssue j.issuances (.ok ()) expected seq key bundle
        nowMs).map fun a => (Issuance.relabel σ a.1, a.2) := by
  have hissuance : Rows.issuance? (j.relabel σ).issuances (key.relabel σ) =
      (Rows.issuance? j.issuances key).map (Issuance.relabel σ) :=
    issuance?_relabel hσ key
  unfold Rows.getOrIssue Rows.commitIssuance
  rw [hissuance]
  cases Rows.issuance? j.issuances key with
  | none => cases expected <;> rfl
  | some iss =>
      cases expected with
      | error err => rfl
      | ok models =>
          change (if iss.models ≠ models then _ else _) =
            Except.map _ (if iss.models ≠ models then _ else _)
          split <;> rfl

theorem getOrIssue_relabel (key : IssuanceKey) (bundle : Bundle)
    (model : String) (nowMs : ℤ) :
    (j.relabel σ).getOrIssue (key.relabel σ) (bundle.relabel σ) model nowMs =
      (j.getOrIssue key bundle model nowMs).map fun a =>
        ((Issuance.relabel σ a.1.1, a.1.2), a.2.relabel σ) := by
  have hlength : (j.relabel σ).issuances.length = j.issuances.length :=
    List.length_map _
  unfold getOrIssue
  rw [hlength, getOrIssue_row_relabel hσ]
  cases Rows.getOrIssue j.issuances (.ok ()) (expectedModels model)
      (j.issuances.length + 1) key bundle nowMs with
  | error err => rfl
  | ok row =>
      obtain ⟨iss, created⟩ := row
      cases created with
      | false => rfl
      | true =>
          exact congrArg (fun j' => Except.ok ((Issuance.relabel σ iss, true), j'))
            (relabel_append_issuance σ j iss).symm

omit hσ in
theorem keepNewest_cons (ek : EvidenceKey) (n : ℕ) (cp : Checkpoint)
    (rows : List Checkpoint) :
    keepNewest ek n (cp :: rows) =
      if cp.evidenceKey ≠ ek then cp :: keepNewest ek n rows
      else
        match n with
        | 0 => keepNewest ek 0 rows
        | m + 1 => cp :: keepNewest ek m rows := by
  cases n <;> rfl

theorem keepNewest_relabel (ek : EvidenceKey) (n : ℕ)
    (rows : List Checkpoint) :
    keepNewest (ek.relabel σ) n (rows.map (Checkpoint.relabel σ)) =
      (keepNewest ek n rows).map (Checkpoint.relabel σ) := by
  induction rows generalizing n with
  | nil => cases n <;> rfl
  | cons cp rest ih =>
      rw [List.map_cons]
      by_cases hek : cp.evidenceKey = ek
      · have hrelabel : (cp.relabel σ).evidenceKey = ek.relabel σ :=
          (EvidenceKey.relabel_inj hσ).mpr hek
        cases n with
        | zero =>
            rw [keepNewest_cons, keepNewest_cons,
              if_neg (not_not.mpr hrelabel), if_neg (not_not.mpr hek)]
            exact ih 0
        | succ n =>
            rw [keepNewest_cons, keepNewest_cons,
              if_neg (not_not.mpr hrelabel), if_neg (not_not.mpr hek)]
            exact congrArg _ (ih n)
      · have hrelabel : (cp.relabel σ).evidenceKey ≠ ek.relabel σ :=
          fun h => hek ((EvidenceKey.relabel_inj hσ).mp h)
        rw [keepNewest_cons, keepNewest_cons, if_pos hrelabel, if_pos hek,
          List.map_cons, ih]

theorem writeCheckpoint_relabel (ek : EvidenceKey) (state : ReplayState)
    (last : ℕ) (nowMs : ℤ) :
    (j.relabel σ).writeCheckpoint (ek.relabel σ) (state.relabel σ) last
        nowMs =
      (j.writeCheckpoint ek state last nowMs).map fun a =>
        (a.1, a.2.relabel σ) := by
  have hpushed : keepNewest (ek.relabel σ) 3
      (⟨ek.relabel σ, last, state.relabel σ, nowMs⟩ ::
        (j.relabel σ).checkpoints) =
      (keepNewest ek 3 (⟨ek, last, state, nowMs⟩ :: j.checkpoints)).map
        (Checkpoint.relabel σ) :=
    keepNewest_relabel hσ ek 3 (⟨ek, last, state, nowMs⟩ :: j.checkpoints)
  have hwrites : Rows.writesCheckpoint
      (((j.relabel σ).latestCheckpoint (ek.relabel σ)).map fun cp =>
        (cp.lastOutcomeSeq, cp.state)) (last, state.relabel σ) =
      Rows.writesCheckpoint ((j.latestCheckpoint ek).map fun cp =>
        (cp.lastOutcomeSeq, cp.state)) (last, state) := by
    rw [latestCheckpoint_relabel hσ]
    cases j.latestCheckpoint ek with
    | none => rfl
    | some latest =>
        have hsame : ((latest.relabel σ).lastOutcomeSeq,
            (latest.relabel σ).state) = (last, state.relabel σ) ↔
            (latest.lastOutcomeSeq, latest.state) = (last, state) := by
          rw [Prod.mk.injEq, Prod.mk.injEq]
          exact and_congr_right' (ReplayState.relabel_inj hσ)
        unfold Rows.writesCheckpoint
        simp only [Option.map_some, ne_eq, hsame]
        rfl
  unfold writeCheckpoint
  rw [hwrites, hpushed]
  cases Rows.writesCheckpoint ((j.latestCheckpoint ek).map fun cp =>
      (cp.lastOutcomeSeq, cp.state)) (last, state) with
  | error err => rfl
  | ok written => cases written <;> rfl

end Journal

theorem CalibrationState.apply_relabel (state : CalibrationState)
    (record : CalibrationRecord) (policy : CalibrationPolicy) :
    (state.relabel σ).apply (record.relabel σ) policy =
      (state.apply record policy).map (CalibrationState.relabel σ) := by
  have hepoch : (record.relabel σ).epoch = (state.relabel σ).epoch ↔
      record.epoch = state.epoch := EvidenceKey.relabel_inj hσ
  unfold Forecasting.Calibration.State.apply
  rw [CalibrationState.applied_relabel]
  simp only [ne_eq, hepoch]
  change (if ¬record.epoch = state.epoch then _
    else if ¬(record.model, record.recipe) = (state.model, state.recipe) then _
    else _) = _
  split
  · rfl
  split <;> rfl

theorem CalibrationRecord.fromJournal_relabel (iss : Issuance) (o : Outcome) :
    fromJournal (iss.relabel σ) (o.relabel σ) =
      (fromJournal iss o).map (CalibrationRecord.relabel σ) := by
  have hbelongs : ((o.relabel σ).issuanceId ≠ (iss.relabel σ).key ∨
      (o.relabel σ).evidenceKey ≠ (iss.relabel σ).key.evidenceKey ∨
        (o.relabel σ).windowEnd ≠ (iss.relabel σ).key.windowEnd) ↔
      (o.issuanceId ≠ iss.key ∨ o.evidenceKey ≠ iss.key.evidenceKey ∨
        o.windowEnd ≠ iss.key.windowEnd) :=
    or_congr (not_congr (IssuanceKey.relabel_inj hσ))
      (or_congr (not_congr (EvidenceKey.relabel_inj hσ)) Iff.rfl)
  unfold fromJournal
  simp only [hbelongs]
  split
  · rfl
  change (if iss.bundle.decisionOrigin ≠ iss.key.decisionOrigin ∨
      iss.bundle.targetTimestamps ≠
        range (iss.key.decisionOrigin + iss.bundle.sampleIntervalSeconds)
          (iss.key.windowEnd + 1) iss.bundle.sampleIntervalSeconds then _
    else if o.model ∉ iss.models then _
    else if iss.bundle.modelFamily ≠ o.model then _
    else if iss.bundle.pointRps.length ≠ iss.bundle.targetTimestamps.length
      then _
    else if o.payload.targets ≠ iss.bundle.targetTimestamps then _
    else _) = _
  split
  · rfl
  split
  · rfl
  split
  · rfl
  split
  · rfl
  split
  · rfl
  have hpayload : (o.relabel σ).payload = o.payload := rfl
  rw [hpayload]
  cases o.payload with
  | missingTruth => rfl
  | excluded => rfl
  | scored p =>
      dsimp only
      change (if (p.baseWindowMaxRps, p.upperWindowMaxRps) ≠
        (iss.bundle.baseWindowMaxRps, iss.bundle.upperWindowMaxRps) then _
        else _) = _
      split <;> rfl

theorem fold_relabel (state : ReplayState) (o : Outcome) (iss : Issuance)
    (policy : CalibrationPolicy) :
    fold (state.relabel σ) (o.relabel σ) (iss.relabel σ) policy =
      (fold state o iss policy).map (ReplayState.relabel σ) := by
  unfold fold
  rw [CalibrationRecord.fromJournal_relabel hσ]
  cases CalibrationRecord.fromJournal iss o with
  | error err => rfl
  | ok record =>
      have happly := CalibrationState.apply_relabel hσ state.calibration record
        policy
      change (do
        let calibration ← (state.calibration.relabel σ).apply
          (record.relabel σ) policy
        return _) = Except.map _ (do
        let calibration ← state.calibration.apply record policy
        return _)
      rw [happly]
      cases state.calibration.apply record policy with
      | error err => rfl
      | ok calibration =>
          refine congrArg Except.ok ?_
          change ReplayState.count _ o.payload = _
          cases o.payload with
          | missingTruth => rfl
          | excluded => rfl
          | scored p =>
              unfold ReplayState.count
              dsimp only
              cases p.covered with
              | none => rfl
              | some c => cases c <;> rfl

end Commute

end PredictiveAutoscaler.Evaluation
