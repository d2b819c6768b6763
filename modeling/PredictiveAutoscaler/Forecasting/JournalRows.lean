/-
The rows of a forecast journal and what its transactions decide: whether a row
is there already, is refused or is the next one.  The journal of the service
and that of a replay share them; their keys, model names, payloads and instants
differ.
-/
import PredictiveAutoscaler.Forecasting.Calibration

namespace PredictiveAutoscaler.Rows

open Forecasting (Raised Instant)
open Forecasting.Instant (toInt)

/-- What the journal reads of an issuance key. -/
class WindowKey (Key : Type) (Epoch T : outParam Type) where
  evidenceKey : Key → Epoch
  windowEnd : Key → T

open WindowKey (evidenceKey windowEnd)

/-- A committed bundle; its id stands for its key. -/
structure Issuance (Key Bundle Name T : Type) where
  seq : ℕ
  key : Key
  bundle : Bundle
  models : List Name
  committedAtMs : T
deriving DecidableEq

/-- The terminal outcome of one model of an issuance. -/
structure Outcome (Key Epoch Name Payload T : Type) where
  seq : ℕ
  issuanceId : Key
  evidenceKey : Epoch
  windowEnd : T
  model : Name
  payload : Payload
  committedAtMs : T
deriving DecidableEq

variable {Key Epoch Bundle Name Payload T : Type} [DecidableEq Key]

section Issuances

variable {issuances : List (Issuance Key Bundle Name T)} {id : Key}
  {iss : Issuance Key Bundle Name T}

/-- `get_issuance` and `get_issuance_by_id`. -/
def issuance? (issuances : List (Issuance Key Bundle Name T)) (id : Key) :
    Option (Issuance Key Bundle Name T) :=
  issuances.find? fun iss => iss.key = id

theorem issuance?_key (h : issuance? issuances id = some iss) :
    iss.key = id := by
  have hfound := List.find?_some h
  exact of_decide_eq_true hfound

theorem issuance?_mem (h : issuance? issuances id = some iss) :
    iss ∈ issuances :=
  List.mem_of_find?_eq_some h

theorem issuance?_eq_none :
    issuance? issuances id = none ↔ ∀ iss ∈ issuances, iss.key ≠ id := by
  unfold issuance?
  rw [List.find?_eq_none]
  simp only [decide_eq_true_eq, ne_eq]

theorem issuance?_append (iss : Issuance Key Bundle Name T) :
    issuance? (issuances ++ [iss]) id =
      (issuance? issuances id).or (if iss.key = id then some iss else none) := by
  unfold issuance?
  rw [List.find?_append, List.find?_singleton]
  simp only [decide_eq_true_eq]

end Issuances

section Outcomes

variable {outcomes : List (Outcome Key Epoch Name Payload T)} {id : Key}
  {model : Name}

/-- The outcomes of an epoch after a sequence number. -/
def outcomesAfter [DecidableEq Epoch]
    (outcomes : List (Outcome Key Epoch Name Payload T)) (ek : Epoch)
    (seq : ℕ) : List (Outcome Key Epoch Name Payload T) :=
  outcomes.filter fun o => decide (o.evidenceKey = ek ∧ seq < o.seq)

omit [DecidableEq Key] in
theorem mem_outcomesAfter [DecidableEq Epoch] {ek : Epoch} {seq : ℕ}
    {o : Outcome Key Epoch Name Payload T} :
    o ∈ outcomesAfter outcomes ek seq ↔
      o ∈ outcomes ∧ o.evidenceKey = ek ∧ seq < o.seq := by
  unfold outcomesAfter
  rw [List.mem_filter, decide_eq_true_eq]

variable [DecidableEq Name]

/-- The terminal outcome of one model of an issuance. -/
def outcome? (outcomes : List (Outcome Key Epoch Name Payload T)) (id : Key)
    (model : Name) : Option (Outcome Key Epoch Name Payload T) :=
  outcomes.find? fun o => o.issuanceId = id ∧ o.model = model

theorem outcome?_eq_none :
    outcome? outcomes id model = none ↔
      ∀ o ∈ outcomes, ¬(o.issuanceId = id ∧ o.model = model) := by
  unfold outcome?
  rw [List.find?_eq_none]
  simp only [decide_eq_true_eq]

theorem outcome?_append (o : Outcome Key Epoch Name Payload T) :
    outcome? (outcomes ++ [o]) id model = (outcome? outcomes id model).or
      (if o.issuanceId = id ∧ o.model = model then some o else none) := by
  unfold outcome?
  rw [List.find?_append, List.find?_singleton]
  simp only [decide_eq_true_eq]

end Outcomes

section Closing

variable [DecidableEq Epoch] [DecidableEq Name] [LinearOrder T]
  [WindowKey Key Epoch T]

/-- Still open, with a window that ended by the given time. -/
def isOpen (outcomes : List (Outcome Key Epoch Name Payload T)) (ek : Epoch)
    (model : Name) (windowEndAtMost : T) (iss : Issuance Key Bundle Name T) :
    Bool :=
  decide (evidenceKey iss.key = ek) &&
    decide (windowEnd iss.key ≤ windowEndAtMost) &&
      (outcome? outcomes iss.key model).isNone

/-- The order in which windows are closed. -/
def closesBefore (a b : Issuance Key Bundle Name T) : Prop :=
  windowEnd a.key < windowEnd b.key ∨
    windowEnd a.key = windowEnd b.key ∧ a.seq ≤ b.seq

instance : DecidableRel (@closesBefore Key Epoch Bundle Name T _ _) :=
  fun _ _ => inferInstanceAs (Decidable (_ ∨ _))

instance : IsTrans (Issuance Key Bundle Name T) closesBefore where
  trans a b c := by
    rintro (hab | ⟨hab, hseq⟩) (hbc | ⟨hbc, hseq'⟩)
    · exact .inl (hab.trans hbc)
    · exact .inl (hab.trans_eq hbc)
    · exact .inl (hab.trans_lt hbc)
    · exact .inr ⟨hab.trans hbc, hseq.trans hseq'⟩

instance : Std.Total (@closesBefore Key Epoch Bundle Name T _ _) where
  total a b := by
    rcases lt_trichotomy (windowEnd a.key) (windowEnd b.key) with h | h | h
    · exact .inl (.inl h)
    · exact (Nat.le_total a.seq b.seq).imp (fun hseq => .inr ⟨h, hseq⟩)
        fun hseq => .inr ⟨h.symm, hseq⟩
    · exact .inr (.inl h)

/-- The issuances of an epoch without an outcome of `model` whose window ended
by the given time, in window-end order. -/
def openIssuances (issuances : List (Issuance Key Bundle Name T))
    (outcomes : List (Outcome Key Epoch Name Payload T)) (ek : Epoch)
    (model : Name) (windowEndAtMost : T) :
    List (Issuance Key Bundle Name T) :=
  ((issuances.filter (isOpen outcomes ek model windowEndAtMost)).insertionSort
    closesBefore).filter fun iss => decide (model ∈ iss.models)

variable {issuances : List (Issuance Key Bundle Name T)}
  {outcomes : List (Outcome Key Epoch Name Payload T)} {ek : Epoch}
  {model : Name} {atMost : T} {iss : Issuance Key Bundle Name T}

theorem isOpen_iff :
    isOpen outcomes ek model atMost iss = true ↔ evidenceKey iss.key = ek ∧
      windowEnd iss.key ≤ atMost ∧ outcome? outcomes iss.key model = none := by
  unfold isOpen
  rw [Bool.and_eq_true, Bool.and_eq_true, decide_eq_true_eq,
    decide_eq_true_eq, Option.isNone_iff_eq_none, and_assoc]

theorem mem_openIssuances :
    iss ∈ openIssuances issuances outcomes ek model atMost ↔
      iss ∈ issuances ∧ isOpen outcomes ek model atMost iss = true ∧
        model ∈ iss.models := by
  unfold openIssuances
  rw [List.mem_filter, List.mem_insertionSort, List.mem_filter,
    decide_eq_true_eq, and_assoc]

end Closing

section CommitOutcome

variable [DecidableEq Name] [DecidableEq Payload] [ToString Name] [Instant T]
  [WindowKey Key Epoch T]

/-- The one terminal outcome of an issuance and a model, and whether it is the
next row: the same payload again returns the committed one, another one
conflicts. -/
def commitOutcome (issuances : List (Issuance Key Bundle Name T))
    (outcomes : List (Outcome Key Epoch Name Payload T)) (seq : ℕ) (id : Key)
    (model : Name) (payload : Payload) (nowMs : T) :
    Except Raised (Outcome Key Epoch Name Payload T × Bool) :=
  match outcome? outcomes id model with
  | some o =>
      if o.payload ≠ payload then
        .error (.integrityConflict
          s!"the outcome of the issuance and {model} is already committed")
      else .ok (o, false)
  | none =>
      match issuance? issuances id with
      | none => .error (.storeError "no such issuance")
      | some iss =>
          if model ∉ iss.models then
            .error (.storeError
              s!"the issuance expects other outcomes, not {model}")
          else if toInt nowMs < toInt (windowEnd iss.key) * 1000 then
            .error (.storeError
              "an outcome cannot be committed before its window has ended")
          else
            .ok (⟨seq, iss.key, evidenceKey iss.key, windowEnd iss.key, model,
              payload, nowMs⟩, true)

variable {issuances : List (Issuance Key Bundle Name T)}
  {outcomes : List (Outcome Key Epoch Name Payload T)} {seq : ℕ} {id : Key}
  {model : Name} {payload : Payload} {nowMs : T} {created : Bool}
  {o : Outcome Key Epoch Name Payload T}

/-- An outcome is there already, or is the next row. -/
theorem commitOutcome_cases
    (h : commitOutcome issuances outcomes seq id model payload nowMs =
      .ok (o, created)) :
    (created = false ∧ outcome? outcomes id model = some o ∧
      o.payload = payload) ∨
    (created = true ∧ outcome? outcomes id model = none ∧
      ∃ iss, issuance? issuances id = some iss ∧ model ∈ iss.models ∧
        toInt (windowEnd iss.key) * 1000 ≤ toInt nowMs ∧
        o = ⟨seq, iss.key, evidenceKey iss.key, windowEnd iss.key, model,
          payload, nowMs⟩) := by
  unfold commitOutcome at h
  split at h
  · rename_i found hfound
    split at h
    · cases h
    · rename_i hpayload
      cases h
      exact .inl ⟨rfl, hfound, not_not.mp hpayload⟩
  rename_i hopen
  split at h
  · cases h
  rename_i iss hiss
  split at h
  · cases h
  rename_i hmodel
  split at h
  · cases h
  rename_i hended
  cases h
  exact .inr ⟨rfl, hopen, iss, hiss, not_not.mp hmodel, not_lt.mp hended, rfl⟩

theorem commitOutcome_found
    (h : outcome? outcomes id model = some o) :
    commitOutcome issuances outcomes seq id model payload nowMs =
      if o.payload ≠ payload then
        .error (.integrityConflict
          s!"the outcome of the issuance and {model} is already committed")
      else .ok (o, false) := by
  unfold commitOutcome
  rw [h]

end CommitOutcome

section CommitIssuance

variable [DecidableEq Bundle] [DecidableEq Name]

/-- An immutable issuance, and whether it is the next row: the same bundle and
models again return the committed one, anything else for its key conflicts. -/
def commitIssuance (issuances : List (Issuance Key Bundle Name T))
    (refused : Except Raised Unit) (expected : Except Raised (List Name))
    (seq : ℕ) (key : Key) (bundle : Bundle) (nowMs : T) :
    Except Raised (Issuance Key Bundle Name T × Bool) := do
  let models ← expected
  match issuance? issuances key with
  | some iss =>
      if iss.bundle ≠ bundle ∨ iss.models ≠ models then
        .error (.integrityConflict
          ("the issuance is already committed with different bytes or " ++
            "models"))
      else .ok (iss, false)
  | none =>
      refused
      .ok (⟨seq, key, bundle, models, nowMs⟩, true)

/-- The committed issuance of a key, or the bundle committed now; a retry never
recomputes. -/
def getOrIssue (issuances : List (Issuance Key Bundle Name T))
    (refused : Except Raised Unit) (expected : Except Raised (List Name))
    (seq : ℕ) (key : Key) (bundle : Bundle) (nowMs : T) :
    Except Raised (Issuance Key Bundle Name T × Bool) := do
  match issuance? issuances key with
  | some iss =>
      if iss.models ≠ (← expected) then
        .error (.integrityConflict "the issuance expects other models")
      else .ok (iss, false)
  | none =>
      refused
      commitIssuance issuances refused expected seq key bundle nowMs

variable {issuances : List (Issuance Key Bundle Name T)}
  {refused : Except Raised Unit} {expected : Except Raised (List Name)}
  {models : List Name} {seq : ℕ} {key : Key} {bundle : Bundle} {nowMs : T}
  {created : Bool} {iss : Issuance Key Bundle Name T}

/-- An issuance is there already with the same bundle and models, or is the
next row. -/
theorem commitIssuance_cases
    (h : commitIssuance issuances refused expected seq key bundle nowMs =
      .ok (iss, created)) :
    ∃ models, expected = .ok models ∧
      ((created = false ∧ issuance? issuances key = some iss ∧
          iss.bundle = bundle ∧ iss.models = models) ∨
        (created = true ∧ issuance? issuances key = none ∧
          refused = .ok () ∧ iss = ⟨seq, key, bundle, models, nowMs⟩)) := by
  unfold commitIssuance at h
  cases expected with
  | error err => cases h
  | ok models =>
      refine ⟨models, rfl, ?_⟩
      change (match issuance? issuances key with
        | some _ => _
        | none => _) = _ at h
      split at h
      · rename_i found hfound
        split at h
        · cases h
        · rename_i hsame
          rw [not_or, not_not, not_not] at hsame
          cases h
          exact .inl ⟨rfl, hfound, hsame.1, hsame.2⟩
      · rename_i hnone
        cases refused with
        | error err => cases h
        | ok _ =>
            cases h
            exact .inr ⟨rfl, hnone, rfl, rfl⟩

theorem commitIssuance_found
    (hfound : issuance? issuances key = some iss)
    (hexpected : expected = .ok models) :
    commitIssuance issuances refused expected seq key bundle nowMs =
      if iss.bundle ≠ bundle ∨ iss.models ≠ models then
        .error (.integrityConflict
          ("the issuance is already committed with different bytes or " ++
            "models"))
      else .ok (iss, false) := by
  unfold commitIssuance
  rw [hfound, hexpected]
  rfl

theorem getOrIssue_cases
    (h : getOrIssue issuances refused expected seq key bundle nowMs =
      .ok (iss, created)) :
    ∃ models, expected = .ok models ∧
      ((created = false ∧ issuance? issuances key = some iss ∧
          iss.models = models) ∨
        (created = true ∧ issuance? issuances key = none ∧
          refused = .ok () ∧ iss = ⟨seq, key, bundle, models, nowMs⟩)) := by
  unfold getOrIssue at h
  split at h
  · rename_i found hfound
    cases expected with
    | error err => cases h
    | ok models =>
        refine ⟨models, rfl, .inl ?_⟩
        change (if found.models ≠ models then _ else _) = _ at h
        split at h
        · cases h
        · rename_i hsame
          cases h
          exact ⟨rfl, hfound, not_not.mp hsame⟩
  · rename_i hnone
    cases refused with
    | error err => cases h
    | ok _ =>
        obtain ⟨models, hmodels, hcases⟩ := commitIssuance_cases h
        refine ⟨models, hmodels, .inr ?_⟩
        obtain ⟨-, hfound, -⟩ | hnew := hcases
        · rw [hnone] at hfound
          cases hfound
        · exact hnew

theorem getOrIssue_found
    (hfound : issuance? issuances key = some iss)
    (hexpected : expected = .ok models) :
    getOrIssue issuances refused expected seq key bundle nowMs =
      if iss.models ≠ models then
        .error (.integrityConflict "the issuance expects other models")
      else .ok (iss, false) := by
  unfold getOrIssue
  rw [hfound, hexpected]
  rfl

end CommitIssuance

/-- Whether a checkpoint is a new row after the latest one: what it completed
does not go back, and one identical to the latest is not written. -/
def writesCheckpoint {State : Type} [DecidableEq State]
    (latest : Option (ℕ × State)) (next : ℕ × State) : Except Raised Bool :=
  match latest with
  | none => .ok true
  | some latest =>
      if next.1 < latest.1 then
        .error (.storeError
          "a checkpoint cannot go back before the latest one")
      else .ok (decide (latest ≠ next))

/-- A checkpoint is the latest one, or goes on from it. -/
theorem writesCheckpoint_cases {State : Type} [DecidableEq State]
    {latest : Option (ℕ × State)} {next : ℕ × State} {written : Bool}
    (h : writesCheckpoint latest next = .ok written) :
    (written = false ∧ latest = some next) ∨
      (written = true ∧ ∀ cp, latest = some cp → cp.1 ≤ next.1) := by
  unfold writesCheckpoint at h
  split at h
  · cases h
    exact .inr ⟨rfl, fun cp hcp => nomatch hcp⟩
  · rename_i latest
    split at h
    · cases h
    rename_i hforward
    cases h
    by_cases hsame : latest = next
    · exact .inl ⟨decide_eq_false (not_not.mpr hsame), congrArg some hsame⟩
    · refine .inr ⟨decide_eq_true hsame, fun cp hcp => ?_⟩
      cases hcp
      exact not_lt.mp hforward

end PredictiveAutoscaler.Rows
