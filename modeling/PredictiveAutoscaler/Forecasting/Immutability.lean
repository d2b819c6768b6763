/-
Runs of the journal's operations with a crash just before or just after any
commit.  An issuance keeps its bundle and its models for ever, also once the
compaction removed it, and an issuance and a model have at most one outcome.
-/
import PredictiveAutoscaler.Forecasting.Retention

namespace PredictiveAutoscaler.Forecasting

namespace Store

/-- An operation of the journal, with the clock reading it takes. -/
inductive Op
  | commitIssuance (key : IssuanceKey) (bundle : Bundle) (models : List Model)
      (nowMs : ℕ)
  | getOrIssue (key : IssuanceKey) (bundle : Bundle) (models : List Model)
      (nowMs : ℕ)
  | commitOutcome (id : IssuanceKey) (model : Model) (payload : OutcomePayload)
      (nowMs : ℕ)
  | recordObservations (ek : EvidenceKey) (samples : List Sample)
  | writeCheckpoint (ek : EvidenceKey) (state : EpochState)
      (lastOutcomeSeq : ℕ)
  | compact (config : StoreConfig) (now : ℕ)

/-- The store an operation commits, or its exception. -/
def Op.run (s : Store) : Op → Except Raised Store
  | .commitIssuance key bundle models nowMs =>
      (s.commitIssuance key bundle models nowMs).map Prod.snd
  | .getOrIssue key bundle models nowMs =>
      (s.getOrIssue key bundle models nowMs).map Prod.snd
  | .commitOutcome id model payload nowMs =>
      (s.commitOutcome id model payload nowMs).map Prod.snd
  | .recordObservations ek samples => .ok (s.recordObservations ek samples)
  | .writeCheckpoint ek state lastOutcomeSeq =>
      (s.writeCheckpoint ek state lastOutcomeSeq).map Prod.snd
  | .compact config now => .ok (s.compact config now)

/-- Where the process dies, before the journal is opened again. -/
inductive Crash
  | none
  | beforeCommit
  | afterCommit
deriving DecidableEq, Repr

/-- The journal file after one operation: a crash before the commit and an
exception leave it as it was. -/
def opStep (s : Store) (step : Op × Crash) : Store :=
  match step.2, step.1.run s with
  | .beforeCommit, _ => s
  | _, .error _ => s
  | _, .ok s' => s'

def opRun (s : Store) (steps : List (Op × Crash)) : Store :=
  steps.foldl opStep s

/-- A key of an evidence key, for the changes that name no issuance. -/
def someKey (ek : EvidenceKey) : IssuanceKey := ⟨ek, 0, 1, {}, Nat.one_pos⟩

/-- An operation leaves the store as it is or makes one change. -/
theorem opStep_cases (s : Store) (step : Op × Crash) :
    s.opStep step = s ∨ ∃ key untilMs, s.Commit key untilMs (s.opStep step) := by
  unfold opStep
  split
  · exact .inl rfl
  · exact .inl rfl
  rename_i s' hrun _
  cases hop : step.1 with
  | commitIssuance key bundle models nowMs =>
      rw [hop] at hrun
      obtain ⟨⟨⟨iss, created⟩, next⟩, hok, rfl⟩ :=
        Except.map_eq_ok_iff.mp hrun
      obtain ⟨expected, hmodels, ⟨-, -, -, -, rfl⟩ |
        ⟨-, hnew, hhorizon, rfl, rfl⟩⟩ := commitIssuance_cases hok
      · exact .inl rfl
      · exact .inr ⟨key, nowMs, .issued bundle nowMs
          (expectedModels_ne_nil hmodels) hnew hhorizon⟩
  | getOrIssue key bundle models nowMs =>
      rw [hop] at hrun
      obtain ⟨⟨⟨iss, created⟩, next⟩, hok, rfl⟩ :=
        Except.map_eq_ok_iff.mp hrun
      obtain ⟨expected, hmodels, ⟨-, -, -, rfl⟩ |
        ⟨-, hnew, hhorizon, rfl, rfl⟩⟩ := getOrIssue_cases hok
      · exact .inl rfl
      · exact .inr ⟨key, nowMs, .issued bundle nowMs
          (expectedModels_ne_nil hmodels) hnew hhorizon⟩
  | commitOutcome id model payload nowMs =>
      rw [hop] at hrun
      obtain ⟨⟨⟨o, created⟩, next⟩, hok, rfl⟩ := Except.map_eq_ok_iff.mp hrun
      obtain ⟨-, -, -, rfl⟩ | ⟨iss, -, rfl, hiss, hmodel, hopen, hended, rfl,
        rfl⟩ := commitOutcome_cases hok
      · exact .inl rfl
      · exact .inr ⟨iss.key, nowMs, .matured payload rfl hiss hmodel hopen hended
          le_rfl⟩
  | recordObservations ek samples =>
      rw [hop] at hrun
      cases hrun
      exact .inr ⟨someKey ek, 0, .observed samples⟩
  | writeCheckpoint ek state lastOutcomeSeq =>
      rw [hop] at hrun
      obtain ⟨⟨_, next⟩, hok, rfl⟩ := Except.map_eq_ok_iff.mp hrun
      obtain ⟨-, rfl⟩ | ⟨hforward, rfl⟩ := writeCheckpoint_cases hok
      · exact .inl rfl
      · exact .inr ⟨someKey ek, 0, .checkpointed _ hforward⟩
  | compact config now =>
      rw [hop] at hrun
      cases hrun
      exact .inr ⟨someKey default, 0, .compacted config now⟩

/-- Along a run the rows stay tidy and the store is extended. -/
theorem opRun_tidy_extends (steps : List (Op × Crash)) {s : Store}
    (hs : s.Tidy) : (s.opRun steps).Tidy ∧ s.Extends (s.opRun steps) := by
  induction steps generalizing s with
  | nil => exact ⟨hs, .refl s⟩
  | cons step rest ih =>
      have hstep : (s.opStep step).Tidy ∧ s.Extends (s.opStep step) := by
        rcases s.opStep_cases step with hsame | ⟨key, untilMs, hcommit⟩
        · rw [hsame]
          exact ⟨hs, .refl s⟩
        · exact ⟨hcommit.tidy hs, hcommit.extends hs⟩
      obtain ⟨htidy, hextends⟩ := ih hstep.1
      exact ⟨htidy, hstep.2.trans hextends⟩

/-- What a committed row answers: the same bytes again return it and change
nothing, other bytes conflict. -/
structure RetrySafe (s : Store) : Prop where
  issuance_retry : ∀ iss ∈ s.issuances, ∀ models nowMs,
    expectedModels models = .ok iss.models →
    s.commitIssuance iss.key iss.bundle models nowMs = .ok ((iss, false), s) ∧
      ∀ bundle, s.getOrIssue iss.key bundle models nowMs =
        .ok ((iss, false), s)
  issuance_conflict : ∀ iss ∈ s.issuances, ∀ bundle models expected nowMs,
    expectedModels models = .ok expected →
    (bundle ≠ iss.bundle ∨ expected ≠ iss.models) →
    ∃ message, s.commitIssuance iss.key bundle models nowMs =
      .error (.integrityConflict message)
  outcome_retry : ∀ o ∈ s.outcomes, ∀ nowMs,
    s.commitOutcome o.issuanceId o.model o.payload nowMs =
      .ok ((o, false), s)
  outcome_conflict : ∀ o ∈ s.outcomes, ∀ payload nowMs, payload ≠ o.payload →
    ∃ message, s.commitOutcome o.issuanceId o.model payload nowMs =
      .error (.integrityConflict message)
  refused : ∀ op crash raised, op.run s = .error raised →
    s.opStep (op, crash) = s

theorem Tidy.outcome?_eq_some {s : Store} (h : s.Tidy) {o : Outcome}
    (ho : o ∈ s.outcomes) : s.outcome? o.issuanceId o.model = some o := by
  cases hfound : s.outcome? o.issuanceId o.model with
  | none => exact absurd ⟨rfl, rfl⟩ (Rows.outcome?_eq_none.mp hfound o ho)
  | some found =>
      have hnames : found.issuanceId = o.issuanceId ∧
          found.model = o.model := by
        simpa using List.find?_some hfound
      have hdistinct : s.outcomes.Pairwise fun a b =>
          (a.issuanceId, a.model) ≠ (b.issuanceId, b.model) :=
        h.outcomes_distinct.imp fun hab heq => hab (by simpa using heq)
      rw [eq_of_pairwise_ne hdistinct (List.mem_of_find?_eq_some hfound) ho
        (Prod.ext hnames.1 hnames.2)]

theorem commitIssuance_found {s : Store} {key : IssuanceKey}
    {iss : Issuance} {models expected : List Model}
    (hfound : s.issuance? key = some iss)
    (hmodels : expectedModels models = .ok expected) (bundle : Bundle)
    (nowMs : ℕ) :
    s.commitIssuance key bundle models nowMs =
      if iss.bundle ≠ bundle ∨ iss.models ≠ expected then
        .error (.integrityConflict
          ("the issuance is already committed with different bytes or " ++
            "models"))
      else .ok ((iss, false), s) := by
  unfold commitIssuance
  rw [Rows.commitIssuance_found hfound hmodels]
  split <;> rfl

theorem getOrIssue_found {s : Store} {key : IssuanceKey}
    {iss : Issuance} {models expected : List Model}
    (hfound : s.issuance? key = some iss)
    (hmodels : expectedModels models = .ok expected) (bundle : Bundle)
    (nowMs : ℕ) :
    s.getOrIssue key bundle models nowMs =
      if iss.models ≠ expected then
        .error (.integrityConflict "the issuance expects other models")
      else .ok ((iss, false), s) := by
  unfold getOrIssue
  rw [Rows.getOrIssue_found hfound hmodels]
  split <;> rfl

theorem commitOutcome_found {s : Store} {id : IssuanceKey} {model : Model}
    {o : Outcome} (hfound : s.outcome? id model = some o)
    (payload : OutcomePayload) (nowMs : ℕ) :
    s.commitOutcome id model payload nowMs =
      if o.payload ≠ payload then
        .error (.integrityConflict
          s!"the outcome of the issuance and {model.name} is already committed")
      else .ok ((o, false), s) := by
  unfold commitOutcome
  rw [Rows.commitOutcome_found hfound]
  split <;> rfl

theorem Tidy.retrySafe {s : Store} (h : s.Tidy) : s.RetrySafe where
  issuance_retry := by
    intro iss hiss models nowMs hmodels
    have hfound := h.issuance?_eq_some hiss
    constructor
    · rw [commitIssuance_found hfound hmodels]
      exact if_neg fun hdiffers => hdiffers.elim (fun h => h rfl) fun h => h rfl
    · intro bundle
      rw [getOrIssue_found hfound hmodels]
      exact if_neg fun hdiffers => hdiffers rfl
  issuance_conflict := by
    intro iss hiss bundle models expected nowMs hmodels hother
    have hdiffers : iss.bundle ≠ bundle ∨ iss.models ≠ expected :=
      hother.imp Ne.symm Ne.symm
    rw [commitIssuance_found (h.issuance?_eq_some hiss) hmodels]
    exact ⟨_, if_pos hdiffers⟩
  outcome_retry := by
    intro o ho nowMs
    rw [commitOutcome_found (h.outcome?_eq_some ho)]
    exact if_neg fun hdiffers => hdiffers rfl
  outcome_conflict := by
    intro o ho payload nowMs hother
    rw [commitOutcome_found (h.outcome?_eq_some ho)]
    exact ⟨_, if_pos (Ne.symm hother)⟩
  refused := by
    intro op crash raised hraised
    cases crash <;> simp only [opStep, hraised]

/-- A removed issuance is never committed again. -/
theorem Gone.not_issued {s : Store} {key : IssuanceKey} (h : s.Gone key)
    (bundle : Bundle) (models : List Model) (nowMs : ℕ)
    (r : (Issuance × Bool) × Store) :
    s.commitIssuance key bundle models nowMs ≠ .ok r ∧
      s.getOrIssue key bundle models nowMs ≠ .ok r := by
  obtain ⟨⟨iss, created⟩, s'⟩ := r
  constructor
  · intro hok
    obtain ⟨_, -, ⟨-, hfound, -⟩ | ⟨-, -, hhorizon, -⟩⟩ :=
      commitIssuance_cases hok
    · rw [h.1] at hfound
      cases hfound
    · exact absurd h.2 (Nat.not_lt.mpr hhorizon)
  · intro hok
    obtain ⟨_, -, ⟨-, hfound, -⟩ | ⟨-, -, hhorizon, -⟩⟩ :=
      getOrIssue_cases hok
    · rw [h.1] at hfound
      cases hfound
    · exact absurd h.2 (Nat.not_lt.mpr hhorizon)

/-- The outcomes of a removed issuance are never committed again. -/
theorem Gone.not_matured {s : Store} {key : IssuanceKey} (h : s.Gone key)
    (hs : s.Tidy) (model : Model) (payload : OutcomePayload) (nowMs : ℕ)
    (r : (Outcome × Bool) × Store) :
    s.commitOutcome key model payload nowMs ≠ .ok r := by
  obtain ⟨⟨o, created⟩, s'⟩ := r
  intro hok
  obtain ⟨-, hfound, -⟩ | ⟨iss, -, rfl, hiss, -⟩ := commitOutcome_cases hok
  · have ho := List.mem_of_find?_eq_some hfound
    have hnames : o.issuanceId = key ∧ o.model = model := by
      simpa using List.find?_some hfound
    obtain ⟨iss, hiss, hbelongs⟩ := hs.belongs o ho
    exact Rows.issuance?_eq_none.mp h.1 iss hiss
      (hbelongs.id_eq.symm.trans hnames.1)
  · rw [h.1] at hiss
    cases hiss

/-- Whatever the operations, the crashes and the compactions between two
stores of a run, an issuance keeps its bundle and its models and is never
committed again once it is removed; an issuance and a model have one outcome,
for one of its models and after its window's end; committed rows answer a retry
and refuse other bytes; and the horizon never decreases. -/
theorem journal_immutable (before after : List (Op × Crash)) :
    let s := opRun {} before
    let s' := s.opRun after
    s.horizon ≤ s'.horizon ∧
      (∀ a ∈ s.issuances, ∀ b ∈ s'.issuances, a.key = b.key →
        a.bundle = b.bundle ∧ a.models = b.models) ∧
      (∀ a ∈ s.issuances, a ∉ s'.issuances → ∀ bundle models nowMs r,
        s'.commitIssuance a.key bundle models nowMs ≠ .ok r ∧
          s'.getOrIssue a.key bundle models nowMs ≠ .ok r) ∧
      (∀ o ∈ s.outcomes, ∀ o' ∈ s'.outcomes, o.issuanceId = o'.issuanceId →
        o.model = o'.model → o = o') ∧
      (∀ o ∈ s.outcomes, o ∉ s'.outcomes → ∀ payload nowMs r,
        s'.commitOutcome o.issuanceId o.model payload nowMs ≠ .ok r) ∧
      (∀ o ∈ s'.outcomes, ∃ iss ∈ s'.issuances, o.Belongs iss) ∧
      s'.RetrySafe := by
  intro s s'
  have hs : s.Tidy := (opRun_tidy_extends before tidy_empty).1
  obtain ⟨hs', hextends⟩ : s'.Tidy ∧ s.Extends s' :=
    opRun_tidy_extends after hs
  refine ⟨hextends.horizon_le, ?_, ?_, ?_, ?_, hs'.belongs, hs'.retrySafe⟩
  · intro a ha b hb hkey
    rcases hextends.issuance a ha with ha | hgone
    · rw [eq_of_pairwise_ne hs'.keys_distinct ha hb hkey]
      exact ⟨rfl, rfl⟩
    · exact absurd hkey.symm (Rows.issuance?_eq_none.mp hgone.1 b hb)
  · intro a ha hremoved bundle models nowMs r
    rcases hextends.issuance a ha with ha | hgone
    · exact absurd ha hremoved
    · exact hgone.not_issued bundle models nowMs r
  · intro o ho o' ho' hid hmodel
    rcases hextends.outcome o ho with ho | hgone
    · have hfound := hs'.outcome?_eq_some ho
      rw [hid, hmodel, hs'.outcome?_eq_some ho'] at hfound
      exact (Option.some.inj hfound).symm
    · obtain ⟨iss, hiss, hbelongs⟩ := hs'.belongs o' ho'
      exact absurd (hbelongs.id_eq.symm.trans hid.symm)
        (Rows.issuance?_eq_none.mp hgone.1 iss hiss)
  · intro o ho hremoved payload nowMs r
    rcases hextends.outcome o ho with ho | hgone
    · exact absurd ho hremoved
    · exact hgone.not_matured hs' o.model payload nowMs r

end Store

end PredictiveAutoscaler.Forecasting
