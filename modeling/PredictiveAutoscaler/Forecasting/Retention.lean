/-
What a transaction can change: every change of the store is one of five, and
all but the compaction are of one evidence key.  The rows keep their order and
their keys apart, a committed row stays as it is until the compaction removes
it, and the key of a removed row is retired for good.
-/
import Mathlib.Data.ENat.Basic
import PredictiveAutoscaler.Forecasting.Store

namespace PredictiveAutoscaler.Forecasting

/-- One change of the store by a request of the issuance key `key`, with a
clock that reads at most `untilMs`, if there is a bound. -/
inductive Store.Commit (key : IssuanceKey) (untilMs : ℕ∞) (s : Store) :
    Store → Prop
  | observed (samples : List Store.Sample) :
      Commit key untilMs s (s.recordObservations key.evidenceKey samples)
  | matured {iss : Issuance} {model : Model} (payload : OutcomePayload)
      {nowMs : ℕ} (hek : iss.key.evidenceKey = key.evidenceKey)
      (hiss : s.issuance? iss.key = some iss) (hmodel : model ∈ iss.models)
      (hopen : s.outcome? iss.key model = none)
      (hended : iss.key.windowEnd * 1000 ≤ nowMs) (huntil : nowMs ≤ untilMs) :
      Commit key untilMs s
        (s.appendOutcome (s.nextOutcome iss model payload nowMs))
  | checkpointed (next : Checkpoint)
      (hforward : ∀ cp, s.latestCheckpoint key.evidenceKey = some cp →
        cp.lastOutcomeSeq ≤ next.lastOutcomeSeq) :
      Commit key untilMs s (s.pushCheckpoint key.evidenceKey next)
  | issued (bundle : Bundle) {models : List Model} (nowMs : ℕ)
      (hmodels : models ≠ []) (hnew : s.issuance? key = none)
      (hhorizon : s.horizon ≤ key.windowEnd) :
      Commit key untilMs s
        (s.appendIssuance (s.nextIssuance key bundle models nowMs))
  | compacted (config : StoreConfig) (now : ℕ) :
      Commit key untilMs s (s.compact config now)

section Operations

variable {s s' : Store}

theorem Except.map_eq_ok_iff {α β : Type} {x : Except Raised α} {f : α → β}
    {b : β} : x.map f = .ok b ↔ ∃ a, x = .ok a ∧ f a = b := by
  cases x <;> simp [Except.map]

/-- An outcome that was there already, or the next row. -/
theorem Store.commitOutcome_cases {id : IssuanceKey} {model : Model}
    {payload : OutcomePayload} {nowMs : ℕ} {o : Outcome} {created : Bool}
    (h : s.commitOutcome id model payload nowMs = .ok ((o, created), s')) :
    (created = false ∧ s.outcome? id model = some o ∧ o.payload = payload ∧
      s' = s) ∨
    ∃ iss, created = true ∧ iss.key = id ∧ s.issuance? iss.key = some iss ∧
      model ∈ iss.models ∧ s.outcome? iss.key model = none ∧
      iss.key.windowEnd * 1000 ≤ nowMs ∧
      o = s.nextOutcome iss model payload nowMs ∧ s' = s.appendOutcome o := by
  obtain ⟨⟨found, isNew⟩, hrows, hpair⟩ := Except.bind_eq_ok_iff.mp h
  cases hpair
  rcases Rows.commitOutcome_cases hrows with
    ⟨rfl, hfound, hpayload⟩ | ⟨rfl, hopen, iss, hiss, hmodel, hended, rfl⟩
  · exact .inl ⟨rfl, hfound, hpayload, rfl⟩
  · obtain rfl := Rows.issuance?_key hiss
    have hms : (iss.key.windowEnd : ℤ) * 1000 ≤ nowMs := hended
    exact .inr ⟨iss, rfl, rfl, hiss, hmodel, hopen, by exact_mod_cast hms,
      rfl, rfl⟩

theorem Store.expectedModels_ne_nil {models expected : List Model}
    (h : expectedModels models = .ok expected) : expected ≠ [] := by
  unfold expectedModels at h
  split at h
  · cases h
  rename_i hmodels
  simp only [not_or] at hmodels
  obtain ⟨model, hmodel⟩ := List.exists_mem_of_ne_nil models hmodels.1
  cases h
  refine List.ne_nil_of_mem (a := model) (List.mem_filter.mpr ⟨?_, ?_⟩)
  · cases model <;> simp
  · simpa using hmodel

theorem Store.refuseRetired_eq_ok {key : IssuanceKey} {u : Unit} :
    s.refuseRetired key = .ok u ↔ s.horizon ≤ key.windowEnd := by
  unfold Store.refuseRetired
  split <;> simp <;> omega

/-- An issuance that was there already with the same bundle and models, or the
next row. -/
theorem Store.commitIssuance_cases {key : IssuanceKey} {bundle : Bundle}
    {models : List Model} {nowMs : ℕ} {iss : Issuance} {created : Bool}
    (h : s.commitIssuance key bundle models nowMs =
      .ok ((iss, created), s')) :
    ∃ expected, expectedModels models = .ok expected ∧
      ((created = false ∧ s.issuance? key = some iss ∧ iss.bundle = bundle ∧
          iss.models = expected ∧ s' = s) ∨
        (created = true ∧ s.issuance? key = none ∧
          s.horizon ≤ key.windowEnd ∧
          iss = s.nextIssuance key bundle expected nowMs ∧
          s' = s.appendIssuance iss)) := by
  obtain ⟨⟨found, isNew⟩, hrows, hpair⟩ := Except.bind_eq_ok_iff.mp h
  cases hpair
  obtain ⟨expected, hexpected, ⟨rfl, hfound, hbundle, hmodels⟩ |
    ⟨rfl, hnone, hhorizon, rfl⟩⟩ := Rows.commitIssuance_cases hrows
  · exact ⟨expected, hexpected, .inl ⟨rfl, hfound, hbundle, hmodels, rfl⟩⟩
  · exact ⟨expected, hexpected, .inr ⟨rfl, hnone,
      Store.refuseRetired_eq_ok.mp hhorizon, rfl, rfl⟩⟩

theorem Store.getOrIssue_cases {key : IssuanceKey} {bundle : Bundle}
    {models : List Model} {nowMs : ℕ} {iss : Issuance} {created : Bool}
    (h : s.getOrIssue key bundle models nowMs = .ok ((iss, created), s')) :
    ∃ expected, expectedModels models = .ok expected ∧
      ((created = false ∧ s.issuance? key = some iss ∧
          iss.models = expected ∧ s' = s) ∨
        (created = true ∧ s.issuance? key = none ∧
          s.horizon ≤ key.windowEnd ∧
          iss = s.nextIssuance key bundle expected nowMs ∧
          s' = s.appendIssuance iss)) := by
  obtain ⟨⟨found, isNew⟩, hrows, hpair⟩ := Except.bind_eq_ok_iff.mp h
  cases hpair
  obtain ⟨expected, hexpected, ⟨rfl, hfound, hmodels⟩ |
    ⟨rfl, hnone, hhorizon, rfl⟩⟩ := Rows.getOrIssue_cases hrows
  · exact ⟨expected, hexpected, .inl ⟨rfl, hfound, hmodels, rfl⟩⟩
  · exact ⟨expected, hexpected, .inr ⟨rfl, hnone,
      Store.refuseRetired_eq_ok.mp hhorizon, rfl, rfl⟩⟩

theorem Store.writeCheckpoint_cases {ek : EvidenceKey} {state : EpochState}
    {seq : ℕ} (h : s.writeCheckpoint ek state seq = .ok ((), s')) :
    (s.latestCheckpoint ek = some ⟨seq, state⟩ ∧ s' = s) ∨
      ((∀ cp, s.latestCheckpoint ek = some cp → cp.lastOutcomeSeq ≤ seq) ∧
        s' = s.pushCheckpoint ek ⟨seq, state⟩) := by
  obtain ⟨written, hrows, hpair⟩ := Except.bind_eq_ok_iff.mp h
  cases hpair
  rcases Rows.writesCheckpoint_cases hrows with
    ⟨rfl, hlatest⟩ | ⟨rfl, hforward⟩
  · obtain ⟨cp, hcp, heq⟩ := Option.map_eq_some_iff.mp hlatest
    cases heq
    exact .inl ⟨hcp, rfl⟩
  · refine .inr ⟨fun cp hcp => hforward (cp.lastOutcomeSeq, cp.state) ?_, rfl⟩
    rw [hcp]
    rfl

end Operations

/-- An outcome of this issuance: for one of its models, committed at or after
its window's end. -/
structure Outcome.Belongs (o : Outcome) (iss : Issuance) : Prop where
  id_eq : o.issuanceId = iss.key
  evidenceKey_eq : o.evidenceKey = iss.key.evidenceKey
  windowEnd_eq : o.windowEnd = iss.key.windowEnd
  model_mem : o.model ∈ iss.models
  ended : iss.key.windowEnd * 1000 ≤ o.committedAtMs

/-- The rows of both tables in commit order, one issuance of each key with a
model at least, one outcome of each issuance and model, and the issuance of
every outcome. -/
structure Store.Tidy (s : Store) : Prop where
  models_ne : ∀ iss ∈ s.issuances, iss.models ≠ []
  issuances_le : ∀ iss ∈ s.issuances, 0 < iss.seq ∧ iss.seq ≤ s.issuanceSeq
  issuances_ordered : s.issuances.Pairwise fun a b => a.seq < b.seq
  outcomes_le : ∀ o ∈ s.outcomes, 0 < o.seq ∧ o.seq ≤ s.outcomeSeq
  outcomes_ordered : s.outcomes.Pairwise fun a b => a.seq < b.seq
  keys_distinct : s.issuances.Pairwise fun a b => a.key ≠ b.key
  outcomes_distinct : s.outcomes.Pairwise fun a b =>
    ¬(a.issuanceId = b.issuanceId ∧ a.model = b.model)
  belongs : ∀ o ∈ s.outcomes, ∃ iss ∈ s.issuances, o.Belongs iss

theorem Store.tidy_empty : Store.Tidy {} where
  models_ne _ h := nomatch h
  issuances_le _ h := nomatch h
  issuances_ordered := .nil
  outcomes_le _ h := nomatch h
  outcomes_ordered := .nil
  keys_distinct := .nil
  outcomes_distinct := .nil
  belongs _ h := nomatch h

/-- A list that keeps a relation keeps it with one more row that every row is
related to. -/
theorem pairwise_snoc {A : Type} {R : A → A → Prop} {xs : List A} {x : A}
    (hxs : xs.Pairwise R) (hx : ∀ a ∈ xs, R a x) : (xs ++ [x]).Pairwise R := by
  rw [List.pairwise_append]
  refine ⟨hxs, List.pairwise_singleton R x, fun a ha b hb => ?_⟩
  rw [List.mem_singleton.mp hb]
  exact hx a ha

/-- A function that tells the rows of a list apart is injective on them. -/
theorem eq_of_pairwise_ne {A B : Type} {f : A → B} {xs : List A}
    (h : xs.Pairwise fun a b => f a ≠ f b) {a b : A} (ha : a ∈ xs)
    (hb : b ∈ xs) (heq : f a = f b) : a = b := by
  have hnodup : (xs.map f).Nodup := List.pairwise_map.mpr h
  exact List.inj_on_of_nodup_map hnodup ha hb heq

theorem Store.Tidy.appendOutcome {s : Store} (h : s.Tidy) {iss : Issuance}
    {model : Model} (payload : OutcomePayload) {nowMs : ℕ}
    (hiss : s.issuance? iss.key = some iss) (hmodel : model ∈ iss.models)
    (hopen : s.outcome? iss.key model = none)
    (hended : iss.key.windowEnd * 1000 ≤ nowMs) :
    (s.appendOutcome (s.nextOutcome iss model payload nowMs)).Tidy where
  models_ne := h.models_ne
  issuances_le := h.issuances_le
  issuances_ordered := h.issuances_ordered
  outcomes_le := by
    intro o ho
    rcases List.mem_append.mp ho with ho | ho
    · obtain ⟨hpos, hle⟩ := h.outcomes_le o ho
      exact ⟨hpos, Nat.le_succ_of_le hle⟩
    · rw [List.mem_singleton.mp ho]
      exact ⟨Nat.succ_pos _, Nat.le_refl _⟩
  outcomes_ordered := pairwise_snoc h.outcomes_ordered fun o ho =>
    Nat.lt_succ_of_le (h.outcomes_le o ho).2
  keys_distinct := h.keys_distinct
  outcomes_distinct := pairwise_snoc h.outcomes_distinct
    (Rows.outcome?_eq_none.mp hopen)
  belongs := by
    intro o ho
    rcases List.mem_append.mp ho with ho | ho
    · exact h.belongs o ho
    · rw [List.mem_singleton.mp ho]
      exact ⟨iss, Rows.issuance?_mem hiss, ⟨rfl, rfl, rfl, hmodel, hended⟩⟩

theorem Store.Tidy.appendIssuance {s : Store} (h : s.Tidy)
    {key : IssuanceKey} (bundle : Bundle) {models : List Model} (nowMs : ℕ)
    (hmodels : models ≠ []) (hnew : s.issuance? key = none) :
    (s.appendIssuance (s.nextIssuance key bundle models nowMs)).Tidy where
  models_ne := by
    intro iss hiss
    rcases List.mem_append.mp hiss with hiss | hiss
    · exact h.models_ne iss hiss
    · rw [List.mem_singleton.mp hiss]
      exact hmodels
  issuances_le := by
    intro iss hiss
    rcases List.mem_append.mp hiss with hiss | hiss
    · obtain ⟨hpos, hle⟩ := h.issuances_le iss hiss
      exact ⟨hpos, Nat.le_succ_of_le hle⟩
    · rw [List.mem_singleton.mp hiss]
      exact ⟨Nat.succ_pos _, Nat.le_refl _⟩
  issuances_ordered := pairwise_snoc h.issuances_ordered fun iss hiss =>
    Nat.lt_succ_of_le (h.issuances_le iss hiss).2
  outcomes_le := h.outcomes_le
  outcomes_ordered := h.outcomes_ordered
  keys_distinct := pairwise_snoc h.keys_distinct
    (Rows.issuance?_eq_none.mp hnew)
  outcomes_distinct := h.outcomes_distinct
  belongs := by
    intro o ho
    obtain ⟨iss, hiss, hbelongs⟩ := h.belongs o ho
    exact ⟨iss, List.mem_append_left _ hiss, hbelongs⟩

theorem Store.Tidy.compact {s : Store} (h : s.Tidy) (config : StoreConfig)
    (now : ℕ) : (s.compact config now).Tidy := by
  unfold Store.compact
  simp only
  split
  · exact h
  refine ⟨fun iss hiss => h.models_ne iss (List.mem_of_mem_filter hiss),
    fun iss hiss => h.issuances_le iss (List.mem_of_mem_filter hiss),
    h.issuances_ordered.filter _,
    fun o ho => h.outcomes_le o (List.mem_of_mem_filter ho),
    h.outcomes_ordered.filter _, h.keys_distinct.filter _,
    h.outcomes_distinct.filter _, fun o ho => ?_⟩
  obtain ⟨ho, hkept⟩ := List.mem_filter.mp ho
  obtain ⟨iss, hiss, hbelongs⟩ := h.belongs o ho
  refine ⟨iss, List.mem_filter.mpr ⟨hiss, ?_⟩, hbelongs⟩
  simp only [Store.outcomeRetired, Bool.not_eq_eq_eq_not, Bool.not_true,
    List.any_eq_false, Bool.and_eq_true, decide_eq_true_eq, not_and] at hkept
  simpa using hkept iss hiss hbelongs.id_eq.symm

/-- Every change keeps the rows tidy. -/
theorem Store.Commit.tidy {key : IssuanceKey} {untilMs : ℕ∞} {s s' : Store}
    (h : s.Commit key untilMs s') (hs : s.Tidy) : s'.Tidy := by
  cases h with
  | observed samples =>
      exact ⟨hs.models_ne, hs.issuances_le, hs.issuances_ordered,
        hs.outcomes_le, hs.outcomes_ordered, hs.keys_distinct,
        hs.outcomes_distinct, hs.belongs⟩
  | matured payload _ hiss hmodel hopen hended _ =>
      exact hs.appendOutcome payload hiss hmodel hopen hended
  | checkpointed next _ =>
      exact ⟨hs.models_ne, hs.issuances_le, hs.issuances_ordered,
        hs.outcomes_le, hs.outcomes_ordered, hs.keys_distinct,
        hs.outcomes_distinct, hs.belongs⟩
  | issued bundle nowMs hmodels hnew _ =>
      exact hs.appendIssuance bundle nowMs hmodels hnew
  | compacted config now => exact hs.compact config now

/-- The issuance of a key was removed, and its key is retired. -/
def Store.Gone (s : Store) (key : IssuanceKey) : Prop :=
  s.issuance? key = none ∧ key.windowEnd < s.horizon

/-- A later store: every row is still there or its key is gone, and what is
gone stays gone. -/
structure Store.Extends (s s' : Store) : Prop where
  horizon_le : s.horizon ≤ s'.horizon
  issuance : ∀ iss ∈ s.issuances, iss ∈ s'.issuances ∨ s'.Gone iss.key
  outcome : ∀ o ∈ s.outcomes, o ∈ s'.outcomes ∨ s'.Gone o.issuanceId
  gone : ∀ key, s.Gone key → s'.Gone key

theorem Store.Extends.refl (s : Store) : s.Extends s :=
  ⟨Nat.le_refl _, fun _ h => .inl h, fun _ h => .inl h, fun _ h => h⟩

theorem Store.Extends.trans {s s' s'' : Store} (h : s.Extends s')
    (h' : s'.Extends s'') : s.Extends s'' := by
  refine ⟨h.horizon_le.trans h'.horizon_le, fun iss hiss => ?_,
    fun o ho => ?_, fun key hkey => h'.gone key (h.gone key hkey)⟩
  · rcases h.issuance iss hiss with hiss | hgone
    · exact h'.issuance iss hiss
    · exact .inr (h'.gone _ hgone)
  · rcases h.outcome o ho with ho | hgone
    · exact h'.outcome o ho
    · exact .inr (h'.gone _ hgone)

/-- What the compaction removes is gone. -/
theorem Store.Tidy.extends_compact {s : Store} (h : s.Tidy)
    (config : StoreConfig) (now : ℕ) : s.Extends (s.compact config now) := by
  unfold Store.compact
  simp only
  split
  · exact .refl s
  rename_i hhorizon
  -- A retired row is the only one of its key, so the key is gone with it.
  have hgone : ∀ iss ∈ s.issuances,
      s.retired (now - config.retentionSeconds) iss →
      ∀ b ∈ s.issuances.filter fun b =>
        !s.retired (now - config.retentionSeconds) b, b.key ≠ iss.key := by
    intro iss hiss hretired b hb heq
    obtain ⟨hb, hkept⟩ := List.mem_filter.mp hb
    have hsame : b = iss :=
      eq_of_pairwise_ne h.keys_distinct hb hiss heq
    rw [hsame, hretired] at hkept
    cases hkept
  have hended : ∀ iss, s.retired (now - config.retentionSeconds) iss →
      iss.key.windowEnd < now - config.retentionSeconds := by
    intro iss hretired
    simp only [Store.retired, Bool.and_eq_true, decide_eq_true_eq] at hretired
    exact hretired.1
  refine ⟨Nat.le_of_lt (not_le.mp hhorizon), fun iss hiss => ?_,
    fun o ho => ?_, fun key hkey => ?_⟩
  · cases hretired : s.retired (now - config.retentionSeconds) iss with
    | false =>
        exact .inl (List.mem_filter.mpr ⟨hiss, by simp [hretired]⟩)
    | true =>
        exact .inr ⟨Rows.issuance?_eq_none.mpr (hgone iss hiss hretired),
          hended iss hretired⟩
  · cases hretired : s.outcomeRetired (now - config.retentionSeconds) o with
    | false => exact .inl (List.mem_filter.mpr ⟨ho, by simp [hretired]⟩)
    | true =>
        simp only [Store.outcomeRetired, List.any_eq_true, Bool.and_eq_true,
          decide_eq_true_eq] at hretired
        obtain ⟨iss, hiss, hkey, hretired⟩ := hretired
        rw [← hkey]
        exact .inr ⟨Rows.issuance?_eq_none.mpr (hgone iss hiss hretired),
          hended iss hretired⟩
  · refine ⟨Rows.issuance?_eq_none.mpr fun b hb => ?_, by
      have hlt := hkey.2
      change key.windowEnd < now - config.retentionSeconds
      omega⟩
    exact Rows.issuance?_eq_none.mp hkey.1 b (List.mem_of_mem_filter hb)

/-- Every change extends a tidy store. -/
theorem Store.Commit.extends {key : IssuanceKey} {untilMs : ℕ∞} {s s' : Store}
    (h : s.Commit key untilMs s') (hs : s.Tidy) : s.Extends s' := by
  cases h with
  | observed samples =>
      exact ⟨Nat.le_refl _, fun _ h => .inl h, fun _ h => .inl h,
        fun _ h => h⟩
  | matured payload _ _ _ _ _ _ =>
      exact ⟨Nat.le_refl _, fun _ h => .inl h,
        fun _ h => .inl (List.mem_append_left _ h), fun _ h => h⟩
  | checkpointed next _ =>
      exact ⟨Nat.le_refl _, fun _ h => .inl h, fun _ h => .inl h,
        fun _ h => h⟩
  | issued bundle nowMs _ _ hhorizon =>
      refine ⟨Nat.le_refl _, fun _ h => .inl (List.mem_append_left _ h),
        fun _ h => .inl h, fun gone hgone => ?_⟩
      refine ⟨Rows.issuance?_eq_none.mpr fun b hb => ?_, hgone.2⟩
      rcases List.mem_append.mp hb with hb | hb
      · exact Rows.issuance?_eq_none.mp hgone.1 b hb
      · rw [List.mem_singleton.mp hb]
        rintro rfl
        exact absurd hgone.2 (Nat.not_lt.mpr hhorizon)
  | compacted config now => exact hs.extends_compact config now

/-- The issuance of a key in a tidy store is the row of that key. -/
theorem Store.Tidy.issuance?_eq_some {s : Store} (h : s.Tidy)
    {iss : Issuance} (hiss : iss ∈ s.issuances) :
    s.issuance? iss.key = some iss := by
  cases hfound : s.issuance? iss.key with
  | none => exact absurd rfl (Rows.issuance?_eq_none.mp hfound iss hiss)
  | some found =>
      have hkey := Rows.issuance?_key hfound
      rw [eq_of_pairwise_ne h.keys_distinct
        (Rows.issuance?_mem hfound) hiss hkey]

end PredictiveAutoscaler.Forecasting
