/-
Compaction and recovery.  What the compaction removes lies before both cursors
of the epoch's latest checkpoint, so recovery reads the same rows with the same
issuances; and the retention of an epoch counts what was removed, so the counts
of every row ever committed stay known.
-/
import PredictiveAutoscaler.Forecasting.Commits

namespace PredictiveAutoscaler.Forecasting

section Cursors

variable {ctx : RecoverContext} {journal : Journal} {state next : EpochState}

theorem foldIssuance_cursors {iss : Issuance}
    (h : foldIssuance ctx state iss = .ok next) :
    next.lastIssuanceSeq = iss.seq ∧
      next.lastOutcomeSeq = state.lastOutcomeSeq := by
  unfold foldIssuance at h
  obtain ⟨folded, hfolded, h⟩ := Except.bind_eq_ok_iff.mp h
  cases h
  refine ⟨rfl, ?_⟩
  change folded.lastOutcomeSeq = state.lastOutcomeSeq
  refine foldlM_keeps (P := fun s : EpochState =>
    s.lastOutcomeSeq = state.lastOutcomeSeq) ?_ rfl hfolded
  intro s model _ s' hs hcandidate
  unfold foldCandidate at hcandidate
  obtain ⟨c, -, hcandidate⟩ := Except.bind_eq_ok_iff.mp hcandidate
  obtain ⟨ledger, -, hcandidate⟩ := Except.bind_eq_ok_iff.mp hcandidate
  cases hcandidate
  exact hs

theorem foldOutcome_cursors {o : Outcome}
    (h : foldOutcome ctx journal state o = .ok next) :
    next.lastOutcomeSeq = o.seq ∧
      next.lastIssuanceSeq = state.lastIssuanceSeq := by
  unfold foldOutcome at h
  obtain ⟨r, hr, h⟩ := Except.bind_eq_ok_iff.mp h
  obtain ⟨iss, c, truth, -, -, hcal, -⟩ := Journal.record_eq_ok hr
  unfold foldRecord at h
  obtain ⟨calibration, -, h⟩ := Except.bind_eq_ok_iff.mp h
  obtain ⟨ledger, -, h⟩ := Except.bind_eq_ok_iff.mp h
  obtain ⟨pairs, -, h⟩ := Except.bind_eq_ok_iff.mp h
  cases h
  exact ⟨congrArg Calibration.Record.seq hcal, rfl⟩

/-- A recovery that returns moves both cursors to the last rows it folded. -/
theorem recover_cursors (h : recover ctx journal state = .ok next) :
    next.lastIssuanceSeq = lastSeqOf Rows.Issuance.seq state.lastIssuanceSeq
        (journal.issuancesAfter ctx.ek state.lastIssuanceSeq) ∧
      next.lastOutcomeSeq = lastSeqOf Rows.Outcome.seq state.lastOutcomeSeq
        (journal.outcomesAfter ctx.ek state.lastOutcomeSeq) := by
  unfold recover twoPass at h
  obtain ⟨folded, hissuances, houtcomes⟩ := Except.bind_eq_ok_iff.mp h
  have hissuanceSeq : folded.lastIssuanceSeq = lastSeqOf Rows.Issuance.seq
      state.lastIssuanceSeq _ := foldlM_cursor Rows.Issuance.seq
    (fun s iss _ s' hstep => (foldIssuance_cursors hstep).1) hissuances
  have houtcomeKept : folded.lastOutcomeSeq = state.lastOutcomeSeq :=
    foldlM_keeps (P := fun s : EpochState =>
      s.lastOutcomeSeq = state.lastOutcomeSeq)
      (fun s iss _ s' hs hstep => (foldIssuance_cursors hstep).2.trans hs) rfl
      hissuances
  have houtcomeSeq : next.lastOutcomeSeq = lastSeqOf Rows.Outcome.seq
      folded.lastOutcomeSeq _ := foldlM_cursor Rows.Outcome.seq
    (fun s o _ s' hstep => (foldOutcome_cursors hstep).1) houtcomes
  have hissuanceKept : next.lastIssuanceSeq = folded.lastIssuanceSeq :=
    foldlM_keeps (P := fun s : EpochState =>
      s.lastIssuanceSeq = folded.lastIssuanceSeq)
      (fun s o _ s' hs hstep => (foldOutcome_cursors hstep).2.trans hs) rfl
      houtcomes
  rw [hissuanceKept, hissuanceSeq, houtcomeSeq, houtcomeKept]
  exact ⟨rfl, rfl⟩

/-- A build moves no cursor. -/
theorem build_cursors {config : ServiceConfig} {ic : IssueContext}
    {call : Call} {healthy : Bool} {bundle : Bundle}
    (h : build config ic call healthy state = .ok (bundle, next)) :
    next.lastIssuanceSeq = state.lastIssuanceSeq ∧
      next.lastOutcomeSeq = state.lastOutcomeSeq := by
  unfold build at h
  simp only at h
  split at h
  · cases h
  obtain ⟨built, hbuilt, h⟩ := Except.bind_eq_ok_iff.mp h
  obtain ⟨verdict, -, h⟩ := Except.bind_eq_ok_iff.mp h
  cases h
  refine foldlM_keeps (P := fun b : Built =>
    b.state.lastIssuanceSeq = state.lastIssuanceSeq ∧
      b.state.lastOutcomeSeq = state.lastOutcomeSeq) ?_ ⟨rfl, rfl⟩ hbuilt
  intro b p _ b' hb hcandidate
  unfold buildCandidate at hcandidate
  obtain ⟨bounded, -, hcandidate⟩ := Except.bind_eq_ok_iff.mp hcandidate
  cases hcandidate
  exact hb

end Cursors

/-- The cursors of an epoch's state in a store: it folded no outcome that the
store has not given out, and the issuance of every outcome it folded. -/
structure Cursors (ek : EvidenceKey) (s : Store) (state : EpochState) :
    Prop where
  outcome_le : state.lastOutcomeSeq ≤ s.outcomeSeq
  folded : ∀ o ∈ s.outcomes, o.evidenceKey = ek →
    o.seq ≤ state.lastOutcomeSeq → ∀ iss ∈ s.issuances,
    iss.key = o.issuanceId → iss.seq ≤ state.lastIssuanceSeq

theorem Cursors.initial {s : Store} (hs : s.Tidy) (recipes : Recipes)
    (ek : EvidenceKey) : Cursors ek s (.initial recipes ek) := by
  refine ⟨Nat.zero_le _, fun o ho _ hle => ?_⟩
  exact absurd hle (Nat.not_le.mpr (hs.outcomes_le o ho).1)

theorem Cursors.commit {ek : EvidenceKey} {s s' : Store} {state : EpochState}
    {key : IssuanceKey} {untilMs : ℕ∞} (h : Cursors ek s state)
    (hs : s.Tidy) (hcommit : s.Commit key untilMs s') :
    Cursors ek s' state := by
  cases hcommit with
  | observed samples => exact ⟨h.outcome_le, h.folded⟩
  | matured payload _ _ _ _ _ _ =>
      refine ⟨Nat.le_succ_of_le h.outcome_le, fun o ho hek hle => ?_⟩
      rcases List.mem_append.mp ho with ho | ho
      · exact h.folded o ho hek hle
      · rw [List.mem_singleton.mp ho] at hle
        exact absurd (Nat.le_trans hle h.outcome_le) (Nat.not_succ_le_self _)
  | checkpointed next _ => exact ⟨h.outcome_le, h.folded⟩
  | issued bundle nowMs _ hnew _ =>
      refine ⟨h.outcome_le, fun o ho hek hle iss hiss hkey => ?_⟩
      rcases List.mem_append.mp hiss with hiss | hiss
      · exact h.folded o ho hek hle iss hiss hkey
      · -- No outcome names a key that the store does not hold.
        rw [List.mem_singleton.mp hiss] at hkey
        obtain ⟨owner, howner, hbelongs⟩ := hs.belongs o ho
        exact absurd (hbelongs.id_eq.symm.trans hkey.symm)
          (Rows.issuance?_eq_none.mp hnew owner howner)
  | compacted config now =>
      unfold Store.compact
      simp only
      split
      · exact h
      · exact ⟨h.outcome_le, fun o ho hek hle iss hiss =>
          h.folded o (List.mem_of_mem_filter ho) hek hle iss
            (List.mem_of_mem_filter hiss)⟩

theorem Cursors.recovered {ctx : RecoverContext} {s : Store}
    {state next : EpochState} (h : Cursors ctx.ek s state) (hs : s.Tidy)
    (hrecover : recover ctx s.toJournal state = .ok next) :
    Cursors ctx.ek s next := by
  obtain ⟨hissuance, houtcome⟩ := recover_cursors hrecover
  constructor
  · rw [houtcome]
    rcases @lastSeqOf_mem _ Rows.Outcome.seq state.lastOutcomeSeq
      (s.outcomesAfter ctx.ek state.lastOutcomeSeq) with hstart | ⟨o, ho, hlast⟩
    · rw [hstart]
      exact h.outcome_le
    · rw [hlast]
      exact (hs.outcomes_le o (List.mem_of_mem_filter ho)).2
  · intro o ho hek _ iss hiss hkey
    -- Every issuance of the epoch is folded, whatever the outcomes.
    obtain ⟨owner, howner, hbelongs⟩ := hs.belongs o ho
    have howned : owner = iss := eq_of_pairwise_ne hs.keys_distinct howner hiss
      (hbelongs.id_eq.symm.trans hkey.symm)
    have hissEk : iss.key.evidenceKey = ctx.ek := by
      rw [← howned, ← hbelongs.evidenceKey_eq, hek]
    rw [hissuance]
    by_cases hold : iss.seq ≤ state.lastIssuanceSeq
    · rcases @lastSeqOf_mem _ Rows.Issuance.seq state.lastIssuanceSeq
        (s.issuancesAfter ctx.ek state.lastIssuanceSeq) with
        hstart | ⟨last, hmem, hlast⟩
      · rwa [hstart]
      · rw [hlast]
        have hafter := (List.mem_filter.mp hmem).2
        simp only [Bool.and_eq_true, decide_eq_true_eq] at hafter
        exact hold.trans (Nat.le_of_lt hafter.2)
    · refine le_lastSeqOf _ (hs.issuances_ordered.filter _) iss ?_
      refine List.mem_filter.mpr ⟨hiss, ?_⟩
      simp only [Bool.and_eq_true, decide_eq_true_eq]
      exact ⟨hissEk, Nat.not_le.mp hold⟩

/-- Every request keeps the rows tidy and the cursors of every checkpoint. -/
theorem requestInvariant_cursors (config : ServiceConfig) (key : IssuanceKey) :
    RequestInvariant config key ⊤ Store.Tidy Cursors where
  commit s s' hs hcommit := hcommit.tidy hs
  state ek s s' state hs hstate hcommit := hstate.commit hs hcommit
  initial s hs := .initial hs _ _
  recovered ctx s state state' _ _ hs hstate hrecover :=
    hstate.recovered hs hrecover
  built ic call healthy s state bundle state' _ _ hstate hbuild := by
    obtain ⟨hissuance, houtcome⟩ := build_cursors hbuild
    exact ⟨houtcome ▸ hstate.outcome_le, houtcome ▸ hissuance ▸ hstate.folded⟩

/-- The store of every run is tidy and its checkpoints keep their cursors. -/
theorem Service.run_cursors (config : ServiceConfig) (events : List Event) :
    (Service.run config {} events).store.Holds Store.Tidy Cursors :=
  Service.run_holds (requestInvariant_cursors config)
    ⟨Store.tidy_empty, fun _ _ h => by cases h⟩ events

/-- The last outcome folded into the latest checkpoint of an epoch. -/
def Store.checkpointSeq (store : Store) (ek : EvidenceKey) : ℕ :=
  ((store.latestCheckpoint ek).map Checkpoint.lastOutcomeSeq).getD 0

/-- `ForecastStore.recover`: the latest checkpoint with every later outcome
folded in once, in sequence order; the fold may read the outcome's issuance.
Returns the state, the last outcome and how many were applied. -/
def Store.recover {S : Type} (store : Store) (ek : EvidenceKey)
    (load : EpochState → S)
    (fold : S → Outcome → Option Issuance → Except Raised S) (initial : S) :
    Except Raised (S × ℕ × ℕ) :=
  let state := ((store.latestCheckpoint ek).map fun cp =>
    load cp.state).getD initial
  (store.outcomesAfter ek (store.checkpointSeq ek)).foldlM
    (fun acc o => do
      return (← fold acc.1 o (store.issuance? o.issuanceId), o.seq,
        acc.2.2 + 1))
    (state, store.checkpointSeq ek, 0)

section Recovery

variable {s : Store}

theorem Store.retired_covered {horizon : ℕ} {iss : Issuance}
    (h : s.retired horizon iss = true) :
    (∀ o ∈ s.outcomes, o.issuanceId = iss.key →
      o.seq ≤ s.checkpointSeq iss.key.evidenceKey) ∧
    ∀ model ∈ iss.models, ∃ o ∈ s.outcomes, o.issuanceId = iss.key ∧
      o.model = model := by
  simp only [Store.retired, Store.covered, Store.outcomesOf, Bool.and_eq_true,
    List.all_eq_true, decide_eq_true_eq, List.mem_filter] at h
  obtain ⟨-, hmodels, hseq⟩ := h
  refine ⟨fun o ho hid => hseq o ⟨ho, hid⟩, fun model hmodel => ?_⟩
  have hmem := (of_decide_eq_true hmodels model).mpr hmodel
  obtain ⟨o, ho, hmodel⟩ := List.mem_map.mp hmem
  simp only [List.mem_filter, decide_eq_true_eq] at ho
  exact ⟨o, ho.1, ho.2, hmodel⟩

/-- What is retired lies before both cursors of the latest checkpoint. -/
theorem Store.Holds.retired_folded (hs : s.Holds Store.Tidy Cursors)
    {horizon : ℕ} {iss : Issuance} (hiss : iss ∈ s.issuances)
    (hretired : s.retired horizon iss = true) (recipes : Recipes) :
    iss.seq ≤ (s.startState recipes iss.key.evidenceKey).lastIssuanceSeq := by
  obtain ⟨hseq, houtcomes⟩ := Store.retired_covered hretired
  obtain ⟨model, hmodel⟩ :=
    List.exists_mem_of_ne_nil _ (hs.1.models_ne iss hiss)
  obtain ⟨o, ho, hid, -⟩ := houtcomes model hmodel
  have hle := hseq o ho hid
  obtain ⟨owner, howner, hbelongs⟩ := hs.1.belongs o ho
  have howned : owner = iss := eq_of_pairwise_ne hs.1.keys_distinct howner hiss
    (hbelongs.id_eq.symm.trans hid)
  subst howned
  unfold Store.checkpointSeq at hle
  unfold Store.startState
  cases hcp : s.latestCheckpoint owner.key.evidenceKey with
  | none =>
      rw [hcp] at hle
      exact absurd hle (Nat.not_le.mpr (hs.1.outcomes_le o ho).1)
  | some cp =>
      rw [hcp] at hle
      obtain ⟨hcpSeq, hcursors⟩ := hs.2 _ cp hcp
      exact hcursors.folded o ho hbelongs.evidenceKey_eq (hcpSeq ▸ hle) owner
        howner hid.symm

theorem Store.Holds.startState_lastOutcomeSeq
    (hs : s.Holds Store.Tidy Cursors) (recipes : Recipes) (ek : EvidenceKey) :
    (s.startState recipes ek).lastOutcomeSeq = s.checkpointSeq ek := by
  unfold Store.startState Store.checkpointSeq
  cases hcp : s.latestCheckpoint ek with
  | none => rfl
  | some cp => exact (hs.2 ek cp hcp).1.symm

@[simp] theorem Store.checkpointSeq_compact (config : StoreConfig) (now : ℕ)
    (ek : EvidenceKey) :
    (s.compact config now).checkpointSeq ek = s.checkpointSeq ek := by
  simp only [Store.checkpointSeq, Store.latestCheckpoint_compact]

@[simp] theorem Store.startState_compact (config : StoreConfig) (now : ℕ)
    (recipes : Recipes) (ek : EvidenceKey) :
    (s.compact config now).startState recipes ek = s.startState recipes ek := by
  simp only [Store.startState, Store.latestCheckpoint_compact]

/-- A filter that drops only what another filter drops as well. -/
theorem filter_filter_of_imp {A : Type} {p q : A → Bool} {xs : List A}
    (h : ∀ a ∈ xs, p a = true → q a = true) :
    (xs.filter q).filter p = xs.filter p := by
  rw [List.filter_filter]
  refine List.filter_congr fun a ha => ?_
  cases hp : p a with
  | false => rfl
  | true => simp [h a ha hp]

/-- The compaction keeps every outcome that recovery still reads. -/
theorem Store.Tidy.outcomesAfter_compact (hs : s.Tidy)
    (config : StoreConfig) (now : ℕ) (ek : EvidenceKey) :
    (s.compact config now).outcomesAfter ek (s.checkpointSeq ek) =
      s.outcomesAfter ek (s.checkpointSeq ek) := by
  unfold Store.compact
  simp only
  split
  · rfl
  refine filter_filter_of_imp fun o ho hread => ?_
  rw [decide_eq_true_eq] at hread
  simp only [Store.outcomeRetired, Bool.not_eq_eq_eq_not, Bool.not_true,
    List.any_eq_false, Bool.and_eq_true, decide_eq_true_eq, not_and]
  intro iss hiss hkey hretired
  obtain ⟨owner, howner, hbelongs⟩ := hs.belongs o ho
  have howned : owner = iss := eq_of_pairwise_ne hs.keys_distinct howner hiss
    (hbelongs.id_eq.symm.trans hkey.symm)
  have hle := (Store.retired_covered hretired).1 o ho hkey.symm
  rw [← howned, ← hbelongs.evidenceKey_eq, hread.1] at hle
  exact absurd hread.2 (Nat.not_lt.mpr hle)

/-- The compaction keeps every issuance that recovery still reads. -/
theorem Store.Holds.issuancesAfter_compact
    (hs : s.Holds Store.Tidy Cursors) (config : StoreConfig) (now : ℕ)
    (recipes : Recipes) (ek : EvidenceKey) :
    (s.compact config now).issuancesAfter ek
        (s.startState recipes ek).lastIssuanceSeq =
      s.issuancesAfter ek (s.startState recipes ek).lastIssuanceSeq := by
  unfold Store.compact
  simp only
  split
  · rfl
  refine filter_filter_of_imp fun iss hiss hread => ?_
  simp only [Bool.and_eq_true, decide_eq_true_eq] at hread
  cases hretired : s.retired (now - config.retentionSeconds) iss with
  | false => rfl
  | true =>
      have hle := hs.retired_folded hiss hretired recipes
      rw [hread.1] at hle
      exact absurd hread.2 (Nat.not_lt.mpr hle)

/-- An outcome that recovery still reads keeps its issuance. -/
theorem Store.Tidy.issuance?_compact (hs : s.Tidy) (config : StoreConfig)
    (now : ℕ) {ek : EvidenceKey} {o : Outcome}
    (ho : o ∈ s.outcomesAfter ek (s.checkpointSeq ek)) :
    ∃ iss, (s.compact config now).issuance? o.issuanceId = some iss ∧
      s.issuance? o.issuanceId = some iss ∧ o.Belongs iss := by
  have hkept : o ∈ (s.compact config now).outcomes := by
    rw [← hs.outcomesAfter_compact config now ek] at ho
    exact List.mem_of_mem_filter ho
  have hs' := hs.compact config now
  obtain ⟨iss, hiss, hbelongs⟩ := hs'.belongs o hkept
  refine ⟨iss, ?_, ?_, hbelongs⟩
  · rw [hbelongs.id_eq]
    exact hs'.issuance?_eq_some hiss
  · have hold : iss ∈ s.issuances := by
      revert hiss
      unfold Store.compact
      simp only
      split
      · exact fun h => h
      · exact fun h => List.mem_of_mem_filter h
    rw [hbelongs.id_eq]
    exact hs.issuance?_eq_some hold

theorem foldlM_congr {S A : Type} {F G : S → A → Except Raised S}
    {items : List A} (h : ∀ s, ∀ a ∈ items, F s a = G s a) (s : S) :
    items.foldlM F s = items.foldlM G s := by
  induction items generalizing s with
  | nil => rfl
  | cons a rest ih =>
      rw [List.foldlM_cons, List.foldlM_cons, h s a List.mem_cons_self]
      cases G s a with
      | error raised => rfl
      | ok next =>
          exact ih (fun s b hb => h s b (List.mem_cons_of_mem a hb)) next

theorem Store.Tidy.recover_compact (hs : s.Tidy) (config : StoreConfig)
    (now : ℕ) {S : Type} (ek : EvidenceKey) (load : EpochState → S)
    (fold : S → Outcome → Option Issuance → Except Raised S) (initial : S) :
    (s.compact config now).recover ek load fold initial =
      s.recover ek load fold initial := by
  unfold Store.recover
  simp only [Store.checkpointSeq_compact, Store.latestCheckpoint_compact,
    hs.outcomesAfter_compact]
  refine foldlM_congr (fun acc o ho => ?_) _
  obtain ⟨iss, hiss', hiss, -⟩ := hs.issuance?_compact config now ho
  rw [hiss', hiss]

theorem Store.Holds.recover_startState_compact
    (hs : s.Holds Store.Tidy Cursors) (config : StoreConfig) (now : ℕ)
    (recipes : Recipes) (ctx : RecoverContext) :
    Forecasting.recover ctx (s.compact config now).toJournal
        ((s.compact config now).startState recipes ctx.ek) =
      Forecasting.recover ctx s.toJournal (s.startState recipes ctx.ek) := by
  unfold Forecasting.recover twoPass
  rw [Store.startState_compact, hs.issuancesAfter_compact,
    hs.startState_lastOutcomeSeq, hs.1.outcomesAfter_compact]
  refine congrArg _ (funext fun state => ?_)
  refine foldlM_congr (fun acc o ho => ?_) _
  obtain ⟨iss, hiss', hiss, -⟩ := hs.1.issuance?_compact config now ho
  unfold foldOutcome Journal.record
  rw [hiss', hiss]

end Recovery

section Rows

variable {A : Type}

/-- The rows that a table held at some time: those that are gone and those
that are there, each of them once. -/
structure EverHeld (past : List (List A)) (gone rows : List A) : Prop where
  mem_iff : ∀ a, a ∈ past.flatten ↔ a ∈ gone ++ rows
  nodup : (gone ++ rows).Nodup

variable {past : List (List A)} {gone rows : List A}

theorem EverHeld.same (h : EverHeld past gone rows) :
    EverHeld (past ++ [rows]) gone rows := by
  refine ⟨fun a => ?_, h.nodup⟩
  rw [List.flatten_append, List.mem_append, h.mem_iff]
  simp only [List.flatten_cons, List.flatten_nil, List.append_nil,
    List.mem_append, or_iff_left_iff_imp]
  exact .inr

theorem EverHeld.append (h : EverHeld past gone rows) {a : A}
    (hnew : a ∉ gone ++ rows) :
    EverHeld (past ++ [rows ++ [a]]) gone (rows ++ [a]) := by
  constructor
  · intro b
    have hb := h.mem_iff b
    simp only [List.flatten_append, List.flatten_cons, List.flatten_nil,
      List.append_nil, List.mem_append, List.mem_singleton] at hb ⊢
    tauto
  · rw [← List.append_assoc]
    refine List.Nodup.append h.nodup (List.nodup_singleton a) ?_
    exact List.disjoint_singleton.mpr hnew

theorem EverHeld.remove (h : EverHeld past gone rows) (p : A → Bool) :
    EverHeld (past ++ [rows.filter fun a => !p a]) (gone ++ rows.filter p)
      (rows.filter fun a => !p a) := by
  have hperm : (gone ++ rows.filter p ++ rows.filter fun a => !p a).Perm
      (gone ++ rows) := by
    rw [List.append_assoc]
    exact (List.filter_append_perm p rows).append_left gone
  refine ⟨fun a => ?_, hperm.nodup_iff.mpr h.nodup⟩
  rw [hperm.mem_iff, List.flatten_append, List.mem_append, h.mem_iff]
  simp only [List.flatten_cons, List.flatten_nil, List.append_nil,
    List.mem_append, List.mem_filter, or_iff_left_iff_imp]
  exact fun ha => .inr ha.1

/-- The rows ever held, listed once each. -/
theorem EverHeld.perm [DecidableEq A] (h : EverHeld past gone rows) :
    past.flatten.dedup.Perm (gone ++ rows) := by
  rw [List.perm_ext_iff_of_nodup (List.nodup_dedup _) h.nodup]
  intro a
  rw [List.mem_dedup, h.mem_iff]

/-- The items with a listed name are those of each name together. -/
theorem countP_filter_mem {B N : Type} [DecidableEq N] (name : B → N)
    (p : B → Bool) (items : List B) {names : List N} (hnames : names.Nodup) :
    (items.filter fun b => decide (name b ∈ names)).countP p =
      (names.map fun n =>
        (items.filter fun b => decide (name b = n)).countP p).sum := by
  induction names with
  | nil => simp
  | cons n names ih =>
      rw [List.nodup_cons] at hnames
      rw [List.map_cons, List.sum_cons, ← ih hnames.2,
        List.countP_eq_countP_filter_add _ p fun b => decide (name b = n),
        List.filter_filter, List.filter_filter]
      congr 2
      · refine List.filter_congr fun b _ => ?_
        by_cases hb : name b = n <;> simp [hb]
      · refine List.filter_congr fun b _ => ?_
        by_cases hb : name b = n
        · simp [hb, hnames.1]
        · simp [hb]

end Rows

/-- Counts of issuances and of their terminal outcomes. -/
@[ext] structure Counts where
  issued : ℕ
  scored : ℕ
  unscorable : ℕ
deriving DecidableEq, Repr

instance : Add Counts :=
  ⟨fun a b => ⟨a.issued + b.issued, a.scored + b.scored,
    a.unscorable + b.unscorable⟩⟩

@[simp] theorem Counts.add_def (a b : Counts) :
    a + b = ⟨a.issued + b.issued, a.scored + b.scored,
      a.unscorable + b.unscorable⟩ := rfl

def OutcomePayload.isScored : OutcomePayload → Bool
  | .scored _ => true
  | .unscorable _ => false

def OutcomePayload.isUnscorable : OutcomePayload → Bool
  | .scored _ => false
  | .unscorable _ => true

/-- The rows of one epoch, counted. -/
def rowCounts (ek : EvidenceKey) (issuances : List Issuance)
    (outcomes : List Outcome) : Counts where
  issued := issuances.countP fun iss => decide (iss.key.evidenceKey = ek)
  scored := outcomes.countP fun o =>
    decide (o.evidenceKey = ek) && o.payload.isScored
  unscorable := outcomes.countP fun o =>
    decide (o.evidenceKey = ek) && o.payload.isUnscorable

theorem rowCounts_append (ek : EvidenceKey) (as as' : List Issuance)
    (os os' : List Outcome) :
    rowCounts ek (as ++ as') (os ++ os') =
      rowCounts ek as os + rowCounts ek as' os' := by
  simp [rowCounts, List.countP_append]

theorem rowCounts_perm (ek : EvidenceKey) {as as' : List Issuance}
    {os os' : List Outcome} (has : as.Perm as') (hos : os.Perm os') :
    rowCounts ek as os = rowCounts ek as' os' := by
  simp only [rowCounts, has.countP_eq, hos.countP_eq]

def Retention.counts (r : Retention) : Counts :=
  ⟨r.issued, r.scored, r.unscorable⟩

/-- What the retention of an epoch counts, with the rows still present. -/
def Store.accounted (s : Store) (ek : EvidenceKey) : Counts :=
  ((s.retention ek).getD {}).counts + rowCounts ek s.issuances s.outcomes

/-- The rows of an epoch that any of the journals held, counted once each. -/
def committedCounts (journals : List Store) (ek : EvidenceKey) : Counts :=
  rowCounts ek (journals.map fun s => s.issuances).flatten.dedup
    (journals.map fun s => s.outcomes).flatten.dedup

section Accounted

variable {s s' : Store}

theorem Retention.remove_counts (r : Retention) (iss : Issuance)
    (outs : List Outcome) :
    (r.remove iss outs).counts = r.counts +
      ⟨1, outs.countP fun o => o.payload.isScored,
        outs.countP fun o => o.payload.isUnscorable⟩ := by
  refine Counts.ext rfl (congrArg (r.scored + ·) ?_)
    (congrArg (r.unscorable + ·) ?_)
  · refine List.countP_congr fun o _ => ?_
    cases o.payload <;> simp [OutcomePayload.isScored]
  · refine List.countP_congr fun o _ => ?_
    cases o.payload <;> simp [OutcomePayload.isUnscorable]

theorem Retention.foldl_remove_counts (outs : IssuanceKey → List Outcome)
    (gone : List Issuance) (r : Retention) :
    (gone.foldl (fun r iss => r.remove iss (outs iss.key)) r).counts =
      r.counts + ⟨gone.length,
        ((gone.map Rows.Issuance.key).map fun key =>
          (outs key).countP fun o => o.payload.isScored).sum,
        ((gone.map Rows.Issuance.key).map fun key =>
          (outs key).countP fun o => o.payload.isUnscorable).sum⟩ := by
  induction gone generalizing r with
  | nil => rfl
  | cons iss rest ih =>
      rw [List.foldl_cons, ih, Retention.remove_counts]
      simp only [Counts.add_def, List.length_cons, List.map_cons,
        List.sum_cons, Counts.mk.injEq]
      omega

/-- The retired outcomes of an epoch are those of its retired issuances. -/
theorem Store.Tidy.countP_outcomeRetired (hs : s.Tidy) (horizon : ℕ)
    (ek : EvidenceKey) (p : Outcome → Bool) :
    (((s.issuances.filter fun iss => decide (iss.key.evidenceKey = ek) &&
        s.retired horizon iss).map Rows.Issuance.key).map fun key =>
          (s.outcomesOf key).countP p).sum =
      (s.outcomes.filter fun o => s.outcomeRetired horizon o).countP fun o =>
        decide (o.evidenceKey = ek) && p o := by
  have hnodup : ((s.issuances.filter fun iss =>
      decide (iss.key.evidenceKey = ek) && s.retired horizon iss).map
        Rows.Issuance.key).Nodup :=
    List.pairwise_map.mpr (hs.keys_distinct.filter _)
  unfold Store.outcomesOf
  rw [← countP_filter_mem Rows.Outcome.issuanceId p s.outcomes hnodup,
    List.countP_filter, List.countP_filter]
  refine List.countP_congr fun o ho => ?_
  obtain ⟨owner, howner, hbelongs⟩ := hs.belongs o ho
  simp only [Bool.and_eq_true, decide_eq_true_eq, List.mem_map,
    List.mem_filter, Store.outcomeRetired, List.any_eq_true]
  constructor
  · rintro ⟨hp, iss, ⟨hiss, hek, hretired⟩, hkey⟩
    have howned : owner = iss := eq_of_pairwise_ne hs.keys_distinct howner hiss
      (hbelongs.id_eq.symm.trans hkey.symm)
    refine ⟨⟨?_, hp⟩, iss, hiss, hkey, hretired⟩
    rw [hbelongs.evidenceKey_eq, howned, hek]
  · rintro ⟨⟨hek, hp⟩, iss, hiss, hkey, hretired⟩
    have howned : owner = iss := eq_of_pairwise_ne hs.keys_distinct howner hiss
      (hbelongs.id_eq.symm.trans hkey.symm)
    refine ⟨hp, iss, ⟨hiss, ?_, hretired⟩, hkey⟩
    rw [← howned, ← hbelongs.evidenceKey_eq, hek]

/-- The retention of an epoch counts what the compaction removes. -/
theorem Store.Tidy.retain_counts (hs : s.Tidy) (horizon : ℕ)
    (ek : EvidenceKey) :
    ((s.retain horizon ek).getD {}).counts =
      ((s.retention ek).getD {}).counts +
        rowCounts ek (s.issuances.filter fun iss => s.retired horizon iss)
          (s.outcomes.filter fun o => s.outcomeRetired horizon o) := by
  have hissued : (s.issuances.filter fun iss =>
      decide (iss.key.evidenceKey = ek) && s.retired horizon iss).length =
      (s.issuances.filter fun iss => s.retired horizon iss).countP fun iss =>
        decide (iss.key.evidenceKey = ek) := by
    rw [List.countP_filter, List.countP_eq_length_filter]
  have hrows := Retention.foldl_remove_counts s.outcomesOf
    (s.issuances.filter fun iss => decide (iss.key.evidenceKey = ek) &&
      s.retired horizon iss) ((s.retention ek).getD {})
  rw [hs.countP_outcomeRetired horizon ek, hs.countP_outcomeRetired horizon ek,
    hissued] at hrows
  unfold Store.retain
  simp only
  split
  · rename_i hnone
    rw [hnone] at hrows
    exact hrows
  · exact hrows

/-- The compaction moves rows into the retention and loses none. -/
theorem Store.Tidy.accounted_compact (hs : s.Tidy) (config : StoreConfig)
    (now : ℕ) (ek : EvidenceKey) :
    (s.compact config now).accounted ek = s.accounted ek := by
  unfold Store.compact
  simp only
  split
  · rfl
  rename_i hhorizon
  have hsplit := rowCounts_perm ek
    (List.filter_append_perm
      (fun iss => s.retired (now - config.retentionSeconds) iss) s.issuances)
    (List.filter_append_perm
      (fun o => s.outcomeRetired (now - config.retentionSeconds) o) s.outcomes)
  rw [rowCounts_append] at hsplit
  unfold Store.accounted
  rw [← hsplit, hs.retain_counts]
  simp only [Counts.add_def, Counts.mk.injEq]
  omega

/-- Every row that a journal of the past held is in the store or among the
rows that are gone, and the retention counts those. -/
structure Accounted (past : List Store) (s : Store) (gone : List Issuance)
    (goneOutcomes : List Outcome) : Prop where
  issuances : EverHeld (past.map fun s => s.issuances) gone s.issuances
  outcomes : EverHeld (past.map fun s => s.outcomes) goneOutcomes s.outcomes
  gone_le : ∀ iss ∈ gone, iss.seq ≤ s.issuanceSeq
  goneOutcomes_le : ∀ o ∈ goneOutcomes, o.seq ≤ s.outcomeSeq
  retained : ∀ ek, ((s.retention ek).getD {}).counts =
    rowCounts ek gone goneOutcomes

theorem Accounted.empty : Accounted [{}] {} [] [] :=
  ⟨⟨by simp, List.nodup_nil⟩, ⟨by simp, List.nodup_nil⟩, by simp, by simp,
    fun _ => rfl⟩

theorem Accounted.counts {past : List Store} {gone : List Issuance}
    {goneOutcomes : List Outcome} (h : Accounted past s gone goneOutcomes)
    (ek : EvidenceKey) : s.accounted ek = committedCounts past ek := by
  rw [committedCounts, rowCounts_perm ek h.issuances.perm h.outcomes.perm,
    rowCounts_append, Store.accounted, h.retained]

section Step

variable {past : List Store} {gone : List Issuance}
  {goneOutcomes : List Outcome}

/-- A change that leaves the rows and the retention alone. -/
theorem Accounted.same (h : Accounted past s gone goneOutcomes)
    (hissuances : s'.issuances = s.issuances)
    (houtcomes : s'.outcomes = s.outcomes)
    (hissuanceSeq : s'.issuanceSeq = s.issuanceSeq)
    (houtcomeSeq : s'.outcomeSeq = s.outcomeSeq)
    (hretention : s'.retention = s.retention) :
    Accounted (past ++ [s']) s' gone goneOutcomes := by
  have hheld := h.issuances.same
  have hheldOutcomes := h.outcomes.same
  rw [← hissuances] at hheld
  rw [← houtcomes] at hheldOutcomes
  refine ⟨by simpa using hheld, by simpa using hheldOutcomes, ?_, ?_, ?_⟩
  · rw [hissuanceSeq]
    exact h.gone_le
  · rw [houtcomeSeq]
    exact h.goneOutcomes_le
  · rw [hretention]
    exact h.retained

theorem Accounted.appendOutcome (h : Accounted past s gone goneOutcomes)
    (hs : s.Tidy) {o : Outcome} (hseq : o.seq = s.outcomeSeq + 1) :
    Accounted (past ++ [s.appendOutcome o]) (s.appendOutcome o) gone
      goneOutcomes := by
  have hnew : o ∉ goneOutcomes ++ s.outcomes := by
    rw [List.mem_append]
    rintro (ho | ho)
    · have hle := h.goneOutcomes_le o ho
      omega
    · have hle := (hs.outcomes_le o ho).2
      omega
  refine ⟨by simpa [Store.appendOutcome] using h.issuances.same,
    by simpa [Store.appendOutcome] using h.outcomes.append hnew, h.gone_le,
    fun o ho => Nat.le_succ_of_le (h.goneOutcomes_le o ho), h.retained⟩

theorem Accounted.appendIssuance (h : Accounted past s gone goneOutcomes)
    (hs : s.Tidy) {iss : Issuance} (hseq : iss.seq = s.issuanceSeq + 1) :
    Accounted (past ++ [s.appendIssuance iss]) (s.appendIssuance iss) gone
      goneOutcomes := by
  have hnew : iss ∉ gone ++ s.issuances := by
    rw [List.mem_append]
    rintro (hiss | hiss)
    · have hle := h.gone_le iss hiss
      omega
    · have hle := (hs.issuances_le iss hiss).2
      omega
  refine ⟨by simpa [Store.appendIssuance] using h.issuances.append hnew,
    by simpa [Store.appendIssuance] using h.outcomes.same,
    fun iss hiss => Nat.le_succ_of_le (h.gone_le iss hiss), h.goneOutcomes_le,
    h.retained⟩

theorem Accounted.compact (h : Accounted past s gone goneOutcomes)
    (hs : s.Tidy) (config : StoreConfig) (now : ℕ) :
    ∃ gone' goneOutcomes', Accounted (past ++ [s.compact config now])
      (s.compact config now) gone' goneOutcomes' := by
  unfold Store.compact
  simp only
  split
  · exact ⟨gone, goneOutcomes, h.same rfl rfl rfl rfl rfl⟩
  · refine ⟨gone ++ s.issuances.filter fun iss => s.retired _ iss,
      goneOutcomes ++ s.outcomes.filter fun o => s.outcomeRetired _ o,
      by simpa using h.issuances.remove _, by simpa using h.outcomes.remove _,
      fun iss hiss => ?_, fun o ho => ?_, fun ek => ?_⟩
    · rcases List.mem_append.mp hiss with hiss | hiss
      · exact h.gone_le iss hiss
      · exact (hs.issuances_le iss (List.mem_of_mem_filter hiss)).2
    · rcases List.mem_append.mp ho with ho | ho
      · exact h.goneOutcomes_le o ho
      · exact (hs.outcomes_le o (List.mem_of_mem_filter ho)).2
    · rw [rowCounts_append, ← h.retained]
      exact hs.retain_counts _ ek

/-- Every change keeps the account. -/
theorem Accounted.moves (h : Accounted past s gone goneOutcomes)
    (hs : s.Tidy) (hmoves : s.Moves s') :
    s'.Tidy ∧ ∃ gone' goneOutcomes', Accounted (past ++ [s']) s' gone'
      goneOutcomes' := by
  obtain rfl | ⟨key, hcommit⟩ := hmoves
  · exact ⟨hs, gone, goneOutcomes, h.same rfl rfl rfl rfl rfl⟩
  refine ⟨hcommit.tidy hs, ?_⟩
  cases hcommit with
  | observed samples => exact ⟨_, _, h.same rfl rfl rfl rfl rfl⟩
  | matured payload _ _ _ _ _ _ => exact ⟨_, _, h.appendOutcome hs rfl⟩
  | checkpointed next _ => exact ⟨_, _, h.same rfl rfl rfl rfl rfl⟩
  | issued bundle nowMs _ _ _ => exact ⟨_, _, h.appendIssuance hs rfl⟩
  | compacted config now => exact h.compact hs config now

end Step

/-- Along a chain of changes every row stays accounted for. -/
theorem Accounted.chain {past rest : List Store} {gone : List Issuance}
    {goneOutcomes : List Outcome} (h : Accounted past s gone goneOutcomes)
    (hs : s.Tidy) (hchain : (s :: rest).IsChain Store.Moves) :
    ∃ gone' goneOutcomes', Accounted (past ++ rest) (rest.getLastD s) gone'
      goneOutcomes' := by
  induction rest generalizing past s gone goneOutcomes with
  | nil =>
      rw [List.append_nil]
      exact ⟨gone, goneOutcomes, h⟩
  | cons next rest ih =>
      rw [List.isChain_cons_cons] at hchain
      obtain ⟨hnext, gone', goneOutcomes', haccounted⟩ := h.moves hs hchain.1
      have hrest := ih haccounted hnext hchain.2
      rw [List.getLastD_cons]
      rwa [List.append_assoc, List.singleton_append] at hrest

end Accounted

/-- The compaction of any store of the service changes nothing of what is
recovered, by any fold and by the service itself; every outcome that recovery
reads keeps its issuance; and each epoch's retention counts with the rows still
present are the counts of all rows that the run ever committed. -/
theorem compact_preserves_recovery (config : ServiceConfig)
    (events : List Event) (storeConfig : StoreConfig) (now : ℕ) :
    let s := (Service.run config {} events).store
    let s' := s.compact storeConfig now
    (∀ (S : Type) (ek : EvidenceKey) (load : EpochState → S)
        (fold : S → Outcome → Option Issuance → Except Raised S) (initial : S),
      s'.recover ek load fold initial = s.recover ek load fold initial) ∧
    (∀ ctx, recover ctx s'.toJournal (s'.startState config.recipes ctx.ek) =
      recover ctx s.toJournal (s.startState config.recipes ctx.ek)) ∧
    (∀ ek, ∀ o ∈ s'.outcomesAfter ek (s'.checkpointSeq ek),
      ∃ iss, s'.issuance? o.issuanceId = some iss ∧
        s.issuance? o.issuanceId = some iss ∧ o.Belongs iss) ∧
    ∀ ek, s'.accounted ek =
      committedCounts (Service.journals config {} events) ek := by
  intro s s'
  have hs : s.Holds Store.Tidy Cursors := Service.run_cursors config events
  refine ⟨fun S ek load fold initial => hs.1.recover_compact storeConfig now ek
    load fold initial, fun ctx => hs.recover_startState_compact storeConfig now
    config.recipes ctx, fun ek o ho => ?_, fun ek => ?_⟩
  · rw [Store.checkpointSeq_compact, hs.1.outcomesAfter_compact] at ho
    exact hs.1.issuance?_compact storeConfig now ho
  · obtain ⟨rest, hjournals, hchain, hlast⟩ :=
      @Service.journals_chain config {} events
    obtain ⟨gone, goneOutcomes, haccounted⟩ :=
      Accounted.empty.chain Store.tidy_empty hchain
    rw [← hlast] at haccounted
    rw [hs.1.accounted_compact, hjournals]
    exact haccounted.counts ek

end PredictiveAutoscaler.Forecasting
