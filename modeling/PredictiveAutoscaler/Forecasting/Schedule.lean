/-
Recoveries of one epoch on a growing journal, with a checkpoint after each or a
crash that loses its state.  A checkpoint is the fold of the rows before it, so
every schedule ends in the fold of the whole journal.
-/
import PredictiveAutoscaler.Forecasting.Recovery

namespace PredictiveAutoscaler.Forecasting

/-- A row committed to the journal. -/
inductive JournalEvent
  | issued (iss : Issuance)
  | matured (o : Outcome)

def JournalEvent.issuance? : JournalEvent → Option Issuance
  | .issued iss => some iss
  | .matured _ => none

def JournalEvent.outcome? : JournalEvent → Option Outcome
  | .issued _ => none
  | .matured o => some o

def Journal.ofEvents (events : List JournalEvent) : Journal where
  issuances := events.filterMap JournalEvent.issuance?
  outcomes := events.filterMap JournalEvent.outcome?

@[simp] theorem Journal.ofEvents_issuances_append (done rest) :
    (ofEvents (done ++ rest)).issuances =
      (ofEvents done).issuances ++ (ofEvents rest).issuances :=
  List.filterMap_append

@[simp] theorem Journal.ofEvents_outcomes_append (done rest) :
    (ofEvents (done ++ rest)).outcomes =
      (ofEvents done).outcomes ++ (ofEvents rest).outcomes :=
  List.filterMap_append

theorem Journal.mem_ofEvents_issuances {events : List JournalEvent}
    {iss : Issuance} :
    iss ∈ (ofEvents events).issuances ↔ .issued iss ∈ events := by
  rw [ofEvents, List.mem_filterMap]
  constructor
  · rintro ⟨event, hevent, h⟩
    cases event with
    | issued iss' => exact Option.some.inj h ▸ hevent
    | matured o => cases h
  · exact fun h => ⟨_, h, rfl⟩

theorem Journal.mem_ofEvents_outcomes {events : List JournalEvent}
    {o : Outcome} :
    o ∈ (ofEvents events).outcomes ↔ .matured o ∈ events := by
  rw [ofEvents, List.mem_filterMap]
  constructor
  · rintro ⟨event, hevent, h⟩
    cases event with
    | issued iss => cases h
    | matured o' => exact Option.some.inj h ▸ hevent
  · exact fun h => ⟨_, h, rfl⟩

/-- The journal of one epoch: its rows in commit order, distinct window ends,
one recipe per model, each outcome after its issuance. -/
structure EpochJournal (ek : EvidenceKey) (recipe : Model → String)
    (events : List JournalEvent) : Prop where
  issuances_ordered : (Journal.ofEvents events).issuances.Pairwise
    fun a b => a.seq < b.seq
  outcomes_ordered : (Journal.ofEvents events).outcomes.Pairwise
    fun a b => a.seq < b.seq
  issuances_pos : ∀ iss ∈ (Journal.ofEvents events).issuances, 0 < iss.seq
  outcomes_pos : ∀ o ∈ (Journal.ofEvents events).outcomes, 0 < o.seq
  issuances_epoch : ∀ iss ∈ (Journal.ofEvents events).issuances,
    iss.key.evidenceKey = ek
  outcomes_epoch : ∀ o ∈ (Journal.ofEvents events).outcomes,
    o.evidenceKey = ek
  distinct_windowEnds : (Journal.ofEvents events).issuances.Pairwise
    fun a b => a.key.windowEnd ≠ b.key.windowEnd
  one_recipe : ∀ iss ∈ (Journal.ofEvents events).issuances,
    ∀ model ∈ iss.models, ∀ c, iss.bundle.candidates model = some c →
      c.recipe = recipe model
  after_issuance : ∀ done o rest, events = done ++ .matured o :: rest →
    ∃ iss, .issued iss ∈ done ∧ iss.key = o.issuanceId

/-- One recovery of a schedule: the rows committed before it, and whether its
state was checkpointed or lost in a crash. -/
structure Recovery where
  committed : List JournalEvent
  checkpointed : Bool

/-- The store between two recoveries. -/
structure RecoveryStore where
  events : List JournalEvent := []
  checkpoint : Option EpochState := none

section Schedule

variable (ctx : RecoverContext) (recipes : Recipes)

/-- A recovery from the checkpoint, or from the initial state without one. -/
def RecoveryStore.recovered (store : RecoveryStore) : Except Raised EpochState :=
  recover ctx (.ofEvents store.events)
    (store.checkpoint.getD (.initial recipes ctx.ek))

def RecoveryStore.step (store : RecoveryStore) (r : Recovery) :
    RecoveryStore :=
  let store := { store with events := store.events ++ r.committed }
  match store.recovered ctx recipes, r.checkpointed with
  | .ok state, true => { store with checkpoint := some state }
  | _, _ => store

def runSchedule (schedule : List Recovery) : RecoveryStore :=
  schedule.foldl (RecoveryStore.step ctx recipes) {}

/-- Every issuance, then every outcome, once from the initial state. -/
def foldOnce (events : List JournalEvent) : Except Raised EpochState :=
  let journal := Journal.ofEvents events
  twoPass (foldIssuance ctx) (foldOutcome ctx journal)
    (.initial recipes ctx.ek) journal.issuances journal.outcomes

/-- The fold of a batch without the state's own refusals. -/
def foldBatch (journal : Journal) (state : EpochState)
    (issuances : List Issuance) (outcomes : List Outcome) :
    Except Raised EpochState :=
  twoPass (refusing issuanceReason (addIssuance ctx))
    (refusing (outcomeReason recipes journal) (addOutcome ctx journal))
    state issuances outcomes

theorem foldl_addCandidate_frame (iss : Issuance) (models : List Model)
    (state : EpochState) :
    (models.foldl (addCandidate ctx iss) state).pairs = state.pairs ∧
      (models.foldl (addCandidate ctx iss) state).lastOutcomeSeq =
        state.lastOutcomeSeq := by
  induction models generalizing state with
  | nil => exact ⟨rfl, rfl⟩
  | cons model rest ih =>
      rw [List.foldl_cons, (ih _).1, (ih _).2, addCandidate]
      cases iss.bundle.candidates model <;> exact ⟨rfl, rfl⟩

theorem ReadyFor.addIssuance {recipes : Recipes} {state : EpochState}
    {outcomes : List Outcome} (h : ReadyFor ctx recipes state outcomes)
    (iss : Issuance) :
    ReadyFor ctx recipes (addIssuance ctx state iss) outcomes := by
  obtain ⟨hpairs, -⟩ := foldl_addCandidate_frame ctx iss iss.models state
  have hsame : (Forecasting.addIssuance ctx state iss).pairs = state.pairs :=
    hpairs
  exact ⟨(foldIssuance_eq ctx h.identified iss).2, hsame ▸ h.pairs, h.epoch,
    hsame ▸ h.later, h.ordered⟩

theorem ReadyFor.foldl_addIssuance {recipes : Recipes} {state : EpochState}
    {outcomes : List Outcome} (h : ReadyFor ctx recipes state outcomes)
    (issuances : List Issuance) :
    ReadyFor ctx recipes (issuances.foldl (Forecasting.addIssuance ctx) state)
      outcomes := by
  induction issuances generalizing state with
  | nil => exact h
  | cons iss rest ih => exact ih (h.addIssuance ctx iss)

/-- On a state that is ready for the outcomes, a batch is refused by its rows
alone; the journal may have grown meanwhile. -/
theorem twoPass_eq_foldBatch {recipes : Recipes} {journal later : Journal}
    {state : EpochState} {issuances : List Issuance} {outcomes : List Outcome}
    (hready : ReadyFor ctx recipes state outcomes)
    (hrecord : ∀ o ∈ outcomes, journal.record o = later.record o) :
    twoPass (foldIssuance ctx) (foldOutcome ctx journal) state issuances
        outcomes =
      foldBatch ctx recipes later state issuances outcomes := by
  have hissuances : ActsAs (foldIssuance ctx) issuanceReason
      (addIssuance ctx) state issuances := by
    refine actsAs_of_inv (fun s _ => s.Identified ctx.ek) ?_ hready.identified
    intro s iss _ hs
    exact ⟨(foldIssuance_eq ctx hs iss).1,
      fun _ => (foldIssuance_eq ctx hs iss).2⟩
  have houtcomes : ActsAs (foldOutcome ctx journal)
      (outcomeReason recipes later) (addOutcome ctx later)
      (issuances.foldl (addIssuance ctx) state) outcomes := by
    refine actsAs_of_inv (fun s os => ReadyFor ctx recipes s os ∧
      ∀ o ∈ os, journal.record o = later.record o) ?_
      ⟨hready.foldl_addIssuance ctx issuances, hrecord⟩
    intro s o rest ⟨hs, hsame⟩
    obtain ⟨hfold, hnext⟩ := foldOutcome_eq ctx hs
    have hfold' : foldOutcome ctx journal s o = foldOutcome ctx later s o := by
      simp only [foldOutcome, hsame o List.mem_cons_self]
    exact ⟨hfold'.trans hfold, fun _ => ⟨hnext,
      fun x hx => hsame x (List.mem_cons_of_mem o hx)⟩⟩
  rw [foldBatch, twoPass, twoPass, hissuances.foldlM_eq, foldlM_refusing]
  cases issuances.findSome? issuanceReason with
  | some raised => rfl
  | none => exact houtcomes.foldlM_eq

/-- A batch that returned leaves a state ready for the outcomes after it. -/
theorem ReadyFor.foldBatch {recipes : Recipes} {journal : Journal}
    {state next : EpochState} {issuances : List Issuance}
    {outcomes rest : List Outcome}
    (hready : ReadyFor ctx recipes state (outcomes ++ rest))
    (hbatch : foldBatch ctx recipes journal state issuances outcomes =
      .ok next) : ReadyFor ctx recipes next rest := by
  obtain ⟨-, hnone, rfl⟩ := twoPass_refusing_eq_ok.mp hbatch
  refine foldl_inv (ReadyFor ctx recipes) ?_
    (hready.foldl_addIssuance ctx issuances) hnone
  exact fun s o os hs _ => (foldOutcome_eq ctx hs).2

theorem foldl_addIssuance_cursors (issuances : List Issuance)
    (state : EpochState) :
    (issuances.foldl (addIssuance ctx) state).lastIssuanceSeq =
        lastSeqOf Rows.Issuance.seq state.lastIssuanceSeq issuances ∧
      (issuances.foldl (addIssuance ctx) state).lastOutcomeSeq =
        state.lastOutcomeSeq := by
  induction issuances generalizing state with
  | nil => exact ⟨rfl, rfl⟩
  | cons iss rest ih =>
      rw [List.foldl_cons, (ih _).1, (ih _).2, lastSeqOf_cons]
      exact ⟨rfl, (foldl_addCandidate_frame ctx iss iss.models state).2⟩

theorem addOutcome_cursors {recipes : Recipes} {journal : Journal}
    {o : Outcome} (hnone : outcomeReason recipes journal o = none)
    (state : EpochState) :
    (addOutcome ctx journal state o).lastIssuanceSeq =
        state.lastIssuanceSeq ∧
      (addOutcome ctx journal state o).lastOutcomeSeq = o.seq := by
  cases hrecord : journal.record o with
  | error raised => simp [outcomeReason, hrecord] at hnone
  | ok r =>
      obtain ⟨iss, c, truth, -, -, hcal, -⟩ := Journal.record_eq_ok hrecord
      simp only [addOutcome, hrecord]
      refine ⟨rfl, ?_⟩
      change r.cal.seq = o.seq
      rw [hcal]
      rfl

theorem foldl_addOutcome_cursors {recipes : Recipes} {journal : Journal}
    {outcomes : List Outcome}
    (hnone : outcomes.findSome? (outcomeReason recipes journal) = none)
    (state : EpochState) :
    (outcomes.foldl (addOutcome ctx journal) state).lastIssuanceSeq =
        state.lastIssuanceSeq ∧
      (outcomes.foldl (addOutcome ctx journal) state).lastOutcomeSeq =
        lastSeqOf Rows.Outcome.seq state.lastOutcomeSeq outcomes := by
  rw [List.findSome?_eq_none_iff] at hnone
  induction outcomes generalizing state with
  | nil => exact ⟨rfl, rfl⟩
  | cons o rest ih =>
      obtain ⟨hissuance, houtcome⟩ :=
        addOutcome_cursors ctx (hnone o List.mem_cons_self) state
      obtain ⟨hrestIssuance, hrestOutcome⟩ :=
        ih (fun x hx => hnone x (List.mem_cons_of_mem o hx))
          (addOutcome ctx journal state o)
      rw [List.foldl_cons, hrestIssuance, hrestOutcome, lastSeqOf_cons,
        hissuance, houtcome]
      exact ⟨rfl, rfl⟩

/-- The state of a batch that returned stands at the batch's last rows. -/
theorem foldBatch_cursors {recipes : Recipes} {journal : Journal}
    {next : EpochState} {issuances : List Issuance} {outcomes : List Outcome}
    (hbatch : foldBatch ctx recipes journal (.initial recipes ctx.ek)
      issuances outcomes = .ok next) :
    next.lastIssuanceSeq = lastSeqOf Rows.Issuance.seq 0 issuances ∧
      next.lastOutcomeSeq = lastSeqOf Rows.Outcome.seq 0 outcomes := by
  obtain ⟨-, hnone, rfl⟩ := twoPass_refusing_eq_ok.mp hbatch
  obtain ⟨hissuance, houtcome⟩ := foldl_addOutcome_cursors ctx hnone
    (issuances.foldl (addIssuance ctx) (.initial recipes ctx.ek))
  obtain ⟨hfirst, hkept⟩ := foldl_addIssuance_cursors ctx issuances
    (.initial recipes ctx.ek)
  exact ⟨hissuance.trans hfirst, by rw [houtcome, hkept]; rfl⟩

end Schedule

section Epoch

variable {ek : EvidenceKey} {recipe : Model → String}
  {done rest : List JournalEvent}

theorem EpochJournal.of_append (h : EpochJournal ek recipe (done ++ rest)) :
    EpochJournal ek recipe done where
  issuances_ordered := by
    have hordered := h.issuances_ordered
    rw [Journal.ofEvents_issuances_append] at hordered
    exact (List.pairwise_append.mp hordered).1
  outcomes_ordered := by
    have hordered := h.outcomes_ordered
    rw [Journal.ofEvents_outcomes_append] at hordered
    exact (List.pairwise_append.mp hordered).1
  issuances_pos iss hiss := h.issuances_pos iss (by simp [hiss])
  outcomes_pos o ho := h.outcomes_pos o (by simp [ho])
  issuances_epoch iss hiss := h.issuances_epoch iss (by simp [hiss])
  outcomes_epoch o ho := h.outcomes_epoch o (by simp [ho])
  distinct_windowEnds := by
    have hdistinct := h.distinct_windowEnds
    rw [Journal.ofEvents_issuances_append] at hdistinct
    exact (List.pairwise_append.mp hdistinct).1
  one_recipe iss hiss := h.one_recipe iss (by simp [hiss])
  after_issuance := by
    intro pre o post hdone
    refine h.after_issuance pre o (post ++ rest) ?_
    rw [hdone, List.append_assoc, List.cons_append]

/-- The issuance of an outcome is found among the rows before it. -/
theorem EpochJournal.issuance?_append
    (h : EpochJournal ek recipe (done ++ rest)) {o : Outcome}
    (ho : o ∈ (Journal.ofEvents done).outcomes) :
    ∃ iss ∈ (Journal.ofEvents done).issuances,
      (Journal.ofEvents done).issuance? o.issuanceId = some iss ∧
        (Journal.ofEvents (done ++ rest)).issuance? o.issuanceId =
          some iss := by
  obtain ⟨pre, post, hsplit⟩ :=
    List.append_of_mem (Journal.mem_ofEvents_outcomes.mp ho)
  obtain ⟨iss, hiss, hkey⟩ := h.of_append.after_issuance pre o post hsplit
  have hmem : iss ∈ (Journal.ofEvents done).issuances := by
    rw [Journal.mem_ofEvents_issuances, hsplit]
    exact List.mem_append_left _ hiss
  have hfound : ((Journal.ofEvents done).issuance? o.issuanceId).isSome := by
    rw [Journal.issuance?, Rows.issuance?, List.find?_isSome]
    exact ⟨iss, hmem, by simpa using hkey⟩
  obtain ⟨found, hfound⟩ := Option.isSome_iff_exists.mp hfound
  refine ⟨found, List.mem_of_find?_eq_some hfound, hfound, ?_⟩
  rw [Journal.issuance?, Rows.issuance?, Journal.ofEvents_issuances_append,
    List.find?_append, ← Rows.issuance?, ← Journal.issuance?, hfound,
    Option.some_or]

theorem EpochJournal.record_append
    (h : EpochJournal ek recipe (done ++ rest)) {o : Outcome}
    (ho : o ∈ (Journal.ofEvents done).outcomes) :
    (Journal.ofEvents done).record o =
      (Journal.ofEvents (done ++ rest)).record o := by
  obtain ⟨iss, -, hdone, hall⟩ := h.issuance?_append ho
  rw [Journal.record, Journal.record, hdone, hall]

end Epoch

section Schedule

variable (ctx : RecoverContext) (recipes : Recipes)
variable {recipe : Model → String} {done rest : List JournalEvent}

/-- A later issuance commutes with the outcomes before it: it is of another
window and under the same recipe. -/
theorem EpochJournal.addIssuance_addOutcome
    (h : EpochJournal ctx.ek recipe (done ++ rest)) (state : EpochState)
    {iss : Issuance} (hiss : iss ∈ (Journal.ofEvents rest).issuances)
    {o : Outcome} (ho : o ∈ (Journal.ofEvents done).outcomes) :
    let journal := Journal.ofEvents (done ++ rest)
    addIssuance ctx (addOutcome ctx journal state o) iss =
      addOutcome ctx journal (addIssuance ctx state iss) o := by
  intro journal
  cases hrecord : journal.record o with
  | error raised => simp only [addOutcome, hrecord]
  | ok r =>
      obtain ⟨first, c, truth, hfirst, hagrees, hcal, -⟩ :=
        Journal.record_eq_ok hrecord
      obtain ⟨first', hmem, -, hfirst'⟩ := h.issuance?_append ho
      obtain rfl : first' = first := by
        exact Option.some.inj (hfirst'.symm.trans hfirst)
      have hdistinct := h.distinct_windowEnds
      rw [Journal.ofEvents_issuances_append] at hdistinct
      simp only [addOutcome, hrecord]
      refine addIssuance_addRecord ctx ?_ ?_ state
      · have hne := (List.pairwise_append.mp hdistinct).2.2 first' hmem iss hiss
        rw [hcal]
        exact Ne.symm hne
      · intro c' hmodel hc'
        have hnew := h.one_recipe iss (by simp [hiss]) _ hmodel c' hc'
        have hold := h.one_recipe first' (by simp [hmem]) _ hagrees.model_mem c
          hagrees.candidate_eq
        rw [hnew, hcal]
        exact hold.symm

theorem EpochJournal.readyFor_initial
    (h : EpochJournal ctx.ek recipe (done ++ rest)) :
    ReadyFor ctx recipes (.initial recipes ctx.ek)
      ((Journal.ofEvents done).outcomes ++
        (Journal.ofEvents rest).outcomes) := by
  rw [← Journal.ofEvents_outcomes_append]
  exact ⟨fun model m hm => (nomatch hm), ⟨rfl, rfl, rfl, rfl, rfl⟩,
    h.outcomes_epoch, h.outcomes_pos, h.outcomes_ordered⟩

theorem EpochJournal.foldOnce_eq
    (h : EpochJournal ctx.ek recipe (done ++ rest)) :
    foldOnce ctx recipes done =
      foldBatch ctx recipes (.ofEvents (done ++ rest))
        (.initial recipes ctx.ek) (Journal.ofEvents done).issuances
        (Journal.ofEvents done).outcomes := by
  have hready := h.of_append
  rw [← List.append_nil done] at hready
  have hinit := hready.readyFor_initial ctx recipes
  rw [show (Journal.ofEvents []).outcomes = [] from rfl,
    List.append_nil] at hinit
  exact twoPass_eq_foldBatch ctx hinit fun o ho => h.record_append ho

/-- The rows after a state that folded the first part are those of the
rest. -/
theorem EpochJournal.rowsAfter
    (h : EpochJournal ctx.ek recipe (done ++ rest)) :
    let journal := Journal.ofEvents (done ++ rest)
    journal.issuancesAfter ctx.ek
        (lastSeqOf Rows.Issuance.seq 0 (Journal.ofEvents done).issuances) =
        (Journal.ofEvents rest).issuances ∧
      journal.outcomesAfter ctx.ek
        (lastSeqOf Rows.Outcome.seq 0 (Journal.ofEvents done).outcomes) =
        (Journal.ofEvents rest).outcomes := by
  intro journal
  have hissuances := h.issuances_ordered
  have houtcomes := h.outcomes_ordered
  rw [Journal.ofEvents_issuances_append] at hissuances
  rw [Journal.ofEvents_outcomes_append] at houtcomes
  constructor
  · refine Eq.trans ?_ (filter_after_lastSeqOf hissuances fun iss hiss =>
      h.issuances_pos iss (by simp [hiss]))
    rw [Journal.issuancesAfter, ← Journal.ofEvents_issuances_append]
    refine List.filter_congr fun iss hiss => ?_
    simp [h.issuances_epoch iss hiss]
  · refine Eq.trans ?_ (filter_after_lastSeqOf houtcomes fun o ho =>
      h.outcomes_pos o (by simp [ho]))
    rw [Journal.outcomesAfter, Rows.outcomesAfter,
      ← Journal.ofEvents_outcomes_append]
    refine List.filter_congr fun o ho => ?_
    simp [h.outcomes_epoch o ho]

/-- A recovery from the fold of the first rows is the fold of all rows. -/
theorem recover_eq_foldOnce (h : EpochJournal ctx.ek recipe (done ++ rest))
    {state : EpochState} (hstate : foldOnce ctx recipes done = .ok state) :
    recover ctx (.ofEvents (done ++ rest)) state =
      foldOnce ctx recipes (done ++ rest) := by
  have hinit := h.readyFor_initial ctx recipes
  rw [h.foldOnce_eq ctx recipes] at hstate
  obtain ⟨hissuanceSeq, houtcomeSeq⟩ := foldBatch_cursors ctx hstate
  obtain ⟨hissuances, houtcomes⟩ := h.rowsAfter ctx
  have hcomm : ∀ s, ∀ iss ∈ (Journal.ofEvents rest).issuances,
      ∀ o ∈ (Journal.ofEvents done).outcomes,
      addIssuance ctx (addOutcome ctx (.ofEvents (done ++ rest)) s o) iss =
        addOutcome ctx (.ofEvents (done ++ rest)) (addIssuance ctx s iss) o :=
    fun s iss hiss o ho => h.addIssuance_addOutcome ctx s hiss ho
  rw [recover, hissuanceSeq, houtcomeSeq, hissuances, houtcomes,
    twoPass_eq_foldBatch ctx (hinit.foldBatch ctx hstate) fun o _ => rfl,
    foldBatch, twoPass_append hcomm hstate, foldOnce,
    Journal.ofEvents_issuances_append, Journal.ofEvents_outcomes_append]
  exact (twoPass_eq_foldBatch ctx hinit fun o _ => rfl).symm

/-- A checkpoint is the fold of a first part of the journal. -/
def RecoveryStore.Faithful (store : RecoveryStore) : Prop :=
  ∃ done rest, store.events = done ++ rest ∧
    foldOnce ctx recipes done =
      .ok (store.checkpoint.getD (.initial recipes ctx.ek))

theorem RecoveryStore.Faithful.recovered_eq {store : RecoveryStore}
    (hstore : store.Faithful ctx recipes)
    (h : EpochJournal ctx.ek recipe store.events) :
    store.recovered ctx recipes = foldOnce ctx recipes store.events := by
  obtain ⟨done, rest, hevents, hdone⟩ := hstore
  rw [RecoveryStore.recovered, hevents]
  rw [hevents] at h
  exact recover_eq_foldOnce ctx recipes h hdone

theorem RecoveryStore.step_events (store : RecoveryStore) (r : Recovery) :
    (store.step ctx recipes r).events = store.events ++ r.committed := by
  rw [RecoveryStore.step]
  split <;> rfl

theorem RecoveryStore.Faithful.step {store : RecoveryStore}
    (hstore : store.Faithful ctx recipes) {r : Recovery}
    (h : EpochJournal ctx.ek recipe (store.events ++ r.committed)) :
    (store.step ctx recipes r).Faithful ctx recipes := by
  let grown : RecoveryStore :=
    { store with events := store.events ++ r.committed }
  have hgrown : grown.Faithful ctx recipes := by
    obtain ⟨done, rest, hevents, hdone⟩ := hstore
    refine ⟨done, rest ++ r.committed, ?_, hdone⟩
    change store.events ++ r.committed = _
    rw [hevents, List.append_assoc]
  have hrecovered := hgrown.recovered_eq ctx recipes h
  rw [RecoveryStore.step]
  change RecoveryStore.Faithful ctx recipes
    (match grown.recovered ctx recipes, r.checkpointed with
      | .ok state, true => { grown with checkpoint := some state }
      | _, _ => grown)
  split
  · rename_i state hstate _
    refine ⟨store.events ++ r.committed, [], (List.append_nil _).symm, ?_⟩
    exact hrecovered.symm.trans hstate
  · exact hgrown

theorem runSchedule_faithful (schedule : List Recovery)
    {store : RecoveryStore} (hstore : store.Faithful ctx recipes)
    (h : EpochJournal ctx.ek recipe
      (store.events ++ schedule.flatMap Recovery.committed)) :
    let store' := schedule.foldl (RecoveryStore.step ctx recipes) store
    store'.events = store.events ++ schedule.flatMap Recovery.committed ∧
      store'.Faithful ctx recipes := by
  induction schedule generalizing store with
  | nil => exact ⟨(List.append_nil _).symm, hstore⟩
  | cons r schedule ih =>
      rw [List.flatMap_cons, ← List.append_assoc] at h
      have hnext := hstore.step ctx recipes h.of_append
      rw [← store.step_events ctx recipes r] at h
      obtain ⟨hevents, hfaithful⟩ := ih hnext h
      refine ⟨?_, hfaithful⟩
      rw [List.foldl_cons, hevents, store.step_events ctx recipes r,
        List.flatMap_cons, List.append_assoc]

/-- Whatever the recoveries, the checkpoints and the crashes on the way, the
state recovered at the end is the fold of every issuance and then of every
outcome, once from the initial state. -/
theorem recovery_schedule_independent (schedule : List Recovery)
    (h : EpochJournal ctx.ek recipe
      (schedule.flatMap Recovery.committed)) :
    (runSchedule ctx recipes schedule).recovered ctx recipes =
      foldOnce ctx recipes (schedule.flatMap Recovery.committed) := by
  have hstart : RecoveryStore.Faithful ctx recipes {} :=
    ⟨[], [], rfl, rfl⟩
  obtain ⟨hevents, hfaithful⟩ :=
    runSchedule_faithful ctx recipes schedule hstart h
  rw [runSchedule, hfaithful.recovered_eq ctx recipes (by rwa [hevents]),
    hevents]
  rfl

end Schedule

namespace ScheduleWitness

def ek : EvidenceKey where
  autoscalerUid := "pa"
  targetUid := "web"
  querySha256 := "query"
  intervalSeconds := 300
  leadSeconds := 600
  engine := .statistical
  seasonality := .daily
  historyDays := 14
  settlementSeconds := 120
  outcomeGraceSeconds := 600
  risk := {}
  calibration := {}

def recipes : Recipes := ⟨"naive", "e1"⟩

def recipe : Model → String
  | .seasonalNaive => "naive"
  | _ => "e1"

def policy : CalibrationPolicy where
  leadSeconds := 600
  nominalBps := 1000
  etaBps := 50
  minBps := 100
  maxBps := 2500
  minWindows := 128
  maxScores := 512
  retentionSeconds := 7 * day
  level_bounds := by decide
  leadSeconds_pos := by decide
  minWindows_pos := by decide
  minWindows_le := by decide
  etaBps_le := by decide

def ctx : RecoverContext := ⟨{}, ek, policy⟩

def candidate (recipe : String) : IssuedCandidate where
  recipe
  pointRps := [10, 12]
  baseWindowMaxRps := 12
  upperWindowMaxRps := none
  calibration := ⟨0, 1, 1 / 10, some .calibrationInsufficient, none⟩
  fitCutoff := none
  artifactSha256 := none

/-- The issuance of both models at `origin`. -/
def issuance (seq origin : ℕ) : Issuance where
  seq
  key := ⟨ek, origin, origin + 600, {}, by omega⟩
  models := [.seasonalNaive, .statistical]
  committedAtMs := origin * 1000
  bundle :=
    { evidenceMode := .prospective
      evidenceKey := ek
      settings := {}
      decisionOrigin := origin
      windowEnd := origin + 600
      targetTimestamps := [origin + 300, origin + 600]
      sampleIntervalSeconds := 300
      leadSeconds := 600
      startupDelaySeconds := 60
      actuationAllowanceSeconds := 60
      validUntil := origin + 120
      inputEnd := origin - 300
      inputReceivedThroughMs := origin * 1000
      nominalMiscoverageBps := 1000
      candidates := fun
        | .lstm => none
        | model => some (candidate (recipe model))
      selected := none
      phase := .collecting
      reason := .historyInsufficient
      predictionReady := false
      verdicts := fun _ => none
      issuedAtMs := origin * 1000
      checkpoint := .initial recipes ek }

/-- The scored window of one model. -/
def outcome (seq origin : ℕ) (model : Model) : Outcome where
  seq
  issuanceId := ⟨ek, origin, origin + 600, {}, by omega⟩
  evidenceKey := ek
  windowEnd := origin + 600
  model
  payload := .scored
    { targets := [origin + 300, origin + 600]
      yWindowMaxRps := 13
      baseWindowMaxRps := 12
      upperWindowMaxRps := none
      values := [9, 13]
      completedAtMs := (origin + 900) * 1000 }
  committedAtMs := (origin + 900) * 1000

/-- A checkpoint after the first issuance, a crash after the second one and
the first outcome, and a recovery of the rest. -/
def schedule : List Recovery :=
  [⟨[.issued (issuance 1 6000)], true⟩,
    ⟨[.issued (issuance 2 6300), .matured (outcome 1 6000 .statistical)],
      false⟩,
    ⟨[.matured (outcome 2 6000 .seasonalNaive),
      .issued (issuance 3 6600)], true⟩]

theorem epochJournal_schedule :
    EpochJournal ctx.ek recipe (schedule.flatMap Recovery.committed) where
  issuances_ordered := by decide
  outcomes_ordered := by decide
  issuances_pos := by decide
  outcomes_pos := by decide
  issuances_epoch := by decide
  outcomes_epoch := by decide
  distinct_windowEnds := by decide
  one_recipe := by
    simp [schedule, Journal.ofEvents, JournalEvent.issuance?, issuance,
      candidate]
  after_issuance := by
    intro done o rest h
    have hfirst : .issued (issuance 1 6000) ∈ done := by
      cases done with
      | nil => cases h
      | cons event done => simp [schedule] at h; simp [h.1]
    refine ⟨_, hfirst, ?_⟩
    have ho : o ∈ [outcome 1 6000 .statistical,
        outcome 2 6000 .seasonalNaive] := by
      change o ∈ (Journal.ofEvents
        (schedule.flatMap Recovery.committed)).outcomes
      rw [Journal.mem_ofEvents_outcomes, h]
      simp
    simp only [List.mem_cons, List.not_mem_nil, or_false] at ho
    rcases ho with rfl | rfl <;> rfl

end ScheduleWitness

open ScheduleWitness in
theorem schedule_recovered :
    (runSchedule ctx recipes schedule).recovered ctx recipes =
        foldOnce ctx recipes (schedule.flatMap Recovery.committed) ∧
      (foldOnce ctx recipes
        (schedule.flatMap Recovery.committed)).toOption.isSome := by
  refine ⟨?_, by decide +kernel⟩
  exact recovery_schedule_independent ctx recipes schedule
    epochJournal_schedule

end PredictiveAutoscaler.Forecasting
