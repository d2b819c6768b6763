/-
The evidence of an epoch along a run.  A request closes every window past its
truth deadline before it issues another one, so while the clock does not step
back by most of a day no outcome is paired a day after those of later windows;
with the prunes of each fold the state of an epoch stays bounded, whatever the
number of requests, outages and late outcomes.
-/
import PredictiveAutoscaler.Forecasting.EvidenceSizes

namespace PredictiveAutoscaler.Forecasting

/-- How far the wall clock may be set back. -/
def clockStepMs : ℕ := 21 * hour * 1000

/-- The wall clock of a run: no reading is further behind an earlier one than
the clock may be set back. -/
structure ClockSteady (calls : List Call) : Prop where
  within : ∀ call ∈ calls, call.clock.bindMs ≤ call.clock.nowMs + clockStepMs
  between : calls.Pairwise fun a b =>
    a.clock.bindMs ≤ b.clock.bindMs + clockStepMs

/-- From the start of a window to its truth deadline. -/
def EvidenceKey.openSeconds (ek : EvidenceKey) : ℕ :=
  ek.leadSeconds + ek.settlementSeconds + ek.outcomeGraceSeconds

/-- How much earlier the window of a late outcome may end than those already
paired. -/
def EvidenceKey.lateMs (ek : EvidenceKey) : ℕ :=
  ek.openSeconds * 1000 + clockStepMs

/-- A key of accepted settings: on its grid, and open for less than a day. -/
structure EvidenceKey.Served (ek : EvidenceKey) : Prop extends ek.OnGrid where
  interval_le : ek.intervalSeconds ≤ ek.leadSeconds
  late_lt : ek.lateMs < day * 1000

theorem TrustSpec.resolve_recent {t : TrustSpec} {s : TrustSettings}
    (h : t.resolve = .ok s) : 0 < s.acuteRecentWindows := by
  simp only [TrustSpec.resolve, intField, Except.bind_eq_ok_iff] at h
  obtain ⟨_, -, _, -, _, -, _, -, _, -, _, -, recent, hrecent, h⟩ := h
  obtain ⟨_, -, _, -, _, -, _, -, _, -, _, -, _, -, _, -, hs⟩ := h
  cases hs
  exact (boundedField_bounds hrecent (by decide)).1

/-- The waiting times of accepted settings, and their recent windows. -/
theorem resolveSettings_limits {p : PredictionSpec} {s : ForecastSettings}
    (h : resolveSettings p = .ok s) :
    s.settlementSeconds ≤ 900 ∧ s.outcomeGraceSeconds ≤ 3600 ∧
      0 < s.trust.acuteRecentWindows := by
  simp only [resolveSettings, Except.bind_eq_ok_iff] at h
  obtain ⟨_, -, _, -, _, -, _, -, _, -, _, -, settle, hsettle, grace, hgrace,
    _, -, _, -, trust, htrust, _, -, _, -, hs⟩ := h
  cases hs
  exact ⟨(boundedField_bounds hsettle (by decide)).2,
    (boundedField_bounds hgrace (by decide)).2, TrustSpec.resolve_recent htrust⟩

theorem bindRequest_settings {r : V2Request} {lookup : Lookup} {nowMs : ℕ}
    {b : BoundRequest} (h : bindRequest r lookup nowMs = .ok b) :
    ∃ p, resolveSettings p = .ok b.settings := by
  simp only [bindRequest, Except.bind_eq_ok_iff] at h
  obtain ⟨_, -, live, -, _, -, settings, hsettings, _, -, _, -, _, -, hb⟩ := h
  cases hb
  exact ⟨live.prediction, hsettings⟩

theorem served_of_settings {p : PredictionSpec} {s : ForecastSettings}
    (hsettings : resolveSettings p = .ok s) {lead : LeadSelection}
    (hlead : lead.Fits s) (signal : ResolvedSignal) :
    (evidenceKey signal s lead.leadSeconds).Served := by
  have haccepted := resolveSettings_accepted hsettings
  obtain ⟨hsettle, hgrace, -⟩ := resolveSettings_limits hsettings
  have hday : ∀ dt ∈ allowedIntervals, dt ∣ day := by decide
  have hhorizon := hlead.le_horizon.trans haccepted.horizon_le
  have hgrid : (evidenceKey signal s lead.leadSeconds).OnGrid :=
    { interval_pos := haccepted.interval_pos
      divides_lead := Nat.dvd_of_mod_eq_zero hlead.multiple
      divides_day := hday _ haccepted.interval_mem }
  refine { hgrid with interval_le := hlead.interval_le, late_lt := ?_ }
  have hopen : (evidenceKey signal s lead.leadSeconds).openSeconds ≤ 8100 := by
    change lead.leadSeconds + s.settlementSeconds + s.outcomeGraceSeconds ≤ _
    have hmax : maxHorizonSeconds = 3600 := rfl
    omega
  have hstep : clockStepMs = 75600000 := by decide
  have hdayMs : Forecasting.day * 1000 = 86400000 := by decide
  unfold EvidenceKey.lateMs
  omega

/-- An issuance that waits for an outcome of one of its models. -/
def Store.IsOpen (s : Store) (iss : Issuance) : Prop :=
  ∃ model ∈ iss.models, s.outcome? iss.key model = none

/-- The rows of an epoch: its windows lie on the grid and started by the time
given, and none ended long after one that is still open, nor after one whose
outcome came later. -/
structure Store.Timely (s : Store) (ek : EvidenceKey) (untilMs : ℕ) :
    Prop where
  key : ∀ iss ∈ s.issuances, iss.key.evidenceKey = ek → iss.key.OnGrid ek
  started : ∀ iss ∈ s.issuances, iss.key.evidenceKey = ek →
    iss.key.decisionOrigin * 1000 ≤ untilMs
  target : ∀ iss ∈ s.issuances, iss.key.evidenceKey = ek →
    iss.bundle.targetTimestamps.getLastD 0 = iss.key.windowEnd
  models : ∀ iss ∈ s.issuances, iss.key.evidenceKey = ek →
    ∀ model ∈ iss.models, model ∈ [Model.seasonalNaive, .statistical]
  waiting : ∀ iss ∈ s.issuances, iss.key.evidenceKey = ek →
    ∀ open_ ∈ s.issuances, open_.key.evidenceKey = ek → s.IsOpen open_ →
    iss.key.windowEnd * 1000 ≤ open_.key.windowEnd * 1000 + ek.lateMs
  ordered : ∀ o ∈ s.outcomes, o.evidenceKey = ek → ∀ o' ∈ s.outcomes,
    o'.evidenceKey = ek → o.seq < o'.seq →
    o.windowEnd * 1000 ≤ o'.windowEnd * 1000 + ek.lateMs

/-- The state of an epoch in a store: of bounded size, and no window still to
be paired ended long before the newest one paired. -/
structure EpochState.Timely (state : EpochState) (ek : EvidenceKey)
    (recentN untilMs : ℕ) (s : Store) : Prop where
  bounded : state.Bounded ek recentN
  cursor : state.lastOutcomeSeq ≤ s.outcomeSeq
  pairs : ∃ newest, state.pairs.Within ek.intervalSeconds newest ∧
    newest * 1000 ≤ untilMs + ek.leadSeconds * 1000 ∧
    (∀ iss ∈ s.issuances, iss.key.evidenceKey = ek → s.IsOpen iss →
      newest * 1000 ≤ iss.key.windowEnd * 1000 + ek.lateMs) ∧
    ∀ o ∈ s.outcomes, o.evidenceKey = ek → state.lastOutcomeSeq < o.seq →
      newest * 1000 ≤ o.windowEnd * 1000 + ek.lateMs

/-- The rows of an epoch and its latest checkpoint. -/
structure Store.Evident (s : Store) (ek : EvidenceKey)
    (recentN untilMs : ℕ) : Prop where
  tidy : s.Tidy
  rows : s.Timely ek untilMs
  checkpoint : ∀ cp, s.latestCheckpoint ek = some cp →
    cp.lastOutcomeSeq = cp.state.lastOutcomeSeq ∧
      cp.state.Timely ek recentN untilMs s

/-- Every open window of the epoch has its truth deadline ahead. -/
def Store.Closed (s : Store) (ek : EvidenceKey) (nowMs : ℕ) : Prop :=
  ∀ iss ∈ s.issuances, iss.key.evidenceKey = ek → s.IsOpen iss →
    nowMs < truthDeadlineMs iss.key.windowEnd ek.settlementSeconds
      ek.outcomeGraceSeconds

/-- A store whose rows of the epoch are rows of another, with no window opened
again. -/
structure Store.Fewer (s s' : Store) (ek : EvidenceKey) : Prop where
  issuances : ∀ iss ∈ s'.issuances, iss.key.evidenceKey = ek →
    iss ∈ s.issuances
  outcomes : ∀ o ∈ s'.outcomes, o ∈ s.outcomes
  isOpen : ∀ iss ∈ s'.issuances, s'.IsOpen iss → s.IsOpen iss
  outcomeSeq : s'.outcomeSeq = s.outcomeSeq

section Rows

variable {s s' : Store} {ek : EvidenceKey} {state : EpochState}
  {recentN untilMs later : ℕ}

theorem Store.Fewer.rows (h : s.Fewer s' ek) (hs : s.Timely ek untilMs) :
    s'.Timely ek untilMs where
  key iss hiss hek := hs.key iss (h.issuances iss hiss hek) hek
  started iss hiss hek := hs.started iss (h.issuances iss hiss hek) hek
  target iss hiss hek := hs.target iss (h.issuances iss hiss hek) hek
  models iss hiss hek := hs.models iss (h.issuances iss hiss hek) hek
  waiting iss hiss hek open_ hopen hek' hwaits :=
    hs.waiting iss (h.issuances iss hiss hek) hek open_
      (h.issuances open_ hopen hek') hek' (h.isOpen open_ hopen hwaits)
  ordered o ho hek o' ho' :=
    hs.ordered o (h.outcomes o ho) hek o' (h.outcomes o' ho')

theorem Store.Fewer.timely (h : s.Fewer s' ek)
    (hstate : state.Timely ek recentN untilMs s) :
    state.Timely ek recentN untilMs s' := by
  obtain ⟨newest, hwithin, huntil, hopen, hlater⟩ := hstate.pairs
  refine ⟨hstate.bounded, h.outcomeSeq ▸ hstate.cursor, newest, hwithin,
    huntil, fun iss hiss hek hwaits => ?_, fun o ho => hlater o
      (h.outcomes o ho)⟩
  exact hopen iss (h.issuances iss hiss hek) hek (h.isOpen iss hiss hwaits)

theorem Store.Fewer.closed (h : s.Fewer s' ek) {nowMs : ℕ}
    (hs : s.Closed ek nowMs) : s'.Closed ek nowMs :=
  fun iss hiss hek hwaits =>
    hs iss (h.issuances iss hiss hek) hek (h.isOpen iss hiss hwaits)

theorem Store.fewer_observed (key : EvidenceKey)
    (samples : List Store.Sample) :
    s.Fewer (s.recordObservations key samples) ek :=
  ⟨fun _ h _ => h, fun _ h => h, fun _ _ h => h, rfl⟩

theorem Store.fewer_checkpoint (key : EvidenceKey) (next : Checkpoint) :
    s.Fewer (s.pushCheckpoint key next) ek :=
  ⟨fun _ h _ => h, fun _ h => h, fun _ _ h => h, rfl⟩

/-- An issuance of another epoch. -/
theorem Store.fewer_issued {key : IssuanceKey} (hne : key.evidenceKey ≠ ek)
    (bundle : Bundle) (models : List Model) (nowMs : ℕ) :
    s.Fewer (s.appendIssuance (s.nextIssuance key bundle models nowMs)) ek := by
  refine ⟨fun iss hiss hek => ?_, fun _ h => h, fun _ _ h => h, rfl⟩
  rcases List.mem_append.mp hiss with hold | hnew
  · exact hold
  · rw [List.mem_singleton.mp hnew] at hek
    exact absurd hek hne

/-- An issuance that the compaction keeps, keeps its outcomes. -/
theorem Store.Tidy.fewer_compact (hs : s.Tidy) (config : StoreConfig)
    (now : ℕ) : s.Fewer (s.compact config now) ek := by
  unfold Store.compact
  dsimp only
  split
  · exact ⟨fun _ h _ => h, fun _ h => h, fun _ _ h => h, rfl⟩
  refine ⟨fun iss hiss _ => List.mem_of_mem_filter hiss,
    fun o ho => List.mem_of_mem_filter ho, ?_, rfl⟩
  rintro iss hiss ⟨model, hmodel, hnone⟩
  obtain ⟨hmem, hkept⟩ := List.mem_filter.mp hiss
  refine ⟨model, hmodel, Rows.outcome?_eq_none.mpr fun o ho hsame => ?_⟩
  refine Rows.outcome?_eq_none.mp hnone o (List.mem_filter.mpr ⟨ho, ?_⟩) hsame
  cases hretired : s.outcomeRetired (now - config.retentionSeconds) o with
  | false => rfl
  | true =>
      simp only [Store.outcomeRetired, List.any_eq_true, Bool.and_eq_true,
        decide_eq_true_eq] at hretired
      obtain ⟨owner, howner, hkey, hretired⟩ := hretired
      have hrow : owner = iss := eq_of_pairwise_ne hs.keys_distinct howner hmem
        (hkey.trans hsame.1)
      rw [hrow] at hretired
      rw [hretired] at hkept
      cases hkept

theorem Store.Timely.mono (hs : s.Timely ek untilMs) (h : untilMs ≤ later) :
    s.Timely ek later :=
  { hs with started := fun iss hiss hek => (hs.started iss hiss hek).trans h }

theorem EpochState.Timely.mono (hstate : state.Timely ek recentN untilMs s)
    (h : untilMs ≤ later) : state.Timely ek recentN later s := by
  obtain ⟨newest, hwithin, huntil, hrest⟩ := hstate.pairs
  exact ⟨hstate.bounded, hstate.cursor, newest, hwithin,
    huntil.trans (Nat.add_le_add_right h _), hrest⟩

theorem Store.Evident.mono (hs : s.Evident ek recentN untilMs)
    (h : untilMs ≤ later) : s.Evident ek recentN later :=
  ⟨hs.tidy, hs.rows.mono h, fun cp hcp =>
    ⟨(hs.checkpoint cp hcp).1, (hs.checkpoint cp hcp).2.mono h⟩⟩

/-- Fewer rows with the same checkpoint. -/
theorem Store.Evident.fewer (hs : s.Evident ek recentN untilMs)
    (hfewer : s.Fewer s' ek) (htidy : s'.Tidy)
    (hsame : s'.latestCheckpoint ek = s.latestCheckpoint ek) :
    s'.Evident ek recentN untilMs := by
  refine ⟨htidy, hfewer.rows hs.rows, fun cp hcp => ?_⟩
  rw [hsame] at hcp
  obtain ⟨hseq, hstate⟩ := hs.checkpoint cp hcp
  exact ⟨hseq, hfewer.timely hstate⟩

theorem Store.Evident.pushCheckpoint (hs : s.Evident ek recentN untilMs)
    (hstate : state.Timely ek recentN untilMs s) :
    (s.pushCheckpoint ek ⟨state.lastOutcomeSeq, state⟩).Evident ek recentN
      untilMs := by
  have hfewer : s.Fewer (s.pushCheckpoint ek ⟨state.lastOutcomeSeq, state⟩)
      ek := Store.fewer_checkpoint ek _
  have htidy := hs.tidy
  refine ⟨⟨htidy.models_ne, htidy.issuances_le, htidy.issuances_ordered,
    htidy.outcomes_le, htidy.outcomes_ordered, htidy.keys_distinct,
    htidy.outcomes_distinct, htidy.belongs⟩, hfewer.rows hs.rows,
    fun cp hcp => ?_⟩
  rw [Store.latestCheckpoint_push, if_pos rfl] at hcp
  cases hcp
  exact ⟨rfl, hfewer.timely hstate⟩

section Matured

variable {iss : Issuance} {model : Model} (payload : OutcomePayload)
  {nowMs : ℕ}

theorem Store.isOpen_of_appendOutcome {o : Outcome} {iss : Issuance}
    (h : (s.appendOutcome o).IsOpen iss) : s.IsOpen iss := by
  obtain ⟨model, hmodel, hnone⟩ := h
  refine ⟨model, hmodel, Rows.outcome?_eq_none.mpr fun o ho => ?_⟩
  exact Rows.outcome?_eq_none.mp hnone o (List.mem_append_left _ ho)

variable (hiss : s.issuance? iss.key = some iss) (hmodel : model ∈ iss.models)
  (hopen : s.outcome? iss.key model = none)

include hiss hmodel hopen

theorem Store.Timely.appendOutcome (hs : s.Timely ek untilMs) (htidy : s.Tidy) :
    (s.appendOutcome (s.nextOutcome iss model payload nowMs)).Timely ek
      untilMs where
  key := hs.key
  started := hs.started
  target := hs.target
  models := hs.models
  waiting iss hiss hek open_ hmem hek' hwaits :=
    hs.waiting iss hiss hek open_ hmem hek' (Store.isOpen_of_appendOutcome hwaits)
  ordered := by
    intro o ho hek o' ho' hek' hseq
    rcases List.mem_append.mp ho with ho | ho
    · rcases List.mem_append.mp ho' with ho' | ho'
      · exact hs.ordered o ho hek o' ho' hek' hseq
      · rw [List.mem_singleton.mp ho'] at hek' ⊢
        obtain ⟨owner, howner, hbelongs⟩ := htidy.belongs o ho
        rw [hbelongs.windowEnd_eq]
        exact hs.waiting owner howner (hbelongs.evidenceKey_eq.symm.trans hek)
          iss (Rows.issuance?_mem hiss) hek' ⟨model, hmodel, hopen⟩
    · -- The new row has the last number.
      rw [List.mem_singleton.mp ho] at hseq
      have hlast : o'.seq ≤ s.outcomeSeq + 1 := by
        rcases List.mem_append.mp ho' with ho' | ho'
        · exact Nat.le_succ_of_le (htidy.outcomes_le o' ho').2
        · rw [List.mem_singleton.mp ho']
          exact Nat.le_refl _
      exact absurd hseq (Nat.not_lt.mpr hlast)

theorem EpochState.Timely.appendOutcome
    (hstate : state.Timely ek recentN untilMs s) :
    state.Timely ek recentN untilMs
      (s.appendOutcome (s.nextOutcome iss model payload nowMs)) := by
  obtain ⟨newest, hwithin, huntil, hwaiting, hlater⟩ := hstate.pairs
  refine ⟨hstate.bounded, Nat.le_succ_of_le hstate.cursor, newest, hwithin,
    huntil, fun other hother hek hwaits => ?_, fun o ho hek hseq => ?_⟩
  · exact hwaiting other hother hek (Store.isOpen_of_appendOutcome hwaits)
  · rcases List.mem_append.mp ho with ho | ho
    · exact hlater o ho hek hseq
    · rw [List.mem_singleton.mp ho] at hek ⊢
      exact hwaiting iss (Rows.issuance?_mem hiss) hek ⟨model, hmodel, hopen⟩

theorem Store.Evident.appendOutcome (hs : s.Evident ek recentN untilMs)
    (hended : iss.key.windowEnd * 1000 ≤ nowMs) :
    (s.appendOutcome (s.nextOutcome iss model payload nowMs)).Evident ek
      recentN untilMs := by
  refine ⟨hs.tidy.appendOutcome payload hiss hmodel hopen hended,
    hs.rows.appendOutcome payload hiss hmodel hopen hs.tidy, fun cp hcp => ?_⟩
  obtain ⟨hseq, hstate⟩ := hs.checkpoint cp hcp
  exact ⟨hseq, hstate.appendOutcome payload hiss hmodel hopen⟩

end Matured

section Fold

variable {ctx : RecoverContext} {next : EpochState}

theorem EpochState.timely_initial (recipes : Recipes) :
    (EpochState.initial recipes ek).Timely ek recentN untilMs s :=
  ⟨EpochState.bounded_initial recipes, Nat.zero_le _, 0, Pairs.within_fresh _ _ _ _ _ _ _,
    by omega, fun _ _ _ _ => by omega, fun _ _ _ _ => by omega⟩

/-- Between the cursors and a change of the models, the pairs wait. -/
theorem EpochState.Timely.same (h : state.Timely ek recentN untilMs s)
    (hbounded : next.Bounded ek recentN)
    (hcursor : next.lastOutcomeSeq = state.lastOutcomeSeq)
    (hpairs : next.pairs = state.pairs) :
    next.Timely ek recentN untilMs s := by
  refine ⟨hbounded, hcursor ▸ h.cursor, ?_⟩
  rw [hpairs, hcursor]
  exact h.pairs

theorem EpochState.Timely.foldIssuance (h : state.Timely ek recentN untilMs s)
    {iss : Issuance} (hkey : iss.key.OnGrid ek)
    (hfold : Forecasting.foldIssuance ctx state iss = .ok next) :
    next.Timely ek recentN untilMs s := by
  obtain ⟨hbounded, hpairs⟩ := h.bounded.foldIssuance hkey hfold
  exact h.same hbounded (foldIssuance_cursors hfold).2 hpairs

/-- The window of a late outcome is less than a day before the newest one. -/
theorem EvidenceKey.Served.late (hek : ek.Served) {newest windowEnd : ℕ}
    (h : newest * 1000 ≤ windowEnd * 1000 + ek.lateMs) :
    newest < windowEnd + day := by
  have hlate := hek.late_lt
  omega

theorem IssuanceKey.OnGrid.windowEnd_le {key : IssuanceKey}
    (h : key.OnGrid ek) (hstarted : key.decisionOrigin * 1000 ≤ untilMs) :
    key.windowEnd * 1000 ≤ untilMs + ek.leadSeconds * 1000 := by
  rw [h.windowEnd_eq, Nat.add_mul]
  exact Nat.add_le_add_right hstarted _

theorem mul_le_of_le_max {a b c n m : ℕ} (h : c ≤ max a b) (ha : a * n ≤ m)
    (hb : b * n ≤ m) : c * n ≤ m := by
  refine (Nat.mul_le_mul_right n h).trans ?_
  rw [← Nat.mul_max_mul_right]
  exact max_le ha hb

theorem EpochState.Timely.foldOutcome (h : state.Timely ek recentN untilMs s)
    (hek : ek.Served) (htidy : s.Tidy) (hrows : s.Timely ek untilMs)
    (hctx : ctx.Serves ek recentN) {o : Outcome} (ho : o ∈ s.outcomes)
    (hoEk : o.evidenceKey = ek) (hlater : state.lastOutcomeSeq < o.seq)
    (hfold : Forecasting.foldOutcome ctx s.toJournal state o = .ok next) :
    next.Timely ek recentN untilMs s := by
  have hcursor := (foldOutcome_cursors hfold).1
  obtain ⟨owner, howner, hbelongs⟩ := htidy.belongs o ho
  have hownerEk : owner.key.evidenceKey = ek :=
    hbelongs.evidenceKey_eq.symm.trans hoEk
  have hkey := hrows.key owner howner hownerEk
  have hstarted := hrows.started owner howner hownerEk
  have hend := hbelongs.windowEnd_eq
  obtain ⟨newest, hwithin, huntil, hwaiting, hafter⟩ := h.pairs
  unfold Forecasting.foldOutcome at hfold
  obtain ⟨r, hr, hfold⟩ := Except.bind_eq_ok_iff.mp hfold
  obtain ⟨iss, c, truth, -, hagrees, hcal, -⟩ := Journal.record_eq_ok hr
  have hrecord : r.cal.windowEnd = o.windowEnd := by
    rw [hcal, hagrees.windowEnd_eq]
    rfl
  obtain ⟨hbounded, hpairs⟩ := h.bounded.foldRecord hctx hfold
  have htaken : ∃ later ≤ max newest o.windowEnd,
      next.pairs.Within ek.intervalSeconds later := by
    rcases hpairs with hsame | ⟨lead, nominal, hwith⟩
    · exact ⟨newest, Nat.le_max_left _ _, hsame ▸ hwithin⟩
    · rw [hwith, ← hrecord]
      refine hwithin.withRecord (hek.late ?_) ?_ lead nominal
      · rw [hrecord]
        exact hafter o ho hoEk hlater
      · rw [hrecord, hend]
        exact hkey.grid
  obtain ⟨later, hle, hpaired⟩ := htaken
  refine ⟨hbounded, ?_, later, hpaired, ?_, fun waiting hmem hwaitEk hwaits => ?_,
    fun o' ho' hek' hseq => ?_⟩
  · rw [hcursor]
    exact (htidy.outcomes_le o ho).2
  · exact mul_le_of_le_max hle huntil (hend ▸ hkey.windowEnd_le hstarted)
  · refine mul_le_of_le_max hle (hwaiting waiting hmem hwaitEk hwaits) ?_
    rw [hend]
    exact hrows.waiting owner howner hownerEk waiting hmem hwaitEk hwaits
  · rw [hcursor] at hseq
    exact mul_le_of_le_max hle (hafter o' ho' hek' (hlater.trans hseq))
      (hrows.ordered o ho hoEk o' ho' hek' hseq)

theorem EpochState.Timely.foldIssuances
    (h : state.Timely ek recentN untilMs s) (hrows : s.Timely ek untilMs)
    {items : List Issuance}
    (hitems : ∀ iss ∈ items, iss ∈ s.issuances ∧ iss.key.evidenceKey = ek)
    (hfold : items.foldlM (Forecasting.foldIssuance ctx) state = .ok next) :
    next.Timely ek recentN untilMs s ∧
      next.lastOutcomeSeq = state.lastOutcomeSeq := by
  refine foldlM_keeps (P := fun state' : EpochState =>
    state'.Timely ek recentN untilMs s ∧
      state'.lastOutcomeSeq = state.lastOutcomeSeq) ?_ ⟨h, rfl⟩ hfold
  rintro state' iss hiss next' ⟨hstate', hcursor⟩ hstep
  obtain ⟨hmem, hissEk⟩ := hitems iss hiss
  exact ⟨hstate'.foldIssuance (hrows.key iss hmem hissEk) hstep,
    (foldIssuance_cursors hstep).2.trans hcursor⟩

theorem EpochState.Timely.foldOutcomes
    (h : state.Timely ek recentN untilMs s) (hek : ek.Served)
    (htidy : s.Tidy) (hrows : s.Timely ek untilMs)
    (hctx : ctx.Serves ek recentN) {items : List Outcome}
    (hordered : items.Pairwise fun a b => a.seq < b.seq)
    (hitems : ∀ o ∈ items, o ∈ s.outcomes ∧ o.evidenceKey = ek ∧
      state.lastOutcomeSeq < o.seq)
    (hfold : items.foldlM (Forecasting.foldOutcome ctx s.toJournal) state =
      .ok next) : next.Timely ek recentN untilMs s := by
  refine @foldlM_keeps_after _ _ _ Rows.Outcome.seq _
    (fun state' => state'.Timely ek recentN untilMs s)
    EpochState.lastOutcomeSeq _
    (fun state' o ho next' hstate' hlater hstep => ?_) hordered _ _
    (fun o ho => (hitems o ho).2.2) h hfold
  obtain ⟨hmem, hoEk, -⟩ := hitems o ho
  exact ⟨hstate'.foldOutcome hek htidy hrows hctx hmem hoEk hlater hstep,
    (foldOutcome_cursors hstep).1⟩

theorem Store.Tidy.outcomesAfter_ordered (hs : s.Tidy) (ek : EvidenceKey)
    (seq : ℕ) :
    ((s.outcomesAfter ek seq).Pairwise fun a b => a.seq < b.seq) ∧
      ∀ o ∈ s.outcomesAfter ek seq, o ∈ s.outcomes ∧ o.evidenceKey = ek ∧
        seq < o.seq := by
  exact ⟨hs.outcomes_ordered.filter _, fun o ho => Rows.mem_outcomesAfter.mp ho⟩

theorem EpochState.Timely.recovered (h : state.Timely ek recentN untilMs s)
    (hek : ek.Served) (htidy : s.Tidy) (hrows : s.Timely ek untilMs)
    (hctx : ctx.Serves ek recentN)
    (hrecover : recover ctx s.toJournal state = .ok next) :
    next.Timely ek recentN untilMs s := by
  unfold recover twoPass at hrecover
  rw [hctx.ek_eq] at hrecover
  obtain ⟨folded, hissuances, houtcomes⟩ := Except.bind_eq_ok_iff.mp hrecover
  obtain ⟨-, hitems⟩ := htidy.issuancesAfter_ordered ek state.lastIssuanceSeq
  obtain ⟨hordered, hafter⟩ :=
    htidy.outcomesAfter_ordered ek state.lastOutcomeSeq
  obtain ⟨hfolded, hcursor⟩ := h.foldIssuances hrows
    (fun iss hiss => ⟨(hitems iss hiss).1, (hitems iss hiss).2.1⟩) hissuances
  exact hfolded.foldOutcomes hek htidy hrows hctx hordered
    (fun o ho => by rw [hcursor]; exact hafter o ho) houtcomes

end Fold

section Issued

variable {key : IssuanceKey} {bindMs nowMs : ℕ}

/-- A key issued now: its origin is that of the reading at which its request
was bound. -/
structure IssuanceKey.IssuedAt (key : IssuanceKey) (ek : EvidenceKey)
    (bindMs : ℕ) : Prop extends key.OnGrid ek where
  ek_eq : key.evidenceKey = ek
  origin_le : key.decisionOrigin * 1000 ≤ bindMs
  current : bindMs < (key.decisionOrigin + ek.intervalSeconds) * 1000

/-- The window of a key issued now ends no earlier than every other one, but
for the step of the clock. -/
theorem IssuanceKey.IssuedAt.latest (h : key.IssuedAt ek bindMs)
    (hek : ek.Served) (hclock : untilMs ≤ bindMs + clockStepMs) {w : ℕ}
    (hw : w * 1000 ≤ untilMs + ek.leadSeconds * 1000) :
    w * 1000 ≤ key.windowEnd * 1000 + ek.lateMs := by
  have hwindow := h.windowEnd_eq
  have hcurrent := h.current
  have hinterval := hek.interval_le
  simp only [EvidenceKey.lateMs, EvidenceKey.openSeconds]
  omega

variable (bundle : Bundle) {models : List Model} (committedMs : ℕ)

section Append

variable (hkey : key.IssuedAt ek bindMs) (hek : ek.Served)
  (huntil : bindMs ≤ untilMs) (hclock : untilMs ≤ bindMs + clockStepMs)

include hkey hek hclock

theorem Store.Timely.appendIssuance (hs : s.Timely ek untilMs)
    (huntil : bindMs ≤ untilMs) (hclosed : s.Closed ek nowMs)
    (hwithin : bindMs ≤ nowMs + clockStepMs)
    (htarget : bundle.targetTimestamps.getLastD 0 = key.windowEnd)
    (hmodels : ∀ model ∈ models, model ∈ [Model.seasonalNaive, .statistical]) :
    (s.appendIssuance (s.nextIssuance key bundle models committedMs)).Timely ek
      untilMs := by
  have hmem : ∀ iss ∈ (s.appendIssuance (s.nextIssuance key bundle models
      committedMs)).issuances, iss ∈ s.issuances ∨
        iss = s.nextIssuance key bundle models committedMs := by
    intro iss hiss
    exact (List.mem_append.mp hiss).imp id List.mem_singleton.mp
  have hstarted := hkey.origin_le.trans huntil
  refine ⟨?_, ?_, ?_, ?_, ?_, hs.ordered⟩
  · intro iss hiss hissEk
    rcases hmem iss hiss with hold | rfl
    · exact hs.key iss hold hissEk
    · exact hkey.toOnGrid
  · intro iss hiss hissEk
    rcases hmem iss hiss with hold | rfl
    · exact hs.started iss hold hissEk
    · exact hstarted
  · intro iss hiss hissEk
    rcases hmem iss hiss with hold | rfl
    · exact hs.target iss hold hissEk
    · exact htarget
  · intro iss hiss hissEk
    rcases hmem iss hiss with hold | rfl
    · exact hs.models iss hold hissEk
    · exact hmodels
  · intro iss hiss hissEk open_ hopen hopenEk hwaits
    rcases hmem open_ hopen with holdOpen | rfl
    · rcases hmem iss hiss with hold | rfl
      · exact hs.waiting iss hold hissEk open_ holdOpen hopenEk hwaits
      · -- An open window is not past its deadline when another is issued.
        have hdeadline := hclosed open_ holdOpen hopenEk hwaits
        have hthis := hkey.windowEnd_le hkey.origin_le
        change key.windowEnd * 1000 ≤ _
        simp only [truthDeadlineMs, EvidenceKey.lateMs,
          EvidenceKey.openSeconds, Nat.add_mul] at hdeadline ⊢
        linarith
    · refine hkey.latest hek hclock ?_
      rcases hmem iss hiss with hold | rfl
      · exact (hs.key iss hold hissEk).windowEnd_le (hs.started iss hold hissEk)
      · exact hkey.windowEnd_le hstarted

theorem EpochState.Timely.appendIssuance
    (hstate : state.Timely ek recentN untilMs s) :
    state.Timely ek recentN untilMs
      (s.appendIssuance (s.nextIssuance key bundle models committedMs)) := by
  obtain ⟨newest, hwithin, huntil, hwaiting, hlater⟩ := hstate.pairs
  refine ⟨hstate.bounded, hstate.cursor, newest, hwithin, huntil,
    fun iss hiss hissEk hwaits => ?_, hlater⟩
  rcases List.mem_append.mp hiss with hold | hnew
  · exact hwaiting iss hold hissEk hwaits
  · rw [List.mem_singleton.mp hnew]
    exact hkey.latest hek hclock huntil

end Append

end Issued

end Rows

/-- A window that stays pending has its truth deadline ahead. -/
theorem windowOutcome_none {targets : List ℕ} {base : ℚ} {upper : Option ℚ}
    {received : Receipts} {nowMs settlement grace : ℕ}
    (h : windowOutcome targets base upper received nowMs settlement grace =
      .ok none) :
    nowMs < truthDeadlineMs (targets.getLastD 0) settlement grace := by
  simp only [windowOutcome, Except.bind_eq_ok_iff] at h
  obtain ⟨_, -, h⟩ := h
  split at h
  · rename_i hpending
    refine hpending.trans_le (Nat.mul_le_mul_right 1000 ?_)
    exact Nat.le_add_right _ grace
  · split at h
    · split at h
      · rename_i hearly
        exact hearly
      · cases h
    · cases h

/-- What a request of the epoch works on. -/
structure EpochRequest (call : Call) (key : IssuanceKey) (ic : IssueContext)
    (ek : EvidenceKey) (recentN untilMs : ℕ) : Prop where
  ek_eq : ic.ek = ek
  served : ek.Served
  serves : ic.toRecoverContext.Serves ek recentN
  settlement_eq : ic.settings.settlementSeconds = ek.settlementSeconds
  grace_eq : ic.settings.outcomeGraceSeconds = ek.outcomeGraceSeconds
  issued : key.IssuedAt ek call.clock.bindMs
  target : ic.window.targetTimestamps.getLastD 0 = key.windowEnd
  bind_le : call.clock.bindMs ≤ untilMs
  steady : untilMs ≤ call.clock.bindMs + clockStepMs
  within : call.clock.bindMs ≤ call.clock.nowMs + clockStepMs

/-- The models still open are the ones given, or have their deadline ahead. -/
def Store.OpenOnly (s : Store) (ek : EvidenceKey) (nowMs : ℕ)
    (left : Issuance → Model → Prop) : Prop :=
  ∀ iss ∈ s.issuances, iss.key.evidenceKey = ek → ∀ model ∈ iss.models,
    s.outcome? iss.key model = none → left iss model ∨
      nowMs < truthDeadlineMs iss.key.windowEnd ek.settlementSeconds
        ek.outcomeGraceSeconds

section Left

variable {s : Store} {ek : EvidenceKey} {nowMs : ℕ}
  {left left' : Issuance → Model → Prop}

theorem Store.OpenOnly.imp (h : s.OpenOnly ek nowMs left)
    (himp : ∀ iss ∈ s.issuances, iss.key.evidenceKey = ek →
      ∀ model ∈ iss.models, s.outcome? iss.key model = none → left iss model →
        left' iss model ∨ nowMs < truthDeadlineMs iss.key.windowEnd
          ek.settlementSeconds ek.outcomeGraceSeconds) :
    s.OpenOnly ek nowMs left' := by
  intro iss hiss hek model hmodel hnone
  rcases h iss hiss hek model hmodel hnone with hleft | hdeadline
  · exact himp iss hiss hek model hmodel hnone hleft
  · exact .inr hdeadline

/-- An outcome closes its window for its model, and opens none. -/
theorem Store.OpenOnly.appendOutcome (h : s.OpenOnly ek nowMs left)
    (o : Outcome) (himp : ∀ iss model, left iss model →
      left' iss model ∨ o.issuanceId = iss.key ∧ o.model = model) :
    (s.appendOutcome o).OpenOnly ek nowMs left' := by
  intro iss hiss hek model hmodel hnone
  have hnone := Rows.outcome?_eq_none.mp hnone
  have hbefore : s.outcome? iss.key model = none :=
    Rows.outcome?_eq_none.mpr fun x hx => hnone x (List.mem_append_left _ hx)
  rcases h iss hiss hek model hmodel hbefore with hleft | hdeadline
  · rcases himp iss model hleft with hkept | hclosed
    · exact .inl hkept
    · have hlast := hnone o (List.mem_append_right _ (List.mem_singleton_self o))
      exact absurd hclosed hlast
  · exact .inr hdeadline

end Left

theorem Store.Evident.startState {s : Store} {ek : EvidenceKey}
    {recentN untilMs : ℕ} (hs : s.Evident ek recentN untilMs) (recipes : Recipes) :
    (s.startState recipes ek).Timely ek recentN untilMs s := by
  unfold Store.startState
  cases hcp : s.latestCheckpoint ek with
  | none => exact EpochState.timely_initial recipes
  | some cp => exact (hs.checkpoint cp hcp).2

/-- What a build issues: the targets of its window, for the naive and the
statistical model. -/
theorem build_issues {config : ServiceConfig} {ic : IssueContext} {call : Call}
    {healthy : Bool} {state next : EpochState} {bundle : Bundle}
    (hbuild : build config ic call healthy state = .ok (bundle, next)) :
    bundle.targetTimestamps = ic.window.targetTimestamps ∧
      ∀ model ∈ bundle.models,
        model ∈ [Model.seasonalNaive, .statistical] := by
  unfold build at hbuild
  simp only at hbuild
  split at hbuild
  · cases hbuild
  obtain ⟨built, hbuilt, hbuild⟩ := Except.bind_eq_ok_iff.mp hbuild
  obtain ⟨verdict, -, hbuild⟩ := Except.bind_eq_ok_iff.mp hbuild
  have hlstm : built.candidates .lstm = none := by
    refine foldlM_keeps (P := fun b : Built => b.candidates .lstm = none)
      (s := { state }) ?_ rfl hbuilt
    intro b p hp b' hb hcandidate
    unfold buildCandidate at hcandidate
    obtain ⟨bounded, -, hcandidate⟩ := Except.bind_eq_ok_iff.mp hcandidate
    cases hcandidate
    have hmodel : p.model ≠ .lstm := by
      unfold familyPoints at hp
      rcases List.mem_append.mp hp with hp | hp
      · obtain ⟨points, -, rfl⟩ :=
          Option.map_eq_some_iff.mp (Option.mem_toList.mp hp)
        exact nofun
      · obtain ⟨e1, -, rfl⟩ :=
          Option.map_eq_some_iff.mp (Option.mem_toList.mp hp)
        exact nofun
    change Function.update b.candidates p.model _ .lstm = none
    rw [Function.update_of_ne (Ne.symm hmodel), hb]
  cases hbuild
  refine ⟨rfl, fun model hmodel => ?_⟩
  have hsome : (built.candidates model).isSome = true :=
    (List.mem_filter.mp hmodel).2
  cases model with
  | lstm =>
      rw [hlstm] at hsome
      cases hsome
  | statistical => exact List.mem_cons_of_mem _ List.mem_cons_self
  | seasonalNaive => exact List.mem_cons_self

section Request

variable {config : ServiceConfig} {call : Call} {key : IssuanceKey}
  {ic : IssueContext} {ek : EvidenceKey} {recentN untilMs : ℕ}
  (h : EpochRequest call key ic ek recentN untilMs)

include h

/-- One settled window of one model is closed, or its deadline is ahead. -/
theorem EpochRequest.closeWindow (received : Receipts) {model : Model}
    {rest : List Model} {iss : Issuance} {remaining : List Issuance}
    {svc : Service} (hsvc : svc.store.Evident ek recentN untilMs ∧
      svc.store.OpenOnly ek call.clock.nowMs fun i m =>
        m ∈ rest ∨ m = model ∧ i ∈ iss :: remaining)
    (payload : Option OutcomePayload) :
    issuedOutcome iss.bundle model received call.clock.nowMs
      ic.settings.settlementSeconds ic.settings.outcomeGraceSeconds =
        .ok payload →
    (match payload with
      | none => pure ()
      | some payload => do
          let _ ← onStore (Store.commitOutcome iss.key model payload
            (call.clock.outcomeMs iss.key model)) :
      Durable Service Raised Unit).wp
      (fun svc => svc.store.Evident ek recentN untilMs)
      (fun _ svc => svc.store.Evident ek recentN untilMs)
      (fun _ svc => svc.store.Evident ek recentN untilMs ∧
        svc.store.OpenOnly ek call.clock.nowMs fun i m =>
          m ∈ rest ∨ m = model ∧ i ∈ remaining) svc := by
  intro hpayload
  obtain ⟨hevident, hleft⟩ := hsvc
  cases payload with
  | none =>
      refine Durable.wp_pure.mpr ⟨hevident, hleft.imp ?_⟩
      rintro i hi hiEk m - - (hm | ⟨rfl, hmem⟩)
      · exact .inl (.inl hm)
      rcases List.mem_cons.mp hmem with rfl | hmem
      · -- The window stays open, so its own deadline is ahead.
        obtain ⟨c, -, hpending⟩ := Except.bind_eq_ok_iff.mp hpayload
        have hdeadline := windowOutcome_none hpending
        rw [hevident.rows.target i hi hiEk, h.settlement_eq, h.grace_eq]
          at hdeadline
        exact .inr hdeadline
      · exact .inl (.inr ⟨rfl, hmem⟩)
  | some payload =>
      simp only [Durable.wp_bind, onStore, Durable.wp_commit]
      cases hcommit : svc.store.commitOutcome iss.key model payload
          (call.clock.outcomeMs iss.key model) with
      | error raised => exact hevident
      | ok made =>
          obtain ⟨⟨o, created⟩, s'⟩ := made
          obtain ⟨-, hfound, -, rfl⟩ | ⟨iss', -, hkey, hiss', hmodel, hopen,
            hended, rfl, rfl⟩ := Store.commitOutcome_cases hcommit
          · refine ⟨hevident, Durable.wp_pure.mpr ⟨hevident, hleft.imp ?_⟩⟩
            rintro i hi hiEk m - hnone (hm | ⟨rfl, hmem⟩)
            · exact .inl (.inl hm)
            rcases List.mem_cons.mp hmem with rfl | hmem
            · rw [hfound] at hnone
              cases hnone
            · exact .inl (.inr ⟨rfl, hmem⟩)
          · have hnext := hevident.appendOutcome payload hiss' hmodel hopen hended
            refine ⟨hnext, Durable.wp_pure.mpr ⟨hnext,
              hleft.appendOutcome _ ?_⟩⟩
            rintro i m (hm | ⟨rfl, hmem⟩)
            · exact .inl (.inl hm)
            rcases List.mem_cons.mp hmem with rfl | hmem
            · exact .inr ⟨hkey, rfl⟩
            · exact .inl (.inr ⟨rfl, hmem⟩)

/-- A request closes every window of its epoch past its truth deadline. -/
theorem EpochRequest.closeSettled (received : Receipts) {svc : Service}
    (hsvc : svc.store.Evident ek recentN untilMs) :
    (Forecasting.closeSettled call ic received).wp
      (fun svc => svc.store.Evident ek recentN untilMs)
      (fun _ svc => svc.store.Evident ek recentN untilMs)
      (fun _ svc => svc.store.Evident ek recentN untilMs ∧
        svc.store.Closed ek call.clock.nowMs) svc := by
  have hstart : svc.store.OpenOnly ek call.clock.nowMs fun _ m =>
      m ∈ [Model.seasonalNaive, .statistical] :=
    fun iss hiss hek m hm _ => .inl (hsvc.rows.models iss hiss hek m hm)
  unfold Forecasting.closeSettled
  refine Durable.wp_mono (Durable.wp_each_rest (P := fun models svc =>
    svc.store.Evident ek recentN untilMs ∧
      svc.store.OpenOnly ek call.clock.nowMs fun _ m => m ∈ models) ?_
    ⟨hsvc, hstart⟩) (fun _ h => h) (fun _ _ h => h) ?_
  · rintro model rest svc ⟨hevident, hleft⟩
    simp only [readStore, Durable.wp_bind, Durable.wp_read]
    refine Durable.wp_mono (Durable.wp_each_rest (P := fun remaining svc =>
      svc.store.Evident ek recentN untilMs ∧
        svc.store.OpenOnly ek call.clock.nowMs fun i m =>
          m ∈ rest ∨ m = model ∧ i ∈ remaining) ?_ ⟨hevident, hleft.imp ?_⟩)
      (fun _ h => h) (fun _ _ h => h) ?_
    · intro iss remaining svc hsvc
      simp only [Durable.wp_bind, Durable.wp_liftExcept]
      cases hpayload : issuedOutcome iss.bundle model received call.clock.nowMs
          ic.settings.settlementSeconds ic.settings.outcomeGraceSeconds with
      | error raised => exact hsvc.1
      | ok payload => exact h.closeWindow received hsvc payload hpayload
    · intro iss hiss hek m hm hnone hmem
      rcases List.mem_cons.mp hmem with rfl | hmem
      · by_cases hended : iss.key.windowEnd ≤
            call.clock.nowMs / 1000 - ic.settings.settlementSeconds
        · refine .inl (.inr ⟨rfl, Store.mem_openIssuances.mpr
            ⟨hiss, ?_, hended, hnone, hm⟩⟩)
          rw [hek, h.ek_eq]
        · rw [h.settlement_eq] at hended
          refine .inr ?_
          unfold truthDeadlineMs
          omega
      · exact .inl (.inl hmem)
    · rintro _ svc ⟨hevident, hleft⟩
      refine ⟨hevident, hleft.imp fun iss _ _ m _ _ hm => ?_⟩
      rcases hm with hm | ⟨-, hmem⟩
      · exact .inl hm
      · cases hmem
  · rintro _ svc ⟨hevident, hleft⟩
    refine ⟨hevident, fun iss hiss hek => ?_⟩
    rintro ⟨m, hm, hnone⟩
    exact (hleft iss hiss hek m hm hnone).resolve_left List.not_mem_nil

/-- The state in hand after a recovery. -/
theorem EpochRequest.recoverLatest {svc : Service}
    (hsvc : svc.store.Evident ek recentN untilMs) :
    (Forecasting.recoverLatest config ic).wp
      (fun svc => svc.store.Evident ek recentN untilMs)
      (fun _ svc => svc.store.Evident ek recentN untilMs)
      (fun state svc' => svc' = svc ∧
        state.Timely ek recentN untilMs svc.store) svc := by
  simp only [Forecasting.recoverLatest, readStore, Durable.wp_bind,
    Durable.wp_read, Durable.wp_liftExcept]
  cases hrecover : recover ic.toRecoverContext svc.store.toJournal
      (svc.store.startState config.recipes ic.ek) with
  | error raised => exact hsvc
  | ok state =>
      have hstart := hsvc.startState config.recipes
      rw [← h.ek_eq] at hstart
      refine ⟨trivial, ?_⟩
      rw [h.ek_eq] at hstart
      exact hstart.recovered h.served hsvc.tidy hsvc.rows h.serves
        (h.ek_eq ▸ hrecover)

/-- A checkpoint of a state in hand; what the rows alone say stays true. -/
theorem EpochRequest.writeCheckpoint {state : EpochState}
    {R : Store → Prop} (hR : ∀ s s' : Store, s.Fewer s' ek → R s → R s')
    {svc : Service} (hsvc : svc.store.Evident ek recentN untilMs)
    (hrest : R svc.store)
    (hstate : state.Timely ek recentN untilMs svc.store) :
    (onStore (Store.writeCheckpoint ic.ek state state.lastOutcomeSeq)).wp
      (fun svc => svc.store.Evident ek recentN untilMs)
      (fun _ svc => svc.store.Evident ek recentN untilMs)
      (fun _ svc => svc.store.Evident ek recentN untilMs ∧ R svc.store ∧
        state.Timely ek recentN untilMs svc.store) svc := by
  rw [h.ek_eq]
  simp only [onStore, Durable.wp_commit]
  cases hwrite : svc.store.writeCheckpoint ek state state.lastOutcomeSeq with
  | error raised => exact hsvc
  | ok made =>
      obtain ⟨⟨⟩, s'⟩ := made
      obtain ⟨-, rfl⟩ | ⟨-, rfl⟩ := Store.writeCheckpoint_cases hwrite
      · exact ⟨hsvc, hsvc, hrest, hstate⟩
      · have hfewer : svc.store.Fewer (svc.store.pushCheckpoint ek
            ⟨state.lastOutcomeSeq, state⟩) ek := Store.fewer_checkpoint ek _
        have hnext := hsvc.pushCheckpoint hstate
        exact ⟨hnext, hnext, hR _ _ hfewer hrest, hfewer.timely hstate⟩

/-- A new issuance, while every window past its deadline is closed. -/
theorem EpochRequest.issueNew {state : EpochState} {svc : Service}
    (hsvc : svc.store.Evident ek recentN untilMs)
    (hclosed : svc.store.Closed ek call.clock.nowMs)
    (hstate : state.Timely ek recentN untilMs svc.store) :
    (Forecasting.issueNew config call ic key state).wp
      (fun svc => svc.store.Evident ek recentN untilMs)
      (fun _ svc => svc.store.Evident ek recentN untilMs)
      (fun made svc => svc.store.Evident ek recentN untilMs ∧
        made.2.Timely ek recentN untilMs svc.store) svc := by
  simp only [Forecasting.issueNew, Durable.wp_bind, Durable.wp_liftExcept,
    Durable.wp_read]
  cases refuseLate ic.window ic.lead call.clock.nowMs with
  | error raised => exact hsvc
  | ok _ =>
  dsimp only
  cases hbuild : build config ic call svc.healthy state with
  | error raised => exact hsvc
  | ok pair =>
  obtain ⟨bundle, built⟩ := pair
  obtain ⟨htargets, hmodels⟩ := build_issues hbuild
  obtain ⟨hbounded, hpairs⟩ := hstate.bounded.built hbuild
  have hbuilt := hstate.same hbounded (build_cursors hbuild).2 hpairs
  dsimp only
  refine Durable.wp_mono (h.writeCheckpoint
    (fun _ _ hfewer => hfewer.closed) hsvc hclosed hbuilt)
    (fun _ h => h) (fun _ _ h => h) ?_
  rintro _ svc' ⟨hsvc', hclosed', hstate'⟩
  simp only [Durable.wp_bind, Durable.wp_liftExcept]
  cases refuseLate ic.window ic.lead call.clock.issuedMs with
  | error raised => exact hsvc'
  | ok _ =>
  dsimp only
  simp only [onStore, Durable.wp_commit]
  cases hissue : svc'.store.getOrIssue key
      { bundle with issuedAtMs := call.clock.issuedMs }
      (Bundle.models { bundle with issuedAtMs := call.clock.issuedMs })
      call.clock.committedMs with
  | error raised => exact hsvc'
  | ok made =>
  obtain ⟨⟨iss, created⟩, s'⟩ := made
  obtain ⟨expected, hexpected, ⟨-, -, -, rfl⟩ | ⟨-, hnew, -, rfl, rfl⟩⟩ :=
    Store.getOrIssue_cases hissue
  · exact ⟨hsvc', Durable.wp_pure.mpr ⟨hsvc', hstate'⟩⟩
  · have hexpectedModels : ∀ model ∈ expected,
        model ∈ [Model.seasonalNaive, .statistical] := by
      intro model hmem
      refine hmodels model ?_
      unfold Store.expectedModels at hexpected
      split at hexpected
      · cases hexpected
      · cases hexpected
        exact of_decide_eq_true (List.mem_filter.mp hmem).2
    have hnext : (svc'.store.appendIssuance (svc'.store.nextIssuance key
        { bundle with issuedAtMs := call.clock.issuedMs } expected
        call.clock.committedMs)).Evident ek recentN untilMs := by
      refine ⟨hsvc'.tidy.appendIssuance _ _
        (Store.expectedModels_ne_nil hexpected) hnew,
        hsvc'.rows.appendIssuance _ _ h.issued h.served h.steady h.bind_le
          hclosed' h.within (htargets ▸ h.target) hexpectedModels,
        fun cp hcp => ?_⟩
      obtain ⟨hseq, hcheckpoint⟩ := hsvc'.checkpoint cp hcp
      exact ⟨hseq, hcheckpoint.appendIssuance _ _ h.issued h.served h.steady⟩
    exact ⟨hnext, Durable.wp_pure.mpr ⟨hnext,
      hstate'.appendIssuance _ _ h.issued h.served h.steady⟩⟩

theorem EpochRequest.findOrIssue {state : EpochState} {svc : Service}
    (hsvc : svc.store.Evident ek recentN untilMs)
    (hclosed : svc.store.Closed ek call.clock.nowMs)
    (hstate : state.Timely ek recentN untilMs svc.store) :
    (Forecasting.findOrIssue config call ic key state).wp
      (fun svc => svc.store.Evident ek recentN untilMs)
      (fun _ svc => svc.store.Evident ek recentN untilMs)
      (fun made svc => svc.store.Evident ek recentN untilMs ∧
        made.2.Timely ek recentN untilMs svc.store) svc := by
  simp only [Forecasting.findOrIssue, readStore, Durable.wp_bind,
    Durable.wp_read]
  cases svc.store.issuance? key with
  | none => exact h.issueNew hsvc hclosed hstate
  | some iss => exact Durable.wp_pure.mpr ⟨hsvc, hstate⟩

/-- The issuance is folded, checkpointed, and the rows compacted. -/
theorem EpochRequest.settle {state : EpochState} {svc : Service}
    (hsvc : svc.store.Evident ek recentN untilMs)
    (hstate : state.Timely ek recentN untilMs svc.store) :
    (Forecasting.settle config call ic state).wp
      (fun svc => svc.store.Evident ek recentN untilMs)
      (fun _ svc => svc.store.Evident ek recentN untilMs)
      (fun _ svc => svc.store.Evident ek recentN untilMs) svc := by
  simp only [Forecasting.settle, readStore, Durable.wp_bind, Durable.wp_read,
    Durable.wp_liftExcept]
  cases hrecover : recover ic.toRecoverContext svc.store.toJournal state with
  | error raised => exact hsvc
  | ok next =>
      have hnext := hstate.recovered h.served hsvc.tidy hsvc.rows h.serves
        hrecover
      dsimp only
      refine Durable.wp_mono (h.writeCheckpoint (R := fun _ => True)
        (fun _ _ _ h => h) hsvc trivial hnext) (fun _ h => h)
        (fun _ _ h => h) ?_
      rintro _ svc' ⟨hsvc', -, -⟩
      simp only [Durable.wp_commit, and_self]
      split
      · exact hsvc'.fewer (hsvc'.tidy.fewer_compact _ _)
          (hsvc'.tidy.compact _ _) (Store.latestCheckpoint_compact _ _ _ _)
      · exact hsvc'

/-- A request of the epoch keeps its evidence. -/
theorem EpochRequest.issueWith {svc : Service}
    (hsvc : svc.store.Evident ek recentN untilMs) :
    (Forecasting.issueWith config call ic key).wp
      (fun svc => svc.store.Evident ek recentN untilMs)
      (fun _ svc => svc.store.Evident ek recentN untilMs)
      (fun _ svc => svc.store.Evident ek recentN untilMs) svc := by
  have hobserved : (svc.store.recordObservations ic.ek
      ic.grid.points).Evident ek recentN untilMs :=
    hsvc.fewer (Store.fewer_observed _ _) ⟨hsvc.tidy.models_ne,
      hsvc.tidy.issuances_le, hsvc.tidy.issuances_ordered,
      hsvc.tidy.outcomes_le, hsvc.tidy.outcomes_ordered,
      hsvc.tidy.keys_distinct, hsvc.tidy.outcomes_distinct,
      hsvc.tidy.belongs⟩ rfl
  simp only [Forecasting.issueWith, onStore, readStore, Durable.wp_bind,
    Durable.wp_commit, Durable.wp_read]
  refine ⟨hobserved, ?_⟩
  refine Durable.wp_mono (h.closeSettled _ hobserved) (fun _ h => h)
    (fun _ _ h => h) ?_
  rintro _ svc ⟨hsvc, hclosed⟩
  rw [Durable.wp_bind]
  refine Durable.wp_mono (h.recoverLatest hsvc) (fun _ h => h)
    (fun _ _ h => h) ?_
  rintro state _ ⟨rfl, hstate⟩
  rw [Durable.wp_bind]
  refine Durable.wp_mono (h.findOrIssue hsvc hclosed hstate) (fun _ h => h)
    (fun _ _ h => h) ?_
  rintro ⟨iss, state⟩ svc ⟨hsvc, hstate⟩
  rw [Durable.wp_bind]
  refine Durable.wp_mono (h.settle hsvc hstate) (fun _ h => h)
    (fun _ _ h => h) fun _ svc hsvc => ?_
  rw [Durable.wp_liftExcept]
  cases answer ic.bound ic.lead iss <;> exact hsvc

end Request

section Other

variable {s s' : Store} {ek : EvidenceKey} {recentN untilMs : ℕ}
  {key : IssuanceKey}

/-- A change of another epoch leaves the rows of this one. -/
theorem Store.Evident.commit_other (hs : s.Evident ek recentN untilMs)
    (hne : key.evidenceKey ≠ ek) (hcommit : s.Commit key ⊤ s') :
    s'.Evident ek recentN untilMs := by
  have htidy := hcommit.tidy hs.tidy
  cases hcommit with
  | observed samples => exact hs.fewer (Store.fewer_observed _ _) htidy rfl
  | matured payload _ hiss hmodel hopen hended _ =>
      exact hs.appendOutcome payload hiss hmodel hopen hended
  | checkpointed next _ =>
      refine hs.fewer (Store.fewer_checkpoint _ _) htidy ?_
      rw [Store.latestCheckpoint_push, if_neg (Ne.symm hne)]
  | issued bundle nowMs _ _ _ =>
      exact hs.fewer (Store.fewer_issued hne _ _ _) htidy rfl
  | compacted config now =>
      exact hs.fewer (hs.tidy.fewer_compact _ _) htidy
        (Store.latestCheckpoint_compact _ _ _ _)

end Other

section Run

variable {config : ServiceConfig} {call : Call} {ek : EvidenceKey}
  {recentN untilMs : ℕ}

/-- The requests of an epoch keep no more recent windows than given. -/
def RecentAtMost (ek : EvidenceKey) (recentN : ℕ) (calls : List Call) : Prop :=
  ∀ call ∈ calls, ∀ bound lead grid, call.Reaches bound lead grid →
    bound.evidenceKey lead = ek →
    bound.settings.trust.acuteRecentWindows ≤ recentN

theorem policy_maxScores {s : ForecastSettings} {lead : ℕ}
    {policy : CalibrationPolicy}
    (h : CalibrationPolicy.fromSettings s lead = .ok policy) :
    policy.maxScores = s.calibration.maxScores := by
  unfold CalibrationPolicy.fromSettings at h
  dsimp only at h
  split at h
  · cases h
    rfl
  · cases h

theorem Call.Issues.epochRequest {key : IssuanceKey} {ic : IssueContext}
    (h : call.Issues key ic) (hek : key.evidenceKey = ek)
    (hrecent : ic.bound.settings.trust.acuteRecentWindows ≤ recentN)
    (hbind : call.clock.bindMs ≤ untilMs)
    (hsteady : untilMs ≤ call.clock.bindMs + clockStepMs)
    (hwithin : call.clock.bindMs ≤ call.clock.nowMs + clockStepMs) :
    EpochRequest call key ic ek recentN untilMs := by
  have hbinds := h.reaches.binds
  have hfits := h.reaches.fits
  have hkey := h.key_eq
  have hkeyEk : ic.bound.evidenceKey ic.lead = ek := by
    rw [hkey] at hek
    exact hek
  obtain ⟨p, hsettings⟩ := bindRequest_settings h.reaches.bound_eq
  obtain ⟨-, -, hpos⟩ := resolveSettings_limits hsettings
  have hgrid := hbinds.on_grid
  refine
    { ek_eq := h.ek_eq.trans hek
      served := hkeyEk ▸ served_of_settings hsettings hfits _
      serves := ⟨h.ek_eq.trans hek, ?_, ?_, ?_, ?_⟩
      settlement_eq := by rw [h.settings_eq, ← hkeyEk]; rfl
      grace_eq := by rw [h.settings_eq, ← hkeyEk]; rfl
      issued := ?_
      target := ?_
      bind_le := hbind
      steady := hsteady
      within := hwithin }
  · rw [h.lead_eq, h.ek_eq.trans hek]
  · rw [policy_maxScores h.policy_eq, ← hkeyEk]
    rfl
  · rw [h.settings_eq]
    exact hpos
  · rw [h.settings_eq]
    exact hrecent
  · rw [hkey, ← hkeyEk]
    refine ⟨⟨rfl, ?_⟩, rfl, hbinds.origin_le, hbinds.current⟩
    change (ic.bound.decisionOrigin + ic.lead.leadSeconds) %
      ic.bound.settings.sampleIntervalSeconds = 0
    rw [Nat.add_mod, hgrid, hfits.multiple]
    exact Nat.zero_mod _
  · rw [h.window_eq, hkey, ForecastWindow.targetTimestamps_eq]
    have hlead : ic.bound.decisionOrigin + ic.lead.leadSeconds -
        ic.bound.decisionOrigin = ic.lead.leadSeconds :=
      Nat.add_sub_cancel_left _ _
    refine getLastD_windowGrid hbinds.accepted.interval_pos ?_ ?_
    · change (ic.bound.decisionOrigin + ic.lead.leadSeconds -
        ic.bound.decisionOrigin) % _ = 0
      rw [hlead]
      exact hfits.multiple
    · change _ ≤ ic.bound.decisionOrigin + ic.lead.leadSeconds -
        ic.bound.decisionOrigin
      rw [hlead]
      exact hfits.interval_le

/-- A request keeps the evidence of every epoch. -/
theorem predict_evident
    (hrecent : RecentAtMost ek recentN [call])
    (hbind : call.clock.bindMs ≤ untilMs)
    (hsteady : untilMs ≤ call.clock.bindMs + clockStepMs)
    (hwithin : call.clock.bindMs ≤ call.clock.nowMs + clockStepMs) :
    (predict config call).Keeps fun svc =>
      svc.store.Evident ek recentN untilMs := by
  intro svc hsvc
  obtain ⟨status, reason, message, hpredict⟩ |
    ⟨bound, lead, grid, hreaches, -, hpredict⟩ := predict_cases config call svc
  · unfold Durable.wp
    rw [hpredict]
    exact ⟨fun _ h => (nomatch h), hsvc⟩
  obtain ⟨key, ic, hissues, rfl, rfl, rfl, hissue⟩ := hreaches.issue_eq config
  rw [hissue] at hpredict
  have hissued : (issueWith config call ic key).Keeps fun svc =>
      svc.store.Evident ek recentN untilMs := by
    by_cases hek : key.evidenceKey = ek
    · have hown : ic.bound.evidenceKey ic.lead = ek := by
        rw [hissues.key_eq] at hek
        exact hek
      have hrequest := hissues.epochRequest hek (hrecent call
        (List.mem_singleton_self _) _ _ _ hreaches hown) hbind hsteady hwithin
      exact fun svc hsvc => hrequest.issueWith hsvc
    · have hsteps : (issueWith config call ic key).Steps (StoreStep key ⊤) :=
        steps_issueWith hissues.ek_eq fun _ _ => le_top
      refine hsteps.keeps fun a b hab ha => ?_
      rcases hab with hsame | hcommit
      · rw [hsame]
        exact ha
      · exact ha.commit_other hek hcommit
  have hkept := Durable.keeps_mapError (f := storeError) hissued svc hsvc
  unfold Durable.wp at hkept ⊢
  rw [hpredict]
  exact hkept

/-- Along a run with a steady clock every journal keeps the epoch's
evidence. -/
theorem Service.run_evident {events : List Event} {svc : Service}
    (hsvc : svc.store.Evident ek recentN untilMs)
    (hclock : ClockSteady (events.filterMap Event.call?))
    (hafter : ∀ call ∈ events.filterMap Event.call?,
      untilMs ≤ call.clock.bindMs + clockStepMs)
    (hrecent : RecentAtMost ek recentN (events.filterMap Event.call?)) :
    ∃ laterMs,
      (svc.run config events).store.Evident ek recentN laterMs := by
  induction events generalizing svc untilMs with
  | nil => exact ⟨untilMs, hsvc⟩
  | cons event rest ih =>
      cases hcall : event.call? with
      | none =>
          rw [List.filterMap_cons_none hcall] at hclock hafter hrecent
          refine @ih untilMs (svc.step config event) ?_ hclock hafter hrecent
          exact Service.step_keeps (P := fun s => s.Evident ek recentN untilMs)
            (fun call hother => by rw [hcall] at hother; cases hother) hsvc
      | some call =>
          rw [List.filterMap_cons_some hcall] at hclock hafter hrecent
          obtain ⟨hbefore, hbetween⟩ := List.pairwise_cons.mp hclock.between
          have hthis := hafter call List.mem_cons_self
          refine @ih (max untilMs call.clock.bindMs) (svc.step config event) ?_
            ⟨fun c hc => hclock.within c (List.mem_cons_of_mem _ hc), hbetween⟩
            (fun c hc => ?_)
            fun c hc => hrecent c (List.mem_cons_of_mem _ hc)
          · refine Service.step_keeps (P := fun s => s.Evident ek recentN
              (max untilMs call.clock.bindMs)) (fun c hc => ?_)
              (hsvc.mono (Nat.le_max_left _ _))
            rw [hcall] at hc
            cases hc
            refine predict_evident (fun c hc => ?_) (Nat.le_max_right _ _)
              (Nat.max_le.mpr ⟨hthis, Nat.le_add_right _ _⟩)
              (hclock.within call List.mem_cons_self)
            rw [List.mem_singleton.mp hc]
            exact hrecent call List.mem_cons_self
          · exact Nat.max_le.mpr ⟨hafter c (List.mem_cons_of_mem _ hc),
              hbefore c hc⟩

/-- The evidence of an epoch that a journal gives is of bounded size: in its
latest checkpoint, and at every row that a recovery folds. -/
structure Store.EvidenceSized (s : Store) (recipes : Recipes)
    (ek : EvidenceKey) (recentN : ℕ) : Prop where
  checkpoint : ∀ cp, s.latestCheckpoint ek = some cp →
    cp.state.Sized ek recentN
  issuances : ∀ (ctx : RecoverContext) items state,
    ctx.Serves ek recentN →
    items <+: s.issuancesAfter ek (s.startState recipes ek).lastIssuanceSeq →
    items.foldlM (foldIssuance ctx) (s.startState recipes ek) = .ok state →
    state.Sized ek recentN
  outcomes : ∀ (ctx : RecoverContext) folded items state,
    ctx.Serves ek recentN →
    (s.issuancesAfter ek (s.startState recipes ek).lastIssuanceSeq).foldlM
      (foldIssuance ctx) (s.startState recipes ek) = .ok folded →
    items <+: s.outcomesAfter ek (s.startState recipes ek).lastOutcomeSeq →
    items.foldlM (foldOutcome ctx s.toJournal) folded = .ok state →
    state.Sized ek recentN

theorem EpochState.Timely.sized {state : EpochState} {s : Store}
    (h : state.Timely ek recentN untilMs s) (hek : ek.Served) :
    state.Sized ek recentN := by
  obtain ⟨newest, hwithin, -⟩ := h.pairs
  exact h.bounded.sized hek.toOnGrid hwithin

theorem Store.Evident.sized {s : Store} (hs : s.Evident ek recentN untilMs)
    (hek : ek.Served) (recipes : Recipes) :
    s.EvidenceSized recipes ek recentN := by
  have hstart := hs.startState recipes
  have hissuances := (hs.tidy.issuancesAfter_ordered ek
    (s.startState recipes ek).lastIssuanceSeq).2
  obtain ⟨hordered, houtcomes⟩ := hs.tidy.outcomesAfter_ordered ek
    (s.startState recipes ek).lastOutcomeSeq
  refine ⟨fun cp hcp => (hs.checkpoint cp hcp).2.sized hek,
    fun ctx items state _ hitems hfold => ?_,
    fun ctx folded items state hctx hfolded hitems hfold => ?_⟩
  · refine (hstart.foldIssuances hs.rows (fun iss hiss => ?_) hfold).1.sized hek
    obtain ⟨hmem, hissEk, -⟩ := hissuances iss (hitems.subset hiss)
    exact ⟨hmem, hissEk⟩
  · obtain ⟨htimely, hcursor⟩ := hstart.foldIssuances hs.rows
      (fun iss hiss => ⟨(hissuances iss hiss).1, (hissuances iss hiss).2.1⟩)
      hfolded
    refine (htimely.foldOutcomes hek hs.tidy hs.rows hctx
      (hordered.sublist hitems.sublist) (fun o ho => ?_) hfold).sized hek
    rw [hcursor]
    exact houtcomes o (hitems.subset ho)

end Run

/-- In every run with a steady clock, the evidence of an epoch of accepted
settings stays bounded at every fold and in every checkpoint. -/
theorem evidence_bounded (config : ServiceConfig) {p : PredictionSpec}
    {settings : ForecastSettings} (hsettings : resolveSettings p = .ok settings)
    {status : Option LeadStatus} {generation : ℕ} {lead : LeadSelection}
    (hlead : resolveLead status settings generation = .ok lead)
    (signal : ResolvedSignal) (events : List Event)
    (hclock : ClockSteady (events.filterMap Event.call?))
    (hrecent : RecentAtMost (evidenceKey signal settings lead.leadSeconds)
      settings.trust.acuteRecentWindows (events.filterMap Event.call?)) :
    (Service.run config {} events).store.EvidenceSized config.recipes
      (evidenceKey signal settings lead.leadSeconds)
      settings.trust.acuteRecentWindows := by
  have hek := served_of_settings hsettings (resolveLead_fits hlead) signal
  have hempty : ({} : Service).store.Evident
      (evidenceKey signal settings lead.leadSeconds)
      settings.trust.acuteRecentWindows 0 :=
    ⟨Store.tidy_empty,
      ⟨fun _ h => (nomatch h), fun _ h => (nomatch h), fun _ h => (nomatch h),
        fun _ h => (nomatch h), fun _ h => (nomatch h), fun _ h => (nomatch h)⟩,
      fun _ h => (nomatch h)⟩
  have hrun : ∃ laterMs, (Service.run config {} events).store.Evident
      (evidenceKey signal settings lead.leadSeconds)
      settings.trust.acuteRecentWindows laterMs :=
    Service.run_evident hempty hclock (fun _ _ => Nat.zero_le _) hrecent
  obtain ⟨laterMs, hevident⟩ := hrun
  exact hevident.sized hek config.recipes

namespace BoundedEvidenceWitness

open WindowNamesWitness

/-- The settings of the first request, and the lead of its status. -/
def settings : ForecastSettings := { trust := { minShadowHours := 48 } }

def lead : LeadSelection := ⟨600, 60, 30, .configured, 0, 1⟩

def events : List Event := [.request first, .request retry]

theorem clockSteady : ClockSteady [first, retry] :=
  ⟨by decide +kernel, by decide +kernel⟩

theorem recentAtMost (ek : EvidenceKey) :
    RecentAtMost ek settings.trust.acuteRecentWindows [first, retry] := by
  intro call hcall bound lead grid hreaches _
  rw [hreaches.binds.settings_eq]
  simp only [List.mem_cons, List.not_mem_nil, or_false] at hcall
  rcases hcall with rfl | rfl <;> exact Nat.le_refl _

/-- Two requests of one origin: the checkpoint holds the hour and the pending
window of their one issuance. -/
theorem evidence_bounded_retry :
    resolveSettings (live 1 48).prediction = .ok settings ∧
      resolveLead (live 1 48).lead settings 1 = .ok lead ∧
      ClockSteady (events.filterMap Event.call?) ∧
      ((Service.run config {} events).store.latestCheckpoint (evidenceKey
        (live 1 48).signal settings 600)).map (fun cp => cp.state.entries) =
          some 2 ∧
      (Service.run config {} events).store.EvidenceSized config.recipes
        (evidenceKey (live 1 48).signal settings 600) 32 := by
  have hsettings : resolveSettings (live 1 48).prediction = .ok settings := by
    decide +kernel
  have hlead : resolveLead (live 1 48).lead settings 1 = .ok lead := by
    decide +kernel
  exact ⟨hsettings, hlead, clockSteady, by decide +kernel,
    evidence_bounded config hsettings hlead _ events clockSteady
      (recentAtMost _)⟩

end BoundedEvidenceWitness

end PredictiveAutoscaler.Forecasting
