/-
How large the evidence of an epoch gets.  A ledger prunes by the newest time it
has seen, the calibration by the number of its scores, and the paired evidence
by the window end of the record at hand, which bounds it only while records do
not come in a day after those of later windows.
-/
import PredictiveAutoscaler.Forecasting.PairedOnce
import PredictiveAutoscaler.Forecasting.WindowNames
import PredictiveAutoscaler.KeyWindows

namespace PredictiveAutoscaler.Forecasting

open Std (ExtTreeMap)

/-- An hour bucket within the retention before a time. -/
def RetainedHour (newest k : ℕ) : Prop :=
  ((newest : ℤ) - ledgerRetention) / hour < k ∧ k ≤ newest / hour

/-- The newest time a ledger has seen. -/
def Ledger.newestTime (ledger : Ledger) : ℕ := ledger.newest.getD 0

/-- What a ledger keeps: the hours of the retention before its newest time,
the pending windows of the last day and of the lead ahead, on the grid, and the
recent gate bounds. -/
structure Ledger.Bounded (ledger : Ledger) (ek : EvidenceKey) (recentN : ℕ) :
    Prop where
  bucket : ∀ k ∈ ledger.buckets, RetainedHour ledger.newestTime k
  pending : ∀ w ∈ ledger.pending, ledger.newestTime < w + day ∧
    w ≤ ledger.newestTime + ek.leadSeconds ∧ w % ek.intervalSeconds = 0
  recent : ledger.recent.length ≤ recentN

/-- What the paired evidence keeps: the hours of the retention before some
time, and the windows of the day before it that wait for a partner. -/
structure Pairs.Within (pairs : Pairs) (dt newest : ℕ) : Prop where
  bucket : ∀ k ∈ pairs.buckets, RetainedHour newest k
  pending : ∀ w ∈ pairs.pending, newest < w + day ∧ w ≤ newest ∧ w % dt = 0

/-- The evidence of an epoch's models. -/
structure EpochState.Bounded (state : EpochState) (ek : EvidenceKey)
    (recentN : ℕ) : Prop where
  ledger : ∀ model m, state.models model = some m →
    m.ledger.Bounded ek recentN
  scores : ∀ model m, state.models model = some m →
    m.calibration.scores.length ≤ ek.calibration.maxScores

theorem size_le_of_retained {β : Type} {m : ExtTreeMap ℕ β} {newest : ℕ}
    (h : ∀ k ∈ m, RetainedHour newest k) : m.size ≤ 7 * 24 := by
  have hretention : ((newest : ℤ) - ledgerRetention) / hour =
      (newest : ℤ) / 3600 - 168 := by
    simp only [ledgerRetention, day, hour]
    omega
  refine KeyWindows.size_le_of_steps (newest / 3600) 168 Nat.one_pos
    (fun k hk => ?_) (fun k hk => ?_) fun k _ => Nat.mod_one k
  · have hlo := (h k hk).1
    rw [hretention] at hlo
    omega
  · have hhi := (h k hk).2
    simp only [hour] at hhi
    omega

/-- The grid of a key: the step divides the lead and the day. -/
structure EvidenceKey.OnGrid (ek : EvidenceKey) : Prop where
  interval_pos : 0 < ek.intervalSeconds
  divides_lead : ek.intervalSeconds ∣ ek.leadSeconds
  divides_day : ek.intervalSeconds ∣ day

theorem Ledger.Bounded.sizes {ledger : Ledger} {ek : EvidenceKey}
    {recentN : ℕ} (h : ledger.Bounded ek recentN) (hek : ek.OnGrid) :
    ledger.buckets.size ≤ 7 * 24 ∧
      ledger.pending.size ≤ (day + ek.leadSeconds) / ek.intervalSeconds ∧
      ledger.recent.length ≤ recentN := by
  refine ⟨size_le_of_retained h.bucket, ?_, h.recent⟩
  have hday := Nat.div_mul_cancel hek.divides_day
  have hall := Nat.div_mul_cancel (Nat.dvd_add hek.divides_day hek.divides_lead)
  refine KeyWindows.size_le_of_steps ledger.newestTime
    (day / ek.intervalSeconds) hek.interval_pos
    (fun w hw => ?_) (fun w hw => ?_) fun w hw => (h.pending w hw).2.2
  · rw [hday]
    exact (h.pending w hw).1
  · have hle := (h.pending w hw).2.1
    rw [hday, hall]
    omega

theorem Pairs.Within.sizes {pairs : Pairs} {ek : EvidenceKey} {newest : ℕ}
    (h : pairs.Within ek.intervalSeconds newest) (hek : ek.OnGrid) :
    pairs.buckets.size ≤ 7 * 24 ∧
      pairs.pending.size ≤ day / ek.intervalSeconds := by
  refine ⟨size_le_of_retained h.bucket, ?_⟩
  have hday := Nat.div_mul_cancel hek.divides_day
  refine KeyWindows.size_le_of_steps newest (day / ek.intervalSeconds)
    hek.interval_pos (fun w hw => ?_) (fun w hw => ?_)
    fun w hw => (h.pending w hw).2.2
  · rw [hday]
    exact (h.pending w hw).1
  · have hle := (h.pending w hw).2.1
    omega

section Ledgers

variable {ledger : Ledger} {ek : EvidenceKey} {recentN : ℕ}

theorem retainedHour_iff {newest k : ℕ} : RetainedHour newest k ↔
    keepsBucket newest ledgerRetention k = true ∧ k ≤ newest / hour := by
  simp only [RetainedHour, keepsBucket, decide_eq_true_eq]

theorem mem_modifyBucket {buckets : ExtTreeMap ℕ Bucket} {t k : ℕ}
    {f : Bucket → Bucket} (h : k ∈ modifyBucket buckets t f) :
    k = t / hour ∨ k ∈ buckets :=
  KeyWindows.mem_alter h

theorem Ledger.bounded_fresh (epoch : EvidenceKey) (model : Model)
    (recipe : String) (interval : ℕ) (ek : EvidenceKey) (recentN : ℕ) :
    (Ledger.fresh epoch model recipe interval).Bounded ek recentN where
  bucket _ h := absurd h ExtTreeMap.not_mem_empty
  pending _ h := absurd h ExtTreeMap.not_mem_empty
  recent := Nat.zero_le _

@[simp] theorem Ledger.newestTime_prune (ledger : Ledger)
    (now retention : ℕ) : (ledger.prune now retention).newestTime =
      max now ledger.newestTime := by
  unfold Ledger.newestTime Ledger.prune
  cases ledger.newest <;> simp

/-- After a prune the ledger holds what the newest time keeps. -/
theorem Ledger.Bounded.prune {now : ℕ}
    (hbucket : ∀ k ∈ ledger.buckets,
      k ≤ max now ledger.newestTime / hour)
    (hpending : ∀ w ∈ ledger.pending,
      w ≤ max now ledger.newestTime + ek.leadSeconds ∧
        w % ek.intervalSeconds = 0)
    (hrecent : ledger.recent.length ≤ recentN) :
    (ledger.prune now ledgerRetention).Bounded ek recentN where
  bucket k hk := by
    rw [Ledger.newestTime_prune]
    obtain ⟨hmem, hkept⟩ := KeyWindows.mem_filter.mp hk
    refine retainedHour_iff.mpr ⟨?_, hbucket k hmem⟩
    cases hnewest : ledger.newest <;>
      simpa [Ledger.newestTime, hnewest] using hkept
  pending w hw := by
    rw [Ledger.newestTime_prune]
    obtain ⟨hmem, hkept⟩ := KeyWindows.mem_filter.mp hw
    refine ⟨keepsPending_iff.mp ?_, hpending w hmem⟩
    cases hnewest : ledger.newest <;>
      simpa [Ledger.newestTime, hnewest] using hkept
  recent := hrecent

/-- The entries of a bounded ledger stay below a newer time. -/
theorem Ledger.Bounded.upTo (h : ledger.Bounded ek recentN) (now : ℕ) :
    (∀ k ∈ ledger.buckets, k ≤ max now ledger.newestTime / hour) ∧
      ∀ w ∈ ledger.pending,
        w ≤ max now ledger.newestTime + ek.leadSeconds ∧
          w % ek.intervalSeconds = 0 := by
  have hle := Nat.le_max_right now ledger.newestTime
  refine ⟨fun k hk => ?_, fun w hw => ?_⟩
  · exact (h.bucket k hk).2.trans (Nat.div_le_div_right hle)
  · obtain ⟨-, hbelow, hgrid⟩ := h.pending w hw
    exact ⟨hbelow.trans (Nat.add_le_add_right hle _), hgrid⟩

/-- An issuance is pruned by its own origin. -/
theorem Ledger.Bounded.withIssuance (h : ledger.Bounded ek recentN)
    {note : IssuanceNote}
    (hend : note.windowEnd = note.origin + ek.leadSeconds)
    (hgrid : note.windowEnd % ek.intervalSeconds = 0) :
    (ledger.withIssuance note).Bounded ek recentN := by
  unfold Ledger.withIssuance
  split
  · exact h
  obtain ⟨hbuckets, hpending⟩ := h.upTo note.origin
  have hle := Nat.le_max_left note.origin ledger.newestTime
  have hnewest : (ledger.addIssuance note).newestTime = ledger.newestTime := by
    unfold Ledger.addIssuance
    cases note.mode <;> rfl
  refine Ledger.Bounded.prune (fun k hk => ?_) (fun w hw => ?_) ?_
  · rw [hnewest]
    have hmem : k ∈ modifyBucket ledger.buckets note.origin
        (Bucket.addIssuance note) := by
      unfold Ledger.addIssuance at hk
      cases hmode : note.mode <;> rw [hmode] at hk <;> exact hk
    rcases mem_modifyBucket hmem with rfl | hold
    · exact Nat.div_le_div_right hle
    · exact hbuckets k hold
  · rw [hnewest]
    have hmem : w = note.windowEnd ∨ w ∈ ledger.pending := by
      unfold Ledger.addIssuance at hw
      cases hmode : note.mode with
      | replay =>
          rw [hmode] at hw
          exact .inr hw
      | prospective =>
          rw [hmode] at hw
          exact KeyWindows.mem_insert.mp hw
    rcases hmem with rfl | hold
    · exact ⟨hend ▸ Nat.add_le_add_right hle _, hgrid⟩
    · exact hpending w hold
  · unfold Ledger.addIssuance
    cases note.mode <;> exact h.recent

theorem lastSlice_length_le {α : Type} {n : ℕ} (hn : 0 < n) (xs : List α) :
    (lastSlice n xs).length ≤ n := by
  unfold lastSlice
  rw [if_neg hn.ne', List.length_drop]
  omega

/-- An outcome is pruned by its own window end. -/
theorem Ledger.Bounded.withOutcome (h : ledger.Bounded ek recentN)
    (r : EvidenceRecord) (leadSeconds : ℕ) {n : ℕ} (hpos : 0 < n)
    (hn : n ≤ recentN) (nominal : ℚ) :
    (ledger.withOutcome r leadSeconds n nominal).Bounded ek recentN := by
  unfold Ledger.withOutcome
  split
  · exact h
  obtain ⟨hbuckets, hpending⟩ := h.upTo r.cal.windowEnd
  have hle := Nat.le_max_left r.cal.windowEnd ledger.newestTime
  have hcounted : ∃ counted : Ledger,
      ledger.addOutcome r leadSeconds n nominal = counted ∧
        counted.newestTime = ledger.newestTime ∧
        counted.pending = ledger.pending.erase r.cal.windowEnd ∧
        (∃ f, counted.buckets =
          modifyBucket ledger.buckets r.cal.windowEnd f) ∧
        counted.recent.length ≤ recentN := by
    refine ⟨_, rfl, ?_⟩
    unfold Ledger.addOutcome
    cases r.gateBound leadSeconds with
    | none => exact ⟨rfl, rfl, ⟨_, rfl⟩, h.recent⟩
    | some bound =>
        exact ⟨rfl, rfl, ⟨_, rfl⟩, (lastSlice_length_le hpos _).trans hn⟩
  obtain ⟨counted, heq, hnewest, herased, ⟨f, hmodified⟩, hrecent⟩ := hcounted
  rw [heq]
  refine Ledger.Bounded.prune (fun k hk => ?_) (fun w hw => ?_) hrecent
  · rw [hnewest]
    rw [hmodified] at hk
    rcases mem_modifyBucket hk with rfl | hold
    · exact Nat.div_le_div_right hle
    · exact hbuckets k hold
  · rw [hnewest]
    rw [herased] at hw
    exact hpending w (KeyWindows.mem_erase.mp hw).2

end Ledgers

/-- The buffer holds no more scores than the policy keeps. -/
theorem CalibrationState.scores_applied {state : CalibrationState} {n : ℕ}
    (h : state.scores.length ≤ n) (record : CalibrationRecord)
    {policy : CalibrationPolicy} (hpolicy : policy.maxScores = n) :
    (state.applied record policy).scores.length ≤ n := by
  rcases state.applied_scores record policy with hsame | ⟨y, -, hpushed⟩
  · rwa [hsame]
  · rw [hpushed, ← hpolicy]
    exact lastSlice_length_le
      (Nat.lt_of_lt_of_le policy.minWindows_pos policy.minWindows_le) _

section Paired

variable {pairs : Pairs} {dt newest : ℕ}

theorem Pairs.within_fresh (epoch : EvidenceKey) (challenger : Model)
    (challengerRecipe baselineRecipe : String) (baseline : Model)
    (dt newest : ℕ) : (Pairs.fresh epoch challenger challengerRecipe
      baselineRecipe baseline).Within dt newest where
  bucket _ h := absurd h ExtTreeMap.not_mem_empty
  pending _ h := absurd h ExtTreeMap.not_mem_empty

/-- A record meets its partner or waits: its own window is the only new one. -/
theorem Pairs.mem_meet (pairs : Pairs) (c : CalibrationRecord) (loss : ℚ) :
    (∀ w ∈ (pairs.meet c loss).pending,
      w = c.windowEnd ∨ w ∈ pairs.pending) ∧
    ∀ k ∈ (pairs.meet c loss).buckets,
      k = c.windowEnd / hour ∨ k ∈ pairs.buckets := by
  have hwait : ∀ half w,
      w ∈ pairs.pending.insert c.windowEnd half →
        w = c.windowEnd ∨ w ∈ pairs.pending :=
    fun _ _ hw => KeyWindows.mem_insert.mp hw
  have hpaired : ∀ w, w ∈ pairs.pending.erase c.windowEnd →
      w = c.windowEnd ∨ w ∈ pairs.pending :=
    fun _ hw => .inr (KeyWindows.mem_erase.mp hw).2
  unfold Pairs.meet
  dsimp only
  split
  · exact ⟨hwait _, fun k hk => .inr hk⟩
  · split_ifs
    · exact ⟨hwait _, fun k hk => .inr hk⟩
    · exact ⟨hpaired, fun k hk => KeyWindows.mem_alter hk⟩
    · exact ⟨hpaired, fun k hk => KeyWindows.mem_alter hk⟩

/-- An hour that a record keeps is within the retention before the newest time
so far, when the record is not a day late. -/
theorem retainedHour_max {newest windowEnd k : ℕ}
    (hlate : newest < windowEnd + day)
    (hkept : keepsBucket windowEnd ledgerRetention k = true)
    (hk : k = windowEnd / hour ∨ RetainedHour newest k) :
    RetainedHour (max newest windowEnd) k := by
  have hfloor : ((windowEnd : ℤ) - ledgerRetention) / hour < k :=
    of_decide_eq_true hkept
  simp only [RetainedHour, ledgerRetention, day, hour] at hlate hfloor hk ⊢
  rcases Nat.le_total newest windowEnd with hle | hle
  · rw [Nat.max_eq_right hle]
    omega
  · rw [Nat.max_eq_left hle]
    omega

/-- A record of a window that ended no day before the newest one paired keeps
the pairs within the day and the retention. -/
theorem Pairs.Within.withRecord (h : pairs.Within dt newest)
    {r : EvidenceRecord} (hlate : newest < r.cal.windowEnd + day)
    (hgrid : r.cal.windowEnd % dt = 0) (leadSeconds : ℕ) (nominal : ℚ) :
    ∃ later ≤ max newest r.cal.windowEnd,
      (pairs.withRecord r leadSeconds nominal).Within dt later := by
  unfold Pairs.withRecord
  cases r.gateBound leadSeconds with
  | none => exact ⟨newest, Nat.le_max_left _ _, h.bucket, h.pending⟩
  | some bound =>
      dsimp only
      obtain ⟨hpending, hbuckets⟩ := Pairs.mem_meet
        { pairs with lastSeq := r.cal.seq } r.cal
        (pinballRps bound.1 bound.2 nominal)
      refine ⟨_, Nat.le_refl _, fun k hk => ?_, fun w hw => ?_⟩
      · obtain ⟨hmem, hkept⟩ := KeyWindows.mem_filter.mp hk
        exact retainedHour_max hlate hkept
          ((hbuckets k hmem).imp id (h.bucket k))
      · obtain ⟨hmem, hkept⟩ := KeyWindows.mem_filter.mp hw
        rw [keepsPending_iff] at hkept
        rcases hpending w hmem with rfl | hold
        · exact ⟨by omega, Nat.le_max_right _ _, hgrid⟩
        · obtain ⟨hafter, hbefore, hmod⟩ := h.pending w hold
          exact ⟨by omega, by omega, hmod⟩

end Paired

/-- What a request of the epoch recovers with: its own policy, and no more
recent windows than given. -/
structure RecoverContext.Serves (ctx : RecoverContext) (ek : EvidenceKey)
    (recentN : ℕ) : Prop where
  ek_eq : ctx.ek = ek
  lead_eq : ctx.policy.leadSeconds = ek.leadSeconds
  scores_eq : ctx.policy.maxScores = ek.calibration.maxScores
  recent_pos : 0 < ctx.settings.trust.acuteRecentWindows
  recent_le : ctx.settings.trust.acuteRecentWindows ≤ recentN

/-- A key of the epoch's grid: its window is one lead long and ends on the
grid. -/
structure IssuanceKey.OnGrid (key : IssuanceKey) (ek : EvidenceKey) :
    Prop where
  windowEnd_eq : key.windowEnd = key.decisionOrigin + ek.leadSeconds
  grid : key.windowEnd % ek.intervalSeconds = 0

section Fold

variable {ctx : RecoverContext} {ek : EvidenceKey} {recentN : ℕ}
  {state next : EpochState}

theorem EpochState.bounded_initial (recipes : Recipes) :
    (EpochState.initial recipes ek).Bounded ek recentN where
  ledger _ _ hm := nomatch hm
  scores _ _ hm := nomatch hm

theorem EpochState.Bounded.modelState (h : state.Bounded ek recentN)
    (ctx : RecoverContext) (model : Model) (recipe : String) :
    (state.modelState ctx model recipe).ledger.Bounded ek recentN ∧
      (state.modelState ctx model recipe).calibration.scores.length ≤
        ek.calibration.maxScores := by
  have hfresh : (freshModel ctx model recipe).ledger.Bounded ek recentN ∧
      (freshModel ctx model recipe).calibration.scores.length ≤
        ek.calibration.maxScores :=
    ⟨Ledger.bounded_fresh _ _ _ _ _ _, Nat.zero_le _⟩
  unfold EpochState.modelState
  cases hm : state.models model with
  | none => exact hfresh
  | some m =>
      dsimp only
      split
      · exact ⟨h.ledger model m hm, h.scores model m hm⟩
      · exact hfresh

theorem EpochState.Bounded.setModel (h : state.Bounded ek recentN)
    (model : Model) {m : ModelState} (hledger : m.ledger.Bounded ek recentN)
    (hscores : m.calibration.scores.length ≤ ek.calibration.maxScores) :
    (state.setModel model m).Bounded ek recentN := by
  have hupdated : ∀ model' m',
      (state.setModel model m).models model' = some m' →
        m' = m ∨ state.models model' = some m' := by
    intro model' m' hm'
    simp only [EpochState.setModel, Function.update_apply] at hm'
    split at hm'
    · exact .inl (Option.some.inj hm').symm
    · exact .inr hm'
  constructor
  · intro model' m' hm'
    rcases hupdated model' m' hm' with rfl | hold
    · exact hledger
    · exact h.ledger model' m' hold
  · intro model' m' hm'
    rcases hupdated model' m' hm' with rfl | hold
    · exact hscores
    · exact h.scores model' m' hold

/-- An issuance on the grid is folded; the pairs are not touched. -/
theorem EpochState.Bounded.foldIssuance (h : state.Bounded ek recentN)
    {iss : Issuance} (hkey : iss.key.OnGrid ek)
    (hfold : Forecasting.foldIssuance ctx state iss = .ok next) :
    next.Bounded ek recentN ∧ next.pairs = state.pairs := by
  unfold Forecasting.foldIssuance at hfold
  obtain ⟨folded, hfolded, hnext⟩ := Except.bind_eq_ok_iff.mp hfold
  have hkept : folded.Bounded ek recentN ∧ folded.pairs = state.pairs := by
    refine foldlM_keeps (P := fun state' : EpochState =>
      state'.Bounded ek recentN ∧ state'.pairs = state.pairs) ?_ ⟨h, rfl⟩
      hfolded
    rintro state' model - next' ⟨hstate', hpairs⟩ hcandidate
    unfold foldCandidate at hcandidate
    obtain ⟨c, -, hcandidate⟩ := Except.bind_eq_ok_iff.mp hcandidate
    obtain ⟨ledger, hnote, hcandidate⟩ := Except.bind_eq_ok_iff.mp hcandidate
    cases hcandidate
    obtain ⟨hledger, hscores⟩ := hstate'.modelState ctx model c.recipe
    unfold Ledger.noteIssuance at hnote
    split at hnote
    · cases hnote
      exact ⟨hstate'.setModel _
        (hledger.withIssuance hkey.windowEnd_eq hkey.grid) hscores, hpairs⟩
    · cases hnote
  cases hnext
  exact ⟨⟨hkept.1.ledger, hkept.1.scores⟩, hkept.2⟩

/-- A record is folded; the pairs take it or stay as they are. -/
theorem EpochState.Bounded.foldRecord (h : state.Bounded ek recentN)
    (hctx : ctx.Serves ek recentN) {r : EvidenceRecord}
    (hfold : Forecasting.foldRecord ctx state r = .ok next) :
    next.Bounded ek recentN ∧ (next.pairs = state.pairs ∨ ∃ lead nominal,
      next.pairs = state.pairs.withRecord r lead nominal) := by
  unfold Forecasting.foldRecord at hfold
  obtain ⟨calibration, happly, hfold⟩ := Except.bind_eq_ok_iff.mp hfold
  obtain ⟨ledger, hnote, hfold⟩ := Except.bind_eq_ok_iff.mp hfold
  obtain ⟨pairs, hpair, hfold⟩ := Except.bind_eq_ok_iff.mp hfold
  cases hfold
  obtain ⟨hledger, hscores⟩ := h.modelState ctx r.cal.model r.cal.recipe
  have hcalibration : calibration.scores.length ≤
      ek.calibration.maxScores := by
    unfold Calibration.State.apply at happly
    split at happly
    · cases happly
    split at happly
    · cases happly
    cases happly
    exact CalibrationState.scores_applied hscores r.cal hctx.scores_eq
  have hnoted : ledger.Bounded ek recentN := by
    unfold Ledger.noteOutcome at hnote
    split at hnote
    · cases hnote
      exact hledger.withOutcome r _ hctx.recent_pos hctx.recent_le _
    · cases hnote
  obtain ⟨hmodels, hlengths⟩ :=
    h.setModel r.cal.model (m := { state.modelState ctx r.cal.model
      r.cal.recipe with calibration, ledger }) hnoted hcalibration
  refine ⟨⟨hmodels, hlengths⟩, ?_⟩
  unfold Pairs.notePair at hpair
  split at hpair
  · cases hpair
    exact .inl rfl
  split at hpair
  · cases hpair
  · cases hpair
    exact .inr ⟨_, _, rfl⟩

/-- A build starts models over at most, and leaves the pairs. -/
theorem EpochState.Bounded.built {config : ServiceConfig} {ic : IssueContext}
    {call : Call} {healthy : Bool} {bundle : Bundle}
    (h : state.Bounded ek recentN)
    (hbuild : build config ic call healthy state = .ok (bundle, next)) :
    next.Bounded ek recentN ∧ next.pairs = state.pairs := by
  unfold build at hbuild
  simp only at hbuild
  split at hbuild
  · cases hbuild
  obtain ⟨built, hbuilt, hbuild⟩ := Except.bind_eq_ok_iff.mp hbuild
  obtain ⟨verdict, -, hbuild⟩ := Except.bind_eq_ok_iff.mp hbuild
  cases hbuild
  have hkept : built.state.Bounded ek recentN ∧
      built.state.pairs = state.pairs := by
    refine foldlM_keeps (P := fun b : Built => b.state.Bounded ek recentN ∧
      b.state.pairs = state.pairs) (s := { state }) ?_ ⟨h, rfl⟩ hbuilt
    rintro b p - b' ⟨hb, hpairs⟩ hcandidate
    unfold buildCandidate at hcandidate
    obtain ⟨bounded, -, hcandidate⟩ := Except.bind_eq_ok_iff.mp hcandidate
    cases hcandidate
    obtain ⟨hledger, hscores⟩ :=
      hb.modelState ic.toRecoverContext p.model p.recipe
    exact ⟨hb.setModel p.model hledger hscores, hpairs⟩
  exact ⟨⟨hkept.1.ledger, hkept.1.scores⟩, hkept.2⟩

end Fold

/-- The entries of a model's state that come and go with its windows. -/
def ModelState.entries (m : ModelState) : ℕ :=
  m.ledger.buckets.size + m.ledger.pending.size + m.ledger.recent.length +
    m.calibration.scores.length

/-- The entries of a checkpoint that come and go with the windows. -/
def EpochState.entries (state : EpochState) : ℕ :=
  ([.lstm, .statistical, .seasonalNaive].map fun model =>
    ((state.models model).map ModelState.entries).getD 0).sum +
    state.pairs.buckets.size + state.pairs.pending.size

/-- The most entries of a model's state. -/
def EvidenceKey.modelEntries (ek : EvidenceKey) (recentN : ℕ) : ℕ :=
  7 * 24 + (day + ek.leadSeconds) / ek.intervalSeconds + recentN +
    ek.calibration.maxScores

/-- An epoch's state of bounded size, whatever it has folded. -/
structure EpochState.Sized (state : EpochState) (ek : EvidenceKey)
    (recentN : ℕ) : Prop where
  bounded : state.Bounded ek recentN
  buckets : ∀ model m, state.models model = some m →
    m.ledger.buckets.size ≤ 7 * 24
  pending : ∀ model m, state.models model = some m →
    m.ledger.pending.size ≤ (day + ek.leadSeconds) / ek.intervalSeconds
  pairs : ∃ newest, state.pairs.Within ek.intervalSeconds newest
  pairBuckets : state.pairs.buckets.size ≤ 7 * 24
  pairPending : state.pairs.pending.size ≤ day / ek.intervalSeconds
  entries_le : state.entries ≤ 3 * ek.modelEntries recentN +
    7 * 24 + day / ek.intervalSeconds

theorem EpochState.Bounded.sized {state : EpochState} {ek : EvidenceKey}
    {recentN newest : ℕ} (h : state.Bounded ek recentN) (hek : ek.OnGrid)
    (hpairs : state.pairs.Within ek.intervalSeconds newest) :
    state.Sized ek recentN := by
  obtain ⟨hpairBuckets, hpairPending⟩ := hpairs.sizes hek
  have hentries : ∀ model,
      ((state.models model).map ModelState.entries).getD 0 ≤
        ek.modelEntries recentN := by
    intro model
    cases hm : state.models model with
    | none => exact Nat.zero_le _
    | some m =>
        obtain ⟨hbuckets, hpending, hrecent⟩ := (h.ledger model m hm).sizes hek
        have hscores := h.scores model m hm
        simp only [Option.map_some, Option.getD_some, ModelState.entries,
          EvidenceKey.modelEntries]
        omega
  refine ⟨h, fun model m hm => ((h.ledger model m hm).sizes hek).1,
    fun model m hm => ((h.ledger model m hm).sizes hek).2.1, ⟨_, hpairs⟩,
    hpairBuckets, hpairPending, ?_⟩
  have hlstm := hentries .lstm
  have hstatistical := hentries .statistical
  have hnaive := hentries .seasonalNaive
  simp only [EpochState.entries, List.map_cons, List.map_nil, List.sum_cons,
    List.sum_nil]
  omega

end PredictiveAutoscaler.Forecasting
