/-
A replay never looks ahead.  Up to an origin, two datasets with the same
observations received by it lead to the same bundles and outcomes, but for the
datasets' digests: the two runs mirror each other tick by tick.  Along every
run, inputs end at the settlement watermark, bounds come from outcomes of
windows that had ended, and outcomes from values received by their deadline.
-/
import PredictiveAutoscaler.Lockstep
import PredictiveAutoscaler.Evaluation.ReplayRelabel
import PredictiveAutoscaler.Evaluation.ReplaySound

namespace PredictiveAutoscaler.Evaluation

open Durable
open Forecasting (Raised)

/-- Two replays that differ in their observations and in the digest of their
dataset. -/
structure Replay.Alike (σ : String → String) (r r' : Replay) : Prop where
  injective : Function.Injective σ
  config_eq : r'.config = r.config
  policy_eq : r'.policy = r.policy
  forecaster_eq : r'.forecaster = r.forecaster
  interval_eq : r'.dataset.intervalSeconds = r.dataset.intervalSeconds
  exclusions_eq : r'.dataset.exclusions = r.dataset.exclusions
  manifest_eq : r'.dataset.manifestSha256 = σ r.dataset.manifestSha256

/-- The same journal but for the digest of its dataset. -/
def SameBut (σ : String → String) (s s' : Store) : Prop :=
  s'.toJournal = s.toJournal.relabel σ

namespace Replay.Alike

variable {σ : String → String} {r r' : Replay} (h : Replay.Alike σ r r')

include h

theorem settings_eq : r'.settings = r.settings := by
  unfold settings
  rw [h.config_eq, h.interval_eq]

theorem evidenceKey_eq : r'.evidenceKey = r.evidenceKey.relabel σ := by
  unfold evidenceKey EvidenceKey.relabel
  rw [h.settings_eq, h.manifest_eq]

theorem excluded_eq : r'.dataset.excluded = r.dataset.excluded := by
  unfold Dataset.excluded
  rw [h.exclusions_eq]

theorem targets_eq (t : ℤ) : r'.targets t = r.targets t := by
  unfold targets
  rw [h.config_eq, h.interval_eq]

theorem view_eq (received : Received) (t : ℤ) :
    r'.view received t = r.view received t := by
  unfold view
  rw [h.config_eq, h.interval_eq, h.excluded_eq]

theorem closing_eq (received : Received) (t : ℤ) (iss : Issuance) :
    r'.closing received t (iss.relabel σ) = r.closing received t iss := by
  unfold closing
  rw [h.config_eq, h.excluded_eq]
  rfl

theorem initialState_eq : r'.initialState = r.initialState.relabel σ := by
  unfold initialState
  rw [h.config_eq, h.policy_eq, h.evidenceKey_eq]
  rfl

theorem bundle_eq (view : VisibleHistory) (t : ℤ) (points : List ℚ)
    (upper : Option ℚ × Forecasting.BoundInfo) :
    r'.bundle view t points upper = (r.bundle view t points upper).relabel σ := by
  unfold bundle
  rw [h.config_eq, h.evidenceKey_eq, h.settings_eq, h.manifest_eq,
    h.targets_eq]
  rfl

omit h in
theorem make_relabel (ek : EvidenceKey) (origin start stop : ℤ)
    (settings : ReplaySettings) :
    IssuanceKey.make (ek.relabel σ) origin start stop settings =
      (IssuanceKey.make ek origin start stop settings).map
        (IssuanceKey.relabel σ) := by
  unfold IssuanceKey.make
  split <;> rfl

theorem prepare_eq (t : ℤ) (points : List (Option ℚ)) (state : ReplayState) :
    r'.prepare t points (state.relabel σ) =
      (r.prepare t points state).map fun a =>
        (a.1, a.2.1.relabel σ, a.2.2) := by
  unfold prepare
  rw [h.targets_eq, h.evidenceKey_eq, h.settings_eq, h.policy_eq,
    make_relabel]
  cases trajectory (r.targets t) points t with
  | error err => rfl
  | ok points =>
      cases IssuanceKey.make r.evidenceKey t t ((r.targets t).getLastD t)
          r.settings with
      | error err => rfl
      | ok key =>
          change (do
            let upper ← (state.calibration.upperBound r.policy
              (Forecasting.maxRps points) t).mapError Failure.raised
            return _) = Except.map _ (do
            let upper ← (state.calibration.upperBound r.policy
              (Forecasting.maxRps points) t).mapError Failure.raised
            return _)
          cases state.calibration.upperBound r.policy
            (Forecasting.maxRps points) t <;> rfl

theorem foldOutcome_eq (j : Journal) (folded : ReplayState × ℕ)
    (o : Outcome) :
    r'.foldOutcome (j.relabel σ) (folded.1.relabel σ, folded.2)
        (o.relabel σ) =
      (r.foldOutcome j folded o).map fun a => (a.1.relabel σ, a.2) := by
  have hfind := Journal.issuance?_relabel (j := j) h.injective o.issuanceId
  have hid : (o.relabel σ).issuanceId = o.issuanceId.relabel σ := rfl
  unfold foldOutcome
  rw [hid, hfind, h.policy_eq]
  cases j.issuance? o.issuanceId with
  | none => rfl
  | some iss =>
      have hfold := fold_relabel h.injective folded.1 o iss r.policy
      dsimp only [Option.map_some]
      rw [hfold]
      cases fold folded.1 o iss r.policy <;> rfl

theorem recover_eq (j : Journal) :
    r'.recover (j.relabel σ) =
      (r.recover j).map fun a => (a.1.relabel σ, a.2) := by
  have hfold : ∀ (items : List Outcome) (start : ReplayState × ℕ),
      (items.map (Outcome.relabel σ)).foldlM (r'.foldOutcome (j.relabel σ))
          (start.1.relabel σ, start.2) =
        (items.foldlM (r.foldOutcome j) start).map fun a =>
          (a.1.relabel σ, a.2) := by
    intro items
    induction items with
    | nil => exact fun _ => rfl
    | cons o rest ih =>
        intro start
        rw [List.map_cons, List.foldlM_cons, List.foldlM_cons,
          h.foldOutcome_eq]
        cases r.foldOutcome j start o with
        | error err => rfl
        | ok next => exact ih next
  unfold recover
  rw [h.evidenceKey_eq, Journal.latestCheckpoint_relabel h.injective]
  cases j.latestCheckpoint r.evidenceKey with
  | none =>
      dsimp only [Option.map_none]
      rw [Journal.outcomesAfter_relabel h.injective, h.initialState_eq]
      exact hfold _ (r.initialState, 0)
  | some cp =>
      dsimp only [Option.map_some]
      change ((j.relabel σ).outcomesAfter _ cp.lastOutcomeSeq).foldlM _
        (cp.state.relabel σ, cp.lastOutcomeSeq) = _
      rw [Journal.outcomesAfter_relabel h.injective]
      exact hfold _ (cp.state, cp.lastOutcomeSeq)

omit h in
theorem mirrors_ingest (batch : List Observation) :
    Mirrors (SameBut σ) Eq (r.ingest batch) (r'.ingest batch) := by
  intro s s' hs
  by_cases hvalid : Store.Valid batch
  · by_cases hne : batch = []
    · subst hne
      exact ⟨hs, .ok rfl⟩
    · rw [ingest_of_valid r hne hvalid, ingest_of_valid r' hne hvalid]
      refine ⟨?_, .ok rfl⟩
      change (Store.recorded _ _ batch s').toJournal =
        (Store.recorded _ _ batch s).toJournal.relabel σ
      rw [Store.recorded_toJournal, Store.recorded_toJournal]
      exact hs
  · rw [ingest_of_not_valid r hvalid, ingest_of_not_valid r' hvalid]
    exact ⟨hs, .error _⟩

omit h in
theorem mirrors_journal {α α' : Type} {Q : α → α' → Prop}
    {f : Journal → Except Raised (α × Journal)}
    {f' : Journal → Except Raised (α' × Journal)} (g : α → α')
    (hf : ∀ j, f' (j.relabel σ) =
      (f j).map fun a => (g a.1, a.2.relabel σ))
    (hg : ∀ a, Q a (g a)) :
    Mirrors (SameBut σ) Q (journal f) (journal f') := by
  refine mirrors_commit fun s s' hs => ?_
  rw [show s'.toJournal = s.toJournal.relabel σ from hs, hf]
  cases f s.toJournal with
  | error err => exact .error _
  | ok pair => exact .ok ⟨hg pair.1, rfl⟩

theorem mirrors_closeWindows (received : Received) (t : ℤ) :
    Mirrors (SameBut σ) Eq (r.closeWindows received t)
      (r'.closeWindows received t) := by
  refine mirrors_bind (Q := fun opened opened' =>
    opened' = opened.map (Issuance.relabel σ)) ?_ ?_
  · refine mirrors_read fun s s' hs => ?_
    unfold settled
    rw [show s'.toJournal = s.toJournal.relabel σ from hs, h.config_eq,
      h.evidenceKey_eq]
    exact Journal.openIssuances_relabel h.injective _ _ _
  · rintro opened _ rfl
    refine mirrors_each (List.forall₂_map_right_iff.mpr
      (List.forall₂_same.mpr fun iss _ => ?_))
    unfold closeWindow
    rw [h.closing_eq]
    cases r.closing received t iss with
    | error err => exact mirrors_liftExcept (.error _)
    | ok found =>
        cases found with
        | none => exact mirrors_pure rfl
        | some payload =>
            dsimp only
            rw [h.config_eq]
            refine mirrors_bind (Q := fun _ _ => True) ?_
              fun _ _ _ => mirrors_pure rfl
            exact mirrors_journal (fun a => (a.1.relabel σ, a.2))
              (fun j => Journal.commitOutcome_relabel h.injective _ _ _ _)
              fun _ => trivial

theorem mirrors_forecast (received : Received) (t : ℤ) (state : ReplayState) :
    Mirrors (SameBut σ) Eq (r.forecast received t state)
      (r'.forecast received t (state.relabel σ)) := by
  unfold forecast
  rw [h.view_eq, h.targets_eq, h.forecaster_eq]
  cases r.forecaster (r.view received t) t (r.targets t) with
  | none => exact mirrors_pure rfl
  | some points =>
      refine mirrors_bind (Q := Eq) ?_ fun a a' ha => mirrors_pure (ha ▸ rfl)
      unfold issue
      rw [h.prepare_eq]
      refine mirrors_bind (mirrors_liftExcept (SameEnd.map _ _)) ?_
      rintro prepared _ rfl
      refine mirrors_bind (Q := fun a a' => a'.2 = a.2) ?_
        fun a a' ha => mirrors_pure ha.symm
      rw [h.config_eq]
      refine mirrors_journal (fun a => (a.1.relabel σ, a.2)) (fun j => ?_)
        fun _ => rfl
      dsimp only
      rw [h.bundle_eq]
      exact Journal.getOrIssue_relabel h.injective _ _ _ _

theorem mirrors_tickBody (received : Received) (batch : List Observation)
    (t : ℤ) :
    Mirrors (SameBut σ)
      (fun a a' => a' = ((a.1.1.relabel σ, a.1.2), a.2))
      (r.tickBody received batch t) (r'.tickBody received batch t) := by
  unfold tickBody
  refine mirrors_bind (mirrors_ingest batch) fun _ _ _ => ?_
  refine mirrors_bind (h.mirrors_closeWindows received t) fun _ _ _ => ?_
  refine mirrors_bind (mirrors_read (Q := fun e e' =>
    SameEnd (fun a a' => a' = (a.1.relabel σ, a.2)) e e') ?_) ?_
  · intro s s' hs
    rw [show s'.toJournal = s.toJournal.relabel σ from hs, h.recover_eq]
    cases r.recover s.toJournal with
    | error err => exact .error _
    | ok recovered => exact .ok rfl
  · intro e e' he
    refine mirrors_bind (mirrors_liftExcept he) ?_
    rintro recovered _ rfl
    refine mirrors_bind (h.mirrors_forecast received t recovered.1) ?_
    rintro created _ rfl
    exact mirrors_pure rfl

theorem mirrors_complete (t : ℤ) (recovered : ReplayState × ℕ) :
    Mirrors (SameBut σ) Eq (r.complete t recovered)
      (r'.complete t (recovered.1.relabel σ, recovered.2)) := by
  unfold complete
  rw [h.evidenceKey_eq]
  exact mirrors_journal id
    (fun j => Journal.writeCheckpoint_relabel h.injective _
      { recovered.1 with replayTick := some t } _ _) fun _ => rfl

/-- A tick mirrors itself on the same batch. -/
theorem mirrors_tick (t : ℤ) {p p' : Progress}
    (hclock : p'.clockMs = p.clockMs)
    (hreceived : p'.received = p.received)
    (hbatch : p'.batch (t * 1000) = p.batch (t * 1000)) :
    Mirrors (SameBut σ)
      (fun q q' => ∃ created, q = (p.advance (t * 1000)).count created ∧
        q' = (p'.advance (t * 1000)).count created)
      (r.tick t p) (r'.tick t p') := by
  have hadvance : (p'.advance (t * 1000)).received =
      (p.advance (t * 1000)).received := by
    unfold Progress.advance
    rw [hbatch, hreceived]
  unfold tick
  rw [hclock, hadvance, hbatch]
  refine mirrors_bind (Q := Eq) (mirrors_liftExcept SameEnd.refl)
    fun _ _ _ => ?_
  refine mirrors_bind (h.mirrors_tickBody _ _ t) ?_
  rintro done _ rfl
  refine mirrors_bind (h.mirrors_complete t done.1) fun _ _ _ => ?_
  exact mirrors_pure ⟨done.2, rfl, rfl⟩

end Replay.Alike

theorem takeWhile_dropWhile_of_imp {A : Type*} {f g : A → Bool}
    (h : ∀ a, f a = true → g a = true) (xs : List A) :
    (xs.dropWhile f).takeWhile g = (xs.takeWhile g).dropWhile f := by
  induction xs with
  | nil => rfl
  | cons a rest ih =>
      cases hf : f a with
      | true =>
          rw [List.dropWhile_cons_of_pos hf, List.takeWhile_cons_of_pos (h a hf),
            List.dropWhile_cons_of_pos hf, ih]
      | false =>
          have hneg : ¬f a = true := by rw [hf]; exact Bool.false_ne_true
          rw [List.dropWhile_cons_of_neg hneg]
          cases hg : g a with
          | true =>
              rw [List.takeWhile_cons_of_pos hg,
                List.dropWhile_cons_of_neg hneg]
          | false =>
              rw [List.takeWhile_cons_of_neg (by
                rw [hg]
                exact Bool.false_ne_true)]
              rfl

theorem takeWhile_takeWhile_of_imp {A : Type*} {f g : A → Bool}
    (h : ∀ a, f a = true → g a = true) (xs : List A) :
    (xs.takeWhile g).takeWhile f = xs.takeWhile f := by
  induction xs with
  | nil => rfl
  | cons a rest ih =>
      cases hf : f a with
      | true =>
          rw [List.takeWhile_cons_of_pos (h a hf),
            List.takeWhile_cons_of_pos hf, List.takeWhile_cons_of_pos hf, ih]
      | false =>
          have hneg : ¬f a = true := by rw [hf]; exact Bool.false_ne_true
          rw [List.takeWhile_cons_of_neg hneg]
          cases hg : g a with
          | true =>
              rw [List.takeWhile_cons_of_pos hg,
                List.takeWhile_cons_of_neg hneg]
          | false =>
              rw [List.takeWhile_cons_of_neg (by
                rw [hg]
                exact Bool.false_ne_true)]
              rfl

/-- Received by an origin. -/
def receivedBy (origin : ℤ) (o : Observation) : Bool :=
  decide (o.availableAtMs ≤ origin * 1000)

theorem receivedBy_mono {t origin : ℤ} (ht : t ≤ origin) (o : Observation)
    (h : receivedBy t o = true) : receivedBy origin o = true := by
  unfold receivedBy at h ⊢
  rw [decide_eq_true_eq] at h ⊢
  omega

/-- Two loops with the same samples so far and the same arrivals up to an
origin. -/
structure SameUpTo (origin : ℤ) (p p' : Replay.Progress) : Prop where
  clock_eq : p'.clockMs = p.clockMs
  received_eq : p'.received = p.received
  arrivals_eq : p'.arrivals.takeWhile (receivedBy origin) =
    p.arrivals.takeWhile (receivedBy origin)

namespace SameUpTo

variable {origin t : ℤ} {p p' : Replay.Progress}

theorem batch_eq (h : SameUpTo origin p p') (ht : t ≤ origin) :
    p'.batch (t * 1000) = p.batch (t * 1000) := by
  have hsub : ∀ p : Replay.Progress, p.batch (t * 1000) =
      (p.arrivals.takeWhile (receivedBy origin)).takeWhile (receivedBy t) :=
    fun p => (takeWhile_takeWhile_of_imp (receivedBy_mono ht) _).symm
  rw [hsub, hsub, h.arrivals_eq]

theorem next (h : SameUpTo origin p p') (ht : t ≤ origin)
    (created : Option Bool) :
    SameUpTo origin ((p.advance (t * 1000)).count created)
      ((p'.advance (t * 1000)).count created) := by
  have hcount := (p.advance (t * 1000)).count_agrees created
  have hcount' := (p'.advance (t * 1000)).count_agrees created
  have hdrop : ∀ p : Replay.Progress,
      (p.advance (t * 1000)).arrivals.takeWhile (receivedBy origin) =
        (p.arrivals.takeWhile (receivedBy origin)).dropWhile (receivedBy t) :=
    fun p => takeWhile_dropWhile_of_imp (receivedBy_mono ht) p.arrivals
  refine ⟨?_, ?_, ?_⟩
  · rw [hcount.clock_eq, hcount'.clock_eq]
    rfl
  · rw [hcount.received_eq, hcount'.received_eq]
    unfold Replay.Progress.advance
    rw [h.batch_eq ht, h.received_eq]
  · rw [hcount.arrivals_eq, hcount'.arrivals_eq, hdrop, hdrop, h.arrivals_eq]

end SameUpTo

namespace Replay

variable {r r' : Replay} {σ : String → String} {origin : ℤ}

/-- The ticks up to an origin mirror each other. -/
theorem Alike.mirrors_ticks (h : Replay.Alike σ r r') {left : List ℤ}
    (hleft : ∀ t ∈ left, t ≤ origin) {p p' : Progress}
    (hp : SameUpTo origin p p') :
    Mirrors (SameBut σ) (fun _ _ => True) (r.ticks left p)
      (r'.ticks left p') := by
  induction left generalizing p p' with
  | nil => exact mirrors_pure trivial
  | cons t rest ih =>
      have ht := hleft t List.mem_cons_self
      refine mirrors_bind
        (h.mirrors_tick t hp.clock_eq hp.received_eq (hp.batch_eq ht)) ?_
      rintro q q' ⟨created, rfl, rfl⟩
      exact ih (fun t' ht' => hleft t' (List.mem_cons_of_mem t ht'))
        (hp.next ht created)

theorem ticks_append (first second : List ℤ) (p : Progress) :
    r.ticks (first ++ second) p =
      r.ticks first p >>= fun p => r.ticks second p := by
  induction first generalizing p with
  | nil => rfl
  | cons t rest ih =>
      change r.tick t p >>= (fun next => r.ticks (rest ++ second) next) =
        (r.tick t p >>= fun next => r.ticks rest next) >>= _
      rw [bind_assoc]
      exact congrArg _ (funext fun next => ih next)

end Replay

/-- The rows committed up to an origin. -/
def committedBy (origin : ℤ) (s : Store) : List Issuance × List Outcome :=
  (s.issuances.filter fun iss => decide (iss.committedAtMs ≤ origin * 1000),
    s.outcomes.filter fun o => decide (o.committedAtMs ≤ origin * 1000))

/-- The same rows but for the digest of the dataset. -/
theorem SameBut.committedBy_eq {σ : String → String} {s s' : Store}
    (h : SameBut σ s s') (origin : ℤ) :
    committedBy origin s' =
      ((committedBy origin s).1.map (Issuance.relabel σ),
        (committedBy origin s).2.map (Outcome.relabel σ)) := by
  unfold committedBy
  rw [show s'.toJournal = s.toJournal.relabel σ from h]
  unfold Journal.relabel
  rw [List.filter_map, List.filter_map]
  rfl

namespace Replay

variable {r : Replay} {t origin : ℤ} {p : Progress}
  {rows : List Issuance × List Outcome}

theorem filter_append_of_neg {A : Type*} {f : A → Bool} {a : A}
    (h : ¬f a = true) (xs : List A) : (xs ++ [a]).filter f = xs.filter f := by
  rw [List.filter_append, List.filter_cons_of_neg h, List.filter_nil,
    List.append_nil]

/-- A later tick leaves the rows of an origin as they are. -/
theorem keeps_committedBy (ht : origin < t) (p : Progress) :
    Keeps (fun s => committedBy origin s = rows) (r.tick t p) := by
  have hlater : ¬decide (t * 1000 ≤ origin * 1000) = true := by
    rw [decide_eq_true_eq]
    omega
  unfold tick
  refine keeps_liftExcept_bind fun _ _ => keeps_bind ?_ fun done => ?_
  · rw [tickBody_eq]
    refine keeps_bind (keeps_ingest fun s hs => ?_) fun _ =>
      keeps_bind (keeps_closeWindows ?_) fun _ => keeps_read_bind ?_
    · unfold committedBy at hs ⊢
      rw [Store.recorded_toJournal]
      exact hs
    · intro s₀ _ iss _ s payload hs _ _
      rw [← hs]
      unfold committedBy closedBy
      refine congrArg (Prod.mk _) (filter_append_of_neg ?_ s.outcomes)
      exact hlater
    · intro s hs
      refine keeps_liftExcept_bind (fun recovered _ => ?_) s hs
      refine keeps_bind (keeps_forecast ?_) fun _ => keeps_pure _
      intro s points prepared hs _ _ _
      rw [← hs]
      unfold committedBy issuance
      refine congrArg (Prod.mk · _) (filter_append_of_neg ?_ s.issuances)
      exact hlater
  · refine keeps_bind (keeps_journal fun s a j' hs hwrite => ?_)
      fun _ => keeps_pure _
    obtain ⟨hissuances, houtcomes, -⟩ := Journal.writeCheckpoint_spec hwrite
    unfold committedBy at hs ⊢
    dsimp only
    rw [hissuances, houtcomes]
    exact hs

theorem keeps_ticks_committedBy {left : List ℤ}
    (hleft : ∀ t ∈ left, origin < t) (p : Progress) :
    Keeps (fun s => committedBy origin s = rows) (r.ticks left p) := by
  induction left generalizing p with
  | nil => exact keeps_pure _
  | cons t rest ih =>
      exact keeps_bind (keeps_committedBy (hleft t List.mem_cons_self) p)
        fun next => ih (fun t' ht' => hleft t' (List.mem_cons_of_mem t ht'))
          next

end Replay

theorem lt_of_mem_dropWhile {left : List ℤ} (hleft : left.Pairwise (· < ·))
    {origin t : ℤ} (ht : t ∈ left.dropWhile fun t => decide (t ≤ origin)) :
    origin < t := by
  induction left with
  | nil => cases ht
  | cons a rest ih =>
      rw [List.pairwise_cons] at hleft
      by_cases ha : a ≤ origin
      · rw [List.dropWhile_cons_of_pos (by simpa using ha)] at ht
        exact ih hleft.2 ht
      · rw [List.dropWhile_cons_of_neg (by simpa using ha)] at ht
        rcases List.mem_cons.mp ht with rfl | ht
        · omega
        · have := hleft.1 t ht
          omega

instance : IsTrans Observation receivedBefore :=
  ⟨fun a b c hab hbc => by unfold receivedBefore at *; omega⟩

instance : Std.Total receivedBefore :=
  ⟨fun a b => by unfold receivedBefore; omega⟩

/-- The arrivals up to an origin are the observations received by it. -/
theorem Dataset.arrivals_takeWhile (d : Dataset) (origin : ℤ) :
    d.arrivals.takeWhile (receivedBy origin) =
      (d.observations.filter (receivedBy origin)).insertionSort
        receivedBefore := by
  rw [← filter_insertionSort]
  change d.arrivals.takeWhile _ = d.arrivals.filter _
  have hsorted : d.arrivals.Pairwise receivedBefore :=
    List.pairwise_insertionSort receivedBefore d.observations
  generalize d.arrivals = xs at hsorted
  induction xs with
  | nil => rfl
  | cons a rest ih =>
      rw [List.pairwise_cons] at hsorted
      cases ha : receivedBy origin a with
      | true =>
          rw [List.takeWhile_cons_of_pos ha, List.filter_cons_of_pos ha,
            ih hsorted.2]
      | false =>
          have hneg : ¬receivedBy origin a = true := by
            rw [ha]
            exact Bool.false_ne_true
          rw [List.takeWhile_cons_of_neg hneg, List.filter_cons_of_neg hneg,
            eq_comm, List.filter_eq_nil_iff]
          intro b hb hby
          have hle := hsorted.1 b hb
          unfold receivedBy at ha hby
          unfold receivedBefore at hle
          rw [decide_eq_true_eq] at hby
          rw [decide_eq_false_iff_not] at ha
          omega

namespace Replay

variable {r r' : Replay} {σ : String → String}

/-- What a run on an empty journal commits up to an origin. -/
theorem Alike.committedBy_eq (h : Replay.Alike σ r r') (origin : ℤ)
    (hobs : r'.dataset.observations.filter (receivedBy origin) =
      r.dataset.observations.filter (receivedBy origin)) :
    committedBy origin ((r'.run {}).store {}) =
      ((committedBy origin ((r.run {}).store {})).1.map (Issuance.relabel σ),
        (committedBy origin ((r.run {}).store {})).2.map
          (Outcome.relabel σ)) := by
  let stop := r.config.lastOrigin + 1
  let left := range r.config.firstOrigin stop r.dataset.intervalSeconds
  let first := left.takeWhile fun t => decide (t ≤ origin)
  let later := left.dropWhile fun t => decide (t ≤ origin)
  have hsplit : left = first ++ later :=
    (List.takeWhile_append_dropWhile).symm
  have hlater : ∀ t ∈ later, origin < t := fun t ht =>
    lt_of_mem_dropWhile (range_pairwise r.dataset.interval_pos _ _) ht
  have hfirst : ∀ t ∈ first, t ≤ origin := by
    intro t ht
    have hle := List.mem_takeWhile_imp ht
    rwa [decide_eq_true_eq] at hle
  have hrun : ∀ r : Replay, (r.run {}).store {} =
      ((r.ticks (range r.config.firstOrigin (r.config.lastOrigin + 1)
        r.dataset.intervalSeconds) r.fresh) {}).store {} := by
    intro r
    rw [run_of_resumeFrom (t := r.config.firstOrigin) rfl]
    unfold finish
    cases hend : ((r.ticks (range r.config.firstOrigin
        (r.config.lastOrigin + 1) r.dataset.intervalSeconds) r.fresh)
        {}).result with
    | error err => exact store_bind_of_result_error hend
    | ok p => exact store_bind_of_result_ok hend
  have hstart : SameUpTo origin r.fresh r'.fresh := by
    refine ⟨rfl, rfl, ?_⟩
    change r'.dataset.arrivals.takeWhile _ = r.dataset.arrivals.takeWhile _
    rw [Dataset.arrivals_takeWhile, Dataset.arrivals_takeWhile, hobs]
  have hmirror := h.mirrors_ticks hfirst hstart ({} : Store) {} rfl
  have hkept : ∀ r : Replay,
      committedBy origin ((r.ticks (first ++ later) r.fresh {}).store {}) =
        committedBy origin ((r.ticks first r.fresh {}).store {}) := by
    intro r
    rw [ticks_append]
    cases hend : (r.ticks first r.fresh {}).result with
    | error err => rw [store_bind_of_result_error hend]
    | ok p =>
        rw [store_bind_of_result_ok hend]
        exact (keeps_ticks_committedBy hlater p).store rfl
  have hleft : range r'.config.firstOrigin (r'.config.lastOrigin + 1)
      r'.dataset.intervalSeconds = left := by
    rw [h.config_eq, h.interval_eq]
  rw [hrun r', hrun r, hleft, hsplit, hkept r',
    hmirror.1.committedBy_eq origin]
  change _ = ((committedBy origin ((r.ticks left r.fresh {}).store {})).1.map _,
    (committedBy origin ((r.ticks left r.fresh {}).store {})).2.map _)
  rw [hsplit, hkept r]

end Replay

/-- The bundles and outcomes committed up to an origin, apart from what is
derived from the dataset's digest. -/
def undigested (origin : ℤ) (s : Store) : List Issuance × List Outcome :=
  ((committedBy origin s).1.map (Issuance.relabel fun _ => ""),
    (committedBy origin s).2.map (Outcome.relabel fun _ => ""))

/-- The names of two digests swapped. -/
theorem Replay.alike_swap {d d' : Dataset} (config : ReplayConfig)
    (forecaster : Forecaster) (policy : CalibrationPolicy)
    (hinterval : d'.intervalSeconds = d.intervalSeconds)
    (hexclusions : d'.exclusions = d.exclusions) :
    Replay.Alike (Equiv.swap d.manifestSha256 d'.manifestSha256)
      ⟨d, config, forecaster, policy⟩ ⟨d', config, forecaster, policy⟩ where
  injective := (Equiv.swap _ _).injective
  config_eq := rfl
  policy_eq := rfl
  forecaster_eq := rfl
  interval_eq := hinterval
  exclusions_eq := hexclusions
  manifest_eq := (Equiv.swap_apply_left _ _).symm

/-- A run once its arguments are accepted; without that it commits nothing. -/
theorem runReplay_cases (d : Dataset) (config : ReplayConfig)
    (forecaster : Forecaster) :
    (∃ policy, config.check d.intervalSeconds = .ok () ∧
      config.policy = .ok policy ∧ runReplay d config forecaster {} =
        Replay.run ⟨d, config, forecaster, policy⟩ {}) ∨
    (runReplay d config forecaster {}).store {} = {} ∧
      ∀ policy, config.check d.intervalSeconds = .ok () →
        config.policy ≠ .ok policy := by
  unfold runReplay
  cases hcheck : config.check d.intervalSeconds with
  | error err => exact .inr ⟨rfl, fun policy h => nomatch h⟩
  | ok u =>
      cases hpolicy : config.policy with
      | error err => exact .inr ⟨rfl, fun policy _ h => nomatch h⟩
      | ok policy =>
          refine .inl ⟨policy, rfl, rfl, ?_⟩
          exact (bind_of_ok (x := Durable.liftExcept (.ok u)) (a := u)
            rfl).trans (bind_of_ok (x := Durable.liftExcept (.ok policy))
              (a := policy) rfl)

/-- Two datasets that differ only in later receipts lead a replay to the same
bundles and outcomes up to an origin, apart from their digests, and the rows
that a replay commits come from what was known then. -/
theorem runReplay_neverAhead (d d' : Dataset) (config : ReplayConfig)
    (forecaster : Forecaster) (origin : ℤ)
    (hinterval : d'.intervalSeconds = d.intervalSeconds)
    (hexclusions : d'.exclusions = d.exclusions)
    (hobservations : d'.observations.filter (receivedBy origin) =
      d.observations.filter (receivedBy origin)) :
    undigested origin ((runReplay d' config forecaster {}).store {}) =
        undigested origin ((runReplay d config forecaster {}).store {}) ∧
      ∀ policy, config.policy = .ok policy →
        Replay.NeverAhead ⟨d, config, forecaster, policy⟩
          ((runReplay d config forecaster {}).store {}).toJournal := by
  rcases runReplay_cases d config forecaster with
    ⟨policy, hcheck, hpolicy, hrun⟩ | ⟨hempty, hrefused⟩
  · rcases runReplay_cases d' config forecaster with
      ⟨policy', -, hpolicy', hrun'⟩ | ⟨-, hrefused'⟩
    · rw [hpolicy] at hpolicy'
      cases hpolicy'
      have halike := Replay.alike_swap config forecaster policy hinterval
        hexclusions
      constructor
      · unfold undigested
        rw [hrun', hrun, halike.committedBy_eq origin hobservations,
          List.map_map, List.map_map]
        rfl
      · intro policy' hpolicy'
        rw [hpolicy] at hpolicy'
        cases hpolicy'
        have hsettlement : 0 ≤ config.settlementSeconds := by
          unfold ReplayConfig.check at hcheck
          split_ifs at hcheck with _ _ _ _ hneg
          simp only [not_or, not_lt] at hneg
          exact hneg.1
        rw [hrun]
        exact (store_of_wp (Replay.wp_run hsettlement)).toNeverAhead
    · rw [hinterval] at hrefused'
      exact absurd hpolicy (hrefused' policy hcheck)
  · have hempty' : (runReplay d' config forecaster {}).store {} = {} := by
      rcases runReplay_cases d' config forecaster with
        ⟨policy', hcheck', hpolicy', -⟩ | ⟨hempty', -⟩
      · rw [hinterval] at hcheck'
        exact absurd hpolicy' (hrefused policy' hcheck')
      · exact hempty'
    rw [hempty, hempty']
    exact ⟨rfl, fun policy _ => Replay.sound_empty.toNeverAhead⟩

namespace NeverAheadWitness

def early : Dataset where
  manifestSha256 := "early"
  dataSha256 := "early rows"
  intervalSeconds := 300
  exclusions := []
  observations := [⟨0, 5, 120000⟩, ⟨300, 6, 420000⟩, ⟨600, 7, 720000⟩,
    ⟨900, 8, 1020000⟩]
  interval_pos := by decide
  on_grid := by decide
  increasing := by decide
  value_nonneg := by decide
  available_ge := by decide

/-- One sample is received late and the next has another value. -/
def late : Dataset where
  manifestSha256 := "late"
  dataSha256 := "late rows"
  intervalSeconds := 300
  exclusions := []
  observations := [⟨0, 5, 120000⟩, ⟨300, 6, 420000⟩, ⟨600, 7, 1500000⟩,
    ⟨900, 2, 1020000⟩]
  interval_pos := by decide
  on_grid := by decide
  increasing := by decide
  value_nonneg := by decide
  available_ge := by decide

def config : ReplayConfig :=
  { firstOrigin := 300, lastOrigin := 1200, leadSeconds := 300
    miscoverageBps := 900, etaBps := 40, minWindows := 100, maxScores := 500 }

def policy : CalibrationPolicy :=
  ⟨300, 900, 40, 100, 2500, 100, 500, 604800, by decide, by decide,
    by decide, by decide, by decide⟩

/-- The last visible value again. -/
def last : Forecaster := fun view _ targets =>
  view.samples.getLast?.map fun o => targets.map fun _ => some o.valueRps

end NeverAheadWitness

open NeverAheadWitness in
theorem runReplay_neverAhead_late :
    undigested 600 ((runReplay late config last {}).store {}) =
        undigested 600 ((runReplay early config last {}).store {}) ∧
      undigested 600 ((runReplay early config last {}).store {}) ≠ ([], []) ∧
      Replay.NeverAhead ⟨early, config, last, policy⟩
        ((runReplay early config last {}).store {}).toJournal := by
  have hahead := runReplay_neverAhead early late config last 600 rfl rfl
    (by decide)
  exact ⟨hahead.1, by decide +kernel, hahead.2 policy rfl⟩

end PredictiveAutoscaler.Evaluation
