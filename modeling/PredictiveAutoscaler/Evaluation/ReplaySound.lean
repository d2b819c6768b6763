/-
What a replay's rows come from, along every run.  Inputs end at the settlement
watermark; a bound is that of the outcomes committed before it, all of windows
that had ended; an outcome is scored on values received by its deadline.
-/
import PredictiveAutoscaler.Evaluation.ReplayResume

namespace PredictiveAutoscaler.Evaluation

open Durable
open Forecasting (Raised)

theorem Received.at?_eq_some {received : Received} {t : ℤ} {o : Observation}
    (h : received.at? t = some o) : o ∈ received ∧ o.eventTime = t := by
  have hfound := List.find?_some h
  exact ⟨List.mem_of_find?_eq_some h, of_decide_eq_true hfound⟩

theorem Received.by_eq_some {received : Received} {cutoff t : ℤ}
    {o : Observation} (h : received.by cutoff t = some o) :
    o ∈ received ∧ o.eventTime = t ∧ o.availableAtMs ≤ cutoff := by
  unfold Received.by at h
  rw [Option.filter_eq_some_iff] at h
  obtain ⟨hmem, htime⟩ := Received.at?_eq_some h.1
  exact ⟨hmem, htime, of_decide_eq_true h.2⟩

theorem mem_setDefault {received : Received} {a o : Observation}
    (h : o ∈ received.setDefault a) : o ∈ received ∨ o = a := by
  unfold Received.setDefault at h
  split at h
  · exact .inl h
  · rcases List.mem_append.mp h with h | h
    · exact .inl h
    · exact .inr (List.mem_singleton.mp h)

theorem mem_foldl_setDefault {batch : List Observation} {received : Received}
    {o : Observation} (h : o ∈ batch.foldl Received.setDefault received) :
    o ∈ received ∨ o ∈ batch := by
  induction batch generalizing received with
  | nil => exact .inl h
  | cons a rest ih =>
      rcases ih h with hmem | hmem
      · rcases mem_setDefault hmem with hmem | rfl
        · exact .inl hmem
        · exact .inr List.mem_cons_self
      · exact .inr (List.mem_cons_of_mem a hmem)

/-- The values of targets that were all received by a cutoff. -/
theorem forall₂_filterMap_by {received : Received} {cutoff : ℤ}
    {targets : List ℤ}
    (h : ∀ t ∈ targets, (received.by cutoff t).isNone = false) :
    List.Forall₂ (fun t v => ∃ x ∈ received, x.eventTime = t ∧
      x.valueRps = v ∧ x.availableAtMs ≤ cutoff) targets
      ((targets.filterMap (received.by cutoff)).map Observation.valueRps) := by
  induction targets with
  | nil => exact .nil
  | cons t rest ih =>
      have hsome := h t List.mem_cons_self
      cases hby : received.by cutoff t with
      | none => rw [hby] at hsome; cases hsome
      | some x =>
          rw [List.filterMap_cons_some hby, List.map_cons]
          obtain ⟨hmem, htime, hle⟩ := Received.by_eq_some hby
          exact .cons ⟨x, hmem, htime, rfl, hle⟩
            (ih fun t' ht' => h t' (List.mem_cons_of_mem t ht'))

/-- A scored window has one value for each target, received by the fixed
deadline. -/
theorem windowOutcome_scored {targets : List ℤ} {base : ℚ} {upper : Option ℚ}
    {received : Received} {nowMs settlement grace : ℤ}
    {excluded : ℤ → Option String} {p : ScoredPayload}
    (h : windowOutcome targets base upper received nowMs settlement grace
      excluded = .ok (some (.scored p))) :
    List.Forall₂ (fun t v => ∃ x ∈ received, x.eventTime = t ∧
      x.valueRps = v ∧ x.availableAtMs ≤
        truthDeadlineMs (targets.getLastD 0) settlement grace)
      p.targets p.values := by
  unfold windowOutcome at h
  cases hcheck : checkWindow targets with
  | error err => rw [hcheck] at h; cases h
  | ok u =>
      rw [hcheck] at h
      change (if nowMs < (targets.getLastD 0 + settlement) * 1000 then _
        else _) = _ at h
      split at h
      · cases h
      split at h
      · cases h
      have hcutoff := min_le_right nowMs
        (truthDeadlineMs (targets.getLastD 0) settlement grace)
      dsimp only at h
      generalize min nowMs (truthDeadlineMs (targets.getLastD 0) settlement
        grace) = cutoff at h hcutoff
      cases hmissing : targets.filter fun t =>
          (received.by cutoff t).isNone with
      | cons first rest =>
          rw [hmissing] at h
          dsimp only at h
          split at h <;> cases h
      | nil =>
          rw [hmissing] at h
          cases h
          rw [List.filter_eq_nil_iff] at hmissing
          refine (forall₂_filterMap_by fun t ht =>
            Bool.eq_false_iff.mpr (hmissing t ht)).imp ?_
          rintro t v ⟨x, hx, htime, hvalue, hle⟩
          exact ⟨x, hx, htime, hvalue, hle.trans hcutoff⟩

/-- A window that closes has a last target. -/
theorem getLastD_of_windowOutcome {targets : List ℤ} {base : ℚ}
    {upper : Option ℚ} {received : Received} {nowMs settlement grace : ℤ}
    {excluded : ℤ → Option String} {closed : Option OutcomePayload}
    (h : windowOutcome targets base upper received nowMs settlement grace
      excluded = .ok closed) (t : ℤ) :
    targets.getLastD 0 = targets.getLastD t := by
  cases targets with
  | nil => cases h
  | cons a rest => rw [List.getLastD_cons, List.getLastD_cons]

theorem count_calibration (state : ReplayState) (payload : OutcomePayload) :
    (state.count payload).calibration = state.calibration := by
  cases payload with
  | missingTruth => rfl
  | excluded => rfl
  | scored p =>
      unfold ReplayState.count
      dsimp only
      cases p.covered with
      | none => rfl
      | some c => cases c <;> rfl

namespace Replay

variable {r : Replay} {j : Journal}

theorem foldOutcome_eq_ok {a a' : ReplayState × ℕ} {o : Outcome} :
    r.foldOutcome j a o = .ok a' ↔
      ∃ iss record calibration, j.issuance? o.issuanceId = some iss ∧
        CalibrationRecord.fromJournal iss o = .ok record ∧
        a.1.calibration.apply record r.policy = .ok calibration ∧
        a' = ({ a.1 with
          calibration
          lastWindowEnd := some o.windowEnd }.count o.payload, o.seq) := by
  unfold foldOutcome fold
  cases j.issuance? o.issuanceId with
  | none =>
      constructor
      · intro h
        cases h
      · rintro ⟨_, _, _, h, -⟩
        cases h
  | some iss =>
      simp only [Forecasting.Except.bind_eq_ok_iff]
      constructor
      · rintro ⟨state, ⟨record, hrecord, calibration, hcal, hstate⟩, h⟩
        cases hstate
        cases h
        exact ⟨iss, record, calibration, rfl, hrecord, hcal, rfl⟩
      · rintro ⟨_, record, calibration, hiss, hrecord, hcal, rfl⟩
        cases hiss
        exact ⟨_, ⟨record, hrecord, calibration, hcal, rfl⟩, rfl⟩

/-- Only the calibration of a state decides what a fold makes of its
calibration. -/
theorem foldOutcome_calibration {a b a' : ReplayState × ℕ} {o : Outcome}
    (hsame : a.1.calibration = b.1.calibration)
    (h : r.foldOutcome j a o = .ok a') :
    ∃ b', r.foldOutcome j b o = .ok b' ∧ a'.2 = b'.2 ∧
      a'.1.calibration = b'.1.calibration := by
  obtain ⟨iss, record, calibration, hiss, hrecord, hcal, rfl⟩ :=
    foldOutcome_eq_ok.mp h
  rw [hsame] at hcal
  refine ⟨_, foldOutcome_eq_ok.mpr
    ⟨iss, record, calibration, hiss, hrecord, hcal, rfl⟩, rfl, ?_⟩
  rw [count_calibration, count_calibration]

theorem foldlM_calibration {items : List Outcome} {a b a' : ReplayState × ℕ}
    (hseq : a.2 = b.2) (hsame : a.1.calibration = b.1.calibration)
    (h : items.foldlM (r.foldOutcome j) a = .ok a') :
    ∃ b', items.foldlM (r.foldOutcome j) b = .ok b' ∧ a'.2 = b'.2 ∧
      a'.1.calibration = b'.1.calibration := by
  induction items generalizing a b with
  | nil =>
      cases h
      exact ⟨b, rfl, hseq, hsame⟩
  | cons o rest ih =>
      rw [List.foldlM_cons] at h
      cases hstep : r.foldOutcome j a o with
      | error err => rw [hstep] at h; cases h
      | ok next =>
          rw [hstep] at h
          obtain ⟨next', hnext', hseq', hsame'⟩ :=
            foldOutcome_calibration hsame hstep
          obtain ⟨b', hb', hrest⟩ := ih hseq' hsame' h
          refine ⟨b', ?_, hrest⟩
          rw [List.foldlM_cons, hnext']
          exact hb'

/-- A fold ends at the number of its last outcome. -/
theorem foldlM_seq {items : List Outcome} {a a' : ReplayState × ℕ}
    (h : items.foldlM (r.foldOutcome j) a = .ok a') :
    a'.2 = (items.getLast?.map Rows.Outcome.seq).getD a.2 := by
  induction items generalizing a with
  | nil =>
      cases h
      rfl
  | cons o rest ih =>
      rw [List.foldlM_cons] at h
      cases hstep : r.foldOutcome j a o with
      | error err => rw [hstep] at h; cases h
      | ok next =>
          rw [hstep] at h
          obtain ⟨_, _, _, -, -, -, rfl⟩ := foldOutcome_eq_ok.mp hstep
          rw [ih h, List.getLast?_cons]
          cases rest.getLast? <;> rfl

/-- All outcomes folded in from the start of the epoch. -/
def foldAll (r : Replay) (j : Journal) (outcomes : List Outcome) :
    Except Raised (ReplayState × ℕ) :=
  outcomes.foldlM (r.foldOutcome j) (r.initialState, 0)

/-- The outcomes of a journal are the replay's, numbered from one. -/
def Numbered (r : Replay) (outcomes : List Outcome) : Prop :=
  ∀ i o, outcomes[i]? = some o → o.seq = i + 1 ∧ o.evidenceKey = r.evidenceKey

theorem filter_numbered {outcomes : List Outcome} {k : ℕ}
    (h : ∀ i o, outcomes[i]? = some o →
      o.seq = k + i + 1 ∧ o.evidenceKey = r.evidenceKey) (n : ℕ) :
    (outcomes.filter fun o => decide (o.evidenceKey = r.evidenceKey ∧
      n < o.seq)) = outcomes.drop (n - k) := by
  induction outcomes generalizing k with
  | nil => rw [List.filter_nil, List.drop_nil]
  | cons o rest ih =>
      have ho := h 0 o rfl
      have hrest := ih (k := k + 1) fun i a ha => by
        have hnext := h (i + 1) a ha
        refine ⟨?_, hnext.2⟩
        have := hnext.1
        omega
      by_cases hn : n < k + 1
      · rw [List.filter_cons_of_pos (by simp [ho.2, ho.1]; omega), hrest,
          Nat.sub_eq_zero_of_le (by omega), Nat.sub_eq_zero_of_le (by omega)]
        rfl
      · rw [List.filter_cons_of_neg (by simp [ho.2, ho.1]; omega), hrest]
        have hsub : n - k = n - (k + 1) + 1 := by omega
        rw [hsub, List.drop_succ_cons]

theorem Numbered.outcomesAfter_eq (h : r.Numbered j.outcomes) (n : ℕ) :
    j.outcomesAfter r.evidenceKey n = j.outcomes.drop n :=
  filter_numbered (k := 0) (fun i o ho => by
    have hnumbered := h i o ho
    exact ⟨by omega, hnumbered.2⟩) n

/-- The bound of a bundle is that of outcomes committed before it, of windows
that had ended by its origin. -/
def BoundFromEnded (r : Replay) (j : Journal) (iss : Issuance) : Prop :=
  ∃ outcomes state last, outcomes <+: j.outcomes ∧
    (∀ o ∈ outcomes, o.windowEnd ≤ iss.key.decisionOrigin) ∧
    r.foldAll j outcomes = .ok (state, last) ∧
    state.calibration.upperBound r.policy iss.bundle.baseWindowMaxRps
      iss.key.decisionOrigin =
      .ok (iss.bundle.upperWindowMaxRps, iss.bundle.calibration)

/-- The values of a scored outcome are observations received by the fixed
truth deadline of its window. -/
def InTime (r : Replay) (o : Outcome) : Prop :=
  ∀ p, o.payload = .scored p →
    List.Forall₂ (fun t v => ∃ x ∈ r.dataset.observations,
      x.eventTime = t ∧ x.valueRps = v ∧
        x.availableAtMs ≤ truthDeadlineMs o.windowEnd
          r.config.settlementSeconds r.config.outcomeGraceSeconds)
      p.targets p.values

/-- Every row of a journal comes from what was known when it was committed. -/
structure NeverAhead (r : Replay) (j : Journal) : Prop where
  input_le : ∀ iss ∈ j.issuances, ∀ inputEnd, iss.bundle.inputEnd =
    some inputEnd → inputEnd ≤ watermark iss.key.decisionOrigin
      r.dataset.intervalSeconds r.config.settlementSeconds
  bound : ∀ iss ∈ j.issuances, r.BoundFromEnded j iss
  in_time : ∀ o ∈ j.outcomes, r.InTime o

/-- A journal of a replay between any two of its commits. -/
structure Sound (r : Replay) (j : Journal) : Prop extends r.NeverAhead j where
  targets_eq : ∀ iss ∈ j.issuances,
    iss.bundle.targetTimestamps = r.targets iss.key.decisionOrigin ∧
      iss.key.windowEnd = (r.targets iss.key.decisionOrigin).getLastD
        iss.key.decisionOrigin
  numbered : r.Numbered j.outcomes
  checkpoint : ∀ cp, j.latestCheckpoint r.evidenceKey = some cp →
    cp.lastOutcomeSeq ≤ j.outcomes.length ∧
      ∃ state, r.foldAll j (j.outcomes.take cp.lastOutcomeSeq) =
        .ok (state, cp.lastOutcomeSeq) ∧
        state.calibration = cp.state.calibration

/-- The number of the last outcome after the first `n`. -/
theorem Numbered.last_seq {outcomes : List Outcome} (h : r.Numbered outcomes)
    {n : ℕ} (hn : n ≤ outcomes.length) :
    ((outcomes.drop n).getLast?.map Rows.Outcome.seq).getD n = outcomes.length := by
  rcases hn.eq_or_lt with rfl | hlt
  · rw [List.drop_length]
    rfl
  · have hne : outcomes ≠ [] := List.ne_nil_of_length_pos (by omega)
    have hlast := List.getLast?_eq_some_getLast hne
    have hseq := h (outcomes.length - 1) _
      (List.getLast?_eq_getElem?.symm.trans hlast)
    rw [List.getLast?_drop, if_neg (by omega), hlast, Option.map_some,
      Option.getD_some]
    omega

/-- What is recovered is the fold of all outcomes, but for its counters. -/
theorem Sound.recover_spec (h : r.Sound j) {recovered : ReplayState × ℕ}
    (hrecover : r.recover j = .ok recovered) :
    recovered.2 = j.outcomes.length ∧
      ∃ state, r.foldAll j j.outcomes = .ok (state, recovered.2) ∧
        state.calibration = recovered.1.calibration := by
  unfold recover at hrecover
  cases hcp : j.latestCheckpoint r.evidenceKey with
  | none =>
      rw [hcp] at hrecover
      dsimp only at hrecover
      rw [h.numbered.outcomesAfter_eq] at hrecover
      have hseq := foldlM_seq hrecover
      rw [h.numbered.last_seq (Nat.zero_le _)] at hseq
      rw [List.drop_zero] at hrecover
      exact ⟨hseq, recovered.1, hrecover, rfl⟩
  | some cp =>
      rw [hcp] at hrecover
      dsimp only at hrecover
      rw [h.numbered.outcomesAfter_eq] at hrecover
      obtain ⟨hle, state, hstate, hcal⟩ := h.checkpoint cp hcp
      have hseq := foldlM_seq hrecover
      rw [h.numbered.last_seq hle] at hseq
      obtain ⟨folded, hfolded, hsame, hcalibration⟩ :=
        foldlM_calibration (a := (cp.state, cp.lastOutcomeSeq))
          (b := (state, cp.lastOutcomeSeq)) rfl hcal.symm hrecover
      refine ⟨hseq, folded.1, ?_, hcalibration.symm⟩
      unfold foldAll at hstate ⊢
      rw [← List.take_append_drop cp.lastOutcomeSeq j.outcomes,
        List.foldlM_append, hstate]
      rw [hsame]
      exact hfolded

/-- A fold does not read outcomes of the journal. -/
theorem foldAll_issuances {j' : Journal} (h : j'.issuances = j.issuances)
    (outcomes : List Outcome) : r.foldAll j' outcomes = r.foldAll j outcomes := by
  unfold foldAll
  refine congrArg (fun f => outcomes.foldlM f (r.initialState, 0)) ?_
  funext a o
  unfold foldOutcome Journal.issuance?
  rw [h]

theorem foldAll_append {outcomes : List Outcome} {folded : ReplayState × ℕ}
    (iss : Issuance) (h : r.foldAll j outcomes = .ok folded) :
    r.foldAll { j with issuances := j.issuances ++ [iss] } outcomes =
      .ok folded := by
  unfold foldAll at h ⊢
  refine foldlM_ok_mono ?_ h
  intro folded o _ next hnext
  unfold foldOutcome at hnext ⊢
  rw [Journal.issuance?_append]
  cases hfind : j.issuance? o.issuanceId with
  | none => rw [hfind] at hnext; cases hnext
  | some found =>
      rw [hfind] at hnext
      exact hnext

/-- An outcome that closes an issued window of the replay. -/
theorem Sound.append_outcome (h : r.Sound j) {received : Received}
    (hreceived : received ⊆ r.dataset.observations) {t : ℤ} {iss : Issuance}
    (hiss : iss ∈ j.issuances) (hkey : iss.key.evidenceKey = r.evidenceKey)
    {payload : OutcomePayload}
    (hclosing : r.closing received t iss = .ok (some payload)) {o : Outcome}
    (ho : o = ⟨j.outcomes.length + 1, iss.key, iss.key.evidenceKey,
      iss.key.windowEnd, r.config.modelFamily, payload, t * 1000⟩) :
    r.Sound { j with outcomes := j.outcomes ++ [o] } := by
  have hfold : ∀ outcomes, r.foldAll
      { j with outcomes := j.outcomes ++ [o] } outcomes =
        r.foldAll j outcomes := foldAll_issuances rfl
  refine ⟨⟨h.input_le, ?_, ?_⟩, h.targets_eq, ?_, ?_⟩
  · intro iss' hiss'
    obtain ⟨outcomes, state, last, hprefix, hended, hstate, hbound⟩ :=
      h.bound iss' hiss'
    exact ⟨outcomes, state, last,
      hprefix.trans (List.prefix_append _ _), hended,
      (hfold outcomes).trans hstate, hbound⟩
  · intro o' ho'
    rcases List.mem_append.mp ho' with ho' | ho'
    · exact h.in_time o' ho'
    · rw [List.mem_singleton.mp ho', ho]
      intro p hp
      dsimp only at hp
      subst hp
      unfold closing issuedOutcome at hclosing
      split at hclosing
      · cases hclosing
      obtain ⟨htargets, hend⟩ := h.targets_eq iss hiss
      have hlast : iss.bundle.targetTimestamps.getLastD 0 =
          iss.key.windowEnd := by
        rw [hend, ← htargets]
        exact getLastD_of_windowOutcome hclosing _
      refine (windowOutcome_scored hclosing).imp ?_
      rintro t v ⟨x, hx, htime, hvalue, hle⟩
      rw [hlast] at hle
      exact ⟨x, hreceived hx, htime, hvalue, hle⟩
  · intro i o' ho'
    rcases Nat.lt_trichotomy i j.outcomes.length with hi | rfl | hi
    · rw [List.getElem?_append_left hi] at ho'
      exact h.numbered i o' ho'
    · rw [List.getElem?_append_right (Nat.le_refl _), Nat.sub_self] at ho'
      cases ho'
      rw [ho]
      exact ⟨rfl, hkey⟩
    · rw [List.getElem?_eq_none (by simp; omega)] at ho'
      cases ho'
  · intro cp hcp
    obtain ⟨hle, state, hstate, hcal⟩ := h.checkpoint cp hcp
    refine ⟨?_, state, ?_, hcal⟩
    · dsimp only
      rw [List.length_append]
      omega
    · rw [hfold]
      dsimp only
      rw [List.take_append_of_le_length hle]
      exact hstate

theorem BoundFromEnded.append {iss : Issuance} (h : r.BoundFromEnded j iss)
    (iss' : Issuance) :
    r.BoundFromEnded { j with issuances := j.issuances ++ [iss'] } iss := by
  obtain ⟨outcomes, state, last, hprefix, hended, hstate, hbound⟩ := h
  exact ⟨outcomes, state, last, hprefix, hended, foldAll_append iss' hstate,
    hbound⟩

theorem latest_view_le (received : Received) (t : ℤ) {latest : ℤ}
    (h : (r.view received t).latest = some latest) :
    latest ≤ watermark t r.dataset.intervalSeconds
      r.config.settlementSeconds := by
  unfold VisibleHistory.latest at h
  have hmem := List.max?_mem h
  obtain ⟨o, ho, rfl⟩ := List.mem_map.mp hmem
  unfold view VisibleHistory.ofReceived at ho
  rw [List.mem_insertionSort, List.mem_filter] at ho
  simp only [Bool.and_eq_true, decide_eq_true_eq] at ho
  exact ho.2.1.2

/-- The issuance of an origin after all closed windows ended. -/
theorem Sound.append_issuance {s : Store} (h : r.Sound s.toJournal)
    {received : Received} {t : ℤ} {recovered : ReplayState × ℕ}
    (hrecover : r.recover s.toJournal = .ok recovered)
    (hended : ∀ o ∈ s.outcomes, o.windowEnd ≤ t)
    {points : List (Option ℚ)}
    {prepared : List ℚ × IssuanceKey × (Option ℚ × Forecasting.BoundInfo)}
    (hprepared : r.prepare t points recovered.1 = .ok prepared) :
    r.Sound { s.toJournal with
      issuances := s.issuances ++ [r.issuance received t s prepared] } := by
  obtain ⟨-, hmake, hupper⟩ := prepare_eq_ok hprepared
  obtain ⟨-, horigin, hend, -⟩ := IssuanceKey.make_eq_ok hmake
  refine ⟨⟨?_, ?_, h.in_time⟩, ?_, h.numbered, ?_⟩
  · intro iss hiss inputEnd hinput
    rcases List.mem_append.mp hiss with hiss | hiss
    · exact h.input_le iss hiss inputEnd hinput
    · rw [List.mem_singleton.mp hiss] at hinput ⊢
      change _ ≤ watermark prepared.2.1.decisionOrigin _ _
      rw [horigin]
      exact latest_view_le received t hinput
  · intro iss hiss
    rcases List.mem_append.mp hiss with hiss | hiss
    · exact (h.bound iss hiss).append _
    · rw [List.mem_singleton.mp hiss]
      obtain ⟨-, state, hstate, hcal⟩ := h.recover_spec hrecover
      refine ⟨s.outcomes, state, recovered.2, List.prefix_refl _, ?_,
        foldAll_append _ hstate, ?_⟩
      · intro o ho
        change _ ≤ prepared.2.1.decisionOrigin
        rw [horigin]
        exact hended o ho
      · rw [hcal]
        change recovered.1.calibration.upperBound r.policy
          (Forecasting.maxRps prepared.1) prepared.2.1.decisionOrigin = _
        rw [horigin]
        exact hupper
  · intro iss hiss
    rcases List.mem_append.mp hiss with hiss | hiss
    · exact h.targets_eq iss hiss
    · rw [List.mem_singleton.mp hiss]
      change r.targets t = r.targets prepared.2.1.decisionOrigin ∧
        prepared.2.1.windowEnd = (r.targets prepared.2.1.decisionOrigin).getLastD
          prepared.2.1.decisionOrigin
      rw [horigin, hend]
      exact ⟨rfl, rfl⟩
  · intro cp hcp
    obtain ⟨hle, state, hstate, hcal⟩ := h.checkpoint cp hcp
    exact ⟨hle, state, foldAll_append _ hstate, hcal⟩

/-- The checkpoint of what was recovered. -/
theorem Sound.write_checkpoint (h : r.Sound j)
    {recovered : ReplayState × ℕ} (hrecover : r.recover j = .ok recovered)
    {j' : Journal} {t : ℤ} {u : Unit}
    (hwrite : j.writeCheckpoint r.evidenceKey
      { recovered.1 with replayTick := some t } recovered.2 (t * 1000) =
        .ok (u, j')) : r.Sound j' := by
  obtain ⟨hissuances, houtcomes, cp, hcp, hstate, hlast⟩ :=
    Journal.writeCheckpoint_spec hwrite
  have hfold := foldAll_issuances (r := r) hissuances
  obtain ⟨hall, state, hfolded, hcal⟩ := h.recover_spec hrecover
  refine ⟨⟨?_, ?_, ?_⟩, ?_, ?_, ?_⟩
  · rw [hissuances]
    exact h.input_le
  · rw [hissuances]
    intro iss hiss
    obtain ⟨outcomes, state, last, hprefix, hended, hstate, hbound⟩ :=
      h.bound iss hiss
    rw [← houtcomes] at hprefix
    exact ⟨outcomes, state, last, hprefix, hended,
      (hfold outcomes).trans hstate, hbound⟩
  · rw [houtcomes]
    exact h.in_time
  · rw [hissuances]
    exact h.targets_eq
  · rw [houtcomes]
    exact h.numbered
  · intro cp' hcp'
    rw [hcp] at hcp'
    cases hcp'
    rw [hlast, houtcomes, hfold, hall, List.take_length, hstate, ← hall]
    exact ⟨Nat.le_refl _, state, hfolded, hcal⟩

theorem range_pairwise {step : ℤ} (hstep : 0 < step) (start stop : ℤ) :
    (range start stop step).Pairwise (· < ·) := by
  unfold range
  rw [List.pairwise_map]
  refine List.pairwise_lt_range.imp fun {i j} hij => ?_
  have hmul : (i : ℤ) * step < (j : ℤ) * step :=
    mul_lt_mul_of_pos_right (by exact_mod_cast hij) hstep
  omega

variable {t : ℤ} {p : Progress} {s : Store}

/-- A sound journal all of whose closed windows ended by a tick. -/
def SoundBy (r : Replay) (t : ℤ) (s : Store) : Prop :=
  r.Sound s.toJournal ∧ ∀ o ∈ s.outcomes, o.windowEnd ≤ t

section

variable (hsettlement : 0 ≤ r.config.settlementSeconds)

include hsettlement

theorem keeps_closeWindows_soundBy {received : Received}
    (hreceived : received ⊆ r.dataset.observations) :
    Keeps (r.SoundBy t) (r.closeWindows received t) := by
  refine keeps_closeWindows_of_issued ?_
  rintro s₀ - iss hiss s payload ⟨hsound, hended⟩ hissued - hclosing
  obtain ⟨hmem, hopen, -⟩ := mem_settled.mp hiss
  rw [← hissued] at hmem
  obtain ⟨hkey, hle, -⟩ := Rows.isOpen_iff.mp hopen
  refine ⟨hsound.append_outcome hreceived hmem hkey hclosing rfl, ?_⟩
  intro o ho
  rcases List.mem_append.mp ho with ho | ho
  · exact hended o ho
  · rw [List.mem_singleton.mp ho]
    have hended : iss.key.windowEnd ≤ t - r.config.settlementSeconds := hle
    change iss.key.windowEnd ≤ t
    omega

theorem wp_tickBody
    {received : Received} (hreceived : received ⊆ r.dataset.observations)
    (batch : List Observation) (hs : r.SoundBy t s) :
    wp (r.SoundBy t) (fun _ => r.SoundBy t) (r.tickBody received batch t)
      (fun done s => r.SoundBy t s ∧ r.recover s.toJournal = .ok done.1) s := by
  have hingest : Keeps (r.SoundBy t) (r.ingest batch) := by
    refine keeps_ingest fun s hs => ?_
    unfold SoundBy at hs ⊢
    rw [Store.recorded_toJournal]
    exact hs
  have hclose := keeps_closeWindows_soundBy (t := t) hsettlement hreceived
  unfold tickBody
  refine wp_bind.mpr (wp_mono (hingest s hs) (fun _ h => h) (fun _ _ h => h)
    fun _ s₁ hs₁ => ?_)
  refine wp_bind.mpr (wp_mono (hclose s₁ hs₁) (fun _ h => h) (fun _ _ h => h)
    fun _ s₂ hs₂ => ?_)
  refine wp_bind.mpr (wp_read.mpr (wp_bind.mpr (wp_liftExcept.mpr ?_)))
  cases hrecover : r.recover s₂.toJournal with
  | error err => exact hs₂
  | ok recovered =>
      have hforecast : Keeps (fun s => r.SoundBy t s ∧
          r.recover s.toJournal = .ok recovered)
          (r.forecast received t recovered.1) := by
        refine keeps_forecast fun s points prepared hs _ hprepared _ => ?_
        exact ⟨⟨hs.1.1.append_issuance hs.2 hs.1.2 hprepared, hs.1.2⟩,
          recover_append _ hs.2⟩
      refine wp_bind.mpr (wp_mono (hforecast s₂ ⟨hs₂, hrecover⟩)
        (fun _ h => h.1) (fun _ _ h => h.1) fun created s₃ hs₃ => ?_)
      exact wp_pure.mpr hs₃

/-- A tick keeps a sound journal, and its checkpoint is of what the journal
holds. -/
theorem wp_tick (hreceived : (p.advance (t * 1000)).received ⊆
      r.dataset.observations) (hs : r.SoundBy t s) :
    wp (r.SoundBy t) (fun _ => r.SoundBy t) (r.tick t p)
      (fun q s => r.SoundBy t s ∧
        ∃ created, q = (p.advance (t * 1000)).count created) s := by
  unfold tick
  refine wp_bind.mpr (wp_liftExcept.mpr ?_)
  cases setClock p.clockMs (t * 1000) with
  | error err => exact hs
  | ok u =>
      refine wp_bind.mpr (wp_mono (wp_tickBody hsettlement hreceived _ hs)
        (fun _ h => h) (fun _ _ h => h) ?_)
      rintro done s₁ ⟨hs₁, hrecover⟩
      unfold complete Replay.journal
      refine wp_bind.mpr (wp_commit.mpr ?_)
      dsimp only
      cases hwrite : s₁.writeCheckpoint r.evidenceKey
          { done.1.1 with replayTick := some t } done.1.2 (t * 1000) with
      | error err => exact hs₁
      | ok pair =>
          have hnext : r.SoundBy t { s₁ with toJournal := pair.2 } := by
            refine ⟨hs₁.1.write_checkpoint hrecover hwrite, ?_⟩
            have houtcomes := (Journal.writeCheckpoint_spec hwrite).2.1
            dsimp only
            rw [houtcomes]
            exact hs₁.2
          exact ⟨hnext, wp_pure.mpr ⟨hnext, done.2, rfl⟩⟩

omit hsettlement in
/-- The samples taken so far and those left are the dataset's. -/
theorem Progress.advance_subset {observations : List Observation}
    (hreceived : p.received ⊆ observations) (harrivals : p.arrivals ⊆ observations)
    (nowMs : ℤ) : (p.advance nowMs).received ⊆ observations ∧
      (p.advance nowMs).arrivals ⊆ observations := by
  constructor
  · intro o ho
    rcases mem_foldl_setDefault ho with hmem | hmem
    · exact hreceived hmem
    · exact harrivals (List.takeWhile_subset _ hmem)
  · intro o ho
    exact harrivals (List.dropWhile_subset _ ho)

/-- Every journal of a loop over increasing ticks is sound. -/
theorem wp_ticks {left : List ℤ} (hleft : left.Pairwise (· < ·))
    (hreceived : p.received ⊆ r.dataset.observations)
    (harrivals : p.arrivals ⊆ r.dataset.observations)
    (hsound : r.Sound s.toJournal)
    (hended : ∀ t ∈ left, ∀ o ∈ s.outcomes, o.windowEnd ≤ t) :
    wp (fun s => r.Sound s.toJournal) (fun _ s => r.Sound s.toJournal)
      (r.ticks left p) (fun _ s => r.Sound s.toJournal) s := by
  induction left generalizing p s with
  | nil => exact wp_pure.mpr hsound
  | cons t rest ih =>
      rw [List.pairwise_cons] at hleft
      have hadvance :=
        Progress.advance_subset hreceived harrivals (t * 1000)
      have hs : r.SoundBy t s := ⟨hsound, hended t List.mem_cons_self⟩
      refine wp_bind.mpr (wp_mono (wp_tick hsettlement hadvance.1 hs)
        (fun _ h => h.1) (fun _ _ h => h.1) ?_)
      rintro q s₁ ⟨hs₁, created, rfl⟩
      have hcount := (p.advance (t * 1000)).count_agrees created
      refine ih hleft.2 ?_ ?_ hs₁.1 ?_
      · rw [hcount.received_eq]
        exact hadvance.1
      · rw [hcount.arrivals_eq]
        exact hadvance.2
      · intro t' ht' o ho
        exact (hs₁.2 o ho).trans (hleft.1 t' ht').le

omit hsettlement in
theorem sound_empty : r.Sound ({} : Store).toJournal where
  input_le := fun _ hiss => nomatch hiss
  bound := fun _ hiss => nomatch hiss
  in_time := fun _ ho => nomatch ho
  targets_eq := fun _ hiss => nomatch hiss
  numbered := fun _ _ ho => nomatch ho
  checkpoint := fun _ hcp => nomatch hcp

/-- Every journal that a run commits is sound. -/
theorem wp_run :
    wp (fun s => r.Sound s.toJournal) (fun _ s => r.Sound s.toJournal) r.run
      (fun _ s => r.Sound s.toJournal) {} := by
  have hticks := wp_ticks hsettlement (p := r.fresh) (s := {})
    (range_pairwise r.dataset.interval_pos r.config.firstOrigin
      (r.config.lastOrigin + 1)) (fun o ho => nomatch ho)
    (fun o ho => (List.mem_insertionSort _).mp ho) r.sound_empty
    (fun t _ o ho => nomatch ho)
  have hfinish : wp (fun s => r.Sound s.toJournal)
      (fun _ s => r.Sound s.toJournal)
      (r.finish (range r.config.firstOrigin (r.config.lastOrigin + 1)
        r.dataset.intervalSeconds) r.fresh)
      (fun _ s => r.Sound s.toJournal) {} := by
    refine wp_bind.mpr (wp_mono hticks (fun _ h => h) (fun _ _ h => h)
      fun _ _ h => ?_)
    rw [wp_read]
    exact h
  unfold wp at hfinish ⊢
  rw [run_of_resumeFrom (t := r.config.firstOrigin) rfl]
  exact hfinish

end

end Replay

end PredictiveAutoscaler.Evaluation
