/-
Recording the same samples again: what a second read of a series leaves in the
journal, after any other use of it.
-/
import PredictiveAutoscaler.Evaluation.ReplayResume

namespace PredictiveAutoscaler.Evaluation

open Forecasting (Raised)

namespace Store

variable {series source : String} {s : Store} {o : Observation}
  {batch : List Observation}

/-- A sample whose event time has another first receipt. -/
def Differs (series : String) (s : Store) (o : Observation) : Prop :=
  ∃ kept, s.observations series o.eventTime = some kept ∧
    kept.value ≠ o.valueRps

instance (series : String) (s : Store) (o : Observation) :
    Decidable (s.Differs series o) :=
  match hkept : s.observations series o.eventTime with
  | none =>
      isFalse (by
        rintro ⟨kept, hsome, -⟩
        rw [hkept] at hsome
        cases hsome)
  | some kept =>
      decidable_of_iff (kept.value ≠ o.valueRps)
        ⟨fun h => ⟨kept, hkept, h⟩, by
          rintro ⟨kept', hsome, h⟩
          rw [hkept] at hsome
          cases hsome
          exact h⟩

theorem recordObservation_corrections :
    (recordObservation series source s o).corrections =
      if s.Differs series o then
        s.corrections ++
          [⟨series, o.eventTime, o.valueRps, o.availableAtMs, source⟩]
      else s.corrections := by
  cases hkept : s.observations series o.eventTime with
  | none =>
      have hdiffers : ¬s.Differs series o := by
        rintro ⟨kept, hsome, -⟩
        rw [hkept] at hsome
        cases hsome
      rw [if_neg hdiffers, recordObservation, hkept]
  | some kept =>
      by_cases hvalue : kept.value = o.valueRps
      · have hdiffers : ¬s.Differs series o := by
          rintro ⟨kept', hsome, hne⟩
          rw [hkept] at hsome
          cases hsome
          exact hne hvalue
        rw [if_neg hdiffers, recordObservation_of_holds ⟨kept, hkept, hvalue⟩]
      · have hdiffers : s.Differs series o := ⟨kept, hkept, hvalue⟩
        rw [if_pos hdiffers, recordObservation, hkept]
        dsimp only
        rw [if_neg hvalue]

/-- A first receipt stays. -/
theorem recorded_keeps {series' : String} {t : ℤ} {kept : Observed}
    (h : s.observations series' t = some kept) :
    (recorded series source batch s).observations series' t = some kept := by
  unfold recorded
  induction batch generalizing s with
  | nil => exact h
  | cons o rest ih =>
      refine ih ?_
      rw [recordObservation_observations]
      cases hfirst : s.observations series o.eventTime with
      | some _ => exact h
      | none =>
          by_cases hseries : series' = series
          · subst hseries
            have htime : t ≠ o.eventTime := by
              rintro rfl
              rw [hfirst] at h
              cases h
            simpa [Function.update_of_ne htime] using h
          · simpa [Function.update_of_ne hseries] using h

theorem length_corrections_le :
    s.corrections.length ≤
      (recorded series source batch s).corrections.length := by
  unfold recorded
  induction batch generalizing s with
  | nil => exact le_rfl
  | cons o rest ih =>
      refine le_trans ?_ ih
      rw [recordObservation_corrections]
      split_ifs <;> simp

theorem holds_of_not_differs (hreceived :
    (s.observations series o.eventTime).isSome) (h : ¬s.Differs series o) :
    s.Holds series o := by
  obtain ⟨kept, hkept⟩ := Option.isSome_iff_exists.mp hreceived
  exact ⟨kept, hkept, by_contra fun hvalue => h ⟨kept, hkept, hvalue⟩⟩

/-- A batch changes nothing exactly when every sample repeats a first
receipt. -/
theorem recorded_eq_self_iff :
    recorded series source batch s = s ↔ ∀ o ∈ batch, s.Holds series o := by
  refine ⟨fun hsame => ?_, recorded_of_holds⟩
  induction batch with
  | nil => exact fun o ho => nomatch ho
  | cons o rest ih =>
      have hholds : s.Holds series o := by
        refine holds_of_not_differs ?_ fun hdiffers => ?_
        · by_contra hnone
          rw [Option.not_isSome_iff_eq_none] at hnone
          have hadded : (recordObservation series source s o).observations
              series o.eventTime =
                some ⟨o.valueRps, o.availableAtMs, source⟩ := by
            rw [recordObservation_observations, hnone]
            simp
          have hkept : (recorded series source rest
              (recordObservation series source s o)).observations series
                o.eventTime = some ⟨o.valueRps, o.availableAtMs, source⟩ :=
            recorded_keeps hadded
          change (recorded series source (o :: rest) s).observations series
            o.eventTime = _ at hkept
          rw [hsame, hnone] at hkept
          cases hkept
        · have hle : (recordObservation series source s o).corrections.length ≤
              (recorded series source rest
                (recordObservation series source s o)).corrections.length :=
            length_corrections_le
          change _ ≤ (recorded series source (o :: rest) s).corrections.length
            at hle
          rw [hsame, recordObservation_corrections, if_pos hdiffers,
            List.length_append, List.length_singleton] at hle
          omega
      have hfirst : recordObservation series source s o = s :=
        recordObservation_of_holds hholds
      have hrest : recorded series source rest s = s := by
        have hcons : recorded series source (o :: rest) s =
            recorded series source rest
              (recordObservation series source s o) := rfl
        rwa [hcons, hfirst] at hsame
      intro a ha
      rcases List.mem_cons.mp ha with rfl | ha
      · exact hholds
      · exact ih hrest a ha

/-- A batch of received event times adds a correction for every sample that
differs, however often it was recorded before. -/
theorem length_corrections_recorded (hreceived : ∀ o ∈ batch,
    (s.observations series o.eventTime).isSome) :
    (recorded series source batch s).corrections.length =
      s.corrections.length + batch.countP fun o => s.Differs series o := by
  unfold recorded
  induction batch generalizing s with
  | nil => rfl
  | cons o rest ih =>
      have hobservations : (recordObservation series source s o).observations =
          s.observations := by
        obtain ⟨kept, hkept⟩ :=
          Option.isSome_iff_exists.mp (hreceived o List.mem_cons_self)
        rw [recordObservation_observations, hkept]
      have hdiffers : ∀ a, (recordObservation series source s o).Differs
          series a ↔ s.Differs series a := fun a => by
        unfold Differs
        rw [hobservations]
      rw [List.foldl_cons, ih fun a ha => by
        rw [hobservations]
        exact hreceived a (List.mem_cons_of_mem o ha)]
      simp only [hdiffers]
      rw [recordObservation_corrections]
      by_cases h : s.Differs series o
      · rw [if_pos h, List.length_append, List.length_singleton,
          List.countP_cons, if_pos (decide_eq_true h)]
        omega
      · rw [if_neg h, List.countP_cons, if_neg (by simpa using h)]
        rfl

end Store

/-- The journal file with its retention horizon. -/
structure JournalFile where
  store : Store
  horizon : ℤ
  retentionSeconds : ℤ
  observationExtra : ℤ

/-- What a service does with its journal.  `kept` and `written` are what other
calls leave in the tables of issuances, outcomes and checkpoints. -/
inductive JournalOp
  | recordObservations (series source : String) (samples : List Observation)
  | compact (now : ℤ) (kept : Journal)
  | write (written : Journal)

namespace JournalFile

variable (f : JournalFile)

/-- Observations before it are past their retention. -/
def cutoff : ℤ := f.horizon - f.observationExtra

/-- A refused call leaves the file as it is. -/
def recordObservations (series source : String)
    (samples : List Observation) : JournalFile :=
  match f.store.recordObservations series source samples with
  | .error _ => f
  | .ok (_, store) => { f with store }

/-- `compact`: the horizon only moves forward, and observations before the
cutoff are removed; corrections stay. -/
def compact (now : ℤ) (kept : Journal) : JournalFile :=
  let horizon := now - f.retentionSeconds
  if horizon ≤ f.horizon then f
  else
    { f with
      horizon
      store :=
        { f.store with
          toJournal := kept
          observations := fun series t =>
            if t < horizon - f.observationExtra then none
            else f.store.observations series t } }

def step : JournalOp → JournalFile
  | .recordObservations series source samples =>
      f.recordObservations series source samples
  | .compact now kept => f.compact now kept
  | .write written => { f with store := { f.store with toJournal := written } }

def run (ops : List JournalOp) : JournalFile := ops.foldl step f

/-- The first receipt that the file holds of an event time. -/
def firstReceipt (series : String) (t : ℤ) : Option Observed :=
  f.store.observations series t

variable {f}

theorem recordObservations_of_valid {series source : String}
    {samples : List Observation} (h : Store.Valid samples) :
    f.recordObservations series source samples =
      { f with store := f.store.recorded series source samples } := by
  unfold recordObservations
  rw [Store.recordObservations_of_valid h]

theorem recordObservations_of_not_valid {series source : String}
    {samples : List Observation} (h : ¬Store.Valid samples) :
    f.recordObservations series source samples = f := by
  unfold recordObservations
  rw [Store.recordObservations_of_not_valid h]

/-- A step keeps every first receipt that it does not retire. -/
theorem step_keeps {op : JournalOp} {series : String} {t : ℤ}
    {kept : Observed} (h : f.firstReceipt series t = some kept)
    (ht : (f.step op).cutoff ≤ t) :
    (f.step op).firstReceipt series t = some kept ∧
      f.cutoff ≤ (f.step op).cutoff := by
  cases op with
  | recordObservations series' source samples =>
      simp only [step] at ht ⊢
      by_cases hvalid : Store.Valid samples
      · rw [recordObservations_of_valid hvalid]
        exact ⟨Store.recorded_keeps h, le_rfl⟩
      · rw [recordObservations_of_not_valid hvalid]
        exact ⟨h, le_rfl⟩
  | compact now rest =>
      simp only [step, compact] at ht ⊢
      split_ifs at ht ⊢ with hforward
      · exact ⟨h, le_rfl⟩
      · have hafter : now - f.retentionSeconds - f.observationExtra ≤ t := ht
        refine ⟨(if_neg (not_lt.mpr hafter)).trans h, ?_⟩
        unfold cutoff
        dsimp only
        omega
  | write written => exact ⟨h, le_rfl⟩

theorem cutoff_le_step (op : JournalOp) : f.cutoff ≤ (f.step op).cutoff := by
  cases op with
  | recordObservations series source samples =>
      simp only [step]
      by_cases hvalid : Store.Valid samples
      · rw [recordObservations_of_valid hvalid]
        exact le_rfl
      · rw [recordObservations_of_not_valid hvalid]
  | compact now rest =>
      simp only [step, compact]
      split_ifs with hforward
      · exact le_rfl
      · unfold cutoff
        dsimp only
        omega
  | write written => exact le_rfl

theorem cutoff_le_run (ops : List JournalOp) :
    f.cutoff ≤ (f.run ops).cutoff := by
  unfold run
  induction ops generalizing f with
  | nil => exact le_rfl
  | cons op rest ih => exact (cutoff_le_step op).trans ih

/-- A first receipt is kept along every run until the retention passes it. -/
theorem run_keeps {ops : List JournalOp} {series : String} {t : ℤ}
    {kept : Observed} (h : f.firstReceipt series t = some kept)
    (ht : (f.run ops).cutoff ≤ t) :
    (f.run ops).firstReceipt series t = some kept := by
  unfold run at ht ⊢
  induction ops generalizing f with
  | nil => exact h
  | cons op rest ih =>
      have hstep : (f.step op).cutoff ≤ t :=
        (cutoff_le_run rest).trans ht
      exact ih (step_keeps h hstep).1 ht

/-- Recording samples changes nothing exactly when they are refused or each
repeats a first receipt. -/
theorem recordObservations_eq_self_iff {series source : String}
    {samples : List Observation} :
    f.recordObservations series source samples = f ↔
      (Store.Valid samples → ∀ o ∈ samples, f.store.Holds series o) := by
  by_cases hvalid : Store.Valid samples
  · rw [recordObservations_of_valid hvalid, forall_prop_of_true hvalid]
    constructor
    · intro hsame
      exact Store.recorded_eq_self_iff.mp (congrArg JournalFile.store hsame)
    · intro hholds
      rw [Store.recorded_of_holds hholds]
  · rw [recordObservations_of_not_valid hvalid]
    exact iff_of_true rfl fun h => absurd h hvalid

/-- Recording the samples of an earlier call again changes nothing exactly when
each of them repeats the first receipt that the journal then holds.  First
receipts stay until the retention passes them, and every sample that differs
from one adds another correction. -/
theorem second_call_unchanged_iff (f : JournalFile)
    (series source source' : String) (samples : List Observation)
    (between : List JournalOp) :
    let before := (f.recordObservations series source samples).run between
    let after := before.recordObservations series source' samples
    (after = before ↔
      (Store.Valid samples → ∀ o ∈ samples, before.store.Holds series o)) ∧
    (∀ series' t kept, f.firstReceipt series' t = some kept →
      before.cutoff ≤ t → after.firstReceipt series' t = some kept) ∧
    (Store.Valid samples →
      (∀ o ∈ samples, (before.firstReceipt series o.eventTime).isSome) →
      after.store.corrections.length = before.store.corrections.length +
        samples.countP fun o => before.store.Differs series o) := by
  intro before after
  refine ⟨recordObservations_eq_self_iff, ?_, ?_⟩
  · intro series' t kept hkept hcutoff
    have hbefore : before.firstReceipt series' t = some kept :=
      @run_keeps f (.recordObservations series source samples :: between) _ _ _
        hkept hcutoff
    by_cases hvalid : Store.Valid samples
    · simp only [after, recordObservations_of_valid hvalid]
      exact Store.recorded_keeps hbefore
    · simp only [after, recordObservations_of_not_valid hvalid]
      exact hbefore
  · intro hvalid hreceived
    simp only [after, recordObservations_of_valid hvalid]
    exact Store.length_corrections_recorded hreceived

end JournalFile

namespace RepeatedReadsWitness

/-- A journal that first received the value 1 at 300 s. -/
def file : JournalFile :=
  JournalFile.recordObservations ⟨{}, 0, 604800, 1814400⟩ "signal" "first"
    [⟨300, 1, 1000⟩]

/-- A history in which that value is now 2. -/
def reread : List Observation := [⟨300, 2, 2000⟩]

/-- The second read of the corrected history adds its correction again. -/
theorem corrected_sample_added_again :
    let once := file.recordObservations "signal" "second" reread
    let twice := once.recordObservations "signal" "second" reread
    once.store.corrections.length = 1 ∧ twice.store.corrections.length = 2 ∧
      twice ≠ once := by
  have honce : (file.recordObservations "signal" "second"
      reread).store.corrections.length = 1 := by decide +kernel
  have htwice : ((file.recordObservations "signal" "second"
      reread).recordObservations "signal" "second"
        reread).store.corrections.length = 2 := by decide +kernel
  refine ⟨honce, htwice, fun hsame => ?_⟩
  have hlength := congrArg (fun f => f.store.corrections.length) hsame
  simp only [honce, htwice] at hlength
  omega

end RepeatedReadsWitness

end PredictiveAutoscaler.Evaluation
