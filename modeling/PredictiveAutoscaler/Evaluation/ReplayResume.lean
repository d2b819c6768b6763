/-
An interrupted replay ends as an uninterrupted one.  Every step of a tick finds
itself done when the tick runs again, so a tick resumes from each of its
commits; a run that starts over takes the earlier arrivals once more, which
changes nothing because a dataset has one observation for each event time.
-/
import PredictiveAutoscaler.Resumption
import PredictiveAutoscaler.Evaluation.Replay

namespace PredictiveAutoscaler.Evaluation

open Durable
open Forecasting (Raised)

section Sorting

variable {A : Type*} {rel : A → A → Prop} [DecidableRel rel] [IsTrans A rel]

/-- Leaving elements out of a sorted list leaves an insertion out or in its
place. -/
theorem filter_orderedInsert (p : A → Bool) (a : A) {xs : List A}
    (hsorted : xs.Pairwise rel) :
    (xs.orderedInsert rel a).filter p =
      if p a then (xs.filter p).orderedInsert rel a else xs.filter p := by
  induction xs with
  | nil => cases hp : p a <;> simp [hp]
  | cons b rest ih =>
      rw [List.pairwise_cons] at hsorted
      by_cases hab : rel a b
      · rw [List.orderedInsert_cons_of_le _ _ hab]
        cases hp : p a with
        | false => rw [List.filter_cons_of_neg (by simp [hp])]; rfl
        | true =>
            rw [List.filter_cons_of_pos hp, if_pos rfl]
            have hall : ∀ c ∈ (b :: rest).filter p, rel a c := by
              intro c hc
              rcases List.mem_cons.mp (List.mem_of_mem_filter hc) with
                rfl | hc
              · exact hab
              · exact Trans.trans hab (hsorted.1 c hc)
            cases hlist : (b :: rest).filter p with
            | nil => rfl
            | cons c more =>
                rw [List.orderedInsert_cons_of_le _ _
                  (hall c (by rw [hlist]; exact List.mem_cons_self))]
      · rw [List.orderedInsert_of_not_le _ _ hab]
        cases hb : p b with
        | false =>
            rw [List.filter_cons_of_neg (by simp [hb]),
              List.filter_cons_of_neg (by simp [hb]), ih hsorted.2]
        | true =>
            rw [List.filter_cons_of_pos hb, List.filter_cons_of_pos hb,
              ih hsorted.2]
            cases hp : p a with
            | false => rfl
            | true =>
                rw [if_pos rfl, if_pos rfl,
                  List.orderedInsert_of_not_le _ _ hab]

theorem filter_insertionSort [Std.Total rel] (p : A → Bool) (xs : List A) :
    (xs.insertionSort rel).filter p = (xs.filter p).insertionSort rel := by
  induction xs with
  | nil => rfl
  | cons a rest ih =>
      rw [List.insertionSort_cons,
        filter_orderedInsert p a (List.pairwise_insertionSort rel rest), ih]
      cases hp : p a with
      | false => rw [List.filter_cons_of_neg (by simp [hp])]; rfl
      | true => rw [List.filter_cons_of_pos hp]; rfl

end Sorting

namespace Store

variable {series source : String} {samples : List Observation} {s : Store}
  {o o' : Observation}

/-- The sample was received, with its own value. -/
def Holds (series : String) (o : Observation) (s : Store) : Prop :=
  ∃ kept, s.observations series o.eventTime = some kept ∧
    kept.value = o.valueRps

/-- What was received of the samples has their values. -/
def Consistent (series : String) (samples : List Observation)
    (s : Store) : Prop :=
  ∀ o ∈ samples, ∀ kept, s.observations series o.eventTime = some kept →
    kept.value = o.valueRps

theorem recordObservation_of_holds (h : s.Holds series o) :
    recordObservation series source s o = s := by
  obtain ⟨kept, hkept, hvalue⟩ := h
  unfold recordObservation
  rw [hkept]
  exact if_pos hvalue

@[simp] theorem recordObservation_toJournal :
    (recordObservation series source s o).toJournal = s.toJournal := by
  unfold recordObservation
  split
  · rfl
  · split <;> rfl

/-- A sample whose time was received leaves the first receipts as they are. -/
theorem recordObservation_observations :
    (recordObservation series source s o).observations =
      match s.observations series o.eventTime with
      | none => Function.update s.observations series
          (Function.update (s.observations series) o.eventTime
            (some ⟨o.valueRps, o.availableAtMs, source⟩))
      | some _ => s.observations := by
  unfold recordObservation
  cases s.observations series o.eventTime with
  | none => rfl
  | some kept =>
      dsimp only
      split <;> rfl

theorem holds_recordObservation_self (hs : s.Consistent series samples)
    (ho : o ∈ samples) :
    (recordObservation series source s o).Holds series o := by
  unfold Holds
  rw [recordObservation_observations]
  cases hkept : s.observations series o.eventTime with
  | none => exact ⟨⟨o.valueRps, o.availableAtMs, source⟩, by simp, rfl⟩
  | some kept => exact ⟨kept, hkept, hs o ho kept hkept⟩

theorem Holds.recordObservation (h : s.Holds series o) :
    (recordObservation series source s o').Holds series o := by
  obtain ⟨kept, hkept, hvalue⟩ := h
  refine ⟨kept, ?_, hvalue⟩
  rw [recordObservation_observations]
  cases hfirst : s.observations series o'.eventTime with
  | some _ => exact hkept
  | none =>
      have hne : o.eventTime ≠ o'.eventTime := by
        intro heq
        rw [heq, hfirst] at hkept
        cases hkept
      simpa [Function.update_of_ne hne] using hkept

theorem Consistent.recordObservation (hs : s.Consistent series samples)
    (hunique : ∀ a ∈ samples, ∀ b ∈ samples,
      a.eventTime = b.eventTime → a = b) (ho : o ∈ samples) :
    (recordObservation series source s o).Consistent series samples := by
  intro a ha kept hkept
  rw [recordObservation_observations] at hkept
  cases hfirst : s.observations series o.eventTime with
  | some _ =>
      rw [hfirst] at hkept
      exact hs a ha kept hkept
  | none =>
      rw [hfirst] at hkept
      simp only [Function.update_self] at hkept
      by_cases htime : a.eventTime = o.eventTime
      · have heq := hunique a ha o ho htime
        subst heq
        rw [Function.update_self, Option.some.injEq] at hkept
        rw [← hkept]
      · rw [Function.update_of_ne htime] at hkept
        exact hs a ha kept hkept

/-- The store once a batch is recorded. -/
def recorded (series source : String) (batch : List Observation) (s : Store) :
    Store :=
  batch.foldl (recordObservation series source) s

variable {batch old : List Observation}

@[simp] theorem recorded_toJournal :
    (recorded series source batch s).toJournal = s.toJournal := by
  unfold recorded
  induction batch generalizing s with
  | nil => rfl
  | cons o rest ih => rw [List.foldl_cons, ih, recordObservation_toJournal]

theorem recorded_append :
    recorded series source (old ++ batch) s =
      recorded series source batch (recorded series source old s) :=
  List.foldl_append

theorem Holds.recorded (h : s.Holds series o) :
    (recorded series source batch s).Holds series o := by
  unfold Store.recorded
  induction batch generalizing s with
  | nil => exact h
  | cons o' rest ih => exact ih h.recordObservation

/-- A batch that was received before changes nothing. -/
theorem recorded_of_holds (h : ∀ o ∈ batch, s.Holds series o) :
    recorded series source batch s = s := by
  unfold recorded
  induction batch with
  | nil => rfl
  | cons o rest ih =>
      rw [List.foldl_cons,
        recordObservation_of_holds (h o List.mem_cons_self)]
      exact ih fun a ha => h a (List.mem_cons_of_mem o ha)

section

variable (hunique : ∀ a ∈ samples, ∀ b ∈ samples,
    a.eventTime = b.eventTime → a = b)

include hunique

theorem Consistent.recorded (hs : s.Consistent series samples)
    (hbatch : batch ⊆ samples) :
    (recorded series source batch s).Consistent series samples := by
  unfold Store.recorded
  induction batch generalizing s with
  | nil => exact hs
  | cons o rest ih =>
      rw [List.cons_subset] at hbatch
      exact ih (hs.recordObservation hunique hbatch.1) hbatch.2

theorem recorded_holds (hs : s.Consistent series samples)
    (hbatch : batch ⊆ samples) :
    ∀ o ∈ batch, (recorded series source batch s).Holds series o := by
  induction batch generalizing s with
  | nil => exact fun o ho => nomatch ho
  | cons a rest ih =>
      rw [List.cons_subset] at hbatch
      have hnext : (recordObservation series source s a).Consistent series
          samples := hs.recordObservation hunique hbatch.1
      intro o ho
      rcases List.mem_cons.mp ho with rfl | ho
      · exact (holds_recordObservation_self hs hbatch.1).recorded
      · exact ih hnext hbatch.2 o ho

end

/-- Every receipt time of a batch is an epoch time. -/
def Valid (batch : List Observation) : Prop :=
  ∀ o ∈ batch, 0 ≤ o.valueRps ∧ 0 ≤ o.availableAtMs

theorem recordObservations_of_valid (h : Valid batch) :
    s.recordObservations series source batch =
      .ok ((), recorded series source batch s) := by
  unfold recordObservations
  refine if_neg ?_
  rintro ⟨o, ho, hneg⟩
  have hvalid := h o ho
  rcases hneg with hneg | hneg
  · exact absurd hvalid.1 (not_le.mpr hneg)
  · exact absurd hvalid.2 (not_le.mpr hneg)

theorem recordObservations_of_not_valid (h : ¬Valid batch) :
    s.recordObservations series source batch =
      .error (.storeError "invalid observation") := by
  unfold recordObservations
  refine if_pos ?_
  by_contra hnone
  refine h fun o ho => ⟨?_, ?_⟩
  · by_contra hneg
    exact hnone ⟨o, ho, .inl (not_le.mp hneg)⟩
  · by_contra hneg
    exact hnone ⟨o, ho, .inr (not_le.mp hneg)⟩

end Store

namespace Replay

variable {r : Replay} {α γ : Type} {s : Store} {batch : List Observation}

section Ingest

theorem ingest_of_valid (r : Replay) (hne : batch ≠ [])
    (h : Store.Valid batch) (s : Store) :
    r.ingest batch s =
      ⟨[s.recorded r.series r.dataset.dataSha256 batch], .ok ()⟩ := by
  unfold ingest
  rw [if_neg hne]
  unfold commit
  dsimp only
  rw [Store.recordObservations_of_valid h]

theorem ingest_of_not_valid (r : Replay) (h : ¬Store.Valid batch)
    (s : Store) :
    r.ingest batch s =
      ⟨[], .error (.raised (.storeError "invalid observation"))⟩ := by
  have hne : batch ≠ [] := by
    rintro rfl
    exact h fun o ho => nomatch ho
  unfold ingest
  rw [if_neg hne]
  unfold commit
  dsimp only
  rw [Store.recordObservations_of_not_valid h]

/-- An accepted batch is valid, and recorded when it is not empty. -/
theorem ingest_of_ok {u : Unit} (h : (r.ingest batch s).result = .ok u) :
    Store.Valid batch ∧ (r.ingest batch s).store s =
      s.recorded r.series r.dataset.dataSha256 batch := by
  by_cases hvalid : Store.Valid batch
  · refine ⟨hvalid, ?_⟩
    by_cases hne : batch = []
    · subst hne
      rfl
    · rw [ingest_of_valid r hne hvalid]
      rfl
  · rw [ingest_of_not_valid r hvalid] at h
    cases h

theorem keeps_ingest {P : Store → Prop}
    (h : ∀ s, P s → P (s.recorded r.series r.dataset.dataSha256 batch)) :
    Keeps P (r.ingest batch) := by
  unfold ingest
  split
  · exact keeps_pure _
  · refine keeps_commit fun s a s' hs hstep => ?_
    by_cases hvalid : Store.Valid batch
    · rw [Store.recordObservations_of_valid hvalid] at hstep
      cases hstep
      exact h s hs
    · rw [Store.recordObservations_of_not_valid hvalid] at hstep
      cases hstep

/-- A batch that was received before is settled. -/
theorem ingest_settled (hvalid : Store.Valid batch)
    (h : ∀ o ∈ batch, s.Holds r.series o) : Settled (r.ingest batch) () s := by
  by_cases hne : batch = []
  · subst hne
    exact settled_pure () s
  · constructor
    · rw [ingest_of_valid r hne hvalid]
    · intro s' hs'
      rw [ingest_of_valid r hne hvalid, List.mem_singleton] at hs'
      rw [hs', Store.recorded_of_holds h]

/-- Samples that were received before may come with the batch. -/
theorem ingest_redoes {old : List Observation} (hvalid : Store.Valid old)
    (h : ∀ o ∈ old, s.Holds r.series o) :
    Redoes id (r.ingest batch) s (r.ingest (old ++ batch)) s := by
  by_cases hbatch : batch = []
  · subst hbatch
    rw [List.append_nil]
    have hsettled := ingest_settled hvalid h
    refine ⟨?_, ?_, ?_⟩
    · rw [hsettled.store_eq]
      rfl
    · rw [hsettled.result_eq]
      rfl
    · intro c hc
      rw [hsettled.commits_eq c hc]
      exact mem_reached_self _ _
  · have hne : old ++ batch ≠ [] := fun hnil =>
      hbatch (List.append_eq_nil_iff.mp hnil).2
    by_cases hall : Store.Valid batch
    · have hboth : Store.Valid (old ++ batch) := fun o ho =>
        (List.mem_append.mp ho).elim (hvalid o) (hall o)
      have heq : r.ingest (old ++ batch) s = r.ingest batch s := by
        rw [ingest_of_valid r hne hboth, ingest_of_valid r hbatch hall,
          Store.recorded_append, Store.recorded_of_holds h]
      refine ⟨?_, ?_, ?_⟩
      · rw [heq]
      · rw [heq]
      · rw [heq]
        exact List.subset_cons_self _ _
    · have hboth : ¬Store.Valid (old ++ batch) := fun hboth =>
        hall fun o ho => hboth o (List.mem_append_right _ ho)
      refine ⟨?_, ?_, ?_⟩
      · rw [ingest_of_not_valid r hboth, ingest_of_not_valid r hall]
      · rw [ingest_of_not_valid r hboth, ingest_of_not_valid r hall]
      · rw [ingest_of_not_valid r hboth]
        exact List.nil_subset _

end Ingest

theorem dataset_unique (d : Dataset) :
    ∀ a ∈ d.observations, ∀ b ∈ d.observations,
      a.eventTime = b.eventTime → a = b := by
  have hnodup : (d.observations.map Observation.eventTime).Nodup :=
    (List.pairwise_map.mpr d.increasing).imp fun hlt => hlt.ne
  exact fun a ha b hb htime => List.inj_on_of_nodup_map hnodup ha hb htime

section Steps

variable {f : Journal → Except Raised (α × Journal)}

theorem journal_of_ok {a : α} {j : Journal} (h : f s.toJournal = .ok (a, j)) :
    journal f s = ⟨[{ s with toJournal := j }], .ok a⟩ := by
  unfold journal commit
  dsimp only
  rw [h]

/-- A step of the journal resumes when it finds itself done. -/
theorem resumes_journal {view : α → γ}
    (h : ∀ j a j', f j = .ok (a, j') →
      ∃ b, f j' = .ok (b, j') ∧ view b = view a) :
    Resumes view (journal f) s := by
  refine resumes_commit ?_
  intro a s' hs'
  cases hf : f s.toJournal with
  | error err => rw [hf] at hs'; cases hs'
  | ok pair =>
      obtain ⟨a', j⟩ := pair
      rw [hf] at hs'
      cases hs'
      obtain ⟨b, hb, hview⟩ := h _ _ _ hf
      refine ⟨b, ?_, hview⟩
      dsimp only
      rw [hb]

theorem keeps_journal {P : Store → Prop}
    (h : ∀ s a j', P s → f s.toJournal = .ok (a, j') →
      P { s with toJournal := j' }) : Keeps P (journal f) := by
  refine keeps_commit ?_
  intro s a s' hs hs'
  cases hf : f s.toJournal with
  | error err => rw [hf] at hs'; cases hs'
  | ok pair =>
      obtain ⟨a', j⟩ := pair
      rw [hf] at hs'
      cases hs'
      exact h s _ j hs hf

end Steps

section Closing

variable {received : Received} {t : ℤ} {iss : Issuance}

/-- The window is pending, or its outcome is the one it closes with. -/
def Done (r : Replay) (received : Received) (t : ℤ) (iss : Issuance)
    (s : Store) : Prop :=
  r.closing received t iss = .ok none ∨
    ∃ o, s.outcome? iss.key r.config.modelFamily = some o ∧
      r.closing received t iss = .ok (some o.payload)

theorem closeWindow_settled (h : r.Done received t iss s) :
    Settled (r.closeWindow received t iss) () s := by
  unfold closeWindow
  rcases h with hnone | ⟨o, ho, hsome⟩
  · rw [hnone]
    exact settled_pure () s
  · rw [hsome]
    dsimp only
    have hstep := journal_of_ok (s := s)
      (f := fun j => j.commitOutcome iss.key r.config.modelFamily o.payload
        (t * 1000)) (Journal.commitOutcome_of_outcome? ho)
    refine Settled.bind (a := (o, false)) ⟨?_, ?_⟩ (settled_pure () s)
    · rw [hstep]
    · intro s' hs'
      rw [hstep] at hs'
      exact List.mem_singleton.mp hs'

/-- A window that was closed has its outcome. -/
theorem closeWindow_done {u : Unit}
    (h : (r.closeWindow received t iss s).result = .ok u) :
    r.Done received t iss ((r.closeWindow received t iss s).store s) := by
  unfold closeWindow at h ⊢
  cases hclosing : r.closing received t iss with
  | error err => rw [hclosing] at h; cases h
  | ok found =>
      rw [hclosing] at h
      cases found with
      | none => exact .inl hclosing
      | some payload =>
          dsimp only at h ⊢
          cases hcommit : s.commitOutcome iss.key r.config.modelFamily payload
              (t * 1000) with
          | error err =>
              have hraised : journal (fun j => j.commitOutcome iss.key
                  r.config.modelFamily payload (t * 1000)) s =
                    ⟨[], .error (.raised err)⟩ := by
                unfold journal commit
                dsimp only
                rw [hcommit]
              rw [bind_of_error hraised] at h
              cases h
          | ok pair =>
              obtain ⟨a, j⟩ := pair
              have hstep := journal_of_ok (s := s)
                (f := fun j => j.commitOutcome iss.key r.config.modelFamily
                  payload (t * 1000)) hcommit
              have hstore : ((journal (fun j => j.commitOutcome iss.key
                  r.config.modelFamily payload (t * 1000)) >>= fun _ =>
                  pure ()) s).store s = { s with toJournal := j } := by
                rw [store_bind_of_result_ok (a := a) (by rw [hstep])]
                rw [hstep]
                rfl
              rw [hstore]
              have hfound := Journal.commitOutcome_outcome? hcommit
              exact .inr ⟨a.1, hfound.1, by rw [hclosing, hfound.2]⟩

theorem closeWindow_resumes :
    Resumes id (r.closeWindow received t iss) s := by
  unfold closeWindow
  cases r.closing received t iss with
  | error err => exact resumes_liftExcept _ _ _
  | ok found =>
      cases found with
      | none => exact resumes_pure _ _ _
      | some payload =>
          refine resumes_map (resumes_journal ?_)
          intro j a j' h
          have hfound := Journal.commitOutcome_outcome? h
          refine ⟨(a.1, false), ?_, rfl⟩
          rw [← hfound.2]
          exact Journal.commitOutcome_of_outcome? hfound.1

/-- The outcome that closing a window appends. -/
def closedBy (r : Replay) (t : ℤ) (iss : Issuance) (payload : OutcomePayload)
    (s : Store) : Outcome :=
  ⟨s.outcomes.length + 1, iss.key, iss.key.evidenceKey, iss.key.windowEnd,
    r.config.modelFamily, payload, t * 1000⟩

/-- What the appended outcome keeps, closing the window keeps. -/
theorem keeps_closeWindow {P : Store → Prop}
    (h : ∀ s payload, P s →
      s.outcome? iss.key r.config.modelFamily = none →
      r.closing received t iss = .ok (some payload) →
      P { s with outcomes := s.outcomes ++ [r.closedBy t iss payload s] }) :
    Keeps P (r.closeWindow received t iss) := by
  unfold closeWindow
  cases hclosing : r.closing received t iss with
  | error err => exact keeps_liftExcept _
  | ok found =>
      cases found with
      | none => exact keeps_pure _
      | some payload =>
          refine keeps_bind (keeps_journal ?_) fun _ => keeps_pure _
          intro s a j' hs hcommit
          rcases Journal.commitOutcome_cases hcommit with
            ⟨o, -, -, -, rfl⟩ | ⟨hnone, iss', hfind, -, rfl, rfl⟩
          · exact hs
          · have hkey := Rows.issuance?_key hfind
            have hkept := h s payload hs hnone hclosing
            unfold closedBy at hkept
            rw [← hkey] at hkept ⊢
            exact hkept

theorem keeps_closeWindows_of_issued {P : Store → Prop}
    (h : ∀ s₀, P s₀ → ∀ iss ∈ r.settled t s₀, ∀ s payload, P s →
      s.issuances = s₀.issuances →
      s.outcome? iss.key r.config.modelFamily = none →
      r.closing received t iss = .ok (some payload) →
      P { s with outcomes := s.outcomes ++ [r.closedBy t iss payload s] }) :
    Keeps P (r.closeWindows received t) := by
  refine keeps_read_bind fun s₀ hs₀ => ?_
  have heach : Keeps (fun s => P s ∧ s.issuances = s₀.issuances)
      (each (r.settled t s₀) (r.closeWindow received t)) := by
    refine keeps_each fun iss hiss => keeps_closeWindow ?_
    rintro s payload ⟨hs, hissued⟩ hnone hclosing
    exact ⟨h s₀ hs₀ iss hiss s payload hs hissued hnone hclosing, hissued⟩
  exact wp_mono (heach s₀ ⟨hs₀, rfl⟩) (fun _ h => h.1) (fun _ _ h => h.1)
    fun _ _ h => h.1

theorem keeps_closeWindows {P : Store → Prop}
    (h : ∀ s₀, P s₀ → ∀ iss ∈ r.settled t s₀, ∀ s payload, P s →
      s.outcome? iss.key r.config.modelFamily = none →
      r.closing received t iss = .ok (some payload) →
      P { s with outcomes := s.outcomes ++ [r.closedBy t iss payload s] }) :
    Keeps P (r.closeWindows received t) :=
  keeps_closeWindows_of_issued fun s₀ hs₀ iss hiss s payload hs _ =>
    h s₀ hs₀ iss hiss s payload hs

theorem outcome?_append_of_some {o o' : Outcome} {id : IssuanceKey}
    {model : String} (h : s.outcome? id model = some o) :
    ({ s with outcomes := s.outcomes ++ [o'] } : Store).outcome? id model =
      some o := by
  have happend := Journal.outcome?_append s.toJournal o' id model
  rw [h] at happend
  exact happend

theorem keeps_done_closeWindow (iss iss' : Issuance) :
    Keeps (r.Done received t iss) (r.closeWindow received t iss') := by
  refine keeps_closeWindow ?_
  rintro s payload (hnone | ⟨o', ho', hsome⟩) - -
  · exact .inl hnone
  · exact .inr ⟨o', outcome?_append_of_some ho', hsome⟩

/-- Every window that has settled is done: closing them changes nothing. -/
theorem closeWindows_settled
    (h : ∀ iss ∈ r.settled t s, r.Done received t iss s) :
    Settled (r.closeWindows received t) () s := by
  have hat : r.closeWindows received t s =
      each (r.settled t s) (r.closeWindow received t) s :=
    bind_of_ok (x := read (r.settled t)) rfl
  have hall : ∀ items : List Issuance, (∀ iss ∈ items,
      r.Done received t iss s) →
      Settled (each items (r.closeWindow received t)) () s := by
    intro items hitems
    induction items with
    | nil => exact settled_pure () s
    | cons iss rest ih =>
        exact Settled.bind (closeWindow_settled (hitems iss List.mem_cons_self))
          (ih fun a ha => hitems a (List.mem_cons_of_mem iss ha))
  have hset := hall _ h
  exact ⟨by rw [hat]; exact hset.result_eq,
    by rw [hat]; exact hset.commits_eq⟩

/-- A store that closing the windows of `s` leads to. -/
structure ClosedFrom (r : Replay) (received : Received) (t : ℤ)
    (s s' : Store) : Prop where
  issuances_eq : s'.issuances = s.issuances
  kept : ∀ id o, s.outcome? id r.config.modelFamily = some o →
    s'.outcome? id r.config.modelFamily = some o
  added : ∀ id o, s'.outcome? id r.config.modelFamily = some o →
    s.outcome? id r.config.modelFamily = some o ∨
      ∃ iss ∈ s.issuances, iss.key = id ∧
        r.closing received t iss = .ok (some o.payload)

theorem ClosedFrom.refl (s : Store) : r.ClosedFrom received t s s :=
  ⟨rfl, fun _ _ h => h, fun _ _ h => .inl h⟩

theorem keeps_closedFrom (hiss : iss ∈ s.issuances) :
    Keeps (r.ClosedFrom received t s) (r.closeWindow received t iss) := by
  refine keeps_closeWindow ?_
  intro s' payload hs' hnone hclosing
  have happend := Journal.outcome?_append s'.toJournal
    (r.closedBy t iss payload s')
  refine ⟨hs'.issuances_eq, ?_, ?_⟩
  · intro id o' ho'
    exact outcome?_append_of_some (hs'.kept id o' ho')
  · intro id o' ho'
    have hfind := happend id r.config.modelFamily
    rw [show ({ s'.toJournal with outcomes := s'.outcomes ++
      [r.closedBy t iss payload s'] } : Journal).outcome? id
        r.config.modelFamily = some o' from ho'] at hfind
    cases hold : s'.outcome? id r.config.modelFamily with
    | some o'' =>
        rw [hold] at hfind
        cases hfind
        exact hs'.added id o' hold
    | none =>
        rw [hold, Option.none_or] at hfind
        split at hfind
        · rename_i hmatch
          cases hfind
          exact .inr ⟨iss, hiss, hmatch.1, hclosing⟩
        · cases hfind

theorem mem_settled : iss ∈ r.settled t s ↔
    iss ∈ s.issuances ∧ Rows.isOpen s.outcomes r.evidenceKey
      r.config.modelFamily (t - r.config.settlementSeconds) iss = true ∧
      r.config.modelFamily ∈ iss.models :=
  Rows.mem_openIssuances

/-- The windows left to close are those without an outcome. -/
theorem ClosedFrom.settled_eq {s' : Store}
    (h : r.ClosedFrom received t s s') :
    r.settled t s' = (r.settled t s).filter fun iss =>
      (s'.outcome? iss.key r.config.modelFamily).isNone := by
  have hopen : ∀ iss : Issuance, Rows.isOpen s'.outcomes r.evidenceKey
      r.config.modelFamily (t - r.config.settlementSeconds) iss =
        (Rows.isOpen s.outcomes r.evidenceKey r.config.modelFamily
          (t - r.config.settlementSeconds) iss &&
            (s'.outcome? iss.key r.config.modelFamily).isNone) := by
    intro iss
    have hkept := h.kept iss.key
    unfold Journal.outcome? at hkept ⊢
    unfold Rows.isOpen
    cases hold : Rows.outcome? s.outcomes iss.key r.config.modelFamily with
    | none => simp
    | some o => simp [hkept o hold]
  unfold settled Journal.openIssuances Rows.openIssuances
  rw [h.issuances_eq, List.filter_filter,
    funext (f := Rows.isOpen s'.outcomes r.evidenceKey r.config.modelFamily
      (t - r.config.settlementSeconds)) hopen, ← List.filter_filter,
    filter_insertionSort, filter_insertionSort, List.filter_filter,
    List.filter_filter, List.filter_filter]
  refine congrArg (List.insertionSort _) (List.filter_congr fun iss _ => ?_)
  simp only [Bool.and_comm, Bool.and_left_comm, Bool.and_assoc]

/-- The issuances of a journal have different keys. -/
def KeysDistinct (s : Store) : Prop :=
  ∀ a ∈ s.issuances, ∀ b ∈ s.issuances, a.key = b.key → a = b

/-- Closing the windows resumes: the windows that are left close as they would
have, and those that are closed stay closed. -/
theorem closeWindows_resumes (hkeys : KeysDistinct s) :
    Resumes id (r.closeWindows received t) s := by
  have hat : ∀ s, r.closeWindows received t s =
      each (r.settled t s) (r.closeWindow received t) s := fun s =>
    bind_of_ok (x := read (r.settled t)) rfl
  have hkeeps : ∀ iss, ∀ iss' ∈ r.settled t s,
      Keeps (r.Done received t iss) (r.closeWindow received t iss') :=
    fun iss iss' _ => keeps_done_closeWindow iss iss'
  have hsettled : ∀ iss s', r.Done received t iss s' →
      Settled (r.closeWindow received t iss) ⟨⟩ s' :=
    fun _ _ h => closeWindow_settled h
  have hloop : Resumes id (each (r.settled t s) (r.closeWindow received t)) s :=
    resumes_each hkeeps hsettled fun iss _ s' =>
      ⟨closeWindow_resumes, closeWindow_done⟩
  have hclosed : Keeps (r.ClosedFrom received t s)
      (each (r.settled t s) (r.closeWindow received t)) :=
    keeps_each fun iss hiss => keeps_closedFrom (mem_settled.mp hiss).1
  intro s' hs'
  unfold reached at hs'
  rw [hat] at hs'
  have hfrom : r.ClosedFrom received t s s' := by
    rcases List.mem_cons.mp hs' with rfl | hmem
    · exact .refl _
    · exact hclosed.commits (.refl s) hmem
  have hskip : ∀ iss ∈ r.settled t s,
      (s'.outcome? iss.key r.config.modelFamily).isNone = false →
        r.Done received t iss s' := by
    intro iss hiss hsome
    obtain ⟨hmem, hopen, -⟩ := mem_settled.mp hiss
    cases ho : s'.outcome? iss.key r.config.modelFamily with
    | none => rw [ho] at hsome; cases hsome
    | some o =>
        rcases hfrom.added _ o ho with hold | ⟨iss', hmem', hkey, hclosing⟩
        · have hnone := (Rows.isOpen_iff.mp hopen).2.2
          cases hold.symm.trans hnone
        · have heq := hkeys iss' hmem' iss hmem hkey
          subst heq
          exact .inr ⟨o, ho, hclosing⟩
  have hredo := (hloop s' hs').trans hs'
    (redoes_each_filter hkeeps hsettled hskip)
  rw [← hfrom.settled_eq] at hredo
  refine ⟨?_, ?_, ?_⟩
  · rw [hat, hat]
    exact hredo.store_eq
  · rw [hat, hat]
    exact hredo.result_eq
  · unfold reached
    rw [hat, hat]
    exact hredo.commits_subset

/-- Once the windows are closed, each that has settled is done. -/
theorem closeWindows_done {u : Unit}
    (h : (r.closeWindows received t s).result = .ok u) :
    ∀ iss ∈ r.settled t ((r.closeWindows received t s).store s),
      r.Done received t iss ((r.closeWindows received t s).store s) := by
  have hat : r.closeWindows received t s =
      each (r.settled t s) (r.closeWindow received t) s :=
    bind_of_ok (x := read (r.settled t)) rfl
  have hclosed : Keeps (r.ClosedFrom received t s)
      (each (r.settled t s) (r.closeWindow received t)) :=
    keeps_each fun iss hiss => keeps_closedFrom (mem_settled.mp hiss).1
  rw [hat] at h ⊢
  have hfrom := hclosed.store (.refl s)
  have hdone : ∀ iss ∈ r.settled t s, r.Done received t iss
      ((each (r.settled t s) (r.closeWindow received t) s).store s) :=
    each_done (fun iss iss' _ => keeps_done_closeWindow iss iss')
      (fun iss _ s' => closeWindow_done) h
  intro iss hiss
  rw [hfrom.settled_eq] at hiss
  exact hdone iss (List.mem_of_mem_filter hiss)

end Closing

section Issuing

variable {received : Received} {t : ℤ} {state : ReplayState}

/-- A fold that succeeds succeeds wherever its steps do the same. -/
theorem foldlM_ok_mono {A B Err : Type} {f g : B → A → Except Err B}
    {items : List A} {b c : B}
    (hstep : ∀ b, ∀ a ∈ items, ∀ c, f b a = .ok c → g b a = .ok c)
    (h : items.foldlM f b = .ok c) : items.foldlM g b = .ok c := by
  induction items generalizing b with
  | nil => exact h
  | cons a rest ih =>
      rw [List.foldlM_cons] at h ⊢
      cases hf : f b a with
      | error err => rw [hf] at h; cases h
      | ok b' =>
          rw [hf] at h
          rw [hstep b a List.mem_cons_self b' hf]
          exact ih (fun b a ha => hstep b a (List.mem_cons_of_mem _ ha)) h

/-- An issuance appended later does not change what is recovered. -/
theorem recover_append {recovered : ReplayState × ℕ} {j : Journal}
    (iss : Issuance) (h : r.recover j = .ok recovered) :
    r.recover { j with issuances := j.issuances ++ [iss] } = .ok recovered := by
  unfold recover at h ⊢
  refine foldlM_ok_mono ?_ h
  intro folded o _ next hnext
  unfold foldOutcome at hnext ⊢
  rw [Journal.issuance?_append]
  cases hfind : j.issuance? o.issuanceId with
  | none => rw [hfind] at hnext; cases hnext
  | some found =>
      rw [hfind] at hnext
      exact hnext

/-- What an origin prepares: valid points, its own key and the bound. -/
theorem prepare_eq_ok {points : List (Option ℚ)}
    {prepared : List ℚ × IssuanceKey × (Option ℚ × Forecasting.BoundInfo)}
    (h : r.prepare t points state = .ok prepared) :
    trajectory (r.targets t) points t = .ok prepared.1 ∧
      IssuanceKey.make r.evidenceKey t t ((r.targets t).getLastD t)
        r.settings = .ok prepared.2.1 ∧
      state.calibration.upperBound r.policy (Forecasting.maxRps prepared.1)
        t = .ok prepared.2.2 := by
  unfold prepare at h
  cases hpoints : trajectory (r.targets t) points t with
  | error err => rw [hpoints] at h; cases h
  | ok points' =>
      rw [hpoints] at h
      cases hkey : IssuanceKey.make r.evidenceKey t t
          ((r.targets t).getLastD t) r.settings with
      | error err => rw [hkey] at h; cases h
      | ok key =>
          rw [hkey] at h
          cases hupper : state.calibration.upperBound r.policy
              (Forecasting.maxRps points') t with
          | error err =>
              change (do
                let upper ← (state.calibration.upperBound r.policy
                  (Forecasting.maxRps points') t).mapError Failure.raised
                return (points', key, upper)) = _ at h
              rw [hupper] at h
              cases h
          | ok upper =>
              change (do
                let upper ← (state.calibration.upperBound r.policy
                  (Forecasting.maxRps points') t).mapError Failure.raised
                return (points', key, upper)) = _ at h
              rw [hupper] at h
              cases h
              exact ⟨rfl, rfl, hupper⟩

theorem IssuanceKey.make_eq_ok {ek : EvidenceKey} {origin start stop : ℤ}
    {settings : ReplaySettings} {key : IssuanceKey}
    (h : IssuanceKey.make ek origin start stop settings = .ok key) :
    key.evidenceKey = ek ∧ key.decisionOrigin = origin ∧
      key.windowEnd = stop ∧ key.settings = settings := by
  unfold IssuanceKey.make at h
  split at h
  · cases h
    exact ⟨rfl, rfl, rfl, rfl⟩
  · cases h

/-- The issuance that an origin appends. -/
def issuance (r : Replay) (received : Received) (t : ℤ) (s : Store)
    (prepared : List ℚ × IssuanceKey × (Option ℚ × Forecasting.BoundInfo)) :
    Issuance :=
  ⟨s.issuances.length + 1, prepared.2.1,
    r.bundle (r.view received t) t prepared.1 prepared.2.2,
    [r.config.modelFamily], t * 1000⟩

/-- What the appended issuance of an origin keeps, forecasting keeps. -/
theorem keeps_forecast {P : Store → Prop}
    (h : ∀ s points prepared, P s →
      r.forecaster (r.view received t) t (r.targets t) = some points →
      r.prepare t points state = .ok prepared →
      s.issuance? prepared.2.1 = none →
      P { s with
        issuances := s.issuances ++ [r.issuance received t s prepared] }) :
    Keeps P (r.forecast received t state) := by
  unfold forecast
  cases hforecast : r.forecaster (r.view received t) t (r.targets t) with
  | none => exact keeps_pure _
  | some points =>
      refine keeps_bind ?_ fun _ => keeps_pure _
      refine keeps_liftExcept_bind fun prepared hprepared => ?_
      refine keeps_bind (keeps_journal ?_) fun _ => keeps_pure _
      intro s a j' hs hissue
      rcases (Journal.getOrIssue_cases hissue).2 with
        ⟨iss, -, -, -, rfl⟩ | ⟨hnone, rfl, rfl⟩
      · exact hs
      · exact h s points prepared hs hforecast hprepared hnone

theorem forecast_resumes (c : γ) :
    Resumes (fun _ => c) (r.forecast received t state) s := by
  unfold forecast
  cases r.forecaster (r.view received t) t (r.targets t) with
  | none => exact resumes_pure _ _ _
  | some points =>
      refine resumes_map (resumes_liftExcept_bind fun prepared _ => ?_)
      refine resumes_map (resumes_journal ?_)
      intro j a j' h
      exact ⟨(a.1, false), Journal.getOrIssue_again h, rfl⟩

/-- The windows that have settled stay done: a new window has not ended. -/
theorem keeps_done_forecast (hsettlement : 0 ≤ r.config.settlementSeconds) :
    Keeps (fun s => ∀ iss ∈ r.settled t s, r.Done received t iss s)
      (r.forecast received t state) := by
  refine keeps_forecast ?_
  intro s points prepared hs _ hprepared _ iss hiss
  obtain ⟨hmem, hopen, hmodels⟩ := mem_settled.mp hiss
  rcases List.mem_append.mp hmem with hmem | hmem
  · exact hs iss (mem_settled.mpr ⟨hmem, hopen, hmodels⟩)
  · rw [List.mem_singleton.mp hmem] at hopen
    have hkey := IssuanceKey.make_eq_ok (prepare_eq_ok hprepared).2.1
    have hlt := prepared.2.1.origin_lt
    have hend : prepared.2.1.windowEnd ≤ t - r.config.settlementSeconds :=
      (Rows.isOpen_iff.mp hopen).2.1
    omega

end Issuing

section Tick

variable {received : Received} {t : ℤ}

/-- A tick once its batch is ingested. -/
def afterIngest (r : Replay) (received : Received) (t : ℤ) :
    Durable Store Failure ((ReplayState × ℕ) × Option Bool) :=
  r.closeWindows received t >>= fun _ =>
  read (fun s => (r.recover s.toJournal).mapError .raised) >>= fun e =>
  Durable.liftExcept e >>= fun recovered =>
  r.forecast received t recovered.1 >>= fun created =>
  pure (recovered, created)

theorem tickBody_eq : r.tickBody received batch t =
    r.ingest batch >>= fun _ => r.afterIngest received t :=
  rfl

/-- What appended outcomes and issuances keep, the rest of a tick keeps. -/
theorem keeps_afterIngest {P : Store → Prop}
    (houtcome : ∀ s o, P s → P { s with outcomes := s.outcomes ++ [o] })
    (hissuance : ∀ s iss, P s → s.issuance? iss.key = none →
      P { s with issuances := s.issuances ++ [iss] }) :
    Keeps P (r.afterIngest received t) := by
  refine keeps_bind (keeps_closeWindows ?_) fun _ => keeps_read_bind ?_
  · intro s₀ _ iss _ s payload hs _ _
    exact houtcome s _ hs
  · intro s hs
    refine keeps_liftExcept_bind (fun recovered _ => ?_) s hs
    refine keeps_bind (keeps_forecast ?_) fun _ => keeps_pure _
    intro s points prepared hs _ _ hnone
    exact hissuance s _ hs hnone

/-- A batch that was received has no part in the rest of the tick. -/
theorem keeps_observed {P : Store → Prop}
    (h : ∀ s j, P s → P { s with toJournal := j }) :
    Keeps P (r.afterIngest received t) :=
  keeps_afterIngest
    (fun s o hs => h s { s.toJournal with outcomes := s.outcomes ++ [o] } hs)
    (fun s iss hs _ =>
      h s { s.toJournal with issuances := s.issuances ++ [iss] } hs)

theorem afterIngest_resumes (hkeys : KeysDistinct s)
    (hsettlement : 0 ≤ r.config.settlementSeconds) :
    Resumes Prod.fst (r.afterIngest received t) s := by
  refine resumes_bind (closeWindows_resumes hkeys) fun u hok => ⟨?_, ?_⟩
  · refine resumes_read_bind ?_ (resumes_liftExcept_bind fun recovered _ =>
      resumes_map (forecast_resumes recovered))
    intro s' hs'
    cases hrecover : r.recover
        ((r.closeWindows received t s).store s).toJournal with
    | error err =>
        unfold reached at hs'
        rw [hrecover] at hs'
        have hsame := List.mem_singleton.mp hs'
        rw [hsame, hrecover]
    | ok recovered =>
        unfold reached at hs'
        rw [hrecover] at hs'
        have hkeep : Keeps (fun s' => r.recover s'.toJournal = .ok recovered)
            (r.forecast received t recovered.1 >>= fun created =>
              pure (recovered, created)) := by
          refine keeps_bind (keeps_forecast ?_) fun _ => keeps_pure _
          intro s points prepared hs _ _ _
          exact recover_append _ hs
        rcases List.mem_cons.mp hs' with hsame | hmem
        · rw [hsame, hrecover]
        · rw [hkeep.commits hrecover hmem]
  · intro s' hs'
    have hdone := closeWindows_done hok
    have hkeep : Keeps
        (fun s => ∀ iss ∈ r.settled t s, r.Done received t iss s)
        (read (fun s => (r.recover s.toJournal).mapError Failure.raised) >>=
          fun e => Durable.liftExcept e >>= fun recovered =>
          r.forecast received t recovered.1 >>= fun created =>
          pure (recovered, created)) :=
      keeps_read_bind fun s hs => keeps_liftExcept_bind
        (fun recovered _ => keeps_bind (keeps_done_forecast hsettlement)
          fun _ => keeps_pure _) s hs
    exact closeWindows_settled (hkeep.commits hdone hs')

variable (hconsistent : s.Consistent r.series r.dataset.observations)
  (hbatch : batch ⊆ r.dataset.observations)

include hconsistent hbatch

/-- An accepted batch is received. -/
theorem ingest_holds {u : Unit} (h : (r.ingest batch s).result = .ok u) :
    ∀ o ∈ batch, ((r.ingest batch s).store s).Holds r.series o := by
  rw [(ingest_of_ok h).2]
  exact Store.recorded_holds (dataset_unique r.dataset) hconsistent hbatch

theorem ingest_resumes : Resumes id (r.ingest batch) s := by
  intro s' hs'
  by_cases hvalid : Store.Valid batch
  · by_cases hne : batch = []
    · subst hne
      rw [List.mem_singleton.mp hs']
      exact .refl _ _ _
    · have hat := ingest_of_valid r hne hvalid s
      unfold reached at hs'
      rw [hat] at hs'
      rcases List.mem_cons.mp hs' with rfl | hs'
      · exact .refl _ _ _
      · have hs' := List.mem_singleton.mp hs'
        have hsettled : Settled (r.ingest batch) () s' := by
          refine ingest_settled hvalid ?_
          rw [hs']
          exact Store.recorded_holds (dataset_unique r.dataset) hconsistent
            hbatch
        refine ⟨?_, ?_, ?_⟩
        · rw [hsettled.store_eq, hat, hs']
          rfl
        · rw [hsettled.result_eq, hat]
        · intro c hc
          rw [hsettled.commits_eq c hc]
          unfold reached
          rw [hat, hs']
          exact List.mem_cons_of_mem _ (List.mem_singleton_self _)
  · have hat := ingest_of_not_valid r hvalid s
    unfold reached at hs'
    rw [hat] at hs'
    rw [List.mem_singleton.mp hs']
    exact .refl _ _ _

/-- A tick resumes from each of its commits. -/
theorem tickBody_resumes (hkeys : KeysDistinct s)
    (hsettlement : 0 ≤ r.config.settlementSeconds) :
    Resumes Prod.fst (r.tickBody received batch t) s := by
  rw [tickBody_eq]
  refine resumes_bind (ingest_resumes hconsistent hbatch)
    fun u hok => ⟨?_, ?_⟩
  · have hsame : ((r.ingest batch s).store s).issuances = s.issuances := by
      rw [(ingest_of_ok hok).2, Store.recorded_toJournal]
    refine afterIngest_resumes ?_ hsettlement
    unfold KeysDistinct
    rw [hsame]
    exact hkeys
  · intro s' hs'
    refine ingest_settled (ingest_of_ok hok).1 fun o ho => ?_
    have hkeep : Keeps (Store.Holds r.series o)
        (r.afterIngest received t) := keeps_observed fun _ _ h => h
    exact hkeep.commits (ingest_holds hconsistent hbatch hok o ho) hs'

end Tick

section Run

variable {received : Received} {t : ℤ} {p q : Progress}

/-- What a report says of the journal; the counts are those of one run. -/
def Result.ofJournal (x : Result) : Result :=
  { x with issued := 0, noForecast := 0 }

/-- The rest of a run from the ticks that are left. -/
def finish (r : Replay) (left : List ℤ) (p : Progress) :
    Durable Store Failure Result :=
  r.ticks left p >>= fun p => read (r.result p)

theorem finish_cons (left : List ℤ) : r.finish (t :: left) p =
    Durable.liftExcept (setClock p.clockMs (t * 1000)) >>= fun _ =>
      r.tickBody (p.advance (t * 1000)).received (p.batch (t * 1000)) t >>=
        fun done => r.complete t done.1 >>= fun _ =>
          r.finish left ((p.advance (t * 1000)).count done.2) := by
  unfold finish
  change (r.tick t p >>= fun next => r.ticks left next) >>= _ = _
  unfold tick
  simp only [bind_assoc, pure_bind]

/-- The same loop but for its counts. -/
structure Progress.Agrees (p q : Progress) : Prop where
  clock_eq : p.clockMs = q.clockMs
  received_eq : p.received = q.received
  arrivals_eq : p.arrivals = q.arrivals

theorem Progress.count_agrees (p : Progress) (created : Option Bool) :
    (p.count created).Agrees p := by
  cases created <;> exact ⟨rfl, rfl, rfl⟩

theorem Progress.Agrees.count (h : p.Agrees q)
    (created created' : Option Bool) :
    (p.count created).Agrees (q.count created') := by
  have hleft := p.count_agrees created
  have hright := q.count_agrees created'
  exact ⟨hleft.clock_eq.trans (h.clock_eq.trans hright.clock_eq.symm),
    hleft.received_eq.trans (h.received_eq.trans hright.received_eq.symm),
    hleft.arrivals_eq.trans (h.arrivals_eq.trans hright.arrivals_eq.symm)⟩

theorem Progress.Agrees.advance (h : p.Agrees q) (nowMs : ℤ) :
    (p.advance nowMs).Agrees (q.advance nowMs) := by
  unfold Progress.advance Progress.batch
  rw [h.received_eq, h.arrivals_eq]
  exact ⟨rfl, rfl, rfl⟩

theorem finish_nil_redoes (p q : Progress) (s : Store) :
    Redoes Result.ofJournal (r.finish [] p) s (r.finish [] q) s :=
  ⟨rfl, rfl, List.nil_subset _⟩

/-- The counts of a run have no part in its journal. -/
theorem finish_agrees (h : p.Agrees q) (left : List ℤ) (s : Store) :
    Redoes Result.ofJournal (r.finish left p) s (r.finish left q) s := by
  induction left generalizing p q s with
  | nil => exact finish_nil_redoes p q s
  | cons t rest ih =>
      have hbatch : q.batch (t * 1000) = p.batch (t * 1000) := by
        unfold Progress.batch
        rw [h.arrivals_eq]
      rw [finish_cons, finish_cons, hbatch, h.clock_eq,
        (h.advance (t * 1000)).received_eq]
      refine (Redoes.refl id _ s).bind fun _ _ m _ => ?_
      refine (Redoes.refl id _ m).bind fun done done' m hdone => ?_
      rw [show done = done' from hdone]
      exact (Redoes.refl id _ m).bind fun _ _ m _ =>
        ih ((h.advance _).count _ _) m

/-- The arrivals taken before are those of the ticks before, all received. -/
structure Taken (r : Replay) (old : List Observation) (t : ℤ) (p : Progress)
    (s : Store) : Prop where
  arrivals_eq : r.dataset.arrivals = old ++ p.arrivals
  received_eq : p.received = old.foldl Received.setDefault []
  available_le : ∀ o ∈ old, o.availableAtMs ≤ t * 1000
  valid : Store.Valid old
  holds : ∀ o ∈ old, s.Holds r.series o

/-- The start of a tick in a run that may have taken over from another. -/
structure AtTick (r : Replay) (t : ℤ) (p : Progress) (s : Store) : Prop where
  resume_eq : r.resumeFrom s.toJournal = .ok t
  clock_eq : setClock p.clockMs (t * 1000) = setClock 0 (t * 1000)
  taken : ∃ old, r.Taken old t p s
  consistent : s.Consistent r.series r.dataset.observations
  keys : KeysDistinct s

/-- A run that starts over. -/
def fresh (r : Replay) : Progress := { arrivals := r.dataset.arrivals }

theorem run_of_resumeFrom (h : r.resumeFrom s.toJournal = .ok t) :
    r.run s = r.finish (range t (r.config.lastOrigin + 1)
      r.dataset.intervalSeconds) r.fresh s := by
  have hread : (read (fun s => r.resumeFrom s.toJournal) :
      Durable Store Failure (Except Failure ℤ)) s = ⟨[], .ok (.ok t)⟩ := by
    rw [← h]
    rfl
  unfold run
  refine (bind_of_ok hread).trans ?_
  exact bind_of_ok (x := Durable.liftExcept (.ok t)) (a := t) rfl

/-- A run that starts over takes the earlier arrivals once more. -/
theorem Taken.batch_eq {old : List Observation} (h : r.Taken old t p s) :
    r.fresh.batch (t * 1000) = old ++ p.batch (t * 1000) := by
  unfold fresh Progress.batch
  rw [h.arrivals_eq]
  exact List.takeWhile_append_of_pos fun o ho =>
    decide_eq_true (h.available_le o ho)

theorem Taken.advance_agrees {old : List Observation}
    (h : r.Taken old t p s) :
    (p.advance (t * 1000)).Agrees (r.fresh.advance (t * 1000)) := by
  refine ⟨rfl, ?_, ?_⟩
  · unfold Progress.advance
    dsimp only
    rw [h.batch_eq, h.received_eq, List.foldl_append]
    rfl
  · unfold Progress.advance fresh
    dsimp only
    rw [h.arrivals_eq, List.dropWhile_append_of_pos fun o ho =>
      decide_eq_true (h.available_le o ho)]

theorem AtTick.batch_subset (h : r.AtTick t p s) :
    p.batch (t * 1000) ⊆ r.dataset.observations := by
  obtain ⟨old, htaken⟩ := h.taken
  intro o ho
  have hmem : o ∈ r.dataset.arrivals := by
    rw [htaken.arrivals_eq]
    exact List.mem_append_right _ ((List.takeWhile_sublist _).subset ho)
  exact (List.mem_insertionSort _).mp hmem

/-- A tick that runs again, with the earlier arrivals in its batch. -/
theorem AtTick.redoes (h : r.AtTick t p s)
    (hsettlement : 0 ≤ r.config.settlementSeconds) {s' : Store}
    (hs' : s' ∈ (r.tickBody (p.advance (t * 1000)).received
      (p.batch (t * 1000)) t).reached s) :
    Redoes Prod.fst
      (r.tickBody (p.advance (t * 1000)).received (p.batch (t * 1000)) t) s
      (r.tickBody (r.fresh.advance (t * 1000)).received
        (r.fresh.batch (t * 1000)) t) s' := by
  obtain ⟨old, htaken⟩ := h.taken
  have hredo := tickBody_resumes h.consistent h.batch_subset h.keys
    hsettlement s' hs'
  refine hredo.trans hs' ?_
  rw [htaken.batch_eq, ← htaken.advance_agrees.received_eq, tickBody_eq,
    tickBody_eq]
  refine (ingest_redoes htaken.valid fun o ho => ?_).bind_same _
  have hkeep : Keeps (Store.Holds r.series o)
      (r.tickBody (p.advance (t * 1000)).received (p.batch (t * 1000)) t) := by
    rw [tickBody_eq]
    exact keeps_bind (keeps_ingest fun _ hs => hs.recorded)
      fun _ => keeps_observed fun _ _ h => h
  rcases List.mem_cons.mp hs' with rfl | hmem
  · exact htaken.holds o ho
  · exact hkeep.commits (htaken.holds o ho) hmem

/-- Appended rows leave the tick where the next run starts. -/
theorem keeps_resumeFrom (received : Received) (batch : List Observation)
    (t t' : ℤ) :
    Keeps (fun s => r.resumeFrom s.toJournal = .ok t')
      (r.tickBody received batch t) := by
  rw [tickBody_eq]
  refine keeps_bind (keeps_ingest fun s hs => ?_) fun _ =>
    keeps_afterIngest (fun _ _ hs => hs) (fun _ _ hs _ => hs)
  rw [Store.recorded_toJournal]
  exact hs

theorem keeps_consistent (received : Received) {batch : List Observation}
    (hbatch : batch ⊆ r.dataset.observations) (t : ℤ) :
    Keeps (Store.Consistent r.series r.dataset.observations)
      (r.tickBody received batch t) := by
  rw [tickBody_eq]
  exact keeps_bind
    (keeps_ingest fun _ hs => hs.recorded (dataset_unique r.dataset) hbatch)
    fun _ => keeps_observed fun _ _ h => h

theorem keeps_keysDistinct (received : Received) (batch : List Observation)
    (t : ℤ) : Keeps KeysDistinct (r.tickBody received batch t) := by
  rw [tickBody_eq]
  refine keeps_bind (keeps_ingest fun s hs => ?_) fun _ =>
    keeps_afterIngest (fun _ _ hs => hs) ?_
  · unfold KeysDistinct
    rw [Store.recorded_toJournal]
    exact hs
  · intro s iss hs hnone a ha b hb hkey
    have hnew : ∀ a ∈ s.issuances, a.key ≠ iss.key := by
      intro a ha hsame
      have hnot := List.find?_eq_none.mp hnone a ha
      simp [hsame] at hnot
    rcases List.mem_append.mp ha with ha | ha <;>
      rcases List.mem_append.mp hb with hb | hb
    · exact hs a ha b hb hkey
    · rw [List.mem_singleton.mp hb] at hkey
      exact absurd hkey (hnew a ha)
    · rw [List.mem_singleton.mp ha] at hkey
      exact absurd hkey.symm (hnew b hb)
    · rw [List.mem_singleton.mp ha, List.mem_singleton.mp hb]

theorem complete_of_ok {recovered : ReplayState × ℕ} {u : Unit}
    (h : (r.complete t recovered s).result = .ok u) :
    ∃ j, (r.complete t recovered s) = ⟨[{ s with toJournal := j }], .ok ()⟩ ∧
      j.issuances = s.issuances ∧ j.outcomes = s.outcomes ∧
      ∃ cp, j.latestCheckpoint r.evidenceKey = some cp ∧
        cp.state = { recovered.1 with replayTick := some t } ∧
        cp.lastOutcomeSeq = recovered.2 := by
  unfold complete at h ⊢
  cases hwrite : s.writeCheckpoint r.evidenceKey
      { recovered.1 with replayTick := some t } recovered.2 (t * 1000) with
  | error err =>
      unfold journal commit at h
      dsimp only at h
      rw [hwrite] at h
      cases h
  | ok pair =>
      obtain ⟨u, j⟩ := pair
      refine ⟨j, journal_of_ok (f := fun j => j.writeCheckpoint r.evidenceKey
        { recovered.1 with replayTick := some t } recovered.2 (t * 1000))
        hwrite, ?_⟩
      exact Journal.writeCheckpoint_spec hwrite

/-- A complete tick leaves the start of the next one. -/
theorem AtTick.next (h : r.AtTick t p s)
    (hclock : setClock p.clockMs (t * 1000) = .ok ())
    {done : (ReplayState × ℕ) × Option Bool}
    (hbody : (r.tickBody (p.advance (t * 1000)).received
      (p.batch (t * 1000)) t s).result = .ok done)
    {u : Unit} {s₁ : Store}
    (hs₁ : (r.tickBody (p.advance (t * 1000)).received
      (p.batch (t * 1000)) t s).store s = s₁)
    (hcomplete : (r.complete t done.1 s₁).result = .ok u) :
    r.AtTick (t + r.dataset.intervalSeconds)
      ((p.advance (t * 1000)).count done.2)
      ((r.complete t done.1 s₁).store s₁) := by
  obtain ⟨j, hj, hissuances, -, cp, hcp, hstate, -⟩ := complete_of_ok hcomplete
  have hstore : (r.complete t done.1 s₁).store s₁ =
      { s₁ with toJournal := j } := by
    rw [hj]
    rfl
  have hzero : (0 : ℤ) ≤ t * 1000 := by
    have heq := h.clock_eq
    rw [hclock] at heq
    unfold setClock at heq
    split at heq
    · cases heq
    · omega
  have hpos := r.dataset.interval_pos
  obtain ⟨old, htaken⟩ := h.taken
  have hingest : (r.ingest (p.batch (t * 1000)) s).result = .ok () := by
    cases hresult : (r.ingest (p.batch (t * 1000)) s).result with
    | ok u => rfl
    | error err =>
        rw [tickBody_eq, bind_of_result_error hresult] at hbody
        cases hbody
  have hholds : ∀ o, (∀ s, Store.Holds r.series o s →
      Store.Holds r.series o ((r.afterIngest
        (p.advance (t * 1000)).received t s).store s)) := by
    intro o s hs
    exact (keeps_observed (P := Store.Holds r.series o)
      fun _ _ h => h).store hs
  have hs₁' : s₁ = ((r.afterIngest (p.advance (t * 1000)).received t
      ((r.ingest (p.batch (t * 1000)) s).store s)).store
      ((r.ingest (p.batch (t * 1000)) s).store s)) := by
    rw [← hs₁, tickBody_eq, store_bind_of_result_ok hingest]
  have hcount := (p.advance (t * 1000)).count_agrees done.2
  rw [hstore]
  refine ⟨?_, ?_, ⟨old ++ p.batch (t * 1000), ?_, ?_, ?_, ?_, ?_⟩, ?_, ?_⟩
  · unfold resumeFrom
    rw [hcp]
    dsimp only
    rw [hstate]
  · rw [hcount.clock_eq]
    change setClock (t * 1000) _ = _
    unfold setClock
    rw [if_neg (by omega), if_neg (by omega)]
  · rw [hcount.arrivals_eq, htaken.arrivals_eq, List.append_assoc]
    exact congrArg _ (List.takeWhile_append_dropWhile).symm
  · rw [hcount.received_eq, List.foldl_append, ← htaken.received_eq]
    rfl
  · intro o ho
    rcases List.mem_append.mp ho with ho | ho
    · have hle := htaken.available_le o ho
      omega
    · unfold Progress.batch at ho
      have hle := List.mem_takeWhile_imp ho
      rw [decide_eq_true_eq] at hle
      omega
  · intro o ho
    rcases List.mem_append.mp ho with ho | ho
    · exact htaken.valid o ho
    · exact (ingest_of_ok hingest).1 o ho
  · intro o ho
    change Store.Holds r.series o s₁
    rw [hs₁']
    refine hholds o _ ?_
    rcases List.mem_append.mp ho with ho | ho
    · exact (keeps_ingest (P := Store.Holds r.series o)
        fun _ hs => hs.recorded).store (htaken.holds o ho)
    · exact ingest_holds h.consistent h.batch_subset hingest o ho
  · change Store.Consistent r.series r.dataset.observations s₁
    rw [← hs₁]
    exact (keeps_consistent _ h.batch_subset t).store h.consistent
  · intro a ha b hb
    rw [hissuances] at ha hb
    have hkeys : KeysDistinct s₁ := by
      rw [← hs₁]
      exact (keeps_keysDistinct _ _ t).store h.keys
    exact hkeys a ha b hb

theorem range_eq_cons {start stop step t : ℤ} {rest : List ℤ}
    (hstep : 0 < step) (h : range start stop step = t :: rest) :
    t = start ∧ rest = range (start + step) stop step := by
  unfold range at h ⊢
  cases hn : ((stop - start + step - 1) / step).toNat with
  | zero => rw [hn] at h; cases h
  | succ n =>
      rw [hn, List.range_succ_eq_map, List.map_cons, List.map_map,
        List.cons.injEq] at h
      have hcount : ((stop - (start + step) + step - 1) / step).toNat = n := by
        have hsub : stop - (start + step) + step - 1 =
            stop - start + step - 1 + step * (-1) := by ring
        rw [hsub, Int.add_mul_ediv_left _ _ hstep.ne']
        omega
      refine ⟨?_, ?_⟩
      · rw [← h.1]
        simp
      · rw [← h.2, hcount]
        refine List.map_congr_left fun i _ => ?_
        simp only [Function.comp_apply]
        push_cast
        ring

/-- From every store that the rest of a run reaches, a run that starts over
redoes it. -/
theorem AtTick.finish_redoes (hsettlement : 0 ≤ r.config.settlementSeconds)
    {left : List ℤ} (h : r.AtTick t p s)
    (hleft : left = range t (r.config.lastOrigin + 1)
      r.dataset.intervalSeconds) :
    ∀ s' ∈ (r.finish left p).reached s,
      Redoes Result.ofJournal (r.finish left p) s r.run s' := by
  induction left generalizing t p s with
  | nil =>
      intro s' hs'
      rw [List.mem_singleton.mp hs']
      have hrun := run_of_resumeFrom h.resume_eq
      rw [← hleft] at hrun
      refine ⟨?_, ?_, ?_⟩
      · rw [hrun]
        rfl
      · rw [hrun]
        rfl
      · rw [hrun]
        exact List.nil_subset _
  | cons t' rest ih =>
      obtain ⟨rfl, hrest⟩ := range_eq_cons r.dataset.interval_pos hleft.symm
      have hrun : ∀ s', r.resumeFrom s'.toJournal = .ok t' →
          r.run s' = r.finish (t' :: rest) r.fresh s' := by
        intro s' hs'
        rw [run_of_resumeFrom hs', hleft]
      obtain ⟨old, htaken⟩ := h.taken
      cases hclock : setClock p.clockMs (t' * 1000) with
      | error err =>
          have hstop : ∀ q : Progress,
              setClock q.clockMs (t' * 1000) = .error err →
              r.finish (t' :: rest) q s = ⟨[], .error err⟩ := by
            intro q hq
            rw [finish_cons, hq]
            exact bind_of_error (x := Durable.liftExcept (.error err)) rfl
          have hagain := hstop r.fresh (h.clock_eq.symm.trans hclock)
          intro s' hs'
          unfold reached at hs'
          rw [hstop p hclock] at hs'
          rw [List.mem_singleton.mp hs']
          refine (Redoes.refl _ _ s).of_eq ?_
          rw [hrun s h.resume_eq, hagain, hstop p hclock]
      | ok u =>
          have hstart : ∀ q : Progress,
              setClock q.clockMs (t' * 1000) = .ok u →
              r.finish (t' :: rest) q =
                r.tickBody (q.advance (t' * 1000)).received
                  (q.batch (t' * 1000)) t' >>= fun done =>
                r.complete t' done.1 >>= fun _ =>
                r.finish rest ((q.advance (t' * 1000)).count done.2) := by
            intro q hq
            rw [finish_cons, hq]
            rfl
          -- a cut before the checkpoint: the tick runs again
          have hwithin : ∀ s' ∈ (r.tickBody (p.advance (t' * 1000)).received
              (p.batch (t' * 1000)) t').reached s,
              Redoes Result.ofJournal (r.finish (t' :: rest) p) s
                r.run s' := by
            intro s' hs'
            have hresume : r.resumeFrom s'.toJournal = .ok t' := by
              rcases List.mem_cons.mp hs' with rfl | hmem
              · exact h.resume_eq
              · exact (keeps_resumeFrom _ _ t' t').commits h.resume_eq hmem
            refine Redoes.of_eq ?_ (hrun s' hresume)
            rw [hstart p hclock,
              hstart r.fresh (h.clock_eq.symm.trans hclock)]
            refine (h.redoes hsettlement hs').bind fun a b m hab => ?_
            rw [hab]
            refine (Redoes.refl id _ m).bind fun _ _ m _ => ?_
            exact finish_agrees (htaken.advance_agrees.count _ _) rest m
          intro s' hs'
          rw [hstart p hclock] at hs'
          rcases mem_reached_bind hs' with hbody | ⟨done, hok, hafter⟩
          · exact hwithin s' hbody
          -- a cut after it: the run goes on with the next tick
          obtain ⟨s₁, hs₁⟩ : ∃ s₁, (r.tickBody
              (p.advance (t' * 1000)).received (p.batch (t' * 1000)) t'
              s).store s = s₁ := ⟨_, rfl⟩
          rw [hs₁] at hafter
          have hlater : ∀ u, (r.complete t' done.1 s₁).result = .ok u →
              ∀ s' ∈ (r.finish rest ((p.advance (t' * 1000)).count
                done.2)).reached ((r.complete t' done.1 s₁).store s₁),
              Redoes Result.ofJournal (r.finish (t' :: rest) p) s
                r.run s' := by
            intro u hcomplete s' hs'
            have hnext := h.next hclock hok hs₁ hcomplete
            rw [hstart p hclock]
            refine Redoes.of_bind hok ?_
            rw [hs₁]
            exact Redoes.of_bind hcomplete (ih hnext hrest s' hs')
          rcases mem_reached_bind hafter with hmade | ⟨u, hcomplete, hrest'⟩
          · rcases mem_reached_commit hmade with rfl | ⟨u, hmade⟩
            · rw [← hs₁]
              exact hwithin _ (store_mem_reached _ s)
            · have hcomplete : r.complete t' done.1 s₁ =
                  ⟨[s'], .ok u⟩ := hmade
              refine hlater u (by rw [hcomplete]) s' ?_
              rw [hcomplete]
              exact mem_reached_self _ s'
          · exact hlater u hcomplete s' hrest'

end Run

end Replay

/-- A replay resumes from every store that it reaches. -/
theorem runReplay_resumes (dataset : Dataset) (config : ReplayConfig)
    (forecaster : Forecaster) :
    Resumes Replay.Result.ofJournal (runReplay dataset config forecaster)
      {} := by
  unfold runReplay
  refine resumes_liftExcept_bind fun _ hcheck => ?_
  refine resumes_liftExcept_bind fun policy _ => ?_
  have hsettlement : 0 ≤ config.settlementSeconds := by
    unfold ReplayConfig.check at hcheck
    split_ifs at hcheck with _ _ _ _ hneg
    simp only [not_or, not_lt] at hneg
    exact hneg.1
  let r : Replay := ⟨dataset, config, forecaster, policy⟩
  have hstart : r.AtTick config.firstOrigin r.fresh {} := by
    refine ⟨rfl, rfl, ⟨[], rfl, rfl, ?_, ?_, ?_⟩, ?_, ?_⟩
    · exact fun o ho => nomatch ho
    · exact fun o ho => nomatch ho
    · exact fun o ho => nomatch ho
    · exact fun o _ kept hkept => nomatch hkept
    · exact fun a ha => nomatch ha
  have hrun := Replay.run_of_resumeFrom hstart.resume_eq
  intro s' hs'
  have hredo := hstart.finish_redoes hsettlement rfl s' (by
    unfold reached at hs' ⊢
    rwa [← hrun])
  refine ⟨?_, ?_, ?_⟩
  · rw [hrun]
    exact hredo.store_eq
  · rw [hrun]
    exact hredo.result_eq
  · unfold reached
    rw [hrun]
    exact hredo.commits_subset

/-- After any interruptions, each before or after a commit, a replay ends as an
uninterrupted one: with the same journal, the same checkpoints and the same
report of them, or with the same failure. -/
theorem interrupted_replay (dataset : Dataset) (config : ReplayConfig)
    (forecaster : Forecaster) (cuts : List ℕ) :
    let run := runReplay dataset config forecaster
    let s := run.afterCuts {} cuts
    ((run s).store s).journalDigest = ((run {}).store {}).journalDigest ∧
      (∀ ek, ((run s).store s).latestCheckpoint ek =
        ((run {}).store {}).latestCheckpoint ek) ∧
      (run s).result.map Replay.Result.ofJournal =
        (run {}).result.map Replay.Result.ofJournal := by
  have hredo :=
    (runReplay_resumes dataset config forecaster).afterCuts cuts
  refine ⟨?_, fun ek => ?_, hredo.result_eq⟩
  · rw [hredo.store_eq]
  · rw [hredo.store_eq]

end PredictiveAutoscaler.Evaluation
