/-
Bounded admission of request work.  A request takes a permit of a bounded
semaphore, submits its work to an executor of as many threads, and leaves the
release to the done callback of the future; the future may end before the
callback is attached, and a waiting caller or a shutdown may cancel it.  The
`run` of the token reviews asks for its permit again and again until `wait_s` is
over: every try is one acquire.  A submit that raises after it has queued the
work (no thread can be started) is not modelled.
-/
import Mathlib.Data.List.Basic
import Mathlib.Tactic.Common

namespace PredictiveAutoscaler.Api

/-- `threading.BoundedSemaphore`. -/
structure BoundedSemaphore where
  initial : ℕ
  value : ℕ
deriving DecidableEq, Repr

namespace BoundedSemaphore

/-- `acquire(blocking=False)`. -/
def acquire (sem : BoundedSemaphore) : Option BoundedSemaphore :=
  if sem.value = 0 then none else some { sem with value := sem.value - 1 }

/-- `release`; nothing when it raises, every permit being free. -/
def release (sem : BoundedSemaphore) : Option BoundedSemaphore :=
  if sem.initial ≤ sem.value then none
  else some { sem with value := sem.value + 1 }

end BoundedSemaphore

/-- The states of a `concurrent.futures.Future`. -/
inductive FutureState
  | pending
  | running
  | cancelled
  | finished
deriving DecidableEq, Repr

namespace FutureState

def done : FutureState → Bool
  | pending => false
  | running => false
  | cancelled => true
  | finished => true

end FutureState

/-- The callback that releases the permit. -/
inductive DoneCallback
  | absent
  | attached
  | called
deriving DecidableEq, Repr

/-- The work of an admitted request. -/
inductive Work
  /-- The permit is taken, nothing is submitted yet. -/
  | admitted
  /-- The submit raised. -/
  | refused
  /-- `invoked`: the callbacks of the future's end have been called. -/
  | submitted (future : FutureState) (callback : DoneCallback)
      (invoked : Bool)
deriving DecidableEq, Repr

namespace Work

/-- The work has yet to give its permit back. -/
def holds : Work → Bool
  | admitted => true
  | refused => false
  | submitted _ callback _ => callback ≠ .called

/-- The work is queued or runs. -/
def unfinished : Work → Bool
  | submitted future _ _ => !future.done
  | _ => false

/-- A thread of the executor runs the work or calls its callbacks. -/
def onThread : Work → Bool
  | submitted .running _ _ => true
  | submitted .finished _ invoked => !invoked
  | _ => false

end Work

/-- An `Admission` with the work it admitted, by number, and the queue of its
executor. -/
structure Admission where
  sem : BoundedSemaphore
  works : List Work := []
  queue : List ℕ := []
  isShutdown : Bool := false
  /-- How often a permit was released, and how often that raised. -/
  releases : ℕ := 0
  valueErrors : ℕ := 0
deriving DecidableEq, Repr

inductive AdmissionAction
  /-- `run` up to the permit. -/
  | acquire
  | submit (i : ℕ)
  | addDoneCallback (i : ℕ)
  /-- A thread takes the next work of the queue. -/
  | start
  | finish (i : ℕ)
  /-- `_invoke_callbacks` of a future that is done. -/
  | invoke (i : ℕ)
  /-- The request that waits for the work is cancelled. -/
  | cancel (i : ℕ)
  | shutdown
  /-- The shutdown cancels the next work of the queue. -/
  | drain
deriving DecidableEq, Repr

namespace Admission

/-- `Admission(slots)`; its constructor refuses less than one. -/
def new (slots : ℕ) : Admission := { sem := ⟨slots, slots⟩ }

variable (s : Admission)

/-- `self._sem.release()`. -/
def releasePermit : Admission :=
  match s.sem.release with
  | none => { s with
      releases := s.releases + 1
      valueErrors := s.valueErrors + 1 }
  | some sem => { s with sem, releases := s.releases + 1 }

def setWork (i : ℕ) (work : Work) : Admission :=
  { s with works := s.works.set i work }

/-- `submit` and what follows an exception of it. -/
def submit (i : ℕ) : Admission :=
  if s.isShutdown then (s.setWork i .refused).releasePermit
  else { s.setWork i (.submitted .pending .absent false) with
    queue := s.queue ++ [i] }

/-- `add_done_callback`: a future that is done calls it at once. -/
def addDoneCallback (i : ℕ) (future : FutureState) (invoked : Bool) :
    Admission :=
  if future.done then
    (s.setWork i (.submitted future .called invoked)).releasePermit
  else s.setWork i (.submitted future .attached invoked)

/-- `_invoke_callbacks`. -/
def invoke (i : ℕ) (future : FutureState) (callback : DoneCallback) :
    Admission :=
  match callback with
  | .attached => (s.setWork i (.submitted future .called true)).releasePermit
  | other => s.setWork i (.submitted future other true)

/-- Work that is still queued goes on to another state. -/
def movePending (i : ℕ) (future : FutureState) : Admission :=
  match s.works[i]? with
  | some (.submitted .pending callback invoked) =>
      s.setWork i (.submitted future callback invoked)
  | _ => s

/-- `Future.cancel` of the work, in vain once it runs. -/
def cancelPending (i : ℕ) : Admission := s.movePending i .cancelled

/-- A thread takes the work, and skips one that was cancelled. -/
def runPending (i : ℕ) : Admission := s.movePending i .running

/-- One step, when it can be taken; a full house refuses the request. -/
def step : AdmissionAction → Option Admission
  | .acquire =>
      match s.sem.acquire with
      | none => some s
      | some sem => some { s with sem, works := s.works ++ [.admitted] }
  | .submit i =>
      match s.works[i]? with
      | some .admitted => some (s.submit i)
      | _ => none
  | .addDoneCallback i =>
      match s.works[i]? with
      | some (.submitted future .absent invoked) =>
          some (s.addDoneCallback i future invoked)
      | _ => none
  | .start =>
      match s.queue with
      | [] => none
      | i :: rest =>
          if s.sem.initial ≤ s.works.countP Work.onThread then none
          else some ({ s with queue := rest }.runPending i)
  | .finish i =>
      match s.works[i]? with
      | some (.submitted .running callback invoked) =>
          some (s.setWork i (.submitted .finished callback invoked))
      | _ => none
  | .invoke i =>
      match s.works[i]? with
      | some (.submitted future callback false) =>
          if future.done then some (s.invoke i future callback) else none
      | _ => none
  | .cancel i =>
      match s.works[i]? with
      | some (.submitted _ .absent _) => none
      | some (.submitted _ _ _) => some (s.cancelPending i)
      | _ => none
  | .shutdown => some { s with isShutdown := true }
  | .drain =>
      match s.queue with
      | [] => none
      | i :: rest =>
          if s.isShutdown then some ({ s with queue := rest }.cancelPending i)
          else none

/-- Every interleaving of requests, threads, cancellations and a shutdown. -/
inductive Reaches (slots : ℕ) : Admission → Prop
  | new : Reaches slots (new slots)
  | step {s s' : Admission} (action : AdmissionAction)
      (before : Reaches slots s) (taken : s.step action = some s') :
      Reaches slots s'

end Admission

/-- The permit is released when the future is done only, and its callbacks
leave none attached. -/
def Work.Ordered : Work → Prop
  | .submitted future callback invoked =>
      (callback = .called → future.done = true) ∧
        (invoked = true → future.done = true ∧ callback ≠ .attached)
  | _ => True

def Work.isPending : Work → Bool
  | .submitted .pending _ _ => true
  | _ => false

theorem countP_set_add {l : List Work} {i : ℕ} {old : Work} (p : Work → Bool)
    (new : Work) (hold : l[i]? = some old) :
    (l.set i new).countP p + (p old).toNat = l.countP p + (p new).toNat := by
  obtain ⟨hi, rfl⟩ := List.getElem?_eq_some_iff.mp hold
  have hle := List.boole_getElem_le_countP (p := p) hi
  rw [List.countP_set hi]
  cases hp : p l[i] <;> cases hq : p new <;> simp_all

namespace Admission

/-- What every step keeps: a permit is free or held by one work that has not
released it, and every queued work is in the queue. -/
structure Kept (slots : ℕ) (s : Admission) : Prop where
  initial_eq : s.sem.initial = slots
  conserved : s.sem.value + s.works.countP Work.holds = slots
  released : s.releases + s.works.countP Work.holds = s.works.length
  faultless : s.valueErrors = 0
  ordered : ∀ work ∈ s.works, work.Ordered
  queued : ∀ i work, s.works[i]? = some work → work.isPending = true →
    i ∈ s.queue

theorem kept_new (slots : ℕ) : Kept slots (new slots) where
  initial_eq := rfl
  conserved := rfl
  released := rfl
  faultless := rfl
  ordered _ h := absurd h List.not_mem_nil
  queued _ _ h := absurd h.symm (Option.some_ne_none _)

section Keeps

variable {slots : ℕ} {s : Admission} {i : ℕ} {old new : Work} {queue : List ℕ}

/-- Where another work is queued, it was before. -/
theorem Kept.queued_set (h : Kept slots s)
    (hnew : new.isPending = true → i ∈ queue)
    (hothers : ∀ j ∈ s.queue, j ≠ i → j ∈ queue) :
    ∀ j work, (s.works.set i new)[j]? = some work → work.isPending = true →
      j ∈ queue := by
  intro j work hwork hpending
  by_cases hj : j = i
  · subst hj
    have hlt : j < s.works.length := by
      simpa using (List.getElem?_eq_some_iff.mp hwork).1
    rw [List.getElem?_set_self hlt] at hwork
    exact hnew (Option.some.inj hwork ▸ hpending)
  · rw [List.getElem?_set_ne (Ne.symm hj)] at hwork
    exact hothers j (h.queued j work hwork hpending) hj

theorem Kept.ordered_set (h : Kept slots s) (hnew : new.Ordered) :
    ∀ work ∈ s.works.set i new, work.Ordered := by
  intro work hwork
  rcases List.mem_or_eq_of_mem_set hwork with hold | rfl
  · exact h.ordered work hold
  · exact hnew

/-- A work that moves on with its permit. -/
theorem Kept.setWork (h : Kept slots s) (hold : s.works[i]? = some old)
    (hholds : new.holds = old.holds) (hordered : new.Ordered)
    (hnew : new.isPending = true → i ∈ queue)
    (hothers : ∀ j ∈ s.queue, j ≠ i → j ∈ queue) :
    Kept slots { s.setWork i new with queue } := by
  have hcount := countP_set_add Work.holds new hold
  rw [hholds] at hcount
  have hsame := Nat.add_right_cancel hcount
  refine ⟨h.initial_eq, ?_, ?_, h.faultless, h.ordered_set hordered,
    h.queued_set hnew hothers⟩
  · exact (congrArg (s.sem.value + ·) hsame).trans h.conserved
  · refine (congrArg (s.releases + ·) hsame).trans ?_
    exact h.released.trans (List.length_set).symm

/-- A work that gives its permit back: there is one to give. -/
theorem Kept.releaseWork (h : Kept slots s) (hold : s.works[i]? = some old)
    (hheld : old.holds = true) (hnew : new.holds = false)
    (hordered : new.Ordered) (hpending : new.isPending = false) :
    Kept slots (s.setWork i new).releasePermit := by
  have hcount := countP_set_add Work.holds new hold
  rw [hheld, hnew] at hcount
  simp only [Bool.toNat_true, Bool.toNat_false, Nat.add_zero] at hcount
  have hconserved := h.conserved
  have hreleased := h.released
  have hroom : ¬ s.sem.initial ≤ s.sem.value := by
    rw [h.initial_eq]
    omega
  have hrelease : (s.setWork i new).sem.release =
      some { s.sem with value := s.sem.value + 1 } := if_neg hroom
  unfold releasePermit
  rw [hrelease]
  refine ⟨h.initial_eq, ?_, ?_, h.faultless, h.ordered_set hordered,
    h.queued_set (fun hp => ?_) fun j hj _ => hj⟩
  · simp only [Admission.setWork]
    omega
  · simp only [Admission.setWork, List.length_set]
    omega
  · rw [hpending] at hp
    cases hp

/-- Leaving the queue, where the work is not queued any more. -/
theorem Kept.dequeue {rest : List ℕ} (h : Kept slots s)
    (hqueue : s.queue = i :: rest)
    (hwork : ∀ work, s.works[i]? = some work → work.isPending = false) :
    Kept slots { s with queue := rest } := by
  refine ⟨h.initial_eq, h.conserved, h.released, h.faultless, h.ordered,
    fun j work hj hpending => ?_⟩
  have hmem := h.queued j work hj hpending
  rw [hqueue] at hmem
  rcases List.mem_cons.mp hmem with rfl | hrest
  · rw [hwork work hj] at hpending
    cases hpending
  · exact hrest

/-- The work at the head of the queue is queued, or is not pending. -/
theorem pending_or (s : Admission) (i : ℕ) :
    (∃ callback invoked,
      s.works[i]? = some (.submitted .pending callback invoked)) ∨
      (∀ work, s.works[i]? = some work → work.isPending = false) := by
  cases hwork : s.works[i]? with
  | none => exact .inr fun work h => absurd h.symm (Option.some_ne_none work)
  | some work =>
      cases work with
      | submitted future callback invoked =>
          cases future with
          | pending => exact .inl ⟨callback, invoked, rfl⟩
          | running | cancelled | finished =>
              right
              rintro work ⟨⟩
              rfl
      | admitted | refused =>
          right
          rintro work ⟨⟩
          rfl

theorem Kept.pending_ordered {callback : DoneCallback} {invoked : Bool}
    (h : Kept slots s)
    (hwork : s.works[i]? = some (.submitted .pending callback invoked)) :
    callback ≠ .called ∧ invoked = false := by
  have hordered := h.ordered _ (List.mem_of_getElem? hwork)
  refine ⟨fun hc => ?_, ?_⟩
  · cases hordered.1 hc
  · cases invoked with
    | false => rfl
    | true => cases (hordered.2 rfl).1

theorem Kept.acquire {sem : BoundedSemaphore} (h : Kept slots s)
    (hsem : s.sem.acquire = some sem) :
    Kept slots { s with sem, works := s.works ++ [.admitted] } := by
  have hconserved := h.conserved
  have hreleased := h.released
  unfold BoundedSemaphore.acquire at hsem
  split at hsem
  · cases hsem
  · cases hsem
    refine ⟨h.initial_eq, ?_, ?_, h.faultless, fun work hwork => ?_,
      fun j work hj hpending => ?_⟩
    · simp only [List.countP_append, List.countP_singleton, Work.holds,
        if_true]
      omega
    · simp only [List.countP_append, List.countP_singleton, Work.holds,
        if_true, List.length_append, List.length_singleton]
      omega
    · rcases List.mem_append.mp hwork with hold | hnew
      · exact h.ordered work hold
      · rw [List.mem_singleton.mp hnew]
        exact trivial
    · rcases Nat.lt_trichotomy j s.works.length with hlt | rfl | hgt
      · rw [List.getElem?_append_left hlt] at hj
        exact h.queued j work hj hpending
      · rw [List.getElem?_concat_length] at hj
        cases hj
        cases hpending
      · have hlen : (s.works ++ [Work.admitted]).length ≤ j := by
          rw [List.length_append, List.length_singleton]
          exact hgt
        rw [List.getElem?_eq_none hlen] at hj
        cases hj

theorem Kept.submit (h : Kept slots s) (hwork : s.works[i]? = some .admitted) :
    Kept slots (s.submit i) := by
  unfold Admission.submit
  split
  · exact h.releaseWork hwork rfl rfl trivial rfl
  · refine h.setWork hwork rfl ⟨fun hc => ?_, fun hv => ?_⟩ (fun _ => ?_)
      fun j hj _ => List.mem_append_left _ hj
    · cases hc
    · cases hv
    · exact List.mem_append_right _ (List.mem_singleton_self i)

theorem Kept.addDoneCallback {future : FutureState} {invoked : Bool}
    (h : Kept slots s)
    (hwork : s.works[i]? = some (.submitted future .absent invoked)) :
    Kept slots (s.addDoneCallback i future invoked) := by
  have hordered := h.ordered _ (List.mem_of_getElem? hwork)
  unfold Admission.addDoneCallback
  split
  · rename_i hdone
    refine h.releaseWork hwork rfl rfl ⟨fun _ => hdone, fun hv => ?_⟩ ?_
    · exact ⟨hdone, by decide⟩
    · cases future <;> first | rfl | cases hdone
  · rename_i hdone
    refine h.setWork hwork rfl ⟨fun hc => ?_, fun hv => ?_⟩ (fun hp => ?_)
      fun j hj _ => hj
    · cases hc
    · exact absurd (hordered.2 hv).1 hdone
    · refine h.queued i _ hwork ?_
      cases future <;> first | rfl | cases hp

theorem Kept.invoke {future : FutureState} {callback : DoneCallback}
    (h : Kept slots s)
    (hwork : s.works[i]? = some (.submitted future callback false))
    (hdone : future.done = true) :
    Kept slots (s.invoke i future callback) := by
  have hpending : ∀ c v, (Work.submitted future c v).isPending = false := by
    intro c v
    cases future <;> first | rfl | cases hdone
  have hother : callback ≠ .attached →
      Kept slots (s.setWork i (.submitted future callback true)) := by
    intro hc
    refine h.setWork hwork rfl ⟨fun _ => hdone, fun _ => ⟨hdone, hc⟩⟩
      (fun hp => ?_) fun j hj _ => hj
    rw [hpending] at hp
    cases hp
  cases callback with
  | attached =>
      exact h.releaseWork hwork rfl rfl
        ⟨fun _ => hdone, fun _ => ⟨hdone, by decide⟩⟩ (hpending _ _)
  | absent => exact hother (by decide)
  | called => exact hother (by decide)

/-- A pending work that starts or is cancelled, and leaves the queue or not. -/
theorem Kept.leavePending {callback : DoneCallback} {invoked : Bool}
    {future : FutureState} (h : Kept slots s)
    (hwork : s.works[i]? = some (.submitted .pending callback invoked))
    (hfuture : future ≠ .pending)
    (hothers : ∀ j ∈ s.queue, j ≠ i → j ∈ queue) :
    Kept slots { s.setWork i (.submitted future callback invoked) with
      queue } := by
  obtain ⟨hcallback, hinvoked⟩ := h.pending_ordered hwork
  refine h.setWork hwork rfl
    ⟨fun hc => absurd hc hcallback, fun hv => ?_⟩ (fun hp => ?_) hothers
  · rw [hinvoked] at hv
    cases hv
  · cases future <;> first | exact absurd rfl hfuture | cases hp

theorem Kept.movePending {future : FutureState} (h : Kept slots s) (i : ℕ)
    (hfuture : future ≠ .pending) : Kept slots (s.movePending i future) := by
  unfold Admission.movePending
  split
  · rename_i callback invoked hwork
    exact h.leavePending hwork hfuture fun j hj _ => hj
  · exact h

/-- The head of the queue leaves it, and moves on if it was still queued. -/
theorem Kept.dequeuePending {future : FutureState} {rest : List ℕ}
    (h : Kept slots s) (hqueue : s.queue = i :: rest)
    (hfuture : future ≠ .pending) :
    Kept slots ({ s with queue := rest }.movePending i future) := by
  rcases pending_or s i with ⟨callback, invoked, hwork⟩ | hwork
  · simp only [Admission.movePending, hwork]
    refine h.leavePending hwork hfuture fun j hj hne => ?_
    rw [hqueue] at hj
    exact (List.mem_cons.mp hj).resolve_left hne
  · exact (h.dequeue hqueue hwork).movePending i hfuture

theorem Kept.finish {callback : DoneCallback} {invoked : Bool}
    (h : Kept slots s)
    (hwork : s.works[i]? = some (.submitted .running callback invoked)) :
    Kept slots (s.setWork i (.submitted .finished callback invoked)) := by
  have hordered := h.ordered _ (List.mem_of_getElem? hwork)
  refine h.setWork hwork rfl ⟨fun _ => rfl, fun hv => ?_⟩ (fun hp => ?_)
    fun j hj _ => hj
  · exact ⟨rfl, (hordered.2 hv).2⟩
  · cases hp

end Keeps

section Runs

variable {slots : ℕ} {s s' : Admission}

theorem Kept.step {action : AdmissionAction} (h : Kept slots s)
    (hstep : s.step action = some s') : Kept slots s' := by
  cases action with
  | acquire =>
      simp only [Admission.step] at hstep
      split at hstep
      · cases hstep
        exact h
      · rename_i sem hsem
        cases hstep
        exact h.acquire hsem
  | submit i =>
      simp only [Admission.step] at hstep
      split at hstep
      · rename_i hwork
        cases hstep
        exact h.submit hwork
      · cases hstep
  | addDoneCallback i =>
      simp only [Admission.step] at hstep
      split at hstep
      · rename_i future invoked hwork
        cases hstep
        exact h.addDoneCallback hwork
      · cases hstep
  | start =>
      simp only [Admission.step] at hstep
      split at hstep
      · cases hstep
      · rename_i i rest hqueue
        split at hstep
        · cases hstep
        · cases hstep
          exact h.dequeuePending hqueue (by decide)
  | finish i =>
      simp only [Admission.step] at hstep
      split at hstep
      · rename_i callback invoked hwork
        cases hstep
        exact h.finish hwork
      · cases hstep
  | invoke i =>
      simp only [Admission.step] at hstep
      split at hstep
      · rename_i future callback hwork
        split at hstep
        · rename_i hdone
          cases hstep
          exact h.invoke hwork hdone
        · cases hstep
      · cases hstep
  | cancel i =>
      simp only [Admission.step] at hstep
      split at hstep
      · cases hstep
      · cases hstep
        exact h.movePending i (by decide)
      · cases hstep
  | shutdown =>
      cases hstep
      exact ⟨h.initial_eq, h.conserved, h.released, h.faultless, h.ordered,
        h.queued⟩
  | drain =>
      simp only [Admission.step] at hstep
      split at hstep
      · cases hstep
      · rename_i i rest hqueue
        split at hstep
        · cases hstep
          exact h.dequeuePending hqueue (by decide)
        · cases hstep

theorem Reaches.kept (h : Reaches slots s) : Kept slots s := by
  induction h with
  | new => exact kept_new slots
  | step action _ taken ih => exact ih.step taken

/-- The steps that the admission takes by itself. -/
def AdmissionAction.own : AdmissionAction → Bool
  | .submit _ => true
  | .addDoneCallback _ => true
  | .start => true
  | .finish _ => true
  | .invoke _ => true
  | _ => false

/-- Nothing is under way. -/
def Quiet (s : Admission) : Prop :=
  ∀ action : AdmissionAction, AdmissionAction.own action = true →
    s.step action = none

/-- What holds of an admission in every reachable state. -/
structure Sound (slots : ℕ) (s : Admission) : Prop where
  conserved : s.sem.value + s.works.countP Work.holds = slots
  released_once : s.releases = s.works.countP fun work => ¬work.holds
  no_value_error : s.valueErrors = 0
  working_holds : ∀ work ∈ s.works, work.unfinished = true →
    work.holds = true
  unfinished_le : s.works.countP Work.unfinished ≤ slots
  busy_iff : s.sem.acquire = none ↔ s.works.countP Work.holds = slots
  free_of_quiet : s.Quiet → s.sem.value = slots

theorem Kept.working_holds (h : Kept slots s) {work : Work}
    (hmem : work ∈ s.works) (hwork : work.unfinished = true) :
    work.holds = true := by
  have hordered := h.ordered work hmem
  cases work with
  | admitted => rfl
  | refused => cases hwork
  | submitted future callback invoked =>
      refine decide_eq_true fun hc => ?_
      simp only [Work.unfinished, hordered.1 hc, Bool.not_true,
        Bool.false_eq_true] at hwork

/-- With nothing under way no thread is occupied. -/
theorem Quiet.idle (hquiet : s.Quiet) : s.works.countP Work.onThread = 0 := by
  refine List.countP_eq_zero.mpr fun work hmem hthread => ?_
  obtain ⟨i, hi⟩ := List.getElem?_of_mem hmem
  match work, hthread with
  | .submitted .running callback invoked, _ =>
      have hfinish := hquiet (.finish i) rfl
      simp only [Admission.step, hi, reduceCtorEq] at hfinish
  | .submitted .finished callback false, _ =>
      have hinvoke := hquiet (.invoke i) rfl
      simp only [Admission.step, hi, FutureState.done, if_true,
        reduceCtorEq] at hinvoke

/-- With nothing under way no work holds a permit. -/
theorem Kept.released_of_quiet (h : Kept slots s) (hslots : 0 < slots)
    (hquiet : s.Quiet) {work : Work} (hmem : work ∈ s.works) :
    work.holds = false := by
  obtain ⟨i, hi⟩ := List.getElem?_of_mem hmem
  have hordered := h.ordered work hmem
  cases work with
  | admitted =>
      have hsubmit := hquiet (.submit i) rfl
      simp only [Admission.step, hi, reduceCtorEq] at hsubmit
  | refused => rfl
  | submitted future callback invoked =>
      have hcallback : callback ≠ .absent := by
        rintro rfl
        have hadd := hquiet (.addDoneCallback i) rfl
        simp only [Admission.step, hi, reduceCtorEq] at hadd
      have hfuture : future.done = true := by
        cases future with
        | pending =>
            have hqueued := h.queued i _ hi rfl
            have hstart := hquiet .start rfl
            have hne : slots ≠ 0 := Nat.ne_of_gt hslots
            obtain ⟨j, rest, hqueue⟩ := List.exists_cons_of_ne_nil
              (List.ne_nil_of_mem hqueued)
            simp only [Admission.step, hqueue, hquiet.idle, h.initial_eq,
              Nat.le_zero_eq, hne, if_false, reduceCtorEq] at hstart
        | running =>
            have hfinish := hquiet (.finish i) rfl
            simp only [Admission.step, hi, reduceCtorEq] at hfinish
        | cancelled => rfl
        | finished => rfl
      have hinvoked : invoked = true := by
        cases invoked with
        | true => rfl
        | false =>
            have hinvoke := hquiet (.invoke i) rfl
            simp only [Admission.step, hi, hfuture, if_true,
              reduceCtorEq] at hinvoke
      have hattached := (hordered.2 hinvoked).2
      cases callback with
      | absent => exact absurd rfl hcallback
      | attached => exact absurd rfl hattached
      | called => rfl

/-- In every interleaving a permit is free or held by exactly one unreleased
work, is released once and never in vain, is held while the work is queued or
runs, and is free again when nothing is under way. -/
theorem permits_conserved (hslots : 0 < slots) (h : Reaches slots s) :
    s.Sound slots := by
  have hkept := h.kept
  have hconserved := hkept.conserved
  have hsplit := List.length_eq_countP_add_countP Work.holds (l := s.works)
  refine ⟨hconserved, ?_, hkept.faultless,
    fun work hmem hwork => hkept.working_holds hmem hwork, ?_, ?_,
    fun hquiet => ?_⟩
  · have hreleased := hkept.released
    omega
  · have hle : s.works.countP Work.unfinished ≤ s.works.countP Work.holds :=
      List.countP_mono_left fun work hmem hwork =>
        hkept.working_holds hmem hwork
    omega
  · unfold BoundedSemaphore.acquire
    split
    · simp only [true_iff]
      omega
    · simp only [reduceCtorEq, false_iff]
      omega
  · have hnone : s.works.countP Work.holds = 0 := by
      refine List.countP_eq_zero.mpr fun work hmem => ?_
      rw [hkept.released_of_quiet hslots hquiet hmem]
      exact Bool.false_ne_true
    omega

theorem Reaches.steps (h : Reaches slots s) {actions : List AdmissionAction}
    (htaken : actions.foldlM Admission.step s = some s') :
    Reaches slots s' := by
  induction actions generalizing s with
  | nil =>
      cases htaken
      exact h
  | cons action rest ih =>
      obtain ⟨next, hnext, hrest⟩ := Option.bind_eq_some_iff.mp htaken
      exact ih (.step action h hnext) hrest

namespace AdmissionWitness

/-- One slot: a second request finds it taken, and the work of the first ends
before its callback is attached. -/
def actions : List AdmissionAction :=
  [.acquire, .submit 0, .start, .acquire, .finish 0, .invoke 0,
    .addDoneCallback 0]

def after : Admission where
  sem := ⟨1, 1⟩
  works := [.submitted .finished .called true]
  releases := 1

theorem run : actions.foldlM Admission.step (new 1) = some after := rfl

theorem permits_conserved_early_end :
    actions.foldlM Admission.step (new 1) = some after ∧ after.Sound 1 :=
  ⟨run, permits_conserved Nat.one_pos (Reaches.new.steps run)⟩

end AdmissionWitness

end Runs

end Admission

end PredictiveAutoscaler.Api
