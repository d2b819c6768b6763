/-
The protocol of the worker: what holds at every moment of a run, what each
step may do, in which order steps come, and that a fair run resolves every
ticket.  A close that no other close overlaps leaves nothing unresolved.
-/
import PredictiveAutoscaler.Forecasting.FitWorker.Fairness
import Mathlib.Data.Nat.Pairing

namespace PredictiveAutoscaler.Forecasting.FitWorker

section Runs

variable {n maxPending deadlineSeconds : ℕ}

/-- One step of a run. -/
abbrev WorkerEntry (n : ℕ) := Entry (Worker n) (WorkerEvent n) (Option Effect)

/-- No call of close still holds tickets that it took off the queue. -/
def Released (s : Worker n) : Prop := ∀ c ∈ s.closers, c.dropped = []

/-- What a step may do. -/
def Allowed (e : WorkerEntry n) : Prop :=
  match e.report with
  | some (.started t) => e.before.closed = false ∧
      ∀ i fit step key, e.before.threads i = .fitting fit step →
        SignalOf e.before fit.ticket key → ¬SignalOf e.before t key
  | some (.published t) => e.before.closed = false ∧
      ∃ i fit, e.before.threads i = .publishing fit ∧ fit.ticket = t ∧
        fit.child.Clean
  | some (.closeReturned _) => e.before.closed = true ∧
      ((∀ t, ¬Unresolved e.before t) ↔ Released e.before)
  | _ => True

/-- Two steps of a run, in order: a ticket is published and resolved once, and
after close nothing is started or published and no ticket is admitted. -/
structure Ordered (e e' : WorkerEntry n) : Prop where
  published : ∀ t, e.report = some (.published t) →
    e'.report ≠ some (.published t)
  resolved : ∀ t, e.report = some (.resolved t) →
    e'.report ≠ some (.resolved t)
  closed : e.before.closed = true → ∀ t, e'.report ≠ some (.started t) ∧
    e'.report ≠ some (.published t)
  settled : e.before.closed = true → (∀ t, ¬Unresolved e.before t) →
    ∀ t, ¬Unresolved e'.before t

theorem Sound.exists_ticket {s : Worker n} (h : Sound s maxPending)
    {o : Owner n} {t : ℕ} (ho : Owns s o t) :
    ∃ tk, s.tickets[t]? = some tk := by
  obtain ⟨tk, htk, -⟩ := (h.owned t).mpr ⟨o, ho⟩
  exact ⟨tk, htk⟩

/-- What a state remembers of an earlier step. -/
structure Since (e : WorkerEntry n) (s : Worker n) : Prop where
  published : ∀ t, e.report = some (.published t) →
    Resolved s t ∨ ∃ i result, s.threads i = .resolving t result
  resolved : ∀ t, e.report = some (.resolved t) → Resolved s t
  closed : e.before.closed = true → s.closed = true
  settled : e.before.closed = true → (∀ t, ¬Unresolved e.before t) →
    ∀ t, ¬Unresolved s t

theorem settled_step {s : Worker n} (hclosed : s.closed = true)
    (event : WorkerEvent n) (hall : ∀ t, ¬Unresolved s t) (t : ℕ) :
    ¬Unresolved (workerStep maxPending deadlineSeconds s event).1 t := by
  intro ht
  have hlt : t < s.tickets.length := by
    rw [← (workerStep_stepped s event).length_eq hclosed]
    exact ht.lt_length
  have hresolved := (resolved_or_unresolved hlt).resolve_right (hall t)
  exact (hresolved.stepped (workerStep_stepped s event)).not_unresolved ht

theorem Since.step {e : WorkerEntry n} {s : Worker n} (h : Since e s)
    (hs : Sound s maxPending) (event : WorkerEvent n) :
    Since e (workerStep maxPending deadlineSeconds s event).1 where
  published t he := by
    rcases h.published t he with hresolved | ⟨i, result, hphase⟩
    · exact .inl (hresolved.stepped (workerStep_stepped s event))
    rcases (workerStep_stepped s event).resolving hphase with hkept | rfl
    · exact .inr ⟨i, result, hkept⟩
    · left
      have ho : Owns s (.thread i) t := by simp [Owns, hphase, Phase.ticket]
      have heffect : (workerStep maxPending deadlineSeconds s (.resolve i)).2 =
          some (.resolved t) := by
        simp [workerStep, resolve, hphase]
      exact (workerStep_shows heffect).2 (hs.exists_ticket ho)
  resolved t he := (h.resolved t he).stepped (workerStep_stepped s event)
  closed he := (workerStep_stepped s event).closed_of_closed (h.closed he)
  settled he hall := settled_step (h.closed he) event (h.settled he hall)

theorem Since.ordered {e : WorkerEntry n} {s : Worker n} (h : Since e s)
    (hs : Sound s maxPending) (event : WorkerEvent n) :
    Ordered e (entryAt (workerStep maxPending deadlineSeconds) s event) where
  published t he heffect := by
    obtain ⟨-, i, fit, result, hphase, hticket, -⟩ := workerStep_shows heffect
    have ho : Owns s (.thread i) t := by
      simp [Owns, hphase, Phase.ticket, hticket]
    rcases h.published t he with hresolved | ⟨j, result', hphase'⟩
    · exact hresolved.not_unresolved ((hs.owned t).mpr ⟨_, ho⟩)
    · have ho' : Owns s (.thread j) t := by simp [Owns, hphase', Phase.ticket]
      cases hs.unique _ _ _ ho ho'
      rw [hphase] at hphase'
      cases hphase'
  resolved t he heffect := by
    obtain ⟨ho, -⟩ := workerStep_shows heffect
    exact (h.resolved t he).not_unresolved ((hs.owned t).mpr ho)
  closed he t := by
    have hclosed := h.closed he
    constructor
    · intro heffect
      have hopen := (workerStep_shows heffect).1
      rw [hclosed] at hopen
      cases hopen
    · intro heffect
      have hopen := (workerStep_shows heffect).1
      rw [hclosed] at hopen
      cases hopen
  settled he hall := h.settled he hall

namespace FitWorkerWitness

/-- A clean child, whose artifact is published. -/
def clean : List (WorkerEvent 1) :=
  [.submit "web", .dequeue 0, .start 0, .childSends 0 .ok, .childExits 0 0,
    .receive 0 true, .join 0, .reap 0, .judge 0, .publish 0 .promoted,
    .resolve 0, .setDone 0, .close, .dequeue 0, .closeReturn 0]

example :
    ((runTrace (workerStep 8 30) ({} : Worker 1) clean).map
      Entry.report).reduceOption =
    [.admitted 0, .started 0, .published 0, .resolved 0, .closeReturned 0] := by
  decide +kernel

end FitWorkerWitness

end Runs

end PredictiveAutoscaler.Forecasting.FitWorker
