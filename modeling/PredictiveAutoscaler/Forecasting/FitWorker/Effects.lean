/-
What a step of the worker shows to others, and that no step takes the result
of a ticket back.
-/
import PredictiveAutoscaler.Forecasting.FitWorker.Steps

namespace PredictiveAutoscaler.Forecasting.FitWorker

section Effects

variable {n maxPending deadlineSeconds : ℕ} {s : Worker n} {t : ℕ}

def Resolved (s : Worker n) (t : ℕ) : Prop :=
  ∃ tk, s.tickets[t]? = some tk ∧ tk.result ≠ none

theorem Resolved.not_unresolved (h : Resolved s t) : ¬Unresolved s t := by
  rintro ⟨tk, htk, hnone⟩
  obtain ⟨tk', htk', hne⟩ := h
  rw [htk] at htk'
  cases htk'
  exact hne hnone

theorem resolved_or_unresolved (h : t < s.tickets.length) :
    Resolved s t ∨ Unresolved s t := by
  have hget := List.getElem?_eq_getElem h
  by_cases hnone : s.tickets[t].result = none
  · exact .inr ⟨_, hget, hnone⟩
  · exact .inl ⟨_, hget, hnone⟩

theorem Resolved.setResult (h : Resolved s t) (x : ℕ) (result : FitResult) :
    Resolved (s.setResult x result) t := by
  obtain ⟨tk, htk, hne⟩ := h
  by_cases hx : x = t
  · subst hx
    exact ⟨{ tk with result := some result }, by simp [Worker.setResult, htk],
      by simp⟩
  · exact ⟨tk, by simp [Worker.setResult, hx, htk], hne⟩

theorem Resolved.setTicketDone (h : Resolved s t) (x : ℕ) :
    Resolved (s.setTicketDone x) t := by
  obtain ⟨tk, htk, hne⟩ := h
  obtain ⟨f, hf, hget⟩ := setTicketDone_getElem? s x t
  refine ⟨f tk, by rw [hget, htk]; rfl, ?_⟩
  rwa [(hf tk).1]

/-- A result is never taken back. -/
theorem Resolved.stepped {s' : Worker n} {event : WorkerEvent n}
    (h : Resolved s t) (hs : Stepped s event s') : Resolved s' t := by
  cases hs with
  | admitted key hopen =>
      obtain ⟨tk, htk, hne⟩ := h
      exact ⟨tk, getElem?_snoc_of_some _ htk, hne⟩
  | resolved i x result hphase bySignal => exact h.setResult x result
  | finished i x hphase => exact h.setTicketDone x
  | closeResolved k x rest hc => exact h.setResult x _
  | closeFinished k x rest hc => exact h.setTicketDone x
  | _ => exact h

/-- What a step that has an effect found, and what it left. -/
def Shows (s s' : Worker n) : Effect → Prop
  | .admitted _ => True
  | .started t => s.closed = false ∧ ∃ i, s.threads i = .dequeued t
  | .published t => s.closed = false ∧ ∃ i fit result,
      s.threads i = .publishing fit ∧ fit.ticket = t ∧
        s' = s.setThread i (.resolving t result)
  | .resolved t => (∃ o, Owns s o t) ∧
      ((∃ tk, s.tickets[t]? = some tk) → Resolved s' t)
  | .closeReturned k => s.closers[k]? = some ⟨[], none⟩ ∧
      ∀ i, s.threads i = .returned

theorem resolved_setResult (s : Worker n) (t : ℕ) (result : FitResult)
    (h : ∃ tk, s.tickets[t]? = some tk) :
    Resolved (s.setResult t result) t := by
  obtain ⟨tk, htk⟩ := h
  exact ⟨{ tk with result := some result }, by simp [Worker.setResult, htk],
    by simp⟩

/-- The events whose step others do not see. -/
def WorkerEvent.Quiet : WorkerEvent n → Prop
  | .submit _ => False
  | .start _ => False
  | .publish _ _ => False
  | .resolve _ => False
  | .closeResolve _ => False
  | .closeReturn _ => False
  | _ => True

theorem effect_of_quiet {event : WorkerEvent n} (h : event.Quiet) :
    (workerStep maxPending deadlineSeconds s event).2 = none := by
  cases event with
  | tick seconds => rfl
  | close => rfl
  | dequeue i =>
      simp only [workerStep, dequeue]
      repeat' split
      all_goals rfl
  | startRaises i => simp only [workerStep, startRaises]; split <;> rfl
  | childSends i message =>
      simp only [workerStep, childSends]
      repeat' split
      all_goals rfl
  | childExits i code =>
      simp only [workerStep, childExits]
      repeat' split
      all_goals rfl
  | expire i =>
      simp only [workerStep, expire]
      repeat' split
      all_goals rfl
  | receive i got => simp only [workerStep, receive]; split <;> rfl
  | receiveRaises i => simp only [workerStep, receiveRaises]; split <;> rfl
  | join i =>
      simp only [workerStep, join]
      repeat' split
      all_goals rfl
  | reap i =>
      simp only [workerStep, reap]
      repeat' split
      all_goals rfl
  | judge i =>
      simp only [workerStep, judge]
      repeat' split
      all_goals rfl
  | setDone i => simp only [workerStep, setDone]; split <;> rfl
  | closeSetDone k => simp only [workerStep, closeSetDone]; split <;> rfl
  | _ => exact h.elim

section Shows

variable {effect : Effect}

theorem submit_shows {key : String}
    (h : (submit maxPending s key).2 = some effect) :
    Shows s (submit maxPending s key).1 effect := by
  simp only [submit] at h
  repeat' split at h
  all_goals cases h
  exact trivial

theorem start_shows {i : Fin n}
    (h : (start deadlineSeconds s i).2 = some effect) :
    Shows s (start deadlineSeconds s i).1 effect := by
  simp only [start] at h
  split at h
  · rename_i t hphase
    split at h
    · cases h
    · rename_i hopen
      cases h
      exact ⟨by simpa using hopen, i, hphase⟩
  · cases h

theorem publish_shows {i : Fin n} {promotion : Promotion}
    (h : (publish s i promotion).2 = some effect) :
    Shows s (publish s i promotion).1 effect := by
  simp only [publish] at h ⊢
  split at h
  · rename_i fit hphase
    split at h
    · cases h
    · rename_i hopen
      cases h
      exact ⟨by simpa using hopen, i, fit, _, hphase, rfl,
        congrArg Prod.fst (if_neg hopen)⟩
  · cases h

theorem resolve_shows {i : Fin n} (h : (resolve s i).2 = some effect) :
    Shows s (resolve s i).1 effect := by
  simp only [resolve] at h ⊢
  split at h
  · rename_i t result hphase
    cases h
    refine ⟨⟨.thread i, by simp [Owns, hphase, Phase.ticket]⟩, ?_⟩
    intro htk
    dsimp only
    rw [Worker.release_eq]
    exact resolved_setResult s t result htk
  · cases h

theorem closeResolve_shows {k : ℕ} (h : (closeResolve s k).2 = some effect) :
    Shows s (closeResolve s k).1 effect := by
  simp only [closeResolve] at h ⊢
  split at h
  · rename_i t rest hcloser
    cases h
    refine ⟨⟨.closer k, _, hcloser, List.mem_cons_self⟩, ?_⟩
    intro htk
    exact resolved_setResult s t _ htk
  · cases h

theorem closeReturn_shows {k : ℕ} (h : (closeReturn s k).2 = some effect) :
    Shows s (closeReturn s k).1 effect := by
  simp only [closeReturn] at h
  split at h
  · rename_i hreturn
    cases h
    exact hreturn
  · cases h

theorem workerStep_shows {event : WorkerEvent n}
    (h : (workerStep maxPending deadlineSeconds s event).2 = some effect) :
    Shows s (workerStep maxPending deadlineSeconds s event).1 effect := by
  by_cases hquiet : event.Quiet
  · rw [effect_of_quiet hquiet] at h
    cases h
  cases event with
  | submit key => exact submit_shows h
  | start i => exact start_shows h
  | publish i promotion => exact publish_shows h
  | resolve i => exact resolve_shows h
  | closeResolve k => exact closeResolve_shows h
  | closeReturn k => exact closeReturn_shows h
  | _ => exact absurd trivial hquiet

end Shows

end Effects

end PredictiveAutoscaler.Forecasting.FitWorker
