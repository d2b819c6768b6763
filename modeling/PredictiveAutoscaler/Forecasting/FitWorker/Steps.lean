/-
What a step of the worker can do, said once, and what follows for its parts:
the clock, the queue, a thread, a call of close, and a result that is set.
-/
import PredictiveAutoscaler.Forecasting.FitWorker.Resolution
import PredictiveAutoscaler.Run

namespace PredictiveAutoscaler.Forecasting.FitWorker

variable {n maxPending deadlineSeconds : ℕ} {s s' : Worker n} {t : ℕ}
  {event : WorkerEvent n}

/-- The worker after an event. -/
inductive Stepped (s : Worker n) : WorkerEvent n → Worker n → Prop
  | same (event : WorkerEvent n) : Stepped s event s
  | ticked (seconds : ℕ) :
      Stepped s (.tick seconds) { s with clock := s.clock + seconds }
  | admitted (key : String) (hopen : s.closed = false) :
      Stepped s (.submit key) (s.enqueue key)
  | returned (i : Fin n) (hidle : s.threads i = .idle)
      (hclosed : s.closed = true) :
      Stepped s (.dequeue i) (s.setThread i .returned)
  | took (i : Fin n) (t : ℕ) (rest : List ℕ) (hidle : s.threads i = .idle)
      (hqueue : s.queue = t :: rest) : Stepped s (.dequeue i) (s.take i t rest)
  | moved (event : WorkerEvent n) (i : Fin n) (phase : Phase)
      (hfit : event.fitThread = some i)
      (hfollows : phase.Follows i (s.threads i))
      (hfitting : ∀ t result, s.threads i ≠ .resolving t result) :
      Stepped s event (s.setThread i phase)
  | resolved (i : Fin n) (t : ℕ) (result : FitResult)
      (hphase : s.threads i = .resolving t result)
      (bySignal : String → Option ℕ) :
      Stepped s (.resolve i)
        ({ s.setResult t result with bySignal }.setThread i (.resolved t))
  | finished (i : Fin n) (t : ℕ) (hphase : s.threads i = .resolved t) :
      Stepped s (.setDone i) ((s.setTicketDone t).setThread i .idle)
  | closed (bySignal : String → Option ℕ) :
      Stepped s .close
        { s with
          closed := true
          queue := []
          bySignal
          threads := fun i => (s.threads i).killChild s.clock
          closers := s.closers ++ [{ dropped := s.queue }] }
  | closeResolved (k t : ℕ) (rest : List ℕ)
      (hc : s.closers[k]? = some ⟨t :: rest, none⟩) :
      Stepped s (.closeResolve k)
        ((s.setResult t (.failed .resource)).setCloser k ⟨rest, some t⟩)
  | closeFinished (k t : ℕ) (rest : List ℕ)
      (hc : s.closers[k]? = some ⟨rest, some t⟩) :
      Stepped s (.closeSetDone k) ((s.setTicketDone t).setCloser k ⟨rest, none⟩)

theorem fit_stepped {i : Fin n} (hfit : event.fitThread = some i) :
    Stepped s event (workerStep maxPending deadlineSeconds s event).1 := by
  by_cases hfitting : ∀ t result, s.threads i ≠ .resolving t result
  · have hmoves : Moves s i _ := @fit_moves n s i maxPending deadlineSeconds
      event hfit
    rcases hmoves with heq | ⟨phase, heq, hfollows, -⟩
    · rw [heq]
      exact .same event
    · rw [heq]
      exact .moved event i phase hfit hfollows hfitting
  · push Not at hfitting
    obtain ⟨t, result, hphase⟩ := hfitting
    rw [fit_resolving hphase hfit]
    exact .same event

/-- Every step is one of these. -/
theorem workerStep_stepped (s : Worker n) (event : WorkerEvent n) :
    Stepped s event (workerStep maxPending deadlineSeconds s event).1 := by
  cases hfit : event.fitThread with
  | some i => exact fit_stepped hfit
  | none =>
      cases event with
      | tick seconds => exact .ticked seconds
      | submit key =>
          rcases submit_cases s maxPending key with heq | ⟨hopen, -, -, heq⟩
          · rw [workerStep, heq]
            exact .same _
          · rw [workerStep, heq]
            exact .admitted key hopen
      | dequeue i =>
          rcases dequeue_cases s i with ⟨heq, -⟩ |
            ⟨hidle, ⟨hclosed, heq⟩ | ⟨t, rest, -, hqueue, heq⟩⟩
          · rw [workerStep, heq]
            exact .same _
          · rw [workerStep, heq]
            exact .returned i hidle hclosed
          · rw [workerStep, heq]
            exact .took i t rest hidle hqueue
      | resolve i =>
          simp only [workerStep, resolve]
          split
          · rename_i t result hphase
            rw [Worker.release_eq]
            exact .resolved i t result hphase _
          · exact .same _
      | setDone i =>
          simp only [workerStep, setDone]
          split
          · rename_i t hphase
            exact .finished i t hphase
          · exact .same _
      | close =>
          rw [workerStep, close_eq]
          exact .closed _
      | closeResolve k =>
          simp only [workerStep, closeResolve]
          split
          · rename_i t rest hc
            exact .closeResolved k t rest hc
          · exact .same _
      | closeSetDone k =>
          simp only [workerStep, closeSetDone]
          split
          · rename_i rest t hc
            exact .closeFinished k t rest hc
          · exact .same _
      | closeReturn k =>
          simp only [workerStep, closeReturn]
          split <;> exact .same _
      | _ => cases hfit

/-- A closed worker stays closed. -/
theorem Stepped.closed_of_closed (h : Stepped s event s')
    (hclosed : s.closed = true) : s'.closed = true := by
  cases h with
  | closed bySignal => rfl
  | _ => exact hclosed

/-- A closed worker admits nothing. -/
theorem Stepped.length_eq (h : Stepped s event s') (hclosed : s.closed = true) :
    s'.tickets.length = s.tickets.length := by
  cases h with
  | admitted key hopen =>
      rw [hclosed] at hopen
      cases hopen
  | resolved i t result hphase bySignal =>
      simp [Worker.setThread, Worker.setResult]
  | finished i t hphase => simp [Worker.setThread, Worker.setTicketDone]
  | closeResolved k t rest hc => simp [Worker.setCloser, Worker.setResult]
  | closeFinished k t rest hc => simp [Worker.setCloser, Worker.setTicketDone]
  | _ => rfl

/-- The queue grows at its end, but for `dequeue` and `close`. -/
theorem Stepped.queue_grows (h : Stepped s event s')
    (hdequeue : ∀ j, event ≠ .dequeue j) (hclose : event ≠ .close) :
    ∃ more, s'.queue = s.queue ++ more := by
  cases h with
  | admitted key hopen => exact ⟨_, rfl⟩
  | returned i hidle hclosed => exact absurd rfl (hdequeue i)
  | took i t rest hidle hqueue => exact absurd rfl (hdequeue i)
  | closed bySignal => exact absurd rfl hclose
  | _ => exact ⟨[], (List.append_nil _).symm⟩

/-- A call of close is touched by its own steps only. -/
theorem Stepped.closer_eq (h : Stepped s event s') {k : ℕ} {c : Closer}
    (hc : s.closers[k]? = some c) (hresolve : event ≠ .closeResolve k)
    (hdone : event ≠ .closeSetDone k) : s'.closers[k]? = some c := by
  cases h with
  | closed bySignal => exact getElem?_snoc_of_some _ hc
  | closeResolved k' t rest hc' =>
      have hne : k' ≠ k := by
        rintro rfl
        exact hresolve rfl
      simpa [Worker.setCloser, Worker.setResult, hne] using hc
  | closeFinished k' t rest hc' =>
      have hne : k' ≠ k := by
        rintro rfl
        exact hdone rfl
      simpa [Worker.setCloser, Worker.setTicketDone, hne] using hc
  | _ => exact hc

/-- A thread that has a result keeps it until it resolves its ticket. -/
theorem Stepped.resolving (h : Stepped s event s') {i : Fin n}
    {result : FitResult} (hphase : s.threads i = .resolving t result) :
    s'.threads i = .resolving t result ∨ event = .resolve i := by
  have hother : ∀ {j : Fin n} {phase : Phase}, i ≠ j →
      (s.setThread j phase).threads i = .resolving t result := by
    intro j phase hij
    simp [Worker.setThread, hij, hphase]
  cases h with
  | returned j hidle hclosed =>
      refine .inl (hother ?_)
      rintro rfl
      rw [hphase] at hidle
      cases hidle
  | took j t rest hidle hqueue =>
      refine .inl (hother ?_)
      rintro rfl
      rw [hphase] at hidle
      cases hidle
  | moved event j phase hfit hfollows hfitting =>
      refine .inl (hother ?_)
      rintro rfl
      exact hfitting t result hphase
  | resolved j x result hphase' bySignal =>
      by_cases hij : i = j
      · exact .inr (congrArg _ hij.symm)
      · exact .inl (hother hij)
  | finished j x hphase' =>
      refine .inl (hother ?_)
      rintro rfl
      rw [hphase] at hphase'
      cases hphase'
  | closed bySignal =>
      left
      simp [hphase, Phase.killChild]
  | _ => exact .inl hphase

theorem Phase.Follows.refl {i : Fin n} (phase : Phase) :
    phase.Follows i phase :=
  ⟨rfl, .inl rfl⟩

theorem killChild_follows {j : Fin n} (phase : Phase) (now : ℕ) :
    (phase.killChild now).Follows j phase := by
  cases phase with
  | fitting fit step => exact kill_follows j fit step now fit.child.expired
  | _ => exact .refl _

/-- A thread goes on with its ticket, takes one or has resolved it. -/
theorem Stepped.thread (h : Stepped s event s') (j : Fin n) :
    (s'.threads j).Follows j (s.threads j) ∨
      (event = .dequeue j ∧ s.threads j = .idle) ∨
      ∃ t result, event = .resolve j ∧ s.threads j = .resolving t result ∧
        s'.threads j = .resolved t := by
  have hother : ∀ {i : Fin n} {phase : Phase}, j ≠ i →
      ((s.setThread i phase).threads j).Follows j (s.threads j) := by
    intro i phase hji
    simp only [Worker.setThread, Function.update_of_ne hji]
    exact .refl _
  cases h with
  | returned i hidle hclosed =>
      by_cases hji : j = i
      · exact .inr (.inl ⟨by rw [hji], by rw [hji, hidle]⟩)
      · exact .inl (hother hji)
  | took i t rest hidle hqueue =>
      by_cases hji : j = i
      · exact .inr (.inl ⟨by rw [hji], by rw [hji, hidle]⟩)
      · exact .inl (hother hji)
  | moved event i phase hfit hfollows hfitting =>
      left
      by_cases hji : j = i
      · subst hji
        simpa [Worker.setThread] using hfollows
      · exact hother hji
  | resolved i t result hphase bySignal =>
      by_cases hji : j = i
      · subst hji
        exact .inr (.inr ⟨t, result, rfl, hphase, by simp [Worker.setThread]⟩)
      · exact .inl (hother hji)
  | finished i t hphase =>
      left
      by_cases hji : j = i
      · subst hji
        simp only [Worker.setThread, Function.update_self, hphase]
        exact ⟨rfl, .inr (by simp [Phase.stage])⟩
      · exact hother hji
  | closed bySignal => exact .inl (killChild_follows _ _)
  | _ => exact .inl (.refl _)

end PredictiveAutoscaler.Forecasting.FitWorker
