/-
Who has to resolve a ticket, and the invariant of the worker: a ticket that is
not resolved has one owner, a signal has one such ticket, and what a thread
knows of its child is true.  A step of a fit keeps its ticket, and does not
lead its thread back.
-/
import PredictiveAutoscaler.Forecasting.FitWorker

namespace PredictiveAutoscaler.Forecasting.FitWorker

/-- A step of the worker's own: of one of its threads, of the timer of a fit,
or of a call of `close`. -/
inductive ParentStep (n : ℕ)
  | dequeue (i : Fin n)
  | start (i : Fin n)
  | expire (i : Fin n)
  | receive (i : Fin n)
  | join (i : Fin n)
  | reap (i : Fin n)
  | judge (i : Fin n)
  | publish (i : Fin n)
  | resolve (i : Fin n)
  | setDone (i : Fin n)
  | closeResolve (k : ℕ)
  | closeSetDone (k : ℕ)
deriving DecidableEq, Repr

/-- What an owner of a ticket does next, the instant from which it can, and
how much is left to do. -/
structure Stage (n : ℕ) where
  next : ParentStep n
  due : ℕ := 0
  left : ℕ
deriving DecidableEq, Repr

/-- A thread that waits for its child goes on at the child's deadline. -/
def Phase.stage {n : ℕ} (i : Fin n) : Phase → Stage n
  | .idle => { next := .dequeue i, left := 0 }
  | .returned => { next := .dequeue i, left := 0 }
  | .dequeued _ => { next := .start i, left := 11 }
  | .fitting fit step =>
      let alive := if fit.child.exited = none then 1 else 0
      match step with
      | .waiting => { next := .receive i, left := 9 + alive }
      | .received =>
          { next := .join i, due := fit.child.deadline, left := 7 + alive }
      | .joined =>
          if fit.child.exited = none then
            { next := .expire i, due := fit.child.deadline, left := 6 }
          else { next := .reap i, left := 5 }
  | .reaped _ => { next := .judge i, left := 4 }
  | .publishing _ => { next := .publish i, left := 3 }
  | .resolving _ _ => { next := .resolve i, left := 2 }
  | .resolved _ => { next := .setDone i, left := 1 }

/-- The ticket that a thread has still to resolve. -/
def Phase.ticket : Phase → Option ℕ
  | .dequeued t => some t
  | .fitting fit _ => some fit.ticket
  | .reaped fit => some fit.ticket
  | .publishing fit => some fit.ticket
  | .resolving t _ => some t
  | _ => none

/-- Who has to resolve a ticket. -/
inductive Owner (n : ℕ)
  | queue
  | thread (i : Fin n)
  | closer (k : ℕ)
deriving DecidableEq, Repr

/-- What the message and the exit of a child show, at an instant. -/
structure Fit.Sound (fit : Fit) (now : ℕ) : Prop where
  message : ∀ m, fit.message = some m → fit.child.sent = some m
  exited : ∀ code time, fit.child.exited = some (code, time) → time ≤ now

/-- The child sent an ok result and exited with code 0 by its deadline. -/
def Child.Clean (child : Child) : Prop :=
  child.sent = some .ok ∧ ∃ time, child.exited = some (0, time) ∧
    time ≤ child.deadline

/-- What a thread knows of its child, and that it returns only after close. -/
def Phase.Sound (now : ℕ) (closed : Bool) : Phase → Prop
  | .fitting fit _ => fit.Sound now
  | .reaped fit => fit.Sound now
  | .publishing fit => fit.child.Clean
  | .returned => closed = true
  | _ => True

section Ownership

variable {n : ℕ} (s : Worker n)

def Unresolved (t : ℕ) : Prop :=
  ∃ tk, s.tickets[t]? = some tk ∧ tk.result = none

def SignalOf (t : ℕ) (key : String) : Prop :=
  ∃ tk, s.tickets[t]? = some tk ∧ tk.signalKey = key

def Owns : Owner n → ℕ → Prop
  | .queue, t => t ∈ s.queue
  | .thread i, t => (s.threads i).ticket = some t
  | .closer k, t => ∃ c, s.closers[k]? = some c ∧ t ∈ c.dropped

/-- The owner is the queue or a thread. -/
def Owner.Active : Owner n → Prop
  | .closer _ => False
  | _ => True

/-- The invariant of the worker. -/
structure Sound (maxPending : ℕ) : Prop where
  owned : ∀ t, Unresolved s t ↔ ∃ o, Owns s o t
  unique : ∀ o o' t, Owns s o t → Owns s o' t → o = o'
  queue_nodup : s.queue.Nodup
  queue_le : s.queue.length ≤ maxPending
  dropped_nodup : ∀ c ∈ s.closers, c.dropped.Nodup
  /-- The worker's map names the ticket of a signal that is queued or with a
  thread. -/
  mapped : ∀ key t, s.bySignal key = some t ↔
    SignalOf s t key ∧ ∃ o : Owner n, o.Active ∧ Owns s o t
  single : ∀ key t t', SignalOf s t key → SignalOf s t' key →
    Unresolved s t → Unresolved s t' → t = t'
  drained : s.closed = true → s.queue = []
  closing : s.closers ≠ [] → s.closed = true
  phases : ∀ i, (s.threads i).Sound s.clock s.closed

end Ownership

section Frame

variable {n maxPending : ℕ} {s s' : Worker n}

/-- A step that leaves the tickets and their owners alone keeps the
invariant. -/
theorem Sound.frame (h : Sound s maxPending)
    (hunresolved : Unresolved s' = Unresolved s)
    (hsignal : SignalOf s' = SignalOf s) (howns : Owns s' = Owns s)
    (hqueue : s'.queue = s.queue) (hmap : s'.bySignal = s.bySignal)
    (hdropped : ∀ c ∈ s'.closers, c.dropped.Nodup)
    (hclosed : s'.closed = s.closed)
    (hclosers : s'.closers ≠ [] → s.closers ≠ [])
    (hphases : ∀ i, (s'.threads i).Sound s'.clock s'.closed) :
    Sound s' maxPending := by
  refine ⟨?_, ?_, ?_, ?_, hdropped, ?_, ?_, ?_, ?_, hphases⟩
  · rw [hunresolved, howns]
    exact h.owned
  · rw [howns]
    exact h.unique
  · rw [hqueue]
    exact h.queue_nodup
  · rw [hqueue]
    exact h.queue_le
  · rw [hmap, hsignal, howns]
    exact h.mapped
  · rw [hsignal, hunresolved]
    exact h.single
  · rw [hclosed, hqueue]
    exact h.drained
  · rw [hclosed]
    exact fun hne => h.closing (hclosers hne)

theorem owns_congr (hqueue : s'.queue = s.queue)
    (hthreads : ∀ i, (s'.threads i).ticket = (s.threads i).ticket)
    (hclosers : ∀ k : ℕ, (s'.closers[k]?).map Closer.dropped =
      (s.closers[k]?).map Closer.dropped) : Owns s' = Owns s := by
  funext o t
  cases o with
  | queue => simp only [Owns, hqueue]
  | thread i => simp only [Owns, hthreads]
  | closer k =>
      have hdropped : ∀ r : Worker n, Owns r (.closer k) t ↔
          ∃ d, (r.closers[k]?).map Closer.dropped = some d ∧ t ∈ d := by
        intro r
        simp [Owns, Option.map_eq_some_iff]
      rw [eq_iff_iff, hdropped, hdropped, hclosers]

/-- The same stage, or one with less left to do. -/
def Stage.Onward (a before : Stage n) : Prop :=
  a = before ∨ a.left < before.left

/-- A phase that comes after another with the same ticket. -/
structure Phase.Follows (i : Fin n) (phase before : Phase) : Prop where
  ticket : phase.ticket = before.ticket
  onward : (phase.stage i).Onward (before.stage i)

/-- At most the phase of one thread changes, and it keeps its ticket. -/
def Moves (s : Worker n) (i : Fin n) (s' : Worker n) : Prop :=
  s' = s ∨ ∃ phase : Phase, s' = s.setThread i phase ∧
    phase.Follows i (s.threads i) ∧
    ((s.threads i).Sound s.clock s.closed → phase.Sound s.clock s.closed)

theorem Sound.moves (h : Sound s maxPending) {i : Fin n} (hs : Moves s i s') :
    Sound s' maxPending := by
  rcases hs with rfl | ⟨phase, rfl, ⟨hticket, -⟩, hphase⟩
  · exact h
  have hthreads : ∀ j, ((s.setThread i phase).threads j).ticket =
      (s.threads j).ticket := by
    intro j
    by_cases hj : j = i
    · subst hj
      simpa [Worker.setThread] using hticket
    · simp [Worker.setThread, hj]
  refine h.frame rfl rfl (owns_congr rfl hthreads fun _ => rfl) rfl rfl
    h.dropped_nodup rfl id ?_
  intro j
  by_cases hj : j = i
  · subst hj
    simpa [Worker.setThread] using hphase (h.phases j)
  · simpa [Worker.setThread, hj] using h.phases j

end Frame

section Child

variable {fit : Fit} {now : ℕ}

theorem Fit.Sound.exit (h : fit.Sound now) (code : ℤ) (expired : Bool) :
    ({ fit with child := { fit.child with
        exited := fit.child.exited.or (some (code, now)), expired } } :
      Fit).Sound now := by
  refine ⟨h.message, ?_⟩
  intro c time hc
  dsimp only at hc
  cases hexited : fit.child.exited with
  | none =>
      rw [hexited] at hc
      cases hc
      exact le_rfl
  | some old =>
      rw [hexited] at hc
      exact h.exited c time (hexited.trans hc)

/-- A fit that is judged clean had a clean child. -/
theorem Fit.Sound.clean (h : fit.Sound now) (hjudge : fit.judge now = none) :
    fit.child.Clean := by
  unfold Fit.judge at hjudge
  split at hjudge
  · cases hjudge
  split at hjudge
  · cases hjudge
  rename_i hintime
  split at hjudge
  · cases hjudge
  · cases hjudge
  · rename_i time hmessage hexited
    exact ⟨h.message _ hmessage, time, hexited,
      (h.exited _ _ hexited).trans (by omega)⟩
  · cases hjudge

end Child

section Moves

variable {n : ℕ} (s : Worker n) (i : Fin n)

theorem start_moves (deadlineSeconds : ℕ) :
    Moves s i (start deadlineSeconds s i).1 := by
  unfold start
  cases hphase : s.threads i with
  | dequeued t =>
      dsimp only
      split
      · refine .inr ⟨_, rfl, ?_, fun _ => trivial⟩
        rw [hphase]
        exact ⟨rfl, .inr (by simp [Phase.stage])⟩
      · refine .inr ⟨_, rfl, ?_, fun _ => ⟨by simp, by simp⟩⟩
        rw [hphase]
        exact ⟨rfl, .inr (by simp [Phase.stage])⟩
  | _ => exact .inl rfl

theorem startRaises_moves : Moves s i (startRaises s i).1 := by
  unfold startRaises
  cases hphase : s.threads i with
  | dequeued t =>
      refine .inr ⟨_, rfl, ?_, fun _ => trivial⟩
      rw [hphase]
      exact ⟨rfl, .inr (by simp [Phase.stage])⟩
  | _ => exact .inl rfl

theorem childSends_moves (message : Message) :
    Moves s i (childSends s i message).1 := by
  unfold childSends
  cases hphase : s.threads i with
  | fitting fit step =>
      dsimp only
      split
      · rename_i hsilent
        refine .inr ⟨_, rfl, ?_⟩
        rw [hphase]
        refine ⟨⟨rfl, .inl (by cases step <;> rfl)⟩, ?_⟩
        intro h
        refine ⟨?_, h.exited⟩
        intro m hm
        rw [h.message m hm] at hsilent
        cases hsilent.2
      · exact .inl rfl
  | _ => exact .inl rfl

theorem childExits_moves (code : ℤ) : Moves s i (childExits s i code).1 := by
  unfold childExits
  cases hphase : s.threads i with
  | fitting fit step =>
      dsimp only
      split
      · rename_i halive
        refine .inr ⟨_, rfl, ?_⟩
        rw [hphase]
        refine ⟨⟨rfl, .inr ?_⟩, ?_⟩
        · cases step <;> simp [Phase.stage, Fit.onChild, halive]
        intro h
        have hexit := h.exit code fit.child.expired
        rwa [halive] at hexit
      · exact .inl rfl
  | _ => exact .inl rfl

/-- A killed child is still the child of its fit. -/
theorem kill_follows (fit : Fit) (step : FitStep) (now : ℕ) (expired : Bool) :
    (Phase.fitting (fit.onChild fun c => { c.kill now with expired })
      step).Follows i (.fitting fit step) := by
  refine ⟨rfl, ?_⟩
  cases hexited : fit.child.exited with
  | none =>
      right
      cases step <;> simp [Phase.stage, Fit.onChild, Child.kill, hexited]
  | some exit =>
      left
      cases step <;> simp [Phase.stage, Fit.onChild, Child.kill, hexited]

theorem expire_moves : Moves s i (expire s i).1 := by
  unfold expire
  cases hphase : s.threads i with
  | fitting fit step =>
      dsimp only
      split
      · refine .inr ⟨_, rfl, ?_⟩
        rw [hphase]
        exact ⟨kill_follows i fit step s.clock true,
          fun h => h.exit killed true⟩
      · exact .inl rfl
  | reaped fit =>
      dsimp only
      split
      · refine .inr ⟨_, rfl, ?_⟩
        rw [hphase]
        exact ⟨⟨rfl, .inl rfl⟩, fun h => h.exit killed true⟩
      · exact .inl rfl
  | _ => exact .inl rfl

theorem receive_moves (got : Bool) : Moves s i (receive s i got).1 := by
  unfold receive
  cases hphase : s.threads i with
  | fitting fit step =>
      cases step with
      | waiting =>
          refine .inr ⟨_, rfl, ?_⟩
          rw [hphase]
          refine ⟨⟨rfl, .inr ?_⟩, ?_⟩
          · exact Nat.add_lt_add_right (by decide) _
          intro h
          refine ⟨?_, h.exited⟩
          intro m hm
          cases got with
          | false => cases hm
          | true => exact hm
      | _ => exact .inl rfl
  | _ => exact .inl rfl

theorem receiveRaises_moves : Moves s i (receiveRaises s i).1 := by
  unfold receiveRaises
  cases hphase : s.threads i with
  | fitting fit step =>
      cases step with
      | waiting =>
          refine .inr ⟨_, rfl, ?_⟩
          rw [hphase]
          refine ⟨⟨rfl, .inr ?_⟩, fun h => ⟨h.message, h.exited⟩⟩
          simp only [Phase.stage]
          split <;> simp
      | _ => exact .inl rfl
  | _ => exact .inl rfl

theorem join_moves : Moves s i (join s i).1 := by
  unfold join
  cases hphase : s.threads i with
  | fitting fit step =>
      cases step with
      | received =>
          dsimp only
          split
          · rename_i hexited
            refine .inr ⟨_, rfl, ?_⟩
            rw [hphase]
            exact ⟨⟨rfl, .inr (by simp [Phase.stage, hexited])⟩, id⟩
          rename_i halive
          split
          · refine .inr ⟨_, rfl, ?_⟩
            rw [hphase]
            refine ⟨⟨rfl, .inr ?_⟩, fun h => h.exit killed true⟩
            simp [Phase.stage, Fit.onChild, Child.expire, Child.kill,
              of_not_not halive]
          · exact .inl rfl
      | _ => exact .inl rfl
  | _ => exact .inl rfl

theorem reap_moves : Moves s i (reap s i).1 := by
  unfold reap
  cases hphase : s.threads i with
  | fitting fit step =>
      cases step with
      | joined =>
          dsimp only
          split
          · exact .inl rfl
          · rename_i hexited
            refine .inr ⟨_, rfl, ?_⟩
            rw [hphase]
            exact ⟨⟨rfl, .inr (by simp [Phase.stage, hexited])⟩, id⟩
      | _ => exact .inl rfl
  | _ => exact .inl rfl

theorem judge_moves : Moves s i (judge s i).1 := by
  unfold judge
  cases hphase : s.threads i with
  | reaped fit =>
      dsimp only
      cases hjudge : fit.judge s.clock with
      | some result =>
          refine .inr ⟨_, rfl, ?_, fun _ => trivial⟩
          rw [hphase]
          exact ⟨rfl, .inr (by simp [Phase.stage])⟩
      | none =>
          refine .inr ⟨_, rfl, ?_⟩
          rw [hphase]
          exact ⟨⟨rfl, .inr (by simp [Phase.stage])⟩,
            fun h => Fit.Sound.clean h hjudge⟩
  | _ => exact .inl rfl

theorem publish_moves (promotion : Promotion) :
    Moves s i (publish s i promotion).1 := by
  unfold publish
  cases hphase : s.threads i with
  | publishing fit =>
      dsimp only
      split
      · refine .inr ⟨_, rfl, ?_, fun _ => trivial⟩
        rw [hphase]
        exact ⟨rfl, .inr (by simp [Phase.stage])⟩
      · refine .inr ⟨_, rfl, ?_, fun _ => trivial⟩
        rw [hphase]
        exact ⟨rfl, .inr (by simp [Phase.stage])⟩
  | _ => exact .inl rfl

/-- The thread whose fit an event advances. -/
def WorkerEvent.fitThread : WorkerEvent n → Option (Fin n)
  | .start i => some i
  | .startRaises i => some i
  | .childSends i _ => some i
  | .childExits i _ => some i
  | .expire i => some i
  | .receive i _ => some i
  | .receiveRaises i => some i
  | .join i => some i
  | .reap i => some i
  | .judge i => some i
  | .publish i _ => some i
  | _ => none

variable {s i} {maxPending deadlineSeconds : ℕ} {event : WorkerEvent n}

theorem fit_moves (h : event.fitThread = some i) :
    Moves s i (workerStep maxPending deadlineSeconds s event).1 := by
  cases event with
  | start j => cases h; exact start_moves s i deadlineSeconds
  | startRaises j => cases h; exact startRaises_moves s i
  | childSends j message => cases h; exact childSends_moves s i message
  | childExits j code => cases h; exact childExits_moves s i code
  | expire j => cases h; exact expire_moves s i
  | receive j got => cases h; exact receive_moves s i got
  | receiveRaises j => cases h; exact receiveRaises_moves s i
  | join j => cases h; exact join_moves s i
  | reap j => cases h; exact reap_moves s i
  | judge j => cases h; exact judge_moves s i
  | publish j promotion => cases h; exact publish_moves s i promotion
  | _ => cases h

/-- A fit is over once its result is there. -/
theorem fit_resolving {t : ℕ} {result : FitResult}
    (hphase : s.threads i = .resolving t result)
    (h : event.fitThread = some i) :
    (workerStep maxPending deadlineSeconds s event).1 = s := by
  cases event with
  | start j => cases h; simp [workerStep, start, hphase]
  | startRaises j => cases h; simp [workerStep, startRaises, hphase]
  | childSends j message => cases h; simp [workerStep, childSends, hphase]
  | childExits j code => cases h; simp [workerStep, childExits, hphase]
  | expire j => cases h; simp [workerStep, expire, hphase]
  | receive j got => cases h; simp [workerStep, receive, hphase]
  | receiveRaises j => cases h; simp [workerStep, receiveRaises, hphase]
  | join j => cases h; simp [workerStep, join, hphase]
  | reap j => cases h; simp [workerStep, reap, hphase]
  | judge j => cases h; simp [workerStep, judge, hphase]
  | publish j promotion => cases h; simp [workerStep, publish, hphase]
  | _ => cases h

end Moves

end PredictiveAutoscaler.Forecasting.FitWorker
