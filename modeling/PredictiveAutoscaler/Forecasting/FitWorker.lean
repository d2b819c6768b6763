/-
The fit worker: admission, the worker threads, their child processes with one
deadline each, and close, as interleaved steps in which every section under
the worker's lock is atomic.
-/
import Mathlib.Data.Fintype.Basic
import Mathlib.Logic.Function.Basic

namespace PredictiveAutoscaler.Forecasting.FitWorker

inductive FailureReason
  | history
  | numeric
  | timeout
  | resource
  | storage
deriving DecidableEq, Repr

inductive FitResult
  | promoted
  | unchanged
  | failed (reason : FailureReason)
deriving DecidableEq, Repr

/-- The one message of a child. -/
inductive Message
  | ok
  | error (reason : FailureReason)
deriving DecidableEq, Repr

/-- What the store does with an artifact. -/
inductive Promotion
  | promoted
  | unchanged
  | raises
deriving DecidableEq, Repr

structure Ticket where
  signalKey : String
  result : Option FitResult := none
  done : Bool := false
deriving DecidableEq, Repr

/-- A fit process: what it sent, and its exit code with the instant of its
exit.  `expired` is the event of its timer. -/
structure Child where
  deadline : ℕ
  sent : Option Message := none
  exited : Option (ℤ × ℕ) := none
  expired : Bool := false
deriving DecidableEq, Repr

/-- A running fit; `raised` when reading the message raised. -/
structure Fit where
  ticket : ℕ
  child : Child
  message : Option Message := none
  raised : Bool := false
deriving DecidableEq, Repr

/-- How far the parent is with a fit whose child is not reaped. -/
inductive FitStep
  | waiting
  | received
  | joined
deriving DecidableEq, Repr

/-- Where a worker thread is in `_loop` and `_run`. -/
inductive Phase
  | idle
  | returned
  | dequeued (ticket : ℕ)
  | fitting (fit : Fit) (step : FitStep)
  | reaped (fit : Fit)
  | publishing (fit : Fit)
  | resolving (ticket : ℕ) (result : FitResult)
  | resolved (ticket : ℕ)
deriving DecidableEq, Repr

/-- A call of `close` after its locked section: the queued tickets it dropped
and still has to resolve, and the one whose result is set. -/
structure Closer where
  dropped : List ℕ
  finishing : Option ℕ := none
deriving DecidableEq, Repr

/-- The worker with `n` threads; a ticket is named by its place in
`tickets`. -/
structure Worker (n : ℕ) where
  clock : ℕ := 0
  closed : Bool := false
  queue : List ℕ := []
  bySignal : String → Option ℕ := fun _ => none
  tickets : List Ticket := []
  threads : Fin n → Phase := fun _ => .idle
  closers : List Closer := []

/-- A step of a caller, of a thread, of a child or its timer, or of a call of
`close`. -/
inductive WorkerEvent (n : ℕ)
  | tick (seconds : ℕ)
  | submit (signalKey : String)
  | dequeue (i : Fin n)
  | start (i : Fin n)
  /-- The pipe or the process cannot be made. -/
  | startRaises (i : Fin n)
  | childSends (i : Fin n) (message : Message)
  | childExits (i : Fin n) (code : ℤ)
  | expire (i : Fin n)
  /-- The poll ends: with the message, or without one. -/
  | receive (i : Fin n) (got : Bool)
  | receiveRaises (i : Fin n)
  /-- The bounded join ends; a child that is still alive is killed. -/
  | join (i : Fin n)
  | reap (i : Fin n)
  | judge (i : Fin n)
  | publish (i : Fin n) (promotion : Promotion)
  | resolve (i : Fin n)
  | setDone (i : Fin n)
  | close
  | closeResolve (k : ℕ)
  | closeSetDone (k : ℕ)
  | closeReturn (k : ℕ)
deriving DecidableEq, Repr

/-- What a step did that others can see. -/
inductive Effect
  | admitted (ticket : ℕ)
  | started (ticket : ℕ)
  /-- The artifact is handed to the store. -/
  | published (ticket : ℕ)
  | resolved (ticket : ℕ)
  | closeReturned (k : ℕ)
deriving DecidableEq, Repr

/-- The exit code of a killed process. -/
def killed : ℤ := -9

def Child.kill (child : Child) (now : ℕ) : Child :=
  { child with exited := child.exited.or (some (killed, now)) }

def Child.expire (child : Child) (now : ℕ) : Child :=
  { child.kill now with expired := true }

def Fit.onChild (fit : Fit) (f : Child → Child) : Fit :=
  { fit with child := f fit.child }

/-- The result of a fit whose child is reaped, unless its artifact is to be
published. -/
def Fit.judge (fit : Fit) (now : ℕ) : Option FitResult :=
  if fit.raised then some (.failed .storage)
  else if fit.child.expired = true ∨ fit.child.deadline < now then
    some (.failed .timeout)
  else
    match fit.message, fit.child.exited with
    | none, _ => some (.failed .resource)
    | some (.error reason), _ => some (.failed reason)
    | some .ok, some (0, _) => none
    | some .ok, _ => some (.failed .resource)

section Step

variable {n : ℕ} (maxPending deadlineSeconds : ℕ) (s : Worker n)

def Worker.setThread (i : Fin n) (phase : Phase) : Worker n :=
  { s with threads := Function.update s.threads i phase }

/-- `t.result = ...`. -/
def Worker.setResult (t : ℕ) (result : FitResult) : Worker n :=
  { s with
    tickets := s.tickets.modify t fun tk => { tk with result := some result } }

/-- `t.done.set()`. -/
def Worker.setTicketDone (t : ℕ) : Worker n :=
  { s with tickets := s.tickets.modify t fun tk => { tk with done := true } }

/-- `del self._by_signal[t.signal_key]`. -/
def Worker.release (t : ℕ) : Worker n :=
  match s.tickets[t]? with
  | none => s
  | some tk => { s with bySignal := Function.update s.bySignal tk.signalKey none }

/-- The locked section of `submit`, after the checks of its arguments. -/
def submit (key : String) : Worker n × Option Effect :=
  if s.closed then (s, none)
  else if (s.bySignal key).isSome then (s, none)
  else if maxPending ≤ s.queue.length then (s, none)
  else
    let t := s.tickets.length
    ({ s with
        tickets := s.tickets ++ [{ signalKey := key }]
        queue := s.queue ++ [t]
        bySignal := Function.update s.bySignal key (some t) },
      some (.admitted t))

def dequeue (i : Fin n) : Worker n × Option Effect :=
  match s.threads i with
  | .idle =>
      if s.closed then (s.setThread i .returned, none)
      else
        match s.queue with
        | [] => (s, none)
        | t :: rest =>
            ({ s with queue := rest }.setThread i (.dequeued t), none)
  | _ => (s, none)

/-- Start only while open; the child is then visible to `close`. -/
def start (i : Fin n) : Worker n × Option Effect :=
  match s.threads i with
  | .dequeued t =>
      if s.closed then (s.setThread i (.resolving t (.failed .resource)), none)
      else
        (s.setThread i (.fitting
            { ticket := t, child := { deadline := s.clock + deadlineSeconds } }
            .waiting),
          some (.started t))
  | _ => (s, none)

def startRaises (i : Fin n) : Worker n × Option Effect :=
  match s.threads i with
  | .dequeued t => (s.setThread i (.resolving t (.failed .storage)), none)
  | _ => (s, none)

/-- A living child sends its one message. -/
def childSends (i : Fin n) (message : Message) : Worker n × Option Effect :=
  match s.threads i with
  | .fitting fit step =>
      if fit.child.exited = none ∧ fit.child.sent = none then
        (s.setThread i (.fitting
          (fit.onChild fun c => { c with sent := some message }) step), none)
      else (s, none)
  | _ => (s, none)

def childExits (i : Fin n) (code : ℤ) : Worker n × Option Effect :=
  match s.threads i with
  | .fitting fit step =>
      if fit.child.exited = none then
        (s.setThread i (.fitting
          (fit.onChild fun c => { c with exited := some (code, s.clock) })
          step), none)
      else (s, none)
  | _ => (s, none)

/-- The timer fires; it is cancelled after the child is reaped. -/
def expire (i : Fin n) : Worker n × Option Effect :=
  match s.threads i with
  | .fitting fit step =>
      if fit.child.deadline ≤ s.clock then
        (s.setThread i (.fitting (fit.onChild (·.expire s.clock)) step), none)
      else (s, none)
  | .reaped fit =>
      if fit.child.deadline ≤ s.clock then
        (s.setThread i (.reaped (fit.onChild (·.expire s.clock))), none)
      else (s, none)
  | _ => (s, none)

def receive (i : Fin n) (got : Bool) : Worker n × Option Effect :=
  match s.threads i with
  | .fitting fit .waiting =>
      let message := if got then fit.child.sent else none
      (s.setThread i (.fitting { fit with message } .received), none)
  | _ => (s, none)

def receiveRaises (i : Fin n) : Worker n × Option Effect :=
  match s.threads i with
  | .fitting fit .waiting =>
      (s.setThread i (.fitting { fit with raised := true } .joined), none)
  | _ => (s, none)

def join (i : Fin n) : Worker n × Option Effect :=
  match s.threads i with
  | .fitting fit .received =>
      if fit.child.exited ≠ none then
        (s.setThread i (.fitting fit .joined), none)
      else if fit.child.deadline ≤ s.clock then
        (s.setThread i (.fitting (fit.onChild (·.expire s.clock)) .joined),
          none)
      else (s, none)
  | _ => (s, none)

def reap (i : Fin n) : Worker n × Option Effect :=
  match s.threads i with
  | .fitting fit .joined =>
      if fit.child.exited = none then (s, none)
      else (s.setThread i (.reaped fit), none)
  | _ => (s, none)

def judge (i : Fin n) : Worker n × Option Effect :=
  match s.threads i with
  | .reaped fit =>
      match fit.judge s.clock with
      | some result => (s.setThread i (.resolving fit.ticket result), none)
      | none => (s.setThread i (.publishing fit), none)
  | _ => (s, none)

/-- Publish only while open. -/
def publish (i : Fin n) (promotion : Promotion) : Worker n × Option Effect :=
  match s.threads i with
  | .publishing fit =>
      if s.closed then
        (s.setThread i (.resolving fit.ticket (.failed .resource)), none)
      else
        let result : FitResult :=
          match promotion with
          | .promoted => .promoted
          | .unchanged => .unchanged
          | .raises => .failed .storage
        (s.setThread i (.resolving fit.ticket result),
          some (.published fit.ticket))
  | _ => (s, none)

def resolve (i : Fin n) : Worker n × Option Effect :=
  match s.threads i with
  | .resolving t result =>
      (((s.setResult t result).release t).setThread i (.resolved t),
        some (.resolved t))
  | _ => (s, none)

def setDone (i : Fin n) : Worker n × Option Effect :=
  match s.threads i with
  | .resolved t => ((s.setTicketDone t).setThread i .idle, none)
  | _ => (s, none)

/-- `p.kill()` for every child in `_running`. -/
def Phase.killChild (now : ℕ) : Phase → Phase
  | .fitting fit step => .fitting (fit.onChild (·.kill now)) step
  | phase => phase

/-- The locked section of `close`. -/
def close : Worker n × Option Effect :=
  ({ s.queue.foldl Worker.release s with
      closed := true
      queue := []
      threads := fun i => (s.threads i).killChild s.clock
      closers := s.closers ++ [{ dropped := s.queue }] }, none)

def Worker.setCloser (k : ℕ) (closer : Closer) : Worker n :=
  { s with closers := s.closers.set k closer }

def closeResolve (k : ℕ) : Worker n × Option Effect :=
  match s.closers[k]? with
  | some ⟨t :: rest, none⟩ =>
      ((s.setResult t (.failed .resource)).setCloser k ⟨rest, some t⟩,
        some (.resolved t))
  | _ => (s, none)

def closeSetDone (k : ℕ) : Worker n × Option Effect :=
  match s.closers[k]? with
  | some ⟨rest, some t⟩ => ((s.setTicketDone t).setCloser k ⟨rest, none⟩, none)
  | _ => (s, none)

/-- `close` returns after its tickets and when every thread has returned. -/
def closeReturn (k : ℕ) : Worker n × Option Effect :=
  if s.closers[k]? = some ⟨[], none⟩ ∧ ∀ i, s.threads i = .returned then
    (s, some (.closeReturned k))
  else (s, none)

/-- One step. -/
def workerStep (event : WorkerEvent n) : Worker n × Option Effect :=
  match event with
  | .tick seconds => ({ s with clock := s.clock + seconds }, none)
  | .submit key => submit maxPending s key
  | .dequeue i => dequeue s i
  | .start i => start deadlineSeconds s i
  | .startRaises i => startRaises s i
  | .childSends i message => childSends s i message
  | .childExits i code => childExits s i code
  | .expire i => expire s i
  | .receive i got => receive s i got
  | .receiveRaises i => receiveRaises s i
  | .join i => join s i
  | .reap i => reap s i
  | .judge i => judge s i
  | .publish i promotion => publish s i promotion
  | .resolve i => resolve s i
  | .setDone i => setDone s i
  | .close => close s
  | .closeResolve k => closeResolve s k
  | .closeSetDone k => closeSetDone s k
  | .closeReturn k => closeReturn s k

end Step

end PredictiveAutoscaler.Forecasting.FitWorker
