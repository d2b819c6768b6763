/-
Every admitted ticket is resolved in a fair run: whatever the callers and the
children do and in whatever order, if the worker's own steps are not put off
for ever and time goes on.  A ticket waits for its owner to finish a stage, and
an owner is only ever led onward.
-/
import PredictiveAutoscaler.WeakFairness
import PredictiveAutoscaler.Forecasting.FitWorker.Effects

namespace PredictiveAutoscaler.Forecasting.FitWorker

variable {n maxPending deadlineSeconds : ℕ} {s : Worker n} {t : ℕ}

/-- The worker's own step that an event is; callers, children and time have
the others. -/
def WorkerEvent.parentStep : WorkerEvent n → Option (ParentStep n)
  | .dequeue i => some (.dequeue i)
  | .start i => some (.start i)
  | .startRaises i => some (.start i)
  | .expire i => some (.expire i)
  | .receive i _ => some (.receive i)
  | .receiveRaises i => some (.receive i)
  | .join i => some (.join i)
  | .reap i => some (.reap i)
  | .judge i => some (.judge i)
  | .publish i _ => some (.publish i)
  | .resolve i => some (.resolve i)
  | .setDone i => some (.setDone i)
  | .closeResolve k => some (.closeResolve k)
  | .closeSetDone k => some (.closeSetDone k)
  | _ => none

/-- A call of close first ends the ticket whose result is set. -/
def Closer.stage (k t : ℕ) (c : Closer) : Stage n :=
  match c.finishing with
  | none => { next := .closeResolve k, left := 2 * c.dropped.idxOf t }
  | some _ => { next := .closeSetDone k, left := 2 * c.dropped.idxOf t + 1 }

/-- A ticket in the queue waits for a thread, and for the tickets before it. -/
def Stage.behind (a : Stage n) (place : ℕ) : Stage n :=
  { a with left := 12 * (place + 1) + a.left }

theorem Stage.Onward.behind {a b : Stage n} (h : a.Onward b) (place : ℕ) :
    (a.behind place).Onward (b.behind place) := by
  rcases h with rfl | hlt
  · exact .inl rfl
  · exact .inr (Nat.add_lt_add_left hlt _)

/-- The stage of an unresolved ticket; in the queue it is that of thread
`i`. -/
inductive Waits (i : Fin n) (t : ℕ) (s : Worker n) : Stage n → Prop
  | queued (h : t ∈ s.queue) :
      Waits i t s (((s.threads i).stage i).behind (s.queue.idxOf t))
  | held (j : Fin n) (h : (s.threads j).ticket = some t) :
      Waits i t s ((s.threads j).stage j)
  | dropped (k : ℕ) (c : Closer) (hc : s.closers[k]? = some c)
      (h : t ∈ c.dropped) : Waits i t s (c.stage k t)

section Waits

variable {i : Fin n} {a b : Stage n}

theorem Waits.owner (h : Waits i t s a) : ∃ o, Owns s o t := by
  cases h with
  | queued h => exact ⟨.queue, h⟩
  | held j h => exact ⟨.thread j, h⟩
  | dropped k c hc h => exact ⟨.closer k, c, hc, h⟩

/-- A ticket has one owner, so it is at one stage. -/
theorem Waits.unique (h : Waits i t s a) (hs : Sound s maxPending)
    (h' : Waits i t s b) : a = b := by
  cases h with
  | queued h =>
      cases h' with
      | queued => rfl
      | held j h' => cases hs.unique .queue (.thread j) t h h'
      | dropped k c hc h' =>
          cases hs.unique .queue (.closer k) t h ⟨c, hc, h'⟩
  | held j h =>
      cases h' with
      | queued h' => cases hs.unique (.thread j) .queue t h h'
      | held j' h' =>
          cases hs.unique (.thread j) (.thread j') t h h'
          rfl
      | dropped k c hc h' =>
          cases hs.unique (.thread j) (.closer k) t h ⟨c, hc, h'⟩
  | dropped k c hc h =>
      cases h' with
      | queued h' => cases hs.unique (.closer k) .queue t ⟨c, hc, h⟩ h'
      | held j h' => cases hs.unique (.closer k) (.thread j) t ⟨c, hc, h⟩ h'
      | dropped k' c' hc' h' =>
          cases hs.unique (.closer k) (.closer k') t ⟨c, hc, h⟩ ⟨c', hc', h'⟩
          rw [hc] at hc'
          cases hc'
          rfl

/-- The ticket is resolved, or further on its way. -/
abbrev Nearer (i : Fin n) (t : ℕ) : Stage n → Worker n → Prop :=
  Advances (Waits i t) (Resolved · t) Stage.left

theorem nearer_of_onward {s' : Worker n} (hb : Waits i t s' b)
    (honward : b.Onward a) : Waits i t s' a ∨ Nearer i t a s' := by
  rcases honward with rfl | hlt
  · exact .inl hb
  · exact .inr (.inr ⟨b, hlt, hb⟩)

end Waits

section Owners

variable {i j : Fin n} {k : ℕ} {c : Closer}

/-- A thread that does not take a ticket is led onward. -/
theorem thread_onward (event : WorkerEvent n)
    (h : event ≠ .dequeue j ∨ s.threads j ≠ .idle) :
    (((workerStep maxPending deadlineSeconds s event).1.threads j).stage
      j).Onward ((s.threads j).stage j) := by
  rcases (workerStep_stepped s event).thread j with hfollows |
    ⟨hevent, hidle⟩ | ⟨t, result, -, hphase, hnext⟩
  · exact hfollows.onward
  · rcases h with h | h
    · exact absurd hevent h
    · exact absurd hidle h
  · rw [hphase, hnext]
    exact .inr (by simp [Phase.stage])

/-- A thread keeps its ticket until it resolves it. -/
theorem held_step (hs : Sound s maxPending)
    (h : (s.threads j).ticket = some t) (event : WorkerEvent n) :
    let s' := (workerStep maxPending deadlineSeconds s event).1
    Resolved s' t ∨ (s'.threads j).ticket = some t ∧
      ((s'.threads j).stage j).Onward ((s.threads j).stage j) := by
  rcases (workerStep_stepped s event).thread j with hfollows |
    ⟨-, hidle⟩ | ⟨x, result, rfl, hphase, -⟩
  · exact .inr ⟨hfollows.ticket.trans h, hfollows.onward⟩
  · rw [hidle] at h
    cases h
  · left
    rw [hphase] at h
    cases h
    have ho : Owns s (.thread j) t := by simp [Owns, hphase, Phase.ticket]
    have heffect : (workerStep maxPending deadlineSeconds s (.resolve j)).2 =
        some (.resolved t) := by
      simp [workerStep, resolve, hphase]
    obtain ⟨tk, htk, -⟩ := (hs.owned t).mpr ⟨_, ho⟩
    exact (workerStep_shows heffect).2 ⟨tk, htk⟩

end Owners

section Steps

variable {i j : Fin n} {k : ℕ} {c : Closer} {event : WorkerEvent n}

/-- The ticket at the head of what a close dropped is resolved; the others are
one place nearer. -/
theorem closeResolve_nearer (hs : Sound s maxPending) {x : ℕ} {rest : List ℕ}
    (hc : s.closers[k]? = some ⟨x :: rest, none⟩) (ht : t ∈ x :: rest) :
    Nearer i t (Closer.stage k t ⟨x :: rest, none⟩)
      (workerStep maxPending deadlineSeconds s (.closeResolve k)).1 := by
  have hown : ∀ y ∈ x :: rest, Unresolved s y := fun y hy =>
    (hs.owned y).mpr ⟨.closer k, _, hc, hy⟩
  simp only [workerStep, closeResolve, hc]
  by_cases htx : t = x
  · subst htx
    obtain ⟨tk, htk, -⟩ := hown t List.mem_cons_self
    exact .inl (resolved_setResult s t _ ⟨tk, htk⟩)
  · right
    have hrest : t ∈ rest := (List.mem_cons.mp ht).resolve_left htx
    obtain ⟨hk, -⟩ := List.getElem?_eq_some_iff.mp hc
    refine ⟨_, ?_, .dropped k ⟨rest, some x⟩ ?_ hrest⟩
    · simp only [Closer.stage, List.idxOf_cons_ne _ (Ne.symm htx)]
      omega
    · simp [Worker.setCloser, Worker.setResult, hk]

theorem closeSetDone_nearer {x : ℕ} {rest : List ℕ}
    (hc : s.closers[k]? = some ⟨rest, some x⟩) (ht : t ∈ rest) :
    Nearer i t (Closer.stage k t ⟨rest, some x⟩)
      (workerStep maxPending deadlineSeconds s (.closeSetDone k)).1 := by
  obtain ⟨hk, -⟩ := List.getElem?_eq_some_iff.mp hc
  simp only [workerStep, closeSetDone, hc]
  refine .inr ⟨_, ?_, .dropped k ⟨rest, none⟩ ?_ ht⟩
  · simp [Closer.stage]
  · simp [Worker.setCloser, Worker.setTicketDone, hk]

/-- A step of a call of close brings each of its tickets nearer, when it is
the one that the call takes next. -/
theorem dropped_helps (hs : Sound s maxPending) (hc : s.closers[k]? = some c)
    (ht : t ∈ c.dropped)
    (hevent : event.parentStep = some ((c.stage k t : Stage n).next)) :
    Nearer i t (c.stage k t)
      (workerStep maxPending deadlineSeconds s event).1 := by
  obtain ⟨dropped, finishing⟩ := c
  cases finishing with
  | some x =>
      cases event with
      | closeSetDone k' =>
          cases hevent
          exact closeSetDone_nearer hc ht
      | _ => cases hevent
  | none =>
      cases event with
      | closeResolve k' =>
          cases hevent
          cases dropped with
          | nil => cases ht
          | cons x rest => exact closeResolve_nearer hs hc ht
      | _ => cases hevent

theorem dropped_keeps (hs : Sound s maxPending) (hc : s.closers[k]? = some c)
    (ht : t ∈ c.dropped) (event : WorkerEvent n) :
    let s' := (workerStep maxPending deadlineSeconds s event).1
    Waits i t s' (c.stage k t) ∨ Nearer i t (c.stage k t) s' := by
  by_cases hevent : event.parentStep = some ((c.stage k t : Stage n).next)
  · exact .inr (dropped_helps hs hc ht hevent)
  left
  refine .dropped k c ?_ ht
  obtain ⟨dropped, finishing⟩ := c
  by_cases hresolve : event = .closeResolve k
  · subst hresolve
    cases finishing with
    | none => exact absurd rfl hevent
    | some x => simp [workerStep, closeResolve, hc]
  by_cases hdone : event = .closeSetDone k
  · subst hdone
    cases finishing with
    | none => simp [workerStep, closeSetDone, hc]
    | some x => exact absurd rfl hevent
  exact (workerStep_stepped s event).closer_eq hc hresolve hdone

theorem held_keeps (hs : Sound s maxPending)
    (h : (s.threads j).ticket = some t) (event : WorkerEvent n) :
    let s' := (workerStep maxPending deadlineSeconds s event).1
    Waits i t s' ((s.threads j).stage j) ∨
      Nearer i t ((s.threads j).stage j) s' := by
  rcases @held_step n maxPending deadlineSeconds s t j hs h event with
    hresolved | ⟨hticket, honward⟩
  · exact .inr (.inl hresolved)
  · exact nearer_of_onward (.held j hticket) honward

/-- The thread that has just taken a ticket has most left to do. -/
theorem stage_left_le (phase : Phase) : (phase.stage j).left ≤ 11 := by
  cases phase with
  | fitting fit step =>
      cases step with
      | joined =>
          simp only [Phase.stage]
          split <;> simp
      | _ =>
          simp only [Phase.stage]
          split <;> simp
  | _ => simp [Phase.stage]

/-- `dequeue` hands the ticket to the thread, or brings it one place nearer. -/
theorem take_nearer {x : ℕ} {rest : List ℕ} (hqueue : s.queue = x :: rest)
    (ht : t ∈ s.queue) :
    Nearer i t (((s.threads i).stage i).behind (s.queue.idxOf t))
      (s.take j x rest) := by
  right
  by_cases htx : t = x
  · subst htx
    refine ⟨_, ?_, .held j (by simp [Worker.take, Worker.setThread,
      Phase.ticket])⟩
    have hle := @stage_left_le n j ((s.take j t rest).threads j)
    simp only [Stage.behind]
    omega
  · rw [hqueue] at ht ⊢
    have hrest : t ∈ rest := (List.mem_cons.mp ht).resolve_left htx
    refine ⟨_, ?_, .queued hrest⟩
    have hle := @stage_left_le n i ((s.take j x rest).threads i)
    simp only [Stage.behind, List.idxOf_cons_ne _ (Ne.symm htx)]
    change 12 * (rest.idxOf t + 1) + _ < _
    omega

/-- A ticket of the queue goes on, or keeps its place while the thread that it
waits for is led onward. -/
theorem queued_step (hs : Sound s maxPending) (i : Fin n) (ht : t ∈ s.queue)
    (event : WorkerEvent n) :
    let s' := (workerStep maxPending deadlineSeconds s event).1
    Nearer i t (((s.threads i).stage i).behind (s.queue.idxOf t)) s' ∨
      t ∈ s'.queue ∧ s'.queue.idxOf t = s.queue.idxOf t ∧
        (event ≠ .dequeue i ∨ s.threads i ≠ .idle) := by
  by_cases hdequeue : ∃ j, event = .dequeue j
  · obtain ⟨j, rfl⟩ := hdequeue
    rcases dequeue_cases s j with ⟨heq, hidle⟩ |
      ⟨-, ⟨hclosed, -⟩ | ⟨x, rest, -, hqueue, heq⟩⟩
    · right
      have hne : s.threads j ≠ .idle := by
        rcases hidle with hne | hnil
        · exact hne
        · rw [hnil] at ht
          cases ht
      rw [workerStep, heq]
      refine ⟨ht, rfl, ?_⟩
      by_cases hij : j = i
      · subst hij
        exact .inr hne
      · exact .inl fun h => hij (by cases h; rfl)
    · rw [hs.drained hclosed] at ht
      cases ht
    · left
      rw [workerStep, heq]
      exact take_nearer hqueue ht
  by_cases hclose : event = .close
  · left
    subst hclose
    have hplace : (close s).1.closers[s.closers.length]? =
        some { dropped := s.queue } := by
      rw [close_eq]
      simp
    refine .inr ⟨_, ?_, .dropped _ _ hplace ht⟩
    simp only [Closer.stage, Stage.behind]
    omega
  · right
    obtain ⟨more, hmore⟩ := (workerStep_stepped s event).queue_grows
      (fun j h => hdequeue ⟨j, h⟩) hclose
    rw [hmore]
    exact ⟨List.mem_append_left _ ht, List.idxOf_append_of_mem ht,
      .inl fun h => hdequeue ⟨i, h⟩⟩

theorem queued_keeps (hs : Sound s maxPending) (ht : t ∈ s.queue)
    (event : WorkerEvent n) :
    let s' := (workerStep maxPending deadlineSeconds s event).1
    let a := ((s.threads i).stage i).behind (s.queue.idxOf t)
    Waits i t s' a ∨ Nearer i t a s' := by
  rcases @queued_step n maxPending deadlineSeconds s t hs i ht event with
    hnearer | ⟨hmem, hplace, htakes⟩
  · exact .inr hnearer
  · refine nearer_of_onward (.queued hmem) ?_
    rw [hplace]
    exact (thread_onward event htakes).behind _

theorem Waits.keeps {a : Stage n} (h : Waits i t s a) (hs : Sound s maxPending)
    (event : WorkerEvent n) :
    let s' := (workerStep maxPending deadlineSeconds s event).1
    Waits i t s' a ∨ Nearer i t a s' := by
  cases h with
  | queued h => exact queued_keeps hs h event
  | held j h => exact held_keeps hs h event
  | dropped k c hc h => exact dropped_keeps hs hc h event

end Steps

section Schedule

variable (maxPending deadlineSeconds) (schedule : ℕ → WorkerEvent n)

variable {maxPending deadlineSeconds schedule}

end Schedule

end PredictiveAutoscaler.Forecasting.FitWorker
