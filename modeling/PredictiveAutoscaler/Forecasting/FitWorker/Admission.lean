/-
A ticket enters the queue in `submit` and goes to a thread in `dequeue`; both
keep the invariant of the worker.
-/
import PredictiveAutoscaler.Forecasting.FitWorker.Ownership

namespace PredictiveAutoscaler.Forecasting.FitWorker

variable {n maxPending : ℕ} {s s' : Worker n} {t : ℕ}

theorem SignalOf.key_eq {key key' : String} (h : SignalOf s t key)
    (h' : SignalOf s t key') : key = key' := by
  obtain ⟨tk, htk, rfl⟩ := h
  obtain ⟨tk', htk', rfl⟩ := h'
  rw [htk] at htk'
  cases htk'
  rfl

theorem SignalOf.lt_length {key : String} (h : SignalOf s t key) :
    t < s.tickets.length := by
  obtain ⟨tk, htk, -⟩ := h
  exact (List.getElem?_eq_some_iff.mp htk).1

theorem Unresolved.lt_length (h : Unresolved s t) : t < s.tickets.length := by
  obtain ⟨tk, htk, -⟩ := h
  exact (List.getElem?_eq_some_iff.mp htk).1

theorem Sound.lt_length (h : Sound s maxPending) {o : Owner n}
    (ho : Owns s o t) : t < s.tickets.length :=
  ((h.owned t).mpr ⟨o, ho⟩).lt_length

theorem Sound.no_closers (h : Sound s maxPending) (hopen : s.closed = false) :
    s.closers = [] := by
  by_contra hne
  rw [h.closing hne] at hopen
  cases hopen

section Submit

variable {key : String}

/-- The worker with one more ticket, in its queue. -/
def Worker.enqueue (s : Worker n) (key : String) : Worker n :=
  { s with
    tickets := s.tickets ++ [{ signalKey := key }]
    queue := s.queue ++ [s.tickets.length]
    bySignal := Function.update s.bySignal key (some s.tickets.length) }

/-- A ticket is admitted while the worker is open, its signal has none and
the queue has room. -/
theorem submit_cases (s : Worker n) (maxPending : ℕ) (key : String) :
    (submit maxPending s key).1 = s ∨
      s.closed = false ∧ s.bySignal key = none ∧
        s.queue.length < maxPending ∧
          (submit maxPending s key).1 = s.enqueue key := by
  unfold submit
  split
  · exact .inl rfl
  rename_i hopen
  split
  · exact .inl rfl
  rename_i hfree
  split
  · exact .inl rfl
  rename_i hroom
  exact .inr ⟨by simpa using hopen, Option.not_isSome_iff_eq_none.mp hfree,
    by omega, rfl⟩

theorem admit_getElem? (s : Worker n) (key : String) (x : ℕ) :
    (s.enqueue key).tickets[x]? = if x = s.tickets.length
      then some { signalKey := key } else s.tickets[x]? := by
  simp only [Worker.enqueue, List.getElem?_append, List.getElem?_singleton]
  split_ifs <;> first | rfl | omega | (rw [List.getElem?_eq_none]; omega)

theorem unresolved_enqueue (x : ℕ) : Unresolved (s.enqueue key) x ↔
    x = s.tickets.length ∨ Unresolved s x := by
  simp only [Unresolved, admit_getElem?]
  by_cases hx : x = s.tickets.length
  · simp [hx]
  · simp [hx]

theorem signalOf_enqueue (x : ℕ) (k : String) : SignalOf (s.enqueue key) x k ↔
    (x = s.tickets.length ∧ k = key) ∨ SignalOf s x k := by
  simp only [SignalOf, admit_getElem?]
  by_cases hx : x = s.tickets.length
  · subst hx
    simp [eq_comm]
  · simp [hx]

theorem owns_enqueue (o : Owner n) (x : ℕ) : Owns (s.enqueue key) o x ↔
    (o = .queue ∧ x = s.tickets.length) ∨ Owns s o x := by
  cases o with
  | queue => simp [Owns, Worker.enqueue, or_comm]
  | thread i => simp [Owns, Worker.enqueue]
  | closer k => simp [Owns, Worker.enqueue]

theorem enqueue_bySignal (k : String) : (s.enqueue key).bySignal k =
    if k = key then some s.tickets.length else s.bySignal k := by
  simp [Worker.enqueue, Function.update_apply]

/-- The place of the new ticket is not in use. -/
theorem Sound.fresh (h : Sound s maxPending) (o : Owner n) :
    ¬Owns s o s.tickets.length :=
  fun ho => absurd (h.lt_length ho) (lt_irrefl _)

/-- A signal that the map of an open worker does not name has no ticket to
resolve. -/
theorem Sound.signal_resolved (h : Sound s maxPending)
    (hopen : s.closed = false) (hnone : s.bySignal key = none) {x : ℕ}
    (hx : SignalOf s x key) : ¬Unresolved s x := by
  intro hux
  obtain ⟨o, ho⟩ := (h.owned x).mp hux
  have hactive : ¬o.Active := by
    intro hactive
    have hmap := (h.mapped key x).mpr ⟨hx, o, hactive, ho⟩
    rw [hnone] at hmap
    cases hmap
  cases o with
  | queue => exact hactive trivial
  | thread i => exact hactive trivial
  | closer k =>
      obtain ⟨c, hc, -⟩ := ho
      rw [h.no_closers hopen] at hc
      cases hc

theorem Sound.admit_owned (h : Sound s maxPending) (x : ℕ) :
    Unresolved (s.enqueue key) x ↔ ∃ o, Owns (s.enqueue key) o x := by
  rw [unresolved_enqueue, h.owned]
  constructor
  · rintro (rfl | ⟨o, ho⟩)
    · exact ⟨.queue, (owns_enqueue _ _).mpr (.inl ⟨rfl, rfl⟩)⟩
    · exact ⟨o, (owns_enqueue _ _).mpr (.inr ho)⟩
  · rintro ⟨o, ho⟩
    rcases (owns_enqueue o x).mp ho with ⟨-, hx⟩ | ho
    · exact .inl hx
    · exact .inr ⟨o, ho⟩

theorem Sound.admit_unique (h : Sound s maxPending) (o o' : Owner n) (x : ℕ)
    (ho : Owns (s.enqueue key) o x) (ho' : Owns (s.enqueue key) o' x) :
    o = o' := by
  rcases (owns_enqueue o x).mp ho with ⟨rfl, rfl⟩ | ho
  · rcases (owns_enqueue o' _).mp ho' with ⟨rfl, -⟩ | ho'
    · rfl
    · exact absurd ho' (h.fresh o')
  · rcases (owns_enqueue o' x).mp ho' with ⟨-, rfl⟩ | ho'
    · exact absurd ho (h.fresh o)
    · exact h.unique o o' x ho ho'

theorem Sound.admit_mapped (h : Sound s maxPending)
    (hopen : s.closed = false) (hnone : s.bySignal key = none) (k : String)
    (x : ℕ) : (s.enqueue key).bySignal k = some x ↔
      SignalOf (s.enqueue key) x k ∧
        ∃ o : Owner n, o.Active ∧ Owns (s.enqueue key) o x := by
  rw [enqueue_bySignal, signalOf_enqueue]
  by_cases hk : k = key
  · subst hk
    rw [if_pos rfl]
    constructor
    · rintro h'
      cases h'
      exact ⟨.inl ⟨rfl, rfl⟩, .queue, trivial,
        (owns_enqueue _ _).mpr (.inl ⟨rfl, rfl⟩)⟩
    · rintro ⟨⟨rfl, -⟩ | hx, o, hactive, ho⟩
      · rfl
      · rcases (owns_enqueue o x).mp ho with ⟨-, rfl⟩ | ho
        · rfl
        · exact absurd ((h.owned x).mpr ⟨o, ho⟩)
            (h.signal_resolved hopen hnone hx)
  · rw [if_neg hk, h.mapped]
    constructor
    · rintro ⟨hx, o, hactive, ho⟩
      exact ⟨.inr hx, o, hactive, (owns_enqueue o x).mpr (.inr ho)⟩
    · rintro ⟨⟨-, rfl⟩ | hx, o, hactive, ho⟩
      · exact absurd rfl hk
      · rcases (owns_enqueue o x).mp ho with ⟨-, rfl⟩ | ho
        · exact absurd hx.lt_length (lt_irrefl _)
        · exact ⟨hx, o, hactive, ho⟩

theorem Sound.admit_single (h : Sound s maxPending)
    (hopen : s.closed = false) (hnone : s.bySignal key = none) (k : String)
    (x y : ℕ) (hx : SignalOf (s.enqueue key) x k)
    (hy : SignalOf (s.enqueue key) y k) (hux : Unresolved (s.enqueue key) x)
    (huy : Unresolved (s.enqueue key) y) : x = y := by
  rw [signalOf_enqueue] at hx hy
  rw [unresolved_enqueue] at hux huy
  rcases hx with ⟨rfl, rfl⟩ | hx
  · rcases hy with ⟨rfl, -⟩ | hy
    · rfl
    · rcases huy with rfl | huy
      · rfl
      · exact absurd huy (h.signal_resolved hopen hnone hy)
  · rcases hux with rfl | hux
    · exact absurd hx.lt_length (lt_irrefl _)
    rcases hy with ⟨rfl, rfl⟩ | hy
    · exact absurd hux (h.signal_resolved hopen hnone hx)
    · rcases huy with rfl | huy
      · exact absurd hy.lt_length (lt_irrefl _)
      · exact h.single k x y hx hy hux huy

theorem Sound.enqueue (h : Sound s maxPending) (hopen : s.closed = false)
    (hnone : s.bySignal key = none) (hroom : s.queue.length < maxPending) :
    Sound (s.enqueue key) maxPending where
  owned := h.admit_owned
  unique := h.admit_unique
  queue_nodup := by
    refine List.nodup_append.mpr ⟨h.queue_nodup, List.nodup_singleton _, ?_⟩
    intro a ha b hb heq
    rw [List.mem_singleton.mp hb] at heq
    subst heq
    exact h.fresh .queue ha
  queue_le := by
    simp only [Worker.enqueue, List.length_append, List.length_singleton]
    omega
  dropped_nodup := h.dropped_nodup
  mapped := h.admit_mapped hopen hnone
  single := h.admit_single hopen hnone
  drained hclosed := by
    rw [show (s.enqueue key).closed = s.closed from rfl, hopen] at hclosed
    cases hclosed
  closing := h.closing
  phases := h.phases

end Submit

section Dequeue

variable {i : Fin n} {rest : List ℕ}

/-- The worker after a thread took the first ticket of the queue. -/
def Worker.take (s : Worker n) (i : Fin n) (t : ℕ) (rest : List ℕ) : Worker n :=
  { s with queue := rest }.setThread i (.dequeued t)

/-- An idle thread returns when the worker is closed, or takes a ticket. -/
theorem dequeue_cases (s : Worker n) (i : Fin n) :
    (dequeue s i).1 = s ∧ (s.threads i ≠ .idle ∨ s.queue = []) ∨
      s.threads i = .idle ∧
        (s.closed = true ∧ (dequeue s i).1 = s.setThread i .returned ∨
          ∃ t rest, s.closed = false ∧ s.queue = t :: rest ∧
            (dequeue s i).1 = s.take i t rest) := by
  unfold dequeue
  cases hphase : s.threads i with
  | idle =>
      dsimp only
      split
      · rename_i hclosed
        exact .inr ⟨rfl, .inl ⟨hclosed, rfl⟩⟩
      · rename_i hopen
        cases hqueue : s.queue with
        | nil => exact .inl ⟨rfl, .inr rfl⟩
        | cons t rest =>
            exact .inr ⟨rfl, .inr ⟨t, rest, by simpa using hopen, rfl, rfl⟩⟩
  | _ => exact .inl ⟨rfl, .inl (by simp)⟩

/-- The ticket taken goes from the queue to the thread. -/
theorem owns_take (hnodup : s.queue.Nodup) (hqueue : s.queue = t :: rest)
    (o : Owner n) (x : ℕ) : Owns (s.take i t rest) o x ↔
      (o = .thread i ∧ x = t) ∨
        (Owns s o x ∧ o ≠ .thread i ∧ (x = t → o ≠ .queue)) := by
  cases o with
  | queue =>
      rw [hqueue, List.nodup_cons] at hnodup
      simp only [Owns, Worker.take, Worker.setThread, hqueue, List.mem_cons,
        reduceCtorEq, false_and, false_or, ne_eq, not_false_eq_true,
        not_true_eq_false, true_and, imp_false]
      constructor
      · intro hx
        exact ⟨.inr hx, fun heq => hnodup.1 (heq ▸ hx)⟩
      · rintro ⟨rfl | hx, hne⟩
        · exact absurd rfl hne
        · exact hx
  | thread j =>
      by_cases hj : j = i
      · subst hj
        simp [Owns, Worker.take, Worker.setThread, Phase.ticket, eq_comm]
      · simp [Owns, Worker.take, Worker.setThread, hj]
  | closer k => simp [Owns, Worker.take, Worker.setThread]

/-- Every ticket keeps an owner, and an active one. -/
theorem exists_owner_take (h : Sound s maxPending)
    (hidle : s.threads i = .idle) (hqueue : s.queue = t :: rest)
    {P : Owner n → Prop} (hP : P .queue ↔ P (.thread i)) (x : ℕ) :
    (∃ o, P o ∧ Owns (s.take i t rest) o x) ↔ ∃ o, P o ∧ Owns s o x := by
  have howns := @owns_take _ _ _ i _ h.queue_nodup hqueue
  constructor
  · rintro ⟨o, ho, hox⟩
    rcases (howns o x).mp hox with ⟨rfl, rfl⟩ | ⟨hox, -⟩
    · exact ⟨.queue, hP.mpr ho, by simp [Owns, hqueue]⟩
    · exact ⟨o, ho, hox⟩
  · rintro ⟨o, ho, hox⟩
    have hne : o ≠ .thread i := by
      rintro rfl
      simp [Owns, hidle, Phase.ticket] at hox
    by_cases hx : x = t
    · subst hx
      have hoq := h.unique o .queue x hox (by simp [Owns, hqueue])
      rw [hoq] at ho
      exact ⟨.thread i, hP.mp ho, (howns _ _).mpr (.inl ⟨rfl, rfl⟩)⟩
    · exact ⟨o, ho, (howns o x).mpr (.inr ⟨hox, hne, fun h => absurd h hx⟩)⟩

theorem Sound.take_unique (h : Sound s maxPending)
    (hqueue : s.queue = t :: rest) (o o' : Owner n) (x : ℕ)
    (ho : Owns (s.take i t rest) o x) (ho' : Owns (s.take i t rest) o' x) :
    o = o' := by
  have ht : Owns s .queue t := by simp [Owns, hqueue]
  rw [owns_take h.queue_nodup hqueue] at ho ho'
  rcases ho with ⟨rfl, rfl⟩ | ⟨ho, -, hq⟩
  · rcases ho' with ⟨rfl, -⟩ | ⟨ho', -, hq'⟩
    · rfl
    · exact absurd (h.unique o' .queue _ ho' ht) (hq' rfl)
  · rcases ho' with ⟨-, rfl⟩ | ⟨ho', -⟩
    · exact absurd (h.unique o .queue _ ho ht) (hq rfl)
    · exact h.unique o o' x ho ho'

theorem Sound.take (h : Sound s maxPending) (hidle : s.threads i = .idle)
    (hopen : s.closed = false) (hqueue : s.queue = t :: rest) :
    Sound (s.take i t rest) maxPending where
  owned x := by
    have hkept := exists_owner_take h hidle hqueue
      (P := fun _ => True) Iff.rfl x
    simp only [true_and] at hkept
    rw [hkept]
    exact h.owned x
  unique := h.take_unique hqueue
  queue_nodup := by
    have hnodup := h.queue_nodup
    rw [hqueue] at hnodup
    exact hnodup.of_cons
  queue_le := by
    have hle := h.queue_le
    rw [hqueue] at hle
    exact (Nat.le_succ _).trans hle
  dropped_nodup := h.dropped_nodup
  mapped key x := by
    rw [exists_owner_take h hidle hqueue (P := Owner.Active) Iff.rfl x]
    exact h.mapped key x
  single := h.single
  drained hclosed := by
    rw [show (s.take i t rest).closed = s.closed from rfl, hopen] at hclosed
    cases hclosed
  closing := h.closing
  phases j := by
    by_cases hj : j = i
    · subst hj
      simp [Worker.take, Worker.setThread, Phase.Sound]
    · simpa [Worker.take, Worker.setThread, hj] using h.phases j

end Dequeue

end PredictiveAutoscaler.Forecasting.FitWorker
