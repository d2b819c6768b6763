/-
How a ticket is resolved: by the thread that has its result, or by the call of
close that took it off the queue.  With admission and the steps of a fit,
every step of the worker keeps its invariant.
-/
import PredictiveAutoscaler.Forecasting.FitWorker.Admission

namespace PredictiveAutoscaler.Forecasting.FitWorker

section Tickets

variable {n maxPending : ℕ} {s s' : Worker n} {t : ℕ}

section Settle

variable {result : FitResult}

theorem setResult_getElem? (s : Worker n) (t : ℕ) (result : FitResult)
    (x : ℕ) : (s.setResult t result).tickets[x]? = (s.tickets[x]?).map fun tk =>
      if t = x then { tk with result := some result } else tk := by
  rw [Worker.setResult, List.getElem?_modify]
  cases s.tickets[x]? <;> by_cases htx : t = x <;> simp [htx]

theorem unresolved_setResult (x : ℕ) :
    Unresolved (s.setResult t result) x ↔ Unresolved s x ∧ x ≠ t := by
  simp only [Unresolved, setResult_getElem?, Option.map_eq_some_iff]
  constructor
  · rintro ⟨_, ⟨tk, htk, rfl⟩, hnone⟩
    by_cases htx : t = x
    · simp [htx] at hnone
    · rw [if_neg htx] at hnone
      exact ⟨⟨tk, htk, hnone⟩, Ne.symm htx⟩
  · rintro ⟨⟨tk, htk, hnone⟩, hne⟩
    exact ⟨tk, ⟨tk, htk, if_neg (Ne.symm hne)⟩, hnone⟩

theorem signalOf_setResult (x : ℕ) (key : String) :
    SignalOf (s.setResult t result) x key ↔ SignalOf s x key := by
  simp only [SignalOf, setResult_getElem?, Option.map_eq_some_iff]
  constructor
  · rintro ⟨_, ⟨tk, htk, rfl⟩, hkey⟩
    refine ⟨tk, htk, ?_⟩
    by_cases htx : t = x <;> simpa [htx] using hkey
  · rintro ⟨tk, htk, hkey⟩
    refine ⟨_, ⟨tk, htk, rfl⟩, ?_⟩
    by_cases htx : t = x <;> simpa [htx] using hkey

/-- A ticket loses its owner as it gets its result. -/
theorem Sound.settle (h : Sound s maxPending)
    (htickets : s'.tickets = (s.setResult t result).tickets)
    (howns : ∀ o x, Owns s' o x ↔ Owns s o x ∧ x ≠ t)
    (hmap : ∀ key x, s'.bySignal key = some x ↔
      s.bySignal key = some x ∧ x ≠ t)
    (hqueue : s'.queue = s.queue)
    (hdropped : ∀ c ∈ s'.closers, c.dropped.Nodup)
    (hclosed : s'.closed = s.closed)
    (hclosers : s'.closers ≠ [] → s.closers ≠ [])
    (hphases : ∀ i, (s'.threads i).Sound s'.clock s'.closed) :
    Sound s' maxPending := by
  have hunresolved : ∀ x, Unresolved s' x ↔ Unresolved s x ∧ x ≠ t := by
    intro x
    rw [← @unresolved_setResult _ s t result x, Unresolved, htickets]
    rfl
  have hsignal : ∀ x key, SignalOf s' x key ↔ SignalOf s x key := by
    intro x key
    rw [← @signalOf_setResult _ s t result x key, SignalOf, htickets]
    rfl
  refine ⟨?_, ?_, ?_, ?_, hdropped, ?_, ?_, ?_, ?_, hphases⟩
  · intro x
    rw [hunresolved, h.owned]
    constructor
    · rintro ⟨⟨o', ho'⟩, hne⟩
      exact ⟨o', (howns o' x).mpr ⟨ho', hne⟩⟩
    · rintro ⟨o', ho'⟩
      obtain ⟨ho', hne⟩ := (howns o' x).mp ho'
      exact ⟨⟨o', ho'⟩, hne⟩
  · intro o₁ o₂ x h₁ h₂
    exact h.unique o₁ o₂ x ((howns _ _).mp h₁).1 ((howns _ _).mp h₂).1
  · rw [hqueue]
    exact h.queue_nodup
  · rw [hqueue]
    exact h.queue_le
  · intro key x
    rw [hmap, h.mapped, hsignal]
    constructor
    · rintro ⟨⟨hkey, o', hactive, ho'⟩, hne⟩
      exact ⟨hkey, o', hactive, (howns o' x).mpr ⟨ho', hne⟩⟩
    · rintro ⟨hkey, o', hactive, ho'⟩
      obtain ⟨ho', hne⟩ := (howns o' x).mp ho'
      exact ⟨⟨hkey, o', hactive, ho'⟩, hne⟩
  · intro key x y hx hy hux huy
    exact h.single key x y ((hsignal _ _).mp hx) ((hsignal _ _).mp hy)
      ((hunresolved x).mp hux).1 ((hunresolved y).mp huy).1
  · rw [hclosed, hqueue]
    exact h.drained
  · rw [hclosed]
    exact fun hne => h.closing (hclosers hne)

end Settle

/-- The worker's map names a ticket under its own signal and no other. -/
def Mapped (s : Worker n) (t : ℕ) : Prop :=
  ∃ tk, s.tickets[t]? = some tk ∧
    ∀ key, s.bySignal key = some t ↔ key = tk.signalKey

theorem Worker.release_eq (s : Worker n) (t : ℕ) :
    s.release t = { s with bySignal := (s.release t).bySignal } := by
  unfold Worker.release
  split <;> rfl

theorem Mapped.release_bySignal (h : Mapped s t) (key : String) (x : ℕ) :
    (s.release t).bySignal key = some x ↔ s.bySignal key = some x ∧ x ≠ t := by
  obtain ⟨tk, htk, hmap⟩ := h
  have hrelease : (s.release t).bySignal =
      Function.update s.bySignal tk.signalKey none := by
    simp [Worker.release, htk]
  rw [hrelease, Function.update_apply]
  split
  · rename_i hkey
    rw [(hmap key).mpr hkey]
    simp [eq_comm]
  · rename_i hkey
    refine ⟨fun hx => ⟨hx, ?_⟩, fun hx => hx.1⟩
    rintro rfl
    exact hkey ((hmap key).mp hx)

theorem Mapped.release {x : ℕ} (h : Mapped s t) (hx : Mapped s x)
    (hne : x ≠ t) : Mapped (s.release t) x := by
  obtain ⟨tk, htk, hmap⟩ := hx
  refine ⟨tk, by rw [Worker.release_eq]; exact htk, ?_⟩
  intro key
  rw [h.release_bySignal, hmap]
  exact and_iff_left hne

theorem foldl_release_eq (s : Worker n) (ts : List ℕ) :
    ts.foldl Worker.release s =
      { s with bySignal := (ts.foldl Worker.release s).bySignal } := by
  induction ts generalizing s with
  | nil => rfl
  | cons t ts ih =>
      rw [List.foldl_cons, ih (s.release t), Worker.release_eq]

theorem setTicketDone_getElem? (s : Worker n) (t x : ℕ) :
    ∃ f : Ticket → Ticket, (∀ tk, (f tk).result = tk.result ∧
      (f tk).signalKey = tk.signalKey) ∧
      (s.setTicketDone t).tickets[x]? = (s.tickets[x]?).map f := by
  refine ⟨fun tk => if t = x then { tk with done := true } else tk, ?_, ?_⟩
  · intro tk
    by_cases htx : t = x <;> simp [htx]
  · simp only [Worker.setTicketDone, List.getElem?_modify]
    by_cases htx : t = x <;> simp [htx]

theorem Phase.Sound.killChild {now : ℕ} {closed : Bool} {phase : Phase}
    (h : phase.Sound now closed) : (phase.killChild now).Sound now true := by
  cases phase with
  | fitting fit step => exact Fit.Sound.exit h killed fit.child.expired
  | returned => rfl
  | _ => exact h

theorem close_eq (s : Worker n) :
    (close s).1 = { s with
      closed := true
      queue := []
      bySignal := (s.queue.foldl Worker.release s).bySignal
      threads := fun i => (s.threads i).killChild s.clock
      closers := s.closers ++ [{ dropped := s.queue }] } := by
  unfold close
  rw [foldl_release_eq]

theorem Phase.Sound.mono {now later : ℕ} {closed : Bool} {phase : Phase}
    (h : phase.Sound now closed) (hle : now ≤ later) :
    phase.Sound later closed := by
  have hfit : ∀ fit : Fit, fit.Sound now → fit.Sound later := fun fit hfit =>
    ⟨hfit.message, fun code time ht => (hfit.exited code time ht).trans hle⟩
  cases phase with
  | fitting fit step => exact hfit fit h
  | reaped fit => exact hfit fit h
  | _ => exact h

theorem Sound.tick (h : Sound s maxPending) (seconds : ℕ) :
    Sound ({ s with clock := s.clock + seconds } : Worker n) maxPending :=
  h.frame rfl rfl rfl rfl rfl h.dropped_nodup rfl id
    fun i => (h.phases i).mono (Nat.le_add_right _ _)

end Tickets

end PredictiveAutoscaler.Forecasting.FitWorker
