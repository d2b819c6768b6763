/-
The operator as a system: one autoscaler with its stored mode, the operator's
in-memory scale state and the clock.  Users switch the mode or re-create the
autoscaler, the operator restarts and loses its memory, and reconciles run on
arbitrary observations; time only moves forward.
-/
import PredictiveAutoscaler.Reconcile
import PredictiveAutoscaler.Run

namespace PredictiveAutoscaler

/-- The clock, the mode of the stored autoscaler and the operator's memory. -/
structure Operator where
  clock : ℤ
  mode : Mode
  scale : ScaleState
deriving DecidableEq

inductive OperatorAction
  /-- A restart or a leader change: every in-memory state is lost. -/
  | restart
  /-- A user edits `spec.mode`. -/
  | switchMode (mode : Mode)
  /-- The autoscaler is deleted and created again under its name. -/
  | recreate (mode : Mode)
  | reconcile (obs : Observation)

/-- An action, and how long after the previous one it begins. -/
structure OperatorEvent where
  wait : ℕ
  action : OperatorAction

/-- When a step took place and, for a reconcile, how it ended. -/
structure OperatorReport where
  times : Instants
  outcome : Option Outcome
deriving DecidableEq

/-- A step that takes no time. -/
def Instants.moment (t : ℤ) : Instants := ⟨t, t, t, t, t, t⟩

def operatorStep (op : Operator) (event : OperatorEvent) :
    Operator × OperatorReport :=
  let start := op.clock + event.wait
  match event.action with
  | .restart => (⟨start, op.mode, {}⟩, ⟨.moment start, none⟩)
  | .switchMode mode => (⟨start, mode, op.scale⟩, ⟨.moment start, none⟩)
  | .recreate mode => (⟨start, mode, op.scale⟩, ⟨.moment start, none⟩)
  | .reconcile obs =>
      let times := obs.delays.instants start
      let (scale, outcome) := reconcile op.scale start obs
      (⟨times.stamp, op.mode, scale⟩, ⟨times, some outcome⟩)

/-- The steps of the operator, in the order they are taken. -/
abbrev OperatorEntry := Entry Operator OperatorEvent OperatorReport

abbrev operatorRun (op : Operator) (events : List OperatorEvent) :
    List OperatorEntry :=
  runTrace operatorStep op events

/-- The counts `(c, n)` of a scale-down written from `c` to `n`. -/
def OperatorReport.scaledDown (r : OperatorReport) : Option (ℤ × ℤ) :=
  match r.outcome with
  | some (.decided d (.scaleDown n .written)) => some (d.current, n)
  | _ => none

/-- The step wrote a scale-up. -/
def OperatorReport.scaledUp (r : OperatorReport) : Bool :=
  match r.outcome with
  | some (.decided _ (.scaleUp _ .written)) => true
  | _ => false

/-- The decision the step reached. -/
def OperatorReport.decision (r : OperatorReport) : Option Decision :=
  match r.outcome with
  | some (.decided d _) => some d
  | _ => none

theorem OperatorReport.scaledDown_eq_some {r : OperatorReport} {c n : ℤ}
    (h : r.scaledDown = some (c, n)) :
    ∃ d, r.outcome = some (.decided d (.scaleDown n .written)) ∧
      d.current = c := by
  unfold scaledDown at h
  split at h
  · rename_i d m hout
    simp only [Option.some.injEq, Prod.mk.injEq] at h
    exact ⟨d, h.2 ▸ hout, h.1⟩
  · cases h

theorem OperatorReport.scaledUp_eq_true {r : OperatorReport}
    (h : r.scaledUp = true) :
    ∃ d n, r.outcome = some (.decided d (.scaleUp n .written)) := by
  unfold scaledUp at h
  split at h
  · rename_i d n hout
    exact ⟨d, n, hout⟩
  · cases h

theorem OperatorReport.decision_eq_some {r : OperatorReport} {d : Decision}
    (h : r.decision = some d) :
    ∃ action, r.outcome = some (.decided d action) := by
  unfold decision at h
  split at h
  · rename_i d' action hout
    cases h
    exact ⟨action, hout⟩
  · cases h

section Instants

variable (d : Delays) (start : ℤ)

theorem Delays.start_le_decision : start ≤ (d.instants start).decision := by
  simp only [Delays.instants]
  omega

theorem Delays.decision_le_update :
    (d.instants start).decision ≤ (d.instants start).update := by
  simp only [Delays.instants]
  omega

theorem Delays.update_le_stamp :
    (d.instants start).update ≤ (d.instants start).stamp := by
  simp only [Delays.instants]
  omega

end Instants

/-- The steps of a decided reconcile: what it read, the state and the decision
it computed, and what applying the decision did. -/
structure Decides (op : Operator) (event : OperatorEvent) (d : Decision)
    (action : Action) where
  obs : Observation
  dep : Deployment
  sha : String
  event_eq : event.action = .reconcile obs
  decides : obs.Decides dep sha
  /-- The scale state the decision is computed from. -/
  prepared : ScaleState
  prepared_eq : prepared = obs.prepared dep sha (op.clock + event.wait) op.scale
  times_eq : (operatorStep op event).2.times =
    obs.delays.instants (op.clock + event.wait)
  decision_eq : d =
    (decideReplicas obs dep (operatorStep op event).2.times prepared).1
  applied : Applied obs (operatorStep op event).2.times d
    (decideReplicas obs dep (operatorStep op event).2.times prepared).2 action
    (operatorStep op event).1.scale

theorem operatorStep_decided {op : Operator} {event : OperatorEvent}
    {d : Decision} {action : Action}
    (h : (operatorStep op event).2.outcome = some (.decided d action)) :
    Nonempty (Decides op event d action) := by
  obtain ⟨wait, act⟩ := event
  cases act with
  | restart => cases h
  | switchMode mode => cases h
  | recreate mode => cases h
  | reconcile obs =>
      have hout : (reconcile op.scale (op.clock + wait) obs).2 =
          .decided d action := Option.some.inj h
      obtain ⟨dep, sha, hdecides, hd, happly⟩ := reconcile_decided hout
      have happlied := applyScaling_applied obs
        (obs.delays.instants (op.clock + wait)) d
        (decideReplicas obs dep (obs.delays.instants (op.clock + wait))
          (obs.prepared dep sha (op.clock + wait) op.scale)).2
      rw [happly] at happlied
      exact ⟨{ obs := obs, dep := dep, sha := sha, event_eq := rfl
               decides := hdecides, prepared := _, prepared_eq := rfl
               times_eq := rfl, decision_eq := hd, applied := happlied }⟩

/-- The scale state a reconcile decides from. -/
def OperatorEntry.prepared (e : OperatorEntry) : ScaleState :=
  match e.event.action with
  | .reconcile obs =>
      match obs.target, obs.query with
      | some dep, some sha =>
          obs.prepared dep sha (e.before.clock + e.event.wait) e.before.scale
      | _, _ => e.before.scale
  | _ => e.before.scale

theorem Decides.prepared_entry {op : Operator} {event : OperatorEvent}
    {d : Decision} {action : Action} (r : Decides op event d action) :
    OperatorEntry.prepared (entryAt operatorStep op event) = r.prepared := by
  have haction : (entryAt operatorStep op event).event.action =
      .reconcile r.obs := r.event_eq
  simp only [OperatorEntry.prepared, haction, r.decides.target,
    r.decides.query]
  exact r.prepared_eq.symm

/-- The clock never goes back. -/
theorem clock_le_operatorStep (op : Operator) (event : OperatorEvent) :
    op.clock ≤ (operatorStep op event).1.clock := by
  obtain ⟨wait, act⟩ := event
  cases act with
  | reconcile obs =>
      simp only [operatorStep, Delays.instants]
      omega
  | restart | switchMode | recreate =>
      simp only [operatorStep]
      omega

/-- Both resets leave the state in the mode that was read. -/
theorem prepared_mode (obs : Observation) (dep : Deployment) (sha : String)
    (start : ℤ) (state : ScaleState) :
    (obs.prepared dep sha start state).mode = some obs.spec.mode := by
  have hreset :
      (state.resetFor obs.spec.mode dep.uid start).mode =
        some obs.spec.mode := by
    unfold ScaleState.resetFor
    split_ifs with hchanged
    · cases obs.spec.mode <;> rfl
    · push Not at hchanged
      exact hchanged.1
  unfold Observation.prepared ScaleState.resetSignal
  split_ifs
  · exact hreset
  · exact hreset

/-- A property of the scale state that the clock, both resets and the
application of a decision keep is kept by every step. -/
theorem operatorStep_preserves {P : ScaleState → Prop} (op : Operator)
    (event : OperatorEvent) (hinit : P {})
    (hreset : ∀ (mode : Mode) (uid : String) (now : ℤ),
      op.clock ≤ now → P (op.scale.resetFor mode uid now))
    (hsignal : ∀ s sha, P s → P (s.resetSignal sha))
    (happly : ∀ (obs : Observation) (dep : Deployment) (sha : String),
      event.action = .reconcile obs →
      let times := (operatorStep op event).2.times
      let prepared := obs.prepared dep sha (op.clock + event.wait) op.scale
      let decided := decideReplicas obs dep times prepared
      P prepared → ∀ action scale,
        Applied obs times decided.1 decided.2 action scale → P scale)
    (hscale : P op.scale) : P (operatorStep op event).1.scale := by
  obtain ⟨wait, act⟩ := event
  cases act with
  | restart => exact hinit
  | switchMode mode => exact hscale
  | recreate mode => exact hscale
  | reconcile obs =>
      apply reconcile_preserves _ hsignal _ hscale
      · intro dep hdep
        exact hreset _ _ _ (by omega)
      · intro dep sha hdecides hprepared
        exact happly obs dep sha rfl hprepared _ _
          (applyScaling_applied obs _ _ _)

/-- The two write timestamps of a scale state. -/
inductive Direction
  | up
  | down
deriving DecidableEq, Repr

def ScaleState.lastScale (s : ScaleState) : Direction → Option ℤ
  | .up => s.lastScaleUp
  | .down => s.lastScaleDown

/-- An Active scale state counts a write in this direction at or after `t`. -/
def ScaleState.CountsSince (dir : Direction) (t : ℤ) (s : ScaleState) : Prop :=
  s.mode = some .active → ∃ last, s.lastScale dir = some last ∧ t ≤ last

def Operator.CountsSince (dir : Direction) (t : ℤ) (op : Operator) : Prop :=
  t ≤ op.clock ∧ op.scale.CountsSince dir t

section CountsSince

variable {dir : Direction} {t : ℤ} {s s' : ScaleState}

theorem ScaleState.resetFor_countsSince {now : ℤ} (hnow : t ≤ now)
    (hs : s.CountsSince dir t) (mode : Mode) (uid : String) :
    (s.resetFor mode uid now).CountsSince dir t := by
  unfold resetFor
  split_ifs
  · cases mode with
    | recommend => intro hmode; cases hmode
    | active => cases dir <;> exact fun _ => ⟨now, rfl, hnow⟩
  · exact hs

theorem ScaleState.resetSignal_countsSince (hs : s.CountsSince dir t)
    (sha : String) : (s.resetSignal sha).CountsSince dir t := by
  unfold resetSignal
  split_ifs
  · cases dir <;> exact hs
  · exact hs

theorem ScaleState.CountsSince.of_sameHolds (hs : s.CountsSince dir t)
    (hsame : s.SameHolds s') : s'.CountsSince dir t := by
  intro hmode
  rw [hsame.mode] at hmode
  obtain ⟨last, hlast, hle⟩ := hs hmode
  refine ⟨last, ?_, hle⟩
  cases dir with
  | up => exact hsame.lastScaleUp.trans hlast
  | down => exact hsame.lastScaleDown.trans hlast

theorem Applied.countsSince {obs : Observation} {times : Instants}
    {d : Decision} {action : Action}
    (happlied : Applied obs times d s action s') (hstamp : t ≤ times.stamp)
    (hs : s.CountsSince dir t) : s'.CountsSince dir t := by
  cases happlied with
  | recommend => exact hs
  | conflictHold => cases dir <;> exact hs
  | holdHeadroom => cases dir <;> exact hs
  | atTarget => cases dir <;> exact hs
  | scaleUp =>
      split_ifs
      · cases dir with
        | up => exact fun _ => ⟨times.stamp, rfl, hstamp⟩
        | down => exact hs
      · exact hs
  | scaleDown =>
      split_ifs
      · cases dir with
        | up => exact hs
        | down => exact fun _ => ⟨times.stamp, rfl, hstamp⟩
      · exact hs
  | pending _ _ _ _ hstate =>
      rcases hstate with rfl | ⟨-, rfl⟩
      · exact hs
      · cases dir <;> exact hs

theorem Operator.CountsSince.mono {op : Operator} {u : ℤ}
    (hop : op.CountsSince dir t) (hle : u ≤ t) : op.CountsSince dir u := by
  refine ⟨hle.trans hop.1, fun hmode => ?_⟩
  obtain ⟨last, hlast, ht⟩ := hop.2 hmode
  exact ⟨last, hlast, hle.trans ht⟩

/-- Every step keeps the property. -/
theorem operatorStep_countsSince {op : Operator} (event : OperatorEvent)
    (hop : op.CountsSince dir t) :
    (operatorStep op event).1.CountsSince dir t := by
  refine ⟨hop.1.trans (clock_le_operatorStep op event), ?_⟩
  apply operatorStep_preserves op event _ _ _ _ hop.2
  · intro hmode
    cases hmode
  · intro mode uid now hnow
    exact ScaleState.resetFor_countsSince (hop.1.trans hnow) hop.2 mode uid
  · intro s sha hs
    exact ScaleState.resetSignal_countsSince hs sha
  · intro obs dep sha hevent times prepared decided hprepared action scale
      happlied
    apply happlied.countsSince
    · have hclock := clock_le_operatorStep op event
      have hstamp : (operatorStep op event).1.clock = times.stamp := by
        simp only [times, operatorStep, hevent]
      exact hstamp ▸ hop.1.trans hclock
    · exact hprepared.of_sameHolds (decideReplicas_sameHolds ..)

/-- The state an Active decision is applied to counts the write as well. -/
theorem Decides.countsSince {op : Operator} {event : OperatorEvent}
    {d : Decision} {action : Action} (r : Decides op event d action)
    (hmode : r.obs.spec.mode = .active) (hop : op.CountsSince dir t) :
    ∃ last, (decideReplicas r.obs r.dep (operatorStep op event).2.times
      r.prepared).2.lastScale dir = some last ∧ t ≤ last := by
  have hprepared : r.prepared.CountsSince dir t := by
    rw [r.prepared_eq]
    apply ScaleState.resetSignal_countsSince
    exact ScaleState.resetFor_countsSince (by have := hop.1; omega) hop.2 _ _
  have hsame := decideReplicas_sameHolds r.obs (operatorStep op event).2.times
    r.dep r.prepared
  apply hprepared.of_sameHolds hsame
  rw [hsame.mode, r.prepared_eq, prepared_mode, hmode]

/-- A written scale in either direction counts from its update on. -/
theorem Decides.countsSince_stamp {op : Operator} {event : OperatorEvent}
    {d : Decision} {action : Action} (r : Decides op event d action)
    (dir : Direction)
    (hlast : (operatorStep op event).1.scale.lastScale dir =
      some (operatorStep op event).2.times.stamp) :
    (operatorStep op event).1.CountsSince dir
      (operatorStep op event).2.times.stamp := by
  have hclock : (operatorStep op event).1.clock =
      (operatorStep op event).2.times.stamp := by
    simp only [operatorStep, r.event_eq]
  exact ⟨hclock.ge, fun _ => ⟨_, hlast, le_rfl⟩⟩

end CountsSince

namespace OperatorWitness

/-- An operator that has just started. -/
def operator : Operator := ⟨0, .active, {}⟩

/-- An action this many seconds after the previous one. -/
def after (seconds : ℕ) (action : OperatorAction) : OperatorEvent :=
  ⟨seconds * 1000000000, action⟩

end OperatorWitness

end PredictiveAutoscaler
