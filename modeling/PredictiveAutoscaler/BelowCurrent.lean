/-
Continuity of the below-current timer.  While the timer is set, every decision
since then was below the current count: every decision that is not restarts
the wait, except a scale-up whose write is not applied.
-/
import PredictiveAutoscaler.Operator

namespace PredictiveAutoscaler

/-- Only an Active scale state has a running timer. -/
def ScaleState.TimerActive (s : ScaleState) : Prop :=
  s.mode ≠ some .active → s.belowCurrentSince = none

/-- The timer, when set, was set at or after `t`. -/
def ScaleState.TimerSince (t : ℤ) (s : ScaleState) : Prop :=
  ∀ b, s.belowCurrentSince = some b → t ≤ b

/-- A scale-up is due while the timer runs, and its write is not applied. -/
def OperatorEntry.LosesScaleUp (e : OperatorEntry) : Prop :=
  ∃ obs dep sha, e.event.action = .reconcile obs ∧ obs.Decides dep sha ∧
    obs.spec.mode = .active ∧ obs.blocked = false ∧
    let decided := decideReplicas obs dep e.report.times
      (OperatorEntry.prepared e)
    dep.replicas < decided.1.desired ∧
      write obs.answers (obs.term e.report.times).policy
        e.report.times.expiryCheck ≠ .written ∧
      (OperatorEntry.prepared e).belowCurrentSince ≠ none

section Resets

variable {s s' : ScaleState} {t : ℤ}

theorem ScaleState.resetFor_timerSince (hs : s.TimerSince t) (mode : Mode)
    (uid : String) (now : ℤ) : (s.resetFor mode uid now).TimerSince t := by
  unfold resetFor
  split_ifs
  · cases mode <;> exact fun b hb => by cases hb
  · exact hs

theorem ScaleState.resetSignal_timerSince (hs : s.TimerSince t)
    (sha : String) : (s.resetSignal sha).TimerSince t := by
  unfold resetSignal
  split_ifs
  · exact fun b hb => by cases hb
  · exact hs

theorem ScaleState.resetFor_timerActive (hs : s.TimerActive) (mode : Mode)
    (uid : String) (now : ℤ) : (s.resetFor mode uid now).TimerActive := by
  unfold resetFor
  split_ifs
  · cases mode <;> exact fun _ => rfl
  · exact hs

theorem ScaleState.resetSignal_timerActive (hs : s.TimerActive)
    (sha : String) : (s.resetSignal sha).TimerActive := by
  unfold resetSignal
  split_ifs
  · exact fun _ => rfl
  · exact hs

theorem ScaleState.SameHolds.timerSince (hsame : s.SameHolds s')
    (hs : s.TimerSince t) : s'.TimerSince t := by
  intro b hb
  exact hs b (hsame.belowCurrentSince ▸ hb)

theorem ScaleState.SameHolds.timerActive (hsame : s.SameHolds s')
    (hs : s.TimerActive) : s'.TimerActive := by
  intro hmode
  rw [hsame.belowCurrentSince]
  exact hs (hsame.mode ▸ hmode)

theorem Applied.timerSince {obs : Observation} {times : Instants}
    {d : Decision} {action : Action}
    (happlied : Applied obs times d s action s') (ht : t ≤ times.decision)
    (hs : s.TimerSince t) : s'.TimerSince t := by
  cases happlied with
  | recommend => exact hs
  | conflictHold => exact fun b hb => by cases hb
  | holdHeadroom => exact fun b hb => by cases hb
  | atTarget => exact fun b hb => by cases hb
  | scaleUp =>
      split_ifs
      · exact fun b hb => by cases hb
      · exact hs
  | scaleDown =>
      split_ifs
      · exact hs
      · exact hs
  | pending _ _ _ _ hstate =>
      rcases hstate with rfl | ⟨-, rfl⟩
      · exact hs
      · intro b hb
        cases hb
        exact ht

theorem Applied.timerActive {obs : Observation} {times : Instants}
    {d : Decision} {action : Action}
    (happlied : Applied obs times d s action s')
    (hmode : s.mode = some obs.spec.mode) (hs : s.TimerActive) :
    s'.TimerActive := by
  cases happlied with
  | recommend => exact hs
  | conflictHold => exact fun _ => rfl
  | holdHeadroom => exact fun _ => rfl
  | atTarget => exact fun _ => rfl
  | scaleUp =>
      split_ifs
      · exact fun _ => rfl
      · exact hs
  | scaleDown =>
      split_ifs
      · exact hs
      · exact hs
  | pending hactive _ _ _ hstate =>
      rcases hstate with rfl | ⟨-, rfl⟩
      · exact hs
      · intro hnot
        exact absurd (hactive ▸ hmode) hnot

/-- A decision that is not below the current count leaves no timer, unless a
due scale-up is lost. -/
theorem Applied.timer_reset {obs : Observation} {times : Instants}
    {d : Decision} {action : Action}
    (happlied : Applied obs times d s action s')
    (hmode : s.mode = some obs.spec.mode) (hs : s.TimerActive)
    (habove : d.current ≤ d.eventual)
    (hkept : obs.spec.mode = .active → obs.blocked = false →
      d.current < d.desired →
      write obs.answers d.term.policy times.expiryCheck ≠ .written →
      s.belowCurrentSince = none) :
    s'.belowCurrentSince = none := by
  cases happlied with
  | recommend hnot =>
      apply hs
      rw [hmode]
      exact fun h => hnot (Option.some.inj h)
  | conflictHold => rfl
  | holdHeadroom => rfl
  | atTarget => rfl
  | scaleUp hactive hblocked hup hresult =>
      split_ifs with hwritten
      · rfl
      · exact hkept hactive hblocked hup (hresult ▸ hwritten)
  | scaleDown _ _ hdown => exact absurd hdown (not_lt.mpr habove)
  | pending _ _ hdown => exact absurd hdown (not_lt.mpr habove)

end Resets

/-- Every step keeps the timer after `t`. -/
theorem operatorStep_timerSince {t : ℤ} {op : Operator}
    (event : OperatorEvent) (hclock : t ≤ op.clock)
    (hop : op.scale.TimerSince t) :
    (operatorStep op event).1.scale.TimerSince t := by
  apply operatorStep_preserves op event _ _ _ _ hop
  · exact fun b hb => by cases hb
  · exact fun mode uid now _ =>
      ScaleState.resetFor_timerSince hop mode uid now
  · exact fun s sha hs => ScaleState.resetSignal_timerSince hs sha
  · intro obs dep sha hevent times prepared decided hprepared action scale
      happlied
    apply happlied.timerSince
    · have hdecision := Delays.start_le_decision obs.delays
        (op.clock + event.wait)
      have htimes : times = obs.delays.instants (op.clock + event.wait) := by
        simp only [times, operatorStep, hevent]
      rw [htimes]
      omega
    · exact (decideReplicas_sameHolds ..).timerSince hprepared

/-- Every step keeps the timer to Active states. -/
theorem operatorStep_timerActive (op : Operator) (event : OperatorEvent)
    (hop : op.scale.TimerActive) :
    (operatorStep op event).1.scale.TimerActive := by
  apply operatorStep_preserves op event _ _ _ _ hop
  · exact fun _ => rfl
  · exact fun mode uid now _ =>
      ScaleState.resetFor_timerActive hop mode uid now
  · exact fun s sha hs => ScaleState.resetSignal_timerActive hs sha
  · intro obs dep sha hevent times prepared decided hprepared action scale
      happlied
    have hsame := decideReplicas_sameHolds obs times dep prepared
    apply happlied.timerActive
    · exact hsame.mode.trans (prepared_mode ..)
    · exact hsame.timerActive hprepared

/-- A step whose decision is not below the current count starts the wait
again. -/
theorem timerSince_of_decision {op : Operator} {event : OperatorEvent}
    {d : Decision} (hop : op.scale.TimerActive)
    (hkept : ¬OperatorEntry.LosesScaleUp (entryAt operatorStep op event))
    (hdecision : (operatorStep op event).2.decision = some d)
    (habove : d.current ≤ d.eventual) (t : ℤ) :
    (operatorStep op event).1.scale.TimerSince t := by
  obtain ⟨action, hout⟩ := OperatorReport.decision_eq_some hdecision
  obtain ⟨r⟩ := operatorStep_decided hout
  have hsame := decideReplicas_sameHolds r.obs (operatorStep op event).2.times
    r.dep r.prepared
  have hmode : r.prepared.mode = some r.obs.spec.mode := by
    rw [r.prepared_eq, prepared_mode]
  have hprepared : r.prepared.TimerActive := by
    rw [r.prepared_eq]
    apply ScaleState.resetSignal_timerActive
    exact ScaleState.resetFor_timerActive hop _ _ _
  have hnone := r.applied.timer_reset (hsame.mode.trans hmode)
    (hsame.timerActive hprepared) habove ?_
  · intro b hb
    rw [hnone] at hb
    cases hb
  · intro hactive hblocked hup hwrite
    rw [hsame.belowCurrentSince]
    by_contra htimer
    refine hkept ⟨r.obs, r.dep, r.sha, r.event_eq, r.decides, hactive,
      hblocked, ?_⟩
    rw [r.prepared_entry]
    obtain ⟨obs, dep, sha, _, _, prepared, _, _, hd, _⟩ := r
    subst hd
    exact ⟨hup, hwrite, htimer⟩

/-- A scale-down written without an override waited a stabilization window on
the timer. -/
theorem stabilized_of_scaledDown {t : ℤ} {op : Operator}
    {event : OperatorEvent} {d : Decision} (hop : op.scale.TimerSince t)
    (hdown : (operatorStep op event).2.scaledDown ≠ none)
    (hdecision : (operatorStep op event).2.decision = some d)
    (hover : d.overrideActive = false) :
    scaleDownStabilization ≤ (operatorStep op event).2.times.decision - t := by
  obtain ⟨⟨c, n⟩, hsome⟩ := Option.ne_none_iff_exists'.mp hdown
  obtain ⟨d', hout, -⟩ := OperatorReport.scaledDown_eq_some hsome
  have hd : d' = d := by
    simpa [OperatorReport.decision, hout] using hdecision
  subst hd
  obtain ⟨r⟩ := operatorStep_decided hout
  have hsame := decideReplicas_sameHolds r.obs (operatorStep op event).2.times
    r.dep r.prepared
  have hprepared : r.prepared.TimerSince t := by
    rw [r.prepared_eq]
    apply ScaleState.resetSignal_timerSince
    exact ScaleState.resetFor_timerSince hop _ _ _
  have hinactive : (decideReplicas r.obs r.dep
      (operatorStep op event).2.times r.prepared).2.overrideActive = false :=
    (congrArg Decision.overrideActive r.decision_eq).symm.trans hover
  have hfree := r.applied.scaleDown_inv.free.resolve_left
    (by rw [hinactive]; exact Bool.false_ne_true)
  cases htimer : (decideReplicas r.obs r.dep
      (operatorStep op event).2.times r.prepared).2.belowCurrentSince with
  | none => exact absurd (Or.inr (Or.inl htimer)) hfree
  | some b =>
      have hold : ¬(operatorStep op event).2.times.decision - b <
          scaleDownStabilization :=
        fun hlt => hfree (Or.inr (Or.inr ⟨b, htimer, hlt⟩))
      have hb := hsame.timerSince hprepared b htimer
      omega

/-- In every run from a fresh operator in which no due scale-up is lost while
the timer runs: when a scale-down is written without an override, every
decision of the stabilization window before it was below the then-current
count. -/
theorem scaleDown_below_throughout (op : Operator) (hfresh : op.scale = {})
    (events : List OperatorEvent)
    (hkept : ∀ e ∈ operatorRun op events, ¬OperatorEntry.LosesScaleUp e) :
    (operatorRun op events).Pairwise (fun e e' =>
      ∀ d d', e.report.decision = some d → e'.report.decision = some d' →
        e'.report.scaledDown ≠ none → d'.overrideActive = false →
        e'.report.times.update - scaleDownStabilization <
          e.report.times.decision → d.eventual < d.current) ∧
      ∀ e ∈ operatorRun op events, ∀ d, e.report.decision = some d →
        e.report.scaledDown ≠ none → d.eventual < d.current := by
  constructor
  · apply runTrace_pairwise (fun op => op.scale.TimerActive)
      (fun e => ¬OperatorEntry.LosesScaleUp e)
      (fun e op => ∀ d, e.report.decision = some d →
        d.current ≤ d.eventual → e.report.times.decision ≤ op.clock ∧
          op.scale.TimerSince e.report.times.decision)
    · exact operatorStep_timerActive
    · intro op event hop hkept d hdecision habove
      refine ⟨?_, timerSince_of_decision hop hkept hdecision habove _⟩
      obtain ⟨action, hout⟩ := OperatorReport.decision_eq_some hdecision
      obtain ⟨r⟩ := operatorStep_decided hout
      have hclock : (operatorStep op event).1.clock =
          (operatorStep op event).2.times.stamp := by
        simp only [operatorStep, r.event_eq]
      have hupdate := Delays.decision_le_update r.obs.delays
        (op.clock + event.wait)
      have hstamp := Delays.update_le_stamp r.obs.delays
        (op.clock + event.wait)
      rw [hclock]
      change (operatorStep op event).2.times.decision ≤ _
      rw [r.times_eq]
      exact hupdate.trans hstamp
    · intro e op event hop hkept hsince d hdecision habove
      obtain ⟨hclock, htimer⟩ := hsince d hdecision habove
      exact ⟨hclock.trans (clock_le_operatorStep op event),
        operatorStep_timerSince event hclock htimer⟩
    · intro e op event hop hkept hsince d d' hdecision hdecision' hdown hover
        hwindow
      by_contra hnot
      obtain ⟨-, htimer⟩ := hsince d hdecision (not_lt.mp hnot)
      have hwait := stabilized_of_scaledDown htimer hdown hdecision' hover
      obtain ⟨action, hout⟩ := OperatorReport.decision_eq_some hdecision'
      obtain ⟨r⟩ := operatorStep_decided hout
      have hupdate := Delays.decision_le_update r.obs.delays
        (op.clock + event.wait)
      rw [← r.times_eq] at hupdate
      change (operatorStep op event).2.times.update - _ < _ at hwindow
      omega
    · simp [hfresh, ScaleState.TimerActive]
    · exact hkept
  · intro e he d hdecision hdown
    obtain ⟨-, heq⟩ := mem_runTrace_imp (fun _ => True)
      (fun _ _ _ => trivial) trivial he
    rw [heq] at hdecision hdown
    obtain ⟨⟨c, n⟩, hsome⟩ := Option.ne_none_iff_exists'.mp hdown
    obtain ⟨d', hout, -⟩ := OperatorReport.scaledDown_eq_some hsome
    have hd : d' = d := by
      simpa [OperatorReport.decision, hout] using hdecision
    obtain ⟨r⟩ := operatorStep_decided hout
    exact hd ▸ r.applied.scaleDown_inv.below

namespace BelowCurrentWitness

open ReconcileWitness OperatorWitness

/-- Ten replicas are needed throughout; the timer starts at 300 s. -/
def steadyNeed : List OperatorEvent :=
  [after 0 (.reconcile observation), after 300 (.reconcile observation),
    after 100 (.reconcile observation), after 200 (.reconcile observation)]

/-- A need of 25 replicas whose scale-up finds a changed count. -/
def staleScaleUp : Observation :=
  { observation with rate := some (1500 : ℕ), answers := ⟨.stale, true, .applied⟩ }

/-- The need rises above the current count at 400 s, the scale-up is aborted
as stale, and a scale-down is written at 601 s. -/
def lostScaleUp : List OperatorEvent :=
  [after 0 (.reconcile observation), after 300 (.reconcile observation),
    after 100 (.reconcile staleScaleUp), after 201 (.reconcile observation)]

end BelowCurrentWitness

theorem steadyNeed_below_throughout :
    ((operatorRun OperatorWitness.operator BelowCurrentWitness.steadyNeed).map
      (·.report.scaledDown) = [none, none, none, some (20, 18)]) ∧
    (operatorRun OperatorWitness.operator
      BelowCurrentWitness.steadyNeed).Pairwise (fun e e' =>
      ∀ d d', e.report.decision = some d → e'.report.decision = some d' →
        e'.report.scaledDown ≠ none → d'.overrideActive = false →
        e'.report.times.update - scaleDownStabilization <
          e.report.times.decision → d.eventual < d.current) := by
  have hbelow : ∀ e ∈ operatorRun OperatorWitness.operator
      BelowCurrentWitness.steadyNeed, ∀ obs, e.event.action = .reconcile obs →
      obs = ReconcileWitness.observation := by
    intro e he obs hobs
    simp only [operatorRun, runTrace, BelowCurrentWitness.steadyNeed,
      List.mem_cons, List.not_mem_nil, or_false] at he
    rcases he with rfl | rfl | rfl | rfl <;>
      exact (OperatorAction.reconcile.inj hobs).symm
  refine ⟨by decide +kernel,
    (scaleDown_below_throughout _ rfl _ ?_).1⟩
  rintro e he ⟨obs, dep, sha, hevent, hdecides, -, -, -, hwrite, -⟩
  rw [hbelow e he obs hevent] at hwrite
  exact hwrite rfl

/-- A scale-up that is not applied does not restart the wait. -/
theorem lostScaleUp_not_below :
    ¬∀ (op : Operator) (events : List OperatorEvent), op.scale = {} →
      (operatorRun op events).Pairwise (fun e e' =>
        ∀ d d', e.report.decision = some d → e'.report.decision = some d' →
          e'.report.scaledDown ≠ none → d'.overrideActive = false →
          e'.report.times.update - scaleDownStabilization <
            e.report.times.decision → d.eventual < d.current) := by
  intro hall
  have hrun := hall OperatorWitness.operator BelowCurrentWitness.lostScaleUp rfl
  have hpair := List.pairwise_iff_getElem.mp hrun 2 3 (by decide) (by decide)
    (by decide)
  have hfirst : ∃ d, (operatorRun OperatorWitness.operator
      BelowCurrentWitness.lostScaleUp)[2].report.decision = some d ∧
      ¬d.eventual < d.current :=
    ⟨_, rfl, by decide +kernel⟩
  have hsecond : ∃ d, (operatorRun OperatorWitness.operator
      BelowCurrentWitness.lostScaleUp)[3].report.decision = some d ∧
      d.overrideActive = false :=
    ⟨_, rfl, by decide +kernel⟩
  obtain ⟨d, hd, hnot⟩ := hfirst
  obtain ⟨d', hd', hover⟩ := hsecond
  exact hnot (hpair d d' hd hd' (by decide +kernel) hover (by decide +kernel))

end PredictiveAutoscaler
