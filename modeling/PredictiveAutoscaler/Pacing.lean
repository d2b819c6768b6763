/-
Scale-down pacing over whole runs.  The cooldown is kept by one property of
the scale state: an Active state counts a scale-down at or after a given
instant.  A written scale-down, a restart and a switch to Active that the
operator observes all establish it, and every step keeps it.
-/
import PredictiveAutoscaler.Operator

namespace PredictiveAutoscaler

/-- While a write at or after `t` counts, a scale-down is written a cooldown
after `t` at the earliest. -/
theorem cooldown_le_of_countsSince {t : ℤ} {op : Operator}
    {event : OperatorEvent} {c n : ℤ} (hop : op.CountsSince .down t)
    (hdown : (operatorStep op event).2.scaledDown = some (c, n)) :
    scaleDownCooldown ≤ (operatorStep op event).2.times.update - t := by
  obtain ⟨d, hout, -⟩ := OperatorReport.scaledDown_eq_some hdown
  obtain ⟨r⟩ := operatorStep_decided hout
  have hwrite := r.applied.scaleDown_inv
  obtain ⟨down, hlast, hle⟩ := r.countsSince hwrite.mode hop
  have hage : ¬(operatorStep op event).2.times.decision - down <
      scaleDownCooldown := fun hlt => hwrite.cooled ⟨down, hlast, hlt⟩
  have hupdate := Delays.decision_le_update r.obs.delays
    (op.clock + event.wait)
  rw [← r.times_eq] at hupdate
  omega

/-- A written scale-down counts from the instant of its update on. -/
theorem countsSince_of_scaledDown {op : Operator} {event : OperatorEvent}
    {c n : ℤ} (hdown : (operatorStep op event).2.scaledDown = some (c, n)) :
    (operatorStep op event).1.CountsSince .down
      (operatorStep op event).2.times.update := by
  obtain ⟨d, hout, -⟩ := OperatorReport.scaledDown_eq_some hdown
  obtain ⟨r⟩ := operatorStep_decided hout
  have hstamp := Delays.update_le_stamp r.obs.delays (op.clock + event.wait)
  rw [← r.times_eq] at hstamp
  exact (r.countsSince_stamp .down
    r.applied.scaleDown_written).mono hstamp

/-- What one written scale-down removes. -/
theorem scaledDown_removes {op : Operator} {event : OperatorEvent} {c n : ℤ}
    (hdown : (operatorStep op event).2.scaledDown = some (c, n)) :
    c - n ≤ max 2 ⌈(c / 10 : ℚ)⌉ ∧ 1 ≤ n := by
  obtain ⟨d, hout, rfl⟩ := OperatorReport.scaledDown_eq_some hdown
  obtain ⟨r⟩ := operatorStep_decided hout
  have hcurrent : d.current = r.dep.replicas :=
    congrArg Decision.current r.decision_eq
  rw [r.applied.scaleDown_inv.target_eq]
  refine ⟨sub_gradualTarget_le ?_ ?_ _, gradualTarget_pos _ _⟩
  · exact hcurrent ▸ r.dep.replicas_nonneg
  · exact hcurrent ▸ r.dep.replicas_le

/-- A user makes an autoscaler Active that was not. -/
def OperatorEntry.SwitchesToActive (e : OperatorEntry) : Prop :=
  e.before.mode ≠ .active ∧
    (e.event.action = .switchMode .active ∨
      e.event.action = .recreate .active)

/-- The operator's scale state is not one of Active mode: the last reconcile
that read its target read another mode, or there is none since a restart. -/
def OperatorEntry.SeesSwitch (e : OperatorEntry) : Prop :=
  e.before.scale.mode ≠ some .active

/-- The instants after which a step blocks scale-downs for a cooldown. -/
def OperatorEntry.BlocksFrom (e : OperatorEntry) (t : ℤ) : Prop :=
  (e.event.action = .restart ∧ t = e.report.times.start) ∨
    (OperatorEntry.SwitchesToActive e ∧ OperatorEntry.SeesSwitch e ∧
      t = e.report.times.start) ∨
    (e.report.scaledDown ≠ none ∧ t = e.report.times.update)

theorem countsSince_of_blocksFrom {op : Operator} {event : OperatorEvent}
    {t : ℤ} (h : OperatorEntry.BlocksFrom (entryAt operatorStep op event) t) :
    (operatorStep op event).1.CountsSince .down t := by
  rcases h with ⟨hrestart, rfl⟩ | ⟨⟨-, hswitch⟩, hsees, rfl⟩ | ⟨hdown, rfl⟩
  · have haction : event.action = .restart := hrestart
    simp only [entryAt, operatorStep, haction]
    exact ⟨le_rfl, fun hmode => by cases hmode⟩
  · have hmode : op.scale.mode ≠ some .active := hsees
    rcases hswitch with h | h
    · have haction : event.action = .switchMode .active := h
      simp only [entryAt, operatorStep, haction]
      exact ⟨le_rfl, fun hactive => absurd hactive hmode⟩
    · have haction : event.action = .recreate .active := h
      simp only [entryAt, operatorStep, haction]
      exact ⟨le_rfl, fun hactive => absurd hactive hmode⟩
  · obtain ⟨⟨c, n⟩, hsome⟩ := Option.ne_none_iff_exists'.mp hdown
    exact countsSince_of_scaledDown hsome

/-- In every run, two scale-downs are written a cooldown apart, none is
written within a cooldown of a restart or of a switch to Active that the
operator observes, and each removes at most the larger of two replicas and a
tenth and leaves at least one. -/
theorem scaleDown_pacing (op : Operator) (events : List OperatorEvent) :
    (operatorRun op events).Pairwise (fun e e' =>
      e'.report.scaledDown ≠ none →
        (e.report.scaledDown ≠ none →
          scaleDownCooldown ≤
            e'.report.times.update - e.report.times.update) ∧
        (e.event.action = .restart →
          scaleDownCooldown ≤
            e'.report.times.update - e.report.times.start) ∧
        (OperatorEntry.SwitchesToActive e → OperatorEntry.SeesSwitch e →
          scaleDownCooldown ≤
            e'.report.times.update - e.report.times.start)) ∧
      ∀ e ∈ operatorRun op events, ∀ c n,
        e.report.scaledDown = some (c, n) →
          c - n ≤ max 2 ⌈(c / 10 : ℚ)⌉ ∧ 1 ≤ n := by
  constructor
  · have hpairs : (operatorRun op events).Pairwise fun e e' =>
        ∀ t, OperatorEntry.BlocksFrom e t → e'.report.scaledDown ≠ none →
          scaleDownCooldown ≤ e'.report.times.update - t := by
      apply runTrace_pairwise (fun _ => True) (fun _ => True)
        (fun e op => ∀ t, OperatorEntry.BlocksFrom e t →
          op.CountsSince .down t)
      · exact fun _ _ _ => trivial
      · exact fun op event _ _ t ht => countsSince_of_blocksFrom ht
      · exact fun e op event _ _ hsince t ht =>
          operatorStep_countsSince event (hsince t ht)
      · intro e op event _ _ hsince t ht hdown
        obtain ⟨⟨c, n⟩, hsome⟩ := Option.ne_none_iff_exists'.mp hdown
        exact cooldown_le_of_countsSince (hsince t ht) hsome
      · trivial
      · exact fun _ _ => trivial
    refine hpairs.imp fun {e e'} h hdown => ⟨?_, ?_, ?_⟩
    · exact fun hdown' => h _ (Or.inr (Or.inr ⟨hdown', rfl⟩)) hdown
    · exact fun hrestart => h _ (Or.inl ⟨hrestart, rfl⟩) hdown
    · exact fun hswitch hsees =>
        h _ (Or.inr (Or.inl ⟨hswitch, hsees, rfl⟩)) hdown
  · intro e he c n hdown
    obtain ⟨-, heq⟩ := mem_runTrace_imp (fun _ => True)
      (fun _ _ _ => trivial) trivial he
    rw [heq] at hdown
    exact scaledDown_removes hdown

namespace PacingWitness

open ReconcileWitness OperatorWitness

/-- A scale-down is written one second after a switch back to Active: both
switches fall between two reconciles, which read Active each time. -/
def unseenSwitch : List OperatorEvent :=
  [after 0 (.reconcile observation), after 300 (.reconcile observation),
    after 290 (.switchMode .recommend), after 9 (.switchMode .active),
    after 1 (.reconcile observation)]

end PacingWitness

/-- Not every switch to Active blocks scale-downs for a cooldown. -/
theorem unseenSwitch_not_paced :
    ¬∀ (op : Operator) (events : List OperatorEvent),
      (operatorRun op events).Pairwise fun e e' =>
        e'.report.scaledDown ≠ none → OperatorEntry.SwitchesToActive e →
          scaleDownCooldown ≤
            e'.report.times.update - e.report.times.start := by
  intro hall
  have hrun := hall OperatorWitness.operator PacingWitness.unseenSwitch
  have hpair := List.pairwise_iff_getElem.mp hrun 3 4 (by decide) (by decide)
    (by decide)
  have hdown : (operatorRun OperatorWitness.operator
      PacingWitness.unseenSwitch)[4].report.scaledDown = some (20, 18) := by
    decide +kernel
  have hcooldown := hpair (by rw [hdown]; simp) ⟨by decide, Or.inl rfl⟩
  revert hcooldown
  decide +kernel

end PredictiveAutoscaler
