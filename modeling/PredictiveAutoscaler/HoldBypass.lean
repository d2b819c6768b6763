/-
When a scale-down may skip the two stabilization holds.  The holds are skipped
under an active override only; an override is active at the application of a
decision either because the detector capped that very decision, or because an
earlier reconcile raised it and nothing has cleared it since.
-/
import PredictiveAutoscaler.Operator

namespace PredictiveAutoscaler

/-- A hold is running and the override of an earlier reconcile is in force
although this reconcile does not cap its forecast. -/
def OperatorEntry.LeftoverInHold (e : OperatorEntry) : Prop :=
  ∃ obs steps, e.event.action = .reconcile obs ∧
    (obs.term e.report.times).steps = some steps ∧
    LeftoverOverride (obs.term e.report.times).predicted
      (reactiveReplicas obs.spec obs.rate) (OperatorEntry.prepared e)
      ((obs.rate.getD 0 : ℚ≥0) : ℚ) steps ∧
    HoldRunning (OperatorEntry.prepared e) e.report.times.decision

/-- The overestimate detector capped the decision of this step. -/
def OperatorReport.Capped (r : OperatorReport) : Prop :=
  ∃ d, r.decision = some d ∧ d.Capped

instance (r : OperatorReport) : Decidable r.Capped :=
  decidable_of_iff (∃ d ∈ r.decision, d.predicted < d.term.predicted) Iff.rfl

/-- A scale-down written while a hold runs is capped, unless an override is
left over. -/
theorem capped_of_holdRunning {op : Operator} {event : OperatorEvent}
    (hdown : (operatorStep op event).2.scaledDown ≠ none)
    (hleft : ¬OperatorEntry.LeftoverInHold (entryAt operatorStep op event))
    (hhold : HoldRunning
      (OperatorEntry.prepared (entryAt operatorStep op event))
      (operatorStep op event).2.times.decision) :
    (operatorStep op event).2.Capped := by
  obtain ⟨⟨c, n⟩, hsome⟩ := Option.ne_none_iff_exists'.mp hdown
  obtain ⟨d, hout, -⟩ := OperatorReport.scaledDown_eq_some hsome
  obtain ⟨r⟩ := operatorStep_decided hout
  have hdecision : (operatorStep op event).2.decision = some d := by
    simp only [OperatorReport.decision, hout]
  have hsame := decideReplicas_sameHolds r.obs (operatorStep op event).2.times
    r.dep r.prepared
  rw [r.prepared_entry] at hhold
  have hrunning : HoldRunning (decideReplicas r.obs r.dep
      (operatorStep op event).2.times r.prepared).2
      (operatorStep op event).2.times.decision := by
    unfold HoldRunning at hhold ⊢
    rw [hsame.lastScaleUp, hsame.belowCurrentSince]
    exact hhold
  have hactive := r.applied.scaleDown_inv.free.resolve_right
    (not_not.mpr hrunning)
  refine ⟨d, hdecision, ?_⟩
  by_contra huncapped
  rw [r.decision_eq] at huncapped
  obtain ⟨steps, hsteps, hleftover⟩ := decideReplicas_leftover r.obs
    (operatorStep op event).2.times r.dep r.prepared hactive huncapped
  refine hleft ⟨r.obs, steps, r.event_eq, hsteps, ?_, ?_⟩
  · rw [r.prepared_entry]
    exact hleftover
  · rw [r.prepared_entry]
    exact hhold

/-- A written scale-up counts from its stamp on. -/
theorem countsSince_of_scaledUp {op : Operator} {event : OperatorEvent}
    (hup : (operatorStep op event).2.scaledUp = true) :
    (operatorStep op event).1.CountsSince .up
      (operatorStep op event).2.times.stamp := by
  obtain ⟨d, n, hout⟩ := OperatorReport.scaledUp_eq_true hup
  obtain ⟨r⟩ := operatorStep_decided hout
  exact r.countsSince_stamp .up r.applied.scaleUp_written

/-- Less than a stabilization window after a counted scale-up the first hold
is running. -/
theorem holdRunning_of_countsSince {t : ℤ} {op : Operator}
    {event : OperatorEvent} (hop : op.CountsSince .up t)
    (hdown : (operatorStep op event).2.scaledDown ≠ none)
    (hrecent : (operatorStep op event).2.times.decision - t <
      scaleDownStabilization) :
    HoldRunning (OperatorEntry.prepared (entryAt operatorStep op event))
      (operatorStep op event).2.times.decision := by
  obtain ⟨⟨c, n⟩, hsome⟩ := Option.ne_none_iff_exists'.mp hdown
  obtain ⟨d, hout, -⟩ := OperatorReport.scaledDown_eq_some hsome
  obtain ⟨r⟩ := operatorStep_decided hout
  obtain ⟨up, hlast, hle⟩ := r.countsSince r.applied.scaleDown_inv.mode hop
  have hsame := decideReplicas_sameHolds r.obs (operatorStep op event).2.times
    r.dep r.prepared
  rw [r.prepared_entry]
  refine Or.inl ⟨up, ?_, by omega⟩
  rw [← hsame.lastScaleUp]
  exact hlast

/-- In every run without an override left over in a hold, a scale-down that is
written within a stabilization window of a scale-up, or before the
below-current timer has run that long, is capped in its own reconcile. -/
theorem scaleDown_in_hold_capped (op : Operator) (events : List OperatorEvent)
    (hleft : ∀ e ∈ operatorRun op events, ¬OperatorEntry.LeftoverInHold e) :
    (operatorRun op events).Pairwise (fun e e' =>
      e.report.scaledUp = true → e'.report.scaledDown ≠ none →
        e'.report.times.decision - e.report.times.stamp <
          scaleDownStabilization → e'.report.Capped) ∧
      ∀ e ∈ operatorRun op events, e.report.scaledDown ≠ none →
        ((OperatorEntry.prepared e).belowCurrentSince = none ∨
          Within scaleDownStabilization
            (OperatorEntry.prepared e).belowCurrentSince
            e.report.times.decision) → e.report.Capped := by
  constructor
  · apply runTrace_pairwise (fun _ => True)
      (fun e => ¬OperatorEntry.LeftoverInHold e)
      (fun e op => e.report.scaledUp = true →
        op.CountsSince .up e.report.times.stamp)
    · exact fun _ _ _ => trivial
    · exact fun op event _ _ hup => countsSince_of_scaledUp hup
    · exact fun e op event _ _ hsince hup =>
        operatorStep_countsSince event (hsince hup)
    · intro e op event _ hleft hsince hup hdown hrecent
      exact capped_of_holdRunning hdown hleft
        (holdRunning_of_countsSince (hsince hup) hdown hrecent)
    · trivial
    · exact hleft
  · intro e he hdown hbelow
    have hnot := hleft e he
    obtain ⟨-, heq⟩ := mem_runTrace_imp (fun _ => True)
      (fun _ _ _ => trivial) trivial he
    rw [heq] at hdown hbelow hnot ⊢
    exact capped_of_holdRunning hdown hnot (Or.inr hbelow)

namespace HoldBypassWitness

open ReconcileWitness OperatorWitness

/-- A forecast of a constant rate, issued when it is used. -/
def forecasting (rpm : ℚ) : Observation :=
  { observation with
    forecasts :=
      ⟨.ok ⟨List.replicate 6 rpm, 1, none⟩, .error .noResponse⟩ }

/-- A forecast of twice the need is capped in its third reconcile, after the
cooldown: the scale-down skips the holds in the reconcile that caps. -/
def cappedInHold : List OperatorEvent :=
  [after 0 (.reconcile (forecasting 1200)),
    after 60 (.reconcile (forecasting 1200)),
    after 90 (.reconcile (forecasting 1200))]

/-- The third reconcile caps inside the cooldown and writes nothing; the
fourth, with a forecast of a tenth more than the need, caps nothing. -/
def leftoverOverride : List OperatorEvent :=
  [after 0 (.reconcile (forecasting 1200)),
    after 60 (.reconcile (forecasting 1200)),
    after 59 (.reconcile (forecasting 1200)),
    after 31 (.reconcile (forecasting 660))]

end HoldBypassWitness

theorem cappedInHold_capped :
    ∃ e ∈ operatorRun OperatorWitness.operator HoldBypassWitness.cappedInHold,
      e.report.scaledDown = some (20, 18) ∧
        (OperatorEntry.prepared e).belowCurrentSince = none ∧
        e.report.Capped := by
  have hclear : ∀ e ∈ operatorRun OperatorWitness.operator
      HoldBypassWitness.cappedInHold,
      (OperatorEntry.prepared e).overrideActive = false := by
    decide +kernel
  have hthird : ∃ e ∈ operatorRun OperatorWitness.operator
      HoldBypassWitness.cappedInHold, e.report.scaledDown = some (20, 18) ∧
        (OperatorEntry.prepared e).belowCurrentSince = none := by
    decide +kernel
  obtain ⟨e, he, hdown, hbelow⟩ := hthird
  refine ⟨e, he, hdown, hbelow, (scaleDown_in_hold_capped _ _ ?_).2 e he
    (by simp [hdown]) (Or.inl hbelow)⟩
  rintro e he ⟨obs, steps, -, -, hleft, -⟩
  have hactive := hleft.1
  rw [hclear e he] at hactive
  cases hactive

/-- An override whose cap no longer applies skips both holds. -/
theorem leftoverOverride_not_capped :
    ¬∀ (op : Operator) (events : List OperatorEvent),
      ∀ e ∈ operatorRun op events, e.report.scaledDown ≠ none →
        ((OperatorEntry.prepared e).belowCurrentSince = none ∨
          Within scaleDownStabilization
            (OperatorEntry.prepared e).belowCurrentSince
            e.report.times.decision) → e.report.Capped := by
  intro hall
  have hrun := hall OperatorWitness.operator HoldBypassWitness.leftoverOverride
  revert hrun
  decide +kernel

end PredictiveAutoscaler
