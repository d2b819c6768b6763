/-
When an issued window becomes a terminal outcome, and what that outcome is.  A
window is scored only when every target was received by the fixed truth
deadline; from the deadline on a window with a missing target closes without
its truth.
-/
import PredictiveAutoscaler.Forecasting.Contracts

namespace PredictiveAutoscaler.Forecasting

/-- The first receipt of an observation. -/
structure Receipt where
  value : ℚ
  firstReceivedMs : ℕ
deriving DecidableEq, Repr

/-- Event times to first receipts. -/
abbrev Receipts := ℕ → Option Receipt

def truthDeadlineMs (windowEnd settlement grace : ℕ) : ℕ :=
  (windowEnd + settlement + grace) * 1000

/-- The steps between the targets of a window. -/
def targetSteps (targets : List ℕ) : List ℤ :=
  List.zipWith (fun (a b : ℕ) => (b : ℤ) - a) targets targets.tail

/-- One or more grid times, strictly increasing at a constant step. -/
def checkWindow (targets : List ℕ) : Except Raised Unit :=
  let steps := targetSteps targets
  if targets = [] then
    .error (.valueError "a window has integer target times")
  else if ∃ d ∈ steps, d ≠ steps.headD 1 ∨ d ≤ 0 then
    .error (.valueError "window targets must be evenly spaced and increasing")
  else .ok ()

/-- The value of a target received by the cutoff. -/
def Receipts.by (received : Receipts) (cutoff t : ℕ) : Option Receipt :=
  (received t).filter fun r => decide (r.firstReceivedMs ≤ cutoff)

/-- None while the window is pending, else its terminal payload. -/
def windowOutcome (targets : List ℕ) (base : ℚ) (upper : Option ℚ)
    (received : Receipts) (nowMs settlement grace : ℕ) :
    Except Raised (Option OutcomePayload) := do
  checkWindow targets
  let windowEnd := targets.getLastD 0
  let deadlineMs := truthDeadlineMs windowEnd settlement grace
  if nowMs < (windowEnd + settlement) * 1000 then return none
  let cutoff := min nowMs deadlineMs
  let got := targets.filterMap (received.by cutoff)
  match targets.filter fun t => (received.by cutoff t).isNone with
  | first :: rest =>
      if nowMs < deadlineMs then return none
      else
        return some (.unscorable
          { targets, missingTargets := rest.length + 1, firstMissing := first
            deadlineMs })
  | [] =>
      return some (.scored
        { targets
          yWindowMaxRps := maxRps (got.map Receipt.value)
          baseWindowMaxRps := base
          upperWindowMaxRps := upper
          values := got.map Receipt.value
          completedAtMs := (got.map Receipt.firstReceivedMs).foldl max 0 })

/-- The outcome of one model of an issuance, on the bundle's own grid and that
model's issued base and bound. -/
def issuedOutcome (bundle : Bundle) (model : Model) (received : Receipts)
    (nowMs settlement grace : ℕ) : Except Raised (Option OutcomePayload) := do
  let c ← bundle.candidate model
  windowOutcome bundle.targetTimestamps c.baseWindowMaxRps
    c.upperWindowMaxRps received nowMs settlement grace

theorem targetSteps_grid (origin dt n : ℕ) :
    ∀ d ∈ targetSteps ((List.range n).map fun k => origin + (k + 1) * dt),
      d = dt := by
  intro d hd
  obtain ⟨i, hi, rfl⟩ := List.mem_iff_getElem.mp hd
  simp only [targetSteps, List.getElem_zipWith, List.getElem_map,
    List.getElem_range, List.getElem_tail]
  push_cast
  ring

/-- The grid of a window with at least one step passes its check. -/
theorem checkWindow_windowGrid {origin windowEnd dt : ℕ} (hdt : 0 < dt)
    (hlead : dt ≤ windowEnd - origin) :
    checkWindow (windowGrid origin windowEnd dt) = .ok () := by
  have hsteps := targetSteps_grid origin dt ((windowEnd - origin) / dt)
  have hn : 0 < (windowEnd - origin) / dt := Nat.div_pos hlead hdt
  have hne : windowGrid origin windowEnd dt ≠ [] := by
    simp only [windowGrid, ne_eq, List.map_eq_nil_iff, List.range_eq_nil]
    omega
  unfold checkWindow
  simp only [hne, if_false]
  refine if_neg ?_
  rintro ⟨d, hd, hbad⟩
  have hdd := hsteps d hd
  cases hlist : targetSteps (windowGrid origin windowEnd dt) with
  | nil => rw [hlist] at hd; cases hd
  | cons e rest =>
      have he := hsteps e (by
        change e ∈ targetSteps (windowGrid origin windowEnd dt)
        rw [hlist]
        exact List.mem_cons_self)
      rw [hlist] at hbad
      simp only [List.headD_cons] at hbad
      omega

/-- The last target of a grid is the window's end. -/
theorem getLastD_windowGrid {origin windowEnd dt : ℕ} (hdt : 0 < dt)
    (hgrid : (windowEnd - origin) % dt = 0) (hlead : dt ≤ windowEnd - origin) :
    (windowGrid origin windowEnd dt).getLastD 0 = windowEnd := by
  have hn : 0 < (windowEnd - origin) / dt := Nat.div_pos hlead hdt
  obtain ⟨n, hn⟩ := Nat.exists_eq_succ_of_ne_zero hn.ne'
  have hend : (n + 1) * dt = windowEnd - origin := by
    rw [← Nat.succ_eq_add_one, ← hn]
    exact Nat.div_mul_cancel (Nat.dvd_of_mod_eq_zero hgrid)
  unfold windowGrid
  rw [hn, List.range_succ, List.map_append, List.getLastD_eq_getLast?,
    List.getLast?_append]
  simp only [List.map_cons, List.map_nil, List.getLast?_singleton,
    Option.some_or, Option.getD_some]
  omega

section Closing

variable {targets : List ℕ} {base : ℚ} {upper : Option ℚ}
  {received : Receipts} {nowMs settlement grace : ℕ}
  (hcheck : checkWindow targets = .ok ())

include hcheck

/-- Before it can close, a window is pending. -/
theorem windowOutcome_pending
    (hnow : nowMs < (targets.getLastD 0 + settlement) * 1000) :
    windowOutcome targets base upper received nowMs settlement grace =
      .ok none := by
  simp only [windowOutcome, hcheck, hnow, if_true]
  rfl

/-- A window with every target received by now and by the deadline is
scored. -/
theorem windowOutcome_scored
    (hnow : (targets.getLastD 0 + settlement) * 1000 ≤ nowMs)
    (hall : ∀ t ∈ targets, (received.by (min nowMs (truthDeadlineMs
      (targets.getLastD 0) settlement grace)) t).isSome = true) :
    ∃ p, windowOutcome targets base upper received nowMs settlement grace =
      .ok (some (.scored p)) := by
  have hnone : targets.filter (fun t => (received.by (min nowMs
      (truthDeadlineMs (targets.getLastD 0) settlement grace)) t).isNone) =
      [] := by
    rw [List.filter_eq_nil_iff]
    intro t ht hmissing
    rw [Option.isNone_iff_eq_none] at hmissing
    have hsome := hall t ht
    rw [hmissing] at hsome
    cases hsome
  simp only [windowOutcome, hcheck, Nat.not_lt.mpr hnow, if_false, hnone]
  exact ⟨_, rfl⟩

/-- From the deadline on, a window with a target that was not received by it
closes without its truth. -/
theorem windowOutcome_unscorable {t : ℕ} (ht : t ∈ targets)
    (hdeadline : truthDeadlineMs (targets.getLastD 0) settlement grace ≤ nowMs)
    (hmissing : received.by (truthDeadlineMs (targets.getLastD 0) settlement
      grace) t = none) :
    ∃ p, windowOutcome targets base upper received nowMs settlement grace =
      .ok (some (.unscorable p)) := by
  have hclose : ¬nowMs < (targets.getLastD 0 + settlement) * 1000 := by
    unfold truthDeadlineMs at hdeadline
    omega
  have hmem : t ∈ targets.filter (fun t => (received.by (truthDeadlineMs
      (targets.getLastD 0) settlement grace) t).isNone) :=
    List.mem_filter.mpr ⟨ht, by rw [hmissing]; rfl⟩
  simp only [windowOutcome, hcheck, hclose, if_false,
    Nat.min_eq_right hdeadline]
  split
  · rw [if_neg (Nat.not_lt.mpr hdeadline)]
    exact ⟨_, rfl⟩
  · rename_i hnil
    rw [hnil] at hmem
    cases hmem

end Closing

end PredictiveAutoscaler.Forecasting
