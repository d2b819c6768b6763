/-
The scale-down rules of the operator: the headroom floor under a decision, the
two stabilization holds, the cooldown and the gradual reduction.
-/
import PredictiveAutoscaler.Overestimate

namespace PredictiveAutoscaler

/-- The wait after a scale-up, and below the current count. -/
def scaleDownStabilization : ℤ := 5 * minute

/-- The minimum time between two scale-downs. -/
def scaleDownCooldown : ℤ := 2 * minute

/-- The most of the fleet one scale-down removes, in percent. -/
def scaleDownMaxPercent : ℤ := 10

/-- What one scale-down may remove whatever the percentage. -/
def scaleDownMinPods : ℤ := 2

/-- A set time is less than `window` ago. -/
def Within (window : ℤ) (since : Option ℤ) (now : ℤ) : Prop :=
  ∃ t, since = some t ∧ now - t < window

instance (window : ℤ) (since : Option ℤ) (now : ℤ) :
    Decidable (Within window since now) :=
  match since with
  | none => isFalse (by rintro ⟨t, ht, -⟩; cases ht)
  | some t =>
      decidable_of_iff (now - t < window)
        ⟨fun h => ⟨t, rfl, h⟩, by rintro ⟨_, ⟨⟩, h⟩; exact h⟩

/-- The eventual count of a scale-down, the larger of the decision and the
headroom floor, and whether the floor holds it.  A hold restarts the
below-current window. -/
def headroomEventual (state : ScaleState) (current desired floor : ℤ) :
    ℤ × Bool × ScaleState :=
  let eventual := if desired < floor then floor else desired
  if current ≤ eventual then
    (current, true, { state with belowCurrentSince := none })
  else (eventual, false, state)

/-- Rule 4: the most replicas one scale-down removes. -/
def maxRemove (current : ℤ) : ℤ :=
  let share := toInt32
    (⌈binary64 (binary64 (current * scaleDownMaxPercent) / 100)⌉ : ℤ)
  if share < scaleDownMinPods then scaleDownMinPods else share

/-- Rule 4: the next count on the way to `desired`. -/
def gradualTarget (current desired : ℤ) : ℤ :=
  let target := current - maxRemove current
  let target := if target < desired then desired else target
  if target < 1 then 1 else target

/-- Rules 3 and 4: the cooldown, then the gradual reduction. -/
def cooledTarget (state : ScaleState) (now : ℤ) (current desired : ℤ) :
    ℤ :=
  if Within scaleDownCooldown state.lastScaleDown now then current
  else gradualTarget current desired

/-- Stabilization and gradual reduction; the current count when the
scale-down is blocked.  An active override skips rules 1 and 2. -/
def calculateScaleDownTarget (state : ScaleState) (now : ℤ)
    (current desired : ℤ) : ℤ × ScaleState :=
  if state.overrideActive then (cooledTarget state now current desired, state)
  else if Within scaleDownStabilization state.lastScaleUp now then
    (current, state)
  else
    match state.belowCurrentSince with
    | none => (current, { state with belowCurrentSince := some now })
    | some since =>
        if now - since < scaleDownStabilization then (current, state)
        else (cooledTarget state now current desired, state)

/-- One of the two holds is running: a scale-up less than a stabilization
window ago, or the count not below the current one for that long. -/
def HoldRunning (state : ScaleState) (now : ℤ) : Prop :=
  Within scaleDownStabilization state.lastScaleUp now ∨
    state.belowCurrentSince = none ∨
    Within scaleDownStabilization state.belowCurrentSince now

instance (state : ScaleState) (now : ℤ) :
    Decidable (HoldRunning state now) :=
  inferInstanceAs (Decidable (_ ∨ _ ∨ _))

section Spec

variable (state : ScaleState) (now : ℤ) (current desired : ℤ)

theorem cooledTarget_lt
    (hlt : cooledTarget state now current desired < current) :
    ¬Within scaleDownCooldown state.lastScaleDown now ∧
      cooledTarget state now current desired =
        gradualTarget current desired := by
  unfold cooledTarget at hlt ⊢
  split_ifs at hlt ⊢ with hcool
  · exact absurd hlt (lt_irrefl current)
  · exact ⟨hcool, rfl⟩

/-- While a hold runs and no override is active, the count is kept; the
below-current timer is then at most started. -/
theorem calculateScaleDownTarget_hold (hover : state.overrideActive = false)
    (hhold : HoldRunning state now) :
    (calculateScaleDownTarget state now current desired).1 = current := by
  unfold calculateScaleDownTarget
  rw [hover, if_neg Bool.false_ne_true]
  by_cases hup : Within scaleDownStabilization state.lastScaleUp now
  · rw [if_pos hup]
  rw [if_neg hup]
  cases hsince : state.belowCurrentSince with
  | none => rfl
  | some since =>
      rcases hhold with h | h | ⟨t, ht, hlt⟩
      · exact absurd h hup
      · rw [hsince] at h
        cases h
      · rw [hsince, Option.some.injEq] at ht
        subst ht
        simp only [if_pos hlt]

/-- With no hold running, or under an override, only the cooldown and the
gradual reduction decide and the state is kept. -/
theorem calculateScaleDownTarget_free
    (hfree : state.overrideActive = true ∨ ¬HoldRunning state now) :
    calculateScaleDownTarget state now current desired =
      (cooledTarget state now current desired, state) := by
  unfold calculateScaleDownTarget
  by_cases hover : state.overrideActive = true
  · rw [if_pos hover]
  rw [if_neg hover]
  have hhold : ¬HoldRunning state now := hfree.resolve_left hover
  rw [if_neg fun hup => hhold (Or.inl hup)]
  cases hsince : state.belowCurrentSince with
  | none => exact absurd (Or.inr (Or.inl hsince)) hhold
  | some since =>
      have hnot : ¬now - since < scaleDownStabilization := fun hlt =>
        hhold (Or.inr (Or.inr ⟨since, hsince, hlt⟩))
      simp only [if_neg hnot]

/-- A target below the current count: no hold unless the override skips it, no
cooldown, one gradual step, and the state as it was. -/
theorem calculateScaleDownTarget_lt
    (hlt : (calculateScaleDownTarget state now current desired).1 < current) :
    (state.overrideActive = true ∨ ¬HoldRunning state now) ∧
      ¬Within scaleDownCooldown state.lastScaleDown now ∧
      calculateScaleDownTarget state now current desired =
        (gradualTarget current desired, state) := by
  have hfree : state.overrideActive = true ∨ ¬HoldRunning state now := by
    by_contra hnot
    push Not at hnot
    rw [calculateScaleDownTarget_hold state now current desired
      (by simpa using hnot.1) hnot.2] at hlt
    exact lt_irrefl current hlt
  have heq := calculateScaleDownTarget_free state now current desired hfree
  rw [heq] at hlt
  obtain ⟨hcool, hgradual⟩ := cooledTarget_lt state now current desired hlt
  exact ⟨hfree, hcool, by rw [heq, hgradual]⟩

/-- The rules only ever start the below-current timer. -/
theorem calculateScaleDownTarget_state :
    (calculateScaleDownTarget state now current desired).2 = state ∨
      (state.belowCurrentSince = none ∧
        (calculateScaleDownTarget state now current desired).2 =
          { state with belowCurrentSince := some now }) := by
  unfold calculateScaleDownTarget
  by_cases hover : state.overrideActive = true
  · exact Or.inl (by rw [if_pos hover])
  rw [if_neg hover]
  by_cases hup : Within scaleDownStabilization state.lastScaleUp now
  · exact Or.inl (by rw [if_pos hup])
  rw [if_neg hup]
  cases hsince : state.belowCurrentSince with
  | none => exact Or.inr ⟨rfl, rfl⟩
  | some since =>
      refine Or.inl ?_
      dsimp only
      split_ifs <;> rfl

end Spec

/-- A ten-percent share of an `int32` count, computed in doubles, rounds up to
the exact one. -/
theorem ceil_binary64_share {current : ℤ} (hnonneg : 0 ≤ current)
    (hmax : current ≤ maxInt32) :
    ⌈binary64 (binary64 (current * scaleDownMaxPercent) / 100)⌉ =
      ⌈(current / 10 : ℚ)⌉ := by
  have hbound : current ≤ 2147483647 := hmax
  have hexact : binary64 (current * scaleDownMaxPercent) =
      (current * 10 : ℤ) := by
    rw [show ((current : ℚ) * (scaleDownMaxPercent : ℤ)) =
      ((current * 10 : ℤ) : ℚ) by simp [scaleDownMaxPercent]]
    exact binary64_intCast (by rw [abs_of_nonneg (by omega)]; omega)
  have hshare : ((current * 10 : ℤ) : ℚ) / 100 = current / 10 := by
    push_cast
    ring
  have hcast : (0 : ℚ) ≤ current ∧ (current : ℚ) ≤ 2147483647 := by
    exact_mod_cast And.intro hnonneg hbound
  rw [hexact, hshare]
  apply ceil_binary64_of_gap
  · linarith
  · linarith
  · have htenth : ⌈(current / 10 : ℚ)⌉ * 10 - 10 + 1 ≤ current := by
      have hlt : (⌈(current / 10 : ℚ)⌉ : ℚ) < current / 10 + 1 :=
        Int.ceil_lt_add_one _
      have hlt' : ((⌈(current / 10 : ℚ)⌉ * 10 : ℤ) : ℚ) < (current + 10 : ℤ) := by
        push_cast
        linarith
      have : ⌈(current / 10 : ℚ)⌉ * 10 < current + 10 := by
        exact_mod_cast hlt'
      omega
    have htenth' : (⌈(current / 10 : ℚ)⌉ : ℚ) * 10 - 10 + 1 ≤ current := by
      exact_mod_cast htenth
    norm_num
    linarith

theorem maxRemove_eq {current : ℤ} (hnonneg : 0 ≤ current)
    (hmax : current ≤ maxInt32) :
    maxRemove current = max 2 ⌈(current / 10 : ℚ)⌉ := by
  have hcast : (0 : ℚ) ≤ current ∧ (current : ℚ) ≤ maxInt32 := by
    exact_mod_cast And.intro hnonneg hmax
  have hlow : 0 ≤ ⌈(current / 10 : ℚ)⌉ := Int.ceil_nonneg (by linarith)
  have hhigh : ⌈(current / 10 : ℚ)⌉ ≤ maxInt32 :=
    Int.ceil_le.mpr (by linarith)
  have hfits : toInt32 (⌈(current / 10 : ℚ)⌉ : ℤ) = ⌈(current / 10 : ℚ)⌉ := by
    have hnonneg' : (0 : ℚ) ≤ (⌈(current / 10 : ℚ)⌉ : ℤ) := by exact_mod_cast hlow
    simp only [toInt32, if_pos hnonneg', Int.floor_intCast]
    rw [if_pos ⟨le_trans (by decide) hlow, hhigh⟩]
  unfold maxRemove
  rw [ceil_binary64_share hnonneg hmax, hfits]
  simp only [scaleDownMinPods]
  split_ifs <;> omega

theorem gradualTarget_pos (current desired : ℤ) :
    1 ≤ gradualTarget current desired := by
  unfold gradualTarget
  dsimp only
  split_ifs <;> omega

theorem le_gradualTarget (current desired : ℤ) :
    desired ≤ gradualTarget current desired := by
  unfold gradualTarget
  dsimp only
  split_ifs <;> omega

/-- One step goes down whenever it is asked to and more than one replica is
left. -/
theorem gradualTarget_lt {current desired : ℤ} (hdown : desired < current)
    (hcurrent : 1 < current) : gradualTarget current desired < current := by
  have hremove : 2 ≤ maxRemove current := by
    unfold maxRemove scaleDownMinPods
    dsimp only
    split_ifs <;> omega
  unfold gradualTarget
  dsimp only
  split_ifs <;> omega

/-- One step removes at most the larger of two replicas and a tenth. -/
theorem sub_gradualTarget_le {current : ℤ} (hnonneg : 0 ≤ current)
    (hmax : current ≤ maxInt32) (desired : ℤ) :
    current - gradualTarget current desired ≤
      max 2 ⌈(current / 10 : ℚ)⌉ := by
  rw [← maxRemove_eq hnonneg hmax]
  unfold gradualTarget
  dsimp only
  split_ifs <;> omega

end PredictiveAutoscaler
