/-
The overestimate detector over runs of calls.  Within an episode of calls that
overestimate it caps at the third to the tenth of every forty, as long as no
episode ends in a call whose prediction is only a little too high while the
re-evaluation counter is running.  The cap is the exact one as long as the
product of the reactive count and the rounded 1.1 does not pass a whole number.
-/
import PredictiveAutoscaler.Overestimate
import PredictiveAutoscaler.Run

namespace PredictiveAutoscaler

/-- One call: the counts, both rates and the forecast. -/
structure OverestimateCall where
  predicted : ℤ
  reactive : ℤ
  lastRPM : ℚ
  currentRPM : ℚ
  predictions : List ℚ
  predicted_int32 : minInt32 ≤ predicted ∧ predicted ≤ maxInt32
  reactive_int32 : minInt32 ≤ reactive ∧ reactive ≤ maxInt32

/-- The call on the state, and the count and the streak that it gives. -/
def overestimateStep (state : ScaleState) (c : OverestimateCall) :
    ScaleState × ℤ × ℕ :=
  let (count, next) := adjustForOverestimation c.predicted c.reactive
    { state with lastRPM := c.lastRPM } c.currentRPM c.predictions
  (next, count, next.overestimateStreak)

namespace OverestimateCall

/-- No ramp, measured or forecast. -/
def Flat (c : OverestimateCall) : Prop :=
  ¬rampUp c.lastRPM c.currentRPM ∧ upcomingRamp c.predictions = false

/-- The prediction exceeds a positive reactive count by more than a fifth and
no ramp explains it. -/
def Overestimating (c : OverestimateCall) : Prop :=
  0 < c.reactive ∧ 12 / 10 * (c.reactive : ℚ) < c.predicted ∧ c.Flat

/-- The prediction exceeds the reactive count, but not by more than a fifth,
and no ramp explains it. -/
def Mild (c : OverestimateCall) : Prop :=
  c.reactive ≠ 0 ∧ c.reactive < c.predicted ∧ c.Flat ∧ ¬c.Overestimating

instance (c : OverestimateCall) : Decidable c.Flat :=
  inferInstanceAs (Decidable (_ ∧ _))

instance (c : OverestimateCall) : Decidable c.Overestimating :=
  inferInstanceAs (Decidable (_ ∧ _ ∧ _))

instance (c : OverestimateCall) : Decidable c.Mild :=
  inferInstanceAs (Decidable (_ ∧ _ ∧ _ ∧ _))

/-- The overestimating calls since the last other call. -/
def episode (calls : List OverestimateCall) : List OverestimateCall :=
  calls.reverse.takeWhile fun c => decide c.Overestimating

/-- The calls of an episode that are capped, by their number. -/
def CapDue (number : ℕ) : Prop := 3 ≤ number % 40 ∧ number % 40 ≤ 10

instance (number : ℕ) : Decidable (CapDue number) :=
  inferInstanceAs (Decidable (_ ∧ _))

/-- The count of the call with this number in its episode: the cap is a tenth
above the reactive count, exactly. -/
def expectedCount (c : OverestimateCall) (number : ℕ) : ℤ :=
  if CapDue number then min c.predicted ⌈11 / 10 * (c.reactive : ℚ)⌉
  else c.predicted

/-- The count that the detector gives at this number: its cap is a product of
doubles. -/
def cappedCount (c : OverestimateCall) (number : ℕ) : ℤ :=
  if CapDue number then min c.predicted (overestimateCap c.reactive)
  else c.predicted

theorem length_episode_concat (calls : List OverestimateCall)
    (c : OverestimateCall) :
    (episode (calls ++ [c])).length =
      if c.Overestimating then (episode calls).length + 1 else 0 := by
  unfold episode
  rw [List.reverse_append, List.reverse_singleton, List.singleton_append,
    List.takeWhile_cons]
  by_cases hover : c.Overestimating
  · rw [if_pos (decide_eq_true hover), if_pos hover, List.length_cons]
  · rw [if_neg (by simpa using hover), if_neg hover, List.length_nil]

theorem binary64_nonpos {q : ℚ} (h : q ≤ 0) : binary64 q ≤ 0 := by
  have hround := binary64_le_of_le_mul_ulp (q := q) (k := 0) (by simpa using h)
  simpa using hround

/-- The rounded ratio is above the rounded threshold when the counts differ by
more than a fifth. -/
theorem threshold_lt_ratio_iff (c : OverestimateCall) (hne : c.reactive ≠ 0)
    (hover : c.reactive < c.predicted) :
    overestimateRatioThreshold < binary64 (c.predicted / c.reactive) ↔
      0 < c.reactive ∧ 12 / 10 * (c.reactive : ℚ) < c.predicted := by
  have hmax := c.reactive_int32.2
  unfold maxInt32 at hmax
  rcases lt_or_gt_of_ne hne with hneg | hpos
  · have hnegq : (c.reactive : ℚ) < 0 := by exact_mod_cast hneg
    have hle : binary64 ((c.predicted : ℚ) / c.reactive) ≤ binary64 1 := by
      by_cases hsign : 0 ≤ (c.predicted : ℚ) / c.reactive
      · refine binary64_mono hsign ((div_le_one_of_neg hnegq).mpr ?_)
        exact_mod_cast hover.le
      · exact (binary64_nonpos (not_le.mp hsign).le).trans
          (binary64_nonneg zero_le_one)
    have hone : binary64 1 ≤ overestimateRatioThreshold := by decide +kernel
    exact ⟨fun h => absurd h (not_lt.mpr (hle.trans hone)),
      fun h => absurd h.1 (not_lt.mpr hneg.le)⟩
  · have hposq : (0 : ℚ) < c.reactive := by exact_mod_cast hpos
    have hpred : (0 : ℚ) ≤ c.predicted := by
      exact_mod_cast hpos.le.trans hover.le
    refine ⟨fun h => ⟨hpos, ?_⟩, fun h => ?_⟩
    · by_contra hsmall
      have hratio : (c.predicted : ℚ) / c.reactive ≤ 12 / 10 :=
        (div_le_iff₀ hposq).mpr (not_lt.mp hsmall)
      exact absurd h (not_lt.mpr
        (binary64_mono (div_nonneg hpred hposq.le) hratio))
    · -- the counts are whole, so the ratio is above by at least 1 / (5 * 2^31)
      have hstep : 6 * c.reactive + 1 ≤ 5 * c.predicted := by
        have hfive : (6 : ℚ) * c.reactive < 5 * c.predicted := by
          linarith [h.2]
        exact_mod_cast hfive
      have hstepq : (6 : ℚ) * c.reactive + 1 ≤ 5 * c.predicted := by
        exact_mod_cast hstep
      have hbound : (c.reactive : ℚ) ≤ 2147483647 := by exact_mod_cast hmax
      have hratio : (12 : ℚ) / 10 + 1 / (5 * 2147483647) ≤
          c.predicted / c.reactive := by
        rw [le_div_iff₀ hposq]
        nlinarith
      have habove : overestimateRatioThreshold <
          binary64 (12 / 10 + 1 / (5 * 2147483647)) := by decide +kernel
      exact habove.trans_le (binary64_mono (by norm_num) hratio)

/-- The cap of an overestimating call is representable. -/
theorem overestimateCap_eq {c : OverestimateCall} (h : c.Overestimating) :
    overestimateCap c.reactive =
      ⌈binary64 (c.reactive * overestimateHeadroom)⌉ := by
  have hpos : (0 : ℚ) < c.reactive := by exact_mod_cast h.1
  have hmax : (c.predicted : ℚ) ≤ 2147483647 := by
    exact_mod_cast c.predicted_int32.2
  have hheadroom : 0 ≤ overestimateHeadroom ∧
      overestimateHeadroom ≤ 12 / 10 := by decide +kernel
  have hproduct : 0 ≤ (c.reactive : ℚ) * overestimateHeadroom :=
    mul_nonneg hpos.le hheadroom.1
  have hbound : (c.reactive : ℚ) * overestimateHeadroom ≤
      ((2147483647 : ℤ) : ℚ) := by
    have hfifth := mul_le_mul_of_nonneg_left hheadroom.2 hpos.le
    have hover := h.2.1
    push_cast
    linarith
  have hrounded := binary64_mono hproduct hbound
  rw [binary64_intCast (by norm_num)] at hrounded
  have hle : ⌈binary64 (c.reactive * overestimateHeadroom)⌉ ≤ 2147483647 :=
    Int.ceil_le.mpr hrounded
  have hnonneg : 0 ≤ ⌈binary64 (c.reactive * overestimateHeadroom)⌉ :=
    Int.ceil_nonneg (binary64_nonneg hproduct)
  unfold overestimateCap toInt32
  have hcast : (0 : ℚ) ≤ (⌈binary64 (c.reactive * overestimateHeadroom)⌉ : ℤ) :=
    by exact_mod_cast hnonneg
  have hin : minInt32 ≤ ⌈binary64 (c.reactive * overestimateHeadroom)⌉ ∧
      ⌈binary64 (c.reactive * overestimateHeadroom)⌉ ≤ maxInt32 :=
    ⟨le_trans (by decide) hnonneg, hle⟩
  dsimp only
  rw [if_pos hcast, Int.floor_intCast, if_pos hin]

/-- The product of a multiple of ten and the rounded 1.1 is above the whole
number it stands for: the excess of the rounded 1.1 makes up more than half a
unit in the last place. -/
def HeadroomPastWhole (reactive : ℤ) : Prop :=
  reactive % 10 = 0 ∧
    2 ^ Nat.log 2 (11 * (reactive / 10)).toNat < 8 * (reactive / 10)

instance (reactive : ℤ) : Decidable (HeadroomPastWhole reactive) :=
  inferInstanceAs (Decidable (_ ∧ _))

/-- The rounded 1.1 is two fifths of its last place too large. -/
theorem overestimateHeadroom_eq :
    overestimateHeadroom = 11 / 10 + 2 / 5 / 2 ^ 52 := by
  decide +kernel

/-- The product of a multiple of ten and the rounded 1.1 is a whole number, or
one unit in the last place above it. -/
theorem binary64_ten_mul_headroom {k : ℕ} (hk : 0 < k)
    (hmax : k ≤ 214748364) :
    binary64 (10 * k * overestimateHeadroom) = (11 * k : ℕ) +
      if 2 ^ Nat.log 2 (11 * k) < 8 * k then
        1 / 2 ^ (52 - Nat.log 2 (11 * k))
      else 0 := by
  have hlow : 2 ^ Nat.log 2 (11 * k) ≤ 11 * k :=
    Nat.pow_log_le_self 2 (by omega)
  have hhigh : 11 * k < 2 ^ (Nat.log 2 (11 * k) + 1) :=
    Nat.lt_pow_succ_log_self (by omega) _
  have hbits : Nat.log 2 (11 * k) < 32 := by
    by_contra hge
    have hpow : 2 ^ 32 ≤ 2 ^ Nat.log 2 (11 * k) :=
      Nat.pow_le_pow_right (by omega) (by omega)
    omega
  set e := Nat.log 2 (11 * k)
  have hpos : (0 : ℚ) < 2 ^ e := by positivity
  have hlt : (4 * k / 2 ^ e : ℚ) < 1 := by
    have hbelow : (11 : ℚ) * k < 2 ^ e * 2 := by
      rw [← pow_succ]
      exact_mod_cast hhigh
    rw [div_lt_one hpos]
    linarith
  have hhalf : (1 / 2 : ℚ) < 4 * k / 2 ^ e ↔ 2 ^ e < 8 * k := by
    rw [lt_div_iff₀ hpos, ← Nat.cast_lt (α := ℚ)]
    push_cast
    constructor <;> intro h <;> linarith
  have hproduct : (10 * k * overestimateHeadroom : ℚ) =
      (11 * k : ℕ) + 4 * k / 2 ^ e / 2 ^ (52 - e) := by
    have hsplit : (2 : ℚ) ^ 52 = 2 ^ e * 2 ^ (52 - e) := by
      rw [← pow_add]
      congr 1
      omega
    rw [overestimateHeadroom_eq, hsplit]
    push_cast
    field_simp
    ring
  rw [hproduct, binary64_natCast_add (by omega) (by omega) (by positivity) hlt]
  simp only [hhalf]
  rfl

section Headroom

variable {reactive : ℤ} (hpos : 0 < reactive) (hmax : reactive ≤ maxInt32)

include hpos hmax

theorem ceil_mul_headroom_of_ten (hten : reactive % 10 = 0) :
    ⌈binary64 (reactive * overestimateHeadroom)⌉ =
      ⌈11 / 10 * (reactive : ℚ)⌉ +
        if HeadroomPastWhole reactive then 1 else 0 := by
  unfold maxInt32 at hmax
  obtain ⟨k, hk⟩ := Int.eq_ofNat_of_zero_le
    (Int.ediv_nonneg hpos.le (show (0 : ℤ) ≤ 10 by norm_num))
  have hreactive : reactive = 10 * k := by omega
  have hexact : ⌈11 / 10 * (reactive : ℚ)⌉ = 11 * k := by
    rw [Int.ceil_eq_iff, hreactive]
    push_cast
    constructor <;> linarith
  have hpast : HeadroomPastWhole reactive ↔
      2 ^ Nat.log 2 (11 * k) < 8 * k := by
    have hnat : (11 * (k : ℤ)).toNat = 11 * k := by omega
    unfold HeadroomPastWhole
    rw [hk, hnat, and_iff_right hten]
    exact_mod_cast Iff.rfl
  have hcast : (reactive : ℚ) = 10 * k := by
    rw [hreactive]
    push_cast
    rfl
  have hround := binary64_ten_mul_headroom (k := k) (by omega) (by omega)
  rw [hexact, hcast, hround, Int.ceil_eq_iff]
  simp only [hpast]
  split_ifs
  · have hunit : (0 : ℚ) < 1 / 2 ^ (52 - Nat.log 2 (11 * k)) ∧
        (1 : ℚ) / 2 ^ (52 - Nat.log 2 (11 * k)) ≤ 1 :=
      ⟨by positivity, (div_le_one (by positivity)).mpr
        (one_le_pow₀ (by norm_num))⟩
    push_cast
    constructor <;> linarith [hunit.1, hunit.2]
  · push_cast
    constructor <;> linarith

/-- A product between two whole numbers stays between them. -/
theorem ceil_mul_headroom_of_not_ten (hten : ¬reactive % 10 = 0) :
    ⌈binary64 (reactive * overestimateHeadroom)⌉ =
      ⌈11 / 10 * (reactive : ℚ)⌉ := by
  unfold maxInt32 at hmax
  set m := 11 * reactive / 10
  have hlow : (10 * m + 1 : ℚ) ≤ 11 * reactive := by
    exact_mod_cast (by omega : 10 * m + 1 ≤ 11 * reactive)
  have hhigh : (11 * reactive : ℚ) ≤ 10 * m + 9 := by
    exact_mod_cast (by omega : 11 * reactive ≤ 10 * m + 9)
  have hexact : ⌈11 / 10 * (reactive : ℚ)⌉ = m + 1 := by
    rw [Int.ceil_eq_iff]
    push_cast
    constructor <;> linarith
  have hposq : (0 : ℚ) < reactive := by exact_mod_cast hpos
  have hmaxq : (reactive : ℚ) ≤ 2147483647 := by exact_mod_cast hmax
  have hproduct : (reactive * overestimateHeadroom : ℚ) =
      11 / 10 * reactive + 2 / 5 / 2 ^ 52 * reactive := by
    rw [overestimateHeadroom_eq]
    ring
  have hexcess : (0 : ℚ) < 2 / 5 / 2 ^ 52 * reactive ∧
      2 / 5 / 2 ^ 52 * (reactive : ℚ) < 1 / 20 := by
    constructor
    · positivity
    · norm_num
      linarith
  have hbits : ulpExponent (reactive * overestimateHeadroom : ℚ) ≤ -21 := by
    refine ulpExponent_le_of_abs_lt ?_ (by norm_num : (-1021 : ℤ) ≤ 32) ?_
    · rw [hproduct]
      linarith [hexcess.1]
    · rw [hproduct, abs_of_pos (by linarith [hexcess.1])]
      norm_num
      linarith [hexcess.2]
  have hnear := abs_binary64_sub_le_half_ulp
    (reactive * overestimateHeadroom : ℚ)
  have hulp := zpow_le_zpow_right₀ (by norm_num : (1 : ℚ) ≤ 2) hbits
  have hbetween : (m + 1 / 10 : ℚ) ≤ reactive * overestimateHeadroom ∧
      (reactive * overestimateHeadroom : ℚ) ≤ ((m + 1 : ℤ) : ℚ) := by
    rw [hproduct]
    push_cast
    constructor <;> linarith [hexcess.1, hexcess.2]
  have hround := binary64_monotone hbetween.2
  rw [binary64_intCast (by rw [abs_lt]; omega)] at hround
  rw [hexact, Int.ceil_eq_iff]
  refine ⟨?_, hround⟩
  have hbelow := (abs_le.mp hnear).1
  norm_num at hulp
  push_cast
  linarith [hbetween.1]

/-- The cap of a positive count is the exact one, or one more where the product
passes the whole number. -/
theorem ceil_mul_headroom :
    ⌈binary64 (reactive * overestimateHeadroom)⌉ =
      ⌈11 / 10 * (reactive : ℚ)⌉ +
        if HeadroomPastWhole reactive then 1 else 0 := by
  by_cases hten : reactive % 10 = 0
  · exact ceil_mul_headroom_of_ten hpos hmax hten
  · rw [if_neg fun h => hten h.1, add_zero,
      ceil_mul_headroom_of_not_ten hpos hmax hten]

end Headroom

/-- The count that the detector gives is the exact one, unless a cap passes its
whole number. -/
theorem cappedCount_eq {c : OverestimateCall} {number : ℕ}
    (hover : CapDue number → c.Overestimating)
    (hexact : CapDue number → ¬HeadroomPastWhole c.reactive) :
    c.cappedCount number = c.expectedCount number := by
  unfold cappedCount expectedCount
  by_cases hdue : CapDue number
  · have hcounts := hover hdue
    have hcap : overestimateCap c.reactive = ⌈11 / 10 * (c.reactive : ℚ)⌉ := by
      rw [overestimateCap_eq hcounts,
        ceil_mul_headroom hcounts.1 c.reactive_int32.2,
        if_neg (hexact hdue), add_zero]
    rw [if_pos hdue, if_pos hdue, hcap]
  · rw [if_neg hdue, if_neg hdue]

/-- A call that does not overestimate gives the prediction and ends the
episode; it keeps the counter only where it is mild. -/
theorem overestimateStep_of_not (state : ScaleState) {c : OverestimateCall}
    (h : ¬c.Overestimating) :
    (overestimateStep state c).2 = (c.predicted, 0) ∧
      (overestimateStep state c).1.overestimateStreak = 0 ∧
      (overestimateStep state c).1.reEvalCounter =
        if c.Mild then state.reEvalCounter else 0 := by
  unfold overestimateStep adjustForOverestimation
  dsimp only
  by_cases hsmall : c.reactive = 0 ∨ c.predicted ≤ c.reactive
  · have hmild : ¬c.Mild := by
      rintro ⟨hne, hlt, -⟩
      rcases hsmall with heq | hle
      · exact hne heq
      · exact absurd hlt (not_lt.mpr hle)
    rw [if_pos hsmall, if_neg hmild]
    exact ⟨rfl, rfl, rfl⟩
  rw [if_neg hsmall]
  by_cases hramp : rampUp c.lastRPM c.currentRPM ∨ upcomingRamp c.predictions
  · have hmild : ¬c.Mild := by
      rintro ⟨-, -, ⟨hrate, hforecast⟩, -⟩
      rcases hramp with hup | hup
      · exact hrate hup
      · rw [hforecast] at hup
        cases hup
    rw [if_pos hramp, if_neg hmild]
    exact ⟨rfl, rfl, rfl⟩
  push Not at hsmall hramp
  have hflat : c.Flat := ⟨hramp.1, by simpa using hramp.2⟩
  have hmild : c.Mild := ⟨hsmall.1, hsmall.2, hflat, h⟩
  have hratio : ¬overestimateRatioThreshold <
      binary64 (c.predicted / c.reactive) := fun hratio =>
    have hfifth := (threshold_lt_ratio_iff c hsmall.1 hsmall.2).mp hratio
    h ⟨hfifth.1, hfifth.2, hflat⟩
  have hstreak : ∀ streak, nextStreak c.predicted c.reactive streak = 0 :=
    fun streak => if_neg hratio
  have hno : ¬(rampUp c.lastRPM c.currentRPM ∨
      upcomingRamp c.predictions = true) := by
    rintro (hup | hup)
    · exact hramp.1 hup
    · exact hramp.2 hup
  rw [if_neg hno, if_pos hmild]
  simp only [hstreak]
  exact ⟨rfl, rfl, rfl⟩

/-- A call that overestimates counts on: what it gives and the state after it
depend on the number of the one before it alone. -/
theorem overestimateStep_of_overestimating {state : ScaleState}
    {c : OverestimateCall} {number : ℕ} (h : c.Overestimating)
    (hstreak : state.overestimateStreak = number % 40)
    (hcounter : state.reEvalCounter = number % 40 - 10) :
    (overestimateStep state c).2 =
        (c.cappedCount (number + 1), (number + 1) % 40) ∧
      (overestimateStep state c).1.overestimateStreak = (number + 1) % 40 ∧
      (overestimateStep state c).1.reEvalCounter = (number + 1) % 40 - 10 := by
  have hfifth : (c.reactive : ℚ) < c.predicted := by
    have hpos : (0 : ℚ) < c.reactive := by exact_mod_cast h.1
    linarith [h.2.1]
  have hover : c.reactive < c.predicted := by exact_mod_cast hfifth
  have hsmall : ¬(c.reactive = 0 ∨ c.predicted ≤ c.reactive) := by
    have hpos := h.1
    omega
  have hramp : ¬(rampUp c.lastRPM c.currentRPM ∨
      upcomingRamp c.predictions = true) := by
    rintro (hup | hup)
    · exact h.2.2.1 hup
    · rw [h.2.2.2] at hup
      cases hup
  have hratio := (threshold_lt_ratio_iff c h.1.ne' hover).mpr ⟨h.1, h.2.1⟩
  have hnext : ∀ streak, nextStreak c.predicted c.reactive streak =
      streak + 1 := fun streak => if_pos hratio
  have hmod := Nat.mod_lt number (show 0 < 40 by norm_num)
  unfold overestimateStep adjustForOverestimation cappedCount
  dsimp only
  rw [if_neg hsmall, if_neg hramp, hnext, hstreak, hcounter,
    show overestimateMaxStreak = 10 from rfl,
    show overestimateReEvalInterval = 30 from rfl,
    show overestimateStreakRequired = 3 from rfl]
  by_cases hmax : 10 < number % 40 + 1
  · have hdue : ¬CapDue (number + 1) := by
      unfold CapDue
      omega
    rw [if_pos hmax, if_neg hdue]
    by_cases hlast : 30 ≤ number % 40 - 10 + 1
    · -- the thirtieth call past the maximum starts over
      have hzero : (number + 1) % 40 = 0 := by omega
      rw [if_pos hlast, hzero]
      exact ⟨rfl, rfl, rfl⟩
    · have hnumber : (number + 1) % 40 = number % 40 + 1 := by omega
      rw [if_neg hlast, hnumber]
      refine ⟨rfl, rfl, ?_⟩
      dsimp only
      omega
  · have hnumber : (number + 1) % 40 = number % 40 + 1 := by omega
    have hcounter' : number % 40 - 10 = number % 40 + 1 - 10 := by omega
    have hdue : CapDue (number + 1) ↔ 3 ≤ number % 40 + 1 := by
      unfold CapDue
      omega
    rw [if_neg hmax, hnumber]
    by_cases hcap : 3 ≤ number % 40 + 1
    · rw [if_pos (hdue.mpr hcap)]
      by_cases hbelow : overestimateCap c.reactive < c.predicted
      · have hfires : 3 ≤ number % 40 + 1 ∧
            overestimateCap c.reactive < c.predicted := ⟨hcap, hbelow⟩
        rw [if_pos hfires, min_eq_right hbelow.le]
        exact ⟨rfl, rfl, hcounter'⟩
      · have hfires : ¬(3 ≤ number % 40 + 1 ∧
            overestimateCap c.reactive < c.predicted) :=
          fun hand => hbelow hand.2
        rw [if_neg hfires, min_eq_left (not_lt.mp hbelow)]
        exact ⟨rfl, rfl, hcounter'⟩
    · rw [if_neg fun hand => hcap hand.1,
        if_neg fun hand => hcap (hdue.mp hand)]
      exact ⟨rfl, rfl, hcounter'⟩

/-- No episode past its maximum streak ends in a mild call: one never follows
over ten calls of a forty that overestimate. -/
def EpisodesCleared (calls : List OverestimateCall) : Prop :=
  ∀ past c rest, calls = past ++ c :: rest → c.Mild →
    (episode past).length % 40 ≤ 10

/-- No cap that is due passes its whole number. -/
def CapsExact (calls : List OverestimateCall) : Prop :=
  ∀ past c rest, calls = past ++ c :: rest →
    CapDue (episode (past ++ [c])).length → ¬HeadroomPastWhole c.reactive

theorem EpisodesCleared.left {calls more : List OverestimateCall}
    (h : EpisodesCleared (calls ++ more)) : EpisodesCleared calls := by
  intro past c rest hsplit
  refine h past c (rest ++ more) ?_
  rw [hsplit, List.append_assoc, List.cons_append]

/-- The state before a call tells the number of the call before it. -/
def Counted (past : List OverestimateCall) (state : ScaleState) : Prop :=
  state.overestimateStreak = (episode past).length % 40 ∧
    state.reEvalCounter = (episode past).length % 40 - 10

/-- A call whose cap is due overestimates. -/
theorem overestimating_of_capDue {past : List OverestimateCall}
    {c : OverestimateCall} (hdue : CapDue (episode (past ++ [c])).length) :
    c.Overestimating := by
  by_contra hover
  rw [length_episode_concat, if_neg hover] at hdue
  exact absurd hdue (by decide)

/-- One call after cleared episodes: it gives what its number says, and the
state counts it. -/
theorem overestimateStep_counted {past : List OverestimateCall}
    {state : ScaleState} {c : OverestimateCall}
    (hcleared : EpisodesCleared (past ++ [c])) (h : Counted past state) :
    let number := (episode (past ++ [c])).length
    (overestimateStep state c).2 = (c.cappedCount number, number % 40) ∧
      Counted (past ++ [c]) (overestimateStep state c).1 := by
  unfold Counted
  rw [length_episode_concat]
  by_cases hover : c.Overestimating
  · rw [if_pos hover]
    exact overestimateStep_of_overestimating hover h.1 h.2
  · obtain ⟨hgiven, hstreak, hcounter⟩ := overestimateStep_of_not
      state hover
    rw [if_neg hover]
    refine ⟨hgiven, hstreak, ?_⟩
    rw [hcounter]
    by_cases hmild : c.Mild
    · rw [if_pos hmild, h.2]
      exact Nat.sub_eq_zero_of_le (hcleared past c [] rfl hmild)
    · rw [if_neg hmild]

/-- In every run whose episodes are cleared and whose caps are exact each call
gives what its number in its episode says. -/
theorem overestimate_episodes {calls : List OverestimateCall}
    (hcleared : EpisodesCleared calls) (hexact : CapsExact calls)
    {past rest : List (Entry ScaleState OverestimateCall (ℤ × ℕ))}
    {e : Entry ScaleState OverestimateCall (ℤ × ℕ)}
    (htrace : runTrace overestimateStep {} calls = past ++ e :: rest) :
    let number := (episode (past.map Entry.event ++ [e.event])).length
    e.report = (e.event.expectedCount number, number % 40) := by
  have hevents := runTrace_map_event overestimateStep {} calls
  rw [htrace, List.map_append, List.map_cons] at hevents
  have hprefix : EpisodesCleared (past.map Entry.event ++ [e.event]) := by
    have hwhole : EpisodesCleared
        ((past.map Entry.event ++ [e.event]) ++ rest.map Entry.event) := by
      rw [List.append_assoc, List.singleton_append, hevents]
      exact hcleared
    exact hwhole.left
  obtain ⟨hcounted, hentry⟩ := runTrace_history
    (fun past state => EpisodesCleared (past.map Entry.event) →
      Counted (past.map Entry.event) state)
    (fun past state c hpast hall => by
      rw [List.map_append, List.map_singleton] at hall ⊢
      exact (overestimateStep_counted hall (hpast hall.left)).2)
    (fun _ => ⟨rfl, rfl⟩) htrace
  have hcaps : CapDue (episode (past.map Entry.event ++ [e.event])).length →
      ¬HeadroomPastWhole e.event.reactive :=
    hexact _ _ (rest.map Entry.event) hevents.symm
  rw [hentry]
  refine (overestimateStep_counted hprefix (hcounted hprefix.left)).1.trans ?_
  rw [cappedCount_eq overestimating_of_capDue hcaps]
  rfl

namespace OverestimateWitness

/-- A prediction of twenty over ten, and one of eleven over ten. -/
def high : OverestimateCall where
  predicted := 20
  reactive := 10
  lastRPM := 100
  currentRPM := 100
  predictions := [100, 100]
  predicted_int32 := by decide
  reactive_int32 := by decide

def slight : OverestimateCall :=
  { high with predicted := 11, predicted_int32 := by decide }

/-- A prediction of two hundred over fifty. -/
def wide : OverestimateCall :=
  { high with
    predicted := 200
    reactive := 50
    predicted_int32 := by decide
    reactive_int32 := by decide }

end OverestimateWitness

open OverestimateWitness in
/-- Fifty calls that overestimate: the forty-third is capped again. -/
theorem capped_again_after_forty :
    (∀ c ∈ List.replicate 50 high, ¬c.Mild) ∧
    ∀ past e rest, runTrace overestimateStep {} (List.replicate 50 high) =
      past ++ e :: rest →
      let number := (episode (past.map Entry.event ++ [e.event])).length
      e.report = (e.event.expectedCount number, number % 40) := by
  have hnone : ∀ c ∈ List.replicate 50 high, ¬c.Mild := by
    intro c hc
    rw [List.eq_of_mem_replicate hc]
    decide +kernel
  refine ⟨hnone, ?_⟩
  intro past e rest htrace
  have hmem : ∀ {past : List OverestimateCall} {c rest},
      List.replicate 50 high = past ++ c :: rest →
      c ∈ List.replicate 50 high := by
    intro past c rest hsplit
    rw [hsplit]
    exact List.mem_append_right _ List.mem_cons_self
  refine overestimate_episodes (fun past c rest hsplit hmild => ?_)
    (fun past c rest hsplit _ => ?_) htrace
  · exact absurd hmild (hnone c (hmem hsplit))
  · rw [List.eq_of_mem_replicate (hmem hsplit)]
    decide +kernel

open OverestimateWitness in
/-- After twenty calls that overestimate and a slight one the next episode is
capped at its thirty-third call. -/
theorem leftover_counter_caps :
    ¬∀ (calls : List OverestimateCall) past e rest,
      runTrace overestimateStep {} calls = past ++ e :: rest →
      let number := (episode (past.map Entry.event ++ [e.event])).length
      e.report = (e.event.expectedCount number, number % 40) := by
  intro h
  let calls := List.replicate 20 high ++ slight :: List.replicate 33 high
  have hcapped : (runTrace overestimateStep {} calls).getLast?.map
      Entry.report = some (11, 3) := by decide +kernel
  have hnumber : (episode calls).length = 33 := by decide +kernel
  obtain ⟨e, he, hreport⟩ := Option.map_eq_some_iff.mp hcapped
  obtain ⟨past, hsplit⟩ := List.getLast?_eq_some_iff.mp he
  have hgiven := h calls past e [] hsplit
  have hevents := runTrace_map_event overestimateStep {} calls
  rw [hsplit, List.map_append, List.map_singleton] at hevents
  dsimp only at hgiven
  rw [hevents, hnumber, hreport] at hgiven
  have hstreak : (3 : ℕ) = 33 % 40 := congrArg Prod.snd hgiven
  exact absurd hstreak (by decide)

open OverestimateWitness in
example : (runTrace overestimateStep {} (List.replicate 3 wide)).getLast?.map
      Entry.report = some (56, 3) ∧
    wide.expectedCount 3 = 55 ∧ HeadroomPastWhole wide.reactive := by
  decide +kernel

end OverestimateCall

end PredictiveAutoscaler
