/-
Rounding to binary64, as an executable function on exact rationals.  A double
is the rational it denotes; every arithmetic step of a modelled program is the
exact operation followed by `binary64`.  The exponent is bounded below by the
subnormal range and unbounded above: no modelled computation distinguishes an
overflow from a value beyond every integer bound it is compared with.
-/
import Mathlib

namespace PredictiveAutoscaler

/-- The nearest integer, ties to even. -/
def roundHalfEven (q : ℚ) : ℤ :=
  if q - ⌊q⌋ < 1 / 2 then ⌊q⌋
  else if 1 / 2 < q - ⌊q⌋ then ⌊q⌋ + 1
  else if ⌊q⌋ % 2 = 0 then ⌊q⌋ else ⌊q⌋ + 1

theorem floor_le_roundHalfEven (q : ℚ) : ⌊q⌋ ≤ roundHalfEven q := by
  unfold roundHalfEven
  split_ifs <;> omega

theorem roundHalfEven_le_floor_add_one (q : ℚ) :
    roundHalfEven q ≤ ⌊q⌋ + 1 := by
  unfold roundHalfEven
  split_ifs <;> omega

@[simp]
theorem roundHalfEven_intCast (n : ℤ) : roundHalfEven n = n := by
  simp [roundHalfEven]

theorem roundHalfEven_mono {x y : ℚ} (hxy : x ≤ y) :
    roundHalfEven x ≤ roundHalfEven y := by
  have hfloor : ⌊x⌋ ≤ ⌊y⌋ := Int.floor_mono hxy
  rcases hfloor.lt_or_eq with hlt | heq
  · have hx := roundHalfEven_le_floor_add_one x
    have hy := floor_le_roundHalfEven y
    omega
  · rcases hxy.lt_or_eq with hlt | rfl
    · have hfrac : x - ⌊x⌋ < y - ⌊y⌋ := by rw [heq]; linarith
      by_cases hhalf : x - ⌊x⌋ < 1 / 2
      · have hx : roundHalfEven x = ⌊x⌋ := by
          rw [roundHalfEven, if_pos hhalf]
        rw [hx, heq]
        exact floor_le_roundHalfEven y
      · have hy : roundHalfEven y = ⌊y⌋ + 1 := by
          rw [roundHalfEven, if_neg (by linarith), if_pos (by linarith)]
        rw [hy, ← heq]
        exact roundHalfEven_le_floor_add_one x
    · exact le_rfl

theorem abs_roundHalfEven_sub_le (q : ℚ) :
    |(roundHalfEven q : ℚ) - q| ≤ 1 / 2 := by
  have hlow : (⌊q⌋ : ℚ) ≤ q := Int.floor_le q
  have hhigh : q < ⌊q⌋ + 1 := Int.lt_floor_add_one q
  rw [abs_le]
  unfold roundHalfEven
  split_ifs with hlt hgt heven <;> push_cast <;> constructor <;> linarith

/-- Up to a half, the nearest integer is zero. -/
theorem roundHalfEven_eq_zero_iff {q : ℚ} (hq : 0 ≤ q) :
    roundHalfEven q = 0 ↔ q ≤ 1 / 2 := by
  constructor
  · intro h
    have hnear := abs_roundHalfEven_sub_le q
    rw [h, Int.cast_zero, zero_sub, abs_neg, abs_of_nonneg hq] at hnear
    exact hnear
  · intro h
    have hlow := roundHalfEven_mono hq
    have hhigh := roundHalfEven_mono h
    have hzero : roundHalfEven 0 = 0 := by
      exact_mod_cast roundHalfEven_intCast 0
    have hhalf : roundHalfEven (1 / 2) = 0 := by decide +kernel
    rw [hzero] at hlow
    rw [hhalf] at hhigh
    exact le_antisymm hhigh hlow

/-- The exponent of the unit in the last place of the double nearest `q`. -/
def ulpExponent (q : ℚ) : ℤ := max (Int.log 2 |q| - 52) (-1074)

/-- Round to the nearest double, ties to even. -/
def binary64 (q : ℚ) : ℚ :=
  roundHalfEven (q / 2 ^ ulpExponent q) * 2 ^ ulpExponent q

theorem ulp_pos (q : ℚ) : (0 : ℚ) < 2 ^ ulpExponent q := by positivity

@[simp]
theorem binary64_zero : binary64 0 = 0 := by
  have hzero : roundHalfEven 0 = 0 := by simpa using roundHalfEven_intCast 0
  simp [binary64, hzero]

theorem abs_binary64_sub_le_half_ulp (q : ℚ) :
    |binary64 q - q| ≤ 2 ^ ulpExponent q / 2 := by
  have hpos := ulp_pos q
  have hround := abs_roundHalfEven_sub_le (q / 2 ^ ulpExponent q)
  have hsplit : binary64 q - q =
      (roundHalfEven (q / 2 ^ ulpExponent q) - q / 2 ^ ulpExponent q) *
        2 ^ ulpExponent q := by
    rw [binary64, sub_mul, div_mul_cancel₀ q hpos.ne']
  rw [hsplit, abs_mul, abs_of_pos hpos]
  have hscaled := mul_le_mul_of_nonneg_right hround hpos.le
  linarith

theorem binary64_nonneg {q : ℚ} (hq : 0 ≤ q) : 0 ≤ binary64 q := by
  have hdiv : 0 ≤ q / 2 ^ ulpExponent q := by positivity
  have hround : (0 : ℤ) ≤ roundHalfEven (q / 2 ^ ulpExponent q) :=
    le_trans (Int.floor_nonneg.mpr hdiv) (floor_le_roundHalfEven _)
  have hcast : (0 : ℚ) ≤ roundHalfEven (q / 2 ^ ulpExponent q) := by
    exact_mod_cast hround
  exact mul_nonneg hcast (ulp_pos q).le

/-- A bound on the grid of `q`'s last place is also a bound of its rounding. -/
theorem binary64_le_of_le_mul_ulp {q : ℚ} {k : ℤ}
    (hq : q ≤ k * 2 ^ ulpExponent q) : binary64 q ≤ k * 2 ^ ulpExponent q := by
  have hdiv : q / 2 ^ ulpExponent q ≤ k := (div_le_iff₀ (ulp_pos q)).mpr hq
  have hround := roundHalfEven_mono hdiv
  rw [roundHalfEven_intCast] at hround
  have hcast : (roundHalfEven (q / 2 ^ ulpExponent q) : ℚ) ≤ k := by
    exact_mod_cast hround
  exact mul_le_mul_of_nonneg_right hcast (ulp_pos q).le

theorem le_binary64_of_mul_ulp_le {q : ℚ} {k : ℤ}
    (hq : k * 2 ^ ulpExponent q ≤ q) : k * 2 ^ ulpExponent q ≤ binary64 q := by
  have hdiv : (k : ℚ) ≤ q / 2 ^ ulpExponent q :=
    (le_div_iff₀ (ulp_pos q)).mpr hq
  have hround := roundHalfEven_mono hdiv
  rw [roundHalfEven_intCast] at hround
  have hcast : (k : ℚ) ≤ roundHalfEven (q / 2 ^ ulpExponent q) := by
    exact_mod_cast hround
  exact mul_le_mul_of_nonneg_right hcast (ulp_pos q).le

theorem binary64_eq_self_of_eq_mul_ulp {q : ℚ} {k : ℤ}
    (hq : q = k * 2 ^ ulpExponent q) : binary64 q = q := by
  apply le_antisymm
  · exact (binary64_le_of_le_mul_ulp hq.le).trans hq.ge
  · exact hq.le.trans (le_binary64_of_mul_ulp_le hq.ge)

theorem ulpExponent_le_of_abs_lt {q : ℚ} {b : ℤ} (hne : q ≠ 0)
    (hb : -1021 ≤ b) (hq : |q| < 2 ^ b) : ulpExponent q ≤ b - 53 := by
  have hlog : Int.log 2 |q| < b := by
    rw [← Int.lt_zpow_iff_log_lt (by norm_num) (abs_pos.mpr hne)]
    exact_mod_cast hq
  unfold ulpExponent
  omega

/-- Integers of at most 53 bits are doubles. -/
theorem binary64_intCast {n : ℤ} (hn : |n| < 2 ^ 53) :
    binary64 n = n := by
  by_cases hzero : n = 0
  · simp [hzero]
  · have hne : (n : ℚ) ≠ 0 := by exact_mod_cast hzero
    have habs : |(n : ℚ)| < 2 ^ (53 : ℤ) := by exact_mod_cast hn
    have hexp : ulpExponent (n : ℚ) ≤ 0 :=
      ulpExponent_le_of_abs_lt hne (by norm_num) habs
    obtain ⟨shift, hshift⟩ := Int.eq_ofNat_of_zero_le (neg_nonneg.mpr hexp)
    apply binary64_eq_self_of_eq_mul_ulp (k := n * 2 ^ shift)
    have hneg : ulpExponent (n : ℚ) = -(shift : ℤ) := by omega
    rw [hneg]
    push_cast
    rw [zpow_neg, zpow_natCast, mul_assoc, mul_inv_cancel₀ (by positivity),
      mul_one]

theorem roundHalfEven_of_even {n : ℤ} {f : ℚ} (heven : n % 2 = 0)
    (hpos : 0 ≤ f) (hlt : f < 1) :
    roundHalfEven (n + f) = n + if 1 / 2 < f then 1 else 0 := by
  have hfloor : ⌊(n : ℚ) + f⌋ = n := by
    rw [Int.floor_eq_iff]
    constructor <;> linarith
  unfold roundHalfEven
  rw [hfloor]
  split_ifs <;> first | omega | linarith

/-- A whole number and less than a unit in its last place round to one of its
two neighbours, a tie to the whole number. -/
theorem binary64_natCast_add {n : ℕ} {f : ℚ} (hn : 0 < n)
    (hbits : Nat.log 2 n < 52) (hpos : 0 ≤ f) (hlt : f < 1) :
    binary64 (n + f / 2 ^ (52 - Nat.log 2 n)) =
      n + if 1 / 2 < f then 1 / 2 ^ (52 - Nat.log 2 n) else 0 := by
  obtain ⟨s, hs⟩ : ∃ s, 52 - Nat.log 2 n = s + 1 :=
    ⟨51 - Nat.log 2 n, by omega⟩
  rw [hs]
  have hunit : (0 : ℚ) < 2 ^ (s + 1) := by positivity
  have hsmall : f / 2 ^ (s + 1) < 1 := by
    rw [div_lt_one hunit]
    exact hlt.trans_le (one_le_pow₀ (by norm_num))
  have hone : (1 : ℚ) ≤ n + f / 2 ^ (s + 1) := by
    have hwhole : (1 : ℚ) ≤ n := by exact_mod_cast hn
    linarith [div_nonneg hpos hunit.le]
  have hfloor : ⌊(n + f / 2 ^ (s + 1) : ℚ)⌋₊ = n := by
    rw [Nat.floor_eq_iff (zero_le_one.trans hone)]
    exact ⟨by linarith [div_nonneg hpos hunit.le], by linarith⟩
  have hexp : ulpExponent (n + f / 2 ^ (s + 1)) = -((s + 1 : ℕ) : ℤ) := by
    unfold ulpExponent
    rw [abs_of_pos (zero_lt_one.trans_le hone), Int.log_of_one_le_right 2 hone,
      hfloor]
    omega
  have hscaled : (n + f / 2 ^ (s + 1)) / 2 ^ (-((s + 1 : ℕ) : ℤ)) =
      ((n * 2 ^ (s + 1) : ℤ) : ℚ) + f := by
    rw [zpow_neg, zpow_natCast]
    push_cast
    field_simp
  have heven : (n * 2 ^ (s + 1) : ℤ) % 2 = 0 := by
    rw [pow_succ, ← mul_assoc]
    exact Int.mul_emod_left _ _
  rw [binary64, hexp, hscaled, roundHalfEven_of_even heven hpos hlt, zpow_neg,
    zpow_natCast]
  split_ifs
  · push_cast
    field_simp
  · push_cast
    field_simp
    ring

/-- A number on a grid no finer than its own last place is a double. -/
theorem binary64_eq_self_of_eq_mul_zpow {q : ℚ} {m e : ℤ}
    (hq : q = m * 2 ^ e) (hexp : ulpExponent q ≤ e) : binary64 q = q := by
  obtain ⟨shift, hshift⟩ := Int.eq_ofNat_of_zero_le (sub_nonneg.mpr hexp)
  have hsplit : e = shift + ulpExponent q := by omega
  refine binary64_eq_self_of_eq_mul_ulp (k := m * 2 ^ shift) ?_
  calc q = m * 2 ^ (shift + ulpExponent q) := by rw [← hsplit, ← hq]
    _ = m * 2 ^ shift * 2 ^ ulpExponent q := by
        rw [zpow_add₀ (by norm_num), zpow_natCast, mul_assoc]
    _ = (m * 2 ^ shift : ℤ) * 2 ^ ulpExponent q := by push_cast; rfl

theorem abs_lt_zpow_ulpExponent (q : ℚ) : |q| < 2 ^ (ulpExponent q + 53) := by
  by_cases hq : q = 0
  · rw [hq, abs_zero]
    positivity
  · have hlog : |q| < 2 ^ (Int.log 2 |q| + 1) := by
      exact_mod_cast Int.lt_zpow_succ_log_self (by norm_num : 1 < 2) |q|
    refine hlog.trans_le (zpow_le_zpow_right₀ (by norm_num) ?_)
    unfold ulpExponent
    omega

/-- The significand of a rounding has 53 bits, or is the next power of two. -/
theorem abs_roundHalfEven_div_ulp_le (q : ℚ) :
    |roundHalfEven (q / 2 ^ ulpExponent q)| ≤ 2 ^ 53 := by
  have hpos := ulp_pos q
  have hdiv : |q / 2 ^ ulpExponent q| ≤ ((2 ^ 53 : ℤ) : ℚ) := by
    rw [abs_div, abs_of_pos hpos, div_le_iff₀ hpos]
    have hlt := abs_lt_zpow_ulpExponent q
    rw [add_comm, zpow_add₀ (by norm_num)] at hlt
    refine hlt.le.trans_eq ?_
    norm_num
  rw [abs_le] at hdiv ⊢
  constructor
  · have hlow := roundHalfEven_mono (x := ((-2 ^ 53 : ℤ) : ℚ))
      (y := q / 2 ^ ulpExponent q)
      (by push_cast; push_cast at hdiv; exact hdiv.1)
    rwa [roundHalfEven_intCast] at hlow
  · have hhigh := roundHalfEven_mono hdiv.2
    rwa [roundHalfEven_intCast] at hhigh

/-- A double rounds to itself. -/
theorem binary64_binary64 (q : ℚ) : binary64 (binary64 q) = binary64 q := by
  set m := roundHalfEven (q / 2 ^ ulpExponent q)
  set e := ulpExponent q
  have hvalue : binary64 q = m * 2 ^ e := rfl
  have hlow : -1074 ≤ e := le_max_right _ _
  by_cases hzero : binary64 q = 0
  · rw [hzero, binary64_zero]
  have hbound : ∀ b : ℤ, 53 ≤ b → |(m : ℚ)| < 2 ^ b →
      ulpExponent (binary64 q) ≤ e + b - 53 := by
    intro b hb hm
    refine ulpExponent_le_of_abs_lt hzero (by omega) ?_
    rw [hvalue, abs_mul, abs_of_pos (ulp_pos q), add_comm,
      zpow_add₀ (by norm_num)]
    exact mul_lt_mul_of_pos_right hm (ulp_pos q)
  have hbits : |m| ≤ 2 ^ 53 := abs_roundHalfEven_div_ulp_le q
  rcases hbits.lt_or_eq with hlt | heq
  · refine binary64_eq_self_of_eq_mul_zpow hvalue ?_
    have hexp := hbound 53 le_rfl (by exact_mod_cast hlt)
    omega
  · -- The next power of two is even, so it lies on the next coarser grid.
    have heven : m = m / 2 * 2 := by
      rcases (abs_eq (by norm_num : (0 : ℤ) ≤ 2 ^ 53)).mp heq with h | h <;>
        rw [h] <;> norm_num
    have hexp := hbound 54 (by norm_num) (by
      rw [← Int.cast_abs, heq]
      norm_num)
    refine binary64_eq_self_of_eq_mul_zpow (m := m / 2) (e := e + 1) ?_ (by omega)
    calc binary64 q = ((m / 2 * 2 : ℤ) : ℚ) * 2 ^ e := by rw [← heven, hvalue]
      _ = (m / 2 : ℤ) * 2 ^ (e + 1) := by
          rw [zpow_add₀ (by norm_num), zpow_one]
          push_cast
          ring

theorem ulpExponent_mono {x y : ℚ} (hx : 0 < x) (hxy : x ≤ y) :
    ulpExponent x ≤ ulpExponent y := by
  have hlog : Int.log 2 |x| ≤ Int.log 2 |y| := by
    rw [abs_of_pos hx, abs_of_pos (hx.trans_le hxy)]
    exact Int.log_mono_right hx hxy
  unfold ulpExponent
  omega

/-- A value in a lower binade than `y` rounds at most to the power of two that
starts the binade of `y`. -/
theorem binary64_le_zpow_log {x y : ℚ} (hx : 0 < x)
    (hexp : ulpExponent x < ulpExponent y) :
    binary64 x ≤ 2 ^ Int.log 2 |y| := by
  have hlog : Int.log 2 |x| + 1 ≤ Int.log 2 |y| ∧
      ulpExponent x ≤ Int.log 2 |y| := by
    unfold ulpExponent at *
    omega
  obtain ⟨shift, hshift⟩ :=
    Int.eq_ofNat_of_zero_le (sub_nonneg.mpr hlog.2)
  have hgrid : ((2 ^ shift : ℤ) : ℚ) * 2 ^ ulpExponent x =
      2 ^ Int.log 2 |y| := by
    push_cast
    rw [← zpow_natCast, ← zpow_add₀ (by norm_num)]
    congr 1
    omega
  rw [← hgrid]
  apply binary64_le_of_le_mul_ulp
  rw [hgrid]
  calc x = |x| := (abs_of_pos hx).symm
    _ ≤ 2 ^ (Int.log 2 |x| + 1) :=
      (Int.lt_zpow_succ_log_self (by norm_num) |x|).le
    _ ≤ 2 ^ Int.log 2 |y| := zpow_le_zpow_right₀ (by norm_num) hlog.1

theorem zpow_log_le_binary64 {y : ℚ} (hy : 0 < y)
    (hexp : -1074 < ulpExponent y) : 2 ^ Int.log 2 |y| ≤ binary64 y := by
  have hlog : ulpExponent y = Int.log 2 |y| - 52 := by
    unfold ulpExponent at *
    omega
  have hpow : ((2 ^ 52 : ℤ) : ℚ) = 2 ^ (52 : ℤ) := by norm_num
  have hgrid : ((2 ^ 52 : ℤ) : ℚ) * 2 ^ ulpExponent y = 2 ^ Int.log 2 |y| := by
    rw [hpow, ← zpow_add₀ (by norm_num)]
    congr 1
    omega
  rw [← hgrid]
  apply le_binary64_of_mul_ulp_le
  rw [hgrid, abs_of_pos hy]
  exact Int.zpow_log_le_self (by norm_num) hy

/-- Rounding preserves the order of non-negative values. -/
theorem binary64_mono {x y : ℚ} (hx : 0 ≤ x) (hxy : x ≤ y) :
    binary64 x ≤ binary64 y := by
  rcases hx.eq_or_lt with rfl | hpos
  · rw [binary64_zero]
    exact binary64_nonneg hxy
  · have hy : 0 < y := hpos.trans_le hxy
    rcases (ulpExponent_mono hpos hxy).lt_or_eq with hlt | heq
    · have hnormal : -1074 < ulpExponent y := by
        have : -1074 ≤ ulpExponent x := le_max_right _ _
        omega
      exact (binary64_le_zpow_log hpos hlt).trans
        (zpow_log_le_binary64 hy hnormal)
    · have hdiv : x / 2 ^ ulpExponent x ≤ y / 2 ^ ulpExponent y := by
        rw [heq]
        exact div_le_div_of_nonneg_right hxy (ulp_pos y).le
      have hcast : (roundHalfEven (x / 2 ^ ulpExponent x) : ℚ) ≤
          roundHalfEven (y / 2 ^ ulpExponent y) := by
        exact_mod_cast roundHalfEven_mono hdiv
      unfold binary64
      rw [← heq]
      rw [← heq] at hcast
      exact mul_le_mul_of_nonneg_right hcast (ulp_pos x).le

theorem roundHalfEven_neg (q : ℚ) :
    roundHalfEven (-q) = -roundHalfEven q := by
  have hlow : (⌊q⌋ : ℚ) ≤ q := Int.floor_le q
  have hhigh : q < ⌊q⌋ + 1 := Int.lt_floor_add_one q
  rcases hlow.eq_or_lt with heq | hlt
  · have hneg : -q = ((-⌊q⌋ : ℤ) : ℚ) := by rw [← heq]; simp
    have hq : roundHalfEven q = ⌊q⌋ := by
      conv_lhs => rw [← heq]
      exact roundHalfEven_intCast ⌊q⌋
    rw [hneg, roundHalfEven_intCast, hq]
  · have hfloor : ⌊-q⌋ = -⌊q⌋ - 1 := by
      rw [Int.floor_eq_iff]
      push_cast
      constructor <;> linarith
    unfold roundHalfEven
    rw [hfloor]
    push_cast
    split_ifs <;> first | omega | linarith

theorem binary64_neg (q : ℚ) : binary64 (-q) = -binary64 q := by
  have hexp : ulpExponent (-q) = ulpExponent q := by
    unfold ulpExponent
    rw [abs_neg]
  rw [binary64, hexp, neg_div, roundHalfEven_neg, binary64]
  push_cast
  ring

/-- Rounding preserves the order. -/
theorem binary64_monotone : Monotone binary64 := by
  intro x y hxy
  rcases le_total 0 x with hx | hx
  · exact binary64_mono hx hxy
  · rcases le_total 0 y with hy | hy
    · have hx' : 0 ≤ binary64 (-x) := binary64_nonneg (by linarith)
      rw [binary64_neg] at hx'
      exact (by linarith : binary64 x ≤ 0).trans (binary64_nonneg hy)
    · have hneg := binary64_mono (by linarith : 0 ≤ -y)
        (by linarith : -y ≤ -x)
      rw [binary64_neg, binary64_neg] at hneg
      linarith

/-- A value that is not just above an integer rounds up like its rounding. -/
theorem ceil_binary64_of_gap {q : ℚ} (hnonneg : 0 ≤ q) (hsmall : q < 2 ^ 32)
    (hgap : (⌈q⌉ : ℚ) - 1 + 1 / 2 ^ 20 < q) : ⌈binary64 q⌉ = ⌈q⌉ := by
  rcases hnonneg.eq_or_lt with rfl | hpos
  · rw [binary64_zero]
  have hceil : ⌈q⌉ ≤ 2 ^ 32 := Int.ceil_le.mpr (by exact_mod_cast hsmall.le)
  have hceilpos : 0 < ⌈q⌉ := Int.ceil_pos.mpr hpos
  have hint : binary64 (⌈q⌉ : ℤ) = (⌈q⌉ : ℤ) := by
    apply binary64_intCast
    rw [abs_of_pos hceilpos]
    omega
  have hupper : binary64 q ≤ ⌈q⌉ :=
    hint ▸ binary64_mono hnonneg (Int.le_ceil q)
  have hexp : ulpExponent q ≤ -21 :=
    ulpExponent_le_of_abs_lt (b := 32) hpos.ne' (by norm_num)
      (by rw [abs_of_pos hpos]; exact_mod_cast hsmall)
  have hulp : (2 : ℚ) ^ ulpExponent q ≤ 2 ^ (-21 : ℤ) :=
    zpow_le_zpow_right₀ (by norm_num) hexp
  have herror := (abs_le.mp (abs_binary64_sub_le_half_ulp q)).1
  have hlower : (⌈q⌉ : ℚ) - 1 < binary64 q := by
    norm_num at hulp hgap ⊢
    linarith
  rw [Int.ceil_eq_iff]
  exact ⟨hlower, hupper⟩

end PredictiveAutoscaler
