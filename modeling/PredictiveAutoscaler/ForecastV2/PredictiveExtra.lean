/-
The predictive term of a v2 decision over its whole range: what the allowance
bounds, in which directions the decision moves, and that the fixed-width
integers of the code compute the exact values.
-/
import PredictiveAutoscaler.ReplicaMath
import PredictiveAutoscaler.ForecastV2.Settings

namespace PredictiveAutoscaler.ForecastV2

open Forecasting (PredictiveExtraSpec)

/-- The two caps of the predictive extra, within the bounds that
`resolveV2Settings` admits. -/
structure ExtraCaps where
  maxReplicas : ℤ
  maxPercent : ℤ
  replicas_nonneg : 0 ≤ maxReplicas
  replicas_le : maxReplicas ≤ 1000
  percent_nonneg : 0 ≤ maxPercent
  percent_le : maxPercent ≤ 1000

theorem v2Set_bounds {dst lo hi v : ℤ} {key : String} {value : Option ℤ}
    (hdst : lo ≤ dst ∧ dst ≤ hi) (hset : v2Set dst key value lo hi = .ok v) :
    lo ≤ v ∧ v ≤ hi := by
  cases value with
  | none =>
    injection hset with heq
    exact heq ▸ hdst
  | some given =>
    simp only [v2Set] at hset
    split_ifs at hset with hout
    injection hset with heq
    rw [not_or, not_lt, not_lt] at hout
    exact heq ▸ hout

theorem resolveExtra_bounds {e : PredictiveExtraSpec} {extra : ℤ × ℤ}
    (hresolve : resolveExtra v2Default e = .ok extra) :
    (0 ≤ extra.1 ∧ extra.1 ≤ 1000) ∧ 0 ≤ extra.2 ∧ extra.2 ≤ 1000 := by
  simp only [resolveExtra, Forecasting.Except.bind_eq_ok_iff] at hresolve
  obtain ⟨replicas, hreplicas, percent, hpercent, hdone⟩ := hresolve
  injection hdone with heq
  rw [← heq]
  exact ⟨v2Set_bounds (by decide) hreplicas, v2Set_bounds (by decide) hpercent⟩

/-- Resolved settings carry caps. -/
def ExtraCaps.ofResolved {p : PredictionConfig} {s : V2Settings}
    (hresolve : resolveV2Settings p = .ok s) : ExtraCaps :=
  have hbounds : (0 ≤ s.extraMaxReplicas ∧ s.extraMaxReplicas ≤ 1000) ∧
      0 ≤ s.extraMaxPercent ∧ s.extraMaxPercent ≤ 1000 := by
    simp only [resolveV2Settings, Forecasting.Except.bind_eq_ok_iff] at hresolve
    obtain ⟨_, -, engine, -, seasonality, -, interval, -, horizon, -,
      historyDays, -, settlement, -, grace, -, miscoverage, -, calibration, -,
      trust, -, extra, hextra, _, -, hs⟩ := hresolve
    cases hs
    exact resolveExtra_bounds hextra
  ⟨s.extraMaxReplicas, s.extraMaxPercent, hbounds.1.1, hbounds.1.2,
    hbounds.2.1, hbounds.2.2⟩

/-- `ceil(U / c)` as the code computes it. -/
def uncappedReplicas (upperRPS capacityRPM : ℚ) : ℤ :=
  boundedReplicas (⌈binary64 (binary64 (upperRPS * 60) / capacityRPM)⌉ : ℤ)

theorem uncappedReplicas_mono {upperRPS upperRPS' capacityRPM : ℚ}
    (hcapacity : 0 < capacityRPM) (hupper : 0 ≤ upperRPS)
    (hle : upperRPS ≤ upperRPS') :
    uncappedReplicas upperRPS capacityRPM ≤
      uncappedReplicas upperRPS' capacityRPM := by
  have hrate : binary64 (upperRPS * 60) ≤ binary64 (upperRPS' * 60) :=
    binary64_mono (by positivity) (by linarith)
  have hquotient : binary64 (upperRPS * 60) / capacityRPM ≤
      binary64 (upperRPS' * 60) / capacityRPM :=
    div_le_div_of_nonneg_right hrate hcapacity.le
  have hnonneg : 0 ≤ binary64 (upperRPS * 60) / capacityRPM :=
    div_nonneg (binary64_nonneg (by positivity)) hcapacity.le
  refine boundedReplicas_mono ?_
  exact_mod_cast Int.ceil_mono (binary64_mono hnonneg hquotient)

/-- The percentage of the base, rounded up. -/
def percentShare (maxPercent base : ℤ) : ℤ := (maxPercent * base + 99).tdiv 100

theorem percentShare_eq_ceil {maxPercent base : ℤ}
    (hpercent : 0 ≤ maxPercent) (hbase : 0 ≤ base) :
    percentShare maxPercent base = ⌈(maxPercent * base / 100 : ℚ)⌉ := by
  have hprod : 0 ≤ maxPercent * base := mul_nonneg hpercent hbase
  unfold percentShare
  rw [Int.tdiv_eq_ediv_of_nonneg (by omega), eq_comm, Int.ceil_eq_iff]
  have hdiv := Int.mul_ediv_add_emod (maxPercent * base + 99) 100
  have hlow := Int.emod_nonneg (maxPercent * base + 99) (by decide : (100 : ℤ) ≠ 0)
  have hhigh := Int.emod_lt_of_pos (maxPercent * base + 99)
    (by decide : (0 : ℤ) < 100)
  generalize (maxPercent * base + 99) / 100 = share at hdiv ⊢
  have habove : maxPercent * base ≤ share * 100 := by omega
  have hbelow : (share - 1) * 100 < maxPercent * base := by omega
  constructor
  · rw [lt_div_iff₀ (by norm_num)]
    exact_mod_cast hbelow
  · rw [div_le_iff₀ (by norm_num)]
    exact_mod_cast habove

theorem percentShare_mono {maxPercent maxPercent' base : ℤ}
    (hpercent : 0 ≤ maxPercent) (hle : maxPercent ≤ maxPercent')
    (hbase : 0 ≤ base) :
    percentShare maxPercent base ≤ percentShare maxPercent' base := by
  rw [percentShare_eq_ceil hpercent hbase,
    percentShare_eq_ceil (hpercent.trans hle) hbase]
  refine Int.ceil_mono (div_le_div_of_nonneg_right ?_ (by norm_num))
  exact_mod_cast mul_le_mul_of_nonneg_right hle hbase

/-- The allowance over the reactive count. -/
def allowanceOf (caps : ExtraCaps) (reactive minReplicas : ℤ) : ℤ :=
  min (min caps.maxReplicas (percentShare caps.maxPercent
    (max reactive minReplicas))) maxInt32

/-- The term as a minimum. -/
theorem v2PredictiveReplicas_eq (caps : ExtraCaps) (upperRPS capacityRPM : ℚ)
    (reactive minReplicas : ℤ) :
    v2PredictiveReplicas upperRPS capacityRPM reactive minReplicas
        caps.maxReplicas caps.maxPercent =
      ⟨uncappedReplicas upperRPS capacityRPM,
        allowanceOf caps reactive minReplicas,
        min (uncappedReplicas upperRPS capacityRPM)
          (reactive + allowanceOf caps reactive minReplicas),
        decide (reactive + allowanceOf caps reactive minReplicas <
          uncappedReplicas upperRPS capacityRPM)⟩ := by
  have hbase : (if reactive < minReplicas then minReplicas else reactive) =
      max reactive minReplicas := by split_ifs <;> omega
  have hallowance : ∀ share : ℤ,
      (if maxInt32 < (if share < caps.maxReplicas then share
          else caps.maxReplicas) then maxInt32
        else (if share < caps.maxReplicas then share
          else caps.maxReplicas)) =
        min (min caps.maxReplicas share) maxInt32 := by
    intro share
    split_ifs <;> omega
  unfold v2PredictiveReplicas
  simp only [hbase, hallowance]
  unfold allowanceOf percentShare uncappedReplicas
  split_ifs with hlimit
  · rw [min_eq_right hlimit.le, decide_eq_true hlimit]
  · rw [min_eq_left (not_lt.mp hlimit), decide_eq_false hlimit]

theorem allowanceOf_nonneg (caps : ExtraCaps) (reactive : ℤ)
    {minReplicas : ℤ} (hmin : 1 ≤ minReplicas) :
    0 ≤ allowanceOf caps reactive minReplicas := by
  have hbase : 0 ≤ max reactive minReplicas := by omega
  have hshare : 0 ≤ percentShare caps.maxPercent (max reactive minReplicas) :=
    Int.tdiv_nonneg
      (by linarith [mul_nonneg caps.percent_nonneg hbase]) (by decide)
  have hreplicas := caps.replicas_nonneg
  have hmax : (0 : ℤ) ≤ maxInt32 := by decide
  unfold allowanceOf
  omega

theorem allowanceOf_le (caps : ExtraCaps) (reactive minReplicas : ℤ) :
    allowanceOf caps reactive minReplicas ≤ caps.maxReplicas ∧
      allowanceOf caps reactive minReplicas ≤
        percentShare caps.maxPercent (max reactive minReplicas) := by
  unfold allowanceOf
  omega

theorem allowanceOf_mono {caps caps' : ExtraCaps} (reactive : ℤ)
    {minReplicas : ℤ} (hmin : 1 ≤ minReplicas)
    (hreplicas : caps.maxReplicas ≤ caps'.maxReplicas)
    (hpercent : caps.maxPercent ≤ caps'.maxPercent) :
    allowanceOf caps reactive minReplicas ≤
      allowanceOf caps' reactive minReplicas := by
  have hshare := percentShare_mono caps.percent_nonneg hpercent
    (by omega : 0 ≤ max reactive minReplicas)
  unfold allowanceOf
  omega

-- `v2PredictiveReplicas` over `int32` counts and `int64` settings, every step
-- wrapping as the machine's does.
namespace FixedWidth

/-- `v2Policy`. -/
structure V2Policy where
  uncapped : Int32
  allowance : Int32
  capped : Int32
  binding : Bool

/-- The policy with its counts as integers. -/
def V2Policy.exact (p : V2Policy) : PredictiveAutoscaler.V2Policy :=
  ⟨p.uncapped.toInt, p.allowance.toInt, p.capped.toInt, p.binding⟩

def base (reactive minReplicas : Int32) : Int32 :=
  if reactive < minReplicas then minReplicas else reactive

def byPercent (maxPercent : Int64) (base : Int32) : Int64 :=
  (maxPercent * base.toInt64 + 99) / 100

def allowance (maxExtra byPercent : Int64) : Int64 :=
  let allowance := if byPercent < maxExtra then byPercent else maxExtra
  if 2147483647 < allowance then 2147483647 else allowance

def limit (reactive : Int32) (allowance : Int64) : Int64 :=
  reactive.toInt64 + allowance

/-- The allowance before it is narrowed to `int32`. -/
def granted (reactive minReplicas : Int32) (maxExtra maxPercent : Int64) :
    Int64 :=
  allowance maxExtra (byPercent maxPercent (base reactive minReplicas))

def v2PredictiveReplicas (upperRPS capacityRPM : ℚ)
    (reactive minReplicas : Int32) (maxExtra maxPercent : Int64) : V2Policy :=
  let uncapped := Int32.ofInt (boundedReplicas
    (⌈binary64 (binary64 (upperRPS * 60) / capacityRPM)⌉ : ℤ))
  let allowance := granted reactive minReplicas maxExtra maxPercent
  let limit := limit reactive allowance
  if limit < uncapped.toInt64 then
    ⟨uncapped, allowance.toInt32, limit.toInt32, true⟩
  else ⟨uncapped, allowance.toInt32, uncapped, false⟩

/-- Every operation yields the integer it stands for. -/
structure NoOverflow (uncapped reactive minReplicas : Int32)
    (maxExtra maxPercent : Int64) : Prop where
  product : (maxPercent * (base reactive minReplicas).toInt64).toInt =
    maxPercent.toInt * (base reactive minReplicas).toInt
  sum : (maxPercent * (base reactive minReplicas).toInt64 + 99).toInt =
    maxPercent.toInt * (base reactive minReplicas).toInt + 99
  quotient : (byPercent maxPercent (base reactive minReplicas)).toInt =
    (maxPercent.toInt * (base reactive minReplicas).toInt + 99).tdiv 100
  narrowed : (granted reactive minReplicas maxExtra maxPercent).toInt32.toInt =
    (granted reactive minReplicas maxExtra maxPercent).toInt
  limited : (limit reactive
      (granted reactive minReplicas maxExtra maxPercent)).toInt =
    reactive.toInt + (granted reactive minReplicas maxExtra maxPercent).toInt
  capped : limit reactive (granted reactive minReplicas maxExtra maxPercent) <
      uncapped.toInt64 →
    (limit reactive
        (granted reactive minReplicas maxExtra maxPercent)).toInt32.toInt =
      (limit reactive
        (granted reactive minReplicas maxExtra maxPercent)).toInt

theorem bmod_int64 {n : ℤ} (hlow : -2 ^ 63 ≤ n) (hhigh : n < 2 ^ 63) :
    n.bmod (2 ^ 64) = n :=
  Int.bmod_eq_of_le (by norm_num; omega) (by norm_num; omega)

theorem bmod_int32 {n : ℤ} (hlow : -2 ^ 31 ≤ n) (hhigh : n < 2 ^ 31) :
    n.bmod (2 ^ 32) = n :=
  Int.bmod_eq_of_le (by norm_num; omega) (by norm_num; omega)

theorem base_toInt (reactive minReplicas : Int32) :
    (base reactive minReplicas).toInt =
      max reactive.toInt minReplicas.toInt := by
  unfold base
  split_ifs with hlt
  · exact (max_eq_right (Int32.lt_iff_toInt_lt.mp hlt).le).symm
  · exact (max_eq_left (not_lt.mp (mt Int32.lt_iff_toInt_lt.mpr hlt))).symm

/-- A setting of at most `1000` times an `int32`, plus `99`, fits `int64`. -/
theorem product_bounds {maxPercent base : ℤ} (hpercent : 0 ≤ maxPercent)
    (hle : maxPercent ≤ 1000) (hbase : 0 ≤ base) (hbase' : base < 2 ^ 31) :
    0 ≤ maxPercent * base ∧ maxPercent * base + 99 < 2 ^ 63 := by
  have hprod : maxPercent * base ≤ 1000 * 2 ^ 31 :=
    mul_le_mul hle hbase'.le hbase (by norm_num)
  exact ⟨mul_nonneg hpercent hbase, by omega⟩

theorem product_toInt {maxPercent : Int64} {base : Int32}
    (hpercent : 0 ≤ maxPercent.toInt) (hle : maxPercent.toInt ≤ 1000)
    (hbase : 0 ≤ base.toInt) :
    (maxPercent * base.toInt64).toInt = maxPercent.toInt * base.toInt := by
  obtain ⟨hlow, hhigh⟩ := product_bounds hpercent hle hbase base.toInt_lt
  rw [Int64.toInt_mul, Int32.toInt_toInt64]
  exact bmod_int64 (by omega) (by omega)

theorem sum_toInt {maxPercent : Int64} {base : Int32}
    (hpercent : 0 ≤ maxPercent.toInt) (hle : maxPercent.toInt ≤ 1000)
    (hbase : 0 ≤ base.toInt) :
    (maxPercent * base.toInt64 + 99).toInt =
      maxPercent.toInt * base.toInt + 99 := by
  obtain ⟨hlow, hhigh⟩ := product_bounds hpercent hle hbase base.toInt_lt
  rw [Int64.toInt_add, product_toInt hpercent hle hbase]
  exact bmod_int64 (by change -2 ^ 63 ≤ _ + (99 : ℤ); omega) hhigh

theorem byPercent_toInt {maxPercent : Int64} {base : Int32}
    (hpercent : 0 ≤ maxPercent.toInt) (hle : maxPercent.toInt ≤ 1000)
    (hbase : 0 ≤ base.toInt) :
    (byPercent maxPercent base).toInt =
      percentShare maxPercent.toInt base.toInt := by
  unfold byPercent percentShare
  rw [Int64.toInt_div_of_ne_right _ _ (by decide),
    sum_toInt hpercent hle hbase]
  rfl

theorem allowance_toInt (maxExtra byPercent : Int64) :
    (allowance maxExtra byPercent).toInt =
      min (min maxExtra.toInt byPercent.toInt) maxInt32 := by
  have hmax : (2147483647 : Int64).toInt = maxInt32 := rfl
  simp only [allowance, Int64.lt_iff_toInt_lt, hmax]
  split_ifs <;> omega

/-- The settings of the code for the caps. -/
def maxExtra (caps : ExtraCaps) : Int64 := Int64.ofInt caps.maxReplicas

def maxPercent (caps : ExtraCaps) : Int64 := Int64.ofInt caps.maxPercent

theorem maxExtra_toInt (caps : ExtraCaps) :
    (maxExtra caps).toInt = caps.maxReplicas :=
  Int64.toInt_ofInt_of_le (by linarith [caps.replicas_nonneg])
    (by linarith [caps.replicas_le])

theorem maxPercent_toInt (caps : ExtraCaps) :
    (maxPercent caps).toInt = caps.maxPercent :=
  Int64.toInt_ofInt_of_le (by linarith [caps.percent_nonneg])
    (by linarith [caps.percent_le])

section Exact

variable (caps : ExtraCaps) (reactive : Int32) {minReplicas : Int32}
  (hmin : 1 ≤ minReplicas.toInt)

include hmin

theorem base_nonneg : 0 ≤ (base reactive minReplicas).toInt := by
  rw [base_toInt]
  omega

theorem granted_toInt :
    (granted reactive minReplicas (maxExtra caps) (maxPercent caps)).toInt =
      allowanceOf caps reactive.toInt minReplicas.toInt := by
  have hpercent : 0 ≤ (maxPercent caps).toInt := by
    rw [maxPercent_toInt]
    exact caps.percent_nonneg
  have hle : (maxPercent caps).toInt ≤ 1000 := by
    rw [maxPercent_toInt]
    exact caps.percent_le
  rw [granted, allowance_toInt,
    byPercent_toInt hpercent hle (base_nonneg reactive hmin), base_toInt,
    maxExtra_toInt, maxPercent_toInt]
  rfl

theorem granted_bounds :
    0 ≤ (granted reactive minReplicas (maxExtra caps) (maxPercent caps)).toInt ∧
      (granted reactive minReplicas (maxExtra caps) (maxPercent caps)).toInt ≤
        maxInt32 := by
  rw [granted_toInt caps reactive hmin]
  exact ⟨allowanceOf_nonneg caps _ hmin, min_le_right _ _⟩

theorem noOverflow (uncapped : Int32) :
    NoOverflow uncapped reactive minReplicas (maxExtra caps)
      (maxPercent caps) := by
  have hpercent : 0 ≤ (maxPercent caps).toInt := by
    rw [maxPercent_toInt]
    exact caps.percent_nonneg
  have hle : (maxPercent caps).toInt ≤ 1000 := by
    rw [maxPercent_toInt]
    exact caps.percent_le
  have hbase := base_nonneg reactive hmin
  obtain ⟨hgranted, hgranted'⟩ := granted_bounds caps reactive hmin
  have hreactive := reactive.le_toInt
  have hreactive' := reactive.toInt_lt
  have hlimit : (limit reactive
      (granted reactive minReplicas (maxExtra caps) (maxPercent caps))).toInt =
        reactive.toInt + (granted reactive minReplicas (maxExtra caps)
          (maxPercent caps)).toInt := by
    have hmax : maxInt32 = 2147483647 := rfl
    rw [limit, Int64.toInt_add, Int32.toInt_toInt64]
    exact bmod_int64 (by omega) (by omega)
  refine ⟨product_toInt hpercent hle hbase, sum_toInt hpercent hle hbase,
    byPercent_toInt hpercent hle hbase, ?_, hlimit, ?_⟩
  · rw [Int64.toInt_toInt32]
    have hmax : maxInt32 = 2147483647 := rfl
    exact bmod_int32 (by omega) (by omega)
  · intro hlt
    have hcapped := Int64.lt_iff_toInt_lt.mp hlt
    rw [Int32.toInt_toInt64] at hcapped
    have huncapped := uncapped.toInt_lt
    rw [Int64.toInt_toInt32]
    exact bmod_int32 (by omega) (by omega)

/-- The code computes the exact policy. -/
theorem v2PredictiveReplicas_exact (upperRPS capacityRPM : ℚ) :
    (v2PredictiveReplicas upperRPS capacityRPM reactive minReplicas
        (maxExtra caps) (maxPercent caps)).exact =
      PredictiveAutoscaler.v2PredictiveReplicas upperRPS capacityRPM
        reactive.toInt minReplicas.toInt caps.maxReplicas caps.maxPercent := by
  have huncapped : (Int32.ofInt (boundedReplicas
      (⌈binary64 (binary64 (upperRPS * 60) / capacityRPM)⌉ : ℤ))).toInt =
        uncappedReplicas upperRPS capacityRPM :=
    Int32.toInt_ofInt_of_le
      (le_trans (by norm_num) (boundedReplicas_nonneg _))
      (lt_of_le_of_lt (boundedReplicas_le _) (by decide))
  have hexact := noOverflow caps reactive hmin
    (Int32.ofInt (boundedReplicas
      (⌈binary64 (binary64 (upperRPS * 60) / capacityRPM)⌉ : ℤ)))
  have hlimit := hexact.limited
  rw [granted_toInt caps reactive hmin] at hlimit
  rw [v2PredictiveReplicas_eq]
  unfold v2PredictiveReplicas
  dsimp only
  split_ifs with hlt
  · have hcapped := hexact.capped hlt
    rw [Int64.lt_iff_toInt_lt, Int32.toInt_toInt64, huncapped, hlimit] at hlt
    simp only [V2Policy.exact, huncapped, hexact.narrowed, hcapped, hlimit,
      granted_toInt caps reactive hmin, min_eq_right hlt.le, decide_eq_true hlt]
  · rw [Int64.lt_iff_toInt_lt, Int32.toInt_toInt64, huncapped, hlimit] at hlt
    simp only [V2Policy.exact, huncapped, hexact.narrowed,
      granted_toInt caps reactive hmin, min_eq_left (not_lt.mp hlt),
      decide_eq_false hlt]

end Exact

end FixedWidth

/-- The policy the code computes for a spec's bounds and caps. -/
def extraPolicy (caps : ExtraCaps) (upperRPS capacityRPM : ℚ)
    (reactive minReplicas : Int32) : FixedWidth.V2Policy :=
  FixedWidth.v2PredictiveReplicas upperRPS capacityRPM reactive minReplicas
    (FixedWidth.maxExtra caps) (FixedWidth.maxPercent caps)

/-- The decision of a measured reconcile with the forecast. -/
def extraDesired (caps : ExtraCaps) (upperRPS capacityRPM : ℚ)
    (reactive minReplicas maxReplicas current : Int32) : ℤ :=
  (unifiedDesired
    (extraPolicy caps upperRPS capacityRPM reactive minReplicas).capped.toInt
    reactive.toInt minReplicas.toInt maxReplicas.toInt current.toInt true
    true).1

/-- The decision of a measured reconcile without a forecast. -/
def reactiveDesired (reactive minReplicas maxReplicas current : Int32) : ℤ :=
  (unifiedDesired 0 reactive.toInt minReplicas.toInt maxReplicas.toInt
    current.toInt false true).1

theorem extraPolicy_exact (caps : ExtraCaps) (upperRPS capacityRPM : ℚ)
    (reactive : Int32) {minReplicas : Int32} (hmin : 1 ≤ minReplicas.toInt) :
    (extraPolicy caps upperRPS capacityRPM reactive minReplicas).exact =
      v2PredictiveReplicas upperRPS capacityRPM reactive.toInt
        minReplicas.toInt caps.maxReplicas caps.maxPercent :=
  FixedWidth.v2PredictiveReplicas_exact caps reactive hmin upperRPS capacityRPM

theorem extraPolicy_allowance (caps : ExtraCaps) (upperRPS capacityRPM : ℚ)
    (reactive : Int32) {minReplicas : Int32} (hmin : 1 ≤ minReplicas.toInt) :
    (extraPolicy caps upperRPS capacityRPM reactive minReplicas).allowance.toInt =
      allowanceOf caps reactive.toInt minReplicas.toInt := by
  have hexact := extraPolicy_exact caps upperRPS capacityRPM reactive hmin
  rw [v2PredictiveReplicas_eq] at hexact
  exact congrArg V2Policy.allowance hexact

theorem extraPolicy_capped (caps : ExtraCaps) (upperRPS capacityRPM : ℚ)
    (reactive : Int32) {minReplicas : Int32} (hmin : 1 ≤ minReplicas.toInt) :
    (extraPolicy caps upperRPS capacityRPM reactive minReplicas).capped.toInt =
      min (uncappedReplicas upperRPS capacityRPM)
        (reactive.toInt + allowanceOf caps reactive.toInt minReplicas.toInt) := by
  have hexact := extraPolicy_exact caps upperRPS capacityRPM reactive hmin
  rw [v2PredictiveReplicas_eq] at hexact
  exact congrArg V2Policy.capped hexact

theorem extraDesired_eq (caps : ExtraCaps) (upperRPS capacityRPM : ℚ)
    (reactive current : Int32) {minReplicas maxReplicas : Int32}
    (hmin : 1 ≤ minReplicas.toInt)
    (hbounds : minReplicas.toInt ≤ maxReplicas.toInt) :
    extraDesired caps upperRPS capacityRPM reactive minReplicas maxReplicas
        current =
      min (max (max (min (uncappedReplicas upperRPS capacityRPM)
        (reactive.toInt + allowanceOf caps reactive.toInt minReplicas.toInt))
        reactive.toInt) minReplicas.toInt) maxReplicas.toInt := by
  rw [extraDesired, unifiedDesired_measured hbounds,
    extraPolicy_capped caps upperRPS capacityRPM reactive hmin]
  rfl

theorem reactiveDesired_eq (reactive current : Int32)
    {minReplicas maxReplicas : Int32} (hmin : 1 ≤ minReplicas.toInt)
    (hbounds : minReplicas.toInt ≤ maxReplicas.toInt) :
    reactiveDesired reactive minReplicas maxReplicas current =
      min (max reactive.toInt minReplicas.toInt) maxReplicas.toInt := by
  rw [reactiveDesired, unifiedDesired_measured hbounds]
  dsimp only
  rw [if_neg Bool.false_ne_true]
  omega

/-- The forecast only ever raises a measured decision, by at most its
allowance; more rate or more allowance never lowers it, and no step of the
code's integers overflows, whatever the reactive count. -/
theorem predictive_term_capped_and_monotone (caps : ExtraCaps)
    (upperRPS capacityRPM : ℚ)
    (reactive minReplicas maxReplicas current : Int32)
    (hcapacity : 0 < capacityRPM) (hupper : 0 ≤ upperRPS) (hmin : 1 ≤ minReplicas.toInt)
    (hbounds : minReplicas.toInt ≤ maxReplicas.toInt) :
    let policy := extraPolicy caps upperRPS capacityRPM reactive minReplicas
    let desired := extraDesired caps upperRPS capacityRPM reactive minReplicas
      maxReplicas current
    reactiveDesired reactive minReplicas maxReplicas current ≤ desired ∧
    desired ≤ clampReplicas minReplicas.toInt maxReplicas.toInt
      (max reactive.toInt (reactive.toInt + policy.allowance.toInt)) ∧
    policy.allowance.toInt ≤ min caps.maxReplicas
      ⌈(caps.maxPercent * (max reactive.toInt minReplicas.toInt : ℤ) / 100 : ℚ)⌉ ∧
    (policy.allowance.toInt = 0 →
      desired = reactiveDesired reactive minReplicas maxReplicas current) ∧
    (∀ (caps' : ExtraCaps) (upperRPS' : ℚ), upperRPS ≤ upperRPS' →
      caps.maxReplicas ≤ caps'.maxReplicas →
      caps.maxPercent ≤ caps'.maxPercent →
      desired ≤ extraDesired caps' upperRPS' capacityRPM reactive minReplicas
        maxReplicas current) ∧
    policy.exact = v2PredictiveReplicas upperRPS capacityRPM reactive.toInt
      minReplicas.toInt caps.maxReplicas caps.maxPercent ∧
    FixedWidth.NoOverflow policy.uncapped reactive minReplicas
      (FixedWidth.maxExtra caps) (FixedWidth.maxPercent caps) := by
  intro policy desired
  have hdesired : desired = _ := extraDesired_eq caps upperRPS capacityRPM
    reactive current hmin hbounds
  have hreactive := reactiveDesired_eq reactive current hmin hbounds
  have hallowance : policy.allowance.toInt = _ :=
    extraPolicy_allowance caps upperRPS capacityRPM reactive hmin
  have hnonneg := allowanceOf_nonneg caps reactive.toInt hmin
  obtain ⟨hreplicas, hpercent⟩ :=
    allowanceOf_le caps reactive.toInt minReplicas.toInt
  rw [percentShare_eq_ceil caps.percent_nonneg (by omega)] at hpercent
  refine ⟨?_, ?_, ?_, ?_, ?_,
    extraPolicy_exact caps upperRPS capacityRPM reactive hmin,
    FixedWidth.noOverflow caps reactive hmin policy.uncapped⟩
  · omega
  · rw [clampReplicas_eq hbounds, hallowance]
    omega
  · rw [hallowance]
    exact le_min hreplicas hpercent
  · intro hzero
    omega
  · intro caps' upperRPS' hle hmore hmore'
    have huncapped := uncappedReplicas_mono hcapacity hupper hle
    have hextra := allowanceOf_mono reactive.toInt hmin hmore hmore'
    rw [hdesired, extraDesired_eq caps' upperRPS' capacityRPM reactive current
      hmin hbounds]
    omega

namespace PredictiveExtraWitness

/-- The caps of the default settings. -/
def caps : ExtraCaps :=
  ExtraCaps.ofResolved (rfl : resolveV2Settings {} = .ok v2Default)

/-- At an upper bound worth seven replicas, a measured need of four is raised,
and by no more than the two replicas that are allowed. -/
theorem four_raised_to_six :
    (4 ≤ extraDesired caps 65 600 4 1 10 4 ∧
      extraDesired caps 65 600 4 1 10 4 ≤ 6) ∧
      extraDesired caps 65 600 4 1 10 4 = 6 := by
  have hcapped := predictive_term_capped_and_monotone caps 65 600 4 1 10 4
    (by norm_num) (by norm_num) (by decide) (by decide)
  have hallowance : (extraPolicy caps 65 600 4 1).allowance.toInt = 2 := by
    decide +kernel
  refine ⟨⟨hcapped.1, hcapped.2.1.trans ?_⟩, by decide +kernel⟩
  rw [hallowance]
  decide

end PredictiveExtraWitness

end PredictiveAutoscaler.ForecastV2
