/-
The cache of fitted generations, keyed by the boundary and the digest of the
history before it.  A generation that is served from it is the one that the
grid of the call gives, as long as nothing from before the hashed history is
carried into the Holt-Winters window.
-/
import PredictiveAutoscaler.Models.Causality
import PredictiveAutoscaler.Models.Fingerprints
import PredictiveAutoscaler.OrderedDict
import PredictiveAutoscaler.Run

namespace PredictiveAutoscaler.Models.SeasonalEnsemble

def cacheSize : ℕ := 32

/-- The cache key of the call, the boundary and the digest of the history. -/
abbrev GenerationKey (Digest : Type) := String × ℤ × Digest

abbrev GenerationCache (Digest : Type) :=
  OrderedDict (GenerationKey Digest) (Generation Digest)

structure FitCall where
  grid : Grid
  boundaryTs : ℤ
  cacheKey : String

section Cache

variable {Digest : Type} [DecidableEq Digest] (fits : Fits)
  (sha256 : List UInt8 → Digest)

/-- `generation_for`: fit, or fetch from the cache. -/
def cachedGenerationFor (cache : GenerationCache Digest) (call : FitCall) :
    GenerationCache Digest × Except String (Generation Digest) :=
  match boundaryIndex call.grid call.boundaryTs with
  | .error e => (cache, .error e)
  | .ok b =>
      let key := (call.cacheKey, call.boundaryTs,
        sha256 (fingerprinted call.grid call.boundaryTs b))
      match cache.get? key with
      | some gen => (cache.moveToEnd key, .ok gen)
      | none =>
          match fitAt fits sha256 call.grid call.boundaryTs b with
          | .error e => (cache, .error e)
          | .ok gen => ((cache.set key gen).evict cacheSize, .ok gen)

end Cache

/-- Nothing from before the hashed history is carried into the Holt-Winters
window: one of its first two slots was observed, or nothing was before them. -/
def Covered (g : Grid) (b : ℕ) : Prop :=
  (g.at? (arLo b)).isSome ∨ (g.at? (hwLo b)).isSome ∨
    ∀ i < arLo b, g.at? i = none

def FitCall.Covered (call : FitCall) : Prop :=
  ∀ b, boundaryIndex call.grid call.boundaryTs = .ok b →
    SeasonalEnsemble.Covered call.grid b

/-- Two grids with the same two weeks up to their boundaries, both longer. -/
structure Shifted (g g' : Grid) (b b' : ℕ) : Prop where
  far : hwWindowSlots ≤ b
  far' : hwWindowSlots ≤ b'
  within : b < g.size
  within' : b' < g'.size
  starts : g.ts (hwLo b) = g'.ts (hwLo b')
  same : ∀ k ≤ hwWindowSlots, g.y (b - k) = g'.y (b' - k)

theorem boundaryIndex_eq_ok {g : Grid} {boundaryTs : ℤ} {b : ℕ}
    (h : boundaryIndex g boundaryTs = .ok b) :
    g.ts b ≤ boundaryTs ∧ boundaryTs < g.ts (b + 1) ∧ b < g.size := by
  unfold boundaryIndex at h
  dsimp only at h
  split at h
  · cases h
  · rename_i hin
    split at h
    · cases h
    · cases h
      rw [not_or, not_lt, not_le] at hin
      have hcast : ((g.index boundaryTs).toNat : ℤ) = g.index boundaryTs :=
        Int.toNat_of_nonneg hin.1
      unfold Grid.ts
      push_cast
      rw [hcast]
      unfold Grid.index slotSeconds at *
      omega

theorem getElem?_history {g : Grid} {b i : ℕ} (h : arLo b + i ≤ b) :
    (history g b)[i]? = some (g.y (arLo b + i)) := by
  unfold history
  rw [List.getElem?_map, List.getElem?_range' (by omega), Nat.one_mul]
  rfl

theorem hwWindowSlots_eq : hwWindowSlots = 2016 := rfl

theorem hwLo_eq (b : ℕ) : hwLo b = b + 1 - 2016 := rfl

theorem arLo_eq (b : ℕ) : arLo b = b - 2016 := Nat.sub_sub b 1008 1008

theorem ts_eq (g : Grid) (i : ℕ) : g.ts i = g.t0 + i * 600 := rfl

/-- A history that starts before its window is no text of one that starts with
it: a timestamp's text would be eight characters longer. -/
theorem length_history_ne {g g' : Grid} {boundaryTs : ℤ} {b b' : ℕ}
    (hb : boundaryIndex g boundaryTs = .ok b)
    (hb' : boundaryIndex g' boundaryTs = .ok b') (hfar : 2016 ≤ b)
    (hnear : b' < 2016) (hstart : g.ts (hwLo b) = g'.ts (hwLo b')) :
    (decimal (g.ts (arLo b))).length + 8 * (history g b).length ≠
      (decimal (g'.ts (arLo b'))).length + 8 * (history g' b').length := by
  obtain ⟨hle, hlt, -⟩ := boundaryIndex_eq_ok hb
  obtain ⟨hle', hlt', -⟩ := boundaryIndex_eq_ok hb'
  have hshort := length_decimal_lt (g.ts (hwLo b))
  have hearlier : g.ts (hwLo b) - 600 = g.ts (arLo b) := by
    rw [ts_eq, ts_eq, hwLo_eq, arLo_eq]
    omega
  have hlater : g.ts (hwLo b) = g'.ts (arLo b') := by
    rw [hstart, ts_eq, ts_eq, hwLo_eq, arLo_eq]
    omega
  have hlast : b' = 2015 := by
    rw [ts_eq, ts_eq, hwLo_eq, hwLo_eq] at hstart
    rw [ts_eq] at hle hlt hle' hlt'
    omega
  rw [hearlier, hlater] at hshort
  rw [length_history, length_history]
  rw [arLo_eq, arLo_eq] at hshort ⊢
  omega

theorem ts_arLo_eq {g g' : Grid} {b b' : ℕ} (hfar : 2016 ≤ b)
    (hfar' : 2016 ≤ b') (hstart : g.ts (hwLo b) = g'.ts (hwLo b')) :
    g.ts (arLo b) = g'.ts (arLo b') := by
  obtain ⟨k, rfl⟩ := Nat.exists_eq_add_of_le hfar
  obtain ⟨k', rfl⟩ := Nat.exists_eq_add_of_le hfar'
  rw [ts_eq, ts_eq, hwLo_eq, hwLo_eq, Nat.add_assoc, Nat.add_assoc,
    Nat.add_sub_cancel_left, Nat.add_sub_cancel_left] at hstart
  rw [ts_eq, ts_eq, arLo_eq, arLo_eq, Nat.add_sub_cancel_left,
    Nat.add_sub_cancel_left]
  push_cast at hstart
  linarith

/-- Equal histories of one boundary come from grids that agree up to it, or
that are shifted against each other. -/
theorem aligned_of_fingerprinted_eq {g g' : Grid} {boundaryTs : ℤ} {b b' : ℕ}
    (hb : boundaryIndex g boundaryTs = .ok b)
    (hb' : boundaryIndex g' boundaryTs = .ok b')
    (h : fingerprinted g boundaryTs b = fingerprinted g' boundaryTs b') :
    (b = b' ∧ Agree b g g') ∨ Shifted g g' b b' := by
  obtain ⟨hle, hlt, hin⟩ := boundaryIndex_eq_ok hb
  obtain ⟨hle', hlt', hin'⟩ := boundaryIndex_eq_ok hb'
  obtain ⟨hstart, hbytes⟩ := fingerprinted_injective h
  have hlength := congrArg List.length hbytes
  rw [List.length_append, List.length_append, length_flatMap_bytes,
    length_flatMap_bytes, ascii, ascii, List.length_map, List.length_map]
    at hlength
  have hvalues : g.ts (arLo b) = g'.ts (arLo b') →
      history g b = history g' b' := by
    intro hts
    rw [hts] at hbytes
    exact flatMap_bytes_injective (List.append_cancel_left hbytes)
  by_cases hfar : 2016 ≤ b
  · by_cases hfar' : 2016 ≤ b'
    · have hhistory := hvalues (ts_arLo_eq hfar hfar' hstart)
      have hsame : ∀ k ≤ hwWindowSlots, g.y (b - k) = g'.y (b' - k) := by
        intro k hk
        rw [hwWindowSlots_eq] at hk
        have hget : (history g b)[2016 - k]? = (history g' b')[2016 - k]? := by
          rw [hhistory]
        rw [getElem?_history (by rw [arLo_eq]; omega),
          getElem?_history (by rw [arLo_eq]; omega)] at hget
        rw [show b - k = arLo b + (2016 - k) by rw [arLo_eq]; omega,
          show b' - k = arLo b' + (2016 - k) by rw [arLo_eq]; omega]
        exact Option.some.inj hget
      rw [← hwWindowSlots_eq] at hfar hfar'
      exact .inr ⟨hfar, hfar', hin, hin', hstart, hsame⟩
    · exact absurd hlength
        (length_history_ne hb hb' hfar (not_le.mp hfar') hstart)
  · by_cases hfar' : 2016 ≤ b'
    · exact absurd hlength.symm
        (length_history_ne hb' hb hfar' (not_le.mp hfar) hstart.symm)
    · have ht0 : g.t0 = g'.t0 := by
        rw [ts_eq, ts_eq, hwLo_eq, hwLo_eq] at hstart
        omega
      have hsame : b = b' := by
        rw [ts_eq] at hle hlt hle' hlt'
        omega
      subst hsame
      have hhistory := hvalues (by rw [ts_eq, ts_eq, ht0])
      refine .inl ⟨rfl, ht0, hin, hin', fun i hi => ?_⟩
      have hzero : arLo b = 0 := by
        rw [arLo_eq]
        omega
      have hget : (history g b)[i]? = (history g' b)[i]? := by rw [hhistory]
      rw [getElem?_history (by omega), getElem?_history (by omega), hzero,
        Nat.zero_add] at hget
      exact Option.some.inj hget

namespace Shifted

variable {g g' : Grid} {b b' : ℕ}

theorem at?_eq (h : Shifted g g' b b') {k : ℕ} (hk : k ≤ hwWindowSlots) :
    g.at? (b - k) = g'.at? (b' - k) := by
  unfold Grid.at?
  rw [h.same k hk]

end Shifted

theorem filled_eq_none {g : Grid} {n : ℕ} (h : ∀ i ≤ n, g.at? i = none) :
    g.filled n = none := by
  induction n with
  | zero => exact h 0 le_rfl
  | succ n ih =>
      unfold Grid.filled
      rw [h (n + 1) le_rfl, ih fun i hi => h i (Nat.le_succ_of_le hi)]
      rfl

/-- The first filled slot of a covered window is a value of its own history. -/
theorem filled_hwLo {g : Grid} {b : ℕ} (h : Covered g b)
    (hfar : hwWindowSlots ≤ b) :
    g.filled (hwLo b) = (g.at? (hwLo b)).or (g.at? (arLo b)) := by
  rw [hwWindowSlots_eq] at hfar
  have hnext : hwLo b = arLo b + 1 := by
    rw [hwLo_eq, arLo_eq]
    omega
  have hfirst : g.filled (hwLo b) =
      (g.at? (hwLo b)).or (g.filled (arLo b)) := by
    rw [hnext]
    rfl
  rw [hfirst, filled_or g (arLo b)]
  cases hhere : g.at? (hwLo b) with
  | some x => rfl
  | none =>
      cases hbefore : g.at? (arLo b) with
      | some x => rfl
      | none =>
          unfold Covered at h
          rw [hbefore, hhere] at h
          rcases h with hsome | hsome | hnone
          · cases hsome
          · cases hsome
          · by_cases hzero : arLo b = 0
            · rw [if_pos hzero]
              rfl
            · rw [if_neg hzero, filled_eq_none fun i hi => hnone i (by omega)]
              rfl

namespace Shifted

variable {g g' : Grid} {b b' : ℕ}

/-- Within the window both grids are filled alike. -/
theorem filled_eq (h : Shifted g g' b b') (hcovered : Covered g b)
    (hcovered' : Covered g' b') {n : ℕ} (hn : n < hwWindowSlots) :
    g.filled (hwLo b + n) = g'.filled (hwLo b' + n) := by
  have hfar := h.far
  have hfar' := h.far'
  rw [hwWindowSlots_eq] at hfar hfar' hn
  have hat : ∀ m ≤ 2016, g.at? (arLo b + m) = g'.at? (arLo b' + m) := by
    intro m hm
    have hback := h.at?_eq (k := 2016 - m) (by
      rw [hwWindowSlots_eq]
      omega)
    rw [show b - (2016 - m) = arLo b + m by rw [arLo_eq]; omega,
      show b' - (2016 - m) = arLo b' + m by rw [arLo_eq]; omega] at hback
    exact hback
  have hlo : hwLo b = arLo b + 1 := by
    rw [hwLo_eq, arLo_eq]
    omega
  have hlo' : hwLo b' = arLo b' + 1 := by
    rw [hwLo_eq, arLo_eq]
    omega
  induction n with
  | zero =>
      have hzero : g.at? (arLo b) = g'.at? (arLo b') := by
        have hback := hat 0 (Nat.zero_le _)
        rwa [Nat.add_zero, Nat.add_zero] at hback
      have hone : g.at? (hwLo b) = g'.at? (hwLo b') := by
        rw [hlo, hlo']
        exact hat 1 (by norm_num)
      rw [Nat.add_zero, Nat.add_zero, filled_hwLo hcovered h.far,
        filled_hwLo hcovered' h.far', hone, hzero]
  | succ n ih =>
      have hsucc : g.at? (hwLo b + n + 1) = g'.at? (hwLo b' + n + 1) := by
        rw [hlo, hlo', show arLo b + 1 + n + 1 = arLo b + (n + 2) by omega,
          show arLo b' + 1 + n + 1 = arLo b' + (n + 2) by omega]
        exact hat (n + 2) (by omega)
      rw [← Nat.add_assoc, ← Nat.add_assoc, Grid.filled, Grid.filled, hsucc,
        ih (by omega)]

/-- A profile of the last week reads the week before it. -/
theorem profileAt_eq (h : Shifted g g' b b') {k : ℕ} (hk : k < arWindowSlots) :
    profileAt g (b - k : ℕ) = profileAt g' (b' - k : ℕ) := by
  have hfar := h.far
  have hfar' := h.far'
  have hin := h.within
  have hin' := h.within'
  have hweek : arWindowSlots = 1008 := rfl
  have hday : (season : ℤ) = 144 := rfl
  rw [hwWindowSlots_eq] at hfar hfar'
  rw [hweek] at hk
  have hvalues : profileValues g (b - k : ℕ) =
      profileValues g' (b' - k : ℕ) := by
    refine List.filterMap_congr fun d hd => ?_
    have hdays : d < 8 := (List.mem_range'_1.mp hd).2
    have hback : ((b - k : ℕ) : ℤ) - season * d = (b - (k + 144 * d) : ℕ) := by
      rw [hday]
      omega
    have hback' : ((b' - k : ℕ) : ℤ) - season * d =
        (b' - (k + 144 * d) : ℕ) := by
      rw [hday]
      omega
    have hbelow : b - (k + 144 * d) < g.size := by omega
    have hbelow' : b' - (k + 144 * d) < g'.size := by omega
    rw [hback, hback']
    simp only [Int.natCast_nonneg, Int.ofNat_lt, hbelow, hbelow', and_self,
      if_true, Int.toNat_natCast]
    exact h.at?_eq (by rw [hwWindowSlots_eq]; omega)
  unfold profileAt
  rw [hvalues]

theorem residual_eq (h : Shifted g g' b b') (hcovered : Covered g b)
    (hcovered' : Covered g' b') {k : ℕ} (hk : k < arWindowSlots) :
    residual g (b - k) = residual g' (b' - k) := by
  have hfar := h.far
  have hfar' := h.far'
  have hweek : arWindowSlots = 1008 := rfl
  have hfilled : g.filled (b - k) = g'.filled (b' - k) := by
    have hsame := h.filled_eq hcovered hcovered' (n := 2015 - k)
      (by rw [hwWindowSlots_eq]; omega)
    rw [hwWindowSlots_eq] at hfar hfar'
    rw [hweek] at hk
    rwa [show hwLo b + (2015 - k) = b - k by rw [hwLo_eq]; omega,
      show hwLo b' + (2015 - k) = b' - k by rw [hwLo_eq]; omega] at hsame
  unfold residual
  rw [hfilled, h.profileAt_eq hk]

theorem hwWindow_eq (h : Shifted g g' b b') (hcovered : Covered g b)
    (hcovered' : Covered g' b') : hwWindow g b = hwWindow g' b' := by
  have hlength : ∀ {c}, hwWindowSlots ≤ c → c + 1 - hwLo c = hwWindowSlots := by
    intro c hc
    unfold hwLo
    omega
  unfold hwWindow
  rw [hlength h.far, hlength h.far', List.range'_eq_map_range,
    List.range'_eq_map_range, List.map_map, List.map_map]
  exact List.map_congr_left fun n hn =>
    h.filled_eq hcovered hcovered' (List.mem_range.mp hn)

/-- A row reads its target and the three residuals before it. -/
theorem arRows_eq (h : Shifted g g' b b') (hcovered : Covered g b)
    (hcovered' : Covered g' b') :
    arRows (residual g) b = arRows (residual g') b' := by
  have hweek : arWindowSlots = 1008 := rfl
  have horder : arOrder = 3 := rfl
  have hrange : ∀ {r : ℕ → Option ℚ} {c}, hwWindowSlots ≤ c → arRows r c =
      (List.range 1005).filterMap fun i => arRow r (c - 1004 + i) := by
    intro r c hc
    rw [hwWindowSlots_eq] at hc
    unfold arRows
    dsimp only
    rw [hweek, horder, show max 3 (c + 1 + 3 - 1008) = c - 1004 by omega,
      show c + 1 - (c - 1004) = 1005 by omega, List.range'_eq_map_range,
      List.filterMap_map]
    rfl
  have hfar := h.far
  have hfar' := h.far'
  rw [hrange hfar, hrange hfar']
  rw [hwWindowSlots_eq] at hfar hfar'
  refine List.filterMap_congr fun i hi => ?_
  have hlt := List.mem_range.mp hi
  have hread : ∀ j ≤ 3, residual g (b - 1004 + i - j) =
      residual g' (b' - 1004 + i - j) := by
    intro j hj
    rw [show b - 1004 + i - j = b - (1004 - i + j) by omega,
      show b' - 1004 + i - j = b' - (1004 - i + j) by omega]
    exact h.residual_eq hcovered hcovered' (by rw [hweek]; omega)
  unfold arRow
  rw [hread 1 (by norm_num), hread 2 (by norm_num), hread 3 (by norm_num),
    show residual g (b - 1004 + i) = residual g' (b' - 1004 + i) from
      hread 0 (Nat.zero_le 3)]

end Shifted

theorem isSome_filled {g : Grid} {i n : ℕ} (h : (g.at? i).isSome)
    (hi : i ≤ n) : (g.filled n).isSome := by
  induction n with
  | zero =>
      rw [Nat.le_zero.mp hi] at h
      exact h
  | succ n ih =>
      unfold Grid.filled
      rcases Nat.le_succ_iff.mp hi with hle | rfl
      · rw [Option.isSome_or, ih hle, Bool.or_true]
      · rw [Option.isSome_or, h, Bool.true_or]

theorem hwLo_le (b : ℕ) : hwLo b ≤ b := by
  have hpos : 0 < hwWindowSlots := by
    rw [hwWindowSlots_eq]
    norm_num
  unfold hwLo
  omega

/-- A window whose first slot is filled starts with it. -/
theorem head?_train {g : Grid} {b : ℕ} {x : ℚ}
    (h : g.filled (hwLo b) = some x) : (train g b).head? = some (some x) := by
  have hle := hwLo_le b
  unfold train hwWindow
  rw [show b + 1 - hwLo b = (b - hwLo b) + 1 by omega, List.range'_succ,
    List.map_cons, h]
  rfl

theorem boundaryIndex_of_train {g g' : Grid} {boundaryTs : ℤ} {b : ℕ}
    (h : boundaryIndex g boundaryTs = .ok b) (ht0 : g'.t0 = g.t0)
    (hsize : g'.size = g.size) (htrain : train g' b ≠ []) :
    boundaryIndex g' boundaryTs = .ok b := by
  have hindex : g'.index boundaryTs = g.index boundaryTs := by
    unfold Grid.index
    rw [ht0]
  unfold boundaryIndex at h ⊢
  dsimp only at h ⊢
  rw [hindex, hsize]
  split at h
  · cases h
  · rename_i hin
    split at h
    · cases h
    · cases h
      rw [if_neg hin, if_neg htrain]

theorem fingerprinted_congr {g g' : Grid} {b : ℕ} (ht0 : g'.t0 = g.t0)
    (hsame : ∀ i, arLo b ≤ i → g'.y i = g.y i) (boundaryTs : ℤ) :
    fingerprinted g' boundaryTs b = fingerprinted g boundaryTs b := by
  have hts : ∀ i, g'.ts i = g.ts i := by
    intro i
    unfold Grid.ts
    rw [ht0]
  have hhistory : history g' b = history g b := by
    unfold history
    exact List.map_congr_left fun i hi => hsame i (List.mem_range'_1.mp hi).1
  rw [fingerprinted_eq_history, fingerprinted_eq_history, hhistory, hts, hts]

/-- With its first two slots empty the window starts with what was observed
before its history. -/
theorem filled_hwLo_of_none {g : Grid} {b : ℕ} (hpos : 0 < arLo b)
    (hfirst : g.at? (arLo b) = none) (hsecond : g.at? (hwLo b) = none) :
    g.filled (hwLo b) = g.filled (arLo b - 1) := by
  have hnext : hwLo b = arLo b + 1 := by
    rw [arLo_eq] at hpos
    rw [hwLo_eq, arLo_eq]
    omega
  rw [filled_or g (hwLo b), hsecond, Option.none_or, hnext,
    if_neg (Nat.succ_ne_zero _), Nat.add_sub_cancel, filled_or g (arLo b),
    hfirst, Option.none_or, if_neg hpos.ne']

theorem exists_other_value (x : ℚ) :
    ∃ v : Double, ∃ x', v.value = some x' ∧ x' ≠ x := by
  by_cases hzero : x = 0
  · exact ⟨0x3FF0000000000000, 1, by decide +kernel, by
      rw [hzero]
      norm_num⟩
  · exact ⟨0, 0, by decide +kernel, Ne.symm hzero⟩

/-- When something is carried in, another grid has the same history and trains
on other values. -/
theorem exists_other_train {g : Grid} {boundaryTs : ℤ} {b : ℕ}
    (hb : boundaryIndex g boundaryTs = .ok b) (h : ¬Covered g b) :
    ∃ g' : Grid, boundaryIndex g' boundaryTs = .ok b ∧
      fingerprinted g' boundaryTs b = fingerprinted g boundaryTs b ∧
      train g' b ≠ train g b := by
  unfold Covered at h
  rw [not_or, not_or, Option.not_isSome_iff_eq_none,
    Option.not_isSome_iff_eq_none] at h
  obtain ⟨hfirst, hsecond, hearlier⟩ := h
  have hbefore : ∃ i < arLo b, (g.at? i).isSome := by
    by_contra hnone
    exact hearlier fun i hi => Option.not_isSome_iff_eq_none.mp
      fun hsome => hnone ⟨i, hi, hsome⟩
  obtain ⟨i, hi, hsome⟩ := hbefore
  have hpos : 0 < arLo b := Nat.zero_lt_of_lt hi
  obtain ⟨x, hx⟩ := Option.isSome_iff_exists.mp
    (isSome_filled hsome (Nat.le_sub_one_of_lt hi))
  obtain ⟨v, x', hv, hne⟩ := exists_other_value x
  -- the other grid differs before its history only
  let g' : Grid := { g with y := fun i => if i < arLo b then v else g.y i }
  have ht0 : g'.t0 = g.t0 := rfl
  have hsize : g'.size = g.size := rfl
  have hsame : ∀ i, arLo b ≤ i → g'.y i = g.y i := by
    intro i hi
    simp only [g', Nat.not_lt.mpr hi, if_false]
  have hat : ∀ i, arLo b ≤ i → g'.at? i = g.at? i := by
    intro i hi
    unfold Grid.at?
    rw [hsame i hi]
  have hlast : g'.at? (arLo b - 1) = some x' := by
    have hbefore : arLo b - 1 < arLo b := Nat.sub_one_lt hpos.ne'
    unfold Grid.at?
    simp only [g', hbefore, if_true, hv]
  have hx' : g'.filled (arLo b - 1) = some x' := by
    rw [filled_or, hlast, Option.some_or]
  have hhead := head?_train
    ((filled_hwLo_of_none hpos hfirst hsecond).trans hx)
  have hhead' := head?_train ((filled_hwLo_of_none hpos
    ((hat _ le_rfl).trans hfirst)
    ((hat _ (arLo_le_hwLo b)).trans hsecond)).trans hx')
  clear_value g'
  have hprint := fingerprinted_congr ht0 hsame boundaryTs
  refine ⟨g', boundaryIndex_of_train hb ht0 hsize ?_, hprint, ?_⟩
  · intro hempty
    rw [hempty] at hhead'
    cases hhead'
  · intro htrain
    rw [htrain, hhead] at hhead'
    exact hne (Option.some.inj (Option.some.inj hhead')).symm

section Transparency

variable {Digest : Type} (fits : Fits) (sha256 : List UInt8 → Digest)

/-- The fit is a function of its window, its rows and its history. -/
theorem fitAt_congr {g g' : Grid} {boundaryTs : ℤ} {b b' : ℕ}
    (hwindow : hwWindow g b = hwWindow g' b')
    (hrows : arRows (residual g) b = arRows (residual g') b')
    (hprint : fingerprinted g boundaryTs b = fingerprinted g' boundaryTs b')
    (hstart : g.ts (hwLo b) = g'.ts (hwLo b')) :
    fitAt fits sha256 g boundaryTs b = fitAt fits sha256 g' boundaryTs b' := by
  have htrain : train g b = train g' b' := by
    unfold train
    rw [hwindow]
  have har : fitAr fits (residual g) b = fitAr fits (residual g') b' := by
    unfold fitAr
    rw [hrows]
  have hts : ∀ k, g.ts (hwLo b + k) = g'.ts (hwLo b' + k) := by
    intro k
    rw [ts_eq, ts_eq] at hstart ⊢
    push_cast
    linarith
  unfold fitAt
  rw [hwindow, htrain, har, hprint, hts]

/-- Covered grids with one history at a boundary have one fit. -/
theorem fitAt_eq_of_fingerprinted_eq {g g' : Grid} {boundaryTs : ℤ} {b b' : ℕ}
    (hb : boundaryIndex g boundaryTs = .ok b)
    (hb' : boundaryIndex g' boundaryTs = .ok b')
    (hcovered : Covered g b) (hcovered' : Covered g' b')
    (hprint : fingerprinted g boundaryTs b = fingerprinted g' boundaryTs b') :
    fitAt fits sha256 g boundaryTs b = fitAt fits sha256 g' boundaryTs b' := by
  rcases aligned_of_fingerprinted_eq hb hb' hprint with ⟨rfl, hagree⟩ | hshifted
  · exact hagree.fitAt_eq fits sha256 boundaryTs
  · exact fitAt_congr fits sha256 (hshifted.hwWindow_eq hcovered hcovered')
      (hshifted.arRows_eq hcovered hcovered') hprint hshifted.starts

/-- An item of the cache is the fit of a covered call with its key. -/
def Fitted (item : GenerationKey Digest × Generation Digest) : Prop :=
  ∃ (call : FitCall) (b : ℕ),
    boundaryIndex call.grid call.boundaryTs = .ok b ∧
    SeasonalEnsemble.Covered call.grid b ∧
    item.1 = (call.cacheKey, call.boundaryTs,
      sha256 (fingerprinted call.grid call.boundaryTs b)) ∧
    fitAt fits sha256 call.grid call.boundaryTs b = .ok item.2

/-- What every item of the cache is. -/
def CacheFitted (cache : GenerationCache Digest) : Prop :=
  ∀ item ∈ cache, Fitted fits sha256 item

variable [DecidableEq Digest] {sha256}

/-- One call: the cache stays fitted and the generation is that of its grid. -/
theorem cachedGenerationFor_spec (hsha : Function.Injective sha256)
    {cache : GenerationCache Digest} {call : FitCall}
    (hcache : CacheFitted fits sha256 cache) (hcall : call.Covered) :
    CacheFitted fits sha256 (cachedGenerationFor fits sha256 cache call).1 ∧
      (cachedGenerationFor fits sha256 cache call).2 =
        generationFor fits sha256 call.grid call.boundaryTs := by
  unfold cachedGenerationFor generationFor
  cases hb : boundaryIndex call.grid call.boundaryTs with
  | error e => exact ⟨hcache, rfl⟩
  | ok b =>
      have hcovered := hcall b hb
      dsimp only
      split
      · rename_i gen hget
        obtain ⟨call', b', hb', hcovered', hkey, hfit⟩ :=
          hcache _ (OrderedDict.mem_of_get? hget)
        simp only [Prod.mk.injEq] at hkey
        obtain ⟨-, hts, hdigest⟩ := hkey
        rw [← hts] at hb' hfit hdigest
        have hsame := fitAt_eq_of_fingerprinted_eq fits sha256 hb hb' hcovered
          hcovered' (hsha hdigest)
        refine ⟨?_, (hsame.trans hfit).symm⟩
        intro item hitem
        exact hcache item (OrderedDict.mem_of_mem_moveToEnd hitem)
      · split
        · rename_i e hfit
          exact ⟨hcache, hfit.symm⟩
        · rename_i gen hfit
          refine ⟨?_, hfit.symm⟩
          intro item hitem
          rcases OrderedDict.mem_of_mem_set
            (OrderedDict.mem_of_mem_evict hitem) with hold | rfl
          · exact hcache item hold
          · exact ⟨call, b, hb, hcovered, rfl, hfit⟩

/-- A call is served the fit of the one before it when their keys and their
histories are the same. -/
theorem reports_of_fingerprinted_eq {call call' : FitCall} {b b' : ℕ}
    {gen : Generation Digest}
    (hb : boundaryIndex call.grid call.boundaryTs = .ok b)
    (hb' : boundaryIndex call'.grid call'.boundaryTs = .ok b')
    (hkey : call.cacheKey = call'.cacheKey)
    (hts : call.boundaryTs = call'.boundaryTs)
    (hprint : fingerprinted call.grid call.boundaryTs b =
      fingerprinted call'.grid call'.boundaryTs b')
    (hfit : fitAt fits sha256 call.grid call.boundaryTs b = .ok gen) :
    (runTrace (cachedGenerationFor fits sha256) [] [call, call']).map
      Entry.report = [.ok gen, .ok gen] := by
  have hfirst : cachedGenerationFor fits sha256 [] call =
      ([((call.cacheKey, call.boundaryTs,
        sha256 (fingerprinted call.grid call.boundaryTs b)), gen)],
        .ok gen) := by
    unfold cachedGenerationFor
    rw [hb]
    dsimp only
    rw [hfit]
    rfl
  have hsecond : ∀ cache : GenerationCache Digest,
      cache.get? (call.cacheKey, call.boundaryTs,
        sha256 (fingerprinted call.grid call.boundaryTs b)) = some gen →
      (cachedGenerationFor fits sha256 cache call').2 = .ok gen := by
    intro cache hget
    unfold cachedGenerationFor
    rw [hb']
    dsimp only
    rw [← hprint, ← hkey, ← hts, hget]
  simp only [runTrace, entryAt, List.map_cons, List.map_nil, hfirst]
  rw [hsecond _ (by simp [OrderedDict.get?])]

/-- The cache is transparent as long as every call is covered, and covered
grids with one digest at a boundary have one fit. -/
theorem generations_transparent (hsha : Function.Injective sha256) :
    (∀ (calls : List FitCall), (∀ call ∈ calls, call.Covered) →
      ∀ e ∈ runTrace (cachedGenerationFor fits sha256) [] calls,
        e.report =
          generationFor fits sha256 e.event.grid e.event.boundaryTs) ∧
      ∀ {g g' : Grid} {boundaryTs : ℤ} {b b' : ℕ},
        boundaryIndex g boundaryTs = .ok b →
        boundaryIndex g' boundaryTs = .ok b' →
        Covered g b → Covered g' b' →
        sha256 (fingerprinted g boundaryTs b) =
          sha256 (fingerprinted g' boundaryTs b') →
        fitAt fits sha256 g boundaryTs b =
          fitAt fits sha256 g' boundaryTs b' := by
  refine ⟨fun calls hcalls e he => ?_, fun hb hb' hcovered hcovered' hdigest =>
    fitAt_eq_of_fingerprinted_eq fits sha256 hb hb' hcovered hcovered'
      (hsha hdigest)⟩
  obtain ⟨past, rest, hsplit⟩ := List.append_of_mem he
  have hevents := runTrace_map_event (cachedGenerationFor fits sha256) [] calls
  rw [hsplit, List.map_append, List.map_cons] at hevents
  have hcovered : ∀ x ∈ past ++ e :: rest, x.event.Covered := by
    intro x hx
    refine hcalls x.event (hevents ▸ ?_)
    rw [← List.map_cons, ← List.map_append]
    exact List.mem_map_of_mem hx
  obtain ⟨hcache, hentry⟩ := runTrace_history
    (fun past cache => (∀ x ∈ past, x.event.Covered) →
      CacheFitted fits sha256 cache)
    (fun past cache call hpast hall =>
      (cachedGenerationFor_spec fits hsha
        (hpast fun x hx => hall x (List.mem_append_left _ hx))
        (hall _ (List.mem_append_right _ List.mem_cons_self))).1)
    (fun _ _ hitem => absurd hitem List.not_mem_nil) hsplit
  rw [hentry]
  exact (cachedGenerationFor_spec fits hsha
    (hcache fun x hx => hcovered x (List.mem_append_left _ hx))
    (hcovered e (List.mem_append_right _ List.mem_cons_self))).2

end Transparency

namespace GenerationCacheWitness

open CausalityWitness

variable (before first : Double)

def call : FitCall where
  grid := grid before first
  boundaryTs := 1231200
  cacheKey := "requests"

theorem arLo_grid : arLo 2017 = 1 := by norm_num [arLo_eq]

theorem fingerprinted_grid (before before' first : Double) :
    fingerprinted (grid before first) 1231200 2017 =
      fingerprinted (grid before' first) 1231200 2017 := by
  have hsame : ∀ i, arLo 2017 ≤ i →
      (grid before first).y i = (grid before' first).y i := by
    intro i hi
    rw [arLo_grid] at hi
    simp only [grid, Nat.ne_of_gt hi, if_false]
  have ht0 : (grid before first).t0 = (grid before' first).t0 := rfl
  exact fingerprinted_congr ht0 hsame 1231200

end GenerationCacheWitness

open CausalityWitness GenerationCacheWitness in
/-- Two calls whose first slot of the history was observed: the second finds
the generation of the first. -/
theorem second_call_found :
    let calls := [call 0x4014000000000000 0, call 0x401C000000000000 0]
    ∀ e ∈ runTrace (cachedGenerationFor fits id) [] calls,
      e.report = generationFor fits id e.event.grid e.event.boundaryTs := by
  refine (generations_transparent fits Function.injective_id).1 _ ?_
  have hcall : ∀ before, (call before 0).Covered := by
    intro before b hb
    have hfilled : (grid before 0).filled 2 = some 0 := filled_first before
    have hb' : boundaryIndex (call before 0).grid (call before 0).boundaryTs =
        .ok 2017 := boundaryIndex_grid hfilled
    obtain rfl := Except.ok.inj (hb'.symm.trans hb)
    have hfirst : ((grid before 0).at? (arLo 2017)).isSome := by
      rw [arLo_grid, at?_first]
      rfl
    exact .inl hfirst
  simp only [List.mem_cons, List.not_mem_nil, or_false, forall_eq_or_imp,
    forall_eq]
  exact ⟨hcall _, hcall _⟩

open CausalityWitness GenerationCacheWitness in
/-- Two histories that differ only in what is carried into them: the second
call is served the fit of the first one's grid. -/
theorem carried_value_fit_served :
    ¬∀ (fits : Fits) (sha256 : List UInt8 → List UInt8),
      Function.Injective sha256 → ∀ calls : List FitCall,
        ∀ e ∈ runTrace (cachedGenerationFor fits sha256) [] calls,
          e.report =
            generationFor fits sha256 e.event.grid e.event.boundaryTs := by
  intro h
  let five : FitCall := call 0x4014000000000000 0x7FF8000000000000
  let seven : FitCall := call 0x401C000000000000 0x7FF8000000000000
  have hfive : five.grid.filled 2 = some 5 := by decide +kernel
  have hseven : seven.grid.filled 2 = some 7 := by decide +kernel
  obtain ⟨gen, hfit, hlevel, -⟩ := fitAt_grid hfive
  obtain ⟨gen', hfit', hlevel', -⟩ := fitAt_grid hseven
  have hb : boundaryIndex five.grid five.boundaryTs = .ok 2017 :=
    boundaryIndex_grid hfive
  have hb' : boundaryIndex seven.grid seven.boundaryTs = .ok 2017 :=
    boundaryIndex_grid hseven
  have hreports := reports_of_fingerprinted_eq fits hb hb' rfl rfl
    (fingerprinted_grid _ _ _) hfit
  have hall := runTrace_map_report
    (f := fun call : FitCall => generationFor fits id call.grid call.boundaryTs)
    (h fits id Function.injective_id [five, seven])
  rw [hreports] at hall
  have hserved : .ok gen = generationFor fits id seven.grid 1231200 :=
    (List.cons.inj (List.cons.inj hall).2).1
  have hfresh : generationFor fits id seven.grid 1231200 = .ok gen' := by
    unfold generationFor
    rw [show boundaryIndex seven.grid 1231200 = .ok 2017 from hb']
    exact hfit'
  have hgen : gen = gen' := Except.ok.inj (hserved.trans hfresh)
  rw [← hgen, hlevel] at hlevel'
  exact absurd hlevel' (by norm_num)

end PredictiveAutoscaler.Models.SeasonalEnsemble
