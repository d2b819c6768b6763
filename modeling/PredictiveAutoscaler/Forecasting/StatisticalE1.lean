/-
On a complete ten-minute series the product kernel is the ensemble: at a
six-hour boundary after two weeks both fit the same values from the same
states and rows, and forecast the same components.
-/
import PredictiveAutoscaler.Forecasting.Statistical
import PredictiveAutoscaler.ListTraversal

namespace PredictiveAutoscaler.Forecasting.Statistical

open ListTraversal Models MovingAverage
open SeasonalEnsemble (Grid HWFit)

/-- A slot that is no NaN anywhere. -/
def Series.Complete (series : Series) : Prop :=
  ∀ v ∈ series.values, v.value.isSome

/-- A series and the ensemble's grid of the same observations. -/
structure Gridded (series : Series) (g : Grid) : Prop where
  interval : series.interval = 600
  start : g.t0 = series.start
  size : g.size = series.values.length
  same : ∀ i < g.size, g.y i = series.values.getD i 0
  complete : series.Complete

/-- The settings at the ensemble's cadence. -/
def tenMinutes : KernelSettings where
  intervalSeconds := 600

theorem tenMinutes_m : tenMinutes.m = 144 := rfl

/-- The slots from one to another, as times. -/
theorem timeRange_eq (start : ℤ) {i j : ℕ} (hij : i ≤ j + 1) :
    timeRange (start + i * 600) (start + j * 600 + 1) 600 =
      (List.range' i (j + 1 - i)).map fun k : ℕ => start + k * 600 := by
  have hcount : ((start + j * 600 + 1 - (start + i * 600) + 600 - 1) /
      600).toNat = j + 1 - i := by omega
  unfold timeRange
  rw [hcount, List.range'_eq_map_range, List.map_map]
  refine List.map_congr_left fun k _ => ?_
  simp only [Function.comp_apply]
  push_cast
  ring

namespace Gridded

variable {series : Series} {g : Grid}

theorem isSome_at? (h : Gridded series g) {i : ℕ} (hi : i < g.size) :
    (g.at? i).isSome := by
  have hlen := h.size ▸ hi
  unfold Grid.at?
  rw [h.same i hi, List.getD_eq_getElem?_getD, List.getElem?_eq_getElem hlen]
  exact h.complete _ (List.getElem_mem hlen)

theorem filled_eq (h : Gridded series g) {i : ℕ} (hi : i < g.size) :
    g.filled i = g.at? i := by
  obtain ⟨x, hx⟩ := Option.isSome_iff_exists.mp (h.isSome_at? hi)
  cases i with
  | zero => rfl
  | succ i => rw [Grid.filled, hx, Option.some_or]

/-- A slot of the grid is a time of the series. -/
theorem at?_eq (h : Gridded series g) (i : ℤ) :
    series.at? (series.start + i * 600) =
      if 0 ≤ i ∧ i < g.size then g.at? i.toNat else none := by
  have hplace : (series.start + i * 600 - series.start) / 600 = i := by omega
  have hon : (series.start + i * 600 - series.start) % 600 = 0 := by omega
  unfold Series.at?
  dsimp only
  rw [h.interval, hplace, h.size]
  by_cases hin : 0 ≤ i ∧ i < series.values.length
  · have hlt : i.toNat < g.size := by
      rw [h.size]
      omega
    rw [if_pos ⟨hon, hin⟩, if_pos hin]
    unfold Grid.at?
    rw [h.same _ hlt]
  · rw [if_neg hin, if_neg fun hand => hin hand.2]

theorem at?_nat (h : Gridded series g) {i : ℕ} (hi : i < g.size) :
    series.at? (series.start + i * 600) = g.at? i := by
  rw [h.at?_eq, if_pos ⟨Int.natCast_nonneg i, by exact_mod_cast hi⟩,
    Int.toNat_natCast]

theorem profileValues_eq (h : Gridded series g) (i : ℤ) :
    profileValues series tenMinutes (series.start + i * 600) =
      SeasonalEnsemble.profileValues g i := by
  refine List.filterMap_congr fun d _ => ?_
  have hday : series.start + i * 600 - (d : ℤ) * tenMinutes.seasonSeconds =
      series.start + (i - SeasonalEnsemble.season * d) * 600 := by
    rw [show (tenMinutes.seasonSeconds : ℤ) = 86400 from rfl,
      show (SeasonalEnsemble.season : ℤ) = 144 from rfl]
    ring
  rw [hday, h.at?_eq]

/-- After a week every day of a profile was observed. -/
theorem length_profileValues (h : Gridded series g) {i : ℕ} (hweek : 1008 ≤ i)
    (hi : i < g.size + 144) :
    (SeasonalEnsemble.profileValues g i).length = 7 := by
  have hall : ∀ d ∈ List.range' 1 SeasonalEnsemble.profileDays,
      ((fun d : ℕ =>
        let k : ℤ := i - SeasonalEnsemble.season * d
        if 0 ≤ k ∧ k < g.size then g.at? k.toNat else none) d).isSome := by
    intro d hd
    have hdays : 1 ≤ d ∧ d < 8 := List.mem_range'_1.mp hd
    have hback : (i : ℤ) - SeasonalEnsemble.season * d =
        (i - 144 * d : ℕ) := by
      rw [show (SeasonalEnsemble.season : ℤ) = 144 from rfl]
      omega
    have hin : i - 144 * d < g.size := by omega
    dsimp only
    rw [hback, if_pos ⟨Int.natCast_nonneg _, by exact_mod_cast hin⟩,
      Int.toNat_natCast]
    exact h.isSome_at? hin
  unfold SeasonalEnsemble.profileValues
  rw [List.length_filterMap_eq_countP, List.countP_eq_length.mpr hall]
  rfl

theorem profile_eq (h : Gridded series g) {i : ℕ} (hweek : 1008 ≤ i)
    (hi : i < g.size + 144) :
    profile series tenMinutes (series.start + i * 600) =
        SeasonalEnsemble.profileAt g i ∧
      (SeasonalEnsemble.profileAt g i).isSome := by
  have hlength := h.length_profileValues hweek hi
  unfold profile SeasonalEnsemble.profileAt
  dsimp only
  rw [h.profileValues_eq]
  cases hvalues : SeasonalEnsemble.profileValues g i with
  | nil =>
      rw [hvalues] at hlength
      cases hlength
  | cons v rest =>
      rw [hvalues] at hlength
      rw [if_pos ⟨by rw [hlength]; decide, List.cons_ne_nil v rest⟩]
      exact ⟨rfl, rfl⟩

theorem residual_eq (h : Gridded series g) {i : ℕ} (hweek : 1008 ≤ i)
    (hi : i < g.size) :
    residual series tenMinutes (series.start + i * 600) =
        SeasonalEnsemble.residual g i ∧
      (SeasonalEnsemble.residual g i).isSome := by
  obtain ⟨hprofile, hsome⟩ := h.profile_eq hweek (Nat.lt_add_right 144 hi)
  obtain ⟨p, hp⟩ := Option.isSome_iff_exists.mp hsome
  obtain ⟨x, hx⟩ := Option.isSome_iff_exists.mp (h.isSome_at? hi)
  unfold residual SeasonalEnsemble.residual
  rw [hprofile, hp, h.at?_nat hi, h.filled_eq hi, hx]
  exact ⟨rfl, rfl⟩

/-- A row of the kernel is the ensemble's, with its time. -/
theorem arRow_eq (h : Gridded series g) {i : ℕ} (hweek : 1011 ≤ i)
    (hi : i < g.size) :
    ∃ row, SeasonalEnsemble.arRow (SeasonalEnsemble.residual g) i = some row ∧
      arRow series tenMinutes (series.start + i * 600) =
        some (row.1, row.2, series.start + i * 600) := by
  have hread : ∀ k : ℕ, k ≤ 3 → residual series tenMinutes
      (series.start + i * 600 - (k : ℤ) * tenMinutes.intervalSeconds) =
        SeasonalEnsemble.residual g (i - k) ∧
      (SeasonalEnsemble.residual g (i - k)).isSome := by
    intro k hk
    have htime : series.start + i * 600 - (k : ℤ) * tenMinutes.intervalSeconds =
        series.start + (i - k : ℕ) * 600 := by
      rw [show (tenMinutes.intervalSeconds : ℤ) = 600 from rfl]
      omega
    rw [htime]
    exact h.residual_eq (by omega) (by omega)
  obtain ⟨htarget, hsome⟩ := h.residual_eq (by omega) hi
  obtain ⟨r, hr⟩ := Option.isSome_iff_exists.mp hsome
  obtain ⟨hone, hsome1⟩ := hread 1 (by omega)
  obtain ⟨htwo, hsome2⟩ := hread 2 (by omega)
  obtain ⟨hthree, hsome3⟩ := hread 3 (by omega)
  obtain ⟨x, hx⟩ := Option.isSome_iff_exists.mp hsome1
  obtain ⟨y, hy⟩ := Option.isSome_iff_exists.mp hsome2
  obtain ⟨z, hz⟩ := Option.isSome_iff_exists.mp hsome3
  have hlags : ((List.range' 1 tenMinutes.arOrder).mapM fun k : ℕ =>
      residual series tenMinutes (series.start + i * 600 -
        (k : ℤ) * tenMinutes.intervalSeconds)) = some [x, y, z] := by
    rw [show List.range' 1 tenMinutes.arOrder = [1, 2, 3] from rfl]
    simp only [List.mapM_cons, List.mapM_nil, hone, htwo, hthree, hx, hy, hz]
    rfl
  refine ⟨([1, x, y, z], r), ?_, ?_⟩
  · unfold SeasonalEnsemble.arRow
    rw [hr, hx, hy, hz]
  · unfold arRow
    rw [htarget, hr, hlags]

theorem arRows_eq (h : Gridded series g) {b : ℕ} (hfar : 2015 ≤ b)
    (hb : b < g.size) :
    (arRows series tenMinutes (series.start + b * 600)).map
        (fun row => (row.1, row.2.1)) =
      SeasonalEnsemble.arRows (SeasonalEnsemble.residual g) b ∧
    (arRows series tenMinutes (series.start + b * 600)).map
        (fun row => row.2.2) =
      (List.range' (b - 1004) 1005).map fun i : ℕ => series.start + i * 600 := by
  have htimes : arRows series tenMinutes (series.start + b * 600) =
      (List.range' (b - 1004) 1005).filterMap fun i : ℕ =>
        arRow series tenMinutes (series.start + i * 600) := by
    have hfirst : max (series.start + (tenMinutes.arOrder : ℤ) * 600)
        (series.start + b * 600 - (tenMinutes.arWindowDays : ℤ) * day + 600 +
          (tenMinutes.arOrder : ℤ) * 600) =
          series.start + (b - 1004 : ℕ) * 600 := by
      rw [show (tenMinutes.arOrder : ℤ) = 3 from rfl,
        show (tenMinutes.arWindowDays : ℤ) = 7 from rfl,
        show (day : ℤ) = 86400 from rfl]
      omega
    unfold arRows
    dsimp only
    rw [show (tenMinutes.intervalSeconds : ℤ) = 600 from rfl, hfirst,
      timeRange_eq series.start (by omega), List.filterMap_map,
      show b + 1 - (b - 1004) = 1005 by omega]
    rfl
  have hrows : SeasonalEnsemble.arRows (SeasonalEnsemble.residual g) b =
      (List.range' (b - 1004) 1005).filterMap
        (SeasonalEnsemble.arRow (SeasonalEnsemble.residual g)) := by
    have hfirst : max SeasonalEnsemble.arOrder
        (b + 1 + SeasonalEnsemble.arOrder - SeasonalEnsemble.arWindowSlots) =
          b - 1004 := by
      rw [show SeasonalEnsemble.arOrder = 3 from rfl,
        show SeasonalEnsemble.arWindowSlots = 1008 from rfl]
      omega
    unfold SeasonalEnsemble.arRows
    dsimp only
    rw [hfirst, show b + 1 - (b - 1004) = 1005 by omega]
  have hin : ∀ i ∈ List.range' (b - 1004) 1005, 1011 ≤ i ∧ i < g.size := by
    intro i hi
    have hrange := List.mem_range'_1.mp hi
    omega
  rw [htimes, List.map_filterMap, List.map_filterMap]
  refine ⟨?_, ?_⟩
  · rw [hrows]
    refine List.filterMap_congr fun i hi => ?_
    obtain ⟨row, hrow, hkernel⟩ := h.arRow_eq (hin i hi).1 (hin i hi).2
    rw [hkernel, hrow, Option.map_some]
  · rw [← List.filterMap_eq_map]
    refine List.filterMap_congr fun i hi => ?_
    obtain ⟨row, -, hkernel⟩ := h.arRow_eq (hin i hi).1 (hin i hi).2
    rw [hkernel, Option.map_some]
    rfl

theorem segmentFrom_eq (h : Gridded series g) {b maxSlots : ℕ}
    (hb : b < g.size) {j : ℕ} (hj : j ≤ b) :
    segmentFrom series.values b maxSlots j = min j (b + 1 - maxSlots) := by
  induction j with
  | zero => rw [segmentFrom, Nat.zero_min]
  | succ j ih =>
      have hin : j < g.size := by omega
      have hsome : (series.values.getD j 0).value.isSome := by
        rw [← h.same j hin]
        exact h.isSome_at? hin
      unfold segmentFrom
      by_cases hnear : b - j < maxSlots
      · rw [if_pos ⟨hnear, hsome⟩, ih (by omega)]
        omega
      · rw [if_neg fun hand => hnear hand.1]
        omega

theorem index_eq (h : Gridded series g) (i : ℤ) :
    series.index (series.start + i * 600) = .ok i := by
  unfold Series.index
  rw [h.interval, if_neg (by omega)]
  congr 1
  omega

theorem completeSegmentStart_eq (h : Gridded series g) {b : ℕ}
    (hfar : 2015 ≤ b) (hb : b < g.size) :
    completeSegmentStart series (series.start + b * 600)
        (tenMinutes.hwMaxDays * tenMinutes.m) =
      .ok (series.start + (b - 2015 : ℕ) * 600) := by
  have hslots : tenMinutes.hwMaxDays * tenMinutes.m = 2016 := rfl
  have hsome : (series.values.getD b 0).value.isSome := by
    rw [← h.same b hb]
    exact h.isSome_at? hb
  unfold completeSegmentStart
  rw [h.index_eq, hslots]
  change (if (series.values.getD b 0).value.isNone then _ else _) = _
  rw [Option.isNone_eq_false_iff.mpr hsome]
  simp only [Bool.false_eq_true, if_false, Int.toNat_natCast,
    h.segmentFrom_eq hb le_rfl, h.interval]
  rw [show min b (b + 1 - 2016) = b - 2015 by omega]

/-- A stretch of the series is the filled grid. -/
theorem between_eq (h : Gridded series g) {lo b : ℕ} (hlo : lo ≤ b)
    (hb : b < g.size) :
    between series (series.start + lo * 600) (series.start + b * 600) =
      .ok ((List.range' lo (b + 1 - lo)).map g.filled) := by
  have hlen := h.size ▸ hb
  have hslice : slice series.values lo (b + 1) =
      (series.values.take (b + 1)).drop lo := by
    unfold slice
    dsimp only
    rw [if_neg (by omega), if_neg (by omega), Int.toNat_natCast]
    rfl
  unfold between
  rw [h.index_eq, h.index_eq]
  change Except.ok _ = _
  rw [hslice]
  congr 1
  refine List.ext_getElem (by simp; omega) fun i hi hi' => ?_
  have hin : lo + i < g.size := by
    simp at hi'
    omega
  rw [List.getElem_map, List.getElem_drop, List.getElem_take, List.getElem_map,
    List.getElem_range', Nat.one_mul, h.filled_eq hin]
  unfold Grid.at?
  rw [h.same _ hin, List.getD_eq_getElem?_getD,
    List.getElem?_eq_getElem (by rw [← h.size]; exact hin)]
  rfl

end Gridded

theorem head?_centredMean {m : ℕ} (hm : 2 ≤ m) {x : List ℚ} (hx : x ≠ []) :
    (centredMean m x).head? = some none := by
  cases x with
  | nil => exact absurd rfl hx
  | cons v rest =>
      have houtside : ¬(m / 2 ≤ 0 ∧ 0 - m / 2 + m ≤ (v :: rest).length) := by
        omega
      unfold centredMean
      rw [List.length_cons, List.range_succ_eq_map, List.map_cons,
        List.head?_cons, ← List.length_cons (a := v), if_neg houtside]

/-- The trend from rolling windows is the trend from cumulative sums. -/
theorem rollingTrend_eq {m : ℕ} (hm : 0 < m) {x : List ℚ} (hx : x ≠ []) :
    SeasonalEnsemble.rollingTrend m x = cumulativeTrend m x := by
  unfold SeasonalEnsemble.rollingTrend cumulativeTrend
  rw [rollingMean_eq_centredMean hm]
  dsimp only
  by_cases heven : m % 2 = 0
  · rw [if_pos heven, if_pos heven,
      rollingMean_two_shiftBack (head?_centredMean (by omega) hx)]
  · rw [if_neg heven, if_neg heven]

/-- From two seasons on both kernels start from the same states. -/
theorem heuristicInit_eq (S : KernelSolvers) {y : List ℚ} {m : ℕ} (hm : 0 < m)
    (hy : 2 * m ≤ y.length) :
    heuristicInit S y m =
      (SeasonalEnsemble.heuristicInit S.toSolvers y m).mapError
        KernelError.raised := by
  have hcycles : 0 < initCycles y.length m := by
    unfold initCycles
    refine lt_max_of_lt_left (lt_min (by norm_num) ?_)
    exact Nat.div_pos (by omega) hm
  have hx : y.take (m * initCycles y.length m) ≠ [] := by
    have hpos := Nat.mul_pos hm hcycles
    rw [← List.length_pos_iff, List.length_take]
    omega
  unfold heuristicInit SeasonalEnsemble.heuristicInit
  rw [if_neg (by omega), if_neg (by omega)]
  dsimp only
  rw [rollingTrend_eq hm hx]
  split <;> simp only [*] <;> rfl

/-- The ensemble's fit and the kernel's, of the same values. -/
structure SameFit (fit : HWFit) (hw : HWState) : Prop where
  alpha : fit.alpha = hw.alpha
  beta : fit.beta = hw.beta
  gamma : fit.gamma = hw.gamma
  level : fit.level = hw.level
  trend : fit.trend = hw.trend
  season : fit.season = hw.season
  sse : fit.sse = hw.sse
  nTrain : fit.nTrain = hw.nTrain

theorem exists_map_some {α : Type} {l : List (Option α)}
    (h : ∀ o ∈ l, o.isSome) : ∃ xs : List α, xs.map some = l := by
  induction l with
  | nil => exact ⟨[], rfl⟩
  | cons o rest ih =>
      obtain ⟨x, rfl⟩ :=
        Option.isSome_iff_exists.mp (h o List.mem_cons_self)
      obtain ⟨xs, rfl⟩ := ih fun o ho => h o (List.mem_cons_of_mem _ ho)
      exact ⟨x :: xs, rfl⟩

/-- Where the kernel's fit succeeds the ensemble's does, from the same start
states and with the same result. -/
theorem fitHw_eq_ok {S : KernelSolvers} {obs : List ℚ} {segmentStart : ℤ}
    {hw : HWState} (hy : 288 ≤ obs.length)
    (h : fitHw S (obs.map some) 144 segmentStart 200 = .ok hw) :
    ∃ fit, SeasonalEnsemble.fitHw S.toSolvers obs = .ok fit ∧
      SameFit fit hw ∧ hw.segmentStart = segmentStart ∧
      SeasonalEnsemble.heuristicInit S.toSolvers obs 144 =
        .ok (fit.level0, fit.trend0, fit.season0) := by
  have hinit := heuristicInit_eq S (y := obs) (m := 144) (by norm_num) hy
  unfold fitHw at h
  rw [mapM_id_map_some] at h
  dsimp only at h
  rw [hinit] at h
  unfold SeasonalEnsemble.fitHw
  rw [show SeasonalEnsemble.season = 144 from rfl]
  cases hstates : SeasonalEnsemble.heuristicInit S.toSolvers obs 144 with
  | error text =>
      rw [hstates] at h
      cases h
  | ok states =>
      obtain ⟨level0, trend0, season0⟩ := states
      rw [hstates] at h
      dsimp only [bind, Except.bind, Except.mapError] at h ⊢
      simp only [hwRun] at h
      cases hbest : bestOf S.toSolvers (fun x =>
          (SeasonalEnsemble.hwRun obs (params x).1 (params x).2.1 (params x).2.2 level0 trend0
            season0).1) 200 with
      | none =>
          rw [hbest] at h
          cases h
      | some best =>
          rw [hbest] at h
          cases h
          exact ⟨_, rfl, ⟨rfl, rfl, rfl, rfl, rfl, rfl, rfl, rfl⟩, rfl, rfl⟩

section Fit

variable {Digest : Type} {S : KernelSolvers} {sha256 : List UInt8 → Digest}
  {series : Series} {g : Grid}

/-- A fit is made at a slot of the series. -/
theorem cutoff_eq_of_fitE1 {cutoff : ℤ} {fit : E1Fit Digest}
    (h : Gridded series g)
    (hfit : fitE1 S sha256 series cutoff tenMinutes = .ok fit) :
    ∃ b : ℕ, b < g.size ∧ cutoff = series.start + b * 600 := by
  have hdt : (tenMinutes.intervalSeconds : ℤ) = 600 := rfl
  unfold fitE1 at hfit
  dsimp only at hfit
  rw [hdt] at hfit
  split at hfit
  · cases hfit
  · rename_i hgrid
    push Not at hgrid
    obtain ⟨-, -, hlo, hhi⟩ := hgrid
    split at hfit
    · cases hfit
    · obtain ⟨window, hwindow, -⟩ := Except.bind_eq_ok_iff.mp hfit
      obtain ⟨a, -, hb⟩ := Except.bind_eq_ok_iff.mp hwindow
      obtain ⟨i, hi, -⟩ := Except.bind_eq_ok_iff.mp hb
      unfold Series.index at hi
      rw [h.interval] at hi
      split at hi
      · cases hi
      · rename_i hon
        unfold Series.stop at hhi
        rw [h.interval, ← h.size] at hhi
        exact ⟨((cutoff - series.start) / 600).toNat, by omega, by omega⟩

/-- What a fit on complete data is made of. -/
theorem fitE1_eq_ok {b : ℕ} {fit : E1Fit Digest} (h : Gridded series g)
    (hfar : 2015 ≤ b) (hb : b < g.size)
    (hfit : fitE1 S sha256 series (series.start + b * 600) tenMinutes =
      .ok fit) :
    fit.cutoff = series.start + b * 600 ∧ fit.intervalSeconds = 600 ∧
      fitHw S ((List.range' (b - 2015) 2016).map g.filled) 144
        (series.start + (b - 2015 : ℕ) * 600) 200 = .ok fit.hw ∧
      fitAr series tenMinutes S (series.start + b * 600) =
        .ok (fit.arCoef, fit.arRows) := by
  have hdt : (tenMinutes.intervalSeconds : ℤ) = 600 := rfl
  have hsegment := h.between_eq (Nat.sub_le b 2015) hb
  rw [show b + 1 - (b - 2015) = 2016 by omega] at hsegment
  unfold fitE1 at hfit
  dsimp only at hfit
  rw [hdt] at hfit
  split at hfit
  · cases hfit
  · split at hfit
    · cases hfit
    · obtain ⟨window, hwindow, hrest⟩ := Except.bind_eq_ok_iff.mp hfit
      split at hrest
      · cases hrest
      · rw [h.completeSegmentStart_eq hfar hb] at hrest
        obtain ⟨segLo, hlo, hrest⟩ := Except.bind_eq_ok_iff.mp hrest
        cases hlo
        split at hrest
        · cases hrest
        · rw [hsegment] at hrest
          simp only [Except.bind_eq_ok_iff] at hrest
          obtain ⟨segment, hseg, hw, hhw, ⟨coef, rows⟩, har, digest, -, hout⟩ :=
            hrest
          cases hseg
          cases hout
          exact ⟨rfl, rfl, hhw, har⟩

/-- What a fit of the AR recursion went through. -/
theorem fitAr_inv {ks : KernelSettings} {cutoff : ℤ} {coef : List ℚ}
    {count : ℕ} (hfit : fitAr series ks S cutoff = .ok (coef, count)) :
    ¬(arRows series ks cutoff).length < ks.arMinRows ∧
      ∃ found, S.lstsq ((arRows series ks cutoff).map Prod.fst)
          ((arRows series ks cutoff).map fun row => row.2.1) = .ok found ∧
        found.mapM id = some coef ∧
        count = (arRows series ks cutoff).length := by
  unfold fitAr at hfit
  dsimp only at hfit
  split at hfit
  · cases hfit
  · rename_i hmany
    refine ⟨hmany, ?_⟩
    split at hfit
    · split at hfit
      · cases hfit
      · cases hfound : S.lstsq ((arRows series ks cutoff).map Prod.fst)
            ((arRows series ks cutoff).map fun row => row.2.1) with
        | error text =>
            rw [hfound] at hfit
            cases hfit
        | ok found =>
            rw [hfound] at hfit
            dsimp only at hfit
            split at hfit
            · cases hfit
            · rename_i values hvalues
              split at hfit
              · cases hfit
                exact ⟨found, rfl, hvalues, rfl⟩
              · cases hfit
    · cases hfit

/-- Where the kernel's AR fit succeeds the ensemble's does, with the same
coefficients. -/
theorem fitAr_eq_ok {b : ℕ} {coef : List ℚ} {count : ℕ} (h : Gridded series g)
    (hfar : 2015 ≤ b) (hb : b < g.size)
    (hfit : fitAr series tenMinutes S (series.start + b * 600) =
      .ok (coef, count)) :
    SeasonalEnsemble.fitAr (SeasonalEnsemble.fitsOf S.toSolvers)
      (SeasonalEnsemble.residual g) b = .ok (coef, count) := by
  obtain ⟨hrows, -⟩ := h.arRows_eq hfar hb
  have hfirst : (SeasonalEnsemble.arRows
      (SeasonalEnsemble.residual g) b).map Prod.fst =
        (arRows series tenMinutes (series.start + b * 600)).map Prod.fst := by
    rw [← hrows, List.map_map]
    rfl
  have hsecond : (SeasonalEnsemble.arRows
      (SeasonalEnsemble.residual g) b).map Prod.snd =
        (arRows series tenMinutes (series.start + b * 600)).map
          fun row => row.2.1 := by
    rw [← hrows, List.map_map]
    rfl
  have hlength : (SeasonalEnsemble.arRows
      (SeasonalEnsemble.residual g) b).length =
        (arRows series tenMinutes (series.start + b * 600)).length := by
    rw [← hrows, List.length_map]
  obtain ⟨hmany, found, hfound, hvalues, hcount⟩ := fitAr_inv hfit
  have hmany' : ¬(SeasonalEnsemble.arRows
      (SeasonalEnsemble.residual g) b).length <
        SeasonalEnsemble.minArRows := by
    rw [hlength]
    exact hmany
  unfold SeasonalEnsemble.fitAr SeasonalEnsemble.fitsOf
  dsimp only
  rw [if_neg hmany', hfirst, hsecond, hfound]
  dsimp only
  rw [hvalues, hcount, hlength]

/-- The training window of the ensemble is the complete segment. -/
theorem train_eq (h : Gridded series g) {b : ℕ} (hfar : 2015 ≤ b)
    (hb : b < g.size) :
    SeasonalEnsemble.train g b = (List.range' (b - 2015) 2016).map g.filled ∧
      ∃ obs : List ℚ, obs.length = 2016 ∧
        SeasonalEnsemble.train g b = obs.map some := by
  have hall : ∀ o ∈ (List.range' (b - 2015) 2016).map g.filled, o.isSome := by
    intro o ho
    obtain ⟨i, hi, rfl⟩ := List.mem_map.mp ho
    have hin : i < g.size := by
      have := (List.mem_range'_1.mp hi).2
      omega
    rw [h.filled_eq hin]
    exact h.isSome_at? hin
  have hwindow : SeasonalEnsemble.hwWindow g b =
      (List.range' (b - 2015) 2016).map g.filled := by
    have hlo : SeasonalEnsemble.hwLo b = b - 2015 := by
      unfold SeasonalEnsemble.hwLo
      rw [show SeasonalEnsemble.hwWindowSlots = 2016 from rfl]
      omega
    unfold SeasonalEnsemble.hwWindow
    rw [hlo, show b + 1 - (b - 2015) = 2016 by omega]
  have htrain : SeasonalEnsemble.train g b =
      (List.range' (b - 2015) 2016).map g.filled := by
    unfold SeasonalEnsemble.train
    rw [hwindow]
    refine List.dropWhile_eq_self_iff.mpr fun hpos => ?_
    rw [Bool.not_eq_true, Option.isNone_eq_false_iff]
    exact hall _ (List.getElem_mem hpos)
  obtain ⟨obs, hobs⟩ := exists_map_some hall
  refine ⟨htrain, obs, ?_, htrain.trans hobs.symm⟩
  have hlength := congrArg List.length hobs
  rwa [List.length_map, List.length_map, List.length_range'] at hlength

theorem index_nat (h : Gridded series g) (i : ℕ) :
    g.index (series.start + i * 600) = i := by
  unfold Grid.index
  rw [h.start, show SeasonalEnsemble.slotSeconds = 600 from rfl]
  omega

/-- The ensemble's generation at the cutoff is the kernel's fit. -/
theorem generationFor_eq_ok {Digest' : Type} (sha256' : List UInt8 → Digest')
    {b : ℕ} {fit : E1Fit Digest} (h : Gridded series g) (hfar : 2015 ≤ b)
    (hb : b < g.size)
    (hfit : fitE1 S sha256 series (series.start + b * 600) tenMinutes =
      .ok fit) :
    ∃ gen, SeasonalEnsemble.generationFor
        (SeasonalEnsemble.fitsOf S.toSolvers) sha256' g
        (series.start + b * 600) = .ok gen ∧
      gen.boundaryTs = series.start + b * 600 ∧ SameFit gen.hw fit.hw ∧
      gen.arCoef = fit.arCoef ∧ gen.arRows = fit.arRows ∧
      fit.hw.segmentStart = series.start + (b - 2015 : ℕ) * 600 ∧
      ∀ obs, SeasonalEnsemble.train g b = obs.map some →
        SeasonalEnsemble.heuristicInit S.toSolvers obs 144 =
          .ok (gen.hw.level0, gen.hw.trend0, gen.hw.season0) := by
  obtain ⟨-, -, hhw, har⟩ := fitE1_eq_ok h hfar hb hfit
  obtain ⟨htrain, obs, hlength, hobs⟩ := train_eq h hfar hb
  rw [← htrain, hobs] at hhw
  obtain ⟨hw, hfound, hsame, hstart, hinit⟩ :=
    fitHw_eq_ok (by rw [hlength]; norm_num) hhw
  have hb' : SeasonalEnsemble.boundaryIndex g (series.start + b * 600) =
      .ok b := by
    have hnonempty : obs.map some ≠ [] := by
      intro hnil
      rw [List.map_eq_nil_iff.mp hnil] at hlength
      cases hlength
    have hin : ¬((b : ℤ) < 0 ∨ (g.size : ℤ) ≤ b) := by omega
    unfold SeasonalEnsemble.boundaryIndex
    dsimp only
    rw [index_nat h, if_neg hin, Int.toNat_natCast, hobs, if_neg hnonempty]
  unfold SeasonalEnsemble.generationFor
  rw [hb']
  dsimp only
  unfold SeasonalEnsemble.fitAt
  rw [hobs, mapM_id_map_some, fitAr_eq_ok h hfar hb har]
  dsimp only
  rw [show (SeasonalEnsemble.fitsOf S.toSolvers).fitHw obs = .ok hw from hfound]
  refine ⟨_, rfl, rfl, hsame, rfl, rfl, hstart, ?_⟩
  intro obs' hobs'
  rw [← List.map_injective_iff.mpr (Option.some_injective ℚ) hobs']
  exact hinit

end Fit

/-- The six targets after an input end. -/
def targetsAfter (inputEnd : ℤ) : List ℤ :=
  (List.range' 1 6).map fun s : ℕ => inputEnd + s * 600

/-- A slot that the series has. -/
theorem Gridded.exists_of_at? {series : Series} {g : Grid}
    (h : Gridded series g) {t : ℤ} {x : ℚ} (ht : series.at? t = some x) :
    ∃ i : ℕ, i < g.size ∧ t = series.start + i * 600 := by
  unfold Series.at? at ht
  dsimp only at ht
  rw [h.interval] at ht
  split at ht
  · rename_i hin
    rw [← h.size] at hin
    exact ⟨((t - series.start) / 600).toNat, by omega, by omega⟩
  · cases ht

/-- The two recursions from three residuals that are there. -/
theorem arForecast_eq (c : List ℚ) (x y z : ℚ) (n : ℕ) :
    SeasonalEnsemble.arForecast c [some x, some y, some z] n =
      (arRecursion c 3 [x, y, z] n).map some := by
  induction n generalizing x y z with
  | zero => rfl
  | succ n ih =>
      have hnext : SeasonalEnsemble.arNext c [some x, some y, some z] =
          some (c.getD 0 0 + ((List.range 3).map fun j =>
            c.getD (j + 1) 0 * [x, y, z].getD j 0).sum) := by
        have hsum : ((List.range 3).map fun j =>
            c.getD (j + 1) 0 * [x, y, z].getD j 0).sum =
              c.getD 1 0 * x + (c.getD 2 0 * y + (c.getD 3 0 * z + 0)) := rfl
        rw [hsum, SeasonalEnsemble.arNext]
        congr 1
        ring
      rw [SeasonalEnsemble.arForecast, arRecursion, hnext, List.map_cons]
      congr 1
      exact ih _ _ _

section Forecast

variable {Digest : Type} {series : Series} {g : Grid} {fit : E1Fit Digest}
  {out : E1Forecast} {e : ℤ} {b : ℕ}

/-- What was observed since the boundary, by time and by slot. -/
theorem since_eq (h : Gridded series g) {j : ℕ} (hbj : b ≤ j)
    (hj : j < g.size) :
    (timeRange (series.start + b * 600 + 600) (series.start + j * 600 + 1)
        600).mapM series.at? =
      ((List.range' (b + 1) (j - b)).map g.filled).mapM id := by
  have hstart : series.start + b * 600 + 600 =
      series.start + (b + 1 : ℕ) * 600 := by
    push_cast
    ring
  rw [hstart, timeRange_eq series.start (by omega), mapM_eq_mapM_id,
    List.map_map, show j + 1 - (b + 1) = j - b by omega]
  congr 1
  refine List.map_congr_left fun k hk => ?_
  have hin : k < g.size := by
    have := (List.mem_range'_1.mp hk).2
    omega
  rw [Function.comp_apply, h.at?_nat hin, h.filled_eq hin]

/-- The three latest residuals, by time and by slot. -/
theorem hist_eq (h : Gridded series g) {j : ℕ} (hfar : 2015 ≤ j)
    (hj : j < g.size) :
    ∃ x y z, SeasonalEnsemble.histAt g j = some x ∧
      SeasonalEnsemble.histAt g (j - 1) = some y ∧
      SeasonalEnsemble.histAt g (j - 2) = some z ∧
      ((List.range tenMinutes.arOrder).mapM fun k : ℕ =>
        residual series tenMinutes (series.start + j * 600 - k * 600)) =
          some [x, y, z] := by
  have hread : ∀ k : ℕ, k ≤ 2 → ∃ x,
      SeasonalEnsemble.histAt g (j - k) = some x ∧
        residual series tenMinutes (series.start + j * 600 - k * 600) =
          some x := by
    intro k hk
    have htime : series.start + (j : ℤ) * 600 - k * 600 =
        series.start + ((j - k : ℕ) : ℤ) * 600 := by omega
    have hback : (0 : ℤ) ≤ j - k := by omega
    obtain ⟨heq, hsome⟩ := h.residual_eq (i := j - k) (by omega) (by omega)
    obtain ⟨x, hx⟩ := Option.isSome_iff_exists.mp hsome
    refine ⟨x, ?_, ?_⟩
    · unfold SeasonalEnsemble.histAt
      rw [if_pos hback, show ((j : ℤ) - k).toNat = j - k by omega, hx]
    · rw [htime, heq, hx]
  obtain ⟨x, hx, hrx⟩ := hread 0 (by omega)
  obtain ⟨y, hy, hry⟩ := hread 1 (by omega)
  obtain ⟨z, hz, hrz⟩ := hread 2 (by omega)
  refine ⟨x, y, z, by simpa using hx, hy, hz, ?_⟩
  rw [show List.range tenMinutes.arOrder = [0, 1, 2] from rfl,
    mapM_eq_mapM_id, List.map_cons, List.map_cons, List.map_cons, hrx, hry, hrz]
  rfl

/-- The profiles of the targets, by time and by slot. -/
theorem profiles_eq (h : Gridded series g) {j : ℕ} (hfar : 2015 ≤ j)
    (hj : j < g.size) :
    ∃ p : ℕ → ℚ, SeasonalEnsemble.targetProfiles g j =
        (List.range' 1 6).map (fun s => some (p s)) ∧
      ∀ s ∈ List.range' 1 6, profile series tenMinutes
        (series.start + j * 600 + (s : ℕ) * 600) = some (p s) := by
  have hread : ∀ s ∈ List.range' 1 6, ∃ x,
      SeasonalEnsemble.profileAt g (j + (s : ℕ)) = some x ∧
        profile series tenMinutes
          (series.start + j * 600 + (s : ℕ) * 600) = some x := by
    intro s hs
    have hrange := List.mem_range'_1.mp hs
    obtain ⟨heq, hsome⟩ := h.profile_eq (i := j + s) (by omega) (by omega)
    obtain ⟨x, hx⟩ := Option.isSome_iff_exists.mp hsome
    have htime : series.start + (j : ℤ) * 600 + s * 600 =
        series.start + ((j + s : ℕ) : ℤ) * 600 := by
      push_cast
      ring
    refine ⟨x, by exact_mod_cast hx, ?_⟩
    rw [htime, heq, hx]
  refine ⟨fun s => (SeasonalEnsemble.profileAt g (j + s)).getD 0, ?_, ?_⟩
  · refine List.map_congr_left fun s hs => ?_
    obtain ⟨x, hx, -⟩ := hread s hs
    dsimp only
    rw [hx, Option.getD_some]
  · intro s hs
    obtain ⟨x, hx, hprofile⟩ := hread s hs
    dsimp only
    rw [hprofile, hx, Option.getD_some]

theorem steps_targetsAfter (inputEnd : ℤ) :
    ((targetsAfter inputEnd).map fun s => ((s - inputEnd) / 600).toNat) =
      List.range' 1 6 := by
  unfold targetsAfter
  rw [List.map_map]
  refine (List.map_congr_left fun s _ => ?_).trans (List.map_id _)
  simp only [Function.comp_apply, id]
  omega

/-- Profiles that are there, added to the recursion. -/
theorem mapM_profiles {inputEnd : ℤ} {p : ℕ → ℚ} (ar : List ℚ)
    (hprofile : ∀ s ∈ List.range' 1 6,
      profile series tenMinutes (inputEnd + (s : ℕ) * 600) = some (p s)) :
    ((targetsAfter inputEnd).zip (List.range' 1 6)).mapM
        (profileArAt series tenMinutes ar) =
      .ok ((List.range' 1 6).map fun s => p s + ar.getD (s - 1) 0) := by
  have hzip : (targetsAfter inputEnd).zip (List.range' 1 6) =
      (List.range' 1 6).map fun s : ℕ => (inputEnd + (s : ℤ) * 600, s) := rfl
  rw [hzip, List.mapM_map]
  refine mapM_eq_ok_map fun s hs => ?_
  rw [Function.comp_apply, profileArAt, hprofile s hs]

/-- Where the kernel forecasts, the input end is a slot from the cutoff on, and
the components are the ensemble's there. -/
theorem forecastE1_eq_ok (h : Gridded series g) (hfar : 2015 ≤ b)
    (hcutoff : fit.cutoff = series.start + b * 600)
    (hout : forecastE1 fit series e (targetsAfter e) tenMinutes = .ok out) :
    ∃ j : ℕ, b ≤ j ∧ j < g.size ∧ e = series.start + j * 600 ∧
      (∀ hw, SameFit hw fit.hw →
        SeasonalEnsemble.hwForecast g hw b j = out.hw.map some) ∧
      SeasonalEnsemble.profileForecast g fit.arCoef j =
        out.profileAr.map some ∧
      out.points = List.zipWith (fun x y => max 0 (1 / 2 * x + (1 - 1 / 2) * y))
        out.hw out.profileAr := by
  have hdt : (tenMinutes.intervalSeconds : ℤ) = 600 := rfl
  unfold forecastE1 at hout
  dsimp only at hout
  rw [hdt] at hout
  split at hout
  · cases hout
  · rename_i hbefore
    split at hout
    · cases hout
    · split at hout
      · cases hout
      · split at hout
        · rename_i since x hsince hx
          obtain ⟨j, hj, rfl⟩ := h.exists_of_at? hx
          have hbj : b ≤ j := by omega
          obtain ⟨r, r', r'', hr, hr', hr'', hhist⟩ :=
            hist_eq h (hfar.trans hbj) hj
          obtain ⟨p, htargets, hprofile⟩ :=
            profiles_eq h (hfar.trans hbj) hj
          rw [hcutoff, since_eq h hbj hj] at hsince
          rw [steps_targetsAfter, hhist,
            show (List.range' 1 6).max? = some 6 from rfl] at hout
          dsimp only at hout
          rw [mapM_profiles _ hprofile] at hout
          cases hout
          refine ⟨j, hbj, hj, rfl, fun hw hsame => ?_, ?_, rfl⟩
          · unfold SeasonalEnsemble.hwForecast
            rw [hsince, hsame.alpha, hsame.beta, hsame.gamma, hsame.level,
              hsame.trend, hsame.season]
            rfl
          · unfold SeasonalEnsemble.profileForecast
            dsimp only
            rw [htargets, hr, hr', hr'', show SeasonalEnsemble.steps = 6 from
              rfl, arForecast_eq]
            rfl
        · cases hout

end Forecast

/-- The boundary that serves a time within six hours of it. -/
theorem boundaryOf_eq {c e : ℤ} (hc : c % 21600 = 0) (hce : c ≤ e)
    (hec : e < c + 21600) : SeasonalEnsemble.boundaryOf e = c := by
  unfold SeasonalEnsemble.boundaryOf
  rw [show SeasonalEnsemble.refitSeconds = 21600 from rfl]
  omega

theorem usable_of_ok {G : Type} {generationFor : ℤ → Except String G}
    {boundary : ℤ} {gen : G} (h : generationFor boundary = .ok gen) :
    SeasonalEnsemble.usable generationFor boundary = .ok (gen, false) := by
  have hzero : boundary - ((0 : ℕ) : ℤ) * SeasonalEnsemble.refitSeconds =
      boundary := by
    rw [Nat.cast_zero, zero_mul, sub_zero]
  unfold SeasonalEnsemble.usable
  rw [show List.range (SeasonalEnsemble.staleGenerations + 1) = [0, 1] from rfl,
    SeasonalEnsemble.usable.attempt, hzero, h]
  rfl

/-- Two weeks of complete data up to a six-hour boundary: where the kernel fits
there and forecasts from an input end it serves, the ensemble trains on the
same values from the same states and rows, and its components are the same. -/
theorem e1_product_reproduces {Digest Digest' : Type} {S : KernelSolvers}
    {sha256 : List UInt8 → Digest} (sha256' : List UInt8 → Digest')
    {series : Series} {g : Grid} (h : Gridded series g) {c e : ℤ}
    (hc : c % 21600 = 0) (hdays : 14 * 86400 ≤ c - series.start + 600)
    (hce : c ≤ e) (hec : e < c + 21600) {fit : E1Fit Digest}
    (hfit : fitE1 S sha256 series c tenMinutes = .ok fit) {out : E1Forecast}
    (hout : forecastE1 fit series e (targetsAfter e) tenMinutes = .ok out) :
    let b := (g.index c).toNat
    ∃ comps, SeasonalEnsemble.componentsAt
        (SeasonalEnsemble.fitsOf S.toSolvers) sha256' g (g.index e).toNat =
          .ok comps ∧
      between series fit.hw.segmentStart c = .ok (SeasonalEnsemble.train g b) ∧
      (∀ obs, SeasonalEnsemble.train g b = obs.map some →
        heuristicInit S obs tenMinutes.m = .ok (comps.generation.hw.level0,
          comps.generation.hw.trend0, comps.generation.hw.season0)) ∧
      (arRows series tenMinutes c).map (fun row => (row.1, row.2.1)) =
        SeasonalEnsemble.arRows (SeasonalEnsemble.residual g) b ∧
      SameFit comps.generation.hw fit.hw ∧
      comps.generation.arCoef = fit.arCoef ∧
      comps.hw = out.hw.map some ∧
      comps.profileAr = out.profileAr.map some ∧
      comps.raw = out.points.map some := by
  obtain ⟨b, hb, rfl⟩ := cutoff_eq_of_fitE1 h hfit
  have hfar : 2015 ≤ b := by omega
  obtain ⟨hcutoff, -, -, -⟩ := fitE1_eq_ok h hfar hb hfit
  obtain ⟨j, hbj, hj, rfl, hhw, hpa, hpoints⟩ :=
    forecastE1_eq_ok h hfar hcutoff hout
  obtain ⟨gen, hgen, hts, hsame, hcoef, -, hsegment, hinit⟩ :=
    generationFor_eq_ok sha256' h hfar hb hfit
  have husable := usable_of_ok hgen
  have hboundary : SeasonalEnsemble.boundaryOf (g.ts j) =
      series.start + b * 600 := by
    refine boundaryOf_eq hc ?_ ?_ <;>
      rw [Grid.ts, h.start, show SeasonalEnsemble.slotSeconds = 600 from rfl] <;>
      assumption
  have hcomponents : SeasonalEnsemble.componentsAt
      (SeasonalEnsemble.fitsOf S.toSolvers) sha256' g j =
        .ok ⟨out.hw.map some, out.profileAr.map some,
          List.zipWith SeasonalEnsemble.rawStep (out.hw.map some)
            (out.profileAr.map some),
          List.zipWith SeasonalEnsemble.rawFiniteStep (out.hw.map some)
            (out.profileAr.map some), gen, false⟩ := by
    unfold SeasonalEnsemble.componentsAt
    rw [hboundary, husable]
    dsimp only
    rw [hts, index_nat h, Int.toNat_natCast, hhw gen.hw hsame, hcoef, hpa]
  dsimp only
  rw [index_nat h, index_nat h, Int.toNat_natCast, Int.toNat_natCast]
  refine ⟨_, hcomponents, ?_, ?_, (h.arRows_eq hfar hb).1, hsame, hcoef, rfl,
    rfl, ?_⟩
  · rw [hsegment, h.between_eq (Nat.sub_le b 2015) hb,
      (train_eq h hfar hb).1, show b + 1 - (b - 2015) = 2016 by omega]
  · intro obs hobs
    obtain ⟨-, obs', hlength, hobs'⟩ := train_eq h hfar hb
    have hsameObs : obs' = obs := List.map_injective_iff.mpr
      (Option.some_injective ℚ) (hobs'.symm.trans hobs)
    rw [tenMinutes_m, heuristicInit_eq S (by norm_num)
      (by rw [← hsameObs, hlength]; norm_num), hinit obs hobs]
    rfl
  · rw [hpoints, List.zipWith_map, List.map_zipWith]
    rfl

section Availability

variable {Digest : Type} {S : KernelSolvers} (sha256 : List UInt8 → Digest)
  {series : Series} {g : Grid} {b : ℕ}

/-- The trend of two even seasons has a value from half a season on. -/
theorem isSome_cumulativeTrend {m : ℕ} (heven : m % 2 = 0) (hm : 2 ≤ m)
    {x : List ℚ} {i : ℕ} (hlo : m / 2 ≤ i) (hhi : i + 1 - m / 2 + m ≤ x.length)
    (hi : i < (cumulativeTrend m x).length) :
    (cumulativeTrend m x)[i].isSome := by
  have hcentred : ∀ k, m / 2 ≤ k → k - m / 2 + m ≤ x.length →
      ∀ hk : k < (centredMean m x).length,
        ∃ v, (centredMean m x)[k] = some v := by
    intro k hlo hhi hk
    simp only [centredMean, List.getElem_map, List.getElem_range, hlo, hhi,
      and_self, if_true, Option.some.injEq, exists_eq']
  have hnext : i + 1 < (centredMean m x).length := by
    rw [length_centredMean]
    omega
  obtain ⟨v, hv⟩ := hcentred i hlo (by omega) (Nat.lt_of_succ_lt hnext)
  obtain ⟨w, hw⟩ := hcentred (i + 1) (by omega) hhi hnext
  simp only [cumulativeTrend, heven, if_true, averageNext,
    List.getElem_zipWith, getElem_shiftBack _ hnext, hv, hw]
  rfl

/-- Two even seasons of ten slots at least always have initial states. -/
theorem heuristicInit_available (S : KernelSolvers) {y : List ℚ} {m : ℕ}
    (heven : m % 2 = 0) (hten : 10 ≤ m) (hy : 2 * m ≤ y.length) :
    ∃ states, heuristicInit S y m = .ok states := by
  have htwo : 2 ≤ initCycles y.length m := by
    unfold initCycles
    refine le_max_of_le_left (le_min (by norm_num) ?_)
    exact (Nat.le_div_iff_mul_le (by omega)).mpr hy
  have hlength : 2 * m ≤ (y.take (m * initCycles y.length m)).length := by
    rw [List.length_take]
    refine le_min ?_ hy
    rw [Nat.mul_comm]
    exact Nat.mul_le_mul_left m htwo
  unfold heuristicInit
  rw [if_neg (by omega)]
  dsimp only
  generalize y.take (m * initCycles y.length m) = x at *
  have hall : ∀ o ∈ ((cumulativeTrend m x).drop (m / 2)).take 10,
      o.isSome := by
    intro o ho
    obtain ⟨k, hk, rfl⟩ := List.getElem_of_mem ho
    rw [List.length_take, List.length_drop] at hk
    rw [List.getElem_take, List.getElem_drop]
    exact isSome_cumulativeTrend heven (by omega) (by omega) (by omega)
      (by omega)
  have hmany : 10 ≤ ((cumulativeTrend m x).filterMap id).length := by
    have hcount := ((List.take_sublist 10 _).trans
      (List.drop_sublist (m / 2) (cumulativeTrend m x))).countP_le
        (p := Option.isSome)
    have htrend : (cumulativeTrend m x).length = x.length := by
      unfold cumulativeTrend
      simp only [heven, if_true, length_averageNext, length_centredMean]
    rw [List.countP_eq_length.mpr hall, List.length_take, List.length_drop,
      htrend] at hcount
    rw [List.length_filterMap_eq_countP]
    refine le_trans ?_ hcount
    omega
  have hinput : (((cumulativeTrend m x).filterMap id).take 10).length = 10 := by
    rw [List.length_take, Nat.min_eq_left hmany]
  unfold initialStates
  dsimp only
  rw [if_neg (not_not.mpr hinput)]
  exact ⟨_, rfl⟩

/-- An optimiser that converges from every start has a best result. -/
theorem bestOf_available {objective : List ℚ → ℚ} {maxiter : ℕ} {S : Solvers}
    (h : ∀ x0 bounds, (S.minimize objective x0 bounds maxiter).success = true ∧
      (S.minimize objective x0 bounds maxiter).value.isSome) :
    ∃ best, bestOf S objective maxiter = some best := by
  refine Option.isSome_iff_exists.mp ?_
  unfold bestOf hwStarts
  simp only [List.foldl_cons, List.foldl_nil, h, true_and,
    OptimizeResult.better, if_true]
  split_ifs <;> rfl

theorem fitHw_available {obs : List ℚ} (hobs : 288 ≤ obs.length)
    (segmentStart : ℤ)
    (h : ∀ objective x0 bounds,
      (S.minimize objective x0 bounds 200).success = true ∧
        (S.minimize objective x0 bounds 200).value.isSome) :
    ∃ hw, fitHw S (obs.map some) 144 segmentStart 200 = .ok hw := by
  obtain ⟨states, hstates⟩ := heuristicInit_available S (y := obs) (m := 144)
    (by norm_num) (by norm_num) hobs
  obtain ⟨best, hbest⟩ := bestOf_available (h fun x => (hwRun obs (params x).1
    (params x).2.1 (params x).2.2 states.1 states.2.1 states.2.2).1)
  unfold fitHw
  rw [mapM_id_map_some]
  dsimp only
  rw [hstates]
  refine Exists.imp
    (fun _ hrest => Except.bind_eq_ok_iff.mpr ⟨states, rfl, hrest⟩) ?_
  rw [hbest]
  exact ⟨_, rfl⟩

/-- The AR fit of complete data fails only where the solver does, or where the
recursion is not stable. -/
theorem fitAr_available (h : Gridded series g) (hfar : 2015 ≤ b)
    (hb : b < g.size) {coef : List ℚ}
    (hsolved : ∀ rows targets, S.lstsq rows targets = .ok (coef.map some))
    (hstable : arRootsMax S.rootModuli coef < arMaxRoot) :
    ∃ rows, fitAr series tenMinutes S (series.start + b * 600) =
      .ok (coef, rows) := by
  obtain ⟨-, htimes⟩ := h.arRows_eq hfar hb
  have hlength := congrArg List.length htimes
  rw [List.length_map, List.length_map, List.length_range'] at hlength
  have hfirst : (List.range' (b - 1004) 1005).head? = some (b - 1004) := rfl
  have hlast : (List.range' (b - 1004) 1005).getLast? = some b := by
    rw [List.getLast?_range', if_neg (by norm_num)]
    congr 1
    omega
  refine ⟨1005, ?_⟩
  unfold fitAr
  dsimp only
  rw [hlength, if_neg (by decide), htimes, List.head?_map, List.getLast?_map,
    hfirst, hlast]
  dsimp only [Option.map_some]
  rw [if_neg (by
    rw [show (tenMinutes.arMinSpanSeconds : ℤ) = 21600 from rfl]
    omega), hsolved]
  dsimp only
  rw [mapM_id_map_some]
  dsimp only
  rw [if_pos hstable]

/-- After two weeks of complete data a fit fails only where its solvers do. -/
theorem fitE1_available (h : Gridded series g) (hfar : 2015 ≤ b)
    (hb : b < g.size) (hgrid : series.start % 600 = 0) {hw : HWState}
    (hhw : fitHw S ((List.range' (b - 2015) 2016).map g.filled) 144
      (series.start + (b - 2015 : ℕ) * 600) 200 = .ok hw)
    {coef : List ℚ} {rows : ℕ}
    (har : fitAr series tenMinutes S (series.start + b * 600) =
      .ok (coef, rows)) :
    ∃ fit, fitE1 S sha256 series (series.start + b * 600) tenMinutes =
      .ok fit := by
  have hdt : (tenMinutes.intervalSeconds : ℤ) = 600 := rfl
  have hinside : ¬(series.interval ≠ 600 ∨
      (series.start + (b : ℤ) * 600) % 600 ≠ 0 ∨
      ¬(series.start ≤ series.start + b * 600 ∧
        series.start + b * 600 ≤ series.stop)) := by
    unfold Series.stop
    rw [h.interval, ← h.size]
    omega
  have hhistory : ¬(series.start + b * 600 - series.start + 600 <
      (tenMinutes.minHistoryDays : ℤ) * day) := by
    rw [show (tenMinutes.minHistoryDays : ℤ) = 7 from rfl,
      show (day : ℤ) = 86400 from rfl]
    omega
  have hweek : series.start + b * 600 - (tenMinutes.arWindowDays : ℤ) * day +
      600 = series.start + (b - 1007 : ℕ) * 600 := by
    rw [show (tenMinutes.arWindowDays : ℤ) = 7 from rfl,
      show (day : ℤ) = 86400 from rfl]
    omega
  have hobserved : ∀ lo ≤ b, ((List.range' lo (b + 1 - lo)).map
      g.filled).filter Option.isSome =
        (List.range' lo (b + 1 - lo)).map g.filled := by
    intro lo hlo
    refine List.filter_eq_self.mpr fun o ho => ?_
    obtain ⟨i, hi, rfl⟩ := List.mem_map.mp ho
    have hin : i < g.size := by
      have := (List.mem_range'_1.mp hi).2
      omega
    rw [h.filled_eq hin]
    exact h.isSome_at? hin
  have hfraction : ∀ l : List (Option ℚ), ¬(l ≠ [] ∧
      ((l.length : ℚ) / l.length < tenMinutes.minObservedFraction)) := by
    rintro l ⟨hne, hlt⟩
    have hpos : (l.length : ℚ) ≠ 0 :=
      Nat.cast_ne_zero.mpr (List.length_pos_iff.mpr hne).ne'
    rw [div_self hpos] at hlt
    exact absurd hlt (by decide +kernel)
  have hlong : ¬((series.start + b * 600 -
      (series.start + (b - 2015 : ℕ) * 600)) / 600 + 1 <
        (tenMinutes.hwMinDays : ℤ) * tenMinutes.m) := by
    rw [show (tenMinutes.hwMinDays : ℤ) = 2 from rfl,
      show (tenMinutes.m : ℤ) = 144 from rfl]
    omega
  have hsegment := h.between_eq (Nat.sub_le b 2015) hb
  rw [show b + 1 - (b - 2015) = 2016 by omega] at hsegment
  have hwindow := h.between_eq (Nat.sub_le b 1007) hb
  have hlo : ∃ i : ℤ, max series.start
      (min (series.start + (b - 2015 : ℕ) * 600)
        (series.start + (b - 1007 : ℕ) * 600 -
          (tenMinutes.profileDays : ℤ) * day -
          (tenMinutes.arOrder : ℤ) * 600)) = series.start + i * 600 := by
    rw [show (tenMinutes.profileDays : ℤ) = 7 from rfl,
      show (day : ℤ) = 86400 from rfl,
      show (tenMinutes.arOrder : ℤ) = 3 from rfl]
    exact ⟨max 0 (min ((b - 2015 : ℕ) : ℤ) ((b - 1007 : ℕ) - 1011)), by omega⟩
  obtain ⟨i, hi⟩ := hlo
  have hdigest : ∃ d, series.digest sha256 (series.start + i * 600)
      (series.start + b * 600) = .ok d := by
    unfold Series.digest
    rw [h.index_eq, h.index_eq]
    exact ⟨_, rfl⟩
  obtain ⟨d, hdigest⟩ := hdigest
  unfold fitE1
  dsimp only
  rw [hdt, if_neg hinside, if_neg hhistory, hweek, hwindow]
  refine ⟨⟨series.start + b * 600, 600, hw, coef, rows, series.start + i * 600,
    d, tenMinutes.canonical⟩, Except.bind_eq_ok_iff.mpr ⟨_, rfl, ?_⟩⟩
  rw [hobserved _ (Nat.sub_le b 1007), if_neg (hfraction _),
    h.completeSegmentStart_eq hfar hb]
  refine Except.bind_eq_ok_iff.mpr ⟨_, rfl, ?_⟩
  rw [if_neg hlong, hsegment, hi]
  refine Except.bind_eq_ok_iff.mpr ⟨_, rfl, ?_⟩
  refine Except.bind_eq_ok_iff.mpr ⟨_, hhw, ?_⟩
  refine Except.bind_eq_ok_iff.mpr ⟨_, har, ?_⟩
  exact Except.bind_eq_ok_iff.mpr ⟨_, hdigest, rfl⟩

/-- From a fit at a cutoff after two weeks every later slot has a forecast. -/
theorem forecastE1_available {fit : E1Fit Digest} (h : Gridded series g)
    (hfar : 2015 ≤ b) (hcutoff : fit.cutoff = series.start + b * 600)
    (hinterval : fit.intervalSeconds = 600) {j : ℕ} (hbj : b ≤ j)
    (hj : j < g.size) :
    ∃ out, forecastE1 fit series (series.start + j * 600)
      (targetsAfter (series.start + j * 600)) tenMinutes = .ok out := by
  have hdt : (tenMinutes.intervalSeconds : ℤ) = 600 := rfl
  have hbefore : ¬(fit.intervalSeconds ≠ 600 ∨
      series.start + j * 600 < fit.cutoff ∨
      (series.start + j * 600 - fit.cutoff) % 600 ≠ 0) := by
    rw [hinterval, hcutoff]
    omega
  have htarget : ∀ s ∈ targetsAfter (series.start + j * 600),
      ∃ k : ℕ, 1 ≤ k ∧ k < 7 ∧ s = series.start + j * 600 + k * 600 := by
    intro s hs
    obtain ⟨k, hk, rfl⟩ := List.mem_map.mp hs
    have hrange := List.mem_range'_1.mp hk
    exact ⟨k, hrange.1, hrange.2, rfl⟩
  have hongrid : ((targetsAfter (series.start + j * 600)).any fun s =>
      s ≤ series.start + j * 600 ∨
        (s - (series.start + j * 600)) % 600 ≠ 0) = false := by
    refine List.any_eq_false.mpr fun s hs => ?_
    obtain ⟨k, hk, -, rfl⟩ := htarget s hs
    rw [decide_eq_true_eq]
    omega
  have hseason : ((targetsAfter (series.start + j * 600)).any fun s =>
      (tenMinutes.seasonSeconds : ℤ) < s - (series.start + j * 600)) =
        false := by
    refine List.any_eq_false.mpr fun s hs => ?_
    obtain ⟨k, -, hk, rfl⟩ := htarget s hs
    rw [decide_eq_true_eq, show (tenMinutes.seasonSeconds : ℤ) = 86400 from rfl]
    omega
  have hfilled : ∀ o ∈ (List.range' (b + 1) (j - b)).map g.filled, o.isSome := by
    intro o ho
    obtain ⟨i, hi, rfl⟩ := List.mem_map.mp ho
    have hin : i < g.size := by
      have := (List.mem_range'_1.mp hi).2
      omega
    rw [h.filled_eq hin]
    exact h.isSome_at? hin
  obtain ⟨since, hsince⟩ := exists_map_some hfilled
  obtain ⟨x, hx⟩ := Option.isSome_iff_exists.mp (h.isSome_at? hj)
  obtain ⟨r, r', r'', -, -, -, hhist⟩ := hist_eq h (hfar.trans hbj) hj
  obtain ⟨p, -, hprofile⟩ := profiles_eq h (hfar.trans hbj) hj
  unfold forecastE1
  dsimp only
  rw [hdt, if_neg hbefore, hongrid, hseason, hcutoff, since_eq h hbj hj,
    ← hsince, mapM_id_map_some, h.at?_nat hj, hx]
  dsimp only
  rw [steps_targetsAfter, hhist,
    show (List.range' 1 6).max? = some 6 from rfl]
  dsimp only
  rw [mapM_profiles _ hprofile]
  exact ⟨_, rfl⟩

end Availability

namespace StatisticalE1Witness

/-- Two weeks of no requests, up to a six-hour boundary. -/
def series : Series where
  start := 600
  interval := 600
  values := List.replicate 2016 0
  rates := by
    intro v hv
    rw [List.eq_of_mem_replicate hv]
    decide +kernel

def grid : Grid where
  t0 := 600
  size := 2016
  y := fun _ => 0

/-- The solvers on such a series: the objective is 0 everywhere. -/
def solvers : KernelSolvers where
  minimize := fun objective x0 _ _ => ⟨true, some (objective x0), x0, 0,
    "CONVERGENCE: NORM OF PROJECTED GRADIENT <= PGTOL"⟩
  pinv := fun _ =>
    let centred := (List.range 10).map fun i : ℕ =>
      ((i + 1 - 11 / 2) / (165 / 2) : ℚ)
    [centred.map fun c => 1 / 10 - 11 / 2 * c, centred]
  lstsq := fun _ _ => .ok [some 0, some 0, some 0, some 0]
  rootModuli := fun _ => [0, 0, 0]

theorem gridded : Gridded series grid where
  interval := rfl
  start := rfl
  size := List.length_replicate.symm
  same := by
    intro i hi
    have hlen : i < (List.replicate 2016 (0 : Double)).length := by
      rw [List.length_replicate]
      exact hi
    unfold series
    rw [List.getD_eq_getElem?_getD, List.getElem?_eq_getElem hlen,
      List.getElem_replicate]
    rfl
  complete := by
    intro v hv
    rw [List.eq_of_mem_replicate hv]
    decide +kernel

theorem fit_and_forecast : ∃ fit out,
    fitE1 solvers id series 1209600 tenMinutes = .ok fit ∧
      forecastE1 fit series 1209600 (targetsAfter 1209600) tenMinutes =
        .ok out := by
  have hb : 2015 < grid.size := by decide
  have hcutoff : (1209600 : ℤ) = series.start + (2015 : ℕ) * 600 := by decide
  obtain ⟨htrain, obs, hlength, hobs⟩ := train_eq gridded le_rfl hb
  have hlong : 288 ≤ obs.length := by
    rw [hlength]
    norm_num
  obtain ⟨hw, hhw⟩ := fitHw_available (S := solvers) hlong
    (series.start + (2015 - 2015 : ℕ) * 600) fun _ _ _ => ⟨rfl, rfl⟩
  have hcoef : ∀ rows targets, solvers.lstsq rows targets =
      .ok (([0, 0, 0, 0] : List ℚ).map some) := fun _ _ => rfl
  obtain ⟨rows, har⟩ := fitAr_available (S := solvers) gridded le_rfl hb hcoef
    (by decide +kernel)
  rw [← hobs, htrain] at hhw
  obtain ⟨fit, hfit⟩ := fitE1_available id gridded le_rfl hb rfl hhw har
  obtain ⟨hcut, hdt, -, -⟩ := fitE1_eq_ok gridded le_rfl hb hfit
  obtain ⟨out, hout⟩ :=
    forecastE1_available gridded le_rfl hcut hdt le_rfl hb
  rw [← hcutoff] at hfit hout
  exact ⟨fit, out, hfit, hout⟩

end StatisticalE1Witness

open StatisticalE1Witness in
/-- The silent series: fitted at the last of its slots and forecast from it. -/
theorem silent_series_reproduced : ∃ comps fit out,
    fitE1 solvers id series 1209600 tenMinutes = .ok fit ∧
      forecastE1 fit series 1209600 (targetsAfter 1209600) tenMinutes =
        .ok out ∧
      SeasonalEnsemble.componentsAt
        (SeasonalEnsemble.fitsOf solvers.toSolvers) id grid
          (grid.index 1209600).toNat = .ok comps ∧
      comps.hw = out.hw.map some ∧
      comps.profileAr = out.profileAr.map some := by
  obtain ⟨fit, out, hfit, hout⟩ := fit_and_forecast
  obtain ⟨comps, hcomps, -, -, -, -, -, hhw, hpa, -⟩ :=
    e1_product_reproduces id gridded (by norm_num)
      (by rw [show series.start = 600 from rfl]; norm_num) le_rfl
      (by norm_num) hfit hout
  exact ⟨comps, fit, out, hfit, hout, hcomps, hhw, hpa⟩

end PredictiveAutoscaler.Forecasting.Statistical
