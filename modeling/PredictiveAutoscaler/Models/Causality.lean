/-
The forecasts are causal: what a forecaster makes of a grid at an index is the
same on every grid that agrees with it up to that index.  So each past forecast
that the margin recomputes is the one that was made at its own tick.
-/
import PredictiveAutoscaler.ListTraversal
import PredictiveAutoscaler.Models.RelativeProfileAr

namespace PredictiveAutoscaler.Models

open ListTraversal SeasonalEnsemble

/-- Two grids with the same start that hold the same values up to an index of
both; whatever follows may differ, their lengths too. -/
structure Agree (j : ℕ) (g g' : Grid) : Prop where
  start : g.t0 = g'.t0
  within : j < g.size
  within' : j < g'.size
  same : ∀ i ≤ j, g.y i = g'.y i

namespace Agree

variable {j : ℕ} {g g' : Grid}

theorem symm (h : Agree j g g') : Agree j g' g :=
  ⟨h.start.symm, h.within', h.within, fun i hi => (h.same i hi).symm⟩

theorem mono {i : ℕ} (h : Agree j g g') (hi : i ≤ j) : Agree i g g' :=
  ⟨h.start, hi.trans_lt h.within, hi.trans_lt h.within',
    fun k hk => h.same k (hk.trans hi)⟩

theorem at?_eq (h : Agree j g g') {i : ℕ} (hi : i ≤ j) : g.at? i = g'.at? i := by
  unfold Grid.at?
  rw [h.same i hi]

theorem filled_eq (h : Agree j g g') {i : ℕ} (hi : i ≤ j) :
    g.filled i = g'.filled i := by
  induction i with
  | zero => exact h.at?_eq hi
  | succ i ih =>
      unfold Grid.filled
      rw [h.at?_eq hi, ih (Nat.le_of_succ_le hi)]

theorem ts_eq (h : Agree j g g') (i : ℕ) : g.ts i = g'.ts i := by
  unfold Grid.ts
  rw [h.start]

theorem index_eq (h : Agree j g g') (t : ℤ) : g.index t = g'.index t := by
  unfold Grid.index
  rw [h.start]

/-- A slot up to a day ahead has its profile in what is known. -/
theorem profileAt_eq (h : Agree j g g') {i : ℤ} (hi : i ≤ j + season) :
    profileAt g i = profileAt g' i := by
  have hvalues : profileValues g i = profileValues g' i := by
    unfold profileValues
    refine List.filterMap_congr fun d hd => ?_
    have hday := List.mem_range'_1.mp hd
    have hback : i - season * d ≤ j := by
      have hseason : (0 : ℤ) ≤ season := Int.natCast_nonneg _
      nlinarith
    by_cases hk : 0 ≤ i - season * (d : ℤ)
    · have hin : i - season * (d : ℤ) < g.size := by
        have := h.within
        omega
      have hin' : i - season * (d : ℤ) < g'.size := by
        have := h.within'
        omega
      simp only [hk, hin, hin', and_self, if_true]
      exact h.at?_eq (by omega)
    · simp only [hk, false_and, if_false]
  unfold profileAt
  rw [hvalues]

theorem residual_eq (h : Agree j g g') {t : ℕ} (ht : t ≤ j) :
    residual g t = residual g' t := by
  unfold SeasonalEnsemble.residual
  rw [h.filled_eq ht, h.profileAt_eq (by omega)]

theorem map_filled_eq (h : Agree j g g') {lo n : ℕ} (hn : lo + n ≤ j + 1) :
    (List.range' lo n).map g.filled = (List.range' lo n).map g'.filled :=
  List.map_congr_left fun i hi => h.filled_eq (by
    have := (List.mem_range'_1.mp hi).2
    omega)

end Agree

/-- The rows depend on the residuals up to the boundary. -/
theorem arRows_congr {r r' : ℕ → Option ℚ} {b : ℕ} (h : ∀ t ≤ b, r t = r' t)
    (first : ℕ) :
    (List.range' first (b + 1 - first)).filterMap (arRow r) =
      (List.range' first (b + 1 - first)).filterMap (arRow r') := by
  refine List.filterMap_congr fun t ht => ?_
  have hle : t ≤ b := by
    have := (List.mem_range'_1.mp ht)
    omega
  unfold arRow
  rw [h t hle, h (t - 1) (by omega), h (t - 2) (by omega), h (t - 3) (by omega)]

/-- A boundary that is tried lies at or before the origin's time. -/
theorem usable_congr {G : Type} {f f' : ℤ → Except String G} {boundary : ℤ}
    (h : ∀ t ≤ boundary, f t = f' t) : usable f boundary = usable f' boundary := by
  have hattempt : ∀ backs errors,
      usable.attempt f boundary errors backs =
        usable.attempt f' boundary errors backs := by
    intro backs
    induction backs with
    | nil => intro errors; rfl
    | cons back rest ih =>
        intro errors
        have htried : boundary - back * refitSeconds ≤ boundary := by
          have hrefit : (0 : ℤ) ≤ refitSeconds := by decide
          have hback : (0 : ℤ) ≤ back := Int.natCast_nonneg _
          nlinarith
        simp only [usable.attempt, h _ htried]
        cases f' (boundary - back * refitSeconds) with
        | ok gen => rfl
        | error e => exact ih _
  exact hattempt _ _

theorem boundaryOf_le (ts : ℤ) : boundaryOf ts ≤ ts := by
  unfold boundaryOf
  have := Int.emod_nonneg ts (b := refitSeconds) (by decide)
  omega

/-- The index of a time at or before that of `j`. -/
theorem index_le {g : Grid} {j : ℕ} {t : ℤ} (ht : t ≤ g.ts j) :
    g.index t ≤ j := by
  have hslot : (0 : ℤ) < slotSeconds := by decide
  unfold Grid.index
  unfold Grid.ts at ht
  refine Int.ediv_le_of_le_mul hslot ?_
  linarith

namespace Agree

variable {j : ℕ} {g g' : Grid}

section Ensemble

variable {Digest : Type} (fits : Fits) (sha256 : List UInt8 → Digest)

theorem fitAt_eq (h : Agree j g g') (boundaryTs : ℤ) :
    fitAt fits sha256 g boundaryTs j = fitAt fits sha256 g' boundaryTs j := by
  have hwindow : hwWindow g j = hwWindow g' j :=
    h.map_filled_eq (by unfold hwLo; omega)
  have htrain : train g j = train g' j := by
    unfold train
    rw [hwindow]
  have har : fitAr fits (residual g) j = fitAr fits (residual g') j := by
    unfold fitAr arRows
    simp only [arRows_congr fun t ht => h.residual_eq ht]
  have hprint : fingerprinted g boundaryTs j =
      fingerprinted g' boundaryTs j := by
    have hbytes : ∀ lo, (List.range' lo (j + 1 - lo)).flatMap
        (fun i => (g.y i).bytes) =
          (List.range' lo (j + 1 - lo)).flatMap fun i => (g'.y i).bytes := by
      refine fun lo => List.flatMap_congr fun i hi => ?_
      have hrange := List.mem_range'_1.mp hi
      rw [h.same i (by omega)]
    unfold fingerprinted
    simp only [h.ts_eq, hbytes]
  unfold fitAt
  rw [hwindow, htrain, har, hprint, h.ts_eq]

theorem generationFor_eq (h : Agree j g g') {boundaryTs : ℤ}
    (hb : boundaryTs ≤ g.ts j) :
    generationFor fits sha256 g boundaryTs =
      generationFor fits sha256 g' boundaryTs := by
  have hindex := index_le hb
  have hin := h.within
  have hin' := h.within'
  by_cases hneg : g.index boundaryTs < 0
  · have hneg' : g'.index boundaryTs < 0 := h.index_eq boundaryTs ▸ hneg
    unfold generationFor boundaryIndex
    simp only [hneg, hneg', true_or, if_true]
  · have hagree := h.mono (i := (g.index boundaryTs).toNat) (by omega)
    have htrain : train g (g.index boundaryTs).toNat =
        train g' (g.index boundaryTs).toNat := by
      unfold train hwWindow
      rw [hagree.map_filled_eq (by unfold hwLo; omega)]
    have hok : ¬(g.index boundaryTs < 0 ∨ g.size ≤ g.index boundaryTs) := by
      omega
    have hok' : ¬(g.index boundaryTs < 0 ∨ g'.size ≤ g.index boundaryTs) := by
      omega
    unfold generationFor boundaryIndex
    rw [← h.index_eq boundaryTs]
    simp only [hok, hok', if_false, htrain]
    split
    · rfl
    · rename_i b hb
      split at hb
      · cases hb
      · cases hb
        exact hagree.fitAt_eq fits sha256 boundaryTs

theorem hwForecast_eq (h : Agree j g g') (hw : HWFit) (b : ℕ) :
    hwForecast g hw b j = hwForecast g' hw b j := by
  have hsince : (List.range' (b + 1) (j - b)).map g.filled =
      (List.range' (b + 1) (j - b)).map g'.filled := by
    by_cases hbj : b ≤ j
    · exact h.map_filled_eq (by omega)
    · rw [Nat.sub_eq_zero_of_le (by omega)]
      rfl
  unfold hwForecast
  rw [hsince]

theorem histAt_eq (h : Agree j g g') {t : ℤ} (ht : t ≤ j) :
    histAt g t = histAt g' t := by
  unfold histAt
  by_cases hpos : 0 ≤ t
  · simp only [hpos, if_true]
    exact h.residual_eq (by omega)
  · simp only [hpos, if_false]

/-- The target of a step lies within a day. -/
theorem step_le {s : ℕ} (hs : s ∈ List.range' 1 steps) :
    (j : ℤ) + s ≤ j + season := by
  have hlt := (List.mem_range'_1.mp hs).2
  have hday : 1 + steps ≤ season := by decide
  omega

theorem targetProfiles_eq (h : Agree j g g') :
    targetProfiles g j = targetProfiles g' j :=
  List.map_congr_left fun _ hs => h.profileAt_eq (step_le hs)

theorem profileForecast_eq (h : Agree j g g') (coef : List ℚ) :
    profileForecast g coef j = profileForecast g' coef j := by
  unfold profileForecast
  rw [h.histAt_eq le_rfl, h.histAt_eq (by omega), h.histAt_eq (by omega),
    h.targetProfiles_eq]

theorem componentsAt_eq (h : Agree j g g') :
    componentsAt fits sha256 g j = componentsAt fits sha256 g' j := by
  have husable : usable (generationFor fits sha256 g) (boundaryOf (g.ts j)) =
      usable (generationFor fits sha256 g') (boundaryOf (g'.ts j)) := by
    rw [← h.ts_eq]
    exact usable_congr fun t ht =>
      h.generationFor_eq fits sha256 (ht.trans (boundaryOf_le _))
  unfold componentsAt
  rw [husable]
  split
  · rfl
  · simp only [h.index_eq, h.hwForecast_eq, h.profileForecast_eq]

end Ensemble

section Relative

open RelativeProfileAr

variable {Digest : Type} (lstsq : Lstsq) (sha256 : List UInt8 → Digest)

theorem relativeResidual_eq (h : Agree j g g') {t : ℕ} (ht : t ≤ j) :
    relativeResidual g t = relativeResidual g' t := by
  unfold relativeResidual
  rw [h.filled_eq ht, h.profileAt_eq (by omega)]

theorem fitGeneration_eq (h : Agree j g g') :
    fitGeneration lstsq (relativeResidual g) j =
      fitGeneration lstsq (relativeResidual g') j := by
  have hrows : trainingRows (relativeResidual g) j =
      trainingRows (relativeResidual g') j := by
    have hclipped : ∀ t ≤ j, clippedResidual (relativeResidual g) j t =
        clippedResidual (relativeResidual g') j t := by
      intro t ht
      unfold clippedResidual
      rw [h.relativeResidual_eq ht]
    exact arRows_congr hclipped (max arOrder (windowLo j + arOrder))
  unfold fitGeneration
  rw [hrows]

theorem relativeFingerprinted_eq (h : Agree j g g') (boundaryTs : ℤ) :
    RelativeProfileAr.fingerprinted g boundaryTs j =
      RelativeProfileAr.fingerprinted g' boundaryTs j := by
  have hbytes : ∀ lo, (List.range' lo (j + 1 - lo)).flatMap
      (fun i => (g.y i).bytes) =
        (List.range' lo (j + 1 - lo)).flatMap fun i => (g'.y i).bytes := by
    refine fun lo => List.flatMap_congr fun i hi => ?_
    have hrange := List.mem_range'_1.mp hi
    rw [h.same i (by omega)]
  unfold RelativeProfileAr.fingerprinted
  simp only [h.ts_eq, hbytes]

theorem relativeGenerationFor_eq (h : Agree j g g') {boundaryTs : ℤ}
    (hb : boundaryTs ≤ g.ts j) :
    RelativeProfileAr.generationFor lstsq sha256 g boundaryTs =
      RelativeProfileAr.generationFor lstsq sha256 g' boundaryTs := by
  have hindex := index_le hb
  have hin := h.within
  have hin' := h.within'
  unfold RelativeProfileAr.generationFor
  rw [← h.index_eq boundaryTs]
  by_cases hneg : g.index boundaryTs < 0
  · simp only [hneg, true_or, if_true]
  · have hagree := h.mono (i := (g.index boundaryTs).toNat) (by omega)
    have hok : ¬(g.index boundaryTs < 0 ∨ g.size ≤ g.index boundaryTs) := by
      omega
    have hok' : ¬(g.index boundaryTs < 0 ∨ g'.size ≤ g.index boundaryTs) := by
      omega
    simp only [hok, hok', if_false, hagree.fitGeneration_eq,
      hagree.relativeFingerprinted_eq, h.ts_eq]

theorem seedAt_eq (h : Agree j g g') {t : ℤ} (ht : t ≤ j) :
    seedAt g t = seedAt g' t := by
  unfold seedAt
  by_cases hpos : 0 ≤ t
  · simp only [hpos, if_true]
    exact h.relativeResidual_eq (by omega)
  · simp only [hpos, if_false]

theorem rawAt_eq (h : Agree j g g') :
    rawAt lstsq sha256 g j = rawAt lstsq sha256 g' j := by
  have husable : usable (RelativeProfileAr.generationFor lstsq sha256 g)
      (boundaryOf (g.ts j)) =
        usable (RelativeProfileAr.generationFor lstsq sha256 g')
          (boundaryOf (g'.ts j)) := by
    rw [← h.ts_eq]
    exact usable_congr fun t ht =>
      h.relativeGenerationFor_eq lstsq sha256 (ht.trans (boundaryOf_le _))
  unfold rawAt
  rw [husable, h.seedAt_eq le_rfl, h.seedAt_eq (by omega),
    h.seedAt_eq (by omega), h.targetProfiles_eq]

end Relative

end Agree

/-- The forecasts whose past errors make a margin: the ensemble's, under either
partial rule, and the relative-residual forecaster's. -/
inductive Forecaster
  | ensemble
  | ensembleFinite
  | relative
deriving DecidableEq, Repr

section Margins

variable {Digest : Type} (fits : Fits) (sha256 : List UInt8 → Digest)

/-- What a forecaster makes of a grid at an index. -/
def Forecaster.rawFn : Forecaster → RawFn
  | .ensemble => fun g j => (componentsAt fits sha256 g j).map Components.raw
  | .ensembleFinite => fun g j =>
      (componentsAt fits sha256 g j).map Components.rawFinite
  | .relative => RelativeProfileAr.rawFn fits.lstsq sha256

variable {j : ℕ} {g g' : Grid}

theorem Agree.rawFn_eq (h : Agree j g g') (f : Forecaster) :
    f.rawFn fits sha256 g j = f.rawFn fits sha256 g' j := by
  cases f with
  | ensemble =>
      exact congrArg (Except.map Components.raw) (h.componentsAt_eq fits sha256)
  | ensembleFinite =>
      exact congrArg (Except.map Components.rawFinite)
        (h.componentsAt_eq fits sha256)
  | relative =>
      exact congrArg (Except.map RelativeProfileAr.Raw.raw)
        (h.rawAt_eq fits.lstsq sha256)

/-- The outcomes of a tick that counts are there at the origin. -/
theorem mem_marginTicks {origin i : ℕ} (h : i ∈ marginTicks origin) :
    i + 2 ≤ origin := by
  have hrange := List.mem_range'_1.mp h
  omega

theorem Agree.marginAt_eq (h : Agree j g g') (f : Forecaster) (lead q : ℚ)
    (mode : MarginMode) :
    marginAt (f.rawFn fits sha256) g j lead q mode =
      marginAt (f.rawFn fits sha256) g' j lead q mode := by
  have hsamples : marginSamples (f.rawFn fits sha256) g mode j =
      marginSamples (f.rawFn fits sha256) g' mode j := by
    refine List.filterMap_congr fun i hi => ?_
    have htick := mem_marginTicks hi
    unfold sampleAt
    rw [h.at?_eq (by omega), h.at?_eq (by omega), h.at?_eq (by omega),
      (h.mono (by omega)).rawFn_eq]
  unfold marginAt
  rw [hsamples]

/-- The ensemble and the relative-residual forecaster are causal, and so are
their margins: each sample is the error of the forecast that any grid ending
at its tick gives, against outcomes no later than the origin. -/
theorem forecasts_causal (h : Agree j g g') :
    componentsAt fits sha256 g j = componentsAt fits sha256 g' j ∧
      RelativeProfileAr.rawAt fits.lstsq sha256 g j =
        RelativeProfileAr.rawAt fits.lstsq sha256 g' j ∧
      ∀ f : Forecaster,
        (∀ lead q mode, marginAt (f.rawFn fits sha256) g j lead q mode =
          marginAt (f.rawFn fits sha256) g' j lead q mode) ∧
        ∀ mode, ∀ i ∈ marginTicks j, i + 2 ≤ j ∧
          ∀ past, Agree i g past →
            sampleAt (f.rawFn fits sha256) g mode i =
              sampleOf mode (past.at? i) (g'.at? (i + 1)) (g'.at? (i + 2))
                (f.rawFn fits sha256 past i) := by
  refine ⟨h.componentsAt_eq fits sha256, h.rawAt_eq fits.lstsq sha256,
    fun f => ⟨fun lead q mode => h.marginAt_eq fits sha256 f lead q mode,
      fun mode i hi => ?_⟩⟩
  have htick := mem_marginTicks hi
  refine ⟨htick, fun past hpast => ?_⟩
  unfold sampleAt
  rw [hpast.at?_eq le_rfl, h.at?_eq (by omega), h.at?_eq (by omega),
    hpast.rawFn_eq]

end Margins

namespace CausalityWitness

/-- Two weeks and two slots, all 0 but for the first three: a value before the
history, the first slot of it and an empty one. -/
def grid (before first : Double) : Grid where
  t0 := 21000
  size := 2018
  y := fun i =>
    if i = 0 then before
    else if i = 1 then first
    else if i = 2 then 0x7FF8000000000000 else 0

/-- Solvers that keep the first value of the window. -/
def fits : Fits where
  fitHw := fun values =>
    .ok ⟨0, 0, 0, values.headD 0, 0, [], values.headD 0, 0, [], 0,
      values.length, 0, ""⟩
  lstsq := fun _ _ => .ok [some 0, some 0, some 0, some 0]

variable (before first : Double)

theorem at?_grid {i : ℕ} (hi : 3 ≤ i) : (grid before first).at? i = some 0 := by
  have hy : (grid before first).y i = 0 := by
    unfold grid
    simp only [show i ≠ 0 by omega, show i ≠ 1 by omega, show i ≠ 2 by omega,
      if_false]
  unfold Grid.at?
  rw [hy]
  decide +kernel

theorem filled_grid {i : ℕ} (hi : 3 ≤ i) :
    (grid before first).filled i = some 0 := by
  rw [filled_or, at?_grid before first hi, Option.some_or]

theorem at?_grid_two : (grid before first).at? 2 = none := by
  have hy : (grid before first).y 2 = 0x7FF8000000000000 := by
    simp [grid]
  unfold Grid.at?
  rw [hy]
  decide +kernel

/-- A profile of the last week is that of zeros. -/
theorem profileAt_grid {i : ℕ} (hi : 1010 ≤ i) (hin : i < 2018) :
    profileAt (grid before first) i = some 0 := by
  have hday : (season : ℤ) = 144 := rfl
  have hzero : ∀ x ∈ profileValues (grid before first) i, x = 0 := by
    intro x hx
    obtain ⟨d, hd, hread⟩ := List.mem_filterMap.mp hx
    have hdays : d < 8 := (List.mem_range'_1.mp hd).2
    rw [show (i : ℤ) - season * d = (i - 144 * d : ℕ) by rw [hday]; omega]
      at hread
    dsimp only at hread
    split at hread
    · rw [Int.toNat_natCast] at hread
      rcases (show 2 ≤ i - 144 * d by omega).eq_or_lt with htwo | hlater
      · rw [← htwo, at?_grid_two] at hread
        cases hread
      · rw [at?_grid before first hlater] at hread
        exact (Option.some.inj hread).symm
    · cases hread
  have hsome : (0 : ℚ) ∈ profileValues (grid before first) i := by
    refine List.mem_filterMap.mpr ⟨1, by decide, ?_⟩
    have hsize : i - 144 < (grid before first).size :=
      (Nat.sub_le _ _).trans_lt hin
    rw [show (i : ℤ) - season * (1 : ℕ) = (i - 144 : ℕ) by rw [hday]; omega]
    simp only [Int.natCast_nonneg, Int.ofNat_lt, hsize, and_self, if_true,
      Int.toNat_natCast]
    exact at?_grid before first (by omega)
  unfold profileAt
  split
  · rename_i hnil
    rw [hnil] at hsome
    cases hsome
  · unfold mean
    rw [List.sum_eq_zero hzero, zero_div]

theorem residual_grid {i : ℕ} (hi : 1010 ≤ i) (hin : i < 2018) :
    residual (grid before first) i = some 0 := by
  unfold SeasonalEnsemble.residual
  rw [profileAt_grid before first hi hin, filled_grid before first (by omega)]
  exact congrArg some (sub_self 0)

theorem arRow_eq_some {r : ℕ → Option ℚ} {t : ℕ} {x : ℚ}
    (h : ∀ i, t - 3 ≤ i → i ≤ t → r i = some x) :
    arRow r t = some ([1, x, x, x], x) := by
  unfold arRow
  rw [h t (Nat.sub_le _ _) le_rfl, h (t - 1) (by omega) (by omega),
    h (t - 2) (by omega) (by omega), h (t - 3) (by omega) (by omega)]

theorem fitAr_grid : fitAr fits (residual (grid before first)) 2017 =
    .ok ([0, 0, 0, 0], 1005) := by
  have hrow : ∀ t ∈ List.range' 1013 1005,
      arRow (residual (grid before first)) t =
        some ([1, 0, 0, 0], 0) := by
    intro t ht
    have hrange := List.mem_range'_1.mp ht
    refine arRow_eq_some fun i hi hle => ?_
    exact residual_grid before first (by omega) (by omega)
  have hrows : arRows (residual (grid before first)) 2017 =
      (List.range' 1013 1005).map fun _ => ([1, 0, 0, 0], 0) := by
    rw [← List.filterMap_eq_map]
    exact List.filterMap_congr hrow
  unfold fitAr
  dsimp only
  rw [hrows, List.length_map, List.length_range']
  rfl

variable {before first} {x : ℚ}

theorem train_grid (hx : (grid before first).filled 2 = some x) :
    train (grid before first) 2017 = (x :: List.replicate 2015 0).map some := by
  have hlater : (List.range' 3 2015).map (grid before first).filled =
      List.replicate 2015 (some 0) := by
    refine List.eq_replicate_iff.mpr ⟨?_, ?_⟩
    · rw [List.length_map, List.length_range']
    · intro o ho
      obtain ⟨i, hi, rfl⟩ := List.mem_map.mp ho
      exact filled_grid before first (List.mem_range'_1.mp hi).1
  have hwindow : hwWindow (grid before first) 2017 =
      some x :: List.replicate 2015 (some 0) := by
    rw [← hlater, ← hx]
    rfl
  unfold train
  rw [hwindow, List.map_cons, List.map_replicate]
  rfl

theorem at?_first (before : Double) : (grid before 0).at? 1 = some 0 := by
  have hy : (grid before 0).y 1 = 0 := by
    simp [grid]
  unfold Grid.at?
  rw [hy]
  decide +kernel

theorem filled_first (before : Double) :
    (grid before 0).filled 2 = some 0 := by
  unfold Grid.filled
  rw [at?_grid_two, Option.none_or, filled_or, at?_first, Option.some_or]

theorem index_grid : (grid before first).index 1231200 = 2017 := by
  unfold Grid.index grid slotSeconds
  norm_num

theorem boundaryIndex_grid (hx : (grid before first).filled 2 = some x) :
    boundaryIndex (grid before first) 1231200 = .ok 2017 := by
  have hin : ¬((2017 : ℤ) < 0 ∨ ((grid before first).size : ℤ) ≤ 2017) := by
    unfold grid
    norm_num
  unfold boundaryIndex
  dsimp only
  rw [index_grid, if_neg hin, show (2017 : ℤ).toNat = 2017 from rfl, train_grid hx,
    if_neg (by rw [List.map_cons]; exact List.cons_ne_nil _ _)]

theorem fitAt_grid (hx : (grid before first).filled 2 = some x) :
    ∃ gen, fitAt fits id (grid before first) 1231200 2017 = .ok gen ∧
      gen.hw.level0 = x ∧ gen.boundaryTs = 1231200 ∧
      (gen.hw.level, gen.hw.trend, gen.hw.season) = (x, 0, []) := by
  unfold fitAt
  rw [train_grid hx, mapM_id_map_some, fitAr_grid]
  exact ⟨_, rfl, rfl, rfl, rfl⟩

/-- Without a trend and a season the forecast stays at the level. -/
theorem hwForecast_flat {g : Grid} {hw : HWFit} {b : ℕ} {x : ℚ}
    (h : (hw.level, hw.trend, hw.season) = (x, 0, [])) :
    hwForecast g hw b b = List.replicate steps (some x) := by
  obtain ⟨hlevel, hrest⟩ := Prod.mk.inj h
  obtain ⟨htrend, hseason⟩ := Prod.mk.inj hrest
  have hsince : (List.range' (b + 1) (b - b)).map g.filled = [] := by
    rw [Nat.sub_self]
    rfl
  unfold hwForecast
  rw [hsince, hlevel, htrend, hseason]
  refine List.eq_replicate_iff.mpr ⟨rfl, fun o ho => ?_⟩
  obtain ⟨s, -, rfl⟩ := List.mem_map.mp ho
  simp

/-- The components at the last slot: the Holt-Winters forecast stays at the
level of the fit. -/
theorem componentsAt_grid (hx : (grid before first).filled 2 = some x) :
    ∃ c, componentsAt fits id (grid before first) 2017 = .ok c ∧
      c.hw = List.replicate steps (some x) ∧ c.staleGeneration = false := by
  obtain ⟨gen, hfit, -, hboundary, hstate⟩ := fitAt_grid hx
  have hgen : generationFor fits id (grid before first) 1231200 = .ok gen := by
    unfold generationFor
    rw [boundaryIndex_grid hx]
    exact hfit
  have horigin : boundaryOf ((grid before first).ts 2017) = 1231200 := by
    unfold boundaryOf Grid.ts grid slotSeconds refitSeconds
    norm_num
  have husable : usable (generationFor fits id (grid before first)) 1231200 =
      .ok (gen, false) := by
    unfold usable
    rw [show List.range (staleGenerations + 1) = [0, 1] from rfl]
    simp only [usable.attempt, Nat.cast_zero, zero_mul, sub_zero, hgen,
      lt_irrefl, decide_false]
  have hindex : ((grid before first).index gen.boundaryTs).toNat = 2017 := by
    rw [hboundary, index_grid]
    rfl
  unfold componentsAt
  rw [horigin, husable]
  refine ⟨_, rfl, ?_, rfl⟩
  simp only [hindex]
  exact hwForecast_flat hstate

/-- Another grid with a later observation. -/
def longer (later : Double) : Grid :=
  { grid 0 0x3FF0000000000000 with
    size := 2019
    y := fun i =>
      if i = 2018 then later else (grid 0 0x3FF0000000000000).y i }

/-- The ensemble makes the same forecast of a grid that goes on. -/
theorem agree_before_later :
    Agree 2017 (grid 0 0x3FF0000000000000) (longer 0x4000000000000000) ∧
      ∃ c, componentsAt fits id (grid 0 0x3FF0000000000000) 2017 = .ok c ∧
        c.hw = List.replicate steps (some 1) ∧
        componentsAt fits id (longer 0x4000000000000000) 2017 = .ok c := by
  have hagree : Agree 2017 (grid 0 0x3FF0000000000000)
      (longer 0x4000000000000000) := by
    refine ⟨rfl, by decide, by decide, fun i hi => ?_⟩
    have hlater : i ≠ 2018 := by omega
    simp only [longer, hlater, if_false]
  have hfilled : (grid 0 0x3FF0000000000000).filled 2 = some 1 := by
    decide +kernel
  obtain ⟨c, hc, hhw, -⟩ := componentsAt_grid hfilled
  exact ⟨hagree, c, hc, hhw,
    (forecasts_causal fits id hagree).1.symm.trans hc⟩

end CausalityWitness

end PredictiveAutoscaler.Models
