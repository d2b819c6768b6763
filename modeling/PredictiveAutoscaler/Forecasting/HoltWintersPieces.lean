/-
Advancing Holt-Winters in pieces.  The season that is updated in place is a
queue of the states of the coming slots, so a run over some observations and
then over more of them is the run over all, and what the state serves for a
later slot is that slot's seasonal state.
-/
import PredictiveAutoscaler.Forecasting.Statistical
import PredictiveAutoscaler.RingQueue

namespace PredictiveAutoscaler.Forecasting.Statistical

open Models SeasonalEnsemble RingQueue

/-- A run's state with the season from the next slot on. -/
structure HwQueue where
  level : ℚ
  trend : ℚ
  sse : ℚ
  season : List ℚ

/-- One observation: its slot's state is the head, the new one goes to the
end. -/
def HwQueue.observe (alpha beta gamma : ℚ) (q : HwQueue) (obs : ℚ) :
    HwQueue :=
  let sp := q.season.headD 0
  let lNew := alpha * (obs - sp) + (1 - alpha) * (q.level + q.trend)
  let err := obs - (q.level + q.trend + sp)
  { level := lNew
    trend := beta * (lNew - q.level) + (1 - beta) * q.trend
    sse := q.sse + err * err
    season := push q.season
      (gamma * (obs - q.level - q.trend) + (1 - gamma) * sp) }

/-- A loop of the source, read as a queue. -/
def queueOf (loop : HwLoop) : HwQueue :=
  ⟨loop.level, loop.trend, loop.sse, fromPlace loop.s loop.pos⟩

section Queue

variable (alpha beta gamma : ℚ)

theorem queueOf_hwStep {loop : HwLoop} (h : Place loop.s loop.pos) (obs : ℚ) :
    queueOf (hwStep loop.s.length alpha beta gamma loop obs) =
        (queueOf loop).observe alpha beta gamma obs ∧
      Place (hwStep loop.s.length alpha beta gamma loop obs).s
        (hwStep loop.s.length alpha beta gamma loop obs).pos ∧
      (hwStep loop.s.length alpha beta gamma loop obs).s.length =
        loop.s.length := by
  have hhead : loop.s.getD loop.pos 0 = (fromPlace loop.s loop.pos).headD 0 :=
    (h.headD 0).symm
  refine ⟨?_, h.set _, List.length_set ..⟩
  simp only [queueOf, HwQueue.observe, hwStep, hhead]
  rw [← h.fromPlace_set]
  rfl

theorem queueOf_foldl {loop : HwLoop} (h : Place loop.s loop.pos)
    (y : List ℚ) :
    queueOf (y.foldl (hwStep loop.s.length alpha beta gamma) loop) =
      y.foldl (HwQueue.observe alpha beta gamma) (queueOf loop) := by
  induction y generalizing loop with
  | nil => rfl
  | cons obs rest ih =>
      obtain ⟨hqueue, hplace, hlength⟩ :=
        queueOf_hwStep alpha beta gamma h obs
      have hrest := ih hplace
      rw [hlength] at hrest
      rw [List.foldl_cons, List.foldl_cons, hrest, hqueue]

/-- `hw_run` is a run of the queue. -/
theorem hwRun_eq_queue (y : List ℚ) (level trend : ℚ) (season : List ℚ) :
    hwRun y alpha beta gamma level trend season =
      let q := y.foldl (HwQueue.observe alpha beta gamma)
        ⟨level, trend, 0, season⟩
      (q.sse, q.level, q.trend, q.season) := by
  have hrun := @queueOf_foldl alpha beta gamma ⟨season, 0, level, trend, 0⟩
    (place_zero season) y
  have hstart : queueOf ⟨season, 0, level, trend, 0⟩ =
      ⟨level, trend, 0, season⟩ := by
    simp [queueOf]
  rw [hstart] at hrun
  rw [← hrun]
  rfl

/-- The squared error so far is added to. -/
theorem foldl_observe_sse (y : List ℚ) (q : HwQueue) (sse : ℚ) :
    y.foldl (HwQueue.observe alpha beta gamma)
        { q with sse := sse + q.sse } =
      { y.foldl (HwQueue.observe alpha beta gamma) q with
        sse := sse +
          (y.foldl (HwQueue.observe alpha beta gamma) q).sse } := by
  induction y generalizing q with
  | nil => rfl
  | cons obs rest ih =>
      rw [List.foldl_cons, List.foldl_cons, ← ih]
      congr 1
      simp only [HwQueue.observe, HwQueue.mk.injEq, true_and, and_true]
      ring

/-- A run over two lists is the run over the second from where the first
ended. -/
theorem hwRun_append (y₁ y₂ : List ℚ) (level trend : ℚ) (season : List ℚ) :
    hwRun (y₁ ++ y₂) alpha beta gamma level trend season =
      let (sse₁, level₁, trend₁, season₁) :=
        hwRun y₁ alpha beta gamma level trend season
      let (sse₂, level₂, trend₂, season₂) :=
        hwRun y₂ alpha beta gamma level₁ trend₁ season₁
      (sse₁ + sse₂, level₂, trend₂, season₂) := by
  simp only [hwRun_eq_queue, List.foldl_append]
  generalize y₁.foldl (HwQueue.observe alpha beta gamma)
    ⟨level, trend, 0, season⟩ = q
  have hsse := foldl_observe_sse alpha beta gamma y₂
    ⟨q.level, q.trend, 0, q.season⟩ q.sse
  have hq : (⟨q.level, q.trend, q.sse + 0, q.season⟩ : HwQueue) = q := by
    rw [add_zero]
  dsimp only at hsse
  rw [hq] at hsse
  rw [hsse]

end Queue

/-- A run by the numbers of the slots: the slot of the next observation and
the seasonal state of every slot. -/
structure SlotRun where
  slot : ℕ
  level : ℚ
  trend : ℚ
  season : ℕ → ℚ

/-- The slots before the first observation. -/
def SlotRun.start (level trend : ℚ) (season : List ℚ) : SlotRun :=
  ⟨0, level, trend, fun j => season.getD (j % season.length) 0⟩

/-- One observation renews the state of its slot, and of all slots whole
seasons apart. -/
def SlotRun.observe (m : ℕ) (alpha beta gamma : ℚ) (r : SlotRun) (obs : ℚ) :
    SlotRun :=
  let sp := r.season r.slot
  let lNew := alpha * (obs - sp) + (1 - alpha) * (r.level + r.trend)
  { slot := r.slot + 1
    level := lNew
    trend := beta * (lNew - r.level) + (1 - beta) * r.trend
    season := renew m r.slot
      (gamma * (obs - r.level - r.trend) + (1 - gamma) * sp) r.season }

/-- The run over a list of observations, slot by slot. -/
def slotRun (y : List ℚ) (alpha beta gamma level trend : ℚ)
    (season : List ℚ) : SlotRun :=
  y.foldl (SlotRun.observe season.length alpha beta gamma)
    (.start level trend season)

/-- The queue serves the slots of a run. -/
structure HwQueue.Follows (q : HwQueue) (r : SlotRun) : Prop where
  level : q.level = r.level
  trend : q.trend = r.trend
  season : Serves q.season r.slot r.season

theorem HwQueue.Follows.observe {q : HwQueue} {r : SlotRun} (h : q.Follows r)
    (alpha beta gamma obs : ℚ) :
    (q.observe alpha beta gamma obs).Follows
        (r.observe q.season.length alpha beta gamma obs) ∧
      (q.observe alpha beta gamma obs).season.length = q.season.length := by
  obtain ⟨level, trend, sse, season⟩ := q
  obtain ⟨hlevel, htrend, hserves⟩ := h
  dsimp only at hlevel htrend hserves
  subst hlevel htrend
  have hhead : season.headD 0 = r.season r.slot := hserves.headD 0
  simp only [HwQueue.observe, SlotRun.observe, hhead]
  exact ⟨⟨rfl, rfl, hserves.push _⟩, length_push _ _⟩

theorem HwQueue.Follows.foldl {q : HwQueue} {r : SlotRun} (h : q.Follows r)
    (alpha beta gamma : ℚ) (y : List ℚ) :
    (y.foldl (HwQueue.observe alpha beta gamma) q).Follows
        (y.foldl (SlotRun.observe q.season.length alpha beta gamma) r) ∧
      (y.foldl (HwQueue.observe alpha beta gamma) q).season.length =
        q.season.length := by
  induction y generalizing q r with
  | nil => exact ⟨h, rfl⟩
  | cons obs rest ih =>
      obtain ⟨hnext, hlength⟩ := h.observe alpha beta gamma obs
      have hrest := ih hnext
      rw [hlength] at hrest
      exact hrest

theorem slotRun_slot (y : List ℚ) (alpha beta gamma level trend : ℚ)
    (season : List ℚ) :
    (slotRun y alpha beta gamma level trend season).slot = y.length := by
  unfold slotRun
  induction y using List.reverseRecOn with
  | nil => rfl
  | append_singleton y obs ih =>
      rw [List.foldl_append, List.foldl_cons, List.foldl_nil,
        List.length_append, ← ih]
      rfl

/-- A run's level and trend are those of its slots, and its season holds the
state of every slot after it. -/
theorem hwRun_slots (y : List ℚ) (alpha beta gamma level trend : ℚ)
    {season : List ℚ} (hseason : season ≠ []) :
    let (_, level', trend', season') :=
      hwRun y alpha beta gamma level trend season
    let run := slotRun y alpha beta gamma level trend season
    level' = run.level ∧ trend' = run.trend ∧
      season'.length = season.length ∧
      ∀ j, season'.getD (j % season.length) 0 =
        run.season (y.length + j) := by
  have hstart : (⟨level, trend, 0, season⟩ : HwQueue).Follows
      (.start level trend season) :=
    ⟨rfl, rfl, serves_start (List.length_pos_iff.mpr hseason) 0⟩
  obtain ⟨hfollows, hlength⟩ := hstart.foldl alpha beta gamma y
  have hslot := slotRun_slot y alpha beta gamma level trend season
  simp only [hwRun_eq_queue]
  refine ⟨hfollows.level, hfollows.trend, hlength, fun j => ?_⟩
  have hserved := hfollows.season.getD j 0
  rw [hlength] at hserved
  rw [hserved, ← hslot]
  rfl

section Advance

variable {Digest : Type}

/-- The fit with its state advanced through the observations up to a later
grid time. -/
def E1Fit.advanceTo (series : Series) (dt : ℤ) (fit : E1Fit Digest)
    (stop : ℤ) : Option (E1Fit Digest) :=
  if fit.cutoff ≤ stop ∧ dt ∣ stop - fit.cutoff then
    ((timeRange (fit.cutoff + dt) (stop + 1) dt).mapM series.at?).map
      fun since =>
        let h := fit.hw
        let (_, level, trend, season) :=
          hwRun since h.alpha h.beta h.gamma h.level h.trend h.season
        { fit with cutoff := stop, hw := { h with level, trend, season } }
  else none

/-- The fit advanced to one stop after the other. -/
def E1Fit.advanceThrough (series : Series) (dt : ℤ) (fit : E1Fit Digest)
    (stops : List ℤ) : Option (E1Fit Digest) :=
  stops.foldlM (E1Fit.advanceTo series dt) fit

theorem advanceTo_forecast {series : Series} {ks : KernelSettings}
    {fit fit' : E1Fit Digest} {stop : ℤ} (hdt : 0 < ks.intervalSeconds)
    (h : fit.advanceTo series ks.intervalSeconds stop = some fit') :
    fit'.cutoff = stop ∧ ∀ inputEnd targets, stop ≤ inputEnd →
      forecastE1 fit' series inputEnd targets ks =
        forecastE1 fit series inputEnd targets ks := by
  unfold E1Fit.advanceTo at h
  split at h
  swap
  · cases h
  rename_i hstop
  obtain ⟨since, hsince, rfl⟩ := Option.map_eq_some_iff.mp h
  refine ⟨rfl, fun inputEnd targets hend => ?_⟩
  have hdt' : (0 : ℤ) < ks.intervalSeconds := Int.natCast_pos.mpr hdt
  have hgrid : (inputEnd - stop) % (ks.intervalSeconds : ℤ) = 0 ↔
      (inputEnd - fit.cutoff) % (ks.intervalSeconds : ℤ) = 0 := by
    rw [← Int.dvd_iff_emod_eq_zero, ← Int.dvd_iff_emod_eq_zero,
      show inputEnd - fit.cutoff = inputEnd - stop + (stop - fit.cutoff) by
        ring, Int.dvd_add_left hstop.2]
  have hrange := timeRange_append hdt' hstop.1 hstop.2 hend
  have hearly : ¬inputEnd < fit.cutoff := by omega
  unfold forecastE1
  dsimp only
  rw [hrange, List.mapM_append, hsince]
  simp only [not_lt.mpr hend, hearly, hgrid, ne_eq]
  cases (timeRange (stop + ks.intervalSeconds) (inputEnd + 1)
      ks.intervalSeconds).mapM series.at? with
  | none => rfl
  | some rest =>
      cases series.at? inputEnd with
      | none => rfl
      | some last =>
          simp only [Option.pure_def, Option.bind_eq_bind, Option.bind_some,
            hwRun_append]

/-- A forecast does not depend on where the state stopped on its way. -/
theorem advanceThrough_forecast {series : Series} {ks : KernelSettings}
    {fit fit' : E1Fit Digest} (hdt : 0 < ks.intervalSeconds)
    (stops : List ℤ)
    (h : fit.advanceThrough series ks.intervalSeconds stops = some fit')
    {inputEnd : ℤ} (hend : ∀ stop ∈ stops, stop ≤ inputEnd)
    (targets : List ℤ) :
    forecastE1 fit' series inputEnd targets ks =
      forecastE1 fit series inputEnd targets ks := by
  induction stops generalizing fit with
  | nil =>
      cases h
      rfl
  | cons stop rest ih =>
      obtain ⟨next, hnext, hrest⟩ := Option.bind_eq_some_iff.mp h
      obtain ⟨-, hforecast⟩ := advanceTo_forecast hdt hnext
      have hbefore := hend stop List.mem_cons_self
      rw [ih hrest fun s hs => hend s (List.mem_cons_of_mem stop hs),
        hforecast inputEnd targets hbefore]

/-- The Holt-Winters part of a forecast: the level and the trend after the
input end, and the seasonal state of the target's own slot. -/
theorem forecastE1_hw {series : Series} {ks : KernelSettings}
    {fit : E1Fit Digest} {inputEnd : ℤ} {targets : List ℤ} {out : E1Forecast}
    (hseason : fit.hw.season.length = ks.m) (hm : 0 < ks.m)
    (h : forecastE1 fit series inputEnd targets ks = .ok out) :
    ∃ since, (timeRange (fit.cutoff + ks.intervalSeconds) (inputEnd + 1)
        ks.intervalSeconds).mapM series.at? = some since ∧
      let run := slotRun since fit.hw.alpha fit.hw.beta fit.hw.gamma
        fit.hw.level fit.hw.trend fit.hw.season
      out.hw = targets.map fun s =>
        let k := ((s - inputEnd) / ks.intervalSeconds).toNat
        run.level + k * run.trend + run.season (since.length + (k - 1)) := by
  have hne : fit.hw.season ≠ [] := by
    rw [← List.length_pos_iff, hseason]
    exact hm
  unfold forecastE1 at h
  dsimp only at h
  split at h
  · cases h
  split at h
  · cases h
  split at h
  · cases h
  split at h
  swap
  · cases h
  rename_i since _ hsince _
  refine ⟨since, hsince, ?_⟩
  have hslots := hwRun_slots since fit.hw.alpha fit.hw.beta fit.hw.gamma
    fit.hw.level fit.hw.trend hne
  dsimp only at hslots h
  generalize hwRun since fit.hw.alpha fit.hw.beta fit.hw.gamma fit.hw.level
    fit.hw.trend fit.hw.season = rolled at hslots h
  obtain ⟨hlevel, htrend, -, hserved⟩ := hslots
  rw [hseason] at hserved
  split at h
  · cases h
  · cases h
  obtain ⟨pa, -, hout⟩ := Except.bind_eq_ok_iff.mp h
  cases hout
  rw [List.map_map]
  refine List.map_congr_left fun s _ => ?_
  simp only [Function.comp_apply, hlevel, htrend, hserved]

end Advance

/-- Holt-Winters in pieces: a run over two lists continues the run over the
first, forecasts do not depend on the stops of the state before the input end,
and the rolled season holds the state of every slot after the run. -/
structure HoltWintersInPieces : Prop where
  append : ∀ (y₁ y₂ : List ℚ) (alpha beta gamma level trend : ℚ)
    (season : List ℚ),
    hwRun (y₁ ++ y₂) alpha beta gamma level trend season =
      let (sse₁, level₁, trend₁, season₁) :=
        hwRun y₁ alpha beta gamma level trend season
      let (sse₂, level₂, trend₂, season₂) :=
        hwRun y₂ alpha beta gamma level₁ trend₁ season₁
      (sse₁ + sse₂, level₂, trend₂, season₂)
  stops : ∀ {Digest : Type} (series : Series) (ks : KernelSettings)
    (fit fit' : E1Fit Digest) (stops : List ℤ) (inputEnd : ℤ)
    (targets : List ℤ), 0 < ks.intervalSeconds →
    fit.advanceThrough series ks.intervalSeconds stops = some fit' →
    (∀ stop ∈ stops, stop ≤ inputEnd) →
    forecastE1 fit' series inputEnd targets ks =
      forecastE1 fit series inputEnd targets ks
  seasonal : ∀ (y : List ℚ) (alpha beta gamma level trend : ℚ)
    (season : List ℚ) (k : ℕ), season ≠ [] → 1 ≤ k →
    let (_, _, _, season') := hwRun y alpha beta gamma level trend season
    season'.getD ((k - 1) % season.length) 0 =
      (slotRun y alpha beta gamma level trend season).season
        (y.length + (k - 1))
  forecast : ∀ {Digest : Type} (series : Series) (ks : KernelSettings)
    (fit : E1Fit Digest) (inputEnd : ℤ) (targets : List ℤ) (out : E1Forecast),
    fit.hw.season.length = ks.m → 0 < ks.m →
    forecastE1 fit series inputEnd targets ks = .ok out →
    ∃ since, (timeRange (fit.cutoff + ks.intervalSeconds) (inputEnd + 1)
        ks.intervalSeconds).mapM series.at? = some since ∧
      let run := slotRun since fit.hw.alpha fit.hw.beta fit.hw.gamma
        fit.hw.level fit.hw.trend fit.hw.season
      out.hw = targets.map fun s =>
        let k := ((s - inputEnd) / ks.intervalSeconds).toNat
        run.level + k * run.trend + run.season (since.length + (k - 1))

theorem holtWinters_in_pieces : HoltWintersInPieces where
  append y₁ y₂ alpha beta gamma level trend season :=
    hwRun_append alpha beta gamma y₁ y₂ level trend season
  stops _ _ _ _ stops _ targets hdt h hend :=
    advanceThrough_forecast hdt stops h hend targets
  seasonal y alpha beta gamma level trend _ k hseason _ :=
    (hwRun_slots y alpha beta gamma level trend hseason).2.2.2 (k - 1)
  forecast _ _ _ _ _ _ hseason hm h := forecastE1_hw hseason hm h

end PredictiveAutoscaler.Forecasting.Statistical
