/-
What the statistical kernels read.  A fit is made of the values from the input
start that it reports to its cutoff, a forecast of the values up to its input
end, and every value that is read is the one of its own time in the series.
-/
import PredictiveAutoscaler.Forecasting.Statistical
import PredictiveAutoscaler.ListTraversal

namespace PredictiveAutoscaler.Forecasting.Statistical

open ListTraversal Models

namespace Series

variable (s : Series)

/-- The stored value of a time; none off the grid and outside the series. -/
def cell? (t : ℤ) : Option Double :=
  let i := (t - s.start) / s.interval
  if (t - s.start) % s.interval = 0 ∧ 0 ≤ i then s.values[i.toNat]? else none

theorem at?_eq_cell? (t : ℤ) : s.at? t = (s.cell? t).bind Double.value := by
  unfold at? cell?
  dsimp only
  by_cases hon : (t - s.start) % s.interval = 0 ∧ 0 ≤ (t - s.start) / s.interval
  · rw [if_pos hon]
    by_cases hin : (t - s.start) / s.interval < s.values.length
    · have hnat : ((t - s.start) / s.interval).toNat < s.values.length := by
        omega
      rw [if_pos ⟨hon.1, hon.2, hin⟩, List.getElem?_eq_getElem hnat,
        List.getD_eq_getElem _ _ hnat]
      rfl
    · rw [if_neg fun h => hin h.2.2, List.getElem?_eq_none (by omega)]
      rfl
  · rw [if_neg hon, if_neg fun h => hon ⟨h.1, h.2.1⟩]
    rfl

variable {s}

/-- A value that is read is that of a slot of the series, at its own time. -/
theorem cell?_inside {t : ℤ} {v : Double} (h : s.cell? t = some v) :
    ∃ i : ℕ, s.values[i]? = some v ∧ t = s.start + i * s.interval := by
  unfold cell? at h
  dsimp only at h
  split at h
  · rename_i hon
    refine ⟨_, h, ?_⟩
    rw [Int.toNat_of_nonneg hon.2,
      Int.ediv_mul_cancel (Int.dvd_of_emod_eq_zero hon.1)]
    ring
  · cases h

theorem cell?_slot (hdt : 0 < s.interval) (i : ℕ) :
    s.cell? (s.start + i * s.interval) = s.values[i]? := by
  have hoff : s.start + i * s.interval - s.start = i * s.interval := by ring
  unfold cell?
  dsimp only
  rw [hoff, Int.mul_emod_left, Int.mul_ediv_cancel _ hdt.ne',
    if_pos ⟨rfl, Int.natCast_nonneg i⟩, Int.toNat_natCast]

theorem cell?_before (hdt : 0 < s.interval) {t : ℤ} (ht : t < s.start) :
    s.cell? t = none := by
  have hneg : (t - s.start) / s.interval < 0 :=
    Int.ediv_neg_of_neg_of_pos (by omega) hdt
  unfold cell?
  dsimp only
  rw [if_neg fun h => absurd h.2 (not_le.mpr hneg)]

/-- A time of the series is that of a slot. -/
theorem exists_slot (hdt : 0 < s.interval) {t : ℤ} (hlo : s.start ≤ t)
    (hhi : t ≤ s.stop) (hon : s.interval ∣ t - s.start) :
    ∃ i : ℕ, i < s.values.length ∧ t = s.start + i * s.interval := by
  obtain ⟨n, hn⟩ := hon
  have hn0 : 0 ≤ n := by
    by_contra hneg
    have := Int.mul_neg_of_pos_of_neg hdt (not_le.mp hneg)
    omega
  obtain ⟨i, rfl⟩ := Int.eq_ofNat_of_zero_le hn0
  have ht : t = s.start + i * s.interval := by
    rw [Int.mul_comm] at hn
    omega
  refine ⟨i, ?_, ht⟩
  unfold stop at hhi
  have hle : (i : ℤ) * s.interval ≤ (s.values.length - 1) * s.interval := by
    omega
  have := le_of_mul_le_mul_right hle hdt
  omega

theorem index_slot (hdt : 0 < s.interval) (i : ℕ) :
    s.index (s.start + i * s.interval) = .ok (i : ℤ) := by
  have hoff : s.start + i * s.interval - s.start = i * s.interval := by ring
  unfold index
  rw [hoff, Int.mul_emod_left, if_neg (not_not.mpr rfl),
    Int.mul_ediv_cancel _ hdt.ne']

theorem dvd_of_index {t i : ℤ} (h : s.index t = .ok i) :
    s.interval ∣ t - s.start := by
  unfold index at h
  split at h
  · cases h
  · rename_i hon
    exact Int.dvd_of_emod_eq_zero (not_not.mp hon)

/-- The values of a series between two of its slots are those of the times
between, in order. -/
theorem slice_slots (hdt : 0 < s.interval) {i j : ℕ} (hij : i ≤ j)
    (hj : j < s.values.length) :
    (slice s.values i (j + 1)).map some =
      (timeRange (s.start + i * s.interval) (s.start + j * s.interval + 1)
        s.interval).map s.cell? := by
  have hcount : (s.start + j * s.interval + 1 - (s.start + i * s.interval) +
      s.interval - 1) / s.interval = ((j - i + 1 : ℕ) : ℤ) := by
    rw [show s.start + j * s.interval + 1 - (s.start + i * s.interval) +
        s.interval - 1 = ((j - i + 1 : ℕ) : ℤ) * s.interval by
      push_cast [hij]; ring, Int.mul_ediv_cancel _ hdt.ne']
  have hslice : slice s.values i (j + 1) =
      (s.values.take (j + 1)).drop i := by
    unfold slice
    dsimp only
    rw [if_neg (by omega), if_neg (by omega), Int.toNat_natCast]
    rfl
  unfold timeRange
  rw [hcount, Int.toNat_natCast, hslice, List.map_map]
  refine List.ext_getElem (by simp; omega) fun k hk hk' => ?_
  simp only [List.length_map, List.length_range] at hk'
  have hslot : s.start + i * s.interval + k * s.interval =
      s.start + (i + k : ℕ) * s.interval := by
    push_cast
    ring
  have hin : i + k < s.values.length := by omega
  simp only [List.getElem_map, List.getElem_drop, List.getElem_take,
    List.getElem_range, Function.comp_apply]
  rw [hslot, cell?_slot hdt, List.getElem?_eq_getElem hin]

end Series

/-- The same values, and the same gaps, from one time to another. -/
def AgreeOn (a b : Series) (lo hi : ℤ) : Prop :=
  ∀ t, lo ≤ t → t ≤ hi → a.cell? t = b.cell? t

theorem AgreeOn.at?_eq {a b : Series} {lo hi t : ℤ} (h : AgreeOn a b lo hi)
    (hlo : lo ≤ t) (hhi : t ≤ hi) : a.at? t = b.at? t := by
  rw [a.at?_eq_cell?, b.at?_eq_cell?, h t hlo hhi]

section Profile

variable {a b : Series} {ks : KernelSettings}

theorem profile_congr {t : ℤ}
    (h : ∀ d : ℕ, 1 ≤ d → d ≤ ks.profileDays →
      a.at? (t - d * ks.seasonSeconds) = b.at? (t - d * ks.seasonSeconds)) :
    profile a ks t = profile b ks t := by
  have hvalues : profileValues a ks t = profileValues b ks t := by
    unfold profileValues
    refine List.filterMap_congr fun d hd => ?_
    have hday := List.mem_range'_1.mp hd
    exact h d hday.1 (by omega)
  unfold profile
  rw [hvalues]

theorem residual_congr {t : ℤ} (hown : a.at? t = b.at? t)
    (h : ∀ d : ℕ, 1 ≤ d → d ≤ ks.profileDays →
      a.at? (t - d * ks.seasonSeconds) = b.at? (t - d * ks.seasonSeconds)) :
    residual a ks t = residual b ks t := by
  unfold residual
  rw [hown, profile_congr h]

end Profile

/-- The scan stops at the series' start, at a missing slot or at its length. -/
theorem segmentFrom_spec (values : List Double) {i maxSlots j : ℕ} :
    let first := segmentFrom values i maxSlots j
    first ≤ j ∧
      (∀ k, first ≤ k → k < j →
        i - k < maxSlots ∧ (values.getD k 0).value.isSome) ∧
      (first = 0 ∨ ¬(i - (first - 1) < maxSlots ∧
        (values.getD (first - 1) 0).value.isSome)) := by
  induction j with
  | zero =>
      refine ⟨Nat.le_refl 0, fun k _ hk => absurd hk (Nat.not_lt_zero k), ?_⟩
      exact .inl rfl
  | succ j ih =>
      unfold segmentFrom
      dsimp only at ih ⊢
      split
      · rename_i hnext
        obtain ⟨hle, hall, hstop⟩ := ih
        refine ⟨Nat.le_succ_of_le hle, fun k hlo hhi => ?_, hstop⟩
        rcases Nat.lt_succ_iff_lt_or_eq.mp hhi with hk | rfl
        · exact hall k hlo hk
        · exact hnext
      · rename_i hnext
        refine ⟨Nat.le_refl _, fun k hlo hhi => absurd hhi (by omega), ?_⟩
        exact .inr hnext

/-- The run of observed times that ends at a cutoff goes `n` steps back, and is
`maxSlots` long or not observed one step further. -/
structure SegmentSteps (s : Series) (cutoff : ℤ) (maxSlots n : ℕ) : Prop where
  observed : ∀ k : ℕ, 1 ≤ k → k ≤ n →
    k < maxSlots ∧ (s.at? (cutoff - k * s.interval)).isSome
  stops : ¬(n + 1 < maxSlots ∧
    (s.at? (cutoff - (n + 1 : ℕ) * s.interval)).isSome)

theorem isSome_at?_slot {s : Series} (hdt : 0 < s.interval) (i : ℕ) :
    (s.at? (s.start + i * s.interval)).isSome = true ↔
      i < s.values.length ∧ (s.values.getD i 0).value.isSome = true := by
  rw [s.at?_eq_cell?, s.cell?_slot hdt]
  by_cases hi : i < s.values.length
  · rw [List.getElem?_eq_getElem hi, List.getD_eq_getElem _ _ hi]
    simp [hi]
  · rw [List.getElem?_eq_none (by omega)]
    simp [hi]

/-- `complete_segment_start` of a cutoff in the series. -/
theorem completeSegmentStart_steps {s : Series} (hdt : 0 < s.interval)
    {i maxSlots : ℕ} (hi : i < s.values.length) {segLo : ℤ}
    (h : completeSegmentStart s (s.start + i * s.interval) maxSlots =
      .ok segLo) :
    ∃ n ≤ i, segLo = s.start + (i - n : ℕ) * s.interval ∧
      SegmentSteps s (s.start + i * s.interval) maxSlots n := by
  unfold completeSegmentStart at h
  rw [s.index_slot hdt] at h
  change (if (s.values.getD i 0).value.isNone then _ else _) = _ at h
  split at h
  · cases h
  cases h
  obtain ⟨hle, hall, hstop⟩ :=
    @segmentFrom_spec s.values i maxSlots i
  rw [Int.toNat_natCast]
  generalize segmentFrom s.values i maxSlots i = first at *
  have hback : ∀ k ≤ i, s.start + i * s.interval - k * s.interval =
      s.start + (i - k : ℕ) * s.interval := by
    intro k hk
    push_cast [hk]
    ring
  refine ⟨i - first, Nat.sub_le _ _, ?_, fun k hk hkn => ?_, ?_⟩
  · rw [Nat.sub_sub_self hle]
  · obtain ⟨hlt, hsome⟩ := hall (i - k) (by omega) (by omega)
    rw [hback k (by omega), isSome_at?_slot hdt]
    exact ⟨by omega, by omega, hsome⟩
  · rintro ⟨hlong, hsome⟩
    by_cases hfirst : first = 0
    · subst hfirst
      have hbefore : s.start + i * s.interval -
          (i - 0 + 1 : ℕ) * s.interval < s.start := by
        rw [Nat.sub_zero]
        push_cast
        linarith
      rw [s.at?_eq_cell?, s.cell?_before hdt hbefore] at hsome
      cases hsome
    · rw [hback _ (by omega), isSome_at?_slot hdt,
        show i - (i - first + 1) = first - 1 by omega] at hsome
      rcases hstop with hzero | hstop
      · exact hfirst hzero
      · exact hstop ⟨by omega, hsome.2⟩

/-- The steps back are fixed by what is observed on them. -/
theorem SegmentSteps.le_of_agree {a b : Series} {cutoff lo : ℤ}
    {maxSlots n n' : ℕ} (ha : SegmentSteps a cutoff maxSlots n)
    (hb : SegmentSteps b cutoff maxSlots n') (hsame : a.interval = b.interval)
    (hdt : 0 < b.interval) (hagree : AgreeOn a b lo cutoff)
    (hlo : lo ≤ cutoff - n' * b.interval) : n' ≤ n := by
  by_contra hlt
  obtain ⟨hlong, hsome⟩ := hb.observed (n + 1) (by omega) (by omega)
  have hstep : ((n + 1 : ℕ) : ℤ) * b.interval ≤ n' * b.interval :=
    Int.mul_le_mul_of_nonneg_right (by omega) hdt.le
  have hpos : 0 ≤ ((n + 1 : ℕ) : ℤ) * b.interval :=
    Int.mul_nonneg (Int.natCast_nonneg _) hdt.le
  refine ha.stops ⟨hlong, ?_⟩
  rw [hsame, hagree.at?_eq (by omega) (by omega)]
  exact hsome

/-- The first time of the training window. -/
def windowStart (ks : KernelSettings) (cutoff : ℤ) : ℤ :=
  cutoff - ks.arWindowDays * day + ks.intervalSeconds

/-- The first time that a fit reads: `input_lo`. -/
def inputStart (s : Series) (ks : KernelSettings) (cutoff segLo : ℤ) : ℤ :=
  max s.start (min segLo (windowStart ks cutoff - ks.profileDays * day -
    ks.arOrder * ks.intervalSeconds))

section Fit

variable {Digest : Type} {S : KernelSolvers} {sha256 : List UInt8 → Digest}

/-- The cutoffs that a fit reads anything for. -/
structure Admitted (s : Series) (cutoff : ℤ) (ks : KernelSettings) : Prop where
  interval : s.interval = ks.intervalSeconds
  start_le : s.start ≤ cutoff
  le_stop : cutoff ≤ s.stop
  history : ks.minHistoryDays * day ≤ cutoff - s.start + ks.intervalSeconds
  aligned : s.interval ∣ cutoff - s.start

/-- The parts of a fit. -/
structure FitParts (S : KernelSolvers) (sha256 : List UInt8 → Digest)
    (s : Series) (cutoff : ℤ) (ks : KernelSettings) (fit : E1Fit Digest)
    (segLo : ℤ) : Prop extends Admitted s cutoff ks where
  segment : completeSegmentStart s cutoff (ks.hwMaxDays * ks.m) = .ok segLo
  hw : ∃ values, between s segLo cutoff = .ok values ∧
    fitHw S values ks.m segLo ks.hwMaxiter = .ok fit.hw
  ar : fitAr s ks S cutoff = .ok (fit.arCoef, fit.arRows)
  digest : s.digest sha256 (inputStart s ks cutoff segLo) cutoff =
    .ok fit.inputSha256
  fields : fit.cutoff = cutoff ∧ fit.intervalSeconds = ks.intervalSeconds ∧
    fit.inputLo = inputStart s ks cutoff segLo ∧ fit.settings = ks.canonical

theorem fitE1_parts {s : Series} {cutoff : ℤ} {ks : KernelSettings}
    {fit : E1Fit Digest} (h : fitE1 S sha256 s cutoff ks = .ok fit) :
    ∃ segLo, FitParts S sha256 s cutoff ks fit segLo := by
  unfold fitE1 at h
  dsimp only at h
  split at h
  · cases h
  rename_i hgrid
  push Not at hgrid
  split at h
  · cases h
  rename_i hhistory
  obtain ⟨window, hwindow, h⟩ := Except.bind_eq_ok_iff.mp h
  split at h
  · cases h
  obtain ⟨segLo, hsegLo, h⟩ := Except.bind_eq_ok_iff.mp h
  split at h
  · cases h
  simp only [Except.bind_eq_ok_iff] at h
  obtain ⟨values, hvalues, hw, hhw, ⟨coef, rows⟩, har, digest, hdigest, hout⟩ :=
    h
  cases hout
  refine ⟨segLo, ⟨hgrid.1, hgrid.2.2.1, hgrid.2.2.2, not_lt.mp hhistory, ?_⟩,
    hsegLo, ⟨values, hvalues, hhw⟩, har, hdigest, rfl, rfl, rfl, rfl⟩
  unfold between at hvalues
  obtain ⟨_, -, hvalues⟩ := Except.bind_eq_ok_iff.mp hvalues
  obtain ⟨_, hindex, -⟩ := Except.bind_eq_ok_iff.mp hvalues
  exact Series.dvd_of_index hindex

/-- The settings of every caller: a season of a day, in whole intervals, and a
window of days that the history is at least as long as. -/
structure Daily (ks : KernelSettings) : Prop where
  interval_pos : 0 < ks.intervalSeconds
  season_eq : ks.seasonSeconds = day
  whole : ks.intervalSeconds ∣ ks.seasonSeconds
  window_pos : 1 ≤ ks.arWindowDays
  window_le : ks.arWindowDays ≤ ks.minHistoryDays

/-- Two times of a series, the first not after the second. -/
structure Series.Spans (s : Series) (lo hi : ℤ) : Prop where
  start_le : s.start ≤ lo
  le : lo ≤ hi
  le_stop : hi ≤ s.stop
  aligned : s.interval ∣ lo - s.start
  aligned' : s.interval ∣ hi - s.start

section Spans

variable {s : Series} {lo hi : ℤ} (h : s.Spans lo hi) (hdt : 0 < s.interval)

include h hdt

theorem Series.Spans.slice_eq : ∃ i j : ℤ, s.index lo = .ok i ∧
    s.index hi = .ok j ∧ (slice s.values i (j + 1)).map some =
      (timeRange lo (hi + 1) s.interval).map s.cell? := by
  obtain ⟨i, -, rfl⟩ := exists_slot hdt h.start_le (h.le.trans h.le_stop)
    h.aligned
  obtain ⟨j, hj, rfl⟩ := exists_slot hdt (h.start_le.trans h.le) h.le_stop
    h.aligned'
  refine ⟨i, j, s.index_slot hdt i, s.index_slot hdt j, ?_⟩
  refine slice_slots hdt ?_ hj
  have hle := le_of_mul_le_mul_right
    (by have := h.le; omega : (i : ℤ) * s.interval ≤ j * s.interval) hdt
  omega

/-- A stretch of a series holds the values of its own times. -/
theorem Series.Spans.between_eq : between s lo hi =
    .ok ((timeRange lo (hi + 1) s.interval).map s.at?) := by
  obtain ⟨i, j, hi', hj', hslice⟩ := h.slice_eq hdt
  have hvalues := congrArg
    (List.map fun c : Option Double => c.bind Double.value) hslice
  rw [List.map_map, List.map_map] at hvalues
  have hread : (fun c : Option Double => c.bind Double.value) ∘ s.cell? =
      s.at? := funext fun t => (s.at?_eq_cell? t).symm
  rw [hread] at hvalues
  unfold between
  rw [hi', hj', ← hvalues]
  rfl

/-- The text that a digest is taken of. -/
def Series.digested (s : Series) (lo hi : ℤ) : List UInt8 :=
  SeasonalEnsemble.ascii s!"series|{s.interval}|{lo}|{hi}|".toList ++
    (timeRange lo (hi + 1) s.interval).flatMap fun t =>
      (s.cell? t).elim [] Double.bytes

theorem Series.Spans.digest_eq {Digest : Type} (sha256 : List UInt8 → Digest) :
    s.digest sha256 lo hi = .ok (sha256 (s.digested lo hi)) := by
  obtain ⟨i, j, hi', hj', hslice⟩ := h.slice_eq hdt
  have hbytes := congrArg
    (List.flatMap fun c : Option Double => c.elim [] Double.bytes) hslice
  rw [List.flatMap_map, List.flatMap_map] at hbytes
  unfold digest digested
  rw [hi', hj', ← hbytes]
  rfl

end Spans

section Reads

variable {s : Series} {cutoff : ℤ} {ks : KernelSettings}
  (h : Admitted s cutoff ks) (hks : Daily ks)

include h hks

theorem Admitted.interval_pos : 0 < s.interval := by
  rw [h.interval]
  exact Int.natCast_pos.mpr hks.interval_pos

theorem Admitted.start_le_window : s.start ≤ windowStart ks cutoff := by
  have hdays : (ks.arWindowDays : ℤ) * day ≤ ks.minHistoryDays * day :=
    Int.mul_le_mul_of_nonneg_right (Int.ofNat_le.mpr hks.window_le)
      (Int.natCast_nonneg _)
  have hhistory := h.history
  unfold windowStart
  omega

/-- The segment starts at a slot of the series. -/
theorem Admitted.segment {segLo : ℤ} {maxSlots : ℕ}
    (hseg : completeSegmentStart s cutoff maxSlots = .ok segLo) :
    s.Spans segLo cutoff ∧ ∃ n : ℕ, segLo = cutoff - n * s.interval ∧
      SegmentSteps s cutoff maxSlots n := by
  have hdt := h.interval_pos hks
  obtain ⟨i, hi, rfl⟩ := Series.exists_slot hdt h.start_le h.le_stop h.aligned
  obtain ⟨n, hn, rfl, hsteps⟩ := completeSegmentStart_steps hdt hi hseg
  have hback : s.start + (i - n : ℕ) * s.interval =
      s.start + i * s.interval - n * s.interval := by
    push_cast [hn]
    ring
  have hfirst := Int.mul_nonneg (Int.natCast_nonneg (i - n)) hdt.le
  have hsteps' := Int.mul_nonneg (Int.natCast_nonneg n) hdt.le
  refine ⟨⟨by omega, by omega, h.le_stop, ?_, h.aligned⟩, n, hback, hsteps⟩
  exact ⟨(i - n : ℕ), by ring⟩

/-- The window of the observed fraction is one of the series. -/
theorem Admitted.window : s.Spans (windowStart ks cutoff) cutoff := by
  have hinterval : ks.intervalSeconds ≤ day :=
    hks.season_eq ▸ Nat.le_of_dvd (by rw [hks.season_eq]; decide) hks.whole
  have hlong : (1 : ℤ) * day ≤ ks.arWindowDays * day :=
    Int.mul_le_mul_of_nonneg_right (Int.ofNat_le.mpr hks.window_pos)
      (Int.natCast_nonneg _)
  refine ⟨h.start_le_window hks, by unfold windowStart; omega, h.le_stop, ?_,
    h.aligned⟩
  have hday : s.interval ∣ (ks.arWindowDays : ℤ) * day := by
    rw [h.interval, ← hks.season_eq]
    exact Dvd.dvd.mul_left (Int.natCast_dvd_natCast.mpr hks.whole) _
  have hdiff : windowStart ks cutoff - s.start =
      cutoff - s.start - ks.arWindowDays * day + s.interval := by
    rw [h.interval, windowStart]
    ring
  rw [hdiff]
  exact Int.dvd_add (Int.dvd_sub h.aligned hday) (Int.dvd_refl _)

/-- The rows of the AR fit start with the window. -/
theorem Admitted.arRows_eq : arRows s ks cutoff =
    (timeRange (windowStart ks cutoff + ks.arOrder * ks.intervalSeconds)
      (cutoff + 1) ks.intervalSeconds).filterMap (arRow s ks) := by
  have hwindow := h.start_le_window hks
  unfold arRows
  dsimp only
  rw [max_eq_right (by unfold windowStart at hwindow; omega)]
  rfl

end Reads

/-- A fit starts where the data that it reads does. -/
theorem FitParts.inputStart_spans {s : Series} {cutoff : ℤ}
    {ks : KernelSettings} {fit : E1Fit Digest} {segLo : ℤ}
    (h : FitParts S sha256 s cutoff ks fit segLo) (hks : Daily ks) :
    s.Spans (inputStart s ks cutoff segLo) cutoff ∧
      inputStart s ks cutoff segLo ≤ segLo := by
  obtain ⟨hseg, -⟩ := h.toAdmitted.segment hks h.segment
  have hle : inputStart s ks cutoff segLo ≤ segLo :=
    max_le hseg.start_le (min_le_left _ _)
  have hdigest := h.digest
  unfold Series.digest at hdigest
  obtain ⟨_, hindex, -⟩ := Except.bind_eq_ok_iff.mp hdigest
  exact ⟨⟨le_max_left _ _, hle.trans hseg.le, h.le_stop,
    Series.dvd_of_index hindex, h.aligned⟩, hle⟩

section Agree

variable {a b : Series} {cutoff : ℤ} {ks : KernelSettings}
  {fit fit' : E1Fit Digest} {segLo segLo' : ℤ}
  (ha : FitParts S sha256 a cutoff ks fit segLo)
  (hb : FitParts S sha256 b cutoff ks fit' segLo') (hks : Daily ks)
  (hlo : inputStart a ks cutoff segLo = inputStart b ks cutoff segLo')
  (hagree : AgreeOn a b (inputStart a ks cutoff segLo) cutoff)

include ha hb hks hlo hagree

theorem FitParts.segLo_eq : segLo = segLo' := by
  obtain ⟨-, n, hn, hsteps⟩ := ha.toAdmitted.segment hks ha.segment
  obtain ⟨-, n', hn', hsteps'⟩ := hb.toAdmitted.segment hks hb.segment
  have hsame : a.interval = b.interval := ha.interval.trans hb.interval.symm
  have hfirst := (ha.inputStart_spans hks).2
  have hfirst' := (hb.inputStart_spans hks).2
  have hle : n' ≤ n := hsteps.le_of_agree hsteps' hsame
    (hb.toAdmitted.interval_pos hks) hagree (by omega)
  have hge : n ≤ n' := hsteps'.le_of_agree hsteps hsame.symm
    (ha.toAdmitted.interval_pos hks)
    (fun t ht ht' => (hagree t ht ht').symm) (by omega)
  rw [hn, hn', hsame, Nat.le_antisymm hge hle]

/-- The series agree wherever the AR rows and their profiles read them. -/
theorem FitParts.reads_agree {t : ℤ}
    (ht : windowStart ks cutoff - ks.profileDays * day ≤ t)
    (hcutoff : t ≤ cutoff) : a.at? t = b.at? t := by
  have hseg := ha.segLo_eq hb hks hlo hagree
  subst hseg
  by_cases hin : inputStart a ks cutoff segLo ≤ t
  · exact hagree.at?_eq hin hcutoff
  · -- below the input start is below both series
    have hlags : 0 ≤ (ks.arOrder : ℤ) * ks.intervalSeconds :=
      Int.mul_nonneg (Int.natCast_nonneg _) (Int.natCast_nonneg _)
    have hin' : ¬inputStart b ks cutoff segLo ≤ t := hlo ▸ hin
    unfold inputStart at hin hin'
    have hbefore : t < a.start := by omega
    have hbefore' : t < b.start := by omega
    rw [a.at?_eq_cell?, b.at?_eq_cell?,
      a.cell?_before (ha.toAdmitted.interval_pos hks) hbefore,
      b.cell?_before (hb.toAdmitted.interval_pos hks) hbefore']

theorem FitParts.residual_eq {t : ℤ} (ht : windowStart ks cutoff ≤ t)
    (hcutoff : t ≤ cutoff) : residual a ks t = residual b ks t := by
  have hdays : 0 ≤ (ks.profileDays : ℤ) * day :=
    Int.mul_nonneg (Int.natCast_nonneg _) (Int.natCast_nonneg _)
  refine residual_congr (ha.reads_agree hb hks hlo hagree (by omega) hcutoff)
    fun d _ hd => ?_
  have hback : (d : ℤ) * day ≤ ks.profileDays * day :=
    Int.mul_le_mul_of_nonneg_right (Int.ofNat_le.mpr hd)
      (Int.natCast_nonneg _)
  have hpos : 0 ≤ (d : ℤ) * day :=
    Int.mul_nonneg (Int.natCast_nonneg _) (Int.natCast_nonneg _)
  rw [hks.season_eq]
  exact ha.reads_agree hb hks hlo hagree (by omega) (by omega)

theorem FitParts.arRows_agree : arRows a ks cutoff = arRows b ks cutoff := by
  have hdt : (0 : ℤ) < ks.intervalSeconds :=
    Int.natCast_pos.mpr hks.interval_pos
  rw [ha.toAdmitted.arRows_eq hks, hb.toAdmitted.arRows_eq hks]
  refine List.filterMap_congr fun t ht => ?_
  obtain ⟨hfirst, hlast⟩ := mem_timeRange hdt ht
  have hown : ∀ k : ℕ, k ≤ ks.arOrder →
      residual a ks (t - k * ks.intervalSeconds) =
        residual b ks (t - k * ks.intervalSeconds) := by
    intro k hk
    have hback : (k : ℤ) * ks.intervalSeconds ≤
        ks.arOrder * ks.intervalSeconds :=
      Int.mul_le_mul_of_nonneg_right (Int.ofNat_le.mpr hk) hdt.le
    have hpos : 0 ≤ (k : ℤ) * ks.intervalSeconds :=
      Int.mul_nonneg (Int.natCast_nonneg _) hdt.le
    exact ha.residual_eq hb hks hlo hagree (by omega) (by omega)
  have hzero := hown 0 (Nat.zero_le _)
  rw [Int.natCast_zero, Int.zero_mul, Int.sub_zero] at hzero
  have hlags : (List.range' 1 ks.arOrder).mapM (fun k : ℕ =>
        residual a ks (t - k * ks.intervalSeconds)) =
      (List.range' 1 ks.arOrder).mapM fun k : ℕ =>
        residual b ks (t - k * ks.intervalSeconds) := by
    refine mapM_congr fun k hk => hown k ?_
    have := List.mem_range'_1.mp hk
    omega
  unfold arRow
  rw [hzero, hlags]

/-- Fits that report the same input start, of series with the same values from
there to the cutoff, are the same. -/
theorem FitParts.fit_eq : fit = fit' := by
  have hseg := ha.segLo_eq hb hks hlo hagree
  subst hseg
  have hsame : a.interval = b.interval := ha.interval.trans hb.interval.symm
  have hdt := ha.toAdmitted.interval_pos hks
  have hdt' := hb.toAdmitted.interval_pos hks
  obtain ⟨hspans, hfirst⟩ := ha.inputStart_spans hks
  have hspans' := hlo ▸ (hb.inputStart_spans hks).1
  -- the values of the segment
  obtain ⟨values, hvalues, hhw⟩ := ha.hw
  obtain ⟨values', hvalues', hhw'⟩ := hb.hw
  have hsegment : values = values' := by
    rw [((ha.toAdmitted.segment hks ha.segment).1).between_eq hdt] at hvalues
    rw [((hb.toAdmitted.segment hks hb.segment).1).between_eq hdt',
      ← hsame] at hvalues'
    rw [← Except.ok.inj hvalues, ← Except.ok.inj hvalues']
    refine List.map_congr_left fun t ht => ?_
    obtain ⟨hlo', hhi'⟩ := mem_timeRange hdt ht
    exact hagree.at?_eq (by omega) (by omega)
  rw [hsegment, hhw'] at hhw
  -- the rows of the recursion
  have har : fitAr a ks S cutoff = fitAr b ks S cutoff := by
    unfold fitAr
    rw [ha.arRows_agree hb hks hlo hagree]
  rw [ha.ar, hb.ar] at har
  -- the bytes of the digest
  have hdigest : a.digested (inputStart a ks cutoff segLo) cutoff =
      b.digested (inputStart a ks cutoff segLo) cutoff := by
    unfold Series.digested
    rw [hsame]
    refine congrArg _ (List.flatMap_congr fun t ht => ?_)
    obtain ⟨hlo', hhi'⟩ := mem_timeRange hdt' ht
    rw [hagree t hlo' (by omega)]
  have hda := ha.digest
  have hdb := hb.digest
  rw [hspans.digest_eq hdt] at hda
  rw [← hlo, hspans'.digest_eq hdt', ← hdigest, hda] at hdb
  obtain ⟨hcutoff, hinterval, hinput, hsettings⟩ := ha.fields
  obtain ⟨hcutoff', hinterval', hinput', hsettings'⟩ := hb.fields
  obtain ⟨hcoef, hrows⟩ := Prod.mk.inj (Except.ok.inj har)
  cases fit
  cases fit'
  simp_all

end Agree

end Fit

section Forecast

variable {a b : Series} {inputEnd : ℤ}
  (hagree : ∀ t ≤ inputEnd, a.cell? t = b.cell? t)

include hagree

theorem at?_eq_of_agree {t : ℤ} (ht : t ≤ inputEnd) : a.at? t = b.at? t := by
  rw [a.at?_eq_cell?, b.at?_eq_cell?, hagree t ht]

/-- A season back from a target within a season is no later than the input
end. -/
theorem profile_eq_of_agree {ks : KernelSettings} {t : ℤ}
    (ht : t ≤ inputEnd + ks.seasonSeconds) :
    profile a ks t = profile b ks t := by
  refine profile_congr fun d hd _ => at?_eq_of_agree hagree ?_
  have hback : (1 : ℤ) * ks.seasonSeconds ≤ d * ks.seasonSeconds :=
    Int.mul_le_mul_of_nonneg_right (Int.ofNat_le.mpr hd)
      (Int.natCast_nonneg _)
  omega

theorem residual_eq_of_agree {ks : KernelSettings} {t : ℤ}
    (ht : t ≤ inputEnd) : residual a ks t = residual b ks t := by
  unfold residual
  rw [at?_eq_of_agree hagree ht,
    profile_eq_of_agree hagree (by omega)]

/-- `forecast_e1` reads nothing after its input end. -/
theorem forecastE1_eq_of_agree {Digest : Type} (fit : E1Fit Digest)
    (targets : List ℤ) (ks : KernelSettings) :
    forecastE1 fit a inputEnd targets ks =
      forecastE1 fit b inputEnd targets ks := by
  unfold forecastE1
  dsimp only
  split
  · rfl
  rename_i hgrid
  split
  · rfl
  split
  · rfl
  rename_i hseason
  rw [not_or, not_or, not_not, not_not] at hgrid
  simp only [List.any_eq_true, decide_eq_true_eq, not_exists, not_and,
    not_lt] at hseason
  have hsince : (timeRange (fit.cutoff + ks.intervalSeconds) (inputEnd + 1)
      ks.intervalSeconds).mapM a.at? =
      (timeRange (fit.cutoff + ks.intervalSeconds) (inputEnd + 1)
        ks.intervalSeconds).mapM b.at? := by
    refine mapM_congr fun t ht => at?_eq_of_agree hagree ?_
    rcases Nat.eq_zero_or_pos ks.intervalSeconds with hzero | hpos
    · rw [hzero] at ht
      simp [timeRange] at ht
    · have := (mem_timeRange (Int.natCast_pos.mpr hpos) ht).2
      omega
  have hhist : (List.range ks.arOrder).mapM (fun k : ℕ =>
        residual a ks (inputEnd - k * ks.intervalSeconds)) =
      (List.range ks.arOrder).mapM fun k : ℕ =>
        residual b ks (inputEnd - k * ks.intervalSeconds) := by
    refine mapM_congr fun k _ => residual_eq_of_agree hagree ?_
    have := Int.mul_nonneg (Int.natCast_nonneg k)
      (Int.natCast_nonneg ks.intervalSeconds)
    omega
  have hprofiles : ∀ ar, (targets.zip (targets.map fun s =>
        ((s - inputEnd) / ks.intervalSeconds).toNat)).mapM
          (profileArAt a ks ar) =
      (targets.zip (targets.map fun s =>
        ((s - inputEnd) / ks.intervalSeconds).toNat)).mapM
          (profileArAt b ks ar) := by
    intro ar
    refine mapM_congr fun target htarget => ?_
    have hnear := hseason target.1 (List.of_mem_zip htarget).1
    unfold profileArAt
    rw [profile_eq_of_agree hagree (by omega)]
  rw [hsince, hhist, at?_eq_of_agree hagree (Int.le_refl inputEnd)]
  simp only [hprofiles]

/-- `seasonal_naive` reads nothing after its input end. -/
theorem seasonalNaive_eq_of_agree (targets : List ℤ) (ks : KernelSettings) :
    seasonalNaive a inputEnd targets ks =
      seasonalNaive b inputEnd targets ks := by
  refine mapM_congr fun s _ => ?_
  unfold naiveAt
  dsimp only
  by_cases hlate : inputEnd < s - ks.seasonSeconds
  · simp only [hlate, if_true]
    cases a.at? (s - ks.seasonSeconds) <;>
      cases b.at? (s - ks.seasonSeconds) <;> rfl
  · rw [at?_eq_of_agree hagree (not_lt.mp hlate)]

end Forecast

/-- What the kernels read: a fit the values from its reported start to its
cutoff, which it digests, a forecast the values up to its input end, and no
value of another time than its own. -/
structure Provenance {Digest : Type} (S : KernelSolvers)
    (sha256 : List UInt8 → Digest) : Prop where
  fit : ∀ (a b : Series) (cutoff : ℤ) (ks : KernelSettings)
    (fit fit' : E1Fit Digest), Daily ks →
    fitE1 S sha256 a cutoff ks = .ok fit →
    fitE1 S sha256 b cutoff ks = .ok fit' → fit.inputLo = fit'.inputLo →
    AgreeOn a b fit.inputLo cutoff → fit = fit'
  digested : ∀ (s : Series) (cutoff : ℤ) (ks : KernelSettings)
    (fit : E1Fit Digest), Daily ks → fitE1 S sha256 s cutoff ks = .ok fit →
    fit.cutoff = cutoff ∧ s.start ≤ fit.inputLo ∧ cutoff ≤ s.stop ∧
      fit.inputSha256 = sha256 (s.digested fit.inputLo cutoff)
  forecast : ∀ (a b : Series) (inputEnd : ℤ) (fit : E1Fit Digest)
    (targets : List ℤ) (ks : KernelSettings),
    (∀ t ≤ inputEnd, a.cell? t = b.cell? t) →
    forecastE1 fit a inputEnd targets ks = forecastE1 fit b inputEnd targets ks
  naive : ∀ (a b : Series) (inputEnd : ℤ) (targets : List ℤ)
    (ks : KernelSettings), (∀ t ≤ inputEnd, a.cell? t = b.cell? t) →
    seasonalNaive a inputEnd targets ks = seasonalNaive b inputEnd targets ks
  value : ∀ (s : Series) (t : ℤ) (x : ℚ), s.at? t = some x →
    ∃ (i : ℕ) (v : Double), s.values[i]? = some v ∧ v.value = some x ∧
      t = s.start + i * s.interval
  windows : ∀ (s : Series) (cutoff : ℤ) (ks : KernelSettings), Daily ks →
    Admitted s cutoff ks → ∀ lo, lo = windowStart ks cutoff ∨
      completeSegmentStart s cutoff (ks.hwMaxDays * ks.m) = .ok lo →
    s.start ≤ lo ∧ cutoff ≤ s.stop ∧
      between s lo cutoff =
        .ok ((timeRange lo (cutoff + 1) s.interval).map s.at?)

theorem kernels_read_their_own {Digest : Type} (S : KernelSolvers)
    (sha256 : List UInt8 → Digest) : Provenance S sha256 where
  fit a b cutoff ks fit fit' hks ha hb hlo hagree := by
    obtain ⟨segLo, hparts⟩ := fitE1_parts ha
    obtain ⟨segLo', hparts'⟩ := fitE1_parts hb
    have hfirst := hparts.fields.2.2.1
    rw [hfirst, hparts'.fields.2.2.1] at hlo
    rw [hfirst] at hagree
    exact hparts.fit_eq hparts' hks hlo hagree
  digested s cutoff ks fit hks h := by
    obtain ⟨segLo, hparts⟩ := fitE1_parts h
    obtain ⟨hcutoff, -, hfirst, -⟩ := hparts.fields
    have hspans := (hparts.inputStart_spans hks).1
    have hdigest := hparts.digest
    rw [hspans.digest_eq (hparts.toAdmitted.interval_pos hks)] at hdigest
    rw [hfirst]
    exact ⟨hcutoff, hspans.start_le, hparts.le_stop,
      (Except.ok.inj hdigest).symm⟩
  forecast _ _ _ fit targets ks hagree :=
    forecastE1_eq_of_agree hagree fit targets ks
  naive _ _ _ targets ks hagree := seasonalNaive_eq_of_agree hagree targets ks
  value s t x h := by
    rw [s.at?_eq_cell?] at h
    obtain ⟨v, hcell, hvalue⟩ := Option.bind_eq_some_iff.mp h
    obtain ⟨i, hslot, ht⟩ := Series.cell?_inside hcell
    exact ⟨i, v, hslot, hvalue, ht⟩
  windows s cutoff ks hks h lo hlo := by
    have hdt := h.interval_pos hks
    have hspans : s.Spans lo cutoff := by
      rcases hlo with rfl | hseg
      · exact h.window hks
      · exact (h.segment hks hseg).1
    exact ⟨hspans.start_le, hspans.le_stop, hspans.between_eq hdt⟩

end PredictiveAutoscaler.Forecasting.Statistical
