/-
Whether a window gets its truth in time.  A read takes the samples up to its
watermark, so the last target of a window is received by the first read at or
after the window's end and the settlement; the truth deadline is the grace
later.  With one read in each cadence, every window is scored exactly when the
grace covers the wait for that read.
-/
import PredictiveAutoscaler.Forecasting.Service

namespace PredictiveAutoscaler.Forecasting

/-- The seconds of history that a read takes. -/
def ForecastSettings.historySeconds (s : ForecastSettings) : ℕ :=
  s.historyDays * day

/-- The newest finalized grid point of a read. -/
def ForecastSettings.watermarkAt (s : ForecastSettings) (nowMs : ℕ) : ℕ :=
  watermark nowMs s.sampleIntervalSeconds s.settlementSeconds

/-- All finalized samples of the history, received at the time of the read. -/
def finalizedSamples (s : ForecastSettings) (value : ℕ → ℚ) (nowMs : ℕ) :
    List Store.Sample :=
  ((List.range (s.watermarkAt nowMs / s.sampleIntervalSeconds + 1)).map
    fun i => i * s.sampleIntervalSeconds).filterMap fun t =>
      if s.watermarkAt nowMs < t + s.historySeconds then
        some ⟨t, value t, nowMs⟩
      else none

/-- An issued window and the reads after it: one in each cadence, within the
allowance after its grid origin, none of which found a target before it was
finalized. -/
structure Watched (s : ForecastSettings) (lead : LeadSelection) where
  origin : ℕ
  on_grid : origin % s.sampleIntervalSeconds = 0
  base : ℚ
  upper : Option ℚ
  value : ℕ → ℚ
  observed : Receipts
  unseen : ∀ t, origin < t → observed t = none
  readMs : ℕ → ℕ
  read_ge : ∀ k, (origin + k * s.sampleIntervalSeconds) * 1000 ≤ readMs k
  read_le : ∀ k, readMs k ≤ (origin + k * s.sampleIntervalSeconds +
    lead.actuationAllowanceSeconds) * 1000
  issued : refuseLate ⟨origin, s.sampleIntervalSeconds, lead.leadSeconds⟩ lead
    (readMs 0) = .ok ()

namespace Watched

variable {s : ForecastSettings} {lead : LeadSelection} (w : Watched s lead)

def window : ForecastWindow :=
  ⟨w.origin, s.sampleIntervalSeconds, lead.leadSeconds⟩

/-- The first receipts before the read `k`. -/
def receiptsBefore : ℕ → Receipts
  | 0 => w.observed
  | k + 1 => (finalizedSamples s w.value (w.readMs k)).foldl
      Store.recordObservation (receiptsBefore k)

/-- The receipts in the history of the read `k`. -/
def history (k : ℕ) : Receipts := fun t =>
  let last := s.watermarkAt (w.readMs k)
  if last + s.sampleIntervalSeconds - s.historySeconds ≤ t ∧ t ≤ last then
    w.receiptsBefore (k + 1) t
  else none

/-- What the read `k` makes of the window. -/
def outcomeAt (k : ℕ) : Except Raised (Option OutcomePayload) :=
  windowOutcome w.window.targetTimestamps w.base w.upper (w.history k)
    (w.readMs k) s.settlementSeconds s.outcomeGraceSeconds

/-- The window stays open until a read scores it. -/
def ClosesScored : Prop :=
  ∃ k p, w.outcomeAt k = .ok (some (.scored p)) ∧
    ∀ j < k, w.outcomeAt j = .ok none

/-- The watermark of the read covers the last target. -/
def Covers (k : ℕ) : Prop := w.window.windowEnd ≤ s.watermarkAt (w.readMs k)

instance (k : ℕ) : Decidable (w.Covers k) :=
  inferInstanceAs (Decidable (_ ≤ _))

end Watched

/-- The first receipt stays; a new one is that of the first sample. -/
theorem foldl_recordObservation (samples : List Store.Sample)
    (receipts : Receipts) (t : ℕ) :
    samples.foldl Store.recordObservation receipts t =
      (receipts t).or ((samples.find? fun x => decide (x.time = t)).map
        fun x => ⟨x.value, x.receivedMs⟩) := by
  induction samples generalizing receipts with
  | nil => simp
  | cons x rest ih =>
      rw [List.foldl_cons, ih, Store.recordObservation]
      by_cases hx : x.time = t
      · subst hx
        cases receipts x.time <;> simp
      · simp [hx, Ne.symm hx]

theorem watermarkAt_mod (s : ForecastSettings) (nowMs : ℕ) :
    s.watermarkAt nowMs % s.sampleIntervalSeconds = 0 := by
  unfold ForecastSettings.watermarkAt watermark
  exact Nat.mul_mod_left _ _

theorem mem_finalizedSamples {s : ForecastSettings} {value : ℕ → ℚ} {nowMs : ℕ}
    {x : Store.Sample} :
    x ∈ finalizedSamples s value nowMs ↔
      x.time % s.sampleIntervalSeconds = 0 ∧ x.time ≤ s.watermarkAt nowMs ∧
        s.watermarkAt nowMs < x.time + s.historySeconds ∧
        x = ⟨x.time, value x.time, nowMs⟩ := by
  have hwatermark := watermarkAt_mod s nowMs
  simp only [finalizedSamples, List.mem_filterMap, List.mem_map,
    List.mem_range, Option.ite_none_right_eq_some, Option.some.injEq]
  constructor
  · rintro ⟨_, ⟨i, hi, rfl⟩, hrecent, rfl⟩
    refine ⟨Nat.mul_mod_left _ _, ?_, hrecent, rfl⟩
    rw [← Nat.div_mul_cancel (Nat.dvd_of_mod_eq_zero hwatermark)]
    exact Nat.mul_le_mul_right _ (Nat.le_of_lt_succ hi)
  · rintro ⟨hgrid, hle, hrecent, hx⟩
    refine ⟨x.time, ⟨x.time / s.sampleIntervalSeconds, ?_,
      Nat.div_mul_cancel (Nat.dvd_of_mod_eq_zero hgrid)⟩, hrecent, hx.symm⟩
    exact Nat.lt_succ_of_le (Nat.div_le_div_right hle)

theorem le_watermarkAt_iff {s : ForecastSettings}
    (hdt : 0 < s.sampleIntervalSeconds) {t nowMs : ℕ} (ht : 0 < t)
    (hgrid : t % s.sampleIntervalSeconds = 0) :
    t ≤ s.watermarkAt nowMs ↔ (t + s.settlementSeconds) * 1000 ≤ nowMs := by
  obtain ⟨n, rfl⟩ := Nat.dvd_of_mod_eq_zero hgrid
  unfold ForecastSettings.watermarkAt watermark
  rw [Nat.mul_comm _ n] at ht ⊢
  rw [Nat.mul_le_mul_right_iff hdt, Nat.le_div_iff_mul_le hdt]
  generalize n * s.sampleIntervalSeconds = t at ht ⊢
  omega

/-- The sample of a grid point in the history of a read. -/
theorem find?_finalizedSamples {s : ForecastSettings} (value : ℕ → ℚ)
    (nowMs : ℕ) {t : ℕ} (hgrid : t % s.sampleIntervalSeconds = 0) :
    (finalizedSamples s value nowMs).find? (fun x => decide (x.time = t)) =
      if t ≤ s.watermarkAt nowMs ∧
          s.watermarkAt nowMs < t + s.historySeconds then
        some ⟨t, value t, nowMs⟩
      else none := by
  split
  · rename_i hin
    have hmem : ⟨t, value t, nowMs⟩ ∈ finalizedSamples s value nowMs :=
      mem_finalizedSamples.mpr ⟨hgrid, hin.1, hin.2, rfl⟩
    cases hfound : (finalizedSamples s value nowMs).find?
        (fun x => decide (x.time = t)) with
    | none =>
        have hnone := List.find?_eq_none.mp hfound _ hmem
        simp at hnone
    | some x =>
        have hx := (mem_finalizedSamples.mp
          (List.mem_of_find?_eq_some hfound)).2.2.2
        have htime : x.time = t := by simpa using List.find?_some hfound
        rw [htime] at hx
        rw [hx]
  · rename_i hout
    rw [List.find?_eq_none]
    intro x hx htime
    obtain ⟨-, hle, hrecent, -⟩ := mem_finalizedSamples.mp hx
    rw [decide_eq_true_eq] at htime
    exact hout ⟨htime ▸ hle, htime ▸ hrecent⟩

/-- Every cadence divides the day, so a read's history starts on the grid. -/
theorem ForecastSettings.Accepted.interval_dvd_history {s : ForecastSettings}
    (hs : s.Accepted) : s.sampleIntervalSeconds ∣ s.historySeconds := by
  have hday : ∀ dt ∈ allowedIntervals, dt ∣ day := by decide
  exact Dvd.dvd.mul_left (hday _ hs.interval_mem) _

theorem ForecastSettings.Accepted.add_interval_le {s : ForecastSettings}
    (hs : s.Accepted) {last t : ℕ} (hlast : last % s.sampleIntervalSeconds = 0)
    (ht : t % s.sampleIntervalSeconds = 0)
    (hlt : last < t + s.historySeconds) :
    last + s.sampleIntervalSeconds ≤ t + s.historySeconds := by
  have hend : s.sampleIntervalSeconds ∣ t + s.historySeconds :=
    Nat.dvd_add (Nat.dvd_of_mod_eq_zero ht) hs.interval_dvd_history
  obtain ⟨a, ha⟩ := Nat.dvd_of_mod_eq_zero hlast
  obtain ⟨b, hb⟩ := hend
  rw [ha, hb] at hlt ⊢
  rw [← Nat.mul_succ]
  exact Nat.mul_le_mul_left _ (Nat.lt_of_mul_lt_mul_left hlt)

/-- A window is issued when its allowance ends before the first target. -/
theorem refuseLate_ok_iff {s : ForecastSettings} {lead : LeadSelection}
    (hs : s.Accepted) (hlead : lead.Fits s) {origin nowMs : ℕ} :
    refuseLate ⟨origin, s.sampleIntervalSeconds, lead.leadSeconds⟩ lead nowMs =
        .ok () ↔
      nowMs + lead.actuationAllowanceSeconds * 1000 <
        (origin + s.sampleIntervalSeconds) * 1000 := by
  have hone : 0 < lead.leadSeconds / s.sampleIntervalSeconds :=
    Nat.div_pos hlead.interval_le hs.interval_pos
  obtain ⟨n, hn⟩ := Nat.exists_eq_succ_of_ne_zero hone.ne'
  have hhead : (ForecastWindow.mk origin s.sampleIntervalSeconds
      lead.leadSeconds).targetTimestamps.headD 0 =
      origin + s.sampleIntervalSeconds := by
    simp [ForecastWindow.targetTimestamps, hn, List.range_succ_eq_map]
  rw [refuseLate, hhead]
  split
  · rename_i hlate
    exact ⟨(nomatch ·), fun h => absurd hlate (not_le.mpr h)⟩
  · rename_i hearly
    exact ⟨fun _ => not_le.mp hearly, fun _ => rfl⟩

namespace Watched

variable {s : ForecastSettings} {lead : LeadSelection} (w : Watched s lead)

theorem targets_eq : w.window.targetTimestamps =
    windowGrid w.origin w.window.windowEnd s.sampleIntervalSeconds :=
  w.window.targetTimestamps_eq

theorem windowEnd_mod (hlead : lead.Fits s) :
    w.window.windowEnd % s.sampleIntervalSeconds = 0 := by
  simp only [window, ForecastWindow.windowEnd]
  rw [Nat.add_mod, w.on_grid, hlead.multiple]
  simp

/-- A target lies on the grid after the origin, and no later than the end. -/
theorem mem_targets (hs : s.Accepted) {t : ℕ}
    (ht : t ∈ w.window.targetTimestamps) :
    t % s.sampleIntervalSeconds = 0 ∧
      w.origin + s.sampleIntervalSeconds ≤ t ∧ t ≤ w.window.windowEnd := by
  simp only [window, ForecastWindow.targetTimestamps, List.mem_map,
    List.mem_range] at ht
  obtain ⟨k, hk, rfl⟩ := ht
  have hle : (k + 1) * s.sampleIntervalSeconds ≤ lead.leadSeconds :=
    (Nat.le_div_iff_mul_le hs.interval_pos).mp hk
  refine ⟨?_, ?_, ?_⟩
  · rw [Nat.add_mod, w.on_grid, Nat.mul_mod_left]
    simp
  · have hone : s.sampleIntervalSeconds ≤ (k + 1) * s.sampleIntervalSeconds :=
      Nat.le_mul_of_pos_left _ (Nat.succ_pos k)
    omega
  · simp only [window, ForecastWindow.windowEnd]
    omega

/-- A target's first receipt is that of a read that found it finalized. -/
theorem receiptsBefore_some (hs : s.Accepted) {t : ℕ}
    (ht : t ∈ w.window.targetTimestamps) {k : ℕ} {r : Receipt}
    (h : w.receiptsBefore k t = some r) :
    ∃ j < k, r.firstReceivedMs = w.readMs j ∧
      t ≤ s.watermarkAt (w.readMs j) := by
  obtain ⟨hgrid, hafter, -⟩ := w.mem_targets hs ht
  have hdt := hs.interval_pos
  induction k with
  | zero =>
      have hunseen := w.unseen t (by omega)
      rw [receiptsBefore, hunseen] at h
      cases h
  | succ k ih =>
      rw [receiptsBefore, foldl_recordObservation,
        find?_finalizedSamples _ _ hgrid] at h
      cases hold : w.receiptsBefore k t with
      | some old =>
          rw [hold] at h
          cases h
          obtain ⟨j, hj, hreceived⟩ := ih hold
          exact ⟨j, Nat.lt_succ_of_lt hj, hreceived⟩
      | none =>
          rw [hold] at h
          split at h
          · rename_i hin
            cases h
            exact ⟨k, Nat.lt_succ_self k, rfl, hin.1⟩
          · cases h

/-- A target in the history of a read is received by it. -/
theorem receiptsBefore_isSome (hs : s.Accepted) {t : ℕ}
    (ht : t ∈ w.window.targetTimestamps) {k : ℕ}
    (hcovered : t ≤ s.watermarkAt (w.readMs k))
    (hrecent : s.watermarkAt (w.readMs k) < t + s.historySeconds) :
    ∃ r, w.receiptsBefore (k + 1) t = some r := by
  obtain ⟨hgrid, -, -⟩ := w.mem_targets hs ht
  rw [receiptsBefore, foldl_recordObservation,
    find?_finalizedSamples _ _ hgrid,
    if_pos ⟨hcovered, hrecent⟩]
  cases w.receiptsBefore k t <;> exact ⟨_, rfl⟩

section Accepted

variable (hs : s.Accepted) (hlead : lead.Fits s)

include hs hlead

theorem checkWindow_targets :
    checkWindow w.window.targetTimestamps = .ok () := by
  rw [w.targets_eq]
  refine checkWindow_windowGrid hs.interval_pos ?_
  simpa [window, ForecastWindow.windowEnd] using hlead.interval_le

theorem getLastD_targets :
    w.window.targetTimestamps.getLastD 0 = w.window.windowEnd := by
  rw [w.targets_eq]
  refine getLastD_windowGrid hs.interval_pos ?_ ?_
  · simpa [window, ForecastWindow.windowEnd] using hlead.multiple
  · simpa [window, ForecastWindow.windowEnd] using hlead.interval_le

theorem windowEnd_mem : w.window.windowEnd ∈ w.window.targetTimestamps := by
  have hlast := w.getLastD_targets hs hlead
  have hpos : 0 < w.window.windowEnd := by
    have hle := hlead.interval_le
    have hdt := hs.interval_pos
    simp only [window, ForecastWindow.windowEnd]
    omega
  rw [List.getLastD_eq_getLast?] at hlast
  cases hlookup : w.window.targetTimestamps.getLast? with
  | none =>
      rw [hlookup] at hlast
      exact absurd hlast hpos.ne
  | some t =>
      rw [hlookup] at hlast
      rw [← hlast]
      exact List.mem_of_getLast? hlookup

/-- A window that was issued leaves its allowance within the cadence. -/
theorem allowance_lt (w : Watched s lead) :
    lead.actuationAllowanceSeconds < s.sampleIntervalSeconds := by
  have hearly := (refuseLate_ok_iff hs hlead).mp w.issued
  have hread := w.read_ge 0
  omega

theorem readMs_mono {j k : ℕ} (hjk : j ≤ k) : w.readMs j ≤ w.readMs k := by
  have hstep : ∀ k, w.readMs k ≤ w.readMs (k + 1) := by
    intro k
    have hallowance := w.allowance_lt hs hlead
    have hle := w.read_le k
    have hge := w.read_ge (k + 1)
    rw [Nat.add_one_mul k] at hge
    omega
  exact monotone_nat_of_le_succ hstep hjk

theorem covers_iff (k : ℕ) : w.Covers k ↔
    (w.window.windowEnd + s.settlementSeconds) * 1000 ≤ w.readMs k := by
  refine le_watermarkAt_iff hs.interval_pos ?_ (w.windowEnd_mod hlead)
  have hle := hlead.interval_le
  have hdt := hs.interval_pos
  simp only [window, ForecastWindow.windowEnd]
  omega

section First

variable {k : ℕ} (hcovers : w.Covers k) (hfirst : ∀ j < k, ¬w.Covers j)

include hcovers hfirst

/-- The first read that covers a window is less than two cadences late, so
every target is still in its history. -/
theorem watermarkAt_first {t : ℕ} (ht : t ∈ w.window.targetTimestamps) :
    t ≤ s.watermarkAt (w.readMs k) ∧
      s.watermarkAt (w.readMs k) < t + s.historySeconds := by
  obtain ⟨-, hafter, hend⟩ := w.mem_targets hs ht
  refine ⟨hend.trans hcovers, ?_⟩
  have hdt := hs.interval_pos
  have hsmall : ∀ dt ∈ allowedIntervals, dt ≤ 600 := by decide
  have hinterval := hsmall _ hs.interval_mem
  have hallowance := w.allowance_lt hs hlead
  have hhorizon := hlead.le_horizon.trans hs.horizon_le
  have hmax : maxHorizonSeconds = 3600 := rfl
  have hhistory : day ≤ s.historySeconds :=
    Nat.le_mul_of_pos_left _ hs.historyDays_pos
  have hday : day = 86400 := by decide
  have hread : w.readMs k < (w.window.windowEnd + s.settlementSeconds +
      2 * s.sampleIntervalSeconds) * 1000 := by
    cases k with
    | zero =>
        have hle := w.read_le 0
        have hlong := hlead.interval_le
        simp only [window, ForecastWindow.windowEnd]
        omega
    | succ k =>
        have hbefore := hfirst k (Nat.lt_succ_self k)
        rw [w.covers_iff hs hlead] at hbefore
        have hge := w.read_ge k
        have hle := w.read_le (k + 1)
        rw [Nat.add_one_mul k] at hle
        omega
  have hwatermark : s.watermarkAt (w.readMs k) ≤
      w.readMs k / 1000 - s.settlementSeconds := by
    unfold ForecastSettings.watermarkAt watermark
    exact Nat.div_mul_le_self _ _
  simp only [window, ForecastWindow.windowEnd] at hread hend
  omega

/-- The first read that covers a window holds every target, each received by
a read that found it finalized. -/
theorem history_first {t : ℕ} (ht : t ∈ w.window.targetTimestamps) :
    ∃ r, w.history k t = some r ∧ ∃ j ≤ k, r.firstReceivedMs = w.readMs j ∧
      t ≤ s.watermarkAt (w.readMs j) := by
  obtain ⟨hcovered, hrecent⟩ := w.watermarkAt_first hs hlead hcovers hfirst ht
  obtain ⟨r, hr⟩ := w.receiptsBefore_isSome hs ht hcovered hrecent
  obtain ⟨j, hj, hreceived⟩ := w.receiptsBefore_some hs ht hr
  obtain ⟨hgrid, -, -⟩ := w.mem_targets hs ht
  refine ⟨r, ?_, j, Nat.le_of_lt_succ hj, hreceived⟩
  -- The history starts on the grid, so it keeps the targets it still covers.
  have hstart := hs.add_interval_le (watermarkAt_mod s (w.readMs k)) hgrid
    hrecent
  rw [history, if_pos ⟨by omega, hcovered⟩, hr]

/-- A window is scored exactly when the first read that covers it comes by the
truth deadline. -/
theorem closesScored_iff : w.ClosesScored ↔
    w.readMs k ≤ truthDeadlineMs w.window.windowEnd s.settlementSeconds
      s.outcomeGraceSeconds := by
  have hcheck := w.checkWindow_targets hs hlead
  have hlast := w.getLastD_targets hs hlead
  have hclose := (w.covers_iff hs hlead k).mp hcovers
  have hpending : ∀ j < k, w.outcomeAt j = .ok none := by
    intro j hj
    have hearly := hfirst j hj
    rw [w.covers_iff hs hlead, not_le] at hearly
    exact windowOutcome_pending hcheck (by rw [hlast]; exact hearly)
  constructor
  · rintro ⟨n, p, hscored, hopen⟩
    by_contra hlate
    -- Only the read `k` covers the last target, so it is received then.
    have hmissing : (w.history k).by (truthDeadlineMs
        (w.window.targetTimestamps.getLastD 0) s.settlementSeconds
        s.outcomeGraceSeconds) w.window.windowEnd = none := by
      obtain ⟨r, hr, j, hj, hreceived, hcovered⟩ := w.history_first hs hlead
        hcovers hfirst (w.windowEnd_mem hs hlead)
      have hjk : j = k := by
        by_contra hne
        exact hfirst j (lt_of_le_of_ne hj hne) hcovered
      rw [hjk] at hreceived
      rw [hlast]
      simp only [Receipts.by, hr, Option.filter, hreceived, hlate,
        decide_false, Bool.false_eq_true, if_false]
    have hpast : truthDeadlineMs (w.window.targetTimestamps.getLastD 0)
        s.settlementSeconds s.outcomeGraceSeconds ≤ w.readMs k := by
      rw [hlast]
      exact (not_le.mp hlate).le
    have hclosed : ∃ q, w.outcomeAt k = .ok (some (.unscorable q)) :=
      windowOutcome_unscorable hcheck (w.windowEnd_mem hs hlead) hpast hmissing
    obtain ⟨q, hclosed⟩ := hclosed
    rcases lt_trichotomy n k with hlt | heq | hgt
    · rw [hpending n hlt] at hscored
      cases hscored
    · rw [heq, hclosed] at hscored
      cases hscored
    · rw [hopen k hgt] at hclosed
      cases hclosed
  · intro hdeadline
    have hall : ∀ t ∈ w.window.targetTimestamps, ((w.history k).by
        (min (w.readMs k) (truthDeadlineMs (w.window.targetTimestamps.getLastD
          0) s.settlementSeconds s.outcomeGraceSeconds)) t).isSome = true := by
      intro t ht
      obtain ⟨r, hr, j, hj, hreceived, -⟩ := w.history_first hs hlead hcovers
        hfirst ht
      have hby : r.firstReceivedMs ≤ w.readMs k :=
        hreceived ▸ w.readMs_mono hs hlead hj
      rw [hlast, Nat.min_eq_left hdeadline]
      simp [Receipts.by, hr, Option.filter, hby]
    have hscored : ∃ p, w.outcomeAt k = .ok (some (.scored p)) :=
      windowOutcome_scored hcheck (by rw [hlast]; exact hclose) hall
    obtain ⟨p, hscored⟩ := hscored
    exact ⟨k, p, hscored, hpending⟩

end First

/-- There is a first read that covers the window. -/
theorem exists_first : ∃ k, w.Covers k ∧ ∀ j < k, ¬w.Covers j := by
  have hcovers : ∃ k, w.Covers k := by
    refine ⟨lead.leadSeconds + s.settlementSeconds, ?_⟩
    rw [w.covers_iff hs hlead]
    refine le_trans ?_ (w.read_ge _)
    have hle := Nat.le_mul_of_pos_right
      (lead.leadSeconds + s.settlementSeconds) hs.interval_pos
    simp only [window, ForecastWindow.windowEnd]
    omega
  exact ⟨Nat.find hcovers, Nat.find_spec hcovers,
    fun j hj => Nat.find_min hcovers hj⟩

end Accepted

end Watched

/-- The grid point from which a read covers the end of a window that starts at
zero. -/
def coveringPoint (s : ForecastSettings) (lead : LeadSelection) : ℕ :=
  lead.leadSeconds + s.settlementSeconds +
    (s.sampleIntervalSeconds - s.settlementSeconds % s.sampleIntervalSeconds) %
      s.sampleIntervalSeconds

/-- The longest wait for the truth after the settlement: to the next grid
point, and the allowance of the read there. -/
def truthWait (s : ForecastSettings) (lead : LeadSelection) : ℕ :=
  (s.sampleIntervalSeconds - s.settlementSeconds % s.sampleIntervalSeconds) %
    s.sampleIntervalSeconds + lead.actuationAllowanceSeconds

section Waiting

variable {s : ForecastSettings} {lead : LeadSelection} (hs : s.Accepted)
  (hlead : lead.Fits s)

include hs

theorem coveringPoint_lt (lead : LeadSelection) :
    coveringPoint s lead <
      lead.leadSeconds + s.settlementSeconds + s.sampleIntervalSeconds :=
  Nat.add_lt_add_left (Nat.mod_lt _ hs.interval_pos) _

include hlead

theorem interval_dvd_coveringPoint :
    s.sampleIntervalSeconds ∣ coveringPoint s lead := by
  have hsettled : s.sampleIntervalSeconds ∣ s.settlementSeconds +
      (s.sampleIntervalSeconds - s.settlementSeconds %
        s.sampleIntervalSeconds) % s.sampleIntervalSeconds := by
    have hmod := Nat.mod_lt s.settlementSeconds hs.interval_pos
    have hdiv := Nat.div_add_mod s.settlementSeconds s.sampleIntervalSeconds
    have hsum : s.settlementSeconds + (s.sampleIntervalSeconds -
        s.settlementSeconds % s.sampleIntervalSeconds) =
        s.sampleIntervalSeconds * (s.settlementSeconds /
          s.sampleIntervalSeconds + 1) := by
      rw [Nat.mul_add_one]
      omega
    rw [Nat.dvd_iff_mod_eq_zero, Nat.add_mod_mod, hsum]
    exact Nat.mul_mod_right _ _
  rw [coveringPoint, Nat.add_assoc]
  exact Nat.dvd_add (Nat.dvd_of_mod_eq_zero hlead.multiple) hsettled

/-- The first read that covers a window is that of the covering point, or an
earlier one. -/
theorem Watched.first_le (w : Watched s lead) {k : ℕ}
    (hfirst : ∀ j < k, ¬w.Covers j) :
    k * s.sampleIntervalSeconds ≤ coveringPoint s lead := by
  cases k with
  | zero => simp
  | succ k =>
      have hbefore := hfirst k (Nat.lt_succ_self k)
      rw [w.covers_iff hs hlead] at hbefore
      have hge := w.read_ge k
      obtain ⟨n, hn⟩ := interval_dvd_coveringPoint hs hlead
      have hlt : k * s.sampleIntervalSeconds < n * s.sampleIntervalSeconds := by
        rw [Nat.mul_comm n, ← hn, coveringPoint]
        simp only [Watched.window, ForecastWindow.windowEnd] at hbefore
        omega
      rw [hn, Nat.mul_comm _ n]
      exact Nat.mul_le_mul_right _ (Nat.lt_of_mul_lt_mul_right hlt)

omit hs hlead in
/-- Reads at their grid origins before the covering point, and at the end of
their allowance from it on. -/
def Watched.latest (hs : s.Accepted) (hlead : lead.Fits s)
    (hallowance : lead.actuationAllowanceSeconds < s.sampleIntervalSeconds)
    (base : ℚ) (upper : Option ℚ) (value : ℕ → ℚ) : Watched s lead where
  origin := 0
  on_grid := Nat.zero_mod _
  base
  upper
  value
  observed := fun _ => none
  unseen := fun _ _ => rfl
  readMs := fun k =>
    if k * s.sampleIntervalSeconds < coveringPoint s lead then
      k * s.sampleIntervalSeconds * 1000
    else
      (k * s.sampleIntervalSeconds + lead.actuationAllowanceSeconds) * 1000
  read_ge := by
    intro k
    split <;> omega
  read_le := by
    intro k
    split <;> omega
  issued := by
    have hlong := hlead.interval_le
    have hdt := hs.interval_pos
    have hpos : 0 * s.sampleIntervalSeconds < coveringPoint s lead := by
      unfold coveringPoint
      omega
    rw [refuseLate_ok_iff hs hlead, if_pos hpos]
    omega

section Latest

variable
  (hallowance : lead.actuationAllowanceSeconds < s.sampleIntervalSeconds)
  (base : ℚ) (upper : Option ℚ) (value : ℕ → ℚ)

/-- The latest reads score a window exactly when the grace covers the wait. -/
theorem Watched.latest_closesScored_iff :
    (Watched.latest hs hlead hallowance base upper value).ClosesScored ↔
      truthWait s lead ≤ s.outcomeGraceSeconds := by
  let w := Watched.latest hs hlead hallowance base upper value
  obtain ⟨n, hn⟩ := interval_dvd_coveringPoint hs hlead
  have hpoint : n * s.sampleIntervalSeconds = coveringPoint s lead := by
    rw [hn, Nat.mul_comm]
  have hread : w.readMs n = (coveringPoint s lead +
      lead.actuationAllowanceSeconds) * 1000 := by
    simp only [w, Watched.latest, hpoint, lt_irrefl, if_false]
  have hend : w.window.windowEnd = lead.leadSeconds :=
    Nat.zero_add _
  have hcovers : w.Covers n := by
    rw [w.covers_iff hs hlead, hread, hend, coveringPoint]
    omega
  have hfirst : ∀ j < n, ¬w.Covers j := by
    intro j hj
    have hnext : (j + 1) * s.sampleIntervalSeconds ≤ coveringPoint s lead := by
      rw [← hpoint]
      exact Nat.mul_le_mul_right _ hj
    have hlt := coveringPoint_lt hs lead
    have hdt := hs.interval_pos
    rw [Nat.add_one_mul] at hnext
    have hbefore : j * s.sampleIntervalSeconds < coveringPoint s lead := by
      omega
    have hearly : w.readMs j = j * s.sampleIntervalSeconds * 1000 := by
      simp only [w, Watched.latest, hbefore, if_true]
    rw [w.covers_iff hs hlead, hearly, hend]
    omega
  rw [w.closesScored_iff hs hlead hcovers hfirst, hread, hend, truthDeadlineMs,
    coveringPoint, truthWait]
  omega

end Latest

end Waiting

/-- With one read in each cadence, every issued window is scored exactly when
the grace covers the wait for the read that finds its last target, or the
allowance leaves no time to issue. -/
theorem windows_mature_iff {p : PredictionSpec} {s : ForecastSettings}
    (hsettings : resolveSettings p = .ok s) {status : Option LeadStatus}
    {generation : ℕ} {lead : LeadSelection}
    (hlead : resolveLead status s generation = .ok lead) :
    (∀ w : Watched s lead, w.ClosesScored) ↔
      s.sampleIntervalSeconds ≤ lead.actuationAllowanceSeconds ∨
        truthWait s lead ≤ s.outcomeGraceSeconds := by
  have hs := resolveSettings_accepted hsettings
  have hfits := resolveLead_fits hlead
  constructor
  · intro hall
    rcases Nat.lt_or_ge lead.actuationAllowanceSeconds s.sampleIntervalSeconds
      with hallowance | hallowance
    · have hlatest := hall (.latest hs hfits hallowance 0 none fun _ => 0)
      exact .inr ((Watched.latest_closesScored_iff ..).mp hlatest)
    · exact .inl hallowance
  · intro hwait w
    have hallowance := w.allowance_lt hs hfits
    have hgrace := hwait.resolve_left (not_le.mpr hallowance)
    obtain ⟨k, hcovers, hfirst⟩ := w.exists_first hs hfits
    have hpoint := w.first_le hs hfits hfirst
    rw [w.closesScored_iff hs hfits hcovers hfirst]
    refine (w.read_le k).trans (Nat.mul_le_mul_right 1000 ?_)
    simp only [coveringPoint, truthWait, Watched.window,
      ForecastWindow.windowEnd] at hpoint hgrace ⊢
    omega

namespace TruthWitness

/-- A lead of two five-minute cadences with thirty seconds to act. -/
def status : LeadStatus := ⟨600, 60, 30, "configured", 0, 1⟩

def lead : LeadSelection := ⟨600, 60, 30, .configured, 0, 1⟩

/-- The default settings with this grace. -/
def graced (grace : ℕ) : ForecastSettings := { outcomeGraceSeconds := grace }

theorem resolveSettings_graced (grace : ℕ) (h : grace = 0 ∨ grace = 600) :
    resolveSettings { outcomeGraceSeconds := some grace } =
      .ok (graced grace) := by
  rcases h with rfl | rfl <;> decide +kernel

theorem resolveLead_graced (grace : ℕ) (h : grace = 0 ∨ grace = 600) :
    resolveLead (some status) (graced grace) 1 = .ok lead := by
  rcases h with rfl | rfl <;> decide +kernel

/-- The default grace of ten minutes covers the wait of three and a half. -/
theorem default_windows_mature :
    resolveSettings { outcomeGraceSeconds := some 600 } = .ok (graced 600) ∧
    resolveLead (some status) (graced 600) 1 = .ok lead ∧
    ∀ w : Watched (graced 600) lead, w.ClosesScored := by
  have hsettings := resolveSettings_graced 600 (.inr rfl)
  have hlead := resolveLead_graced 600 (.inr rfl)
  exact ⟨hsettings, hlead,
    (windows_mature_iff hsettings hlead).mpr (.inr (by decide))⟩

/-- Without a grace, the settlement of two minutes ends between two reads of
the five-minute grid, and the window is over before the next one. -/
theorem window_without_grace_unscored :
    resolveSettings { outcomeGraceSeconds := some 0 } = .ok (graced 0) ∧
    resolveLead (some status) (graced 0) 1 = .ok lead ∧
    ¬∀ w : Watched (graced 0) lead, w.ClosesScored := by
  have hsettings := resolveSettings_graced 0 (.inl rfl)
  have hlead := resolveLead_graced 0 (.inl rfl)
  refine ⟨hsettings, hlead, fun hall => ?_⟩
  have hscored := hall (.latest (resolveSettings_accepted hsettings)
    (resolveLead_fits hlead) (by decide) 1 (some 2) fun _ => 1)
  rw [Watched.latest_closesScored_iff] at hscored
  exact absurd hscored (by decide)

end TruthWitness

end PredictiveAutoscaler.Forecasting
