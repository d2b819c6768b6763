/-
Chunked history is the plain read: the chunks of a plan cover the grid once,
in order, whatever their size; a backend that answers from one partial
function is read as that function; and an answer with a bad sample ends the
read.
-/
import PredictiveAutoscaler.Forecasting.History
import Mathlib.Data.List.GetD

namespace PredictiveAutoscaler.Forecasting.History

/-- A number of points of a grid from a first one on. -/
def gridPoints (start step : ℤ) (n : ℕ) : List ℤ :=
  (List.range n).map fun i : ℕ => start + i * step

theorem gridPoints_add (start step : ℤ) (m n : ℕ) :
    gridPoints start step (m + n) =
      gridPoints start step m ++ gridPoints (start + m * step) step n := by
  unfold gridPoints
  rw [List.range_add, List.map_append, List.map_map]
  refine congrArg (_ ++ ·) (List.map_congr_left fun i _ => ?_)
  simp only [Function.comp_apply]
  push_cast
  ring

theorem gridPoints_succ (start step : ℤ) (n : ℕ) :
    gridPoints start step (n + 1) =
      start :: gridPoints (start + step) step n := by
  rw [Nat.add_comm, gridPoints_add]
  simp [gridPoints]

/-- The grid times of a chunk, both bounds included. -/
def chunkPoints (interval : ℤ) (chunk : ℤ × ℤ) : List ℤ :=
  gridPoints chunk.1 interval ((chunk.2 - chunk.1) / interval + 1).toNat

section Plan

variable {interval : ℤ} (hstep : 0 < interval) {maxPoints : ℤ}
  (hmax : 1 ≤ maxPoints)

include hstep

theorem count_points (s : ℤ) (n : ℕ) (hn : 0 < n) :
    ((s + ((n : ℤ) - 1) * interval - s) / interval + 1).toNat = n := by
  rw [show s + ((n : ℤ) - 1) * interval - s = ((n : ℤ) - 1) * interval by ring,
    Int.mul_ediv_cancel _ hstep.ne']
  omega

theorem chunkPoints_eq (s : ℤ) (n : ℕ) (hn : 0 < n) :
    chunkPoints interval (s, s + ((n : ℤ) - 1) * interval) =
      gridPoints s interval n :=
  congrArg (gridPoints s interval) (count_points hstep s n hn)

theorem chunksFrom_end (s : ℤ) (rounds : ℕ) :
    chunksFrom (s + (((0 : ℕ) : ℤ) - 1) * interval) interval maxPoints rounds
      s = [] := by
  cases rounds with
  | zero => rfl
  | succ rounds => exact if_neg (by push_cast; omega)

include hmax

/-- The next chunk holds as many points as there are, up to the maximum. -/
theorem chunksFrom_next (s : ℤ) {n : ℕ} (hn : 0 < n) (rounds : ℕ) :
    chunksFrom (s + ((n : ℤ) - 1) * interval) interval maxPoints (rounds + 1)
        s =
      (s, s + ((min n maxPoints.toNat : ℕ) - 1 : ℤ) * interval) ::
        chunksFrom (s + (min n maxPoints.toNat : ℕ) * interval +
            ((n - min n maxPoints.toNat : ℕ) - 1 : ℤ) * interval) interval
          maxPoints rounds (s + (min n maxPoints.toNat : ℕ) * interval) := by
  have hlast : s ≤ s + ((n : ℤ) - 1) * interval := by
    have := Int.mul_nonneg (by omega : 0 ≤ (n : ℤ) - 1) hstep.le
    omega
  have hbound : min (s + ((n : ℤ) - 1) * interval)
      (s + (maxPoints - 1) * interval) =
      s + ((min n maxPoints.toNat : ℕ) - 1 : ℤ) * interval := by
    rcases Nat.le_total n maxPoints.toNat with hle | hle
    · have hprod : ((n : ℤ) - 1) * interval ≤ (maxPoints - 1) * interval :=
        Int.mul_le_mul_of_nonneg_right (by omega) hstep.le
      rw [Nat.min_eq_left hle, min_eq_left (by omega)]
    · have hprod : (maxPoints - 1) * interval ≤ ((n : ℤ) - 1) * interval :=
        Int.mul_le_mul_of_nonneg_right (by omega) hstep.le
      rw [Nat.min_eq_right hle, min_eq_right (by omega),
        Int.toNat_of_nonneg (by omega)]
  have hnext : s + ((min n maxPoints.toNat : ℕ) - 1 : ℤ) * interval + interval =
      s + (min n maxPoints.toNat : ℕ) * interval := by ring
  have hstop : s + ((n : ℤ) - 1) * interval =
      s + (min n maxPoints.toNat : ℕ) * interval +
        ((n - min n maxPoints.toNat : ℕ) - 1 : ℤ) * interval := by
    rw [Nat.cast_sub (Nat.min_le_left n _)]
    ring
  rw [chunksFrom, if_pos hlast]
  dsimp only
  rw [hbound, hnext, ← hstop]

/-- The chunks cover the points once, in order, and each is small enough. -/
theorem chunksFrom_covers (s : ℤ) (n rounds : ℕ) (hrounds : n ≤ rounds) :
    (chunksFrom (s + ((n : ℤ) - 1) * interval) interval maxPoints rounds
        s).flatMap (chunkPoints interval) = gridPoints s interval n ∧
      ∀ chunk ∈ chunksFrom (s + ((n : ℤ) - 1) * interval) interval maxPoints
        rounds s, ((chunkPoints interval chunk).length : ℤ) ≤ maxPoints := by
  induction rounds generalizing s n with
  | zero =>
      rw [Nat.le_zero.mp hrounds]
      exact ⟨rfl, fun chunk h => absurd h List.not_mem_nil⟩
  | succ rounds ih =>
      rcases Nat.eq_zero_or_pos n with rfl | hn
      · rw [chunksFrom_end hstep]
        exact ⟨rfl, fun chunk h => absurd h List.not_mem_nil⟩
      · obtain ⟨m, hm⟩ : ∃ m, m = min n maxPoints.toNat := ⟨_, rfl⟩
        have hm0 : 0 < m := by omega
        have hmn : m + (n - m) = n := by omega
        obtain ⟨hcover, hsmall⟩ := ih (s + m * interval) (n - m) (by omega)
        rw [chunksFrom_next hstep hmax s hn rounds, ← hm, List.flatMap_cons,
          hcover, chunkPoints_eq hstep s m hm0, ← gridPoints_add, hmn]
        refine ⟨rfl, fun chunk hchunk => ?_⟩
        rcases List.mem_cons.mp hchunk with rfl | hchunk
        · rw [chunkPoints_eq hstep s m hm0, gridPoints, List.length_map,
            List.length_range]
          omega
        · exact hsmall chunk hchunk

end Plan

/-- The plan of a window on the grid. -/
theorem planChunks_covers {start stop interval maxPoints : ℤ}
    (hstep : 0 < interval) (hmax : 1 ≤ maxPoints)
    (hgrid : interval ∣ stop - start) (hle : start ≤ stop) :
    ∃ n : ℕ, 0 < n ∧ stop = start + ((n : ℤ) - 1) * interval ∧
      planChunks start stop interval maxPoints =
        .ok (chunksFrom stop interval maxPoints n start) := by
  obtain ⟨k, hk⟩ := hgrid
  have hk0 : 0 ≤ k := by
    by_contra hneg
    have := Int.mul_neg_of_pos_of_neg hstep (not_le.mp hneg)
    omega
  refine ⟨(k + 1).toNat, by omega, ?_, ?_⟩
  · rw [Int.toNat_of_nonneg (by omega), Int.add_sub_cancel, mul_comm, ← hk]
    ring
  · unfold planChunks
    rw [if_neg (by
      rw [hk, Int.mul_emod_right]
      omega), hk, Int.mul_ediv_cancel_left _ hstep.ne']

/-- A sample that says a time and a rate. -/
def Decodes (floatText : String → Option PyFloat) (sample : Value)
    (p : ℤ × ℚ) : Prop :=
  ∃ ts raw, sample = .list [ts, raw] ∧ sampleTime ts = .ok p.1 ∧
    sampleRate floatText raw = .ok p.2

/-- A time is on the grid, in the chunk and after a last one. -/
structure Fits (lo hi interval : ℤ) (last : Option ℤ) (t : ℤ) : Prop where
  grid : t % interval = 0
  lo_le : lo ≤ t
  le_hi : t ≤ hi
  after : ∀ x ∈ last, x < t

/-- What the samples of a chunk say, all of it sound. -/
def Sound (floatText : String → Option PyFloat) (lo hi interval : ℤ) :
    Option ℤ → List Value → List (ℤ × ℚ) → Prop
  | _, [], [] => True
  | last, sample :: rest, p :: ps =>
      Decodes floatText sample p ∧ Fits lo hi interval last p.1 ∧
        Sound floatText lo hi interval (some p.1) rest ps
  | _, _, _ => False

section Samples

variable {floatText : String → Option PyFloat} {lo hi interval : ℤ}
  {last : Option ℤ}

theorem parseSample_eq_ok {sample : Value} {p : ℤ × ℚ} :
    parseSample floatText lo hi interval last sample = .ok p ↔
      Decodes floatText sample p ∧ Fits lo hi interval last p.1 := by
  constructor
  · intro h
    unfold parseSample at h
    split at h
    · rename_i ts raw
      obtain ⟨t, ht, h⟩ := Except.bind_eq_ok_iff.mp h
      split at h
      · cases h
      rename_i hgrid
      split at h
      · cases h
      rename_i hchunk
      split at h
      · cases h
      rename_i horder
      obtain ⟨rps, hrps, h⟩ := Except.bind_eq_ok_iff.mp h
      cases h
      rw [not_not] at hgrid hchunk
      refine ⟨⟨ts, raw, rfl, ht, hrps⟩, hgrid, hchunk.1, hchunk.2, ?_⟩
      intro x hx
      exact not_le.mp fun hle => horder ⟨x, hx, hle⟩
    · cases h
  · rintro ⟨⟨ts, raw, rfl, ht, hrps⟩, hfits⟩
    unfold parseSample
    refine Except.bind_eq_ok_iff.mpr ⟨p.1, ht, ?_⟩
    rw [if_neg (not_not.mpr hfits.grid),
      if_neg (not_not.mpr ⟨hfits.lo_le, hfits.le_hi⟩), if_neg]
    · exact Except.bind_eq_ok_iff.mpr ⟨p.2, hrps, rfl⟩
    · rintro ⟨x, hx, hle⟩
      exact absurd (hfits.after x hx) (not_lt.mpr hle)

theorem parseSamples_eq_ok {samples : List Value} {ps : List (ℤ × ℚ)} :
    parseSamples floatText lo hi interval last samples = .ok ps ↔
      Sound floatText lo hi interval last samples ps := by
  induction samples generalizing last ps with
  | nil =>
      cases ps with
      | nil => exact iff_of_true rfl trivial
      | cons p ps => exact iff_of_false nofun id
  | cons sample rest ih =>
      unfold parseSamples
      rw [Except.bind_eq_ok_iff]
      constructor
      · rintro ⟨p, hp, h⟩
        obtain ⟨ps', hps', h⟩ := Except.bind_eq_ok_iff.mp h
        cases h
        obtain ⟨hdecodes, hfits⟩ := parseSample_eq_ok.mp hp
        exact ⟨hdecodes, hfits, ih.mp hps'⟩
      · intro h
        cases ps with
        | nil => exact absurd h id
        | cons p ps =>
            obtain ⟨hdecodes, hfits, hrest⟩ := h
            exact ⟨p, parseSample_eq_ok.mpr ⟨hdecodes, hfits⟩,
              Except.bind_eq_ok_iff.mpr ⟨ps, ih.mpr hrest, rfl⟩⟩

/-- An integer beyond the doubles. -/
def Huge (v : Value) : Prop := ∃ n : ℤ, v = .int n ∧ parseFloat n = none

/-- A sample that stops the parse with an integer beyond the doubles: as its
time, or as the rate of a time that fits. -/
def Overflows (lo hi interval : ℤ) (last : Option ℤ) (sample : Value) :
    Prop :=
  ∃ ts raw, sample = .list [ts, raw] ∧
    (Huge ts ∨ Huge raw ∧ ∃ t, sampleTime ts = .ok t ∧
      Fits lo hi interval last t)

theorem sampleTime_error {v : Value} {e : ReadError}
    (h : sampleTime v = .error e) :
    (∃ m, e = .historyRefused m) ∧ ¬Huge v ∨ e = tooLarge ∧ Huge v := by
  unfold sampleTime at h
  split at h
  · rename_i n
    split at h
    · rename_i hn
      cases h
      exact .inr ⟨rfl, n, rfl, Option.isNone_iff_eq_none.mp hn⟩
    · cases h
  · rename_i q
    split at h
    · cases h
    · cases h
      exact .inl ⟨⟨_, rfl⟩, fun ⟨n, hn, _⟩ => nomatch hn⟩
  · rename_i hint _
    cases h
    exact .inl ⟨⟨_, rfl⟩, fun ⟨n, hn, _⟩ => hint n hn⟩

theorem finiteRate_error {x : PyFloat} {e : ReadError}
    (h : finiteRate x = .error e) : ∃ m, e = .historyRefused m := by
  unfold finiteRate at h
  split at h
  · split at h
    · cases h
      exact ⟨_, rfl⟩
    · cases h
  · cases h
    exact ⟨_, rfl⟩

theorem sampleRate_error {v : Value} {e : ReadError}
    (h : sampleRate floatText v = .error e) :
    (∃ m, e = .historyRefused m) ∧ ¬Huge v ∨ e = tooLarge ∧ Huge v := by
  unfold sampleRate at h
  split at h
  · split at h
    · exact .inl ⟨finiteRate_error h, fun ⟨n, hn, _⟩ => nomatch hn⟩
    · cases h
      exact .inl ⟨⟨_, rfl⟩, fun ⟨n, hn, _⟩ => nomatch hn⟩
  · rename_i n
    split at h
    · rename_i q hq
      refine .inl ⟨finiteRate_error h, ?_⟩
      rintro ⟨n', hn', hnone⟩
      cases hn'
      exact absurd (hq.symm.trans hnone) nofun
    · rename_i hnone
      cases h
      exact .inr ⟨rfl, n, rfl, hnone⟩
  · exact .inl ⟨finiteRate_error h, fun ⟨n, hn, _⟩ => nomatch hn⟩
  · rename_i hint _
    cases h
    exact .inl ⟨⟨_, rfl⟩, fun ⟨n, hn, _⟩ => hint n hn⟩

theorem Huge.sampleTime {v : Value} (h : Huge v) :
    sampleTime v = .error tooLarge := by
  obtain ⟨n, rfl, hn⟩ := h
  exact if_pos (Option.isNone_iff_eq_none.mpr hn)

theorem overflows_list {ts raw : Value} :
    Overflows lo hi interval last (.list [ts, raw]) ↔
      Huge ts ∨ Huge raw ∧ ∃ t, sampleTime ts = .ok t ∧
        Fits lo hi interval last t := by
  refine ⟨?_, fun h => ⟨ts, raw, rfl, h⟩⟩
  rintro ⟨ts', raw', heq, h⟩
  cases heq
  exact h

/-- A time that does not fit is refused before the rate is read. -/
theorem not_overflows_of_misfit {ts raw : Value} {t : ℤ}
    (ht : sampleTime ts = .ok t) (h : ¬Fits lo hi interval last t) :
    ¬Overflows lo hi interval last (.list [ts, raw]) := by
  rw [overflows_list]
  rintro (hts | ⟨-, t', ht', hfits⟩)
  · exact absurd (ht.symm.trans hts.sampleTime) nofun
  · rw [Except.ok.inj (ht.symm.trans ht')] at h
    exact h hfits

/-- A sample that is not taken is refused, or its integer is too large. -/
theorem parseSample_error {sample : Value} {e : ReadError}
    (h : parseSample floatText lo hi interval last sample = .error e) :
    (∃ m, e = .historyRefused m) ∧ ¬Overflows lo hi interval last sample ∨
      e = tooLarge ∧ Overflows lo hi interval last sample := by
  unfold parseSample at h
  split at h
  · rename_i ts raw
    cases ht : sampleTime ts with
    | error e' =>
        rw [ht] at h
        cases h
        rcases sampleTime_error ht with ⟨hm, hhuge⟩ | ⟨rfl, hhuge⟩
        · refine .inl ⟨hm, fun hover => ?_⟩
          rcases overflows_list.mp hover with hts | ⟨-, t, ht', -⟩
          · exact hhuge hts
          · exact absurd (ht.symm.trans ht') nofun
        · exact .inr ⟨rfl, overflows_list.mpr (.inl hhuge)⟩
    | ok t =>
        rw [ht] at h
        simp only [bind, Except.bind] at h
        split at h
        · rename_i hgrid
          cases h
          exact .inl ⟨⟨_, rfl⟩, not_overflows_of_misfit ht fun hfits =>
            hgrid hfits.grid⟩
        rename_i hgrid
        split at h
        · rename_i hchunk
          cases h
          exact .inl ⟨⟨_, rfl⟩, not_overflows_of_misfit ht fun hfits =>
            hchunk ⟨hfits.lo_le, hfits.le_hi⟩⟩
        rename_i hchunk
        split at h
        · rename_i horder
          cases h
          obtain ⟨x, hx, hle⟩ := horder
          exact .inl ⟨⟨_, rfl⟩, not_overflows_of_misfit ht fun hfits =>
            absurd (hfits.after x hx) (not_lt.mpr hle)⟩
        rename_i horder
        rw [not_not] at hgrid hchunk
        have hfits : Fits lo hi interval last t :=
          ⟨hgrid, hchunk.1, hchunk.2, fun x hx =>
            not_le.mp fun hle => horder ⟨x, hx, hle⟩⟩
        cases hrps : sampleRate floatText raw with
        | ok rps =>
            rw [hrps] at h
            cases h
        | error e' =>
            rw [hrps] at h
            cases h
            rcases sampleRate_error hrps with ⟨hm, hhuge⟩ | ⟨rfl, hhuge⟩
            · refine .inl ⟨hm, fun hover => ?_⟩
              rcases overflows_list.mp hover with hts | ⟨hraw, -⟩
              · exact absurd (ht.symm.trans hts.sampleTime) nofun
              · exact hhuge hraw
            · exact .inr ⟨rfl, overflows_list.mpr
                (.inr ⟨hhuge, t, ht, hfits⟩)⟩
  · rename_i hshape
    cases h
    exact .inl ⟨⟨_, rfl⟩, fun ⟨ts, raw, heq, _⟩ => hshape ts raw heq⟩

/-- The first sample that is not sound is an integer beyond the doubles where
the parse meets it. -/
def FirstOverflows (floatText : String → Option PyFloat)
    (lo hi interval : ℤ) : Option ℤ → List Value → Prop
  | _, [] => False
  | last, sample :: rest =>
      Overflows lo hi interval last sample ∨
        ∃ p, Decodes floatText sample p ∧ Fits lo hi interval last p.1 ∧
          FirstOverflows floatText lo hi interval (some p.1) rest

theorem Decodes.unique {sample : Value} {p p' : ℤ × ℚ}
    (h : Decodes floatText sample p) (h' : Decodes floatText sample p') :
    p = p' := by
  obtain ⟨ts, raw, rfl, hts, hraw⟩ := h
  obtain ⟨ts', raw', heq, hts', hraw'⟩ := h'
  cases heq
  exact Prod.ext (Except.ok.inj (hts.symm.trans hts'))
    (Except.ok.inj (hraw.symm.trans hraw'))

theorem Decodes.rate_nonneg {sample : Value} {p : ℤ × ℚ}
    (h : Decodes floatText sample p) : 0 ≤ p.2 := by
  have hfinite : ∀ {x q}, finiteRate x = .ok q → 0 ≤ q := by
    intro x q hq
    unfold finiteRate at hq
    split at hq
    · split at hq
      · cases hq
      · rename_i hneg
        cases hq
        exact not_lt.mp hneg
    · cases hq
  obtain ⟨ts, raw, -, -, hraw⟩ := h
  unfold sampleRate at hraw
  split at hraw
  · split at hraw
    · exact hfinite hraw
    · cases hraw
  · split at hraw
    · exact hfinite hraw
    · cases hraw
  · exact hfinite hraw
  · cases hraw

theorem Decodes.not_overflows {sample : Value} {p : ℤ × ℚ}
    (h : Decodes floatText sample p) :
    ¬Overflows lo hi interval last sample := by
  obtain ⟨ts, raw, rfl, hts, hraw⟩ := h
  rw [overflows_list]
  rintro (hhuge | ⟨⟨n, rfl, hn⟩, -⟩)
  · exact absurd (hts.symm.trans hhuge.sampleTime) nofun
  · unfold sampleRate at hraw
    simp only [hn] at hraw
    cases hraw

/-- Samples that are not all sound are refused, or stop the parse with an
integer that is too large. -/
theorem parseSamples_error {samples : List Value} {e : ReadError}
    (h : parseSamples floatText lo hi interval last samples = .error e) :
    (∃ m, e = .historyRefused m) ∧
        ¬FirstOverflows floatText lo hi interval last samples ∨
      e = tooLarge ∧
        FirstOverflows floatText lo hi interval last samples := by
  induction samples generalizing last with
  | nil => cases h
  | cons sample rest ih =>
      unfold parseSamples at h
      cases hp : parseSample floatText lo hi interval last sample with
      | error e' =>
          rw [hp] at h
          cases h
          have hnone : ∀ p, Decodes floatText sample p →
              ¬Fits lo hi interval last p.1 := fun p hdecodes hfits =>
            absurd (hp.symm.trans (parseSample_eq_ok.mpr ⟨hdecodes, hfits⟩))
              nofun
          rcases parseSample_error hp with ⟨hm, hover⟩ | ⟨rfl, hover⟩
          · refine .inl ⟨hm, ?_⟩
            rintro (h' | ⟨p, hdecodes, hfits, -⟩)
            · exact hover h'
            · exact hnone p hdecodes hfits
          · exact .inr ⟨rfl, .inl hover⟩
      | ok p =>
          rw [hp] at h
          obtain ⟨hdecodes, hfits⟩ := parseSample_eq_ok.mp hp
          have hover : ¬Overflows lo hi interval last sample :=
            hdecodes.not_overflows
          cases hps : parseSamples floatText lo hi interval (some p.1) rest with
          | ok ps =>
              simp only [bind, Except.bind, hps] at h
              cases h
          | error e' =>
              simp only [bind, Except.bind, hps] at h
              cases h
              rcases ih hps with ⟨hm, hrest⟩ | ⟨rfl, hrest⟩
              · refine .inl ⟨hm, ?_⟩
                rintro (h' | ⟨p', hdecodes', -, hrest'⟩)
                · exact hover h'
                · rw [← hdecodes.unique hdecodes'] at hrest'
                  exact hrest hrest'
              · exact .inr ⟨rfl, .inr ⟨p, hdecodes, hfits, hrest⟩⟩

end Samples

/-- A list of slots of which the first are filled. -/
def filled {α : Type} (n d : ℕ) (g : ℕ → Option α) : List (Option α) :=
  (List.range n).map fun i => if i < d then g i else none

section Slots

variable {α : Type} {n d : ℕ} {g : ℕ → Option α}

theorem filled_zero : filled n 0 g = List.replicate n none := by
  refine List.eq_replicate_iff.mpr ⟨by simp [filled], fun x hx => ?_⟩
  obtain ⟨i, -, rfl⟩ := List.mem_map.mp hx
  exact if_neg (Nat.not_lt_zero i)

theorem filled_all : filled n n g = (List.range n).map g :=
  List.map_congr_left fun _ hi => if_pos (List.mem_range.mp hi)

theorem filled_succ_of_none (h : g d = none) :
    filled n (d + 1) g = filled n d g := by
  refine List.map_congr_left fun i _ => ?_
  rcases Nat.lt_trichotomy i d with hlt | rfl | hgt
  · rw [if_pos hlt, if_pos (by omega)]
  · rw [if_pos (Nat.lt_succ_self i), if_neg (Nat.lt_irrefl i), h]
  · rw [if_neg (by omega), if_neg (by omega)]

theorem set_filled {v : α} (h : g d = some v) :
    (filled n d g).set d (some v) = filled n (d + 1) g := by
  refine List.ext_getElem (by simp [filled]) fun i hi hi' => ?_
  rw [List.getElem_set]
  simp only [filled, List.getElem_map, List.getElem_range]
  rcases Nat.lt_trichotomy i d with hlt | rfl | hgt
  · rw [if_neg hlt.ne', if_pos hlt, if_pos (by omega)]
  · rw [if_pos rfl, if_pos (Nat.lt_succ_self i), h]
  · rw [if_neg hgt.ne, if_neg (by omega), if_neg (by omega)]

end Slots

/-- The samples of a partial function at some times. -/
def samplesOf (f : ℤ → Option ℚ) (ts : List ℤ) : List (ℤ × ℚ) :=
  ts.filterMap fun t => (f t).map fun x => (t, x)

theorem samplesOf_cons (f : ℤ → Option ℚ) (t : ℤ) (ts : List ℤ) :
    samplesOf f (t :: ts) =
      match f t with
      | some x => (t, x) :: samplesOf f ts
      | none => samplesOf f ts := by
  unfold samplesOf
  rw [List.filterMap_cons]
  cases f t <;> rfl

/-- Samples of the points of a grid from one on are sound, after what is
before it. -/
theorem sound_points {floatText : String → Option PyFloat}
    {lo hi interval : ℤ} (hstep : 0 < interval) {f : ℤ → Option ℚ} {m : ℕ}
    {s : ℤ} (hgrid : s % interval = 0) (hlo : lo ≤ s)
    (hhi : s + ((m : ℤ) - 1) * interval ≤ hi) {last : Option ℤ}
    (hlast : ∀ x ∈ last, x < s) {samples : List Value}
    (h : List.Forall₂ (Decodes floatText) samples
      (samplesOf f (gridPoints s interval m))) :
    Sound floatText lo hi interval last samples
      (samplesOf f (gridPoints s interval m)) := by
  induction m generalizing s last samples with
  | zero =>
      cases h
      exact trivial
  | succ m ih =>
      have hnext : (s + interval) % interval = 0 := by
        rw [Int.add_emod_right, hgrid]
      have hhi' : s + interval + ((m : ℤ) - 1) * interval ≤ hi := by
        refine le_trans (le_of_eq ?_) hhi
        push_cast
        ring
      rw [gridPoints_succ, samplesOf_cons] at h ⊢
      cases hf : f s with
      | none =>
          rw [hf] at h
          refine ih hnext (by omega) hhi' (fun x hx => ?_) h
          have := hlast x hx
          omega
      | some x =>
          rw [hf] at h
          have hprod : 0 ≤ ((m : ℤ) + 1 - 1) * interval :=
            Int.mul_nonneg (by omega) hstep.le
          push_cast at hhi
          cases h with
          | cons hdecodes hrest =>
              refine ⟨hdecodes, ⟨hgrid, hlo, by omega, hlast⟩, ?_⟩
              refine ih hnext (by omega) hhi' (fun y hy => ?_) hrest
              rw [← Option.some.inj hy]
              omega

section Read

variable {Body : Type} {T : Transport Body} {limits : Limits} {r : Request}
  {f : ℤ → Option ℚ}

/-- The time of a slot. -/
def Request.slot (r : Request) (i : ℕ) : ℤ := r.start + i * r.interval

/-- The first slots hold what the function says, each with the time of
receipt that is its own. -/
structure Holds (r : Request) (f : ℤ → Option ℚ) (at' : ℕ → ℤ) (n d : ℕ)
    (st : ReadState Body) : Prop where
  values : st.values = filled n d fun i => f (r.slot i)
  received : st.received =
    filled n d fun i => (f (r.slot i)).map fun _ => at' i
  last : ∀ x ∈ st.last, x < r.slot d

theorem Request.slot_succ (r : Request) (d : ℕ) :
    r.slot (d + 1) = r.slot d + r.interval := by
  unfold Request.slot
  push_cast
  ring

theorem Request.slot_index {r : Request} (hstep : 0 < r.interval) (d : ℕ) :
    ((r.slot d - r.start) / r.interval).toNat = d := by
  rw [show r.slot d - r.start = d * r.interval by unfold Request.slot; ring,
    Int.mul_ediv_cancel _ (by omega), Int.toNat_natCast]

/-- The samples of the next points fill their slots. -/
theorem storeSamples_points (hstep : 0 < r.interval) {at' : ℕ → ℤ}
    {atMs : ℤ} {n m d : ℕ} (hat : ∀ i, d ≤ i → i < d + m → at' i = atMs)
    {st : ReadState Body} (h : Holds r f at' n d st) :
    ∃ st', storeSamples r atMs
        (samplesOf f (gridPoints (r.slot d) r.interval m)) st = .ok st' ∧
      Holds r f at' n (d + m) st' ∧ st'.bodies = st.bodies ∧
      st'.used = st.used := by
  induction m generalizing d st with
  | zero => exact ⟨st, rfl, h, rfl, rfl⟩
  | succ m ih =>
      have hat' : ∀ i, d + 1 ≤ i → i < d + 1 + m → at' i = atMs :=
        fun i hlo hhi => hat i (by omega) (by omega)
      have hadd : d + (m + 1) = d + 1 + m := by omega
      rw [gridPoints_succ, ← r.slot_succ, samplesOf_cons, hadd]
      cases hf : f (r.slot d) with
      | none =>
          refine ih hat' ⟨?_, ?_, fun x hx => ?_⟩
          · rw [filled_succ_of_none hf, h.values]
          · rw [filled_succ_of_none (by rw [hf]; rfl), h.received]
          · have := h.last x hx
            rw [r.slot_succ]
            omega
      | some x =>
          have horder : ¬∃ y ∈ st.last, r.slot d ≤ y := by
            rintro ⟨y, hy, hle⟩
            exact absurd (h.last y hy) (not_lt.mpr hle)
          have hnext : Holds r f at' n (d + 1) { st with
              last := some (r.slot d)
              values := st.values.set d (some x)
              received := st.received.set d (some atMs) } := by
            refine ⟨?_, ?_, fun y hy => ?_⟩
            · rw [← set_filled hf, h.values]
            · rw [← set_filled (v := atMs), h.received]
              rw [hf, ← hat d (by omega) (by omega)]
              rfl
            · rw [← Option.some.inj hy, r.slot_succ]
              omega
          obtain ⟨st', hst', hholds, hbodies, hused⟩ := ih hat' hnext
          refine ⟨st', ?_, hholds, hbodies, hused⟩
          rw [← hst', storeSamples, if_neg horder]
          dsimp only
          rw [Request.slot_index hstep]

/-- The query of a chunk. -/
def Request.rangeOf (r : Request) (chunk : ℤ × ℤ) : RangeQuery :=
  ⟨r.signal.query, chunk.1, chunk.2, r.interval⟩

/-- A backend that answers the ranges of a plan with the samples of one
partial function. -/
structure Answers (T : Transport Body) (r : Request) (plan : List (ℤ × ℤ))
    (f : ℤ → Option ℚ) (answer : RangeQuery → Body) : Prop where
  fetched : ∀ chunk ∈ plan, ∀ k left budget,
    T.fetch k (r.rangeOf chunk) left budget =
      .answered 200 (answer (r.rangeOf chunk))
  samples : ∀ chunk ∈ plan, ∃ doc samples,
    T.loads (answer (r.rangeOf chunk)) = some doc ∧
      answerSamples doc = .ok samples ∧
      List.Forall₂ (Decodes T.floatText) samples
        (samplesOf f (chunkPoints r.interval chunk))

/-- The bytes of the answers to some chunks. -/
def totalBytes (T : Transport Body) (r : Request)
    (answer : RangeQuery → Body) (plan : List (ℤ × ℤ)) : ℕ :=
  (plan.map fun chunk => T.size (answer (r.rangeOf chunk))).sum

theorem totalBytes_cons (T : Transport Body) (r : Request)
    (answer : RangeQuery → Body) (chunk : ℤ × ℤ) (rest : List (ℤ × ℤ)) :
    totalBytes T r answer (chunk :: rest) =
      T.size (answer (r.rangeOf chunk)) + totalBytes T r answer rest := rfl

/-- The deadline and the byte limits are not reached. -/
structure Within (T : Transport Body) (limits : Limits) (r : Request)
    (plan : List (ℤ × ℤ)) (answer : RangeQuery → Body) : Prop where
  deadline : ∀ k ≤ plan.length + 1,
    T.monotonic k - T.monotonic 0 < limits.deadline
  chunk : 0 < limits.maxChunkBytes
  total : (totalBytes T r answer plan : ℤ) < limits.maxTotalBytes

/-- The turn of a chunk whose answer holds the samples of the function. -/
theorem readChunk_points {answer : RangeQuery → Body} {plan : List (ℤ × ℤ)}
    (hanswers : Answers T r plan f answer) (hstep : 0 < r.interval)
    (hgrid : r.start % r.interval = 0) {at' : ℕ → ℤ} {n m d k : ℕ}
    (hm : 0 < m) (hat : ∀ i, d ≤ i → i < d + m → at' i = T.receiptMs k)
    {chunk : ℤ × ℤ} (hmem : chunk ∈ plan)
    (hchunk : chunk = (r.slot d, r.slot d + ((m : ℤ) - 1) * r.interval))
    (hdeadline : T.monotonic (k + 1) - T.monotonic 0 < limits.deadline)
    (hbudget : 0 < limits.maxChunkBytes) {st : ReadState Body}
    (hused : st.used + T.size (answer (r.rangeOf chunk)) <
      limits.maxTotalBytes) (h : Holds r f at' n d st) :
    ∃ st', readChunk T limits r k chunk st = .ok st' ∧
      Holds r f at' n (d + m) st' ∧
      st'.bodies = st.bodies ++ [answer (r.rangeOf chunk)] ∧
      st'.used = st.used + T.size (answer (r.rangeOf chunk)) := by
  have hstep' : (0 : ℤ) < r.interval := Int.natCast_pos.mpr hstep
  obtain ⟨doc, samples, hloads, hsamples, hdecodes⟩ :=
    hanswers.samples chunk hmem
  have hpoints : chunkPoints r.interval chunk =
      gridPoints (r.slot d) r.interval m := by
    rw [hchunk]
    exact chunkPoints_eq hstep' (r.slot d) m hm
  rw [hpoints] at hdecodes
  have hslot : r.slot d % r.interval = 0 := by
    unfold Request.slot
    rw [Int.add_mul_emod_self_right, hgrid]
  have hparse : parseChunk T.floatText chunk.1 chunk.2 r.interval doc =
      .ok (samplesOf f (gridPoints (r.slot d) r.interval m)) := by
    refine Except.bind_eq_ok_iff.mpr ⟨samples, hsamples, ?_⟩
    refine parseSamples_eq_ok.mpr (sound_points hstep' hslot ?_ ?_ ?_ hdecodes)
    · rw [hchunk]
    · rw [hchunk]
    · exact fun x hx => nomatch hx
  have hstart : Holds r f at' n d { st with
      used := st.used + T.size (answer (r.rangeOf chunk))
      bodies := st.bodies ++ [answer (r.rangeOf chunk)] } :=
    ⟨h.values, h.received, h.last⟩
  obtain ⟨st', hst', hholds, hbodies, hused'⟩ :=
    storeSamples_points hstep hat hstart
  refine ⟨st', ?_, hholds, hbodies, hused'⟩
  have hsize : (0 : ℤ) ≤ T.size (answer (r.rangeOf chunk)) :=
    Int.natCast_nonneg _
  unfold readChunk
  dsimp only
  have hleft := sub_pos.mpr hdeadline
  have hfetched := hanswers.fetched chunk hmem k
    (limits.deadline - (T.monotonic (k + 1) - T.monotonic 0))
    (min limits.maxChunkBytes (limits.maxTotalBytes - st.used))
  unfold Request.rangeOf at hfetched hst' hused
  rw [if_neg (not_le.mpr hleft),
    if_neg (not_le.mpr (lt_min hbudget (by omega))), hfetched]
  dsimp only
  rw [if_neg (by decide), if_neg (by decide), if_neg (by omega)]
  unfold Request.rangeOf at hloads
  rw [hloads]
  exact Except.bind_eq_ok_iff.mpr ⟨_, hparse, hst'⟩

/-- The turns of the chunks that remain. -/
theorem readChunks_points {answer : RangeQuery → Body} {plan : List (ℤ × ℤ)}
    (hanswers : Answers T r plan f answer) (hstep : 0 < r.interval)
    (hgrid : r.start % r.interval = 0) (hmax : 1 ≤ limits.maxPoints)
    {at' : ℕ → ℤ}
    (hat : ∀ i, at' i = T.receiptMs (i / limits.maxPoints.toNat)) {n : ℕ}
    (hdeadline : ∀ k ≤ plan.length + 1,
      T.monotonic k - T.monotonic 0 < limits.deadline)
    (hbudget : 0 < limits.maxChunkBytes) {rounds m d k : ℕ}
    (hrounds : m ≤ rounds) {rest : List (ℤ × ℤ)}
    (hrest : rest = chunksFrom (r.slot d + ((m : ℤ) - 1) * r.interval)
      r.interval limits.maxPoints rounds (r.slot d))
    (hmem : ∀ chunk ∈ rest, chunk ∈ plan) (hk : k + rest.length = plan.length)
    (hfull : 0 < m → d = k * limits.maxPoints.toNat) {st : ReadState Body}
    (hused : st.used + totalBytes T r answer rest < limits.maxTotalBytes)
    (h : Holds r f at' n d st) :
    ∃ st', readChunks T limits r k rest st = .ok st' ∧
      Holds r f at' n (d + m) st' ∧
      st'.bodies = st.bodies ++ rest.map fun chunk =>
        answer (r.rangeOf chunk) := by
  have hstep' : (0 : ℤ) < r.interval := Int.natCast_pos.mpr hstep
  induction rounds generalizing m d k rest st with
  | zero =>
      rw [Nat.le_zero.mp hrounds] at hrest ⊢
      rw [hrest]
      exact ⟨st, rfl, h, (List.append_nil _).symm⟩
  | succ rounds ih =>
      rcases Nat.eq_zero_or_pos m with rfl | hm
      · rw [hrest, chunksFrom_end hstep']
        exact ⟨st, rfl, h, (List.append_nil _).symm⟩
      · obtain ⟨w, hw⟩ : ∃ w, w = min m limits.maxPoints.toNat := ⟨_, rfl⟩
        have hw0 : 0 < w := by omega
        rw [chunksFrom_next hstep' hmax _ hm, ← hw] at hrest
        obtain ⟨later, hlater⟩ : ∃ later, later = chunksFrom (r.slot d +
            w * r.interval + ((m - w : ℕ) - 1 : ℤ) * r.interval) r.interval
            limits.maxPoints rounds (r.slot d + w * r.interval) := ⟨_, rfl⟩
        rw [← hlater] at hrest
        subst hrest
        have hd := hfull hm
        have hat' : ∀ i, d ≤ i → i < d + w → at' i = T.receiptMs k := by
          intro i hlo hhi
          have hdiv : i / limits.maxPoints.toNat = k := by
            refine Nat.div_eq_of_lt_le (by omega) ?_
            rw [Nat.succ_mul]
            omega
          rw [hat, hdiv]
        rw [List.length_cons] at hk
        rw [totalBytes_cons, Nat.cast_add] at hused
        obtain ⟨st', hst', hholds, hbodies, hused'⟩ :=
          readChunk_points hanswers hstep hgrid hw0 hat'
            (hmem _ List.mem_cons_self) rfl
            (hdeadline (k + 1) (by omega)) hbudget (by omega) h
        have hslot : r.slot d + w * r.interval = r.slot (d + w) := by
          unfold Request.slot
          push_cast
          ring
        obtain ⟨st'', hst'', hholds', hbodies'⟩ :=
          ih (m := m - w) (d := d + w) (k := k + 1) (by omega)
            (by rw [hlater, hslot])
            (fun chunk hchunk => hmem chunk (List.mem_cons_of_mem _ hchunk))
            (by omega)
            (by
              intro hleft
              have hfullChunk : w = limits.maxPoints.toNat := by omega
              rw [Nat.succ_mul]
              omega)
            (by rw [hused']; omega) hholds
        refine ⟨st'', Except.bind_eq_ok_iff.mpr ⟨st', hst', hst''⟩, ?_, ?_⟩
        · rwa [show d + w + (m - w) = d + m by omega] at hholds'
        · rw [hbodies', hbodies, List.append_assoc]
          rfl

/-- The points of the window of a request. -/
def Request.points (r : Request) : ℕ := (r.historySeconds / r.interval).toNat

/-- Usable parameters: a cadence and a whole number of its steps. -/
theorem Request.check_eq_ok (h : r.check T = .ok ()) :
    0 < r.interval ∧ 0 < r.points ∧
      r.historySeconds = r.points * r.interval := by
  unfold Request.check at h
  split at h
  · cases h
  split at h
  · cases h
  split at h
  · cases h
  rename_i hinterval
  split at h
  · cases h
  rename_i hhistory
  have hpositive : ∀ i ∈ allowedIntervals, 0 < i := by decide
  have hstep := hpositive _ (not_not.mp hinterval)
  rw [not_or, not_or, not_lt, not_not] at hhistory
  obtain ⟨hle, hgrid, -⟩ := hhistory
  have hcount : 1 ≤ r.historySeconds / r.interval :=
    (Int.le_ediv_iff_mul_le (by omega)).mpr (by omega)
  refine ⟨hstep, ?_, ?_⟩
  · unfold Request.points
    omega
  · unfold Request.points
    rw [Int.toNat_of_nonneg (by omega),
      Int.ediv_mul_cancel (Int.dvd_of_emod_eq_zero hgrid)]

theorem Request.stop_eq (r : Request)
    (h : r.historySeconds = r.points * r.interval) :
    r.stop = r.start + ((r.points : ℤ) - 1) * r.interval := by
  unfold Request.start
  rw [h]
  ring

theorem Request.start_emod (r : Request)
    (h : r.historySeconds = r.points * r.interval) :
    r.start % r.interval = 0 := by
  unfold Request.start Request.stop watermark
  rw [h]
  refine Int.emod_eq_zero_of_dvd ?_
  exact dvd_add (dvd_sub (Dvd.intro_left _ rfl) (Dvd.intro_left _ rfl))
    (dvd_refl _)

theorem Request.map_slots (r : Request) (n : ℕ) :
    ((List.range n).map fun i => f (r.slot i)) =
      (gridPoints r.start r.interval n).map f := by
  unfold gridPoints
  rw [List.map_map]
  rfl

/-- The plan of a window, in one round for each of its points at most. -/
theorem Request.plan_eq (h : r.check T = .ok ()) (hmax : 1 ≤ limits.maxPoints) :
    planChunks r.start r.stop r.interval limits.maxPoints =
      .ok (chunksFrom (r.start + ((r.points : ℤ) - 1) * r.interval)
        r.interval limits.maxPoints r.points r.start) := by
  obtain ⟨hstep, hpoints, hhistory⟩ := Request.check_eq_ok h
  have hstep' : (0 : ℤ) < r.interval := Int.natCast_pos.mpr hstep
  have hstop := r.stop_eq hhistory
  have hgrid : (r.interval : ℤ) ∣ r.stop - r.start := by
    rw [hstop, add_sub_cancel_left]
    exact Dvd.intro_left _ rfl
  have hprod : 0 ≤ ((r.points : ℤ) - 1) * r.interval :=
    Int.mul_nonneg (by omega) hstep'.le
  obtain ⟨n, -, hn, hchunks⟩ := planChunks_covers hstep' hmax hgrid (by omega)
  have hcount : (n : ℤ) - 1 = (r.points : ℤ) - 1 :=
    Int.eq_of_mul_eq_mul_right hstep'.ne' (by omega)
  obtain rfl : n = r.points := by omega
  rw [hchunks, hstop]

/-- A backend that answers from one function is read as that function, each
value in its slot with the time of receipt of its chunk. -/
theorem readRpsHistory_eq {answer : RangeQuery → Body}
    (hcheck : r.check T = .ok ()) (hmax : 1 ≤ limits.maxPoints)
    {plan : List (ℤ × ℤ)}
    (hplan : planChunks r.start r.stop r.interval limits.maxPoints =
      .ok plan) (hanswers : Answers T r plan f answer)
    (hwithin : Within T limits r plan answer) :
    readRpsHistory T limits r = .ok {
      querySha256 := r.signal.sha256
      intervalSeconds := r.interval
      start := r.start
      stop := r.stop
      values := (gridPoints r.start r.interval r.points).map f
      receivedAtMs := (List.range r.points).map fun i =>
        (f (r.slot i)).map fun _ =>
          T.receiptMs (i / limits.maxPoints.toNat)
      readCompletedMs := T.receiptMs plan.length
      responseSha256 := T.bodiesSha256 (plan.map fun chunk =>
        answer (r.rangeOf chunk))
      chunks := plan.length } := by
  obtain ⟨hstep, -, hhistory⟩ := Request.check_eq_ok hcheck
  have hchunks := Except.ok.inj
    (hplan.symm.trans (Request.plan_eq hcheck hmax))
  have hfirst : r.slot 0 = r.start := by simp [Request.slot]
  rw [← hfirst] at hchunks
  have hinitial : Holds r f
      (fun i => T.receiptMs (i / limits.maxPoints.toNat)) r.points 0
      (r.initial : ReadState Body) :=
    ⟨filled_zero.symm, filled_zero.symm, fun x hx => nomatch hx⟩
  obtain ⟨st, hst, hholds, hbodies⟩ := readChunks_points hanswers hstep
    (r.start_emod hhistory) hmax (fun _ => rfl) hwithin.deadline
    hwithin.chunk le_rfl hchunks (fun _ h => h) (k := 0) (by omega)
    (fun _ => by omega)
    (by
      have htotal := hwithin.total
      change (0 : ℤ) + _ < _
      omega) hinitial
  rw [Nat.zero_add] at hholds
  have hlast := hwithin.deadline (plan.length + 1) le_rfl
  refine Except.bind_eq_ok_iff.mpr ⟨(), hcheck, ?_⟩
  refine Except.bind_eq_ok_iff.mpr ⟨plan, hplan, ?_⟩
  refine Except.bind_eq_ok_iff.mpr ⟨st, hst, ?_⟩
  rw [if_neg (not_lt.mpr hlast.le), hholds.values, hholds.received, hbodies,
    filled_all, filled_all, r.map_slots]
  rfl

/-- The read comes to this answer of a chunk. -/
structure Reaches (T : Transport Body) (limits : Limits) (r : Request)
    (before : List (ℤ × ℤ)) (chunk : ℤ × ℤ) (doc : Value) : Prop where
  check : r.check T = .ok ()
  plan : ∃ after, planChunks r.start r.stop r.interval limits.maxPoints =
    .ok (before ++ chunk :: after)
  answered : ∃ st body,
    readChunks T limits r 0 before r.initial = .ok st ∧
      T.monotonic (before.length + 1) - T.monotonic 0 < limits.deadline ∧
      0 < min limits.maxChunkBytes (limits.maxTotalBytes - st.used) ∧
      T.fetch before.length (r.rangeOf chunk)
          (limits.deadline -
            (T.monotonic (before.length + 1) - T.monotonic 0))
          (min limits.maxChunkBytes (limits.maxTotalBytes - st.used)) =
        .answered 200 body ∧
      st.used + T.size body ≤ limits.maxTotalBytes ∧ T.loads body = some doc

theorem readChunks_append (before after : List (ℤ × ℤ)) (k : ℕ)
    (st : ReadState Body) :
    readChunks T limits r k (before ++ after) st =
      readChunks T limits r k before st >>=
        readChunks T limits r (k + before.length) after := by
  induction before generalizing k st with
  | nil => rfl
  | cons chunk before ih =>
      simp only [List.cons_append, readChunks, List.length_cons]
      cases readChunk T limits r k chunk st with
      | error e => rfl
      | ok st' =>
          refine (ih (k + 1) st').trans ?_
          rw [Nat.add_right_comm, Nat.add_assoc]
          rfl

/-- An answer that does not parse ends the read with its error. -/
theorem Reaches.error {before : List (ℤ × ℤ)} {chunk : ℤ × ℤ} {doc : Value}
    (h : Reaches T limits r before chunk doc) {e : ReadError}
    (hparse : parseChunk T.floatText chunk.1 chunk.2 r.interval doc =
      .error e) : readRpsHistory T limits r = .error e := by
  obtain ⟨after, hplan⟩ := h.plan
  obtain ⟨st, body, hst, hdeadline, hbudget, hfetched, htotal, hloads⟩ :=
    h.answered
  have hturn : readChunk T limits r before.length chunk st = .error e := by
    unfold readChunk
    dsimp only
    unfold Request.rangeOf at hfetched
    rw [if_neg (not_le.mpr (sub_pos.mpr hdeadline)),
      if_neg (not_le.mpr hbudget), hfetched]
    dsimp only
    rw [if_neg (by decide), if_neg (by decide), if_neg (by omega), hloads]
    dsimp only
    rw [hparse]
    rfl
  have hall : readChunks T limits r 0 (before ++ chunk :: after) r.initial =
      .error e := by
    rw [readChunks_append, hst, Nat.zero_add]
    change readChunks T limits r before.length (chunk :: after) st = _
    rw [readChunks, hturn]
    rfl
  unfold readRpsHistory
  rw [h.check, hplan]
  change (readChunks T limits r 0 (before ++ chunk :: after) r.initial >>=
    _) = _
  rw [hall]
  rfl

end Read

/-- What sound samples say: whole times of the grid and of the chunk in
ascending order, and finite rates that are not negative. -/
theorem Sound.spec {floatText : String → Option PyFloat} {lo hi interval : ℤ}
    {last : Option ℤ} {samples : List Value} {ps : List (ℤ × ℚ)}
    (h : Sound floatText lo hi interval last samples ps) :
    List.Forall₂ (Decodes floatText) samples ps ∧
      (∀ p ∈ ps, p.1 % interval = 0 ∧ lo ≤ p.1 ∧ p.1 ≤ hi ∧ 0 ≤ p.2 ∧
        ∀ x ∈ last, x < p.1) ∧
      ps.Pairwise fun p q => p.1 < q.1 := by
  induction samples generalizing last ps with
  | nil =>
      cases ps with
      | nil => exact ⟨.nil, fun p hp => absurd hp List.not_mem_nil, .nil⟩
      | cons p ps => exact absurd h id
  | cons sample rest ih =>
      cases ps with
      | nil => exact absurd h id
      | cons p ps =>
          obtain ⟨hdecodes, hfits, hrest⟩ := h
          obtain ⟨hall, hps, hsorted⟩ := ih hrest
          have hrate : 0 ≤ p.2 := hdecodes.rate_nonneg
          refine ⟨.cons hdecodes hall, fun q hq => ?_,
            List.pairwise_cons.mpr ⟨fun q hq => ?_, hsorted⟩⟩
          · rcases List.mem_cons.mp hq with rfl | hq
            · exact ⟨hfits.grid, hfits.lo_le, hfits.le_hi, hrate,
                hfits.after⟩
            · obtain ⟨hgrid, hlo, hhi, hrate', hafter⟩ := hps q hq
              refine ⟨hgrid, hlo, hhi, hrate', fun x hx => ?_⟩
              exact (hfits.after x hx).trans (hafter p.1 rfl)
          · exact (hps q hq).2.2.2.2 p.1 rfl

/-- The chunks of a read and what it makes of the answers.  A plan covers the
window once, in order; a backend that answers from one function is read as
that function; the answers that are taken are sound; and an answer with a
sample that is not sound ends the read, refused unless an integer beyond the
doubles is met first. -/
structure ChunkedRead {Body : Type} (T : Transport Body) (limits : Limits)
    (r : Request) : Prop where
  plan : r.check T = .ok () → 1 ≤ limits.maxPoints →
    ∃ plan, planChunks r.start r.stop r.interval limits.maxPoints =
        .ok plan ∧
      plan.flatMap (chunkPoints r.interval) =
        gridPoints r.start r.interval r.points ∧
      ∀ chunk ∈ plan,
        ((chunkPoints r.interval chunk).length : ℤ) ≤ limits.maxPoints
  read : ∀ plan f answer, r.check T = .ok () → 1 ≤ limits.maxPoints →
    planChunks r.start r.stop r.interval limits.maxPoints = .ok plan →
    Answers T r plan f answer → Within T limits r plan answer →
    ∃ grid, readRpsHistory T limits r = .ok grid ∧ grid.start = r.start ∧
      grid.stop = r.stop ∧
      grid.values = (gridPoints r.start r.interval r.points).map f ∧
      grid.receivedAtMs = (List.range r.points).map fun i =>
        (f (r.slot i)).map fun _ =>
          T.receiptMs (i / limits.maxPoints.toNat)
  taken : ∀ lo hi doc samples ps, answerSamples doc = .ok samples →
    parseChunk T.floatText lo hi r.interval doc = .ok ps →
    List.Forall₂ (Decodes T.floatText) samples ps ∧
      (∀ p ∈ ps, p.1 % r.interval = 0 ∧ lo ≤ p.1 ∧ p.1 ≤ hi ∧ 0 ≤ p.2) ∧
      ps.Pairwise fun p q => p.1 < q.1
  stops : ∀ before chunk doc samples, Reaches T limits r before chunk doc →
    answerSamples doc = .ok samples →
    (¬∃ ps, Sound T.floatText chunk.1 chunk.2 r.interval none samples ps) →
    (∀ grid, readRpsHistory T limits r ≠ .ok grid) ∧
      ((∃ m, readRpsHistory T limits r = .error (.historyRefused m)) ↔
        ¬FirstOverflows T.floatText chunk.1 chunk.2 r.interval none samples)

theorem chunked_read {Body : Type} (T : Transport Body) (limits : Limits)
    (r : Request) : ChunkedRead T limits r where
  plan hcheck hmax := by
    obtain ⟨hstep, -, -⟩ := Request.check_eq_ok hcheck
    exact ⟨_, Request.plan_eq hcheck hmax, chunksFrom_covers
      (Int.natCast_pos.mpr hstep) hmax r.start r.points r.points le_rfl⟩
  read plan f answer hcheck hmax hplan hanswers hwithin :=
    ⟨_, readRpsHistory_eq hcheck hmax hplan hanswers hwithin, rfl, rfl, rfl,
      rfl⟩
  taken lo hi doc samples ps hsamples hparse := by
    unfold parseChunk at hparse
    rw [hsamples] at hparse
    obtain ⟨hall, hps, hsorted⟩ := (parseSamples_eq_ok.mp hparse).spec
    refine ⟨hall, fun p hp => ?_, hsorted⟩
    obtain ⟨hgrid, hlo, hhi, hrate, -⟩ := hps p hp
    exact ⟨hgrid, hlo, hhi, hrate⟩
  stops before chunk doc samples hreaches hsamples hsound := by
    cases hparse : parseSamples T.floatText chunk.1 chunk.2 r.interval none
        samples with
    | ok ps => exact absurd ⟨ps, parseSamples_eq_ok.mp hparse⟩ hsound
    | error e =>
        have hread := hreaches.error (e := e) (by
          unfold parseChunk
          rw [hsamples]
          exact hparse)
        rw [hread]
        refine ⟨fun grid h => (nomatch h), ?_⟩
        rcases parseSamples_error hparse with ⟨⟨m, rfl⟩, hover⟩ | ⟨rfl, hover⟩
        · exact iff_of_true ⟨m, rfl⟩ hover
        · exact iff_of_false (fun ⟨m, hm⟩ => nomatch hm)
            (not_not.mpr hover)

namespace HugeTime

/-- A sample far outside its chunk. -/
def samples : List Value := [.list [.int (10 ^ 400), .str "1"]]

def doc : Value :=
  .dict [("status", .str "success"),
    ("data", .dict [("resultType", .str "matrix"),
      ("result", .list [.dict [("values", .list samples)]])])]

def transport : Transport Unit where
  fetch _ _ _ _ := .answered 200 ()
  receiptMs _ := 240000
  monotonic _ := 0
  size _ := 500
  loads _ := some doc
  floatText _ := some (.finite 1)
  bodiesSha256 _ := ""
  querySha256 _ := "0b7c"

def request : Request where
  signal := ⟨"sum(rate(requests_total[1m]))", "0b7c", signalContract⟩
  now := 240
  interval := 60
  historySeconds := 60

/-- The read is not refused: the conversion of the time raises. -/
theorem escapes :
    readRpsHistory transport {} request =
        .error (.overflowError "int too large to convert to float") ∧
      answerSamples doc = .ok samples ∧
      ¬∃ ps, Sound transport.floatText 120 120 60 none samples ps := by
  refine ⟨by decide +kernel, rfl, ?_⟩
  rintro ⟨ps, hps⟩
  have hparse : parseSamples transport.floatText 120 120 60 none samples =
      .error tooLarge := by decide +kernel
  exact absurd (hparse.symm.trans (parseSamples_eq_ok.mpr hps)) nofun

end HugeTime

end PredictiveAutoscaler.Forecasting.History
