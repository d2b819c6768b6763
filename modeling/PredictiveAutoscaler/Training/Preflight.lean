/-
The preparation of a training history: the ten-minute grid, the validity mask,
the gap filling with a boundary of the unfilled run, and the budget of the
purged split.  No filled row uses a later partition exactly when the row before
each split row of the prepared series is observed.
-/
import PredictiveAutoscaler.Training.GapRule

namespace PredictiveAutoscaler.Preflight

open GapFill

/-- A fetched row; the instant is in nanoseconds, the value there when it is a
finite number. -/
structure RawRow where
  timestamp : ℤ
  value : Option ℚ

/-- A validity mask, in seconds. -/
structure Mask where
  intervals : List (ℤ × ℤ) := []
  benchmarkHistoryStart : Option ℤ := none

/-- `drop_duplicates(..., keep="last")`. -/
def keepLast {A : Type} (key : A → ℤ) : List A → List A
  | [] => []
  | x :: xs =>
      if key x ∈ xs.map key then keepLast key xs else x :: keepLast key xs

/-- A timestamp's second and its ten-minute slot. -/
def epochOf (timestamp : ℤ) : ℤ := timestamp / 1000000000

def slotOf (epoch : ℤ) : ℤ :=
  (epoch + gridSeconds / 2) / gridSeconds * gridSeconds

def cadenceTolerance : ℤ := 30

/-- The samples on the grid, one a slot. -/
def onGrid (d : List Sample) : List Sample :=
  keepLast Sample.time
    ((d.filter fun p =>
        |epochOf p.time - slotOf (epochOf p.time)| ≤ cadenceTolerance).map
      fun p => ⟨slotOf (epochOf p.time), p.value⟩)

/-- The finite rows in order, one an instant; here instants are in
nanoseconds. -/
def finiteRows (rows : List RawRow) : List Sample :=
  keepLast Sample.time
    ((rows.filterMap fun r => r.value.map fun v => ⟨r.timestamp, v⟩).insertionSort
      fun a b => a.time ≤ b.time)

/-- `apply_mask`: the kept points, in order. -/
def applyMask (points : List Sample) (mask : Mask) (role : String) :
    List Sample :=
  let start := if role = "benchmark" then mask.benchmarkHistoryStart else none
  (points.insertionSort fun a b => a.time ≤ b.time).filter fun p =>
    !start.any (p.time < ·) &&
      !mask.intervals.any fun i => decide (i.1 ≤ p.time) && decide (p.time ≤ i.2)

/-- The observations that are left for filling. -/
def observed (rows : List RawRow) (mask : Mask) (role : String) :
    List Sample :=
  applyMask (onGrid (finiteRows rows)) mask role

/-- `int(0.8 * n)`. -/
def eightyPercent (n : ℕ) : ℕ := 4 * n / 5

/-- The split row of a prepared series of `n` rows, and that of its training
rows. -/
def trainRows (n : ℕ) : ℕ := eightyPercent n

def validationRow (n : ℕ) : ℕ := eightyPercent (trainRows n)

/-- The training and the validation sequences of the purged split. -/
def purgedSplitIndices (nRows sequenceLength steps nSequences : ℕ)
    (imputed : List Bool) : List ℕ × List ℕ :=
  let splitRow := eightyPercent nRows
  let targetIsImputed := fun i =>
    ((imputed.drop (i + sequenceLength)).take steps).any id
  ((List.range nSequences).filter fun i =>
      decide (i + sequenceLength + steps < splitRow + 1),
    (List.range nSequences).filter fun i =>
      !decide (i + sequenceLength + steps < splitRow + 1) &&
        (decide (splitRow ≤ i + sequenceLength) && !targetIsImputed i))

/-- Whether a series gives at least one training and one validation
sequence. -/
def enough (flags : List Bool) (sequenceLength steps : ℕ) : Bool :=
  let train := trainRows flags.length
  let split := purgedSplitIndices train sequenceLength steps
    (train + 1 - (sequenceLength + steps)) (flags.take train)
  split.1 ≠ [] && split.2 ≠ []

inductive Refusal
  | noObservations
  | noFiniteObservations
  | offGrid
  | nothingAfterMask
  | insufficient
deriving DecidableEq, Repr

/-- The fill of the observations: the boundary is the outer split of the run
that would be selected without filling. -/
def fill (points : List Sample) (mask : Mask) : Filled :=
  let rawRun := tenMinutes.longestRun points
  let boundaries :=
    if 5 ≤ rawRun.length then
      ((rawRun[eightyPercent rawRun.length]?).map Sample.time).toList
    else []
  tenMinutes.fillInteriorGaps points (points.getLast?.map Sample.time)
    boundaries mask.intervals none

/-- The longest run without filling. -/
def unfilled (points : List Sample) : Filled :=
  let run := tenMinutes.longestRun points
  ⟨run, run.map fun _ => false, []⟩

def preflightHistory (rows : List RawRow) (sequenceLength steps : ℕ)
    (mask : Mask) (role : String) (fills : Bool) : Except Refusal Filled :=
  if rows = [] then throw .noObservations
  else if finiteRows rows = [] then throw .noFiniteObservations
  else if onGrid (finiteRows rows) = [] then throw .offGrid
  else
    let points := observed rows mask role
    if points = [] then throw .nothingAfterMask
    else
      let prepared := if fills then fill points mask else unfilled points
      if enough prepared.flags sequenceLength steps then return prepared
      else throw .insufficient

theorem mem_keepLast {A : Type} {key : A → ℤ} {xs : List A} {x : A}
    (h : x ∈ keepLast key xs) : x ∈ xs := by
  induction xs with
  | nil => cases h
  | cons y xs ih =>
      unfold keepLast at h
      split at h
      · exact List.mem_cons_of_mem y (ih h)
      · rcases List.mem_cons.mp h with rfl | h
        · exact List.mem_cons_self
        · exact List.mem_cons_of_mem y (ih h)

theorem keepLast_nodup {A : Type} (key : A → ℤ) (xs : List A) :
    ((keepLast key xs).map key).Nodup := by
  induction xs with
  | nil => exact List.nodup_nil
  | cons y xs ih =>
      unfold keepLast
      split
      · exact ih
      · rename_i hnew
        rw [List.map_cons, List.nodup_cons]
        refine ⟨?_, ih⟩
        intro hmem
        obtain ⟨x, hx, heq⟩ := List.mem_map.mp hmem
        exact hnew (List.mem_map.mpr ⟨x, mem_keepLast hx, heq⟩)

/-- The observations are in order, one a slot. -/
theorem observed_sorted (rows : List RawRow) (mask : Mask) (role : String) :
    (observed rows mask role).Pairwise fun p q => p.time < q.time := by
  let slots := onGrid (finiteRows rows)
  let le : Sample → Sample → Prop := fun a b => a.time ≤ b.time
  have hnodup : ((slots.insertionSort le).map Sample.time).Nodup :=
    ((List.perm_insertionSort le slots).map Sample.time).nodup_iff.mpr
      (keepLast_nodup _ _)
  have hsorted : (slots.insertionSort le).Pairwise le :=
    List.pairwise_insertionSort le slots
  have hlt : (slots.insertionSort le).Pairwise fun p q => p.time < q.time := by
    refine (hsorted.and (List.pairwise_map.mp hnodup)).imp ?_
    intro p q h
    exact lt_of_le_of_ne h.1 h.2
  exact hlt.filter _

/-- The first instants of the validation rows and of the test rows. -/
def splitTimes (run : List Sample) : List ℤ :=
  [validationRow run.length, trainRows run.length].filterMap fun s =>
    (run[s]?).map Sample.time

/-- No filled row is interpolated from an endpoint of a later partition. -/
def FillsWithinSplit (r : Filled) : Prop :=
  ∀ g ∈ r.gaps, g.filled = true → ∀ p ∈ r.run,
    p.time ∈ tenMinutes.slots g →
    ∀ e ∈ [g.left, g.right], GapFill.partition e.time (splitTimes r.run) ≤
      GapFill.partition p.time (splitTimes r.run)

/-- The row before each split row is observed. -/
def ObservedBeforeSplits (points run : List Sample) : Prop :=
  ∀ j, (j + 1 = validationRow run.length ∨ j + 1 = trainRows run.length) →
    ∀ p, run[j]? = some p → p ∈ points

theorem partition_le {bs : List ℤ} {t e : ℤ}
    (h : ∀ b ∈ bs, b ≤ e → b ≤ t) :
    GapFill.partition e bs ≤ GapFill.partition t bs := by
  induction bs with
  | nil => exact le_rfl
  | cons b bs ih =>
      have htail := ih fun b hb => h b (List.mem_cons_of_mem _ hb)
      simp only [GapFill.partition, List.filter_cons] at htail ⊢
      by_cases hb : b ≤ e
      · have hbt := h b List.mem_cons_self hb
        simp only [hb, hbt, decide_true, if_true, List.length_cons]
        omega
      · simp only [hb, decide_false, Bool.false_eq_true, if_false]
        split
        · exact htail.trans (Nat.le_succ _)
        · exact htail

theorem partition_lt {bs : List ℤ} {t e b : ℤ} (hte : t ≤ e) (hb : b ∈ bs)
    (htb : t < b) (hbe : b ≤ e) :
    GapFill.partition t bs < GapFill.partition e bs := by
  induction bs with
  | nil => cases hb
  | cons x bs ih =>
      simp only [GapFill.partition, List.filter_cons] at ih ⊢
      have hle : GapFill.partition t bs ≤ GapFill.partition e bs :=
        partition_le fun y _ hy => hy.trans hte
      simp only [GapFill.partition] at hle
      rcases List.mem_cons.mp hb with rfl | hb
      · simp only [not_le.mpr htb, hbe, decide_true, if_true,
          List.length_cons, decide_false, Bool.false_eq_true, if_false]
        omega
      · have hlt := ih hb
        by_cases hx : x ≤ t
        · simp only [hx, hx.trans hte, decide_true, if_true, List.length_cons]
          omega
        · simp only [hx, decide_false, Bool.false_eq_true, if_false]
          split
          · exact hlt.trans (Nat.lt_succ_self _)
          · exact hlt

theorem preflightHistory_fill {rows : List RawRow} {sequenceLength steps : ℕ}
    {mask : Mask} {role : String} {prepared : Filled}
    (h : preflightHistory rows sequenceLength steps mask role true =
      .ok prepared) :
    prepared = fill (observed rows mask role) mask ∧
      enough prepared.flags sequenceLength steps = true := by
  unfold preflightHistory at h
  split at h
  · cases h
  split at h
  · cases h
  split at h
  · cases h
  dsimp only at h
  split at h
  · cases h
  rw [if_pos rfl] at h
  split at h
  · rename_i henough
    cases h
    exact ⟨rfl, henough⟩
  · cases h

theorem eightyPercent_lt {n : ℕ} (hn : 0 < n) : eightyPercent n < n := by
  unfold eightyPercent
  omega

/-- The row of a split, when the series has the row before it. -/
theorem exists_split_row {run : List Sample} {j : ℕ} {p : Sample}
    (hp : run[j]? = some p)
    (hj : j + 1 = validationRow run.length ∨ j + 1 = trainRows run.length) :
    ∃ q, run[j + 1]? = some q ∧ q.time ∈ splitTimes run := by
  have hlen : 0 < run.length :=
    (Nat.zero_le j).trans_lt (List.getElem?_eq_some_iff.mp hp).1
  have htrain : trainRows run.length < run.length := eightyPercent_lt hlen
  have hvalidation : validationRow run.length ≤ trainRows run.length := by
    unfold validationRow eightyPercent
    omega
  have hlt : j + 1 < run.length := by omega
  refine ⟨run[j + 1], List.getElem?_eq_getElem hlt, ?_⟩
  simp only [splitTimes, List.mem_filterMap]
  refine ⟨j + 1, ?_, by simp [hlt]⟩
  simpa [eq_comm] using hj

/-- For every history that is accepted with filling on: no filled row uses a
later partition exactly when the row before each split row is observed. -/
theorem fills_within_split_iff {rows : List RawRow}
    {sequenceLength steps : ℕ} {mask : Mask} {role : String}
    {prepared : Filled}
    (h : preflightHistory rows sequenceLength steps mask role true =
      .ok prepared) :
    FillsWithinSplit prepared ↔
      ObservedBeforeSplits (observed rows mask role) prepared.run := by
  obtain ⟨rfl, -⟩ := preflightHistory_fill h
  let points := observed rows mask role
  have hselected : tenMinutes.Selected none _ (fill points mask).run :=
    FillRule.select_selected none _
  have hrun := hselected.chain
  have hdistinct : (points.map Sample.time).Nodup :=
    List.pairwise_map.mpr ((observed_sorted rows mask role).imp ne_of_lt)
  have hadmits : ∀ g ∈ (fill points mask).gaps, g.filled = true →
      tenMinutes.Admits _ _ _ (FillRule.sorted points) g :=
    fun g hg hfilled => FillRule.fillInteriorGaps_admits hdistinct hg hfilled
  have hgridSeconds : tenMinutes.grid = 600 := rfl
  constructor
  · intro hwithin j hj p hp
    rcases FillRule.merged_mem.mp (FillRule.select_subset none _ p
      (List.mem_of_getElem? hp)) with hobs | hfill
    · exact FillRule.mem_sorted.mp hobs
    obtain ⟨g, hg, hfilled, hvalue⟩ := FillRule.mem_fills.mp hfill
    have hslot := FillRule.time_mem_slots hvalue
    obtain ⟨q, hq, hsplit⟩ := exists_split_row hp hj
    -- The split row is not after the gap's right endpoint.
    have hnext := FillRule.time_sub hrun hp hq
    obtain ⟨-, hright, -⟩ := (hadmits g hg hfilled).slot hslot
    have hlater := hwithin g hg hfilled p (List.mem_of_getElem? hp) hslot
      g.right (by simp)
    have hgrid : q.time = p.time + tenMinutes.grid := by
      push_cast at hnext
      linarith
    rw [hgridSeconds] at hgrid hright
    refine absurd hlater (not_le.mpr (partition_lt ?_ hsplit ?_ ?_))
    · omega
    · omega
    · omega
  · intro hobserved g hg hfilled p hp hslot e he
    have hgap := hadmits g hg hfilled
    refine partition_le ?_
    intro b hb hbe
    obtain ⟨hleft, hright, -⟩ := hgap.slot hslot
    rw [hgridSeconds] at hleft hright
    rcases List.mem_cons.mp he with rfl | he
    · omega
    rw [List.mem_singleton.mp he] at hbe
    by_contra hafter
    rw [not_le] at hafter
    obtain ⟨s, hs, hbs⟩ := List.mem_filterMap.mp hb
    obtain ⟨q, hq, rfl⟩ := Option.map_eq_some_iff.mp hbs
    obtain ⟨i, hi⟩ := List.getElem?_of_mem hp
    have hsub := FillRule.time_sub hrun hi hq
    rw [hgridSeconds] at hsub
    have his : i < s := by omega
    obtain ⟨j, rfl⟩ : ∃ j, s = j + 1 := ⟨s - 1, by omega⟩
    have hj : j + 1 = validationRow (fill points mask).run.length ∨
        j + 1 = trainRows (fill points mask).run.length := by simpa using hs
    have hjlt : j < (fill points mask).run.length :=
      (Nat.lt_succ_self j).trans (List.getElem?_eq_some_iff.mp hq).1
    -- The row before the split row is a slot of the same gap.
    have hx := List.getElem?_eq_getElem hjlt
    have hxsub := FillRule.time_sub hrun hi hx
    have hxslot : ((fill points mask).run[j]).time ∈ tenMinutes.slots g := by
      obtain ⟨k, hk, hkp⟩ := FillRule.mem_slots.mp hslot
      have hapart := hgap.apart
      rw [hgridSeconds] at hkp hxsub hapart
      refine FillRule.mem_slots.mpr ⟨k + (j - i), ?_, ?_⟩
      · push_cast at hsub
        omega
      · rw [hgridSeconds]
        push_cast
        omega
    exact (hgap.slot hxslot).2.2 _ (FillRule.mem_sorted.mpr
      (hobserved j hj _ hx)) rfl

instance (r : Filled) : Decidable (FillsWithinSplit r) :=
  inferInstanceAs (Decidable (∀ g ∈ r.gaps, g.filled = true → ∀ p ∈ r.run,
    p.time ∈ tenMinutes.slots g → ∀ e ∈ [g.left, g.right],
      GapFill.partition e.time (splitTimes r.run) ≤
        GapFill.partition p.time (splitTimes r.run)))

namespace PreflightWitness

/-- 100 ten-minute rows without this one. -/
def without (missing : ℕ) : List RawRow :=
  ((List.range 100).filter (· ≠ missing)).map fun i : ℕ =>
    ⟨i * 600 * 1000000000, some 1⟩

def prepare (missing : ℕ) : Except Refusal Filled :=
  preflightHistory (without missing) 24 6 {} "benchmark" true

theorem exists_prepared {missing : ℕ} {f : Filled → Bool} {b : Bool}
    (h : (prepare missing).toOption.map f = some b) :
    ∃ r, prepare missing = .ok r ∧ f r = b := by
  obtain ⟨r, hr, hf⟩ := Option.map_eq_some_iff.mp h
  refine ⟨r, ?_, hf⟩
  cases hp : prepare missing with
  | error e =>
      rw [hp] at hr
      cases hr
  | ok r' =>
      rw [hp] at hr
      cases hr
      rfl

/-- A gap inside the training rows is filled within the split. -/
theorem inner_gap_within_split :
    ∃ r, preflightHistory (without 40) 24 6 {} "benchmark" true = .ok r ∧
      (∃ g ∈ r.gaps, g.filled = true) ∧ FillsWithinSplit r := by
  obtain ⟨r, hr, hcheck⟩ := @exists_prepared 40 (fun r =>
    decide (∃ g ∈ r.gaps, g.filled = true) && decide (r.run.length = 100) &&
      decide (∀ j ∈ [63, 79], ∀ p ∈ r.run[j]?,
        p ∈ observed (without 40) {} "benchmark")) true (by decide +kernel)
  simp only [Bool.and_eq_true, decide_eq_true_eq] at hcheck
  obtain ⟨⟨hfilled, hlength⟩, hobserved⟩ := hcheck
  refine ⟨r, hr, hfilled, (fills_within_split_iff hr).mpr ?_⟩
  intro j hj p hp
  rw [hlength] at hj
  have hj' : j ∈ [63, 79] := by
    simp only [validationRow, trainRows, eightyPercent] at hj
    simp only [List.mem_cons, List.not_mem_nil, or_false]
    omega
  exact hobserved j hj' p hp

/-- The last training row is filled from the first test row. -/
theorem fill_crosses_split :
    ¬∀ (rows : List RawRow) (sequenceLength steps : ℕ) (mask : Mask)
      (role : String) (prepared : Filled),
      preflightHistory rows sequenceLength steps mask role true = .ok prepared →
      FillsWithinSplit prepared := by
  intro hall
  obtain ⟨r, hr, hcheck⟩ := @exists_prepared 79
    (fun r => decide (FillsWithinSplit r)) false (by decide +kernel)
  exact absurd (hall _ _ _ _ _ r hr) (of_decide_eq_false hcheck)

end PreflightWitness

end PredictiveAutoscaler.Preflight
