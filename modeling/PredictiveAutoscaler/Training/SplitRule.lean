/-
The purged split of a training: the sequences with training and with validation
labels, the budget that the preparation publishes, and the sequences that a
training builds on the outer training rows.
-/
import PredictiveAutoscaler.Binary64
import PredictiveAutoscaler.Training.Preflight

namespace PredictiveAutoscaler.Preflight

open GapFill

/-- The split row is what `int(0.8 * n)` gives in doubles. -/
theorem eightyPercent_eq_double {n : ℕ} (hn : n ≤ 2 ^ 50) :
    ⌊binary64 (binary64 (8 / 10) * n)⌋ = eightyPercent n := by
  have hfactor : binary64 (8 / 10) = 4 / 5 + 1 / (5 * 2 ^ 52) := by
    decide +kernel
  have hcast : (n : ℚ) ≤ 2 ^ 50 := by exact_mod_cast hn
  have hsmall : (eightyPercent n : ℤ) < 2 ^ 53 := by
    unfold eightyPercent
    omega
  have hexact : (5 : ℚ) * eightyPercent n ≤ 4 * n ∧
      (4 * n : ℚ) ≤ 5 * eightyPercent n + 4 := by
    unfold eightyPercent
    constructor
    · exact_mod_cast Nat.mul_div_le (4 * n) 5
    · exact_mod_cast (by omega : 4 * n ≤ 5 * (4 * n / 5) + 4)
  set x : ℚ := binary64 (8 / 10) * n with hx
  rw [hfactor] at hx
  have hlow : (eightyPercent n : ℚ) ≤ x := by linarith
  have hhigh : x ≤ eightyPercent n + 17 / 20 := by linarith
  rw [Int.floor_eq_iff]
  constructor
  · have hmono := binary64_monotone hlow
    have hself := binary64_intCast (abs_lt.mpr ⟨by omega, hsmall⟩)
    push_cast at hself
    rw [hself] at hmono
    exact_mod_cast hmono
  · rcases Nat.eq_zero_or_pos n with rfl | hpos
    · have hzero : x = 0 := by rw [hx, Nat.cast_zero, mul_zero]
      rw [hzero, binary64_zero]
      push_cast
      positivity
    · have hxpos : 0 < x := by
        rw [hx]
        positivity
      have hulp : ulpExponent x ≤ 51 - 53 :=
        ulpExponent_le_of_abs_lt hxpos.ne' (by norm_num) (by
          rw [abs_of_pos hxpos, hx]
          norm_num
          linarith)
      have herror := (abs_le.mp (abs_binary64_sub_le_half_ulp x)).2
      have hstep : (2 : ℚ) ^ ulpExponent x ≤ 2 ^ (-2 : ℤ) :=
        zpow_le_zpow_right₀ (by norm_num) (by omega)
      norm_num at hstep
      push_cast
      linarith

/-- The rows that label a sequence. -/
def labelRows (sequenceLength steps i : ℕ) : List ℕ :=
  List.range' (i + sequenceLength) steps

/-- The training and the validation sequences of a split at a row: their labels
lie before and from the row on, no validation label is imputed, and what is
left out straddles the row or has an imputed label. -/
structure PurgedSplit (splitRow sequenceLength steps nSequences : ℕ)
    (imputed : List Bool) (train validation : List ℕ) : Prop where
  train_before : ∀ i ∈ train, i < nSequences ∧
    ∀ r ∈ labelRows sequenceLength steps i, r < splitRow
  validation_from : ∀ i ∈ validation, i < nSequences ∧
    ∀ r ∈ labelRows sequenceLength steps i, splitRow ≤ r
  validation_genuine : ∀ i ∈ validation,
    ∀ r ∈ labelRows sequenceLength steps i, imputed[r]? ≠ some true
  labels_disjoint : ∀ i ∈ train, ∀ j ∈ validation,
    (labelRows sequenceLength steps i).Disjoint
      (labelRows sequenceLength steps j)
  others : ∀ i < nSequences, i ∉ train → i ∉ validation →
    ((∃ r ∈ labelRows sequenceLength steps i, r < splitRow) ∧
      ∃ r ∈ labelRows sequenceLength steps i, splitRow ≤ r) ∨
    ∃ r ∈ labelRows sequenceLength steps i, splitRow ≤ r ∧
      imputed[r]? = some true

theorem any_window {imputed : List Bool} {first steps : ℕ} :
    ((imputed.drop first).take steps).any id = true ↔
      ∃ r ∈ List.range' first steps, imputed[r]? = some true := by
  rw [List.any_eq_true]
  constructor
  · rintro ⟨b, hb, rfl⟩
    obtain ⟨k, hk⟩ := List.getElem?_of_mem hb
    rw [List.getElem?_take] at hk
    split at hk
    · rename_i hlt
      rw [List.getElem?_drop] at hk
      exact ⟨first + k, List.mem_range'_1.mpr ⟨by omega, by omega⟩, hk⟩
    · cases hk
  · rintro ⟨r, hr, himputed⟩
    obtain ⟨hle, hlt⟩ := List.mem_range'_1.mp hr
    refine ⟨true, List.mem_of_getElem? (i := r - first) ?_, rfl⟩
    rw [List.getElem?_take, if_pos (by omega), List.getElem?_drop,
      Nat.add_sub_cancel' hle]
    exact himputed

section Split

variable {nRows sequenceLength steps nSequences : ℕ} {imputed : List Bool}
  {i : ℕ}

theorem mem_train : i ∈ (purgedSplitIndices nRows sequenceLength steps
      nSequences imputed).1 ↔
    i < nSequences ∧ i + sequenceLength + steps < eightyPercent nRows + 1 := by
  simp only [purgedSplitIndices, List.mem_filter, List.mem_range,
    decide_eq_true_eq]

theorem mem_validation : i ∈ (purgedSplitIndices nRows sequenceLength steps
      nSequences imputed).2 ↔
    i < nSequences ∧ ¬i + sequenceLength + steps < eightyPercent nRows + 1 ∧
      eightyPercent nRows ≤ i + sequenceLength ∧
        ∀ r ∈ labelRows sequenceLength steps i, imputed[r]? ≠ some true := by
  simp only [purgedSplitIndices, List.mem_filter, List.mem_range,
    Bool.and_eq_true, Bool.not_eq_true', decide_eq_true_eq,
    decide_eq_false_iff_not]
  rw [← Bool.not_eq_true, any_window]
  simp only [labelRows, not_exists, not_and, ne_eq]

theorem mem_labelRows {r : ℕ} : r ∈ labelRows sequenceLength steps i ↔
    i + sequenceLength ≤ r ∧ r < i + sequenceLength + steps :=
  List.mem_range'_1

end Split

/-- Every split is purged. -/
theorem purgedSplitIndices_purged (nRows sequenceLength steps nSequences : ℕ)
    (imputed : List Bool) :
    PurgedSplit (eightyPercent nRows) sequenceLength steps nSequences imputed
      (purgedSplitIndices nRows sequenceLength steps nSequences imputed).1
      (purgedSplitIndices nRows sequenceLength steps nSequences imputed).2 := by
  have htrain : ∀ i ∈ (purgedSplitIndices nRows sequenceLength steps nSequences
      imputed).1, i < nSequences ∧
        ∀ r ∈ labelRows sequenceLength steps i, r < eightyPercent nRows := by
    intro i hi
    obtain ⟨hlt, hlast⟩ := mem_train.mp hi
    refine ⟨hlt, fun r hr => ?_⟩
    obtain ⟨-, hr⟩ := mem_labelRows.mp hr
    omega
  have hvalidation : ∀ i ∈ (purgedSplitIndices nRows sequenceLength steps
      nSequences imputed).2, i < nSequences ∧
        ∀ r ∈ labelRows sequenceLength steps i, eightyPercent nRows ≤ r := by
    intro i hi
    obtain ⟨hlt, -, hfirst, -⟩ := mem_validation.mp hi
    exact ⟨hlt, fun r hr => hfirst.trans (mem_labelRows.mp hr).1⟩
  constructor
  case train_before => exact htrain
  case validation_from => exact hvalidation
  case validation_genuine =>
    intro i hi
    exact (mem_validation.mp hi).2.2.2
  case labels_disjoint =>
    intro i hi j hj r hri hrj
    have hbefore := (htrain i hi).2 r hri
    have hfrom := (hvalidation j hj).2 r hrj
    omega
  case others =>
    intro i hlt hnot hnot'
    have hlast : ¬i + sequenceLength + steps < eightyPercent nRows + 1 :=
      fun hlast => hnot (mem_train.mpr ⟨hlt, hlast⟩)
    by_cases hfirst : eightyPercent nRows ≤ i + sequenceLength
    · right
      by_contra hgenuine
      refine hnot' (mem_validation.mpr ⟨hlt, hlast, hfirst, ?_⟩)
      intro r hr htrue
      exact hgenuine
        ⟨r, hr, hfirst.trans (mem_labelRows.mp hr).1, htrue⟩
    · left
      rw [not_le] at hfirst
      exact ⟨⟨i + sequenceLength, mem_labelRows.mpr ⟨le_rfl, by omega⟩, hfirst⟩,
        i + sequenceLength + steps - 1, mem_labelRows.mpr ⟨by omega, by omega⟩,
        by omega⟩

/-- `_budget`. -/
structure Budget where
  points : ℕ
  trainRows : ℕ
  testRows : ℕ
  window : ℕ
  sequences : ℕ
  trainSequences : ℕ
  validationSequences : ℕ
  evaluationAvailable : Bool
deriving DecidableEq, Repr

def budget (nPoints sequenceLength steps : ℕ) (imputed : List Bool) :
    Budget :=
  let window := sequenceLength + steps
  let train := trainRows nPoints
  let seqs := train + 1 - window
  let split := purgedSplitIndices train sequenceLength steps seqs imputed
  { points := nPoints
    trainRows := train
    testRows := nPoints - train
    window
    sequences := seqs
    trainSequences := split.1.length
    validationSequences := split.2.length
    evaluationAvailable := decide (window ≤ nPoints - train) }

/-- A budget allows a training. -/
def Budget.Trainable (b : Budget) : Prop :=
  1 ≤ b.trainSequences ∧ 1 ≤ b.validationSequences

instance (b : Budget) : Decidable b.Trainable :=
  inferInstanceAs (Decidable (_ ∧ _))

theorem budget_trainable {n sequenceLength steps i j : ℕ}
    {imputed : List Bool} (hi : i ∈ (purgedSplitIndices (trainRows n)
      sequenceLength steps (trainRows n + 1 - (sequenceLength + steps))
        imputed).1)
    (hj : j ∈ (purgedSplitIndices (trainRows n) sequenceLength steps
      (trainRows n + 1 - (sequenceLength + steps)) imputed).2) :
    (budget n sequenceLength steps imputed).Trainable :=
  ⟨List.length_pos_of_mem hi, List.length_pos_of_mem hj⟩

/-- The search for the smallest number of points that allows a training
ends. -/
theorem exists_trainable (sequenceLength steps : ℕ) :
    ∃ n, sequenceLength + steps ≤ n ∧
      (budget n sequenceLength steps []).Trainable := by
  let k := sequenceLength + steps + 1
  have htrain : trainRows (25 * k) = 20 * k := by
    unfold trainRows eightyPercent
    omega
  have hsplit : eightyPercent (20 * k) = 16 * k := by
    unfold eightyPercent
    omega
  refine ⟨25 * k, by omega, budget_trainable (i := 0)
    (j := 16 * k + 1 - sequenceLength) ?_ ?_⟩
  · rw [mem_train, htrain, hsplit]
    omega
  · rw [mem_validation, htrain, hsplit]
    exact ⟨by omega, by omega, by omega, fun r _ => by simp⟩

/-- `min_points_for_training`. -/
def minPointsForTraining (sequenceLength steps : ℕ) : ℕ :=
  Nat.find (exists_trainable sequenceLength steps)

/-- `sequence_budget`. -/
structure SequenceBudget extends Budget where
  minPointsForTraining : ℕ

def sequenceBudget (nPoints sequenceLength steps : ℕ) (imputed : List Bool) :
    SequenceBudget :=
  { budget nPoints sequenceLength steps imputed with
    minPointsForTraining := minPointsForTraining sequenceLength steps }

/-- The budget that the preparation publishes: the model sees only the outer
training rows, with their part of the mask. -/
def published (prepared : Filled) (sequenceLength steps : ℕ) :
    SequenceBudget :=
  sequenceBudget prepared.run.length sequenceLength steps
    (prepared.flags.take (trainRows prepared.run.length))

def stepsAhead : ℕ := 6

/-- `_create_sequences`: the inputs and the targets. -/
def createSequences (values : List ℚ) (sequenceLength steps : ℕ) :
    List (List ℚ × List ℚ) :=
  (List.range (values.length + 1 - (sequenceLength + steps))).map fun i =>
    ((values.drop i).take sequenceLength,
      (values.drop (i + sequenceLength)).take steps)

inductive TrainError
  | insufficientData (points need : ℕ)
  | noSequences
  | noDisjointLabels (rows train validation splitRow : ℕ)
  | sharedLabels (rows : ℕ)
  | noGenuineValidation (dropped : ℕ)
deriving DecidableEq, Repr

/-- The sequences that a network is fitted on and validated with. -/
structure Built where
  train : List (List ℚ × List ℚ)
  validation : List (List ℚ × List ℚ)

/-- `X[idx], y[idx]`. -/
def rowsAt {A : Type} (xs : List A) (idx : List ℕ) : List A :=
  idx.filterMap fun i => xs[i]?

/-- The rows that label some of the sequences. -/
def allLabelRows (sequenceLength : ℕ) (idx : List ℕ) : List ℕ :=
  (idx.flatMap (labelRows sequenceLength stepsAhead)).dedup

/-- `LSTMForecastModel.train`, to the sequences that it builds. -/
def train (values : List ℚ) (imputed : List Bool) (sequenceLength : ℕ) :
    Except TrainError Built :=
  let nRows := values.length
  if nRows < sequenceLength + stepsAhead then
    throw (.insufficientData nRows (sequenceLength + stepsAhead))
  else
    let seqs := createSequences values sequenceLength stepsAhead
    if seqs = [] then throw .noSequences
    else
      let mask := if imputed.length = nRows then imputed else []
      let split := purgedSplitIndices nRows sequenceLength stepsAhead
        seqs.length mask
      if split.1 = [] ∨ split.2 = [] then
        throw (.noDisjointLabels nRows split.1.length split.2.length
          (eightyPercent nRows))
      else
        let shared := (allLabelRows sequenceLength split.1).filter fun r =>
          r ∈ allLabelRows sequenceLength split.2
        if shared ≠ [] then throw (.sharedLabels shared.length)
        else
          let built : Built := ⟨rowsAt seqs split.1, rowsAt seqs split.2⟩
          if built.validation = [] then
            let unfiltered := purgedSplitIndices nRows sequenceLength
              stepsAhead seqs.length []
            throw (.noGenuineValidation
              (unfiltered.2.length - split.2.length))
          else return built

/-- The training of a prepared history: on its outer training rows. -/
def trainPrepared (prepared : Filled) (sequenceLength : ℕ) :
    Except TrainError Built :=
  let size := trainRows prepared.run.length
  train ((prepared.run.take size).map Sample.value)
    (prepared.flags.take size) sequenceLength

theorem createSequences_length (values : List ℚ) (sequenceLength steps : ℕ) :
    (createSequences values sequenceLength steps).length =
      values.length + 1 - (sequenceLength + steps) := by
  rw [createSequences, List.length_map, List.length_range]

theorem rowsAt_length {A : Type} {xs : List A} {idx : List ℕ}
    (h : ∀ i ∈ idx, i < xs.length) : (rowsAt xs idx).length = idx.length := by
  induction idx with
  | nil => rfl
  | cons i idx ih =>
      have hi := h i List.mem_cons_self
      have htail := ih fun j hj => h j (List.mem_cons_of_mem i hj)
      rw [rowsAt, List.filterMap_cons, List.getElem?_eq_getElem hi]
      exact congrArg Nat.succ htail

/-- A training succeeds exactly with the sequences of both partitions. -/
theorem train_eq_ok {values : List ℚ} {imputed : List Bool}
    {sequenceLength : ℕ} (hmask : imputed.length = values.length) :
    let split := purgedSplitIndices values.length sequenceLength stepsAhead
      (values.length + 1 - (sequenceLength + stepsAhead)) imputed
    split.1 ≠ [] → split.2 ≠ [] →
      ∃ built, train values imputed sequenceLength = .ok built ∧
        built.train.length = split.1.length ∧
        built.validation.length = split.2.length := by
  intro split htrain hvalidation
  let seqs := createSequences values sequenceLength stepsAhead
  have hlength : seqs.length =
      values.length + 1 - (sequenceLength + stepsAhead) :=
    createSequences_length values sequenceLength stepsAhead
  have hpurged : PurgedSplit (eightyPercent values.length) sequenceLength
      stepsAhead seqs.length imputed split.1 split.2 := by
    rw [hlength]
    exact purgedSplitIndices_purged _ _ _ _ _
  obtain ⟨i, hi⟩ := List.exists_mem_of_ne_nil _ htrain
  have hseqs : createSequences values sequenceLength stepsAhead ≠ [] :=
    List.length_pos_iff.mp
      ((Nat.zero_le i).trans_lt (hpurged.train_before i hi).1)
  have hneed : 0 < values.length + 1 - (sequenceLength + stepsAhead) :=
    hlength ▸ List.length_pos_iff.mpr hseqs
  have hrows : (rowsAt seqs split.1).length = split.1.length :=
    rowsAt_length fun i hi => (hpurged.train_before i hi).1
  have hrows' : (rowsAt seqs split.2).length = split.2.length :=
    rowsAt_length fun i hi => (hpurged.validation_from i hi).1
  have hshared : (allLabelRows sequenceLength split.1).filter (fun r =>
      r ∈ allLabelRows sequenceLength split.2) = [] := by
    rw [List.filter_eq_nil_iff]
    intro r hr hr'
    rw [decide_eq_true_eq] at hr'
    obtain ⟨i, hi, hri⟩ := List.mem_flatMap.mp (List.mem_dedup.mp hr)
    obtain ⟨j, hj, hrj⟩ := List.mem_flatMap.mp (List.mem_dedup.mp hr')
    exact hpurged.labels_disjoint i hi j hj hri hrj
  have hbuilt : rowsAt seqs split.2 ≠ [] := by
    rw [← List.length_pos_iff, hrows']
    exact List.length_pos_iff.mpr hvalidation
  refine ⟨⟨rowsAt seqs split.1, rowsAt seqs split.2⟩, ?_, hrows, hrows'⟩
  unfold train
  dsimp only
  rw [if_neg (by omega), if_neg hseqs, if_pos hmask, createSequences_length,
    if_neg (not_or.mpr ⟨htrain, hvalidation⟩), if_neg (not_not.mpr hshared),
    if_neg hbuilt]
  rfl

theorem fill_flags (points : List Sample) (mask : Mask) :
    (fill points mask).flags.length = (fill points mask).run.length :=
  List.length_map _

theorem unfilled_flags (points : List Sample) :
    (unfilled points).flags.length = (unfilled points).run.length :=
  List.length_map _

theorem preflightHistory_ok {rows : List RawRow} {sequenceLength steps : ℕ}
    {mask : Mask} {role : String} {fills : Bool} {prepared : Filled}
    (h : preflightHistory rows sequenceLength steps mask role fills =
      .ok prepared) :
    prepared.flags.length = prepared.run.length ∧
      enough prepared.flags sequenceLength steps = true := by
  cases fills with
  | true =>
      obtain ⟨rfl, henough⟩ := preflightHistory_fill h
      exact ⟨fill_flags _ _, henough⟩
  | false =>
      unfold preflightHistory at h
      split at h
      · cases h
      split at h
      · cases h
      split at h
      · cases h
      dsimp only at h
      split at h
      · cases h
      rw [if_neg Bool.false_ne_true] at h
      split at h
      · rename_i henough
        cases h
        exact ⟨unfilled_flags _, henough⟩
      · cases h

/-- Every split is purged, and a training of an accepted history builds the
published numbers of sequences. -/
theorem one_split_rule :
    (∀ (nRows sequenceLength steps nSequences : ℕ) (imputed : List Bool),
      PurgedSplit (eightyPercent nRows) sequenceLength steps nSequences imputed
        (purgedSplitIndices nRows sequenceLength steps nSequences imputed).1
        (purgedSplitIndices nRows sequenceLength steps nSequences
          imputed).2) ∧
    ∀ (rows : List RawRow) (sequenceLength : ℕ) (mask : Mask) (role : String)
      (fills : Bool) (prepared : Filled),
      preflightHistory rows sequenceLength stepsAhead mask role fills =
        .ok prepared →
      ∃ built, trainPrepared prepared sequenceLength = .ok built ∧
        built.train.length =
          (published prepared sequenceLength stepsAhead).trainSequences ∧
        built.validation.length = (published prepared sequenceLength
          stepsAhead).validationSequences := by
  refine ⟨purgedSplitIndices_purged, ?_⟩
  intro rows sequenceLength mask role fills prepared h
  obtain ⟨hflags, henough⟩ := preflightHistory_ok h
  have hsize : trainRows prepared.run.length ≤ prepared.run.length := by
    unfold trainRows eightyPercent
    omega
  have hvalues : ((prepared.run.take (trainRows prepared.run.length)).map
      Sample.value).length = trainRows prepared.run.length := by
    rw [List.length_map, List.length_take_of_le hsize]
  have hmask : (prepared.flags.take (trainRows prepared.run.length)).length =
      trainRows prepared.run.length :=
    List.length_take_of_le (by omega)
  have hok := @train_eq_ok _ _ sequenceLength (hmask.trans hvalues.symm)
  rw [hvalues] at hok
  rw [enough, hflags, Bool.and_eq_true] at henough
  exact hok (by simpa using henough.1) (by simpa using henough.2)

namespace SplitRuleWitness

/-- A filled validation row costs the six sequences that it labels. -/
theorem without_validation_row :
    ∃ prepared, preflightHistory (PreflightWitness.without 72) 24 stepsAhead {}
        "benchmark" true = .ok prepared ∧
      ∃ built, trainPrepared prepared 24 = .ok built ∧
        built.train.length = 35 ∧ built.validation.length = 5 := by
  obtain ⟨r, hr, hcheck⟩ := @PreflightWitness.exists_prepared 72 (fun r =>
    decide ((published r 24 stepsAhead).trainSequences = 35) &&
      decide ((published r 24 stepsAhead).validationSequences = 5)) true
    (by decide +kernel)
  simp only [Bool.and_eq_true, decide_eq_true_eq] at hcheck
  obtain ⟨built, hbuilt, htrain, hvalidation⟩ :=
    one_split_rule.2 _ _ _ _ _ r hr
  exact ⟨r, hr, built, hbuilt, htrain.trans hcheck.1,
    hvalidation.trans hcheck.2⟩

end SplitRuleWitness

end PredictiveAutoscaler.Preflight
