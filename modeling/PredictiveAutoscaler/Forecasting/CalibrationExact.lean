/-
Calibration over a whole run.  The score buffer is the newest part of all cohort
scores whatever order they matured in, the adaptive level stays within its
bounds and is the sum of its moves until one is clipped, and settings that were
accepted always leave a feasible rank once enough scores are usable.
-/
import PredictiveAutoscaler.Forecasting.Contracts
import PredictiveAutoscaler.NewestKept

namespace PredictiveAutoscaler.Forecasting

open NewestKept

/-- The score of a cohort window, with the end of its window. -/
def CalibrationRecord.score? (record : CalibrationRecord)
    (policy : CalibrationPolicy) : Option (ℕ × ℚ) :=
  match record.truth with
  | .unscorable => none
  | .scored y =>
      if inCohort record.decisionOrigin policy.leadSeconds then
        some (record.windowEnd, binary64 (y - record.baseRps))
      else none

/-- Whether the bound of a bounded cohort window was missed. -/
def CalibrationRecord.miss? (record : CalibrationRecord)
    (policy : CalibrationPolicy) : Option ℕ :=
  match record.truth, record.upperRps with
  | .scored y, some u =>
      if inCohort record.decisionOrigin policy.leadSeconds then
        some (if u < y then 1 else 0)
      else none
  | _, _ => none

def cohortScores (policy : CalibrationPolicy)
    (records : List CalibrationRecord) : List (ℕ × ℚ) :=
  records.filterMap fun record => record.score? policy

def newestEnd (scores : List (ℕ × ℚ)) : ℕ :=
  scores.foldl (fun newest score => max newest score.1) 0

/-- The newest `maxScores`, by window end, of the cohort scores whose window
ended within the retention before the newest one. -/
def newestScores (policy : CalibrationPolicy)
    (records : List CalibrationRecord) : List (ℕ × ℚ) :=
  let all := cohortScores policy records
  let sorted := all.insertionSort fun a b => a.1 ≤ b.1
  let retained := sorted.filter fun score =>
    (newestEnd all : ℤ) - policy.retentionSeconds < score.1
  retained.drop (retained.length - policy.maxScores)

/-- The level after a move, before it is clipped. -/
def CalibrationState.moved (state : CalibrationState)
    (policy : CalibrationPolicy) (miss : ℕ) : ℤ :=
  state.aE8 + policy.etaBps * ((policy.nominalBps : ℤ) - miss * bps)

/-- A level within the configured bounds. -/
def CalibrationPolicy.Admits (policy : CalibrationPolicy) (aE8 : ℤ) : Prop :=
  (policy.minBps : ℤ) * bps ≤ aE8 ∧ aE8 ≤ (policy.maxBps : ℤ) * bps

/-- The state after a run of records. -/
def CalibrationState.applyAll (start : CalibrationState)
    (policy : CalibrationPolicy) (records : List CalibrationRecord) :
    CalibrationState :=
  records.foldl (fun state record => state.applied record policy) start

/-- No move of the run was clipped. -/
def NeverClipped (policy : CalibrationPolicy) (start : CalibrationState)
    (records : List CalibrationRecord) : Prop :=
  ∀ before record after, records = before ++ record :: after →
    ∀ miss, record.miss? policy = some miss →
      policy.Admits ((start.applyAll policy before).moved policy miss)

/-- The moves of the bounded cohort windows, from the nominal level. -/
def unclippedLevel (policy : CalibrationPolicy)
    (records : List CalibrationRecord) : ℤ :=
  let misses := records.filterMap fun record => record.miss? policy
  policy.nominalBps * bps +
    policy.etaBps *
      ((misses.length : ℤ) * policy.nominalBps - (misses.sum : ℤ) * bps)

/-- The state of a run is what its records come to. -/
structure CalibrationState.ExactOf (state : CalibrationState)
    (policy : CalibrationPolicy) (start : CalibrationState)
    (records : List CalibrationRecord) : Prop where
  scores : state.scores = newestScores policy records
  usable : ∀ now, state.bufferedScores policy now =
    ((newestScores policy records).filter fun score =>
      (now : ℤ) - policy.retentionSeconds < score.1 ∧ score.1 ≤ now).map
        Prod.snd
  bounds : policy.Admits state.aE8
  level : NeverClipped policy start records →
    state.aE8 = unclippedLevel policy records
  few : ∀ (baseRps : ℚ) (now : ℕ), 0 ≤ baseRps →
    (state.bufferedScores policy now).length < policy.minWindows →
    ∃ info, state.upperBound policy baseRps now = .ok (none, info)
  enough : ∀ (baseRps : ℚ) (now : ℕ), 0 ≤ baseRps →
    policy.minWindows ≤ (state.bufferedScores policy now).length →
    let sorted := (state.bufferedScores policy now).insertionSort (· ≤ ·)
    ∃ (k : ℕ) (h : k - 1 < sorted.length), 1 ≤ k ∧
      (k : ℤ) = ⌈((sorted.length : ℚ) + 1) * (1 - state.aE8 / e8)⌉ ∧
      ∃ info, state.upperBound policy baseRps now =
        .ok (some (max 0 (binary64 (baseRps + sorted[k - 1]))), info)

theorem rank_eq_ceil (n : ℕ) (aE8 : ℤ) :
    rank n aE8 = ⌈((n : ℚ) + 1) * (1 - aE8 / e8)⌉ := by
  have hfloor := Rat.floor_intCast_div_natCast
    (-((n : ℤ) + 1) * (e8 - aE8)) 100000000
  have hceil : ((n : ℚ) + 1) * (1 - aE8 / e8) =
      -(((-((n : ℤ) + 1) * (e8 - aE8) : ℤ) : ℚ) / (100000000 : ℕ)) := by
    push_cast [e8]
    ring
  rw [hceil, Int.ceil_neg, hfloor]
  rfl

/-- The feasibility of the settings, without the division. -/
theorem bps_le_of_rankBps {n a : ℕ} (h : rankBps n a ≤ n) :
    (bps : ℤ) ≤ (n + 1) * a := by
  have hbps : (bps : ℤ) = 10000 := rfl
  unfold rankBps at h
  rw [hbps] at h ⊢
  have hdiv := Int.ediv_mul_le (-((n : ℤ) + 1) * (10000 - a))
    (b := 10000) (by norm_num)
  have hlow : -(n : ℤ) * 10000 ≤
      -((n : ℤ) + 1) * (10000 - a) / 10000 * 10000 := by omega
  linarith

/-- Enough scores have a rank, and it is theirs. -/
theorem rank_bounds {n minWindows : ℕ} {minBps aE8 : ℤ}
    (hfeasible : (bps : ℤ) ≤ (minWindows + 1) * minBps)
    (hmin : 0 ≤ minBps) (hn : minWindows ≤ n) (hlow : minBps * bps ≤ aE8)
    (hhigh : aE8 < e8) : 1 ≤ rank n aE8 ∧ rank n aE8 ≤ n := by
  have hbps : (bps : ℤ) = 10000 := rfl
  have he8 : e8 = 10000 * 10000 := rfl
  rw [hbps] at hfeasible hlow
  have hnWindows : (minWindows : ℤ) ≤ n := by exact_mod_cast hn
  have hroom : e8 ≤ ((n : ℤ) + 1) * aE8 := by
    calc e8 = 10000 * 10000 := he8
      _ ≤ ((minWindows + 1) * minBps) * 10000 := by linarith
      _ ≤ (((n : ℤ) + 1) * minBps) * 10000 := by
          have hle := mul_le_mul_of_nonneg_right
            (add_le_add_left hnWindows 1) hmin
          linarith
      _ = ((n : ℤ) + 1) * (minBps * 10000) := by ring
      _ ≤ ((n : ℤ) + 1) * aE8 :=
          mul_le_mul_of_nonneg_left hlow (by positivity)
  have hpositive : (0 : ℤ) < e8 := by rw [he8]; norm_num
  have hproduct : 0 < ((n : ℤ) + 1) * (e8 - aE8) :=
    mul_pos (by positivity) (sub_pos.mpr hhigh)
  unfold rank
  constructor
  · have hneg : -((n : ℤ) + 1) * (e8 - aE8) / e8 < 0 :=
      Int.ediv_neg_of_neg_of_pos (by linarith) hpositive
    omega
  · have hfloor : -(n : ℤ) ≤ -((n : ℤ) + 1) * (e8 - aE8) / e8 := by
      rw [Int.le_ediv_iff_mul_le hpositive]
      linarith
    omega

theorem resolveSettings_feasible {p : PredictionSpec} {s : ForecastSettings}
    (h : resolveSettings p = .ok s) :
    rankBps s.calibration.minWindows s.calibration.minMiscoverageBps ≤
      s.calibration.minWindows := by
  simp only [resolveSettings, Except.bind_eq_ok_iff] at h
  obtain ⟨_, -, engine, -, seasonality, -, interval, -, horizon, -,
    historyDays, -, settle, -, grace, -, risk, -, calibration, -, trust, -,
    extra, -, _, hfeasible, hs⟩ := h
  cases hs
  simp only [ForecastSettings.checkFeasible, refuseIf_bind_eq_ok,
    refuseIf_eq_ok, not_not, not_lt, not_le] at hfeasible
  exact hfeasible.2.2.2.1

/-- The window ended within the retention before `newest`. -/
def CalibrationPolicy.retains (policy : CalibrationPolicy) (newest k : ℕ) :
    Bool :=
  decide ((newest : ℤ) - policy.retentionSeconds < k)

theorem CalibrationPolicy.retains_upward (policy : CalibrationPolicy)
    (newest : ℕ) : Upward (policy.retains newest) := by
  intro j k hjk hj
  simp only [retains, decide_eq_true_eq] at hj ⊢
  omega

theorem CalibrationPolicy.retains_of_le {policy : CalibrationPolicy}
    {newest newest' : ℕ} (h : newest ≤ newest') (k : ℕ)
    (hk : policy.retains newest' k = true) :
    policy.retains newest k = true := by
  simp only [retains, decide_eq_true_eq] at hk ⊢
  omega

theorem lastSlice_eq_rtake {α : Type} (policy : CalibrationPolicy)
    (xs : List α) : lastSlice policy.maxScores xs = xs.rtake policy.maxScores :=
  if_neg (Nat.ne_of_gt (policy.minWindows_pos.trans policy.minWindows_le))

theorem newestScores_eq_kept (policy : CalibrationPolicy)
    (records : List CalibrationRecord) :
    newestScores policy records = kept Prod.fst policy.maxScores
      (policy.retains (newestEnd (cohortScores policy records)))
      (cohortScores policy records) := rfl

/-- A newest end of zero counts as none; no window ends before it. -/
theorem CalibrationState.max_newest (state : CalibrationState)
    (windowEnd : ℕ) : max windowEnd (state.newest windowEnd) =
      max windowEnd (state.newestWindowEnd.getD windowEnd) := by
  unfold Calibration.State.newest
  cases state.newestWindowEnd with
  | none => rfl
  | some newest =>
      dsimp only [Option.getD_some]
      split
      · rename_i hzero
        have hnewest : newest = 0 := Int.natCast_eq_zero.mp hzero
        rw [hnewest, max_self, Nat.max_zero]
      · rfl

section Applied

variable {state : CalibrationState} {policy : CalibrationPolicy}
  {record : CalibrationRecord} (hnew : state.lastSeq < record.seq)

include hnew

theorem applied_keeps_identity :
    (state.applied record policy).epoch = state.epoch ∧
      (state.applied record policy).model = state.model ∧
      (state.applied record policy).recipe = state.recipe ∧
      (state.applied record policy).lastSeq = record.seq := by
  unfold Calibration.State.applied
  rw [if_neg (Nat.not_le.mpr hnew)]
  cases record.truth with
  | unscorable => exact ⟨rfl, rfl, rfl, rfl⟩
  | scored y =>
      unfold Calibration.State.applyScored
      dsimp only
      split
      · cases record.upperRps <;> exact ⟨rfl, rfl, rfl, rfl⟩
      · exact ⟨rfl, rfl, rfl, rfl⟩

/-- A record without a score leaves the buffer as it is. -/
theorem applied_buffer_none (hscore : record.score? policy = none) :
    (state.applied record policy).scores = state.scores ∧
      (state.applied record policy).newestWindowEnd =
        state.newestWindowEnd := by
  unfold CalibrationRecord.score? at hscore
  unfold Calibration.State.applied
  rw [if_neg (Nat.not_le.mpr hnew)]
  cases htruth : record.truth with
  | unscorable => exact ⟨rfl, rfl⟩
  | scored y =>
      rw [htruth] at hscore
      have hcohort : inCohort record.decisionOrigin policy.leadSeconds ≠
          true := fun hcohort => by
        simp [hcohort] at hscore
      simp only [Calibration.State.applyScored, if_neg hcohort]
      exact ⟨rfl, rfl⟩

/-- A score enters the buffer, from which what is then too old or too many
goes. -/
theorem applied_buffer_some {score : ℕ × ℚ}
    (hscore : record.score? policy = some score) :
    let newest := max score.1 (state.newestWindowEnd.getD score.1)
    (state.applied record policy).newestWindowEnd = some newest ∧
      (state.applied record policy).scores = kept Prod.fst policy.maxScores
        (policy.retains newest) (state.scores ++ [score]) := by
  unfold CalibrationRecord.score? at hscore
  unfold Calibration.State.applied
  rw [if_neg (Nat.not_le.mpr hnew)]
  cases htruth : record.truth with
  | unscorable =>
      rw [htruth] at hscore
      cases hscore
  | scored y =>
      rw [htruth] at hscore
      dsimp only at hscore
      split at hscore
      · rename_i hcohort
        cases hscore
        simp only [Calibration.State.applyScored, if_pos hcohort]
        have hnewest := state.max_newest record.windowEnd
        rw [← hnewest]
        cases record.upperRps with
        | none => exact ⟨rfl, lastSlice_eq_rtake policy _⟩
        | some u => exact ⟨rfl, lastSlice_eq_rtake policy _⟩
      · cases hscore

/-- The level moves with the bounded cohort windows alone, and is clipped. -/
theorem applied_level :
    (state.applied record policy).aE8 =
      (record.miss? policy).elim state.aE8 fun miss =>
        min ((policy.maxBps : ℤ) * bps)
          (max ((policy.minBps : ℤ) * bps) (state.moved policy miss)) := by
  unfold Calibration.State.applied CalibrationRecord.miss?
  rw [if_neg (Nat.not_le.mpr hnew)]
  cases record.truth with
  | unscorable => rfl
  | scored y =>
      simp only [Calibration.State.applyScored]
      cases record.upperRps with
      | none => split <;> rfl
      | some u =>
          dsimp only
          split
          · rfl
          · rfl

theorem applied_admits (hbounds : policy.Admits state.aE8) :
    policy.Admits (state.applied record policy).aE8 := by
  have horder : (policy.minBps : ℤ) * bps ≤ (policy.maxBps : ℤ) * bps := by
    have hle := policy.level_bounds.2.1.trans policy.level_bounds.2.2.1
    exact_mod_cast Nat.mul_le_mul_right bps hle
  rw [applied_level hnew]
  cases record.miss? policy with
  | none => exact hbounds
  | some miss =>
      exact ⟨le_min horder (le_max_left _ _), min_le_left _ _⟩

omit hnew in
theorem apply_eq_applied
    (hown : (record.epoch, record.model, record.recipe) =
      (state.epoch, state.model, state.recipe)) :
    state.apply record policy = .ok (state.applied record policy) := by
  simp only [Prod.mk.injEq] at hown
  obtain ⟨hepoch, hmodel, hrecipe⟩ := hown
  simp [Calibration.State.apply, hepoch, hmodel, hrecipe]

end Applied

theorem newestEnd_append (scores : List (ℕ × ℚ)) (score : ℕ × ℚ) :
    newestEnd (scores ++ [score]) = max (newestEnd scores) score.1 := by
  simp [newestEnd]

/-- The state a run of records leaves, whatever the order of their windows. -/
structure CalibrationState.AppliedOf (state : CalibrationState)
    (policy : CalibrationPolicy) (start : CalibrationState)
    (records : List CalibrationRecord) : Prop where
  identity : (state.epoch, state.model, state.recipe) =
    (start.epoch, start.model, start.recipe)
  lastSeq : state.lastSeq ∈ 0 :: records.map Calibration.Record.seq
  newest : ∀ k, max k (state.newestWindowEnd.getD k) =
    max (newestEnd (cohortScores policy records)) k
  scores : state.scores = newestScores policy records
  bounds : policy.Admits state.aE8
  level : NeverClipped policy start records →
    state.aE8 = unclippedLevel policy records

section Run

variable {policy : CalibrationPolicy} {epoch : EvidenceKey} {model : Model}
  {recipe : String}

theorem appliedOf_initial :
    CalibrationState.AppliedOf (.initial policy epoch model recipe) policy
      (.initial policy epoch model recipe) [] := by
  obtain ⟨-, hmin, hmax, -⟩ := policy.level_bounds
  refine ⟨rfl, List.mem_cons_self, fun k => ?_, ?_, ⟨?_, ?_⟩, fun _ => ?_⟩
  · simp [Calibration.State.initial, newestEnd, cohortScores]
  · simp [Calibration.State.initial, newestScores, cohortScores]
  · have hle := Nat.mul_le_mul_right bps hmin
    simp only [Calibration.State.initial]
    exact_mod_cast hle
  · have hle := Nat.mul_le_mul_right bps hmax
    simp only [Calibration.State.initial]
    exact_mod_cast hle
  · simp [Calibration.State.initial, unclippedLevel]

theorem NeverClipped.init {start : CalibrationState}
    {records : List CalibrationRecord} {record : CalibrationRecord}
    (h : NeverClipped policy start (records ++ [record])) :
    NeverClipped policy start records := by
  intro before other after hrecords
  exact h before other (after ++ [record]) (by rw [hrecords]; simp)

/-- The level without clipping moves with each bounded cohort window. -/
theorem unclippedLevel_snoc (records : List CalibrationRecord)
    (record : CalibrationRecord) :
    unclippedLevel policy (records ++ [record]) =
      (record.miss? policy).elim (unclippedLevel policy records) fun miss =>
        unclippedLevel policy records +
          policy.etaBps * ((policy.nominalBps : ℤ) - miss * bps) := by
  unfold unclippedLevel
  rw [List.filterMap_append]
  cases hmiss : record.miss? policy with
  | none => simp [hmiss]
  | some miss =>
      simp [hmiss]
      ring

theorem applyAll_snoc (start : CalibrationState)
    (records : List CalibrationRecord) (record : CalibrationRecord) :
    start.applyAll policy (records ++ [record]) =
      (start.applyAll policy records).applied record policy := by
  simp [CalibrationState.applyAll]

section Snoc

variable {start : CalibrationState} {records : List CalibrationRecord}
  {record : CalibrationRecord}
  (h : (start.applyAll policy records).AppliedOf policy start records)
  (hseqs : (0 :: (records ++ [record]).map Calibration.Record.seq).Pairwise
    (· < ·))

include h hseqs

theorem lastSeq_lt : (start.applyAll policy records).lastSeq < record.seq := by
  rw [List.map_append, ← List.cons_append, List.pairwise_append] at hseqs
  exact hseqs.2.2 _ h.lastSeq _ (List.mem_singleton_self _)

/-- The buffer after the next record. -/
theorem buffer_snoc :
    (∀ k, max k ((start.applyAll policy
        (records ++ [record])).newestWindowEnd.getD k) =
      max (newestEnd (cohortScores policy (records ++ [record]))) k) ∧
    (start.applyAll policy (records ++ [record])).scores =
      newestScores policy (records ++ [record]) := by
  have hnew := lastSeq_lt h hseqs
  have hcohort : cohortScores policy (records ++ [record]) =
      cohortScores policy records ++ (record.score? policy).toList := by
    unfold cohortScores
    rw [List.filterMap_append]
    cases hscore : record.score? policy <;> simp [hscore]
  rw [applyAll_snoc, newestScores_eq_kept, hcohort]
  cases hscore : record.score? policy with
  | none =>
      obtain ⟨hscores, hnewest⟩ := applied_buffer_none hnew hscore
      rw [Option.toList_none, List.append_nil, hscores, hnewest]
      exact ⟨h.newest, h.scores.trans (newestScores_eq_kept policy records)⟩
  | some score =>
      obtain ⟨hnewest, hscores⟩ := applied_buffer_some hnew hscore
      rw [h.newest score.1] at hnewest hscores
      rw [Option.toList_some, newestEnd_append, hscores, hnewest, h.scores,
        newestScores_eq_kept]
      refine ⟨fun k => ?_, ?_⟩
      · rw [Option.getD_some]
        exact max_comm _ _
      · exact kept_concat _ (policy.retains_upward _)
          (policy.retains_of_le (le_max_left _ _)) _ _

/-- The level after the next record, while no move was clipped. -/
theorem level_snoc
    (hclipped : NeverClipped policy start (records ++ [record])) :
    (start.applyAll policy (records ++ [record])).aE8 =
      unclippedLevel policy (records ++ [record]) := by
  have hlevel := h.level hclipped.init
  rw [applyAll_snoc, applied_level (lastSeq_lt h hseqs), unclippedLevel_snoc]
  cases hmiss : record.miss? policy with
  | none => exact hlevel
  | some miss =>
      obtain ⟨hlow, hhigh⟩ := hclipped records record [] rfl miss hmiss
      rw [Option.elim_some, Option.elim_some, max_eq_right hlow,
        min_eq_right hhigh, ← hlevel]
      rfl

/-- The next record keeps a run's state exact. -/
theorem CalibrationState.AppliedOf.snoc :
    (start.applyAll policy (records ++ [record])).AppliedOf policy start
      (records ++ [record]) := by
  have hnew := lastSeq_lt h hseqs
  obtain ⟨hepoch, hmodel, hrecipe, hlast⟩ :=
    @applied_keeps_identity _ policy _ hnew
  obtain ⟨hnewest, hscores⟩ := buffer_snoc h hseqs
  refine ⟨?_, ?_, hnewest, hscores, ?_, level_snoc h hseqs⟩
  · rw [applyAll_snoc, hepoch, hmodel, hrecipe]
    exact h.identity
  · rw [applyAll_snoc, hlast, List.map_append]
    exact List.mem_cons_of_mem _
      (List.mem_append_right _ (List.mem_singleton_self _))
  · rw [applyAll_snoc]
    exact applied_admits hnew h.bounds

end Snoc

/-- Every run of a model's own records is applied, and its state is exact. -/
theorem appliedOf_run (records : List CalibrationRecord)
    (hown : ∀ r ∈ records, (r.epoch, r.model, r.recipe) =
      (epoch, model, recipe))
    (hseqs : (0 :: records.map Calibration.Record.seq).Pairwise (· < ·)) :
    records.foldlM (fun state record =>
        Calibration.State.apply state record policy)
        (.initial policy epoch model recipe) =
      .ok (CalibrationState.applyAll (.initial policy epoch model recipe)
        policy records) ∧
    (CalibrationState.applyAll (.initial policy epoch model recipe) policy
      records).AppliedOf policy (.initial policy epoch model recipe)
        records := by
  induction records using List.reverseRecOn with
  | nil => exact ⟨rfl, appliedOf_initial⟩
  | append_singleton records record ih =>
      rw [List.forall_mem_append, List.forall_mem_singleton] at hown
      have hseqs' : (0 :: records.map Calibration.Record.seq).Pairwise
          (· < ·) := by
        rw [List.map_append, ← List.cons_append] at hseqs
        exact (List.pairwise_append.mp hseqs).1
      obtain ⟨hfold, happlied⟩ := ih hown.1 hseqs'
      refine ⟨?_, happlied.snoc hseqs⟩
      have happly := @apply_eq_applied _ policy _
        (hown.2.trans happlied.identity.symm)
      rw [List.foldlM_append, hfold, applyAll_snoc, ← happly]
      exact bind_pure (m := Except Raised) _

end Run

/-- What the settings promise the rank. -/
def CalibrationPolicy.Feasible (policy : CalibrationPolicy) : Prop :=
  (bps : ℤ) ≤ (policy.minWindows + 1) * policy.minBps

section Bound

variable {state : CalibrationState} {policy : CalibrationPolicy}
  (hbounds : policy.Admits state.aE8) {baseRps : ℚ} (hbase : 0 ≤ baseRps)
  {now : ℕ}

include hbase in
theorem upperBound_few
    (hfew : (state.bufferedScores policy now).length < policy.minWindows) :
    ∃ info, state.upperBound policy baseRps now = .ok (none, info) := by
  unfold Calibration.State.upperBound
  rw [if_neg (not_lt.mpr hbase)]
  dsimp only
  rw [List.length_insertionSort, if_pos hfew]
  exact ⟨_, rfl⟩

include hbounds hbase in
/-- With enough scores the bound is the score of the rank above the base. -/
theorem upperBound_enough (hfeasible : policy.Feasible)
    (henough : policy.minWindows ≤ (state.bufferedScores policy now).length) :
    let sorted := (state.bufferedScores policy now).insertionSort (· ≤ ·)
    ∃ (k : ℕ) (h : k - 1 < sorted.length), 1 ≤ k ∧
      (k : ℤ) = ⌈((sorted.length : ℚ) + 1) * (1 - state.aE8 / e8)⌉ ∧
      ∃ info, state.upperBound policy baseRps now =
        .ok (some (max 0 (binary64 (baseRps + sorted[k - 1]))), info) := by
  intro sorted
  have hlength : sorted.length = (state.bufferedScores policy now).length :=
    List.length_insertionSort _ _
  have hhigh : state.aE8 < e8 := by
    have hmax : policy.maxBps < bps := policy.level_bounds.2.2.2
    have hle := hbounds.2
    have hbps : (bps : ℤ) = 10000 := rfl
    have he8 : e8 = 100000000 := rfl
    have hmax' : (policy.maxBps : ℤ) < bps := by exact_mod_cast hmax
    rw [hbps] at hle hmax'
    omega
  obtain ⟨hpositive, hin⟩ := rank_bounds hfeasible (Nat.cast_nonneg _)
    (hlength ▸ henough) hbounds.1 hhigh
  obtain ⟨k, hk⟩ := Int.eq_ofNat_of_zero_le (Int.le_of_lt hpositive)
  rw [hk] at hpositive hin
  have hindex : k - 1 < sorted.length := by omega
  have hmany : ¬sorted.length < policy.minWindows := by omega
  have hrank : ¬(sorted.length : ℤ) < rank sorted.length state.aE8 := by
    omega
  have hq : sorted.getD (rank sorted.length state.aE8 - 1).toNat 0 =
      sorted[k - 1] := by
    have hplace : (rank sorted.length state.aE8 - 1).toNat = k - 1 := by
      omega
    rw [hplace, List.getD_eq_getElem _ _ hindex]
  refine ⟨k, hindex, by omega, ?_, ?_⟩
  · rw [← rank_eq_ceil]
    exact hk.symm
  · unfold Calibration.State.upperBound
    rw [if_neg (not_lt.mpr hbase)]
    dsimp only
    rw [if_neg hmany, if_neg hrank, hq]
    exact ⟨_, rfl⟩

end Bound

theorem newestScores_length (policy : CalibrationPolicy)
    (records : List CalibrationRecord) :
    (newestScores policy records).length ≤ policy.maxScores := by
  unfold newestScores
  rw [List.length_drop]
  omega

/-- The usable scores are those of the buffer that are old enough and not too
old; there are never too many of them. -/
theorem bufferedScores_eq {state : CalibrationState}
    {policy : CalibrationPolicy} {records : List CalibrationRecord}
    (h : state.scores = newestScores policy records) (now : ℕ) :
    state.bufferedScores policy now =
      ((newestScores policy records).filter fun score =>
        (now : ℤ) - policy.retentionSeconds < score.1 ∧ score.1 ≤ now).map
          Prod.snd := by
  unfold Calibration.State.bufferedScores
  rw [h, lastSlice_eq_rtake, rtake_of_length_le]
  · rfl
  · rw [List.length_map]
    exact (List.length_filter_le _ _).trans (newestScores_length policy records)

/-- With accepted settings calibration is exact over every run, and always has a
feasible rank. -/
theorem calibration_exact {p : PredictionSpec} {settings : ForecastSettings}
    (hsettings : resolveSettings p = .ok settings) {leadSeconds : ℕ}
    (hlead : 0 < leadSeconds) (epoch : EvidenceKey) (model : Model)
    (recipe : String) (records : List CalibrationRecord)
    (hown : ∀ r ∈ records, (r.epoch, r.model, r.recipe) =
      (epoch, model, recipe))
    (hseqs : (0 :: records.map Calibration.Record.seq).Pairwise (· < ·)) :
    ∃ policy, ∃ state : CalibrationState,
      CalibrationPolicy.fromSettings settings leadSeconds = .ok policy ∧
      records.foldlM (fun state record =>
        Calibration.State.apply state record policy)
          (.initial policy epoch model recipe) = .ok state ∧
      state.ExactOf policy (.initial policy epoch model recipe) records := by
  obtain ⟨policy, hpolicy, -⟩ :=
    (resolveSettings_accepted hsettings).fromSettings hlead
  obtain ⟨hrun, happlied⟩ := @appliedOf_run policy _ _ _ records hown hseqs
  have hfeasible : policy.Feasible := by
    have hrank := bps_le_of_rankBps (resolveSettings_feasible hsettings)
    unfold CalibrationPolicy.fromSettings at hpolicy
    dsimp only at hpolicy
    split at hpolicy
    · cases hpolicy
      exact hrank
    · cases hpolicy
  refine ⟨policy, _, hpolicy, hrun, happlied.scores,
    bufferedScores_eq happlied.scores, happlied.bounds, happlied.level, ?_, ?_⟩
  · intro baseRps now hbase
    exact upperBound_few hbase
  · intro baseRps now hbase
    exact upperBound_enough happlied.bounds hbase hfeasible

namespace CalibrationExactWitness

theorem origin_lt : 0 < 300 := by decide

/-- A window of 300 seconds on the cohort grid. -/
def record (seq windowEnd : ℕ) (yRps : ℚ) : CalibrationRecord where
  seq
  epoch := default
  model := .seasonalNaive
  recipe := "naive/v1"
  issuanceId := ⟨default, 0, 300, {}, origin_lt⟩
  decisionOrigin := windowEnd - 300
  windowEnd
  baseRps := 10
  upperRps := some 12
  truth := .scored yRps

theorem resolveSettings_default : resolveSettings {} = .ok {} := by
  decide +kernel

/-- Two records that mature against the order of their windows. -/
theorem calibration_exact_late : ∃ policy, ∃ state : CalibrationState,
    CalibrationPolicy.fromSettings {} 300 = .ok policy ∧
    [record 1 900 11, record 2 600 13].foldlM (fun state record =>
      Calibration.State.apply state record policy)
        (.initial policy default .seasonalNaive "naive/v1") = .ok state ∧
    state.ExactOf policy (.initial policy default .seasonalNaive "naive/v1")
      [record 1 900 11, record 2 600 13] :=
  calibration_exact resolveSettings_default (by decide) default .seasonalNaive
    "naive/v1" _ (by decide) (by decide)

end CalibrationExactWitness

end PredictiveAutoscaler.Forecasting
