/-
The lead-time window of a v1 forecast, over any targets: which values the scan
selects, what their peak is, and how the peak becomes a replica count.
-/
import PredictiveAutoscaler.ForecastReuse

namespace PredictiveAutoscaler

/-- The values that the scan of the steps `(target, value)` leaves. -/
def selectSteps (steps : List (ℤ × ℚ)) (now leadEnd : ℤ) : Option (List ℚ) :=
  let scan : LeadScan := steps.foldl
    (fun scan q => scan.visit now leadEnd q.1 q.2) ⟨[], none, none⟩
  match scan.firstFuture, scan.lastTarget with
  | some first, some last =>
      if last < leadEnd then none
      else if scan.window.isEmpty then some [first]
      else some scan.window
  | _, _ => none

/-- The values with targets in `(now, leadEnd]`. -/
def insideLead (steps : List (ℤ × ℚ)) (now leadEnd : ℤ) : List ℚ :=
  (steps.filter fun q => decide (now < q.1 ∧ q.1 ≤ leadEnd)).map Prod.snd

/-- The first step ahead. -/
def firstAhead (steps : List (ℤ × ℚ)) (now : ℤ) : Option ℚ :=
  (steps.find? fun q => decide (now < q.1)).map Prod.snd

/-- The scan reaches a bound when a step ahead does. -/
theorem foldl_visit_reaches (now leadEnd bound : ℤ) (steps : List (ℤ × ℚ))
    (scan : LeadScan) :
    (∃ last, (steps.foldl (fun scan q => scan.visit now leadEnd q.1 q.2)
        scan).lastTarget = some last ∧ bound ≤ last) ↔
      (∃ last, scan.lastTarget = some last ∧ bound ≤ last) ∨
        ∃ q ∈ steps, now < q.1 ∧ bound ≤ q.1 := by
  induction steps generalizing scan with
  | nil => simp
  | cons q rest ih =>
      rw [List.foldl_cons, ih]
      have hvisit : (∃ last, (scan.visit now leadEnd q.1 q.2).lastTarget =
            some last ∧ bound ≤ last) ↔
          (∃ last, scan.lastTarget = some last ∧ bound ≤ last) ∨
            (now < q.1 ∧ bound ≤ q.1) := by
        by_cases helapsed : q.1 ≤ now
        · simp [LeadScan.visit, helapsed, not_lt.mpr helapsed]
        · simp only [LeadScan.visit, helapsed, if_false, not_le.mp helapsed,
            true_and]
          cases scan.lastTarget with
          | none => simp
          | some last =>
              by_cases hlast : last < q.1
              · simp only [hlast, if_true, Option.some.injEq, exists_eq_left']
                omega
              · simp only [hlast, if_false, Option.some.injEq, exists_eq_left']
                omega
      rw [hvisit, or_assoc]
      simp only [List.mem_cons, exists_eq_or_imp]

/-- The scan selects when a step ahead reaches the end of the lead time. -/
theorem selectSteps_isSome (steps : List (ℤ × ℚ)) (now leadEnd : ℤ) :
    (selectSteps steps now leadEnd).isSome ↔
      ∃ q ∈ steps, now < q.1 ∧ leadEnd ≤ q.1 := by
  have hreach := foldl_visit_reaches now leadEnd leadEnd steps ⟨[], none, none⟩
  have hfirst := (foldl_visit now leadEnd steps ⟨[], none, none⟩).2
  simp only [reduceCtorEq, false_and, exists_false, false_or] at hreach
  simp only [Option.none_or] at hfirst
  unfold selectSteps
  dsimp only
  rw [← hreach]
  cases hlast : (steps.foldl (fun scan q => scan.visit now leadEnd q.1 q.2)
      ⟨[], none, none⟩ : LeadScan).lastTarget with
  | none => simp
  | some last =>
      have hahead : (∃ q ∈ steps, now < q.1 ∧ last ≤ q.1) := by
        have hself := foldl_visit_reaches now leadEnd last steps
          ⟨[], none, none⟩
        rw [hlast] at hself
        simpa using hself.mp ⟨last, rfl, le_rfl⟩
      obtain ⟨q, hq, hnow, -⟩ := hahead
      have hsome : ((steps.find? fun q => decide (now < q.1)).map
          Prod.snd).isSome := by
        simpa using ⟨q.1, ⟨q.2, hq⟩, hnow⟩
      rw [← hfirst] at hsome
      obtain ⟨first, hfuture⟩ := Option.isSome_iff_exists.mp hsome
      rw [hfuture]
      by_cases hshort : last < leadEnd
      · simp [hshort]
      · simp only [hshort, if_false, Option.some.injEq, exists_eq_left',
          not_lt.mp hshort, iff_true]
        split_ifs <;> rfl

/-- What the scan selects: the values inside the lead time, or the first step
ahead when there is none. -/
theorem selectSteps_eq_some {steps : List (ℤ × ℚ)} {now leadEnd : ℤ}
    {window : List ℚ} (h : selectSteps steps now leadEnd = some window) :
    (window = insideLead steps now leadEnd ∧ window ≠ []) ∨
      insideLead steps now leadEnd = [] ∧
        ∃ first, firstAhead steps now = some first ∧ window = [first] := by
  obtain ⟨hwindow, hfirst⟩ := foldl_visit now leadEnd steps ⟨[], none, none⟩
  rw [List.nil_append] at hwindow
  rw [Option.none_or] at hfirst
  simp only [selectSteps] at h
  split at h
  · rename_i first last hfuture hlast
    split at h
    · cases h
    split at h
    · rename_i hempty
      cases h
      rw [hwindow, List.isEmpty_iff] at hempty
      exact .inr ⟨hempty, first, hfirst.symm.trans hfuture, rfl⟩
    · rename_i hnonempty
      cases h
      refine .inl ⟨hwindow, fun hnil => hnonempty ?_⟩
      rw [hnil]
      rfl
  · cases h

theorem le_foldl_peak (rest : List ℚ) (v : ℚ) :
    v ≤ rest.foldl (fun peak w => if peak < w then w else peak) v ∧
      ∀ w ∈ rest,
        w ≤ rest.foldl (fun peak w => if peak < w then w else peak) v := by
  induction rest generalizing v with
  | nil => simp
  | cons head tail ih =>
      obtain ⟨hstart, hrest⟩ := ih (if v < head then head else v)
      rw [List.foldl_cons]
      have hv : v ≤ if v < head then head else v := by
        split_ifs with h
        · exact h.le
        · exact le_rfl
      have hhead : head ≤ if v < head then head else v := by
        split_ifs with h
        · exact le_rfl
        · exact not_lt.mp h
      refine ⟨hv.trans hstart, fun w hw => ?_⟩
      rcases List.mem_cons.mp hw with rfl | hw
      · exact hhead.trans hstart
      · exact hrest w hw

theorem foldl_peak_mem (rest : List ℚ) (v : ℚ) :
    rest.foldl (fun peak w => if peak < w then w else peak) v ∈ v :: rest := by
  induction rest generalizing v with
  | nil => simp
  | cons head tail ih =>
      rw [List.foldl_cons]
      have hmem := ih (if v < head then head else v)
      rcases List.mem_cons.mp hmem with heq | hmem
      · rw [heq]
        split_ifs <;> simp
      · simp [hmem]

/-- The peak is the largest value of a window. -/
theorem peakOf_isGreatest {window : List ℚ} (hne : window ≠ []) :
    IsGreatest {v | v ∈ window} (peakOf window) := by
  cases window with
  | nil => exact absurd rfl hne
  | cons v rest =>
      obtain ⟨hstart, hrest⟩ := le_foldl_peak rest v
      refine ⟨foldl_peak_mem rest v, fun w hw => ?_⟩
      rcases List.mem_cons.mp hw with rfl | hw
      · exact hstart
      · exact hrest w hw

theorem peakOf_mono {window window' : List ℚ}
    (hle : List.Forall₂ (· ≤ ·) window window') :
    peakOf window ≤ peakOf window' := by
  cases hle with
  | nil => exact le_rfl
  | @cons v v' rest rest' hv hrest =>
      have hle : List.Forall₂ (· ≤ ·) (v :: rest) (v' :: rest') :=
        .cons hv hrest
      obtain ⟨hmem, -⟩ := peakOf_isGreatest (List.cons_ne_nil v rest)
      obtain ⟨-, hupper⟩ := peakOf_isGreatest (List.cons_ne_nil v' rest')
      obtain ⟨i, hi, hget⟩ := List.mem_iff_getElem.mp hmem
      have hi' : i < (v' :: rest').length := hle.length_eq ▸ hi
      calc peakOf (v :: rest) = (v :: rest)[i] := hget.symm
        _ ≤ (v' :: rest')[i] := hle.get hi hi'
        _ ≤ peakOf (v' :: rest') := hupper (List.getElem_mem hi')

/-- The count of a peak before any safeguard. -/
def rawReplicas (capacityRPM peakRPM : ℚ) : ℤ :=
  boundedReplicas (⌈binary64 (peakRPM / capacityRPM)⌉ : ℤ)

/-- The confidences that damp. -/
abbrev Unsure (confidence : ℚ) : Prop :=
  confidence < binary64 (7 / 10) ∧ 0 < confidence

/-- The count after the damping. -/
def dampenedReplicas (minReplicas : ℤ) (confidence : ℚ) (raw : ℤ) : ℤ :=
  if Unsure confidence then
    boundedReplicas (⌈binary64 (minReplicas + binary64
      (confidence * (raw - minReplicas : ℤ)))⌉ : ℤ)
  else raw

/-- The count of a selected window and its intermediate values. -/
def convertWindow (minReplicas maxReplicas : ℤ) (capacityRPM confidence : ℚ)
    (window : List ℚ) : ℤ × PredictedDetail :=
  let peakRPM := peakOf window
  let raw := rawReplicas capacityRPM peakRPM
  let damped := dampenedReplicas minReplicas confidence raw
  let raised := if damped < minReplicas then minReplicas else damped
  let clamped := if maxReplicas < raised then maxReplicas else raised
  (clamped,
    { peakRPM := peakRPM, confidence := confidence, raw := raw
      damped := damped, clamped := clamped
      safeguards :=
        (if Unsure confidence ∧ damped ≠ raw then [.confidenceDamping]
          else []) ++
        (if damped < minReplicas then [.minClamp] else []) ++
        (if maxReplicas < raised then [.maxClamp] else []) })

/-- The horizon of a spec; `0` stands for the default. -/
def horizonOrDefault (horizonMinutes : ℤ) : ℤ :=
  if horizonMinutes = 0 then defaultHorizonMinutes else horizonMinutes

/-- The lead time of a spec; `0` stands for the default. -/
def leadOrDefault (leadTimeMinutes : ℤ) : ℤ :=
  if leadTimeMinutes = 0 then defaultLeadTimeMinutes else leadTimeMinutes

/-- The conversion of a forecast is the conversion of its window. -/
theorem calculatePredictedReplicasDetail_eq {prediction : Prediction}
    (hne : prediction.predictions.isEmpty = false) (minReplicas maxReplicas
      horizonMinutes leadTimeMinutes : ℤ) (capacityRPM : ℚ) (now : ℤ) :
    calculatePredictedReplicasDetail minReplicas maxReplicas horizonMinutes
        leadTimeMinutes (some capacityRPM) prediction now =
      (selectLeadTimeWindow prediction.predictions
        (prediction.anchorAt.getD now) now
        (horizonOrDefault horizonMinutes) (leadOrDefault leadTimeMinutes)).map
        (convertWindow minReplicas maxReplicas capacityRPM
          prediction.confidence) := by
  unfold calculatePredictedReplicasDetail horizonOrDefault leadOrDefault
  rw [hne, if_neg Bool.false_ne_true]
  dsimp only
  cases selectLeadTimeWindow prediction.predictions
    (prediction.anchorAt.getD now) now
    (if horizonMinutes = 0 then defaultHorizonMinutes else horizonMinutes)
    (if leadTimeMinutes = 0 then defaultLeadTimeMinutes else leadTimeMinutes)
  · rfl
  · rfl

theorem rawReplicas_mono {capacityRPM peakRPM peakRPM' : ℚ}
    (hcapacity : 0 < capacityRPM) (hle : peakRPM ≤ peakRPM') :
    rawReplicas capacityRPM peakRPM ≤ rawReplicas capacityRPM peakRPM' := by
  refine boundedReplicas_mono ?_
  exact_mod_cast Int.ceil_mono (binary64_monotone
    (div_le_div_of_nonneg_right hle hcapacity.le))

theorem rawReplicas_bounds (capacityRPM peakRPM : ℚ) :
    0 ≤ rawReplicas capacityRPM peakRPM ∧
      rawReplicas capacityRPM peakRPM ≤ maxInt32 :=
  ⟨boundedReplicas_nonneg _, boundedReplicas_le _⟩

theorem dampenedReplicas_mono {minReplicas raw raw' : ℤ} (confidence : ℚ)
    (hle : raw ≤ raw') :
    dampenedReplicas minReplicas confidence raw ≤
      dampenedReplicas minReplicas confidence raw' := by
  unfold dampenedReplicas
  split_ifs with hunsure
  · have hcast : ((raw - minReplicas : ℤ) : ℚ) ≤ (raw' - minReplicas : ℤ) := by
      exact_mod_cast sub_le_sub_right hle minReplicas
    have hproduct := binary64_monotone
      (mul_le_mul_of_nonneg_left hcast hunsure.2.le)
    refine boundedReplicas_mono ?_
    exact_mod_cast Int.ceil_mono
      (binary64_monotone (add_le_add_right hproduct (minReplicas : ℚ)))
  · exact hle

/-- Damping lowers a count that is at least the minimum. -/
theorem dampenedReplicas_le {minReplicas raw : ℤ} (confidence : ℚ)
    (hmin : 0 ≤ minReplicas) (hraw : minReplicas ≤ raw)
    (hmax : raw ≤ maxInt32) :
    dampenedReplicas minReplicas confidence raw ≤ raw := by
  have hbits : maxInt32 < 2 ^ 53 := by decide
  have hraw' : binary64 raw = raw :=
    binary64_intCast (by rw [abs_of_nonneg (hmin.trans hraw)]; omega)
  have hspan : binary64 ((raw - minReplicas : ℤ) : ℚ) =
      ((raw - minReplicas : ℤ) : ℚ) :=
    binary64_intCast (by rw [abs_of_nonneg (by omega)]; omega)
  unfold dampenedReplicas
  split_ifs with hunsure
  · have hseven : binary64 (7 / 10) ≤ 1 := by
      have hone : binary64 1 = 1 := by
        exact_mod_cast binary64_intCast (n := 1) (by norm_num)
      exact (binary64_monotone (by norm_num)).trans_eq hone
    have hnonneg : (0 : ℚ) ≤ ((raw - minReplicas : ℤ) : ℚ) := by
      exact_mod_cast sub_nonneg.mpr hraw
    have hproduct : binary64 (confidence * ((raw - minReplicas : ℤ) : ℚ)) ≤
        ((raw - minReplicas : ℤ) : ℚ) := by
      conv_rhs => rw [← hspan]
      exact binary64_monotone
        (mul_le_of_le_one_left hnonneg (hunsure.1.le.trans hseven))
    have hsum : binary64 (minReplicas + binary64
        (confidence * ((raw - minReplicas : ℤ) : ℚ))) ≤ raw := by
      rw [← hraw']
      refine binary64_monotone ?_
      have hsplit : (raw : ℚ) =
          minReplicas + ((raw - minReplicas : ℤ) : ℚ) := by
        push_cast
        ring
      rw [hsplit]
      exact add_le_add_right hproduct _
    have hceil : ⌈binary64 (minReplicas + binary64
        (confidence * ((raw - minReplicas : ℤ) : ℚ)))⌉ ≤ raw :=
      Int.ceil_le.mpr hsum
    calc boundedReplicas (⌈binary64 (minReplicas + binary64
          (confidence * ((raw - minReplicas : ℤ) : ℚ)))⌉ : ℤ)
        ≤ boundedReplicas (raw : ℤ) :=
          boundedReplicas_mono (by exact_mod_cast hceil)
      _ = raw := by
          rw [boundedReplicas_eq, Int.floor_intCast]
          omega
  · exact le_rfl

theorem convertWindow_count {minReplicas maxReplicas : ℤ}
    (hbounds : minReplicas ≤ maxReplicas) (capacityRPM confidence : ℚ)
    (window : List ℚ) :
    (convertWindow minReplicas maxReplicas capacityRPM confidence window).1 =
      min (max (dampenedReplicas minReplicas confidence
        (rawReplicas capacityRPM (peakOf window))) minReplicas) maxReplicas :=
  clampReplicas_eq hbounds _

theorem convertWindow_mono {minReplicas maxReplicas : ℤ}
    (hbounds : minReplicas ≤ maxReplicas) {capacityRPM : ℚ}
    (hcapacity : 0 < capacityRPM) (confidence : ℚ) {window window' : List ℚ}
    (hle : List.Forall₂ (· ≤ ·) window window') :
    (convertWindow minReplicas maxReplicas capacityRPM confidence window).1 ≤
      (convertWindow minReplicas maxReplicas capacityRPM confidence
        window').1 := by
  have hraw := rawReplicas_mono hcapacity (peakOf_mono hle)
  have hdamped := @dampenedReplicas_mono minReplicas _ _ confidence hraw
  rw [convertWindow_count hbounds, convertWindow_count hbounds]
  omega

/-- The steps of a forecast whose `i`-th target is `target i`. -/
def stepsOf (target : ℕ → ℤ) (predictions : List ℚ) : List (ℤ × ℚ) :=
  predictions.zipIdx.map fun q => (target q.2, q.1)

section StepsOf

variable {target : ℕ → ℤ} {predictions : List ℚ} {now leadEnd : ℤ}

theorem mem_stepsOf {q : ℤ × ℚ} :
    q ∈ stepsOf target predictions ↔
      ∃ i, predictions[i]? = some q.2 ∧ target i = q.1 := by
  rw [stepsOf, List.mem_map]
  constructor
  · rintro ⟨⟨v, i⟩, hmem, rfl⟩
    exact ⟨i, List.mem_zipIdx_iff_getElem?.mp hmem, rfl⟩
  · rintro ⟨i, hget, htarget⟩
    refine ⟨(q.2, i), List.mem_zipIdx_iff_getElem?.mpr hget, ?_⟩
    rw [htarget]

/-- The peak of a lead time, by the targets of the steps: the maximum inside
it, or the first step ahead when no target lies inside. -/
def IsLeadPeak (target : ℕ → ℤ) (predictions : List ℚ) (now leadEnd : ℤ)
    (peak : ℚ) : Prop :=
  IsGreatest {v | ∃ i, predictions[i]? = some v ∧ now < target i ∧
    target i ≤ leadEnd} peak ∨
  (∀ i < predictions.length, ¬(now < target i ∧ target i ≤ leadEnd)) ∧
    ∃ i, predictions[i]? = some peak ∧ now < target i ∧
      ∀ j < i, target j ≤ now

theorem mem_insideLead {v : ℚ} :
    v ∈ insideLead (stepsOf target predictions) now leadEnd ↔
      ∃ i, predictions[i]? = some v ∧ now < target i ∧ target i ≤ leadEnd := by
  simp only [insideLead, List.mem_map, List.mem_filter, mem_stepsOf,
    decide_eq_true_eq, Prod.exists, exists_eq_right]
  constructor
  · rintro ⟨t, ⟨i, hget, rfl⟩, hinside⟩
    exact ⟨i, hget, hinside⟩
  · rintro ⟨i, hget, hinside⟩
    exact ⟨target i, ⟨i, hget, rfl⟩, hinside⟩

theorem firstAhead_eq_some {v : ℚ}
    (h : firstAhead (stepsOf target predictions) now = some v) :
    ∃ i, predictions[i]? = some v ∧ now < target i ∧
      ∀ j < i, target j ≤ now := by
  obtain ⟨q, hfind, rfl⟩ := Option.map_eq_some_iff.mp h
  obtain ⟨hq, i, hi, hget, hbefore⟩ :=
    List.find?_eq_some_iff_getElem.mp hfind
  have hlength : i < predictions.length := by simpa [stepsOf] using hi
  have hstep : ∀ j (hj : j < (stepsOf target predictions).length),
      ((stepsOf target predictions)[j]).1 = target j := by
    intro j hj
    simp [stepsOf]
  refine ⟨i, ?_, ?_, fun j hj => ?_⟩
  · rw [← hget, List.getElem?_eq_getElem hlength]
    simp [stepsOf]
  · rw [← hget, hstep i hi] at hq
    simpa using hq
  · have hnot := hbefore j hj
    rw [hstep j (hj.trans hi)] at hnot
    simpa using hnot

theorem isLeadPeak_of_selectSteps {window : List ℚ}
    (h : selectSteps (stepsOf target predictions) now leadEnd = some window) :
    IsLeadPeak target predictions now leadEnd (peakOf window) := by
  rcases selectSteps_eq_some h with ⟨hinside, hne⟩ | ⟨hnone, first, hfirst, heq⟩
  · left
    have hgreatest := peakOf_isGreatest hne
    have hset : {v | v ∈ window} = {v | ∃ i, predictions[i]? = some v ∧
        now < target i ∧ target i ≤ leadEnd} := by
      ext v
      rw [hinside]
      exact mem_insideLead
    rwa [hset] at hgreatest
  · right
    rw [heq]
    refine ⟨fun i hi hinside => ?_, firstAhead_eq_some hfirst⟩
    have hmem : predictions[i] ∈
        insideLead (stepsOf target predictions) now leadEnd :=
      mem_insideLead.mpr ⟨i, List.getElem?_eq_getElem hi, hinside⟩
    rw [hnone] at hmem
    cases hmem

/-- Under ascending targets the last one decides the coverage. -/
theorem selectSteps_stepsOf_isSome (hmono : Monotone target)
    (hne : predictions ≠ []) :
    (selectSteps (stepsOf target predictions) now leadEnd).isSome ↔
      (∃ i < predictions.length, now < target i) ∧
        leadEnd ≤ target (predictions.length - 1) := by
  have hlast : predictions.length - 1 < predictions.length := by
    have := List.length_pos_iff.mpr hne
    omega
  rw [selectSteps_isSome]
  constructor
  · rintro ⟨q, hq, hnow, hend⟩
    obtain ⟨i, hget, htarget⟩ := mem_stepsOf.mp hq
    have hi : i < predictions.length := List.getElem?_eq_some_iff.mp hget |>.1
    refine ⟨⟨i, hi, htarget ▸ hnow⟩, ?_⟩
    rw [← htarget] at hend
    exact hend.trans (hmono (by omega))
  · rintro ⟨⟨i, hi, hnow⟩, hend⟩
    exact ⟨(target (predictions.length - 1),
        predictions[predictions.length - 1]),
      mem_stepsOf.mpr ⟨_, List.getElem?_eq_getElem hlast, rfl⟩,
      hnow.trans_le (hmono (by omega)), hend⟩

end StepsOf

/-- Steps with the same targets and no smaller values. -/
abbrev Grows : List (ℤ × ℚ) → List (ℤ × ℚ) → Prop :=
  List.Forall₂ fun q q' => q.1 = q'.1 ∧ q.2 ≤ q'.2

theorem Grows.insideLead {steps steps' : List (ℤ × ℚ)} (now leadEnd : ℤ)
    (h : Grows steps steps') :
    List.Forall₂ (· ≤ ·) (insideLead steps now leadEnd)
      (PredictiveAutoscaler.insideLead steps' now leadEnd) := by
  induction h with
  | nil => exact .nil
  | @cons q q' rest rest' hq _ ih =>
      obtain ⟨htarget, hvalue⟩ := hq
      unfold PredictiveAutoscaler.insideLead at ih ⊢
      by_cases hinside : now < q.1 ∧ q.1 ≤ leadEnd
      · have hinside' : now < q'.1 ∧ q'.1 ≤ leadEnd := htarget ▸ hinside
        rw [List.filter_cons_of_pos (by simpa using hinside),
          List.filter_cons_of_pos (by simpa using hinside')]
        exact .cons hvalue ih
      · have hinside' : ¬(now < q'.1 ∧ q'.1 ≤ leadEnd) := htarget ▸ hinside
        rw [List.filter_cons_of_neg (by simpa using hinside),
          List.filter_cons_of_neg (by simpa using hinside')]
        exact ih

theorem Grows.firstAhead {steps steps' : List (ℤ × ℚ)} {now : ℤ} {v v' : ℚ}
    (h : Grows steps steps') (hv : firstAhead steps now = some v)
    (hv' : PredictiveAutoscaler.firstAhead steps' now = some v') : v ≤ v' := by
  induction h with
  | nil => cases hv
  | @cons q q' rest rest' hq _ ih =>
      obtain ⟨htarget, hvalue⟩ := hq
      unfold PredictiveAutoscaler.firstAhead at ih hv hv'
      by_cases hahead : now < q.1
      · have hahead' : now < q'.1 := htarget ▸ hahead
        rw [List.find?_cons_of_pos (by simpa using hahead)] at hv
        rw [List.find?_cons_of_pos (by simpa using hahead')] at hv'
        cases hv
        cases hv'
        exact hvalue
      · have hahead' : ¬now < q'.1 := htarget ▸ hahead
        rw [List.find?_cons_of_neg (by simpa using hahead)] at hv
        rw [List.find?_cons_of_neg (by simpa using hahead')] at hv'
        exact ih hv hv'

theorem Grows.isSome {steps steps' : List (ℤ × ℚ)} {now leadEnd : ℤ}
    (h : Grows steps steps') (hsome : (selectSteps steps now leadEnd).isSome) :
    (selectSteps steps' now leadEnd).isSome := by
  rw [selectSteps_isSome] at hsome ⊢
  obtain ⟨q, hq, hreach⟩ := hsome
  obtain ⟨i, hi, rfl⟩ := List.mem_iff_getElem.mp hq
  have hi' : i < steps'.length := h.length_eq ▸ hi
  exact ⟨steps'[i], List.getElem_mem hi', (h.get hi hi').1 ▸ hreach⟩

/-- Growing values select a window with growing values. -/
theorem Grows.selectSteps {steps steps' : List (ℤ × ℚ)} {now leadEnd : ℤ}
    {window : List ℚ} (h : Grows steps steps')
    (hselect : selectSteps steps now leadEnd = some window) :
    ∃ window', PredictiveAutoscaler.selectSteps steps' now leadEnd =
      some window' ∧ List.Forall₂ (· ≤ ·) window window' := by
  obtain ⟨window', hselect'⟩ := Option.isSome_iff_exists.mp
    (h.isSome (Option.isSome_of_eq_some hselect))
  refine ⟨window', hselect', ?_⟩
  have hinside := h.insideLead now leadEnd
  have hlength := hinside.length_eq
  rcases selectSteps_eq_some hselect with ⟨rfl, hne⟩ | ⟨hnil, v, hv, rfl⟩
  · rcases selectSteps_eq_some hselect' with ⟨rfl, -⟩ | ⟨hnil', -⟩
    · exact hinside
    · rw [hnil', List.length_nil] at hlength
      exact absurd (List.length_eq_zero_iff.mp hlength) hne
  · rcases selectSteps_eq_some hselect' with ⟨rfl, hne'⟩ | ⟨-, v', hv', rfl⟩
    · rw [hnil, List.length_nil] at hlength
      exact absurd (List.length_eq_zero_iff.mp hlength.symm) hne'
    · exact .cons (h.firstAhead hv hv') .nil

theorem grows_stepsOf (target : ℕ → ℤ) {predictions predictions' : List ℚ}
    (hle : List.Forall₂ (· ≤ ·) predictions predictions') :
    Grows (stepsOf target predictions) (stepsOf target predictions') := by
  rw [Grows, List.forall₂_iff_get]
  have hlength := hle.length_eq
  refine ⟨by simp [stepsOf, hlength], fun i hi hi' => ?_⟩
  simp only [stepsOf, List.length_map, List.length_zipIdx] at hi hi'
  simpa [stepsOf] using hle.get hi hi'

end PredictiveAutoscaler
