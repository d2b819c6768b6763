/-
The input window of a forecast: the last slots up to the newest observation,
completed by the gap rule.  The share of filled slots is that of the whole
contiguous run up to the newest observation, with every admitted gap filled; a
window that needs no fill is accepted in any case.
-/
import PredictiveAutoscaler.Training.GapRule

namespace PredictiveAutoscaler.GapFill

open MaximalRuns

/-- The rule of `check_inference_window`: the defaults of the fill. -/
def inferenceRule (grid : ℤ) (hgrid : 0 < grid) : FillRule :=
  defaultRule grid hgrid

inductive WindowError
  | noObservations
  | stale (last age maxAge : ℤ)
  | offGrid
  | tooShort (slots need : ℕ)
  | imputedEndpoint
deriving DecidableEq, Repr

/-- `xs[-n:]`. -/
def lastSlots {A : Type} (n : ℕ) (xs : List A) : List A :=
  if n = 0 then xs else xs.drop (xs.length - n)

namespace FillRule

variable (rule : FillRule)

/-- The window and its flags, or why there is none. -/
def checkWindow (points : List Sample) (now : ℤ) (sequenceLength : ℕ)
    (maxAge : ℤ) (forbidden : List (ℤ × ℤ)) :
    Except WindowError (List Sample × List Bool) :=
  match (sorted points).getLast? with
  | none => throw .noObservations
  | some newest =>
      let last := newest.time
      if maxAge < now - last then throw (.stale last (now - last) maxAge)
      else
        let r := rule.fillInteriorGaps (sorted points) (some last) [] forbidden
          (some last)
        if r.run.getLast?.map Sample.time ≠ some last then throw .offGrid
        else if r.run.length < sequenceLength then
          throw (.tooShort r.run.length sequenceLength)
        else
          let window := lastSlots sequenceLength r.run
          let flags := lastSlots sequenceLength r.flags
          if flags.getLast? = some true then throw .imputedEndpoint
          else return (window, flags)

end FillRule

/-- `check_inference_window`. -/
def checkInferenceWindow (points : List Sample) (now : ℤ)
    (sequenceLength : ℕ) (grid : ℤ) (hgrid : 0 < grid) (maxAge : ℤ)
    (forbidden : List (ℤ × ℤ)) : Except WindowError (List Sample × List Bool) :=
  (inferenceRule grid hgrid).checkWindow points now sequenceLength maxAge
    forbidden

namespace FillRule

section Slots

variable (rule : FillRule)

/-- The last slots up to an instant, oldest first. -/
def slotsUpTo (last : ℤ) (n : ℕ) : List ℤ :=
  (List.range n).reverse.map fun k : ℕ => last - k * rule.grid

variable {rule}

theorem slotsUpTo_succ (last : ℤ) (n : ℕ) : rule.slotsUpTo last (n + 1) =
    (last - n * rule.grid) :: rule.slotsUpTo last n := by
  simp [slotsUpTo, List.range_succ]

theorem mem_slotsUpTo {last t : ℤ} {n : ℕ} : t ∈ rule.slotsUpTo last n ↔
    ∃ k < n, t = last - k * rule.grid := by
  simp only [slotsUpTo, List.mem_map, List.mem_reverse, List.mem_range,
    eq_comm (b := t)]

theorem slotsUpTo_drop (last : ℤ) {n m : ℕ} (h : n ≤ m) :
    (rule.slotsUpTo last m).drop (m - n) = rule.slotsUpTo last n := by
  induction m with
  | zero => rw [Nat.le_zero.mp h, Nat.sub_self, List.drop_zero]
  | succ m ih =>
      rcases Nat.le_succ_iff.mp h with h | rfl
      · rw [slotsUpTo_succ, Nat.succ_sub h, List.drop_succ_cons]
        exact ih h
      · rw [Nat.sub_self, List.drop_zero]

/-- The instants of a contiguous run are the slots up to its end. -/
theorem times_of_chain {run : List Sample} {p : Sample}
    (hchain : run.IsChain rule.Next) (hlast : run.getLast? = some p) :
    run.map Sample.time = rule.slotsUpTo p.time run.length := by
  induction run with
  | nil => cases hlast
  | cons x run ih =>
      cases run with
      | nil =>
          obtain rfl : x = p := by simpa using hlast
          simp [slotsUpTo]
      | cons y run =>
          obtain ⟨hnext, hrest⟩ := List.isChain_cons_cons.mp hchain
          rw [List.getLast?_cons_cons] at hlast
          have htimes := ih hrest hlast
          rw [List.map_cons, List.length_cons, slotsUpTo_succ] at htimes
          obtain ⟨hy, -⟩ := List.cons.inj htimes
          have hx : x.time = p.time - (run.length + 1 : ℕ) * rule.grid := by
            unfold Next at hnext
            push_cast
            linarith
          change x.time :: (y :: run).map Sample.time =
            rule.slotsUpTo p.time (run.length + 1 + 1)
          rw [ih hrest hlast, slotsUpTo_succ, hx]
          rfl

/-- A series of samples in order, whole steps apart, up to an instant. -/
structure Series (rule : FillRule) (last : ℤ) (series : List Sample) :
    Prop where
  sorted : series.Pairwise fun p q => p.time < q.time
  aligned : ∀ p ∈ series, rule.grid ∣ last - p.time
  ends : series.getLast?.map Sample.time = some last

/-- The run that ends a series reaches back to the first missing slot. -/
theorem Series.trailing {last : ℤ} {series : List Sample}
    (h : rule.Series last series) :
    (trailingRun rule.Next series).map Sample.time =
        rule.slotsUpTo last (trailingRun rule.Next series).length ∧
      ∀ p ∈ series, p.time ≠
        last - (trailingRun rule.Next series).length * rule.grid := by
  obtain ⟨before, heq, hchain, hleft, -⟩ := trailingRun_splits rule.Next series
  set run := trailingRun rule.Next series with hrun
  rw [List.append_nil] at heq
  obtain ⟨newest, hnewest, rfl⟩ := Option.map_eq_some_iff.mp h.ends
  have hlast : run.getLast? = some newest := by
    rw [hrun, trailingRun_getLast?, hnewest]
  have htimes := times_of_chain hchain hlast
  refine ⟨htimes, ?_⟩
  intro p hp hstart
  rw [heq] at hp
  rcases List.mem_append.mp hp with hp | hp
  · -- The sample before the run is at least as late, yet whole steps away.
    cases hcons : run with
    | nil =>
        rw [hcons] at hlast
        cases hlast
    | cons first rest =>
        have hfirst : first.time = newest.time - rest.length * rule.grid := by
          rw [hcons, List.map_cons, List.length_cons, slotsUpTo_succ] at htimes
          exact (List.cons.inj htimes).1
        obtain ⟨q, hq⟩ : ∃ q, before.getLast? = some q :=
          ⟨_, List.getLast?_eq_some_getLast (List.ne_nil_of_mem hp)⟩
        obtain ⟨front, rfl⟩ := List.getLast?_eq_some_iff.mp hq
        have hsorted := h.sorted
        rw [heq, List.pairwise_append, List.pairwise_append] at hsorted
        have hqfirst := hsorted.2.2 q (by simp) first (by simp [hcons])
        have hpq : p.time ≤ q.time := by
          rcases List.mem_append.mp hp with hp | hp
          · exact (hsorted.1.2.2 p hp q List.mem_cons_self).le
          · rw [List.mem_singleton.mp hp]
        have hqmem : q ∈ series := by
          rw [heq]
          simp
        rw [hcons, List.length_cons] at hstart
        push_cast at hstart
        obtain ⟨k, hk⟩ := h.aligned q hqmem
        have hgrid := rule.grid_pos
        have hqnext : q.time = first.time - rule.grid := by
          have hlow : (rest.length : ℤ) < k := by
            refine lt_of_mul_lt_mul_left ?_ hgrid.le
            linarith
          have hhigh : rule.grid * k ≤ rule.grid * (rest.length + 1) := by
            linarith
          have hk' : k = rest.length + 1 :=
            le_antisymm (le_of_mul_le_mul_left hhigh hgrid) hlow
          rw [hk'] at hk
          linarith
        refine hleft q hq first (by rw [hcons]; rfl) ?_
        unfold Next
        linarith
  · have hslot : p.time ∈ rule.slotsUpTo newest.time run.length :=
      htimes ▸ List.mem_map_of_mem hp
    obtain ⟨k, hk, hslot⟩ := mem_slotsUpTo.mp hslot
    have hlt : (k : ℤ) * rule.grid < run.length * rule.grid :=
      mul_lt_mul_of_pos_right (by exact_mod_cast hk) rule.grid_pos
    omega

end Slots

section Gaps

variable {rule : FillRule} {cutoff : Option ℤ} {boundaries : List ℤ}
  {forbidden : List (ℤ × ℤ)}

theorem Admits.of_mem_iff {points points' : List Sample} {g : Gap}
    (h : rule.Admits cutoff boundaries forbidden points g)
    (hmem : ∀ p, p ∈ points ↔ p ∈ points') :
    rule.Admits cutoff boundaries forbidden points' g :=
  { h with
    left_mem := (hmem _).mp h.left_mem
    right_mem := (hmem _).mp h.right_mem
    between := fun o ho => h.between o ((hmem o).mpr ho) }

theorem Admits.considerGap {points : List Sample} {g : Gap}
    (h : rule.Admits cutoff boundaries forbidden points g)
    (hmissing : 1 ≤ g.missing) :
    rule.considerGap cutoff boundaries forbidden g.left g.right =
      some ⟨g.left, g.right, g.missing, true, none⟩ := by
  have hgrid := rule.grid_pos
  have hlong : ¬g.right.time - g.left.time ≤ rule.grid := by
    rw [h.apart, not_le]
    exact lt_mul_of_one_lt_left hgrid (by omega)
  have hwhole : ¬(g.right.time - g.left.time) % rule.grid ≠ 0 := by
    rw [h.apart, Int.mul_emod_left, ne_eq, not_not]
  have hslots : (g.right.time - g.left.time) / rule.grid - 1 = g.missing := by
    rw [h.apart, Int.mul_ediv_cancel _ hgrid.ne', add_sub_cancel_right]
  have hcutoff : ¬cutoff.any (· < g.right.time) = true := by
    rw [Option.any_eq_true]
    rintro ⟨t, ht, hlt⟩
    exact not_lt.mpr (h.by_cutoff t (Option.mem_def.mpr ht))
      (of_decide_eq_true hlt)
  have hmask : ¬(forbidden.any fun i =>
      decide (i.1 ≤ g.right.time - rule.grid) &&
        decide (g.left.time + rule.grid ≤ i.2)) = true := by
    rw [List.any_eq_true]
    rintro ⟨i, hi, hoverlap⟩
    simp only [Bool.and_eq_true, decide_eq_true_eq] at hoverlap
    exact h.unmasked i hi hoverlap
  unfold FillRule.considerGap
  rw [if_neg hlong]
  dsimp only
  rw [hslots, if_neg hwhole, if_neg (not_lt.mpr h.short), if_neg hcutoff,
    if_neg fun hcross => hcross.2 h.one_partition, if_neg hmask]

/-- A gap that the rule admits is one of the gaps that are considered. -/
theorem Admits.mem_considerGaps {points : List Sample} {g : Gap}
    (hsorted : points.Pairwise fun p q => p.time < q.time)
    (h : rule.Admits cutoff boundaries forbidden points g)
    (hmissing : 1 ≤ g.missing) :
    (⟨g.left, g.right, g.missing, true, none⟩ : Gap) ∈
      rule.considerGaps cutoff boundaries forbidden points := by
  have hlt : g.left.time < g.right.time := by
    have hpos : 0 < (g.missing + 1) * rule.grid :=
      mul_pos (by omega) rule.grid_pos
    have hapart := h.apart
    omega
  induction points with
  | nil => exact nomatch h.left_mem
  | cons p rest ih =>
      obtain ⟨hp, hrest⟩ := List.pairwise_cons.mp hsorted
      have hright : g.right ∈ rest := by
        rcases List.mem_cons.mp h.right_mem with heq | hmem
        · rcases List.mem_cons.mp h.left_mem with heq' | hmem'
          · rw [heq, heq'] at hlt
            exact absurd hlt (lt_irrefl _)
          · have hafter := hp _ hmem'
            rw [← heq] at hafter
            omega
        · exact hmem
      cases rest with
      | nil => exact nomatch hright
      | cons q rest =>
          rw [considerGaps, List.mem_append, Option.mem_toList]
          rcases List.mem_cons.mp h.left_mem with heq | hleft
          · -- The endpoints are the first two observations.
            left
            have hq : g.right = q := by
              rcases List.mem_cons.mp hright with hq | hmem
              · exact hq
              · have hfirst := (List.pairwise_cons.mp hrest).1 _ hmem
                have hpq := hp q List.mem_cons_self
                rw [← heq] at hpq
                rcases h.between q (by simp) with hle | hle <;> omega
            rw [← heq, ← hq]
            exact h.considerGap hmissing
          · right
            exact ih hrest { h with
              left_mem := hleft
              right_mem := hright
              between := fun o ho =>
                h.between o (List.mem_cons_of_mem p ho) }

/-- Gaps one after the other. -/
def InOrder (gaps : List Gap) : Prop :=
  gaps.Pairwise fun g g' => g.right.time ≤ g'.left.time

theorem considerGaps_inOrder {points : List Sample}
    (hsorted : points.Pairwise fun p q => p.time < q.time) :
    InOrder (rule.considerGaps cutoff boundaries forbidden points) ∧
      ∀ g ∈ rule.considerGaps cutoff boundaries forbidden points,
        g.left ∈ points := by
  induction points with
  | nil => exact ⟨.nil, fun g hg => nomatch hg⟩
  | cons p rest ih =>
      cases rest with
      | nil => exact ⟨.nil, fun g hg => nomatch hg⟩
      | cons q rest =>
          obtain ⟨hp, hrest⟩ := List.pairwise_cons.mp hsorted
          obtain ⟨horder, hleft⟩ := ih hrest
          have hends : ∀ g ∈ (rule.considerGap cutoff boundaries forbidden
              p q).toList, g.left = p ∧ g.right = q := by
            intro g hg
            rw [Option.mem_toList] at hg
            unfold FillRule.considerGap at hg
            dsimp only at hg
            split_ifs at hg <;> cases hg <;> exact ⟨rfl, rfl⟩
          rw [considerGaps]
          constructor
          · refine List.pairwise_append.mpr ⟨?_, horder, ?_⟩
            · cases rule.considerGap cutoff boundaries forbidden p q with
              | none => exact .nil
              | some g => exact List.pairwise_singleton _ g
            · intro g hg g' hg'
              rw [(hends g hg).2]
              rcases List.mem_cons.mp (hleft g' hg') with heq | hmem
              · rw [heq]
              · exact ((List.pairwise_cons.mp hrest).1 _ hmem).le
          · intro g hg
            rcases List.mem_append.mp hg with hg | hg
            · rw [(hends g hg).1]
              exact List.mem_cons_self
            · exact List.mem_cons_of_mem p (hleft g hg)

/-- Taking a gap back changes no endpoint. -/
theorem removeGap_left {t : ℤ} {gaps : List Gap} {g' : Gap}
    (h : g' ∈ rule.removeGap t gaps) : ∃ g ∈ gaps, g'.left = g.left := by
  induction gaps with
  | nil => cases h
  | cons g gaps ih =>
      unfold removeGap at h
      split at h
      · rcases List.mem_cons.mp h with rfl | h
        · exact ⟨g, List.mem_cons_self, rfl⟩
        · exact ⟨g', List.mem_cons_of_mem g h, rfl⟩
      · rcases List.mem_cons.mp h with rfl | h
        · exact ⟨g', List.mem_cons_self, rfl⟩
        · obtain ⟨x, hx, heq⟩ := ih h
          exact ⟨x, List.mem_cons_of_mem g hx, heq⟩

theorem removeGap_inOrder {t : ℤ} {gaps : List Gap} (h : InOrder gaps) :
    InOrder (rule.removeGap t gaps) := by
  induction gaps with
  | nil => exact .nil
  | cons g gaps ih =>
      obtain ⟨hhead, htail⟩ := List.pairwise_cons.mp h
      unfold removeGap
      split
      · exact List.pairwise_cons.mpr ⟨hhead, htail⟩
      · refine List.pairwise_cons.mpr ⟨fun g' hg' => ?_, ih htail⟩
        obtain ⟨x, hx, hleft⟩ := removeGap_left hg'
        rw [hleft]
        exact hhead x hx

section Filled

variable {points : List Sample} {gaps : List Gap}

/-- The filled gaps are admitted, one after the other. -/
structure Fillable (rule : FillRule) (cutoff : Option ℤ)
    (boundaries : List ℤ) (forbidden : List (ℤ × ℤ)) (points : List Sample)
    (gaps : List Gap) : Prop where
  inOrder : InOrder gaps
  admits : ∀ g ∈ gaps, g.filled = true →
    rule.Admits cutoff boundaries forbidden points g

theorem Fillable.removeGap
    (h : rule.Fillable cutoff boundaries forbidden points gaps) (t : ℤ) :
    rule.Fillable cutoff boundaries forbidden points (rule.removeGap t gaps) :=
  ⟨removeGap_inOrder h.inOrder,
    fun g hg hfilled => h.admits g (mem_removeGap hg hfilled) hfilled⟩

/-- The slot of a gap that is taken back is filled no more. -/
theorem Fillable.not_isFilled
    (h : rule.Fillable cutoff boundaries forbidden points gaps) {x : Sample} :
    ¬rule.IsFilled (rule.removeGap x.time gaps) x := by
  rw [isFilled_iff]
  rintro ⟨g, hg, hfilled, hslot⟩
  obtain ⟨horder, hadmits⟩ := h
  induction gaps with
  | nil => cases hg
  | cons y gaps ih =>
      obtain ⟨hhead, htail⟩ := List.pairwise_cons.mp horder
      have hgap := hadmits g (mem_removeGap hg hfilled) hfilled
      unfold FillRule.removeGap at hg
      split at hg
      · rename_i hy
        rcases List.mem_cons.mp hg with rfl | hg
        · cases hfilled
        · have hgrid := rule.grid_pos
          have hbefore := (hadmits y List.mem_cons_self hy.1).slot hy.2
          have hafter := hgap.slot hslot
          have hleft := hhead g hg
          omega
      · rename_i hy
        rcases List.mem_cons.mp hg with rfl | hg
        · exact hy ⟨hfilled, hslot⟩
        · exact ih hg htail fun g hg => hadmits g (List.mem_cons_of_mem y hg)

/-- The filled slots are in order. -/
theorem Fillable.fills_sorted
    (h : rule.Fillable cutoff boundaries forbidden points gaps) :
    (rule.fills gaps).Pairwise fun p q => p.time < q.time := by
  have hgrid := rule.grid_pos
  rw [fills, List.pairwise_flatMap]
  constructor
  · intro g hg
    rw [values, List.pairwise_map]
    refine List.pairwise_lt_range.imp fun {j k} hjk => ?_
    have hlt : ((j : ℤ) + 1) * rule.grid < (k + 1) * rule.grid :=
      mul_lt_mul_of_pos_right (by omega) hgrid
    dsimp only
    omega
  · have hfilled : (gaps.filter (·.filled)).Pairwise fun g g' =>
        g.filled = true ∧ g ∈ gaps ∧ g'.filled = true ∧ g' ∈ gaps ∧
          g.right.time ≤ g'.left.time := by
      refine (h.inOrder.filter _).imp_of_mem fun {g g'} hg hg' horder => ?_
      rw [List.mem_filter] at hg hg'
      exact ⟨hg.2, hg.1, hg'.2, hg'.1, horder⟩
    refine hfilled.imp fun {g g'} hgaps x hx y hy => ?_
    obtain ⟨hg, hmem, hg', hmem', horder⟩ := hgaps
    have hleft := (h.admits g hmem hg).slot (time_mem_slots hx)
    have hright := (h.admits g' hmem' hg').slot (time_mem_slots hy)
    omega

/-- The series of the observations and the filled slots. -/
theorem Fillable.series {last : ℤ}
    (h : rule.Fillable cutoff boundaries forbidden points gaps)
    (hdistinct : (points.map Sample.time).Nodup)
    (haligned : ∀ p ∈ points, rule.grid ∣ last - p.time)
    (hlatest : ∀ p ∈ points, p.time ≤ last)
    (hlast : ∃ p ∈ points, p.time = last) :
    rule.Series last (rule.merged points gaps) := by
  have hfills : ((rule.fills gaps).map Sample.time).Nodup :=
    List.pairwise_map.mpr (h.fills_sorted.imp fun hlt => hlt.ne)
  have hall : ((points ++ rule.fills gaps).map Sample.time).Nodup := by
    rw [List.map_append]
    refine List.nodup_append.mpr ⟨hdistinct, hfills, ?_⟩
    intro t ht t' ht' heq
    obtain ⟨p, hp, rfl⟩ := List.mem_map.mp ht
    obtain ⟨x, hx, rfl⟩ := List.mem_map.mp ht'
    obtain ⟨g, hg, hfilled, hvalue⟩ := mem_fills.mp hx
    exact ((h.admits g hg hfilled).slot (time_mem_slots hvalue)).2.2 p hp heq
  have hsorted : (rule.merged points gaps).Pairwise fun p q =>
      p.time < q.time := sorted_pairwise hall
  have hupTo : ∀ x ∈ rule.merged points gaps,
      x.time ≤ last ∧ rule.grid ∣ last - x.time := by
    intro x hx
    rcases merged_mem.mp hx with hx | hx
    · exact ⟨hlatest x hx, haligned x hx⟩
    · obtain ⟨g, hg, hfilled, hvalue⟩ := mem_fills.mp hx
      have hgap := h.admits g hg hfilled
      have hgrid := rule.grid_pos
      obtain ⟨-, hright, -⟩ := hgap.slot (time_mem_slots hvalue)
      refine ⟨?_, ?_⟩
      · have hle := hlatest _ hgap.right_mem
        omega
      · obtain ⟨k, -, htime⟩ := mem_slots.mp (time_mem_slots hvalue)
        have hleft := haligned _ hgap.left_mem
        rw [htime, sub_add_eq_sub_sub]
        exact dvd_sub hleft (dvd_mul_left _ _)
  refine ⟨hsorted, fun x hx => (hupTo x hx).2, ?_⟩
  obtain ⟨p, hp, rfl⟩ := hlast
  have hmem : p ∈ rule.merged points gaps := merged_mem.mpr (.inl hp)
  obtain ⟨newest, hnewest⟩ : ∃ newest,
      (rule.merged points gaps).getLast? = some newest :=
    ⟨_, List.getLast?_eq_some_getLast (List.ne_nil_of_mem hmem)⟩
  rw [hnewest]
  have hle := (hupTo newest (List.mem_of_getLast? hnewest)).1
  obtain ⟨front, hfront⟩ := List.getLast?_eq_some_iff.mp hnewest
  rw [hfront] at hmem hsorted
  rcases List.mem_append.mp hmem with hmem | hmem
  · have hlt := (List.pairwise_append.mp hsorted).2.2 p hmem newest
      List.mem_cons_self
    omega
  · rw [List.mem_singleton.mp hmem]
    rfl

end Filled

end Gaps

section Window

/-- A slot is observed or in a gap that the rule admits. -/
def Covers (rule : FillRule) (points : List Sample) (forbidden : List (ℤ × ℤ))
    (last t : ℤ) : Prop :=
  (∃ p ∈ points, p.time = t) ∨
    ∃ g, rule.Admits (some last) [] forbidden points g ∧ t ∈ rule.slots g

/-- The number of slots back to the first one that stays missing. -/
def Reaches (rule : FillRule) (points : List Sample) (forbidden : List (ℤ × ℤ))
    (last : ℤ) (m : ℕ) : Prop :=
  (∀ k < m, rule.Covers points forbidden last (last - k * rule.grid)) ∧
    ¬rule.Covers points forbidden last (last - m * rule.grid)

/-- The last slots that are not observed. -/
def missingSlots (rule : FillRule) (points : List Sample) (last : ℤ)
    (n : ℕ) : ℕ :=
  (rule.slotsUpTo last n).countP fun t => ∀ p ∈ points, p.time ≠ t

/-- An observation or a filled slot of a gap that the rule admits. -/
def Admissible (rule : FillRule) (points : List Sample)
    (forbidden : List (ℤ × ℤ)) (last : ℤ) (x : Sample) : Prop :=
  x ∈ points ∨
    ∃ g, rule.Admits (some last) [] forbidden points g ∧ x ∈ rule.values g

/-- The last slots, completed by what the rule admits. -/
structure Completes (rule : FillRule) (points : List Sample)
    (forbidden : List (ℤ × ℤ)) (last : ℤ) (n : ℕ) (w : List Sample) :
    Prop where
  times : w.map Sample.time = rule.slotsUpTo last n
  samples : ∀ x ∈ w, rule.Admissible points forbidden last x

variable {rule : FillRule} {points : List Sample} {forbidden : List (ℤ × ℤ)}
  {last : ℤ}

theorem Reaches.unique {m n : ℕ} (hm : rule.Reaches points forbidden last m)
    (hn : rule.Reaches points forbidden last n) : m = n := by
  rcases lt_trichotomy m n with hlt | heq | hlt
  · exact absurd (hn.1 m hlt) hm.2
  · exact heq
  · exact absurd (hm.1 n hlt) hn.2

theorem missingSlots_succ (n : ℕ) : rule.missingSlots points last (n + 1) =
    rule.missingSlots points last n +
      if ∀ p ∈ points, p.time ≠ last - n * rule.grid then 1 else 0 := by
  rw [missingSlots, slotsUpTo_succ, List.countP_cons]
  simp only [decide_eq_true_eq]
  rfl

theorem missingSlots_mono {m n : ℕ} (h : m ≤ n) :
    rule.missingSlots points last m ≤ rule.missingSlots points last n := by
  induction n, h using Nat.le_induction with
  | base => exact le_rfl
  | succ n _ ih =>
      rw [missingSlots_succ]
      exact ih.trans (Nat.le_add_right _ _)

theorem missingSlots_eq_zero {n : ℕ} : rule.missingSlots points last n = 0 ↔
    ∀ k < n, ∃ p ∈ points, p.time = last - k * rule.grid := by
  rw [missingSlots, List.countP_eq_zero]
  constructor
  · intro h k hk
    have hslot := h _ (mem_slotsUpTo.mpr ⟨k, hk, rfl⟩)
    simpa using hslot
  · intro h t ht
    obtain ⟨k, hk, rfl⟩ := mem_slotsUpTo.mp ht
    simpa using h k hk

theorem Admissible.covers {x : Sample}
    (h : rule.Admissible points forbidden last x) :
    rule.Covers points forbidden last x.time := by
  rcases h with hobserved | ⟨g, hg, hvalue⟩
  · exact .inl ⟨x, hobserved, rfl⟩
  · exact .inr ⟨g, hg, time_mem_slots hvalue⟩

/-- The slots of a completion are covered. -/
theorem Completes.covers {n : ℕ} {w : List Sample}
    (h : rule.Completes points forbidden last n w) {k : ℕ} (hk : k < n) :
    rule.Covers points forbidden last (last - k * rule.grid) := by
  have hslot : last - k * rule.grid ∈ w.map Sample.time := by
    rw [h.times]
    exact mem_slotsUpTo.mpr ⟨k, hk, rfl⟩
  obtain ⟨x, hx, heq⟩ := List.mem_map.mp hslot
  rw [← heq]
  exact (h.samples x hx).covers

theorem Completes.length {n : ℕ} {w : List Sample}
    (h : rule.Completes points forbidden last n w) : w.length = n := by
  have hlength := congrArg List.length h.times
  simpa [slotsUpTo] using hlength

/-- What is filled in a completion is what is missing of its slots. -/
theorem Completes.count {n : ℕ} {w : List Sample}
    (h : rule.Completes points forbidden last n w) :
    (w.map fun x => decide (Unobserved points x)).count true =
      rule.missingSlots points last n := by
  rw [missingSlots, ← h.times, List.countP_map, List.count, List.countP_map]
  refine List.countP_congr fun x _ => ?_
  rw [Function.comp_apply, Function.comp_apply, beq_true, decide_eq_true_eq,
    decide_eq_true_eq]
  exact Iff.rfl

theorem Completes.drop {m n : ℕ} {w : List Sample}
    (h : rule.Completes points forbidden last m w) (hn : n ≤ m) :
    rule.Completes points forbidden last n (w.drop (m - n)) where
  times := by rw [List.map_drop, h.times, slotsUpTo_drop last hn]
  samples x hx := h.samples x (List.mem_of_mem_drop hx)

theorem Completes.le_of_reaches {m n : ℕ} {w : List Sample}
    (h : rule.Completes points forbidden last n w)
    (hm : rule.Reaches points forbidden last m) : n ≤ m := by
  by_contra hlt
  exact hm.2 (h.covers (not_le.mp hlt))

/-- The endpoints of an admitted gap are the observations around a slot. -/
theorem Admits.endpoints_eq {cutoff : Option ℤ} {boundaries : List ℤ}
    {g g' : Gap} (hdistinct : (points.map Sample.time).Nodup)
    (h : rule.Admits cutoff boundaries forbidden points g)
    (h' : rule.Admits cutoff boundaries forbidden points g') {t : ℤ}
    (ht : t ∈ rule.slots g) (ht' : t ∈ rule.slots g') :
    g.left = g'.left ∧ g.right = g'.right := by
  have hgrid := rule.grid_pos
  obtain ⟨hleft, hright, -⟩ := h.slot ht
  obtain ⟨hleft', hright', -⟩ := h'.slot ht'
  constructor
  · refine List.inj_on_of_nodup_map hdistinct h.left_mem h'.left_mem ?_
    rcases h'.between _ h.left_mem with hle | hle <;>
      rcases h.between _ h'.left_mem with hle' | hle' <;> omega
  · refine List.inj_on_of_nodup_map hdistinct h.right_mem h'.right_mem ?_
    rcases h'.between _ h.right_mem with hle | hle <;>
      rcases h.between _ h'.right_mem with hle' | hle' <;> omega

/-- An instant has one admissible sample. -/
theorem Admissible.eq {x y : Sample}
    (hdistinct : (points.map Sample.time).Nodup)
    (hx : rule.Admissible points forbidden last x)
    (hy : rule.Admissible points forbidden last y) (htime : x.time = y.time) :
    x = y := by
  rcases hx with hx | ⟨g, hg, hvalue⟩ <;> rcases hy with hy | ⟨g', hg', hvalue'⟩
  · exact List.inj_on_of_nodup_map hdistinct hx hy htime
  · exact absurd htime ((hg'.slot (time_mem_slots hvalue')).2.2 x hx)
  · exact absurd htime.symm ((hg.slot (time_mem_slots hvalue)).2.2 y hy)
  · have hslot := time_mem_slots hvalue
    rw [htime] at hslot
    obtain ⟨hleft, hright⟩ :=
      hg.endpoints_eq hdistinct hg' hslot (time_mem_slots hvalue')
    have hline := hg.on_line hvalue
    have hline' := hg'.on_line hvalue'
    rw [hleft, hright, htime, ← hline'] at hline
    cases x
    cases y
    cases htime
    cases hline
    rfl

theorem eq_of_map_eq {A B : Type} {f : A → B} {xs ys : List A}
    (hmap : xs.map f = ys.map f)
    (hinj : ∀ x ∈ xs, ∀ y ∈ ys, f x = f y → x = y) : xs = ys := by
  induction xs generalizing ys with
  | nil => exact (List.map_eq_nil_iff.mp hmap.symm).symm
  | cons x xs ih =>
      cases ys with
      | nil => cases hmap
      | cons y ys =>
          obtain ⟨hhead, htail⟩ := List.cons.inj hmap
          rw [hinj x List.mem_cons_self y List.mem_cons_self hhead,
            ih htail fun a ha b hb => hinj a (List.mem_cons_of_mem x ha) b
              (List.mem_cons_of_mem y hb)]

/-- The last slots have one completion. -/
theorem Completes.unique {n : ℕ} {w w' : List Sample}
    (hdistinct : (points.map Sample.time).Nodup)
    (h : rule.Completes points forbidden last n w)
    (h' : rule.Completes points forbidden last n w') : w = w' :=
  eq_of_map_eq (h.times.trans h'.times.symm) fun x hx y hy htime =>
    (h.samples x hx).eq hdistinct (h'.samples y hy) htime

section FilledRun

variable {gaps : List Gap}

theorem runEndingAt_series {series : List Sample}
    (h : rule.Series last series) :
    rule.runEndingAt series last = trailingRun rule.Next series := by
  obtain ⟨newest, hnewest, rfl⟩ := Option.map_eq_some_iff.mp h.ends
  obtain ⟨front, rfl⟩ := List.getLast?_eq_some_iff.mp hnewest
  have hsorted := (List.pairwise_append.mp h.sorted).2.2
  have hfront : front.findIdx? (fun p => decide (p.time = newest.time)) =
      none := by
    rw [List.findIdx?_eq_none_iff]
    intro p hp
    exact decide_eq_false (hsorted p hp newest List.mem_cons_self).ne
  have hfind : (front ++ [newest]).findIdx?
      (fun p => decide (p.time = newest.time)) = some front.length := by
    rw [List.findIdx?_append, hfront]
    simp
  rw [runEndingAt, hfind]
  dsimp only
  rw [List.take_of_length_le (by simp)]

/-- The run that ends at the newest observation, with some admitted gaps
filled: its slots are completed, it reaches as far back as the series, and its
filled samples are those that are not observed. -/
theorem Fillable.run
    (h : rule.Fillable (some last) [] forbidden points gaps)
    (hseries : rule.Series last (rule.merged points gaps)) :
    let run := rule.select (some last) (rule.merged points gaps)
    rule.Completes points forbidden last run.length run ∧
      (∀ p ∈ rule.merged points gaps,
        p.time ≠ last - run.length * rule.grid) ∧
      (rule.filledIn gaps run).length =
        rule.missingSlots points last run.length ∧
      run.map (fun p => decide (rule.IsFilled gaps p)) =
        run.map fun p => decide (Unobserved points p) := by
  intro run
  have hrun : run = trailingRun rule.Next (rule.merged points gaps) :=
    runEndingAt_series hseries
  obtain ⟨htimes, hstops⟩ := hseries.trailing
  rw [← hrun] at htimes hstops
  have hsubset : ∀ x ∈ run, x ∈ rule.merged points gaps :=
    select_subset (some last) _
  have hcompletes : rule.Completes points forbidden last run.length run := by
    refine ⟨htimes, fun x hx => ?_⟩
    rcases merged_mem.mp (hsubset x hx) with hobserved | hfill
    · exact .inl hobserved
    · obtain ⟨g, hg, hfilled, hvalue⟩ := mem_fills.mp hfill
      exact .inr ⟨g, h.admits g hg hfilled, hvalue⟩
  have hflags : run.map (fun p => decide (rule.IsFilled gaps p)) =
      run.map fun p => decide (Unobserved points p) :=
    List.map_congr_left fun x hx => by
      rw [decide_eq_decide]
      exact isFilled_iff_unobserved h.admits (hsubset x hx)
  refine ⟨hcompletes, hstops, ?_, hflags⟩
  rw [← hcompletes.count, ← hflags, filledIn, ← List.countP_eq_length_filter,
    List.count, List.countP_map]
  refine List.countP_congr fun x _ => ?_
  rw [Function.comp_apply, beq_true]

theorem Series.distinct {series : List Sample}
    (h : rule.Series last series) : (series.map Sample.time).Nodup :=
  List.pairwise_map.mpr (h.sorted.imp fun hlt => hlt.ne)

theorem Series.exists_last {series : List Sample}
    (h : rule.Series last series) : ∃ p ∈ series, p.time = last := by
  obtain ⟨newest, hnewest, rfl⟩ := Option.map_eq_some_iff.mp h.ends
  exact ⟨newest, List.mem_of_getLast? hnewest, rfl⟩

theorem Series.le_last {series : List Sample} (h : rule.Series last series) :
    ∀ p ∈ series, p.time ≤ last := by
  obtain ⟨newest, hnewest, rfl⟩ := Option.map_eq_some_iff.mp h.ends
  obtain ⟨front, rfl⟩ := List.getLast?_eq_some_iff.mp hnewest
  intro p hp
  rcases List.mem_append.mp hp with hp | hp
  · exact ((List.pairwise_append.mp h.sorted).2.2 p hp newest
      List.mem_cons_self).le
  · rw [List.mem_singleton.mp hp]

theorem sorted_eq {series : List Sample}
    (h : series.Pairwise fun p q => p.time < q.time) :
    sorted series = series :=
  List.Pairwise.insertionSort_eq (h.imp fun hlt => hlt.le)

/-- The observations as the check sees them, and their gaps. -/
theorem Series.fillable (h : rule.Series last points) :
    rule.Fillable (some last) [] forbidden points
      (rule.considerGaps (some last) [] forbidden points) :=
  ⟨(considerGaps_inOrder h.sorted).1, fun _ hg hfilled =>
    considerGaps_filled h.sorted hg hfilled⟩

theorem Fillable.merged_series (h : rule.Series last points)
    (hgaps : rule.Fillable (some last) [] forbidden points gaps) :
    rule.Series last (rule.merged points gaps) :=
  hgaps.series h.distinct h.aligned h.le_last h.exists_last

/-- With every admitted gap filled, the run reaches as far as it can. -/
theorem Series.reaches (h : rule.Series last points) :
    rule.Reaches points forbidden last (rule.select (some last)
      (rule.merged points
        (rule.considerGaps (some last) [] forbidden points))).length := by
  obtain ⟨hcompletes, hstops, -⟩ := h.fillable.run (h.fillable.merged_series h)
  refine ⟨fun k hk => hcompletes.covers hk, ?_⟩
  rintro (⟨p, hp, htime⟩ | ⟨g, hg, hslot⟩)
  · exact hstops p (merged_mem.mpr (.inl hp)) htime
  · obtain ⟨k, hk, -⟩ := mem_slots.mp hslot
    have hconsidered := hg.mem_considerGaps h.sorted (by omega)
    obtain ⟨x, hx, htime⟩ : ∃ x ∈ rule.values g, x.time =
        last - (rule.select (some last) (rule.merged points
          (rule.considerGaps (some last) [] forbidden points))).length *
            rule.grid := by
      obtain ⟨k, hk, htime⟩ := List.mem_map.mp hslot
      exact ⟨_, List.mem_map.mpr ⟨k, hk, rfl⟩, htime⟩
    exact hstops x (merged_mem.mpr (.inr (mem_fills.mpr
      ⟨_, hconsidered, rfl, hx⟩))) htime

/-- Once the latest gap of the run is taken back, the run ends with observed
slots only. -/
theorem Series.run_after_removal (h : rule.Series last points) {latest : ℤ}
    (hgaps : rule.Fillable (some last) [] forbidden points gaps)
    (hlatest : ((rule.filledIn gaps (rule.select (some last)
      (rule.merged points gaps))).map Sample.time).max? = some latest) :
    rule.missingSlots points last (rule.select (some last)
      (rule.merged points (rule.removeGap latest gaps))).length = 0 := by
  obtain ⟨hcompletes, hstops, -⟩ := hgaps.run (hgaps.merged_series h)
  have hremoved := hgaps.removeGap latest
  obtain ⟨hcompletes', -⟩ := hremoved.run (hremoved.merged_series h)
  set run := rule.select (some last) (rule.merged points gaps) with hrun
  set run' := rule.select (some last)
    (rule.merged points (rule.removeGap latest gaps)) with hrun'
  obtain ⟨x, hx, hxlatest⟩ := List.mem_map.mp (List.max?_mem hlatest)
  obtain ⟨hxrun, hxfilled⟩ := List.mem_filter.mp hx
  rw [decide_eq_true_eq] at hxfilled
  have hxslot : x.time ∈ rule.slotsUpTo last run.length :=
    hcompletes.times ▸ List.mem_map_of_mem hxrun
  obtain ⟨j, hj, hxtime⟩ := mem_slotsUpTo.mp hxslot
  have hgrid := rule.grid_pos
  rw [missingSlots_eq_zero]
  intro k hk
  by_contra hnone
  have hunobserved : ∀ p ∈ points, p.time ≠ last - k * rule.grid :=
    fun p hp heq => hnone ⟨p, hp, heq⟩
  have hslot : ∀ i < run'.length, ∃ y ∈ rule.merged points
      (rule.removeGap latest gaps), y.time = last - i * rule.grid := by
    intro i hi
    have hmem : last - i * rule.grid ∈ run'.map Sample.time := by
      rw [hcompletes'.times]
      exact mem_slotsUpTo.mpr ⟨i, hi, rfl⟩
    obtain ⟨y, hy, htime⟩ := List.mem_map.mp hmem
    exact ⟨y, select_subset (some last) _ y hy, htime⟩
  have hsub : ∀ y ∈ rule.merged points (rule.removeGap latest gaps),
      y ∈ rule.merged points gaps := by
    intro y hy
    rcases merged_mem.mp hy with hy | hy
    · exact merged_mem.mpr (.inl hy)
    · obtain ⟨g, hg, hfilled, hvalue⟩ := mem_fills.mp hy
      exact merged_mem.mpr (.inr (mem_fills.mpr
        ⟨g, mem_removeGap hg hfilled, hfilled, hvalue⟩))
  -- The slot is one of the run, so that the latest filled one is not before it.
  have hlong : run'.length ≤ run.length := by
    by_contra hlt
    obtain ⟨y, hy, htime⟩ := hslot run.length (not_le.mp hlt)
    exact hstops y (hsub y hy) htime
  have hjk : j ≤ k := by
    obtain ⟨y, hy, hytime⟩ : ∃ y ∈ run, y.time = last - k * rule.grid := by
      refine List.mem_map.mp ?_
      rw [hcompletes.times]
      exact mem_slotsUpTo.mpr ⟨k, hk.trans_le hlong, rfl⟩
    have hyfilled : rule.IsFilled gaps y := by
      rw [isFilled_iff_unobserved hgaps.admits
        (select_subset (some last) _ y hy), Unobserved, hytime]
      exact hunobserved
    have hle : y.time ≤ latest :=
      (List.max?_le_iff hlatest).mp le_rfl _ (List.mem_map_of_mem
        (List.mem_filter.mpr ⟨hy, decide_eq_true hyfilled⟩))
    have hmul : (j : ℤ) * rule.grid ≤ k * rule.grid := by
      rw [hytime, ← hxlatest, hxtime] at hle
      omega
    exact_mod_cast le_of_mul_le_mul_right hmul hgrid
  -- It would be filled after it was taken back.
  obtain ⟨y, hy, hytime⟩ := hslot j (hjk.trans_lt hk)
  rw [← hxtime] at hytime
  have hyfilled : rule.IsFilled (rule.removeGap latest gaps) y := by
    rw [isFilled_iff_unobserved hremoved.admits hy, Unobserved, hytime]
    exact (isFilled_iff_unobserved hgaps.admits
      (select_subset (some last) _ x hxrun)).mp hxfilled
  rw [← hxlatest, ← hytime] at hyfilled
  exact hgaps.not_isFilled hyfilled

/-- What the loop leaves: all the fills, or none in the run. -/
theorem Series.final_gaps (h : rule.Series last points) {m : ℕ}
    (hm : rule.Reaches points forbidden last m) :
    let considered := rule.considerGaps (some last) [] forbidden points
    let gaps := rule.enforceCap points (some last) considered.length considered
    let n := (rule.select (some last) (rule.merged points gaps)).length
    rule.Fillable (some last) [] forbidden points gaps ∧
      ((rule.missingSlots points last m ≤ rule.cap m ∧ n = m) ∨
        (rule.cap m < rule.missingSlots points last m ∧
          rule.missingSlots points last n = 0)) := by
  intro considered gaps n
  have hfillable : rule.Fillable (some last) [] forbidden points considered :=
    h.fillable
  obtain ⟨-, -, hfilled, -⟩ := hfillable.run (hfillable.merged_series h)
  have hlength : (rule.select (some last)
      (rule.merged points considered)).length = m := h.reaches.unique hm
  rw [hlength] at hfilled
  by_cases hwithin : rule.WithinCap points (some last) considered
  · have hgaps : gaps = considered := enforceCap_of_within hwithin
    have hle : ((rule.filledIn considered (rule.select (some last)
        (rule.merged points considered))).length : ℚ) ≤ rule.cap (rule.select
          (some last) (rule.merged points considered)).length := hwithin
    rw [hfilled, hlength] at hle
    rw [hgaps]
    exact ⟨hfillable, .inl ⟨hle, by rw [← hlength, ← hgaps]⟩⟩
  · obtain ⟨latest, hlatest, hcount, hturn⟩ := exists_removed hwithin
    have hmany : rule.cap m < rule.missingSlots points last m := by
      rw [← hfilled, ← hlength]
      exact not_le.mp hwithin
    have hremoved := hfillable.removeGap latest
    have hnone := h.run_after_removal hfillable hlatest
    have hwithin' : rule.WithinCap points (some last)
        (rule.removeGap latest considered) := by
      obtain ⟨-, -, hfilled', -⟩ := hremoved.run (hremoved.merged_series h)
      unfold WithinCap
      dsimp only
      rw [hfilled', hnone]
      exact_mod_cast cap_nonneg _
    have hgaps : gaps = rule.removeGap latest considered := by
      obtain ⟨rounds, hrounds⟩ : ∃ rounds, considered.length = rounds + 1 := by
        have hle := List.length_filter_le (fun g : Gap => g.filled) considered
        exact ⟨considered.length - 1, by omega⟩
      show rule.enforceCap points (some last) considered.length considered = _
      rw [hrounds, hturn, enforceCap_of_within hwithin']
    rw [← hgaps] at hremoved hnone
    exact ⟨hremoved, .inr ⟨hmany, hnone⟩⟩

end FilledRun

end Window

/-- The newest observation. -/
structure Newest (points : List Sample) (last : ℤ) : Prop where
  observed : ∃ p ∈ points, p.time = last
  latest : ∀ p ∈ points, p.time ≤ last

/-- A window that the check returns: its slots are the last ones, each observed
or admitted, with the filled ones flagged; it needs no fill, or the run as far
as it reaches keeps within the cap. -/
structure Returned (rule : FillRule) (points : List Sample)
    (forbidden : List (ℤ × ℤ)) (last : ℤ) (n : ℕ)
    (out : List Sample × List Bool) : Prop where
  completes : rule.Completes points forbidden last n out.1
  flags : out.2 = out.1.map fun p => decide (Unobserved points p)
  share : rule.missingSlots points last n = 0 ∨
    ∀ m, rule.Reaches points forbidden last m →
      rule.missingSlots points last m ≤ rule.cap m

section Check

variable {rule : FillRule} {points : List Sample} {now : ℤ} {n : ℕ}
  {maxAge : ℤ} {forbidden : List (ℤ × ℤ)} {last : ℤ}

theorem Newest.unique {t t' : ℤ} (h : Newest points t)
    (h' : Newest points t') : t = t' := by
  obtain ⟨p, hp, rfl⟩ := h.observed
  obtain ⟨q, hq, rfl⟩ := h'.observed
  exact le_antisymm (h'.latest p hp) (h.latest q hq)

theorem Series.newest (h : rule.Series last points) : Newest points last :=
  ⟨h.exists_last, h.le_last⟩

/-- What the check computes, of observations in order. -/
theorem Series.checkWindow_eq_ok (h : rule.Series last points)
    {out : List Sample × List Bool} {r : Filled} (hr : r =
      rule.fillInteriorGaps points (some last) [] forbidden (some last)) :
    rule.checkWindow points now n maxAge forbidden = .ok out ↔
      now - last ≤ maxAge ∧ n ≤ r.run.length ∧
        out = (lastSlots n r.run, lastSlots n r.flags) := by
  have hsound := fillInteriorGaps_sound rule points (some last) [] forbidden
    (some last) h.distinct
  rw [← hr] at hsound
  have hends : r.run.getLast?.map Sample.time = some last :=
    hsound.ends last rfl h.exists_last
  have hflags : (lastSlots n r.flags).getLast? ≠ some true := by
    obtain ⟨newest, hnewest, hlast⟩ := Option.map_eq_some_iff.mp hends
    obtain ⟨p, hp, hptime⟩ := h.exists_last
    have hflag : r.flags.getLast? = some false := by
      have hflags : r.flags = r.run.map fun x =>
          decide (Unobserved points x) := hsound.flags
      rw [hflags, List.getLast?_map, hnewest, Option.map_some]
      refine congrArg some (decide_eq_false fun hnone => ?_)
      exact hnone p hp (hptime.trans hlast.symm)
    unfold lastSlots
    split
    · rw [hflag]
      exact fun heq => nomatch heq
    · rw [List.getLast?_drop, hflag]
      split <;> exact fun heq => nomatch heq
  obtain ⟨newest, hnewest, rfl⟩ := Option.map_eq_some_iff.mp h.ends
  unfold checkWindow
  rw [sorted_eq h.sorted, hnewest]
  dsimp only
  rw [← hr]
  by_cases hstale : maxAge < now - newest.time
  · rw [if_pos hstale]
    constructor
    · exact fun heq => nomatch heq
    · exact fun hfresh => absurd hfresh.1 (not_le.mpr hstale)
  · rw [if_neg hstale, if_neg (not_not.mpr hends)]
    by_cases hshort : r.run.length < n
    · rw [if_pos hshort]
      constructor
      · exact fun heq => nomatch heq
      · exact fun hlong => absurd hlong.2.1 (not_le.mpr hshort)
    · rw [if_neg hshort, if_neg hflags]
      constructor
      · intro heq
        exact ⟨not_lt.mp hstale, not_lt.mp hshort, (Except.ok.inj heq).symm⟩
      · rintro ⟨-, -, rfl⟩
        rfl

/-- What is filled up to the newest observation. -/
theorem Series.final (h : rule.Series last points) {m : ℕ}
    (hm : rule.Reaches points forbidden last m) :
    let r := rule.fillInteriorGaps points (some last) [] forbidden (some last)
    rule.Completes points forbidden last r.run.length r.run ∧
      r.flags = r.run.map (fun p => decide (Unobserved points p)) ∧
      (∀ p ∈ points, p.time ≠ last - r.run.length * rule.grid) ∧
      ((rule.missingSlots points last m ≤ rule.cap m ∧ r.run.length = m) ∨
        (rule.cap m < rule.missingSlots points last m ∧
          rule.missingSlots points last r.run.length = 0)) := by
  obtain ⟨hfillable, hfinal⟩ := h.final_gaps hm
  obtain ⟨hcompletes, hstops, -, hflags⟩ :=
    hfillable.run (hfillable.merged_series h)
  unfold fillInteriorGaps
  rw [sorted_eq h.sorted]
  exact ⟨hcompletes, hflags,
    fun p hp => hstops p (merged_mem.mpr (.inl hp)), hfinal⟩

/-- The run is long enough for a window that can be completed when all the
fills stay, or when the window needs none. -/
theorem Series.le_final_iff (h : rule.Series last points) {m : ℕ}
    (hm : rule.Reaches points forbidden last m) (hn : n ≤ m) :
    n ≤ (rule.fillInteriorGaps points (some last) [] forbidden
        (some last)).run.length ↔
      rule.missingSlots points last m ≤ rule.cap m ∨
        rule.missingSlots points last n = 0 := by
  obtain ⟨-, -, hstops, ⟨hfew, hlength⟩ | ⟨hmany, hnone⟩⟩ := h.final hm
  · rw [hlength]
    exact iff_of_true hn (.inl hfew)
  · constructor
    · intro hle
      exact .inr (Nat.le_zero.mp ((missingSlots_mono hle).trans hnone.le))
    · rintro (hfew | hwindow)
      · exact absurd hfew (not_le.mpr hmany)
      · by_contra hlt
        obtain ⟨p, hp, htime⟩ :=
          missingSlots_eq_zero.mp hwindow _ (not_le.mp hlt)
        exact hstops p hp htime

/-- The windows of observations in order. -/
theorem Series.returned_iff (h : rule.Series last points) (hpos : 0 < n)
    {out : List Sample × List Bool} :
    rule.checkWindow points now n maxAge forbidden = .ok out ↔
      now - last ≤ maxAge ∧ rule.Returned points forbidden last n out := by
  obtain ⟨m, hm⟩ : ∃ m, rule.Reaches points forbidden last m :=
    ⟨_, h.reaches⟩
  obtain ⟨hrun, hflags, -, -⟩ := h.final hm
  have hlong : ∀ {l}, l ≤ m → _ := fun {l} hl => @Series.le_final_iff rule
    points l forbidden last h m hm hl
  rw [h.checkWindow_eq_ok rfl, and_congr_right_iff]
  intro hfresh
  set r := rule.fillInteriorGaps points (some last) [] forbidden (some last)
  constructor
  · rintro ⟨hle, rfl⟩
    have hwindow : rule.Completes points forbidden last n
        (lastSlots n r.run) := by
      rw [lastSlots, if_neg hpos.ne']
      exact hrun.drop hle
    refine ⟨hwindow, ?_, ?_⟩
    · rw [lastSlots, lastSlots, if_neg hpos.ne', if_neg hpos.ne', hflags,
        List.length_map, List.map_drop]
    · rcases (hlong (hwindow.le_of_reaches hm)).mp hle with hfew | hnone
      · refine .inr fun m' hm' => ?_
        rwa [hm'.unique hm]
      · exact .inl hnone
  · rintro ⟨hwindow, hout, hshare⟩
    have hle : n ≤ r.run.length := by
      refine (hlong (hwindow.le_of_reaches hm)).mpr ?_
      exact hshare.symm.imp_left fun hfew => hfew m hm
    have heq : out.1 = lastSlots n r.run := by
      refine hwindow.unique h.distinct ?_
      rw [lastSlots, if_neg hpos.ne']
      exact hrun.drop hle
    refine ⟨hle, Prod.ext heq (hout.trans ?_)⟩
    rw [heq, lastSlots, lastSlots, if_neg hpos.ne', if_neg hpos.ne', hflags,
      List.length_map, List.map_drop]

end Check

section Reordered

variable {rule : FillRule} {points points' : List Sample}
  {forbidden : List (ℤ × ℤ)} {last : ℤ}

theorem Newest.of_mem_iff (hmem : ∀ p, p ∈ points ↔ p ∈ points') :
    Newest points last ↔ Newest points' last := by
  constructor
  · rintro ⟨⟨p, hp, htime⟩, hlatest⟩
    exact ⟨⟨p, (hmem p).mp hp, htime⟩,
      fun q hq => hlatest q ((hmem q).mpr hq)⟩
  · rintro ⟨⟨p, hp, htime⟩, hlatest⟩
    exact ⟨⟨p, (hmem p).mpr hp, htime⟩,
      fun q hq => hlatest q ((hmem q).mp hq)⟩

theorem admits_iff (hmem : ∀ p, p ∈ points ↔ p ∈ points') (g : Gap) :
    rule.Admits (some last) [] forbidden points g ↔
      rule.Admits (some last) [] forbidden points' g :=
  ⟨fun h => h.of_mem_iff hmem, fun h => h.of_mem_iff fun p => (hmem p).symm⟩

theorem unobserved_iff (hmem : ∀ p, p ∈ points ↔ p ∈ points') (x : Sample) :
    Unobserved points x ↔ Unobserved points' x :=
  forall_congr' fun p => by rw [hmem]

theorem reaches_iff (hmem : ∀ p, p ∈ points ↔ p ∈ points') (m : ℕ) :
    rule.Reaches points forbidden last m ↔
      rule.Reaches points' forbidden last m := by
  have hcovers : ∀ t, rule.Covers points forbidden last t ↔
      rule.Covers points' forbidden last t := by
    intro t
    simp only [Covers, admits_iff hmem, hmem]
  simp only [Reaches, hcovers]

theorem missingSlots_eq (hmem : ∀ p, p ∈ points ↔ p ∈ points') (n : ℕ) :
    rule.missingSlots points last n = rule.missingSlots points' last n := by
  refine List.countP_congr fun t _ => ?_
  rw [decide_eq_true_eq, decide_eq_true_eq]
  exact forall_congr' fun p => by rw [hmem]

theorem returned_of_mem_iff (hmem : ∀ p, p ∈ points ↔ p ∈ points') (n : ℕ)
    (out : List Sample × List Bool) :
    rule.Returned points forbidden last n out ↔
      rule.Returned points' forbidden last n out := by
  have hsample : ∀ x, rule.Admissible points forbidden last x ↔
      rule.Admissible points' forbidden last x := by
    intro x
    simp only [Admissible, admits_iff hmem, hmem]
  have hcompletes : rule.Completes points forbidden last n out.1 ↔
      rule.Completes points' forbidden last n out.1 :=
    ⟨fun h => ⟨h.times, fun x hx => (hsample x).mp (h.samples x hx)⟩,
      fun h => ⟨h.times, fun x hx => (hsample x).mpr (h.samples x hx)⟩⟩
  have hflags : (out.1.map fun p => decide (Unobserved points p)) =
      out.1.map fun p => decide (Unobserved points' p) :=
    List.map_congr_left fun x _ => by
      rw [decide_eq_decide]
      exact unobserved_iff hmem x
  constructor
  · rintro ⟨hwindow, heq, hshare⟩
    refine ⟨hcompletes.mp hwindow, heq.trans hflags, ?_⟩
    simpa only [missingSlots_eq hmem, reaches_iff hmem] using hshare
  · rintro ⟨hwindow, heq, hshare⟩
    refine ⟨hcompletes.mpr hwindow, heq.trans hflags.symm, ?_⟩
    simpa only [missingSlots_eq hmem, reaches_iff hmem] using hshare

/-- What the check returns of observations at distinct times, whole steps
apart. -/
theorem checkWindow_eq_ok {now maxAge : ℤ} {n : ℕ}
    {out : List Sample × List Bool}
    (hdistinct : (points.map Sample.time).Nodup)
    (haligned : ∀ p ∈ points, ∀ q ∈ points, rule.grid ∣ q.time - p.time)
    (hpos : 0 < n) :
    rule.checkWindow points now n maxAge forbidden = .ok out ↔
      ∃ last, Newest points last ∧ now - last ≤ maxAge ∧
        rule.Returned points forbidden last n out := by
  have hmem : ∀ p, p ∈ sorted points ↔ p ∈ points := fun p => mem_sorted
  have hsorted := sorted_pairwise hdistinct
  have hcheck : rule.checkWindow points now n maxAge forbidden =
      rule.checkWindow (sorted points) now n maxAge forbidden := by
    unfold checkWindow
    rw [sorted_eq hsorted]
  simp only [hcheck, ← Newest.of_mem_iff hmem, ← returned_of_mem_iff hmem]
  cases hnewest : (sorted points).getLast? with
  | none =>
      have hnil : sorted points = [] := List.getLast?_eq_none_iff.mp hnewest
      unfold checkWindow
      rw [sorted_eq hsorted, hnewest]
      constructor
      · exact fun heq => nomatch heq
      · rintro ⟨last, ⟨⟨p, hp, -⟩, -⟩, -⟩
        rw [hnil] at hp
        cases hp
  | some newest =>
      have hseries : rule.Series newest.time (sorted points) := by
        refine ⟨hsorted, fun p hp => ?_, by rw [hnewest]; rfl⟩
        exact haligned p (mem_sorted.mp hp) newest
          (mem_sorted.mp (List.mem_of_getLast? hnewest))
      rw [hseries.returned_iff hpos]
      constructor
      · exact fun hout => ⟨_, hseries.newest, hout⟩
      · rintro ⟨last, hlast, hout⟩
        rwa [hlast.unique hseries.newest] at hout

end Reordered

end FillRule

/-- What `check_inference_window` returns, for a window of at least one
slot. -/
theorem inference_window_iff (points : List Sample) (now : ℤ) (n : ℕ)
    (grid : ℤ) (hgrid : 0 < grid) (maxAge : ℤ) (forbidden : List (ℤ × ℤ))
    (hdistinct : (points.map Sample.time).Nodup)
    (haligned : ∀ p ∈ points, ∀ q ∈ points, grid ∣ q.time - p.time)
    (hpos : 0 < n) (out : List Sample × List Bool) :
    checkInferenceWindow points now n grid hgrid maxAge forbidden = .ok out ↔
      ∃ last, FillRule.Newest points last ∧ now - last ≤ maxAge ∧
        (inferenceRule grid hgrid).Returned points forbidden last n out :=
  FillRule.checkWindow_eq_ok hdistinct haligned hpos

namespace InferenceWindowWitness

/-- The ten-minute slots from one on up to the 40th, without some. -/
def slots (first : ℕ) (missing : List ℕ) : List Sample :=
  ((List.range' first (40 - first)).filter (· ∉ missing)).map fun i : ℕ =>
    ⟨i * 600, 1⟩

theorem step_pos : (0 : ℤ) < 600 := by decide

/-- Half a minute after the newest sample. -/
def check (points : List Sample) (n : ℕ) :
    Except WindowError (List Sample × List Bool) :=
  checkInferenceWindow points (39 * 600 + 30) n 600 step_pos 1200 []

theorem exists_window {points : List Sample} {n count : ℕ}
    (h : (check points n).toOption.map (fun out => out.2.count true) =
      some count) :
    ∃ out, check points n = .ok out ∧ out.2.count true = count := by
  obtain ⟨out, hout, hcount⟩ := Option.map_eq_some_iff.mp h
  refine ⟨out, ?_, hcount⟩
  cases hcheck : check points n with
  | error e =>
      rw [hcheck] at hout
      cases hout
  | ok out' =>
      rw [hcheck] at hout
      cases hout
      rfl

/-- One of ten slots is filled: the run of 40 keeps within the cap. -/
theorem returned_with_fill : ∃ out last, out.2.count true = 1 ∧
    FillRule.Newest (slots 0 [35]) last ∧
      (inferenceRule 600 (by decide)).Returned (slots 0 [35]) [] last 10
        out := by
  obtain ⟨out, hout, hcount⟩ :=
    @exists_window (slots 0 [35]) 10 1 (by decide +kernel)
  obtain ⟨last, hlast, -, hreturned⟩ := (inference_window_iff (slots 0 [35])
    (39 * 600 + 30) 10 600 (by decide) 1200 [] (by decide +kernel)
    (by decide +kernel) (by decide) out).mp hout
  exact ⟨out, last, hcount, hlast, hreturned⟩

/-- The share of the window itself does not decide: one slot of ten is more
than 5 % of the window, and a window that is accepted by itself is refused once
there are older gaps. -/
theorem share_of_window_ignored :
    (∃ out, check (slots 20 [30]) 20 = .ok out) ∧
    (check (slots 0 [5, 10, 30]) 20).toOption = none ∧
    ¬∀ (points : List Sample) (now : ℤ) (n : ℕ) (grid : ℤ)
      (hgrid : 0 < grid) (maxAge : ℤ) (forbidden : List (ℤ × ℤ)),
      (points.map Sample.time).Nodup →
      (∀ p ∈ points, ∀ q ∈ points, grid ∣ q.time - p.time) → 0 < n →
      ∀ out,
        checkInferenceWindow points now n grid hgrid maxAge forbidden =
            .ok out ↔
          ∃ last, FillRule.Newest points last ∧ now - last ≤ maxAge ∧
            (inferenceRule grid hgrid).Completes points forbidden last n
              out.1 ∧
            (out.2 = out.1.map fun p =>
              decide (FillRule.Unobserved points p)) ∧
            (inferenceRule grid hgrid).missingSlots points last n ≤
              (inferenceRule grid hgrid).cap n := by
  refine ⟨?_, by decide +kernel, fun hall => ?_⟩
  · obtain ⟨out, hout, -⟩ :=
      @exists_window (slots 20 [30]) 20 1 (by decide +kernel)
    exact ⟨out, hout⟩
  · obtain ⟨out, hout, -⟩ :=
      @exists_window (slots 0 [35]) 10 1 (by decide +kernel)
    obtain ⟨last, hlast, -, -, -, hshare⟩ := (hall (slots 0 [35])
      (39 * 600 + 30) 10 600 (by decide) 1200 [] (by decide +kernel)
      (by decide +kernel) (by decide) out).mp hout
    have hnewest : FillRule.Newest (slots 0 [35]) 23400 :=
      ⟨by decide +kernel, by decide +kernel⟩
    rw [hlast.unique hnewest] at hshare
    exact absurd hshare (by decide +kernel)

end InferenceWindowWitness

end PredictiveAutoscaler.GapFill
