/-
What a fill gives, for every rule: which gaps it fills, that its loop ends with
a small enough share of filled slots, and what the run it returns is made of.
-/
import PredictiveAutoscaler.Training.GapFill

namespace PredictiveAutoscaler.GapFill

open MaximalRuns

namespace FillRule

variable {rule : FillRule}

/-- A gap that the rule fills. -/
structure Admits (rule : FillRule) (cutoff : Option ℤ) (boundaries : List ℤ)
    (forbidden : List (ℤ × ℤ)) (points : List Sample) (g : Gap) : Prop where
  left_mem : g.left ∈ points
  right_mem : g.right ∈ points
  apart : g.right.time - g.left.time = (g.missing + 1) * rule.grid
  short : g.missing ≤ rule.maxMissing
  between : ∀ o ∈ points, o.time ≤ g.left.time ∨ g.right.time ≤ o.time
  by_cutoff : ∀ t ∈ cutoff, g.right.time ≤ t
  one_partition : partition g.left.time boundaries =
    partition g.right.time boundaries
  unmasked : ∀ i ∈ forbidden,
    ¬(i.1 ≤ g.right.time - rule.grid ∧ g.left.time + rule.grid ≤ i.2)

section Considered

variable {cutoff : Option ℤ} {boundaries : List ℤ} {forbidden : List (ℤ × ℤ)}

theorem considerGap_filled {p q : Sample} {g : Gap}
    (h : rule.considerGap cutoff boundaries forbidden p q = some g)
    (hfilled : g.filled = true) :
    g.left = p ∧ g.right = q ∧
      q.time - p.time = (g.missing + 1) * rule.grid ∧
      g.missing ≤ rule.maxMissing ∧ (∀ t ∈ cutoff, q.time ≤ t) ∧
      partition p.time boundaries = partition q.time boundaries ∧
      ∀ i ∈ forbidden,
        ¬(i.1 ≤ q.time - rule.grid ∧ p.time + rule.grid ≤ i.2) := by
  unfold considerGap at h
  split at h
  · cases h
  dsimp only at h
  split at h
  · cases h
    cases hfilled
  rename_i hgrid
  split at h
  · cases h
    cases hfilled
  rename_i hshort
  split at h
  · cases h
    cases hfilled
  rename_i hcutoff
  split at h
  · cases h
    cases hfilled
  rename_i hboundary
  split at h
  · cases h
    cases hfilled
  rename_i hmask
  cases h
  refine ⟨rfl, rfl, ?_, not_lt.mp hshort, ?_, ?_, ?_⟩
  · have hdiv := Int.emod_add_mul_ediv (q.time - p.time) rule.grid
    rw [not_not] at hgrid
    dsimp only
    linarith
  · rintro t ht
    rw [Option.mem_def.mp ht] at hcutoff
    simpa using hcutoff
  · by_cases hnil : boundaries = []
    · subst hnil
      rfl
    · by_contra hne
      exact hboundary ⟨hnil, hne⟩
  · rintro i hi ⟨hstart, hend⟩
    refine hmask (List.any_eq_true.mpr ⟨i, hi, ?_⟩)
    rw [decide_eq_true hstart, decide_eq_true hend]
    rfl

theorem considerGaps_filled {points : List Sample} {g : Gap}
    (hsorted : points.Pairwise fun p q => p.time < q.time)
    (h : g ∈ rule.considerGaps cutoff boundaries forbidden points)
    (hfilled : g.filled = true) :
    rule.Admits cutoff boundaries forbidden points g := by
  induction points with
  | nil => cases h
  | cons p rest ih =>
      cases rest with
      | nil => cases h
      | cons q rest =>
          rw [considerGaps, List.mem_append, Option.mem_toList] at h
          obtain ⟨hp, hrest⟩ := List.pairwise_cons.mp hsorted
          rcases h with h | h
          · obtain ⟨rfl, rfl, hapart, hshort, hcutoff, hpart, hmask⟩ :=
              considerGap_filled h hfilled
            refine ⟨List.mem_cons_self,
              List.mem_cons_of_mem _ List.mem_cons_self, hapart, hshort, ?_,
              hcutoff, hpart, hmask⟩
            intro o ho
            rcases List.mem_cons.mp ho with rfl | ho
            · exact .inl le_rfl
            rcases List.mem_cons.mp ho with rfl | ho
            · exact .inr le_rfl
            · exact .inr ((List.pairwise_cons.mp hrest).1 o ho).le
          · have hadmits := ih hrest h
            refine { hadmits with
              left_mem := List.mem_cons_of_mem p hadmits.left_mem
              right_mem := List.mem_cons_of_mem p hadmits.right_mem
              between := fun o ho => ?_ }
            rcases List.mem_cons.mp ho with rfl | ho
            · exact .inl (hp _ hadmits.left_mem).le
            · exact hadmits.between o ho

end Considered

theorem mem_slots {g : Gap} {t : ℤ} : t ∈ rule.slots g ↔
    ∃ k : ℕ, (k : ℤ) < g.missing ∧ t = g.left.time + (k + 1) * rule.grid := by
  simp only [slots, List.mem_map, List.mem_range, Int.lt_toNat,
    eq_comm (b := t)]

theorem time_mem_slots {g : Gap} {x : Sample} (h : x ∈ rule.values g) :
    x.time ∈ rule.slots g := by
  obtain ⟨k, hk, rfl⟩ := List.mem_map.mp h
  exact List.mem_map.mpr ⟨k, hk, rfl⟩

theorem mem_fills {gaps : List Gap} {x : Sample} :
    x ∈ rule.fills gaps ↔
      ∃ g ∈ gaps, g.filled = true ∧ x ∈ rule.values g := by
  simp only [fills, List.mem_flatMap, List.mem_filter, and_assoc]

theorem isFilled_iff {gaps : List Gap} {p : Sample} :
    rule.IsFilled gaps p ↔
      ∃ g ∈ gaps, g.filled = true ∧ p.time ∈ rule.slots g := by
  unfold IsFilled
  simp only [List.mem_map, mem_fills]
  constructor
  · rintro ⟨x, ⟨g, hg, hfilled, hx⟩, htime⟩
    exact ⟨g, hg, hfilled, htime ▸ time_mem_slots hx⟩
  · rintro ⟨g, hg, hfilled, hslot⟩
    obtain ⟨k, hk, htime⟩ := List.mem_map.mp hslot
    exact ⟨_, ⟨g, hg, hfilled, List.mem_map.mpr ⟨k, hk, rfl⟩⟩, htime⟩

section Admits

variable {cutoff : Option ℤ} {boundaries : List ℤ} {forbidden : List (ℤ × ℤ)}
  {points : List Sample} {g : Gap}

/-- A slot is whole steps away from both endpoints, with no observation. -/
theorem Admits.slot (h : rule.Admits cutoff boundaries forbidden points g)
    {t : ℤ} (ht : t ∈ rule.slots g) :
    g.left.time + rule.grid ≤ t ∧ t ≤ g.right.time - rule.grid ∧
      ∀ o ∈ points, o.time ≠ t := by
  obtain ⟨k, hk, rfl⟩ := mem_slots.mp ht
  have hgrid := rule.grid_pos
  have hstep : rule.grid ≤ (k + 1) * rule.grid :=
    le_mul_of_one_le_left hgrid.le (by omega)
  have hlast : (k + 1) * rule.grid ≤ g.missing * rule.grid :=
    mul_le_mul_of_nonneg_right (by omega) hgrid.le
  have hapart := h.apart
  rw [add_mul, one_mul] at hapart
  refine ⟨by omega, by omega, fun o ho heq => ?_⟩
  rcases h.between o ho with hle | hle <;> omega

/-- A filled value is on the line between the endpoints. -/
theorem Admits.on_line (h : rule.Admits cutoff boundaries forbidden points g)
    {x : Sample} (hx : x ∈ rule.values g) :
    x.value = g.left.value + (g.right.value - g.left.value) *
      (((x.time - g.left.time : ℤ) : ℚ) /
        ((g.right.time - g.left.time : ℤ) : ℚ)) := by
  obtain ⟨k, hk, rfl⟩ := List.mem_map.mp hx
  have hgrid : (rule.grid : ℚ) ≠ 0 := by exact_mod_cast rule.grid_pos.ne'
  rw [h.apart]
  dsimp only
  congr 2
  push_cast
  rw [add_sub_cancel_left, mul_div_mul_right _ _ hgrid]

theorem partition_mono {s t : ℤ} (hst : s ≤ t) (boundaries : List ℤ) :
    partition s boundaries ≤ partition t boundaries := by
  unfold partition
  refine (List.monotone_filter_right boundaries fun b hb => ?_).length_le
  simp only [decide_eq_true_eq] at hb ⊢
  exact hb.trans hst

/-- A slot of a filled gap belongs to the partition of its endpoints. -/
theorem Admits.slot_partition
    (h : rule.Admits cutoff boundaries forbidden points g) {t : ℤ}
    (ht : t ∈ rule.slots g) :
    partition g.left.time boundaries = partition t boundaries ∧
      partition t boundaries = partition g.right.time boundaries := by
  obtain ⟨hleft, hright, -⟩ := h.slot ht
  have hgrid := rule.grid_pos
  have hlow := partition_mono (by omega : g.left.time ≤ t) boundaries
  have hhigh := partition_mono (by omega : t ≤ g.right.time) boundaries
  have hone := h.one_partition
  constructor <;> omega

theorem Admits.slot_unmasked
    (h : rule.Admits cutoff boundaries forbidden points g) {t : ℤ}
    (ht : t ∈ rule.slots g) {i : ℤ × ℤ} (hi : i ∈ forbidden) :
    ¬(i.1 ≤ t ∧ t ≤ i.2) := by
  obtain ⟨hleft, hright, -⟩ := h.slot ht
  rintro ⟨hstart, hend⟩
  exact h.unmasked i hi ⟨by omega, by omega⟩

end Admits

theorem mem_removeGap {t : ℤ} {gaps : List Gap} {g : Gap}
    (h : g ∈ rule.removeGap t gaps) (hfilled : g.filled = true) : g ∈ gaps := by
  induction gaps with
  | nil => cases h
  | cons x gaps ih =>
      unfold removeGap at h
      split at h
      · rcases List.mem_cons.mp h with rfl | h
        · cases hfilled
        · exact List.mem_cons_of_mem x h
      · rcases List.mem_cons.mp h with rfl | h
        · exact List.mem_cons_self
        · exact List.mem_cons_of_mem x (ih h)

theorem removeGap_count {t : ℤ} {gaps : List Gap} {g : Gap} (hg : g ∈ gaps)
    (hfilled : g.filled = true) (ht : t ∈ rule.slots g) :
    ((rule.removeGap t gaps).filter (·.filled)).length + 1 =
      (gaps.filter (·.filled)).length := by
  induction gaps with
  | nil => cases hg
  | cons x gaps ih =>
      unfold removeGap
      split
      · rename_i hx
        simp [hx.1]
      · rename_i hx
        have htail : g ∈ gaps := by
          rcases List.mem_cons.mp hg with rfl | hg
          · exact absurd ⟨hfilled, ht⟩ hx
          · exact hg
        rw [List.filter_cons, List.filter_cons]
        split
        · rw [List.length_cons, List.length_cons, ih htail]
        · exact ih htail

theorem cap_nonneg (n : ℕ) : 0 ≤ rule.cap n :=
  binary64_nonneg (mul_nonneg rule.fraction_nonneg (by positivity))

section Loop

variable (points : List Sample) (endAt : Option ℤ)

/-- The state that the loop ends in. -/
def WithinCap (rule : FillRule) (points : List Sample) (endAt : Option ℤ)
    (gaps : List Gap) : Prop :=
  let run := rule.select endAt (rule.merged points gaps)
  ((rule.filledIn gaps run).length : ℚ) ≤ rule.cap run.length

variable {points endAt}

theorem enforceCap_of_within {rounds : ℕ} {gaps : List Gap}
    (h : rule.WithinCap points endAt gaps) :
    rule.enforceCap points endAt rounds gaps = gaps := by
  cases rounds with
  | zero => rfl
  | succ rounds =>
      unfold enforceCap
      exact if_neg (not_lt.mpr h)

/-- A turn of the loop takes a filled gap back. -/
theorem exists_removed {gaps : List Gap}
    (h : ¬rule.WithinCap points endAt gaps) :
    ∃ latest, (((rule.filledIn gaps (rule.select endAt
        (rule.merged points gaps))).map Sample.time).max? = some latest) ∧
      ((rule.removeGap latest gaps).filter (·.filled)).length + 1 =
        (gaps.filter (·.filled)).length ∧
      ∀ rounds, rule.enforceCap points endAt (rounds + 1) gaps =
        rule.enforceCap points endAt rounds (rule.removeGap latest gaps) := by
  have hmany := not_le.mp h
  cases hlatest : ((rule.filledIn gaps (rule.select endAt
      (rule.merged points gaps))).map Sample.time).max? with
  | none =>
      rw [List.max?_eq_none_iff, List.map_eq_nil_iff] at hlatest
      rw [hlatest] at hmany
      exact absurd hmany (not_lt.mpr (by simpa using cap_nonneg _))
  | some latest =>
      obtain ⟨x, hx, rfl⟩ := List.mem_map.mp (List.max?_mem hlatest)
      have hfilled := of_decide_eq_true (List.mem_filter.mp hx).2
      obtain ⟨g, hg, hgfilled, hslot⟩ := isFilled_iff.mp hfilled
      refine ⟨x.time, rfl, removeGap_count hg hgfilled hslot, fun rounds => ?_⟩
      rw [enforceCap, if_pos hmany, hlatest]

/-- With as many rounds as filled gaps the loop ends, and more rounds change
nothing. -/
theorem enforceCap_ends {rounds : ℕ} {gaps : List Gap}
    (hrounds : (gaps.filter (·.filled)).length ≤ rounds) :
    rule.WithinCap points endAt (rule.enforceCap points endAt rounds gaps) ∧
      ∀ more, rule.enforceCap points endAt (rounds + more) gaps =
        rule.enforceCap points endAt rounds gaps := by
  induction rounds generalizing gaps with
  | zero =>
      have hwithin : rule.WithinCap points endAt gaps := by
        by_contra hmany
        obtain ⟨latest, -, hcount, -⟩ := exists_removed hmany
        omega
      exact ⟨hwithin, fun more => enforceCap_of_within hwithin⟩
  | succ rounds ih =>
      by_cases hwithin : rule.WithinCap points endAt gaps
      · rw [enforceCap_of_within hwithin]
        exact ⟨hwithin, fun more => enforceCap_of_within hwithin⟩
      · obtain ⟨latest, -, hcount, hturn⟩ := exists_removed hwithin
        obtain ⟨hends, hmore⟩ := @ih (rule.removeGap latest gaps) (by omega)
        rw [hturn]
        refine ⟨hends, fun more => ?_⟩
        rw [Nat.succ_add, hturn]
        exact hmore more

theorem mem_enforceCap {rounds : ℕ} {gaps : List Gap} {g : Gap}
    (h : g ∈ rule.enforceCap points endAt rounds gaps)
    (hfilled : g.filled = true) : g ∈ gaps := by
  induction rounds generalizing gaps with
  | zero => exact h
  | succ rounds ih =>
      by_cases hwithin : rule.WithinCap points endAt gaps
      · rwa [enforceCap_of_within hwithin] at h
      · obtain ⟨latest, -, -, hturn⟩ := exists_removed hwithin
        rw [hturn] at h
        exact mem_removeGap (ih h) hfilled

end Loop

/-- A run is selected from a series: the longest one, or the one that ends at
an instant and reaches as far back as it can. -/
def Selected (rule : FillRule) (endAt : Option ℤ) (series run : List Sample) :
    Prop :=
  match endAt with
  | none =>
      (series = [] ∧ run = []) ∨
        Maximal rule.Next series run ∧ ∀ s, s <:+: series →
          s.IsChain rule.Next → s.length ≤ run.length
  | some t =>
      (run = [] ∧ ∀ p ∈ series, p.time ≠ t) ∨
        run.getLast?.map Sample.time = some t ∧ run.IsChain rule.Next ∧
          ∃ before after, series = before ++ run ++ after ∧
            ∀ x ∈ before.getLast?, ∀ y ∈ run.head?, ¬rule.Next x y

theorem runEndingAt_selected (series : List Sample) (t : ℤ) :
    rule.Selected (some t) series (rule.runEndingAt series t) := by
  cases hfind : series.findIdx? fun p => decide (p.time = t) with
  | none =>
      rw [runEndingAt, hfind]
      rw [List.findIdx?_eq_none_iff] at hfind
      exact .inl ⟨rfl, fun p hp => by simpa using hfind p hp⟩
  | some j =>
      rw [runEndingAt, hfind]
      obtain ⟨hj, htime, -⟩ := List.findIdx?_eq_some_iff_getElem.mp hfind
      obtain ⟨before, hsplits⟩ :=
        trailingRun_splits rule.Next (series.take (j + 1))
      refine .inr ⟨?_, hsplits.chain, before, series.drop (j + 1), ?_,
        hsplits.left⟩
      · rw [trailingRun_getLast?, List.getLast?_take, if_neg (by omega),
          Nat.add_sub_cancel, List.getElem?_eq_getElem hj]
        simpa using htime
      · have heq := hsplits.eq
        rw [List.append_nil] at heq
        rw [← heq, List.take_append_drop]

theorem select_selected (endAt : Option ℤ) (series : List Sample) :
    rule.Selected endAt series (rule.select endAt series) := by
  cases endAt with
  | none =>
      by_cases hnil : series = []
      · subst hnil
        exact .inl ⟨rfl, rfl⟩
      · exact .inr (longestRun_spec hnil)
  | some t => exact runEndingAt_selected series t

theorem Selected.chain {endAt : Option ℤ} {series run : List Sample}
    (h : rule.Selected endAt series run) : run.IsChain rule.Next := by
  cases endAt with
  | none =>
      rcases h with ⟨-, rfl⟩ | ⟨⟨-, before, after, hsplits⟩, -⟩
      · exact .nil
      · exact hsplits.chain
  | some t =>
      rcases h with ⟨rfl, -⟩ | ⟨-, hchain, -⟩
      · exact .nil
      · exact hchain

theorem time_head {run : List Sample} {a p : Sample} {i : ℕ}
    (h : (a :: run).IsChain rule.Next) (hp : (a :: run)[i]? = some p) :
    p.time = a.time + i * rule.grid := by
  induction run generalizing a i with
  | nil =>
      cases i with
      | zero =>
          cases hp
          simp
      | succ i => cases hp
  | cons b run ih =>
      cases i with
      | zero =>
          cases hp
          simp
      | succ i =>
          obtain ⟨hab, hrest⟩ := List.isChain_cons_cons.mp h
          unfold Next at hab
          rw [ih hrest hp]
          push_cast
          linarith

/-- The instants of a contiguous run, by place. -/
theorem time_sub {run : List Sample} (h : run.IsChain rule.Next) {i j : ℕ}
    {p q : Sample} (hp : run[i]? = some p) (hq : run[j]? = some q) :
    q.time - p.time = (j - i) * rule.grid := by
  cases run with
  | nil => cases hp
  | cons a run =>
      rw [time_head h hp, time_head h hq]
      ring

theorem select_subset (endAt : Option ℤ) (series : List Sample) :
    ∀ x ∈ rule.select endAt series, x ∈ series := by
  have hselected : rule.Selected endAt series (rule.select endAt series) :=
    select_selected endAt series
  intro x hx
  cases endAt with
  | none =>
      rcases hselected with ⟨-, hnil⟩ | ⟨⟨-, before, after, hsplits⟩, -⟩
      · rw [hnil] at hx
        cases hx
      · rw [hsplits.eq]
        simp [hx]
  | some t =>
      rcases hselected with ⟨hnil, -⟩ | ⟨-, -, before, after, heq, -⟩
      · rw [hnil] at hx
        cases hx
      · rw [heq]
        simp [hx]

theorem mem_sorted {points : List Sample} {p : Sample} :
    p ∈ sorted points ↔ p ∈ points :=
  List.mem_insertionSort _

theorem sorted_pairwise {points : List Sample}
    (hdistinct : (points.map Sample.time).Nodup) :
    (sorted points).Pairwise fun p q => p.time < q.time := by
  have hperm := List.perm_insertionSort
    (fun a b : Sample => a.time ≤ b.time) points
  have hle : (sorted points).Pairwise fun p q : Sample => p.time ≤ q.time :=
    List.pairwise_insertionSort _ points
  have hne : (sorted points).Pairwise fun p q : Sample => p.time ≠ q.time :=
    List.pairwise_map.mp ((hperm.map Sample.time).nodup_iff.mpr hdistinct)
  exact hle.and hne |>.imp fun h => lt_of_le_of_ne h.1 h.2

/-- A filled slot of a series. -/
structure Imputed (rule : FillRule) (cutoff : Option ℤ) (boundaries : List ℤ)
    (forbidden : List (ℤ × ℤ)) (p q x : Sample) : Prop where
  after : p.time < x.time
  before : x.time < q.time
  apart : q.time - p.time ≤ (rule.maxMissing + 1) * rule.grid
  on_line : x.value = p.value + (q.value - p.value) *
    (((x.time - p.time : ℤ) : ℚ) / ((q.time - p.time : ℤ) : ℚ))
  by_cutoff : ∀ t ∈ cutoff, q.time ≤ t
  left_partition : partition p.time boundaries = partition x.time boundaries
  right_partition : partition x.time boundaries = partition q.time boundaries
  unmasked : ∀ i ∈ forbidden, ¬(i.1 ≤ x.time ∧ x.time ≤ i.2)

/-- No observation has the instant of a sample. -/
def Unobserved (points : List Sample) (x : Sample) : Prop :=
  ∀ p ∈ points, p.time ≠ x.time

instance (points : List Sample) (x : Sample) :
    Decidable (Unobserved points x) :=
  inferInstanceAs (Decidable (∀ p ∈ points, _))

/-- What a fill of observations returns. -/
structure SoundFill (rule : FillRule) (points : List Sample)
    (cutoff : Option ℤ) (boundaries : List ℤ) (forbidden : List (ℤ × ℤ))
    (endAt : Option ℤ) (r : Filled) : Prop where
  terminates : ∀ more,
    let considered :=
      rule.considerGaps cutoff boundaries forbidden (sorted points)
    rule.enforceCap (sorted points) endAt (considered.length + more)
      considered = r.gaps
  selected : rule.Selected endAt (rule.merged (sorted points) r.gaps) r.run
  observed : ∀ p ∈ points, ∀ x ∈ r.run, x.time = p.time → x = p
  flags : r.flags = r.run.map fun x => decide (Unobserved points x)
  imputed : ∀ x ∈ r.run, Unobserved points x → ∃ p ∈ points, ∃ q ∈ points,
    rule.Imputed cutoff boundaries forbidden p q x
  share : (r.flags.count true : ℚ) ≤ rule.cap r.run.length
  ends : ∀ t, endAt = some t → (∃ p ∈ points, p.time = t) →
    r.run.getLast?.map Sample.time = some t

section Sound

variable {points : List Sample} {cutoff : Option ℤ} {boundaries : List ℤ}
  {forbidden : List (ℤ × ℤ)} {gaps : List Gap}

/-- The observations stay what they are among the filled slots. -/
theorem merged_mem {x : Sample} :
    x ∈ rule.merged points gaps ↔ x ∈ points ∨ x ∈ rule.fills gaps := by
  rw [merged, List.mem_insertionSort, List.mem_append]

theorem isFilled_iff_unobserved (hadmits : ∀ g ∈ gaps, g.filled = true →
      rule.Admits cutoff boundaries forbidden points g)
    {x : Sample} (hx : x ∈ rule.merged points gaps) :
    rule.IsFilled gaps x ↔ Unobserved points x := by
  rw [isFilled_iff]
  constructor
  · rintro ⟨g, hg, hfilled, hslot⟩
    exact ((hadmits g hg hfilled).slot hslot).2.2
  · intro hnone
    rcases merged_mem.mp hx with hx | hx
    · exact absurd rfl (hnone x hx)
    · obtain ⟨g, hg, hfilled, hvalue⟩ := mem_fills.mp hx
      exact ⟨g, hg, hfilled, time_mem_slots hvalue⟩

theorem exists_imputed (hadmits : ∀ g ∈ gaps, g.filled = true →
      rule.Admits cutoff boundaries forbidden points g)
    {x : Sample} (hx : x ∈ rule.merged points gaps)
    (hnone : Unobserved points x) : ∃ p ∈ points, ∃ q ∈ points,
      rule.Imputed cutoff boundaries forbidden p q x := by
  rcases merged_mem.mp hx with hx | hx
  · exact absurd rfl (hnone x hx)
  obtain ⟨g, hg, hfilled, hvalue⟩ := mem_fills.mp hx
  have hgap := hadmits g hg hfilled
  have hslot := time_mem_slots hvalue
  have hgrid := rule.grid_pos
  obtain ⟨hleft, hright, -⟩ := hgap.slot hslot
  obtain ⟨hpartition, hpartition'⟩ := hgap.slot_partition hslot
  refine ⟨g.left, hgap.left_mem, g.right, hgap.right_mem,
    by omega, by omega, ?_, hgap.on_line hvalue, hgap.by_cutoff, hpartition,
    hpartition', fun i hi => hgap.slot_unmasked hslot hi⟩
  rw [hgap.apart]
  exact mul_le_mul_of_nonneg_right (by have := hgap.short; omega) hgrid.le

end Sound

/-- The filled gaps of a fill of observations at distinct times. -/
theorem fillInteriorGaps_admits {points : List Sample} {cutoff : Option ℤ}
    {boundaries : List ℤ} {forbidden : List (ℤ × ℤ)} {endAt : Option ℤ}
    {g : Gap} (hdistinct : (points.map Sample.time).Nodup)
    (h : g ∈ (rule.fillInteriorGaps points cutoff boundaries forbidden
      endAt).gaps) (hfilled : g.filled = true) :
    rule.Admits cutoff boundaries forbidden (sorted points) g :=
  considerGaps_filled (sorted_pairwise hdistinct) (mem_enforceCap h hfilled)
    hfilled

/-- Every fill of observations at distinct times is sound. -/
theorem fillInteriorGaps_sound (rule : FillRule) (points : List Sample)
    (cutoff : Option ℤ) (boundaries : List ℤ) (forbidden : List (ℤ × ℤ))
    (endAt : Option ℤ) (hdistinct : (points.map Sample.time).Nodup) :
    rule.SoundFill points cutoff boundaries forbidden endAt
      (rule.fillInteriorGaps points cutoff boundaries forbidden endAt) := by
  set pts := sorted points with hpts
  set considered :=
    rule.considerGaps cutoff boundaries forbidden pts with hconsidered
  set gaps := rule.enforceCap pts endAt considered.length considered with hgaps
  have hends : rule.WithinCap pts endAt gaps ∧
      ∀ more, rule.enforceCap pts endAt (considered.length + more) considered =
        gaps :=
    enforceCap_ends (List.length_filter_le (fun g : Gap => g.filled) considered)
  have hadmits : ∀ g ∈ gaps, g.filled = true →
      rule.Admits cutoff boundaries forbidden pts g := fun g hg hfilled =>
    fillInteriorGaps_admits hdistinct hg hfilled
  have hmerged : ∀ x ∈ rule.select endAt (rule.merged pts gaps),
      x ∈ rule.merged pts gaps := select_subset endAt _
  have hunobserved : ∀ x, Unobserved pts x ↔ Unobserved points x := by
    intro x
    exact forall_congr' fun p => by rw [hpts, mem_sorted]
  constructor
  case terminates => exact hends.2
  case selected => exact select_selected endAt _
  case observed =>
    intro p hp x hx htime
    rcases merged_mem.mp (hmerged x hx) with hobserved | hfilled
    · exact List.inj_on_of_nodup_map hdistinct (mem_sorted.mp hobserved) hp
        htime
    · obtain ⟨g, hg, hgfilled, hvalue⟩ := mem_fills.mp hfilled
      have hslot := (hadmits g hg hgfilled).slot (time_mem_slots hvalue)
      exact absurd htime.symm (hslot.2.2 p (mem_sorted.mpr hp))
  case flags =>
    refine List.map_congr_left fun x hx => ?_
    rw [decide_eq_decide, isFilled_iff_unobserved hadmits (hmerged x hx),
      hunobserved]
  case imputed =>
    intro x hx hnone
    obtain ⟨p, hp, q, hq, himputed⟩ :=
      exists_imputed hadmits (hmerged x hx) ((hunobserved x).mpr hnone)
    exact ⟨p, mem_sorted.mp hp, q, mem_sorted.mp hq, himputed⟩
  case share =>
    have hwithin := hends.1
    have hcount : ((rule.fillInteriorGaps points cutoff boundaries forbidden
        endAt).flags.count true) = (rule.filledIn gaps
          (rule.select endAt (rule.merged pts gaps))).length := by
      rw [filledIn, ← List.countP_eq_length_filter]
      refine List.countP_map.trans (List.countP_congr fun x _ => ?_)
      rw [Function.comp_apply, beq_true, hgaps, hconsidered, hpts]
    rw [hcount]
    exact hwithin
  case ends =>
    rintro t rfl ⟨p, hp, rfl⟩
    rcases select_selected (some p.time) (rule.merged pts gaps) with
      ⟨-, hnone⟩ | ⟨hlast, -⟩
    · exact absurd rfl (hnone p (merged_mem.mpr (.inl (mem_sorted.mpr hp))))
    · exact hlast

namespace SoundFillWitness

/-- One slot in five, at most. -/
def oneInFive : FillRule where
  grid := 600
  maxMissing := 3
  maxFillFraction := 1 / 5
  grid_pos := by decide
  fraction_nonneg := by norm_num

/-- Two gaps, of one slot each. -/
def twoGaps : List Sample :=
  [⟨3600, 5⟩, ⟨0, 1⟩, ⟨600, 2⟩, ⟨1800, 4⟩, ⟨2400, 4⟩, ⟨4200, 7⟩]

/-- The later gap is taken back: two slots of eight are too many. -/
theorem twoGaps_sound :
    (oneInFive.fillInteriorGaps twoGaps none [] [] none).run =
        [⟨0, 1⟩, ⟨600, 2⟩, ⟨1200, 3⟩, ⟨1800, 4⟩, ⟨2400, 4⟩] ∧
      oneInFive.SoundFill twoGaps none [] [] none
        (oneInFive.fillInteriorGaps twoGaps none [] [] none) :=
  ⟨by decide +kernel,
    fillInteriorGaps_sound oneInFive twoGaps none [] [] none (by decide)⟩

end SoundFillWitness

end FillRule

end PredictiveAutoscaler.GapFill
