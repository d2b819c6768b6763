/-
The selection of a blend weight: paired block-bootstrap gains, the decision
with its incumbent, and the chain of trainings through the previous record.
The chosen blend is no worse than the pattern alone on the pooled evidence,
unless the pattern alone was perfect there and the previous choice was held.
-/
import PredictiveAutoscaler.Run
import Mathlib.Algebra.BigOperators.Group.List.Basic
import Mathlib.Algebra.Order.BigOperators.Group.List
import Mathlib.Algebra.Order.Floor.Ring
import Mathlib.Data.List.MinMax
import Mathlib.Data.List.Sort
import Mathlib.Data.NNRat.Defs
import Mathlib.Data.NNRat.Floor
import Mathlib.Data.Prod.Lex
import Mathlib.Data.Rat.Floor
import Mathlib.Logic.Function.Basic

namespace PredictiveAutoscaler.BlendSelection

/-- A candidate's name and its pattern weight. -/
abbrev Candidate := String × Option ℚ

def baseline : String := "pattern_only"

def ruleID : String := "margin-lb-pooled-hysteresis-1"

def defaultCandidates : List Candidate :=
  [("deployed_ramp", none), ("pattern_0.85", some (85 / 100)),
    ("pattern_0.95", some (95 / 100)), (baseline, some 1)]

structure Parameters where
  minGain : ℚ := 5 / 100
  lowerBoundQuantile : ℚ := 10 / 100
  lbThreshold : ℚ := 0
  blockOrigins : ℤ := 12
  resamples : ℤ := 2000
  seed : ℤ := 20260930
  poolPartitions : ℤ := 3
  holdGain : ℚ := 0

/-- The text of a `ValueError`. -/
abbrev ValueError := String

/-- `_params`, after the merge with the defaults. -/
def Parameters.check (p : Parameters) : Except ValueError Unit :=
  if ¬(0 < p.lowerBoundQuantile ∧ p.lowerBoundQuantile < 1) then
    throw "lower_bound_quantile must lie in (0, 1)"
  else if p.blockOrigins < 1 then throw "block_origins must be >= 1"
  else if p.resamples < 1 then throw "resamples must be >= 1"
  else if p.poolPartitions < 1 then throw "pool_partitions must be >= 1"
  else return

def mask64 : ℕ := 2 ^ 64 - 1

structure SplitMix64 where
  state : ℕ

/-- `int(seed) & _MASK64`. -/
def SplitMix64.ofSeed (seed : ℤ) : SplitMix64 := ⟨(seed % 2 ^ 64).toNat⟩

def SplitMix64.next (r : SplitMix64) : ℕ × SplitMix64 :=
  let state := (r.state + 0x9E3779B97F4A7C15) &&& mask64
  let z := ((state ^^^ (state >>> 30)) * 0xBF58476D1CE4E5B9) &&& mask64
  let z := ((z ^^^ (z >>> 27)) * 0x94D049BB133111EB) &&& mask64
  (z ^^^ (z >>> 31), ⟨state⟩)

def SplitMix64.below (r : SplitMix64) (n : ℕ) : ℕ × SplitMix64 :=
  (r.next.1 % n, r.next.2)

-- The published reference outputs for this seed.
example : ((SplitMix64.ofSeed 1234567).next.1,
    (SplitMix64.ofSeed 1234567).next.2.next.1) =
      (6457827717110365317, 3203168211198807973) := by decide +kernel

/-- `n` blocks of `L` origins with drawn starts. -/
def drawBlocks (K L : ℕ) : ℕ → SplitMix64 → List ℕ × SplitMix64
  | 0, rng => ([], rng)
  | n + 1, rng =>
      let (s, rng) := rng.below (K - L + 1)
      let (rest, rng) := drawBlocks K L n rng
      (List.range' s L ++ rest, rng)

/-- One moving-block resample of `K` origins with blocks of `L`. -/
def blockIndices (K : ℕ) (L : ℤ) (rng : SplitMix64) : List ℕ × SplitMix64 :=
  let L := min L.toNat K
  let nBlocks := (K + L - 1) / L
  let (idx, rng) := drawBlocks K L nBlocks rng
  (idx.take K, rng)

/-- A held-out partition: the per-origin errors of each scored candidate. -/
abbrev Part := String → Option (List ℚ≥0)

/-- `part[name]`, for a name that is there. -/
def Part.errors (part : Part) (name : String) : List ℚ≥0 :=
  (part name).getD []

/-- A candidate's errors, partition by partition. -/
def evidence (parts : List Part) (name : String) : List (List ℚ≥0) :=
  parts.map fun part => part.errors name

/-- `_pooled_mae` of the selected errors. -/
def pooledMae (samples : List (List ℚ≥0)) : ℚ≥0 :=
  (samples.map List.sum).sum / ((samples.map List.length).sum : ℕ)

/-- The errors at the drawn indices. -/
def resample (samples : List (List ℚ≥0)) (idx : List (List ℕ)) :
    List (List ℚ≥0) :=
  (samples.zip idx).map fun x => x.2.map fun i => x.1.getD i 0

/-- The gain of a mean error `c` over a mean error `r`. -/
def relativeGain (r c : ℚ≥0) : ℚ :=
  if 0 < r then ((r : ℚ) - c) / r else 0

/-- One resample of every partition. -/
def drawIndices (L : ℤ) : List ℕ → SplitMix64 → List (List ℕ) × SplitMix64
  | [], rng => ([], rng)
  | K :: Ks, rng =>
      let (idx, rng) := blockIndices K L rng
      let (rest, rng) := drawIndices L Ks rng
      (idx :: rest, rng)

/-- The replicate gains; the same indices serve both candidates. -/
def replicates (ref cand : List (List ℚ≥0)) (L : ℤ) :
    ℕ → SplitMix64 → List ℚ
  | 0, _ => []
  | n + 1, rng =>
      let (idx, rng) := drawIndices L (ref.map List.length) rng
      relativeGain (pooledMae (resample ref idx))
          (pooledMae (resample cand idx)) ::
        replicates ref cand L n rng

structure GainStats where
  gain : ℚ
  lowerBound : ℚ
  maeRef : ℚ≥0
  maeCand : ℚ≥0
  beats : Bool

/-- The gain of `cand` over `ref` on the pooled evidence and its bootstrap
lower bound. -/
def gainStats (parts : List Part) (cand ref : String) (p : Parameters) :
    GainStats :=
  let mRef := pooledMae (evidence parts ref)
  let mC := pooledMae (evidence parts cand)
  let g := relativeGain mRef mC
  let reps := (replicates (evidence parts ref) (evidence parts cand)
    p.blockOrigins p.resamples.toNat (.ofSeed p.seed)).insertionSort (· ≤ ·)
  let lb := reps.getD ⌊p.lowerBoundQuantile * reps.length⌋.toNat 0
  { gain := g
    lowerBound := lb
    maeRef := mRef
    maeCand := mC
    beats := decide (p.minGain ≤ g) && decide (p.lbThreshold < lb) }

/-- The candidates with errors in every pooled partition, as many as the
baseline has. -/
def usable (parts : List Part) (candidates : List Candidate) : List String :=
  (candidates.map Prod.fst).filter fun c => parts.all fun part =>
    (part c).isSome && (part.errors c).length == (part.errors baseline).length &&
      0 < (part.errors c).length

def network (parts : List Part) (candidates : List Candidate) : List String :=
  (usable parts candidates).filter (· ≠ baseline)

structure Decision where
  chosen : String
  weight : Option ℚ
  decisionPath : String
  previous : Option String
  incumbent : Option String
  pooledPartitions : ℕ
  pooledOrigins : ℕ
  pooledMae : List (String × ℚ≥0)
  vsPatternOnly : List (String × GainStats)
  vsIncumbent : List (String × GainStats)
  params : Parameters
  ruleId : String

/-- `max(cs, key=lambda c: (gain c, -order.index(c)))`. -/
def best (cs order : List String) (gain : String → ℚ) : Option String :=
  cs.argmax fun c => toLex (gain c, -(order.idxOf c : ℚ))

section Decide

variable (parts : List Part) (previous : Option String) (p : Parameters)
  (candidates : List Candidate)

/-- The previous choice, if it is a network candidate whose gain holds. -/
def incumbentOf : Option String :=
  previous.filter fun c => decide (c ∈ network parts candidates) &&
    decide (p.holdGain ≤ (gainStats parts c baseline p).gain)

/-- The choice and its path. -/
def choose : String × String :=
  let order := candidates.map Prod.fst
  let net := network parts candidates
  match incumbentOf parts previous p candidates with
  | some incumbent =>
      let challengers := net.filter fun c =>
        decide (c ≠ incumbent) && (gainStats parts c incumbent p).beats
      match best challengers order fun c => (gainStats parts c incumbent p).gain with
      | some c => (c, "challenger beat the incumbent")
      | none => (incumbent, "incumbent held (hysteresis)")
  | none =>
      let winners := net.filter fun c => (gainStats parts c baseline p).beats
      match best winners order fun c => (gainStats parts c baseline p).gain with
      | some c => (c, "network candidate beat pattern_only")
      | none => (baseline,
          (if previous.any (· ∈ net) then
            "previous network blend fell below hold_gain; " else "") ++
            "no network candidate beat pattern_only")

end Decide

def unscored : ValueError :=
  "pattern_only must be scored on every pooled partition"

/-- The decision on pooled partitions that are scored. -/
def decision (parts : List Part) (previous : Option String) (p : Parameters)
    (candidates : List Candidate) : Decision :=
  let net := network parts candidates
  let incumbent := incumbentOf parts previous p candidates
  let (chosen, path) := choose parts previous p candidates
  { chosen
    weight := (candidates.reverse.lookup chosen).join
    decisionPath := path
    previous
    incumbent
    pooledPartitions := parts.length
    pooledOrigins := (parts.map fun part => (part.errors baseline).length).sum
    pooledMae := (usable parts candidates).map fun c =>
      (c, pooledMae (evidence parts c))
    vsPatternOnly := net.map fun c => (c, gainStats parts c baseline p)
    vsIncumbent := match incumbent with
      | none => []
      | some i => (net.filter (· ≠ i)).map fun c => (c, gainStats parts c i p)
    params := p
    ruleId := ruleID }

/-- The rule on per-origin errors, most recent partition first. -/
def decide (partitions : List Part) (previous : Option String)
    (p : Parameters) (candidates : List Candidate) :
    Except ValueError Decision := do
  p.check
  let parts := partitions.take p.poolPartitions.toNat
  if parts = [] then throw "no partition given"
  else if ¬ parts.all fun part => (part baseline).isSome then throw unscored
  else if baseline ∉ usable parts candidates then throw unscored
  else return decision parts previous p candidates

/-- What `evaluate` returns for one candidate; `mae` when it is a finite
number. -/
structure Evaluation where
  scored : Option String
  mae : Option ℚ
  originAbsErrors : List ℚ≥0

/-- `stability`: the decision with its evidence. -/
structure Stability extends Decision where
  originErrors : Part
  pooledHistory : List Part

/-- The pooled evidence of a decision. -/
def Stability.evidence (st : Stability) : List Part :=
  st.originErrors :: st.pooledHistory

/-- `blend_selection` in the provenance sidecar. -/
structure BlendRecord where
  chosen : String
  weight : Option ℚ
  mae : Option ℚ
  reason : Option String
  ruleId : String
  stability : Option Stability

/-- One training's inputs: the candidates, whether a seasonal history is
attached, and what `evaluate` returns with each weight set on the model. -/
structure Training where
  candidates : List Candidate := defaultCandidates
  attached : Bool := true
  evaluate : Option ℚ → Evaluation
  params : Parameters := {}

/-- The previous choice and the partitions to pool with the current one. -/
def historyFromSidecar (sidecar : Option BlendRecord) (p : Parameters) :
    Except ValueError (Option String × List Part) :=
  match sidecar with
  | none => return (none, [])
  | some record =>
      match record.stability with
      | none => return (none, [])
      | some st =>
          if record.ruleId ≠ ruleID ∨ st.ruleId ≠ ruleID then
            return (none, [])
          else do
            p.check
            let depth := p.poolPartitions - 1
            let history := st.originErrors :: st.pooledHistory
            return (some record.chosen, history.take depth.toNat)

/-- The errors of the candidates whose served blend is scored. -/
def currentPart (t : Training) : Part :=
  t.candidates.foldl (fun current c =>
    let ev := t.evaluate c.2
    if ev.scored = some "served_blend" ∧ ev.mae.isSome then
      Function.update current c.1 (some ev.originAbsErrors)
    else current) fun _ => none

/-- A record with no decision; the deployed ramp is kept. -/
def undecided (reason : String) : BlendRecord where
  chosen := "deployed_ramp"
  weight := none
  mae := none
  reason := some reason
  ruleId := ruleID
  stability := none

def selectBlendWeight (t : Training) (previous : Option String)
    (historyPartitions : List Part) : Except ValueError BlendRecord :=
  if ¬t.attached then
    return undecided "no seasonal history attached; selection skipped"
  else
    let current := currentPart t
    if current baseline = none then
      return undecided ("served blend could not be scored on the held-out " ++
        "partition; deployed ramp kept")
    else do
      t.params.check
      let pooledHistory :=
        historyPartitions.take (t.params.poolPartitions - 1).toNat
      let dec ← decide (current :: pooledHistory) previous t.params t.candidates
      let mae := (t.candidates.find? (·.1 == dec.chosen)).bind fun c =>
        (t.evaluate c.2).mae
      return {
        chosen := dec.chosen
        weight := dec.weight
        mae
        reason := none
        ruleId := ruleID
        stability := some
          { dec with originErrors := current, pooledHistory } }

/-- One training: its record, from the previous one. -/
def train (sidecar : Option BlendRecord) (t : Training) :
    Except ValueError BlendRecord := do
  let (previous, history) ← historyFromSidecar sidecar t.params
  selectBlendWeight t previous history

/-- A training overwrites the sidecar, unless it raises. -/
def trainStep (sidecar : Option BlendRecord) (t : Training) :
    Option BlendRecord × Except ValueError BlendRecord :=
  match train sidecar t with
  | .ok record => (some record, .ok record)
  | .error e => (sidecar, .error e)

section Gains

variable {parts : List Part} {p : Parameters} {c ref : String}

/-- The pooled error of a candidate. -/
def mae (parts : List Part) (c : String) : ℚ≥0 := pooledMae (evidence parts c)

theorem relativeGain_nonneg {r x : ℚ≥0} (hr : 0 < r) :
    0 ≤ relativeGain r x ↔ x ≤ r := by
  have hr' : (0 : ℚ) < r := by exact_mod_cast hr
  rw [relativeGain, if_pos hr, le_div_iff₀ hr', zero_mul, sub_nonneg]
  exact NNRat.cast_le

theorem relativeGain_zero (x : ℚ≥0) : relativeGain 0 x = 0 := by
  simp [relativeGain]

theorem relativeGain_le_one (r x : ℚ≥0) : relativeGain r x ≤ 1 := by
  unfold relativeGain
  split
  · rename_i hr
    have hr' : (0 : ℚ) < r := by exact_mod_cast hr
    rw [div_le_one hr', sub_le_self_iff]
    exact x.cast_nonneg
  · exact zero_le_one

theorem relativeGain_eq_one {r x : ℚ≥0} (hr : 0 < r) :
    relativeGain r x = 1 ↔ x = 0 := by
  have hr' : (r : ℚ) ≠ 0 := by exact_mod_cast hr.ne'
  rw [relativeGain, if_pos hr, div_eq_one_iff_eq hr', sub_eq_self]
  exact NNRat.cast_eq_zero

theorem pooledMae_eq_zero {samples : List (List ℚ≥0)} :
    pooledMae samples = 0 ↔ ∀ es ∈ samples, ∀ x ∈ es, x = 0 := by
  unfold pooledMae
  rw [div_eq_zero_iff, Nat.cast_eq_zero, List.sum_eq_zero_iff,
    List.sum_eq_zero_iff]
  simp only [List.forall_mem_map, List.sum_eq_zero_iff]
  constructor
  · rintro (h | h) es hes x hx
    · exact h es hes x hx
    · rw [List.eq_nil_of_length_eq_zero (h es hes)] at hx
      cases hx
  · exact fun h => .inl h

theorem getD_eq_zero {A : Type} [Zero A] {xs : List A} (h : ∀ x ∈ xs, x = 0)
    (i : ℕ) : xs.getD i 0 = 0 := by
  rw [List.getD_eq_getElem?_getD]
  cases hi : xs[i]? with
  | none => rfl
  | some x => exact h x (List.mem_of_getElem? hi)

/-- A candidate without errors has none in any resample. -/
theorem resample_eq_zero {samples : List (List ℚ≥0)}
    (h : pooledMae samples = 0) (idx : List (List ℕ)) :
    pooledMae (resample samples idx) = 0 := by
  rw [pooledMae_eq_zero] at h ⊢
  intro es hes x hx
  obtain ⟨⟨e, is⟩, hmem, rfl⟩ := List.mem_map.mp hes
  obtain ⟨i, -, rfl⟩ := List.mem_map.mp hx
  exact getD_eq_zero (h e (List.of_mem_zip hmem).1) i

/-- Against a reference without errors every replicate gain is zero. -/
theorem replicates_eq_zero {samples cand : List (List ℚ≥0)}
    (h : pooledMae samples = 0) (L : ℤ) (n : ℕ) (rng : SplitMix64) :
    ∀ x ∈ replicates samples cand L n rng, x = 0 := by
  induction n generalizing rng with
  | zero => simp [replicates]
  | succ n ih =>
      intro x hx
      rw [replicates] at hx
      rcases List.mem_cons.mp hx with rfl | hx
      · rw [resample_eq_zero h, relativeGain_zero]
      · exact ih _ x hx

theorem lowerBound_eq_zero (h : mae parts ref = 0) :
    (gainStats parts c ref p).lowerBound = 0 := by
  refine getD_eq_zero ?_ _
  intro x hx
  exact replicates_eq_zero h _ _ _ x ((List.mem_insertionSort _).mp hx)

theorem gain_eq (parts : List Part) (c ref : String) (p : Parameters) :
    (gainStats parts c ref p).gain =
      relativeGain (mae parts ref) (mae parts c) := rfl

theorem beats_iff : (gainStats parts c ref p).beats = true ↔
    p.minGain ≤ (gainStats parts c ref p).gain ∧
      p.lbThreshold < (gainStats parts c ref p).lowerBound := by
  simp [gainStats]

/-- The parameters that the rule is meant for. -/
structure Parameters.NonNegative (p : Parameters) : Prop where
  minGain : 0 ≤ p.minGain
  lbThreshold : 0 ≤ p.lbThreshold
  holdGain : 0 ≤ p.holdGain

/-- What beats a reference has no larger errors, and the reference has some. -/
theorem mae_le_of_beats (hp : p.NonNegative)
    (h : (gainStats parts c ref p).beats = true) :
    0 < mae parts ref ∧ mae parts c ≤ mae parts ref := by
  obtain ⟨hgain, hlower⟩ := beats_iff.mp h
  have hpos : 0 < mae parts ref := by
    rw [pos_iff_ne_zero]
    intro hzero
    rw [lowerBound_eq_zero hzero] at hlower
    exact absurd hlower (not_lt.mpr hp.lbThreshold)
  refine ⟨hpos, ?_⟩
  rw [← relativeGain_nonneg hpos, ← gain_eq parts c ref p]
  exact hp.minGain.trans hgain

theorem best_eq_none {cs order : List String} {gain : String → ℚ} :
    best cs order gain = none ↔ cs = [] :=
  List.argmax_eq_none

/-- The best candidate is one of them, with the largest gain. -/
theorem best_spec {cs order : List String} {gain : String → ℚ} {b : String}
    (h : best cs order gain = some b) :
    b ∈ cs ∧ ∀ x ∈ cs, gain x ≤ gain b := by
  refine ⟨List.argmax_mem h, ?_⟩
  intro x hx
  have hle := List.le_of_mem_argmax hx h
  rw [Prod.Lex.le_iff] at hle
  rcases hle with hlt | ⟨heq, -⟩
  · exact hlt.le
  · exact heq.le

end Gains

section Choice

variable (parts : List Part) (previous : Option String) (p : Parameters)
  (candidates : List Candidate)

/-- The pattern alone had no errors on the pooled evidence, the previous choice
had some and is held because its gain counts as zero, and nothing without
errors beats it. -/
def HeldAgainstPerfect : Prop :=
  ∃ held ∈ network parts candidates, previous = some held ∧ p.holdGain = 0 ∧
    mae parts baseline = 0 ∧ mae parts held ≠ 0 ∧
    ∀ c ∈ network parts candidates, c ≠ held →
      (gainStats parts c held p).beats = true → mae parts c ≠ 0

variable {parts previous p candidates}

theorem incumbentOf_eq_some {c : String} :
    incumbentOf parts previous p candidates = some c ↔
      previous = some c ∧ c ∈ network parts candidates ∧
        p.holdGain ≤ (gainStats parts c baseline p).gain := by
  simp [incumbentOf, Option.filter_eq_some_iff]

/-- How a network candidate is chosen. -/
inductive Chosen (parts : List Part) (previous : Option String)
    (p : Parameters) (candidates : List Candidate) : String → Prop
  | challenger {held c : String}
      (hheld : incumbentOf parts previous p candidates = some held)
      (hnet : c ∈ network parts candidates) (hne : c ≠ held)
      (hbeats : (gainStats parts c held p).beats = true)
      (hbest : ∀ x ∈ network parts candidates, x ≠ held →
        (gainStats parts x held p).beats = true →
        (gainStats parts x held p).gain ≤ (gainStats parts c held p).gain) :
      Chosen parts previous p candidates c
  | held {held : String}
      (hheld : incumbentOf parts previous p candidates = some held)
      (hnone : ∀ x ∈ network parts candidates, x ≠ held →
        (gainStats parts x held p).beats = false) :
      Chosen parts previous p candidates held
  | winner {c : String}
      (hnone : incumbentOf parts previous p candidates = none)
      (hnet : c ∈ network parts candidates)
      (hbeats : (gainStats parts c baseline p).beats = true) :
      Chosen parts previous p candidates c
  | default (hnone : incumbentOf parts previous p candidates = none) :
      Chosen parts previous p candidates baseline

theorem choose_chosen :
    Chosen parts previous p candidates
      (choose parts previous p candidates).1 := by
  unfold choose
  cases hheld : incumbentOf parts previous p candidates with
  | some held =>
      dsimp only
      split
      · rename_i c hbest
        obtain ⟨hmem, hmax⟩ := best_spec hbest
        simp only [List.mem_filter, Bool.and_eq_true, decide_eq_true_eq]
          at hmem hmax
        exact .challenger hheld hmem.1 hmem.2.1 hmem.2.2
          fun x hx hne hbeats => hmax x ⟨hx, hne, hbeats⟩
      · rename_i hbest
        refine .held hheld ?_
        intro x hx hne
        have hnil := List.filter_eq_nil_iff.mp (best_eq_none.mp hbest) x hx
        simpa [hne] using hnil
  | none =>
      dsimp only
      split
      · rename_i c hbest
        obtain ⟨hmem, -⟩ := best_spec hbest
        rw [List.mem_filter] at hmem
        exact .winner hheld hmem.1 hmem.2
      · exact .default hheld

/-- The choice is no worse than the pattern alone, unless the previous choice
is held against a pattern without errors. -/
theorem choose_mae_iff (hp : p.NonNegative) :
    mae parts (choose parts previous p candidates).1 ≤ mae parts baseline ↔
      ¬HeldAgainstPerfect parts previous p candidates := by
  generalize hc : (choose parts previous p candidates).1 = c
  have hchosen : Chosen parts previous p candidates
      (choose parts previous p candidates).1 := choose_chosen
  rw [hc] at hchosen
  cases hchosen with
  | default hnone =>
      refine iff_of_true le_rfl ?_
      rintro ⟨held, hnet, rfl, hhold, hzero, -⟩
      have hgain : p.holdGain ≤ (gainStats parts held baseline p).gain := by
        rw [gain_eq, hzero, relativeGain_zero, hhold]
      rw [incumbentOf_eq_some.mpr ⟨rfl, hnet, hgain⟩] at hnone
      cases hnone
  | winner hnone hnet hbeats =>
      obtain ⟨hpos, hle⟩ := mae_le_of_beats hp hbeats
      refine iff_of_true hle ?_
      rintro ⟨held, -, -, -, hzero, -⟩
      exact hpos.ne' hzero
  | held hheld hnone =>
      obtain ⟨hprevious, hnet, hgain⟩ := incumbentOf_eq_some.mp hheld
      by_cases hzero : mae parts baseline = 0
      · rw [hzero, nonpos_iff_eq_zero]
        have hhold : p.holdGain = 0 := by
          rw [gain_eq, hzero, relativeGain_zero] at hgain
          exact le_antisymm hgain hp.holdGain
        constructor
        · rintro hc ⟨held, -, hheld', -, -, hne, -⟩
          rw [hprevious] at hheld'
          cases hheld'
          exact hne hc
        · intro hnot
          by_contra hne
          refine hnot ⟨_, hnet, hprevious, hhold, hzero, hne, ?_⟩
          intro x hx hxne hbeats
          rw [hnone x hx hxne] at hbeats
          cases hbeats
      · have hpos : 0 < mae parts baseline := pos_iff_ne_zero.mpr hzero
        refine iff_of_true ?_ fun ⟨_, _, _, _, hz, _⟩ => hzero hz
        rw [← relativeGain_nonneg hpos, ← gain_eq parts _ _ p]
        exact hp.holdGain.trans hgain
  | @challenger held _ hheld hnet hne hbeats hbest =>
      obtain ⟨hprevious, hheldnet, hgain⟩ := incumbentOf_eq_some.mp hheld
      obtain ⟨hpos, hle⟩ := mae_le_of_beats hp hbeats
      by_cases hzero : mae parts baseline = 0
      · rw [hzero, nonpos_iff_eq_zero]
        have hhold : p.holdGain = 0 := by
          rw [gain_eq, hzero, relativeGain_zero] at hgain
          exact le_antisymm hgain hp.holdGain
        constructor
        · rintro hc ⟨held', -, hheld', -, -, -, hnone⟩
          rw [hprevious] at hheld'
          cases hheld'
          exact hnone c hnet hne hbeats hc
        · intro hnot
          by_contra hcne
          refine hnot ⟨held, hheldnet, hprevious, hhold, hzero, hpos.ne', ?_⟩
          intro x hx hxne hxbeats hxzero
          -- The gain of a candidate without errors is the largest there is.
          have hmax := hbest x hx hxne hxbeats
          rw [gain_eq, gain_eq, (relativeGain_eq_one hpos).mpr hxzero] at hmax
          have hone := le_antisymm (relativeGain_le_one _ _) hmax
          exact hcne ((relativeGain_eq_one hpos).mp hone)
      · have hbase : 0 < mae parts baseline := pos_iff_ne_zero.mpr hzero
        refine iff_of_true (hle.trans ?_) fun ⟨_, _, _, _, hz, _⟩ => hzero hz
        rw [← relativeGain_nonneg hbase, ← gain_eq parts _ _ p]
        exact hp.holdGain.trans hgain

/-- A network candidate that is not the previous choice beats its reference:
the incumbent, or the pattern alone. -/
theorem choose_beats {c : String}
    (hc : (choose parts previous p candidates).1 = c) (hne : c ≠ baseline)
    (hprevious : previous ≠ some c) :
    (gainStats parts c ((incumbentOf parts previous p candidates).getD baseline)
      p).beats = true := by
  have hchosen : Chosen parts previous p candidates
      (choose parts previous p candidates).1 := choose_chosen
  rw [hc] at hchosen
  cases hchosen with
  | default hnone => exact absurd rfl hne
  | winner hnone hnet hbeats =>
      rw [hnone]
      exact hbeats
  | held hheld hnone =>
      exact absurd (incumbentOf_eq_some.mp hheld).1 hprevious
  | challenger hheld hnet hne hbeats hbest =>
      rw [hheld]
      exact hbeats

end Choice

section Chain

/-- The decision of a record that was written under the rule. -/
def BlendRecord.underRule (r : BlendRecord) : Option Stability :=
  r.stability.filter fun st => r.ruleId == ruleID && st.ruleId == ruleID

/-- The partitions of the most recent records that are consecutively under the
rule. -/
def ruleParts : List BlendRecord → List Part
  | [] => []
  | r :: rest =>
      match r.underRule with
      | none => []
      | some st => st.originErrors :: ruleParts rest

/-- The choice of the last record, if it is under the rule. -/
def previousChoice (sidecar : Option BlendRecord) : Option String :=
  sidecar.bind fun r => r.underRule.map fun _ => r.chosen

abbrev TrainingEntry :=
  Entry (Option BlendRecord) Training (Except ValueError BlendRecord)

/-- The records on the sidecar's path, most recent first. -/
def written (start : Option BlendRecord) (past : List TrainingEntry) :
    List BlendRecord :=
  (past.filterMap fun e => e.report.toOption).reverse ++ start.toList

theorem BlendRecord.underRule_eq_some {r : BlendRecord} {st : Stability} :
    r.underRule = some st ↔
      r.stability = some st ∧ r.ruleId = ruleID ∧ st.ruleId = ruleID := by
  simp [BlendRecord.underRule, Option.filter_eq_some_iff]

theorem historyFromSidecar_spec {sidecar : Option BlendRecord}
    {p : Parameters} {previous : Option String} {history : List Part}
    (h : historyFromSidecar sidecar p = .ok (previous, history)) :
    previous = previousChoice sidecar ∧
      ((∃ r st, sidecar = some r ∧ r.underRule = some st ∧
        history = (st.originErrors :: st.pooledHistory).take
          (p.poolPartitions - 1).toNat) ∨
      (previousChoice sidecar = none ∧ history = [])) := by
  unfold historyFromSidecar at h
  split at h
  · cases h
    exact ⟨rfl, .inr ⟨rfl, rfl⟩⟩
  · rename_i record
    split at h
    · rename_i hst
      cases h
      have hnone : previousChoice (some record) = none := by
        simp [previousChoice, BlendRecord.underRule, hst]
      exact ⟨hnone.symm, .inr ⟨hnone, rfl⟩⟩
    · rename_i st hst
      split at h
      · rename_i hrule
        cases h
        have hnone : previousChoice (some record) = none := by
          rcases hrule with hrule | hrule <;>
            simp [previousChoice, BlendRecord.underRule, Option.filter, hst,
              hrule]
        exact ⟨hnone.symm, .inr ⟨hnone, rfl⟩⟩
      · rename_i hrule
        push Not at hrule
        have hunder := BlendRecord.underRule_eq_some.mpr ⟨hst, hrule⟩
        cases hcheck : p.check with
        | error e => simp [hcheck, bind, Except.bind] at h
        | ok u =>
            simp only [hcheck, bind, Except.bind, pure, Except.pure,
              Except.ok.injEq, Prod.mk.injEq] at h
            obtain ⟨rfl, rfl⟩ := h
            refine ⟨?_, .inl ⟨record, st, rfl, hunder, rfl⟩⟩
            simp [previousChoice, hunder]

theorem decide_spec {partitions : List Part} {previous : Option String}
    {p : Parameters} {candidates : List Candidate} {d : Decision}
    (h : decide partitions previous p candidates = .ok d) :
    d = decision (partitions.take p.poolPartitions.toNat) previous p
      candidates := by
  unfold decide at h
  cases hcheck : p.check with
  | error e => simp [hcheck, bind, Except.bind] at h
  | ok u =>
      simp only [hcheck, bind, Except.bind] at h
      repeat' split at h
      all_goals cases h
      rfl

theorem check_pool {p : Parameters} (h : p.check = .ok ()) :
    1 ≤ p.poolPartitions := by
  unfold Parameters.check at h
  split at h
  · cases h
  split at h
  · cases h
  split at h
  · cases h
  split at h
  · cases h
  · omega

theorem selectBlendWeight_spec {t : Training} {previous : Option String}
    {history : List Part} {record : BlendRecord} {st : Stability}
    (h : selectBlendWeight t previous history = .ok record)
    (hst : record.stability = some st) :
    1 ≤ t.params.poolPartitions ∧ record.chosen = st.chosen ∧
      record.ruleId = ruleID ∧ st.originErrors = currentPart t ∧
      st.pooledHistory = history.take (t.params.poolPartitions - 1).toNat ∧
      st.toDecision = decision st.evidence previous t.params t.candidates := by
  unfold selectBlendWeight at h
  split at h
  · cases h
    cases hst
  dsimp only at h
  split at h
  · cases h
    cases hst
  cases hcheck : t.params.check with
  | error e => simp [hcheck, bind, Except.bind] at h
  | ok u =>
      have hpool := check_pool hcheck
      simp only [hcheck, bind, Except.bind] at h
      split at h
      · cases h
      rename_i dec hdec
      cases h
      cases hst
      refine ⟨hpool, rfl, rfl, rfl, rfl, ?_⟩
      have hdecision := decide_spec hdec
      have htake : (currentPart t :: history.take
          (t.params.poolPartitions - 1).toNat).take t.params.poolPartitions.toNat =
            currentPart t :: history.take (t.params.poolPartitions - 1).toNat := by
        refine List.take_of_length_le ?_
        simp only [List.length_cons, List.length_take]
        omega
      rw [htake] at hdecision
      exact hdecision

theorem train_spec {sidecar : Option BlendRecord} {t : Training}
    {record : BlendRecord} {st : Stability}
    (h : train sidecar t = .ok record) (hst : record.stability = some st) :
    1 ≤ t.params.poolPartitions ∧ record.chosen = st.chosen ∧
      record.ruleId = ruleID ∧ st.originErrors = currentPart t ∧
      st.toDecision = decision st.evidence (previousChoice sidecar) t.params
        t.candidates ∧
      ((∃ r pst, sidecar = some r ∧ r.underRule = some pst ∧
        st.pooledHistory = (pst.originErrors :: pst.pooledHistory).take
          (t.params.poolPartitions - 1).toNat) ∨
      (previousChoice sidecar = none ∧ st.pooledHistory = [])) := by
  unfold train at h
  cases hhistory : historyFromSidecar sidecar t.params with
  | error e => simp [hhistory, bind, Except.bind] at h
  | ok pair =>
      obtain ⟨previous, history⟩ := pair
      simp only [hhistory, bind, Except.bind] at h
      obtain ⟨rfl, hparts⟩ := historyFromSidecar_spec hhistory
      obtain ⟨hpool, hchosen, hrule, hcurrent, hpooled, hdecision⟩ :=
        selectBlendWeight_spec h hst
      refine ⟨hpool, hchosen, hrule, hcurrent, hdecision, ?_⟩
      rcases hparts with ⟨r, pst, hr, hunder, rfl⟩ | ⟨hnone, rfl⟩
      · refine .inl ⟨r, pst, hr, hunder, ?_⟩
        rw [hpooled, List.take_take, min_self]
      · exact .inr ⟨hnone, by rw [hpooled, List.take_nil]⟩

theorem ruleParts_eq_nil {rs : List BlendRecord}
    (h : previousChoice rs.head? = none) : ruleParts rs = [] := by
  cases rs with
  | nil => rfl
  | cons r rest =>
      have hnone : r.underRule = none := by
        simpa [previousChoice] using h
      rw [ruleParts, hnone]

/-- A record of a run pooled the most recent partitions under the rule, as
many as the smallest pool of the run allows. -/
def Pooled (past : List TrainingEntry) : List BlendRecord → Prop
  | [] => True
  | r :: rest => ∀ st, r.underRule = some st → ∃ k : ℕ,
      st.pooledHistory = (ruleParts rest).take k ∧
        ∀ P : ℤ, (∀ e ∈ past, P ≤ e.event.params.poolPartitions) → P ≤ k + 1

theorem Pooled.evidence {past : List TrainingEntry} {rs : List BlendRecord}
    (h : Pooled past rs) {t : Training} {record : BlendRecord} {st : Stability}
    (htrain : train rs.head? t = .ok record)
    (hst : record.stability = some st) :
    ∃ k : ℕ, (k : ℤ) + 1 ≤ t.params.poolPartitions ∧
      st.pooledHistory = (ruleParts rs).take k ∧
      ∀ P : ℤ, (∀ e ∈ past, P ≤ e.event.params.poolPartitions) →
        P ≤ t.params.poolPartitions → P ≤ k + 1 := by
  obtain ⟨hpool, -, -, -, -, hparts⟩ := train_spec htrain hst
  have hcast : ((t.params.poolPartitions - 1).toNat : ℤ) =
      t.params.poolPartitions - 1 := Int.toNat_of_nonneg (by omega)
  rcases hparts with ⟨r, pst, hhead, hunder, hpooled⟩ | ⟨hnone, hpooled⟩
  · cases rs with
    | nil => cases hhead
    | cons r' rest =>
        cases hhead
        obtain ⟨k, hk, hbound⟩ := h pst hunder
        refine ⟨min (t.params.poolPartitions - 1).toNat (k + 1), ?_, ?_, ?_⟩
        · omega
        · rw [hpooled, ruleParts, hunder, hk, ← List.take_take,
            List.take_succ_cons]
        · intro P hpast hP
          have := hbound P hpast
          omega
  · refine ⟨(t.params.poolPartitions - 1).toNat, by omega, ?_, ?_⟩
    · rw [hpooled, ruleParts_eq_nil hnone, List.take_nil]
    · intro P _ hP
      omega

theorem written_snoc (start : Option BlendRecord) (past : List TrainingEntry)
    (e : TrainingEntry) :
    written start (past ++ [e]) =
      e.report.toOption.toList ++ written start past := by
  unfold written
  rw [List.filterMap_append, List.reverse_append]
  cases hreport : e.report.toOption <;> simp [hreport]

theorem step_pooled {start : Option BlendRecord} {past : List TrainingEntry}
    {sidecar : Option BlendRecord} {t : Training}
    (hs : sidecar = (written start past).head?)
    (hpooled : Pooled past (written start past)) :
    let later := past ++ [entryAt trainStep sidecar t]
    (trainStep sidecar t).1 = (written start later).head? ∧
      Pooled later (written start later) := by
  intro later
  have hlater : ∀ P : ℤ, (∀ e ∈ later, P ≤ e.event.params.poolPartitions) →
      (∀ e ∈ past, P ≤ e.event.params.poolPartitions) ∧
        P ≤ t.params.poolPartitions := by
    intro P hall
    refine ⟨fun e he => hall e (List.mem_append_left _ he), ?_⟩
    exact hall _ (List.mem_append_right _ List.mem_cons_self)
  have hwritten : written start later =
      (train sidecar t).toOption.toList ++ written start past := by
    rw [written_snoc]
    unfold entryAt trainStep
    cases train sidecar t <;> rfl
  rw [hwritten]
  cases htrain : train sidecar t with
  | error e =>
      refine ⟨by rw [trainStep, htrain]; simpa [Except.toOption] using hs, ?_⟩
      simp only [Except.toOption, Option.toList_none, List.nil_append]
      cases hrecords : written start past with
      | nil => trivial
      | cons r rest =>
          intro st hunder
          rw [hrecords] at hpooled
          obtain ⟨k, hk, hbound⟩ := hpooled st hunder
          exact ⟨k, hk, fun P hall => hbound P (hlater P hall).1⟩
  | ok record =>
      refine ⟨by simp [trainStep, htrain, Except.toOption], ?_⟩
      simp only [Except.toOption, Option.toList_some, List.singleton_append]
      intro st hunder
      obtain ⟨hst, -, -⟩ := BlendRecord.underRule_eq_some.mp hunder
      rw [hs] at htrain
      obtain ⟨k, -, hk, hbound⟩ := hpooled.evidence htrain hst
      exact ⟨k, hk, fun P hall => hbound P (hlater P hall).1 (hlater P hall).2⟩

/-- In every chain of trainings: the chosen blend is no worse than the pattern
alone on the pooled evidence, unless the previous choice is held against a
pattern without errors; the evidence is the current partition and the most
recent ones recorded under the rule; and a new network blend beats its
reference. -/
theorem chain_prefers_no_worse {start : Option BlendRecord}
    (hstart : ∀ r, start = some r → r.underRule = none)
    {trainings : List Training}
    (hparams : ∀ t ∈ trainings, t.params.NonNegative)
    {past rest : List TrainingEntry} {e : TrainingEntry}
    (htrace : runTrace trainStep start trainings = past ++ e :: rest)
    {record : BlendRecord} {st : Stability}
    (hreport : e.report = .ok record) (hst : record.stability = some st) :
    let p := e.event.params
    let previous := previousChoice (written start past).head?
    (mae st.evidence record.chosen ≤ mae st.evidence baseline ↔
      ¬HeldAgainstPerfect st.evidence previous p e.event.candidates) ∧
    (∃ m : ℕ, (m : ℤ) ≤ p.poolPartitions ∧
      st.evidence = (currentPart e.event ::
        ruleParts (written start past)).take m ∧
      ((∀ e' ∈ past, p.poolPartitions ≤ e'.event.params.poolPartitions) →
        (m : ℤ) = p.poolPartitions)) ∧
    (record.chosen ≠ baseline → previous ≠ some record.chosen →
      let stats := gainStats st.evidence record.chosen
        (st.incumbent.getD baseline) p
      p.minGain ≤ stats.gain ∧ p.lbThreshold < stats.lowerBound) := by
  intro p previous
  let H := fun (past : List TrainingEntry) (sidecar : Option BlendRecord) =>
    sidecar = (written start past).head? ∧ Pooled past (written start past)
  have hinit : H [] start := by
    refine ⟨by cases start <;> rfl, ?_⟩
    cases start with
    | none => trivial
    | some r =>
        intro st hunder
        rw [hstart r rfl] at hunder
        cases hunder
  obtain ⟨⟨hbefore, hpooled⟩, hentry⟩ := runTrace_history H
    (fun past s t h => step_pooled h.1 h.2) hinit htrace
  have htrain : train e.before e.event = .ok record := by
    have hstep : (trainStep e.before e.event).2 = .ok record := by
      rw [hentry] at hreport
      exact hreport
    unfold trainStep at hstep
    cases h : train e.before e.event with
    | error err =>
        rw [h] at hstep
        cases hstep
    | ok r =>
        rw [h] at hstep
        exact hstep
  have hnonneg : p.NonNegative := by
    refine hparams e.event ?_
    rw [← runTrace_map_event trainStep start trainings, htrace]
    exact List.mem_map_of_mem (List.mem_append_right _ List.mem_cons_self)
  obtain ⟨-, hchosen, -, hcurrent, hdecision, -⟩ := train_spec htrain hst
  rw [hbefore] at hdecision htrain
  have hchoice : record.chosen =
      (choose st.evidence previous p e.event.candidates).1 := by
    rw [hchosen, hdecision]
    rfl
  refine ⟨?_, ?_, ?_⟩
  · rw [hchoice]
    exact choose_mae_iff hnonneg
  · obtain ⟨k, hk, hhistory, hbound⟩ := hpooled.evidence htrain hst
    refine ⟨k + 1, by push_cast; exact hk, ?_, ?_⟩
    · rw [Stability.evidence, hcurrent, hhistory, List.take_succ_cons]
    · intro hall
      have hle := hbound p.poolPartitions hall le_rfl
      push_cast
      exact le_antisymm hk hle
  · intro hne hprevious
    have hincumbent : st.incumbent =
        incumbentOf st.evidence previous p e.event.candidates := by
      rw [hdecision]
      rfl
    rw [hincumbent, ← beats_iff]
    exact choose_beats hchoice.symm hne hprevious

namespace BlendWitness

/-- One origin, with these errors of the deployed ramp and of the pattern. -/
def scored (ramp pattern : ℚ≥0) : Training where
  candidates := [("deployed_ramp", none), (baseline, some 1)]
  evaluate weight :=
    let error := if weight = none then ramp else pattern
    ⟨some "served_blend", some error, [error]⟩
  params := { resamples := 1, poolPartitions := 1 }

/-- The ramp earns its place; then the pattern is perfect and the ramp not. -/
def flat : List Training := [scored 0 1, scored 1 0]

theorem scored_nonNegative {t : Training} (h : t ∈ flat) :
    t.params.NonNegative := by
  simp only [flat, List.mem_cons, List.not_mem_nil, or_false] at h
  rcases h with rfl | rfl <;> exact ⟨by decide +kernel, le_rfl, le_rfl⟩

def firstRecord : Except ValueError BlendRecord :=
  (trainStep none (scored 0 1)).2

def secondRecord : Except ValueError BlendRecord :=
  (trainStep (trainStep none (scored 0 1)).1 (scored 1 0)).2

theorem exists_of_toOption {report : Except ValueError BlendRecord}
    {f : BlendRecord → Stability → Bool} {b : Bool}
    (h : (report.toOption.bind fun r => r.stability.map (f r)) = some b) :
    ∃ record st, report = .ok record ∧ record.stability = some st ∧
      f record st = b := by
  obtain ⟨record, hrecord, hst⟩ := Option.bind_eq_some_iff.mp h
  obtain ⟨st, hst, hf⟩ := Option.map_eq_some_iff.mp hst
  refine ⟨record, st, ?_, hst, hf⟩
  cases report with
  | error e => cases hrecord
  | ok r =>
      cases hrecord
      rfl

/-- The first training chooses the ramp, which is no worse there. -/
theorem first_training_improves :
    ∃ record st, firstRecord = .ok record ∧ record.stability = some st ∧
      record.chosen = "deployed_ramp" ∧
      mae st.evidence record.chosen ≤ mae st.evidence baseline := by
  obtain ⟨record, st, hreport, hst, hchosen⟩ :=
    @exists_of_toOption firstRecord
      (fun r _ => r.chosen == "deployed_ramp") true (by decide +kernel)
  have htrace : runTrace trainStep none flat =
      [] ++ entryAt trainStep none (scored 0 1) ::
        runTrace trainStep (trainStep none (scored 0 1)).1 [scored 1 0] := rfl
  have hstart : ∀ r, (none : Option BlendRecord) = some r →
      r.underRule = none := by
    intro r h
    cases h
  obtain ⟨hmae, -, -⟩ := chain_prefers_no_worse hstart
    (fun t => scored_nonNegative) htrace hreport hst
  refine ⟨record, st, hreport, hst, by simpa using hchosen, hmae.mpr ?_⟩
  rintro ⟨held, -, hprevious, -⟩
  cases hprevious

/-- The ramp is kept with larger errors than the pattern's. -/
theorem keeps_worse_blend :
    ¬∀ trainings : List Training,
      (∀ t ∈ trainings, t.params.NonNegative) →
      ∀ e ∈ runTrace trainStep none trainings, ∀ record st,
        e.report = .ok record → record.stability = some st →
        mae st.evidence record.chosen ≤ mae st.evidence baseline := by
  intro hall
  obtain ⟨record, st, hreport, hst, hlt⟩ :=
    @exists_of_toOption secondRecord (fun r st => Decidable.decide
      (mae st.evidence r.chosen ≤ mae st.evidence baseline)) false
      (by decide +kernel)
  have hle := hall flat (fun t => scored_nonNegative) _
    (List.mem_of_getElem? (i := 1) rfl) record st hreport hst
  exact absurd hle (of_decide_eq_false hlt)

end BlendWitness

end Chain

end PredictiveAutoscaler.BlendSelection
