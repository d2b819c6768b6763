/-
What the gates read from the evidence: sums over a trailing window of whole
hours, availability, daily coverage and the sums of the retained pairs.  A
trailing window covers the hour buckets from the first whole hour at or after
its start to the hour holding the present.  Floats are added in the order in
which the dict of the buckets holds its hours.
-/
import PredictiveAutoscaler.Forecasting.Ledger
import PredictiveAutoscaler.InsertionOrder

namespace PredictiveAutoscaler.Forecasting

open Std (ExtTreeMap)
open InsertionOrder (DictOrder)

/-- `_hours`: the first and the last hour bucket of a trailing window. -/
def trailingHours (now seconds : ℕ) : ℤ × ℤ :=
  (-(-((now : ℤ) - seconds) / hour), now / hour)

/-- The hour bucket `k` lies in the trailing window. -/
def inTrailing (now seconds k : ℕ) : Bool :=
  (trailingHours now seconds).1 ≤ k ∧ k ≤ (trailingHours now seconds).2

def Bucket.add (a b : Bucket) : Bucket where
  iss := a.iss + b.iss
  gIss := a.gIss + b.gIss
  sc := a.sc + b.sc
  un := a.un + b.un
  gSc := a.gSc + b.gSc
  gUn := a.gUn + b.gUn
  aBd := a.aBd + b.aBd
  aCv := a.aCv + b.aCv
  gBd := a.gBd + b.gBd
  gCv := a.gCv + b.gCv
  nStep := a.nStep + b.nStep
  pin := binary64 (a.pin + b.pin)
  abs := binary64 (a.abs + b.abs)
  bias := binary64 (a.bias + b.bias)
  st0 := binary64 (a.st0 + b.st0)
  st1 := binary64 (a.st1 + b.st1)
  st2 := binary64 (a.st2 + b.st2)
  rIss := a.rIss + b.rIss
  rSc := a.rSc + b.rSc
  rUn := a.rUn + b.rUn
  rBd := a.rBd + b.rBd
  rCv := a.rCv + b.rCv

/-- The sums of the buckets in a trailing window, as they come. -/
def bucketSums (entries : List (ℕ × Bucket)) (now seconds : ℕ) : Bucket :=
  (entries.filter fun entry => inTrailing now seconds entry.1).foldl
    (fun sum entry => sum.add entry.2) {}

/-- A ledger as a process holds it: its buckets are a dict. -/
structure HeldLedger where
  ledger : Ledger
  order : DictOrder ledger.buckets

namespace HeldLedger

/-- `new_ledger`. -/
def fresh (epoch : EvidenceKey) (model : Model) (recipe : String)
    (intervalSeconds : ℕ) : HeldLedger :=
  ⟨.fresh epoch model recipe intervalSeconds, .sorted _⟩

/-- The next ledger, after a record of the hour `k`. -/
def counted (held : HeldLedger) (k : ℕ) (ledger : Ledger) : HeldLedger :=
  ⟨ledger, held.order.after k ledger.buckets⟩

/-- `note_issuance`. -/
def noteIssuance (held : HeldLedger) (note : IssuanceNote) :
    Except Raised HeldLedger :=
  (held.ledger.noteIssuance note).map (held.counted (note.origin / hour))

/-- `note_outcome`. -/
def noteOutcome (held : HeldLedger) (r : EvidenceRecord)
    (leadSeconds recentN : ℕ) (nominalMiscoverage : ℚ) :
    Except Raised HeldLedger :=
  (held.ledger.noteOutcome r leadSeconds recentN nominalMiscoverage).map
    (held.counted (r.cal.windowEnd / hour))

/-- `window_sums`: the bucket sums over the trailing window. -/
def windowSums (held : HeldLedger) (now seconds : ℕ) : Bucket :=
  bucketSums held.order.entries now seconds

end HeldLedger

/-- The counts of a bucket, without its sums of errors. -/
def Bucket.counts (b : Bucket) : Bucket :=
  { b with pin := 0, abs := 0, bias := 0, st0 := 0, st1 := 0, st2 := 0 }

/-- The counts of `window_sums`, which are the same in every order and are all
that the gates read. -/
def Ledger.windowCounts (ledger : Ledger) (now seconds : ℕ) : Bucket :=
  (bucketSums ledger.buckets.toList now seconds).counts

/-- Prospective windows in the trailing window whose truth deadline passed
without an outcome. -/
def Ledger.overdue (ledger : Ledger) (now seconds : ℕ) : ℕ :=
  ledger.pending.toList.countP fun entry =>
    inTrailing now seconds (entry.1 / hour) && decide (entry.2 ≤ now)

/-- The grid origins in the trailing window since the first prospective
issuance. -/
def Ledger.expectedOpportunities (ledger : Ledger) (now seconds : ℕ) : ℕ :=
  match ledger.firstIssue with
  | none => 0
  | some first =>
      let dt : ℤ := ledger.intervalSeconds
      let start := max ((trailingHours now seconds).1 * hour) first
      let start := -(-start / dt) * dt
      let last := now / dt * dt
      if start ≤ last then ((last - start) / dt + 1).toNat else 0

/-- `_ratio`: nothing to count gives no ratio. -/
def ratio (num den : ℕ) : Option ℚ :=
  if den = 0 then none else some (binary64 (num / den))

structure Availability where
  outcomes : Option ℚ
  predictions : Option ℚ
  overdue : ℕ
deriving DecidableEq, Repr

def Ledger.availability (ledger : Ledger) (now : ℕ) (seconds : ℕ := day) :
    Availability :=
  let w := ledger.windowCounts now seconds
  let late := ledger.overdue now seconds
  let expected := ledger.expectedOpportunities now seconds
  { outcomes := ratio w.sc (w.sc + w.un + late)
    predictions := ratio (min w.iss expected) expected
    overdue := late }

/-- The bounded and covered gate windows of each UTC day in the window. -/
def Ledger.dailyGateCoverage (ledger : Ledger) (now seconds : ℕ) :
    List (ℕ × ℕ × ℕ) :=
  ((ledger.buckets.toList.filter fun entry =>
    inTrailing now seconds entry.1).foldl
      (fun (days : ExtTreeMap ℕ (ℕ × ℕ)) entry =>
        days.alter (entry.1 * hour / day) fun d =>
          let d := d.getD (0, 0)
          some (d.1 + entry.2.gBd, d.2 + entry.2.gCv)) ∅).toList

structure PairSums where
  n : ℕ := 0
  chal : ℚ := 0
  base : ℚ := 0
  first : Option ℕ := none
  last : Option ℕ := none
deriving DecidableEq, Repr

/-- Sums with one more bucket. -/
def PairSums.add (sum : PairSums) (b : PairBucket) : PairSums where
  n := sum.n + b.n
  chal := binary64 (sum.chal + b.chal)
  base := binary64 (sum.base + b.base)
  first := some (min (sum.first.getD b.first) b.first)
  last := some (max (sum.last.getD b.last) b.last)

/-- Pairs as a process holds them: their buckets are a dict. -/
structure HeldPairs where
  pairs : Pairs
  order : DictOrder pairs.buckets

/-- `new_pairs`. -/
def HeldPairs.fresh (epoch : EvidenceKey) (challenger : Model)
    (challengerRecipe baselineRecipe : String)
    (baseline : Model := .seasonalNaive) : HeldPairs :=
  ⟨.fresh epoch challenger challengerRecipe baselineRecipe baseline, .sorted _⟩

/-- `note_pair`. -/
def HeldPairs.notePair (held : HeldPairs) (r : EvidenceRecord)
    (leadSeconds : ℕ) (nominalMiscoverage : ℚ) : Except Raised HeldPairs :=
  (held.pairs.notePair r leadSeconds nominalMiscoverage).map fun pairs =>
    ⟨pairs, held.order.after (r.cal.windowEnd / hour) pairs.buckets⟩

/-- `pair_sums`: the retained pairs in the trailing window. -/
def HeldPairs.sums (held : HeldPairs) (now seconds : ℕ) : PairSums :=
  (held.order.entries.filter fun entry =>
    inTrailing now seconds entry.1).foldl (fun sum entry => sum.add entry.2) {}

/-- The span of the window ends of the retained pairs. -/
def PairSums.span (sums : PairSums) : ℤ :=
  if sums.n = 0 then 0
  else (sums.last.getD 0 : ℤ) - sums.first.getD 0

theorem Bucket.add_counts (a b : Bucket) :
    (a.add b).counts = a.counts.add b.counts := by
  simp [Bucket.add, Bucket.counts]

theorem bucketSums_counts (entries : List (ℕ × Bucket)) (now seconds : ℕ) :
    (bucketSums entries now seconds).counts =
      ((entries.filter fun entry => inTrailing now seconds entry.1).map
        fun entry => entry.2.counts).foldl Bucket.add ({} : Bucket) := by
  unfold bucketSums
  generalize entries.filter _ = kept
  rw [List.foldl_map]
  have hstart : ({} : Bucket) = ({} : Bucket).counts := rfl
  conv_rhs => rw [hstart]
  generalize ({} : Bucket) = start
  induction kept generalizing start with
  | nil => rfl
  | cons entry rest ih =>
      rw [List.foldl_cons, ih, Bucket.add_counts, List.foldl_cons]

/-- Counts are added up in any order. -/
theorem bucketSums_perm {entries entries' : List (ℕ × Bucket)}
    (h : entries.Perm entries') (now seconds : ℕ) :
    (bucketSums entries now seconds).counts =
      (bucketSums entries' now seconds).counts := by
  rw [bucketSums_counts, bucketSums_counts]
  refine List.Perm.foldl_eq' ((h.filter _).map _) ?_ _
  intro a ha b hb sum
  obtain ⟨first, -, rfl⟩ := List.mem_map.mp ha
  obtain ⟨second, -, rfl⟩ := List.mem_map.mp hb
  simp [Bucket.add, Bucket.counts, Nat.add_right_comm]

/-- What the gates read is what `window_sums` counts. -/
theorem HeldLedger.windowSums_counts (held : HeldLedger) (now seconds : ℕ) :
    (held.windowSums now seconds).counts =
      held.ledger.windowCounts now seconds :=
  bucketSums_perm held.order.entries_perm now seconds

end PredictiveAutoscaler.Forecasting
