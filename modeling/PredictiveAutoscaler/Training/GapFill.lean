/-
The filling of bounded interior gaps of a grid series, with every parameter of
the rule.  A gap is filled between two consecutive observations of one
partition; a run is selected by its length or by the sample it ends with, and
fills are taken back until they are a small share of it.  The cap on the fills
is the code's double; interpolated values are exact.
-/
import PredictiveAutoscaler.Binary64
import PredictiveAutoscaler.MaximalRuns

namespace PredictiveAutoscaler.GapFill

open MaximalRuns

/-- A sample of a grid series; the instant is in seconds. -/
structure Sample where
  time : ℤ
  value : ℚ
deriving DecidableEq, Repr

def gridSeconds : ℤ := 600

def maxMissingSlots : ℤ := 3

def maxFillFraction : ℚ := binary64 (5 / 100)

inductive GapRefusal
  | offGrid
  | tooLong
  | afterCutoff
  | crossesBoundary
  | overlapsMask
  /-- Taken back because of the share of filled slots. -/
  | removed
deriving DecidableEq, Repr

/-- A gap that was considered, with its two endpoints. -/
structure Gap where
  left : Sample
  right : Sample
  missing : ℤ
  filled : Bool := false
  reason : Option GapRefusal := none
deriving DecidableEq, Repr

/-- `_partition`: how many boundaries are not after an instant. -/
def partition (t : ℤ) (boundaries : List ℤ) : ℕ :=
  (boundaries.filter (· ≤ t)).length

structure Filled where
  run : List Sample
  flags : List Bool
  gaps : List Gap

/-- The parameters of a fill. -/
structure FillRule where
  grid : ℤ
  maxMissing : ℤ
  maxFillFraction : ℚ
  grid_pos : 0 < grid
  fraction_nonneg : 0 ≤ maxFillFraction

namespace FillRule

variable (rule : FillRule)

/-- `max_fill_fraction * len(run)`. -/
def cap (n : ℕ) : ℚ := binary64 (rule.maxFillFraction * n)

/-- One slot apart. -/
def Next (p q : Sample) : Prop := q.time - p.time = rule.grid

instance : DecidableRel rule.Next := fun p q =>
  inferInstanceAs (Decidable (q.time - p.time = rule.grid))

/-- The instants of the missing slots of a gap. -/
def slots (g : Gap) : List ℤ :=
  (List.range g.missing.toNat).map fun k : ℕ =>
    g.left.time + (k + 1) * rule.grid

/-- The linear values of the missing slots. -/
def values (g : Gap) : List Sample :=
  (List.range g.missing.toNat).map fun k : ℕ =>
    ⟨g.left.time + (k + 1) * rule.grid,
      g.left.value + (g.right.value - g.left.value) *
        ((k + 1) / (g.missing + 1))⟩

/-- The gap between two consecutive observations, if there is one. -/
def considerGap (cutoff : Option ℤ) (boundaries : List ℤ)
    (forbidden : List (ℤ × ℤ)) (p q : Sample) : Option Gap :=
  if q.time - p.time ≤ rule.grid then none
  else
    let gap : Gap := ⟨p, q, (q.time - p.time) / rule.grid - 1, false, none⟩
    if (q.time - p.time) % rule.grid ≠ 0 then
      some { gap with reason := some .offGrid }
    else if rule.maxMissing < gap.missing then
      some { gap with reason := some .tooLong }
    else if cutoff.any (· < q.time) then
      some { gap with reason := some .afterCutoff }
    else if boundaries ≠ [] ∧
        partition p.time boundaries ≠ partition q.time boundaries then
      some { gap with reason := some .crossesBoundary }
    else if forbidden.any fun i => decide (i.1 ≤ q.time - rule.grid) &&
        decide (p.time + rule.grid ≤ i.2) then
      some { gap with reason := some .overlapsMask }
    else some { gap with filled := true }

/-- The gaps between consecutive observations. -/
def considerGaps (cutoff : Option ℤ) (boundaries : List ℤ)
    (forbidden : List (ℤ × ℤ)) : List Sample → List Gap
  | p :: q :: rest =>
      (rule.considerGap cutoff boundaries forbidden p q).toList ++
        considerGaps cutoff boundaries forbidden (q :: rest)
  | _ => []

/-- The filled slots. -/
def fills (gaps : List Gap) : List Sample :=
  (gaps.filter (·.filled)).flatMap rule.values

/-- The observations and the filled slots, in order. -/
def merged (points : List Sample) (gaps : List Gap) : List Sample :=
  (points ++ rule.fills gaps).insertionSort fun a b => a.time ≤ b.time

/-- `_run_ending_at`: the contiguous run that ends at an instant. -/
def runEndingAt (series : List Sample) (endAt : ℤ) : List Sample :=
  match series.findIdx? fun p => p.time = endAt with
  | none => []
  | some j => trailingRun rule.Next (series.take (j + 1))

/-- `_longest_run`; of two as long, the earlier. -/
def longestRun (series : List Sample) : List Sample :=
  MaximalRuns.longestRun rule.Next series

/-- The run of a series that is selected. -/
def select (endAt : Option ℤ) (series : List Sample) : List Sample :=
  match endAt with
  | some t => rule.runEndingAt series t
  | none => rule.longestRun series

/-- A slot of the series is filled. -/
def IsFilled (gaps : List Gap) (p : Sample) : Prop :=
  p.time ∈ (rule.fills gaps).map Sample.time

instance (gaps : List Gap) (p : Sample) : Decidable (rule.IsFilled gaps p) :=
  inferInstanceAs (Decidable (_ ∈ _))

/-- The samples of a run that are filled. -/
def filledIn (gaps : List Gap) (run : List Sample) : List Sample :=
  run.filter fun p => rule.IsFilled gaps p

/-- Take back the filled gap that holds a slot. -/
def removeGap (t : ℤ) : List Gap → List Gap
  | [] => []
  | g :: gs =>
      if g.filled ∧ t ∈ rule.slots g then
        { g with filled := false, reason := some .removed } :: gs
      else g :: removeGap t gs

/-- The loop that takes back the latest filled gap of the selected run until
the filled slots are a small enough share of it, for a number of rounds. -/
def enforceCap (points : List Sample) (endAt : Option ℤ) :
    ℕ → List Gap → List Gap
  | 0, gaps => gaps
  | rounds + 1, gaps =>
      let run := rule.select endAt (rule.merged points gaps)
      let filled := rule.filledIn gaps run
      if rule.cap run.length < filled.length then
        match (filled.map Sample.time).max? with
        | none => gaps
        | some latest => enforceCap points endAt rounds
            (rule.removeGap latest gaps)
      else gaps

/-- `sorted(points)`, of observations at distinct times. -/
def sorted (points : List Sample) : List Sample :=
  points.insertionSort fun a b => a.time ≤ b.time

/-- `fill_interior_gaps`. -/
def fillInteriorGaps (points : List Sample) (cutoff : Option ℤ)
    (boundaries : List ℤ) (forbidden : List (ℤ × ℤ)) (endAt : Option ℤ) :
    Filled :=
  let pts := sorted points
  let considered := rule.considerGaps cutoff boundaries forbidden pts
  let gaps := rule.enforceCap pts endAt considered.length considered
  let run := rule.select endAt (rule.merged pts gaps)
  { run, flags := run.map fun p => decide (rule.IsFilled gaps p), gaps }

end FillRule

/-- The rule of the defaults on a grid. -/
def defaultRule (grid : ℤ) (hgrid : 0 < grid) : FillRule where
  grid
  maxMissing := maxMissingSlots
  maxFillFraction
  grid_pos := hgrid
  fraction_nonneg := binary64_nonneg (by norm_num)

/-- The ten-minute rule. -/
def tenMinutes : FillRule := defaultRule gridSeconds (by decide)

end PredictiveAutoscaler.GapFill
