/-
Moving averages over lists with gaps: a rolling mean that needs its whole
window, and the same centred mean computed from prefix sums.
-/
import Mathlib.Algebra.BigOperators.Group.List.Basic
import Mathlib.Algebra.Field.Basic

namespace PredictiveAutoscaler.MovingAverage

universe u

section Shift

variable {K : Type u}

/-- Each place takes the next one's value, the last has none. -/
def shiftBack (xs : List (Option K)) : List (Option K) := (xs ++ [none]).drop 1

@[simp] theorem length_shiftBack (xs : List (Option K)) :
    (shiftBack xs).length = xs.length := by
  rw [shiftBack, List.length_drop, List.length_append, List.length_singleton]
  exact Nat.add_sub_cancel _ _

theorem getElem_shiftBack (xs : List (Option K)) {i : ℕ}
    (hi : i + 1 < xs.length) (hi' : i < (shiftBack xs).length) :
    (shiftBack xs)[i] = xs[i + 1] := by
  simp only [shiftBack, List.getElem_drop, Nat.add_comm 1 i]
  exact List.getElem_append_left hi

/-- Two neighbours of a list. -/
theorem drop_take_two {xs : List K} {i : ℕ} (hi : i + 1 < xs.length) :
    (xs.take (i + 2)).drop i = [xs[i], xs[i + 1]] := by
  rw [List.drop_take, Nat.add_sub_cancel_left,
    List.drop_eq_getElem_cons (Nat.lt_of_succ_lt hi),
    List.drop_eq_getElem_cons hi]
  rfl

end Shift

variable {K : Type u} [Field K]

/-- The mean of the present values of the window that ends `ahead` places
after each place; a window with fewer values than its width has none. -/
def rollingMean (window ahead : ℕ) (xs : List (Option K)) : List (Option K) :=
  (List.range xs.length).map fun i =>
    let stop := i + 1 + ahead
    let seen := ((xs.take stop).drop (stop - window)).filterMap id
    if seen.length < window then none else some (seen.sum / seen.length)

/-- The sums of the first values, from none of them on. -/
def prefixSums (xs : List K) : List K := xs.scanl (· + ·) 0

/-- The means of the windows of a width around each place, from the sums. -/
def centredMean (width : ℕ) (xs : List K) : List (Option K) :=
  (List.range xs.length).map fun i =>
    if width / 2 ≤ i ∧ i - width / 2 + width ≤ xs.length then
      some (((prefixSums xs).getD (i - width / 2 + width) 0 -
        (prefixSums xs).getD (i - width / 2) 0) / width)
    else none

/-- The mean of two, when both are there. -/
def midpoint : Option K → Option K → Option K
  | some a, some b => some ((a + b) / 2)
  | _, _ => none

/-- The mean of each value and the next; the last place has none. -/
def averageNext (xs : List (Option K)) : List (Option K) :=
  List.zipWith midpoint xs (shiftBack xs)

@[simp] theorem length_rollingMean (window ahead : ℕ) (xs : List (Option K)) :
    (rollingMean window ahead xs).length = xs.length := by
  rw [rollingMean, List.length_map, List.length_range]

@[simp] theorem length_centredMean (width : ℕ) (xs : List K) :
    (centredMean width xs).length = xs.length := by
  rw [centredMean, List.length_map, List.length_range]

@[simp] theorem length_averageNext (xs : List (Option K)) :
    (averageNext xs).length = xs.length := by
  rw [averageNext, List.length_zipWith, length_shiftBack, Nat.min_self]

theorem getD_prefixSums (xs : List K) {i : ℕ} (hi : i ≤ xs.length) :
    (prefixSums xs).getD i 0 = (xs.take i).sum := by
  rw [List.getD_eq_getElem?_getD, prefixSums, List.getElem?_scanl, if_pos hi,
    Option.getD_some, List.sum_eq_foldl]

/-- Two sums differ by what lies between them. -/
theorem sum_take_sub (xs : List K) (lo width : ℕ) :
    (xs.take (lo + width)).sum - (xs.take lo).sum =
      ((xs.drop lo).take width).sum := by
  rw [List.take_add, List.sum_append, add_sub_cancel_left]

/-- Over complete values the rolling mean, centred, is the one from sums. -/
theorem rollingMean_eq_centredMean {width : ℕ} (hwidth : 0 < width)
    (xs : List K) :
    rollingMean width ((width - 1) / 2) (xs.map some) =
      centredMean width xs := by
  unfold rollingMean centredMean
  rw [List.length_map]
  refine List.map_congr_left fun i hi => ?_
  have hin := List.mem_range.mp hi
  have hseen : (((xs.map some).take (i + 1 + (width - 1) / 2)).drop
      (i + 1 + (width - 1) / 2 - width)).filterMap id =
        (xs.take (i + 1 + (width - 1) / 2)).drop
          (i + 1 + (width - 1) / 2 - width) := by
    rw [← List.map_take, ← List.map_drop, List.filterMap_map]
    exact List.filterMap_some
  dsimp only
  rw [hseen, List.drop_take, List.length_take, List.length_drop]
  by_cases hinside : width / 2 ≤ i ∧ i - width / 2 + width ≤ xs.length
  · have hlo : i + 1 + (width - 1) / 2 - width = i - width / 2 := by omega
    have hwhole : i + 1 + (width - 1) / 2 - (i - width / 2) = width := by omega
    have hfull : min width (xs.length - (i - width / 2)) = width := by omega
    rw [if_pos hinside, getD_prefixSums xs hinside.2,
      getD_prefixSums xs (by omega), sum_take_sub, hlo, hwhole, hfull,
      if_neg (lt_irrefl _)]
  · rw [if_neg hinside, if_pos (by omega)]

/-- The rolling mean of two over the values shifted back is the mean of each
value and the next, when the first place has none. -/
theorem rollingMean_two_shiftBack {xs : List (Option K)}
    (h : xs.head? = some none) :
    rollingMean 2 0 (shiftBack xs) = averageNext xs := by
  refine List.ext_getElem (by simp) fun i hi hi' => ?_
  have hin : i < xs.length := by simpa using hi
  simp only [rollingMean, averageNext, List.getElem_map, List.getElem_range,
    List.getElem_zipWith, Nat.add_zero]
  cases i with
  | zero =>
      have hfirst : xs[0] = none := by
        rw [List.head?_eq_getElem?, List.getElem?_eq_getElem hin] at h
        exact Option.some.inj h
      have hshort : ((((shiftBack xs).take (0 + 1)).drop
          (0 + 1 - 2)).filterMap id).length < 2 := by
        refine (List.length_filterMap_le _ _).trans_lt ?_
        rw [List.length_drop, List.length_take]
        omega
      rw [if_pos hshort, hfirst]
      rfl
  | succ i =>
      have hnext : i + 1 < (shiftBack xs).length := by
        rw [length_shiftBack]
        exact hin
      rw [show i + 1 + 1 - 2 = i from rfl, drop_take_two hnext,
        getElem_shiftBack xs hin (Nat.lt_of_succ_lt hnext)]
      cases xs[i + 1] with
      | none => cases (shiftBack xs)[i + 1] <;> rfl
      | some a =>
          cases (shiftBack xs)[i + 1] with
          | none => rfl
          | some b => simp [midpoint]

end PredictiveAutoscaler.MovingAverage
