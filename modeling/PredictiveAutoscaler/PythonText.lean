/-
White space as Python's strings see it.
-/
import Mathlib.Data.Nat.Notation

namespace PredictiveAutoscaler

/-- The white space of `str.strip`. -/
def isSpace (c : Char) : Bool :=
  let n := c.toNat
  (9 ≤ n && n ≤ 13) || (28 ≤ n && n ≤ 32) || n == 0x85 || n == 0xA0 ||
    n == 0x1680 || (0x2000 ≤ n && n ≤ 0x200A) || n == 0x2028 ||
    n == 0x2029 || n == 0x202F || n == 0x205F || n == 0x3000

/-- `str.strip` -/
def strip (s : String) : String :=
  .ofList (((s.toList.dropWhile isSpace).reverse.dropWhile isSpace).reverse)

/-- A stripped text does not end in white space. -/
theorem strip_ne_concat {s : String} {x : List Char} {c : Char}
    (hspace : isSpace c = true) : (strip s).toList ≠ x ++ [c] := by
  intro h
  unfold strip at h
  rw [String.toList_ofList, List.reverse_eq_iff, List.reverse_append,
    List.reverse_singleton, List.singleton_append] at h
  have hhead := List.head?_dropWhile_not isSpace
    (s.toList.dropWhile isSpace).reverse
  rw [h, List.head?_cons] at hhead
  exact Bool.false_ne_true (hhead.symm.trans hspace)

end PredictiveAutoscaler
