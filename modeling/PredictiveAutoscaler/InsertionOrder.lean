/-
The order of the keys of a dict.  A dict holds its keys in the order in which
they were set: a key that is there keeps its place, a new one comes last, and
one that was dropped and is set again comes last too.
-/
import PredictiveAutoscaler.KeyedGroups
import Mathlib.Data.List.Induction
import Mathlib.Data.List.Nodup
import Std.Data.ExtTreeMap

namespace PredictiveAutoscaler.InsertionOrder

open Std (ExtTreeMap)
open KeyedGroups

section Firsts

variable {α : Type} [DecidableEq α] {xs : List α}

/-- The distinct items, each at its first place. -/
def firsts (xs : List α) : List α :=
  xs.foldl (fun seen x => if x ∈ seen then seen else seen ++ [x]) []

theorem firsts_snoc_seen (xs : List α) (x : α) : firsts (xs ++ [x]) =
    if x ∈ firsts xs then firsts xs else firsts xs ++ [x] := by
  unfold firsts
  rw [List.foldl_append]
  rfl

@[simp] theorem mem_firsts {y : α} : y ∈ firsts xs ↔ y ∈ xs := by
  induction xs using List.reverseRecOn with
  | nil => simp [firsts]
  | append_singleton xs x ih =>
      rw [firsts_snoc_seen, List.mem_append, List.mem_singleton, ← ih]
      split
      · rename_i hx
        refine ⟨.inl, ?_⟩
        rintro (hy | rfl)
        · exact hy
        · exact hx
      · rw [List.mem_append, List.mem_singleton]

theorem firsts_snoc (xs : List α) (x : α) : firsts (xs ++ [x]) =
    if x ∈ xs then firsts xs else firsts xs ++ [x] := by
  rw [firsts_snoc_seen]
  simp only [mem_firsts]

theorem firsts_nodup (xs : List α) : (firsts xs).Nodup := by
  induction xs using List.reverseRecOn with
  | nil => exact List.nodup_nil
  | append_singleton xs x ih =>
      rw [firsts_snoc]
      split
      · exact ih
      · rename_i hx
        refine List.nodup_append.mpr ⟨ih, List.nodup_singleton x, ?_⟩
        intro y hy z hz hyz
        rw [List.mem_singleton.mp hz] at hyz
        exact hx (mem_firsts.mp (hyz ▸ hy))

theorem firsts_filter (p : α → Bool) (xs : List α) :
    firsts (xs.filter p) = (firsts xs).filter p := by
  induction xs using List.reverseRecOn with
  | nil => rfl
  | append_singleton xs x ih =>
      rw [List.filter_append, firsts_snoc]
      by_cases hp : p x = true
      · rw [List.filter_singleton, hp, cond_true, firsts_snoc, ih]
        by_cases hx : x ∈ xs
        · rw [if_pos hx, if_pos (List.mem_filter.mpr ⟨hx, hp⟩)]
        · rw [if_neg hx, if_neg fun h => hx (List.mem_filter.mp h).1,
            List.filter_append, List.filter_singleton, hp, cond_true]
      · rw [Bool.not_eq_true] at hp
        rw [List.filter_singleton, hp, cond_false, List.append_nil, ih]
        split
        · rfl
        · rw [List.filter_append, List.filter_singleton, hp, cond_false,
            List.append_nil]

/-- An item that is there already does not count again. -/
theorem firsts_firsts_snoc (xs : List α) (x : α) :
    firsts (firsts xs ++ [x]) = firsts (xs ++ [x]) := by
  have hidem : firsts (firsts xs) = firsts xs := by
    induction xs using List.reverseRecOn with
    | nil => rfl
    | append_singleton xs y ih =>
        rw [firsts_snoc]
        split
        · exact ih
        · rename_i hy
          rw [firsts_snoc, ih, if_neg (mt mem_firsts.mp hy)]
  rw [firsts_snoc, firsts_snoc, hidem]
  simp only [mem_firsts]

/-- What an update keeps of the items and of its own, which it may drop. -/
theorem firsts_filter_mem {ys : List α} {x : α} {p : α → Bool}
    (h : ys = (xs ++ [x]).filter p ∨ ys = xs.filter p) :
    firsts ((xs ++ [x]).filter (· ∈ ys)) = firsts ys := by
  have hkept : ∀ zs : List α, zs.filter (· ∈ zs.filter p) = zs.filter p := by
    intro zs
    refine List.filter_congr fun y hy => ?_
    rw [Bool.eq_iff_iff, decide_eq_true_eq, List.mem_filter]
    exact and_iff_right hy
  rcases h with rfl | rfl
  · rw [hkept]
  · rw [List.filter_append, hkept, List.filter_singleton]
    by_cases hx : x ∈ xs.filter p
    · rw [decide_eq_true hx, cond_true, firsts_snoc, if_pos hx]
    · rw [decide_eq_false hx, cond_false, List.append_nil]

end Firsts

section Order

variable {β : Type} {m m' : ExtTreeMap ℕ β} {k : ℕ}

/-- The keys of a map in the order of a dict. -/
structure DictOrder (m : ExtTreeMap ℕ β) where
  keys : List ℕ
  perm : keys.Perm m.keys

namespace DictOrder

theorem mem_keys (order : DictOrder m) : k ∈ order.keys ↔ k ∈ m := by
  rw [order.perm.mem_iff, ExtTreeMap.mem_keys]

/-- The order of the keys themselves: that of an empty dict, and of one whose
order nothing reads. -/
def sorted (m : ExtTreeMap ℕ β) : DictOrder m := ⟨m.keys, .refl _⟩

/-- The order after the key `k` was set and others may have been dropped. -/
def after (order : DictOrder m) (k : ℕ) (m' : ExtTreeMap ℕ β) :
    DictOrder m' where
  keys := (firsts (order.keys ++ [k])).filter (m'.contains ·) ++
    m'.keys.filter (· ∉ order.keys ++ [k])
  perm := by
    refine (List.perm_ext_iff_of_nodup ?_ ExtTreeMap.nodup_keys).mpr ?_
    · refine List.nodup_append.mpr ⟨(firsts_nodup _).filter _,
        ExtTreeMap.nodup_keys.filter _, ?_⟩
      rintro a ha b hb rfl
      have hold := mem_firsts.mp (List.mem_filter.mp ha).1
      have hnew := (List.mem_filter.mp hb).2
      exact absurd hold (by simpa using hnew)
    · intro j
      rw [List.mem_append, List.mem_filter, List.mem_filter, mem_firsts,
        ExtTreeMap.contains_iff_mem, ExtTreeMap.mem_keys, decide_eq_true_eq]
      tauto

/-- The entries of a dict, in its order. -/
def entries (order : DictOrder m) : List (ℕ × β) :=
  groupsAt (fun k => m[k]?) order.keys

theorem entries_perm (order : DictOrder m) : order.entries.Perm m.toList := by
  have hnodup : order.entries.Nodup := by
    unfold entries groupsAt
    refine (order.perm.nodup_iff.mpr ExtTreeMap.nodup_keys).filterMap ?_
    intro j k entry hj hk
    obtain ⟨b, -, rfl⟩ := Option.map_eq_some_iff.mp hj
    obtain ⟨c, -, hbc⟩ := Option.map_eq_some_iff.mp hk
    exact (congrArg Prod.fst hbc).symm
  have htoList : m.toList.Nodup :=
    ExtTreeMap.distinct_keys_toList.imp fun hne heq => by
      subst heq
      exact hne Std.ReflCmp.compare_self
  refine (List.perm_ext_iff_of_nodup hnodup htoList).mpr ?_
  intro entry
  rw [entries, mem_groupsAt, order.mem_keys,
    ExtTreeMap.mem_toList_iff_getElem?_eq_some]
  refine and_iff_right_of_imp ?_
  intro h
  rw [← ExtTreeMap.isSome_getElem?_iff_mem, h]
  rfl

/-- A dict whose keys came in the order of `xs` and that takes the key `k` has
the order of what it keeps of them, with or without `k`. -/
theorem keys_after {order : DictOrder m} {xs ys : List ℕ} {p : ℕ → Bool}
    (hkeys : order.keys = firsts xs) (hmem : ∀ j, j ∈ m' ↔ j ∈ ys)
    (hys : ys = (xs ++ [k]).filter p ∨ ys = xs.filter p) :
    (order.after k m').keys = firsts ys := by
  have hsub : ys ⊆ xs ++ [k] := by
    rcases hys with rfl | rfl
    · exact fun j hj => (List.mem_filter.mp hj).1
    · exact fun j hj => List.mem_append_left _ (List.mem_filter.mp hj).1
  have hnone : m'.keys.filter (· ∉ order.keys ++ [k]) = [] := by
    rw [List.filter_eq_nil_iff]
    intro j hj
    rw [ExtTreeMap.mem_keys, hmem] at hj
    have hin := hsub hj
    rw [List.mem_append] at hin
    simpa [hkeys, or_iff_not_imp_left] using hin
  have hcontains : ∀ j, m'.contains j = decide (j ∈ ys) := by
    intro j
    rw [Bool.eq_iff_iff, ExtTreeMap.contains_iff_mem, hmem, decide_eq_true_eq]
  calc (order.after k m').keys
      = (firsts (order.keys ++ [k])).filter (m'.contains ·) ++
          m'.keys.filter (· ∉ order.keys ++ [k]) := rfl
    _ = (firsts (xs ++ [k])).filter (· ∈ ys) := by
        rw [hnone, List.append_nil, hkeys, firsts_firsts_snoc]
        simp only [hcontains]
    _ = firsts ys := by rw [← firsts_filter, firsts_filter_mem hys]

end DictOrder

end Order

end PredictiveAutoscaler.InsertionOrder
