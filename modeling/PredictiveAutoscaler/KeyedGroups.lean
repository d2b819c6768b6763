/-
Items grouped by a key: groups read by their keys, and sums, least and greatest
values over groups against those over the items themselves.
-/
import Mathlib.Algebra.BigOperators.Group.List.Basic
import Mathlib.Algebra.Order.BigOperators.Group.List
import Mathlib.Algebra.Order.Ring.Nat

namespace PredictiveAutoscaler.KeyedGroups

variable {α : Type}

/-- The groups at some keys. -/
def groupsAt {β : Type} (group : ℕ → Option β) (keys : List ℕ) :
    List (ℕ × β) :=
  keys.filterMap fun k => (group k).map fun b => (k, b)

theorem mem_groupsAt {β : Type} {group : ℕ → Option β} {keys : List ℕ}
    {entry : ℕ × β} : entry ∈ groupsAt group keys ↔
      entry.1 ∈ keys ∧ group entry.1 = some entry.2 := by
  unfold groupsAt
  rw [List.mem_filterMap]
  constructor
  · rintro ⟨k, hk, hentry⟩
    obtain ⟨b, hb, rfl⟩ := Option.map_eq_some_iff.mp hentry
    exact ⟨hk, hb⟩
  · rintro ⟨hk, hb⟩
    exact ⟨entry.1, hk, by rw [hb]; rfl⟩

/-- Entries are read by their keys. -/
theorem groupsAt_filter {β : Type} (group : ℕ → Option β) (keys : List ℕ)
    (p : ℕ → Bool) :
    (groupsAt group keys).filter (fun entry => p entry.1) =
      groupsAt group (keys.filter p) := by
  unfold groupsAt
  rw [List.filter_filterMap, List.filterMap_filter]
  refine List.filterMap_congr fun k _ => ?_
  cases group k with
  | none => simp
  | some b => cases hp : p k <;> simp [hp]

theorem groupsAt_concat {β : Type} (group : ℕ → Option β) (keys : List ℕ)
    (k : ℕ) : groupsAt group (keys ++ [k]) =
      groupsAt group keys ++ ((group k).map fun b => (k, b)).toList := by
  unfold groupsAt
  rw [List.filterMap_append]
  cases h : group k <;> simp [h]

theorem min?_eq_of_mem_iff {xs ys : List ℕ} (h : ∀ x, x ∈ xs ↔ x ∈ ys) :
    xs.min? = ys.min? := by
  refine Option.ext fun m => ?_
  simp only [List.min?_eq_some_iff, h]

theorem max?_eq_of_mem_iff {xs ys : List ℕ} (h : ∀ x, x ∈ xs ↔ x ∈ ys) :
    xs.max? = ys.max? := by
  refine Option.ext fun m => ?_
  simp only [List.max?_eq_some_iff, h]

theorem min?_append {xs ys : List ℕ} {m : ℕ} (h : ys.min? = some m) :
    (xs ++ ys).min? = some (min (xs.min?.getD m) m) := by
  induction xs with
  | nil => simp [h]
  | cons x xs ih =>
      rw [List.cons_append, List.min?_cons, ih, List.min?_cons]
      cases xs.min? with
      | none => simp
      | some k => simp [min_assoc]

theorem max?_append {xs ys : List ℕ} {m : ℕ} (h : ys.max? = some m) :
    (xs ++ ys).max? = some (max (xs.max?.getD m) m) := by
  induction xs with
  | nil => simp [h]
  | cons x xs ih =>
      rw [List.cons_append, List.max?_cons, ih, List.max?_cons]
      cases xs.max? with
      | none => simp
      | some k => simp [max_assoc]

/-- The items of one more key come beside those of the others. -/
theorem filter_mem_concat_perm (key : α → ℕ) {keys : List ℕ} {k : ℕ}
    (hk : k ∉ keys) (items : List α) :
    (items.filter fun x => key x ∈ keys ++ [k]).Perm
      ((items.filter fun x => key x ∈ keys) ++
        items.filter fun x => key x = k) := by
  induction items with
  | nil => simp
  | cons x items ih =>
      by_cases hx : key x = k
      · subst hx
        simpa [hk] using (ih.cons x).trans List.perm_middle.symm
      · by_cases hmem : key x ∈ keys
        · simpa [hx, hmem] using ih.cons x
        · simpa [hx, hmem] using ih

/-- Filtering out a summand that is not zero makes a sum smaller. -/
theorem sum_filter_lt {p : α → Bool} {x : α} {xs : List α} (g : α → ℕ)
    (hx : x ∈ xs) (hp : ¬p x = true) (hg : 0 < g x) :
    ((xs.filter p).map g).sum < (xs.map g).sum := by
  induction xs with
  | nil => cases hx
  | cons y ys ih =>
      have hle : ((ys.filter p).map g).sum ≤ (ys.map g).sum :=
        (List.filter_sublist.map g).sum_le_sum fun _ _ => Nat.zero_le _
      rcases List.mem_cons.mp hx with rfl | hx
      · rw [List.filter_cons_of_neg hp, List.map_cons, List.sum_cons]
        omega
      · have hrest := ih hx
        cases hy : p y <;> simp [hy] <;> omega

/-- A sum over keys is a sum over the items that have them. -/
theorem sum_over_keys (key g : α → ℕ) (items : List α) {keys : List ℕ}
    (hkeys : keys.Nodup) :
    (keys.map fun k =>
        ((items.filter fun x => key x = k).map g).sum).sum =
      ((items.filter fun x => key x ∈ keys).map g).sum := by
  induction items with
  | nil => simp
  | cons x rest ih =>
      have hone : (keys.map fun k => if key x = k then g x else 0).sum =
          if key x ∈ keys then g x else 0 := by
        clear ih
        induction keys with
        | nil => rfl
        | cons k ks ihk =>
            obtain ⟨hnew, hks⟩ := List.nodup_cons.mp hkeys
            rw [List.map_cons, List.sum_cons, ihk hks]
            by_cases hk : key x = k
            · simp [hk, hnew]
            · simp [hk]
      have hcons : ∀ p : α → Bool,
          (((x :: rest).filter p).map g).sum =
            (if p x then g x else 0) + ((rest.filter p).map g).sum := by
        intro p
        cases hp : p x <;> simp [hp]
      simp only [hcons, decide_eq_true_eq]
      rw [List.sum_map_add, hone, ih]

end PredictiveAutoscaler.KeyedGroups
