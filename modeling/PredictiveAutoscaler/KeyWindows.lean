/-
Ordered maps whose keys stay in a window.  A map that is pruned to the keys of
a window, all of them multiples of a step, holds no more entries than the
window has steps, however many were ever inserted.
-/
import Mathlib.Order.Interval.Finset.Nat
import Std.Data.ExtTreeMap

namespace PredictiveAutoscaler.KeyWindows

open Std (ExtTreeMap)

variable {β : Type} {m : ExtTreeMap ℕ β}

/-- What is pruned by the key is there when its key is kept. -/
theorem mem_filter {p : ℕ → Bool} {k : ℕ} :
    k ∈ m.filter (fun k _ => p k) ↔ k ∈ m ∧ p k = true := by
  rw [← ExtTreeMap.isSome_getElem?_iff_mem, ExtTreeMap.getElem?_filter',
    ← ExtTreeMap.isSome_getElem?_iff_mem]
  cases m[k]? with
  | none => simp
  | some b => cases p k <;> simp

theorem mem_insert {k key : ℕ} {b : β} :
    k ∈ m.insert key b ↔ k = key ∨ k ∈ m := by
  rw [ExtTreeMap.mem_insert, Nat.compare_eq_eq, eq_comm]

theorem mem_erase {k key : ℕ} :
    k ∈ m.erase key ↔ k ≠ key ∧ k ∈ m := by
  rw [ExtTreeMap.mem_erase, ne_eq, Nat.compare_eq_eq, ne_comm]

/-- A key that is there after an update was updated or was there before. -/
theorem mem_alter {k key : ℕ} {f : Option β → Option β}
    (h : k ∈ m.alter key f) : k = key ∨ k ∈ m := by
  rw [ExtTreeMap.mem_alter] at h
  split at h
  · rename_i heq
    exact .inl (Nat.compare_eq_eq.mp heq).symm
  · exact .inr h

/-- Keys that are told apart by their places in an interval are no more than
its length. -/
theorem size_le_of_places (f : ℕ → ℕ) {a n : ℕ}
    (hplace : ∀ k ∈ m, a < f k ∧ f k ≤ a + n)
    (hapart : ∀ k ∈ m, ∀ l ∈ m, f k = f l → k = l) : m.size ≤ n := by
  have hnodup : (m.keys.map f).Nodup := by
    refine List.Nodup.map_on (fun k hk l hl => ?_) ExtTreeMap.nodup_keys
    exact hapart k (ExtTreeMap.mem_keys.mp hk) l (ExtTreeMap.mem_keys.mp hl)
  have hsub : (m.keys.map f).toFinset ⊆ Finset.Ioc a (a + n) := by
    intro x hx
    obtain ⟨k, hk, rfl⟩ := List.mem_map.mp (List.mem_toFinset.mp hx)
    exact Finset.mem_Ioc.mpr (hplace k (ExtTreeMap.mem_keys.mp hk))
  have hcard := Finset.card_le_card hsub
  rw [List.toFinset_card_of_nodup hnodup, List.length_map,
    ExtTreeMap.length_keys, Nat.card_Ioc] at hcard
  omega

/-- A window of `n` steps around `now`, of which `back` lie before it. -/
theorem size_le_of_steps (now back : ℕ) {step n : ℕ} (hstep : 0 < step)
    (hafter : ∀ k ∈ m, now < k + back * step)
    (hbefore : ∀ k ∈ m, k + back * step ≤ now + n * step)
    (hgrid : ∀ k ∈ m, k % step = 0) : m.size ≤ n := by
  refine size_le_of_places (fun k => k / step + back) (a := now / step)
    (fun k hk => ?_) fun k hk l hl heq => ?_
  · have hk' := Nat.div_mul_cancel (Nat.dvd_of_mod_eq_zero (hgrid k hk))
    have hlo := hafter k hk
    have hhi := hbefore k hk
    rw [← hk', ← Nat.add_mul] at hlo hhi
    refine ⟨Nat.div_lt_of_lt_mul (Nat.mul_comm _ step ▸ hlo), ?_⟩
    have hdiv := Nat.div_le_div_right (c := step) hhi
    rwa [Nat.mul_div_cancel _ hstep, Nat.add_mul_div_right _ _ hstep] at hdiv
  · have hsame : k / step = l / step := Nat.add_right_cancel heq
    rw [← Nat.div_mul_cancel (Nat.dvd_of_mod_eq_zero (hgrid k hk)), hsame,
      Nat.div_mul_cancel (Nat.dvd_of_mod_eq_zero (hgrid l hl))]

end PredictiveAutoscaler.KeyWindows
