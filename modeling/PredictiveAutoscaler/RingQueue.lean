/-
A list that is overwritten in place at a moving position.  Read from the
position on it is a queue: one round takes its head and puts the new item at
its end.  A queue of `m` items serves a value for every slot of a numbering,
those `m` apart the same, and one round renews the value of one slot.
-/
import Mathlib.Data.List.GetD
import Mathlib.Data.Nat.ModEq

namespace PredictiveAutoscaler.RingQueue

universe u

variable {α : Type u}

/-- The items from the position on. -/
def fromPlace (xs : List α) (pos : ℕ) : List α := xs.drop pos ++ xs.take pos

/-- The position after `pos`. -/
def next (m pos : ℕ) : ℕ := if pos + 1 = m then 0 else pos + 1

@[simp] theorem length_fromPlace (xs : List α) (pos : ℕ) :
    (fromPlace xs pos).length = xs.length := by
  simp only [fromPlace, List.length_append, List.length_drop, List.length_take]
  omega

@[simp] theorem fromPlace_zero (xs : List α) : fromPlace xs 0 = xs := by
  simp [fromPlace]

theorem next_lt {m pos : ℕ} (h : pos < m) : next m pos < m := by
  unfold next
  split
  · exact Nat.zero_lt_of_lt h
  · omega

/-- One round of a queue; an empty one stays empty. -/
def push (queue : List α) (v : α) : List α :=
  match queue with
  | [] => []
  | _ :: rest => rest ++ [v]

@[simp] theorem length_push (queue : List α) (v : α) :
    (push queue v).length = queue.length := by
  cases queue with
  | nil => rfl
  | cons x rest => simp [push]

/-- A position in a list, or any when there is none. -/
def Place (xs : List α) (pos : ℕ) : Prop := xs = [] ∨ pos < xs.length

theorem place_zero (xs : List α) : Place xs 0 := by
  cases xs with
  | nil => exact .inl rfl
  | cons x rest => exact .inr (Nat.succ_pos _)

section Round

variable {xs : List α} {pos : ℕ}

theorem fromPlace_eq_cons (h : pos < xs.length) :
    fromPlace xs pos = xs[pos] :: (xs.drop (pos + 1) ++ xs.take pos) := by
  rw [fromPlace, List.drop_eq_getElem_cons h, List.cons_append]

variable (h : Place xs pos)

include h

theorem Place.headD (d : α) : (fromPlace xs pos).headD d = xs.getD pos d := by
  rcases h with rfl | h
  · simp [fromPlace]
  · rw [fromPlace_eq_cons h, List.headD_cons, List.getD_eq_getElem _ _ h]

theorem Place.set (v : α) : Place (xs.set pos v) (next xs.length pos) := by
  rcases h with rfl | h
  · exact .inl rfl
  · refine .inr ?_
    rw [List.length_set]
    exact next_lt h

/-- One round: the head leaves and the new item is the last. -/
theorem Place.fromPlace_set (v : α) :
    fromPlace (xs.set pos v) (next xs.length pos) =
      push (fromPlace xs pos) v := by
  rcases h with rfl | h
  · simp [fromPlace, push]
  have htake : (xs.set pos v).take (pos + 1) = xs.take pos ++ [v] := by
    rw [List.take_set, List.take_succ_eq_append_getElem h, List.set_append,
      if_neg (by rw [List.length_take_of_le h.le]; exact Nat.lt_irrefl pos),
      List.length_take_of_le h.le, Nat.sub_self]
    rfl
  have hdrop : (xs.set pos v).drop (pos + 1) = xs.drop (pos + 1) :=
    List.drop_set_of_lt (Nat.lt_succ_self pos)
  rw [fromPlace_eq_cons h, push, List.append_assoc, ← htake]
  unfold next
  split
  · rename_i hlast
    rw [fromPlace_zero, List.drop_eq_nil_of_le hlast.ge, List.nil_append,
      List.take_of_length_le (by rw [List.length_set]; exact hlast.ge)]
  · rw [fromPlace, hdrop]

end Round

/-- The queue holds the values of the slots from `slot` on. -/
structure Serves (queue : List α) (slot : ℕ) (value : ℕ → α) : Prop where
  nonempty : 0 < queue.length
  served : ∀ j, queue[j % queue.length]? = some (value (slot + j))

/-- The values with that of a slot renewed, and of all slots `m` apart. -/
def renew (m slot : ℕ) (v : α) (value : ℕ → α) : ℕ → α :=
  fun j => if j % m = slot % m then v else value j

theorem serves_start {queue : List α} (h : 0 < queue.length) (d : α) :
    Serves queue 0 fun j => queue.getD (j % queue.length) d := by
  refine ⟨h, fun j => ?_⟩
  have hj := Nat.mod_lt j h
  rw [Nat.zero_add, List.getD_eq_getElem _ _ hj, List.getElem?_eq_getElem hj]

theorem Serves.getD {queue : List α} {slot : ℕ} {value : ℕ → α}
    (h : Serves queue slot value) (j : ℕ) (d : α) :
    queue.getD (j % queue.length) d = value (slot + j) := by
  rw [List.getD_eq_getElem?_getD, h.served, Option.getD_some]

/-- The head of the queue is the value of the slot. -/
theorem Serves.headD {queue : List α} {slot : ℕ} {value : ℕ → α}
    (h : Serves queue slot value) (d : α) : queue.headD d = value slot := by
  have hhead := h.served 0
  rw [Nat.zero_mod, ← List.head?_eq_getElem?] at hhead
  rw [List.headD_eq_head?_getD, hhead]
  rfl

/-- After a round the queue serves the next slot, with the new value for the
slot that it leaves. -/
theorem Serves.push {queue : List α} {slot : ℕ} {value : ℕ → α}
    (h : Serves queue slot value) (v : α) :
    Serves (push queue v) (slot + 1)
      (renew queue.length slot v value) := by
  cases queue with
  | nil => exact absurd h.nonempty (Nat.lt_irrefl 0)
  | cons x rest =>
      refine ⟨by simp, fun j => ?_⟩
      have hserved := h.served (j + 1)
      simp only [RingQueue.push, List.length_append, List.length_cons,
        List.length_nil, Nat.zero_add, renew] at hserved ⊢
      have hlt : j % (rest.length + 1) < rest.length + 1 :=
        Nat.mod_lt j (Nat.succ_pos rest.length)
      have hslot : (slot + 1 + j) % (rest.length + 1) =
          slot % (rest.length + 1) ↔ (j + 1) % (rest.length + 1) = 0 := by
        rw [Nat.add_assoc, Nat.add_comm 1 j]
        constructor
        · intro hmod
          have hcancel : slot + (j + 1) ≡ slot + 0 [MOD rest.length + 1] := hmod
          exact Nat.ModEq.add_left_cancel' slot hcancel
        · intro hmod
          rw [Nat.add_mod, hmod, Nat.add_zero, Nat.mod_mod]
      rw [if_congr hslot rfl rfl]
      rcases Nat.lt_succ_iff_lt_or_eq.mp hlt with hinner | hlast
      · have hnext :
            (j + 1) % (rest.length + 1) = j % (rest.length + 1) + 1 := by
          rw [Nat.add_mod, Nat.mod_eq_of_lt (a := 1) (by omega),
            Nat.mod_eq_of_lt (by omega)]
        rw [hnext, List.getElem?_cons_succ] at hserved
        rw [if_neg (by rw [hnext]; exact Nat.succ_ne_zero _),
          List.getElem?_append_left hinner, hserved]
        congr 2
        omega
      · have hwrap : (j + 1) % (rest.length + 1) = 0 := by
          rw [← Nat.mod_add_mod, hlast, Nat.mod_self]
        rw [if_pos hwrap, hlast, List.getElem?_append_right (Nat.le_refl _),
          Nat.sub_self]
        rfl

end PredictiveAutoscaler.RingQueue
