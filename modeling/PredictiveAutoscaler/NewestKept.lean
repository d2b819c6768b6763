/-
Keeping the newest of what arrives.  Elements with a time arrive in any order
and only the last few, in the order of their times, are kept from one arrival
to the next; so long as the threshold of what is too old never falls, what is
kept is what the whole sequence would give.
-/
import Mathlib.Data.List.DropRight
import Mathlib.Data.List.Sort

namespace PredictiveAutoscaler.NewestKept

variable {α : Type} (key : α → ℕ)

/-- The order of the times; elements of one time keep their order. -/
abbrev sortByKey (xs : List α) : List α :=
  xs.insertionSort fun a b => key a ≤ key b

/-- The elements of one time. -/
def classOf (k : ℕ) (xs : List α) : List α :=
  xs.filter fun x => decide (key x = k)

variable {key}

section Order

private theorem total_key : Std.Total fun a b : α => key a ≤ key b :=
  ⟨fun a b => Nat.le_total (key a) (key b)⟩

private theorem trans_key : IsTrans α fun a b => key a ≤ key b :=
  ⟨fun _ _ _ => Nat.le_trans⟩

theorem sortByKey_sorted (xs : List α) :
    (sortByKey key xs).Pairwise fun a b => key a ≤ key b := by
  have htotal : Std.Total fun a b : α => key a ≤ key b := total_key
  have htrans : IsTrans α fun a b => key a ≤ key b := trans_key
  exact List.pairwise_insertionSort _ xs

theorem classOf_append (k : ℕ) (xs ys : List α) :
    classOf key k (xs ++ ys) = classOf key k xs ++ classOf key k ys :=
  List.filter_append xs ys

theorem classOf_cons (k : ℕ) (x : α) (xs : List α) :
    classOf key k (x :: xs) =
      if key x = k then x :: classOf key k xs else classOf key k xs := by
  simp [classOf, List.filter_cons]

theorem classOf_orderedInsert (k : ℕ) (x : α) (xs : List α) :
    classOf key k (xs.orderedInsert (fun a b => key a ≤ key b) x) =
      classOf key k (x :: xs) := by
  induction xs with
  | nil => rfl
  | cons y ys ih =>
      rw [List.orderedInsert_cons]
      split
      · rfl
      · rename_i hlt
        rw [classOf_cons, ih, classOf_cons, classOf_cons, classOf_cons]
        by_cases hx : key x = k
        · have hy : ¬key y = k := by omega
          rw [if_neg hy, if_neg hy]
        · rw [if_neg hx, if_neg hx]

/-- Sorting moves no element before another of its time. -/
theorem classOf_sortByKey (k : ℕ) (xs : List α) :
    classOf key k (sortByKey key xs) = classOf key k xs := by
  induction xs with
  | nil => rfl
  | cons x xs ih =>
      rw [sortByKey, List.insertionSort_cons, classOf_orderedInsert,
        classOf_cons, classOf_cons, ih]

/-- A condition on the time keeps all elements of a time, or none. -/
theorem classOf_filter (k : ℕ) (p : ℕ → Bool) (xs : List α) :
    classOf key k (xs.filter fun x => p (key x)) =
      if p k then classOf key k xs else [] := by
  induction xs with
  | nil => simp [classOf]
  | cons x xs ih =>
      by_cases hk : key x = k
      · subst hk
        cases hp : p (key x) <;> simp_all [classOf]
      · cases hp : p (key x) <;> simp_all [classOf]

/-- Sorted lists are equal when the elements of each time are. -/
theorem eq_of_classOf {xs ys : List α}
    (hxs : xs.Pairwise fun a b => key a ≤ key b)
    (hys : ys.Pairwise fun a b => key a ≤ key b)
    (h : ∀ k, classOf key k xs = classOf key k ys) : xs = ys := by
  induction xs generalizing ys with
  | nil =>
      cases ys with
      | nil => rfl
      | cons y ys =>
          have hclass := h (key y)
          simp [classOf] at hclass
  | cons x xs ih =>
      cases ys with
      | nil =>
          have hclass := h (key x)
          simp [classOf] at hclass
      | cons y ys =>
          rw [List.pairwise_cons] at hxs hys
          have hmem : x ∈ y :: ys := by
            have hx : x ∈ classOf key (key x) (y :: ys) := by
              rw [← h]
              simp [classOf]
            exact List.mem_of_mem_filter hx
          have hmem' : y ∈ x :: xs := by
            have hy : y ∈ classOf key (key y) (x :: xs) := by
              rw [h]
              simp [classOf]
            exact List.mem_of_mem_filter hy
          have hle : key y ≤ key x := by
            rcases List.mem_cons.mp hmem with rfl | hx
            · exact le_rfl
            · exact hys.1 x hx
          have hge : key x ≤ key y := by
            rcases List.mem_cons.mp hmem' with rfl | hy
            · exact le_rfl
            · exact hxs.1 y hy
          have hkey := Nat.le_antisymm hle hge
          have hhead := h (key x)
          simp only [classOf, List.filter_cons, hkey, decide_true, if_true]
            at hhead
          obtain ⟨rfl, -⟩ := List.cons.inj hhead
          refine congrArg (x :: ·) (ih hxs.2 hys.2 fun k => ?_)
          have hclass := h k
          by_cases hk : key x = k
          · simpa [classOf, hk] using hclass
          · simpa [classOf, hk] using hclass

/-- The last to arrive goes after every element of its own time. -/
theorem sortByKey_concat (xs : List α) (x : α) :
    sortByKey key (xs ++ [x]) =
      (sortByKey key xs).filter (fun a => decide (key a ≤ key x)) ++
        x :: (sortByKey key xs).filter fun a => decide (key x < key a) := by
  have hsorted : (sortByKey key xs).Pairwise fun a b => key a ≤ key b :=
    sortByKey_sorted xs
  refine eq_of_classOf (sortByKey_sorted _) ?_ fun k => ?_
  · rw [List.pairwise_append, List.pairwise_cons]
    refine ⟨hsorted.filter _, ⟨fun b hb => ?_, hsorted.filter _⟩, ?_⟩
    · exact Nat.le_of_lt (of_decide_eq_true (List.mem_filter.mp hb).2)
    · intro a ha b hb
      have hax := of_decide_eq_true (List.mem_filter.mp ha).2
      rcases List.mem_cons.mp hb with rfl | hb
      · exact hax
      · exact hax.trans
          (Nat.le_of_lt (of_decide_eq_true (List.mem_filter.mp hb).2))
  · rw [classOf_sortByKey, classOf_append, classOf_append, classOf_cons,
      classOf_cons, classOf_filter k (fun k => decide (k ≤ key x)),
      classOf_filter k (fun k => decide (key x < k)), classOf_sortByKey]
    by_cases hle : k ≤ key x
    · have hlt : ¬key x < k := Nat.not_lt.mpr hle
      simp [hle, hlt, classOf]
    · have hlt : key x < k := Nat.lt_of_not_le hle
      have hne : ¬key x = k := Nat.ne_of_lt hlt
      simp [hle, hlt, hne, classOf]

end Order

section Kept

theorem rtake_append_of_le {n : ℕ} (xs : List α) {ys : List α}
    (h : n ≤ ys.length) : (xs ++ ys).rtake n = ys.rtake n := by
  unfold List.rtake
  have hlength : (xs ++ ys).length - n = xs.length + (ys.length - n) := by
    rw [List.length_append]
    omega
  rw [hlength, List.drop_length_add_append]

theorem rtake_of_length_le {n : ℕ} {xs : List α} (h : xs.length ≤ n) :
    xs.rtake n = xs := by
  unfold List.rtake
  rw [Nat.sub_eq_zero_of_le h, List.drop_zero]

/-- A condition that holds of every later time too. -/
def Upward (p : ℕ → Bool) : Prop := ∀ j k, j ≤ k → p j = true → p k = true

variable (key) in
/-- The newest `n` of the elements whose time is not too old. -/
def kept (n : ℕ) (p : ℕ → Bool) (xs : List α) : List α :=
  ((sortByKey key xs).filter fun x => p (key x)).rtake n

theorem kept_sorted (n : ℕ) (p : ℕ → Bool) (xs : List α) :
    (kept key n p xs).Pairwise fun a b => key a ≤ key b :=
  ((sortByKey_sorted xs).filter _).sublist (List.drop_sublist _ _)

theorem sortByKey_of_sorted {xs : List α}
    (h : xs.Pairwise fun a b => key a ≤ key b) : sortByKey key xs = xs := by
  have htotal : Std.Total fun a b : α => key a ≤ key b := total_key
  have htrans : IsTrans α fun a b => key a ≤ key b := trans_key
  exact h.insertionSort_eq

variable (key) in
/-- An element that arrives at a sorted list, and what is then too old. -/
def arrive (p : ℕ → Bool) (x : α) (xs : List α) : List α :=
  ((xs.filter fun a => decide (key a ≤ key x)) ++
    x :: xs.filter fun a => decide (key x < key a)).filter fun a => p (key a)

section Arrive

variable {p : ℕ → Bool} {x : α} {early late : List α}

theorem arrive_append_of_le (h : ∀ a ∈ early, key a ≤ key x) :
    arrive key p x (early ++ late) =
      (early.filter fun a => p (key a)) ++ arrive key p x late := by
  have hbefore : early.filter (fun a => decide (key a ≤ key x)) = early :=
    List.filter_eq_self.mpr fun a ha => decide_eq_true (h a ha)
  have hafter : early.filter (fun a => decide (key x < key a)) = [] :=
    List.filter_eq_nil_iff.mpr fun a ha hlt =>
      Nat.not_lt.mpr (h a ha) (of_decide_eq_true hlt)
  have hbefore' := List.filter_append (p := fun a => decide (key a ≤ key x))
    early late
  have hafter' := List.filter_append (p := fun a => decide (key x < key a))
    early late
  rw [hbefore] at hbefore'
  rw [hafter, List.nil_append] at hafter'
  unfold arrive
  rw [hbefore', hafter', List.append_assoc, List.filter_append]

theorem arrive_append_of_lt (h : ∀ b ∈ late, key x < key b)
    (hp : ∀ b ∈ late, p (key b) = true) :
    arrive key p x (early ++ late) = arrive key p x early ++ late := by
  have hbefore : late.filter (fun a => decide (key a ≤ key x)) = [] :=
    List.filter_eq_nil_iff.mpr fun a ha hle =>
      Nat.not_le.mpr (h a ha) (of_decide_eq_true hle)
  have hafter : late.filter (fun a => decide (key x < key a)) = late :=
    List.filter_eq_self.mpr fun a ha => decide_eq_true (h a ha)
  have hall : late.filter (fun a => p (key a)) = late :=
    List.filter_eq_self.mpr hp
  have hbefore' := List.filter_append (p := fun a => decide (key a ≤ key x))
    early late
  have hafter' := List.filter_append (p := fun a => decide (key x < key a))
    early late
  rw [hbefore, List.append_nil] at hbefore'
  rw [hafter] at hafter'
  unfold arrive
  rw [hbefore', hafter', ← List.cons_append, ← List.append_assoc,
    List.filter_append, hall]

theorem length_le_arrive (hp : ∀ b ∈ late, p (key b) = true) :
    late.length ≤ (arrive key p x late).length := by
  have hcount := late.length_eq_countP_add_countP
    fun a => decide (key a ≤ key x)
  have hkept : ∀ r : α → Bool,
      ((late.filter r).filter fun a => p (key a)).length = late.countP r := by
    intro r
    rw [List.countP_eq_length_filter, List.filter_eq_self.mpr]
    exact fun a ha => hp a (List.mem_of_mem_filter ha)
  have hnot : late.countP (fun a => decide (key x < key a)) =
      late.countP fun a => decide ¬decide (key a ≤ key x) = true := by
    refine List.countP_congr fun a _ => ?_
    simp
  have hsplit : (arrive key p x late).length =
      late.countP (fun a => decide (key a ≤ key x)) +
        ((x :: late.filter fun a => decide (key x < key a)).filter
          fun a => p (key a)).length := by
    unfold arrive
    rw [List.filter_append, List.length_append, hkept]
  have hrest : ((late.filter fun a => decide (key x < key a)).filter
      fun a => p (key a)).length ≤
      ((x :: late.filter fun a => decide (key x < key a)).filter
        fun a => p (key a)).length :=
    ((List.sublist_cons_self x _).filter _).length_le
  rw [hkept, hnot] at hrest
  omega

/-- Among sorted elements, those before the last `n` do not matter. -/
theorem rtake_arrive {n : ℕ} (hp : Upward p)
    (hsorted : (early ++ late).Pairwise fun a b => key a ≤ key b)
    (hlate : early ≠ [] → n = late.length) :
    (arrive key p x (early ++ late)).rtake n =
      (arrive key p x late).rtake n := by
  obtain ⟨-, -, hle⟩ := List.pairwise_append.mp hsorted
  by_cases hempty : early = []
  · rw [hempty, List.nil_append]
  have hn := hlate hempty
  by_cases hold : ∀ a ∈ early, ¬p (key a) = true
  · -- what came early is too old
    have hnone : ∀ r : α → Bool,
        (early.filter r).filter (fun a => p (key a)) = [] := fun r =>
      List.filter_eq_nil_iff.mpr fun a ha => hold a (List.mem_of_mem_filter ha)
    unfold arrive
    simp only [List.filter_append, List.filter_cons, hnone, List.nil_append]
  · obtain ⟨d, hd, hpd⟩ : ∃ d ∈ early, p (key d) = true := by
      by_contra hnone
      exact hold fun a ha hpa => hnone ⟨a, ha, hpa⟩
    have hall : ∀ b ∈ late, p (key b) = true := fun b hb =>
      hp _ _ (hle d hd b hb) hpd
    by_cases hfuture : ∀ a ∈ early, key a ≤ key x
    · rw [arrive_append_of_le hfuture,
        rtake_append_of_le _ (hn ▸ length_le_arrive hall)]
    · -- the element arrives before the last ones and leaves them as they are
      obtain ⟨e, he, hlt⟩ : ∃ e ∈ early, key x < key e := by
        by_contra hnone
        exact hfuture fun a ha => Nat.not_lt.mp fun h => hnone ⟨a, ha, h⟩
      have hlater : ∀ b ∈ late, key x < key b := fun b hb =>
        hlt.trans_le (hle e he b hb)
      have hself : arrive key p x ([] ++ late) = arrive key p x [] ++ late :=
        arrive_append_of_lt hlater hall
      rw [List.nil_append] at hself
      rw [arrive_append_of_lt hlater hall, hself,
        rtake_append_of_le _ hn.le, rtake_append_of_le _ hn.le]

end Arrive

/-- What is kept after the next arrival, from what was kept before it. -/
theorem kept_concat (n : ℕ) {p q : ℕ → Bool} (hp : Upward p)
    (hpq : ∀ k, p k = true → q k = true) (xs : List α) (x : α) :
    kept key n p (kept key n q xs ++ [x]) = kept key n p (xs ++ [x]) := by
  have hfilter : ∀ r : α → Bool,
      ((sortByKey key xs).filter r).filter (fun a => p (key a)) =
        (((sortByKey key xs).filter fun a => q (key a)).filter r).filter
          fun a => p (key a) := by
    intro r
    simp only [List.filter_filter]
    refine List.filter_congr fun a _ => ?_
    cases hpa : p (key a) with
    | false => simp
    | true => simp [hpq _ hpa]
  have hwhole : (sortByKey key (xs ++ [x])).filter (fun a => p (key a)) =
      arrive key p x
        ((sortByKey key xs).filter fun a => q (key a)) := by
    rw [sortByKey_concat, arrive, List.filter_append, List.filter_cons,
      List.filter_append, List.filter_cons, hfilter, hfilter]
  have hpart : (sortByKey key (kept key n q xs ++ [x])).filter
      (fun a => p (key a)) = arrive key p x (kept key n q xs) := by
    rw [sortByKey_concat, sortByKey_of_sorted (kept_sorted n q xs)]
    rfl
  unfold kept at hpart ⊢
  rw [hwhole, hpart]
  generalize hfresh : (sortByKey key xs).filter (fun a => q (key a)) = fresh
  have hsorted : fresh.Pairwise fun a b => key a ≤ key b :=
    hfresh ▸ (sortByKey_sorted xs).filter _
  have hsplit := List.take_append_drop (fresh.length - n) fresh
  have harrive : (arrive key p x (fresh.take (fresh.length - n) ++
        fresh.drop (fresh.length - n))).rtake n =
      (arrive key p x (fresh.drop (fresh.length - n))).rtake n := by
    refine rtake_arrive hp (by rwa [hsplit]) fun hearly => ?_
    have hlong : fresh.length - n ≠ 0 := fun hzero =>
      hearly (by rw [hzero, List.take_zero])
    rw [List.length_drop]
    omega
  rw [hsplit] at harrive
  exact harrive.symm

end Kept

end PredictiveAutoscaler.NewestKept
