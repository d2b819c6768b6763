/-
Lists that are traversed in a monad: every item gives a value, or the traversal
stops at the first that does not.
-/
import Mathlib.Data.List.Forall2

namespace PredictiveAutoscaler.ListTraversal

variable {A B E : Type}

theorem mapM_congr {m : Type → Type} [Monad m] [LawfulMonad m]
    {f g : A → m B} {xs : List A} (h : ∀ x ∈ xs, f x = g x) :
    xs.mapM f = xs.mapM g := by
  induction xs with
  | nil => rfl
  | cons x rest ih =>
      rw [List.mapM_cons, List.mapM_cons, h x List.mem_cons_self,
        ih fun y hy => h y (List.mem_cons_of_mem x hy)]

section Options

theorem mapM_eq_mapM_id (f : A → Option B) (xs : List A) :
    xs.mapM f = (xs.map f).mapM id := by
  induction xs with
  | nil => rfl
  | cons x rest ih =>
      rw [List.map_cons, List.mapM_cons, List.mapM_cons, ih]
      rfl

theorem mapM_id_map_some (xs : List A) : (xs.map some).mapM id = some xs := by
  induction xs with
  | nil => rfl
  | cons x rest ih =>
      rw [List.map_cons, List.mapM_cons, ih]
      rfl

theorem mapM_id_eq_some {items : List (Option A)} {xs : List A}
    (h : items.mapM id = some xs) : items = xs.map some := by
  induction items generalizing xs with
  | nil =>
      obtain rfl : [] = xs := Option.some.inj h
      rfl
  | cons item items ih =>
      rw [List.mapM_cons] at h
      simp only [id_eq, Option.bind_eq_bind, Option.bind_eq_some_iff,
        Option.pure_def, Option.some.injEq] at h
      obtain ⟨x, rfl, rest, hrest, rfl⟩ := h
      rw [ih hrest, List.map_cons]

end Options

section Results

variable {f : A → Except E B} {xs : List A}

theorem mapM_eq_ok_map {r : A → B} (h : ∀ x ∈ xs, f x = .ok (r x)) :
    xs.mapM f = .ok (xs.map r) := by
  induction xs with
  | nil => rfl
  | cons x rest ih =>
      rw [List.mapM_cons, h x List.mem_cons_self,
        ih fun y hy => h y (List.mem_cons_of_mem _ hy)]
      rfl

theorem mapM_eq_ok {ys : List B} (h : xs.mapM f = .ok ys) :
    List.Forall₂ (fun x y => f x = .ok y) xs ys := by
  induction xs generalizing ys with
  | nil =>
      cases h
      exact .nil
  | cons x xs ih =>
      rw [List.mapM_cons] at h
      cases hx : f x with
      | error e => simp [hx, bind, Except.bind] at h
      | ok y =>
          cases hxs : xs.mapM f with
          | error e => simp [hx, hxs, bind, Except.bind] at h
          | ok rest =>
              simp only [hx, hxs, bind, Except.bind, pure, Except.pure,
                Except.ok.injEq] at h
              subst h
              exact .cons hx (ih hxs)

end Results

theorem getElem?_of_forall₂ {R : A → B → Prop} {xs : List A} {ys : List B}
    (h : List.Forall₂ R xs ys) {k : ℕ} {y : B} (hy : ys[k]? = some y) :
    ∃ x, xs[k]? = some x ∧ R x y := by
  induction h generalizing k with
  | nil => cases hy
  | cons hxy _ ih =>
      cases k with
      | zero =>
          cases hy
          exact ⟨_, rfl, hxy⟩
      | succ k => exact ih hy

end PredictiveAutoscaler.ListTraversal
