/-
Two programs over durable stores side by side.  They mirror each other when
related stores lead them to related stores and they end alike: with related
values or with the same exception.
-/
import PredictiveAutoscaler.Resumption

namespace PredictiveAutoscaler.Durable

universe u v w

variable {S S' : Type u} {Err : Type v} {α α' β β' : Type w}

/-- The same exception or related values. -/
inductive SameEnd (Q : α → α' → Prop) : Except Err α → Except Err α' → Prop
  | error (err : Err) : SameEnd Q (.error err) (.error err)
  | ok {a : α} {a' : α'} (h : Q a a') : SameEnd Q (.ok a) (.ok a')

/-- From related stores two programs reach related stores and end alike. -/
def Mirrors (R : S → S' → Prop) (Q : α → α' → Prop) (x : Durable S Err α)
    (x' : Durable S' Err α') : Prop :=
  ∀ s s', R s s' → R ((x s).store s) ((x' s').store s') ∧
    SameEnd Q (x s).result (x' s').result

variable {R : S → S' → Prop} {Q : α → α' → Prop} {P : β → β' → Prop}

theorem SameEnd.refl {a : Except Err α} : SameEnd Eq a a := by
  cases a with
  | error err => exact .error err
  | ok a => exact .ok rfl

theorem SameEnd.map (g : α → α') (r : Except Err α) :
    SameEnd (fun a a' => a' = g a) r (r.map g) := by
  cases r with
  | error err => exact .error err
  | ok a => exact .ok rfl

theorem mirrors_pure {a : α} {a' : α'} (h : Q a a') :
    Mirrors R Q (pure a : Durable S Err α) (pure a') :=
  fun _ _ hs => ⟨hs, .ok h⟩

theorem mirrors_liftExcept {r : Except Err α} {r' : Except Err α'}
    (h : SameEnd Q r r') :
    Mirrors R Q (Durable.liftExcept r) (Durable.liftExcept r') :=
  fun _ _ hs => ⟨hs, h⟩

theorem mirrors_read {f : S → α} {f' : S' → α'}
    (h : ∀ s s', R s s' → Q (f s) (f' s')) :
    Mirrors R Q (read f : Durable S Err α) (read f') :=
  fun s s' hs => ⟨hs, .ok (h s s' hs)⟩

theorem mirrors_commit {f : S → Except Err (α × S)}
    {f' : S' → Except Err (α' × S')}
    (h : ∀ s s', R s s' →
      SameEnd (fun a a' => Q a.1 a'.1 ∧ R a.2 a'.2) (f s) (f' s')) :
    Mirrors R Q (commit f) (commit f') := by
  intro s s' hs
  have hend := h s s' hs
  unfold commit
  generalize f s = r at hend ⊢
  generalize f' s' = r' at hend ⊢
  cases hend with
  | error err => exact ⟨hs, .error err⟩
  | ok hok => exact ⟨hok.2, .ok hok.1⟩

theorem mirrors_bind {x : Durable S Err α} {x' : Durable S' Err α'}
    {f : α → Durable S Err β} {f' : α' → Durable S' Err β'}
    (hx : Mirrors R Q x x') (hf : ∀ a a', Q a a' → Mirrors R P (f a) (f' a')) :
    Mirrors R P (x >>= f) (x' >>= f') := by
  intro s s' hs
  obtain ⟨hstore, hend⟩ := hx s s' hs
  cases hr : (x s).result with
  | error err =>
      cases hr' : (x' s').result with
      | ok a' => rw [hr, hr'] at hend; cases hend
      | error err' =>
          rw [hr, hr'] at hend
          cases hend
          rw [store_bind_of_result_error hr, store_bind_of_result_error hr',
            bind_of_result_error hr, bind_of_result_error hr']
          exact ⟨hstore, .error err⟩
  | ok a =>
      cases hr' : (x' s').result with
      | error err' => rw [hr, hr'] at hend; cases hend
      | ok a' =>
          rw [hr, hr'] at hend
          cases hend with
          | ok h =>
              rw [store_bind_of_result_ok hr, store_bind_of_result_ok hr',
                bind_of_result_ok hr, bind_of_result_ok hr']
              exact hf a a' h _ _ hstore

theorem mirrors_each {A A' : Type*} {items : List A} {items' : List A'}
    {f : A → Durable S Err PUnit.{w + 1}}
    {f' : A' → Durable S' Err PUnit.{w + 1}}
    (h : List.Forall₂ (fun a a' => Mirrors R Eq (f a) (f' a')) items items') :
    Mirrors R Eq (each items f) (each items' f') := by
  induction h with
  | nil => exact mirrors_pure rfl
  | cons hhead _ ih => exact mirrors_bind hhead fun _ _ _ => ih

end PredictiveAutoscaler.Durable
