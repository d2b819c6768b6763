/-
Programs over a durable store.  A program reads the store, raises, or commits a
new store; every store it committed stays when it raises or is cut off, so its
meaning is the list of the stores it committed together with how it ended.
The weakest precondition asks for an invariant of every committed store, which
is what a crash after any of them leaves.
-/
import Mathlib.Data.List.Chain

namespace PredictiveAutoscaler

universe u v w

/-- The stores a program committed, in order, and how it ended. -/
structure Ended (S : Type u) (Err : Type v) (α : Type w) where
  commits : List S
  result : Except Err α

/-- A program over a durable store. -/
def Durable (S : Type u) (Err : Type v) (α : Type w) : Type (max u v w) :=
  S → Ended S Err α

variable {S : Type u} {Err : Type v} {α β : Type w}

/-- The store after a program. -/
def Ended.store (e : Ended S Err α) (s : S) : S := e.commits.getLastD s

/-- The store after the first `n` commits of a program. -/
def Ended.cutAt (e : Ended S Err α) (s : S) (n : ℕ) : S :=
  (e.commits.take n).getLastD s

namespace Durable

def andThen (x : Durable S Err α) (f : α → Durable S Err β) :
    Durable S Err β := fun s =>
  match (x s).result with
  | .error err => ⟨(x s).commits, .error err⟩
  | .ok a =>
      let rest := f a ((x s).store s)
      ⟨(x s).commits ++ rest.commits, rest.result⟩

instance : Monad (Durable S Err) where
  pure a := fun _ => ⟨[], .ok a⟩
  bind := andThen

/-- Compute without committing. -/
def liftExcept (r : Except Err α) : Durable S Err α := fun _ => ⟨[], r⟩

/-- Read the store. -/
def read (f : S → α) : Durable S Err α := fun s => ⟨[], .ok (f s)⟩

/-- Commit the next store and return a value of it, or raise and leave the
store as it is. -/
def commit (f : S → Except Err (α × S)) : Durable S Err α := fun s =>
  match f s with
  | .error err => ⟨[], .error err⟩
  | .ok (a, s') => ⟨[s'], .ok a⟩

/-- Raise other exceptions in the place of a program's own. -/
def mapError (f : Err → Err) (x : Durable S Err α) : Durable S Err α := fun s =>
  ⟨(x s).commits,
    match (x s).result with
    | .ok a => .ok a
    | .error err => .error (f err)⟩

/-- Run a program for every item of a list. -/
def each {A : Type*} (items : List A) (f : A → Durable S Err PUnit.{w + 1}) :
    Durable S Err PUnit.{w + 1} :=
  items.foldr (fun a rest => f a >>= fun _ => rest) (pure ⟨⟩)

/-- A program that read and returned before anything else. -/
theorem bind_of_ok {x : Durable S Err α} {f : α → Durable S Err β} {s : S}
    {a : α} (h : x s = ⟨[], .ok a⟩) : (x >>= f) s = f a s := by
  change andThen x f s = _
  unfold andThen Ended.store
  rw [h]
  rfl

/-- A program that raised before anything else. -/
theorem bind_of_error {x : Durable S Err α} {f : α → Durable S Err β} {s : S}
    {err : Err} (h : x s = ⟨[], .error err⟩) :
    (x >>= f) s = ⟨[], .error err⟩ := by
  change andThen x f s = _
  unfold andThen
  rw [h]

/-- Every commit satisfies `I`, a return satisfies `Q` and an exception `E`. -/
def wp (I : S → Prop) (E : Err → S → Prop) (x : Durable S Err α)
    (Q : α → S → Prop) (s : S) : Prop :=
  (∀ s' ∈ (x s).commits, I s') ∧
    match (x s).result with
    | .ok a => Q a ((x s).store s)
    | .error err => E err ((x s).store s)

variable {I : S → Prop} {E : Err → S → Prop}

@[simp] theorem wp_pure {a : α} {Q : α → S → Prop} {s : S} :
    wp I E (pure a) Q s ↔ Q a s := by
  refine ⟨fun h => h.2, fun h => ⟨fun s' hs' => ?_, h⟩⟩
  cases hs'

@[simp] theorem wp_liftExcept {r : Except Err α} {Q : α → S → Prop} {s : S} :
    wp I E (liftExcept r) Q s ↔
      match r with
      | .ok a => Q a s
      | .error err => E err s := by
  refine ⟨fun h => h.2, fun h => ⟨fun s' hs' => ?_, h⟩⟩
  cases hs'

@[simp] theorem wp_read {f : S → α} {Q : α → S → Prop} {s : S} :
    wp I E (read f) Q s ↔ Q (f s) s := by
  refine ⟨fun h => h.2, fun h => ⟨fun s' hs' => ?_, h⟩⟩
  cases hs'

@[simp] theorem wp_commit {f : S → Except Err (α × S)} {Q : α → S → Prop}
    {s : S} :
    wp I E (commit f) Q s ↔
      match f s with
      | .ok (a, s') => I s' ∧ Q a s'
      | .error err => E err s := by
  unfold wp commit Ended.store
  cases f s with
  | error err => simp
  | ok pair => simp

theorem getLastD_append (xs ys : List S) (s : S) :
    (xs ++ ys).getLastD s = ys.getLastD (xs.getLastD s) := by
  rw [List.getLastD_eq_getLast?, List.getLastD_eq_getLast?,
    List.getLastD_eq_getLast?, List.getLast?_append]
  cases ys.getLast? <;> rfl

@[simp] theorem wp_bind {x : Durable S Err α} {f : α → Durable S Err β}
    {Q : β → S → Prop} {s : S} :
    wp I E (x >>= f) Q s ↔ wp I E x (fun a => wp I E (f a) Q) s := by
  change wp I E (andThen x f) Q s ↔ _
  unfold wp andThen Ended.store
  cases (x s).result with
  | error err => rfl
  | ok a =>
      simp only [List.mem_append, getLastD_append]
      constructor
      · rintro ⟨hcommits, hrest⟩
        exact ⟨fun s' hs' => hcommits s' (.inl hs'),
          fun s' hs' => hcommits s' (.inr hs'), hrest⟩
      · rintro ⟨hfirst, hcommits, hrest⟩
        exact ⟨fun s' hs' => hs'.elim (hfirst s') (hcommits s'), hrest⟩

@[simp] theorem wp_mapError {f : Err → Err} {x : Durable S Err α}
    {Q : α → S → Prop} {s : S} :
    wp I E (mapError f x) Q s ↔ wp I (fun err => E (f err)) x Q s := by
  unfold wp mapError Ended.store
  cases (x s).result <;> rfl

theorem wp_mono {I' : S → Prop} {E' : Err → S → Prop} {x : Durable S Err α}
    {Q Q' : α → S → Prop} {s : S} (h : wp I E x Q s)
    (hI : ∀ s', I s' → I' s') (hE : ∀ err s', E err s' → E' err s')
    (hQ : ∀ a s', Q a s' → Q' a s') : wp I' E' x Q' s := by
  refine ⟨fun s' hs' => hI s' (h.1 s' hs'), ?_⟩
  have hend := h.2
  cases hresult : (x s).result with
  | ok a =>
      rw [hresult] at hend
      exact hQ a _ hend
  | error err =>
      rw [hresult] at hend
      exact hE err _ hend

/-- A loop keeps what each of its rounds keeps. -/
theorem wp_each {A : Type*} {items : List A}
    {f : A → Durable S Err PUnit.{w + 1}} {P : S → Prop}
    (hround : ∀ a ∈ items, ∀ s, P s → wp I E (f a) (fun _ => P) s)
    {s : S} (hs : P s) : wp I E (each items f) (fun _ => P) s := by
  induction items generalizing s with
  | nil => exact wp_pure.mpr hs
  | cons a rest ih =>
      refine wp_bind.mpr (wp_mono (hround a List.mem_cons_self s hs)
        (fun _ h => h) (fun _ _ h => h) ?_)
      intro _ s' hs'
      exact ih (fun b hb => hround b (List.mem_cons_of_mem a hb)) hs'

/-- A loop of which each round works off its own item. -/
theorem wp_each_rest {A : Type*} {items : List A}
    {f : A → Durable S Err PUnit.{w + 1}} {P : List A → S → Prop}
    (hround : ∀ a rest s, P (a :: rest) s →
      wp I E (f a) (fun _ => P rest) s)
    {s : S} (hs : P items s) : wp I E (each items f) (fun _ => P []) s := by
  induction items generalizing s with
  | nil => exact wp_pure.mpr hs
  | cons a rest ih =>
      refine wp_bind.mpr (wp_mono (hround a rest s hs) (fun _ h => h)
        (fun _ _ h => h) ?_)
      intro _ s' hs'
      exact ih hs'

/-- A property that every commit of a program keeps, from wherever it holds. -/
def Keeps (P : S → Prop) (x : Durable S Err α) : Prop :=
  ∀ s, P s → wp P (fun _ => P) x (fun _ => P) s

theorem keeps_pure {P : S → Prop} (a : α) :
    Keeps P (pure a : Durable S Err α) :=
  fun _ hs => wp_pure.mpr hs

theorem keeps_liftExcept {P : S → Prop} (r : Except Err α) :
    Keeps P (liftExcept r : Durable S Err α) := by
  intro s hs
  rw [wp_liftExcept]
  cases r <;> exact hs

theorem keeps_read_bind {P : S → Prop} {f : S → α} {g : α → Durable S Err β}
    (hg : ∀ s, P s → wp P (fun _ => P) (g (f s)) (fun _ => P) s) :
    Keeps P (read f >>= g) :=
  fun s hs => wp_bind.mpr (wp_read.mpr (hg s hs))

theorem keeps_bind {P : S → Prop} {x : Durable S Err α}
    {f : α → Durable S Err β} (hx : Keeps P x) (hf : ∀ a, Keeps P (f a)) :
    Keeps P (x >>= f) := by
  intro s hs
  exact wp_bind.mpr (wp_mono (hx s hs) (fun _ h => h) (fun _ _ h => h)
    fun a s' hs' => hf a s' hs')

theorem keeps_liftExcept_bind {P : S → Prop} {r : Except Err α}
    {f : α → Durable S Err β} (hf : ∀ a, r = .ok a → Keeps P (f a)) :
    Keeps P (liftExcept r >>= f) := by
  intro s hs
  rw [wp_bind, wp_liftExcept]
  cases r with
  | error err => exact hs
  | ok a => exact hf a rfl s hs

theorem keeps_commit {P : S → Prop} {f : S → Except Err (α × S)}
    (hf : ∀ s a s', P s → f s = .ok (a, s') → P s') :
    Keeps P (commit f) := by
  intro s hs
  rw [wp_commit]
  cases h : f s with
  | error err => exact hs
  | ok pair =>
      have hnext := hf s pair.1 pair.2 hs h
      exact ⟨hnext, hnext⟩

theorem keeps_each {P : S → Prop} {A : Type*} {items : List A}
    {f : A → Durable S Err PUnit.{w + 1}}
    (hf : ∀ a ∈ items, Keeps P (f a)) : Keeps P (each items f) :=
  fun _ hs => wp_each (fun a ha s hs => hf a ha s hs) hs

theorem keeps_mapError {P : S → Prop} {f : Err → Err} {x : Durable S Err α}
    (hx : Keeps P x) : Keeps P (mapError f x) :=
  fun s hs => wp_mapError.mpr (hx s hs)

/-- Wherever a program is cut off, the store is the first one or one that it
committed. -/
theorem cutAt_of_wp {x : Durable S Err α} {Q : α → S → Prop} {s : S}
    (h : wp I E x Q s) (hs : I s) (n : ℕ) : I ((x s).cutAt s n) := by
  unfold Ended.cutAt
  cases hcut : ((x s).commits.take n).getLast? with
  | none =>
      rw [List.getLast?_eq_none_iff] at hcut
      rw [hcut]
      exact hs
  | some s' =>
      rw [List.getLastD_eq_getLast?, hcut]
      exact h.1 s' (List.mem_of_mem_take (List.mem_of_getLast? hcut))

/-- Every commit of a program is related to the store before it. -/
def Steps (R : S → S → Prop) (x : Durable S Err α) : Prop :=
  ∀ s, (s :: (x s).commits).IsChain R

theorem isChain_append_of_getLastD {R : S → S → Prop} {s : S}
    {xs ys : List S} (hxs : (s :: xs).IsChain R)
    (hys : (xs.getLastD s :: ys).IsChain R) : (s :: (xs ++ ys)).IsChain R := by
  induction xs generalizing s with
  | nil => exact hys
  | cons x rest ih =>
      rw [List.isChain_cons_cons] at hxs
      rw [List.cons_append, List.isChain_cons_cons]
      refine ⟨hxs.1, ih hxs.2 ?_⟩
      rwa [List.getLastD_cons] at hys

variable {R : S → S → Prop}

theorem steps_pure (a : α) : Steps R (pure a : Durable S Err α) :=
  fun s => .singleton s

theorem steps_liftExcept (r : Except Err α) :
    Steps R (liftExcept r : Durable S Err α) :=
  fun s => .singleton s

theorem steps_commit {f : S → Except Err (α × S)}
    (hf : ∀ s a s', f s = .ok (a, s') → R s s') : Steps R (commit f) := by
  intro s
  unfold commit
  cases h : f s with
  | error err => exact .singleton s
  | ok pair => exact .cons_cons (hf s pair.1 pair.2 h) (.singleton pair.2)

theorem steps_bind {x : Durable S Err α} {f : α → Durable S Err β}
    (hx : Steps R x) (hf : ∀ a, Steps R (f a)) : Steps R (x >>= f) := by
  intro s
  change (s :: (andThen x f s).commits).IsChain R
  unfold andThen
  cases (x s).result with
  | error err => exact hx s
  | ok a => exact isChain_append_of_getLastD (hx s) (hf a _)

theorem steps_read_bind {f : S → α} {g : α → Durable S Err β}
    (hg : ∀ s, Steps R (g (f s))) : Steps R (read f >>= g) := by
  intro s
  rw [bind_of_ok (x := read f) (a := f s) rfl]
  exact hg s s

theorem steps_each {A : Type*} {items : List A}
    {f : A → Durable S Err PUnit.{w + 1}}
    (hf : ∀ a ∈ items, Steps R (f a)) : Steps R (each items f) := by
  induction items with
  | nil => exact steps_pure _
  | cons a rest ih =>
      refine steps_bind (hf a List.mem_cons_self) fun _ => ?_
      exact ih fun b hb => hf b (List.mem_cons_of_mem a hb)

/-- What every step keeps, the program keeps. -/
theorem Steps.keeps {x : Durable S Err α} (hx : Steps R x) {P : S → Prop}
    (hstep : ∀ s s', R s s' → P s → P s') : Keeps P x := by
  intro s hs
  have hall : ∀ s' ∈ (x s).commits, P s' :=
    (hx s).cons_induction P _ hstep hs
  have hlast : P ((x s).store s) := by
    unfold Ended.store
    rw [List.getLastD_eq_getLast?]
    cases hcommits : (x s).commits.getLast? with
    | none => exact hs
    | some s' => exact hall s' (List.mem_of_getLast? hcommits)
  refine ⟨hall, ?_⟩
  cases (x s).result <;> exact hlast

end Durable

end PredictiveAutoscaler
