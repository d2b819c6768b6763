/-
A directory that a crash may set back.  A file is complete after a crash only
when it was synced, and an entry that was renamed or written is there for sure
only when the directory was synced since; until then a crash may bring back
any entry that the name had in between.  Programs over such a directory may
have any of their steps fail, and are cut off anywhere.
-/
import Mathlib.Logic.Function.Basic
import PredictiveAutoscaler.Durable

namespace PredictiveAutoscaler

universe u v w

/-- A file and whether its content was synced. -/
structure File (C : Type v) where
  content : C
  synced : Bool
deriving DecidableEq, Repr

/-- What a process sees under each name, and the entries before it that a
crash may bring back, the newest first. -/
structure Directory (N : Type u) (C : Type v) where
  files : N → Option (File C)
  earlier : N → List (Option (File C))

namespace Directory

variable {N : Type u} {C : Type v}

def empty : Directory N C := ⟨fun _ => none, fun _ => []⟩

/-- What a reader finds. -/
def read (d : Directory N C) (n : N) : Option C :=
  (d.files n).map File.content

/-- The entries that are possible after a crash, the newest first. -/
def entries (d : Directory N C) (n : N) : List (Option (File C)) :=
  d.files n :: d.earlier n

/-- Sync the directory: no entry is set back any more. -/
def syncEntries (d : Directory N C) : Directory N C :=
  { d with earlier := fun _ => [] }

section Changes

variable [DecidableEq N] (d : Directory N C)

/-- Another entry under a name. -/
def put (n : N) (f : Option (File C)) : Directory N C where
  files := Function.update d.files n f
  earlier := Function.update d.earlier n (d.entries n)

/-- Create or truncate a file and write it. -/
def write (n : N) (c : C) : Directory N C := d.put n (some ⟨c, false⟩)

/-- Sync the content of a file. -/
def sync (n : N) : Directory N C where
  files := Function.update d.files n
    ((d.files n).map fun f => { f with synced := true })
  earlier := d.earlier

/-- Rename `src` to `dst`, replacing what `dst` was. -/
def rename (src dst : N) : Directory N C :=
  (d.put dst (d.files src)).put src none

@[simp] theorem files_put (n m : N) (f : Option (File C)) :
    (d.put n f).files m = if m = n then f else d.files m :=
  Function.update_apply ..

@[simp] theorem earlier_put (n m : N) (f : Option (File C)) :
    (d.put n f).earlier m = if m = n then d.entries n else d.earlier m :=
  Function.update_apply ..

theorem entries_put_self (n : N) (f : Option (File C)) :
    (d.put n f).entries n = f :: d.entries n := by
  simp [entries]

theorem entries_put_of_ne {n m : N} (f : Option (File C)) (h : m ≠ n) :
    (d.put n f).entries m = d.entries m := by
  simp [entries, h]

theorem entries_sync_of_ne {n m : N} (h : m ≠ n) :
    (d.sync n).entries m = d.entries m := by
  simp [entries, sync, h]

/-- Write a temporary file, sync it and rename it: the name gets a synced file
and no other name but the temporary one changes. -/
theorem entries_rename_written {n tmp m : N} (c : C) (hm : m ≠ tmp)
    (hn : n ≠ tmp) :
    (((d.write tmp c).sync tmp).rename tmp n).entries m =
      (d.put n (some ⟨c, true⟩)).entries m := by
  rw [rename, entries_put_of_ne _ _ hm]
  by_cases hmn : m = n
  · rw [hmn, entries_put_self, entries_put_self, entries_sync_of_ne _ hn,
      write, entries_put_of_ne _ _ hn]
    simp [sync]
  · rw [entries_put_of_ne _ _ hmn, entries_put_of_ne _ _ hmn,
      entries_sync_of_ne _ hm, write, entries_put_of_ne _ _ hm]

end Changes

/-- What an entry may have become. -/
def Leaves : Option (File C) → Option C → Prop
  | none, left => left = none
  | some ⟨c, true⟩, left => left = some c
  | some ⟨_, false⟩, _ => True

/-- Each name is left with what one of its possible entries may become. -/
def Survives (d : Directory N C) (left : N → Option C) : Prop :=
  ∀ n, ∃ f ∈ d.entries n, Leaves f (left n)

/-- The directory as it is found after a crash. -/
def reopened (left : N → Option C) : Directory N C where
  files := fun n => (left n).map fun c => ⟨c, true⟩
  earlier := fun _ => []

/-- No possible entry of a name is a file that was not synced. -/
def Settled (d : Directory N C) (n : N) : Prop :=
  ∀ f ∈ d.entries n, ∀ file, f = some file → file.synced = true

/-- A crash leaves such a name with one of its entries. -/
theorem Survives.mem_entries {d : Directory N C} {left : N → Option C} {n : N}
    (h : d.Survives left) (hsettled : d.Settled n) :
    (reopened left).files n ∈ d.entries n := by
  obtain ⟨f, hf, hleft⟩ := h n
  have hsame : (reopened left).files n = f := by
    cases f with
    | none =>
        change Option.map _ (left n) = none
        rw [show left n = none from hleft]
        rfl
    | some file =>
        obtain ⟨c, synced⟩ := file
        have htrue : synced = true := hsettled _ hf _ rfl
        subst htrue
        change Option.map _ (left n) = _
        rw [show left n = some c from hleft]
        rfl
  rw [hsame]
  exact hf

theorem entries_syncEntries (d : Directory N C) (n : N) :
    d.syncEntries.entries n = [d.files n] := rfl

end Directory

namespace Durable

variable {S : Type u} {Err : Type v} {α β : Type w}

/-- The commits are a chain of related stores, a return satisfies `Q` and an
exception `E`. -/
def Follows (R : S → S → Prop) (E : Err → S → Prop) (x : Durable S Err α)
    (Q : α → S → Prop) (s : S) : Prop :=
  (s :: (x s).commits).IsChain R ∧
    match (x s).result with
    | .ok a => Q a ((x s).store s)
    | .error err => E err ((x s).store s)

variable {R : S → S → Prop} {E : Err → S → Prop} {s : S}

theorem follows_pure {a : α} {Q : α → S → Prop} (h : Q a s) :
    Follows R E (pure a) Q s :=
  ⟨.singleton s, h⟩

theorem follows_ok {a : α} {Q : α → S → Prop} (h : Q a s) :
    Follows R E (liftExcept (.ok a)) Q s :=
  ⟨.singleton s, h⟩

theorem follows_error {err : Err} {Q : α → S → Prop} (h : E err s) :
    Follows R E (liftExcept (.error err)) Q s :=
  ⟨.singleton s, h⟩

theorem follows_bind {x : Durable S Err α} {f : α → Durable S Err β}
    {Q : β → S → Prop} (h : Follows R E x (fun a => Follows R E (f a) Q) s) :
    Follows R E (x >>= f) Q s := by
  change Follows R E (andThen x f) Q s
  obtain ⟨hchain, hend⟩ := h
  unfold Follows andThen
  unfold Ended.store at hend ⊢
  cases hresult : (x s).result with
  | error err =>
      rw [hresult] at hend
      exact ⟨hchain, hend⟩
  | ok a =>
      rw [hresult] at hend
      refine ⟨isChain_append_of_getLastD hchain hend.1, ?_⟩
      simp only [getLastD_append]
      exact hend.2

theorem follows_mono {R' : S → S → Prop} {E' : Err → S → Prop}
    {x : Durable S Err α} {Q Q' : α → S → Prop} (h : Follows R E x Q s)
    (hR : ∀ s s', R s s' → R' s s') (hE : ∀ err s', E err s' → E' err s')
    (hQ : ∀ a s', Q a s' → Q' a s') : Follows R' E' x Q' s := by
  refine ⟨h.1.imp hR, ?_⟩
  have hend := h.2
  cases hresult : (x s).result with
  | ok a =>
      rw [hresult] at hend
      exact hQ a _ hend
  | error err =>
      rw [hresult] at hend
      exact hE err _ hend

end Durable

/-- What becomes of one step: it works, or it fails and leaves this much of a
file that was being written. -/
inductive Fate (C : Type v)
  | works
  | fails (left : Option C)

structure Machine (N : Type u) (C : Type v) where
  dir : Directory N C
  fates : List (Fate C)

section Machine

variable {N C Err α β : Type}

/-- One step: what it does when it works and when it fails. -/
def act (err : Err) (done : Directory N C → Directory N C)
    (failed : Option C → Directory N C → Directory N C) :
    Durable (Machine N C) Err Unit := fun m =>
  match m.fates with
  | [] => ⟨[⟨done m.dir, []⟩], .ok ()⟩
  | .works :: rest => ⟨[⟨done m.dir, rest⟩], .ok ()⟩
  | .fails left :: rest => ⟨[⟨failed left m.dir, rest⟩], .error err⟩

/-- Read a file that may be absent. -/
def readFile (err : Err) (n : N) :
    Durable (Machine N C) Err (Option C) := fun m =>
  match m.fates with
  | [] => ⟨[m], .ok (m.dir.read n)⟩
  | .works :: rest => ⟨[⟨m.dir, rest⟩], .ok (m.dir.read n)⟩
  | .fails _ :: rest => ⟨[⟨m.dir, rest⟩], .error err⟩

/-- Whatever becomes of its steps, the directories that a program leaves
behind are a chain, and so on. -/
def Guarded (R : Directory N C → Directory N C → Prop)
    (E : Err → Directory N C → Prop) (x : Durable (Machine N C) Err α)
    (Q : α → Directory N C → Prop) (d : Directory N C) : Prop :=
  ∀ fates, Durable.Follows (fun m m' => R m.dir m'.dir)
    (fun err m => E err m.dir) x (fun a m => Q a m.dir) ⟨d, fates⟩

variable {R : Directory N C → Directory N C → Prop}
  {E : Err → Directory N C → Prop} {d : Directory N C}

theorem guarded_pure {a : α} {Q : α → Directory N C → Prop} (h : Q a d) :
    Guarded R E (pure a) Q d :=
  fun _ => Durable.follows_pure h

theorem guarded_ok {a : α} {Q : α → Directory N C → Prop} (h : Q a d) :
    Guarded R E (Durable.liftExcept (.ok a)) Q d :=
  fun _ => Durable.follows_ok h

theorem guarded_error {err : Err} {Q : α → Directory N C → Prop}
    (h : E err d) : Guarded R E (Durable.liftExcept (.error err)) Q d :=
  fun _ => Durable.follows_error h

theorem guarded_bind {x : Durable (Machine N C) Err α}
    {f : α → Durable (Machine N C) Err β} {Q : β → Directory N C → Prop}
    (h : Guarded R E x (fun a => Guarded R E (f a) Q) d) :
    Guarded R E (x >>= f) Q d := fun fates =>
  Durable.follows_bind (Durable.follows_mono (h fates) (fun _ _ h => h)
    (fun _ _ h => h) fun _ m hm => hm m.fates)

theorem guarded_mono {E' : Err → Directory N C → Prop}
    {x : Durable (Machine N C) Err α} {Q Q' : α → Directory N C → Prop}
    (h : Guarded R E x Q d) (hE : ∀ err d', E err d' → E' err d')
    (hQ : ∀ a d', Q a d' → Q' a d') : Guarded R E' x Q' d := fun fates =>
  Durable.follows_mono (h fates) (fun _ _ h => h) (fun _ _ h => hE _ _ h)
    fun _ _ h => hQ _ _ h

theorem guarded_act {err : Err} {done : Directory N C → Directory N C}
    {failed : Option C → Directory N C → Directory N C}
    {Q : Unit → Directory N C → Prop} (hstep : R d (done d))
    (hdone : Q () (done d)) (hfailed : ∀ left, R d (failed left d))
    (herr : ∀ left, E err (failed left d)) :
    Guarded R E (act err done failed) Q d := by
  intro fates
  cases fates with
  | nil => exact ⟨.cons_cons hstep (.singleton _), hdone⟩
  | cons fate rest =>
      cases fate with
      | works => exact ⟨.cons_cons hstep (.singleton _), hdone⟩
      | fails left => exact ⟨.cons_cons (hfailed left) (.singleton _), herr left⟩

theorem guarded_readFile {err : Err} {n : N}
    {Q : Option C → Directory N C → Prop} (hstep : R d d)
    (hread : Q (d.read n) d) (herr : E err d) :
    Guarded R E (readFile err n) Q d := by
  intro fates
  cases fates with
  | nil => exact ⟨.cons_cons hstep (.singleton _), hread⟩
  | cons fate rest =>
      cases fate with
      | works => exact ⟨.cons_cons hstep (.singleton _), hread⟩
      | fails left => exact ⟨.cons_cons hstep (.singleton _), herr⟩

end Machine

end PredictiveAutoscaler
