/-
The service's loaded models, by key.  Installing replaces atomically, a request
pins one record for its whole inference, and a record that was replaced or
removed is cleaned up outside the lock by whoever finds it unused: the one that
retires it, or the last to let it go.  Threads interleave at their locked
sections and at the cleanups between them.
-/
import Mathlib.Data.Int.Notation
import Mathlib.Data.List.Count
import Mathlib.Logic.Function.Basic
import Mathlib.Tactic.Common

namespace PredictiveAutoscaler.Api

universe u v w

/-- `_Lifecycle`: retirement is terminal. -/
structure Lifecycle where
  refs : ℤ := 0
  installed : Bool := false
  retired : Bool := false
deriving DecidableEq, Repr

/-- The records by key, and the bookkeeping of every record object. -/
structure ModelRegistry (Key : Type u) (ModelRecord : Type v) where
  records : Key → Option ModelRecord := fun _ => none
  life : ModelRecord → Lifecycle := fun _ => {}

variable {Key : Type u} {ModelRecord : Type v} [DecidableEq ModelRecord]

namespace ModelRegistry

variable (registry : ModelRegistry Key ModelRecord)

/-- Mark retired, with whether it can be cleaned up now. -/
def retire (rec : ModelRecord) : ModelRegistry Key ModelRecord × Bool :=
  let life := registry.life rec
  ({ registry with
      life := Function.update registry.life rec { life with retired := true } },
    life.refs = 0)

/-- Retire the record that was found at a key; what is to be disposed of. -/
def retireOld (old : Option ModelRecord) :
    ModelRegistry Key ModelRecord × Option ModelRecord :=
  match old with
  | none => (registry, none)
  | some rec =>
      let (next, unused) := registry.retire rec
      (next, if unused then some rec else none)

/-- The record at its key, installed. -/
def put [DecidableEq Key] (key : ModelRecord → Key) (record : ModelRecord) :
    ModelRegistry Key ModelRecord where
  records := Function.update registry.records (key record) (some record)
  life := Function.update registry.life record
    { registry.life record with installed := true }

/-- The locked section of `install`: none when the record was already installed
once. -/
def install [DecidableEq Key] (key : ModelRecord → Key)
    (record : ModelRecord) :
    Option (ModelRegistry Key ModelRecord × Option ModelRecord) :=
  let life := registry.life record
  if life.retired || life.installed then none
  else
    let old := registry.records (key record)
    some ((registry.put key record).retireOld old)

/-- The locked section of `remove`. -/
def remove [DecidableEq Key] (k : Key) :
    ModelRegistry Key ModelRecord × Option ModelRecord :=
  ({ registry with records := Function.update registry.records k none } :
    ModelRegistry Key ModelRecord).retireOld (registry.records k)

/-- The locked section at the entry of `pin`. -/
def pinEntry (k : Key) : ModelRegistry Key ModelRecord × Option ModelRecord :=
  match registry.records k with
  | none => (registry, none)
  | some rec =>
      let life := registry.life rec
      ({ registry with
          life := Function.update registry.life rec
            { life with refs := life.refs + 1 } }, some rec)

/-- The locked section at the exit of `pin`; what is to be disposed of. -/
def pinExit (held : Option ModelRecord) :
    ModelRegistry Key ModelRecord × Option ModelRecord :=
  match held with
  | none => (registry, none)
  | some rec =>
      let life := registry.life rec
      let refs := life.refs - 1
      ({ registry with
          life := Function.update registry.life rec { life with refs } },
        if life.retired && refs = 0 then some rec else none)

end ModelRegistry

/-- What a thread does next: a locked section, or the cleanup that its last one
left it to run. -/
inductive Action (Key : Type u) (ModelRecord : Type v)
  | install (record : ModelRecord)
  | remove (k : Key)
  | pinEntry (k : Key)
  | pinExit (held : Option ModelRecord)
  | cleanup (rec : ModelRecord)

/-- The registry, the pins that threads hold, the cleanups they are about to
run and those that were run, in order. -/
structure System (Key : Type u) (ModelRecord : Type v) (Thread : Type w) where
  registry : ModelRegistry Key ModelRecord := {}
  pins : List (Thread × Option ModelRecord) := []
  disposals : List (Thread × ModelRecord) := []
  cleaned : List ModelRecord := []

namespace System

variable {Thread : Type w} (sys : System Key ModelRecord Thread)

/-- A thread about to clean up does nothing else first. -/
def busy [DecidableEq Thread] (thread : Thread) : Bool :=
  sys.disposals.any (·.1 = thread)

/-- After a locked section, with what it decided to dispose of. -/
def leave (thread : Thread)
    (result : ModelRegistry Key ModelRecord × Option ModelRecord) :
    System Key ModelRecord Thread :=
  { sys with
    registry := result.1
    disposals := result.2.toList.map (thread, ·) ++ sys.disposals }

variable [DecidableEq Key] [DecidableEq Thread]

/-- One step of a thread, when it can take it. An `install` that raises changes
nothing. -/
def step (key : ModelRecord → Key) (thread : Thread) :
    Action Key ModelRecord → Option (System Key ModelRecord Thread)
  | .install record =>
      if sys.busy thread then none
      else
        match sys.registry.install key record with
        | none => some sys
        | some result => some (sys.leave thread result)
  | .remove k =>
      if sys.busy thread then none
      else some (sys.leave thread (sys.registry.remove k))
  | .pinEntry k =>
      if sys.busy thread then none
      else
        let (registry, held) := sys.registry.pinEntry k
        some { sys with registry, pins := (thread, held) :: sys.pins }
  | .pinExit held =>
      if sys.busy thread || (thread, held) ∉ sys.pins then none
      else
        some ({ sys with pins := sys.pins.erase (thread, held) } |>.leave thread
          (sys.registry.pinExit held))
  | .cleanup rec =>
      if (thread, rec) ∈ sys.disposals then
        some { sys with
          disposals := sys.disposals.erase (thread, rec)
          cleaned := sys.cleaned ++ [rec] }
      else none

/-- A run of any number of threads, from the empty registry. -/
inductive Reaches (key : ModelRecord → Key) :
    System Key ModelRecord Thread → Prop
  | empty : Reaches key {}
  | step {sys sys' : System Key ModelRecord Thread} (thread : Thread)
      (action : Action Key ModelRecord) (before : Reaches key sys)
      (taken : sys.step key thread action = some sys') : Reaches key sys'

end System

namespace ModelRegistry

variable {registry : ModelRegistry Key ModelRecord}

theorem retireOld_records (old : Option ModelRecord) :
    (registry.retireOld old).1.records = registry.records := by
  cases old <;> rfl

theorem retireOld_life (old : Option ModelRecord) (r : ModelRecord) :
    (registry.retireOld old).1.life r =
      { registry.life r with
        retired := (registry.life r).retired || decide (old = some r) } := by
  cases old with
  | none => simp [retireOld]
  | some rec =>
      by_cases hr : rec = r
      · subst hr
        simp [retireOld, retire]
      · simp [retireOld, retire, hr, Function.update_of_ne (Ne.symm hr)]

/-- A record is disposed of when it is found and nobody holds it. -/
theorem retireOld_dispose (old : Option ModelRecord) (r : ModelRecord) :
    (registry.retireOld old).2 = some r ↔
      old = some r ∧ (registry.life r).refs = 0 := by
  cases old with
  | none => simp [retireOld]
  | some rec =>
      by_cases hr : rec = r
      · subst hr
        simp [retireOld, retire]
      · simp [retireOld, retire, hr]

theorem put_life [DecidableEq Key] (key : ModelRecord → Key)
    (record r : ModelRecord) :
    (registry.put key record).life r =
      { registry.life r with
        installed :=
          (registry.life r).installed || decide (r = record) } := by
  by_cases hr : r = record
  · subst hr
    simp [put]
  · simp [put, hr]

theorem pinEntry_held (k : Key) :
    (registry.pinEntry k).2 = registry.records k := by
  unfold pinEntry
  cases registry.records k <;> rfl

theorem pinEntry_records (k : Key) :
    (registry.pinEntry k).1.records = registry.records := by
  unfold pinEntry
  cases registry.records k <;> rfl

theorem pinEntry_life (k : Key) (r : ModelRecord) :
    (registry.pinEntry k).1.life r =
      { registry.life r with
        refs := (registry.life r).refs +
          if registry.records k = some r then 1 else 0 } := by
  unfold pinEntry
  cases registry.records k with
  | none => simp
  | some rec =>
      by_cases hr : rec = r
      · subst hr
        simp
      · simp [hr, Function.update_of_ne (Ne.symm hr)]

theorem pinExit_records (held : Option ModelRecord) :
    (registry.pinExit held).1.records = registry.records := by
  cases held <;> rfl

theorem pinExit_life (held : Option ModelRecord) (r : ModelRecord) :
    (registry.pinExit held).1.life r =
      { registry.life r with
        refs := (registry.life r).refs -
          if held = some r then 1 else 0 } := by
  cases held with
  | none => simp [pinExit]
  | some rec =>
      by_cases hr : rec = r
      · subst hr
        simp [pinExit]
      · simp [pinExit, hr, Function.update_of_ne (Ne.symm hr)]

theorem pinExit_dispose (held : Option ModelRecord) (r : ModelRecord) :
    (registry.pinExit held).2 = some r ↔
      held = some r ∧ (registry.life r).retired = true ∧
        (registry.life r).refs - 1 = 0 := by
  cases held with
  | none => simp [pinExit]
  | some rec =>
      by_cases hr : rec = r
      · subst hr
        simp [pinExit]
      · simp [pinExit, hr]

end ModelRegistry

namespace System

variable {Thread : Type w}

/-- How many pins of a record are held. -/
def held (sys : System Key ModelRecord Thread) (r : ModelRecord) : ℕ :=
  sys.pins.countP fun pin => pin.2 = some r

/-- How many cleanups of a record are about to run. -/
def awaiting (sys : System Key ModelRecord Thread) (r : ModelRecord) : ℕ :=
  sys.disposals.countP fun disposal => disposal.2 = r

/-- The references are the pins, every record that was retired and let go was
disposed of once, and a key's record is the one that is not retired. -/
structure Kept (key : ModelRecord → Key)
    (sys : System Key ModelRecord Thread) : Prop where
  refs : ∀ r, (sys.registry.life r).refs = sys.held r
  disposed : ∀ r, sys.cleaned.count r + sys.awaiting r =
    if (sys.registry.life r).retired = true ∧
      (sys.registry.life r).refs = 0 then 1 else 0
  keyed : ∀ k r, sys.registry.records k = some r → key r = k ∧
    (sys.registry.life r).installed = true ∧
    (sys.registry.life r).retired = false
  current : ∀ r, (sys.registry.life r).installed = true →
    (sys.registry.life r).retired = false →
    sys.registry.records (key r) = some r

theorem awaiting_leave (sys : System Key ModelRecord Thread) (thread : Thread)
    (result : ModelRegistry Key ModelRecord × Option ModelRecord)
    (r : ModelRecord) :
    (sys.leave thread result).awaiting r =
      (if result.2 = some r then 1 else 0) + sys.awaiting r := by
  unfold leave awaiting
  rw [List.countP_append]
  cases result.2 <;> simp [List.countP_cons]

section Step

variable {key : ModelRecord → Key} {sys : System Key ModelRecord Thread}
  (h : sys.Kept key) (thread : Thread)

include h

/-- Retiring what a key's record was, once the key has another or none. -/
theorem Kept.retireOld {registry : ModelRegistry Key ModelRecord}
    {old : Option ModelRecord}
    (hrefs : ∀ r, (registry.life r).refs = (sys.registry.life r).refs)
    (hretired : ∀ r, (registry.life r).retired = (sys.registry.life r).retired)
    (hold : ∀ r, old = some r → (sys.registry.life r).retired = false)
    (hkeyed : ∀ k r, registry.records k = some r → key r = k ∧
      (registry.life r).installed = true ∧
      (registry.life r).retired = false ∧ old ≠ some r)
    (hcurrent : ∀ r, (registry.life r).installed = true →
      (registry.life r).retired = false → old ≠ some r →
      registry.records (key r) = some r) :
    (sys.leave thread (registry.retireOld old)).Kept key := by
  refine ⟨fun r => ?_, fun r => ?_, fun k r hr => ?_, fun r hin hlive => ?_⟩
  · change ((registry.retireOld old).1.life r).refs = _
    rw [ModelRegistry.retireOld_life]
    exact (hrefs r).trans (h.refs r)
  · have hdisposed := h.disposed r
    have hlife : (registry.retireOld old).1.life r = { registry.life r with
        retired := (registry.life r).retired || decide (old = some r) } :=
      ModelRegistry.retireOld_life old r
    rw [awaiting_leave]
    simp only [ModelRegistry.retireOld_dispose, hrefs]
    change sys.cleaned.count r + _ =
      if ((registry.retireOld old).1.life r).retired = true ∧
        ((registry.retireOld old).1.life r).refs = 0 then 1 else 0
    rw [hlife, hretired, hrefs]
    by_cases hr : old = some r
    · rw [hold r hr] at hdisposed ⊢
      simp only [Bool.false_eq_true, false_and, if_false] at hdisposed
      simp only [hr, decide_true, Bool.or_true, true_and]
      omega
    · simp only [hr, decide_false, Bool.or_false, false_and, if_false]
      omega
  · change (registry.retireOld old).1.records k = some r at hr
    rw [ModelRegistry.retireOld_records] at hr
    obtain ⟨hkey, hin, hlive, hother⟩ := hkeyed k r hr
    change key r = k ∧ ((registry.retireOld old).1.life r).installed = true ∧
      ((registry.retireOld old).1.life r).retired = false
    rw [ModelRegistry.retireOld_life]
    exact ⟨hkey, hin, by simp [hlive, hother]⟩
  · change ((registry.retireOld old).1.life r).installed = true at hin
    change ((registry.retireOld old).1.life r).retired = false at hlive
    change (registry.retireOld old).1.records (key r) = some r
    rw [ModelRegistry.retireOld_life] at hin hlive
    rw [ModelRegistry.retireOld_records]
    simp only [Bool.or_eq_false_iff, decide_eq_false_iff_not] at hlive
    exact hcurrent r hin hlive.1 hlive.2

theorem Kept.remove [DecidableEq Key] (k : Key) :
    (sys.leave thread (sys.registry.remove k)).Kept key := by
  refine h.retireOld thread (fun _ => rfl) (fun _ => rfl)
    (fun r hr => (h.keyed k r hr).2.2) (fun k' r hr => ?_)
    fun r hin hlive hother => ?_
  · by_cases hk : k' = k
    · subst hk
      simp at hr
    · simp only [Function.update_of_ne hk] at hr
      obtain ⟨hkey, hin, hlive⟩ := h.keyed k' r hr
      refine ⟨hkey, hin, hlive, fun hold => hk ?_⟩
      exact hkey.symm.trans (h.keyed k r hold).1
  · have hrecord := h.current r hin hlive
    have hk : key r ≠ k := fun hk => hother (hk ▸ hrecord)
    simp only [Function.update_of_ne hk]
    exact hrecord

theorem Kept.install [DecidableEq Key] {record : ModelRecord}
    {result : ModelRegistry Key ModelRecord × Option ModelRecord}
    (hinstall : sys.registry.install key record = some result) :
    (sys.leave thread result).Kept key := by
  unfold ModelRegistry.install at hinstall
  dsimp only at hinstall
  split at hinstall
  · cases hinstall
  rename_i hfresh
  simp only [Bool.or_eq_true, not_or, Bool.not_eq_true] at hfresh
  obtain ⟨hlive, hfresh⟩ := hfresh
  cases hinstall
  refine h.retireOld thread
    (fun r => by rw [ModelRegistry.put_life])
    (fun r => by rw [ModelRegistry.put_life])
    (fun r hr => (h.keyed _ r hr).2.2) (fun k r hr => ?_)
    fun r hin hlive' hother => ?_
  · change Function.update sys.registry.records (key record) (some record) k =
      some r at hr
    rw [ModelRegistry.put_life]
    by_cases hk : k = key record
    · subst hk
      rw [Function.update_self] at hr
      cases hr
      refine ⟨rfl, by simp, hlive, fun hold => ?_⟩
      rw [(h.keyed _ _ hold).2.1] at hfresh
      cases hfresh
    · rw [Function.update_of_ne hk] at hr
      obtain ⟨hkey, hin, hlive'⟩ := h.keyed k r hr
      refine ⟨hkey, by simp [hin], hlive', fun hold => hk ?_⟩
      exact hkey.symm.trans (h.keyed _ r hold).1
  · change Function.update sys.registry.records (key record) (some record)
      (key r) = some r
    rw [ModelRegistry.put_life] at hin hlive'
    by_cases hr : r = record
    · subst hr
      rw [Function.update_self]
    · simp only [hr, decide_false, Bool.or_false] at hin
      have hrecord := h.current r hin hlive'
      have hk : key r ≠ key record := fun hk => hother (hk ▸ hrecord)
      rw [Function.update_of_ne hk]
      exact hrecord

/-- A pin takes what its key has, which is not retired. -/
theorem Kept.pinEntry (k : Key) :
    ({ sys with
      registry := (sys.registry.pinEntry k).1
      pins := (thread, (sys.registry.pinEntry k).2) :: sys.pins } :
      System Key ModelRecord Thread).Kept key := by
  refine ⟨fun r => ?_, fun r => ?_, fun k' r hr => ?_, fun r hin hlive => ?_⟩
  · have hrefs := h.refs r
    dsimp only [held]
    rw [ModelRegistry.pinEntry_life, ModelRegistry.pinEntry_held,
      List.countP_cons, hrefs]
    by_cases hr : sys.registry.records k = some r <;> simp [hr, held]
  · have hdisposed := h.disposed r
    dsimp only [awaiting] at hdisposed ⊢
    rw [ModelRegistry.pinEntry_life]
    by_cases hr : sys.registry.records k = some r
    · have hlive := (h.keyed k r hr).2.2
      simpa [hlive] using hdisposed
    · simpa [hr] using hdisposed
  · dsimp only at hr ⊢
    rw [ModelRegistry.pinEntry_records] at hr
    rw [ModelRegistry.pinEntry_life]
    exact h.keyed k' r hr
  · dsimp only at hin hlive ⊢
    rw [ModelRegistry.pinEntry_life] at hin hlive
    rw [ModelRegistry.pinEntry_records]
    exact h.current r hin hlive

/-- The last to let a retired record go disposes of it. -/
theorem Kept.pinExit [DecidableEq Thread] {found : Option ModelRecord}
    (hheld : (thread, found) ∈ sys.pins) :
    (({ sys with pins := sys.pins.erase (thread, found) } :
      System Key ModelRecord Thread).leave thread
        (sys.registry.pinExit found)).Kept key := by
  have hpins : ∀ r, sys.held r =
      (sys.pins.erase (thread, found)).countP (fun pin => pin.2 = some r) +
        if found = some r then 1 else 0 := by
    intro r
    have hperm := List.perm_cons_erase hheld
    unfold held
    rw [hperm.countP_eq, List.countP_cons]
    simp
  refine ⟨fun r => ?_, fun r => ?_, fun k r hr => ?_, fun r hin hlive => ?_⟩
  · change ((sys.registry.pinExit found).1.life r).refs =
      ((sys.pins.erase (thread, found)).countP fun pin => pin.2 = some r : ℕ)
    have hrefs := h.refs r
    have hcount := hpins r
    rw [ModelRegistry.pinExit_life]
    by_cases hr : found = some r
    · simp only [hr, if_true] at hcount ⊢
      omega
    · simp only [hr, if_false] at hcount ⊢
      omega
  · have hdisposed := h.disposed r
    have hrefs := h.refs r
    have hcount := hpins r
    rw [awaiting_leave]
    simp only [ModelRegistry.pinExit_dispose]
    change sys.cleaned.count r + (_ + sys.awaiting r) =
      if ((sys.registry.pinExit found).1.life r).retired = true ∧
        ((sys.registry.pinExit found).1.life r).refs = 0 then 1 else 0
    rw [ModelRegistry.pinExit_life]
    by_cases hr : found = some r
    · have hpositive : (sys.registry.life r).refs ≠ 0 := by
        simp only [hr, if_true] at hcount
        omega
      simp only [hpositive, and_false, if_false] at hdisposed
      simp only [hr, if_true, true_and]
      omega
    · simp only [hr, if_false, false_and, Int.sub_zero, Nat.zero_add]
      exact hdisposed
  · change (sys.registry.pinExit found).1.records k = some r at hr
    change key r = k ∧ ((sys.registry.pinExit found).1.life r).installed =
      true ∧ ((sys.registry.pinExit found).1.life r).retired = false
    rw [ModelRegistry.pinExit_records] at hr
    rw [ModelRegistry.pinExit_life]
    exact h.keyed k r hr
  · change ((sys.registry.pinExit found).1.life r).installed = true at hin
    change ((sys.registry.pinExit found).1.life r).retired = false at hlive
    change (sys.registry.pinExit found).1.records (key r) = some r
    rw [ModelRegistry.pinExit_life] at hin hlive
    rw [ModelRegistry.pinExit_records]
    exact h.current r hin hlive

theorem Kept.cleanup [DecidableEq Thread] {rec : ModelRecord}
    (hwaits : (thread, rec) ∈ sys.disposals) :
    ({ sys with
      disposals := sys.disposals.erase (thread, rec)
      cleaned := sys.cleaned ++ [rec] } :
      System Key ModelRecord Thread).Kept key := by
  refine ⟨h.refs, fun r => ?_, h.keyed, h.current⟩
  have hdisposed := h.disposed r
  have hperm := List.perm_cons_erase hwaits
  unfold awaiting at hdisposed ⊢
  rw [hperm.countP_eq, List.countP_cons] at hdisposed
  dsimp only
  rw [List.count_append, List.count_singleton, ← hdisposed]
  by_cases hr : rec = r
  · simp only [hr, beq_self_eq_true, if_true, decide_true]
    omega
  · simp only [hr, beq_iff_eq, if_false, decide_false, Bool.false_eq_true]
    omega

/-- Every step of every thread keeps the invariant. -/
theorem Kept.step [DecidableEq Key] [DecidableEq Thread]
    {action : Action Key ModelRecord} {sys' : System Key ModelRecord Thread}
    (hstep : sys.step key thread action = some sys') : sys'.Kept key := by
  cases action with
  | install record =>
      simp only [System.step] at hstep
      split at hstep
      · cases hstep
      split at hstep
      · cases hstep
        exact h
      · rename_i hresult
        cases hstep
        exact h.install thread hresult
  | remove k =>
      simp only [System.step] at hstep
      split at hstep <;> cases hstep
      exact h.remove thread k
  | pinEntry k =>
      simp only [System.step] at hstep
      split at hstep <;> cases hstep
      exact h.pinEntry thread k
  | pinExit found =>
      simp only [System.step] at hstep
      split at hstep
      · cases hstep
      rename_i hmember
      cases hstep
      refine h.pinExit thread ?_
      by_contra hnot
      simp [hnot] at hmember
  | cleanup rec =>
      simp only [System.step] at hstep
      split at hstep
      · rename_i hwaits
        cases hstep
        exact h.cleanup thread hwaits
      · cases hstep

end Step

theorem Reaches.kept [DecidableEq Key] [DecidableEq Thread]
    {key : ModelRecord → Key} {sys : System Key ModelRecord Thread}
    (h : Reaches key sys) : sys.Kept key := by
  induction h with
  | empty =>
      refine ⟨fun _ => rfl, fun _ => rfl, fun _ _ hr => ?_, fun _ hin _ => ?_⟩
      · cases hr
      · cases hin
  | step thread action _ taken ih => exact ih.step thread taken

/-- A thread's action that retires a record: another takes its key, or its key
is removed. -/
def Retires (key : ModelRecord → Key) (r : ModelRecord) :
    Action Key ModelRecord → Prop
  | .install record => key record = key r
  | .remove k => k = key r
  | _ => False

/-- What a run keeps of every record's life. -/
structure LifecycleKept [DecidableEq Key] [DecidableEq Thread]
    (key : ModelRecord → Key) (sys : System Key ModelRecord Thread) :
    Prop where
  once : ∀ r, sys.cleaned.count r ≤ 1
  retired_first : ∀ r ∈ sys.cleaned, (sys.registry.life r).retired = true
  unheld : ∀ r ∈ sys.cleaned, ∀ thread, (thread, some r) ∉ sys.pins
  moment : ∀ thread r sys', sys.step key thread (.cleanup r) = some sys' →
    sys'.cleaned = sys.cleaned ++ [r] ∧ r ∉ sys.cleaned ∧
      (sys.registry.life r).retired = true ∧
      ∀ thread', (thread', some r) ∉ sys.pins
  logged : ∀ thread action sys', sys.step key thread action = some sys' →
    (∀ r, action ≠ .cleanup r) → sys'.cleaned = sys.cleaned
  retired_by : ∀ thread action sys' r,
    sys.step key thread action = some sys' →
    (sys.registry.life r).retired = false →
    (sys'.registry.life r).retired = true →
    Retires key r action ∧ sys.registry.records (key r) = some r
  retired_stays : ∀ thread action sys' r,
    sys.step key thread action = some sys' →
    (sys.registry.life r).retired = true →
    (sys'.registry.life r).retired = true
  obtained : ∀ thread k sys', sys.step key thread (.pinEntry k) = some sys' →
    ∃ found, sys'.pins = (thread, found) :: sys.pins ∧
      ∀ r, found = some r →
        key r = k ∧ (sys.registry.life r).retired = false
  one_installed : ∀ r r', key r = key r' →
    (sys.registry.life r).installed = true →
    (sys.registry.life r).retired = false →
    (sys.registry.life r').installed = true →
    (sys.registry.life r').retired = false → r = r'
  runs : ∀ thread r, (thread, r) ∈ sys.disposals →
    (sys.step key thread (.cleanup r)).isSome
  settled : (∀ thread r, (thread, some r) ∉ sys.pins) → sys.disposals = [] →
    ∀ r, r ∈ sys.cleaned ↔ (sys.registry.life r).retired = true

/-- A record that is cleaned up, or about to be, was retired and let go. -/
theorem Kept.unused {key : ModelRecord → Key}
    {sys : System Key ModelRecord Thread} (h : sys.Kept key) {r : ModelRecord}
    (hr : 0 < sys.cleaned.count r + sys.awaiting r) :
    (sys.registry.life r).retired = true ∧
      ∀ thread, (thread, some r) ∉ sys.pins := by
  have hdisposed := h.disposed r
  split at hdisposed
  · rename_i hgone
    refine ⟨hgone.1, fun thread hpin => ?_⟩
    have hnone : sys.held r = 0 := by
      have hrefs := h.refs r
      omega
    have hall := List.countP_eq_zero.mp hnone _ hpin
    simp at hall
  · omega

theorem awaiting_pos {sys : System Key ModelRecord Thread} {thread : Thread} {r : ModelRecord}
    (hwaits : (thread, r) ∈ sys.disposals) : 0 < sys.awaiting r :=
  List.countP_pos_iff.mpr ⟨_, hwaits, by simp⟩

section Lifecycle

variable [DecidableEq Key] [DecidableEq Thread] {key : ModelRecord → Key}
  {sys : System Key ModelRecord Thread}

/-- How a step moves a record's retirement. -/
theorem retired_step (h : sys.Kept key) {thread : Thread}
    {action : Action Key ModelRecord} {sys' : System Key ModelRecord Thread}
    (hstep : sys.step key thread action = some sys') (r : ModelRecord) :
    (sys'.registry.life r).retired = (sys.registry.life r).retired ∨
      (sys'.registry.life r).retired = true ∧ Retires key r action ∧
        sys.registry.records (key r) = some r := by
  cases action with
  | install record =>
      simp only [System.step] at hstep
      split at hstep
      · cases hstep
      split at hstep
      · cases hstep
        exact .inl rfl
      · rename_i hresult
        cases hstep
        unfold ModelRegistry.install at hresult
        dsimp only at hresult
        split at hresult
        · cases hresult
        cases hresult
        simp only [leave, ModelRegistry.retireOld_life,
          ModelRegistry.put_life]
        by_cases hold : sys.registry.records (key record) = some r
        · have hkey := (h.keyed _ r hold).1
          exact .inr ⟨by simp [hold], hkey.symm, hkey ▸ hold⟩
        · exact .inl (by simp [hold])
  | remove k =>
      simp only [System.step] at hstep
      split at hstep <;> cases hstep
      simp only [leave, ModelRegistry.remove, ModelRegistry.retireOld_life]
      by_cases hold : sys.registry.records k = some r
      · have hkey := (h.keyed _ r hold).1
        exact .inr ⟨by simp [hold], hkey.symm, hkey ▸ hold⟩
      · exact .inl (by simp [hold])
  | pinEntry k =>
      simp only [System.step] at hstep
      split at hstep <;> cases hstep
      exact .inl (by rw [ModelRegistry.pinEntry_life])
  | pinExit found =>
      simp only [System.step] at hstep
      split at hstep <;> cases hstep
      exact .inl (by rw [leave, ModelRegistry.pinExit_life])
  | cleanup rec =>
      simp only [System.step] at hstep
      split at hstep <;> cases hstep
      exact .inl rfl

/-- Nothing but a cleanup cleans up. -/
theorem cleaned_step {thread : Thread} {action : Action Key ModelRecord}
    {sys' : System Key ModelRecord Thread}
    (hstep : sys.step key thread action = some sys')
    (hother : ∀ r, action ≠ .cleanup r) : sys'.cleaned = sys.cleaned := by
  cases action with
  | install record =>
      simp only [System.step] at hstep
      split at hstep
      · cases hstep
      · split at hstep <;> cases hstep <;> rfl
  | remove k =>
      simp only [System.step] at hstep
      split at hstep <;> cases hstep
      rfl
  | pinEntry k =>
      simp only [System.step] at hstep
      split at hstep <;> cases hstep
      rfl
  | pinExit found =>
      simp only [System.step] at hstep
      split at hstep <;> cases hstep
      rfl
  | cleanup rec => exact absurd rfl (hother rec)

/-- In every run the cleanup of a record runs exactly once, after it was
retired and let go. -/
theorem reaches_lifecycle (h : Reaches key sys) : sys.LifecycleKept key := by
  have hkept := h.kept
  have hcleaned : ∀ r ∈ sys.cleaned, (sys.registry.life r).retired = true ∧
      ∀ thread, (thread, some r) ∉ sys.pins := fun r hr =>
    hkept.unused (Nat.add_pos_left (List.count_pos_iff.mpr hr) _)
  refine
    { once := fun r => ?_
      retired_first := fun r hr => (hcleaned r hr).1
      unheld := fun r hr => (hcleaned r hr).2
      moment := fun thread r sys' hstep => ?_
      logged := fun thread action sys' hstep hother => ?_
      retired_by := fun thread action sys' r hstep hlive hretired => ?_
      retired_stays := fun thread action sys' r hstep hretired => ?_
      obtained := fun thread k sys' hstep => ?_
      one_installed := fun r r' hkey hin hlive hin' hlive' => ?_
      runs := fun thread r hwaits => ?_
      settled := fun hfree hidle r => ⟨fun hr => (hcleaned r hr).1, ?_⟩ }
  · have hdisposed := hkept.disposed r
    split at hdisposed <;> omega
  · simp only [System.step] at hstep
    split at hstep
    · rename_i hwaits
      cases hstep
      have hpositive := awaiting_pos hwaits
      obtain ⟨hretired, hfree⟩ := hkept.unused (Nat.add_pos_right _ hpositive)
      refine ⟨rfl, fun hmem => ?_, hretired, hfree⟩
      have hdisposed := hkept.disposed r
      have hcount := List.count_pos_iff.mpr hmem
      split at hdisposed <;> omega
    · cases hstep
  · exact cleaned_step hstep hother
  · rcases retired_step hkept hstep r with heq | ⟨-, hby, hold⟩
    · rw [heq, hlive] at hretired
      cases hretired
    · exact ⟨hby, hold⟩
  · rcases retired_step hkept hstep r with heq | ⟨hnew, -⟩
    · rw [heq]
      exact hretired
    · exact hnew
  · simp only [System.step] at hstep
    split at hstep <;> cases hstep
    refine ⟨_, rfl, fun r hr => ?_⟩
    rw [ModelRegistry.pinEntry_held] at hr
    obtain ⟨hkey, -, hlive⟩ := hkept.keyed k r hr
    exact ⟨hkey, hlive⟩
  · have hrecord := hkept.current r hin hlive
    rw [hkey, hkept.current r' hin' hlive'] at hrecord
    exact (Option.some.inj hrecord).symm
  · simp only [System.step, if_pos hwaits]
    rfl
  · intro hretired
    have hdisposed := hkept.disposed r
    have hrefs := hkept.refs r
    have hnone : sys.held r = 0 := List.countP_eq_zero.mpr fun pin hpin hr =>
      hfree pin.1 r (by
        rw [← of_decide_eq_true hr]
        exact hpin)
    have hidle' : sys.awaiting r = 0 := by
      unfold awaiting
      rw [hidle]
      rfl
    rw [if_pos ⟨hretired, by omega⟩, hidle'] at hdisposed
    exact List.count_pos_iff.mp (by omega)

end Lifecycle

end System

namespace RegistryWitness

/-- Two records of one key; a request holds the first when the second replaces
it. -/
theorem replaced_while_pinned : ∃ sys : System ℕ ℕ Bool,
    System.Reaches (fun _ => 0) sys ∧ sys.cleaned = [7] ∧
      sys.LifecycleKept fun _ => 0 := by
  have hrun : System.Reaches (fun _ : ℕ => (0 : ℕ)) (_ : System ℕ ℕ Bool) :=
    .step true (.cleanup 7)
      (.step true (.pinExit (some 7))
        (.step false (.install 8)
          (.step true (.pinEntry 0)
            (.step false (.install 7) .empty rfl) rfl) rfl) rfl) rfl
  exact ⟨_, hrun, rfl, System.reaches_lifecycle hrun⟩

end RegistryWitness

end PredictiveAutoscaler.Api
