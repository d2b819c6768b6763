/-
The hand-over among others who change the cluster at any time.  The API server
carries out a write that is bound to a version only on that version, and a
version names one state of one object.  So what a run deletes, stops or
activates is the very object that it checked, however the calls of the runs
and the changes of others interleave.
-/
import PredictiveAutoscaler.Migration.Handover

namespace PredictiveAutoscaler.Migration

open Talk

/-- The objects of a resource: those stored now, among all that ever were.  No
two of them under one name have one version. -/
structure Shelf (A : Type) (data : A → Metadata) where
  stored : String × String → Option A
  ever : A → Prop
  stored_ever : ∀ k o, stored k = some o →
    ever o ∧ ((data o).nameSpace, (data o).name) = k
  version_unique : ∀ o o', ever o → ever o' →
    ((data o).nameSpace, (data o).name) =
      ((data o').nameSpace, (data o').name) →
    (data o).resourceVersion = (data o').resourceVersion → o = o'

/-- The API server, as far as the hand-over reads and writes it by version. -/
structure Server where
  legacy : Shelf Obj Obj.metadata
  new : Shelf Obj Obj.metadata
  deployments : Shelf Deployment Deployment.metadata

/-- Any change of the stored objects: what ever was stored still was. -/
structure Server.Later (s s' : Server) : Prop where
  legacy : ∀ o, s.legacy.ever o → s'.legacy.ever o
  new : ∀ o, s.new.ever o → s'.new.ever o
  deployments : ∀ dep, s.deployments.ever dep → s'.deployments.ever dep

/-- The precondition of a write on what is stored. -/
def Server.Meets (s : Server) : Call → Prop
  | .deleteLegacy nameSpace name uid version => ∃ o,
      s.legacy.stored (nameSpace, name) = some o ∧ o.metadata.uid = uid ∧
        o.metadata.resourceVersion = version
  | .setActive nameSpace name uid version => ∃ o,
      s.new.stored (nameSpace, name) = some o ∧ o.metadata.uid = uid ∧
        o.metadata.resourceVersion = version
  | .scaleToZero nameSpace name version => ∃ dep,
      s.deployments.stored (nameSpace, name) = some dep ∧
        dep.metadata.resourceVersion = version
  | .create object => ∀ nameSpace, object.nameSpace = .str nameSpace →
      s.new.stored (nameSpace, object.name) = none
  | _ => False

/-- An object that was read under a name was stored there. -/
structure Truthful (s : Server) (event : Sigma Reply) : Prop where
  legacy : ∀ at_ o, event = sawLegacy at_ (some o) →
    s.legacy.ever o ∧ o.key = at_
  new : ∀ at_ o, event = sawNew at_ (some o) → s.new.ever o ∧ o.key = at_
  deployment : ∀ at_ dep, event = sawDeployment at_ (some dep) →
    s.deployments.ever dep ∧
      (dep.metadata.nameSpace, dep.metadata.name) = at_

/-- A call and its reply: what is read was stored, and what is stored changes
only by a write whose precondition holds.  A write may fail, or be carried out
and its answer be lost. -/
structure Serves (s : Server) (c : Call) (r : Reply c) (s' : Server) :
    Prop where
  later : s.Later s'
  truthful : Truthful s ⟨c, r⟩
  bound : s' ≠ s → s.Meets c

section Interleaved

variable (decimal : String → Option Decimal) (inv : Inventory)

/-- The cluster and the run of the tool that is going on. -/
structure Cluster where
  server : Server
  invocation : Invocation
  past : Past Reply
  rest : Command Unit

/-- What happens next: somebody changes the cluster, the run makes its call,
or it is cut off and another one starts. -/
inductive Happens : Cluster → Cluster → Prop
  | others {s s' : Server} (i : Invocation) (past : Past Reply)
      (rest : Command Unit) (h : s.Later s') :
      Happens ⟨s, i, past, rest⟩ ⟨s', i, past, rest⟩
  | call {s s' : Server} (i : Invocation) (past : Past Reply) {c : Call}
      (next : Reply c → Command Unit) {r : Reply c} (h : Serves s c r s') :
      Happens ⟨s, i, past, .call c next⟩ ⟨s', i, past ++ [⟨c, r⟩], next r⟩
  | start (s : Server) (i : Invocation) (past : Past Reply)
      (rest : Command Unit) (j : Invocation) :
      Happens ⟨s, i, past, rest⟩ ⟨s, j, [], j.command decimal inv⟩

/-- The states of a cluster from the start of a first run on. -/
inductive Reachable : Cluster → Prop
  | first (s : Server) (i : Invocation) :
      Reachable ⟨s, i, [], i.command decimal inv⟩
  | next {k k' : Cluster} (h : Reachable k) (hstep : Happens decimal inv k k') :
      Reachable k'

/-- The run is one of the tool's, and all that it read was stored. -/
structure Cluster.Sound (k : Cluster) : Prop where
  reaches : Reaches (k.invocation.command decimal inv) k.past k.rest
  truthful : ∀ event ∈ k.past, Truthful k.server event

variable {decimal inv}

theorem Truthful.later {s s' : Server} {event : Sigma Reply}
    (h : Truthful s event) (hlater : s.Later s') : Truthful s' event where
  legacy at_ o hevent :=
    (h.legacy at_ o hevent).imp_left (hlater.legacy o)
  new at_ o hevent := (h.new at_ o hevent).imp_left (hlater.new o)
  deployment at_ dep hevent :=
    (h.deployment at_ dep hevent).imp_left (hlater.deployments dep)

theorem Cluster.Sound.happens {k k' : Cluster} (h : k.Sound decimal inv)
    (hstep : Happens decimal inv k k') : k'.Sound decimal inv := by
  cases hstep with
  | others i past rest hlater =>
      exact ⟨h.reaches, fun event hevent =>
        (h.truthful event hevent).later hlater⟩
  | call i past next hserves =>
      constructor
      case reaches => exact h.reaches.reply _
      case truthful =>
        intro event hevent
        rcases List.mem_append.mp hevent with hold | hnew
        · exact (h.truthful event hold).later hserves.later
        · rw [List.mem_singleton.mp hnew]
          exact hserves.truthful.later hserves.later
  | start s i past rest j =>
      exact ⟨.start, fun event hevent => absurd hevent List.not_mem_nil⟩

theorem Reachable.sound {k : Cluster} (h : Reachable decimal inv k) :
    k.Sound decimal inv := by
  induction h with
  | first s i =>
      exact ⟨.start, fun event hevent => absurd hevent List.not_mem_nil⟩
  | next _ hstep ih => exact ih.happens hstep

/-- A stored object whose version was read is the object that was read. -/
theorem Shelf.eq_of_version {A : Type} {data : A → Metadata}
    (shelf : Shelf A data) {at_ : String × String} {o read : A}
    (hstored : shelf.stored at_ = some o)
    (hread : shelf.ever read ∧ ((data read).nameSpace, (data read).name) = at_)
    (hversion : (data o).resourceVersion = (data read).resourceVersion) :
    o = read := by
  obtain ⟨hever, hkey⟩ := shelf.stored_ever at_ o hstored
  exact shelf.version_unique o read hever hread.1 (hkey.trans hread.2.symm)
    hversion

variable (decimal inv)

/-- What a call of a run may change: an autoscaler is deleted as it was
recorded, a Deployment is stopped that is a recorded operator, and a
replacement is activated in the very state that passed the check. -/
structure WritesChecked (k : Cluster) : Prop where
  deletes : ∀ nameSpace name uid version next r s',
    k.rest = .call (.deleteLegacy nameSpace name uid version) next →
    Serves k.server (.deleteLegacy nameSpace name uid version) r s' →
    s' ≠ k.server →
    ∃ entry ∈ inv.entries, ∃ o,
      k.server.legacy.stored entry.source.key = some o ∧
      entry.source.key = (nameSpace, name) ∧
      o.metadata.uid = entry.source.uid ∧
      o.spec.value.eq entry.source.spec.value = true
  stops : ∀ nameSpace name version next r s',
    k.rest = .call (.scaleToZero nameSpace name version) next →
    Serves k.server (.scaleToZero nameSpace name version) r s' →
    s' ≠ k.server →
    ∃ op ∈ inv.operators, ∃ dep,
      k.server.deployments.stored op.key = some dep ∧
      op.key = (nameSpace, name) ∧ dep.metadata.uid = op.uid
  activates : ∀ nameSpace name uid version next r s',
    k.rest = .call (.setActive nameSpace name uid version) next →
    Serves k.server (.setActive nameSpace name uid version) r s' →
    s' ≠ k.server →
    ∃ target allowReactive, k.invocation = .activate target allowReactive ∧
      ∃ entry ∈ inv.entries, ∃ o,
        k.server.new.stored entry.replacement = some o ∧
        entry.replacement = (nameSpace, name) ∧
        replacementProblems decimal entry [] allowReactive false o = .ok []

/-- In every state that runs of the tool and changes of others can lead to,
cut off and started again in any order. -/
def Always (P : Cluster → Prop) : Prop :=
  ∀ k, Reachable decimal inv k → P k

variable {decimal inv}

theorem Cluster.Sound.permitted {k : Cluster} (h : k.Sound decimal inv)
    {c : Call} {next : Reply c → Command Unit} (hrest : k.rest = .call c next) :
    Permits decimal inv k.invocation k.past c :=
  (keeps_command k.invocation).obeys k.past c next (hrest ▸ h.reaches)

theorem Cluster.Sound.deletes {k : Cluster} (h : k.Sound decimal inv)
    {nameSpace name uid version : String}
    (hmay : Permits decimal inv k.invocation k.past
      (.deleteLegacy nameSpace name uid version))
    (hmeets : k.server.Meets (.deleteLegacy nameSpace name uid version)) :
    ∃ entry ∈ inv.entries, ∃ o,
      k.server.legacy.stored entry.source.key = some o ∧
      entry.source.key = (nameSpace, name) ∧
      o.metadata.uid = entry.source.uid ∧
      o.spec.value.eq entry.source.spec.value = true := by
  obtain ⟨args, -, entry, live, new, before, pods, hmay⟩ := hmay
  obtain ⟨o, hstored, huid, hversion⟩ := hmeets
  rw [← hmay.source.1] at hstored
  have hread : sawLegacy entry.source.key (some live) ∈ k.past := by
    rw [hmay.read]
    exact List.mem_append_right _ List.mem_cons_self
  have hsame := k.server.legacy.eq_of_version hstored
    ((h.truthful _ hread).legacy _ _ rfl) (hversion.trans hmay.version.symm)
  refine ⟨entry, hmay.entry_mem, o, hstored, hmay.source.1, ?_, ?_⟩
  · exact huid.trans hmay.source.2.symm
  · rw [hsame]
    exact hmay.spec_eq

theorem Cluster.Sound.stops {k : Cluster} (h : k.Sound decimal inv)
    {nameSpace name version : String}
    (hmay : Permits decimal inv k.invocation k.past
      (.scaleToZero nameSpace name version))
    (hmeets : k.server.Meets (.scaleToZero nameSpace name version)) :
    ∃ op ∈ inv.operators, ∃ dep,
      k.server.deployments.stored op.key = some dep ∧
      op.key = (nameSpace, name) ∧ dep.metadata.uid = op.uid := by
  obtain ⟨args, -, op, read, hmay⟩ := hmay
  obtain ⟨dep, hstored, hversion⟩ := hmeets
  rw [← hmay.operator] at hstored
  have hread := List.mem_of_getLast? hmay.read
  have hsame := k.server.deployments.eq_of_version hstored
    ((h.truthful _ hread).deployment _ _ rfl)
    (hversion.trans hmay.version.symm)
  refine ⟨op, hmay.op_mem, dep, hstored, hmay.operator, ?_⟩
  rw [hsame]
  exact hmay.uid

theorem Cluster.Sound.activates {k : Cluster} (h : k.Sound decimal inv)
    {nameSpace name uid version : String}
    (hmay : Permits decimal inv k.invocation k.past
      (.setActive nameSpace name uid version))
    (hmeets : k.server.Meets (.setActive nameSpace name uid version)) :
    ∃ target allowReactive, k.invocation = .activate target allowReactive ∧
      ∃ entry ∈ inv.entries, ∃ o,
        k.server.new.stored entry.replacement = some o ∧
        entry.replacement = (nameSpace, name) ∧
        replacementProblems decimal entry [] allowReactive false o =
          .ok [] := by
  obtain ⟨target, allowReactive, hcalled, entry, read, live, hmay⟩ := hmay
  obtain ⟨o, hstored, -, hversion⟩ := hmeets
  rw [← hmay.replacement] at hstored
  have hread := List.mem_of_getLast? hmay.read
  have hsame := k.server.new.eq_of_version hstored
    ((h.truthful _ hread).new _ _ rfl)
    (hversion.trans hmay.identity.2.symm)
  refine ⟨target, allowReactive, hcalled, entry, hmay.entry_mem, o, hstored,
    hmay.replacement, ?_⟩
  rw [hsame]
  exact hmay.ready

variable (decimal inv) in
/-- However runs of the tool, cut off and started again, interleave with
changes by others: what is deleted, stopped or activated is the recorded
object that was checked. -/
theorem interleaved_writes_checked :
    Always decimal inv (WritesChecked decimal inv) := by
  intro k hreach
  have hsound := hreach.sound
  constructor
  case deletes =>
    intro nameSpace name uid version next r s' hrest hserves hchanged
    exact hsound.deletes (hsound.permitted hrest) (hserves.bound hchanged)
  case stops =>
    intro nameSpace name version next r s' hrest hserves hchanged
    exact hsound.stops (hsound.permitted hrest) (hserves.bound hchanged)
  case activates =>
    intro nameSpace name uid version next r s' hrest hserves hchanged
    exact hsound.activates (hsound.permitted hrest) (hserves.bound hchanged)

end Interleaved

namespace HandoverWitness

def bare (data : Obj → Metadata) : Shelf Obj data where
  stored _ := none
  ever _ := False
  stored_ever _ _ h := by cases h
  version_unique _ _ h := h.elim

/-- The operator's Deployment, before and after it is stopped. -/
def deployments (stopped : Bool) : Shelf Deployment Deployment.metadata where
  stored at_ :=
    if at_ = operator.key then
      some (if stopped then deployment "2" 0 else deployment "1" 1)
    else none
  ever dep := dep = deployment "1" 1 ∨ stopped ∧ dep = deployment "2" 0
  stored_ever := by
    intro at_ dep hdep
    split at hdep
    · rename_i hat
      cases hdep
      cases stopped with
      | false => exact ⟨.inl rfl, hat.symm⟩
      | true => exact ⟨.inr ⟨rfl, rfl⟩, hat.symm⟩
    · cases hdep
  version_unique := by
    rintro dep dep' (rfl | ⟨-, rfl⟩) (rfl | ⟨-, rfl⟩) - hversion
    · rfl
    · exact absurd hversion (by decide)
    · exact absurd hversion (by decide)
    · rfl

def server (stopped : Bool) : Server :=
  ⟨bare Obj.metadata, bare Obj.metadata, deployments stopped⟩

/-- What is read is the running operator. -/
theorem serves_seen : Serves (server false) seen.1 seen.2 (server false) where
  later := ⟨fun _ h => h, fun _ h => h, fun _ h => h⟩
  truthful :=
    { legacy := fun _ _ h => by cases h
      new := fun _ _ h => by cases h
      deployment := by
        rintro ⟨nameSpace, name⟩ dep h
        cases h
        exact ⟨.inl rfl, rfl⟩ }
  bound h := absurd rfl h

theorem serves_listed :
    Serves (server false) .legacyPas (.ok (some [])) (server false) where
  later := ⟨fun _ h => h, fun _ h => h, fun _ h => h⟩
  truthful :=
    { legacy := fun _ _ h => by cases h
      new := fun _ _ h => by cases h
      deployment := fun _ _ h => by cases h }
  bound h := absurd rfl h

theorem serves_stop : Serves (server false) stop (.ok ()) (server true) where
  later := ⟨fun _ h => h, fun _ h => h, fun _ h => .inl (h.resolve_right
    fun hstopped => Bool.false_ne_true hstopped.1)⟩
  truthful :=
    { legacy := fun _ _ h => by cases h
      new := fun _ _ h => by cases h
      deployment := fun _ _ h => by cases h }
  bound _ := ⟨deployment "1" 1, rfl, rfl⟩

theorem server_ne : server true ≠ server false := by
  intro h
  have hstored := congrArg
    (fun s : Server => (s.deployments.stored operator.key).map
      fun dep => dep.metadata.resourceVersion) h
  exact absurd hstored (by decide)

theorem reachable_stop : ∃ next, Reachable (fun _ => none) inventory
    ⟨server false, cutover, conversation, .call stop next⟩ := by
  have hlist : Reachable (fun _ => none) inventory
      ⟨server false, cutover, [], .call .legacyPas _⟩ := .first _ _
  have hcheck := hlist.next (.call _ _ _ serves_listed)
  have hmark := hcheck.next (.call _ _ _ serves_seen)
  have hread := hmark.next (.call _ _ _ serves_seen)
  exact ⟨_, hread.next (.call _ _ _ serves_seen)⟩

/-- The cutover stops the recorded operator. -/
theorem stop_checked : ∃ next, Reachable (fun _ => none) inventory
      ⟨server false, cutover, conversation, .call stop next⟩ ∧
    Serves (server false) stop (.ok ()) (server true) ∧
    ∃ op ∈ inventory.operators, ∃ dep,
      (server false).deployments.stored op.key = some dep ∧
      op.key = ("shop", "operator") ∧ dep.metadata.uid = op.uid := by
  obtain ⟨next, hreach⟩ := reachable_stop
  exact ⟨next, hreach, serves_stop,
    (interleaved_writes_checked (fun _ => none) inventory _ hreach).stops
      _ _ _ next _ _ rfl serves_stop server_ne⟩

end HandoverWitness

end PredictiveAutoscaler.Migration
