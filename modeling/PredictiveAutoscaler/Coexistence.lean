/-
Coexistence with other replica writers.  Before a write the operator reads,
after a fresh discovery of the optional APIs, every object that can write the
target's replica count; it writes only when every read succeeded and none was
found.  Two Active autoscalers of one Deployment therefore block each other,
however their reconciles interleave.
-/
import PredictiveAutoscaler.Reconcile
import PredictiveAutoscaler.Run

namespace PredictiveAutoscaler.Coexistence

/-- The Deployment that a check is about. -/
structure Target where
  ns : String
  name : String
deriving DecidableEq, Repr

/-- A reference to a scaled object; an absent field is empty. -/
structure Reference where
  kind : String
  apiVersion : String
  name : String
deriving DecidableEq, Repr

structure HorizontalPodAutoscaler where
  ns : String
  name : String
  scaleTargetRef : Reference
deriving DecidableEq, Repr

structure ScaledObject where
  ns : String
  name : String
  scaleTargetRef : Reference
  annotations : List (String × String)
deriving DecidableEq, Repr

/-- A PredictiveAutoscaler of the current group; `mode` is its effective
mode. -/
structure Autoscaler where
  ns : String
  name : String
  uid : String
  targetNamespace : String
  targetName : String
  mode : Mode
deriving DecidableEq, Repr

/-- A PredictiveAutoscaler of the legacy group. -/
structure LegacyAutoscaler where
  ns : String
  name : String
  targetNamespace : String
  targetName : String
deriving DecidableEq, Repr

structure VerticalPodAutoscaler where
  ns : String
  name : String
  targetRef : Reference
  updateMode : String
deriving DecidableEq, Repr

/-- The objects of each kind, as they are when that kind is read. -/
structure Cluster where
  hpas : List HorizontalPodAutoscaler
  scaledObjects : List ScaledObject
  autoscalers : List Autoscaler
  legacy : List LegacyAutoscaler
  vpas : List VerticalPodAutoscaler
deriving DecidableEq, Repr

/-- The reads that fail, with their errors. -/
structure ReadErrors where
  hpas : Option String := none
  scaledObjects : Option String := none
  autoscalers : Option String := none
  legacy : Option String := none
  vpas : Option String := none
deriving DecidableEq, Repr

/-- The group of an API version; `none` when it does not parse. -/
def parseGroup (apiVersion : String) : Option String :=
  match apiVersion.toList.splitOn '/' with
  | [_] => some ""
  | [group, _] => some (String.ofList group)
  | _ => none

/-- `targetsDeployment`. -/
def targetsDeployment (ref : Reference) (dep : Target) : Bool :=
  if ref.name ≠ dep.name then false
  else if ref.kind ≠ "" ∧ ref.kind ≠ "Deployment" then false
  else if ref.apiVersion = "" then true
  else decide (parseGroup ref.apiVersion = some "apps")

/-- The target of an autoscaler, in its own namespace unless it names one. -/
def targetOf (ownNamespace targetNamespace targetName : String) : Target :=
  ⟨if targetNamespace = "" then ownNamespace else targetNamespace, targetName⟩

structure OptionalAPI where
  group : String
  version : String
  resource : String
deriving DecidableEq, Repr

def kedaScaledObjects : OptionalAPI := ⟨"keda.sh", "v1alpha1", "scaledobjects"⟩

def vpaObjects : OptionalAPI :=
  ⟨"autoscaling.k8s.io", "v1", "verticalpodautoscalers"⟩

def legacyGroup : String := "autoscaler.example.com"

def legacyAutoscalers : OptionalAPI :=
  ⟨legacyGroup, "v1alpha1", "predictiveautoscalers"⟩

structure APIGroup where
  name : String
  versions : List String
deriving DecidableEq, Repr

/-- What the API server answers to a discovery. -/
structure APIDiscovery where
  serverGroups : Except String (List APIGroup)
  serverResources : String → Except String (List String)

def OptionalAPI.groupVersion (a : OptionalAPI) : String :=
  a.group ++ "/" ++ a.version

/-- `apiServed`. -/
def apiServed (d : APIDiscovery) (groups : List APIGroup) (a : OptionalAPI) :
    Except String Bool :=
  match groups.reverse.find? fun g => g.name = a.group with
  | none => .ok false
  | some group =>
      if a.version ∉ group.versions then
        .error (s!"API group {a.group} is served without version " ++
          s!"{a.version}, which this operator reads")
      else
        match d.serverResources a.groupVersion with
        | .error e => .error s!"API discovery of {a.groupVersion}: {e}"
        | .ok resources => .ok (decide (a.resource ∈ resources))

/-- The APIs of a list that are served. -/
def servedAmong (d : APIDiscovery) (groups : List APIGroup) :
    List OptionalAPI → Except String (List OptionalAPI)
  | [] => .ok []
  | a :: rest => do
      let served ← apiServed d groups a
      let others ← servedAmong d groups rest
      return if served then a :: others else others

/-- `servedAPIs`: without a discovery every optional API counts as served. -/
def servedAPIs (d : Option APIDiscovery) (apis : List OptionalAPI) :
    Except String (List OptionalAPI) :=
  match d with
  | none => .ok apis
  | some d =>
      match d.serverGroups with
      | .error e => .error ("API discovery: " ++ e)
      | .ok groups => servedAmong d groups apis

structure ReplicaWriter where
  group : String
  kind : String
  ns : String
  name : String
  reason : String := ""
deriving DecidableEq, Repr

def writerReasonPausedReplicas : String := "PausedReplicas"

def writerReasonLegacyAPIGroup : String := "LegacyAPIGroup"

/-- The writer as conditions, events and the decision ledger name it. -/
def ReplicaWriter.text (w : ReplicaWriter) : String :=
  if w.reason = writerReasonLegacyAPIGroup then
    w.kind ++ "." ++ w.group ++ "/" ++ w.ns ++ "/" ++ w.name
  else if w.reason = writerReasonPausedReplicas then
    w.kind ++ "/" ++ w.name ++ " (paused-replicas)"
  else w.kind ++ "/" ++ w.name

/-- What a check has found so far. -/
structure Found where
  writers : List ReplicaWriter := []
  warnings : List String := []
  vpaChecked : Bool := false
deriving DecidableEq, Repr

/-- A check keeps what it found when a read fails. -/
abbrev Check := EStateM String Found

/-- The objects that a list returns, or its error. -/
def readList {α : Type} (what : String) (error : Option String)
    (items : List α) : Check (List α) :=
  match error with
  | none => pure items
  | some e => throw ("list " ++ what ++ ": " ++ e)

def addWriters (writers : List ReplicaWriter) : Check Unit :=
  modify fun found => { found with writers := found.writers ++ writers }

def hpaWriter (dep : Target) (h : HorizontalPodAutoscaler) :
    Option ReplicaWriter :=
  if targetsDeployment h.scaleTargetRef dep then
    some { group := "autoscaling", kind := "HorizontalPodAutoscaler"
           ns := h.ns, name := h.name }
  else none

/-- A ScaledObject writes unless it is paused without a fixed count. -/
def scaledObjectWriter (dep : Target) (so : ScaledObject) :
    Option ReplicaWriter :=
  if !targetsDeployment so.scaleTargetRef dep then none
  else if (so.annotations.lookup "autoscaling.keda.sh/paused-replicas").isSome
  then
    some { group := "keda.sh", kind := "ScaledObject"
           ns := so.ns, name := so.name
           reason := writerReasonPausedReplicas }
  else if so.annotations.lookup "autoscaling.keda.sh/paused" ≠ some "true" then
    some { group := "keda.sh", kind := "ScaledObject"
           ns := so.ns, name := so.name }
  else none

def autoscalerGroup : String := "autoscaling.devkuban.com"

def autoscalerWriter (pa : Autoscaler) (dep : Target) (o : Autoscaler) :
    Option ReplicaWriter :=
  if o.uid = pa.uid ∧ o.name = pa.name then none
  else if targetOf o.ns o.targetNamespace o.targetName = dep ∧
      o.mode = .active then
    some { group := autoscalerGroup, kind := "PredictiveAutoscaler"
           ns := o.ns, name := o.name }
  else none

def legacyWriter (dep : Target) (o : LegacyAutoscaler) :
    Option ReplicaWriter :=
  if targetOf o.ns o.targetNamespace o.targetName = dep then
    some { group := legacyGroup, kind := "PredictiveAutoscaler"
           ns := o.ns, name := o.name
           reason := writerReasonLegacyAPIGroup }
  else none

def vpaWarning (dep : Target) (v : VerticalPodAutoscaler) : Option String :=
  let mode := if v.updateMode = "" then "Auto" else v.updateMode
  if targetsDeployment v.targetRef dep ∧ mode ≠ "Off" then
    some ("VerticalPodAutoscaler/" ++ v.name ++ " (" ++ mode ++ ")")
  else none

/-- What a check is given. -/
structure CheckInputs where
  cluster : Cluster
  errors : ReadErrors
  discovery : Option APIDiscovery
  pa : Autoscaler
  dep : Target

section Check

variable (c : CheckInputs)

def checkHPAs : Check Unit := do
  let hpas ← readList "HorizontalPodAutoscalers" c.errors.hpas
    (c.cluster.hpas.filter (·.ns = c.dep.ns))
  addWriters (hpas.filterMap (hpaWriter c.dep))

def checkScaledObjects : Check Unit := do
  let sos ← readList "scaledobjects.keda.sh" c.errors.scaledObjects
    (c.cluster.scaledObjects.filter (·.ns = c.dep.ns))
  addWriters (sos.filterMap (scaledObjectWriter c.dep))

def checkAutoscalers : Check Unit := do
  let pas ← readList "PredictiveAutoscalers" c.errors.autoscalers
    (c.cluster.autoscalers.filter (·.ns = c.pa.ns))
  addWriters (pas.filterMap (autoscalerWriter c.pa c.dep))

/-- The legacy group is read in every namespace. -/
def checkLegacy : Check Unit := do
  let olds ← readList ("predictiveautoscalers." ++ legacyGroup)
    c.errors.legacy c.cluster.legacy
  addWriters (olds.filterMap (legacyWriter c.dep))

def checkVPAs : Check Unit := do
  let vpas ← readList "verticalpodautoscalers.autoscaling.k8s.io" c.errors.vpas
    (c.cluster.vpas.filter (·.ns = c.dep.ns))
  modify fun found =>
    { found with
      warnings := found.warnings ++ vpas.filterMap (vpaWarning c.dep) }

/-- The part of a check about an optional API. -/
def whenServed (served : List OptionalAPI) (a : OptionalAPI)
    (x : Check Unit) : Check Unit :=
  if a ∈ served then x else pure ()

/-- The reads of a check, after the discovery. -/
def checkServed (served : List OptionalAPI) : Check Unit := do
  checkHPAs c
  whenServed served kedaScaledObjects (checkScaledObjects c)
  checkAutoscalers c
  whenServed served legacyAutoscalers (checkLegacy c)
  whenServed served vpaObjects (checkVPAs c)
  modify fun found =>
    { found with vpaChecked := true, warnings := found.warnings.mergeSort }

/-- `checkReplicaWriters`. -/
def checkReplicaWriters : Check Unit :=
  match servedAPIs c.discovery
      [kedaScaledObjects, vpaObjects, legacyAutoscalers] with
  | .error e => throw e
  | .ok served => checkServed c served

/-- `finish`: the writers sorted by their texts. -/
def Found.conflicts (found : Found) : List String :=
  (found.writers.mergeSort fun a b => a.text ≤ b.text).map ReplicaWriter.text

/-- The result of a check as the reconcile uses it. -/
def writerCheck : WriterCheck :=
  match checkReplicaWriters c {} with
  | .ok _ found => ⟨false, found.conflicts⟩
  | .error _ found => ⟨true, found.conflicts⟩

end Check

/-- When the check completes, it has added exactly these writers. -/
def Adds (x : Check Unit) (writers : List ReplicaWriter) : Prop :=
  ∀ found found', x found = .ok () found' →
    found'.writers = found.writers ++ writers

section Adds

variable {x y : Check Unit} {writers writers' : List ReplicaWriter}

theorem bind_eq_ok {α β : Type} {x : Check α} {f : α → Check β}
    {found found' : Found} {b : β} (h : (x >>= f) found = .ok b found') :
    ∃ a between, x found = .ok a between ∧ f a between = .ok b found' := by
  change EStateM.bind x f found = _ at h
  unfold EStateM.bind at h
  split at h
  · rename_i a between hx
    exact ⟨a, between, hx, h⟩
  · cases h

theorem Adds.seq (hx : Adds x writers) (hy : Adds y writers') :
    Adds (do x; y) (writers ++ writers') := by
  intro found found' h
  obtain ⟨_, between, hfirst, hsecond⟩ := bind_eq_ok h
  rw [hy _ _ hsecond, hx _ _ hfirst, List.append_assoc]

theorem Adds.whenServed (hx : Adds x writers) (served : List OptionalAPI)
    (a : OptionalAPI) :
    Adds (whenServed served a x) (if a ∈ served then writers else []) := by
  unfold Coexistence.whenServed
  split
  · exact hx
  · intro found found' h
    cases h
    exact (List.append_nil _).symm

theorem Adds.readList {α : Type} {what : String} {error : Option String}
    {items : List α} {writer : α → Option ReplicaWriter} :
    Adds (do
      let items ← Coexistence.readList what error items
      addWriters (items.filterMap writer)) (items.filterMap writer) := by
  intro found found' h
  obtain ⟨read, between, hread, hadd⟩ := bind_eq_ok h
  cases error with
  | some e => cases hread
  | none =>
      cases hread
      cases hadd
      rfl

/-- The end of a check that only warns. -/
theorem Adds.modify {f : Found → Found}
    (h : ∀ found, (f found).writers = found.writers) :
    Adds (modify f) [] := by
  intro found found' hmodify
  cases hmodify
  rw [h, List.append_nil]

end Adds

/-- The writers that a check adds, with the served APIs. -/
def writersOn (c : CheckInputs) (served : List OptionalAPI) :
    List ReplicaWriter :=
  (c.cluster.hpas.filter (·.ns = c.dep.ns)).filterMap (hpaWriter c.dep) ++
    ((if kedaScaledObjects ∈ served then
        (c.cluster.scaledObjects.filter (·.ns = c.dep.ns)).filterMap
          (scaledObjectWriter c.dep) else []) ++
      ((c.cluster.autoscalers.filter (·.ns = c.pa.ns)).filterMap
          (autoscalerWriter c.pa c.dep) ++
        (if legacyAutoscalers ∈ served then
          c.cluster.legacy.filterMap (legacyWriter c.dep) else [])))

theorem checkVPAs_adds (c : CheckInputs) : Adds (checkVPAs c) [] := by
  intro found found' h
  obtain ⟨read, between, hread, hmodify⟩ := bind_eq_ok h
  cases herror : c.errors.vpas with
  | some e => rw [herror] at hread; cases hread
  | none =>
      rw [herror] at hread
      cases hread
      cases hmodify
      exact (List.append_nil _).symm

theorem checkServed_adds (c : CheckInputs) (served : List OptionalAPI) :
    Adds (checkServed c served) (writersOn c served) := by
  have hvpas : Adds (do
      whenServed served vpaObjects (checkVPAs c)
      modify fun found => { found with
        vpaChecked := true, warnings := found.warnings.mergeSort }) [] := by
    have hmodify : Adds (modify fun found => { found with
        vpaChecked := true, warnings := found.warnings.mergeSort }) [] :=
      .modify fun _ => rfl
    have h := ((checkVPAs_adds c).whenServed served vpaObjects).seq hmodify
    rwa [ite_self, List.append_nil] at h
  have hlegacy : Adds (do
      whenServed served legacyAutoscalers (checkLegacy c)
      whenServed served vpaObjects (checkVPAs c)
      modify fun found => { found with
        vpaChecked := true, warnings := found.warnings.mergeSort })
      (if legacyAutoscalers ∈ served then
        c.cluster.legacy.filterMap (legacyWriter c.dep) else []) := by
    have h := (Adds.whenServed (x := checkLegacy c) Adds.readList served
      legacyAutoscalers).seq hvpas
    rwa [List.append_nil] at h
  have hscaled : Adds (whenServed served kedaScaledObjects
      (checkScaledObjects c)) _ :=
    Adds.whenServed Adds.readList served kedaScaledObjects
  exact Adds.readList.seq (hscaled.seq (Adds.readList.seq hlegacy))

/-- A check that ends without an error has read the VPAs where they are
served. -/
theorem vpas_read {c : CheckInputs} {served : List OptionalAPI}
    {found found' : Found}
    (h : checkServed c served found = .ok () found')
    (hserved : vpaObjects ∈ served) : c.errors.vpas = none := by
  obtain ⟨_, _, -, h⟩ := bind_eq_ok h
  obtain ⟨_, _, -, h⟩ := bind_eq_ok h
  obtain ⟨_, _, -, h⟩ := bind_eq_ok h
  obtain ⟨_, _, -, h⟩ := bind_eq_ok h
  obtain ⟨_, _, hvpas, -⟩ := bind_eq_ok h
  rw [whenServed, if_pos hserved] at hvpas
  obtain ⟨_, _, hread, -⟩ := bind_eq_ok hvpas
  cases herror : c.errors.vpas with
  | none => rfl
  | some e =>
      rw [herror] at hread
      cases hread

/-- A successful discovery shows that the API is absent: its group is not
served, or its version is served without the resource. -/
def Absent (d : Option APIDiscovery) (a : OptionalAPI) : Prop :=
  ∃ disc groups, d = some disc ∧ disc.serverGroups = .ok groups ∧
    ((∀ g ∈ groups, g.name ≠ a.group) ∨
      ∃ g ∈ groups, ∃ resources, g.name = a.group ∧ a.version ∈ g.versions ∧
        disc.serverResources a.groupVersion = .ok resources ∧
          a.resource ∉ resources)

theorem apiServed_eq_false {d : APIDiscovery} {groups : List APIGroup}
    {a : OptionalAPI} (hgroups : d.serverGroups = .ok groups)
    (h : apiServed d groups a = .ok false) : Absent (some d) a := by
  refine ⟨d, groups, rfl, hgroups, ?_⟩
  unfold apiServed at h
  split at h
  · rename_i hnone
    left
    intro g hg hname
    have := List.find?_eq_none.mp hnone g (List.mem_reverse.mpr hg)
    simp [hname] at this
  · rename_i group hgroup
    split at h
    · cases h
    rename_i hversion
    split at h
    · cases h
    rename_i resources hresources
    right
    have hmem := List.mem_reverse.mp (List.mem_of_find?_eq_some hgroup)
    have hname := List.find?_some hgroup
    simp only [decide_eq_true_eq] at hname
    simp only [Except.ok.injEq, decide_eq_false_iff_not] at h
    exact ⟨group, hmem, resources, hname, not_not.mp hversion, hresources, h⟩

/-- An optional API is skipped only when a discovery shows it absent. -/
theorem absent_of_not_mem_served {d : Option APIDiscovery}
    {apis served : List OptionalAPI} {a : OptionalAPI}
    (h : servedAPIs d apis = .ok served) (ha : a ∈ apis) (hs : a ∉ served) :
    Absent d a := by
  cases d with
  | none =>
      cases h
      exact absurd ha hs
  | some d =>
      cases hgroups : d.serverGroups with
      | error e => simp [servedAPIs, hgroups] at h
      | ok groups =>
          simp only [servedAPIs, hgroups] at h
          induction apis generalizing served with
          | nil => cases ha
          | cons first rest ih =>
              unfold servedAmong at h
              cases hserved : apiServed d groups first with
              | error e => rw [hserved] at h; cases h
              | ok isServed =>
                  cases hothers : servedAmong d groups rest with
                  | error e => rw [hserved, hothers] at h; cases h
                  | ok others =>
                      rw [hserved, hothers] at h
                      cases h
                      cases isServed with
                      | false =>
                          rcases List.mem_cons.mp ha with rfl | ha
                          · exact apiServed_eq_false hgroups hserved
                          · exact ih ha hs hothers
                      | true =>
                          simp only [if_true, List.mem_cons, not_or] at hs
                          rcases List.mem_cons.mp ha with rfl | ha
                          · exact absurd rfl hs.1
                          · exact ih ha hs.2 hothers

/-- The reference names the Deployment, in the group `apps` where it names
one. -/
structure Reference.On (ref : Reference) (dep : Target) : Prop where
  name : ref.name = dep.name
  kind : ref.kind = "" ∨ ref.kind = "Deployment"
  apiVersion : ref.apiVersion = "" ∨ ∃ version : String,
    '/' ∉ version.toList ∧ ref.apiVersion = "apps/" ++ version

theorem parseGroup_apps {version : String} (h : '/' ∉ version.toList) :
    parseGroup ("apps/" ++ version) = some "apps" := by
  have hsplit : ("apps/" ++ version).toList.splitOn '/' =
      ["apps".toList, version.toList] := by
    have hlist : ("apps/" ++ version).toList =
        ['/'].intercalate ["apps".toList, version.toList] := by
      simp [String.toList_append, List.intercalate]
    rw [hlist]
    refine List.splitOn_intercalate '/' ?_ (by simp)
    intro l hl
    simp only [List.mem_cons, List.not_mem_nil, or_false] at hl
    rcases hl with rfl | rfl
    · decide
    · exact h
  unfold parseGroup
  rw [hsplit]
  rfl

theorem targetsDeployment_of_on {ref : Reference} {dep : Target}
    (h : ref.On dep) : targetsDeployment ref dep = true := by
  unfold targetsDeployment
  rw [if_neg (not_not.mpr h.name), if_neg (by
    rcases h.kind with hkind | hkind <;> simp [hkind])]
  split
  · rfl
  · rename_i hversion
    rcases h.apiVersion with hempty | ⟨version, hslash, heq⟩
    · exact absurd hempty hversion
    · rw [heq, parseGroup_apps hslash]
      rfl

/-- Nothing else writes the target, as far as the reads of a check show. -/
structure Exclusive (c : CheckInputs) : Prop where
  completed : (writerCheck c).failed = false
  hpas : ∀ h ∈ c.cluster.hpas, h.ns = c.dep.ns → ¬h.scaleTargetRef.On c.dep
  scaledObjects : Absent c.discovery kedaScaledObjects ∨
    ∀ so ∈ c.cluster.scaledObjects, so.ns = c.dep.ns →
      so.scaleTargetRef.On c.dep →
        so.annotations.lookup "autoscaling.keda.sh/paused-replicas" = none ∧
        so.annotations.lookup "autoscaling.keda.sh/paused" = some "true"
  autoscalers : ∀ o ∈ c.cluster.autoscalers, o.ns = c.pa.ns →
    (o.uid, o.name) ≠ (c.pa.uid, c.pa.name) →
      targetOf o.ns o.targetNamespace o.targetName = c.dep → o.mode ≠ .active
  legacy : Absent c.discovery legacyAutoscalers ∨
    ∀ o ∈ c.cluster.legacy,
      targetOf o.ns o.targetNamespace o.targetName ≠ c.dep
  /-- A VPA writes no replicas; it is read for its warning. -/
  vpas : Absent c.discovery vpaObjects ∨ c.errors.vpas = none

theorem Found.writers_of_conflicts {found : Found}
    (h : found.conflicts = []) : found.writers = [] := by
  have hsorted := List.map_eq_nil_iff.mp h
  have hperm := List.mergeSort_perm found.writers
    fun a b => decide (a.text ≤ b.text)
  rw [hsorted] at hperm
  exact hperm.nil_eq.symm

/-- A check that completes and finds nothing has read everything that is
served. -/
theorem exclusive_of_check {c : CheckInputs}
    (hfailed : (writerCheck c).failed = false)
    (hconflicts : (writerCheck c).conflicts = []) : Exclusive c := by
  have hrun : ∃ served found, servedAPIs c.discovery
      [kedaScaledObjects, vpaObjects, legacyAutoscalers] = .ok served ∧
      checkServed c served {} = .ok () found ∧ found.conflicts = [] := by
    unfold writerCheck at hfailed hconflicts
    cases hcheck : checkReplicaWriters c {} with
    | error e found => simp [hcheck] at hfailed
    | ok u found =>
        rw [hcheck] at hconflicts
        unfold checkReplicaWriters at hcheck
        cases hserved : servedAPIs c.discovery
            [kedaScaledObjects, vpaObjects, legacyAutoscalers] with
        | error e => rw [hserved] at hcheck; cases hcheck
        | ok served =>
            rw [hserved] at hcheck
            exact ⟨served, found, rfl, hcheck, hconflicts⟩
  obtain ⟨served, found, hserved, hcheck, hnone⟩ := hrun
  have hwriters := checkServed_adds c served {} found hcheck
  rw [Found.writers_of_conflicts hnone] at hwriters
  have hempty : writersOn c served = [] := hwriters.symm
  simp only [writersOn, List.append_eq_nil_iff] at hempty
  obtain ⟨hhpas, hscaled, hpas, hlegacy⟩ := hempty
  refine ⟨hfailed, ?_, ?_, ?_, ?_, ?_⟩
  · intro h hh hns hon
    have hnot := List.filterMap_eq_nil_iff.mp hhpas h
      (List.mem_filter.mpr ⟨hh, decide_eq_true hns⟩)
    simp [hpaWriter, targetsDeployment_of_on hon] at hnot
  · by_cases hkeda : kedaScaledObjects ∈ served
    · right
      rw [if_pos hkeda] at hscaled
      intro so hso hns hon
      have hnot := List.filterMap_eq_nil_iff.mp hscaled so
        (List.mem_filter.mpr ⟨hso, decide_eq_true hns⟩)
      simp only [scaledObjectWriter, targetsDeployment_of_on hon] at hnot
      split at hnot
      · rename_i hfalse
        cases hfalse
      split at hnot
      · cases hnot
      rename_i hfixed
      split at hnot
      · cases hnot
      rename_i hpaused
      exact ⟨Option.not_isSome_iff_eq_none.mp hfixed, not_not.mp hpaused⟩
    · exact .inl (absent_of_not_mem_served hserved (by decide) hkeda)
  · intro o ho hns hother htarget hactive
    have hnot := List.filterMap_eq_nil_iff.mp hpas o
      (List.mem_filter.mpr ⟨ho, decide_eq_true hns⟩)
    have hself : ¬(o.uid = c.pa.uid ∧ o.name = c.pa.name) :=
      fun h => hother (Prod.ext h.1 h.2)
    simp [autoscalerWriter, hself, htarget, hactive] at hnot
  · by_cases hold : legacyAutoscalers ∈ served
    · right
      rw [if_pos hold] at hlegacy
      intro o ho htarget
      have hnot := List.filterMap_eq_nil_iff.mp hlegacy o ho
      simp [legacyWriter, htarget] at hnot
    · exact .inl (absent_of_not_mem_served hserved (by decide) hold)
  · by_cases hvpa : vpaObjects ∈ served
    · exact .inr (vpas_read hcheck hvpa)
    · exact .inl (absent_of_not_mem_served hserved (by decide) hvpa)

/-- A reconcile with its coexistence check. -/
structure Checked where
  /-- The autoscaler as the reconcile read it. -/
  pa : Autoscaler
  cluster : Cluster
  errors : ReadErrors
  discovery : Option APIDiscovery
  /-- Everything else it read. -/
  rest : Observation
  state : ScaleState
  start : ℤ

def Checked.inputs (r : Checked) : CheckInputs :=
  ⟨r.cluster, r.errors, r.discovery, r.pa, ⟨r.pa.targetNamespace,
    r.pa.targetName⟩⟩

/-- A target in another namespace ends the reconcile, and in an empty one there
is no Deployment. -/
def Checked.observation (r : Checked) : Observation :=
  { r.rest with
    spec := { r.rest.spec with mode := r.pa.mode }
    target := if r.pa.targetNamespace = r.pa.ns then r.rest.target else none
    writers := writerCheck r.inputs }

/-- How the reconcile ends. -/
def Checked.outcome (r : Checked) : Outcome :=
  (reconcile r.state r.start r.observation).2

/-- The reconcile gets as far as a replica write, however that ends. -/
def Writes (outcome : Outcome) : Prop :=
  ∃ d count result, outcome = .decided d (.scaleUp count result) ∨
    outcome = .decided d (.scaleDown count result)

theorem blocked_of_writes {r : Checked} (h : Writes r.outcome) :
    r.pa.mode = .active ∧ r.observation.blocked = false ∧
      r.pa.targetNamespace = r.pa.ns := by
  obtain ⟨d, count, result, h⟩ := h
  have happlied : ∀ action, r.outcome = .decided d action →
      r.pa.targetNamespace = r.pa.ns ∧ ∃ times state state',
        Applied r.observation times d state action state' := by
    intro action hout
    obtain ⟨dep, sha, hdecides, -, happly⟩ := reconcile_decided hout
    have happlied := applyScaling_applied r.observation
      (r.observation.delays.instants r.start) d
      (decideReplicas r.observation dep
        (r.observation.delays.instants r.start)
        (r.observation.prepared dep sha r.start r.state)).2
    rw [happly] at happlied
    have htarget := hdecides.target
    simp only [Checked.observation] at htarget
    split at htarget
    · rename_i hns
      exact ⟨hns, _, _, _, happlied⟩
    · cases htarget
  rcases h with h | h
  · obtain ⟨hns, times, state, state', happlied⟩ := happlied _ h
    cases happlied with
    | scaleUp hmode hblocked => exact ⟨hmode, hblocked, hns⟩
    | pending _ _ _ haction => rcases haction with h | h <;> cases h
    | atTarget _ _ _ haction => rcases haction with h | h <;> cases h
  · obtain ⟨hns, times, state, state', happlied⟩ := happlied _ h
    have hinv := happlied.scaleDown_inv
    exact ⟨hinv.mode, hinv.blocked, hns⟩

/-- A reconcile that writes found nothing else that writes the target. -/
theorem exclusive_of_writes {r : Checked} (h : Writes r.outcome) :
    r.pa.mode = .active ∧ Exclusive r.inputs := by
  obtain ⟨hmode, hblocked, -⟩ := blocked_of_writes h
  have hwriters : r.observation.writers = writerCheck r.inputs := rfl
  have hactive : r.observation.spec.mode = .active := hmode
  simp only [Observation.blocked, hwriters, hactive, decide_true,
    Bool.true_and, Bool.or_eq_false_iff, Bool.not_eq_false',
    List.isEmpty_iff] at hblocked
  exact ⟨hmode, exclusive_of_check hblocked.1 hblocked.2⟩

inductive Party
  | first
  | second
deriving DecidableEq, Repr

def Party.other : Party → Party
  | .first => .second
  | .second => .first

/-- Two names for the autoscalers that share a Deployment. -/
structure Shared where
  dep : Target
  name : Party → String
  distinct : name .first ≠ name .second

theorem Shared.name_other (p : Shared) (who : Party) :
    p.name who.other ≠ p.name who := by
  cases who with
  | first => exact p.distinct.symm
  | second => exact p.distinct

/-- The autoscalers of the cluster while both exist in Active mode on the
Deployment. -/
structure SharedCluster (p : Shared) where
  autoscalers : List Autoscaler
  active : ∀ who, ∃ o ∈ autoscalers, o.ns = p.dep.ns ∧ o.name = p.name who ∧
    targetOf o.ns o.targetNamespace o.targetName = p.dep ∧ o.mode = .active

/-- How far the reconcile of one of the two has come. -/
inductive Phase
  | idle
  | started (pa : Autoscaler)
  /-- It has listed the autoscalers of its namespace. -/
  | listed (pa : Autoscaler) (autoscalers : List Autoscaler)
      (error : Option String)

structure Contest (p : Shared) where
  cluster : SharedCluster p
  phase : Party → Phase

/-- A step of the cluster or of one of the two reconciles. -/
inductive ContestEvent (p : Shared)
  | change (cluster : SharedCluster p)
  /-- The cached object that the reconcile starts from may be an earlier one. -/
  | start (who : Party) (uid : String) (mode : Mode)
  | list (who : Party) (error : Option String)
  /-- The other reads of the check, and everything after it. -/
  | finish (who : Party) (rest : Checked)

def Contest.setPhase {p : Shared} (s : Contest p) (who : Party)
    (phase : Phase) : Contest p :=
  { s with phase := Function.update s.phase who phase }

/-- The reconcile that ends, with what it read of the autoscalers. -/
def Checked.withList (rest : Checked) (pa : Autoscaler)
    (autoscalers : List Autoscaler) (error : Option String) : Checked :=
  { rest with
    pa
    cluster := { rest.cluster with autoscalers }
    errors := { rest.errors with autoscalers := error } }

/-- One step, and how a reconcile that it ends came out. -/
def contestStep {p : Shared} (s : Contest p) (event : ContestEvent p) :
    Contest p × Option Outcome :=
  match event with
  | .change cluster => ({ s with cluster }, none)
  | .start who uid mode =>
      (s.setPhase who (.started ⟨p.dep.ns, p.name who, uid, p.dep.ns,
        p.dep.name, mode⟩), none)
  | .list who error =>
      match s.phase who with
      | .started pa =>
          (s.setPhase who (.listed pa s.cluster.autoscalers error), none)
      | _ => (s, none)
  | .finish who rest =>
      match s.phase who with
      | .listed pa autoscalers error =>
          (s.setPhase who .idle,
            some (rest.withList pa autoscalers error).outcome)
      | _ => (s, none)

/-- The autoscaler is the party's own, on the Deployment. -/
structure Owns (p : Shared) (who : Party) (pa : Autoscaler) : Prop where
  ns : pa.ns = p.dep.ns
  name : pa.name = p.name who
  target : (⟨pa.targetNamespace, pa.targetName⟩ : Target) = p.dep

/-- What a reconcile knows at its phase: its own object, and a list that holds
the other one in Active mode. -/
def PhaseSound (p : Shared) (who : Party) : Phase → Prop
  | .idle => True
  | .started pa => Owns p who pa
  | .listed pa autoscalers _ => Owns p who pa ∧ ∃ o ∈ autoscalers,
      o.ns = p.dep.ns ∧ o.name = p.name who.other ∧
        targetOf o.ns o.targetNamespace o.targetName = p.dep ∧
        o.mode = .active

def ContestSound {p : Shared} (s : Contest p) : Prop :=
  ∀ who, PhaseSound p who (s.phase who)

theorem ContestSound.setPhase {p : Shared} {s : Contest p}
    (h : ContestSound s) {who : Party} {phase : Phase}
    (hphase : PhaseSound p who phase) :
    ContestSound (s.setPhase who phase) := by
  intro other
  by_cases heq : other = who
  · subst heq
    simpa [Contest.setPhase] using hphase
  · simpa [Contest.setPhase, heq] using h other

theorem contestStep_sound {p : Shared} (s : Contest p)
    (event : ContestEvent p) (h : ContestSound s) :
    ContestSound (contestStep s event).1 := by
  cases event with
  | change cluster => exact h
  | start who uid mode => exact h.setPhase ⟨rfl, rfl, rfl⟩
  | list who error =>
      cases hphase : s.phase who with
      | idle => simpa [contestStep, hphase] using h
      | listed pa autoscalers error => simpa [contestStep, hphase] using h
      | started pa =>
          simp only [contestStep, hphase]
          have howns : Owns p who pa := by
            have := h who
            rwa [hphase] at this
          exact h.setPhase ⟨howns, s.cluster.active who.other⟩
  | finish who rest =>
      cases hphase : s.phase who with
      | idle => simpa [contestStep, hphase] using h
      | started pa => simpa [contestStep, hphase] using h
      | listed pa autoscalers error =>
          simp only [contestStep, hphase]
          exact h.setPhase trivial

/-- A reconcile that listed the other autoscaler does not write. -/
theorem not_writes_of_sound {p : Shared} {s : Contest p}
    (h : ContestSound s) (event : ContestEvent p) :
    ∀ outcome, (contestStep s event).2 = some outcome → ¬Writes outcome := by
  intro outcome hout hwrites
  cases event with
  | change cluster => cases hout
  | start who uid mode => cases hout
  | list who error =>
      cases hphase : s.phase who <;> simp [contestStep, hphase] at hout
  | finish who rest =>
      cases hphase : s.phase who with
      | idle => simp [contestStep, hphase] at hout
      | started pa => simp [contestStep, hphase] at hout
      | listed pa autoscalers error =>
          simp only [contestStep, hphase, Option.some.injEq] at hout
          subst hout
          have hsound := h who
          rw [hphase] at hsound
          obtain ⟨howns, o, ho, hns, hname, htarget, hactive⟩ := hsound
          obtain ⟨-, hexclusive⟩ := exclusive_of_writes hwrites
          refine hexclusive.autoscalers o ho (hns.trans howns.ns.symm) ?_
            (htarget.trans howns.target.symm) hactive
          intro heq
          have : o.name = pa.name := congrArg Prod.snd heq
          rw [hname, howns.name] at this
          exact p.name_other who this

/-- A reconcile that writes is Active, its coexistence check completed, and it
found no other writer; what it did not read, a successful discovery showed
absent.  So of two autoscalers that are both Active on one Deployment
throughout, neither writes, however their reconciles interleave. -/
theorem coexistence_fails_closed :
    (∀ r : Checked, Writes r.outcome →
      r.pa.mode = .active ∧ Exclusive r.inputs) ∧
    ∀ (p : Shared) (cluster : SharedCluster p)
      (events : List (ContestEvent p)),
      ∀ e ∈ runTrace contestStep ⟨cluster, fun _ => .idle⟩ events,
        ∀ outcome, e.report = some outcome → ¬Writes outcome := by
  refine ⟨fun r h => exclusive_of_writes h, ?_⟩
  intro p cluster events e he outcome hout
  have hstart : ContestSound (p := p) ⟨cluster, fun _ => .idle⟩ :=
    fun _ => trivial
  obtain ⟨hsound, hentry⟩ := mem_runTrace_imp ContestSound contestStep_sound
    hstart he
  rw [hentry] at hout
  exact not_writes_of_sound hsound e.event outcome hout

namespace CoexistenceWitness

def pa : Autoscaler := ⟨"shop", "web", "pa-1", "shop", "web", .active⟩

/-- A cluster with a paused ScaledObject on the target and an autoscaler of
another one; neither the legacy group nor the VPA is installed. -/
def checked : Checked where
  pa := pa
  cluster :=
    { hpas := [⟨"shop", "other", ⟨"Deployment", "apps/v1", "other"⟩⟩]
      scaledObjects := [⟨"shop", "web", ⟨"", "", "web"⟩,
        [("autoscaling.keda.sh/paused", "true")]⟩]
      autoscalers := [pa,
        ⟨"shop", "other", "pa-2", "shop", "other", .active⟩]
      legacy := []
      vpas := [] }
  errors := {}
  discovery := some
    ⟨.ok [⟨"keda.sh", ["v1alpha1"]⟩], fun _ => .ok ["scaledobjects"]⟩
  rest := { ReconcileWitness.observation with rate := some 1500 }
  state := {}
  start := 0

/-- Whether a reconcile ends in a scale-up that was written. -/
def scalesUp : Outcome → Bool
  | .decided _ (.scaleUp _ .written) => true
  | _ => false

theorem writes_of_scalesUp {outcome : Outcome}
    (h : scalesUp outcome = true) : Writes outcome := by
  unfold scalesUp at h
  split at h
  · exact ⟨_, _, .written, .inl rfl⟩
  · cases h

/-- With no other writer the reconcile scales up. -/
theorem scales_up_alone : Writes checked.outcome ∧
    checked.pa.mode = .active ∧ Exclusive checked.inputs := by
  have hcheck : writerCheck checked.inputs = ⟨false, []⟩ := by
    have hrun : checkReplicaWriters checked.inputs {} =
        .ok () { warnings := [].mergeSort, vpaChecked := true } := by
      rfl
    simp only [writerCheck, hrun, Found.conflicts, List.mergeSort_nil,
      List.map_nil]
  have hobs : checked.observation =
      { ReconcileWitness.observation with rate := some 1500 } := by
    unfold Checked.observation
    rw [hcheck]
    rfl
  have hwrites : Writes checked.outcome := by
    unfold Checked.outcome
    rw [hobs]
    exact writes_of_scalesUp (by decide +kernel)
  exact ⟨hwrites, coexistence_fails_closed.1 checked hwrites⟩

end CoexistenceWitness

end PredictiveAutoscaler.Coexistence
