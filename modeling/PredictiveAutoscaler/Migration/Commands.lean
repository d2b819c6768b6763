/-
The commands that hand autoscalers over to the new API group, as programs that
talk to the API server: plan, prepare, verify, cutover and activate, each bound
to the inventory that plan recorded.
-/
import PredictiveAutoscaler.Conversation
import PredictiveAutoscaler.OrderedDict
import PredictiveAutoscaler.Migration.Replacement
import Mathlib.Data.List.Sort

namespace PredictiveAutoscaler.Migration

def legacyGroup : String := "autoscaler.example.com"

/-- A Deployment, as far as it is read. -/
structure Deployment where
  metadata : Metadata
  replicas : Option ℤ
  matchLabels : List (String × String)
  matchExpressions : Bool

/-- What a call of kubectl fails with. -/
inductive KubeError
  | notFound
  | conflict
  | failed (why : String)

/-- What ends a command before its end. -/
inductive Failure
  | checkFailed (message : String)
  | notFound
  | conflict
  | keyError
  | raised (error : Raised)

def KubeError.failure : KubeError → Failure
  | notFound => .notFound
  | conflict => .conflict
  | failed why => .checkFailed why

/-- The calls that the commands make.  Only the last four but one write;
`deadline` asks the clock how often a wait will look before its deadline. -/
inductive Call
  | legacyPas
  | getNew (nameSpace name : String)
  | getLegacy (nameSpace name : String)
  | getDeployment (nameSpace name : String)
  | listPods (nameSpace selector : String)
  | create (object : NewObject)
  | scaleToZero (nameSpace name resourceVersion : String)
  | deleteLegacy (nameSpace name uid resourceVersion : String)
  | setActive (nameSpace name uid resourceVersion : String)
  | deadline

/-- The replies.  A listing has none where there is no legacy CRD, a single
object is none where it is not found. -/
def Reply : Call → Type
  | .legacyPas => Except KubeError (Option (List Obj))
  | .getNew _ _ => Except KubeError (Option Obj)
  | .getLegacy _ _ => Except KubeError (Option Obj)
  | .getDeployment _ _ => Except KubeError (Option Deployment)
  | .listPods _ _ => Except KubeError (List String)
  | .create _ => Except KubeError Unit
  | .scaleToZero _ _ _ => Except KubeError Unit
  | .deleteLegacy _ _ _ _ => Except KubeError Unit
  | .setActive _ _ _ _ => Except KubeError Unit
  | .deadline => ℕ

abbrev Command := Talk Call Reply Failure

/-- `raise CheckFailed(message)` -/
def refuse {α : Type} (message : String) : Command α :=
  .fail (.checkFailed message)

/-- The answer of a call; its error is raised. -/
def answered {α : Type} : Except KubeError α → Command α
  | .ok a => .done a
  | .error e => .fail e.failure

/-- What reading an object raises. -/
def attempt {α : Type} : Except Raised α → Command α
  | .ok a => .done a
  | .error e => .fail (.raised e)

/-- `Kube.legacy_pas` -/
def legacyPas : Command (Option (List Obj)) :=
  .call .legacyPas answered

/-- `Kube.get` of a replacement. -/
def getNew (at_ : String × String) : Command (Option Obj) :=
  .call (.getNew at_.1 at_.2) answered

/-- `Kube.get` of a legacy autoscaler. -/
def getLegacy (at_ : String × String) : Command (Option Obj) :=
  .call (.getLegacy at_.1 at_.2) answered

/-- `Kube.get` of a Deployment. -/
def getDeployment (at_ : String × String) : Command (Option Deployment) :=
  .call (.getDeployment at_.1 at_.2) answered

def Obj.key (o : Obj) : String × String :=
  (o.metadata.nameSpace, o.metadata.name)

def Source.key (s : Source) : String × String := (s.nameSpace, s.name)

def Metadata.gitopsMarkers (meta' : Metadata) : List String :=
  (meta'.annotations.map Prod.fst).filter
      (fun k => gitopsAnnotationPrefix.toList.isPrefixOf k.toList) ++
    (meta'.labels.map Prod.fst).filter (· ∈ gitopsLabels) ++
    ((meta'.labels.map Prod.fst).filter (· ∈ ambiguousLabels)).map
      fun k => s!"{k} (Argo CD label tracking, or Helm)"

/-- `v.get(k)`, which raises where `v` is no `dict`. -/
def member (v : Value) (k : String) : Except Raised Value :=
  if v.isDict then .ok (v.get k) else .error .attributeError

/-- The items of `v or []`, each to be read as a `dict`. -/
def itemsOrEmpty (v : Value) : Except Raised (List Value) :=
  if v.truthy then
    match v with
    | .list items => .ok items
    | .dict _ => .error .attributeError
    | .str _ => .error .attributeError
    | _ => .error .typeError
  else .ok []

/-- A JSON integer, or `None`. -/
def generationValue : Option ℤ → Value
  | some n => .int n
  | none => .none

/-- The first condition of a type, as its status and reason. -/
def findCondition (type : String) (generation : Option ℤ) :
    List Value → Except Raised (Value × Value)
  | [] => .ok (.str "absent", .str "no such condition")
  | c :: rest => do
      if (← member c "type").eq (.str type) then
        if (← member c "observedGeneration").eq (generationValue generation)
        then return (← member c "status", ← member c "reason")
        else return (.str "stale", .str "for an older generation")
      else findCondition type generation rest

/-- `condition_at` -/
def conditionAt (o : Obj) (type : String) (generation : Option ℤ) :
    Except Raised (Value × Value) := do
  let conditions ← itemsOrEmpty ((Value.dict o.status).get "conditions")
  findCondition type generation conditions

/-- The object sets neither a capacity per replica nor a positive rate. -/
def missingCapacity (spec : Value) : Except Raised Bool := do
  let metrics ← orEmpty (spec.get "metrics")
  let requests ← orEmpty ((Value.dict metrics).get "requests")
  return isNone ((Value.dict requests).get "capacityPerReplica") &&
    !((Value.dict requests).get "targetRPS").truthy

/-- `capacity_problems` -/
def capacityProblems (new : Obj) : Except Raised (List String) := do
  if ← missingCapacity new.spec.value then
    return ["no per-replica capacity, so the operator recommends nothing"]
  else
    let c ← conditionAt new "CapacityConfigured" new.metadata.generation
    if c.1.eq (.str "True") then return []
    else return ["CapacityConfigured is not True: fix spec.metrics.requests"]

/-- Only these can be members of a set of names. -/
def hashable : Value → Bool
  | .list _ => false
  | .dict _ => false
  | _ => true

/-- A recorded conflict that is not one of the legacy autoscalers. -/
def otherWriter (legacyKeys : List (String × String)) (conflictsOk : Bool)
    (w : Value) : Except Raised (List String) := do
  let problem := ["another replica writer on the target"]
  if (← member w "group").eq (.str legacyGroup) then
    let ns ← member w "namespace"
    let name ← member w "name"
    if !(hashable ns && hashable name) then .error .typeError
    else if (legacyKeys.any fun k => ns.eq (.str k.1) && name.eq (.str k.2)) &&
        conflictsOk then return []
    else return problem
  else return problem

/-- The writers that a conflicting replacement names. -/
def otherWriters (legacyKeys : List (String × String)) (conflictsOk : Bool)
    (o : Obj) : Except Raised (List String) := do
  let conflicts := (Value.dict o.status).get "conflicts"
  if conflicts.truthy then
    let found ← (← itemsOrEmpty conflicts).mapM
      (otherWriter legacyKeys conflictsOk)
    return found.flatten
  else return ["another replica writer on the target"]

section Checks

variable (decimal : String → Option Decimal)

/-- The problems of a replacement that exists. -/
def replacementProblems (entry : Entry) (legacyKeys : List (String × String))
    (allowReactive conflictsOk : Bool) (new : Obj) :
    Except Raised (List String) := do
  let identity ← identityProblems decimal new entry
  let status := Value.dict new.status
  let generation := new.metadata.generation
  let mode :=
    if (new.spec.value.get "mode").eq (.str "Recommend") &&
        (status.get "mode").eq (.str "Recommend") then []
    else ["mode is not Recommend"]
  let observed :=
    if (status.get "observedGeneration").eq (generationValue generation)
    then [] else ["the operator has not observed the generation yet"]
  let types := ["Ready", "TelemetryAvailable"] ++
    if allowReactive then [] else ["ForecastAvailable"]
  let conditions ← types.mapM fun type => do
    let c ← conditionAt new type generation
    return if c.1.eq (.str "True") then [] else [s!"{type} is not True"]
  let conflict ← conditionAt new "ConflictDetected" generation
  let conflicts ←
    if conflict.1.eq (.str "True") then
      otherWriters legacyKeys conflictsOk new
    else if conflict.1.eq (.str "False") then pure []
    else pure ["ConflictDetected is not False"]
  let capacity ← capacityProblems new
  let recommended :=
    if isNone (status.get "calculatedReplicas") && capacity.isEmpty then
      ["no recommendation in status yet"]
    else []
  return identity ++ mode ++ observed ++ conditions.flatten ++ conflicts ++
    capacity ++ recommended

/-- A recorded legacy operator. -/
structure LegacyOperator where
  nameSpace : String
  name : String
  uid : String

def LegacyOperator.key (op : LegacyOperator) : String × String :=
  (op.nameSpace, op.name)

/-- What plan records. -/
structure Inventory where
  operators : List LegacyOperator
  entries : List Entry

/-- `load_inventory`, of a file that can be read. -/
def loadInventory (inv : Inventory) : Command Inventory :=
  if inv.operators = [] then
    refuse "this is not an inventory written by plan"
  else return inv

/-- The live autoscalers by their keys. -/
def byKey (live : List Obj) : OrderedDict (String × String) Obj :=
  live.foldl (fun d o => OrderedDict.set d o.key o) []

/-- The recorded sources by their keys. -/
def Inventory.recorded (inv : Inventory) :
    OrderedDict (String × String) Source :=
  inv.entries.foldl (fun d e => OrderedDict.set d e.source.key e.source) []

/-- What is wrong with a live autoscaler that is recorded. -/
def Source.drift (s : Source) (o : Obj) : List String :=
  if o.metadata.uid ≠ s.uid then [s!"legacy {s.ref} was replaced"]
  else if o.metadata.generation ≠ s.generation ∨
      ¬o.spec.value.eq s.spec.value then
    [s!"legacy {s.ref} changed since plan"]
  else []

/-- The live autoscalers that are not as recorded. -/
def Inventory.drifted (inv : Inventory)
    (live : OrderedDict (String × String) Obj) : List String :=
  live.flatMap fun item =>
    match inv.recorded.get? item.1 with
    | none => [s!"legacy {item.2.ref} is not in the inventory"]
    | some s => s.drift item.2

/-- The recorded autoscalers that are gone. -/
def Inventory.gone (inv : Inventory)
    (live : OrderedDict (String × String) Obj) : List String :=
  inv.recorded.flatMap fun item =>
    if (live.get? item.1).isSome then []
    else [s!"legacy {item.2.ref} is gone (recorded in the inventory)"]

/-- What is wrong with one recorded operator. -/
def operatorProblem (op : LegacyOperator) : Command (List String) := do
  match ← getDeployment op.key with
  | none =>
      return [s!"legacy operator deployment/{op.nameSpace}/{op.name} is gone"]
  | some dep =>
      if dep.metadata.uid ≠ op.uid then
        return [s!"legacy operator deployment/{op.nameSpace}/{op.name} was " ++
          "replaced"]
      else return []

/-- What is wrong with the recorded operators. -/
def operatorProblems : List LegacyOperator → Command (List String)
  | [] => .done []
  | op :: rest => do
      let here ← operatorProblem op
      let others ← operatorProblems rest
      return here ++ others

/-- `check_inventory` -/
def checkInventory (inv : Inventory) (allowDeleted : Bool) :
    Command (OrderedDict (String × String) Obj) := do
  let live := byKey ((← legacyPas).getD [])
  let operators ← operatorProblems inv.operators
  if inv.drifted live = [] ∧ (allowDeleted ∨ inv.gone live = []) ∧
      operators = [] then return live
  else refuse "the cluster no longer matches the inventory: run plan again"

/-- `check_replacement`, with the object as read. -/
def checkReplacement (entry : Entry) (legacyKeys : List (String × String))
    (allowReactive conflictsOk : Bool) :
    Command (List String × Option Obj) := do
  match ← getNew entry.replacement with
  | none => return (["no replacement (run prepare)"], none)
  | some new =>
      let problems ← attempt (replacementProblems decimal entry legacyKeys
        allowReactive conflictsOk new)
      return (problems, some new)

def Inventory.keys (inv : Inventory) : List (String × String) :=
  inv.entries.map (·.source.key)

/-- How many of the replacements whose source is live are not ready. -/
def countFailed (inv : Inventory)
    (live : OrderedDict (String × String) Obj) (allowReactive : Bool) :
    List Entry → Command ℕ
  | [] => .done 0
  | e :: rest =>
      if (live.get? e.source.key).isNone then
        countFailed inv live allowReactive rest
      else do
        let checked ← checkReplacement decimal e inv.keys allowReactive true
        let failed ← countFailed inv live allowReactive rest
        return (if checked.1 = [] then 0 else 1) + failed

/-- `verify_all` -/
def verifyAll (inv : Inventory) (live : OrderedDict (String × String) Obj)
    (allowReactive : Bool) : Command Unit := do
  let failed ← countFailed decimal inv live allowReactive inv.entries
  if failed = 0 then return ()
  else refuse s!"{failed} of {inv.entries.length} replacements are not ready"

/-- `r.partition(sep)` of the text before and after the first separator. -/
def partition (sep : Char) (s : String) : String × Bool × String :=
  let before := s.toList.takeWhile (· ≠ sep)
  let rest := s.toList.drop before.length
  (String.ofList before, !rest.isEmpty, String.ofList rest.tail)

/-- What `plan` is told. -/
structure PlanArgs where
  legacyOperators : List String
  renames : List String

/-- The new names by the references of their sources. -/
def parseRenames (args : List String) :
    Command (OrderedDict String String) :=
  args.foldlM (fun (renames : OrderedDict String String) r =>
    let (src, sep, new) := partition '=' r
    if !sep || !src.toList.contains '/' || new = "" then
      refuse s!"--rename {r}: want NAMESPACE/NAME=NEWNAME"
    else return renames.set src new) []

/-- One autoscaler of the plan: its entry, unless its replacement's name is
taken, and what is wrong. -/
structure Planned where
  entries : List Entry := []
  seen : List (String × String) := []
  problems : List String := []

def planOne (renames : OrderedDict String String) (planned : Planned)
    (o : Obj) : Command Planned := do
  let name := (renames.get? o.ref).getD o.metadata.name
  let entry ← attempt (planEntry o name)
  if entry.replacement ∈ planned.seen then
    return { planned with
      problems := planned.problems ++
        [s!"{o.ref} and another would both become the same: pass --rename"] }
  else
    let existing ← getNew entry.replacement
    let collision := existing.any fun e =>
      provenance e ≠ (some o.ref, some o.metadata.uid)
    return {
      entries := planned.entries ++ [entry]
      seen := planned.seen ++ [entry.replacement]
      problems := planned.problems ++
        if collision then
          [s!"{name} exists and is not the replacement of {o.ref}: " ++
            "pass --rename"]
        else [] }

def planAll (renames : OrderedDict String String) :
    List Obj → Planned → Command Planned
  | [], planned => .done planned
  | o :: rest, planned => do
      let planned ← planOne renames planned o
      planAll renames rest planned

/-- A named operator, `NS/NAME`. -/
def findOperator (op : String) : Command (Option Deployment) :=
  let (ns, _, name) := partition '/' op
  if ns ≠ "" ∧ name ≠ "" then getDeployment (ns, name) else .done none

/-- The operators that were named, as they are found. -/
def planOperators : List String → List LegacyOperator → List String →
    Command (List LegacyOperator × List String)
  | [], operators, problems => .done (operators, problems)
  | op :: rest, operators, problems => do
      let found ← findOperator op
      if let some dep := found then
        let (ns, _, name) := partition '/' op
        planOperators rest (operators ++ [⟨ns, name, dep.metadata.uid⟩])
          problems
      else
        planOperators rest operators
          (problems ++ [s!"legacy operator deployment/{op} not found"])

/-- `sorted(legacy, key=ref)` -/
def sortedByRef (live : List Obj) : List Obj :=
  live.mergeSort fun o o' => decide (o.ref ≤ o'.ref)

/-- `cmd_plan`: the inventory that is written, if there is anything to
migrate. -/
def cmdPlan (args : PlanArgs) : Command (Option Inventory) := do
  let live := (← legacyPas).getD []
  if live = [] then return none
  else if args.legacyOperators = [] then
    refuse "name every legacy operator Deployment that watches these"
  else
    let renames ← parseRenames args.renames
    if renames.any fun r => r.1 ∉ live.map Obj.ref then
      refuse "--rename names no legacy autoscaler"
    else
      let planned ← planAll renames (sortedByRef live) {}
      let (operators, problems) ←
        planOperators args.legacyOperators [] planned.problems
      if problems = [] then return some ⟨operators, planned.entries⟩
      else refuse "not planned (nothing written)"

/-- The replacement of one entry is created, unless it is there. -/
def prepareOne (live : OrderedDict (String × String) Obj) (e : Entry) :
    Command Unit :=
  match live.get? e.source.key with
  | none => .fail .keyError
  | some src => do
      match ← getNew e.replacement with
      | some existing =>
          if provenance existing ≠ (some src.ref, some src.metadata.uid) then
            refuse s!"{e.replacement.2} exists and is not the replacement"
          else return ()
      | none =>
          let new ← attempt (replacementFor src e.replacement.2)
          Talk.call (.create new) answered
          let _ ← attempt (missingCapacity (.dict new.spec))
          return ()

/-- `cmd_prepare` -/
def cmdPrepare (inv : Inventory) : Command Unit := do
  let inv ← loadInventory inv
  let live ← checkInventory inv false
  Talk.each (prepareOne live) inv.entries

/-- `cmd_verify` -/
def cmdVerify (inv : Inventory) (allowReactive : Bool) : Command Unit := do
  let inv ← loadInventory inv
  let live ← checkInventory inv false
  verifyAll decimal inv live allowReactive

/-- `recorded_operator` -/
def recordedOperator (op : LegacyOperator) : Command Deployment := do
  match ← getDeployment op.key with
  | none => refuse s!"legacy operator deployment/{op.name} disappeared; stopped"
  | some dep =>
      if dep.metadata.uid ≠ op.uid then
        refuse s!"legacy operator deployment/{op.name} was replaced; stopped"
      else return dep

/-- `selector_string`, of a selector by labels only. -/
def selectorString (dep : Deployment) : Command String :=
  if dep.matchExpressions ∨ dep.matchLabels = [] then
    refuse "the deployment has no plain matchLabels selector"
  else
    return ",".intercalate ((dep.matchLabels.mergeSort
      fun p q => decide (p.1 ≤ q.1)).map fun p => p.1 ++ "=" ++ p.2)

/-- `operator_pods` -/
def operatorPods : List LegacyOperator → Command (List String)
  | [] => .done []
  | op :: rest => do
      let dep ← recordedOperator op
      let selector ← selectorString dep
      let pods ← Talk.call (.listPods op.nameSpace selector) answered
      let others ← operatorPods rest
      return pods ++ others

/-- What GitOps tools own of the recorded operators. -/
def operatorMarkers : List LegacyOperator → Command (List String)
  | [] => .done []
  | op :: rest => do
      let dep ← recordedOperator op
      let others ← operatorMarkers rest
      return dep.metadata.gitopsMarkers ++ others

/-- The answer of a write that is bound to a version; a conflict refuses. -/
def writtenOr (message : String) : Except KubeError Unit → Command Unit
  | .ok () => .done ()
  | .error .conflict => refuse message
  | .error e => .fail e.failure

/-- One recorded operator is scaled to 0, bound to the version that was
read. -/
def stopOperator (op : LegacyOperator) : Command Unit := do
  let dep ← recordedOperator op
  let _ ← selectorString dep
  if dep.replicas = some 0 then return ()
  else
    Talk.call
      (.scaleToZero op.nameSpace op.name dep.metadata.resourceVersion)
      (writtenOr s!"deployment/{op.name} changed while being stopped")

/-- Look until there is nothing left to wait for, which is what `look` says
with none; after the last round, refuse. -/
def poll (look : Command (Option String)) : ℕ → Command Unit
  | 0 => do
      let found ← look
      match found with
      | none => return ()
      | some why => refuse why
  | rounds + 1 => do
      let found ← look
      if found.isNone then return () else poll look rounds

/-- Look until the deadline. -/
def pollUntilDeadline (look : Command (Option String)) : Command Unit :=
  .call .deadline fun rounds : ℕ => poll look rounds

/-- No pod of a recorded operator is left. -/
def lookForPods (inv : Inventory) : Command (Option String) := do
  let pods ← operatorPods inv.operators
  if pods = [] then return none
  else return some s!"{pods.length} legacy operator pods still exist"

/-- A deleted autoscaler is gone. -/
def lookForGone (s : Source) : Command (Option String) := do
  match ← getLegacy s.key with
  | none => return none
  | some still =>
      if still.metadata.uid ≠ s.uid then return none
      else return some s!"{s.ref}: deleted, but the object still exists"

/-- A recorded autoscaler as read is deleted, bound to that version, if its
replacement is ready. -/
def deleteLive (inv : Inventory) (allowReactive : Bool) (e : Entry)
    (live : Obj) : Command Unit := do
  if live.metadata.uid ≠ e.source.uid ∨
      ¬live.spec.value.eq e.source.spec.value then
    refuse s!"{e.source.ref} is no longer the recorded object; stopped"
  else
    let checked ← checkReplacement decimal e inv.keys allowReactive true
    if checked.1 ≠ [] then
      refuse s!"the replacement of {e.source.ref} is no longer ready"
    else
      Talk.call
        (.deleteLegacy e.source.nameSpace e.source.name e.source.uid
          live.metadata.resourceVersion)
        (writtenOr s!"{e.source.ref} changed after it was checked; not deleted")
      pollUntilDeadline (lookForGone e.source)

/-- One recorded autoscaler is deleted, with no pod of an operator left. -/
def deleteOne (inv : Inventory) (allowReactive : Bool) (e : Entry) :
    Command Unit := do
  let pods ← operatorPods inv.operators
  if pods ≠ [] then refuse "a legacy operator pod reappeared; stopped"
  else
    match ← getLegacy e.source.key with
    | none => return ()
    | some live => deleteLive decimal inv allowReactive e live

/-- What `cutover` is told. -/
structure CutoverArgs where
  allowReactive : Bool
  gitopsHandled : Bool

/-- `cmd_cutover` -/
def cmdCutover (inv : Inventory) (args : CutoverArgs) : Command Unit := do
  let inv ← loadInventory inv
  let live ← checkInventory inv true
  let operators ← operatorMarkers inv.operators
  let owned := live.flatMap (·.2.metadata.gitopsMarkers) ++ operators
  if owned ≠ [] ∧ ¬args.gitopsHandled then
    refuse "these may be restored by GitOps"
  else
    verifyAll decimal inv live args.allowReactive
    Talk.each stopOperator inv.operators
    pollUntilDeadline (lookForPods inv)
    let live ← checkInventory inv true
    verifyAll decimal inv live args.allowReactive
    Talk.each (deleteOne decimal inv args.allowReactive) inv.entries

/-- The entry of a replacement, the first of several. -/
def Inventory.entryOf (inv : Inventory) (at_ : String × String) :
    Option Entry :=
  inv.entries.find? fun e => e.replacement = at_

/-- One of the legacy autoscalers has a target. -/
def anyTargets (target : Value × Value) : List Obj → Except Raised Bool
  | [] => .ok false
  | o :: rest => do
      let found ← targetOf o
      if found.1.eq target.1 && found.2.eq target.2 then return true
      else anyTargets target rest

/-- A replacement is set to Active, bound to the version that was checked; it
is checked again where it changed in between.  Gives its UID. -/
def setActive (entry : Entry) (allowReactive : Bool)
    (again : Command String) : Command String := do
  let checked ← checkReplacement decimal entry [] allowReactive false
  match checked.2 with
  | none => refuse s!"{entry.replacement.2} is not ready to activate"
  | some new =>
      if checked.1 ≠ [] then
        refuse s!"{entry.replacement.2} is not ready to activate"
      else
        .call
          (.setActive entry.replacement.1 entry.replacement.2 new.metadata.uid
            new.metadata.resourceVersion) fun
          | .ok () => .done new.metadata.uid
          | .error .conflict => again
          | .error error => .fail error.failure

/-- A few tries to set a replacement to Active, unless it is already. -/
def activateTries (entry : Entry) (allowReactive : Bool) :
    ℕ → Command String
  | 0 => refuse s!"{entry.replacement.2} kept changing; not activated"
  | tries + 1 => do
      let again := activateTries entry allowReactive tries
      match ← getNew entry.replacement with
      | none => setActive decimal entry allowReactive again
      | some new =>
          if (new.spec.value.get "mode").eq (.str "Active") then
            let problems ← attempt (identityProblems decimal new entry)
            if problems ≠ [] then
              refuse s!"{entry.replacement.2} is Active but not as recorded"
            else return new.metadata.uid
          else setActive decimal entry allowReactive again

/-- The operator reports an activated replacement, which is still the one that
was activated. -/
def lookForActive (entry : Entry) (pinned : String) :
    Command (Option String) := do
  match ← getNew entry.replacement with
  | none => refuse s!"{entry.replacement.2} was deleted after it was activated"
  | some new =>
      if new.metadata.uid ≠ pinned then
        refuse s!"{entry.replacement.2} was replaced after it was activated"
      else
        let problems ← attempt (identityProblems decimal new entry)
        if problems ≠ [] then
          refuse s!"{entry.replacement.2} changed after it was activated"
        else
          let generation := new.metadata.generation
          let conflict ←
            attempt (conditionAt new "ConflictDetected" generation)
          let status := Value.dict new.status
          if (status.get "mode").eq (.str "Active") &&
              (status.get "observedGeneration").eq
                (generationValue generation) &&
              conflict.1.eq (.str "False") then return none
          else return some "the operator has not reported Active"

/-- `cmd_activate` -/
def cmdActivate (inv : Inventory) (target : String) (allowReactive : Bool) :
    Command Unit := do
  let inv ← loadInventory inv
  let (ns, _, name) := partition '/' target
  match inv.entryOf (ns, name) with
  | none => refuse s!"{target} is not a replacement in the inventory"
  | some entry =>
      let _ ← checkInventory inv true
      let live := (← legacyPas).getD []
      if ← attempt (anyTargets entry.target live) then
        refuse s!"a legacy autoscaler still targets it (run cutover)"
      else
        let pinned ← activateTries decimal entry allowReactive 3
        pollUntilDeadline (lookForActive decimal entry pinned)

end Checks

end PredictiveAutoscaler.Migration
