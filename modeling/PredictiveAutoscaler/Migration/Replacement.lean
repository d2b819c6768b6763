/-
Moving autoscalers to the new API group: the replacement that is created for a
legacy autoscaler, the inventory that records where it comes from, and the
check that an object is the recorded source's replacement.
-/
import PredictiveAutoscaler.JsonPaths

namespace PredictiveAutoscaler.Migration

def newGroup : String := "autoscaling.devkuban.com"

/-- The annotation with the `<namespace>/<name>` of the legacy source. -/
def migratedFrom : String := newGroup ++ "/migrated-from"

/-- The annotation with its UID. -/
def migratedFromUid : String := newGroup ++ "/migrated-from-uid"

def gitopsAnnotationPrefix : String := "argocd.argoproj.io/"

def gitopsLabels : List String :=
  ["argocd.argoproj.io/instance", "kustomize.toolkit.fluxcd.io/name",
    "helm.toolkit.fluxcd.io/name"]

def ambiguousLabels : List String := ["app.kubernetes.io/instance"]

def notCopiedLabels : List String :=
  gitopsLabels ++ ambiguousLabels ++ ["app.kubernetes.io/managed-by"]

def dropAnnotations : List String :=
  ["kubectl.kubernetes.io/last-applied-configuration"]

/-- What a reading, an assignment or a multiplication raises. -/
inductive Raised
  | attributeError
  | typeError
  | overflow
deriving DecidableEq, Repr

/-- The members of a JSON object: distinct keys at every depth, no NaN. -/
structure Members where
  list : List (String × Value)
  json : (Value.dict list).IsJson

def Members.value (m : Members) : Value := .dict m.list

structure Metadata where
  nameSpace : String
  name : String
  uid : String
  generation : Option ℤ := none
  resourceVersion : String := ""
  labels : List (String × String) := []
  annotations : List (String × String) := []

/-- An object of either group; an absent spec or status has no members. -/
structure Obj where
  metadata : Metadata
  spec : Members
  status : List (String × Value) := []

/-- `f"{namespace}/{name}"` -/
def Obj.ref (o : Obj) : String :=
  o.metadata.nameSpace ++ "/" ++ o.metadata.name

/-- `v or {}`, of which members are read. -/
def orEmpty (v : Value) : Except Raised (List (String × Value)) :=
  if v.truthy then
    match v with
    | .dict members => .ok members
    | _ => .error .attributeError
  else .ok []

/-- The namespace and the name of the target. -/
def targetOf (o : Obj) : Except Raised (Value × Value) := do
  let td ← orEmpty (o.spec.value.get "targetDeployment")
  let ns := (Value.dict td).get "namespace"
  return (if ns.truthy then ns else .str o.metadata.nameSpace,
    (td.lookup "name").getD (.str ""))

def provenance (o : Obj) : Option String × Option String :=
  (o.metadata.annotations.lookup migratedFrom,
    o.metadata.annotations.lookup migratedFromUid)

/-- `d[k] = v`, in place or at the end. -/
def setMember {α : Type} (k : String) (v : α) :
    List (String × α) → List (String × α)
  | [] => [(k, v)]
  | (k', v') :: rest =>
      if k' = k then (k, v) :: rest else (k', v') :: setMember k v rest

/-- The spec of a replacement: Recommend mode and the target's namespace.
`setdefault` keeps a member that is there, whatever it is, and assigning into
what is not a `dict` raises. -/
def replacementSpec (spec : List (String × Value)) (tns : Value) :
    Except Raised (List (String × Value)) :=
  let spec := setMember "mode" (.str "Recommend") spec
  match (spec.lookup "targetDeployment").getD (.dict []) with
  | .dict td =>
      .ok (setMember "targetDeployment"
        (.dict (setMember "namespace" tns td)) spec)
  | _ => .error .typeError

/-- What is sent to be created. -/
structure NewObject where
  nameSpace : Value
  name : String
  labels : List (String × String)
  annotations : List (String × String)
  spec : List (String × Value)

/-- The new-group object for a legacy autoscaler: in its target's namespace,
Recommend mode, its provenance, and no ownership markers. -/
def replacementFor (legacy : Obj) (name : String) :
    Except Raised NewObject := do
  let target ← targetOf legacy
  let spec ← replacementSpec legacy.spec.list target.1
  let annotations := legacy.metadata.annotations.filter fun a =>
    a.1 ∉ dropAnnotations ∧
      ¬gitopsAnnotationPrefix.toList.isPrefixOf a.1.toList
  return {
    nameSpace := target.1
    name
    labels := legacy.metadata.labels.filter (·.1 ∉ notCopiedLabels)
    annotations := setMember migratedFromUid legacy.metadata.uid
      (setMember migratedFrom legacy.ref annotations)
    spec }

/-- A `Decimal`. -/
inductive Decimal
  | finite (q : ℚ)
  | infinite (negative : Bool)
  | nan
deriving DecidableEq, Repr

/-- `==` -/
def Decimal.eq : Decimal → Decimal → Bool
  | .nan, _ => false
  | _, .nan => false
  | x, y => x = y

/-- The result of an operation in the default context: 28 digits, ties to
even; none when it overflows, which raises. -/
def contextRound (q : ℚ) : Option ℚ :=
  let e := max (Int.log 10 |q| - 27) (-1000026)
  let r : ℚ := roundHalfEven (q / 10 ^ e) * 10 ^ e
  if 999999 < Int.log 10 |r| then none else some r

/-- `QUANTITY_SUFFIXES`, longest first. -/
def quantitySuffixes : List (String × ℚ) :=
  [("Ki", 2 ^ 10), ("Mi", 2 ^ 20), ("Gi", 2 ^ 30), ("Ti", 2 ^ 40),
    ("Pi", 2 ^ 50), ("Ei", 2 ^ 60), ("m", 1 / 1000), ("k", 10 ^ 3),
    ("M", 10 ^ 6), ("G", 10 ^ 9), ("T", 10 ^ 12), ("P", 10 ^ 15),
    ("E", 10 ^ 18)]

/-- The number and the multiplier of a quantity's text. -/
def splitSuffix (v : String) : String × ℚ :=
  match quantitySuffixes.find? fun s => s.1.toList.isSuffixOf v.toList with
  | some (suffix, mult) =>
      (String.ofList (v.toList.take (v.length - suffix.length)), mult)
  | none => (v, 1)

section Quantity

variable (decimal : String → Option Decimal)

/-- A Kubernetes quantity, an integer or a text, as a `Decimal`; none when it
is not one.  The text's number is read by `Decimal`'s constructor. -/
def quantity : Value → Except Raised (Option Decimal)
  | .int n => .ok (some (.finite n))
  | .str v =>
      let (num, mult) := splitSuffix v
      match decimal num with
      | some (.finite q) =>
          match contextRound (q * mult) with
          | some r => .ok (some (.finite r))
          | none => .error .overflow
      | other => .ok other
  | _ => .ok none

/-- The dotted text of a key below a path. -/
def pathText (path k : String) : String :=
  if path = "" then k else path ++ "." ++ k

/-- The fields that a replacement sets anew. -/
def exempt (path : String) : Bool :=
  path = "mode" || path = "targetDeployment.namespace"

def isNone : Value → Bool
  | .none => true
  | _ => false

/-- A legacy `targetRPS` that is carried as the same value in its replacement,
`capacityPerReplica`. -/
def carried (path : String) (parent nv v : Value) :
    Except Raised Bool :=
  if path = "metrics.requests.targetRPS" ∧ isNone nv ∧ parent.isDict then do
    match ← quantity decimal (parent.get "capacityPerReplica") with
    | some c =>
        match ← quantity decimal v with
        | some c' => return c.eq c'
        | none => return false
    | none => return false
  else .ok false

mutual

/-- The differences of one member, whose value in the replacement is read from
its parent there. -/
def valueDifferences (path : String) (parent nv : Value) :
    Value → Except Raised (List String)
  | .dict members =>
      if exempt path then .ok []
      else do
        if ← carried decimal path parent nv (.dict members) then return []
        else if nv.isDict then memberDifferences path nv members
        else if (Value.dict members).eq nv then return []
        else return [path]
  | v =>
      if exempt path then .ok []
      else do
        if ← carried decimal path parent nv v then return []
        else if v.eq nv then return []
        else return [path]

/-- The paths at which a field set in the legacy spec has another value in the
replacement, which may have more fields. -/
def memberDifferences (path : String) (new : Value) :
    List (String × Value) → Except Raised (List String)
  | [] => .ok []
  | (k, v) :: rest => do
      let here ← valueDifferences (pathText path k) new (new.get k) v
      let others ← memberDifferences path new rest
      return here ++ others

end

def specDifferences (legacySpec : List (String × Value)) (newSpec : Value) :
    Except Raised (List String) :=
  memberDifferences decimal "" newSpec legacySpec

/-- A legacy autoscaler as it was when the inventory was written. -/
structure Source where
  nameSpace : String
  name : String
  uid : String
  generation : Option ℤ
  spec : Members

structure Entry where
  source : Source
  replacement : String × String
  target : Value × Value

/-- The entry that records an autoscaler with its target, under the name that
its replacement gets.  The replacement is looked up by its namespace, which
has to be a text. -/
def planEntry (legacy : Obj) (name : String) : Except Raised Entry := do
  let target ← targetOf legacy
  match target.1 with
  | .str tns =>
      return {
        source := ⟨legacy.metadata.nameSpace, legacy.metadata.name,
          legacy.metadata.uid, legacy.metadata.generation, legacy.spec⟩
        replacement := (tns, name)
        target }
  | _ => .error .typeError

def Source.ref (s : Source) : String := s.nameSpace ++ "/" ++ s.name

/-- The replacement is the recorded source's migrated object, with the
recorded target and configuration. -/
def identityProblems (new : Obj) (entry : Entry) :
    Except Raised (List String) := do
  let src := entry.source
  let notMigrated :=
    if provenance new ≠ (some src.ref, some src.uid) then
      [s!"not the migrated replacement of {src.ref}"]
    else []
  let target ← targetOf new
  let otherTarget :=
    if !(target.1.eq entry.target.1 && target.2.eq entry.target.2) then
      ["target differs from the recorded target"]
    else []
  let differences ← specDifferences decimal src.spec.list new.spec.value
  return notMigrated ++ otherTarget ++ differences

end Quantity

end PredictiveAutoscaler.Migration
