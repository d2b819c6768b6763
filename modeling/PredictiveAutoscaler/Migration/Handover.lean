/-
The safety of the hand-over.  Whatever the API server answers and wherever a
command is cut off: an autoscaler is deleted only as it was recorded, with no
pod of a recorded operator left and its replacement ready, all of it read
right before; a replacement is set to Active only as it was checked; and
nothing else is written but replacements and the scale of the operators.
-/
import PredictiveAutoscaler.Migration.Commands
import PredictiveAutoscaler.Migration.ReplacementCheck

namespace PredictiveAutoscaler.Migration

open Talk

def sawLegacyPas (live : Option (List Obj)) : Sigma Reply :=
  ⟨.legacyPas, (.ok live : Except KubeError (Option (List Obj)))⟩

def sawNew (at_ : String × String) (o : Option Obj) : Sigma Reply :=
  ⟨.getNew at_.1 at_.2, (.ok o : Except KubeError (Option Obj))⟩

def sawLegacy (at_ : String × String) (o : Option Obj) : Sigma Reply :=
  ⟨.getLegacy at_.1 at_.2, (.ok o : Except KubeError (Option Obj))⟩

def sawDeployment (at_ : String × String) (dep : Option Deployment) :
    Sigma Reply :=
  ⟨.getDeployment at_.1 at_.2, (.ok dep : Except KubeError (Option Deployment))⟩

def sawPods (nameSpace selector : String) (pods : List String) : Sigma Reply :=
  ⟨.listPods nameSpace selector, (.ok pods : Except KubeError (List String))⟩

/-- A call that changes nothing. -/
def Call.isRead : Call → Bool
  | .create _ => false
  | .scaleToZero _ _ _ => false
  | .deleteLegacy _ _ _ _ => false
  | .setActive _ _ _ _ => false
  | _ => true

/-- Nothing was written. -/
def Quiet (said : Past Reply) : Prop := ∀ event ∈ said, event.1.isRead

/-- A write that is not repeated was carried out. -/
def Succeeded : Sigma Reply → Prop
  | ⟨.create _, r⟩ => r = Except.ok ()
  | ⟨.scaleToZero _ _ _, r⟩ => r = Except.ok ()
  | ⟨.deleteLegacy _ _ _ _, r⟩ => r = Except.ok ()
  | _ => True

/-- Every pod listing of the recorded operators, in order, found none. -/
inductive NoPods : List LegacyOperator → Past Reply → Prop
  | nil : NoPods [] []
  | cons {op : LegacyOperator} {rest : List LegacyOperator} {dep : Deployment}
      {selector : String} {said : Past Reply}
      (huid : dep.metadata.uid = op.uid)
      (hselector : selectorString dep = .done selector)
      (h : NoPods rest said) :
      NoPods (op :: rest)
        (sawDeployment op.key (some dep) ::
          sawPods op.nameSpace selector [] :: said)

section Handover

variable (decimal : String → Option Decimal) (inv : Inventory)

/-- What a run of the tool is asked to do. -/
inductive Invocation
  | plan (args : PlanArgs)
  | prepare
  | verify (allowReactive : Bool)
  | cutover (args : CutoverArgs)
  | activate (target : String) (allowReactive : Bool)

def Invocation.command : Invocation → Command Unit
  | .plan args => do
      let _ ← cmdPlan args
      return ()
  | .prepare => cmdPrepare inv
  | .verify allowReactive => cmdVerify decimal inv allowReactive
  | .cutover args => cmdCutover decimal inv args
  | .activate target allowReactive =>
      cmdActivate decimal inv target allowReactive

/-- Every replacement whose source was listed as live was read ready. -/
def Verified (allowReactive : Bool) (past : Past Reply) : Prop :=
  ∃ live, sawLegacyPas live ∈ past ∧ ∀ entry ∈ inv.entries,
    ((byKey (live.getD [])).get? entry.source.key).isSome →
      ∃ new, sawNew entry.replacement (some new) ∈ past ∧
        replacementProblems decimal entry inv.keys allowReactive true new =
          .ok []

/-- A live autoscaler, as recorded, gets its replacement, in Recommend mode,
where nothing was found right before. -/
structure MayCreate (past : Past Reply) (object : NewObject) (entry : Entry)
    (live : Option (List Obj)) (src : Obj) (s : Source) : Prop where
  entry_mem : entry ∈ inv.entries
  listed : sawLegacyPas live ∈ past ∧ src ∈ live.getD []
  source : src.key = entry.source.key
  recorded : inv.recorded.get? src.key = some s ∧ s.drift src = []
  created : replacementFor src entry.replacement.2 = .ok object
  recommend : object.spec.lookup "mode" = some (.str "Recommend")
  absent : past.getLast? = some (sawNew entry.replacement none)
  unrefused : ∀ event ∈ past, Succeeded event

/-- A recorded operator is stopped at the version that was read right before,
with every replacement ready. -/
structure MayScale (allowReactive : Bool) (past : Past Reply)
    (nameSpace name resourceVersion : String) (op : LegacyOperator)
    (dep : Deployment) : Prop where
  op_mem : op ∈ inv.operators
  operator : op.key = (nameSpace, name)
  read : past.getLast? = some (sawDeployment op.key (some dep))
  uid : dep.metadata.uid = op.uid
  version : dep.metadata.resourceVersion = resourceVersion
  verified : Verified decimal inv allowReactive past
  unrefused : ∀ event ∈ past, Succeeded event

/-- A recorded autoscaler is deleted as it was recorded, at the version that
was read right before: after no pod of a recorded operator was found, and with
its replacement ready. -/
structure MayDelete (allowReactive : Bool) (past : Past Reply)
    (nameSpace name uid resourceVersion : String) (entry : Entry)
    (live new : Obj) (before pods : Past Reply) : Prop where
  entry_mem : entry ∈ inv.entries
  source : entry.source.key = (nameSpace, name) ∧ entry.source.uid = uid
  read : past = before ++ pods ++
    [sawLegacy entry.source.key (some live),
      sawNew entry.replacement (some new)]
  uid_eq : live.metadata.uid = uid
  spec_eq : live.spec.value.eq entry.source.spec.value = true
  version : live.metadata.resourceVersion = resourceVersion
  noPods : inv.operators ≠ [] ∧ NoPods inv.operators pods
  ready : replacementProblems decimal entry inv.keys allowReactive true new =
    .ok []
  verified : Verified decimal inv allowReactive before
  unrefused : ∀ event ∈ past, Succeeded event

/-- A replacement is set to Active at the version that was read right before
and passed every check without a conflict, after no legacy autoscaler was
listed on its target. -/
structure MayActivate (allowReactive : Bool) (past : Past Reply)
    (nameSpace name uid resourceVersion : String) (entry : Entry) (new : Obj)
    (live : Option (List Obj)) : Prop where
  entry_mem : entry ∈ inv.entries
  replacement : entry.replacement = (nameSpace, name)
  read : past.getLast? = some (sawNew entry.replacement (some new))
  identity : new.metadata.uid = uid ∧
    new.metadata.resourceVersion = resourceVersion
  ready : replacementProblems decimal entry [] allowReactive false new = .ok []
  untargeted : sawLegacyPas live ∈ past ∧
    anyTargets entry.target (live.getD []) = .ok false

/-- What an invocation may call after a conversation: reads, and the writes
that are its own. -/
def Permits (i : Invocation) (past : Past Reply) : Call → Prop
  | .create object => i = .prepare ∧
      ∃ entry live src s, MayCreate inv past object entry live src s
  | .scaleToZero nameSpace name version => ∃ args, i = .cutover args ∧
      ∃ op dep, MayScale decimal inv args.allowReactive past nameSpace name
        version op dep
  | .deleteLegacy nameSpace name uid version => ∃ args, i = .cutover args ∧
      ∃ entry live new before pods, MayDelete decimal inv args.allowReactive
        past nameSpace name uid version entry live new before pods
  | .setActive nameSpace name uid version => ∃ target allowReactive,
      i = .activate target allowReactive ∧
      ∃ entry new live, MayActivate decimal inv allowReactive past nameSpace
        name uid version entry new live
  | _ => True

variable {decimal inv} {i : Invocation}

theorem permits_read {c : Call} (h : c.isRead = true) (past : Past Reply) :
    Permits decimal inv i past c := by
  cases c with
  | create => exact absurd h Bool.false_ne_true
  | scaleToZero => exact absurd h Bool.false_ne_true
  | deleteLegacy => exact absurd h Bool.false_ne_true
  | setActive => exact absurd h Bool.false_ne_true
  | _ => exact trivial

/-- What a part of a command says, under the discipline of its invocation. -/
abbrev Adds (decimal : String → Option Decimal) (inv : Inventory)
    (i : Invocation) {α : Type} (p : Command α)
    (said : α → Past Reply → Prop) : Prop :=
  Says (Permits decimal inv i) p said

theorem quiet_nil : Quiet [] := fun _ h => absurd h List.not_mem_nil

theorem quiet_cons {event : Sigma Reply} {said : Past Reply} :
    Quiet (event :: said) ↔ event.1.isRead = true ∧ Quiet said :=
  List.forall_mem_cons

theorem quiet_singleton {event : Sigma Reply} (h : event.1.isRead = true) :
    Quiet [event] :=
  quiet_cons.mpr ⟨h, quiet_nil⟩

theorem quiet_append {said more : Past Reply} :
    Quiet (said ++ more) ↔ Quiet said ∧ Quiet more :=
  List.forall_mem_append

theorem succeeded_of_read {event : Sigma Reply} (h : event.1.isRead = true) :
    Succeeded event := by
  obtain ⟨c, r⟩ := event
  cases c with
  | create => exact absurd h Bool.false_ne_true
  | scaleToZero => exact absurd h Bool.false_ne_true
  | deleteLegacy => exact absurd h Bool.false_ne_true
  | _ => exact trivial

theorem adds_attempt {α : Type} {x : Except Raised α} :
    Adds decimal inv i (attempt x) fun a said => x = .ok a ∧ said = [] := by
  cases x with
  | ok a => exact says_done ⟨rfl, rfl⟩
  | error e => exact says_fail _ _

/-- An answer that is returned is what was seen; an error ends the command. -/
theorem adds_answered {α : Type} {said : α → Past Reply → Prop}
    {r : Except KubeError α} (h : ∀ a, r = .ok a → said a []) :
    Adds decimal inv i (answered r) said := by
  cases r with
  | ok a => exact says_done (h a rfl)
  | error e => exact says_fail _ _

theorem adds_legacyPas : Adds decimal inv i legacyPas fun live said =>
    said = [sawLegacyPas live] := by
  apply says_call fun past => permits_read rfl past
  intro r
  apply adds_answered
  rintro live rfl
  rfl

theorem adds_getNew (at_ : String × String) :
    Adds decimal inv i (getNew at_) fun o said => said = [sawNew at_ o] := by
  apply says_call fun past => permits_read rfl past
  intro r
  apply adds_answered
  rintro o rfl
  rfl

theorem adds_getLegacy (at_ : String × String) :
    Adds decimal inv i (getLegacy at_) fun o said =>
      said = [sawLegacy at_ o] := by
  apply says_call fun past => permits_read rfl past
  intro r
  apply adds_answered
  rintro o rfl
  rfl

theorem adds_getDeployment (at_ : String × String) :
    Adds decimal inv i (getDeployment at_) fun dep said =>
      said = [sawDeployment at_ dep] := by
  apply says_call fun past => permits_read rfl past
  intro r
  apply adds_answered
  rintro o rfl
  rfl

theorem adds_operatorProblem (op : LegacyOperator) :
    Adds decimal inv i (operatorProblem op) fun _ said => Quiet said := by
  apply (adds_getDeployment op.key).bind
  rintro dep _ rfl
  have hquiet : Quiet [sawDeployment op.key dep] :=
    quiet_singleton rfl
  cases dep with
  | none => exact says_done hquiet
  | some dep =>
      by_cases huid : dep.metadata.uid ≠ op.uid
      · simp only [if_pos huid]
        exact says_done hquiet
      · simp only [if_neg huid]
        exact says_done hquiet

theorem adds_operatorProblems (ops : List LegacyOperator) :
    Adds decimal inv i (operatorProblems ops) fun _ said => Quiet said := by
  induction ops with
  | nil => exact says_done quiet_nil
  | cons op rest ih =>
      apply (adds_operatorProblem op).bind
      intro here said hsaid
      apply ih.bind
      intro others more hmore
      apply says_done
      rw [List.append_nil]
      exact quiet_append.mpr ⟨hsaid, hmore⟩

/-- What is accepted of the live autoscalers. -/
structure Checked (inv : Inventory)
    (live : OrderedDict (String × String) Obj) (said : Past Reply) : Prop where
  quiet : Quiet said
  listed : ∃ found, sawLegacyPas found ∈ said ∧ live = byKey (found.getD [])
  undrifted : inv.drifted live = []

theorem adds_checkInventory (allowDeleted : Bool) :
    Adds decimal inv i (checkInventory inv allowDeleted) (Checked inv) := by
  apply adds_legacyPas.bind
  rintro found _ rfl
  apply (adds_operatorProblems inv.operators).bind
  intro operators said hsaid
  by_cases hok : inv.drifted (byKey (found.getD [])) = [] ∧
      (allowDeleted = true ∨ inv.gone (byKey (found.getD [])) = []) ∧
      operators = []
  · simp only [if_pos hok]
    apply says_done
    rw [List.append_nil]
    constructor
    case quiet => exact quiet_cons.mpr ⟨rfl, hsaid⟩
    case listed => exact ⟨found, List.mem_cons_self, rfl⟩
    case undrifted => exact hok.1
  · simp only [if_neg hok]
    exact says_fail _ _

theorem adds_checkReplacement (entry : Entry)
    (keys : List (String × String)) (allowReactive conflictsOk : Bool) :
    Adds decimal inv i
      (checkReplacement decimal entry keys allowReactive conflictsOk)
      fun checked said => said = [sawNew entry.replacement checked.2] ∧
        (checked.1 = [] → ∃ new, checked.2 = some new ∧
          replacementProblems decimal entry keys allowReactive conflictsOk
            new = .ok []) := by
  apply (adds_getNew entry.replacement).bind
  rintro o _ rfl
  cases o with
  | none =>
      apply says_done
      exact ⟨rfl, fun h => absurd h (List.cons_ne_nil _ _)⟩
  | some new =>
      apply adds_attempt.bind
      rintro problems _ ⟨hproblems, rfl⟩
      apply says_done
      refine ⟨rfl, ?_⟩
      rintro rfl
      exact ⟨new, rfl, hproblems⟩

/-- Every one of the entries whose source is live was read ready. -/
def AllReady (decimal : String → Option Decimal) (inv : Inventory)
    (live : OrderedDict (String × String) Obj) (allowReactive : Bool)
    (entries : List Entry) (said : Past Reply) : Prop :=
  ∀ entry ∈ entries, (live.get? entry.source.key).isSome →
    ∃ new, sawNew entry.replacement (some new) ∈ said ∧
      replacementProblems decimal entry inv.keys allowReactive true new = .ok []

theorem adds_countFailed (live : OrderedDict (String × String) Obj)
    (allowReactive : Bool) (entries : List Entry) :
    Adds decimal inv i (countFailed decimal inv live allowReactive entries)
      fun failed said => Quiet said ∧ (failed = 0 →
        AllReady decimal inv live allowReactive entries said) := by
  induction entries with
  | nil =>
      exact says_done ⟨quiet_nil, fun _ e he => absurd he List.not_mem_nil⟩
  | cons e rest ih =>
      unfold countFailed
      by_cases hlive : (live.get? e.source.key).isNone = true
      · rw [if_pos hlive]
        apply ih.mono
        rintro failed said ⟨hquiet, hready⟩
        refine ⟨hquiet, fun hzero entry hentry hsome => ?_⟩
        rcases List.mem_cons.mp hentry with rfl | hrest
        · rw [Option.isNone_iff_eq_none.mp hlive] at hsome
          exact absurd hsome Bool.false_ne_true
        · exact hready hzero entry hrest hsome
      · rw [if_neg hlive]
        apply (adds_checkReplacement e inv.keys allowReactive true).bind
        rintro ⟨problems, o⟩ _ ⟨rfl, hchecked⟩
        apply ih.bind
        rintro failed said ⟨hquiet, hready⟩
        apply says_done
        rw [List.append_nil]
        refine ⟨quiet_cons.mpr ⟨rfl, hquiet⟩,
          fun hzero entry hentry hsome => ?_⟩
        have hnil : problems = [] := by
          by_contra hne
          rw [if_neg hne] at hzero
          omega
        have hfailed : failed = 0 := by omega
        rcases List.mem_cons.mp hentry with rfl | hrest
        · obtain ⟨new, rfl, hproblems⟩ := hchecked hnil
          exact ⟨new, List.mem_cons_self, hproblems⟩
        · obtain ⟨new, hmem, hproblems⟩ := hready hfailed entry hrest hsome
          exact ⟨new, List.mem_cons_of_mem _ hmem, hproblems⟩

theorem adds_verifyAll (live : OrderedDict (String × String) Obj)
    (allowReactive : Bool) :
    Adds decimal inv i (verifyAll decimal inv live allowReactive)
      fun _ said => Quiet said ∧
        AllReady decimal inv live allowReactive inv.entries said := by
  apply (adds_countFailed live allowReactive inv.entries).bind
  rintro failed said ⟨hquiet, hready⟩
  by_cases hzero : failed = 0
  · simp only [if_pos hzero]
    apply says_done
    rw [List.append_nil]
    exact ⟨hquiet, hready hzero⟩
  · simp only [if_neg hzero]
    exact says_fail _ _

theorem adds_recordedOperator (op : LegacyOperator) :
    Adds decimal inv i (recordedOperator op) fun dep said =>
      said = [sawDeployment op.key (some dep)] ∧
        dep.metadata.uid = op.uid := by
  apply (adds_getDeployment op.key).bind
  rintro dep _ rfl
  cases dep with
  | none => exact says_fail _ _
  | some dep =>
      by_cases huid : dep.metadata.uid ≠ op.uid
      · simp only [if_pos huid]
        exact says_fail _ _
      · simp only [if_neg huid]
        exact says_done ⟨rfl, not_not.mp huid⟩

theorem adds_selectorString (dep : Deployment) :
    Adds decimal inv i (selectorString dep) fun selector said =>
      said = [] ∧ selectorString dep = .done selector := by
  unfold selectorString
  by_cases hplain : dep.matchExpressions = true ∨ dep.matchLabels = []
  · simp only [if_pos hplain]
    exact says_fail _ _
  · simp only [if_neg hplain]
    exact says_done ⟨rfl, rfl⟩

theorem adds_listPods (nameSpace selector : String) :
    Adds decimal inv i (Talk.call (.listPods nameSpace selector) answered)
      fun pods said => said = [sawPods nameSpace selector pods] := by
  apply says_call fun past => permits_read rfl past
  intro r
  apply adds_answered
  rintro pods rfl
  rfl

theorem adds_operatorPods (ops : List LegacyOperator) :
    Adds decimal inv i (operatorPods ops) fun pods said =>
      Quiet said ∧ (pods = [] → NoPods ops said) := by
  induction ops with
  | nil => exact says_done ⟨quiet_nil, fun _ => .nil⟩
  | cons op rest ih =>
      apply (adds_recordedOperator op).bind
      rintro dep _ ⟨rfl, huid⟩
      apply (adds_selectorString dep).bind
      rintro selector _ ⟨rfl, hselector⟩
      apply (adds_listPods op.nameSpace selector).bind
      rintro pods _ rfl
      apply ih.bind
      rintro others said ⟨hquiet, hnone⟩
      apply says_done
      rw [List.append_nil]
      constructor
      · exact quiet_cons.mpr ⟨rfl, quiet_cons.mpr ⟨rfl, hquiet⟩⟩
      · intro hnil
        obtain ⟨rfl, hothers⟩ := List.append_eq_nil_iff.mp hnil
        exact .cons huid hselector (hnone hothers)

variable (decimal inv i) in
/-- A part of a command that writes nothing. -/
abbrev Reads {α : Type} (p : Command α) : Prop :=
  Adds decimal inv i p fun _ said => Quiet said

theorem reads_done {α : Type} (a : α) : Reads decimal inv i (.done a) :=
  says_done quiet_nil

theorem reads_bind {α β : Type} {p : Command α} {f : α → Command β}
    (h : Reads decimal inv i p) (hf : ∀ a, Reads decimal inv i (f a)) :
    Reads decimal inv i (p >>= f) := by
  apply h.bind
  intro a said hsaid
  exact (hf a).mono fun _ more hmore => quiet_append.mpr ⟨hsaid, hmore⟩

theorem reads_ite {α : Type} {c : Prop} [Decidable c] {p q : Command α}
    (hp : Reads decimal inv i p) (hq : Reads decimal inv i q) :
    Reads decimal inv i (if c then p else q) := by
  by_cases h : c
  · rw [if_pos h]
    exact hp
  · rw [if_neg h]
    exact hq

theorem reads_attempt {α : Type} (x : Except Raised α) :
    Reads decimal inv i (attempt x) := by
  apply adds_attempt.mono
  rintro a _ ⟨-, rfl⟩
  exact quiet_nil

theorem reads_getNew (at_ : String × String) :
    Reads decimal inv i (getNew at_) := by
  apply (adds_getNew at_).mono
  rintro o _ rfl
  exact quiet_singleton rfl

theorem reads_getDeployment (at_ : String × String) :
    Reads decimal inv i (getDeployment at_) := by
  apply (adds_getDeployment at_).mono
  rintro o _ rfl
  exact quiet_singleton rfl

theorem reads_operatorPods (ops : List LegacyOperator) :
    Reads decimal inv i (operatorPods ops) :=
  (adds_operatorPods ops).mono fun _ _ h => h.1

theorem reads_operatorMarkers (ops : List LegacyOperator) :
    Reads decimal inv i (operatorMarkers ops) := by
  induction ops with
  | nil => exact reads_done _
  | cons op rest ih =>
      have hop : Reads decimal inv i (recordedOperator op) := by
        apply (adds_recordedOperator op).mono
        rintro dep _ ⟨rfl, -⟩
        exact quiet_singleton rfl
      exact reads_bind hop fun dep => reads_bind ih fun _ => reads_done _

theorem reads_poll {look : Command (Option String)}
    (hlook : Reads decimal inv i look) (rounds : ℕ) :
    Reads decimal inv i (poll look rounds) := by
  induction rounds with
  | zero =>
      apply reads_bind hlook
      intro found
      cases found with
      | none => exact reads_done _
      | some why => exact says_fail _ _
  | succ rounds ih =>
      apply reads_bind hlook
      intro found
      exact reads_ite (reads_done _) ih

theorem reads_pollUntilDeadline {look : Command (Option String)}
    (hlook : Reads decimal inv i look) :
    Reads decimal inv i (pollUntilDeadline look) := by
  apply says_call fun past => permits_read rfl past
  intro rounds
  apply (reads_poll hlook rounds).mono
  intro _ said hsaid
  exact quiet_cons.mpr ⟨rfl, hsaid⟩

theorem reads_lookForPods : Reads decimal inv i (lookForPods inv) := by
  apply reads_bind (reads_operatorPods inv.operators)
  intro pods
  exact reads_ite (reads_done _) (reads_done _)

theorem reads_lookForGone (s : Source) :
    Reads decimal inv i (lookForGone s) := by
  have hget : Reads decimal inv i (getLegacy s.key) := by
    apply (adds_getLegacy s.key).mono
    rintro o _ rfl
    exact quiet_singleton rfl
  apply reads_bind hget
  intro still
  cases still with
  | none => exact reads_done _
  | some still => exact reads_ite (reads_done _) (reads_done _)

theorem reads_lookForActive (entry : Entry) (pinned : String) :
    Reads decimal inv i (lookForActive decimal entry pinned) := by
  apply reads_bind (reads_getNew entry.replacement)
  intro new
  cases new with
  | none => exact says_fail _ _
  | some new =>
      apply reads_ite (says_fail _ _)
      apply reads_bind (reads_attempt _)
      intro problems
      apply reads_ite (says_fail _ _)
      apply reads_bind (reads_attempt _)
      intro conflict
      exact reads_ite (reads_done _) (reads_done _)

theorem reads_parseRenames (args : List String) :
    Reads decimal inv i (parseRenames args) := by
  unfold parseRenames
  generalize ([] : OrderedDict String String) = renames
  induction args generalizing renames with
  | nil => exact reads_done _
  | cons r rest ih =>
      rw [List.foldlM_cons]
      apply reads_bind
      case h => exact reads_ite (says_fail _ _) (reads_done _)
      case hf => exact ih

theorem reads_planOne (renames : OrderedDict String String)
    (planned : Planned) (o : Obj) :
    Reads decimal inv i (planOne renames planned o) := by
  apply reads_bind (reads_attempt _)
  intro entry
  apply reads_ite (reads_done _)
  exact reads_bind (reads_getNew _) fun _ => reads_done _

theorem reads_planAll (renames : OrderedDict String String) (live : List Obj)
    (planned : Planned) :
    Reads decimal inv i (planAll renames live planned) := by
  induction live generalizing planned with
  | nil => exact reads_done _
  | cons o rest ih => exact reads_bind (reads_planOne renames planned o) ih

theorem reads_planOperators (names : List String)
    (operators : List LegacyOperator) (problems : List String) :
    Reads decimal inv i (planOperators names operators problems) := by
  induction names generalizing operators problems with
  | nil => exact reads_done _
  | cons op rest ih =>
      apply reads_bind
      case h => exact reads_ite (reads_getDeployment _) (reads_done _)
      case hf =>
        intro found
        cases found with
        | none => exact ih _ _
        | some dep => exact ih _ _

theorem reads_plan (args : PlanArgs) : Reads decimal inv i (cmdPlan args) := by
  apply reads_bind
  case h =>
    apply adds_legacyPas.mono
    rintro live _ rfl
    exact quiet_singleton rfl
  case hf =>
    intro live
    apply reads_ite (reads_done _)
    apply reads_ite (says_fail _ _)
    apply reads_bind (reads_parseRenames _)
    intro renames
    apply reads_ite (says_fail _ _)
    apply reads_bind (reads_planAll _ _ _)
    intro planned
    apply reads_bind (reads_planOperators _ _ _)
    intro found
    exact reads_ite (reads_done _) (says_fail _ _)

theorem adds_loadInventory : Adds decimal inv i (loadInventory inv)
    fun loaded said => inv = loaded ∧ inv.operators ≠ [] ∧ said = [] := by
  unfold loadInventory
  by_cases hops : inv.operators = []
  · rw [if_pos hops]
    exact says_fail _ _
  · rw [if_neg hops]
    exact says_done ⟨rfl, hops, rfl⟩

theorem reads_verify (allowReactive : Bool) :
    Reads decimal inv i (cmdVerify decimal inv allowReactive) := by
  apply adds_loadInventory.bind
  rintro _ _ ⟨rfl, -, rfl⟩
  apply (adds_checkInventory false).bind
  intro live said hchecked
  apply (adds_verifyAll live allowReactive).mono
  rintro _ more ⟨hquiet, -⟩
  show Quiet (said ++ more)
  exact quiet_append.mpr ⟨hchecked.quiet, hquiet⟩

theorem unrefused_append {past said : Past Reply}
    (h : ∀ event ∈ past, Succeeded event) (hsaid : Quiet said) :
    ∀ event ∈ past ++ said, Succeeded event := by
  intro event hevent
  rcases List.mem_append.mp hevent with hold | hnew
  · exact h event hold
  · exact succeeded_of_read (hsaid event hnew)

theorem unrefused_write {past : Past Reply} {event : Sigma Reply}
    (h : ∀ event ∈ past, Succeeded event) (hevent : Succeeded event) :
    ∀ other ∈ past ++ [event], Succeeded other := by
  intro other hother
  rcases List.mem_append.mp hother with hold | hnew
  · exact h other hold
  · rw [List.mem_singleton.mp hnew]
    exact hevent

theorem Verified.append {allowReactive : Bool} {past : Past Reply}
    (h : Verified decimal inv allowReactive past) (said : Past Reply) :
    Verified decimal inv allowReactive (past ++ said) := by
  obtain ⟨live, hlisted, hready⟩ := h
  refine ⟨live, List.mem_append_left _ hlisted, ?_⟩
  intro entry hentry hlive
  obtain ⟨new, hmem, hproblems⟩ := hready entry hentry hlive
  exact ⟨new, List.mem_append_left _ hmem, hproblems⟩

/-- The live autoscalers by their keys are those that were listed. -/
theorem mem_byKey {live : List Obj} {item : (String × String) × Obj}
    (h : item ∈ byKey live) : item.2 ∈ live ∧ item.2.key = item.1 := by
  have hfold : ∀ (live : List Obj) (d : OrderedDict (String × String) Obj),
      item ∈ live.foldl (fun d o => OrderedDict.set d o.key o) d →
        item ∈ d ∨ item.2 ∈ live ∧ item.2.key = item.1 := by
    intro live
    induction live with
    | nil => exact fun d hitem => .inl hitem
    | cons o rest ih =>
        intro d hitem
        rcases ih _ hitem with hset | ⟨hmem, hkey⟩
        · rcases OrderedDict.mem_of_mem_set hset with hold | rfl
          · exact .inl hold
          · exact .inr ⟨List.mem_cons_self, rfl⟩
        · exact .inr ⟨List.mem_cons_of_mem _ hmem, hkey⟩
  exact (hfold live [] h).resolve_left List.not_mem_nil

/-- A live autoscaler that was accepted is as recorded. -/
theorem recorded_of_undrifted {live : OrderedDict (String × String) Obj}
    (h : inv.drifted live = []) {item : (String × String) × Obj}
    (hitem : item ∈ live) :
    ∃ s, inv.recorded.get? item.1 = some s ∧ s.drift item.2 = [] := by
  have hnone := List.flatMap_eq_nil_iff.mp h item hitem
  cases hs : inv.recorded.get? item.1 with
  | none =>
      simp only [hs] at hnone
      exact absurd hnone (List.cons_ne_nil _ _)
  | some s =>
      simp only [hs] at hnone
      exact ⟨s, rfl, hnone⟩

theorem recommend_of_created {legacy : Obj} {name : String}
    {created : NewObject} (h : replacementFor legacy name = .ok created) :
    created.spec.lookup "mode" = some (.str "Recommend") := by
  obtain ⟨target, -, -, hspec, -⟩ := replacementFor_eq_ok h
  obtain ⟨td, -, hcreated⟩ := replacementSpec_eq_ok hspec
  rw [hcreated, lookup_setMember, if_neg (by decide), lookup_setMember,
    if_pos rfl]

theorem keeps_prepareOne {live : OrderedDict (String × String) Obj}
    {found : Option (List Obj)} (hlive : live = byKey (found.getD []))
    (hdrift : inv.drifted live = []) {entry : Entry}
    (hentry : entry ∈ inv.entries) {past : Past Reply}
    (hlisted : sawLegacyPas found ∈ past)
    (hpast : ∀ event ∈ past, Succeeded event) :
    (prepareOne live entry).Keeps (Permits decimal inv .prepare)
      (fun _ past => sawLegacyPas found ∈ past ∧
        ∀ event ∈ past, Succeeded event) past := by
  unfold prepareOne
  cases hsrc : live.get? entry.source.key with
  | none => exact trivial
  | some src =>
      have hitem := OrderedDict.mem_of_get? hsrc
      have hread : Quiet [sawNew entry.replacement none] :=
        quiet_singleton rfl
      apply (adds_getNew entry.replacement past).bind
      rintro existing _ ⟨_, rfl, rfl⟩
      cases existing with
      | some existing =>
          have hquiet : Quiet [sawNew entry.replacement (some existing)] :=
            quiet_singleton rfl
          by_cases hprov :
              provenance existing ≠ (some src.ref, some src.metadata.uid)
          · simp only [if_pos hprov]
            exact trivial
          · simp only [if_neg hprov]
            exact ⟨List.mem_append_left _ hlisted,
              unrefused_append hpast hquiet⟩
      | none =>
          apply (adds_attempt _).bind
          rintro object _ ⟨_, rfl, hobject, rfl⟩
          rw [List.append_nil]
          obtain ⟨s, hs, hundrifted⟩ := recorded_of_undrifted hdrift hitem
          rw [hlive] at hitem
          obtain ⟨hmem, hkey⟩ := mem_byKey hitem
          have hmay : MayCreate inv (past ++ [sawNew entry.replacement none])
              object entry found src s := by
            constructor
            case entry_mem => exact hentry
            case listed => exact ⟨List.mem_append_left _ hlisted, hmem⟩
            case source => exact hkey
            case recorded => exact ⟨hkey.symm ▸ hs, hundrifted⟩
            case created => exact hobject
            case recommend => exact recommend_of_created hobject
            case absent => exact List.getLast?_concat
            case unrefused => exact unrefused_append hpast hread
          refine ⟨⟨rfl, entry, found, src, s, hmay⟩, fun r => ?_⟩
          cases r with
          | error e => exact trivial
          | ok u =>
              apply (adds_attempt _).bind
              rintro _ _ ⟨_, rfl, -, rfl⟩
              rw [List.append_nil]
              exact ⟨List.mem_append_left _ hmay.listed.1,
                unrefused_write hmay.unrefused rfl⟩

/-- Preparing only creates. -/
theorem keeps_prepare : (cmdPrepare inv).Keeps (Permits decimal inv .prepare)
    (fun _ _ => True) [] := by
  apply (adds_loadInventory []).bind
  rintro _ _ ⟨_, rfl, rfl, -, rfl⟩
  apply (adds_checkInventory false _).bind
  rintro live _ ⟨said, rfl, hchecked⟩
  obtain ⟨found, hlisted, hlive⟩ := hchecked.listed
  refine Keeps.mono (keeps_each (fun past : Past Reply =>
    sawLegacyPas found ∈ past ∧ ∀ event ∈ past, Succeeded event) ?_ ?_)
    fun _ _ _ => trivial
  · intro entry hentry past hpast
    exact keeps_prepareOne hlive hchecked.undrifted hentry hpast.1 hpast.2
  · exact ⟨hlisted, fun event hevent =>
      succeeded_of_read (hchecked.quiet event hevent)⟩

/-- What every step of a cutover starts from. -/
structure CutoverGoesOn (decimal : String → Option Decimal) (inv : Inventory)
    (args : CutoverArgs) (past : Past Reply) : Prop where
  verified : Verified decimal inv args.allowReactive past
  unrefused : ∀ event ∈ past, Succeeded event

theorem CutoverGoesOn.append {args : CutoverArgs} {past said : Past Reply}
    (h : CutoverGoesOn decimal inv args past) (hsaid : Quiet said) :
    CutoverGoesOn decimal inv args (past ++ said) :=
  ⟨h.verified.append said, unrefused_append h.unrefused hsaid⟩

theorem CutoverGoesOn.write {args : CutoverArgs} {past : Past Reply}
    {event : Sigma Reply} (h : CutoverGoesOn decimal inv args past)
    (hevent : Succeeded event) :
    CutoverGoesOn decimal inv args (past ++ [event]) :=
  ⟨h.verified.append _, unrefused_write h.unrefused hevent⟩

/-- A part that only reads keeps what a cutover goes on from. -/
theorem keeps_read {args : CutoverArgs} {α : Type} {p : Command α}
    {past : Past Reply} (h : CutoverGoesOn decimal inv args past)
    (hp : Reads decimal inv (.cutover args) p) :
    p.Keeps (Permits decimal inv (.cutover args))
      (fun _ past => CutoverGoesOn decimal inv args past) past := by
  apply (hp past).mono
  rintro a _ ⟨said, rfl, hsaid⟩
  exact h.append hsaid

theorem keeps_stopOperator {args : CutoverArgs} {op : LegacyOperator}
    (hop : op ∈ inv.operators) {past : Past Reply}
    (h : CutoverGoesOn decimal inv args past) :
    (stopOperator op).Keeps (Permits decimal inv (.cutover args))
      (fun _ past => CutoverGoesOn decimal inv args past) past := by
  apply (adds_recordedOperator op past).bind
  rintro dep _ ⟨_, rfl, rfl, huid⟩
  have hread : Quiet [sawDeployment op.key (some dep)] :=
    quiet_singleton rfl
  apply (adds_selectorString dep _).bind
  rintro selector _ ⟨_, rfl, rfl, -⟩
  rw [List.append_nil]
  by_cases hstopped : dep.replicas = some 0
  · simp only [if_pos hstopped]
    exact h.append hread
  · simp only [if_neg hstopped]
    have hmay : MayScale decimal inv args.allowReactive
        (past ++ [sawDeployment op.key (some dep)]) op.nameSpace op.name
        dep.metadata.resourceVersion op dep := by
      constructor
      case op_mem => exact hop
      case operator => rfl
      case read => exact List.getLast?_concat
      case uid => exact huid
      case version => rfl
      case verified => exact h.verified.append _
      case unrefused => exact unrefused_append h.unrefused hread
    refine ⟨⟨args, rfl, op, dep, hmay⟩, fun r => ?_⟩
    cases r with
    | ok u => exact (h.append hread).write rfl
    | error e => cases e <;> exact trivial

theorem keeps_deleteLive {args : CutoverArgs} {entry : Entry}
    (hentry : entry ∈ inv.entries) (hops : inv.operators ≠ [])
    {past pods : Past Reply} {live : Obj}
    (h : CutoverGoesOn decimal inv args past) (hquiet : Quiet pods)
    (hpods : NoPods inv.operators pods) :
    (deleteLive decimal inv args.allowReactive entry live).Keeps
      (Permits decimal inv (.cutover args))
      (fun _ past => CutoverGoesOn decimal inv args past)
      (past ++ pods ++ [sawLegacy entry.source.key (some live)]) := by
  unfold deleteLive
  by_cases hchanged : live.metadata.uid ≠ entry.source.uid ∨
      ¬live.spec.value.eq entry.source.spec.value = true
  · rw [if_pos hchanged]
    exact trivial
  rw [if_neg hchanged]
  obtain ⟨huid, hspec⟩ := not_or.mp hchanged
  apply (adds_checkReplacement entry inv.keys args.allowReactive true _).bind
  rintro ⟨problems, o⟩ _ ⟨_, rfl, rfl, hchecked⟩
  by_cases hnone : problems ≠ []
  · simp only [if_pos hnone]
    exact trivial
  simp only [if_neg hnone]
  obtain ⟨new, rfl, hready⟩ := hchecked (not_not.mp hnone)
  have hreads : Quiet (pods ++ ([sawLegacy entry.source.key (some live)] ++
      [sawNew entry.replacement (some new)])) :=
    quiet_append.mpr ⟨hquiet, quiet_append.mpr
      ⟨quiet_singleton rfl, quiet_singleton rfl⟩⟩
  have hgoes := h.append hreads
  rw [← List.append_assoc, ← List.append_assoc] at hgoes
  have hmay : MayDelete decimal inv args.allowReactive
      (past ++ pods ++ [sawLegacy entry.source.key (some live)] ++
        [sawNew entry.replacement (some new)])
      entry.source.nameSpace entry.source.name entry.source.uid
      live.metadata.resourceVersion entry live new past pods := by
    constructor
    case entry_mem => exact hentry
    case source => exact ⟨rfl, rfl⟩
    case read => exact List.append_assoc _ _ _
    case uid_eq => exact not_not.mp huid
    case spec_eq => exact not_not.mp hspec
    case version => rfl
    case noPods => exact ⟨hops, hpods⟩
    case ready => exact hready
    case verified => exact h.verified
    case unrefused => exact hgoes.unrefused
  refine ⟨⟨args, rfl, entry, live, new, past, pods, hmay⟩, fun r => ?_⟩
  cases r with
  | ok u =>
      exact keeps_read (hgoes.write rfl)
        (reads_pollUntilDeadline (reads_lookForGone entry.source))
  | error e => cases e <;> exact trivial

theorem keeps_deleteOne {args : CutoverArgs} {entry : Entry}
    (hentry : entry ∈ inv.entries) (hops : inv.operators ≠ [])
    {past : Past Reply} (h : CutoverGoesOn decimal inv args past) :
    (deleteOne decimal inv args.allowReactive entry).Keeps
      (Permits decimal inv (.cutover args))
      (fun _ past => CutoverGoesOn decimal inv args past) past := by
  apply (adds_operatorPods inv.operators past).bind
  rintro found _ ⟨pods, rfl, hquiet, hpods⟩
  by_cases hsome : found ≠ []
  · simp only [if_pos hsome]
    exact trivial
  simp only [if_neg hsome]
  apply (adds_getLegacy entry.source.key _).bind
  rintro live _ ⟨_, rfl, rfl⟩
  cases live with
  | none =>
      exact (h.append hquiet).append (quiet_singleton rfl)
  | some live =>
      exact keeps_deleteLive hentry hops h hquiet (hpods (not_not.mp hsome))

theorem verified_of_allReady {allowReactive : Bool}
    {found : Option (List Obj)} {past said : Past Reply}
    (hlisted : sawLegacyPas found ∈ past)
    (hready : AllReady decimal inv (byKey (found.getD [])) allowReactive
      inv.entries said) :
    Verified decimal inv allowReactive (past ++ said) := by
  refine ⟨found, List.mem_append_left _ hlisted, ?_⟩
  intro entry hentry hlive
  obtain ⟨new, hmem, hproblems⟩ := hready entry hentry hlive
  exact ⟨new, List.mem_append_right _ hmem, hproblems⟩

/-- A cutover stops operators and deletes autoscalers, as it may. -/
theorem keeps_cutover (args : CutoverArgs) :
    (cmdCutover decimal inv args).Keeps (Permits decimal inv (.cutover args))
      (fun _ _ => True) [] := by
  apply (adds_loadInventory []).bind
  rintro _ _ ⟨_, rfl, rfl, hops, rfl⟩
  apply (adds_checkInventory true _).bind
  rintro live said ⟨_, rfl, hchecked⟩
  apply (reads_operatorMarkers _ _).bind
  rintro markers _ ⟨owned, rfl, howned⟩
  by_cases hgitops : live.flatMap (·.2.metadata.gitopsMarkers) ++ markers ≠
      [] ∧ ¬args.gitopsHandled = true
  · simp only [if_pos hgitops]
    exact trivial
  simp only [if_neg hgitops]
  apply (adds_verifyAll live args.allowReactive _).bind
  rintro _ _ ⟨ready, rfl, hquiet, hready⟩
  have hgoes : CutoverGoesOn decimal inv args
      (said ++ owned ++ ready) := by
    obtain ⟨found, hlisted, rfl⟩ := hchecked.listed
    constructor
    case verified =>
      exact verified_of_allReady (List.mem_append_left _ hlisted) hready
    case unrefused =>
      intro event hevent
      have hreads : Quiet (said ++ owned ++ ready) := quiet_append.mpr
        ⟨quiet_append.mpr ⟨hchecked.quiet, howned⟩, hquiet⟩
      exact succeeded_of_read (hreads event hevent)
  -- The operators are stopped; from here every part keeps `CutoverGoesOn`.
  refine (keeps_each (CutoverGoesOn decimal inv args)
    (fun op hop past h => keeps_stopOperator hop h) hgoes).bind ?_
  intro _ past hgoes
  refine (keeps_read hgoes (reads_pollUntilDeadline reads_lookForPods)).bind ?_
  intro _ past hgoes
  refine (keeps_read hgoes
    ((adds_checkInventory true).mono fun _ _ h => h.quiet)).bind ?_
  intro live past hgoes
  refine (keeps_read hgoes
    ((adds_verifyAll live args.allowReactive).mono fun _ _ h => h.1)).bind ?_
  intro _ past hgoes
  exact Keeps.mono (keeps_each (CutoverGoesOn decimal inv args)
    (fun entry hentry past h => keeps_deleteOne hentry hops h) hgoes)
    fun _ _ _ => trivial

theorem keeps_setActive {target : String} {allowReactive : Bool}
    {entry : Entry} {again : Command String} {found : Option (List Obj)}
    (hentry : entry ∈ inv.entries)
    (htargeted : anyTargets entry.target (found.getD []) = .ok false)
    (hagain : ∀ past, sawLegacyPas found ∈ past →
      again.Keeps (Permits decimal inv (.activate target allowReactive))
        (fun _ _ => True) past)
    {past : Past Reply} (hlisted : sawLegacyPas found ∈ past) :
    (setActive decimal entry allowReactive again).Keeps
      (Permits decimal inv (.activate target allowReactive))
      (fun _ _ => True) past := by
  apply (adds_checkReplacement entry [] allowReactive false past).bind
  rintro ⟨problems, o⟩ _ ⟨_, rfl, rfl, hchecked⟩
  cases o with
  | none => exact trivial
  | some new =>
      by_cases hnone : problems ≠ []
      · simp only [if_pos hnone]
        exact trivial
      simp only [if_neg hnone]
      obtain ⟨checked, heq, hready⟩ := hchecked (not_not.mp hnone)
      obtain rfl := Option.some.inj heq
      have hmay : MayActivate decimal inv allowReactive
          (past ++ [sawNew entry.replacement (some new)]) entry.replacement.1
          entry.replacement.2 new.metadata.uid new.metadata.resourceVersion
          entry new found := by
        constructor
        case entry_mem => exact hentry
        case replacement => rfl
        case read => exact List.getLast?_concat
        case identity => exact ⟨rfl, rfl⟩
        case ready => exact hready
        case untargeted =>
          exact ⟨List.mem_append_left _ hlisted, htargeted⟩
      refine ⟨⟨target, allowReactive, rfl, entry, new, found, hmay⟩,
        fun r => ?_⟩
      cases r with
      | ok u => exact trivial
      | error e =>
          cases e with
          | conflict =>
              exact hagain _ (List.mem_append_left _ hmay.untargeted.1)
          | _ => exact trivial

theorem keeps_activateTries {target : String} {allowReactive : Bool}
    {entry : Entry} {found : Option (List Obj)}
    (hentry : entry ∈ inv.entries)
    (htargeted : anyTargets entry.target (found.getD []) = .ok false)
    (tries : ℕ) : ∀ past, sawLegacyPas found ∈ past →
      (activateTries decimal entry allowReactive tries).Keeps
        (Permits decimal inv (.activate target allowReactive))
        (fun _ _ => True) past := by
  induction tries with
  | zero => exact fun _ _ => trivial
  | succ tries ih =>
      intro past hlisted
      apply (adds_getNew entry.replacement past).bind
      rintro new _ ⟨_, rfl, rfl⟩
      have hstill : sawLegacyPas found ∈
          past ++ [sawNew entry.replacement new] :=
        List.mem_append_left _ hlisted
      cases new with
      | none => exact keeps_setActive hentry htargeted ih hstill
      | some new =>
          by_cases hactive :
              (new.spec.value.get "mode").eq (.str "Active") = true
          · simp only [if_pos hactive]
            apply (adds_attempt _).bind
            rintro problems _ ⟨_, rfl, -, rfl⟩
            by_cases hnone : problems ≠ []
            · simp only [if_pos hnone]
              exact trivial
            · simp only [if_neg hnone]
              exact trivial
          · simp only [if_neg hactive]
            exact keeps_setActive hentry htargeted ih hstill

/-- An activation sets one replacement to Active, as it may. -/
theorem keeps_activate (target : String) (allowReactive : Bool) :
    (cmdActivate decimal inv target allowReactive).Keeps
      (Permits decimal inv (.activate target allowReactive))
      (fun _ _ => True) [] := by
  apply (adds_loadInventory []).bind
  rintro _ _ ⟨_, rfl, rfl, -, rfl⟩
  obtain ⟨ns, sep, name⟩ := partition '/' target
  cases hentry : inv.entryOf (ns, name) with
  | none =>
      simp only [hentry]
      exact trivial
  | some entry =>
      simp only [hentry]
      have hmem : entry ∈ inv.entries := List.mem_of_find?_eq_some hentry
      apply (adds_checkInventory true _).bind
      rintro live said ⟨_, rfl, -⟩
      apply (adds_legacyPas _).bind
      rintro found _ ⟨_, rfl, rfl⟩
      apply (adds_attempt _).bind
      rintro targeted _ ⟨_, rfl, htargeted, rfl⟩
      cases targeted with
      | true => exact trivial
      | false =>
          have hlisted : sawLegacyPas found ∈
              said ++ [sawLegacyPas found] ++ [] := by
            rw [List.append_nil]
            exact List.mem_append_right _ (List.mem_singleton_self _)
          refine (keeps_activateTries hmem htargeted 3 _ hlisted).bind ?_
          intro pinned past _
          apply (reads_pollUntilDeadline
            (reads_lookForActive entry pinned) past).mono
          exact fun _ _ _ => trivial

theorem keeps_command (i : Invocation) :
    (i.command decimal inv).Keeps (Permits decimal inv i) (fun _ _ => True)
      [] := by
  cases i with
  | plan args =>
      have hreads : Reads decimal inv (.plan args)
          ((Invocation.plan args).command decimal inv) :=
        reads_bind (reads_plan args) fun _ => reads_done ()
      exact (hreads []).mono fun _ _ _ => trivial
  | prepare => exact keeps_prepare
  | verify allowReactive =>
      exact (reads_verify allowReactive []).mono fun _ _ _ => trivial
  | cutover args => exact keeps_cutover args
  | activate target allowReactive => exact keeps_activate target allowReactive

variable (decimal inv) in
/-- Every call of every run of the tool is one that its invocation may make
when it makes it, whatever the API server answered before and wherever the run
is cut off. -/
theorem handover_obeys (i : Invocation) :
    Obeys (Permits decimal inv i) (i.command decimal inv) :=
  (keeps_command i).obeys

end Handover

namespace HandoverWitness

/-- The recorded operator, and what is read of its Deployment. -/
def operator : LegacyOperator := ⟨"shop", "operator", "u-3"⟩

def deployment (version : String) (replicas : ℤ) : Deployment where
  metadata :=
    { nameSpace := "shop"
      name := "operator"
      uid := "u-3"
      resourceVersion := version }
  replicas := some replicas
  matchLabels := [("app", "operator")]
  matchExpressions := false

def inventory : Inventory := ⟨[operator], [RoundedCapacity.entry]⟩

/-- A cutover after the last legacy autoscaler was deleted. -/
def cutover : Invocation := .cutover ⟨false, false⟩

def seen : Sigma Reply := sawDeployment operator.key (some (deployment "1" 1))

/-- The listing, and the operator as it is checked, searched for markers and
about to be stopped. -/
def conversation : Past Reply := [sawLegacyPas (some []), seen, seen, seen]

def stop : Call := .scaleToZero "shop" "operator" "1"

theorem reaches_stop : ∃ next,
    Reaches (cutover.command (fun _ => none) inventory) conversation
      (.call stop next) := by
  have hlist : Reaches (cutover.command (fun _ => none) inventory) []
      (.call .legacyPas _) := .start
  have hcheck := hlist.reply (.ok (some []))
  have hmark := hcheck.reply (.ok (some (deployment "1" 1)))
  have hread := hmark.reply (.ok (some (deployment "1" 1)))
  exact ⟨_, hread.reply (.ok (some (deployment "1" 1)))⟩

/-- The cutover comes to stop the recorded operator, and may. -/
theorem stop_permitted : ∃ next,
    Reaches (cutover.command (fun _ => none) inventory) conversation
      (.call stop next) ∧
    Permits (fun _ => none) inventory cutover conversation stop := by
  obtain ⟨next, h⟩ := reaches_stop
  exact ⟨next, h, handover_obeys (fun _ => none) inventory cutover _ _ _ h⟩

end HandoverWitness

end PredictiveAutoscaler.Migration
