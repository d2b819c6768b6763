/-
Forecast contract v2, the operator's side: the samples of the completed starts
of a target's pods, the pods that are still starting, and the observation that
a reconcile makes of both.
-/
import PredictiveAutoscaler.ForecastV2.Lead

namespace PredictiveAutoscaler.ForecastV2

abbrev UID := String

def startupWindow : ℤ := 7 * 24 * 3600 * second

def startupMaxSamples : ℕ := 512

/-- `int64(math.Ceil(d.Seconds()))`. -/
def ceilSeconds (d : ℤ) : ℤ := ⌈(d : ℚ) / second⌉

@[simp]
theorem ceilSeconds_mul (s : ℤ) : ceilSeconds (s * second) = s := by
  have hsecond : ((second : ℤ) : ℚ) ≠ 0 := by norm_num [second]
  rw [ceilSeconds, Int.cast_mul, mul_div_cancel_right₀ _ hsecond,
    Int.ceil_intCast]

/-- The Ready condition of a pod; the API's times are in seconds. -/
structure ReadyCondition where
  isTrue : Bool
  lastTransitionTime : Option ℤ
deriving DecidableEq, Repr

/-- A listed pod. -/
structure PodView where
  name : String
  uid : UID
  deleting : Bool
  controller : Option UID
  creationTimestamp : Option ℤ
  ready : Option ReadyCondition
  restartCounts : List ℤ
  /-- The message of `PodScheduled`, when the pod cannot be placed. -/
  unschedulable : Option String
deriving DecidableEq, Repr

def podRestarts (p : PodView) : ℤ := p.restartCounts.sum

namespace PodView

/-- The creation of a pod of the current ReplicaSet that is not being deleted
and not older than the window. -/
def counted (p : PodView) (rsUID : UID) (now : ℤ) : Option ℤ :=
  p.creationTimestamp.filter fun created =>
    !p.deleting && decide (p.controller = some rsUID) &&
      decide (now - created * second ≤ startupWindow)

def isReady (p : PodView) : Bool := p.ready.any ReadyCondition.isTrue

/-- Creation to Ready of a pod without a restart. -/
def completedStart (p : PodView) (created : ℤ) : Option ℤ :=
  if podRestarts p = 0 then
    (p.ready.bind ReadyCondition.lastTransitionTime).bind fun t =>
      if 0 ≤ (t - created) * second then
        some (ceilSeconds ((t - created) * second))
      else none
  else none

/-- The age of a pod that is not Ready. -/
def pendingAge (created now : ℤ) : ℤ :=
  let age := ceilSeconds (now - created * second)
  if age < 0 then 0 else age

end PodView

structure StartupSample where
  uid : UID
  created : ℤ
  seconds : ℤ
deriving DecidableEq, Repr

/-- One target's samples, in memory, of its current ReplicaSet. -/
structure StartupTracker where
  targetUID : UID
  rsUID : UID
  samples : List StartupSample
deriving DecidableEq, Repr

/-- A pod has a sample. -/
def Sampled (samples : List StartupSample) (uid : UID) : Prop :=
  ∃ s ∈ samples, s.uid = uid

instance (samples : List StartupSample) (uid : UID) :
    Decidable (Sampled samples uid) :=
  inferInstanceAs (Decidable (∃ s ∈ samples, s.uid = uid))

/-- What a pass over the pods collects. -/
structure Recording where
  samples : List StartupSample
  pending : Option ℤ
  blocked : Option (String × String)
deriving DecidableEq, Repr

/-- One pod of `recordStartups`. -/
def recordStartup (rsUID : UID) (now : ℤ) (r : Recording) (p : PodView) :
    Recording :=
  match p.counted rsUID now with
  | none => r
  | some created =>
      if p.isReady then
        if Sampled r.samples p.uid then r
        else
          match p.completedStart created with
          | none => r
          | some seconds =>
              { r with samples := r.samples ++ [⟨p.uid, created, seconds⟩] }
      else
        let age := PodView.pendingAge created now
        { samples := r.samples
          pending :=
            match r.pending with
            | none => some age
            | some pending => some (if pending < age then age else pending)
          blocked :=
            match p.unschedulable with
            | none => r.blocked
            | some message =>
                some ("Unschedulable", s!"pod {p.name}: {message}") }

def recordStartups (rsUID : UID) (now : ℤ) (r : Recording)
    (pods : List PodView) : Recording :=
  pods.foldl (recordStartup rsUID now) r

/-- Go's map order decides which of several oldest samples is taken. -/
structure Oldest where
  pick : (samples : List StartupSample) → samples ≠ [] → StartupSample
  mem : ∀ samples hne, pick samples hne ∈ samples
  oldest : ∀ samples hne, ∀ s ∈ samples, (pick samples hne).created ≤ s.created

/-- The oldest samples beyond the limit are dropped, for a number of rounds. -/
def dropOldest (order : Oldest) : ℕ → List StartupSample → List StartupSample
  | 0, samples => samples
  | rounds + 1, samples =>
      if h : startupMaxSamples < samples.length then
        let uid := (order.pick samples (List.length_pos_iff.mp
          ((Nat.zero_le _).trans_lt h))).uid
        dropOldest order rounds (samples.filter fun s => s.uid ≠ uid)
      else samples

/-- The samples that are kept: of the window, up to the limit. -/
def keptSamples (order : Oldest) (now : ℤ) (samples : List StartupSample) :
    List StartupSample :=
  let recent := samples.filter fun s =>
    now - s.created * second ≤ startupWindow
  dropOldest order recent.length recent

/-- The nearest rank of the 90th percentile of enough samples. -/
def p90Of (samples : List StartupSample) : Option ℤ :=
  if startupMinSamples ≤ samples.length then
    ((samples.map StartupSample.seconds).insertionSort (· ≤ ·))[
      (⌈binary64 (binary64 (90 / 100) * samples.length)⌉ - 1).toNat]?
  else none

structure DeploymentCondition where
  type : String
  status : String
  reason : String
  message : String
deriving DecidableEq, Repr

/-- `strings.Contains`. -/
def containsText (s sub : String) : Bool :=
  decide (sub.toList <:+: s.toList)

/-- Why the ReplicaSet cannot create pods. -/
def replicaFailure (conditions : List DeploymentCondition) :
    Option (String × String) :=
  (conditions.filter fun c => c.type = "ReplicaFailure" ∧ c.status = "True")
    |>.getLast?.map fun c =>
      if containsText c.message "exceeded quota" ||
          containsText c.reason.toLower "quota" then
        ("QuotaExceeded", c.message)
      else ("FailedCreate", c.message)

/-- What the reads of the current ReplicaSet and of its pods answer. -/
inductive Reading
  | failed (err : String)
  | unresolved
  | pods (rsUID : UID) (items : List PodView)

/-- What a call of `observeStartup` is given. -/
structure StartupCall where
  now : ℤ
  targetUID : UID
  conditions : List DeploymentCondition
  reading : Reading
  order : Oldest

/-- One reconcile's view of the target's startup. -/
structure StartupView where
  observation : StartupObservation
  observable : Bool
  unresolved : Bool
  readError : String
  blocked : Option (String × String)
deriving DecidableEq, Repr

/-- The tracker of a target; a new target starts a new one. -/
def trackerFor (tracker : Option StartupTracker) (targetUID : UID) :
    StartupTracker :=
  match tracker with
  | none => ⟨targetUID, "", []⟩
  | some tr => if tr.targetUID = targetUID then tr else ⟨targetUID, "", []⟩

/-- A rollout or a rollback discards the samples. -/
def StartupTracker.forReplicaSet (tr : StartupTracker) (rsUID : UID) :
    StartupTracker :=
  if tr.rsUID = rsUID then tr else { tr with rsUID, samples := [] }

/-- The tracker as a call records into it. -/
def openTracker (tracker : Option StartupTracker) (c : StartupCall) :
    StartupTracker :=
  match c.reading with
  | .pods rsUID _ => (trackerFor tracker c.targetUID).forReplicaSet rsUID
  | _ => trackerFor tracker c.targetUID

/-- What a call has recorded, before it drops samples. -/
def recorded (tracker : Option StartupTracker) (c : StartupCall) :
    Recording :=
  let start : Recording :=
    ⟨(openTracker tracker c).samples, none, replicaFailure c.conditions⟩
  match c.reading with
  | .pods rsUID items => recordStartups rsUID c.now start items
  | _ => start

def observeStartup (tracker : Option StartupTracker) (c : StartupCall) :
    StartupTracker × StartupView :=
  let r := recorded tracker c
  let samples := keptSamples c.order c.now r.samples
  ({ openTracker tracker c with samples },
    match c.reading with
    | .failed err => ⟨⟨0, none, none⟩, false, false, err, r.blocked⟩
    | .unresolved =>
        ⟨⟨0, none, none⟩, false, true,
          "the Deployment's current ReplicaSet could not be identified " ++
            "(none or several at its revision and template)", r.blocked⟩
    | .pods _ _ =>
        ⟨⟨samples.length, p90Of samples, r.pending⟩, true, false, "",
          r.blocked⟩)

section Record

variable {rsUID : UID} {now : ℤ}

/-- A sample that a pass adds is the completed start of a counted pod. -/
theorem mem_recordStartup {r : Recording} {p : PodView} {s : StartupSample}
    (h : s ∈ (recordStartup rsUID now r p).samples) :
    s ∈ r.samples ∨ ∃ created, p.counted rsUID now = some created ∧
      p.isReady = true ∧ ¬Sampled r.samples p.uid ∧
      ∃ seconds, p.completedStart created = some seconds ∧
        s = ⟨p.uid, created, seconds⟩ := by
  unfold recordStartup at h
  split at h
  · exact .inl h
  · rename_i created hcounted
    split at h
    · rename_i hready
      split at h
      · exact .inl h
      · rename_i hsampled
        split at h
        · exact .inl h
        · rename_i seconds hstart
          rcases List.mem_append.mp h with h | h
          · exact .inl h
          · exact .inr ⟨created, hcounted, hready, hsampled, seconds, hstart,
              List.mem_singleton.mp h⟩
    · exact .inl h

theorem recordStartup_subset (r : Recording) (p : PodView) :
    r.samples ⊆ (recordStartup rsUID now r p).samples := by
  intro s hs
  unfold recordStartup
  split
  · exact hs
  · split
    · split
      · exact hs
      · split
        · exact hs
        · exact List.mem_append_left _ hs
    · exact hs

theorem recordStartups_subset (r : Recording) (pods : List PodView) :
    r.samples ⊆ (recordStartups rsUID now r pods).samples := by
  induction pods generalizing r with
  | nil => exact fun s hs => hs
  | cons p pods ih =>
      exact fun s hs => ih _ (recordStartup_subset r p hs)

/-- What every sample satisfies at the end of a pass. -/
theorem recordStartups_samples {P : StartupSample → Prop} {r : Recording}
    {pods : List PodView} (hstart : ∀ s ∈ r.samples, P s)
    (hpod : ∀ p ∈ pods, ∀ created seconds, p.counted rsUID now = some created →
      p.isReady = true → ¬Sampled r.samples p.uid →
      p.completedStart created = some seconds → P ⟨p.uid, created, seconds⟩) :
    ∀ s ∈ (recordStartups rsUID now r pods).samples, P s := by
  induction pods generalizing r with
  | nil => exact hstart
  | cons p pods ih =>
      refine @ih (recordStartup rsUID now r p) ?_ ?_
      · intro s hs
        rcases mem_recordStartup hs with hs | ⟨created, hcounted, hready,
          hsampled, seconds, hcompleted, rfl⟩
        · exact hstart s hs
        · exact hpod p List.mem_cons_self created seconds hcounted hready
            hsampled hcompleted
      · intro q hq created seconds hcounted hready hsampled
        refine hpod q (List.mem_cons_of_mem p hq) created seconds hcounted
          hready fun ⟨s, hs, huid⟩ => hsampled ⟨s, ?_, huid⟩
        exact recordStartup_subset r p hs

/-- A Ready pod without a sample gets one, if its start is completed. -/
theorem recordStartups_sampled {r : Recording} {pods : List PodView}
    {p : PodView} {created seconds : ℤ} (hp : p ∈ pods)
    (hcounted : p.counted rsUID now = some created)
    (hready : p.isReady = true)
    (hcompleted : p.completedStart created = some seconds) :
    Sampled (recordStartups rsUID now r pods).samples p.uid := by
  induction pods generalizing r with
  | nil => cases hp
  | cons q pods ih =>
      rcases List.mem_cons.mp hp with rfl | hp
      · have hone : Sampled (recordStartup rsUID now r p).samples p.uid := by
          unfold recordStartup
          rw [hcounted]
          dsimp only
          rw [if_pos hready]
          split
          · assumption
          · rw [hcompleted]
            exact ⟨_, List.mem_append_right _ (List.mem_singleton_self _), rfl⟩
        obtain ⟨s, hs, huid⟩ := hone
        exact ⟨s, recordStartups_subset (recordStartup rsUID now r p) pods hs,
          huid⟩
      · exact ih hp

end Record

theorem mem_openTracker {tracker : Option StartupTracker} {c : StartupCall}
    {s : StartupSample} (h : s ∈ (openTracker tracker c).samples) :
    ∃ tr, tracker = some tr ∧ s ∈ tr.samples := by
  have htarget : s ∈ (trackerFor tracker c.targetUID).samples := by
    unfold openTracker StartupTracker.forReplicaSet at h
    split at h
    · split at h
      · exact h
      · cases h
    · exact h
  unfold trackerFor at htarget
  split at htarget
  · cases htarget
  · rename_i tr
    split at htarget
    · exact ⟨tr, rfl, htarget⟩
    · cases htarget

theorem dropOldest_subset (order : Oldest) (rounds : ℕ)
    (samples : List StartupSample) :
    dropOldest order rounds samples ⊆ samples := by
  induction rounds generalizing samples with
  | zero => exact fun s hs => hs
  | succ rounds ih =>
      unfold dropOldest
      split
      · exact fun s hs => List.mem_of_mem_filter (ih _ hs)
      · exact fun s hs => hs

theorem keptSamples_subset (order : Oldest) (now : ℤ)
    (samples : List StartupSample) :
    keptSamples order now samples ⊆ samples :=
  fun _ hs => List.mem_of_mem_filter (dropOldest_subset order _ _ hs)

end PredictiveAutoscaler.ForecastV2
