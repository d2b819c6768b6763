/-
Startup samples against the pods' own histories: what a schedule of calls makes
of the Ready transitions that it looks at.  Every sample is a first start, and
no pod that was Ready counts as pending, exactly when every call finds the
counted pods as they first became Ready, still starting, or already sampled.
-/
import PredictiveAutoscaler.ForecastV2.Startup
import PredictiveAutoscaler.Run

namespace PredictiveAutoscaler.ForecastV2

/-- A pod of a ReplicaSet, without container restarts.  Its Ready condition is
first not true and changes with every transition; times are in seconds. -/
structure PodHistory where
  name : String
  controller : Option UID
  created : ℤ
  transitions : List ℤ
  /-- The scheduler's message at an instant. -/
  unschedulable : ℤ → Option String
  ordered : transitions.Pairwise (· ≤ ·)
  after_creation : ∀ t ∈ transitions, created ≤ t

namespace PodHistory

/-- The transitions up to an instant, in nanoseconds. -/
def past (p : PodHistory) (looked : ℤ) : List ℤ :=
  p.transitions.filter fun t => t * second ≤ looked

def firstReady (p : PodHistory) : Option ℤ := p.transitions.head?

/-- The Ready condition shows its latest transition only. -/
def readyCondition (p : PodHistory) (looked : ℤ) : Option ReadyCondition :=
  if p.past looked = [] then none
  else some ⟨decide ((p.past looked).length % 2 = 1), (p.past looked).getLast?⟩

def view (p : PodHistory) (uid : UID) (deleting : Bool) (looked : ℤ) :
    PodView where
  name := p.name
  uid
  deleting
  controller := p.controller
  creationTimestamp := some p.created
  ready := p.readyCondition looked
  restartCounts := []
  unschedulable := p.unschedulable looked

/-- The same pod without its readiness flaps: once Ready it stays Ready. -/
def steady (p : PodHistory) : PodHistory :=
  { p with
    transitions := p.transitions.take 1
    ordered := p.ordered.sublist (List.take_sublist 1 _)
    after_creation := fun t ht => p.after_creation t (List.mem_of_mem_take ht) }

theorem past_head? {p : PodHistory} {looked : ℤ} (h : p.past looked ≠ []) :
    (p.past looked).head? = p.firstReady := by
  unfold past firstReady at *
  have hordered := p.ordered
  cases htransitions : p.transitions with
  | nil =>
      rw [htransitions] at h
      exact absurd rfl h
  | cons first rest =>
      rw [htransitions] at h hordered
      have hfirst : first * second ≤ looked := by
        obtain ⟨t, ht⟩ := List.exists_mem_of_ne_nil _ h
        obtain ⟨hmem, hle⟩ := List.mem_filter.mp ht
        rw [decide_eq_true_eq] at hle
        have hsecond : (0 : ℤ) ≤ second := by decide
        rcases List.mem_cons.mp hmem with rfl | hmem
        · exact hle
        · exact (mul_le_mul_of_nonneg_right
            ((List.pairwise_cons.mp hordered).1 t hmem) hsecond).trans hle
      rw [List.filter_cons_of_pos (by simpa using hfirst)]
      rfl

theorem steady_past {p : PodHistory} {looked first : ℤ}
    (hne : p.past looked ≠ []) (hfirst : p.firstReady = some first) :
    p.steady.past looked = [first] := by
  have hhead := past_head? hne
  rw [hfirst] at hhead
  have hmem := List.mem_of_mem_head? hhead
  have hle := (List.mem_filter.mp hmem).2
  have htake : p.steady.transitions = [first] := by
    unfold firstReady at hfirst
    cases htransitions : p.transitions with
    | nil =>
        rw [htransitions] at hfirst
        cases hfirst
    | cons t rest =>
        rw [htransitions] at hfirst
        cases hfirst
        simp [steady, htransitions]
  rw [past, htake]
  exact List.filter_cons_of_pos hle

theorem isReady_view {p : PodHistory} {uid : UID} {deleting : Bool}
    {looked : ℤ} : (p.view uid deleting looked).isReady = true ↔
      (p.past looked).length % 2 = 1 := by
  unfold PodView.isReady view readyCondition
  by_cases hnil : p.past looked = []
  · simp [hnil]
  · simp [hnil]

theorem past_ne_nil {p : PodHistory} {uid : UID} {deleting : Bool} {looked : ℤ}
    (h : (p.view uid deleting looked).isReady = true) :
    p.past looked ≠ [] := by
  rw [isReady_view] at h
  rintro hnil
  rw [hnil] at h
  cases h

/-- The completed start of a Ready pod ends at its latest transition. -/
theorem completedStart_view {p : PodHistory} {uid : UID} {deleting : Bool}
    {looked last : ℤ} (hlast : (p.past looked).getLast? = some last) :
    (p.view uid deleting looked).completedStart p.created =
      some (last - p.created) := by
  have hne : p.past looked ≠ [] := by
    rintro hnil
    rw [hnil] at hlast
    cases hlast
  have hmem : last ∈ p.transitions :=
    (List.mem_filter.mp (List.mem_of_getLast? hlast)).1
  have hnonneg : 0 ≤ (last - p.created) * second :=
    mul_nonneg (sub_nonneg.mpr (p.after_creation last hmem)) (by decide)
  have hready : ((p.view uid deleting looked).ready.bind
      ReadyCondition.lastTransitionTime) = some last := by
    rw [view, readyCondition, if_neg hne]
    exact hlast
  rw [PodView.completedStart, if_pos (by rfl), hready, Option.bind_some,
    if_pos hnonneg, ceilSeconds_mul]

theorem steady_past_nil {p : PodHistory} {looked : ℤ}
    (h : p.past looked = []) : p.steady.past looked = [] := by
  unfold past at *
  rw [List.filter_eq_nil_iff] at *
  exact fun t ht => h t (List.mem_of_mem_take ht)

end PodHistory

/-- The histories of the pods. -/
abbrev Pods := UID → PodHistory

/-- What a call looks at: the current ReplicaSet's pods as they are at an
instant, and which of them are being deleted. -/
inductive Look
  | failed (err : String)
  | unresolved
  | pods (rsUID : UID) (looked : ℤ) (items : List (UID × Bool))

def Look.reading (pods : Pods) : Look → Reading
  | .failed err => .failed err
  | .unresolved => .unresolved
  | .pods rsUID looked items =>
      .pods rsUID (items.map fun i => (pods i.1).view i.1 i.2 looked)

/-- A reconcile: its call of `observeStartup`, and what its lead is selected
for. -/
structure StartupReconcile where
  now : ℤ
  targetUID : UID
  conditions : List DeploymentCondition
  look : Look
  order : Oldest
  prediction : PredictionConfig
  startup : Option StartupBehavior
  generation : ℤ
  reconcileInterval : ℤ
  /-- The status update is stored. -/
  stored : Bool

def StartupReconcile.call (pods : Pods) (r : StartupReconcile) :
    StartupCall :=
  ⟨r.now, r.targetUID, r.conditions, r.look.reading pods, r.order⟩

inductive StartupEvent
  /-- The operator restarts and loses its samples. -/
  | restart
  | reconcile (r : StartupReconcile)

/-- The operator's memory and the published status. -/
structure StartupState where
  tracker : Option StartupTracker
  status : Option PredictionStatus

/-- What a reconcile made of a call. -/
structure StartupReport where
  view : StartupView
  budget : Option (ℤ × String)
  want : PredictionStatus

section Runs

variable (sha256 : List UInt8 → String) (pods : Pods)

def startupStep (s : StartupState) :
    StartupEvent → StartupState × Option StartupReport
  | .restart => ({ s with tracker := none }, none)
  | .reconcile r =>
      let observed := observeStartup s.tracker (r.call pods)
      let want := prepareV2 sha256
        ⟨r.prediction, r.startup, r.generation, s.status⟩
        observed.2.observation r.reconcileInterval
      (⟨some observed.1, if r.stored then some want else s.status⟩,
        some ⟨observed.2, startupBudget observed.2.observation
          (startupConfigOf r.startup), want⟩)

abbrev StartupEntry := Entry StartupState StartupEvent (Option StartupReport)

/-- A run of an operator that starts without samples. -/
def startupRun (status : Option PredictionStatus)
    (events : List StartupEvent) : List StartupEntry :=
  runTrace (startupStep sha256 pods) ⟨none, status⟩ events

end Runs

/-- A call counts a pod as it is at an instant. -/
def StartupReconcile.Counts (pods : Pods) (r : StartupReconcile) (uid : UID)
    (looked : ℤ) : Prop :=
  ∃ rsUID items deleting, r.look = .pods rsUID looked items ∧
    (uid, deleting) ∈ items ∧
      (((pods uid).view uid deleting looked).counted rsUID r.now).isSome = true

/-- A sample is the time from a pod's creation to its first Ready. -/
def FirstStart (pods : Pods) (s : StartupSample) : Prop :=
  ∃ first, (pods s.uid).firstReady = some first ∧
    s.seconds = first - (pods s.uid).created

/-- What is said of a run: every sample that is recorded measures a first
start, no pod that was Ready counts as pending, and readiness flaps change
neither what is observed nor the budget nor the published status. -/
structure MeasuresStarts (sha256 : List UInt8 → String) (pods : Pods)
    (status : Option PredictionStatus) (events : List StartupEvent) :
    Prop where
  samples : ∀ e ∈ startupRun sha256 pods status events, ∀ r,
    e.event = .reconcile r →
      ∀ s ∈ (recorded e.before.tracker (r.call pods)).samples, FirstStart pods s
  pending : ∀ e ∈ startupRun sha256 pods status events, ∀ r,
    e.event = .reconcile r → ∀ uid looked, r.Counts pods uid looked →
      ((pods uid).view uid false looked).isReady = false →
        (pods uid).past looked = []
  unaffected : (startupRun sha256 pods status events).map Entry.report =
    (startupRun sha256 (fun uid => (pods uid).steady) status events).map
      Entry.report

/-- A call finds every pod that it counts still starting, or Ready and either
sampled before or since its first transition. -/
def FirstReadySeen (pods : Pods) (tracker : Option StartupTracker)
    (r : StartupReconcile) : Prop :=
  ∀ uid looked, r.Counts pods uid looked → (pods uid).past looked = [] ∨
    ((pods uid).view uid false looked).isReady = true ∧
      (Sampled (openTracker tracker (r.call pods)).samples uid ∨
        ((pods uid).past looked).getLast? = (pods uid).firstReady)

section Call

variable {pods : Pods} {tracker : Option StartupTracker} {r : StartupReconcile}

theorem counted_view {p : PodHistory} {uid rsUID : UID} {deleting : Bool}
    {looked now created : ℤ}
    (h : (p.view uid deleting looked).counted rsUID now = some created) :
    created = p.created := by
  have hmem := (Option.filter_eq_some_iff.mp h).1
  exact (Option.some.inj hmem).symm

/-- A recorded sample was there or is the start of a pod that is counted. -/
theorem recorded_samples {P : StartupSample → Prop}
    (hstart : ∀ s ∈ (openTracker tracker (r.call pods)).samples, P s)
    (hpod : ∀ uid looked last, r.Counts pods uid looked →
      ((pods uid).view uid false looked).isReady = true →
      ¬Sampled (openTracker tracker (r.call pods)).samples uid →
      ((pods uid).past looked).getLast? = some last →
        P ⟨uid, (pods uid).created, last - (pods uid).created⟩) :
    ∀ s ∈ (recorded tracker (r.call pods)).samples, P s := by
  unfold recorded
  cases hlook : r.look with
  | failed err =>
      simpa [StartupReconcile.call, hlook, Look.reading] using hstart
  | unresolved =>
      simpa [StartupReconcile.call, hlook, Look.reading] using hstart
  | pods rsUID looked items =>
      have hreading : (r.call pods).reading = .pods rsUID
          (items.map fun i => (pods i.1).view i.1 i.2 looked) := by
        rw [StartupReconcile.call, hlook]
        rfl
      rw [hreading]
      refine recordStartups_samples hstart ?_
      intro p hp created seconds hcounted hready hsampled hcompleted
      obtain ⟨⟨uid, deleting⟩, hitem, rfl⟩ := List.mem_map.mp hp
      obtain rfl := counted_view hcounted
      obtain ⟨last, hlast⟩ : ∃ last,
          ((pods uid).past looked).getLast? = some last :=
        ⟨_, List.getLast?_eq_some_getLast (PodHistory.past_ne_nil hready)⟩
      have hseconds : ((pods uid).view uid deleting looked).completedStart
          (pods uid).created = some (last - (pods uid).created) :=
        PodHistory.completedStart_view hlast
      obtain rfl := Option.some.inj (hcompleted.symm.trans hseconds)
      refine hpod uid looked last ⟨rsUID, items, deleting, hlook, hitem, ?_⟩
        ?_ hsampled hlast
      · exact congrArg Option.isSome hcounted
      · rw [PodHistory.isReady_view] at hready ⊢
        exact hready

/-- A pod found as it first became Ready is recorded as if it had stayed
Ready. -/
theorem recordStartup_steady {p : PodHistory} {uid rsUID : UID}
    {deleting : Bool} {looked now : ℤ} {acc : Recording}
    (h : ((p.view uid deleting looked).counted rsUID now).isSome = true →
      p.past looked = [] ∨ (p.view uid deleting looked).isReady = true ∧
        (Sampled acc.samples uid ∨
          (p.past looked).getLast? = p.firstReady)) :
    recordStartup rsUID now acc (p.steady.view uid deleting looked) =
      recordStartup rsUID now acc (p.view uid deleting looked) := by
  have hcounted : (p.steady.view uid deleting looked).counted rsUID now =
      (p.view uid deleting looked).counted rsUID now := rfl
  unfold recordStartup
  rw [hcounted]
  cases hcreated : (p.view uid deleting looked).counted rsUID now with
  | none => rfl
  | some created =>
      obtain rfl := counted_view hcreated
      rcases h (congrArg Option.isSome hcreated) with hnil | ⟨hready, hseen⟩
      · have hview : p.steady.view uid deleting looked =
            p.view uid deleting looked := by
          unfold PodHistory.view PodHistory.readyCondition
          rw [if_pos hnil, if_pos (PodHistory.steady_past_nil hnil)]
          rfl
        rw [hview]
      · have hne := PodHistory.past_ne_nil hready
        obtain ⟨first, hfirst⟩ : ∃ first, p.firstReady = some first :=
          ⟨_, (PodHistory.past_head? hne).symm.trans
            (List.head?_eq_some_head hne)⟩
        have hpast := PodHistory.steady_past hne hfirst
        have hready' : (p.steady.view uid deleting looked).isReady = true := by
          rw [PodHistory.isReady_view, hpast]
          rfl
        dsimp only
        rw [if_pos hready, if_pos hready']
        by_cases hsampled : Sampled acc.samples uid
        · exact (if_pos hsampled).trans (if_pos hsampled).symm
        · have hlast := (hseen.resolve_left hsampled).trans hfirst
          have hstart : (p.view uid deleting looked).completedStart p.created =
              some (first - p.created) :=
            PodHistory.completedStart_view hlast
          have hstart' : (p.steady.view uid deleting looked).completedStart
              p.created = some (first - p.created) := by
            refine PodHistory.completedStart_view ?_
            rw [hpast]
            rfl
          rw [hstart, hstart']
          rfl

theorem recordStartups_steady {pods : Pods} {rsUID : UID} {looked now : ℤ}
    {items : List (UID × Bool)} {acc : Recording}
    (h : ∀ i ∈ items,
      (((pods i.1).view i.1 i.2 looked).counted rsUID now).isSome = true →
        (pods i.1).past looked = [] ∨
          ((pods i.1).view i.1 i.2 looked).isReady = true ∧
            (Sampled acc.samples i.1 ∨
              ((pods i.1).past looked).getLast? = (pods i.1).firstReady)) :
    recordStartups rsUID now acc
        (items.map fun i => (pods i.1).steady.view i.1 i.2 looked) =
      recordStartups rsUID now acc
        (items.map fun i => (pods i.1).view i.1 i.2 looked) := by
  induction items generalizing acc with
  | nil => rfl
  | cons i items ih =>
      have hone := recordStartup_steady (h i List.mem_cons_self)
      simp only [recordStartups, List.map_cons, List.foldl_cons] at ih ⊢
      rw [hone]
      refine ih fun j hj hcounted => ?_
      rcases h j (List.mem_cons_of_mem i hj) hcounted with
        hnil | ⟨hready, ⟨s, hs, huid⟩ | hlast⟩
      · exact .inl hnil
      · exact .inr ⟨hready, .inl ⟨s, recordStartup_subset _ _ hs, huid⟩⟩
      · exact .inr ⟨hready, .inr hlast⟩

/-- A call that finds the pods as they first became Ready observes what it
would without flaps. -/
theorem observeStartup_steady (h : FirstReadySeen pods tracker r) :
    observeStartup tracker (r.call fun uid => (pods uid).steady) =
      observeStartup tracker (r.call pods) := by
  cases hlook : r.look with
  | failed err =>
      simp only [StartupReconcile.call, hlook, Look.reading]
  | unresolved =>
      simp only [StartupReconcile.call, hlook, Look.reading]
  | pods rsUID looked items =>
      have hopen : openTracker tracker (r.call fun uid => (pods uid).steady) =
          openTracker tracker (r.call pods) := by
        simp only [openTracker, StartupReconcile.call, hlook, Look.reading]
      have hrecorded : recorded tracker (r.call fun uid => (pods uid).steady) =
          recorded tracker (r.call pods) := by
        unfold recorded
        rw [hopen]
        simp only [StartupReconcile.call, hlook, Look.reading]
        refine recordStartups_steady fun i hi hcounted => ?_
        have hseen := h i.1 looked
          ⟨rsUID, items, i.2, hlook, hi, hcounted⟩
        rw [PodHistory.isReady_view] at hseen ⊢
        simpa only [StartupReconcile.call, hlook, Look.reading] using hseen
      unfold observeStartup
      rw [hrecorded, hopen]
      simp only [StartupReconcile.call, hlook, Look.reading]

/-- Such a call records first starts only. -/
theorem recorded_firstStart (h : FirstReadySeen pods tracker r)
    (hkept : ∀ tr, tracker = some tr → ∀ s ∈ tr.samples, FirstStart pods s) :
    ∀ s ∈ (recorded tracker (r.call pods)).samples, FirstStart pods s := by
  refine recorded_samples ?_ ?_
  · intro s hs
    obtain ⟨tr, htr, hmem⟩ := mem_openTracker hs
    exact hkept tr htr s hmem
  · intro uid looked last hcounts hready hsampled hlast
    rcases h uid looked hcounts with hnil | ⟨-, hseen⟩
    · exact absurd hnil (PodHistory.past_ne_nil hready)
    · exact ⟨last, (hseen.resolve_left hsampled).symm.trans hlast, rfl⟩

/-- A Ready pod without a sample gets one, up to its latest transition. -/
theorem exists_recorded {uid : UID} {looked last : ℤ}
    (hcounts : r.Counts pods uid looked)
    (hready : ((pods uid).view uid false looked).isReady = true)
    (hsampled : ¬Sampled (openTracker tracker (r.call pods)).samples uid)
    (hlast : ((pods uid).past looked).getLast? = some last) :
    ∃ s ∈ (recorded tracker (r.call pods)).samples,
      s.uid = uid ∧ s.seconds = last - (pods uid).created := by
  have hseconds : ∀ s ∈ (recorded tracker (r.call pods)).samples,
      s.uid = uid → s.seconds = last - (pods uid).created := by
    refine recorded_samples ?_ ?_
    · intro s hs huid
      exact absurd ⟨s, hs, huid⟩ hsampled
    · intro uid' looked' last' hcounts' _ _ hlast' huid
      obtain rfl : uid' = uid := huid
      obtain ⟨_, _, _, hlook, -⟩ := hcounts
      obtain ⟨_, _, _, hlook', -⟩ := hcounts'
      obtain ⟨-, rfl, -⟩ := Look.pods.inj (hlook.symm.trans hlook')
      obtain rfl := Option.some.inj (hlast'.symm.trans hlast)
      rfl
  obtain ⟨rsUID, items, deleting, hlook, hitem, hcounted⟩ := hcounts
  obtain ⟨created, hcreated⟩ := Option.isSome_iff_exists.mp hcounted
  obtain rfl := counted_view hcreated
  have hmem : Sampled (recorded tracker (r.call pods)).samples uid := by
    unfold recorded
    have hreading : (r.call pods).reading = .pods rsUID
        (items.map fun i => (pods i.1).view i.1 i.2 looked) := by
      rw [StartupReconcile.call, hlook]
      rfl
    rw [hreading]
    refine recordStartups_sampled (p := (pods uid).view uid deleting looked)
      (List.mem_map.mpr ⟨(uid, deleting), hitem, rfl⟩) hcreated ?_
      (PodHistory.completedStart_view hlast)
    rw [PodHistory.isReady_view] at hready ⊢
    exact hready
  obtain ⟨s, hs, huid⟩ := hmem
  exact ⟨s, hs, huid, hseconds s hs huid⟩

end Call

section EveryRun

variable {sha256 : List UInt8 → String} {pods : Pods}

/-- The samples in the operator's memory are first starts. -/
def KeepsFirstStarts (pods : Pods) (s : StartupState) : Prop :=
  ∀ tr, s.tracker = some tr → ∀ x ∈ tr.samples, FirstStart pods x

/-- A step of the run finds the pods as they first became Ready. -/
def FirstReadyStep (pods : Pods) (e : StartupEntry) : Prop :=
  ∀ r, e.event = .reconcile r → FirstReadySeen pods e.before.tracker r

theorem startupStep_keeps {s : StartupState} {event : StartupEvent}
    (hkept : KeepsFirstStarts pods s)
    (hstep : ∀ r, event = .reconcile r → FirstReadySeen pods s.tracker r) :
    KeepsFirstStarts pods (startupStep sha256 pods s event).1 := by
  cases event with
  | restart =>
      intro tr htr
      cases htr
  | reconcile r =>
      intro tr htr x hx
      obtain rfl := Option.some.inj htr
      exact recorded_firstStart (hstep r rfl) hkept x
        (keptSamples_subset _ _ _ hx)

theorem startupStep_steady {s : StartupState} {event : StartupEvent}
    (hstep : ∀ r, event = .reconcile r → FirstReadySeen pods s.tracker r) :
    startupStep sha256 (fun uid => (pods uid).steady) s event =
      startupStep sha256 pods s event := by
  cases event with
  | restart => rfl
  | reconcile r =>
      unfold startupStep
      dsimp only
      rw [observeStartup_steady (hstep r rfl)]

/-- Along a run of such steps the memory holds first starts only, and the run
is that of the pods without flaps. -/
theorem runTrace_firstReady {s : StartupState} {events : List StartupEvent}
    (hkept : KeepsFirstStarts pods s)
    (hsteps : ∀ e ∈ runTrace (startupStep sha256 pods) s events,
      FirstReadyStep pods e) :
    (∀ e ∈ runTrace (startupStep sha256 pods) s events,
      KeepsFirstStarts pods e.before) ∧
    runTrace (startupStep sha256 fun uid => (pods uid).steady) s events =
      runTrace (startupStep sha256 pods) s events := by
  induction events generalizing s with
  | nil => exact ⟨fun e he => (nomatch he), rfl⟩
  | cons event rest ih =>
      have hhead : ∀ r, event = .reconcile r →
          FirstReadySeen pods s.tracker r := hsteps _ List.mem_cons_self
      obtain ⟨htail, hrun⟩ := ih (startupStep_keeps hkept hhead)
        fun e he => hsteps e (List.mem_cons_of_mem _ he)
      constructor
      · intro e he
        rcases List.mem_cons.mp he with rfl | he
        · exact hkept
        · exact htail e he
      · have hstep : startupStep sha256 (fun uid => (pods uid).steady) s event =
            startupStep sha256 pods s event := startupStep_steady hhead
        simp only [runTrace, entryAt]
        rw [hstep, hrun]

/-- Every recorded sample is a first start, no pod that was Ready counts as
pending and flaps change nothing, exactly when every call finds the pods that
it counts as they first became Ready, still starting or sampled before. -/
theorem measuresStarts_iff (sha256 : List UInt8 → String) (pods : Pods)
    (status : Option PredictionStatus) (events : List StartupEvent) :
    MeasuresStarts sha256 pods status events ↔
      ∀ e ∈ startupRun sha256 pods status events, ∀ r,
        e.event = .reconcile r → FirstReadySeen pods e.before.tracker r := by
  constructor
  · intro h e he r hr uid looked hcounts
    by_cases hready : ((pods uid).view uid false looked).isReady = true
    · refine .inr ⟨hready, or_iff_not_imp_left.mpr fun hsampled => ?_⟩
      obtain ⟨last, hlast⟩ : ∃ last,
          ((pods uid).past looked).getLast? = some last :=
        ⟨_, List.getLast?_eq_some_getLast (PodHistory.past_ne_nil hready)⟩
      obtain ⟨s, hs, rfl, hseconds⟩ :=
        exists_recorded hcounts hready hsampled hlast
      obtain ⟨first, hfirst, hmeasured⟩ := h.samples e he r hr s hs
      rw [hlast, hfirst]
      congr 1
      omega
    · exact .inl (h.pending e he r hr uid looked hcounts
        (Bool.eq_false_iff.mpr hready))
  · intro h
    have hstart : KeepsFirstStarts pods ⟨none, status⟩ :=
      fun tr htr => nomatch htr
    obtain ⟨hkeeps, hrun⟩ := runTrace_firstReady hstart h
    constructor
    case samples =>
      intro e he r hr
      exact recorded_firstStart (h e he r hr) (hkeeps e he)
    case pending =>
      intro e he r hr uid looked hcounts hready
      refine (h e he r hr uid looked hcounts).resolve_right fun hseen => ?_
      rw [hready] at hseen
      exact Bool.false_ne_true hseen.1
    case unaffected => exact congrArg (List.map Entry.report) hrun.symm

end EveryRun

namespace StartupHistoryWitness

/-- The scan of the samples in the order of recording. -/
def olderOf (samples : List StartupSample) (s : StartupSample) :
    StartupSample :=
  samples.foldl (fun a b => if b.created < a.created then b else a) s

theorem olderOf_spec (samples : List StartupSample) (s : StartupSample) :
    olderOf samples s ∈ s :: samples ∧
      ∀ x ∈ s :: samples, (olderOf samples s).created ≤ x.created := by
  induction samples generalizing s with
  | nil => simp [olderOf]
  | cons y samples ih =>
      obtain ⟨hmem, hle⟩ := ih (if y.created < s.created then y else s)
      simp only [olderOf, List.foldl_cons, List.mem_cons] at *
      by_cases hy : y.created < s.created
      · rw [if_pos hy] at hmem hle ⊢
        grind
      · rw [if_neg hy] at hmem hle ⊢
        grind

def inOrder : Oldest where
  pick
    | s :: samples, _ => olderOf samples s
  mem
    | s :: samples, _ => (olderOf_spec samples s).1
  oldest
    | s :: samples, _ => (olderOf_spec samples s).2

/-- Ready after 30 s; a readiness flap of 10 s after 1000 s. -/
def flapping : PodHistory where
  name := "web-1"
  controller := some "rs-1"
  created := 0
  transitions := [30, 1000, 1010]
  unschedulable := fun _ => none
  ordered := by decide
  after_creation := by decide

/-- A reconcile that looks at the pod, with a fallback of two minutes. -/
def lookAt (t : ℤ) : StartupReconcile where
  now := t * second
  targetUID := "web"
  conditions := []
  look := .pods "rs-1" (t * second) [("pod-1", false)]
  order := inOrder
  prediction := {}
  startup := some { fallbackDelaySeconds := some 120 }
  generation := 1
  reconcileInterval := 60 * second
  stored := true

def budgets (pods : Pods) (events : List StartupEvent) :
    List (Option (ℤ × String)) :=
  (startupRun (fun _ => "") pods none events).map fun e =>
    e.report.bind StartupReport.budget

/-- The flap raises the budget from 120 s to 1005 s, and after a restart the
start of 30 s is recorded as one of 1010 s. -/
theorem flap_counts_as_start :
    budgets (fun _ => flapping) [.reconcile (lookAt 60),
        .reconcile (lookAt 1005)] =
      [some (120, "configured"), some (1005, "configured")] ∧
    (recorded none ((lookAt 2000).call fun _ => flapping)).samples =
      [⟨"pod-1", 0, 1010⟩] ∧
    ¬∀ (sha256 : List UInt8 → String) (pods : Pods)
      (status : Option PredictionStatus) (events : List StartupEvent),
      MeasuresStarts sha256 pods status events := by
  refine ⟨by decide +kernel, by decide +kernel, fun hall => ?_⟩
  have hmeasures := hall (fun _ => "") (fun _ => flapping) none
    [.reconcile (lookAt 2000)]
  obtain ⟨first, hfirst, hseconds⟩ := hmeasures.samples _ List.mem_cons_self _
    rfl ⟨"pod-1", 0, 1010⟩ (by decide +kernel)
  obtain rfl : 30 = first := Option.some.inj hfirst
  exact absurd hseconds (by decide)

end StartupHistoryWitness

end PredictiveAutoscaler.ForecastV2
