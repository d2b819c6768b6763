/-
The commits of a request: each of them is one of the five changes of the store,
of the request's own evidence key.  A request that is refused before it reaches
the journal commits nothing and ends with a service error.
-/
import PredictiveAutoscaler.Forecasting.Retention
import PredictiveAutoscaler.Forecasting.Service

namespace PredictiveAutoscaler.Forecasting

theorem Store.mem_openIssuances {store : Store} {ek : EvidenceKey}
    {model : Model} {atMost : ℕ} {iss : Issuance} :
    iss ∈ store.openIssuances ek model atMost ↔
      iss ∈ store.issuances ∧ iss.key.evidenceKey = ek ∧
        iss.key.windowEnd ≤ atMost ∧ store.outcome? iss.key model = none ∧
        model ∈ iss.models := by
  refine Rows.mem_openIssuances.trans ?_
  rw [Rows.isOpen_iff, and_assoc, and_assoc]
  exact Iff.rfl

/-- Every epoch's latest checkpoint is of a state that satisfies `J`. -/
def Store.Checked (J : EvidenceKey → Store → EpochState → Prop) (s : Store) :
    Prop :=
  ∀ ek cp, s.latestCheckpoint ek = some cp →
    cp.lastOutcomeSeq = cp.state.lastOutcomeSeq ∧ J ek s cp.state

/-- Properties of the store and of the epochs' states that a request of the
key `key` keeps: at each change of the store, and at each step of the state of
its own epoch. -/
structure RequestInvariant (config : ServiceConfig) (key : IssuanceKey)
    (untilMs : ℕ∞) (I : Store → Prop)
    (J : EvidenceKey → Store → EpochState → Prop) : Prop where
  commit : ∀ s s', I s → s.Commit key untilMs s' → I s'
  state : ∀ ek s s' state, I s → J ek s state → s.Commit key untilMs s' →
    J ek s' state
  initial : ∀ s, I s → J key.evidenceKey s
    (.initial config.recipes key.evidenceKey)
  recovered : ∀ (ctx : RecoverContext) s state state',
    ctx.ek = key.evidenceKey → ctx.policy.leadSeconds = ctx.ek.leadSeconds →
    I s → J ctx.ek s state → recover ctx s.toJournal state = .ok state' →
    J ctx.ek s state'
  built : ∀ (ic : IssueContext) call healthy s state bundle state',
    ic.ek = key.evidenceKey → I s → J ic.ek s state →
    build config ic call healthy state = .ok (bundle, state') →
    J ic.ek s state'

section Request

variable {config : ServiceConfig} {key : IssuanceKey} {untilMs : ℕ∞}
  {I : Store → Prop} {J : EvidenceKey → Store → EpochState → Prop}

/-- The invariant of the store with its checkpoints. -/
def Store.Holds (I : Store → Prop)
    (J : EvidenceKey → Store → EpochState → Prop) (s : Store) : Prop :=
  I s ∧ s.Checked J

/-- The invariant with a state of an epoch in hand. -/
def Store.HoldsWith (I : Store → Prop)
    (J : EvidenceKey → Store → EpochState → Prop) (ek : EvidenceKey)
    (state : EpochState) (s : Store) : Prop :=
  s.Holds I J ∧ J ek s state

theorem Store.latestCheckpoint_push (s : Store) (ek ek' : EvidenceKey)
    (next : Checkpoint) :
    (s.pushCheckpoint ek next).latestCheckpoint ek' =
      if ek' = ek then some next else s.latestCheckpoint ek' := by
  unfold Store.pushCheckpoint Store.latestCheckpoint
  by_cases h : ek' = ek
  · subst h
    simp [checkpointsKept]
  · simp [h]

@[simp] theorem Store.latestCheckpoint_compact (s : Store)
    (config : StoreConfig) (now : ℕ) (ek : EvidenceKey) :
    (s.compact config now).latestCheckpoint ek = s.latestCheckpoint ek := by
  unfold Store.compact
  simp only
  split <;> rfl

theorem keeps_onStore {α : Type} {f : Store → Except Raised (α × Store)}
    {P : Store → Prop}
    (hf : ∀ s a s', P s → f s = .ok (a, s') → P s') :
    (onStore f).Keeps fun svc => P svc.store := by
  refine Durable.keeps_commit fun svc a svc' hsvc h => ?_
  cases hstore : f svc.store with
  | error raised => rw [hstore] at h; cases h
  | ok pair =>
      rw [hstore] at h
      cases h
      exact hf _ pair.1 pair.2 hsvc hstore

section Keeps

variable (hinv : RequestInvariant config key untilMs I J)

include hinv

/-- A change that writes no checkpoint keeps the invariant. -/
theorem RequestInvariant.holds {s s' : Store} (hs : s.Holds I J)
    (hcommit : s.Commit key untilMs s')
    (hsame : ∀ ek, s'.latestCheckpoint ek = s.latestCheckpoint ek) :
    s'.Holds I J := by
  refine ⟨hinv.commit s s' hs.1 hcommit, fun ek cp hcp => ?_⟩
  rw [hsame ek] at hcp
  obtain ⟨hseq, hJ⟩ := hs.2 ek cp hcp
  exact ⟨hseq, hinv.state ek s s' _ hs.1 hJ hcommit⟩

theorem RequestInvariant.holdsWith {s s' : Store} {ek : EvidenceKey}
    {state : EpochState} (hs : s.HoldsWith I J ek state)
    (hcommit : s.Commit key untilMs s')
    (hsame : ∀ ek, s'.latestCheckpoint ek = s.latestCheckpoint ek) :
    s'.HoldsWith I J ek state :=
  ⟨hinv.holds hs.1 hcommit hsame,
    hinv.state ek s s' state hs.1.1 hs.2 hcommit⟩

theorem RequestInvariant.writeCheckpoint {ek : EvidenceKey}
    (hek : ek = key.evidenceKey) (state : EpochState) :
    (onStore (Store.writeCheckpoint ek state state.lastOutcomeSeq)).Keeps
      fun svc => svc.store.HoldsWith I J ek state := by
  subst hek
  refine keeps_onStore fun s _ s' hs h => ?_
  obtain ⟨-, rfl⟩ | ⟨hforward, rfl⟩ := Store.writeCheckpoint_cases h
  · exact hs
  have hcommit : s.Commit key untilMs (s.pushCheckpoint key.evidenceKey
      ⟨state.lastOutcomeSeq, state⟩) := .checkpointed _ hforward
  have hnext := hinv.state key.evidenceKey s _ state hs.1.1 hs.2 hcommit
  refine ⟨⟨hinv.commit s _ hs.1.1 hcommit, fun ek cp hcp => ?_⟩, hnext⟩
  rw [Store.latestCheckpoint_push] at hcp
  split at hcp
  · rename_i hek
    subst hek
    cases hcp
    exact ⟨rfl, hnext⟩
  · obtain ⟨hseq, hJ⟩ := hs.1.2 ek cp hcp
    exact ⟨hseq, hinv.state ek s _ _ hs.1.1 hJ hcommit⟩

theorem RequestInvariant.getOrIssue {ek : EvidenceKey} {state : EpochState}
    (bundle : Bundle) (models : List Model) (nowMs : ℕ) :
    (onStore (Store.getOrIssue key bundle models nowMs)).Keeps
      fun svc => svc.store.HoldsWith I J ek state := by
  refine keeps_onStore fun s made s' hs h => ?_
  obtain ⟨expected, hmodels, ⟨-, -, -, rfl⟩ |
    ⟨-, hnew, hhorizon, hiss, rfl⟩⟩ := Store.getOrIssue_cases h
  · exact hs
  · rw [hiss]
    exact hinv.holdsWith hs (.issued bundle nowMs
      (Store.expectedModels_ne_nil hmodels) hnew hhorizon) fun _ => rfl

theorem RequestInvariant.closeSettled {call : Call} {ic : IssueContext}
    (hek : ic.ek = key.evidenceKey)
    (huntil : ∀ id model, call.clock.outcomeMs id model ≤ untilMs)
    (received : Receipts) :
    (closeSettled call ic received).Keeps
      fun svc => svc.store.Holds I J := by
  refine Durable.keeps_each fun model _ => ?_
  refine Durable.keeps_read_bind fun svc hsvc => ?_
  refine Durable.wp_each (fun iss hiss svc' hsvc' => ?_) hsvc
  obtain ⟨-, hissEk, -⟩ := Store.mem_openIssuances.mp hiss
  refine Durable.keeps_bind (Durable.keeps_liftExcept _) ?_ svc' hsvc'
  intro payload
  cases payload with
  | none => exact Durable.keeps_pure _
  | some payload =>
      refine Durable.keeps_bind ?_ fun _ => Durable.keeps_pure _
      refine keeps_onStore (P := Store.Holds I J) fun s made s' hs h => ?_
      obtain ⟨-, -, -, rfl⟩ | ⟨iss', -, hkey, hiss', hmodel, hopen, hended, ho,
        rfl⟩ := Store.commitOutcome_cases h
      · exact hs
      · rw [ho]
        refine hinv.holds hs (.matured payload ?_ hiss' hmodel hopen hended
          (huntil _ _)) fun _ => rfl
        rw [hkey, hissEk, hek]

theorem RequestInvariant.issueNew {call : Call} {ic : IssueContext}
    (hek : ic.ek = key.evidenceKey) {state : EpochState} {svc : Service}
    (hsvc : svc.store.HoldsWith I J ic.ek state) :
    (issueNew config call ic key state).wp
      (fun svc => svc.store.Holds I J)
      (fun _ svc => svc.store.Holds I J)
      (fun made svc => svc.store.HoldsWith I J ic.ek made.2) svc := by
  have hweak : ∀ {α : Type} {x : Durable Service Raised α} {svc : Service}
      {st : EpochState}, x.wp (fun svc => svc.store.HoldsWith I J ic.ek st)
        (fun _ svc => svc.store.HoldsWith I J ic.ek st)
        (fun _ svc => svc.store.HoldsWith I J ic.ek st) svc →
      x.wp (fun svc => svc.store.Holds I J)
        (fun _ svc => svc.store.Holds I J)
        (fun _ svc => svc.store.HoldsWith I J ic.ek st) svc :=
    fun h => Durable.wp_mono h (fun _ h => h.1) (fun _ _ h => h.1)
      fun _ _ h => h
  simp only [Forecasting.issueNew, Durable.wp_bind, Durable.wp_liftExcept,
    Durable.wp_read]
  cases refuseLate ic.window ic.lead call.clock.nowMs with
  | error raised => exact hsvc.1
  | ok _ =>
      simp only
      cases hbuild : build config ic call svc.healthy state with
      | error raised => exact hsvc.1
      | ok pair =>
          obtain ⟨bundle, state'⟩ := pair
          have hbuilt := hinv.built ic call svc.healthy svc.store state bundle
            state' hek hsvc.1.1 hsvc.2 hbuild
          simp only
          refine Durable.wp_mono (hweak (hinv.writeCheckpoint hek state' svc
            ⟨hsvc.1, hbuilt⟩)) (fun _ h => h) (fun _ _ h => h) ?_
          intro _ svc' hsvc'
          simp only [Durable.wp_bind, Durable.wp_liftExcept]
          cases refuseLate ic.window ic.lead call.clock.issuedMs with
          | error raised => exact hsvc'.1
          | ok _ =>
              simp only
              refine Durable.wp_mono (hweak (hinv.getOrIssue _ _ _ svc' hsvc'))
                (fun _ h => h) (fun _ _ h => h) ?_
              intro made svc'' hsvc''
              simpa using hsvc''

/-- The state that a request starts from. -/
theorem RequestInvariant.recoverLatest {ic : IssueContext}
    (hek : ic.ek = key.evidenceKey)
    (hlead : ic.policy.leadSeconds = ic.ek.leadSeconds) {svc : Service}
    (hsvc : svc.store.Holds I J) :
    (recoverLatest config ic).wp
      (fun svc => svc.store.Holds I J)
      (fun _ svc => svc.store.Holds I J)
      (fun state svc => svc.store.HoldsWith I J ic.ek state) svc := by
  have hstart : J ic.ek svc.store
      (svc.store.startState config.recipes ic.ek) := by
    unfold Store.startState
    cases hcp : svc.store.latestCheckpoint ic.ek with
    | none =>
        have hinitial := hinv.initial svc.store hsvc.1
        rw [← hek] at hinitial
        exact hinitial
    | some cp => exact (hsvc.2 ic.ek cp hcp).2
  simp only [Forecasting.recoverLatest, readStore, Durable.wp_bind,
    Durable.wp_read, Durable.wp_liftExcept]
  cases hrecover : recover ic.toRecoverContext svc.store.toJournal
      (svc.store.startState config.recipes ic.ek) with
  | error raised => exact hsvc
  | ok state =>
      exact ⟨hsvc, hinv.recovered ic.toRecoverContext svc.store _ state hek
        hlead hsvc.1 hstart hrecover⟩

theorem RequestInvariant.findOrIssue {call : Call} {ic : IssueContext}
    (hek : ic.ek = key.evidenceKey) {state : EpochState} {svc : Service}
    (hsvc : svc.store.HoldsWith I J ic.ek state) :
    (findOrIssue config call ic key state).wp
      (fun svc => svc.store.Holds I J)
      (fun _ svc => svc.store.Holds I J)
      (fun made svc => svc.store.HoldsWith I J ic.ek made.2) svc := by
  simp only [Forecasting.findOrIssue, readStore, Durable.wp_bind,
    Durable.wp_read]
  cases svc.store.issuance? key with
  | none => exact hinv.issueNew hek hsvc
  | some iss => exact Durable.wp_pure.mpr hsvc

theorem RequestInvariant.settle {call : Call} {ic : IssueContext}
    (hek : ic.ek = key.evidenceKey)
    (hlead : ic.policy.leadSeconds = ic.ek.leadSeconds) {state : EpochState}
    {svc : Service} (hsvc : svc.store.HoldsWith I J ic.ek state) :
    (settle config call ic state).wp
      (fun svc => svc.store.Holds I J)
      (fun _ svc => svc.store.Holds I J)
      (fun _ svc => svc.store.Holds I J) svc := by
  simp only [Forecasting.settle, readStore, Durable.wp_bind, Durable.wp_read,
    Durable.wp_liftExcept]
  cases hrecover : recover ic.toRecoverContext svc.store.toJournal state with
  | error raised => exact hsvc.1
  | ok state' =>
      have hstate' := hinv.recovered ic.toRecoverContext svc.store state state'
        hek hlead hsvc.1.1 hsvc.2 hrecover
      simp only
      refine Durable.wp_mono (hinv.writeCheckpoint hek state' svc
        ⟨hsvc.1, hstate'⟩) (fun _ h => h.1) (fun _ _ h => h.1) ?_
      intro _ svc' hsvc'
      rw [Durable.wp_commit]
      simp only [and_self]
      split
      · exact hinv.holds hsvc'.1 (.compacted config.store _)
          fun ek => Store.latestCheckpoint_compact _ _ _ ek
      · exact hsvc'.1

end Keeps

/-- The exceptions that binding a request may raise are answered as service
errors. -/
def BindsOrRefuses {α : Type} (x : Except Raised α) : Prop :=
  ∀ raised, x = .error raised →
    ∃ status reason message,
      bindError raised = .serviceError status reason message

theorem BindsOrRefuses.bind {α β : Type} {x : Except Raised α}
    {f : α → Except Raised β} (hx : BindsOrRefuses x)
    (hf : ∀ a, BindsOrRefuses (f a)) : BindsOrRefuses (x >>= f) := by
  intro raised h
  cases x with
  | error raised' =>
      cases h
      exact hx raised rfl
  | ok a => exact hf a raised h

theorem bindsOrRefuses_ok {α : Type} (a : α) :
    BindsOrRefuses (pure a : Except Raised α) := by
  intro raised h
  cases h

theorem bindsOrRefuses_refuseIf (c : Prop) [Decidable c] (message : String) :
    BindsOrRefuses (refuseIf c message) := by
  intro raised h
  unfold refuseIf at h
  split at h
  · cases h
    exact ⟨422, .identityMismatch, message, rfl⟩
  · cases h

theorem bindsOrRefuses_boundedField (must : String) (lo hi absent : ℕ)
    (v : Option ℤ) : BindsOrRefuses (boundedField must lo hi absent v) := by
  intro raised h
  cases v with
  | none => cases h
  | some v =>
      simp only [boundedField] at h
      split at h
      · cases h
      · cases h
        exact ⟨422, .identityMismatch, _, rfl⟩

theorem bindsOrRefuses_resolveEngine (engine : Option String) :
    BindsOrRefuses (resolveEngine engine) := by
  intro raised h
  unfold resolveEngine at h
  split at h <;> cases h
  exact ⟨422, .identityMismatch, _, rfl⟩

theorem bindsOrRefuses_resolveSeasonality (seasonality : Option String) :
    BindsOrRefuses (resolveSeasonality seasonality) := by
  intro raised h
  unfold resolveSeasonality at h
  split at h <;> cases h
  exact ⟨422, .identityMismatch, _, rfl⟩

theorem bindsOrRefuses_resolveSignal (r : V2Request) (sig : ResolvedSignal) :
    BindsOrRefuses (r.resolveSignal sig) := by
  intro raised h
  unfold V2Request.resolveSignal at h
  split_ifs at h <;> cases h <;>
    exact ⟨422, .identityMismatch, _, rfl⟩

theorem bindsOrRefuses_get (lookup : Lookup) :
    BindsOrRefuses lookup.get := by
  intro raised h
  cases lookup with
  | failed message =>
      cases h
      exact ⟨503, .identityMismatch, _, rfl⟩
  | refused message =>
      cases h
      exact ⟨422, .identityMismatch, _, rfl⟩
  | resolved live => cases h

theorem bindsOrRefuses_calibration (c : CalibrationSpec) :
    BindsOrRefuses c.resolve := by
  iterate 6 refine .bind (bindsOrRefuses_boundedField _ _ _ _ _) fun _ => ?_
  exact bindsOrRefuses_ok _

theorem bindsOrRefuses_trust (t : TrustSpec) : BindsOrRefuses t.resolve := by
  iterate 15 refine .bind (bindsOrRefuses_boundedField _ _ _ _ _) fun _ => ?_
  exact bindsOrRefuses_ok _

theorem bindsOrRefuses_extra (e : PredictiveExtraSpec) :
    BindsOrRefuses e.resolve := by
  iterate 2 refine .bind (bindsOrRefuses_boundedField _ _ _ _ _) fun _ => ?_
  exact bindsOrRefuses_ok _

theorem bindsOrRefuses_checkFeasible (s : ForecastSettings) :
    BindsOrRefuses s.checkFeasible := by
  iterate 7 refine .bind (bindsOrRefuses_refuseIf _ _) fun _ => ?_
  exact bindsOrRefuses_refuseIf _ _

theorem bindsOrRefuses_interval (engine : ForecastEngine) (v : Option ℤ) :
    BindsOrRefuses (resolveInterval engine v) := by
  iterate 2 refine .bind (bindsOrRefuses_refuseIf _ _) fun _ => ?_
  exact bindsOrRefuses_ok _

theorem bindsOrRefuses_horizon (interval : ℕ) (v : Option ℤ) :
    BindsOrRefuses (resolveHorizon interval v) := by
  iterate 2 refine .bind (bindsOrRefuses_refuseIf _ _) fun _ => ?_
  exact bindsOrRefuses_ok _

theorem bindsOrRefuses_resolveSettings (p : PredictionSpec) :
    BindsOrRefuses (resolveSettings p) := by
  refine .bind (bindsOrRefuses_refuseIf _ _) fun _ => ?_
  refine .bind (bindsOrRefuses_resolveEngine _) fun engine => ?_
  refine .bind (bindsOrRefuses_resolveSeasonality _) fun _ => ?_
  refine .bind (bindsOrRefuses_interval engine _) fun interval => ?_
  refine .bind (bindsOrRefuses_horizon interval _) fun _ => ?_
  iterate 3 refine .bind (bindsOrRefuses_boundedField _ _ _ _ _) fun _ => ?_
  refine .bind (.bind (bindsOrRefuses_boundedField _ _ _ _ _)
    fun _ => bindsOrRefuses_ok _) fun _ => ?_
  refine .bind (bindsOrRefuses_calibration _) fun _ => ?_
  refine .bind (bindsOrRefuses_trust _) fun _ => ?_
  refine .bind (bindsOrRefuses_extra _) fun _ => ?_
  exact .bind (bindsOrRefuses_checkFeasible _) fun _ => bindsOrRefuses_ok _

theorem bindsOrRefuses_bindRequest (r : V2Request) (lookup : Lookup)
    (nowMs : ℕ) : BindsOrRefuses (bindRequest r lookup nowMs) := by
  refine .bind (.bind (bindsOrRefuses_refuseIf _ _) fun _ =>
    bindsOrRefuses_refuseIf _ _) fun _ => ?_
  refine .bind (bindsOrRefuses_get lookup) fun live => ?_
  refine .bind (bindsOrRefuses_resolveSignal r live.signal) fun sig => ?_
  refine .bind (bindsOrRefuses_resolveSettings live.prediction)
    fun settings => ?_
  refine .bind (bindsOrRefuses_refuseIf _ _) fun _ => ?_
  refine .bind (bindsOrRefuses_refuseIf _ _) fun _ => ?_
  exact .bind (bindsOrRefuses_refuseIf _ _) fun _ => bindsOrRefuses_ok _

/-- A request that gets as far as the journal: bound to the live autoscaler,
registered, with a lead and a fresh history. -/
structure Call.Reaches (call : Call) (bound : BoundRequest) (lead : LeadSelection)
    (grid : RpsGrid) : Prop where
  bound_eq : bindRequest call.request call.lookup call.clock.bindMs =
    .ok bound
  registered : call.registered = true
  lead_eq : bound.lead = .ok lead
  history_eq : call.history = .received grid
  fresh : grid.isFresh call.clock.freshMs bound.settings.settlementSeconds
    bound.settings.sampleIntervalSeconds = true

variable (config : ServiceConfig) (call : Call)

/-- A request that is refused before the lock is refused with a service
error. -/
theorem admit_cases (bound : BoundRequest) (healthy : Bool) :
    (∃ status reason message, admitted call bound healthy =
      .error (.serviceError status reason message)) ∨
    ∃ lead grid, admitted call bound healthy = .ok (lead, grid) ∧
      call.registered = true ∧ healthy = true ∧ bound.lead = .ok lead ∧
      call.history = .received grid ∧
      grid.isFresh call.clock.freshMs bound.settings.settlementSeconds
        bound.settings.sampleIntervalSeconds = true := by
  unfold admitted
  split
  · exact .inl ⟨_, _, _, rfl⟩
  rename_i hregistered
  split
  · exact .inl ⟨_, _, _, rfl⟩
  rename_i hhealthy
  split
  · exact .inl ⟨_, _, _, rfl⟩
  · exact .inl ⟨_, _, _, rfl⟩
  · exact .inl ⟨_, _, _, rfl⟩
  · rename_i lead grid hlead hhistory
    split
    · exact .inl ⟨_, _, _, rfl⟩
    · rename_i hfresh
      refine .inr ⟨lead, grid, rfl, ?_, ?_, hlead, hhistory, ?_⟩
      · simpa using hregistered
      · simpa using hhealthy
      · simpa using hfresh

/-- A request ends with a service error before it reaches the journal, or it
is the issue under the lock. -/
theorem predict_cases (svc : Service) :
    (∃ status reason message, predict config call svc =
      ⟨[], .error (.serviceError status reason message)⟩) ∨
    ∃ bound lead grid, call.Reaches bound lead grid ∧ svc.healthy = true ∧
      predict config call svc =
        Durable.mapError storeError (issue config call bound lead grid) svc := by
  cases hbound : bindRequest call.request call.lookup call.clock.bindMs with
  | error raised =>
      obtain ⟨status, reason, message, hraised⟩ :=
        bindsOrRefuses_bindRequest _ _ _ raised hbound
      refine .inl ⟨status, reason, message, ?_⟩
      have hbind : (Durable.mapError bindError (.liftExcept (.error raised)) :
          Durable Service Raised BoundRequest) svc =
          ⟨[], .error (bindError raised)⟩ := rfl
      rw [predict, hbound, Durable.bind_of_error hbind, hraised]
  | ok bound =>
      have hbind : (Durable.mapError bindError (.liftExcept (.ok bound)) :
          Durable Service Raised BoundRequest) svc = ⟨[], .ok bound⟩ := rfl
      have hread : (Durable.read Service.healthy :
          Durable Service Raised Bool) svc = ⟨[], .ok svc.healthy⟩ := rfl
      obtain ⟨status, reason, message, hadmit⟩ | ⟨lead, grid, hadmit,
        hregistered, hhealthy, hlead, hhistory, hfresh⟩ :=
        admit_cases call bound svc.healthy
      · refine .inl ⟨status, reason, message, ?_⟩
        rw [predict, hbound, Durable.bind_of_ok hbind,
          Durable.bind_of_ok hread, hadmit]
        exact Durable.bind_of_error rfl
      · refine .inr ⟨bound, lead, grid, ⟨hbound, hregistered, hlead, hhistory,
          hfresh⟩, hhealthy, ?_⟩
        rw [predict, hbound, Durable.bind_of_ok hbind,
          Durable.bind_of_ok hread, hadmit]
        have hadmitted : (Durable.liftExcept (.ok (lead, grid)) :
            Durable Service Raised (LeadSelection × RpsGrid)) svc =
            ⟨[], .ok (lead, grid)⟩ := rfl
        exact Durable.bind_of_ok hadmitted

end Request

section Whole

variable {config : ServiceConfig} {call : Call} {bound : BoundRequest}
  {lead : LeadSelection} {grid : RpsGrid}

theorem LeadSelection.Fits.lead_pos {settings : ForecastSettings}
    (h : lead.Fits settings) (haccepted : settings.Accepted) :
    0 < lead.leadSeconds :=
  lt_of_lt_of_le haccepted.interval_pos h.interval_le

/-- The issuance key of a bound request. -/
def BoundRequest.key (bound : BoundRequest) (lead : LeadSelection)
    (hlead : 0 < lead.leadSeconds) : IssuanceKey where
  evidenceKey := bound.evidenceKey lead
  decisionOrigin := bound.decisionOrigin
  windowEnd := bound.decisionOrigin + lead.leadSeconds
  settings := bound.settings
  origin_lt := Nat.lt_add_of_pos_right hlead

theorem Call.Reaches.binds (h : call.Reaches bound lead grid) :
    bound.Binds call.request call.clock.bindMs :=
  bindRequest_binds h.bound_eq

theorem Call.Reaches.fits (h : call.Reaches bound lead grid) :
    lead.Fits bound.settings :=
  h.binds.lead_fits lead h.lead_eq

theorem Call.Reaches.lead_pos (h : call.Reaches bound lead grid) :
    0 < lead.leadSeconds :=
  h.fits.lead_pos h.binds.accepted

/-- What a request works on once it reaches the journal. -/
structure Call.Issues (call : Call) (key : IssuanceKey) (ic : IssueContext) :
    Prop where
  reaches : call.Reaches ic.bound ic.lead ic.grid
  key_eq : key = ic.bound.key ic.lead reaches.lead_pos
  settings_eq : ic.settings = ic.bound.settings
  ek_eq : ic.ek = key.evidenceKey
  policy_eq : CalibrationPolicy.fromSettings ic.bound.settings
    ic.lead.leadSeconds = .ok ic.policy
  window_eq : ic.window = ⟨ic.bound.decisionOrigin,
    ic.bound.settings.sampleIntervalSeconds, ic.lead.leadSeconds⟩

/-- The policy of a request is of its epoch's lead. -/
theorem Call.Issues.lead_eq {key : IssuanceKey} {ic : IssueContext}
    (h : call.Issues key ic) : ic.policy.leadSeconds = ic.ek.leadSeconds := by
  obtain ⟨policy, hpolicy, hlead, -⟩ :=
    h.reaches.binds.accepted.fromSettings h.reaches.lead_pos
  have hsame := h.policy_eq
  rw [hpolicy] at hsame
  cases hsame
  rw [hlead, h.ek_eq, h.key_eq]
  rfl

/-- The request under the lock, once its window and its policy are made. -/
def issueWith (config : ServiceConfig) (call : Call) (ic : IssueContext)
    (key : IssuanceKey) : Durable Service Raised V2Response := do
  onStore fun store => .ok ((), store.recordObservations ic.ek ic.grid.points)
  let received ← readStore fun store =>
    store.receipts ic.ek ic.grid.gridStart ic.grid.gridEnd
  closeSettled call ic received
  let state ← recoverLatest config ic
  let (iss, state) ← findOrIssue config call ic key state
  settle config call ic state
  .liftExcept (answer ic.bound ic.lead iss)

theorem liftExcept_ok_bind {α β : Type} (a : α)
    (f : α → Durable Service Raised β) :
    (Durable.liftExcept (.ok a) >>= f) = f a := by
  funext svc
  exact Durable.bind_of_ok rfl

/-- A request that reaches the journal has a window, a policy and a key. -/
theorem Call.Reaches.issue_eq (h : call.Reaches bound lead grid)
    (config : ServiceConfig) :
    ∃ key ic, call.Issues key ic ∧ ic.bound = bound ∧ ic.lead = lead ∧
      ic.grid = grid ∧
      issue config call bound lead grid = issueWith config call ic key := by
  obtain ⟨policy, hpolicy, -, -⟩ :=
    h.binds.accepted.fromSettings h.lead_pos
  let window : ForecastWindow := ⟨bound.decisionOrigin,
    bound.settings.sampleIntervalSeconds, lead.leadSeconds⟩
  have hwindow : makeWindow bound.decisionOrigin bound.settings lead =
      .ok window := h.fits.makeWindow h.binds.on_grid
  have hkey : issuanceKey (bound.evidenceKey lead) bound.decisionOrigin
      window.windowEnd bound.settings = .ok (bound.key lead h.lead_pos) :=
    dif_pos (bound.key lead h.lead_pos).origin_lt
  refine ⟨bound.key lead h.lead_pos, ⟨⟨bound.settings, bound.evidenceKey lead,
    policy⟩, bound, lead, window, grid⟩, ⟨h, rfl, rfl, rfl, hpolicy, rfl⟩, rfl,
    rfl, rfl, ?_⟩
  unfold issue issueWith
  simp only [hwindow, hpolicy, hkey, liftExcept_ok_bind]

/-- A request keeps an invariant of its key. -/
theorem RequestInvariant.issueWith {key : IssuanceKey} {untilMs : ℕ∞}
    {I : Store → Prop} {J : EvidenceKey → Store → EpochState → Prop}
    (hinv : RequestInvariant config key untilMs I J) {ic : IssueContext}
    (hissues : call.Issues key ic)
    (huntil : ∀ id model, call.clock.outcomeMs id model ≤ untilMs) :
    (issueWith config call ic key).Keeps fun svc => svc.store.Holds I J := by
  have hek := hissues.ek_eq
  refine Durable.keeps_bind ?_ fun _ => ?_
  · refine keeps_onStore (P := Store.Holds I J) fun s _ s' hs h => ?_
    cases h
    rw [hek]
    exact hinv.holds hs (.observed _) fun _ => rfl
  refine Durable.keeps_read_bind fun svc hsvc => ?_
  rw [Durable.wp_bind]
  refine Durable.wp_mono (hinv.closeSettled hek huntil _ svc hsvc)
    (fun _ h => h) (fun _ _ h => h) fun _ svc hsvc => ?_
  rw [Durable.wp_bind]
  refine Durable.wp_mono (hinv.recoverLatest hek hissues.lead_eq hsvc)
    (fun _ h => h) (fun _ _ h => h) fun state svc hsvc => ?_
  rw [Durable.wp_bind]
  refine Durable.wp_mono (hinv.findOrIssue hek hsvc) (fun _ h => h)
    (fun _ _ h => h) fun made svc hsvc => ?_
  obtain ⟨iss, state⟩ := made
  simp only [Durable.wp_bind]
  refine Durable.wp_mono (hinv.settle hek hissues.lead_eq hsvc)
    (fun _ h => h) (fun _ _ h => h) fun _ svc hsvc => ?_
  exact Durable.keeps_liftExcept _ svc hsvc

theorem predict_keeps {untilMs : ℕ∞} {I : Store → Prop}
    {J : EvidenceKey → Store → EpochState → Prop}
    (hinv : ∀ key ic, call.Issues key ic →
      RequestInvariant config key untilMs I J)
    (huntil : ∀ id model, call.clock.outcomeMs id model ≤ untilMs) :
    (predict config call).Keeps fun svc => svc.store.Holds I J := by
  intro svc hsvc
  obtain ⟨status, reason, message, hpredict⟩ |
    ⟨bound, lead, grid, hreaches, -, hpredict⟩ := predict_cases config call svc
  · unfold Durable.wp
    rw [hpredict]
    exact ⟨fun _ h => (nomatch h), hsvc⟩
  · obtain ⟨key, ic, hissues, -, -, -, hissue⟩ := hreaches.issue_eq config
    rw [hissue] at hpredict
    have hkeeps := Durable.keeps_mapError (f := storeError)
      ((hinv key ic hissues).issueWith hissues huntil) svc hsvc
    unfold Durable.wp at hkeeps ⊢
    rw [hpredict]
    exact hkeeps

end Whole

/-- Between two commits the store stays or makes one change of the key. -/
def StoreStep (key : IssuanceKey) (untilMs : ℕ∞) (svc svc' : Service) : Prop :=
  svc'.store = svc.store ∨ svc.store.Commit key untilMs svc'.store

section Steps

variable {config : ServiceConfig} {call : Call} {key : IssuanceKey}
  {untilMs : ℕ∞}

theorem steps_onStore {α : Type} {f : Store → Except Raised (α × Store)}
    (hf : ∀ s a s', f s = .ok (a, s') → s' = s ∨ s.Commit key untilMs s') :
    (onStore f).Steps (StoreStep key untilMs) := by
  refine Durable.steps_commit fun svc a svc' h => ?_
  cases hstore : f svc.store with
  | error raised => rw [hstore] at h; cases h
  | ok pair =>
      rw [hstore] at h
      cases h
      exact hf _ pair.1 pair.2 hstore

theorem steps_writeCheckpoint {ek : EvidenceKey} (hek : ek = key.evidenceKey)
    (state : EpochState) :
    (onStore (Store.writeCheckpoint ek state state.lastOutcomeSeq)).Steps
      (StoreStep key untilMs) := by
  subst hek
  refine steps_onStore fun s _ s' h => ?_
  obtain ⟨-, rfl⟩ | ⟨hforward, rfl⟩ := Store.writeCheckpoint_cases h
  · exact .inl rfl
  · exact .inr (.checkpointed _ hforward)

theorem steps_getOrIssue (bundle : Bundle) (models : List Model)
    (nowMs : ℕ) :
    (onStore (Store.getOrIssue key bundle models nowMs)).Steps
      (StoreStep key untilMs) := by
  refine steps_onStore fun s made s' h => ?_
  obtain ⟨expected, hmodels, ⟨-, -, -, rfl⟩ |
    ⟨-, hnew, hhorizon, hiss, rfl⟩⟩ := Store.getOrIssue_cases h
  · exact .inl rfl
  · rw [hiss]
    exact .inr (.issued bundle nowMs (Store.expectedModels_ne_nil hmodels)
      hnew hhorizon)

theorem steps_closeSettled {ic : IssueContext}
    (hek : ic.ek = key.evidenceKey)
    (huntil : ∀ id model, call.clock.outcomeMs id model ≤ untilMs)
    (received : Receipts) :
    (closeSettled call ic received).Steps (StoreStep key untilMs) := by
  refine Durable.steps_each fun model _ => ?_
  refine Durable.steps_read_bind fun svc => ?_
  refine Durable.steps_each fun iss hiss => ?_
  obtain ⟨-, hissEk, -⟩ := Store.mem_openIssuances.mp hiss
  refine Durable.steps_bind (Durable.steps_liftExcept _) fun payload => ?_
  cases payload with
  | none => exact Durable.steps_pure _
  | some payload =>
      refine Durable.steps_bind ?_ fun _ => Durable.steps_pure _
      refine steps_onStore fun s made s' h => ?_
      obtain ⟨-, -, -, rfl⟩ | ⟨iss', -, hkey, hiss', hmodel, hopen, hended, ho,
        rfl⟩ := Store.commitOutcome_cases h
      · exact .inl rfl
      · rw [ho]
        refine .inr (.matured payload ?_ hiss' hmodel hopen hended
          (huntil _ _))
        rw [hkey, hissEk, hek]

theorem steps_findOrIssue {ic : IssueContext}
    (hek : ic.ek = key.evidenceKey) (state : EpochState) :
    (findOrIssue config call ic key state).Steps (StoreStep key untilMs) := by
  refine Durable.steps_read_bind fun svc => ?_
  cases hfound : svc.store.issuance? key with
  | some iss =>
      simp only [hfound]
      exact Durable.steps_pure _
  | none =>
      simp only [hfound]
      refine Durable.steps_bind (Durable.steps_liftExcept _) fun _ => ?_
      refine Durable.steps_read_bind fun svc => ?_
      refine Durable.steps_bind (Durable.steps_liftExcept _) fun built => ?_
      refine Durable.steps_bind (steps_writeCheckpoint hek _) fun _ => ?_
      refine Durable.steps_bind (Durable.steps_liftExcept _) fun _ => ?_
      exact Durable.steps_bind (steps_getOrIssue _ _ _)
        fun made => Durable.steps_pure _

theorem steps_settle {ic : IssueContext} (hek : ic.ek = key.evidenceKey)
    (state : EpochState) :
    (settle config call ic state).Steps (StoreStep key untilMs) := by
  refine Durable.steps_read_bind fun svc => ?_
  refine Durable.steps_bind (Durable.steps_liftExcept _) fun state => ?_
  refine Durable.steps_bind (steps_writeCheckpoint hek state) fun _ => ?_
  refine Durable.steps_commit fun svc _ svc' h => ?_
  cases h
  split
  · exact .inr (.compacted config.store _)
  · exact .inl rfl

/-- Every commit of a request that reaches the journal is one change of the
request's key. -/
theorem steps_issueWith {ic : IssueContext} (hek : ic.ek = key.evidenceKey)
    (huntil : ∀ id model, call.clock.outcomeMs id model ≤ untilMs) :
    (issueWith config call ic key).Steps (StoreStep key untilMs) := by
  refine Durable.steps_bind ?_ fun _ => ?_
  · refine steps_onStore fun s _ s' h => ?_
    cases h
    rw [hek]
    exact .inr (.observed _)
  refine Durable.steps_read_bind fun svc => ?_
  refine Durable.steps_bind (steps_closeSettled hek huntil _) fun _ => ?_
  refine Durable.steps_bind ?_ fun state => ?_
  · exact Durable.steps_read_bind fun _ => Durable.steps_liftExcept _
  refine Durable.steps_bind (steps_findOrIssue hek state) fun made => ?_
  refine Durable.steps_bind (steps_settle hek made.2) fun _ => ?_
  exact Durable.steps_liftExcept _

/-- The commits of a request: one change of its key after the other. -/
theorem predict_steps (config : ServiceConfig) (call : Call)
    (huntil : ∀ id model, call.clock.outcomeMs id model ≤ untilMs)
    (svc : Service) :
    (svc :: (predict config call svc).commits).IsChain fun a b =>
      ∃ key ic, call.Issues key ic ∧ StoreStep key untilMs a b := by
  obtain ⟨status, reason, message, hpredict⟩ |
    ⟨bound, lead, grid, hreaches, -, hpredict⟩ := predict_cases config call svc
  · rw [hpredict]
    exact .singleton svc
  · obtain ⟨key, ic, hissues, -, -, -, hissue⟩ := hreaches.issue_eq config
    rw [hpredict, hissue]
    have hsteps : (issueWith config call ic key).Steps
        (StoreStep key untilMs) := steps_issueWith hissues.ek_eq huntil
    exact (hsteps svc).imp fun a b hab => ⟨key, ic, hissues, hab⟩

end Steps

/-- The stores that an event commits. -/
def Event.commits (config : ServiceConfig) (svc : Service) :
    Event → List Service
  | .request call => (predict config call svc).commits
  | .journalFails call commits =>
      (predict config call svc).commits.take commits
  | .crash call commits => (predict config call svc).commits.take commits
  | .restart => []

/-- Every journal of a run, in order: the first one and what was committed. -/
def Service.journals (config : ServiceConfig) :
    Service → List Event → List Store
  | svc, [] => [svc.store]
  | svc, event :: rest =>
      svc.store :: (event.commits config svc).map Service.store ++
        Service.journals config (svc.step config event) rest

/-- One change of the store, or none. -/
def Store.Moves (s s' : Store) : Prop :=
  s' = s ∨ ∃ key, s.Commit key ⊤ s'

section Runs

variable {config : ServiceConfig}

theorem Event.commits_chain (svc : Service) (event : Event) :
    (svc.store :: (event.commits config svc).map Service.store).IsChain
      Store.Moves := by
  have hcall : ∀ (call : Call) (n : ℕ), (svc.store ::
      ((predict config call svc).commits.take n).map Service.store).IsChain
        Store.Moves := by
    intro call n
    have hsteps : (svc :: (predict config call svc).commits).IsChain
        fun a b => ∃ key ic, call.Issues key ic ∧ StoreStep key ⊤ a b :=
      predict_steps config call (fun _ _ => le_top) svc
    have hcut := hsteps.take (n + 1)
    rw [List.take_succ_cons] at hcut
    refine (List.isChain_map_of_isChain Service.store ?_ hcut : _)
    rintro a b ⟨key, -, -, hsame | hcommit⟩
    · exact .inl hsame
    · exact .inr ⟨key, hcommit⟩
  cases event with
  | request call =>
      have hall := hcall call (predict config call svc).commits.length
      rwa [List.take_length] at hall
  | journalFails call commits => exact hcall call commits
  | crash call commits => exact hcall call commits
  | restart => exact .singleton _

theorem Service.step_store (svc : Service) (event : Event) :
    (svc.step config event).store =
      ((event.commits config svc).map Service.store).getLastD svc.store := by
  have hmap : ∀ (xs : List Service), (xs.getLastD svc).store =
      (xs.map Service.store).getLastD svc.store := by
    intro xs
    rw [List.getLastD_eq_getLast?, List.getLastD_eq_getLast?,
      List.getLast?_map]
    cases xs.getLast? <;> rfl
  cases event with
  | request call => exact hmap _
  | journalFails call commits => exact hmap _
  | crash call commits => exact hmap _
  | restart => rfl

/-- Along a run the store changes by one change after the other. -/
theorem Service.journals_chain (svc : Service) (events : List Event) :
    ∃ rest, svc.journals config events = svc.store :: rest ∧
      (svc.store :: rest).IsChain Store.Moves ∧
      (svc.run config events).store = rest.getLastD svc.store := by
  induction events generalizing svc with
  | nil => exact ⟨[], rfl, .singleton _, rfl⟩
  | cons event events ih =>
      obtain ⟨rest, hrest, hchain, hlast⟩ := ih (svc.step config event)
      refine ⟨(event.commits config svc).map Service.store ++
        (svc.step config event).store :: rest, ?_, ?_, ?_⟩
      · rw [Service.journals, hrest]
        rfl
      · refine Durable.isChain_append_of_getLastD (event.commits_chain svc) ?_
        rw [← svc.step_store event]
        exact .cons_cons (.inl rfl) hchain
      · rw [Durable.getLastD_append, List.getLastD_cons]
        exact hlast

/-- An event keeps what its request keeps. -/
theorem Service.step_keeps {P : Store → Prop} {svc : Service} {event : Event}
    (hkeeps : ∀ call, event.call? = some call →
      (predict config call).Keeps fun svc => P svc.store)
    (hsvc : P svc.store) : P (svc.step config event).store := by
  cases event with
  | request call =>
      have hend := (hkeeps call rfl svc hsvc).2
      change P ((predict config call svc).store svc).store
      cases hresult : (predict config call svc).result with
      | ok r => rw [hresult] at hend; exact hend
      | error raised => rw [hresult] at hend; exact hend
  | journalFails call commits =>
      exact Durable.cutAt_of_wp (hkeeps call rfl svc hsvc) hsvc commits
  | crash call commits =>
      exact Durable.cutAt_of_wp (hkeeps call rfl svc hsvc) hsvc commits
  | restart => exact hsvc

/-- An event keeps an invariant of its request. -/
theorem Service.step_holds {untilMs : ℕ∞} {I : Store → Prop}
    {J : EvidenceKey → Store → EpochState → Prop} {svc : Service}
    {event : Event}
    (hinv : ∀ call, event.call? = some call → ∀ key ic, call.Issues key ic →
      RequestInvariant config key untilMs I J)
    (huntil : ∀ call, event.call? = some call → ∀ id model,
      call.clock.outcomeMs id model ≤ untilMs)
    (hsvc : svc.store.Holds I J) : (svc.step config event).store.Holds I J :=
  Service.step_keeps (P := Store.Holds I J)
    (fun call hcall => predict_keeps (hinv call hcall) (huntil call hcall)) hsvc

theorem Service.run_holds {I : Store → Prop}
    {J : EvidenceKey → Store → EpochState → Prop}
    (hinv : ∀ key, RequestInvariant config key ⊤ I J) {svc : Service}
    (hsvc : svc.store.Holds I J) (events : List Event) :
    (svc.run config events).store.Holds I J := by
  induction events generalizing svc with
  | nil => exact hsvc
  | cons event events ih =>
      exact ih (Service.step_holds (fun _ _ key _ _ => hinv key)
        (fun _ _ _ _ => le_top) hsvc)

end Runs

end PredictiveAutoscaler.Forecasting
