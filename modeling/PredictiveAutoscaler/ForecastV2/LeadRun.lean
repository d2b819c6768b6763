/-
The lead in an autoscaler's status over runs of reconciles, with status
updates that succeed, fail or lose their reply, stale reads and restarts.
Within one basis (the settings, the startup configuration and the decision
interval) the published lead never shrinks, and the forecasting service
accepts every lead that is published.
-/
import PredictiveAutoscaler.Run
import PredictiveAutoscaler.ForecastV2.Lead
import PredictiveAutoscaler.ForecastV2.SettingsAgreement

namespace PredictiveAutoscaler.ForecastV2

open Forecasting (PredictionSpec ForecastSettings LeadStatus)

/-- How a status update ends. -/
inductive UpdateFate
  | stored
  | refused
  /-- It was stored, and the reply was lost. -/
  | lost
deriving DecidableEq, Repr

def UpdateFate.stores : UpdateFate → Bool
  | .stored => true
  | .refused => false
  | .lost => true

/-- One reconcile with the statistical engine, from the read of the autoscaler
on. -/
structure LeadReconcile where
  spec : PredictionSpec
  admitted : Admitted spec
  startup : Option StartupBehavior
  generation : ℤ
  reconcileInterval : ℤ
  obs : StartupObservation
  /-- What the client's cache returned, when it was behind. -/
  stale : Option (Option PredictionStatus)
  publish : UpdateFate
  /-- The status update that ends the reconcile, if the status changed. -/
  finish : Option UpdateFate

/-- The autoscaler that `prepareV2` is given. -/
def LeadReconcile.object (r : LeadReconcile)
    (status : Option PredictionStatus) : PreparedObject :=
  ⟨.ofSpec r.spec, r.startup, r.generation, status⟩

/-- An update that follows a stale read is a conflict. -/
def LeadReconcile.fate (r : LeadReconcile) (fate : UpdateFate) : UpdateFate :=
  if r.stale.isSome then .refused else fate

/-- The status updates of a reconcile: `prepareV2` publishes only a change, and
the reconcile ends when that fails. -/
def LeadReconcile.updates (r : LeadReconcile) (changed : Bool) :
    List UpdateFate :=
  let finish := r.finish.toList.map r.fate
  if changed then
    match r.fate r.publish with
    | .stored => .stored :: finish
    | fate => [fate]
  else finish

inductive LeadEvent
  /-- The operator restarts and loses its memory. -/
  | restart
  /-- A reconcile that ends before `prepareV2`: it leaves `status.prediction`
  as it is. -/
  | ended
  | reconcile (r : LeadReconcile)

section Runs

variable (sha256 : List UInt8 → String)

/-- What a reconcile publishes, given the status it read. -/
def LeadReconcile.want (r : LeadReconcile)
    (read : Option PredictionStatus) : PredictionStatus :=
  prepareV2 sha256 (r.object read) r.obs r.reconcileInterval

/-- The `status.prediction` after an event, and every one that was stored. The
update that ends a reconcile repeats what `prepareV2` published. -/
def leadStep (stored : Option PredictionStatus) :
    LeadEvent → Option PredictionStatus × List PredictionStatus
  | .restart => (stored, [])
  | .ended => (stored, [])
  | .reconcile r =>
      let read := r.stale.getD stored
      let want := r.want sha256 read
      let written := ((r.updates (decide (read ≠ some want))).filter
        UpdateFate.stores).map fun _ => want
      (written.getLast?.or stored, written)

abbrev LeadEntry :=
  Entry (Option PredictionStatus) LeadEvent (List PredictionStatus)

abbrev leadRun (stored : Option PredictionStatus) (events : List LeadEvent) :
    List LeadEntry :=
  runTrace (leadStep sha256) stored events

end Runs

/-- The leads that a run published, in order. -/
def publishedLeads (trace : List LeadEntry) : List PredictionLead :=
  trace.flatMap fun e => e.report.filterMap PredictionStatus.lead

/-- The basis of a lead; `none` for settings that are refused. -/
def LeadReconcile.basis (r : LeadReconcile) :
    Option (V2Settings × StartupConfig × ℤ) :=
  (resolveV2Settings (.ofSpec r.spec)).toOption.map fun s =>
    (s, startupConfigOf r.startup,
      v2LeadDecisionInterval r.reconcileInterval s.sampleIntervalSeconds)

/-- What an event stores is what `prepareV2` made of the live status, and it is
the status afterwards. -/
theorem leadStep_written {sha256 : List UInt8 → String}
    {stored : Option PredictionStatus} {event : LeadEvent}
    {st : PredictionStatus} (h : st ∈ (leadStep sha256 stored event).2) :
    ∃ r, event = .reconcile r ∧ st = r.want sha256 stored ∧
      (leadStep sha256 stored event).1 = some st := by
  cases event with
  | restart => cases h
  | ended => cases h
  | reconcile r =>
      simp only [leadStep, List.mem_map, List.mem_filter] at h ⊢
      obtain ⟨fate, ⟨hfate, hstores⟩, rfl⟩ := h
      have hlive : r.stale = none := by
        rw [← Option.not_isSome_iff_eq_none]
        intro hstale
        have hrefused : ∀ f, r.fate f = .refused := fun f => if_pos hstale
        have : fate = .refused := by
          unfold LeadReconcile.updates at hfate
          split at hfate
          · simpa [hrefused] using hfate
          · simp only [hrefused, List.mem_map] at hfate
            obtain ⟨_, -, rfl⟩ := hfate
            rfl
        rw [this] at hstores
        cases hstores
      simp only [hlive, Option.getD_none] at hfate ⊢
      refine ⟨r, rfl, rfl, ?_⟩
      have hne := List.length_pos_of_mem (List.mem_filter.mpr ⟨hfate, hstores⟩)
      rw [List.getLast?_map, List.getLast?_eq_some_getLast
        (List.ne_nil_of_length_pos hne)]
      rfl

/-- An event that stores nothing leaves the status as it is. -/
theorem leadStep_unwritten {sha256 : List UInt8 → String}
    {stored : Option PredictionStatus} {event : LeadEvent}
    (h : (leadStep sha256 stored event).2 = []) :
    (leadStep sha256 stored event).1 = stored := by
  cases event with
  | restart => rfl
  | ended => rfl
  | reconcile r =>
      simp only [leadStep] at h ⊢
      rw [h]
      rfl

/-- A lead with no problem passes every check. -/
structure PredictionLead.Accepted (l : PredictionLead) (s : V2Settings)
    (generation : ℤ) : Prop where
  method : l.method = "configured" ∨ l.method = "measured"
  nonneg : 0 ≤ l.seconds ∧ 0 ≤ l.startupDelaySeconds ∧
    0 ≤ l.actuationAllowanceSeconds ∧ 0 ≤ l.sampleCount ∧
    0 ≤ l.observedGeneration
  current : l.observedGeneration = generation
  onGrid : s.sampleIntervalSeconds ≤ l.seconds ∧
    l.seconds.tmod s.sampleIntervalSeconds = 0 ∧
    l.seconds ≤ s.horizonSeconds
  covers : l.startupDelaySeconds + s.sampleIntervalSeconds +
    l.actuationAllowanceSeconds ≤ l.seconds

theorem v2LeadProblem_eq_none {l : PredictionLead} {s : V2Settings}
    {generation : ℤ} (h : v2LeadProblem l s generation = none) :
    l.Accepted s generation := by
  simp only [v2LeadProblem] at h
  split at h
  · cases h
  rename_i hmethod
  split at h
  · cases h
  rename_i hnonneg
  split at h
  · cases h
  rename_i hcurrent
  split at h
  · cases h
  rename_i hgrid
  split at h
  · cases h
  rename_i hcovers
  exact ⟨by tauto, by omega, not_not.mp hcurrent,
    ⟨by omega, by tauto, by omega⟩, by omega⟩

/-- The lead as the service reads it from the status. -/
def PredictionLead.status (l : PredictionLead) : LeadStatus :=
  ⟨l.seconds, l.startupDelaySeconds, l.actuationAllowanceSeconds, l.method,
    l.sampleCount, l.observedGeneration⟩

theorem PredictionLead.Accepted.parse {l : PredictionLead} {s : V2Settings}
    {generation : ℤ} (h : l.Accepted s generation) :
    ∃ method, l.status.parse = .ok ⟨l.seconds.toNat,
      l.startupDelaySeconds.toNat, l.actuationAllowanceSeconds.toNat, method,
      l.sampleCount.toNat, l.observedGeneration.toNat⟩ := by
  have hnonneg := h.nonneg
  rcases h.method with hmethod | hmethod
  · refine ⟨.configured, ?_⟩
    simp only [LeadStatus.parse, PredictionLead.status, hmethod]
    exact if_neg (by omega)
  · refine ⟨.measured, ?_⟩
    simp only [LeadStatus.parse, PredictionLead.status, hmethod]
    exact if_neg (by omega)

/-- The service, with the same settings and at the same generation, accepts a
lead that the operator found no problem with. -/
theorem PredictionLead.Accepted.resolveLead {l : PredictionLead}
    {s : ForecastSettings} {generation : ℕ}
    (h : l.Accepted (.mirror s) generation) :
    ∃ sel, Forecasting.resolveLead (some l.status) s generation = .ok sel := by
  obtain ⟨method, hparse⟩ := h.parse
  have hnonneg := h.nonneg
  have hcurrent := h.current
  have hcovers := h.covers
  obtain ⟨hlow, hmod, hhigh⟩ := h.onGrid
  simp only [V2Settings.mirror] at hlow hmod hhigh hcovers
  have hgrid : l.seconds.toNat % s.sampleIntervalSeconds = 0 := by
    rw [Int.tmod_eq_emod_of_nonneg hnonneg.1] at hmod
    have hcast : (l.seconds.toNat : ℤ) % s.sampleIntervalSeconds = 0 := by
      rw [Int.toNat_of_nonneg hnonneg.1]
      exact hmod
    exact_mod_cast hcast
  refine ⟨⟨l.seconds.toNat, l.startupDelaySeconds.toNat,
    l.actuationAllowanceSeconds.toNat, method, l.sampleCount.toNat,
    l.observedGeneration.toNat⟩, ?_⟩
  simp only [Forecasting.resolveLead, hparse]
  change (if _ then _ else if _ then _ else if _ then _ else _) = _
  dsimp only
  rw [if_neg (by omega), if_neg (by omega), if_neg (by omega)]

/-- What the selected lead is. -/
theorem selectLead_spec {a : PreparedObject} {s : V2Settings}
    {obs : StartupObservation} {cfg : StartupConfig} {c frozen : ℤ}
    {l : PredictionLead} (h : selectLead a s obs cfg c frozen = .ok l) :
    (∃ lead, frozen ≤ lead ∧ lead ≤ s.horizonSeconds ∧
      l.seconds = wrapInt32 lead) ∧ l.Accepted s a.generation := by
  cases hbudget : startupBudget obs cfg with
  | none => simp [selectLead, hbudget] at h
  | some budget =>
      obtain ⟨d, method⟩ := budget
      simp only [selectLead, hbudget] at h
      generalize hchosen : (if v2AutomaticLead d c cfg.allowance
        s.sampleIntervalSeconds < frozen then frozen else
          v2AutomaticLead d c cfg.allowance s.sampleIntervalSeconds) =
            lead at h
      have hlow : frozen ≤ lead := by
        rw [← hchosen]
        split <;> omega
      split at h
      · cases h
      rename_i hhorizon
      split at h
      · cases h
      rename_i hproblem
      cases h
      exact ⟨⟨lead, hlow, not_lt.mp hhorizon, rfl⟩,
        v2LeadProblem_eq_none hproblem⟩

/-- The status freezes a lead of at least `m` seconds within a basis. -/
structure Freezes (leadBasis : String) (m : ℤ) (st : PredictionStatus) :
    Prop where
  leadBasis : st.leadBasis = leadBasis
  le : m ≤ st.frozenLeadSeconds
  bounded : st.frozenLeadSeconds ≤ maxInt32

section Freezes

variable {sha256 : List UInt8 → String} {r : LeadReconcile} {s : V2Settings}
  {cfg : StartupConfig} {c : ℤ} {read : Option PredictionStatus}
  {l : PredictionLead}

/-- The basis as it is recorded. -/
def basisText (sha256 : List UInt8 → String) (s : V2Settings)
    (cfg : StartupConfig) (c : ℤ) : String :=
  v2Hash sha256 (leadBasisDoc (s.fingerprint sha256) cfg c)

/-- What is published, when the settings are accepted. -/
theorem want_eq (hbasis : r.basis = some (s, cfg, c)) :
    r.want sha256 read =
      match selectLead (r.object read) s r.obs cfg c
        (frozenLead read (basisText sha256 s cfg c)) with
      | .error _ => ⟨s.fingerprint sha256, basisText sha256 s cfg c,
          wrapInt32 (frozenLead read (basisText sha256 s cfg c)), none⟩
      | .ok l => ⟨s.fingerprint sha256, basisText sha256 s cfg c, l.seconds,
          some l⟩ := by
  unfold LeadReconcile.basis at hbasis
  cases hsettings : resolveV2Settings (.ofSpec r.spec) with
  | error why => simp [hsettings, Except.toOption] at hbasis
  | ok settings =>
      simp only [hsettings, Except.toOption, Option.map_some, Option.some.injEq,
        Prod.mk.injEq] at hbasis
      obtain ⟨rfl, rfl, rfl⟩ := hbasis
      simp only [LeadReconcile.want, prepareV2, LeadReconcile.object,
        hsettings]
      rfl

/-- Settings that are refused publish no lead. -/
theorem want_lead_of_refused (hbasis : r.basis = none) :
    (r.want sha256 read).lead = none := by
  unfold LeadReconcile.basis at hbasis
  cases hsettings : resolveV2Settings (.ofSpec r.spec) with
  | error why =>
      simp only [LeadReconcile.want, prepareV2, LeadReconcile.object,
        hsettings]
  | ok settings => simp [hsettings, Except.toOption] at hbasis

theorem horizon_le_of_basis (hbasis : r.basis = some (s, cfg, c)) :
    resolveV2Settings (.ofSpec r.spec) = .ok s ∧
      s.horizonSeconds ≤ v2MaxHorizonSeconds := by
  unfold LeadReconcile.basis at hbasis
  cases hsettings : resolveV2Settings (.ofSpec r.spec) with
  | error why => simp [hsettings, Except.toOption] at hbasis
  | ok settings =>
      simp only [hsettings, Except.toOption, Option.map_some, Option.some.injEq,
        Prod.mk.injEq] at hbasis
      obtain ⟨rfl, -, -⟩ := hbasis
      exact ⟨rfl, (resolveV2Settings_accepted hsettings).horizon_le⟩

/-- A published lead is accepted, and it is the frozen one. -/
theorem want_lead (hbasis : r.basis = some (s, cfg, c))
    (hlead : (r.want sha256 read).lead = some l) :
    l.Accepted s r.generation ∧
      Freezes (basisText sha256 s cfg c) l.seconds (r.want sha256 read) := by
  obtain ⟨-, hhorizon⟩ := horizon_le_of_basis hbasis
  rw [want_eq hbasis] at hlead ⊢
  cases hselect : selectLead (r.object read) s r.obs cfg c
      (frozenLead read (basisText sha256 s cfg c)) with
  | error why => simp only [hselect] at hlead; cases hlead
  | ok selected =>
      simp only [hselect, Option.some.injEq] at hlead ⊢
      subst hlead
      obtain ⟨-, haccepted⟩ := selectLead_spec hselect
      have hhigh := haccepted.onGrid.2.2
      refine ⟨haccepted, rfl, le_rfl, ?_⟩
      simp only [v2MaxHorizonSeconds, maxInt32] at hhorizon ⊢
      omega

/-- A reconcile within the basis keeps what is frozen, and publishes no lead
below it. -/
theorem want_freezes {m : ℤ} (hbasis : r.basis = some (s, cfg, c))
    {st : PredictionStatus} (hm : 0 ≤ m)
    (h : Freezes (basisText sha256 s cfg c) m st) :
    Freezes (basisText sha256 s cfg c) m (r.want sha256 (some st)) ∧
      ∀ l, (r.want sha256 (some st)).lead = some l → m ≤ l.seconds := by
  obtain ⟨-, hhorizon⟩ := horizon_le_of_basis hbasis
  have hle := h.le
  have hbounded := h.bounded
  have hfrozen : frozenLead (some st) (basisText sha256 s cfg c) =
      st.frozenLeadSeconds := if_pos h.leadBasis
  rw [want_eq hbasis, hfrozen]
  cases hselect : selectLead (r.object (some st)) s r.obs cfg c
      st.frozenLeadSeconds with
  | error why =>
      simp only
      rw [wrapInt32_eq (by unfold minInt32; omega) hbounded]
      exact ⟨⟨rfl, hle, hbounded⟩, by simp⟩
  | ok l =>
      simp only [Option.some.injEq, forall_eq']
      obtain ⟨⟨lead, hlow, hhigh, hseconds⟩, -⟩ := selectLead_spec hselect
      simp only [v2MaxHorizonSeconds] at hhorizon
      rw [wrapInt32_eq (by unfold minInt32; omega)
        (by unfold maxInt32; omega)] at hseconds
      rw [hseconds]
      refine ⟨⟨rfl, by dsimp only; omega, ?_⟩, by omega⟩
      simp only [maxInt32]
      omega

end Freezes

section Runs

variable {sha256 : List UInt8 → String} {basis : Option (V2Settings ×
  StartupConfig × ℤ)}

/-- The reconcile of an entry, if it is one, has this basis. -/
def Within (basis : Option (V2Settings × StartupConfig × ℤ)) (e : LeadEntry) :
    Prop :=
  ∀ r, e.event = .reconcile r → r.basis = basis

/-- Every lead that an entry published is frozen in the status. -/
def Kept (sha256 : List UInt8 → String)
    (basis : Option (V2Settings × StartupConfig × ℤ)) (e : LeadEntry)
    (stored : Option PredictionStatus) : Prop :=
  ∀ st ∈ e.report, ∀ l, st.lead = some l → 0 ≤ l.seconds ∧
    ∃ s cfg c now, basis = some (s, cfg, c) ∧ stored = some now ∧
      Freezes (basisText sha256 s cfg c) l.seconds now

theorem kept_of_published (stored : Option PredictionStatus)
    (event : LeadEvent)
    (hgood : Within basis (entryAt (leadStep sha256) stored event)) :
    Kept sha256 basis (entryAt (leadStep sha256) stored event)
      (leadStep sha256 stored event).1 := by
  intro st hst l hl
  obtain ⟨r, rfl, rfl, hafter⟩ := leadStep_written hst
  have hr : r.basis = basis := hgood r rfl
  cases basis with
  | none => rw [want_lead_of_refused hr] at hl; cases hl
  | some b =>
      obtain ⟨s, cfg, c⟩ := b
      obtain ⟨haccepted, hfreezes⟩ := want_lead hr hl
      exact ⟨haccepted.nonneg.1, s, cfg, c, _, rfl, hafter, hfreezes⟩

theorem Kept.step {e : LeadEntry} {stored : Option PredictionStatus}
    {event : LeadEvent}
    (hgood : Within basis (entryAt (leadStep sha256) stored event))
    (h : Kept sha256 basis e stored) :
    Kept sha256 basis e (leadStep sha256 stored event).1 := by
  intro st hst l hl
  obtain ⟨hnonneg, s, cfg, c, now, hb, hnow, hfreezes⟩ := h st hst l hl
  refine ⟨hnonneg, s, cfg, c, ?_⟩
  cases hreport : (leadStep sha256 stored event).2 with
  | nil =>
      rw [leadStep_unwritten hreport]
      exact ⟨now, hb, hnow, hfreezes⟩
  | cons st' rest =>
      obtain ⟨r, rfl, rfl, hafter⟩ := leadStep_written
        (hreport ▸ List.mem_cons_self : st' ∈ (leadStep sha256 stored event).2)
      have hr : r.basis = some (s, cfg, c) := (hgood r rfl).trans hb
      refine ⟨_, hb, hafter, ?_⟩
      rw [hnow]
      exact (want_freezes hr hnonneg hfreezes).1

/-- A lead that is published now is at least every one that is kept. -/
theorem Kept.le {e : LeadEntry} {stored : Option PredictionStatus}
    {event : LeadEvent}
    (hgood : Within basis (entryAt (leadStep sha256) stored event))
    (h : Kept sha256 basis e stored) :
    ∀ l ∈ e.report.filterMap PredictionStatus.lead,
      ∀ l' ∈ (entryAt (leadStep sha256) stored event).report.filterMap
        PredictionStatus.lead, l.seconds ≤ l'.seconds := by
  intro l hl l' hl'
  obtain ⟨st, hst, hlead⟩ := List.mem_filterMap.mp hl
  obtain ⟨st', hst', hlead'⟩ := List.mem_filterMap.mp hl'
  obtain ⟨hnonneg, s, cfg, c, now, hb, rfl, hfreezes⟩ := h st hst l hlead
  obtain ⟨r, rfl, rfl, -⟩ := leadStep_written hst'
  exact (want_freezes ((hgood r rfl).trans hb) hnonneg hfreezes).2 l' hlead'

end Runs

/-- Within one basis the leads that are published never shrink, whatever is
observed of the pods, however the status updates end and whenever the operator
restarts; and the service accepts every published lead for the object, its
settings and its generation. -/
theorem published_leads_never_shrink (sha256 : List UInt8 → String)
    (stored : Option PredictionStatus) (events : List LeadEvent) :
    (∀ basis, (∀ r, .reconcile r ∈ events → r.basis = basis) →
      (publishedLeads (leadRun sha256 stored events)).Pairwise
        fun l l' => l.seconds ≤ l'.seconds) ∧
    ∀ e ∈ leadRun sha256 stored events, ∀ r, e.event = .reconcile r →
      ∀ st ∈ e.report, ∀ l, st.lead = some l →
        ∃ (s : ForecastSettings) (generation : ℕ),
          Forecasting.resolveSettings r.spec = .ok s ∧
          r.generation = generation ∧
          ∃ sel, Forecasting.resolveLead (some l.status) s generation =
            .ok sel := by
  constructor
  · intro basis hbasis
    have hgood : ∀ e ∈ leadRun sha256 stored events, Within basis e := by
      intro e he r hr
      apply hbasis r
      rw [← hr, ← runTrace_map_event (leadStep sha256) stored events]
      exact List.mem_map_of_mem he
    have hpairs := @runTrace_pairwise _ _ _ (leadStep sha256) (fun _ => True)
      (Within basis) (Kept sha256 basis)
      (fun e e' => ∀ l ∈ e.report.filterMap PredictionStatus.lead,
        ∀ l' ∈ e'.report.filterMap PredictionStatus.lead,
          l.seconds ≤ l'.seconds) (fun _ _ _ => trivial)
      (fun stored event _ hgood => kept_of_published stored event hgood)
      (fun e stored event _ hgood h => h.step hgood)
      (fun e stored event _ hgood h => h.le hgood) stored events trivial hgood
    refine List.pairwise_flatMap.mpr ⟨?_, hpairs⟩
    intro e he
    obtain ⟨-, hentry⟩ := mem_runTrace_imp (fun _ => True)
      (fun _ _ _ => trivial) trivial he
    apply List.pairwise_of_forall_mem_list
    intro l hl l' hl'
    -- The updates of one reconcile carry the same lead.
    obtain ⟨st, hst, hlead⟩ := List.mem_filterMap.mp hl
    obtain ⟨st', hst', hlead'⟩ := List.mem_filterMap.mp hl'
    rw [hentry] at hst hst'
    obtain ⟨r, hr, rfl, -⟩ := leadStep_written hst
    obtain ⟨r', hr', rfl, -⟩ := leadStep_written hst'
    rw [hr] at hr'
    cases hr'
    rw [hlead] at hlead'
    cases hlead'
    exact le_rfl
  · intro e he r hr st hst l hl
    obtain ⟨-, hentry⟩ := mem_runTrace_imp (fun _ => True)
      (fun _ _ _ => trivial) trivial he
    rw [hentry] at hst
    obtain ⟨r', hr', rfl, -⟩ := leadStep_written hst
    rw [hr] at hr'
    cases hr'
    cases hbasis : r.basis with
    | none => rw [want_lead_of_refused hbasis] at hl; cases hl
    | some b =>
        obtain ⟨v, cfg, c⟩ := b
        obtain ⟨hsettings, -⟩ := horizon_le_of_basis hbasis
        obtain ⟨haccepted, -⟩ := want_lead hbasis hl
        obtain ⟨s, hs, hsame⟩ :=
          (settings_agree sha256 r.admitted).1 v hsettings
        obtain ⟨generation, hgeneration⟩ := Int.eq_ofNat_of_zero_le
          (haccepted.current ▸ haccepted.nonneg.2.2.2.2 : 0 ≤ r.generation)
        rw [hsame.fields, hgeneration] at haccepted
        exact ⟨s, generation, hs, hgeneration, haccepted.resolveLead⟩

namespace LeadRunWitness

/-- A reconcile that observed this pending start. -/
def reconcile (pending : Option ℤ) : LeadReconcile where
  spec := SettingsWitness.spec
  admitted := SettingsWitness.admitted
  startup := some { fallbackDelaySeconds := some 60 }
  generation := 1
  reconcileInterval := 60 * second
  obs := ⟨0, none, pending⟩
  stale := none
  publish := .stored
  finish := none

/-- A slow start, a restart and a fast start. -/
def events : List LeadEvent :=
  [.reconcile (reconcile (some 500)), .restart, .reconcile (reconcile none)]

theorem v2Hash_const (d : Doc) : v2Hash (fun _ => "") d = "" := by
  unfold v2Hash
  split <;> rfl

/-- What is published of a start of so many seconds. -/
def published (startup : ℤ) : PredictionStatus :=
  ⟨"", "", 1200, some ⟨1200, startup, 15, "configured", 0, 1⟩⟩

theorem want_slow :
    (reconcile (some 500)).want (fun _ => "") none = published 500 := by
  unfold LeadReconcile.want prepareV2 V2Settings.fingerprint
  simp only [v2Hash_const]
  decide +kernel

/-- The frozen lead holds, though a fast start would do with less. -/
theorem want_fast :
    (reconcile none).want (fun _ => "") (some (published 500)) =
      published 60 := by
  unfold LeadReconcile.want prepareV2 V2Settings.fingerprint
  simp only [v2Hash_const]
  decide +kernel

theorem published_leads :
    (publishedLeads (leadRun (fun _ => "") none events)).map
      (fun l => l.seconds) = [1200, 1200] := by
  have hslow : leadStep (fun _ => "") none
      (.reconcile (reconcile (some 500))) =
      (some (published 500), [published 500]) := by
    have hread : (reconcile (some 500)).stale.getD none = none := rfl
    simp only [leadStep, hread, want_slow]
    rfl
  have hrestart : leadStep (fun _ => "") (some (published 500)) .restart =
      (some (published 500), []) := rfl
  have hfast : leadStep (fun _ => "") (some (published 500))
      (.reconcile (reconcile none)) =
      (some (published 60), [published 60]) := by
    have hread : (reconcile none).stale.getD (some (published 500)) =
        some (published 500) := rfl
    simp only [leadStep, hread, want_fast]
    decide +kernel
  simp only [events, leadRun, runTrace, entryAt, hslow, hrestart, hfast]
  rfl

/-- Both reconciles publish the lead of the slow start. -/
theorem slow_start_keeps_lead :
    (publishedLeads (leadRun (fun _ => "") none events)).map
        (fun l => l.seconds) = [1200, 1200] ∧
      (publishedLeads (leadRun (fun _ => "") none events)).Pairwise
        fun l l' => l.seconds ≤ l'.seconds := by
  refine ⟨published_leads, (published_leads_never_shrink (fun _ => "") none
    events).1 (reconcile none).basis ?_⟩
  intro r hr
  simp only [events, List.mem_cons, LeadEvent.reconcile.injEq, reduceCtorEq,
    List.not_mem_nil, or_false, false_or] at hr
  rcases hr with rfl | rfl
  · rfl
  · rfl

end LeadRunWitness

end PredictiveAutoscaler.ForecastV2
