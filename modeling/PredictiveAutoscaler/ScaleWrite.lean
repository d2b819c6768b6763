/-
The replica write as a protocol between the operator and the API server.  The
operator decides from objects it has read, reads the fresh `/scale`, re-reads
the autoscaler and the target, and sends a conditional update; other writers
change, delete and re-create the objects between any two of these steps.  The
server applies an update only when its UID and resourceVersion are the stored
ones, and every change gets a new resourceVersion.
-/
import PredictiveAutoscaler.Reconcile
import PredictiveAutoscaler.Run
import PredictiveAutoscaler.Versioned

namespace PredictiveAutoscaler

/-- The stored target, its resourceVersion apart. -/
structure StoredTarget where
  uid : String
  replicas : ℤ
deriving DecidableEq, Repr

/-- The stored autoscaler: the part the identity guard compares. -/
structure StoredAutoscaler where
  uid : String
  generation : ℕ
  mode : Mode
deriving DecidableEq, Repr

/-- One write attempt: the autoscaler and the target as the reconcile read
them, and the count it decided on. -/
structure Attempt where
  autoscaler : StoredAutoscaler
  targetUID : String
  replicas : ℤ
  count : ℤ
deriving DecidableEq, Repr

/-- How far an attempt has come. -/
inductive WritePhase
  | idle
  | decided (attempt : Attempt)
  | scaleRead (attempt : Attempt) (scale : Snapshot StoredTarget)
  | authorized (attempt : Attempt) (scale : Snapshot StoredTarget)
  | guarded (attempt : Attempt) (scale : Snapshot StoredTarget)
deriving DecidableEq

/-- The cluster, the attempt under way and the operator's scale state. -/
structure WriteState where
  target : Versioned StoredTarget
  autoscaler : Option StoredAutoscaler
  phase : WritePhase
  scale : ScaleState

/-- What other writers do. -/
inductive ClusterChange
  | setReplicas (replicas : ℤ)
  /-- Any change of the target that keeps its count. -/
  | touchTarget
  | deleteTarget
  | createTarget (uid : String) (replicas : ℤ)
  | editAutoscaler (mode : Mode)
  | deleteAutoscaler
  | createAutoscaler (uid : String) (mode : Mode)
deriving DecidableEq, Repr

/-- The answer to an update that the server could apply: reported, lost on its
way back, or never delivered. -/
inductive UpdateDelivery
  | reported
  | lost
  | undelivered
deriving DecidableEq, Repr

/-- A step of another writer or of the operator.  `answered = false` is a read
that fails. -/
inductive WriteEvent
  | change (change : ClusterChange)
  | decide (attempt : Attempt)
  | freshScale (answered : Bool)
  | guardAutoscaler (answered : Bool)
  | guardTarget (answered : Bool)
  | expire
  | update (delivery : UpdateDelivery) (now : ℤ)
deriving DecidableEq, Repr

/-- How an attempt ended, and the object its update replaced. -/
structure WriteReport where
  result : Option WriteResult := none
  replaced : Option (Attempt × StoredTarget) := none
deriving DecidableEq

/-- Another writer's change. -/
def applyChange (s : WriteState) : ClusterChange → WriteState
  | .setReplicas replicas =>
      match s.target.stored with
      | none => s
      | some d => { s with target := s.target.put { d.value with replicas } }
  | .touchTarget =>
      match s.target.stored with
      | none => s
      | some d => { s with target := s.target.put d.value }
  | .deleteTarget => { s with target := s.target.delete }
  | .createTarget uid replicas =>
      match s.target.stored with
      | none => { s with target := s.target.put ⟨uid, replicas⟩ }
      | some _ => s
  | .editAutoscaler mode =>
      { s with
        autoscaler := s.autoscaler.map fun pa =>
          { pa with generation := pa.generation + 1, mode := mode } }
  | .deleteAutoscaler => { s with autoscaler := none }
  | .createAutoscaler uid mode =>
      { s with autoscaler := s.autoscaler.or (some ⟨uid, 1, mode⟩) }

/-- The attempt ends without an update. -/
def WriteState.abort (s : WriteState) (result : WriteResult) :
    WriteState × WriteReport :=
  ({ s with phase := .idle }, ⟨some result, none⟩)

/-- `freshScale`: the same object, at the count the decision is from. -/
def readScale (s : WriteState) (attempt : Attempt) (answered : Bool) :
    WriteState × WriteReport :=
  match answered, s.target.stored with
  | true, some scale =>
      if scale.value.uid = "" ∨ attempt.targetUID = "" ∨
          scale.value.uid ≠ attempt.targetUID ∨
          scale.value.replicas ≠ attempt.replicas then s.abort .stale
      else ({ s with phase := .scaleRead attempt scale }, {})
  | _, _ => s.abort .failed

/-- `identityGuard`, the autoscaler: the same object and generation, Active. -/
def guardAutoscaler (s : WriteState) (attempt : Attempt)
    (scale : Snapshot StoredTarget) (answered : Bool) :
    WriteState × WriteReport :=
  match answered, s.autoscaler with
  | true, some fresh =>
      if fresh.uid ≠ attempt.autoscaler.uid ∨
          fresh.generation ≠ attempt.autoscaler.generation ∨
          fresh.mode ≠ .active then s.abort .refused
      else ({ s with phase := .authorized attempt scale }, {})
  | _, _ => s.abort .refused

/-- `identityGuard`, the target: the same object. -/
def guardTarget (s : WriteState) (attempt : Attempt)
    (scale : Snapshot StoredTarget) (answered : Bool) :
    WriteState × WriteReport :=
  match answered, s.target.stored with
  | true, some fresh =>
      if fresh.value.uid ≠ attempt.targetUID then s.abort .refused
      else ({ s with phase := .guarded attempt scale }, {})
  | _, _ => s.abort .refused

/-- The stamp of a successful write. -/
def ScaleState.stampWrite (scale : ScaleState) (attempt : Attempt) (now : ℤ) :
    ScaleState :=
  if attempt.replicas < attempt.count then
    { scale with lastScaleUp := some now, belowCurrentSince := none }
  else { scale with lastScaleDown := some now, overrideActive := false }

/-- `writeScale`: nothing to do at the target count; otherwise the server
replaces the object that still has the UID and the resourceVersion read. -/
def writeScale (s : WriteState) (attempt : Attempt)
    (scale : Snapshot StoredTarget) (delivery : UpdateDelivery) (now : ℤ) :
    WriteState × WriteReport :=
  if attempt.count = scale.value.replicas then
    ({ s with phase := .idle, scale := s.scale.stampWrite attempt now },
      ⟨some .written, none⟩)
  else
    match delivery, s.target.stored with
    | .undelivered, _ => s.abort .failed
    | _, none => s.abort .failed
    | delivery, some stored =>
        if stored.value.uid = scale.value.uid ∧
            stored.version = scale.version then
          let target := s.target.put
            { stored.value with replicas := attempt.count }
          if delivery = .reported then
            ({ s with
                target := target, phase := .idle
                scale := s.scale.stampWrite attempt now },
              ⟨some .written, some (attempt, stored.value)⟩)
          else
            ({ s with target := target, phase := .idle },
              ⟨some .failed, some (attempt, stored.value)⟩)
        else s.abort .stale

/-- One step.  An operator step that is not the next one of its attempt does
nothing. -/
def writeStep (s : WriteState) (event : WriteEvent) :
    WriteState × WriteReport :=
  match event, s.phase with
  | .change change, _ => (applyChange s change, {})
  | .decide attempt, .idle => ({ s with phase := .decided attempt }, {})
  | .freshScale answered, .decided attempt => readScale s attempt answered
  | .guardAutoscaler answered, .scaleRead attempt scale =>
      guardAutoscaler s attempt scale answered
  | .guardTarget answered, .authorized attempt scale =>
      guardTarget s attempt scale answered
  | .expire, .guarded _ _ => s.abort .expired
  | .update delivery now, .guarded attempt scale =>
      writeScale s attempt scale delivery now
  | _, _ => (s, {})

abbrev WriteEntry := Entry WriteState WriteEvent WriteReport

/-- A successful fresh `/scale` read of the attempt. -/
def ReadsScale (e : WriteEntry) (attempt : Attempt)
    (scale : Snapshot StoredTarget) : Prop :=
  e.before.phase = .decided attempt ∧ e.event = .freshScale true ∧
    e.before.target.stored = some scale ∧
    scale.value.uid = attempt.targetUID ∧
    scale.value.replicas = attempt.replicas

/-- The autoscaler exists as the attempt read it, and is Active. -/
def AuthorizedBy (e : WriteEntry) (attempt : Attempt) : Prop :=
  ∃ pa, e.before.autoscaler = some pa ∧ pa.uid = attempt.autoscaler.uid ∧
    pa.generation = attempt.autoscaler.generation ∧ pa.mode = .active

/-- The attempt has its fresh read and has not ended. -/
def WritePhase.Underway (phase : WritePhase) (attempt : Attempt)
    (scale : Snapshot StoredTarget) : Prop :=
  phase = .scaleRead attempt scale ∨ phase = .authorized attempt scale ∨
    phase = .guarded attempt scale

/-- The steps so far contain the fresh read of the attempt under way. -/
def ReadSoFar (past : List WriteEntry) (attempt : Attempt)
    (scale : Snapshot StoredTarget) : Prop :=
  ∃ before read after, past = before ++ read :: after ∧
    ReadsScale read attempt scale ∧
    ∀ x ∈ after, x.before.phase.Underway attempt scale

/-- The steps so far contain the fresh read of the attempt under way, and
since then its authorization. -/
def AuthorizedSinceRead (past : List WriteEntry) (attempt : Attempt)
    (scale : Snapshot StoredTarget) : Prop :=
  ∃ before read between auth after,
    past = before ++ read :: (between ++ auth :: after) ∧
      ReadsScale read attempt scale ∧ AuthorizedBy auth attempt ∧
      ∀ x ∈ between ++ auth :: after, x.before.phase.Underway attempt scale

/-- What has happened when an attempt is at its phase. -/
def WriteHistory (past : List WriteEntry) (s : WriteState) : Prop :=
  match s.phase with
  | .idle => True
  | .decided _ => True
  | .scaleRead attempt scale =>
      s.target.Reads scale ∧ ReadSoFar past attempt scale
  | .authorized attempt scale =>
      s.target.Reads scale ∧ AuthorizedSinceRead past attempt scale
  | .guarded attempt scale =>
      s.target.Reads scale ∧ AuthorizedSinceRead past attempt scale

section History

variable {past : List WriteEntry} {e : WriteEntry} {attempt : Attempt}
  {scale : Snapshot StoredTarget}

theorem ReadSoFar.snoc (h : ReadSoFar past attempt scale)
    (he : e.before.phase.Underway attempt scale) :
    ReadSoFar (past ++ [e]) attempt scale := by
  obtain ⟨before, read, after, rfl, hread, hafter⟩ := h
  refine ⟨before, read, after ++ [e], by simp, hread, ?_⟩
  intro x hx
  rcases List.mem_append.mp hx with hx | hx
  · exact hafter x hx
  · rw [List.mem_singleton.mp hx]
    exact he

theorem ReadSoFar.authorize (h : ReadSoFar past attempt scale)
    (he : e.before.phase.Underway attempt scale)
    (hauth : AuthorizedBy e attempt) :
    AuthorizedSinceRead (past ++ [e]) attempt scale := by
  obtain ⟨before, read, after, rfl, hread, hafter⟩ := h
  refine ⟨before, read, after, e, [], by simp, hread, hauth, ?_⟩
  intro x hx
  rcases List.mem_append.mp hx with hx | hx
  · exact hafter x hx
  · rw [List.mem_singleton.mp hx]
    exact he

theorem AuthorizedSinceRead.snoc (h : AuthorizedSinceRead past attempt scale)
    (he : e.before.phase.Underway attempt scale) :
    AuthorizedSinceRead (past ++ [e]) attempt scale := by
  obtain ⟨before, read, between, auth, after, rfl, hread, hauth, hafter⟩ := h
  refine ⟨before, read, between, auth, after ++ [e], by simp, hread, hauth, ?_⟩
  intro x hx
  rw [← List.cons_append, ← List.append_assoc] at hx
  rcases List.mem_append.mp hx with hx | hx
  · exact hafter x hx
  · rw [List.mem_singleton.mp hx]
    exact he

/-- A step that keeps the phase and the truth of snapshots keeps the
history. -/
theorem WriteHistory.frame {s' : WriteState}
    (h : WriteHistory past e.before) (hphase : s'.phase = e.before.phase)
    (hreads : ∀ p, e.before.target.Reads p → s'.target.Reads p) :
    WriteHistory (past ++ [e]) s' := by
  unfold WriteHistory at h ⊢
  rw [hphase]
  cases hcase : e.before.phase with
  | idle => trivial
  | decided attempt => trivial
  | scaleRead attempt scale =>
      rw [hcase] at h
      exact ⟨hreads scale h.1, h.2.snoc (Or.inl hcase)⟩
  | authorized attempt scale =>
      rw [hcase] at h
      exact ⟨hreads scale h.1, h.2.snoc (Or.inr (Or.inl hcase))⟩
  | guarded attempt scale =>
      rw [hcase] at h
      exact ⟨hreads scale h.1, h.2.snoc (Or.inr (Or.inr hcase))⟩

end History

theorem applyChange_phase (s : WriteState) (change : ClusterChange) :
    (applyChange s change).phase = s.phase := by
  cases change <;> simp only [applyChange] <;> split <;> rfl

theorem applyChange_reads {s : WriteState} {p : Snapshot StoredTarget}
    (h : s.target.Reads p) (change : ClusterChange) :
    (applyChange s change).target.Reads p := by
  cases change with
  | setReplicas replicas =>
      simp only [applyChange]
      split
      · exact h
      · exact h.put _
  | touchTarget =>
      simp only [applyChange]
      split
      · exact h
      · exact h.put _
  | deleteTarget => exact h.delete
  | createTarget uid replicas =>
      simp only [applyChange]
      split
      · exact h.put _
      · exact h
  | editAutoscaler mode => exact h
  | deleteAutoscaler => exact h
  | createAutoscaler uid mode => exact h

theorem readScale_history {past : List WriteEntry} {s : WriteState}
    {attempt : Attempt} (answered : Bool)
    (hphase : s.phase = .decided attempt) :
    WriteHistory (past ++ [entryAt writeStep s (.freshScale answered)])
      (readScale s attempt answered).1 := by
  cases answered with
  | false => trivial
  | true =>
      cases hstored : s.target.stored with
      | none => simp only [readScale, hstored, WriteState.abort, WriteHistory]
      | some scale =>
          simp only [readScale, hstored]
          split_ifs with hstale
          · trivial
          · push Not at hstale
            refine ⟨Versioned.reads_of_stored hstored, past, _, [], rfl,
              ⟨hphase, rfl, hstored, hstale.2.2.1, hstale.2.2.2⟩, ?_⟩
            intro x hx
            cases hx

theorem guardAutoscaler_history {past : List WriteEntry} {s : WriteState}
    {attempt : Attempt} {scale : Snapshot StoredTarget} (answered : Bool)
    (hphase : s.phase = .scaleRead attempt scale)
    (hpast : s.target.Reads scale ∧ ReadSoFar past attempt scale) :
    WriteHistory (past ++ [entryAt writeStep s (.guardAutoscaler answered)])
      (guardAutoscaler s attempt scale answered).1 := by
  cases answered with
  | false => trivial
  | true =>
      cases hpa : s.autoscaler with
      | none => simp only [guardAutoscaler, hpa, WriteState.abort, WriteHistory]
      | some fresh =>
          simp only [guardAutoscaler, hpa]
          split_ifs with hrefused
          · trivial
          · push Not at hrefused
            exact ⟨hpast.1, hpast.2.authorize (Or.inl hphase)
              ⟨fresh, hpa, hrefused⟩⟩

theorem guardTarget_history {past : List WriteEntry} {s : WriteState}
    {attempt : Attempt} {scale : Snapshot StoredTarget} (answered : Bool)
    (hphase : s.phase = .authorized attempt scale)
    (hpast : s.target.Reads scale ∧ AuthorizedSinceRead past attempt scale) :
    WriteHistory (past ++ [entryAt writeStep s (.guardTarget answered)])
      (guardTarget s attempt scale answered).1 := by
  cases answered with
  | false => trivial
  | true =>
      cases htarget : s.target.stored with
      | none => simp only [guardTarget, htarget, WriteState.abort, WriteHistory]
      | some fresh =>
          simp only [guardTarget, htarget]
          split_ifs with hrefused
          · trivial
          · exact ⟨hpast.1, hpast.2.snoc (Or.inr (Or.inl hphase))⟩

section Update

variable (s : WriteState) (attempt : Attempt) (scale : Snapshot StoredTarget)
  (delivery : UpdateDelivery) (now : ℤ)

/-- Everything an update can do: nothing at the target count, end without an
effect, or replace the object that was read, with or without the answer. -/
theorem writeScale_cases :
    writeScale s attempt scale delivery now =
        ({ s with phase := .idle, scale := s.scale.stampWrite attempt now },
          ⟨some .written, none⟩) ∨
      writeScale s attempt scale delivery now = s.abort .failed ∨
      writeScale s attempt scale delivery now = s.abort .stale ∨
      ∃ stored, s.target.stored = some stored ∧
        stored.version = scale.version ∧
        (writeScale s attempt scale delivery now =
            ({ s with
                target := s.target.put
                  { stored.value with replicas := attempt.count }
                phase := .idle, scale := s.scale.stampWrite attempt now },
              ⟨some .written, some (attempt, stored.value)⟩) ∨
          writeScale s attempt scale delivery now =
            ({ s with
                target := s.target.put
                  { stored.value with replicas := attempt.count }
                phase := .idle },
              ⟨some .failed, some (attempt, stored.value)⟩)) := by
  unfold writeScale
  by_cases hcount : attempt.count = scale.value.replicas
  · rw [if_pos hcount]
    exact Or.inl rfl
  rw [if_neg hcount]
  cases hstored : s.target.stored with
  | none => cases delivery <;> exact Or.inr (Or.inl rfl)
  | some stored =>
      by_cases hsame : stored.value.uid = scale.value.uid ∧
          stored.version = scale.version
      · cases delivery with
        | undelivered => exact Or.inr (Or.inl rfl)
        | reported =>
            exact Or.inr (Or.inr (Or.inr ⟨stored, rfl, hsame.2,
              Or.inl ((if_pos hsame).trans (if_pos rfl))⟩))
        | lost =>
            exact Or.inr (Or.inr (Or.inr ⟨stored, rfl, hsame.2,
              Or.inr ((if_pos hsame).trans (if_neg (by simp)))⟩))
      · cases delivery with
        | undelivered => exact Or.inr (Or.inl rfl)
        | reported => exact Or.inr (Or.inr (Or.inl (if_neg hsame)))
        | lost => exact Or.inr (Or.inr (Or.inl (if_neg hsame)))

theorem writeScale_phase :
    (writeScale s attempt scale delivery now).1.phase = .idle := by
  rcases writeScale_cases s attempt scale delivery now with
    h | h | h | ⟨stored, -, -, h | h⟩
  all_goals
    simp only [h, WriteState.abort]

end Update

/-- An operator step that is not the next one of its attempt. -/
theorem writeStep_history_idle {past : List WriteEntry} {s : WriteState}
    {event : WriteEvent} (h : WriteHistory past s)
    (hstep : (writeStep s event).1 = s) :
    WriteHistory (past ++ [entryAt writeStep s event])
      (writeStep s event).1 := by
  rw [hstep]
  exact WriteHistory.frame h rfl fun _ hp => hp

/-- Every step extends the history. -/
theorem writeStep_history (past : List WriteEntry) (s : WriteState)
    (event : WriteEvent) (h : WriteHistory past s) :
    WriteHistory (past ++ [entryAt writeStep s event])
      (writeStep s event).1 := by
  cases event with
  | change change =>
      exact WriteHistory.frame h (applyChange_phase s change)
        fun p hp => applyChange_reads hp change
  | decide attempt =>
      cases hphase : s.phase with
      | idle => simp [writeStep, hphase, WriteHistory]
      | _ => exact writeStep_history_idle h (by simp [writeStep, hphase])
  | freshScale answered =>
      cases hphase : s.phase with
      | decided attempt =>
          simp only [writeStep, hphase]
          exact readScale_history answered hphase
      | _ => exact writeStep_history_idle h (by simp [writeStep, hphase])
  | guardAutoscaler answered =>
      cases hphase : s.phase with
      | scaleRead attempt scale =>
          simp only [WriteHistory, hphase] at h
          simp only [writeStep, hphase]
          exact guardAutoscaler_history answered hphase h
      | _ => exact writeStep_history_idle h (by simp [writeStep, hphase])
  | guardTarget answered =>
      cases hphase : s.phase with
      | authorized attempt scale =>
          simp only [WriteHistory, hphase] at h
          simp only [writeStep, hphase]
          exact guardTarget_history answered hphase h
      | _ => exact writeStep_history_idle h (by simp [writeStep, hphase])
  | expire =>
      cases hphase : s.phase with
      | guarded attempt scale =>
          simp [writeStep, hphase, WriteState.abort, WriteHistory]
      | _ => exact writeStep_history_idle h (by simp [writeStep, hphase])
  | update delivery now =>
      cases hphase : s.phase with
      | guarded attempt scale =>
          simp only [writeStep, hphase, WriteHistory, writeScale_phase]
      | _ => exact writeStep_history_idle h (by simp [writeStep, hphase])

/-- A step that at most moves the attempt: nothing else changes. -/
structure Untouched (s : WriteState) (r : WriteState × WriteReport) :
    Prop where
  target : r.1.target = s.target
  autoscaler : r.1.autoscaler = s.autoscaler
  scale : r.1.scale = s.scale
  replaced : r.2.replaced = none

section Checks

variable (s : WriteState) (attempt : Attempt) (scale : Snapshot StoredTarget)
  (answered : Bool)

theorem abort_untouched (result : WriteResult) :
    Untouched s (s.abort result) :=
  ⟨rfl, rfl, rfl, rfl⟩

theorem readScale_untouched : Untouched s (readScale s attempt answered) := by
  unfold readScale
  split
  · split_ifs
    · exact abort_untouched s .stale
    · exact ⟨rfl, rfl, rfl, rfl⟩
  · exact abort_untouched s .failed

theorem guardAutoscaler_untouched :
    Untouched s (guardAutoscaler s attempt scale answered) := by
  unfold guardAutoscaler
  split
  · split_ifs
    · exact abort_untouched s .refused
    · exact ⟨rfl, rfl, rfl, rfl⟩
  · exact abort_untouched s .refused

theorem guardTarget_untouched :
    Untouched s (guardTarget s attempt scale answered) := by
  unfold guardTarget
  split
  · split_ifs
    · exact abort_untouched s .refused
    · exact ⟨rfl, rfl, rfl, rfl⟩
  · exact abort_untouched s .refused

end Checks

/-- Everything one step can do: a change by another writer, an update of a
guarded attempt, or a move of the attempt that touches nothing else. -/
theorem writeStep_cases (s : WriteState) (event : WriteEvent) :
    (∃ change, event = .change change ∧
        writeStep s event = (applyChange s change, {})) ∨
      (∃ attempt scale delivery now, s.phase = .guarded attempt scale ∧
        writeStep s event = writeScale s attempt scale delivery now) ∨
      Untouched s (writeStep s event) := by
  unfold writeStep
  split
  · rename_i change
    exact Or.inl ⟨change, rfl, rfl⟩
  · exact Or.inr (Or.inr ⟨rfl, rfl, rfl, rfl⟩)
  · exact Or.inr (Or.inr (readScale_untouched ..))
  · exact Or.inr (Or.inr (guardAutoscaler_untouched ..))
  · exact Or.inr (Or.inr (guardTarget_untouched ..))
  · exact Or.inr (Or.inr (abort_untouched ..))
  · rename_i delivery now attempt scale hphase
    exact Or.inr (Or.inl ⟨attempt, scale, delivery, now, hphase, rfl⟩)
  · exact Or.inr (Or.inr ⟨rfl, rfl, rfl, rfl⟩)

/-- Only the update of a guarded attempt replaces an object, and it finds the
version of the fresh read. -/
theorem writeStep_replaced {s : WriteState} {event : WriteEvent}
    {attempt : Attempt} {old : StoredTarget}
    (h : (writeStep s event).2.replaced = some (attempt, old)) :
    ∃ scale stored, s.phase = .guarded attempt scale ∧
      s.target.stored = some stored ∧ stored.value = old ∧
      stored.version = scale.version := by
  rcases writeStep_cases s event with ⟨change, -, heq⟩ |
      ⟨attempt', scale, delivery, now, hphase, heq⟩ | huntouched
  · rw [heq] at h
    cases h
  · rw [heq] at h
    rcases writeScale_cases s attempt' scale delivery now with
      hw | hw | hw | ⟨stored, hstored, hversion, hw | hw⟩
    · rw [hw] at h
      cases h
    · rw [hw] at h
      cases h
    · rw [hw] at h
      cases h
    · rw [hw] at h
      cases h
      exact ⟨scale, stored, hphase, hstored, rfl, hversion⟩
    · rw [hw] at h
      cases h
      exact ⟨scale, stored, hphase, hstored, rfl, hversion⟩
  · rw [huntouched.replaced] at h
    cases h

/-- An operator step that neither writes nor fails leaves the target, the
autoscaler and the scale state as they are. -/
theorem writeStep_unwritten {s : WriteState} {event : WriteEvent}
    (hevent : ∀ change, event ≠ .change change)
    (hwritten : (writeStep s event).2.result ≠ some .written)
    (hfailed : (writeStep s event).2.result ≠ some .failed) :
    (writeStep s event).1.target = s.target ∧
      (writeStep s event).1.autoscaler = s.autoscaler ∧
      (writeStep s event).1.scale = s.scale := by
  rcases writeStep_cases s event with ⟨change, h, -⟩ |
      ⟨attempt, scale, delivery, now, -, heq⟩ | huntouched
  · exact absurd h (hevent change)
  · rw [heq] at hwritten hfailed ⊢
    rcases writeScale_cases s attempt scale delivery now with
      hw | hw | hw | ⟨stored, -, -, hw | hw⟩
    · rw [hw] at hwritten
      exact absurd rfl hwritten
    · rw [hw]
      exact ⟨rfl, rfl, rfl⟩
    · rw [hw]
      exact ⟨rfl, rfl, rfl⟩
    · rw [hw] at hwritten
      exact absurd rfl hwritten
    · rw [hw] at hfailed
      exact absurd rfl hfailed
  · exact ⟨huntouched.target, huntouched.autoscaler, huntouched.scale⟩

/-- In every interleaving, an applied update replaces exactly the object and
the count its decision was computed from, and between its fresh `/scale` read
and the update there was an instant at which the autoscaler existed as the
attempt read it, Active.  An operator step that ends without a write or a
failure changes neither the cluster nor the scale state. -/
theorem scaleWrite_compareAndSet (s : WriteState) (hidle : s.phase = .idle)
    (events : List WriteEvent) :
    (∀ past e rest, runTrace writeStep s events = past ++ e :: rest →
      ∀ attempt old, e.report.replaced = some (attempt, old) →
        (∃ stored, e.before.target.stored = some stored ∧
          stored.value = old) ∧
        old.uid = attempt.targetUID ∧ old.replicas = attempt.replicas ∧
        ∃ scale, AuthorizedSinceRead past attempt scale) ∧
      ∀ e ∈ runTrace writeStep s events,
        (∀ change, e.event ≠ .change change) →
        e.report.result ≠ some .written → e.report.result ≠ some .failed →
        (writeStep e.before e.event).1.target = e.before.target ∧
          (writeStep e.before e.event).1.autoscaler = e.before.autoscaler ∧
          (writeStep e.before e.event).1.scale = e.before.scale := by
  constructor
  · intro past e rest htrace attempt old hreplaced
    have hinit : WriteHistory [] s := by simp [WriteHistory, hidle]
    obtain ⟨hpast, heq⟩ :=
      runTrace_history WriteHistory writeStep_history hinit htrace
    rw [heq] at hreplaced
    obtain ⟨scale, stored, hphase, hstored, rfl, hversion⟩ :=
      writeStep_replaced hreplaced
    simp only [WriteHistory, hphase] at hpast
    obtain ⟨hreads, hauth⟩ := hpast
    have hscale : stored = scale := hreads.2 stored hstored hversion
    have hread : scale.value.uid = attempt.targetUID ∧
        scale.value.replicas = attempt.replicas := by
      obtain ⟨before, read, between, auth, after, -, hread, -⟩ := hauth
      exact hread.2.2.2
    rw [hscale]
    exact ⟨⟨scale, hscale ▸ hstored, rfl⟩, hread.1, hread.2, scale, hauth⟩
  · intro e he hevent hwritten hfailed
    obtain ⟨-, heq⟩ := mem_runTrace_imp (fun _ => True)
      (fun _ _ _ => trivial) trivial he
    rw [heq] at hwritten hfailed
    exact writeStep_unwritten hevent hwritten hfailed

/-- The answers an attempt gets when nothing else happens meanwhile. -/
def WriteState.answers (s : WriteState) (attempt : Attempt) : WriteAnswers where
  freshScale :=
    match s.target.stored with
    | none => .failed
    | some scale =>
        if scale.value.uid = "" ∨ attempt.targetUID = "" ∨
            scale.value.uid ≠ attempt.targetUID ∨
            scale.value.replicas ≠ attempt.replicas then .stale
        else .matching
  identityGuard :=
    match s.autoscaler with
    | none => false
    | some fresh =>
        decide (fresh.uid = attempt.autoscaler.uid) &&
          decide (fresh.generation = attempt.autoscaler.generation) &&
          decide (fresh.mode = .active)
  update := .applied

/-- The steps of one attempt, after its decision. -/
def attemptSteps (expired : Bool) (now : ℤ) : List WriteEvent :=
  [.freshScale true, .guardAutoscaler true, .guardTarget true,
    if expired then .expire else .update .reported now]

/-- The identity guard accepts the autoscaler. -/
def Attempt.Accepts (attempt : Attempt) (fresh : StoredAutoscaler) : Prop :=
  fresh.uid = attempt.autoscaler.uid ∧
    fresh.generation = attempt.autoscaler.generation ∧ fresh.mode = .active

/-- Once its fresh read matches, an undisturbed attempt ends with the guard,
the expiry or the update. -/
theorem undisturbed_results {s : WriteState} {attempt : Attempt}
    {scale : Snapshot StoredTarget} (hstored : s.target.stored = some scale)
    (huid : scale.value.uid = attempt.targetUID)
    (hcount : attempt.count ≠ scale.value.replicas)
    (hphase : s.phase = .scaleRead attempt scale) (expired : Bool) (now : ℤ) :
    (runTrace writeStep s (attemptSteps expired now).tail).filterMap
        (·.report.result) =
      [if (s.answers attempt).identityGuard = false then .refused
        else if expired then .expired else .written] := by
  cases hpa : s.autoscaler with
  | none =>
      cases expired <;>
        simp [runTrace, attemptSteps, entryAt, writeStep, hphase,
          guardAutoscaler, hpa, WriteState.abort, WriteState.answers]
  | some fresh =>
      by_cases haccepts : attempt.Accepts fresh
      · obtain ⟨hfresh, hgeneration, hmode⟩ := haccepts
        cases expired <;>
          simp [runTrace, attemptSteps, entryAt, writeStep, hphase,
            guardAutoscaler, guardTarget, writeScale, hpa, hfresh,
            hgeneration, hmode, hstored, huid, hcount, WriteState.abort,
            WriteState.answers]
      · have hguard : (s.answers attempt).identityGuard = false := by
          simpa [WriteState.answers, hpa, Attempt.Accepts, and_assoc] using
            haccepts
        have hrefused : fresh.uid ≠ attempt.autoscaler.uid ∨
            fresh.generation ≠ attempt.autoscaler.generation ∨
            fresh.mode ≠ .active := by
          simpa [Attempt.Accepts, imp_iff_not_or] using haccepts
        rw [if_pos hguard]
        cases expired <;>
          simp [runTrace, attemptSteps, entryAt, writeStep, hphase,
            guardAutoscaler, hpa, hrefused, WriteState.abort]

/-- Without interference an attempt ends once, as the reconcile's `write` with
the answers of the cluster. -/
theorem uninterrupted_write (s : WriteState) (attempt : Attempt)
    (hphase : s.phase = .decided attempt)
    (hcount : attempt.count ≠ attempt.replicas)
    (policy : Option (V2Policy × V2Forecast)) (check now : ℤ) :
    (runTrace writeStep s (attemptSteps
        (policy.any fun p => !p.2.actionable check) now)).filterMap
        (·.report.result) =
      [write (s.answers attempt) policy check] := by
  cases hstored : s.target.stored with
  | none =>
      cases policy.any fun p => !p.2.actionable check <;>
        simp [runTrace, attemptSteps, entryAt, writeStep, hphase, readScale,
          hstored, WriteState.abort, write, WriteState.answers]
  | some scale =>
      by_cases hstale : scale.value.uid = "" ∨ attempt.targetUID = "" ∨
          scale.value.uid ≠ attempt.targetUID ∨
          scale.value.replicas ≠ attempt.replicas
      · cases policy.any fun p => !p.2.actionable check <;>
          simp [runTrace, attemptSteps, entryAt, writeStep, hphase, readScale,
            hstored, hstale, WriteState.abort, write, WriteState.answers]
      · have hstep : writeStep s (.freshScale true) =
            ({ s with phase := .scaleRead attempt scale }, {}) := by
          simp only [writeStep, hphase, readScale, hstored, if_neg hstale]
        have hfresh : (s.answers attempt).freshScale = .matching := by
          simp only [WriteState.answers, hstored, if_neg hstale]
        push Not at hstale
        have hrest := undisturbed_results
          (s := { s with phase := .scaleRead attempt scale }) hstored
          hstale.2.2.1 (by rw [hstale.2.2.2]; exact hcount) rfl
          (policy.any fun p => !p.2.actionable check) now
        have hupdate : (s.answers attempt).update = .applied := rfl
        have hanswers : ({ s with phase := .scaleRead attempt scale } :
            WriteState).answers attempt = s.answers attempt := rfl
        rw [hanswers] at hrest
        simp only [write, hfresh, hupdate]
        rw [← hrest]
        simp only [attemptSteps, runTrace, entryAt, hstep,
          List.filterMap_cons_none, List.tail_cons]

namespace ScaleWriteWitness

def autoscaler : StoredAutoscaler := ⟨"autoscaler", 3, .active⟩

/-- Ten replicas, decided to be twelve. -/
def attempt : Attempt := ⟨autoscaler, "target", 10, 12⟩

def state : WriteState where
  target := ⟨some ⟨7, "target", 10⟩, 7, by rintro p ⟨⟩; decide⟩
  autoscaler := some autoscaler
  phase := .idle
  scale := {}

/-- The autoscaler is switched to Recommend after it authorized the write. -/
def interleaved : List WriteEvent :=
  [.decide attempt, .freshScale true, .guardAutoscaler true,
    .change (.editAutoscaler .recommend), .guardTarget true,
    .update .reported 0]

end ScaleWriteWitness

theorem interleaved_compareAndSet :
    ∃ past e, runTrace writeStep ScaleWriteWitness.state
        ScaleWriteWitness.interleaved = past ++ [e] ∧
      e.report.replaced = some (ScaleWriteWitness.attempt, ⟨"target", 10⟩) ∧
      ∃ scale, AuthorizedSinceRead past ScaleWriteWitness.attempt scale := by
  have hlast : ∃ past e, runTrace writeStep ScaleWriteWitness.state
      ScaleWriteWitness.interleaved = past ++ [e] ∧
      e.report.replaced = some (ScaleWriteWitness.attempt, ⟨"target", 10⟩) :=
    ⟨(runTrace writeStep ScaleWriteWitness.state
      ScaleWriteWitness.interleaved).take 5, _, rfl, rfl⟩
  obtain ⟨past, e, htrace, hreplaced⟩ := hlast
  have h := (scaleWrite_compareAndSet ScaleWriteWitness.state rfl
    ScaleWriteWitness.interleaved).1 past e [] htrace _ _ hreplaced
  exact ⟨past, e, htrace, hreplaced, h.2.2.2⟩

end PredictiveAutoscaler
