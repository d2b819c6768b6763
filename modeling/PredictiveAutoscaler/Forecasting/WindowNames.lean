/-
What a window's end names.  The ledgers and the calibration rely on one
issuance per origin in an epoch, yet the evidence key leaves out settings that
the issuance key contains.  While the requests of one epoch and origin carry
the same settings, the end of a window names its issuance; an edit of the other
settings within one interval issues an origin twice.
-/
import PredictiveAutoscaler.Forecasting.Compaction

namespace PredictiveAutoscaler.Forecasting

open Std (ExtTreeMap)

/-- The requests of a list that reach the journal for one epoch and one origin
carry the same settings. -/
def SettingsStable (calls : List Call) : Prop :=
  ∀ call ∈ calls, ∀ call' ∈ calls, ∀ bound lead grid bound' lead' grid',
    call.Reaches bound lead grid → call'.Reaches bound' lead' grid' →
    bound.evidenceKey lead = bound'.evidenceKey lead' →
    bound.decisionOrigin = bound'.decisionOrigin →
    bound.settings = bound'.settings

/-- The state of an epoch that the journal holds, or that is recovered from
it. -/
def Store.Gives (s : Store) (recipes : Recipes) (ctx : RecoverContext)
    (state : EpochState) : Prop :=
  state = s.startState recipes ctx.ek ∨
    Forecasting.recover ctx s.toJournal (s.startState recipes ctx.ek) =
      .ok state

/-- One issuance per origin in an epoch, and what relies on it: the end of a
window names its issuance, the buffered windows do not overlap and no issuance
that is folded finds its window pending. -/
structure Store.WindowsNamed (s : Store) (recipes : Recipes) : Prop where
  origin : ∀ iss ∈ s.issuances, ∀ iss' ∈ s.issuances,
    iss.key.evidenceKey = iss'.key.evidenceKey →
    iss.key.decisionOrigin = iss'.key.decisionOrigin → iss = iss'
  windowEnd : ∀ iss ∈ s.issuances, ∀ iss' ∈ s.issuances,
    iss.key.evidenceKey = iss'.key.evidenceKey →
    iss.key.windowEnd = iss'.key.windowEnd → iss = iss'
  apart : ∀ ctx state, ctx.policy.leadSeconds = ctx.ek.leadSeconds →
    s.Gives recipes ctx state → ∀ model m, state.models model = some m →
    m.calibration.scores.Pairwise fun a b => a.1 + ctx.ek.leadSeconds ≤ b.1
  pending : ∀ (ctx : RecoverContext) earlier iss later state,
    s.issuancesAfter ctx.ek (s.startState recipes ctx.ek).lastIssuanceSeq =
      earlier ++ iss :: later →
    earlier.foldlM (foldIssuance ctx) (s.startState recipes ctx.ek) =
      .ok state → ∀ model m, state.models model = some m →
    iss.key.windowEnd ∉ m.ledger.pending

/-- Keys of which the end of a window names one in its epoch. -/
structure Naming (K : IssuanceKey → Prop) : Prop where
  windowEnd_eq : ∀ key, K key →
    key.windowEnd = key.decisionOrigin + key.evidenceKey.leadSeconds
  unique : ∀ key key', K key → K key' →
    key.evidenceKey = key'.evidenceKey →
    key.decisionOrigin = key'.decisionOrigin → key = key'

theorem Naming.eq_of_windowEnd {K : IssuanceKey → Prop} (h : Naming K)
    {key key' : IssuanceKey} (hkey : K key) (hkey' : K key')
    (hek : key.evidenceKey = key'.evidenceKey)
    (hend : key.windowEnd = key'.windowEnd) : key = key' := by
  refine h.unique key key' hkey hkey' hek ?_
  rw [h.windowEnd_eq key hkey, h.windowEnd_eq key' hkey', hek] at hend
  exact Nat.add_right_cancel hend

/-- The keys that the requests of a list may issue. -/
def Issuable (calls : List Call) (key : IssuanceKey) : Prop :=
  ∃ call ∈ calls, ∃ ic, call.Issues key ic

theorem SettingsStable.naming {calls : List Call} (h : SettingsStable calls) :
    Naming (Issuable calls) where
  windowEnd_eq := by
    rintro key ⟨call, -, ic, hissues⟩
    rw [hissues.key_eq]
    rfl
  unique := by
    rintro key key' ⟨call, hcall, ic, hissues⟩ ⟨call', hcall', ic', hissues'⟩
      hek horigin
    have hkey := hissues.key_eq
    have hkey' := hissues'.key_eq
    rw [hkey, hkey'] at hek horigin
    have hsettings := h call hcall call' hcall' _ _ _ _ _ _ hissues.reaches
      hissues'.reaches hek horigin
    have hlead : ic.lead.leadSeconds = ic'.lead.leadSeconds :=
      congrArg EvidenceKey.leadSeconds hek
    rw [hkey, hkey', IssuanceKey.mk.injEq]
    refine ⟨hek, horigin, ?_, hsettings⟩
    change ic.bound.decisionOrigin + _ = ic'.bound.decisionOrigin + _
    rw [hlead]
    exact congrArg (· + _) horigin

section Model

variable {K : IssuanceKey → Prop} {s s' : Store} {ek : EvidenceKey}
  {model : Model} {m : ModelState} {issuanceSeq outcomeSeq : ℕ}

/-- The windows of a model's state are those of keys whose rows were folded or
are gone: the buffered ones on the lead's grid, in order. -/
structure ModelState.Named (m : ModelState) (K : IssuanceKey → Prop)
    (s : Store) (ek : EvidenceKey) (model : Model)
    (issuanceSeq outcomeSeq : ℕ) : Prop where
  increasing : m.calibration.scores.Pairwise fun a b => a.1 < b.1
  on_grid : ∀ score ∈ m.calibration.scores, score.1 % ek.leadSeconds = 0
  score : ∀ score ∈ m.calibration.scores, ∃ key, K key ∧
    key.evidenceKey = ek ∧ key.windowEnd = score.1 ∧
      ((∃ o ∈ s.outcomes, o.issuanceId = key ∧ o.model = model ∧
        o.seq ≤ outcomeSeq) ∨ s.Gone key)
  pending : ∀ windowEnd ∈ m.ledger.pending, ∃ key, K key ∧
    key.evidenceKey = ek ∧ key.windowEnd = windowEnd ∧
      ((∃ iss ∈ s.issuances, iss.key = key ∧ iss.seq ≤ issuanceSeq) ∨
        s.Gone key)

theorem ModelState.named_fresh (ctx : RecoverContext) (recipe : String) :
    (freshModel ctx model recipe).Named K s ctx.ek model issuanceSeq
      outcomeSeq where
  increasing := .nil
  on_grid := fun _ h => nomatch h
  score := fun _ h => nomatch h
  pending := fun _ h => absurd h ExtTreeMap.not_mem_empty

/-- A later store with later cursors. -/
theorem ModelState.Named.extends
    (h : m.Named K s ek model issuanceSeq outcomeSeq) (hs : s.Extends s')
    {issuanceSeq' outcomeSeq' : ℕ} (hissuance : issuanceSeq ≤ issuanceSeq')
    (houtcome : outcomeSeq ≤ outcomeSeq') :
    m.Named K s' ek model issuanceSeq' outcomeSeq' where
  increasing := h.increasing
  on_grid := h.on_grid
  score := by
    intro score hscore
    obtain ⟨key, hkey, hek, hend, hrow⟩ := h.score score hscore
    refine ⟨key, hkey, hek, hend, ?_⟩
    rcases hrow with ⟨o, ho, hid, hmodel, hle⟩ | hgone
    · rcases hs.outcome o ho with hkept | hgone
      · exact .inl ⟨o, hkept, hid, hmodel, hle.trans houtcome⟩
      · rw [hid] at hgone
        exact .inr hgone
    · exact .inr (hs.gone key hgone)
  pending := by
    intro windowEnd hpending
    obtain ⟨key, hkey, hek, hend, hrow⟩ := h.pending windowEnd hpending
    refine ⟨key, hkey, hek, hend, ?_⟩
    rcases hrow with ⟨iss, hiss, hid, hle⟩ | hgone
    · rcases hs.issuance iss hiss with hkept | hgone
      · exact .inl ⟨iss, hkept, hid, hle.trans hissuance⟩
      · rw [hid] at hgone
        exact .inr hgone
    · exact .inr (hs.gone key hgone)

theorem Ledger.mem_pending_prune {ledger : Ledger} {now retention windowEnd : ℕ}
    (h : windowEnd ∈ (ledger.prune now retention).pending) :
    windowEnd ∈ ledger.pending :=
  ExtTreeMap.mem_of_mem_filter h

theorem Ledger.mem_pending_withIssuance {ledger : Ledger} {note : IssuanceNote}
    {windowEnd : ℕ} (h : windowEnd ∈ (ledger.withIssuance note).pending) :
    windowEnd ∈ ledger.pending ∨ windowEnd = note.windowEnd := by
  unfold Ledger.withIssuance at h
  split at h
  · exact .inl h
  have hadded := Ledger.mem_pending_prune h
  unfold Ledger.addIssuance at hadded
  cases hmode : note.mode with
  | replay =>
      rw [hmode] at hadded
      exact .inl hadded
  | prospective =>
      rw [hmode] at hadded
      rcases ExtTreeMap.mem_insert.mp hadded with heq | hold
      · exact .inr (compare_eq_iff_eq.mp heq).symm
      · exact .inl hold

theorem Ledger.mem_pending_withOutcome {ledger : Ledger} {r : EvidenceRecord}
    {lead recentN windowEnd : ℕ} {nominal : ℚ}
    (h : windowEnd ∈ (ledger.withOutcome r lead recentN nominal).pending) :
    windowEnd ∈ ledger.pending := by
  unfold Ledger.withOutcome at h
  split at h
  · exact h
  have hadded := Ledger.mem_pending_prune h
  unfold Ledger.addOutcome at hadded
  cases hbound : r.gateBound lead with
  | none =>
      rw [hbound] at hadded
      exact ExtTreeMap.mem_of_mem_erase hadded
  | some bound =>
      rw [hbound] at hadded
      exact ExtTreeMap.mem_of_mem_erase hadded

/-- One of the model's own issuances is noted. -/
theorem ModelState.Named.noteIssuance
    (h : m.Named K s ek model issuanceSeq outcomeSeq) {iss : Issuance}
    (hiss : iss ∈ s.issuances) (hkey : K iss.key)
    (hek : iss.key.evidenceKey = ek) (hle : iss.seq ≤ issuanceSeq)
    {note : IssuanceNote} (hend : note.windowEnd = iss.key.windowEnd)
    {ledger : Ledger} (hnote : m.ledger.noteIssuance note = .ok ledger) :
    ({ m with ledger } : ModelState).Named K s ek model issuanceSeq
      outcomeSeq := by
  unfold Ledger.noteIssuance at hnote
  split at hnote
  · cases hnote
    refine ⟨h.increasing, h.on_grid, h.score, fun windowEnd hpending => ?_⟩
    rcases Ledger.mem_pending_withIssuance hpending with hold | rfl
    · exact h.pending windowEnd hold
    · exact ⟨iss.key, hkey, hek, hend.symm, .inl ⟨iss, hiss, rfl, hle⟩⟩
  · cases hnote

/-- A record leaves the buffer as it is, or its window of the cohort enters
it. -/
theorem CalibrationState.applied_scores (state : CalibrationState)
    (record : CalibrationRecord) (policy : CalibrationPolicy) :
    (state.applied record policy).scores = state.scores ∨
      ∃ y, inCohort record.decisionOrigin policy.leadSeconds = true ∧
        (state.applied record policy).scores =
          (state.pushScore record policy y).scores := by
  unfold Calibration.State.applied
  split
  · exact .inl rfl
  cases record.truth with
  | unscorable => exact .inl rfl
  | scored y =>
      unfold Calibration.State.applyScored
      dsimp only
      split
      · rename_i hcohort
        refine .inr ⟨y, hcohort, ?_⟩
        cases record.upperRps <;> rfl
      · exact .inl rfl

/-- The window that enters the buffer takes its place in the order. -/
theorem CalibrationState.pushScore_scores {state : CalibrationState}
    {record : CalibrationRecord} (policy : CalibrationPolicy) (y : ℚ)
    (hordered : state.scores.Pairwise fun a b => a.1 < b.1)
    (hnew : ∀ score ∈ state.scores, score.1 ≠ record.windowEnd) :
    (state.pushScore record policy y).scores.Pairwise
        (fun a b => a.1 < b.1) ∧
      ∀ score ∈ (state.pushScore record policy y).scores,
        score ∈ state.scores ∨ score.1 = record.windowEnd := by
  let rows := state.scores ++ [(record.windowEnd, binary64 (y - record.baseRps))]
  let sorted := rows.insertionSort fun a b => a.1 ≤ b.1
  have hsub : (state.pushScore record policy y).scores.Sublist sorted :=
    (lastSlice_sublist _ _).trans List.filter_sublist
  have hdistinct : rows.Pairwise fun a b => a.1 ≠ b.1 :=
    pairwise_snoc (hordered.imp fun hlt => Nat.ne_of_lt hlt) hnew
  have hperm : sorted.Perm rows := List.perm_insertionSort _ _
  have hne : sorted.Pairwise fun a b => a.1 ≠ b.1 :=
    hperm.symm.pairwise hdistinct fun hab => hab.symm
  have hle : sorted.Pairwise fun a b => a.1 ≤ b.1 := by
    have : IsTrans (ℕ × ℚ) fun a b => a.1 ≤ b.1 :=
      ⟨fun _ _ _ => Nat.le_trans⟩
    have : Std.Total fun a b : ℕ × ℚ => a.1 ≤ b.1 :=
      ⟨fun a b => Nat.le_total a.1 b.1⟩
    exact List.pairwise_insertionSort _ _
  refine ⟨((hle.and hne).imp fun h => Nat.lt_of_le_of_ne h.1 h.2).sublist
    hsub, fun score hscore => ?_⟩
  rcases List.mem_append.mp (hperm.mem_iff.mp (hsub.subset hscore)) with h | h
  · exact .inl h
  · rw [List.mem_singleton.mp h]
    exact .inr rfl

/-- An outcome that was not folded is of a window that is not buffered. -/
theorem ModelState.Named.score_ne
    (h : m.Named K s ek model issuanceSeq outcomeSeq) (hK : Naming K)
    (hs : s.Tidy) {o : Outcome} (ho : o ∈ s.outcomes)
    (hnew : outcomeSeq < o.seq) (hmodel : o.model = model)
    (hkey : K o.issuanceId) (hek : o.issuanceId.evidenceKey = ek) :
    ∀ score ∈ m.calibration.scores, score.1 ≠ o.issuanceId.windowEnd := by
  intro score hscore hend
  obtain ⟨key, hkey', hek', hend', hrow⟩ := h.score score hscore
  have hsame : key = o.issuanceId :=
    hK.eq_of_windowEnd hkey' hkey (hek'.trans hek.symm) (hend'.trans hend)
  rcases hrow with ⟨folded, hfolded, hid, hmodel', hle⟩ | hgone
  · -- The outcomes of one issuance and one model are one row.
    have hrows : s.outcomes.Pairwise fun a b =>
        (a.issuanceId, a.model) ≠ (b.issuanceId, b.model) :=
      hs.outcomes_distinct.imp fun hne heq => hne (Prod.mk.inj heq)
    have hdistinct : folded = o := eq_of_pairwise_ne hrows hfolded ho
      (Prod.ext (hid.trans hsame) (hmodel'.trans hmodel.symm))
    rw [hdistinct] at hle
    omega
  · obtain ⟨iss, hiss, hbelongs⟩ := hs.belongs o ho
    have hnone := Rows.issuance?_eq_none.mp hgone.1 iss hiss
    exact hnone (hbelongs.id_eq.symm.trans hsame.symm)

/-- The record of an outcome that was not folded is applied and noted. -/
theorem ModelState.Named.withRecord
    (h : m.Named K s ek model issuanceSeq outcomeSeq) (hK : Naming K)
    (hs : s.Tidy) {o : Outcome} (ho : o ∈ s.outcomes)
    (hnew : outcomeSeq < o.seq) (hmodel : o.model = model)
    (hkey : K o.issuanceId) (hek : o.issuanceId.evidenceKey = ek)
    {ctx : RecoverContext} (hlead : ctx.policy.leadSeconds = ek.leadSeconds)
    {r : EvidenceRecord} (hend : r.cal.windowEnd = o.issuanceId.windowEnd)
    (horigin : r.cal.decisionOrigin = o.issuanceId.decisionOrigin) :
    (m.withRecord ctx r).Named K s ek model issuanceSeq o.seq := by
  have hmono := h.extends (.refl s) (Nat.le_refl _) (Nat.le_of_lt hnew)
  have hpending : ∀ windowEnd ∈ (m.withRecord ctx r).ledger.pending,
      windowEnd ∈ m.ledger.pending := fun windowEnd hmem =>
    Ledger.mem_pending_withOutcome hmem
  rcases m.calibration.applied_scores r.cal ctx.policy with
    hsame | ⟨y, hcohort, hpushed⟩
  · have hscores : (m.withRecord ctx r).calibration.scores =
        m.calibration.scores := hsame
    refine ⟨?_, ?_, ?_, fun w hw => hmono.pending w (hpending w hw)⟩
    · rw [hscores]
      exact h.increasing
    · rw [hscores]
      exact h.on_grid
    · rw [hscores]
      exact hmono.score
  · have hscores : (m.withRecord ctx r).calibration.scores =
        (m.calibration.pushScore r.cal ctx.policy y).scores := hpushed
    have hne := h.score_ne hK hs ho hnew hmodel hkey hek
    rw [← hend] at hne
    obtain ⟨hordered, hmem⟩ :=
      CalibrationState.pushScore_scores ctx.policy y h.increasing hne
    refine ⟨?_, ?_, ?_, fun w hw => hmono.pending w (hpending w hw)⟩
    · rw [hscores]
      exact hordered
    · rw [hscores]
      intro score hscore
      rcases hmem score hscore with hold | hnewest
      · exact h.on_grid score hold
      · rw [inCohort_nat, hlead, horigin] at hcohort
        rw [hnewest, hend, hK.windowEnd_eq _ hkey, hek, Nat.add_mod_right]
        exact hcohort
    · rw [hscores]
      intro score hscore
      rcases hmem score hscore with hold | hnewest
      · exact hmono.score score hold
      · exact ⟨o.issuanceId, hkey, hek, (hnewest.trans hend).symm,
          .inl ⟨o, ho, rfl, hmodel, Nat.le_refl _⟩⟩

end Model

section Epoch

variable {K : IssuanceKey → Prop} {s s' : Store} {ek : EvidenceKey}
  {state next : EpochState} {ctx : RecoverContext}
  {issuanceSeq outcomeSeq : ℕ}

def EpochState.NamedUpTo (state : EpochState) (K : IssuanceKey → Prop)
    (s : Store) (ek : EvidenceKey) (issuanceSeq outcomeSeq : ℕ) : Prop :=
  ∀ model m, state.models model = some m →
    m.Named K s ek model issuanceSeq outcomeSeq

/-- Every window that a state holds is that of a folded row, or its key is
gone. -/
def WindowsOf (K : IssuanceKey → Prop) (ek : EvidenceKey) (s : Store)
    (state : EpochState) : Prop :=
  state.NamedUpTo K s ek state.lastIssuanceSeq state.lastOutcomeSeq

theorem EpochState.NamedUpTo.modelState
    (h : state.NamedUpTo K s ctx.ek issuanceSeq outcomeSeq) (model : Model)
    (recipe : String) :
    (state.modelState ctx model recipe).Named K s ctx.ek model issuanceSeq
      outcomeSeq := by
  unfold EpochState.modelState
  cases hm : state.models model with
  | none => exact ModelState.named_fresh ctx recipe
  | some m =>
      dsimp only
      split
      · exact h model m hm
      · exact ModelState.named_fresh ctx recipe

theorem EpochState.NamedUpTo.setModel
    (h : state.NamedUpTo K s ek issuanceSeq outcomeSeq) {model : Model}
    {m : ModelState} (hm : m.Named K s ek model issuanceSeq outcomeSeq) :
    (state.setModel model m).NamedUpTo K s ek issuanceSeq outcomeSeq := by
  intro model' m' hm'
  simp only [EpochState.setModel, Function.update_apply] at hm'
  split at hm'
  · rename_i heq
    rw [heq, ← Option.some.inj hm']
    exact hm
  · exact h model' m' hm'

theorem EpochState.NamedUpTo.extends
    (h : state.NamedUpTo K s ek issuanceSeq outcomeSeq) (hs : s.Extends s')
    {issuanceSeq' outcomeSeq' : ℕ} (hissuance : issuanceSeq ≤ issuanceSeq')
    (houtcome : outcomeSeq ≤ outcomeSeq') :
    state.NamedUpTo K s' ek issuanceSeq' outcomeSeq' :=
  fun model m hm => (h model m hm).extends hs hissuance houtcome

/-- A later issuance of the epoch is folded. -/
theorem WindowsOf.foldIssuance (h : WindowsOf K ctx.ek s state)
    {iss : Issuance} (hiss : iss ∈ s.issuances) (hkey : K iss.key)
    (hek : iss.key.evidenceKey = ctx.ek)
    (hlater : state.lastIssuanceSeq < iss.seq)
    (hfold : Forecasting.foldIssuance ctx state iss = .ok next) :
    WindowsOf K ctx.ek s next := by
  have hcursors := foldIssuance_cursors hfold
  unfold Forecasting.foldIssuance at hfold
  obtain ⟨folded, hfolded, hnext⟩ := Except.bind_eq_ok_iff.mp hfold
  have hstart : state.NamedUpTo K s ctx.ek iss.seq state.lastOutcomeSeq :=
    EpochState.NamedUpTo.extends h (.refl s) (Nat.le_of_lt hlater)
      (Nat.le_refl _)
  have hend : folded.NamedUpTo K s ctx.ek iss.seq state.lastOutcomeSeq := by
    refine foldlM_keeps (P := fun state' : EpochState => state'.NamedUpTo K s
      ctx.ek iss.seq state.lastOutcomeSeq) ?_ hstart hfolded
    intro state' model _ next' hstate' hcandidate
    unfold foldCandidate at hcandidate
    obtain ⟨c, -, hcandidate⟩ := Except.bind_eq_ok_iff.mp hcandidate
    obtain ⟨ledger, hnote, hcandidate⟩ := Except.bind_eq_ok_iff.mp hcandidate
    cases hcandidate
    exact hstate'.setModel ((hstate'.modelState model c.recipe).noteIssuance
      hiss hkey hek (Nat.le_refl _) rfl hnote)
  unfold WindowsOf
  rw [hcursors.1, hcursors.2]
  cases hnext
  exact hend

/-- A later outcome of the epoch is folded. -/
theorem WindowsOf.foldOutcome (h : WindowsOf K ctx.ek s state)
    (hK : Naming K) (hs : s.Tidy) (hkeys : ∀ iss ∈ s.issuances, K iss.key)
    (hlead : ctx.policy.leadSeconds = ctx.ek.leadSeconds) {o : Outcome}
    (ho : o ∈ s.outcomes) (hek : o.evidenceKey = ctx.ek)
    (hlater : state.lastOutcomeSeq < o.seq)
    (hfold : Forecasting.foldOutcome ctx s.toJournal state o = .ok next) :
    WindowsOf K ctx.ek s next := by
  have hcursors := foldOutcome_cursors hfold
  obtain ⟨iss, hiss, hbelongs⟩ := hs.belongs o ho
  have hkey : K o.issuanceId := by
    rw [hbelongs.id_eq]
    exact hkeys iss hiss
  have hissEk : o.issuanceId.evidenceKey = ctx.ek := by
    rw [hbelongs.id_eq, ← hbelongs.evidenceKey_eq]
    exact hek
  unfold Forecasting.foldOutcome at hfold
  obtain ⟨r, hr, hfold⟩ := Except.bind_eq_ok_iff.mp hfold
  obtain ⟨found, c, truth, hfound, -, hcal, -⟩ := Journal.record_eq_ok hr
  have hfoundKey := Rows.issuance?_key hfound
  have hmodel : o.model = r.cal.model := by
    rw [hcal]
    rfl
  unfold foldRecord at hfold
  obtain ⟨calibration, happly, hfold⟩ := Except.bind_eq_ok_iff.mp hfold
  obtain ⟨ledger, hnote, hfold⟩ := Except.bind_eq_ok_iff.mp hfold
  obtain ⟨pairs, -, hfold⟩ := Except.bind_eq_ok_iff.mp hfold
  cases hfold
  have hm := EpochState.NamedUpTo.modelState h r.cal.model r.cal.recipe
  have hnamed := hm.withRecord hK hs ho hlater hmodel hkey hissEk hlead
    (by rw [hcal, ← hfoundKey]; rfl) (by rw [hcal, ← hfoundKey]; rfl)
  unfold Calibration.State.apply at happly
  unfold Ledger.noteOutcome at hnote
  split at happly
  · cases happly
  split at happly
  · cases happly
  split at hnote
  · cases happly
    cases hnote
    have hmono := EpochState.NamedUpTo.extends h (.refl s)
      (Nat.le_refl state.lastIssuanceSeq) (Nat.le_of_lt hlater)
    unfold WindowsOf
    rw [hcursors.1, hcursors.2]
    exact hmono.setModel hnamed
  · cases hnote

/-- The rows of an epoch after a cursor, in order. -/
theorem Store.Tidy.issuancesAfter_ordered (hs : s.Tidy) (ek : EvidenceKey)
    (seq : ℕ) :
    ((s.issuancesAfter ek seq).Pairwise fun a b => a.seq < b.seq) ∧
      ∀ iss ∈ s.issuancesAfter ek seq, iss ∈ s.issuances ∧
        iss.key.evidenceKey = ek ∧ seq < iss.seq := by
  refine ⟨hs.issuances_ordered.filter _, fun iss hiss => ?_⟩
  obtain ⟨hmem, hafter⟩ := List.mem_filter.mp hiss
  rw [Bool.and_eq_true, decide_eq_true_eq, decide_eq_true_eq] at hafter
  exact ⟨hmem, hafter⟩

/-- The first issuances after the cursor are folded. -/
theorem WindowsOf.foldIssuances (h : WindowsOf K ctx.ek s state)
    (hkeys : ∀ iss ∈ s.issuances, K iss.key) {items : List Issuance}
    (hordered : items.Pairwise fun a b => a.seq < b.seq)
    (hitems : ∀ iss ∈ items, iss ∈ s.issuances ∧
      iss.key.evidenceKey = ctx.ek ∧ state.lastIssuanceSeq < iss.seq)
    (hfold : items.foldlM (Forecasting.foldIssuance ctx) state = .ok next) :
    WindowsOf K ctx.ek s next := by
  refine @foldlM_keeps_after _ _ _ Rows.Issuance.seq _ _
    EpochState.lastIssuanceSeq _
    (fun state' iss hiss next' hstate' hlater hstep => ?_) hordered _ _
    (fun iss hiss => (hitems iss hiss).2.2) h hfold
  obtain ⟨hmem, hek, -⟩ := hitems iss hiss
  exact ⟨hstate'.foldIssuance hmem (hkeys iss hmem) hek hlater hstep,
    (foldIssuance_cursors hstep).1⟩

theorem WindowsOf.recovered (h : WindowsOf K ctx.ek s state) (hK : Naming K)
    (hs : s.Tidy) (hkeys : ∀ iss ∈ s.issuances, K iss.key)
    (hlead : ctx.policy.leadSeconds = ctx.ek.leadSeconds)
    (hrecover : recover ctx s.toJournal state = .ok next) :
    WindowsOf K ctx.ek s next := by
  unfold recover twoPass at hrecover
  obtain ⟨folded, hissuances, houtcomes⟩ := Except.bind_eq_ok_iff.mp hrecover
  obtain ⟨hordered, hitems⟩ :=
    hs.issuancesAfter_ordered ctx.ek state.lastIssuanceSeq
  have hfolded := h.foldIssuances hkeys hordered hitems hissuances
  have hcursor : folded.lastOutcomeSeq = state.lastOutcomeSeq :=
    foldlM_keeps (P := fun state' : EpochState =>
      state'.lastOutcomeSeq = state.lastOutcomeSeq)
      (fun _ _ _ _ hs hstep => (foldIssuance_cursors hstep).2.trans hs) rfl
      hissuances
  have hafter : ∀ o ∈ s.outcomesAfter ctx.ek state.lastOutcomeSeq,
      o ∈ s.outcomes ∧ o.evidenceKey = ctx.ek ∧
        state.lastOutcomeSeq < o.seq :=
    fun o ho => Rows.mem_outcomesAfter.mp ho
  refine @foldlM_keeps_after _ _ _ Rows.Outcome.seq _ _
    EpochState.lastOutcomeSeq _
    (fun state' o ho next' hstate' hlater hstep => ?_)
    (hs.outcomes_ordered.filter _) _ _ (fun o ho => ?_) hfolded houtcomes
  · obtain ⟨hmem, hek, -⟩ := hafter o ho
    exact ⟨hstate'.foldOutcome hK hs hkeys hlead hmem hek hlater hstep,
      (foldOutcome_cursors hstep).1⟩
  · rw [hcursor]
    exact (hafter o ho).2.2

/-- A build only starts models over. -/
theorem WindowsOf.built {config : ServiceConfig} {ic : IssueContext}
    {call : Call} {healthy : Bool} {bundle : Bundle}
    (h : WindowsOf K ic.ek s state)
    (hbuild : build config ic call healthy state = .ok (bundle, next)) :
    WindowsOf K ic.ek s next := by
  have hcursors := build_cursors hbuild
  unfold build at hbuild
  simp only at hbuild
  split at hbuild
  · cases hbuild
  obtain ⟨built, hbuilt, hbuild⟩ := Except.bind_eq_ok_iff.mp hbuild
  obtain ⟨verdict, -, hbuild⟩ := Except.bind_eq_ok_iff.mp hbuild
  cases hbuild
  have hnamed : built.state.NamedUpTo K s ic.ek state.lastIssuanceSeq
      state.lastOutcomeSeq := by
    refine foldlM_keeps (P := fun b : Built => b.state.NamedUpTo K s ic.ek
      state.lastIssuanceSeq state.lastOutcomeSeq) (s := { state }) ?_ h hbuilt
    intro b p _ b' hb hcandidate
    unfold buildCandidate at hcandidate
    obtain ⟨bounded, -, hcandidate⟩ := Except.bind_eq_ok_iff.mp hcandidate
    cases hcandidate
    exact hb.setModel (EpochState.NamedUpTo.modelState hb p.model p.recipe)
  unfold WindowsOf
  rw [hcursors.1, hcursors.2]
  exact hnamed

end Epoch

/-- The rows are tidy and every key is one of the given ones. -/
def Store.KeyedBy (K : IssuanceKey → Prop) (s : Store) : Prop :=
  s.Tidy ∧ ∀ iss ∈ s.issuances, K iss.key

theorem Store.Commit.keyedBy {K : IssuanceKey → Prop} {key : IssuanceKey}
    {untilMs : ℕ∞} {s s' : Store} (hcommit : s.Commit key untilMs s')
    (hkey : K key) (hs : s.KeyedBy K) : s'.KeyedBy K := by
  refine ⟨hcommit.tidy hs.1, ?_⟩
  cases hcommit with
  | observed samples => exact hs.2
  | matured payload _ _ _ _ _ _ => exact hs.2
  | checkpointed next _ => exact hs.2
  | issued bundle nowMs _ _ _ =>
      intro iss hiss
      rcases List.mem_append.mp hiss with hiss | hiss
      · exact hs.2 iss hiss
      · rw [List.mem_singleton.mp hiss]
        exact hkey
  | compacted config now =>
      unfold Store.compact
      dsimp only
      split
      · exact hs.2
      · exact fun iss hiss => hs.2 iss (List.mem_of_mem_filter hiss)

theorem requestInvariant_windows (config : ServiceConfig)
    {K : IssuanceKey → Prop} (hK : Naming K) {key : IssuanceKey}
    (hkey : K key) :
    RequestInvariant config key ⊤ (Store.KeyedBy K) (WindowsOf K) where
  commit _ _ hs hcommit := hcommit.keyedBy hkey hs
  state _ _ _ _ hs hstate hcommit :=
    EpochState.NamedUpTo.extends hstate (hcommit.extends hs.1) (Nat.le_refl _)
      (Nat.le_refl _)
  initial _ _ := fun _ _ hm => nomatch hm
  recovered _ _ _ _ _ hlead hs hstate hrecover :=
    hstate.recovered hK hs.1 hs.2 hlead hrecover
  built _ _ _ _ _ _ _ _ _ hstate hbuild := hstate.built hbuild

/-- What names its windows, does. -/
theorem Store.Holds.windowsNamed {K : IssuanceKey → Prop} (hK : Naming K)
    {s : Store} (hs : s.Holds (Store.KeyedBy K) (WindowsOf K))
    (recipes : Recipes) : s.WindowsNamed recipes := by
  have hstart : ∀ ek, WindowsOf K ek s (s.startState recipes ek) := by
    intro ek
    unfold Store.startState
    cases hcp : s.latestCheckpoint ek with
    | none => exact fun _ _ hm => nomatch hm
    | some cp => exact (hs.2 ek cp hcp).2
  have hsame : ∀ iss ∈ s.issuances, ∀ iss' ∈ s.issuances,
      iss.key = iss'.key → iss = iss' := fun iss hiss iss' hiss' heq =>
    eq_of_pairwise_ne hs.1.1.keys_distinct hiss hiss' heq
  refine ⟨?_, ?_, ?_, ?_⟩
  · intro iss hiss iss' hiss' hek horigin
    exact hsame iss hiss iss' hiss' (hK.unique _ _ (hs.1.2 iss hiss)
      (hs.1.2 iss' hiss') hek horigin)
  · intro iss hiss iss' hiss' hek hend
    exact hsame iss hiss iss' hiss' (hK.eq_of_windowEnd (hs.1.2 iss hiss)
      (hs.1.2 iss' hiss') hek hend)
  · intro ctx state hlead hgives model m hm
    have hstate : WindowsOf K ctx.ek s state := by
      rcases hgives with rfl | hrecover
      · exact hstart ctx.ek
      · exact (hstart ctx.ek).recovered hK hs.1.1 hs.1.2 hlead hrecover
    have hnamed := hstate model m hm
    refine hnamed.increasing.imp_of_mem fun ha hb hlt => ?_
    have hgrid := Nat.dvd_of_mod_eq_zero (hnamed.on_grid _ ha)
    have hgrid' := Nat.dvd_of_mod_eq_zero (hnamed.on_grid _ hb)
    have hstep := Nat.le_of_dvd (Nat.sub_pos_of_lt hlt)
      (Nat.dvd_sub hgrid' hgrid)
    omega
  · intro ctx earlier iss later state hafter hfold model m hm hpending
    obtain ⟨hordered, hitems⟩ := hs.1.1.issuancesAfter_ordered ctx.ek
      (s.startState recipes ctx.ek).lastIssuanceSeq
    rw [hafter] at hordered hitems
    have hstate := (hstart ctx.ek).foldIssuances hs.1.2
      (List.pairwise_append.mp hordered).1
      (fun a ha => hitems a (List.mem_append_left _ ha)) hfold
    have hcursor : state.lastIssuanceSeq < iss.seq := by
      rw [foldlM_cursor Rows.Issuance.seq (fun _ _ _ _ hstep =>
        (foldIssuance_cursors hstep).1) hfold]
      refine lastSeqOf_lt hordered (fun a ha => ?_) List.mem_cons_self
      exact (hitems a (List.mem_append_right _ ha)).2.2
    obtain ⟨hiss, hek, -⟩ :=
      hitems iss (List.mem_append_right _ List.mem_cons_self)
    obtain ⟨key, hkey, hkeyEk, hend, hrow⟩ :=
      (hstate model m hm).pending _ hpending
    have hkeyEq : key = iss.key := hK.eq_of_windowEnd hkey (hs.1.2 iss hiss)
      (hkeyEk.trans hek.symm) hend
    rcases hrow with ⟨folded, hfolded, hid, hle⟩ | hgone
    · rw [hsame folded hfolded iss hiss (hid.trans hkeyEq)] at hle
      omega
    · exact Rows.issuance?_eq_none.mp hgone.1 iss hiss hkeyEq.symm

/-- A run whose requests issue keys of `K` only. -/
theorem Service.run_windows {config : ServiceConfig} {K : IssuanceKey → Prop}
    (hK : Naming K) {events : List Event}
    (hevents : ∀ event ∈ events, ∀ call, event.call? = some call →
      ∀ key ic, call.Issues key ic → K key) {svc : Service}
    (hsvc : svc.store.Holds (Store.KeyedBy K) (WindowsOf K)) :
    (svc.run config events).store.Holds (Store.KeyedBy K) (WindowsOf K) := by
  induction events generalizing svc with
  | nil => exact hsvc
  | cons event rest ih =>
      refine ih (fun e he => hevents e (List.mem_cons_of_mem event he)) ?_
      refine Service.step_holds (fun call hcall key ic hissues => ?_)
        (fun _ _ _ _ => le_top) hsvc
      exact requestInvariant_windows config hK
        (hevents event List.mem_cons_self call hcall key ic hissues)

/-- In a run whose requests of one epoch and one origin carry the same
settings, every journal has one issuance per origin in an epoch. -/
theorem windows_named (config : ServiceConfig) (events : List Event)
    (hstable : SettingsStable (events.filterMap Event.call?)) :
    (Service.run config {} events).store.WindowsNamed config.recipes := by
  have hempty : ({} : Store).Holds
      (Store.KeyedBy (Issuable (events.filterMap Event.call?)))
      (WindowsOf (Issuable (events.filterMap Event.call?))) :=
    ⟨⟨Store.tidy_empty, fun _ h => nomatch h⟩, fun _ _ h => nomatch h⟩
  have hrun := @Service.run_windows config _ hstable.naming events
    (fun event hevent call hcall key ic hissues =>
      ⟨call, List.mem_filterMap.mpr ⟨event, hevent, hcall⟩, ic, hissues⟩)
    {} hempty
  exact hrun.windowsNamed hstable.naming config.recipes

namespace WindowNamesWitness

def config : ServiceConfig := { recipes := ⟨"naive", "e1"⟩ }

def origin : ℕ := 10 * day

def live (generation : ℕ) (shadowHours : ℕ) : LiveAutoscaler where
  signal := ⟨"shop", "web", "query", signalContract, "uid", "target",
    generation⟩
  prediction := { trust := { minShadowHours := some shadowHours } }
  lead := some ⟨600, 60, 30, "configured", 0, generation⟩

/-- A request some seconds after the origin, at a generation whose shadow time
was set. -/
def call (generation shadowHours second : ℕ) (e1 : Option E1Forecast) :
    Call where
  request := ⟨"shop", "scaler", "uid", generation, "target", "query",
    signalContract, "web", "shop", forecastContract, origin,
    { trust := { minShadowHours := shadowHours } }⟩
  lookup := .resolved (live generation shadowHours)
  registered := true
  history := .received ⟨origin - day, origin - 300,
    [⟨origin - day + 300, 5, 0⟩, ⟨origin - day + 600, 6, 0⟩,
      ⟨origin - 300, 5, 0⟩]⟩
  e1 := e1
  clock :=
    let ms := (origin + second) * 1000
    ⟨ms, ms, ms, fun _ _ => ms, ms, ms, ms⟩

def first : Call := call 1 48 5 none

def retry : Call := call 1 48 20 none

/-- The shadow time is edited within the interval, and the fit is ready. -/
def edited : Call := call 2 72 20 (some ⟨[5, 6], origin - 300, "fit"⟩)

/-- Two issuances of one epoch and one origin. -/
def twice (s : Store) : Bool :=
  match s.issuances with
  | [a, b] => decide (a.key.evidenceKey = b.key.evidenceKey ∧
      a.key.decisionOrigin = b.key.decisionOrigin ∧ a.seq ≠ b.seq)
  | _ => false

theorem settingsStable_retry : SettingsStable [first, retry] := by
  intro call hcall call' hcall' bound lead grid bound' lead' grid' h h' _ _
  have hsettings : ∀ c ∈ [first, retry], c.request.settings =
      first.request.settings := by
    intro c hc
    simp only [List.mem_cons, List.not_mem_nil, or_false] at hc
    rcases hc with rfl | rfl <;> rfl
  rw [h.binds.settings_eq, h'.binds.settings_eq, hsettings call hcall,
    hsettings call' hcall']

end WindowNamesWitness

open WindowNamesWitness in
theorem windows_named_retry :
    (Service.run config {} [.request first, .request
      retry]).store.WindowsNamed config.recipes ∧
      (Service.run config {} [.request first, .request
        retry]).store.issuances.length = 1 :=
  ⟨windows_named config [.request first, .request retry] settingsStable_retry,
    by decide +kernel⟩

open WindowNamesWitness in
/-- The shadow time edited within one interval: both requests are answered and
the origin is issued twice in its epoch. -/
theorem edited_origin_issued_twice :
    ((predict config first {}).result.toOption.isSome ∧
      (predict config edited ((Service.mk {} none true 0).step config
        (.request first))).result.toOption.isSome) ∧
      ¬(Service.run config {} [.request first, .request
        edited]).store.WindowsNamed config.recipes := by
  refine ⟨by decide +kernel, fun hnamed => ?_⟩
  have htwice : twice (Service.run config {} [.request first, .request
      edited]).store = true := by decide +kernel
  have horigin := hnamed.origin
  unfold twice at htwice
  split at htwice
  · rename_i a b hrows
    rw [decide_eq_true_eq] at htwice
    rw [hrows] at horigin
    have hsame := horigin a List.mem_cons_self b
      (List.mem_cons_of_mem a List.mem_cons_self) htwice.1 htwice.2.1
    exact htwice.2.2 (congrArg Rows.Issuance.seq hsame)
  · cases htwice

end PredictiveAutoscaler.Forecasting
