/-
The model that evaluations select, over whole runs.  A selected model has all
its gates; a challenger is selected beside a trusted naive and within the exit
band of their paired evidence, and it is newly selected only after its entry
test has held, in every evaluation of its recipe, for the waiting time.
-/
import PredictiveAutoscaler.Forecasting.Repromotion

namespace PredictiveAutoscaler.Forecasting

open Std (ExtTreeMap)

/-- One cost of the challenger, present and finite, is within the ratio of the
naive's. -/
def CostWithin (t : TrustSettings)
    (cost : Option (Option ℚ × Option ℚ)) : Prop :=
  ∃ chal base, cost = some (some chal, some base) ∧
    chal ≤ binary64 (binary64 (t.challengerCostRatioBps / bps) * base)

/-- The paired evidence and the costs of a challenger are within a loss ratio
of the naive's. -/
structure PairedWithin (t : TrustSettings) (now lossRatioBps : ℕ)
    (pairs : HeldPairs) (costs : ReplayCosts) : Prop where
  enough : t.challengerMinPairs ≤ (pairs.sums now (7 * day)).n
  spanning : (t.challengerMinHours * hour : ℕ) ≤
    (pairs.sums now (7 * day)).span
  positive : 0 < (pairs.sums now (7 * day)).base
  loss : binary64 ((pairs.sums now (7 * day)).chal /
      (pairs.sums now (7 * day)).n) ≤
    binary64 (binary64 (binary64 (lossRatioBps / bps) *
      (pairs.sums now (7 * day)).base) / (pairs.sums now (7 * day)).n)
  shortage : CostWithin t costs.shortage
  replicaTime : CostWithin t costs.replicaTime

theorem costOk_iff {t : TrustSettings}
    {cost : Option (Option ℚ × Option ℚ)} :
    costOk t cost = true ↔ CostWithin t cost := by
  constructor
  · intro h
    match cost, h with
    | some (some chal, some base), h => exact ⟨chal, base, rfl, by
        simpa [costOk] using h⟩
  · rintro ⟨chal, base, rfl, hle⟩
    simpa [costOk] using hle

theorem pairedOk_iff {t : TrustSettings} {pairs : Option HeldPairs}
    {now lossRatioBps : ℕ} {costs : Option ReplayCosts} :
    pairedOk pairs now t costs lossRatioBps = true ↔
      ∃ p c, pairs = some p ∧ costs = some c ∧
        PairedWithin t now lossRatioBps p c := by
  constructor
  · intro h
    match pairs, costs, h with
    | some p, some c, h =>
        simp only [pairedOk, Bool.and_eq_true, decide_eq_true_eq,
          costOk_iff] at h
        obtain ⟨⟨⟨henough, hspan, hpos, hloss⟩, hshortage⟩, htime⟩ := h
        exact ⟨p, c, rfl, rfl, henough, hspan, hpos, hloss, hshortage, htime⟩
  · rintro ⟨p, c, rfl, rfl, h⟩
    simp only [pairedOk, Bool.and_eq_true, decide_eq_true_eq, costOk_iff]
    exact ⟨⟨⟨h.enough, h.spanning, h.positive, h.loss⟩, h.shortage⟩,
      h.replicaTime⟩

/-- Evidence within one loss ratio is within every larger one. -/
theorem PairedWithin.mono {t : TrustSettings} {now a b : ℕ}
    {pairs : HeldPairs} {costs : ReplayCosts} (hab : a ≤ b)
    (h : PairedWithin t now a pairs costs) :
    PairedWithin t now b pairs costs := by
  refine ⟨h.enough, h.spanning, h.positive, h.loss.trans ?_, h.shortage,
    h.replicaTime⟩
  have hpos := h.positive.le
  have hratio : binary64 (a / bps) ≤ binary64 (b / bps) := by
    apply binary64_mono (by positivity)
    have : (a : ℚ) ≤ b := by exact_mod_cast hab
    gcongr
  have hnonneg : 0 ≤ binary64 ((a : ℚ) / bps) := binary64_nonneg (by positivity)
  have hmul : binary64 (binary64 (a / bps) *
      (pairs.sums now (7 * day)).base) ≤ binary64 (binary64 (b / bps) *
        (pairs.sums now (7 * day)).base) :=
    binary64_mono (mul_nonneg hnonneg hpos)
      (mul_le_mul_of_nonneg_right hratio hpos)
  exact binary64_mono
    (div_nonneg (binary64_nonneg (mul_nonneg hnonneg hpos)) (by positivity))
    (by gcongr)

theorem entryKey_injective {model model' : Model} {recipe recipe' : String}
    (h : entryKey model recipe = entryKey model' recipe') :
    model = model' ∧ recipe = recipe' := by
  have hlist := congrArg String.toList h
  simp only [entryKey, String.toList_append] at hlist
  cases model <;> cases model' <;>
    simp_all [Model.name, String.toList_inj]

section Select

variable {verdicts : Model → Option CandidateVerdict}
  {pairs : Model → Option HeldPairs} {costs : Model → Option ReplayCosts}
  {now : ℕ} {t : TrustSettings} {entries : ExtTreeMap String ℕ}
  {model other : Model} {recipe : String}

/-- Noting another model leaves the timers of a model as they are. -/
theorem noteEntry_other (h : other ≠ model) :
    (noteEntry verdicts pairs costs now t entries other)[entryKey model
      recipe]? = entries[entryKey model recipe]? := by
  have hne : ∀ r, entryKey other r ≠ entryKey model recipe :=
    fun r heq => h (entryKey_injective heq).1
  unfold noteEntry
  split
  · rw [ExtTreeMap.getElem?_alter, if_neg]
    simpa using hne _
  · rw [ExtTreeMap.getElem?_erase, if_neg]
    simpa using hne _
  · rfl

/-- A timer after its challenger was noted: kept or started while the entry
test holds, stopped when it fails, untouched by another recipe. -/
theorem noteEntry_self (hchallenger : model ≠ .seasonalNaive) {since : ℕ}
    (h : (noteEntry verdicts pairs costs now t entries model)[entryKey model
      recipe]? = some since) :
    (∀ v, verdicts model = some v → v.recipe = recipe →
      entryFlags verdicts pairs costs now t model = some true) ∧
    (entries[entryKey model recipe]? = some since ∨
      since = now ∧ ∃ v, verdicts model = some v ∧ v.recipe = recipe) := by
  cases hv : verdicts model with
  | none =>
      simp only [noteEntry, hv] at h
      exact ⟨by simp, .inl h⟩
  | some v =>
      have hflag : entryFlags verdicts pairs costs now t model =
          some (naiveOk verdicts &&
            challengerPromoted (pairs model) now t (costs model)) := by
        simp [entryFlags, hchallenger, hv]
      simp only [noteEntry, hv, hflag] at h
      simp only [hflag, Option.some.injEq, forall_eq']
      by_cases hrecipe : v.recipe = recipe
      · subst hrecipe
        cases hpass : naiveOk verdicts &&
            challengerPromoted (pairs model) now t (costs model) with
        | false => simp [hpass] at h
        | true =>
            simp only [hpass, ExtTreeMap.getElem?_alter_self,
              Option.some.injEq] at h
            refine ⟨fun _ => rfl, ?_⟩
            cases hold : entries[entryKey model v.recipe]? with
            | none =>
                rw [hold] at h
                exact .inr ⟨h.symm, v, rfl, rfl⟩
            | some old =>
                rw [hold] at h
                exact .inl (congrArg some h)
      · have hne : entryKey model v.recipe ≠ entryKey model recipe :=
          fun heq => hrecipe (entryKey_injective heq).2
        refine ⟨fun heq => absurd heq hrecipe, .inl ?_⟩
        cases hpass : naiveOk verdicts &&
            challengerPromoted (pairs model) now t (costs model) with
        | false =>
            simp only [hpass] at h
            rwa [ExtTreeMap.getElem?_erase, if_neg (by simpa using hne)] at h
        | true =>
            simp only [hpass] at h
            rwa [ExtTreeMap.getElem?_alter, if_neg (by simpa using hne)] at h

/-- The timers that a selection keeps, challenger by challenger. -/
theorem noteEntries_get (hchallenger : model ≠ .seasonalNaive) {since : ℕ}
    (h : (fallbackOrder.foldl (noteEntry verdicts pairs costs now t)
      entries)[entryKey model recipe]? = some since) :
    (∀ v, verdicts model = some v → v.recipe = recipe →
      entryFlags verdicts pairs costs now t model = some true) ∧
    (entries[entryKey model recipe]? = some since ∨
      since = now ∧ ∃ v, verdicts model = some v ∧ v.recipe = recipe) := by
  simp only [fallbackOrder, List.foldl_cons, List.foldl_nil] at h
  rw [noteEntry_other (Ne.symm hchallenger)] at h
  cases model with
  | seasonalNaive => exact absurd rfl hchallenger
  | lstm =>
      rw [noteEntry_other (by decide)] at h
      exact noteEntry_self hchallenger h
  | statistical =>
      obtain ⟨hpass, hsince⟩ := noteEntry_self hchallenger h
      rw [noteEntry_other (by decide)] at hsince
      exact ⟨hpass, hsince⟩

/-- What a selection can select: a trusted naive; a challenger that is kept,
within the exit band; or a challenger whose entry test has held. -/
theorem selectable_cases {sel : Selection}
    (h : ((sel.next verdicts pairs costs now t).selected) = some model) :
    (verdicts model).any (·.trusted) = true ∧
      (model = .seasonalNaive ∨
        (naiveOk verdicts = true ∧ sel.selected = some model ∧
          challengerRetained (pairs model) now t (costs model) = true) ∨
        ∃ v since, verdicts model = some v ∧
          (sel.next verdicts pairs costs now t).entrySince[entryKey model
            v.recipe]? = some since ∧
          ((t.repromotionHours * hour : ℕ) : ℤ) ≤ (now : ℤ) - since) := by
  generalize hentries : fallbackOrder.foldl
    (noteEntry verdicts pairs costs now t) sel.entrySince = noted
  have hnext : (sel.next verdicts pairs costs now t).selected =
      fallbackOrder.find? (selectable verdicts now t noted
        (keptSelection verdicts pairs costs now t sel)) ∧
      (sel.next verdicts pairs costs now t).entrySince = noted := by
    simp only [Selection.next, hentries]
    split
    · rename_i heq
      exact ⟨heq.symm, rfl⟩
    · exact ⟨rfl, rfl⟩
  rw [hnext.1] at h
  rw [hnext.2]
  have hselectable := List.find?_some h
  simp only [selectable, Option.any_eq_true, Bool.and_eq_true, Bool.or_eq_true,
    decide_eq_true_eq] at hselectable
  obtain ⟨v, hv, htrusted, hcase⟩ := hselectable
  refine ⟨by simp [hv, htrusted], ?_⟩
  rcases hcase with (hnaive | ⟨hkept, hnaive⟩) | ⟨since, hsince, hheld⟩
  · exact .inl hnaive
  · obtain ⟨hselected, hsafe⟩ := Option.filter_eq_some_iff.mp hkept
    simp only [Bool.and_eq_true, Bool.or_eq_true, decide_eq_true_eq] at hsafe
    rcases hsafe.2 with hmodel | ⟨-, hretained⟩
    · exact .inl hmodel
    · exact .inr (.inl ⟨hnaive, hselected, hretained⟩)
  · obtain ⟨instant, hinstant, hcast⟩ := Option.bind_eq_some_iff.mp hsince
    cases hcast
    exact .inr (.inr ⟨v, instant, hv, hinstant, hheld⟩)

end Select

theorem Hysteresis.step_trusted {h : Hysteresis} {ok : Bool} {ledger : Ledger}
    {now : ℕ} {t : TrustSettings} (htrusted : (h.step ok ledger now t).trusted =
      true) : ok = true := by
  simp only [Hysteresis.step] at htrusted
  generalize (if (h.epoch, h.recipe) = (ledger.epoch, ledger.recipe) then h
    else Hysteresis.fresh ledger.recipe ledger.epoch) = current at htrusted
  cases ok with
  | true => rfl
  | false =>
      cases hcurrent : current.trusted <;> simp [hcurrent] at htrusted

/-- The verdict of an evaluation and the selection it returns. -/
theorem evaluate_selection {cands : List CandidateInputs}
    {hyst next : TrustState} {g : Global} {t : TrustSettings}
    {pairs : Model → Option HeldPairs} {costs : Model → Option ReplayCosts}
    {verdict : Verdict}
    (h : evaluate cands hyst g t pairs costs = .ok (verdict, next)) :
    (∀ model v, verdict.candidates model = some v → v.trusted = true →
      v.gates.all = true ∧ ∃ ci, byModel cands model = some ci ∧
        v.gates = (candidateGates ci g t).1) ∧
    verdict.promoted = entryFlags verdict.candidates pairs costs g.now t ∧
    next.selection = some ((priorSelection cands hyst).next verdict.candidates
      pairs costs g.now t) ∧
    verdict.selected = ((priorSelection cands hyst).next verdict.candidates
      pairs costs g.now t).selected ∧
    (verdict.predictionReady = true → verdict.selected.isSome = true ∧
      g.replaySuitePassed = true ∧ g.startupBudgetValid = true) := by
  unfold evaluate at h
  simp only at h
  split at h
  · cases h
  split at h
  · cases h
  simp only [Except.ok.injEq, Prod.mk.injEq] at h
  obtain ⟨rfl, rfl⟩ := h
  refine ⟨?_, rfl, rfl, rfl, ?_⟩
  · intro model v hv htrusted
    dsimp only at hv
    cases hpresent : byModel cands model with
    | none => simp [hpresent] at hv
    | some ci =>
        simp only [stepModels, hpresent, Option.map_some,
          Option.some.injEq] at hv
        subst hv
        have hall : (candidateGates ci g t).1.all = true :=
          Hysteresis.step_trusted htrusted
        exact ⟨hall, ci, rfl, rfl⟩
  · intro hready
    simp only [Bool.and_eq_true, decide_eq_true_eq] at hready
    refine ⟨hready.1, ?_⟩
    have hreason := hready.2
    unfold readyReason at hreason
    cases hsuite : g.replaySuitePassed <;> cases hbudget : g.startupBudgetValid <;>
      simp_all

section Entries

variable (t : TrustSettings) (model : Model)

/-- The verdict that the evaluation returned on the model. -/
def EvaluateEntry.verdictOf (e : EvaluateEntry) : Option CandidateVerdict :=
  match e.report with
  | .ok verdict => verdict.candidates model
  | .error _ => none

/-- The model was present, with any recipe. -/
def EvaluateEntry.Presents (e : EvaluateEntry) : Prop :=
  (EvaluateEntry.verdictOf model e).isSome = true

/-- The model was present with this recipe. -/
def EvaluateEntry.PresentsAs (recipe : String) (e : EvaluateEntry) : Prop :=
  ∃ v, EvaluateEntry.verdictOf model e = some v ∧ v.recipe = recipe

/-- The strict entry test of the model held: the naive was trusted, and the
paired evidence and the costs were within the entry ratio. -/
def EvaluateEntry.enters (e : EvaluateEntry) : Bool :=
  match e.report with
  | .ok verdict => naiveOk verdict.candidates &&
      challengerPromoted (e.event.pairs model) e.event.shared.now t
        (e.event.costs model)
  | .error _ => false

/-- The model that the last verdict selected. -/
def lastSelected (past : List EvaluateEntry) : Option Model :=
  past.foldl (fun last e =>
    match e.report with
    | .ok verdict => verdict.selected
    | .error _ => last) none

/-- In every evaluation with the model since one at least the waiting time
before `e`, up to `e`, its entry test held. -/
def EntryHeld (Present : EvaluateEntry → Prop) (past : List EvaluateEntry)
    (e : EvaluateEntry) : Prop :=
  ∃ s es, (past ++ [e])[s]? = some es ∧ Present es ∧
    ((t.repromotionHours * hour : ℕ) : ℤ) ≤
      (e.event.shared.now : ℤ) - es.event.shared.now ∧
    HoldsFrom (fun x => Present x → EvaluateEntry.enters t model x = true)
      (past ++ [e]) s

/-- A selected model, in the evaluation that selects it. -/
structure SelectedSafely (past : List EvaluateEntry) (e : EvaluateEntry)
    (verdict : Verdict) : Prop where
  trusted : (verdict.candidates model).any (·.trusted) = true
  gates : EvaluateEntry.gatesHold t model e = true
  naive : model ≠ .seasonalNaive →
    (verdict.candidates .seasonalNaive).any (·.trusted) = true
  paired : model ≠ .seasonalNaive → ∃ pairs costs,
    e.event.pairs model = some pairs ∧ e.event.costs model = some costs ∧
      PairedWithin t e.event.shared.now t.challengerExitLossRatioBps pairs
        costs
  entry : model ≠ .seasonalNaive → lastSelected past ≠ some model →
    ∃ v, verdict.candidates model = some v ∧
      EntryHeld t model (EvaluateEntry.PresentsAs model v.recipe) past e

/-- The instant of a timer is one at which the model was present with the
recipe, and its entry test has held since. -/
def Timed (recipe : String) (past : List EvaluateEntry) (since : ℕ) : Prop :=
  ∃ s es, past[s]? = some es ∧ EvaluateEntry.PresentsAs model recipe es ∧
    es.event.shared.now = since ∧
    HoldsFrom (fun x => EvaluateEntry.PresentsAs model recipe x →
      EvaluateEntry.enters t model x = true) past s

/-- What the selection state says about the evaluations so far. -/
structure SelectionSound (past : List EvaluateEntry) (sel : Selection) :
    Prop where
  selected : ∀ model, sel.selected = some model → lastSelected past = some model
  timers : ∀ model recipe since, model ≠ .seasonalNaive →
    sel.entrySince[entryKey model recipe]? = some since →
      Timed t model recipe past since

end Entries

section Runs

variable {t : TrustSettings} {past : List EvaluateEntry}

theorem lastSelected_snoc (x : EvaluateEntry) :
    lastSelected (past ++ [x]) =
      match x.report with
      | .ok verdict => verdict.selected
      | .error _ => lastSelected past := by
  rw [lastSelected, List.foldl_append]
  rfl

theorem selectionSound_prior {cands : List CandidateInputs}
    {state : TrustState}
    (h : ∀ sel, state.selection = some sel → SelectionSound t past sel) :
    SelectionSound t past (priorSelection cands state) := by
  have hfresh : ∀ epoch, SelectionSound t past { epoch } :=
    fun epoch => ⟨by simp, by simp⟩
  unfold priorSelection
  cases hsel : state.selection with
  | none => exact hfresh _
  | some prior =>
      dsimp only
      split
      · exact h prior hsel
      · exact hfresh _

/-- A timer that a new evaluation keeps or starts. -/
theorem Timed.snoc {model : Model} {recipe : String} {since : ℕ}
    {x : EvaluateEntry} (h : Timed t model recipe past since)
    (hx : EvaluateEntry.PresentsAs model recipe x →
      EvaluateEntry.enters t model x = true) :
    Timed t model recipe (past ++ [x]) since := by
  obtain ⟨s, es, hs, hpresent, hnow, hfrom⟩ := h
  exact ⟨s, es, getElem?_snoc_of_some x hs, hpresent, hnow, hfrom.snoc hx⟩

/-- The timers of a selection, after an evaluation that starts from it. -/
theorem SelectionSound.timed {sel : Selection} {x : EvaluateEntry}
    {verdict : Verdict} (h : SelectionSound t past sel)
    (hreport : x.report = .ok verdict) {model : Model} {recipe : String}
    {since : ℕ} (hchallenger : model ≠ .seasonalNaive)
    (hsince : (sel.next verdict.candidates x.event.pairs x.event.costs
      x.event.shared.now t).entrySince[entryKey model recipe]? =
        some since) :
    Timed t model recipe (past ++ [x]) since := by
  have hentries : (sel.next verdict.candidates x.event.pairs x.event.costs
      x.event.shared.now t).entrySince =
      fallbackOrder.foldl (noteEntry verdict.candidates x.event.pairs
        x.event.costs x.event.shared.now t) sel.entrySince := by
    simp only [Selection.next]
    split <;> rfl
  rw [hentries] at hsince
  obtain ⟨hflag, hold⟩ := noteEntries_get hchallenger hsince
  have hverdict : EvaluateEntry.verdictOf model x = verdict.candidates model := by
    simp [EvaluateEntry.verdictOf, hreport]
  have henters : EvaluateEntry.PresentsAs model recipe x →
      EvaluateEntry.enters t model x = true := by
    rintro ⟨v, hv, hrecipe⟩
    rw [hverdict] at hv
    have hpass := hflag v hv hrecipe
    simpa [entryFlags, hchallenger, hv, EvaluateEntry.enters, hreport]
      using hpass
  rcases hold with hold | ⟨rfl, v, hv, hrecipe⟩
  · exact (h.timers model recipe since hchallenger hold).snoc henters
  · exact ⟨past.length, x, List.getElem?_concat_length,
      ⟨v, hverdict.trans hv, hrecipe⟩, rfl, HoldsFrom.of_length henters⟩

/-- One evaluation keeps the selection state sound. -/
theorem evaluateStep_sound {state : TrustState} {call : EvaluateCall}
    (h : ∀ sel, state.selection = some sel → SelectionSound t past sel) :
    ∀ sel, (evaluateStep t state call).1.selection = some sel →
      SelectionSound t (past ++ [entryAt (evaluateStep t) state call]) sel := by
  cases heval : evaluate call.cands state call.shared t call.pairs
      call.costs with
  | error raised =>
      intro sel hsel
      have hreport : (entryAt (evaluateStep t) state call).report =
          .error raised := by simp [entryAt, evaluateStep, heval]
      have hstate : (evaluateStep t state call).1 = state := by
        simp [evaluateStep, heval]
      rw [hstate] at hsel
      obtain ⟨hselected, htimers⟩ := h sel hsel
      refine ⟨fun model hmodel => ?_, fun model recipe since hne hsince => ?_⟩
      · rw [lastSelected_snoc, hreport]
        exact hselected model hmodel
      · refine (htimers model recipe since hne hsince).snoc ?_
        rintro ⟨v, hv, -⟩
        simp [EvaluateEntry.verdictOf, hreport] at hv
  | ok result =>
      obtain ⟨verdict, next⟩ := result
      intro sel hsel
      have hreport : (entryAt (evaluateStep t) state call).report =
          .ok verdict := by simp [entryAt, evaluateStep, heval]
      have hstate : (evaluateStep t state call).1 = next := by
        simp [evaluateStep, heval]
      obtain ⟨-, -, hnext, hselected, -⟩ := evaluate_selection heval
      rw [hstate, hnext, Option.some.injEq] at hsel
      subst hsel
      refine ⟨fun model hmodel => ?_, fun model recipe since hne hsince => ?_⟩
      · rw [lastSelected_snoc, hreport]
        exact hselected.trans hmodel
      · exact (selectionSound_prior h).timed hreport hne hsince

end Runs

/-- What a verdict selects, in every run of evaluations under settings whose
exit ratio is not below the entry ratio: a model with all its gates; a
challenger only beside a trusted naive and within the exit band, and newly only
after its entry test has held for the waiting time in every evaluation in which
it was present with its recipe.  A forecast is ready to activate only for a
selected model, with the replay suite and the startup budget. -/
theorem selection_safe {t : TrustSettings}
    (hband : t.challengerLossRatioBps ≤ t.challengerExitLossRatioBps)
    {calls : List EvaluateCall} {past rest : List EvaluateEntry}
    {e : EvaluateEntry} (htrace : evaluateRun t calls = past ++ e :: rest)
    {verdict : Verdict} (hreport : e.report = .ok verdict) :
    (∀ model, verdict.selected = some model →
      SelectedSafely t model past e verdict) ∧
    (verdict.predictionReady = true → verdict.selected.isSome = true ∧
      e.event.shared.replaySuitePassed = true ∧
      e.event.shared.startupBudgetValid = true) := by
  let H : List EvaluateEntry → TrustState → Prop := fun past state =>
    ∀ sel, state.selection = some sel → SelectionSound t past sel
  have hstart : H [] {} := by
    intro sel hsel
    cases hsel
  obtain ⟨hsound, hentry⟩ := runTrace_history H
    (fun past state call h => evaluateStep_sound h) hstart htrace
  have heval : ∃ next, evaluate e.event.cands e.before e.event.shared t
      e.event.pairs e.event.costs = .ok (verdict, next) := by
    rw [hentry] at hreport
    cases heval : evaluate e.event.cands e.before e.event.shared t
        e.event.pairs e.event.costs with
    | error raised => simp [entryAt, evaluateStep, heval] at hreport
    | ok result =>
        obtain ⟨verdict', next⟩ := result
        simp only [entryAt, evaluateStep, heval, Except.ok.injEq] at hreport
        exact ⟨next, by rw [hreport]⟩
  obtain ⟨next, heval⟩ := heval
  obtain ⟨htrusted, -, -, hselected, hready⟩ := evaluate_selection heval
  refine ⟨?_, hready⟩
  intro model hmodel
  rw [hselected] at hmodel
  obtain ⟨htrusts, hcase⟩ := selectable_cases hmodel
  have hprior := @selectionSound_prior t past e.event.cands e.before hsound
  have hgates : EvaluateEntry.gatesHold t model e = true := by
    obtain ⟨v, hv, hvtrusted⟩ := (Option.any_eq_true _ _).mp htrusts
    obtain ⟨hall, ci, hci, hvgates⟩ := htrusted model v hv hvtrusted
    rw [hvgates] at hall
    simp [EvaluateEntry.gatesHold, EvaluateEntry.inputs?, hci, hall]
  rcases hcase with rfl | ⟨hnaive, hkept, hretained⟩ | ⟨v, since, hv, hsince, hheld⟩
  · exact ⟨htrusts, hgates, fun h => absurd rfl h, fun h => absurd rfl h,
      fun h => absurd rfl h⟩
  · -- Kept: it was selected by the last verdict.
    obtain ⟨p, c, hp, hc, hwithin⟩ := pairedOk_iff.mp hretained
    exact ⟨htrusts, hgates, fun _ => hnaive, fun _ => ⟨p, c, hp, hc, hwithin⟩,
      fun _ hlast => absurd (hprior.selected model hkept) hlast⟩
  · by_cases hchallenger : model = .seasonalNaive
    · subst hchallenger
      exact ⟨htrusts, hgates, fun h => absurd rfl h, fun h => absurd rfl h,
        fun h => absurd rfl h⟩
    · have htimed := hprior.timed hreport hchallenger hsince
      obtain ⟨s, es, hs, hpresent, hnow, hfrom⟩ := htimed
      have hself : EvaluateEntry.PresentsAs model v.recipe e :=
        ⟨v, by simpa [EvaluateEntry.verdictOf, hreport] using hv, rfl⟩
      have hle : s ≤ past.length := by
        have := (List.getElem?_eq_some_iff.mp hs).1
        simpa [Nat.lt_succ_iff] using this
      have henters := hfrom past.length e hle List.getElem?_concat_length hself
      simp only [EvaluateEntry.enters, hreport, Bool.and_eq_true] at henters
      obtain ⟨p, c, hp, hc, hwithin⟩ := pairedOk_iff.mp henters.2
      refine ⟨htrusts, hgates, fun _ => henters.1,
        fun _ => ⟨p, c, hp, hc, hwithin.mono hband⟩,
        fun _ _ => ⟨v, hv, s, es, hs, hpresent, ?_, hfrom⟩⟩
      rw [hnow]
      exact hheld

namespace SelectionWitness

open RepromotionWitness (epoch)

/-- A statistical candidate of this recipe beside the naive. -/
def candidates (h : ℕ) (recipe : String) : List CandidateInputs :=
  let ci := RepromotionWitness.candidate .statistical h 0 96
  [{ ci with ledger := { ci.ledger with recipe } },
    RepromotionWitness.candidate .seasonalNaive h 0 96]

/-- Pairs over fifty hours, with half the loss of the naive. -/
def pairs (h : ℕ) (model : Model) : Option HeldPairs :=
  let bucket (k : ℕ) : ℕ × PairBucket := (k, ⟨40, 10, 20, k * hour, k * hour⟩)
  if model = .statistical then
    some
      { pairs :=
          { Pairs.fresh epoch .statistical "recipe" "recipe" with
            buckets := .ofList [bucket (h - 50), bucket h] }
        order := .sorted _ }
  else none

def costs (_model : Model) : Option ReplayCosts :=
  some ⟨some (some 1, some 1), some (some 1, some 1)⟩

/-- An evaluation at the hour `h` with paired evidence. -/
def paired (h : ℕ) : EvaluateCall :=
  { RepromotionWitness.call h 0 (candidates h "recipe") with
    pairs := pairs h, costs }

/-- The entry test holds for a day. -/
def steady : List EvaluateCall := [paired 400, paired 424]

/-- The entry test holds, then a candidate of another recipe has no paired
evidence, and a day after the first evaluation the first recipe is back. -/
def churn : List EvaluateCall :=
  [paired 400, RepromotionWitness.call 400 300 (candidates 400 "other"),
    paired 424]

end SelectionWitness

open SelectionWitness in
/-- A day after its entry test held, the challenger is selected safely. -/
theorem steady_selected_safely :
    ∃ past e verdict, evaluateRun {} steady = past ++ [e] ∧
      verdict.selected = some .statistical ∧
      SelectedSafely {} .statistical past e verdict := by
  have hselects : (evaluateRun {} steady)[1]?.any (fun e =>
      match e.report with
      | .ok verdict => decide (verdict.selected = some .statistical)
      | .error _ => false) = true := by
    decide +kernel
  obtain ⟨e, he, hselects⟩ := (Option.any_eq_true _ _).mp hselects
  have htrace : evaluateRun {} steady = (evaluateRun {} steady).take 1 ++
      e :: [] := by
    obtain ⟨hlt, hget⟩ := List.getElem?_eq_some_iff.mp he
    rw [← hget]
    rfl
  cases hreport : e.report with
  | error raised => simp [hreport] at hselects
  | ok verdict =>
      rw [hreport] at hselects
      have hselected := of_decide_eq_true hselects
      exact ⟨_, e, verdict, htrace, hselected,
        (selection_safe (by decide) htrace hreport).1 _ hselected⟩

open SelectionWitness in
/-- The challenger is selected although, within the waiting time before, it was
present with another recipe and its entry test failed. -/
theorem churn_selected_early :
    (evaluateRun {} churn).all EvaluateEntry.returned = true ∧
    (churn.Pairwise fun a b => a.shared.now < b.shared.now) ∧
    (evaluateRun {} churn)[2]?.any (fun e =>
      match e.report with
      | .ok verdict => decide (verdict.selected = some .statistical)
      | .error _ => false) = true ∧
    lastSelected ((evaluateRun {} churn).take 2) ≠ some .statistical ∧
    ∀ e, (evaluateRun {} churn)[2]? = some e →
      ¬EntryHeld {} .statistical (EvaluateEntry.Presents .statistical)
        ((evaluateRun {} churn).take 2) e := by
  refine ⟨by decide +kernel, by decide +kernel, by decide +kernel,
    by decide +kernel, ?_⟩
  rintro e he ⟨s, es, hs, -, htime, hfrom⟩
  have hfails : (evaluateRun {} churn)[1]?.any (fun e =>
      (EvaluateEntry.verdictOf .statistical e).isSome &&
        !EvaluateEntry.enters {} .statistical e) = true := by
    decide +kernel
  obtain ⟨x, hx, hfails⟩ := (Option.any_eq_true _ _).mp hfails
  simp only [Bool.and_eq_true, Bool.not_eq_true'] at hfails
  have hget : ((evaluateRun {} churn).take 2 ++ [e])[1]? = some x := by
    rw [List.getElem?_append_left (by decide +kernel)]
    exact (List.getElem?_take_of_lt (by omega)).trans hx
  by_cases hle : s ≤ 1
  · have henters := hfrom 1 x hle hget hfails.1
    rw [hfails.2] at henters
    cases henters
  · have hlast : es = e := by
      rw [List.getElem?_append_right (by
        rw [List.length_take]; omega)] at hs
      have hs' := List.mem_of_getElem? hs
      exact List.mem_singleton.mp hs'
    rw [hlast, sub_self] at htime
    exact absurd htime (by decide)

end PredictiveAutoscaler.Forecasting
