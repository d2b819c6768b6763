/-
Runs of evaluations and the law of re-promotion.  The hysteresis of a model
that is present in every evaluation remembers the demotion it waits from and
the evaluation since which its gates have held, so trust lost is regained only
after the waiting time and the new bounds.  An evaluation without the model
returns no hysteresis for it.
-/
import PredictiveAutoscaler.Forecasting.Trust
import PredictiveAutoscaler.Run

namespace PredictiveAutoscaler.Forecasting

/-- The arguments of one evaluation beside the state and the settings. -/
structure EvaluateCall where
  cands : List CandidateInputs
  shared : Global
  pairs : Model → Option HeldPairs := fun _ => none
  costs : Model → Option ReplayCosts := fun _ => none

/-- One evaluation of a run; one that raises returns no state, so the caller
keeps the one it has. -/
def evaluateStep (t : TrustSettings) (state : TrustState)
    (call : EvaluateCall) : TrustState × Except Raised Verdict :=
  match evaluate call.cands state call.shared t call.pairs call.costs with
  | .ok (verdict, next) => (next, .ok verdict)
  | .error raised => (state, .error raised)

abbrev EvaluateEntry := Entry TrustState EvaluateCall (Except Raised Verdict)

/-- A run of evaluations from the empty state. -/
def evaluateRun (t : TrustSettings) (calls : List EvaluateCall) :
    List EvaluateEntry :=
  runTrace (evaluateStep t) {} calls

section Entries

variable (t : TrustSettings) (model : Model)

def EvaluateEntry.returned (e : EvaluateEntry) : Bool := e.report.isOk

/-- What the evaluation was given of the model, if it is present. -/
def EvaluateEntry.inputs? (e : EvaluateEntry) : Option CandidateInputs :=
  byModel e.event.cands model

/-- The evaluation returned a verdict that trusts the model. -/
def EvaluateEntry.trusts (e : EvaluateEntry) : Bool :=
  match e.report with
  | .ok verdict => (verdict.candidates model).any (·.trusted)
  | .error _ => false

/-- The model is present and all its gates hold. -/
def EvaluateEntry.gatesHold (e : EvaluateEntry) : Bool :=
  (EvaluateEntry.inputs? model e).any fun ci =>
    (candidateGates ci e.event.shared t).1.all

/-- The ledger's count of prospective gate bounds. -/
def EvaluateEntry.bounds (e : EvaluateEntry) : ℕ :=
  (EvaluateEntry.inputs? model e).elim 0 fun ci =>
    ci.ledger.totals.prospectiveGateBounded

/-- The evaluation takes away trust that the model had. -/
def EvaluateEntry.Demotes (e : EvaluateEntry) : Prop :=
  EvaluateEntry.returned e = true ∧
    (e.before.models model).any (·.trusted) = true ∧
    EvaluateEntry.trusts model e = false

/-- An evaluation that returns has the model, with all its gates. -/
def EvaluateEntry.Holds (e : EvaluateEntry) : Prop :=
  EvaluateEntry.returned e = true → EvaluateEntry.gatesHold t model e = true

/-- The evaluation returned, but without the model. -/
def EvaluateEntry.misses (e : EvaluateEntry) : Bool :=
  EvaluateEntry.returned e && (EvaluateEntry.inputs? model e).isNone

end Entries

/-- What a hysteresis of the ledger's own epoch and recipe can do. -/
inductive Hysteresis.Steps (h : Hysteresis) (bounds now : ℕ)
    (t : TrustSettings) : Bool → Hysteresis → Prop
  | keep (htrusted : h.trusted = true) : Steps h bounds now t true h
  | demote (htrusted : h.trusted = true) :
      Steps h bounds now t false
        { h with
          trusted := false, demotedAt := some now, boundsAtDemotion := bounds
          gatesOkSince := none }
  | fail (htrusted : h.trusted = false) :
      Steps h bounds now t false { h with gatesOkSince := none }
  | first (htrusted : h.trusted = false) (hever : h.everTrusted = false) :
      Steps h bounds now t true
        { h with
          trusted := true, everTrusted := true
          gatesOkSince := some (h.gatesOkSince.getD now) }
  | regain (htrusted : h.trusted = false) (hever : h.everTrusted = true)
      (hregained : h.regained (h.gatesOkSince.getD now) bounds now t = true) :
      Steps h bounds now t true
        { h with
          trusted := true
          gatesOkSince := some (h.gatesOkSince.getD now) }
  | wait (htrusted : h.trusted = false) (hever : h.everTrusted = true) :
      Steps h bounds now t true
        { h with gatesOkSince := some (h.gatesOkSince.getD now) }

theorem Hysteresis.step_steps (h : Hysteresis) (ok : Bool) (ledger : Ledger)
    (now : ℕ) (t : TrustSettings)
    (hsame : (h.epoch, h.recipe) = (ledger.epoch, ledger.recipe)) :
    h.Steps ledger.totals.prospectiveGateBounded now t ok
      (h.step ok ledger now t) := by
  unfold Hysteresis.step
  rw [if_pos hsame]
  simp only [Bool.not_eq_true']
  split_ifs with htrusted hok hok hever hregained
  · subst hok
    exact .keep htrusted
  · obtain rfl := Bool.eq_false_of_not_eq_true hok
    exact .demote htrusted
  · subst hok
    exact .fail (Bool.eq_false_of_not_eq_true htrusted)
  all_goals
    replace htrusted := Bool.eq_false_of_not_eq_true htrusted
    obtain rfl := Bool.eq_true_of_not_eq_false hok
  · exact .first htrusted hever
  · exact .regain htrusted (Bool.eq_true_of_not_eq_false hever) hregained
  · exact .wait htrusted (Bool.eq_true_of_not_eq_false hever)

/-- The state an evaluation returns, and whom its verdict trusts. -/
theorem evaluate_ok {cands : List CandidateInputs} {hyst next : TrustState}
    {g : Global} {t : TrustSettings} {pairs : Model → Option HeldPairs}
    {costs : Model → Option ReplayCosts} {verdict : Verdict}
    (h : evaluate cands hyst g t pairs costs = .ok (verdict, next)) :
    next.models = stepModels cands hyst g t ∧
      ∀ model, (verdict.candidates model).any (·.trusted) =
        (next.models model).any (·.trusted) := by
  unfold evaluate at h
  simp only at h
  split at h
  · cases h
  · split at h
    · cases h
    · simp only [Except.ok.injEq, Prod.mk.injEq] at h
      obtain ⟨rfl, rfl⟩ := h
      refine ⟨rfl, fun model => ?_⟩
      unfold stepModels
      cases hpresent : byModel cands model <;>
        simp [hpresent, candidateVerdict]

section Memory

variable (t : TrustSettings) (model : Model) (past : List EvaluateEntry)

/-- Every verdict before `n` that trusts the model is followed by an
evaluation without the model. -/
def Forgotten (n : ℕ) : Prop :=
  ∀ m e, m < n → past[m]? = some e → EvaluateEntry.trusts model e = true →
    ∃ m' e', m < m' ∧ m' < n ∧ past[m']? = some e' ∧
      EvaluateEntry.misses model e' = true

/-- A demoted model waits: the demotion at `d` is recorded, no verdict since
trusts the model, and the gates have held since the recorded instant. -/
structure Waiting (h : Hysteresis) (d : ℕ) : Prop where
  demotion : ∃ e, past[d]? = some e ∧ EvaluateEntry.Demotes model e ∧
    h.boundsAtDemotion = EvaluateEntry.bounds model e
  untrusted : HoldsFrom (fun e => EvaluateEntry.trusts model e = false) past d
  since : ∀ instant, h.gatesOkSince = some instant →
    ∃ s e, d < s ∧ past[s]? = some e ∧ e.event.shared.now = instant ∧
      HoldsFrom (EvaluateEntry.Holds t model) past s

/-- Trust was lost at `d` and regained at `r`, with the gates holding since
`s`: for the waiting time and the new bounds up to `r`, and from there on. -/
structure Regained (d s r : ℕ) : Prop where
  order : d < s ∧ s ≤ r
  law : ∃ ed es er, past[d]? = some ed ∧ past[s]? = some es ∧
    past[r]? = some er ∧ EvaluateEntry.Demotes model ed ∧
    (t.repromotionHours * hour : ℕ) ≤
      (er.event.shared.now : ℤ) - es.event.shared.now ∧
    (t.repromotionWindows : ℤ) ≤
      (EvaluateEntry.bounds model er : ℤ) - EvaluateEntry.bounds model ed
  untrusted : ∀ m e, d ≤ m → m < r → past[m]? = some e →
    EvaluateEntry.trusts model e = false
  holds : HoldsFrom (EvaluateEntry.Holds t model) past s
  trusted : HoldsFrom (fun e => EvaluateEntry.returned e = true →
    EvaluateEntry.trusts model e = true) past r

/-- What the stored hysteresis of the model says about the evaluations so
far. -/
inductive Remembers : Option Hysteresis → Prop
  | nothing (hforgotten : Forgotten model past past.length) : Remembers none
  | never {h : Hysteresis} (htrusted : h.trusted = false)
      (hever : h.everTrusted = false)
      (hforgotten : Forgotten model past past.length) : Remembers (some h)
  | first {h : Hysteresis} (htrusted : h.trusted = true)
      (hever : h.everTrusted = true) {n : ℕ} (hn : n ≤ past.length)
      (hforgotten : Forgotten model past n)
      (hsince : HoldsFrom (fun e => EvaluateEntry.returned e = true →
        EvaluateEntry.trusts model e = true) past n) : Remembers (some h)
  | waiting {h : Hysteresis} (htrusted : h.trusted = false)
      (hever : h.everTrusted = true) {d : ℕ}
      (hwaiting : Waiting t model past h d) : Remembers (some h)
  | regained {h : Hysteresis} (htrusted : h.trusted = true)
      (hever : h.everTrusted = true) {d s r : ℕ}
      (hregained : Regained t model past d s r) : Remembers (some h)

end Memory

section Extend

variable {t : TrustSettings} {model : Model} {past : List EvaluateEntry}
  {x : EvaluateEntry}

theorem Forgotten.snoc {n : ℕ} (hn : n ≤ past.length)
    (h : Forgotten model past n) : Forgotten model (past ++ [x]) n := by
  intro m e hm he htrusts
  rw [List.getElem?_append_left (by omega)] at he
  obtain ⟨m', e', hlt, hlt', he', hmisses⟩ := h m e hm he htrusts
  exact ⟨m', e', hlt, hlt', getElem?_snoc_of_some x he', hmisses⟩

/-- An evaluation that does not trust the model adds nothing to remember. -/
theorem Forgotten.extend (hx : EvaluateEntry.trusts model x = false)
    (h : Forgotten model past past.length) :
    Forgotten model (past ++ [x]) (past ++ [x]).length := by
  intro m e hm he htrusts
  rw [List.length_append, List.length_singleton] at hm
  rcases Nat.lt_succ_iff_lt_or_eq.mp hm with hlt | rfl
  · rw [List.getElem?_append_left hlt] at he
    obtain ⟨m', e', hlt, hlt', he', hmisses⟩ := h m e hlt he htrusts
    refine ⟨m', e', hlt, ?_, getElem?_snoc_of_some x he', hmisses⟩
    rw [List.length_append]
    omega
  · rw [List.getElem?_concat_length, Option.some.injEq] at he
    rw [he, htrusts] at hx
    cases hx

/-- An evaluation without the model makes everything before it forgotten. -/
theorem Forgotten.of_misses (hx : EvaluateEntry.trusts model x = false)
    (hmisses : EvaluateEntry.misses model x = true) :
    Forgotten model (past ++ [x]) (past ++ [x]).length := by
  intro m e hm he htrusts
  rw [List.length_append, List.length_singleton] at hm
  rcases Nat.lt_succ_iff_lt_or_eq.mp hm with hlt | rfl
  · refine ⟨past.length, x, hlt, ?_, List.getElem?_concat_length, hmisses⟩
    simp
  · rw [List.getElem?_concat_length, Option.some.injEq] at he
    rw [he, htrusts] at hx
    cases hx

theorem Waiting.snoc {h : Hysteresis} {d : ℕ}
    (hwaiting : Waiting t model past h d)
    (hx : EvaluateEntry.trusts model x = false)
    (hholds : EvaluateEntry.Holds t model x) :
    Waiting t model (past ++ [x]) h d := by
  obtain ⟨⟨e, he, hdemotes, hbounds⟩, huntrusted, hsince⟩ := hwaiting
  refine ⟨⟨e, getElem?_snoc_of_some x he, hdemotes, hbounds⟩,
    huntrusted.snoc hx, ?_⟩
  intro instant hinstant
  obtain ⟨s, es, hds, hes, hnow, hfrom⟩ := hsince instant hinstant
  exact ⟨s, es, hds, getElem?_snoc_of_some x hes, hnow, hfrom.snoc hholds⟩

theorem Regained.snoc {d s r : ℕ} (hregained : Regained t model past d s r)
    (hholds : EvaluateEntry.Holds t model x)
    (htrusts : EvaluateEntry.returned x = true →
      EvaluateEntry.trusts model x = true) :
    Regained t model (past ++ [x]) d s r := by
  obtain ⟨horder, ⟨ed, es, er, hd, hs, hr, hlaw⟩, huntrusted, hfrom, htrusted⟩ :=
    hregained
  refine ⟨horder, ⟨ed, es, er, getElem?_snoc_of_some x hd,
    getElem?_snoc_of_some x hs, getElem?_snoc_of_some x hr, hlaw⟩, ?_,
    hfrom.snoc hholds, htrusted.snoc htrusts⟩
  intro m e hdm hmr he
  obtain ⟨hlt, -⟩ := List.getElem?_eq_some_iff.mp hr
  rw [List.getElem?_append_left (by omega)] at he
  exact huntrusted m e hdm hmr he

/-- An evaluation that raises leaves everything remembered. -/
theorem Remembers.of_raised {stored : Option Hysteresis}
    (hx : EvaluateEntry.returned x = false)
    (h : Remembers t model past stored) :
    Remembers t model (past ++ [x]) stored := by
  have htrusts : EvaluateEntry.trusts model x = false := by
    unfold EvaluateEntry.returned Except.isOk Except.toBool at hx
    unfold EvaluateEntry.trusts
    split at hx <;> simp_all
  have hreturned : ∀ P : Prop, EvaluateEntry.returned x = true → P := by
    intro P hreturned
    rw [hx] at hreturned
    cases hreturned
  cases h with
  | nothing hforgotten => exact .nothing (hforgotten.extend htrusts)
  | never htrusted hever hforgotten =>
      exact .never htrusted hever (hforgotten.extend htrusts)
  | first htrusted hever hn hforgotten hsince =>
      refine .first htrusted hever ?_ (hforgotten.snoc hn)
        (hsince.snoc (hreturned _))
      rw [List.length_append]
      omega
  | waiting htrusted hever hwaiting =>
      exact .waiting htrusted hever (hwaiting.snoc htrusts (hreturned _))
  | regained htrusted hever hregained =>
      exact .regained htrusted hever
        (hregained.snoc (hreturned _) (hreturned _))

/-- While a demoted model's gates hold, they have held since the instant that
the transition records. -/
theorem Waiting.heldSince {h : Hysteresis} {d : ℕ}
    (hwaiting : Waiting t model past h d)
    (hholds : EvaluateEntry.Holds t model x) :
    ∃ s e, d < s ∧ (past ++ [x])[s]? = some e ∧
      e.event.shared.now = h.gatesOkSince.getD x.event.shared.now ∧
      HoldsFrom (EvaluateEntry.Holds t model) (past ++ [x]) s := by
  obtain ⟨ed, hd, -⟩ := hwaiting.demotion
  obtain ⟨hlt, -⟩ := List.getElem?_eq_some_iff.mp hd
  cases hsince : h.gatesOkSince with
  | none =>
      exact ⟨past.length, x, hlt, List.getElem?_concat_length, rfl,
        HoldsFrom.of_length hholds⟩
  | some instant =>
      obtain ⟨s, e, hds, he, hnow, hfrom⟩ := hwaiting.since instant hsince
      exact ⟨s, e, hds, getElem?_snoc_of_some x he, hnow,
        hfrom.snoc hholds⟩

/-- An evaluation with the model: each transition of its hysteresis is
remembered. -/
theorem Remembers.of_steps {h next : Hysteresis} {ok : Bool}
    (hremembers : Remembers t model past (some h))
    (hsteps : h.Steps (EvaluateEntry.bounds model x) x.event.shared.now t ok
      next)
    (hreturned : EvaluateEntry.returned x = true)
    (hbefore : h.trusted = true →
      (x.before.models model).any (·.trusted) = true)
    (hgates : EvaluateEntry.gatesHold t model x = ok)
    (htrusts : EvaluateEntry.trusts model x = next.trusted) :
    Remembers t model (past ++ [x]) (some next) := by
  have hlength : past.length ≤ (past ++ [x]).length := by simp
  cases hsteps with
  | keep htrusted =>
      rw [htrusted] at htrusts
      cases hremembers with
      | never hfalse => simp [htrusted] at hfalse
      | waiting hfalse => simp [htrusted] at hfalse
      | first _ hever hn hforgotten hsince =>
          exact .first htrusted hever (hn.trans hlength) (hforgotten.snoc hn)
            (hsince.snoc fun _ => htrusts)
      | regained _ hever hregained =>
          exact .regained htrusted hever
            (hregained.snoc (fun _ => hgates) fun _ => htrusts)
  | demote htrusted =>
      have hwaiting : Waiting t model (past ++ [x])
          { h with
            trusted := false, demotedAt := some x.event.shared.now
            boundsAtDemotion := EvaluateEntry.bounds model x
            gatesOkSince := none } past.length := by
        refine ⟨⟨x, List.getElem?_concat_length,
          ⟨hreturned, hbefore htrusted, htrusts⟩, rfl⟩,
          HoldsFrom.of_length htrusts, ?_⟩
        intro instant hinstant
        cases hinstant
      cases hremembers with
      | never hfalse => simp [htrusted] at hfalse
      | waiting hfalse => simp [htrusted] at hfalse
      | first _ hever => exact .waiting rfl hever hwaiting
      | regained _ hever => exact .waiting rfl hever hwaiting
  | fail hfalse =>
      have huntrusts : EvaluateEntry.trusts model x = false :=
        htrusts.trans hfalse
      cases hremembers with
      | first htrusted => simp [htrusted] at hfalse
      | regained htrusted => simp [htrusted] at hfalse
      | never _ hever hforgotten =>
          exact .never hfalse hever (hforgotten.extend huntrusts)
      | waiting _ hever hwaiting =>
          obtain ⟨⟨e, he, hdemotes⟩, huntrusted, -⟩ := hwaiting
          refine .waiting hfalse hever
            ⟨⟨e, getElem?_snoc_of_some x he, hdemotes⟩,
              huntrusted.snoc huntrusts, ?_⟩
          intro instant hinstant
          cases hinstant
  | first hfalse hnever =>
      cases hremembers with
      | first htrusted => simp [htrusted] at hfalse
      | regained htrusted => simp [htrusted] at hfalse
      | waiting _ hever => simp [hever] at hnever
      | never _ _ hforgotten =>
          exact .first rfl rfl hlength (hforgotten.snoc le_rfl)
            (HoldsFrom.of_length fun _ => htrusts)
  | regain hfalse hever hregained =>
      cases hremembers with
      | first htrusted => simp [htrusted] at hfalse
      | regained htrusted => simp [htrusted] at hfalse
      | never _ hnever => simp [hever] at hnever
      | waiting _ _ hwaiting =>
          obtain ⟨s, es, hds, hes, hsince, hfrom⟩ :=
            hwaiting.heldSince fun _ => hgates
          obtain ⟨ed, hd, hdemotes, hbounds⟩ := hwaiting.demotion
          simp only [Hysteresis.regained, Bool.and_eq_true,
            decide_eq_true_eq] at hregained
          obtain ⟨⟨htime, -⟩, hnew⟩ := hregained
          have hs := (List.getElem?_eq_some_iff.mp hes).1
          rw [List.length_append, List.length_singleton] at hs
          refine .regained rfl hever ⟨⟨hds, Nat.lt_succ_iff.mp hs⟩,
            ⟨ed, es, x, getElem?_snoc_of_some x hd, hes,
              List.getElem?_concat_length, hdemotes, ?_, ?_⟩, ?_, hfrom,
            HoldsFrom.of_length fun _ => htrusts⟩
          · rw [hsince]
            exact htime
          · rw [← hbounds]
            exact hnew
          · intro m e hdm hm he
            rw [List.getElem?_append_left hm] at he
            exact hwaiting.untrusted m e hdm he
  | wait hfalse hever =>
      cases hremembers with
      | first htrusted => simp [htrusted] at hfalse
      | regained htrusted => simp [htrusted] at hfalse
      | never _ hnever => simp [hever] at hnever
      | waiting _ _ hwaiting =>
          obtain ⟨s, es, hds, hes, hsince, hfrom⟩ :=
            hwaiting.heldSince fun _ => hgates
          obtain ⟨⟨e, he, hdemotes⟩, huntrusted, -⟩ := hwaiting
          refine .waiting hfalse hever
            ⟨⟨e, getElem?_snoc_of_some x he, hdemotes⟩,
              huntrusted.snoc (htrusts.trans hfalse), ?_⟩
          intro instant hinstant
          cases hinstant
          exact ⟨s, es, hds, hes, hsince, hfrom⟩

end Extend

theorem Hysteresis.Steps.identity {h next : Hysteresis} {bounds now : ℕ}
    {t : TrustSettings} {ok : Bool} (hsteps : h.Steps bounds now t ok next) :
    (next.epoch, next.recipe) = (h.epoch, h.recipe) := by
  cases hsteps <;> rfl

/-- The evaluations give the model evidence of one epoch and one recipe. -/
def OneRecipe (model : Model) (epoch : EvidenceKey) (recipe : String)
    (call : EvaluateCall) : Prop :=
  ∀ ci, byModel call.cands model = some ci →
    (ci.ledger.epoch, ci.ledger.recipe) = (epoch, recipe)

section Runs

variable {t : TrustSettings} {model : Model} {epoch : EvidenceKey}
  {recipe : String}

/-- A verdict trusts the model exactly when the state it returns does. -/
theorem evaluateStep_trusts {state : TrustState} {call : EvaluateCall}
    (h : EvaluateEntry.trusts model (entryAt (evaluateStep t) state call) =
      true) :
    ((evaluateStep t state call).1.models model).any (·.trusted) = true := by
  simp only [EvaluateEntry.trusts, entryAt, evaluateStep] at h ⊢
  cases heval : evaluate call.cands state call.shared t call.pairs
      call.costs with
  | error raised => simp [heval] at h
  | ok result =>
      simp only [heval] at h ⊢
      rw [← (evaluate_ok heval).2 model]
      exact h

/-- One evaluation keeps what is remembered of the model. -/
theorem evaluateStep_remembers {past : List EvaluateEntry}
    {state : TrustState} {call : EvaluateCall}
    (hcall : OneRecipe model epoch recipe call)
    (hsame : ∀ h, state.models model = some h →
      (h.epoch, h.recipe) = (epoch, recipe))
    (hremembers : Remembers t model past (state.models model)) :
    (∀ h, (evaluateStep t state call).1.models model = some h →
      (h.epoch, h.recipe) = (epoch, recipe)) ∧
    Remembers t model (past ++ [entryAt (evaluateStep t) state call])
      ((evaluateStep t state call).1.models model) := by
  let x := entryAt (evaluateStep t) state call
  change _ ∧ Remembers t model (past ++ [x]) _
  cases heval : evaluate call.cands state call.shared t call.pairs
      call.costs with
  | error raised =>
      have hstate : (evaluateStep t state call).1 = state := by
        simp [evaluateStep, heval]
      rw [hstate]
      refine ⟨hsame, hremembers.of_raised ?_⟩
      simp [x, EvaluateEntry.returned, entryAt, evaluateStep, heval,
        Except.isOk, Except.toBool]
  | ok result =>
      obtain ⟨hmodels, htrusts⟩ := evaluate_ok heval
      have hstate : (evaluateStep t state call).1 = result.2 := by
        simp [evaluateStep, heval]
      have hreturned : EvaluateEntry.returned x = true := by
        simp [x, EvaluateEntry.returned, entryAt, evaluateStep, heval,
          Except.isOk, Except.toBool]
      have hx : EvaluateEntry.trusts model x =
          (result.2.models model).any (·.trusted) := by
        rw [← htrusts model]
        simp [x, EvaluateEntry.trusts, entryAt, evaluateStep, heval]
      rw [hstate, hmodels]
      rw [hmodels] at hx
      cases hpresent : byModel call.cands model with
      | none =>
          simp only [stepModels, hpresent, Option.map_none, Option.any_none]
            at hx ⊢
          have hmisses : EvaluateEntry.misses model x = true := by
            have habsent : EvaluateEntry.inputs? model x = none := hpresent
            simp [EvaluateEntry.misses, hreturned, habsent]
          exact ⟨fun h hnone => (by cases hnone),
            .nothing (Forgotten.of_misses hx hmisses)⟩
      | some ci =>
          simp only [stepModels, hpresent, Option.map_some, Option.any_some,
            Option.some.injEq] at hx ⊢
          let h := (state.models model).getD
            (Hysteresis.fresh ci.ledger.recipe ci.ledger.epoch)
          have hidentity : (h.epoch, h.recipe) =
              (ci.ledger.epoch, ci.ledger.recipe) := by
            cases hstored : state.models model with
            | none => simp [h, hstored, Hysteresis.fresh]
            | some stored =>
                rw [hcall ci hpresent]
                simpa [h, hstored] using hsame stored hstored
          have hknown : Remembers t model past (some h) := by
            cases hstored : state.models model with
            | none =>
                rw [hstored] at hremembers
                cases hremembers with
                | nothing hforgotten =>
                    simp only [h, hstored, Option.getD_none]
                    exact .never rfl rfl hforgotten
            | some stored =>
                simpa [h, hstored] using hstored ▸ hremembers
          have hbefore : h.trusted = true →
              (x.before.models model).any (·.trusted) = true := by
            cases hstored : state.models model with
            | none => simp [h, hstored, Hysteresis.fresh]
            | some stored => simp [h, x, entryAt, hstored]
          have hbounds : EvaluateEntry.bounds model x =
              ci.ledger.totals.prospectiveGateBounded := by
            simp [x, entryAt, EvaluateEntry.bounds, EvaluateEntry.inputs?,
              hpresent]
          have hsteps := h.step_steps (candidateGates ci call.shared t).1.all
            ci.ledger call.shared.now t hidentity
          rw [← hbounds] at hsteps
          refine ⟨?_, hknown.of_steps hsteps hreturned hbefore ?_ hx⟩
          · rintro next rfl
            rw [hsteps.identity, hidentity]
            exact hcall ci hpresent
          · simp [x, entryAt, EvaluateEntry.gatesHold, EvaluateEntry.inputs?,
              hpresent]

/-- What is remembered after the first evaluations of a run. -/
theorem evaluateRun_remembers {calls : List EvaluateCall}
    (hone : ∀ call ∈ calls, OneRecipe model epoch recipe call) {k : ℕ}
    {ek : EvaluateEntry} (hk : (evaluateRun t calls)[k]? = some ek) :
    ek = entryAt (evaluateStep t) ek.before ek.event ∧
    Remembers t model ((evaluateRun t calls).take (k + 1))
      ((evaluateStep t ek.before ek.event).1.models model) := by
  let H : List EvaluateEntry → TrustState → Prop := fun past state =>
    (∀ e ∈ past, OneRecipe model epoch recipe e.event) →
      (∀ h, state.models model = some h →
        (h.epoch, h.recipe) = (epoch, recipe)) ∧
      Remembers t model past (state.models model)
  have hstart : H [] {} := by
    intro _
    refine ⟨fun h hnone => (by cases hnone), .nothing ?_⟩
    intro m e hm
    cases hm
  have hstep : ∀ past state call, H past state →
      H (past ++ [entryAt (evaluateStep t) state call])
        (evaluateStep t state call).1 := by
    intro past state call hH hgood
    obtain ⟨hsame, hremembers⟩ := hH fun e he =>
      hgood e (List.mem_append_left _ he)
    exact evaluateStep_remembers
      (hgood _ (List.mem_append_right _ (List.mem_singleton_self _)))
      hsame hremembers
  obtain ⟨hlt, hget⟩ := List.getElem?_eq_some_iff.mp hk
  have hsplit : evaluateRun t calls = (evaluateRun t calls).take k ++
      ek :: (evaluateRun t calls).drop (k + 1) := by
    rw [← hget, List.getElem_cons_drop, List.take_append_drop]
  obtain ⟨hH, hentry⟩ := runTrace_history H hstep hstart hsplit
  refine ⟨hentry, ?_⟩
  have htake : (evaluateRun t calls).take (k + 1) =
      (evaluateRun t calls).take k ++
        [entryAt (evaluateStep t) ek.before ek.event] := by
    rw [List.take_add_one, hk, ← hentry]
    rfl
  have hnext := hstep _ _ ek.event hH
  rw [← htake] at hnext
  refine (hnext fun e he => ?_).2
  have hevent : e.event ∈ (evaluateRun t calls).map Entry.event :=
    List.mem_map_of_mem (List.mem_of_mem_take he)
  rw [evaluateRun, runTrace_map_event] at hevent
  exact hone _ hevent

/-- The law of re-promotion at the evaluations `i`, `j` and `k` of a run:
trust was lost at some `d` after `i` and regained at some `r` after `j`, the
gates hold in every evaluation from some `s` after `j` on up to `k`, for the
waiting time, and the new bounds arrived between `d` and `r`. -/
def Repromoted (t : TrustSettings) (model : Model) (run : List EvaluateEntry)
    (i j k : ℕ) : Prop :=
  ∃ d s r ed es er ek, i < d ∧ d < s ∧ j < s ∧ s ≤ r ∧ r ≤ k ∧
    run[d]? = some ed ∧ run[s]? = some es ∧ run[r]? = some er ∧
    run[k]? = some ek ∧ EvaluateEntry.Demotes model ed ∧
    (∀ m e, s ≤ m → m ≤ k → run[m]? = some e →
      EvaluateEntry.Holds t model e) ∧
    (t.repromotionHours * hour : ℕ) ≤
      (ek.event.shared.now : ℤ) - es.event.shared.now ∧
    (t.repromotionWindows : ℤ) ≤
      (EvaluateEntry.bounds model er : ℤ) - EvaluateEntry.bounds model ed

/-- The waiting time up to `k` lies after `j`: a gate fails at `j`, or the
evaluation after `j` is that long before `k`. -/
def WaitsAfter (t : TrustSettings) (model : Model) (run : List EvaluateEntry)
    (j k : ℕ) : Prop :=
  run[j]?.any (fun e => !EvaluateEntry.gatesHold t model e) = true ∨
    ∃ e ek, run[j + 1]? = some e ∧ run[k]? = some ek ∧
      (t.repromotionHours * hour : ℕ) ≤
        (ek.event.shared.now : ℤ) - e.event.shared.now

/-- In every run of evaluations of one epoch and one recipe, at growing
instants: if the model is trusted at `i`, not trusted at a later `j` in which
it is present and trusted again at a later `k`, no evaluation after `i` lacks
it and the waiting time lies after `j`, then it was re-promoted by the law. -/
theorem repromotion_law {calls : List EvaluateCall}
    (hone : ∀ call ∈ calls, OneRecipe model epoch recipe call)
    (hnow : calls.Pairwise fun a b => a.shared.now < b.shared.now)
    {i j k : ℕ} (hij : i < j) (hjk : j < k)
    (hi : (evaluateRun t calls)[i]?.any (EvaluateEntry.trusts model) = true)
    (hj : (evaluateRun t calls)[j]?.any (fun e =>
      EvaluateEntry.returned e && !EvaluateEntry.trusts model e) = true)
    (hk : (evaluateRun t calls)[k]?.any (EvaluateEntry.trusts model) = true)
    (hpresent : ∀ m ≤ k, i < m →
      (evaluateRun t calls)[m]?.any (EvaluateEntry.misses model) = false)
    (hwaits : WaitsAfter t model (evaluateRun t calls) j k) :
    Repromoted t model (evaluateRun t calls) i j k := by
  obtain ⟨ei, hi, hitrusts⟩ := (Option.any_eq_true _ _).mp hi
  obtain ⟨ej, hj, hjverdict⟩ := (Option.any_eq_true _ _).mp hj
  obtain ⟨ek, hk, hktrusts⟩ := (Option.any_eq_true _ _).mp hk
  simp only [Bool.and_eq_true, Bool.not_eq_true'] at hjverdict
  obtain ⟨hjreturned, hjuntrusts⟩ := hjverdict
  obtain ⟨hentry, hremembers⟩ := evaluateRun_remembers hone hk
  have hget : ∀ m, m ≤ k →
      ((evaluateRun t calls).take (k + 1))[m]? = (evaluateRun t calls)[m]? :=
    fun m hm => List.getElem?_take_of_lt (by omega)
  have hstate := evaluateStep_trusts (hentry ▸ hktrusts)
  generalize hstored : (evaluateStep t ek.before ek.event).1.models model =
    stored at hremembers hstate
  cases hremembers with
  | nothing => cases hstate
  | never hfalse => simp [hfalse] at hstate
  | waiting hfalse => simp [hfalse] at hstate
  | @first h _ _ n hn hforgotten hsince =>
      -- Trusted since a first promotion at `n`, so `i` precedes it and some
      -- evaluation between the two lacks the model.
      have hjn : j < n := by
        by_contra hle
        have := hsince j ej (by omega) ((hget j hjk.le).trans hj) hjreturned
        simp [this] at hjuntrusts
      obtain ⟨m, e, him, hmn, he, hmisses⟩ := hforgotten i ei (by omega)
        ((hget i (by omega)).trans hi) hitrusts
      have hm : m ≤ k := by
        have := (List.getElem?_eq_some_iff.mp he).1
        rw [List.length_take] at this
        omega
      have hhas := hpresent m hm him
      rw [← hget m hm, he, Option.any_some, hmisses] at hhas
      cases hhas
  | @regained h _ _ d s r hregained =>
      obtain ⟨⟨hds, hsr⟩, ⟨ed, es, er, hd, hs, hr, hdemotes, htime, hnew⟩,
        huntrusted, hfrom, htrusted⟩ := hregained
      have hrk : r ≤ k := by
        have := (List.getElem?_eq_some_iff.mp hr).1
        rw [List.length_take] at this
        omega
      have hjr : j < r := by
        by_contra hle
        have := htrusted j ej (by omega) ((hget j hjk.le).trans hj) hjreturned
        simp [this] at hjuntrusts
      have hid : i < d := by
        by_contra hle
        have := huntrusted i ei (by omega) (by omega)
          ((hget i (by omega)).trans hi)
        simp [this] at hitrusts
      rw [hget d (by omega)] at hd
      rw [hget s (by omega)] at hs
      rw [hget r hrk] at hr
      have hlater : er.event.shared.now ≤ ek.event.shared.now := by
        rcases Nat.lt_or_eq_of_le hrk with hlt | rfl
        · exact (getElem?_runTrace_lt hnow hlt hr hk).le
        · rw [Option.some.inj (hr.symm.trans hk)]
      have hholds : ∀ m e, s ≤ m → m ≤ k →
          (evaluateRun t calls)[m]? = some e →
          EvaluateEntry.Holds t model e := fun m e hsm hmk he =>
        hfrom m e hsm ((hget m hmk).trans he)
      by_cases hjs : j < s
      · exact ⟨d, s, r, ed, es, er, ek, hid, hds, hjs, hsr, hrk, hd, hs, hr,
          hk, hdemotes, hholds, by omega, hnew⟩
      -- the gates hold at `j` already, so the waiting time is counted anew
      rcases hwaits with hfails | ⟨e, ek', he, hek, hspan⟩
      · rw [hj, Option.any_some, hholds j ej (by omega) hjk.le hj hjreturned]
          at hfails
        cases hfails
      · obtain rfl := Option.some.inj (hk.symm.trans hek)
        exact ⟨d, j + 1, r, ed, e, er, ek, hid, by omega, Nat.lt_succ_self j,
          hjr, hrk, hd, he, hr, hk, hdemotes,
          fun m e' hm => hholds m e' (by omega), hspan, hnew⟩

end Runs

namespace RepromotionWitness

def epoch : EvidenceKey where
  autoscalerUid := "pa"
  targetUid := "web"
  querySha256 := "query"
  intervalSeconds := 300
  leadSeconds := 1800
  engine := .statistical
  seasonality := .daily
  historyDays := 14
  settlementSeconds := 120
  outcomeGraceSeconds := 600
  risk := {}
  calibration := {}

/-- Two days of complete evidence before the hour `h`: twelve origins and two
gate bounds an hour. -/
def ledger (model : Model) (h misses bounds : ℕ) : Ledger :=
  { epoch, model, recipe := "recipe", intervalSeconds := 300
    buckets := .ofList ((List.range 48).map fun k =>
      ((h - 48 + k,
        { iss := 12, gIss := 2, sc := 12, gSc := 2, aBd := 12, aCv := 12,
          gBd := 2, gCv := 2 }) : ℕ × Bucket))
    consecutiveMisses := misses
    firstProspective := some 0
    firstIssue := some 0
    totals := { prospectiveGateBounded := bounds } }

/-- The candidate, with every gate but that of its misses. -/
def candidate (model : Model) (h misses bounds : ℕ) : CandidateInputs :=
  { model, ledger := ledger model h misses bounds, boundAvailable := true
    calibrationWindows := 336, minCalibrationWindows := 128
    historySeconds := 1209600, requiredHistorySeconds := 604800
    dataFresh := true }

/-- An evaluation `seconds` after the hour `h`. -/
def call (h seconds : ℕ) (cands : List CandidateInputs) : EvaluateCall :=
  { cands
    shared :=
      { now := h * hour + seconds, leadSeconds := 1800
        nominalMiscoverage := 1 / 10 } }

/-- Trusted, then five misses in a row, then all gates hold: at the same hour
and a day and 32 bounds later. -/
def patient : List EvaluateCall :=
  [call 400 0 [candidate .statistical 400 0 96],
    call 400 300 [candidate .statistical 400 5 101],
    call 400 600 [candidate .statistical 400 0 102],
    call 424 900 [candidate .statistical 424 0 133]]

/-- Trusted, then five misses in a row, then no kernel output for the model,
then all gates hold again. -/
def forgetful : List EvaluateCall :=
  [call 400 0 [candidate .statistical 400 0 96],
    call 400 300 [candidate .statistical 400 5 101],
    call 400 600 [candidate .seasonalNaive 400 0 96],
    call 400 900 [candidate .statistical 400 0 102]]

theorem oneRecipe_call (h seconds misses bounds : ℕ) (model : Model) :
    OneRecipe .statistical epoch "recipe"
      (call h seconds [candidate model h misses bounds]) := by
  intro ci hci
  have hmem : ci ∈ [candidate model h misses bounds].reverse :=
    List.mem_of_find?_eq_some hci
  rw [List.reverse_singleton, List.mem_singleton] at hmem
  rw [hmem]
  rfl

end RepromotionWitness

open RepromotionWitness in
theorem patient_repromoted :
    Repromoted {} .statistical (evaluateRun {} patient) 0 1 3 := by
  have hone : ∀ call ∈ patient,
      OneRecipe .statistical epoch "recipe" call := by
    intro call hcall
    simp only [patient, List.mem_cons, List.not_mem_nil, or_false] at hcall
    rcases hcall with rfl | rfl | rfl | rfl <;> exact oneRecipe_call _ _ _ _ _
  have hfails : (evaluateRun {} patient)[1]?.any (fun e =>
      !EvaluateEntry.gatesHold {} .statistical e) = true := by decide +kernel
  apply repromotion_law hone <;> first | exact .inl hfails | decide +kernel

open RepromotionWitness in
/-- Seen from a later evaluation in which the gates hold again, the waiting
time has begun before it. -/
theorem patient_waits_before :
    (evaluateRun {} patient)[2]?.any (fun e =>
      EvaluateEntry.returned e && !EvaluateEntry.trusts .statistical e) =
      true ∧
    ¬Repromoted {} .statistical (evaluateRun {} patient) 0 2 3 := by
  refine ⟨by decide +kernel, ?_⟩
  rintro ⟨d, s, r, ed, es, er, ek, -, -, hjs, hsr, hrk, -, hs, -, hk, -, -,
    htime, -⟩
  obtain rfl : s = 3 := by omega
  obtain rfl := Option.some.inj (hs.symm.trans hk)
  have hwait : (((({} : TrustSettings).repromotionHours * hour : ℕ) : ℤ)) =
      86400 := rfl
  omega

open RepromotionWitness in
theorem forgetful_not_repromoted :
    (∀ call ∈ forgetful, OneRecipe .statistical epoch "recipe" call) ∧
    (forgetful.Pairwise fun a b => a.shared.now < b.shared.now) ∧
    (evaluateRun {} forgetful)[0]?.any
      (EvaluateEntry.trusts .statistical) = true ∧
    (evaluateRun {} forgetful)[1]?.any (fun e =>
      EvaluateEntry.returned e && !EvaluateEntry.trusts .statistical e) =
      true ∧
    (evaluateRun {} forgetful)[3]?.any
      (EvaluateEntry.trusts .statistical) = true ∧
    ¬Repromoted {} .statistical (evaluateRun {} forgetful) 0 1 3 := by
  refine ⟨?_, by decide +kernel, by decide +kernel, by decide +kernel,
    by decide +kernel, ?_⟩
  · intro call hcall
    simp only [forgetful, List.mem_cons, List.not_mem_nil, or_false] at hcall
    rcases hcall with rfl | rfl | rfl | rfl <;> exact oneRecipe_call _ _ _ _ _
  · rintro ⟨d, s, r, ed, es, er, ek, -, -, -, -, -, -, hs, -, hk, -, -,
      htime, -⟩
    have hspan : ∀ e ∈ evaluateRun {} forgetful,
        400 * hour ≤ e.event.shared.now ∧
          e.event.shared.now ≤ 400 * hour + 900 := by
      decide +kernel
    have hes := hspan es (List.mem_of_getElem? hs)
    have hek := hspan ek (List.mem_of_getElem? hk)
    have hwait : (((({} : TrustSettings).repromotionHours * hour : ℕ) : ℤ)) =
        86400 := rfl
    omega

end PredictiveAutoscaler.Forecasting
