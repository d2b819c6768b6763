/-
Runs of a deterministic step function that reports what each step did.  A
property of two steps of a run, however far apart, follows from a property of
the state that the first step establishes and every later step keeps.
-/
import Mathlib.Data.List.Basic

namespace PredictiveAutoscaler

universe u v w

variable {S : Type u} {E : Type v} {R : Type w}

/-- One step of a run: the state it found, its event and its report. -/
structure Entry (S : Type u) (E : Type v) (R : Type w) where
  before : S
  event : E
  report : R

/-- The entry of one event. -/
def entryAt (step : S → E → S × R) (s : S) (event : E) : Entry S E R :=
  ⟨s, event, (step s event).2⟩

/-- The entries of a run, in order. -/
def runTrace (step : S → E → S × R) : S → List E → List (Entry S E R)
  | _, [] => []
  | s, event :: rest =>
      entryAt step s event :: runTrace step (step s event).1 rest

/-- The events of a run's entries are the run's events. -/
theorem runTrace_map_event (step : S → E → S × R) (s : S) (events : List E) :
    (runTrace step s events).map Entry.event = events := by
  induction events generalizing s with
  | nil => rfl
  | cons event rest ih => simp [runTrace, entryAt, ih]

/-- Reports that are a function of the event are the run's events under it. -/
theorem runTrace_map_report {step : S → E → S × R} {s : S} {events : List E}
    {f : E → R} (h : ∀ e ∈ runTrace step s events, e.report = f e.event) :
    (runTrace step s events).map Entry.report = events.map f :=
  calc (runTrace step s events).map Entry.report
      = (runTrace step s events).map (f ∘ Entry.event) :=
        List.map_congr_left h
    _ = events.map f := by rw [← List.map_map, runTrace_map_event]

/-- A relation between the events of a run relates its entries. -/
theorem getElem?_runTrace_lt {step : S → E → S × R} {s : S} {events : List E}
    {P : E → E → Prop} (h : events.Pairwise P) {m n : ℕ} (hmn : m < n)
    {e e' : Entry S E R} (he : (runTrace step s events)[m]? = some e)
    (he' : (runTrace step s events)[n]? = some e') : P e.event e'.event := by
  rw [← runTrace_map_event step s events, List.pairwise_map] at h
  obtain ⟨hm, rfl⟩ := List.getElem?_eq_some_iff.mp he
  obtain ⟨hn, rfl⟩ := List.getElem?_eq_some_iff.mp he'
  exact List.pairwise_iff_getElem.mp h m n hm hn hmn

/-- Everything in a list from index `n` on satisfies `P`. -/
def HoldsFrom {A : Type u} (P : A → Prop) (xs : List A) (n : ℕ) : Prop :=
  ∀ m x, n ≤ m → xs[m]? = some x → P x

theorem HoldsFrom.snoc {A : Type u} {P : A → Prop} {xs : List A} {n : ℕ}
    {x : A} (h : HoldsFrom P xs n) (hx : P x) : HoldsFrom P (xs ++ [x]) n := by
  intro m y hm hy
  rw [List.getElem?_append] at hy
  split at hy
  · exact h m y hm hy
  · obtain ⟨-, rfl⟩ := List.getElem?_eq_some_iff.mp hy
    simpa using hx

theorem HoldsFrom.of_length {A : Type u} {P : A → Prop} {xs : List A} {x : A}
    (hx : P x) : HoldsFrom P (xs ++ [x]) xs.length := by
  refine HoldsFrom.snoc (fun m y hm hy => ?_) hx
  rw [List.getElem?_eq_none hm] at hy
  cases hy

theorem getElem?_snoc_of_some {A : Type u} {xs : List A} {n : ℕ} {y : A}
    (x : A) (h : xs[n]? = some y) : (xs ++ [x])[n]? = some y := by
  obtain ⟨hn, -⟩ := List.getElem?_eq_some_iff.mp h
  rw [List.getElem?_append_left hn, h]

section Rules

variable {step : S → E → S × R} (Inv : S → Prop)

/-- What every entry of a run satisfies: its step, from a state that keeps the
invariant. -/
theorem mem_runTrace_imp {s : S} {events : List E} {e : Entry S E R}
    (hinv : ∀ s event, Inv s → Inv (step s event).1) (hs : Inv s)
    (he : e ∈ runTrace step s events) :
    Inv e.before ∧ e = entryAt step e.before e.event := by
  induction events generalizing s with
  | nil => simp [runTrace] at he
  | cons event rest ih =>
      simp only [runTrace, List.mem_cons] at he
      rcases he with rfl | he
      · exact ⟨hs, rfl⟩
      · exact ih (hinv s event hs) he

variable (Good : Entry S E R → Prop) (Since : Entry S E R → S → Prop)
  {Rel : Entry S E R → Entry S E R → Prop}

/-- If a step that is `Good` establishes `Since` of itself, every later good
step keeps it, and `Since` relates the earlier step to the one taken now, then
any two steps of a run of good steps are related. -/
theorem runTrace_pairwise
    (hinv : ∀ s event, Inv s → Inv (step s event).1)
    (hstart : ∀ s event, Inv s → Good (entryAt step s event) →
      Since (entryAt step s event) (step s event).1)
    (hkeep : ∀ e s event, Inv s → Good (entryAt step s event) → Since e s →
      Since e (step s event).1)
    (hrel : ∀ e s event, Inv s → Good (entryAt step s event) → Since e s →
      Rel e (entryAt step s event))
    {s : S} {events : List E} (hs : Inv s)
    (hgood : ∀ e ∈ runTrace step s events, Good e) :
    (runTrace step s events).Pairwise Rel := by
  have hlater : ∀ (events : List E) (s : S) (e : Entry S E R), Inv s →
      Since e s → (∀ e' ∈ runTrace step s events, Good e') →
      ∀ e' ∈ runTrace step s events, Rel e e' := by
    intro events
    induction events with
    | nil => simp [runTrace]
    | cons event rest ih =>
        intro s e hs hsince hgood e' he'
        simp only [runTrace, List.mem_cons] at hgood he'
        have hhead : Good (entryAt step s event) := hgood _ (Or.inl rfl)
        rcases he' with rfl | he'
        · exact hrel e s event hs hhead hsince
        · exact ih (step s event).1 e (hinv s event hs)
            (hkeep e s event hs hhead hsince)
            (fun x hx => hgood x (Or.inr hx)) e' he'
  induction events generalizing s with
  | nil => exact List.Pairwise.nil
  | cons event rest ih =>
      simp only [runTrace, List.mem_cons] at hgood
      have hhead : Good (entryAt step s event) := hgood _ (Or.inl rfl)
      have htail : ∀ e ∈ runTrace step (step s event).1 rest, Good e :=
        fun e he => hgood e (Or.inr he)
      simp only [runTrace, List.pairwise_cons]
      exact ⟨hlater rest _ _ (hinv s event hs) (hstart s event hs hhead) htail,
        ih (hinv s event hs) htail⟩

/-- A property of the steps taken so far and of the state they led to: if
every step extends it, it holds before every step of the run. -/
theorem runTrace_history (H : List (Entry S E R) → S → Prop)
    (hstep : ∀ past s event, H past s →
      H (past ++ [entryAt step s event]) (step s event).1)
    {s : S} {events : List E} {past rest : List (Entry S E R)}
    {e : Entry S E R} (hs : H [] s)
    (htrace : runTrace step s events = past ++ e :: rest) :
    H past e.before ∧ e = entryAt step e.before e.event := by
  have hfrom : ∀ (events : List E) (before past : List (Entry S E R)) (s : S),
      H before s → runTrace step s events = past ++ e :: rest →
      H (before ++ past) e.before ∧ e = entryAt step e.before e.event := by
    intro events
    induction events with
    | nil => intro before past s _ h; simp [runTrace] at h
    | cons event tail ih =>
        intro before past s hbefore h
        cases past with
        | nil =>
            simp only [runTrace, List.nil_append, List.cons.injEq] at h
            obtain ⟨rfl, -⟩ := h
            rw [List.append_nil]
            exact ⟨hbefore, rfl⟩
        | cons first past =>
            simp only [runTrace, List.cons_append, List.cons.injEq] at h
            obtain ⟨rfl, htail⟩ := h
            have hnext := ih _ past _ (hstep before s event hbefore) htail
            rw [List.append_assoc] at hnext
            exact hnext
  exact hfrom events [] past s hs htrace

end Rules

end PredictiveAutoscaler
