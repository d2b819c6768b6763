/-
When a window's outcome stays what it was: evaluations of one window at any
times, over a map of first receipts that grows between them.
-/
import PredictiveAutoscaler.Evaluation.Replay

namespace PredictiveAutoscaler.Evaluation

open Forecasting (Raised)

/-- The first receipts that are known at each moment, in milliseconds.  An
entry stays as it is and is stamped no later than it is added. -/
structure ReceiptHistory where
  known : ℤ → Received
  grows : ∀ {now later t : ℤ} {o : Observation}, now ≤ later →
    (known now).at? t = some o → (known later).at? t = some o
  stamped : ∀ {now t : ℤ} {o : Observation},
    (known now).at? t = some o → o.availableAtMs ≤ now

/-- One issued window with its base, bound and exclusions. -/
structure IssuedWindow where
  targets : List ℤ
  base : ℚ
  upper : Option ℚ
  settlement : ℤ
  grace : ℤ
  excluded : ℤ → Option String
  evenlySpaced : checkWindow targets = .ok ()

namespace IssuedWindow

variable (w : IssuedWindow) (h : ReceiptHistory)

/-- The exclusion of a target: an empty name is none. -/
def exclusion (t : ℤ) : Option String :=
  (w.excluded t).filter fun why => why ≠ ""

/-- `window_outcome` with what is known at `now`. -/
def outcome (now : ℤ) : Except Raised (Option OutcomePayload) :=
  windowOutcome w.targets w.base w.upper (h.known now) now w.settlement w.grace
    w.exclusion

def windowEnd : ℤ := w.targets.getLastD 0

def closeMs : ℤ := (w.windowEnd + w.settlement) * 1000

def deadlineMs : ℤ := truthDeadlineMs w.windowEnd w.settlement w.grace

/-- From here on a window with a missing target is unscorable. -/
def giveUpMs : ℤ := max w.closeMs w.deadlineMs

/-- The excluded targets with their exclusions. -/
def hits : List (ℤ × String) :=
  w.targets.filterMap fun t => (w.exclusion t).map fun why => (t, why)

/-- The receipt of a target by the fixed deadline, among those known. -/
def onTime (now t : ℤ) : Option Observation :=
  (h.known now).by w.deadlineMs t

/-- The targets without one. -/
def missing (now : ℤ) : List ℤ :=
  w.targets.filter fun t => (w.onTime h now t).isNone

/-- The outcome of an unexcluded window that can close. -/
def closed (now : ℤ) : Option OutcomePayload :=
  match w.missing h now with
  | first :: rest =>
      if now < w.deadlineMs then none
      else
        some (.missingTruth w.targets (rest.length + 1) first w.deadlineMs)
  | [] =>
      some (.scored (scoredPayload w.targets w.base w.upper
        (w.targets.filterMap (w.onTime h now))))

theorem by_cutoff (now t : ℤ) :
    (h.known now).by (min now w.deadlineMs) t = w.onTime h now t := by
  unfold onTime Received.by
  cases hat : (h.known now).at? t with
  | none => rfl
  | some o =>
      have hstamp := h.stamped hat
      simp only [Option.filter_some, le_min_iff, hstamp, true_and]

theorem outcome_pending {now : ℤ} (hnow : now < w.closeMs) :
    w.outcome h now = .ok none := by
  unfold outcome windowOutcome
  rw [w.evenlySpaced]
  exact if_pos hnow

theorem outcome_excluded {now first : ℤ} {why : String}
    {rest : List (ℤ × String)} (hnow : w.closeMs ≤ now)
    (hhits : w.hits = (first, why) :: rest) :
    w.outcome h now = .ok (some (.excluded w.targets (rest.length + 1) first
      why w.deadlineMs)) := by
  unfold outcome windowOutcome
  rw [w.evenlySpaced]
  refine (if_neg (not_lt.mpr hnow)).trans ?_
  unfold hits at hhits
  rw [hhits]
  rfl

theorem outcome_closed {now : ℤ} (hnow : w.closeMs ≤ now)
    (hhits : w.hits = []) : w.outcome h now = .ok (w.closed h now) := by
  have hread : (h.known now).by (min now w.deadlineMs) = w.onTime h now :=
    funext (w.by_cutoff h now)
  have hfilter : (w.targets.filter fun t =>
      ((h.known now).by (min now w.deadlineMs) t).isNone) =
        w.missing h now := by
    rw [hread]
    rfl
  unfold outcome windowOutcome
  rw [w.evenlySpaced]
  refine (if_neg (not_lt.mpr hnow)).trans ?_
  unfold hits at hhits
  rw [hhits]
  change (match w.targets.filter fun t =>
      ((h.known now).by (min now w.deadlineMs) t).isNone with
    | first :: rest => _
    | [] => _) = _
  rw [hfilter]
  unfold closed
  cases w.missing h now with
  | nil =>
      rw [← hread]
      rfl
  | cons first rest =>
      dsimp only
      split_ifs with hearly hearly'
      · rfl
      · exact absurd hearly hearly'
      · exact absurd ‹_› hearly
      · rfl

theorem hits_eq_nil : w.hits = [] ↔ ∀ t ∈ w.targets, w.exclusion t = none := by
  simp [hits, List.filterMap_eq_nil_iff]

theorem onTime_eq_some {now t : ℤ} {o : Observation} :
    w.onTime h now t = some o ↔
      (h.known now).at? t = some o ∧ o.availableAtMs ≤ w.deadlineMs := by
  unfold onTime Received.by
  rw [Option.filter_eq_some_iff, decide_eq_true_eq]

/-- A receipt by the deadline stays. -/
theorem onTime_grows {now later t : ℤ} {o : Observation} (hle : now ≤ later)
    (ho : w.onTime h now t = some o) : w.onTime h later t = some o := by
  rw [onTime_eq_some] at ho ⊢
  exact ⟨h.grows hle ho.1, ho.2⟩

/-- The same receipts give the same outcome. -/
theorem closed_congr {now later : ℤ} (hlate : now < w.deadlineMs ↔
    later < w.deadlineMs) (hsame : ∀ t ∈ w.targets,
      w.onTime h now t = w.onTime h later t) :
    w.closed h now = w.closed h later := by
  have hmissing : w.missing h now = w.missing h later :=
    List.filter_congr fun t ht => by rw [hsame t ht]
  have hvalues : w.targets.filterMap (w.onTime h now) =
      w.targets.filterMap (w.onTime h later) :=
    List.filterMap_congr hsame
  unfold closed
  rw [hmissing, hvalues]
  simp only [hlate]

theorem missing_eq_nil {now : ℤ} : w.missing h now = [] ↔
    ∀ t ∈ w.targets, ∃ o, w.onTime h now t = some o := by
  unfold missing
  rw [List.filter_eq_nil_iff]
  refine forall₂_congr fun t _ => ?_
  rw [Option.isNone_iff_eq_none, ← ne_eq, Option.ne_none_iff_exists']

/-- A window with every target on time is scored, and stays so. -/
theorem closed_scored {now later : ℤ} (hle : now ≤ later)
    (hnone : w.missing h now = []) :
    w.closed h later = some (.scored (scoredPayload w.targets w.base w.upper
      (w.targets.filterMap (w.onTime h now)))) := by
  have hall := (w.missing_eq_nil h).mp hnone
  have hsame : ∀ t ∈ w.targets, w.onTime h now t = w.onTime h later t := by
    intro t ht
    obtain ⟨o, ho⟩ := hall t ht
    rw [ho, w.onTime_grows h hle ho]
  have hlater : w.missing h later = [] := by
    rw [missing_eq_nil]
    intro t ht
    rw [← hsame t ht]
    exact hall t ht
  unfold closed
  rw [hlater, List.filterMap_congr hsame]

/-- A terminal outcome is that of every later evaluation. -/
def Stable : Prop :=
  ∀ now later payload, now ≤ later →
    w.outcome h now = .ok (some payload) →
      w.outcome h later = .ok (some payload)

/-- A terminal outcome is a score exactly when no target is excluded and every
target is ever known with a receipt by the deadline. -/
def ScoredExactly : Prop :=
  ∀ now payload, w.outcome h now = .ok (some payload) →
    ((∃ p, payload = .scored p) ↔
      (∀ t ∈ w.targets, w.exclusion t = none) ∧
        ∀ t ∈ w.targets, ∃ moment o, w.onTime h moment t = some o)

/-- A target's receipt by the deadline is known once a missing target makes
the window unscorable. -/
def RecordedInTime : Prop :=
  ∀ t ∈ w.targets, ∀ moment o, w.onTime h moment t = some o →
    w.onTime h w.giveUpMs t = some o

theorem terminal_cases {now : ℤ} {payload : OutcomePayload}
    (hout : w.outcome h now = .ok (some payload)) :
    w.closeMs ≤ now ∧
      ((∃ first why rest, w.hits = (first, why) :: rest) ∨
        w.hits = [] ∧ w.closed h now = some payload) := by
  have hclose : w.closeMs ≤ now := by
    by_contra hearly
    rw [w.outcome_pending h (not_le.mp hearly)] at hout
    cases hout
  refine ⟨hclose, ?_⟩
  cases hhits : w.hits with
  | cons hit rest => exact .inl ⟨hit.1, hit.2, rest, rfl⟩
  | nil =>
      rw [w.outcome_closed h hclose hhits] at hout
      injection hout with heq
      exact .inr ⟨rfl, heq⟩

/-- An unexcluded window is terminal when nothing is missing or when it gives
up. -/
theorem closed_cases {now : ℤ} {payload : OutcomePayload}
    (hclose : w.closeMs ≤ now) (hout : w.closed h now = some payload) :
    (w.missing h now = [] ∧ ∃ p, payload = .scored p) ∨
      w.giveUpMs ≤ now ∧ w.missing h now ≠ [] ∧ ∀ p, payload ≠ .scored p := by
  unfold closed at hout
  cases hmissing : w.missing h now with
  | nil =>
      rw [hmissing] at hout
      cases hout
      exact .inl ⟨rfl, _, rfl⟩
  | cons first rest =>
      rw [hmissing] at hout
      dsimp only at hout
      split at hout
      · cases hout
      · rename_i hlate
        cases hout
        refine .inr ⟨max_le hclose (not_lt.mp hlate), by simp, fun p hp => ?_⟩
        cases hp

/-- From the time it gives up on, a window reads the same receipts. -/
theorem onTime_settled (hrecorded : w.RecordedInTime h) {now t : ℤ}
    (hlate : w.giveUpMs ≤ now) (ht : t ∈ w.targets) :
    w.onTime h now t = w.onTime h w.giveUpMs t := by
  cases hnow : w.onTime h now t with
  | some o => exact (hrecorded t ht now o hnow).symm
  | none =>
      cases hgave : w.onTime h w.giveUpMs t with
      | none => rfl
      | some o =>
          rw [w.onTime_grows h hlate hgave] at hnow
          cases hnow

theorem stable_of_recorded (hrecorded : w.RecordedInTime h) : w.Stable h := by
  intro now later payload hle hout
  obtain ⟨hclose, ⟨first, why, rest, hhits⟩ | ⟨hhits, hclosed⟩⟩ :=
    w.terminal_cases h hout
  · rw [w.outcome_excluded h hclose hhits] at hout
    rw [w.outcome_excluded h (hclose.trans hle) hhits, hout]
  · rw [w.outcome_closed h (hclose.trans hle) hhits, ← hclosed]
    congr 1
    rcases w.closed_cases h hclose hclosed with ⟨hnone, -⟩ | ⟨hlate, -, -⟩
    · rw [w.closed_scored h hle hnone, w.closed_scored h le_rfl hnone]
    · have hdeadline := (le_max_right w.closeMs w.deadlineMs).trans hlate
      refine (w.closed_congr h ?_ fun t ht => ?_).symm
      · exact iff_of_false (not_lt.mpr hdeadline)
          (not_lt.mpr (hdeadline.trans hle))
      · rw [w.onTime_settled h hrecorded hlate ht,
          w.onTime_settled h hrecorded (hlate.trans hle) ht]

theorem scoredExactly_of_recorded (hrecorded : w.RecordedInTime h) :
    w.ScoredExactly h := by
  intro now payload hout
  obtain ⟨hclose, ⟨first, why, rest, hhits⟩ | ⟨hhits, hclosed⟩⟩ :=
    w.terminal_cases h hout
  · rw [w.outcome_excluded h hclose hhits] at hout
    cases hout
    refine iff_of_false (by rintro ⟨p, hp⟩; cases hp) fun hnone => ?_
    rw [w.hits_eq_nil.mpr hnone.1] at hhits
    cases hhits
  · rw [← w.hits_eq_nil]
    rcases w.closed_cases h hclose hclosed with
      ⟨hnone, hscored⟩ | ⟨hlate, hmissing, hunscored⟩
    · exact iff_of_true hscored ⟨hhits, fun t ht =>
        ⟨now, (w.missing_eq_nil h).mp hnone t ht⟩⟩
    · refine iff_of_false (by rintro ⟨p, hp⟩; exact hunscored p hp) ?_
      rintro ⟨-, hall⟩
      refine hmissing ((w.missing_eq_nil h).mpr fun t ht => ?_)
      obtain ⟨moment, o, ho⟩ := hall t ht
      exact ⟨o, w.onTime_grows h hlate (hrecorded t ht moment o ho)⟩

/-- An excluded window closes as excluded whenever it is evaluated. -/
theorem outcome_of_excluded {now : ℤ} {payload : OutcomePayload}
    (hexcluded : ∃ t ∈ w.targets, (w.exclusion t).isSome)
    (hout : w.outcome h now = .ok (some payload)) :
    w.closeMs ≤ now ∧ ∃ first why rest, w.hits = (first, why) :: rest ∧
      payload = .excluded w.targets (rest.length + 1) first why
        w.deadlineMs := by
  obtain ⟨t, ht, hsome⟩ := hexcluded
  obtain ⟨hclose, ⟨first, why, rest, hhits⟩ | ⟨hhits, -⟩⟩ :=
    w.terminal_cases h hout
  · rw [w.outcome_excluded h hclose hhits] at hout
    cases hout
    exact ⟨hclose, first, why, rest, hhits, rfl⟩
  · rw [w.hits_eq_nil.mp hhits t ht] at hsome
    cases hsome

theorem stable_of_excluded
    (hexcluded : ∃ t ∈ w.targets, (w.exclusion t).isSome) :
    w.Stable h ∧ w.ScoredExactly h := by
  constructor
  · intro now later payload hle hout
    obtain ⟨hclose, first, why, rest, hhits, rfl⟩ :=
      w.outcome_of_excluded h hexcluded hout
    exact w.outcome_excluded h (hclose.trans hle) hhits
  · intro now payload hout
    obtain ⟨-, first, why, rest, hhits, rfl⟩ :=
      w.outcome_of_excluded h hexcluded hout
    refine iff_of_false (by rintro ⟨p, hp⟩; cases hp) fun hnone => ?_
    rw [w.hits_eq_nil.mpr hnone.1] at hhits
    cases hhits

/-- What is missing only shrinks. -/
theorem missing_sublist {now later : ℤ} (hle : now ≤ later) :
    (w.missing h later).Sublist (w.missing h now) := by
  refine List.monotone_filter_right w.targets fun t hlater => ?_
  cases hnow : w.onTime h now t with
  | none => rfl
  | some o =>
      rw [w.onTime_grows h hle hnow] at hlater
      cases hlater

/-- A receipt that is recorded after the window gave up changes its outcome. -/
theorem recorded_of_stable (hhits : w.hits = []) (hstable : w.Stable h) :
    w.RecordedInTime h := by
  intro t ht moment o ho
  by_contra hlost
  have hunknown : w.onTime h w.giveUpMs t = none := by
    cases hgave : w.onTime h w.giveUpMs t with
    | none => rfl
    | some o' =>
        rcases le_total moment w.giveUpMs with hle | hle
        · exact absurd (w.onTime_grows h hle ho) hlost
        · rw [w.onTime_grows h hle hgave] at ho
          rw [hgave, ho] at hlost
          exact absurd rfl hlost
  have hle : w.giveUpMs ≤ moment := by
    by_contra hearly
    rw [w.onTime_grows h (not_le.mp hearly).le ho] at hunknown
    cases hunknown
  have hmem : t ∈ w.missing h w.giveUpMs :=
    List.mem_filter.mpr ⟨ht, by rw [hunknown]; rfl⟩
  have hclose : w.closeMs ≤ w.giveUpMs := le_max_left _ _
  have hlate : ¬w.giveUpMs < w.deadlineMs := not_lt.mpr (le_max_right _ _)
  have hlate' : ¬moment < w.deadlineMs :=
    not_lt.mpr ((le_max_right _ _).trans hle)
  obtain ⟨first, rest, hmissing⟩ :=
    List.exists_cons_of_ne_nil (List.ne_nil_of_mem hmem)
  have hgave : w.outcome h w.giveUpMs = .ok (some (.missingTruth w.targets
      (rest.length + 1) first w.deadlineMs)) := by
    rw [w.outcome_closed h hclose hhits, closed, hmissing]
    dsimp only
    rw [if_neg hlate]
  have hthen := hstable _ moment _ hle hgave
  rw [w.outcome_closed h (hclose.trans hle) hhits, closed] at hthen
  cases hnow : w.missing h moment with
  | nil =>
      rw [hnow] at hthen
      cases hthen
  | cons first' rest' =>
      rw [hnow] at hthen
      dsimp only at hthen
      rw [if_neg hlate'] at hthen
      injection hthen with hsome
      injection hsome with hpayload
      injection hpayload with _ hcount _ _
      have hlength : (w.missing h moment).length =
          (w.missing h w.giveUpMs).length := by
        rw [hnow, hmissing, List.length_cons, List.length_cons, hcount]
      rw [← (w.missing_sublist h hle).eq_of_length hlength] at hmem
      obtain ⟨-, hnone⟩ := List.mem_filter.mp hmem
      rw [ho] at hnone
      cases hnone

/-- The outcome of a window does not depend on when it is computed exactly when
a target is excluded, or every receipt by the deadline is recorded before the
window gives up. -/
theorem outcome_timing_iff :
    w.Stable h ∧ w.ScoredExactly h ↔
      (∃ t ∈ w.targets, (w.exclusion t).isSome) ∨ w.RecordedInTime h := by
  constructor
  · rintro ⟨hstable, -⟩
    by_cases hhits : w.hits = []
    · exact .inr (w.recorded_of_stable h hhits hstable)
    · left
      by_contra hnone
      refine hhits (w.hits_eq_nil.mpr fun t ht => ?_)
      exact Option.not_isSome_iff_eq_none.mp fun hsome => hnone ⟨t, ht, hsome⟩
  · rintro (hexcluded | hrecorded)
    · exact w.stable_of_excluded h hexcluded
    · exact ⟨w.stable_of_recorded h hrecorded,
        w.scoredExactly_of_recorded h hrecorded⟩

end IssuedWindow

namespace OutcomeTimingWitness

/-- One target at 300 s, a minute to settle and half a minute of grace. -/
def window : IssuedWindow where
  targets := [300]
  base := 1
  upper := none
  settlement := 60
  grace := 30
  excluded := fun _ => none
  evenlySpaced := by decide

/-- Its value, received one second before the deadline. -/
def receipt : Observation := ⟨300, 5, 389000⟩

/-- The value is recorded one second after the deadline. -/
def recordedLate : ReceiptHistory where
  known now := if now < 391000 then [] else [receipt]
  grows := by
    intro now later t o hle ho
    split at ho
    · cases ho
    · rename_i hlate
      rw [if_neg (by omega)]
      exact ho
  stamped := by
    intro now t o ho
    split at ho
    · cases ho
    · rename_i hlate
      have hmem := List.mem_of_find?_eq_some ho
      rw [List.mem_singleton.mp hmem]
      change (389000 : ℤ) ≤ now
      omega

/-- Unscorable at the deadline, scored a second later. -/
theorem recordedLate_not_stable : ¬window.Stable recordedLate := by
  intro hstable
  have hgave : window.outcome recordedLate 390000 =
      .ok (some (.missingTruth [300] 1 300 390000)) := by decide +kernel
  have hlater := hstable 390000 391000 _ (by norm_num) hgave
  revert hlater
  decide +kernel

end OutcomeTimingWitness

end PredictiveAutoscaler.Evaluation
