/-
Evidence ledgers and paired evidence.  Issuances and matured outcomes are
folded into hourly buckets, once each by their journal sequence numbers, and
everything older than the retention before the newest time seen is pruned.
Prospective and replay evidence are counted apart in every count.
-/
import Std.Data.ExtTreeMap
import PredictiveAutoscaler.Forecasting.Calibration

namespace PredictiveAutoscaler.Forecasting

open Std (ExtTreeMap)

inductive EvidenceMode
  | prospective
  | replay
deriving DecidableEq, Repr

/-- A calibration record with what trust needs of it: the absolute errors are
those of the first, the middle and the last target of a scored window. -/
structure EvidenceRecord where
  cal : CalibrationRecord
  mode : EvidenceMode
  committedAtMs : ℕ
  stepAbsErrors : Option (ℚ × ℚ × ℚ)
deriving DecidableEq

/-- The truth and the issued bound of a prospective gate window. -/
def EvidenceRecord.gateBound (r : EvidenceRecord) (leadSeconds : ℕ) :
    Option (ℚ × ℚ) :=
  match r.mode, r.cal.truth, r.cal.upperRps with
  | .prospective, .scored y, some u =>
      if inCohort r.cal.decisionOrigin leadSeconds then some (y, u) else none
  | _, _, _ => none

/-- The counts and sums of one hour: issued, scored, unscorable, bounded and
covered windows, all and gate, and the replay counts. -/
structure Bucket where
  iss : ℕ := 0
  gIss : ℕ := 0
  sc : ℕ := 0
  un : ℕ := 0
  gSc : ℕ := 0
  gUn : ℕ := 0
  aBd : ℕ := 0
  aCv : ℕ := 0
  gBd : ℕ := 0
  gCv : ℕ := 0
  nStep : ℕ := 0
  pin : ℚ := 0
  abs : ℚ := 0
  bias : ℚ := 0
  st0 : ℚ := 0
  st1 : ℚ := 0
  st2 : ℚ := 0
  rIss : ℕ := 0
  rSc : ℕ := 0
  rUn : ℕ := 0
  rBd : ℕ := 0
  rCv : ℕ := 0
deriving DecidableEq, Repr

structure LedgerTotals where
  issued : ℕ := 0
  covered : ℕ := 0
  missed : ℕ := 0
  unscorable : ℕ := 0
  prospectiveGateBounded : ℕ := 0
  replayGateBounded : ℕ := 0
deriving DecidableEq, Repr

structure Ledger where
  epoch : EvidenceKey
  model : Model
  recipe : String
  intervalSeconds : ℕ
  buckets : ExtTreeMap ℕ Bucket := ∅
  pending : ExtTreeMap ℕ ℕ := ∅
  recent : List ℕ := []
  consecutiveMisses : ℕ := 0
  firstProspective : Option ℕ := none
  firstIssue : Option ℕ := none
  lastProspectiveOutcome : Option ℕ := none
  lastOutcomeSeq : ℕ := 0
  lastIssuanceSeq : ℕ := 0
  newest : Option ℕ := none
  totals : LedgerTotals := {}
deriving DecidableEq

/-- `new_ledger`. -/
def Ledger.fresh (epoch : EvidenceKey) (model : Model) (recipe : String)
    (intervalSeconds : ℕ) : Ledger :=
  { epoch, model, recipe, intervalSeconds }

/-- The retention the service folds with. -/
def ledgerRetention : ℕ := 7 * day

/-- The bucket of `t`, created when there is none. -/
def modifyBucket (buckets : ExtTreeMap ℕ Bucket) (t : ℕ)
    (f : Bucket → Bucket) : ExtTreeMap ℕ Bucket :=
  buckets.alter (t / hour) fun b => some (f (b.getD {}))

/-- The hour bucket `k` is within the retention before the newest time. -/
def keepsBucket (newest retention k : ℕ) : Bool :=
  decide (((newest : ℤ) - retention) / hour < k)

/-- The window that ended at `k` is within the last day before the newest
time: older ones no longer matter to availability. -/
def keepsPending (newest k : ℕ) : Bool := decide ((newest : ℤ) - day < k)

/-- Drop the buckets and the pending windows that are too old at the newest
time seen. -/
def Ledger.prune (ledger : Ledger) (now retention : ℕ) : Ledger :=
  let newest := max now (ledger.newest.getD now)
  { ledger with
    newest := some newest
    buckets := ledger.buckets.filter fun k _ => keepsBucket newest retention k
    pending := ledger.pending.filter fun k _ => keepsPending newest k }

/-- An issuance of one candidate, as its ledger notes it. -/
structure IssuanceNote where
  seq : ℕ
  epoch : EvidenceKey
  model : Model
  recipe : String
  origin : ℕ
  windowEnd : ℕ
  deadline : ℕ
  leadSeconds : ℕ
  mode : EvidenceMode
  bounded : Bool
deriving DecidableEq, Repr

def Bucket.addIssuance (note : IssuanceNote) (b : Bucket) : Bucket :=
  match note.mode with
  | .replay => { b with rIss := b.rIss + 1 }
  | .prospective =>
      { b with
        iss := b.iss + 1
        gIss := b.gIss + (inCohort note.origin note.leadSeconds).toNat }

/-- A new issuance: pending until its outcome arrives when it is
prospective. -/
def Ledger.addIssuance (ledger : Ledger) (note : IssuanceNote) : Ledger :=
  let counted :=
    { ledger with
      lastIssuanceSeq := note.seq
      buckets := modifyBucket ledger.buckets note.origin
        (Bucket.addIssuance note) }
  match note.mode with
  | .replay => counted
  | .prospective =>
      { counted with
        totals := { ledger.totals with issued := ledger.totals.issued + 1 }
        pending := ledger.pending.insert note.windowEnd note.deadline
        firstIssue := some (ledger.firstIssue.getD note.origin)
        firstProspective :=
          if note.bounded then
            some (ledger.firstProspective.getD note.origin)
          else ledger.firstProspective }

/-- `_same_identity`. -/
def Ledger.sameIdentity (ledger : Ledger) (epoch : EvidenceKey)
    (model : Model) (recipe : String) : Prop :=
  (epoch, model, recipe) = (ledger.epoch, ledger.model, ledger.recipe)

instance (ledger : Ledger) (epoch : EvidenceKey) (model : Model)
    (recipe : String) : Decidable (ledger.sameIdentity epoch model recipe) :=
  inferInstanceAs (Decidable (_ = _))

/-- The ledger with an issuance of its own, once by its sequence number. -/
def Ledger.withIssuance (ledger : Ledger) (note : IssuanceNote) : Ledger :=
  if note.seq ≤ ledger.lastIssuanceSeq then ledger
  else (ledger.addIssuance note).prune note.origin ledgerRetention

/-- Note an issuance, or refuse one of another epoch, model or recipe. -/
def Ledger.noteIssuance (ledger : Ledger) (note : IssuanceNote) :
    Except Raised Ledger :=
  if ledger.sameIdentity note.epoch note.model note.recipe then
    .ok (ledger.withIssuance note)
  else
    .error (.trustError
      "the evidence belongs to another epoch, model or recipe")

/-- A bound that its truth did not exceed. -/
def coveredCount (y u : ℚ) : ℕ := if y ≤ u then 1 else 0

/-- The replay counts of a matured window. -/
def Bucket.addReplay (c : CalibrationRecord) (gate : Bool) (b : Bucket) :
    Bucket :=
  match c.truth, c.upperRps with
  | .unscorable, _ => { b with rUn := b.rUn + 1 }
  | .scored _, none => { b with rSc := b.rSc + 1 }
  | .scored y, some u =>
      if gate then
        { b with
          rSc := b.rSc + 1, rBd := b.rBd + 1, rCv := b.rCv + coveredCount y u }
      else { b with rSc := b.rSc + 1 }

/-- The error sums of a scored prospective window. -/
def Bucket.addErrors (r : EvidenceRecord) (y : ℚ) (b : Bucket) : Bucket :=
  let base := r.cal.baseRps
  let summed :=
    { b with
      abs := binary64 (b.abs + |binary64 (y - base)|)
      bias := binary64 (b.bias + binary64 (base - y)) }
  match r.stepAbsErrors with
  | none => summed
  | some (first, middle, last) =>
      { summed with
        nStep := b.nStep + 1
        st0 := binary64 (b.st0 + first)
        st1 := binary64 (b.st1 + middle)
        st2 := binary64 (b.st2 + last) }

/-- The bound counts of a scored prospective window that was issued with a
bound. -/
def Bucket.addBound (gate : Bool) (nominalMiscoverage y u : ℚ) (b : Bucket) :
    Bucket :=
  let counted :=
    { b with aBd := b.aBd + 1, aCv := b.aCv + coveredCount y u }
  if gate then
    { counted with
      gBd := b.gBd + 1
      gCv := b.gCv + coveredCount y u
      pin := binary64 (b.pin + pinballRps y u nominalMiscoverage) }
  else counted

def Bucket.addOutcome (r : EvidenceRecord) (gate : Bool)
    (nominalMiscoverage : ℚ) (b : Bucket) : Bucket :=
  match r.mode, r.cal.truth with
  | .replay, _ => b.addReplay r.cal gate
  | .prospective, .unscorable =>
      { b with un := b.un + 1, gUn := b.gUn + gate.toNat }
  | .prospective, .scored y =>
      let scored :=
        ({ b with sc := b.sc + 1, gSc := b.gSc + gate.toNat }).addErrors r y
      match r.cal.upperRps with
      | none => scored
      | some u => scored.addBound gate nominalMiscoverage y u

def LedgerTotals.addOutcome (r : EvidenceRecord) (gate : Bool)
    (t : LedgerTotals) : LedgerTotals :=
  match r.mode, r.cal.truth, r.cal.upperRps with
  | .replay, .scored _, some _ =>
      { t with replayGateBounded := t.replayGateBounded + gate.toNat }
  | .prospective, .unscorable, _ => { t with unscorable := t.unscorable + 1 }
  | .prospective, .scored y, some u =>
      { t with
        covered := t.covered + coveredCount y u
        missed := t.missed + (1 - coveredCount y u)
        prospectiveGateBounded := t.prospectiveGateBounded + gate.toNat }
  | _, _, _ => t

/-- A matured outcome: no longer pending, counted in the hour its window
ended in; a prospective gate bound also enters the recent ones. -/
def Ledger.addOutcome (ledger : Ledger) (r : EvidenceRecord)
    (leadSeconds recentN : ℕ) (nominalMiscoverage : ℚ) : Ledger :=
  let c := r.cal
  let gate := inCohort c.decisionOrigin leadSeconds
  let counted :=
    { ledger with
      lastOutcomeSeq := c.seq
      pending := ledger.pending.erase c.windowEnd
      buckets := modifyBucket ledger.buckets c.windowEnd
        (Bucket.addOutcome r gate nominalMiscoverage)
      totals := ledger.totals.addOutcome r gate }
  match r.gateBound leadSeconds with
  | none => counted
  | some (y, u) =>
      { counted with
        recent := lastSlice recentN (ledger.recent ++ [coveredCount y u])
        consecutiveMisses :=
          if y ≤ u then 0 else ledger.consecutiveMisses + 1
        lastProspectiveOutcome := some c.windowEnd }

/-- The ledger with an outcome of its own, once by its sequence number. -/
def Ledger.withOutcome (ledger : Ledger) (r : EvidenceRecord)
    (leadSeconds recentN : ℕ) (nominalMiscoverage : ℚ) : Ledger :=
  if r.cal.seq ≤ ledger.lastOutcomeSeq then ledger
  else
    (ledger.addOutcome r leadSeconds recentN nominalMiscoverage).prune
      r.cal.windowEnd ledgerRetention

/-- Note a matured outcome, or refuse one of another epoch, model or
recipe. -/
def Ledger.noteOutcome (ledger : Ledger) (r : EvidenceRecord)
    (leadSeconds recentN : ℕ) (nominalMiscoverage : ℚ) :
    Except Raised Ledger :=
  if ledger.sameIdentity r.cal.epoch r.cal.model r.cal.recipe then
    .ok (ledger.withOutcome r leadSeconds recentN nominalMiscoverage)
  else
    .error (.trustError
      "the evidence belongs to another epoch, model or recipe")

/-- The first bound of a pair, waiting for its partner. -/
structure HalfPair where
  model : Model
  loss : ℚ
  issuanceId : IssuanceKey
deriving DecidableEq

structure PairBucket where
  n : ℕ
  chal : ℚ
  base : ℚ
  first : ℕ
  last : ℕ
deriving DecidableEq, Repr

structure Pairs where
  epoch : EvidenceKey
  challenger : Model
  baseline : Model
  challengerRecipe : String
  baselineRecipe : String
  pending : ExtTreeMap ℕ HalfPair := ∅
  buckets : ExtTreeMap ℕ PairBucket := ∅
  lastSeq : ℕ := 0
deriving DecidableEq

/-- `new_pairs`. -/
def Pairs.fresh (epoch : EvidenceKey) (challenger : Model)
    (challengerRecipe baselineRecipe : String)
    (baseline : Model := .seasonalNaive) : Pairs :=
  { epoch, challenger, baseline, challengerRecipe, baselineRecipe }

/-- `pairs["recipes"].get(model)`. -/
def Pairs.recipe? (pairs : Pairs) (model : Model) : Option String :=
  if model = pairs.baseline then some pairs.baselineRecipe
  else if model = pairs.challenger then some pairs.challengerRecipe
  else none

/-- Both bounds of one issuance, in the hour their window ended in. -/
def Pairs.addPair (pairs : Pairs) (windowEnd : ℕ) (chal base : ℚ) : Pairs :=
  { pairs with
    buckets := pairs.buckets.alter (windowEnd / hour) fun b =>
      let b := b.getD ⟨0, 0, 0, windowEnd, windowEnd⟩
      some ⟨b.n + 1, binary64 (b.chal + chal), binary64 (b.base + base),
        min b.first windowEnd, max b.last windowEnd⟩ }

/-- Meet the partner of the same issuance, or wait for it. -/
def Pairs.meet (pairs : Pairs) (c : CalibrationRecord) (loss : ℚ) : Pairs :=
  let popped :=
    { pairs with pending := pairs.pending.erase c.windowEnd }
  let wait :=
    { pairs with
      pending := pairs.pending.insert c.windowEnd
        ⟨c.model, loss, c.issuanceId⟩ }
  match pairs.pending[c.windowEnd]? with
  | none => wait
  | some other =>
      if other.model = c.model ∨ other.issuanceId ≠ c.issuanceId then wait
      else if c.model = pairs.challenger then
        popped.addPair c.windowEnd loss other.loss
      else popped.addPair c.windowEnd other.loss loss

def Pairs.prune (pairs : Pairs) (windowEnd retention : ℕ) : Pairs :=
  { pairs with
    buckets := pairs.buckets.filter fun k _ =>
      keepsBucket windowEnd retention k
    pending := pairs.pending.filter fun k _ => keepsPending windowEnd k }

/-- The record is one to pair: of this epoch, of one of the two models, and
not seen yet. -/
def Pairs.takes (pairs : Pairs) (c : CalibrationRecord) : Bool :=
  decide (c.epoch = pairs.epoch) && (pairs.recipe? c.model).isSome &&
    decide (pairs.lastSeq < c.seq)

/-- The pairs with a record of theirs: a prospective gate bound meets its
partner, every other record only moves the sequence number. -/
def Pairs.withRecord (pairs : Pairs) (r : EvidenceRecord) (leadSeconds : ℕ)
    (nominalMiscoverage : ℚ) : Pairs :=
  let noted := { pairs with lastSeq := r.cal.seq }
  match r.gateBound leadSeconds with
  | none => noted
  | some (y, u) =>
      (noted.meet r.cal (pinballRps y u nominalMiscoverage)).prune
        r.cal.windowEnd ledgerRetention

/-- Pair the prospective gate bounds of both models at one issuance, exactly
once; a record of either model under another recipe is refused. -/
def Pairs.notePair (pairs : Pairs) (r : EvidenceRecord) (leadSeconds : ℕ)
    (nominalMiscoverage : ℚ) : Except Raised Pairs :=
  if !pairs.takes r.cal then .ok pairs
  else if some r.cal.recipe ≠ pairs.recipe? r.cal.model then
    .error (.trustError "the paired evidence belongs to another recipe")
  else .ok (pairs.withRecord r leadSeconds nominalMiscoverage)

end PredictiveAutoscaler.Forecasting
