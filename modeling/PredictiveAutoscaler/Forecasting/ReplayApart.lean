/-
Replay and prospective evidence in one ledger.  A fold is compared with the
fold of its prospective records alone.  The counts are kept apart, but a replay
record also moves the newest time that the ledger is pruned by, and a replay
outcome closes the pending window of the same end: the prospective evidence is
the same exactly when neither of the two takes prospective evidence away.
-/
import PredictiveAutoscaler.Forecasting.Confluence
import PredictiveAutoscaler.Forecasting.Trust

namespace PredictiveAutoscaler.Forecasting

open Std (ExtTreeMap)
open InsertionOrder KeyedGroups

/-- One record of a fold: an issuance, or a matured outcome with the policy
values it is noted with. -/
inductive Evidence
  | issued (note : IssuanceNote)
  | matured (r : EvidenceRecord) (leadSeconds recentN : ℕ)
      (nominalMiscoverage : ℚ)

namespace Evidence

def mode : Evidence → EvidenceMode
  | .issued note => note.mode
  | .matured r _ _ _ => r.mode

/-- The record is prospective. -/
def isProspective (e : Evidence) : Bool := decide (e.mode = .prospective)

/-- The time a record is counted at: its origin, or its window's end. -/
def time : Evidence → ℕ
  | .issued note => note.origin
  | .matured r _ _ _ => r.cal.windowEnd

/-- The hour whose bucket counts a record. -/
def bucketHour (e : Evidence) : ℕ := e.time / hour

def windowEnd : Evidence → ℕ
  | .issued note => note.windowEnd
  | .matured r _ _ _ => r.cal.windowEnd

/-- The epoch, the model and the recipe of a record. -/
def identity : Evidence → EvidenceKey × Model × String
  | .issued note => (note.epoch, note.model, note.recipe)
  | .matured r _ _ _ => (r.cal.epoch, r.cal.model, r.cal.recipe)

def issuanceSeq? : Evidence → Option ℕ
  | .issued note => some note.seq
  | .matured _ _ _ _ => none

def outcomeSeq? : Evidence → Option ℕ
  | .issued _ => none
  | .matured r _ _ _ => some r.cal.seq

/-- `note_issuance` or `note_outcome`. -/
def note (held : HeldLedger) : Evidence → Except Raised HeldLedger
  | .issued note => held.noteIssuance note
  | .matured r leadSeconds recentN nominal =>
      held.noteOutcome r leadSeconds recentN nominal

/-- What a record adds to a ledger that takes it. -/
def add (ledger : Ledger) (e : Evidence) : Ledger :=
  (match e with
    | .issued note => ledger.addIssuance note
    | .matured r leadSeconds recentN nominal =>
        ledger.addOutcome r leadSeconds recentN nominal).prune e.time
    ledgerRetention

/-- The same to a ledger that a process holds. -/
def addHeld (held : HeldLedger) (e : Evidence) : HeldLedger :=
  held.counted e.bucketHour (e.add held.ledger)

end Evidence

/-- Fold records into a ledger, in order. -/
def HeldLedger.noteAll (held : HeldLedger) (items : List Evidence) :
    Except Raised HeldLedger :=
  items.foldlM Evidence.note held

/-- Records of one ledger, with sequence numbers that increase. -/
structure FoldSequence (ledger : Ledger) (items : List Evidence) : Prop where
  own : ∀ e ∈ items, e.identity = (ledger.epoch, ledger.model, ledger.recipe)
  issuances : (ledger.lastIssuanceSeq ::
    items.filterMap Evidence.issuanceSeq?).Pairwise (· < ·)
  outcomes : (ledger.lastOutcomeSeq ::
    items.filterMap Evidence.outcomeSeq?).Pairwise (· < ·)

theorem FoldSequence.sublist {ledger : Ledger} {items items' : List Evidence}
    (h : FoldSequence ledger items) (hsub : items'.Sublist items) :
    FoldSequence ledger items' :=
  ⟨fun e he => h.own e (hsub.subset he),
    h.issuances.sublist ((hsub.filterMap _).cons_cons _),
    h.outcomes.sublist ((hsub.filterMap _).cons_cons _)⟩

@[simp] theorem Evidence.add_identity (ledger : Ledger) (e : Evidence) :
    (e.add ledger).epoch = ledger.epoch ∧ (e.add ledger).model = ledger.model ∧
      (e.add ledger).recipe = ledger.recipe ∧
      (e.add ledger).intervalSeconds = ledger.intervalSeconds := by
  cases e with
  | issued note =>
      simp only [add, Ledger.addIssuance]
      cases note.mode <;> exact ⟨rfl, rfl, rfl, rfl⟩
  | matured r leadSeconds recentN nominal =>
      simp only [add, Ledger.addOutcome]
      cases r.gateBound leadSeconds <;> exact ⟨rfl, rfl, rfl, rfl⟩

/-- A record of a fold sequence is taken, and the rest is a fold sequence of
the next ledger. -/
theorem FoldSequence.note_cons {held : HeldLedger} {e : Evidence}
    {rest : List Evidence} (h : FoldSequence held.ledger (e :: rest)) :
    e.note held = .ok (e.addHeld held) ∧
      FoldSequence (e.addHeld held).ledger rest := by
  obtain ⟨ledger, order⟩ := held
  change _ ∧ FoldSequence (e.add ledger) rest
  obtain ⟨hepoch, hmodel, hrecipe, -⟩ := Evidence.add_identity ledger e
  have hrest : ∀ e' ∈ rest, e'.identity =
      ((e.add ledger).epoch, (e.add ledger).model, (e.add ledger).recipe) := by
    rw [hepoch, hmodel, hrecipe]
    exact fun e' he' => h.own e' (List.mem_cons_of_mem e he')
  have hown := h.own e List.mem_cons_self
  cases e with
  | issued note =>
      have hseqs : (ledger.lastIssuanceSeq :: note.seq ::
          rest.filterMap Evidence.issuanceSeq?).Pairwise (· < ·) := h.issuances
      rw [List.pairwise_cons] at hseqs
      have hnew := hseqs.1 note.seq List.mem_cons_self
      have hadded : (Evidence.add ledger (.issued note)).lastIssuanceSeq =
          note.seq := by
        simp only [Evidence.add, Ledger.prune_lastIssuanceSeq,
          Ledger.addIssuance]
        cases note.mode <;> rfl
      refine ⟨?_, hrest, ?_, ?_⟩
      · have hsame : ledger.sameIdentity note.epoch note.model note.recipe :=
          hown
        simp only [Evidence.note, HeldLedger.noteIssuance, Ledger.noteIssuance,
          Ledger.withIssuance]
        rw [if_pos hsame, if_neg (Nat.not_le.mpr hnew)]
        rfl
      · rw [hadded]
        exact hseqs.2
      · have hkept : (Evidence.add ledger (.issued note)).lastOutcomeSeq =
            ledger.lastOutcomeSeq := by
          simp [Evidence.add]
        rw [hkept]
        exact h.outcomes
  | matured r leadSeconds recentN nominal =>
      have hseqs : (ledger.lastOutcomeSeq :: r.cal.seq ::
          rest.filterMap Evidence.outcomeSeq?).Pairwise (· < ·) := h.outcomes
      rw [List.pairwise_cons] at hseqs
      have hnew := hseqs.1 r.cal.seq List.mem_cons_self
      have hadded : (Evidence.add ledger
          (.matured r leadSeconds recentN nominal)).lastOutcomeSeq =
          r.cal.seq := by
        simp only [Evidence.add, Ledger.prune_lastOutcomeSeq,
          Ledger.addOutcome]
        cases r.gateBound leadSeconds <;> rfl
      refine ⟨?_, hrest, ?_, ?_⟩
      · have hsame : ledger.sameIdentity r.cal.epoch r.cal.model
          r.cal.recipe := hown
        simp only [Evidence.note, HeldLedger.noteOutcome, Ledger.noteOutcome,
          Ledger.withOutcome]
        rw [if_pos hsame, if_neg (Nat.not_le.mpr hnew)]
        rfl
      · have hkept : (Evidence.add ledger
            (.matured r leadSeconds recentN nominal)).lastIssuanceSeq =
            ledger.lastIssuanceSeq := by
          simp [Evidence.add]
        rw [hkept]
        exact h.issuances
      · rw [hadded]
        exact hseqs.2

/-- A fold sequence is folded record by record. -/
theorem FoldSequence.noteAll_eq {held : HeldLedger} {items : List Evidence}
    (h : FoldSequence held.ledger items) :
    held.noteAll items = .ok (items.foldl Evidence.addHeld held) := by
  unfold HeldLedger.noteAll
  induction items generalizing held with
  | nil => rfl
  | cons e rest ih =>
      obtain ⟨hnote, hrest⟩ := h.note_cons
      rw [List.foldlM_cons, hnote, List.foldl_cons]
      exact ih hrest

/-- The order of a dict does not change what is folded. -/
theorem foldl_addHeld_ledger (held : HeldLedger) (items : List Evidence) :
    (items.foldl Evidence.addHeld held).ledger =
      items.foldl Evidence.add held.ledger := by
  induction items generalizing held with
  | nil => rfl
  | cons e rest ih => exact ih (e.addHeld held)

/-- The newest time of the records. -/
def newestOf (items : List Evidence) : ℕ :=
  items.foldl (fun newest e => max newest e.time) 0

/-- What a record counts in the bucket of its hour. -/
def Evidence.addTo : Evidence → Bucket → Bucket
  | .issued note => Bucket.addIssuance note
  | .matured r leadSeconds _ nominal =>
      Bucket.addOutcome r (inCohort r.cal.decisionOrigin leadSeconds) nominal

/-- What the records count in the hour `k`. -/
def bucketAt (items : List Evidence) (k : ℕ) : Option Bucket :=
  items.foldl (fun b e =>
    if e.time / hour = k then some (e.addTo (b.getD {})) else b) none

/-- A prospective issuance opens its window's end, an outcome closes it. -/
def Evidence.pend (w : ℕ) (deadline : Option ℕ) : Evidence → Option ℕ
  | .issued note =>
      if note.mode = .prospective ∧ note.windowEnd = w then some note.deadline
      else deadline
  | .matured r _ _ _ => if r.cal.windowEnd = w then none else deadline

/-- The deadline of the window that ends at `w`, while it is open. -/
def pendingAt (items : List Evidence) (w : ℕ) : Option ℕ :=
  items.foldl (Evidence.pend w) none

theorem newestOf_snoc (items : List Evidence) (e : Evidence) :
    newestOf (items ++ [e]) = max (newestOf items) e.time := by
  simp [newestOf]

theorem bucketAt_snoc (items : List Evidence) (e : Evidence) (k : ℕ) :
    bucketAt (items ++ [e]) k =
      if e.time / hour = k then some (e.addTo ((bucketAt items k).getD {}))
      else bucketAt items k := by
  simp [bucketAt]

theorem pendingAt_snoc (items : List Evidence) (e : Evidence) (w : ℕ) :
    pendingAt (items ++ [e]) w = e.pend w (pendingAt items w) := by
  simp [pendingAt]

/-- A ledger with the evidence of these records, pruned at the newest. -/
structure Ledger.FoldOf (ledger : Ledger) (items : List Evidence) : Prop where
  newest_eq : ∀ now,
    max now (ledger.newest.getD now) = max (newestOf items) now
  bucket_eq : ∀ k, ledger.buckets[k]? =
    if keepsBucket (newestOf items) ledgerRetention k then bucketAt items k
    else none
  pending_eq : ∀ w, ledger.pending[w]? =
    if keepsPending (newestOf items) w then pendingAt items w else none

theorem Ledger.foldOf_nil {ledger : Ledger} (hnewest : ledger.newest = none)
    (hbuckets : ledger.buckets = ∅) (hpending : ledger.pending = ∅) :
    ledger.FoldOf [] := by
  refine ⟨fun now => ?_, fun k => ?_, fun w => ?_⟩
  · rw [hnewest]
    simp [newestOf]
  · simp [hbuckets, bucketAt]
  · simp [hpending, pendingAt]

theorem Evidence.add_buckets (ledger : Ledger) (e : Evidence) :
    (e.add ledger).buckets =
      (modifyBucket ledger.buckets e.time e.addTo).filter fun k _ =>
        keepsBucket (max e.time (ledger.newest.getD e.time)) ledgerRetention
          k := by
  cases e with
  | issued note =>
      simp only [add, Ledger.addIssuance]
      cases note.mode <;> rfl
  | matured r leadSeconds recentN nominal =>
      simp only [add, Ledger.addOutcome]
      cases r.gateBound leadSeconds <;> rfl

theorem Evidence.add_newest (ledger : Ledger) (e : Evidence) :
    (e.add ledger).newest =
      some (max e.time (ledger.newest.getD e.time)) := by
  cases e with
  | issued note =>
      simp only [add, Ledger.addIssuance]
      cases note.mode <;> rfl
  | matured r leadSeconds recentN nominal =>
      simp only [add, Ledger.addOutcome]
      cases r.gateBound leadSeconds <;> rfl

theorem Evidence.add_pending (ledger : Ledger) (e : Evidence) (w : ℕ) :
    (e.add ledger).pending[w]? =
      if keepsPending (max e.time (ledger.newest.getD e.time)) w then
        e.pend w ledger.pending[w]?
      else none := by
  cases e with
  | issued note =>
      simp only [add, Ledger.addIssuance, pend]
      cases hmode : note.mode with
      | replay =>
          simp only [Ledger.prune, ExtTreeMap.getElem?_filter', reduceCtorEq,
            false_and, if_false]
          by_cases hkept : keepsPending (max (time (.issued note))
              (ledger.newest.getD (time (.issued note)))) w = true <;>
            simp [hkept, filter_kept]
      | prospective =>
          simp only [Ledger.prune, ExtTreeMap.getElem?_filter',
            ExtTreeMap.getElem?_insert, Nat.compare_eq_eq, true_and]
          by_cases hkept : keepsPending (max (time (.issued note))
              (ledger.newest.getD (time (.issued note)))) w = true <;>
            simp [hkept, filter_kept]
  | matured r leadSeconds recentN nominal =>
      have hpending : (Evidence.add ledger
          (.matured r leadSeconds recentN nominal)).pending =
          (ledger.pending.erase r.cal.windowEnd).filter fun k _ =>
            keepsPending (max r.cal.windowEnd
              (ledger.newest.getD r.cal.windowEnd)) k := by
        simp only [add, Ledger.addOutcome]
        cases r.gateBound leadSeconds <;> rfl
      rw [hpending]
      simp only [pend, time, ExtTreeMap.getElem?_filter',
        ExtTreeMap.getElem?_erase, Nat.compare_eq_eq]
      by_cases hkept : keepsPending (max r.cal.windowEnd
          (ledger.newest.getD r.cal.windowEnd)) w = true <;>
        simp [hkept, filter_kept]

theorem Ledger.FoldOf.add {ledger : Ledger} {items : List Evidence}
    (h : ledger.FoldOf items) (e : Evidence) :
    (e.add ledger).FoldOf (items ++ [e]) := by
  have hnewest := h.newest_eq e.time
  rw [← newestOf_snoc] at hnewest
  have hle : newestOf items ≤ newestOf (items ++ [e]) := by
    rw [newestOf_snoc]
    exact le_max_left _ _
  refine ⟨fun now => ?_, fun k => ?_, fun w => ?_⟩
  · rw [Evidence.add_newest, hnewest]
    exact max_comm _ _
  · rw [Evidence.add_buckets, hnewest, bucketAt_snoc]
    simp only [modifyBucket, ExtTreeMap.getElem?_filter',
      ExtTreeMap.getElem?_alter, Nat.compare_eq_eq, h.bucket_eq]
    cases hkept : keepsBucket (newestOf (items ++ [e])) ledgerRetention k with
    | false => simp
    | true =>
        by_cases hk : e.time / hour = k
        · simp [hk, keepsBucket_of_le hle hkept]
        · simp [hk, keepsBucket_of_le hle hkept, filter_kept]
  · rw [Evidence.add_pending, hnewest, pendingAt_snoc, h.pending_eq]
    cases hkept : keepsPending (newestOf (items ++ [e])) w with
    | false => simp
    | true => simp [keepsPending_of_le hle hkept]

/-- The fold of a fresh ledger. -/
theorem Ledger.foldOf_fold {ledger : Ledger} (hnewest : ledger.newest = none)
    (hbuckets : ledger.buckets = ∅) (hpending : ledger.pending = ∅)
    (items : List Evidence) :
    (items.foldl Evidence.add ledger).FoldOf items := by
  induction items using List.reverseRecOn with
  | nil => exact Ledger.foldOf_nil hnewest hbuckets hpending
  | append_singleton items e ih =>
      rw [List.foldl_append]
      exact ih.add e

/-- The hours of records, as they came. -/
def recordHours (items : List Evidence) : List ℕ :=
  items.map Evidence.bucketHour

/-- The hours that pruning at the newest record keeps. -/
def keptHours (items : List Evidence) : List ℕ :=
  (recordHours items).filter (keepsBucket (newestOf items) ledgerRetention)

/-- An hour counts something when a record falls into it. -/
theorem bucketAt_eq_none {items : List Evidence} {k : ℕ} :
    bucketAt items k = none ↔ ∀ e ∈ items, e.time / hour ≠ k := by
  induction items using List.reverseRecOn with
  | nil => simp [bucketAt]
  | append_singleton items e ih =>
      rw [bucketAt_snoc, List.forall_mem_append]
      by_cases hk : e.time / hour = k
      · simp [hk]
      · simp [hk, ih]

theorem Ledger.FoldOf.mem_buckets {ledger : Ledger} {items : List Evidence}
    (h : ledger.FoldOf items) (k : ℕ) :
    k ∈ ledger.buckets ↔ k ∈ keptHours items := by
  rw [← ExtTreeMap.isSome_getElem?_iff_mem, h.bucket_eq, keptHours,
    List.mem_filter]
  cases keepsBucket (newestOf items) ledgerRetention k with
  | false => simp
  | true =>
      rw [if_pos rfl, ← Option.ne_none_iff_isSome, Ne, bucketAt_eq_none]
      simp [recordHours, Evidence.bucketHour]

/-- The next record prunes the hours before it and its own. -/
theorem keptHours_snoc (items : List Evidence) (e : Evidence) :
    keptHours (items ++ [e]) = (keptHours items ++ [e.bucketHour]).filter
      (keepsBucket (newestOf (items ++ [e])) ledgerRetention) := by
  have hle : newestOf items ≤ newestOf (items ++ [e]) := by
    rw [newestOf_snoc]
    exact le_max_left _ _
  have hhours : recordHours (items ++ [e]) =
      recordHours items ++ [e.bucketHour] := List.map_append
  unfold keptHours
  rw [hhours, List.filter_append, List.filter_append, List.filter_filter]
  congr 1
  refine List.filter_congr fun k _ => ?_
  rw [Bool.eq_iff_iff, Bool.and_eq_true]
  exact ⟨fun h => ⟨h, keepsBucket_of_le hle h⟩, fun h => h.1⟩

/-- The fold of a fresh ledger that a process holds. -/
theorem HeldLedger.foldOf_fold {held : HeldLedger}
    (hnewest : held.ledger.newest = none) (hbuckets : held.ledger.buckets = ∅)
    (hpending : held.ledger.pending = ∅) (items : List Evidence) :
    (items.foldl Evidence.addHeld held).ledger.FoldOf items := by
  rw [foldl_addHeld_ledger]
  exact Ledger.foldOf_fold hnewest hbuckets hpending items

/-- The dict of a fold holds its hours in the order in which their first
records came. -/
theorem HeldLedger.keys_fold {held : HeldLedger}
    (hnewest : held.ledger.newest = none) (hbuckets : held.ledger.buckets = ∅)
    (hpending : held.ledger.pending = ∅) (items : List Evidence) :
    (items.foldl Evidence.addHeld held).order.keys =
      firsts (keptHours items) := by
  induction items using List.reverseRecOn with
  | nil =>
      refine List.eq_nil_iff_forall_not_mem.mpr fun k hk => ?_
      have hin := held.order.mem_keys.mp hk
      rw [hbuckets] at hin
      exact absurd hin ExtTreeMap.not_mem_empty
  | append_singleton items e ih =>
      have hfold :=
        HeldLedger.foldOf_fold hnewest hbuckets hpending (items ++ [e])
      rw [List.foldl_append] at hfold
      rw [List.foldl_append]
      exact DictOrder.keys_after ih hfold.mem_buckets
        (.inl (keptHours_snoc items e))

/-- A bucket without its replay counts. -/
def Bucket.prospective (b : Bucket) : Bucket :=
  { b with rIss := 0, rSc := 0, rUn := 0, rBd := 0, rCv := 0 }

/-- The prospective part of a bucket, when it has one. -/
def Bucket.prospective? (b : Bucket) : Option Bucket :=
  if b.prospective = {} then none else some b.prospective

def LedgerTotals.prospective (t : LedgerTotals) : LedgerTotals :=
  { t with replayGateBounded := 0 }

/-- The prospective records of a fold. -/
def prospectiveOf (items : List Evidence) : List Evidence :=
  items.filter Evidence.isProspective

/-- A replay record counts nothing prospective. -/
theorem Evidence.addTo_replay {e : Evidence} (h : e.mode = .replay)
    (b : Bucket) : (e.addTo b).prospective = b.prospective := by
  cases e with
  | issued note =>
      change note.mode = .replay at h
      simp [addTo, Bucket.addIssuance, h, Bucket.prospective]
  | matured r leadSeconds recentN nominal =>
      change r.mode = .replay at h
      simp only [addTo, Bucket.addOutcome, h, Bucket.addReplay]
      cases r.cal.truth with
      | unscorable => rfl
      | scored y =>
          cases r.cal.upperRps with
          | none => rfl
          | some u => cases inCohort r.cal.decisionOrigin leadSeconds <;> rfl

/-- A prospective record counts the same whatever replay counted. -/
theorem Evidence.addTo_prospective {e : Evidence} (h : e.mode = .prospective)
    (b : Bucket) : (e.addTo b).prospective = e.addTo b.prospective := by
  cases e with
  | issued note =>
      change note.mode = .prospective at h
      simp [addTo, Bucket.addIssuance, h, Bucket.prospective]
  | matured r leadSeconds recentN nominal =>
      change r.mode = .prospective at h
      simp only [addTo, Bucket.addOutcome, h]
      cases r.cal.truth with
      | unscorable => rfl
      | scored y =>
          cases hupper : r.cal.upperRps <;> cases hsteps : r.stepAbsErrors <;>
            cases hgate : inCohort r.cal.decisionOrigin leadSeconds <;>
            simp [Bucket.addErrors, Bucket.addBound, hsteps,
              Bucket.prospective]

/-- How many prospective records a bucket counts. -/
def Bucket.records (b : Bucket) : ℕ := b.iss + b.sc + b.un

theorem Evidence.addTo_records {e : Evidence} (h : e.mode = .prospective)
    (b : Bucket) : (e.addTo b).records = b.records + 1 := by
  cases e with
  | issued note =>
      change note.mode = .prospective at h
      simp only [addTo, Bucket.addIssuance, h, Bucket.records]
      omega
  | matured r leadSeconds recentN nominal =>
      change r.mode = .prospective at h
      simp only [addTo, Bucket.addOutcome, h]
      cases r.cal.truth with
      | unscorable =>
          simp only [Bucket.records]
          omega
      | scored y =>
          cases hupper : r.cal.upperRps <;> cases hsteps : r.stepAbsErrors <;>
            cases hgate : inCohort r.cal.decisionOrigin leadSeconds <;>
            simp [Bucket.addErrors, Bucket.addBound, hsteps, Bucket.records] <;>
            omega

theorem Evidence.addTo_ne_empty {e : Evidence} (h : e.mode = .prospective)
    (b : Bucket) : e.addTo b ≠ {} := by
  intro hempty
  have hrecords := e.addTo_records h b
  rw [hempty] at hrecords
  simp [Bucket.records] at hrecords

/-- The prospective part of what an hour counts is what the prospective records
count in it. -/
theorem bucketAt_prospectiveOf (items : List Evidence) (k : ℕ) :
    bucketAt (prospectiveOf items) k =
      (bucketAt items k).bind Bucket.prospective? := by
  induction items using List.reverseRecOn with
  | nil => rfl
  | append_singleton items e ih =>
      have hpart : ((bucketAt (prospectiveOf items) k).getD {}) =
          ((bucketAt items k).getD {}).prospective := by
        rw [ih]
        cases bucketAt items k with
        | none => rfl
        | some b =>
            simp only [Option.bind_some, Bucket.prospective?]
            split
            · rename_i hnone
              exact hnone.symm
            · rfl
      unfold prospectiveOf at *
      rw [List.filter_append, bucketAt_snoc]
      cases hmode : e.mode with
      | prospective =>
          have hkeep : [e].filter Evidence.isProspective = [e] := by
            simp [Evidence.isProspective, hmode]
          rw [hkeep, bucketAt_snoc]
          split
          · have hnonempty := e.addTo_ne_empty hmode
              ((bucketAt items k).getD {}).prospective
            simp only [Option.bind_some, Bucket.prospective?]
            rw [e.addTo_prospective hmode, if_neg hnonempty, hpart]
          · exact ih
      | replay =>
          have hdrop : [e].filter Evidence.isProspective = [] := by
            simp [Evidence.isProspective, hmode]
          rw [hdrop, List.append_nil, ih]
          split
          · simp only [Option.bind_some, Bucket.prospective?,
              e.addTo_replay hmode]
            cases bucketAt items k with
            | none => rfl
            | some b => rfl
          · rfl

theorem newestOf_le {items : List Evidence} {e : Evidence}
    (he : e ∈ items) : e.time ≤ newestOf items := by
  induction items using List.reverseRecOn with
  | nil => cases he
  | append_singleton items e' ih =>
      rw [newestOf_snoc]
      rcases List.mem_append.mp he with he | he
      · exact (ih he).trans (le_max_left _ _)
      · rw [List.mem_singleton.mp he]
        exact le_max_right _ _

theorem newestOf_prospectiveOf_le (items : List Evidence) :
    newestOf (prospectiveOf items) ≤ newestOf items := by
  have hall : ∀ sub : List Evidence, (∀ e ∈ sub, e ∈ items) →
      newestOf sub ≤ newestOf items := by
    intro sub
    induction sub using List.reverseRecOn with
    | nil => exact fun _ => Nat.zero_le _
    | append_singleton sub e ih =>
        intro hsub
        rw [newestOf_snoc]
        refine max_le (ih fun e' he' => hsub e' (List.mem_append_left _ he'))
          (newestOf_le (hsub e (List.mem_append_right _ ?_)))
        exact List.mem_singleton_self e
  exact hall _ fun e he => List.mem_of_mem_filter he

/-- Every sum of errors in a bucket is a double. -/
structure Bucket.Rounded (b : Bucket) : Prop where
  pin : binary64 b.pin = b.pin
  abs : binary64 b.abs = b.abs
  bias : binary64 b.bias = b.bias
  st0 : binary64 b.st0 = b.st0
  st1 : binary64 b.st1 = b.st1
  st2 : binary64 b.st2 = b.st2

theorem Bucket.rounded_empty : Bucket.Rounded {} :=
  ⟨binary64_zero, binary64_zero, binary64_zero, binary64_zero, binary64_zero,
    binary64_zero⟩

theorem Bucket.rounded_add (a b : Bucket) : (a.add b).Rounded :=
  ⟨binary64_binary64 _, binary64_binary64 _, binary64_binary64 _,
    binary64_binary64 _, binary64_binary64 _, binary64_binary64 _⟩

/-- A bucket without a prospective part adds none. -/
theorem Bucket.add_of_replay {a b : Bucket} (ha : a.Rounded)
    (hb : b.prospective = {}) : (a.add b).prospective = a.prospective := by
  obtain ⟨hpin, habs, hbias, hst0, hst1, hst2⟩ := ha
  simp only [Bucket.prospective, Bucket.mk.injEq] at hb
  simp [Bucket.add, Bucket.prospective, hb, hpin, habs, hbias, hst0, hst1,
    hst2]

theorem Bucket.add_prospective {a a' : Bucket}
    (h : a.prospective = a'.prospective) (b : Bucket) :
    (a.add b).prospective = (a'.add b.prospective).prospective := by
  simp only [Bucket.prospective, Bucket.mk.injEq] at h
  simp [Bucket.add, Bucket.prospective, h]

/-- The entries of a ledger without replay. -/
def prospectiveEntry (entry : ℕ × Bucket) : Option (ℕ × Bucket) :=
  entry.2.prospective?.map fun b => (entry.1, b)

theorem foldl_add_prospective (entries : List (ℕ × Bucket)) {a a' : Bucket}
    (ha : a.Rounded) (h : a.prospective = a'.prospective) :
    (entries.foldl (fun sum entry => sum.add entry.2) a).prospective =
      ((entries.filterMap prospectiveEntry).foldl
        (fun sum entry => sum.add entry.2) a').prospective := by
  induction entries generalizing a a' with
  | nil => exact h
  | cons entry rest ih =>
      rw [List.foldl_cons, List.filterMap_cons]
      by_cases hreplay : entry.2.prospective = {}
      · have hnone : prospectiveEntry entry = none := by
          simp [prospectiveEntry, Bucket.prospective?, hreplay]
        rw [hnone]
        exact ih (Bucket.rounded_add _ _)
          ((Bucket.add_of_replay ha hreplay).trans h)
      · have hsome : prospectiveEntry entry =
            some (entry.1, entry.2.prospective) := by
          simp [prospectiveEntry, Bucket.prospective?, hreplay]
        rw [hsome, List.foldl_cons]
        exact ih (Bucket.rounded_add _ _) (Bucket.add_prospective h entry.2)

/-- The prospective buckets of one ledger are those of the other. -/
def Ledger.SameBuckets (ledger other : Ledger) : Prop :=
  other.buckets = ledger.buckets.filterMap fun _ b => b.prospective?

section Sums

variable {ledger other : Ledger}

/-- Entries are read by their hours, which the prospective part keeps. -/
theorem filter_prospectiveEntry (entries : List (ℕ × Bucket)) (p : ℕ → Bool) :
    (entries.filterMap prospectiveEntry).filter (fun entry => p entry.1) =
      (entries.filter fun entry => p entry.1).filterMap prospectiveEntry := by
  rw [List.filter_filterMap, List.filterMap_filter]
  refine List.filterMap_congr fun entry _ => ?_
  unfold prospectiveEntry
  cases entry.2.prospective? with
  | none => simp
  | some b => cases hp : p entry.1 <;> simp [hp]

theorem Ledger.SameBuckets.entries (h : ledger.SameBuckets other)
    (p : ℕ → Bool) :
    other.buckets.toList.filter (fun entry => p entry.1) =
      (ledger.buckets.toList.filter fun entry => p entry.1).filterMap
        prospectiveEntry := by
  rw [h, ExtTreeMap.toList_filterMap, ← filter_prospectiveEntry]
  rfl

theorem Ledger.SameBuckets.windowCounts (h : ledger.SameBuckets other)
    (now seconds : ℕ) :
    (ledger.windowCounts now seconds).prospective =
      (other.windowCounts now seconds).prospective := by
  unfold Ledger.windowCounts bucketSums
  rw [h.entries (inTrailing now seconds)]
  exact congrArg Bucket.counts
    (foldl_add_prospective _ Bucket.rounded_empty rfl)

theorem Ledger.SameBuckets.lookup (h : ledger.SameBuckets other) (k : ℕ) :
    other.buckets[k]? = ledger.buckets[k]?.bind Bucket.prospective? := by
  rw [h, ExtTreeMap.getElem?_filterMap']

/-- The bounded and covered gate windows of one day. -/
def dayCoverage (entries : List (ℕ × Bucket)) (d : ℕ) : ℕ × ℕ :=
  entries.foldl (fun c entry =>
    if entry.1 * hour / day = d then (c.1 + entry.2.gBd, c.2 + entry.2.gCv)
    else c) (0, 0)

theorem dayCoverage_filterMap (entries : List (ℕ × Bucket)) (d : ℕ) :
    dayCoverage (entries.filterMap prospectiveEntry) d =
      dayCoverage entries d := by
  unfold dayCoverage
  generalize ((0 : ℕ), (0 : ℕ)) = start
  induction entries generalizing start with
  | nil => rfl
  | cons entry rest ih =>
      rw [List.foldl_cons, List.filterMap_cons]
      by_cases hreplay : entry.2.prospective = {}
      · have hnone : prospectiveEntry entry = none := by
          simp [prospectiveEntry, Bucket.prospective?, hreplay]
        simp only [Bucket.prospective, Bucket.mk.injEq] at hreplay
        rw [hnone, ih]
        simp [hreplay]
      · have hsome : prospectiveEntry entry =
            some (entry.1, entry.2.prospective) := by
          simp [prospectiveEntry, Bucket.prospective?, hreplay]
        rw [hsome, List.foldl_cons, ih]
        rfl

/-- The map of the days holds each day's coverage. -/
theorem foldl_alter_days (entries : List (ℕ × Bucket))
    (days : ExtTreeMap ℕ (ℕ × ℕ)) (d : ℕ) :
    (((entries.foldl (fun (days : ExtTreeMap ℕ (ℕ × ℕ)) entry =>
        days.alter (entry.1 * hour / day) fun c =>
          let c := c.getD (0, 0)
          some (c.1 + entry.2.gBd, c.2 + entry.2.gCv)) days))[d]?).getD
        (0, 0) =
      entries.foldl (fun c entry =>
        if entry.1 * hour / day = d then
          (c.1 + entry.2.gBd, c.2 + entry.2.gCv)
        else c) (days[d]?.getD (0, 0)) := by
  induction entries generalizing days with
  | nil => rfl
  | cons entry rest ih =>
      rw [List.foldl_cons, List.foldl_cons, ih]
      congr 1
      rw [ExtTreeMap.getElem?_alter]
      by_cases hd : entry.1 * hour / day = d
      · simp [hd]
      · simp [hd]

/-- What holds of a day without windows holds of every day when it holds of
the days in the map. -/
theorem all_days_iff {p : ℕ × ℕ → Bool} (hp : p (0, 0) = true)
    (days : ExtTreeMap ℕ (ℕ × ℕ)) :
    (days.toList.all fun entry => p entry.2) = true ↔
      ∀ d : ℕ, p (days[d]?.getD (0, 0)) = true := by
  simp only [List.all_eq_true, Prod.forall,
    ExtTreeMap.mem_toList_iff_getElem?_eq_some]
  constructor
  · intro hall d
    cases hlookup : days[d]? with
    | none => exact hp
    | some c => exact hall d c.1 c.2 hlookup
  · intro hall d bd cv hlookup
    have hday := hall d
    rwa [hlookup] at hday

/-- A day meets the coverage threshold once it has enough outcomes. -/
def dayOk (g : Global) (t : TrustSettings) (c : ℕ × ℕ) : Bool :=
  decide (t.worstDayMinOutcomes ≤ c.1 →
    coverageThreshold g t ≤ binary64 (c.2 / c.1))

/-- The worst day is judged on the coverage of the days alone. -/
theorem worstDayOk_iff (ledger : Ledger) (g : Global) {t : TrustSettings}
    (ht : 1 ≤ t.worstDayMinOutcomes) :
    worstDayOk ledger g t = true ↔ ∀ d, dayOk g t
      (dayCoverage (ledger.buckets.toList.filter fun entry =>
        inTrailing g.now (7 * day) entry.1) d) = true := by
  have hempty : dayOk g t (0, 0) = true := by
    rw [dayOk, decide_eq_true_eq]
    exact fun hmin => absurd (ht.trans hmin) (by decide)
  have hdays := foldl_alter_days (ledger.buckets.toList.filter fun entry =>
    inTrailing g.now (7 * day) entry.1) ∅
  simp only [ExtTreeMap.getElem?_empty, Option.getD_none] at hdays
  refine (all_days_iff hempty _).trans (forall_congr' fun d => ?_)
  rw [hdays d]
  rfl

theorem Ledger.SameBuckets.worstDayOk (h : ledger.SameBuckets other)
    (g : Global) {t : TrustSettings} (ht : 1 ≤ t.worstDayMinOutcomes) :
    Forecasting.worstDayOk ledger g t = Forecasting.worstDayOk other g t := by
  rw [Bool.eq_iff_iff, worstDayOk_iff ledger g ht, worstDayOk_iff other g ht,
    h.entries (inTrailing g.now (7 * day))]
  simp only [dayCoverage_filterMap]

end Sums

/-- A record opens or closes the window that ends at `w`. -/
def Evidence.Touches (w : ℕ) : Evidence → Prop
  | .issued note => note.mode = .prospective ∧ note.windowEnd = w
  | .matured r _ _ _ => r.cal.windowEnd = w

theorem Evidence.pend_of_not_touches {w : ℕ} {e : Evidence}
    (h : ¬e.Touches w) (deadline : Option ℕ) :
    e.pend w deadline = deadline := by
  cases e with
  | issued note => exact if_neg h
  | matured r leadSeconds recentN nominal => exact if_neg h

/-- A prospective record touches the window it names. -/
theorem Evidence.touches_iff {w : ℕ} {e : Evidence}
    (h : e.mode = .prospective) : e.Touches w ↔ e.windowEnd = w := by
  cases e with
  | issued note =>
      change note.mode = .prospective at h
      simp [Touches, windowEnd, h]
  | matured r leadSeconds recentN nominal => rfl

theorem pendingAt_of_split {w : ℕ} {before after : List Evidence}
    {note : IssuanceNote} (hmode : note.mode = .prospective)
    (hw : note.windowEnd = w) (hafter : ∀ e ∈ after, ¬e.Touches w) :
    pendingAt (before ++ .issued note :: after) w = some note.deadline := by
  unfold pendingAt
  rw [List.foldl_append, List.foldl_cons]
  have hopen : Evidence.pend w (before.foldl (Evidence.pend w) none)
      (.issued note) = some note.deadline := if_pos ⟨hmode, hw⟩
  rw [hopen]
  induction after with
  | nil => rfl
  | cons e rest ih =>
      rw [List.foldl_cons,
        Evidence.pend_of_not_touches (hafter e List.mem_cons_self)]
      exact ih fun e' he' => hafter e' (List.mem_cons_of_mem e he')

/-- A closed window stays closed until a prospective issuance opens it. -/
theorem foldl_pend_none {w : ℕ} {items : List Evidence}
    (h : ∀ note, .issued note ∈ items → note.mode = .prospective →
      note.windowEnd ≠ w) :
    items.foldl (Evidence.pend w) none = none := by
  induction items with
  | nil => rfl
  | cons e rest ih =>
      have hclosed : e.pend w none = none := by
        cases e with
        | issued note =>
            exact if_neg fun hopens =>
              h note List.mem_cons_self hopens.1 hopens.2
        | matured r leadSeconds recentN nominal => exact ite_self none
      rw [List.foldl_cons, hclosed]
      exact ih fun note hnote => h note (List.mem_cons_of_mem e hnote)

/-- An outcome closes its window, which stays closed when nothing opens it
again. -/
theorem pendingAt_of_closed {before after : List Evidence}
    {r : EvidenceRecord} {leadSeconds recentN : ℕ} {nominal : ℚ} {w : ℕ}
    (hw : r.cal.windowEnd = w)
    (h : ∀ note, .issued note ∈ after → note.mode = .prospective →
      note.windowEnd ≠ w) :
    pendingAt (before ++ .matured r leadSeconds recentN nominal :: after) w =
      none := by
  unfold pendingAt
  rw [List.foldl_append, List.foldl_cons]
  have hpop : Evidence.pend w (before.foldl (Evidence.pend w) none)
      (.matured r leadSeconds recentN nominal) = none := if_pos hw
  rw [hpop]
  exact foldl_pend_none h

/-- An open window was opened by an issuance, and nothing touched it since. -/
theorem pendingAt_eq_some {items : List Evidence} {w d : ℕ}
    (h : pendingAt items w = some d) :
    ∃ before note after, items = before ++ .issued note :: after ∧
      note.mode = .prospective ∧ note.windowEnd = w ∧ note.deadline = d ∧
      ∀ e ∈ after, ¬e.Touches w := by
  induction items using List.reverseRecOn with
  | nil => cases h
  | append_singleton items e ih =>
      rw [pendingAt_snoc] at h
      by_cases htouches : e.Touches w
      · cases e with
        | issued note =>
            have hopen : Evidence.pend w (pendingAt items w) (.issued note) =
                some note.deadline := if_pos htouches
            rw [hopen] at h
            exact ⟨items, note, [], rfl, htouches.1, htouches.2,
              Option.some.inj h, fun _ he => by cases he⟩
        | matured r leadSeconds recentN nominal =>
            have hclosed : Evidence.pend w (pendingAt items w)
                (.matured r leadSeconds recentN nominal) = none :=
              if_pos htouches
            rw [hclosed] at h
            cases h
      · rw [Evidence.pend_of_not_touches htouches] at h
        obtain ⟨before, note, after, rfl, hmode, hw, hd, hafter⟩ := ih h
        refine ⟨before, note, after ++ [e], by simp, hmode, hw, hd, ?_⟩
        rw [List.forall_mem_append]
        exact ⟨hafter, fun e' he' => by
          rw [List.mem_singleton.mp he']
          exact htouches⟩

/-- A window that is open with replay is open without it. -/
theorem pendingAt_prospectiveOf {items : List Evidence} {w d : ℕ}
    (h : pendingAt items w = some d) :
    pendingAt (prospectiveOf items) w = some d := by
  obtain ⟨before, note, after, rfl, hmode, hw, rfl, hafter⟩ :=
    pendingAt_eq_some h
  have hkept : Evidence.isProspective (.issued note) = true :=
    decide_eq_true hmode
  unfold prospectiveOf
  rw [List.filter_append, List.filter_cons_of_pos hkept]
  exact pendingAt_of_split hmode hw
    fun e he => hafter e (List.mem_of_mem_filter he)

/-- The overdue windows are the entries of a filtered map. -/
theorem Ledger.overdue_eq_size (ledger : Ledger) (now seconds : ℕ) :
    ledger.overdue now seconds =
      (ledger.pending.filter fun w d =>
        inTrailing now seconds (w / hour) && decide (d ≤ now)).size := by
  rw [← ExtTreeMap.length_toList, ExtTreeMap.toList_filter,
    ← List.countP_eq_length_filter]
  rfl

theorem inTrailing_iff (now seconds k : ℕ) :
    inTrailing now seconds k = true ↔
      now ≤ k * hour + seconds ∧ k * hour ≤ now := by
  have hhour : (hour : ℤ) = 3600 := by decide
  have hnat : hour = 3600 := by decide
  simp only [inTrailing, trailingHours, decide_eq_true_eq, hhour]
  rw [hnat]
  omega

/-- An entry that is overdue at some time in a trailing window of the
retention. -/
def Observable (w d : ℕ) : Prop := d ≤ w / hour * hour + 7 * day

instance (w d : ℕ) : Decidable (Observable w d) :=
  inferInstanceAs (Decidable (_ ≤ _))

theorem observable_of_overdue {now seconds w d : ℕ}
    (hseconds : seconds ≤ 7 * day)
    (hin : inTrailing now seconds (w / hour) = true) (hd : d ≤ now) :
    Observable w d := by
  rw [inTrailing_iff] at hin
  unfold Observable
  omega

/-- Two ledgers with the same observable entries have the same overdue
windows. -/
theorem Ledger.overdue_congr {ledger other : Ledger}
    (h : ∀ w d : ℕ, Observable w d →
      (ledger.pending[w]? = some d ↔ other.pending[w]? = some d))
    (now : ℕ) {seconds : ℕ} (hseconds : seconds ≤ 7 * day) :
    ledger.overdue now seconds = other.overdue now seconds := by
  rw [Ledger.overdue_eq_size, Ledger.overdue_eq_size]
  congr 1
  refine ExtTreeMap.ext_getElem? fun w => Option.ext fun d => ?_
  simp only [ExtTreeMap.getElem?_filter', Option.filter_eq_some_iff,
    Bool.and_eq_true, decide_eq_true_eq]
  constructor
  · rintro ⟨hlookup, hin, hd⟩
    exact ⟨(h w d (observable_of_overdue hseconds hin hd)).mp hlookup, hin, hd⟩
  · rintro ⟨hlookup, hin, hd⟩
    exact ⟨(h w d (observable_of_overdue hseconds hin hd)).mpr hlookup, hin,
      hd⟩

/-- A ledger that lost an observable entry has fewer overdue windows at some
time. -/
theorem Ledger.overdue_lt {ledger other : Ledger}
    (hsub : ∀ w d : ℕ, ledger.pending[w]? = some d →
      other.pending[w]? = some d)
    (hsame : ∀ now, ledger.overdue now (7 * day) =
      other.overdue now (7 * day))
    {w d : ℕ} (hw : other.pending[w]? = some d) (hobservable : Observable w d) :
    ledger.pending[w]? = some d := by
  let now := max d (w / hour * hour)
  let p := fun (w d : ℕ) =>
    inTrailing now (7 * day) (w / hour) && decide (d ≤ now)
  have hkept : ledger.pending.filter p =
      (other.pending.filter p).filter fun w _ =>
        (ledger.pending[w]?).isSome := by
    refine ExtTreeMap.ext_getElem? fun v => Option.ext fun e => ?_
    simp only [ExtTreeMap.getElem?_filter', Option.filter_eq_some_iff]
    constructor
    · rintro ⟨hlookup, hp⟩
      exact ⟨⟨hsub v e hlookup, hp⟩, by rw [hlookup]; rfl⟩
    · rintro ⟨⟨hlookup, hp⟩, hsome⟩
      obtain ⟨e', he'⟩ := Option.isSome_iff_exists.mp hsome
      have heq := hsub v e' he'
      rw [hlookup] at heq
      rw [Option.some.inj heq]
      exact ⟨he', Option.some.inj heq ▸ hp⟩
  have hsize := hsame now
  rw [Ledger.overdue_eq_size, Ledger.overdue_eq_size] at hsize
  change (ledger.pending.filter p).size = (other.pending.filter p).size at hsize
  rw [hkept, ← ExtTreeMap.length_toList, ← ExtTreeMap.length_toList,
    ExtTreeMap.toList_filter] at hsize
  have hall := List.filter_sublist.eq_of_length hsize
  have hp : p w d = true := by
    have hle : d ≤ now := le_max_left _ _
    have hge : w / hour * hour ≤ now := le_max_right _ _
    have hin : inTrailing now (7 * day) (w / hour) = true := by
      rw [inTrailing_iff]
      refine ⟨max_le hobservable (Nat.le_add_right _ _), hge⟩
    simp only [p, hin, Bool.true_and, decide_eq_true_eq]
    exact hle
  have hmem : (w, d) ∈ (other.pending.filter p).toList := by
    rw [ExtTreeMap.mem_toList_iff_getElem?_eq_some,
      ExtTreeMap.getElem?_filter', Option.filter_eq_some_iff]
    exact ⟨hw, hp⟩
  rw [← hall] at hmem
  obtain ⟨d', hd'⟩ := Option.isSome_iff_exists.mp (List.mem_filter.mp hmem).2
  have heq := hsub w d' hd'
  rw [hw] at heq
  rw [Option.some.inj heq]
  exact hd'

theorem bucketAt_records {items : List Evidence} {k : ℕ} {b : Bucket}
    (hitems : ∀ e ∈ items, e.mode = .prospective)
    (h : bucketAt items k = some b) : 0 < b.records := by
  induction items using List.reverseRecOn with
  | nil => cases h
  | append_singleton items e ih =>
      rw [List.forall_mem_append] at hitems
      rw [bucketAt_snoc] at h
      split at h
      · cases h
        rw [e.addTo_records (hitems.2 e (List.mem_singleton_self e))]
        exact Nat.succ_pos _
      · exact ih hitems.1 h

/-- The trailing window of no seconds at the start of an hour is that hour. -/
theorem HeldLedger.windowSums_hour (held : HeldLedger) (k : ℕ) :
    held.windowSums (k * hour) 0 =
      held.ledger.buckets[k]?.elim {} fun b => Bucket.add {} b := by
  have hhour : inTrailing (k * hour) 0 = fun j => decide (j = k) := by
    refine funext fun j => ?_
    have hpos : hour = 3600 := by decide
    rw [Bool.eq_iff_iff, inTrailing_iff, decide_eq_true_eq, hpos]
    omega
  have hnodup : held.order.keys.Nodup :=
    held.order.perm.nodup_iff.mpr ExtTreeMap.nodup_keys
  unfold HeldLedger.windowSums bucketSums DictOrder.entries
  rw [groupsAt_filter, hhour, List.filter_eq,
    hnodup.count]
  cases hlookup : held.ledger.buckets[k]? with
  | none =>
      have hgone : k ∉ held.order.keys := by
        rw [held.order.mem_keys, ← ExtTreeMap.isSome_getElem?_iff_mem, hlookup]
        exact Bool.false_ne_true
      rw [if_neg hgone]
      rfl
  | some b =>
      have hkept : k ∈ held.order.keys := by
        rw [held.order.mem_keys, ← ExtTreeMap.isSome_getElem?_iff_mem, hlookup]
        rfl
      rw [if_pos hkept]
      simp [groupsAt, hlookup]

/-- Ledgers whose dicts hold the prospective hours in one order hold the same
prospective entries. -/
theorem entries_of_sameOrder {held other : HeldLedger}
    (h : held.ledger.SameBuckets other.ledger)
    (horder : held.order.keys.filter (· ∈ other.order.keys) =
      other.order.keys) :
    other.order.entries = held.order.entries.filterMap prospectiveEntry := by
  have hentry : ∀ k : ℕ,
      (held.ledger.buckets[k]?.map fun b => (k, b)).bind prospectiveEntry =
        other.ledger.buckets[k]?.map fun b => (k, b) := by
    intro k
    rw [h.lookup]
    cases held.ledger.buckets[k]? <;> rfl
  unfold DictOrder.entries groupsAt
  rw [← horder, List.filterMap_filter, List.filterMap_filterMap]
  refine List.filterMap_congr fun k _ => ?_
  by_cases hk : k ∈ other.order.keys
  · rw [if_pos (decide_eq_true hk)]
    exact (hentry k).symm
  · have hgone : other.ledger.buckets[k]? = none := by
      rw [← Option.not_isSome_iff_eq_none, ExtTreeMap.isSome_getElem?_iff_mem,
        ← other.order.mem_keys]
      exact hk
    rw [if_neg (by simpa using hk)]
    refine ((hentry k).trans ?_).symm
    rw [hgone]
    rfl

theorem windowSums_of_sameOrder {held other : HeldLedger}
    (h : held.ledger.SameBuckets other.ledger)
    (horder : held.order.keys.filter (· ∈ other.order.keys) =
      other.order.keys) (now seconds : ℕ) :
    (held.windowSums now seconds).prospective =
      (other.windowSums now seconds).prospective := by
  unfold HeldLedger.windowSums bucketSums
  rw [entries_of_sameOrder h horder,
    filter_prospectiveEntry held.order.entries (inTrailing now seconds)]
  exact foldl_add_prospective _ Bucket.rounded_empty rfl

/-- The parts of a ledger beside its buckets and its pending windows. -/
structure Ledger.SameRest (ledger other : Ledger) : Prop where
  recent : ledger.recent = other.recent
  consecutiveMisses : ledger.consecutiveMisses = other.consecutiveMisses
  firstProspective : ledger.firstProspective = other.firstProspective
  firstIssue : ledger.firstIssue = other.firstIssue
  intervalSeconds : ledger.intervalSeconds = other.intervalSeconds
  totals : ledger.totals.prospective = other.totals.prospective

theorem LedgerTotals.addOutcome_replay {r : EvidenceRecord}
    (h : r.mode = .replay) (gate : Bool) (t : LedgerTotals) :
    (t.addOutcome r gate).prospective = t.prospective := by
  unfold LedgerTotals.addOutcome
  rw [h]
  cases r.cal.truth <;> cases r.cal.upperRps <;> rfl

theorem LedgerTotals.addOutcome_prospective {r : EvidenceRecord}
    (h : r.mode = .prospective) (gate : Bool) {t t' : LedgerTotals}
    (ht : t.prospective = t'.prospective) :
    (t.addOutcome r gate).prospective = (t'.addOutcome r gate).prospective := by
  simp only [LedgerTotals.prospective, LedgerTotals.mk.injEq] at ht
  unfold LedgerTotals.addOutcome
  rw [h]
  cases r.cal.truth <;> cases r.cal.upperRps <;>
    simp [LedgerTotals.prospective, ht]

theorem Ledger.SameRest.addReplay {ledger other : Ledger}
    (h : ledger.SameRest other) {e : Evidence} (hmode : e.mode = .replay) :
    (e.add ledger).SameRest other := by
  cases e with
  | issued note =>
      change note.mode = .replay at hmode
      simp only [Evidence.add, Ledger.addIssuance, hmode]
      exact ⟨h.recent, h.consecutiveMisses, h.firstProspective, h.firstIssue,
        h.intervalSeconds, h.totals⟩
  | matured r leadSeconds recentN nominal =>
      change r.mode = .replay at hmode
      have hgate : r.gateBound leadSeconds = none := by
        simp only [EvidenceRecord.gateBound, hmode]
      simp only [Evidence.add, Ledger.addOutcome, hgate]
      exact ⟨h.recent, h.consecutiveMisses, h.firstProspective, h.firstIssue,
        h.intervalSeconds,
        (LedgerTotals.addOutcome_replay hmode _ _).trans h.totals⟩

theorem Ledger.SameRest.addProspective {ledger other : Ledger}
    (h : ledger.SameRest other) {e : Evidence}
    (hmode : e.mode = .prospective) :
    (e.add ledger).SameRest (e.add other) := by
  cases e with
  | issued note =>
      change note.mode = .prospective at hmode
      have htotals := h.totals
      simp only [LedgerTotals.prospective, LedgerTotals.mk.injEq] at htotals
      simp only [Evidence.add, Ledger.addIssuance, hmode]
      refine ⟨h.recent, h.consecutiveMisses, ?_, ?_, h.intervalSeconds, ?_⟩
      · simp only [Ledger.prune, h.firstProspective]
      · simp only [Ledger.prune, h.firstIssue]
      · simp [Ledger.prune, LedgerTotals.prospective, htotals]
  | matured r leadSeconds recentN nominal =>
      change r.mode = .prospective at hmode
      have htotals := LedgerTotals.addOutcome_prospective hmode
        (inCohort r.cal.decisionOrigin leadSeconds) h.totals
      simp only [Evidence.add, Ledger.addOutcome]
      cases r.gateBound leadSeconds with
      | none =>
          exact ⟨h.recent, h.consecutiveMisses, h.firstProspective,
            h.firstIssue, h.intervalSeconds, htotals⟩
      | some bound =>
          refine ⟨?_, ?_, h.firstProspective, h.firstIssue, h.intervalSeconds,
            htotals⟩
          · simp only [Ledger.prune, h.recent]
          · simp only [Ledger.prune, h.consecutiveMisses]

/-- Beside the buckets and the pending windows a fold keeps nothing of its
replay records. -/
theorem Ledger.sameRest_fold (ledger : Ledger) (items : List Evidence) :
    (items.foldl Evidence.add ledger).SameRest
      ((prospectiveOf items).foldl Evidence.add ledger) := by
  induction items using List.reverseRecOn with
  | nil => exact ⟨rfl, rfl, rfl, rfl, rfl, rfl⟩
  | append_singleton items e ih =>
      unfold prospectiveOf at *
      rw [List.foldl_append, List.filter_append]
      cases hmode : e.mode with
      | replay =>
          have hdrop : [e].filter Evidence.isProspective = [] := by
            simp [Evidence.isProspective, hmode]
          rw [hdrop, List.append_nil]
          exact ih.addReplay hmode
      | prospective =>
          have hkeep : [e].filter Evidence.isProspective = [e] := by
            simp [Evidence.isProspective, hmode]
          rw [hkeep, List.foldl_append]
          exact ih.addProspective hmode

/-- Two ledgers with the same prospective evidence, as far as any sum over a
trailing window of the retention, any availability and any gate can tell.  The
sums of errors are doubles, which depend on the order in which they are added:
they are compared hour by hour. -/
structure HeldLedger.SameProspective (held other : HeldLedger) : Prop where
  counts : ∀ now seconds, seconds ≤ 7 * day →
    (held.windowSums now seconds).counts.prospective =
      (other.windowSums now seconds).counts.prospective
  hours : ∀ k, (held.windowSums (k * hour) 0).prospective =
    (other.windowSums (k * hour) 0).prospective
  availability : ∀ now seconds, seconds ≤ 7 * day →
    held.ledger.availability now seconds = other.ledger.availability now seconds
  recent : held.ledger.recent = other.ledger.recent
  consecutiveMisses :
    held.ledger.consecutiveMisses = other.ledger.consecutiveMisses
  firstProspective :
    held.ledger.firstProspective = other.ledger.firstProspective
  totals : held.ledger.totals.prospective = other.ledger.totals.prospective
  gates : ∀ (ci : CandidateInputs) (g : Global) (t : TrustSettings),
    1 ≤ t.worstDayMinOutcomes →
    (candidateGates { ci with ledger := held.ledger } g t).1 =
      (candidateGates { ci with ledger := other.ledger } g t).1

/-- The buckets, the pending windows and the rest decide everything. -/
theorem sameProspective_of_sameBuckets {held other : HeldLedger}
    (h : held.ledger.SameBuckets other.ledger)
    (hrest : held.ledger.SameRest other.ledger)
    (hpending : ∀ w d : ℕ, Observable w d →
      (held.ledger.pending[w]? = some d ↔ other.ledger.pending[w]? = some d)) :
    held.SameProspective other := by
  have hcounts : ∀ now seconds,
      (held.ledger.windowCounts now seconds).iss =
          (other.ledger.windowCounts now seconds).iss ∧
        (held.ledger.windowCounts now seconds).sc =
          (other.ledger.windowCounts now seconds).sc ∧
        (held.ledger.windowCounts now seconds).un =
          (other.ledger.windowCounts now seconds).un ∧
        (held.ledger.windowCounts now seconds).gBd =
          (other.ledger.windowCounts now seconds).gBd ∧
        (held.ledger.windowCounts now seconds).gCv =
          (other.ledger.windowCounts now seconds).gCv := by
    intro now seconds
    have hsum := h.windowCounts now seconds
    simp only [Bucket.prospective, Bucket.mk.injEq] at hsum
    exact ⟨hsum.1, hsum.2.2.1, hsum.2.2.2.1, hsum.2.2.2.2.2.2.2.2.1,
      hsum.2.2.2.2.2.2.2.2.2.1⟩
  have havailability : ∀ now seconds, seconds ≤ 7 * day →
      held.ledger.availability now seconds =
        other.ledger.availability now seconds := by
    intro now seconds hseconds
    obtain ⟨hiss, hsc, hun, -, -⟩ := hcounts now seconds
    simp only [Ledger.availability, Ledger.expectedOpportunities, hiss, hsc,
      hun, Ledger.overdue_congr hpending now hseconds, hrest.firstIssue,
      hrest.intervalSeconds]
  refine ⟨fun now seconds _ => ?_, fun k => ?_, havailability, hrest.recent,
    hrest.consecutiveMisses, hrest.firstProspective, hrest.totals, ?_⟩
  · rw [held.windowSums_counts, other.windowSums_counts]
    exact h.windowCounts now seconds
  · rw [held.windowSums_hour, other.windowSums_hour, h.lookup]
    cases held.ledger.buckets[k]? with
    | none => rfl
    | some b =>
        rw [Option.bind_some, Option.elim_some, Bucket.prospective?]
        split
        · rename_i hreplay
          exact Bucket.add_of_replay Bucket.rounded_empty hreplay
        · exact Bucket.add_prospective rfl b
  intro ci g t ht
  obtain ⟨-, -, -, hgBd, hgCv⟩ := hcounts g.now (7 * day)
  simp only [candidateGates, shadowOk, acuteOk, hgBd, hgCv,
    havailability g.now day (by decide), hrest.firstProspective, hrest.recent,
    hrest.consecutiveMisses, h.worstDayOk g ht]

/-- Replay takes no prospective evidence away.  Every prospective record within
the retention of the newest prospective one is within the retention of the
newest record of all; and every window that prospective records leave open,
within the last day of the newest prospective one, is within the last day of
the newest of all and no replay outcome closes it. -/
structure ReplayApart (items : List Evidence) : Prop where
  buckets : ∀ e ∈ prospectiveOf items,
    keepsBucket (newestOf (prospectiveOf items)) ledgerRetention
      (e.time / hour) = true →
    keepsBucket (newestOf items) ledgerRetention (e.time / hour) = true
  pending : ∀ before note after, items = before ++ .issued note :: after →
    note.mode = .prospective →
    (∀ e ∈ prospectiveOf after, e.windowEnd ≠ note.windowEnd) →
    keepsPending (newestOf (prospectiveOf items)) note.windowEnd = true →
    Observable note.windowEnd note.deadline →
    keepsPending (newestOf items) note.windowEnd = true ∧
      ∀ r leadSeconds recentN nominal,
        .matured r leadSeconds recentN nominal ∈ after → r.mode = .replay →
        r.cal.windowEnd ≠ note.windowEnd

/-- Replay does not change the order in which the hours of the prospective
records are opened. -/
def HoursInOrder (items : List Evidence) : Prop :=
  (firsts (recordHours items)).filter
      (· ∈ recordHours (prospectiveOf items)) =
    firsts (recordHours (prospectiveOf items))

/-- Hours that are opened in the same order and kept alike are held in the same
order. -/
theorem sameOrder_of_replayApart {held other : HeldLedger}
    {items : List Evidence} (h : ReplayApart items) (horder : HoursInOrder items)
    (hkeys : held.order.keys = firsts (keptHours items))
    (hotherKeys : other.order.keys = firsts (keptHours (prospectiveOf items))) :
    held.order.keys.filter (· ∈ other.order.keys) = other.order.keys := by
  have hkept : ∀ k ∈ recordHours (prospectiveOf items),
      keepsBucket (newestOf (prospectiveOf items)) ledgerRetention k = true →
      keepsBucket (newestOf items) ledgerRetention k = true := by
    intro k hk hold
    obtain ⟨e, he, rfl⟩ := List.mem_map.mp hk
    exact h.buckets e he hold
  rw [hkeys, hotherKeys]
  unfold keptHours
  rw [firsts_filter, firsts_filter, ← horder, List.filter_filter,
    List.filter_filter]
  refine List.filter_congr fun k hk => ?_
  rw [Bool.eq_iff_iff]
  simp only [Bool.and_eq_true, decide_eq_true_eq, List.mem_filter]
  constructor
  · rintro ⟨⟨-, hold, hin⟩, -⟩
    exact ⟨hold, hin⟩
  · rintro ⟨hold, hin⟩
    exact ⟨⟨hk, hold, hin⟩, hkept k hin hold⟩

section Compared

variable {held other : HeldLedger} {items : List Evidence}
  (hledger : held.ledger.FoldOf items)
  (hother : other.ledger.FoldOf (prospectiveOf items))

include hledger hother

theorem sameBuckets_of_replayApart (h : ReplayApart items) :
    held.ledger.SameBuckets other.ledger := by
  refine ExtTreeMap.ext_getElem? fun k => ?_
  rw [ExtTreeMap.getElem?_filterMap', hledger.bucket_eq, hother.bucket_eq,
    bucketAt_prospectiveOf]
  cases hkept : keepsBucket (newestOf items) ledgerRetention k with
  | true =>
      rw [keepsBucket_of_le (newestOf_prospectiveOf_le items) hkept]
      rfl
  | false =>
      simp only [Bool.false_eq_true, if_false, Option.bind_none, ite_eq_right_iff]
      intro hold
      rw [← bucketAt_prospectiveOf, bucketAt_eq_none]
      intro e he hk
      have hnew := h.buckets e he (hk ▸ hold)
      rw [hk, hkept] at hnew
      cases hnew

theorem pending_of_fold {w d : ℕ} (h : held.ledger.pending[w]? = some d) :
    other.ledger.pending[w]? = some d := by
  rw [hledger.pending_eq] at h
  split at h
  · rename_i hkept
    rw [hother.pending_eq,
      if_pos (keepsPending_of_le (newestOf_prospectiveOf_le items) hkept)]
    exact pendingAt_prospectiveOf h
  · cases h

theorem pending_of_replayApart (h : ReplayApart items) {w d : ℕ}
    (hobservable : Observable w d) (hw : other.ledger.pending[w]? = some d) :
    held.ledger.pending[w]? = some d := by
  rw [hother.pending_eq] at hw
  split at hw
  · rename_i hold
    obtain ⟨before, note, after, hsplit, hmode, rfl, rfl, hafter⟩ :=
      pendingAt_eq_some hw
    unfold prospectiveOf at hsplit
    obtain ⟨first, rest, rfl, hbefore, hrest⟩ :=
      List.filter_eq_append_iff.mp hsplit
    obtain ⟨skipped, last, rfl, hskipped, -, hlast⟩ :=
      List.filter_eq_cons_iff.mp hrest
    have huntouched : ∀ e ∈ prospectiveOf last, ¬e.Touches note.windowEnd := by
      unfold prospectiveOf
      rw [hlast]
      exact hafter
    obtain ⟨hkept, hreplay⟩ := h.pending (first ++ skipped) note last
      (by simp) hmode (fun e he => by
        have hprospective : e.mode = .prospective := by
          simpa [Evidence.isProspective] using (List.mem_filter.mp he).2
        exact fun heq => huntouched e he
          ((Evidence.touches_iff hprospective).mpr heq)) hold hobservable
    rw [hledger.pending_eq, if_pos hkept, ← List.append_assoc]
    refine pendingAt_of_split hmode rfl fun e he htouches => ?_
    cases hmodeE : e.mode with
    | prospective =>
        exact huntouched e (List.mem_filter.mpr
          ⟨he, by simp [Evidence.isProspective, hmodeE]⟩) htouches
    | replay =>
        cases e with
        | issued other =>
            change other.mode = .replay at hmodeE
            rw [htouches.1] at hmodeE
            cases hmodeE
        | matured r leadSeconds recentN nominal =>
            exact hreplay r leadSeconds recentN nominal he hmodeE htouches
  · cases hw

/-- A bucket that replay took away shows in the sums of its own hour. -/
theorem keepsBucket_of_sums
    (hsums : ∀ k, (held.windowSums (k * hour) 0).prospective =
      (other.windowSums (k * hour) 0).prospective)
    {e : Evidence} (he : e ∈ prospectiveOf items)
    (hold : keepsBucket (newestOf (prospectiveOf items)) ledgerRetention
      (e.time / hour) = true) :
    keepsBucket (newestOf items) ledgerRetention (e.time / hour) = true := by
  by_contra hlost
  have hgone : held.ledger.buckets[e.time / hour]? = none := by
    rw [hledger.bucket_eq, if_neg hlost]
  cases hbucket : bucketAt (prospectiveOf items) (e.time / hour) with
  | none => exact bucketAt_eq_none.mp hbucket e he rfl
  | some b =>
      have hkept : other.ledger.buckets[e.time / hour]? = some b := by
        rw [hother.bucket_eq, if_pos hold, hbucket]
      have hsum := hsums (e.time / hour)
      rw [held.windowSums_hour, other.windowSums_hour, hgone, hkept] at hsum
      have hrecords : 0 < b.records := by
        refine bucketAt_records (fun e' he' => ?_) hbucket
        simpa [Evidence.isProspective] using (List.mem_filter.mp he').2
      simp only [Option.elim_none, Option.elim_some, Bucket.add,
        Bucket.prospective, Bucket.mk.injEq, Nat.zero_add] at hsum
      unfold Bucket.records at hrecords
      omega

theorem replayApart_of_sameProspective (h : held.SameProspective other) :
    ReplayApart items := by
  refine ⟨fun e he hold => keepsBucket_of_sums hledger hother
    h.hours he hold, ?_⟩
  intro before note after hitems hmode hafter hold hobservable
  have hkeptNote : Evidence.isProspective (.issued note) = true :=
    decide_eq_true hmode
  have hopen : other.ledger.pending[note.windowEnd]? = some note.deadline := by
    rw [hother.pending_eq, if_pos hold, hitems]
    unfold prospectiveOf
    rw [List.filter_append, List.filter_cons_of_pos hkeptNote]
    refine pendingAt_of_split hmode rfl fun e he htouches => ?_
    have hprospective : e.mode = .prospective := by
      simpa [Evidence.isProspective] using (List.mem_filter.mp he).2
    exact hafter e he ((Evidence.touches_iff hprospective).mp htouches)
  have hkept := Ledger.overdue_lt
    (fun w d => pending_of_fold hledger hother)
    (fun now => congrArg Availability.overdue (h.availability now _ le_rfl))
    hopen hobservable
  rw [hledger.pending_eq] at hkept
  split at hkept
  · rename_i hnew
    refine ⟨hnew, fun r leadSeconds recentN nominal hr _ heq => ?_⟩
    obtain ⟨between, last, rfl⟩ := List.append_of_mem hr
    -- The outcome closes the window, and nothing opens it again.
    have hclosed : pendingAt items note.windowEnd = none := by
      rw [hitems, ← List.cons_append, ← List.append_assoc]
      refine pendingAt_of_closed heq fun later hlater hprospective => ?_
      refine hafter (.issued later) (List.mem_filter.mpr ⟨?_, ?_⟩)
      · exact List.mem_append_right _ (List.mem_cons_of_mem _ hlater)
      · exact decide_eq_true hprospective
    rw [hclosed] at hkept
    cases hkept
  · cases hkept

end Compared

/-- A fold and the fold of its prospective records alone have the same
prospective evidence exactly when replay takes none of it away, and the same
sums of errors over every trailing window when it also leaves the order of the
hours alone. -/
theorem sameProspective_iff_replayApart (epoch : EvidenceKey) (model : Model)
    (recipe : String) (intervalSeconds : ℕ) (items : List Evidence)
    (h : FoldSequence (.fresh epoch model recipe intervalSeconds) items) :
    ∃ held other,
      (HeldLedger.fresh epoch model recipe intervalSeconds).noteAll items =
        .ok held ∧
      (HeldLedger.fresh epoch model recipe intervalSeconds).noteAll
        (prospectiveOf items) = .ok other ∧
      (held.SameProspective other ↔ ReplayApart items) ∧
      (ReplayApart items → HoursInOrder items → ∀ now seconds,
        (held.windowSums now seconds).prospective =
          (other.windowSums now seconds).prospective) := by
  have hfold : FoldSequence (HeldLedger.fresh epoch model recipe
    intervalSeconds).ledger items := h
  have hsub : (prospectiveOf items).Sublist items := List.filter_sublist
  have hpart := hfold.sublist hsub
  refine ⟨_, _, hfold.noteAll_eq, hpart.noteAll_eq, ?_⟩
  have hledger := @HeldLedger.foldOf_fold
    (.fresh epoch model recipe intervalSeconds) rfl rfl rfl items
  have hother := @HeldLedger.foldOf_fold
    (.fresh epoch model recipe intervalSeconds) rfl rfl rfl
    (prospectiveOf items)
  have hkeys := @HeldLedger.keys_fold
    (.fresh epoch model recipe intervalSeconds) rfl rfl rfl items
  have hotherKeys := @HeldLedger.keys_fold
    (.fresh epoch model recipe intervalSeconds) rfl rfl rfl
    (prospectiveOf items)
  refine ⟨⟨replayApart_of_sameProspective hledger hother, fun hapart => ?_⟩,
    fun hapart horder => ?_⟩
  · refine sameProspective_of_sameBuckets
      (sameBuckets_of_replayApart hledger hother hapart) ?_
      fun w d hobservable => ?_
    · rw [foldl_addHeld_ledger, foldl_addHeld_ledger]
      exact Ledger.sameRest_fold _ items
    · exact ⟨pending_of_fold hledger hother,
        pending_of_replayApart hledger hother hapart hobservable⟩
  · exact windowSums_of_sameOrder
      (sameBuckets_of_replayApart hledger hother hapart)
      (sameOrder_of_replayApart hapart horder hkeys hotherKeys)

namespace ReplayWitness

/-- A ledger of the daily naive on a five-minute grid. -/
def fresh : HeldLedger := .fresh default .seasonalNaive "naive/v1" 300

/-- A prospective window that is due at 1320. -/
def window : IssuanceNote where
  seq := 1
  epoch := default
  model := .seasonalNaive
  recipe := "naive/v1"
  origin := 600
  windowEnd := 900
  deadline := 1320
  leadSeconds := 300
  mode := .prospective
  bounded := true

/-- A replayed outcome of a window that ends at `windowEnd`. -/
def replayed (windowEnd : ℕ) : Evidence :=
  .matured
    { cal :=
        { seq := 1
          epoch := default
          model := .seasonalNaive
          recipe := "naive/v1"
          issuanceId := ⟨default, 0, 300, {}, by decide⟩
          decisionOrigin := 300
          windowEnd
          baseRps := 1
          upperRps := some 2
          truth := .scored 1 }
      mode := .replay
      committedAtMs := 1000000
      stepAbsErrors := none } 300 24 (1 / 10)

theorem foldSequence (windowEnd : ℕ) :
    FoldSequence fresh.ledger [.issued window, replayed windowEnd] := by
  refine ⟨fun e he => ?_, ?_, ?_⟩
  · rcases List.mem_cons.mp he with rfl | he
    · rfl
    · rw [List.mem_singleton.mp he]
      rfl
  · exact (by decide : [0, 1].Pairwise (· < ·))
  · exact (by decide : [0, 1].Pairwise (· < ·))

/-- A replayed outcome of the same window end closes the prospective window
that has no outcome: what was overdue no longer is. -/
theorem replay_closes_window :
    FoldSequence fresh.ledger [.issued window, replayed 900] ∧
    ∃ held other,
      fresh.noteAll [.issued window, replayed 900] = .ok held ∧
      fresh.noteAll (prospectiveOf [.issued window, replayed 900]) =
        .ok other ∧
      (held.ledger.availability 1320).overdue = 0 ∧
      (other.ledger.availability 1320).overdue = 1 ∧
      ¬held.SameProspective other := by
  refine ⟨foldSequence 900, _, _, rfl, rfl, by decide +kernel,
    by decide +kernel, fun hsame => ?_⟩
  have hoverdue := congrArg Availability.overdue
    (hsame.availability 1320 day (by decide))
  exact absurd hoverdue (by decide +kernel)

/-- A replayed outcome of another window leaves it overdue. -/
theorem replay_of_other_window :
    FoldSequence fresh.ledger [.issued window, replayed 600] ∧
    ∃ held other,
      fresh.noteAll [.issued window, replayed 600] = .ok held ∧
      fresh.noteAll (prospectiveOf [.issued window, replayed 600]) =
        .ok other ∧
      (held.SameProspective other ↔
        ReplayApart [.issued window, replayed 600]) ∧
      (ReplayApart [.issued window, replayed 600] →
        HoursInOrder [.issued window, replayed 600] → ∀ now seconds,
          (held.windowSums now seconds).prospective =
            (other.windowSums now seconds).prospective) :=
  ⟨foldSequence 600, sameProspective_iff_replayApart _ _ _ _ _
    (foldSequence 600)⟩

/-- A prospective outcome of the load `y`, of which nothing was forecast. -/
def scored (seq windowEnd : ℕ) (y : ℚ) : Evidence :=
  .matured
    { cal :=
        { seq
          epoch := default
          model := .seasonalNaive
          recipe := "naive/v1"
          issuanceId := ⟨default, 0, 300, {}, by decide⟩
          decisionOrigin := 300
          windowEnd
          baseRps := 0
          upperRps := none
          truth := .scored y }
      mode := .prospective
      committedAtMs := 1000000
      stepAbsErrors := none } 300 24 (1 / 10)

/-- A replay record that opens an hour first has its large error added before
the small ones, which it swallows. -/
example :
    let items := [replayed 900, scored 2 3900 1, scored 3 7500 1,
      scored 4 1200 (2 ^ 53)]
    ∃ held other, fresh.noteAll items = .ok held ∧
      fresh.noteAll (prospectiveOf items) = .ok other ∧
      (held.windowSums 7500 day).abs = 2 ^ 53 ∧
      (other.windowSums 7500 day).abs = 2 ^ 53 + 2 :=
  ⟨_, _, rfl, rfl, by decide +kernel, by decide +kernel⟩

end ReplayWitness

end PredictiveAutoscaler.Forecasting
