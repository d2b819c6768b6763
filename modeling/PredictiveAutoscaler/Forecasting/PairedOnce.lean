/-
Paired challenger evidence over a run.  The outcomes of both models arrive in
any order, each with its own place in the journal; the pairs that are counted
are those of the issuances for which both models have a bound to pair, each once
and with its own losses, and the sums are those of the pairs that later records
have not pruned, hour by hour in the order in which the hours were opened.
-/
import PredictiveAutoscaler.Forecasting.Confluence
import PredictiveAutoscaler.Forecasting.Evidence
import PredictiveAutoscaler.KeyedGroups

namespace PredictiveAutoscaler.Forecasting

open Std (ExtTreeMap)
open InsertionOrder KeyedGroups

/-- The loss of a bound to pair: a scored prospective cohort outcome. -/
def EvidenceRecord.loss? (r : EvidenceRecord) (leadSeconds : ℕ)
    (nominal : ℚ) : Option ℚ :=
  (r.gateBound leadSeconds).map fun bound =>
    pinballRps bound.1 bound.2 nominal

/-- Both losses of one issuance. -/
structure Paired where
  issuanceId : IssuanceKey
  windowEnd : ℕ
  chal : ℚ
  base : ℚ
deriving DecidableEq

section Spec

variable (pairs : Pairs) (leadSeconds : ℕ) (nominal : ℚ)

/-- The loss of a model at an issuance. -/
def lossAt (records : List EvidenceRecord) (id : IssuanceKey)
    (model : Model) : Option ℚ :=
  records.findSome? fun r =>
    if r.cal.issuanceId = id ∧ r.cal.model = model then
      r.loss? leadSeconds nominal
    else none

/-- The losses of both models at an issuance, when both have one. -/
def lossesAt (records : List EvidenceRecord) (id : IssuanceKey) :
    Option (ℚ × ℚ) :=
  match lossAt leadSeconds nominal records id pairs.challenger,
    lossAt leadSeconds nominal records id pairs.baseline with
  | some chal, some base => some (chal, base)
  | _, _ => none

/-- The pairs a run of records completes: each where the later of its two
outcomes stands, and those that no later bound has pruned. -/
structure Pairing where
  seen : List EvidenceRecord := []
  completed : List Paired := []
  retained : List Paired := []

/-- The pair that the outcome `r` completes after those seen. -/
def completedBy (seen : List EvidenceRecord) (r : EvidenceRecord) :
    Option Paired :=
  if (lossesAt pairs leadSeconds nominal seen r.cal.issuanceId).isSome then
    none
  else
    (lossesAt pairs leadSeconds nominal (seen ++ [r]) r.cal.issuanceId).map
      fun losses =>
        ⟨r.cal.issuanceId, r.cal.windowEnd, losses.1, losses.2⟩

def Pairing.step (p : Pairing) (r : EvidenceRecord) : Pairing :=
  let new := (completedBy pairs leadSeconds nominal p.seen r).toList
  { seen := p.seen ++ [r]
    completed := p.completed ++ new
    retained :=
      if (r.loss? leadSeconds nominal).isSome then
        (p.retained ++ new).filter fun pair =>
          keepsBucket r.cal.windowEnd ledgerRetention (pair.windowEnd / hour)
      else p.retained }

def pairingOf (records : List EvidenceRecord) : Pairing :=
  records.foldl (Pairing.step pairs leadSeconds nominal) {}

end Spec

/-- A pair in the bucket of its hour. -/
def PairBucket.add (b : Option PairBucket) (pair : Paired) : PairBucket :=
  let b := b.getD ⟨0, 0, 0, pair.windowEnd, pair.windowEnd⟩
  ⟨b.n + 1, binary64 (b.chal + pair.chal), binary64 (b.base + pair.base),
    min b.first pair.windowEnd, max b.last pair.windowEnd⟩

/-- The bucket of the pairs of one hour. -/
def pairBucketOf (paired : List Paired) (k : ℕ) : Option PairBucket :=
  paired.foldl (fun b pair =>
    if pair.windowEnd / hour = k then some (PairBucket.add b pair) else b) none

/-- The buckets of some hours, added up. -/
def sumBuckets (entries : List (ℕ × PairBucket)) : PairSums :=
  entries.foldl (fun sum entry => sum.add entry.2) {}

/-- The hours that pairs fall into, as they came. -/
def pairHours (paired : List Paired) : List ℕ :=
  paired.map fun pair => pair.windowEnd / hour

/-- The sums of pairs over a trailing window, hour by hour in the order of
their first pairs. -/
def pairSumsOf (paired : List Paired) (now seconds : ℕ) : PairSums :=
  sumBuckets (groupsAt (pairBucketOf paired)
    ((firsts (pairHours paired)).filter (inTrailing now seconds)))

/-- Outcomes of both models: each is noted once, in journal order, an issuance
has a window of its own and one outcome of each model, and the two are not a
day apart. -/
structure PairSequence (pairs : Pairs) (records : List EvidenceRecord) :
    Prop where
  own : ∀ r ∈ records, r.cal.epoch = pairs.epoch ∧
    (r.cal.model = pairs.challenger ∨ r.cal.model = pairs.baseline) ∧
    pairs.recipe? r.cal.model = some r.cal.recipe
  seqs : (pairs.lastSeq :: records.map fun r => r.cal.seq).Pairwise (· < ·)
  ends : ∀ r ∈ records, ∀ r' ∈ records,
    r.cal.windowEnd = r'.cal.windowEnd ↔ r.cal.issuanceId = r'.cal.issuanceId
  outcomes : records.Pairwise fun r r' =>
    (r.cal.issuanceId, r.cal.model) ≠ (r'.cal.issuanceId, r'.cal.model)
  together : ∀ before r between r' after,
    records = before ++ r :: (between ++ r' :: after) →
    r.cal.issuanceId = r'.cal.issuanceId →
    ∀ x ∈ between, x.cal.windowEnd < r.cal.windowEnd + day

/-- What the pairs of a run are: one for each issuance with both losses, and
the sums of those retained. -/
structure HeldPairs.ExactOf (held : HeldPairs) (start : Pairs)
    (leadSeconds : ℕ) (nominal : ℚ) (records : List EvidenceRecord) :
    Prop where
  once : ∀ id,
    ((pairingOf start leadSeconds nominal records).completed.filter
      fun pair => pair.issuanceId = id).map (fun pair =>
        (pair.chal, pair.base)) =
      (lossesAt start leadSeconds nominal records id).toList
  counted : ∀ k, held.pairs.buckets[k]? =
    pairBucketOf (pairingOf start leadSeconds nominal records).retained k
  sums : ∀ now seconds, held.sums now seconds =
    pairSumsOf (pairingOf start leadSeconds nominal records).retained now
      seconds
  count : ∀ now seconds, (held.sums now seconds).n =
    ((pairingOf start leadSeconds nominal records).retained.filter fun pair =>
      inTrailing now seconds (pair.windowEnd / hour)).length
  span : ∀ now seconds,
    let ends := ((pairingOf start leadSeconds nominal records).retained.filter
      fun pair => inTrailing now seconds (pair.windowEnd / hour)).map
        Paired.windowEnd
    (held.sums now seconds).span =
      (ends.max?.getD 0 : ℤ) - (ends.min?.getD 0 : ℤ)

/-- The other of the two models. -/
def Pairs.partner (pairs : Pairs) (model : Model) : Model :=
  if model = pairs.challenger then pairs.baseline else pairs.challenger

section Losses

variable {pairs : Pairs} {leadSeconds : ℕ} {nominal : ℚ}
  {seen : List EvidenceRecord} {r : EvidenceRecord}

theorem lossAt_snoc (id : IssuanceKey) (model : Model) :
    lossAt leadSeconds nominal (seen ++ [r]) id model =
      (lossAt leadSeconds nominal seen id model).or
        (if r.cal.issuanceId = id ∧ r.cal.model = model then
          r.loss? leadSeconds nominal else none) := by
  unfold lossAt
  rw [List.findSome?_append, List.findSome?_singleton]

theorem lossAt_eq_some {id : IssuanceKey} {model : Model} {loss : ℚ}
    (h : lossAt leadSeconds nominal seen id model = some loss) :
    ∃ r ∈ seen, r.cal.issuanceId = id ∧ r.cal.model = model ∧
      r.loss? leadSeconds nominal = some loss := by
  obtain ⟨r, hr, hloss⟩ := List.exists_of_findSome?_eq_some h
  split at hloss
  · rename_i hsame
    exact ⟨r, hr, hsame.1, hsame.2, hloss⟩
  · cases hloss

theorem lossAt_eq_none {id : IssuanceKey} {model : Model} :
    lossAt leadSeconds nominal seen id model = none ↔
      ∀ r ∈ seen, r.cal.issuanceId = id → r.cal.model = model →
        r.loss? leadSeconds nominal = none := by
  unfold lossAt
  rw [List.findSome?_eq_none_iff]
  refine forall₂_congr fun r _ => ?_
  constructor
  · intro h hid hmodel
    rwa [if_pos ⟨hid, hmodel⟩] at h
  · intro h
    split
    · rename_i hsame
      exact h hsame.1 hsame.2
    · rfl

/-- A record of another issuance changes no loss of this one. -/
theorem lossesAt_snoc_other {id : IssuanceKey} (hid : r.cal.issuanceId ≠ id) :
    lossesAt pairs leadSeconds nominal (seen ++ [r]) id =
      lossesAt pairs leadSeconds nominal seen id := by
  unfold lossesAt
  simp [lossAt_snoc, hid]

/-- Nor does a record without a bound to pair. -/
theorem lossesAt_snoc_none (hloss : r.loss? leadSeconds nominal = none)
    (id : IssuanceKey) :
    lossesAt pairs leadSeconds nominal (seen ++ [r]) id =
      lossesAt pairs leadSeconds nominal seen id := by
  unfold lossesAt
  simp [lossAt_snoc, hloss]

section Own

variable (hne : pairs.challenger ≠ pairs.baseline)
  (hmodel : r.cal.model = pairs.challenger ∨ r.cal.model = pairs.baseline)
  (hfresh : lossAt leadSeconds nominal seen r.cal.issuanceId r.cal.model =
    none)

include hmodel hfresh in
theorem lossesAt_fresh :
    lossesAt pairs leadSeconds nominal seen r.cal.issuanceId = none := by
  unfold lossesAt
  rcases hmodel with hmodel | hmodel
  · rw [← hmodel, hfresh]
  · rw [← hmodel, hfresh]
    cases lossAt leadSeconds nominal seen r.cal.issuanceId pairs.challenger <;>
      rfl

include hne hmodel hfresh in
/-- A first bound completes a pair when the partner's is there. -/
theorem lossesAt_snoc_own {loss : ℚ}
    (hloss : r.loss? leadSeconds nominal = some loss) :
    lossesAt pairs leadSeconds nominal (seen ++ [r]) r.cal.issuanceId =
      (lossAt leadSeconds nominal seen r.cal.issuanceId
        (pairs.partner r.cal.model)).map fun other =>
          if r.cal.model = pairs.challenger then (loss, other)
          else (other, loss) := by
  unfold lossesAt Pairs.partner
  simp only [lossAt_snoc]
  rcases hmodel with hmodel | hmodel
  · rw [hmodel] at hfresh ⊢
    simp only [hfresh, hne, and_false, if_true, if_false, Option.or_none,
      Option.none_or, hloss, and_self]
    cases lossAt leadSeconds nominal seen r.cal.issuanceId pairs.baseline <;>
      rfl
  · rw [hmodel] at hfresh ⊢
    simp only [hfresh, hne.symm, and_false, if_true, if_false, Option.or_none,
      Option.none_or, hloss, and_self]
    cases lossAt leadSeconds nominal seen r.cal.issuanceId pairs.challenger <;>
      rfl

include hne hmodel hfresh in
/-- So it completes the pair of its issuance. -/
theorem completedBy_some {loss : ℚ}
    (hloss : r.loss? leadSeconds nominal = some loss) :
    completedBy pairs leadSeconds nominal seen r =
      (lossAt leadSeconds nominal seen r.cal.issuanceId
        (pairs.partner r.cal.model)).map fun other =>
          ⟨r.cal.issuanceId, r.cal.windowEnd,
            if r.cal.model = pairs.challenger then loss else other,
            if r.cal.model = pairs.challenger then other else loss⟩ := by
  unfold completedBy
  rw [lossesAt_fresh hmodel hfresh, lossesAt_snoc_own hne hmodel hfresh hloss,
    Option.map_map]
  refine congrArg (Option.map · _) (funext fun other => ?_)
  dsimp only [Function.comp_apply]
  split <;> rfl

end Own

theorem completedBy_none (hloss : r.loss? leadSeconds nominal = none) :
    completedBy pairs leadSeconds nominal seen r = none := by
  unfold completedBy
  rw [lossesAt_snoc_none hloss]
  cases lossesAt pairs leadSeconds nominal seen r.cal.issuanceId <;> rfl

end Losses

theorem pairBucketOf_append (paired : List Paired) (pair : Paired) (k : ℕ) :
    pairBucketOf (paired ++ [pair]) k =
      if pair.windowEnd / hour = k then
        some (PairBucket.add (pairBucketOf paired k) pair)
      else pairBucketOf paired k := by
  simp [pairBucketOf]

/-- Pruning takes the pairs of an hour, or none of them. -/
theorem pairBucketOf_filter (p : ℕ → Bool) (paired : List Paired) (k : ℕ) :
    pairBucketOf (paired.filter fun pair => p (pair.windowEnd / hour)) k =
      if p k then pairBucketOf paired k else none := by
  induction paired using List.reverseRecOn with
  | nil => simp [pairBucketOf]
  | append_singleton paired pair ih =>
      rw [List.filter_append, pairBucketOf_append]
      by_cases hk : pair.windowEnd / hour = k
      · subst hk
        cases hp : p (pair.windowEnd / hour) with
        | false => simp [hp, ih]
        | true =>
            have hkeep : [pair].filter (fun pair =>
                p (pair.windowEnd / hour)) = [pair] := by simp [hp]
            rw [hkeep, pairBucketOf_append, ih, hp]
            rfl
      · cases hp : p (pair.windowEnd / hour) with
        | false => simp [hp, ih, hk]
        | true =>
            have hkeep : [pair].filter (fun pair =>
                p (pair.windowEnd / hour)) = [pair] := by simp [hp]
            rw [hkeep, pairBucketOf_append, if_neg hk, if_neg hk, ih]

/-- What an hour's bucket holds of its pairs. -/
theorem pairBucketOf_spec (paired : List Paired) (k : ℕ) :
    let group := paired.filter fun pair => pair.windowEnd / hour = k
    match pairBucketOf paired k with
    | none => group = []
    | some b => b.n = group.length ∧
        (group.map Paired.windowEnd).min? = some b.first ∧
        (group.map Paired.windowEnd).max? = some b.last := by
  intro group
  induction paired using List.reverseRecOn with
  | nil => rfl
  | append_singleton paired pair ih =>
      dsimp only at ih
      simp only [group, pairBucketOf_append, List.filter_append]
      by_cases hk : pair.windowEnd / hour = k
      · have hone : [pair].filter (fun pair =>
            decide (pair.windowEnd / hour = k)) = [pair] := by simp [hk]
        have hmin : [pair.windowEnd].min? = some pair.windowEnd := rfl
        have hmax : [pair.windowEnd].max? = some pair.windowEnd := rfl
        rw [if_pos hk, hone, List.map_append, List.map_singleton,
          min?_append hmin, max?_append hmax]
        cases hbucket : pairBucketOf paired k with
        | none =>
            rw [hbucket] at ih
            simp [ih, PairBucket.add]
        | some b =>
            rw [hbucket] at ih
            obtain ⟨hn, hfirst, hlast⟩ := ih
            rw [hfirst, hlast]
            simp [hn, PairBucket.add]
      · have hnone : [pair].filter (fun pair =>
            decide (pair.windowEnd / hour = k)) = [] := by simp [hk]
        rw [if_neg hk, hnone, List.append_nil]
        exact ih

theorem mem_pairHours (paired : List Paired) (k : ℕ) :
    (pairBucketOf paired k).isSome ↔ k ∈ pairHours paired := by
  have hspec := pairBucketOf_spec paired k
  dsimp only at hspec
  unfold pairHours
  rw [List.mem_map]
  cases hbucket : pairBucketOf paired k with
  | none =>
      rw [hbucket, List.filter_eq_nil_iff] at hspec
      refine iff_of_false Bool.false_ne_true ?_
      rintro ⟨pair, hpair, hhour⟩
      exact hspec pair hpair (decide_eq_true hhour)
  | some b =>
      rw [hbucket] at hspec
      obtain ⟨pair, hpair, -⟩ :=
        List.mem_map.mp (List.min?_eq_some_iff.mp hspec.2.1).1
      obtain ⟨hmem, hhour⟩ := List.mem_filter.mp hpair
      exact iff_of_true rfl ⟨pair, hmem, of_decide_eq_true hhour⟩

theorem pairingOf_snoc (pairs : Pairs) (leadSeconds : ℕ) (nominal : ℚ)
    (records : List EvidenceRecord) (r : EvidenceRecord) :
    pairingOf pairs leadSeconds nominal (records ++ [r]) =
      (pairingOf pairs leadSeconds nominal records).step pairs leadSeconds
        nominal r := by
  simp [pairingOf]

theorem pairingOf_seen (pairs : Pairs) (leadSeconds : ℕ) (nominal : ℚ)
    (records : List EvidenceRecord) :
    (pairingOf pairs leadSeconds nominal records).seen = records := by
  induction records using List.reverseRecOn with
  | nil => rfl
  | append_singleton records r ih =>
      rw [pairingOf_snoc, Pairing.step, ih]

/-- A bound prunes the pairs that are retained. -/
theorem retained_snoc {pairs : Pairs} {leadSeconds : ℕ} {nominal loss : ℚ}
    {records : List EvidenceRecord} {r : EvidenceRecord}
    (hloss : r.loss? leadSeconds nominal = some loss) (k : ℕ) :
    pairBucketOf (pairingOf pairs leadSeconds nominal
        (records ++ [r])).retained k =
      if keepsBucket r.cal.windowEnd ledgerRetention k then
        pairBucketOf ((pairingOf pairs leadSeconds nominal records).retained ++
          (completedBy pairs leadSeconds nominal records r).toList) k
      else none := by
  rw [pairingOf_snoc, Pairing.step, pairingOf_seen, hloss]
  exact pairBucketOf_filter (keepsBucket r.cal.windowEnd ledgerRetention) _ k

theorem pairHours_filter (p : ℕ → Bool) (paired : List Paired) :
    pairHours (paired.filter fun pair => p (pair.windowEnd / hour)) =
      (pairHours paired).filter p := by
  unfold pairHours
  rw [List.filter_map]
  rfl

/-- The hours of the retained pairs are those before and perhaps that of the
record, as far as pruning keeps them. -/
theorem retainedHours_snoc (pairs : Pairs) (leadSeconds : ℕ) (nominal : ℚ)
    (records : List EvidenceRecord) (r : EvidenceRecord) :
    let hours := fun records =>
      pairHours (pairingOf pairs leadSeconds nominal records).retained
    ∃ p, hours (records ++ [r]) =
        (hours records ++ [r.cal.windowEnd / hour]).filter p ∨
      hours (records ++ [r]) = (hours records).filter p := by
  intro hours
  dsimp only [hours]
  rw [pairingOf_snoc, Pairing.step, pairingOf_seen]
  cases r.loss? leadSeconds nominal with
  | none => exact ⟨fun _ => true, .inr (List.filter_true _).symm⟩
  | some loss =>
      refine ⟨keepsBucket r.cal.windowEnd ledgerRetention, ?_⟩
      simp only [Option.isSome_some, if_true, pairHours_filter]
      cases hnew : completedBy pairs leadSeconds nominal records r with
      | none =>
          rw [Option.toList_none, List.append_nil]
          exact .inr rfl
      | some pair =>
          have hend : pair.windowEnd = r.cal.windowEnd := by
            unfold completedBy at hnew
            split at hnew
            · cases hnew
            · obtain ⟨losses, -, rfl⟩ := Option.map_eq_some_iff.mp hnew
              rfl
          rw [Option.toList_some, ← hend]
          refine .inl ?_
          unfold pairHours
          rw [List.map_append]
          rfl

theorem prune_bucket (pairs : Pairs) (windowEnd retention k : ℕ) :
    (pairs.prune windowEnd retention).buckets[k]? =
      if keepsBucket windowEnd retention k then pairs.buckets[k]? else none := by
  unfold Pairs.prune
  rw [ExtTreeMap.getElem?_filter']
  cases hkept : keepsBucket windowEnd retention k <;> simp [filter_kept]

theorem prune_pending (pairs : Pairs) (windowEnd retention w : ℕ) :
    (pairs.prune windowEnd retention).pending[w]? =
      if keepsPending windowEnd w then pairs.pending[w]? else none := by
  unfold Pairs.prune
  rw [ExtTreeMap.getElem?_filter']
  cases hkept : keepsPending windowEnd w <;> simp [filter_kept]

/-- The pairs of a run and what waits for a partner. -/
structure Pairs.Follows (pairs : Pairs) (start : Pairs) (leadSeconds : ℕ)
    (nominal : ℚ) (records : List EvidenceRecord) : Prop where
  same : pairs.epoch = start.epoch ∧ pairs.challenger = start.challenger ∧
    pairs.baseline = start.baseline ∧
    ∀ model, pairs.recipe? model = start.recipe? model
  lastSeq : pairs.lastSeq ∈
    start.lastSeq :: records.map fun r => r.cal.seq
  counted : ∀ k, pairs.buckets[k]? =
    pairBucketOf (pairingOf start leadSeconds nominal records).retained k
  halves : ∀ w half, pairs.pending[w]? = some half →
    ∃ r ∈ records, r.cal.windowEnd = w ∧
      r.loss? leadSeconds nominal = some half.loss ∧
      half = ⟨r.cal.model, half.loss, r.cal.issuanceId⟩ ∧
      lossesAt start leadSeconds nominal records r.cal.issuanceId = none
  waiting : ∀ before r after loss, records = before ++ r :: after →
    r.loss? leadSeconds nominal = some loss →
    lossesAt start leadSeconds nominal records r.cal.issuanceId = none →
    (∀ x ∈ after, x.cal.windowEnd < r.cal.windowEnd + day) →
    pairs.pending[r.cal.windowEnd]? =
      some ⟨r.cal.model, loss, r.cal.issuanceId⟩

theorem keepsPending_iff {newest k : ℕ} :
    keepsPending newest k = true ↔ newest < k + day := by
  simp only [keepsPending, decide_eq_true_eq]
  omega

section Noted

variable {pairs : Pairs} {r : EvidenceRecord} {leadSeconds : ℕ} {nominal : ℚ}

theorem withRecord_of_none (hloss : r.loss? leadSeconds nominal = none) :
    pairs.withRecord r leadSeconds nominal =
      { pairs with lastSeq := r.cal.seq } := by
  unfold Pairs.withRecord
  rw [Option.map_eq_none_iff.mp hloss]

/-- The first bound of an issuance waits for the other. -/
theorem withRecord_of_alone {loss : ℚ}
    (hloss : r.loss? leadSeconds nominal = some loss)
    (halone : pairs.pending[r.cal.windowEnd]? = none) :
    pairs.withRecord r leadSeconds nominal =
      ({ pairs with
        lastSeq := r.cal.seq
        pending := pairs.pending.insert r.cal.windowEnd
          ⟨r.cal.model, loss, r.cal.issuanceId⟩ } : Pairs).prune
        r.cal.windowEnd ledgerRetention := by
  obtain ⟨bound, hbound, rfl⟩ := Option.map_eq_some_iff.mp hloss
  unfold Pairs.withRecord
  rw [hbound]
  simp only [Pairs.meet, halone]

/-- The second meets the first. -/
theorem withRecord_of_partner {loss : ℚ} {half : HalfPair}
    (hloss : r.loss? leadSeconds nominal = some loss)
    (hhalf : pairs.pending[r.cal.windowEnd]? = some half)
    (hmodel : half.model ≠ r.cal.model)
    (hid : half.issuanceId = r.cal.issuanceId) :
    pairs.withRecord r leadSeconds nominal =
      (({ pairs with
          lastSeq := r.cal.seq
          pending := pairs.pending.erase r.cal.windowEnd } : Pairs).addPair
        r.cal.windowEnd
        (if r.cal.model = pairs.challenger then loss else half.loss)
        (if r.cal.model = pairs.challenger then half.loss else loss)).prune
        r.cal.windowEnd ledgerRetention := by
  obtain ⟨bound, hbound, rfl⟩ := Option.map_eq_some_iff.mp hloss
  unfold Pairs.withRecord
  rw [hbound]
  have hmeets : ¬(half.model = r.cal.model ∨
      half.issuanceId ≠ r.cal.issuanceId) := by
    rintro (h | h)
    · exact hmodel h
    · exact h hid
  simp only [Pairs.meet, hhalf, if_neg hmeets]
  split <;> rfl

end Noted

theorem PairSequence.init {start : Pairs} {records : List EvidenceRecord}
    {r : EvidenceRecord} (h : PairSequence start (records ++ [r])) :
    PairSequence start records := by
  refine ⟨fun r' hr' => h.own r' (List.mem_append_left _ hr'), ?_,
    fun r' hr' x hx => h.ends r' (List.mem_append_left _ hr') x
      (List.mem_append_left _ hx),
    (List.pairwise_append.mp h.outcomes).1, ?_⟩
  · have hseqs := h.seqs
    rw [List.map_append, ← List.cons_append] at hseqs
    exact (List.pairwise_append.mp hseqs).1
  · intro before r' between x after hrecords
    exact h.together before r' between x (after ++ [r])
      (by rw [hrecords]; simp)

section Snoc

variable {start pairs : Pairs} {leadSeconds : ℕ} {nominal : ℚ}
  {records : List EvidenceRecord} {r : EvidenceRecord}
  (hne : start.challenger ≠ start.baseline)
  (h : PairSequence start (records ++ [r]))

include h

/-- An issuance has one outcome of each model. -/
theorem PairSequence.fresh :
    lossAt leadSeconds nominal records r.cal.issuanceId r.cal.model =
      none := by
  rw [lossAt_eq_none]
  intro r' hr' hid hmodel
  have hother := (List.pairwise_append.mp h.outcomes).2.2 r' hr' r
    (List.mem_singleton_self r)
  exact absurd (by rw [hid, hmodel]) hother

theorem PairSequence.own_last :
    r.cal.epoch = start.epoch ∧
      (r.cal.model = start.challenger ∨ r.cal.model = start.baseline) ∧
      start.recipe? r.cal.model = some r.cal.recipe :=
  h.own r (List.mem_append_right _ (List.mem_singleton_self r))

theorem PairSequence.ends_last {r' : EvidenceRecord} (hr' : r' ∈ records) :
    r'.cal.windowEnd = r.cal.windowEnd ↔
      r'.cal.issuanceId = r.cal.issuanceId :=
  h.ends r' (List.mem_append_left _ hr') r
    (List.mem_append_right _ (List.mem_singleton_self r))

theorem PairSequence.together_last {before after : List EvidenceRecord}
    {r' : EvidenceRecord} (hrecords : records = before ++ r' :: after)
    (hid : r'.cal.issuanceId = r.cal.issuanceId) :
    ∀ x ∈ after, x.cal.windowEnd < r'.cal.windowEnd + day :=
  h.together before r' after r [] (by rw [hrecords]; simp) hid

variable (hpairs : pairs.Follows start leadSeconds nominal records)

include hpairs

theorem Pairs.Follows.lastSeq_lt : pairs.lastSeq < r.cal.seq := by
  have hseqs := h.seqs
  rw [List.map_append, ← List.cons_append, List.pairwise_append] at hseqs
  exact hseqs.2.2 _ hpairs.lastSeq _ (List.mem_singleton_self _)

/-- A record of the run is noted. -/
theorem Pairs.Follows.notePair_eq :
    pairs.notePair r leadSeconds nominal =
      .ok (pairs.withRecord r leadSeconds nominal) := by
  obtain ⟨hepoch, -, -, hrecipe⟩ := hpairs.same
  obtain ⟨hown, -, hrecord⟩ := h.own_last
  have htakes : pairs.takes r.cal = true := by
    simp [Pairs.takes, hown, hepoch, hrecipe, hrecord, hpairs.lastSeq_lt h]
  unfold Pairs.notePair
  rw [htakes, hrecipe, hrecord]
  simp

/-- Without a partner's bound nothing waits at the window. -/
theorem Pairs.Follows.pending_of_alone
    (hpartner : lossAt leadSeconds nominal records r.cal.issuanceId
      (start.partner r.cal.model) = none) :
    pairs.pending[r.cal.windowEnd]? = none := by
  cases hpending : pairs.pending[r.cal.windowEnd]? with
  | none => rfl
  | some half =>
      exfalso
      obtain ⟨r', hr', hend, hloss, -, -⟩ := hpairs.halves _ _ hpending
      have hid := (h.ends_last hr').mp hend
      have hmodel : r'.cal.model = r.cal.model ∨
          r'.cal.model = start.partner r.cal.model := by
        have hown := (h.own r' (List.mem_append_left _ hr')).2.1
        have hlast := h.own_last.2.1
        unfold Pairs.partner
        rcases hown with hown | hown <;> rcases hlast with hlast | hlast <;>
          by_cases hsame : start.baseline = start.challenger <;>
          simp [hown, hlast, hsame]
      have hnone : r'.loss? leadSeconds nominal = none := by
        rcases hmodel with hmodel | hmodel
        · exact lossAt_eq_none.mp h.fresh r' hr' hid hmodel
        · exact lossAt_eq_none.mp hpartner r' hr' hid hmodel
      rw [hnone] at hloss
      cases hloss

/-- A partner's bound waits at the window. -/
theorem Pairs.Follows.pending_of_partner {other : ℚ}
    (hpartner : lossAt leadSeconds nominal records r.cal.issuanceId
      (start.partner r.cal.model) = some other) :
    pairs.pending[r.cal.windowEnd]? =
      some ⟨start.partner r.cal.model, other, r.cal.issuanceId⟩ := by
  obtain ⟨r', hr', hid, hmodel, hloss⟩ := lossAt_eq_some hpartner
  obtain ⟨before, after, hrecords⟩ := List.append_of_mem hr'
  have hend := (h.ends_last hr').mpr hid
  have hopen : lossesAt start leadSeconds nominal records r.cal.issuanceId =
      none := lossesAt_fresh h.own_last.2.1 h.fresh
  rw [← hend, hpairs.waiting before r' after other hrecords hloss
    (by rw [hid]; exact hopen) (h.together_last hrecords hid), hmodel, hid]

section Pending

variable {pairs' : Pairs} {loss : ℚ} {x : Option HalfPair}
  (hloss : r.loss? leadSeconds nominal = some loss)
  (hpending : ∀ v : ℕ, pairs'.pending[v]? =
    if keepsPending r.cal.windowEnd v then
      if v = r.cal.windowEnd then x else pairs.pending[v]?
    else none)
  (hx : ∀ half, x = some half ↔
    half = ⟨r.cal.model, loss, r.cal.issuanceId⟩ ∧
      lossesAt start leadSeconds nominal (records ++ [r]) r.cal.issuanceId =
        none)

include hloss hpending hx

theorem Pairs.Follows.halves_snoc (w : ℕ) (half : HalfPair)
    (hhalf : pairs'.pending[w]? = some half) :
    ∃ r' ∈ records ++ [r], r'.cal.windowEnd = w ∧
      r'.loss? leadSeconds nominal = some half.loss ∧
      half = ⟨r'.cal.model, half.loss, r'.cal.issuanceId⟩ ∧
      lossesAt start leadSeconds nominal (records ++ [r])
        r'.cal.issuanceId = none := by
  rw [hpending] at hhalf
  split at hhalf
  · split at hhalf
    · rename_i hw
      obtain ⟨rfl, hopen⟩ := (hx half).mp hhalf
      exact ⟨r, List.mem_append_right _ (List.mem_singleton_self r), hw.symm,
        hloss, rfl, hopen⟩
    · rename_i hw
      obtain ⟨r', hr', hend, hloss', heq, hopen⟩ :=
        hpairs.halves w half hhalf
      have hid : r.cal.issuanceId ≠ r'.cal.issuanceId := fun hid =>
        hw (hend.symm.trans ((h.ends_last hr').mpr hid.symm))
      refine ⟨r', List.mem_append_left _ hr', hend, hloss', heq, ?_⟩
      rw [lossesAt_snoc_other hid]
      exact hopen
  · cases hhalf

include hne in
theorem Pairs.Follows.waiting_snoc (before : List EvidenceRecord)
    (r' : EvidenceRecord) (after : List EvidenceRecord) (loss' : ℚ)
    (hsplit : records ++ [r] = before ++ r' :: after)
    (hloss' : r'.loss? leadSeconds nominal = some loss')
    (hopen : lossesAt start leadSeconds nominal (records ++ [r])
      r'.cal.issuanceId = none)
    (hafter : ∀ x ∈ after, x.cal.windowEnd < r'.cal.windowEnd + day) :
    pairs'.pending[r'.cal.windowEnd]? =
      some ⟨r'.cal.model, loss', r'.cal.issuanceId⟩ := by
  induction after using List.reverseRecOn with
  | nil =>
      obtain ⟨-, hlast⟩ := List.append_inj' hsplit rfl
      obtain rfl := (List.cons.inj hlast).1
      have hself : keepsPending r.cal.windowEnd r.cal.windowEnd = true :=
        keepsPending_iff.mpr (Nat.lt_add_of_pos_right (by decide))
      rw [hloss] at hloss'
      rw [hpending, if_pos hself, if_pos rfl, (hx _).mpr ⟨rfl, hopen⟩,
        Option.some.inj hloss']
  | append_singleton after last =>
      rw [← List.cons_append, ← List.append_assoc] at hsplit
      obtain ⟨hrecords, hlast⟩ := List.append_inj' hsplit rfl
      obtain rfl := (List.cons.inj hlast).1
      rw [List.forall_mem_append, List.forall_mem_singleton] at hafter
      have hr' : r' ∈ records := by
        rw [hrecords]
        exact List.mem_append_right _ List.mem_cons_self
      have hid : r.cal.issuanceId ≠ r'.cal.issuanceId := by
        intro hid
        -- both bounds of the issuance are there, so it is complete
        rw [← hid, lossesAt_snoc_own hne h.own_last.2.1 h.fresh hloss,
          Option.map_eq_none_iff, lossAt_eq_none] at hopen
        have hmodel : r'.cal.model = start.partner r.cal.model := by
          have hdiffer := (List.pairwise_append.mp h.outcomes).2.2 r' hr' r
            (List.mem_singleton_self r)
          have hown := (h.own r' (List.mem_append_left _ hr')).2.1
          have hlast := h.own_last.2.1
          have hmodels : r'.cal.model ≠ r.cal.model := fun heq =>
            hdiffer (by rw [hid, heq])
          unfold Pairs.partner
          rcases hown with hown | hown <;> rcases hlast with hlast | hlast <;>
            simp_all
        rw [hopen r' hr' hid.symm hmodel] at hloss'
        cases hloss'
      have hend : r'.cal.windowEnd ≠ r.cal.windowEnd := fun hend =>
        hid ((h.ends_last hr').mp hend).symm
      rw [lossesAt_snoc_other hid] at hopen
      rw [hpending, if_pos (keepsPending_iff.mpr hafter.2), if_neg hend]
      exact hpairs.waiting before r' after loss' hrecords hloss' hopen
        hafter.1

end Pending

omit h in
/-- A record without a bound to pair only moves the sequence number. -/
theorem Pairs.Follows.snoc_none (hloss : r.loss? leadSeconds nominal = none) :
    (pairs.withRecord r leadSeconds nominal).Follows start leadSeconds nominal
      (records ++ [r]) := by
  have hretained : (pairingOf start leadSeconds nominal
      (records ++ [r])).retained =
      (pairingOf start leadSeconds nominal records).retained := by
    rw [pairingOf_snoc, Pairing.step, hloss]
    rfl
  rw [withRecord_of_none hloss]
  refine ⟨hpairs.same, ?_, ?_, ?_, ?_⟩
  · rw [List.map_append]
    exact List.mem_cons_of_mem _
      (List.mem_append_right _ (List.mem_singleton_self _))
  · rw [hretained]
    exact hpairs.counted
  · intro w half hhalf
    obtain ⟨r', hr', hend, hloss', heq, hopen⟩ := hpairs.halves w half hhalf
    refine ⟨r', List.mem_append_left _ hr', hend, hloss', heq, ?_⟩
    rw [lossesAt_snoc_none hloss]
    exact hopen
  · intro before r' after loss hsplit hloss' hopen hafter
    induction after using List.reverseRecOn with
    | nil =>
        obtain ⟨-, hlast⟩ := List.append_inj' hsplit rfl
        rw [← (List.cons.inj hlast).1, hloss] at hloss'
        cases hloss'
    | append_singleton after last =>
        rw [← List.cons_append, ← List.append_assoc] at hsplit
        rw [lossesAt_snoc_none hloss] at hopen
        rw [List.forall_mem_append] at hafter
        exact hpairs.waiting before r' after loss
          (List.append_inj' hsplit rfl).1 hloss' hopen hafter.1

include hne in
/-- A first bound of an issuance waits for the partner's. -/
theorem Pairs.Follows.snoc_alone {loss : ℚ}
    (hloss : r.loss? leadSeconds nominal = some loss)
    (hpartner : lossAt leadSeconds nominal records r.cal.issuanceId
      (start.partner r.cal.model) = none) :
    (pairs.withRecord r leadSeconds nominal).Follows start leadSeconds nominal
      (records ++ [r]) := by
  obtain ⟨-, hmodel, -⟩ := h.own_last
  have hopen := lossesAt_snoc_own hne hmodel h.fresh hloss
  have hcompleted := completedBy_some hne hmodel h.fresh hloss
  rw [hpartner] at hopen hcompleted
  rw [withRecord_of_alone hloss (hpairs.pending_of_alone h hpartner)]
  have hpending : ∀ v : ℕ, (({ pairs with
      lastSeq := r.cal.seq
      pending := pairs.pending.insert r.cal.windowEnd
        ⟨r.cal.model, loss, r.cal.issuanceId⟩ } : Pairs).prune
      r.cal.windowEnd ledgerRetention).pending[v]? =
      if keepsPending r.cal.windowEnd v then
        if v = r.cal.windowEnd then
          some ⟨r.cal.model, loss, r.cal.issuanceId⟩
        else pairs.pending[v]?
      else none := by
    intro v
    rw [prune_pending]
    simp only [ExtTreeMap.getElem?_insert, Nat.compare_eq_eq]
    simp only [eq_comm]
  have hx : ∀ half, some (⟨r.cal.model, loss, r.cal.issuanceId⟩ : HalfPair) =
      some half ↔ half = ⟨r.cal.model, loss, r.cal.issuanceId⟩ ∧
        lossesAt start leadSeconds nominal (records ++ [r])
          r.cal.issuanceId = none := by
    intro half
    rw [hopen]
    simp [eq_comm]
  refine ⟨hpairs.same, ?_, fun k => ?_, hpairs.halves_snoc h hloss hpending hx,
    hpairs.waiting_snoc hne h hloss hpending hx⟩
  · rw [List.map_append]
    exact List.mem_cons_of_mem _
      (List.mem_append_right _ (List.mem_singleton_self _))
  · rw [prune_bucket, retained_snoc hloss, hcompleted, hpairs.counted]
    simp

include hne in
/-- The second bound of an issuance is paired with the first. -/
theorem Pairs.Follows.snoc_partner {loss other : ℚ}
    (hloss : r.loss? leadSeconds nominal = some loss)
    (hpartner : lossAt leadSeconds nominal records r.cal.issuanceId
      (start.partner r.cal.model) = some other) :
    (pairs.withRecord r leadSeconds nominal).Follows start leadSeconds nominal
      (records ++ [r]) := by
  obtain ⟨-, hmodel, -⟩ := h.own_last
  have hopen := lossesAt_snoc_own hne hmodel h.fresh hloss
  have hcompleted := completedBy_some hne hmodel h.fresh hloss
  rw [hpartner] at hopen hcompleted
  rw [← hpairs.same.2.1] at hcompleted
  have hdiffer : start.partner r.cal.model ≠ r.cal.model := by
    unfold Pairs.partner
    split
    · rename_i hsame
      rw [hsame]
      exact hne.symm
    · rename_i hother
      exact Ne.symm hother
  rw [withRecord_of_partner hloss (hpairs.pending_of_partner h hpartner)
    hdiffer rfl]
  have hpending : ∀ v : ℕ, ((({ pairs with
      lastSeq := r.cal.seq
      pending := pairs.pending.erase r.cal.windowEnd } : Pairs).addPair
        r.cal.windowEnd
        (if r.cal.model = pairs.challenger then loss else other)
        (if r.cal.model = pairs.challenger then other else loss)).prune
      r.cal.windowEnd ledgerRetention).pending[v]? =
      if keepsPending r.cal.windowEnd v then
        if v = r.cal.windowEnd then none else pairs.pending[v]?
      else none := by
    intro v
    rw [prune_pending]
    simp only [Pairs.addPair, ExtTreeMap.getElem?_erase, Nat.compare_eq_eq]
    simp only [eq_comm]
  have hx : ∀ half, (none : Option HalfPair) = some half ↔
      half = ⟨r.cal.model, loss, r.cal.issuanceId⟩ ∧
        lossesAt start leadSeconds nominal (records ++ [r])
          r.cal.issuanceId = none := by
    intro half
    rw [hopen]
    simp
  refine ⟨hpairs.same, ?_, fun k => ?_, hpairs.halves_snoc h hloss hpending hx,
    hpairs.waiting_snoc hne h hloss hpending hx⟩
  · rw [List.map_append]
    exact List.mem_cons_of_mem _
      (List.mem_append_right _ (List.mem_singleton_self _))
  · rw [prune_bucket, retained_snoc hloss, hcompleted, Option.map_some,
      Option.toList_some, pairBucketOf_append, ← hpairs.counted]
    simp only [Pairs.addPair, ExtTreeMap.getElem?_alter, Nat.compare_eq_eq]
    refine congrArg (fun b => if keepsBucket r.cal.windowEnd ledgerRetention k =
      true then b else none) ?_
    by_cases hk : r.cal.windowEnd / hour = k
    · rw [if_pos hk, if_pos hk, hk]
      rfl
    · rw [if_neg hk, if_neg hk]

include hne in
/-- The next record of a run is noted, and the pairs follow it. -/
theorem Pairs.Follows.snoc :
    pairs.notePair r leadSeconds nominal =
      .ok (pairs.withRecord r leadSeconds nominal) ∧
    (pairs.withRecord r leadSeconds nominal).Follows start leadSeconds nominal
      (records ++ [r]) := by
  refine ⟨hpairs.notePair_eq h, ?_⟩
  cases hloss : r.loss? leadSeconds nominal with
  | none => exact hpairs.snoc_none hloss
  | some loss =>
      cases hpartner : lossAt leadSeconds nominal records r.cal.issuanceId
          (start.partner r.cal.model) with
      | none => exact hpairs.snoc_alone hne h hloss hpartner
      | some other => exact hpairs.snoc_partner hne h hloss hpartner

end Snoc

theorem follows_self {start : Pairs} (hpending : start.pending = ∅)
    (hbuckets : start.buckets = ∅) (leadSeconds : ℕ) (nominal : ℚ) :
    start.Follows start leadSeconds nominal [] := by
  refine ⟨⟨rfl, rfl, rfl, fun _ => rfl⟩, List.mem_cons_self, fun k => ?_,
    fun w half hhalf => ?_, fun before r after loss hsplit => ?_⟩
  · rw [hbuckets]
    rfl
  · rw [hpending] at hhalf
    simp at hhalf
  · simp at hsplit

/-- Pairs as a process holds them after these records, with their hours in the
order of the retained pairs. -/
structure HeldPairs.Follows (held : HeldPairs) (start : Pairs)
    (leadSeconds : ℕ) (nominal : ℚ) (records : List EvidenceRecord) :
    Prop where
  pairs : held.pairs.Follows start leadSeconds nominal records
  keys : held.order.keys =
    firsts (pairHours (pairingOf start leadSeconds nominal records).retained)

theorem Pairs.Follows.mem_buckets {start pairs : Pairs} {leadSeconds : ℕ}
    {nominal : ℚ} {records : List EvidenceRecord}
    (h : pairs.Follows start leadSeconds nominal records) (k : ℕ) :
    k ∈ pairs.buckets ↔
      k ∈ pairHours (pairingOf start leadSeconds nominal records).retained := by
  rw [← ExtTreeMap.isSome_getElem?_iff_mem, h.counted, mem_pairHours]

theorem heldFollows_self {held : HeldPairs} (hpending : held.pairs.pending = ∅)
    (hbuckets : held.pairs.buckets = ∅) (leadSeconds : ℕ) (nominal : ℚ) :
    held.Follows held.pairs leadSeconds nominal [] := by
  refine ⟨follows_self hpending hbuckets leadSeconds nominal, ?_⟩
  refine List.eq_nil_iff_forall_not_mem.mpr fun k hk => ?_
  have hin := held.order.mem_keys.mp hk
  rw [hbuckets] at hin
  exact absurd hin ExtTreeMap.not_mem_empty

/-- A run of both models' records is noted whole. -/
theorem follows_run {start : HeldPairs}
    (hne : start.pairs.challenger ≠ start.pairs.baseline)
    (hpending : start.pairs.pending = ∅) (hbuckets : start.pairs.buckets = ∅)
    {leadSeconds : ℕ} {nominal : ℚ} (records : List EvidenceRecord)
    (h : PairSequence start.pairs records) :
    ∃ held,
      records.foldlM (fun held r =>
        HeldPairs.notePair held r leadSeconds nominal) start = .ok held ∧
      held.Follows start.pairs leadSeconds nominal records := by
  induction records using List.reverseRecOn with
  | nil => exact ⟨start, rfl, heldFollows_self hpending hbuckets _ _⟩
  | append_singleton records r ih =>
      obtain ⟨held, hrun, hheld⟩ := ih h.init
      obtain ⟨hnoted, hnext⟩ := hheld.pairs.snoc hne h
      obtain ⟨p, hhours⟩ :=
        retainedHours_snoc start.pairs leadSeconds nominal records r
      refine ⟨⟨_, held.order.after (r.cal.windowEnd / hour) _⟩, ?_, hnext,
        DictOrder.keys_after hheld.keys hnext.mem_buckets hhours⟩
      rw [List.foldlM_append, hrun]
      simp only [bind, Except.bind, List.foldlM_cons, List.foldlM_nil,
        HeldPairs.notePair, hnoted]
      rfl

/-- Every issuance with both losses completes one pair, with its own losses on
their sides, and no other issuance does. -/
theorem completed_once {start : Pairs}
    (hne : start.challenger ≠ start.baseline) (leadSeconds : ℕ) (nominal : ℚ)
    (records : List EvidenceRecord) (h : PairSequence start records)
    (id : IssuanceKey) :
    ((pairingOf start leadSeconds nominal records).completed.filter
      fun pair => pair.issuanceId = id).map (fun pair =>
        (pair.chal, pair.base)) =
      (lossesAt start leadSeconds nominal records id).toList := by
  induction records using List.reverseRecOn with
  | nil => rfl
  | append_singleton records r ih =>
      have hbefore := ih h.init
      obtain ⟨-, hmodel, -⟩ := h.own_last
      rw [pairingOf_snoc, Pairing.step, pairingOf_seen]
      dsimp only
      rw [List.filter_append, List.map_append, hbefore]
      cases hloss : r.loss? leadSeconds nominal with
      | none =>
          rw [completedBy_none hloss, lossesAt_snoc_none hloss]
          simp
      | some loss =>
          rw [completedBy_some hne hmodel h.fresh hloss]
          by_cases hid : r.cal.issuanceId = id
          · subst hid
            rw [lossesAt_fresh hmodel h.fresh,
              lossesAt_snoc_own hne hmodel h.fresh hloss]
            cases lossAt leadSeconds nominal records r.cal.issuanceId
                (start.partner r.cal.model) with
            | none => rfl
            | some other => by_cases hsame : r.cal.model = start.challenger <;>
                simp [hsame]
          · rw [lossesAt_snoc_other hid]
            cases lossAt leadSeconds nominal records r.cal.issuanceId
                (start.partner r.cal.model) <;> simp [hid]

theorem sumBuckets_spec (paired : List Paired) {hours : List ℕ}
    (hhours : hours.Nodup) :
    let group := paired.filter fun pair => pair.windowEnd / hour ∈ hours
    let sums := sumBuckets (groupsAt (pairBucketOf paired) hours)
    sums.n = group.length ∧ sums.first = (group.map Paired.windowEnd).min? ∧
      sums.last = (group.map Paired.windowEnd).max? := by
  induction hours using List.reverseRecOn with
  | nil => simp [sumBuckets, groupsAt]
  | append_singleton hours k ih =>
      obtain ⟨hold, -, hnew⟩ := List.nodup_append.mp hhours
      have hk : k ∉ hours := fun hmem =>
        hnew k hmem k (List.mem_singleton_self k) rfl
      obtain ⟨hn, hfirst, hlast⟩ := ih hold
      have hperm := filter_mem_concat_perm
        (fun pair : Paired => pair.windowEnd / hour) hk paired
      have hends := hperm.map Paired.windowEnd
      rw [List.map_append] at hends
      have hspec := pairBucketOf_spec paired k
      dsimp only at hspec ⊢
      rw [groupsAt_concat, hperm.length_eq, List.length_append,
        min?_eq_of_mem_iff fun x => hends.mem_iff,
        max?_eq_of_mem_iff fun x => hends.mem_iff]
      cases hbucket : pairBucketOf paired k with
      | none =>
          rw [hbucket] at hspec
          rw [hspec, List.map_nil, List.append_nil]
          simpa using ⟨hn, hfirst, hlast⟩
      | some b =>
          rw [hbucket] at hspec
          obtain ⟨hbn, hbfirst, hblast⟩ := hspec
          rw [min?_append hbfirst, max?_append hblast, ← hbn, ← hn, ← hfirst,
            ← hlast]
          simp [sumBuckets, PairSums.add]

/-- The sums of a dict of pairs are those of its hours, in its order. -/
theorem HeldPairs.Follows.sums {held : HeldPairs} {start : Pairs}
    {leadSeconds : ℕ} {nominal : ℚ} {records : List EvidenceRecord}
    (h : held.Follows start leadSeconds nominal records) (now seconds : ℕ) :
    held.sums now seconds = pairSumsOf
      (pairingOf start leadSeconds nominal records).retained now seconds := by
  unfold HeldPairs.sums DictOrder.entries pairSumsOf
  rw [groupsAt_filter, h.keys]
  simp only [h.pairs.counted]
  rfl

/-- The pairs of a run are counted once each, and their sums are those of the
pairs retained. -/
theorem pairs_counted_once (epoch : EvidenceKey) {challenger baseline : Model}
    (hne : challenger ≠ baseline) (challengerRecipe baselineRecipe : String)
    (leadSeconds : ℕ) (nominal : ℚ) (records : List EvidenceRecord)
    (h : PairSequence (.fresh epoch challenger challengerRecipe baselineRecipe
      baseline) records) :
    ∃ held,
      records.foldlM (fun held r =>
        HeldPairs.notePair held r leadSeconds nominal)
        (.fresh epoch challenger challengerRecipe baselineRecipe baseline) =
          .ok held ∧
      held.ExactOf (.fresh epoch challenger challengerRecipe baselineRecipe
        baseline) leadSeconds nominal records := by
  obtain ⟨held, hrun, hheld⟩ := @follows_run
    (.fresh epoch challenger challengerRecipe baselineRecipe baseline)
    hne rfl rfl leadSeconds nominal records h
  change held.Follows (.fresh epoch challenger challengerRecipe baselineRecipe
    baseline) leadSeconds nominal records at hheld
  generalize hstart : Pairs.fresh epoch challenger challengerRecipe
    baselineRecipe baseline = start at hheld h ⊢
  have hgroup : ∀ now seconds,
      (pairingOf start leadSeconds nominal records).retained.filter
        (fun pair => pair.windowEnd / hour ∈
          (firsts (pairHours (pairingOf start leadSeconds nominal
            records).retained)).filter (inTrailing now seconds)) =
      (pairingOf start leadSeconds nominal records).retained.filter
        fun pair => inTrailing now seconds (pair.windowEnd / hour) := by
    intro now seconds
    refine List.filter_congr fun pair hpair => ?_
    have hmem : pair.windowEnd / hour ∈ pairHours
        (pairingOf start leadSeconds nominal records).retained :=
      List.mem_map_of_mem hpair
    simp [List.mem_filter, hmem]
  have hspec := fun now seconds => sumBuckets_spec
    (pairingOf start leadSeconds nominal records).retained
    ((firsts_nodup (pairHours (pairingOf start leadSeconds nominal
      records).retained)).filter (inTrailing now seconds))
  simp only [hgroup] at hspec
  refine ⟨held, hrun, ?_, hheld.pairs.counted, hheld.sums,
    fun now seconds => ?_, fun now seconds => ?_⟩
  · exact completed_once (hstart ▸ hne) leadSeconds nominal records h
  · rw [hheld.sums]
    exact (hspec now seconds).1
  · obtain ⟨hn, hfirst, hlast⟩ := hspec now seconds
    rw [hheld.sums]
    unfold pairSumsOf PairSums.span
    rw [hn, hfirst, hlast]
    split
    · rename_i hnone
      simp [List.eq_nil_of_length_eq_zero hnone]
    · rfl

namespace PairedOnceWitness

/-- A scored outcome of one issuance, on the cohort grid of 300 seconds. -/
def outcome (seq : ℕ) (model : Model) (recipe : String) (yRps : ℚ) :
    EvidenceRecord where
  cal :=
    { seq
      epoch := default
      model
      recipe
      issuanceId := ⟨default, 600, 900, {}, by decide⟩
      decisionOrigin := 600
      windowEnd := 900
      baseRps := 1
      upperRps := some 2
      truth := .scored yRps }
  mode := .prospective
  committedAtMs := 1000000
  stepAbsErrors := none

def both : List EvidenceRecord :=
  [outcome 1 .seasonalNaive "naive/v1" 3, outcome 2 .statistical "e1/v1" 1]

theorem pairSequence : PairSequence (.fresh default .statistical "e1/v1"
    "naive/v1" .seasonalNaive) both := by
  refine ⟨by decide, by decide, by decide, by decide, ?_⟩
  intro before r between r' after hsplit _ x hx
  have hlength := congrArg List.length hsplit
  simp only [both, List.length_append, List.length_cons, List.length_nil]
    at hlength
  rw [List.length_eq_zero_iff.mp (by omega : between.length = 0)] at hx
  cases hx

/-- The baseline's outcome comes first, the challenger's second. -/
theorem pairs_counted_once_both :
    PairSequence (.fresh default .statistical "e1/v1" "naive/v1"
      .seasonalNaive) both ∧
    ∃ held,
      both.foldlM (fun held r => HeldPairs.notePair held r 300 (1 / 10))
        (.fresh default .statistical "e1/v1" "naive/v1" .seasonalNaive) =
          .ok held ∧
      held.ExactOf (.fresh default .statistical "e1/v1" "naive/v1"
        .seasonalNaive) 300 (1 / 10) both :=
  ⟨pairSequence, pairs_counted_once default (by decide) _ _ _ _ _
    pairSequence⟩

end PairedOnceWitness

end PredictiveAutoscaler.Forecasting
