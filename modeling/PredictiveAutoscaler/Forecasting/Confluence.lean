/-
The two folds of a ledger commute.  An issuance and an outcome of another
window touch different counts, and pruning by the newest time seen removes the
same buckets and pending windows in either order.
-/
import PredictiveAutoscaler.Forecasting.Ledger

namespace PredictiveAutoscaler.Forecasting

open Std (ExtTreeMap)

theorem Bucket.addIssuance_addOutcome (note : IssuanceNote)
    (r : EvidenceRecord) (gate : Bool) (nominal : ℚ) (b : Bucket) :
    (b.addOutcome r gate nominal).addIssuance note =
      (b.addIssuance note).addOutcome r gate nominal := by
  cases hnote : note.mode <;> cases hmode : r.mode <;>
    cases htruth : r.cal.truth <;> cases hupper : r.cal.upperRps <;>
    cases gate <;> cases hsteps : r.stepAbsErrors <;>
    simp [Bucket.addIssuance, Bucket.addOutcome, Bucket.addReplay,
      Bucket.addErrors, Bucket.addBound, hnote, hmode, htruth, hupper, hsteps]

/-- What a later newest time keeps, an earlier one keeps. -/
theorem keepsBucket_of_le {m n retention k : ℕ} (hmn : m ≤ n)
    (h : keepsBucket n retention k = true) :
    keepsBucket m retention k = true := by
  simp only [keepsBucket, decide_eq_true_eq] at h ⊢
  have hle : ((m : ℤ) - retention) / hour ≤ ((n : ℤ) - retention) / hour :=
    Int.ediv_le_ediv (by decide) (by omega)
  omega

theorem keepsPending_of_le {m n k : ℕ} (hmn : m ≤ n)
    (h : keepsPending n k = true) : keepsPending m k = true := by
  simp only [keepsPending, decide_eq_true_eq] at h ⊢
  omega

theorem filter_kept {α : Type} (o : Option α) :
    o.filter (fun _ => true) = o := by
  cases o <;> rfl

section Prune

variable {m n newest : ℕ} (hm : m ≤ newest) (hn : n ≤ newest)
include hm hn

/-- Two updates that commute on a bucket commute on pruned buckets, where the
last prune is the strictest. -/
theorem modifyBucket_prune_comm {f g : Bucket → Bucket}
    (hfg : ∀ b, f (g b) = g (f b)) (buckets : ExtTreeMap ℕ Bucket)
    (s t retention : ℕ) :
    (modifyBucket ((modifyBucket buckets t g).filter fun k _ =>
        keepsBucket m retention k) s f).filter
        (fun k _ => keepsBucket newest retention k) =
      (modifyBucket ((modifyBucket buckets s f).filter fun k _ =>
        keepsBucket n retention k) t g).filter
        fun k _ => keepsBucket newest retention k := by
  apply ExtTreeMap.ext_getElem?
  intro k
  simp only [modifyBucket, ExtTreeMap.getElem?_filter',
    ExtTreeMap.getElem?_alter, Nat.compare_eq_eq]
  cases hkept : keepsBucket newest retention k with
  | false => simp
  | true =>
      by_cases hs : s / hour = k <;> by_cases ht : t / hour = k <;>
        simp [hs, ht, keepsBucket_of_le hm hkept, keepsBucket_of_le hn hkept,
          hfg, filter_kept]

/-- A pending window and one that closes are different windows. -/
theorem insert_erase_prune_comm (pending : ExtTreeMap ℕ ℕ) {s t : ℕ}
    (hst : s ≠ t) (v : ℕ) :
    (((pending.erase t).filter fun k _ => keepsPending m k).insert s
        v).filter (fun k _ => keepsPending newest k) =
      (((pending.insert s v).filter fun k _ => keepsPending n k).erase
        t).filter fun k _ => keepsPending newest k := by
  apply ExtTreeMap.ext_getElem?
  intro k
  simp only [ExtTreeMap.getElem?_filter', ExtTreeMap.getElem?_insert,
    ExtTreeMap.getElem?_erase, Nat.compare_eq_eq]
  cases hkept : keepsPending newest k with
  | false => simp
  | true =>
      by_cases hs : s = k
      · have ht : t ≠ k := fun ht => hst (hs.trans ht.symm)
        simp [hs, ht, keepsPending_of_le hn hkept, filter_kept]
      · by_cases ht : t = k <;>
          simp [hs, ht, keepsPending_of_le hm hkept,
            keepsPending_of_le hn hkept, filter_kept]

theorem erase_prune_comm (pending : ExtTreeMap ℕ ℕ) (t : ℕ) :
    ((pending.erase t).filter fun k _ => keepsPending m k).filter
        (fun k _ => keepsPending newest k) =
      ((pending.filter fun k _ => keepsPending n k).erase t).filter
        fun k _ => keepsPending newest k := by
  apply ExtTreeMap.ext_getElem?
  intro k
  simp only [ExtTreeMap.getElem?_filter', ExtTreeMap.getElem?_erase,
    Nat.compare_eq_eq]
  cases hkept : keepsPending newest k with
  | false => simp
  | true =>
      by_cases ht : t = k <;>
        simp [ht, keepsPending_of_le hm hkept, keepsPending_of_le hn hkept,
          filter_kept]

end Prune

/-- The newest time does not depend on the order it is seen in. -/
theorem newest_comm (s t : ℕ) (newest : Option ℕ) :
    max s (max t (newest.getD t)) = max t (max s (newest.getD s)) := by
  cases newest with
  | none => simp only [Option.getD_none, max_self, max_comm]
  | some n => exact max_left_comm s t n

@[simp] theorem Ledger.prune_lastIssuanceSeq (ledger : Ledger) (t n : ℕ) :
    (ledger.prune t n).lastIssuanceSeq = ledger.lastIssuanceSeq := rfl

@[simp] theorem Ledger.prune_lastOutcomeSeq (ledger : Ledger) (t n : ℕ) :
    (ledger.prune t n).lastOutcomeSeq = ledger.lastOutcomeSeq := rfl

@[simp] theorem Ledger.addIssuance_lastOutcomeSeq (ledger : Ledger)
    (note : IssuanceNote) :
    (ledger.addIssuance note).lastOutcomeSeq = ledger.lastOutcomeSeq := by
  unfold Ledger.addIssuance
  cases note.mode <;> rfl

@[simp] theorem Ledger.addOutcome_lastIssuanceSeq (ledger : Ledger)
    (r : EvidenceRecord) (lead recentN : ℕ) (nominal : ℚ) :
    (ledger.addOutcome r lead recentN nominal).lastIssuanceSeq =
      ledger.lastIssuanceSeq := by
  unfold Ledger.addOutcome
  cases r.gateBound lead <;> rfl

theorem LedgerTotals.issued_addOutcome (t : LedgerTotals) (r : EvidenceRecord)
    (gate : Bool) :
    (t.addOutcome r gate).issued = t.issued ∧
      ({ t with issued := t.issued + 1 }).addOutcome r gate =
        { t.addOutcome r gate with issued := t.issued + 1 } := by
  unfold LedgerTotals.addOutcome
  cases r.mode <;> cases r.cal.truth <;> cases r.cal.upperRps <;>
    exact ⟨rfl, rfl⟩

theorem Ledger.addIssuance_addOutcome (ledger : Ledger) (note : IssuanceNote)
    (r : EvidenceRecord) (lead recentN : ℕ) (nominal : ℚ)
    (hwindow : note.windowEnd ≠ r.cal.windowEnd) :
    (((ledger.addOutcome r lead recentN nominal).prune r.cal.windowEnd
        ledgerRetention).addIssuance note).prune note.origin ledgerRetention =
      (((ledger.addIssuance note).prune note.origin
        ledgerRetention).addOutcome r lead recentN nominal).prune
          r.cal.windowEnd ledgerRetention := by
  have hnewest := newest_comm note.origin r.cal.windowEnd ledger.newest
  have hm := le_max_right note.origin
    (max r.cal.windowEnd (ledger.newest.getD r.cal.windowEnd))
  have hn := le_max_right r.cal.windowEnd
    (max note.origin (ledger.newest.getD note.origin))
  rw [← hnewest] at hn
  have hbuckets := modifyBucket_prune_comm hm hn
    (Bucket.addIssuance_addOutcome note r
      (inCohort r.cal.decisionOrigin lead) nominal)
    ledger.buckets note.origin r.cal.windowEnd ledgerRetention
  obtain ⟨hissued, htotals⟩ := ledger.totals.issued_addOutcome r
    (inCohort r.cal.decisionOrigin lead)
  cases hmode : note.mode <;> cases hgate : r.gateBound lead <;>
    simp only [Ledger.prune, Ledger.addIssuance, Ledger.addOutcome, hmode,
      hgate, Option.getD_some, ← hnewest, hbuckets, hissued, htotals,
      erase_prune_comm hm hn, insert_erase_prune_comm hm hn _ hwindow]

/-- Noting an issuance and noting an outcome of another window commute. -/
theorem Ledger.withIssuance_withOutcome (ledger : Ledger)
    (note : IssuanceNote) (r : EvidenceRecord) (lead recentN : ℕ)
    (nominal : ℚ) (hwindow : note.windowEnd ≠ r.cal.windowEnd) :
    (ledger.withOutcome r lead recentN nominal).withIssuance note =
      (ledger.withIssuance note).withOutcome r lead recentN nominal := by
  by_cases hissued : note.seq ≤ ledger.lastIssuanceSeq <;>
    by_cases houtcome : r.cal.seq ≤ ledger.lastOutcomeSeq <;>
    simp [Ledger.withIssuance, Ledger.withOutcome, hissued, houtcome,
      ledger.addIssuance_addOutcome note r lead recentN nominal hwindow]

end PredictiveAutoscaler.Forecasting
