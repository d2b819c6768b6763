/-
The trailing windows of a ledger against the records it folded.  The buckets
that are read are those of the records' hours, in the order in which the records
opened them, their sums are the sums of the records and the overdue windows are
those that no outcome closed, but at one boundary: a ledger that is read at its
newest time, on the hour, has already pruned the first hour of seven days and
the window that ended a day ago.
-/
import PredictiveAutoscaler.Forecasting.ReplayApart
import PredictiveAutoscaler.KeyedGroups

namespace PredictiveAutoscaler.Forecasting

open Std (ExtTreeMap)
open InsertionOrder KeyedGroups

/-- The hours that records fall into, in the order of their first records. -/
def hoursOf (items : List Evidence) : List ℕ := firsts (recordHours items)

/-- The hours of the records in a trailing window, with what they count. -/
def recordBuckets (items : List Evidence) (now seconds : ℕ) :
    List (ℕ × Bucket) :=
  groupsAt (bucketAt items) ((hoursOf items).filter (inTrailing now seconds))

/-- The sum of the records in a trailing window: hour by hour, the records of
an hour in the order they were folded. -/
def recordSums (items : List Evidence) (now seconds : ℕ) : Bucket :=
  (recordBuckets items now seconds).foldl (fun sum entry => sum.add entry.2) {}

/-- The counts of a bucket. -/
def Bucket.countFields : List (Bucket → ℕ) :=
  [Bucket.iss, Bucket.gIss, Bucket.sc, Bucket.un, Bucket.gSc, Bucket.gUn,
    Bucket.aBd, Bucket.aCv, Bucket.gBd, Bucket.gCv, Bucket.nStep, Bucket.rIss,
    Bucket.rSc, Bucket.rUn, Bucket.rBd, Bucket.rCv]

/-- A prospective issuance waits for its outcome, a prospective outcome ends
the wait for its window. -/
def Evidence.wait (waiting : List IssuanceNote) :
    Evidence → List IssuanceNote
  | .issued note =>
      if note.mode = .prospective then waiting ++ [note] else waiting
  | .matured r _ _ _ =>
      if r.mode = .prospective then
        waiting.filter fun note => note.windowEnd ≠ r.cal.windowEnd
      else waiting

/-- The prospective issuances that wait for their outcome. -/
def waitingOf (items : List Evidence) : List IssuanceNote :=
  items.foldl Evidence.wait []

/-- A window of the trailing day whose truth deadline has passed. -/
def IssuanceNote.isDue (now seconds : ℕ) (note : IssuanceNote) : Bool :=
  inTrailing now seconds (note.windowEnd / hour) &&
    decide (note.deadline ≤ now)

/-- The window end of a prospective issuance. -/
def Evidence.opens? : Evidence → Option ℕ
  | .issued note =>
      if note.mode = .prospective then some note.windowEnd else none
  | .matured _ _ _ _ => none

/-- What a ledger gives for its trailing windows is what was folded into it. -/
structure HeldLedger.WindowsExact (held : HeldLedger) (items : List Evidence)
    (now seconds : ℕ) : Prop where
  sums : held.windowSums now seconds = recordSums items now seconds
  counts : ∀ f ∈ Bucket.countFields, f (held.windowSums now seconds) =
    ((items.filter fun e => inTrailing now seconds (e.time / hour)).map
      fun e => f (e.addTo {})).sum
  overdue : held.ledger.overdue now day =
    (waitingOf items).countP (IssuanceNote.isDue now day)

/-- The ledger is not read at its newest time, on the hour, where the hour that
starts seven days ago holds a record or a window that ended a day ago is
overdue; and no replay outcome closed an overdue window. -/
structure WindowsKept (items : List Evidence) (now seconds : ℕ) : Prop where
  hours : seconds = 7 * day → newestOf items = now →
    ∀ e ∈ items, e.time / hour * hour + 7 * day ≠ now
  windows : ∀ note ∈ waitingOf items, note.isDue now day = true →
    ¬(newestOf items = now ∧ note.windowEnd + day = now) ∧
    ∀ before after, items = before ++ .issued note :: after →
      ∀ r leadSeconds recentN nominal,
        .matured r leadSeconds recentN nominal ∈ after → r.mode = .replay →
        r.cal.windowEnd ≠ note.windowEnd

theorem mem_hoursOf {items : List Evidence} {k : ℕ} :
    k ∈ hoursOf items ↔ ∃ e ∈ items, e.time / hour = k := by
  unfold hoursOf recordHours
  rw [mem_firsts, List.mem_map]
  rfl

theorem mem_recordBuckets {items : List Evidence} {now seconds : ℕ}
    {entry : ℕ × Bucket} : entry ∈ recordBuckets items now seconds ↔
      inTrailing now seconds entry.1 = true ∧
        bucketAt items entry.1 = some entry.2 := by
  unfold recordBuckets
  rw [mem_groupsAt, List.mem_filter]
  constructor
  · rintro ⟨⟨-, hin⟩, hb⟩
    exact ⟨hin, hb⟩
  · rintro ⟨hin, hb⟩
    refine ⟨⟨mem_hoursOf.mpr ?_, hin⟩, hb⟩
    by_contra hnone
    rw [bucketAt_eq_none.mpr fun e he hk => hnone ⟨e, he, hk⟩] at hb
    cases hb

theorem newestOf_le_of_forall {items : List Evidence} {now : ℕ}
    (h : ∀ e ∈ items, e.time ≤ now) : newestOf items ≤ now := by
  induction items using List.reverseRecOn with
  | nil => exact Nat.zero_le _
  | append_singleton items e ih =>
      rw [List.forall_mem_append, List.forall_mem_singleton] at h
      rw [newestOf_snoc]
      exact max_le (ih h.1) h.2

/-- An hour of a trailing window is pruned at the boundary alone. -/
theorem keepsBucket_iff_of_trailing {newest now seconds k : ℕ}
    (hnewest : newest ≤ now) (hseconds : seconds ≤ 7 * day)
    (hin : inTrailing now seconds k = true) :
    keepsBucket newest ledgerRetention k = true ↔
      ¬(seconds = 7 * day ∧ newest = now ∧ k * hour + 7 * day = now) := by
  rw [inTrailing_iff] at hin
  have hhour : hour = 3600 := by decide
  have hretention : ledgerRetention = 7 * day := rfl
  simp only [keepsBucket, decide_eq_true_eq, hretention, hhour] at hin ⊢
  have hday : day = 86400 := rfl
  rw [hday] at hseconds ⊢
  omega

/-- The entries of a ledger that a trailing window reads. -/
def HeldLedger.trailing (held : HeldLedger) (now seconds : ℕ) :
    List (ℕ × Bucket) :=
  held.order.entries.filter fun entry => inTrailing now seconds entry.1

section Read

variable {held : HeldLedger} {items : List Evidence}
  (hledger : held.ledger.FoldOf items)
  (hkeys : held.order.keys = firsts (keptHours items)) {now seconds : ℕ}
  (hnow : newestOf items ≤ now) (hseconds : seconds ≤ 7 * day)

include hledger hkeys

/-- What a trailing window reads is what pruning kept of the records. -/
theorem trailing_eq_filter :
    held.trailing now seconds =
      (recordBuckets items now seconds).filter fun entry =>
        keepsBucket (newestOf items) ledgerRetention entry.1 := by
  have hhours : held.order.keys =
      (hoursOf items).filter (keepsBucket (newestOf items) ledgerRetention) :=
    hkeys.trans (firsts_filter _ _)
  unfold HeldLedger.trailing recordBuckets DictOrder.entries
  rw [groupsAt_filter, groupsAt_filter, hhours, List.filter_filter,
    List.filter_filter]
  simp only [Bool.and_comm]
  refine List.filterMap_congr fun k hk => ?_
  have hkept := (Bool.and_eq_true _ _ ▸ (List.mem_filter.mp hk).2).2
  exact congrArg (Option.map fun b => (k, b))
    ((hledger.bucket_eq k).trans (if_pos hkept))

include hnow hseconds

/-- Away from the boundary every hour with a record is read. -/
theorem trailing_eq_recordBuckets
    (hkept : ∀ e ∈ items, ¬(seconds = 7 * day ∧ newestOf items = now ∧
      e.time / hour * hour + 7 * day = now)) :
    held.trailing now seconds = recordBuckets items now seconds := by
  rw [trailing_eq_filter hledger hkeys, List.filter_eq_self]
  intro entry hentry
  obtain ⟨hin, hbucket⟩ := mem_recordBuckets.mp hentry
  rw [keepsBucket_iff_of_trailing hnow hseconds hin]
  intro hlost
  refine (Option.some_ne_none entry.2)
    (hbucket.symm.trans (bucketAt_eq_none.mpr fun e he hk => ?_))
  rw [← hk] at hlost
  exact hkept e he hlost

end Read

/-- A record counts the same whatever was counted before it. -/
theorem Evidence.addTo_counts (e : Evidence) (b : Bucket) :
    (e.addTo b).counts = (b.add (e.addTo {})).counts := by
  cases e with
  | issued note =>
      cases hmode : note.mode <;>
        simp [addTo, Bucket.addIssuance, hmode, Bucket.counts, Bucket.add]
  | matured r leadSeconds recentN nominal =>
      simp only [addTo, Bucket.addOutcome]
      generalize inCohort r.cal.decisionOrigin leadSeconds = gate
      cases r.mode with
      | replay =>
          cases htruth : r.cal.truth <;> cases hupper : r.cal.upperRps <;>
            cases gate <;>
            simp [Bucket.addReplay, htruth, hupper, Bucket.counts, Bucket.add]
      | prospective =>
          cases r.cal.truth with
          | unscorable => simp [Bucket.counts, Bucket.add]
          | scored y =>
              cases r.cal.upperRps <;> cases hsteps : r.stepAbsErrors <;>
                cases gate <;>
                simp [Bucket.addErrors, Bucket.addBound, hsteps,
                  Bucket.counts, Bucket.add]

/-- A count that adds up over buckets and over records. -/
structure Bucket.Additive (f : Bucket → ℕ) : Prop where
  empty : f {} = 0
  add : ∀ a b : Bucket, f (a.add b) = f a + f b
  addTo : ∀ (e : Evidence) b, f (e.addTo b) = f b + f (e.addTo {})

theorem Bucket.additive {f : Bucket → ℕ} (hf : f ∈ Bucket.countFields) :
    Bucket.Additive f := by
  have hcounts : ∀ b, f b.counts = f b := by
    simp only [countFields, List.mem_cons, List.not_mem_nil, or_false] at hf
    rcases hf with rfl | rfl | rfl | rfl | rfl | rfl | rfl | rfl | rfl | rfl |
      rfl | rfl | rfl | rfl | rfl | rfl <;> exact fun b => rfl
  have hadd : f {} = 0 ∧ ∀ a b : Bucket, f (a.add b) = f a + f b := by
    simp only [countFields, List.mem_cons, List.not_mem_nil, or_false] at hf
    rcases hf with rfl | rfl | rfl | rfl | rfl | rfl | rfl | rfl | rfl | rfl |
      rfl | rfl | rfl | rfl | rfl | rfl <;> exact ⟨rfl, fun a b => rfl⟩
  refine ⟨hadd.1, hadd.2, fun e b => ?_⟩
  rw [← hcounts, e.addTo_counts, hcounts, hadd.2]

theorem Bucket.Additive.plus {f g : Bucket → ℕ} (hf : Bucket.Additive f)
    (hg : Bucket.Additive g) : Bucket.Additive fun b => f b + g b := by
  refine ⟨?_, fun a b => ?_, fun e b => ?_⟩
  · rw [hf.empty, hg.empty]
  · rw [hf.add, hg.add]
    exact Nat.add_add_add_comm _ _ _ _
  · rw [hf.addTo, hg.addTo]
    exact Nat.add_add_add_comm _ _ _ _

section Additive

variable {f : Bucket → ℕ} (hf : Bucket.Additive f)

include hf

theorem foldl_add_additive (entries : List (ℕ × Bucket)) (start : Bucket) :
    f (entries.foldl (fun sum entry => sum.add entry.2) start) =
      f start + (entries.map fun entry => f entry.2).sum := by
  induction entries generalizing start with
  | nil => simp
  | cons entry rest ih =>
      rw [List.foldl_cons, ih, hf.add, List.map_cons, List.sum_cons,
        Nat.add_assoc]

/-- What an hour counts is the sum of its records. -/
theorem bucketAt_additive (items : List Evidence) (k : ℕ) :
    (bucketAt items k).elim 0 f =
      ((items.filter fun e => e.time / hour = k).map fun e =>
        f (e.addTo {})).sum := by
  induction items using List.reverseRecOn with
  | nil => rfl
  | append_singleton items e ih =>
      rw [bucketAt_snoc, List.filter_append, List.map_append, List.sum_append,
        ← ih]
      by_cases hk : e.time / hour = k
      · rw [if_pos hk, Option.elim_some, hf.addTo]
        cases bucketAt items k with
        | none => simp [hk, hf.empty]
        | some b => simp [hk]
      · simp [hk]

end Additive

theorem recordBuckets_additive {f : Bucket → ℕ} (hf : Bucket.Additive f)
    (items : List Evidence) (now seconds : ℕ) :
    ((recordBuckets items now seconds).map fun entry => f entry.2).sum =
      ((items.filter fun e => inTrailing now seconds (e.time / hour)).map
        fun e => f (e.addTo {})).sum := by
  have hhours : ∀ hours : List ℕ,
      ((groupsAt (bucketAt items) hours).map fun entry => f entry.2).sum =
      (hours.map fun k => (bucketAt items k).elim 0 f).sum := by
    intro hours
    induction hours with
    | nil => rfl
    | cons k ks ih =>
        rw [List.map_cons, List.sum_cons, ← ih, groupsAt, groupsAt,
          List.filterMap_cons]
        cases bucketAt items k with
        | none => simp
        | some b => simp
  unfold recordBuckets
  rw [hhours]
  simp only [bucketAt_additive hf]
  have hnodup : ((hoursOf items).filter (inTrailing now seconds)).Nodup :=
    (firsts_nodup _).filter _
  rw [sum_over_keys (fun e : Evidence => e.time / hour) _ _ hnodup]
  congr 2
  refine List.filter_congr fun e he => ?_
  have hmem : e.time / hour ∈ hoursOf items := mem_hoursOf.mpr ⟨e, he, rfl⟩
  simp [List.mem_filter, hmem]

/-- How many records a bucket counts. -/
def Bucket.total (b : Bucket) : ℕ :=
  b.iss + (b.sc + (b.un + (b.rIss + (b.rSc + b.rUn))))

theorem Bucket.additive_total : Bucket.Additive Bucket.total := by
  have hfield : ∀ f ∈ Bucket.countFields, Bucket.Additive f :=
    fun f hf => Bucket.additive hf
  simp only [Bucket.countFields, List.forall_mem_cons] at hfield
  obtain ⟨hiss, -, hsc, hun, -, -, -, -, -, -, -, hrIss, hrSc, hrUn, -⟩ :=
    hfield
  exact hiss.plus (hsc.plus (hun.plus (hrIss.plus (hrSc.plus hrUn))))

theorem Evidence.addTo_total (e : Evidence) : (e.addTo {}).total = 1 := by
  cases e with
  | issued note =>
      cases hmode : note.mode <;>
        simp [addTo, Bucket.addIssuance, hmode, Bucket.total]
  | matured r leadSeconds recentN nominal =>
      simp only [addTo, Bucket.addOutcome]
      generalize inCohort r.cal.decisionOrigin leadSeconds = gate
      cases r.mode with
      | replay =>
          cases htruth : r.cal.truth <;> cases hupper : r.cal.upperRps <;>
            cases gate <;>
            simp [Bucket.addReplay, htruth, hupper, Bucket.total]
      | prospective =>
          cases r.cal.truth with
          | unscorable => simp [Bucket.total]
          | scored y =>
              cases r.cal.upperRps <;> cases hsteps : r.stepAbsErrors <;>
                cases gate <;>
                simp [Bucket.addErrors, Bucket.addBound, hsteps, Bucket.total]

/-- An hour with a record counts it. -/
theorem bucketAt_total {items : List Evidence} {e : Evidence}
    (he : e ∈ items) :
    0 < (bucketAt items (e.time / hour)).elim 0 Bucket.total := by
  rw [bucketAt_additive Bucket.additive_total]
  have hmem : (e.addTo {}).total ∈
      (items.filter fun e' => e'.time / hour = e.time / hour).map
        fun e' => (e'.addTo {}).total :=
    List.mem_map_of_mem (List.mem_filter.mpr ⟨he, decide_eq_true rfl⟩)
  calc 0 < (e.addTo {}).total := by rw [e.addTo_total]; exact Nat.one_pos
    _ ≤ _ := List.single_le_sum (fun _ _ => Nat.zero_le _) _ hmem

section Sums

variable {held : HeldLedger} {items : List Evidence}
  (hledger : held.ledger.FoldOf items)
  (hkeys : held.order.keys = firsts (keptHours items)) {now seconds : ℕ}

include hledger hkeys

/-- A ledger that counts every record of the window lost no hour of it. -/
theorem keepsBucket_of_counts
    (hcounts : ∀ f ∈ Bucket.countFields, f (held.windowSums now seconds) =
      ((items.filter fun e => inTrailing now seconds (e.time / hour)).map
        fun e => f (e.addTo {})).sum)
    {e : Evidence} (he : e ∈ items)
    (hin : inTrailing now seconds (e.time / hour) = true) :
    keepsBucket (newestOf items) ledgerRetention (e.time / hour) = true := by
  have hread : ∀ f, Bucket.Additive f → f (held.windowSums now seconds) =
      (((recordBuckets items now seconds).filter fun entry =>
        keepsBucket (newestOf items) ledgerRetention entry.1).map
          fun entry => f entry.2).sum := by
    intro f hf
    rw [← trailing_eq_filter hledger hkeys]
    refine (foldl_add_additive hf _ _).trans ?_
    rw [hf.empty, Nat.zero_add]
    rfl
  have htotal : (held.windowSums now seconds).total =
      ((recordBuckets items now seconds).map fun entry =>
        entry.2.total).sum := by
    simp only [Bucket.countFields, List.forall_mem_cons] at hcounts
    obtain ⟨hiss, -, hsc, hun, -, -, -, -, -, -, -, hrIss, hrSc, hrUn, -⟩ :=
      hcounts
    rw [recordBuckets_additive Bucket.additive_total]
    simp only [Bucket.total, List.sum_map_add, hiss, hsc, hun, hrIss, hrSc,
      hrUn]
  rw [hread _ Bucket.additive_total] at htotal
  by_contra hlost
  have hpositive := bucketAt_total he
  cases hbucket : bucketAt items (e.time / hour) with
  | none =>
      rw [hbucket] at hpositive
      exact absurd hpositive (Nat.lt_irrefl 0)
  | some b =>
      rw [hbucket, Option.elim_some] at hpositive
      have hmem : (e.time / hour, b) ∈ recordBuckets items now seconds :=
        mem_recordBuckets.mpr ⟨hin, hbucket⟩
      refine absurd htotal (Nat.ne_of_lt ?_)
      exact sum_filter_lt (fun entry : ℕ × Bucket => entry.2.total) hmem hlost
        hpositive

end Sums

theorem waitingOf_snoc (items : List Evidence) (e : Evidence) :
    waitingOf (items ++ [e]) = e.wait (waitingOf items) := by
  simp [waitingOf]

/-- The outcome of one window, of its own mode. -/
def Evidence.Settles (w : ℕ) : Evidence → Prop
  | .issued _ => False
  | .matured r _ _ _ => r.mode = .prospective ∧ r.cal.windowEnd = w

theorem Evidence.mem_wait {waiting : List IssuanceNote} {e : Evidence}
    {note : IssuanceNote} : note ∈ e.wait waiting ↔
      (note ∈ waiting ∧ ¬e.Settles note.windowEnd) ∨
        (e = .issued note ∧ note.mode = .prospective) := by
  cases e with
  | issued issued =>
      simp only [wait, Settles, not_false_eq_true, and_true,
        Evidence.issued.injEq]
      split
      · rename_i hmode
        rw [List.mem_append, List.mem_singleton]
        refine or_congr_right ⟨?_, fun h => h.1.symm⟩
        rintro rfl
        exact ⟨rfl, hmode⟩
      · rename_i hmode
        refine (or_iff_left ?_).symm
        rintro ⟨rfl, hprospective⟩
        exact hmode hprospective
  | matured r leadSeconds recentN nominal =>
      simp only [wait, Settles, reduceCtorEq, false_and, or_false]
      split
      · rename_i hmode
        rw [List.mem_filter, decide_eq_true_eq]
        refine and_congr_right fun _ => ?_
        simp only [hmode, true_and]
        exact ne_comm
      · rename_i hmode
        simp [hmode]

/-- A window that waits was issued, and no outcome of its own came since. -/
theorem mem_waitingOf {items : List Evidence} {note : IssuanceNote} :
    note ∈ waitingOf items ↔ note.mode = .prospective ∧
      ∃ before after, items = before ++ .issued note :: after ∧
        ∀ e ∈ after, ¬e.Settles note.windowEnd := by
  induction items using List.reverseRecOn with
  | nil =>
      refine ⟨fun h => absurd h List.not_mem_nil, ?_⟩
      rintro ⟨-, before, after, hnil, -⟩
      simp at hnil
  | append_singleton items e ih =>
      rw [waitingOf_snoc, Evidence.mem_wait, ih]
      constructor
      · rintro (⟨⟨hmode, before, after, rfl, hafter⟩, hopen⟩ | ⟨rfl, hmode⟩)
        · refine ⟨hmode, before, after ++ [e], by simp, ?_⟩
          rw [List.forall_mem_append]
          exact ⟨hafter, List.forall_mem_singleton.mpr hopen⟩
        · exact ⟨hmode, items, [], rfl, fun _ he => by cases he⟩
      · rintro ⟨hmode, before, after, hsplit, hafter⟩
        induction after using List.reverseRecOn with
        | nil =>
            obtain ⟨-, hlast⟩ := List.append_inj' hsplit rfl
            exact .inr ⟨(List.cons.inj hlast).1, hmode⟩
        | append_singleton after last =>
            rw [← List.cons_append, ← List.append_assoc] at hsplit
            obtain ⟨hitems, hlast⟩ := List.append_inj' hsplit rfl
            obtain rfl := (List.cons.inj hlast).1
            rw [List.forall_mem_append, List.forall_mem_singleton] at hafter
            exact .inl ⟨⟨hmode, before, after, hitems, hafter.1⟩, hafter.2⟩

/-- The windows that wait are among those that were opened. -/
theorem waitingOf_sublist (items : List Evidence) :
    ((waitingOf items).map IssuanceNote.windowEnd).Sublist
      (items.filterMap Evidence.opens?) := by
  induction items using List.reverseRecOn with
  | nil => exact List.Sublist.refl _
  | append_singleton items e ih =>
      rw [waitingOf_snoc, List.filterMap_append]
      cases e with
      | issued note =>
          by_cases hmode : note.mode = .prospective
          · simpa [Evidence.opens?, Evidence.wait, hmode] using ih
          · simpa [Evidence.opens?, Evidence.wait, hmode] using ih
      | matured r leadSeconds recentN nominal =>
          have hnone : [Evidence.matured r leadSeconds recentN
              nominal].filterMap Evidence.opens? = [] := rfl
          rw [hnone, List.append_nil]
          refine List.Sublist.trans ?_ ih
          simp only [Evidence.wait]
          split
          · exact List.filter_sublist.map _
          · exact List.Sublist.refl _

/-- A window of the trailing day is pruned at the boundary alone. -/
theorem keepsPending_iff_of_due {newest now : ℕ} {note : IssuanceNote}
    (hnewest : newest ≤ now) (hdue : note.isDue now day = true) :
    keepsPending newest note.windowEnd = true ↔
      ¬(newest = now ∧ note.windowEnd + day = now) := by
  have hin : inTrailing now day (note.windowEnd / hour) = true :=
    (Bool.and_eq_true _ _ ▸ hdue).1
  have hfloor := Nat.div_mul_le_self note.windowEnd hour
  rw [inTrailing_iff] at hin
  simp only [keepsPending, decide_eq_true_eq]
  omega

/-- An open window of a fold waits for its outcome. -/
theorem waiting_of_pendingAt {items : List Evidence} {w d : ℕ}
    (h : pendingAt items w = some d) :
    ∃ note ∈ waitingOf items, note.windowEnd = w ∧ note.deadline = d := by
  obtain ⟨before, note, after, hitems, hmode, hw, hd, hafter⟩ :=
    pendingAt_eq_some h
  refine ⟨note, mem_waitingOf.mpr
    ⟨hmode, before, after, hitems, fun e he hsettles => ?_⟩, hw, hd⟩
  cases e with
  | issued other => exact hsettles
  | matured r leadSeconds recentN nominal =>
      exact hafter _ he (hsettles.2.trans hw)

section Overdue

variable {items : List Evidence}
  (hends : (items.filterMap Evidence.opens?).Nodup)

include hends

/-- A window end is opened at one place. -/
theorem opens_once {before after : List Evidence} {note other : IssuanceNote}
    (hitems : items = before ++ .issued note :: after)
    (hmode : note.mode = .prospective)
    (hother : .issued other ∈ after) (hprospective : other.mode = .prospective) :
    other.windowEnd ≠ note.windowEnd := by
  rw [hitems, List.filterMap_append] at hends
  have hrest := (List.nodup_append.mp hends).2.1
  have hopens : Evidence.opens? (.issued note) = some note.windowEnd :=
    if_pos hmode
  rw [List.filterMap_cons, hopens] at hrest
  refine fun heq => (List.nodup_cons.mp hrest).1 ?_
  rw [← heq]
  exact List.mem_filterMap.mpr ⟨.issued other, hother, if_pos hprospective⟩

/-- What a waiting window's entry in a fold depends on: that no replay outcome
closed it. -/
theorem pendingAt_of_waiting {note : IssuanceNote}
    (hnote : note ∈ waitingOf items) :
    pendingAt items note.windowEnd = some note.deadline ↔
      ∀ before after, items = before ++ .issued note :: after →
        ∀ r leadSeconds recentN nominal,
          .matured r leadSeconds recentN nominal ∈ after → r.mode = .replay →
          r.cal.windowEnd ≠ note.windowEnd := by
  obtain ⟨hmode, before, after, hitems, hafter⟩ := mem_waitingOf.mp hnote
  constructor
  · intro hopen before after hitems r leadSeconds recentN nominal hr _ heq
    obtain ⟨between, last, rfl⟩ := List.append_of_mem hr
    have hclosed : pendingAt items note.windowEnd = none := by
      rw [hitems, ← List.cons_append, ← List.append_assoc]
      refine pendingAt_of_closed heq fun later hlater hprospective => ?_
      exact opens_once hends hitems hmode
        (List.mem_append_right _ (List.mem_cons_of_mem _ hlater)) hprospective
    rw [hclosed] at hopen
    cases hopen
  · intro hreplay
    have hopen := hreplay before after hitems
    rw [hitems]
    refine pendingAt_of_split hmode rfl fun e he htouches => ?_
    cases e with
    | issued other =>
        have hitems' := hitems
        exact opens_once hends hitems' hmode he htouches.1 htouches.2
    | matured r leadSeconds recentN nominal =>
        cases hmodeR : r.mode with
        | prospective => exact hafter _ he ⟨hmodeR, htouches⟩
        | replay =>
            exact hopen r leadSeconds recentN nominal he hmodeR htouches

variable {ledger : Ledger} (hledger : ledger.FoldOf items) {now : ℕ}

include hledger

/-- The overdue windows of a ledger are those that wait and are due, exactly
when neither pruning nor replay took one of them away. -/
theorem overdue_eq_iff :
    ledger.overdue now day =
        (waitingOf items).countP (IssuanceNote.isDue now day) ↔
      ∀ note ∈ waitingOf items, note.isDue now day = true →
        keepsPending (newestOf items) note.windowEnd = true ∧
          pendingAt items note.windowEnd = some note.deadline := by
  let isDue := fun entry : ℕ × ℕ =>
    inTrailing now day (entry.1 / hour) && decide (entry.2 ≤ now)
  let kept := (ledger.pending.toList.filter isDue).map Prod.fst
  let due := ((waitingOf items).filter (IssuanceNote.isDue now day)).map
    IssuanceNote.windowEnd
  have hkept : ∀ w, w ∈ kept ↔ ∃ d, isDue (w, d) = true ∧
      keepsPending (newestOf items) w = true ∧ pendingAt items w = some d := by
    intro w
    simp only [kept, List.mem_map, List.mem_filter, Prod.exists,
      ExtTreeMap.mem_toList_iff_getElem?_eq_some, hledger.pending_eq]
    constructor
    · rintro ⟨v, d, ⟨hlookup, hdue⟩, rfl⟩
      split at hlookup
      · rename_i hprune
        exact ⟨d, hdue, hprune, hlookup⟩
      · cases hlookup
    · rintro ⟨d, hdue, hprune, hopen⟩
      exact ⟨w, d, ⟨by rw [if_pos hprune, hopen], hdue⟩, rfl⟩
  have hkeptNodup : kept.Nodup := by
    refine List.pairwise_map.mpr (List.Pairwise.filter _ ?_)
    exact ExtTreeMap.distinct_keys_toList.imp fun hne heq =>
      hne (Nat.compare_eq_eq.mpr heq)
  have hdueNodup : due.Nodup :=
    (hends.sublist (waitingOf_sublist items)).sublist
      (List.filter_sublist.map _)
  have hsub : kept ⊆ due := by
    intro w hw
    obtain ⟨d, hdue, -, hopen⟩ := (hkept w).mp hw
    obtain ⟨note, hnote, rfl, rfl⟩ := waiting_of_pendingAt hopen
    exact List.mem_map_of_mem (List.mem_filter.mpr ⟨hnote, hdue⟩)
  have hperm := List.subperm_of_subset hkeptNodup hsub
  have hcount : (waitingOf items).countP (IssuanceNote.isDue now day) =
      due.length := by
    rw [List.length_map, List.countP_eq_length_filter]
  have hoverdue : ledger.overdue now day = kept.length := by
    rw [List.length_map, ← List.countP_eq_length_filter]
    rfl
  rw [hcount, hoverdue]
  constructor
  · intro hlength note hnote hdue
    have hmem : note.windowEnd ∈ due :=
      List.mem_map_of_mem (List.mem_filter.mpr ⟨hnote, hdue⟩)
    rw [← (hperm.perm_of_length_le hlength.ge).mem_iff, hkept] at hmem
    obtain ⟨d, -, hprune, hopen⟩ := hmem
    obtain ⟨other, hother, hend, rfl⟩ := waiting_of_pendingAt hopen
    have hsame : other = note := List.inj_on_of_nodup_map
      (hends.sublist (waitingOf_sublist items)) hother hnote hend
    rw [← hsame]
    exact ⟨hsame ▸ hprune, hend ▸ hopen⟩
  · intro hall
    refine (hperm.length_le).antisymm
      (List.subperm_of_subset hdueNodup ?_).length_le
    intro w hw
    obtain ⟨note, hnote, rfl⟩ := List.mem_map.mp hw
    obtain ⟨hnote, hdue⟩ := List.mem_filter.mp hnote
    obtain ⟨hprune, hopen⟩ := hall note hnote hdue
    exact (hkept _).mpr ⟨note.deadline, hdue, hprune, hopen⟩

end Overdue

/-- The ledger of a fold is exact over its trailing windows exactly when it is
not read at the boundary and no replay outcome closed an overdue window. -/
theorem windowsExact_iff (epoch : EvidenceKey) (model : Model)
    (recipe : String) (intervalSeconds : ℕ) (items : List Evidence)
    (now seconds : ℕ)
    (h : FoldSequence (.fresh epoch model recipe intervalSeconds) items)
    (hends : (items.filterMap Evidence.opens?).Nodup)
    (hnow : ∀ e ∈ items, e.time ≤ now) (hseconds : seconds ≤ 7 * day) :
    ∃ held,
      (HeldLedger.fresh epoch model recipe intervalSeconds).noteAll items =
        .ok held ∧
      (held.WindowsExact items now seconds ↔
        WindowsKept items now seconds) := by
  have hfold : FoldSequence (HeldLedger.fresh epoch model recipe
    intervalSeconds).ledger items := h
  refine ⟨_, hfold.noteAll_eq, ?_⟩
  have hledger := @HeldLedger.foldOf_fold
    (.fresh epoch model recipe intervalSeconds) rfl rfl rfl items
  have hkeys := @HeldLedger.keys_fold
    (.fresh epoch model recipe intervalSeconds) rfl rfl rfl items
  generalize items.foldl Evidence.addHeld _ = held at *
  have hnewest : newestOf items ≤ now := newestOf_le_of_forall hnow
  constructor
  · intro hexact
    refine ⟨fun hfull hread e he hfirst => ?_, fun note hnote hdue => ?_⟩
    · have hin : inTrailing now seconds (e.time / hour) = true := by
        rw [inTrailing_iff]
        omega
      have hkept := keepsBucket_of_counts hledger hkeys hexact.counts he hin
      rw [keepsBucket_iff_of_trailing hnewest hseconds hin] at hkept
      exact hkept ⟨hfull, hread, hfirst⟩
    · have hwaiting := (overdue_eq_iff hends hledger).mp hexact.overdue
      obtain ⟨hprune, hopen⟩ := hwaiting note hnote hdue
      exact ⟨(keepsPending_iff_of_due hnewest hdue).mp hprune,
        (pendingAt_of_waiting hends hnote).mp hopen⟩
  · intro hkept
    have hread := trailing_eq_recordBuckets hledger hkeys hnewest hseconds
      fun e he hlost => hkept.hours hlost.1 hlost.2.1 e he hlost.2.2
    have hsums : held.windowSums now seconds = recordSums items now seconds := by
      unfold recordSums
      rw [← hread]
      rfl
    refine ⟨hsums, fun f hf => ?_, (overdue_eq_iff hends hledger).mpr
      fun note hnote hdue => ?_⟩
    · have hadditive := Bucket.additive hf
      rw [hsums, recordSums, foldl_add_additive hadditive, hadditive.empty,
        Nat.zero_add, recordBuckets_additive hadditive]
    · obtain ⟨hprune, hreplay⟩ := hkept.windows note hnote hdue
      exact ⟨(keepsPending_iff_of_due hnewest hdue).mpr hprune,
        (pendingAt_of_waiting hends hnote).mpr hreplay⟩

namespace LedgerWindowsWitness

open ReplayWitness (fresh window replayed)

/-- An issuance at the first hour of the seven days before the second. -/
def first : IssuanceNote :=
  { window with origin := 3600, windowEnd := 3900, deadline := 4320 }

def second : IssuanceNote :=
  { window with
    seq := 2, origin := 608400, windowEnd := 608700, deadline := 609120 }

theorem foldSequence :
    FoldSequence fresh.ledger [.issued first, .issued second] := by
  refine ⟨fun e he => ?_, ?_, ?_⟩
  · rcases List.mem_cons.mp he with rfl | he
    · rfl
    · rw [List.mem_singleton.mp he]
      rfl
  · exact (by decide : [0, 1, 2].Pairwise (· < ·))
  · exact (by decide : [0].Pairwise (· < ·))

/-- Read at its newest time, on the hour, a ledger has lost the issuance of
exactly seven days ago. -/
theorem boundary_hour_lost :
    FoldSequence fresh.ledger [.issued first, .issued second] ∧
    ([Evidence.issued first, .issued second].filterMap
      Evidence.opens?).Nodup ∧
    (∀ e ∈ [Evidence.issued first, .issued second], e.time ≤ 608400) ∧
    ∃ held, fresh.noteAll [.issued first, .issued second] = .ok held ∧
      (held.windowSums 608400 (7 * day)).iss = 1 ∧
      (recordSums [.issued first, .issued second] 608400 (7 * day)).iss = 2 ∧
      ¬held.WindowsExact [.issued first, .issued second] 608400
        (7 * day) := by
  refine ⟨foldSequence, by decide, by decide, _, rfl, by decide +kernel,
    by decide +kernel, fun hexact => ?_⟩
  exact absurd (congrArg Bucket.iss hexact.sums) (by decide +kernel)

/-- Read at any other time it has not. -/
theorem windowsExact_iff_late :
    FoldSequence fresh.ledger [.issued first, .issued second] ∧
    ∃ held, fresh.noteAll [.issued first, .issued second] = .ok held ∧
      (held.WindowsExact [.issued first, .issued second] 608700 (7 * day) ↔
        WindowsKept [.issued first, .issued second] 608700 (7 * day)) :=
  ⟨foldSequence, windowsExact_iff _ _ _ _ _ 608700 (7 * day) foldSequence
    (by decide) (by decide) le_rfl⟩

end LedgerWindowsWitness

end PredictiveAutoscaler.Forecasting
