/-
Folds in two passes over two kinds of items, with steps that may refuse an
item.  When the item alone decides whether it is refused, and the items of the
second pass commute with the later items of the first, a journal may be folded
in any number of batches: the result is that of one batch.
-/
import Mathlib.Data.List.Basic

namespace PredictiveAutoscaler

universe u v w z

variable {S : Type u} {A : Type v} {B : Type w} {Err : Type z}

/-- The step of `f` that refuses the items with a reason. -/
def refusing (reason : A → Option Err) (f : S → A → S) (s : S) (a : A) :
    Except Err S :=
  match reason a with
  | some err => .error err
  | none => .ok (f s a)

/-- The first refusal decides the fold, and without one it is the plain
fold. -/
theorem foldlM_refusing (reason : A → Option Err) (f : S → A → S) (s : S)
    (items : List A) :
    items.foldlM (refusing reason f) s =
      match items.findSome? reason with
      | some err => .error err
      | none => .ok (items.foldl f s) := by
  induction items generalizing s with
  | nil => rfl
  | cons a rest ih =>
      rw [List.foldlM_cons, List.findSome?_cons, refusing]
      cases reason a with
      | some err => rfl
      | none => exact ih (f s a)

/-- On the items to come, the step `F` acts as the refusing step. -/
def ActsAs (F : S → A → Except Err S) (reason : A → Option Err)
    (f : S → A → S) : S → List A → Prop
  | _, [] => True
  | s, a :: rest =>
      F s a = refusing reason f s a ∧
        (reason a = none → ActsAs F reason f (f s a) rest)

/-- An invariant of the state and of the items to come shows that a step acts
as the refusing one. -/
theorem actsAs_of_inv {F : S → A → Except Err S} {reason : A → Option Err}
    {f : S → A → S} (Inv : S → List A → Prop)
    (hstep : ∀ s a rest, Inv s (a :: rest) →
      F s a = refusing reason f s a ∧ (reason a = none → Inv (f s a) rest))
    {s : S} {items : List A} (hs : Inv s items) :
    ActsAs F reason f s items := by
  induction items generalizing s with
  | nil => trivial
  | cons a rest ih =>
      obtain ⟨hF, hnext⟩ := hstep s a rest hs
      exact ⟨hF, fun hnone => ih (hnext hnone)⟩

theorem ActsAs.foldlM_eq {F : S → A → Except Err S}
    {reason : A → Option Err} {f : S → A → S} {s : S} {items : List A}
    (h : ActsAs F reason f s items) :
    items.foldlM F s = items.foldlM (refusing reason f) s := by
  induction items generalizing s with
  | nil => rfl
  | cons a rest ih =>
      obtain ⟨hF, hnext⟩ := h
      rw [List.foldlM_cons, List.foldlM_cons, hF]
      simp only [refusing] at *
      cases hreason : reason a with
      | some err => rfl
      | none => exact ih (hnext hreason)

/-- An invariant of the state and of the items to come is kept by the items
that are not refused. -/
theorem foldl_inv {reason : A → Option Err} {f : S → A → S}
    (Inv : S → List A → Prop)
    (hstep : ∀ s a rest, Inv s (a :: rest) → reason a = none →
      Inv (f s a) rest)
    {s : S} {items rest : List A} (hs : Inv s (items ++ rest))
    (hnone : items.findSome? reason = none) : Inv (items.foldl f s) rest := by
  induction items generalizing s with
  | nil => exact hs
  | cons a items ih =>
      rw [List.findSome?_eq_none_iff] at hnone
      refine ih (hstep s a _ hs (hnone a List.mem_cons_self)) ?_
      rw [List.findSome?_eq_none_iff]
      exact fun x hx => hnone x (List.mem_cons_of_mem a hx)

/-- What every step that returns keeps, the fold keeps. -/
theorem foldlM_keeps {F : S → A → Except Err S} {P : S → Prop}
    {items : List A}
    (hstep : ∀ s, ∀ a ∈ items, ∀ s', P s → F s a = .ok s' → P s')
    {s s' : S} (hs : P s) (h : items.foldlM F s = .ok s') : P s' := by
  induction items generalizing s with
  | nil =>
      cases h
      exact hs
  | cons a rest ih =>
      rw [List.foldlM_cons] at h
      cases hfirst : F s a with
      | error err => rw [hfirst] at h; cases h
      | ok next =>
          rw [hfirst] at h
          exact ih (fun s b hb => hstep s b (List.mem_cons_of_mem a hb))
            (hstep s a List.mem_cons_self next hs hfirst) h

/-- Fold the first items, then the second ones. -/
def twoPass (F : S → A → Except Err S) (G : S → B → Except Err S) (s : S)
    (as : List A) (bs : List B) : Except Err S :=
  as.foldlM F s >>= fun s => bs.foldlM G s

/-- Steps that commute pairwise commute as folds. -/
theorem foldl_foldl_comm {f : S → A → S} {g : S → B → S} {as : List A}
    {bs : List B}
    (hcomm : ∀ s, ∀ a ∈ as, ∀ b ∈ bs, f (g s b) a = g (f s a) b) (s : S) :
    as.foldl f (bs.foldl g s) = bs.foldl g (as.foldl f s) := by
  induction bs generalizing s with
  | nil => rfl
  | cons b rest ih =>
      have hone : ∀ (as' : List A) (s : S), (∀ a ∈ as', a ∈ as) →
          as'.foldl f (g s b) = g (as'.foldl f s) b := by
        intro as'
        induction as' with
        | nil => intro s _; rfl
        | cons a as' iha =>
            intro s hsub
            rw [List.foldl_cons, List.foldl_cons,
              hcomm s a (hsub a List.mem_cons_self) b List.mem_cons_self]
            exact iha (f s a) fun x hx => hsub x (List.mem_cons_of_mem a hx)
      rw [List.foldl_cons, List.foldl_cons,
        ih (fun s a ha b' hb' => hcomm s a ha b' (List.mem_cons_of_mem b hb')),
        hone as s fun a ha => ha]

section Batches

variable {reasonA : A → Option Err} {reasonB : B → Option Err}
  {f : S → A → S} {g : S → B → S}

theorem twoPass_refusing (s : S) (as : List A) (bs : List B) :
    twoPass (refusing reasonA f) (refusing reasonB g) s as bs =
      match as.findSome? reasonA, bs.findSome? reasonB with
      | some err, _ => .error err
      | none, some err => .error err
      | none, none => .ok (bs.foldl g (as.foldl f s)) := by
  rw [twoPass, foldlM_refusing]
  cases as.findSome? reasonA with
  | some err => rfl
  | none =>
      change bs.foldlM (refusing reasonB g) (as.foldl f s) = _
      rw [foldlM_refusing]
      cases bs.findSome? reasonB <;> rfl

/-- A batch returns exactly when none of its items is refused. -/
theorem twoPass_refusing_eq_ok {s next : S} {as : List A} {bs : List B} :
    twoPass (refusing reasonA f) (refusing reasonB g) s as bs = .ok next ↔
      as.findSome? reasonA = none ∧ bs.findSome? reasonB = none ∧
        next = bs.foldl g (as.foldl f s) := by
  rw [twoPass_refusing]
  cases as.findSome? reasonA with
  | some err => simp
  | none =>
      cases bs.findSome? reasonB with
      | some err => simp
      | none => simp [eq_comm]

/-- A batch after a batch that returned is one batch. -/
theorem twoPass_append {s next : S} {as as' : List A} {bs bs' : List B}
    (hcomm : ∀ s, ∀ a ∈ as', ∀ b ∈ bs, f (g s b) a = g (f s a) b)
    (hfirst : twoPass (refusing reasonA f) (refusing reasonB g) s as bs =
      .ok next) :
    twoPass (refusing reasonA f) (refusing reasonB g) next as' bs' =
      twoPass (refusing reasonA f) (refusing reasonB g) s (as ++ as')
        (bs ++ bs') := by
  obtain ⟨has, hbs, rfl⟩ := twoPass_refusing_eq_ok.mp hfirst
  rw [twoPass_refusing, twoPass_refusing, List.findSome?_append,
    List.findSome?_append, has, hbs, List.foldl_append, List.foldl_append,
    Option.none_or, Option.none_or, foldl_foldl_comm hcomm]

end Batches

section Cursor

variable (seq : A → ℕ)

/-- The sequence number of the last item, or `start` before there is one. -/
def lastSeqOf (start : ℕ) (items : List A) : ℕ :=
  ((items.map seq).getLast?).getD start

theorem lastSeqOf_cons (start : ℕ) (a : A) (rest : List A) :
    lastSeqOf seq start (a :: rest) = lastSeqOf seq (seq a) rest := by
  cases rest with
  | nil => rfl
  | cons b rest => simp [lastSeqOf, List.getLast?_cons]

/-- A fold whose steps move a cursor to their item moves it to the last one. -/
theorem foldlM_cursor {F : S → A → Except Err S} {cursor : S → ℕ}
    {items : List A}
    (hstep : ∀ s, ∀ a ∈ items, ∀ s', F s a = .ok s' → cursor s' = seq a)
    {s s' : S} (h : items.foldlM F s = .ok s') :
    cursor s' = lastSeqOf seq (cursor s) items := by
  induction items generalizing s with
  | nil =>
      cases h
      rfl
  | cons a rest ih =>
      rw [List.foldlM_cons] at h
      rw [lastSeqOf_cons]
      cases hfirst : F s a with
      | error err => rw [hfirst] at h; cases h
      | ok next =>
          rw [hfirst] at h
          rw [← hstep s a List.mem_cons_self next hfirst]
          exact ih (fun s b hb => hstep s b (List.mem_cons_of_mem a hb)) h

variable {seq}

/-- What every step on an item after the cursor keeps, the fold of ordered
items after the cursor keeps. -/
theorem foldlM_keeps_after {F : S → A → Except Err S} {P : S → Prop}
    {cursor : S → ℕ} {items : List A}
    (hstep : ∀ s, ∀ a ∈ items, ∀ s', P s → cursor s < seq a →
      F s a = .ok s' → P s' ∧ cursor s' = seq a)
    (hordered : items.Pairwise fun a b => seq a < seq b) {s s' : S}
    (hafter : ∀ a ∈ items, cursor s < seq a) (hs : P s)
    (h : items.foldlM F s = .ok s') : P s' := by
  induction items generalizing s with
  | nil =>
      cases h
      exact hs
  | cons a rest ih =>
      rw [List.foldlM_cons] at h
      rw [List.pairwise_cons] at hordered
      cases hfirst : F s a with
      | error err => rw [hfirst] at h; cases h
      | ok next =>
          rw [hfirst] at h
          obtain ⟨hnext, hcursor⟩ := hstep s a List.mem_cons_self next hs
            (hafter a List.mem_cons_self) hfirst
          refine ih (fun s b hb => hstep s b (List.mem_cons_of_mem a hb))
            hordered.2 (fun b hb => ?_) hnext h
          rw [hcursor]
          exact hordered.1 b hb

/-- The cursor is at its start or at one of the items. -/
theorem lastSeqOf_mem (start : ℕ) (items : List A) :
    lastSeqOf seq start items = start ∨
      ∃ a ∈ items, lastSeqOf seq start items = seq a := by
  induction items generalizing start with
  | nil => exact .inl rfl
  | cons b rest ih =>
      rw [lastSeqOf_cons]
      rcases ih (seq b) with hstart | ⟨a, ha, hlast⟩
      · exact .inr ⟨b, List.mem_cons_self, hstart⟩
      · exact .inr ⟨a, List.mem_cons_of_mem b ha, hlast⟩

theorem le_lastSeqOf {items : List A} (start : ℕ)
    (hseq : items.Pairwise fun a b => seq a < seq b) :
    ∀ a ∈ items, seq a ≤ lastSeqOf seq start items := by
  induction items generalizing start with
  | nil => exact fun a ha => nomatch ha
  | cons b rest ih =>
      rw [List.pairwise_cons] at hseq
      rw [lastSeqOf_cons]
      intro a ha
      rcases List.mem_cons.mp ha with rfl | ha
      · cases rest with
        | nil => exact Nat.le_refl _
        | cons c rest =>
            have hc : c ∈ c :: rest := List.mem_cons_self
            exact Nat.le_trans (Nat.le_of_lt (hseq.1 c hc)) (ih _ hseq.2 c hc)
      · exact ih _ hseq.2 a ha

theorem lastSeqOf_lt {items rest : List A} {start : ℕ}
    (hseq : (items ++ rest).Pairwise fun a b => seq a < seq b)
    (hstart : ∀ a ∈ rest, start < seq a) {a : A} (ha : a ∈ rest) :
    lastSeqOf seq start items < seq a := by
  induction items generalizing start with
  | nil => exact hstart a ha
  | cons b items ih =>
      rw [List.cons_append, List.pairwise_cons] at hseq
      rw [lastSeqOf_cons]
      exact ih hseq.2 fun x hx => hseq.1 x (List.mem_append_right items hx)

/-- The items after the cursor of a first part are those of the rest. -/
theorem filter_after_lastSeqOf {items rest : List A} {start : ℕ}
    (hseq : (items ++ rest).Pairwise fun a b => seq a < seq b)
    (hstart : ∀ a ∈ rest, start < seq a) :
    (items ++ rest).filter (fun a => lastSeqOf seq start items < seq a) =
      rest := by
  rw [List.filter_append]
  have hdone : items.filter (fun a => lastSeqOf seq start items < seq a) =
      [] := by
    rw [List.filter_eq_nil_iff]
    intro a ha hlt
    have hle := le_lastSeqOf start (List.pairwise_append.mp hseq).1 a ha
    simp only [decide_eq_true_eq] at hlt
    omega
  have hrest : rest.filter (fun a => lastSeqOf seq start items < seq a) =
      rest := by
    rw [List.filter_eq_self]
    intro a ha
    exact decide_eq_true (lastSeqOf_lt hseq hstart ha)
  rw [hdone, hrest, List.nil_append]

end Cursor

end PredictiveAutoscaler
