/-
Runs of a list along a relation: the run a list begins with, the run it ends
with, and the longest run as a single scan finds it.
-/
import Mathlib.Data.List.Chain
import Mathlib.Data.List.Infix

namespace MaximalRuns

variable {A : Type*} (r : A → A → Prop)

/-- A run of `l` that no neighbour extends: the parts before and after it. -/
structure Splits (l before run after : List A) : Prop where
  eq : l = before ++ run ++ after
  chain : run.IsChain r
  left : ∀ x ∈ before.getLast?, ∀ y ∈ run.head?, ¬r x y
  right : ∀ x ∈ run.getLast?, ∀ y ∈ after.head?, ¬r x y

/-- A nonempty run that no neighbour extends. -/
def Maximal (l run : List A) : Prop :=
  run ≠ [] ∧ ∃ before after, Splits r l before run after

variable [DecidableRel r]

/-- The longest run that a list begins with. -/
def leadingRun : List A → List A
  | p :: q :: rest => if r p q then p :: leadingRun (q :: rest) else [p]
  | l => l

/-- The longest run that a list ends with. -/
def trailingRun (l : List A) : List A :=
  (leadingRun (fun p q => r q p) l.reverse).reverse

theorem leadingRun_head? (l : List A) :
    (leadingRun r l).head? = l.head? := by
  cases l with
  | nil => rfl
  | cons p rest =>
      cases rest with
      | nil => rfl
      | cons q rest =>
          unfold leadingRun
          split <;> rfl

theorem leadingRun_splits (l : List A) :
    ∃ after, Splits r l [] (leadingRun r l) after := by
  induction l with
  | nil => exact ⟨[], rfl, .nil, by simp, by simp [leadingRun]⟩
  | cons p rest ih =>
      cases rest with
      | nil =>
          exact ⟨[], rfl, List.isChain_singleton p, by simp, by simp⟩
      | cons q rest =>
          obtain ⟨after, heq, hchain, -, hright⟩ := ih
          have hhead := leadingRun_head? r (q :: rest)
          unfold leadingRun
          split
          · rename_i hpq
            cases hrun : leadingRun r (q :: rest) with
            | nil =>
                rw [hrun] at hhead
                cases hhead
            | cons a run =>
                rw [hrun] at heq hchain hright hhead
                obtain rfl : a = q := by simpa using hhead
                refine ⟨after, congrArg (List.cons p) heq,
                  List.isChain_cons_cons.mpr ⟨hpq, hchain⟩, by simp, ?_⟩
                rw [List.getLast?_cons_cons]
                exact hright
          · rename_i hpq
            refine ⟨q :: rest, rfl, List.isChain_singleton p, by simp, ?_⟩
            intro x hx y hy
            cases hx
            cases hy
            exact hpq

theorem trailingRun_splits (l : List A) :
    ∃ before, Splits r l before (trailingRun r l) [] := by
  obtain ⟨after, heq, hchain, -, hright⟩ :=
    leadingRun_splits (fun p q => r q p) l.reverse
  unfold trailingRun
  refine ⟨after.reverse, ?_, List.isChain_reverse.mpr hchain, ?_, by simp⟩
  · have hreverse := congrArg List.reverse heq
    simpa using hreverse
  · intro x hx y hy
    rw [List.getLast?_reverse] at hx
    rw [List.head?_reverse] at hy
    exact hright y hy x hx

theorem trailingRun_getLast? (l : List A) :
    (trailingRun r l).getLast? = l.getLast? := by
  unfold trailingRun
  rw [List.getLast?_reverse, leadingRun_head?, List.head?_reverse]

/-- A run that ends a list is no longer than its trailing run. -/
theorem length_le_trailingRun {l s : List A} (hs : s <:+ l)
    (hchain : s.IsChain r) : s.length ≤ (trailingRun r l).length := by
  obtain ⟨before, heq, -, hleft, -⟩ := trailingRun_splits r l
  rw [List.append_nil] at heq
  by_contra hlong
  have hsuffix : trailingRun r l <:+ s :=
    List.suffix_of_suffix_length_le ⟨before, heq.symm⟩ hs (not_le.mp hlong).le
  obtain ⟨extra, hextra⟩ := hsuffix
  have hne : extra ≠ [] := by
    rintro rfl
    rw [← hextra] at hlong
    exact hlong le_rfl
  have hbefore : extra <:+ before := by
    obtain ⟨front, hfront⟩ := hs
    refine ⟨front, ?_⟩
    rw [← hextra, ← List.append_assoc] at hfront
    exact List.append_cancel_right (hfront.trans heq)
  have hlast : before.getLast? = extra.getLast? := by
    obtain ⟨front, rfl⟩ := hbefore
    rw [List.getLast?_append, Option.or_of_isSome]
    simpa using hne
  cases hrun : trailingRun r l with
  | nil =>
      have hl := trailingRun_getLast? r l
      rw [hrun, heq, hrun, List.append_nil, hlast] at hl
      exact hne (List.getLast?_eq_none_iff.mp hl.symm)
  | cons y run =>
      obtain ⟨x, hx⟩ := Option.isSome_iff_exists.mp
        (List.getLast?_isSome.mpr hne)
      have hedge := hleft x (by rw [hlast, hx]; rfl) y (by rw [hrun]; rfl)
      rw [← hextra, hrun] at hchain
      exact hedge
        ((List.isChain_append.mp hchain).2.2 x (by rw [hx]; rfl) y rfl)

theorem trailingRun_concat_of_rel {l : List A} {x p : A}
    (hx : l.getLast? = some x) (hxp : r x p) :
    trailingRun r (l ++ [p]) = trailingRun r l ++ [p] := by
  unfold trailingRun
  rw [List.reverse_append, List.reverse_singleton, List.singleton_append]
  rw [← List.head?_reverse] at hx
  obtain ⟨rest, hrest⟩ := List.head?_eq_some_iff.mp hx
  rw [hrest, leadingRun, if_pos hxp, List.reverse_cons]

theorem trailingRun_concat_of_not_rel {l : List A} {x p : A}
    (hx : l.getLast? = some x) (hxp : ¬r x p) :
    trailingRun r (l ++ [p]) = [p] := by
  unfold trailingRun
  rw [List.reverse_append, List.reverse_singleton, List.singleton_append]
  rw [← List.head?_reverse] at hx
  obtain ⟨rest, hrest⟩ := List.head?_eq_some_iff.mp hx
  rw [hrest, leadingRun, if_neg hxp, List.reverse_singleton]

/-- The scan: the best run so far and the current one.  Of two as long, the
earlier one is kept. -/
def longestRunFrom : List A → (best cur : List A) → List A
  | [], best, cur => if best.length < cur.length then cur else best
  | p :: rest, best, cur =>
      match cur.getLast? with
      | none => longestRunFrom rest best [p]
      | some last =>
          if r last p then longestRunFrom rest best (cur ++ [p])
          else
            longestRunFrom rest (if best.length < cur.length then cur else best)
              [p]

def longestRun (l : List A) : List A := longestRunFrom r l [] []

/-- What the scan knows of the part it is done with. -/
structure Scanned (done best cur : List A) : Prop where
  current : cur = trailingRun r done
  settled : best = [] ∨ best ≠ [] ∧
    ∃ before after, after ≠ [] ∧ Splits r done before best after
  longest : ∀ s, s <:+: done → s.IsChain r →
    s.length ≤ max best.length cur.length

variable {r}

/-- A run of a longer list is one of the list, or ends the longer one. -/
theorem infix_concat {s done : List A} {p : A} (h : s <:+: done ++ [p]) :
    s <:+: done ∨ s <:+ done ++ [p] := by
  obtain ⟨before, after, heq⟩ := h
  rcases List.eq_nil_or_concat after with rfl | ⟨after, q, rfl⟩
  · exact .inr ⟨before, by simpa using heq⟩
  · left
    rw [List.concat_eq_append, ← List.append_assoc] at heq
    exact ⟨before, after, List.append_inj_left' heq rfl⟩

omit [DecidableRel r] in
theorem Splits.concat {l before run after : List A}
    (h : Splits r l before run after) (hafter : after ≠ []) (p : A) :
    Splits r (l ++ [p]) before run (after ++ [p]) := by
  refine ⟨by rw [h.eq]; simp, h.chain, h.left, fun x hx y hy =>
    h.right x hx y ?_⟩
  rwa [List.head?_append_of_ne_nil _ hafter] at hy

theorem Scanned.extend {done best cur : List A} {last p : A}
    (h : Scanned r done best cur) (hlast : cur.getLast? = some last)
    (hp : r last p) : Scanned r (done ++ [p]) best (cur ++ [p]) := by
  have hdone : done.getLast? = some last := by
    rw [← trailingRun_getLast? r, ← h.current, hlast]
  have hcur : cur ++ [p] = trailingRun r (done ++ [p]) := by
    rw [trailingRun_concat_of_rel r hdone hp, h.current]
  refine ⟨hcur, ?_, ?_⟩
  · rcases h.settled with hnil | ⟨hne, before, after, hafter, hsplits⟩
    · exact .inl hnil
    · exact .inr ⟨hne, before, after ++ [p], by simp, hsplits.concat hafter p⟩
  · intro s hs hchain
    rcases infix_concat hs with hs | hs
    · have hbound := h.longest s hs hchain
      rw [List.length_append]
      omega
    · have hbound := length_le_trailingRun r hs hchain
      rw [← hcur] at hbound
      omega

/-- A break settles the current run. -/
theorem Scanned.settle {done best cur : List A} {last p : A}
    (h : Scanned r done best cur) (hlast : cur.getLast? = some last)
    (hp : ¬r last p) :
    Scanned r (done ++ [p])
      (if best.length < cur.length then cur else best) [p] := by
  have hdone : done.getLast? = some last := by
    rw [← trailingRun_getLast? r, ← h.current, hlast]
  have hcur : [p] = trailingRun r (done ++ [p]) :=
    (trailingRun_concat_of_not_rel r hdone hp).symm
  have hne : cur ≠ [] := by
    rintro rfl
    cases hlast
  refine ⟨hcur, ?_, ?_⟩
  · split
    · right
      obtain ⟨before, heq, hchain, hleft, -⟩ := trailingRun_splits r done
      rw [← h.current] at heq hchain hleft
      refine ⟨hne, before, [p], by simp, ?_, hchain, hleft, ?_⟩
      · rw [List.append_nil] at heq
        rw [← heq]
      · intro x hx y hy
        rw [hlast] at hx
        cases hx
        cases hy
        exact hp
    · rcases h.settled with hnil | ⟨hbest, before, after, hafter, hsplits⟩
      · exact .inl hnil
      · exact .inr
          ⟨hbest, before, after ++ [p], by simp, hsplits.concat hafter p⟩
  · have hpos : 0 < cur.length := List.length_pos_iff.mpr hne
    intro s hs hchain
    rcases infix_concat hs with hs | hs
    · have hbound := h.longest s hs hchain
      split <;> omega
    · have hbound := length_le_trailingRun r hs hchain
      rw [← hcur] at hbound
      omega

theorem Scanned.start (p : A) : Scanned r [p] [] [p] := by
  refine ⟨rfl, .inl rfl, fun s hs _ => ?_⟩
  simpa using hs.length_le

/-- The scan of the rest leaves the longest run of the whole. -/
theorem Scanned.finish {rest done best cur : List A}
    (h : Scanned r done best cur) (hne : cur ≠ []) :
    Maximal r (done ++ rest) (longestRunFrom r rest best cur) ∧
      ∀ s, s <:+: done ++ rest → s.IsChain r →
        s.length ≤ (longestRunFrom r rest best cur).length := by
  induction rest generalizing done best cur with
  | nil =>
      unfold longestRunFrom
      rw [List.append_nil]
      split
      · refine ⟨⟨hne, ?_⟩, fun s hs hchain => ?_⟩
        · obtain ⟨before, hsplits⟩ := trailingRun_splits r done
          rw [← h.current] at hsplits
          exact ⟨before, [], hsplits⟩
        · have hbound := h.longest s hs hchain
          omega
      · refine ⟨?_, fun s hs hchain => ?_⟩
        · rcases h.settled with rfl | ⟨hbest, before, after, -, hsplits⟩
          · have hpos : 0 < cur.length := List.length_pos_iff.mpr hne
            exact absurd hpos ‹_›
          · exact ⟨hbest, before, after, hsplits⟩
        · have hbound := h.longest s hs hchain
          omega
  | cons p rest ih =>
      obtain ⟨last, hlast⟩ := Option.isSome_iff_exists.mp
        (List.getLast?_isSome.mpr hne)
      unfold longestRunFrom
      rw [hlast, ← List.singleton_append, ← List.append_assoc]
      dsimp only
      split
      · rename_i hp
        exact ih (h.extend hlast hp) (by simp)
      · rename_i hp
        exact ih (h.settle hlast hp) (by simp)

theorem longestRun_spec {l : List A} (hne : l ≠ []) :
    Maximal r l (longestRun r l) ∧
      ∀ s, s <:+: l → s.IsChain r → s.length ≤ (longestRun r l).length := by
  cases l with
  | nil => exact absurd rfl hne
  | cons p rest =>
      exact (Scanned.start p).finish (List.cons_ne_nil p [])

end MaximalRuns
