/-
Programs over a durable store that can be cut off and run again.  A program
resumes when a second run, started from any store that the first one reached,
ends as the first run ends and commits no store that the first one did not
reach.  Cuts can then follow each other in any number.
-/
import PredictiveAutoscaler.Durable

namespace PredictiveAutoscaler.Durable

universe u v w

variable {S : Type u} {Err : Type v} {α β : Type w} {γ : Type*}

theorem bind_of_result_ok {x : Durable S Err α} {f : α → Durable S Err β}
    {s : S} {a : α} (h : (x s).result = .ok a) :
    (x >>= f) s =
      ⟨(x s).commits ++ (f a ((x s).store s)).commits,
        (f a ((x s).store s)).result⟩ := by
  change andThen x f s = _
  unfold andThen
  rw [h]

theorem bind_of_result_error {x : Durable S Err α} {f : α → Durable S Err β}
    {s : S} {err : Err} (h : (x s).result = .error err) :
    (x >>= f) s = ⟨(x s).commits, .error err⟩ := by
  change andThen x f s = _
  unfold andThen
  rw [h]

theorem store_bind_of_result_ok {x : Durable S Err α}
    {f : α → Durable S Err β} {s : S} {a : α} (h : (x s).result = .ok a) :
    ((x >>= f) s).store s =
      (f a ((x s).store s)).store ((x s).store s) := by
  rw [bind_of_result_ok h]
  exact getLastD_append _ _ _

theorem store_bind_of_result_error {x : Durable S Err α}
    {f : α → Durable S Err β} {s : S} {err : Err}
    (h : (x s).result = .error err) :
    ((x >>= f) s).store s = (x s).store s := by
  rw [bind_of_result_error h]
  rfl

theorem bind_assoc {δ : Type w} (x : Durable S Err α)
    (f : α → Durable S Err β) (g : β → Durable S Err δ) :
    (x >>= f) >>= g = x >>= fun a => f a >>= g := by
  funext s
  cases hx : (x s).result with
  | error err =>
      have hbind : ((x >>= f) s).result = .error err := by
        rw [bind_of_result_error hx]
      rw [bind_of_result_error (x := x) hx,
        bind_of_result_error (x := x >>= f) hbind]
      rw [bind_of_result_error hx]
  | ok a =>
      have hstore := store_bind_of_result_ok (f := f) hx
      rw [bind_of_result_ok (x := x) hx]
      cases hf : (f a ((x s).store s)).result with
      | error err =>
          have hbind : ((x >>= f) s).result = .error err := by
            rw [bind_of_result_ok hx]
            exact hf
          rw [bind_of_result_error (x := x >>= f) hbind,
            bind_of_result_error (x := f a) hf, bind_of_result_ok hx]
      | ok b =>
          rw [bind_of_result_ok (x := x >>= f) (a := b) (by
              rw [bind_of_result_ok hx]; exact hf),
            bind_of_result_ok (x := f a) hf, hstore, bind_of_result_ok hx]
          exact congrArg (Ended.mk · _) (List.append_assoc _ _ _)

theorem pure_bind (a : α) (f : α → Durable S Err β) :
    (pure a >>= f : Durable S Err β) = f a :=
  rfl

/-- The stores that a run reaches: the one it starts from and those it
commits. -/
def reached (x : Durable S Err α) (s : S) : List S := s :: (x s).commits

theorem mem_reached_self (x : Durable S Err α) (s : S) : s ∈ x.reached s :=
  List.mem_cons_self

theorem store_mem_reached (x : Durable S Err α) (s : S) :
    (x s).store s ∈ x.reached s := by
  unfold Ended.store reached
  cases h : (x s).commits.getLast? with
  | none =>
      rw [List.getLastD_eq_getLast?, h]
      exact List.mem_cons_self
  | some s' =>
      rw [List.getLastD_eq_getLast?, h]
      exact List.mem_cons_of_mem _ (List.mem_of_getLast? h)

theorem cutAt_mem_reached (x : Durable S Err α) (s : S) (n : ℕ) :
    (x s).cutAt s n ∈ x.reached s := by
  unfold Ended.cutAt reached
  cases h : ((x s).commits.take n).getLast? with
  | none =>
      rw [List.getLastD_eq_getLast?, h]
      exact List.mem_cons_self
  | some s' =>
      rw [List.getLastD_eq_getLast?, h]
      exact List.mem_cons_of_mem _
        (List.mem_of_mem_take (List.mem_of_getLast? h))

theorem reached_bind_of_result_ok {x : Durable S Err α}
    {f : α → Durable S Err β} {s : S} {a : α} (h : (x s).result = .ok a) :
    (x >>= f).reached s = x.reached s ++ (f a ((x s).store s)).commits := by
  unfold reached
  rw [bind_of_result_ok h]
  rfl

/-- The run of `y` from `s'` ends as that of `x` from `s` and commits no store
that it did not reach. -/
structure Redoes (view : α → γ) (x : Durable S Err α) (s : S)
    (y : Durable S Err α) (s' : S) : Prop where
  store_eq : (y s').store s' = (x s).store s
  result_eq : (y s').result.map view = (x s).result.map view
  commits_subset : (y s').commits ⊆ x.reached s

/-- From every store that a run reaches, a second run redoes it. -/
def Resumes (view : α → γ) (x : Durable S Err α) (s : S) : Prop :=
  ∀ s' ∈ x.reached s, Redoes view x s x s'

/-- Returns `a` and changes nothing. -/
structure Settled (x : Durable S Err α) (a : α) (s : S) : Prop where
  result_eq : (x s).result = .ok a
  commits_eq : ∀ s' ∈ (x s).commits, s' = s

variable {view : α → γ} {x y z : Durable S Err α} {f : α → Durable S Err β}
  {s s' s'' : S} {a : α}

theorem Redoes.refl (view : α → γ) (x : Durable S Err α) (s : S) :
    Redoes view x s x s :=
  ⟨rfl, rfl, List.subset_cons_self _ _⟩

theorem Redoes.trans (h : Redoes view x s y s') (hmem : s' ∈ x.reached s)
    (h' : Redoes view y s' z s'') : Redoes view x s z s'' := by
  refine ⟨h'.store_eq.trans h.store_eq, h'.result_eq.trans h.result_eq, ?_⟩
  intro c hc
  rcases List.mem_cons.mp (h'.commits_subset hc) with rfl | hc
  · exact hmem
  · exact h.commits_subset hc

theorem Settled.store_eq (h : Settled x a s) : (x s).store s = s := by
  rcases List.mem_cons.mp (store_mem_reached x s) with hstore | hstore
  · exact hstore
  · exact h.commits_eq _ hstore

theorem settled_pure (a : α) (s : S) :
    Settled (pure a : Durable S Err α) a s :=
  ⟨rfl, fun _ hs' => nomatch hs'⟩

theorem Settled.bind {b : β} (hx : Settled x a s) (hf : Settled (f a) b s) :
    Settled (x >>= f) b s := by
  have hbind := bind_of_result_ok (f := f) hx.result_eq
  rw [hx.store_eq] at hbind
  constructor
  · rw [hbind]
    exact hf.result_eq
  · intro s' hs'
    rw [hbind] at hs'
    rcases List.mem_append.mp hs' with hs' | hs'
    · exact hx.commits_eq s' hs'
    · exact hf.commits_eq s' hs'

theorem resumes_pure (view : α → γ) (a : α) (s : S) :
    Resumes view (pure a : Durable S Err α) s := by
  intro s' hs'
  rw [List.mem_singleton.mp hs']
  exact .refl _ _ _

/-- A commit that finds itself made changes nothing more. -/
theorem resumes_commit {g : S → Except Err (α × S)}
    (h : ∀ a s', g s = .ok (a, s') →
      ∃ b, g s' = .ok (b, s') ∧ view b = view a) :
    Resumes view (commit g) s := by
  intro s' hs'
  cases hg : g s with
  | error err =>
      have hcommit : commit g s = ⟨[], .error err⟩ := by
        unfold commit
        rw [hg]
      unfold reached at hs'
      rw [hcommit] at hs'
      rw [List.mem_singleton.mp hs']
      exact .refl _ _ _
  | ok pair =>
      obtain ⟨a, s₁⟩ := pair
      obtain ⟨b, hb, hview⟩ := h a s₁ hg
      have hcommit : commit g s = ⟨[s₁], .ok a⟩ := by
        unfold commit
        rw [hg]
      have hagain : commit g s₁ = ⟨[s₁], .ok b⟩ := by
        unfold commit
        rw [hb]
      unfold reached at hs'
      rw [hcommit] at hs'
      rcases List.mem_cons.mp hs' with rfl | hs'
      · exact .refl _ _ _
      · rw [List.mem_singleton.mp hs']
        refine ⟨?_, ?_, ?_⟩
        · rw [hcommit, hagain]
          rfl
        · rw [hcommit, hagain]
          exact congrArg Except.ok hview
        · unfold reached
          rw [hcommit, hagain]
          exact List.subset_cons_self _ _

theorem Redoes.of_eq (h : Redoes view x s y s') (hz : z s' = y s') :
    Redoes view x s z s' := by
  refine ⟨?_, ?_, ?_⟩
  · rw [hz]
    exact h.store_eq
  · rw [hz]
    exact h.result_eq
  · rw [hz]
    exact h.commits_subset

/-- A store that a commit reaches is the one it found or the one it made. -/
theorem mem_reached_commit {g : S → Except Err (α × S)}
    (h : s' ∈ (commit g).reached s) :
    s' = s ∨ ∃ a, commit g s = ⟨[s'], .ok a⟩ := by
  unfold reached at h
  cases hg : g s with
  | error err =>
      have hcommit : commit g s = ⟨[], .error err⟩ := by
        unfold commit
        rw [hg]
      rw [hcommit] at h
      exact .inl (List.mem_singleton.mp h)
  | ok pair =>
      have hcommit : commit g s = ⟨[pair.2], .ok pair.1⟩ := by
        unfold commit
        rw [hg]
      rw [hcommit] at h
      rcases List.mem_cons.mp h with rfl | h
      · exact .inl rfl
      · rw [List.mem_singleton.mp h]
        exact .inr ⟨pair.1, hcommit⟩

/-- Programs that redo each other go on the same way. -/
theorem Redoes.bind {δ : Type*} {shown : α → δ} {view : β → γ}
    (h : Redoes shown x s y s') {g : α → Durable S Err β}
    (hnext : ∀ a b m, shown a = shown b → Redoes view (f a) m (g b) m) :
    Redoes view (x >>= f) s (y >>= g) s' := by
  have hresult := h.result_eq
  cases hx : (x s).result with
  | error err =>
      cases hy : (y s').result with
      | ok b => rw [hx, hy] at hresult; cases hresult
      | error err' =>
          rw [hx, hy] at hresult
          refine ⟨?_, ?_, ?_⟩
          · rw [store_bind_of_result_error hy, store_bind_of_result_error hx]
            exact h.store_eq
          · rw [bind_of_result_error hy, bind_of_result_error hx]
            exact congrArg Except.error (Except.error.inj hresult)
          · unfold reached
            rw [bind_of_result_error hy, bind_of_result_error hx]
            exact h.commits_subset
  | ok a =>
      cases hy : (y s').result with
      | error err => rw [hx, hy] at hresult; cases hresult
      | ok b =>
          rw [hx, hy] at hresult
          have hredo := hnext a b ((x s).store s)
            (Except.ok.inj hresult).symm
          refine ⟨?_, ?_, ?_⟩
          · rw [store_bind_of_result_ok hy, store_bind_of_result_ok hx,
              h.store_eq]
            exact hredo.store_eq
          · rw [bind_of_result_ok hy, bind_of_result_ok hx, h.store_eq]
            exact hredo.result_eq
          · rw [reached_bind_of_result_ok hx, bind_of_result_ok hy,
              h.store_eq]
            refine List.append_subset.mpr ⟨?_, ?_⟩
            · intro c hc
              exact List.mem_append_left _ (h.commits_subset hc)
            · intro c hc
              rcases List.mem_cons.mp (hredo.commits_subset hc) with rfl | hc
              · exact List.mem_append_left _ (store_mem_reached x s)
              · exact List.mem_append_right _ hc

/-- Programs that redo each other exactly go on the same way. -/
theorem Redoes.bind_same {view : β → γ} (h : Redoes id x s y s')
    (f : α → Durable S Err β) : Redoes view (x >>= f) s (y >>= f) s' :=
  h.bind fun a b m hab => by
    rw [show a = b from hab]
    exact .refl _ _ _

/-- To redo the rest of a program is to redo all of it. -/
theorem Redoes.of_bind {view : β → γ} {w : Durable S Err β}
    (hx : (x s).result = .ok a)
    (h : Redoes view (f a) ((x s).store s) w s') :
    Redoes view (x >>= f) s w s' := by
  refine ⟨?_, ?_, ?_⟩
  · rw [store_bind_of_result_ok hx]
    exact h.store_eq
  · rw [bind_of_result_ok hx]
    exact h.result_eq
  · intro c hc
    rw [reached_bind_of_result_ok hx]
    rcases List.mem_cons.mp (h.commits_subset hc) with rfl | hc
    · exact List.mem_append_left _ (store_mem_reached x s)
    · exact List.mem_append_right _ hc

theorem mem_reached_bind (h : s' ∈ (x >>= f).reached s) :
    s' ∈ x.reached s ∨ ∃ a, (x s).result = .ok a ∧
      s' ∈ (f a).reached ((x s).store s) := by
  cases hx : (x s).result with
  | error err =>
      unfold reached at h ⊢
      rw [bind_of_result_error hx] at h
      exact .inl h
  | ok a =>
      rw [reached_bind_of_result_ok hx] at h
      rcases List.mem_append.mp h with h | h
      · exact .inl h
      · exact .inr ⟨a, rfl, List.mem_cons_of_mem _ h⟩

/-- The second part of a program runs where the first one is settled. -/
theorem resumes_bind {view : β → γ} (hx : Resumes id x s)
    (hf : ∀ a, (x s).result = .ok a →
      Resumes view (f a) ((x s).store s) ∧
        ∀ s' ∈ (f a ((x s).store s)).commits, Settled x a s') :
    Resumes view (x >>= f) s := by
  intro s' hs'
  cases hresult : (x s).result with
  | error err =>
      unfold reached at hs'
      rw [bind_of_result_error hresult] at hs'
      exact (hx s' hs').bind_same f
  | ok a =>
      obtain ⟨hrest, hsettled⟩ := hf a hresult
      rw [reached_bind_of_result_ok hresult] at hs'
      rcases List.mem_append.mp hs' with hs' | hs'
      · exact (hx s' hs').bind_same f
      · have hx' := hsettled s' hs'
        have hredo := hrest s' (List.mem_cons_of_mem _ hs')
        refine ⟨?_, ?_, ?_⟩
        · rw [store_bind_of_result_ok hx'.result_eq,
            store_bind_of_result_ok hresult, hx'.store_eq]
          exact hredo.store_eq
        · rw [bind_of_result_ok hx'.result_eq, bind_of_result_ok hresult,
            hx'.store_eq]
          exact hredo.result_eq
        · rw [reached_bind_of_result_ok hresult,
            bind_of_result_ok hx'.result_eq, hx'.store_eq]
          refine List.append_subset.mpr ⟨?_, ?_⟩
          · intro c hc
            rw [hx'.commits_eq c hc]
            exact List.mem_append_right _ hs'
          · intro c hc
            rcases List.mem_cons.mp (hredo.commits_subset hc) with rfl | hc
            · exact List.mem_append_left _ (store_mem_reached x s)
            · exact List.mem_append_right _ hc

/-- A value read at the start, the same wherever the program is cut off. -/
theorem resumes_read_bind {view : β → γ} {g : S → α}
    (hg : ∀ s' ∈ (f (g s)).reached s, g s' = g s)
    (hf : Resumes view (f (g s)) s) : Resumes view (read g >>= f) s := by
  have hat : ∀ s', (read g >>= f) s' = f (g s') s' := fun s' =>
    bind_of_ok (x := read g) (a := g s') rfl
  intro s' hs'
  unfold reached at hs'
  rw [hat] at hs'
  have hredo := hf s' hs'
  refine ⟨?_, ?_, ?_⟩
  · rw [hat, hat, hg s' hs']
    exact hredo.store_eq
  · rw [hat, hat, hg s' hs']
    exact hredo.result_eq
  · unfold reached
    rw [hat, hat, hg s' hs']
    exact hredo.commits_subset

theorem resumes_liftExcept (view : α → γ) (r : Except Err α) (s : S) :
    Resumes view (liftExcept r : Durable S Err α) s := by
  intro s' hs'
  rw [List.mem_singleton.mp hs']
  exact .refl _ _ _

theorem resumes_liftExcept_bind {view : β → γ} {r : Except Err α}
    (hf : ∀ a, r = .ok a → Resumes view (f a) s) :
    Resumes view (liftExcept r >>= f) s := by
  cases r with
  | error err =>
      intro s' hs'
      unfold reached at hs'
      rw [bind_of_error (x := liftExcept (.error err)) rfl] at hs'
      rw [List.mem_singleton.mp hs']
      exact .refl _ _ _
  | ok a =>
      have hat : (liftExcept (.ok a) >>= f) = f a := funext fun s' =>
        bind_of_ok (x := liftExcept (.ok a)) rfl
      rw [hat]
      exact hf a rfl

theorem resumes_map {δ : Type*} {g : α → β} {view : β → δ}
    (hx : Resumes (view ∘ g) x s) :
    Resumes view (x >>= fun a => pure (g a)) s := by
  have hat : ∀ s', (x >>= fun a => pure (g a)) s' =
      ⟨(x s').commits, (x s').result.map g⟩ := by
    intro s'
    cases h : (x s').result with
    | error err => rw [bind_of_result_error h]; rfl
    | ok a =>
        rw [bind_of_result_ok h]
        exact congrArg (Ended.mk · _) (List.append_nil _)
  intro s' hs'
  unfold reached at hs'
  rw [hat] at hs'
  have hredo := hx s' hs'
  refine ⟨?_, ?_, ?_⟩
  · rw [hat, hat]
    exact hredo.store_eq
  · rw [hat, hat]
    have hresult := hredo.result_eq
    cases h : (x s').result <;> cases h' : (x s).result <;>
      rw [h, h'] at hresult
    · exact congrArg Except.error (Except.error.inj hresult)
    · cases hresult
    · cases hresult
    · exact congrArg Except.ok (Except.ok.inj hresult)
  · unfold reached
    rw [hat, hat]
    exact hredo.commits_subset

/-- What holds however a program ends holds of the store it leaves. -/
theorem store_of_wp {I P : S → Prop}
    (h : wp I (fun _ => P) x (fun _ => P) s) : P ((x s).store s) := by
  have hend := h.2
  cases hresult : (x s).result with
  | ok a => rw [hresult] at hend; exact hend
  | error err => rw [hresult] at hend; exact hend

theorem Keeps.store {P : S → Prop} (h : Keeps P x) (hs : P s) :
    P ((x s).store s) :=
  store_of_wp (h s hs)

theorem Keeps.commits {P : S → Prop} (h : Keeps P x) (hs : P s)
    (hmem : s' ∈ (x s).commits) : P s' :=
  (h s hs).1 s' hmem

section Loop

variable {A : Type*} {items : List A} {round : A → Durable S Err PUnit.{w + 1}}
  {Done : A → S → Prop}
  (hkeeps : ∀ a, ∀ b ∈ items, Keeps (Done a) (round b))
  (hsettled : ∀ a s, Done a s → Settled (round a) ⟨⟩ s)

include hkeeps

/-- What is done stays done to the end of the loop. -/
theorem keeps_each_done (a : A) : Keeps (Done a) (each items round) :=
  keeps_each fun b hb => hkeeps a b hb

/-- A finished loop has done all of its rounds. -/
theorem each_done
    (hround : ∀ a ∈ items, ∀ s, (round a s).result = .ok ⟨⟩ →
      Done a ((round a s).store s))
    (h : (each items round s).result = .ok ⟨⟩) :
    ∀ a ∈ items, Done a ((each items round s).store s) := by
  induction items generalizing s with
  | nil => exact fun a ha => nomatch ha
  | cons b rest ih =>
      have hrest : ∀ a, ∀ c ∈ rest, Keeps (Done a) (round c) :=
        fun a c hc => hkeeps a c (List.mem_cons_of_mem b hc)
      change ((round b >>= fun _ => each rest round) s).result = _ at h
      cases hresult : (round b s).result with
      | error err =>
          rw [bind_of_result_error hresult] at h
          cases h
      | ok u =>
          rw [bind_of_result_ok hresult] at h
          have hb := hround b List.mem_cons_self s hresult
          have hstore : (each (b :: rest) round s).store s =
              (each rest round ((round b s).store s)).store
                ((round b s).store s) :=
            store_bind_of_result_ok hresult
          rw [hstore]
          intro a ha
          rcases List.mem_cons.mp ha with rfl | ha
          · exact (keeps_each_done hrest a).store hb
          · exact ih hrest
              (fun c hc => hround c (List.mem_cons_of_mem b hc)) h a ha

include hsettled

/-- A loop resumes when its rounds do and leave themselves done. -/
theorem resumes_each
    (hround : ∀ a ∈ items, ∀ s, Resumes id (round a) s ∧
      ((round a s).result = .ok ⟨⟩ → Done a ((round a s).store s))) :
    Resumes id (each items round) s := by
  induction items generalizing s with
  | nil => exact resumes_pure id _ s
  | cons b rest ih =>
      have hrest : ∀ a, ∀ c ∈ rest, Keeps (Done a) (round c) :=
        fun a c hc => hkeeps a c (List.mem_cons_of_mem b hc)
      obtain ⟨hresume, hdone⟩ := hround b List.mem_cons_self s
      refine resumes_bind hresume fun _ hok => ⟨?_, ?_⟩
      · exact ih hrest fun c hc => hround c (List.mem_cons_of_mem b hc)
      · intro s' hs'
        exact hsettled b s'
          ((keeps_each_done hrest b).commits (hdone hok) hs')

/-- The rounds that are already done can be left out. -/
theorem redoes_each_filter {p : A → Bool}
    (hskip : ∀ a ∈ items, p a = false → Done a s) :
    Redoes id (each items round) s (each (items.filter p) round) s := by
  induction items generalizing s with
  | nil => exact .refl _ _ _
  | cons b rest ih =>
      have hrest : ∀ a, ∀ c ∈ rest, Keeps (Done a) (round c) :=
        fun a c hc => hkeeps a c (List.mem_cons_of_mem b hc)
      cases hp : p b with
      | false =>
          have hb := hsettled b s (hskip b List.mem_cons_self hp)
          have hredo := ih hrest (s := s) fun a ha =>
            hskip a (List.mem_cons_of_mem b ha)
          rw [List.filter_cons_of_neg (by rw [hp]; exact Bool.false_ne_true)]
          have hwhole := bind_of_result_ok
            (f := fun _ => each rest round) hb.result_eq
          rw [hb.store_eq] at hwhole
          refine ⟨?_, ?_, ?_⟩
          · rw [hredo.store_eq]
            refine (?_ : (each (b :: rest) round s).store s = _).symm
            change ((round b >>= fun _ => each rest round) s).store s = _
            rw [store_bind_of_result_ok hb.result_eq, hb.store_eq]
          · rw [hredo.result_eq]
            change _ = Except.map id
              ((round b >>= fun _ => each rest round) s).result
            rw [hwhole]
          · intro c hc
            change c ∈ s :: ((round b >>= fun _ => each rest round) s).commits
            rw [hwhole]
            rcases List.mem_cons.mp (hredo.commits_subset hc) with rfl | hc
            · exact List.mem_cons_self
            · exact List.mem_cons_of_mem _ (List.mem_append_right _ hc)
      | true =>
          rw [List.filter_cons_of_pos hp]
          change Redoes id (round b >>= fun _ => each rest round) s
            (round b >>= fun _ => each (rest.filter p) round) s
          cases hresult : (round b s).result with
          | error err =>
              refine ⟨?_, ?_, ?_⟩
              · rw [store_bind_of_result_error hresult,
                  store_bind_of_result_error hresult]
              · rw [bind_of_result_error hresult,
                  bind_of_result_error hresult]
              · unfold reached
                rw [bind_of_result_error hresult,
                  bind_of_result_error hresult]
                exact List.subset_cons_self _ _
          | ok u =>
              have hredo := ih hrest (s := (round b s).store s) fun a ha hpa =>
                (hkeeps a b List.mem_cons_self).store
                  (hskip a (List.mem_cons_of_mem b ha) hpa)
              refine ⟨?_, ?_, ?_⟩
              · rw [store_bind_of_result_ok hresult,
                  store_bind_of_result_ok hresult]
                exact hredo.store_eq
              · rw [bind_of_result_ok hresult, bind_of_result_ok hresult]
                exact hredo.result_eq
              · rw [reached_bind_of_result_ok hresult,
                  bind_of_result_ok hresult]
                refine List.append_subset.mpr ⟨?_, ?_⟩
                · intro c hc
                  exact List.mem_append_left _ (List.mem_cons_of_mem _ hc)
                · intro c hc
                  rcases List.mem_cons.mp (hredo.commits_subset hc) with
                    rfl | hc
                  · exact List.mem_append_left _ (store_mem_reached _ s)
                  · exact List.mem_append_right _ hc

end Loop

/-- The store after runs that were cut off one after the other. -/
def afterCuts (x : Durable S Err α) (s : S) (cuts : List ℕ) : S :=
  cuts.foldl (fun s n => (x s).cutAt s n) s

theorem Resumes.afterCuts_mem (h : Resumes view x s) (cuts : List ℕ) :
    x.afterCuts s cuts ∈ x.reached s := by
  unfold afterCuts
  suffices ∀ s' ∈ x.reached s,
      cuts.foldl (fun s n => (x s).cutAt s n) s' ∈ x.reached s from
    this s (mem_reached_self x s)
  induction cuts with
  | nil => exact fun s' hs' => hs'
  | cons n rest ih =>
      intro s' hs'
      have hcut : (x s').cutAt s' n ∈ x.reached s := by
        rcases List.mem_cons.mp (cutAt_mem_reached x s' n) with hcut | hcut
        · rw [hcut]
          exact hs'
        · exact (h s' hs').commits_subset hcut
      exact ih _ hcut

/-- After any cuts, a run ends as the first one would have. -/
theorem Resumes.afterCuts (h : Resumes view x s) (cuts : List ℕ) :
    Redoes view x s x (x.afterCuts s cuts) :=
  h _ (h.afterCuts_mem cuts)

end PredictiveAutoscaler.Durable
