/-
Programs that talk to a service: they make calls and go on with the replies,
return, or fail.  A program keeps to a discipline when whatever it calls is
permitted by the conversation so far, whatever the replies are.  A
conversation can be cut off after any reply.
-/
import Mathlib.Data.List.Basic

namespace PredictiveAutoscaler

universe u v w x y

/-- A program whose calls have replies of their own types. -/
inductive Talk (Call : Type u) (Reply : Call → Type v) (Err : Type x)
    (α : Type w)
  | done (a : α)
  | fail (err : Err)
  | call (c : Call) (next : Reply c → Talk Call Reply Err α)

namespace Talk

variable {Call : Type u} {Reply : Call → Type v} {Err : Type x}
  {α β : Type w}

/-- A conversation: the calls so far with their replies. -/
abbrev Past (Reply : Call → Type v) := List (Sigma Reply)

def bind (p : Talk Call Reply Err α) (f : α → Talk Call Reply Err β) :
    Talk Call Reply Err β :=
  match p with
  | done a => f a
  | fail err => fail err
  | call c next => call c fun r => (next r).bind f

instance : Monad (Talk Call Reply Err) where
  pure := done
  bind := bind

/-- Run a program for each of the items, in order. -/
def each {A : Type y} (f : A → Talk Call Reply Err PUnit.{w + 1}) :
    List A → Talk Call Reply Err PUnit.{w + 1}
  | [] => done ⟨⟩
  | a :: rest => (f a).bind fun _ => each f rest

/-- The conversations of a program, each with what it would do next. -/
inductive Reaches (p : Talk Call Reply Err α) :
    Past Reply → Talk Call Reply Err α → Prop
  | start : Reaches p [] p
  | reply {past : Past Reply} {c : Call}
      {next : Reply c → Talk Call Reply Err α}
      (h : Reaches p past (call c next)) (r : Reply c) :
      Reaches p (past ++ [⟨c, r⟩]) (next r)

section Keeps

variable {permits : Past Reply → Call → Prop}

/-- After a conversation, every further call is permitted when it is made, and
every return meets the postcondition. -/
def Keeps (permits : Past Reply → Call → Prop)
    (post : α → Past Reply → Prop) :
    Talk Call Reply Err α → Past Reply → Prop
  | done a, past => post a past
  | fail _, _ => True
  | call c next, past =>
      permits past c ∧ ∀ r, (next r).Keeps permits post (past ++ [⟨c, r⟩])

theorem Keeps.mono {post post' : α → Past Reply → Prop}
    {p : Talk Call Reply Err α} {past : Past Reply}
    (h : p.Keeps permits post past)
    (himp : ∀ a past, post a past → post' a past) :
    p.Keeps permits post' past := by
  induction p generalizing past with
  | done a => exact himp a past h
  | fail err => exact trivial
  | call c next ih => exact ⟨h.1, fun r => ih r (h.2 r)⟩

theorem Keeps.bind {post : α → Past Reply → Prop}
    {post' : β → Past Reply → Prop} {p : Talk Call Reply Err α}
    {f : α → Talk Call Reply Err β} {past : Past Reply}
    (h : p.Keeps permits post past)
    (hf : ∀ a past, post a past → (f a).Keeps permits post' past) :
    (p >>= f).Keeps permits post' past := by
  induction p generalizing past with
  | done a => exact hf a past h
  | fail err => exact trivial
  | call c next ih => exact ⟨h.1, fun r => ih r (h.2 r)⟩

/-- A loop keeps to a discipline that each of its rounds keeps to, with an
invariant from round to round. -/
theorem keeps_each {A : Type y} {f : A → Talk Call Reply Err PUnit.{w + 1}}
    (inv : Past Reply → Prop) {items : List A}
    (hf : ∀ a ∈ items, ∀ past, inv past →
      (f a).Keeps permits (fun _ past => inv past) past)
    {past : Past Reply} (h : inv past) :
    (each f items).Keeps permits (fun _ past => inv past) past := by
  induction items generalizing past with
  | nil => exact h
  | cons a rest ih =>
      apply (hf a List.mem_cons_self past h).bind
      intro _ past hinv
      exact ih (fun b hb => hf b (List.mem_cons_of_mem _ hb)) hinv

/-- After any conversation a program keeps to the discipline, and what it adds
to the conversation until it returns is as described. -/
def Says (permits : Past Reply → Call → Prop) (p : Talk Call Reply Err α)
    (said : α → Past Reply → Prop) : Prop :=
  ∀ past, p.Keeps permits
    (fun a past' => ∃ added, past' = past ++ added ∧ said a added) past

theorem says_done {said : α → Past Reply → Prop} {a : α} (h : said a []) :
    Says permits (done a : Talk Call Reply Err α) said :=
  fun past => ⟨[], (List.append_nil past).symm, h⟩

theorem says_fail (said : α → Past Reply → Prop) (err : Err) :
    Says permits (fail err : Talk Call Reply Err α) said :=
  fun _ => trivial

theorem Says.mono {p : Talk Call Reply Err α}
    {said said' : α → Past Reply → Prop} (h : Says permits p said)
    (himp : ∀ a added, said a added → said' a added) :
    Says permits p said' := by
  intro past
  apply (h past).mono
  rintro a _ ⟨added, rfl, hsaid⟩
  exact ⟨added, rfl, himp a added hsaid⟩

theorem Says.bind {p : Talk Call Reply Err α} {f : α → Talk Call Reply Err β}
    {said : α → Past Reply → Prop} {said' : β → Past Reply → Prop}
    (h : Says permits p said)
    (hf : ∀ a added, said a added →
      Says permits (f a) fun b more => said' b (added ++ more)) :
    Says permits (p >>= f) said' := by
  intro past
  apply (h past).bind
  rintro a _ ⟨added, rfl, hsaid⟩
  apply (hf a added hsaid (past ++ added)).mono
  rintro b _ ⟨more, rfl, hmore⟩
  exact ⟨added ++ more, List.append_assoc _ _ _, hmore⟩

/-- A call that is always permitted, and what is done with its reply. -/
theorem says_call {c : Call} {next : Reply c → Talk Call Reply Err α}
    {said : α → Past Reply → Prop} (hc : ∀ past, permits past c)
    (h : ∀ r, Says permits (next r) fun a more => said a (⟨c, r⟩ :: more)) :
    Says permits (call c next) said := by
  intro past
  refine ⟨hc past, fun r => ?_⟩
  apply (h r (past ++ [Sigma.mk c r])).mono
  rintro a _ ⟨more, rfl, hmore⟩
  refine ⟨⟨c, r⟩ :: more, ?_, hmore⟩
  rw [List.append_assoc, List.singleton_append]

/-- What a program keeps to from the start, it keeps to in every
conversation. -/
theorem Keeps.reaches {post : α → Past Reply → Prop}
    {p q : Talk Call Reply Err α} {past : Past Reply}
    (h : p.Keeps permits post []) (hreach : Reaches p past q) :
    q.Keeps permits post past := by
  induction hreach with
  | start => exact h
  | reply _ r ih => exact ih.2 r

/-- Every call is permitted when it is made, in every conversation that the
program can have. -/
def Obeys (permits : Past Reply → Call → Prop) (p : Talk Call Reply Err α) :
    Prop :=
  ∀ past c next, Reaches p past (call c next) → permits past c

theorem Keeps.obeys {post : α → Past Reply → Prop}
    {p : Talk Call Reply Err α} (h : p.Keeps permits post []) :
    Obeys permits p :=
  fun _ _ _ hreach => (h.reaches hreach).1

end Keeps

end Talk

end PredictiveAutoscaler
