/-
Regular expressions on characters: what a matching text is made of, and the
two readings of a pattern's end, the end of the text or also the place before
a final line feed.
-/
import Mathlib.Computability.RegularExpressions

namespace PredictiveAutoscaler

abbrev Pattern := RegularExpression Char

namespace Pattern

/-- `[…]` -/
def oneOf : List Char → Pattern
  | [] => 0
  | c :: cs => .char c + oneOf cs

/-- `(p)?` -/
def opt (p : Pattern) : Pattern := 1 + p

/-- `(p){n}` -/
def times (p : Pattern) : ℕ → Pattern
  | 0 => 1
  | n + 1 => p * times p n

/-- The characters that a pattern names. -/
def chars : Pattern → List Char
  | .zero => []
  | .epsilon => []
  | .char c => [c]
  | .plus p q => chars p ++ chars q
  | .comp p q => chars p ++ chars q
  | .star p => chars p

/-- A matching text is made of the characters that its pattern names. -/
theorem mem_chars_of_rmatch {p : Pattern} {s : List Char}
    (h : p.rmatch s = true) : ∀ c ∈ s, c ∈ p.chars := by
  induction p generalizing s with
  | zero => exact absurd ((RegularExpression.zero_rmatch s).symm.trans h) nofun
  | epsilon =>
      rw [(RegularExpression.one_rmatch_iff s).mp h]
      exact fun c hc => absurd hc List.not_mem_nil
  | char a =>
      rw [(RegularExpression.char_rmatch_iff a s).mp h]
      exact fun c hc => hc
  | plus p q ihp ihq =>
      intro c hc
      rcases (RegularExpression.add_rmatch_iff p q s).mp h with hp | hq
      · exact List.mem_append_left _ (ihp hp c hc)
      · exact List.mem_append_right _ (ihq hq c hc)
  | comp p q ihp ihq =>
      intro c hc
      obtain ⟨x, y, rfl, hx, hy⟩ :=
        (RegularExpression.mul_rmatch_iff p q s).mp h
      rcases List.mem_append.mp hc with hc | hc
      · exact List.mem_append_left _ (ihp hx c hc)
      · exact List.mem_append_right _ (ihq hy c hc)
  | star p ih =>
      intro c hc
      obtain ⟨parts, rfl, hparts⟩ :=
        (RegularExpression.star_rmatch_iff p s).mp h
      obtain ⟨x, hx, hcx⟩ := List.mem_flatten.mp hc
      exact ih (hparts x hx).2 c hcx

theorem chars_oneOf (cs : List Char) : (oneOf cs).chars = cs := by
  induction cs with
  | nil => rfl
  | cons c cs ih => exact congrArg (c :: ·) ih

@[simp] theorem chars_mul (p q : Pattern) :
    chars (p * q) = chars p ++ chars q := rfl

@[simp] theorem chars_opt (p : Pattern) : chars (opt p) = chars p := rfl

@[simp] theorem chars_star (p : Pattern) :
    chars (RegularExpression.star p) = chars p := rfl

theorem mem_chars_times {p : Pattern} {n : ℕ} {c : Char}
    (h : c ∈ (times p n).chars) : c ∈ p.chars := by
  induction n with
  | zero => exact absurd h List.not_mem_nil
  | succ n ih =>
      rcases List.mem_append.mp h with h | h
      · exact h
      · exact ih h

/-- `^p$` where the end is the end of the text or the place before a final
line feed. -/
def matchLine (p : Pattern) (s : List Char) : Bool :=
  p.rmatch s || (s.getLast? == some '\n' && p.rmatch s.dropLast)

theorem matchLine_iff {p : Pattern} {s : List Char} :
    p.matchLine s = true ↔
      p.rmatch s = true ∨ ∃ x, s = x ++ ['\n'] ∧ p.rmatch x = true := by
  unfold matchLine
  rw [Bool.or_eq_true, Bool.and_eq_true, beq_iff_eq]
  refine or_congr_right ⟨?_, ?_⟩
  · rintro ⟨hlast, hp⟩
    obtain ⟨x, rfl⟩ := List.getLast?_eq_some_iff.mp hlast
    rw [List.dropLast_concat] at hp
    exact ⟨x, rfl, hp⟩
  · rintro ⟨x, rfl, hp⟩
    rw [List.dropLast_concat, List.getLast?_concat]
    exact ⟨rfl, hp⟩

/-- A text that the pattern's line reading admits is made of the pattern's
characters exactly when it is not a match with a line feed after it. -/
theorem made_of_iff {p : Pattern} {cs : List Char}
    (hchars : ∀ c ∈ p.chars, c ∈ cs) (hfeed : '\n' ∉ cs) {s : List Char} :
    (p.matchLine s = true → ∀ c ∈ s, c ∈ cs) ↔
      ∀ x, s = x ++ ['\n'] → ¬p.rmatch x = true := by
  constructor
  · rintro h x rfl hp
    have hline := matchLine_iff.mpr (.inr ⟨x, rfl, hp⟩)
    exact hfeed (h hline '\n' (List.mem_append_right x List.mem_cons_self))
  · intro h hline c hc
    rcases matchLine_iff.mp hline with hp | ⟨x, hx, hp⟩
    · exact hchars c (mem_chars_of_rmatch hp c hc)
    · exact absurd hp (h x hx)

/-- The same of the texts up to a length. -/
theorem short_made_of_iff {p : Pattern} {cs : List Char}
    (hchars : ∀ c ∈ p.chars, c ∈ cs) (hfeed : '\n' ∉ cs) {s : List Char}
    (n : ℕ) :
    ((decide (s.length ≤ n) && p.matchLine s) = true → ∀ c ∈ s, c ∈ cs) ↔
      ∀ x, s = x ++ ['\n'] → x.length < n → ¬p.rmatch x = true := by
  rw [Bool.and_eq_true, decide_eq_true_eq, and_imp,
    made_of_iff hchars hfeed]
  refine ⟨fun h x hx hlt => h ?_ x hx, fun h hle x hx => h x hx ?_⟩
  · rw [hx, List.length_append]
    exact hlt
  · rw [hx, List.length_append] at hle
    exact hle

end Pattern

end PredictiveAutoscaler
