/-
Texts of times.  A text is matched against a template of digits and literals
under any reading of digits, and written from the digits; what is written is
matched.  The Unicode decimal digits are those of version 15.
-/
import PredictiveAutoscaler.CanonicalJson
import PredictiveAutoscaler.CivilTime

namespace PredictiveAutoscaler

/-- A place of a template. -/
inductive Slot
  | digit
  | lit (c : Char)
deriving DecidableEq, Repr

def asciiDigit (c : Char) : Option ℕ :=
  if 48 ≤ c.toNat ∧ c.toNat ≤ 57 then some (c.toNat - 48) else none

/-- The code points of the decimal zeros, each followed by its nine digits. -/
def decimalZeros : List ℕ :=
  [48, 1632, 1776, 1984, 2406, 2534, 2662, 2790, 2918, 3046, 3174, 3302, 3430,
    3558, 3664, 3792, 3872, 4160, 4240, 6112, 6160, 6470, 6608, 6784, 6800,
    6992, 7088, 7232, 7248, 42528, 43216, 43264, 43472, 43504, 43600, 44016,
    65296, 66720, 68912, 69734, 69872, 69942, 70096, 70384, 70736, 70864,
    71248, 71360, 71472, 71904, 72016, 72784, 73040, 73120, 73552, 92768,
    92864, 93008, 120782, 120792, 120802, 120812, 120822, 123200, 123632,
    124144, 125264, 130032]

/-- The value of a Unicode decimal digit. -/
def decimalDigit (c : Char) : Option ℕ :=
  (decimalZeros.find? fun z => z ≤ c.toNat ∧ c.toNat < z + 10).map
    fun z => c.toNat - z

/-- The digits of a text that matches a template. -/
def matchSlots (value : Char → Option ℕ) : List Slot → List Char → Option (List ℕ)
  | [], [] => some []
  | .digit :: p, c :: cs => do
      let d ← value c
      let ds ← matchSlots value p cs
      return d :: ds
  | .lit l :: p, c :: cs => if c = l then matchSlots value p cs else none
  | _, _ => none

/-- The text of a template with these digits. -/
def writeSlots : List Slot → List ℕ → List Char
  | .lit l :: p, ds => l :: writeSlots p ds
  | .digit :: p, d :: ds => Nat.digitChar d :: writeSlots p ds
  | _, _ => []

/-- `-MM-DDThh:mm:ss` -/
def afterYear : List Slot :=
  [.lit '-', .digit, .digit, .lit '-', .digit, .digit, .lit 'T', .digit,
    .digit, .lit ':', .digit, .digit, .lit ':', .digit, .digit]

/-- `YYYY-MM-DDThh:mm:ssZ` -/
def gridTime : List Slot :=
  .digit :: .digit :: .digit :: .digit :: afterYear ++ [.lit 'Z']

/-- `YYYY-MM-DDThh:mm:ss.fffZ` -/
def milliTime : List Slot :=
  .digit :: .digit :: .digit :: .digit :: afterYear ++
    [.lit '.', .digit, .digit, .digit, .lit 'Z']

/-- The number of a group of digits. -/
def groupValue (ds : List ℕ) : ℕ := ds.foldl (fun n d => 10 * n + d) 0

/-- The last `w` decimal digits of a number. -/
def digitsOf : ℕ → ℕ → List ℕ
  | 0, _ => []
  | w + 1, n => digitsOf w (n / 10) ++ [n % 10]

/-- The civil time of fourteen digits. -/
def civilOfDigits (ds : List ℕ) : CivilTime where
  year := groupValue (ds.take 4)
  month := groupValue ((ds.drop 4).take 2)
  day := groupValue ((ds.drop 6).take 2)
  hour := groupValue ((ds.drop 8).take 2)
  minute := groupValue ((ds.drop 10).take 2)
  second := groupValue ((ds.drop 12).take 2)

/-- The digits of a civil time. -/
def CivilTime.digits (t : CivilTime) : List ℕ :=
  digitsOf 4 t.year.toNat ++ digitsOf 2 t.month.toNat ++
    digitsOf 2 t.day.toNat ++ digitsOf 2 t.hour.toNat ++
    digitsOf 2 t.minute.toNat ++ digitsOf 2 t.second.toNat

theorem digitsOf_length (w n : ℕ) : (digitsOf w n).length = w := by
  induction w generalizing n with
  | zero => rfl
  | succ w ih => simp [digitsOf, ih]

theorem digitsOf_lt {w n d : ℕ} (h : d ∈ digitsOf w n) : d < 10 := by
  induction w generalizing n with
  | zero => cases h
  | succ w ih =>
      rcases List.mem_append.mp h with hd | hd
      · exact ih hd
      · rw [List.mem_singleton.mp hd]
        exact Nat.mod_lt n (by norm_num)

theorem groupValue_digitsOf {w n : ℕ} (h : n < 10 ^ w) :
    groupValue (digitsOf w n) = n := by
  induction w generalizing n with
  | zero =>
      simp at h
      subst h
      rfl
  | succ w ih =>
      have hprefix : groupValue (digitsOf w (n / 10)) = n / 10 := by
        apply ih
        rw [pow_succ] at h
        omega
      unfold groupValue at hprefix ⊢
      rw [digitsOf, List.foldl_append, hprefix]
      simp only [List.foldl_cons, List.foldl_nil]
      omega

/-- A civil time with a year of four digits is recovered from its digits. -/
theorem civilOfDigits_digits {t : CivilTime} (h : t.Valid)
    (hyear : 0 ≤ t.year) (hyear' : t.year ≤ 9999) :
    civilOfDigits t.digits = t := by
  obtain ⟨y, m, d, hh, mi, s⟩ := t
  obtain ⟨hmonth, hmonth', hday, hday', hhour, hhour', hminute, hminute',
    hsecond, hsecond'⟩ := h
  have hmonthDays : daysInMonth y m ≤ 31 := by
    have hleap := leapDays_mem y
    unfold daysInMonth daysBeforeMonth
    dsimp only at hmonth hmonth'
    split_ifs <;> omega
  dsimp only at *
  have hgroup : ∀ w : ℕ, ∀ x : ℤ, 0 ≤ x → x < 10 ^ w →
      (groupValue (digitsOf w x.toNat) : ℤ) = x := by
    intro w x hlow hhigh
    rw [groupValue_digitsOf]
    · exact Int.toNat_of_nonneg hlow
    · zify
      rwa [Int.toNat_of_nonneg hlow]
  have hy := hgroup 4 y hyear (by norm_num; omega)
  have hm := hgroup 2 m (by omega) (by norm_num; omega)
  have hd := hgroup 2 d (by omega) (by norm_num; omega)
  have hh' := hgroup 2 hh hhour (by norm_num; omega)
  have hmi := hgroup 2 mi hminute (by norm_num; omega)
  have hs := hgroup 2 s hsecond (by norm_num; omega)
  simp only [civilOfDigits, CivilTime.digits, CivilTime.mk.injEq]
  refine ⟨?_, ?_, ?_, ?_, ?_, ?_⟩
  all_goals
    simp [List.drop_append, List.drop_eq_nil_of_le,
      List.take_of_length_le, digitsOf_length, *]

theorem asciiDigit_digitChar {d : ℕ} (h : d < 10) :
    asciiDigit (Nat.digitChar d) = some d := by
  interval_cases d <;> decide

/-- The digits of a template. -/
def digitSlots (p : List Slot) : ℕ := p.count .digit

theorem matchSlots_writeSlots {p : List Slot} {ds : List ℕ}
    (hlength : ds.length = digitSlots p) (hlt : ∀ d ∈ ds, d < 10) :
    matchSlots asciiDigit p (writeSlots p ds) = some ds := by
  induction p generalizing ds with
  | nil =>
      rw [List.length_eq_zero_iff.mp hlength]
      rfl
  | cons slot p ih =>
      cases slot with
      | lit l =>
          rw [writeSlots, matchSlots, if_pos rfl]
          apply ih _ hlt
          rw [hlength]
          simp [digitSlots]
      | digit =>
          cases ds with
          | nil => simp [digitSlots] at hlength
          | cons d ds =>
              rw [writeSlots, matchSlots,
                asciiDigit_digitChar (hlt d List.mem_cons_self), ih]
              · rfl
              · simpa [digitSlots] using hlength
              · intro e he
                exact hlt e (List.mem_cons_of_mem d he)

/-- A reading that extends another matches what the other does. -/
theorem matchSlots_mono {value value' : Char → Option ℕ}
    (h : ∀ c d, value c = some d → value' c = some d) {p : List Slot}
    {cs : List Char} {ds : List ℕ} (hmatch : matchSlots value p cs = some ds) :
    matchSlots value' p cs = some ds := by
  induction p generalizing cs ds with
  | nil =>
      cases cs with
      | nil => exact hmatch
      | cons c cs => cases hmatch
  | cons slot p ih =>
      cases cs with
      | nil => cases slot <;> cases hmatch
      | cons c cs =>
          cases slot with
          | lit l =>
              simp only [matchSlots] at hmatch ⊢
              split at hmatch
              · rename_i heq
                rw [if_pos heq]
                exact ih hmatch
              · cases hmatch
          | digit =>
              simp only [matchSlots, bind, Option.bind_eq_some_iff] at hmatch ⊢
              obtain ⟨d, hd, ds', hds', heq⟩ := hmatch
              exact ⟨d, h c d hd, ds', ih hds', heq⟩

/-- Every character of a matched text is a digit of the reading or a literal of
the template. -/
theorem mem_of_matchSlots {value : Char → Option ℕ} {p : List Slot}
    {cs : List Char} {ds : List ℕ} (hmatch : matchSlots value p cs = some ds) :
    ∀ c ∈ cs, (∃ d, value c = some d) ∨ Slot.lit c ∈ p := by
  induction p generalizing cs ds with
  | nil =>
      cases cs with
      | nil => intro c hc; cases hc
      | cons c cs => cases hmatch
  | cons slot p ih =>
      cases cs with
      | nil => cases slot <;> cases hmatch
      | cons c cs =>
          cases slot with
          | lit l =>
              simp only [matchSlots] at hmatch
              split at hmatch
              · rename_i heq
                intro c' hc'
                rcases List.mem_cons.mp hc' with rfl | hc'
                · exact Or.inr (heq ▸ List.mem_cons_self)
                · exact (ih hmatch c' hc').imp_right (List.mem_cons_of_mem _)
              · cases hmatch
          | digit =>
              simp only [matchSlots, bind, Option.bind_eq_some_iff] at hmatch
              obtain ⟨d, hd, ds', hds', -⟩ := hmatch
              intro c' hc'
              rcases List.mem_cons.mp hc' with rfl | hc'
              · exact Or.inl ⟨d, hd⟩
              · exact (ih hds' c' hc').imp_right (List.mem_cons_of_mem _)

theorem asciiDigit_eq_some {c : Char} {d : ℕ} (h : asciiDigit c = some d) :
    d < 10 ∧ Nat.digitChar d = c ∧ c.toNat < 128 := by
  unfold asciiDigit at h
  split at h
  · rename_i hc
    cases h
    have hd : c.toNat - 48 < 10 := by omega
    refine ⟨hd, ?_, by omega⟩
    have hdigit : asciiDigit (Nat.digitChar (c.toNat - 48)) =
        some (c.toNat - 48) := asciiDigit_digitChar hd
    apply Char.toNat_inj.mp
    unfold asciiDigit at hdigit
    split at hdigit
    · rename_i hc'
      have := Option.some.inj hdigit
      omega
    · cases hdigit
  · cases h

/-- On ASCII text the decimal digits are those of ASCII. -/
theorem decimalDigit_of_ascii {c : Char} (h : c.toNat < 128) :
    decimalDigit c = asciiDigit c := by
  unfold decimalDigit asciiDigit
  by_cases hc : 48 ≤ c.toNat ∧ c.toNat < 58
  · rw [if_pos ⟨hc.1, by omega⟩, decimalZeros,
      List.find?_cons_of_pos (by simpa using hc)]
    rfl
  · have hnone : decimalZeros.find? (fun z => z ≤ c.toNat ∧
        c.toNat < z + 10) = none := by
      refine List.find?_eq_none.mpr fun z hz => ?_
      have hzeros : z = 48 ∨ 128 ≤ z := by
        revert z
        decide
      simp only [decide_eq_true_eq]
      omega
    rw [hnone, if_neg (by omega)]
    rfl

theorem matchSlots_length {value : Char → Option ℕ} {p : List Slot}
    {cs : List Char} {ds : List ℕ} (h : matchSlots value p cs = some ds) :
    cs.length = p.length ∧ ds.length = digitSlots p := by
  induction p generalizing cs ds with
  | nil =>
      cases cs with
      | nil => cases h; exact ⟨rfl, rfl⟩
      | cons c cs => cases h
  | cons slot p ih =>
      cases cs with
      | nil => cases slot <;> cases h
      | cons c cs =>
          cases slot with
          | lit l =>
              simp only [matchSlots] at h
              split at h
              · obtain ⟨hcs, hds⟩ := ih h
                exact ⟨congrArg (· + 1) hcs, by simpa [digitSlots] using hds⟩
              · cases h
          | digit =>
              simp only [matchSlots, bind, Option.bind_eq_some_iff] at h
              obtain ⟨d, -, ds', hds', heq⟩ := h
              obtain ⟨hcs, hds⟩ := ih hds'
              cases heq
              exact ⟨congrArg (· + 1) hcs, by simpa [digitSlots] using hds⟩

/-- A text matched in ASCII digits is what is written from them. -/
theorem writeSlots_matchSlots {p : List Slot} {cs : List Char} {ds : List ℕ}
    (h : matchSlots asciiDigit p cs = some ds) :
    writeSlots p ds = cs ∧ ∀ d ∈ ds, d < 10 := by
  induction p generalizing cs ds with
  | nil =>
      cases cs with
      | nil => cases h; exact ⟨rfl, fun d hd => absurd hd List.not_mem_nil⟩
      | cons c cs => cases h
  | cons slot p ih =>
      cases cs with
      | nil => cases slot <;> cases h
      | cons c cs =>
          cases slot with
          | lit l =>
              simp only [matchSlots] at h
              split at h
              · rename_i heq
                obtain ⟨hwrite, hlt⟩ := ih h
                exact ⟨by rw [writeSlots, hwrite, heq], hlt⟩
              · cases h
          | digit =>
              simp only [matchSlots, bind, Option.bind_eq_some_iff] at h
              obtain ⟨d, hd, ds', hds', heq⟩ := h
              obtain ⟨hwrite, hlt⟩ := ih hds'
              obtain ⟨hd10, hchar, -⟩ := asciiDigit_eq_some hd
              cases heq
              refine ⟨by rw [writeSlots, hwrite, hchar], fun e he => ?_⟩
              rcases List.mem_cons.mp he with rfl | he
              · exact hd10
              · exact hlt e he

/-- Two readings that agree on a text's characters match it alike. -/
theorem matchSlots_congr {value value' : Char → Option ℕ} {p : List Slot}
    {cs : List Char} (h : ∀ c ∈ cs, value c = value' c) :
    matchSlots value p cs = matchSlots value' p cs := by
  induction p generalizing cs with
  | nil => cases cs <;> rfl
  | cons slot p ih =>
      cases cs with
      | nil => cases slot <;> rfl
      | cons c cs =>
          have hrest := ih fun e he => h e (List.mem_cons_of_mem c he)
          cases slot with
          | lit l => simp only [matchSlots, hrest]
          | digit =>
              simp only [matchSlots, hrest, h c List.mem_cons_self]

theorem digitsOf_groupValue {ds : List ℕ} (h : ∀ d ∈ ds, d < 10) :
    digitsOf ds.length (groupValue ds) = ds := by
  induction ds using List.reverseRecOn with
  | nil => rfl
  | append_singleton ds d ih =>
      have hd : d < 10 := h d (List.mem_append_right ds List.mem_cons_self)
      have hds := ih fun e he => h e (List.mem_append_left [d] he)
      have hvalue : groupValue (ds ++ [d]) = 10 * groupValue ds + d := by
        simp [groupValue, List.foldl_append]
      rw [List.length_append, List.length_singleton, hvalue, digitsOf,
        show (10 * groupValue ds + d) / 10 = groupValue ds by omega,
        show (10 * groupValue ds + d) % 10 = d by omega, hds]

/-- The digits of a civil time read off digits are those digits. -/
theorem digits_civilOfDigits {ds : List ℕ} (hlength : 14 ≤ ds.length)
    (h : ∀ d ∈ ds, d < 10) : (civilOfDigits ds).digits = ds.take 14 := by
  have hgroup : ∀ k w, k + w ≤ ds.length →
      digitsOf w (groupValue ((ds.drop k).take w)) = (ds.drop k).take w := by
    intro k w hk
    have hw : ((ds.drop k).take w).length = w := by simp; omega
    have hlt : ∀ d ∈ (ds.drop k).take w, d < 10 := fun d hd =>
      h d (List.mem_of_mem_drop (List.mem_of_mem_take hd))
    have hds := digitsOf_groupValue hlt
    rwa [hw] at hds
  have hyear := hgroup 0 4 (by omega)
  rw [List.drop_zero] at hyear
  simp only [CivilTime.digits, civilOfDigits, Int.toNat_natCast, hyear,
    hgroup 4 2 (by omega), hgroup 6 2 (by omega), hgroup 8 2 (by omega),
    hgroup 10 2 (by omega), hgroup 12 2 (by omega)]
  have hsplit : ∀ k w, ds.take k ++ (ds.drop k).take w = ds.take (k + w) :=
    fun k w => (List.take_add ..).symm
  rw [hsplit 4 2, hsplit 6 2, hsplit 8 2, hsplit 10 2, hsplit 12 2]

/-- Every digit that is matched is one of the text's characters. -/
theorem digit_of_matchSlots {value : Char → Option ℕ} {p : List Slot}
    {cs : List Char} {ds : List ℕ} (h : matchSlots value p cs = some ds) :
    ∀ d ∈ ds, ∃ c ∈ cs, value c = some d := by
  induction p generalizing cs ds with
  | nil =>
      cases cs with
      | nil => cases h; exact fun d hd => absurd hd List.not_mem_nil
      | cons c cs => cases h
  | cons slot p ih =>
      cases cs with
      | nil => cases slot <;> cases h
      | cons c cs =>
          have hrest : ∀ {ds}, matchSlots value p cs = some ds →
              ∀ d ∈ ds, ∃ e ∈ c :: cs, value e = some d := by
            intro ds hds d hd
            obtain ⟨e, he, hvalue⟩ := ih hds d hd
            exact ⟨e, List.mem_cons_of_mem c he, hvalue⟩
          cases slot with
          | lit l =>
              simp only [matchSlots] at h
              split at h
              · exact hrest h
              · cases h
          | digit =>
              simp only [matchSlots, bind, Option.bind_eq_some_iff] at h
              obtain ⟨d, hd, ds', hds', heq⟩ := h
              cases heq
              intro e he
              rcases List.mem_cons.mp he with rfl | he
              · exact ⟨c, List.mem_cons_self, hd⟩
              · exact hrest hds' e he

theorem groupValue_lt {ds : List ℕ} (h : ∀ d ∈ ds, d < 10) :
    groupValue ds < 10 ^ ds.length := by
  induction ds using List.reverseRecOn with
  | nil => exact Nat.one_pos
  | append_singleton ds d ih =>
      have hd : d < 10 := h d (List.mem_append_right ds List.mem_cons_self)
      have hds := ih fun e he => h e (List.mem_append_left [d] he)
      have hvalue : groupValue (ds ++ [d]) = 10 * groupValue ds + d := by
        simp [groupValue, List.foldl_append]
      rw [List.length_append, List.length_singleton, hvalue, pow_succ]
      omega

theorem writeSlots_append {p : List Slot} (q : List Slot) {ds : List ℕ}
    (es : List ℕ) (h : ds.length = digitSlots p) :
    writeSlots (p ++ q) (ds ++ es) = writeSlots p ds ++ writeSlots q es := by
  induction p generalizing ds with
  | nil =>
      rw [List.length_eq_zero_iff.mp h]
      rfl
  | cons slot p ih =>
      cases slot with
      | lit l =>
          have hrest : ds.length = digitSlots p := by simpa [digitSlots] using h
          exact congrArg (l :: ·) (ih hrest)
      | digit =>
          cases ds with
          | nil => simp [digitSlots] at h
          | cons d ds =>
              have hrest : ds.length = digitSlots p := by
                simpa [digitSlots] using h
              exact congrArg (Nat.digitChar d :: ·) (ih hrest)

theorem writeSlots_digits (ds : List ℕ) :
    writeSlots (List.replicate ds.length .digit) ds =
      ds.map Nat.digitChar := by
  induction ds with
  | nil => rfl
  | cons d ds ih => exact congrArg (Nat.digitChar d :: ·) ih

theorem CivilTime.digits_length (t : CivilTime) : t.digits.length = 14 := by
  simp [CivilTime.digits, digitsOf_length]

theorem CivilTime.digits_lt {t : CivilTime} {d : ℕ} (h : d ∈ t.digits) :
    d < 10 := by
  simp only [CivilTime.digits, List.mem_append] at h
  rcases h with ((((h | h) | h) | h) | h) | h <;> exact digitsOf_lt h

/-- What follows the digits of a civil time is not read. -/
theorem civilOfDigits_append (t : CivilTime) (es : List ℕ) :
    civilOfDigits (t.digits ++ es) = civilOfDigits t.digits := by
  have hlength := t.digits_length
  have htake : ∀ k w, k + w ≤ 14 →
      ((t.digits ++ es).drop k).take w = (t.digits.drop k).take w := by
    intro k w hk
    rw [List.drop_append_of_le_length (by omega),
      List.take_append_of_le_length (by simp; omega)]
  have hyear := htake 0 4 (by omega)
  rw [List.drop_zero, List.drop_zero] at hyear
  simp only [civilOfDigits, hyear, htake 4 2 (by omega), htake 6 2 (by omega),
    htake 8 2 (by omega), htake 10 2 (by omega), htake 12 2 (by omega)]

end PredictiveAutoscaler
