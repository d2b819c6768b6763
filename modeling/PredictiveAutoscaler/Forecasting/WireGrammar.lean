/-
The grammars of the wire: the times that the service writes and reads, the
references that it admits, and the operator's reading of the same times.
-/
import PredictiveAutoscaler.Forecasting.Contracts
import PredictiveAutoscaler.ForecastV2.Response
import PredictiveAutoscaler.TextPattern

namespace PredictiveAutoscaler.Forecasting

open ForecastV2 Pattern

/-- `[a-z0-9]` -/
def alphanumerics : List Char := "abcdefghijklmnopqrstuvwxyz0123456789".toList

def hexDigits : List Char := "0123456789abcdef".toList

/-- `[a-z0-9]([-a-z0-9]*[a-z0-9])?` -/
def dnsLabel : Pattern :=
  oneOf alphanumerics *
    opt (.star (oneOf ('-' :: alphanumerics)) * oneOf alphanumerics)

/-- A label and more of them, each after a dot. -/
def dnsSubdomain : Pattern := dnsLabel * .star (.char '.' * dnsLabel)

/-- `[0-9a-f]{64}` -/
def sha256Pattern : Pattern := times (oneOf hexDigits) 64

/-- `_SHA256.match` -/
def isSha256 (v : String) : Bool := sha256Pattern.matchLine v.toList

def validNamespace (v : String) : Bool :=
  decide (v.length ≤ 63) && dnsLabel.matchLine v.toList

def validName (v : String) : Bool :=
  decide (v.length ≤ 253) && dnsSubdomain.matchLine v.toList

/-- `datetime(…, tzinfo=timezone.utc)`, in epoch seconds. -/
def datetime (t : CivilTime) : Except String ℤ :=
  if ¬(1 ≤ t.year ∧ t.year ≤ 9999) then .error s!"year {t.year} is out of range"
  else if ¬(1 ≤ t.month ∧ t.month ≤ 12) then .error "month must be in 1..12"
  else if ¬(1 ≤ t.day ∧ t.day ≤ daysInMonth t.year t.month) then
    .error "day is out of range for month"
  else if ¬(0 ≤ t.hour ∧ t.hour < 24) then .error "hour must be in 0..23"
  else if ¬(0 ≤ t.minute ∧ t.minute < 60) then .error "minute must be in 0..59"
  else if ¬(0 ≤ t.second ∧ t.second < 60) then .error "second must be in 0..59"
  else .ok t.unix

/-- The groups of `_TS`: the civil time, and the milliseconds when there are
any.  `\d` is any decimal digit. -/
def timeGroups (cs : List Char) : Option (CivilTime × Option ℕ) :=
  match matchSlots decimalDigit gridTime cs with
  | some ds => some (civilOfDigits ds, none)
  | none =>
      (matchSlots decimalDigit milliTime cs).map fun ds =>
        (civilOfDigits ds, some (groupValue (ds.drop 14)))

/-- `_TS.match`; the pattern's end is also the place before a final line
feed. -/
def matchTime (cs : List Char) : Option (CivilTime × Option ℕ) :=
  (timeGroups cs).or
    (if cs.getLast? = some '\n' then timeGroups cs.dropLast else none)

/-- `_parse` -/
def parseTime (text what : String) : Except Raised (ℤ × Option ℕ) :=
  match matchTime text.toList with
  | none =>
      .error (.contractRefused (s!"{what} '{text}' is not an RFC 3339 UTC " ++
        "timestamp ending in Z"))
  | some (t, frac) =>
      match datetime t with
      | .error e => .error (.contractRefused s!"{what} '{text}': {e}")
      | .ok n => .ok (n, frac)

def parseTs (text : String) (what : String := "timestamp") :
    Except Raised ℤ := do
  let (s, frac) ← parseTime text what
  match frac with
  | some _ =>
      .error (.contractRefused s!"{what} '{text}' must be whole seconds")
  | none => return s

def parseMs (text : String) (what : String := "timestamp") :
    Except Raised ℤ := do
  let (s, frac) ← parseTime text what
  match frac with
  | none =>
      .error (.contractRefused s!"{what} '{text}' must carry milliseconds")
  | some ms => return s * 1000 + ms

/-- `datetime.fromtimestamp(n, tz=timezone.utc)` -/
def fromTimestamp (n : ℤ) : Except Raised CivilTime :=
  let t := civilOf n
  if 1 ≤ t.year ∧ t.year ≤ 9999 then .ok t
  else .error (.valueError s!"year {t.year} is out of range")

section Written

-- Whether the platform's `%Y` pads a year to four digits: the C library of
-- the image does not, a later patch release of the interpreter may.
variable (pads : Bool)

/-- `%Y` -/
def yearDigits (t : CivilTime) : List ℕ :=
  if pads then t.digits.take 4 else (t.digits.take 4).dropWhile (· = 0)

/-- `strftime("%Y-%m-%dT%H:%M:%S")` -/
def strftime (t : CivilTime) : List Char :=
  (yearDigits pads t).map Nat.digitChar ++
    writeSlots afterYear (t.digits.drop 4)

def formatTs (n : ℤ) : Except Raised String := do
  let t ← fromTimestamp n
  return String.ofList (strftime pads t ++ ['Z'])

def formatMs (n : ℤ) : Except Raised String := do
  let t ← fromTimestamp (n / 1000)
  return String.ofList (strftime pads t ++
    '.' :: (digitsOf 3 (n % 1000).toNat).map Nat.digitChar ++ ['Z'])

/-- The first year of the calendar that is written with four digits. -/
def firstYear : ℤ := if pads then 1 else 1000

theorem one_le_firstYear : 1 ≤ firstYear pads := by
  unfold firstYear
  split <;> decide

theorem firstYear_le : firstYear pads ≤ 1000 := by
  unfold firstYear
  split <;> decide

end Written

variable {pads : Bool}

theorem datetime_eq_ok {t : CivilTime} {n : ℤ} : datetime t = .ok n ↔
    t.Valid ∧ 1 ≤ t.year ∧ t.year ≤ 9999 ∧ n = t.unix := by
  rw [CivilTime.valid_iff]
  unfold datetime
  constructor
  · intro h
    split at h
    · cases h
    split at h
    · cases h
    split at h
    · cases h
    split at h
    · cases h
    split at h
    · cases h
    split at h
    · cases h
    rename_i hyear hmonth hday hhour hminute hsecond
    cases h
    rw [not_not] at hyear hmonth hday hhour hminute hsecond
    exact ⟨⟨hmonth, hday, hhour, hminute, hsecond⟩, hyear.1, hyear.2, rfl⟩
  · rintro ⟨⟨hmonth, hday, hhour, hminute, hsecond⟩, hlo, hhi, rfl⟩
    rw [if_neg (not_not.mpr ⟨hlo, hhi⟩), if_neg (not_not.mpr hmonth),
      if_neg (not_not.mpr hday), if_neg (not_not.mpr hhour),
      if_neg (not_not.mpr hminute), if_neg (not_not.mpr hsecond)]

/-- A text read under a template, with a date of the calendar. -/
structure Reads (value : Char → Option ℕ) (p : List Slot) (cs : List Char)
    (ds : List ℕ) : Prop where
  matched : matchSlots value p cs = some ds
  valid : (civilOfDigits ds).Valid

/-- The two templates of times. -/
def IsTime (p : List Slot) : Prop := p = gridTime ∨ p = milliTime

theorem decimalDigit_lt {c : Char} {d : ℕ} (h : decimalDigit c = some d) :
    d < 10 := by
  unfold decimalDigit at h
  obtain ⟨z, hz, rfl⟩ := Option.map_eq_some_iff.mp h
  have := List.find?_some hz
  simp only [decide_eq_true_eq] at this
  omega

theorem asciiDigit_le (c : Char) (d : ℕ) (h : asciiDigit c = some d) :
    decimalDigit c = some d := by
  rw [decimalDigit_of_ascii (asciiDigit_eq_some h).2.2, h]

section Template

variable {p : List Slot} (hp : IsTime p) {cs : List Char} {ds : List ℕ}

include hp

/-- No time holds a line feed. -/
theorem IsTime.no_line_feed {value : Char → Option ℕ}
    (hvalue : value '\n' = none) (h : matchSlots value p cs = some ds) :
    '\n' ∉ cs := by
  intro hfeed
  rcases mem_of_matchSlots h '\n' hfeed with ⟨d, hd⟩ | hlit
  · exact absurd (hvalue.symm.trans hd) nofun
  · rcases hp with rfl | rfl <;> exact absurd hlit (by decide)

theorem IsTime.ascii (h : matchSlots asciiDigit p cs = some ds) :
    ∀ c ∈ cs, c.toNat < 128 := by
  intro c hc
  rcases mem_of_matchSlots h c hc with ⟨d, hd⟩ | hlit
  · exact (asciiDigit_eq_some hd).2.2
  · have hall : ∀ p, IsTime p → ∀ slot ∈ p,
        ∀ l, slot = .lit l → l.toNat < 128 := by
      rintro _ (rfl | rfl) <;> simp [gridTime, milliTime, afterYear]
    exact hall p hp _ hlit c rfl

theorem IsTime.fourteen_le {value : Char → Option ℕ}
    (h : matchSlots value p cs = some ds) : 14 ≤ ds.length := by
  rw [(matchSlots_length h).2]
  rcases hp with rfl | rfl <;> decide

end Template

theorem year_le {cs : List Char} {p : List Slot} {ds : List ℕ}
    (h : matchSlots decimalDigit p cs = some ds) :
    (civilOfDigits ds).year ≤ 9999 := by
  have hlt : ∀ d ∈ ds.take 4, d < 10 := by
    intro d hd
    obtain ⟨c, -, hc⟩ := digit_of_matchSlots h d (List.mem_of_mem_take hd)
    exact decimalDigit_lt hc
  have hvalue := groupValue_lt hlt
  have hpow : 10 ^ (ds.take 4).length ≤ 10 ^ 4 :=
    Nat.pow_le_pow_right (by norm_num) (List.length_take_le 4 ds)
  change ((groupValue (ds.take 4) : ℕ) : ℤ) ≤ 9999
  omega

theorem timeGroups_eq_seconds {cs : List Char} {t : CivilTime} :
    timeGroups cs = some (t, none) ↔
      ∃ ds, matchSlots decimalDigit gridTime cs = some ds ∧
        civilOfDigits ds = t := by
  unfold timeGroups
  cases matchSlots decimalDigit gridTime cs with
  | some ds => simp
  | none => simp

theorem timeGroups_eq_millis {cs : List Char} {t : CivilTime} {ms : ℕ} :
    timeGroups cs = some (t, some ms) ↔
      ∃ ds, matchSlots decimalDigit milliTime cs = some ds ∧
        civilOfDigits ds = t ∧ groupValue (ds.drop 14) = ms := by
  unfold timeGroups
  cases hgrid : matchSlots decimalDigit gridTime cs with
  | none => simp
  | some ds =>
      -- The two templates have different lengths.
      have hmilli : matchSlots decimalDigit milliTime cs = none := by
        cases hmilli : matchSlots decimalDigit milliTime cs with
        | none => rfl
        | some ds' =>
            have hshort := (matchSlots_length hgrid).1
            have hlong := (matchSlots_length hmilli).1
            exact absurd (hshort.symm.trans hlong) (by decide)
      simp [hmilli]

theorem decimalDigit_line_feed : decimalDigit '\n' = none := by
  rw [decimalDigit_of_ascii (by decide)]
  rfl

theorem line_feed_notMem_of_timeGroups {cs : List Char}
    {r : CivilTime × Option ℕ} (h : timeGroups cs = some r) : '\n' ∉ cs := by
  obtain ⟨t, ms | ms⟩ := r
  · obtain ⟨ds, hds, -⟩ := timeGroups_eq_seconds.mp h
    exact IsTime.no_line_feed (.inl rfl) decimalDigit_line_feed hds
  · obtain ⟨ds, hds, -⟩ := timeGroups_eq_millis.mp h
    exact IsTime.no_line_feed (.inr rfl) decimalDigit_line_feed hds

/-- A text, or the text and a line feed after it. -/
def Line (cs x : List Char) : Prop := cs = x ∨ cs = x ++ ['\n']

theorem matchTime_eq_some {cs : List Char} {r : CivilTime × Option ℕ} :
    matchTime cs = some r ↔ ∃ x, Line cs x ∧ timeGroups x = some r := by
  unfold matchTime
  rw [Option.or_eq_some_iff]
  constructor
  · rintro (h | ⟨-, h⟩)
    · exact ⟨cs, .inl rfl, h⟩
    · split at h
      · rename_i hlast
        obtain ⟨x, rfl⟩ := List.getLast?_eq_some_iff.mp hlast
        rw [List.dropLast_concat] at h
        exact ⟨x, .inr rfl, h⟩
      · cases h
  · rintro ⟨x, rfl | rfl, h⟩
    · exact .inl h
    · refine .inr ⟨?_, ?_⟩
      · cases hwhole : timeGroups (x ++ ['\n']) with
        | none => rfl
        | some r' =>
            exact absurd (List.mem_append_right x List.mem_cons_self)
              (line_feed_notMem_of_timeGroups hwhole)
      · rw [List.getLast?_concat, if_pos rfl, List.dropLast_concat, h]

theorem parseTime_eq_ok {text what : String} {n : ℤ} {frac : Option ℕ} :
    parseTime text what = .ok (n, frac) ↔
      ∃ x t, Line text.toList x ∧ timeGroups x = some (t, frac) ∧ t.Valid ∧
        1 ≤ t.year ∧ t.year ≤ 9999 ∧ n = t.unix := by
  unfold parseTime
  constructor
  · intro h
    split at h
    · cases h
    · rename_i t frac' hmatch
      split at h
      · cases h
      · rename_i m hm
        cases h
        obtain ⟨x, hx, hgroups⟩ := matchTime_eq_some.mp hmatch
        obtain ⟨hvalid, hlo, hhi, hn⟩ := datetime_eq_ok.mp hm
        exact ⟨x, t, hx, hgroups, hvalid, hlo, hhi, hn⟩
  · rintro ⟨x, t, hx, hgroups, hvalid, hlo, hhi, hn⟩
    rw [matchTime_eq_some.mpr ⟨x, hx, hgroups⟩]
    dsimp only
    rw [datetime_eq_ok.mpr ⟨hvalid, hlo, hhi, hn⟩]

theorem parseTs_eq_ok {text what : String} {n : ℤ} :
    parseTs text what = .ok n ↔
      ∃ x ds, Line text.toList x ∧ Reads decimalDigit gridTime x ds ∧
        1 ≤ (civilOfDigits ds).year ∧ n = (civilOfDigits ds).unix := by
  unfold parseTs
  rw [Except.bind_eq_ok_iff]
  constructor
  · rintro ⟨⟨s, frac⟩, hparse, h⟩
    cases frac with
    | some ms => cases h
    | none =>
        cases h
        obtain ⟨x, t, hx, hgroups, hvalid, hlo, -, hn⟩ :=
          parseTime_eq_ok.mp hparse
        obtain ⟨ds, hds, rfl⟩ := timeGroups_eq_seconds.mp hgroups
        exact ⟨x, ds, hx, ⟨hds, hvalid⟩, hlo, hn⟩
  · rintro ⟨x, ds, hx, ⟨hds, hvalid⟩, hlo, hn⟩
    have hgroups := timeGroups_eq_seconds.mpr ⟨ds, hds, rfl⟩
    exact ⟨(n, none), parseTime_eq_ok.mpr
      ⟨x, _, hx, hgroups, hvalid, hlo, year_le hds, hn⟩, rfl⟩

/-- The milliseconds of the digits of a receipt time. -/
def milliInstant (ds : List ℕ) : ℤ :=
  (civilOfDigits ds).unix * 1000 + groupValue (ds.drop 14)

theorem parseMs_eq_ok {text what : String} {n : ℤ} :
    parseMs text what = .ok n ↔
      ∃ x ds, Line text.toList x ∧ Reads decimalDigit milliTime x ds ∧
        1 ≤ (civilOfDigits ds).year ∧ n = milliInstant ds := by
  unfold parseMs
  rw [Except.bind_eq_ok_iff]
  constructor
  · rintro ⟨⟨s, frac⟩, hparse, h⟩
    cases frac with
    | none => cases h
    | some ms =>
        cases h
        obtain ⟨x, t, hx, hgroups, hvalid, hlo, -, rfl⟩ :=
          parseTime_eq_ok.mp hparse
        obtain ⟨ds, hds, rfl, rfl⟩ := timeGroups_eq_millis.mp hgroups
        exact ⟨x, ds, hx, ⟨hds, hvalid⟩, hlo, rfl⟩
  · rintro ⟨x, ds, hx, ⟨hds, hvalid⟩, hlo, rfl⟩
    have hgroups := timeGroups_eq_millis.mpr ⟨ds, hds, rfl, rfl⟩
    exact ⟨(_, some (groupValue (ds.drop 14))), parseTime_eq_ok.mpr
      ⟨x, _, hx, hgroups, hvalid, hlo, year_le hds, rfl⟩, rfl⟩

theorem v2ParseTS_eq_ok {text what : String} {n : ℤ} :
    v2ParseTS text what = .ok n ↔
      ∃ ds, Reads asciiDigit gridTime text.toList ds ∧
        n = (civilOfDigits ds).unix := by
  unfold v2ParseTS
  constructor
  · intro h
    split at h
    · cases h
    · rename_i ds hds
      obtain ⟨hvalid, hn⟩ := v2Civil_eq_ok.mp h
      exact ⟨ds, ⟨hds, hvalid⟩, hn⟩
  · rintro ⟨ds, ⟨hds, hvalid⟩, hn⟩
    rw [hds]
    exact v2Civil_eq_ok.mpr ⟨hvalid, hn⟩

theorem v2ParseMS_eq_ok {text what : String} {n : ℤ} :
    v2ParseMS text what = .ok n ↔
      ∃ ds, Reads asciiDigit milliTime text.toList ds ∧
        n = milliInstant ds := by
  unfold v2ParseMS
  constructor
  · intro h
    split at h
    · cases h
    · rename_i ds hds
      obtain ⟨s, hs, h⟩ := Except.bind_eq_ok_iff.mp h
      obtain ⟨hvalid, rfl⟩ := v2Civil_eq_ok.mp hs
      cases h
      exact ⟨ds, ⟨hds, hvalid⟩, rfl⟩
  · rintro ⟨ds, ⟨hds, hvalid⟩, rfl⟩
    rw [hds]
    exact Except.bind_eq_ok_iff.mpr
      ⟨_, v2Civil_eq_ok.mpr ⟨hvalid, rfl⟩, rfl⟩

theorem dropWhile_zero_iff {ds : List ℕ} (hlength : ds.length = 4)
    (hlt : ∀ d ∈ ds, d < 10) :
    ds.dropWhile (· = 0) = ds ↔ 1000 ≤ groupValue ds := by
  obtain ⟨a, b, c, d, rfl⟩ : ∃ a b c d, ds = [a, b, c, d] := by
    match ds, hlength with
    | [a, b, c, d], _ => exact ⟨a, b, c, d, rfl⟩
  have hb : b < 10 := hlt b (by simp)
  have hc : c < 10 := hlt c (by simp)
  have hd : d < 10 := hlt d (by simp)
  have hvalue : groupValue [a, b, c, d] = 1000 * a + 100 * b + 10 * c + d := by
    simp only [groupValue, List.foldl_cons, List.foldl_nil]
    ring
  rw [hvalue]
  rcases Nat.eq_zero_or_pos a with rfl | ha
  · refine iff_of_false (fun h => ?_) (by omega)
    have hshort := (List.dropWhile_suffix (l := [b, c, d])
      (fun n => decide (n = 0))).length_le
    rw [List.dropWhile_cons_of_pos (by simp)] at h
    rw [h] at hshort
    exact absurd hshort (by simp)
  · refine iff_of_true ?_ (by omega)
    rw [List.dropWhile_cons_of_neg (by simpa using ha.ne')]

theorem take_four (ds : List ℕ) : (ds.take 14).take 4 = ds.take 4 := by
  rw [List.take_take]
  rfl

/-- The year, the rest of the civil time and what follows. -/
theorem writeSlots_time {p : List Slot} {ds : List ℕ}
    (hlength : 14 ≤ ds.length) :
    writeSlots (List.replicate 4 .digit ++ (afterYear ++ p)) ds =
      (ds.take 4).map Nat.digitChar ++
        writeSlots afterYear ((ds.take 14).drop 4) ++
        writeSlots p (ds.drop 14) := by
  have hyear : (ds.take 4).length = 4 := by simp; omega
  have hrest : ((ds.take 14).drop 4).length = digitSlots afterYear := by
    simp [digitSlots, afterYear]
    omega
  have hsplit : ds = ds.take 4 ++ ((ds.take 14).drop 4 ++ ds.drop 14) :=
    calc ds = ds.take 14 ++ ds.drop 14 := (List.take_append_drop 14 ds).symm
      _ = (ds.take 4 ++ (ds.take 14).drop 4) ++ ds.drop 14 := by
        rw [← take_four ds, List.take_append_drop 4]
      _ = _ := List.append_assoc _ _ _
  have hwrite := writeSlots_digits (ds.take 4)
  rw [hyear] at hwrite
  conv_lhs => rw [hsplit]
  rw [writeSlots_append _ _ (by rw [hyear]; rfl), hwrite,
    writeSlots_append _ _ hrest, List.append_assoc]

/-- What is written of a civil time that was read is the text exactly when the
year has four digits. -/
theorem strftime_append_iff {ds : List ℕ} (hlength : 14 ≤ ds.length)
    (hlt : ∀ d ∈ ds, d < 10) (hlo : 1 ≤ (civilOfDigits ds).year)
    (rest : List Char) :
    strftime pads (civilOfDigits ds) ++ rest =
      (ds.take 4).map Nat.digitChar ++
        writeSlots afterYear ((ds.take 14).drop 4) ++ rest ↔
      firstYear pads ≤ (civilOfDigits ds).year := by
  have hyear : (ds.take 4).length = 4 := by simp; omega
  have hzero := dropWhile_zero_iff hyear fun d hd =>
    hlt d (List.mem_of_mem_take hd)
  have hchars : ((ds.take 4).dropWhile (· = 0)).map Nat.digitChar =
      (ds.take 4).map Nat.digitChar ↔
      (ds.take 4).dropWhile (· = 0) = ds.take 4 := by
    refine ⟨fun h => ?_, fun h => by rw [h]⟩
    refine (List.dropWhile_suffix _).eq_of_length ?_
    simpa using congrArg List.length h
  unfold strftime yearDigits firstYear
  rw [digits_civilOfDigits hlength hlt, take_four, List.append_left_inj,
    List.append_left_inj]
  cases pads with
  | true => exact iff_of_true rfl hlo
  | false =>
      rw [if_neg Bool.false_ne_true, if_neg Bool.false_ne_true, hchars, hzero]
      exact Int.ofNat_le.symm.trans Iff.rfl

theorem fromTimestamp_unix {t : CivilTime} (h : t.Valid) (hlo : 1 ≤ t.year)
    (hhi : t.year ≤ 9999) : fromTimestamp t.unix = .ok t := by
  unfold fromTimestamp
  rw [CivilTime.civilOf_unix h, if_pos ⟨hlo, hhi⟩]

/-- A text read in ASCII digits, in its parts. -/
theorem Reads.text {p q : List Slot} {cs : List Char} {ds : List ℕ}
    (hp : IsTime p) (hq : p = List.replicate 4 .digit ++ (afterYear ++ q))
    (h : Reads asciiDigit p cs ds) :
    14 ≤ ds.length ∧ (∀ d ∈ ds, d < 10) ∧
      cs = (ds.take 4).map Nat.digitChar ++
        writeSlots afterYear ((ds.take 14).drop 4) ++
        writeSlots q (ds.drop 14) := by
  obtain ⟨hwrite, hlt⟩ := writeSlots_matchSlots h.matched
  have hlength := hp.fourteen_le h.matched
  refine ⟨hlength, hlt, ?_⟩
  rw [← writeSlots_time hlength, ← hq, hwrite]

theorem formatTs_iff {s : String} {ds : List ℕ}
    (h : Reads asciiDigit gridTime s.toList ds)
    (hlo : 1 ≤ (civilOfDigits ds).year) :
    formatTs pads (civilOfDigits ds).unix = .ok s ↔
      firstYear pads ≤ (civilOfDigits ds).year := by
  obtain ⟨hlength, hlt, htext⟩ := h.text (.inl rfl) (q := [.lit 'Z']) rfl
  have hyear := year_le (matchSlots_mono asciiDigit_le h.matched)
  rw [← strftime_append_iff hlength hlt hlo ['Z']]
  unfold formatTs
  rw [fromTimestamp_unix h.valid hlo hyear]
  change Except.ok (String.ofList _) = Except.ok s ↔ _
  rw [Except.ok.injEq, ← String.toList_inj, String.toList_ofList, htext]
  rfl

/-- Three digits after those of the civil time. -/
theorem milli_digits {ds : List ℕ} {cs : List Char}
    (h : matchSlots asciiDigit milliTime cs = some ds) :
    (ds.drop 14).length = 3 ∧ groupValue (ds.drop 14) < 1000 ∧
      digitsOf 3 (groupValue (ds.drop 14)) = ds.drop 14 := by
  have hlength : (ds.drop 14).length = 3 := by
    rw [List.length_drop, (matchSlots_length h).2]
    rfl
  have hlt : ∀ d ∈ ds.drop 14, d < 10 := fun d hd =>
    (writeSlots_matchSlots h).2 d (List.mem_of_mem_drop hd)
  have hvalue := groupValue_lt hlt
  have hdigits := digitsOf_groupValue hlt
  rw [hlength] at hvalue hdigits
  exact ⟨hlength, hvalue, hdigits⟩

theorem formatMs_iff {s : String} {ds : List ℕ}
    (h : Reads asciiDigit milliTime s.toList ds)
    (hlo : 1 ≤ (civilOfDigits ds).year) :
    formatMs pads (milliInstant ds) = .ok s ↔
      firstYear pads ≤ (civilOfDigits ds).year := by
  obtain ⟨hlength, hlt, htext⟩ := h.text (.inr rfl)
    (q := .lit '.' :: (List.replicate 3 .digit ++ [.lit 'Z'])) rfl
  have hyear := year_le (matchSlots_mono asciiDigit_le h.matched)
  obtain ⟨hthree, hms, hdigits⟩ := milli_digits h.matched
  have hrest : writeSlots (.lit '.' :: (List.replicate 3 .digit ++
      [.lit 'Z'])) (ds.drop 14) =
      '.' :: (ds.drop 14).map Nat.digitChar ++ ['Z'] := by
    have hwrite := writeSlots_digits (ds.drop 14)
    rw [hthree] at hwrite
    have happend : writeSlots (List.replicate 3 .digit ++ [.lit 'Z'])
        (ds.drop 14 ++ []) = _ := writeSlots_append _ [] hthree
    rw [List.append_nil, hwrite] at happend
    exact congrArg ('.' :: ·) happend
  have hdiv : milliInstant ds / 1000 = (civilOfDigits ds).unix := by
    unfold milliInstant
    omega
  have hmod : milliInstant ds % 1000 = groupValue (ds.drop 14) := by
    unfold milliInstant
    omega
  rw [← strftime_append_iff hlength hlt hlo
    ('.' :: (ds.drop 14).map Nat.digitChar ++ ['Z'])]
  unfold formatMs
  rw [hdiv, hmod, fromTimestamp_unix h.valid hlo hyear, Int.toNat_natCast,
    hdigits]
  change Except.ok (String.ofList _) = Except.ok s ↔ _
  rw [Except.ok.injEq, ← String.toList_inj, String.toList_ofList, htext,
    hrest]
  simp only [List.append_assoc, List.cons_append]

/-- A text that no slip of the patterns concerns: read as a time in ASCII
digits its year is written so too, in any decimal digits it is ASCII, and
without a final line feed it is no time of the calendar from year 1 on. -/
structure PlainTime (pads : Bool) (p : List Slot) (cs : List Char) : Prop where
  year : ∀ ds, Reads asciiDigit p cs ds →
    firstYear pads ≤ (civilOfDigits ds).year
  digits : ∀ ds, Reads decimalDigit p cs ds →
    1 ≤ (civilOfDigits ds).year → ∀ c ∈ cs, c.toNat < 128
  line : ∀ x ds, cs = x ++ ['\n'] → Reads decimalDigit p x ds →
    ¬1 ≤ (civilOfDigits ds).year

/-- The service and the operator read a time alike and the service writes it
back, exactly on plain texts. -/
theorem plainTime_iff {p : List Slot} (hp : IsTime p) {cs : List Char}
    {value : List ℕ → ℤ} (service operator format : ℤ → Prop)
    (hservice : ∀ n, service n ↔ ∃ x ds, Line cs x ∧
      Reads decimalDigit p x ds ∧ 1 ≤ (civilOfDigits ds).year ∧ n = value ds)
    (hoperator : ∀ n, operator n ↔
      ∃ ds, Reads asciiDigit p cs ds ∧ n = value ds)
    (hformat : ∀ ds, Reads asciiDigit p cs ds →
      1 ≤ (civilOfDigits ds).year →
      (format (value ds) ↔ firstYear pads ≤ (civilOfDigits ds).year)) :
    ((∀ n, service n → format n) ∧ ∀ n, service n ↔ operator n) ↔
      PlainTime pads p cs := by
  constructor
  · rintro ⟨hback, hagree⟩
    refine ⟨?year, ?digits, ?line⟩
    case year =>
      intro ds h
      have hserved := (hagree (value ds)).mpr ((hoperator _).mpr ⟨ds, h, rfl⟩)
      obtain ⟨x, ds', hx, h', hlo, -⟩ := (hservice _).mp hserved
      have hds : ds' = ds := by
        rcases hx with rfl | rfl
        · exact Option.some.inj
            (h'.matched.symm.trans (matchSlots_mono asciiDigit_le h.matched))
        · exact absurd (List.mem_append_right x List.mem_cons_self)
            (hp.no_line_feed rfl h.matched)
      rw [hds] at hlo
      exact (hformat ds h hlo).mp (hback _ hserved)
    case digits =>
      intro ds h hlo
      obtain ⟨ds', h', -⟩ := (hoperator _).mp ((hagree (value ds)).mp
        ((hservice _).mpr ⟨cs, ds, .inl rfl, h, hlo, rfl⟩))
      exact hp.ascii h'.matched
    case line =>
      rintro x ds hx h hlo
      obtain ⟨ds', h', -⟩ := (hoperator _).mp ((hagree (value ds)).mp
        ((hservice _).mpr ⟨x, ds, .inr hx, h, hlo, rfl⟩))
      rw [hx] at h'
      exact hp.no_line_feed rfl h'.matched
        (List.mem_append_right x List.mem_cons_self)
  · intro hplain
    have hread : ∀ n, service n → ∃ ds, Reads asciiDigit p cs ds ∧
        1 ≤ (civilOfDigits ds).year ∧ n = value ds := by
      intro n hn
      obtain ⟨x, ds, hx, h, hlo, rfl⟩ := (hservice n).mp hn
      rcases hx with rfl | hx
      · have hascii := hplain.digits ds h hlo
        have hmatched := h.matched
        rw [matchSlots_congr fun c hc => decimalDigit_of_ascii (hascii c hc)]
          at hmatched
        exact ⟨ds, ⟨hmatched, h.valid⟩, hlo, rfl⟩
      · exact absurd hlo (hplain.line x ds hx h)
    refine ⟨fun n hn => ?_, fun n => ⟨fun hn => ?_, fun hn => ?_⟩⟩
    · obtain ⟨ds, h, hlo, rfl⟩ := hread n hn
      exact (hformat ds h hlo).mpr (hplain.year ds h)
    · obtain ⟨ds, h, -, rfl⟩ := hread n hn
      exact (hoperator _).mpr ⟨ds, h, rfl⟩
    · obtain ⟨ds, h, rfl⟩ := (hoperator n).mp hn
      have hyear := (one_le_firstYear pads).trans (hplain.year ds h)
      exact (hservice _).mpr ⟨cs, ds, .inl rfl,
        ⟨matchSlots_mono asciiDigit_le h.matched, h.valid⟩, hyear, rfl⟩

/-- What the grammars promise of a text: a time that is read is the one that
is written as this text, the operator reads the same times, and a reference is
made of the characters of its grammar. -/
structure WireGrammar (pads : Bool) (s : String) : Prop where
  ts : ∀ t, parseTs s = .ok t → formatTs pads t = .ok s
  ms : ∀ t, parseMs s = .ok t → formatMs pads t = .ok s
  operatorTs : ∀ t what, parseTs s = .ok t ↔ v2ParseTS s what = .ok t
  operatorMs : ∀ t what, parseMs s = .ok t ↔ v2ParseMS s what = .ok t
  sha256 : isSha256 s = true → ∀ c ∈ s.toList, c ∈ hexDigits
  nameSpace : validNamespace s = true →
    ∀ c ∈ s.toList, c ∈ '-' :: alphanumerics
  name : validName s = true → ∀ c ∈ s.toList, c ∈ '.' :: '-' :: alphanumerics

/-- A text that is plain as a time and, without a final line feed, is no
reference that fits with it. -/
structure Plain (pads : Bool) (s : String) : Prop where
  seconds : PlainTime pads gridTime s.toList
  millis : PlainTime pads milliTime s.toList
  sha256 : ∀ x, s.toList = x ++ ['\n'] → ¬sha256Pattern.rmatch x = true
  nameSpace : ∀ x, s.toList = x ++ ['\n'] → x.length < 63 →
    ¬dnsLabel.rmatch x = true
  name : ∀ x, s.toList = x ++ ['\n'] → x.length < 253 →
    ¬dnsSubdomain.rmatch x = true

theorem mem_dnsLabel {c : Char} (h : c ∈ dnsLabel.chars) :
    c ∈ '-' :: alphanumerics := by
  simp only [dnsLabel, chars_mul, chars_opt, chars_star, chars_oneOf,
    List.mem_append, List.mem_cons] at h ⊢
  tauto

theorem mem_dnsSubdomain {c : Char} (h : c ∈ dnsSubdomain.chars) :
    c ∈ '.' :: '-' :: alphanumerics := by
  rcases List.mem_append.mp h with h | h
  · exact List.mem_cons_of_mem _ (mem_dnsLabel h)
  · rcases List.mem_append.mp h with h | h
    · exact List.mem_cons.mpr (.inl (List.mem_singleton.mp h))
    · exact List.mem_cons_of_mem _ (mem_dnsLabel h)

theorem mem_sha256Pattern {c : Char} (h : c ∈ sha256Pattern.chars) :
    c ∈ hexDigits := by
  have hone := mem_chars_times h
  rwa [chars_oneOf] at hone

theorem seconds_iff (pads : Bool) (s : String) :
    ((∀ t, parseTs s = .ok t → formatTs pads t = .ok s) ∧
      ∀ t what, parseTs s = .ok t ↔ v2ParseTS s what = .ok t) ↔
      PlainTime pads gridTime s.toList := by
  rw [← plainTime_iff (.inl rfl) (fun t => parseTs s = .ok t)
    (fun t => v2ParseTS s "" = .ok t) (fun t => formatTs pads t = .ok s)
    (fun t => parseTs_eq_ok) (fun t => v2ParseTS_eq_ok)
    (fun ds h hlo => formatTs_iff h hlo)]
  simp only [v2ParseTS_eq_ok, forall_const]

theorem millis_iff (pads : Bool) (s : String) :
    ((∀ t, parseMs s = .ok t → formatMs pads t = .ok s) ∧
      ∀ t what, parseMs s = .ok t ↔ v2ParseMS s what = .ok t) ↔
      PlainTime pads milliTime s.toList := by
  rw [← plainTime_iff (.inr rfl) (fun t => parseMs s = .ok t)
    (fun t => v2ParseMS s "" = .ok t) (fun t => formatMs pads t = .ok s)
    (fun t => parseMs_eq_ok) (fun t => v2ParseMS_eq_ok)
    (fun ds h hlo => formatMs_iff h hlo)]
  simp only [v2ParseMS_eq_ok, forall_const]

theorem wireGrammar_iff (pads : Bool) (s : String) :
    WireGrammar pads s ↔ Plain pads s := by
  have hseconds := seconds_iff pads s
  have hmillis := millis_iff pads s
  have hsha := made_of_iff (fun _ h => mem_sha256Pattern h) (by decide)
    (s := s.toList)
  have hspace := short_made_of_iff (fun _ h => mem_dnsLabel h) (by decide)
    (s := s.toList) 63
  have hname := short_made_of_iff (fun _ h => mem_dnsSubdomain h) (by decide)
    (s := s.toList) 253
  constructor
  · intro h
    exact ⟨hseconds.mp ⟨h.ts, h.operatorTs⟩, hmillis.mp ⟨h.ms, h.operatorMs⟩,
      hsha.mp h.sha256, hspace.mp h.nameSpace, hname.mp h.name⟩
  · intro h
    obtain ⟨hts, hoperatorTs⟩ := hseconds.mpr h.seconds
    obtain ⟨hms, hoperatorMs⟩ := hmillis.mpr h.millis
    exact ⟨hts, hms, hoperatorTs, hoperatorMs, hsha.mpr h.sha256,
      hspace.mpr h.nameSpace, hname.mpr h.name⟩

/-- The digits of a civil time and more of them, read from their text. -/
theorem reads_writeSlots {p : List Slot} {t : CivilTime} (ht : t.Valid)
    (hlo : 0 ≤ t.year) (hhi : t.year ≤ 9999) (es : List ℕ)
    (hes : ∀ d ∈ es, d < 10) (hlength : 14 + es.length = digitSlots p) :
    Reads asciiDigit p (writeSlots p (t.digits ++ es)) (t.digits ++ es) ∧
      civilOfDigits (t.digits ++ es) = t := by
  have hcivil : civilOfDigits (t.digits ++ es) = t := by
    rw [civilOfDigits_append, civilOfDigits_digits ht hlo hhi]
  refine ⟨⟨matchSlots_writeSlots ?_ fun d hd => ?_, by rwa [hcivil]⟩, hcivil⟩
  · rw [List.length_append, t.digits_length, hlength]
  · rcases List.mem_append.mp hd with hd | hd
    · exact CivilTime.digits_lt hd
    · exact hes d hd

theorem Reads.decimal {p : List Slot} {cs : List Char} {ds : List ℕ}
    (h : Reads asciiDigit p cs ds) : Reads decimalDigit p cs ds :=
  ⟨matchSlots_mono asciiDigit_le h.matched, h.valid⟩

theorem parseTs_formatTs {n : ℤ} (hlo : 1970 ≤ (civilOf n).year)
    (hhi : (civilOf n).year ≤ 9999) :
    ∃ s, formatTs pads n = .ok s ∧ parseTs s = .ok n := by
  obtain ⟨h, hcivil⟩ := reads_writeSlots (p := gridTime)
    (CivilTime.civilOf_valid n) (by omega) hhi [] (by simp) rfl
  obtain ⟨s, hs⟩ : ∃ s : String, s.toList =
      writeSlots gridTime ((civilOf n).digits ++ []) :=
    ⟨String.ofList _, String.toList_ofList⟩
  rw [← hs] at h
  have hunix : (civilOfDigits ((civilOf n).digits ++ [])).unix = n := by
    rw [hcivil, CivilTime.unix_civilOf]
  have hyear : 1970 ≤ (civilOfDigits ((civilOf n).digits ++ [])).year := by
    rwa [hcivil]
  have hformat := (formatTs_iff h (by omega)).mpr
    ((firstYear_le pads).trans (by omega))
  rw [hunix] at hformat
  exact ⟨s, hformat, parseTs_eq_ok.mpr
    ⟨_, _, .inl rfl, h.decimal, by omega, hunix.symm⟩⟩

theorem parseMs_formatMs {n : ℤ} (hlo : 1970 ≤ (civilOf (n / 1000)).year)
    (hhi : (civilOf (n / 1000)).year ≤ 9999) :
    ∃ s, formatMs pads n = .ok s ∧ parseMs s = .ok n := by
  have hms : (n % 1000).toNat < 10 ^ 3 := by omega
  obtain ⟨h, hcivil⟩ := reads_writeSlots (p := milliTime)
    (CivilTime.civilOf_valid (n / 1000)) (by omega) hhi
    (digitsOf 3 (n % 1000).toNat) (fun d hd => digitsOf_lt hd)
    (by rw [digitsOf_length]; rfl)
  obtain ⟨s, hs⟩ : ∃ s : String, s.toList = writeSlots milliTime
      ((civilOf (n / 1000)).digits ++ digitsOf 3 (n % 1000).toNat) :=
    ⟨String.ofList _, String.toList_ofList⟩
  rw [← hs] at h
  have hvalue : milliInstant ((civilOf (n / 1000)).digits ++
      digitsOf 3 (n % 1000).toNat) = n := by
    unfold milliInstant
    rw [hcivil, CivilTime.unix_civilOf,
      List.drop_left' (CivilTime.digits_length _), groupValue_digitsOf hms]
    omega
  have hyear : 1970 ≤ (civilOfDigits ((civilOf (n / 1000)).digits ++
      digitsOf 3 (n % 1000).toNat)).year := by
    rwa [hcivil]
  have hformat := (formatMs_iff h (by omega)).mpr
    ((firstYear_le pads).trans (by omega))
  rw [hvalue] at hformat
  exact ⟨s, hformat, parseMs_eq_ok.mpr
    ⟨_, _, .inl rfl, h.decimal, by omega, hvalue.symm⟩⟩

/-- The grammars hold of a text exactly when it is plain, and the times that
are written are read back; with either way of writing a year. -/
theorem wire_grammar_iff_plain (pads : Bool) (s : String) (n : ℤ) :
    (WireGrammar pads s ↔ Plain pads s) ∧
      (1970 ≤ (civilOf n).year → (civilOf n).year ≤ 9999 →
        ∃ written, formatTs pads n = .ok written ∧ parseTs written = .ok n) ∧
      (1970 ≤ (civilOf (n / 1000)).year → (civilOf (n / 1000)).year ≤ 9999 →
        ∃ written, formatMs pads n = .ok written ∧
          parseMs written = .ok n) :=
  ⟨wireGrammar_iff pads s, parseTs_formatTs, parseMs_formatMs⟩

/-- However the year is written, a line feed after a time or a name, a digit
outside ASCII and the year 0 each break the grammars; so does a year before
1000 where it is not padded. -/
theorem wire_grammar_broken :
    (∀ pads, ¬WireGrammar pads "2026-01-01T00:00:00Z\n" ∧
      ¬WireGrammar pads "default\n" ∧
      ¬WireGrammar pads "٢026-01-01T00:00:00Z" ∧
      ¬WireGrammar pads "0000-01-01T00:00:00Z") ∧
      ¬WireGrammar false "0999-01-01T00:00:00Z" := by
  refine ⟨fun pads => ⟨fun h => ?line, fun h => ?name, fun h => ?digit,
    fun h => ?zero⟩, fun h => ?short⟩
  case line =>
    have hback := h.ts 1767225600 (by decide +kernel)
    exact absurd hback (by cases pads <;> decide +kernel)
  case name =>
    have hfeed := h.name (by decide +kernel) '\n' (by decide)
    exact absurd hfeed (by decide)
  case digit =>
    have hback := h.ts 1767225600 (by decide +kernel)
    exact absurd hback (by cases pads <;> decide +kernel)
  case zero =>
    have hagree := h.operatorTs (-62167219200) ""
    exact absurd (hagree.mpr (by decide +kernel)) (by decide +kernel)
  case short =>
    have hback := h.ts (-30641760000) (by decide +kernel)
    exact absurd hback (by decide +kernel)

end PredictiveAutoscaler.Forecasting
