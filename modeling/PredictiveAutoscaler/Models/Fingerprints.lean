/-
What the digest of a generation's history tells: the boundary's text, the
starts of the two windows and the values between them, read back from the
bytes that are hashed.
-/
import PredictiveAutoscaler.Models.SeasonalEnsemble

namespace PredictiveAutoscaler.Models

/-- The characters of a decimal number. -/
def IsDecimalChar (c : Char) : Prop := c = '-' ∨ c.isDigit = true

theorem isDecimalChar_of_mem {n : ℤ} {c : Char} (h : c ∈ decimal n) :
    IsDecimalChar c := by
  have hdigit : ∀ {k : ℕ}, c ∈ Nat.toDigits 10 k → IsDecimalChar c :=
    fun hc => .inr (Nat.isDigit_of_mem_toDigits (by decide) (by decide) hc)
  unfold decimal at h
  split at h
  · rcases List.mem_cons.mp h with rfl | hrest
    · exact .inl rfl
    · exact hdigit hrest
  · exact hdigit h

theorem toDigits_injective : Function.Injective (Nat.toDigits 10) := by
  intro m n h
  rw [← Nat.ofDigitChars_ten_toDigits (n := m), h,
    Nat.ofDigitChars_ten_toDigits]

theorem head_toDigits_ne (n : ℕ) (rest : List Char) :
    Nat.toDigits 10 n ≠ '-' :: rest := by
  intro h
  have hdash : '-' ∈ Nat.toDigits 10 n := h ▸ List.mem_cons_self
  have hdigit := Nat.isDigit_of_mem_toDigits (by decide) (by decide) hdash
  exact absurd hdigit (by decide)

theorem decimal_injective : Function.Injective decimal := by
  intro m n h
  unfold decimal at h
  split at h
  · rename_i hm
    split at h
    · rename_i hn
      have habs := toDigits_injective (List.cons.inj h).2
      omega
    · exact absurd h.symm (head_toDigits_ne _ _)
  · rename_i hm
    split at h
    · exact absurd h (head_toDigits_ne _ _)
    · have habs := toDigits_injective h
      omega

/-- A number a little smaller is not much shorter. -/
theorem length_decimal_lt (n : ℤ) :
    (decimal n).length < (decimal (n - 600)).length + 8 := by
  have hdigits : ∀ k, (Nat.toDigits 10 k).length ≤ (decimal k).length ∧
      ∀ m : ℤ, (Nat.toDigits 10 m.natAbs).length ≤ (decimal m).length ∧
        (decimal m).length ≤ (Nat.toDigits 10 m.natAbs).length + 1 := by
    intro k
    refine ⟨?_, fun m => ?_⟩
    · unfold decimal
      split
      · omega
      · exact le_rfl
    · unfold decimal
      split
      · exact ⟨Nat.le_succ _, le_rfl⟩
      · exact ⟨le_rfl, Nat.le_succ _⟩
  have hshort := ((hdigits 0).2 n).2
  have hlong := ((hdigits 0).2 (n - 600)).1
  have hpos : 0 < (Nat.toDigits 10 (n - 600).natAbs).length :=
    Nat.length_toDigits_pos
  have hbelow := (Nat.length_toDigits_le_iff (b := 10) (by decide) hpos).mp
    (le_refl (Nat.toDigits 10 (n - 600).natAbs).length)
  generalize (Nat.toDigits 10 (n - 600).natAbs).length = k at *
  have hgrow : 10 ^ k + 600 ≤ 10 ^ (k + 3) := by
    have hone : 1 ≤ 10 ^ k := Nat.one_le_pow _ _ (by decide)
    rw [pow_add]
    omega
  have habs : n.natAbs < 10 ^ (k + 3) := by omega
  have hlength := (Nat.length_toDigits_le_iff (b := 10) (n := n.natAbs)
    (by decide) (Nat.succ_pos (k + 2))).mpr habs
  omega

theorem Double.length_bytes (v : Double) : v.bytes.length = 8 := by
  rw [Double.bytes, List.length_map, List.length_range]

theorem Double.bytes_injective : Function.Injective Double.bytes := by
  intro v w h
  have hbyte : ∀ i < 8, v.toNat / 256 ^ i % 256 = w.toNat / 256 ^ i % 256 := by
    intro i hi
    have hget := congrArg (fun bytes => bytes[i]?) h
    simp only [Double.bytes, List.getElem?_map,
      List.getElem?_range hi, Option.map_some, Option.some.injEq] at hget
    have hnat := congrArg UInt8.toNat hget
    rwa [UInt8.toNat_ofNat', UInt8.toNat_ofNat'] at hnat
  have hv := v.toNat_lt
  have hw := w.toNat_lt
  have h0 := hbyte 0 (by decide)
  have h1 := hbyte 1 (by decide)
  have h2 := hbyte 2 (by decide)
  have h3 := hbyte 3 (by decide)
  have h4 := hbyte 4 (by decide)
  have h5 := hbyte 5 (by decide)
  have h6 := hbyte 6 (by decide)
  have h7 := hbyte 7 (by decide)
  refine UInt64.toNat_inj.mp ?_
  omega

theorem length_flatMap_bytes (vs : List Double) :
    (vs.flatMap Double.bytes).length = 8 * vs.length := by
  induction vs with
  | nil => rfl
  | cons v rest ih =>
      rw [List.flatMap_cons, List.length_append, Double.length_bytes, ih,
        List.length_cons]
      omega

/-- Values are read back from their bytes, eight at a time. -/
theorem flatMap_bytes_injective {vs ws : List Double}
    (h : vs.flatMap Double.bytes = ws.flatMap Double.bytes) : vs = ws := by
  have hlength := congrArg List.length h
  rw [length_flatMap_bytes, length_flatMap_bytes] at hlength
  induction vs generalizing ws with
  | nil => exact (List.length_eq_zero_iff.mp (by simpa using hlength.symm)).symm
  | cons v rest ih =>
      cases ws with
      | nil => simp at hlength
      | cons w rest' =>
          rw [List.flatMap_cons, List.flatMap_cons] at h
          obtain ⟨hhead, htail⟩ := List.append_inj h (by
            rw [Double.length_bytes, Double.length_bytes])
          rw [List.length_cons, List.length_cons] at hlength
          rw [Double.bytes_injective hhead, ih htail (by omega)]

/-- What stands before the first separator, and after it. -/
theorem append_separator_inj {α : Type} {x : α} {l l' r r' : List α}
    (hl : x ∉ l) (hl' : x ∉ l') (h : l ++ x :: r = l' ++ x :: r') :
    l = l' ∧ r = r' := by
  induction l generalizing l' with
  | nil =>
      cases l' with
      | nil => exact ⟨rfl, (List.cons.inj h).2⟩
      | cons a rest =>
          have ha : x = a := (List.cons.inj h).1
          exact absurd (ha ▸ List.mem_cons_self) hl'
  | cons a rest ih =>
      cases l' with
      | nil =>
          have ha : a = x := (List.cons.inj h).1
          exact absurd (ha ▸ List.mem_cons_self) hl
      | cons a' rest' =>
          obtain ⟨hhead, htail⟩ := List.cons.inj h
          obtain ⟨hrest, hr⟩ := ih (fun hx => hl (List.mem_cons_of_mem _ hx))
            (fun hx => hl' (List.mem_cons_of_mem _ hx)) htail
          exact ⟨by rw [hhead, hrest], hr⟩

namespace SeasonalEnsemble

theorem ascii_decimal_injective {m n : ℤ}
    (h : ascii (decimal m) = ascii (decimal n)) : m = n := by
  refine decimal_injective (List.ext_getElem ?_ fun i hi hi' => ?_)
  · simpa [ascii] using congrArg List.length h
  · have hget := congrArg (fun bytes => bytes[i]?) h
    simp only [ascii, List.getElem?_map, List.getElem?_eq_getElem hi,
      List.getElem?_eq_getElem hi', Option.map_some, Option.some.injEq] at hget
    have hsmall : ∀ {k c}, c ∈ decimal k → c.toNat < 256 := fun hc =>
      (printable_decimal _ _ hc).trans_lt (by decide)
    have hnat := congrArg UInt8.toNat hget
    rw [UInt8.toNat_ofNat', UInt8.toNat_ofNat',
      Nat.mod_eq_of_lt (hsmall (List.getElem_mem hi)),
      Nat.mod_eq_of_lt (hsmall (List.getElem_mem hi'))] at hnat
    exact Char.toNat_inj.mp hnat

theorem bar_not_mem_ascii (n : ℤ) : (124 : UInt8) ∉ ascii (decimal n) := by
  intro h
  obtain ⟨c, hc, hbar⟩ := List.mem_map.mp h
  have hle := printable_decimal n c hc
  have hnat := congrArg UInt8.toNat hbar
  rw [UInt8.toNat_ofNat', Nat.mod_eq_of_lt (hle.trans_lt (by decide))] at hnat
  have hchar : c = '|' := Char.toNat_inj.mp hnat
  rcases isDecimalChar_of_mem hc with hdash | hdigit
  · rw [hdash] at hchar
    exact absurd hchar (by decide)
  · rw [hchar] at hdigit
    exact absurd hdigit (by decide)

theorem arLo_le_hwLo (b : ℕ) : arLo b ≤ hwLo b := by
  unfold arLo hwLo
  have hslots : arWindowSlots + profileDays * season = hwWindowSlots := by
    decide
  omega

/-- The values of the history that is hashed. -/
def history (g : Grid) (b : ℕ) : List Double :=
  (List.range' (arLo b) (b + 1 - arLo b)).map g.y

theorem fingerprinted_eq_history (g : Grid) (boundaryTs : ℤ) (b : ℕ) :
    fingerprinted g boundaryTs b =
      ascii version.toList ++ (124 :: (ascii (decimal boundaryTs) ++
        (124 :: (ascii (decimal (g.ts (hwLo b))) ++
          (124 :: (ascii (decimal (g.ts (arLo b))) ++
            (history g b).flatMap Double.bytes)))))) := by
  unfold fingerprinted history
  rw [Nat.min_eq_right (arLo_le_hwLo b), List.flatMap_map]
  simp only [ascii, List.map_append, List.map_cons, List.append_assoc,
    List.cons_append]
  rfl

/-- Equal histories of one boundary have equal starts and equal values. -/
theorem fingerprinted_injective {g g' : Grid} {boundaryTs : ℤ} {b b' : ℕ}
    (h : fingerprinted g boundaryTs b = fingerprinted g' boundaryTs b') :
    g.ts (hwLo b) = g'.ts (hwLo b') ∧
      ascii (decimal (g.ts (arLo b))) ++ (history g b).flatMap Double.bytes =
        ascii (decimal (g'.ts (arLo b'))) ++
          (history g' b').flatMap Double.bytes := by
  rw [fingerprinted_eq_history, fingerprinted_eq_history] at h
  have hversion := (List.cons.inj (List.append_cancel_left h)).2
  have hboundary := (List.cons.inj (List.append_cancel_left hversion)).2
  obtain ⟨hstart, hrest⟩ := append_separator_inj (bar_not_mem_ascii _)
    (bar_not_mem_ascii _) hboundary
  exact ⟨ascii_decimal_injective hstart, hrest⟩

theorem length_history (g : Grid) (b : ℕ) :
    (history g b).length = b + 1 - arLo b := by
  rw [history, List.length_map, List.length_range']

end SeasonalEnsemble

end PredictiveAutoscaler.Models
