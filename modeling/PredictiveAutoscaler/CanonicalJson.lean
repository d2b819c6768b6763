/-
Canonical JSON: integers, texts and records, written with sorted keys and no
whitespace.  Go's `encoding/json` and Python's `json.dumps` differ only in how
they escape the characters of a text, and agree on ASCII text.
-/
import Mathlib.Data.List.Sort
import Mathlib.Data.String.Basic

namespace PredictiveAutoscaler

/-- A document that is hashed. -/
inductive Doc
  | int (n : ℤ)
  | text (s : String)
  | record (fields : List (String × Doc))

/-- An integer in decimal. -/
def decimal (n : ℤ) : List Char :=
  if n < 0 then '-' :: Nat.toDigits 10 n.natAbs else Nat.toDigits 10 n.natAbs

namespace Doc

section Render

variable (escape : Char → List Char)

def quote (s : String) : List Char :=
  '"' :: s.toList.flatMap escape ++ ['"']

def joinCommas : List (List Char) → List Char
  | [] => []
  | [part] => part
  | part :: rest => part ++ ',' :: joinCommas rest

/-- The members in the order of their keys. -/
def joinSorted (members : List (String × List Char)) : List Char :=
  let sorted := members.mergeSort fun a b => decide (a.1 ≤ b.1)
  joinCommas (sorted.map Prod.snd)

mutual

def render : Doc → List Char
  | .int n => decimal n
  | .text s => quote escape s
  | .record fields => '{' :: joinSorted (renderFields fields) ++ ['}']

def renderFields : List (String × Doc) → List (String × List Char)
  | [] => []
  | (k, v) :: rest =>
      (k, quote escape k ++ ':' :: render v) :: renderFields rest

end

end Render

mutual

/-- The texts of a document, keys included. -/
def texts : Doc → List String
  | .int _ => []
  | .text s => [s]
  | .record fields => textsOfFields fields

def textsOfFields : List (String × Doc) → List String
  | [] => []
  | (k, v) :: rest => k :: texts v ++ textsOfFields rest

end

end Doc

/-- `\u` and four hexadecimal digits. -/
def unicodeEscape (n : ℕ) : List Char :=
  '\\' :: 'u' :: [n / 4096 % 16, n / 256 % 16, n / 16 % 16, n % 16].map
    Nat.digitChar

/-- How Go's encoder writes a character without HTML escaping. -/
def goEscape (c : Char) : List Char :=
  if c = '"' ∨ c = '\\' then ['\\', c]
  else if c.toNat = 8 then ['\\', 'b']
  else if c.toNat = 12 then ['\\', 'f']
  else if c = '\n' then ['\\', 'n']
  else if c = '\r' then ['\\', 'r']
  else if c = '\t' then ['\\', 't']
  else if c.toNat < 32 ∨ c.toNat = 0x2028 ∨ c.toNat = 0x2029 then
    unicodeEscape c.toNat
  else [c]

/-- How `json.dumps` with `ensure_ascii` writes a character. -/
def pythonEscape (c : Char) : List Char :=
  if c = '"' ∨ c = '\\' then ['\\', c]
  else if c.toNat = 8 then ['\\', 'b']
  else if c.toNat = 12 then ['\\', 'f']
  else if c = '\n' then ['\\', 'n']
  else if c = '\r' then ['\\', 'r']
  else if c = '\t' then ['\\', 't']
  else if 32 ≤ c.toNat ∧ c.toNat ≤ 126 then [c]
  else if c.toNat < 0x10000 then unicodeEscape c.toNat
  else
    let v := c.toNat - 0x10000
    unicodeEscape (0xd800 + v / 1024) ++ unicodeEscape (0xdc00 + v % 1024)

/-- Characters up to the tilde. -/
def AsciiText (s : String) : Prop := ∀ c ∈ s.toList, c.toNat ≤ 126

instance (s : String) : Decidable (AsciiText s) :=
  List.decidableBAll (fun c : Char => c.toNat ≤ 126) s.toList

theorem goEscape_eq_pythonEscape {c : Char} (h : c.toNat ≤ 126) :
    goEscape c = pythonEscape c := by
  unfold goEscape pythonEscape
  split_ifs <;> first | rfl | omega

namespace Doc

theorem quote_congr {escape escape' : Char → List Char} {s : String}
    (h : ∀ c ∈ s.toList, escape c = escape' c) :
    quote escape s = quote escape' s := by
  have hmap : s.toList.map escape = s.toList.map escape' :=
    List.map_congr_left h
  simp only [quote, List.flatMap_def, hmap]

section Agree

variable {escape escape' : Char → List Char}

mutual

/-- Two writers that escape the texts of a document alike write it alike. -/
theorem render_congr :
    ∀ d : Doc, (∀ s ∈ d.texts, ∀ c ∈ s.toList, escape c = escape' c) →
      d.render escape = d.render escape'
  | .int _, _ => rfl
  | .text s, h => quote_congr (h s (by simp [texts]))
  | .record fields, h => by
      simp only [render]
      rw [renderFields_congr fields (by simpa [texts] using h)]

theorem renderFields_congr :
    ∀ fields : List (String × Doc),
      (∀ s ∈ textsOfFields fields, ∀ c ∈ s.toList, escape c = escape' c) →
      renderFields escape fields = renderFields escape' fields
  | [], _ => rfl
  | (k, v) :: rest, h => by
      have hkey := quote_congr (h k (by simp [textsOfFields]))
      have hvalue := render_congr v fun s hs =>
        h s (by simp [textsOfFields, hs])
      have hrest := renderFields_congr rest fun s hs =>
        h s (by simp [textsOfFields, hs])
      simp only [renderFields, hkey, hvalue, hrest]

end

end Agree

/-- Go and Python write a document of ASCII texts alike. -/
theorem render_goEscape {d : Doc} (h : ∀ s ∈ d.texts, AsciiText s) :
    d.render goEscape = d.render pythonEscape :=
  render_congr d fun s hs _ hc => goEscape_eq_pythonEscape (h s hs _ hc)

end Doc

/-- Text of characters up to the tilde. -/
def Printable (text : List Char) : Prop := ∀ c ∈ text, c.toNat ≤ 126

instance (text : List Char) : Decidable (Printable text) :=
  List.decidableBAll (fun c : Char => c.toNat ≤ 126) text

theorem Printable.append {left right : List Char} (hleft : Printable left)
    (hright : Printable right) : Printable (left ++ right) := by
  intro c hc
  rcases List.mem_append.mp hc with hc | hc
  · exact hleft c hc
  · exact hright c hc

theorem Printable.flatten {parts : List (List Char)}
    (h : ∀ part ∈ parts, Printable part) : Printable parts.flatten := by
  intro c hc
  obtain ⟨part, hpart, hc⟩ := List.mem_flatten.mp hc
  exact h part hpart c hc

theorem printable_digits {n : ℕ} : Printable (Nat.toDigits 10 n) := by
  intro c hc
  have hdigit := Nat.isDigit_of_mem_toDigits (by decide) (by decide) hc
  simp only [Char.isDigit, Bool.and_eq_true, decide_eq_true_eq] at hdigit
  have hle : c.toNat ≤ 57 := hdigit.2
  omega

theorem printable_decimal (n : ℤ) : Printable (decimal n) := by
  unfold decimal
  split
  · exact @Printable.append ['-'] _ (by decide) printable_digits
  · exact printable_digits

theorem digitChar_toNat_le (n : ℕ) : (Nat.digitChar (n % 16)).toNat ≤ 126 := by
  have hall : ∀ d < 16, (Nat.digitChar d).toNat ≤ 126 := by decide
  exact hall _ (Nat.mod_lt _ (by decide))

theorem printable_unicodeEscape (n : ℕ) : Printable (unicodeEscape n) := by
  intro c hc
  simp only [unicodeEscape, List.map_cons, List.map_nil, List.mem_cons,
    List.not_mem_nil, or_false] at hc
  rcases hc with rfl | rfl | rfl | rfl | rfl | rfl
  · decide
  · decide
  all_goals exact digitChar_toNat_le _

theorem printable_pythonEscape (c : Char) : Printable (pythonEscape c) := by
  unfold pythonEscape
  split_ifs with hquote hb hf hn hr ht hplain hbasic
  · rcases hquote with rfl | rfl <;> decide
  iterate 5 decide
  · intro d hd
    rw [List.mem_singleton.mp hd]
    exact hplain.2
  · exact printable_unicodeEscape _
  · exact (printable_unicodeEscape _).append (printable_unicodeEscape _)

theorem Printable.joinCommas {parts : List (List Char)}
    (h : ∀ part ∈ parts, Printable part) :
    Printable (Doc.joinCommas parts) := by
  induction parts with
  | nil => exact fun c hc => nomatch hc
  | cons part rest ih =>
      have hpart := h part List.mem_cons_self
      have hrest := ih fun p hp => h p (List.mem_cons_of_mem _ hp)
      cases rest with
      | nil => exact hpart
      | cons next rest =>
          have hcomma : Printable [','] := by decide
          exact hpart.append (hcomma.append hrest)

namespace Doc

theorem printable_quote (s : String) : Printable (quote pythonEscape s) := by
  have hbody : Printable (s.toList.flatMap pythonEscape) := by
    refine Printable.flatten fun part hpart => ?_
    obtain ⟨c, -, rfl⟩ := List.mem_map.mp hpart
    exact printable_pythonEscape c
  exact @Printable.append ('"' :: _) _
    (@Printable.append ['"'] _ (by decide) hbody) (by decide)

theorem printable_joinSorted {members : List (String × List Char)}
    (h : ∀ member ∈ members, Printable member.2) :
    Printable (joinSorted members) := by
  refine Printable.joinCommas fun part hpart => ?_
  obtain ⟨member, hmember, rfl⟩ := List.mem_map.mp hpart
  exact h member (List.mem_mergeSort.mp hmember)

mutual

theorem printable_render : ∀ d : Doc, Printable (d.render pythonEscape)
  | .int n => printable_decimal n
  | .text s => printable_quote s
  | .record fields => by
      have hmembers := printable_joinSorted (printable_renderFields fields)
      exact @Printable.append ('{' :: _) _
        (@Printable.append ['{'] _ (by decide) hmembers) (by decide)

theorem printable_renderFields : ∀ fields : List (String × Doc),
    ∀ member ∈ renderFields pythonEscape fields, Printable member.2
  | [], _, hmember => by cases hmember
  | (k, v) :: rest, member, hmember => by
      rcases List.mem_cons.mp hmember with rfl | hmember
      · exact (printable_quote k).append
          (@Printable.append [':'] _ (by decide) (printable_render v))
      · exact printable_renderFields rest member hmember

end

end Doc

/-- The UTF-8 bytes of a text. -/
def utf8 (text : List Char) : List UInt8 := text.flatMap String.utf8EncodeChar

/-- Printable text is one byte a character. -/
theorem utf8_le {text : List Char} (h : Printable text) :
    ∀ b ∈ utf8 text, b ≤ 0x7e := by
  intro b hb
  obtain ⟨c, hc, hb⟩ := List.mem_flatMap.mp hb
  have hle : c.val.toNat ≤ 126 := h c hc
  have hsize : c.utf8Size = 1 := Char.utf8Size_eq_one_iff.mpr (by
    rw [UInt32.le_iff_toNat_le]
    exact hle.trans (by decide))
  rw [String.utf8EncodeChar_eq_singleton hsize, List.mem_singleton] at hb
  subst hb
  rw [UInt8.le_iff_toNat_le, UInt32.toNat_toUInt8]
  exact (Nat.mod_le _ _).trans hle

end PredictiveAutoscaler
