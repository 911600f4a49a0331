import Mathlib.Data.List.Basic
import Mathlib.Data.List.Infix

/-!
# Java texts

A Java `String` is a sequence of UTF-16 code units, and everything the program
does with one is in those units: `length`, `charAt`, `substring`, `contains`.
A text of Unicode scalar values is a `List Char`; `utf16` is the string that
holds it.

`getBytes` and `newString` are `getBytes(Charset.forName("UTF8"))` and
`new String(bytes, Charset.forName("UTF8"))`: a lone surrogate is written as
`?`, and a byte that begins no encoded character is read as `U+FFFD`. What the
program relies on is `newString_getBytes`: a text of scalar values survives the
trip through its bytes.
-/

namespace GpsTracker.Java

/-- A `byte`, by its bits; `Byte.toInt` is its signed value. -/
abbrev Byte := UInt8

/-- The value of a `byte` promoted to `int`: negative from `0x80` on. -/
def Byte.toInt (b : Byte) : ℤ := if b.toNat < 128 then b.toNat else b.toNat - 256

/-- A `String`: its UTF-16 code units. -/
abbrev JString := List UInt16

/-! ### Scalar values and code units -/

/-- The code units of one scalar value: a surrogate pair above `U+FFFF`. -/
def charUnits (c : Char) : JString :=
  if c.toNat < 0x10000 then [UInt16.ofNat c.toNat]
  else [UInt16.ofNat (0xD800 + (c.toNat - 0x10000) / 0x400), UInt16.ofNat (0xDC00 + (c.toNat - 0x10000) % 0x400)]

/-- The string that holds a text of scalar values. -/
def utf16 (s : List Char) : JString := s.flatMap charUnits

/-- A string literal. -/
def lit (s : String) : JString := utf16 s.toList

/-- The first half of a surrogate pair. -/
def IsHigh (u : UInt16) : Prop := 0xD800 ≤ u.toNat ∧ u.toNat < 0xDC00

/-- The second half of a surrogate pair. -/
def IsLow (u : UInt16) : Prop := 0xDC00 ≤ u.toNat ∧ u.toNat < 0xE000

instance (u : UInt16) : Decidable (IsHigh u) := inferInstanceAs (Decidable (_ ∧ _))

instance (u : UInt16) : Decidable (IsLow u) := inferInstanceAs (Decidable (_ ∧ _))

/-- The scalar value of one unit that is in no pair: a lone surrogate has none and
is encoded as `?`. -/
def loneChar (u : UInt16) : Char := if IsHigh u ∨ IsLow u then '?' else Char.ofNat u.toNat

/-- The scalar value of a pair. -/
def pairChar (h l : UInt16) : Char := Char.ofNat (0x10000 + (h.toNat - 0xD800) * 0x400 + (l.toNat - 0xDC00))

/-- The scalar values of a string, as the encoder sees them. -/
def codePoints : JString → List Char
  | [] => []
  | [u] => [loneChar u]
  | h :: l :: rest =>
    if IsHigh h ∧ IsLow l then pairChar h l :: codePoints rest else loneChar h :: codePoints (l :: rest)

theorem codePoints_cons_of_not_high {u : UInt16} (hu : ¬ IsHigh u) (rest : JString) :
    codePoints (u :: rest) = loneChar u :: codePoints rest := by
  cases rest with
  | nil => rfl
  | cons l rest => rw [codePoints, if_neg (fun h => hu h.1)]

theorem char_toNat_cases (c : Char) :
    c.toNat < 0xD800 ∨ (0xE000 ≤ c.toNat ∧ c.toNat < 0x110000) := by
  rcases c.valid with h | ⟨h1, h2⟩
  · exact Or.inl h
  · exact Or.inr ⟨h1, h2⟩

theorem char_toNat_ofNat {n : ℕ} (h : n.isValidChar) : (Char.ofNat n).toNat = n := by
  rw [Char.ofNat, dif_pos h]
  rfl

/-- The encoder reads back one scalar value from its units. -/
theorem codePoints_charUnits_append (c : Char) (rest : JString) :
    codePoints (charUnits c ++ rest) = c :: codePoints rest := by
  have hc := char_toNat_cases c
  by_cases h : c.toNat < 0x10000
  · have hu : (UInt16.ofNat c.toNat).toNat = c.toNat := by
      rw [UInt16.toNat_ofNat']; omega
    have hhigh : ¬ IsHigh (UInt16.ofNat c.toNat) := by rw [IsHigh, hu]; omega
    have hlow : ¬ IsLow (UInt16.ofNat c.toNat) := by rw [IsLow, hu]; omega
    rw [charUnits, if_pos h, List.singleton_append, codePoints_cons_of_not_high hhigh, loneChar,
      if_neg (not_or.mpr ⟨hhigh, hlow⟩), hu, Char.ofNat_toNat]
  · have hh : (UInt16.ofNat (0xD800 + (c.toNat - 0x10000) / 0x400)).toNat
        = 0xD800 + (c.toNat - 0x10000) / 0x400 := by rw [UInt16.toNat_ofNat']; omega
    have hl : (UInt16.ofNat (0xDC00 + (c.toNat - 0x10000) % 0x400)).toNat
        = 0xDC00 + (c.toNat - 0x10000) % 0x400 := by rw [UInt16.toNat_ofNat']; omega
    rw [charUnits, if_neg h, List.cons_append, List.cons_append, List.nil_append, codePoints, if_pos]
    · rw [pairChar, hh, hl, show 0x10000 + (0xD800 + (c.toNat - 0x10000) / 0x400 - 0xD800) * 0x400
        + (0xDC00 + (c.toNat - 0x10000) % 0x400 - 0xDC00) = c.toNat by omega, Char.ofNat_toNat]
    · rw [IsHigh, IsLow, hh, hl]; omega

/-- A text of scalar values has no lone surrogate, so the encoder sees it as it is. -/
@[simp] theorem codePoints_utf16 (s : List Char) : codePoints (utf16 s) = s := by
  induction s with
  | nil => rfl
  | cons c s ih =>
    rw [utf16, List.flatMap_cons, codePoints_charUnits_append]
    exact congrArg (c :: ·) ih

/-- Different names are different strings. -/
theorem lit_inj {s t : String} : lit s = lit t ↔ s = t := by
  constructor
  · intro h
    have hpoints := congrArg codePoints h
    rw [lit, lit, codePoints_utf16, codePoints_utf16] at hpoints
    exact String.toList_inj.mp hpoints
  · rintro rfl
    rfl

@[simp] theorem utf16_nil : utf16 [] = [] := rfl

theorem utf16_cons (c : Char) (s : List Char) : utf16 (c :: s) = charUnits c ++ utf16 s := rfl

theorem utf16_append (s t : List Char) : utf16 (s ++ t) = utf16 s ++ utf16 t := List.flatMap_append

/-- Appending `n` times `U+0000` to the units is appending it to the text. -/
theorem utf16_append_replicate_nul (s : List Char) (n : ℕ) :
    utf16 s ++ List.replicate n 0 = utf16 (s ++ List.replicate n '\x00') := by
  rw [utf16_append]
  congr 1
  induction n with
  | zero => rfl
  | succ n ih => rw [List.replicate_succ, List.replicate_succ, utf16_cons, ← ih]; rfl

/-! ### UTF-8 -/

/-- `getBytes(Charset.forName("UTF8"))`. -/
def getBytes (s : JString) : List Byte := (codePoints s).flatMap String.utf8EncodeChar

/-- The scalar values of a byte sequence, at most `n` of them: a byte that begins no
encoded character is replaced by `U+FFFD`. -/
def decodeChars : ℕ → List Byte → List Char
  | 0, _ => []
  | _ + 1, [] => []
  | n + 1, b :: bs =>
    match (b :: bs).toByteArray.utf8DecodeChar? 0 with
    | some c => c :: decodeChars n ((b :: bs).drop c.utf8Size)
    | none => '\uFFFD' :: decodeChars n bs

/-- `new String(bytes, Charset.forName("UTF8"))`. -/
def newString (bs : List Byte) : JString := utf16 (decodeChars bs.length bs)

theorem getBytes_utf16 (s : List Char) : getBytes (utf16 s) = s.flatMap String.utf8EncodeChar := by
  rw [getBytes, codePoints_utf16]

/-- Every unit is encoded by a byte at least: a pair takes four. -/
theorem length_le_length_getBytes (s : JString) : s.length ≤ (getBytes s).length := by
  have hlen (c : Char) (cs : List Char) : ((c :: cs).flatMap String.utf8EncodeChar).length
      = c.utf8Size + (cs.flatMap String.utf8EncodeChar).length := by
    rw [List.flatMap_cons, List.length_append, String.length_utf8EncodeChar]
  induction s using codePoints.induct with
  | case1 => exact Nat.zero_le _
  | case2 u =>
    rw [getBytes, codePoints, hlen]
    exact Nat.le_add_right_of_le (loneChar u).utf8Size_pos
  | case3 h l rest hp ih =>
    have hval : (pairChar h l).toNat = 0x10000 + (h.toNat - 0xD800) * 0x400 + (l.toNat - 0xDC00) := by
      obtain ⟨⟨h1, h2⟩, h3, h4⟩ := hp
      exact char_toNat_ofNat (Or.inr ⟨by omega, by omega⟩)
    have hsize : (pairChar h l).utf8Size = 4 := by
      rw [Char.utf8Size_eq_four_iff, UInt32.lt_iff_toNat_lt]
      change 0xFFFF < (pairChar h l).toNat
      omega
    rw [getBytes, codePoints, if_pos hp, hlen, hsize]
    rw [getBytes] at ih
    simp only [List.length_cons]
    omega
  | case4 h l rest hp ih =>
    have hpos := (loneChar h).utf8Size_pos
    rw [getBytes, codePoints, if_neg hp, hlen]
    rw [getBytes] at ih
    rw [List.length_cons]
    omega

theorem decodeChars_encode (s : List Char) :
    ∀ n, (s.flatMap String.utf8EncodeChar).length ≤ n → decodeChars n (s.flatMap String.utf8EncodeChar) = s := by
  induction s with
  | nil => intro n _; cases n <;> rfl
  | cons c s ih =>
    intro n hn
    have hlen := String.length_utf8EncodeChar c
    have hpos := c.utf8Size_pos
    rw [List.flatMap_cons, List.length_append] at hn
    obtain ⟨n, rfl⟩ : ∃ m, n = m + 1 := ⟨n - 1, by omega⟩
    obtain ⟨b, bs, hb⟩ : ∃ b bs, String.utf8EncodeChar c = b :: bs :=
      List.exists_cons_of_ne_nil String.utf8EncodeChar_ne_nil
    have hdec : (String.utf8EncodeChar c ++ s.flatMap String.utf8EncodeChar).toByteArray.utf8DecodeChar? 0
        = some c := by
      rw [List.toByteArray_append]
      exact ByteArray.utf8DecodeChar?_utf8EncodeChar_append
    have hdrop : (String.utf8EncodeChar c ++ s.flatMap String.utf8EncodeChar).drop c.utf8Size
        = s.flatMap String.utf8EncodeChar := List.drop_left' hlen
    rw [List.flatMap_cons]
    rw [hb, List.cons_append] at hdec hdrop ⊢
    rw [decodeChars, hdec]
    simp only [hdrop]
    rw [ih n (by omega)]

/-- **A text of scalar values survives the trip through its UTF-8 bytes.** -/
theorem newString_getBytes (s : List Char) : newString (getBytes (utf16 s)) = utf16 s := by
  rw [newString, getBytes_utf16, decodeChars_encode s _ le_rfl]

/-! ### ASCII -/

/-- A unit below `U+0080` is one byte, of the same value. -/
theorem utf8EncodeChar_loneChar {u : UInt16} (h : u.toNat < 128) :
    String.utf8EncodeChar (loneChar u) = [UInt8.ofNat u.toNat] := by
  have hval : (loneChar u).toNat = u.toNat := by
    rw [loneChar, if_neg (by rw [IsHigh, IsLow]; omega)]
    exact char_toNat_ofNat (Or.inl (by omega))
  have hle : (loneChar u).val.toNat ≤ 127 := by
    change (loneChar u).toNat ≤ 127
    omega
  rw [String.utf8EncodeChar, if_pos hle]
  change [UInt8.ofNat (loneChar u).toNat] = _
  rw [hval]

/-- An ASCII string is encoded unit by unit. -/
theorem getBytes_ascii {s : JString} (h : ∀ u ∈ s, u.toNat < 128) :
    getBytes s = s.map fun u => UInt8.ofNat u.toNat := by
  induction s with
  | nil => rfl
  | cons u s ih =>
    have hu := h u List.mem_cons_self
    rw [getBytes, codePoints_cons_of_not_high (by rw [IsHigh]; omega), List.flatMap_cons,
      utf8EncodeChar_loneChar hu, ← getBytes, ih fun v hv => h v (List.mem_cons_of_mem u hv)]
    rfl

end GpsTracker.Java
