import GpsTracker.Library.Json.Templates
import GpsTracker.Library.Utf8
import GpsTracker.Java.Text

/-!
# The C strings of the iOS app

The app makes a `std::string` of an `NSString` by its C string in the default C
string encoding, which the system chooses: Mac OS Roman for most languages,
another one for Chinese or Japanese (`CStringEncoding`). For a text that the
encoding cannot hold there is no C string but `NULL`, and a text that it can hold
need not be written in UTF-8, as JSON is.

A member of a JSON text whose value went through such an encoding is read back
exactly when the value is plain and the encoding writes it in UTF-8 (`Carried`,
`told_member_iff`).
-/

namespace GpsTracker.Ios

open GpsTracker.Java GpsTracker.Json GpsTracker.Utf8

/-! ### The default encoding -/

/-- The characters that every encoding writes as ASCII does: no controls, no quotation mark
(it has a rule of its own), and no backslash, in whose place Japanese encodings have a yen sign. -/
def Printable (text : List Char) : Prop :=
  ∀ c ∈ text, 0x20 ≤ c.toNat ∧ c.toNat < 0x7f ∧ c.toNat ≠ 0x22 ∧ c.toNat ≠ 0x5c

instance (text : List Char) : Decidable (Printable text) :=
  List.decidableBAll (fun c : Char => 0x20 ≤ c.toNat ∧ c.toNat < 0x7f ∧ c.toNat ≠ 0x22 ∧ c.toNat ≠ 0x5c) text

/-- The `std::string` made of a C string: its bytes up to the first zero. -/
def stdString (bs : List Byte) : List Byte := bs.takeWhile fun b => b ≠ 0

/-- A default C string encoding, and what is known of every one. -/
structure CStringEncoding where
  /-- The bytes of a text, or `NULL` if they would not hold it. -/
  cStringUsingEncoding : JString → Option (List Byte)
  /-- Printable characters are written as in ASCII. -/
  printable : ∀ text, Printable text → cStringUsingEncoding (utf16 text) = some (encode text)
  /-- So is a quotation mark, and what is before it and after it is written by itself. -/
  mark : ∀ s t, cStringUsingEncoding (s ++ quote :: t) =
    (cStringUsingEncoding s).bind fun bs => (cStringUsingEncoding t).map fun cs => bs ++ 0x22 :: cs
  /-- Only `U+0000` is written with a zero byte. -/
  nul : ∀ s bs, cStringUsingEncoding s = some bs → 0 ∈ bs → 0 ∈ s
  /-- A C string that happens to be UTF-8 is not longer than UTF-8 for the text itself: UTF-8
  aside, a character has one or two bytes, or four with digits among them, which are no UTF-8. -/
  compact : ∀ s bs text, cStringUsingEncoding s = some bs → stdString bs = encode text →
    (encode text).length ≤ width s

/-- A text in ASCII, if it can be written so. -/
def asciiBytes (s : JString) : Option (List Byte) :=
  if s.all (·.toNat < 128) then some (s.map fun u => UInt8.ofNat u.toNat) else none

theorem asciiBytes_utf16 {text : List Char} (h : Printable text) :
    asciiBytes (utf16 text) = some (encode text) := by
  have hascii : ∀ u ∈ utf16 text, u.toNat < 128 := by
    intro u hu
    obtain ⟨c, hc, hu⟩ := List.mem_flatMap.mp hu
    have hlt := (h c hc).2.1
    rw [charUnits, if_pos (by omega), List.mem_singleton] at hu
    rw [hu, UInt16.toNat_ofNat']
    omega
  rw [asciiBytes, if_pos (by simpa using hascii), ← getBytes_ascii hascii, getBytes_utf16]
  rfl

theorem asciiBytes_quote (s t : JString) : asciiBytes (s ++ quote :: t) =
    (asciiBytes s).bind fun bs => (asciiBytes t).map fun cs => bs ++ 0x22 :: cs := by
  rw [asciiBytes, asciiBytes, asciiBytes, List.all_append, List.all_cons,
    show decide (quote.toNat < 128) = true from rfl, Bool.true_and]
  by_cases hs : s.all (·.toNat < 128) = true
  · by_cases ht : t.all (·.toNat < 128) = true
    · rw [hs, ht, List.map_append]
      rfl
    · rw [hs, eq_false_of_ne_true ht]
      rfl
  · rw [eq_false_of_ne_true hs]
    rfl

theorem zero_mem_of_asciiBytes {s : JString} {bs : List Byte} (h : asciiBytes s = some bs)
    (h0 : 0 ∈ bs) : 0 ∈ s := by
  rw [asciiBytes] at h
  split_ifs at h with hs
  cases h
  obtain ⟨u, hu, hzero⟩ := List.mem_map.mp h0
  have hval := congrArg UInt8.toNat hzero
  have hlt := of_decide_eq_true (List.all_eq_true.mp hs u hu)
  rw [UInt8.toNat_ofNat', show (0 : UInt8).toNat = 0 from rfl] at hval
  obtain rfl : u = 0 := UInt16.toNat_inj.mp (by rw [show (0 : UInt16).toNat = 0 from rfl]; omega)
  exact hu

theorem length_le_of_asciiBytes {s : JString} {bs : List Byte} {text : List Char} (h : asciiBytes s = some bs)
    (htext : stdString bs = encode text) : (encode text).length ≤ width s := by
  rw [asciiBytes] at h
  split_ifs at h with hs
  cases h
  have hlen : (stdString (s.map fun u => UInt8.ofNat u.toNat)).length ≤ _ := (List.takeWhile_prefix _).length_le
  rw [htext, List.length_map] at hlen
  exact Nat.le_trans hlen (length_le_width s)

/-- ASCII, as any default encoding writes it, and nothing beyond. -/
def asciiEncoding : CStringEncoding where
  cStringUsingEncoding := asciiBytes
  printable _ h := asciiBytes_utf16 h
  mark := asciiBytes_quote
  nul _ _ h h0 := zero_mem_of_asciiBytes h h0
  compact _ _ _ h htext := length_le_of_asciiBytes h htext

/-! ### UTF-16 and UTF-8 -/

/-- The room that a text takes in UTF-8, seen from its code units. -/
theorem width_utf16 (text : List Char) : width (utf16 text) = (encode text).length := by
  induction text with
  | nil => rfl
  | cons c text ih =>
    have hunits : width (charUnits c) = c.utf8Size := by
      have hc := char_toNat_cases c
      have hsize : c.utf8Size = (String.utf8EncodeChar c).length := (String.length_utf8EncodeChar c).symm
      have hval : c.val.toNat = c.toNat := rfl
      rw [hsize, String.utf8EncodeChar, charUnits, hval]
      by_cases hbmp : c.toNat < 0x10000
      · have hu : (UInt16.ofNat c.toNat).toNat = c.toNat := by
          rw [UInt16.toNat_ofNat']
          omega
        rw [if_pos hbmp, width_cons, unitWidth, hu, width_nil]
        split_ifs <;> first | rfl | omega
      · have hh : (UInt16.ofNat (0xD800 + (c.toNat - 0x10000) / 0x400)).toNat =
            0xD800 + (c.toNat - 0x10000) / 0x400 := by
          rw [UInt16.toNat_ofNat']
          omega
        have hl : (UInt16.ofNat (0xDC00 + (c.toNat - 0x10000) % 0x400)).toNat =
            0xDC00 + (c.toNat - 0x10000) % 0x400 := by
          rw [UInt16.toNat_ofNat']
          omega
        rw [if_neg hbmp, width_cons, width_cons, unitWidth, unitWidth, hh, hl, width_nil]
        split_ifs <;> first | rfl | omega
    rw [utf16_cons, width_append, hunits, ih, encode_cons, List.length_append, String.length_utf8EncodeChar]

/-- An ASCII character is the unit of its number. -/
theorem utf16_cons_ascii {c : Char} (h : c.toNat < 128) (text : List Char) :
    utf16 (c :: text) = UInt16.ofNat c.toNat :: utf16 text := by
  rw [utf16_cons, charUnits, if_pos (by omega)]
  rfl

theorem plain_utf16 {text : List Char} (h : Printable text) : Plain (utf16 text) := by
  intro u hu
  obtain ⟨c, hc, hu⟩ := List.mem_flatMap.mp hu
  obtain ⟨h1, h2, h3, h4⟩ := h c hc
  rw [charUnits, if_pos (by omega), List.mem_singleton] at hu
  have hval : u.toNat = c.toNat := by
    rw [hu, UInt16.toNat_ofNat']
    omega
  refine ⟨?_, ?_, UInt16.le_iff_toNat_le.mpr (by rw [hval]; exact h1)⟩
  · rintro rfl
    exact h3 hval.symm
  · rintro rfl
    exact h4 hval.symm

/-! ### Reading bytes -/

/-- The bytes are the UTF-8 of a text with these tokens. -/
def Reads (bs : List Byte) (ts : List Token) : Prop := ∃ text, encode text = bs ∧ lex (utf16 text) = some ts

/-- Read from inside a string, the bytes have no tokens after the string's end. -/
def Strays (bs : List Byte) : Prop := ∀ text, encode text = bs → Stray (utf16 text)

/-- `"name":"`. -/
def memberChars (name : List Char) : List Char := '\x22' :: (name ++ ['\x22', ':', '\x22'])

theorem utf16_memberChars_append (name text : List Char) :
    utf16 (memberChars name ++ text) = member (utf16 name) (utf16 text) := by
  have hquote : charUnits '\x22' = [quote] := by decide
  have hcolon : charUnits ':' = [0x3a] := by decide
  simp [memberChars, member, utf16_cons, utf16_append, hquote, hcolon]

theorem ascii_of_printable {text : List Char} (h : Printable text) : ∀ c ∈ text, c.toNat < 128 :=
  fun c hc => Nat.lt_trans (h c hc).2.1 (by decide)

theorem ascii_memberChars {name : List Char} (h : Printable name) : ∀ c ∈ memberChars name, c.toNat < 128 := by
  intro c hc
  simp only [memberChars, List.mem_cons, List.mem_append, List.not_mem_nil, or_false] at hc
  rcases hc with rfl | hc | rfl | rfl | rfl
  · decide
  · exact ascii_of_printable h c hc
  all_goals decide

/-- Bytes before a fixed text's tokens. -/
theorem reads_append_iff {front : List Char} (h : ∀ c ∈ front, c.toNat < 128) {first : List Token}
    (hlex : ∀ s, lex (utf16 front ++ s) = (lex s).map fun ts => first ++ ts) (bs : List Byte) (ts : List Token) :
    Reads (encode front ++ bs) (first ++ ts) ↔ Reads bs ts := by
  constructor
  · rintro ⟨text, hbs, htokens⟩
    obtain ⟨t, rfl, ht⟩ := (encode_eq_ascii_append_iff h).mp hbs
    rw [utf16_append, hlex] at htokens
    obtain ⟨us, hus, heq⟩ := Option.map_eq_some_iff.mp htokens
    exact ⟨t, ht, by rw [hus, List.append_cancel_left heq]⟩
  · rintro ⟨t, rfl, ht⟩
    exact ⟨front ++ t, encode_append front t, by rw [utf16_append, hlex, ht]; rfl⟩

/-- The bytes are the UTF-8 of the text, which is plain. -/
def Written (bs : List Byte) (s : JString) : Prop := Plain s ∧ ∃ text, s = utf16 text ∧ bs = encode text

/-- **A member is read back exactly when its value is plain and written in UTF-8.** -/
theorem reads_member_iff {name : List Char} (hname : Printable name) {d tail : List Byte} {s : JString}
    (hd : ∀ text, d = encode text → (encode text).length ≤ width s) (htail : Strays tail) (ts : List Token) :
    Reads (encode (memberChars name) ++ (d ++ 0x22 :: tail)) (.string (utf16 name) :: .colon :: .string s :: ts) ↔
      Written d s ∧ Reads tail ts := by
  constructor
  · rintro ⟨text, hbytes, hlex⟩
    obtain ⟨t, rfl, ht⟩ := (encode_eq_ascii_append_iff (ascii_memberChars hname)).mp hbytes
    -- the text falls apart at the closing quotation mark
    obtain ⟨a, b, rfl, rfl, rfl⟩ := (encode_eq_append_cons_iff (c := '\x22') (by decide)).mp ht
    rw [utf16_memberChars_append, utf16_append, utf16_cons_ascii (by decide)] at hlex
    have hwidth : width (utf16 a) ≤ width s := by
      rw [width_utf16]
      exact hd a rfl
    obtain ⟨⟨hplain, has⟩, htokens⟩ := (lex_inserted_iff (plain_utf16 hname) (htail b rfl) hwidth ts).mp hlex
    exact ⟨⟨hplain, a, has.symm, rfl⟩, b, rfl, htokens⟩
  · rintro ⟨⟨hplain, a, rfl, rfl⟩, b, rfl, htokens⟩
    refine ⟨memberChars name ++ (a ++ '\x22' :: b), ?_, ?_⟩
    · rw [encode_append, encode_append, encode_cons_ascii (by decide)]
      rfl
    · rw [utf16_memberChars_append, utf16_append, utf16_cons_ascii (by decide)]
      exact (lex_inserted_iff (plain_utf16 hname) (htail b rfl) (Nat.le_refl _) ts).mpr ⟨⟨hplain, rfl⟩, htokens⟩

/-- A member that is cut off in its value is not read back. -/
theorem not_reads_cut {name : List Char} (hname : Printable name) {d : List Byte} {s : JString}
    (hd : ∀ text, d = encode text → (encode text).length ≤ width s) (ts : List Token) :
    ¬ Reads (encode (memberChars name) ++ d) (.string (utf16 name) :: .colon :: .string s :: ts) := by
  rintro ⟨text, hbytes, hlex⟩
  obtain ⟨a, rfl, rfl⟩ := (encode_eq_ascii_append_iff (ascii_memberChars hname)).mp hbytes
  rw [utf16_memberChars_append] at hlex
  refine lex_cut_ne (plain_utf16 hname) ?_ ts hlex
  rw [width_utf16]
  exact hd a rfl

/-! ### Reading the C string of a text -/

namespace CStringEncoding

variable (enc : CStringEncoding)

/-- The `std::string` of a text, if it has a C string. -/
def toStdString (s : JString) : Option (List Byte) := (enc.cStringUsingEncoding s).map stdString

/-- The text is plain, and the encoding writes it in UTF-8. -/
def Carried (s : JString) : Prop :=
  Plain s ∧ ∃ text, s = utf16 text ∧ enc.cStringUsingEncoding s = some (encode text)

/-- The text has a `std::string`, the UTF-8 of a text with these tokens. -/
def Told (s : JString) (ts : List Token) : Prop := ∃ bs, enc.toStdString s = some bs ∧ Reads bs ts

end CStringEncoding

theorem stdString_append {bs : List Byte} (h : (0 : Byte) ∉ bs) (cs : List Byte) :
    stdString (bs ++ cs) = bs ++ stdString cs :=
  List.takeWhile_append_of_pos fun _ hb => decide_eq_true fun h0 => h (h0 ▸ hb)

theorem stdString_eq_self {bs : List Byte} (h : (0 : Byte) ∉ bs) : stdString bs = bs := by
  simpa [stdString] using stdString_append h []

/-- What comes after a zero byte is cut off. -/
theorem stdString_append_of_mem {bs : List Byte} (h : (0 : Byte) ∈ bs) (cs : List Byte) :
    stdString (bs ++ cs) = stdString bs := by
  induction bs with
  | nil => exact absurd h List.not_mem_nil
  | cons b bs ih =>
    by_cases hb : b = 0
    · simp [stdString, hb]
    · have hbs : (0 : Byte) ∈ bs := (List.mem_cons.mp h).resolve_left fun h0 => hb h0.symm
      simpa [stdString, hb] using ih hbs

theorem zero_notMem_of_plain {s : JString} (h : Plain s) : (0 : UInt16) ∉ s :=
  fun h0 => absurd (h 0 h0) (by decide)

theorem zero_notMem_encode_of_ascii {text : List Char} (h : ∀ c ∈ text, c.toNat ≠ 0) :
    (0 : Byte) ∉ encode text :=
  zero_notMem_encode fun h0 => h _ h0 rfl

section Told

variable {enc : CStringEncoding}

/-- The C string of a plain text is not cut. -/
theorem carried_iff_written {s : JString} {bs : List Byte} (h : enc.cStringUsingEncoding s = some bs) :
    enc.Carried s ↔ Written (stdString bs) s := by
  refine and_congr_right fun hplain => ?_
  have h0 : (0 : Byte) ∉ bs := fun h0 => zero_notMem_of_plain hplain (enc.nul s bs h h0)
  rw [h, stdString_eq_self h0]
  simp

/-- Printable characters before a quotation mark. -/
theorem toStdString_printable {text : List Char} (h : Printable text) (s : JString) :
    enc.toStdString (utf16 text ++ quote :: s) =
      (enc.toStdString s).map fun bs => encode (text ++ ['\x22']) ++ bs := by
  have h0 : (0 : Byte) ∉ encode (text ++ ['\x22']) := by
    refine zero_notMem_encode_of_ascii fun c hc => ?_
    rcases List.mem_append.mp hc with hc | hc
    · have := (h c hc).1
      omega
    · rw [List.mem_singleton.mp hc]
      decide
  rw [CStringEncoding.toStdString, CStringEncoding.toStdString, enc.mark, enc.printable text h]
  cases enc.cStringUsingEncoding s with
  | none => rfl
  | some bs =>
    have happend : encode text ++ 0x22 :: bs = encode (text ++ ['\x22']) ++ bs := by
      rw [encode_append, List.append_assoc]
      rfl
    simp only [Option.bind_some, Option.map_some, happend, stdString_append h0]

/-- Printable characters and a member's name before its value. -/
theorem toStdString_printable_member {front name : List Char} (hfront : Printable front)
    (hname : Printable name) (s : JString) : enc.toStdString (utf16 front ++ member (utf16 name) s) =
      (enc.toStdString s).map fun bs => encode front ++ (encode (memberChars name) ++ bs) := by
  have hmember : member (utf16 name) s = quote :: (utf16 name ++ quote :: (utf16 [':'] ++ quote :: s)) := by
    simp [member, utf16_cons_ascii (c := ':') (by decide)]
  have hchars : memberChars name = ['\x22'] ++ ((name ++ ['\x22']) ++ ([':'] ++ ['\x22'])) := by
    simp [memberChars]
  rw [hmember, toStdString_printable hfront, toStdString_printable hname,
    toStdString_printable (by decide), hchars]
  cases enc.toStdString s with
  | none => rfl
  | some bs => simp only [Option.map_some, encode_append, List.append_assoc]

theorem toStdString_member {name : List Char} (h : Printable name) (s : JString) :
    enc.toStdString (member (utf16 name) s) = (enc.toStdString s).map fun bs => encode (memberChars name) ++ bs :=
  @toStdString_printable_member enc [] name (by decide) h s

/-- **A member whose value went through the encoding is read back exactly when the value is
carried and the rest is read.** -/
theorem told_member_iff {name : List Char} (hname : Printable name) {tail : JString}
    (htail : ∀ bs, enc.toStdString tail = some bs → Strays bs) (s : JString) (ts : List Token) :
    enc.Told (member (utf16 name) (s ++ quote :: tail)) (.string (utf16 name) :: .colon :: .string s :: ts) ↔
      enc.Carried s ∧ enc.Told tail ts := by
  rw [CStringEncoding.Told, toStdString_member hname, CStringEncoding.toStdString, enc.mark]
  cases hs : enc.cStringUsingEncoding s with
  | none => simp [CStringEncoding.Carried, hs]
  | some b =>
    have hd (text : List Char) (h : stdString b = encode text) : (encode text).length ≤ width s :=
      enc.compact s b text hs h
    rw [carried_iff_written hs]
    cases ht : enc.cStringUsingEncoding tail with
    | none => simp [CStringEncoding.Told, CStringEncoding.toStdString, ht]
    | some c =>
      have htold : enc.Told tail ts ↔ Reads (stdString c) ts := by
        simp [CStringEncoding.Told, CStringEncoding.toStdString, ht]
      have hstray : Strays (stdString c) := htail _ (by rw [CStringEncoding.toStdString, ht]; rfl)
      simp only [Option.bind_some, Option.map_some, Option.some.injEq, exists_eq_left', htold]
      by_cases h0 : (0 : Byte) ∈ b
      · rw [stdString_append_of_mem h0]
        refine iff_of_false (not_reads_cut hname hd ts) fun h => ?_
        exact zero_notMem_of_plain h.1.1 (enc.nul s b hs h0)
      · rw [stdString_append h0, stdString_eq_self h0]
        rw [stdString_eq_self h0] at hd
        exact reads_member_iff hname hd hstray ts

end Told

end GpsTracker.Ios
