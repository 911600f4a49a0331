import Mathlib.Data.List.Basic
import Mathlib.Data.List.Infix

/-!
# Texts in UTF-8

The bytes of a text, and where a text can be cut: an ASCII byte is never a part of
another character, so what stands before it and what stands after it are texts of
their own (`encode_eq_append_cons_iff`). Bytes that were put into an ASCII frame
are therefore UTF-8 exactly when the whole is, whatever they are.
-/

namespace GpsTracker.Utf8

/-- The bytes of a text. -/
def encode (text : List Char) : List UInt8 := text.flatMap String.utf8EncodeChar

@[simp] theorem encode_nil : encode [] = [] := rfl

theorem encode_cons (c : Char) (text : List Char) :
    encode (c :: text) = String.utf8EncodeChar c ++ encode text := rfl

theorem encode_append (s t : List Char) : encode (s ++ t) = encode s ++ encode t := List.flatMap_append

/-- An ASCII character is one byte. -/
theorem utf8EncodeChar_ascii {c : Char} (h : c.toNat < 128) :
    String.utf8EncodeChar c = [UInt8.ofNat c.toNat] := by
  have hle : c.val.toNat ≤ 0x7f := Nat.le_of_lt_succ h
  rw [String.utf8EncodeChar, if_pos hle]
  rfl

/-- No byte of another character is ASCII. -/
theorem le_of_mem_utf8EncodeChar {c : Char} (h : 128 ≤ c.toNat) :
    ∀ b ∈ String.utf8EncodeChar c, 128 ≤ b.toNat := by
  have hgt : ¬ c.val.toNat ≤ 0x7f := Nat.not_le_of_lt h
  intro b hb
  rw [String.utf8EncodeChar, if_neg hgt] at hb
  -- two, three or four bytes, each with its top bit set
  split_ifs at hb <;> simp only [List.mem_cons, List.not_mem_nil, or_false] at hb
  · rcases hb with rfl | rfl <;> rw [UInt8.toNat_ofNat'] <;> omega
  · rcases hb with rfl | rfl | rfl <;> rw [UInt8.toNat_ofNat'] <;> omega
  · rcases hb with rfl | rfl | rfl | rfl <;> rw [UInt8.toNat_ofNat'] <;> omega

theorem encode_cons_ascii {c : Char} (h : c.toNat < 128) (text : List Char) :
    encode (c :: text) = UInt8.ofNat c.toNat :: encode text := by
  rw [encode_cons, utf8EncodeChar_ascii h]
  rfl

/-- Only the empty text has no bytes. -/
theorem encode_eq_nil_iff {text : List Char} : encode text = [] ↔ text = [] := by
  cases text with
  | nil => simp
  | cons c text => simp [encode_cons, String.utf8EncodeChar_ne_nil]

/-- **A text falls apart at an ASCII character.** -/
theorem encode_eq_append_cons_iff {c : Char} (h : c.toNat < 128) {text : List Char} :
    ∀ {front rest : List UInt8}, encode text = front ++ UInt8.ofNat c.toNat :: rest ↔
      ∃ s t, text = s ++ c :: t ∧ encode s = front ∧ encode t = rest := by
  have hback {front rest : List UInt8} {text : List Char}
      (hst : ∃ s t, text = s ++ c :: t ∧ encode s = front ∧ encode t = rest) :
      encode text = front ++ UInt8.ofNat c.toNat :: rest := by
    obtain ⟨s, t, rfl, rfl, rfl⟩ := hst
    rw [encode_append, encode_cons_ascii h]
  have hbyte : (UInt8.ofNat c.toNat).toNat = c.toNat := by
    rw [UInt8.toNat_ofNat']
    omega
  induction text with
  | nil => exact ⟨fun heq => by simp at heq, hback⟩
  | cons d text ih =>
    intro front rest
    refine ⟨fun heq => ?_, hback⟩
    rw [encode_cons] at heq
    rcases List.append_eq_append_iff.mp heq with ⟨more, hfront, hrest⟩ | ⟨more, hchar, hrest⟩
    · -- the character lies before the cut
      obtain ⟨s, t, rfl, hs, ht⟩ := ih.mp hrest
      exact ⟨d :: s, t, rfl, by rw [encode_cons, hs, hfront], ht⟩
    · cases more with
      | nil =>
        obtain ⟨s, t, rfl, hs, ht⟩ := ih.mp (show encode text = [] ++ UInt8.ofNat c.toNat :: rest from hrest.symm)
        exact ⟨d :: s, t, rfl, by rw [encode_cons, hs, hchar, List.append_nil, List.append_nil], ht⟩
      | cons b more =>
        -- the cut is inside the character, whose bytes are then not all above ASCII
        obtain ⟨rfl, hmore⟩ := List.cons.inj hrest
        have hd : d.toNat < 128 := by
          by_contra hd
          have hb := le_of_mem_utf8EncodeChar (Nat.le_of_not_lt hd) (UInt8.ofNat c.toNat) (by simp [hchar])
          omega
        have hdbyte : (UInt8.ofNat d.toNat).toNat = d.toNat := by
          rw [UInt8.toNat_ofNat']
          omega
        rw [utf8EncodeChar_ascii hd] at hchar
        obtain ⟨rfl, hone⟩ : front = [] ∧ UInt8.ofNat c.toNat :: more = [UInt8.ofNat d.toNat] := by
          cases front with
          | nil => exact ⟨rfl, hchar.symm⟩
          | cons x front => simp at hchar
        obtain ⟨hcd, rfl⟩ := List.cons.inj hone
        have hnat : d.toNat = c.toNat := by rw [← hbyte, ← hdbyte, hcd]
        exact ⟨[], text, by rw [Char.ext (UInt32.toNat_inj.mp hnat), List.nil_append], rfl, hmore.symm⟩

/-- A text that begins with ASCII characters. -/
theorem encode_eq_ascii_append_iff {front : List Char} (h : ∀ c ∈ front, c.toNat < 128) {rest : List UInt8} :
    ∀ {text : List Char}, encode text = encode front ++ rest ↔ ∃ t, text = front ++ t ∧ encode t = rest := by
  induction front with
  | nil => simp
  | cons c front ih =>
    intro text
    obtain ⟨hc, hfront⟩ := List.forall_mem_cons.mp h
    rw [encode_cons_ascii hc, List.cons_append, ← List.nil_append (_ :: _), encode_eq_append_cons_iff hc]
    constructor
    · rintro ⟨s, t, rfl, hs, ht⟩
      obtain ⟨u, rfl, hu⟩ := (ih hfront).mp ht
      exact ⟨u, by rw [encode_eq_nil_iff.mp hs]; rfl, hu⟩
    · rintro ⟨u, rfl, hu⟩
      exact ⟨[], front ++ u, rfl, rfl, by rw [encode_append, hu]⟩

/-- A text without `U+0000` has no zero byte. -/
theorem zero_notMem_encode {text : List Char} (h : '\x00' ∉ text) : (0 : UInt8) ∉ encode text := by
  intro h0
  obtain ⟨front, rest, heq⟩ := List.append_of_mem h0
  obtain ⟨s, t, rfl, -, -⟩ := (encode_eq_append_cons_iff (c := '\x00') (by decide)).mp heq
  exact h (by simp)

end GpsTracker.Utf8
