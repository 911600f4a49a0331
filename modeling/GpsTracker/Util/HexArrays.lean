import GpsTracker.Java.Hex
import GpsTracker.Util.Pairs
import Mathlib.Data.List.ReduceOption

/-!
# Hexadecimal arrays

`hexToBytesArray` makes a byte of every two characters. It keeps the two nibbles
in cells that live through the whole loop, and a character that is no digit
leaves its cell as it was. The high cell is shifted after every byte, so nothing
of it is left for the next one; the low cell stays, and its digit goes into the
next byte whose second character is no digit (`memoryless_iff`). On the texts of
`bytesToNoSpaceHexString` every character is a digit.
-/

namespace GpsTracker.Util

open GpsTracker.Java

/-! ### Lower case -/

/-- The lower-case letters outside ASCII, by what stands before and after them: none is
a digit. The Turkish and Lithuanian locales, with rules of their own, are left out. -/
structure CaseTable where
  /-- The unit that replaces a unit. -/
  small : JString → UInt16 → JString → UInt16
  /-- It is no digit. -/
  not_digit : ∀ before u after, 0x80 ≤ u → hexValue (small before u after) = none

/-- The lower-case form of one unit: `U+0130` becomes two. -/
def lowerUnits (t : CaseTable) (before : JString) (u : UInt16) (after : JString) : JString :=
  if u < 0x80 then (if 0x41 ≤ u ∧ u ≤ 0x5A then [u + 0x20] else [u])
  else if u = 0x130 then [0x69, 0x307]
  else [t.small before u after]

/-- `toLowerCase()` on what follows `before`. -/
def toLowerCase (t : CaseTable) (before : JString) : JString → JString
  | [] => []
  | u :: after => lowerUnits t before u after ++ toLowerCase t (before ++ [u]) after

/-! ### The two functions -/

/-- `String.format("%02x", b)`. -/
def formatByte (b : Byte) : JString := [hexUnit (b.toNat / 16), hexUnit (b.toNat % 16)]

/-- `bytesToNoSpaceHexString`. -/
def bytesToNoSpaceHexString (paramArrayOfByte : List Byte) : JString := paramArrayOfByte.flatMap formatByte

/-- A character as an `int`, less another. -/
def charMinus (ch origin : UInt16) : JInt := BitVec.ofNat 32 ch.toNat - BitVec.ofNat 32 origin.toNat

/-- What a character leaves in the cell `b[j]`. -/
def cell (old : JInt) (ch : UInt16) : JInt :=
  if 0x30 ≤ ch ∧ ch ≤ 0x39 then charMinus ch 0x30
  else if 0x41 ≤ ch ∧ ch ≤ 0x46 then charMinus ch 0x41 + 10
  else if 0x61 ≤ ch ∧ ch ≤ 0x66 then charMinus ch 0x61 + 10
  else old

/-- The two cells after a byte, and the byte. -/
def hexByte (b : JInt × JInt) (high low : UInt16) : (JInt × JInt) × Byte :=
  let b0 := cell b.1 high
  let b1 := cell b.2 low
  let b0 := (b0 &&& 0x0F) <<< 4
  let b1 := b1 &&& 0x0F
  ((b0, b1), narrow (b0 ||| b1))

/-- `hexToBytesArray`. -/
def hexToBytesArray (t : CaseTable) (hexString : JString) : Except Exn (List Byte) :=
  let hexString := toLowerCase t [] hexString
  let res := List.replicate (hexString.length / 2) 0
  fillPairs hexString hexByte ((hexString.length + 1) / 2) 0 (0, 0) res

/-! ### Memory -/

/-- The array of two texts is the array of the first followed by the array of the second. -/
def Memoryless (t : CaseTable) (h1 h2 : JString) : Prop :=
  ∃ b1 b2, hexToBytesArray t h1 = .ok b1 ∧ hexToBytesArray t h2 = .ok b2 ∧ hexToBytesArray t (h1 ++ h2) = .ok (b1 ++ b2)

/-- The digits of a text in lower case, `none` for a character that is none. -/
def hexClasses (h : JString) : List (Option ℕ) :=
  h.flatMap fun u => if u = 0x130 then [none, none] else [hexValue u]

/-- Every second one. -/
def lowClasses : List (Option ℕ) → List (Option ℕ)
  | _ :: low :: rest => low :: lowClasses rest
  | _ => []

/-- The last digit at a second place, zero before the first one. -/
def lastLow (h : JString) : ℕ := (lowClasses (hexClasses h)).reduceOption.getLastD 0

/-- The characters come in pairs, and the second text does not open with a pair that lacks
its second digit, or the last such digit of the first text is zero. -/
def NothingKept (h1 h2 : JString) : Prop :=
  (hexClasses h1).length % 2 = 0 ∧ (hexClasses h2).length % 2 = 0 ∧
    (lastLow h1 = 0 ∨ (lowClasses (hexClasses h2)).head? ≠ some none)

/-! ### Digits -/

theorem hexValue_lt {u : UInt16} {d : ℕ} (h : hexValue u = some d) : d < 16 := by
  simp only [hexValue, UInt16.le_iff_toNat_le] at h
  split_ifs at h with hdigit hcapital hsmall
  · simp at h hdigit
    omega
  · simp at h hcapital
    omega
  · simp at h hsmall
    omega

theorem hexValue_of_large {u : UInt16} (h : 0x80 ≤ u) : hexValue u = none := by
  simp only [hexValue, UInt16.le_iff_toNat_le] at h ⊢
  simp at h ⊢
  rw [if_neg (by omega), if_neg (by omega), if_neg (by omega)]

/-- A capital letter and its small one are the same digit, or none. -/
theorem hexValue_small {u : UInt16} (h : 0x41 ≤ u ∧ u ≤ 0x5A) : hexValue (u + 0x20) = hexValue u := by
  have hsmall : ∀ n < 26, hexValue (UInt16.ofNat (0x41 + n) + 0x20) = hexValue (UInt16.ofNat (0x41 + n)) := by decide
  have hu : u = UInt16.ofNat (0x41 + (u.toNat - 0x41)) := by
    simp only [UInt16.le_iff_toNat_le] at h
    simp at h
    rw [show 0x41 + (u.toNat - 0x41) = u.toNat by omega, UInt16.ofNat_toNat]
  rw [hu]
  apply hsmall
  simp only [UInt16.le_iff_toNat_le] at h
  simp at h
  omega

theorem map_hexValue_lowerUnits (t : CaseTable) (before : JString) (u : UInt16) (after : JString) :
    (lowerUnits t before u after).map hexValue = if u = 0x130 then [none, none] else [hexValue u] := by
  rw [lowerUnits]
  by_cases hascii : u < 0x80
  · have hne : u ≠ 0x130 := by
      rintro rfl
      exact absurd hascii (by decide)
    rw [if_pos hascii, if_neg hne]
    by_cases hcapital : 0x41 ≤ u ∧ u ≤ 0x5A
    · rw [if_pos hcapital, List.map_singleton, hexValue_small hcapital]
    · rw [if_neg hcapital, List.map_singleton]
  · rw [if_neg hascii]
    have hlarge := UInt16.not_lt.mp hascii
    by_cases hdotted : u = 0x130
    · rw [if_pos hdotted, if_pos hdotted]
      rfl
    · rw [if_neg hdotted, if_neg hdotted, List.map_singleton, t.not_digit _ _ _ hlarge,
        hexValue_of_large hlarge]

/-- The digits do not depend on the table. -/
theorem map_hexValue_toLowerCase (t : CaseTable) (h : JString) :
    ∀ before, (toLowerCase t before h).map hexValue = hexClasses h := by
  induction h with
  | nil => exact fun _ => rfl
  | cons u after ih =>
    intro before
    rw [toLowerCase, List.map_append, map_hexValue_lowerUnits, ih, hexClasses, hexClasses, List.flatMap_cons]

/-! ### The decoder by its digits -/

/-- A byte of two digits, `low` being the last one at a second place. -/
def decodePair (low : ℕ) (x y : Option ℕ) : ℕ × Byte := (y.getD low, UInt8.ofNat (16 * x.getD 0 + y.getD low))

/-- A recognised character fills its cell. -/
theorem cell_of_some {ch : UInt16} {d : ℕ} (h : hexValue ch = some d) (old : JInt) :
    cell old ch = BitVec.ofNat 32 d := by
  simp only [hexValue, UInt16.le_iff_toNat_le, UInt16.reduceToNat] at h
  simp only [cell, charMinus, UInt16.le_iff_toNat_le, UInt16.reduceToNat]
  split_ifs at h ⊢ with hdigit hcapital hsmall
  · simp at h hdigit
    bv_omega
  · simp at h hcapital
    bv_omega
  · simp at h hsmall
    bv_omega

/-- Any other leaves it. -/
theorem cell_of_none {ch : UInt16} (h : hexValue ch = none) (old : JInt) : cell old ch = old := by
  rw [hexValue] at h
  rw [cell]
  split_ifs at h ⊢
  rfl

/-- The high cell holds a multiple of 16 between two bytes, the low one a digit. -/
def CellsHold (b : JInt × JInt) (low : ℕ) : Prop := b.1 &&& 0x0F = 0 ∧ b.2 = BitVec.ofNat 32 low ∧ low < 16

theorem cells_facts : ∀ high < 16, ∀ low < 16,
    ((BitVec.ofNat 32 high &&& 0x0F) <<< 4) &&& 0x0F = (0 : JInt) ∧ BitVec.ofNat 32 low &&& 0x0F = BitVec.ofNat 32 low ∧
      narrow (((BitVec.ofNat 32 high &&& 0x0F) <<< 4) ||| (BitVec.ofNat 32 low &&& 0x0F)) =
        UInt8.ofNat (16 * high + low) := by
  decide

/-- One byte. -/
theorem hexByte_eq (b : JInt × JInt) (low : ℕ) (x y : UInt16) (h : CellsHold b low) :
    CellsHold (hexByte b x y).1 (decodePair low (hexValue x) (hexValue y)).1 ∧
      (hexByte b x y).2 = (decodePair low (hexValue x) (hexValue y)).2 := by
  obtain ⟨hhigh, hlow, hlt⟩ := h
  have hfirst : (hexValue x).getD 0 < 16 ∧ cell b.1 x &&& 0x0F = BitVec.ofNat 32 ((hexValue x).getD 0) &&& 0x0F := by
    cases hx : hexValue x with
    | none => exact ⟨by decide, by rw [cell_of_none hx, hhigh]; rfl⟩
    | some d => exact ⟨hexValue_lt hx, by rw [cell_of_some hx]; rfl⟩
  have hsecond : (hexValue y).getD low < 16 ∧ cell b.2 y = BitVec.ofNat 32 ((hexValue y).getD low) := by
    cases hy : hexValue y with
    | none => exact ⟨hlt, by rw [cell_of_none hy, hlow]; rfl⟩
    | some d => exact ⟨hexValue_lt hy, by rw [cell_of_some hy]; rfl⟩
  obtain ⟨hkept, hdigit, hbyte⟩ := cells_facts _ hfirst.1 _ hsecond.1
  rw [hexByte, hfirst.2, hsecond.2]
  exact ⟨⟨hkept, hdigit, hsecond.1⟩, hbyte⟩

/-- The decoder on texts of pairs. -/
theorem hexToBytesArray_of_even (t : CaseTable) {h : JString} (heven : (hexClasses h).length % 2 = 0) :
    hexToBytesArray t h = .ok (mapPairs decodePair 0 (hexClasses h)) := by
  have hclasses := map_hexValue_toLowerCase t h []
  have hlen : (toLowerCase t [] h).length = (hexClasses h).length := by rw [← hclasses, List.length_map]
  have hpairs := mapPairs_congr hexValue CellsHold hexByte_eq (toLowerCase t [] h) (0, 0) 0 ⟨rfl, rfl, by decide⟩
  rw [hclasses] at hpairs
  rw [← hpairs]
  simp only [hexToBytesArray, hlen]
  rw [show ((hexClasses h).length + 1) / 2 = (hexClasses h).length / 2 by omega]
  exact fillPairs_even hexByte _ [] _ [] (0, 0) rfl (by omega)

/-- The last character of an odd number has no second one. -/
theorem hexToBytesArray_of_odd (t : CaseTable) {h : JString} (hodd : (hexClasses h).length % 2 ≠ 0) :
    hexToBytesArray t h = .error .indexOutOfBounds := by
  have hlen : (toLowerCase t [] h).length = (hexClasses h).length := by
    rw [← map_hexValue_toLowerCase t h [], List.length_map]
  simp only [hexToBytesArray, hlen]
  rw [show ((hexClasses h).length + 1) / 2 = (hexClasses h).length / 2 + 1 by omega]
  exact fillPairs_odd hexByte _ [] _ [] (0, 0) rfl (by omega)

/-! ### What is kept -/

/-- Every character of a printed byte is a digit. -/
theorem hexClasses_formatByte (b : Byte) :
    hexClasses (formatByte b) = [some (b.toNat / 16), some (b.toNat % 16)] := by
  have key : ∀ d < 16, hexUnit d ≠ 0x130 := by decide
  have hhigh : b.toNat / 16 < 16 := by
    have := b.toNat_lt
    omega
  have hlow : b.toNat % 16 < 16 := Nat.mod_lt _ (by decide)
  simp [hexClasses, formatByte, key _ hhigh, key _ hlow, hexValue_hexUnit hhigh, hexValue_hexUnit hlow]

theorem hexClasses_append (h1 h2 : JString) : hexClasses (h1 ++ h2) = hexClasses h1 ++ hexClasses h2 :=
  List.flatMap_append

/-- The bytes come back, whatever was in the low cell. -/
theorem mapPairs_hexClasses (bytes : List Byte) :
    ∀ low, mapPairs decodePair low (hexClasses (bytesToNoSpaceHexString bytes)) = bytes := by
  induction bytes with
  | nil => exact fun _ => rfl
  | cons b bytes ih =>
    intro low
    rw [bytesToNoSpaceHexString, List.flatMap_cons, hexClasses_append, hexClasses_formatByte, List.cons_append,
      List.cons_append, List.nil_append, mapPairs]
    have hbyte : (decodePair low (some (b.toNat / 16)) (some (b.toNat % 16))).2 = b := by
      rw [decodePair, Option.getD_some, Option.getD_some, Nat.div_add_mod, UInt8.ofNat_toNat]
    rw [hbyte]
    exact congrArg (b :: ·) (ih _)

theorem length_hexClasses (bytes : List Byte) :
    (hexClasses (bytesToNoSpaceHexString bytes)).length = 2 * bytes.length := by
  induction bytes with
  | nil => rfl
  | cons b bytes ih =>
    rw [bytesToNoSpaceHexString, List.flatMap_cons, hexClasses_append, hexClasses_formatByte,
      List.length_append]
    simp only [List.length_cons, List.length_nil]
    rw [bytesToNoSpaceHexString] at ih
    omega

/-- The low cell after a text is its last digit at a second place. -/
theorem carryPairs_decodePair : ∀ (l : List (Option ℕ)) (low : ℕ),
    carryPairs decodePair low l = (lowClasses l).reduceOption.getLastD low
  | [], _ => rfl
  | [_], _ => rfl
  | _ :: y :: rest, low => by
    rw [carryPairs, carryPairs_decodePair rest, lowClasses]
    cases y with
    | none => rfl
    | some d =>
      rw [List.reduceOption_cons_of_some, List.getLastD_cons]
      rfl

theorem lowClasses_subset : ∀ l : List (Option ℕ), ∀ c ∈ lowClasses l, c ∈ l
  | _ :: y :: rest, c, hc => by
    rcases List.mem_cons.mp hc with rfl | hc
    · simp
    · exact List.mem_cons_of_mem _ (List.mem_cons_of_mem _ (lowClasses_subset rest c hc))

theorem lastLow_lt (h : JString) : lastLow h < 16 := by
  have hlast := List.getLastD_mem_cons (l := (lowClasses (hexClasses h)).reduceOption) (a := 0)
  rcases List.mem_cons.mp hlast with hzero | hmem
  · rw [lastLow, hzero]
    decide
  · obtain ⟨u, -, hu⟩ := List.mem_flatMap.mp (lowClasses_subset _ _ (List.reduceOption_mem_iff.mp hmem))
    split_ifs at hu
    · simp at hu
    · exact hexValue_lt (List.mem_singleton.mp hu).symm

/-- The bytes of a text show the low cell exactly when its first pair lacks the second digit. -/
theorem mapPairs_eq_iff {low : ℕ} (hlow : low < 16) (l : List (Option ℕ)) :
    mapPairs decodePair low l = mapPairs decodePair 0 l ↔ low = 0 ∨ (lowClasses l).head? ≠ some none := by
  rcases l with _ | ⟨x, _ | ⟨y, rest⟩⟩
  · simp [mapPairs, lowClasses]
  · simp [mapPairs, lowClasses]
  · cases y with
    | some d => simp [mapPairs, lowClasses, decodePair]
    | none =>
      have hshown : UInt8.ofNat (16 * x.getD 0 + low) = UInt8.ofNat (16 * x.getD 0) ↔ low = 0 := by
        rw [← UInt8.toNat_inj, UInt8.toNat_ofNat', UInt8.toNat_ofNat']
        omega
      constructor
      · intro h
        exact Or.inl (hshown.mp (List.cons.inj h).1)
      · rintro (rfl | h)
        · rfl
        · exact absurd rfl h

/-- Texts of pairs. -/
theorem memoryless_of_even (t : CaseTable) {h1 h2 : JString} (heven1 : (hexClasses h1).length % 2 = 0)
    (heven2 : (hexClasses h2).length % 2 = 0) :
    Memoryless t h1 h2 ↔ lastLow h1 = 0 ∨ (lowClasses (hexClasses h2)).head? ≠ some none := by
  have hboth : hexToBytesArray t (h1 ++ h2) = .ok (mapPairs decodePair 0 (hexClasses h1) ++
      mapPairs decodePair (lastLow h1) (hexClasses h2)) := by
    rw [hexToBytesArray_of_even t (by rw [hexClasses_append, List.length_append]; omega), hexClasses_append,
      mapPairs_append decodePair ((hexClasses h1).length / 2) 0 _ _ (by omega), carryPairs_decodePair]
    rfl
  rw [← mapPairs_eq_iff (lastLow_lt h1)]
  constructor
  · rintro ⟨b1, b2, hb1, hb2, hb⟩
    rw [hexToBytesArray_of_even t heven1] at hb1
    rw [hexToBytesArray_of_even t heven2] at hb2
    rw [hboth] at hb
    cases hb1
    cases hb2
    exact List.append_cancel_left (Except.ok.inj hb)
  · intro h
    exact ⟨_, _, hexToBytesArray_of_even t heven1, hexToBytesArray_of_even t heven2, by rw [hboth, h]⟩

/-- **When the decoder has no memory**; and it reads what the printer writes. -/
theorem memoryless_iff (t : CaseTable) (h1 h2 : JString) (bytes : List Byte) :
    (Memoryless t h1 h2 ↔ NothingKept h1 h2) ∧ hexToBytesArray t (bytesToNoSpaceHexString bytes) = .ok bytes := by
  constructor
  · by_cases heven1 : (hexClasses h1).length % 2 = 0
    · by_cases heven2 : (hexClasses h2).length % 2 = 0
      · rw [memoryless_of_even t heven1 heven2, NothingKept, and_iff_right heven1, and_iff_right heven2]
      · refine iff_of_false ?_ fun h => heven2 h.2.1
        rintro ⟨_, _, -, h, -⟩
        rw [hexToBytesArray_of_odd t heven2] at h
        cases h
    · refine iff_of_false ?_ fun h => heven1 h.1
      rintro ⟨_, _, h, -⟩
      rw [hexToBytesArray_of_odd t heven1] at h
      cases h
  · rw [hexToBytesArray_of_even t (by rw [length_hexClasses]; omega), mapPairs_hexClasses]

/-- A table without letters. -/
def plainTable : CaseTable := ⟨fun _ u _ => u, fun _ _ _ h => hexValue_of_large h⟩

/-- `01` and `0g` give the bytes 1 and 1, while `0g` alone gives 0. -/
theorem not_memoryless_01_0g : ¬ Memoryless plainTable [0x30, 0x31] [0x30, 0x67] := by
  rw [memoryless_of_even plainTable rfl rfl]
  decide

end GpsTracker.Util
