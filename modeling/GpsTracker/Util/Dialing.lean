import GpsTracker.Java.Text
import GpsTracker.Util.Pairs

/-!
# Dial numbers

`str2Bcd` packs a dial number into bytes, two symbols in each, the plus sign as
the nibble `a` and an `F` after the last symbol of an odd number.
`getNeedSendNumberByteArray` puts the first eight of these bytes into a field
that is filled with `ff`. Either way the symbols are read back up to the first
`F`: all of them, or the first sixteen (`survivesPacking`).
-/

namespace GpsTracker.Util

open GpsTracker.Java

/-! ### The packing -/

/-- A character under `replaceAll("\\+", "a")`. -/
def replaceUnit (u : UInt16) : UInt16 := if u = 0x2B then 0x61 else u

/-- `replaceAll("\\+", "a")`. -/
def replacePlus (asc : JString) : JString := asc.map replaceUnit

/-- The value of a character, by its byte. -/
def bcdValue (b : Byte) : JInt :=
  if 0x30 ≤ b.toInt ∧ b.toInt ≤ 0x39 then promote b - 0x30
  else if 0x61 ≤ b.toInt ∧ b.toInt ≤ 0x7A then promote b - 0x61 + 0x0A
  else promote b - 0x41 + 0x0A

/-- The byte of two characters. -/
def bcdByte (_ : Unit) (high low : Byte) : Unit × Byte := ((), narrow (bcdValue high <<< 4 + bcdValue low))

/-- `str2Bcd`. -/
def str2Bcd (asc : JString) : Except Exn (List Byte) :=
  let asc := replacePlus asc
  let asc := if asc.length % 2 ≠ 0 then asc ++ [0x46] else asc
  let len := if 2 ≤ asc.length then asc.length / 2 else asc.length
  let bbt := List.replicate len 0
  let abt := getBytes asc
  fillPairs abt bcdByte (asc.length / 2) 0 () bbt

/-- `getNeedSendNumberByteArray`. -/
def getNeedSendNumberByteArray (phonenumber : JString) : Except Exn (List Byte) := do
  let bcdArray ← str2Bcd phonenumber
  let msgContentByteArray := List.replicate 8 0xFF
  let length := if msgContentByteArray.length < bcdArray.length then msgContentByteArray.length else bcdArray.length
  return bcdArray.take length ++ msgContentByteArray.drop length

/-! ### Reading it back -/

/-- The digits and the plus sign. -/
def dialSymbols : List UInt16 := [0x30, 0x31, 0x32, 0x33, 0x34, 0x35, 0x36, 0x37, 0x38, 0x39, 0x2B]

/-- A text of digits and plus signs. -/
def IsDialNumber (s : JString) : Prop := ∀ u ∈ s, u ∈ dialSymbols

/-- The nibbles of bytes, the high one first. -/
def nibbles (bytes : List Byte) : List ℕ := bytes.flatMap fun b => [b.toNat / 16, b.toNat % 16]

/-- The symbol of a nibble. -/
def dialSymbol (n : ℕ) : UInt16 := if n = 0xA then 0x2B else UInt16.ofNat (0x30 + n)

/-- The symbols up to the end or the first nibble `F`. -/
def dialText (bytes : List Byte) : JString := ((nibbles bytes).takeWhile fun n => n ≠ 0xF).map dialSymbol

/-- The nibble of a symbol. -/
def symbolNibble (u : UInt16) : ℕ := if u = 0x2B then 0xA else u.toNat - 0x30

/-- The dial number is read back from both arrays, and these have the right sizes. -/
structure SurvivesPacking (s : JString) : Prop where
  /-- From the packed bytes. -/
  packed : ∃ bytes, str2Bcd s = .ok bytes ∧ bytes.length = (s.length + 1) / 2 ∧ dialText bytes = s
  /-- Its first sixteen symbols from the field. -/
  field : ∃ bytes, getNeedSendNumberByteArray s = .ok bytes ∧ bytes.length = 8 ∧ dialText bytes = s.take 16

/-! ### Nibbles -/

@[simp] theorem nibbles_nil : nibbles [] = [] := rfl

@[simp] theorem nibbles_cons (b : Byte) (bytes : List Byte) :
    nibbles (b :: bytes) = b.toNat / 16 :: b.toNat % 16 :: nibbles bytes := rfl

theorem nibbles_append (bytes bytes' : List Byte) :
    nibbles (bytes ++ bytes') = nibbles bytes ++ nibbles bytes' :=
  List.flatMap_append

theorem nibbles_take (bytes : List Byte) : ∀ k, nibbles (bytes.take k) = (nibbles bytes).take (2 * k) := by
  induction bytes with
  | nil => simp
  | cons b bytes ih =>
    intro k
    cases k with
    | zero => rfl
    | succ k => simp [Nat.mul_succ, ih]

theorem nibbles_replicate (k : ℕ) : nibbles (List.replicate k 0xFF) = List.replicate (2 * k) 0xF := by
  induction k with
  | zero => rfl
  | succ k ih => simp [List.replicate_succ, Nat.mul_succ, ih]

/-- The fillers end the text. -/
theorem dialText_of_nibbles {bytes : List Byte} {l : List ℕ} {k : ℕ}
    (h : nibbles bytes = l ++ List.replicate k 0xF)
    (hl : ∀ n ∈ l, n ≠ 0xF) : dialText bytes = l.map dialSymbol := by
  have htake : (l ++ List.replicate k 0xF).takeWhile (fun n => n ≠ 0xF) = l := by
    rw [List.takeWhile_append_of_pos fun n hn => decide_eq_true (hl n hn)]
    cases k with
    | zero => simp
    | succ k => simp [List.replicate_succ]
  rw [dialText, h, htake]

/-! ### Packing -/

/-- The bytes of the characters that are packed. -/
def bcdCodes : List Byte := [0x30, 0x31, 0x32, 0x33, 0x34, 0x35, 0x36, 0x37, 0x38, 0x39, 0x61, 0x46]

/-- The nibble of such a byte. -/
def codeNibble (b : Byte) : ℕ := if b = 0x61 then 0xA else if b = 0x46 then 0xF else b.toNat - 0x30

theorem nibbles_bcdByte : ∀ x ∈ bcdCodes, ∀ y ∈ bcdCodes,
    nibbles [(bcdByte () x y).2] = [codeNibble x, codeNibble y] := by
  have hall : (bcdCodes.all fun x => bcdCodes.all fun y =>
      decide (nibbles [(bcdByte () x y).2] = [codeNibble x, codeNibble y])) = true := by decide
  intro x hx y hy
  exact of_decide_eq_true (List.all_eq_true.mp (List.all_eq_true.mp hall x hx) y hy)

theorem nibbles_mapPairs (n : ℕ) : ∀ codes : List Byte, codes.length = 2 * n → (∀ b ∈ codes, b ∈ bcdCodes) →
    nibbles (mapPairs bcdByte () codes) = codes.map codeNibble ∧ (mapPairs bcdByte () codes).length = n := by
  induction n with
  | zero =>
    intro codes hlen _
    obtain rfl := List.length_eq_zero_iff.mp hlen
    exact ⟨rfl, rfl⟩
  | succ n ih =>
    intro codes hlen hcodes
    rcases codes with _ | ⟨x, _ | ⟨y, codes⟩⟩
    · cases hlen
    · simp at hlen
      omega
    · obtain ⟨hrest, hsize⟩ := ih codes (by simp at hlen; omega) fun b hb =>
        hcodes b (List.mem_cons_of_mem _ (List.mem_cons_of_mem _ hb))
      have hpair := nibbles_bcdByte x (hcodes x (by simp)) y (hcodes y (by simp))
      constructor
      · rw [mapPairs, ← List.singleton_append, nibbles_append, hpair, hrest]
        rfl
      · rw [mapPairs, List.length_cons, hsize]

/-- A symbol as `str2Bcd` sees it, and back. -/
theorem symbol_facts : ∀ u ∈ dialSymbols, (replaceUnit u).toNat < 128 ∧
    UInt8.ofNat (replaceUnit u).toNat ∈ bcdCodes ∧ codeNibble (UInt8.ofNat (replaceUnit u).toNat) = symbolNibble u ∧
    symbolNibble u ≠ 0xF ∧ dialSymbol (symbolNibble u) = u := by
  have hall : (dialSymbols.all fun u => decide ((replaceUnit u).toNat < 128 ∧
      UInt8.ofNat (replaceUnit u).toNat ∈ bcdCodes ∧ codeNibble (UInt8.ofNat (replaceUnit u).toNat) = symbolNibble u ∧
      symbolNibble u ≠ 0xF ∧ dialSymbol (symbolNibble u) = u)) = true := by decide
  exact fun u hu => of_decide_eq_true (List.all_eq_true.mp hall u hu)

theorem symbolNibble_ne {s : JString} (h : IsDialNumber s) : ∀ n ∈ s.map symbolNibble, n ≠ 0xF := by
  intro n hn
  obtain ⟨u, hu, rfl⟩ := List.mem_map.mp hn
  exact (symbol_facts u (h u hu)).2.2.2.1

theorem map_dialSymbol {s : JString} (h : IsDialNumber s) : (s.map symbolNibble).map dialSymbol = s := by
  rw [List.map_map]
  conv_rhs => rw [← List.map_id s]
  exact List.map_congr_left fun u hu => (symbol_facts u (h u hu)).2.2.2.2

/-- The text that is packed, with the filler of an odd number. -/
def filledText (s : JString) : JString := replacePlus s ++ List.replicate (s.length % 2) 0x46

theorem length_filledText (s : JString) : (filledText s).length = 2 * ((s.length + 1) / 2) := by
  rw [filledText, List.length_append, List.length_replicate, replacePlus, List.length_map]
  omega

/-- Its characters are among those that are packed. -/
theorem filledText_mem {s : JString} (h : IsDialNumber s) :
    ∀ u ∈ filledText s, u.toNat < 128 ∧ UInt8.ofNat u.toNat ∈ bcdCodes := by
  intro u hu
  rcases List.mem_append.mp hu with hu | hu
  · obtain ⟨v, hv, rfl⟩ := List.mem_map.mp hu
    have hfacts := symbol_facts v (h v hv)
    exact ⟨hfacts.1, hfacts.2.1⟩
  · rw [List.eq_of_mem_replicate hu]
    decide

/-- Its bytes. -/
theorem getBytes_filledText {s : JString} (h : IsDialNumber s) :
    (getBytes (filledText s)).length = 2 * ((s.length + 1) / 2) ∧ (∀ b ∈ getBytes (filledText s), b ∈ bcdCodes) ∧
      (getBytes (filledText s)).map codeNibble = s.map symbolNibble ++ List.replicate (s.length % 2) 0xF := by
  have hunits := filledText_mem h
  rw [getBytes_ascii fun u hu => (hunits u hu).1]
  refine ⟨by rw [List.length_map, length_filledText], ?_, ?_⟩
  · intro b hb
    obtain ⟨u, hu, rfl⟩ := List.mem_map.mp hb
    exact (hunits u hu).2
  · have hfiller : codeNibble (UInt8.ofNat (0x46 : UInt16).toNat) = 0xF := by decide
    rw [filledText, replacePlus, List.map_append, List.map_append, List.map_replicate,
      List.map_replicate, hfiller, List.map_map, List.map_map]
    congr 1
    exact List.map_congr_left fun u hu => (symbol_facts u (h u hu)).2.2.1

/-- The packed bytes of a dial number hold its nibbles, and a filler where there is room. -/
theorem str2Bcd_eq {s : JString} (h : IsDialNumber s) : ∃ bytes, str2Bcd s = .ok bytes ∧
    bytes.length = (s.length + 1) / 2 ∧ nibbles bytes = s.map symbolNibble ++ List.replicate (s.length % 2) 0xF := by
  have hasc : (if (replacePlus s).length % 2 ≠ 0 then replacePlus s ++ [0x46] else replacePlus s) = filledText s := by
    rw [filledText, replacePlus, List.length_map]
    rcases Nat.mod_two_eq_zero_or_one s.length with hmod | hmod
    · simp [hmod]
    · simp [hmod]
  obtain ⟨hbytes, hcodes, hnibbles⟩ := getBytes_filledText h
  obtain ⟨hpacked, hpackedLen⟩ := nibbles_mapPairs _ _ hbytes hcodes
  have hhalf : 2 * ((s.length + 1) / 2) / 2 = (s.length + 1) / 2 := Nat.mul_div_cancel_left _ Nat.two_pos
  have hsize : (if 2 ≤ 2 * ((s.length + 1) / 2) then (s.length + 1) / 2 else 2 * ((s.length + 1) / 2)) =
      (s.length + 1) / 2 := by
    split_ifs <;> omega
  refine ⟨_, ?_, hpackedLen, hpacked.trans hnibbles⟩
  simp only [str2Bcd, hasc, length_filledText, hhalf, hsize]
  exact fillPairs_even bcdByte _ [] _ [] () rfl hbytes

/-- The fillers of the field follow those of the packing. -/
theorem take_fillers (l : List ℕ) (k : ℕ) (hk : (l.length + 1) / 2 = k) :
    (l ++ List.replicate (l.length % 2) 0xF).take (2 * min 8 k) ++ List.replicate (2 * (8 - min 8 k)) 0xF =
      l.take 16 ++ List.replicate (16 - l.length) 0xF := by
  rw [List.take_append, List.take_replicate, List.append_assoc, List.replicate_append_replicate]
  by_cases h : l.length ≤ 16
  · rw [List.take_of_length_le (i := 16) h, List.take_of_length_le (by omega)]
    congr 2
    omega
  · rw [show 2 * min 8 k = 16 by omega]
    congr 2
    omega

/-- **Dial numbers survive the packing.** -/
theorem survivesPacking {s : JString} (h : IsDialNumber s) : SurvivesPacking s := by
  obtain ⟨bytes, hok, hlen, hnibbles⟩ := str2Bcd_eq h
  refine ⟨⟨bytes, hok, hlen, ?_⟩, ?_⟩
  · rw [dialText_of_nibbles hnibbles (symbolNibble_ne h), map_dialSymbol h]
  · have hcopied : (if (List.replicate 8 (0xFF : Byte)).length < bytes.length then
        (List.replicate 8 (0xFF : Byte)).length else bytes.length) = min 8 bytes.length := by
      rw [List.length_replicate]
      split_ifs <;> omega
    have hfield : nibbles (bytes.take (min 8 bytes.length) ++ (List.replicate 8 0xFF).drop (min 8 bytes.length)) =
        (s.take 16).map symbolNibble ++ List.replicate (16 - s.length) 0xF := by
      have hfillers := take_fillers (s.map symbolNibble) bytes.length (by rw [List.length_map, hlen])
      rw [List.length_map] at hfillers
      rw [nibbles_append, nibbles_take, hnibbles, List.drop_replicate, nibbles_replicate, hfillers,
        List.map_take]
    have htake : IsDialNumber (s.take 16) := fun u hu => h u (List.mem_of_mem_take hu)
    refine ⟨bytes.take (min 8 bytes.length) ++ (List.replicate 8 0xFF).drop (min 8 bytes.length), ?_, ?_, ?_⟩
    · rw [getNeedSendNumberByteArray, hok, ok_bind]
      simp only [hcopied]
      rfl
    · simp
    · rw [dialText_of_nibbles hfield (symbolNibble_ne htake), map_dialSymbol htake]

/-- A country code. -/
theorem survivesPacking_plus86 : SurvivesPacking [0x2B, 0x38, 0x36] :=
  survivesPacking (s := [0x2B, 0x38, 0x36]) (by simp [IsDialNumber, dialSymbols])

end GpsTracker.Util
