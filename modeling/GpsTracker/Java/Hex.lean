import GpsTracker.Java.Text
import GpsTracker.Java.Runtime
import Mathlib.Data.Nat.Digits.Lemmas

/-!
# Hexadecimal texts

`Integer.toHexString` and `Long.toHexString` print the unsigned value of a
number without leading zeros; `new BigInteger(s, 16)` reads digits of either
case, after a sign if there is one.
-/

namespace GpsTracker.Java

/-- The lower-case digit of a value below 16. -/
def hexUnit (d : ℕ) : UInt16 := if d < 10 then UInt16.ofNat (0x30 + d) else UInt16.ofNat (0x61 + (d - 10))

/-- The digits of a number without leading zeros, the highest first. -/
def hexDigits (n : ℕ) : List ℕ := if n = 0 then [0] else (Nat.digits 16 n).reverse

/-- `Long.toHexString` and `Integer.toHexString`, of an unsigned value. -/
def natToHex (n : ℕ) : JString := (hexDigits n).map hexUnit

/-- The value of a hexadecimal digit of either case. -/
def hexValue (u : UInt16) : Option ℕ :=
  if 0x30 ≤ u ∧ u ≤ 0x39 then some (u.toNat - 0x30)
  else if 0x41 ≤ u ∧ u ≤ 0x46 then some (u.toNat - 0x41 + 10)
  else if 0x61 ≤ u ∧ u ≤ 0x66 then some (u.toNat - 0x61 + 10)
  else none

/-- `new BigInteger(s, 16)` on a text of hexadecimal digits, the value so far being `acc`. -/
def parseHex (acc : ℕ) : JString → Except Exn ℕ
  | [] => .ok acc
  | u :: us =>
    match hexValue u with
    | some d => parseHex (acc * 16 + d) us
    | none => .error .numberFormat

/-- `new BigInteger(s, 16).longValue()`: a sign is allowed before the digits, and the
low 64 bits are taken. -/
def parseLong (s : JString) : Except Exn (BitVec 64) :=
  match s with
  | [] => .error .numberFormat
  | u :: us =>
    if u = 0x2D ∧ us ≠ [] then (parseHex 0 us).map fun n => -BitVec.ofNat 64 n
    else if u = 0x2B ∧ us ≠ [] then (parseHex 0 us).map (BitVec.ofNat 64)
    else (parseHex 0 (u :: us)).map (BitVec.ofNat 64)

theorem hexValue_hexUnit {d : ℕ} (h : d < 16) : hexValue (hexUnit d) = some d := by
  have key : ∀ d : Fin 16, hexValue (hexUnit d) = some d.val := by decide
  exact key ⟨d, h⟩

theorem hexUnit_ne_sign {d : ℕ} (h : d < 16) : hexUnit d ≠ 0x2D ∧ hexUnit d ≠ 0x2B := by
  have key : ∀ d : Fin 16, hexUnit d ≠ 0x2D ∧ hexUnit d ≠ 0x2B := by decide
  exact key ⟨d, h⟩

/-- The value of digits, the first one highest. -/
def digitsValue (acc : ℕ) (ds : List ℕ) : ℕ := ds.foldl (fun a d => a * 16 + d) acc

theorem digitsValue_append (acc : ℕ) (ds es : List ℕ) :
    digitsValue acc (ds ++ es) = digitsValue (digitsValue acc ds) es := List.foldl_append

theorem digitsValue_eq_ofDigits (ds : List ℕ) : digitsValue 0 ds = Nat.ofDigits 16 ds.reverse := by
  rw [Nat.ofDigits_eq_foldr, List.foldr_reverse, digitsValue]
  congr 1
  funext a d
  rw [Nat.cast_id, add_comm, mul_comm]

theorem parseHex_map_hexUnit {ds : List ℕ} (h : ∀ d ∈ ds, d < 16) (acc : ℕ) :
    parseHex acc (ds.map hexUnit) = .ok (digitsValue acc ds) := by
  induction ds generalizing acc with
  | nil => rfl
  | cons d ds ih =>
    rw [List.map_cons, parseHex, hexValue_hexUnit (h d List.mem_cons_self)]
    exact ih (fun x hx => h x (List.mem_cons_of_mem d hx)) _

theorem parseLong_map_hexUnit {ds : List ℕ} (h : ∀ d ∈ ds, d < 16) (hne : ds ≠ []) :
    parseLong (ds.map hexUnit) = .ok (BitVec.ofNat 64 (digitsValue 0 ds)) := by
  obtain ⟨d, ds, rfl⟩ := List.exists_cons_of_ne_nil hne
  have hsign := hexUnit_ne_sign (h d List.mem_cons_self)
  rw [List.map_cons, parseLong, if_neg (fun hc => hsign.1 hc.1), if_neg (fun hc => hsign.2 hc.1),
    ← List.map_cons, parseHex_map_hexUnit h]
  rfl

theorem hexDigits_lt (n : ℕ) : ∀ d ∈ hexDigits n, d < 16 := by
  intro d hd
  rw [hexDigits] at hd
  split_ifs at hd
  · rw [List.mem_singleton.mp hd]; omega
  · exact Nat.digits_lt_base (by omega) (List.mem_reverse.mp hd)

theorem length_hexDigits_le {n k : ℕ} (hk : 1 ≤ k) (h : n < 16 ^ k) : (hexDigits n).length ≤ k := by
  rw [hexDigits]
  split_ifs
  · rwa [List.length_singleton]
  · rwa [List.length_reverse, Nat.digits_length_le_iff (by omega)]

theorem hexDigits_ne_nil (n : ℕ) : hexDigits n ≠ [] := by
  rw [hexDigits]
  split_ifs with h
  · exact List.cons_ne_nil _ _
  · rw [Ne, List.reverse_eq_nil_iff]
    exact Nat.digits_ne_nil_iff_ne_zero.mpr h

/-- Leading zeros do not change the value of digits. -/
theorem digitsValue_hexDigits (k n : ℕ) : digitsValue 0 (List.replicate k 0 ++ hexDigits n) = n := by
  have hzeros : digitsValue 0 (List.replicate k 0) = 0 := by
    induction k with
    | zero => rfl
    | succ k ih => exact ih
  rw [digitsValue_append, hzeros, hexDigits]
  split_ifs with h
  · rw [h]; rfl
  · rw [digitsValue_eq_ofDigits, List.reverse_reverse, Nat.ofDigits_digits]

/-! ### Texts of either case -/

/-- The lower case of a hexadecimal digit. -/
def lowerUnit (u : UInt16) : UInt16 := if 0x41 ≤ u ∧ u ≤ 0x46 then u + 0x20 else u

/-- A text made of hexadecimal digits only, of either case. -/
def IsHexText (s : JString) : Prop := ∀ u ∈ s, (hexValue u).isSome

instance (s : JString) : Decidable (IsHexText s) := List.decidableBAll (fun u => (hexValue u).isSome) s

/-- A digit is read as the value it is the lower-case or upper-case digit of. -/
theorem hexValue_eq_some {u : UInt16} {d : ℕ} (h : hexValue u = some d) : d < 16 ∧ hexUnit d = lowerUnit u := by
  rw [hexValue] at h
  simp only [UInt16.le_iff_toNat_le] at h
  rw [lowerUnit]
  simp only [UInt16.le_iff_toNat_le]
  change (if 48 ≤ u.toNat ∧ u.toNat ≤ 57 then _ else if 65 ≤ u.toNat ∧ u.toNat ≤ 70 then _ else
    if 97 ≤ u.toNat ∧ u.toNat ≤ 102 then _ else _) = _ at h
  change _ ∧ _ = if 65 ≤ u.toNat ∧ u.toNat ≤ 70 then _ else _
  split_ifs at h with h1 h2 h3
  · cases h
    refine ⟨by omega, ?_⟩
    rw [hexUnit, if_pos (by omega), if_neg (by omega), ← UInt16.toNat_inj, UInt16.toNat_ofNat']
    omega
  · cases h
    refine ⟨by omega, ?_⟩
    rw [hexUnit, if_neg (by omega), if_pos h2, ← UInt16.toNat_inj, UInt16.toNat_ofNat', UInt16.toNat_add]
    change _ = (u.toNat + 32) % _
    omega
  · cases h
    refine ⟨by omega, ?_⟩
    rw [hexUnit, if_neg (by omega), if_neg h2, ← UInt16.toNat_inj, UInt16.toNat_ofNat']
    omega

/-- The digits of a hexadecimal text, and what `BigInteger` makes of them. -/
theorem exists_digits {s : JString} (h : IsHexText s) : ∃ ds : List ℕ, (∀ d ∈ ds, d < 16) ∧
    s.map lowerUnit = ds.map hexUnit ∧ ∀ acc, parseHex acc s = .ok (digitsValue acc ds) := by
  induction s with
  | nil => exact ⟨[], by simp, rfl, fun acc => rfl⟩
  | cons u s ih =>
    obtain ⟨d, hd⟩ := Option.isSome_iff_exists.mp (h u List.mem_cons_self)
    obtain ⟨ds, hlt, hmap, hparse⟩ := ih fun v hv => h v (List.mem_cons_of_mem u hv)
    obtain ⟨hd16, hunit⟩ := hexValue_eq_some hd
    refine ⟨d :: ds, by simpa using ⟨hd16, hlt⟩, by simp [hmap, hunit], fun acc => ?_⟩
    rw [parseHex, hd]
    exact hparse _

/-- A hexadecimal text has no sign to read. -/
theorem parseLong_of_isHexText {s : JString} (h : IsHexText s) (hne : s ≠ []) :
    parseLong s = (parseHex 0 s).map (BitVec.ofNat 64) := by
  obtain ⟨u, us, rfl⟩ := List.exists_cons_of_ne_nil hne
  have hu := h u List.mem_cons_self
  rw [parseLong, if_neg, if_neg]
  · rintro ⟨rfl, -⟩
    exact absurd hu (by decide)
  · rintro ⟨rfl, -⟩
    exact absurd hu (by decide)

/-- Digits are determined by their number and their value. -/
theorem digitsValue_inj {ds es : List ℕ} (hlen : ds.length = es.length) (hds : ∀ d ∈ ds, d < 16)
    (hes : ∀ d ∈ es, d < 16) (h : digitsValue 0 ds = digitsValue 0 es) : ds = es := by
  rw [digitsValue_eq_ofDigits, digitsValue_eq_ofDigits] at h
  refine List.reverse_injective (Nat.ofDigits_inj_of_len_eq (by omega) (by simpa using hlen) ?_ ?_ h)
  · exact fun d hd => hds d (List.mem_reverse.mp hd)
  · exact fun d hd => hes d (List.mem_reverse.mp hd)

theorem digitsValue_lt {ds : List ℕ} (h : ∀ d ∈ ds, d < 16) : digitsValue 0 ds < 16 ^ ds.length := by
  rw [digitsValue_eq_ofDigits, ← List.length_reverse]
  exact Nat.ofDigits_lt_base_pow_length (by omega) fun d hd => h d (List.mem_reverse.mp hd)

/-- The units of hexadecimal digits are those of ASCII characters from `0` on. -/
theorem hexUnit_bounds {d : ℕ} (h : d < 16) : 0x30 ≤ (hexUnit d).toNat ∧ (hexUnit d).toNat < 0x67 := by
  have key : ∀ d : Fin 16, 0x30 ≤ (hexUnit d).toNat ∧ (hexUnit d).toNat < 0x67 := by decide
  exact key ⟨d, h⟩

end GpsTracker.Java
