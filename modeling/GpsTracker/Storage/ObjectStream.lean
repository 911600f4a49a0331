import GpsTracker.Bluetooth.Commands
import GpsTracker.Library.Codec

/-!
# An object stream for fences

A stream as Java's object streams write one, but for the descriptions of the
classes and the references to texts that were written before: the magic and the
version, the list with its length, and an object for each fence with its fields in
the stream's order, the number first and then the texts by their names. A text is
in modified UTF-8 behind the number of its bytes.

The file of the fences takes the real stream as a parameter. What is assumed there of
it holds of this one for every list that it can write (`fits_streamCodec`).
-/

namespace GpsTracker.Storage

open GpsTracker.Java GpsTracker.Bluetooth

/-! ### Texts -/

/-- A unit in modified UTF-8, in which `U+0000` has two bytes. -/
def unitBytes (u : UInt16) : List Byte :=
  if 0 < u.toNat ∧ u.toNat < 0x80 then [UInt8.ofNat u.toNat]
  else if u.toNat < 0x800 then [UInt8.ofNat (0xC0 + u.toNat / 64), UInt8.ofNat (0x80 + u.toNat % 64)]
  else [UInt8.ofNat (0xE0 + u.toNat / 4096), UInt8.ofNat (0x80 + u.toNat / 64 % 64), UInt8.ofNat (0x80 + u.toNat % 64)]

theorem unitBytes_ne_nil (u : UInt16) : unitBytes u ≠ [] := by
  rw [unitBytes]
  split_ifs <;> exact List.cons_ne_nil _ _

/-- A unit of two bytes after the first of them. -/
def readTwo (a : Byte) : List Byte → Option (UInt16 × List Byte)
  | b :: bs => some (UInt16.ofNat ((a.toNat - 0xC0) * 64 + (b.toNat - 0x80)), bs)
  | [] => none

/-- A unit of three bytes after the first of them. -/
def readThree (a : Byte) : List Byte → Option (UInt16 × List Byte)
  | b :: c :: bs => some (UInt16.ofNat ((a.toNat - 0xE0) * 4096 + (b.toNat - 0x80) * 64 + (c.toNat - 0x80)), bs)
  | _ => none

/-- The unit that bytes begin with. -/
def readUnit : List Byte → Option (UInt16 × List Byte)
  | [] => none
  | a :: bs =>
    if a.toNat < 0x80 then some (UInt16.ofNat a.toNat, bs)
    else if a.toNat < 0xE0 then readTwo a bs
    else readThree a bs

theorem readUnit_write (u : UInt16) (rest : List Byte) : readUnit (unitBytes u ++ rest) = some (u, rest) := by
  have hu : u.toNat < 65536 := u.toNat_lt
  have hbyte {n : ℕ} (hn : n < 256) : (UInt8.ofNat n).toNat = n := by
    rw [UInt8.toNat_ofNat', Nat.mod_eq_of_lt hn]
  have hunit {n : ℕ} (hn : n = u.toNat) : UInt16.ofNat n = u := by rw [hn, UInt16.ofNat_toNat]
  rw [unitBytes]
  split_ifs with hone htwo
  · rw [List.singleton_append, readUnit, hbyte (by omega), if_pos hone.2, hunit rfl]
  · rw [List.cons_append, List.singleton_append, readUnit, hbyte (by omega), if_neg (by omega),
      if_pos (by omega), readTwo, hbyte (by omega), hbyte (by omega), hunit (by omega)]
  · rw [List.cons_append, List.cons_append, List.singleton_append, readUnit, hbyte (by omega),
      if_neg (by omega), if_neg (by omega), readThree, hbyte (by omega), hbyte (by omega),
      hbyte (by omega), hunit (by omega)]

theorem readUnit_more {bs rest : List Byte} {u : UInt16} (h : readUnit bs = some (u, rest)) (more : List Byte) :
    readUnit (bs ++ more) = some (u, rest ++ more) := by
  cases bs with
  | nil => cases h
  | cons a bs =>
    rw [readUnit] at h
    rw [List.cons_append, readUnit]
    split_ifs at h ⊢
    · cases h
      rfl
    · cases bs with
      | nil => simp [readTwo] at h
      | cons b bs =>
        obtain ⟨rfl, rfl⟩ := Prod.mk.inj (Option.some.inj h)
        rw [List.cons_append, readTwo]
    · rcases bs with _ | ⟨b, _ | ⟨c, bs⟩⟩
      · simp [readThree] at h
      · simp [readThree] at h
      · obtain ⟨rfl, rfl⟩ := Prod.mk.inj (Option.some.inj h)
        rw [List.cons_append, List.cons_append, readThree]

def unitCodec : Codec UInt16 where
  write := unitBytes
  read := readUnit
  Fits _ := True
  read_write u _ rest := readUnit_write u rest
  read_more _ _ _ h more := readUnit_more h more

/-- `TC_STRING` and a text of fewer than `2 ^ 16` bytes, or `TC_NULL`. -/
def textCodec : Codec (Option JString) :=
  ((Codec.sized (.number 2) unitCodec unitBytes_ne_nil).tagged [0x74]).nullable 0x70
    fun _ _ => ⟨0x74, _, rfl, by decide⟩

/-! ### Fences -/

/-- An `int`. -/
def intCodec : Codec JInt :=
  (Codec.number 4).map (BitVec.ofNat 32) BitVec.toNat (fun _ => True)
    fun i _ => ⟨Codec.fits_number_iff.mpr i.isLt, by rw [BitVec.ofNat_toNat, BitVec.setWidth_eq]⟩

/-- `TC_OBJECT` and the fields of a fence: the number, and the texts by their names. -/
def fenceCodec : Codec WifiInfo :=
  ((intCodec.pair (textCodec.pair (textCodec.pair (textCodec.pair textCodec)))).tagged [0x73]).map
    (fun r => ⟨r.2.2.2.2, r.2.2.2.1, r.2.1, r.2.2.1, r.1⟩) (fun f => (f.type, f.macAddress, f.penName, f.pwd, f.ssid))
    (fun f => textCodec.Fits f.macAddress ∧ textCodec.Fits f.penName ∧ textCodec.Fits f.pwd ∧ textCodec.Fits f.ssid)
    fun _ h => ⟨⟨trivial, h⟩, rfl⟩

/-- The magic and the version, `TC_OBJECT`, and the fences behind their number. -/
def streamCodec : Codec (List WifiInfo) :=
  (Codec.list (.number 4) fenceCodec).tagged [0xAC, 0xED, 0x00, 0x05, 0x73]

/-- The bytes of a text are fewer than `2 ^ 16`. -/
def ShortText (s : Option JString) : Prop := ∀ text ∈ s, (text.flatMap unitBytes).length < 65536

instance (s : Option JString) : Decidable (ShortText s) :=
  inferInstanceAs (Decidable (∀ text ∈ s, (text.flatMap unitBytes).length < 65536))

theorem fits_textCodec {s : Option JString} (h : ShortText s) : textCodec.Fits s :=
  fun text htext => ⟨Codec.fits_number_iff.mpr (h text htext), fun _ _ => trivial⟩

/-- **Fences with short texts can be written.** -/
theorem fits_streamCodec {list : List WifiInfo} (hlength : list.length < 2 ^ 32)
    (htexts : ∀ f ∈ list, ShortText f.macAddress ∧ ShortText f.penName ∧ ShortText f.pwd ∧ ShortText f.ssid) :
    streamCodec.Fits list := by
  refine ⟨Codec.fits_number_iff.mpr hlength, fun f hf => ?_⟩
  obtain ⟨h1, h2, h3, h4⟩ := htexts f hf
  exact ⟨fits_textCodec h1, fits_textCodec h2, fits_textCodec h3, fits_textCodec h4⟩

end GpsTracker.Storage
