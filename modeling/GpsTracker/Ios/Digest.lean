import GpsTracker.Ios.MD5
import GpsTracker.Upload.Frame

/-!
# The digests of the MD5 class

After the updates with some chunks the object stands for the stream of all their
bytes: `state` is what the whole blocks have made, the buffer begins with the
bytes that wait, and the counter is the number of bits modulo `2^64`
(`Represents`). `finalize` feeds the padding in two more updates, so `hexdigest`
prints the digest of the standard, however the bytes were cut.
-/

namespace GpsTracker.Ios.MD5

open Md5 (Word Registers littleEndian)
open Blocks (Stream absorb toBlock window)

/-- The stream of the bytes of a message. -/
def streamOf (bytes : List UInt8) : Stream Registers UInt8 64 :=
  absorb Md5.compress ⟨Md5.initial, [], by decide⟩ bytes

/-- The object after updates with these bytes. -/
structure Represents (m : MD5) (bytes : List UInt8) : Prop where
  /-- It takes more. -/
  notFinalized : m.finalized = false
  /-- The number of bits. -/
  count : m.count0.toNat + 2 ^ 32 * m.count1.toNat = 8 * bytes.length % 2 ^ 64
  /-- What the whole blocks have made. -/
  state : m.state = (streamOf bytes).state
  /-- The bytes that wait. -/
  pending : m.buffer.toList.take (bytes.length % 64) = (streamOf bytes).pending

theorem length_pending (bytes : List UInt8) : (streamOf bytes).pending.length = bytes.length % 64 := by
  rw [streamOf, Blocks.length_pending_absorb, List.length_nil, Nat.zero_add]

theorem streamOf_append (bytes bytes' : List UInt8) :
    streamOf (bytes ++ bytes') = absorb Md5.compress (streamOf bytes) bytes' := Blocks.absorb_append _ _ _ _

theorem represents_init (memory : MD5) : Represents (init memory) [] := ⟨rfl, rfl, rfl, rfl⟩

/-- The index of the buffer is where the bytes that wait end. -/
theorem Represents.index {m : MD5} {bytes : List UInt8} (h : Represents m bytes) :
    (indexOf m.count0).toNat = bytes.length % 64 := by
  have hcount := h.count
  have hindex : (indexOf m.count0).toNat = m.count0.toNat / 8 % 64 := by
    rw [indexOf, BitVec.toNat_umod, BitVec.toNat_udiv]
    rfl
  omega

/-! ### Updates -/

/-- The two words of the counter, with the carry. -/
theorem count_counted (m : MD5) (length : Word) {n : ℕ}
    (h : m.count0.toNat + 2 ^ 32 * m.count1.toNat = 8 * n % 2 ^ 64) :
    (counted m length).count0.toNat + 2 ^ 32 * (counted m length).count1.toNat = 8 * (n + length.toNat) % 2 ^ 64 := by
  have hlow : (length <<< 3).toNat = 8 * length.toNat % 2 ^ 32 := by
    rw [BitVec.toNat_shiftLeft, Nat.shiftLeft_eq, Nat.mul_comm]
  have hhigh : (length >>> 29).toNat = length.toNat / 2 ^ 29 := by
    rw [BitVec.toNat_ushiftRight, Nat.shiftRight_eq_div_pow]
  have hlt := length.isLt
  have hcount0 := m.count0.isLt
  have hcount1 := m.count1.isLt
  simp only [counted, BitVec.toNat_add, BitVec.lt_def, hlow, hhigh]
  split_ifs with hcarry
  · rw [BitVec.toNat_add, show (1 : Word).toNat = 1 from rfl]
    omega
  · omega

theorem fits_of_lt (count0 : Word) {length : Word} (h : length.toNat + 64 < 2 ^ 32) : Fits count0 length := by
  have := indexOf_lt count0
  rw [Fits]
  split_ifs <;> omega

/-- The stream after an input that fills the buffer: the block in the buffer, whole blocks, and what is left. -/
theorem streamOf_of_blocks {bytes input : List UInt8} {filled : Vector UInt8 64} {first k r : ℕ}
    (hfilled : filled.toList = (streamOf bytes).pending ++ input.take first) (hr : r < 64)
    (hinput : first + 64 * k + r ≤ input.length) :
    streamOf (bytes ++ input.take (first + 64 * k + r)) =
      ⟨(List.range k).foldl (fun st j => Md5.compress st (window input (first + 64 * j)))
        (Md5.compress (streamOf bytes).state filled), (input.drop (first + 64 * k)).take r, by simp; omega⟩ := by
  have hlen : ((streamOf bytes).pending ++ input.take first).length = 64 := by rw [← hfilled, Vector.length_toList]
  have hblock : toBlock _ hlen = filled := by
    rw [← Vector.toList_inj, hfilled]
    rfl
  rw [List.take_add, List.take_add, streamOf_append, Blocks.absorb_append, Blocks.absorb_append,
    Blocks.absorb_of_full _ hlen, hblock, Blocks.absorb_windows _ _ _ _ _ _ (by omega), Blocks.absorb_of_short]
  rfl

/-- An update keeps it. -/
theorem update_represents {fuel : ℕ} {m : MD5} {bytes : List UInt8} (input : List UInt8) {length : Word}
    (h : Represents m bytes) (hinput : length.toNat ≤ input.length) (hfits : length.toNat + 64 < 2 ^ 32)
    (hfuel : length.toNat < 64 * fuel) :
    ∃ m', update fuel m input length = some m' ∧ Represents m' (bytes ++ input.take length.toNat) := by
  have hindex := h.index
  have hcount := count_counted m length h.count
  by_cases hpart : 64 - indexOf m.count0 ≤ length
  · obtain ⟨first, k, r, hfirst, hlength, hr⟩ := exists_parts hpart
    obtain ⟨filled, buffer, hfilled, hbuffer, hupdate⟩ :=
      update_of_blocks m hfirst hlength hr (fits_of_lt m.count0 hfits) hinput (by omega : k < fuel)
    rw [hindex, h.pending] at hfilled
    have hstream := streamOf_of_blocks hfilled hr (by omega : first + 64 * k + r ≤ input.length)
    rw [← hlength] at hstream
    have hcompress : transform = Md5.compress := funext fun _ => funext fun _ => transform_eq _ _
    refine ⟨_, hupdate, h.notFinalized, ?_, ?_, ?_⟩
    · rw [List.length_append, List.length_take_of_le hinput]
      exact hcount
    · rw [hstream, ← h.state, ← hcompress]
    · rw [hstream, List.length_append, List.length_take_of_le hinput]
      have hleft : (bytes.length + length.toNat) % 64 = r := by omega
      rw [hleft]
      exact hbuffer
  · obtain ⟨buffer, hupdate, hbuffer⟩ := update_of_rest fuel m hpart hinput
    have hroom : bytes.length % 64 + length.toNat < 64 := by
      have := toNat_firstpart m.count0
      bv_omega
    have hstream : streamOf (bytes ++ input.take length.toNat) = ⟨(streamOf bytes).state,
        (streamOf bytes).pending ++ input.take length.toNat, by simp [length_pending]; omega⟩ := by
      rw [streamOf_append, Blocks.absorb_of_short]
    refine ⟨_, hupdate, h.notFinalized, ?_, ?_, ?_⟩
    · rw [List.length_append, List.length_take_of_le hinput]
      exact hcount
    · rw [hstream]
      exact h.state
    · rw [hstream]
      change _ = (streamOf bytes).pending ++ _
      rw [← h.pending, ← hindex, ← hbuffer, List.length_append, List.length_take_of_le hinput]
      congr 1
      omega

/-- The object after the updates with some chunks. -/
theorem foldlM_update_represents {fuel : ℕ} (hfuel : 2 ^ 25 ≤ fuel) (chunks : List (List UInt8))
    (hchunks : ∀ c ∈ chunks, c.length < 2 ^ 31) : ∀ {m : MD5} {bytes : List UInt8}, Represents m bytes →
      ∃ m', chunks.foldlM (fun m c => update fuel m c (BitVec.ofNat 32 c.length)) m = some m' ∧
        Represents m' (bytes ++ chunks.flatten) := by
  induction chunks with
  | nil =>
    intro m bytes h
    exact ⟨m, rfl, by rwa [List.flatten_nil, List.append_nil]⟩
  | cons c chunks ih =>
    intro m bytes h
    have hshort := hchunks c List.mem_cons_self
    have hlen : (BitVec.ofNat 32 c.length).toNat = c.length := toNat_ofNat_of_lt (by omega)
    obtain ⟨m₁, hfirst, h₁⟩ := update_represents c h (Nat.le_of_eq hlen) (by omega) (by omega : _ < 64 * fuel)
    rw [hlen, List.take_length] at h₁
    obtain ⟨m₂, hrest, h₂⟩ := ih (fun c hc => hchunks c (List.mem_cons_of_mem _ hc)) h₁
    refine ⟨m₂, ?_, ?_⟩
    · rw [List.foldlM_cons, hfirst]
      exact hrest
    · rwa [List.flatten_cons, ← List.append_assoc]

/-! ### The end -/

theorem lowByte_shift (w : Word) (j : ℕ) :
    lowByte ((w >>> (8 * j)) &&& 0xff) = UInt8.ofNat (w.toNat / 256 ^ j) := by
  have hmask : ∀ n : ℕ, n &&& 255 = n % 256 := fun n => Nat.and_two_pow_sub_one_eq_mod n 8
  rw [← UInt8.toNat_inj, lowByte, UInt8.toNat_ofBitVec, BitVec.toNat_setWidth, BitVec.toNat_and,
    BitVec.toNat_ushiftRight, Nat.shiftRight_eq_div_pow, Nat.pow_mul, UInt8.toNat_ofNat',
    show (0xff : Word).toNat = 255 from rfl, hmask]
  exact Nat.mod_mod _ _

theorem encode_cons (w : Word) (ws : List Word) : encode (w :: ws) = littleEndian 4 w.toNat ++ encode ws := by
  have h0 := lowByte_shift w 0
  rw [Nat.mul_zero, BitVec.ushiftRight_zero] at h0
  rw [encode, List.flatMap_cons, h0]
  exact congrArg (· ++ encode ws) (by
    simp only [littleEndian, List.range, List.range.loop, List.map_cons, List.map_nil]
    rw [← lowByte_shift w 1, ← lowByte_shift w 2, ← lowByte_shift w 3])

/-- Eight bytes are two words. -/
theorem littleEndian_eight (n : ℕ) :
    littleEndian 8 n = littleEndian 4 (n % 2 ^ 32) ++ littleEndian 4 (n / 2 ^ 32 % 2 ^ 32) := by
  simp only [littleEndian, List.range, List.range.loop, List.map_cons, List.map_nil, List.cons_append,
    List.nil_append, List.cons.injEq, ← UInt8.toNat_inj, UInt8.toNat_ofNat', and_true]
  omega

/-- The two words of the counter, in bytes. -/
theorem encode_count {m : MD5} {bytes : List UInt8} (h : Represents m bytes) :
    encode [m.count0, m.count1] = littleEndian 8 (8 * bytes.length) := by
  have hcount := h.count
  have hlt := m.count0.isLt
  rw [encode_cons, encode_cons, littleEndian_eight, ← show m.count0.toNat = 8 * bytes.length % 2 ^ 32 by omega,
    ← show m.count1.toNat = 8 * bytes.length / 2 ^ 32 % 2 ^ 32 by omega]
  rfl

/-- So many bytes of the padding. -/
theorem take_padding {k : ℕ} (h : 0 < k) (hk : k ≤ 64) : padding.take k = 0x80 :: List.replicate (k - 1) 0 := by
  obtain ⟨k, rfl⟩ := Nat.exists_eq_add_one_of_ne_zero (Nat.ne_of_gt h)
  rw [padding, List.take_succ_cons, List.take_replicate, Nat.min_eq_left (by omega), Nat.add_sub_cancel]

/-- **`finalize` stores the digest of the standard.** -/
theorem finalize_eq {fuel : ℕ} (hfuel : 2 ≤ fuel) {m : MD5} {bytes : List UInt8} (h : Represents m bytes) :
    ∃ m', finalize fuel m = some m' ∧ m'.finalized = true ∧ m'.digest = Md5.digest bytes := by
  have hindex := h.index
  -- the bytes that are missing up to 56 modulo 64
  obtain ⟨padLen, hpadLen⟩ : ∃ padLen : Word,
      padLen = if indexOf m.count0 < 56 then 56 - indexOf m.count0 else 120 - indexOf m.count0 := ⟨_, rfl⟩
  have hpad : padLen.toNat = (119 - bytes.length % 64) % 64 + 1 := by
    rw [hpadLen]
    have := indexOf_lt m.count0
    split_ifs <;> bv_omega
  have hroom : padLen.toNat ≤ padding.length := by
    rw [hpad, padding, List.length_cons, List.length_replicate]
    omega
  obtain ⟨m₁, hfirst, h₁⟩ := update_represents padding h hroom (by omega) (by omega : _ < 64 * fuel)
  -- the length
  have hbits := encode_count h
  have height : (8 : Word).toNat = 8 := rfl
  have hbitsLen : (encode [m.count0, m.count1]).length = 8 := rfl
  obtain ⟨m₂, hsecond, h₂⟩ := update_represents (encode [m.count0, m.count1]) h₁
    (Nat.le_of_eq (height.trans hbitsLen.symm)) (by omega) (by omega : _ < 64 * fuel)
  rw [height, List.take_of_length_le (Nat.le_of_eq hbitsLen), hbits, take_padding (by omega) (by omega), hpad,
    Nat.add_sub_cancel, List.append_assoc, ← Md5.padding] at h₂
  have hstate := h₂.state
  rw [streamOf, Md5.absorb_padded] at hstate
  have hdigest : encode [m₂.state.a, m₂.state.b, m₂.state.c, m₂.state.d] = m₂.state.bytes := by
    rw [encode_cons, encode_cons, encode_cons, encode_cons, Registers.bytes]
    simp [encode]
  have hfinal : finalize fuel m = some
      { m₂ with
        digest := toBlock (encode [m₂.state.a, m₂.state.b, m₂.state.c, m₂.state.d]) rfl
        buffer := Vector.replicate 64 0
        count0 := 0
        count1 := 0
        finalized := true } := by
    rw [finalize, h.notFinalized, if_neg Bool.false_ne_true]
    simp only [← hpadLen, hfirst, hsecond, Option.bind_eq_bind, Option.bind_some]
    rfl
  refine ⟨_, hfinal, rfl, ?_⟩
  rw [← Vector.toList_inj]
  change encode [m₂.state.a, m₂.state.b, m₂.state.c, m₂.state.d] = _
  rw [hdigest, hstate]
  rfl

/-! ### Digests -/

/-- The digest that is printed for some chunks: construct, update in order, finalize, print. -/
def digestOf (fuel : ℕ) (memory : MD5) (chunks : List (List UInt8)) : Option (List UInt8) := do
  let m ← chunks.foldlM (fun m c => update fuel m c (BitVec.ofNat 32 c.length)) (init memory)
  let m ← finalize fuel m
  return hexdigest m

/-- What the digest of some chunks is. -/
structure IsMd5 (fuel : ℕ) (memory : MD5) (chunks : List (List UInt8)) : Prop where
  /-- The lower-case text of the digest of the standard. -/
  standard : digestOf fuel memory chunks = some ((Md5.digest chunks.flatten).toList.flatMap printHex)
  /-- It depends on the bytes only. -/
  cut : ∀ memory' chunks', (∀ c ∈ chunks', c.length < 2 ^ 31) → chunks'.flatten = chunks.flatten →
    digestOf fuel memory' chunks' = digestOf fuel memory chunks
  /-- It is `md5` of the whole text, where that is short enough. -/
  whole : ∀ memory', chunks.flatten.length < 2 ^ 31 → md5 fuel memory' chunks.flatten = digestOf fuel memory chunks
  /-- It is the device's digest of a text with these bytes. -/
  device : ∀ str, Java.getBytes str = chunks.flatten →
    (digestOf fuel memory chunks).map (fun text => text.map fun c => UInt16.ofNat c.toNat) =
      some (Upload.getMD5Str Md5.digest str)

theorem digestOf_eq {fuel : ℕ} (hfuel : 2 ^ 25 ≤ fuel) (memory : MD5) {chunks : List (List UInt8)}
    (hchunks : ∀ c ∈ chunks, c.length < 2 ^ 31) :
    digestOf fuel memory chunks = some ((Md5.digest chunks.flatten).toList.flatMap printHex) := by
  obtain ⟨m, hupdates, hm⟩ := foldlM_update_represents hfuel chunks hchunks (represents_init memory)
  obtain ⟨m', hfinal, hdone, hdigest⟩ := finalize_eq (by omega : 2 ≤ fuel) hm
  have hprinted : hexdigest m' = (Md5.digest chunks.flatten).toList.flatMap printHex := by
    rw [hexdigest, if_pos hdone, hdigest, List.nil_append]
  simp only [digestOf, hupdates, hfinal, Option.bind_eq_bind, Option.bind_some, hprinted]
  rfl

theorem md5_eq_digestOf (fuel : ℕ) (memory : MD5) (str : List UInt8) :
    md5 fuel memory str = digestOf fuel memory [str] := by
  simp only [md5, ofText, digestOf, List.foldlM_cons, List.foldlM_nil]
  cases update fuel (init memory) str (BitVec.ofNat 32 str.length) with
  | none => rfl
  | some m =>
    simp only [Option.bind_eq_bind, Option.bind_some, Option.pure_def]
    cases finalize fuel m <;> rfl

/-- The two digits that the device prints for a byte. -/
theorem byteHex_eq (b : UInt8) :
    Upload.byteHex b = [Java.hexUnit (b.toNat / 16), Java.hexUnit (b.toNat % 16)] := by
  have hlt := b.toNat_lt
  rw [Upload.byteHex, Java.natToHex]
  by_cases hsmall : b.toNat < 16
  · have hdigits : Java.hexDigits b.toNat = [b.toNat] := by
      rw [Java.hexDigits]
      split_ifs with hzero
      · rw [hzero]
      · rw [Nat.digits_of_lt 16 _ hzero hsmall]
        rfl
    rw [hdigits, Nat.div_eq_of_lt hsmall, Nat.mod_eq_of_lt hsmall]
    rfl
  · have hdigits : Java.hexDigits b.toNat = [b.toNat / 16, b.toNat % 16] := by
      rw [Java.hexDigits, if_neg (by omega), Nat.digits_def' (by decide) (by omega),
        Nat.digits_of_lt 16 _ (by omega) (by omega)]
      rfl
    rw [hdigits]
    rfl

/-- A byte is printed as the device prints it. -/
theorem map_printHex (b : UInt8) : (printHex b).map (fun c => UInt16.ofNat c.toNat) = Upload.byteHex b := by
  have key : ∀ d < 16, UInt16.ofNat (hexChar d).toNat = Java.hexUnit d := by decide
  have hlt := b.toNat_lt
  rw [byteHex_eq, printHex, List.map_cons, List.map_singleton, key _ (by omega), key _ (by omega)]

/-- **The digest of the class is MD5, however the bytes are cut.** -/
theorem digestOf_isMd5 {fuel : ℕ} (hfuel : 2 ^ 25 ≤ fuel) (memory : MD5) {chunks : List (List UInt8)}
    (hchunks : ∀ c ∈ chunks, c.length < 2 ^ 31) : IsMd5 fuel memory chunks where
  standard := digestOf_eq hfuel memory hchunks
  cut := by
    intro memory' chunks' hchunks' hbytes
    rw [digestOf_eq hfuel memory' hchunks', digestOf_eq hfuel memory hchunks, hbytes]
  whole := by
    intro memory' hlen
    have hone : ∀ c ∈ [chunks.flatten], c.length < 2 ^ 31 := by simpa using hlen
    rw [md5_eq_digestOf, digestOf_eq hfuel memory' hone, digestOf_eq hfuel memory hchunks]
    simp
  device := by
    intro str hstr
    rw [digestOf_eq hfuel memory hchunks, Option.map_some, Upload.getMD5Str, hstr, List.map_flatMap]
    simp only [map_printHex]

/-- The bytes of `abc`, in two chunks with an empty one between them. -/
theorem digestOf_isMd5_abc :
    IsMd5 (2 ^ 25) ⟨false, Vector.replicate 64 0, 0, 0, ⟨0, 0, 0, 0⟩, Vector.replicate 16 0⟩
    [[0x61], [], [0x62, 0x63]] :=
  digestOf_isMd5 (Nat.le_refl _) _ (by simp)

end GpsTracker.Ios.MD5
