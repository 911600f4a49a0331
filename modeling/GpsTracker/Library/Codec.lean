import Mathlib.Algebra.Order.Ring.Nat
import Mathlib.Data.List.Basic
import Mathlib.Data.List.Infix

/-!
# Codecs

A codec writes values as bytes and reads them from the front of bytes, without a look
at what comes behind. So nothing is read from a part of what was written
(`Codec.read_of_prefix`): a reader that comes to the end too early has no value.

Codecs of numbers, of pairs, of values that may be missing and of lists are put
together from smaller ones; a list is preceded by its length or by that of its bytes.
-/

namespace GpsTracker

universe u v

/-- A way to write values and to read them back. -/
structure Codec (α : Type u) where
  write : α → List UInt8
  /-- The value that bytes begin with, and the bytes that follow. -/
  read : List UInt8 → Option (α × List UInt8)
  /-- The values that it can write. -/
  Fits : α → Prop
  /-- What was written is read. -/
  read_write : ∀ x, Fits x → ∀ rest, read (write x ++ rest) = some (x, rest)
  /-- What is read stays the same with more bytes behind it. -/
  read_more : ∀ bs x rest, read bs = some (x, rest) → ∀ more, read (bs ++ more) = some (x, rest ++ more)

namespace Codec

variable {α : Type u} {β : Type v}

/-- **Nothing is read from a part of what was written.** -/
theorem read_of_prefix (c : Codec α) {x : α} (hx : c.Fits x) {bs : List UInt8} (hpart : bs <+: c.write x)
    (hne : bs ≠ c.write x) : c.read bs = none := by
  obtain ⟨more, hmore⟩ := hpart
  by_contra hread
  obtain ⟨⟨y, rest⟩, hy⟩ := Option.ne_none_iff_exists'.mp hread
  have hwhole := c.read_write x hx []
  rw [List.append_nil, ← hmore, c.read_more bs y rest hy more] at hwhole
  obtain ⟨-, hrest⟩ := Prod.mk.inj (Option.some.inj hwhole)
  rw [(List.append_eq_nil_iff.mp hrest).2, List.append_nil] at hmore
  exact hne hmore

/-! ### Bytes and numbers -/

/-- One byte. -/
def byte : Codec UInt8 where
  write b := [b]
  read
    | [] => none
    | b :: bs => some (b, bs)
  Fits _ := True
  read_write _ _ _ := rfl
  read_more bs b rest h more := by
    cases bs with
    | nil => cases h
    | cons b bs =>
      cases h
      rfl

/-- Values in the place of others. -/
def map (c : Codec α) (f : α → β) (g : β → α) (P : β → Prop) (h : ∀ y, P y → c.Fits (g y) ∧ f (g y) = y) :
    Codec β where
  write y := c.write (g y)
  read bs := (c.read bs).map fun r => (f r.1, r.2)
  Fits := P
  read_write y hy rest := by
    obtain ⟨hfits, hback⟩ := h y hy
    rw [c.read_write (g y) hfits rest, Option.map_some, hback]
  read_more bs y rest hread more := by
    obtain ⟨r, hr, heq⟩ := Option.map_eq_some_iff.mp hread
    cases heq
    rw [c.read_more bs r.1 r.2 hr more]
    rfl

/-- One value after another. -/
def pair (c : Codec α) (d : Codec β) : Codec (α × β) where
  write x := c.write x.1 ++ d.write x.2
  read bs := (c.read bs).bind fun r => (d.read r.2).map fun s => ((r.1, s.1), s.2)
  Fits x := c.Fits x.1 ∧ d.Fits x.2
  read_write x hx rest := by
    rw [List.append_assoc, c.read_write x.1 hx.1, Option.bind_some, d.read_write x.2 hx.2]
    rfl
  read_more bs x rest hread more := by
    obtain ⟨r, hr, hread⟩ := Option.bind_eq_some_iff.mp hread
    obtain ⟨s, hs, heq⟩ := Option.map_eq_some_iff.mp hread
    cases heq
    rw [c.read_more bs r.1 r.2 hr more, Option.bind_some, d.read_more r.2 s.1 s.2 hs more]
    rfl

/-- Numbers below `256 ^ n` in `n` bytes, the high byte first. -/
def number : ℕ → Codec ℕ
  | 0 =>
    { write := fun _ => []
      read := fun bs => some (0, bs)
      Fits := fun k => k = 0
      read_write := fun _ hk _ => by rw [hk, List.nil_append]
      read_more := fun _ _ _ hread _ => by cases hread; rfl }
  | n + 1 =>
    (byte.pair (number n)).map (fun r => r.1.toNat * 256 ^ n + r.2)
      (fun k => (UInt8.ofNat (k / 256 ^ n), k % 256 ^ n))
      (fun k => k / 256 ^ n < 256 ∧ (number n).Fits (k % 256 ^ n))
      fun k hk => by
        refine ⟨⟨trivial, hk.2⟩, ?_⟩
        rw [UInt8.toNat_ofNat', Nat.mod_eq_of_lt hk.1, Nat.mul_comm]
        exact Nat.div_add_mod k (256 ^ n)

theorem fits_number_iff {n : ℕ} : ∀ {k : ℕ}, (number n).Fits k ↔ k < 256 ^ n := by
  induction n with
  | zero => exact Nat.lt_one_iff.symm
  | succ n ih =>
    intro k
    have hpos : 0 < 256 ^ n := Nat.pow_pos (by decide)
    have hstep : (number (n + 1)).Fits k ↔ k / 256 ^ n < 256 ∧ (number n).Fits (k % 256 ^ n) := Iff.rfl
    rw [hstep, ih, and_iff_left (Nat.mod_lt k hpos), Nat.div_lt_iff_lt_mul hpos, Nat.pow_succ, Nat.mul_comm]

/-! ### Marks -/

/-- A value behind fixed bytes. -/
def tagged (front : List UInt8) (c : Codec α) : Codec α where
  write x := front ++ c.write x
  read bs := if front <+: bs then c.read (bs.drop front.length) else none
  Fits := c.Fits
  read_write x hx rest := by
    rw [List.append_assoc, if_pos (List.prefix_append _ _), List.drop_left, c.read_write x hx]
  read_more bs x rest hread more := by
    obtain ⟨⟨bs, rfl⟩, hread⟩ := Option.ite_none_right_eq_some.mp hread
    rw [List.drop_left] at hread
    rw [List.append_assoc, if_pos (List.prefix_append _ _), List.drop_left, c.read_more bs x rest hread]

/-- A value that may be missing, which a mark of its own says. -/
def nullable (absent : UInt8) (c : Codec α) (h : ∀ x, c.Fits x → ∃ b bs, c.write x = b :: bs ∧ b ≠ absent) :
    Codec (Option α) where
  write
    | none => [absent]
    | some x => c.write x
  read
    | [] => none
    | b :: bs => if b = absent then some (none, bs) else (c.read (b :: bs)).map fun r => (some r.1, r.2)
  Fits x := ∀ y ∈ x, c.Fits y
  read_write x hx rest := by
    cases x with
    | none => exact if_pos rfl
    | some x =>
      obtain ⟨b, bs, hwrite, hb⟩ := h x (hx x rfl)
      have hread := c.read_write x (hx x rfl) rest
      simp only [hwrite, List.cons_append] at hread ⊢
      rw [if_neg hb, hread]
      rfl
  read_more bs x rest hread more := by
    cases bs with
    | nil => cases hread
    | cons b bs =>
      simp only [List.cons_append] at hread ⊢
      split_ifs at hread ⊢
      · cases hread
        rfl
      · obtain ⟨r, hr, heq⟩ := Option.map_eq_some_iff.mp hread
        cases heq
        rw [← List.cons_append, c.read_more (b :: bs) r.1 r.2 hr more]
        rfl

/-! ### Lists -/

/-- So many values. -/
def readTimes (c : Codec α) : ℕ → List UInt8 → Option (List α × List UInt8)
  | 0, bs => some ([], bs)
  | n + 1, bs => (c.read bs).bind fun r => (readTimes c n r.2).map fun s => (r.1 :: s.1, s.2)

theorem readTimes_write (c : Codec α) {xs : List α} (h : ∀ x ∈ xs, c.Fits x) (rest : List UInt8) :
    c.readTimes xs.length (xs.flatMap c.write ++ rest) = some (xs, rest) := by
  induction xs with
  | nil => rfl
  | cons x xs ih =>
    obtain ⟨hx, hxs⟩ := List.forall_mem_cons.mp h
    rw [List.length_cons, readTimes, List.flatMap_cons, List.append_assoc, c.read_write x hx,
      Option.bind_some, ih hxs]
    rfl

theorem readTimes_more (c : Codec α) (more : List UInt8) (n : ℕ) : ∀ {bs rest : List UInt8} {xs : List α},
    c.readTimes n bs = some (xs, rest) → c.readTimes n (bs ++ more) = some (xs, rest ++ more) := by
  induction n with
  | zero =>
    intro bs rest xs h
    cases h
    rfl
  | succ n ih =>
    intro bs rest xs h
    obtain ⟨r, hr, h⟩ := Option.bind_eq_some_iff.mp h
    obtain ⟨s, hs, heq⟩ := Option.map_eq_some_iff.mp h
    cases heq
    rw [readTimes, c.read_more bs r.1 r.2 hr more, Option.bind_some, ih hs]
    rfl

/-- The values of a list behind their number. -/
def list (count : Codec ℕ) (c : Codec α) : Codec (List α) where
  write xs := count.write xs.length ++ xs.flatMap c.write
  read bs := (count.read bs).bind fun r => c.readTimes r.1 r.2
  Fits xs := count.Fits xs.length ∧ ∀ x ∈ xs, c.Fits x
  read_write xs hxs rest := by
    rw [List.append_assoc, count.read_write _ hxs.1, Option.bind_some, c.readTimes_write hxs.2]
  read_more bs xs rest hread more := by
    obtain ⟨r, hr, hread⟩ := Option.bind_eq_some_iff.mp hread
    rw [count.read_more bs r.1 r.2 hr more, Option.bind_some, c.readTimes_more more r.1 hread]

/-- All values in the bytes; each takes one byte at least. -/
def readAll (c : Codec α) : ℕ → List UInt8 → Option (List α)
  | 0, [] => some []
  | 0, _ :: _ => none
  | _ + 1, [] => some []
  | n + 1, b :: bs => (c.read (b :: bs)).bind fun r => (readAll c n r.2).map fun xs => r.1 :: xs

theorem readAll_write (c : Codec α) (hne : ∀ x, c.write x ≠ []) {xs : List α} (h : ∀ x ∈ xs, c.Fits x) :
    ∀ {n : ℕ}, xs.length ≤ n → c.readAll n (xs.flatMap c.write) = some xs := by
  induction xs with
  | nil =>
    intro n _
    cases n <;> rfl
  | cons x xs ih =>
    intro n hn
    obtain ⟨hx, hxs⟩ := List.forall_mem_cons.mp h
    obtain ⟨n, rfl⟩ : ∃ m, n = m + 1 := ⟨n - 1, by rw [List.length_cons] at hn; omega⟩
    have hread := c.read_write x hx (xs.flatMap c.write)
    obtain ⟨b, bs, hwrite⟩ := List.exists_cons_of_ne_nil (hne x)
    rw [hwrite, List.cons_append] at hread
    rw [List.flatMap_cons, hwrite, List.cons_append, readAll, hread, Option.bind_some,
      ih hxs (Nat.le_of_succ_le_succ hn)]
    rfl

theorem length_le_flatMap_write (c : Codec α) (hne : ∀ x, c.write x ≠ []) (xs : List α) :
    xs.length ≤ (xs.flatMap c.write).length := by
  induction xs with
  | nil => exact Nat.le_refl _
  | cons x xs ih =>
    have hpos := List.length_pos_iff.mpr (hne x)
    rw [List.flatMap_cons, List.length_append, List.length_cons]
    omega

/-- The values of a list behind the number of their bytes. -/
def sized (size : Codec ℕ) (c : Codec α) (hne : ∀ x, c.write x ≠ []) : Codec (List α) where
  write xs := size.write (xs.flatMap c.write).length ++ xs.flatMap c.write
  read bs := (size.read bs).bind fun r =>
    if r.1 ≤ r.2.length then (c.readAll r.1 (r.2.take r.1)).map fun xs => (xs, r.2.drop r.1) else none
  Fits xs := size.Fits (xs.flatMap c.write).length ∧ ∀ x ∈ xs, c.Fits x
  read_write xs hxs rest := by
    have hall := c.readAll_write hne hxs.2 (c.length_le_flatMap_write hne xs)
    rw [List.append_assoc, size.read_write _ hxs.1, Option.bind_some, if_pos (by simp), List.take_left, hall,
      List.drop_left]
    rfl
  read_more bs xs rest hread more := by
    obtain ⟨r, hr, hread⟩ := Option.bind_eq_some_iff.mp hread
    obtain ⟨hle, hread⟩ := Option.ite_none_right_eq_some.mp hread
    obtain ⟨ys, hys, heq⟩ := Option.map_eq_some_iff.mp hread
    cases heq
    rw [size.read_more bs r.1 r.2 hr more, Option.bind_some, if_pos (by rw [List.length_append]; omega),
      List.take_append_of_le_length hle, List.drop_append_of_le_length hle, hys]
    rfl

end Codec

end GpsTracker
