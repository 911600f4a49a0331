import Mathlib.Data.List.Basic

/-!
# Streams of blocks

A function that takes blocks of `n` elements, applied to a stream: the elements
wait until there are `n` of them, and then they are taken as one block. What a
stream has become depends on its elements only, not on the parts they came in
(`absorb_append`). A part that is too short to fill the block waits
(`absorb_of_short`), one that fills it exactly is a block (`absorb_of_full`), and
the windows of a list are taken one after another (`absorb_windows`).
-/

namespace GpsTracker.Blocks

universe u v

variable {σ : Type u} {α : Type v} {n : ℕ}

/-- A stream: what its blocks have made, and the elements that wait for the next one. -/
@[ext] structure Stream (σ : Type u) (α : Type v) (n : ℕ) where
  /-- What the blocks have made. -/
  state : σ
  /-- The elements that wait. -/
  pending : List α
  /-- They are no block yet. -/
  short : pending.length < n

/-- The list as a block. -/
def toBlock (l : List α) (h : l.length = n) : Vector α n := ⟨l.toArray, h⟩

/-- One element more. -/
def feed (f : σ → Vector α n → σ) (s : Stream σ α n) (x : α) : Stream σ α n :=
  if h : s.pending.length + 1 = n then
    ⟨f s.state (toBlock (s.pending ++ [x]) (by simpa using h)), [], Nat.zero_lt_of_lt s.short⟩
  else ⟨s.state, s.pending ++ [x], by have := s.short; simp; omega⟩

/-- The elements of a list, one after another. -/
def absorb (f : σ → Vector α n → σ) (s : Stream σ α n) (l : List α) : Stream σ α n := l.foldl (feed f) s

variable (f : σ → Vector α n → σ)

@[simp] theorem absorb_nil (s : Stream σ α n) : absorb f s [] = s := rfl

/-- **The parts do not matter.** -/
theorem absorb_append (s : Stream σ α n) (l l' : List α) : absorb f s (l ++ l') = absorb f (absorb f s l) l' :=
  List.foldl_append

/-- How many elements wait. -/
theorem length_pending_absorb (s : Stream σ α n) (l : List α) :
    (absorb f s l).pending.length = (s.pending.length + l.length) % n := by
  induction l generalizing s with
  | nil => exact (Nat.mod_eq_of_lt s.short).symm
  | cons x l ih =>
    rw [absorb, List.foldl_cons, ← absorb, ih, List.length_cons]
    by_cases h : s.pending.length + 1 = n
    · rw [feed, dif_pos h, List.length_nil, Nat.zero_add, ← Nat.add_assoc, Nat.add_right_comm, h,
        Nat.add_mod_left]
    · rw [feed, dif_neg h, List.length_append, List.length_singleton, Nat.add_assoc, Nat.add_comm 1]

/-- Too few elements for a block wait. -/
theorem absorb_of_short {s : Stream σ α n} {l : List α} (h : (s.pending ++ l).length < n) :
    absorb f s l = ⟨s.state, s.pending ++ l, h⟩ := by
  induction l generalizing s with
  | nil =>
    ext1
    · rfl
    · exact (List.append_nil _).symm
  | cons x l ih =>
    have hfeed : feed f s x = ⟨s.state, s.pending ++ [x], by simp at h ⊢; omega⟩ := by
      rw [feed, dif_neg (by simp at h; omega)]
    rw [absorb, List.foldl_cons, ← absorb, hfeed, ih (by simpa using h)]
    simp

/-- As many as the block lacks are taken. -/
theorem absorb_of_full {s : Stream σ α n} {l : List α} (h : (s.pending ++ l).length = n) :
    absorb f s l = ⟨f s.state (toBlock (s.pending ++ l) h), [], Nat.zero_lt_of_lt s.short⟩ := by
  rcases List.eq_nil_or_concat l with rfl | ⟨l, x, rfl⟩
  · have := s.short
    simp at h
    omega
  · simp only [List.concat_eq_append] at h ⊢
    have hlen : s.pending.length + l.length + 1 = n := by simpa [Nat.add_assoc] using h
    have hshort : (s.pending ++ l).length < n := by simp; omega
    rw [absorb_append, absorb_of_short f hshort, absorb, List.foldl_cons, List.foldl_nil, feed,
      dif_pos (by simp; omega)]
    simp

/-! ### Windows -/

variable [Inhabited α]

/-- The `n` elements of a list from a place on. -/
def window (l : List α) (start : ℕ) : Vector α n := Vector.ofFn fun j => l.getD (start + j) default

theorem toList_window {l : List α} {start : ℕ} (h : start + n ≤ l.length) :
    (window l start : Vector α n).toList = (l.drop start).take n := by
  refine List.ext_getElem (by simp; omega) fun j h1 h2 => ?_
  have hj : start + j < l.length := by
    simp at h2
    omega
  simp [window, hj]

theorem absorb_window (hn : 0 < n) (s : σ) {l : List α} {start : ℕ} (h : start + n ≤ l.length) :
    absorb f ⟨s, [], hn⟩ ((l.drop start).take n) = ⟨f s (window l start), [], hn⟩ := by
  have hlen : ((l.drop start).take n).length = n := by simp; omega
  have hblock : toBlock ((l.drop start).take n) hlen = window l start := by
    rw [← Vector.toList_inj, toList_window h]
    rfl
  rw [absorb_of_full f (s := ⟨s, [], hn⟩) hlen]
  simp only [List.nil_append, hblock]

/-- Whole blocks, one after another. -/
theorem absorb_windows (hn : 0 < n) (s : σ) (l : List α) (start k : ℕ) (h : start + n * k ≤ l.length) :
    absorb f ⟨s, [], hn⟩ ((l.drop start).take (n * k)) =
      ⟨(List.range k).foldl (fun s j => f s (window l (start + n * j))) s, [], hn⟩ := by
  induction k with
  | zero => simp
  | succ k ih =>
    have hk : start + n * k + n ≤ l.length := by
      rw [Nat.mul_succ] at h
      omega
    rw [Nat.mul_succ, List.take_add, List.drop_drop, absorb_append, ih (by omega), absorb_window f hn _ hk,
      List.range_succ, List.foldl_append, List.foldl_cons, List.foldl_nil]

end GpsTracker.Blocks
