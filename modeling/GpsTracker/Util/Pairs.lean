import GpsTracker.Java.Runtime

/-!
# Arrays filled from pairs

`str2Bcd` and `hexToBytesArray` fill an array of bytes, each from two elements
of another array, in a loop that may carry something from one byte to the next.
With two elements for each byte the result is `mapPairs`; where the last one
lacks its second element the loop ends in an exception.
-/

namespace GpsTracker.Util

open GpsTracker.Java

universe u v

variable {α : Type u} {σ : Type v}

/-- The loop, with so many bytes to go, at the byte `c`. -/
def fillPairs (src : List α) (turn : σ → α → α → σ × UInt8) : ℕ → ℕ → σ → List UInt8 → Except Exn (List UInt8)
  | 0, _, _, res => .ok res
  | n + 1, c, st, res =>
    match load src (2 * c), load src (2 * c + 1) with
    | .ok x, .ok y =>
      match store res c (turn st x y).2 with
      | .ok res => fillPairs src turn n (c + 1) (turn st x y).1 res
      | .error e => .error e
    | .error e, _ => .error e
    | _, .error e => .error e

/-- The bytes of a list of pairs. -/
def mapPairs (turn : σ → α → α → σ × UInt8) : σ → List α → List UInt8
  | st, x :: y :: rest => (turn st x y).2 :: mapPairs turn (turn st x y).1 rest
  | _, _ => []

/-- What the loop carries after a list of pairs. -/
def carryPairs (turn : σ → α → α → σ × UInt8) : σ → List α → σ
  | st, x :: y :: rest => carryPairs turn (turn st x y).1 rest
  | st, _ => st

variable (turn : σ → α → α → σ × UInt8)

theorem load_append_cons (pre rest : List α) (x : α) : load (pre ++ x :: rest) pre.length = .ok x := by
  rw [load, List.getElem?_append_right (Nat.le_refl _), Nat.sub_self]
  rfl

/-- The turn for one pair. -/
theorem fillPairs_succ {pre rest : List α} {x y : α} {done : List UInt8} (k n : ℕ) (st : σ)
    (hpre : pre.length = 2 * done.length) :
    fillPairs (pre ++ x :: y :: rest) turn (k + 1) done.length st (done ++ List.replicate (n + 1) 0) =
      fillPairs ((pre ++ [x, y]) ++ rest) turn k (done ++ [(turn st x y).2]).length (turn st x y).1
        ((done ++ [(turn st x y).2]) ++ List.replicate n 0) := by
  have hx : load (pre ++ x :: y :: rest) (2 * done.length) = .ok x := by
    rw [← hpre]
    exact load_append_cons pre (y :: rest) x
  have hy : load (pre ++ x :: y :: rest) (2 * done.length + 1) = .ok y := by
    have hload := load_append_cons (pre ++ [x]) rest y
    rwa [List.append_assoc, List.length_append, List.length_singleton, hpre] at hload
  have hstore : store (done ++ List.replicate (n + 1) 0) done.length (turn st x y).2 =
      .ok ((done ++ [(turn st x y).2]) ++ List.replicate n 0) := by
    rw [store_of_lt (by simp), List.set_append_right _ _ (Nat.le_refl _), Nat.sub_self, List.replicate_succ,
      List.set_cons_zero, List.append_assoc]
    rfl
  rw [fillPairs, hx, hy]
  simp only [hstore, List.append_assoc, List.cons_append, List.nil_append, List.length_append,
    List.length_singleton]

/-- **The array, where every byte has its two elements.** -/
theorem fillPairs_even (n : ℕ) :
    ∀ (pre rest : List α) (done : List UInt8) (st : σ), pre.length = 2 * done.length →
    rest.length = 2 * n → fillPairs (pre ++ rest) turn n done.length st (done ++ List.replicate n 0) =
      .ok (done ++ mapPairs turn st rest) := by
  induction n with
  | zero =>
    intro pre rest done st _ hrest
    obtain rfl := List.length_eq_zero_iff.mp hrest
    simp [fillPairs, mapPairs]
  | succ n ih =>
    intro pre rest done st hpre hrest
    rcases rest with _ | ⟨x, _ | ⟨y, rest⟩⟩
    · cases hrest
    · simp at hrest
      omega
    · rw [fillPairs_succ turn n n st hpre, ih _ _ _ _ (by simp; omega) (by simp at hrest; omega)]
      simp [mapPairs]

/-- The exception, where the last byte lacks its second element. -/
theorem fillPairs_odd (n : ℕ) :
    ∀ (pre rest : List α) (done : List UInt8) (st : σ), pre.length = 2 * done.length →
    rest.length = 2 * n + 1 → fillPairs (pre ++ rest) turn (n + 1) done.length st (done ++ List.replicate n 0) =
      .error .indexOutOfBounds := by
  induction n with
  | zero =>
    intro pre rest done st hpre hrest
    obtain ⟨x, rfl⟩ := List.length_eq_one_iff.mp hrest
    have hy : load (pre ++ [x]) (2 * done.length + 1) = .error .indexOutOfBounds := by
      rw [← hpre, load, List.getElem?_eq_none (by simp)]
    rw [fillPairs, hy, ← hpre, load_append_cons]
  | succ n ih =>
    intro pre rest done st hpre hrest
    rcases rest with _ | ⟨x, _ | ⟨y, rest⟩⟩
    · cases hrest
    · simp at hrest
    · rw [fillPairs_succ turn (n + 1) n st hpre]
      exact ih _ _ _ _ (by simp; omega) (by simp at hrest; omega)

/-- The second half of a list goes on with what the first half leaves. -/
theorem mapPairs_append (turn : σ → α → α → σ × UInt8) (n : ℕ) : ∀ (st : σ) (l l' : List α), l.length = 2 * n →
    mapPairs turn st (l ++ l') = mapPairs turn st l ++ mapPairs turn (carryPairs turn st l) l' := by
  induction n with
  | zero =>
    intro st l l' h
    obtain rfl := List.length_eq_zero_iff.mp h
    rfl
  | succ n ih =>
    intro st l l' h
    rcases l with _ | ⟨x, _ | ⟨y, l⟩⟩
    · cases h
    · simp at h
      omega
    · simp only [List.cons_append, mapPairs, carryPairs]
      rw [ih _ l l' (by simp at h; omega)]

/-- Two loops with related turns give the same bytes. -/
theorem mapPairs_congr {β : Type u} {τ : Type v} {turn : σ → α → α → σ × UInt8} {turn' : τ → β → β → τ × UInt8}
    (f : α → β) (R : σ → τ → Prop) (hturn : ∀ st st' x y, R st st' →
      R (turn st x y).1 (turn' st' (f x) (f y)).1 ∧ (turn st x y).2 = (turn' st' (f x) (f y)).2) :
    ∀ (l : List α) (st : σ) (st' : τ), R st st' → mapPairs turn st l = mapPairs turn' st' (l.map f)
  | [], _, _, _ => rfl
  | [_], _, _, _ => rfl
  | x :: y :: rest, st, st', h => by
    obtain ⟨hstate, hbyte⟩ := hturn st st' x y h
    rw [List.map_cons, List.map_cons, mapPairs, mapPairs, hbyte, mapPairs_congr f R hturn rest _ _ hstate]

end GpsTracker.Util
