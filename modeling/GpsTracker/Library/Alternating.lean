import Mathlib.Data.List.Basic

/-!
# Removing while moving on

A loop that removes the element at its index and then moves the index on skips
one element each time, since the list has closed up behind it: `m` rounds take
out the first, the third, the fifth element and so on (`dropAlternate`). So a
loop that wants to remove the elements of a property, one round for each of
them, removes the right ones exactly when they stand at the first even
positions (`dropAlternate_eq_filter_iff`).
-/

namespace GpsTracker.Alternating

universe u

variable {α : Type u}

/-- The list without its first, third, fifth, … element, `m` of them if there are as many. -/
def dropAlternate : ℕ → List α → List α
  | 0, l => l
  | _ + 1, [] => []
  | _ + 1, [_] => []
  | m + 1, _ :: b :: l => b :: dropAlternate m l

@[simp] theorem dropAlternate_zero (l : List α) : dropAlternate 0 l = l := by
  rw [dropAlternate]

@[simp] theorem dropAlternate_nil (m : ℕ) : dropAlternate m ([] : List α) = [] := by
  cases m <;> rfl

/-- One round of the loop: the element at `i` is removed and the index moves on. -/
theorem take_append_dropAlternate {l : List α} {i : ℕ} (hi : i < l.length) (m : ℕ) :
    (l.eraseIdx i).take (i + 1) ++ dropAlternate m ((l.eraseIdx i).drop (i + 1)) =
      l.take i ++ dropAlternate (m + 1) (l.drop i) := by
  have hlen : (l.take i).length = i := List.length_take_of_le (Nat.le_of_lt hi)
  rw [List.eraseIdx_eq_take_drop_succ, List.drop_eq_getElem_cons hi]
  cases hrest : l.drop (i + 1) with
  | nil =>
    rw [List.append_nil, List.take_of_length_le (by omega), List.drop_eq_nil_of_le (by omega),
      dropAlternate_nil]
    rfl
  | cons b rest =>
    have hsplit : l.take i ++ b :: rest = (l.take i ++ [b]) ++ rest := by simp
    have hone : (l.take i ++ [b]).length = i + 1 := by simp [hlen]
    rw [hsplit, List.take_left' hone, List.drop_left' hone, dropAlternate]
    simp

/-- When `m` rounds have taken out `m` elements, none of them ran past the end. -/
theorem two_mul_le_of_length (m : ℕ) (l : List α) (h : (dropAlternate m l).length + m = l.length) :
    m = 0 ∨ 2 * m ≤ l.length + 1 := by
  induction m, l using dropAlternate.induct with
  | case1 l => exact Or.inl rfl
  | case2 m => simp at h
  | case3 m a =>
    simp only [dropAlternate, List.length_nil, List.length_singleton] at h ⊢
    omega
  | case4 m a b l ih =>
    simp only [dropAlternate, List.length_cons] at h ⊢
    have := ih (by omega)
    omega

/-- `m` rounds take out at most `m` elements of a property. -/
theorem countP_le_dropAlternate (p : α → Bool) (m : ℕ) (l : List α) :
    l.countP p ≤ (dropAlternate m l).countP p + m := by
  induction m, l using dropAlternate.induct with
  | case1 l => simp
  | case2 m => simp
  | case3 m a =>
    have := List.countP_le_length (p := p) (l := [a])
    simp only [List.length_singleton] at this
    omega
  | case4 m a b l ih =>
    rw [dropAlternate, List.countP_cons, List.countP_cons, List.countP_cons]
    split_ifs <;> omega

/-- A list with an element of the property is not what is left without them. -/
theorem ne_filter_of_countP_pos {p : α → Bool} {l : List α} (h : 0 < l.countP p) (s : List α) :
    l ≠ s.filter fun a => !p a := by
  rintro rfl
  obtain ⟨c, hc, hp⟩ := List.countP_pos_iff.mp h
  simp [hp] at hc

/-- The elements of the property stand at the positions `0, 2, 4, …`, as many as there are. -/
def AtEvens (p : α → Bool) (m : ℕ) (l : List α) : Prop :=
  ∀ i a, l[i]? = some a → (p a = true ↔ i % 2 = 0 ∧ i < 2 * m)

theorem atEvens_cons_cons (p : α → Bool) (m : ℕ) (a b : α) (l : List α) :
    AtEvens p (m + 1) (a :: b :: l) ↔ p a = true ∧ p b = false ∧ AtEvens p m l := by
  constructor
  · intro h
    refine ⟨(h 0 a rfl).mpr ⟨rfl, by omega⟩, ?_, fun i c hc => ?_⟩
    · exact Bool.eq_false_iff.mpr fun hb => by have := (h 1 b rfl).mp hb; omega
    · rw [h (i + 2) c hc]
      omega
  · rintro ⟨ha, hb, h⟩ i c hc
    rcases i with _ | _ | i
    · cases hc
      exact iff_of_true ha ⟨rfl, by omega⟩
    · cases hc
      exact iff_of_false (by simp [hb]) (by omega)
    · rw [h i c hc]
      omega

theorem dropAlternate_eq_filter_iff_of_count (p : α → Bool) (m : ℕ) (l : List α) (hm : l.countP p = m) :
    dropAlternate m l = l.filter (fun a => !p a) ↔ AtEvens p m l := by
  induction m, l using dropAlternate.induct with
  | case1 l =>
    have hnone : ∀ a ∈ l, p a = false := by simpa using hm
    refine iff_of_true ?_ fun i a ha => ?_
    · rw [dropAlternate_zero]
      exact (List.filter_eq_self.mpr fun a ha => by simp [hnone a ha]).symm
    · simp [hnone a (List.mem_of_getElem? ha)]
  | case2 m => cases hm
  | case3 m a =>
    rw [List.countP_cons] at hm
    split_ifs at hm with ha
    · obtain rfl : m = 0 := by simpa using hm.symm
      refine iff_of_true (by simp [dropAlternate, ha]) fun i c hc => ?_
      rcases i with _ | i
      · cases hc
        exact iff_of_true ha ⟨rfl, by omega⟩
      · cases hc
    · cases hm
  | case4 m a b l ih =>
    rw [atEvens_cons_cons, dropAlternate]
    by_cases ha : p a = true
    · by_cases hb : p b = true
      · -- the second element stays, and it should not
        refine iff_of_false (ne_filter_of_countP_pos ?_ _) fun h => by simp [hb] at h
        rw [List.countP_cons_of_pos hb]
        omega
      · have hb' : p b = false := by simpa using hb
        have hcount : l.countP p = m := by simpa [ha, hb'] using hm
        simp [ha, hb', ih hcount]
    · -- the first element goes, and then one too many of the property is left
      refine iff_of_false (ne_filter_of_countP_pos ?_ _) fun h => ha h.1
      have hle := countP_le_dropAlternate p m l
      rw [List.countP_cons_of_neg ha, List.countP_cons] at hm
      rw [List.countP_cons]
      omega

/-- **A round for each element of the property removes these elements exactly when they stand
at the first even positions.** -/
theorem dropAlternate_eq_filter_iff (p : α → Bool) (l : List α) :
    dropAlternate (l.countP p) l = l.filter (fun a => !p a) ↔ AtEvens p (l.countP p) l :=
  dropAlternate_eq_filter_iff_of_count p _ l rfl

end GpsTracker.Alternating
