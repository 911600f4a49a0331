import Mathlib.Data.Nat.Log
import Mathlib.Data.List.Lex
import Mathlib.Algebra.Order.Ring.Nat

/-!
# Numbers of fixed width

A number below `10 ^ w` in `w` digits, and a text that puts several of them
between fixed separators. Such texts are in the lexicographic order of their
numbers (`render_lt`), so different numbers give different texts (`render_inj`).
-/

namespace GpsTracker.Digits

universe u

/-- The last `w` decimal digits, the highest first. -/
def digits : ℕ → ℕ → List ℕ
  | 0, _ => []
  | w + 1, n => n / 10 ^ w % 10 :: digits w n

theorem digits_mod (w n : ℕ) : ∀ k, w ≤ k → digits w (n % 10 ^ k) = digits w n := by
  induction w with
  | zero => exact fun _ _ => rfl
  | succ w ih =>
    intro k hk
    obtain ⟨j, rfl⟩ := Nat.exists_eq_add_of_le hk
    have htop : n % 10 ^ (w + 1 + j) / 10 ^ w % 10 = n / 10 ^ w % 10 := by
      rw [Nat.add_assoc, Nat.pow_add, Nat.mod_mul_right_div_self, Nat.add_comm 1 j, Nat.pow_succ,
        Nat.mod_mul_left_mod]
    rw [digits, digits, htop, ih _ (by omega)]

@[simp] theorem length_digits (w n : ℕ) : (digits w n).length = w := by
  induction w with
  | zero => rfl
  | succ w ih => rw [digits, List.length_cons, ih]

theorem lt_ten_of_mem_digits {w n d : ℕ} (h : d ∈ digits w n) : d < 10 := by
  induction w with
  | zero => cases h
  | succ w ih =>
    rcases List.mem_cons.mp h with rfl | h
    · exact Nat.mod_lt _ (by decide)
    · exact ih h

variable {α : Type u} [LT α]

/-- The symbols of the digits grow with them. -/
def Growing (symbol : ℕ → α) : Prop := ∀ d e, d < e → e < 10 → symbol d < symbol e

variable {symbol : ℕ → α}

/-- A smaller number comes first, whatever follows. -/
theorem digits_lt (hsym : Growing symbol) (w : ℕ) : ∀ {n n' : ℕ} (r r' : List α), n < n' → n' < 10 ^ w →
    (digits w n).map symbol ++ r < (digits w n').map symbol ++ r' := by
  induction w with
  | zero =>
    intro n n' r r' hlt hn'
    rw [Nat.pow_zero] at hn'
    omega
  | succ w ih =>
    intro n n' r r' hlt hn'
    have htop : n / 10 ^ w ≤ n' / 10 ^ w := Nat.div_le_div_right hlt.le
    have hten : n' / 10 ^ w < 10 := Nat.div_lt_of_lt_mul (by rwa [Nat.pow_succ] at hn')
    rw [digits, digits, Nat.mod_eq_of_lt hten, Nat.mod_eq_of_lt (by omega : n / 10 ^ w < 10), List.map_cons,
      List.map_cons, List.cons_append, List.cons_append, List.cons_lt_cons_iff]
    rcases Nat.lt_or_eq_of_le htop with h | h
    · exact Or.inl (hsym _ _ h hten)
    · refine Or.inr ⟨by rw [h], ?_⟩
      rw [← digits_mod w n w (Nat.le_refl w), ← digits_mod w n' w (Nat.le_refl w)]
      refine ih r r' ?_ (Nat.mod_lt _ (Nat.pow_pos (by decide)))
      have hn := Nat.div_add_mod n (10 ^ w)
      have hn'' := Nat.div_add_mod n' (10 ^ w)
      rw [h] at hn
      omega

/-! ### Texts -/

/-- A text with a number for each width, and what stands after it. -/
def render (symbol : ℕ → α) : List (ℕ × List α) → List ℕ → List α
  | (w, separator) :: template, n :: numbers => (digits w n).map symbol ++ separator ++ render symbol template numbers
  | _, _ => []

omit [LT α] in
/-- A text has its digits and its separators only. -/
theorem mem_render {template : List (ℕ × List α)} :
    ∀ {numbers : List ℕ} {x : α}, x ∈ render symbol template numbers →
    (∃ d < 10, x = symbol d) ∨ ∃ t ∈ template, x ∈ t.2 := by
  induction template with
  | nil => exact fun h => absurd h List.not_mem_nil
  | cons t template ih =>
    intro numbers x h
    cases numbers with
    | nil => exact absurd h List.not_mem_nil
    | cons n numbers =>
      rw [render, List.mem_append, List.mem_append, List.mem_map] at h
      rcases h with (⟨d, hd, rfl⟩ | h) | h
      · exact Or.inl ⟨d, lt_ten_of_mem_digits hd, rfl⟩
      · exact Or.inr ⟨t, List.mem_cons_self, h⟩
      · rcases ih h with hdigit | ⟨t', ht', hx⟩
        · exact Or.inl hdigit
        · exact Or.inr ⟨t', List.mem_cons_of_mem _ ht', hx⟩

/-- The numbers have their widths. -/
def Fitting (template : List (ℕ × List α)) (numbers : List ℕ) : Prop :=
  List.Forall₂ (fun t n => n < 10 ^ t.1) template numbers

/-- The texts are in the order of their numbers. -/
theorem render_lt (hsym : Growing symbol) {template : List (ℕ × List α)} {numbers numbers' : List ℕ}
    (h : Fitting template numbers) (h' : Fitting template numbers') (hlt : numbers < numbers') :
    render symbol template numbers < render symbol template numbers' := by
  induction h generalizing numbers' with
  | nil =>
    cases h'
    exact absurd hlt (List.lt_irrefl _)
  | cons hn _ ih =>
    cases h' with
    | cons hn' hrest =>
      rw [render, render, List.append_assoc, List.append_assoc]
      rcases List.cons_lt_cons_iff.mp hlt with h | ⟨rfl, h⟩
      · exact digits_lt hsym _ _ _ h hn'
      · exact List.append_left_lt (List.append_left_lt (ih hrest h))

/-- **Different numbers give different texts.** -/
theorem render_inj [Std.Asymm (α := α) (· < ·)] (hsym : Growing symbol) {template : List (ℕ × List α)}
    {numbers numbers' : List ℕ} (h : Fitting template numbers) (h' : Fitting template numbers')
    (heq : render symbol template numbers = render symbol template numbers') : numbers = numbers' := by
  rcases lt_trichotomy numbers numbers' with hord | hsame | hord
  · exact absurd (render_lt hsym h h' hord) (by rw [heq]; exact fun hlt => List.lt_asymm hlt hlt)
  · exact hsame
  · exact absurd (render_lt hsym h' h hord) (by rw [heq]; exact fun hlt => List.lt_asymm hlt hlt)

end GpsTracker.Digits
