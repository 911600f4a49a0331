import GpsTracker.Library.Runs
import Mathlib.Algebra.BigOperators.Group.Finset.Piecewise

/-!
# Counting along a run

What the actions of a run cost is paid by what the states hold and by what other
actions bring in. If every step pays for itself, so does the run (`after_count_le`):
a debit of the states and the actions that cost something are bounded by a credit
of the states and the actions that bring something.

Where a state has numbered parts, it holds the sum of what its parts hold (`total`),
and a step that changes one part changes the sum by the difference (`total_update`).
-/

namespace GpsTracker.Runs

variable {σ α : Type*} {step : σ → α → Option σ}

/-- **A run pays for itself if its steps do.** The actions `p` cost one each, the actions `q` bring
`price` each. -/
theorem after_count_le (credit debit : σ → ℕ) (p q : α → Bool) (price : ℕ) (Inv : σ → Prop)
    (hstep : ∀ s a s', Inv s → step s a = some s' → Inv s' ∧
      debit s' + credit s + (p a).toNat ≤ debit s + credit s' + price * (q a).toNat) (as : List α) :
    ∀ {s s' : σ}, Inv s → after step s as = some s' →
      debit s' + credit s + as.countP p ≤ debit s + credit s' + price * as.countP q := by
  induction as with
  | nil =>
    intro s s' _ hrun
    obtain rfl := Option.some.inj hrun
    simp
  | cons a as ih =>
    intro s s' hs hrun
    obtain ⟨u, hu, hrest⟩ := Option.bind_eq_some_iff.mp hrun
    obtain ⟨hinv, hle⟩ := hstep s a u hs hu
    have htail := ih hinv hrest
    have hcount (r : α → Bool) : (a :: as).countP r = as.countP r + (r a).toNat := by
      rw [List.countP_cons]
      cases r a <;> rfl
    rw [hcount, hcount, Nat.mul_add]
    omega

/-! ### Parts -/

variable {β : Type*} (value : β → ℕ)

/-- What the first `n` parts hold. -/
def total (f : ℕ → β) (n : ℕ) : ℕ := ∑ i ∈ Finset.range n, value (f i)

theorem total_succ (f : ℕ → β) (n : ℕ) : total value f (n + 1) = total value f n + value (f n) :=
  Finset.sum_range_succ _ n

theorem value_update (f : ℕ → β) (i : ℕ) (x : β) :
    (fun j => value (Function.update f i x j)) = Function.update (fun j => value (f j)) i (value x) :=
  Function.comp_update value f i x

/-- One part changes. -/
theorem total_update (f : ℕ → β) {i n : ℕ} (hi : i < n) (x : β) :
    total value (Function.update f i x) n + value (f i) = total value f n + value x := by
  have hmem : i ∈ Finset.range n := Finset.mem_range.mpr hi
  have hold : total value f n = value (f i) + ∑ j ∈ (Finset.range n).erase i, value (f j) :=
    (Finset.add_sum_erase _ _ hmem).symm
  have hnew : total value (Function.update f i x) n = value x + ∑ j ∈ (Finset.range n).erase i, value (f j) := by
    rw [total, value_update, Finset.sum_update_of_mem hmem, Finset.sdiff_singleton_eq_erase]
  rw [hold, hnew]
  omega

/-- A part is new. -/
theorem total_update_succ (f : ℕ → β) (n : ℕ) (x : β) :
    total value (Function.update f n x) (n + 1) = total value f n + value x := by
  rw [total_succ, Function.update_self, total, value_update]
  refine congrArg (· + value x) (Finset.sum_congr rfl fun j hj => ?_)
  rw [Function.update_of_ne (Finset.mem_range.mp hj).ne]

end GpsTracker.Runs
