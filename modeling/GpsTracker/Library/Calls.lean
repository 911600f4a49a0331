import Mathlib.Data.List.Basic

/-!
# Sequences of calls

`apply c s` is the state after the call `c`, or what it throws. `run` makes calls
one after the other and ends at the first that throws, with the state it found.
`Leads P` says that no call of a sequence throws and that `P` holds at its end; it
is proved call by call and gives the postcondition of `run`. Calls of others can
come between the calls of a sequence, so it is stated of the calls that are left.
-/

namespace GpsTracker.Calls

variable {σ γ ε : Type*} (apply : γ → σ → Except ε σ)

/-- The state after the calls, up to the first that throws. -/
def run : List γ → σ → σ
  | [], s => s
  | c :: cs, s =>
    match apply c s with
    | .ok s' => run cs s'
    | .error _ => s

/-- No call throws, and `P` holds after the last. -/
def Leads (P : σ → Prop) : List γ → σ → Prop
  | [], s => P s
  | c :: cs, s => ∃ s', apply c s = .ok s' ∧ Leads P cs s'

variable {apply} {P : σ → Prop}

/-- **What a sequence leads to holds after it was run.** -/
theorem Leads.run (cs : List γ) : ∀ s, Leads apply P cs s → P (run apply cs s) := by
  induction cs with
  | nil => exact fun s hs => hs
  | cons c cs ih =>
    rintro s ⟨s', happly, hrest⟩
    rw [Calls.run, happly]
    exact ih s' hrest

end GpsTracker.Calls
