import Mathlib.Data.List.Basic

/-!
# Runs

A transition system is a step function: `step s a` is the state after the action
`a`, if `a` is possible in `s`. A run is a state and the actions taken from it;
it ends at the first one that is not possible.

`Always` says that something holds in every state of a run, `Guarded` that
every step of it was taken under a condition. The rules carry an invariant
through a run: all steps keep it (`always_of_invariant`), or the guarded ones do
(`always_of_guarded`); guarded steps meet another guard (`Guarded.imp_of_invariant`),
or the same one in other words (`guarded_iff_of_invariant`). Where a step that is not
guarded shows in the state it leads to, `Always` and `Guarded` are the same
(`always_iff_guarded`).

`Leads` is a run that is guarded and gets to a given state; such runs are put together
from pieces (`Leads.trans`, `Leads.iterate`), to show that a bound is reached.
-/

namespace GpsTracker.Runs

variable {σ α : Type*} (step : σ → α → Option σ)

/-- `P` holds in every state of the run. -/
def Always (P : σ → Prop) : σ → List α → Prop
  | s, [] => P s
  | s, a :: as => P s ∧ ∀ s', step s a = some s' → Always P s' as

/-- Every step of the run is taken under `G`. -/
def Guarded (G : σ → α → Prop) : σ → List α → Prop
  | _, [] => True
  | s, a :: as => ∀ s', step s a = some s' → G s a ∧ Guarded G s' as

/-- The state at the end of the run, if every action was possible. -/
def after : σ → List α → Option σ
  | s, [] => some s
  | s, a :: as => (step s a).bind fun s' => after s' as

variable {step} {P : σ → Prop} {G H : σ → α → Prop}

/-- The guard of a step that is possible. -/
theorem guarded_cons {s s' : σ} {a : α} {as : List α} (h : step s a = some s') :
    Guarded step G s (a :: as) ↔ G s a ∧ Guarded step G s' as := by
  simp [Guarded, h]

/-- A run can be checked step by step. -/
instance [∀ s a, Decidable (G s a)] : ∀ (s : σ) (as : List α), Decidable (Guarded step G s as)
  | _, [] => isTrue trivial
  | s, a :: as =>
    match h : step s a with
    | none => isTrue fun s' hs' => by rw [h] at hs'; cases hs'
    | some s' =>
      have : Decidable (Guarded step G s' as) := instDecidableGuarded s' as
      decidable_of_iff (G s a ∧ Guarded step G s' as) (guarded_cons h).symm

theorem Always.head {s : σ} {as : List α} (h : Always step P s as) : P s := by
  cases as with
  | nil => exact h
  | cons a as => exact h.1

/-- What holds throughout a run holds at its end. -/
theorem Always.after {as : List α} : ∀ {s s' : σ}, Always step P s as → after step s as = some s' → P s' := by
  induction as with
  | nil =>
    intro s s' h hrun
    obtain rfl := Option.some.inj hrun
    exact h
  | cons a as ih =>
    intro s s' h hrun
    obtain ⟨u, hstep, hrest⟩ := Option.bind_eq_some_iff.mp hrun
    exact ih (h.2 u hstep) hrest

theorem Always.imp {Q : σ → Prop} (h : ∀ s, Q s → P s) (as : List α) :
    ∀ s, Always step Q s as → Always step P s as := by
  induction as with
  | nil => exact fun s hs => h s hs
  | cons a as ih => exact fun s hs => ⟨h s hs.1, fun s' hstep => ih s' (hs.2 s' hstep)⟩

theorem Guarded.imp (h : ∀ s a, G s a → H s a) (as : List α) :
    ∀ s, Guarded step G s as → Guarded step H s as := by
  induction as with
  | nil => exact fun s _ => trivial
  | cons a as ih =>
    intro s hs s' hstep
    exact ⟨h s a (hs s' hstep).1, ih s' (hs s' hstep).2⟩

theorem Guarded.and (as : List α) : ∀ s, Guarded step G s as → Guarded step H s as →
    Guarded step (fun s a => G s a ∧ H s a) s as := by
  induction as with
  | nil => exact fun s _ _ => trivial
  | cons a as ih =>
    intro s hG hH s' hstep
    exact ⟨⟨(hG s' hstep).1, (hH s' hstep).1⟩, ih s' (hG s' hstep).2 (hH s' hstep).2⟩

/-- A condition on the actions alone. -/
theorem guarded_of_forall {A : α → Prop} (as : List α) :
    (∀ a ∈ as, A a) → ∀ s, Guarded step (fun _ a => A a) s as := by
  induction as with
  | nil => exact fun _ s => trivial
  | cons a as ih =>
    intro h s s' _
    exact ⟨h a List.mem_cons_self, ih (fun b hb => h b (List.mem_cons_of_mem _ hb)) s'⟩

/-- **Guarded steps that keep an invariant keep it through the run.** -/
theorem always_of_guarded (Inv : σ → Prop)
    (hstep : ∀ s a s', Inv s → G s a → step s a = some s' → Inv s') (as : List α) :
    ∀ s, Inv s → Guarded step G s as → Always step Inv s as := by
  induction as with
  | nil => exact fun s hs _ => hs
  | cons a as ih =>
    intro s hs hG
    refine ⟨hs, fun s' hs' => ?_⟩
    obtain ⟨hga, hrest⟩ := hG s' hs'
    exact ih s' (hstep s a s' hs hga hs') hrest

/-- What every step keeps holds throughout every run. -/
theorem always_of_invariant (Inv : σ → Prop) (hstep : ∀ s a s', Inv s → step s a = some s' → Inv s')
    (as : List α) :
    ∀ s, Inv s → Always step Inv s as := by
  induction as with
  | nil => exact fun s hs => hs
  | cons a as ih => exact fun s hs => ⟨hs, fun s' hs' => ih s' (hstep s a s' hs hs')⟩

/-- Where an invariant of every step says that two guards are the same, they guard the same runs. -/
theorem guarded_iff_of_invariant (Inv : σ → Prop) (hstep : ∀ s a s', Inv s → step s a = some s' → Inv s')
    (hiff : ∀ s a s', Inv s → step s a = some s' → (G s a ↔ H s a)) (as : List α) :
    ∀ s, Inv s → (Guarded step G s as ↔ Guarded step H s as) := by
  induction as with
  | nil => exact fun s _ => Iff.rfl
  | cons a as ih =>
    intro s hs
    rw [Guarded, Guarded]
    refine forall₂_congr fun s' hs' => ?_
    rw [hiff s a s' hs hs', ih s' (hstep s a s' hs hs')]

/-- Steps guarded by `G` meet `H` too, when an invariant that they keep says so. -/
theorem Guarded.imp_of_invariant (Inv : σ → Prop)
    (hstep : ∀ s a s', Inv s → G s a → step s a = some s' → H s a ∧ Inv s') (as : List α) :
    ∀ s, Inv s → Guarded step G s as → Guarded step H s as := by
  induction as with
  | nil => exact fun s _ _ => trivial
  | cons a as ih =>
    intro s hs hG s' hs'
    obtain ⟨hga, hrest⟩ := hG s' hs'
    obtain ⟨hha, hinv⟩ := hstep s a s' hs hga hs'
    exact ⟨hha, ih s' hinv hrest⟩

/-- **Where `P` holds after exactly the guarded steps, it holds throughout exactly the
guarded runs.** -/
theorem always_iff_guarded (Inv : σ → Prop) (hkeep : ∀ s a s', Inv s → P s → step s a = some s' → Inv s')
    (hiff : ∀ s a s', Inv s → P s → step s a = some s' → (P s' ↔ G s a)) (as : List α) :
    ∀ s, Inv s → P s → (Always step P s as ↔ Guarded step G s as) := by
  induction as with
  | nil => exact fun s _ hP => iff_of_true hP trivial
  | cons a as ih =>
    intro s hs hP
    rw [Always, Guarded, and_iff_right hP]
    refine forall₂_congr fun s' hs' => ?_
    constructor
    · intro h
      exact ⟨(hiff s a s' hs hP hs').mp h.head, (ih s' (hkeep s a s' hs hP hs') h.head).mp h⟩
    · rintro ⟨hga, hrest⟩
      have hP' := (hiff s a s' hs hP hs').mpr hga
      exact (ih s' (hkeep s a s' hs hP hs') hP').mpr hrest

/-! ### Runs to a given state -/

variable (step G) in
/-- The actions are possible from `s`, each one under the guard, and lead to `s'`. -/
def Leads (s : σ) (as : List α) (s' : σ) : Prop := Guarded step G s as ∧ after step s as = some s'

theorem Leads.nil (s : σ) : Leads step G s [] s := ⟨trivial, rfl⟩

theorem Leads.cons {s s' t : σ} {a : α} {as : List α} (hG : G s a) (hstep : step s a = some s')
    (h : Leads step G s' as t) : Leads step G s (a :: as) t := by
  refine ⟨(guarded_cons hstep).mpr ⟨hG, h.1⟩, ?_⟩
  rw [after, hstep]
  exact h.2

/-- One piece after the other. -/
theorem Leads.trans {t u : σ} {as bs : List α} (hbs : Leads step G t bs u) :
    ∀ {s : σ}, Leads step G s as t → Leads step G s (as ++ bs) u := by
  induction as with
  | nil =>
    intro s h
    obtain rfl := Option.some.inj h.2
    exact hbs
  | cons a as ih =>
    intro s h
    obtain ⟨s', hstep, hrest⟩ := Option.bind_eq_some_iff.mp h.2
    obtain ⟨hG, hguarded⟩ := h.1 s' hstep
    exact .cons hG hstep (ih ⟨hguarded, hrest⟩)

/-- A piece that is repeated, where the states between are known. -/
theorem Leads.iterate {as : List α} (f : ℕ → σ) :
    ∀ {n : ℕ}, (∀ i < n, Leads step G (f i) as (f (i + 1))) → Leads step G (f 0) (List.replicate n as).flatten (f n)
  | 0, _ => .nil _
  | n + 1, h => by
    rw [List.replicate_succ', List.flatten_append, List.flatten_singleton]
    exact (h n n.lt_succ_self).trans (Leads.iterate f fun i hi => h i (Nat.lt_succ_of_lt hi))

/-- What fails in the state a run leads to does not hold throughout it. -/
theorem Leads.not_always {s s' : σ} {as : List α} (h : Leads step G s as s') (hP : ¬ P s') :
    ¬ Always step P s as :=
  fun halways => hP (halways.after h.2)

end GpsTracker.Runs
