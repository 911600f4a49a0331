import Mathlib.Algebra.Group.Basic
import Mathlib.Data.List.GetD

/-!
# Mixing ciphers

A block of words over any group, changed one cell at a time: a step adds to one
cell an amount computed from the block. When the amount does not look at the
cell it is added to, subtracting the same amount undoes the step, whatever the
amount is; so a sequence of such steps is undone by undoing them last first
(`undoAll_applyAll`), and the other way round (`applyAll_undoAll`).

A block is a list; reading outside it gives `0` and writing outside it does
nothing, and the laws hold there too.
-/

namespace GpsTracker.Mixing

universe u

variable {G : Type u} [AddGroup G]

/-- A step: the cell it changes and the amount added to it, which does not depend on
that cell. -/
structure Step (G : Type u) [AddGroup G] where
  /-- The cell. -/
  pos : ℕ
  /-- What is added to it. -/
  amount : List G → G
  /-- The amount does not look at the cell. -/
  amount_set : ∀ (l : List G) (x : G), amount (l.set pos x) = amount l

/-- Add the amount. -/
def Step.act (s : Step G) (l : List G) : List G := l.set s.pos (l.getD s.pos 0 + s.amount l)

/-- Subtract it. -/
def Step.undo (s : Step G) (l : List G) : List G := l.set s.pos (l.getD s.pos 0 - s.amount l)

omit [AddGroup G] in
theorem getD_set_self {l : List G} {p : ℕ} (hp : p < l.length) (x d : G) : (l.set p x).getD p d = x := by
  rw [List.getD_eq_getElem _ _ (by rwa [List.length_set]), List.getElem_set_self]

omit [AddGroup G] in
theorem getD_set_ne (l : List G) {p q : ℕ} (hpq : p ≠ q) (x d : G) : (l.set p x).getD q d = l.getD q d := by
  rw [List.getD_eq_getElem?_getD, List.getD_eq_getElem?_getD, List.getElem?_set_ne hpq]

omit [AddGroup G] in
theorem set_getD_self {l : List G} {p : ℕ} (hp : p < l.length) (d : G) : l.set p (l.getD p d) = l := by
  rw [List.getD_eq_getElem _ _ hp, List.set_getElem_self]

@[simp] theorem Step.length_act (s : Step G) (l : List G) : (s.act l).length = l.length := List.length_set

@[simp] theorem Step.length_undo (s : Step G) (l : List G) : (s.undo l).length = l.length := List.length_set

/-- Undoing a step just taken. -/
@[simp] theorem Step.undo_act (s : Step G) (l : List G) : s.undo (s.act l) = l := by
  by_cases hp : s.pos < l.length
  · rw [undo, act, s.amount_set, getD_set_self hp, add_sub_cancel_right, List.set_set, set_getD_self hp]
  · rw [undo, act, List.set_eq_of_length_le (by rw [List.length_set]; omega),
      List.set_eq_of_length_le (by omega)]

/-- Taking a step just undone. -/
@[simp] theorem Step.act_undo (s : Step G) (l : List G) : s.act (s.undo l) = l := by
  by_cases hp : s.pos < l.length
  · rw [act, undo, s.amount_set, getD_set_self hp, sub_add_cancel, List.set_set, set_getD_self hp]
  · rw [act, undo, List.set_eq_of_length_le (by rw [List.length_set]; omega),
      List.set_eq_of_length_le (by omega)]

/-- Take the steps, first one first. -/
def applyAll : List (Step G) → List G → List G
  | [], l => l
  | s :: ss, l => applyAll ss (s.act l)

/-- Undo the steps, last one first. -/
def undoAll : List (Step G) → List G → List G
  | [], l => l
  | s :: ss, l => s.undo (undoAll ss l)

theorem applyAll_append (ss ts : List (Step G)) (l : List G) :
    applyAll (ss ++ ts) l = applyAll ts (applyAll ss l) := by
  induction ss generalizing l with
  | nil => rfl
  | cons s ss ih => exact ih (s.act l)

theorem undoAll_append (ss ts : List (Step G)) (l : List G) :
    undoAll (ss ++ ts) l = undoAll ss (undoAll ts l) := by
  induction ss with
  | nil => rfl
  | cons s ss ih => rw [List.cons_append, undoAll, ih, undoAll]

@[simp] theorem length_applyAll (ss : List (Step G)) (l : List G) : (applyAll ss l).length = l.length := by
  induction ss generalizing l with
  | nil => rfl
  | cons s ss ih => rw [applyAll, ih, Step.length_act]

@[simp] theorem length_undoAll (ss : List (Step G)) (l : List G) : (undoAll ss l).length = l.length := by
  induction ss with
  | nil => rfl
  | cons s ss ih => rw [undoAll, Step.length_undo, ih]

/-- **Undoing the steps last first gives the block back.** -/
@[simp] theorem undoAll_applyAll (ss : List (Step G)) (l : List G) : undoAll ss (applyAll ss l) = l := by
  induction ss generalizing l with
  | nil => rfl
  | cons s ss ih => rw [applyAll, undoAll, ih, Step.undo_act]

/-- **Taking the steps again gives the block back.** -/
@[simp] theorem applyAll_undoAll (ss : List (Step G)) (l : List G) : applyAll ss (undoAll ss l) = l := by
  induction ss generalizing l with
  | nil => rfl
  | cons s ss ih => rw [undoAll, applyAll, Step.act_undo, ih]

end GpsTracker.Mixing
