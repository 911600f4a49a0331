import GpsTracker.Library.Mixing

/-!
# Rings of cells

A block is read as a ring: the last cell stands before the first. A turn changes
every cell once, in order, by an amount made of its two neighbours, and a turn back
changes them the other way, last one first. Both carry one neighbour along in a
variable, as the cell that was changed just before.

A turn is a list of mixing steps (`turn_eq`) and a turn back undoes it
(`turnBack_eq`), whatever the amounts are; so any list of turns, each with amounts
of its own, is a bijection of the blocks of two cells or more
(`turnsBack_turns`, `turns_turnsBack`).
-/

namespace GpsTracker.Ring

open GpsTracker.Mixing

universe u

variable {G : Type u} [AddGroup G]

/-- The amount for a cell, from the cell before it and the cell after it. -/
abbrev Amounts (G : Type u) := ℕ → G → G → G

/-- The loop over `m` cells from `p` on; `z` is the cell before. -/
def up (mix : Amounts G) : ℕ → ℕ → List G → G → List G × G
  | 0, _, l, z => (l, z)
  | m + 1, p, l, z =>
    let z := l.getD p 0 + mix p z (l.getD (p + 1) 0)
    up mix m (p + 1) (l.set p z) z

/-- One turn: the loop, and the last cell, whose neighbour is the first. -/
def turn (mix : Amounts G) (l : List G) (z : G) : List G × G :=
  let n := l.length
  let (l, z) := up mix (n - 1) 0 l z
  let z := l.getD (n - 1) 0 + mix (n - 1) z (l.getD 0 0)
  (l.set (n - 1) z, z)

/-- The loop from `p` down to `1`; `y` is the cell after. -/
def down (mix : Amounts G) : ℕ → List G → G → List G × G
  | 0, l, y => (l, y)
  | p + 1, l, y =>
    let y := l.getD (p + 1) 0 - mix (p + 1) (l.getD p 0) y
    down mix p (l.set (p + 1) y) y

/-- One turn back: the loop, and the first cell, whose neighbour is the last. -/
def turnBack (mix : Amounts G) (l : List G) (y : G) : List G × G :=
  let n := l.length
  let (l, y) := down mix (n - 1) l y
  let y := l.getD 0 0 - mix 0 (l.getD (n - 1) 0) y
  (l.set 0 y, y)

/-- Turn after turn. -/
def turns : List (Amounts G) → List G → G → List G
  | [], l, _ => l
  | mix :: mixes, l, z => turns mixes (turn mix l z).1 (turn mix l z).2

/-- Turn back after turn back. -/
def turnsBack : List (Amounts G) → List G → G → List G
  | [], l, _ => l
  | mix :: mixes, l, y => turnsBack mixes (turnBack mix l y).1 (turnBack mix l y).2

@[simp] theorem length_up (mix : Amounts G) (m : ℕ) : ∀ (p : ℕ) (l : List G) (z : G),
    (up mix m p l z).1.length = l.length := by
  induction m with
  | zero => exact fun _ _ _ => rfl
  | succ m ih =>
    intro p l z
    rw [up, ih, List.length_set]

@[simp] theorem length_down (mix : Amounts G) (p : ℕ) :
    ∀ (l : List G) (y : G), (down mix p l y).1.length = l.length := by
  induction p with
  | zero => exact fun _ _ => rfl
  | succ p ih =>
    intro l y
    rw [down, ih, List.length_set]

/-! ### Turns are mixing steps -/

/-- The cell before `p` in a ring of `n`. -/
def before (n p : ℕ) : ℕ := if p = 0 then n - 1 else p - 1

/-- The cell after `p`. -/
def after (n p : ℕ) : ℕ := if p + 1 < n then p + 1 else 0

section Cells

variable (mix : Amounts G) {n : ℕ} (hn : 2 ≤ n)

/-- The change of cell `p`: in a ring of two or more the neighbours are other cells. -/
def cell (p : ℕ) : Step G where
  pos := p
  amount l := mix p (l.getD (before n p) 0) (l.getD (after n p) 0)
  amount_set l x := by
    have hp : p ≠ before n p := by
      rw [before]
      split_ifs <;> omega
    have hq : p ≠ after n p := by
      rw [after]
      split_ifs <;> omega
    rw [getD_set_ne l hp, getD_set_ne l hq]

theorem cell_act (p : ℕ) (l : List G) :
    (cell mix hn p).act l = l.set p (l.getD p 0 + mix p (l.getD (before n p) 0) (l.getD (after n p) 0)) := rfl

theorem cell_undo (p : ℕ) (l : List G) :
    (cell mix hn p).undo l = l.set p (l.getD p 0 - mix p (l.getD (before n p) 0) (l.getD (after n p) 0)) := rfl

/-- The changes of a turn. -/
def steps : List (Step G) := (List.range n).map (cell mix hn)

/-- The loop changes its cells in order and leaves `z` at the cell before the next one. -/
theorem up_eq (m : ℕ) :
    ∀ (p : ℕ) (l : List G) (z : G), l.length = n → p + m + 1 = n → z = l.getD (before n p) 0 →
    up mix m p l z = (applyAll ((List.range' p m).map (cell mix hn)) l,
      (applyAll ((List.range' p m).map (cell mix hn)) l).getD (before n (p + m)) 0) := by
  induction m with
  | zero =>
    rintro p l z - - rfl
    rfl
  | succ m ih =>
    rintro p l z hlen hp rfl
    have hafter : after n p = p + 1 := if_pos (by omega)
    have hact : l.set p (l.getD p 0 + mix p (l.getD (before n p) 0) (l.getD (p + 1) 0)) = (cell mix hn p).act l := by
      rw [cell_act, hafter]
    rw [up, hact, List.range'_succ, List.map_cons, applyAll,
      ih (p + 1) _ _ (by rw [Step.length_act, hlen]) (by omega)]
    · rw [show p + 1 + m = p + (m + 1) by omega]
    · rw [← hact]
      exact (getD_set_self (by omega) _ _).symm

/-- **A turn takes the mixing steps of its cells**, and leaves `z` at the last cell. -/
theorem turn_eq {l : List G} (hlen : l.length = n) :
    turn mix l (l.getD (n - 1) 0) =
      (applyAll (steps mix hn) l, (applyAll (steps mix hn) l).getD (n - 1) 0) := by
  obtain ⟨m, rfl⟩ : ∃ m, n = m + 1 := ⟨n - 1, by omega⟩
  have hsteps : steps mix hn = (List.range' 0 m).map (cell mix hn) ++ [cell mix hn m] := by
    rw [steps, List.range_eq_range', List.range'_concat, List.map_append]
    simp
  have hup := up_eq mix hn m 0 l (l.getD m 0) hlen (by omega) rfl
  rw [turn, hlen, Nat.add_sub_cancel, hup, hsteps, applyAll_append, applyAll, applyAll, Nat.zero_add]
  generalize hd : applyAll ((List.range' 0 m).map (cell mix hn)) l = d
  have hdlen : d.length = m + 1 := by rw [← hd, length_applyAll, hlen]
  have hafter : after (m + 1) m = 0 := if_neg (by omega)
  have hact : d.set m (d.getD m 0 + mix m (d.getD (before (m + 1) m) 0) (d.getD 0 0)) = (cell mix hn m).act d := by
    rw [cell_act, hafter]
  simp only [hact]
  rw [← hact, getD_set_self (by omega)]

/-- The loop undoes the changes of its cells, last one first, and leaves `y` at the cell after the next one. -/
theorem down_eq (p : ℕ) : ∀ (l : List G) (y : G), l.length = n → p < n → y = l.getD (after n p) 0 →
    down mix p l y = (undoAll ((List.range' 1 p).map (cell mix hn)) l,
      (undoAll ((List.range' 1 p).map (cell mix hn)) l).getD (after n 0) 0) := by
  induction p with
  | zero =>
    rintro l y - - rfl
    rfl
  | succ p ih =>
    rintro l y hlen hp rfl
    have hundo : l.set (p + 1) (l.getD (p + 1) 0 - mix (p + 1) (l.getD p 0) (l.getD (after n (p + 1)) 0)) =
        (cell mix hn (p + 1)).undo l := rfl
    rw [down, hundo, List.range'_concat, List.map_append, undoAll_append,
      ih _ _ (by rw [Step.length_undo, hlen]) (by omega)]
    · rw [show 1 + 1 * p = p + 1 by omega]
      rfl
    · have hafter : after n p = p + 1 := if_pos hp
      rw [hafter, ← hundo, getD_set_self (by omega)]

/-- **A turn back undoes them**, and leaves `y` at the first cell. -/
theorem turnBack_eq {l : List G} (hlen : l.length = n) :
    turnBack mix l (l.getD 0 0) = (undoAll (steps mix hn) l, (undoAll (steps mix hn) l).getD 0 0) := by
  have hsteps : steps mix hn = cell mix hn 0 :: (List.range' 1 (n - 1)).map (cell mix hn) := by
    obtain ⟨m, rfl⟩ : ∃ m, n = m + 1 := ⟨n - 1, by omega⟩
    rw [steps, List.range_eq_range', List.range'_succ, List.map_cons]
    simp
  have hlast : after n (n - 1) = 0 := if_neg (by omega)
  rw [turnBack, hlen, down_eq mix hn (n - 1) l _ hlen (by omega) (by rw [hlast]), hsteps, undoAll]
  generalize hd : undoAll ((List.range' 1 (n - 1)).map (cell mix hn)) l = d
  have hdlen : d.length = n := by rw [← hd, length_undoAll, hlen]
  have hundo : d.set 0 (d.getD 0 0 - mix 0 (d.getD (n - 1) 0) (d.getD (after n 0) 0)) = (cell mix hn 0).undo d := rfl
  simp only [hundo]
  rw [← hundo, getD_set_self (by omega)]

end Cells

/-! ### Lists of turns -/

section Lists

variable {n : ℕ} (hn : 2 ≤ n)

theorem turns_eq (mixes : List (Amounts G)) : ∀ {l : List G}, l.length = n →
    turns mixes l (l.getD (n - 1) 0) = applyAll (mixes.flatMap fun mix => steps mix hn) l := by
  induction mixes with
  | nil => exact fun _ => rfl
  | cons mix mixes ih =>
    intro l hlen
    rw [turns, turn_eq mix hn hlen, ih (by rw [length_applyAll, hlen]), List.flatMap_cons, applyAll_append]

theorem turnsBack_eq (mixes : List (Amounts G)) : ∀ {l : List G}, l.length = n →
    turnsBack mixes l (l.getD 0 0) = undoAll (mixes.reverse.flatMap fun mix => steps mix hn) l := by
  induction mixes with
  | nil => exact fun _ => rfl
  | cons mix mixes ih =>
    intro l hlen
    rw [turnsBack, turnBack_eq mix hn hlen, ih (by rw [length_undoAll, hlen]), List.reverse_cons,
      List.flatMap_append, List.flatMap_singleton, undoAll_append]

end Lists

variable {l : List G}

theorem length_turns (mixes : List (Amounts G)) (hn : 2 ≤ l.length) :
    (turns mixes l (l.getD (l.length - 1) 0)).length = l.length := by
  rw [turns_eq hn mixes rfl, length_applyAll]

theorem length_turnsBack (mixes : List (Amounts G)) (hn : 2 ≤ l.length) :
    (turnsBack mixes l (l.getD 0 0)).length = l.length := by
  rw [turnsBack_eq hn mixes rfl, length_undoAll]

/-- **The turns back, last turn first, give the block back.** -/
theorem turnsBack_turns (mixes : List (Amounts G)) (hn : 2 ≤ l.length) {m : List G}
    (hm : turns mixes l (l.getD (l.length - 1) 0) = m) : turnsBack mixes.reverse m (m.getD 0 0) = l := by
  have hlen : m.length = l.length := by rw [← hm, length_turns mixes hn]
  rw [turnsBack_eq hn _ hlen, List.reverse_reverse, ← hm, turns_eq hn _ rfl, undoAll_applyAll]

/-- **And the turns give back what the turns back have made.** -/
theorem turns_turnsBack (mixes : List (Amounts G)) (hn : 2 ≤ l.length) {m : List G}
    (hm : turnsBack mixes.reverse l (l.getD 0 0) = m) : turns mixes m (m.getD (m.length - 1) 0) = l := by
  have hlen : m.length = l.length := by rw [← hm, length_turnsBack _ hn]
  rw [hlen, turns_eq hn _ hlen, ← hm, turnsBack_eq hn _ rfl, List.reverse_reverse, applyAll_undoAll]

end GpsTracker.Ring
