import Mathlib.Data.List.Sort
import Mathlib.Data.List.Forall2

/-!
# Pieces of a stream

A stream can be cut in pieces in many ways. A piece is *located* by the offset
at which it starts; the stream holds its bytes from there on, the located pieces
follow each other, and every position of the stream lies in one of them.

Two ways of cutting one stream are compared piece by piece: when every piece of
the first is matched with one of the second, later ones with later ones, and
there are as many on both sides, the matching is the one in order
(`forall₂_of_matched`).
-/

namespace GpsTracker.Pieces

variable {α γ δ : Type*}

/-! ### Located pieces -/

/-- The pieces with the offsets at which they start, the first at `off`. -/
def located (bytes : γ → List α) : ℕ → List γ → List (ℕ × γ)
  | _, [] => []
  | off, p :: ps => (off, p) :: located bytes (off + (bytes p).length) ps

theorem located_append (bytes : γ → List α) (ps qs : List γ) : ∀ off, located bytes off (ps ++ qs)
    = located bytes off ps ++ located bytes (off + (ps.flatMap bytes).length) qs := by
  induction ps with
  | nil => exact fun off => rfl
  | cons p ps ih =>
    intro off
    rw [List.cons_append, located, ih, located, List.flatMap_cons, List.length_append,
      List.cons_append, Nat.add_assoc]

theorem map_snd_located (bytes : γ → List α) (ps : List γ) :
    ∀ off, (located bytes off ps).map Prod.snd = ps := by
  induction ps with
  | nil => exact fun off => rfl
  | cons p ps ih =>
    intro off
    rw [located, List.map_cons, ih]

theorem le_of_mem_located {bytes : γ → List α} {ps : List γ} :
    ∀ {off : ℕ} {x : ℕ × γ}, x ∈ located bytes off ps →
    off ≤ x.1 := by
  induction ps with
  | nil => exact fun hx => absurd hx List.not_mem_nil
  | cons p ps ih =>
    intro off x hx
    rcases List.mem_cons.mp hx with rfl | hx
    · exact le_rfl
    · exact (Nat.le_add_right _ _).trans (ih hx)

/-- The stream holds a piece from its offset on. -/
theorem getElem?_sub_of_mem_located {bytes : γ → List α} {ps : List γ} : ∀ {off : ℕ} {x : ℕ × γ},
    x ∈ located bytes off ps → ∀ i < (bytes x.2).length, (ps.flatMap bytes)[x.1 - off + i]? = (bytes x.2)[i]? := by
  induction ps with
  | nil => exact fun hx => absurd hx List.not_mem_nil
  | cons p ps ih =>
    intro off x hx i hi
    rw [List.flatMap_cons]
    rcases List.mem_cons.mp hx with rfl | hx
    · rw [Nat.sub_self, Nat.zero_add, List.getElem?_append_left hi]
    · have hle := le_of_mem_located hx
      rw [List.getElem?_append_right (by omega), ← ih hx i hi]
      congr 1
      omega

theorem getElem?_of_mem_located {bytes : γ → List α} {ps : List γ} {x : ℕ × γ}
    (hx : x ∈ located bytes 0 ps) {i : ℕ} (hi : i < (bytes x.2).length) :
    (ps.flatMap bytes)[x.1 + i]? = (bytes x.2)[i]? :=
  getElem?_sub_of_mem_located hx i hi

/-- One located piece ends before another starts. -/
def Before (bytes : γ → List α) (x y : ℕ × γ) : Prop := x.1 + (bytes x.2).length ≤ y.1

theorem pairwise_located (bytes : γ → List α) (ps : List γ) :
    ∀ off, (located bytes off ps).Pairwise (Before bytes) := by
  induction ps with
  | nil => exact fun off => List.Pairwise.nil
  | cons p ps ih => exact fun off => List.Pairwise.cons (fun y hy => le_of_mem_located hy) (ih _)

/-- Two located pieces are the same or apart. -/
theorem eq_or_before {bytes : γ → List α} {ps : List γ} : ∀ {off : ℕ} {x y : ℕ × γ}, x ∈ located bytes off ps →
    y ∈ located bytes off ps → x = y ∨ Before bytes x y ∨ Before bytes y x := by
  induction ps with
  | nil => exact fun hx => absurd hx List.not_mem_nil
  | cons p ps ih =>
    intro off x y hx hy
    rcases List.mem_cons.mp hx with rfl | hx
    · rcases List.mem_cons.mp hy with rfl | hy
      · exact Or.inl rfl
      · exact Or.inr (Or.inl (le_of_mem_located hy))
    · rcases List.mem_cons.mp hy with rfl | hy
      · exact Or.inr (Or.inr (le_of_mem_located hx))
      · exact ih hx hy

/-- Every position of the stream lies in a piece. -/
theorem exists_mem_located {bytes : γ → List α} {ps : List γ} : ∀ {off q : ℕ}, off ≤ q →
    q < off + (ps.flatMap bytes).length → ∃ x ∈ located bytes off ps, x.1 ≤ q ∧ q < x.1 + (bytes x.2).length := by
  induction ps with
  | nil =>
    intro off q hle hlt
    rw [List.flatMap_nil, List.length_nil] at hlt
    omega
  | cons p ps ih =>
    intro off q hle hlt
    rw [List.flatMap_cons, List.length_append] at hlt
    by_cases hq : q < off + (bytes p).length
    · exact ⟨(off, p), List.mem_cons_self, hle, hq⟩
    · obtain ⟨x, hx, h⟩ := ih (Nat.le_of_not_lt hq) (by omega)
      exact ⟨x, List.mem_cons_of_mem _ hx, h⟩

/-! ### Matchings -/

theorem exists_forall₂_of_matched {R : γ → δ → Prop} {xs : List γ} {ys : List δ}
    (h : ∀ x ∈ xs, ∃ y ∈ ys, R x y) : ∃ zs, List.Forall₂ R xs zs ∧ zs ⊆ ys := by
  induction xs with
  | nil => exact ⟨[], .nil, List.nil_subset ys⟩
  | cons x xs ih =>
    obtain ⟨z, hz, hxz⟩ := h x List.mem_cons_self
    obtain ⟨zs, hzs, hsub⟩ := ih fun x hx => h x (List.mem_cons_of_mem _ hx)
    exact ⟨z :: zs, .cons hxz hzs, List.cons_subset.mpr ⟨hz, hsub⟩⟩

theorem exists_of_forall₂ {R : γ → δ → Prop} {xs : List γ} {zs : List δ} (h : List.Forall₂ R xs zs) :
    ∀ z ∈ zs, ∃ x ∈ xs, R x z := by
  induction h with
  | nil => exact fun z hz => absurd hz List.not_mem_nil
  | cons hxz _ ih =>
    intro z hz
    rcases List.mem_cons.mp hz with rfl | hz
    · exact ⟨_, List.mem_cons_self, hxz⟩
    · obtain ⟨x, hx, hR⟩ := ih z hz
      exact ⟨x, List.mem_cons_of_mem _ hx, hR⟩

theorem pairwise_of_forall₂ {R : γ → δ → Prop} {r : γ → γ → Prop} {s : δ → δ → Prop}
    (hmono : ∀ x x' y y', R x y → R x' y' → r x x' → s y y') {xs : List γ} {zs : List δ}
    (h : List.Forall₂ R xs zs) (hxs : xs.Pairwise r) : zs.Pairwise s := by
  induction h with
  | nil => exact .nil
  | cons hxz htail ih =>
    obtain ⟨hhead, hrest⟩ := List.pairwise_cons.mp hxs
    refine List.pairwise_cons.mpr ⟨fun z hz => ?_, ih hrest⟩
    obtain ⟨x, hx, hR⟩ := exists_of_forall₂ htail z hz
    exact hmono _ _ _ _ hxz hR (hhead x hx)

/-- A matching that keeps the order is one with a part of the other side, in order. -/
theorem exists_sublist_of_matched {R : γ → δ → Prop} {r : γ → γ → Prop} {s : δ → δ → Prop}
    [Std.Irrefl s] [Std.Antisymm s]
    (hmono : ∀ x x' y y', R x y → R x' y' → r x x' → s y y') {xs : List γ} {ys : List δ} (hxs : xs.Pairwise r)
    (hys : ys.Pairwise s) (hmatch : ∀ x ∈ xs, ∃ y ∈ ys, R x y) : ∃ zs, zs.Sublist ys ∧ List.Forall₂ R xs zs := by
  obtain ⟨zs, hzs, hsub⟩ := exists_forall₂_of_matched hmatch
  have hsorted := pairwise_of_forall₂ hmono hzs hxs
  exact ⟨zs, List.sublist_of_subperm_of_pairwise (List.subperm_of_subset hsorted.nodup hsub) hsorted hys, hzs⟩

/-- **A matching that keeps the order and uses up both sides is the one in order.** -/
theorem forall₂_of_matched {R : γ → δ → Prop} {r : γ → γ → Prop} {s : δ → δ → Prop} [Std.Irrefl s]
    [Std.Antisymm s]
    (hmono : ∀ x x' y y', R x y → R x' y' → r x x' → s y y') {xs : List γ} {ys : List δ} (hxs : xs.Pairwise r)
    (hys : ys.Pairwise s) (hmatch : ∀ x ∈ xs, ∃ y ∈ ys, R x y) (hlen : xs.length = ys.length) :
    List.Forall₂ R xs ys := by
  obtain ⟨zs, hsublist, hzs⟩ := exists_sublist_of_matched hmono hxs hys hmatch
  rwa [hsublist.eq_of_length (hzs.length_eq.symm.trans hlen)] at hzs

theorem forall₂_and {R S : γ → δ → Prop} {xs : List γ} {ys : List δ} (hR : List.Forall₂ R xs ys)
    (hS : List.Forall₂ S xs ys) : List.Forall₂ (fun x y => R x y ∧ S x y) xs ys := by
  induction hR with
  | nil => exact .nil
  | cons hxy _ ih =>
    cases hS with
    | cons hxy' hS => exact .cons ⟨hxy, hxy'⟩ (ih hS)

theorem forall₂_imp_of_mem {R S : γ → δ → Prop} {xs : List γ} {ys : List δ} (h : List.Forall₂ R xs ys)
    (himp : ∀ x ∈ xs, ∀ y ∈ ys, R x y → S x y) : List.Forall₂ S xs ys := by
  induction h with
  | nil => exact .nil
  | cons hxy _ ih =>
    refine .cons (himp _ List.mem_cons_self _ List.mem_cons_self hxy) (ih fun x hx y hy => ?_)
    exact himp x (List.mem_cons_of_mem _ hx) y (List.mem_cons_of_mem _ hy)

theorem map_eq_map_iff_forall₂ {f : γ → α} {g : δ → α} {xs : List γ} {ys : List δ} :
    xs.map f = ys.map g ↔ List.Forall₂ (fun x y => f x = g y) xs ys := by
  rw [← List.forall₂_eq_eq_eq, List.forall₂_map_left_iff, List.forall₂_map_right_iff]

end GpsTracker.Pieces
