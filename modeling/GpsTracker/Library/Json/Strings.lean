import Mathlib.Data.List.Basic

/-!
# Strings of JSON

A string of a JSON text over UTF-16 code units, with its escapes: `scanString`
reads one after its opening quotation mark, as the code units it stands for.

The lemmas are about strings that were put together by inserting a text between
two quotation marks. What is inserted is read back as it is when it is plain
(`scanString_plain`): no quotation mark, no backslash, no control character. If
it is not plain, what is read is shorter in UTF-8 than what was inserted, or the
closing quotation mark was taken for a part of the string (`scanString_cases`).
-/

namespace GpsTracker.Json

/-- A text, by its code units. -/
abbrev Text := List UInt16

/-- The quotation mark. -/
def quote : UInt16 := 0x22

/-- The backslash. -/
def backslash : UInt16 := 0x5c

/-! ### Reading a string -/

/-- What a letter after a backslash stands for. -/
def escaped (c : UInt16) : Option UInt16 :=
  if c = quote ∨ c = backslash ∨ c = 0x2f then some c
  else if c = 0x62 then some 0x08
  else if c = 0x66 then some 0x0c
  else if c = 0x6e then some 0x0a
  else if c = 0x72 then some 0x0d
  else if c = 0x74 then some 0x09
  else none

/-- The value of a hexadecimal digit. -/
def hexDigit (c : UInt16) : Option UInt16 :=
  if 0x30 ≤ c ∧ c ≤ 0x39 then some (c - 0x30)
  else if 0x41 ≤ c ∧ c ≤ 0x46 then some (c - 0x41 + 10)
  else if 0x61 ≤ c ∧ c ≤ 0x66 then some (c - 0x61 + 10)
  else none

/-- The code unit of four digits. -/
def hexUnit (a b c d : UInt16) : Option UInt16 := do
  let a ← hexDigit a
  let b ← hexDigit b
  let c ← hexDigit c
  let d ← hexDigit d
  return ((a * 16 + b) * 16 + c) * 16 + d

/-- The four digits of an escape: the unit they stand for, and what follows. -/
def scanHex : Text → Option (UInt16 × Text)
  | a :: b :: c :: d :: s => (hexUnit a b c d).map fun u => (u, s)
  | _ => none

/-- An escape after its backslash. -/
def scanEscape : Text → Option (UInt16 × Text)
  | [] => none
  | e :: s => if e = 0x75 then scanHex s else (escaped e).map fun u => (u, s)

/-- One unit of a string, or its end at the closing quotation mark; and what follows. -/
def scanUnit : Text → Option (Option UInt16 × Text)
  | [] => none
  | c :: s =>
    if c = quote then some (none, s)
    else if c < 0x20 then none
    else if c = backslash then (scanEscape s).map fun x => (some x.1, x.2)
    else some (some c, s)

/-! ### Widths -/

/-- The bytes of a unit in UTF-8; each half of a surrogate pair has two of its four. -/
def unitWidth (c : UInt16) : ℕ :=
  if c.toNat < 0x80 then 1 else if c.toNat < 0x800 ∨ (0xD800 ≤ c.toNat ∧ c.toNat < 0xE000) then 2 else 3

/-- The bytes of a text in UTF-8. -/
def width : Text → ℕ
  | [] => 0
  | c :: s => unitWidth c + width s

@[simp] theorem width_nil : width [] = 0 := rfl

@[simp] theorem width_cons (c : UInt16) (s : Text) : width (c :: s) = unitWidth c + width s := rfl

@[simp] theorem width_append (s t : Text) : width (s ++ t) = width s + width t := by
  induction s with
  | nil => exact (Nat.zero_add _).symm
  | cons c s ih => rw [List.cons_append, width_cons, width_cons, ih, Nat.add_assoc]

theorem unitWidth_bounds (c : UInt16) : 1 ≤ unitWidth c ∧ unitWidth c ≤ 3 := by
  rw [unitWidth]
  split_ifs <;> decide

theorem length_le_width (s : Text) : s.length ≤ width s := by
  induction s with
  | nil => exact Nat.le_refl _
  | cons c s ih =>
    have := (unitWidth_bounds c).1
    rw [List.length_cons, width_cons]
    omega

/-- What a letter stands for takes no more room than the letter. -/
theorem unitWidth_escaped {c u : UInt16} (h : escaped c = some u) : unitWidth u = 1 := by
  rw [escaped] at h
  split_ifs at h with hself <;> cases h
  · rcases hself with rfl | rfl | rfl <;> rfl
  all_goals rfl

/-! ### What a reader goes past -/

/-- The digits of an escape, no quotation mark among them. -/
theorem scanHex_front {s rest : Text} {u : UInt16} (h : scanHex s = some (u, rest)) :
    ∃ front, s = front ++ rest ∧ front.length = 4 ∧ quote ∉ front := by
  have hquote : hexDigit quote = none := by decide
  unfold scanHex at h
  split at h
  · rename_i a b c d s
    obtain ⟨v, hv, hr⟩ := Option.map_eq_some_iff.mp h
    cases hr
    refine ⟨[a, b, c, d], rfl, rfl, fun hmem => ?_⟩
    simp only [List.mem_cons, List.not_mem_nil, or_false] at hmem
    rcases hmem with rfl | rfl | rfl | rfl <;> simp [hexUnit, hquote] at hv
  · cases h

/-- An escape takes more room than the unit it stands for; a quotation mark in it is all of it. -/
theorem scanEscape_front {s rest : Text} {u : UInt16} (h : scanEscape s = some (u, rest)) :
    ∃ front, s = front ++ rest ∧ front ≠ [] ∧ unitWidth u ≤ width front ∧ (quote ∈ front → front = [quote]) := by
  cases s with
  | nil => cases h
  | cons e s =>
    rw [scanEscape] at h
    by_cases he : e = 0x75
    · rw [if_pos he] at h
      obtain ⟨front, rfl, hlen, hquote⟩ := scanHex_front h
      refine ⟨e :: front, rfl, List.cons_ne_nil _ _, ?_, fun hmem => ?_⟩
      · have h1 := unitWidth_bounds u
        have h2 := length_le_width front
        rw [width_cons]
        omega
      · rcases List.mem_cons.mp hmem with hq | hq
        · exact absurd (hq.trans he) (by decide)
        · exact absurd hq hquote
    · rw [if_neg he] at h
      obtain ⟨v, hv, hr⟩ := Option.map_eq_some_iff.mp h
      cases hr
      refine ⟨[e], rfl, List.cons_ne_nil _ _, ?_, fun hmem => by rw [List.mem_singleton.mp hmem]⟩
      rw [unitWidth_escaped hv]
      exact (unitWidth_bounds e).1

theorem scanUnit_front {s rest : Text} {u : Option UInt16} (h : scanUnit s = some (u, rest)) :
    ∃ front, s = front ++ rest ∧ front ≠ [] ∧ ∀ c ∈ u, unitWidth c ≤ width front := by
  cases s with
  | nil => cases h
  | cons c s =>
    rw [scanUnit] at h
    split_ifs at h with hquote hcontrol hback
    · cases h
      exact ⟨[c], rfl, List.cons_ne_nil _ _, fun d hd => by cases hd⟩
    · obtain ⟨x, hx, hr⟩ := Option.map_eq_some_iff.mp h
      cases hr
      obtain ⟨front, rfl, -, hwidth, -⟩ := scanEscape_front hx
      refine ⟨c :: front, rfl, List.cons_ne_nil _ _, fun d hd => ?_⟩
      cases hd
      exact Nat.le_trans hwidth (Nat.le_add_left _ _)
    · cases h
      refine ⟨[c], rfl, List.cons_ne_nil _ _, fun d hd => ?_⟩
      cases hd
      exact Nat.le_refl _

theorem length_scanUnit {s rest : Text} {u : Option UInt16} (h : scanUnit s = some (u, rest)) :
    rest.length < s.length := by
  obtain ⟨front, rfl, hne, -⟩ := scanUnit_front h
  have := List.length_pos_iff.mpr hne
  rw [List.length_append]
  omega

/-- A string after its opening quotation mark: its contents, and what follows the closing
one. -/
def scanString (s : Text) : Option (Text × Text) :=
  match _ : scanUnit s with
  | none => none
  | some (none, rest) => some ([], rest)
  | some (some u, rest) => (scanString rest).map fun r => (u :: r.1, r.2)
termination_by s.length
decreasing_by exact length_scanUnit ‹_›

theorem scanString_of_none {s : Text} (h : scanUnit s = none) : scanString s = none := by
  rw [scanString]
  split <;> simp_all

theorem scanString_of_end {s rest : Text} (h : scanUnit s = some (none, rest)) :
    scanString s = some ([], rest) := by
  rw [scanString]
  split <;> simp_all

theorem scanString_of_unit {s rest : Text} {u : UInt16} (h : scanUnit s = some (some u, rest)) :
    scanString s = (scanString rest).map fun r => (u :: r.1, r.2) := by
  rw [scanString]
  split <;> simp_all

/-- What a string that is read begins with. -/
theorem scanString_eq_some {s v rest : Text} (h : scanString s = some (v, rest)) :
    (scanUnit s = some (none, rest) ∧ v = []) ∨
      ∃ u s' v', scanUnit s = some (some u, s') ∧ scanString s' = some (v', rest) ∧ v = u :: v' := by
  rcases hunit : scanUnit s with _ | ⟨_ | u, s'⟩
  · rw [scanString_of_none hunit] at h
    cases h
  · rw [scanString_of_end hunit] at h
    cases h
    exact Or.inl ⟨rfl, rfl⟩
  · rw [scanString_of_unit hunit] at h
    obtain ⟨r, hr, heq⟩ := Option.map_eq_some_iff.mp h
    cases heq
    exact Or.inr ⟨u, s', r.1, rfl, hr, rfl⟩

/-- The contents take less room than what was read with its closing quotation mark. -/
theorem scanString_front {v : Text} : ∀ {s rest : Text}, scanString s = some (v, rest) →
    ∃ front, s = front ++ rest ∧ width v < width front := by
  induction v with
  | nil =>
    intro s rest h
    rcases scanString_eq_some h with ⟨hunit, -⟩ | ⟨u, s', v', -, -, hv⟩
    · obtain ⟨front, hs, hne, -⟩ := scanUnit_front hunit
      exact ⟨front, hs, Nat.lt_of_lt_of_le (List.length_pos_iff.mpr hne) (length_le_width front)⟩
    · cases hv
  | cons c v ih =>
    intro s rest h
    rcases scanString_eq_some h with ⟨-, hv⟩ | ⟨u, s', v', hunit, hrest, hv⟩
    · cases hv
    · cases hv
      obtain ⟨front, rfl, -, hwidth⟩ := scanUnit_front hunit
      obtain ⟨more, rfl, hmore⟩ := ih hrest
      refine ⟨front ++ more, (List.append_assoc _ _ _).symm, ?_⟩
      have hc := hwidth c rfl
      rw [width_append, width_cons]
      omega

/-- What follows a string is shorter than what was read. -/
theorem length_scanString {v s rest : Text} (h : scanString s = some (v, rest)) : rest.length < s.length := by
  obtain ⟨front, rfl, hwidth⟩ := scanString_front h
  have hne : front ≠ [] := by
    rintro rfl
    exact Nat.not_lt_zero _ hwidth
  have := List.length_pos_iff.mpr hne
  rw [List.length_append]
  omega

/-! ### Plain texts -/

/-- A unit that stands for itself in a string. -/
def IsPlain (c : UInt16) : Prop := c ≠ quote ∧ c ≠ backslash ∧ 0x20 ≤ c

instance (c : UInt16) : Decidable (IsPlain c) := inferInstanceAs (Decidable (_ ∧ _))

/-- A text without quotation marks, backslashes and control characters. -/
def Plain (s : Text) : Prop := ∀ c ∈ s, IsPlain c

instance (s : Text) : Decidable (Plain s) := List.decidableBAll IsPlain s

theorem scanUnit_quote (s : Text) : scanUnit (quote :: s) = some (none, s) := by
  rw [scanUnit, if_pos rfl]

theorem scanUnit_plain {c : UInt16} (h : IsPlain c) (s : Text) : scanUnit (c :: s) = some (some c, s) := by
  rw [scanUnit, if_neg h.1, if_neg (UInt16.not_lt.mpr h.2.2), if_neg h.2.1]

/-- **A plain text between quotation marks is read as it is.** -/
theorem scanString_plain {s : Text} (h : Plain s) (rest : Text) :
    scanString (s ++ quote :: rest) = some (s, rest) := by
  induction s with
  | nil => exact scanString_of_end (scanUnit_quote rest)
  | cons c s ih =>
    rw [List.cons_append, scanString_of_unit (scanUnit_plain (h c List.mem_cons_self) _),
      ih fun d hd => h d (List.mem_cons_of_mem c hd)]
    rfl

/-- An escape ends before the quotation mark, unless it is the mark that is escaped. -/
theorem scanEscape_append_quote {s rest r : Text} {u : UInt16}
    (h : scanEscape (s ++ quote :: rest) = some (u, r)) :
    (∃ front w, s = front ++ w ∧ front ≠ [] ∧ unitWidth u ≤ width front ∧ r = w ++ quote :: rest) ∨
      (s = [] ∧ r = rest) := by
  obtain ⟨front, heq, hne, hwidth, hquote⟩ := scanEscape_front h
  rcases List.append_eq_append_iff.mp heq with ⟨w, rfl, hr⟩ | ⟨w, rfl, hr⟩
  · cases w with
    | nil => exact Or.inl ⟨s, [], by simp, by simpa using hne, by simpa using hwidth, hr.symm⟩
    | cons c w =>
      obtain ⟨rfl, rfl⟩ := List.cons.inj hr
      have hone := hquote (by simp)
      cases s with
      | nil =>
        obtain ⟨-, rfl⟩ := List.cons.inj hone
        exact Or.inr ⟨rfl, rfl⟩
      | cons d s => simp at hone
  · exact Or.inl ⟨front, w, rfl, hne, hwidth, hr⟩

/-- **What is read of a text that was put between quotation marks**: the text itself if it is
plain; otherwise something that takes less room, or the closing quotation mark was read as a
part of the string, which then goes on in what follows. -/
theorem scanString_cases (n : ℕ) :
    ∀ {s rest v r : Text}, s.length ≤ n → scanString (s ++ quote :: rest) = some (v, r) →
    (Plain s ∧ v = s ∧ r = rest) ∨ width v < width s ∨ ∃ v', scanString rest = some (v', r) := by
  induction n with
  | zero =>
    intro s rest v r hn h
    obtain rfl := List.length_eq_zero_iff.mp (Nat.le_zero.mp hn)
    rw [List.nil_append, scanString_of_end (scanUnit_quote rest)] at h
    cases h
    exact Or.inl ⟨fun c hc => absurd hc List.not_mem_nil, rfl, rfl⟩
  | succ n ih =>
    intro s rest v r hn h
    cases s with
    | nil => exact ih (Nat.zero_le n) h
    | cons c s =>
      have hs : s.length ≤ n := Nat.le_of_succ_le_succ hn
      have hc := (unitWidth_bounds c).1
      rw [width_cons]
      rcases scanString_eq_some h with ⟨-, rfl⟩ | ⟨u, s', v', hunit, hrest, rfl⟩
      · exact Or.inr (Or.inl (Nat.add_pos_left hc _))
      · rw [width_cons]
        rw [List.cons_append, scanUnit] at hunit
        split_ifs at hunit with hquote hcontrol hback
        · cases hunit
        · -- an escape
          obtain ⟨x, hx, heq⟩ := Option.map_eq_some_iff.mp hunit
          cases heq
          rcases scanEscape_append_quote hx with ⟨front, w, rfl, hne, hwidth, hr⟩ | ⟨rfl, hr⟩
          · have hpos := List.length_pos_iff.mpr hne
            rw [List.length_append] at hs
            rw [width_append]
            rw [hr] at hrest
            rcases ih (by omega) hrest with ⟨-, rfl, -⟩ | hlt | hgo
            · exact Or.inr (Or.inl (by omega))
            · exact Or.inr (Or.inl (by omega))
            · exact Or.inr (Or.inr hgo)
          · rw [hr] at hrest
            exact Or.inr (Or.inr ⟨v', hrest⟩)
        · -- a unit that stands for itself
          cases hunit
          rcases ih hs hrest with ⟨hplain, rfl, rfl⟩ | hlt | hgo
          · refine Or.inl ⟨fun d hd => ?_, rfl, rfl⟩
            rcases List.mem_cons.mp hd with rfl | hd
            · exact ⟨hquote, hback, UInt16.not_lt.mp hcontrol⟩
            · exact hplain d hd
          · exact Or.inr (Or.inl (Nat.add_lt_add_left hlt _))
          · exact Or.inr (Or.inr hgo)

end GpsTracker.Json
