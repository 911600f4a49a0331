import Mathlib.Data.List.Basic
import Mathlib.Algebra.Order.Ring.Int

/-!
# Java at run time

The exceptions a method of the program can leave by, and the operations of
`ArrayList` and `String` that can raise them. A method that can throw returns
`Except Exn α`; one that cannot returns its value.
-/

namespace GpsTracker.Java

/-- An `int`. -/
abbrev JInt := BitVec 32

/-- A `byte` promoted to `int`: it keeps its sign. -/
def promote (b : UInt8) : JInt := b.toBitVec.signExtend 32

/-- An `int` cast to `byte`. -/
def narrow (i : JInt) : UInt8 := UInt8.ofBitVec (i.setWidth 8)

/-- The exceptions that matter to the program. -/
inductive Exn where
  /-- `NullPointerException`. -/
  | nullPointer
  /-- `IndexOutOfBoundsException` and its array and string kinds. -/
  | indexOutOfBounds
  /-- `NegativeArraySizeException`. -/
  | negativeArraySize
  /-- `NumberFormatException`. -/
  | numberFormat
  /-- `org.json.JSONException`, the one `parseData` catches. -/
  | json
  deriving DecidableEq, Repr

universe u

variable {α β : Type u}

@[simp] theorem ok_bind (a : α) (f : α → Except Exn β) : ((.ok a : Except Exn α) >>= f) = f a := rfl

@[simp] theorem error_bind (e : Exn) (f : α → Except Exn β) :
    ((.error e : Except Exn α) >>= f) = .error e := rfl

/-- `list.remove(int index)`. -/
def removeAt (l : List α) (i : ℕ) : Except Exn (List α) :=
  if i < l.length then .ok (l.eraseIdx i) else .error .indexOutOfBounds

/-- `s.substring(first, last)`. -/
def substring (s : List α) (first last : ℤ) : Except Exn (List α) :=
  if 0 ≤ first ∧ first ≤ last ∧ last ≤ s.length then .ok ((s.take last.toNat).drop first.toNat)
  else .error .indexOutOfBounds

/-- The array element `a[i]`. -/
def load (a : List α) (i : ℕ) : Except Exn α :=
  match a[i]? with
  | some x => .ok x
  | none => .error .indexOutOfBounds

/-- The assignment `a[i] = x`. -/
def store (a : List α) (i : ℕ) (x : α) : Except Exn (List α) :=
  if i < a.length then .ok (a.set i x) else .error .indexOutOfBounds

/-- The object a reference points to. -/
def deref (r : Option α) : Except Exn α :=
  match r with
  | some a => .ok a
  | none => .error .nullPointer

theorem load_of_lt {a : List α} {i : ℕ} (h : i < a.length) : load a i = .ok a[i] := by
  rw [load, List.getElem?_eq_getElem h]

theorem store_of_lt {a : List α} {i : ℕ} (h : i < a.length) (x : α) : store a i x = .ok (a.set i x) := if_pos h

end GpsTracker.Java
