import GpsTracker.Storage.ObjectStream
import Mathlib.Data.List.Infix

/-!
# The file of the fences

`StorageUtil` keeps the fences in one file, written through an object stream and
read back through one. Opening the file for writing empties it; then the bytes of
the list reach it, and any of these steps can throw, which is caught. Reading
takes every exception for an empty list.

The object streams are parameters. Of the list that is written they are assumed to
return it from all its bytes and to throw on fewer, as `ObjectStream` does
(`readsBack_stream`). Then a failed save keeps the
fences only if the file was not opened or the failure came after the last byte, or
where there is nothing to lose: the list lost, or the list not written, is empty
(`keeps_fences_iff`).

`fenceFile` is the file as the commands of the phone see it: its list is the one that is
read (`list_fenceFile`), and a save without fault is theirs (`fenceFile_write`).
-/

namespace GpsTracker.Storage

open GpsTracker.Java GpsTracker.Bluetooth

/-- What `readWifiInfoObjects` catches. -/
inductive ReadExn where
  /-- `FileNotFoundException`. -/
  | fileNotFound
  /-- `IOException`. -/
  | ioException
  /-- `ClassNotFoundException`. -/
  | classNotFound
  deriving DecidableEq, Repr

/-- Where a write fails. -/
inductive Fault where
  /-- In `new FileOutputStream(file)`. -/
  | opening
  /-- In the object stream, in `flush` or in `close`, when this many bytes have reached the file. -/
  | writing (bytes : ℕ)
  deriving DecidableEq, Repr

variable (writeObject : List WifiInfo → List Byte) (readObject : List Byte → Except ReadExn (List WifiInfo))

/-- `new FileInputStream(file)`. -/
def fileInputStream (file : Option (List Byte)) : Except ReadExn (List Byte) :=
  match file with
  | some bytes => .ok bytes
  | none => .error .fileNotFound

/-- `readWifiInfoObjects`. -/
def readWifiInfoObjects (file : Option (List Byte)) : List WifiInfo :=
  match fileInputStream file >>= readObject with
  | .ok list => list
  | .error _ => []

/-- The file after `writeWifiInfoObjects`, with the fault that it meets, if any. -/
def writeWifiInfoObjects (list : List WifiInfo) (fault : Option Fault) (file : Option (List Byte)) :
    Option (List Byte) :=
  match fault with
  | some .opening => file
  | some (.writing bytes) => some ((writeObject list).take bytes)
  | none => some (writeObject list)

/-! ### What is read back -/

variable {writeObject readObject}

theorem readWifiInfoObjects_of_ok {bytes : List Byte} {list : List WifiInfo} (h : readObject bytes = .ok list) :
    readWifiInfoObjects readObject (some bytes) = list := by
  unfold readWifiInfoObjects fileInputStream
  simp only [bind, Except.bind, h]

theorem readWifiInfoObjects_of_error {bytes : List Byte} {e : ReadExn} (h : readObject bytes = .error e) :
    readWifiInfoObjects readObject (some bytes) = [] := by
  unfold readWifiInfoObjects fileInputStream
  simp only [bind, Except.bind, h]

/-- The object stream returns the list from all its bytes, and throws on fewer. -/
structure ReadsBack (writeObject : List WifiInfo → List Byte)
    (readObject : List Byte → Except ReadExn (List WifiInfo)) (list : List WifiInfo) : Prop where
  complete : readObject (writeObject list) = .ok list
  broken : ∀ bytes, bytes <+: writeObject list → bytes ≠ writeObject list → readObject bytes = .error .ioException

theorem ReadsBack.take {list : List WifiInfo} (h : ReadsBack writeObject readObject list) {bytes : ℕ}
    (hfew : bytes < (writeObject list).length) : readObject ((writeObject list).take bytes) = .error .ioException := by
  refine h.broken _ (List.take_prefix _ _) ?_
  intro heq
  have hlength := congrArg List.length heq
  rw [List.length_take] at hlength
  omega

/-- The reader of the stream, for which too few bytes are an `EOFException`. -/
def readStream (bytes : List Byte) : Except ReadExn (List WifiInfo) :=
  match streamCodec.read bytes with
  | some r => .ok r.1
  | none => .error .ioException

/-- **The stream returns what it wrote, and throws on less.** -/
theorem readsBack_stream {list : List WifiInfo} (h : streamCodec.Fits list) :
    ReadsBack streamCodec.write readStream list where
  complete := by
    have hread := streamCodec.read_write list h []
    rw [List.append_nil] at hread
    rw [readStream, hread]
  broken bytes hprefix hne := by
    rw [readStream, streamCodec.read_of_prefix h hprefix hne]

/-- The bytes that reached the file are all or too few. -/
theorem readWifiInfoObjects_take {list : List WifiInfo} (h : ReadsBack writeObject readObject list)
    (bytes : ℕ) :
    readWifiInfoObjects readObject (some ((writeObject list).take bytes)) =
      if (writeObject list).length ≤ bytes then list else [] := by
  split
  · rename_i hall
    rw [List.take_of_length_le hall]
    exact readWifiInfoObjects_of_ok h.complete
  · rename_i hfew
    exact readWifiInfoObjects_of_error (h.take (not_le.mp hfew))

/-- What a later read returns, for each fault. -/
theorem read_write_eq {list : List WifiInfo} (h : ReadsBack writeObject readObject list) (fault : Option Fault)
    (file : Option (List Byte)) :
    readWifiInfoObjects readObject (writeWifiInfoObjects writeObject list fault file) =
      match fault with
      | some .opening => readWifiInfoObjects readObject file
      | some (.writing bytes) => if (writeObject list).length ≤ bytes then list else []
      | none => list := by
  cases fault with
  | none => exact readWifiInfoObjects_of_ok h.complete
  | some fault =>
    cases fault with
    | opening => rfl
    | writing bytes => exact readWifiInfoObjects_take h bytes

/-- A fence with this name. -/
def fenceNamed (name : String) : WifiInfo := ⟨some (lit name), some [], some (lit "00:11"), some (lit name), 3⟩

theorem fits_home : streamCodec.Fits [fenceNamed "home"] := fits_streamCodec (by decide) (by decide)

theorem fits_home_park : streamCodec.Fits [fenceNamed "home", fenceNamed "park"] :=
  fits_streamCodec (by decide) (by decide)

/-- The write failed with the file open and bytes of the list missing. -/
def BreaksOff (writeObject : List WifiInfo → List Byte) (list : List WifiInfo) (fault : Option Fault) : Prop :=
  ∃ bytes, fault = some (.writing bytes) ∧ bytes < (writeObject list).length

/-- **A save keeps the fences unless it breaks off with something to lose.** -/
theorem keeps_fences_iff {list : List WifiInfo} (h : ReadsBack writeObject readObject list)
    (fault : Option Fault) (file : Option (List Byte)) :
    (readWifiInfoObjects readObject (writeWifiInfoObjects writeObject list fault file) =
        readWifiInfoObjects readObject file ∨
      readWifiInfoObjects readObject (writeWifiInfoObjects writeObject list fault file) = list) ↔
      ¬ BreaksOff writeObject list fault ∨ readWifiInfoObjects readObject file = [] ∨ list = [] := by
  rw [read_write_eq h]
  cases fault with
  | none => exact iff_of_true (.inr rfl) (.inl (fun ⟨_, hfault, _⟩ => by cases hfault))
  | some fault =>
    cases fault with
    | opening => exact iff_of_true (.inl rfl) (.inl (fun ⟨_, hfault, _⟩ => by cases hfault))
    | writing bytes =>
      by_cases hall : (writeObject list).length ≤ bytes
      · have hwhole : ¬ BreaksOff writeObject list (some (.writing bytes)) := by
          rintro ⟨n, hfault, hn⟩
          cases hfault
          omega
        simp [hall, hwhole]
      · have hbreaks : BreaksOff writeObject list (some (.writing bytes)) := ⟨bytes, rfl, not_le.mp hall⟩
        simp only [hall, if_false, hbreaks, not_true_eq_false, false_or]
        exact or_congr eq_comm eq_comm

theorem keeps_fences_stream :
    (readWifiInfoObjects readStream (writeWifiInfoObjects streamCodec.write [fenceNamed "home", fenceNamed "park"]
          (some (.writing 2)) (some (streamCodec.write [fenceNamed "home"]))) =
        readWifiInfoObjects readStream (some (streamCodec.write [fenceNamed "home"])) ∨
      readWifiInfoObjects readStream (writeWifiInfoObjects streamCodec.write [fenceNamed "home", fenceNamed "park"]
          (some (.writing 2)) (some (streamCodec.write [fenceNamed "home"]))) = [fenceNamed "home", fenceNamed "park"]) ↔
      ¬ BreaksOff streamCodec.write [fenceNamed "home", fenceNamed "park"] (some (.writing 2)) ∨
        readWifiInfoObjects readStream (some (streamCodec.write [fenceNamed "home"])) = [] ∨
          [fenceNamed "home", fenceNamed "park"] = [] :=
  keeps_fences_iff (readsBack_stream fits_home_park) (some (.writing 2)) (some (streamCodec.write [fenceNamed "home"]))

/-- A save of one fence more fails as soon as the file is open. -/
theorem not_keeps_fences_truncated :
    ¬ (readWifiInfoObjects readStream (writeWifiInfoObjects streamCodec.write [fenceNamed "home", fenceNamed "park"]
          (some (.writing 0)) (some (streamCodec.write [fenceNamed "home"]))) =
        readWifiInfoObjects readStream (some (streamCodec.write [fenceNamed "home"])) ∨
      readWifiInfoObjects readStream (writeWifiInfoObjects streamCodec.write [fenceNamed "home", fenceNamed "park"]
          (some (.writing 0)) (some (streamCodec.write [fenceNamed "home"]))) =
        [fenceNamed "home", fenceNamed "park"]) := by
  have hold : readWifiInfoObjects readStream (some (streamCodec.write [fenceNamed "home"])) = [fenceNamed "home"] :=
    readWifiInfoObjects_of_ok (readsBack_stream fits_home).complete
  have hlost : readWifiInfoObjects readStream (writeWifiInfoObjects streamCodec.write
      [fenceNamed "home", fenceNamed "park"] (some (.writing 0)) (some (streamCodec.write [fenceNamed "home"]))) = [] :=
    readWifiInfoObjects_of_error ((readsBack_stream fits_home_park).take (by decide))
  rw [hold, hlost]
  simp

/-! ### The file as the commands see it -/

/-- What a file of bytes is to the commands of the phone. -/
def fenceFile (readObject : List Byte → Except ReadExn (List WifiInfo)) : Option (List Byte) → FenceFile
  | none => .absent
  | some bytes =>
    match readObject bytes with
    | .ok list => .complete list
    | .error _ => .damaged

theorem list_fenceFile (file : Option (List Byte)) :
    (fenceFile readObject file).list = readWifiInfoObjects readObject file := by
  cases file with
  | none => rfl
  | some bytes =>
    cases h : readObject bytes with
    | ok list => rw [readWifiInfoObjects_of_ok h, fenceFile, h]; rfl
    | error e => rw [readWifiInfoObjects_of_error h, fenceFile, h]; rfl

/-- A save without fault is the save of the commands; one that breaks off damages the file. -/
theorem fenceFile_write {list : List WifiInfo} (h : ReadsBack writeObject readObject list)
    (fault : Option Fault) (file : Option (List Byte)) :
    fenceFile readObject (writeWifiInfoObjects writeObject list fault file) = .complete list ∨
      fenceFile readObject (writeWifiInfoObjects writeObject list fault file) = .damaged ∧
        BreaksOff writeObject list fault ∨
      writeWifiInfoObjects writeObject list fault file = file ∧ fault = some .opening := by
  have hcomplete : fenceFile readObject (some (writeObject list)) = .complete list := by rw [fenceFile, h.complete]
  cases fault with
  | none => exact .inl hcomplete
  | some fault =>
    cases fault with
    | opening => exact .inr (.inr ⟨rfl, rfl⟩)
    | writing bytes =>
      by_cases hall : (writeObject list).length ≤ bytes
      · left
        rw [writeWifiInfoObjects, List.take_of_length_le hall, hcomplete]
      · right
        left
        rw [writeWifiInfoObjects, fenceFile, h.take (not_le.mp hall)]
        exact ⟨rfl, bytes, rfl, not_le.mp hall⟩

end GpsTracker.Storage
