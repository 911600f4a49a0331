import GpsTracker.Java.Text

/-!
# Sending a message

`Client::handle_write` gives the whole message to one call of `write_some` and
returns true when that call reports no error. `write_some` may take any part of
the buffer, and the number of bytes it took is not looked at: there is no loop
for the rest. So a send that is reported is complete exactly when the socket
took the whole buffer (`complete_iff`), and a sequence of sends leaves the
concatenation of the reported messages on the wire exactly when all of them did
(`wire_eq_iff`).
-/

namespace GpsTracker.Ios

open GpsTracker.Java

/-- What one call of `write_some` does with a buffer: it fails, or takes a part of it that is
not empty unless the buffer is. -/
inductive WriteSome (buffer : List Byte) where
  /-- An error. -/
  | fails
  /-- The first `n` bytes are taken. -/
  | takes (n : ℕ) (le : n ≤ buffer.length) (pos : buffer ≠ [] → 0 < n)

/-- `Client::handle_write`: its answer, and the bytes that the socket took. -/
def handle_write (message : List Byte) : WriteSome message → Bool × List Byte
  | .fails => (false, [])
  | .takes n _ _ => (true, message.take n)

/-- A call of `Client::send`: the message, and what `write_some` does with it. -/
structure Send where
  /-- The message. -/
  message : List Byte
  /-- The one call of `write_some`. -/
  write : WriteSome message

/-- `handle_write` has returned true. -/
def Send.reported (s : Send) : Bool := (handle_write s.message s.write).1

/-- The bytes handed to the socket. -/
def Send.taken (s : Send) : List Byte := (handle_write s.message s.write).2

/-- The bytes on the wire after a sequence of sends. -/
def wire (sends : List Send) : List Byte := sends.flatMap Send.taken

/-- The messages that were reported as sent, one after the other. -/
def reportedBytes (sends : List Send) : List Byte := (sends.filter Send.reported).flatMap Send.message

/-- The call of `write_some` takes the whole buffer, unless it fails. -/
def Send.Whole (s : Send) : Prop :=
  match s.write with
  | .fails => True
  | .takes n _ _ => n = s.message.length

/-! ### One send -/

/-- What one send can do. -/
theorem send_cases (s : Send) : (s.reported = false ∧ s.taken = [] ∧ s.Whole) ∨
    (s.reported = true ∧ s.taken.length ≤ s.message.length ∧ (s.Whole ↔ s.taken = s.message)) := by
  obtain ⟨message, write⟩ := s
  cases write with
  | fails => exact Or.inl ⟨rfl, rfl, trivial⟩
  | takes n le pos =>
    refine Or.inr ⟨rfl, List.length_take_le' _ _, ?_⟩
    change n = message.length ↔ message.take n = message
    constructor
    · intro h
      rw [h, List.take_length]
    · intro h
      have hlen := congrArg List.length h
      rw [List.length_take] at hlen
      omega

theorem complete_iff (s : Send) : (s.reported = true → s.taken = s.message) ↔ s.Whole := by
  rcases send_cases s with ⟨hrep, -, hwhole⟩ | ⟨hrep, -, hwhole⟩
  · simp [hrep, hwhole]
  · simp [hrep, hwhole]

/-! ### A sequence of sends -/

theorem reportedBytes_cons (s : Send) (sends : List Send) :
    reportedBytes (s :: sends) = (if s.reported then s.message else []) ++ reportedBytes sends := by
  cases h : s.reported with
  | true => simp [reportedBytes, h]
  | false => simp [reportedBytes, h]

theorem wire_cons (s : Send) (sends : List Send) : wire (s :: sends) = s.taken ++ wire sends :=
  List.flatMap_cons

/-- No more is on the wire than was reported. -/
theorem length_wire_le (sends : List Send) : (wire sends).length ≤ (reportedBytes sends).length := by
  induction sends with
  | nil => exact le_rfl
  | cons s sends ih =>
    rw [wire_cons, reportedBytes_cons, List.length_append, List.length_append]
    rcases send_cases s with ⟨hrep, htaken, -⟩ | ⟨hrep, hle, -⟩
    · simpa [hrep, htaken] using ih
    · simpa [hrep] using Nat.add_le_add hle ih

/-- **The wire holds the reported messages exactly when every call took its whole buffer.** -/
theorem wire_eq_iff (sends : List Send) : wire sends = reportedBytes sends ↔ ∀ s ∈ sends, s.Whole := by
  induction sends with
  | nil => exact iff_of_true rfl fun s hs => absurd hs List.not_mem_nil
  | cons s sends ih =>
    rw [wire_cons, reportedBytes_cons, List.forall_mem_cons, ← ih]
    rcases send_cases s with ⟨hrep, htaken, hwhole⟩ | ⟨hrep, hle, hwhole⟩
    · simp [hrep, htaken, hwhole]
    · rw [if_pos hrep, hwhole]
      constructor
      · intro h
        -- neither part can be longer than what was reported for it
        have hlen := congrArg List.length h
        rw [List.length_append, List.length_append] at hlen
        have hrest := length_wire_le sends
        exact List.append_inj h (by omega)
      · rintro ⟨h1, h2⟩
        rw [h1, h2]

/-- The contract of `send` over a sequence of calls. -/
structure CompleteSends (sends : List Send) : Prop where
  /-- A send that is reported is complete. -/
  complete : ∀ s ∈ sends, s.reported = true → s.taken = s.message
  /-- The messages on the wire are those that were reported, whole and in order. -/
  wire : wire sends = reportedBytes sends

/-- **When the reported sends are complete**: in the sequences in which `write_some` never takes
a part of its buffer only. -/
theorem completeSends_iff (sends : List Send) : CompleteSends sends ↔ ∀ s ∈ sends, s.Whole := by
  constructor
  · intro h
    exact (wire_eq_iff sends).mp h.wire
  · intro h
    exact ⟨fun s hs => (complete_iff s).mpr (h s hs), (wire_eq_iff sends).mpr h⟩

/-- One byte of the first message is taken, and the second message follows it. -/
theorem not_completeSends_partial : ¬ ∀ sends, CompleteSends sends := by
  intro h
  have hsends := h [⟨[0x7b, 0x7d], .takes 1 (by decide) (by decide)⟩, ⟨[0x7b, 0x7d], .takes 2 (by decide) (by decide)⟩]
  have hwhole := (wire_eq_iff _).mp hsends.wire
  have hone : 1 = 2 := hwhole _ List.mem_cons_self
  exact absurd hone (by decide)

end GpsTracker.Ios
