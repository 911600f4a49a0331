import GpsTracker.Library.Runs
import GpsTracker.Java.Text

/-!
# The connection of the iOS app

The app has three notions of being connected. The server side may have dropped
the connection; the socket is open on this side until `close()`; and a read
comes back empty when either is over. `read_incoming_message` reconnects on an
empty read, but through `_connect`, which does nothing while the socket is open.
So after the server side has dropped the connection no iteration reconnects, and
after a logout the next iteration does.

`Client` is the part of the C++ class that concerns the connection; what `login`
and `logout` write does not change it. Resolving and connecting succeed.
-/

namespace GpsTracker.Ios

open GpsTracker.Java GpsTracker.Runs

/-- `RECV_BUFFER_SIZE`. -/
def recvBufferSize : ℕ := 1024

/-- The socket of a `Client`. -/
structure Client where
  /-- `socket.is_open()`. -/
  isOpen : Bool
  /-- The server side holds the connection. -/
  held : Bool
  /-- The connections opened so far. -/
  connections : ℕ
  deriving DecidableEq, Repr

/-- The constructor, which connects. -/
def Client.new : Client := { isOpen := true, held := true, connections := 1 }

/-- `isConnect`. -/
def Client.isConnect (c : Client) : Bool := c.isOpen

/-- `_connect`. -/
def Client._connect (c : Client) : Client :=
  if !c.isConnect then { isOpen := true, held := true, connections := c.connections + 1 } else c

/-- The connection is open on this side and the server side holds it. -/
def Client.intact (c : Client) : Bool := c.isOpen && c.held

/-- The server side has dropped the current connection. -/
def Client.dropped (c : Client) : Bool := c.isOpen && !c.held

/-- `handle_read`, where `received` is what `read_some` waits for on an intact connection. On
any other it returns no bytes, and an error that is not looked at. -/
def Client.handle_read (c : Client) (received : List Byte) : List Byte :=
  let buf := if c.intact then received else []
  if 0 < buf.length then buf else []

/-- `socket.close()` and the answer of `logout`. -/
def Client.logout (c : Client) : Client × Bool :=
  let c := { c with isOpen := false, held := false }
  (c, !c.isOpen)

/-- `data.c_str()` read as a C string. -/
def cString (data : List Byte) : List Byte := data.takeWhile fun b => b ≠ 0

/-- `read_incoming_message`. An empty string is taken to say that the server is down and
a reconnect is needed. -/
def Client.read_incoming_message (c : Client) (received : List Byte) : Client :=
  let incoming_msg := cString (c.handle_read received)
  if incoming_msg = [] then c._connect else c

/-! ### The app -/

/-- An iteration of the reader loop: whether it found the connection dropped, and whether it
opened one. -/
structure Iteration where
  /-- The server side had dropped the connection. -/
  dropped : Bool
  /-- A connection was opened. -/
  opened : Bool
  deriving DecidableEq, Repr

/-- The app: its client, and what has happened so far. -/
structure App where
  /-- The client. -/
  client : Client
  /-- `logout` has returned true, and `connect` has not run since. -/
  loggedOut : Bool
  /-- The iterations of the reader loop. -/
  iterations : List Iteration
  deriving DecidableEq, Repr

/-- What can happen. -/
inductive Action where
  /-- The user's `connect`. -/
  | connect
  /-- The user's `disconnect`. -/
  | disconnect
  /-- The server side drops the connection. -/
  | serverClose
  /-- An iteration of the reader loop, and what it reads on an intact connection. -/
  | iterate (received : List Byte)
  deriving DecidableEq, Repr

/-- `connect`. -/
def App.connect (s : App) : App :=
  { s with client := if !s.client.isConnect then s.client._connect else s.client, loggedOut := false }

/-- `disconnect`. -/
def App.disconnect (s : App) : App :=
  { s with client := s.client.logout.1, loggedOut := s.client.logout.2 || s.loggedOut }

/-- An iteration of the reader loop. -/
def App.iterate (s : App) (received : List Byte) : App :=
  let client := s.client.read_incoming_message received
  { s with
    client := client
    iterations := s.iterations ++
      [{ dropped := s.client.dropped, opened := decide (s.client.connections < client.connections) }] }

/-- A step of the app: on an intact connection the reader waits until there is something to
read. -/
def step (s : App) : Action → Option App
  | .connect => some s.connect
  | .disconnect => some s.disconnect
  | .serverClose =>
    if s.client.intact then some { s with client := { s.client with held := false } } else none
  | .iterate received =>
    if s.client.intact = true → received ≠ [] ∧ received.length ≤ recvBufferSize then some (s.iterate received)
    else none

/-- The app after `viewDidLoad`: the `_connect` there finds the client connected. -/
def start : App := { client := Client.new._connect, loggedOut := false, iterations := [] }

/-- The contract of the reader: its iterations have opened a connection exactly where the
server side had dropped the current one, and after a logout there is none. -/
def Lawful (s : App) : Prop :=
  (∀ i ∈ s.iterations, i.opened = i.dropped) ∧ (s.loggedOut = true → s.client.isOpen = false)

/-- An iteration finds the connection intact. -/
def OnIntact (s : App) : Action → Prop
  | .iterate _ => s.client.intact = true
  | _ => True

/-! ### One iteration -/

/-- On an intact connection an iteration leaves the client as it is, whatever it reads. -/
theorem read_incoming_message_of_isOpen {c : Client} (h : c.isOpen = true) (received : List Byte) :
    c.read_incoming_message received = c := by
  have hconnect : c._connect = c := by
    simp [Client._connect, Client.isConnect, h]
  rw [Client.read_incoming_message]
  simp [hconnect]

/-- On a closed socket it connects. -/
theorem read_incoming_message_of_closed {c : Client} (h : c.isOpen = false) (received : List Byte) :
    c.read_incoming_message received = { isOpen := true, held := true, connections := c.connections + 1 } := by
  have hread : c.handle_read received = [] := by
    simp [Client.handle_read, Client.intact, h]
  rw [Client.read_incoming_message, hread]
  simp [cString, Client._connect, Client.isConnect, h]

/-- What an iteration records is right on an intact connection only: on a dropped one it
opens none, on a closed socket it opens one. -/
theorem lawful_iterate_iff {s : App} (hs : Lawful s) (received : List Byte) :
    Lawful (s.iterate received) ↔ s.client.intact = true := by
  obtain ⟨hiter, hout⟩ := hs
  cases hopen : s.client.isOpen with
  | true =>
    have hout' : s.loggedOut = false := by
      cases hl : s.loggedOut with
      | true =>
        rw [hout hl] at hopen
        cases hopen
      | false => rfl
    have hclient := read_incoming_message_of_isOpen hopen received
    cases hheld : s.client.held with
    | true =>
      refine iff_of_true ⟨?_, ?_⟩ (by simp [Client.intact, hopen, hheld])
      · intro i hi
        rw [App.iterate, hclient] at hi
        rcases List.mem_append.mp hi with hi | hi
        · exact hiter i hi
        · rw [List.mem_singleton.mp hi]
          simp [Client.dropped, hheld]
      · intro hl
        rw [App.iterate] at hl
        rw [hout'] at hl
        cases hl
    | false =>
      refine iff_of_false (fun h => ?_) (by simp [Client.intact, hheld])
      have hlast := h.1 _ (List.mem_append_right s.iterations (List.mem_singleton.mpr rfl))
      simp [hclient, Client.dropped, hopen, hheld] at hlast
  | false =>
    refine iff_of_false (fun h => ?_) (by simp [Client.intact, hopen])
    have hlast := h.1 _ (List.mem_append_right s.iterations (List.mem_singleton.mpr rfl))
    simp [read_incoming_message_of_closed hopen, Client.dropped, hopen] at hlast

/-! ### Runs -/

/-- Every step but an iteration keeps the contract. -/
theorem lawful_step_iff {s s' : App} {a : Action} (hs : Lawful s) (h : step s a = some s') :
    Lawful s' ↔ OnIntact s a := by
  cases a with
  | connect =>
    cases h
    exact iff_of_true ⟨hs.1, fun hl => by cases hl⟩ trivial
  | disconnect =>
    cases h
    exact iff_of_true ⟨hs.1, fun _ => rfl⟩ trivial
  | serverClose =>
    rw [step] at h
    split_ifs at h with hintact
    cases h
    exact iff_of_true ⟨hs.1, hs.2⟩ trivial
  | iterate received =>
    rw [step] at h
    split_ifs at h with hread
    cases h
    exact lawful_iterate_iff hs received

theorem lawful_start : Lawful start := ⟨fun i hi => absurd hi List.not_mem_nil, fun h => by cases h⟩

/-- **The client reconnects when it should in the runs in which no iteration ends on a dropped
or a closed connection**, and in no others. -/
theorem always_lawful_iff (as : List Action) : Always step Lawful start as ↔ Guarded step OnIntact start as :=
  always_iff_guarded (fun _ => True) (fun _ _ _ _ _ _ => trivial) (fun _ _ _ _ hs h => lawful_step_iff hs h) as start
    trivial lawful_start

/-- After a server-side close the next iteration does not reconnect; after a logout it does. -/
theorem not_always_lawful :
    ¬ Always step Lawful start [.serverClose, .iterate []] ∧ ¬ Always step Lawful start [.disconnect, .iterate []] := by
  constructor
  · intro h
    have hrest := h.2 _ rfl
    exact absurd ((lawful_iterate_iff hrest.head []).mp (hrest.2 _ rfl)) (by decide)
  · intro h
    have hrest := h.2 _ rfl
    exact absurd ((lawful_iterate_iff hrest.head []).mp (hrest.2 _ rfl)) (by decide)

end GpsTracker.Ios
