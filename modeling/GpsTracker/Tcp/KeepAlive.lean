import GpsTracker.Tcp.Receivers
import GpsTracker.Library.Runs

/-!
# A connection with a clock

`KeepAliveWatchDog` on the device sends four bytes when more than a minute has
passed since it did so last, and `SocketAction` on the server sends a request when
more than half a minute has passed since its last one, and closes the socket when
more than two minutes have passed since it last read something. Neither side looks
at what the other one knows: uploads do not put off a keep-alive, and the server
sees that a device is gone by its silence only.

A state has the two threads of one connection, each with the time of its last
step, and the bytes between them, each chunk with the time it was sent or came in.
What was sent at once need not come in at once: the network cuts it anywhere (`cut`),
and the `SocketAction` reads and answers what has come in. The client was started
once, so it has one watchdog.
Time is counted in milliseconds from the connection on, an action `wait` moves it
on, and the threads read it as `System.currentTimeMillis()`, which is taken not to
go back. `step` says which actions are possible and what they do (`step_cases`).
Counters that no code reads are kept for the statements: keep-alives, uploads, cuts
and reads.
-/

namespace GpsTracker.Tcp.KeepAlive

open GpsTracker.Java GpsTracker.Upload

/-! ### The device -/

/-- Where `KeepAliveWatchDog.run` stands. -/
inductive WatchDog where
  /-- Before the tests of the loop and of the delay. -/
  | check
  /-- Before `TcpClient.this.sendMessage(...)`. -/
  | send
  /-- Before `lastSendTime = System.currentTimeMillis()`. -/
  | stamp
  /-- Out of the loop. -/
  | ended
  deriving DecidableEq, Repr

/-- The `TcpClient` and the thread of its watchdog. -/
structure Client where
  /-- `running`. -/
  running : Bool
  /-- `lastSendTime`. -/
  lastSendTime : ℕ
  /-- The thread. -/
  watchdog : WatchDog
  /-- When the thread made its last step. -/
  since : ℕ
  deriving DecidableEq, Repr

/-- `keepAliveDelay`. -/
def keepAliveDelay : ℕ := 1000 * 60

/-- `start`, once it has connected. -/
def Client.start (now : ℕ) : Client where
  running := true
  lastSendTime := now
  watchdog := .check
  since := now

/-- `stop`. -/
def Client.stop (client : Client) : Client := { client with running := false }

/-- One step of the watchdog, on a socket that works or does not. -/
def Client.watch (client : Client) (now : ℕ) (ok : Bool) : Client :=
  match client.watchdog with
  | .check =>
    if client.running = false then { client with watchdog := .ended, since := now }
    else if keepAliveDelay < now - client.lastSendTime then { client with watchdog := .send, since := now }
    else { client with since := now }
  | .send =>
    if ok then { client with watchdog := .stamp, since := now }
    else { client.stop with watchdog := .stamp, since := now }
  | .stamp => { client with lastSendTime := now, watchdog := .check, since := now }
  | .ended => client

/-! ### The server -/

/-- Where `SocketAction.run` stands. -/
inductive Serving where
  /-- Before the tests of the loop and of the last read. -/
  | test
  /-- Before the test of the last request. -/
  | ask
  /-- Before `lastSendTime = System.currentTimeMillis()`. -/
  | stamp
  /-- Before `in.available()`. -/
  | read
  /-- Out of the loop. -/
  | ended
  deriving DecidableEq, Repr

/-- What fails in a step on the socket. -/
inductive Fault where
  /-- Nothing. -/
  | none
  /-- Reading. -/
  | input
  /-- Writing. -/
  | output
  deriving DecidableEq, Repr

/-- What the server has written. -/
inductive Output where
  /-- A request, created at this time. -/
  | request (time : ℕ)
  /-- What `doAction` returned for a read. -/
  | reply (backdata : List Byte)
  deriving DecidableEq, Repr

/-- It is a request. -/
def Output.isRequest : Output → Bool
  | .request _ => true
  | .reply _ => false

/-- A `SocketAction`. -/
structure SocketAction where
  /-- `run`. -/
  run : Bool
  /-- `lastReceiveTime`. -/
  lastReceiveTime : ℕ
  /-- `lastSendTime`. -/
  lastSendTime : ℕ
  /-- The thread. -/
  serving : Serving
  /-- When the thread made its last step. -/
  since : ℕ
  /-- When the connection was accepted. -/
  accepted : ℕ
  /-- The socket was closed because nothing had come. -/
  timedOut : Bool
  /-- How many reads there were. -/
  reads : ℕ
  /-- What was written to the socket. -/
  written : List Output
  deriving DecidableEq, Repr

/-- `receiveTimeDelay`. -/
def receiveTimeDelay : ℕ := 2 * 60 * 1000

/-- How long the server waits before the next request. -/
def requestDelay : ℕ := 30 * 1000

namespace SocketAction

/-- `new SocketAction(s)`. -/
def new (now : ℕ) : SocketAction where
  run := true
  lastReceiveTime := now
  lastSendTime := now
  serving := .test
  since := now
  accepted := now
  timedOut := false
  reads := 0
  written := []

/-- `overThis`. -/
def overThis (action : SocketAction) : SocketAction := { action with run := false, serving := .test }

/-- What is done with the bytes that were read. -/
def handle (action : SocketAction) (recedata : List Byte) (fault : Fault) : SocketAction :=
  match serverAction recedata with
  | .error _ => action.overThis
  | .ok (_, backdata) =>
    if fault = .output then action.overThis
    else { action with written := action.written ++ [.reply backdata], serving := .test }

/-- One step of the thread. `running` is the server's flag and `recedata` what `in` has available. -/
def serve (action : SocketAction) (running : Bool) (now : ℕ) (recedata : List Byte)
    (fault : Fault) : SocketAction :=
  let action := { action with since := now }
  match action.serving with
  | .test =>
    if running = false ∨ action.run = false then { action with serving := .ended }
    else if receiveTimeDelay < now - action.lastReceiveTime then { action.overThis with timedOut := true }
    else { action with serving := .ask }
  | .ask =>
    -- an exception of the request is swallowed, and the stamp left out
    if requestDelay < now - action.lastSendTime ∧ fault ≠ .output then
      { action with written := action.written ++ [.request now], serving := .stamp }
    else { action with serving := .read }
  | .stamp => { action with lastSendTime := now, serving := .read }
  | .read =>
    if fault = .input then action.overThis
    else if recedata = [] then { action with serving := .test }
    else { action with lastReceiveTime := now, reads := action.reads + 1 }.handle recedata fault
  | .ended => action

end SocketAction

/-! ### The connection -/

/-- Bytes that are on their way, with the time they were sent, or have come in, with that time. -/
structure Chunk where
  /-- The time. -/
  time : ℕ
  /-- The bytes. -/
  bytes : List Byte
  /-- There are some. -/
  ne_nil : bytes ≠ []

namespace Chunk

variable (chunk : Chunk) {n : ℕ}

/-- Its first bytes. -/
def front (h : 0 < n ∧ n < chunk.bytes.length) : Chunk where
  time := chunk.time
  bytes := chunk.bytes.take n
  ne_nil h0 := by
    have hlen := congrArg List.length h0
    rw [List.length_take, List.length_nil] at hlen
    omega

/-- The bytes after them. -/
def back (h : 0 < n ∧ n < chunk.bytes.length) : Chunk where
  time := chunk.time
  bytes := chunk.bytes.drop n
  ne_nil h0 := by
    have hlen := congrArg List.length h0
    rw [List.length_drop, List.length_nil] at hlen
    omega

end Chunk

/-- The two ends of a connection and what is between them. -/
structure Connection where
  /-- The time. -/
  now : ℕ
  /-- The device. -/
  client : Client
  /-- What was sent to the server and has not come in. -/
  transit : List Chunk
  /-- What has come in and was not read. -/
  available : List Chunk
  /-- The server's end, once it is accepted. -/
  action : Option SocketAction
  /-- `running` of the server. -/
  running : Bool
  /-- The keep-alives sent. -/
  keepAlives : ℕ
  /-- The uploads sent. -/
  uploads : ℕ
  /-- How often the network has cut what was sent. -/
  cuts : ℕ

/-- What can happen. -/
inductive Action where
  /-- Time passes. -/
  | wait (d : ℕ)
  /-- A step of the watchdog. -/
  | watch (ok : Bool)
  /-- A call of `TcpClient.stop`. -/
  | stop
  /-- A call of `TcpClient.sendMessage` by the executor. -/
  | upload (buffer : List Byte)
  /-- The network cuts the oldest bytes on their way after `n` of them. -/
  | cut (n : ℕ)
  /-- The oldest bytes on their way come in. -/
  | arrive
  /-- `ss.accept()` returns. -/
  | accept
  /-- A step of the `SocketAction`. -/
  | serve (fault : Fault)
  /-- A call of `Server.stop`. -/
  | stopServer
  deriving DecidableEq, Repr

namespace Connection

/-- The connection when the device has it. -/
def init : Connection where
  now := 0
  client := .start 0
  transit := []
  available := []
  action := none
  running := true
  keepAlives := 0
  uploads := 0
  cuts := 0

variable (s : Connection)

/-- A step of the watchdog: the keep-alive is on its way. -/
def watch (ok : Bool) : Connection :=
  if s.client.watchdog = .send ∧ ok = true then
    { s with
      client := s.client.watch s.now ok
      transit := s.transit ++ [⟨s.now, ack, List.cons_ne_nil _ _⟩]
      keepAlives := s.keepAlives + 1 }
  else { s with client := s.client.watch s.now ok }

/-- All that is available. -/
def recedata : List Byte := s.available.flatMap Chunk.bytes

/-- What is available after a step of the `SocketAction`: a read takes all of it. -/
def unread (action : SocketAction) (fault : Fault) : List Chunk :=
  if action.serving = .read ∧ fault ≠ .input then [] else s.available

/-- A step of the `SocketAction`. -/
def serve (action : SocketAction) (fault : Fault) : Connection :=
  { s with
    action := some (action.serve s.running s.now s.recedata fault)
    available := s.unread action fault }

variable {s}

theorem mem_of_mem_unread {action : SocketAction} {fault : Fault} {chunk : Chunk}
    (h : chunk ∈ s.unread action fault) :
    chunk ∈ s.available := by
  rw [unread] at h
  split_ifs at h
  · cases h
  · exact h

theorem unread_of_ne {action : SocketAction} {pc : Serving} (hpc : action.serving = pc) (fault : Fault)
    (h : pc ≠ .read) : s.unread action fault = s.available := by
  rw [unread, if_neg]
  rintro ⟨hread, -⟩
  exact h (hpc.symm.trans hread)

theorem unread_read {action : SocketAction} {fault : Fault} (h : action.serving = .read)
    (hfault : fault ≠ .input) :
    s.unread action fault = [] := by
  rw [unread, if_pos ⟨h, hfault⟩]

/-- No chunk is empty. -/
theorem recedata_eq_nil : s.recedata = [] ↔ s.available = [] := by
  rw [recedata, List.flatMap_eq_nil_iff]
  refine ⟨fun h => List.eq_nil_iff_forall_not_mem.mpr fun chunk hchunk => chunk.ne_nil (h chunk hchunk), fun h => ?_⟩
  rw [h]
  exact nofun

end Connection

/-- The connection after an action, if it is possible. -/
def step (s : Connection) : Action → Option Connection
  | .wait d => some { s with now := s.now + d }
  | .watch ok => if s.client.watchdog = .ended then none else some (s.watch ok)
  | .stop => some { s with client := s.client.stop }
  | .upload buffer =>
    if h : buffer ≠ [] then
      some { s with transit := s.transit ++ [⟨s.now, buffer, h⟩], uploads := s.uploads + 1 }
    else none
  | .cut n =>
    match s.transit with
    | [] => none
    | chunk :: transit =>
      if h : 0 < n ∧ n < chunk.bytes.length then
        some { s with transit := chunk.front h :: chunk.back h :: transit, cuts := s.cuts + 1 }
      else none
  | .arrive =>
    match s.transit with
    | [] => none
    | chunk :: transit => some { s with transit := transit, available := s.available ++ [{ chunk with time := s.now }] }
  | .accept => if s.action = none ∧ s.running = true then some { s with action := some (.new s.now) } else none
  | .serve fault =>
    match s.action with
    | some action => if action.serving = .ended then none else some (s.serve action fault)
    | none => none
  | .stopServer => some { s with running := false }

/-- All that a step of a `SocketAction` can do. -/
inductive Served (action : SocketAction) (running : Bool) (now : ℕ) (recedata : List Byte) :
    Fault → SocketAction → Prop
    where
  | leave (fault : Fault) (h : action.serving = .test) :
    Served action running now recedata fault { action with serving := .ended, since := now }
  | timeOut (fault : Fault) (h : action.serving = .test) (hrun : action.run = true)
      (hlate : receiveTimeDelay < now - action.lastReceiveTime) :
    Served action running now recedata fault
      { action with run := false, serving := .test, since := now, timedOut := true }
  | pass (fault : Fault) (h : action.serving = .test) (hrun : action.run = true)
      (hlate : now - action.lastReceiveTime ≤ receiveTimeDelay) :
    Served action running now recedata fault { action with serving := .ask, since := now }
  | request (fault : Fault) (h : action.serving = .ask) (hlate : requestDelay < now - action.lastSendTime) :
    Served action running now recedata fault
      { action with serving := .stamp, since := now, written := action.written ++ [.request now] }
  | skip (fault : Fault) (h : action.serving = .ask) :
    Served action running now recedata fault { action with serving := .read, since := now }
  | stamp (fault : Fault) (h : action.serving = .stamp) :
    Served action running now recedata fault { action with serving := .read, since := now, lastSendTime := now }
  | fail (h : action.serving = .read) :
    Served action running now recedata .input { action with run := false, serving := .test, since := now }
  | nothing (fault : Fault) (h : action.serving = .read) (hrecedata : recedata = []) (hfault : fault ≠ .input) :
    Served action running now recedata fault { action with serving := .test, since := now }
  | reply (fault : Fault) (backdata : List Byte) (h : action.serving = .read) (hrecedata : recedata ≠ [])
      (hfault : fault ≠ .input) (hreply : ∃ printed, serverAction recedata = .ok (printed, backdata)) :
    Served action running now recedata fault
      { action with
        serving := .test
        since := now
        lastReceiveTime := now
        reads := action.reads + 1
        written := action.written ++ [.reply backdata] }
  | throw (fault : Fault) (h : action.serving = .read) (hrecedata : recedata ≠ []) (hfault : fault ≠ .input) :
    Served action running now recedata fault
      { action with run := false, serving := .test, since := now, lastReceiveTime := now, reads := action.reads + 1 }

theorem serve_cases {action : SocketAction} (running : Bool) (now : ℕ) (recedata : List Byte) (fault : Fault)
    (hserving : action.serving ≠ .ended) :
    Served action running now recedata fault (action.serve running now recedata fault) := by
  cases hpc : action.serving with
  | test =>
    simp only [SocketAction.serve, hpc]
    split_ifs with hleave hlate
    · exact .leave fault hpc
    · exact .timeOut fault hpc (by simpa using (not_or.mp hleave).2) hlate
    · exact .pass fault hpc (by simpa using (not_or.mp hleave).2) (Nat.not_lt.mp hlate)
  | ask =>
    simp only [SocketAction.serve, hpc]
    split_ifs with hlate
    · exact .request fault hpc hlate.1
    · exact .skip fault hpc
  | stamp =>
    simp only [SocketAction.serve, hpc]
    exact .stamp fault hpc
  | read =>
    simp only [SocketAction.serve, hpc]
    split_ifs with hfault hrecedata
    · subst hfault
      exact .fail hpc
    · exact .nothing fault hpc hrecedata hfault
    · rw [SocketAction.handle]
      split
      · exact .throw fault hpc hrecedata hfault
      · next printed backdata hreply =>
        split_ifs
        · exact .throw fault hpc hrecedata hfault
        · exact .reply fault backdata hpc hrecedata hfault ⟨printed, hreply⟩
  | ended => exact absurd hpc hserving

/-- All that a step can do. -/
inductive Step (s : Connection) : Action → Connection → Prop where
  | wait (d : ℕ) : Step s (.wait d) { s with now := s.now + d }
  | check (ok : Bool) (h : s.client.watchdog = .check) :
    Step s (.watch ok) { s with client := s.client.watch s.now ok }
  | keepAlive (h : s.client.watchdog = .send) : Step s (.watch true)
    { s with
      client := { s.client with watchdog := .stamp, since := s.now }
      transit := s.transit ++ [⟨s.now, ack, List.cons_ne_nil _ _⟩]
      keepAlives := s.keepAlives + 1 }
  | fail (h : s.client.watchdog = .send) : Step s (.watch false)
    { s with client := { s.client.stop with watchdog := .stamp, since := s.now } }
  | stamp (ok : Bool) (h : s.client.watchdog = .stamp) : Step s (.watch ok)
    { s with client := { s.client with lastSendTime := s.now, watchdog := .check, since := s.now } }
  | stop : Step s .stop { s with client := s.client.stop }
  | upload (buffer : List Byte) (h : buffer ≠ []) :
    Step s (.upload buffer) { s with transit := s.transit ++ [⟨s.now, buffer, h⟩], uploads := s.uploads + 1 }
  | cut {n : ℕ} {chunk : Chunk} {transit : List Chunk} (h : s.transit = chunk :: transit)
      (hn : 0 < n ∧ n < chunk.bytes.length) :
    Step s (.cut n) { s with transit := chunk.front hn :: chunk.back hn :: transit, cuts := s.cuts + 1 }
  | arrive {chunk : Chunk} {transit : List Chunk} (h : s.transit = chunk :: transit) :
    Step s .arrive { s with transit := transit, available := s.available ++ [{ chunk with time := s.now }] }
  | accept (h : s.action = none) : Step s .accept { s with action := some (.new s.now) }
  | serve {fault : Fault} {action action' : SocketAction} (h : s.action = some action)
      (hserved : Served action s.running s.now s.recedata fault action') :
    Step s (.serve fault) { s with action := some action', available := s.unread action fault }
  | stopServer : Step s .stopServer { s with running := false }

theorem step_cases {s s' : Connection} {a : Action} (h : step s a = some s') : Step s a s' := by
  cases a with
  | wait d =>
    cases h
    exact .wait d
  | watch ok =>
    rw [step] at h
    split_ifs at h with hended
    cases h
    rw [Connection.watch]
    cases hpc : s.client.watchdog with
    | check =>
      rw [if_neg (by simp)]
      exact .check ok hpc
    | send =>
      cases ok with
      | true =>
        simp only [and_self, if_true, Client.watch, hpc]
        exact .keepAlive hpc
      | false =>
        simp only [Bool.false_eq_true, and_false, if_false, Client.watch, hpc]
        exact .fail hpc
    | stamp =>
      simp only [reduceCtorEq, false_and, if_false, Client.watch, hpc]
      exact .stamp ok hpc
    | ended => exact absurd hpc hended
  | stop =>
    cases h
    exact .stop
  | upload buffer =>
    rw [step] at h
    split_ifs at h with hne
    cases h
    exact .upload buffer hne
  | cut n =>
    rw [step] at h
    split at h
    · cases h
    · next chunk transit htransit =>
      split_ifs at h with hn
      cases h
      exact .cut htransit hn
  | arrive =>
    rw [step] at h
    split at h
    · cases h
    · next chunk transit htransit =>
      cases h
      exact .arrive htransit
  | accept =>
    rw [step] at h
    split_ifs at h with haccept
    cases h
    exact .accept haccept.1
  | serve fault =>
    rw [step] at h
    split at h
    · next action haction =>
      split_ifs at h with hserving
      cases h
      exact .serve haction (serve_cases s.running s.now s.recedata fault hserving)
    · cases h
  | stopServer =>
    cases h
    exact .stopServer

end GpsTracker.Tcp.KeepAlive
