import GpsTracker.Java.Runtime
import GpsTracker.Java.Text
import GpsTracker.Library.Runs
import Mathlib.Logic.Function.Basic

/-!
# The connection manager

`TcpSocketManager` keeps one `TcpClient` in a field that is read and written by
every thread without a lock. `startTcpConnect` looks at the field and spawns a
thread; the thread makes a new client, stores it in the field, and calls `start`
on whatever the field then holds; `start` connects and only then sets `running`.
`sopTcpConnect` looks at the field, stops what it then holds, and clears it.
Uploads are queued to a single executor, whose task writes to the client that the
field holds when the task runs, and swallows every exception.

A state has the clients by reference, and the connect threads and the calls of
`sopTcpConnect` by number. An action is one atomic step of a caller, a connect
thread, the executor or the network; `step` says which are possible and what they
do (`step_cases`), and every step keeps the references in order
(`wellFormed_step`). The test of `startTcpConnect` and the spawning of its thread
are one step: a thread that is spawned later is one that has not made its first
step, and a call that finds the field null when it asks for the flag throws and does
nothing. So are the two writes of `setIpAddressAndPort`, and the two reads of
`new TcpClient(ip, port)`. Each upload carries, for the statements only, the
endpoint that was set when it was handed over, and the state keeps the uploads
handed over and those written.
-/

namespace GpsTracker.Tcp

open GpsTracker.Java Function

/-! ### Clients and threads -/

/-- An address and a port. -/
structure Endpoint where
  /-- The address. -/
  ip : JString
  /-- The port. -/
  port : JInt
  deriving DecidableEq, Repr

/-- A socket that was connected. -/
structure Socket where
  /-- The endpoint it was connected to. -/
  peer : Endpoint
  /-- Whether it still is. -/
  alive : Bool
  deriving DecidableEq, Repr

/-- A `TcpClient`. -/
structure TcpClient where
  /-- `serverIp` and `port`. -/
  server : Endpoint
  /-- The socket, once `start` has connected. -/
  socket : Option Socket
  /-- The flag that `isRunning` returns, and that keeps the watchdog threads alive. -/
  running : Bool
  deriving DecidableEq, Repr

/-- Where a connect thread stands. -/
inductive ConnectThread where
  /-- Not spawned yet. -/
  | unborn
  /-- Before `client = new TcpClient(ip, port)`. -/
  | spawned
  /-- Before `client.start()`. -/
  | created
  /-- In `start` of a client, before `socket = new Socket(serverIp, port)`. -/
  | connecting (c : ℕ)
  /-- In `start` of a client, before `running = true`. -/
  | connected (c : ℕ)
  /-- Done, or dead of an exception. -/
  | finished
  deriving DecidableEq, Repr

/-- Where a call of `sopTcpConnect` stands. -/
inductive StopCall where
  /-- Not made yet. -/
  | unmade
  /-- Before `client.stop()`. -/
  | tested
  /-- Before `client = null`. -/
  | halted
  /-- Returned, or left by an exception. -/
  | over
  deriving DecidableEq, Repr

/-- An upload handed to `sendMessage`. -/
structure Upload where
  /-- The bytes of the message. -/
  message : List Byte
  /-- The endpoint set when it was handed over. -/
  target : Endpoint
  deriving DecidableEq, Repr

/-- The client has an open socket. -/
def TcpClient.IsOpen (client : TcpClient) : Prop := ∃ socket, client.socket = some socket ∧ socket.alive = true

/-- The manager, its clients and its threads. -/
structure State where
  /-- The fields `ip` and `port`. -/
  endpoint : Endpoint
  /-- The field `client`. -/
  client : Option ℕ
  /-- The clients by reference. -/
  heap : ℕ → TcpClient
  /-- How many clients were made. -/
  allocated : ℕ
  /-- The connect threads. -/
  threads : ℕ → ConnectThread
  /-- How many were spawned. -/
  born : ℕ
  /-- The calls of `sopTcpConnect`. -/
  stops : ℕ → StopCall
  /-- The tasks of `sendExecutorService` that have not run. -/
  queue : List Upload
  /-- The uploads handed over so far. -/
  sent : List Upload
  /-- The uploads written so far, with the peer of the socket. -/
  written : List (Upload × Endpoint)
  /-- `sopTcpConnect` has returned, and no start or send call came after. -/
  stopped : Bool

/-- The manager as it is made. -/
def State.init : State where
  endpoint := { ip := lit "192.168.0.50", port := 65432 }
  client := none
  heap _ := { server := { ip := [], port := 0 }, socket := none, running := false }
  allocated := 0
  threads _ := .unborn
  born := 0
  stops _ := .unmade
  queue := []
  sent := []
  written := []
  stopped := false

namespace State

variable (s : State)

/-! ### The calls -/

/-- `setIpAddressAndPort`. -/
def setIpAddressAndPort (e : Endpoint) : State := { s with endpoint := e }

/-- `client != null && client.isRunning()`. -/
def clientRunning : Bool := s.client.any fun c => (s.heap c).running

/-- `startTcpConnect`. -/
def startTcpConnect : State :=
  if s.clientRunning then { s with stopped := false }
  else { s with threads := update s.threads s.born .spawned, born := s.born + 1, stopped := false }

/-- `sopTcpConnect`, up to its call of `stop`: it returns when the field is null. -/
def sopTcpConnect (k : ℕ) : State :=
  match s.client with
  | none => { s with stops := update s.stops k .over, stopped := true }
  | some _ => { s with stops := update s.stops k .tested }

/-- `client.stop()`: a field that is null by now throws. -/
def stop (k : ℕ) : State :=
  match s.client with
  | none => { s with stops := update s.stops k .over }
  | some c =>
    { s with heap := update s.heap c { s.heap c with running := false }, stops := update s.stops k .halted }

/-- `client = null`, and the return. -/
def clear (k : ℕ) : State := { s with client := none, stops := update s.stops k .over, stopped := true }

/-- Queueing the task of an upload. -/
def enqueue (message : List Byte) : State :=
  { s with queue := s.queue ++ [⟨message, s.endpoint⟩], sent := s.sent ++ [⟨message, s.endpoint⟩] }

/-- `sendMessage`. -/
def sendMessage (message : List Byte) : State := s.startTcpConnect.enqueue message

/-! ### The connect threads -/

/-- `client = new TcpClient(ip, port)`. -/
def create (t : ℕ) : State :=
  { s with heap := update s.heap s.allocated { server := s.endpoint, socket := none, running := false },
           client := some s.allocated, allocated := s.allocated + 1, threads := update s.threads t .created }

/-- `client.start()`, up to the blocking connect: a null field throws, a running client
returns. -/
def enter (t : ℕ) : State :=
  match s.client with
  | none => { s with threads := update s.threads t .finished }
  | some c =>
    if (s.heap c).running then { s with threads := update s.threads t .finished }
    else { s with threads := update s.threads t (.connecting c) }

/-- `socket = new Socket(serverIp, port)` on an accepted connection. -/
def connect (t c : ℕ) : State :=
  { s with heap := update s.heap c { s.heap c with socket := some { peer := (s.heap c).server, alive := true } },
           threads := update s.threads t (.connected c) }

/-- The same on a refused one: `start` throws. -/
def refuse (t : ℕ) : State := { s with threads := update s.threads t .finished }

/-- `running = true`. -/
def run (t c : ℕ) : State :=
  { s with heap := update s.heap c { s.heap c with running := true }, threads := update s.threads t .finished }

/-! ### The executor and the network -/

/-- The open socket of the client that the field holds. -/
def openSocket : Option Socket := s.client.bind fun c => (s.heap c).socket.filter Socket.alive

/-- The executor runs a task: `client.sendMessage(message)`, any exception swallowed. -/
def execute (u : Upload) (queue : List Upload) : State :=
  match s.openSocket with
  | some socket => { s with queue := queue, written := s.written ++ [(u, socket.peer)] }
  | none => { s with queue := queue }

/-- The connection of a client is lost. -/
def lose (c : ℕ) (socket : Socket) : State :=
  { s with heap := update s.heap c { s.heap c with socket := some { socket with alive := false } } }

/-- A watchdog thread of a client catches an exception and calls `stop`. -/
def watchdogStop (c : ℕ) : State := { s with heap := update s.heap c { s.heap c with running := false } }

end State

/-! ### Steps -/

/-- The atomic steps. -/
inductive Action where
  /-- A call of `setIpAddressAndPort`. -/
  | setIpAddressAndPort (e : Endpoint)
  /-- A call of `startTcpConnect`. -/
  | startTcpConnect
  /-- A call of `sopTcpConnect` looks at the field. -/
  | sopTcpConnect (k : ℕ)
  /-- It stops the client. -/
  | stop (k : ℕ)
  /-- It clears the field. -/
  | clear (k : ℕ)
  /-- A call of `sendMessage`. -/
  | sendMessage (message : List Byte)
  /-- A connect thread makes its client. -/
  | create (t : ℕ)
  /-- A connect thread calls `start`. -/
  | enter (t : ℕ)
  /-- The connection of a connect thread is accepted. -/
  | connect (t : ℕ)
  /-- The connection of a connect thread is refused. -/
  | refuse (t : ℕ)
  /-- A connect thread sets `running`. -/
  | run (t : ℕ)
  /-- The executor runs its next task. -/
  | execute
  /-- The connection of a client is lost. -/
  | lose (c : ℕ)
  /-- A watchdog thread stops its client. -/
  | watchdogStop (c : ℕ)
  deriving DecidableEq, Repr

/-- The state after an action, if it is possible. -/
def step (s : State) : Action → Option State
  | .setIpAddressAndPort e => some (s.setIpAddressAndPort e)
  | .startTcpConnect => some s.startTcpConnect
  | .sopTcpConnect k => if s.stops k = .unmade then some (s.sopTcpConnect k) else none
  | .stop k => if s.stops k = .tested then some (s.stop k) else none
  | .clear k => if s.stops k = .halted then some (s.clear k) else none
  | .sendMessage message => some (s.sendMessage message)
  | .create t => if s.threads t = .spawned then some (s.create t) else none
  | .enter t => if s.threads t = .created then some (s.enter t) else none
  | .connect t =>
    match s.threads t with
    | .connecting c => some (s.connect t c)
    | _ => none
  | .refuse t =>
    match s.threads t with
    | .connecting _ => some (s.refuse t)
    | _ => none
  | .run t =>
    match s.threads t with
    | .connected c => some (s.run t c)
    | _ => none
  | .execute =>
    match s.queue with
    | u :: queue => some (s.execute u queue)
    | [] => none
  | .lose c =>
    match (s.heap c).socket with
    | some socket => if socket.alive then some (s.lose c socket) else none
    | none => none
  | .watchdogStop c => if (s.heap c).running then some (s.watchdogStop c) else none

/-- All that a step can do. -/
inductive Step (s : State) : Action → State → Prop where
  | setIpAddressAndPort (e : Endpoint) : Step s (.setIpAddressAndPort e) (s.setIpAddressAndPort e)
  | startTcpConnect : Step s .startTcpConnect s.startTcpConnect
  | sopTcpConnect {k : ℕ} (h : s.stops k = .unmade) : Step s (.sopTcpConnect k) (s.sopTcpConnect k)
  | stop {k : ℕ} (h : s.stops k = .tested) : Step s (.stop k) (s.stop k)
  | clear {k : ℕ} (h : s.stops k = .halted) : Step s (.clear k) (s.clear k)
  | sendMessage (message : List Byte) : Step s (.sendMessage message) (s.sendMessage message)
  | create {t : ℕ} (h : s.threads t = .spawned) : Step s (.create t) (s.create t)
  | enter {t : ℕ} (h : s.threads t = .created) : Step s (.enter t) (s.enter t)
  | connect {t c : ℕ} (h : s.threads t = .connecting c) : Step s (.connect t) (s.connect t c)
  | refuse {t c : ℕ} (h : s.threads t = .connecting c) : Step s (.refuse t) (s.refuse t)
  | run {t c : ℕ} (h : s.threads t = .connected c) : Step s (.run t) (s.run t c)
  | execute {u : Upload} {queue : List Upload} (h : s.queue = u :: queue) : Step s .execute (s.execute u queue)
  | lose {c : ℕ} {socket : Socket} (h : (s.heap c).socket = some socket) : Step s (.lose c) (s.lose c socket)
  | watchdogStop (c : ℕ) : Step s (.watchdogStop c) (s.watchdogStop c)

theorem step_cases {s s' : State} {a : Action} (h : step s a = some s') : Step s a s' := by
  cases a with
  | setIpAddressAndPort e =>
    cases h
    exact .setIpAddressAndPort e
  | startTcpConnect =>
    cases h
    exact .startTcpConnect
  | sopTcpConnect k =>
    rw [step] at h
    split_ifs at h with hk
    cases h
    exact .sopTcpConnect hk
  | stop k =>
    rw [step] at h
    split_ifs at h with hk
    cases h
    exact .stop hk
  | clear k =>
    rw [step] at h
    split_ifs at h with hk
    cases h
    exact .clear hk
  | sendMessage message =>
    cases h
    exact .sendMessage message
  | create t =>
    rw [step] at h
    split_ifs at h with ht
    cases h
    exact .create ht
  | enter t =>
    rw [step] at h
    split_ifs at h with ht
    cases h
    exact .enter ht
  | connect t =>
    rw [step] at h
    split at h
    · next c ht =>
      cases h
      exact .connect ht
    · cases h
  | refuse t =>
    rw [step] at h
    split at h
    · next c ht =>
      cases h
      exact .refuse ht
    · cases h
  | run t =>
    rw [step] at h
    split at h
    · next c ht =>
      cases h
      exact .run ht
    · cases h
  | execute =>
    rw [step] at h
    split at h
    · next u queue hq =>
      cases h
      exact .execute hq
    · cases h
  | lose c =>
    rw [step] at h
    split at h
    · next socket hs =>
      split_ifs at h
      cases h
      exact .lose hs
    · cases h
  | watchdogStop c =>
    rw [step] at h
    split_ifs at h
    cases h
    exact .watchdogStop c

/-! ### What the calls and steps change -/

section Changes

variable (s : State)

theorem clientRunning_eq_false {s : State} : s.clientRunning = false ↔
    ∀ c, s.client = some c → (s.heap c).running = false := by
  unfold State.clientRunning
  cases s.client with
  | none => exact iff_of_true rfl fun c h => by cases h
  | some c =>
    rw [Option.any_some]
    exact ⟨fun h d hd => Option.some.inj hd ▸ h, fun h => h c rfl⟩

/-- `startTcpConnect` spawns at most one thread, the next one. -/
theorem startTcpConnect_cases : (s.clientRunning = true ∧ s.startTcpConnect = { s with stopped := false }) ∨
    (s.clientRunning = false ∧ s.startTcpConnect =
      { s with threads := update s.threads s.born .spawned, born := s.born + 1, stopped := false }) := by
  unfold State.startTcpConnect
  cases h : s.clientRunning with
  | true => exact Or.inl ⟨rfl, if_pos rfl⟩
  | false => exact Or.inr ⟨rfl, if_neg Bool.false_ne_true⟩

/-- A call of `sopTcpConnect` returns at a null field, or goes on. -/
theorem sopTcpConnect_cases (k : ℕ) :
    (s.client = none ∧ s.sopTcpConnect k = { s with stops := update s.stops k .over, stopped := true }) ∨
    ∃ c, s.client = some c ∧ s.sopTcpConnect k = { s with stops := update s.stops k .tested } := by
  rcases Option.eq_none_or_eq_some s.client with h | ⟨c, h⟩
  · exact Or.inl ⟨h, by simp only [State.sopTcpConnect, h]⟩
  · exact Or.inr ⟨c, h, by simp only [State.sopTcpConnect, h]⟩

/-- It throws at a field that is null by now, or clears the flag of the client that is held. -/
theorem stop_cases (k : ℕ) : (s.client = none ∧ s.stop k = { s with stops := update s.stops k .over }) ∨
    ∃ c, s.client = some c ∧ s.stop k =
      { s with heap := update s.heap c { s.heap c with running := false }, stops := update s.stops k .halted } := by
  rcases Option.eq_none_or_eq_some s.client with h | ⟨c, h⟩
  · exact Or.inl ⟨h, by simp only [State.stop, h]⟩
  · exact Or.inr ⟨c, h, by simp only [State.stop, h]⟩

/-- A thread that calls `start` ends, or goes on with the client that the field holds. -/
theorem enter_cases (t : ℕ) : ∃ pc, s.enter t = { s with threads := update s.threads t pc } ∧
    (pc = .finished ∧ (∀ c, s.client = some c → (s.heap c).running = true) ∨
      ∃ c, s.client = some c ∧ (s.heap c).running = false ∧ pc = .connecting c) := by
  rcases Option.eq_none_or_eq_some s.client with h | ⟨c, h⟩
  · refine ⟨.finished, by simp only [State.enter, h], Or.inl ⟨rfl, fun c hc => ?_⟩⟩
    rw [h] at hc
    cases hc
  · cases hrun : (s.heap c).running with
    | true =>
      refine ⟨.finished, by simp only [State.enter, h, hrun, if_true], Or.inl ⟨rfl, fun d hd => ?_⟩⟩
      obtain rfl := Option.some.inj (h.symm.trans hd)
      exact hrun
    | false =>
      exact ⟨.connecting c, by simp only [State.enter, h, hrun, Bool.false_eq_true, if_false],
        Or.inr ⟨c, h, hrun, rfl⟩⟩

/-- A task writes its upload when the held client has an open socket. -/
theorem execute_cases (u : Upload) (queue : List Upload) :
    (∃ socket, s.openSocket = some socket ∧
      s.execute u queue = { s with queue := queue, written := s.written ++ [(u, socket.peer)] }) ∨
    (s.openSocket = none ∧ s.execute u queue = { s with queue := queue }) := by
  unfold State.execute
  cases s.openSocket with
  | some socket => exact Or.inl ⟨socket, rfl, rfl⟩
  | none => exact Or.inr ⟨rfl, rfl⟩

/-- The open socket is that of the held client. -/
theorem openSocket_eq_some {s : State} {socket : Socket} : s.openSocket = some socket ↔
    ∃ c, s.client = some c ∧ (s.heap c).socket = some socket ∧ socket.alive = true := by
  unfold State.openSocket
  rw [Option.bind_eq_some_iff]
  refine exists_congr fun c => and_congr_right fun _ => ?_
  rw [Option.filter_eq_some_iff]

end Changes

section Update

variable {heap : ℕ → TcpClient} {threads : ℕ → ConnectThread}

/-- A client is as it was, or is the one that was replaced. -/
theorem heap_update_rel (r : TcpClient → TcpClient → Prop) {c : ℕ} {x : TcpClient} (hrefl : ∀ y, r y y)
    (hx : r x (heap c)) : ∀ d, r (update heap c x d) (heap d) :=
  (forall_update_iff heap fun d y => r y (heap d)).mpr ⟨hx, fun d _ => hrefl (heap d)⟩

/-- Another client's flag is untouched. -/
theorem running_update_of_ne {c d : ℕ} (hdc : d ≠ c) (x : TcpClient) :
    (update heap c x d).running = (heap d).running := by
  rw [update_of_ne hdc]

/-- A client whose flag is not raised runs no more than before. -/
theorem running_of_update {c d : ℕ} {x : TcpClient} (h : (update heap c x d).running = true)
    (hx : x.running = true → (heap c).running = true) : (heap d).running = true :=
  heap_update_rel (fun y z => y.running = true → z.running = true) (fun _ => id) hx d h

/-- A client that gets no open socket is open no more than before. -/
theorem isOpen_of_update {c d : ℕ} {x : TcpClient} (h : (update heap c x d).IsOpen)
    (hx : x.IsOpen → (heap c).IsOpen) : (heap d).IsOpen :=
  heap_update_rel (fun y z => y.IsOpen → z.IsOpen) (fun _ => id) hx d h

/-- A thread that is where the moved one is not was there before. -/
theorem threads_of_update (p : ConnectThread → Prop) {t u : ℕ} {pc : ConnectThread}
    (h : p (update threads t pc u)) (hpc : ¬ p pc) : p (threads u) := by
  by_cases hu : u = t
  · rw [hu, update_self] at h
    exact absurd h hpc
  · rwa [update_of_ne hu] at h

/-- A thread that is elsewhere is still there. -/
theorem threads_update {t u : ℕ} {pc q : ConnectThread} (h : threads u = q) (ht : threads t ≠ q) :
    update threads t pc u = q := by
  rw [update_of_ne, h]
  rintro rfl
  exact ht h

end Update

/-! ### References -/

/-- The references are to clients that were made, and what was not made or not spawned does nothing. -/
structure WellFormed (s : State) : Prop where
  held : ∀ c, s.client = some c → c < s.allocated
  busy : ∀ t c, s.threads t = .connecting c ∨ s.threads t = .connected c → c < s.allocated
  idle : ∀ c, s.allocated ≤ c → (s.heap c).running = false
  unborn : ∀ t, s.born ≤ t → s.threads t = .unborn

/-- A step of one thread, on the client it has. -/
theorem WellFormed.of_update {s s' : State} {t : ℕ} {pc : ConnectThread} (hs : WellFormed s)
    (ht : s.threads t ≠ .unborn) (hthreads : s'.threads = update s.threads t pc) (hborn : s'.born = s.born)
    (hclient : s'.client = s.client) (hallocated : s'.allocated = s.allocated)
    (hbusy : ∀ c, pc = .connecting c ∨ pc = .connected c → c < s.allocated)
    (hidle : ∀ c, s.allocated ≤ c → (s'.heap c).running = false) : WellFormed s' where
  held := by
    rw [hclient, hallocated]
    exact hs.held
  busy u c hu := by
    rw [hallocated]
    rw [hthreads] at hu
    by_cases hut : u = t
    · rw [hut, update_self] at hu
      exact hbusy c hu
    · rw [update_of_ne hut] at hu
      exact hs.busy u c hu
  idle := by
    rw [hallocated]
    exact hidle
  unborn u hu := by
    rw [hborn] at hu
    have hunborn := hs.unborn u hu
    rw [hthreads]
    exact threads_update hunborn ht

/-- A step that leaves the threads and raises no flag. -/
theorem WellFormed.of_threads_eq {s s' : State} (hs : WellFormed s) (hthreads : s'.threads = s.threads)
    (hborn : s'.born = s.born) (hclient : ∀ c, s'.client = some c → s.client = some c)
    (hallocated : s'.allocated = s.allocated)
    (hrun : ∀ c, (s'.heap c).running = true → (s.heap c).running = true) : WellFormed s' where
  held c hc := by
    rw [hallocated]
    exact hs.held c (hclient c hc)
  busy := by
    rw [hthreads, hallocated]
    exact hs.busy
  idle c hc := by
    rw [hallocated] at hc
    rw [Bool.eq_false_iff]
    intro h
    exact absurd ((hs.idle c hc).symm.trans (hrun c h)) Bool.false_ne_true
  unborn := by
    rw [hthreads, hborn]
    exact hs.unborn

theorem WellFormed.startTcpConnect {s : State} (hs : WellFormed s) : WellFormed s.startTcpConnect := by
  rcases startTcpConnect_cases s with ⟨-, heq⟩ | ⟨-, heq⟩
  · rw [heq]
    exact hs.of_threads_eq rfl rfl (fun _ h => h) rfl fun _ h => h
  · rw [heq]
    refine ⟨hs.held, fun t c ht => hs.busy t c ?_, hs.idle, fun t ht => ?_⟩
    · exact threads_of_update (fun pc => pc = .connecting c ∨ pc = .connected c) ht (by simp)
    · have hlt : s.born < t := ht
      change update s.threads s.born _ t = _
      rw [update_of_ne hlt.ne']
      exact hs.unborn t hlt.le

theorem WellFormed.create {s : State} (hs : WellFormed s) {t : ℕ} (ht : s.threads t = .spawned) :
    WellFormed (s.create t) where
  held c hc := by
    obtain rfl := Option.some.inj hc
    exact Nat.lt_succ_self _
  busy u c hu := by
    have hold := threads_of_update (fun pc => pc = .connecting c ∨ pc = .connected c) hu (by simp)
    exact (hs.busy u c hold).trans (Nat.lt_succ_self _)
  idle c hc := by
    have hlt : s.allocated < c := hc
    exact (running_update_of_ne hlt.ne' _).trans (hs.idle c hlt.le)
  unborn u hu := by
    have hunborn := hs.unborn u hu
    exact threads_update hunborn (by simp [ht])

/-- **Every step keeps the references in order.** -/
theorem wellFormed_step {s s' : State} {a : Action} (hs : WellFormed s) (h : Step s a s') : WellFormed s' := by
  cases h with
  | setIpAddressAndPort e => exact hs.of_threads_eq rfl rfl (fun _ h => h) rfl fun _ h => h
  | startTcpConnect => exact hs.startTcpConnect
  | @sopTcpConnect k hk =>
    rcases sopTcpConnect_cases s k with ⟨-, heq⟩ | ⟨c, -, heq⟩
    · rw [heq]
      exact hs.of_threads_eq rfl rfl (fun _ h => h) rfl fun _ h => h
    · rw [heq]
      exact hs.of_threads_eq rfl rfl (fun _ h => h) rfl fun _ h => h
  | @stop k hk =>
    rcases stop_cases s k with ⟨-, heq⟩ | ⟨c, -, heq⟩
    · rw [heq]
      exact hs.of_threads_eq rfl rfl (fun _ h => h) rfl fun _ h => h
    · rw [heq]
      exact hs.of_threads_eq rfl rfl (fun _ h => h) rfl fun d h => running_of_update h nofun
  | clear hk => exact hs.of_threads_eq rfl rfl nofun rfl fun _ h => h
  | sendMessage message => exact hs.startTcpConnect.of_threads_eq rfl rfl (fun _ h => h) rfl fun _ h => h
  | create ht => exact hs.create ht
  | @enter t ht =>
    obtain ⟨pc, heq, hpc⟩ := enter_cases s t
    rw [heq]
    refine hs.of_update (t := t) (by simp [ht]) rfl rfl rfl rfl (fun c hc => ?_) hs.idle
    rcases hpc with ⟨rfl, -⟩ | ⟨d, hd, -, rfl⟩
    · simp at hc
    · simp only [ConnectThread.connecting.injEq, reduceCtorEq, or_false] at hc
      exact hs.held c (hc ▸ hd)
  | @connect t c ht =>
    refine hs.of_update (t := t) (by simp [ht]) rfl rfl rfl rfl (fun d hd => ?_) fun d hd => ?_
    · simp only [reduceCtorEq, ConnectThread.connected.injEq, false_or] at hd
      exact hd ▸ hs.busy t c (Or.inl ht)
    · rw [Bool.eq_false_iff]
      intro hrun
      exact absurd ((hs.idle d hd).symm.trans (running_of_update hrun id)) Bool.false_ne_true
  | @refuse t c ht => exact hs.of_update (t := t) (by simp [ht]) rfl rfl rfl rfl (by simp) hs.idle
  | @run t c ht =>
    refine hs.of_update (t := t) (by simp [ht]) rfl rfl rfl rfl (by simp) fun d hd => ?_
    have hlt := hs.busy t c (Or.inr ht)
    exact (running_update_of_ne (by omega) _).trans (hs.idle d hd)
  | execute hq =>
    rcases execute_cases s _ _ with ⟨socket, -, heq⟩ | ⟨-, heq⟩
    · rw [heq]
      exact hs.of_threads_eq rfl rfl (fun _ h => h) rfl fun _ h => h
    · rw [heq]
      exact hs.of_threads_eq rfl rfl (fun _ h => h) rfl fun _ h => h
  | lose hsocket => exact hs.of_threads_eq rfl rfl (fun _ h => h) rfl fun d h => running_of_update h id
  | watchdogStop c => exact hs.of_threads_eq rfl rfl (fun _ h => h) rfl fun d h => running_of_update h nofun

theorem wellFormed_init : WellFormed .init where
  held := nofun
  busy _ _ h := by simp [State.init] at h
  idle _ _ := rfl
  unborn _ _ := rfl

end GpsTracker.Tcp
