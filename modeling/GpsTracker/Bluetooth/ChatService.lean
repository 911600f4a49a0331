import GpsTracker.Java.Runtime
import GpsTracker.Library.Runs
import Mathlib.Logic.Function.Basic

/-!
# The Bluetooth chat service

`BluetoothChatService` keeps a state and four threads in fields: two that accept
connections, one that makes a connection, and one that reads from a connection.
`start`, `connect`, `connected` and `stop` change the fields under the lock of the
service; each cancels the threads that it takes out of a field, and cancelling a
thread closes its socket. The threads call these methods too: an accept thread
hands a socket to `connected`, a connect thread takes itself out of its field and
then calls `connected`, and a connect or read that throws ends in `start`.

A state has the threads by reference. An action is a call from outside, or one
step of a thread: a blocking call that returns or throws, or a block under the
lock. Each thread carries, for the statements only, whether the service has
dismissed it: a method returned with the thread in none of the fields.
-/

namespace GpsTracker.Bluetooth

open GpsTracker.Java Function

/-! ### Threads and fields -/

/-- `mState`. -/
inductive ServiceState where
  /-- `STATE_NONE`. -/
  | none
  /-- `STATE_LISTEN`. -/
  | listen
  /-- `STATE_CONNECTING`. -/
  | connecting
  /-- `STATE_CONNECTED`. -/
  | connected
  deriving DecidableEq, Repr

/-- Where a thread of the service stands. -/
inductive ChatTask where
  /-- An accept thread, before `while (mState != STATE_CONNECTED)`. -/
  | acceptLoop
  /-- An accept thread, in `mmServerSocket.accept()`. -/
  | accepting
  /-- An accept thread with a socket, before its block under the lock. -/
  | accepted
  /-- A connect thread, in `mmSocket.connect()`. -/
  | connecting
  /-- A connect thread, before `connectionFailed()`. -/
  | connectFailed
  /-- A connect thread, before `mConnectThread = null`. -/
  | reset
  /-- A connect thread, before `connected(mmSocket, mmDevice, mSocketType)`. -/
  | handOver
  /-- A connected thread, in `mmInStream.read(buffer)`. -/
  | reading
  /-- A connected thread, before `connectionLost()`. -/
  | lost
  /-- A connected thread, before `BluetoothChatService.this.start()`. -/
  | restart
  /-- Ended. -/
  | ended
  deriving DecidableEq, Repr

/-- A thread of the service. -/
structure ChatThread where
  /-- Where it stands. -/
  task : ChatTask
  /-- Whether it was cancelled: its socket is closed. -/
  cancelled : Bool
  /-- Whether a method of the service has returned with it in none of the fields. -/
  dismissed : Bool
  deriving DecidableEq, Repr

/-- The service and its threads. -/
structure ChatService where
  /-- `mState`. -/
  mState : ServiceState
  /-- `mSecureAcceptThread`. -/
  mSecureAcceptThread : Option ℕ
  /-- `mInsecureAcceptThread`. -/
  mInsecureAcceptThread : Option ℕ
  /-- `mConnectThread`. -/
  mConnectThread : Option ℕ
  /-- `mConnectedThread`. -/
  mConnectedThread : Option ℕ
  /-- The threads by reference: those below `born`. -/
  threads : ℕ → ChatThread
  /-- How many were made. -/
  born : ℕ
  /-- How many there were when `stop` returned, with no call of another method from outside since. -/
  stopped : Option ℕ

namespace ChatService

/-- The service as it is made. -/
def init : ChatService where
  mState := .none
  mSecureAcceptThread := none
  mInsecureAcceptThread := none
  mConnectThread := none
  mConnectedThread := none
  threads _ := ⟨.ended, false, false⟩
  born := 0
  stopped := none

variable (s : ChatService)

/-- `setState`. -/
def setState (state : ServiceState) : ChatService := { s with mState := state }

/-- The threads after `if (x != null) x.cancel()`. -/
def cancel (threads : ℕ → ChatThread) : Option ℕ → ℕ → ChatThread
  | none => threads
  | some t => update threads t { threads t with cancelled := true }

/-- `if (mConnectThread != null) {mConnectThread.cancel(); mConnectThread = null;}`. -/
def cancelConnectThread : ChatService :=
  { s with threads := cancel s.threads s.mConnectThread, mConnectThread := none }

/-- The same of `mConnectedThread`. -/
def cancelConnectedThread : ChatService :=
  { s with threads := cancel s.threads s.mConnectedThread, mConnectedThread := none }

/-- The same of `mSecureAcceptThread`. -/
def cancelSecureAcceptThread : ChatService :=
  { s with threads := cancel s.threads s.mSecureAcceptThread, mSecureAcceptThread := none }

/-- The same of `mInsecureAcceptThread`. -/
def cancelInsecureAcceptThread : ChatService :=
  { s with threads := cancel s.threads s.mInsecureAcceptThread, mInsecureAcceptThread := none }

/-- The threads after one was made and started. -/
def spawn (task : ChatTask) : ℕ → ChatThread := update s.threads s.born ⟨task, false, false⟩

/-- `if (mSecureAcceptThread == null) {...}`. -/
def startSecureAcceptThread : ChatService :=
  match s.mSecureAcceptThread with
  | none => { s with threads := s.spawn .acceptLoop, born := s.born + 1, mSecureAcceptThread := some s.born }
  | some _ => s

/-- `if (mInsecureAcceptThread == null) {...}`. -/
def startInsecureAcceptThread : ChatService :=
  match s.mInsecureAcceptThread with
  | none => { s with threads := s.spawn .acceptLoop, born := s.born + 1, mInsecureAcceptThread := some s.born }
  | some _ => s

/-- The thread is in one of the fields. -/
def Holds (t : ℕ) : Prop :=
  s.mSecureAcceptThread = some t ∨ s.mInsecureAcceptThread = some t ∨ s.mConnectThread = some t ∨
    s.mConnectedThread = some t

instance (t : ℕ) : Decidable (s.Holds t) := inferInstanceAs (Decidable (_ ∨ _ ∨ _ ∨ _))

/-- A method returns: the threads made so far that are in no field are dismissed. -/
def dismiss : ChatService :=
  { s with threads := fun t =>
      { s.threads t with dismissed := (s.threads t).dismissed || decide (t < s.born ∧ ¬ s.Holds t) } }

/-! ### The methods -/

/-- `start`. -/
def start : ChatService :=
  (s.cancelConnectThread.cancelConnectedThread.setState .listen).startSecureAcceptThread.startInsecureAcceptThread.dismiss

/-- The first block of `connect`: an attempt is cancelled in `STATE_CONNECTING`. -/
def cancelAttempt : ChatService := if s.mState = .connecting then s.cancelConnectThread else s

/-- `mConnectThread = new ConnectThread(device, secure); mConnectThread.start()`. -/
def startConnectThread : ChatService :=
  { s with threads := s.spawn .connecting, born := s.born + 1, mConnectThread := some s.born }

/-- `connect`. -/
def connect : ChatService :=
  (s.cancelAttempt.cancelConnectedThread.startConnectThread.setState .connecting).dismiss

/-- `mConnectedThread = new ConnectedThread(socket, socketType); mConnectedThread.start()`. -/
def startConnectedThread : ChatService :=
  { s with threads := s.spawn .reading, born := s.born + 1, mConnectedThread := some s.born }

/-- The four fields, cleared. -/
def cancelAll : ChatService :=
  s.cancelConnectThread.cancelConnectedThread.cancelSecureAcceptThread.cancelInsecureAcceptThread

/-- `connected`. -/
def connected : ChatService := (s.cancelAll.startConnectedThread.setState .connected).dismiss

/-- `stop`. -/
def stop : ChatService := (s.cancelAll.setState .none).dismiss

/-- `write`, up to the unsynchronized `r.write(out)`: the thread it goes to, if any. -/
def write : Except Exn (Option ℕ) :=
  if s.mState ≠ .connected then .ok none else (deref s.mConnectedThread).map some

/-! ### The threads -/

/-- A thread goes on. -/
def goOn (t : ℕ) (task : ChatTask) : ChatService :=
  { s with threads := update s.threads t { s.threads t with task := task } }

/-- `while (mState != STATE_CONNECTED)`. -/
def acceptLoop (t : ℕ) : ChatService := s.goOn t (if s.mState = .connected then .ended else .accepting)

/-- The block of an accept thread under the lock: the socket is handed over, or closed. -/
def handleAccepted (t : ℕ) : ChatService :=
  match s.mState with
  | .listen => s.connected.goOn t .acceptLoop
  | .connecting => s.connected.goOn t .acceptLoop
  | .none => s.goOn t .acceptLoop
  | .connected => s.goOn t .acceptLoop

/-- The block of a connect thread under the lock: `mConnectThread = null`. -/
def resetConnectThread (t : ℕ) : ChatService := { s with mConnectThread := none }.goOn t .handOver

end ChatService

/-! ### Steps -/

/-- The calls from outside and the steps of the threads. -/
inductive ChatAction where
  /-- `BluetoothUtil.start`. -/
  | start
  /-- `BluetoothChatService.connect`. -/
  | connect
  /-- `BluetoothChatService.connected`. -/
  | connected
  /-- `BluetoothUtil.stop`. -/
  | stop
  /-- An accept thread looks at `mState`. -/
  | acceptLoop (t : ℕ)
  /-- `accept()` returns a socket. -/
  | acceptReturns (t : ℕ)
  /-- `accept()` throws. -/
  | acceptThrows (t : ℕ)
  /-- An accept thread takes the lock with its socket. -/
  | handleAccepted (t : ℕ)
  /-- `connect()` returns. -/
  | connectReturns (t : ℕ)
  /-- `connect()` throws. -/
  | connectThrows (t : ℕ)
  /-- `connectionFailed()`. -/
  | connectionFailed (t : ℕ)
  /-- A connect thread takes itself out of its field. -/
  | resetConnectThread (t : ℕ)
  /-- A connect thread calls `connected`. -/
  | handOver (t : ℕ)
  /-- `read` throws. -/
  | readThrows (t : ℕ)
  /-- `connectionLost()`. -/
  | connectionLost (t : ℕ)
  /-- The second `start()` of a connected thread. -/
  | restart (t : ℕ)
  deriving DecidableEq, Repr

/-- The thread that takes the step, if it is not a call from outside. -/
def ChatAction.thread : ChatAction → Option ℕ
  | .start => none
  | .connect => none
  | .connected => none
  | .stop => none
  | .acceptLoop t => some t
  | .acceptReturns t => some t
  | .acceptThrows t => some t
  | .handleAccepted t => some t
  | .connectReturns t => some t
  | .connectThrows t => some t
  | .connectionFailed t => some t
  | .resetConnectThread t => some t
  | .handOver t => some t
  | .readThrows t => some t
  | .connectionLost t => some t
  | .restart t => some t

namespace ChatService

/-- The thread has been made and stands here. -/
def Stands (s : ChatService) (t : ℕ) (task : ChatTask) : Prop := t < s.born ∧ (s.threads t).task = task

instance (s : ChatService) (t : ℕ) (task : ChatTask) : Decidable (s.Stands t task) :=
  inferInstanceAs (Decidable (_ ∧ _))

/-- The thread stands before the action. One that was cancelled gets no socket and no connection
any more. -/
def Ready (s : ChatService) : ChatAction → Prop
  | .start => True
  | .connect => True
  | .connected => True
  | .stop => True
  | .acceptLoop t => s.Stands t .acceptLoop
  | .acceptReturns t => s.Stands t .accepting ∧ (s.threads t).cancelled = false
  | .acceptThrows t => s.Stands t .accepting
  | .handleAccepted t => s.Stands t .accepted
  | .connectReturns t => s.Stands t .connecting ∧ (s.threads t).cancelled = false
  | .connectThrows t => s.Stands t .connecting
  | .connectionFailed t => s.Stands t .connectFailed
  | .resetConnectThread t => s.Stands t .reset
  | .handOver t => s.Stands t .handOver
  | .readThrows t => s.Stands t .reading
  | .connectionLost t => s.Stands t .lost
  | .restart t => s.Stands t .restart

instance (s : ChatService) : (a : ChatAction) → Decidable (s.Ready a)
  | .start | .connect | .connected | .stop => isTrue trivial
  | .acceptReturns _ | .connectReturns _ => inferInstanceAs (Decidable (_ ∧ _))
  | .acceptLoop _ | .acceptThrows _ | .handleAccepted _ | .connectThrows _ | .connectionFailed _ | .resetConnectThread _
  | .handOver _ | .readThrows _ | .connectionLost _ | .restart _ => inferInstanceAs (Decidable (Stands _ _ _))

/-- The service after an action. -/
def act (s : ChatService) : ChatAction → ChatService
  | .start => { s.start with stopped := none }
  | .connect => { s.connect with stopped := none }
  | .connected => { s.connected with stopped := none }
  | .stop => { s.stop with stopped := some s.stop.born }
  | .acceptLoop t => s.acceptLoop t
  | .acceptReturns t => s.goOn t .accepted
  | .acceptThrows t => s.goOn t .ended
  | .handleAccepted t => s.handleAccepted t
  | .connectReturns t => s.goOn t .reset
  | .connectThrows t => s.goOn t .connectFailed
  | .connectionFailed t => s.start.goOn t .ended
  | .resetConnectThread t => s.resetConnectThread t
  | .handOver t => s.connected.goOn t .ended
  | .readThrows t => s.goOn t .lost
  | .connectionLost t => s.start.goOn t .restart
  | .restart t => s.start.goOn t .ended

/-- The service after an action, if it is possible. -/
def step (s : ChatService) (a : ChatAction) : Option ChatService := if s.Ready a then some (s.act a) else none

theorem step_eq {s s' : ChatService} {a : ChatAction} (h : step s a = some s') : s.Ready a ∧ s' = s.act a := by
  obtain ⟨hready, hact⟩ := Option.ite_none_right_eq_some.mp h
  exact ⟨hready, (Option.some.inj hact).symm⟩

/-- All that a step does: a call from outside, or a thread goes on, with or without a call of a
method, or clears the field of the connect thread. -/
inductive Effect (s : ChatService) : ChatService → Prop where
  | start : Effect s { s.start with stopped := none }
  | connect : Effect s { s.connect with stopped := none }
  | connected : Effect s { s.connected with stopped := none }
  | stop : Effect s { s.stop with stopped := some s.stop.born }
  | goOn (t : ℕ) (task : ChatTask) : Effect s (s.goOn t task)
  | restart (t : ℕ) (task : ChatTask) : Effect s (s.start.goOn t task)
  | handOver (t : ℕ) (task : ChatTask) : Effect s (s.connected.goOn t task)
  | reset (t : ℕ) : Effect s (s.resetConnectThread t)

theorem Effect.handleAccepted (s : ChatService) (t : ℕ) : Effect s (s.handleAccepted t) := by
  unfold ChatService.handleAccepted
  cases s.mState with
  | none => exact .goOn t _
  | listen => exact .handOver t _
  | connecting => exact .handOver t _
  | connected => exact .goOn t _

theorem Effect.act (s : ChatService) (a : ChatAction) : Effect s (s.act a) := by
  cases a with
  | start => exact .start
  | connect => exact .connect
  | connected => exact .connected
  | stop => exact .stop
  | acceptLoop t => exact .goOn t _
  | acceptReturns t => exact .goOn t _
  | acceptThrows t => exact .goOn t _
  | handleAccepted t => exact .handleAccepted s t
  | connectReturns t => exact .goOn t _
  | connectThrows t => exact .goOn t _
  | connectionFailed t => exact .restart t _
  | resetConnectThread t => exact .reset t
  | handOver t => exact .handOver t _
  | readThrows t => exact .goOn t _
  | connectionLost t => exact .restart t _
  | restart t => exact .restart t _

theorem Effect.of_step {s s' : ChatService} {a : ChatAction} (h : step s a = some s') : Effect s s' := by
  obtain ⟨_, rfl⟩ := step_eq h
  exact .act s a

end ChatService

end GpsTracker.Bluetooth
