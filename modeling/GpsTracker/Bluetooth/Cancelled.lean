import GpsTracker.Bluetooth.ServiceState

/-!
# The say of a cancelled thread

A thread that the service has cancelled or replaced still runs, and its handlers
call the methods of the service without asking whether it is the current one:
`connectionFailed` and `connectionLost` call `start`, a connect thread calls
`connected`. `Silent` is the step of such a thread that changes nothing: the state
of the service stays and no newer thread is cancelled.

Under the lock the step is silent for a reason in the state before it
(`silent_iff`): `start` changes nothing in `STATE_LISTEN` only, an accept thread
drops its socket in `STATE_NONE` and `STATE_CONNECTED`, and `connected` always
replaces a newer thread or the state. `Harmless` is that condition. The runs
whose steps all meet it are those in which cancelled threads have no say, and in
them a service that was stopped stays stopped
(`cancelled_have_no_say_iff`).
-/

namespace GpsTracker.Bluetooth.ChatService

open GpsTracker.Java GpsTracker.Runs Function

variable {s s' : ChatService} {a : ChatAction}

/-- The state of the service and the threads newer than `t` are as they were. -/
def Keeps (s s' : ChatService) (t : ℕ) : Prop :=
  s'.mState = s.mState ∧ ∀ u, t < u → (s'.threads u).cancelled = (s.threads u).cancelled

/-- A thread that was cancelled or replaced changes neither the state of the service nor a newer
thread. -/
def Silent (s : ChatService) (a : ChatAction) : Prop :=
  ∀ t s', a.thread = some t → (s.threads t).dismissed = true → step s a = some s' → Keeps s s' t

/-- After `stop` the service stays in `STATE_NONE` and makes no thread, until it is called from
outside. -/
def StaysStopped (s : ChatService) : Prop := ∀ n, s.stopped = some n → s.mState = .none ∧ s.born = n

/-- The step of a thread that was cancelled or replaced comes in a state where it does nothing. -/
def Harmless (s : ChatService) : ChatAction → Prop
  | .handleAccepted t => (s.threads t).dismissed = true → s.mState = .none ∨ s.mState = .connected
  | .connectionFailed t => (s.threads t).dismissed = true → s.mState = .listen
  | .connectionLost t => (s.threads t).dismissed = true → s.mState = .listen
  | .restart t => (s.threads t).dismissed = true → s.mState = .listen
  | .handOver t => ¬ (s.threads t).dismissed = true
  | _ => True

/-! ### Methods called by a thread -/

theorem goOn_cancelled (s : ChatService) (t : ℕ) (task : ChatTask) (u : ℕ) :
    ((s.goOn t task).threads u).cancelled = (s.threads u).cancelled := by
  obtain rfl | hne := eq_or_ne u t
  · simp [goOn]
  · simp [goOn, update_of_ne hne]

theorem goOn_dismissed (s : ChatService) (t : ℕ) (task : ChatTask) (u : ℕ) :
    ((s.goOn t task).threads u).dismissed = (s.threads u).dismissed := by
  obtain rfl | hne := eq_or_ne u t
  · simp [goOn]
  · simp [goOn, update_of_ne hne]

theorem keeps_goOn (s : ChatService) (t : ℕ) (task : ChatTask) : Keeps s (s.goOn t task) t :=
  ⟨rfl, fun u _ => goOn_cancelled s t task u⟩

theorem Keeps.of_goOn {t : ℕ} {task : ChatTask} (h : Keeps s (s'.goOn t task) t) : Keeps s s' t :=
  ⟨h.1, fun u hu => (goOn_cancelled s' t task u).symm.trans (h.2 u hu)⟩

/-- In `STATE_LISTEN` there is nothing to cancel and nothing to make. -/
theorem start_eq_of_listen (hs : s.Consistent) (h : s.mState = .listen) : s.start = s.dismiss := by
  obtain ⟨hsecure, hinsecure, hconnect⟩ := hs.listen_only h
  have hconnected : s.mConnectedThread = none := by
    by_contra hne
    have := hs.connected_iff.mpr hne
    rw [h] at this
    cases this
  obtain ⟨t, ht⟩ := Option.ne_none_iff_exists'.mp hsecure
  obtain ⟨u, hu⟩ := Option.ne_none_iff_exists'.mp hinsecure
  obtain ⟨mState, mSecure, mInsecure, mConnect, mConnected, threads, born, stopped⟩ := s
  simp only at h ht hu hconnect hconnected
  subst h ht hu hconnect hconnected
  rfl

theorem keeps_start_iff (hs : s.Consistent) (t : ℕ) (task : ChatTask) :
    Keeps s (s.start.goOn t task) t ↔ s.mState = .listen := by
  constructor
  · exact fun h => h.1.symm.trans (start_fields s).1
  · intro h
    rw [start_eq_of_listen hs h]
    exact ⟨rfl, fun u _ => goOn_cancelled s.dismiss t task u⟩

/-- The connected thread is the one made last, and it was not cancelled. -/
def Newest (s : ChatService) : Prop :=
  ∀ u, s.mConnectedThread = some u →
    s.born = u + 1 ∧ (s.threads u).cancelled = false ∧ (s.threads u).dismissed = false

theorem newest_of_none (h : s.mConnectedThread = none) : s.Newest := by
  intro u hu
  rw [h] at hu
  cases hu

theorem connected_newest (s : ChatService) : s.connected.Newest := by
  intro u hu
  obtain rfl := Option.some.inj hu
  refine ⟨rfl, ?_, ?_⟩
  · simp [connected, dismiss, setState, startConnectedThread, spawn]
  · simp [connected, dismiss, setState, startConnectedThread, spawn, Holds]

theorem Newest.goOn (hs : s.Newest) (t : ℕ) (task : ChatTask) : (s.goOn t task).Newest := by
  intro u hu
  rw [goOn_cancelled, goOn_dismissed]
  exact hs u hu

theorem Effect.newest (h : Effect s s') (hs : s.Newest) : s'.Newest := by
  cases h with
  | start => exact newest_of_none (start_fields s).2.2.1
  | connect => exact newest_of_none rfl
  | connected => exact connected_newest s
  | stop => exact newest_of_none rfl
  | goOn t task => exact hs.goOn t task
  | restart t task => exact newest_of_none (start_fields s).2.2.1
  | handOver t task => exact (connected_newest s).goOn t task
  | reset t =>
    refine Newest.goOn (s := { s with mConnectThread := none }) ?_ t .handOver
    exact hs

/-- `connected` cancels the connected thread that there is. -/
theorem connected_cancels {c : ℕ} (hc : s.mConnectedThread = some c) (hborn : c < s.born) :
    (s.connected.threads c).cancelled = true := by
  have hcancel : (s.cancelConnectThread.cancelConnectedThread.threads c).cancelled = true := by
    rw [cancelConnectedThread, cancelConnectThread, hc]
    exact cancel_self _ c
  change (s.cancelAll.spawn .reading c).cancelled = true
  rw [spawn, update_of_ne (show c ≠ s.cancelAll.born from hborn.ne)]
  exact cancel_of_cancelled (cancel_of_cancelled hcancel _) _

/-- `connected` changes the state, or cancels the thread made last. -/
theorem not_keeps_connected (hs : s.Consistent) (hn : s.Newest) {t : ℕ} (ht : t < s.born)
    (hd : (s.threads t).dismissed = true) (task : ChatTask) : ¬ Keeps s (s.connected.goOn t task) t := by
  intro h
  obtain ⟨hstate, hnewer⟩ := h.of_goOn
  obtain ⟨c, hc⟩ := Option.ne_none_iff_exists'.mp (hs.connected_iff.mp hstate.symm)
  obtain ⟨hborn, hcancelled, hdismissed⟩ := hn c hc
  have hne : t ≠ c := by
    rintro rfl
    rw [hd] at hdismissed
    cases hdismissed
  have hcancels := connected_cancels hc (by omega)
  rw [hnewer c (by omega), hcancelled] at hcancels
  cases hcancels

/-! ### Silent steps -/

theorem Ready.lt_born {t : ℕ} (h : s.Ready a) (ha : a.thread = some t) : t < s.born := by
  cases a with
  | start | connect | connected | stop => cases ha
  | acceptReturns u | connectReturns u =>
    obtain rfl := Option.some.inj ha
    exact h.1.1
  | acceptLoop u | acceptThrows u | handleAccepted u | connectThrows u | connectionFailed u | resetConnectThread u
  | handOver u | readThrows u | connectionLost u | restart u =>
    obtain rfl := Option.some.inj ha
    exact h.1

/-- What a step of a thread is silent about. -/
theorem silent_iff_keeps {t : ℕ} (ha : a.thread = some t) (h : s.Ready a) :
    Silent s a ↔ ((s.threads t).dismissed = true → Keeps s (s.act a) t) := by
  constructor
  · exact fun hsilent hd => hsilent t _ ha hd (if_pos h)
  · intro hkeeps u s' hu hd hstep
    obtain rfl := Option.some.inj (ha.symm.trans hu)
    obtain ⟨_, rfl⟩ := step_eq hstep
    exact hkeeps hd

/-- An accept thread hands its socket over in `STATE_LISTEN` and `STATE_CONNECTING`. -/
theorem keeps_handleAccepted_iff (hs : s.Consistent) (hn : s.Newest) {t : ℕ} (ht : t < s.born)
    (hd : (s.threads t).dismissed = true) :
    Keeps s (s.handleAccepted t) t ↔ s.mState = .none ∨ s.mState = .connected := by
  unfold handleAccepted
  cases hstate : s.mState with
  | none => simpa using keeps_goOn s t .acceptLoop
  | listen => simpa using not_keeps_connected hs hn ht hd .acceptLoop
  | connecting => simpa using not_keeps_connected hs hn ht hd .acceptLoop
  | connected => simpa using keeps_goOn s t .acceptLoop

/-- **The steps of cancelled threads that are silent.** -/
theorem silent_iff (hs : s.Consistent) (hn : s.Newest) (h : s.Ready a) : Silent s a ↔ Harmless s a := by
  cases hthread : a.thread with
  | none =>
    refine iff_of_true (fun t s' ht => ?_) ?_
    · rw [hthread] at ht
      cases ht
    · cases a <;> trivial
  | some t =>
    rw [silent_iff_keeps hthread h]
    have hborn := h.lt_born hthread
    cases a with
    | start | connect | connected | stop => cases hthread
    | handleAccepted u =>
      obtain rfl := Option.some.inj hthread
      exact forall_congr' fun hd => keeps_handleAccepted_iff hs hn hborn hd
    | connectionFailed u | connectionLost u | restart u =>
      obtain rfl := Option.some.inj hthread
      exact forall_congr' fun _ => keeps_start_iff hs _ _
    | handOver u =>
      obtain rfl := Option.some.inj hthread
      exact forall_congr' fun hd => iff_false_intro (not_keeps_connected hs hn hborn hd _)
    | resetConnectThread u =>
      obtain rfl := Option.some.inj hthread
      exact iff_of_true (fun _ => ⟨rfl, fun v _ => goOn_cancelled s _ _ v⟩) trivial
    | acceptLoop u | acceptReturns u | acceptThrows u | connectReturns u | connectThrows u | readThrows u =>
      obtain rfl := Option.some.inj hthread
      exact iff_of_true (fun _ => keeps_goOn s _ _) trivial

/-! ### After `stop` -/

/-- Since `stop` returned, every thread there is has been dismissed. -/
def Stopped (s : ChatService) : Prop :=
  ∀ n, s.stopped = some n → s.mState = .none ∧ s.born = n ∧ ∀ t < s.born, (s.threads t).dismissed = true

theorem stopped_of_none (h : s.stopped = none) : s.Stopped := by
  intro n hn
  rw [h] at hn
  cases hn

theorem dismiss_dismissed {t : ℕ} (hborn : t < s.born) (h : ¬ s.Holds t) :
    (s.dismiss.threads t).dismissed = true := by
  simp [dismiss, hborn, h]

theorem stop_stopped (s : ChatService) : { s.stop with stopped := some s.stop.born }.Stopped := by
  intro n hn
  obtain rfl := Option.some.inj hn
  refine ⟨rfl, rfl, fun t ht => ?_⟩
  have hholds : ¬ (s.cancelAll.setState .none).Holds t := by
    simp [Holds, setState, cancelAll, cancelInsecureAcceptThread, cancelSecureAcceptThread,
      cancelConnectedThread, cancelConnectThread]
  exact dismiss_dismissed ht hholds

theorem start_stopped (s : ChatService) : s.start.stopped = s.stopped := by
  unfold start startInsecureAcceptThread startSecureAcceptThread
  split <;> split <;> rfl

theorem Stopped.goOn (hs : s.Stopped) (t : ℕ) (task : ChatTask) : (s.goOn t task).Stopped := by
  intro n hn
  obtain ⟨hstate, hborn, hall⟩ := hs n hn
  exact ⟨hstate, hborn, fun u hu => (goOn_dismissed s t task u).trans (hall u hu)⟩

/-- A thread that may still call a method keeps a service from being stopped. -/
theorem stopped_eq_none (hs : s.Stopped) {t : ℕ} (ht : t < s.born)
    (h : (s.threads t).dismissed = true → s.mState ≠ .none) :
    s.stopped = none := by
  by_contra hne
  obtain ⟨n, hn⟩ := Option.ne_none_iff_exists'.mp hne
  obtain ⟨hstate, _, hall⟩ := hs n hn
  exact h (hall t ht) hstate

theorem Stopped.act (hs : s.Stopped) (hready : s.Ready a) (h : Harmless s a) : (s.act a).Stopped := by
  cases a with
  | start | connect | connected => exact stopped_of_none rfl
  | stop => exact stop_stopped s
  | handleAccepted t =>
    change (s.handleAccepted t).Stopped
    unfold ChatService.handleAccepted
    cases hstate : s.mState with
    | none | connected => exact hs.goOn t _
    | listen | connecting =>
      refine (stopped_of_none (s := s.connected) ?_).goOn t _
      change s.stopped = none
      exact stopped_eq_none hs hready.1 (fun _ hnone => by rw [hstate] at hnone; cases hnone)
  | connectionFailed t | connectionLost t | restart t =>
    refine (stopped_of_none ((start_stopped s).trans ?_)).goOn t _
    exact stopped_eq_none hs hready.1 (fun hd hnone => by rw [h hd] at hnone; cases hnone)
  | handOver t =>
    refine (stopped_of_none (s := s.connected) ?_).goOn t _
    change s.stopped = none
    exact stopped_eq_none hs hready.1 (fun hd _ => h hd)
  | resetConnectThread t => exact Stopped.goOn (s := { s with mConnectThread := none }) hs t _
  | acceptLoop t | acceptReturns t | acceptThrows t | connectReturns t | connectThrows t | readThrows t =>
    exact hs.goOn t _

/-! ### Runs -/

/-- What every step keeps. -/
def Tidy (s : ChatService) : Prop := s.Consistent ∧ s.Newest

theorem tidy_init : Tidy init := ⟨init_consistent, newest_of_none rfl⟩

theorem tidy_step (hs : s.Tidy) (h : step s a = some s') : s'.Tidy :=
  ⟨(Effect.of_step h).consistent hs.1, (Effect.of_step h).newest hs.2⟩

theorem guarded_silent_iff (as : List ChatAction) :
    Guarded step Silent init as ↔ Guarded step Harmless init as :=
  guarded_iff_of_invariant Tidy (fun _ _ _ hs h => tidy_step hs h)
    (fun _ _ _ hs h => silent_iff hs.1 hs.2 (step_eq h).1) as init tidy_init

theorem staysStopped_of_harmless (as : List ChatAction) (h : Guarded step Harmless init as) :
    Always step StaysStopped init as := by
  have hstopped := always_of_guarded Stopped (fun s a s' hs hharmless hstep => ?_) as init (stopped_of_none rfl) h
  · refine hstopped.imp (fun s hs n hn => ?_) as init
    obtain ⟨hstate, hborn, _⟩ := hs n hn
    exact ⟨hstate, hborn⟩
  · obtain ⟨hready, rfl⟩ := step_eq hstep
    exact hs.act hready hharmless

/-- **Cancelled threads have no say, and a stopped service stays stopped, in the runs whose steps
are all harmless, and in no others.** -/
theorem cancelled_have_no_say_iff (as : List ChatAction) :
    Guarded step Silent init as ∧ Always step StaysStopped init as ↔ Guarded step Harmless init as := by
  rw [guarded_silent_iff]
  exact ⟨fun h => h.1, fun h => ⟨h, staysStopped_of_harmless as h⟩⟩

/-- The connection is lost by `stop`, and its thread starts the service over. -/
theorem not_staysStopped_lost :
    ¬ (Guarded step Silent init [.start, .acceptLoop 0, .acceptReturns 0, .handleAccepted 0, .stop, .readThrows 2,
        .connectionLost 2] ∧
      Always step StaysStopped init [.start, .acceptLoop 0, .acceptReturns 0, .handleAccepted 0, .stop, .readThrows 2,
        .connectionLost 2]) := by
  rintro ⟨_, h⟩
  have hend := h.after rfl 3 rfl
  exact absurd hend.1 (by decide)

end GpsTracker.Bluetooth.ChatService
