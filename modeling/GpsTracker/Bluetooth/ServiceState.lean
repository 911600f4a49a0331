import GpsTracker.Bluetooth.ChatService

/-!
# What the state of the service says of its threads

`Consistent` holds whenever the lock of the service is free: the service is in
`STATE_CONNECTED` exactly when it has a connected thread, and then no other; in
`STATE_NONE` it has no thread; in `STATE_LISTEN` it has both accept threads and no
connect thread; and it has a connect thread in `STATE_CONNECTING` only.

Each method brings the fields into such a state (`start_consistent`,
`connected_consistent`, `stop_consistent`) or keeps them in one
(`connect_consistent`, `resetConnectThread_consistent`), and a thread that goes on
touches none. So it holds throughout every run (`consistent_always`), and
`write` finds a thread to write to, and `connect` cancels the one it replaces.
-/

namespace GpsTracker.Bluetooth.ChatService

open GpsTracker.Java GpsTracker.Runs Function

variable {s s' : ChatService} {a : ChatAction}

/-- The state of the service says which of its threads there are. -/
structure Consistent (s : ChatService) : Prop where
  connected_iff : s.mState = .connected ↔ s.mConnectedThread ≠ none
  connected_only : s.mState = .connected →
    s.mConnectThread = none ∧ s.mSecureAcceptThread = none ∧ s.mInsecureAcceptThread = none
  none_only : s.mState = .none → s.mConnectThread = none ∧ s.mConnectedThread = none ∧
    s.mSecureAcceptThread = none ∧ s.mInsecureAcceptThread = none
  listen_only : s.mState = .listen →
    s.mSecureAcceptThread ≠ none ∧ s.mInsecureAcceptThread ≠ none ∧ s.mConnectThread = none
  connecting_of : s.mConnectThread ≠ none → s.mState = .connecting

theorem init_consistent : init.Consistent where
  connected_iff := by simp [init]
  connected_only := nofun
  none_only _ := ⟨rfl, rfl, rfl, rfl⟩
  listen_only := nofun
  connecting_of h := absurd rfl h

/-! ### The fields after a method -/

theorem startSecureAcceptThread_fields (s : ChatService) :
    s.startSecureAcceptThread.mState = s.mState ∧ s.startSecureAcceptThread.mConnectThread = s.mConnectThread ∧
      s.startSecureAcceptThread.mConnectedThread = s.mConnectedThread ∧
      s.startSecureAcceptThread.mInsecureAcceptThread = s.mInsecureAcceptThread ∧
      s.startSecureAcceptThread.mSecureAcceptThread ≠ none := by
  unfold startSecureAcceptThread
  cases h : s.mSecureAcceptThread with
  | none => exact ⟨rfl, rfl, rfl, rfl, Option.some_ne_none _⟩
  | some t => exact ⟨rfl, rfl, rfl, rfl, by simp [h]⟩

theorem startInsecureAcceptThread_fields (s : ChatService) :
    s.startInsecureAcceptThread.mState = s.mState ∧ s.startInsecureAcceptThread.mConnectThread = s.mConnectThread ∧
      s.startInsecureAcceptThread.mConnectedThread = s.mConnectedThread ∧
      s.startInsecureAcceptThread.mSecureAcceptThread = s.mSecureAcceptThread ∧
      s.startInsecureAcceptThread.mInsecureAcceptThread ≠ none := by
  unfold startInsecureAcceptThread
  cases h : s.mInsecureAcceptThread with
  | none => exact ⟨rfl, rfl, rfl, rfl, Option.some_ne_none _⟩
  | some t => exact ⟨rfl, rfl, rfl, rfl, by simp [h]⟩

/-- `start` leaves the two accept threads and no other. -/
theorem start_fields (s : ChatService) :
    s.start.mState = .listen ∧ s.start.mConnectThread = none ∧ s.start.mConnectedThread = none ∧
      s.start.mSecureAcceptThread ≠ none ∧ s.start.mInsecureAcceptThread ≠ none := by
  obtain ⟨h1, h2, h3, h4, h5⟩ :=
    startSecureAcceptThread_fields (s.cancelConnectThread.cancelConnectedThread.setState .listen)
  obtain ⟨k1, k2, k3, k4, k5⟩ := startInsecureAcceptThread_fields
    (s.cancelConnectThread.cancelConnectedThread.setState .listen).startSecureAcceptThread
  refine ⟨k1.trans h1, k2.trans h2, k3.trans h3, ?_, k5⟩
  intro h
  exact h5 (k4.symm.trans h)

theorem start_consistent (s : ChatService) : s.start.Consistent := by
  obtain ⟨hstate, hconnect, hconnected, hsecure, hinsecure⟩ := start_fields s
  constructor
  · simp [hstate, hconnected]
  · simp [hstate]
  · simp [hstate]
  · exact fun _ => ⟨hsecure, hinsecure, hconnect⟩
  · exact fun h => absurd hconnect h

theorem connected_consistent (s : ChatService) : s.connected.Consistent where
  connected_iff := ⟨fun _ => Option.some_ne_none _, fun _ => rfl⟩
  connected_only _ := ⟨rfl, rfl, rfl⟩
  none_only := nofun
  listen_only := nofun
  connecting_of h := absurd rfl h

theorem stop_consistent (s : ChatService) : s.stop.Consistent where
  connected_iff := ⟨nofun, fun h => absurd rfl h⟩
  connected_only := nofun
  none_only _ := ⟨rfl, rfl, rfl, rfl⟩
  listen_only := nofun
  connecting_of h := absurd rfl h

/-- `connect` leaves no connected thread, whatever it does with an attempt. -/
theorem connect_consistent (s : ChatService) : s.connect.Consistent where
  connected_iff := ⟨nofun, fun h => absurd rfl h⟩
  connected_only := nofun
  none_only := nofun
  listen_only := nofun
  connecting_of _ := rfl

/-- A thread that goes on touches no field. -/
theorem Consistent.goOn (hs : s.Consistent) (t : ℕ) (task : ChatTask) : (s.goOn t task).Consistent :=
  ⟨hs.connected_iff, hs.connected_only, hs.none_only, hs.listen_only, hs.connecting_of⟩

theorem Consistent.stopped (hs : s.Consistent) (n : Option ℕ) : { s with stopped := n }.Consistent :=
  ⟨hs.connected_iff, hs.connected_only, hs.none_only, hs.listen_only, hs.connecting_of⟩

/-- The field is cleared apart from the state: it may be clear in every state. -/
theorem resetConnectThread_consistent (hs : s.Consistent) (t : ℕ) : (s.resetConnectThread t).Consistent where
  connected_iff := hs.connected_iff
  connected_only h := ⟨rfl, (hs.connected_only h).2⟩
  none_only h := ⟨rfl, (hs.none_only h).2⟩
  listen_only h := ⟨(hs.listen_only h).1, (hs.listen_only h).2.1, rfl⟩
  connecting_of h := absurd rfl h

/-- Each step keeps it. -/
theorem Effect.consistent (h : Effect s s') (hs : s.Consistent) : s'.Consistent := by
  cases h with
  | start => exact (start_consistent s).stopped none
  | connect => exact (connect_consistent s).stopped none
  | connected => exact (connected_consistent s).stopped none
  | stop => exact (stop_consistent s).stopped _
  | goOn t task => exact hs.goOn t task
  | restart t task => exact (start_consistent s).goOn t task
  | handOver t task => exact (connected_consistent s).goOn t task
  | reset t => exact resetConnectThread_consistent hs t

/-! ### The thread that `connect` replaces -/

/-- The connect thread has been made. -/
def Known (s : ChatService) : Prop := ∀ t, s.mConnectThread = some t → t < s.born

theorem known_of_none (h : s.mConnectThread = none) : s.Known := by
  intro t ht
  rw [h] at ht
  cases ht

theorem connect_known (s : ChatService) : s.connect.Known := by
  intro t ht
  obtain rfl := Option.some.inj ht
  exact Nat.lt_succ_self _

theorem Effect.known (h : Effect s s') (hs : s.Known) : s'.Known := by
  cases h with
  | start => exact known_of_none (start_fields s).2.1
  | connect => exact connect_known s
  | connected => exact known_of_none rfl
  | stop => exact known_of_none rfl
  | goOn t task => exact hs
  | restart t task => exact known_of_none (start_fields s).2.1
  | handOver t task => exact known_of_none rfl
  | reset t => exact known_of_none rfl

theorem cancel_self (threads : ℕ → ChatThread) (t : ℕ) : (cancel threads (some t) t).cancelled = true := by
  simp [cancel]

/-- A thread stays cancelled. -/
theorem cancel_of_cancelled {threads : ℕ → ChatThread} {t : ℕ} (h : (threads t).cancelled = true)
    (x : Option ℕ) :
    (cancel threads x t).cancelled = true := by
  cases x with
  | none => exact h
  | some u =>
    obtain rfl | hne := eq_or_ne t u
    · exact cancel_self threads t
    · rw [cancel, update_of_ne hne]
      exact h

/-- The attempt is in `STATE_CONNECTING`, so the first block of `connect` cancels it. -/
theorem connect_cancels (hs : s.Consistent) (hk : s.Known) {t : ℕ} (ht : s.mConnectThread = some t) :
    (s.connect.threads t).cancelled = true := by
  have hstate : s.mState = .connecting := hs.connecting_of (by simp [ht])
  have hcancel : (s.cancelAttempt.cancelConnectedThread.threads t).cancelled = true := by
    rw [cancelAttempt, if_pos hstate, cancelConnectedThread, cancelConnectThread, ht]
    exact cancel_of_cancelled (cancel_self s.threads t) _
  have hborn : s.cancelAttempt.cancelConnectedThread.born = s.born := by
    rw [cancelAttempt, if_pos hstate]
    rfl
  have hne : t ≠ s.cancelAttempt.cancelConnectedThread.born := by
    rw [hborn]
    exact (hk t ht).ne
  change (s.cancelAttempt.cancelConnectedThread.spawn .connecting t).cancelled = true
  rw [spawn, update_of_ne hne]
  exact hcancel

/-- In `STATE_CONNECTED` there is a thread to write to. -/
theorem write_ok (hs : s.Consistent) : ∃ r, s.write = .ok r := by
  unfold write
  split
  · exact ⟨none, rfl⟩
  · rename_i hstate
    obtain ⟨t, ht⟩ := Option.ne_none_iff_exists'.mp (hs.connected_iff.mp (not_not.mp hstate))
    exact ⟨some t, by rw [ht]; rfl⟩

/-! ### Runs -/

theorem consistent_always (as : List ChatAction) : Always step (fun s => s.Consistent ∧ s.Known) init as :=
  always_of_invariant (fun s => s.Consistent ∧ s.Known)
    (fun _ _ _ hs hstep => ⟨(Effect.of_step hstep).consistent hs.1, (Effect.of_step hstep).known hs.2⟩) as init
    ⟨init_consistent, nofun⟩

/-- **Whenever the lock is free the state of the service says which threads it has, `write` does
not dereference a null thread and `connect` cancels the connect thread that it replaces.** -/
theorem service_state_invariant (as : List ChatAction) :
    Always step (fun s => s.Consistent ∧ (∃ r, s.write = .ok r) ∧
      ∀ t, s.mConnectThread = some t → (s.connect.threads t).cancelled = true) init as := by
  refine (consistent_always as).imp (fun s hs => ?_) as init
  obtain ⟨hconsistent, hknown⟩ := hs
  exact ⟨hconsistent, write_ok hconsistent, fun t ht => connect_cancels hconsistent hknown ht⟩

end GpsTracker.Bluetooth.ChatService
