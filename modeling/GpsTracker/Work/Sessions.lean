import GpsTracker.Library.Runs
import GpsTracker.Work.Messages
import Mathlib.Logic.Function.Basic

/-!
# Location sessions

The GPS mode, the fallback of the check task and the requests of the server start
sessions on the one `LocationUtil`, each with a few calls from a thread of its own.
A fix is uploaded by the listener in the slot, which then destroys the client, and
so do a check that finds a fence and a change of mode (`DestroySite`). The calls of
all threads are interleaved in any order.

There is one slot and one client, and a session takes both. So one that waits for
its fix is ready exactly as long as the others yield to it: none registers its
listener or destroys the client meanwhile, and a session finds the client at each
of its calls, with its own listener in the slot and the client listening at the
last one (`Yields`). A session whose call has thrown waits for its fix in vain.

The invariant behind this is `Sound`: the listener in the slot is that of its owner.
That a thread has only calls of its own left is a field of `LocationThread`.
-/

namespace GpsTracker.Work

open GpsTracker.Java GpsTracker.Upload GpsTracker.Runs Function

/-! ### Threads -/

/-- Where the client is destroyed and no session is started. -/
inductive DestroySite where
  /-- `WifiConnectCheckTask.run`, when a check has found a fence. -/
  | check
  /-- `changeWifiWordMode`. -/
  | changeWifiWordMode
  /-- `changeDefalutWordMode`. -/
  | changeDefalutWordMode
  deriving DecidableEq, Repr

/-- What a thread does with the singleton. -/
inductive LocationUser where
  /-- It starts a session. -/
  | session (locationInterval : JInt) (listener : ProofLocationListener)
  /-- It is in `onLoacationChange`, after the upload. -/
  | callback
  /-- It is at one of the sites that destroy the client. -/
  | destroy (site : DestroySite)
  deriving DecidableEq, Repr

/-- The calls it makes. -/
def LocationUser.calls : LocationUser → List LocationCall
  | .session locationInterval listener => sessionCalls locationInterval listener
  | .callback => destroyCalls
  | .destroy _ => destroyCalls

/-- It starts a session. -/
def LocationUser.Starts (user : LocationUser) : Prop :=
  ∃ locationInterval listener, user = .session locationInterval listener

/-- A thread. -/
structure LocationThread where
  /-- What it does. -/
  user : LocationUser
  /-- The calls that are left, if none has thrown. -/
  left : Option (List LocationCall)
  /-- They are the last ones of its calls. -/
  suffix : ∀ cs, left = some cs → cs <:+ user.calls

namespace LocationThread

/-- It has made no call yet. -/
def fresh (user : LocationUser) : LocationThread where
  user := user
  left := some user.calls
  suffix _ h := Option.some.inj h ▸ List.suffix_rfl

variable (thread : LocationThread) {c : LocationCall} {cs : List LocationCall}

/-- It has made its next call. -/
def next (h : thread.left = some (c :: cs)) : LocationThread where
  user := thread.user
  left := some cs
  suffix _ h' := Option.some.inj h' ▸ (List.suffix_cons c cs).trans (thread.suffix _ h)

/-- A call has thrown. -/
def failed : LocationThread := { thread with left := none, suffix := nofun }

end LocationThread

/-! ### The system -/

/-- The singleton and the threads that use it. -/
structure Sessions where
  /-- `LocationUtil`. -/
  location : LocationUtil
  /-- The session whose listener is in the slot. -/
  owner : Option ℕ
  /-- The threads by number; a session has the number of its thread. -/
  threads : ℕ → LocationThread
  /-- How many there have been. -/
  born : ℕ
  /-- The uploads, with the session whose listener made them. -/
  sent : List (Option ℕ × UploadMessage)

/-- What can happen. -/
inductive SessionAction where
  /-- A user comes to start a session. -/
  | start (locationInterval : JInt) (listener : ProofLocationListener)
  /-- A check finds a fence, or the mode is changed. -/
  | destroy (site : DestroySite)
  /-- A thread makes its next call. -/
  | call (t : ℕ)
  /-- The client has a fix. -/
  | fix (loc : Option AMapLocation) (datetime : JString)

namespace Sessions

/-- Before the first session. -/
def init : Sessions where
  location := .fresh
  owner := none
  threads _ := { user := .callback, left := none, suffix := nofun }
  born := 0
  sent := []

variable (s : Sessions)

/-- A new thread. -/
def spawn (user : LocationUser) : Sessions :=
  { s with threads := update s.threads s.born (.fresh user), born := s.born + 1 }

/-- Who owns the slot after a call. -/
def ownerAfter (t : ℕ) : LocationCall → Option ℕ
  | .setProofLocationListener _ => some t
  | _ => s.owner

/-- A thread makes a call. -/
def call {t : ℕ} {c : LocationCall} {cs : List LocationCall}
    (h : (s.threads t).left = some (c :: cs)) : Sessions :=
  match c.apply s.location with
  | .ok location =>
    { s with
      location := location
      owner := s.ownerAfter t c
      threads := update s.threads t ((s.threads t).next h) }
  | .error _ => { s with threads := update s.threads t (s.threads t).failed }

/-- `onLocationChanged`: the listener uploads, and its thread goes on to destroy the client. -/
def locationChanged (valueOf : JDouble → JString) (devid : Option JString) (loc : Option AMapLocation)
    (datetime : JString) : Sessions :=
  match s.location.onLocationChanged loc with
  | some (listener, loc) =>
    { s with sent := s.sent ++ [(s.owner, listener.onLoacationChange valueOf devid datetime loc)] }.spawn .callback
  | none => s

/-- The system after an action, if it is possible. -/
def step (valueOf : JDouble → JString) (devid : Option JString) (s : Sessions) : SessionAction → Option Sessions
  | .start locationInterval listener => some (s.spawn (.session locationInterval listener))
  | .destroy site => some (s.spawn (.destroy site))
  | .call t =>
    match h : (s.threads t).left with
    | some (_ :: _) => some (s.call h)
    | some [] => none
    | none => none
  | .fix loc datetime =>
    if s.location.Running then some (s.locationChanged valueOf devid loc datetime) else none

/-! ### What is claimed -/

/-- The listener of the session has made an upload. -/
def Delivered (t : ℕ) : Prop := ∃ upload, (some t, upload) ∈ s.sent

/-- The thread has calls left. -/
def InProgress (t : ℕ) : Prop := ∃ c cs, (s.threads t).left = some (c :: cs)

/-- The session was started, or one of its calls has thrown, and it has not delivered. -/
def Pending (t : ℕ) : Prop := (s.threads t).user.Starts ∧ ¬ s.InProgress t ∧ ¬ s.Delivered t

/-- Its listener is in the slot, and the client is running. -/
def Ready (t : ℕ) : Prop :=
  ∃ locationInterval listener, (s.threads t).user = .session locationInterval listener ∧ s.owner = some t ∧
    Able s.location listener

/-- The type of the frames of a session. -/
def frameType : ProofLocationListener → MessageType
  | .request => .singalRequestLocation
  | _ => .wifiFailLocation

/-- When a fix arrives, the session uploads a frame of its own type. -/
def Answers (valueOf : JDouble → JString) (devid : Option JString) (s : Sessions) (t : ℕ) : Prop :=
  ∀ locationInterval listener, (s.threads t).user = .session locationInterval listener →
    ∀ loc datetime, loc.errorCode = 0 → ∃ s' upload, step valueOf devid s (.fix (some loc) datetime) = some s' ∧
      s'.sent = s.sent ++ [(some t, upload)] ∧ upload.type = frameType listener

/-- A call that yields to the sessions that are pending, and finds what it needs in a session of its own. -/
def Yields (s : Sessions) : SessionAction → Prop
  | .call t =>
    match (s.threads t).left with
    | some (.onDestroy :: _) => ∀ n, ¬ s.Pending n
    | some (.setProofLocationListener _ :: _) => ∀ n, ¬ s.Pending n
    | some (.gpsLocationOption _ :: _) => ¬ s.Delivered t → s.location.locationClient ≠ none
    | some (.gpsonceLocationOption :: _) => ¬ s.Delivered t → s.location.locationClient ≠ none
    | some (.startLocation :: _) => ¬ s.Delivered t → ∃ locationClient, s.location.locationClient = some locationClient ∧
        locationClient.listening = true ∧ s.owner = some t
    | _ => True
  | _ => True

section Steps

variable {valueOf : JDouble → JString} {devid : Option JString} {s s' : Sessions} {a : SessionAction} {t n : ℕ}
  {c : LocationCall} {cs : List LocationCall} {user : LocationUser} {sent : List (Option ℕ × UploadMessage)}

@[simp] theorem spawn_threads_self :
    ({ s with sent := sent }.spawn user).threads s.born = .fresh user := update_self _ _ _

theorem spawn_threads_of_ne (hne : n ≠ s.born) : ({ s with sent := sent }.spawn user).threads n = s.threads n :=
  update_of_ne hne _ _

theorem call_ok {u : LocationUtil} (hleft : (s.threads t).left = some (c :: cs))
    (h : c.apply s.location = .ok u) :
    s.call hleft = { s with
      location := u
      owner := s.ownerAfter t c
      threads := update s.threads t ((s.threads t).next hleft) } := by
  rw [call, h]

theorem call_error {e : Exn} (hleft : (s.threads t).left = some (c :: cs)) (h : c.apply s.location = .error e) :
    s.call hleft = { s with threads := update s.threads t (s.threads t).failed } := by
  rw [call, h]

@[simp] theorem call_sent (hleft : (s.threads t).left = some (c :: cs)) : (s.call hleft).sent = s.sent := by
  unfold call
  split <;> rfl

@[simp] theorem call_user (hleft : (s.threads t).left = some (c :: cs)) :
    ((s.call hleft).threads n).user = (s.threads n).user := by
  obtain rfl | hne := eq_or_ne n t
  · unfold call
    split
    · simp [LocationThread.next]
    · simp [LocationThread.failed]
  · unfold call
    split
    · exact congrArg LocationThread.user (update_of_ne hne _ _)
    · exact congrArg LocationThread.user (update_of_ne hne _ _)

/-- The other threads stay where they are. -/
theorem call_left_of_ne (hleft : (s.threads t).left = some (c :: cs)) (hne : n ≠ t) :
    ((s.call hleft).threads n).left = (s.threads n).left := by
  unfold call
  split
  · exact congrArg LocationThread.left (update_of_ne hne _ _)
  · exact congrArg LocationThread.left (update_of_ne hne _ _)

/-- A thread that has not ended by an exception has made its call. -/
theorem call_left_self (hleft : (s.threads t).left = some (c :: cs)) {ds : List LocationCall}
    (h : ((s.call hleft).threads t).left = some ds) : ds = cs ∧ ∃ u, c.apply s.location = .ok u := by
  cases happly : c.apply s.location with
  | ok u =>
    rw [call_ok hleft happly] at h
    dsimp only at h
    rw [update_self] at h
    exact ⟨(Option.some.inj h).symm, u, rfl⟩
  | error e =>
    rw [call_error hleft happly] at h
    dsimp only at h
    rw [update_self] at h
    cases h

theorem call_delivered (hleft : (s.threads t).left = some (c :: cs)) :
    (s.call hleft).Delivered n ↔ s.Delivered n := by
  rw [Delivered, Delivered, call_sent]

theorem call_inProgress_of_ne (hleft : (s.threads t).left = some (c :: cs)) (hne : n ≠ t) :
    (s.call hleft).InProgress n ↔ s.InProgress n := by
  rw [InProgress, InProgress, call_left_of_ne hleft hne]

/-- Another session is pending after the call if it was before. -/
theorem call_pending_of_ne (hleft : (s.threads t).left = some (c :: cs)) (hne : n ≠ t) :
    (s.call hleft).Pending n ↔ s.Pending n := by
  rw [Pending, Pending, call_user, call_inProgress_of_ne hleft hne, call_delivered]

theorem Pending.ne (h : s.Pending n) (hleft : (s.threads t).left = some (c :: cs)) : n ≠ t := by
  rintro rfl
  exact h.2.1 ⟨c, cs, hleft⟩

/-! ### The calls of a thread -/

/-- Only a session registers a listener, and its own. -/
theorem registers_own {listener : ProofLocationListener}
    (h : .setProofLocationListener listener ∈ user.calls) :
    ∃ locationInterval, user = .session locationInterval listener := by
  cases user with
  | session locationInterval k => cases k <;> simp_all [LocationUser.calls, sessionCalls]
  | callback | destroy site => simp [LocationUser.calls, destroyCalls] at h

/-- The other users only get the instance and destroy the client. -/
theorem calls_of_not_starts (h : ¬ user.Starts) : user.calls = destroyCalls := by
  cases user with
  | session locationInterval listener => exact absurd ⟨_, _, rfl⟩ h
  | callback | destroy site => rfl

/-- All other calls are made by sessions. -/
theorem starts_of_mem (h : c ∈ user.calls) (hget : c ≠ .getInstance) (hdestroy : c ≠ .onDestroy) :
    user.Starts := by
  by_contra huser
  rw [calls_of_not_starts huser] at h
  simp [destroyCalls, hget, hdestroy] at h

/-- The last call of a session starts the client, the last call of another user destroys it. -/
theorem last_call (h : [c] <:+ user.calls) :
    user.Starts ∧ c = .startLocation ∨ ¬ user.Starts ∧ c = .onDestroy := by
  obtain ⟨before, hbefore⟩ := h
  have hlast := congrArg List.getLast? hbefore
  rw [List.getLast?_concat] at hlast
  by_cases huser : user.Starts
  · obtain ⟨locationInterval, listener, rfl⟩ := huser
    refine Or.inl ⟨⟨_, _, rfl⟩, ?_⟩
    cases listener <;> exact Option.some.inj hlast
  · rw [calls_of_not_starts huser] at hlast
    exact Or.inr ⟨huser, Option.some.inj hlast⟩

/-- The call that starts the client is the last one. -/
theorem nil_of_startLocation (h : .startLocation :: cs <:+ user.calls) : cs = [] := by
  obtain ⟨locationInterval, listener, rfl⟩ := starts_of_mem (h.mem List.mem_cons_self) nofun nofun
  cases listener <;> simpa [LocationUser.calls, sessionCalls, List.suffix_cons_iff] using h

/-- A session that a call leaves pending was started by it, or the call has thrown. -/
theorem pending_call_cases (hleft : (s.threads t).left = some (c :: cs)) (h : (s.call hleft).Pending t) :
    (s.threads t).user.Starts ∧ ¬ s.Delivered t ∧
      ((c = .startLocation ∧ cs = [] ∧ ∃ u, c.apply s.location = .ok u) ∨ ∃ e, c.apply s.location = .error e) := by
  obtain ⟨huser, hdone, hsent⟩ := h
  rw [call_user] at huser
  rw [call_delivered] at hsent
  refine ⟨huser, hsent, ?_⟩
  cases happly : c.apply s.location with
  | error e => exact Or.inr ⟨e, rfl⟩
  | ok u =>
    cases cs with
    | nil =>
      obtain ⟨-, hstart⟩ | ⟨hnot, -⟩ := last_call ((s.threads t).suffix _ hleft)
      · exact Or.inl ⟨hstart, rfl, u, rfl⟩
      · exact absurd huser hnot
    | cons d ds =>
      refine absurd ⟨d, ds, ?_⟩ hdone
      rw [call_ok hleft happly]
      simp [LocationThread.next]

/-- The listener in the slot is that of the owner, uploads are made by sessions, and threads to come
have done nothing. -/
structure Sound (s : Sessions) : Prop where
  owned : ∀ t, s.owner = some t → ∃ locationInterval listener,
    (s.threads t).user = .session locationInterval listener ∧ s.location.listener = some listener
  delivered : ∀ t, s.Delivered t → (s.threads t).user.Starts
  unborn : ∀ t, s.born ≤ t → (s.threads t).user = .callback ∧ (s.threads t).left = none

/-- The next thread has started no session. -/
theorem Sound.ne_born (hs : s.Sound) (h : (s.threads t).user.Starts) : t ≠ s.born := by
  rintro rfl
  obtain ⟨locationInterval, listener, huser⟩ := h
  cases huser.symm.trans (hs.unborn s.born le_rfl).1

theorem Sound.spawn (hs : s.Sound) (user : LocationUser)
    (hsent : ∀ t upload, (some t, upload) ∈ sent → s.Delivered t ∨ s.owner = some t) :
    Sound ({ s with sent := sent }.spawn user) := by
  have hsession : ∀ t, s.Delivered t ∨ s.owner = some t → (s.threads t).user.Starts := by
    rintro t (hdelivered | howner)
    · exact hs.delivered t hdelivered
    · obtain ⟨locationInterval, listener, huser, _⟩ := hs.owned t howner
      exact ⟨locationInterval, listener, huser⟩
  constructor
  · intro t howner
    obtain ⟨locationInterval, listener, huser, hlistener⟩ := hs.owned t howner
    refine ⟨locationInterval, listener, ?_, hlistener⟩
    rw [spawn_threads_of_ne (hs.ne_born (hsession t (.inr howner))), huser]
  · rintro t ⟨upload, hmem⟩
    have huser := hsession t (hsent t upload hmem)
    rw [spawn_threads_of_ne (hs.ne_born huser)]
    exact huser
  · intro t ht
    have hne : t ≠ s.born := by
      rintro rfl
      exact absurd ht (Nat.not_succ_le_self _)
    rw [spawn_threads_of_ne hne]
    exact hs.unborn t ((Nat.le_succ _).trans ht)

theorem Sound.call (hs : s.Sound) (hleft : (s.threads t).left = some (c :: cs)) : Sound (s.call hleft) := by
  constructor
  · intro n howner
    rw [call_user]
    cases happly : c.apply s.location with
    | error e =>
      rw [call_error hleft happly] at howner ⊢
      exact hs.owned n howner
    | ok u =>
      rw [call_ok hleft happly] at howner ⊢
      by_cases hregister : ∃ listener, c = .setProofLocationListener listener
      · obtain ⟨listener, rfl⟩ := hregister
        obtain rfl := Except.ok.inj happly
        obtain rfl := Option.some.inj howner
        obtain ⟨locationInterval, huser⟩ := registers_own (((s.threads t).suffix _ hleft).mem List.mem_cons_self)
        exact ⟨locationInterval, listener, huser, rfl⟩
      · rw [not_exists] at hregister
        have hsame : s.ownerAfter t c = s.owner := by
          cases c with
          | setProofLocationListener listener => exact absurd rfl (hregister listener)
          | getInstance | init | onDestroy | gpsLocationOption | gpsonceLocationOption | startLocation => rfl
        dsimp only at howner ⊢
        rw [hsame] at howner
        rw [listener_apply happly hregister]
        exact hs.owned n howner
  · intro n hn
    rw [call_user]
    exact hs.delivered n ((call_delivered hleft).mp hn)
  · intro n hn
    have hborn : s.born ≤ n := by
      unfold Sessions.call at hn
      split at hn
      · exact hn
      · exact hn
    have hne : n ≠ t := by
      rintro rfl
      cases hleft.symm.trans (hs.unborn n hborn).2
    rw [call_user, call_left_of_ne hleft hne]
    exact hs.unborn n hborn

/-- A fix does nothing, or the listener of the owner uploads it. -/
theorem locationChanged_cases (valueOf : JDouble → JString) (devid : Option JString) (s : Sessions)
    (fix : Option AMapLocation) (datetime : JString) :
    s.locationChanged valueOf devid fix datetime = s ∨ ∃ upload, s.locationChanged valueOf devid fix datetime =
      { s with sent := s.sent ++ [(s.owner, upload)] }.spawn .callback := by
  unfold locationChanged
  split
  · exact .inr ⟨_, rfl⟩
  · exact .inl rfl

/-- All sessions that are pending are ready. -/
def AllReady (s : Sessions) : Prop := ∀ t, s.Pending t → s.Ready t

/-- A session that is ready stays so when a call registers no listener and does not destroy the client. -/
theorem Ready.call (h : s.Ready n) (hleft : (s.threads t).left = some (c :: cs)) (hdestroy : c ≠ .onDestroy)
    (hregister : ∀ k, c ≠ .setProofLocationListener k) : (s.call hleft).Ready n := by
  obtain ⟨locationInterval, listener, huser, howner, hable⟩ := h
  obtain ⟨u, happly, hable'⟩ := able_apply hable hdestroy hregister
  refine ⟨locationInterval, listener, ?_, ?_, ?_⟩
  · rw [call_user, huser]
  · rw [call_ok hleft happly]
    cases c with
    | setProofLocationListener k => exact absurd rfl (hregister k)
    | getInstance | init | onDestroy | gpsLocationOption | gpsonceLocationOption | startLocation => exact howner
  · rw [call_ok hleft happly]
    exact hable'

/-- A call of this kind leaves all sessions ready if it leaves its own. -/
theorem AllReady.call (h : s.AllReady) (hleft : (s.threads t).left = some (c :: cs)) (hdestroy : c ≠ .onDestroy)
    (hregister : ∀ k, c ≠ .setProofLocationListener k) (hself : (s.call hleft).Pending t → (s.call hleft).Ready t) :
    (s.call hleft).AllReady := by
  intro n hn
  obtain rfl | hne := eq_or_ne n t
  · exact hself hn
  · exact (h n ((call_pending_of_ne hleft hne).mp hn)).call hleft hdestroy hregister

theorem calls_ne_nil (user : LocationUser) : user.calls ≠ [] := by
  cases user with
  | session locationInterval listener => cases listener <;> exact List.cons_ne_nil _ _
  | callback | destroy site => exact List.cons_ne_nil _ _

/-- A thread that has just come is not pending, and an upload makes no session pending. -/
theorem Pending.of_spawn (hsent : s.sent ⊆ sent)
    (h : Pending ({ s with sent := sent }.spawn user) n) :
    n ≠ s.born ∧ s.Pending n ∧ ∀ upload, (some n, upload) ∉ sent := by
  obtain ⟨huser, hdone, hundelivered⟩ := h
  obtain rfl | hne := eq_or_ne n s.born
  · obtain ⟨c, cs, hcalls⟩ := List.exists_cons_of_ne_nil (calls_ne_nil user)
    refine absurd ⟨c, cs, ?_⟩ hdone
    rw [spawn_threads_self]
    exact congrArg some hcalls
  · rw [InProgress, spawn_threads_of_ne hne] at hdone
    rw [spawn_threads_of_ne hne] at huser
    refine ⟨hne, ⟨huser, hdone, ?_⟩, fun upload hmem => hundelivered ⟨upload, hmem⟩⟩
    rintro ⟨upload, hmem⟩
    exact hundelivered ⟨upload, hsent hmem⟩

theorem Ready.spawn (h : s.Ready n) (hne : n ≠ s.born) :
    Ready ({ s with sent := sent }.spawn user) n := by
  obtain ⟨locationInterval, listener, huser, howner, hable⟩ := h
  refine ⟨locationInterval, listener, ?_, howner, hable⟩
  rw [spawn_threads_of_ne hne]
  exact huser

theorem AllReady.spawn (hall : s.AllReady) (user : LocationUser) (hsent : s.sent ⊆ sent) :
    AllReady ({ s with sent := sent }.spawn user) := by
  intro n hn
  obtain ⟨hne, hpending, _⟩ := hn.of_spawn hsent
  exact (hall n hpending).spawn hne

end Steps

end Sessions

end GpsTracker.Work
