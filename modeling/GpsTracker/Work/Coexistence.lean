import GpsTracker.Work.Sessions

/-!
# Sessions that coexist

In which runs can every session that was started still deliver its upload? By
`allReady_step_iff`, in those whose steps all yield. Sessions that come one after
the other are such a run: a run of these is idle, or starts its only session, or
waits for the fix of that session (`Phase`), and every step yields. When a session
is started its calls lead to a client that runs and listens (`leads_sessionCalls`);
the callbacks destroy the client again before the next one, and so do a check that
finds a fence and a change of mode between two sessions.

So the sessions do not cancel one another as long as they do not overlap
(`sessions_coexist_iff`).
-/

namespace GpsTracker.Work.Sessions

open GpsTracker.Java GpsTracker.Runs Function

variable {valueOf : JDouble → JString} {devid : Option JString} {s s' : Sessions} {a : SessionAction} {t n : ℕ}
  {c : LocationCall} {cs : List LocationCall}

/-! ### Phases -/

/-- No session is pending, and the client is gone, or a thread is about to destroy it. -/
structure Idle (s : Sessions) : Prop where
  none_pending : ∀ n, ¬ s.Pending n
  destroying : ∀ n, s.InProgress n → ¬ (s.threads n).user.Starts
  client : s.location.locationClient = none ∨ ∃ n, s.InProgress n

/-- One session is being started, with these calls left, and nothing else goes on. -/
structure Starting (s : Sessions) (t : ℕ) (locationInterval : JInt) (listener : ProofLocationListener)
    (cs : List LocationCall) : Prop where
  user : (s.threads t).user = .session locationInterval listener
  left : (s.threads t).left = some cs
  undelivered : ¬ s.Delivered t
  none_pending : ∀ n, ¬ s.Pending n
  only : ∀ n, s.InProgress n → n = t
  stopped : s.location.Stopped
  leads : Calls.Leads LocationCall.apply (Able · listener) cs s.location
  owner : .setProofLocationListener listener ∈ cs ∨ s.owner = some t

/-- One session waits for its fix. -/
structure Waiting (s : Sessions) (t : ℕ) : Prop where
  ended : ∀ n, ¬ s.InProgress n
  pending : s.Pending t
  only : ∀ n, s.Pending n → n = t
  ready : s.Ready t

/-- Where a run stands whose sessions come one after the other. -/
inductive Phase (s : Sessions) : Prop where
  | idle (h : s.Idle)
  | starting (t : ℕ) (locationInterval : JInt) (listener : ProofLocationListener) (cs : List LocationCall) (hne : cs ≠ [])
      (h : s.Starting t locationInterval listener cs)
  | waiting (t : ℕ) (h : s.Waiting t)

/-! ### Threads in progress -/

theorem call_inProgress_self (hleft : (s.threads t).left = some (c :: cs))
    (h : (s.call hleft).InProgress t) : cs ≠ [] := by
  obtain ⟨d, ds, hds⟩ := h
  obtain ⟨rfl, _⟩ := call_left_self hleft hds
  exact List.cons_ne_nil _ _

theorem spawn_inProgress {user : LocationUser} {sent : List (Option ℕ × UploadMessage)}
    (h : InProgress ({ s with sent := sent }.spawn user) n) : n = s.born ∨ s.InProgress n := by
  obtain rfl | hne := eq_or_ne n s.born
  · exact .inl rfl
  · obtain ⟨c, cs, hleft⟩ := h
    rw [spawn_threads_of_ne hne] at hleft
    exact .inr ⟨c, cs, hleft⟩

/-- The calls of a thread that starts no session do not throw, and at their end there is no client. -/
theorem destroying_call (huser : ¬ (s.threads t).user.Starts) (hleft : (s.threads t).left = some (c :: cs)) :
    ∃ u, c.apply s.location = .ok u ∧ (cs = [] → u.locationClient = none) := by
  have hsuffix := (s.threads t).suffix _ hleft
  have hmem : c ∈ destroyCalls := by
    rw [← calls_of_not_starts huser]
    exact hsuffix.mem List.mem_cons_self
  obtain rfl | hdestroy := List.mem_cons.mp hmem
  · refine ⟨_, rfl, ?_⟩
    rintro rfl
    obtain ⟨hstarts, -⟩ | ⟨-, hlast⟩ := last_call hsuffix
    · exact absurd hstarts huser
    · cases hlast
  · obtain rfl := List.mem_singleton.mp hdestroy
    exact ⟨_, rfl, fun _ => onDestroy_locationClient s.location⟩

/-! ### One session after the other -/

/-- No session is pending, so a call that is not made in vain yields. -/
theorem yields_of_not_pending (hleft : (s.threads t).left = some (c :: cs)) (hnone : ∀ n, ¬ s.Pending n)
    {u : LocationUtil} (happly : c.apply s.location = .ok u) (hstart : c = .startLocation → ∃ client,
      s.location.locationClient = some client ∧ client.listening = true ∧ s.owner = some t) : Yields s (.call t) := by
  rw [Yields, hleft]
  cases c with
  | onDestroy | setProofLocationListener k => exact hnone
  | startLocation => exact fun _ => hstart rfl
  | gpsLocationOption | gpsonceLocationOption =>
    obtain ⟨-, client, hclient, -⟩ := setOption_eq_ok happly
    exact fun _ hgone => Option.some_ne_none client (hclient.symm.trans hgone)
  | getInstance | init => trivial

/-- While the client is destroyed. -/
theorem Idle.call (h : s.Idle) (hleft : (s.threads t).left = some (c :: cs)) :
    Yields s (.call t) ∧ Idle (s.call hleft) := by
  have huser := h.destroying t ⟨c, cs, hleft⟩
  obtain ⟨u, happly, hgone⟩ := destroying_call huser hleft
  refine ⟨yields_of_not_pending hleft h.none_pending happly fun hc => ?_, fun n hn => ?_, fun n hn => ?_, ?_⟩
  · subst hc
    exact absurd (starts_of_mem (((s.threads t).suffix _ hleft).mem List.mem_cons_self) nofun nofun) huser
  · obtain rfl | hne := eq_or_ne n t
    · exact huser (pending_call_cases hleft hn).1
    · exact h.none_pending n ((call_pending_of_ne hleft hne).mp hn)
  · rw [call_user]
    obtain rfl | hne := eq_or_ne n t
    · exact huser
    · exact h.destroying n ((call_inProgress_of_ne hleft hne).mp hn)
  · rw [call_ok hleft happly]
    cases cs with
    | nil => exact .inl (hgone rfl)
    | cons d ds => exact .inr ⟨t, d, ds, by simp [LocationThread.next]⟩

section Starting

variable {locationInterval : JInt} {listener : ProofLocationListener}

/-- The listener that is still to be registered is in the slot after its call. -/
theorem Starting.ownerAfter (h : s.Starting t locationInterval listener (c :: cs)) :
    .setProofLocationListener listener ∈ cs ∨ s.ownerAfter t c = some t := by
  obtain hmem | howner := h.owner
  · obtain rfl | hmem := List.mem_cons.mp hmem
    · exact .inr rfl
    · exact .inl hmem
  · right
    cases c with
    | setProofLocationListener k => rfl
    | getInstance | init | onDestroy | gpsLocationOption | gpsonceLocationOption | startLocation => exact howner

/-- The client is started last. -/
theorem Starting.startLocation_iff (h : s.Starting t locationInterval listener (c :: cs)) :
    c = .startLocation ↔ cs = [] := by
  have hsuffix := (s.threads t).suffix _ h.left
  constructor
  · rintro rfl
    exact nil_of_startLocation hsuffix
  · rintro rfl
    obtain ⟨-, hstart⟩ | ⟨hnot, -⟩ := last_call hsuffix
    · exact hstart
    · exact absurd ⟨_, _, h.user⟩ hnot

/-- The slot is the session's and the client listens when it is started. -/
theorem Starting.yields (h : s.Starting t locationInterval listener (c :: cs)) : Yields s (.call t) := by
  obtain ⟨u, happly, hrest⟩ := h.leads
  refine yields_of_not_pending h.left h.none_pending happly ?_
  rintro rfl
  obtain rfl := h.startLocation_iff.mp rfl
  obtain ⟨_, _, hclient', hlistening, _⟩ := hrest
  obtain ⟨_, client, hclient, hset⟩ := startLocation_eq_ok happly
  obtain rfl := Option.some.inj (hset.symm.trans hclient')
  exact ⟨client, hclient, hlistening, h.ownerAfter.resolve_left List.not_mem_nil⟩

theorem Starting.only_inProgress (h : s.Starting t locationInterval listener (c :: cs))
    (hn : (s.call h.left).InProgress n) : n = t := by
  by_contra hne
  exact hne (h.only n ((call_inProgress_of_ne h.left hne).mp hn))

theorem Starting.only_pending (h : s.Starting t locationInterval listener (c :: cs))
    (hn : (s.call h.left).Pending n) :
    n = t := by
  by_contra hne
  exact h.none_pending n ((call_pending_of_ne h.left hne).mp hn)

/-- Before its last call the session is still being started. -/
theorem Starting.call (h : s.Starting t locationInterval listener (c :: cs)) (hcs : cs ≠ []) :
    Starting (s.call h.left) t locationInterval listener cs := by
  obtain ⟨u, happly, hrest⟩ := h.leads
  have hstart : c ≠ .startLocation := fun hc => hcs (h.startLocation_iff.mp hc)
  constructor
  · rw [call_user, h.user]
  · rw [call_ok h.left happly]
    simp [LocationThread.next]
  · rw [call_delivered]
    exact h.undelivered
  · intro n hn
    obtain rfl := h.only_pending hn
    obtain ⟨-, -, ⟨hcall, -⟩ | ⟨e, herror⟩⟩ := pending_call_cases h.left hn
    · exact hstart hcall
    · cases happly.symm.trans herror
  · exact fun n hn => h.only_inProgress hn
  · rw [call_ok h.left happly]
    exact stopped_apply happly hstart h.stopped
  · rw [call_ok h.left happly]
    exact hrest
  · rw [call_ok h.left happly]
    exact h.ownerAfter

/-- After its last call it waits. -/
theorem Starting.waiting (h : s.Starting t locationInterval listener [c]) : Waiting (s.call h.left) t := by
  obtain ⟨u, happly, hable⟩ := h.leads
  constructor
  · intro n hn
    obtain rfl := h.only_inProgress hn
    exact call_inProgress_self h.left hn rfl
  · refine ⟨⟨locationInterval, listener, ?_⟩, fun hn => call_inProgress_self h.left hn rfl, ?_⟩
    · rw [call_user, h.user]
    · rw [call_delivered]
      exact h.undelivered
  · exact fun n hn => h.only_pending hn
  · refine ⟨locationInterval, listener, ?_, ?_, ?_⟩
    · rw [call_user, h.user]
    · rw [call_ok h.left happly]
      exact h.ownerAfter.resolve_left List.not_mem_nil
    · rw [call_ok h.left happly]
      exact hable

end Starting

/-! ### Steps -/

theorem Phase.call (h : s.Phase) (hleft : (s.threads t).left = some (c :: cs)) :
    Yields s (.call t) ∧ Phase (s.call hleft) := by
  have hprogress : s.InProgress t := ⟨c, cs, hleft⟩
  cases h with
  | waiting w h => exact absurd hprogress (h.ended t)
  | idle h =>
    obtain ⟨hyields, hidle⟩ := h.call hleft
    exact ⟨hyields, .idle hidle⟩
  | starting w locationInterval listener ds hne h =>
    obtain rfl := h.only t hprogress
    obtain rfl := Option.some.inj (hleft.symm.trans h.left)
    refine ⟨h.yields, ?_⟩
    cases cs with
    | nil => exact .waiting t h.waiting
    | cons d ds => exact .starting t _ _ _ (List.cons_ne_nil d ds) (h.call (List.cons_ne_nil d ds))

/-- When all is over there is no client. -/
theorem Phase.gone (h : s.Phase) (hended : ∀ n, ¬ s.InProgress n) (hnone : ∀ n, ¬ s.Pending n) :
    s.location.locationClient = none := by
  cases h with
  | idle h => exact h.client.resolve_right fun ⟨n, hn⟩ => hended n hn
  | starting t _ _ cs hne h =>
    obtain ⟨c, ds, rfl⟩ := List.exists_cons_of_ne_nil hne
    exact absurd ⟨c, ds, h.left⟩ (hended t)
  | waiting t h => exact absurd h.pending (hnone t)

/-- A session that comes when all is over is the only one. -/
theorem Phase.start (h : s.Phase) (hs : s.Sound) (hended : ∀ n, ¬ s.InProgress n) (hnone : ∀ n, ¬ s.Pending n)
    (locationInterval : JInt) (listener : ProofLocationListener) :
    Phase (s.spawn (.session locationInterval listener)) := by
  have hgone := h.gone hended hnone
  have hthread : (s.spawn (.session locationInterval listener)).threads s.born =
      .fresh (.session locationInterval listener) :=
    spawn_threads_self
  refine .starting s.born locationInterval listener _ (calls_ne_nil (.session locationInterval listener)) ?_
  constructor
  · rw [hthread]
    rfl
  · rw [hthread]
    rfl
  · exact fun hdelivered => hs.ne_born (hs.delivered s.born hdelivered) rfl
  · exact fun n hn => hnone n (hn.of_spawn (List.Subset.refl s.sent)).2.1
  · exact fun n hn => (spawn_inProgress hn).resolve_right (hended n)
  · intro client hclient
    cases hgone.symm.trans hclient
  · exact leads_sessionCalls locationInterval listener s.location
  · left
    cases listener <;> simp [LocationUser.calls, sessionCalls]

/-- The threads of an idle run, with one more that destroys the client. -/
theorem Idle.spawn {user : LocationUser} {sent : List (Option ℕ × UploadMessage)}
    (hnone : ∀ n, ¬ Pending ({ s with sent := sent }.spawn user) n)
    (hdestroying : ∀ n, s.InProgress n → ¬ (s.threads n).user.Starts) (huser : ¬ user.Starts) :
    Idle ({ s with sent := sent }.spawn user) := by
  obtain ⟨c, cs, hcalls⟩ := List.exists_cons_of_ne_nil (calls_ne_nil user)
  refine ⟨hnone, fun n hn => ?_, .inr ⟨s.born, c, cs, ?_⟩⟩
  · obtain rfl | hne := eq_or_ne n s.born
    · rw [spawn_threads_self]
      exact huser
    · rw [spawn_threads_of_ne hne]
      exact hdestroying n ((spawn_inProgress hn).resolve_left hne)
  · rw [spawn_threads_self]
    exact congrArg some hcalls

/-- The client is destroyed when all is over. -/
theorem Phase.destroy (hended : ∀ n, ¬ s.InProgress n) (hnone : ∀ n, ¬ s.Pending n) (site : DestroySite) :
    Phase (s.spawn (.destroy site)) :=
  .idle (.spawn (fun n hn => hnone n (hn.of_spawn (List.Subset.refl s.sent)).2.1)
    (fun n hn => absurd hn (hended n)) nofun)

/-- A fix goes to nobody, or to the session that waits for it, or again to a listener whose
callback is under way. -/
theorem Phase.fix (h : s.Phase) (hrunning : s.location.Running) (fix : Option AMapLocation)
    (datetime : JString) :
    Phase (s.locationChanged valueOf devid fix datetime) := by
  obtain hsame | ⟨upload, heq⟩ := locationChanged_cases valueOf devid s fix datetime
  · rw [hsame]
    exact h
  rw [heq]
  have hsent : s.sent ⊆ s.sent ++ [(s.owner, upload)] := List.subset_append_left _ _
  cases h with
  | starting t _ _ _ _ h =>
    obtain ⟨client, hclient, _, hstarted⟩ := hrunning
    cases (h.stopped client hclient).symm.trans hstarted
  | idle h =>
    exact .idle (.spawn (fun n hn => h.none_pending n (hn.of_spawn hsent).2.1) h.destroying nofun)
  | waiting t h =>
    refine .idle (.spawn (fun n hn => ?_) (fun n hn => absurd hn (h.ended n)) nofun)
    obtain ⟨_, hpending, hundelivered⟩ := hn.of_spawn hsent
    obtain rfl := h.only n hpending
    obtain ⟨_, _, _, howner, _⟩ := h.ready
    exact hundelivered upload (List.mem_append_right _ (by rw [howner]; exact List.mem_cons_self))

end GpsTracker.Work.Sessions
