import GpsTracker.Tcp.Silence

/-!
# The last moment

The sum in `always_kept` is the best one: where it is over two minutes, a run that is
as slow as the pace allows is closed although the device never stops. The run is
put together from idle stretches, in which the two threads look once a millisecond
and find nothing to do (`leads_idle`), or only one of them does (`leads_served`,
`leads_watched`), and from the steps of the keep-alives between them.
-/

namespace GpsTracker.Tcp.KeepAlive

open GpsTracker.Java GpsTracker.Runs

/-! ### States of the run -/

/-- A connection with both ends. -/
def live (now : ℕ) (client : Client) (transit available : List Chunk) (action : SocketAction)
    (keepAlives : ℕ) : Connection
    where
  now := now
  client := client
  transit := transit
  available := available
  action := some action
  running := true
  keepAlives := keepAlives
  uploads := 0
  cuts := 0

/-- A `SocketAction` at its test. -/
def testing (received since reads : ℕ) (written : List Output) : SocketAction where
  run := true
  lastReceiveTime := received
  lastSendTime := 0
  serving := .test
  since := since
  accepted := 0
  timedOut := false
  reads := reads
  written := written

section Steps

variable {pace : Pace} {now last received reads keepAlives : ℕ} {client : Client} {transit available : List Chunk}
  {action : SocketAction} {written : List Output}

theorem leads_wait (d : ℕ) (hclient : now + d ≤ client.since + pace.watch)
    (htransit : ∀ chunk ∈ transit, now + d ≤ chunk.time + pace.transit) (haction : now + d ≤ action.since + pace.serve) :
    Leads step (Prompt pace) (live now client transit available action keepAlives) [.wait d]
      (live (now + d) client transit available action keepAlives) := by
  refine .cons ⟨fun _ => hclient, htransit, fun a ha _ => ?_⟩ rfl (.nil _)
  obtain rfl := Option.some.inj ha
  exact haction

/-- The watchdog finds that the delay is not over. -/
theorem leads_check (since : ℕ) (h : now - last ≤ keepAliveDelay) :
    Leads step (Prompt pace) (live now ⟨true, last, .check, since⟩ transit available action keepAlives) [.watch true]
      (live now ⟨true, last, .check, now⟩ transit available action keepAlives) := by
  refine .cons rfl ?_ (.nil _)
  simp [step, live, Connection.watch, Client.watch, Nat.not_lt.mpr h]

/-- The watchdog finds that the delay is over. -/
theorem leads_late (since : ℕ) (h : keepAliveDelay < now - last) :
    Leads step (Prompt pace) (live now ⟨true, last, .check, since⟩ transit available action keepAlives) [.watch true]
      (live now ⟨true, last, .send, now⟩ transit available action keepAlives) := by
  refine .cons rfl ?_ (.nil _)
  simp [step, live, Connection.watch, Client.watch, h]

/-- The keep-alive. -/
theorem leads_keepAlive (since : ℕ) :
    Leads step (Prompt pace) (live now ⟨true, last, .send, since⟩ transit available action keepAlives) [.watch true]
      (live now ⟨true, last, .stamp, now⟩ (transit ++ [⟨now, ack, List.cons_ne_nil _ _⟩]) available action
        (keepAlives + 1)) :=
  .cons rfl rfl (.nil _)

/-- The time of the keep-alive is set. -/
theorem leads_stamp (since : ℕ) :
    Leads step (Prompt pace) (live now ⟨true, last, .stamp, since⟩ transit available action keepAlives) [.watch true]
      (live now ⟨true, now, .check, now⟩ transit available action keepAlives) :=
  .cons rfl rfl (.nil _)

theorem leads_arrive (chunk : Chunk) :
    Leads step (Prompt pace) (live now client [chunk] [] action keepAlives) [.arrive]
      (live now client [] [{ chunk with time := now }] action keepAlives) :=
  .cons trivial rfl (.nil _)

/-- The test of the `SocketAction`. -/
theorem step_test (since : ℕ) (fault : Fault) (h : now - received ≤ receiveTimeDelay) :
    step (live now client transit available (testing received since reads written) keepAlives) (.serve fault) =
      some (live now client transit available { testing received now reads written with serving := .ask } keepAlives) := by
  simp [step, live, testing, Connection.serve, Connection.unread, SocketAction.serve, Nat.not_lt.mpr h]

/-- It fails to send a request, if one is due. -/
theorem step_ask (since : ℕ) :
    step (live now client transit available { testing received since reads written with serving := .ask } keepAlives)
        (.serve .output) =
      some (live now client transit available { testing received now reads written with serving := .read } keepAlives) := by
  simp [step, live, testing, Connection.serve, Connection.unread, SocketAction.serve]

/-- One round that finds nothing. -/
theorem leads_round (since : ℕ) (h : now - received ≤ receiveTimeDelay) :
    Leads step (Prompt pace) (live now client transit [] (testing received since reads written) keepAlives)
      [.serve .output, .serve .output, .serve .output]
      (live now client transit [] (testing received now reads written) keepAlives) := by
  refine .cons trivial (step_test since .output h) (.cons trivial (step_ask now) (.cons trivial ?_ (.nil _)))
  simp [step, live, testing, Connection.serve, Connection.unread, Connection.recedata, SocketAction.serve]

/-- One round that reads a keep-alive. -/
theorem leads_read (since time : ℕ) (hne : ack ≠ []) (h : now - received ≤ receiveTimeDelay) :
    Leads step (Prompt pace)
      (live now client transit [⟨time, ack, hne⟩] (testing received since reads written) keepAlives)
      [.serve .output, .serve .output, .serve .none]
      (live now client transit [] (testing now now (reads + 1) (written ++ [.reply ack])) keepAlives) :=
  .cons trivial (step_test since .output h) (.cons trivial (step_ask now) (.cons trivial rfl (.nil _)))

/-- The `SocketAction` finds that nothing has come for too long. -/
theorem leads_timeOut (since : ℕ) (h : receiveTimeDelay < now - received) :
    Leads step (Prompt pace) (live now client transit available (testing received since reads written) keepAlives)
      [.serve .none]
      (live now client transit available { testing received now reads written with run := false, timedOut := true }
        keepAlives) := by
  refine .cons trivial ?_ (.nil _)
  simp [step, live, testing, Connection.serve, Connection.unread, SocketAction.serve, SocketAction.overThis, h]

end Steps

/-! ### Idle stretches -/

/-- A millisecond in which both threads look. -/
def idle : List Action := [.wait 1, .watch true, .serve .output, .serve .output, .serve .output]

/-- A millisecond in which the `SocketAction` looks. -/
def served : List Action := [.wait 1, .serve .output, .serve .output, .serve .output]

/-- A millisecond in which the watchdog looks. -/
def watched : List Action := [.wait 1, .watch true]

section Stretches

variable {pace : Pace} (hwatch : 0 < pace.watch) (hserve : 0 < pace.serve) (now last received reads keepAlives : ℕ)
  (written : List Output)

include hwatch hserve in
theorem leads_idle (n : ℕ) (transit : List Chunk) (hlast : now + n - last ≤ keepAliveDelay)
    (hreceived : now + n - received ≤ receiveTimeDelay)
    (htransit : ∀ chunk ∈ transit, now + n ≤ chunk.time + pace.transit) :
    Leads step (Prompt pace)
      (live now ⟨true, last, .check, now⟩ transit [] (testing received now reads written) keepAlives)
      (List.replicate n idle).flatten
      (live (now + n) ⟨true, last, .check, now + n⟩ transit [] (testing received (now + n) reads written) keepAlives) := by
  refine Leads.iterate (fun i => live (now + i) ⟨true, last, .check, now + i⟩ transit []
    (testing received (now + i) reads written) keepAlives) fun i hi => ?_
  have hwait : Leads step (Prompt pace)
      (live (now + i) ⟨true, last, .check, now + i⟩ transit [] (testing received (now + i) reads written) keepAlives) _ _ :=
    leads_wait 1 (Nat.add_le_add_left hwatch _) (fun chunk hchunk => le_trans (by omega) (htransit chunk hchunk))
      (Nat.add_le_add_left hserve _)
  exact ((leads_round _ (by omega)).trans (leads_check _ (by omega))).trans hwait

include hserve in
theorem leads_served (n since : ℕ) (watchdog : WatchDog) (hsince : now + n ≤ since + pace.watch)
    (hreceived : now + n - received ≤ receiveTimeDelay) :
    Leads step (Prompt pace)
      (live now ⟨true, last, watchdog, since⟩ [] [] (testing received now reads written) keepAlives)
      (List.replicate n served).flatten
      (live (now + n) ⟨true, last, watchdog, since⟩ [] [] (testing received (now + n) reads written) keepAlives) := by
  refine Leads.iterate (fun i => live (now + i) ⟨true, last, watchdog, since⟩ [] []
    (testing received (now + i) reads written) keepAlives) fun i hi => ?_
  have hwait : Leads step (Prompt pace)
      (live (now + i) ⟨true, last, watchdog, since⟩ [] [] (testing received (now + i) reads written) keepAlives) _ _ :=
    leads_wait 1 (le_trans (by omega) hsince) nofun (Nat.add_le_add_left hserve _)
  exact (leads_round _ (by omega)).trans hwait

include hwatch in
theorem leads_watched (n : ℕ) (available : List Chunk) (action : SocketAction)
    (hlast : now + n - last ≤ keepAliveDelay) (haction : now + n ≤ action.since + pace.serve) :
    Leads step (Prompt pace) (live now ⟨true, last, .check, now⟩ [] available action keepAlives)
      (List.replicate n watched).flatten
      (live (now + n) ⟨true, last, .check, now + n⟩ [] available action keepAlives) := by
  refine Leads.iterate (fun i => live (now + i) ⟨true, last, .check, now + i⟩ [] available action keepAlives)
    fun i hi => ?_
  have hwait : Leads step (Prompt pace)
      (live (now + i) ⟨true, last, .check, now + i⟩ [] available action keepAlives) _ _ :=
    leads_wait 1 (Nat.add_le_add_left hwatch _) nofun (le_trans (by omega) haction)
  exact (leads_check _ (by omega)).trans hwait

end Stretches

/-! ### The run -/

/-- Until the first keep-alive is read; the watchdog has not yet set its time. -/
theorem leads_first {pace : Pace} (hwatch : 0 < pace.watch) (hserve : 0 < pace.serve) :
    ∃ as, Leads step (Prompt pace) .init as
      (live (keepAliveDelay + 1) ⟨true, 0, .stamp, keepAliveDelay + 1⟩ [] []
        (testing (keepAliveDelay + 1) (keepAliveDelay + 1) 1 [.reply ack]) 1) := by
  have hdelay : keepAliveDelay = 60000 := rfl
  have hreceive : receiveTimeDelay = 120000 := rfl
  have haccept : Leads step (Prompt pace) .init [.accept] (live 0 ⟨true, 0, .check, 0⟩ [] [] (testing 0 0 0 []) 0) :=
    .cons trivial rfl (.nil _)
  have hidle := leads_idle hwatch hserve 0 0 0 0 0 [] keepAliveDelay [] (by omega) (by omega) nofun
  rw [Nat.zero_add] at hidle
  have hwait : Leads step (Prompt pace)
      (live keepAliveDelay ⟨true, 0, .check, keepAliveDelay⟩ [] [] (testing 0 keepAliveDelay 0 []) 0) _ _ :=
    leads_wait 1 (Nat.add_le_add_left hwatch _) nofun (Nat.add_le_add_left hserve _)
  have hlate := (leads_keepAlive _).trans ((leads_late _ (by omega)).trans hwait)
  exact ⟨_, (leads_read _ _ _ (by omega)).trans ((leads_arrive _).trans (hlate.trans (hidle.trans haccept)))⟩

/-- From there to the second keep-alive, as late as it can be: the stamp, the test that just fails, the
test that succeeds and the sending are a step of the watchdog apart. -/
theorem leads_second {pace : Pace} (hwatch : 0 < pace.watch) (hserve : 0 < pace.serve) (read : ℕ)
    (hsum : pace.gap ≤ receiveTimeDelay) (reads keepAlives : ℕ) (written : List Output) :
    ∃ as, Leads step (Prompt pace)
      (live read ⟨true, 0, .stamp, read⟩ [] [] (testing read read reads written) keepAlives) as
      (live (read + pace.gap) ⟨true, read + pace.gap, .check, read + pace.gap⟩
        [⟨read + pace.gap, ack, List.cons_ne_nil _ _⟩] [] (testing read (read + pace.gap) reads written)
        (keepAlives + 1)) := by
  have hgap : read + pace.gap = read + pace.watch + keepAliveDelay + pace.watch + pace.watch := by
    rw [Pace.gap]
    omega
  rw [Pace.gap] at hsum
  have hstamp := (leads_stamp _).trans
    (leads_served hserve read 0 read reads keepAlives written pace.watch read .stamp le_rfl (by omega))
  have hidle := leads_idle hwatch hserve (read + pace.watch) (read + pace.watch) read reads keepAlives written
    keepAliveDelay [] (by omega) (by omega) (by simp)
  have hlate := (leads_late _ (by omega)).trans
    (leads_served hserve (read + pace.watch + keepAliveDelay) (read + pace.watch) read reads keepAlives written pace.watch
      (read + pace.watch + keepAliveDelay) .check le_rfl (by omega))
  have hsend := (leads_stamp _).trans ((leads_keepAlive _).trans
    (leads_served hserve (read + pace.watch + keepAliveDelay + pace.watch) (read + pace.watch) read reads keepAlives written
      pace.watch (read + pace.watch + keepAliveDelay + pace.watch) .send le_rfl (by omega)))
  rw [hgap]
  exact ⟨_, hsend.trans (hlate.trans (hidle.trans hstamp))⟩

/-- From there to the end of the connection, with the keep-alive unread. -/
theorem leads_last {pace : Pace} (hwatch : 0 < pace.watch) (hserve : 0 < pace.serve) {read sent : ℕ}
    (hsent : sent = read + pace.gap) (hsum : pace.gap + pace.transit + pace.serve = receiveTimeDelay + 1)
    (reads keepAlives : ℕ) (written : List Output) :
    ∃ as s, Leads step (Prompt pace)
      (live sent ⟨true, sent, .check, sent⟩ [⟨sent, ack, List.cons_ne_nil _ _⟩] []
        (testing read sent reads written) keepAlives) as s ∧ ¬ Kept s := by
  have hdelay : keepAliveDelay = 60000 := rfl
  have hreceive : receiveTimeDelay = 120000 := rfl
  rw [Pace.gap] at hsent hsum
  have hidle := leads_idle hwatch hserve sent sent read reads keepAlives written pace.transit
    [⟨sent, ack, List.cons_ne_nil _ _⟩] (by omega) (by omega) (by simp)
  have hwatched := leads_watched hwatch (sent + pace.transit) sent keepAlives pace.serve
    [⟨sent + pace.transit, ack, List.cons_ne_nil _ _⟩] (testing read (sent + pace.transit) reads written) (by omega) le_rfl
  refine ⟨_, _, (leads_timeOut _ (by omega)).trans (hwatched.trans ((leads_arrive _).trans hidle)),
    fun hkept => ?_⟩
  cases hkept _ rfl

/-! ### The sum decides -/

/-- A slower pace allows more runs. -/
theorem Prompt.mono {pace pace' : Pace} (hwatch : pace.watch ≤ pace'.watch)
    (htransit : pace.transit ≤ pace'.transit) (hserve : pace.serve ≤ pace'.serve) (s : Connection)
    (a : Action) (h : Prompt pace s a) : Prompt pace' s a := by
  cases a with
  | wait d =>
    exact ⟨fun hgoing => (h.1 hgoing).trans (Nat.add_le_add_left hwatch _),
      fun chunk hchunk => (h.2.1 chunk hchunk).trans (Nat.add_le_add_left htransit _),
      fun action haction hgoing => (h.2.2 action haction hgoing).trans (Nat.add_le_add_left hserve _)⟩
  | _ => exact h

/-- A pace with too large a sum is as slow as one whose sum is just too large. -/
theorem exists_pace {pace : Pace} (hwatch : 0 < pace.watch) (hserve : 0 < pace.serve)
    (hsum : receiveTimeDelay < pace.gap + pace.transit + pace.serve) :
    ∃ exact : Pace, exact.watch ≤ pace.watch ∧ exact.transit ≤ pace.transit ∧ exact.serve ≤ pace.serve ∧
      0 < exact.watch ∧ 0 < exact.serve ∧ exact.gap + exact.transit + exact.serve = receiveTimeDelay + 1 := by
  have hdelay : keepAliveDelay = 60000 := rfl
  have hreceive : receiveTimeDelay = 120000 := rfl
  simp only [Pace.gap] at hsum ⊢
  by_cases hfast : pace.watch < 20000
  · let serve := min pace.serve (60001 - 3 * pace.watch)
    refine ⟨⟨pace.watch, 60001 - 3 * pace.watch - serve, serve⟩, le_rfl, ?_, min_le_left _ _, hwatch, ?_, ?_⟩
    · simp only [serve]
      omega
    · simp only [serve]
      omega
    · simp only [serve]
      omega
  · exact ⟨⟨20000, 0, 1⟩, Nat.not_lt.mp hfast, Nat.zero_le _, hserve, by decide, Nat.one_pos, by decide⟩

/-- With a sum over two minutes, a prompt run is closed for its silence. -/
theorem exists_not_kept {pace : Pace} (hwatch : 0 < pace.watch) (hserve : 0 < pace.serve)
    (hsum : receiveTimeDelay < pace.gap + pace.transit + pace.serve) :
    ∃ as, Guarded step (Prompt pace) .init as ∧ ¬ Always step Kept .init as := by
  obtain ⟨pace', hw, ht, hs, hwatch', hserve', hsum'⟩ := exists_pace hwatch hserve hsum
  obtain ⟨first, hfirst⟩ := leads_first hwatch' hserve'
  obtain ⟨second, hsecond⟩ := leads_second hwatch' hserve' (keepAliveDelay + 1) (by omega) 1 1 [.reply ack]
  obtain ⟨last, s, hlast, hkept⟩ := leads_last hwatch' hserve' rfl hsum' 1 2 [.reply ack]
  have hall := hlast.trans (hsecond.trans hfirst)
  exact ⟨_, hall.1.imp (Prompt.mono hw ht hs) _ _, hall.not_always hkept⟩

/-- **A device that never stops is never given up, whatever it uploads and however the threads and
the network are scheduled at a pace, exactly when the delay of the keep-alive, three steps of the
watchdog, the way of the bytes and a step of the `SocketAction` add up to two minutes at most.** -/
theorem always_kept_iff {pace : Pace} (hwatch : 0 < pace.watch) (hserve : 0 < pace.serve) :
    (∀ as, Guarded step (Prompt pace) .init as → Always step Kept .init as) ↔
      keepAliveDelay + 3 * pace.watch + pace.transit + pace.serve ≤ receiveTimeDelay := by
  constructor
  · intro h
    by_contra hsum
    obtain ⟨as, hprompt, hkept⟩ := exists_not_kept hwatch hserve (Nat.not_le.mp hsum)
    exact hkept (h as hprompt)
  · exact fun hsum as hprompt => always_kept hsum as hprompt

theorem always_kept_iff_seconds :
    (∀ as, Guarded step (Prompt ⟨10000, 20000, 9000⟩) .init as → Always step Kept .init as) ∧
      ¬ ∀ as, Guarded step (Prompt ⟨10000, 20000, 11000⟩) .init as → Always step Kept .init as :=
  ⟨(always_kept_iff (by decide) (by decide)).mpr (by decide),
    fun h => absurd ((always_kept_iff (by decide) (by decide)).mp h) (by decide)⟩

end GpsTracker.Tcp.KeepAlive
