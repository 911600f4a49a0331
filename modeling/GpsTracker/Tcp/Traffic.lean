import GpsTracker.Tcp.KeepAlive

/-!
# Traffic

How much the two ends of a connection send is bounded by the clock and by the
uploads: the watchdog lets more than a minute pass between two keep-alives, the
`SocketAction` more than half a minute between two requests, and it replies to a
read once, whatever it takes: several messages, or a piece of one, so that what the
network cuts is replied to more often. Nothing is assumed of the pace; a thread that
is late sends less, never more to make up for it.
-/

namespace GpsTracker.Tcp.KeepAlive

open GpsTracker.Java GpsTracker.Runs

/-! ### The device -/

/-- Since the connection began, a minute has passed for every keep-alive. -/
structure Spaced (s : Connection) : Prop where
  sent_le : s.client.lastSendTime ≤ s.client.since
  since_le : s.client.since ≤ s.now
  due : s.client.watchdog = .send → s.client.lastSendTime + keepAliveDelay < s.client.since
  count : s.keepAlives * (keepAliveDelay + 1) ≤ s.client.since
  count_sent : s.client.watchdog ≠ .stamp → s.keepAlives * (keepAliveDelay + 1) ≤ s.client.lastSendTime

theorem Spaced.init : Spaced .init := ⟨le_rfl, le_rfl, nofun, le_rfl, fun _ => le_rfl⟩

/-- A test of the watchdog leaves its time and goes on when the delay is over. -/
theorem Client.watch_check {client : Client} (h : client.watchdog = .check) (now : ℕ) (ok : Bool) :
    (client.watch now ok).lastSendTime = client.lastSendTime ∧ (client.watch now ok).since = now ∧
      (client.watch now ok).watchdog ≠ .stamp ∧
      ((client.watch now ok).watchdog = .send → client.lastSendTime + keepAliveDelay < now) := by
  simp only [Client.watch, h]
  split_ifs with hrun hlate
  · exact ⟨rfl, rfl, by simp, by simp⟩
  · exact ⟨rfl, rfl, by simp, fun _ => Nat.add_lt_of_lt_sub' hlate⟩
  · exact ⟨rfl, rfl, by simp, by simp⟩

theorem Spaced.step {s s' : Connection} {a : Action} (hs : Spaced s) (h : Step s a s') : Spaced s' := by
  have hsent := hs.sent_le
  have hsince := hs.since_le
  cases h with
  | wait d => exact { hs with since_le := Nat.le_add_right_of_le hsince }
  | check ok hpc =>
    obtain ⟨hlast, hnow, hstamp, hdue⟩ := Client.watch_check hpc s.now ok
    have hcount := hs.count_sent (by rw [hpc]; exact nofun)
    refine ⟨?_, hnow.le, fun hsend => ?_, ?_, fun _ => ?_⟩
    · rw [hlast, hnow]
      exact hsent.trans hsince
    · rw [hlast, hnow]
      exact hdue hsend
    · rw [hnow]
      exact hcount.trans (hsent.trans hsince)
    · rw [hlast]
      exact hcount
  | keepAlive hpc =>
    have hdue := hs.due hpc
    have hcount := hs.count_sent (by rw [hpc]; exact nofun)
    refine ⟨hsent.trans hsince, le_rfl, nofun, ?_, fun h => absurd rfl h⟩
    simp only [Nat.add_one_mul]
    omega
  | fail hpc =>
    exact ⟨hsent.trans hsince, le_rfl, nofun, hs.count.trans hsince, fun h => absurd rfl h⟩
  | stamp ok hpc => exact ⟨le_rfl, le_rfl, nofun, hs.count.trans hsince, fun _ => hs.count.trans hsince⟩
  | stop => exact { hs with }
  | upload buffer hne => exact { hs with }
  | cut htransit hn => exact { hs with }
  | arrive htransit => exact { hs with }
  | accept haction => exact { hs with }
  | serve haction hserved => exact { hs with }
  | stopServer => exact { hs with }

/-! ### The server -/

/-- The requests among what was written. -/
def SocketAction.requests (action : SocketAction) : ℕ := action.written.countP Output.isRequest

/-- The replies among it. -/
def SocketAction.replies (action : SocketAction) : ℕ := action.written.countP fun output => !output.isRequest

/-- Since it was accepted, half a minute has passed for every request. -/
structure Restrained (now : ℕ) (action : SocketAction) : Prop where
  sent_le : action.lastSendTime ≤ action.since
  since_le : action.since ≤ now
  count : action.accepted + action.requests * (requestDelay + 1) ≤ action.since
  count_sent : action.serving ≠ .stamp → action.accepted + action.requests * (requestDelay + 1) ≤ action.lastSendTime
  replies_le : action.replies ≤ action.reads

theorem Restrained.new (now : ℕ) : Restrained now (.new now) := by
  have hcount : now + SocketAction.requests (.new now) * (requestDelay + 1) ≤ now := by
    rw [SocketAction.requests, SocketAction.new, List.countP_nil, Nat.zero_mul]
    exact le_rfl
  exact ⟨le_rfl, le_rfl, hcount, fun _ => hcount, le_rfl⟩

/-- A step that writes nothing and does not go to the stamp. -/
theorem Restrained.on {now : ℕ} {action action' : SocketAction} (hs : Restrained now action)
    (hpc : action.serving ≠ .stamp) (hsent : action'.lastSendTime = action.lastSendTime) (hsince : action'.since = now)
    (haccepted : action'.accepted = action.accepted) (hwritten : action'.written = action.written)
    (hreads : action.reads ≤ action'.reads) : Restrained now action' := by
  have hcount : action'.accepted + action'.requests * (requestDelay + 1) ≤ action'.lastSendTime := by
    rw [haccepted, SocketAction.requests, hwritten, hsent]
    exact hs.count_sent hpc
  have hlast : action'.lastSendTime ≤ now := by
    rw [hsent]
    exact hs.sent_le.trans hs.since_le
  refine ⟨hsince ▸ hlast, hsince.le, hsince ▸ hcount.trans hlast, fun _ => hcount, ?_⟩
  rw [SocketAction.replies, hwritten]
  exact hs.replies_le.trans hreads

theorem Restrained.serve {running : Bool} {now : ℕ} {recedata : List Byte} {fault : Fault}
    {action action' : SocketAction} (hs : Restrained now action)
    (h : Served action running now recedata fault action') : Restrained now action' := by
  have hsent := hs.sent_le.trans hs.since_le
  cases h with
  | leave _ hpc => exact hs.on (by rw [hpc]; exact nofun) rfl rfl rfl rfl le_rfl
  | timeOut _ hpc => exact hs.on (by rw [hpc]; exact nofun) rfl rfl rfl rfl le_rfl
  | pass _ hpc => exact hs.on (by rw [hpc]; exact nofun) rfl rfl rfl rfl le_rfl
  | request _ hpc hlate =>
    have hcount := hs.count_sent (by rw [hpc]; exact nofun)
    have hrequests : (action.written ++ [Output.request now]).countP Output.isRequest = action.requests + 1 := by
      rw [List.countP_append]
      rfl
    refine ⟨hsent, le_rfl, ?_, fun h => absurd rfl h, ?_⟩
    · rw [SocketAction.requests, hrequests, Nat.add_one_mul]
      simp only
      omega
    · rw [SocketAction.replies, List.countP_append]
      exact hs.replies_le
  | skip _ hpc => exact hs.on (by rw [hpc]; exact nofun) rfl rfl rfl rfl le_rfl
  | stamp => exact ⟨le_rfl, le_rfl, hs.count.trans hs.since_le, fun _ => hs.count.trans hs.since_le, hs.replies_le⟩
  | fail hpc => exact hs.on (by rw [hpc]; exact nofun) rfl rfl rfl rfl le_rfl
  | nothing _ hpc => exact hs.on (by rw [hpc]; exact nofun) rfl rfl rfl rfl le_rfl
  | reply _ backdata hpc =>
    have hcount := hs.count_sent (by rw [hpc]; exact nofun)
    have hrequests : (action.written ++ [Output.reply backdata]).countP Output.isRequest = action.requests := by
      rw [List.countP_append]
      rfl
    refine ⟨hsent, le_rfl, ?_, fun _ => ?_, ?_⟩
    · rw [SocketAction.requests, hrequests]
      exact hcount.trans hsent
    · rw [SocketAction.requests, hrequests]
      exact hcount
    · rw [SocketAction.replies, List.countP_append]
      exact Nat.succ_le_succ hs.replies_le
  | throw _ hpc => exact hs.on (by rw [hpc]; exact nofun) rfl rfl rfl rfl (Nat.le_succ _)

/-- The two ends together: what was read was sent, or is a piece of it. -/
structure Accounted (s : Connection) : Prop where
  spaced : Spaced s
  restrained : ∀ action ∈ s.action, Restrained s.now action
  chunks : s.transit.length + s.available.length + (s.action.elim 0 SocketAction.reads) ≤
    s.keepAlives + s.uploads + s.cuts

theorem Accounted.init : Accounted .init := ⟨.init, nofun, le_rfl⟩

theorem Restrained.wait {now : ℕ} {action : SocketAction} (hs : Restrained now action) (d : ℕ) :
    Restrained (now + d) action :=
  { hs with since_le := Nat.le_add_right_of_le hs.since_le }

/-- A read takes one chunk at least. -/
theorem Served.reads_le {s : Connection} {fault : Fault} {action action' : SocketAction}
    (h : Served action s.running s.now s.recedata fault action') :
    action'.reads + (s.unread action fault).length ≤ action.reads + s.available.length := by
  have hunread : (s.unread action fault).length ≤ s.available.length := by
    rw [Connection.unread]
    split_ifs
    · exact Nat.zero_le _
    · exact le_rfl
  have hread (hpc : action.serving = .read) (hfault : fault ≠ .input) (hrecedata : s.recedata ≠ []) :
      action.reads + 1 + (s.unread action fault).length ≤ action.reads + s.available.length := by
    rw [Connection.unread_read hpc hfault]
    have := List.length_pos_of_ne_nil fun hempty => hrecedata (Connection.recedata_eq_nil.mpr hempty)
    rw [List.length_nil]
    omega
  cases h with
  | reply _ _ hpc hrecedata hfault => exact hread hpc hfault hrecedata
  | throw _ hpc hrecedata hfault => exact hread hpc hfault hrecedata
  | _ => exact Nat.add_le_add_left hunread _

theorem Accounted.step {s s' : Connection} {a : Action} (hs : Accounted s) (h : Step s a s') :
    Accounted s' := by
  have hspaced := hs.spaced.step h
  have hchunks := hs.chunks
  cases h with
  | wait d => exact ⟨hspaced, fun action haction => (hs.restrained action haction).wait d, hchunks⟩
  | check ok hpc => exact ⟨hspaced, hs.restrained, hchunks⟩
  | keepAlive hpc =>
    refine ⟨hspaced, hs.restrained, ?_⟩
    rw [List.length_append, List.length_singleton]
    simp only
    omega
  | fail hpc => exact ⟨hspaced, hs.restrained, hchunks⟩
  | stamp ok hpc => exact ⟨hspaced, hs.restrained, hchunks⟩
  | stop => exact ⟨hspaced, hs.restrained, hchunks⟩
  | upload buffer hne =>
    refine ⟨hspaced, hs.restrained, ?_⟩
    rw [List.length_append, List.length_singleton]
    simp only
    omega
  | cut htransit hn =>
    refine ⟨hspaced, hs.restrained, ?_⟩
    rw [htransit, List.length_cons] at hchunks
    rw [List.length_cons, List.length_cons]
    simp only
    omega
  | arrive htransit =>
    refine ⟨hspaced, hs.restrained, ?_⟩
    rw [htransit, List.length_cons] at hchunks
    rw [List.length_append, List.length_singleton]
    simp only
    omega
  | accept haction =>
    refine ⟨hspaced, fun action h => ?_, ?_⟩
    · obtain rfl := Option.some.inj h
      exact .new s.now
    · rw [haction] at hchunks
      exact hchunks
  | serve haction hserved =>
    refine ⟨hspaced, fun a ha => ?_, ?_⟩
    · obtain rfl := Option.some.inj ha
      exact (hs.restrained _ haction).serve hserved
    · have hreads := hserved.reads_le
      rw [haction] at hchunks
      simp only [Option.elim] at hchunks ⊢
      omega
  | stopServer => exact ⟨hspaced, hs.restrained, hchunks⟩

/-- The bounds on what was sent. -/
def Bounded (s : Connection) : Prop :=
  s.keepAlives * (keepAliveDelay + 1) ≤ s.now ∧
    ∀ action ∈ s.action, action.requests * (requestDelay + 1) ≤ s.now - action.accepted ∧
      action.replies ≤ s.keepAlives + s.uploads + s.cuts

/-- **In every run the keep-alives and the requests are bounded by the time that has passed, and
the replies by what the device has sent and the cuts of the network.** -/
theorem always_bounded (as : List Action) : Always step Bounded .init as := by
  have haccounted : Always step Accounted .init as :=
    always_of_invariant Accounted (fun _ _ _ hs hstep => hs.step (step_cases hstep)) as _ .init
  refine haccounted.imp (fun s hs => ⟨hs.spaced.count.trans hs.spaced.since_le, fun action haction => ?_⟩) as _
  have hrestrained := hs.restrained action haction
  have hcount := hrestrained.count.trans hrestrained.since_le
  have hchunks := hs.chunks
  have hreplies := hrestrained.replies_le
  rw [haction] at hchunks
  simp only [Option.elim] at hchunks
  omega

end GpsTracker.Tcp.KeepAlive
