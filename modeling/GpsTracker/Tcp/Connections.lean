import GpsTracker.Tcp.SocketManager

/-!
# Connections

Is a running client always the one that the manager holds? The guard of
`startTcpConnect` looks at a field that its own thread assigns later, and
`sopTcpConnect` stops and clears what the field holds without knowing of the
threads that are still connecting. Three steps can go wrong: a thread that makes a
new client while the held one runs, a thread that sets `running` on a client that
is no longer held, or after the manager was stopped, and a `sopTcpConnect` that
clears the field when the client in it has been set to run since it was stopped. A
run keeps its clients under control exactly when it has no such step
(`always_controlled_iff`), and a run in which every call waits for the connect
threads and the other calls to finish has none (`calm_step`).
-/

namespace GpsTracker.Tcp

open GpsTracker.Runs Function

/-! ### Control -/

/-- Every running client is the one held; and after a stop, none is. -/
structure Controlled (s : State) : Prop where
  held : ∀ c, (s.heap c).running = true → s.client = some c
  idle : s.stopped = true → ∀ c, (s.heap c).running = false

/-- The step does not lose a running client: a client is made and the field is cleared while the
held one is not running, and `running` is set on the held client, with no stop before. -/
def Harmless (s : State) : Action → Prop
  | .create _ => ∀ c, s.client = some c → (s.heap c).running = false
  | .clear _ => ∀ c, s.client = some c → (s.heap c).running = false
  | .run t => ∀ c, s.threads t = .connected c → s.client = some c ∧ s.stopped = false
  | _ => True

/-- Clearing flags keeps control. -/
theorem Controlled.of_running_le {s s' : State} (hs : Controlled s)
    (hrun : ∀ c, (s'.heap c).running = true → (s.heap c).running = true) (hclient : s'.client = s.client)
    (hstopped : s'.stopped = true → s.stopped = true) : Controlled s' where
  held c hc := hclient.trans (hs.held c (hrun c hc))
  idle h c := by
    rw [Bool.eq_false_iff]
    intro hc
    exact absurd (hrun c hc) (Bool.eq_false_iff.mp (hs.idle (hstopped h) c))

/-- With no client running there is nothing to control. -/
theorem Controlled.of_none {s : State} (h : ∀ c, (s.heap c).running = false) : Controlled s where
  held c hc := absurd ((h c).symm.trans hc) Bool.false_ne_true
  idle _ := h

theorem Controlled.startTcpConnect {s : State} (hs : Controlled s) : Controlled s.startTcpConnect := by
  rcases startTcpConnect_cases s with ⟨-, heq⟩ | ⟨-, heq⟩
  · rw [heq]
    exact hs.of_running_le (fun _ h => h) rfl fun h => by cases h
  · rw [heq]
    exact hs.of_running_le (fun _ h => h) rfl fun h => by cases h

/-- The only client that can run is the held one. -/
theorem Controlled.none_running {s : State} (hs : Controlled s)
    (hclient : ∀ c, s.client = some c → (s.heap c).running = false) (c : ℕ) : (s.heap c).running = false := by
  rw [Bool.eq_false_iff]
  intro hrun
  exact absurd ((hclient c (hs.held c hrun)).symm.trans hrun) Bool.false_ne_true

/-- A call that returns at once finds no client. -/
theorem Controlled.sopTcpConnect {s : State} (hs : Controlled s) (k : ℕ) : Controlled (s.sopTcpConnect k) := by
  rcases sopTcpConnect_cases s k with ⟨hclient, heq⟩ | ⟨d, -, heq⟩
  · rw [heq]
    refine .of_none (hs.none_running fun c hc => ?_)
    rw [hclient] at hc
    cases hc
  · rw [heq]
    exact hs.of_running_le (fun _ h => h) rfl id

theorem Controlled.stop {s : State} (hs : Controlled s) (k : ℕ) : Controlled (s.stop k) := by
  rcases stop_cases s k with ⟨-, heq⟩ | ⟨c, -, heq⟩
  · rw [heq]
    exact hs.of_running_le (fun _ h => h) rfl id
  · rw [heq]
    exact hs.of_running_le (fun d hd => running_of_update hd nofun) rfl id

/-- Clearing the field loses the held client if it runs. -/
theorem controlled_clear_iff {s : State} (hs : Controlled s) (k : ℕ) :
    Controlled (s.clear k) ↔ ∀ c, s.client = some c → (s.heap c).running = false :=
  ⟨fun h c _ => h.idle rfl c, fun h => .of_none (hs.none_running h)⟩

/-- Making a client loses the held one if it runs. -/
theorem controlled_create_iff {s : State} (hold : WellFormed s) (hs : Controlled s) (t : ℕ) :
    Controlled (s.create t) ↔ ∀ c, s.client = some c → (s.heap c).running = false := by
  constructor
  · intro h c hc
    have hne : c ≠ s.allocated := (hold.held c hc).ne
    rw [Bool.eq_false_iff]
    intro hrun
    have hnew : ((s.create t).heap c).running = true := by
      change (update s.heap s.allocated _ c).running = true
      rwa [update_of_ne hne]
    exact hne (Option.some.inj (h.held c hnew)).symm
  · intro h
    refine .of_none fun c => ?_
    rw [Bool.eq_false_iff]
    intro hc
    have hrun : (s.heap c).running = true := running_of_update hc nofun
    exact absurd ((hs.none_running h c).symm.trans hrun) Bool.false_ne_true

/-- Setting `running` is under control on the held client, with no stop before. -/
theorem controlled_run_iff {s : State} (hs : Controlled s) (t c : ℕ) :
    Controlled (s.run t c) ↔ s.client = some c ∧ s.stopped = false := by
  have hself : ((s.run t c).heap c).running = true := by
    change (update s.heap c _ c).running = true
    rw [update_self]
  constructor
  · intro h
    refine ⟨h.held c hself, ?_⟩
    rw [Bool.eq_false_iff]
    intro hstopped
    exact absurd ((h.idle hstopped c).symm.trans hself) Bool.false_ne_true
  · rintro ⟨hclient, hstopped⟩
    refine ⟨fun d hd => ?_, fun h => absurd (hstopped.symm.trans h) Bool.false_ne_true⟩
    by_cases hdc : d = c
    · rw [hdc]
      exact hclient
    · exact hs.held d ((running_update_of_ne hdc _).symm.trans hd)

/-- **Control is kept by the harmless steps, and by no other.** -/
theorem controlled_step_iff {s s' : State} {a : Action} (hold : WellFormed s) (hs : Controlled s)
    (h : Step s a s') : Controlled s' ↔ Harmless s a := by
  cases h with
  | setIpAddressAndPort e => exact iff_of_true (hs.of_running_le (fun _ h => h) rfl id) trivial
  | startTcpConnect => exact iff_of_true hs.startTcpConnect trivial
  | sopTcpConnect hk => exact iff_of_true (hs.sopTcpConnect _) trivial
  | stop hk => exact iff_of_true (hs.stop _) trivial
  | clear hk => exact controlled_clear_iff hs _
  | sendMessage message => exact iff_of_true (hs.startTcpConnect.of_running_le (fun _ h => h) rfl id) trivial
  | create ht => exact controlled_create_iff hold hs _
  | enter ht =>
    obtain ⟨pc, heq, -⟩ := enter_cases s _
    rw [heq]
    exact iff_of_true (hs.of_running_le (fun _ h => h) rfl id) trivial
  | @connect t c ht =>
    refine iff_of_true (hs.of_running_le (fun d hd => ?_) rfl id) trivial
    exact running_of_update hd id
  | refuse ht => exact iff_of_true (hs.of_running_le (fun _ h => h) rfl id) trivial
  | @run t c ht =>
    rw [controlled_run_iff hs, Harmless]
    constructor
    · intro h d hd
      obtain rfl := ConnectThread.connected.inj (ht.symm.trans hd)
      exact h
    · intro h
      exact h c ht
  | execute hq =>
    rcases execute_cases s _ _ with ⟨socket, -, heq⟩ | ⟨-, heq⟩
    · rw [heq]
      exact iff_of_true (hs.of_running_le (fun _ h => h) rfl id) trivial
    · rw [heq]
      exact iff_of_true (hs.of_running_le (fun _ h => h) rfl id) trivial
  | @lose c socket hsocket =>
    refine iff_of_true (hs.of_running_le (fun d hd => ?_) rfl id) trivial
    exact running_of_update hd id
  | watchdogStop c =>
    refine iff_of_true (hs.of_running_le (fun d hd => ?_) rfl id) trivial
    exact running_of_update hd nofun

/-! ### Calm runs -/

/-- The thread is not under way. -/
def ConnectThread.Settled : ConnectThread → Prop
  | .unborn => True
  | .finished => True
  | _ => False

/-- The call is not under way. -/
def StopCall.Settled : StopCall → Prop
  | .unmade => True
  | .over => True
  | _ => False

/-- A call that starts or stops a connection waits until no connect thread and no call of
`sopTcpConnect` is under way. -/
def Calm (s : State) (a : Action) : Prop :=
  (a = .startTcpConnect ∨ (∃ k, a = .sopTcpConnect k) ∨ ∃ message, a = .sendMessage message) →
    (∀ t, (s.threads t).Settled) ∧ ∀ k, (s.stops k).Settled

/-- One thread at most is under way, and on its way to make the held client run. -/
structure OneThread (s : State) : Prop where
  one : ∀ t t', ¬ (s.threads t).Settled → ¬ (s.threads t').Settled → t = t'
  spawned : ∀ t, s.threads t = .spawned → s.clientRunning = false
  busy : ∀ t c, s.threads t = .connecting c ∨ s.threads t = .connected c → s.client = some c
  going : ∀ t, ¬ (s.threads t).Settled → s.stopped = false

/-- After a step of the only thread under way, it is the only one still. -/
theorem settled_of_update {threads : ℕ → ConnectThread} {t : ℕ} {pc : ConnectThread}
    (hone : ∀ t t', ¬ (threads t).Settled → ¬ (threads t').Settled → t = t') (ht : ¬ (threads t).Settled) {u : ℕ}
    (hu : ¬ (update threads t pc u).Settled) : u = t := by
  by_cases hut : u = t
  · exact hut
  · rw [update_of_ne hut] at hu
    exact hone u t hu ht

/-- A step of the thread under way leaves one thread under way. -/
theorem OneThread.of_update {s s' : State} {t : ℕ} {pc : ConnectThread} (hs : OneThread s)
    (ht : ¬ (s.threads t).Settled) (hthreads : s'.threads = update s.threads t pc)
    (hstopped : s'.stopped = s.stopped) (hspawned : pc ≠ .spawned)
    (hbusy : ∀ c, pc = .connecting c ∨ pc = .connected c → s'.client = some c) : OneThread s' where
  one u u' hu hu' := by
    rw [hthreads] at hu hu'
    exact (settled_of_update hs.one ht hu).trans (settled_of_update hs.one ht hu').symm
  spawned u hu := by
    have hut : u = t := by
      rw [hthreads] at hu
      exact settled_of_update hs.one ht (by rw [hu]; exact id)
    rw [hthreads, hut, update_self] at hu
    exact absurd hu hspawned
  busy u c hu := by
    rw [hthreads] at hu
    have hunsettled : ¬ (update s.threads t pc u).Settled := by
      rcases hu with hu | hu
      · rw [hu]
        exact id
      · rw [hu]
        exact id
    rw [settled_of_update hs.one ht hunsettled, update_self] at hu
    exact hbusy c hu
  going u hu := hstopped.trans (hs.going t ht)

/-- With every thread settled, there is no thread to ask about. -/
theorem OneThread.of_settled {s : State} (h : ∀ t, (s.threads t).Settled) : OneThread s where
  one t t' ht := absurd (h t) ht
  spawned t ht := by
    have := h t
    rw [ht] at this
    exact this.elim
  busy t c ht := by
    have := h t
    rcases ht with ht | ht
    · rw [ht] at this
      exact this.elim
    · rw [ht] at this
      exact this.elim
  going t ht := absurd (h t) ht

/-- The held client runs no more than before. -/
theorem clientRunning_of_le {s s' : State} (h : s.clientRunning = false) (hclient : s'.client = s.client)
    (hrun : ∀ c, (s'.heap c).running = true → (s.heap c).running = true) : s'.clientRunning = false := by
  rw [clientRunning_eq_false] at h ⊢
  intro c hc
  rw [hclient] at hc
  rw [Bool.eq_false_iff]
  intro hc'
  exact absurd ((h c hc).symm.trans (hrun c hc')) Bool.false_ne_true

/-- The threads are as before, and the held client runs no more than before. -/
theorem OneThread.of_threads_eq {s s' : State} (hs : OneThread s) (hthreads : s'.threads = s.threads)
    (hclient : s'.client = s.client) (hstopped : s'.stopped = s.stopped)
    (hrun : ∀ c, (s'.heap c).running = true → (s.heap c).running = true) : OneThread s' where
  one := by
    rw [hthreads]
    exact hs.one
  spawned t ht := by
    rw [hthreads] at ht
    exact clientRunning_of_le (hs.spawned t ht) hclient hrun
  busy := by
    rw [hthreads, hclient]
    exact hs.busy
  going := by
    rw [hthreads, hstopped]
    exact hs.going

/-- With every thread settled, the one that `startTcpConnect` spawns is the only one under way. -/
theorem OneThread.startTcpConnect {s : State} (hsettled : ∀ t, (s.threads t).Settled) :
    OneThread s.startTcpConnect := by
  rcases startTcpConnect_cases s with ⟨-, heq⟩ | ⟨hrun, heq⟩
  · rw [heq]
    exact .of_settled hsettled
  · rw [heq]
    have hborn (t : ℕ) (pc : ConnectThread) (hpc : ¬ pc.Settled) (ht : update s.threads s.born .spawned t = pc) :
        t = s.born := by
      by_contra hne
      rw [update_of_ne hne] at ht
      exact hpc (ht ▸ hsettled t)
    refine ⟨fun t t' ht ht' => (hborn t _ ht rfl).trans (hborn t' _ ht' rfl).symm, fun t _ => hrun,
      fun t c ht => ?_, fun t _ => rfl⟩
    rcases ht with ht | ht
    · obtain rfl := hborn t _ id ht
      simp only [update_self, reduceCtorEq] at ht
    · obtain rfl := hborn t _ id ht
      simp only [update_self, reduceCtorEq] at ht

/-- And no thread is under way while a call of `sopTcpConnect` is, which then clears a field whose
client it has stopped. -/
structure InTurn (s : State) : Prop extends OneThread s where
  alone : ∀ k, ¬ (s.stops k).Settled → ∀ t, (s.threads t).Settled
  halted : ∀ k, s.stops k = .halted → s.clientRunning = false

/-- With no call under way, there is no call to ask about. -/
theorem InTurn.of_settled {s : State} (hs : OneThread s) (h : ∀ k, (s.stops k).Settled) : InTurn s where
  toOneThread := hs
  alone k hk := absurd (h k) hk
  halted k hk := by
    have hsettled := h k
    rw [hk] at hsettled
    exact hsettled.elim

/-- While a thread is under way, no call is. -/
theorem InTurn.settled {s : State} (hs : InTurn s) {t : ℕ} (ht : ¬ (s.threads t).Settled) (k : ℕ) :
    (s.stops k).Settled := by
  by_contra hk
  exact ht (hs.alone k hk t)

/-- The threads and the calls are as before, and the held client runs no more than before. -/
theorem InTurn.of_threads_eq {s s' : State} (hs : InTurn s) (hthreads : s'.threads = s.threads)
    (hstops : s'.stops = s.stops) (hclient : s'.client = s.client) (hstopped : s'.stopped = s.stopped)
    (hrun : ∀ c, (s'.heap c).running = true → (s.heap c).running = true) : InTurn s' where
  toOneThread := hs.toOneThread.of_threads_eq hthreads hclient hstopped hrun
  alone := by
    rw [hthreads, hstops]
    exact hs.alone
  halted := by
    rw [hstops]
    exact fun k hk => clientRunning_of_le (hs.halted k hk) hclient hrun

/-- The first step of a call that comes when all is settled. -/
theorem InTurn.sopTcpConnect {s : State}
    (hsettled : (∀ t, (s.threads t).Settled) ∧ ∀ k, (s.stops k).Settled) (k : ℕ) :
    InTurn (s.sopTcpConnect k) := by
  have hhalted (call : StopCall) (hcall : call ≠ .halted) (j : ℕ) : update s.stops k call j ≠ .halted := by
    intro hj
    by_cases hjk : j = k
    · rw [hjk, update_self] at hj
      exact hcall hj
    · rw [update_of_ne hjk] at hj
      have := hsettled.2 j
      rw [hj] at this
      exact this.elim
  rcases sopTcpConnect_cases s k with ⟨-, heq⟩ | ⟨c, -, heq⟩
  · rw [heq]
    exact ⟨.of_settled hsettled.1, fun _ _ => hsettled.1, fun j hj => absurd hj (hhalted .over nofun j)⟩
  · rw [heq]
    exact ⟨.of_settled hsettled.1, fun _ _ => hsettled.1, fun j hj => absurd hj (hhalted .tested nofun j)⟩

/-- The second: the client that the field holds is stopped. -/
theorem InTurn.stop {s : State} (hs : InTurn s) {k : ℕ} (hk : s.stops k = .tested) : InTurn (s.stop k) := by
  have hsettled := hs.alone k (by rw [hk]; exact id)
  rcases stop_cases s k with ⟨hclient, heq⟩ | ⟨c, hclient, heq⟩
  · rw [heq]
    refine ⟨.of_settled hsettled, fun _ _ => hsettled, fun j _ => clientRunning_eq_false.mpr fun d hd => ?_⟩
    exact absurd (hclient.symm.trans hd) (Option.some_ne_none d).symm
  · rw [heq]
    refine ⟨.of_settled hsettled, fun _ _ => hsettled, fun j _ => clientRunning_eq_false.mpr fun d hd => ?_⟩
    obtain rfl : c = d := Option.some.inj (hclient.symm.trans hd)
    change (update s.heap c _ c).running = false
    rw [update_self]

/-- The third: the field is cleared. -/
theorem InTurn.clear {s : State} (hs : InTurn s) {k : ℕ} (hk : s.stops k = .halted) : InTurn (s.clear k) := by
  have hsettled := hs.alone k (by rw [hk]; exact id)
  exact ⟨.of_settled hsettled, fun _ _ => hsettled, fun _ _ => rfl⟩

/-- **A calm step is harmless**, and leaves one thread under way at most, or a call. -/
theorem calm_step {s s' : State} {a : Action} (hs : InTurn s) (hcalm : Calm s a) (h : Step s a s') :
    Harmless s a ∧ InTurn s' := by
  cases h with
  | setIpAddressAndPort e => exact ⟨trivial, hs.of_threads_eq rfl rfl rfl rfl fun _ h => h⟩
  | startTcpConnect =>
    obtain ⟨hthreads, hstops⟩ := hcalm (Or.inl rfl)
    refine ⟨trivial, .of_settled (.startTcpConnect hthreads) ?_⟩
    rcases startTcpConnect_cases s with ⟨-, heq⟩ | ⟨-, heq⟩
    · rw [heq]
      exact hstops
    · rw [heq]
      exact hstops
  | sopTcpConnect hk => exact ⟨trivial, .sopTcpConnect (hcalm (Or.inr (Or.inl ⟨_, rfl⟩))) _⟩
  | stop hk => exact ⟨trivial, hs.stop hk⟩
  | clear hk => exact ⟨clientRunning_eq_false.mp (hs.halted _ hk), hs.clear hk⟩
  | sendMessage message =>
    obtain ⟨hthreads, hstops⟩ := hcalm (Or.inr (Or.inr ⟨message, rfl⟩))
    have hstart : OneThread s.startTcpConnect := .startTcpConnect hthreads
    refine ⟨trivial, .of_settled (hstart.of_threads_eq rfl rfl rfl fun _ h => h) ?_⟩
    rcases startTcpConnect_cases s with ⟨-, heq⟩ | ⟨-, heq⟩
    · rw [State.sendMessage, heq]
      exact hstops
    · rw [State.sendMessage, heq]
      exact hstops
  | @create t ht =>
    refine ⟨clientRunning_eq_false.mp (hs.spawned t ht),
      .of_settled ?_ (hs.settled (t := t) (by rw [ht]; exact id))⟩
    refine hs.toOneThread.of_update (t := t) (by rw [ht]; exact id) rfl rfl (by decide) fun c hc => ?_
    rcases hc with hc | hc <;> cases hc
  | @enter t ht =>
    obtain ⟨pc, heq, hpc⟩ := enter_cases s t
    rw [heq]
    refine ⟨trivial, .of_settled ?_ (hs.settled (t := t) (by rw [ht]; exact id))⟩
    refine hs.toOneThread.of_update (t := t) (by rw [ht]; exact id) rfl rfl ?_ fun c hc => ?_
    · rcases hpc with ⟨rfl, -⟩ | ⟨c, -, -, rfl⟩
      · exact nofun
      · exact nofun
    · rcases hpc with ⟨rfl, -⟩ | ⟨d, hclient, -, rfl⟩
      · rcases hc with hc | hc <;> cases hc
      · rcases hc with hc | hc
        · cases hc
          exact hclient
        · cases hc
  | @connect t c ht =>
    refine ⟨trivial, .of_settled ?_ (hs.settled (t := t) (by rw [ht]; exact id))⟩
    refine hs.toOneThread.of_update (t := t) (by rw [ht]; exact id) rfl rfl nofun fun d hd => ?_
    rcases hd with hd | hd
    · cases hd
    · cases hd
      exact hs.busy t c (Or.inl ht)
  | @refuse t c ht =>
    refine ⟨trivial, .of_settled ?_ (hs.settled (t := t) (by rw [ht]; exact id))⟩
    refine hs.toOneThread.of_update (t := t) (by rw [ht]; exact id) rfl rfl nofun fun d hd => ?_
    rcases hd with hd | hd <;> cases hd
  | @run t c ht =>
    refine ⟨fun d hd => ⟨hs.busy t d (Or.inr hd), hs.going t (by rw [ht]; exact id)⟩, ?_⟩
    refine .of_settled ?_ (hs.settled (t := t) (by rw [ht]; exact id))
    refine hs.toOneThread.of_update (t := t) (by rw [ht]; exact id) rfl rfl nofun fun d hd => ?_
    rcases hd with hd | hd <;> cases hd
  | execute hq =>
    rcases execute_cases s _ _ with ⟨socket, -, heq⟩ | ⟨-, heq⟩
    · rw [heq]
      exact ⟨trivial, hs.of_threads_eq rfl rfl rfl rfl fun _ h => h⟩
    · rw [heq]
      exact ⟨trivial, hs.of_threads_eq rfl rfl rfl rfl fun _ h => h⟩
  | @lose c socket hsocket =>
    exact ⟨trivial, hs.of_threads_eq rfl rfl rfl rfl fun d hd => running_of_update hd id⟩
  | watchdogStop c => exact ⟨trivial, hs.of_threads_eq rfl rfl rfl rfl fun d hd => running_of_update hd nofun⟩

/-! ### Runs -/

theorem controlled_init : Controlled .init := .of_none fun _ => rfl

theorem inTurn_init : InTurn .init := .of_settled (.of_settled fun _ => trivial) fun _ => trivial

/-- A run keeps its clients under control exactly when it has no harmful step. -/
theorem always_controlled_iff (as : List Action) :
    Always step Controlled .init as ↔ Guarded step Harmless .init as :=
  always_iff_guarded WellFormed (fun _ _ _ hold _ h => wellFormed_step hold (step_cases h))
    (fun _ _ _ hold hs h => controlled_step_iff hold hs (step_cases h)) as _ wellFormed_init controlled_init

/-- **Every run with harmless steps only keeps its clients under control, and no other run
does; and the steps of a run are harmless when its calls wait for the connect threads and for
each other.** -/
theorem controlled_iff (as : List Action) :
    (Always step Controlled .init as ↔ Guarded step Harmless .init as) ∧
      (Guarded step Calm .init as → Always step Controlled .init as) := by
  refine ⟨always_controlled_iff as, fun h => (always_controlled_iff as).mpr ?_⟩
  exact Guarded.imp_of_invariant InTurn (fun _ _ _ hs hcalm hstep => calm_step hs hcalm (step_cases hstep)) as _
    inTurn_init h

theorem controlled_iff_calm : Always step Controlled .init
    [.sendMessage [1], .create 0, .enter 0, .connect 0, .run 0, .execute, .sopTcpConnect 0, .stop 0, .clear 0] := by
  refine (controlled_iff _).2 ?_
  refine (guarded_cons rfl).mpr ⟨fun _ => ⟨fun _ => trivial, fun _ => trivial⟩, ?_⟩
  refine (guarded_cons rfl).mpr ⟨nofun, (guarded_cons rfl).mpr ⟨nofun, (guarded_cons rfl).mpr ⟨nofun, ?_⟩⟩⟩
  refine (guarded_cons rfl).mpr ⟨nofun, (guarded_cons rfl).mpr ⟨nofun, (guarded_cons rfl).mpr ⟨fun _ => ?_, ?_⟩⟩⟩
  · refine ⟨fun t => ?_, fun _ => trivial⟩
    cases t with
    | zero => trivial
    | succ t => trivial
  · exact (guarded_cons rfl).mpr ⟨nofun, (guarded_cons rfl).mpr ⟨nofun, trivial⟩⟩

/-- Two calls before the first thread has made its client: the second thread replaces the
client that the first one has started. -/
theorem not_controlled_two_starts : ¬ Always step Controlled .init
    [.startTcpConnect, .startTcpConnect, .create 0, .enter 0, .connect 0, .run 0, .create 1] := by
  intro h
  have hend := (h.after rfl).held 0 rfl
  cases hend

end GpsTracker.Tcp
