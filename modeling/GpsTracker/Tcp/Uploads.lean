import GpsTracker.Tcp.Connections

/-!
# Uploads

The task of an upload writes to whatever client the manager holds when the task
runs. When that client has no open socket yet, or the field is still null, the
exception is swallowed and the upload is gone: uploads are written in order and
none is lost exactly while every task finds an open socket
(`always_nothingLost_iff`). It does when it runs with every connect thread done
and nothing disturbs the connections (`attended_step`), but nothing makes it wait.

Nor does anything look at the endpoint again: a new pair of address and port is
used by the next client that is made, and uploads go on to the old server as long
as an older connection runs. They follow the endpoint when it is only changed with
no task queued and no client in use (`aimed_step`).
-/

namespace GpsTracker.Tcp

open GpsTracker.Java GpsTracker.Runs Function

/-! ### Nothing lost -/

/-- The uploads written, followed by those queued, are the uploads handed over. -/
def NothingLost (s : State) : Prop := s.written.map Prod.fst ++ s.queue = s.sent

instance (s : State) : Decidable (NothingLost s) := inferInstanceAs (Decidable (_ = _))

/-- A task that runs finds an open socket. -/
def FindsSocket (s : State) (a : Action) : Prop := a = .execute → s.openSocket ≠ none

theorem nothingLost_startTcpConnect {s : State} (hs : NothingLost s) : NothingLost s.startTcpConnect := by
  rcases startTcpConnect_cases s with ⟨-, heq⟩ | ⟨-, heq⟩
  · rw [heq]
    exact hs
  · rw [heq]
    exact hs

/-- A task that finds no socket loses its upload, and no other step loses one. -/
theorem nothingLost_step_iff {s s' : State} {a : Action} (hs : NothingLost s) (h : Step s a s') :
    NothingLost s' ↔ FindsSocket s a := by
  cases h with
  | setIpAddressAndPort e => exact iff_of_true hs nofun
  | startTcpConnect => exact iff_of_true (nothingLost_startTcpConnect hs) nofun
  | sopTcpConnect hk =>
    refine iff_of_true ?_ nofun
    rcases sopTcpConnect_cases s _ with ⟨-, heq⟩ | ⟨c, -, heq⟩
    · rw [heq]
      exact hs
    · rw [heq]
      exact hs
  | stop hk =>
    refine iff_of_true ?_ nofun
    rcases stop_cases s _ with ⟨-, heq⟩ | ⟨c, -, heq⟩
    · rw [heq]
      exact hs
    · rw [heq]
      exact hs
  | clear hk => exact iff_of_true hs nofun
  | sendMessage message =>
    refine iff_of_true ?_ nofun
    have hstart := nothingLost_startTcpConnect hs
    unfold NothingLost State.sendMessage State.enqueue
    simp only
    rw [← List.append_assoc, hstart]
  | create ht => exact iff_of_true hs nofun
  | enter ht =>
    obtain ⟨pc, heq, -⟩ := enter_cases s _
    rw [heq]
    exact iff_of_true hs nofun
  | connect ht => exact iff_of_true hs nofun
  | refuse ht => exact iff_of_true hs nofun
  | run ht => exact iff_of_true hs nofun
  | @execute u queue hq =>
    unfold NothingLost at hs ⊢
    rw [hq] at hs
    rcases execute_cases s u queue with ⟨socket, hsocket, heq⟩ | ⟨hsocket, heq⟩
    · rw [heq]
      refine iff_of_true ?_ fun _ h => by rw [hsocket] at h; cases h
      simp only [List.map_append, List.map_cons, List.map_nil, List.append_assoc, List.singleton_append]
      exact hs
    · rw [heq]
      refine iff_of_false ?_ fun h => h rfl hsocket
      intro h
      -- the upload is neither written nor queued: one is missing
      have hlen := congrArg List.length (hs.trans h.symm)
      simp only [List.length_append, List.length_cons] at hlen
      omega
  | lose hsocket => exact iff_of_true hs nofun
  | watchdogStop c => exact iff_of_true hs nofun

/-- Nothing is lost in a run exactly when every task finds an open socket. -/
theorem always_nothingLost_iff (as : List Action) :
    Always step NothingLost .init as ↔ Guarded step FindsSocket .init as :=
  always_iff_guarded (fun _ => True) (fun _ _ _ _ _ _ => trivial)
    (fun _ _ _ _ hs h => nothingLost_step_iff hs (step_cases h)) as _ trivial rfl

/-! ### Connections that are not disturbed -/

/-- Every connection is accepted and kept, and the manager is not stopped. -/
def Undisturbed : Action → Prop
  | .sopTcpConnect _ => False
  | .stop _ => False
  | .clear _ => False
  | .refuse _ => False
  | .lose _ => False
  | .watchdogStop _ => False
  | _ => True

/-- A task runs with no connect thread under way. -/
def Patient (s : State) (a : Action) : Prop := a = .execute → ∀ t, (s.threads t).Settled

/-- A client is running, or some thread will see to it. -/
def SeenTo (s : State) (c : ℕ) : Prop :=
  (s.heap c).running = true ∨ ∃ t, s.threads t = .created ∨ s.threads t = .connecting c ∨ s.threads t = .connected c

/-- The client was connected. -/
def Online (s : State) (c : ℕ) : Prop := (s.heap c).running = true ∨ ∃ t, s.threads t = .connected c

/-- The held client is seen to, the clients that were connected have an open socket, and for the
uploads in the queue a client is held or a thread will make one. -/
structure Attended (s : State) : Prop where
  held : ∀ c, s.client = some c → SeenTo s c
  opened : ∀ c, Online s c → (s.heap c).IsOpen
  pending : s.queue ≠ [] → s.client ≠ none ∨ ∃ t, s.threads t = .spawned

/-- A client that another thread sees to is seen to still. -/
theorem SeenTo.of_update {s s' : State} {t c : ℕ} {pc : ConnectThread} (h : SeenTo s c)
    (hthreads : s'.threads = update s.threads t pc)
    (hrun : (s.heap c).running = true → (s'.heap c).running = true)
    (ht : ¬ (s.threads t = .created ∨ s.threads t = .connecting c ∨ s.threads t = .connected c)) : SeenTo s' c := by
  rcases h with h | ⟨u, hu⟩
  · exact Or.inl (hrun h)
  · have hut : u ≠ t := by
      rintro rfl
      exact ht hu
    refine Or.inr ⟨u, ?_⟩
    rwa [hthreads, update_of_ne hut]

/-- A client that was not connected just now was connected before. -/
theorem Online.of_update {s s' : State} {t c : ℕ} {pc : ConnectThread} (h : Online s' c)
    (hthreads : s'.threads = update s.threads t pc)
    (hrun : (s'.heap c).running = true → (s.heap c).running = true) (hpc : pc ≠ .connected c) : Online s c := by
  rcases h with h | ⟨u, hu⟩
  · exact Or.inl (hrun h)
  · rw [hthreads] at hu
    exact Or.inr ⟨u, threads_of_update (· = .connected c) hu hpc⟩

/-- Threads that are elsewhere leave those that will make a client. -/
theorem spawned_update {s s' : State} {t : ℕ} {pc : ConnectThread} (h : ∃ u, s.threads u = .spawned)
    (hthreads : s'.threads = update s.threads t pc) (ht : s.threads t ≠ .spawned) : ∃ u, s'.threads u = .spawned := by
  obtain ⟨u, hu⟩ := h
  rw [hthreads]
  exact ⟨u, threads_update hu ht⟩

/-- With every thread done, an upload finds an open socket. -/
theorem Attended.openSocket_ne_none {s : State} (hs : Attended s) (hqueue : s.queue ≠ [])
    (hsettled : ∀ t, (s.threads t).Settled) : s.openSocket ≠ none := by
  have hclient : s.client ≠ none := by
    rcases hs.pending hqueue with hclient | ⟨t, ht⟩
    · exact hclient
    · have := hsettled t
      rw [ht] at this
      exact this.elim
  obtain ⟨c, hc⟩ := Option.ne_none_iff_exists'.mp hclient
  have hrun : (s.heap c).running = true := by
    rcases hs.held c hc with hrun | ⟨t, ht⟩
    · exact hrun
    · have := hsettled t
      rcases ht with ht | ht | ht
      · rw [ht] at this
        exact this.elim
      · rw [ht] at this
        exact this.elim
      · rw [ht] at this
        exact this.elim
  obtain ⟨socket, hsocket, halive⟩ := hs.opened c (Or.inl hrun)
  rw [openSocket_eq_some.mpr ⟨c, hc, hsocket, halive⟩]
  exact Option.some_ne_none socket

/-- After `startTcpConnect` there is a client, or a thread that will make one. -/
theorem Attended.startTcpConnect {s : State} (hwf : WellFormed s) (hs : Attended s) :
    Attended s.startTcpConnect ∧
    (s.startTcpConnect.client ≠ none ∨ ∃ t, s.startTcpConnect.threads t = .spawned) := by
  rcases startTcpConnect_cases s with ⟨hrun, heq⟩ | ⟨-, heq⟩
  · rw [heq]
    refine ⟨⟨hs.held, hs.opened, hs.pending⟩, Or.inl fun h => ?_⟩
    simp only at h
    rw [State.clientRunning, h] at hrun
    cases hrun
  · rw [heq]
    have hspawned : ∃ t, update s.threads s.born .spawned t = .spawned := ⟨s.born, update_self _ _ _⟩
    refine ⟨⟨fun c hc => ?_, fun c hc => hs.opened c (hc.of_update rfl id nofun), fun _ => Or.inr hspawned⟩,
      Or.inr hspawned⟩
    exact (hs.held c hc).of_update rfl id (by simp [hwf.unborn s.born le_rfl])

theorem Attended.create {s : State} (hwf : WellFormed s) (hs : Attended s) (t : ℕ) : Attended (s.create t) where
  held c hc := Or.inr ⟨t, Or.inl (update_self _ _ _)⟩
  opened c hc := by
    have hold : Online s c := hc.of_update rfl (fun h => running_of_update h nofun) nofun
    have hne : c ≠ s.allocated := by
      rintro rfl
      rcases hold with h | ⟨u, hu⟩
      · exact absurd ((hwf.idle s.allocated le_rfl).symm.trans h) Bool.false_ne_true
      · exact absurd (hwf.busy u s.allocated (Or.inr hu)) (lt_irrefl _)
    change (update s.heap s.allocated _ c).IsOpen
    rw [update_of_ne hne]
    exact hs.opened c hold
  pending _ := Or.inl (Option.some_ne_none _)

theorem Attended.enter {s : State} (hs : Attended s) {t : ℕ} (ht : s.threads t = .created) :
    Attended (s.enter t) := by
  obtain ⟨pc, heq, hpc⟩ := enter_cases s t
  rw [heq]
  have hconnected (c : ℕ) : pc ≠ .connected c := by
    rcases hpc with ⟨rfl, -⟩ | ⟨d, -, -, rfl⟩
    · exact nofun
    · exact nofun
  refine ⟨fun c hc => ?_, fun c hc => hs.opened c (hc.of_update rfl id (hconnected c)), fun hqueue => ?_⟩
  · rcases hpc with ⟨-, hrun⟩ | ⟨d, hd, -, rfl⟩
    · exact Or.inl (hrun c hc)
    · obtain rfl : d = c := Option.some.inj (hd.symm.trans hc)
      exact Or.inr ⟨t, Or.inr (Or.inl (update_self _ _ _))⟩
  · exact (hs.pending hqueue).imp_right fun h => spawned_update h rfl (by simp [ht])

theorem Attended.connect {s : State} (hs : Attended s) {t c : ℕ} (ht : s.threads t = .connecting c) :
    Attended (s.connect t c) where
  held d hd := by
    by_cases hdc : d = c
    · rw [hdc]
      exact Or.inr ⟨t, Or.inr (Or.inr (update_self _ _ _))⟩
    · exact (hs.held d hd).of_update rfl (fun h => (running_update_of_ne hdc _).trans h) (by simp [ht, Ne.symm hdc])
  opened d hd := by
    change (update s.heap c _ d).IsOpen
    by_cases hdc : d = c
    · rw [hdc, update_self]
      exact ⟨_, rfl, rfl⟩
    · rw [update_of_ne hdc]
      exact hs.opened d (hd.of_update rfl (fun h => running_of_update h id) (by simp [Ne.symm hdc]))
  pending hqueue := (hs.pending hqueue).imp_right fun h => spawned_update h rfl (by simp [ht])

theorem Attended.run {s : State} (hs : Attended s) {t c : ℕ} (ht : s.threads t = .connected c) :
    Attended (s.run t c) where
  held d hd := by
    by_cases hdc : d = c
    · refine Or.inl ?_
      change (update s.heap c _ d).running = true
      rw [hdc, update_self]
    · exact (hs.held d hd).of_update rfl (fun h => (running_update_of_ne hdc _).trans h) (by simp [ht, Ne.symm hdc])
  opened d hd := by
    change (update s.heap c _ d).IsOpen
    by_cases hdc : d = c
    · rw [hdc, update_self]
      exact hs.opened c (Or.inr ⟨t, ht⟩)
    · rw [update_of_ne hdc]
      exact hs.opened d (hd.of_update rfl (fun h => (running_update_of_ne hdc _).symm.trans h) nofun)
  pending hqueue := (hs.pending hqueue).imp_right fun h => spawned_update h rfl (by simp [ht])

/-- **Undisturbed steps keep the uploads attended, and a patient task finds a socket.** -/
theorem attended_step {s s' : State} {a : Action} (hwf : WellFormed s) (hs : Attended s)
    (hquiet : Undisturbed a) (hpatient : Patient s a)
    (h : Step s a s') : FindsSocket s a ∧ Attended s' := by
  cases h with
  | setIpAddressAndPort e => exact ⟨nofun, hs.held, hs.opened, hs.pending⟩
  | startTcpConnect => exact ⟨nofun, (hs.startTcpConnect hwf).1⟩
  | sopTcpConnect hk => exact hquiet.elim
  | stop hk => exact hquiet.elim
  | clear hk => exact hquiet.elim
  | sendMessage message =>
    obtain ⟨hstart, hpending⟩ := hs.startTcpConnect hwf
    exact ⟨nofun, hstart.held, hstart.opened, fun _ => hpending⟩
  | create ht => exact ⟨nofun, hs.create hwf _⟩
  | enter ht => exact ⟨nofun, hs.enter ht⟩
  | connect ht => exact ⟨nofun, hs.connect ht⟩
  | refuse ht => exact hquiet.elim
  | run ht => exact ⟨nofun, hs.run ht⟩
  | @execute u queue hq =>
    have hqueue : s.queue ≠ [] := by
      rw [hq]
      exact List.cons_ne_nil u queue
    refine ⟨fun _ => hs.openSocket_ne_none hqueue (hpatient rfl), ?_⟩
    rcases execute_cases s u queue with ⟨socket, -, heq⟩ | ⟨-, heq⟩
    · rw [heq]
      exact ⟨hs.held, hs.opened, fun _ => hs.pending hqueue⟩
    · rw [heq]
      exact ⟨hs.held, hs.opened, fun _ => hs.pending hqueue⟩
  | lose hsocket => exact hquiet.elim
  | watchdogStop c => exact hquiet.elim

theorem attended_init : Attended .init where
  held := nofun
  opened c hc := by
    rcases hc with h | ⟨t, h⟩
    · cases h
    · cases h
  pending h := absurd rfl h

/-- **No upload is lost exactly while every task finds an open socket; and with the connections
undisturbed it does when it runs with every connect thread done.** -/
theorem nothingLost_iff (as : List Action) :
    (Always step NothingLost .init as ↔ Guarded step FindsSocket .init as) ∧
      ((∀ a ∈ as, Undisturbed a) → Guarded step Patient .init as → Always step NothingLost .init as) := by
  refine ⟨always_nothingLost_iff as, fun hquiet h => (always_nothingLost_iff as).mpr ?_⟩
  have hguard := Guarded.and as State.init (guarded_of_forall as hquiet State.init) h
  refine Guarded.imp_of_invariant (fun s => WellFormed s ∧ Attended s) (fun s a s' hs hG hstep => ?_) as _
    ⟨wellFormed_init, attended_init⟩ hguard
  obtain ⟨hfinds, hattended⟩ := attended_step hs.1 hs.2 hG.1 hG.2 (step_cases hstep)
  exact ⟨hfinds, wellFormed_step hs.1 (step_cases hstep), hattended⟩

theorem nothingLost_iff_patient : Always step NothingLost .init
    [.sendMessage [1], .create 0, .enter 0, .connect 0, .run 0, .execute] := by
  refine (nothingLost_iff _).2 (by simp [Undisturbed]) ?_
  refine (guarded_cons rfl).mpr ⟨nofun, (guarded_cons rfl).mpr ⟨nofun, (guarded_cons rfl).mpr ⟨nofun, ?_⟩⟩⟩
  refine (guarded_cons rfl).mpr ⟨nofun, (guarded_cons rfl).mpr ⟨nofun, (guarded_cons rfl).mpr ⟨fun _ t => ?_, trivial⟩⟩⟩
  cases t with
  | zero => trivial
  | succ t => trivial

/-- The first upload, its task run before the connect thread has made a client. -/
theorem not_nothingLost_first_upload : ¬ Always step NothingLost .init [.sendMessage [1], .execute] := by
  intro h
  have hend : NothingLost _ := h.after rfl
  exact absurd hend (by decide)

/-! ### The endpoint -/

/-- Every upload was written to the endpoint set when it was handed over. -/
def Directed (s : State) : Prop := ∀ w ∈ s.written, w.2 = w.1.target

instance (s : State) : Decidable (Directed s) := inferInstanceAs (Decidable (∀ w ∈ s.written, w.2 = w.1.target))

/-- The held client has an open socket, or a thread is about to start it or is connecting it. -/
def InUse (s : State) (c : ℕ) : Prop :=
  s.client = some c ∧ ((s.heap c).IsOpen ∨ ∃ t, s.threads t = .created ∨ s.threads t = .connecting c)

/-- A change of the endpoint finds no upload in the queue and no client in use. A thread that has
not made its client yet is none: it reads the address and the port in one step. -/
def Careful (s : State) (a : Action) : Prop :=
  ∀ e, a = .setIpAddressAndPort e → e ≠ s.endpoint → s.queue = [] ∧ ∀ c, ¬ InUse s c

/-- The uploads in the queue are for the endpoint, and so is the client in use. -/
structure Aimed (s : State) : Prop where
  directed : Directed s
  queued : ∀ u ∈ s.queue, u.target = s.endpoint
  peer : ∀ c socket, (s.heap c).socket = some socket → socket.peer = (s.heap c).server
  inUse : ∀ c, InUse s c → (s.heap c).server = s.endpoint

/-- A client that is replaced by one for the same server. -/
theorem server_update {heap : ℕ → TcpClient} {c : ℕ} {x : TcpClient} (hx : x.server = (heap c).server) (d : ℕ) :
    (update heap c x d).server = (heap d).server :=
  heap_update_rel (fun y z => y.server = z.server) (fun _ => rfl) hx d

/-- A client that is replaced by one with a socket for its server, or none. -/
theorem peer_update {heap : ℕ → TcpClient} {c : ℕ} {x : TcpClient}
    (hheap : ∀ d socket, (heap d).socket = some socket → socket.peer = (heap d).server)
    (hx : ∀ socket, x.socket = some socket → socket.peer = x.server) :
    ∀ d socket, (update heap c x d).socket = some socket → socket.peer = (update heap c x d).server :=
  (forall_update_iff heap fun _ y => ∀ socket, y.socket = some socket → socket.peer = y.server).mpr
    ⟨hx, fun d _ => hheap d⟩

/-- A step that writes nothing and takes no new client into use. -/
theorem Aimed.of_inUse {s s' : State} (hs : Aimed s) (hwritten : s'.written = s.written)
    (hendpoint : s'.endpoint = s.endpoint) (hqueue : ∀ u ∈ s'.queue, u.target = s.endpoint)
    (hserver : ∀ c, (s'.heap c).server = (s.heap c).server)
    (hpeer : ∀ c socket, (s'.heap c).socket = some socket → socket.peer = (s'.heap c).server)
    (huse : ∀ c, InUse s' c → InUse s c) : Aimed s' where
  directed := by
    unfold Directed
    rw [hwritten]
    exact hs.directed
  queued := by
    rw [hendpoint]
    exact hqueue
  peer := hpeer
  inUse c hc := by
    rw [hserver, hendpoint]
    exact hs.inUse c (huse c hc)

/-- A client is in use as before when its socket is not opened and no thread has come to start it. -/
theorem InUse.of_update {s s' : State} {t c : ℕ} {pc : ConnectThread} (h : InUse s' c)
    (hclient : s'.client = s.client) (hthreads : s'.threads = update s.threads t pc)
    (hopen : (s'.heap c).IsOpen → (s.heap c).IsOpen)
    (hpc : ¬ (pc = .created ∨ pc = .connecting c)) : InUse s c := by
  obtain ⟨hc, h | ⟨u, hu⟩⟩ := h
  · exact ⟨hclient.symm.trans hc, Or.inl (hopen h)⟩
  · rw [hthreads] at hu
    have hold := threads_of_update (fun pc => pc = .created ∨ pc = .connecting c) hu hpc
    exact ⟨hclient.symm.trans hc, Or.inr ⟨u, hold⟩⟩

theorem Aimed.startTcpConnect {s : State} (hs : Aimed s) : Aimed s.startTcpConnect := by
  rcases startTcpConnect_cases s with ⟨-, heq⟩ | ⟨-, heq⟩
  · rw [heq]
    exact hs.of_inUse rfl rfl hs.queued (fun _ => rfl) hs.peer fun _ h => h
  · rw [heq]
    exact hs.of_inUse rfl rfl hs.queued (fun _ => rfl) hs.peer fun c hc => hc.of_update rfl rfl id (by simp)

/-- The client that a thread makes is for the endpoint. -/
theorem Aimed.create {s : State} (hs : Aimed s) (t : ℕ) : Aimed (s.create t) where
  directed := hs.directed
  queued := hs.queued
  peer := peer_update hs.peer nofun
  inUse c hc := by
    obtain rfl : s.allocated = c := Option.some.inj hc.1
    change (update s.heap s.allocated _ s.allocated).server = s.endpoint
    rw [update_self]

theorem Aimed.enter {s : State} (hs : Aimed s) {t : ℕ} (ht : s.threads t = .created) : Aimed (s.enter t) := by
  obtain ⟨pc, heq, -⟩ := enter_cases s t
  rw [heq]
  refine hs.of_inUse rfl rfl hs.queued (fun _ => rfl) hs.peer ?_
  -- the thread was about to start the held client already
  rintro c ⟨hc, hopen | -⟩
  · exact ⟨hc, Or.inl hopen⟩
  · exact ⟨hc, Or.inr ⟨t, Or.inl ht⟩⟩

theorem Aimed.connect {s : State} (hs : Aimed s) {t c : ℕ} (ht : s.threads t = .connecting c) :
    Aimed (s.connect t c) := by
  refine hs.of_inUse rfl rfl hs.queued (server_update rfl) (peer_update hs.peer ?_) fun d hd => ?_
  · rintro socket h
    cases h
    rfl
  · by_cases hdc : d = c
    · rw [hdc] at hd ⊢
      exact ⟨hd.1, Or.inr ⟨t, Or.inr ht⟩⟩
    · refine hd.of_update rfl rfl (fun h => ?_) (by simp)
      change (update s.heap c _ d).IsOpen at h
      rwa [update_of_ne hdc] at h

/-- An upload is written to the client in use. -/
theorem Aimed.execute {s : State} (hs : Aimed s) {u : Upload} {queue : List Upload}
    (hqueue : s.queue = u :: queue) :
    Aimed (s.execute u queue) := by
  have hqueued := hs.queued
  rw [hqueue, List.forall_mem_cons] at hqueued
  rcases execute_cases s u queue with ⟨socket, hsocket, heq⟩ | ⟨-, heq⟩
  · rw [heq]
    obtain ⟨c, hc, hheap, halive⟩ := openSocket_eq_some.mp hsocket
    have hserver := hs.inUse c ⟨hc, Or.inl ⟨socket, hheap, halive⟩⟩
    refine ⟨?_, hqueued.2, hs.peer, hs.inUse⟩
    intro w hw
    rcases List.mem_append.mp hw with hw | hw
    · exact hs.directed w hw
    · obtain rfl := List.mem_singleton.mp hw
      exact (hs.peer c socket hheap).trans (hserver.trans hqueued.1.symm)
  · rw [heq]
    exact ⟨hs.directed, hqueued.2, hs.peer, hs.inUse⟩

/-- **A careful step keeps the queue and the client in use aimed at the endpoint.** -/
theorem aimed_step {s s' : State} {a : Action} (hs : Aimed s) (hcareful : Careful s a)
    (h : Step s a s') : Aimed s' := by
  cases h with
  | setIpAddressAndPort e =>
    by_cases he : e = s.endpoint
    · rw [he]
      exact hs
    · obtain ⟨hqueue, huse⟩ := hcareful e rfl he
      refine ⟨hs.directed, fun u hu => ?_, hs.peer, fun c hc => absurd hc (huse c)⟩
      change u ∈ s.queue at hu
      rw [hqueue] at hu
      cases hu
  | startTcpConnect => exact hs.startTcpConnect
  | sopTcpConnect hk =>
    rcases sopTcpConnect_cases s _ with ⟨-, heq⟩ | ⟨c, -, heq⟩
    · rw [heq]
      exact hs.of_inUse rfl rfl hs.queued (fun _ => rfl) hs.peer fun _ h => h
    · rw [heq]
      exact hs.of_inUse rfl rfl hs.queued (fun _ => rfl) hs.peer fun _ h => h
  | stop hk =>
    rcases stop_cases s _ with ⟨-, heq⟩ | ⟨c, -, heq⟩
    · rw [heq]
      exact hs.of_inUse rfl rfl hs.queued (fun _ => rfl) hs.peer fun _ h => h
    · rw [heq]
      refine hs.of_inUse rfl rfl hs.queued (server_update rfl) (peer_update hs.peer (hs.peer c)) ?_
      rintro d ⟨hd, hopen | hrest⟩
      · exact ⟨hd, Or.inl (isOpen_of_update hopen id)⟩
      · exact ⟨hd, Or.inr hrest⟩
  | clear hk =>
    refine hs.of_inUse rfl rfl hs.queued (fun _ => rfl) hs.peer ?_
    rintro d ⟨hd, -⟩
    cases hd
  | sendMessage message =>
    have hstart := hs.startTcpConnect
    refine hstart.of_inUse rfl rfl (fun u hu => ?_) (fun _ => rfl) hstart.peer fun _ h => h
    rcases List.mem_append.mp hu with hu | hu
    · exact hstart.queued u hu
    · obtain rfl := List.mem_singleton.mp hu
      rfl
  | create ht => exact hs.create _
  | enter ht => exact hs.enter ht
  | connect ht => exact hs.connect ht
  | refuse ht =>
    exact hs.of_inUse rfl rfl hs.queued (fun _ => rfl) hs.peer fun c hc => hc.of_update rfl rfl id (by simp)
  | @run t c ht =>
    refine hs.of_inUse rfl rfl hs.queued (server_update rfl) (peer_update hs.peer (hs.peer c)) fun d hd => ?_
    exact hd.of_update rfl rfl (fun h => isOpen_of_update h id) (by simp)
  | execute hq => exact hs.execute hq
  | @lose c socket hsocket =>
    refine hs.of_inUse rfl rfl hs.queued (server_update rfl) (peer_update hs.peer ?_) ?_
    · intro lost hlost
      cases hlost
      exact hs.peer c socket hsocket
    · rintro d ⟨hd, hopen | hrest⟩
      · refine ⟨hd, Or.inl (isOpen_of_update hopen ?_)⟩
        rintro ⟨lost, hlost, halive⟩
        cases hlost
        cases halive
      · exact ⟨hd, Or.inr hrest⟩
  | watchdogStop c =>
    refine hs.of_inUse rfl rfl hs.queued (server_update rfl) (peer_update hs.peer (hs.peer c)) ?_
    rintro d ⟨hd, hopen | hrest⟩
    · exact ⟨hd, Or.inl (isOpen_of_update hopen id)⟩
    · exact ⟨hd, Or.inr hrest⟩

theorem aimed_init : Aimed .init where
  directed w hw := by cases hw
  queued u hu := by cases hu
  peer c socket h := by cases h
  inUse c hc := by cases hc.1

/-- **When the endpoint is changed with nothing queued and no client in use only, every upload
that is written goes to the endpoint set when it was handed over.** -/
theorem directed_of_careful (as : List Action) (h : Guarded step Careful .init as) :
    Always step Directed .init as :=
  Always.imp (fun _ hs => hs.directed) as _
    (always_of_guarded Aimed (fun _ _ _ hs hcareful hstep => aimed_step hs hcareful (step_cases hstep)) as _ aimed_init h)

/-- Actions that leave the endpoint alone are careful. -/
theorem careful_of_forall (as : List Action) (h : ∀ a ∈ as, ∀ e, a ≠ .setIpAddressAndPort e) (s : State) :
    Guarded step Careful s as :=
  Guarded.imp (fun _ _ ha e he => absurd he (ha e)) as s (guarded_of_forall as h s)

theorem directed_of_careful_first : Always step Directed .init
    [.setIpAddressAndPort ⟨lit "10.0.0.7", 80⟩, .sendMessage [1], .create 0, .enter 0, .connect 0, .run 0, .execute] := by
  refine directed_of_careful _ fun s' _ => ⟨fun e _ _ => ⟨rfl, fun c hc => by cases hc.1⟩, ?_⟩
  exact careful_of_forall _ (by simp) s'

/-- The endpoint is changed while the client for the old one is connected. -/
theorem not_directed_change : ¬ Always step Directed .init
    [.startTcpConnect, .create 0, .enter 0, .connect 0, .run 0,
      .setIpAddressAndPort ⟨lit "10.0.0.7", 80⟩, .sendMessage [1], .execute] := by
  intro h
  have hend : Directed _ := h.after rfl
  exact absurd hend (by decide)

end GpsTracker.Tcp
