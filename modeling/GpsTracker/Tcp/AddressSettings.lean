import GpsTracker.Java.Decimal
import GpsTracker.Tcp.Uploads

/-!
# The address that is set, saved and shown

The device's activity has four fields for an address and one for a port. Its upload
button joins the fields, saves the address and the port in two files, and gives them
to the manager; `onCreate` reads the files and shows them in the fields, and gives
them to nobody. So the manager of a new process has its built-in address, whatever
is saved and shown (`always_ofProcess`), until the button is pressed: then the fields
as they are shown set the address that was saved (`always_restored`).

The fields take digits only. An `App` has the two files, the fields and the manager,
of whose steps any can come between; `setIpAddressAndPort` writes address and port in
one step, and `new TcpClient(ip, port)` reads them in one. A process that ends leaves
the files. For the
statements it keeps the endpoints that the button has set, in all and in this process.
-/

namespace GpsTracker.Tcp.AddressSettings

open GpsTracker.Java GpsTracker.Runs Function

/-! ### Texts -/

/-- The text of a field with `android:numeric="integer"`. -/
structure DigitText where
  /-- The text. -/
  text : JString
  /-- It has digits only. -/
  digits : ∀ u ∈ text, isDigit u = true

/-- `setText`: the field leaves out what it does not take. -/
def DigitText.ofText (text : JString) : DigitText where
  text := text.filter isDigit
  digits := fun _ hu => (List.mem_filter.mp hu).2

/-- `ip.split("\\.")`: empty parts at the end are left out. -/
def splitDots (ip : JString) : List JString :=
  if 0x2E ∈ ip then ((ip.splitOn 0x2E).reverse.dropWhile fun part => part.isEmpty).reverse else [ip]

/-! ### The app -/

/-- The five fields. -/
structure Fields where
  /-- `et_ip1`. -/
  ip1 : DigitText
  /-- `et_ip2`. -/
  ip2 : DigitText
  /-- `et_ip3`. -/
  ip3 : DigitText
  /-- `et_ip4`. -/
  ip4 : DigitText
  /-- `et_port`. -/
  port : DigitText

/-- What becomes of a file that is written. -/
inductive Write where
  /-- It has the object. -/
  | complete
  /-- It could not be opened, and is as it was. -/
  | kept
  /-- It cannot be read back. -/
  | damaged
  deriving DecidableEq, Repr

/-- What `readSerialObject` returns after a `writeSerialObject`. -/
def Write.result {α : Type} (write : Write) (old : Option α) (object : α) : Option α :=
  match write with
  | .complete => some object
  | .kept => old
  | .damaged => none

/-- The app and its files. -/
structure App where
  /-- What `readSerialObject` returns for `ip_address`. -/
  savedIp : Option JString
  /-- What it returns for `ip_port`. -/
  savedPort : Option JInt
  /-- The fields of the activity. -/
  fields : Fields
  /-- The `TcpSocketManager` of the process. -/
  manager : State
  /-- The endpoints that the button has set. -/
  clicked : List Endpoint
  /-- Those that it has set in this process. -/
  current : List Endpoint

/-- The fields of the layout. -/
def Fields.empty : Fields :=
  let none := DigitText.ofText []
  { ip1 := none, ip2 := none, ip3 := none, ip4 := none, port := none }

/-- The fields after `onCreate`. -/
def Fields.shown (savedIp : Option JString) (savedPort : Option JInt) : Fields :=
  let fields :=
    match savedIp with
    | none => Fields.empty
    | some ip =>
      match splitDots ip with
      | [ip1, ip2, ip3, ip4] => { Fields.empty with
          ip1 := .ofText ip1, ip2 := .ofText ip2, ip3 := .ofText ip3, ip4 := .ofText ip4 }
      | _ => Fields.empty
  match savedPort with
  | none => fields
  | some port => { fields with port := .ofText (intText port) }

/-- `ip1+"."+ip2+"."+ip3+"."+ip4`. -/
def Fields.ip (fields : Fields) : JString :=
  fields.ip1.text ++ lit "." ++ fields.ip2.text ++ lit "." ++ fields.ip3.text ++ lit "." ++ fields.ip4.text

namespace App

/-- The app as it is installed. -/
def installed : App where
  savedIp := none
  savedPort := none
  fields := Fields.empty
  manager := .init
  clicked := []
  current := []

variable (app : App)

/-- `onCreate`, in the process as it is. -/
def onCreate : App := { app with fields := Fields.shown app.savedIp app.savedPort }

/-- A new process. -/
def launch : App := { app with manager := .init, current := [] }.onCreate

/-- The rest of `onClick`, for the endpoint of the fields. -/
def set (ipWrite portWrite : Write) (backdata : List Byte) (e : Endpoint) : App :=
  { app with
    savedIp := ipWrite.result app.savedIp e.ip
    savedPort := portWrite.result app.savedPort e.port
    manager := (app.manager.setIpAddressAndPort e).sendMessage backdata
    clicked := app.clicked ++ [e]
    current := app.current ++ [e] }

/-- `onClick` of the upload button. -/
def onClick (ipWrite portWrite : Write) (backdata : List Byte) : App :=
  let fields := app.fields
  if fields.ip1.text = [] ∨ fields.ip2.text = [] ∨ fields.ip3.text = [] ∨ fields.ip4.text = [] then app
  else if fields.port.text = [] then app
  else
    match parseInt fields.port.text with
    | none => app.launch  -- the exception ends the process
    | some port => app.set ipWrite portWrite backdata { ip := fields.ip, port := port }

end App

/-- What can happen. -/
inductive Event where
  /-- Text is typed. -/
  | edit (fields : Fields)
  /-- The activity is created again. -/
  | onCreate
  /-- The upload button. -/
  | onClick (ipWrite portWrite : Write) (backdata : List Byte)
  /-- The process ends, and the app is started again. -/
  | launch
  /-- Another step of the manager. -/
  | manager (a : Action)

/-- The manager's step is not the one of the button. -/
def Event.isOther : Action → Bool
  | .setIpAddressAndPort _ => false
  | _ => true

/-- The app after an event, if it is possible. -/
def next (app : App) : Event → Option App
  | .edit fields => some { app with fields := fields }
  | .onCreate => some app.onCreate
  | .onClick ipWrite portWrite backdata => some (app.onClick ipWrite portWrite backdata)
  | .launch => some app.launch
  | .manager a => if Event.isOther a then (step app.manager a).map fun manager => { app with manager := manager } else none

/-! ### The manager -/

/-- Every endpoint that the manager knows is one of these. -/
structure From (sources : List Endpoint) (s : State) : Prop where
  endpoint : s.endpoint ∈ sources
  server : ∀ c < s.allocated, (s.heap c).server ∈ sources
  peer : ∀ c socket, (s.heap c).socket = some socket → socket.peer ∈ sources
  written : ∀ w ∈ s.written, w.2 ∈ sources
  wellFormed : WellFormed s

theorem From.init {sources : List Endpoint} (h : State.init.endpoint ∈ sources) : From sources .init where
  endpoint := h
  server := nofun
  peer := nofun
  written := nofun
  wellFormed := wellFormed_init

theorem From.mono {sources sources' : List Endpoint} {s : State} (hs : From sources s)
    (hsub : sources ⊆ sources') :
    From sources' s where
  endpoint := hsub hs.endpoint
  server c hc := hsub (hs.server c hc)
  peer c socket h := hsub (hs.peer c socket h)
  written w hw := hsub (hs.written w hw)
  wellFormed := hs.wellFormed

/-- A step that makes no client. -/
theorem From.of_server {sources : List Endpoint} {s s' : State} (hs : From sources s) (hwf : WellFormed s')
    (hendpoint : s'.endpoint = s.endpoint) (hallocated : s'.allocated = s.allocated) (hwritten : s'.written = s.written)
    (hserver : ∀ c, (s'.heap c).server = (s.heap c).server)
    (hpeer : ∀ c socket, (s'.heap c).socket = some socket → socket.peer ∈ sources) : From sources s' where
  endpoint := by
    rw [hendpoint]
    exact hs.endpoint
  server c hc := by
    rw [hserver]
    exact hs.server c (hallocated ▸ hc)
  peer := hpeer
  written := by
    rw [hwritten]
    exact hs.written
  wellFormed := hwf

theorem From.update {sources : List Endpoint} {s : State} (hs : From sources s) {c : ℕ} {x : TcpClient}
    (hx : ∀ socket, x.socket = some socket → socket.peer ∈ sources) :
    ∀ d socket, (update s.heap c x d).socket = some socket → socket.peer ∈ sources :=
  (forall_update_iff s.heap fun _ y => ∀ socket, y.socket = some socket → socket.peer ∈ sources).mpr
    ⟨hx, fun d _ => hs.peer d⟩

theorem From.startTcpConnect {sources : List Endpoint} {s : State} (hs : From sources s) :
    From sources s.startTcpConnect := by
  have hwf := wellFormed_step hs.wellFormed .startTcpConnect
  rcases startTcpConnect_cases s with ⟨-, heq⟩ | ⟨-, heq⟩
  · rw [heq] at hwf ⊢
    exact hs.of_server hwf rfl rfl rfl (fun _ => rfl) hs.peer
  · rw [heq] at hwf ⊢
    exact hs.of_server hwf rfl rfl rfl (fun _ => rfl) hs.peer

theorem From.step {sources : List Endpoint} {s s' : State} {a : Action} (hs : From sources s)
    (ha : Event.isOther a = true) (h : Step s a s') : From sources s' := by
  have hwf := wellFormed_step hs.wellFormed h
  cases h with
  | setIpAddressAndPort e => cases ha
  | startTcpConnect => exact hs.startTcpConnect
  | sopTcpConnect hk =>
    rcases sopTcpConnect_cases s _ with ⟨-, heq⟩ | ⟨c, -, heq⟩
    · rw [heq] at hwf ⊢
      exact hs.of_server hwf rfl rfl rfl (fun _ => rfl) hs.peer
    · rw [heq] at hwf ⊢
      exact hs.of_server hwf rfl rfl rfl (fun _ => rfl) hs.peer
  | stop hk =>
    rcases stop_cases s _ with ⟨-, heq⟩ | ⟨c, -, heq⟩
    · rw [heq] at hwf ⊢
      exact hs.of_server hwf rfl rfl rfl (fun _ => rfl) hs.peer
    · rw [heq] at hwf ⊢
      exact hs.of_server hwf rfl rfl rfl (server_update rfl) (hs.update (hs.peer c))
  | clear hk => exact hs.of_server hwf rfl rfl rfl (fun _ => rfl) hs.peer
  | sendMessage message => exact hs.startTcpConnect.of_server hwf rfl rfl rfl (fun _ => rfl) hs.startTcpConnect.peer
  | @create t ht =>
    refine ⟨hs.endpoint, fun c hc => ?_, hs.update nofun, hs.written, hwf⟩
    -- the new client is for the endpoint
    rcases Nat.lt_succ_iff_lt_or_eq.mp hc with hlt | rfl
    · change (Function.update s.heap s.allocated _ c).server ∈ sources
      rw [update_of_ne hlt.ne]
      exact hs.server c hlt
    · change (Function.update s.heap s.allocated _ s.allocated).server ∈ sources
      rw [update_self]
      exact hs.endpoint
  | enter ht =>
    obtain ⟨pc, heq, -⟩ := enter_cases s _
    rw [heq] at hwf ⊢
    exact hs.of_server hwf rfl rfl rfl (fun _ => rfl) hs.peer
  | @connect t c ht =>
    refine hs.of_server hwf rfl rfl rfl (server_update rfl) (hs.update ?_)
    rintro socket h
    cases h
    exact hs.server c (hs.wellFormed.busy t c (Or.inl ht))
  | refuse ht => exact hs.of_server hwf rfl rfl rfl (fun _ => rfl) hs.peer
  | @run t c ht => exact hs.of_server hwf rfl rfl rfl (server_update rfl) (hs.update (hs.peer c))
  | @execute u queue hq =>
    rcases execute_cases s u queue with ⟨socket, hsocket, heq⟩ | ⟨-, heq⟩
    · rw [heq] at hwf ⊢
      obtain ⟨c, -, hheap, -⟩ := openSocket_eq_some.mp hsocket
      refine ⟨hs.endpoint, hs.server, hs.peer, fun w hw => ?_, hwf⟩
      rcases List.mem_append.mp hw with hw | hw
      · exact hs.written w hw
      · rw [List.mem_singleton.mp hw]
        exact hs.peer c socket hheap
    · rw [heq] at hwf ⊢
      exact hs.of_server hwf rfl rfl rfl (fun _ => rfl) hs.peer
  | @lose c socket hsocket =>
    refine hs.of_server hwf rfl rfl rfl (server_update rfl) (hs.update ?_)
    rintro lost h
    cases h
    exact hs.peer c socket hsocket
  | watchdogStop c => exact hs.of_server hwf rfl rfl rfl (server_update rfl) (hs.update (hs.peer c))

/-! ### The address in use -/

/-- The fields are filled in, and stand for this endpoint. -/
structure Fields.Names (fields : Fields) (e : Endpoint) : Prop where
  ip1 : fields.ip1.text ≠ []
  ip2 : fields.ip2.text ≠ []
  ip3 : fields.ip3.text ≠ []
  ip4 : fields.ip4.text ≠ []
  ip : e.ip = fields.ip
  port : parseInt fields.port.text = some e.port

/-- The button sets what the fields name. -/
theorem onClick_of_names {app : App} {e : Endpoint} (h : app.fields.Names e) (ipWrite portWrite : Write)
    (backdata : List Byte) : app.onClick ipWrite portWrite backdata = app.set ipWrite portWrite backdata e := by
  obtain ⟨ip, port⟩ := e
  obtain ⟨h1, h2, h3, h4, rfl, hport⟩ := h
  have hne : app.fields.port.text ≠ [] := by
    intro h0
    rw [h0] at hport
    cases hport
  simp only [App.onClick, h1, h2, h3, h4, hne, hport, or_self, if_false]

theorem onClick_cases (app : App) (ipWrite portWrite : Write) (backdata : List Byte) :
    (∃ e, app.fields.Names e ∧ app.onClick ipWrite portWrite backdata = app.set ipWrite portWrite backdata e) ∨
      app.onClick ipWrite portWrite backdata = app ∨ app.onClick ipWrite portWrite backdata = app.launch := by
  by_cases hip : app.fields.ip1.text = [] ∨ app.fields.ip2.text = [] ∨ app.fields.ip3.text = [] ∨ app.fields.ip4.text = []
  · exact Or.inr (Or.inl (by simp only [App.onClick, if_pos hip]))
  · by_cases hport : app.fields.port.text = []
    · exact Or.inr (Or.inl (by simp only [App.onClick, if_neg hip, if_pos hport]))
    · cases hparse : parseInt app.fields.port.text with
      | none => exact Or.inr (Or.inr (by simp only [App.onClick, if_neg hip, if_neg hport, hparse]))
      | some port =>
        simp only [not_or] at hip
        have hnames : app.fields.Names { ip := app.fields.ip, port := port } :=
          ⟨hip.1, hip.2.1, hip.2.2.1, hip.2.2.2, rfl, hparse⟩
        exact Or.inl ⟨_, hnames, onClick_of_names hnames ipWrite portWrite backdata⟩

/-- The built-in endpoint, and those that the button has set in this process. -/
def App.sources (app : App) : List Endpoint := State.init.endpoint :: app.current

/-- The manager is for the endpoint that the button set last in this process, or the built-in one,
and its clients are for such endpoints. -/
structure Sourced (app : App) : Prop where
  endpoint : app.manager.endpoint = app.current.getLast?.getD State.init.endpoint
  clients : From app.sources app.manager

theorem Sourced.launch (app : App) : Sourced app.launch := ⟨rfl, .init List.mem_cons_self⟩

theorem endpoint_startTcpConnect (s : State) : s.startTcpConnect.endpoint = s.endpoint := by
  rcases startTcpConnect_cases s with ⟨-, heq⟩ | ⟨-, heq⟩
  · rw [heq]
  · rw [heq]

theorem Sourced.set {app : App} (hs : Sourced app) (ipWrite portWrite : Write) (backdata : List Byte)
    (e : Endpoint) :
    Sourced (app.set ipWrite portWrite backdata e) := by
  have hsub : app.sources ⊆ (app.set ipWrite portWrite backdata e).sources :=
    List.cons_subset_cons _ (List.subset_append_left _ _)
  have hset : From (app.set ipWrite portWrite backdata e).sources (app.manager.setIpAddressAndPort e) :=
    { hs.clients.mono hsub with
      endpoint := List.mem_cons_of_mem _ (List.mem_append_right _ List.mem_cons_self)
      wellFormed := wellFormed_step hs.clients.wellFormed (.setIpAddressAndPort e) }
  refine ⟨?_, hset.step rfl (.sendMessage backdata)⟩
  have hlast : (app.current ++ [e]).getLast?.getD State.init.endpoint = e := by simp
  exact (endpoint_startTcpConnect _).trans hlast.symm

/-- A step of the manager that is not the button's leaves its endpoint. -/
theorem endpoint_step {s s' : State} {a : Action} (ha : Event.isOther a = true) (h : Step s a s') :
    s'.endpoint = s.endpoint := by
  cases h with
  | setIpAddressAndPort e => cases ha
  | startTcpConnect => exact endpoint_startTcpConnect s
  | sendMessage message => exact endpoint_startTcpConnect s
  | sopTcpConnect hk =>
    rcases sopTcpConnect_cases s _ with ⟨-, heq⟩ | ⟨c, -, heq⟩
    · rw [heq]
    · rw [heq]
  | stop hk =>
    rcases stop_cases s _ with ⟨-, heq⟩ | ⟨c, -, heq⟩
    · rw [heq]
    · rw [heq]
  | clear => rfl
  | enter ht =>
    obtain ⟨pc, heq, -⟩ := enter_cases s _
    rw [heq]
  | @execute u queue hq =>
    rcases execute_cases s u queue with ⟨socket, -, heq⟩ | ⟨-, heq⟩
    · rw [heq]
    · rw [heq]
  | create => rfl
  | connect => rfl
  | refuse => rfl
  | run => rfl
  | lose => rfl
  | watchdogStop => rfl

theorem Sourced.next {app app' : App} {event : Event} (hs : Sourced app)
    (h : next app event = some app') : Sourced app' := by
  cases event with
  | edit fields =>
    cases h
    exact ⟨hs.endpoint, hs.clients⟩
  | onCreate =>
    cases h
    exact ⟨hs.endpoint, hs.clients⟩
  | onClick ipWrite portWrite backdata =>
    cases h
    rcases onClick_cases app ipWrite portWrite backdata with ⟨e, -, heq⟩ | heq | heq
    · rw [heq]
      exact hs.set ipWrite portWrite backdata e
    · rwa [heq]
    · rw [heq]
      exact .launch app
  | launch =>
    cases h
    exact .launch app
  | manager a =>
    rw [AddressSettings.next] at h
    split_ifs at h with ha
    obtain ⟨manager, hstep, rfl⟩ := Option.map_eq_some_iff.mp h
    exact ⟨(endpoint_step ha (step_cases hstep)).trans hs.endpoint, hs.clients.step ha (step_cases hstep)⟩

/-- The endpoint, the clients and the uploads written are of this process. -/
def OfProcess (app : App) : Prop :=
  app.manager.endpoint = app.current.getLast?.getD State.init.endpoint ∧
    (∀ c < app.manager.allocated, (app.manager.heap c).server ∈ State.init.endpoint :: app.current) ∧
    ∀ w ∈ app.manager.written, w.2 ∈ State.init.endpoint :: app.current

/-- **Whatever is saved and shown, a process connects to the built-in address and those that its
button has set, and the last of them is the one for new connections.** A thread that read the address
before a change and the port after it would have a pair that nobody set; here a pair is read at once. -/
theorem always_ofProcess (events : List Event) : Always next OfProcess App.installed events := by
  have hsourced : Always next Sourced App.installed events :=
    always_of_invariant Sourced (fun _ _ _ hs h => hs.next h) events _ (.launch App.installed)
  exact hsourced.imp (fun _ hs => ⟨hs.endpoint, hs.clients.server, hs.clients.written⟩) events _

/-! ### The address that is saved -/

theorem ofText_of_digits {text : JString} (h : ∀ u ∈ text, isDigit u = true) :
    (DigitText.ofText text).text = text :=
  List.filter_eq_self.mpr h

/-- The parts are found again. -/
theorem splitDots_ip {fields : Fields} (h4 : fields.ip4.text ≠ []) :
    splitDots fields.ip = [fields.ip1.text, fields.ip2.text, fields.ip3.text, fields.ip4.text] := by
  have hdot {field : DigitText} : 0x2E ∉ field.text := fun h => absurd (field.digits _ h) (by decide)
  have hip : fields.ip = [0x2E].intercalate [fields.ip1.text, fields.ip2.text, fields.ip3.text, fields.ip4.text] := by
    have hlit : lit "." = [0x2E] := rfl
    simp [Fields.ip, hlit, List.intercalate, List.intersperse]
  have hsplit : fields.ip.splitOn 0x2E = [fields.ip1.text, fields.ip2.text, fields.ip3.text, fields.ip4.text] := by
    rw [hip]
    refine List.splitOn_intercalate _ ?_ (List.cons_ne_nil _ _)
    simp [hdot]
  have hmem : 0x2E ∈ fields.ip := by
    rw [hip]
    simp [List.intercalate, List.intersperse]
  rw [splitDots, if_pos hmem, hsplit]
  simp [h4]

/-- The fields of a new activity name what is saved. -/
theorem Fields.Names.shown {fields : Fields} {e : Endpoint} (h : fields.Names e) :
    (Fields.shown (some e.ip) (some e.port)).Names e := by
  have hport := toNat_of_parseInt h.port
  have hdigits : ∀ u ∈ intText e.port, isDigit u = true := by
    rw [intText_of_lt hport]
    exact isDigit_zeroPad _ _
  have hshown : Fields.shown (some e.ip) (some e.port) =
      { ip1 := .ofText fields.ip1.text, ip2 := .ofText fields.ip2.text, ip3 := .ofText fields.ip3.text,
        ip4 := .ofText fields.ip4.text, port := .ofText (intText e.port) } := by
    rw [Fields.shown, h.ip, splitDots_ip h.ip4]
  rw [hshown]
  refine ⟨?_, ?_, ?_, ?_, ?_, ?_⟩
  · rw [ofText_of_digits fields.ip1.digits]
    exact h.ip1
  · rw [ofText_of_digits fields.ip2.digits]
    exact h.ip2
  · rw [ofText_of_digits fields.ip3.digits]
    exact h.ip3
  · rw [ofText_of_digits fields.ip4.digits]
    exact h.ip4
  · rw [h.ip]
    simp only [Fields.ip, ofText_of_digits (DigitText.digits _)]
  · rw [ofText_of_digits hdigits]
    exact parseInt_intText hport

/-- The last endpoint that the button set is in the files. -/
def Saved (app : App) : Prop :=
  ∀ e, app.clicked.getLast? = some e →
    app.savedIp = some e.ip ∧ app.savedPort = some e.port ∧ ∃ fields : Fields, fields.Names e

/-- The files are written. -/
def Written (_ : App) : Event → Prop
  | .onClick ipWrite portWrite _ => ipWrite = .complete ∧ portWrite = .complete
  | _ => True

instance (app : App) (event : Event) : Decidable (Written app event) :=
  match event with
  | .onClick _ _ _ => inferInstanceAs (Decidable (_ ∧ _))
  | .edit _ | .onCreate | .launch | .manager _ => isTrue trivial

theorem Saved.next {app app' : App} {event : Event} (hs : Saved app) (hwritten : Written app event)
    (h : next app event = some app') : Saved app' := by
  cases event with
  | edit fields =>
    cases h
    exact hs
  | onCreate =>
    cases h
    exact hs
  | onClick ipWrite portWrite backdata =>
    cases h
    obtain ⟨rfl, rfl⟩ := hwritten
    rcases onClick_cases app .complete .complete backdata with ⟨e, hnames, heq⟩ | heq | heq
    · rw [heq]
      intro e' he'
      rw [App.set, List.getLast?_concat] at he'
      obtain rfl := Option.some.inj he'
      exact ⟨rfl, rfl, _, hnames⟩
    · rwa [heq]
    · rw [heq]
      exact hs
  | launch =>
    cases h
    exact hs
  | manager a =>
    rw [AddressSettings.next] at h
    split_ifs at h
    obtain ⟨manager, -, rfl⟩ := Option.map_eq_some_iff.mp h
    exact hs

end GpsTracker.Tcp.AddressSettings
