import GpsTracker.Library.Costs
import GpsTracker.Tcp.Uploads

/-!
# What a call can lead to

Uploads get lost, and a call can spawn a connect thread beside others that are under
way. But whatever is lost, refused or stopped in between: no upload is written twice
or before an earlier one (`always_inOrder`), and a call leads to one client, one
connection and four steps of a thread at most (`effort_le`).
-/

namespace GpsTracker.Tcp

open GpsTracker.Java GpsTracker.Runs Function

/-! ### The order of the uploads -/

/-- The uploads written, followed by those queued, are among those handed over, each once and in order. -/
def InOrder (s : State) : Prop := (s.written.map Prod.fst ++ s.queue).Sublist s.sent

instance (s : State) : Decidable (InOrder s) := inferInstanceAs (Decidable (List.Sublist _ _))

theorem inOrder_startTcpConnect {s : State} (hs : InOrder s) : InOrder s.startTcpConnect := by
  rcases startTcpConnect_cases s with ⟨-, heq⟩ | ⟨-, heq⟩
  · rw [heq]
    exact hs
  · rw [heq]
    exact hs

theorem inOrder_step {s s' : State} {a : Action} (hs : InOrder s) (h : Step s a s') : InOrder s' := by
  cases h with
  | startTcpConnect => exact inOrder_startTcpConnect hs
  | sopTcpConnect hk =>
    rcases sopTcpConnect_cases s _ with ⟨-, heq⟩ | ⟨c, -, heq⟩
    · rw [heq]
      exact hs
    · rw [heq]
      exact hs
  | stop hk =>
    rcases stop_cases s _ with ⟨-, heq⟩ | ⟨c, -, heq⟩
    · rw [heq]
      exact hs
    · rw [heq]
      exact hs
  | sendMessage message =>
    have hstart := inOrder_startTcpConnect hs
    unfold InOrder State.sendMessage State.enqueue
    rw [← List.append_assoc]
    exact hstart.append (List.Sublist.refl _)
  | enter ht =>
    obtain ⟨pc, heq, -⟩ := enter_cases s _
    rw [heq]
    exact hs
  | @execute u queue hq =>
    unfold InOrder at hs ⊢
    rw [hq] at hs
    rcases execute_cases s u queue with ⟨socket, -, heq⟩ | ⟨-, heq⟩
    · rw [heq]
      simp only [List.map_append, List.map_cons, List.map_nil, List.append_assoc, List.singleton_append]
      exact hs
    · -- the upload is lost, and the others stay in their order
      rw [heq]
      exact ((List.sublist_cons_self u queue).append_left _).trans hs
  | setIpAddressAndPort e | clear hk | create ht | connect ht | refuse ht | run ht | lose hsocket | watchdogStop c =>
    exact hs

/-- **In every run the uploads are written in the order in which they were handed over, and none twice.** -/
theorem always_inOrder (as : List Action) : Always step InOrder .init as :=
  always_of_invariant InOrder (fun _ _ _ hs h => inOrder_step hs (step_cases h)) as _ (List.Sublist.refl _)

/-! ### Steps of the threads -/

/-- A call that can spawn a thread. -/
def Action.isCall : Action → Bool
  | .startTcpConnect => true
  | .sendMessage _ => true
  | _ => false

/-- A client is made. -/
def Action.isCreate : Action → Bool
  | .create _ => true
  | _ => false

/-- A connection is opened. -/
def Action.isConnect : Action → Bool
  | .connect _ => true
  | _ => false

/-- A connect thread makes a step. -/
def Action.isOfThread : Action → Bool
  | .create _ => true
  | .enter _ => true
  | .connect _ => true
  | .refuse _ => true
  | .run _ => true
  | _ => false

/-- The steps of a connect thread. -/
inductive Moves : ConnectThread → Action → ConnectThread → Prop where
  | create (t : ℕ) : Moves .spawned (.create t) .created
  | leave (t : ℕ) : Moves .created (.enter t) .finished
  | enter (t c : ℕ) : Moves .created (.enter t) (.connecting c)
  | connect (t c : ℕ) : Moves (.connecting c) (.connect t) (.connected c)
  | refuse (t c : ℕ) : Moves (.connecting c) (.refuse t) .finished
  | run (t c : ℕ) : Moves (.connected c) (.run t) .finished

/-- What a step does to the threads: one moves, one is new, or they stay. -/
theorem threads_of_step {s s' : State} {a : Action} (hs : WellFormed s) (h : Step s a s') :
    (∃ t pc, t < s.born ∧ Moves (s.threads t) a pc ∧ s'.threads = update s.threads t pc ∧ s'.born = s.born) ∨
      (a.isCall = true ∧ s'.threads = update s.threads s.born .spawned ∧ s'.born = s.born + 1) ∨
      a.isOfThread = false ∧ s'.threads = s.threads ∧ s'.born = s.born := by
  have hlt {t : ℕ} (ht : s.threads t ≠ .unborn) : t < s.born := lt_of_not_ge fun hle => ht (hs.unborn t hle)
  cases h with
  | startTcpConnect =>
    rcases startTcpConnect_cases s with ⟨-, heq⟩ | ⟨-, heq⟩
    · exact Or.inr (Or.inr ⟨rfl, by rw [heq], by rw [heq]⟩)
    · exact Or.inr (Or.inl ⟨rfl, by rw [heq], by rw [heq]⟩)
  | sendMessage message =>
    rcases startTcpConnect_cases s with ⟨-, heq⟩ | ⟨-, heq⟩
    · exact Or.inr (Or.inr ⟨rfl, by rw [State.sendMessage, heq]; rfl, by rw [State.sendMessage, heq]; rfl⟩)
    · exact Or.inr (Or.inl ⟨rfl, by rw [State.sendMessage, heq]; rfl, by rw [State.sendMessage, heq]; rfl⟩)
  | sopTcpConnect hk =>
    rcases sopTcpConnect_cases s _ with ⟨-, heq⟩ | ⟨c, -, heq⟩
    · exact Or.inr (Or.inr ⟨rfl, by rw [heq], by rw [heq]⟩)
    · exact Or.inr (Or.inr ⟨rfl, by rw [heq], by rw [heq]⟩)
  | stop hk =>
    rcases stop_cases s _ with ⟨-, heq⟩ | ⟨c, -, heq⟩
    · exact Or.inr (Or.inr ⟨rfl, by rw [heq], by rw [heq]⟩)
    · exact Or.inr (Or.inr ⟨rfl, by rw [heq], by rw [heq]⟩)
  | @create t ht => exact Or.inl ⟨t, .created, hlt (by simp [ht]), ht ▸ .create t, rfl, rfl⟩
  | @enter t ht =>
    obtain ⟨pc, heq, hpc⟩ := enter_cases s t
    refine Or.inl ⟨t, pc, hlt (by simp [ht]), ?_, by rw [heq], by rw [heq]⟩
    rw [ht]
    rcases hpc with ⟨rfl, -⟩ | ⟨c, -, -, rfl⟩
    · exact .leave t
    · exact .enter t c
  | @connect t c ht => exact Or.inl ⟨t, .connected c, hlt (by simp [ht]), ht ▸ .connect t c, rfl, rfl⟩
  | @refuse t c ht => exact Or.inl ⟨t, .finished, hlt (by simp [ht]), ht ▸ .refuse t c, rfl, rfl⟩
  | @run t c ht => exact Or.inl ⟨t, .finished, hlt (by simp [ht]), ht ▸ .run t c, rfl, rfl⟩
  | execute hq =>
    rcases execute_cases s _ _ with ⟨socket, -, heq⟩ | ⟨-, heq⟩
    · exact Or.inr (Or.inr ⟨rfl, by rw [heq], by rw [heq]⟩)
    · exact Or.inr (Or.inr ⟨rfl, by rw [heq], by rw [heq]⟩)
  | setIpAddressAndPort e | clear hk | lose hsocket | watchdogStop c => exact Or.inr (Or.inr ⟨rfl, rfl, rfl⟩)

/-- A call is no step of a connect thread. -/
theorem isOfThread_of_isCall {a : Action} (h : a.isCall = true) : a.isOfThread = false := by
  cases a with
  | startTcpConnect => rfl
  | sendMessage message => rfl
  | _ => cases h

/-- **Steps of the threads that are paid by what a thread holds**: a call pays for one thread. -/
theorem count_le (value : ConnectThread → ℕ) (p : Action → Bool)
    (hmoves : ∀ old a pc, Moves old a pc → value pc + (p a).toNat ≤ value old)
    (hthread : ∀ a, a.isOfThread = false → p a = false) (as : List Action) {s : State}
    (h : after step .init as = some s) : as.countP p ≤ value .spawned * as.countP Action.isCall := by
  have hrun := after_count_le (fun _ => 0) (fun s => total value s.threads s.born) p Action.isCall (value .spawned)
    WellFormed (fun s a s' hs hstep => ?_) as wellFormed_init h
  · have hinit : total value State.init.threads State.init.born = 0 := rfl
    omega
  · have hstep := step_cases hstep
    refine ⟨wellFormed_step hs hstep, ?_⟩
    rcases threads_of_step hs hstep with ⟨t, pc, ht, hmove, hthreads, hborn⟩ | ⟨ha, hthreads, hborn⟩ | ⟨ha, hthreads, hborn⟩
    · have hle := hmoves _ _ _ hmove
      have htotal := total_update value s.threads ht pc
      rw [hthreads, hborn]
      omega
    · rw [hthreads, hborn, total_update_succ, hthread a (isOfThread_of_isCall ha), ha]
      simp
    · rw [hthreads, hborn, hthread a ha]
      simp

/-- The steps that a thread has before it. -/
def ConnectThread.stepsLeft : ConnectThread → ℕ
  | .spawned => 4
  | .created => 3
  | .connecting _ => 2
  | .connected _ => 1
  | _ => 0

/-- The clients it will make. -/
def ConnectThread.clientsLeft : ConnectThread → ℕ
  | .spawned => 1
  | _ => 0

/-- The connections it can open. -/
def ConnectThread.connectionsLeft : ConnectThread → ℕ
  | .spawned => 1
  | .created => 1
  | .connecting _ => 1
  | _ => 0

/-- **In every run a call leads to one client, one connection and four steps of a connect thread at most.** -/
theorem effort_le (as : List Action) {s : State} (h : after step .init as = some s) :
    as.countP Action.isCreate ≤ as.countP Action.isCall ∧ as.countP Action.isConnect ≤ as.countP Action.isCall ∧
      as.countP Action.isOfThread ≤ 4 * as.countP Action.isCall := by
  refine ⟨?_, ?_, ?_⟩
  · have hcreate := count_le ConnectThread.clientsLeft Action.isCreate (fun _ _ _ hmove => ?_) (fun a ha => ?_) as h
    · rwa [ConnectThread.clientsLeft, Nat.one_mul] at hcreate
    · cases hmove <;> simp [ConnectThread.clientsLeft, Action.isCreate]
    · cases a with
      | create t => cases ha
      | _ => rfl
  · have hconnect := count_le ConnectThread.connectionsLeft Action.isConnect (fun _ _ _ hmove => ?_) (fun a ha => ?_) as h
    · rwa [ConnectThread.connectionsLeft, Nat.one_mul] at hconnect
    · cases hmove <;> simp [ConnectThread.connectionsLeft, Action.isConnect]
    · cases a with
      | connect t => cases ha
      | _ => rfl
  · refine count_le ConnectThread.stepsLeft Action.isOfThread (fun _ _ _ hmove => ?_) (fun _ => id) as h
    cases hmove <;> simp [ConnectThread.stepsLeft, Action.isOfThread]

/-- Two calls before a client runs: two clients, of which the second is connected twice. -/
def twoCalls : List Action :=
  [.startTcpConnect, .sendMessage [1], .create 0, .create 1, .enter 0, .enter 1, .connect 0,
  .connect 1, .run 0, .run 1]

theorem effort_le_two_calls : twoCalls.countP Action.isCreate ≤ twoCalls.countP Action.isCall ∧
    twoCalls.countP Action.isConnect ≤ twoCalls.countP Action.isCall ∧
      twoCalls.countP Action.isOfThread ≤ 4 * twoCalls.countP Action.isCall := effort_le twoCalls rfl

end GpsTracker.Tcp
