import Praas.ControlPlane.Turns

/-! # The capacity of a process

A process that the control plane created for an invocation is added to the reusable
ones when the backend reports it, and receives its own invocation later, once the
instance has connected. In between it counts no invocation, and another request can
select it.
* `capacity_kept` — a run in which no request selects a process whose own invocation
  is still to come never gives a process a second unfinished invocation.
-/

namespace Praas.ControlPlane

/-- The invocation for which the process was created, until it is added. -/
def Process.createdFor (proc : Process) : Option Invocation :=
  match proc.creationCallback with
  | some (.invoke i) => some i
  | _ => none

/-- The invocation for which the process was created can still arrive. -/
def Process.Due (proc : Process) : Prop :=
  proc.createdFor.isSome ∧
    (proc.connecting ≠ 0 ∨ proc.handle = false ∨ proc.status = .ALLOCATING)

instance (proc : Process) : Decidable proc.Due := by
  unfold Process.Due
  infer_instance

/-- The process that a request selects does not wait for its own invocation. -/
def SelectsSettled (s : State) : Event → Prop
  | .invoke a _ => ∀ p ∈ s.available a, ¬ (s.procs p).Due
  | _ => True

instance (s : State) : (e : Event) → Decidable (SelectsSettled s e)
  | .invoke a _ => inferInstanceAs (Decidable (∀ p ∈ s.available a, ¬ (s.procs p).Due))
  | .addProcess .. | .swapProcess .. | .swappedProcess .. | .deleteProcess .. | .allocated ..
  | .allocationFailed .. | .instanceConnected .. | .runTask | .connected | .processConnection ..
  | .invocationResult .. | .swapConfirmation .. | .processClosure .. | .disconnected .. =>
    isTrue trivial

/-- A process that waits for its own invocation has no other, and it waits for one
only: for the report of the backend, for the connection, or for the instance. -/
structure Single (proc : Process) (o : Option Origin) : Prop where
  bound : proc.activeInvocations ≤ State.maxFuncsPerProcess
  due : proc.Due → proc.activeInvocations ≤ 0
  waits : proc.createdFor.isSome → proc.waitForAllocation = true
  connecting : proc.createdFor.isSome → proc.connecting ≠ 0 →
    proc.handle = true ∧ proc.status ≠ .ALLOCATING ∧ proc.connecting = 1
  reported : proc.handle = true → o = none

section Single

variable {proc x : Process} {o : Option Origin}

theorem createdFor_congr (h : x.creationCallback = proc.creationCallback) :
    x.createdFor = proc.createdFor := by
  unfold Process.createdFor
  rw [h]

/-- The invocations that end and the statuses a process can get later do not matter. -/
theorem Single.mono (h : Single proc o) (hcallback : x.creationCallback = proc.creationCallback)
    (hwait : x.waitForAllocation = proc.waitForAllocation)
    (hconnecting : x.connecting = proc.connecting) (hhandle : x.handle = proc.handle)
    (hactive : x.activeInvocations ≤ proc.activeInvocations)
    (hstatus : x.status = proc.status ∨ x.status ≠ .ALLOCATING) : Single x o := by
  have hfor := createdFor_congr hcallback
  constructor
  case bound => exact hactive.trans h.bound
  case due =>
    rintro ⟨hsome, hwhy⟩
    apply hactive.trans
    apply h.due
    refine ⟨hfor ▸ hsome, ?_⟩
    rw [hconnecting, hhandle] at hwhy
    refine hwhy.imp_right (Or.imp_right fun halloc => ?_)
    rcases hstatus with hsame | hnot
    · exact hsame ▸ halloc
    · exact absurd halloc hnot
  case waits =>
    rw [hfor, hwait]
    exact h.waits
  case connecting =>
    rw [hfor, hconnecting, hhandle]
    intro hsome hne
    rcases h.connecting hsome hne with ⟨hh, halloc, hone⟩
    refine ⟨hh, ?_, hone⟩
    rcases hstatus with hsame | hnot
    · rwa [hsame]
    · exact hnot
  case reported =>
    rw [hhandle]
    exact h.reported

/-- No invocation is to come. -/
theorem single_of_none (hactive : x.activeInvocations ≤ State.maxFuncsPerProcess)
    (hfor : x.createdFor = none) (hreported : x.handle = true → o = none) : Single x o := by
  have hnot : ¬ x.createdFor.isSome := by simp [hfor]
  exact ⟨hactive, fun h => absurd h.1 hnot, fun h => absurd h hnot, fun h => absurd h hnot,
    hreported⟩

/-- What an operation on the invocations of a process leaves as it was. -/
structure SameWait (proc x : Process) : Prop where
  callback : x.creationCallback = proc.creationCallback
  wait : x.waitForAllocation = proc.waitForAllocation
  connecting : x.connecting = proc.connecting
  handle : x.handle = proc.handle
  status : x.status = proc.status

theorem sameWait_addInvocation (proc : Process) (i : Invocation) :
    SameWait proc (proc.addInvocation i).1 ∧
      (proc.addInvocation i).1.activeInvocations = proc.activeInvocations + 1 := by
  rcases proc.addInvocation_changes i with ⟨l, sent, h⟩
  rw [h]
  exact ⟨⟨rfl, rfl, rfl, rfl, rfl⟩, rfl⟩

theorem SameWait.due (h : SameWait proc x) : x.Due ↔ proc.Due := by
  unfold Process.Due
  rw [createdFor_congr h.callback, h.connecting, h.handle, h.status]

/-- A request is added to a process that does not wait for its own. -/
theorem Single.addInvocation (h : Single proc o) (i : Invocation)
    (hcapacity : proc.activeInvocations < State.maxFuncsPerProcess) (hsettled : ¬ proc.Due) :
    Single (proc.addInvocation i).1 o := by
  rcases sameWait_addInvocation proc i with ⟨hsame, hactive⟩
  have hfor := createdFor_congr hsame.callback
  constructor
  case bound =>
    rw [hactive]
    exact Int.add_one_le_of_lt hcapacity
  case due =>
    intro hdue
    exact absurd (hsame.due.1 hdue) hsettled
  case waits =>
    rw [hfor, hsame.wait]
    exact h.waits
  case connecting =>
    rw [hfor, hsame.connecting, hsame.handle, hsame.status]
    exact h.connecting
  case reported =>
    rw [hsame.handle]
    exact h.reported

theorem Single.finishInvocation (h : Single proc o) (id : Str) (returnCode : Int)
    (result : List Byte) : Single (proc.finishInvocation id returnCode result) o := by
  rcases proc.finishInvocation_changes id returnCode result with ⟨l, n, responses, hless, heq⟩
  rw [heq]
  exact h.mono rfl rfl rfl rfl hless (.inl rfl)

/-- The instance has connected: the invocation that was due is added. -/
theorem Single.instanceConnected (h : Single proc o) (error : Option Str)
    (hconnecting : proc.connecting ≠ 0) :
    Single ({ proc with connecting := proc.connecting - 1 }.instanceConnected error).1 o := by
  unfold Process.instanceConnected
  dsimp only
  split
  case h_1 hnone =>
    refine single_of_none h.bound ?_ h.reported
    simp [Process.createdFor, hnone]
  case h_2 => exact single_of_none h.bound rfl h.reported
  case h_3 => exact single_of_none h.bound rfl h.reported
  case h_4 i hcallback =>
    have hfor : proc.createdFor.isSome := by simp [Process.createdFor, hcallback]
    rcases h.connecting hfor hconnecting with ⟨hhandle, hstatus, hone⟩
    have hactive := h.due ⟨hfor, .inl hconnecting⟩
    rcases sameWait_addInvocation { proc with connecting := proc.connecting - 1 } i
      with ⟨hsame, hcount⟩
    have hbound : proc.activeInvocations + 1 ≤ State.maxFuncsPerProcess := by
      unfold State.maxFuncsPerProcess
      omega
    split
    case h_1 p' hadd =>
      rw [hadd] at hsame hcount
      refine single_of_none (hcount ▸ hbound) rfl ?_
      intro hset
      exact h.reported hhandle
    case h_2 p' f hadd =>
      -- the callback stays, but there is no instance left that could connect
      rw [hadd] at hsame hcount
      have hnot : ¬ Process.Due { p' with created := p'.created ++ [none] } := by
        rintro ⟨-, hwhy⟩
        rw [hsame.connecting, hsame.handle, hsame.status] at hwhy
        simp [hone, hhandle, hstatus] at hwhy
      constructor
      case bound => exact hcount ▸ hbound
      case due =>
        intro hdue
        exact absurd hdue hnot
      case waits =>
        intro hsome
        exact hsame.wait.trans (h.waits hfor)
      case connecting =>
        intro hsome hne
        exact absurd ⟨hsome, .inl hne⟩ hnot
      case reported =>
        intro hset
        exact h.reported hhandle

/-- A success is reported for an instance, of a process that has connected if the
request waits for this. -/
theorem createdCallback_none (proc : Process) : proc.createdCallback none = proc ∨
    proc.handle = true ∧ (proc.waitForAllocation = true → proc.status = .ALLOCATED) ∧
      proc.createdCallback none = { proc with connecting := proc.connecting + 1 } := by
  unfold Process.createdCallback
  dsimp only
  split_ifs with hnone hhandle hwait
  · exact .inl rfl
  · exact .inl rfl
  · refine .inr ⟨hhandle, ?_, rfl⟩
    intro hset
    by_contra hnot
    exact hwait ⟨hset, hnot⟩
  · exact .inl rfl

/-- The callback of a process that has not been told to connect. -/
theorem single_createdCallback (hbound : proc.activeInvocations ≤ State.maxFuncsPerProcess)
    (hactive : proc.createdFor.isSome → proc.activeInvocations ≤ 0)
    (hwaits : proc.createdFor.isSome → proc.waitForAllocation = true)
    (hzero : proc.createdFor.isSome → proc.connecting = 0)
    (hreported : proc.handle = true → o = none) : Single (proc.createdCallback none) o := by
  rcases createdCallback_none proc with hsame | ⟨hhandle, hallocated, hconnect⟩
  · rw [hsame]
    refine ⟨hbound, fun hdue => hactive hdue.1, hwaits, ?_, hreported⟩
    intro hsome hne
    exact absurd (hzero hsome) hne
  · rw [hconnect]
    refine ⟨hbound, fun hdue => hactive hdue.1, hwaits, ?_, hreported⟩
    intro hsome _
    refine ⟨hhandle, ?_, ?_⟩
    · have hstatus := hallocated (hwaits hsome)
      simp [hstatus]
    · have hcount := hzero hsome
      simp [hcount]

/-- The backend has reported the process. -/
theorem Single.allocated {origin : Origin} (h : Single proc (some origin)) :
    Single (proc.setHandle.createdCallback none) none := by
  have hhandle : proc.handle = false := by
    rw [← Bool.not_eq_true]
    intro hset
    cases h.reported hset
  apply single_createdCallback
  · exact h.bound
  · intro hsome
    exact h.due ⟨hsome, .inr (.inl hhandle)⟩
  · exact h.waits
  · intro hsome
    by_contra hne
    have hset := (h.connecting hsome hne).1
    rw [hhandle] at hset
    cases hset
  · intro _
    rfl

/-- The process has connected. -/
theorem Single.connect (h : Single proc o) (c : ConnId) : Single (proc.connect c).1 o := by
  unfold Process.connect
  by_cases hstatus : proc.status = .ALLOCATING
  · rw [if_neg (by simp [hstatus])]
    dsimp only
    have hactive : proc.createdFor.isSome → proc.activeInvocations ≤ 0 := by
      intro hsome
      exact h.due ⟨hsome, .inr (.inr hstatus)⟩
    have hzero : proc.createdFor.isSome → proc.connecting = 0 := by
      intro hsome
      by_contra hne
      exact (h.connecting hsome hne).2.1 hstatus
    split
    · exact h.mono rfl rfl rfl rfl le_rfl (.inr (by simp))
    · exact single_createdCallback h.bound hactive h.waits hzero h.reported
  · rw [if_pos hstatus]
    exact h

theorem Single.failed (h : Single proc o) (error : Str) :
    Single (proc.createdCallback (some error)) none := by
  unfold Process.createdCallback
  dsimp only
  split_ifs with hnone
  · have hfor : proc.createdFor = none := by
      rw [Option.isNone_iff_eq_none] at hnone
      simp [Process.createdFor, hnone]
    exact single_of_none h.bound hfor (fun _ => rfl)
  · exact single_of_none h.bound rfl (fun _ => rfl)

end Single

/-! ## Runs -/

section Runs

variable {b : Backend} {s t : State} {e : Event} {p : ProcId}

theorem single_new (proc : Process) (hhandle : proc.handle = false)
    (hactive : proc.activeInvocations = 0) (hconnecting : proc.connecting = 0)
    (hwaits : proc.createdFor.isSome → proc.waitForAllocation = true) (o : Option Origin) :
    Single proc o where
  bound := by simp [hactive, State.maxFuncsPerProcess]
  due _ := hactive.le
  waits := hwaits
  connecting _ hne := absurd hconnecting hne
  reported hset := by simp [hhandle] at hset

/-- The first process with a spare capacity has it. -/
theorem available_capacity {a : AppId} (h : s.available a = some p) :
    (s.procs p).activeInvocations < State.maxFuncsPerProcess := by
  simpa using List.find?_some h

theorem single_turn {x : Process} {o : Option Origin} (h : Single (s.procs p) (s.allocations p))
    (hselects : SelectsSettled s e) (hturn : Turn s p e x o) : Single x o := by
  cases hturn with
  | same hx ho =>
    rw [hx, ho]
    exact h
  | created a name resources wait he hnew hx ho =>
    rw [hx]
    apply single_new _ rfl rfl rfl
    intro hsome
    cases hsome
  | createdFor a i he hnone hnew hx ho =>
    rw [hx]
    -- its invocation is counted once the instance has connected
    apply single_new _ rfl rfl rfl
    intro _
    rfl
  | added a i he havailable hx ho =>
    -- the process was found with a spare capacity, and nothing else is on its way to it
    rw [hx, ho]
    subst he
    exact h.addInvocation i (available_capacity havailable) (hselects p havailable)
  | allocated origin he horigin hx ho =>
    rw [hx, ho]
    rw [horigin] at h
    exact h.allocated
  | failed origin error he horigin hx ho =>
    rw [hx, ho]
    exact h.failed error
  | attached error he hconnecting hx ho =>
    rw [hx, ho]
    exact h.instanceConnected error hconnecting
  | connected c name he hpending hreturns hx ho =>
    rw [hx, ho]
    exact h.connect c
  | finished c conn id returnCode result he hconn hcontext hx ho =>
    rw [hx, ho]
    exact h.finishInvocation id returnCode result
  | swapping a name path he hstatus hx ho =>
    rw [hx, ho]
    have hswap : Single { s.procs p with status := .SWAPPING_OUT, swapPath := some path }
        (s.allocations p) := h.mono rfl rfl rfl rfl le_rfl (.inr (by simp))
    rcases Process.swap_changes { s.procs p with
      status := .SWAPPING_OUT, swapPath := some path } with ⟨sent, heq⟩
    rw [heq]
    exact hswap.mono rfl rfl rfl rfl le_rfl (.inl rfl)
  | swapped hstatus hx ho =>
    rw [hx, ho]
    exact h.mono rfl rfl rfl rfl le_rfl (.inr (by simp))
  | closed c conn he hconn hcontext hx ho =>
    rw [ho]
    rcases hx with hx | hx
    · rw [hx]
      exact h.mono rfl rfl rfl rfl le_rfl (.inr (by simp))
    · rw [hx]
      exact h.mono rfl rfl rfl rfl le_rfl (.inr (by simp [Process.closeConnection]))

end Runs

/-- In every run in which no request selects a process that still waits for the
invocation it was created for, no process ever has more unfinished invocations than it
can take. -/
theorem capacity_kept (b : Backend) (es : List Event)
    (hselects : Lts.Meets (State.step b) SelectsSettled {} es) (s : State)
    (hrun : Lts.run (State.step b) {} es = .ok s) (p : ProcId) :
    (s.procs p).activeInvocations ≤ State.maxFuncsPerProcess := by
  have hkeeps : ∀ s e s', (∀ q, Single (s.procs q) (s.allocations q)) → SelectsSettled s e →
      s.step b e = .ok s' → ∀ q, Single (s'.procs q) (s'.allocations q) := by
    intro s e s' hs hselects hstep q
    exact single_turn (hs q) hselects (turn_step hstep q)
  have hnew : ∀ q, Single (({} : State).procs q) (({} : State).allocations q) := by
    intro q
    apply single_new _ rfl rfl rfl
    intro hsome
    cases hsome
  have hsingle := Lts.run_invariant hkeeps hnew hselects hrun
  exact (hsingle p).bound

/-! ### Before and after the instance has connected -/

def faasRequest (id : Char) : Invocation := ⟨str [id], str ['f'], [], false⟩

/-- A process is created for an invocation, the backend reports it, and it connects. -/
def faasCreation : List Event :=
  [.invoke 0 (faasRequest 'a'), .runTask, .allocated 0, .connected,
    .processConnection 0 (State.controlplaneName 0), .instanceConnected 0 none]

/-- The next request comes once the first invocation has been added: it does not get the
same process. -/
theorem capacity_two_requests :
    ∃ s, Lts.run (State.step ⟨1024, 1⟩) {} (faasCreation ++ [.invoke 0 (faasRequest 'b')]) = .ok s ∧
      (s.procs 0).activeInvocations = 1 ∧ s.nextProc = 2 ∧
      ∀ p, (s.procs p).activeInvocations ≤ State.maxFuncsPerProcess := by
  have hrun := Lts.run_test (State.step ⟨1024, 1⟩) {}
    (faasCreation ++ [.invoke 0 (faasRequest 'b')])
    (fun s => (s.procs 0).activeInvocations = 1 ∧ s.nextProc = 2) (by decide +kernel)
  rcases hrun with ⟨s, hs, hone, hnext⟩
  exact ⟨s, hs, hone, hnext, capacity_kept ⟨1024, 1⟩ _ (by decide +kernel) s hs⟩

/-- The next request comes between the report of the backend and the connection: it is
added to the process, and so is the invocation that the process was created for. -/
theorem capacity_exceeded :
    ∃ s, Lts.run (State.step ⟨1024, 1⟩) {}
        [.invoke 0 (faasRequest 'a'), .runTask, .allocated 0, .invoke 0 (faasRequest 'b'),
          .connected, .processConnection 0 (State.controlplaneName 0),
          .instanceConnected 0 none] = .ok s ∧
      (s.procs 0).activeInvocations = 2 ∧
      ¬ (s.procs 0).activeInvocations ≤ State.maxFuncsPerProcess :=
  Lts.run_test (State.step ⟨1024, 1⟩) {} _ _ (by decide +kernel)

end Praas.ControlPlane
