import Praas.ControlPlane.TcpServer

/-! # What a step does

Each operation of the control plane that returns has done one of a few things, and
each step performs one operation or changes nothing. This is said once: what holds in
every reachable state is shown from it, operation by operation.
-/

namespace Praas.ControlPlane

/-! ## The operations -/

section Operations

variable {s t : State} {b : Backend}

theorem addProcess_ok {a : AppId} {name : Str} {resources : Resources} {wait : Bool}
    (h : s.addProcess b a name resources wait = .ok t) :
    name ≠ [] ∧ b.rejects resources = none ∧ (s.apps a).activeProcesses name = none ∧
      t = (s.setActive a name (some s.nextProc)).allocate
        { name := name, application := a, waitForAllocation := wait
          creationCallback := some .response } .user := by
  unfold State.addProcess at h
  by_cases hempty : name.length = 0
  · rw [if_pos hempty] at h
    cases h
  · rw [if_neg hempty] at h
    have hname : name ≠ [] := by
      rintro rfl
      exact hempty rfl
    split at h
    · cases h
    case h_2 hresources =>
      split_ifs at h with hactive
      rw [Bool.not_eq_true, Option.isSome_eq_false_iff, Option.isNone_iff_eq_none] at hactive
      exact ⟨hname, hresources, hactive, (Except.ok.inj h).symm⟩

/-- An invocation goes to a process that is idle, or to a new one. -/
theorem getControlplaneProcess_cases (s : State) (a : AppId) (i : Invocation) :
    (∃ p, ((s.apps a).controlplaneProcesses.find? fun p =>
          (s.procs p).activeInvocations < State.maxFuncsPerProcess) = some p ∧
        (s.getControlplaneProcess a i).1 = s.setProcess p ((s.procs p).addInvocation i).1) ∨
    (((s.apps a).controlplaneProcesses.find? fun p =>
          (s.procs p).activeInvocations < State.maxFuncsPerProcess) = none ∧
        (s.getControlplaneProcess a i).1 = s.allocate
          { name := State.controlplaneName (s.apps a).controlplaneProcesses.length
            application := a, waitForAllocation := true
            creationCallback := some (.invoke i) } .controlplane) := by
  unfold State.getControlplaneProcess
  split
  case h_1 p hp => exact .inl ⟨p, hp, rfl⟩
  case h_2 hnone => exact .inr ⟨hnone, rfl⟩

/-- A swap begins with an allocated process, or changes nothing. -/
theorem swapProcess_cases (s : State) (a : AppId) (name path : Str) :
    (s.swapProcess a name path).1 = s ∨
    ∃ p, (s.apps a).activeProcesses name = some p ∧ (s.procs p).status = .ALLOCATED ∧
      (s.swapProcess a name path).1 = s.setProcess p
        ({ s.procs p with status := .SWAPPING_OUT, swapPath := some path } : Process).swap.1 := by
  unfold State.swapProcess
  split_ifs
  · exact .inl rfl
  · split
    · exact .inl rfl
    case h_2 p hactive =>
      split_ifs with hstatus
      · exact .inl rfl
      · exact .inr ⟨p, hactive, not_not.1 hstatus, rfl⟩

theorem swappedProcess_ok {a : AppId} {name : Str} (h : s.swappedProcess a name = .ok t) :
    ∃ p, (s.apps a).activeProcesses name = some p ∧ (s.procs p).status = .SWAPPING_OUT ∧
      t = if ((s.apps a).swappedProcesses name).isSome then
          (s.setActive a name none).setStatus p .SWAPPED_OUT
        else ((s.setActive a name none).setStatus p .SWAPPED_OUT).setSwapped a name (some p) := by
  unfold State.swappedProcess at h
  split at h
  · cases h
  case h_2 p hactive =>
    split_ifs at h with hstatus htaken
    · exact ⟨p, hactive, not_not.1 hstatus, by rw [if_pos htaken]; exact (Except.ok.inj h).symm⟩
    · exact ⟨p, hactive, not_not.1 hstatus, by rw [if_neg htaken]; exact (Except.ok.inj h).symm⟩

theorem deleteProcess_ok {a : AppId} {name : Str} (h : s.deleteProcess a name = .ok t) :
    ((s.apps a).swappedProcesses name).isSome ∧ t = s.setSwapped a name none := by
  unfold State.deleteProcess at h
  split_ifs at h
  split at h
  · cases h
  case h_2 p hswapped =>
    split_ifs at h
    exact ⟨Option.isSome_iff_exists.2 ⟨p, hswapped⟩, (Except.ok.inj h).symm⟩

/-- The callback of a failed allocation finds its entry, or there is none. -/
theorem allocationFailed_ok {p : ProcId} {o : Origin} {error : Str}
    (h : s.allocationFailed p o error = .ok t) :
    (o = .user ∧
      (s.apps (s.procs p).application).activeProcesses (s.procs p).name = some p ∧
      t = (s.setProcess p ((s.procs p).createdCallback (some error))).setActive
        (s.procs p).application (s.procs p).name none) ∨
    (o = .controlplane ∧ t = s.setProcess p ((s.procs p).createdCallback (some error))) := by
  unfold State.allocationFailed at h
  cases o with
  | user =>
    dsimp only at h
    split_ifs at h with hentry
    exact .inl ⟨rfl, hentry, (Except.ok.inj h).symm⟩
  | controlplane => exact .inr ⟨rfl, (Except.ok.inj h).symm⟩

theorem runTask_ok (h : s.runTask = .ok t) : t = s ∨ ∃ p rest, s.tasks = p :: rest ∧
    s.pendingProcesses (s.procs p).name = none ∧ t = { s with
      tasks := rest
      pendingProcesses := Function.update s.pendingProcesses (s.procs p).name (some p) } := by
  unfold State.runTask at h
  split at h
  · exact .inl (Except.ok.inj h).symm
  case h_2 p rest htasks =>
    split_ifs at h with htaken
    rw [Bool.not_eq_true, Option.isSome_eq_false_iff, Option.isNone_iff_eq_none] at htaken
    exact .inr ⟨p, rest, htasks, htaken, (Except.ok.inj h).symm⟩

theorem handleConnection_ok {c : ConnId} {conn : Connection} {name : Str}
    (h : s.handleConnection c conn name = .ok t) :
    t = s ∨ ∃ p, s.pendingProcesses name = some p ∧ ((s.procs p).connect c).2 = none ∧
      t = { s.setProcess p ((s.procs p).connect c).1 with
        pendingProcesses := Function.update s.pendingProcesses name none
        conns := Function.update s.conns c (some { conn with context := some p })
        numRegisteredProcesses := s.numRegisteredProcesses + 1 } := by
  unfold State.handleConnection at h
  split at h
  · exact .inl (Except.ok.inj h).symm
  case h_2 p hpending =>
    dsimp only at h
    split at h
    · cases h
    case h_2 hreturns => exact .inr ⟨p, hpending, hreturns, (Except.ok.inj h).symm⟩

theorem handleDisconnection_some {conn : Connection} {p : ProcId}
    (hcontext : conn.context = some p) :
    s.handleDisconnection conn = s.deregister.closedProcess p := by
  unfold State.handleDisconnection
  rw [hcontext]

theorem closedProcess_swappedOut {p : ProcId} (hout : (s.procs p).status = .SWAPPED_OUT) :
    s.closedProcess p = s.setProcess p (s.procs p).closeConnection :=
  if_neg (not_not.2 hout)

/-- A process that is swapped out closes its connection; another one fails, and what stands under
its name in the active table, or else in the swapped one, is removed. -/
theorem closedProcess_cases (s : State) (p : ProcId) :
    ((s.procs p).status = .SWAPPED_OUT ∧
      s.closedProcess p = s.setProcess p (s.procs p).closeConnection) ∨
    ((s.procs p).status ≠ .SWAPPED_OUT ∧
      ∃ q, (s.apps (s.procs p).application).activeProcesses (s.procs p).name = some q ∧
        s.closedProcess p =
          (s.setStatus p .FAILURE).setActive (s.procs p).application (s.procs p).name none) ∨
    ((s.procs p).status ≠ .SWAPPED_OUT ∧
      (s.apps (s.procs p).application).activeProcesses (s.procs p).name = none ∧
      s.closedProcess p =
        (s.setStatus p .FAILURE).setSwapped (s.procs p).application (s.procs p).name none) := by
  by_cases hout : (s.procs p).status = .SWAPPED_OUT
  · exact .inl ⟨hout, closedProcess_swappedOut hout⟩
  · unfold State.closedProcess
    dsimp only
    rw [if_pos hout]
    cases hactive : (s.apps (s.procs p).application).activeProcesses (s.procs p).name with
    | some q => exact .inr (.inl ⟨hout, q, rfl, rfl⟩)
    | none => exact .inr (.inr ⟨hout, rfl, rfl⟩)

theorem procs_closedProcess {p q : ProcId} (h : q ≠ p) : (s.closedProcess p).procs q = s.procs q := by
  rcases closedProcess_cases s p with ⟨-, hclosed⟩ | ⟨-, r, -, hclosed⟩ | ⟨-, -, hclosed⟩
  · rw [hclosed, State.setProcess_procs, Function.update_of_ne h]
  · rw [hclosed]
    exact Function.update_of_ne h _ _
  · rw [hclosed]
    exact Function.update_of_ne h _ _

theorem conns_closedProcess (p : ProcId) : (s.closedProcess p).conns = s.conns := by
  unfold State.closedProcess
  dsimp only
  split_ifs <;> rfl

theorem conns_handleDisconnection (conn : Connection) :
    (s.handleDisconnection conn).conns = s.conns := by
  unfold State.handleDisconnection
  split
  · rfl
  · exact conns_closedProcess _

theorem registered_conns {c : ConnId} {conn : Connection} {p : ProcId}
    (h : s.registered c = some (conn, p)) : s.conns c = some conn ∧ conn.context = some p := by
  unfold State.registered at h
  split at h
  case h_1 conn' hconn =>
    rcases Option.map_eq_some_iff.1 h with ⟨q, hq, heq⟩
    obtain ⟨rfl, rfl⟩ := Prod.mk.inj heq
    exact ⟨hconn, hq⟩
  case h_2 => cases h

theorem orKeep_ok {r : Except Failure State} (h : s.orKeep r = .ok t) :
    r = .ok t ∨ t = s := by
  unfold State.orKeep at h
  split at h
  · exact .inl h
  · cases h
  · exact .inr (Except.ok.inj h).symm

end Operations

/-! ## The steps -/

/-- The operation that an event performs, in the state that it finds. -/
inductive Performs (b : Backend) (s : State) : Event → State → Prop where
  /-- A request is refused, or there is nothing that the event is for. -/
  | same (e : Event) : Performs b s e s
  | addProcess {a : AppId} {name : Str} {resources : Resources} {wait : Bool} {t : State}
      (hadd : s.addProcess b a name resources wait = .ok t) :
      Performs b s (.addProcess a name resources wait) t
  | invoke (a : AppId) (i : Invocation) :
      Performs b s (.invoke a i) (s.getControlplaneProcess a i).1
  | swapProcess (a : AppId) (name path : Str) :
      Performs b s (.swapProcess a name path) (s.swapProcess a name path).1
  | swappedProcess {a : AppId} {name : Str} {t : State}
      (hswap : s.swappedProcess a name = .ok t) : Performs b s (.swappedProcess a name) t
  | deleteProcess {a : AppId} {name : Str} {t : State}
      (hdelete : s.deleteProcess a name = .ok t) : Performs b s (.deleteProcess a name) t
  | allocated {p : ProcId} {o : Origin} (ho : s.allocations p = some o) :
      Performs b s (.allocated p)
        ({ s with allocations := Function.update s.allocations p none }.allocated p o)
  | allocationFailed {p : ProcId} {error : Str} {o : Origin} {t : State}
      (ho : s.allocations p = some o)
      (hfail : { s with allocations := Function.update s.allocations p none }.allocationFailed p o
        error = .ok t) : Performs b s (.allocationFailed p error) t
  | instanceConnected {p : ProcId} (error : Option Str) (hconnecting : (s.procs p).connecting ≠ 0) :
      Performs b s (.instanceConnected p error) (s.setProcess p
        ({ s.procs p with connecting := (s.procs p).connecting - 1 }.instanceConnected error).1)
  | runTask {t : State} (hrun : s.runTask = .ok t) : Performs b s .runTask t
  | connected : Performs b s .connected s.connected
  | processConnection {c : ConnId} {name : Str} {conn : Connection} {t : State}
      (hconn : s.conns c = some conn) (hcontext : conn.context = none)
      (hregister : s.handleConnection c conn name = .ok t) :
      Performs b s (.processConnection c name) t
  | invocationResult {c : ConnId} {conn : Connection} {p : ProcId} (id : Str) (returnCode : Int)
      (result : List Byte) (hconn : s.conns c = some conn) (hcontext : conn.context = some p) :
      Performs b s (.invocationResult c id returnCode result)
        (s.setProcess p ((s.procs p).finishInvocation id returnCode result))
  | swapConfirmation {c : ConnId} {conn : Connection} {p : ProcId} {t : State}
      (hconn : s.conns c = some conn) (hcontext : conn.context = some p)
      (hswap : s.swappedProcess (s.procs p).application (s.procs p).name = .ok t) :
      Performs b s (.swapConfirmation c) t
  | processClosure {c : ConnId} {conn : Connection} {p : ProcId}
      (hconn : s.conns c = some conn) (hcontext : conn.context = some p) :
      Performs b s (.processClosure c) (s.handleClosure c conn)
  | disconnected {c : ConnId} {conn : Connection} (hconn : s.conns c = some conn) :
      Performs b s (.disconnected c) (s.disconnected c conn)

theorem performs_of_orKeep {b : Backend} {s t : State} {e : Event} {r : Except Failure State}
    (h : s.orKeep r = .ok t) (hr : r = .ok t → Performs b s e t) : Performs b s e t := by
  rcases orKeep_ok h with hok | rfl
  · exact hr hok
  · exact .same e

theorem performs_of_step {b : Backend} {s t : State} {e : Event} (h : s.step b e = .ok t) :
    Performs b s e t := by
  cases e with
  | addProcess a name resources wait => exact performs_of_orKeep h .addProcess
  | invoke a i =>
    rw [← Except.ok.inj h]
    exact .invoke a i
  | swapProcess a name path =>
    rw [← Except.ok.inj h]
    exact .swapProcess a name path
  | swappedProcess a name => exact performs_of_orKeep h .swappedProcess
  | deleteProcess a name => exact performs_of_orKeep h .deleteProcess
  | allocated p =>
    simp only [State.step] at h
    split at h
    case h_1 o ho =>
      rw [← Except.ok.inj h]
      exact .allocated ho
    case h_2 =>
      rw [← Except.ok.inj h]
      exact .same _
  | allocationFailed p error =>
    simp only [State.step] at h
    split at h
    case h_1 o ho => exact .allocationFailed ho h
    case h_2 =>
      rw [← Except.ok.inj h]
      exact .same _
  | instanceConnected p error =>
    simp only [State.step] at h
    split_ifs at h with hconnecting
    · rw [← Except.ok.inj h]
      exact .same _
    · rw [← Except.ok.inj h]
      exact .instanceConnected error hconnecting
  | runTask => exact .runTask h
  | connected =>
    rw [← Except.ok.inj h]
    exact .connected
  | processConnection c name =>
    simp only [State.step] at h
    split at h
    case h_1 conn hconn =>
      split_ifs at h with hcontext
      · rw [← Except.ok.inj h]
        exact .same _
      · exact .processConnection hconn (by simpa using hcontext) h
    case h_2 =>
      rw [← Except.ok.inj h]
      exact .same _
  | invocationResult c id returnCode result =>
    simp only [State.step] at h
    split at h
    case h_1 conn p hregistered =>
      rw [← Except.ok.inj h]
      have hconn := registered_conns hregistered
      exact .invocationResult id returnCode result hconn.1 hconn.2
    case h_2 =>
      rw [← Except.ok.inj h]
      exact .same _
  | swapConfirmation c =>
    simp only [State.step] at h
    split at h
    case h_1 conn p hregistered =>
      have hconn := registered_conns hregistered
      exact .swapConfirmation hconn.1 hconn.2 h
    case h_2 =>
      rw [← Except.ok.inj h]
      exact .same _
  | processClosure c =>
    simp only [State.step] at h
    split at h
    case h_1 conn p hregistered =>
      rw [← Except.ok.inj h]
      have hconn := registered_conns hregistered
      exact .processClosure hconn.1 hconn.2
    case h_2 =>
      rw [← Except.ok.inj h]
      exact .same _
  | disconnected c =>
    simp only [State.step] at h
    split at h
    case h_1 conn hconn =>
      rw [← Except.ok.inj h]
      exact .disconnected hconn
    case h_2 =>
      rw [← Except.ok.inj h]
      exact .same _

end Praas.ControlPlane
