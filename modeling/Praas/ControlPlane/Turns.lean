import Praas.ControlPlane.Places

/-! # What an event does to a process

Every event touches the objects of a few processes only. `Turn` lists what may become
of one process, with what the event requires, and `turn_step` derives it once for all
invariants that are about single processes.
-/

namespace Praas.ControlPlane

/-- The first process of `_controlplane_processes` with a spare capacity. -/
def State.available (s : State) (a : AppId) : Option ProcId :=
  (s.apps a).controlplaneProcesses.find? fun p =>
    (s.procs p).activeInvocations < State.maxFuncsPerProcess

/-- `x` is what the event `e` may make of the process `p`, and `o` of its allocation. -/
inductive Turn (s : State) (p : ProcId) (e : Event) (x : Process) (o : Option Origin) : Prop where
  | same (hx : x = s.procs p) (ho : o = s.allocations p)
  | created (a : AppId) (name : Str) (resources : Resources) (wait : Bool)
      (he : e = .addProcess a name resources wait) (hnew : p = s.nextProc)
      (hx : x = { name := name, application := a, waitForAllocation := wait
                  creationCallback := some .response }) (ho : o = some .user)
  | createdFor (a : AppId) (i : Invocation) (he : e = .invoke a i) (hnone : s.available a = none)
      (hnew : p = s.nextProc)
      (hx : x = { name := State.controlplaneName (s.apps a).controlplaneProcesses.length
                  application := a, waitForAllocation := true
                  creationCallback := some (.invoke i) }) (ho : o = some .controlplane)
  | added (a : AppId) (i : Invocation) (he : e = .invoke a i) (havailable : s.available a = some p)
      (hx : x = ((s.procs p).addInvocation i).1) (ho : o = s.allocations p)
  | allocated (origin : Origin) (he : e = .allocated p) (horigin : s.allocations p = some origin)
      (hx : x = (s.procs p).setHandle.createdCallback none) (ho : o = none)
  | failed (origin : Origin) (error : Str) (he : e = .allocationFailed p error)
      (horigin : s.allocations p = some origin)
      (hx : x = (s.procs p).createdCallback (some error)) (ho : o = none)
  | attached (error : Option Str) (he : e = .instanceConnected p error)
      (hconnecting : (s.procs p).connecting ≠ 0)
      (hx : x = ({ s.procs p with
        connecting := (s.procs p).connecting - 1 }.instanceConnected error).1)
      (ho : o = s.allocations p)
  | connected (c : ConnId) (name : Str) (he : e = .processConnection c name)
      (hpending : s.pendingProcesses name = some p)
      (hreturns : ((s.procs p).connect c).2 = none) (hx : x = ((s.procs p).connect c).1)
      (ho : o = s.allocations p)
  | finished (c : ConnId) (conn : Connection) (id : Str) (returnCode : Int) (result : List Byte)
      (he : e = .invocationResult c id returnCode result) (hconn : s.conns c = some conn)
      (hcontext : conn.context = some p)
      (hx : x = (s.procs p).finishInvocation id returnCode result) (ho : o = s.allocations p)
  | swapping (a : AppId) (name path : Str) (he : e = .swapProcess a name path)
      (hstatus : (s.procs p).status = .ALLOCATED)
      (hx : x = ({ s.procs p with status := .SWAPPING_OUT, swapPath := some path }).swap.1)
      (ho : o = s.allocations p)
  | swapped (hstatus : (s.procs p).status = .SWAPPING_OUT)
      (hx : x = { s.procs p with status := .SWAPPED_OUT }) (ho : o = s.allocations p)
  | closed (c : ConnId) (conn : Connection) (he : e = .processClosure c ∨ e = .disconnected c)
      (hconn : s.conns c = some conn) (hcontext : conn.context = some p)
      (hx : x = { s.procs p with status := .FAILURE } ∨ x = (s.procs p).closeConnection)
      (ho : o = s.allocations p)

section Turns

variable {s t : State} {b : Backend} {e : Event} {p : ProcId}

/-- One process is replaced. -/
theorem turn_setProcess {q : ProcId} {proc : Process}
    (h : q = p → Turn s p e proc (s.allocations p)) :
    Turn s p e ((s.setProcess q proc).procs p) (s.allocations p) := by
  by_cases hq : p = q
  · subst hq
    rw [State.setProcess_procs, Function.update_self]
    exact h rfl
  · exact .same (by simp [hq]) rfl

/-- The backend has reported an allocation. -/
theorem turn_takeAllocation {q : ProcId} {proc : Process} (h : q = p → Turn s p e proc none) :
    Turn s p e (({ s with allocations := Function.update s.allocations q none }.setProcess q
      proc).procs p) (Function.update s.allocations q none p) := by
  by_cases hq : p = q
  · subst hq
    rw [State.setProcess_procs, Function.update_self, Function.update_self]
    exact h rfl
  · exact .same (by simp [hq]) (by simp [hq])

theorem turn_swappedProcess {a : AppId} {name : Str} (h : s.swappedProcess a name = .ok t) :
    Turn s p e (t.procs p) (t.allocations p) := by
  rcases swappedProcess_ok h with ⟨q, -, hstatus, rfl⟩
  have hone : Turn s p e ((s.setProcess q { s.procs q with status := .SWAPPED_OUT }).procs p)
      (s.allocations p) := by
    apply turn_setProcess
    intro hq
    subst hq
    exact .swapped hstatus rfl rfl
  split_ifs <;> exact hone

theorem turn_disconnection {c : ConnId} {conn : Connection}
    (he : e = .processClosure c ∨ e = .disconnected c) (hconn : s.conns c = some conn) :
    Turn s p e ((s.handleDisconnection conn).procs p) ((s.handleDisconnection conn).allocations p) := by
  cases hcontext : conn.context with
  | none =>
    unfold State.handleDisconnection
    rw [hcontext]
    exact .same rfl rfl
  | some q =>
    rw [handleDisconnection_some hcontext]
    unfold State.closedProcess
    dsimp only
    -- a swapped process loses its connection, any other one has failed
    have hfailed : Turn s p e ((s.setProcess q { s.procs q with status := .FAILURE }).procs p)
        (s.allocations p) := by
      apply turn_setProcess
      intro hq
      subst hq
      exact .closed c conn he hconn hcontext (.inl rfl) rfl
    have hclosed : Turn s p e ((s.setProcess q (s.procs q).closeConnection).procs p)
        (s.allocations p) := by
      apply turn_setProcess
      intro hq
      subst hq
      exact .closed c conn he hconn hcontext (.inr rfl) rfl
    split_ifs
    · exact hfailed
    · exact hfailed
    · exact hclosed

/-- What a step does to each process. -/
theorem turn_step (hstep : s.step b e = .ok t) (p : ProcId) : Turn s p e (t.procs p) (t.allocations p) := by
  cases performs_of_step hstep with
  | same => exact .same rfl rfl
  | @addProcess a name resources wait t hadd =>
    rcases addProcess_ok hadd with ⟨-, -, -, rfl⟩
    by_cases hp : p = s.nextProc
    · exact .created a name resources wait rfl hp (by simp [hp]) (by simp [hp])
    · exact .same (by simp [hp]) (by simp [hp])
  | invoke a i =>
    rcases getControlplaneProcess_cases s a i with ⟨q, hq, hadded⟩ | ⟨hnone, hcreated⟩
    · rw [hadded]
      apply turn_setProcess
      intro hqp
      subst hqp
      exact .added a i rfl hq rfl rfl
    · rw [hcreated]
      by_cases hp : p = s.nextProc
      · exact .createdFor a i rfl hnone hp (by simp [hp]) (by simp [hp])
      · exact .same (by simp [hp]) (by simp [hp])
  | swapProcess a name path =>
    rcases swapProcess_cases s a name path with hsame | ⟨q, -, hstatus, hswapping⟩
    · rw [hsame]
      exact .same rfl rfl
    · rw [hswapping]
      apply turn_setProcess
      intro hqp
      subst hqp
      exact .swapping a name path rfl hstatus rfl rfl
  | swappedProcess hswap => exact turn_swappedProcess hswap
  | deleteProcess hdelete =>
    rw [(deleteProcess_ok hdelete).2]
    exact .same rfl rfl
  | @allocated q o ho =>
    have hself : q = p → Turn s p (.allocated q) ((s.procs q).setHandle.createdCallback none)
        none := by
      intro hqp
      subst hqp
      exact .allocated o rfl ho rfl rfl
    have hone := turn_takeAllocation hself
    cases o <;> exact hone
  | @allocationFailed q error o t ho hfail =>
    have hself : q = p → Turn s p (.allocationFailed q error)
        ((s.procs q).createdCallback (some error)) none := by
      intro hqp
      subst hqp
      exact .failed o error rfl ho rfl rfl
    have hone := turn_takeAllocation hself
    rcases allocationFailed_ok hfail with ⟨-, -, rfl⟩ | ⟨-, rfl⟩
    · exact hone
    · exact hone
  | instanceConnected error hconnecting =>
    apply turn_setProcess
    intro hqp
    subst hqp
    exact .attached error rfl hconnecting rfl rfl
  | runTask hrun =>
    rcases runTask_ok hrun with rfl | ⟨q, rest, -, -, rfl⟩
    · exact .same rfl rfl
    · exact .same rfl rfl
  | connected => exact .same rfl rfl
  | @processConnection c name conn t hconn hcontext hregister =>
    rcases handleConnection_ok hregister with rfl | ⟨q, hpending, hreturns, rfl⟩
    · exact .same rfl rfl
    · apply turn_setProcess
      intro hqp
      subst hqp
      exact .connected c name rfl hpending hreturns rfl rfl
  | @invocationResult c conn q id returnCode result hconn hcontext =>
    apply turn_setProcess
    intro hqp
    subst hqp
    exact .finished c conn id returnCode result rfl hconn hcontext rfl rfl
  | swapConfirmation hconn hcontext hswap => exact turn_swappedProcess hswap
  | processClosure hconn hcontext => exact turn_disconnection (.inl rfl) hconn
  | disconnected hconn => exact turn_disconnection (.inr rfl) hconn

/-- The name and the application of a process. -/
def Process.owner (proc : Process) : Str × AppId := (proc.name, proc.application)

theorem owner_of_place {x y : Process} (h : x.place = y.place) : x.owner = y.owner :=
  congrArg (fun k => (k.1, k.2.1)) h

/-- A process that exists keeps its name and its application. -/
theorem owner_turn {x : Process} {o : Option Origin} (h : Turn s p e x o) (hp : p ≠ s.nextProc) :
    x.owner = (s.procs p).owner := by
  cases h with
  | same hx ho => rw [hx]
  | created a name resources wait he hnew hx ho => exact absurd hnew hp
  | createdFor a i he hnone hnew hx ho => exact absurd hnew hp
  | added a i he havailable hx ho =>
    rw [hx]
    exact owner_of_place (Process.place_addInvocation (s.procs p) i)
  | allocated origin he horigin hx ho =>
    rw [hx]
    exact owner_of_place (Process.place_createdCallback (s.procs p).setHandle none)
  | failed origin error he horigin hx ho =>
    rw [hx]
    exact owner_of_place (Process.place_createdCallback (s.procs p) (some error))
  | attached error he hconnecting hx ho =>
    rw [hx]
    exact owner_of_place (Process.place_instanceConnected _ error)
  | connected c name he hpending hreturns hx ho =>
    rw [hx]
    by_cases hstatus : (s.procs p).status = .ALLOCATING
    · exact congrArg (fun k => (k.1, k.2.1)) (Process.place_connect hstatus c)
    · unfold Process.connect
      rw [if_pos hstatus]
  | finished c conn id returnCode result he hconn hcontext hx ho =>
    rw [hx]
    exact owner_of_place (Process.place_finishInvocation (s.procs p) id returnCode result)
  | swapping a name path he hstatus hx ho =>
    rw [hx]
    have hswap := owner_of_place
      (Process.place_swap { s.procs p with status := .SWAPPING_OUT, swapPath := some path })
    exact hswap
  | swapped hstatus hx ho =>
    rw [hx]
    rfl
  | closed c conn he hconn hcontext hx ho =>
    rcases hx with hx | hx
    · rw [hx]
      rfl
    · rw [hx]
      rfl

end Turns

/-! ## What an event does to the tables -/

/-- `_controlplane_processes` of each application. -/
def State.reusable (s : State) (a : AppId) : List ProcId :=
  (s.apps a).controlplaneProcesses

/-- `e` creates a process under `name`. -/
inductive CreatesAs (b : Backend) (s : State) : Event → Str → Prop where
  | user (a : AppId) (name : Str) (resources : Resources) (wait : Bool) (hname : name ≠ [])
      (hresources : b.rejects resources = none) (hactive : (s.apps a).activeProcesses name = none) :
      CreatesAs b s (.addProcess a name resources wait) name
  | controlplane (a : AppId) (i : Invocation) (hnone : s.available a = none) :
      CreatesAs b s (.invoke a i) (State.controlplaneName (s.apps a).controlplaneProcesses.length)

/-- `e` takes the tables of the server, the reusable processes and the number of all
processes from those of `s` to those of `t`. -/
inductive TableTurn (b : Backend) (s : State) (e : Event) (t : State) : Prop where
  | same (htasks : t.tasks = s.tasks) (hpending : t.pendingProcesses = s.pendingProcesses)
      (hreusable : t.reusable = s.reusable) (hnext : t.nextProc = s.nextProc)
  | queued (name : Str) (hcreates : CreatesAs b s e name)
      (htasks : t.tasks = s.tasks ++ [s.nextProc])
      (hpending : t.pendingProcesses = s.pendingProcesses)
      (hname : (t.procs s.nextProc).name = name)
      (hreusable : t.reusable = s.reusable) (hnext : t.nextProc = s.nextProc + 1)
  | inserted (p : ProcId) (htasks : s.tasks = p :: t.tasks)
      (hfree : s.pendingProcesses (s.procs p).name = none)
      (hpending : t.pendingProcesses =
        Function.update s.pendingProcesses (s.procs p).name (some p))
      (hreusable : t.reusable = s.reusable) (hnext : t.nextProc = s.nextProc)
  | registered (c : ConnId) (name : Str) (p : ProcId) (he : e = .processConnection c name)
      (htasks : t.tasks = s.tasks) (hfound : s.pendingProcesses name = some p)
      (hpending : t.pendingProcesses = Function.update s.pendingProcesses name none)
      (hreusable : t.reusable = s.reusable) (hnext : t.nextProc = s.nextProc)
  | reported (p : ProcId) (he : e = .allocated p) (ho : s.allocations p = some .controlplane)
      (htasks : t.tasks = s.tasks) (hpending : t.pendingProcesses = s.pendingProcesses)
      (hreusable : t.reusable = Function.update s.reusable (s.procs p).application
        (s.reusable (s.procs p).application ++ [p])) (hnext : t.nextProc = s.nextProc)

section TableTurns

variable {s t : State} {b : Backend} {e : Event} {p : ProcId}

@[simp] theorem reusable_setActive (s : State) (a : AppId) (name : Str) (v : Option ProcId) :
    (s.setActive a name v).reusable = s.reusable := by
  funext a'
  unfold State.reusable
  by_cases ha : a' = a
  · subst ha
    simp
  · simp [ha]

@[simp] theorem reusable_setSwapped (s : State) (a : AppId) (name : Str) (v : Option ProcId) :
    (s.setSwapped a name v).reusable = s.reusable := by
  funext a'
  unfold State.reusable
  by_cases ha : a' = a
  · subst ha
    simp
  · simp [ha]

theorem reusable_addControlplane (s : State) (a : AppId) (p : ProcId) :
    (s.addControlplane a p).reusable = Function.update s.reusable a (s.reusable a ++ [p]) := by
  funext a'
  unfold State.reusable
  by_cases ha : a' = a
  · subst ha
    simp
  · simp [ha]

theorem tables_swappedProcess {a : AppId} {name : Str} (h : s.swappedProcess a name = .ok t) :
    TableTurn b s e t := by
  rcases swappedProcess_ok h with ⟨q, -, -, rfl⟩
  have hactive := reusable_setActive s a name none
  split_ifs
  · exact .same rfl rfl hactive rfl
  · refine .same rfl rfl ?_ rfl
    rw [reusable_setSwapped]
    exact hactive

theorem tables_disconnection (s : State) (conn : Connection) :
    (s.handleDisconnection conn).tasks = s.tasks ∧
      (s.handleDisconnection conn).pendingProcesses = s.pendingProcesses ∧
      (s.handleDisconnection conn).reusable = s.reusable ∧
      (s.handleDisconnection conn).nextProc = s.nextProc := by
  cases hcontext : conn.context with
  | none =>
    unfold State.handleDisconnection
    rw [hcontext]
    exact ⟨rfl, rfl, rfl, rfl⟩
  | some q =>
    rw [handleDisconnection_some hcontext]
    unfold State.closedProcess
    dsimp only
    split_ifs
    · exact ⟨rfl, rfl, reusable_setActive _ _ _ _, rfl⟩
    · exact ⟨rfl, rfl, reusable_setSwapped _ _ _ _, rfl⟩
    · exact ⟨rfl, rfl, rfl, rfl⟩

/-- What a step does to the tables. -/
theorem tables_step (hstep : s.step b e = .ok t) : TableTurn b s e t := by
  cases performs_of_step hstep with
  | same => exact .same rfl rfl rfl rfl
  | @addProcess a name resources wait t hadd =>
    rcases addProcess_ok hadd with ⟨hname, hresources, hactive, rfl⟩
    refine .queued name (.user a name resources wait hname hresources hactive) rfl rfl ?_ ?_ rfl
    · simp
    · exact reusable_setActive s a name (some s.nextProc)
  | invoke a i =>
    rcases getControlplaneProcess_cases s a i with ⟨q, -, hadded⟩ | ⟨hnone, hcreated⟩
    · rw [hadded]
      exact .same rfl rfl rfl rfl
    · rw [hcreated]
      refine .queued _ (.controlplane a i hnone) rfl rfl ?_ rfl rfl
      simp
  | swapProcess a name path =>
    rcases swapProcess_cases s a name path with hsame | ⟨q, -, -, hswapping⟩
    · rw [hsame]
      exact .same rfl rfl rfl rfl
    · rw [hswapping]
      exact .same rfl rfl rfl rfl
  | swappedProcess hswap => exact tables_swappedProcess hswap
  | @deleteProcess a name t hdelete =>
    rw [(deleteProcess_ok hdelete).2]
    exact .same rfl rfl (reusable_setSwapped s a name none) rfl
  | @allocated q o ho =>
    cases o with
    | user => exact .same rfl rfl rfl rfl
    | controlplane =>
      refine .reported q rfl ho rfl rfl ?_ rfl
      exact reusable_addControlplane _ (s.procs q).application q
  | allocationFailed ho hfail =>
    rcases allocationFailed_ok hfail with ⟨-, -, rfl⟩ | ⟨-, rfl⟩
    · exact .same rfl rfl (reusable_setActive _ _ _ _) rfl
    · exact .same rfl rfl rfl rfl
  | runTask hrun =>
    rcases runTask_ok hrun with rfl | ⟨q, rest, htasks, hfree, rfl⟩
    · exact .same rfl rfl rfl rfl
    · exact .inserted q htasks hfree rfl rfl rfl
  | @processConnection c name conn t hconn hcontext hregister =>
    rcases handleConnection_ok hregister with rfl | ⟨q, hpending, -, rfl⟩
    · exact .same rfl rfl rfl rfl
    · exact .registered c name q rfl rfl hpending rfl rfl rfl
  | swapConfirmation hconn hcontext hswap => exact tables_swappedProcess hswap
  | @processClosure c conn q hconn hcontext =>
    have htables := tables_disconnection s conn
    exact .same htables.1 htables.2.1 htables.2.2.1 htables.2.2.2
  | @disconnected c conn hconn =>
    have htables := tables_disconnection s conn
    exact .same htables.1 htables.2.1 htables.2.2.1 htables.2.2.2
  -- the others are about one process, or about the connections
  | instanceConnected | connected | invocationResult => exact .same rfl rfl rfl rfl

/-- Processes are not forgotten. -/
theorem nextProc_le (hstep : s.step b e = .ok t) : s.nextProc ≤ t.nextProc := by
  cases tables_step hstep with
  | same htasks hpending hreusable hnext => exact hnext.ge
  | queued name hcreates htasks hpending hname hreusable hnext =>
    rw [hnext]
    exact Nat.le_succ _
  | inserted q htasks hfree hpending hreusable hnext => exact hnext.ge
  | registered c name q he htasks hfound hpending hreusable hnext => exact hnext.ge
  | reported q he ho htasks hpending hreusable hnext => exact hnext.ge

end TableTurns

end Praas.ControlPlane
