import Praas.ControlPlane.Allocation
import Praas.ControlPlane.Turns

/-! # Where a process comes from

A process that stands in a place after a step stood there before, or it has moved on from
another place, or the step has created it. `comes_step` derives this once for all
invariants that are about the places of processes.
-/

namespace Praas.ControlPlane

/-- `e` has created `p`. -/
inductive New (b : Backend) (s : State) (e : Event) (t : State) (pl : Place) (p : ProcId) : Prop
  | user (a : AppId) (name : Str) (resources : Resources) (wait : Bool)
      (he : e = .addProcess a name resources wait) (hcreates : CreatesAs b s e name)
      (hnew : p = s.nextProc) (howner : (t.procs p).owner = (name, a))
      (hpl : pl = .active a name ∨ pl = .task ∨ pl = .allocation)
  | controlplane (a : AppId) (i : Invocation) (he : e = .invoke a i) (hnone : s.available a = none)
      (hnew : p = s.nextProc)
      (howner : (t.procs p).owner =
        (State.controlplaneName (s.apps a).controlplaneProcesses.length, a))
      (hpl : pl = .task ∨ pl = .allocation)

/-- How `p` gets into a place. -/
inductive Comes (b : Backend) (s : State) (e : Event) (t : State) (p : ProcId) : Place → Prop
  | stays (pl : Place) (hat : s.At pl p) : Comes b s e t p pl
  | swapped (a : AppId) (name : Str) (hat : s.At (.active a name) p)
      (hstatus : (s.procs p).status = .SWAPPING_OUT) : Comes b s e t p (.swapped a name)
  | reported (a : AppId) (hat : s.At .allocation p) : Comes b s e t p (.controlplane a)
  | inserted (name : Str) (hat : s.At .task p) : Comes b s e t p (.pending name)
  | registered (c : ConnId) (name : Str) (hat : s.At (.pending name) p) :
      Comes b s e t p (.connection c)
  | created (pl : Place) (hnew : New b s e t pl p) : Comes b s e t p pl

section Steps

variable {s t : State} {b : Backend} {e : Event} {pl : Place} {p : ProcId}

theorem comes_removed {a : AppId} {name : Str} (h : (s.setActive a name none).At pl p) :
    Comes b s e t p pl := by
  rcases at_setActive.1 h with ⟨-, hnone⟩ | ⟨-, hold⟩
  · cases hnone
  · exact .stays pl hold

theorem comes_swappedProcess {a : AppId} {name : Str} (hswap : s.swappedProcess a name = .ok t)
    (h : t.At pl p) : Comes b s e t p pl := by
  rcases swappedProcess_ok hswap with ⟨q, hactive, hstatus, heq⟩
  rw [heq] at h
  split_ifs at h
  · exact comes_removed h
  · rcases at_setSwapped.1 h with ⟨rfl, hq⟩ | ⟨-, hold⟩
    · rw [← Option.some.inj hq]
      exact .swapped a name hactive hstatus
    · exact comes_removed hold

/-- The connection that a process had closes. -/
theorem comes_disconnection {c : ConnId} {conn : Connection} {v : Option Connection}
    (hconn : s.conns c = some conn)
    (h : { s.handleDisconnection conn with
      conns := Function.update (s.handleDisconnection conn).conns c v }.At pl p)
    (hv : ∀ q, v.bind Connection.context = some q → conn.context = some q) :
    Comes b s e t p pl := by
  refine .stays pl ?_
  cases pl with
  | connection c' =>
    by_cases hc : c' = c
    · subst hc
      have hcontext := hv p (by simpa [State.At] using h)
      simp [State.At, hconn, hcontext]
    · have hold : (s.handleDisconnection conn).At (.connection c') p := by
        simpa [State.At, hc] using h
      exact at_handleDisconnection hold
  | active a name => exact at_handleDisconnection (k := .active a name) h
  | swapped a name => exact at_handleDisconnection (k := .swapped a name) h
  | controlplane a => exact at_handleDisconnection (k := .controlplane a) h
  | pending name => exact at_handleDisconnection (k := .pending name) h
  | task => exact at_handleDisconnection (k := .task) h
  | allocation => exact at_handleDisconnection (k := .allocation) h

/-- A process that is created stands in the queue of the server and with the backend. -/
theorem at_allocate {proc : Process} {o : Origin} (h : (s.allocate proc o).At pl p) :
    s.At pl p ∨ p = s.nextProc ∧ (pl = .task ∨ pl = .allocation) := by
  cases pl with
  | task =>
    rcases List.mem_append.1 h with hold | hnew
    · exact .inl hold
    · exact .inr ⟨List.mem_singleton.1 hnew, .inl rfl⟩
  | allocation =>
    by_cases hp : p = s.nextProc
    · exact .inr ⟨hp, .inr rfl⟩
    · refine .inl ?_
      simpa [State.At, hp] using h
  | _ => exact .inl h

theorem comes_addProcess {a : AppId} {name : Str} {resources : Resources} {wait : Bool}
    (hadd : s.addProcess b a name resources wait = .ok t) (h : t.At pl p) :
    Comes b s (.addProcess a name resources wait) t p pl := by
  rcases addProcess_ok hadd with ⟨hname, hresources, hactive, heq⟩
  have hcreated : p = s.nextProc → pl = .active a name ∨ pl = .task ∨ pl = .allocation →
      Comes b s (.addProcess a name resources wait) t p pl := by
    intro hp hpl
    have howner : (t.procs p).owner = (name, a) := by
      rw [heq, hp]
      simp [Process.owner]
    exact .created pl (.user a name resources wait rfl
      (.user a name resources wait hname hresources hactive) hp howner hpl)
  rw [heq] at h
  rcases at_allocate h with hentered | ⟨hp, hpl⟩
  · rcases at_setActive.1 hentered with ⟨hpl, hp⟩ | ⟨-, hold⟩
    · exact hcreated (Option.some.inj hp).symm (.inl hpl)
    · exact .stays pl hold
  · exact hcreated hp (.inr hpl)

theorem comes_step (hstep : s.step b e = .ok t) (h : t.At pl p) : Comes b s e t p pl := by
  cases performs_of_step hstep with
  | same => exact .stays pl h
  | addProcess hadd => exact comes_addProcess hadd h
  | invoke a i =>
    rcases getControlplaneProcess_cases s a i with ⟨q, -, hadded⟩ | ⟨hnone, hcreated⟩
    · rw [hadded] at h
      exact .stays pl h
    · rw [hcreated] at h ⊢
      rcases at_allocate h with hold | ⟨hp, hpl⟩
      · exact .stays pl hold
      · refine .created pl (.controlplane a i rfl hnone hp ?_ hpl)
        subst hp
        simp [Process.owner]
  | swapProcess a name path =>
    rcases swapProcess_cases s a name path with hsame | ⟨q, -, -, hswapping⟩
    · rw [hsame] at h
      exact .stays pl h
    · rw [hswapping] at h
      exact .stays pl h
  | swappedProcess hswap => exact comes_swappedProcess hswap h
  | deleteProcess hdelete =>
    rw [(deleteProcess_ok hdelete).2] at h
    rcases at_setSwapped.1 h with ⟨-, hnone⟩ | ⟨-, hold⟩
    · cases hnone
    · exact .stays pl hold
  | @allocated q o ho =>
    cases o with
    | user => exact .stays pl (at_takeAllocation.1 h).1
    | controlplane =>
      rcases at_addControlplane.1 h with hold | ⟨rfl, rfl⟩
      · exact .stays pl (at_takeAllocation.1 hold).1
      · exact .reported _ (Option.isSome_iff_exists.2 ⟨_, ho⟩)
  | allocationFailed ho hfail => exact .stays pl ((at_allocationFailed ho hstep pl p).1 h).1
  | runTask hrun =>
    rcases runTask_ok hrun with rfl | ⟨q, rest, htasks, -, rfl⟩
    · exact .stays pl h
    · cases pl with
      | task => exact .stays .task (show p ∈ s.tasks from htasks ▸ List.mem_cons_of_mem _ h)
      | pending name =>
        by_cases hname : name = (s.procs q).name
        · obtain rfl : q = p := by simpa [State.At, hname] using h
          exact .inserted name (show q ∈ s.tasks from htasks ▸ List.mem_cons_self)
        · exact .stays _ (by simpa [State.At, hname] using h)
      | _ => exact .stays _ h
  | connected =>
    cases pl with
    | connection c =>
      by_cases hc : c = s.nextConn
      · simp [State.At, State.connected, hc] at h
      · exact .stays _ (by simpa [State.At, State.connected, hc] using h)
    | _ => exact .stays _ h
  | @processConnection c name conn t hconn hcontext hregister =>
    rcases handleConnection_ok hregister with rfl | ⟨q, hpending, -, rfl⟩
    · exact .stays pl h
    · cases pl with
      | connection c' =>
        by_cases hc : c' = c
        · obtain rfl : q = p := by simpa [State.At, hc] using h
          exact .registered c' name hpending
        · exact .stays _ (by simpa [State.At, hc] using h)
      | pending name' =>
        by_cases hname : name' = name
        · simp [State.At, hname] at h
        · exact .stays _ (by simpa [State.At, hname] using h)
      | _ => exact .stays _ h
  | swapConfirmation hconn hcontext hswap => exact comes_swappedProcess hswap h
  | processClosure hconn hcontext => exact comes_disconnection hconn h fun q hq => hq
  | disconnected hconn => exact comes_disconnection hconn h fun q hq => by cases hq
  -- the others change processes only
  | instanceConnected | invocationResult => exact .stays pl h

end Steps

end Praas.ControlPlane
