import Praas.Lib.Lists
import Praas.ControlPlane.Places

/-! # Closing a connection with a message

A process that ends its connection in order sends a closure message first.
`handle_closure` runs the handler of disconnections, and the end of the connection
runs it again.
* `numbered_step` — without closure messages the counters are the numbers of
  connections;
* `closure_counted_twice` — a closure message and the end of the connection never
  amount to the end alone.
-/

namespace Praas.ControlPlane

def openConnections (s : State) : ℕ :=
  (List.range s.nextConn).countP fun c => (s.conns c).isSome

def registeredConnections (s : State) : ℕ :=
  (List.range s.nextConn).countP fun c => ((s.conns c).bind Connection.context).isSome

/-- The counters of the server are the numbers of its connections. -/
structure Counted (s : State) : Prop where
  connected : s.numConnectedProcesses = openConnections s
  registered : s.numRegisteredProcesses = registeredConnections s

/-- A closure message before the end of a connection makes no difference, the
counters are right, and a process that was swapped out stays in the swapped table. -/
structure Graceful (b : Backend) (s : State) (c : ConnId) : Prop where
  same : Lts.run (State.step b) s [.processClosure c, .disconnected c] =
    Lts.run (State.step b) s [.disconnected c]
  counted : ∀ t, Lts.run (State.step b) s [.processClosure c, .disconnected c] = .ok t → Counted t
  listed : ∀ t, Lts.run (State.step b) s [.processClosure c, .disconnected c] = .ok t →
    ∀ conn ∈ s.conns c, ∀ p ∈ conn.context, (s.procs p).status = .SWAPPED_OUT →
      s.At (.swapped (s.procs p).application (s.procs p).name) p →
        t.At (.swapped (s.procs p).application (s.procs p).name) p ∧
          (t.procs p).status = .CLOSED

section Handlers

variable {s : State} {c : ConnId} {conn : Connection} {p : ProcId}

theorem closedProcess_counters (p : ProcId) :
    (s.closedProcess p).numConnectedProcesses = s.numConnectedProcesses ∧
      (s.closedProcess p).numRegisteredProcesses = s.numRegisteredProcesses ∧
      (s.closedProcess p).nextConn = s.nextConn := by
  unfold State.closedProcess
  dsimp only
  split_ifs <;> exact ⟨rfl, rfl, rfl⟩

theorem run_disconnected (b : Backend) (hconn : s.conns c = some conn) :
    Lts.run (State.step b) s [.disconnected c] = .ok (s.disconnected c conn) := by
  refine Lts.run_cons_ok.2 ⟨_, ?_, rfl⟩
  simp only [State.step, hconn]

theorem run_closure_disconnected (b : Backend) (hconn : s.conns c = some conn)
    (hcontext : conn.context = some p) :
    Lts.run (State.step b) s [.processClosure c, .disconnected c] =
      .ok ((s.handleClosure c conn).disconnected c { conn with shutdown := true }) := by
  refine Lts.run_cons_ok.2 ⟨s.handleClosure c conn, ?_, run_disconnected b ?_⟩
  · simp only [State.step, State.registered, hconn, hcontext, Option.map_some]
  · simp [State.handleClosure]

theorem disconnected_counters (hcontext : conn.context = some p) :
    (s.disconnected c conn).numConnectedProcesses = s.numConnectedProcesses - 1 ∧
      (s.disconnected c conn).numRegisteredProcesses = s.numRegisteredProcesses - 1 := by
  unfold State.disconnected
  rw [handleDisconnection_some hcontext]
  exact ⟨(closedProcess_counters p).1, (closedProcess_counters p).2.1⟩

theorem handleClosure_counters (hcontext : conn.context = some p) :
    (s.handleClosure c conn).numConnectedProcesses = s.numConnectedProcesses - 1 ∧
      (s.handleClosure c conn).numRegisteredProcesses = s.numRegisteredProcesses - 1 := by
  unfold State.handleClosure
  rw [handleDisconnection_some hcontext]
  exact ⟨(closedProcess_counters p).1, (closedProcess_counters p).2.1⟩

end Handlers

/-! ## The counters -/

/-- The connections and their counters. -/
def State.server (s : State) : (ConnId → Option Connection) × ConnId × Int × Int :=
  (s.conns, s.nextConn, s.numConnectedProcesses, s.numRegisteredProcesses)

/-- The counters are right, and the numbers of connections are below the next. -/
structure Numbered (s : State) : Prop extends Counted s where
  fresh : ∀ c conn, s.conns c = some conn → c < s.nextConn

theorem numbered_new : Numbered {} where
  connected := rfl
  registered := rfl
  fresh _ _ h := by cases h

theorem Numbered.same {s t : State} (h : Numbered s) (hserver : t.server = s.server) :
    Numbered t := by
  obtain ⟨hconns, hnext, hconnected, hregistered⟩ :
      t.conns = s.conns ∧ t.nextConn = s.nextConn ∧
        t.numConnectedProcesses = s.numConnectedProcesses ∧
        t.numRegisteredProcesses = s.numRegisteredProcesses := by
    simpa [State.server] using hserver
  constructor
  · constructor
    · rw [hconnected, h.connected]
      simp [openConnections, hconns, hnext]
    · rw [hregistered, h.registered]
      simp [registeredConnections, hconns, hnext]
  · rw [hconns, hnext]
    exact h.fresh

section Server

variable {s t : State} {b : Backend}

theorem server_addProcess {a : AppId} {name : Str} {resources : Resources} {wait : Bool}
    (h : s.addProcess b a name resources wait = .ok t) : t.server = s.server := by
  rcases addProcess_ok h with ⟨-, -, -, rfl⟩
  rfl

theorem server_getControlplaneProcess (a : AppId) (i : Invocation) :
    (s.getControlplaneProcess a i).1.server = s.server := by
  rcases getControlplaneProcess_cases s a i with ⟨p, -, hadded⟩ | ⟨-, hcreated⟩
  · rw [hadded]
    rfl
  · rw [hcreated]
    rfl

theorem server_swapProcess (a : AppId) (name path : Str) :
    (s.swapProcess a name path).1.server = s.server := by
  rcases swapProcess_cases s a name path with hsame | ⟨p, -, -, hswapping⟩
  · rw [hsame]
  · rw [hswapping]
    rfl

theorem server_swappedProcess {a : AppId} {name : Str} (h : s.swappedProcess a name = .ok t) :
    t.server = s.server := by
  rcases swappedProcess_ok h with ⟨p, -, -, rfl⟩
  split_ifs <;> rfl

theorem server_deleteProcess {a : AppId} {name : Str} (h : s.deleteProcess a name = .ok t) :
    t.server = s.server := by
  rw [(deleteProcess_ok h).2]
  rfl

theorem server_allocated (p : ProcId) (o : Origin) : (s.allocated p o).server = s.server := by
  cases o <;> rfl

theorem server_allocationFailed {p : ProcId} {o : Origin} {error : Str}
    (h : s.allocationFailed p o error = .ok t) : t.server = s.server := by
  rcases allocationFailed_ok h with ⟨-, -, rfl⟩ | ⟨-, rfl⟩
  · rfl
  · rfl

theorem server_runTask (h : s.runTask = .ok t) : t.server = s.server := by
  rcases runTask_ok h with rfl | ⟨p, rest, -, -, rfl⟩
  · rfl
  · rfl

theorem numbered_connected (h : Numbered s) : Numbered s.connected := by
  -- the new connection is the last of the range, and no process is in its context
  have hnew : ∀ c < s.nextConn, Function.update s.conns s.nextConn (some {}) c = s.conns c :=
    fun c hc => Function.update_of_ne hc.ne _ _
  constructor
  · constructor
    · show s.numConnectedProcesses + 1 = _
      have hcount : openConnections s.connected = openConnections s + 1 := by
        unfold openConnections State.connected
        rw [List.range_succ, List.countP_append]
        congr 1
        · apply List.countP_congr
          intro c hc
          show (Function.update s.conns s.nextConn (some {}) c).isSome = true ↔ _
          rw [hnew c (List.mem_range.1 hc)]
        · simp
      rw [hcount, h.connected]
      rfl
    · show s.numRegisteredProcesses = _
      have hcount : registeredConnections s.connected = registeredConnections s := by
        unfold registeredConnections State.connected
        rw [List.range_succ, List.countP_append]
        have hold : (List.range s.nextConn).countP (fun c =>
            ((Function.update s.conns s.nextConn (some {}) c).bind Connection.context).isSome) =
            (List.range s.nextConn).countP fun c =>
              ((s.conns c).bind Connection.context).isSome := by
          apply List.countP_congr
          intro c hc
          rw [hnew c (List.mem_range.1 hc)]
        rw [hold]
        simp
      rw [hcount, h.registered]
  · intro c conn hc
    show c < s.nextConn + 1
    by_cases hcn : c = s.nextConn
    · exact hcn ▸ Nat.lt_succ_self _
    · have hc' : Function.update s.conns s.nextConn (some {}) c = some conn := hc
      rw [Function.update_of_ne hcn] at hc'
      exact Nat.lt_succ_of_lt (h.fresh c conn hc')

/-- One connection changes, and the counters with it. -/
theorem Numbered.setConn (h : Numbered s) {c : ConnId} {conn : Connection}
    (hconn : s.conns c = some conn) {v : Option Connection} {t : State}
    (hconns : t.conns = Function.update s.conns c v) (hnext : t.nextConn = s.nextConn)
    (hconnected : t.numConnectedProcesses + 1 =
      s.numConnectedProcesses + if v.isSome then 1 else 0)
    (hregistered : t.numRegisteredProcesses + (if conn.context.isSome then 1 else 0) =
      s.numRegisteredProcesses + if (v.bind Connection.context).isSome then 1 else 0) :
    Numbered t := by
  have hc := h.fresh c conn hconn
  have hopen : openConnections t + 1 = openConnections s + if v.isSome then 1 else 0 := by
    have hcount := Lists.countP_range_update s.conns (fun x => x.isSome) hc v
    unfold openConnections
    rw [hconns, hnext]
    simpa [hconn] using hcount
  have hreg : registeredConnections t + (if conn.context.isSome then 1 else 0) =
      registeredConnections s + if (v.bind Connection.context).isSome then 1 else 0 := by
    have hcount := Lists.countP_range_update s.conns
      (fun x => (x.bind Connection.context).isSome) hc v
    unfold registeredConnections
    rw [hconns, hnext]
    simpa only [hconn, Option.bind_some] using hcount
  constructor
  · constructor
    · have hs := h.connected
      split_ifs at hopen hconnected <;> omega
    · have hs := h.registered
      split_ifs at hreg hregistered <;> omega
  · intro c' conn' hc'
    rw [hnext]
    rw [hconns] at hc'
    by_cases hcc : c' = c
    · exact hcc ▸ hc
    · rw [Function.update_of_ne hcc] at hc'
      exact h.fresh c' conn' hc'

theorem numbered_handleConnection (h : Numbered s) {c : ConnId} {conn : Connection} {name : Str}
    (hconn : s.conns c = some conn) (hnew : conn.context = none)
    (hok : s.handleConnection c conn name = .ok t) : Numbered t := by
  rcases handleConnection_ok hok with rfl | ⟨p, -, -, rfl⟩
  · exact h
  · refine h.setConn hconn (v := some { conn with context := some p }) rfl rfl ?_ ?_
    · simp
    · simp [hnew]

theorem numbered_disconnected (h : Numbered s) {c : ConnId} {conn : Connection}
    (hconn : s.conns c = some conn) : Numbered (s.disconnected c conn) := by
  have hconns : (s.disconnected c conn).conns = Function.update s.conns c none := by
    unfold State.disconnected
    dsimp only
    rw [conns_handleDisconnection]
  cases hcontext : conn.context with
  | none =>
    have hcounters : (s.disconnected c conn).nextConn = s.nextConn ∧
        (s.disconnected c conn).numConnectedProcesses = s.numConnectedProcesses - 1 ∧
        (s.disconnected c conn).numRegisteredProcesses = s.numRegisteredProcesses := by
      unfold State.disconnected State.handleDisconnection
      rw [hcontext]
      exact ⟨rfl, rfl, rfl⟩
    refine h.setConn hconn hconns hcounters.1 ?_ ?_
    · simp [hcounters.2.1]
    · simp [hcounters.2.2, hcontext]
  | some p =>
    have hcounters := disconnected_counters (s := s) (c := c) hcontext
    have hnext : (s.disconnected c conn).nextConn = s.nextConn := by
      unfold State.disconnected
      rw [handleDisconnection_some hcontext]
      exact (closedProcess_counters p).2.2
    refine h.setConn hconn hconns hnext ?_ ?_
    · simp [hcounters.1]
    · simp [hcounters.2, hcontext]

end Server

/-- Every event but a closure message keeps the counters. -/
theorem numbered_step {b : Backend} {s t : State} (e : Event) (h : Numbered s)
    (hclosure : ∀ c, e ≠ .processClosure c) (hstep : s.step b e = .ok t) : Numbered t := by
  cases performs_of_step hstep with
  | same => exact h
  | addProcess hadd => exact h.same (server_addProcess hadd)
  | invoke a i => exact h.same (server_getControlplaneProcess a i)
  | swapProcess a name path => exact h.same (server_swapProcess a name path)
  | swappedProcess hswap => exact h.same (server_swappedProcess hswap)
  | deleteProcess hdelete => exact h.same (server_deleteProcess hdelete)
  | @allocated p o ho => exact h.same (server_allocated p o)
  | allocationFailed ho hfail =>
    have hserver := server_allocationFailed hfail
    exact h.same hserver
  | instanceConnected error hconnecting => exact h.same rfl
  | runTask hrun => exact h.same (server_runTask hrun)
  | connected => exact numbered_connected h
  | processConnection hconn hcontext hregister =>
    exact numbered_handleConnection h hconn hcontext hregister
  | invocationResult id returnCode result hconn hcontext => exact h.same rfl
  | swapConfirmation hconn hcontext hswap => exact h.same (server_swappedProcess hswap)
  | @processClosure c conn p hconn hcontext => exact absurd rfl (hclosure c)
  | disconnected hconn => exact numbered_disconnected h hconn

/-- Without closure messages the counters are right in every state. -/
theorem numbered_run {b : Backend} {es : List Event} {s : State}
    (h : Lts.run (State.step b) {} es = .ok s) (hclosure : ∀ c, .processClosure c ∉ es) :
    Numbered s := by
  have hmeets : Lts.Meets (State.step b) (fun _ e => ∀ c, e ≠ .processClosure c) {} es :=
    Lts.meets_of_forall (fun _ he _ c hc => hclosure c (Eq.subst hc he)) _
  exact Lts.run_invariant (fun _ e _ hs hC hstep => numbered_step e hs hC hstep) numbered_new
    hmeets h

/-! ## A closure message and the end of the connection -/

/-- A process that is closed already fails, and the entry of its name is removed. -/
theorem closedProcess_closed {s : State} {p : ProcId} (hclosed : (s.procs p).status = .CLOSED)
    (hactive : (s.apps (s.procs p).application).activeProcesses (s.procs p).name = none) :
    s.closedProcess p = (s.setStatus p .FAILURE).setSwapped (s.procs p).application
      (s.procs p).name none := by
  rcases closedProcess_cases s p with ⟨hout, -⟩ | ⟨-, q, hq, -⟩ | ⟨-, -, heq⟩
  · cases hclosed.symm.trans hout
  · cases hactive.symm.trans hq
  · exact heq

section Twice

variable {s : State} {c : ConnId} {conn : Connection} {p : ProcId}

theorem disconnected_swappedOut (hcontext : conn.context = some p)
    (hout : (s.procs p).status = .SWAPPED_OUT) :
    ((s.disconnected c conn).procs p).status = .CLOSED ∧
      (s.disconnected c conn).apps = s.apps := by
  unfold State.disconnected
  rw [handleDisconnection_some hcontext, closedProcess_swappedOut (s := s.deregister) hout]
  refine ⟨?_, rfl⟩
  simp [Process.closeConnection]

theorem handleClosure_swappedOut (hcontext : conn.context = some p)
    (hout : (s.procs p).status = .SWAPPED_OUT) :
    (s.handleClosure c conn).procs p = (s.procs p).closeConnection ∧
      (s.handleClosure c conn).apps = s.apps := by
  unfold State.handleClosure
  rw [handleDisconnection_some hcontext, closedProcess_swappedOut (s := s.deregister) hout]
  refine ⟨?_, rfl⟩
  simp

theorem disconnected_closed (hcontext : conn.context = some p)
    (hclosed : (s.procs p).status = .CLOSED)
    (hactive : (s.apps (s.procs p).application).activeProcesses (s.procs p).name = none) :
    ((s.disconnected c conn).procs p).status = .FAILURE ∧
      ((s.disconnected c conn).apps (s.procs p).application).swappedProcesses (s.procs p).name =
        none := by
  unfold State.disconnected
  rw [handleDisconnection_some hcontext, closedProcess_closed (s := s.deregister) hclosed hactive]
  simp [State.setStatus]

end Twice

/-- In every state, for every registered connection, a closure message before the end
of the connection takes one from each counter. A process that was swapped out, with no
active process of its name, is closed by the end of the connection alone; with the
message it fails and is in no table any more. -/
theorem closure_counted_twice (b : Backend) (s : State) (c : ConnId) (conn : Connection)
    (p : ProcId) (hconn : s.conns c = some conn) (hcontext : conn.context = some p) :
    ∃ t u, Lts.run (State.step b) s [.processClosure c, .disconnected c] = .ok t ∧
      Lts.run (State.step b) s [.disconnected c] = .ok u ∧
      t.numConnectedProcesses = u.numConnectedProcesses - 1 ∧
      t.numRegisteredProcesses = u.numRegisteredProcesses - 1 ∧
      (Numbered s → Numbered u) ∧
      ((s.procs p).status = .SWAPPED_OUT →
        (s.apps (s.procs p).application).activeProcesses (s.procs p).name = none →
        (u.procs p).status = .CLOSED ∧ u.apps = s.apps ∧ (t.procs p).status = .FAILURE ∧
          (t.apps (s.procs p).application).swappedProcesses (s.procs p).name = none) ∧
      ¬ Graceful b s c := by
  have hagain : ({ conn with shutdown := true } : Connection).context = some p := hcontext
  have hend := run_disconnected b hconn
  have hboth := run_closure_disconnected b hconn hcontext
  have hu := disconnected_counters (s := s) (c := c) hcontext
  have hc := handleClosure_counters (s := s) (c := c) hcontext
  have ht := disconnected_counters (s := s.handleClosure c conn) (c := c) hagain
  refine ⟨_, _, hboth, hend, by omega, by omega, fun h => numbered_disconnected h hconn,
    fun hout hactive => ?_, fun hgraceful => ?_⟩
  · have hfirst := handleClosure_swappedOut (s := s) (c := c) hcontext hout
    have hplace : ((s.handleClosure c conn).procs p).name = (s.procs p).name ∧
        ((s.handleClosure c conn).procs p).application = (s.procs p).application := by
      rw [hfirst.1]
      exact ⟨rfl, rfl⟩
    have hsecond := disconnected_closed (s := s.handleClosure c conn) (c := c) hagain
      (by rw [hfirst.1]; rfl) (by rw [hplace.1, hplace.2, hfirst.2]; exact hactive)
    have hfinal := disconnected_swappedOut (s := s) (c := c) hcontext hout
    rw [hplace.1, hplace.2] at hsecond
    exact ⟨hfinal.1, hfinal.2, hsecond.1, hsecond.2⟩
  · have hsame := hgraceful.same
    rw [hboth, hend] at hsame
    have hcount := congrArg State.numConnectedProcesses (Except.ok.inj hsame)
    omega

/-! ### A process that is swapped out -/

/-- A process is created and connects. -/
def running : List Event :=
  [.addProcess 0 (str ['p']) ⟨some 128, some 1⟩ false, .runTask, .connected,
    .processConnection 0 (str ['p'])]

theorem closure_of_running :
    ∃ s, Lts.run (State.step ⟨1024, 1⟩) {} running = .ok s ∧
      ∃ t u, Lts.run (State.step ⟨1024, 1⟩) s [.processClosure 0, .disconnected 0] = .ok t ∧
        Lts.run (State.step ⟨1024, 1⟩) s [.disconnected 0] = .ok u ∧
        t.numConnectedProcesses = u.numConnectedProcesses - 1 ∧ Numbered u := by
  have hrun := Lts.run_test (State.step ⟨1024, 1⟩) {} running
    (fun s => s.conns 0 = some ⟨some 0, false⟩) (by decide +kernel)
  rcases hrun with ⟨s, hs, hconn⟩
  rcases closure_counted_twice ⟨1024, 1⟩ s 0 _ 0 hconn rfl with ⟨t, u, ht, hu, hcount, -, hright, -⟩
  exact ⟨s, hs, t, u, ht, hu, hcount, hright (numbered_run hs (by simp [running]))⟩

/-- A process that has confirmed its swap closes in order: it is in no table any more,
and both counters are negative. -/
theorem swapped_process_lost :
    ∃ s t, Lts.run (State.step ⟨1024, 1⟩) {}
        (running ++ [.swapProcess 0 (str ['p']) (str ['s']), .swapConfirmation 0]) = .ok s ∧
      s.At (.swapped 0 (str ['p'])) 0 ∧
      Lts.run (State.step ⟨1024, 1⟩) s [.processClosure 0, .disconnected 0] = .ok t ∧
      t.numConnectedProcesses = -1 ∧ t.numRegisteredProcesses = -1 ∧
      (t.procs 0).status = .FAILURE ∧ ¬ t.At (.swapped 0 (str ['p'])) 0 ∧
      ¬ Graceful ⟨1024, 1⟩ s 0 := by
  have hrun := Lts.run_test (State.step ⟨1024, 1⟩) {}
    (running ++ [.swapProcess 0 (str ['p']) (str ['s']), .swapConfirmation 0])
    (fun s => (s.apps 0).swappedProcesses (str ['p']) = some 0 ∧
      (Lts.run (State.step ⟨1024, 1⟩) s [.processClosure 0, .disconnected 0]).toOption.any fun t =>
        t.numConnectedProcesses = -1 ∧ t.numRegisteredProcesses = -1 ∧
          (t.procs 0).status = .FAILURE ∧ (t.apps 0).swappedProcesses (str ['p']) = none)
    (by decide +kernel)
  rcases hrun with ⟨s, hs, hswapped, hclosed⟩
  cases ht : Lts.run (State.step ⟨1024, 1⟩) s [.processClosure 0, .disconnected 0] with
  | error f => simp [ht, Except.toOption] at hclosed
  | ok t =>
    simp only [ht, Except.toOption, Option.any_some, decide_eq_true_eq] at hclosed
    rcases hclosed with ⟨hconnected, hregistered, hstatus, hnone⟩
    refine ⟨s, t, hs, hswapped, ht, hconnected, hregistered, hstatus, ?_, fun hgraceful => ?_⟩
    · intro hat
      cases hnone.symm.trans hat
    · have hcounted := (hgraceful.counted t ht).connected
      omega

end Praas.ControlPlane
