import Praas.ControlPlane.Allocation
import Praas.ControlPlane.Turns

/-! # The registration of a process

The container of a process registers with the name of the process, and the table of the
processes that are expected is shared by all applications. A user chooses the names of
its processes; the name of a process for an invocation is computed from the number of
those that the backend has reported.
* `registration_unambiguous` — while every process is created under a name that no
  expected process has, each has its own entry, and its container is bound to it.
-/

namespace Praas.ControlPlane

variable {b : Backend} {s t : State} {e : Event} {p : ProcId}

/-! ## The names of the processes that are expected -/

/-- A process is created under a name that no expected process has. -/
def CreatesFree (b : Backend) (s : State) : Event → Prop
  | .addProcess a name resources _ =>
    name ≠ [] → b.rejects resources = none → (s.apps a).activeProcesses name = none → Free s name
  | .invoke a _ =>
    s.available a = none →
      Free s (State.controlplaneName (s.apps a).controlplaneProcesses.length)
  | _ => True

instance (s : State) (name : Str) : Decidable (Free s name) := by
  unfold Free
  infer_instance

instance (b : Backend) (s : State) : (e : Event) → Decidable (CreatesFree b s e)
  | .addProcess .. => inferInstanceAs (Decidable (_ → _ → _ → Free s _))
  | .invoke .. => inferInstanceAs (Decidable (_ → Free s _))
  | .swapProcess .. | .swappedProcess .. | .deleteProcess .. | .allocated ..
  | .allocationFailed .. | .instanceConnected .. | .runTask | .connected | .processConnection ..
  | .invocationResult .. | .swapConfirmation .. | .processClosure .. | .disconnected .. =>
    isTrue trivial

theorem CreatesAs.free {name : Str} (hcreates : CreatesAs b s e name) (h : CreatesFree b s e) :
    Free s name := by
  cases hcreates with
  | user a name resources wait hname hresources hactive => exact h hname hresources hactive
  | controlplane a i hnone => exact h hnone

/-- The processes to be inserted have different names, and none is taken. -/
structure Distinct (s : State) : Prop where
  tasks : (s.tasks.map fun p => (s.procs p).name).Nodup
  pending : ∀ p ∈ s.tasks, s.pendingProcesses (s.procs p).name = none

theorem distinct_step (h : Distinct s) (hwf : WellFormed s) (hfree : CreatesFree b s e)
    (hstep : s.step b e = .ok t) : Distinct t := by
  -- the processes that are queued already keep their names
  have hname : ∀ p ∈ s.tasks, (t.procs p).name = (s.procs p).name := by
    intro p hp
    have hlt := (hwf.fits .task p hp).1
    exact congrArg Prod.fst (owner_turn (turn_step hstep p) hlt.ne)
  have hnames : s.tasks.map (fun p => (t.procs p).name) =
      s.tasks.map fun p => (s.procs p).name := List.map_congr_left hname
  cases tables_step hstep with
  | same htasks hpending hreusable hnext =>
    constructor
    · rw [htasks, hnames]
      exact h.tasks
    · intro p hp
      rw [htasks] at hp
      rw [hpending, hname p hp]
      exact h.pending p hp
  | queued name hcreates htasks hpending hnew hreusable hnext =>
    have hfree := hcreates.free hfree
    constructor
    · rw [htasks, List.map_append, hnames, List.map_singleton, hnew, List.nodup_append]
      refine ⟨h.tasks, List.nodup_singleton _, ?_⟩
      intro x hx y hy hxy
      rcases List.mem_map.1 hx with ⟨q, hq, rfl⟩
      apply hfree.2 q hq
      rw [hxy]
      exact List.mem_singleton.1 hy
    · intro p hp
      rw [hpending]
      rw [htasks] at hp
      rcases List.mem_append.1 hp with hp | hp
      · rw [hname p hp]
        exact h.pending p hp
      · rw [List.mem_singleton.1 hp, hnew]
        exact hfree.1
  | inserted p htasks hnone hpending hreusable hnext =>
    have hnodup := h.tasks
    rw [← hnames, htasks, List.map_cons, List.nodup_cons] at hnodup
    constructor
    · exact hnodup.2
    · intro q hq
      have hold : q ∈ s.tasks := by
        rw [htasks]
        exact List.mem_cons_of_mem _ hq
      have hne : (s.procs q).name ≠ (s.procs p).name := by
        intro heq
        apply hnodup.1
        rw [hname p (htasks ▸ List.mem_cons_self), ← heq, ← hname q hold]
        exact List.mem_map_of_mem hq
      rw [hpending, hname q hold, Function.update_of_ne hne]
      exact h.pending q hold
  | reported p he ho htasks hpending hreusable hnext =>
    constructor
    · rw [htasks, hnames]
      exact h.tasks
    · intro q hq
      rw [htasks] at hq
      rw [hpending, hname q hq]
      exact h.pending q hq
  | registered c name p he htasks hfound hpending hreusable hnext =>
    constructor
    · rw [htasks, hnames]
      exact h.tasks
    · intro q hq
      rw [htasks] at hq
      have hnone := h.pending q hq
      rw [hpending, hname q hq]
      by_cases hsame : (s.procs q).name = name
      · rw [hsame, Function.update_self]
      · rw [Function.update_of_ne hsame]
        exact hnone

/-! ## Registration -/

/-- Every process that is being allocated has its own entry, or one that the server will
insert, and the registration of its container is bound to it and to no other. -/
structure Unambiguous (b : Backend) (s : State) : Prop where
  inserts : ∀ name, s.step b .runTask ≠ .error (.objectExists name)
  entry : ∀ p < s.nextProc, (s.procs p).status = .ALLOCATING →
    p ∈ s.tasks ∨ s.pendingProcesses (s.procs p).name = some p
  others : ∀ p < s.nextProc, (s.procs p).status = .ALLOCATING → ∀ c conn, s.conns c = some conn →
    conn.context = none → ∀ t, s.step b (.processConnection c (s.procs p).name) = .ok t →
      ∀ q, t.At (.connection c) q → q = p
  binds : ∀ p < s.nextProc, (s.procs p).status = .ALLOCATING → p ∉ s.tasks →
    ∀ c conn, s.conns c = some conn → conn.context = none →
      ∀ t, s.step b (.processConnection c (s.procs p).name) = .ok t → t.At (.connection c) p

theorem step_processConnection {c : ConnId} {conn : Connection} {name : Str}
    (hconn : s.conns c = some conn) (hnew : conn.context = none) :
    s.step b (.processConnection c name) = s.handleConnection c conn name := by
  simp [State.step, hconn, hnew]

theorem unambiguous_of_distinct (h : Distinct s) (hwf : WellFormed s) : Unambiguous b s where
  inserts name hraised := by
    have hrun : s.runTask = .error (.objectExists name) := hraised
    unfold State.runTask at hrun
    split at hrun
    · cases hrun
    case h_2 p rest htasks =>
      rw [h.pending p (htasks ▸ List.mem_cons_self)] at hrun
      cases hrun
  entry := hwf.waiting
  others p hp hstatus c conn hconn hnew t hstep q hq := by
    rw [step_processConnection hconn hnew] at hstep
    rcases handleConnection_ok hstep with rfl | ⟨r, hfound, -, rfl⟩
    · simp [State.At, hconn, hnew] at hq
    · have hqr : q = r := by
        simpa [State.At, eq_comm] using hq
      subst hqr
      -- what the name finds is not another process, since `p` waits under it
      rcases hwf.waiting p hp hstatus with htask | hpending
      · rw [h.pending p htask] at hfound
        cases hfound
      · exact Option.some.inj (hfound.symm.trans hpending)
  binds p hp hstatus htask c conn hconn hnew t hstep := by
    rw [step_processConnection hconn hnew] at hstep
    have hpending : s.pendingProcesses (s.procs p).name = some p :=
      (hwf.waiting p hp hstatus).resolve_left htask
    unfold State.handleConnection at hstep
    rw [hpending] at hstep
    dsimp only at hstep
    split at hstep
    · cases hstep
    · rw [← Except.ok.inj hstep]
      simp [State.At]

/-- In every run in which each process is created under a name that no other process
waits to register with, registration is unambiguous in every state. -/
theorem registration_unambiguous (b : Backend) (es : List Event)
    (hfree : Lts.Meets (State.step b) (CreatesFree b) {} es) (s : State)
    (hrun : Lts.run (State.step b) {} es = .ok s) : Unambiguous b s := by
  have hkeeps : ∀ s e s', WellFormed s ∧ Distinct s → CreatesFree b s e →
      s.step b e = .ok s' → WellFormed s' ∧ Distinct s' := by
    intro s e s' hs hfree hstep
    exact ⟨wellFormed_step e hs.1 hstep, distinct_step hs.2 hs.1 hfree hstep⟩
  have hnew : WellFormed {} ∧ Distinct {} := by
    refine ⟨wellFormed_new, List.nodup_nil, ?_⟩
    intro p hp
    cases hp
  have hinv := Lts.run_invariant hkeeps hnew hfree hrun
  exact unambiguous_of_distinct hinv.2 hinv.1

/-! ### Two requests for invocations -/

def faas (a : AppId) (id : Char) : Event := .invoke a ⟨str [id], str ['f'], [], false⟩

/-- The second process is created once the first one has been reported, and gets another
name. -/
def faasInTurn : List Event :=
  [faas 0 'a', .runTask, .allocated 0, faas 0 'b', faas 0 'c', .runTask, .connected,
    .processConnection 0 (State.controlplaneName 1)]

theorem registration_in_turn :
    ∃ s, Lts.run (State.step ⟨1024, 1⟩) {} faasInTurn = .ok s ∧ s.At (.connection 0) 1 ∧
      s.pendingProcesses (State.controlplaneName 0) = some 0 ∧ Unambiguous ⟨1024, 1⟩ s := by
  have hrun := Lts.run_test (State.step ⟨1024, 1⟩) {} faasInTurn
    (fun s => (s.conns 0).bind Connection.context = some 1 ∧
      s.pendingProcesses (State.controlplaneName 0) = some 0) (by decide +kernel)
  rcases hrun with ⟨s, hs, hbound, hpending⟩
  exact ⟨s, hs, hbound, hpending,
    registration_unambiguous ⟨1024, 1⟩ faasInTurn (by decide +kernel) s hs⟩

/-- Two applications create a process for an invocation each: both are called the same,
and the insertion of the second one raises in the loop of the server. -/
theorem same_name_raises :
    ∃ s, Lts.run (State.step ⟨1024, 1⟩) {} [faas 0 'a', faas 1 'b', .runTask] = .ok s ∧
      s.step ⟨1024, 1⟩ .runTask = .error (.objectExists (State.controlplaneName 0)) ∧
      (s.procs 0).application ≠ (s.procs 1).application ∧ ¬ Unambiguous ⟨1024, 1⟩ s := by
  have hrun := Lts.run_test (State.step ⟨1024, 1⟩) {} [faas 0 'a', faas 1 'b', .runTask]
    (fun s => s.tasks = [1] ∧ (s.procs 1).name = State.controlplaneName 0 ∧
      (s.pendingProcesses (State.controlplaneName 0)).isSome ∧
      (s.procs 0).application ≠ (s.procs 1).application) (by decide +kernel)
  rcases hrun with ⟨s, hs, htasks, hname, htaken, happs⟩
  have hraises : s.step ⟨1024, 1⟩ .runTask = .error (.objectExists (State.controlplaneName 0)) := by
    show s.runTask = _
    unfold State.runTask
    rw [htasks]
    dsimp only
    rw [hname, if_pos htaken]
  exact ⟨s, hs, hraises, happs, fun h => h.inserts _ hraises⟩

end Praas.ControlPlane
