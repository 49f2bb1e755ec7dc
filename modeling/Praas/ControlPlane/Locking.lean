import Praas.Lib.Locks
import Praas.ControlPlane.TcpServer

/-! # The locks of an application

The operations of `Application` that run in the threads of the HTTP server, of the TCP
server and of the backend at the same time: each acquires and releases `_active_mutex`,
`_swapped_mutex` and the mutex of one process step by step. What an operation does between
two of these steps is part of the first one.

All lock the table of active processes before a process and this before the table of the
swapped ones, but for `closed_process`, which holds the process when it locks the table of
active ones.
* `Clash`: an operation that holds `_active_mutex` is about to lock a process for which
  `closed_process` is about to lock `_active_mutex`.
* `cycle_iff_clash`: no other operations wait in a cycle.
* `no_cycle_iff`: a run stays free of cycles exactly if its steps keep the two apart.
* `locks_exclusive`: in every run the locks exclude each other as they should.
-/

namespace Praas.ControlPlane.Locking

open Locks (Mode)

/-! ## Operations and their locks -/

inductive Mutex where
  | active
  | swapped
  | process (p : ProcId)
deriving DecidableEq, Repr

/-- The operations; `allocationFailed` is the callback of `add_process`. What `get_process`
returns is held until its caller drops it. -/
inductive Op where
  | addProcess (name : Str) (resources : Resources) (waitForAllocation : Bool)
  | allocationFailed (p : ProcId) (error : Str)
  | getProcess (name : Str)
  | swapProcess (name : Str) (path : Str)
  | swappedProcess (name : Str)
  | closedProcess (p : ProcId)
  | deleteProcess (name : Str)
deriving DecidableEq

/-- Where an operation is: the locks it holds and what it does next. -/
inductive Pc where
  | start
  /-- Has checked its arguments, and acquires its first lock. -/
  | ready
  /-- Has found the process in the table that it has locked, and locks it. -/
  | found (p : ProcId)
  /-- Holds the table and the process; `false` if it raises. -/
  | both (p : ProcId) (ok : Bool)
  /-- Holds the table, and is done with it. -/
  | leaving
  /-- Holds the process, and locks the table of active processes. -/
  | closing (p : ProcId)
  /-- Holds the process, and locks the table of swapped processes. -/
  | inserting (p : ProcId)
  | inserted (p : ProcId)
  /-- Holds the process, and is done with it. -/
  | holding (p : ProcId)
  | deleting
  | done
deriving DecidableEq, Repr

structure Thread where
  op : Op
  pc : Pc := .start
deriving DecidableEq

namespace Op

/-- How the operation locks the table of active processes, and the process. -/
def mode : Op → Mode
  | .getProcess _ => .shared
  | .swapProcess _ _ => .shared
  | _ => .exclusive

def processMode : Op → Mode
  | .getProcess _ => .shared
  | _ => .exclusive

/-- The name of the active process that the operation locks. -/
def activeName : Op → Option Str
  | .getProcess name => some name
  | .swapProcess name _ => some name
  | .swappedProcess name => some name
  | _ => none

/-- What raises before any lock is acquired. -/
def rejected (b : Backend) : Op → Bool
  | .addProcess name resources _ => name.length = 0 ∨ (b.rejects resources).isSome
  | .swapProcess name _ => name.length = 0
  | .deleteProcess name => name.length = 0
  | _ => false

end Op

namespace Thread

def held (t : Thread) : List (Mutex × Mode) :=
  match t.pc with
  -- the arguments are checked without a lock
  | .start => []
  | .ready => []
  | .found _ => [(.active, t.op.mode)]
  | .both p _ => [(.active, t.op.mode), (.process p, t.op.processMode)]
  | .leaving => [(.active, t.op.mode)]
  | .closing p => [(.process p, .exclusive)]
  | .inserting p => [(.process p, .exclusive)]
  | .inserted p => [(.process p, .exclusive), (.swapped, .exclusive)]
  | .holding p => [(.process p, t.op.processMode)]
  | .deleting => [(.swapped, .exclusive)]
  | .done => []

/-- The lock that the next step acquires. -/
def wants (t : Thread) : Option (Mutex × Mode) :=
  match t.pc, t.op with
  | .ready, .closedProcess p => some (.process p, .exclusive)
  | .ready, .deleteProcess _ => some (.swapped, .exclusive)
  | .ready, op => some (.active, op.mode)
  | .found p, op => some (.process p, op.processMode)
  | .closing _, _ => some (.active, .exclusive)
  | .inserting _, _ => some (.swapped, .exclusive)
  | _, _ => none

end Thread

/-! ## Steps -/

section Steps

variable (b : Backend) (a : AppId)

/-- What an operation does that has found the name in the table of active processes, or
not. -/
def lookup (s : State) (name : Str) : Pc :=
  match (s.apps a).activeProcesses name with
  | none => .leaving
  | some p => .found p

/-- What raises under the lock ends the operation, which releases it. -/
def within (s : State) (pc : Pc) (r : Except Failure State) : Except Failure (State × Pc) :=
  (s.orKeep r).map fun s' => (s', pc)

/-- The operation `op` once it has the lock that it wants, or releases one. -/
def next (s : State) : Op → Pc → Except Failure (State × Pc)
  | op, .start => .ok (s, if op.rejected b then .done else .ready)
  | .addProcess name resources wait, .ready =>
    within s .leaving (s.addProcess b a name resources wait)
  | .allocationFailed p error, .ready => within s .leaving (s.allocationFailed p .user error)
  | .getProcess name, .ready => .ok (s, lookup a s name)
  | .getProcess _, .found p => .ok (s, .both p true)
  | .swapProcess name _, .ready => .ok (s, lookup a s name)
  | .swapProcess _ _, .found p => .ok (s, .both p (decide ((s.procs p).status = .ALLOCATED)))
  -- the table is unlocked before the process changes
  | .swapProcess _ path, .both p true =>
    .ok (s.setProcess p
      ({ s.procs p with status := .SWAPPING_OUT, swapPath := some path } : Process).swap.1,
      .holding p)
  | .swappedProcess name, .ready => .ok (s, lookup a s name)
  | .swappedProcess name, .found p =>
    if (s.procs p).status = .SWAPPING_OUT then .ok (s.setActive a name none, .both p true)
    else .ok (s, .both p false)
  | .swappedProcess _, .both p true => .ok (s.setStatus p .SWAPPED_OUT, .inserting p)
  -- an entry for a name that is taken is dropped
  | .swappedProcess name, .inserting p =>
    .ok (if ((s.apps a).swappedProcesses name).isSome then s else s.setSwapped a name (some p),
      .inserted p)
  | .closedProcess p, .ready =>
    if (s.procs p).status = .SWAPPED_OUT then
      .ok (s.setProcess p (s.procs p).closeConnection, .holding p)
    else .ok (s.setStatus p .FAILURE, .closing p)
  -- both tables are changed under the lock of the active one
  | .closedProcess _, .closing p =>
    .ok (if ((s.apps a).activeProcesses (s.procs p).name).isSome then
        s.setActive a (s.procs p).name none
      else s.setSwapped a (s.procs p).name none, .both p true)
  -- the process itself is not locked
  | .deleteProcess name, .ready => within s .deleting (s.deleteProcess a name)
  -- the rest only releases what it holds
  | _, .both p true => .ok (s, .holding p)
  | _, .both _ false => .ok (s, .leaving)
  | _, .inserted p => .ok (s, .holding p)
  | _, _ => .ok (s, .done)

end Steps

/-- The state of the control plane, and operations that run at the same time. -/
structure System (n : ℕ) where
  state : State
  threads : Fin n → Thread

namespace System

variable {n : ℕ}

/-- The operations have not begun. -/
def new (state : State) (ops : Fin n → Op) : System n where
  state := state
  threads := fun i => { op := ops i }

def wants (s : System n) (i : Fin n) : Option (Mutex × Mode) := (s.threads i).wants

def held (s : System n) (i : Fin n) : List (Mutex × Mode) := (s.threads i).held

/-- The lock that the operation wants is free for it, or it wants none. -/
def Granted (s : System n) (i : Fin n) : Prop :=
  ∀ m ∈ s.wants i, ∀ j, j ≠ i → ∀ h ∈ s.held j, h.1 = m.1 → ¬ m.2.Conflicts h.2

instance (s : System n) (i : Fin n) : Decidable (s.Granted i) :=
  inferInstanceAs (Decidable (∀ m ∈ _, ∀ _, _ → ∀ _ ∈ _, _ → _))

/-- A step of one operation; one that waits for a lock stays where it is. -/
def step (b : Backend) (a : AppId) (s : System n) (i : Fin n) : Except Failure (System n) :=
  if s.Granted i then
    (next b a s.state (s.threads i).op (s.threads i).pc).map fun r =>
      { state := r.1
        threads := Function.update s.threads i { s.threads i with pc := r.2 } }
  else .ok s

/-- A cycle of operations, each waiting for a lock held by the next one. -/
def Cycle (s : System n) : Prop := Locks.Cycle s.wants s.held

/-- An operation that holds the table of active processes is about to lock a process, and
`closed_process` holds the process and is about to lock the table. -/
def Clash (s : System n) : Prop :=
  ∃ i j p, (s.threads i).pc = .found p ∧ (s.threads j).pc = .closing p

/-- An operation does not lock the table to go on with a process that `closed_process`
has locked to go on with the table, nor the other way round. -/
def Apart (a : AppId) (s : System n) (i : Fin n) : Prop :=
  s.Granted i → (s.threads i).pc = .ready →
    (∀ name, (s.threads i).op.activeName = some name →
      ∀ p, (s.state.apps a).activeProcesses name = some p →
        ∀ j, (s.threads j).pc ≠ .closing p) ∧
    ∀ p, (s.threads i).op = .closedProcess p → (s.state.procs p).status ≠ .SWAPPED_OUT →
      ∀ j, (s.threads j).pc ≠ .found p

end System

/-! ## Cycles -/

namespace Thread

variable {t : Thread} {m : Mutex} {c : Mode}

/-- Where an operation waits. -/
theorem waits_cases (h : t.wants = some (m, c)) :
    t.pc = .ready ∨ (∃ p, t.pc = .found p) ∨ (∃ p, t.pc = .closing p) ∨
      ∃ p, t.pc = .inserting p := by
  rcases t with ⟨op, pc⟩
  cases pc with
  | ready => exact Or.inl rfl
  | found p => exact Or.inr (Or.inl ⟨p, rfl⟩)
  | closing p => exact Or.inr (Or.inr (Or.inl ⟨p, rfl⟩))
  | inserting p => exact Or.inr (Or.inr (Or.inr ⟨p, rfl⟩))
  | _ => cases h

theorem wants_active (h : t.wants = some (.active, c)) :
    t.pc = .ready ∨ ∃ p, t.pc = .closing p := by
  rcases waits_cases h with hpc | ⟨p, hpc⟩ | ⟨p, hpc⟩ | ⟨p, hpc⟩
  · exact Or.inl hpc
  · unfold wants at h
    rw [hpc] at h
    cases h
  · exact Or.inr ⟨p, hpc⟩
  · unfold wants at h
    rw [hpc] at h
    cases h

theorem wants_process {p : ProcId} (h : t.wants = some (.process p, c)) :
    t.pc = .ready ∨ t.pc = .found p := by
  rcases waits_cases h with hpc | ⟨q, hpc⟩ | ⟨q, hpc⟩ | ⟨q, hpc⟩
  · exact Or.inl hpc
  · unfold wants at h
    rw [hpc] at h
    obtain rfl : q = p := Mutex.process.inj (Prod.mk.inj (Option.some.inj h)).1
    exact Or.inr hpc
  · unfold wants at h
    rw [hpc] at h
    cases h
  · unfold wants at h
    rw [hpc] at h
    cases h

end Thread

/-- The order in which the locks are acquired: a process by `closed_process`, the table of
active processes, a process, the table of swapped processes. -/
def Pc.rank : Pc → ℕ
  | .closing _ => 1
  | .found _ => 2
  | .inserting _ => 3
  | _ => 0

namespace System

variable {n : ℕ} {s s' : System n} {b : Backend} {a : AppId}

/-- Without a clash, who is waited for and waits itself is further on. -/
theorem rank_lt (h : ¬ s.Clash) {i j : Fin n} (hwaits : Locks.Waits s.wants s.held i j)
    (hnext : ∃ k, Locks.Waits s.wants s.held j k) :
    (s.threads i).pc.rank < (s.threads j).pc.rank := by
  rcases hwaits with ⟨m, c, d, hwants, hheld, -⟩
  -- `j` waits, so that it stands before one of the four locks
  rcases hnext with ⟨_, _, _, _, hblocked, -⟩
  have hwants' : (s.threads i).wants = some (m, c) := hwants
  have hheld' : (m, d) ∈ (s.threads j).held := hheld
  unfold Thread.held at hheld'
  rcases Thread.waits_cases hblocked with hj | ⟨q, hj⟩ | ⟨q, hj⟩ | ⟨q, hj⟩
  · rw [hj] at hheld'
    cases hheld'
  · -- it holds the table of active processes
    rw [hj] at hheld' ⊢
    obtain rfl : m = .active := (Prod.mk.inj (List.mem_singleton.1 hheld')).1
    rcases Thread.wants_active hwants' with hi | ⟨p, hi⟩
    · rw [hi]
      simp [Pc.rank]
    · rw [hi]
      simp [Pc.rank]
  · -- it is `closed_process`, and holds the process
    rw [hj] at hheld' ⊢
    obtain rfl : m = .process q := (Prod.mk.inj (List.mem_singleton.1 hheld')).1
    rcases Thread.wants_process hwants' with hi | hi
    · rw [hi]
      simp [Pc.rank]
    · exact absurd ⟨i, j, q, hi, hj⟩ h
  · -- it is `swapped_process`, and holds the process
    rw [hj] at hheld' ⊢
    obtain rfl : m = .process q := (Prod.mk.inj (List.mem_singleton.1 hheld')).1
    rcases Thread.wants_process hwants' with hi | hi
    · rw [hi]
      simp [Pc.rank]
    · rw [hi]
      simp [Pc.rank]

/-- The operations of a clash wait for each other, and there is no other cycle. -/
theorem cycle_iff_clash : s.Cycle ↔ s.Clash := by
  constructor
  · intro hcycle
    by_contra hclash
    exact Locks.not_cycle_of_rank _ (fun i j => rank_lt hclash) hcycle
  · rintro ⟨i, j, p, hi, hj⟩
    have hij : Locks.Waits s.wants s.held i j := by
      refine ⟨.process p, (s.threads i).op.processMode, .exclusive, ?_, ?_, by simp⟩
      · unfold wants Thread.wants
        rw [hi]
      · unfold held Thread.held
        rw [hj]
        exact List.mem_singleton_self _
    have hji : Locks.Waits s.wants s.held j i := by
      refine ⟨.active, .exclusive, (s.threads i).op.mode, ?_, ?_, by simp⟩
      · unfold wants Thread.wants
        rw [hj]
      · unfold held Thread.held
        rw [hi]
        exact List.mem_singleton_self _
    exact Locks.cycle_of_pair hij hji

/-! ## What makes a clash -/

theorem within_ok {t t' : State} {pc pc' : Pc} {r : Except Failure State}
    (h : within t pc r = .ok (t', pc')) : pc' = pc := by
  unfold within at h
  cases hr : t.orKeep r with
  | error f =>
    rw [hr] at h
    cases h
  | ok u =>
    rw [hr] at h
    exact (Prod.mk.inj (Except.ok.inj h)).2.symm

/-- The table of active processes as an operation finds it. -/
theorem lookup_found {t : State} {name : Str} {p : ProcId} :
    lookup a t name = .found p ↔ (t.apps a).activeProcesses name = some p := by
  unfold lookup
  cases (t.apps a).activeProcesses name with
  | none => simp
  | some q => simp

/-- How an operation comes to the steps that hold a table or a process and go on. -/
inductive Leads (a : AppId) (t : State) (op : Op) (pc : Pc) : Pc → Prop where
  | found (p : ProcId) (name : Str) (hpc : pc = .ready) (hname : op.activeName = some name)
      (hactive : (t.apps a).activeProcesses name = some p) : Leads a t op pc (.found p)
  | closing (p : ProcId) (hpc : pc = .ready) (hop : op = .closedProcess p)
      (hstatus : (t.procs p).status ≠ .SWAPPED_OUT) : Leads a t op pc (.closing p)
  | inserted (p : ProcId) (hmode : op.processMode = .exclusive) : Leads a t op pc (.inserted p)
  | other (pc' : Pc) (hfound : ∀ p, pc' ≠ .found p) (hclosing : ∀ p, pc' ≠ .closing p)
      (hinserted : ∀ p, pc' ≠ .inserted p) : Leads a t op pc pc'

theorem leads_lookup {t : State} {op : Op} {name : Str} (hname : op.activeName = some name) :
    Leads a t op .ready (lookup a t name) := by
  unfold lookup
  cases hactive : (t.apps a).activeProcesses name with
  | none => exact .other _ (by simp) (by simp) (by simp)
  | some p => exact .found p name rfl hname hactive

theorem leads_of_next {t t' : State} {op : Op} {pc pc' : Pc}
    (h : next b a t op pc = .ok (t', pc')) : Leads a t op pc pc' := by
  have hpc : ∀ {u : State} {k : Pc}, (Except.ok (u, k) : Except Failure (State × Pc)) =
      .ok (t', pc') → pc' = k := by
    intro u k hok
    exact (Prod.mk.inj (Except.ok.inj hok)).2.symm
  revert h
  -- the branches of `next`: creations and table operations, lookups, the two that matter
  fun_cases next b a t op pc
  all_goals intro h
  case case1 =>
    obtain rfl := hpc h
    split_ifs
    · exact .other _ (by simp) (by simp) (by simp)
    · exact .other _ (by simp) (by simp) (by simp)
  case case2 =>
    obtain rfl := within_ok h
    exact .other _ (by simp) (by simp) (by simp)
  case case3 =>
    obtain rfl := within_ok h
    exact .other _ (by simp) (by simp) (by simp)
  case case17 =>
    obtain rfl := within_ok h
    exact .other _ (by simp) (by simp) (by simp)
  case case4 name =>
    obtain rfl := hpc h
    exact leads_lookup rfl
  case case6 name path =>
    obtain rfl := hpc h
    exact leads_lookup rfl
  case case9 name =>
    obtain rfl := hpc h
    exact leads_lookup rfl
  case case13 name p =>
    obtain rfl := hpc h
    exact .inserted p rfl
  case case15 p hstatus =>
    obtain rfl := hpc h
    exact .closing p rfl rfl hstatus
  all_goals
    obtain rfl := hpc h
    exact .other _ (by simp) (by simp) (by simp)

/-- An operation goes on with an active process once it has the table. -/
theorem next_found {t t' : State} {op : Op} {pc : Pc} {p : ProcId}
    (h : next b a t op pc = .ok (t', .found p)) :
    pc = .ready ∧ ∃ name, op.activeName = some name ∧
      (t.apps a).activeProcesses name = some p := by
  cases leads_of_next h with
  | found p name hpc hname hactive => exact ⟨hpc, name, hname, hactive⟩
  | other _ hfound => exact absurd rfl (hfound p)

/-- `closed_process` goes on with the table once it has the process. -/
theorem next_closing {t t' : State} {op : Op} {pc : Pc} {p : ProcId}
    (h : next b a t op pc = .ok (t', .closing p)) :
    pc = .ready ∧ op = .closedProcess p ∧ (t.procs p).status ≠ .SWAPPED_OUT := by
  cases leads_of_next h with
  | closing p hpc hop hstatus => exact ⟨hpc, hop, hstatus⟩
  | other _ _ hclosing => exact absurd rfl (hclosing p)

/-- What a step makes of the operation that takes it. -/
theorem step_ok {i : Fin n} (h : s.step b a i = .ok s') :
    s' = s ∨ s.Granted i ∧ ∃ t pc,
      next b a s.state (s.threads i).op (s.threads i).pc = .ok (t, pc) ∧
      s' = { state := t, threads := Function.update s.threads i { s.threads i with pc := pc } } := by
  unfold step at h
  split_ifs at h with hgranted
  · right
    refine ⟨hgranted, ?_⟩
    cases hnext : next b a s.state (s.threads i).op (s.threads i).pc with
    | error f =>
      rw [hnext] at h
      cases h
    | ok r =>
      rw [hnext] at h
      exact ⟨r.1, r.2, rfl, (Except.ok.inj h).symm⟩
  · exact Or.inl (Except.ok.inj h).symm

/-- Steps that keep the two apart make no clash. -/
theorem clash_step {i : Fin n} (hclash : ¬ s.Clash) (hapart : s.Apart a i)
    (h : s.step b a i = .ok s') : ¬ s'.Clash := by
  rcases step_ok h with rfl | ⟨hgranted, t, pc, hnext, rfl⟩
  · exact hclash
  rintro ⟨j, k, p, hj, hk⟩
  by_cases hji : j = i
  · -- it is the one that goes on with the process
    subst hji
    have hkj : k ≠ j := by
      rintro rfl
      rw [hj] at hk
      cases hk
    simp only [Function.update_self] at hj
    simp only [Function.update_of_ne hkj] at hk
    subst hj
    rcases next_found hnext with ⟨hready, name, hname, hactive⟩
    exact (hapart hgranted hready).1 name hname p hactive k hk
  · simp only [Function.update_of_ne hji] at hj
    by_cases hki : k = i
    · -- it is `closed_process`
      subst hki
      simp only [Function.update_self] at hk
      subst hk
      rcases next_closing hnext with ⟨hready, hop, hstatus⟩
      exact (hapart hgranted hready).2 p hop hstatus j hj
    · -- neither has taken the step
      simp only [Function.update_of_ne hki] at hk
      exact hclash ⟨j, k, p, hj, hk⟩

/-- Once it has the table, the operation goes on with the process it has found. -/
theorem next_active {t : State} {op : Op} {name : Str} (h : op.activeName = some name) :
    next b a t op .ready = .ok (t, lookup a t name) := by
  cases op with
  | getProcess name' =>
    cases h
    rfl
  | swapProcess name' path =>
    cases h
    rfl
  | swappedProcess name' =>
    cases h
    rfl
  | _ => cases h

/-- A step that does not keep the two apart makes a clash. -/
theorem clash_of_not_apart {i : Fin n} (h : ¬ s.Apart a i) :
    ∃ s', s.step b a i = .ok s' ∧ s'.Clash := by
  unfold Apart at h
  push Not at h
  rcases h with ⟨hgranted, hready, h⟩
  have hstep : ∀ t pc, next b a s.state (s.threads i).op .ready = .ok (t, pc) →
      s.step b a i = .ok
        { state := t, threads := Function.update s.threads i { s.threads i with pc := pc } } := by
    intro t pc hnext
    unfold step
    rw [if_pos hgranted, hready, hnext]
    rfl
  by_cases hfound : ∃ name, (s.threads i).op.activeName = some name ∧
      ∃ p, (s.state.apps a).activeProcesses name = some p ∧ ∃ j, (s.threads j).pc = .closing p
  · -- it finds a process that `closed_process` has locked
    rcases hfound with ⟨name, hname, p, hactive, j, hj⟩
    have hji : j ≠ i := by
      rintro rfl
      rw [hready] at hj
      cases hj
    refine ⟨_, hstep s.state (.found p) ?_, i, j, p, ?_, ?_⟩
    · rw [next_active hname, lookup_found.2 hactive]
    · simp only [Function.update_self]
    · simp only [Function.update_of_ne hji, hj]
  · -- it is `closed_process`, and locks what another operation has found
    push Not at hfound
    rcases h hfound with ⟨p, hop, hstatus, j, hj⟩
    have hji : j ≠ i := by
      rintro rfl
      rw [hready] at hj
      cases hj
    refine ⟨_, hstep (s.state.setStatus p .FAILURE) (.closing p) ?_, j, i, p, ?_, ?_⟩
    · rw [hop]
      simp only [next, if_neg hstatus]
    · simp only [Function.update_of_ne hji, hj]
    · simp only [Function.update_self]

/-! ## Runs -/

theorem new_not_clash (state : State) (ops : Fin n → Op) : ¬ (new state ops).Clash := by
  rintro ⟨i, j, p, hi, hj⟩
  cases hi

/-- **Cycles.** No operations of a run wait in a cycle exactly if its steps keep apart those
that lock a process under the table and `closed_process`, which locks the table under the
process. -/
theorem no_cycle_iff (b : Backend) (a : AppId) (state : State) (ops : Fin n → Op)
    (es : List (Fin n)) :
    (∀ es' s, es' <+: es → Lts.run (step b a) (new state ops) es' = .ok s → ¬ s.Cycle) ↔
      Lts.Meets (step b a) (Apart a) (new state ops) es := by
  have hkeeps : ∀ (s : System n) i s', ¬ s.Clash → s.Apart a i → s.step b a i = .ok s' →
      ¬ s'.Clash := fun s i s' => clash_step
  have hholds : ∀ s : System n, ¬ s.Clash → ¬ s.Cycle := by
    intro s hclash hcycle
    exact hclash (cycle_iff_clash.1 hcycle)
  have hbreaks : ∀ (s : System n) i, ¬ s.Clash → ¬ s.Apart a i →
      ∃ s', s.step b a i = .ok s' ∧ ¬ ¬ s'.Cycle := by
    intro s i _ hapart
    rcases clash_of_not_apart hapart with ⟨s', hs', hclash⟩
    exact ⟨s', hs', not_not.2 (cycle_iff_clash.2 hclash)⟩
  exact Lts.always_iff_meets hkeeps hholds hbreaks (new_not_clash state ops)

/-- A process is swapped while its connection closes: `swap_process` waits for the process,
which `closed_process` holds, and this one for the table, which `swap_process` holds. -/
theorem swap_and_closure_wait :
    ∃ state s,
      Lts.run (State.step ⟨1024, 1⟩) {}
        [.addProcess 0 (str ['p']) ⟨some 128, some 1⟩ false, .runTask, .connected,
          .processConnection 0 (str ['p'])] = .ok state ∧
      Lts.run (step ⟨1024, 1⟩ 0)
        (new state ![.swapProcess (str ['p']) (str ['s']), .closedProcess 0]) [0, 0, 1, 1] = .ok s ∧
      s.Cycle := by
  have hstate := Lts.run_test (State.step ⟨1024, 1⟩) {}
    [.addProcess 0 (str ['p']) ⟨some 128, some 1⟩ false, .runTask, .connected,
      .processConnection 0 (str ['p'])]
    (fun state => (Lts.run (step ⟨1024, 1⟩ 0)
      (new state ![.swapProcess (str ['p']) (str ['s']), .closedProcess 0])
      [0, 0, 1, 1]).toOption.any fun s =>
        decide ((s.threads 0).pc = .found 0 ∧ (s.threads 1).pc = .closing 0))
    (by decide +kernel)
  rcases hstate with ⟨state, hstate, htest⟩
  cases hrun : Lts.run (step ⟨1024, 1⟩ 0)
      (new state ![.swapProcess (str ['p']) (str ['s']), .closedProcess 0]) [0, 0, 1, 1] with
  | error f => simp [hrun, Except.toOption] at htest
  | ok s =>
    simp only [hrun, Except.toOption, Option.any_some, decide_eq_true_eq] at htest
    exact ⟨state, s, hstate, hrun, cycle_iff_clash.2 ⟨0, 1, 0, htest⟩⟩

/-! ## Exclusion -/

theorem next_inserted {t t' : State} {op : Op} {pc : Pc} {p : ProcId}
    (h : next b a t op pc = .ok (t', .inserted p)) : op.processMode = .exclusive := by
  cases leads_of_next h with
  | inserted p hmode => exact hmode
  | other _ _ _ hinserted => exact absurd rfl (hinserted p)

/-- A step holds what it held before, and the lock that it wanted. -/
theorem held_next {t t' : State} {op : Op} {pc pc' : Pc}
    (h : next b a t op pc = .ok (t', pc'))
    (hinserted : ∀ p, pc = .inserted p → op.processMode = .exclusive) :
    ∀ l ∈ (⟨op, pc'⟩ : Thread).held,
      l ∈ (⟨op, pc⟩ : Thread).held ∨ (⟨op, pc⟩ : Thread).wants = some l := by
  have hlookup : ∀ name, op.activeName = some name →
      (Except.ok (t, lookup a t name) : Except Failure (State × Pc)) = .ok (t', pc') →
      ∀ l ∈ (⟨op, pc'⟩ : Thread).held, (⟨op, .ready⟩ : Thread).wants = some l := by
    intro name hname hok l hl
    obtain rfl := (Prod.mk.inj (Except.ok.inj hok)).2
    have hl' : l = (.active, op.mode) := by
      unfold lookup at hl
      split at hl <;> simpa [Thread.held] using hl
    rw [hl']
    cases op <;> first | rfl | cases hname
  -- a lookup takes the lock of the table, and `inserted` has the process exclusively
  revert h
  fun_cases next b a t op pc
  all_goals intro h
  case case1 =>
    obtain rfl := (Prod.mk.inj (Except.ok.inj h)).2
    split_ifs <;> simp [Thread.held]
  case case2 =>
    obtain rfl := within_ok h
    simp [Thread.held, Thread.wants]
  case case3 =>
    obtain rfl := within_ok h
    simp [Thread.held, Thread.wants]
  case case17 =>
    obtain rfl := within_ok h
    simp [Thread.held, Thread.wants]
  case case4 name => exact fun l hl => Or.inr (hlookup name rfl h l hl)
  case case6 name path => exact fun l hl => Or.inr (hlookup name rfl h l hl)
  case case9 name => exact fun l hl => Or.inr (hlookup name rfl h l hl)
  case case20 p =>
    obtain rfl := (Prod.mk.inj (Except.ok.inj h)).2
    simp [Thread.held, hinserted p rfl]
  all_goals
    obtain rfl := (Prod.mk.inj (Except.ok.inj h)).2
    simp [Thread.held, Thread.wants, Op.mode, Op.processMode]

/-- No two operations hold a lock in modes that exclude each other. -/
structure Guarded (s : System n) : Prop where
  locks : Locks.Exclusive s.held
  inserted : ∀ i p, (s.threads i).pc = .inserted p → (s.threads i).op.processMode = .exclusive

theorem guarded_step {i : Fin n} (hs : s.Guarded) (h : s.step b a i = .ok s') : s'.Guarded := by
  rcases step_ok h with rfl | ⟨hgranted, t, pc, hnext, rfl⟩
  · exact hs
  constructor
  · have hheld : held ⟨t, Function.update s.threads i { s.threads i with pc := pc }⟩ =
        Function.update s.held i ({ s.threads i with pc := pc } : Thread).held := by
      funext j
      unfold held
      rcases eq_or_ne j i with rfl | hji
      · simp only [Function.update_self]
      · simp only [Function.update_of_ne hji]
    rw [hheld]
    -- what the thread holds now it held before, or was granted against all the others
    apply Locks.exclusive_acquire hs.locks
    intro m c hm
    rcases held_next hnext (hs.inserted i) (m, c) hm with hold | hwants
    · exact Or.inl hold
    · right
      intro j hji d hd
      exact hgranted (m, c) hwants j hji (m, d) hd rfl
  · intro j p hj
    rcases eq_or_ne j i with rfl | hji
    · simp only [Function.update_self] at hj ⊢
      subst hj
      exact next_inserted hnext
    · simp only [Function.update_of_ne hji] at hj ⊢
      exact hs.inserted j p hj

theorem guarded_new (state : State) (ops : Fin n → Op) : (new state ops).Guarded := by
  constructor
  · intro i j hij m c d hi
    cases hi
  · intro i p hi
    cases hi

theorem locks_exclusive {state : State} {ops : Fin n → Op} {es : List (Fin n)}
    (h : Lts.run (step b a) (new state ops) es = .ok s) : Locks.Exclusive s.held := by
  have hkeeps : ∀ (s : System n) i s', s.Guarded → s.step b a i = .ok s' → s'.Guarded :=
    fun s i s' => guarded_step
  exact (Lts.run_always hkeeps (guarded_new state ops) h).locks

end System

end Praas.ControlPlane.Locking
