import Mathlib.Data.List.TakeWhile
import Praas.Common.WireFormat
import Praas.ControlPlane.Steps

/-! # The location of a swap

`Application::swap_process` marks the process, asks the deployment where to swap it to,
keeps the location and only then builds the request. The deployment may raise, and the
request has a field of 16 bytes for a path of any length; nothing is undone.
-/

namespace Praas.ControlPlane

open Message (MessageData)

/-! ## The request -/

section Requests

variable {path : Str}

/-- A path that fits is taken, and read back from the request. -/
theorem setPath_ok (h : path.length ≤ Message.ID_LENGTH) :
    ∃ msg, Message.SwapRequest.setPath (.new .swapRequest) (.ofStr path) = .ok msg ∧
      ((0 : Byte) ∉ path → Message.SwapRequest.path msg.buf = path) := by
  have hset : ∃ msg, Message.SwapRequest.setPath (.new .swapRequest) (.ofStr path) = .ok msg ∧
      msg.buf = (Message.format .swapRequest).ranges.store (MessageData.new .swapRequest).buf .path
        (strncpy (StringView.ofStr path).data Message.ID_LENGTH) :=
    Message.setStr_ok h _ (by decide)
  rcases hset with ⟨msg, hmsg, hbuf⟩
  refine ⟨msg, hmsg, fun hfree => ?_⟩
  -- the round trip of the header, for the one field that is set
  have haccepts : (Message.Field.path.kind).Accepts (StringView.ofStr path) :=
    Header.Kind.accepts_ofStr h hfree
  have hkeeps := Header.Format.Keeps.set (Message.keeps_new .swapRequest)
    (c := ⟨.path, .ofStr path⟩) haccepts
  have hread := (hkeeps.decode_load .path).trans
    (Header.Format.assign_self (F := Message.format .swapRequest) _ ⟨.path, .ofStr path⟩)
  have hget : Message.Field.path.get msg.buf = (StringView.ofStr path).chars := by
    rw [Message.Field.get_eq, hbuf]
    exact hread
  exact hget.trans (Header.Kind.chars_ofStr path)

/-- What `Process::swap` does with a location. -/
theorem swap_cases (proc : Process) (hpath : proc.swapPath = some path) :
    (proc.connection = none ∧ proc.swap = (proc, none)) ∨
    (proc.connection.isSome ∧ path.length ≤ Message.ID_LENGTH ∧
      ∃ msg, ((0 : Byte) ∉ path → Message.SwapRequest.path msg = path) ∧
        proc.swap = ({ proc with sent := proc.sent ++ [.swapRequest msg] }, none)) ∨
    (proc.connection.isSome ∧ Message.ID_LENGTH < path.length ∧
      ∃ f, proc.swap = (proc, some (.fault f))) := by
  unfold Process.swap
  cases hconnection : proc.connection with
  | none => exact .inl ⟨rfl, rfl⟩
  | some c =>
    rw [hpath]
    dsimp only
    rcases Nat.lt_or_ge Message.ID_LENGTH path.length with hlong | hfits
    · have hraises : Message.SwapRequest.setPath (.new .swapRequest) (.ofStr path) =
          .error (.invalidArgument "Swap location ID too long" path.length Message.ID_LENGTH) :=
        if_pos hlong
      rw [hraises]
      exact .inr (.inr ⟨rfl, hlong, _, rfl⟩)
    · rcases setPath_ok hfits with ⟨msg, hmsg, hread⟩
      rw [hmsg]
      exact .inr (.inl ⟨rfl, hfits, msg.buf, hread, rfl⟩)

theorem swap_raises_iff (proc : Process) (hpath : proc.swapPath = some path) :
    proc.swap.2 ≠ none ↔ proc.connection.isSome ∧ Message.ID_LENGTH < path.length := by
  rcases swap_cases proc hpath with ⟨hnone, hswap⟩ | ⟨-, hfits, msg, -, hswap⟩ |
    ⟨hconnected, hlong, f, hswap⟩
  · simp [hswap, hnone]
  · simp [hswap, hfits]
  · simp [hswap, hconnected, hlong]

end Requests

/-! ## Locations -/

/-- `state::SwapLocation`: the root path is viewed as a C string. -/
structure SwapLocation where
  rootPath : Str
  free : (0 : Byte) ∉ rootPath

/-- `state::DiskSwapLocation`. -/
def diskSwapLocation (fsPath : Str) : SwapLocation where
  rootPath := fsPath.takeWhile (· ≠ 0)
  free h := by simpa using List.mem_takeWhile_imp h

/-- `deployment::Deployment`. -/
structure Deployment where
  getLocation : Str → Except Failure SwapLocation

namespace Deployment

/-- `deployment::Local`. -/
def localDisk (path : Str) : Deployment where
  getLocation _ := .ok (diskSwapLocation path)

def swapProcess (d : Deployment) (s : State) (a : AppId) (name : Str) : State × Option Failure :=
  if name.length = 0 then (s, some (.invalidConfiguration "Application name cannot be empty"))
  else
    match (s.apps a).activeProcesses name with
    | none => (s, some (.objectDoesNotExist name))
    | some p =>
      if (s.procs p).status ≠ .ALLOCATED then
        (s, some (.invalidProcessState "Cannot swap a non-allocated process"))
      else
        -- no one else will now modify the process
        let proc := { s.procs p with status := .SWAPPING_OUT }
        match d.getLocation name with
        | .error f => (s.setProcess p proc, some f)
        | .ok loc =>
          let proc := { proc with swapPath := some loc.rootPath }
          (s.setProcess p proc.swap.1, proc.swap.2)

/-! ## What is left when it raises -/

section Swaps

variable (d : Deployment) (s : State) (a : AppId) (name : Str)

/-- If the call raises, every process has its status and its location, and the tables are as
before. -/
def Atomic : Prop :=
  (d.swapProcess s a name).2 ≠ none →
    (∀ p, ((d.swapProcess s a name).1.procs p).status = (s.procs p).status ∧
      ((d.swapProcess s a name).1.procs p).swapPath = (s.procs p).swapPath) ∧
    (d.swapProcess s a name).1.apps = s.apps

/-- If the call returns, the process is swapping out, and if it is connected, one request with
the whole path was sent to it and nothing to any other process. -/
def Requests : Prop :=
  (d.swapProcess s a name).2 = none →
    ∃ p loc, (s.apps a).activeProcesses name = some p ∧ d.getLocation name = .ok loc ∧
      ((d.swapProcess s a name).1.procs p).status = .SWAPPING_OUT ∧
      ((s.procs p).connection.isSome → ∃ msg, Message.SwapRequest.path msg = loc.rootPath ∧
        ((d.swapProcess s a name).1.procs p).sent = (s.procs p).sent ++ [.swapRequest msg]) ∧
      ∀ q, q ≠ p → (d.swapProcess s a name).1.procs q = s.procs q

/-- If the process may be swapped, there is a location for it, whose path fits if it has to be
sent. -/
def LocationFits : Prop :=
  ∀ p, name ≠ [] → (s.apps a).activeProcesses name = some p → (s.procs p).status = .ALLOCATED →
    ∃ loc, d.getLocation name = .ok loc ∧
      ((s.procs p).connection.isSome → loc.rootPath.length ≤ Message.ID_LENGTH)

variable {d s a name}

/-- A deployment that gives the location leaves the rest to the process. -/
theorem swapProcess_of_location {loc : SwapLocation} (h : d.getLocation name = .ok loc) :
    d.swapProcess s a name = s.swapProcess a name loc.rootPath := by
  unfold swapProcess State.swapProcess
  cases (s.apps a).activeProcesses name with
  | none => rfl
  | some p =>
    rw [h]

/-- The call is refused before anything changes, or the process may be swapped. -/
theorem swapProcess_cases (d : Deployment) (s : State) (a : AppId) (name : Str) :
    ((∃ f, d.swapProcess s a name = (s, some f)) ∧
      ¬ ∃ p, name ≠ [] ∧ (s.apps a).activeProcesses name = some p ∧
        (s.procs p).status = .ALLOCATED) ∨
    ∃ p, name ≠ [] ∧ (s.apps a).activeProcesses name = some p ∧ (s.procs p).status = .ALLOCATED ∧
      d.swapProcess s a name = match d.getLocation name with
        | .error f => (s.setProcess p { s.procs p with status := .SWAPPING_OUT }, some f)
        | .ok loc =>
          let proc := { s.procs p with status := .SWAPPING_OUT, swapPath := some loc.rootPath }
          (s.setProcess p proc.swap.1, proc.swap.2) := by
  unfold swapProcess
  by_cases hempty : name.length = 0
  · rw [if_pos hempty]
    refine .inl ⟨⟨_, rfl⟩, ?_⟩
    rintro ⟨p, hname, -⟩
    exact hname (List.length_eq_zero_iff.1 hempty)
  · have hname : name ≠ [] := fun h => hempty (List.length_eq_zero_iff.2 h)
    rw [if_neg hempty]
    cases hactive : (s.apps a).activeProcesses name with
    | none =>
      refine .inl ⟨⟨_, rfl⟩, ?_⟩
      rintro ⟨p, -, hp, -⟩
      cases hp
    | some p =>
      dsimp only
      by_cases hstatus : (s.procs p).status = .ALLOCATED
      · rw [if_neg (not_not.2 hstatus)]
        exact .inr ⟨p, hname, rfl, hstatus, rfl⟩
      · rw [if_pos hstatus]
        refine .inl ⟨⟨_, rfl⟩, ?_⟩
        rintro ⟨q, -, hq, hallocated⟩
        cases hq
        exact hstatus hallocated

/-- From then on the status is no longer what it was. -/
theorem status_swapping {p : ProcId} {proc : Process} (hproc : proc.status = .SWAPPING_OUT)
    (hstatus : (s.procs p).status = .ALLOCATED) :
    ((s.setProcess p proc).procs p).status ≠ (s.procs p).status := by
  rw [State.setProcess_procs, Function.update_self, hproc, hstatus]
  decide

theorem requests : Requests d s a name := by
  intro hreturns
  rcases swapProcess_cases d s a name with
    ⟨⟨f, hf⟩, -⟩ | ⟨p, -, hactive, -, hswap⟩
  · rw [hf] at hreturns
    cases hreturns
  · cases hlocation : d.getLocation name with
    | error f =>
      rw [hswap, hlocation] at hreturns
      cases hreturns
    | ok loc =>
      rw [hlocation] at hswap
      dsimp only at hswap
      rw [hswap] at hreturns ⊢
      refine ⟨p, loc, hactive, rfl, ?_, ?_, fun q hq => ?_⟩
      · rw [State.setProcess_procs, Function.update_self]
        exact Process.status_of_place (Process.place_swap _)
      · intro hconnected
        rw [State.setProcess_procs, Function.update_self]
        rcases swap_cases { s.procs p with
            status := .SWAPPING_OUT, swapPath := some loc.rootPath } rfl with
          ⟨hnone, -⟩ | ⟨-, -, msg, hread, hsent⟩ | ⟨-, -, f, hf⟩
        · rw [hnone] at hconnected
          cases hconnected
        · exact ⟨msg, hread loc.free, by rw [hsent]⟩
        · rw [hf] at hreturns
          cases hreturns
      · rw [State.setProcess_procs, Function.update_of_ne hq]

theorem atomic_iff : Atomic d s a name ↔ LocationFits d s a name := by
  unfold Atomic LocationFits
  rcases swapProcess_cases d s a name with
    ⟨⟨f, hf⟩, hrefused⟩ | ⟨p, hname, hactive, hstatus, hswap⟩
  · rw [hf]
    refine ⟨fun _ p hname hactive hstatus => ?_, fun _ _ => ⟨fun _ => ⟨rfl, rfl⟩, rfl⟩⟩
    exact absurd ⟨p, hname, hactive, hstatus⟩ hrefused
  · -- an exception from here on leaves the process swapping out
    cases hlocation : d.getLocation name with
    | error f =>
      rw [hlocation] at hswap
      dsimp only at hswap
      rw [hswap]
      constructor
      · intro hatomic
        have hsame := ((hatomic (by simp)).1 p).1
        exact absurd hsame (status_swapping rfl hstatus)
      · intro hfits
        rcases hfits p hname hactive hstatus with ⟨loc, hloc, -⟩
        cases hloc
    | ok loc =>
      rw [hlocation] at hswap
      dsimp only at hswap
      rw [hswap]
      have hraises := swap_raises_iff
        { s.procs p with status := .SWAPPING_OUT, swapPath := some loc.rootPath } rfl
      constructor
      · intro hatomic q _ hq _
        obtain rfl : q = p := Option.some.inj (hq.symm.trans hactive)
        refine ⟨loc, rfl, fun hconnected => ?_⟩
        by_contra hlong
        have hsame := ((hatomic (hraises.2 ⟨hconnected, not_le.1 hlong⟩)).1 q).1
        exact absurd hsame (status_swapping (Process.status_of_place (Process.place_swap _)) hstatus)
      · intro hfits hraised
        rcases hfits p hname hactive hstatus with ⟨loc', hloc, hshort⟩
        obtain rfl := Except.ok.inj hloc
        rcases hraises.1 hraised with ⟨hconnected, hlong⟩
        exact absurd (hshort hconnected) (not_le.2 hlong)

end Swaps

/-- A swap is atomic, and sends one request with the whole path, exactly if the location can be
fetched and its path fits the request, for a process that may be swapped. -/
theorem swap_atomic (d : Deployment) (s : State) (a : AppId) (name : Str) :
    Atomic d s a name ∧ Requests d s a name ↔ LocationFits d s a name := by
  rw [atomic_iff]
  exact ⟨And.left, fun h => ⟨h, requests⟩⟩

/-- A process that is connected. -/
def sampleState : State where
  procs _ := { name := str ['p'], application := 0, status := .ALLOCATED, connection := some 0 }
  nextProc := 1
  apps _ := { activeProcesses := fun name => if name = str ['p'] then some 0 else none }

/-- With a root path of 17 characters the process is left swapping out, without a request. -/
theorem swap_atomic_long :
    ¬ ∀ (d : Deployment) (s : State) (a : AppId) (name : Str),
      Atomic d s a name ∧ Requests d s a name := by
  intro h
  have hfits := atomic_iff.1 (h (localDisk (List.replicate 17 97)) sampleState 0 (str ['p'])).1
  rcases hfits 0 (by decide) rfl rfl with ⟨loc, hloc, hshort⟩
  obtain rfl := Except.ok.inj hloc
  revert hshort
  decide

end Deployment

end Praas.ControlPlane
