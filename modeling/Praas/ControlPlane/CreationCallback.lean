import Praas.ControlPlane.Answers
import Praas.ControlPlane.Submission

/-! # How often the creation callback is called

The backend reports a process and the process registers, in either order, and both go on to
`ProcessInstance::connect`. What they pass to it calls the callback, and resets it only then.
A process that waits for its allocation is lost where the report finds it gone, or where its
registration raises; one that does not wait is told twice where it registers while the first
`connect` is under way.
* `called_once_iff` — for every order of the events, when the callback is called at most once,
  and exactly once when nothing is under way any more.
-/

namespace Praas.ControlPlane

/-- What `closed_process` makes of the process. -/
def Process.closed (proc : Process) : Process :=
  if proc.status ≠ .SWAPPED_OUT then { proc with status := .FAILURE } else proc.closeConnection

theorem procs_closedProcess_self (s : State) (p : ProcId) :
    (s.closedProcess p).procs p = (s.procs p).closed := by
  unfold Process.closed
  rcases closedProcess_cases s p with ⟨hout, hclosed⟩ | ⟨hout, q, -, hclosed⟩ | ⟨hout, -, hclosed⟩
  · rw [hclosed, if_neg (not_not.2 hout), State.setProcess_procs, Function.update_self]
  · rw [hclosed, if_pos hout]
    exact Function.update_self ..
  · rw [hclosed, if_pos hout]
    exact Function.update_self ..

/-- A process that was created for a request. -/
structure Creation where
  proc : Process
  /-- The backend has answered, with an instance or with an error. -/
  reported : Bool := false
  /-- The calls of `_creation_callback` that found it reset. -/
  emptyCalls : ℕ := 0

namespace Creation

inductive Event where
  /-- `set_handle` and `created_callback`. -/
  | allocated
  | allocationFailed (error : Str)
  | connect (c : ConnId)
  | closed
  /-- `ProcessInstance::connect` completes. -/
  | instanceConnected (error : Option Str)
  | addInvocation (i : Invocation)
  | swap (path : Str)
  | swapped

/-- The backend answers once, and only a process that has registered is closed. What an
operation raises is left to the caller; what it changed before stays. -/
def next (s : Creation) : Event → Creation
  | .allocated =>
    if s.reported then s
    else { s with proc := s.proc.setHandle.createdCallback none, reported := true }
  | .allocationFailed error =>
    if s.reported then s
    else { s with proc := s.proc.createdCallback (some error), reported := true }
  | .connect c => { s with proc := (s.proc.connect c).1 }
  | .closed =>
    if s.proc.status = .ALLOCATING then s else { s with proc := s.proc.closed }
  | .instanceConnected error =>
    if s.proc.connecting = 0 then s
    else
      { s with
        proc := ({ s.proc with connecting := s.proc.connecting - 1 }.instanceConnected error).1
        emptyCalls := s.emptyCalls + if s.proc.creationCallback.isNone then 1 else 0 }
  | .addInvocation i => { s with proc := (s.proc.addInvocation i).1 }
  | .swap path =>
    if s.proc.status ≠ .ALLOCATED then s
    else
      { s with
        proc := ({ s.proc with status := .SWAPPING_OUT, swapPath := some path } : Process).swap.1 }
  | .swapped =>
    if s.proc.status ≠ .SWAPPING_OUT then s
    else { s with proc := { s.proc with status := .SWAPPED_OUT } }

def step (s : Creation) (e : Event) : Except Failure Creation := .ok (s.next e)

/-! ## The property -/

/-- How often `_creation_callback` has been called. -/
def calls (s : Creation) : ℕ := s.proc.created.length + s.emptyCalls

/-- The backend has answered, the process has registered unless there is no instance, and
every `ProcessInstance::connect` has completed. -/
structure Settled (s : Creation) : Prop where
  reported : s.reported = true
  registered : s.proc.handle = true → s.proc.status ≠ .ALLOCATING
  completed : s.proc.connecting = 0

instance (s : Creation) : Decidable s.Settled :=
  decidable_of_iff (s.reported = true ∧ (s.proc.handle = true → s.proc.status ≠ .ALLOCATING) ∧
    s.proc.connecting = 0)
    ⟨fun h => ⟨h.1, h.2.1, h.2.2⟩, fun h => ⟨h.reported, h.registered, h.completed⟩⟩

def CalledOnce (s : Creation) : Prop := s.calls ≤ 1 ∧ (s.Settled → s.calls = 1)

instance (s : Creation) : Decidable s.CalledOnce := inferInstanceAs (Decidable (_ ∧ _))

/-- The callback has been set, and the backend has not answered. -/
structure Requested (proc : Process) : Prop where
  callback : proc.creationCallback.isSome
  created : proc.created = []
  handle : proc.handle = false
  connecting : proc.connecting = 0

/-- If the callback waits for the allocation, the instance is reported of a process that is
being allocated or is allocated, and registering after the report does not raise. If it does
not wait, the process does not register between the report and the call, unless that raises. -/
def Orderly (s : Creation) : Event → Prop
  | .allocated =>
    s.reported = false → s.proc.waitForAllocation = true →
      s.proc.status = .ALLOCATING ∨ s.proc.status = .ALLOCATED
  | .connect _ =>
    s.proc.status = .ALLOCATING → s.proc.handle = true → s.proc.creationCallback.isSome →
      (s.proc.waitForAllocation = true ↔ ∀ i ∈ pending s.proc.invocations, i.Encodable)
  | _ => True

instance (s : Creation) (e : Event) : Decidable (s.Orderly e) := by
  cases e <;> unfold Orderly <;> infer_instance

/-! ## What the operations do to the callback -/

section Operations

variable {proc : Process}

theorem connect_registered (hstatus : proc.status ≠ .ALLOCATING) (c : ConnId) :
    (proc.connect c).1 = proc := by
  unfold Process.connect
  rw [if_pos hstatus]

theorem addInvocation_raises {i : Invocation} (h : (proc.addInvocation i).2 ≠ none) :
    proc.status = .ALLOCATED := by
  by_contra hstatus
  unfold Process.addInvocation at h
  dsimp only at h
  rw [if_neg hstatus] at h
  exact h rfl

/-- The callback is called, and stays set only if it raises, which takes a process that is
allocated. -/
theorem instanceConnected_calls (hcallback : proc.creationCallback.isSome) (error : Option Str) :
    (proc.instanceConnected error).1.created.length = proc.created.length + 1 ∧
    (proc.instanceConnected error).1.connecting = proc.connecting ∧
    ((proc.instanceConnected error).1.creationCallback.isSome →
      (proc.instanceConnected error).1.status = .ALLOCATED) := by
  have hplace := Process.status_of_place (Process.place_instanceConnected proc error)
  rw [hplace]
  unfold Process.instanceConnected
  cases hset : proc.creationCallback with
  | none => simp [hset] at hcallback
  | some callback =>
    cases error with
    | some msg => simp
    | none =>
      cases callback with
      | response => simp
      | invoke i =>
        dsimp only
        have hsame := sameCreation_addInvocation proc i
        split
        case h_1 p' hadd =>
          rw [hadd] at hsame
          have hcreated : p'.created = proc.created := hsame.created
          have hconnecting : p'.connecting = proc.connecting := hsame.connecting
          simp [hcreated, hconnecting]
        case h_2 p' f hadd =>
          rw [hadd] at hsame
          have hcreated : p'.created = proc.created := hsame.created
          have hconnecting : p'.connecting = proc.connecting := hsame.connecting
          have hraised : (proc.addInvocation i).2 ≠ none := by simp [hadd]
          have hallocated := addInvocation_raises hraised
          simp [hcreated, hconnecting, hallocated]

end Operations

/-! ## Where the callback is -/

/-- The callback is set, and has not been called. -/
structure Uncalled (s : Creation) : Prop where
  callback : s.proc.creationCallback.isSome
  created : s.proc.created = []
  emptyCalls : s.emptyCalls = 0

/-- The callback waits for the backend, for the process, or for the instance, or it has been
called. -/
inductive Stage (s : Creation) : Prop where
  | waiting (huncalled : s.Uncalled) (hreported : s.reported = false)
      (hhandle : s.proc.handle = false) (hconnecting : s.proc.connecting = 0)
  | held (huncalled : s.Uncalled) (hreported : s.reported = true)
      (hhandle : s.proc.handle = true) (hconnecting : s.proc.connecting = 0)
      (hwait : s.proc.waitForAllocation = true) (hstatus : s.proc.status = .ALLOCATING)
  | connecting (huncalled : s.Uncalled) (hreported : s.reported = true)
      (hhandle : s.proc.handle = true) (hconnecting : s.proc.connecting = 1)
      (hwait : s.proc.waitForAllocation = true → s.proc.status ≠ .ALLOCATING)
  | called (hcreated : s.proc.created.length = 1) (hempty : s.emptyCalls = 0)
      (hreported : s.reported = true) (hconnecting : s.proc.connecting = 0)
      (hcallback : s.proc.creationCallback.isSome → s.proc.status ≠ .ALLOCATING)

section Stages

variable {s : Creation} {proc x : Process}

theorem stage_requested (h : Requested proc) : Stage { proc } :=
  .waiting ⟨h.callback, h.created, rfl⟩ rfl h.handle h.connecting

theorem Stage.calledOnce (h : s.Stage) : s.CalledOnce := by
  unfold CalledOnce calls
  cases h with
  | waiting huncalled hreported hhandle hconnecting =>
    rw [huncalled.created, huncalled.emptyCalls]
    refine ⟨Nat.zero_le 1, fun hsettled => ?_⟩
    cases hreported.symm.trans hsettled.reported
  | held huncalled hreported hhandle hconnecting hwait hstatus =>
    rw [huncalled.created, huncalled.emptyCalls]
    exact ⟨Nat.zero_le 1, fun hsettled => absurd hstatus (hsettled.registered hhandle)⟩
  | connecting huncalled hreported hhandle hconnecting hwait =>
    rw [huncalled.created, huncalled.emptyCalls]
    refine ⟨Nat.zero_le 1, fun hsettled => ?_⟩
    cases hconnecting.symm.trans hsettled.completed
  | called hcreated hempty hreported hconnecting hcallback =>
    rw [hcreated, hempty]
    exact ⟨le_rfl, fun _ => rfl⟩

theorem Uncalled.mono (h : s.Uncalled) (hsame : SameCreation s.proc x) :
    Uncalled { s with proc := x } where
  callback := by
    rw [hsame.callback]
    exact h.callback
  created := hsame.created.trans h.created
  emptyCalls := h.emptyCalls

theorem Stage.mono (h : s.Stage) (hsame : SameCreation s.proc x)
    (hstatus : x.status = s.proc.status ∨ s.proc.status ≠ .ALLOCATING ∧ x.status ≠ .ALLOCATING) :
    Stage { s with proc := x } := by
  have hleft : s.proc.status ≠ .ALLOCATING → x.status ≠ .ALLOCATING := by
    intro hne
    rcases hstatus with heq | hboth
    · rwa [heq]
    · exact hboth.2
  cases h with
  | waiting huncalled hreported hhandle hconnecting =>
    exact .waiting (huncalled.mono hsame) hreported (hsame.handle.trans hhandle)
      (hsame.connecting.trans hconnecting)
  | held huncalled hreported hhandle hconnecting hwait hold =>
    refine .held (huncalled.mono hsame) hreported (hsame.handle.trans hhandle)
      (hsame.connecting.trans hconnecting) (hsame.wait.trans hwait) ?_
    rcases hstatus with heq | hboth
    · exact heq.trans hold
    · exact absurd hold hboth.1
  | connecting huncalled hreported hhandle hconnecting hwait =>
    refine .connecting (huncalled.mono hsame) hreported (hsame.handle.trans hhandle)
      (hsame.connecting.trans hconnecting) ?_
    intro hset
    exact hleft (hwait (hsame.wait.symm.trans hset))
  | called hcreated hempty hreported hconnecting hcallback =>
    refine .called ?_ hempty hreported (hsame.connecting.trans hconnecting) ?_
    · show x.created.length = 1
      rw [hsame.created]
      exact hcreated
    · intro hset
      apply hleft
      apply hcallback
      rw [← hsame.callback]
      exact hset

/-- A report of success goes on to the instance, or waits for the process. -/
theorem Stage.allocated (h : s.Stage) (hreported : s.reported = false)
    (hopen : s.proc.waitForAllocation = true →
      s.proc.status = .ALLOCATING ∨ s.proc.status = .ALLOCATED) :
    Stage { s with proc := s.proc.setHandle.createdCallback none, reported := true } := by
  cases h with
  | waiting huncalled _ hhandle hconnecting =>
    by_cases hheld : s.proc.waitForAllocation = true ∧ s.proc.status ≠ .ALLOCATED
    · have hkeeps : s.proc.setHandle.createdCallback none = s.proc.setHandle :=
        Process.createdCallback_keeps (.inr (.inr hheld))
      rw [hkeeps]
      exact .held ⟨huncalled.callback, huncalled.created, huncalled.emptyCalls⟩ rfl rfl hconnecting
        hheld.1 ((hopen hheld.1).resolve_right hheld.2)
    · have hwait : s.proc.waitForAllocation = true → s.proc.status = .ALLOCATED := by
        intro hset
        by_contra hnot
        exact hheld ⟨hset, hnot⟩
      have hstarts : s.proc.setHandle.createdCallback none =
          { s.proc.setHandle with connecting := s.proc.connecting + 1 } :=
        Process.createdCallback_starts huncalled.callback rfl hwait
      rw [hstarts]
      refine .connecting ⟨huncalled.callback, huncalled.created, huncalled.emptyCalls⟩ rfl rfl
        (congrArg (· + 1) hconnecting) ?_
      intro hset
      have hallocated : s.proc.setHandle.status = .ALLOCATED := hwait hset
      simp [hallocated]
  | held _ htrue => cases hreported.symm.trans htrue
  | connecting _ htrue => cases hreported.symm.trans htrue
  | called _ _ htrue => cases hreported.symm.trans htrue

/-- A failure is reported at once. -/
theorem Stage.allocationFailed (h : s.Stage) (hreported : s.reported = false) (error : Str) :
    Stage { s with proc := s.proc.createdCallback (some error), reported := true } := by
  cases h with
  | waiting huncalled _ hhandle hconnecting =>
    rw [Process.createdCallback_failed huncalled.callback]
    refine .called ?_ huncalled.emptyCalls rfl hconnecting ?_
    · simp [huncalled.created]
    · intro hset
      cases hset
  | held _ htrue => cases hreported.symm.trans htrue
  | connecting _ htrue => cases hreported.symm.trans htrue
  | called _ _ htrue => cases hreported.symm.trans htrue

/-- A process that registers has been reported and waits for this, or is reported later, or the
callback has been called. -/
theorem Stage.connect (h : s.Stage) {c : ConnId} (horderly : s.Orderly (.connect c)) :
    Stage { s with proc := (s.proc.connect c).1 } := by
  by_cases hstatus : s.proc.status = .ALLOCATING
  · rcases connect_cases hstatus c with ⟨x, hsame, hallocated, hsends, hraises⟩
    rw [ne_eq, connect_returns_iff hstatus] at hraises
    rw [connect_returns_iff hstatus] at hsends
    have hx : x.status ≠ .ALLOCATING := by simp [hallocated]
    cases h with
    | waiting huncalled hreported hhandle hconnecting =>
      -- what comes later is the report
      have hconnect : (s.proc.connect c).1 = x := by
        by_cases hall : ∀ i ∈ pending s.proc.invocations, i.Encodable
        · rw [hsends hall]
          exact Process.createdCallback_keeps (.inr (.inl (hsame.handle.trans hhandle)))
        · exact hraises hall
      rw [hconnect]
      exact .waiting (huncalled.mono hsame) hreported (hsame.handle.trans hhandle)
        (hsame.connecting.trans hconnecting)
    | held huncalled hreported hhandle hconnecting hwait _ =>
      have hall := (horderly hstatus hhandle huncalled.callback).1 hwait
      have hcallback : x.creationCallback.isSome := by
        rw [hsame.callback]
        exact huncalled.callback
      rw [hsends hall,
        Process.createdCallback_starts hcallback (hsame.handle.trans hhandle) fun _ => hallocated]
      have hcount : x.connecting + 1 = 1 := by rw [hsame.connecting, hconnecting]
      exact .connecting ⟨hcallback, hsame.created.trans huncalled.created, huncalled.emptyCalls⟩
        hreported (hsame.handle.trans hhandle) hcount fun _ => hx
    | connecting huncalled hreported hhandle hconnecting hwait =>
      -- the callback does not wait, and the registration raises
      have hnot : ¬ ∀ i ∈ pending s.proc.invocations, i.Encodable := by
        intro hall
        exact hwait ((horderly hstatus hhandle huncalled.callback).2 hall) hstatus
      rw [hraises hnot]
      exact .connecting (huncalled.mono hsame) hreported (hsame.handle.trans hhandle)
        (hsame.connecting.trans hconnecting) fun _ => hx
    | called hcreated hempty hreported hconnecting hcallback =>
      have hnone : x.creationCallback = none := by
        rw [hsame.callback]
        by_contra hset
        exact hcallback (Option.isSome_iff_ne_none.2 hset) hstatus
      have hconnect : (s.proc.connect c).1 = x := by
        by_cases hall : ∀ i ∈ pending s.proc.invocations, i.Encodable
        · rw [hsends hall]
          exact Process.createdCallback_keeps (.inl hnone)
        · exact hraises hall
      rw [hconnect]
      refine .called ?_ hempty hreported (hsame.connecting.trans hconnecting) fun _ => hx
      show x.created.length = 1
      rw [hsame.created]
      exact hcreated
  · rw [connect_registered hstatus]
    exact h

/-- The only `connect` that was started completes. -/
theorem Stage.instanceConnected (h : s.Stage) (error : Option Str) :
    Stage (s.next (.instanceConnected error)) := by
  by_cases hzero : s.proc.connecting = 0
  · rw [next, if_pos hzero]
    exact h
  · cases h with
    | waiting _ _ _ hconnecting => exact absurd hconnecting hzero
    | held _ _ _ hconnecting => exact absurd hconnecting hzero
    | called _ _ _ hconnecting => exact absurd hconnecting hzero
    | connecting huncalled hreported hhandle hconnecting hwait =>
      rw [next, if_neg hzero]
      have hcallback : ({ s.proc with
          connecting := s.proc.connecting - 1 } : Process).creationCallback.isSome :=
        huncalled.callback
      rcases instanceConnected_calls hcallback error with ⟨hcreated, hleft, hset⟩
      refine .called ?_ ?_ hreported ?_ ?_
      · rw [hcreated]
        simp [huncalled.created]
      · simp [huncalled.emptyCalls, Option.isSome_iff_ne_none.1 huncalled.callback]
      · rw [hleft]
        simp [hconnecting]
      · intro hkept
        simp [hset hkept]

theorem stage_next (h : s.Stage) {e : Event} (horderly : s.Orderly e) : (s.next e).Stage := by
  cases e with
  | allocated =>
    rw [next]
    split_ifs with hreported
    · exact h
    · rw [Bool.not_eq_true] at hreported
      exact h.allocated hreported (horderly hreported)
  | allocationFailed error =>
    rw [next]
    split_ifs with hreported
    · exact h
    · rw [Bool.not_eq_true] at hreported
      exact h.allocationFailed hreported error
  | connect c => exact h.connect horderly
  | closed =>
    rw [next]
    split_ifs with hstatus
    · exact h
    · apply h.mono
      · unfold Process.closed
        split_ifs <;> exact ⟨rfl, rfl, rfl, rfl, rfl⟩
      · refine .inr ⟨hstatus, ?_⟩
        unfold Process.closed
        split_ifs <;> simp [Process.closeConnection]
  | instanceConnected error => exact h.instanceConnected error
  | addInvocation i =>
    exact h.mono (sameCreation_addInvocation s.proc i)
      (.inl (Process.status_of_place (Process.place_addInvocation s.proc i)))
  | swap path =>
    rw [next]
    split_ifs with hstatus
    · exact h
    · rw [not_not] at hstatus
      have hswap : Stage { s with
          proc := { s.proc with status := .SWAPPING_OUT, swapPath := some path } } :=
        h.mono ⟨rfl, rfl, rfl, rfl, rfl⟩ (.inr ⟨by simp [hstatus], by simp⟩)
      exact hswap.mono (sameCreation_swap _) (.inl (Process.status_of_place (Process.place_swap _)))
  | swapped =>
    rw [next]
    split_ifs with hstatus
    · exact h
    · rw [not_not] at hstatus
      exact h.mono ⟨rfl, rfl, rfl, rfl, rfl⟩ (.inr ⟨by simp [hstatus], by simp⟩)

theorem stage_run {es : List Event} {t : Creation} (h : s.Stage)
    (hmeets : Lts.Meets step Orderly s es) (hrun : Lts.run step s es = .ok t) : t.Stage := by
  apply Lts.run_invariant ?_ h hmeets hrun
  intro s e s' hs horderly hstep
  rw [← Except.ok.inj hstep]
  exact stage_next hs horderly

end Stages

/-! ## Events that break the property -/

section Breaks

variable {s : Creation}

/-- The report finds the process gone, and nothing calls the callback any more. -/
theorem lost_report (h : s.Stage) (hnot : ¬ s.Orderly .allocated) :
    ¬ (s.next .allocated).CalledOnce := by
  unfold Orderly at hnot
  push Not at hnot
  rcases hnot with ⟨hreported, hwait, hstatus⟩
  cases h with
  | waiting huncalled _ hhandle hconnecting =>
    have hkeeps : s.proc.setHandle.createdCallback none = s.proc.setHandle :=
      Process.createdCallback_keeps (.inr (.inr ⟨hwait, hstatus.2⟩))
    rw [next, if_neg (by simp [hreported]), hkeeps]
    rintro ⟨-, honce⟩
    have hcalls := honce ⟨rfl, fun _ => hstatus.1, hconnecting⟩
    simp [calls, Process.setHandle, huncalled.created, huncalled.emptyCalls] at hcalls
  | held _ htrue => cases hreported.symm.trans htrue
  | connecting _ htrue => cases hreported.symm.trans htrue
  | called _ _ htrue => cases hreported.symm.trans htrue

/-- A process that was reported raises when it registers, before it starts `connect`. -/
theorem lost_registration (h : s.Stage) (hstatus : s.proc.status = .ALLOCATING)
    (hhandle : s.proc.handle = true) (hcallback : s.proc.creationCallback.isSome)
    (hwait : s.proc.waitForAllocation = true)
    (hraises : ¬ ∀ i ∈ pending s.proc.invocations, i.Encodable) (c : ConnId) :
    ¬ (s.next (.connect c)).CalledOnce := by
  cases h with
  | waiting _ _ hnone => cases hhandle.symm.trans hnone
  | connecting _ _ _ _ hgone => exact absurd hstatus (hgone hwait)
  | called _ _ _ _ hgone => exact absurd hstatus (hgone hcallback)
  | held huncalled hreported _ hconnecting _ _ =>
    rcases connect_cases hstatus c with ⟨x, hsame, hallocated, -, hconnect⟩
    rw [next, hconnect (fun hreturns => hraises ((connect_returns_iff hstatus).1 hreturns))]
    rintro ⟨-, honce⟩
    have hcalls := honce ⟨hreported, fun _ => by simp [hallocated],
      hsame.connecting.trans hconnecting⟩
    simp [calls, hsame.created, huncalled.created, huncalled.emptyCalls] at hcalls

theorem next_failed (hconnecting : s.proc.connecting ≠ 0)
    (hcallback : s.proc.creationCallback.isSome) (error : Str) :
    s.next (.instanceConnected (some error)) =
      { s with proc := { s.proc with
          connecting := s.proc.connecting - 1
          creationCallback := none
          created := s.proc.created ++ [some error] } } := by
  rcases Option.isSome_iff_exists.1 hcallback with ⟨callback, hset⟩
  rw [next, if_neg hconnecting]
  unfold Process.instanceConnected
  simp [hset]

/-- The callback was reset. -/
theorem next_empty (hconnecting : s.proc.connecting ≠ 0) (hcallback : s.proc.creationCallback = none)
    (error : Option Str) :
    s.next (.instanceConnected error) =
      { s with
        proc := { s.proc with connecting := s.proc.connecting - 1 }
        emptyCalls := s.emptyCalls + 1 } := by
  rw [next, if_neg hconnecting]
  unfold Process.instanceConnected
  simp [hcallback]

/-- Two that complete make two calls. -/
theorem called_twice (hconnecting : s.proc.connecting = 2)
    (hcallback : s.proc.creationCallback.isSome) (error : Str) :
    2 ≤ ((s.next (.instanceConnected (some error))).next (.instanceConnected (some error))).calls := by
  rw [next_failed (by simp [hconnecting]) hcallback, next_empty (by simp [hconnecting]) rfl]
  simp [calls]
  omega

/-- A process that does not wait registers while its instance connects. -/
theorem connects_twice (h : s.Stage) (hstatus : s.proc.status = .ALLOCATING)
    (hhandle : s.proc.handle = true) (hcallback : s.proc.creationCallback.isSome)
    (hwait : ¬ s.proc.waitForAllocation = true)
    (hsends : ∀ i ∈ pending s.proc.invocations, i.Encodable) (c : ConnId) :
    (s.next (.connect c)).proc.connecting = 2 ∧
      (s.next (.connect c)).proc.creationCallback.isSome := by
  cases h with
  | waiting _ _ hnone => cases hhandle.symm.trans hnone
  | held _ _ _ _ htrue => exact absurd htrue hwait
  | called _ _ _ _ hgone => exact absurd hstatus (hgone hcallback)
  | connecting huncalled _ _ hconnecting _ =>
    rcases connect_cases hstatus c with ⟨x, hsame, hallocated, hconnect, -⟩
    have hset : x.creationCallback.isSome := by
      rw [hsame.callback]
      exact hcallback
    rw [next, hconnect ((connect_returns_iff hstatus).2 hsends),
      Process.createdCallback_starts hset (hsame.handle.trans hhandle) fun _ => hallocated]
    exact ⟨congrArg (· + 1) (hsame.connecting.trans hconnecting), hset⟩

/-- What is not orderly loses the callback, or has it called twice once the instances have
connected. -/
theorem breaks (h : s.Stage) {e : Event} (hnot : ¬ s.Orderly e) :
    ∃ (errors : List (Option Str)) (t : Creation),
      Lts.run step (s.next e) (errors.map .instanceConnected) = .ok t ∧ ¬ t.CalledOnce := by
  cases e with
  | allocated => exact ⟨[], _, rfl, lost_report h hnot⟩
  | connect c =>
    unfold Orderly at hnot
    simp only [Classical.not_imp] at hnot
    rcases hnot with ⟨hstatus, hhandle, hcallback, hnot⟩
    by_cases hwait : s.proc.waitForAllocation = true
    · have hraises : ¬ ∀ i ∈ pending s.proc.invocations, i.Encodable := fun hsends =>
        hnot ⟨fun _ => hsends, fun _ => hwait⟩
      exact ⟨[], _, rfl, lost_registration h hstatus hhandle hcallback hwait hraises c⟩
    · have hsends : ∀ i ∈ pending s.proc.invocations, i.Encodable := by
        by_contra hraises
        exact hnot ⟨fun hset => absurd hset hwait, fun hall => absurd hall hraises⟩
      rcases connects_twice h hstatus hhandle hcallback hwait hsends c with ⟨htwo, hset⟩
      refine ⟨[some [], some []], _, rfl, ?_⟩
      intro honce
      have htwice := called_twice htwo hset []
      exact absurd honce.1 (by omega)
  | _ => exact absurd trivial hnot

end Breaks

/-! ## Every order of events -/

def requested (callback : CreationCallback) (wait : Bool) (invocations : List Invocation) : Process :=
  { name := str ['p'], application := 0, waitForAllocation := wait
    creationCallback := some callback, invocations := invocations }

theorem requested_requested (callback : CreationCallback) (wait : Bool)
    (invocations : List Invocation) : Requested (requested callback wait invocations) :=
  ⟨rfl, rfl, rfl, rfl⟩

end Creation

end Praas.ControlPlane
