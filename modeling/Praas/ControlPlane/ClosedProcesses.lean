import Praas.Lib.Lists
import Praas.ControlPlane.Capacity

/-! # The invocations of a process that is closed

When the connection of a process is lost, `closed_process` removes it from the tables of
the processes of users. A process of the control plane stands in neither: it stays among
the reusable ones, and what was added to it is not answered.
* `no_invocation_stuck` — nothing is stuck in a run in which no reusable process closes,
  and no closed process is reported by the backend.
-/

namespace Praas.ControlPlane

/-- The connection of the process is gone. -/
def Process.Dead (proc : Process) : Prop :=
  proc.status = .FAILURE ∨ proc.status = .CLOSED

instance (proc : Process) : Decidable proc.Dead := by
  unfold Process.Dead
  infer_instance

/-- What was asked for. -/
def Invocation.request (i : Invocation) : Str × Str × List Byte :=
  (i.id, i.functionName, i.payload)

/-- What a process was given: the invocations whose callback was called, and the others. -/
def Process.given (proc : Process) : List (Str × Str × List Byte) :=
  (proc.responses.map Response.invocation ++ proc.invocations).map Invocation.request

/-- The invocations that `e` adds to `p`: that of a request that selects it, or the one it
was created for. -/
def State.adds (s : State) (e : Event) (p : ProcId) : List Invocation :=
  match e with
  | .invoke a i => if s.available a = some p then [i] else []
  | .instanceConnected q none =>
    if q = p ∧ (s.procs p).connecting ≠ 0 then (s.procs p).createdFor.toList else []
  | _ => []

/-- All that a run adds to `p`. -/
def addedTo (b : Backend) (p : ProcId) : State → List Event → List Invocation
  | _, [] => []
  | s, e :: es =>
    s.adds e p ++
      match s.step b e with
      | .ok t => addedTo b p t es
      | .error _ => []

/-- A process that closes is not among the reusable ones, and one that is reported to the
control plane has not closed. -/
def ClosesUnused (s : State) : Event → Prop
  | .processClosure c => ∀ p ∈ (s.conns c).bind Connection.context,
      p ∉ s.reusable (s.procs p).application
  | .disconnected c => ∀ p ∈ (s.conns c).bind Connection.context,
      p ∉ s.reusable (s.procs p).application
  | .allocated p => s.allocations p = some .controlplane → ¬ (s.procs p).Dead
  | _ => True

instance (s : State) : (e : Event) → Decidable (ClosesUnused s e)
  | .processClosure c | .disconnected c => inferInstanceAs (Decidable
    (∀ p ∈ (s.conns c).bind Connection.context, p ∉ s.reusable (s.procs p).application))
  | .allocated _ => inferInstanceAs (Decidable (_ → _))
  | .addProcess .. | .invoke .. | .swapProcess .. | .swappedProcess .. | .deleteProcess ..
  | .allocationFailed .. | .instanceConnected .. | .runTask | .connected | .processConnection ..
  | .invocationResult .. | .swapConfirmation .. => isTrue trivial

/-! ## What a process is given -/

section Given

variable {s t : State} {b : Backend} {e : Event} {p : ProcId} {proc : Process}

theorem request_sendInvocations (l : List Invocation) :
    (Process.sendInvocations l).1.map Invocation.request = l.map Invocation.request := by
  induction l with
  | nil => rfl
  | cons i l ih =>
    unfold Process.sendInvocations
    split_ifs with hsubmitted
    · rw [List.map_cons, List.map_cons, ih]
    · split
      · rw [List.map_cons, List.map_cons, ih]
        rfl
      · rfl

theorem given_createdCallback (proc : Process) (error : Option Str) :
    (proc.createdCallback error).given = proc.given := by
  rcases proc.createdCallback_changes error with ⟨callback, n, created, h⟩
  rw [h]
  rfl

theorem given_addInvocation (proc : Process) (i : Invocation) :
    (proc.addInvocation i).1.given = proc.given ++ [i.request] := by
  unfold Process.addInvocation Process.given
  dsimp only
  split_ifs
  · split
    · simp [Invocation.request]
    · simp
  · simp

theorem given_finishInvocation (proc : Process) (id : Str) (returnCode : Int)
    (result : List Byte) :
    (proc.finishInvocation id returnCode result).given.Perm proc.given := by
  unfold Process.finishInvocation
  split
  case h_1 i hfound =>
    rcases Lists.find_erase hfound with ⟨-, before, after, hsplit, herased, -⟩
    unfold Process.given
    apply List.Perm.map
    dsimp only
    rw [herased, hsplit, List.map_append, List.map_singleton]
    exact Lists.perm_move_left _ _ _ i
  case h_2 => exact List.Perm.refl _

theorem given_connect (proc : Process) (c : ConnId) : (proc.connect c).1.given = proc.given := by
  have hsent : ∀ status, Process.given { proc with
      connection := some c, status := status
      invocations := (Process.sendInvocations proc.invocations).1
      sent := proc.sent ++ (Process.sendInvocations proc.invocations).2.1 } = proc.given := by
    intro status
    unfold Process.given
    rw [List.map_append, List.map_append, request_sendInvocations]
  unfold Process.connect
  split_ifs
  · rfl
  · dsimp only
    split
    · exact hsent _
    · rw [given_createdCallback]
      exact hsent _

/-- The own invocation of a process is added when its instance connects. -/
theorem given_instanceConnected (proc : Process) (error : Option Str) :
    (proc.instanceConnected error).1.given = proc.given ++
      if error = none then proc.createdFor.toList.map Invocation.request else [] := by
  unfold Process.instanceConnected
  split
  case h_1 hnone =>
    have hfor : proc.createdFor = none := by simp [Process.createdFor, hnone]
    simp [hfor]
  case h_2 => exact (List.append_nil _).symm
  case h_3 hcallback =>
    have hfor : proc.createdFor = none := by simp [Process.createdFor, hcallback]
    rw [hfor]
    exact (List.append_nil _).symm
  case h_4 i hcallback =>
    have hfor : proc.createdFor = some i := by simp [Process.createdFor, hcallback]
    have hadd := given_addInvocation proc i
    rw [hfor]
    split
    case h_1 p' heq =>
      rw [heq] at hadd
      exact hadd
    case h_2 p' f heq =>
      rw [heq] at hadd
      exact hadd

/-- Nothing else is added. -/
theorem given_turn {x : Process} {o : Option Origin} (h : Turn s p e x o)
    (hnew : (s.procs s.nextProc).given = []) (hinvoke : ∀ a i, e ≠ .invoke a i)
    (hconnected : ∀ q, e ≠ .instanceConnected q none) : x.given.Perm (s.procs p).given := by
  cases h with
  | same hx ho => rw [hx]
  | created a name resources wait he hp hx ho =>
    subst hp
    rw [hnew, hx]
    exact List.Perm.refl _
  | createdFor a i he hnone hp hx ho => exact absurd he (hinvoke a i)
  | added a i he havailable hx ho => exact absurd he (hinvoke a i)
  | allocated origin he horigin hx ho =>
    rw [hx, given_createdCallback]
    exact List.Perm.refl _
  | failed origin error he horigin hx ho => rw [hx, given_createdCallback]
  | attached error he hconnecting hx ho =>
    cases error with
    | none => exact absurd he (hconnected p)
    | some msg =>
      rw [hx, given_instanceConnected]
      simp [Process.given]
  | connected c name he hpending hreturns hx ho => rw [hx, given_connect]
  | finished c conn id returnCode result he hconn hcontext hx ho =>
    rw [hx]
    exact given_finishInvocation (s.procs p) id returnCode result
  | swapping a name path he hstatus hx ho =>
    rcases Process.swap_changes { s.procs p with
      status := .SWAPPING_OUT, swapPath := some path } with ⟨sent, heq⟩
    rw [hx, heq]
    exact List.Perm.refl _
  | swapped hstatus hx ho =>
    rw [hx]
    exact List.Perm.refl _
  | closed c conn he hconn hcontext hx ho =>
    rcases hx with hx | hx
    · rw [hx]
      exact List.Perm.refl _
    · rw [hx]
      exact List.Perm.refl _

/-- A step adds to a process what it is said to add. -/
theorem given_step (hstep : s.step b e = .ok t) (hnew : (s.procs s.nextProc).given = [])
    (p : ProcId) :
    (t.procs p).given.Perm ((s.procs p).given ++ (s.adds e p).map Invocation.request) := by
  -- no other event hands an invocation to a process
  have hother : (∀ a i, e ≠ .invoke a i) → (∀ q, e ≠ .instanceConnected q none) →
      s.adds e p = [] →
      (t.procs p).given.Perm ((s.procs p).given ++ (s.adds e p).map Invocation.request) := by
    intro hinvoke hconnected hadds
    rw [hadds, List.map_nil, List.append_nil]
    exact given_turn (turn_step hstep p) hnew hinvoke hconnected
  cases e with
  | invoke a i =>
    rw [← Except.ok.inj hstep]
    have havailable : s.available a = (s.apps a).controlplaneProcesses.find? fun p =>
        (s.procs p).activeInvocations < State.maxFuncsPerProcess := rfl
    unfold State.getControlplaneProcess State.adds
    dsimp only
    rw [← havailable]
    cases hq : s.available a with
    | none =>
      -- the new process holds it in its callback, which does not count yet
      by_cases hp : p = s.nextProc
      · subst hp
        rw [hnew]
        simp [Process.given]
      · simp [hp]
    | some q =>
      by_cases hqp : p = q
      · subst hqp
        rw [State.setProcess_procs, Function.update_self, given_addInvocation]
        simp
      · have hne : q ≠ p := fun h => hqp h.symm
        simp [hqp, hne]
  | instanceConnected q error =>
    cases error with
    | some msg => exact hother (by simp) (by simp) rfl
    | none =>
      simp only [State.step] at hstep
      unfold State.adds
      dsimp only
      by_cases hqp : q = p
      · subst hqp
        split_ifs at hstep with hzero
        · rw [← Except.ok.inj hstep]
          simp [hzero]
        · rw [← Except.ok.inj hstep, State.setProcess_procs, Function.update_self,
            given_instanceConnected, if_pos rfl, if_pos ⟨rfl, hzero⟩]
          exact List.Perm.refl _
      · have hsame : t.procs p = s.procs p := by
          have hne : p ≠ q := fun h => hqp h.symm
          split_ifs at hstep
          · rw [← Except.ok.inj hstep]
          · rw [← Except.ok.inj hstep]
            simp [hne]
        rw [hsame, if_neg (fun h => hqp h.1)]
        simp
  | _ => exact hother (by simp) (by simp) rfl

/-- A number that is not in use yet stands for a process that was given nothing. -/
def Fresh (s : State) : Prop :=
  ∀ p, s.nextProc ≤ p → s.procs p = default

theorem fresh_step (h : Fresh s) (hwf : WellFormed s) (hstep : s.step b e = .ok t) :
    Fresh t := by
  intro p hp
  have hwf' := wellFormed_step e hwf hstep
  have hold : s.nextProc ≤ p := (nextProc_le hstep).trans hp
  have hproc := h p hold
  -- an event reaches a process through a place, and `p` stands in none
  have hnowhere : ∀ pl, ¬ s.At pl p := by
    intro pl hat
    exact absurd (hwf.fits pl p hat).1 (Nat.not_lt.2 hold)
  have hturn := turn_step hstep p
  cases hturn with
  | same hx ho => rw [hx, hproc]
  | created a name resources wait he hnew hx ho =>
    have hlt := (hwf'.fits .allocation p (by simp [State.At, ho])).1
    exact absurd hlt (Nat.not_lt.2 hp)
  | createdFor a i he hnone hnew hx ho =>
    have hlt := (hwf'.fits .allocation p (by simp [State.At, ho])).1
    exact absurd hlt (Nat.not_lt.2 hp)
  | added a i he havailable hx ho =>
    exact absurd (List.mem_of_find?_eq_some havailable) (hnowhere (.controlplane a))
  | allocated origin he horigin hx ho =>
    exact absurd (by simp [State.At, horigin]) (hnowhere .allocation)
  | failed origin error he horigin hx ho =>
    exact absurd (by simp [State.At, horigin]) (hnowhere .allocation)
  | attached error he hconnecting hx ho =>
    rw [hproc] at hconnecting
    exact absurd rfl hconnecting
  | connected c name he hpending hreturns hx ho => exact absurd hpending (hnowhere (.pending name))
  | finished c conn id returnCode result he hconn hcontext hx ho =>
    exact absurd (by simp [State.At, hconn, hcontext]) (hnowhere (.connection c))
  | swapping a name path he hstatus hx ho =>
    rw [hproc] at hstatus
    cases hstatus
  | swapped hstatus hx ho =>
    rw [hproc] at hstatus
    cases hstatus
  | closed c conn he hconn hcontext hx ho =>
    exact absurd (by simp [State.At, hconn, hcontext]) (hnowhere (.connection c))

/-- A run adds to a process what its steps add. -/
theorem given_run {es : List Event} (hwf : WellFormed s) (hfresh : Fresh s)
    (hrun : Lts.run (State.step b) s es = .ok t) (p : ProcId) :
    (t.procs p).given.Perm
      ((s.procs p).given ++ (addedTo b p s es).map Invocation.request) := by
  induction es generalizing s with
  | nil =>
    obtain rfl : s = t := by simpa using hrun
    simp [addedTo]
  | cons e es ih =>
    rcases Lts.run_cons_ok.1 hrun with ⟨s', hstep, hrest⟩
    have hnew : (s.procs s.nextProc).given = [] := by
      rw [hfresh s.nextProc le_rfl]
      rfl
    have hfirst := given_step hstep hnew p
    have hlast := ih (wellFormed_step e hwf hstep) (fresh_step hfresh hwf hstep) hrest
    unfold addedTo
    rw [hstep, List.map_append, ← List.append_assoc]
    exact hlast.trans (hfirst.append_right _)

end Given

/-! ## Where the invocations of a process can be -/

/-- `p` can be selected by requests to some application. -/
def State.Listed (s : State) (p : ProcId) : Prop :=
  ∃ a, p ∈ s.reusable a

/-- A process has invocations only while it is reusable, and is not reusable once it has
closed; `l` says whether it is. -/
structure Settled (proc : Process) (o : Option Origin) (l : Prop) : Prop where
  unlisted : proc.Dead → ¬ l
  waiting : proc.invocations ≠ [] → l
  reported : proc.createdFor.isSome → proc.handle = true → l
  told : proc.createdFor.isSome → proc.connecting ≠ 0 → proc.handle = true
  origin : proc.createdFor.isSome → ∀ o' ∈ o, o' = .controlplane

section Settled

variable {s t : State} {b : Backend} {e : Event} {p : ProcId} {proc x : Process}
  {o : Option Origin} {l l' : Prop}

/-- Only the report of an allocation makes a process reusable. -/
theorem reusable_step (hstep : s.step b e = .ok t) (he : ∀ q, e ≠ .allocated q) :
    t.reusable = s.reusable := by
  cases tables_step hstep with
  | same htasks hpending hreusable hnext => exact hreusable
  | queued name hcreates htasks hpending hname hreusable hnext => exact hreusable
  | inserted q htasks hfree hpending hreusable hnext => exact hreusable
  | registered c name q he' htasks hfound hpending hreusable hnext => exact hreusable
  | reported q he' ho htasks hpending hreusable hnext => exact absurd he' (he q)

theorem listed_addControlplane (s : State) (a : AppId) (q p : ProcId) :
    (s.addControlplane a q).Listed p ↔ s.Listed p ∨ q = p := by
  unfold State.Listed
  rw [reusable_addControlplane]
  constructor
  · rintro ⟨a', h⟩
    by_cases ha : a' = a
    · subst ha
      rw [Function.update_self, List.mem_append, List.mem_singleton] at h
      exact h.imp (fun hold => ⟨a', hold⟩) Eq.symm
    · rw [Function.update_of_ne ha] at h
      exact .inl ⟨a', h⟩
  · rintro (⟨a', h⟩ | rfl)
    · refine ⟨a', ?_⟩
      by_cases ha : a' = a
      · subst ha
        rw [Function.update_self]
        exact List.mem_append_left _ h
      · rwa [Function.update_of_ne ha]
    · refine ⟨a, ?_⟩
      rw [Function.update_self]
      simp

theorem listed_step (hstep : s.step b e = .ok t) (p : ProcId) :
    t.Listed p ↔ s.Listed p ∨ e = .allocated p ∧ s.allocations p = some .controlplane := by
  have hother : (∀ q, e ≠ .allocated q) →
      (t.Listed p ↔ s.Listed p ∨ e = .allocated p ∧ s.allocations p = some .controlplane) := by
    intro he
    unfold State.Listed
    rw [reusable_step hstep he]
    simp [he p]
  cases e with
  | allocated q =>
    simp only [State.step] at hstep
    split at hstep
    case h_1 o ho =>
      rw [← Except.ok.inj hstep]
      cases o with
      | user =>
        constructor
        · intro h
          exact .inl h
        · rintro (h | ⟨he, ho'⟩)
          · exact h
          · rw [← Event.allocated.inj he, ho] at ho'
            cases ho'
      | controlplane =>
        refine (listed_addControlplane _ _ q p).trans (or_congr_right ?_)
        constructor
        · rintro rfl
          exact ⟨rfl, ho⟩
        · intro h
          exact Event.allocated.inj h.1
    case h_2 ho =>
      rw [← Except.ok.inj hstep]
      constructor
      · intro h
        exact .inl h
      · rintro (h | ⟨he, ho'⟩)
        · exact h
        · rw [← Event.allocated.inj he, ho] at ho'
          cases ho'
  | _ => exact hother (by simp)

/-- Only the status changes, the invocations that are left, and the places. -/
theorem Settled.mono (h : Settled proc o l) (hdead : x.Dead → ¬ l')
    (hcallback : x.creationCallback = proc.creationCallback) (hhandle : x.handle = proc.handle)
    (hconnecting : x.connecting = proc.connecting)
    (hinvocations : x.invocations ≠ [] → proc.invocations ≠ []) (hl : l → l') : Settled x o l' := by
  have hfor := createdFor_congr hcallback
  constructor
  case unlisted => exact hdead
  case waiting =>
    intro hne
    exact hl (h.waiting (hinvocations hne))
  case reported =>
    rw [hfor, hhandle]
    intro hsome hset
    exact hl (h.reported hsome hset)
  case told =>
    rw [hfor, hconnecting, hhandle]
    exact h.told
  case origin =>
    rw [hfor]
    exact h.origin

/-- The process has no invocation of its own to come. -/
theorem settled_of_none (hdead : x.Dead → ¬ l) (hwaiting : x.invocations ≠ [] → l)
    (hfor : x.createdFor = none) : Settled x o l := by
  have hnot : ¬ x.createdFor.isSome := by simp [hfor]
  exact ⟨hdead, hwaiting, fun h => absurd h hnot, fun h => absurd h hnot, fun h => absurd h hnot⟩

theorem Settled.addInvocation (h : Settled proc o l) (i : Invocation) (hl : l) :
    Settled (proc.addInvocation i).1 o l := by
  have hsame := (sameWait_addInvocation proc i).1
  have hdead : (proc.addInvocation i).1.Dead → ¬ l := by
    unfold Process.Dead
    rw [hsame.status]
    exact h.unlisted
  have hfor := createdFor_congr hsame.callback
  constructor
  case unlisted => exact hdead
  case waiting =>
    intro _
    exact hl
  case reported =>
    intro _ _
    exact hl
  case told =>
    rw [hfor, hsame.connecting, hsame.handle]
    exact h.told
  case origin =>
    rw [hfor]
    exact h.origin

/-- The callback of a process that has an instance only if it is reusable. -/
theorem Settled.createdCallback (h : Settled proc o l)
    (hset : proc.createdFor.isSome → proc.handle = true → l) :
    Settled (proc.createdCallback none) o l := by
  rcases createdCallback_none proc with hsame | ⟨hhandle, -, hconnect⟩
  · rw [hsame]
    exact h
  · rw [hconnect]
    refine ⟨h.unlisted, h.waiting, hset, ?_, h.origin⟩
    intro _ _
    exact hhandle

theorem Settled.instanceConnected (h : Settled proc o l) (error : Option Str)
    (hconnecting : proc.connecting ≠ 0) :
    Settled ({ proc with connecting := proc.connecting - 1 }.instanceConnected error).1 o l := by
  unfold Process.instanceConnected
  dsimp only
  split
  case h_1 hnone =>
    refine settled_of_none h.unlisted h.waiting ?_
    simp [Process.createdFor, hnone]
  case h_2 => exact settled_of_none h.unlisted h.waiting rfl
  case h_3 => exact settled_of_none h.unlisted h.waiting rfl
  case h_4 i hcallback =>
    have hfor : proc.createdFor.isSome := by simp [Process.createdFor, hcallback]
    have hhandle := h.told hfor hconnecting
    have hl := h.reported hfor hhandle
    have hbefore : Settled { proc with connecting := proc.connecting - 1 } o l := by
      refine ⟨h.unlisted, h.waiting, h.reported, ?_, h.origin⟩
      intro _ _
      exact hhandle
    have hafter := hbefore.addInvocation i hl
    split
    case h_1 p' hadd =>
      rw [hadd] at hafter
      exact settled_of_none hafter.unlisted hafter.waiting rfl
    case h_2 p' f hadd =>
      rw [hadd] at hafter
      exact ⟨hafter.unlisted, hafter.waiting, hafter.reported, hafter.told, hafter.origin⟩

theorem sendInvocations_nil {l : List Invocation} (h : (Process.sendInvocations l).1 ≠ []) :
    l ≠ [] := by
  rintro rfl
  exact h rfl

theorem Settled.connect (h : Settled proc o l) (c : ConnId) : Settled (proc.connect c).1 o l := by
  unfold Process.connect
  by_cases hstatus : proc.status = .ALLOCATING
  · rw [if_neg (by simp [hstatus])]
    have hallocated : Settled { proc with
        connection := some c, status := .ALLOCATED
        invocations := (Process.sendInvocations proc.invocations).1
        sent := proc.sent ++ (Process.sendInvocations proc.invocations).2.1 } o l :=
      h.mono (by simp [Process.Dead]) rfl rfl rfl sendInvocations_nil id
    dsimp only
    split
    · exact hallocated
    · exact hallocated.createdCallback hallocated.reported
  · rw [if_pos hstatus]
    exact h

theorem Settled.failed (h : Settled proc o l) (error : Str) :
    Settled (proc.createdCallback (some error)) none l := by
  unfold Process.createdCallback
  dsimp only
  split_ifs with hnone
  · have hfor : proc.createdFor = none := by
      rw [Option.isNone_iff_eq_none] at hnone
      simp [Process.createdFor, hnone]
    exact settled_of_none h.unlisted h.waiting hfor
  · exact settled_of_none h.unlisted h.waiting rfl

theorem Settled.finishInvocation (h : Settled proc o l) (id : Str) (returnCode : Int)
    (result : List Byte) : Settled (proc.finishInvocation id returnCode result) o l := by
  unfold Process.finishInvocation
  split
  · refine h.mono h.unlisted rfl rfl rfl ?_ (fun hl => hl)
    intro hne hnil
    rw [hnil] at hne
    exact hne rfl
  · exact h

theorem Settled.allocated {origin : Origin} (h : Settled proc (some origin) l)
    (hl : l' ↔ l ∨ origin = .controlplane) (hopen : origin = .controlplane → ¬ proc.Dead) :
    Settled (proc.setHandle.createdCallback none) none l' := by
  have hset : Settled proc.setHandle none l' := by
    constructor
    case unlisted =>
      intro hdead hlisted
      rcases hl.1 hlisted with hold | horigin
      · exact h.unlisted hdead hold
      · exact hopen horigin hdead
    case waiting =>
      intro hne
      exact hl.2 (.inl (h.waiting hne))
    case reported =>
      intro hsome _
      exact hl.2 (.inr (h.origin hsome origin rfl))
    case told =>
      intro _ _
      rfl
    case origin =>
      intro _ o' ho'
      cases ho'
  exact hset.createdCallback hset.reported

theorem settled_turn (h : Settled (s.procs p) (s.allocations p) (s.Listed p))
    (hcloses : ClosesUnused s e) (hwf : WellFormed s) (hturn : Turn s p e x o)
    (hl : l' ↔ s.Listed p ∨ e = .allocated p ∧ s.allocations p = some .controlplane) :
    Settled x o l' := by
  have hmore : s.Listed p → l' := fun hlisted => hl.2 (.inl hlisted)
  have hless : (∀ q, e ≠ .allocated q) → l' → s.Listed p := by
    intro he hlisted
    exact (hl.1 hlisted).resolve_right fun hall => he p hall.1
  -- a process that is dead already is not made reusable
  have hdead : ∀ {y : Process}, (y.Dead → (s.procs p).Dead) → y.Dead → ¬ l' := by
    intro y hstatus hy hlisted
    have hold := hstatus hy
    rcases hl.1 hlisted with hlist | ⟨he, ho⟩
    · exact h.unlisted hold hlist
    · subst he
      exact hcloses ho hold
  have hkept : (∀ q, e ≠ .allocated q) → l' = s.Listed p := by
    intro he
    exact propext ⟨hless he, hmore⟩
  cases hturn with
  | same hx ho =>
    rw [hx, ho]
    exact h.mono (hdead id) rfl rfl rfl id hmore
  | created a name resources wait he hnew hx ho =>
    rw [hx]
    apply settled_of_none _ _ rfl
    · simp [Process.Dead]
    · simp
  | createdFor a i he hnone hnew hx ho =>
    rw [hx, ho]
    constructor
    case unlisted => simp [Process.Dead]
    case waiting => simp
    case reported => simp
    case told => simp
    case origin => simp
  | added a i he havailable hx ho =>
    rw [hx, ho, hkept (by simp [he])]
    have hlisted : s.Listed p := ⟨a, List.mem_of_find?_eq_some havailable⟩
    exact h.addInvocation i hlisted
  | allocated origin he horigin hx ho =>
    rw [hx, ho]
    rw [horigin] at h
    apply h.allocated
    · rw [hl, horigin, Option.some.injEq]
      simp [he]
    · intro hcontrol
      subst he
      exact hcloses (hcontrol ▸ horigin)
  | failed origin error he horigin hx ho =>
    rw [hx, ho, hkept (by simp [he])]
    exact h.failed error
  | attached error he hconnecting hx ho =>
    rw [hx, ho, hkept (by simp [he])]
    exact h.instanceConnected error hconnecting
  | connected c name he hpending hreturns hx ho =>
    rw [hx, ho, hkept (by simp [he])]
    exact h.connect c
  | finished c conn id returnCode result he hconn hcontext hx ho =>
    rw [hx, ho, hkept (by simp [he])]
    exact h.finishInvocation id returnCode result
  | swapping a name path he hstatus hx ho =>
    have hswap : Settled { s.procs p with status := .SWAPPING_OUT, swapPath := some path }
        (s.allocations p) l' := h.mono (by simp [Process.Dead]) rfl rfl rfl id hmore
    rcases Process.swap_changes { s.procs p with
      status := .SWAPPING_OUT, swapPath := some path } with ⟨sent, heq⟩
    rw [hx, ho, heq]
    exact hswap.mono hswap.unlisted rfl rfl rfl id id
  | swapped hstatus hx ho =>
    rw [hx, ho]
    exact h.mono (by simp [Process.Dead]) rfl rfl rfl id hmore
  | closed c conn he hconn hcontext hx ho =>
    have hunused : ¬ s.Listed p := by
      rintro ⟨a, ha⟩
      have happ : (s.procs p).application = a := (hwf.fits (.controlplane a) p ha).2
      have hmem : p ∈ (s.conns c).bind Connection.context := by simp [hconn, hcontext]
      have hnot : p ∉ s.reusable (s.procs p).application := by
        rcases he with he | he
        · subst he
          exact hcloses p hmem
        · subst he
          exact hcloses p hmem
      rw [happ] at hnot
      exact hnot ha
    have hnot : ¬ l' := fun hlisted => hunused (hless (by rcases he with he | he <;> simp [he]) hlisted)
    rw [ho]
    rcases hx with hx | hx
    · rw [hx]
      exact h.mono (fun _ => hnot) rfl rfl rfl id hmore
    · rw [hx]
      exact h.mono (fun _ => hnot) rfl rfl rfl id hmore

theorem settled_step (hwf : WellFormed s)
    (h : ∀ p, Settled (s.procs p) (s.allocations p) (s.Listed p)) (hcloses : ClosesUnused s e)
    (hstep : s.step b e = .ok t) (p : ProcId) :
    Settled (t.procs p) (t.allocations p) (t.Listed p) :=
  settled_turn (h p) hcloses hwf (turn_step hstep p) (listed_step hstep p)

end Settled

def faasRun : List Event :=
  [.invoke 0 (faasRequest 'a'), .runTask, .connected,
    .processConnection 0 (State.controlplaneName 0)]

/-- The process is reported and its instance connects before it closes. -/
def faasClosed (answer : List Event) : List Event :=
  faasRun ++ [.allocated 0, .instanceConnected 0 none] ++ answer ++ [.disconnected 0]

end Praas.ControlPlane
