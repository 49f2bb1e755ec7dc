import Praas.Lib.Ranking
import Praas.ControlPlane.Turns
import Praas.ControlPlane.CreationCallback

/-! # The life of a process

The status of a process object is set by `connect`, `swap_process`, `swapped_process`,
`closed_process` and `close_connection`, each from a handler of its own, in any order of
requests and messages. What they amount to over a whole run:
* `status_turn` — the changes of a status that one event can make;
* `status_run` — the order in which a status moves, and how often;
* `written_turn` — what one event can write to a process;
* `written_run` — a request to swap is the last message that a process is sent.
-/

namespace Praas.ControlPlane

/-! ## The order of the status -/

/-- The changes of a status that are made. A process fails only after it has registered,
and not while it is swapped out; none is ever being swapped in. -/
inductive Status.Next : Status → Status → Prop where
  | registered : Next .ALLOCATING .ALLOCATED
  | swapping : Next .ALLOCATED .SWAPPING_OUT
  | swapped : Next .SWAPPING_OUT .SWAPPED_OUT
  | closed : Next .SWAPPED_OUT .CLOSED
  | failed {x : Status} (hregistered : x ≠ .ALLOCATING) (hout : x ≠ .SWAPPED_OUT)
      (hfailed : x ≠ .FAILURE) : Next x .FAILURE

def Status.rank : Status → ℕ
  | .ALLOCATING => 0
  | .ALLOCATED => 1
  | .SWAPPING_IN => 1
  | .SWAPPING_OUT => 2
  | .SWAPPED_OUT => 3
  | .CLOSED => 4
  | .FAILURE => 5

theorem Status.Next.rank_lt {x y : Status} (h : x.Next y) : x.rank < y.rank := by
  cases h with
  | failed hregistered hout hfailed =>
    cases x <;> simp_all [Status.rank]
  | _ => decide

theorem Status.ne_allocating_of_next {x y : Status} (h : x.Next y) : y ≠ .ALLOCATING := by
  cases h <;> decide

/-- No change leads to `SWAPPING_IN`. -/
theorem Status.ne_swappingIn_of_chain {y : Status}
    (h : Relation.ReflTransGen Status.Next .ALLOCATING y) : y ≠ .SWAPPING_IN := by
  intro hy
  subst hy
  rcases Relation.ReflTransGen.cases_tail h with heq | ⟨x, -, hnext⟩
  · cases heq
  · cases hnext

section Turns

variable {s t : State} {b : Backend} {e : Event} {p : ProcId}

theorem procs_ended {c : ConnId} {conn : Connection}
    (he : e = .processClosure c ∨ e = .disconnected c) (hconn : s.conns c = some conn)
    (hcontext : conn.context = some p) (hstep : s.step b e = .ok t) :
    t.procs p = (s.procs p).closed := by
  have hclosed : t.procs p = (s.deregister.closedProcess p).procs p := by
    rcases he with rfl | rfl
    · simp only [State.step, State.registered, hconn, hcontext, Option.map_some] at hstep
      rw [← Except.ok.inj hstep]
      simp only [State.handleClosure, handleDisconnection_some hcontext]
    · simp only [State.step, hconn] at hstep
      rw [← Except.ok.inj hstep]
      simp only [State.disconnected, handleDisconnection_some hcontext]
  rw [hclosed, procs_closedProcess_self]
  rfl

/-- An event creates a process, keeps its status or makes one of the changes. -/
theorem status_turn (hwf : WellFormed s) (hstep : s.step b e = .ok t) (p : ProcId) :
    (p = s.nextProc ∧ (t.procs p).status = .ALLOCATING ∧ (t.procs p).sent = []) ∨
      (t.procs p).status = (s.procs p).status ∨
      (s.procs p).status.Next (t.procs p).status := by
  cases turn_step hstep p with
  | same hx => exact .inr (.inl (congrArg Process.status hx))
  | created a name resources wait he hnew hx => exact .inl ⟨hnew, by rw [hx], by rw [hx]⟩
  | createdFor a i he hnone hnew hx => exact .inl ⟨hnew, by rw [hx], by rw [hx]⟩
  | added a i he havailable hx =>
    rw [hx]
    exact .inr (.inl (Process.status_of_place (Process.place_addInvocation _ _)))
  | allocated origin he horigin hx =>
    rw [hx]
    exact .inr (.inl (Process.status_of_place (Process.place_createdCallback _ _)))
  | failed origin error he horigin hx =>
    rw [hx]
    exact .inr (.inl (Process.status_of_place (Process.place_createdCallback _ _)))
  | attached error he hconnecting hx =>
    rw [hx]
    exact .inr (.inl (Process.status_of_place (Process.place_instanceConnected _ _)))
  | connected c name he hpending hreturns hx =>
    have hallocating : (s.procs p).status = .ALLOCATING := (hwf.fits (.pending name) p hpending).2.2
    have hallocated : (t.procs p).status = .ALLOCATED := by
      rw [hx]
      exact congrArg (fun place => place.2.2) (Process.place_connect hallocating c)
    rw [hallocating, hallocated]
    exact .inr (.inr .registered)
  | finished c conn id returnCode result he hconn hcontext hx =>
    rw [hx]
    exact .inr (.inl (Process.status_of_place (Process.place_finishInvocation _ _ _ _)))
  | swapping a name path he hstatus hx =>
    have hswapping : (t.procs p).status = .SWAPPING_OUT := by
      rw [hx]
      exact Process.status_of_place (Process.place_swap _)
    rw [hstatus, hswapping]
    exact .inr (.inr .swapping)
  | swapped hstatus hx =>
    rw [hx, hstatus]
    exact .inr (.inr .swapped)
  | closed c conn he hconn hcontext hx =>
    -- a connection with a context is that of a process that has registered
    have hat : s.At (.connection c) p := by simp [State.At, hconn, hcontext]
    have hregistered : (s.procs p).status ≠ .ALLOCATING := (hwf.fits (.connection c) p hat).2
    have hended := procs_ended he hconn hcontext hstep
    by_cases hout : (s.procs p).status = .SWAPPED_OUT
    · rw [Process.closed, if_neg (not_not.2 hout)] at hended
      rw [hended, hout]
      exact .inr (.inr .closed)
    · rw [Process.closed, if_pos hout] at hended
      rw [hended]
      by_cases hfailed : (s.procs p).status = .FAILURE
      · exact .inr (.inl hfailed.symm)
      · exact .inr (.inr (.failed hregistered hout hfailed))

/-- An event keeps the status of a process that exists, or makes one of the changes. -/
theorem status_step (hwf : WellFormed s) (hstep : s.step b e = .ok t) (hp : p < s.nextProc) :
    (t.procs p).status = (s.procs p).status ∨ (s.procs p).status.Next (t.procs p).status := by
  rcases status_turn hwf hstep p with ⟨hnew, -⟩ | hkept
  · exact absurd hnew hp.ne
  · exact hkept

/-- Every status is at the end of a chain of changes. -/
def Grown (s : State) : Prop :=
  ∀ p, Relation.ReflTransGen Status.Next .ALLOCATING (s.procs p).status

theorem grown_step (hwf : WellFormed s) (h : Grown s) (hstep : s.step b e = .ok t) : Grown t := by
  intro p
  rcases status_turn hwf hstep p with ⟨-, hnew, -⟩ | hkept | hnext
  · rw [hnew]
  · rw [hkept]
    exact h p
  · exact (h p).tail hnext

theorem grown_run {es : List Event} (h : Lts.run (State.step b) {} es = .ok s) : Grown s := by
  have hkeeps : ∀ s e s', (WellFormed s ∧ Grown s) → s.step b e = .ok s' →
      WellFormed s' ∧ Grown s' := by
    intro s e s' hs hstep
    exact ⟨wellFormed_step e hs.1 hstep, grown_step hs.1 hs.2 hstep⟩
  exact (Lts.run_always hkeeps ⟨wellFormed_new, fun _ => .refl⟩ h).2

end Turns

/-- In every run, the status of every process object moves from `ALLOCATING` along
`ALLOCATED`, `SWAPPING_OUT`, `SWAPPED_OUT` and `CLOSED` only, or to `FAILURE` from one in
which it has registered; a run of any length changes it at most five times, and it is
never `SWAPPING_IN`. -/
theorem status_run {b : Backend} {es fs : List Event} {s t : State} {p : ProcId}
    (hes : Lts.run (State.step b) {} es = .ok s) (hfs : Lts.run (State.step b) s fs = .ok t)
    (hp : p < s.nextProc) :
    Relation.ReflTransGen Status.Next .ALLOCATING (s.procs p).status ∧
      Relation.ReflTransGen Status.Next (s.procs p).status (t.procs p).status ∧
      Lts.changes (State.step b) (fun s => (s.procs p).status) s fs + (s.procs p).status.rank ≤
        (t.procs p).status.rank ∧
      (t.procs p).status ≠ .SWAPPING_IN := by
  have hinv : ∀ s e s', WellFormed s ∧ p < s.nextProc → s.step b e = .ok s' →
      WellFormed s' ∧ p < s'.nextProc := by
    intro s e s' hs hstep
    exact ⟨wellFormed_step e hs.1 hstep, hs.2.trans_le (nextProc_le hstep)⟩
  have hmove : ∀ s e s', WellFormed s ∧ p < s.nextProc → s.step b e = .ok s' →
      (s'.procs p).status = (s.procs p).status ∨
        (s.procs p).status.Next (s'.procs p).status := by
    intro s e s' hs hstep
    exact status_step hs.1 hstep hs.2
  have hs : WellFormed s ∧ p < s.nextProc := ⟨wellFormed_run hes, hp⟩
  have hchain := Lts.run_moves hinv hmove hs hfs
  refine ⟨grown_run hes p, hchain, ?_, ?_⟩
  · exact Lts.changes_add_rank_le hinv hmove (fun _ _ => Status.Next.rank_lt) hs hfs
  · exact Status.ne_swappingIn_of_chain ((grown_run hes p).trans hchain)

/-! ### A process that is swapped out -/

/-- A process is created, connects and is reported by the backend. -/
def allocatedOnce : List Event :=
  [.addProcess 0 (str ['p']) ⟨some 128, some 1⟩ false, .runTask, .connected,
    .processConnection 0 (str ['p']), .allocated 0]

/-- It is asked to swap out, confirms, and its connection ends. -/
def swappedOnce : List Event :=
  [.swapProcess 0 (str ['p']) (str ['d']), .swapConfirmation 0, .disconnected 0]

/-- The three changes that the run makes are all that the ranks allow. -/
theorem status_run_swapped : ∃ s t, Lts.run (State.step ⟨1024, 1⟩) {} allocatedOnce = .ok s ∧
    Lts.run (State.step ⟨1024, 1⟩) s swappedOnce = .ok t ∧
    (s.procs 0).status = .ALLOCATED ∧ (t.procs 0).status = .CLOSED ∧
    Relation.ReflTransGen Status.Next (s.procs 0).status (t.procs 0).status ∧
    Lts.changes (State.step ⟨1024, 1⟩) (fun s => (s.procs 0).status) s swappedOnce ≤ 3 := by
  rcases Lts.run_test (State.step ⟨1024, 1⟩) {} allocatedOnce
    (fun s => s.nextProc = 1 ∧ (s.procs 0).status = .ALLOCATED) (by decide +kernel) with
    ⟨s, hs, hnext, hallocated⟩
  rcases Lts.run_test (State.step ⟨1024, 1⟩) {} (allocatedOnce ++ swappedOnce)
    (fun t => (t.procs 0).status = .CLOSED) (by decide +kernel) with ⟨t, ht, hclosed⟩
  rcases Lts.run_append_ok.1 ht with ⟨s', hs', hrest⟩
  obtain rfl := Except.ok.inj (hs.symm.trans hs')
  have hp : 0 < s.nextProc := by
    rw [hnext]
    exact Nat.one_pos
  rcases status_run hs hrest hp with ⟨-, hchain, hchanges, -⟩
  refine ⟨s, t, hs, hrest, hallocated, hclosed, hchain, ?_⟩
  rw [hallocated, hclosed] at hchanges
  simp only [Status.rank] at hchanges
  omega

/-! ## What a process is sent -/

def Outgoing.IsRequest : Outgoing → Prop
  | .invocationRequest _ _ => True
  | .swapRequest _ => False

/-- The process can still be sent something. -/
def Status.Listens (st : Status) : Prop := st = .ALLOCATING ∨ st = .ALLOCATED

theorem Status.listens_of_next {x y : Status} (h : x.Next y) (hy : y.Listens) : x.Listens := by
  cases h with
  | registered => exact .inl rfl
  | _ => rcases hy with hy | hy <;> cases hy

/-- Nothing is sent before the process registers, and invocation requests only until it is
asked to swap out: a swap request is the last message. -/
structure Process.Written (x : Process) : Prop where
  silent : x.status = .ALLOCATING → x.sent = []
  listens : x.status.Listens → ∀ m ∈ x.sent, m.IsRequest
  last : ∀ m ∈ x.sent.dropLast, m.IsRequest

section Written

variable {x y : Process}

theorem sendInvocations_requests (l : List Invocation) :
    ∀ m ∈ (Process.sendInvocations l).2.1, m.IsRequest := by
  induction l with
  | nil => simp [Process.sendInvocations]
  | cons i rest ih =>
    simp only [Process.sendInvocations]
    split
    · exact ih
    · split
      · intro m hm
        rcases List.mem_cons.1 hm with rfl | hm
        · trivial
        · exact ih m hm
      · simp

/-- What an event that does not send leaves. -/
theorem Process.Written.quiet (h : x.Written)
    (hstatus : y.status = x.status ∨ x.status.Next y.status) (hsent : y.sent = x.sent) :
    y.Written := by
  constructor
  case silent =>
    intro hst
    rw [hsent]
    rcases hstatus with hsame | hnext
    · exact h.silent (hsame.symm.trans hst)
    · exact absurd hst (Status.ne_allocating_of_next hnext)
  case listens =>
    intro hst
    rw [hsent]
    rcases hstatus with hsame | hnext
    · exact h.listens (hsame ▸ hst)
    · exact h.listens (Status.listens_of_next hnext hst)
  case last =>
    rw [hsent]
    exact h.last

/-- A process that listens is sent requests. -/
theorem Process.Written.requests (h : x.Written) (hold : x.status.Listens)
    (hnew : y.status = .ALLOCATED) {l : List Outgoing} (hl : ∀ m ∈ l, m.IsRequest)
    (hsent : y.sent = x.sent ++ l) : y.Written := by
  have hall : ∀ m ∈ y.sent, m.IsRequest := by
    intro m hm
    rw [hsent] at hm
    rcases List.mem_append.1 hm with hm | hm
    · exact h.listens hold m hm
    · exact hl m hm
  refine ⟨fun hst => ?_, fun _ => hall, fun m hm => hall m (List.dropLast_subset _ hm)⟩
  rw [hnew] at hst
  cases hst

/-- A process that is allocated is asked to swap out. -/
theorem Process.Written.swapped (h : x.Written) (hold : x.status = .ALLOCATED)
    (hnew : y.status = .SWAPPING_OUT) {msg : List Byte}
    (hsent : y.sent = x.sent ++ [.swapRequest msg]) : y.Written := by
  constructor
  case silent =>
    intro hst
    rw [hnew] at hst
    cases hst
  case listens =>
    intro hst
    rw [hnew] at hst
    rcases hst with hst | hst <;> cases hst
  case last =>
    rw [hsent, List.dropLast_concat]
    exact h.listens (.inr hold)

theorem sent_addInvocation (x : Process) (i : Invocation) :
    (x.addInvocation i).1.sent = x.sent ∨
      x.status = .ALLOCATED ∧ ∃ msg,
        (x.addInvocation i).1.sent = x.sent ++ [.invocationRequest msg i.payload] := by
  unfold Process.addInvocation
  dsimp only
  split_ifs with hstatus
  · split
    · exact .inr ⟨hstatus, _, rfl⟩
    · exact .inl rfl
  · exact .inl rfl

theorem sent_instanceConnected (x : Process) (error : Option Str) :
    (x.instanceConnected error).1.sent = x.sent ∨
      x.status = .ALLOCATED ∧ ∃ msg payload,
        (x.instanceConnected error).1.sent = x.sent ++ [.invocationRequest msg payload] := by
  unfold Process.instanceConnected
  split
  · exact .inl rfl
  · exact .inl rfl
  · exact .inl rfl
  · rename_i i hcallback
    have hadd := sent_addInvocation x i
    split
    · rename_i x' hx'
      rw [hx'] at hadd
      exact hadd.imp id fun h => ⟨h.1, h.2.imp fun _ hsent => ⟨_, hsent⟩⟩
    · rename_i x' f hx'
      rw [hx'] at hadd
      exact hadd.imp id fun h => ⟨h.1, h.2.imp fun _ hsent => ⟨_, hsent⟩⟩

theorem sent_swap (x : Process) :
    x.swap.1.sent = x.sent ∨ ∃ msg, x.swap.1.sent = x.sent ++ [.swapRequest msg] := by
  unfold Process.swap
  split
  · exact .inl rfl
  · exact .inl rfl
  · split
    · exact .inr ⟨_, rfl⟩
    · exact .inl rfl

theorem sent_connect {x : Process} (h : x.status = .ALLOCATING) (c : ConnId) :
    (x.connect c).1.sent = x.sent ++ (Process.sendInvocations x.invocations).2.1 := by
  unfold Process.connect
  rw [if_neg (not_not.2 h)]
  dsimp only
  split
  · rfl
  · rcases Process.createdCallback_changes _ none with ⟨callback, n, created, hchanges⟩
    rw [hchanges]

end Written

section Sent

variable {s t : State} {b : Backend} {e : Event} {p : ProcId}

/-- What an event writes to a process. -/
inductive Sends (x y : Process) : Prop where
  | nothing (hstatus : y.status = x.status ∨ x.status.Next y.status) (hsent : y.sent = x.sent)
  | requests (l : List Outgoing) (hold : x.status.Listens) (hnew : y.status = .ALLOCATED)
      (hl : ∀ m ∈ l, m.IsRequest) (hsent : y.sent = x.sent ++ l)
  | swapRequest (msg : List Byte) (hold : x.status = .ALLOCATED) (hnew : y.status = .SWAPPING_OUT)
      (hsent : y.sent = x.sent ++ [.swapRequest msg])

theorem written_turn (hwf : WellFormed s) (hstep : s.step b e = .ok t) (p : ProcId) :
    (p = s.nextProc ∧ (t.procs p).status = .ALLOCATING ∧ (t.procs p).sent = []) ∨
      Sends (s.procs p) (t.procs p) := by
  rcases status_turn hwf hstep p with hcreated | hstatus
  · exact .inl hcreated
  · cases turn_step hstep p with
    | same hx => exact .inr (.nothing hstatus (congrArg Process.sent hx))
    | created a name resources wait he hnew hx => exact .inl ⟨hnew, by rw [hx], by rw [hx]⟩
    | createdFor a i he hnone hnew hx => exact .inl ⟨hnew, by rw [hx], by rw [hx]⟩
    | added a i he havailable hx =>
      right
      rcases sent_addInvocation (s.procs p) i with hsent | ⟨hallocated, msg, hsent⟩
      · exact .nothing hstatus (by rw [hx, hsent])
      · have hnew : (t.procs p).status = (s.procs p).status := by
          rw [hx]
          exact Process.status_of_place (Process.place_addInvocation _ _)
        refine .requests [.invocationRequest msg i.payload] (.inr hallocated) (hnew.trans hallocated) ?_ ?_
        · simp [Outgoing.IsRequest]
        · rw [hx, hsent]
    | allocated origin he horigin hx =>
      rcases Process.createdCallback_changes (s.procs p).setHandle none with ⟨c, n, l, hchanges⟩
      right
      exact .nothing hstatus (by rw [hx, hchanges]; rfl)
    | failed origin error he horigin hx =>
      rcases Process.createdCallback_changes (s.procs p) (some error) with ⟨c, n, l, hchanges⟩
      right
      exact .nothing hstatus (by rw [hx, hchanges])
    | attached error he hconnecting hx =>
      right
      have hnew : (t.procs p).status = (s.procs p).status := by
        rw [hx]
        exact Process.status_of_place (Process.place_instanceConnected _ _)
      rcases sent_instanceConnected
        { s.procs p with connecting := (s.procs p).connecting - 1 } error with
        hsent | ⟨hallocated, msg, payload, hsent⟩
      · exact .nothing hstatus (by rw [hx, hsent])
      · refine .requests [.invocationRequest msg payload] (.inr hallocated) (hnew.trans hallocated) ?_ ?_
        · simp [Outgoing.IsRequest]
        · rw [hx, hsent]
    | connected c name he hpending hreturns hx =>
      right
      have hallocating : (s.procs p).status = .ALLOCATING := (hwf.fits (.pending name) p hpending).2.2
      refine .requests _ (.inl hallocating) ?_ (sendInvocations_requests (s.procs p).invocations) ?_
      · rw [hx]
        exact congrArg (fun place => place.2.2) (Process.place_connect hallocating c)
      · rw [hx, sent_connect hallocating]
    | finished c conn id returnCode result he hconn hcontext hx =>
      rcases Process.finishInvocation_changes (s.procs p) id returnCode result with
        ⟨l, n, responses, -, hchanges⟩
      right
      exact .nothing hstatus (by rw [hx, hchanges])
    | swapping a name path he hallocated hx =>
      right
      have hswapping : (t.procs p).status = .SWAPPING_OUT := by
        rw [hx]
        exact Process.status_of_place (Process.place_swap _)
      rcases sent_swap { s.procs p with status := .SWAPPING_OUT, swapPath := some path } with
        hsent | ⟨msg, hsent⟩
      · exact .nothing hstatus (by rw [hx, hsent])
      · exact .swapRequest msg hallocated hswapping (by rw [hx, hsent])
    | swapped hswapping hx => exact .inr (.nothing hstatus (by rw [hx]))
    | closed c conn he hconn hcontext hx =>
      right
      rcases hx with hx | hx
      · exact .nothing hstatus (by rw [hx])
      · exact .nothing hstatus (by rw [hx]; rfl)

theorem written_step (hwf : WellFormed s) (h : ∀ p, (s.procs p).Written)
    (hstep : s.step b e = .ok t) (p : ProcId) : (t.procs p).Written := by
  rcases written_turn hwf hstep p with ⟨-, hnew, hsent⟩ | hsends
  · constructor <;> simp [hsent]
  · cases hsends with
    | nothing hstatus hsent => exact (h p).quiet hstatus hsent
    | requests l hold hnew hl hsent => exact (h p).requests hold hnew hl hsent
    | swapRequest msg hold hnew hsent => exact (h p).swapped hold hnew hsent

/-- What is sent to a process that exists is not taken back, and once it does not listen
any more, nothing is added. -/
theorem sent_step (hwf : WellFormed s) (hstep : s.step b e = .ok t) (hp : p < s.nextProc) :
    (∃ more, (t.procs p).sent = (s.procs p).sent ++ more) ∧
      (¬ (s.procs p).status.Listens →
        (t.procs p).sent = (s.procs p).sent ∧ ¬ (t.procs p).status.Listens) := by
  rcases written_turn hwf hstep p with ⟨hnew, -⟩ | hsends
  · exact absurd hnew hp.ne
  · cases hsends with
    | nothing hstatus hsent =>
      refine ⟨⟨[], by rw [hsent, List.append_nil]⟩, fun hnot => ⟨hsent, fun hlistens => hnot ?_⟩⟩
      rcases hstatus with hsame | hnext
      · exact hsame ▸ hlistens
      · exact Status.listens_of_next hnext hlistens
    | requests l hold hnew hl hsent => exact ⟨⟨l, hsent⟩, fun hnot => absurd hold hnot⟩
    | swapRequest msg hold hnew hsent => exact ⟨⟨_, hsent⟩, fun hnot => absurd (.inr hold) hnot⟩

theorem written_new : (default : Process).Written where
  silent _ := rfl
  listens _ := by simp [show (default : Process).sent = [] from rfl]
  last := by simp [show (default : Process).sent = [] from rfl]

theorem written_all {es : List Event} (h : Lts.run (State.step b) {} es = .ok s) (p : ProcId) :
    (s.procs p).Written := by
  have hkeeps : ∀ s e s', (WellFormed s ∧ ∀ p, (s.procs p).Written) → s.step b e = .ok s' →
      WellFormed s' ∧ ∀ p, (s'.procs p).Written := by
    intro s e s' hs hstep
    exact ⟨wellFormed_step e hs.1 hstep, written_step hs.1 hs.2 hstep⟩
  exact (Lts.run_always hkeeps ⟨wellFormed_new, fun _ => written_new⟩ h).2 p

/-- What was sent stays sent. -/
theorem sent_run {fs : List Event} (hwf : WellFormed s) (hp : p < s.nextProc)
    (hfs : Lts.run (State.step b) s fs = .ok t) :
    ∃ more, (t.procs p).sent = (s.procs p).sent ++ more := by
  have hkeeps : ∀ u e u', (WellFormed u ∧ p < u.nextProc ∧
      ∃ more, (u.procs p).sent = (s.procs p).sent ++ more) → u.step b e = .ok u' →
      WellFormed u' ∧ p < u'.nextProc ∧ ∃ more, (u'.procs p).sent = (s.procs p).sent ++ more := by
    rintro u e u' ⟨hu, hpu, more, hmore⟩ hstep
    rcases (sent_step hu hstep hpu).1 with ⟨more', hmore'⟩
    refine ⟨wellFormed_step e hu hstep, hpu.trans_le (nextProc_le hstep), more ++ more', ?_⟩
    rw [hmore', hmore, List.append_assoc]
  exact (Lts.run_always hkeeps ⟨hwf, hp, [], by simp⟩ hfs).2.2

/-- A process that does not listen any more is sent nothing. -/
theorem sent_run_silent {fs : List Event} (hwf : WellFormed s) (hp : p < s.nextProc)
    (hnot : ¬ (s.procs p).status.Listens) (hfs : Lts.run (State.step b) s fs = .ok t) :
    (t.procs p).sent = (s.procs p).sent := by
  have hkeeps : ∀ u e u', (WellFormed u ∧ p < u.nextProc ∧ ¬ (u.procs p).status.Listens ∧
      (u.procs p).sent = (s.procs p).sent) → u.step b e = .ok u' →
      WellFormed u' ∧ p < u'.nextProc ∧ ¬ (u'.procs p).status.Listens ∧
        (u'.procs p).sent = (s.procs p).sent := by
    rintro u e u' ⟨hu, hpu, hquiet, hsame⟩ hstep
    rcases (sent_step hu hstep hpu).2 hquiet with ⟨hsent, hquiet'⟩
    exact ⟨wellFormed_step e hu hstep, hpu.trans_le (nextProc_le hstep), hquiet',
      hsent.trans hsame⟩
  exact (Lts.run_always hkeeps ⟨hwf, hp, hnot, rfl⟩ hfs).2.2.2

end Sent

/-- In every run, a process object is written nothing before it registers, then invocation
requests, and at most one request to swap, which is the last message it is ever sent: what
was written once stays, and after a swap request, or once the process is no longer allocated,
nothing follows. -/
theorem written_run {b : Backend} {es fs : List Event} {s t : State} {p : ProcId}
    (hes : Lts.run (State.step b) {} es = .ok s) (hfs : Lts.run (State.step b) s fs = .ok t)
    (hp : p < s.nextProc) :
    ((s.procs p).status = .ALLOCATING → (s.procs p).sent = []) ∧
      (∀ m ∈ (s.procs p).sent.dropLast, m.IsRequest) ∧
      (∃ more, (t.procs p).sent = (s.procs p).sent ++ more) ∧
      (((∃ m ∈ (s.procs p).sent, ¬ m.IsRequest) ∨ ¬ (s.procs p).status.Listens) →
        (t.procs p).sent = (s.procs p).sent) := by
  have hwf : WellFormed s := wellFormed_run hes
  have hwritten : (s.procs p).Written := written_all hes p
  refine ⟨hwritten.silent, hwritten.last, sent_run hwf hp hfs, ?_⟩
  intro hended
  refine sent_run_silent hwf hp ?_ hfs
  rcases hended with ⟨m, hm, hswap⟩ | hnot
  · intro hlistens
    exact hswap (hwritten.listens hlistens m hm)
  · exact hnot

/-- The process of the run above is sent one message, the request to swap, and then nothing. -/
theorem written_run_swapped : ∃ s t, Lts.run (State.step ⟨1024, 1⟩) {}
      (allocatedOnce ++ [.swapProcess 0 (str ['p']) (str ['d'])]) = .ok s ∧
    Lts.run (State.step ⟨1024, 1⟩) s [.swapConfirmation 0, .disconnected 0] = .ok t ∧
    (s.procs 0).sent.length = 1 ∧ (t.procs 0).sent = (s.procs 0).sent := by
  rcases Lts.run_test (State.step ⟨1024, 1⟩) {}
    (allocatedOnce ++ [.swapProcess 0 (str ['p']) (str ['d'])])
    (fun s => s.nextProc = 1 ∧ (s.procs 0).status = .SWAPPING_OUT ∧ (s.procs 0).sent.length = 1)
    (by decide +kernel) with ⟨s, hs, hnext, hswapping, hsent⟩
  rcases Lts.run_test (State.step ⟨1024, 1⟩) {}
    (allocatedOnce ++ [.swapProcess 0 (str ['p']) (str ['d'])] ++
      [.swapConfirmation 0, .disconnected 0])
    (fun _ => True) (by decide +kernel) with ⟨t, ht, -⟩
  rcases Lts.run_append_ok.1 ht with ⟨s', hs', hrest⟩
  obtain rfl := Except.ok.inj (hs.symm.trans hs')
  have hp : 0 < s.nextProc := by
    rw [hnext]
    exact Nat.one_pos
  have hnot : ¬ (s.procs 0).status.Listens := by
    rw [hswapping]
    rintro (h | h) <;> cases h
  exact ⟨s, t, hs, hrest, hsent, (written_run hs hrest hp).2.2.2 (.inr hnot)⟩

end Praas.ControlPlane
