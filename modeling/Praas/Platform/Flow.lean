import Praas.Process.RemotePeer
import Praas.Platform.Node

/-! # Invocations on their way through a process

Any number of requests, of whatever senders, with ids that differ: each of them waits for the
poll loop, then for a worker, runs, and is answered.

* `Flow` — where they are;
* `Flow.Moves` — what an event may do to them, and what the process answers;
* `flow_step` — every event of the process is such a move, or leaves all of them where they are;
* `Moves.jobs` — none is lost or answered twice, and each answer is the right one.
-/

namespace Praas.Platform

open Process (WorkerMessage Controller Output Env Buffer ServerCall Trigger InvocationSource)
open Process.Ipc (Text NAME_LENGTH ID_LENGTH)
open Process.Remote (Sender)
open Process.Queues (WorkerMessage.body)
open Praas.Runtime (Invoker)

/-! ## Requests -/

/-- The source of the invocations of a sender. -/
def sourceOf (d : Sender) : InvocationSource := ⟨d.type, d.name⟩

/-- A message of a sender, as the poll loop finds it. -/
def messageOf (header : List Byte) (payload : Buffer) : Sender → Process.ExternalMessage
  | .dataPlane => Process.dataplaneMessage header payload
  | .controlPlane => Process.controlplaneMessage header payload
  | .process name => Process.remoteMessage header payload name

section Senders

variable (d : Sender) (header : List Byte) (payload : Buffer)

theorem ofCall_call : ofCall (d.call header payload) = .external (messageOf header payload d) := by
  cases d <;> rfl

theorem messageOf_msg : (messageOf header payload d).msg = header := by
  cases d <;> rfl

theorem messageOf_payload : (messageOf header payload d).payload = payload := by
  cases d <;> rfl

theorem messageOf_source : (messageOf header payload d).invocationSource = sourceOf d := by
  cases d <;> rfl

theorem sourceOf_isRemote : (sourceOf d).isRemote = true := by
  cases d <;> rfl

end Senders

/-- A request, as the TCP server hands it on. -/
structure Job where
  sender : Sender
  functionName : Text NAME_LENGTH
  invocationId : Text ID_LENGTH
  payload : Buffer
  header : List Byte
  parses : Message.MessageParser.parse header = .ok (.invocationRequest header)
  named : Message.InvocationRequest.functionName header = functionName.1
  keyed : Message.InvocationRequest.invocationId header = invocationId.1
  header_length : header.length = Message.BUF_SIZE
  wellFormed : Process.Remote.WellFormed header payload
  small : payload.length < 2 ^ 31

namespace Job

def key (j : Job) : Str := j.invocationId.1

def call (j : Job) : Process.Remote.Call := j.sender.call j.header j.payload

/-- The request on the wire. -/
def frame (j : Job) : Framing.Frame Process.Remote.format where
  header := j.header
  payload := j.payload
  header_length := j.header_length
  payload_length := j.wellFormed.length_eq

theorem isRequest (j : Job) : Process.Remote.IsRequest j.header := ⟨_, j.parses⟩

/-- The invocation as it waits, and as a worker runs it. -/
def invocation (j : Job) : Process.Invocation where
  req := { invocationId := j.invocationId, functionName := j.functionName }
  payload := [j.payload]
  trigger := .direct
  active := false
  source := sourceOf j.sender

def submitted (j : Job) : Process.Invocation :=
  { j.invocation with
    req := { j.invocation.req with buffers := [toInt32 j.payload.length] }
    active := true }

/-- The invocation that the worker returns from `poll`, with its argument. -/
def running (j : Job) : Runtime.Invocation × List Buffer :=
  (⟨j.invocationId.1, j.functionName.1, Invoker.slices 0 [j.payload.length]⟩, [j.payload])

variable (p : Config) (j : Job)

/-- The controller knows the function. -/
def Known : Prop := p.functions j.functionName.1 ≠ none

/-- What the worker sends when the function has returned. -/
def finished : Request :=
  .finish j.invocationId (p.code j.functionName.1 [j.payload]).2
    (p.code j.functionName.1 [j.payload]).1

def reply : ServerCall :=
  .invocationResult j.sender.type j.sender.name j.invocationId.1
    (p.answer j.functionName.1 j.payload).1 (p.answer j.functionName.1 j.payload).2

/-- The functions that the controller knows are loaded, and their outputs are small. -/
structure Runs : Prop where
  loaded : j.Known p → p.lib.hasFunction j.functionName.1 = true
  small : (p.code j.functionName.1 [j.payload]).2.length < 2 ^ 31

variable {p j}

theorem reply_known (h : j.Known p) :
    j.reply p = .invocationResult j.sender.type j.sender.name
      j.invocationId.1 (p.code j.functionName.1 [j.payload]).1.toInt
      (p.code j.functionName.1 [j.payload]).2 := by
  rcases Option.ne_none_iff_exists'.1 h with ⟨trigger, htrigger⟩
  simp only [reply, Config.answer, htrigger]

end Job

/-! ## Where they are -/

/-- On the queue to the worker, in its function, or on the queue from the worker. -/
inductive Work where
  | sent | running | finished
deriving DecidableEq

abbrev Slot := Option (Job × Work)

namespace Slot

def down : Slot → List WorkerMessage
  | some (j, .sent) => [.invocationRequest j.submitted.req [j.payload]]
  | _ => []

def running : Slot → Option (Runtime.Invocation × List Buffer)
  | some (j, .running) => some j.running
  | _ => none

def up (p : Config) : Slot → List Request
  | some (j, .finished) => [j.finished p]
  | _ => []

end Slot

/-- The requests that wait for the poll loop, those that wait for a worker, and what each of
the workers is at. -/
structure Flow where
  inbox : List Job := []
  pending : List Job := []
  workers : List Slot

namespace Flow

def slot (f : Flow) (w : ℕ) : Slot := (f.workers[w]?).join

@[simps] def setWorker (f : Flow) (w : ℕ) (x : Slot) : Flow :=
  { f with workers := f.workers.set w x }

/-- The invocations that have been submitted to a worker. -/
def working (f : Flow) : List Job := f.workers.filterMap (Option.map Prod.fst)

def jobs (f : Flow) : List Job := f.inbox ++ (f.pending ++ f.working)

/-- There is nothing to do. -/
def idle (p : Config) : Flow := { workers := List.replicate p.functionWorkers none }

section Slots

variable {f : Flow} {w : ℕ} {x y : Slot} {j : Job} {st : Work}

theorem slot_setWorker (hw : w < f.workers.length) (x : Slot) :
    (f.setWorker w x).slot = Function.update f.slot w x := by
  funext v
  unfold slot
  rw [setWorker_workers, List.getElem?_set]
  rcases eq_or_ne w v with rfl | hne
  · simp [hw]
  · simp [hne, Function.update_of_ne hne.symm]

theorem slot_of_workers (h : f.workers[w]? = some x) : f.slot w = x := by
  unfold slot
  rw [h]
  rfl

theorem workers_of_slot (h : f.slot w = some (j, st)) : f.workers[w]? = some (some (j, st)) := by
  unfold slot at h
  cases hw : f.workers[w]? with
  | none => simp [hw] at h
  | some x =>
    rw [hw] at h
    exact congrArg some h

theorem mem_working (h : f.workers[w]? = some (some (j, st))) : j ∈ f.working :=
  List.mem_filterMap.2 ⟨_, List.mem_of_getElem? h, rfl⟩

/-- What is read off the slots changes at one worker. -/
theorem slot_comp {β : Type*} (g : Slot → β) (hw : w < f.workers.length) (x : Slot) :
    (fun v => g ((f.setWorker w x).slot v)) = Function.update (fun v => g (f.slot v)) w (g x) := by
  funext v
  rw [slot_setWorker hw]
  rcases eq_or_ne v w with rfl | hne
  · simp
  · simp [hne]

/-- What is read off the slots does not change. -/
theorem slot_comp_same {β : Type*} (g : Slot → β) (h : f.workers[w]? = some y) (x : Slot)
    (hsame : g x = g y) : (fun v => g ((f.setWorker w x).slot v)) = fun v => g (f.slot v) := by
  rw [slot_comp g (List.getElem?_eq_some_iff.1 h).1, hsame, ← slot_of_workers h]
  exact Function.update_eq_self w fun v => g (f.slot v)

theorem lt_of_workers (h : f.workers[w]? = some y) : w < f.workers.length :=
  (List.getElem?_eq_some_iff.1 h).1

/-- The invocation of one worker takes the place of another. -/
theorem working_setWorker (h : f.workers[w]? = some y) (x : Slot) :
    ((y.map Prod.fst).toList ++ (f.setWorker w x).working).Perm
      ((x.map Prod.fst).toList ++ f.working) := by
  rcases Lists.set_split h x with ⟨before, after, hsplit, hset⟩
  unfold working
  rw [setWorker_workers, hset, hsplit, List.filterMap_append, List.filterMap_append]
  have hcons : ∀ z : Slot, (z :: after).filterMap (Option.map Prod.fst) =
      (z.map Prod.fst).toList ++ after.filterMap (Option.map Prod.fst) := by
    intro z
    cases z <;> simp
  rw [hcons, hcons]
  exact List.perm_append_comm_assoc _ _ _ |>.trans <|
    (List.perm_append_comm_assoc _ _ _).append_left _ |>.trans <|
      List.perm_append_comm_assoc _ _ _

end Slots

/-! ## The controller -/

/-- The work queue and the workers of the controller; everything else is as at the start. -/
structure Represents (p : Config) (f : Flow) (c : Controller) : Prop where
  rest : c = { p.controller with workers := c.workers, workQueue := c.workQueue }
  functions : c.workQueue.functions = p.functions
  pending : c.workQueue.pendingInvocations = f.pending.map Job.key
  waiting : ∀ j ∈ f.pending, c.workQueue.activeInvocations j.key = some j.invocation
  active : ∀ j ∈ f.working, c.workQueue.activeInvocations j.key = some j.submitted
  only : ∀ key i, c.workQueue.activeInvocations key = some i →
    ∃ j ∈ f.pending ++ f.working, j.key = key
  busy : c.workers.busy = f.workers.map Option.isSome
  idle : c.workers.idleWorkers = f.workers.countP Option.isNone

theorem represents_idle (p : Config) : (idle p).Represents p p.controller where
  rest := rfl
  functions := rfl
  pending := rfl
  waiting j hj := by cases hj
  active j hj := by
    unfold working idle at hj
    rw [List.filterMap_replicate_of_none rfl] at hj
    cases hj
  only key i hi := by cases hi
  busy := by
    unfold idle
    rw [List.map_replicate]
    rfl
  idle := by
    unfold idle
    rw [List.countP_replicate]
    rfl

/-- A process that has nothing to do is as at the start. -/
theorem controller_of_idle {p : Config} {c : Controller} (h : (idle p).Represents p c) :
    c = p.controller := by
  have hfree : c.workQueue.activeInvocations = fun _ => none := by
    funext key
    cases hkey : c.workQueue.activeInvocations key with
    | none => rfl
    | some i =>
      rcases h.only key i hkey with ⟨j, hj, -⟩
      unfold working idle at hj
      rw [List.filterMap_replicate_of_none rfl] at hj
      cases hj
  have hqueue : c.workQueue = Process.WorkQueue.new p.functions := by
    rcases hq : c.workQueue with ⟨pending, active, functions⟩
    have hpending := h.pending
    have hfunctions := h.functions
    rw [hq] at hpending hfunctions hfree
    dsimp only at hpending hfunctions hfree
    rw [hpending, hfunctions, hfree]
    rfl
  have hworkers : c.workers = Process.Workers.new p.functionWorkers := by
    rcases hw : c.workers with ⟨busy, idleWorkers⟩
    have hbusy := h.busy
    have hidle := h.idle
    rw [hw] at hbusy hidle
    dsimp only at hbusy hidle
    rw [hbusy, hidle]
    unfold idle
    rw [List.map_replicate, List.countP_replicate]
    rfl
  rw [h.rest, hqueue, hworkers]
  rfl

section Handlers

variable {p : Config} {f : Flow} {c : Controller} {j : Job}

/-- An id that is not in use. -/
theorem Represents.free (h : f.Represents p c)
    (hnew : ∀ i ∈ f.pending ++ f.working, i.key ≠ j.key) :
    c.workQueue.activeInvocations j.key = none := by
  cases hkey : c.workQueue.activeInvocations j.key with
  | none => rfl
  | some i =>
    rcases h.only _ _ hkey with ⟨i, hi, hsame⟩
    exact absurd hsame (hnew i hi)

/-- The request reaches the work queue. -/
theorem handle_message (c : Controller) (j : Job) :
    c.handle (.external (messageOf j.header j.payload j.sender)) =
      c.submitPayload j.functionName.1 j.invocationId.1 j.payload (sourceOf j.sender) := by
  simp only [Controller.handle, Controller.processExternalMessage, messageOf_msg, j.parses,
    messageOf_payload, messageOf_source]
  show c.submitPayload _ _ _ _ = _
  rw [j.named, j.keyed]

/-- The request of a function that is not known is rejected. -/
theorem handle_unknown (h : f.Represents p c)
    (hnew : ∀ i ∈ f.pending ++ f.working, i.key ≠ j.key) (hunknown : ¬ j.Known p) :
    c.handle (.external (messageOf j.header j.payload j.sender)) = .ok (c, [.server (j.reply p)]) := by
  have hfree : c.workQueue.activeInvocations j.invocationId.1 = none := h.free hnew
  have hnone : p.functions j.functionName.1 = none := not_not.1 hunknown
  rw [handle_message]
  unfold Controller.submitPayload Process.WorkQueue.addPayload Process.WorkQueue.create
  rw [hfree]
  dsimp only
  rw [h.functions, hnone]
  simp only [Job.reply, Config.answer, hnone, bind, Except.bind,
    Controller.processInvocationResult, if_pos (sourceOf_isRemote j.sender)]
  rfl

/-- That of a known one is queued. -/
theorem handle_known (h : f.Represents p c)
    (hnew : ∀ i ∈ f.pending ++ f.working, i.key ≠ j.key) (hknown : j.Known p) :
    c.handle (.external (messageOf j.header j.payload j.sender)) =
      .ok (c.setQueue (c.workQueue.enqueue j.key j.invocation), []) := by
  have hfree : c.workQueue.activeInvocations j.invocationId.1 = none := h.free hnew
  rcases Option.ne_none_iff_exists'.1 hknown with ⟨⟨⟩, htrigger⟩
  rw [handle_message]
  unfold Controller.submitPayload Process.WorkQueue.addPayload Process.WorkQueue.create
  rw [hfree]
  dsimp only
  rw [h.functions, htrigger]
  simp only [Process.Invocation.new_ok, bind, Except.bind, Option.isSome_none]
  rfl

/-- The first idle worker gets the invocation that has waited longest. -/
theorem schedule_first (h : f.Represents p c) {rest : List Job} (hpending : f.pending = j :: rest)
    (hidle : none ∈ f.workers) :
    ∃ w, f.workers[w]? = some none ∧ (∀ v < w, f.workers[v]? ≠ some none) ∧
      c.schedule = .ok
        ({ c with
            workers := ⟨c.workers.busy.set w true, c.workers.idleWorkers - 1⟩
            workQueue := { c.workQueue with
              pendingInvocations := rest.map Job.key
              activeInvocations :=
                Function.update c.workQueue.activeInvocations j.key (some j.submitted) } },
          [.toWorker w (.invocationRequest j.submitted.req [j.payload])]) := by
  have hcount : 0 < c.workers.idleWorkers := by
    rw [h.idle]
    exact List.countP_pos_iff.2 ⟨none, hidle, rfl⟩
  have hhas : c.workers.hasIdleWorkers = true := decide_eq_true hcount
  have hfound : c.workQueue.activeInvocations j.key = some j.invocation :=
    h.waiting j (by rw [hpending]; exact List.mem_cons_self)
  have hqueue : c.workQueue.pendingInvocations = j.key :: rest.map Job.key := by
    rw [h.pending, hpending, List.map_cons]
  have hnext := Process.Dispatch.next_cons hqueue (Process.Dispatch.ready_of_some hfound)
  -- the counter promises a worker, and the flags show which
  have hsome : (c.workers.busy.findIdx? (! ·)).isSome := by
    rw [h.busy, List.findIdx?_isSome, List.any_map, List.any_eq_true]
    exact ⟨none, hidle, rfl⟩
  rcases Option.isSome_iff_exists.1 hsome with ⟨w, hw⟩
  have hget : c.workers.getIdleWorker = some w := by
    unfold Process.Workers.getIdleWorker
    rw [if_neg hcount.ne', hw]
  have hbuffers : j.invocation.req.setBuffers (j.invocation.payload.map List.length) =
      .ok j.submitted.req :=
    Process.Ipc.InvocationRequest.setBuffers_ok
      (show 1 ≤ Process.Ipc.InvocationRequest.TABLE_LENGTH by decide)
  have hsubmit : c.workers.submit j.invocation =
      .ok (⟨c.workers.busy.set w true, c.workers.idleWorkers - 1⟩, j.submitted, w) := by
    unfold Process.Workers.submit
    rw [if_pos hhas, hbuffers, hget]
    rfl
  refine ⟨w, ?_, ?_, ?_⟩
  · have hfree := Process.Workers.getIdleWorker_some hget
    rw [h.busy, List.getElem?_map, Option.map_eq_some_iff] at hfree
    rcases hfree with ⟨x, hx, hnone⟩
    rw [hx, Option.isSome_eq_false_iff.1 hnone |> Option.isNone_iff_eq_none.1]
  · intro v hv hfree
    rcases List.findIdx?_eq_some_iff_getElem.1 hw with ⟨hlt, -, hbefore⟩
    have hbusy := hbefore v hv
    have hflag : c.workers.busy[v]? = some false := by
      rw [h.busy, List.getElem?_map, hfree]
      rfl
    rw [List.getElem?_eq_getElem (hv.trans hlt)] at hflag
    rw [Option.some.inj hflag] at hbusy
    exact hbusy rfl
  · unfold Controller.schedule
    rw [if_pos hhas, hnext]
    dsimp only
    rw [hfound]
    dsimp only
    rw [hsubmit]
    rfl

/-- There is no invocation, or no worker for it. -/
theorem schedule_nothing (h : f.Represents p c) (hnothing : f.pending = [] ∨ none ∉ f.workers) :
    c.schedule = .ok (c, []) := by
  unfold Controller.schedule
  rcases hnothing with hpending | hidle
  · split_ifs
    · rw [Process.Dispatch.next_nil (h.pending.trans (by rw [hpending]; rfl))]
    · rfl
  · have hzero : c.workers.idleWorkers = 0 := by
      rw [h.idle, List.countP_eq_zero]
      intro x hx hnone
      obtain rfl := Option.isNone_iff_eq_none.1 hnone
      exact hidle hx
    rw [if_neg (by simp [Process.Workers.hasIdleWorkers, hzero])]

/-- The result of a worker is the answer. -/
theorem handle_result (h : f.Represents p c) (hworking : j ∈ f.working) (hknown : j.Known p)
    (w : ℕ) (env : Env) :
    c.handle (.internal w (j.finished p).message (j.finished p).payload env) =
      .ok ({ c with
          workers := c.workers.finish w
          workQueue := { c.workQueue with
            activeInvocations := Function.update c.workQueue.activeInvocations j.key none } },
        [.server (j.reply p)]) := by
  have hfinish := Process.WorkQueue.finish_active (h.active j hworking) rfl
  rw [Job.reply_known hknown]
  show c.processWorkerResult w j.key (p.code j.functionName.1 [j.payload]).1.toInt
    (p.code j.functionName.1 [j.payload]).2 = _
  unfold Controller.processWorkerResult Controller.processInvocationResult
  rw [hfinish]
  dsimp only
  rw [if_pos (show j.submitted.source.isRemote = true from sourceOf_isRemote j.sender)]
  rfl

end Handlers

/-! ## How they move -/

section Workers

variable {f : Flow} {w : ℕ} {j : Job} {st st' : Work}

theorem working_submitted (h : f.workers[w]? = some none) (j : Job) (st : Work) :
    (f.setWorker w (some (j, st))).working.Perm (j :: f.working) := by
  simpa using working_setWorker h (some (j, st))

theorem working_changed (h : f.workers[w]? = some (some (j, st))) (st' : Work) :
    (f.setWorker w (some (j, st'))).working.Perm f.working := by
  simpa using working_setWorker h (some (j, st'))

theorem working_finished (h : f.workers[w]? = some (some (j, st))) :
    (j :: (f.setWorker w none).working).Perm f.working := by
  simpa using working_setWorker h none

end Workers

section Changes

variable {p : Config} {f : Flow} {c : Controller} {j : Job} {w : ℕ} {st st' : Work}

/-- A new invocation waits behind the others. -/
theorem Represents.queued (h : f.Represents p c)
    (hnew : ∀ i ∈ f.pending ++ f.working, i.key ≠ j.key) (inbox : List Job) :
    ({ f with inbox := inbox, pending := f.pending ++ [j] } : Flow).Represents p
      (c.setQueue (c.workQueue.enqueue j.key j.invocation)) where
  rest := by
    rw [h.rest]
    rfl
  functions := h.functions
  pending := by
    show c.workQueue.pendingInvocations ++ [j.key] = _
    rw [h.pending, List.map_append]
    rfl
  waiting i hi := by
    show Function.update _ j.key _ i.key = _
    rcases List.mem_append.1 hi with hi | hi
    · rw [Function.update_of_ne (hnew i (List.mem_append_left _ hi))]
      exact h.waiting i hi
    · obtain rfl := List.mem_singleton.1 hi
      exact Function.update_self ..
  active i hi := by
    show Function.update _ j.key _ i.key = _
    rw [Function.update_of_ne (hnew i (List.mem_append_right _ hi))]
    exact h.active i hi
  only key i hi := by
    change Function.update _ j.key _ key = _ at hi
    rcases eq_or_ne key j.key with rfl | hne
    · exact ⟨j, by simp, rfl⟩
    · rw [Function.update_of_ne hne] at hi
      rcases h.only key i hi with ⟨k, hk, hkey⟩
      refine ⟨k, ?_, hkey⟩
      show k ∈ (f.pending ++ [j]) ++ f.working
      rcases List.mem_append.1 hk with hk | hk
      · exact List.mem_append_left _ (List.mem_append_left _ hk)
      · exact List.mem_append_right _ hk
  busy := h.busy
  idle := h.idle

/-- The first invocation that waits goes to a worker. -/
theorem Represents.submitted (h : f.Represents p c) {rest : List Job}
    (hpending : f.pending = j :: rest) (hidle : f.workers[w]? = some none)
    (hids : ((f.pending ++ f.working).map Job.key).Nodup) :
    (({ f with pending := rest } : Flow).setWorker w (some (j, .sent))).Represents p
      { c with
        workers := ⟨c.workers.busy.set w true, c.workers.idleWorkers - 1⟩
        workQueue := { c.workQueue with
          pendingInvocations := rest.map Job.key
          activeInvocations :=
            Function.update c.workQueue.activeInvocations j.key (some j.submitted) } } := by
  have hworking : (({ f with pending := rest } : Flow).setWorker w (some (j, .sent))).working.Perm
      (j :: f.working) := working_submitted (f := { f with pending := rest }) hidle j .sent
  rw [hpending, List.cons_append, List.map_cons, List.nodup_cons] at hids
  have hnew : ∀ i ∈ rest ++ f.working, i.key ≠ j.key := by
    intro i hi hsame
    exact hids.1 (hsame ▸ List.mem_map_of_mem hi)
  rcases Lists.set_split hidle (some (j, .sent)) with ⟨before, after, hsplit, hset⟩
  refine ⟨?_, h.functions, rfl, ?_, ?_, ?_, ?_, ?_⟩
  · rw [h.rest]
  · intro i hi
    show Function.update _ j.key _ i.key = _
    rw [Function.update_of_ne (hnew i (List.mem_append_left _ hi))]
    exact h.waiting i (hpending ▸ List.mem_cons_of_mem _ hi)
  · intro i hi
    show Function.update _ j.key _ i.key = _
    rcases List.mem_cons.1 (hworking.mem_iff.1 hi) with rfl | hi
    · exact Function.update_self ..
    · rw [Function.update_of_ne (hnew i (List.mem_append_right _ hi))]
      exact h.active i hi
  · intro key i hi
    change Function.update _ j.key _ key = _ at hi
    rcases eq_or_ne key j.key with rfl | hne
    · exact ⟨j, List.mem_append_right _ (hworking.mem_iff.2 List.mem_cons_self), rfl⟩
    · rw [Function.update_of_ne hne] at hi
      rcases h.only key i hi with ⟨k, hk, rfl⟩
      refine ⟨k, ?_, rfl⟩
      rw [hpending, List.cons_append, List.mem_cons] at hk
      rcases List.mem_append.1 (hk.resolve_left fun hkj => hne (congrArg Job.key hkj)) with hk | hk
      · exact List.mem_append_left _ hk
      · exact List.mem_append_right _ (hworking.mem_iff.2 (List.mem_cons_of_mem _ hk))
  · show c.workers.busy.set w true = (f.workers.set w (some (j, .sent))).map Option.isSome
    rw [h.busy, List.map_set]
    rfl
  · show c.workers.idleWorkers - 1 = (f.workers.set w (some (j, .sent))).countP Option.isNone
    rw [h.idle, hset, hsplit]
    simp only [List.countP_append, List.countP_cons]
    simp

/-- The worker goes on with its invocation. -/
theorem Represents.changed (h : f.Represents p c)
    (hslot : f.workers[w]? = some (some (j, st))) :
    (f.setWorker w (some (j, st'))).Represents p c := by
  have hworking := working_changed hslot st'
  rcases Lists.set_split hslot (some (j, st')) with ⟨before, after, hsplit, hset⟩
  refine ⟨h.rest, h.functions, h.pending, h.waiting, ?_, ?_, ?_, ?_⟩
  · exact fun i hi => h.active i (hworking.mem_iff.1 hi)
  · intro key i hi
    rcases h.only key i hi with ⟨k, hk, hkey⟩
    refine ⟨k, ?_, hkey⟩
    rcases List.mem_append.1 hk with hk | hk
    · exact List.mem_append_left _ hk
    · exact List.mem_append_right _ (hworking.mem_iff.2 hk)
  · rw [h.busy, setWorker_workers, hset, hsplit]
    simp
  · rw [h.idle, setWorker_workers, hset, hsplit]
    simp only [List.countP_append, List.countP_cons]
    simp

/-- The worker is free again. -/
theorem Represents.finished (h : f.Represents p c)
    (hslot : f.workers[w]? = some (some (j, st)))
    (hids : ((f.pending ++ f.working).map Job.key).Nodup) :
    (f.setWorker w none).Represents p
      { c with
        workers := c.workers.finish w
        workQueue := { c.workQueue with
          activeInvocations := Function.update c.workQueue.activeInvocations j.key none } } := by
  have hworking := working_finished hslot
  have hperm : (j :: (f.pending ++ (f.setWorker w none).working)).Perm (f.pending ++ f.working) :=
    List.perm_middle.symm.trans (hworking.append_left _)
  rw [((hperm.map Job.key).nodup_iff).symm, List.map_cons, List.nodup_cons] at hids
  have hnew : ∀ i ∈ f.pending ++ (f.setWorker w none).working, i.key ≠ j.key := by
    intro i hi hsame
    exact hids.1 (hsame ▸ List.mem_map_of_mem hi)
  rcases Lists.set_split hslot none with ⟨before, after, hsplit, hset⟩
  refine ⟨?_, h.functions, h.pending, ?_, ?_, ?_, ?_, ?_⟩
  · rw [h.rest]
  · intro i hi
    show Function.update _ j.key _ i.key = _
    rw [Function.update_of_ne (hnew i (List.mem_append_left _ hi))]
    exact h.waiting i hi
  · intro i hi
    show Function.update _ j.key _ i.key = _
    rw [Function.update_of_ne (hnew i (List.mem_append_right _ hi))]
    exact h.active i (hworking.mem_iff.1 (List.mem_cons_of_mem _ hi))
  · intro key i hi
    change Function.update _ j.key _ key = _ at hi
    rcases eq_or_ne key j.key with rfl | hne
    · rw [Function.update_self] at hi
      cases hi
    · rw [Function.update_of_ne hne] at hi
      rcases h.only key i hi with ⟨k, hk, rfl⟩
      refine ⟨k, ?_, rfl⟩
      exact (List.mem_cons.1 (hperm.mem_iff.2 hk)).resolve_left fun hkj =>
        hne (congrArg Job.key hkj)
  · show c.workers.busy.set w false = (f.workers.set w none).map Option.isSome
    rw [h.busy, List.map_set]
    rfl
  · show c.workers.idleWorkers + 1 = (f.workers.set w none).countP Option.isNone
    rw [h.idle, hset, hsplit]
    simp only [List.countP_append, List.countP_cons]
    simp
    omega

end Changes

/-! ## What an event does to them -/

/-- An event that does something, and what the process answers. -/
inductive Moves (p : Config) (f : Flow) : Node.Event → Flow → List ServerCall → Prop
  | queued (j : Job) (rest : List Job) (inbox : f.inbox = j :: rest) (known : j.Known p) :
      Moves p f .external { f with inbox := rest, pending := f.pending ++ [j] } []
  | rejected (j : Job) (rest : List Job) (inbox : f.inbox = j :: rest) (unknown : ¬ j.Known p) :
      Moves p f .external { f with inbox := rest } [j.reply p]
  | submitted (j : Job) (rest : List Job) (w : ℕ) (pending : f.pending = j :: rest)
      (idle : f.workers[w]? = some none) (first : ∀ v < w, f.workers[v]? ≠ some none) :
      Moves p f .schedule (({ f with pending := rest } : Flow).setWorker w (some (j, .sent))) []
  | taken (j : Job) (w : ℕ) (slot : f.workers[w]? = some (some (j, .sent))) :
      Moves p f (.worker w) (f.setWorker w (some (j, .running))) []
  | returned (j : Job) (w : ℕ) (slot : f.workers[w]? = some (some (j, .running))) :
      Moves p f (.worker w) (f.setWorker w (some (j, .finished))) []
  | answered (j : Job) (w ready : ℕ) (env : Env)
      (slot : f.workers[w]? = some (some (j, .finished))) :
      Moves p f (.receive w ready env) (f.setWorker w none) [j.reply p]

/-- **None is lost.** What is answered is no longer there, and the answer is the right one. -/
theorem Moves.jobs {p : Config} {f f' : Flow} {e : Node.Event} {calls : List ServerCall}
    (h : f.Moves p e f' calls) :
    ∃ done : List Job, calls = done.map (Job.reply p) ∧ f.jobs.Perm (done ++ f'.jobs) := by
  cases h with
  | queued j rest hinbox known =>
    refine ⟨[], rfl, ?_⟩
    show (f.inbox ++ (f.pending ++ f.working)).Perm (rest ++ ((f.pending ++ [j]) ++ f.working))
    rw [hinbox, List.append_assoc f.pending]
    exact List.perm_middle.symm.trans (List.perm_middle.symm.append_left rest)
  | rejected j rest hinbox unknown =>
    refine ⟨[j], rfl, ?_⟩
    show (f.inbox ++ (f.pending ++ f.working)).Perm (j :: (rest ++ (f.pending ++ f.working)))
    rw [hinbox]
    exact .refl _
  | submitted j rest w hpending hidle first =>
    refine ⟨[], rfl, ?_⟩
    have hworking := working_submitted (f := { f with pending := rest }) hidle j .sent
    simp only [Flow.jobs, hpending, List.nil_append]
    refine List.Perm.append_left _ ?_
    exact (List.perm_middle.symm.trans (hworking.symm.append_left rest))
  | taken j w hslot =>
    exact ⟨[], rfl, ((working_changed hslot _).symm.append_left _).append_left _⟩
  | returned j w hslot =>
    exact ⟨[], rfl, ((working_changed hslot _).symm.append_left _).append_left _⟩
  | answered j w ready env hslot =>
    refine ⟨[j], rfl, ?_⟩
    have hworking := (working_finished hslot).symm
    simp only [Flow.jobs, List.singleton_append]
    refine ((hworking.append_left f.pending).append_left f.inbox).trans ?_
    rw [← List.append_assoc, ← List.append_assoc]
    exact List.perm_middle

/-- The event that brings one of them on. -/
def Awaits (f : Flow) (n : Node) : Node.Event → Prop
  | .external => f.inbox ≠ []
  | .schedule => f.pending ≠ [] ∧ none ∈ f.workers
  | .receive w ready _ => (∃ j, f.workers[w]? = some (some (j, .finished))) ∧
      (n.process.worker w).up.queue.length ≤ ready
  | .worker w => ∃ j st, f.workers[w]? = some (some (j, st)) ∧ st ≠ .finished

/-- The process with these invocations under way. -/
structure Holds (p : Config) (f : Flow) (n : Node) : Prop where
  looks : ∃ c, f.Represents p c ∧ Looks p n c (f.inbox.map Job.call)
    (fun w => (f.slot w).up p) (fun w => (f.slot w).down) fun w => (f.slot w).running
  ids : (f.jobs.map Job.key).Nodup
  known : ∀ j ∈ f.pending ++ f.working, j.Known p

/-- The ids still differ, and those that wait or run are of known functions. -/
theorem Moves.holds {p : Config} {f f' : Flow} {n n' : Node} {e : Node.Event}
    {calls : List ServerCall} (h : f.Holds p n) (hmoves : f.Moves p e f' calls)
    (hlooks : ∃ c, f'.Represents p c ∧ Looks p n' c (f'.inbox.map Job.call)
      (fun w => (f'.slot w).up p) (fun w => (f'.slot w).down) fun w => (f'.slot w).running) :
    f'.Holds p n' where
  looks := hlooks
  ids := by
    rcases hmoves.jobs with ⟨done, -, hperm⟩
    have hids := ((hperm.map Job.key).nodup_iff).1 h.ids
    rw [List.map_append] at hids
    exact hids.of_append_right
  known := by
    cases hmoves with
    | queued j rest hinbox known =>
      intro i hi
      rcases List.mem_append.1 hi with hi | hi
      · rcases List.mem_append.1 hi with hi | hi
        · exact h.known i (List.mem_append_left _ hi)
        · obtain rfl := List.mem_singleton.1 hi
          exact known
      · exact h.known i (List.mem_append_right _ hi)
    | rejected j rest hinbox unknown => exact h.known
    | submitted j rest w hpending hidle first =>
      have hworking := working_submitted (f := { f with pending := rest }) hidle j .sent
      intro i hi
      rcases List.mem_append.1 hi with hi | hi
      · exact h.known i (List.mem_append_left _ (hpending ▸ List.mem_cons_of_mem _ hi))
      · rcases List.mem_cons.1 (hworking.mem_iff.1 hi) with rfl | hi
        · exact h.known i (List.mem_append_left _ (hpending ▸ List.mem_cons_self))
        · exact h.known i (List.mem_append_right _ hi)
    | taken j w hslot =>
      intro i hi
      exact h.known i (((working_changed hslot _).append_left f.pending).mem_iff.1 hi)
    | returned j w hslot =>
      intro i hi
      exact h.known i (((working_changed hslot _).append_left f.pending).mem_iff.1 hi)
    | answered j w ready env hslot =>
      intro i hi
      refine h.known i ?_
      rcases List.mem_append.1 hi with hi | hi
      · exact List.mem_append_left _ hi
      · exact List.mem_append_right _
          ((working_finished hslot).mem_iff.1 (List.mem_cons_of_mem _ hi))

/-- What became of an event. -/
def Steps (p : Config) (f : Flow) (n : Node) (e : Node.Event) : Prop :=
  ∃ n' calls, n.step p e = .ok (n', calls) ∧
    ((¬ f.Awaits n e ∧ calls = [] ∧ f.Holds p n') ∨
      ∃ f', f.Moves p e f' calls ∧ f'.Holds p n')

section Steps

variable {p : Config} {f : Flow} {n : Node}

/-- The poll loop takes the next request. -/
theorem external_step (h : f.Holds p n) : f.Steps p n .external := by
  rcases h.looks with ⟨c, hrep, hlooks⟩
  cases hinbox : f.inbox with
  | nil =>
    rw [hinbox] at hlooks
    exact ⟨n, [], looks_external_empty hlooks, Or.inl ⟨fun hne => hne hinbox, rfl, h⟩⟩
  | cons j rest =>
    have hids := h.ids
    rw [jobs, hinbox, List.cons_append, List.map_cons, List.nodup_cons] at hids
    have hnew : ∀ i ∈ f.pending ++ f.working, i.key ≠ j.key := by
      intro i hi hsame
      exact hids.1 (hsame ▸ List.mem_map_of_mem (List.mem_append_right _ hi))
    have hfetch : n.process.fetch p.size (ofCall j.call) =
        .ok (n.process, some (.external (messageOf j.header j.payload j.sender))) := by
      unfold Job.call
      rw [ofCall_call]
      rfl
    rw [hinbox] at hlooks
    by_cases hknown : j.Known p
    · rcases looks_external hlooks hfetch trivial (handle_known hrep hnew hknown) (by simp) with
        ⟨n', hn', hlooks'⟩
      have hmoves := Moves.queued j rest hinbox hknown
      refine ⟨n', [], hn', Or.inr ⟨_, hmoves, hmoves.holds h ⟨_, hrep.queued hnew rest, ?_⟩⟩⟩
      exact looks_unsent hlooks' fun _ => rfl
    · rcases looks_external hlooks hfetch trivial (handle_unknown hrep hnew hknown)
        (by simp [Small]) with ⟨n', hn', hlooks'⟩
      have hmoves := Moves.rejected j rest hinbox hknown
      have hsame : ({ f with inbox := rest } : Flow).Represents p c :=
        ⟨hrep.rest, hrep.functions, hrep.pending, hrep.waiting, hrep.active, hrep.only, hrep.busy,
          hrep.idle⟩
      refine ⟨n', [j.reply p], hn', Or.inr ⟨_, hmoves, hmoves.holds h ⟨c, hsame, ?_⟩⟩⟩
      exact looks_unsent hlooks' fun _ => rfl

/-- The poll loop submits an invocation, if there are one and a worker. -/
theorem schedule_step (h : f.Holds p n) : f.Steps p n .schedule := by
  rcases h.looks with ⟨c, hrep, hlooks⟩
  by_cases hnothing : f.pending = [] ∨ none ∉ f.workers
  · rcases looks_input (e := .schedule) (i := .schedule) hlooks rfl trivial
      (schedule_nothing hrep hnothing) (by simp) with ⟨s, hs, hlooks'⟩
    refine ⟨_, [], hs, Or.inl ⟨?_, rfl, ⟨c, hrep, looks_unsent hlooks' fun _ => rfl⟩, h.ids,
      h.known⟩⟩
    rintro ⟨hpending, hidle⟩
    rcases hnothing with hnil | hbusy
    · exact hpending hnil
    · exact hbusy hidle
  · rw [not_or, not_not] at hnothing
    rcases hnothing with ⟨hne, hidle⟩
    rcases List.exists_cons_of_ne_nil hne with ⟨j, rest, hpending⟩
    rcases schedule_first hrep hpending hidle with ⟨w, hw, hfirst, hschedule⟩
    have hsmall : ∀ o ∈ [Output.toWorker w (.invocationRequest j.submitted.req [j.payload])],
        Small p.serialize o := by
      intro o ho
      obtain rfl := List.mem_singleton.1 ho
      simpa [Small, WorkerMessage.body, Process.Ipc.Body.payload] using j.small
    rcases looks_input (e := .schedule) (i := .schedule) hlooks rfl trivial hschedule hsmall with
      ⟨s, hs, hlooks'⟩
    have hids := h.ids
    rw [jobs, List.map_append] at hids
    have hmoves := Moves.submitted (p := p) j rest w hpending hw hfirst
    refine ⟨_, [], hs, Or.inr ⟨_, hmoves, hmoves.holds h
      ⟨_, hrep.submitted hpending hw hids.of_append_right, ?_⟩⟩⟩
    have hw' : ({ f with pending := rest } : Flow).workers[w]? = some none := hw
    rw [slot_comp_same (Slot.up p) hw' (some (j, .sent)) rfl,
      slot_comp_same Slot.running hw' (some (j, .sent)) rfl,
      slot_comp Slot.down (lt_of_workers hw')]
    refine ⟨?_, hlooks'.inbox, hlooks'.running, hlooks'.ended⟩
    rcases hlooks'.plain with ⟨t, hrefines, hctl, hup, hdown⟩
    refine ⟨t, hrefines, hctl, hup, hdown.trans (funext fun v => ?_)⟩
    rcases eq_or_ne v w with rfl | hne
    · rw [Function.update_self, slot_of_workers hw]
      simp [sentTo, Slot.down]
    · rw [Function.update_of_ne hne]
      simp [sentTo, hne.symm, slot]

/-- The poll loop reads the queue from a worker. -/
theorem receive_step (h : f.Holds p n) (w ready : ℕ) (env : Env) :
    f.Steps p n (.receive w ready env) := by
  rcases h.looks with ⟨c, hrep, hlooks⟩
  by_cases hfinished : ∃ j, f.workers[w]? = some (some (j, .finished))
  · rcases hfinished with ⟨j, hslot⟩
    have hup : (f.slot w).up p = [j.finished p] := by rw [slot_of_workers hslot]; rfl
    have hworking := mem_working hslot
    have hknown := h.known j (List.mem_append_right _ hworking)
    rcases looks_receive hlooks hup ready (handle_result hrep hworking hknown w env)
      (by simp [Small]) with ⟨s, calls, hs, ⟨hcalls, hready, hlooks'⟩ | ⟨hcalls, hlooks'⟩⟩
    · refine ⟨_, calls, hs, Or.inl ⟨?_, hcalls, ⟨c, hrep, hlooks'⟩, h.ids, h.known⟩⟩
      rintro ⟨-, hle⟩
      exact absurd hready (not_lt.2 hle)
    · obtain rfl : calls = [j.reply p] := hcalls
      have hids := h.ids
      rw [jobs, List.map_append] at hids
      have hmoves := Moves.answered (p := p) j w ready env hslot
      refine ⟨_, _, hs, Or.inr ⟨_, hmoves, hmoves.holds h
        ⟨_, hrep.finished hslot hids.of_append_right, ?_⟩⟩⟩
      rw [slot_comp (Slot.up p) (lt_of_workers hslot), slot_comp_same Slot.running hslot none rfl,
        slot_comp_same Slot.down hslot none rfl]
      exact looks_unsent hlooks' fun _ => rfl
  · have hempty : (f.slot w).up p = [] := by
      cases hslot : f.slot w with
      | none => rfl
      | some x =>
        rcases x with ⟨j, st⟩
        cases st with
        | finished => exact absurd ⟨j, workers_of_slot hslot⟩ hfinished
        | sent => rfl
        | running => rfl
    rcases looks_receive_empty hlooks hempty ready env with ⟨s, hs, hlooks'⟩
    exact ⟨_, [], hs, Or.inl ⟨fun hawaits => hfinished hawaits.1, rfl, ⟨c, hrep, hlooks'⟩, h.ids,
      h.known⟩⟩

/-- The worker takes the request off its queue. -/
theorem taken_step (h : f.Holds p n) {w : ℕ} {j : Job}
    (hslot : f.workers[w]? = some (some (j, .sent))) : f.Steps p n (.worker w) := by
  rcases h.looks with ⟨c, hrep, hlooks⟩
  have hdown : (f.slot w).down = [.invocationRequest j.submitted.req [j.payload]] := by
    rw [slot_of_workers hslot]
    rfl
  have hrunning : (f.slot w).running = none := by rw [slot_of_workers hslot]; rfl
  rcases looks_poll hlooks hdown hrunning with ⟨s, header, payload, ⟨hnames, rfl⟩, hwork, hlooks'⟩
  have hsmall : [j.payload].flatten.length < 2 ^ 31 := by
    rw [List.flatten_singleton]
    exact j.small
  have hread := Runtime.Arguments.handle_names hnames hsmall (n.executor w).application
  have hbytes : (Invoker.slices 0 [j.payload.length]).map
      (Runtime.Arguments.bytes [j.payload].flatten) = [j.payload] := by
    refine (Runtime.Arguments.bytes_slices [] [j.payload] ?_).1
    rw [List.length_nil]
    omega
  have hhandled : Node.handled (n.executor w) header [j.payload].flatten =
      .ok { n.executor w with running := some j.running } := by
    unfold Node.handled
    rw [hread]
    show Except.ok (Executor.mk (some (j.running.1,
      (Invoker.slices 0 [j.payload.length]).map (Runtime.Arguments.bytes [j.payload].flatten)))
      (n.executor w).application (n.executor w).ended) = _
    rw [hbytes]
    rfl
  rw [hhandled] at hwork
  have hmoves := Moves.taken (p := p) j w hslot
  refine ⟨_, [], hwork, Or.inr ⟨_, hmoves, hmoves.holds h ⟨c, hrep.changed hslot, ?_⟩⟩⟩
  rw [slot_comp_same (Slot.up p) hslot (some (j, .running)) rfl,
    slot_comp Slot.down (lt_of_workers hslot), slot_comp Slot.running (lt_of_workers hslot)]
  exact hlooks' _ (hlooks.ended w)

/-- The function returns. -/
theorem returned_step (h : f.Holds p n) {w : ℕ} {j : Job}
    (hslot : f.workers[w]? = some (some (j, .running))) (hruns : j.Runs p) :
    f.Steps p n (.worker w) := by
  rcases h.looks with ⟨c, hrep, hlooks⟩
  have hknown := h.known j (List.mem_append_right _ (mem_working hslot))
  have hrunning : (f.slot w).running = some j.running := by rw [slot_of_workers hslot]; rfl
  rcases looks_finish hlooks hrunning (hruns.loaded hknown) j.invocationId.2 hruns.small with
    ⟨n', hn', hlooks'⟩
  have hmoves := Moves.returned (p := p) j w hslot
  refine ⟨n', [], hn', Or.inr ⟨_, hmoves, hmoves.holds h ⟨c, hrep.changed hslot, ?_⟩⟩⟩
  rw [slot_comp (Slot.up p) (lt_of_workers hslot),
    slot_comp_same Slot.down hslot (some (j, .finished)) rfl,
    slot_comp Slot.running (lt_of_workers hslot)]
  rw [slot_of_workers hslot] at hlooks'
  exact hlooks'

/-- The loop of a worker goes on. -/
theorem worker_step (h : f.Holds p n) (hruns : ∀ j ∈ f.jobs, j.Runs p) (w : ℕ) :
    f.Steps p n (.worker w) := by
  by_cases hwork : ∃ j st, f.workers[w]? = some (some (j, st)) ∧ st ≠ .finished
  · rcases hwork with ⟨j, st, hslot, hst⟩
    cases st with
    | sent => exact taken_step h hslot
    | running =>
      have hjob : j ∈ f.jobs :=
        List.mem_append_right _ (List.mem_append_right _ (mem_working hslot))
      exact returned_step h hslot (hruns j hjob)
    | finished => exact absurd rfl hst
  · rcases h.looks with ⟨c, hrep, hlooks⟩
    have hwaits : (f.slot w).down = [] ∧ (f.slot w).running = none := by
      cases hslot : f.slot w with
      | none => exact ⟨rfl, rfl⟩
      | some x =>
        rcases x with ⟨j, st⟩
        cases st with
        | finished => exact ⟨rfl, rfl⟩
        | sent => exact absurd ⟨j, _, workers_of_slot hslot, by decide⟩ hwork
        | running => exact absurd ⟨j, _, workers_of_slot hslot, by decide⟩ hwork
    exact ⟨n, [], looks_waits hlooks hwaits.1 hwaits.2, Or.inl ⟨hwork, rfl, h⟩⟩

end Steps

/-- **One event** moves one of the invocations, or leaves all where they are; the event that one
of them waits for moves it. -/
theorem flow_step {p : Config} {f : Flow} {n : Node} (h : f.Holds p n)
    (hruns : ∀ j ∈ f.jobs, j.Runs p) (e : Node.Event) : f.Steps p n e := by
  cases e with
  | external => exact external_step h
  | schedule => exact schedule_step h
  | receive w ready env => exact receive_step h w ready env
  | worker w => exact worker_step h hruns w

/-- More requests arrive. -/
theorem Holds.enter {p : Config} {f : Flow} {n : Node} (h : f.Holds p n) {js : List Job}
    (hids : ((f.jobs ++ js).map Job.key).Nodup) :
    ({ f with inbox := f.inbox ++ js } : Flow).Holds p
      { n with inbox := n.inbox ++ js.map Job.call } where
  looks := by
    rcases h.looks with ⟨c, hrep, hlooks⟩
    refine ⟨c, ⟨hrep.rest, hrep.functions, hrep.pending, hrep.waiting, hrep.active, hrep.only,
      hrep.busy, hrep.idle⟩, ?_⟩
    rw [List.map_append]
    exact looks_enter hlooks _
  ids := by
    have hperm : (f.jobs ++ js).Perm ((f.inbox ++ js) ++ (f.pending ++ f.working)) := by
      unfold jobs
      rw [List.append_assoc f.inbox (f.pending ++ f.working) js, List.append_assoc f.inbox js]
      exact List.Perm.append_left _ List.perm_append_comm
    exact ((hperm.map Job.key).nodup_iff).1 hids
  known := h.known

theorem idle_new (p : Config) : (idle p).Holds p (Node.new p) where
  looks := by
    refine ⟨p.controller, represents_idle p, ?_⟩
    have hslot : ∀ w, (idle p).slot w = none := by
      intro w
      unfold slot idle
      cases hw : (List.replicate p.functionWorkers (none : Slot))[w]? with
      | none => rfl
      | some x => exact List.eq_of_mem_replicate (List.mem_of_getElem? hw)
    have hlooks := looks_new p
    simp only [hslot]
    exact hlooks
  ids := by
    unfold jobs working idle
    rw [List.filterMap_replicate_of_none rfl]
    exact List.nodup_nil
  known j hj := by
    unfold working idle at hj
    rw [List.filterMap_replicate_of_none rfl] at hj
    cases hj

end Flow

/-! ## One invocation -/

/-- Where an invocation is that arrives at a process with nothing else to do. -/
inductive Stage where
  | asked | waiting | sent | running | finished
deriving DecidableEq

namespace Stage

def flow (p : Config) (j : Job) : Stage → Flow
  | .asked => { Flow.idle p with inbox := [j] }
  | .waiting => { Flow.idle p with pending := [j] }
  | .sent => (Flow.idle p).setWorker 0 (some (j, .sent))
  | .running => (Flow.idle p).setWorker 0 (some (j, .running))
  | .finished => (Flow.idle p).setWorker 0 (some (j, .finished))

/-- What comes next; nothing if the process answers. -/
def next (p : Config) (j : Job) : Stage → Option Stage
  | .asked => if p.functions j.functionName.1 = none then none else some .waiting
  | .waiting => some .sent
  | .sent => some .running
  | .running => some .finished
  | .finished => none

/-- The event that brings it on. -/
def Awaits (n : Node) (e : Node.Event) : Stage → Prop
  | .asked => e = .external
  | .waiting => e = .schedule
  | .sent => e = .worker 0
  | .running => e = .worker 0
  | .finished => ∃ ready env, e = .receive 0 ready env ∧
      (n.process.worker 0).up.queue.length ≤ ready

end Stage

/-- The process has nothing to do. -/
def Idle (p : Config) (n : Node) : Prop := (Flow.idle p).Holds p n

/-- The invocation is at a stage, or answered. -/
def Progressed (p : Config) (j : Job) (n : Node) : Option Stage → Prop
  | some st => (st.flow p j).Holds p n
  | none => Idle p n

/-- What became of an event, where the invocation was at a stage. -/
def MovesOn (p : Config) (j : Job) (n : Node) (st : Stage) (e : Node.Event) : Prop :=
  ∃ n' calls, n.step p e = .ok (n', calls) ∧
    ((¬ st.Awaits n e ∧ calls = [] ∧ (st.flow p j).Holds p n') ∨
      (Progressed p j n' (st.next p j) ∧
        calls = if st.next p j = none then [j.reply p] else []))

section Stages

variable {p : Config} {n : Node} {j : Job} {st : Stage} {e : Node.Event}

theorem idle_slot {w : ℕ} {x : Job × Work} (h : (Flow.idle p).workers[w]? = some (some x)) : False := by
  have hmem := List.eq_of_mem_replicate (List.mem_of_getElem? h)
  cases hmem

/-- Only the first worker has an invocation. -/
theorem single_slot {w : ℕ} {x y : Job × Work}
    (h : ((Flow.idle p).setWorker 0 (some x)).workers[w]? = some (some y)) : w = 0 ∧ y = x := by
  rw [Flow.setWorker_workers, List.getElem?_set] at h
  split_ifs at h with hzero hlt
  · exact ⟨hzero.symm, Option.some.inj (Option.some.inj h.symm)⟩
  · exact absurd h idle_slot

theorem single_setWorker (x y : Slot) :
    ((Flow.idle p).setWorker 0 x).setWorker 0 y = (Flow.idle p).setWorker 0 y := by
  simp [Flow.setWorker]

theorem idle_setWorker : (Flow.idle p).setWorker 0 none = Flow.idle p := by
  cases hk : p.functionWorkers with
  | zero => simp [Flow.setWorker, Flow.idle, hk]
  | succ k => simp [Flow.setWorker, Flow.idle, hk, List.replicate_succ]

/-- A move brings the invocation to the next stage. -/
theorem progressed_of_moves {f' : Flow} {n' : Node} {calls : List ServerCall}
    (hmoves : (st.flow p j).Moves p e f' calls) (h : f'.Holds p n') :
    Progressed p j n' (st.next p j) ∧
      calls = if st.next p j = none then [j.reply p] else [] := by
  cases st with
  | asked =>
    cases hmoves with
    | queued i rest hinbox hknown =>
      obtain ⟨rfl, rfl⟩ := List.cons.inj hinbox
      rw [Stage.next, if_neg hknown]
      exact ⟨h, rfl⟩
    | rejected i rest hinbox hunknown =>
      obtain ⟨rfl, rfl⟩ := List.cons.inj hinbox
      rw [Stage.next, if_pos (not_not.1 hunknown)]
      exact ⟨h, rfl⟩
    | submitted i rest w hpending => cases hpending
    | taken i w hslot => exact absurd hslot idle_slot
    | returned i w hslot => exact absurd hslot idle_slot
    | answered i w ready env hslot => exact absurd hslot idle_slot
  | waiting =>
    cases hmoves with
    | queued i rest hinbox => cases hinbox
    | rejected i rest hinbox => cases hinbox
    | submitted i rest w hpending hidle hfirst =>
      obtain ⟨rfl, rfl⟩ := List.cons.inj hpending
      -- all workers are idle, so it is the first
      obtain rfl : w = 0 := by
        by_contra hne
        refine hfirst 0 (Nat.pos_of_ne_zero hne) ?_
        have hlt := (List.getElem?_eq_some_iff.1 hidle).1
        exact List.getElem?_replicate_of_lt
          (lt_of_le_of_lt (Nat.zero_le w) (by simpa [Stage.flow, Flow.idle] using hlt))
      exact ⟨h, rfl⟩
    | taken i w hslot => exact absurd hslot idle_slot
    | returned i w hslot => exact absurd hslot idle_slot
    | answered i w ready env hslot => exact absurd hslot idle_slot
  | sent =>
    cases hmoves with
    | queued i rest hinbox => cases hinbox
    | rejected i rest hinbox => cases hinbox
    | submitted i rest w hpending => cases hpending
    | taken i w hslot =>
      obtain ⟨rfl, hi⟩ := single_slot hslot
      obtain rfl := (Prod.mk.inj hi).1
      rw [Stage.flow, single_setWorker] at h
      exact ⟨h, rfl⟩
    | returned i w hslot => cases (Prod.mk.inj (single_slot hslot).2).2
    | answered i w ready env hslot => cases (Prod.mk.inj (single_slot hslot).2).2
  | running =>
    cases hmoves with
    | queued i rest hinbox => cases hinbox
    | rejected i rest hinbox => cases hinbox
    | submitted i rest w hpending => cases hpending
    | taken i w hslot => cases (Prod.mk.inj (single_slot hslot).2).2
    | returned i w hslot =>
      obtain ⟨rfl, hi⟩ := single_slot hslot
      obtain rfl := (Prod.mk.inj hi).1
      rw [Stage.flow, single_setWorker] at h
      exact ⟨h, rfl⟩
    | answered i w ready env hslot => cases (Prod.mk.inj (single_slot hslot).2).2
  | finished =>
    cases hmoves with
    | queued i rest hinbox => cases hinbox
    | rejected i rest hinbox => cases hinbox
    | submitted i rest w hpending => cases hpending
    | taken i w hslot => cases (Prod.mk.inj (single_slot hslot).2).2
    | returned i w hslot => cases (Prod.mk.inj (single_slot hslot).2).2
    | answered i w ready env hslot =>
      obtain ⟨rfl, hi⟩ := single_slot hslot
      obtain rfl := (Prod.mk.inj hi).1
      rw [Stage.flow, single_setWorker, idle_setWorker] at h
      exact ⟨h, rfl⟩

/-- What the invocation waits for is an event that moves it. -/
theorem awaits_flow (hworkers : 0 < p.functionWorkers) (h : st.Awaits n e) :
    (st.flow p j).Awaits n e := by
  have hfirst : ∀ st' : Work,
      ((Flow.idle p).setWorker 0 (some (j, st'))).workers[0]? = some (some (j, st')) := by
    intro st'
    rw [Flow.setWorker_workers, List.getElem?_set_self]
    simpa [Flow.idle] using hworkers
  cases st with
  | asked =>
    obtain rfl : e = .external := h
    exact List.cons_ne_nil _ _
  | waiting =>
    obtain rfl : e = .schedule := h
    exact ⟨List.cons_ne_nil _ _, List.mem_replicate.2 ⟨hworkers.ne', rfl⟩⟩
  | sent =>
    obtain rfl : e = .worker 0 := h
    exact ⟨j, .sent, hfirst _, by decide⟩
  | running =>
    obtain rfl : e = .worker 0 := h
    exact ⟨j, .running, hfirst _, by decide⟩
  | finished =>
    rcases h with ⟨ready, env, rfl, hready⟩
    exact ⟨⟨j, hfirst _⟩, hready⟩

theorem jobs_flow (st : Stage) : ∀ i ∈ (st.flow p j).jobs, i = j := by
  have hworking : ∀ st' : Work, ∀ i ∈ ((Flow.idle p).setWorker 0 (some (j, st'))).working,
      i = j := by
    intro st' i hi
    rcases List.mem_filterMap.1 hi with ⟨x, hx, hi⟩
    rcases List.mem_or_eq_of_mem_set hx with hx | rfl
    · rw [List.eq_of_mem_replicate hx] at hi
      cases hi
    · exact (Option.some.inj hi).symm
  have hidle : (Flow.idle p).working = [] := List.filterMap_replicate_of_none rfl
  intro i hi
  cases st with
  | asked =>
    rw [show (Stage.flow p j .asked).jobs = [j] ++ (Flow.idle p).working from rfl, hidle] at hi
    exact List.mem_singleton.1 hi
  | waiting =>
    rw [show (Stage.flow p j .waiting).jobs = [j] ++ (Flow.idle p).working from rfl, hidle] at hi
    exact List.mem_singleton.1 hi
  | sent => exact hworking _ i hi
  | running => exact hworking _ i hi
  | finished => exact hworking _ i hi

/-- **One event.** It leaves the invocation where it is, or brings it to the next stage; the
event that it waits for does, and with the last stage comes the answer. -/
theorem stage_step (hworkers : 0 < p.functionWorkers) (hruns : j.Runs p)
    (h : (st.flow p j).Holds p n) (e : Node.Event) : MovesOn p j n st e := by
  have hall : ∀ i ∈ (st.flow p j).jobs, i.Runs p := by
    intro i hi
    rwa [jobs_flow st i hi]
  rcases Flow.flow_step h hall e with ⟨n', calls, hn', ⟨hawaits, hcalls, h'⟩ | ⟨f', hmoves, h'⟩⟩
  · exact ⟨n', calls, hn', Or.inl ⟨fun ha => hawaits (awaits_flow hworkers ha), hcalls, h'⟩⟩
  · exact ⟨n', calls, hn', Or.inr (progressed_of_moves hmoves h')⟩

theorem idle_jobs (p : Config) : (Flow.idle p).jobs = [] := List.filterMap_replicate_of_none rfl

/-- The only request arrives. -/
theorem asked_of_idle (h : Idle p n) (j : Job) :
    (Stage.asked.flow p j).Holds p { n with inbox := n.inbox ++ [j.call] } := by
  have hids : (((Flow.idle p).jobs ++ [j]).map Job.key).Nodup := by
    rw [idle_jobs]
    exact List.nodup_singleton _
  exact Flow.Holds.enter h hids

/-- A process that has nothing to do is as at the start. -/
theorem idle_rest (h : Idle p n) : n.inbox = [] ∧ n.process.ctl = p.controller := by
  rcases h.looks with ⟨c, hrep, hlooks⟩
  rcases hlooks.plain with ⟨t, hrefines, hctl, -⟩
  exact ⟨hlooks.inbox, (hrefines.ctl.trans hctl).trans (Flow.controller_of_idle hrep)⟩

/-- Nothing happens to a process that has nothing to do. -/
theorem idle_step (h : Idle p n) (e : Node.Event) :
    ∃ n', n.step p e = .ok (n', []) ∧ Idle p n' := by
  rcases Flow.flow_step h (by rw [idle_jobs]; simp) e with
    ⟨n', calls, hn', ⟨-, rfl, h'⟩ | ⟨f', hmoves, -⟩⟩
  · exact ⟨n', hn', h'⟩
  · cases hmoves with
    | queued i rest hinbox => cases hinbox
    | rejected i rest hinbox => cases hinbox
    | submitted i rest w hpending => cases hpending
    | taken i w hslot => exact absurd hslot idle_slot
    | returned i w hslot => exact absurd hslot idle_slot
    | answered i w ready env hslot => exact absurd hslot idle_slot

end Stages

end Praas.Platform
