import Praas.Lib.Lts
import Praas.Process.Controller

/-! # Invocations of functions, from the request to the result

The controller together with its function workers. A request to run a function
comes from another process, the data plane, the control plane, or from a function
that runs on a worker, which is then blocked until it receives a result. A worker
runs the invocation dispatched to it and answers it once.

The system records the requests received and the replies to them, each with its
basis: the execution whose result it is, or the request that it rejects.
* `Effect`, `step_effect` — what one step can do;
* `Sound`, `sound_effect` — the queue, the table of invocations and the workers
  agree with what the workers run.
-/

namespace Praas.Process.Invocations

open Ipc (Text ID_LENGTH NAME_LENGTH)

/-! ## The system -/

/-- Who sends an external request. -/
inductive Peer where
  | dataPlane
  | controlPlane
  | process (id : Str)
deriving DecidableEq, Repr

def Peer.message (p : Peer) (msg : List Byte) (payload : Buffer) : ExternalMessage :=
  match p with
  | .dataPlane => dataplaneMessage msg payload
  | .controlPlane => controlplaneMessage msg payload
  | .process id => remoteMessage msg payload id

/-- The source type and process id that a reply to the peer names. -/
def Peer.source : Peer → InvocationSource
  | .dataPlane => InvocationSource.fromSource .dataPlane
  | .controlPlane => InvocationSource.fromSource .controlPlane
  | .process id => InvocationSource.fromProcess id

/-- A header of type `INVOCATION_REQUEST`. -/
abbrev RequestHeader :=
  { m : Message.MessagePtr // readInt16 m 0 = Message.MessageType.invocationRequest.code }

def RequestHeader.functionName (m : RequestHeader) : Text NAME_LENGTH :=
  Text.read m.1 (Message.HEADER_OFFSET + 4) Message.NAME_LENGTH

def RequestHeader.invocationId (m : RequestHeader) : Text ID_LENGTH :=
  Text.read m.1 (Message.HEADER_OFFSET + Message.NAME_LENGTH + 4) Message.ID_LENGTH

/-- An external request. -/
structure Request where
  peer : Peer
  id : Text ID_LENGTH
  payload : Buffer
deriving DecidableEq

/-- A call of `invoke` that a worker is blocked in. -/
structure Call where
  id : Text ID_LENGTH
  payload : Buffer
deriving DecidableEq

/-- The invocation that a worker runs, with its arguments. -/
structure Job where
  id : Text ID_LENGTH
  payloads : List Buffer
deriving DecidableEq

/-- What a reply is based on: an execution, or the request of a worker or of a peer
that is rejected. -/
inductive Basis where
  | none
  | executed (j : Job) (returnCode : Int) (output : Buffer)
  | rejected (worker : Option ℕ) (payload : Buffer)
deriving DecidableEq

/-- A reply sent through the TCP server. -/
structure Reply where
  source : InvocationSource
  id : Str
  returnCode : Int
  payload : Buffer
  basis : Basis
deriving DecidableEq

/-- An `InvocationResult` sent to a worker, with the call it was blocked in. -/
structure Delivery where
  worker : ℕ
  call : Option Call
  id : Text ID_LENGTH
  returnCode : Int
  payload : Buffer
  basis : Basis
deriving DecidableEq

structure System where
  ctl : Controller
  job : ℕ → Option Job
  waiting : ℕ → Option Call
  requests : List Request
  sent : List Reply
  calls : List (ℕ × Call)
  delivered : List Delivery

inductive Event where
  | request (peer : Peer) (msg : RequestHeader) (payload : Buffer)
  | invoke (w : ℕ) (req : Ipc.InvocationRequestParsed) (payload : Buffer) (env : Env)
  | schedule
  | result (w : ℕ) (returnCode : Int) (output : Buffer)

namespace System

def new (ctl : Controller) : System where
  ctl := ctl
  job := fun _ => none
  waiting := fun _ => none
  requests := []
  sent := []
  calls := []
  delivered := []

/-- The invocation an output dispatches to the worker. -/
def jobFor (w : ℕ) : Output → Option Job
  | .toWorker v (.invocationRequest m payload) =>
    if v = w then some ⟨m.invocationId, payload⟩ else none
  | _ => none

def replyOf (basis : Basis) : Output → Option Reply
  | .server (.invocationResult source remoteProcess id returnCode payload) =>
    some ⟨⟨source, remoteProcess⟩, id, returnCode, payload, basis⟩
  | _ => none

def deliveryOf (waiting : ℕ → Option Call) (basis : Basis) : Output → Option Delivery
  | .toWorker w (.invocationResult m payload) =>
    some ⟨w, waiting w, m.invocationId, m.returnCode, payload, basis⟩
  | _ => none

/-- The controller has handled an input: the workers receive what it sent them. A
result unblocks its worker. -/
def emit (s : System) (basis : Basis) (r : Controller × List Output) : System :=
  let delivered := r.2.filterMap (deliveryOf s.waiting basis)
  { s with
    ctl := r.1
    job := fun w => (r.2.findSome? (jobFor w)).or (s.job w)
    waiting := fun w => if w ∈ delivered.map (·.worker) then none else s.waiting w
    sent := s.sent ++ r.2.filterMap (replyOf basis)
    delivered := s.delivered ++ delivered }

/-- The worker runs a function that can call `invoke`. -/
def Runs (s : System) (w : ℕ) : Prop := (s.job w).isSome ∧ (s.waiting w).isNone

instance (s : System) (w : ℕ) : Decidable (s.Runs w) := inferInstanceAs (Decidable (_ ∧ _))

/-- A worker that runs no function, or is blocked, sends neither a request nor a
result; requests for other processes are left out. -/
def step (s : System) : Event → Except Fault System
  | .request peer msg payload => do
    let r ← s.ctl.handle (.external (peer.message msg.1 payload))
    return emit { s with requests := s.requests ++ [⟨peer, msg.invocationId, payload⟩] }
      (.rejected none payload) r
  | .invoke w req payload env =>
    if s.Runs w ∧ s.ctl.IsSelf req.processId.1 then do
      let call : Call := ⟨req.invocationId, payload⟩
      let r ← s.ctl.handle (.internal w (.invocationRequest req) payload env)
      return emit { s with
        waiting := Function.update s.waiting w (some call)
        calls := s.calls ++ [(w, call)] } (.rejected (some w) payload) r
    else .ok s
  | .schedule => do
    let r ← s.ctl.handle .schedule
    return s.emit .none r
  | .result w returnCode output =>
    match s.job w with
    | none => .ok s
    | some j =>
      if s.Runs w then do
        let r ← s.ctl.handle (.internal w (.invocationResult ⟨j.id, returnCode⟩) output {})
        return emit { s with job := Function.update s.job w none }
          (.executed j returnCode output) r
      else .ok s

end System

/-! ## The queue, the table and the workers agree -/

/-- The invocations that wait are those in the queue; the active ones are those
that the workers run, each on one busy worker; and the idle workers are counted. -/
structure Sound (q : WorkQueue) (ws : Workers) (job : ℕ → Option Job) : Prop where
  nodup : q.pendingInvocations.Nodup
  queued : ∀ key, key ∈ q.pendingInvocations ↔
    ∃ i, q.activeInvocations key = some i ∧ i.active = false
  named : ∀ key i, q.activeInvocations key = some i → i.req.invocationId.1 = key
  running : ∀ w j, job w = some j → ws.busy[w]? = some true ∧
    ∃ i, q.activeInvocations j.id.1 = some i ∧ i.active = true ∧ i.payload = j.payloads
  runs : ∀ key i, q.activeInvocations key = some i → i.active = true →
    ∃ w j, job w = some j ∧ j.id.1 = key
  once : ∀ v w j k, job v = some j → job w = some k → j.id = k.id → v = w
  idle : ws.idleWorkers = ws.busy.count false

theorem sound_new (functions : Str → Option Trigger) (n : ℕ) :
    Sound (WorkQueue.new functions) (Workers.new n) (fun _ => none) where
  nodup := List.nodup_nil
  queued key := by simp [WorkQueue.new]
  named key i h := by cases h
  running w j h := by cases h
  runs key i h := by cases h
  once v w j k h := by cases h
  idle := by simp [Workers.new]

variable {q q' : WorkQueue} {ws : Workers} {job : ℕ → Option Job}

/-- A payload is added to an invocation that waits. -/
theorem sound_push (h : Sound q ws job) {key : Str} {i : Invocation} (buffer : Buffer)
    (found : q.activeInvocations key = some i) (waits : i.active = false) :
    Sound (q.setInvocation key (i.push buffer)) ws job where
  nodup := h.nodup
  queued k := by
    refine (h.queued k).trans ?_
    rcases eq_or_ne k key with rfl | hne
    · simp [found, waits]
    · simp [hne]
  named k x hx := by
    rcases eq_or_ne k key with rfl | hne
    · obtain rfl : i.push buffer = x := by simpa using hx
      exact h.named k i found
    · exact h.named k x (by simpa [hne] using hx)
  running w j hj := by
    rcases h.running w j hj with ⟨hbusy, x, hx, hactive, hpayload⟩
    have hne : j.id.1 ≠ key := by
      rintro rfl
      simp_all
    exact ⟨hbusy, x, by simpa [hne] using hx, hactive, hpayload⟩
  runs k x hx hactive := by
    rcases eq_or_ne k key with rfl | hne
    · obtain rfl : i.push buffer = x := by simpa using hx
      simp [waits] at hactive
    · exact h.runs k x (by simpa [hne] using hx) hactive
  once := h.once
  idle := h.idle

/-- A new invocation is queued. -/
theorem sound_enqueue (h : Sound q ws job) {i : Invocation}
    (free : q.activeInvocations i.req.invocationId.1 = none) (waits : i.active = false) :
    Sound (q.enqueue i.req.invocationId.1 i) ws job := by
  have hfresh : i.req.invocationId.1 ∉ q.pendingInvocations := by
    rw [h.queued]
    simp [free]
  refine ⟨?_, fun k => ?_, fun k x hx => ?_, fun w j hj => ?_, fun k x hx hactive => ?_,
    h.once, h.idle⟩
  · exact List.nodup_append.2 ⟨h.nodup, by simp, by
      rintro a ha b hb rfl
      obtain rfl : a = i.req.invocationId.1 := by simpa using hb
      exact hfresh ha⟩
  · rcases eq_or_ne k i.req.invocationId.1 with rfl | hne
    · simp [waits]
    · simpa [hne] using h.queued k
  · rcases eq_or_ne k i.req.invocationId.1 with rfl | hne
    · obtain rfl : i = x := by simpa using hx
      rfl
    · exact h.named k x (by simpa [hne] using hx)
  · rcases h.running w j hj with ⟨hbusy, x, hx, hrest⟩
    have hne : j.id.1 ≠ i.req.invocationId.1 := by
      intro heq
      simp [heq, free] at hx
    exact ⟨hbusy, x, by simpa [hne] using hx, hrest⟩
  · rcases eq_or_ne k i.req.invocationId.1 with rfl | hne
    · obtain rfl : i = x := by simpa using hx
      simp [waits] at hactive
    · exact h.runs k x (by simpa [hne] using hx) hactive

/-- An invocation leaves the queue and runs on an idle worker. -/
theorem sound_submit (h : Sound q ws job) {before after : List Str} {key : Str}
    {i : Invocation} {w : ℕ} (buffers : List Int)
    (pending : q.pendingInvocations = before ++ key :: after)
    (found : q.activeInvocations key = some i) (free : ws.busy[w]? = some false) :
    Sound ({ q with pendingInvocations := before ++ after }.setInvocation key
        { i with req := { i.req with buffers := buffers }, active := true })
      ⟨ws.busy.set w true, ws.idleWorkers - 1⟩
      (Function.update job w (some ⟨i.req.invocationId, i.payload⟩)) := by
  have hnodup : (key :: (before ++ after)).Nodup := by
    rw [← List.nodup_middle, ← pending]
    exact h.nodup
  have hwaits : i.active = false := by
    rcases (h.queued key).1 (by simp [pending]) with ⟨x, hx, hactive⟩
    obtain rfl : x = i := by simpa [found] using hx.symm
    exact hactive
  have hname : i.req.invocationId.1 = key := h.named key i found
  have hlt : w < ws.busy.length := (List.getElem?_eq_some_iff.1 free).1
  -- the worker ran nothing before, and the invocation ran nowhere
  have hnew : ∀ v j, job v = some j → v ≠ w := by
    rintro v j hj rfl
    have hbusy := (h.running v j hj).1
    simp [free] at hbusy
  have hother : ∀ v j, job v = some j → j.id.1 ≠ key := by
    intro v j hj heq
    rcases (h.running v j hj).2 with ⟨x, hx, hactive, -⟩
    simp_all
  refine ⟨(List.nodup_cons.1 hnodup).2, fun k => ?_, fun k x hx => ?_, fun v j hj => ?_,
    fun k x hx hactive => ?_, fun u v j k hj hk hid => ?_, ?_⟩
  · rcases eq_or_ne k key with rfl | hne
    · have hout := (List.nodup_cons.1 hnodup).1
      simpa using hout
    · have hold := h.queued k
      rw [pending] at hold
      simpa [hne] using hold
  · rcases eq_or_ne k key with rfl | hne
    · simp only [WorkQueue.setInvocation_activeInvocations, Function.update_self,
        Option.some.injEq] at hx
      rw [← hx]
      exact hname
    · exact h.named k x (by simpa [hne] using hx)
  · rcases eq_or_ne v w with rfl | hne
    · obtain rfl : ⟨i.req.invocationId, i.payload⟩ = j := by simpa using hj
      refine ⟨by simp [hlt], { i with req := { i.req with buffers := buffers }, active := true },
        ?_, rfl, rfl⟩
      simp [hname]
    · have hj' : job v = some j := by simpa [hne] using hj
      rcases h.running v j hj' with ⟨hbusy, x, hx, hrest⟩
      exact ⟨by simpa [hne.symm] using hbusy, x, by simpa [hother v j hj'] using hx, hrest⟩
  · rcases eq_or_ne k key with rfl | hne
    · exact ⟨w, ⟨i.req.invocationId, i.payload⟩, by simp, hname⟩
    · rcases h.runs k x (by simpa [hne] using hx) hactive with ⟨v, j, hj, hid⟩
      exact ⟨v, j, by simpa [hnew v j hj] using hj, hid⟩
  · have hcase : ∀ v j, Function.update job w (some ⟨i.req.invocationId, i.payload⟩) v = some j →
        (v = w ∧ j.id.1 = key) ∨ (v ≠ w ∧ job v = some j) := by
      intro v j hj
      rcases eq_or_ne v w with rfl | hne
      · obtain rfl : ⟨i.req.invocationId, i.payload⟩ = j := by simpa using hj
        exact Or.inl ⟨rfl, hname⟩
      · exact Or.inr ⟨hne, by simpa [hne] using hj⟩
    rcases hcase u j hj with ⟨rfl, hjk⟩ | ⟨hu, hj'⟩
    · rcases hcase v k hk with ⟨rfl, -⟩ | ⟨-, hk'⟩
      · rfl
      · exact absurd (hid ▸ hjk) (hother v k hk')
    · rcases hcase v k hk with ⟨rfl, hkk⟩ | ⟨-, hk'⟩
      · exact absurd (hid ▸ hkk) (hother u j hj')
      · exact h.once u v j k hj' hk' hid
  · have hget : ws.busy[w] = false := (List.getElem?_eq_some_iff.1 free).2
    have hcount := List.count_set (b := false) (a := true) hlt
    have hidle := h.idle
    simp only [hget] at hcount
    simp at hcount ⊢
    omega

/-- A worker has answered, and its invocation is taken out of the table. -/
theorem sound_finish (h : Sound q ws job) {w : ℕ} {j : Job} (hj : job w = some j) :
    Sound { q with activeInvocations := Function.update q.activeInvocations j.id.1 none }
      (ws.finish w) (Function.update job w none) := by
  rcases h.running w j hj with ⟨hbusy, i, hi, hactive, -⟩
  have hlt : w < ws.busy.length := (List.getElem?_eq_some_iff.1 hbusy).1
  have hkept : ∀ v k, Function.update job w none v = some k → v ≠ w ∧ job v = some k := by
    intro v k hk
    rcases eq_or_ne v w with rfl | hne
    · simp at hk
    · exact ⟨hne, by simpa [hne] using hk⟩
  -- no other worker runs the invocation that is taken out
  have hother : ∀ v k, Function.update job w none v = some k → k.id.1 ≠ j.id.1 := by
    intro v k hk heq
    rcases hkept v k hk with ⟨hne, hk'⟩
    exact hne (h.once v w k j hk' hj (Subtype.ext heq))
  refine ⟨h.nodup, fun k => ?_, fun k x hx => ?_, fun v k hk => ?_, fun k x hx hx' => ?_,
    fun u v k l hk hl hid => ?_, ?_⟩
  · refine (h.queued k).trans ?_
    rcases eq_or_ne k j.id.1 with rfl | hne
    · simp [hi, hactive]
    · simp [hne]
  · rcases eq_or_ne k j.id.1 with rfl | hne
    · simp at hx
    · exact h.named k x (by simpa [hne] using hx)
  · rcases hkept v k hk with ⟨hne, hk'⟩
    rcases h.running v k hk' with ⟨hb, x, hx, hrest⟩
    exact ⟨by simpa [Workers.finish, hne.symm] using hb, x,
      by simpa [hother v k hk] using hx, hrest⟩
  · rcases eq_or_ne k j.id.1 with rfl | hne
    · simp at hx
    · rcases h.runs k x (by simpa [hne] using hx) hx' with ⟨v, l, hl, hid⟩
      have hv : v ≠ w := by
        rintro rfl
        obtain rfl : j = l := by simpa [hj] using hl
        exact hne hid.symm
      exact ⟨v, l, by simpa [hv] using hl, hid⟩
  · exact h.once u v k l (hkept u k hk).2 (hkept v l hl).2 hid
  · have hget : ws.busy[w] = true := (List.getElem?_eq_some_iff.1 hbusy).2
    have hcount := List.count_set (b := false) (a := false) hlt
    have hidle := h.idle
    simp only [hget] at hcount
    simp [Workers.finish] at hcount ⊢
    omega

/-! ## What one step can do -/

namespace System

/-- A worker makes a call: it is stored as waiting, and blocked. -/
def block (s : System) (w : ℕ) (call : Call) (slot : ℕ) : System :=
  { s with
    ctl := s.ctl.setPending (s.ctl.pendingMsgs.insertInvocation slot call.id.1 w)
    waiting := Function.update s.waiting w (some call)
    calls := s.calls ++ [(w, call)] }

/-- The workers stored for an id receive a result and are no longer blocked. -/
def wake (s : System) (id : Text ID_LENGTH) (returnCode : Int) (payload : Buffer)
    (basis : Basis) : System :=
  let found := s.ctl.pendingMsgs.findInvocation id.1
  { s with
    ctl := s.ctl.setPending found.2
    waiting := fun w => if w ∈ found.1 then none else s.waiting w
    delivered := s.delivered ++
      found.1.map fun w => ⟨w, s.waiting w, id, returnCode, payload, basis⟩ }

/-- The work queue has taken a payload in. -/
def setQueue (s : System) (q : WorkQueue) : System := { s with ctl := s.ctl.setQueue q }

/-- A worker has answered: its invocation and the worker are released. -/
def release (s : System) (w : ℕ) (j : Job) : System :=
  { s with
    ctl := (s.ctl.setQueue { s.ctl.workQueue with
      activeInvocations := Function.update s.ctl.workQueue.activeInvocations j.id.1 none }).setWorkers
        (s.ctl.workers.finish w)
    job := Function.update s.job w none }

def addRequest (s : System) (r : Request) : System := { s with requests := s.requests ++ [r] }

def addReply (s : System) (r : Reply) : System := { s with sent := s.sent ++ [r] }

end System

/-- The queue takes a payload for a key, or refuses it. -/
inductive Takes (q : WorkQueue) (key : Str) (payload : Buffer) (source : InvocationSource) :
    WorkQueue → Prop
  | merged (i : Invocation) (found : q.activeInvocations key = some i)
      (waits : i.active = false) : Takes q key payload source (q.setInvocation key (i.push payload))
  | created (i : Invocation) (free : q.activeInvocations key = none)
      (named : i.req.invocationId.1 = key) (waits : i.active = false)
      (payloads : i.payload = [payload]) (from_source : i.source = source) :
      Takes q key payload source (q.enqueue key i)

def Refuses (q : WorkQueue) (key : Str) : Prop :=
  q.activeInvocations key = none ∨ ∃ i, q.activeInvocations key = some i ∧ i.active = true

inductive Effect (s : System) : Event → System → Prop
  | requested {peer : Peer} {msg : RequestHeader} {payload : Buffer} {q : WorkQueue}
      (takes : Takes s.ctl.workQueue msg.invocationId.1 payload peer.source q) :
      Effect s (.request peer msg payload)
        ((s.setQueue q).addRequest ⟨peer, msg.invocationId, payload⟩)
  | refused {peer : Peer} {msg : RequestHeader} {payload message : Buffer}
      (refuses : Refuses s.ctl.workQueue msg.invocationId.1) :
      Effect s (.request peer msg payload)
        ((s.addRequest ⟨peer, msg.invocationId, payload⟩).addReply
          ⟨peer.source, msg.invocationId.1, -1, message, .rejected none payload⟩)
  | invoked {w : ℕ} {req : Ipc.InvocationRequestParsed} {payload : Buffer} {env : Env}
      {q : WorkQueue} (runs : s.Runs w)
      (takes : Takes s.ctl.workQueue req.invocationId.1 payload InvocationSource.fromLocal q) :
      Effect s (.invoke w req payload env)
        ((s.block w ⟨req.invocationId, payload⟩ env.slot).setQueue q)
  | invokeRefused {w : ℕ} {req : Ipc.InvocationRequestParsed} {payload message : Buffer}
      {env : Env} (runs : s.Runs w) (refuses : Refuses s.ctl.workQueue req.invocationId.1) :
      Effect s (.invoke w req payload env)
        ((s.block w ⟨req.invocationId, payload⟩ env.slot).wake req.invocationId (-1) message
          (.rejected (some w) payload))
  | invokeSkipped {w : ℕ} {req : Ipc.InvocationRequestParsed} {payload : Buffer} {env : Env} :
      Effect s (.invoke w req payload env) s
  | submitted {before after : List Str} {key : Str} {i : Invocation} {w : ℕ}
      (buffers : List Int) (pending : s.ctl.workQueue.pendingInvocations = before ++ key :: after)
      (found : s.ctl.workQueue.activeInvocations key = some i)
      (free : s.ctl.workers.busy[w]? = some false) :
      Effect s .schedule { s with
        ctl := (s.ctl.setQueue ({ s.ctl.workQueue with
            pendingInvocations := before ++ after }.setInvocation key
              { i with req := { i.req with buffers := buffers }, active := true })).setWorkers
          ⟨s.ctl.workers.busy.set w true, s.ctl.workers.idleWorkers - 1⟩
        job := Function.update s.job w (some ⟨i.req.invocationId, i.payload⟩) }
  | scheduleSkipped : Effect s .schedule s
  | answeredRemote {w : ℕ} {j : Job} {i : Invocation} {returnCode : Int} {output : Buffer}
      (runs : s.Runs w) (job : s.job w = some j)
      (found : s.ctl.workQueue.activeInvocations j.id.1 = some i) (active : i.active = true)
      (remote : i.source.isRemote = true) :
      Effect s (.result w returnCode output) ((s.release w j).addReply
        ⟨i.source, j.id.1, returnCode, output, .executed j returnCode output⟩)
  | answeredLocal {w : ℕ} {j : Job} {i : Invocation} {returnCode : Int} {output : Buffer}
      (runs : s.Runs w) (job : s.job w = some j)
      (found : s.ctl.workQueue.activeInvocations j.id.1 = some i) (active : i.active = true)
      (local_source : i.source.isRemote = false) :
      Effect s (.result w returnCode output) ((s.release w j).wake j.id returnCode output
        (.executed j returnCode output))
  | resultSkipped {w : ℕ} {returnCode : Int} {output : Buffer} :
      Effect s (.result w returnCode output) s

/-! ### What the workers and the server receive -/

section Emit

variable (s : System) (basis : Basis) (c : Controller)

theorem emit_nil : s.emit basis (c, []) = { s with ctl := c } := by
  simp [System.emit]

theorem emit_reply (source : RemoteType) (process : Option Str) (id : Str) (returnCode : Int)
    (payload : Buffer) :
    s.emit basis (c, [.server (.invocationResult source process id returnCode payload)]) =
      { s with ctl := c }.addReply ⟨⟨source, process⟩, id, returnCode, payload, basis⟩ := by
  simp [System.emit, System.addReply, System.jobFor, System.replyOf, System.deliveryOf]

theorem emit_dispatch (w : ℕ) (m : Ipc.InvocationRequest) (payload : List Buffer) :
    s.emit basis (c, [.toWorker w (.invocationRequest m payload)]) =
      { s with ctl := c, job := Function.update s.job w (some ⟨m.invocationId, payload⟩) } := by
  have hjob : (fun v => (System.jobFor v (.toWorker w (.invocationRequest m payload))).or
      (s.job v)) = Function.update s.job w (some ⟨m.invocationId, payload⟩) := by
    funext v
    rcases eq_or_ne v w with rfl | hne
    · simp [System.jobFor]
    · simp [System.jobFor, hne, hne.symm]
  simp [System.emit, System.replyOf, System.deliveryOf, hjob]

theorem emit_results (workers : List ℕ) (m : Ipc.InvocationResult) (payload : Buffer) :
    s.emit basis (c, workers.map fun w => .toWorker w (.invocationResult m payload)) =
      { s with
        ctl := c
        waiting := fun w => if w ∈ workers then none else s.waiting w
        delivered := s.delivered ++ workers.map fun w =>
          ⟨w, s.waiting w, m.invocationId, m.returnCode, payload, basis⟩ } := by
  have hjob : ∀ w, (workers.map fun v => Output.toWorker v (.invocationResult m payload)).findSome?
      (System.jobFor w) = none := by
    intro w
    simp [List.findSome?_eq_none_iff, System.jobFor]
  have hsent : (workers.map fun v => Output.toWorker v (.invocationResult m payload)).filterMap
      (System.replyOf basis) = [] := by
    simp [List.filterMap_eq_nil_iff, System.replyOf]
  have hdelivered : (workers.map fun v => Output.toWorker v (.invocationResult m payload)).filterMap
      (System.deliveryOf s.waiting basis) = workers.map fun w =>
        ⟨w, s.waiting w, m.invocationId, m.returnCode, payload, basis⟩ := by
    rw [List.filterMap_map]
    exact congrFun List.filterMap_eq_map' workers
  simp [System.emit, hjob, hsent, hdelivered, Function.comp_def]

end Emit

/-! ### The handlers -/

theorem peer_message (p : Peer) (msg : List Byte) (payload : Buffer) :
    (p.message msg payload).msg = msg ∧ (p.message msg payload).payload = payload ∧
      (p.message msg payload).invocationSource = p.source := by
  cases p <;> exact ⟨rfl, rfl, rfl⟩

theorem source_isRemote (p : Peer) : p.source.isRemote = true := by
  cases p <;> rfl

/-- The payload of a request is taken in, or its source gets the rejection. -/
theorem submitPayload_cases (c : Controller) (fname : Text NAME_LENGTH) (id : Text ID_LENGTH)
    (payload : Buffer) (source : InvocationSource) :
    (∃ q, Takes c.workQueue id.1 payload source q ∧
      c.submitPayload fname.1 id.1 payload source = .ok (c.setQueue q, [])) ∨
    (∃ message, Refuses c.workQueue id.1 ∧
      c.submitPayload fname.1 id.1 payload source =
        c.processInvocationResult source id.1 (-1) message) := by
  rcases c.workQueue.addPayload_outcome fname id payload source with ⟨r, hr, hout⟩
  unfold Controller.submitPayload
  rw [hr]
  cases hout with
  | merged i found waits => exact Or.inl ⟨_, .merged i found waits, rfl⟩
  | created trigger free known => exact Or.inl ⟨_, .created _ free rfl rfl rfl rfl, rfl⟩
  | rejected message refused => exact Or.inr ⟨message, refused, rfl⟩

theorem handle_request (c : Controller) (peer : Peer) (msg : RequestHeader) (payload : Buffer) :
    c.handle (.external (peer.message msg.1 payload)) =
      c.submitPayload msg.functionName.1 msg.invocationId.1 payload peer.source := by
  rcases peer_message peer msg.1 payload with ⟨hmsg, hpayload, hsource⟩
  have hparse : Message.MessageParser.parse msg.1 = .ok (.invocationRequest msg.1) := by
    unfold Message.MessageParser.parse
    rw [show readInt16 msg.1 0 = 4 from msg.2]
    rfl
  show c.processExternalMessage _ = _
  unfold Controller.processExternalMessage
  rw [hmsg, hparse, hpayload, hsource]
  rfl

theorem handle_invoke (c : Controller) (w : ℕ) (req : Ipc.InvocationRequestParsed)
    (payload : Buffer) (env : Env) (hself : c.IsSelf req.processId.1) :
    c.handle (.internal w (.invocationRequest req) payload env) =
      (c.setPending (c.pendingMsgs.insertInvocation env.slot req.invocationId.1 w)).submitPayload
        req.functionName.1 req.invocationId.1 payload InvocationSource.fromLocal := by
  show c.processInvocation w req payload env = _
  unfold Controller.processInvocation
  exact if_pos hself

/-- The result of an invocation that runs goes to the source of the invocation, and
the worker is released. -/
theorem handle_result (c : Controller) (w : ℕ) (id : Text ID_LENGTH) (returnCode : Int)
    (output : Buffer) {i : Invocation} (found : c.workQueue.activeInvocations id.1 = some i)
    (active : i.active = true) :
    c.handle (.internal w (.invocationResult ⟨id, returnCode⟩) output {}) =
      let c' := (c.setQueue { c.workQueue with
        activeInvocations := Function.update c.workQueue.activeInvocations id.1 none }).setWorkers
          (c.workers.finish w)
      if i.source.isRemote then
        .ok (c', [.server (.invocationResult i.source.source i.source.remoteProcess id.1
          returnCode output)])
      else
        .ok (c'.setPending (c.pendingMsgs.findInvocation id.1).2,
          (c.pendingMsgs.findInvocation id.1).1.map fun v => .toWorker v (.invocationResult
            { invocationId := id, returnCode := returnCode, bufferLength := toInt32 output.length }
            output)) := by
  show c.processWorkerResult w id.1 returnCode output = _
  unfold Controller.processWorkerResult Controller.processInvocationResult
  rw [WorkQueue.finish_active found active]
  by_cases hremote : i.source.isRemote = true
  · simp only [if_pos hremote]
    rfl
  · simp only [if_neg hremote, Controller.wake_ok]
    rfl

variable {s : System}

/-- The next invocation, if it can run now, fits the header it is sent with. -/
def Fits (s : System) : Event → Prop
  | .schedule => s.ctl.workers.hasIdleWorkers = true → ∀ key ∈ s.ctl.workQueue.next.1,
      ∀ i ∈ s.ctl.workQueue.activeInvocations key,
        i.payload.length ≤ Ipc.InvocationRequest.TABLE_LENGTH
  | _ => True

/-- What one step can do: it returns, with one of the effects. -/
theorem step_effect (h : Sound s.ctl.workQueue s.ctl.workers s.job) (e : Event)
    (hfits : Fits s e) : ∃ s', s.step e = .ok s' ∧ Effect s e s' := by
  cases e with
  | request peer msg payload =>
    unfold System.step
    simp only [handle_request]
    -- the queue takes it, or the peer is told at once that it does not
    rcases submitPayload_cases s.ctl msg.functionName msg.invocationId payload peer.source with
      ⟨q, htakes, hsub⟩ | ⟨message, hrefuses, hsub⟩
    · rw [hsub]
      exact ⟨_, congrArg Except.ok (emit_nil _ _ _), .requested htakes⟩
    · rw [hsub]
      unfold Controller.processInvocationResult
      rw [if_pos (source_isRemote peer)]
      exact ⟨_, congrArg Except.ok (emit_reply _ _ _ _ _ _ _ _), .refused hrefuses⟩
  | invoke w req payload env =>
    unfold System.step
    by_cases hcan : s.Runs w ∧ s.ctl.IsSelf req.processId.1
    · simp only [if_pos hcan, handle_invoke _ _ _ _ _ hcan.2]
      rcases submitPayload_cases (s.ctl.setPending (s.ctl.pendingMsgs.insertInvocation env.slot
        req.invocationId.1 w)) req.functionName req.invocationId payload
        InvocationSource.fromLocal with ⟨q, htakes, hsub⟩ | ⟨message, hrefuses, hsub⟩
      · rw [hsub]
        exact ⟨_, congrArg Except.ok (emit_nil _ _ _), .invoked hcan.1 htakes⟩
      · rw [hsub]
        unfold Controller.processInvocationResult
        rw [if_neg (by decide), Controller.wake_ok]
        exact ⟨_, congrArg Except.ok (emit_results _ _ _ _ _ _), .invokeRefused hcan.1 hrefuses⟩
    · exact ⟨s, if_neg hcan, .invokeSkipped⟩
  | schedule =>
    have hskip : s.emit .none (s.ctl, []) = s := emit_nil s .none s.ctl
    show ∃ s', (s.ctl.schedule >>= fun r => .ok (s.emit .none r)) = .ok s' ∧ _
    unfold Controller.schedule
    by_cases hidle : s.ctl.workers.hasIdleWorkers = true
    · rw [if_pos hidle]
      -- the first that is pending is submitted; `hfits` keeps the header from raising
      cases hnext : s.ctl.workQueue.next with
      | mk key q =>
        cases key with
        | none => exact ⟨s, congrArg Except.ok hskip, .scheduleSkipped⟩
        | some key =>
          rcases WorkQueue.next_some hnext with ⟨before, after, i, hpending, rfl, hi⟩
          have hlen := hfits hidle key (by simp [hnext]) i (by simp [hi])
          rcases Workers.submit_outcome hidle h.idle.le hlen with ⟨w, hfree, hsubmit⟩
          refine ⟨_, ?_, .submitted ((i.payload.map List.length).map toInt32) hpending hi hfree⟩
          simp only [hi, hsubmit]
          exact congrArg Except.ok (emit_dispatch _ _ _ _ _ _)
    · rw [if_neg hidle]
      exact ⟨s, congrArg Except.ok hskip, .scheduleSkipped⟩
  | result w returnCode output =>
    simp only [System.step]
    cases hj : s.job w with
    | none => exact ⟨s, rfl, .resultSkipped⟩
    | some j =>
      by_cases hruns : s.Runs w
      · -- its invocation is still active, so it is answered where it came from
        rcases (h.running w j hj).2 with ⟨i, hi, hactive, -⟩
        have hhandle := handle_result s.ctl w j.id returnCode output hi hactive
        by_cases hremote : i.source.isRemote = true
        · simp only [if_pos hruns, hhandle, if_pos hremote]
          exact ⟨_, congrArg Except.ok (emit_reply _ _ _ _ _ _ _ _),
            .answeredRemote hruns hj hi hactive hremote⟩
        · simp only [if_pos hruns, hhandle, if_neg hremote]
          exact ⟨_, congrArg Except.ok (emit_results _ _ _ _ _ _),
            .answeredLocal hruns hj hi hactive (by simpa using hremote)⟩
      · exact ⟨s, if_neg hruns, .resultSkipped⟩

theorem sound_takes (h : Sound q ws job) {key : Str} {payload : Buffer}
    {source : InvocationSource} (takes : Takes q key payload source q') : Sound q' ws job := by
  cases takes with
  | merged i found waits => exact sound_push h payload found waits
  | created i free named waits payloads from_source =>
    subst named
    exact sound_enqueue h free waits

abbrev System.Sound (s : System) : Prop :=
  Invocations.Sound s.ctl.workQueue s.ctl.workers s.job

theorem sound_effect {s' : System} {e : Event} (h : s.Sound) (heff : Effect s e s') :
    s'.Sound := by
  cases heff with
  | requested takes => exact sound_takes h takes
  | refused refuses => exact h
  | invoked runs takes => exact sound_takes h takes
  | invokeRefused runs refuses => exact h
  | invokeSkipped => exact h
  | submitted buffers pending found free => exact sound_submit h buffers pending found free
  | scheduleSkipped => exact h
  | answeredRemote runs job found active remote => exact sound_finish h job
  | answeredLocal runs job found active local_source => exact sound_finish h job
  | resultSkipped => exact h

end Praas.Process.Invocations
