import Praas.Process.Channel
import Praas.Process.Controller

/-! # The queues between the controller and its workers

A queue holds `MAX_MSGS` datagrams, and a send to a full one blocks. The poll loop is one
thread: it reads the messages of the workers and sends to them, and a worker that sends
does not read.

* `Overfull`: neither what the controller still has to send to a worker nor what the worker
  still has to send to it fits into the free places of its queue.
* `no_deadlock`: as long as no message is begun that makes them so, none is blocked on the
  other.
* `overfull_deadlocks`: once they are so, they end blocked on each other.
-/

namespace Praas.Process.Queues

open Ipc (MsgSize Body)

def MAX_MSGS : ℕ := 5

variable {μ : Type}

/-- A queue of datagrams: the last one of a message completes it for the reader. -/
abbrev Queue (μ : Type) := List (Option μ)

/-- The places that are free. -/
def room (q : Queue μ) : ℕ := MAX_MSGS - q.length

/-- A message of `n` datagrams. -/
def split (n : ℕ) (m : μ) : Queue μ := List.replicate (n - 1) none ++ [some m]

variable (size : MsgSize) (serialize : List (Str × ℕ) → Buffer)

/-- How many datagrams a message takes. -/
def datagrams (body : Body) : ℕ := (Ipc.send size (Ipc.Message.new 0) body).2.length

/-! ## Workers -/

/-- A message from a worker. -/
structure Request where
  msg : Ipc.MessageVariants
  payload : Buffer

/-- What goes with a message to a worker; `serialize` is `StateKeys::serialize`. -/
def WorkerMessage.body : WorkerMessage → Body
  | .getRequest _ none => .none
  | .getRequest _ (some payload) => .accessor payload
  | .invocationRequest _ payload => .buffers payload
  | .invocationResult _ payload => .accessor payload
  | .applicationUpdate _ => .none
  | .stateKeysResult keys => .accessor (serialize keys)

/-- What a function on a worker does that sends: a PUT, the calls that wait for a reply, and
the result. `copies` counts the buffers of the user at the address of the input. -/
inductive Op where
  | put (req : Ipc.GenericRequestParsed) (payload : Buffer)
  | get (req : Ipc.GenericRequestParsed)
  | stateKeys
  | invoke (req : Ipc.InvocationRequestParsed) (payload : Buffer) (copies : ℕ)
  | finish (req : Ipc.InvocationResultParsed) (payload : Buffer)

inductive Phase where
  | polling
  | running
  | waiting
deriving DecidableEq, Repr

namespace Op

def requests : Op → List Request
  | .put req payload => [⟨.putRequest req, payload⟩]
  | .get req => [⟨.getRequest req, []⟩]
  | .stateKeys => [⟨.stateKeysRequest, []⟩]
  | .invoke req payload copies => List.replicate copies ⟨.invocationRequest req, payload⟩
  | .finish req payload => [⟨.invocationResult req, payload⟩]

/-- What the worker does when it has sent. Without a buffer `invoke` raises. -/
def phase : Op → Phase
  | .put _ _ => .running
  | .get _ => .waiting
  | .stateKeys => .waiting
  | .invoke _ _ copies => if copies = 0 then .running else .waiting
  | .finish _ _ => .polling

/-- The datagrams of its messages. -/
def slots (o : Op) : Queue Request :=
  o.requests.flatMap fun r => split (datagrams size (.accessor r.payload)) r

end Op

/-- A worker: what it still has to send, and the two queues. -/
structure Worker where
  phase : Phase := .polling
  unsent : Queue Request := []
  toWorker : Queue WorkerMessage := []
  toController : Queue Request := []

namespace Worker

def start (v : Worker) (o : Op) : Worker :=
  if v.phase = .running ∧ v.unsent = [] then { v with phase := o.phase, unsent := o.slots size }
  else v

/-- `mq_send`, to the controller. -/
def push (v : Worker) : Worker :=
  match v.unsent with
  | [] => v
  | x :: rest =>
    if v.toController.length < MAX_MSGS then
      { v with unsent := rest, toController := v.toController ++ [x] }
    else v

/-- A function is started by an invocation; one that waits takes any message for its
reply. -/
def received (v : Worker) (m : WorkerMessage) : Phase :=
  match v.phase, m with
  | .polling, .invocationRequest _ _ => .running
  | .polling, _ => .polling
  | _, _ => .running

/-- `mq_receive`, in `poll` or in a call that waits. -/
def read (v : Worker) : Worker :=
  if v.phase ≠ .running ∧ v.unsent = [] then
    match v.toWorker with
    | [] => v
    | none :: rest => { v with toWorker := rest }
    | some m :: rest => { v with toWorker := rest, phase := v.received m }
  else v

/-- Neither `n` datagrams to the worker nor what it has begun to send fits. -/
def Tight (v : Worker) (n : ℕ) : Prop :=
  room v.toWorker < n ∧ room v.toController < v.unsent.length

end Worker

/-! ## The system -/

/-- The poll loop is between two inputs, or it reads a message of the worker `reading`, or it
has handled one: `todo` are the messages it has still to send, `unsent` is the rest of the
one to `target` it has begun. -/
structure System where
  ctl : Controller
  todo : List (ℕ × WorkerMessage) := []
  target : ℕ := 0
  unsent : Queue WorkerMessage := []
  reading : Option ℕ := none
  worker : ℕ → Worker := fun _ => {}

inductive Event where
  | external (m : ExternalMessage)
  | updates (us : List Common.ApplicationUpdate)
  | schedule
  | read (w : ℕ) (env : Env)
  | begin
  | push
  | op (w : ℕ) (o : Op)
  | workerPush (w : ℕ)
  | workerRead (w : ℕ)

namespace System

def setWorker (s : System) (w : ℕ) (v : Worker) : System :=
  { s with worker := Function.update s.worker w v }

def toWorkerOf : Output → Option (ℕ × WorkerMessage)
  | .toWorker w m => some (w, m)
  | .server _ => none

/-- The messages of a handler to workers. -/
def handle (s : System) (i : Controller.Input) : Except Fault System :=
  (s.ctl.handle i).map fun r => { s with ctl := r.1, todo := r.2.filterMap toWorkerOf }

/-- The poll loop is not sending. -/
def Receives (s : System) : Prop := s.todo = [] ∧ s.unsent = []

instance (s : System) : Decidable s.Receives := inferInstanceAs (Decidable (_ ∧ _))

/-- `poll` reacts to an input that is not a message of a worker. -/
def input (s : System) (i : Controller.Input) : Except Fault System :=
  if s.Receives ∧ s.reading = none then s.handle i else .ok s

/-- `mq_receive`, from the worker that the poll loop reads. -/
def read (s : System) (w : ℕ) (env : Env) : Except Fault System :=
  if s.Receives ∧ (s.reading = none ∨ s.reading = some w) then
    match (s.worker w).toController with
    | [] => .ok s
    | none :: rest =>
      .ok { s.setWorker w { s.worker w with toController := rest } with reading := some w }
    | some r :: rest =>
      { s.setWorker w { s.worker w with toController := rest } with reading := none }.handle
        (.internal w r.msg r.payload env)
  else .ok s

/-- The next message is begun. -/
def begin (s : System) : System :=
  match s.unsent, s.todo with
  | [], (w, m) :: rest =>
    { s with
      todo := rest
      target := w
      unsent := split (datagrams size (WorkerMessage.body serialize m)) m }
  | _, _ => s

/-- `mq_send`, to a worker. -/
def push (s : System) : System :=
  match s.unsent with
  | [] => s
  | x :: rest =>
    if (s.worker s.target).toWorker.length < MAX_MSGS then
      { s.setWorker s.target { s.worker s.target with
          toWorker := (s.worker s.target).toWorker ++ [x] } with unsent := rest }
    else s

/-- A step whose queue is full or empty, or whose turn it is not, has not returned. -/
def step (s : System) : Event → Except Fault System
  | .external m => s.input (.external m)
  | .updates us => s.input (.updates us)
  | .schedule => s.input .schedule
  | .read w env => s.read w env
  | .begin => .ok (s.begin size serialize)
  | .push => .ok s.push
  | .op w o => .ok (s.setWorker w ((s.worker w).start size o))
  | .workerPush w => .ok (s.setWorker w (s.worker w).push)
  | .workerRead w => .ok (s.setWorker w (s.worker w).read)

/-- The controller is blocked sending to the worker, and the worker sending to the
controller. -/
def Deadlocked (s : System) (w : ℕ) : Prop :=
  (s.target = w ∧ s.unsent ≠ [] ∧ MAX_MSGS ≤ (s.worker w).toWorker.length) ∧
    (s.worker w).unsent ≠ [] ∧ MAX_MSGS ≤ (s.worker w).toController.length

instance (s : System) (w : ℕ) : Decidable (s.Deadlocked w) :=
  inferInstanceAs (Decidable ((_ ∧ ¬ _ ∧ _) ∧ ¬ _ ∧ _))

/-- Neither what the controller has begun to send to its target nor what the target has
begun to send to the controller fits. -/
def Overfull (s : System) : Prop := (s.worker s.target).Tight s.unsent.length

/-- When one begins to send to the other while the other sends to it, the message of the one
or the rest of the other's fits. -/
def Fits (s : System) : Event → Prop
  | .begin => s.unsent = [] → ∀ q ∈ s.todo.head?,
      datagrams size (WorkerMessage.body serialize q.2) ≤ room (s.worker q.1).toWorker ∨
        (s.worker q.1).unsent.length ≤ room (s.worker q.1).toController
  | .op w o => (s.worker w).phase = .running → (s.worker w).unsent = [] → s.target = w →
      s.unsent.length ≤ room (s.worker w).toWorker ∨
        (o.slots size).length ≤ room (s.worker w).toController
  | _ => True

instance : ∀ (s : System) (e : Event), Decidable (s.Fits size serialize e)
  | _, .begin => inferInstanceAs (Decidable (_ → ∀ _ ∈ _, _))
  | _, .op _ _ => inferInstanceAs (Decidable (_ → _ → _ → _))
  | _, .external _ => isTrue trivial
  | _, .updates _ => isTrue trivial
  | _, .schedule => isTrue trivial
  | _, .read _ _ => isTrue trivial
  | _, .push => isTrue trivial
  | _, .workerPush _ => isTrue trivial
  | _, .workerRead _ => isTrue trivial

end System

/-! ## Transfers that fit -/

theorem length_split {n : ℕ} (h : 0 < n) (m : μ) : (split n m).length = n := by
  unfold split
  rw [List.length_append, List.length_replicate, List.length_singleton]
  omega

/-- Every message takes at least the datagram of its header. -/
theorem datagrams_pos (body : Body) : 0 < datagrams size body := by
  unfold datagrams Ipc.send
  cases body with
  | none =>
    dsimp only
    rw [Ipc.sendData_header]
    exact Nat.one_pos
  | accessor buf =>
    dsimp only
    rw [Ipc.sendData_header]
    exact Nat.succ_pos _
  | buffers data =>
    dsimp only
    rw [Ipc.sendData_header]
    exact Nat.succ_pos _

namespace Worker

variable {v : Worker} {n : ℕ}

/-- A datagram that is sent takes the place it was to take. -/
theorem tight_push (h : v.push.Tight n) : v.Tight n := by
  unfold push at h
  split at h
  case h_1 => exact h
  case h_2 x rest hunsent =>
    split_ifs at h with hroom
    · rcases h with ⟨hto, hfrom⟩
      constructor
      · exact hto
      · unfold room at hfrom ⊢
        dsimp only at hfrom
        rw [List.length_append, List.length_singleton] at hfrom
        rw [hunsent, List.length_cons]
        omega
    · exact h

/-- A worker that reads has nothing to send. -/
theorem tight_read (h : v.read.Tight n) : v.Tight n := by
  unfold read at h
  split_ifs at h with hreads
  · have hnone : v.unsent.length = 0 := by
      rw [hreads.2]
      rfl
    split at h
    · exact h
    · exact absurd (lt_of_le_of_lt (Nat.zero_le _) h.2) (by dsimp only; omega)
    · exact absurd (lt_of_le_of_lt (Nat.zero_le _) h.2) (by dsimp only; omega)
  · exact h

theorem tight_start {o : Op} (hfits : v.phase = .running → v.unsent = [] →
    n ≤ room v.toWorker ∨ (o.slots size).length ≤ room v.toController)
    (h : (v.start size o).Tight n) : v.Tight n := by
  unfold start at h
  split_ifs at h with hstarts
  · rcases h with ⟨hto, hfrom⟩
    dsimp only at hto hfrom
    rcases hfits hstarts.1 hstarts.2 with hfit | hfit
    · omega
    · omega
  · exact h

/-- A message that the controller has read leaves places free. -/
theorem tight_tail {x : Option Request} {rest : Queue Request} (hqueue : v.toController = x :: rest)
    (h : Tight { v with toController := rest } n) : v.Tight n := by
  rcases h with ⟨hto, hfrom⟩
  constructor
  · exact hto
  · unfold room at hfrom ⊢
    rw [hqueue, List.length_cons]
    dsimp only at hfrom
    omega

end Worker

namespace System

variable {size serialize} {s s' : System}

theorem overfull_setWorker {w : ℕ} {v : Worker}
    (hv : s.target = w → v.Tight s.unsent.length → (s.worker w).Tight s.unsent.length)
    (h : (s.setWorker w v).Overfull) : s.Overfull := by
  unfold Overfull setWorker at h
  unfold Overfull
  dsimp only at h
  rcases eq_or_ne s.target w with heq | hne
  · rw [heq, Function.update_self] at h
    rw [heq]
    exact hv heq h
  · rw [Function.update_of_ne hne] at h
    exact h

/-- What a handler decides does not touch a queue. -/
theorem overfull_handle {i : Controller.Input} (hstep : s.handle i = .ok s')
    (h : s'.Overfull) : s.Overfull := by
  unfold handle at hstep
  cases hhandle : s.ctl.handle i with
  | error f =>
    rw [hhandle] at hstep
    cases hstep
  | ok r =>
    rw [hhandle] at hstep
    obtain rfl : _ = s' := Except.ok.inj hstep
    exact h

theorem overfull_input {i : Controller.Input} (hstep : s.input i = .ok s')
    (h : s'.Overfull) : s.Overfull := by
  unfold input at hstep
  split_ifs at hstep with hturn
  · exact overfull_handle hstep h
  · obtain rfl : s = s' := Except.ok.inj hstep
    exact h

theorem overfull_read {w : ℕ} {env : Env} (hstep : s.read w env = .ok s')
    (h : s'.Overfull) : s.Overfull := by
  unfold read at hstep
  split_ifs at hstep with hturn
  · split at hstep
    case h_1 =>
      obtain rfl : s = s' := Except.ok.inj hstep
      exact h
    case h_2 rest hqueue =>
      obtain rfl : _ = s' := Except.ok.inj hstep
      exact overfull_setWorker (fun _ => Worker.tight_tail hqueue) h
    case h_3 r rest hqueue =>
      have hread := overfull_handle hstep h
      exact overfull_setWorker (fun _ => Worker.tight_tail hqueue) hread
  · obtain rfl : s = s' := Except.ok.inj hstep
    exact h

theorem overfull_push (h : s.push.Overfull) : s.Overfull := by
  unfold push at h
  split at h
  case h_1 => exact h
  case h_2 x rest hunsent =>
    split_ifs at h with hroom
    · rcases h with ⟨hto, hfrom⟩
      unfold setWorker at hto hfrom
      dsimp only at hto hfrom
      rw [Function.update_self] at hto hfrom
      constructor
      · unfold room at hto ⊢
        rw [List.length_append, List.length_singleton] at hto
        rw [hunsent, List.length_cons]
        omega
      · exact hfrom
    · exact h

theorem overfull_begin (hfits : s.Fits size serialize .begin)
    (h : (s.begin size serialize).Overfull) : s.Overfull := by
  unfold begin at h
  split at h
  case h_1 w m rest hunsent htodo =>
    exfalso
    rcases h with ⟨hto, hfrom⟩
    dsimp only at hto hfrom
    rw [length_split (datagrams_pos size _)] at hto
    have hhead : (w, m) ∈ s.todo.head? := by
      rw [htodo]
      rfl
    rcases hfits hunsent (w, m) hhead with hfit | hfit
    · exact absurd hto (not_lt.2 hfit)
    · exact absurd hfrom (not_lt.2 hfit)
  case h_2 => exact h

/-- **One step.** Only a message that is begun makes the transfers overfull. -/
theorem overfull_step {e : Event} (hfits : s.Fits size serialize e)
    (hstep : s.step size serialize e = .ok s') (h : s'.Overfull) : s.Overfull := by
  cases e with
  | external m => exact overfull_input hstep h
  | updates us => exact overfull_input hstep h
  | schedule => exact overfull_input hstep h
  | read w env => exact overfull_read hstep h
  | begin =>
    obtain rfl : _ = s' := Except.ok.inj hstep
    exact overfull_begin hfits h
  | push =>
    obtain rfl : _ = s' := Except.ok.inj hstep
    exact overfull_push h
  | op w o =>
    -- it matters only if the worker is the one that the controller sends to
    obtain rfl : _ = s' := Except.ok.inj hstep
    apply overfull_setWorker _ h
    intro htarget
    apply Worker.tight_start size
    intro hrunning hnone
    exact hfits hrunning hnone htarget
  | workerPush w =>
    obtain rfl : _ = s' := Except.ok.inj hstep
    exact overfull_setWorker (fun _ => Worker.tight_push) h
  | workerRead w =>
    obtain rfl : _ = s' := Except.ok.inj hstep
    exact overfull_setWorker (fun _ => Worker.tight_read) h

theorem overfull_of_deadlocked {w : ℕ} (h : s.Deadlocked w) : s.Overfull := by
  rcases h with ⟨⟨rfl, hctl, hto⟩, hworker, hfrom⟩
  have hsend : 0 < s.unsent.length := List.length_pos_iff.2 hctl
  have hworkerSend : 0 < (s.worker s.target).unsent.length := List.length_pos_iff.2 hworker
  constructor
  · unfold room
    omega
  · unfold room
    omega

end System

/-! ## Runs -/

open Praas.Process.Queues.System

/-- The controller has started, and its workers wait for invocations. -/
def System.new (processId : Str) (functionWorkers : ℕ) (functions : Str → Option Trigger) : System where
  ctl := Controller.new processId functionWorkers functions

/-- **No deadlock.** As long as, whenever the controller or a worker begins to send to the
other while the other sends to it, one of the two transfers fits into the queue, they are
never blocked on each other. -/
theorem no_deadlock (processId : Str) (functionWorkers : ℕ) (functions : Str → Option Trigger)
    {es : List Event} {s : System}
    (hfits : Lts.Meets (step size serialize) (Fits size serialize)
      (System.new processId functionWorkers functions) es)
    (hrun : Lts.run (step size serialize) (System.new processId functionWorkers functions) es =
      .ok s) (w : ℕ) : ¬ s.Deadlocked w := by
  have hkeeps : ∀ (s : System) (e : Event) (s' : System), ¬ s.Overfull →
      Fits size serialize s e → s.step size serialize e = .ok s' → ¬ s'.Overfull :=
    fun s e s' hinv hfit hstep hover => hinv (overfull_step hfit hstep hover)
  have hnew : ¬ (System.new processId functionWorkers functions).Overfull :=
    fun h => absurd h.1 (Nat.not_lt_zero _)
  have hend : ¬ s.Overfull := Lts.run_invariant hkeeps hnew hfits hrun
  exact fun hdead => hend (overfull_of_deadlocked hdead)

/-- The size of a datagram, if none is configured. -/
def MAX_MSG_SIZE : MsgSize := ⟨1024, by decide⟩

/-- An invocation request of the control plane for the function `f`. -/
def sampleRequest : ExternalMessage :=
  controlplaneMessage ([4, 0] ++ List.replicate 8 0 ++ [102] ++ List.replicate 59 0) []

def samplePut : Op := .put ⟨⟨str ['S', 'E', 'L', 'F'], by decide⟩, default, false⟩ []

/-- One change of the application, while the function sends. -/
def sampleUpdate : List Event :=
  [.external sampleRequest, .schedule, .begin, .push, .workerRead 0, .op 0 samplePut,
    .updates [⟨Common.Status.ACTIVE, str ['p']⟩], .begin, .push, .workerPush 0, .read 0 {}]

theorem no_deadlock_update :
    ∃ s, Lts.run (step MAX_MSG_SIZE fun _ => []) (System.new (str ['q']) 1 fun _ => some .direct)
      sampleUpdate = .ok s ∧ ¬ s.Deadlocked 0 := by
  rcases Lts.run_test (step MAX_MSG_SIZE fun _ => []) (System.new (str ['q']) 1 fun _ => some .direct)
    sampleUpdate (fun s => s.Receives) (by decide +kernel) with ⟨s, hrun, -⟩
  exact ⟨s, hrun, no_deadlock MAX_MSG_SIZE (fun _ => []) _ _ _ (by decide +kernel) hrun 0⟩

/-- The function runs and sends six messages, while the controller tells the worker of six
changes of the application. -/
def sampleBroadcast : List Event :=
  [.external sampleRequest, .schedule, .begin, .push, .workerRead 0] ++
    (List.replicate 6 [.op 0 samplePut, .workerPush 0]).flatten ++
    [.updates (List.replicate 6 ⟨Common.Status.ACTIVE, str ['p']⟩)] ++ (List.replicate 6 [.begin, .push]).flatten

theorem broadcast_deadlocks :
    ∃ s, Lts.run (step MAX_MSG_SIZE fun _ => []) (System.new (str ['q']) 1 fun _ => some .direct)
      sampleBroadcast = .ok s ∧ s.Deadlocked 0 :=
  Lts.run_test _ _ _ _ (by decide +kernel)

section Converse

variable {size serialize} {s : System}

/-- A message that does not fit fills its queue. -/
theorem overfull_of_push (h : s.Overfull) (hroom : 0 < room (s.worker s.target).toWorker) :
    s.push.Overfull ∧ s.push.target = s.target ∧
      room (s.push.worker s.target).toWorker < room (s.worker s.target).toWorker ∧
      (s.push.worker s.target).toController = (s.worker s.target).toController := by
  have hfree : (s.worker s.target).toWorker.length < MAX_MSGS := by
    unfold room at hroom
    omega
  rcases h with ⟨hto, hfrom⟩
  unfold push
  split
  case h_1 hnone =>
    rw [hnone] at hto
    exact absurd hto (Nat.not_lt_zero _)
  case h_2 x rest hunsent =>
    rw [hunsent, List.length_cons] at hto
    rw [if_pos hfree]
    unfold setWorker Overfull Worker.Tight
    dsimp only
    rw [Function.update_self]
    dsimp only
    unfold room at *
    rw [List.length_append, List.length_singleton]
    refine ⟨⟨by omega, hfrom⟩, rfl, by omega, rfl⟩

theorem overfull_of_workerPush (h : s.Overfull)
    (hroom : 0 < room (s.worker s.target).toController) :
    (s.setWorker s.target (s.worker s.target).push).Overfull ∧
      room (s.worker s.target).push.toController < room (s.worker s.target).toController ∧
      (s.worker s.target).push.toWorker = (s.worker s.target).toWorker := by
  have hfree : (s.worker s.target).toController.length < MAX_MSGS := by
    unfold room at hroom
    omega
  rcases h with ⟨hto, hfrom⟩
  unfold setWorker Overfull Worker.Tight
  dsimp only
  rw [Function.update_self]
  unfold Worker.push
  split
  case h_1 hnone =>
    rw [hnone] at hfrom
    exact absurd hfrom (Nat.not_lt_zero _)
  case h_2 x rest hunsent =>
    rw [hunsent, List.length_cons] at hfrom
    rw [if_pos hfree]
    dsimp only
    unfold room at *
    rw [List.length_append, List.length_singleton]
    refine ⟨⟨hto, by omega⟩, by omega, rfl⟩

/-- Transfers that are overfull end in a deadlock, if both only go on. -/
theorem overfull_deadlocks (h : s.Overfull) :
    ∃ es t, Lts.run (step size serialize) s es = .ok t ∧ t.Deadlocked s.target := by
  -- the places that are left in the two queues
  induction hn : room (s.worker s.target).toWorker + room (s.worker s.target).toController using
    Nat.strong_induction_on generalizing s with
  | _ n ih =>
    rcases Nat.eq_zero_or_pos (room (s.worker s.target).toWorker) with hto | hto
    · rcases Nat.eq_zero_or_pos (room (s.worker s.target).toController) with hfrom | hfrom
      · have hctl : s.unsent ≠ [] := List.ne_nil_of_length_pos (lt_of_le_of_lt (Nat.zero_le _) h.1)
        have hworker : (s.worker s.target).unsent ≠ [] :=
          List.ne_nil_of_length_pos (lt_of_le_of_lt (Nat.zero_le _) h.2)
        refine ⟨[], s, rfl, ⟨rfl, hctl, ?_⟩, hworker, ?_⟩
        · unfold room at hto
          omega
        · unfold room at hfrom
          omega
      · rcases overfull_of_workerPush h hfrom with ⟨hover, hless, hsame⟩
        have hself : (s.setWorker s.target (s.worker s.target).push).worker s.target =
            (s.worker s.target).push := Function.update_self ..
        have hfewer : room ((s.setWorker s.target (s.worker s.target).push).worker s.target).toWorker +
            room ((s.setWorker s.target (s.worker s.target).push).worker s.target).toController <
              n := by
          rw [hself, hsame]
          omega
        rcases ih _ hfewer hover rfl with ⟨es, t, hrun, hdead⟩
        exact ⟨.workerPush s.target :: es, t, Lts.run_cons_ok.2 ⟨_, rfl, hrun⟩, hdead⟩
    · rcases overfull_of_push h hto with ⟨hover, htarget, hless, hsame⟩
      have hfewer : room (s.push.worker s.push.target).toWorker +
          room (s.push.worker s.push.target).toController < n := by
        rw [htarget, hsame]
        omega
      rcases ih _ hfewer hover rfl with ⟨es, t, hrun, hdead⟩
      rw [htarget] at hdead
      exact ⟨.push :: es, t, Lts.run_cons_ok.2 ⟨_, rfl, hrun⟩, hdead⟩

/-- A message that is begun although neither transfer fits makes them overfull. -/
theorem overfull_of_not_fits {e : Event} (h : ¬ s.Fits size serialize e) :
    ∃ s', s.step size serialize e = .ok s' ∧ s'.Overfull := by
  cases e with
  | begin =>
    unfold Fits at h
    push Not at h
    rcases h with ⟨hunsent, ⟨w, m⟩, hhead, hto, hfrom⟩
    refine ⟨_, rfl, ?_⟩
    unfold begin
    cases htodo : s.todo with
    | nil =>
      rw [htodo] at hhead
      cases hhead
    | cons q rest =>
      rw [htodo] at hhead
      obtain rfl : q = (w, m) := Option.some.inj hhead
      rw [hunsent]
      refine ⟨?_, hfrom⟩
      dsimp only
      rw [length_split (datagrams_pos size _)]
      exact hto
  | op w o =>
    unfold Fits at h
    push Not at h
    rcases h with ⟨hrunning, hnone, htarget, hto, hfrom⟩
    refine ⟨_, rfl, ?_⟩
    unfold Overfull setWorker
    dsimp only
    rw [htarget, Function.update_self]
    unfold Worker.start
    rw [if_pos ⟨hrunning, hnone⟩]
    exact ⟨hto, hfrom⟩
  | _ => exact absurd trivial h

/-- The condition is exact: a step that does not meet it leads to a deadlock. -/
theorem deadlock_of_not_fits {e : Event} (h : ¬ s.Fits size serialize e) :
    ∃ es t w, Lts.run (step size serialize) s (e :: es) = .ok t ∧ t.Deadlocked w := by
  rcases overfull_of_not_fits h with ⟨s', hstep, hover⟩
  rcases overfull_deadlocks hover with ⟨es, t, hrun, hdead⟩
  exact ⟨es, t, s'.target, Lts.run_cons_ok.2 ⟨s', hstep, hrun⟩, hdead⟩

end Converse

end Praas.Process.Queues
