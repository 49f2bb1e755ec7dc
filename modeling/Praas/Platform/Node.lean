import Praas.Process.Dispatch
import Praas.Process.OutgoingInvokes
import Praas.Runtime.InvokerLoop
import Praas.Platform.Transport

/-! # A process behind its TCP server

What the TCP server hands to the controller waits for the poll loop; the workers take
invocations from their queues, call the function and send its result; and the calls of the
controller into the server are what the process answers.

* `Node.step` — the poll loop and the workers, in any order;
* `Looks` — what the process is from outside: its controller, the calls it has not handled, and
  what is under way between the controller and each worker;
* one lemma for each event, what it makes of a process that looks like that.
-/

namespace Praas.Platform

open Process (WorkerMessage Controller Output Env Buffer ServerCall Trigger InvocationSource)
open Process.Ipc (Text MsgSize NAME_LENGTH ID_LENGTH)
open Process.Queues (WorkerMessage.body)
open Praas.Runtime (Invoker)
open Praas.Runtime.InvokerLoop (Library)

/-! ## The process -/

/-- A call of the TCP server, as the poll loop finds it. -/
def ofCall : Process.Remote.Call → Event
  | .remoteMessage msg payload processId => .external (Process.remoteMessage msg payload processId)
  | .dataplaneMessage msg payload => .external (Process.dataplaneMessage msg payload)
  | .controlplaneMessage msg payload => .external (Process.controlplaneMessage msg payload)
  | .updateApplication status process => .updates [⟨status, process⟩]

/-- The loop of a worker: the invocation that it runs, with the bytes of its arguments. The
input they are slices of is not written to before the next call of `poll`. -/
structure Executor where
  running : Option (Runtime.Invocation × List Buffer) := none
  application : Common.Application := {}
  ended : Bool := false

structure Node where
  process : System
  inbox : List Process.Remote.Call := []
  executor : ℕ → Executor := fun _ => {}

/-- What a process is started with: its queues, its functions and its workers, and what the
code of a function does, which makes no calls: it returns an `int` and an output. -/
structure Config where
  size : MsgSize
  serialize : List (Str × ℕ) → Buffer
  lib : Library
  code : Str → List Buffer → Int32 × Buffer
  processId : Str
  functionWorkers : ℕ
  functions : Str → Option Trigger

/-- Its controller when it starts, and whenever it has nothing to do. -/
def Config.controller (p : Config) : Controller :=
  Controller.new p.processId p.functionWorkers p.functions

/-- What comes of an invocation with one argument: the code and the output of the function, if
it is known. -/
def Config.answer (p : Config) (functionName : Str) (payload : Buffer) : Int × Buffer :=
  match p.functions functionName with
  | none => (-1, Process.WorkQueue.unknownFunction functionName)
  | some _ => ((p.code functionName [payload]).1.toInt, (p.code functionName [payload]).2)

/-- The message of a rejection, or the output of the function, is small. -/
theorem Config.answer_small (p : Config) {functionName : Text NAME_LENGTH} {payload : Buffer}
    (hsmall : (p.code functionName.1 [payload]).2.length < 2 ^ 31) :
    (-2 ^ 31 ≤ (p.answer functionName.1 payload).1 ∧ (p.answer functionName.1 payload).1 < 2 ^ 31) ∧
      (p.answer functionName.1 payload).2.length < 2 ^ 31 := by
  have hname : functionName.1.length ≤ 32 := functionName.2.1
  unfold Config.answer
  cases p.functions functionName.1 with
  | none =>
    have hmessage : (Process.WorkQueue.unknownFunction functionName.1).length =
        43 + functionName.1.length := by
      unfold Process.WorkQueue.unknownFunction
      rw [List.length_append]
      rfl
    refine ⟨(by decide : -2 ^ 31 ≤ (-1 : Int) ∧ (-1 : Int) < 2 ^ 31), ?_⟩
    show (Process.WorkQueue.unknownFunction functionName.1).length < 2 ^ 31
    omega
  | some trigger => exact ⟨⟨Int32.le_toInt _, Int32.toInt_lt _⟩, hsmall⟩

/-- A process with one function, which reverses its argument, and two workers. -/
def sampleConfig : Config where
  size := ⟨128, le_rfl⟩
  serialize := fun _ => []
  lib := ⟨[str ['f']], fun _ => true⟩
  code := fun _ args => (3, args.flatten.reverse)
  processId := str ['p']
  functionWorkers := 2
  functions := fun name => if name = str ['f'] then some .direct else none

namespace Node

inductive Event where
  | external
  | schedule
  | receive (w ready : ℕ) (env : Env)
  | worker (w : ℕ)

def new (p : Config) : Node where
  process := System.new p.processId p.functionWorkers p.functions

@[simps] def setExecutor (n : Node) (w : ℕ) (x : Executor) : Node :=
  { n with executor := Function.update n.executor w x }

section Steps

variable (p : Config)

/-- An event of the controller or of a queue, and the calls into the server that it makes. -/
def turn (n : Node) (e : Platform.Event) : Except Fault (Node × List ServerCall) := do
  let s ← n.process.step p.size p.serialize e
  return ({ n with process := s }, s.calls.drop n.process.calls.length)

/-- What the loop of a worker does with a message; a `PraaSException` ends it. -/
def handled (x : Executor) (header : Process.Ipc.Message) (input : List Byte) :
    Except Fault Executor := do
  match ← Invoker.handle x.application header.data input with
  | .raised => return { x with ended := true }
  | .unsupported => return x
  | .updated application => return { x with application := application }
  | .invocation i => return { x with running := some (i, i.args.map (Runtime.Arguments.bytes input)) }

/-- A call of `poll`, which may wait. -/
def poll (n : Node) (w : ℕ) : Except Fault (Node × List ServerCall) := do
  let s ← n.process.step p.size p.serialize (.poll w)
  match (s.worker w).received.drop (n.process.worker w).received.length with
  | [] => return ({ n with process := s }, [])
  | (header, input) :: _ =>
    let x ← handled (n.executor w) header input
    return ({ n with process := s }.setExecutor w x, [])

/-- The function returns, and its result is sent; one that was not loaded is passed over. -/
def finish (n : Node) (w : ℕ) (i : Runtime.Invocation) (args : List Buffer) :
    Except Fault (Node × List ServerCall) :=
  let n := n.setExecutor w { n.executor w with running := none }
  if p.lib.hasFunction i.functionName then
    if h : i.key.length ≤ ID_LENGTH ∧ (0 : Byte) ∉ i.key then
      n.turn p
        (.put w (.finish ⟨i.key, h⟩ (p.code i.functionName args).2 (p.code i.functionName args).1))
    else .error (.invalidArgument "Invocation ID too long" i.key.length ID_LENGTH)
  else .ok (n, [])

/-- The loop of a worker goes on. -/
def work (n : Node) (w : ℕ) : Except Fault (Node × List ServerCall) :=
  match (n.executor w).running with
  | some (i, args) => n.finish p w i args
  | none => if (n.executor w).ended then .ok (n, []) else n.poll p w

def step (n : Node) : Event → Except Fault (Node × List ServerCall)
  | .external =>
    match n.inbox with
    | [] => .ok (n, [])
    | c :: rest => { n with inbox := rest }.turn p (ofCall c)
  | .schedule => n.turn p .schedule
  | .receive w ready env => n.turn p (.receive w ready env)
  | .worker w => n.work p w

end Steps

end Node

/-! ## What a process looks like from outside -/

/-- The controller, what it has not handled yet, and what is under way between it and its
workers. -/
structure Looks (p : Config) (n : Node) (ctl : Controller) (inbox : List Process.Remote.Call)
    (up : ℕ → List Request) (down : ℕ → List WorkerMessage)
    (running : ℕ → Option (Runtime.Invocation × List Buffer)) : Prop where
  plain : ∃ t, Refines p.size p.serialize n.process t ∧ t.ctl = ctl ∧ t.up = up ∧ t.down = down
  inbox : n.inbox = inbox
  running : ∀ w, (n.executor w).running = running w
  ended : ∀ w, (n.executor w).ended = false

/-- What a handler sends to a worker. -/
def sentTo (w : ℕ) : Output → Option WorkerMessage
  | .toWorker v m => if v = w then some m else none
  | .server _ => none

section Looking

variable {p : Config} {n : Node} {ctl : Controller} {inbox : List Process.Remote.Call}
  {up : ℕ → List Request} {down : ℕ → List WorkerMessage}
  {running : ℕ → Option (Runtime.Invocation × List Buffer)}

theorem looks_new (p : Config) :
    Looks p (Node.new p) p.controller [] (fun _ => []) (fun _ => []) fun _ => none where
  plain := ⟨_, refines_new p.processId p.functionWorkers p.functions, rfl, rfl, rfl⟩
  inbox := rfl
  running _ := rfl
  ended _ := rfl

/-- More calls of the TCP server. -/
theorem looks_enter (h : Looks p n ctl inbox up down running) (calls : List Process.Remote.Call) :
    Looks p { n with inbox := n.inbox ++ calls } ctl (inbox ++ calls) up down running :=
  ⟨h.plain, congrArg (· ++ calls) h.inbox, h.running, h.ended⟩

/-! ### Handlers -/

/-- What a handler has sent. -/
theorem deliver_all_eq (outs : List Output) (t : Plain) :
    (outs.foldl Plain.deliver t).ctl = t.ctl ∧ (outs.foldl Plain.deliver t).up = t.up ∧
      (outs.foldl Plain.deliver t).calls = t.calls ++ outs.filterMap Output.call ∧
      ∀ w, (outs.foldl Plain.deliver t).down w = t.down w ++ outs.filterMap (sentTo w) := by
  induction outs generalizing t with
  | nil => simp
  | cons o outs ih =>
    rcases ih (t.deliver o) with ⟨hctl, hup, hcalls, hdown⟩
    cases o with
    | toWorker v m =>
      refine ⟨hctl, hup, hcalls, ?_⟩
      intro w
      rw [List.foldl_cons, hdown]
      rcases eq_or_ne v w with rfl | hne
      · simp [Plain.deliver, sentTo]
      · simp [Plain.deliver, sentTo, hne, Function.update_of_ne hne.symm]
    | server c =>
      refine ⟨hctl, hup, ?_, hdown⟩
      rw [List.foldl_cons, hcalls]
      exact List.append_assoc _ _ _

/-- A handler of the controller, with what it calls and what it sends to the workers. -/
theorem looks_handled (h : Looks p n ctl inbox up down running) {s : System}
    {t : Plain} {r : Controller × List Output} {up' : ℕ → List Request}
    (hrefines : Refines p.size p.serialize s (r.2.foldl Plain.deliver { t with ctl := r.1 }))
    (hcalls : t.calls = n.process.calls) (hup : t.up = up') (hdown : t.down = down) :
    s.calls.drop n.process.calls.length = r.2.filterMap Output.call ∧
      Looks p { n with process := s } r.1 inbox up'
        (fun w => down w ++ r.2.filterMap (sentTo w)) running := by
  rcases deliver_all_eq r.2 { t with ctl := r.1 } with ⟨hctl', hup', hcalls', hdown'⟩
  refine ⟨?_, ⟨_, hrefines, hctl', hup'.trans hup, ?_⟩, h.inbox, h.running, h.ended⟩
  · rw [hrefines.calls, hcalls', ← hcalls]
    exact List.drop_left' rfl
  · rw [← hdown]
    exact funext hdown'

/-- Nothing was sent to the workers. -/
theorem looks_unsent {outs : List Output}
    (h : Looks p n ctl inbox up (fun w => down w ++ outs.filterMap (sentTo w)) running)
    (houts : ∀ w, outs.filterMap (sentTo w) = []) : Looks p n ctl inbox up down running := by
  simpa only [houts, List.append_nil] using h

/-- An input that does not come from a worker. -/
theorem looks_input (h : Looks p n ctl inbox up down running) {e : Event}
    {i : Controller.Input} (hfetch : n.process.fetch p.size e = .ok (n.process, some i))
    (hrange : InRange i) {r : Controller × List Output} (hhandle : ctl.handle i = .ok r)
    (hsmall : ∀ o ∈ r.2, Small p.serialize o) :
    ∃ s, n.turn p e = .ok ({ n with process := s }, r.2.filterMap Output.call) ∧
      Looks p { n with process := s } r.1 inbox up
        (fun w => down w ++ r.2.filterMap (sentTo w)) running := by
  rcases h.plain with ⟨t, hrefines, rfl, hup, hdown⟩
  have hsmall' : ∀ o ∈ n.process.outputs p.size e, Small p.serialize o := by
    rw [outputs_some hfetch, hrefines.ctl, hhandle]
    exact hsmall
  have hagree := input_refines hrefines hfetch hrange hsmall'
  rw [Lts.run_singleton, show t.step (.input i) = .ok _ by
    simp only [Plain.step, Plain.handle, hhandle]; rfl] at hagree
  rcases hagree.ok_of with ⟨s, hs, hrefines'⟩
  rcases looks_handled h hrefines' hrefines.calls.symm hup hdown with ⟨hcalls, hlooks⟩
  refine ⟨s, ?_, hlooks⟩
  unfold Node.turn
  rw [hs, ← hcalls]
  rfl

/-- The poll loop with nothing that came in. -/
theorem looks_external_empty (h : Looks p n ctl [] up down running) :
    n.step p .external = .ok (n, []) := by
  simp only [Node.step, h.inbox]

/-- The poll loop takes the next call of the TCP server. -/
theorem looks_external {c : Process.Remote.Call} (h : Looks p n ctl (c :: inbox) up down running)
    {i : Controller.Input} (hfetch : n.process.fetch p.size (ofCall c) = .ok (n.process, some i))
    (hrange : InRange i) {r : Controller × List Output} (hhandle : ctl.handle i = .ok r)
    (hsmall : ∀ o ∈ r.2, Small p.serialize o) :
    ∃ n', n.step p .external = .ok (n', r.2.filterMap Output.call) ∧
      Looks p n' r.1 inbox up (fun w => down w ++ r.2.filterMap (sentTo w)) running := by
  have hrest : Looks p { n with inbox := inbox } ctl inbox up down running :=
    ⟨h.plain, rfl, h.running, h.ended⟩
  rcases looks_input hrest hfetch hrange hhandle hsmall with ⟨s, hs, hlooks⟩
  refine ⟨_, ?_, hlooks⟩
  simp only [Node.step, h.inbox]
  exact hs

/-! ### Calls of `receive` -/

/-- Without a message there is nothing to handle. -/
theorem looks_receive_empty (h : Looks p n ctl inbox up down running) {w : ℕ} (hempty : up w = [])
    (ready : ℕ) (env : Env) :
    ∃ s, n.turn p (.receive w ready env) = .ok ({ n with process := s }, []) ∧
      Looks p { n with process := s } ctl inbox up down running := by
  rcases h.plain with ⟨t, hrefines, hctl, rfl, hdown⟩
  rcases fetch_receive hrefines w ready env with
    ⟨l, ⟨hfetch, hlink, -⟩ | ⟨r, rest, hcons, -, -⟩⟩
  · have hset := hrefines.updateUp (w := w) hlink
    rw [Function.update_eq_self] at hset
    refine ⟨_, ?_, ⟨t, hset, hctl, rfl, hdown⟩, h.inbox, h.running, h.ended⟩
    unfold Node.turn
    rw [step_none hfetch]
    exact congrArg (fun calls => Except.ok (_, calls)) List.drop_length
  · cases hempty.symm.trans hcons

/-- A call of `receive` handles the message, unless it is interrupted. -/
theorem looks_receive {w : ℕ} {q : Request} {ups : List Request}
    (h : Looks p n ctl inbox up down running) (hcons : up w = q :: ups) (ready : ℕ) {env : Env}
    {r : Controller × List Output}
    (hhandle : ctl.handle (.internal w q.message q.payload env) = .ok r)
    (hsmall : ∀ o ∈ r.2, Small p.serialize o) :
    ∃ s calls, n.turn p (.receive w ready env) = .ok ({ n with process := s }, calls) ∧
      ((calls = [] ∧ ready < (n.process.worker w).up.queue.length ∧
        Looks p { n with process := s } ctl inbox up down running) ∨
      (calls = r.2.filterMap Output.call ∧
        Looks p { n with process := s } r.1 inbox (Function.update up w ups)
          (fun v => down v ++ r.2.filterMap (sentTo v)) running)) := by
  rcases h.plain with ⟨t, hrefines, rfl, rfl, hdown⟩
  rcases fetch_receive hrefines w ready env with
    ⟨l, ⟨hfetch, hlink, hwhy⟩ | ⟨q', rest, hcons', hlink, hfetch⟩⟩
  · have hready := hwhy.resolve_right (by simp [hcons])
    have hset := hrefines.updateUp (w := w) hlink
    rw [Function.update_eq_self] at hset
    refine ⟨_, [], ?_, Or.inl ⟨rfl, hready, ⟨t, hset, rfl, rfl, hdown⟩, h.inbox, h.running,
      h.ended⟩⟩
    unfold Node.turn
    rw [step_none hfetch]
    exact congrArg (fun calls => Except.ok (_, calls)) List.drop_length
  · obtain ⟨rfl, rfl⟩ := List.cons.inj (hcons.symm.trans hcons')
    have hset := hrefines.updateUp (w := w) hlink
    have hsmall' : ∀ o ∈ ((n.process.setWorker w
        { n.process.worker w with up := l }).ctl.handle
          (.internal w q.message q.payload env)).toOption.elim [] Prod.snd, Small p.serialize o := by
      rw [hset.ctl]
      show ∀ o ∈ (t.ctl.handle (.internal w q.message q.payload env)).toOption.elim [] Prod.snd, _
      rw [hhandle]
      exact hsmall
    have hagree := handle_refines hset (inRange_request w q q.payload env) hsmall'
    have hplain : ({ t with up := Function.update t.up w ups } : Plain).handle
        (.internal w q.message q.payload env) =
          .ok (r.2.foldl Plain.deliver
            { t with up := Function.update t.up w ups, ctl := r.1 }) := by
      simp only [Plain.handle, hhandle]
      rfl
    rw [hplain] at hagree
    rcases hagree.ok_of with ⟨s, hs, hrefines'⟩
    rcases looks_handled (t := { t with up := Function.update t.up w ups }) (r := r) h hrefines'
      hrefines.calls.symm rfl hdown with ⟨hcalls, hlooks⟩
    refine ⟨s, _, ?_, Or.inr ⟨rfl, hlooks⟩⟩
    unfold Node.turn
    rw [step_some hfetch, hs, ← hcalls]
    rfl

/-! ### Workers -/

theorem poll_waits {w : ℕ} (hstep : n.process.step p.size p.serialize (.poll w) = .ok n.process) :
    n.poll p w = .ok (n, []) := by
  unfold Node.poll
  rw [hstep]
  simp only [bind, Except.bind, List.drop_length]
  rfl

theorem poll_reads {w : ℕ} {s : System} {header : Process.Ipc.Message} {payload : List Byte}
    (hstep : n.process.step p.size p.serialize (.poll w) = .ok s)
    (hreceived : (s.worker w).received = (n.process.worker w).received ++ [(header, payload)]) :
    n.poll p w = (Node.handled (n.executor w) header payload).map
      fun x => (({ n with process := s } : Node).setExecutor w x, []) := by
  unfold Node.poll
  rw [hstep]
  simp only [bind, Except.bind, hreceived, List.drop_left]
  cases Node.handled (n.executor w) header payload with
  | error f => rfl
  | ok x => rfl

/-- A worker that runs nothing and finds no message waits. -/
theorem looks_waits (h : Looks p n ctl inbox up down running) {w : ℕ} (hempty : down w = [])
    (hrunning : running w = none) : n.work p w = .ok (n, []) := by
  rcases h.plain with ⟨t, hrefines, -, -, rfl⟩
  unfold Node.work
  rw [h.running, hrunning, h.ended]
  rcases fetch_poll hrefines w with ⟨-, hfetch⟩ | ⟨m, ms, l, k, payload, hcons, -⟩
  · exact poll_waits (step_none hfetch)
  · cases hempty.symm.trans hcons

/-- The loop of a worker changes. -/
theorem looks_setExecutor {s : System} {w : ℕ} {x : Executor} {up' : ℕ → List Request}
    {down' : ℕ → List WorkerMessage}
    (hplain : ∃ t, Refines p.size p.serialize s t ∧ t.ctl = ctl ∧ t.up = up' ∧ t.down = down')
    (h : Looks p n ctl inbox up down running) (hx : x.ended = false) :
    Looks p (({ n with process := s } : Node).setExecutor w x) ctl inbox up' down'
      (Function.update running w x.running) where
  plain := hplain
  inbox := h.inbox
  running v := by
    rcases eq_or_ne v w with rfl | hne
    · simp
    · simpa [hne] using h.running v
  ended v := by
    rcases eq_or_ne v w with rfl | hne
    · simpa using hx
    · simpa [hne] using h.ended v

/-- A worker takes the message. -/
theorem looks_poll {w : ℕ} {m : WorkerMessage} {downs : List WorkerMessage}
    (h : Looks p n ctl inbox up down running) (hcons : down w = m :: downs)
    (hrunning : running w = none) :
    ∃ s header payload, Carries p.serialize header.data payload m ∧
      n.work p w = (Node.handled (n.executor w) header payload).map
        (fun x => (({ n with process := s } : Node).setExecutor w x, [])) ∧
      ∀ x, x.ended = false →
        Looks p (({ n with process := s } : Node).setExecutor w x) ctl inbox up
          (Function.update down w downs) (Function.update running w x.running) := by
  rcases h.plain with ⟨t, hrefines, hctl, hup, rfl⟩
  rcases fetch_poll hrefines w with
    ⟨hnil, -⟩ | ⟨m', ms, l, k, payload, hcons', hlink, hbetween, hcarries, hfetch⟩
  · cases hcons.symm.trans hnil
  obtain ⟨rfl, rfl⟩ := List.cons.inj (hcons.symm.trans hcons')
  let v : Peer := { n.process.worker w with
    down := l
    input := ⟨k, payload⟩
    received := (n.process.worker w).received ++ [(l.reader.msg, payload)] }
  have hagree := read_refines hrefines hcons hlink hbetween hcarries ⟨k, payload⟩
  rw [Lts.run_singleton] at hagree
  rcases hagree.of_ok with ⟨t', ht', hrefines'⟩
  simp only [Plain.step, hcons] at ht'
  obtain rfl := Except.ok.inj ht'
  have hreceived : ((n.process.setWorker w v).worker w).received =
      (n.process.worker w).received ++ [(l.reader.msg, payload)] := by
    rw [System.setWorker_worker, Function.update_self]
  refine ⟨n.process.setWorker w v, l.reader.msg, payload, hcarries, ?_, ?_⟩
  · unfold Node.work
    rw [h.running, hrunning, h.ended]
    exact poll_reads (step_none hfetch) hreceived
  · intro x hx
    exact looks_setExecutor ⟨_, hrefines', hctl, hup, rfl⟩ h hx

/-- The function returns, and the result joins the queue to the controller. -/
theorem looks_finish {w : ℕ} {i : Runtime.Invocation} {args : List Buffer}
    (h : Looks p n ctl inbox up down running) (hrunning : running w = some (i, args))
    (hloaded : p.lib.hasFunction i.functionName = true)
    (hkey : i.key.length ≤ ID_LENGTH ∧ (0 : Byte) ∉ i.key)
    (hsmall : (p.code i.functionName args).2.length < 2 ^ 31) :
    ∃ n', n.work p w = .ok (n', []) ∧
      Looks p n' ctl inbox
        (Function.update up w (up w ++ [.finish ⟨i.key, hkey⟩ (p.code i.functionName args).2
          (p.code i.functionName args).1]))
        down (Function.update running w none) := by
  rcases h.plain with ⟨t, hrefines, hctl, rfl, hdown⟩
  let r : Request :=
    .finish ⟨i.key, hkey⟩ (p.code i.functionName args).2 (p.code i.functionName args).1
  have hagree := put_refines hrefines w (r := r) hsmall
  rw [Lts.run_singleton] at hagree
  rcases hagree.ok_of with ⟨s, hs, hrefines'⟩
  let x : Executor := { n.executor w with running := none }
  have hcalls : s.calls = n.process.calls := hrefines'.calls.trans hrefines.calls.symm
  refine ⟨({ n with process := s } : Node).setExecutor w x, ?_,
    looks_setExecutor ⟨_, hrefines', hctl, rfl, hdown⟩ h (h.ended w)⟩
  have hruns : (n.executor w).running = some (i, args) := (h.running w).trans hrunning
  unfold Node.work
  rw [hruns]
  show n.finish p w i args = _
  unfold Node.finish
  rw [if_pos hloaded, dif_pos hkey]
  unfold Node.turn
  rw [show (n.setExecutor w { n.executor w with running := none }).process.step p.size p.serialize
    (.put w r) = .ok s from hs]
  show Except.ok (_, s.calls.drop n.process.calls.length) = _
  rw [hcalls, List.drop_length]
  rfl

end Looking

end Praas.Platform
