import Praas.Lib.Simulation
import Praas.Platform.Encoding

/-! # A process over its message queues

A controller and its workers: what is sent is a header and a payload on a POSIX message queue,
cut into datagrams, and the controller reads its queues without blocking. Above it stands a
process whose queues hold messages.
* `System` — the queues of datagrams; a call of `receive` may be interrupted anywhere;
* `Plain` — the queues of messages;
* `simulated_step` — one event of the first is one event of the second, or none if a call of
  `receive` is interrupted;
* `transport_refines` — so every run of the first is a run of the second.
-/

namespace Praas.Platform

open Process (WorkerMessage Controller Output Env Buffer ExternalMessage ServerCall Trigger)
open Process.Ipc (MsgSize Datagram POSIXMQChannel Body Outgoing Stands)
open Process.IpcHeader (Message parseMessage)
open Process.Queues (WorkerMessage.body)

variable (size : MsgSize) (serialize : List (Str × ℕ) → Buffer)

/-! ## Queues of datagrams -/

/-- A queue and its reading end. -/
structure Link where
  queue : List Datagram := []
  reader : POSIXMQChannel := POSIXMQChannel.open

def Link.send (l : Link) (m : Message) (body : Body) : Link :=
  { l with queue := l.queue ++ (Process.Ipc.send size m.sent body).2 }

/-- A worker: the queue to the controller, the queue from it, the input of `Invoker`, and what
has been read. -/
structure Peer where
  up : Link := {}
  down : Link := {}
  input : Process.Ipc.Buffer := ⟨0, []⟩
  received : List (Process.Ipc.Message × List Byte) := []

structure System where
  ctl : Controller
  worker : ℕ → Peer := fun _ => {}
  calls : List ServerCall := []

/-- What the poll loop reacts to, and what the workers do: `receive` is the one of the
controller, `poll` and `get` are those of `Invoker`. -/
inductive Event where
  | external (m : ExternalMessage)
  | updates (us : List Common.ApplicationUpdate)
  | schedule
  | put (w : ℕ) (r : Request)
  | receive (w ready : ℕ) (env : Env)
  | poll (w : ℕ)
  | get (w : ℕ)

namespace System

def new (processId : Str) (functionWorkers : ℕ) (functions : Str → Option Trigger) : System where
  ctl := Controller.new processId functionWorkers functions

@[simps] def setWorker (s : System) (w : ℕ) (v : Peer) : System :=
  { s with worker := Function.update s.worker w v }

/-- One message of a handler. -/
def deliver (s : System) : Output → Except Fault System
  | .toWorker w m => do
    let header ← WorkerMessage.header serialize m
    return s.setWorker w { s.worker w with
      down := (s.worker w).down.send size header (WorkerMessage.body serialize m) }
  | .server c => return { s with calls := s.calls ++ [c] }

def handle (s : System) (i : Controller.Input) : Except Fault System := do
  let r ← s.ctl.handle i
  Lts.run (deliver size serialize) { s with ctl := r.1 } r.2

/-- What an event leaves for the handlers of the controller. -/
def fetch (s : System) : Event → Except Fault (System × Option Controller.Input)
  | .external m => .ok (s, some (.external m))
  | .updates us => .ok (s, some (.updates us))
  | .schedule => .ok (s, some .schedule)
  | .put w r => do
    let header ← r.header
    return (s.setWorker w { s.worker w with
      up := (s.worker w).up.send size header (.accessor r.payload) }, none)
  | .receive w ready env => do
    let r ← (s.worker w).up.reader.receive size (s.worker w).up.queue ready
    let s := s.setWorker w { s.worker w with up := ⟨r.2.1, r.1⟩ }
    match r.2.2 with
    | none => return (s, none)
    | some payload =>
      let v ← parseMessage r.1.msg.data
      return (s, (parsed v).map fun m => .internal w m payload env)
  | .poll w => do
    -- a call for which there is no message has not returned
    match ← (s.worker w).down.reader.blockingReceive size (s.worker w).down.queue
      (s.worker w).input with
    | none => return (s, none)
    | some (reader, queue, input, read) =>
      return (s.setWorker w { s.worker w with
        down := ⟨queue, reader⟩
        input := input
        received := (s.worker w).received ++ if read then [(reader.msg, input.data)] else [] },
        none)
  | .get w => do
    let r ← (s.worker w).down.reader.receive size (s.worker w).down.queue
      (s.worker w).down.queue.length
    return (s.setWorker w { s.worker w with
      down := ⟨r.2.1, r.1⟩
      received := (s.worker w).received ++ (r.2.2.map fun payload => (r.1.msg, payload)).toList },
      none)

def step (s : System) (e : Event) : Except Fault System := do
  match ← s.fetch size e with
  | (s, none) => return s
  | (s, some i) => s.handle size serialize i

/-- What an event makes the handlers send. -/
def outputs (s : System) (e : Event) : List Output :=
  match s.fetch size e with
  | .ok (s, some i) => (s.ctl.handle i).toOption.elim [] Prod.snd
  | _ => []

end System

/-! ## Queues of messages -/

structure Plain where
  ctl : Controller
  up : ℕ → List Request := fun _ => []
  down : ℕ → List WorkerMessage := fun _ => []
  received : ℕ → List WorkerMessage := fun _ => []
  calls : List ServerCall := []

namespace Plain

inductive Event where
  | input (i : Controller.Input)
  | put (w : ℕ) (r : Request)
  | receive (w : ℕ) (env : Env)
  | read (w : ℕ)

def new (processId : Str) (functionWorkers : ℕ) (functions : Str → Option Trigger) : Plain where
  ctl := Controller.new processId functionWorkers functions

def deliver (s : Plain) : Output → Plain
  | .toWorker w m => { s with down := Function.update s.down w (s.down w ++ [m]) }
  | .server c => { s with calls := s.calls ++ [c] }

def handle (s : Plain) (i : Controller.Input) : Except Fault Plain := do
  let r ← s.ctl.handle i
  return r.2.foldl deliver { s with ctl := r.1 }

/-- Without a message a call waits. -/
def step (s : Plain) : Event → Except Fault Plain
  | .input i => s.handle i
  | .put w r => .ok { s with up := Function.update s.up w (s.up w ++ [r]) }
  | .receive w env =>
    match s.up w with
    | [] => .ok s
    | r :: rest =>
      { s with up := Function.update s.up w rest }.handle (.internal w r.message r.payload env)
  | .read w =>
    match s.down w with
    | [] => .ok s
    | m :: rest => .ok { s with
        down := Function.update s.down w rest
        received := Function.update s.received w (s.received w ++ [m]) }

end Plain

/-! ## One stands for the other -/

/-- A message that the controller has not handled. -/
def Asks (o : Outgoing) (r : Request) : Prop := Says o.header.data r ∧ o.payload = r.payload

/-- A message that the worker has not read. -/
def Brings (o : Outgoing) (m : WorkerMessage) : Prop :=
  Carries serialize o.header.data o.payload m

/-- The datagrams of a queue are those of the messages. -/
def Link.Holds {μ : Type} (l : Link) (R : Outgoing → μ → Prop) (ms : List μ) : Prop :=
  ∃ todo, Stands size l.reader l.queue todo ∧ List.Forall₂ R todo ms

structure Refines (s : System) (t : Plain) : Prop where
  ctl : s.ctl = t.ctl
  calls : s.calls = t.calls
  up : ∀ w, (s.worker w).up.Holds size Asks (t.up w)
  down : ∀ w, (s.worker w).down.Holds size (Brings serialize) (t.down w)
  between : ∀ w, (s.worker w).down.reader.msgRead = false
  received : ∀ w, List.Forall₂ (fun p m => Carries serialize p.1.data p.2 m)
    (s.worker w).received (t.received w)

/-- The events of the plain process that an event stands for. A call of `receive` that finds
all the datagrams there are handles a message. -/
inductive Represents (s : System) : Event → List Plain.Event → Prop where
  | external (m : ExternalMessage) : Represents s (.external m) [.input (.external m)]
  | updates (us : List Common.ApplicationUpdate) : Represents s (.updates us) [.input (.updates us)]
  | schedule : Represents s .schedule [.input .schedule]
  | put (w : ℕ) (r : Request) : Represents s (.put w r) [.put w r]
  | handled (w ready : ℕ) (env : Env) : Represents s (.receive w ready env) [.receive w env]
  | interrupted {w ready : ℕ} (env : Env) (h : ready < (s.worker w).up.queue.length) :
    Represents s (.receive w ready env) []
  | poll (w : ℕ) : Represents s (.poll w) [.read w]
  | get (w : ℕ) : Represents s (.get w) [.read w]

/-- A payload whose length is an `int32_t`. -/
def Small : Output → Prop
  | .toWorker _ m => (WorkerMessage.body serialize m).payload.length < 2 ^ 31
  | .server _ => True

instance : (o : Output) → Decidable (Small serialize o)
  | .toWorker _ _ => inferInstanceAs (Decidable (_ < _))
  | .server _ => isTrue trivial

/-- The payloads that are sent are small, and the status of an update is an `int32_t`. -/
def Fits (s : System) (e : Event) : Prop :=
  (match e with
    | .put _ r => r.payload.length < 2 ^ 31
    | .updates us => ∀ u ∈ us, IsInt32 u.status
    | _ => True) ∧
  ∀ o ∈ s.outputs size e, Small serialize o

instance (s : System) (e : Event) : Decidable (Fits size serialize s e) :=
  match e with
  | .put _ _ => inferInstanceAs (Decidable (_ < _ ∧ _))
  | .updates _ => inferInstanceAs (Decidable ((∀ _ ∈ _, _) ∧ _))
  | .external _ => inferInstanceAs (Decidable (True ∧ _))
  | .schedule => inferInstanceAs (Decidable (True ∧ _))
  | .receive _ _ _ => inferInstanceAs (Decidable (True ∧ _))
  | .poll _ => inferInstanceAs (Decidable (True ∧ _))
  | .get _ => inferInstanceAs (Decidable (True ∧ _))

/-! ## Workers -/

section Refinement

variable {size serialize} {s : System} {t : Plain}

/-- One worker changes, on both sides. -/
theorem Refines.update (h : Refines size serialize s t) {w : ℕ} {v : Peer} {ups : List Request}
    {downs received : List WorkerMessage} (hup : v.up.Holds size Asks ups)
    (hdown : v.down.Holds size (Brings serialize) downs) (hbetween : v.down.reader.msgRead = false)
    (hreceived : List.Forall₂ (fun p m => Carries serialize p.1.data p.2 m) v.received received) :
    Refines size serialize (s.setWorker w v) { t with
      up := Function.update t.up w ups
      down := Function.update t.down w downs
      received := Function.update t.received w received } where
  ctl := h.ctl
  calls := h.calls
  up w' := by
    rcases eq_or_ne w' w with rfl | hne
    · simpa using hup
    · simpa [hne] using h.up w'
  down w' := by
    rcases eq_or_ne w' w with rfl | hne
    · simpa using hdown
    · simpa [hne] using h.down w'
  between w' := by
    rcases eq_or_ne w' w with rfl | hne
    · simpa using hbetween
    · simpa [hne] using h.between w'
  received w' := by
    rcases eq_or_ne w' w with rfl | hne
    · simpa using hreceived
    · simpa [hne] using h.received w'

/-! ## Sending -/

theorem Link.Holds.send {μ : Type} {l : Link} {R : Outgoing → μ → Prop} {ms : List μ}
    (h : l.Holds size R ms) {m : Message} {body : Body} (hfits : body.payload.length < 2 ^ 31)
    {x : μ} (hx : R ⟨m.sent, body, hfits⟩ x) : (l.send size m body).Holds size R (ms ++ [x]) := by
  rcases h with ⟨todo, hstands, hall⟩
  refine ⟨todo ++ [⟨m.sent, body, hfits⟩], ?_, List.rel_append hall (.cons hx .nil)⟩
  have hqueue : (l.send size m body).queue =
      l.queue ++ ((Outgoing.mk m.sent body hfits).header.data ::
        (Outgoing.mk m.sent body hfits).parts size) :=
    congrArg (fun r : Process.Ipc.Message × List Datagram => l.queue ++ r.2)
      (Outgoing.send_eq size ⟨m.sent, body, hfits⟩)
  rw [hqueue]
  exact Process.Ipc.stands_send hstands ⟨m.sent, body, hfits⟩

/-- A message of a handler joins the queue of its worker. -/
theorem deliver_refines (h : Refines size serialize s t) {o : Output}
    (hmade : ∀ w m, o = .toWorker w m → Made m) (hsmall : Small serialize o) :
    ∃ s', s.deliver size serialize o = .ok s' ∧ Refines size serialize s' (t.deliver o) := by
  cases o with
  | server c =>
    refine ⟨_, rfl, h.ctl, ?_, h.up, h.down, h.between, h.received⟩
    show s.calls ++ [c] = t.calls ++ [c]
    rw [h.calls]
  | toWorker w m =>
    rcases carries_header (hmade w m rfl) hsmall with ⟨header, hheader, hcarries⟩
    have hdown : ((s.worker w).down.send size header (WorkerMessage.body serialize m)).Holds size
        (Brings serialize) (t.down w ++ [m]) := (h.down w).send hsmall (hcarries _)
    let v : Peer := { s.worker w with
      down := (s.worker w).down.send size header (WorkerMessage.body serialize m) }
    refine ⟨s.setWorker w v, ?_, ?_⟩
    · simp only [System.deliver, hheader]
      rfl
    · have hset := h.update (w := w) (v := v) (h.up w) hdown (h.between w) (h.received w)
      simpa [Plain.deliver] using hset

/-- All messages of a handler. -/
theorem deliver_all (h : Refines size serialize s t) {outs : List Output} (hmade : AllMade outs)
    (hsmall : ∀ o ∈ outs, Small serialize o) :
    ∃ s', Lts.run (System.deliver size serialize) s outs = .ok s' ∧
      Refines size serialize s' (outs.foldl Plain.deliver t) := by
  induction outs generalizing s t with
  | nil => exact ⟨s, rfl, h⟩
  | cons o outs ih =>
    have hfirst : ∀ w m, o = .toWorker w m → Made m := by
      intro w m ho
      exact hmade w m (ho ▸ List.mem_cons_self)
    rcases deliver_refines h hfirst (hsmall o List.mem_cons_self) with ⟨s₁, hs₁, h₁⟩
    rcases ih h₁ (fun w m hm => hmade w m (List.mem_cons_of_mem _ hm))
      (fun o' ho' => hsmall o' (List.mem_cons_of_mem _ ho')) with ⟨s₂, hs₂, h₂⟩
    exact ⟨s₂, Lts.run_cons_ok.2 ⟨s₁, hs₁, hs₂⟩, h₂⟩

/-- A handler raises in both, or its messages are sent in both. -/
theorem handle_refines (h : Refines size serialize s t) {i : Controller.Input}
    (hrange : InRange i)
    (hsmall : ∀ o ∈ (s.ctl.handle i).toOption.elim [] Prod.snd, Small serialize o) :
    Lts.Agree (Refines size serialize) (s.handle size serialize i) (t.handle i) := by
  unfold System.handle Plain.handle
  rw [← h.ctl]
  cases hr : s.ctl.handle i with
  | error x => exact .raised x
  | ok r =>
    rw [hr] at hsmall
    have hset : Refines size serialize { s with ctl := r.1 } { t with ctl := r.1 } :=
      ⟨rfl, h.calls, h.up, h.down, h.between, h.received⟩
    rcases deliver_all hset (handle_made hrange hr) hsmall with ⟨s', hs', h'⟩
    show Lts.Agree _ (Lts.run (System.deliver size serialize) { s with ctl := r.1 } r.2) (.ok _)
    rw [hs']
    exact .returned h'

/-! ## Steps -/

theorem step_none {s' : System} {e : Event} (h : s.fetch size e = .ok (s', none)) :
    s.step size serialize e = .ok s' := by
  simp only [System.step, h]
  rfl

theorem step_some {s' : System} {e : Event} {i : Controller.Input}
    (h : s.fetch size e = .ok (s', some i)) :
    s.step size serialize e = s'.handle size serialize i := by
  simp only [System.step, h]
  rfl

theorem outputs_some {s' : System} {e : Event} {i : Controller.Input}
    (h : s.fetch size e = .ok (s', some i)) :
    s.outputs size e = (s'.ctl.handle i).toOption.elim [] Prod.snd := by
  simp only [System.outputs, h]

/-- An input that does not come from a worker. -/
theorem input_refines (h : Refines size serialize s t) {e : Event} {i : Controller.Input}
    (hfetch : s.fetch size e = .ok (s, some i)) (hrange : InRange i)
    (hfits : ∀ o ∈ s.outputs size e, Small serialize o) :
    Lts.Agree (Refines size serialize) (s.step size serialize e)
      (Lts.run Plain.step t [.input i]) := by
  rw [outputs_some hfetch] at hfits
  rw [step_some hfetch, Lts.run_singleton]
  exact handle_refines h hrange hfits

theorem inRange_request (w : ℕ) (r : Request) (payload : Buffer) (env : Env) :
    InRange (.internal w r.message payload env) := by
  cases r with
  | finish _ _ returnCode => exact ⟨returnCode.le_toInt, returnCode.toInt_lt⟩
  | _ => trivial

/-- A request joins the queue of the controller. -/
theorem put_refines (h : Refines size serialize s t) (w : ℕ) {r : Request}
    (hsmall : r.payload.length < 2 ^ 31) :
    Lts.Agree (Refines size serialize) (s.step size serialize (.put w r))
      (Lts.run Plain.step t [.put w r]) := by
  rcases request_parsed r with ⟨header, hheader, hread⟩
  let v : Peer := { s.worker w with
    up := (s.worker w).up.send size header (.accessor r.payload) }
  have hfetch : s.fetch size (.put w r) = .ok (s.setWorker w v, none) := by
    simp only [System.fetch, hheader]
    rfl
  have hbody : (Body.accessor r.payload).payload.length < 2 ^ 31 := hsmall
  have hup : v.up.Holds size Asks (t.up w ++ [r]) := (h.up w).send hbody ⟨hread _, rfl⟩
  rw [step_none hfetch]
  have hset := h.update (w := w) (v := v) hup (h.down w) (h.between w) (h.received w)
  simp only [Function.update_eq_self] at hset
  exact .returned hset

/-- A call of `receive` returns the next message, or nothing if it is interrupted or there is
no message. -/
theorem fetch_receive (h : Refines size serialize s t) (w ready : ℕ) (env : Env) :
    ∃ l : Link,
      (s.fetch size (.receive w ready env) = .ok (s.setWorker w { s.worker w with up := l }, none) ∧
        l.Holds size Asks (t.up w) ∧ (ready < (s.worker w).up.queue.length ∨ t.up w = [])) ∨
      ∃ r rest, t.up w = r :: rest ∧ l.Holds size Asks rest ∧
        s.fetch size (.receive w ready env) = .ok (s.setWorker w { s.worker w with up := l },
          some (.internal w r.message r.payload env)) := by
  rcases h.up w with ⟨todo, hstands, hall⟩
  rcases Process.Ipc.receive_stands hstands ready with ⟨c, queue, res, hcall, hres⟩
  refine ⟨⟨queue, c⟩, ?_⟩
  cases hres with
  | incomplete hwhy hstands' =>
    refine Or.inl ⟨?_, ⟨todo, hstands', hall⟩, ?_⟩
    · simp only [System.fetch, hcall]
      rfl
    · rcases hwhy with hready | hnil
      · exact Or.inl hready
      · subst hnil
        refine Or.inr ?_
        generalize t.up w = ups at hall
        cases hall
        rfl
  | complete htodo hmsg hstands' =>
    rename_i o rest
    subst htodo
    rcases List.forall₂_cons_left_iff.1 hall with
      ⟨r, rs, ⟨⟨m, hparse, hparsed⟩, hpayload⟩, hall', hup⟩
    refine Or.inr ⟨r, rs, hup, ⟨rest, hstands', hall'⟩, ?_⟩
    have hparse' : parseMessage c.msg.data = .ok m := by
      rw [hmsg]
      exact hparse
    simp only [System.fetch, hcall]
    show (parseMessage c.msg.data >>= _) = _
    rw [hparse']
    show Except.ok (_, (parsed m).map fun m => _) = _
    rw [hparsed, hpayload]
    rfl

/-- One queue to the controller changes. -/
theorem Refines.updateUp (h : Refines size serialize s t) {w : ℕ} {l : Link} {ups : List Request}
    (hup : l.Holds size Asks ups) :
    Refines size serialize (s.setWorker w { s.worker w with up := l })
      { t with up := Function.update t.up w ups } := by
  have hset := h.update (w := w) (v := { s.worker w with up := l }) hup (h.down w) (h.between w)
    (h.received w)
  simpa only [Function.update_eq_self] using hset

/-- A call of `receive`. -/
theorem receive_refines (h : Refines size serialize s t) (w ready : ℕ) (env : Env)
    (hfits : ∀ o ∈ s.outputs size (.receive w ready env), Small serialize o) :
    ∃ fs, Represents s (.receive w ready env) fs ∧
      Lts.Agree (Refines size serialize) (s.step size serialize (.receive w ready env))
        (Lts.run Plain.step t fs) := by
  rcases fetch_receive h w ready env with
    ⟨l, ⟨hfetch, hup, hwhy⟩ | ⟨r, rest, hups, hup, hfetch⟩⟩
  · have hset := h.updateUp (w := w) hup
    rw [Function.update_eq_self] at hset
    rw [step_none hfetch]
    rcases hwhy with hready | hnil
    · exact ⟨[], .interrupted env hready, .returned hset⟩
    · -- there is no message on either side
      refine ⟨[.receive w env], .handled w ready env, ?_⟩
      rw [Lts.run_singleton]
      simp only [Plain.step, hnil]
      exact .returned hset
  · rw [outputs_some hfetch] at hfits
    refine ⟨[.receive w env], .handled w ready env, ?_⟩
    have hagree := handle_refines (h.updateUp hup) (inRange_request w r r.payload env) hfits
    rw [step_some hfetch, Lts.run_singleton]
    simp only [Plain.step, hups]
    exact hagree

/-- A call of `receive` that returns a message leaves the reader between two. -/
theorem receive_msgRead {c c' : POSIXMQChannel} {queue queue' : List Datagram} {ready : ℕ}
    {payload : List Byte} (h : c.receive size queue ready = .ok (c', queue', some payload)) :
    c'.msgRead = false := by
  simp only [POSIXMQChannel.receive] at h
  split at h
  · cases h
  · cases h
  · rename_i c₁ ready₁ queue₁ hheader
    simp only [POSIXMQChannel.readPayload] at h
    split at h
    · split at h
      · cases h
      · split at h
        · cases h
          rfl
        · cases h
    · cases h
      rfl

/-- A worker reads the next message, in either way. -/
theorem read_refines (h : Refines size serialize s t) {w : ℕ} {m : WorkerMessage}
    {ms : List WorkerMessage} (hdowns : t.down w = m :: ms) {l : Link} {payload : List Byte}
    (hdown : l.Holds size (Brings serialize) ms) (hbetween : l.reader.msgRead = false)
    (hcarries : Carries serialize l.reader.msg.data payload m) (input : Process.Ipc.Buffer) :
    Lts.Agree (Refines size serialize)
      (.ok (s.setWorker w { s.worker w with
        down := l
        input := input
        received := (s.worker w).received ++ [(l.reader.msg, payload)] }))
      (Lts.run Plain.step t [.read w]) := by
  let v : Peer := { s.worker w with
    down := l
    input := input
    received := (s.worker w).received ++ [(l.reader.msg, payload)] }
  have hreceived : List.Forall₂ (fun p m => Carries serialize p.1.data p.2 m) v.received
      (t.received w ++ [m]) := List.rel_append (h.received w) (.cons hcarries .nil)
  have hset := h.update (w := w) (v := v) (h.up w) hdown hbetween hreceived
  simp only [Function.update_eq_self] at hset
  rw [Lts.run_singleton]
  simp only [Plain.step, hdowns]
  exact .returned hset

/-- Without a message a worker that reads waits. -/
theorem wait_refines {s' : System} (h : Refines size serialize s' t) {w : ℕ}
    (hdowns : t.down w = []) :
    Lts.Agree (Refines size serialize) (.ok s') (Lts.run Plain.step t [.read w]) := by
  rw [Lts.run_singleton]
  simp only [Plain.step, hdowns]
  exact .returned h

/-- A call of `poll` waits, or takes the next message. -/
theorem fetch_poll (h : Refines size serialize s t) (w : ℕ) :
    (t.down w = [] ∧ s.fetch size (.poll w) = .ok (s, none)) ∨
      ∃ (m : WorkerMessage) (ms : List WorkerMessage) (l : Link) (n : ℕ) (payload : List Byte),
        t.down w = m :: ms ∧ l.Holds size (Brings serialize) ms ∧ l.reader.msgRead = false ∧
        Carries serialize l.reader.msg.data payload m ∧
        s.fetch size (.poll w) = .ok (s.setWorker w { s.worker w with
          down := l
          input := ⟨n, payload⟩
          received := (s.worker w).received ++ [(l.reader.msg, payload)] }, none) := by
  rcases h.down w with ⟨todo, hstands, hall⟩
  rcases Process.Ipc.blockingReceive_stands hstands (h.between w) (s.worker w).input with
    ⟨htodo, hcall⟩ | ⟨o, rest, c, queue, n, htodo, hcall, hmsg, hstands'⟩
  · subst htodo
    refine Or.inl ⟨?_, ?_⟩
    · generalize t.down w = downs at hall
      cases hall
      rfl
    · simp only [System.fetch, hcall]
      rfl
  · subst htodo
    rcases List.forall₂_cons_left_iff.1 hall with ⟨m, ms, hbrings, hall', hdowns⟩
    have hbetween : c.msgRead = false :=
      (Process.Ipc.blockingReceive_msgRead hcall).trans (h.between w)
    have hcarries : Carries serialize c.msg.data o.payload m := by
      rw [hmsg]
      exact hbrings
    refine Or.inr ⟨m, ms, ⟨queue, c⟩, n, o.payload, hdowns, ⟨rest, hstands', hall'⟩, hbetween,
      hcarries, ?_⟩
    simp only [System.fetch, hcall]
    rfl

theorem poll_refines (h : Refines size serialize s t) (w : ℕ) :
    Lts.Agree (Refines size serialize) (s.step size serialize (.poll w))
      (Lts.run Plain.step t [.read w]) := by
  rcases fetch_poll h w with
    ⟨hdowns, hfetch⟩ | ⟨m, ms, l, n, payload, hdowns, hdown, hbetween, hcarries, hfetch⟩
  · rw [step_none hfetch]
    exact wait_refines h hdowns
  · rw [step_none hfetch]
    exact read_refines h hdowns hdown hbetween hcarries _

theorem get_refines (h : Refines size serialize s t) (w : ℕ) :
    Lts.Agree (Refines size serialize) (s.step size serialize (.get w))
      (Lts.run Plain.step t [.read w]) := by
  rcases h.down w with ⟨todo, hstands, hall⟩
  rcases Process.Ipc.receive_stands hstands (s.worker w).down.queue.length with
    ⟨c, queue, res, hcall, hres⟩
  cases hres with
  | incomplete hwhy hstands' =>
    -- the queue holds whole messages, so it is empty
    have htodo : todo = [] := hwhy.resolve_left (lt_irrefl _)
    subst htodo
    have hdowns : t.down w = [] := by
      generalize t.down w = downs at hall
      cases hall
      rfl
    let v : Peer := { s.worker w with
      down := ⟨queue, c⟩
      received := (s.worker w).received ++ [] }
    have hfetch : s.fetch size (.get w) = .ok (s.setWorker w v, none) := by
      simp only [System.fetch, hcall]
      rfl
    have hbetween : c.msgRead = false := by
      cases hstands' with
      | between hread _ _ => exact hread
    have hreceived : List.Forall₂ (fun p m => Carries serialize p.1.data p.2 m) v.received
        (t.received w) := by
      rw [show v.received = (s.worker w).received from List.append_nil _]
      exact h.received w
    have hset := h.update (w := w) (v := v) (h.up w) ⟨[], hstands', hall⟩ hbetween hreceived
    simp only [Function.update_eq_self] at hset
    rw [step_none hfetch]
    exact wait_refines hset hdowns
  | complete htodo hmsg hstands' =>
    rename_i o rest
    subst htodo
    rcases List.forall₂_cons_left_iff.1 hall with ⟨m, ms, hbrings, hall', hdowns⟩
    have hcarries : Carries serialize c.msg.data o.payload m := by
      rw [hmsg]
      exact hbrings
    have hfetch : s.fetch size (.get w) = .ok (s.setWorker w { s.worker w with
        down := ⟨queue, c⟩
        received := (s.worker w).received ++ [(c.msg, o.payload)] }, none) := by
      simp only [System.fetch, hcall]
      rfl
    rw [step_none hfetch]
    exact read_refines h (l := ⟨queue, c⟩) hdowns ⟨rest, hstands', hall'⟩ (receive_msgRead hcall)
      hcarries _

/-- **One event** is one event of the plain process, or none if it is interrupted. -/
theorem simulated_step (s : System) (t : Plain) (e : Event) (h : Refines size serialize s t)
    (hfits : Fits size serialize s e) :
    ∃ fs, Represents s e fs ∧
      Lts.Agree (Refines size serialize) (s.step size serialize e) (Lts.run Plain.step t fs) := by
  cases e with
  | external m => exact ⟨_, .external m, input_refines h rfl trivial hfits.2⟩
  | updates us => exact ⟨_, .updates us, input_refines h rfl hfits.1 hfits.2⟩
  | schedule => exact ⟨_, .schedule, input_refines h rfl trivial hfits.2⟩
  | put w r => exact ⟨_, .put w r, put_refines h w hfits.1⟩
  | receive w ready env => exact receive_refines h w ready env hfits.2
  | poll w => exact ⟨_, .poll w, poll_refines h w⟩
  | get w => exact ⟨_, .get w, get_refines h w⟩

theorem refines_new (processId : Str) (functionWorkers : ℕ) (functions : Str → Option Trigger) :
    Refines size serialize (System.new processId functionWorkers functions)
      (Plain.new processId functionWorkers functions) where
  ctl := rfl
  calls := rfl
  up _ := ⟨[], Process.Ipc.stands_open size, .nil⟩
  down _ := ⟨[], Process.Ipc.stands_open size, .nil⟩
  between _ := rfl
  received _ := .nil

end Refinement

/-- **Refinement.** Every run of the process over its queues of datagrams, in any order of what
arrives, of the calls of the workers and of the loop, and however `receive` is interrupted, is
a run of the process whose queues hold messages: it returns if and only if that one does, with
the same controller and the same calls into the TCP server, each queue holds the datagrams of
the messages in the plain one, and each worker has read the headers and payloads of the
messages that it reads there. Only a call of `receive` that finds fewer datagrams than there
are in the queue may handle no message. -/
theorem transport_refines (processId : Str) (functionWorkers : ℕ)
    (functions : Str → Option Trigger) (es : List Event)
    (hfits : Lts.Meets (System.step size serialize) (Fits size serialize)
      (System.new processId functionWorkers functions) es) :
    ∃ fs, Lts.Translates (System.step size serialize) Represents
        (System.new processId functionWorkers functions) es fs ∧
      Lts.Agree (Refines size serialize)
        (Lts.run (System.step size serialize) (System.new processId functionWorkers functions) es)
        (Lts.run Plain.step (Plain.new processId functionWorkers functions) fs) :=
  Lts.run_simulates simulated_step (refines_new processId functionWorkers functions) hfits

/-- A function puts a message to its own process and returns; the first call of `receive` finds
the header of the message only. -/
def sampleEvents : List Event :=
  [.external Process.Queues.sampleRequest, .schedule, .poll 0,
    .put 0 (.put Runtime.Arguments.sampleName Runtime.Arguments.sampleName [1, 2]),
    .put 0 (.finish Runtime.Arguments.sampleKey [7] 0), .receive 0 1 {}, .receive 0 9 {},
    .receive 0 9 {}]

theorem transport_refines_sample :
    ∃ s fs t, Lts.run (System.step ⟨128, le_rfl⟩ fun _ => [])
        (System.new (str ['f']) 1 fun _ => some .direct) sampleEvents = .ok s ∧
      Lts.run Plain.step (Plain.new (str ['f']) 1 fun _ => some .direct) fs = .ok t ∧
      Refines ⟨128, le_rfl⟩ (fun _ => []) s t := by
  rcases Lts.run_test (System.step ⟨128, le_rfl⟩ fun _ => [])
    (System.new (str ['f']) 1 fun _ => some .direct) sampleEvents
    (fun s => (s.worker 0).received.length = 1) (by decide +kernel) with ⟨s, hs, -⟩
  rcases transport_refines ⟨128, le_rfl⟩ (fun _ => []) (str ['f']) 1 (fun _ => some .direct)
    sampleEvents (by decide +kernel) with ⟨fs, -, hagree⟩
  rw [hs] at hagree
  rcases hagree.of_ok with ⟨t, ht, hrefines⟩
  exact ⟨s, fs, t, hs, ht, hrefines⟩

end Praas.Platform
