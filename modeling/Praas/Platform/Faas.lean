import Praas.ControlPlane.StreamPeer
import Praas.Platform.Endpoint

/-! # Invocations at the control plane

A process that the control plane has created for an invocation: it registers, the invocations
are sent to it, and its results are the responses. The backend, the two directions of the
connection, the poll loop and the workers take turns as they like.

* `Faas.step` — the requests of the clients, the creation, the network and the process;
* `Phase` — where the connection and the invocations are;
* `faas_step` — every event keeps the account: each invocation is either answered, with what its
  function gives, or on its way.
-/

namespace Praas.Platform

open ControlPlane (Invocation Response Outgoing Failure)
open ControlPlane.TcpStream (Stream ServerCall Rep lengthField callOf)
open Message (MessageData)
open Process.Remote (TCPServer Reads written)
open Framing (Parser Owes Frame)

/-! ## The control plane and its process -/

/-- The process, its connection, and the process object at the other end. -/
structure Faas extends Endpoint where
  stream : Stream := {}
  control : ControlPlane.Process

namespace Faas

inductive Event where
  | invoke (i : Invocation)
  | allocated
  | instanceConnected
  | poll
  | arrive (n : ℕ)
  | report (n : ℕ)
  | node (e : Node.Event)

/-- The process object of `get_controlplane_process`, and a process that has not started. -/
def start (p : Config) (a : ControlPlane.AppId) (i : Invocation) : Faas where
  server := TCPServer.new p.processId
  node := Node.new p
  control :=
    { name := p.processId, application := a
      waitForAllocation := true, creationCallback := some (.invoke i) }

/-- What is raised ends the event. -/
def returned : ControlPlane.Process × Option Failure → Except Failure ControlPlane.Process
  | (c, none) => .ok c
  | (_, some f) => .error f

/-- What the process object has sent is on its way. -/
def submit (s : Faas) (c : ControlPlane.Process) : Faas :=
  { s with
    control := c
    wire := s.wire ++ (c.sent.drop s.control.sent.length).flatMap Outgoing.bytes }

/-- A call of the TCP server; the process is none of the active ones of its application. -/
def serve (c : ControlPlane.Process) : ServerCall → Except Failure ControlPlane.Process
  | .finishInvocation id returnCode payload => .ok (c.finishInvocation id returnCode payload)
  | .updateMetrics .. => .ok c
  | .swappedProcess => .error (.objectDoesNotExist c.name)
  | .handleClosure =>
    .ok (if c.status ≠ .SWAPPED_OUT then { c with status := .FAILURE } else c.closeConnection)
  | .connect _ => returned (c.connect 0)

/-- `TCPServer::poll` of the process, which returns when it has connected. -/
def poll (s : Faas) : Except Fault Faas :=
  if s.server.controlPlane.isSome then .ok s
  else do
    let server ← s.server.poll
    let server ← server.connected s.server.next 0
    return { s with toEndpoint := s.toEndpoint.respond server }

/-- The next bytes arrive at the control plane in one chunk. -/
def report (s : Faas) (n : ℕ) : Except Failure Faas :=
  if s.back.take n = [] then .ok s
  else do
    let pending := fun name => decide (name = s.control.name)
    let stream ← (s.stream.receive pending (s.back.take n)).mapError Failure.fault
    let c ← (stream.calls.drop s.stream.calls.length).foldlM serve s.control
    return { s with stream := stream, back := s.back.drop n }.submit c

def step (p : Config) (s : Faas) : Event → Except Failure Faas
  | .invoke i => do
    let c ← returned (s.control.addInvocation i)
    return s.submit c
  | .allocated =>
    if s.control.handle then .ok s else .ok (s.submit (s.control.setHandle.createdCallback none))
  | .instanceConnected =>
    if s.control.connecting = 0 then .ok s
    else do
      let c ← returned
        ({ s.control with connecting := s.control.connecting - 1 }.instanceConnected none)
      return s.submit c
  | .poll => s.poll.mapError Failure.fault
  | .arrive n => do
    let x ← (s.toEndpoint.arrive n).mapError Failure.fault
    return { s with toEndpoint := x }
  | .report n => s.report n
  | .node e => do
    let x ← (s.toEndpoint.work p e).mapError Failure.fault
    return { s with toEndpoint := x }

/-- The invocation that an event asks for. -/
def Event.asked : Event → List Invocation
  | .invoke i => [i]
  | _ => []

end Faas

/-! ## Requests and results -/

/-- The request as the client of the control plane has asked for it. -/
def Job.asked (j : Job) : Invocation where
  id := j.key
  functionName := j.functionName.1
  payload := j.payload

/-- A request of the control plane: its texts have no NUL and fit, the lengths are those of an
`int32_t`, and the function is loaded if it is known. -/
structure Served (p : Config) (i : Invocation) : Prop where
  fresh : i.submitted = false
  id : i.id.length ≤ Message.ID_LENGTH ∧ (0 : Byte) ∉ i.id
  functionName : i.functionName.length ≤ Message.NAME_LENGTH ∧ (0 : Byte) ∉ i.functionName
  payload : i.payload.length < 2 ^ 31
  loaded : p.functions i.functionName ≠ none → p.lib.hasFunction i.functionName = true
  output : (p.code i.functionName [i.payload]).2.length < 2 ^ 31

/-- The request that is sent for an invocation. -/
structure Requests (p : Config) (i : Invocation) (j : Job) : Prop where
  sender : j.sender = .controlPlane
  runs : j.Runs p
  asked : j.asked = i.asked
  outgoing : i.outgoing = some (.invocationRequest j.header j.payload)

/-- The message of a result. -/
structure Reports (p : Config) (j : Job) (g : Frame ControlPlane.TcpStream.format) : Prop where
  bytes : g.bytes = j.result p
  lengthField : lengthField g.header = some (g.payload.length : Int)
  callOf : callOf g.parts = [.finishInvocation j.key (p.answer j.functionName.1 j.payload).1
    (p.answer j.functionName.1 j.payload).2]

/-- The response is what the function gives. -/
def Right (p : Config) (r : Response) : Prop :=
  (r.returnCode, r.result) = p.answer r.invocation.functionName r.invocation.payload

section Messages

variable {p : Config} {i : Invocation} {j : Job}

theorem asked_eq (h : i.submitted = false) : i.asked = i := by
  cases i
  cases h
  rfl

theorem Served.encodable (h : Served p i) : i.Encodable := by
  refine ⟨h.functionName.1, h.id.1, ?_⟩
  rw [toInt32_of_lt h.payload]
  exact Int.natCast_nonneg _

/-- What the process reads in the header. -/
theorem header_read (h : Served p i) :
    ∃ m, i.header = .ok m ∧ Message.MessageParser.parse m.buf = .ok (.invocationRequest m.buf) ∧
      Message.InvocationRequest.functionName m.buf = i.functionName ∧
      Message.InvocationRequest.invocationId m.buf = i.id ∧
      Process.Remote.WellFormed m.buf i.payload := by
  let calls : List (Message.format .invocationRequest).Call :=
    [⟨.functionName, StringView.ofStr i.functionName⟩, ⟨.requestId, StringView.ofStr i.id⟩,
      ⟨.payloadSize, toInt32 i.payload.length⟩, ⟨.totalLength, toInt32 i.payload.length⟩]
  have hlength : toInt32 i.payload.length = i.payload.length := toInt32_of_lt h.payload
  have hlt := h.payload
  have haccepted : ∀ call ∈ calls, call.Accepted := by
    intro call hcall
    simp only [calls, List.mem_cons, List.not_mem_nil, or_false] at hcall
    rcases hcall with rfl | rfl | rfl | rfl
    · exact Header.Kind.accepts_ofStr h.functionName.1 h.functionName.2
    · exact Header.Kind.accepts_ofStr h.id.1 h.id.2
    · show 0 ≤ toInt32 i.payload.length ∧ toInt32 i.payload.length < 2 ^ 31
      omega
    · exact ⟨toInt32_ge _, toInt32_lt _⟩
  rcases Message.set_new (by decide) haccepted with ⟨m, hm, hparse, hget⟩
  have hsize : Message.InvocationRequest.payloadSize m.buf = i.payload.length :=
    (hget .payloadSize).trans hlength
  refine ⟨m, ?_, hparse, (hget .functionName).trans (Header.Kind.chars_ofStr _),
    (hget .requestId).trans (Header.Kind.chars_ofStr _), ?_⟩
  · simp only [calls, List.foldlM_cons, List.foldlM_nil, bind_pure] at hm
    exact hm
  · unfold Process.Remote.WellFormed Process.Remote.lengthField
    rw [hparse]
    exact congrArg some hsize

theorem exists_requests (h : Served p i) : ∃ j, Requests p i j := by
  rcases header_read h with ⟨m, hm, hparse, hname, hid, hwf⟩
  refine ⟨⟨.controlPlane, ⟨i.functionName, h.functionName⟩, ⟨i.id, h.id⟩, i.payload, m.buf, hparse,
    hname, hid, m.length_buf, hwf, h.payload⟩, rfl, ⟨h.loaded, h.output⟩, rfl, ?_⟩
  unfold Invocation.outgoing
  rw [hm]

/-- The requests for the invocations of a list, as they are written. -/
theorem exists_requests_all {l : List Invocation} (h : ∀ i ∈ l, Served p i) :
    ∃ js : List Job, js.map Job.asked = l.map Invocation.asked ∧
      (∀ j ∈ js, j.sender = .controlPlane ∧ j.Runs p) ∧
      (l.filterMap Invocation.outgoing).flatMap Outgoing.bytes =
        js.flatMap fun j => j.header ++ j.payload := by
  induction l with
  | nil => exact ⟨[], rfl, by simp, rfl⟩
  | cons i l ih =>
    rcases ih fun k hk => h k (List.mem_cons_of_mem _ hk) with ⟨js, hasked, hjs, hbytes⟩
    rcases exists_requests (h i List.mem_cons_self) with ⟨j, hj⟩
    refine ⟨j :: js, ?_, ?_, ?_⟩
    · rw [List.map_cons, List.map_cons, hasked, hj.asked]
    · intro k hk
      rcases List.mem_cons.1 hk with rfl | hk
      · exact ⟨hj.sender, hj.runs⟩
      · exact hjs k hk
    · rw [List.filterMap_cons_some hj.outgoing, List.flatMap_cons, List.flatMap_cons, hbytes]
      rfl

theorem exists_reports (h : j.Runs p) : ∃ g, Reports p j g := by
  rcases p.answer_small h.small with ⟨hcode, hsmall⟩
  rcases Process.Remote.resultHeader_read j.invocationId.2 hcode hsmall with
    ⟨m, hm, hparse, hid, hreturn, htotal⟩
  rcases Job.result_ok h with ⟨m', hm', hresult⟩
  obtain rfl := Except.ok.inj (hm.symm.trans hm')
  have hlength : lengthField m.buf =
      some ((p.answer j.functionName.1 j.payload).2.length : Int) := by
    unfold lengthField
    rw [hparse]
    exact congrArg some htotal
  refine ⟨⟨m.buf, (p.answer j.functionName.1 j.payload).2, m.length_buf,
    ControlPlane.TcpStream.length_of_lengthField hlength⟩, hresult.symm, hlength, ?_⟩
  unfold ControlPlane.TcpStream.callOf Frame.parts
  dsimp only
  rw [hparse]
  dsimp only
  rw [hid, hreturn]
  rfl

theorem exists_reports_all {js : List Job} (h : ∀ j ∈ js, j.Runs p) :
    ∃ gs, List.Forall₂ (Reports p) js gs ∧ Framing.stream gs = js.flatMap (Job.result p) := by
  induction js with
  | nil => exact ⟨[], .nil, rfl⟩
  | cons j js ih =>
    rcases ih fun k hk => h k (List.mem_cons_of_mem _ hk) with ⟨gs, hgs, hstream⟩
    rcases exists_reports (h j List.mem_cons_self) with ⟨g, hg⟩
    refine ⟨g :: gs, .cons hg hgs, ?_⟩
    show g.bytes ++ Framing.stream gs = _
    rw [List.flatMap_cons, hstream, hg.bytes]

end Messages

/-! ## The phases of the connection -/

/-- The process object has not been reached. -/
structure Waiting (c : ControlPlane.Process) : Prop where
  status : c.status = .ALLOCATING
  sent : c.sent = []
  responses : c.responses = []
  fresh : ∀ i ∈ c.invocations, i.submitted = false

inductive Phase where
  | starting
  | registering
  | connected (sending : List Job) (f : Flow) (returning : List Job)

namespace Phase

def Holds (p : Config) (x : Endpoint) (stream : Stream) (c : ControlPlane.Process) : Phase → Prop
  | .starting => x.server = TCPServer.new p.processId ∧ Idle p x.node ∧ x.wire = [] ∧ x.back = [] ∧
      stream = {} ∧ Waiting c
  | .registering => Reads x.server 0 0 .controlPlane Parser.idle ∧ Idle p x.node ∧ x.wire = [] ∧
      x.back ≠ [] ∧ stream.data = none ∧ Waiting c ∧
      ∃ m, Message.ProcessConnection.setProcessName (.new .processConnection) (.ofStr p.processId) = .ok m ∧
        stream.buffer ++ x.back = m.buf
  | .connected sending f returning => Relays p .controlPlane x sending f ∧
      (∃ q gs, Rep stream q ∧ Owes x.back q gs ∧ List.Forall₂ (Reports p) returning gs) ∧
      c.status = .ALLOCATED ∧
      (c.invocations.map Invocation.asked).Perm ((sending ++ f.jobs ++ returning).map Job.asked)

variable {p : Config} {x : Endpoint} {stream : Stream} {c c' : ControlPlane.Process} {ph : Phase}

/-- What the phases say about the process object. -/
theorem Holds.congr (h : ph.Holds p x stream c) (hstatus : c'.status = c.status)
    (hsent : c'.sent = c.sent) (hresponses : c'.responses = c.responses)
    (hinvocations : c'.invocations = c.invocations) : ph.Holds p x stream c' := by
  have hwaiting : Waiting c → Waiting c' := by
    rintro ⟨h₁, h₂, h₃, h₄⟩
    exact ⟨hstatus.trans h₁, hsent.trans h₂, hresponses.trans h₃, hinvocations ▸ h₄⟩
  cases ph with
  | starting =>
    rcases h with ⟨h₁, h₂, h₃, h₄, h₅, hwait⟩
    exact ⟨h₁, h₂, h₃, h₄, h₅, hwaiting hwait⟩
  | registering =>
    rcases h with ⟨h₁, h₂, h₃, h₄, h₅, hwait, hm⟩
    exact ⟨h₁, h₂, h₃, h₄, h₅, hwaiting hwait, hm⟩
  | connected sending f returning =>
    rcases h with ⟨h₁, h₂, hallocated, hperm⟩
    exact ⟨h₁, h₂, hstatus.trans hallocated, hinvocations ▸ hperm⟩

end Phase

/-! ## The process object -/

/-- What the server calls for a result. -/
def Job.finish (p : Config) (j : Job) : ServerCall :=
  .finishInvocation j.key (p.answer j.functionName.1 j.payload).1
    (p.answer j.functionName.1 j.payload).2

/-- The results of some of the invocations are the responses to these. -/
theorem finish_all {p : Config} {c : ControlPlane.Process} {js : List Job} {rest : List Invocation}
    (hperm : (c.invocations.map Invocation.asked).Perm (js.map Job.asked ++ rest))
    (hids : (c.invocations.map Invocation.id).Nodup) :
    ∃ n l rs, (js.map (Job.finish p)).foldlM Faas.serve c =
        .ok { c with activeInvocations := n, invocations := l, responses := c.responses ++ rs } ∧
      (l.map Invocation.asked).Perm rest ∧
      rs.map (fun r => r.invocation.asked) = js.map Job.asked ∧ ∀ r ∈ rs, Right p r := by
  induction js generalizing c with
  | nil =>
    refine ⟨c.activeInvocations, c.invocations, [], ?_, hperm, rfl, by simp⟩
    rw [List.append_nil]
    rfl
  | cons j js ih =>
    rcases List.mem_map.1 (hperm.mem_iff.2 List.mem_cons_self) with ⟨i, hi, hasked⟩
    let r : Response :=
      ⟨i, (p.answer j.functionName.1 j.payload).1, (p.answer j.functionName.1 j.payload).2⟩
    rcases ControlPlane.Process.finishInvocation_ok hi hids r.returnCode r.result with
      ⟨l, hfinish, hsplit⟩
    have hkey : i.id = j.key := congrArg Invocation.id hasked
    have hrest : (l.map Invocation.asked).Perm (js.map Job.asked ++ rest) := by
      have hcons := (hsplit.map Invocation.asked).symm.trans hperm
      rw [List.map_cons, List.map_cons, List.cons_append, hasked] at hcons
      exact hcons.cons_inv
    have hids' : (l.map Invocation.id).Nodup :=
      (List.nodup_cons.1 (((hsplit.map Invocation.id).nodup_iff).1 hids)).2
    rcases ih (c := { c with
      activeInvocations := c.activeInvocations - 1
      invocations := l
      responses := c.responses ++ [r] }) hrest hids' with
      ⟨n, l', rs, hfold, hperm', hmap, hright⟩
    refine ⟨n, l', r :: rs, ?_, hperm', ?_, List.forall_mem_cons.2 ⟨?_, hright⟩⟩
    · rw [List.map_cons, List.foldlM_cons]
      show (Except.ok (c.finishInvocation j.key r.returnCode r.result) >>= _) = _
      rw [← hkey, hfinish]
      refine hfold.trans ?_
      rw [List.append_assoc]
      rfl
    · rw [List.map_cons, List.map_cons, hmap, hasked]
    · have hname : i.functionName = j.functionName.1 := congrArg Invocation.functionName hasked
      have hpayload : i.payload = j.payload := congrArg Invocation.payload hasked
      unfold Right
      rw [hname, hpayload]

/-- The creation, from the allocation to the call of the callback. -/
inductive Creation (c : ControlPlane.Process) : Prop where
  | waiting (i : Invocation) (fresh : i.submitted = false)
      (callback : c.creationCallback = some (.invoke i)) (wait : c.waitForAllocation = true)
      (connecting : c.connecting = 0) (missing : c.handle = false ∨ c.status = .ALLOCATING)
  | connecting (i : Invocation) (fresh : i.submitted = false)
      (callback : c.creationCallback = some (.invoke i)) (connecting : c.connecting = 1)
      (handle : c.handle = true) (status : c.status = .ALLOCATED)
  | done (callback : c.creationCallback = none) (connecting : c.connecting = 0)
      (handle : c.handle = true) (status : c.status = .ALLOCATED)

namespace Creation

variable {c c' : ControlPlane.Process}

/-- The instance is connected to once it is there and the process has registered. -/
theorem created {i : Invocation} (hfresh : i.submitted = false)
    (hcallback : c.creationCallback = some (.invoke i))
    (hwait : c.waitForAllocation = true) (hconnecting : c.connecting = 0)
    (hstatus : c.status = .ALLOCATING ∨ c.status = .ALLOCATED) :
    Creation (c.createdCallback none) := by
  by_cases hboth : c.handle = true ∧ c.status = .ALLOCATED
  · rw [ControlPlane.Process.createdCallback_starts (by rw [hcallback]; rfl) hboth.1
      fun _ => hboth.2]
    exact .connecting i hfresh hcallback (congrArg (· + 1) hconnecting) hboth.1 hboth.2
  · rw [ControlPlane.Process.createdCallback_keeps]
    · refine .waiting i hfresh hcallback hwait hconnecting ?_
      rcases hstatus with hallocating | hallocated
      · exact Or.inr hallocating
      · exact Or.inl (Bool.eq_false_iff.2 fun hhandle => hboth ⟨hhandle, hallocated⟩)
    · by_cases hhandle : c.handle = true
      · exact Or.inr (Or.inr ⟨hwait, fun hallocated => hboth ⟨hhandle, hallocated⟩⟩)
      · exact Or.inr (Or.inl (Bool.eq_false_iff.2 hhandle))

theorem congr (h : Creation c) (hcallback : c'.creationCallback = c.creationCallback)
    (hwait : c'.waitForAllocation = c.waitForAllocation) (hconnecting : c'.connecting = c.connecting)
    (hhandle : c'.handle = c.handle) (hstatus : c'.status = c.status) : Creation c' := by
  cases h with
  | waiting i h₀ h₁ h₂ h₃ h₄ =>
    exact .waiting i h₀ (hcallback.trans h₁) (hwait.trans h₂) (hconnecting.trans h₃)
      (by rw [hhandle, hstatus]; exact h₄)
  | connecting i h₀ h₁ h₂ h₃ h₄ =>
    exact .connecting i h₀ (hcallback.trans h₁) (hconnecting.trans h₂) (hhandle.trans h₃)
      (hstatus.trans h₄)
  | done h₁ h₂ h₃ h₄ =>
    exact .done (hcallback.trans h₁) (hconnecting.trans h₂) (hhandle.trans h₃) (hstatus.trans h₄)

end Creation

/-! ## What an event does to the connection -/

section Connection

variable {p : Config} {s : Faas} {ph : Phase}

/-- The connection of a state. -/
def Faas.At (p : Config) (s : Faas) (ph : Phase) : Prop :=
  ph.Holds p s.toEndpoint s.stream s.control

theorem submit_same (s : Faas) {c : ControlPlane.Process} (hsent : c.sent = s.control.sent) :
    s.submit c = { s with control := c } := by
  unfold Faas.submit
  rw [hsent, List.drop_length]
  simp

/-- The process connects to the control plane. -/
theorem poll_step (hname : p.processId.length ≤ Message.NAME_LENGTH ∧ (0 : Byte) ∉ p.processId)
    (h : s.At p ph) :
    ∃ x ph', s.step p .poll = .ok { s with toEndpoint := x } ∧
      Faas.At p { s with toEndpoint := x } ph' := by
  have hlater : ∀ r q, Reads s.server 0 r .controlPlane q →
      s.step p .poll = .ok { s with toEndpoint := s.toEndpoint } := by
    intro r q hreads
    have hfound : s.server.controlPlane = some r := hreads.found
    show (s.poll).mapError Failure.fault = _
    unfold Faas.poll
    rw [hfound]
    rfl
  cases ph with
  | starting =>
    rcases h with ⟨hserver, hidle, hwire, hback, hstream, hwait⟩
    rcases Process.Remote.registration_read hname with ⟨m, hm, -⟩
    rcases Process.Remote.poll_ok (t := 0) hm with
      ⟨server₁, server₂, hpoll, hconnected, hreads, hsent, -⟩
    have hback' : (s.toEndpoint.respond server₂).back = m.buf := by
      unfold Endpoint.respond
      rw [hserver, hsent, hback]
      simp [written, TCPServer.new]
    refine ⟨s.toEndpoint.respond server₂, .registering, ?_, hreads, hidle, hwire, ?_, ?_, hwait, m,
      hm, ?_⟩
    · show (s.poll).mapError Failure.fault = _
      unfold Faas.poll
      rw [hserver, hpoll]
      show ((server₁.connected _ 0 >>= _ : Except Fault Faas)).mapError Failure.fault = _
      rw [hconnected]
      rfl
    · show (s.toEndpoint.respond server₂).back ≠ []
      rw [hback']
      exact List.ne_nil_of_length_pos (by rw [m.length_buf]; exact Message.BUF_SIZE_pos)
    · rw [hstream]
    · show s.stream.buffer ++ (s.toEndpoint.respond server₂).back = m.buf
      rw [hback', hstream]
      rfl
  | registering => exact ⟨_, .registering, hlater _ _ h.1, h⟩
  | connected sending f returning =>
    rcases h.1.reads with ⟨r, q, hreads, -⟩
    exact ⟨_, .connected sending f returning, hlater _ _ hreads, h⟩

/-- The network hands on what the control plane has written. -/
theorem arrive_step (h : s.At p ph) (n : ℕ) :
    ∃ x ph', s.step p (.arrive n) = .ok { s with toEndpoint := x } ∧
      Faas.At p { s with toEndpoint := x } ph' := by
  have hnothing : s.wire = [] → s.step p (.arrive n) = .ok { s with toEndpoint := s.toEndpoint } := by
    intro hwire
    simp only [Faas.step, Endpoint.arrive_nothing hwire]
    rfl
  cases ph with
  | starting => exact ⟨_, .starting, hnothing h.2.2.1, h⟩
  | registering => exact ⟨_, .registering, hnothing h.2.2.1, h⟩
  | connected sending f returning =>
    rcases h with ⟨hrelays, hreturning, hallocated, hperm⟩
    rcases hrelays.arrive n with ⟨x, js, sending', hx, rfl, hback, hrelays'⟩
    refine ⟨x, .connected sending' { f with inbox := f.inbox ++ js } returning, ?_, hrelays', ?_,
      hallocated, hperm.trans ?_⟩
    · simp only [Faas.step, hx]
      rfl
    · rw [show ({ s with toEndpoint := x } : Faas).back = s.back from hback]
      exact hreturning
    · refine (List.Perm.append_right returning ?_).map Job.asked
      unfold Flow.jobs
      rw [List.append_assoc, List.append_assoc f.inbox]
      refine (List.perm_append_comm_assoc _ _ _).trans (List.Perm.append_left _ ?_)
      exact List.perm_append_comm_assoc _ _ _

/-- The process goes on, and what it has done is on its way back. -/
theorem node_step (h : s.At p ph) (e : Node.Event) :
    ∃ x ph', s.step p (.node e) = .ok { s with toEndpoint := x } ∧
      Faas.At p { s with toEndpoint := x } ph' := by
  have hnothing : ∀ node, s.toEndpoint.work p e = .ok { s.toEndpoint with node := node } →
      s.step p (.node e) = .ok { s with node := node } := by
    intro node hnode
    simp only [Faas.step, hnode]
    rfl
  cases ph with
  | starting =>
    rcases h with ⟨hserver, hidle, hrest⟩
    rcases Endpoint.work_idle hidle e with ⟨node, hnode, hidle'⟩
    exact ⟨_, .starting, hnothing node hnode, hserver, hidle', hrest⟩
  | registering =>
    rcases h with ⟨hreads, hidle, hrest⟩
    rcases Endpoint.work_idle hidle e with ⟨node, hnode, hidle'⟩
    exact ⟨_, .registering, hnothing node hnode, hreads, hidle', hrest⟩
  | connected sending f returning =>
    rcases h with ⟨hrelays, ⟨q, gs, hrep, howes, hgs⟩, hallocated, hperm⟩
    rcases hrelays.work e with ⟨x, done, f', hx, hdone, hback, hrelays'⟩
    have hruns : ∀ j ∈ done, j.Runs p := fun j hj =>
      (hrelays.runs j (List.mem_append_right _ (hdone.mem_iff.2 (List.mem_append_left _ hj)))).2
    rcases exists_reports_all hruns with ⟨gs', hgs', hstream⟩
    refine ⟨x, .connected sending f' (returning ++ done), ?_, hrelays', ⟨q, gs ++ gs', hrep, ?_, ?_⟩,
      hallocated, hperm.trans ?_⟩
    · simp only [Faas.step, hx]
      rfl
    · show Owes x.back q (gs ++ gs')
      rw [hback, ← hstream]
      exact howes.append gs'
    · exact List.rel_append hgs hgs'
    · refine List.Perm.map Job.asked ?_
      rw [List.append_assoc, List.append_assoc]
      refine List.Perm.append_left sending ((hdone.append_right returning).trans ?_)
      rw [List.append_assoc]
      exact List.perm_append_comm.trans (by rw [List.append_assoc])

/-- One more invocation: it waits for the registration, or is sent. -/
theorem add_step {c : ControlPlane.Process} (h : s.At p ph) (hsent : c.sent = s.control.sent)
    (hsame : ph.Holds p s.toEndpoint s.stream c) {i : Invocation} (hserved : Served p i)
    (hids : ((c.invocations ++ [i]).map Invocation.id).Nodup) :
    ∃ c' ph', c.addInvocation i = (c', none) ∧ (s.submit c').At p ph' ∧
      c'.invocations.map Invocation.asked = c.invocations.map Invocation.asked ++ [i.asked] := by
  have hwaits : Waiting c → ∃ c', c.addInvocation i = (c', none) ∧ Waiting c' ∧
      s.submit c' = { s with control := c' } ∧
      c'.invocations.map Invocation.asked = c.invocations.map Invocation.asked ++ [i.asked] := by
    intro hwait
    have hstatus : c.status ≠ .ALLOCATED := by
      rw [hwait.status]
      decide
    refine ⟨_, ControlPlane.Process.addInvocation_waits hstatus i,
      ⟨hwait.status, hwait.sent, hwait.responses, ?_⟩, submit_same s hsent, ?_⟩
    · intro k hk
      rcases List.mem_append.1 hk with hk | hk
      · exact hwait.fresh k hk
      · rw [List.mem_singleton.1 hk]
        exact hserved.fresh
    · simp
  cases ph with
  | starting =>
    rcases hsame with ⟨h₁, h₂, h₃, h₄, h₅, hwait⟩
    rcases hwaits hwait with ⟨c', hadd, hwait', hsubmit, hasked⟩
    refine ⟨c', .starting, hadd, ?_, hasked⟩
    rw [hsubmit]
    exact ⟨h₁, h₂, h₃, h₄, h₅, hwait'⟩
  | registering =>
    rcases hsame with ⟨h₁, h₂, h₃, h₄, h₅, hwait, hm⟩
    rcases hwaits hwait with ⟨c', hadd, hwait', hsubmit, hasked⟩
    refine ⟨c', .registering, hadd, ?_, hasked⟩
    rw [hsubmit]
    exact ⟨h₁, h₂, h₃, h₄, h₅, hwait', hm⟩
  | connected sending f returning =>
    rcases hsame with ⟨hrelays, hreturning, hallocated, hperm⟩
    rcases exists_requests_all (List.forall_mem_singleton.2 hserved) with
      ⟨js, hasked, hjs, hbytes⟩
    have hkeys : ((sending ++ f.jobs ++ returning ++ js).map Job.asked).Perm
        ((c.invocations ++ [i]).map Invocation.asked) := by
      have happend := hperm.symm.append_right ([i].map Invocation.asked)
      rw [← List.map_append, ← hasked, ← List.map_append] at happend
      exact happend
    have hids' : ((sending ++ f.jobs ++ js).map Job.key).Nodup := by
      have hkey : ∀ l : List Job, l.map Job.key = (l.map Job.asked).map Invocation.id := by
        intro l
        rw [List.map_map]
        rfl
      have hall := (hkeys.map Invocation.id).nodup_iff.2 (by rw [List.map_map]; exact hids)
      rw [← hkey] at hall
      refine hall.sublist (List.Sublist.map _ ?_)
      exact (List.sublist_append_left _ _).append_right js
    refine ⟨_, .connected (sending ++ js) f returning,
      ControlPlane.Process.addInvocation_ok hallocated hserved.encodable, ⟨?_, hreturning,
        hallocated, ?_⟩, ?_⟩
    · have hwrite := hrelays.write hids' hjs
      show Relays p .controlPlane { s.toEndpoint with wire := s.wire ++ _ } _ _
      rw [hsent, List.drop_left, hbytes]
      exact hwrite
    · show ((c.invocations ++ [i.submit]).map Invocation.asked).Perm _
      rw [List.map_append, List.map_singleton, Invocation.asked_submit, ← List.map_singleton,
        ← List.map_append]
      refine hkeys.symm.trans (List.Perm.map _ ?_)
      rw [List.append_assoc, List.append_assoc sending, List.append_assoc, List.append_assoc]
      refine List.Perm.append_left sending ?_
      rw [← List.append_assoc, ← List.append_assoc]
      exact List.perm_append_comm.trans (by rw [List.append_assoc])
    · simp

end Connection

/-! ## The account -/

/-- Every invocation is answered, with what its function gives, or outstanding. -/
structure Account (p : Config) (all : List Invocation) (c : ControlPlane.Process) : Prop where
  name : c.name = p.processId
  creation : Creation c
  asked : (c.answered ++ c.outstanding).Perm all
  right : ∀ r ∈ c.responses, Right p r

def Sound (p : Config) (all : List Invocation) (s : Faas) : Prop :=
  (∃ ph, s.At p ph) ∧ Account p all s.control

section Accounts

variable {p : Config} {s : Faas} {all : List Invocation} {ph : Phase}

/-- The ids of the invocations of the process differ. -/
theorem Account.ids {c : ControlPlane.Process} (h : Account p all c)
    (hids : (all.map Invocation.id).Nodup) : (c.invocations.map Invocation.id).Nodup := by
  have hall := ((h.asked.map Invocation.id).nodup_iff).2 hids
  rw [ControlPlane.Process.outstanding, List.map_append, List.map_append, List.map_map] at hall
  exact hall.of_append_right.of_append_left

theorem Account.served {c : ControlPlane.Process} (h : Account p all c)
    (hserved : ∀ i ∈ all, Served p i) {i : Invocation} (hi : i ∈ c.invocations)
    (hfresh : i.submitted = false) : Served p i := by
  have hmem : i.asked ∈ c.answered ++ c.outstanding :=
    List.mem_append_right _ (List.mem_append_left _ (List.mem_map_of_mem hi))
  rw [← asked_eq hfresh]
  exact hserved _ (h.asked.mem_iff.1 hmem)

/-- Events of the network and of the process are none of the process object. -/
theorem sound_endpoint (h : Sound p all s) {x : Endpoint} {ph' : Phase}
    (hat : Faas.At p { s with toEndpoint := x } ph') : Sound p all { s with toEndpoint := x } :=
  ⟨⟨ph', hat⟩, h.2⟩

theorem sound_allocated (h : Sound p all s) :
    ∃ s', s.step p .allocated = .ok s' ∧ Sound p all s' := by
  rcases h with ⟨⟨ph, hat⟩, haccount⟩
  by_cases hhandle : s.control.handle = true
  · exact ⟨s, if_pos hhandle, ⟨ph, hat⟩, haccount⟩
  refine ⟨_, if_neg hhandle, ?_⟩
  have hcreation : Creation (s.control.setHandle.createdCallback none) := by
    cases haccount.creation with
    | waiting i hfresh hcallback hwait hconnecting =>
      refine Creation.created hfresh hcallback hwait hconnecting ?_
      cases ph with
      | starting => exact Or.inl hat.2.2.2.2.2.status
      | registering => exact Or.inl hat.2.2.2.2.2.1.status
      | connected sending f returning => exact Or.inr hat.2.2.1
    | connecting i _ _ _ h => exact absurd h hhandle
    | done _ _ h => exact absurd h hhandle
  rcases ControlPlane.Process.createdCallback_none s.control.setHandle with ⟨n, hcreated⟩
  rw [hcreated] at hcreation ⊢
  rw [submit_same]
  · exact ⟨⟨ph, hat.congr rfl rfl rfl rfl⟩, haccount.name, hcreation, haccount.asked,
      haccount.right⟩
  · rfl

/-- A client asks for an invocation. -/
theorem sound_invoke (h : Sound p all s) {i : Invocation} (hserved : Served p i)
    (hids : ((all ++ [i]).map Invocation.id).Nodup) :
    ∃ s', s.step p (.invoke i) = .ok s' ∧ Sound p (all ++ [i]) s' := by
  rcases h with ⟨⟨ph, hat⟩, haccount⟩
  have hids' : ((s.control.invocations ++ [i]).map Invocation.id).Nodup := by
    have hall := (((haccount.asked.append_right [i]).map Invocation.id).nodup_iff).2 hids
    rw [ControlPlane.Process.outstanding] at hall
    have hsub : (s.control.invocations.map Invocation.asked ++ [i]).Sublist
        (s.control.answered ++ (s.control.invocations.map Invocation.asked ++ s.control.uncalled) ++
          [i]) :=
      ((List.sublist_append_left _ _).trans (List.sublist_append_right _ _)).append_right [i]
    have hnodup := hall.sublist (hsub.map Invocation.id)
    rw [List.map_append, List.map_map] at hnodup
    rw [List.map_append]
    exact hnodup
  rcases add_step hat rfl hat hserved hids' with ⟨c, ph', hadd, hat', hinvocations⟩
  rcases ControlPlane.Process.addInvocation_changes s.control i with ⟨l, sent, hchanges⟩
  rw [hadd] at hchanges
  obtain rfl : c = _ := hchanges
  refine ⟨_, ?_, ⟨ph', hat'⟩, haccount.name, haccount.creation.congr rfl rfl rfl rfl rfl, ?_,
    haccount.right⟩
  · simp only [Faas.step, hadd]
    rfl
  · have hsame : i.asked = i := asked_eq hserved.fresh
    refine List.Perm.trans ?_ (haccount.asked.append_right [i])
    rw [ControlPlane.Process.outstanding, ControlPlane.Process.outstanding, List.append_assoc]
    refine List.Perm.append_left s.control.answered ?_
    show (l.map Invocation.asked ++ s.control.uncalled).Perm _
    rw [show l.map Invocation.asked = _ from hinvocations, hsame, List.append_assoc,
      List.append_assoc]
    exact List.perm_append_comm.append_left _

/-- The instance is connected to, and the callback of the process is called. -/
theorem sound_instanceConnected (h : Sound p all s) (hserved : ∀ i ∈ all, Served p i)
    (hids : (all.map Invocation.id).Nodup) :
    ∃ s', s.step p .instanceConnected = .ok s' ∧ Sound p all s' := by
  rcases h with ⟨⟨ph, hat⟩, haccount⟩
  by_cases hconnecting : s.control.connecting = 0
  · exact ⟨s, if_pos hconnecting, ⟨ph, hat⟩, haccount⟩
  cases haccount.creation with
  | waiting _ _ _ _ hzero => exact absurd hzero hconnecting
  | done _ hzero => exact absurd hzero hconnecting
  | connecting i hfresh hcallback hone hhandle hstatus =>
    let c₀ := { s.control with connecting := s.control.connecting - 1 }
    have hasked := haccount.asked
    have huncalled : s.control.uncalled = [i.asked] := by
      unfold ControlPlane.Process.uncalled
      rw [hcallback]
    rw [ControlPlane.Process.outstanding, huncalled] at hasked
    have hserved' : Served p i := by
      rw [← asked_eq hfresh]
      exact hserved _ (hasked.mem_iff.1 (by simp))
    have hids' : ((c₀.invocations ++ [i]).map Invocation.id).Nodup := by
      have hall := ((hasked.map Invocation.id).nodup_iff).2 hids
      rw [List.map_append, List.map_append, List.map_map] at hall
      rw [List.map_append]
      exact hall.of_append_right
    rcases add_step hat (c := c₀) rfl (hat.congr rfl rfl rfl rfl) hserved' hids' with
      ⟨c, ph', hadd, hat', hinvocations⟩
    rcases ControlPlane.Process.addInvocation_changes c₀ i with ⟨l, sent, hchanges⟩
    rw [hadd] at hchanges
    obtain rfl : c = _ := hchanges
    have hcallback' : c₀.creationCallback = some (.invoke i) := hcallback
    let c₁ : ControlPlane.Process :=
      { c₀ with
        invocations := l
        activeInvocations := c₀.activeInvocations + 1
        sent := sent
        creationCallback := none
        created := c₀.created ++ [none] }
    have hcalled : Faas.returned (c₀.instanceConnected none) = .ok c₁ := by
      unfold ControlPlane.Process.instanceConnected
      rw [hcallback']
      dsimp only
      rw [hadd]
      rfl
    have hat₁ : (s.submit c₁).At p ph' := hat'.congr rfl rfl rfl rfl
    refine ⟨_, ?_, ⟨ph', hat₁⟩, haccount.name, ?_, ?_, haccount.right⟩
    · simp only [Faas.step, if_neg hconnecting]
      show (Faas.returned (c₀.instanceConnected none) >>= _) = _
      rw [hcalled]
      rfl
    · exact .done rfl (by show s.control.connecting - 1 = 0; omega) hhandle hstatus
    · refine List.Perm.trans ?_ hasked
      rw [ControlPlane.Process.outstanding]
      refine List.Perm.append_left s.control.answered ?_
      show (l.map Invocation.asked ++ []).Perm _
      rw [List.append_nil, show l.map Invocation.asked = _ from hinvocations]

/-- A chunk arrives at the control plane, and the process object takes its calls. -/
theorem report_ok {n : ℕ} {stream : Stream} {ks : List ServerCall} {c : ControlPlane.Process}
    (hne : s.back.take n ≠ [])
    (hreceive : s.stream.receive (fun name => decide (name = s.control.name)) (s.back.take n) =
      .ok stream) (hcalls : stream.calls = s.stream.calls ++ ks)
    (hserve : ks.foldlM Faas.serve s.control = .ok c) :
    s.step p (.report n) = .ok ({ s with stream := stream, back := s.back.drop n }.submit c) := by
  show s.report n = _
  unfold Faas.report
  rw [if_neg hne]
  dsimp only
  rw [hreceive]
  simp only [Except.mapError, bind, Except.bind, hcalls, List.drop_left]
  rw [hserve]
  rfl

/-- A part of the registration reaches the control plane. -/
theorem registering_part (h : s.At p .registering) (haccount : Account p all s.control) {n : ℕ}
    (hne : s.back.take n ≠ []) (hdrop : s.back.drop n ≠ []) :
    ∃ s', s.step p (.report n) = .ok s' ∧ Sound p all s' := by
  rcases h with ⟨hreads, hidle, hwire, hback, hdata, hwait, m, hm, hbuffer⟩
  have hsplit : (s.stream.buffer ++ s.back.take n) ++ s.back.drop n = m.buf := by
    rw [List.append_assoc, List.take_append_drop, hbuffer]
  have hlength := congrArg List.length hsplit
  rw [List.length_append, m.length_buf] at hlength
  have hpos := List.length_pos_of_ne_nil hdrop
  have hshort : (s.stream.buffer ++ s.back.take n).length < Message.BUF_SIZE := by omega
  have hreport := report_ok (p := p) hne (ControlPlane.TcpStream.register_part _ hdata hshort)
    (List.append_nil _).symm rfl
  refine ⟨_, hreport, ⟨.registering, ?_⟩, haccount⟩
  rw [submit_same]
  · exact ⟨hreads, hidle, hwire, hdrop, hdata, hwait, m, hm, hsplit⟩
  · rfl

/-- The rest of it: the process is connected, and the invocations that have waited are sent. -/
theorem registering_rest (h : s.At p .registering) (haccount : Account p all s.control)
    (hname : p.processId.length ≤ Message.NAME_LENGTH ∧ (0 : Byte) ∉ p.processId)
    (hserved : ∀ i ∈ all, Served p i) (hids : (all.map Invocation.id).Nodup) {n : ℕ}
    (hne : s.back.take n ≠ []) (hdrop : s.back.drop n = []) :
    ∃ s', s.step p (.report n) = .ok s' ∧ Sound p all s' := by
  rcases h with ⟨hreads, hidle, hwire, hback, hdata, hwait, m, hm, hbuffer⟩
  rcases Process.Remote.registration_read hname with ⟨m', hm', hparse, hread⟩
  obtain rfl := Except.ok.inj (hm.symm.trans hm')
  have hsplit : s.stream.buffer ++ s.back.take n = m.buf := by
    have hall := List.take_append_drop n s.back
    rw [hdrop, List.append_nil] at hall
    rw [hall, hbuffer]
  have hpending : decide (Message.ProcessConnection.processName m.buf = s.control.name) = true := by
    rw [hread]
    exact decide_eq_true haccount.name.symm
  rcases ControlPlane.TcpStream.register_rest (fun name => decide (name = s.control.name))
    hdata hsplit hparse hpending with ⟨stream, hreceive, hrep, hcalls⟩
  have hserved' : ∀ i ∈ s.control.invocations, Served p i := fun i hi =>
    haccount.served hserved hi (hwait.fresh i hi)
  have hconnect := ControlPlane.Process.connect_ok hwait.status
    (fun i hi => ⟨hwait.fresh i hi, (hserved' i hi).encodable⟩) 0
  let c₀ : ControlPlane.Process :=
    { s.control with
      connection := some 0
      status := .ALLOCATED
      invocations := s.control.invocations.map Invocation.submit
      sent := s.control.sent ++ s.control.invocations.filterMap Invocation.outgoing }
  have hcreation : Creation (c₀.createdCallback none) := by
    cases haccount.creation with
    | waiting i hfresh hcallback hwaits hconnecting =>
      exact Creation.created hfresh hcallback hwaits hconnecting (Or.inr rfl)
    | connecting i _ _ _ _ hallocated => cases hwait.status.symm.trans hallocated
    | done _ _ _ hallocated => cases hwait.status.symm.trans hallocated
  rcases ControlPlane.Process.createdCallback_none c₀ with ⟨k, hcreated⟩
  have hcallback : s.control.connect 0 = ({ c₀ with connecting := k }, none) := by
    rw [hconnect]
    exact congrArg (·, none) hcreated
  rw [hcreated] at hcreation
  have hserve : [ServerCall.connect (Message.ProcessConnection.processName m.buf)].foldlM
      Faas.serve s.control = .ok { c₀ with connecting := k } := by
    show (Faas.returned (s.control.connect 0) >>= _) = _
    rw [hcallback]
    rfl
  rcases exists_requests_all hserved' with ⟨js, hasked, hjs, hbytes⟩
  have hasked' : (s.control.invocations.map Invocation.submit).map Invocation.asked =
      js.map Job.asked := by
    rw [hasked, List.map_map]
    rfl
  refine ⟨_, report_ok hne hreceive hcalls hserve, ⟨.connected js (Flow.idle p) [], ?_, ?_, rfl, ?_⟩,
    haccount.name, hcreation, ?_, haccount.right⟩
  · have hkeys : ((Flow.idle p).jobs ++ js).map Job.key = s.control.invocations.map Invocation.id := by
      have hid := congrArg (List.map Invocation.id) hasked
      rw [List.map_map, List.map_map] at hid
      rw [idle_jobs]
      exact hid
    have hidle' := Relays.of_idle (x := { s.toEndpoint with back := s.back.drop n }) hreads hidle hwire
    have hwrite := hidle'.write (by rw [List.nil_append, hkeys]; exact haccount.ids hids) hjs
    show Relays p .controlPlane
      { s.toEndpoint with back := s.back.drop n, wire := s.wire ++ (c₀.sent.drop _).flatMap _ } _ _
    rw [List.drop_left, hbytes]
    exact hwrite
  · refine ⟨Parser.idle, [], hrep, ?_, .nil⟩
    show Owes (s.back.drop n) Parser.idle []
    rw [hdrop]
    exact .idle [] [] rfl
  · show ((s.control.invocations.map Invocation.submit).map Invocation.asked).Perm _
    rw [hasked', idle_jobs, List.append_nil, List.append_nil]
  · refine List.Perm.trans ?_ haccount.asked
    rw [ControlPlane.Process.outstanding, ControlPlane.Process.outstanding]
    show (s.control.answered ++ ((s.control.invocations.map Invocation.submit).map Invocation.asked ++
      s.control.uncalled)).Perm _
    rw [hasked', hasked]

/-- The calls of the messages of results. -/
theorem calls_reports {js : List Job} {gs : List (Frame ControlPlane.TcpStream.format)}
    (h : List.Forall₂ (Reports p) js gs) :
    (gs.flatMap fun g => callOf g.parts) = js.map (Job.finish p) := by
  induction h with
  | nil => rfl
  | cons hj _ ih =>
    rw [List.flatMap_cons, List.map_cons, ih, hj.callOf]
    rfl

/-- The results reach the control plane, and are the responses. -/
theorem connected_report {sending returning : List Job} {f : Flow}
    (h : s.At p (.connected sending f returning)) (haccount : Account p all s.control)
    (hids : (all.map Invocation.id).Nodup) {n : ℕ} (hne : s.back.take n ≠ []) :
    ∃ s', s.step p (.report n) = .ok s' ∧ Sound p all s' := by
  rcases h with ⟨hrelays, ⟨q, gs, hrep, howes, hgs⟩, hallocated, hperm⟩
  rw [← List.take_append_drop n s.back] at howes
  have hwf : ∀ g ∈ gs, lengthField g.header = some (g.payload.length : Int) := by
    intro g hg
    rcases List.mem_iff_getElem.1 hg with ⟨k, hk, rfl⟩
    have hlength := hgs.length_eq
    exact (hgs.get (hlength ▸ hk) hk).lengthField
  rcases ControlPlane.TcpStream.receive_messages (fun name => decide (name = s.control.name))
    hrep howes hwf with ⟨stream, done, gs', hreceive, hrep', rfl, howes', hcalls⟩
  have hdone := List.forall₂_take_append returning done gs' hgs
  have hrest := List.forall₂_drop_append returning done gs' hgs
  rw [calls_reports hdone] at hcalls
  have hsplit := List.take_append_drop done.length returning
  have hperm' : (s.control.invocations.map Invocation.asked).Perm
      ((returning.take done.length).map Job.asked ++
        (sending ++ f.jobs ++ returning.drop done.length).map Job.asked) := by
    refine hperm.trans ?_
    rw [← List.map_append]
    refine List.Perm.map Job.asked ?_
    nth_rewrite 1 [← hsplit]
    exact List.perm_append_comm_assoc _ _ _
  rcases finish_all hperm' (haccount.ids hids) with ⟨k, l, rs, hserve, hleft, hanswered, hright⟩
  refine ⟨_, report_ok hne hreceive hcalls hserve,
    ⟨.connected sending f (returning.drop done.length), ?_⟩, haccount.name,
    haccount.creation.congr rfl rfl rfl rfl rfl, ?_, ?_⟩
  · rw [submit_same]
    · exact ⟨⟨hrelays.reads, hrelays.flow, hrelays.ids, hrelays.runs⟩,
        ⟨_, gs', hrep', howes', hrest⟩, hallocated, hleft⟩
    · rfl
  · refine List.Perm.trans ?_ haccount.asked
    show (((s.control.responses ++ rs).map fun r => r.invocation.asked) ++
      (l.map Invocation.asked ++ s.control.uncalled)).Perm
        (s.control.answered ++ (s.control.invocations.map Invocation.asked ++ s.control.uncalled))
    rw [List.map_append, hanswered, List.append_assoc, ← List.append_assoc _ _ s.control.uncalled]
    refine List.Perm.append_left _ (List.Perm.append_right _ ?_)
    exact (hleft.append_left _).trans hperm'.symm
  · intro r hr
    rcases List.mem_append.1 hr with hr | hr
    · exact haccount.right r hr
    · exact hright r hr

theorem sound_report (h : Sound p all s)
    (hname : p.processId.length ≤ Message.NAME_LENGTH ∧ (0 : Byte) ∉ p.processId)
    (hserved : ∀ i ∈ all, Served p i)
    (hids : (all.map Invocation.id).Nodup) (n : ℕ) :
    ∃ s', s.step p (.report n) = .ok s' ∧ Sound p all s' := by
  by_cases hempty : s.back.take n = []
  · refine ⟨s, ?_, h⟩
    show s.report n = _
    unfold Faas.report
    rw [if_pos hempty]
  rcases h with ⟨⟨ph, hat⟩, haccount⟩
  cases ph with
  | starting =>
    rw [hat.2.2.2.1, List.take_nil] at hempty
    exact absurd rfl hempty
  | registering =>
    by_cases hdrop : s.back.drop n = []
    · exact registering_rest hat haccount hname hserved hids hempty hdrop
    · exact registering_part hat haccount hempty hdrop
  | connected sending f returning => exact connected_report hat haccount hids hempty

/-- **One event** adds its own invocation to the account, and loses none. -/
theorem faas_step (h : Sound p all s)
    (hname : p.processId.length ≤ Message.NAME_LENGTH ∧ (0 : Byte) ∉ p.processId) (e : Faas.Event)
    (hserved : ∀ i ∈ all ++ e.asked, Served p i) (hids : ((all ++ e.asked).map Invocation.id).Nodup) :
    ∃ s', s.step p e = .ok s' ∧ Sound p (all ++ e.asked) s' := by
  cases e with
  | invoke i => exact sound_invoke h (hserved i (by simp [Faas.Event.asked])) hids
  | allocated =>
    simp only [Faas.Event.asked, List.append_nil]
    exact sound_allocated h
  | instanceConnected =>
    simp only [Faas.Event.asked, List.append_nil] at hserved hids ⊢
    exact sound_instanceConnected h hserved hids
  | poll =>
    rcases h.1 with ⟨ph, hat⟩
    rcases poll_step hname hat with ⟨x, ph', hx, hat'⟩
    simp only [Faas.Event.asked, List.append_nil]
    exact ⟨_, hx, sound_endpoint h hat'⟩
  | arrive n =>
    rcases h.1 with ⟨ph, hat⟩
    rcases arrive_step hat n with ⟨x, ph', hx, hat'⟩
    simp only [Faas.Event.asked, List.append_nil]
    exact ⟨_, hx, sound_endpoint h hat'⟩
  | report n =>
    simp only [Faas.Event.asked, List.append_nil] at hserved hids ⊢
    exact sound_report h hname hserved hids n
  | node e =>
    rcases h.1 with ⟨ph, hat⟩
    rcases node_step hat e with ⟨x, ph', hx, hat'⟩
    simp only [Faas.Event.asked, List.append_nil]
    exact ⟨_, hx, sound_endpoint h hat'⟩

end Accounts

/-! ## Runs -/

section Runs

variable {p : Config} {s : Faas} {all : List Invocation}

theorem sound_start (p : Config) (a : ControlPlane.AppId) {i : Invocation}
    (hfresh : i.submitted = false) : Sound p [i] (Faas.start p a i) := by
  refine ⟨⟨.starting, rfl, Flow.idle_new p, rfl, rfl, rfl, rfl, rfl, rfl, ?_⟩, rfl,
    .waiting i hfresh rfl rfl rfl (Or.inl rfl), ?_, ?_⟩
  · intro k hk
    cases hk
  · show [i.asked].Perm [i]
    rw [asked_eq hfresh]
  · intro r hr
    cases hr

theorem sound_run (h : Sound p all s)
    (hname : p.processId.length ≤ Message.NAME_LENGTH ∧ (0 : Byte) ∉ p.processId)
    (es : List Faas.Event) (hserved : ∀ i ∈ all ++ es.flatMap Faas.Event.asked, Served p i)
    (hids : ((all ++ es.flatMap Faas.Event.asked).map Invocation.id).Nodup) :
    ∃ t, Lts.run (Faas.step p) s es = .ok t ∧ Sound p (all ++ es.flatMap Faas.Event.asked) t := by
  induction es generalizing s all with
  | nil =>
    refine ⟨s, rfl, ?_⟩
    rw [List.flatMap_nil, List.append_nil]
    exact h
  | cons e es ih =>
    rw [List.flatMap_cons, ← List.append_assoc] at hserved hids ⊢
    have hserved' : ∀ i ∈ all ++ e.asked, Served p i := fun i hi =>
      hserved i (List.mem_append_left _ hi)
    have hids' : ((all ++ e.asked).map Invocation.id).Nodup := by
      rw [List.map_append] at hids
      exact hids.of_append_left
    rcases faas_step h hname e hserved' hids' with ⟨s', hs', h'⟩
    rcases ih h' hserved hids with ⟨t, ht, ht'⟩
    exact ⟨t, Lts.run_cons_ok.2 ⟨s', hs', ht⟩, ht'⟩

end Runs

/-- Nothing is under way: the process is created and registered, its connection is empty in both
directions, and neither the poll loop nor a worker has anything to do. -/
structure Quiet (s : Faas) : Prop where
  allocated : s.control.status = .ALLOCATED
  handle : s.control.handle = true
  called : s.control.connecting = 0
  wire : s.wire = []
  received : (s.server.tcp 0).buffer = []
  back : s.back = []
  reported : s.stream.buffer = []
  inbox : s.node.inbox = []
  pending : s.node.process.ctl.workQueue.pendingInvocations = []
  idle : ∀ b ∈ s.node.process.ctl.workers.busy, b = false

/-- Then none is outstanding. -/
theorem outstanding_of_quiet {p : Config} {s : Faas} {all : List Invocation} (h : Sound p all s)
    (hquiet : Quiet s) : s.control.outstanding = [] := by
  rcases h with ⟨⟨ph, hat⟩, haccount⟩
  have huncalled : s.control.uncalled = [] := by
    unfold ControlPlane.Process.uncalled
    cases haccount.creation with
    | waiting i _ _ _ _ hmissing =>
      rcases hmissing with hno | hallocating
      · exact absurd (hno.symm.trans hquiet.handle) (by decide)
      · cases hallocating.symm.trans hquiet.allocated
    | connecting i _ _ hone => cases hone.symm.trans hquiet.called
    | done hnone =>
      rw [hnone]
  cases ph with
  | starting => cases hat.2.2.2.2.2.status.symm.trans hquiet.allocated
  | registering => cases hat.2.2.2.2.2.1.status.symm.trans hquiet.allocated
  | connected sending f returning =>
    rcases hat with ⟨hrelays, ⟨q, gs, hrep, howes, hgs⟩, -, hperm⟩
    rcases hrelays.reads with ⟨r, q', hreads, howes'⟩
    rw [hquiet.wire] at howes'
    have hsending := Framing.owes_nil howes' (hreads.rep.buffer.symm.trans hquiet.received)
    rw [hquiet.back] at howes
    have hgs' := Framing.owes_nil howes (hrep.buffer.symm.trans hquiet.reported)
    obtain rfl : sending = [] := List.map_eq_nil_iff.1 hsending
    obtain rfl : returning = [] := List.forall₂_nil_right_iff.1 (hgs' ▸ hgs)
    rcases hrelays.flow.looks with ⟨c, hrepresents, hlooks⟩
    rcases hlooks.plain with ⟨t, hrefines, hctl, -⟩
    have hc : s.node.process.ctl = c := hrefines.ctl.trans hctl
    have hinbox : f.inbox = [] := List.map_eq_nil_iff.1 (hlooks.inbox.symm.trans hquiet.inbox)
    have hpending : f.pending = [] := by
      have hnone := hquiet.pending
      rw [hc, hrepresents.pending] at hnone
      exact List.map_eq_nil_iff.1 hnone
    have hworking : f.working = [] := by
      have hidle := hquiet.idle
      rw [hc, hrepresents.busy] at hidle
      refine List.filterMap_eq_nil_iff.2 fun x hx => ?_
      have hnone := hidle _ (List.mem_map_of_mem hx)
      rw [Option.isNone_iff_eq_none.1 (Option.isSome_eq_false_iff.1 hnone)]
      rfl
    have hjobs : f.jobs = [] := by
      unfold Flow.jobs
      rw [hinbox, hpending, hworking]
      rfl
    rw [hjobs] at hperm
    rw [ControlPlane.Process.outstanding, huncalled, hperm.eq_nil]
    rfl

/-- One invocation of the function that is known, and one of another. -/
def sampleInvocation (functionName : Str) (key : Char) : Invocation where
  id := str (List.replicate 16 key)
  functionName := functionName
  payload := [1, 2, 3]

/-- The second is asked for before the process has registered. -/
def sampleInvocations : List Faas.Event :=
  [.poll, .invoke (sampleInvocation (str ['g']) 'b'), .report 40, .allocated, .report 40,
    .instanceConnected, .arrive 100, .node .external, .arrive 100, .node .external,
    .node .schedule, .report 200, .node (.worker 0)]

theorem sample_served :
    ∀ k ∈ sampleInvocation (str ['f']) 'a' :: sampleInvocations.flatMap Faas.Event.asked,
      Served sampleConfig k := by
  intro k hk
  have hcases : k = sampleInvocation (str ['f']) 'a' ∨ k = sampleInvocation (str ['g']) 'b' := by
    simpa [sampleInvocations, Faas.Event.asked] using hk
  rcases hcases with rfl | rfl
  · exact ⟨rfl, by decide, by decide, by decide, by decide, by decide⟩
  · exact ⟨rfl, by decide, by decide, by decide, by decide, by decide⟩

end Praas.Platform
