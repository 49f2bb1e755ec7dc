import Praas.Lib.Executions
import Praas.Platform.Endpoint
import Praas.Sdk.Process

/-! # A client and its process

A program that uses the SDK: it connects to a process and calls functions one after the other.
What it writes arrives in chunks; the poll loop and the workers take turns as they like; what
the server writes is there to be read at once.

* `Session.step` — the client, the network and the process, in any order;
* `Where` — the phases of a program;
* `session_step` — every event keeps the phase, or brings the program closer to its end.
-/

namespace Praas.Platform

open Process (Buffer)
open Process.Remote (TCPServer Reads written)
open Framing (Parser Owes)
open Sdk (Call Op Outcome NAME)

/-! ## The session -/

/-- A program: the calls to come, the one it waits for, and what the others returned. -/
structure Client where
  todo : List Op
  waiting : Option Op := none
  outcomes : List Outcome := []

/-- The process, and the program on its connection. -/
structure Session extends Endpoint where
  client : Client

namespace Session

inductive Event where
  | client
  | arrive (n : ℕ)
  | node (e : Node.Event)

/-- The server has accepted the connection. -/
def start (p : Config) (calls : List Call) : Session where
  server := (TCPServer.new p.processId).openTcp 0 .accepted
  node := Node.new p
  client := { todo := .connect :: calls.map .invoke }

/-- The client writes the message of its next call, or returns from the one it is in. -/
def goOn (s : Session) : Except Fault Session :=
  match s.client.waiting with
  | none =>
    match s.client.todo with
    | [] => .ok s
    | op :: todo => do
      let message ← op.message
      return { s with
        wire := s.wire ++ message
        client := { s.client with todo := todo, waiting := some op } }
  | some op => do
    match ← op.read s.back with
    | none => return s
    | some (outcome, rest) => return { s with
        back := rest
        client := { s.client with waiting := none, outcomes := s.client.outcomes ++ [outcome] } }

def step (p : Config) (s : Session) : Event → Except Fault Session
  | .client => s.goOn
  | .arrive n => do
    let x ← s.toEndpoint.arrive n
    return { s with toEndpoint := x }
  | .node e => do
    let x ← s.toEndpoint.work p e
    return { s with toEndpoint := x }

end Session

/-! ## The phases of a program -/

/-- The result of a call, as the function that it names gives it. -/
def Config.result (p : Config) (c : Call) : Sdk.InvocationResult :=
  Sdk.toResult (p.answer c.functionName.1 c.payload).1 (p.answer c.functionName.1 c.payload).2

def Config.outcomes (p : Config) (calls : List Call) : List Outcome :=
  .connected true :: calls.map fun c => .result (p.result c)

/-- There is a worker, and the function is loaded if it is known; the lengths are those of an
`int32_t`, and so is the negation of the code that is returned. -/
structure Within (p : Config) (c : Call) : Prop where
  workers : 0 < p.functionWorkers
  loaded : p.functions c.functionName.1 ≠ none → p.lib.hasFunction c.functionName.1 = true
  payload : c.payload.length < 2 ^ 31
  output : (p.code c.functionName.1 [c.payload]).2.length < 2 ^ 31
  code : -2 ^ 31 < (p.code c.functionName.1 [c.payload]).1.toInt

/-- The calls that have returned, and those that have not. -/
inductive Where where
  | start (todo : List Call)
  | connecting (todo : List Call) (rest : List Byte)
  | confirming (todo : List Call)
  | ready (done todo : List Call)
  | sending (done : List Call) (c : Call) (todo : List Call) (rest : List Byte)
  | serving (done : List Call) (c : Call) (todo : List Call) (st : Stage)
  | answered (done : List Call) (c : Call) (todo : List Call)

/-- The client and the two directions of its connection. -/
structure ClientAt (s : Session) (waiting : Option Op) (todo : List Op) (outcomes : List Outcome)
    (wire back : List Byte) : Prop where
  client : s.client = ⟨todo, waiting, outcomes⟩
  wire : s.wire = wire
  back : s.back = back

/-- The client is not registered yet. -/
structure Fresh (server : TCPServer) : Prop where
  context : (server.tcp 0).context = none
  unknown : server.connectionData NAME = none

/-- The client is registered, and the server waits for its next message. -/
def Ready (server : TCPServer) : Prop := ∃ r, Reads server 0 r (.process NAME) Parser.idle

/-- The request of the call, as the process gets it. -/
structure IsFor (j : Job) (c : Call) : Prop where
  sender : j.sender = .process NAME
  functionName : j.functionName = c.functionName
  invocationId : j.invocationId = c.invocationId
  payload : j.payload = c.payload

namespace Where

def calls : Where → List Call
  | .start todo => todo
  | .connecting todo _ => todo
  | .confirming todo => todo
  | .ready done todo => done ++ todo
  | .sending done c todo _ => done ++ c :: todo
  | .serving done c todo _ => done ++ c :: todo
  | .answered done c todo => done ++ c :: todo

def Holds (p : Config) (s : Session) : Where → Prop
  | .start todo => ClientAt s none (.connect :: todo.map .invoke) [] [] [] ∧ Fresh s.server ∧
      (s.server.tcp 0).buffer = [] ∧ Idle p s.node
  | .connecting todo rest => rest ≠ [] ∧ ClientAt s (some .connect) (todo.map .invoke) [] rest [] ∧
      Fresh s.server ∧ Idle p s.node ∧
      ∃ m, Sdk.connectHeader = .ok m ∧ (s.server.tcp 0).buffer ++ rest = m.buf
  | .confirming todo => Ready s.server ∧ Idle p s.node ∧
      ∃ m, Message.ProcessConnection.setProcessName (.new .processConnection)
          (.ofStr Process.Remote.CORRECT) = .ok m ∧
        ClientAt s (some .connect) (todo.map .invoke) [] [] m.buf
  | .ready done todo => ClientAt s none (todo.map .invoke) (p.outcomes done) [] [] ∧
      Ready s.server ∧ Idle p s.node
  | .sending done c todo rest => rest ≠ [] ∧
      ClientAt s (some (.invoke c)) (todo.map .invoke) (p.outcomes done) rest [] ∧ Idle p s.node ∧
      ∃ r q j, Reads s.server 0 r (.process NAME) q ∧ Owes rest q [j.frame] ∧ IsFor j c
  | .serving done c todo st =>
      ClientAt s (some (.invoke c)) (todo.map .invoke) (p.outcomes done) [] [] ∧ Ready s.server ∧
      ∃ j, IsFor j c ∧ (st.flow p j).Holds p s.node
  | .answered done c todo => Ready s.server ∧ Idle p s.node ∧
      ∃ m, Process.Remote.TCPServer.resultHeader (.ofStr c.invocationId.1)
          (p.answer c.functionName.1 c.payload).1 (p.answer c.functionName.1 c.payload).2 = .ok m ∧
        ClientAt s (some (.invoke c)) (todo.map .invoke) (p.outcomes done) []
          (m.buf ++ (p.answer c.functionName.1 c.payload).2)

/-- The event that brings the program on. -/
def Awaits (s : Session) (e : Session.Event) : Where → Prop
  | .start _ => e = .client
  | .connecting _ _ => ∃ n, e = .arrive n ∧ 0 < n
  | .confirming _ => e = .client
  | .ready _ todo => e = .client ∧ todo ≠ []
  | .sending _ _ _ _ => ∃ n, e = .arrive n ∧ 0 < n
  | .serving _ _ _ st => ∃ e', e = .node e' ∧ st.Awaits s.node e'
  | .answered _ _ _ => e = .client

end Where

namespace Stage

/-- How many stages are left. -/
def left : Stage → ℕ
  | .asked => 5
  | .waiting => 4
  | .sent => 3
  | .running => 2
  | .finished => 1

end Stage

namespace Where

/-- A bound on the events that bring a call to its end. -/
def cost (c : Call) : ℕ := Message.BUF_SIZE + c.payload.length + 8

/-- What is left to do. -/
def left : Where → ℕ
  | .start todo => (todo.map cost).sum + Message.BUF_SIZE + 3
  | .connecting todo rest => (todo.map cost).sum + rest.length + 2
  | .confirming todo => (todo.map cost).sum + 1
  | .ready _ todo => (todo.map cost).sum
  | .sending _ _ todo rest => (todo.map cost).sum + rest.length + 7
  | .serving _ _ todo st => (todo.map cost).sum + st.left + 1
  | .answered _ _ todo => (todo.map cost).sum + 1

end Where

/-- What became of an event: the program is in the phase it was in, or closer to its end. -/
def Proceeds (p : Config) (s : Session) (w : Where) (e : Session.Event) : Prop :=
  ∃ s' w', s.step p e = .ok s' ∧ w'.Holds p s' ∧ w'.calls = w.calls ∧
    ((w' = w ∧ ¬ w.Awaits s e) ∨ w'.left < w.left)

section Steps

variable {p : Config} {s : Session} {w : Where} {e : Session.Event}

/-! ### Events that change nothing -/

/-- A phase that an event does not end. -/
theorem Proceeds.stays {s' : Session} (hs : s.step p e = .ok s') (h : w.Holds p s')
    (hawaits : ¬ w.Awaits s e) : Proceeds p s w e :=
  ⟨s', w, hs, h, rfl, Or.inl ⟨rfl, hawaits⟩⟩

theorem client_blocked {op : Op} {todo : List Op} {outcomes : List Outcome} {wire : List Byte}
    (h : ClientAt s (some op) todo outcomes wire []) : s.step p .client = .ok s := by
  show s.goOn = _
  unfold Session.goOn
  rw [h.client, h.back]
  dsimp only
  rw [Sdk.read_blocked]
  rfl

theorem client_done {outcomes : List Outcome} {wire back : List Byte}
    (h : ClientAt s none [] outcomes wire back) : s.step p .client = .ok s := by
  show s.goOn = _
  unfold Session.goOn
  rw [h.client]

theorem arrive_nothing (h : s.wire = []) (n : ℕ) : s.step p (.arrive n) = .ok s := by
  show (s.toEndpoint.arrive n >>= _) = _
  rw [Endpoint.arrive_nothing h]
  rfl

theorem node_ok {x : Endpoint} {e : Node.Event} (h : s.toEndpoint.work p e = .ok x) :
    s.step p (.node e) = .ok { s with toEndpoint := x } := by
  show (s.toEndpoint.work p e >>= _) = _
  rw [h]
  rfl

theorem node_idle (h : Idle p s.node) (e : Node.Event) :
    ∃ node, s.step p (.node e) = .ok { s with node := node } ∧ Idle p node := by
  rcases Endpoint.work_idle h e with ⟨node, hnode, hidle⟩
  exact ⟨node, node_ok hnode, hidle⟩

/-! ### The client -/

theorem ClientAt.withNode {waiting : Option Op} {todo : List Op} {outcomes : List Outcome}
    {wire back : List Byte} (h : ClientAt s waiting todo outcomes wire back) (node : Node) :
    ClientAt { s with node := node } waiting todo outcomes wire back :=
  ⟨h.client, h.wire, h.back⟩

/-- The client writes the message of its next call. -/
theorem client_writes {op : Op} {todo : List Op} {outcomes : List Outcome} {wire back : List Byte}
    {message : List Byte} (h : ClientAt s none (op :: todo) outcomes wire back)
    (hmessage : op.message = .ok message) :
    ∃ s', s.step p .client = .ok s' ∧ s'.server = s.server ∧ s'.node = s.node ∧
      ClientAt s' (some op) todo outcomes (wire ++ message) back := by
  refine ⟨{ s with
    wire := s.wire ++ message
    client := { s.client with todo := todo, waiting := some op } }, ?_, rfl, rfl, ?_, ?_, h.back⟩
  · show s.goOn = _
    unfold Session.goOn
    simp only [h.client, hmessage]
    rfl
  · show ({ s.client with todo := todo, waiting := some op } : Client) = _
    rw [h.client]
  · show s.wire ++ message = _
    rw [h.wire]

/-- The client returns from the call that it is in. -/
theorem client_returns {op : Op} {todo : List Op} {outcomes : List Outcome} {wire back : List Byte}
    {outcome : Outcome} (h : ClientAt s (some op) todo outcomes wire back)
    (hread : op.read back = .ok (some (outcome, []))) :
    ∃ s', s.step p .client = .ok s' ∧ s'.server = s.server ∧ s'.node = s.node ∧
      ClientAt s' none todo (outcomes ++ [outcome]) wire [] := by
  refine ⟨{ s with
    back := []
    client := { s.client with waiting := none, outcomes := s.client.outcomes ++ [outcome] } }, ?_,
    rfl, rfl, ?_, h.wire, rfl⟩
  · show s.goOn = _
    unfold Session.goOn
    rw [h.client, h.back]
    dsimp only
    rw [hread]
    rfl
  · show ({ s.client with waiting := none, outcomes := s.client.outcomes ++ [outcome] } :
      Client) = _
    rw [h.client]

/-! ### The network -/

theorem arrive_ok {x : Endpoint} {n : ℕ} (h : s.toEndpoint.arrive n = .ok x) :
    s.step p (.arrive n) = .ok { s with toEndpoint := x } := by
  show (s.toEndpoint.arrive n >>= _) = _
  rw [h]
  rfl

/-- A chunk of the client that comes to no call and no answer. -/
theorem arrive_silent {waiting : Option Op} {todo : List Op} {outcomes : List Outcome}
    {wire back : List Byte} (h : ClientAt s waiting todo outcomes wire back) {n : ℕ}
    {server : TCPServer} (hne : wire.take n ≠ [])
    (hreceive : s.server.receive 0 (wire.take n) = .ok server)
    (hsent : server.sent = s.server.sent) (hcalls : server.calls = s.server.calls) :
    ∃ s', s.step p (.arrive n) = .ok s' ∧ s'.server = server ∧ s'.node = s.node ∧
      ClientAt s' waiting todo outcomes (wire.drop n) back := by
  obtain rfl := h.wire
  exact ⟨_, arrive_ok (Endpoint.arrive_silent hne hreceive hsent hcalls), rfl, rfl, h.client, rfl,
    h.back⟩

/-- A chunk of no bytes. -/
theorem arrive_empty {n : ℕ} (hwire : s.wire ≠ []) (hempty : s.wire.take n = []) :
    n = 0 ∧ s.step p (.arrive n) = .ok s :=
  ⟨(List.take_eq_nil_iff.1 hempty).resolve_right hwire,
    arrive_ok (Endpoint.arrive_empty hempty)⟩

/-! ### The calls -/

/-- The message of a call, and the request that it is. -/
theorem exists_request {c : Call} (hsmall : c.payload.length < 2 ^ 31) :
    ∃ j : Job, (Op.invoke c).message = .ok (j.header ++ j.payload) ∧ IsFor j c := by
  rcases Sdk.invokeHeader_ok c hsmall with ⟨hd, hheader, hparse, hname, hid, hwf⟩
  refine ⟨⟨.process NAME, c.functionName, c.invocationId, c.payload, hd.buf, hparse, hname, hid,
    hd.length_buf, hwf, hsmall⟩, ?_, ⟨rfl, rfl, rfl, rfl⟩⟩
  show (Sdk.invokeHeader c).map _ = _
  rw [hheader]
  rfl

theorem IsFor.runs {j : Job} {c : Call} (h : IsFor j c) (hwithin : Within p c) : j.Runs p where
  loaded := by
    unfold Job.Known
    rw [h.functionName]
    exact hwithin.loaded
  small := by
    rw [h.functionName, h.payload]
    exact hwithin.output

/-! ### The phases -/

theorem start_step {todo : List Call} (h : (Where.start todo).Holds p s) (e : Session.Event) :
    Proceeds p s (.start todo) e := by
  rcases h with ⟨hclient, hfresh, hbuffer, hidle⟩
  cases e with
  | client =>
    rcases Sdk.connectHeader_ok with ⟨m, hm, -⟩
    have hmessage : Op.connect.message = .ok m.buf := by
      show Sdk.connectHeader.map _ = _
      rw [hm]
      rfl
    rcases client_writes hclient hmessage with ⟨s', hs', hserver, hnode, hclient'⟩
    rw [List.nil_append] at hclient'
    refine ⟨s', .connecting todo m.buf, hs', ⟨?_, hclient', ?_, ?_, m, hm, ?_⟩, rfl, Or.inr ?_⟩
    · exact List.ne_nil_of_length_pos (by rw [m.length_buf]; exact Message.BUF_SIZE_pos)
    · rw [hserver]
      exact hfresh
    · rw [hnode]
      exact hidle
    · rw [hserver, hbuffer, List.nil_append]
    · simp only [Where.left, m.length_buf]
      omega
  | arrive n => exact .stays (arrive_nothing hclient.wire n) ⟨hclient, hfresh, hbuffer, hidle⟩ nofun
  | node e =>
    rcases node_idle hidle e with ⟨node, hnode, hidle'⟩
    exact .stays hnode ⟨hclient.withNode node, hfresh, hbuffer, hidle'⟩ nofun

/-- A part of the registration arrives. -/
theorem connecting_part {todo : List Call} {m : Message.MessageData}
    (hclient : ClientAt s (some .connect) (todo.map .invoke) [] s.wire []) (hfresh : Fresh s.server)
    (hidle : Idle p s.node) (hm : Sdk.connectHeader = .ok m)
    (hbuffer : (s.server.tcp 0).buffer ++ s.wire = m.buf) {n : ℕ} (hempty : s.wire.take n ≠ [])
    (hdrop : s.wire.drop n ≠ []) : Proceeds p s (.connecting todo s.wire) (.arrive n) := by
  have hsplit : ((s.server.tcp 0).buffer ++ s.wire.take n) ++ s.wire.drop n = m.buf := by
    rw [List.append_assoc, List.take_append_drop, hbuffer]
  have hlength := congrArg List.length hsplit
  rw [List.length_append, m.length_buf] at hlength
  have hpos := List.length_pos_of_ne_nil hdrop
  have hshort : ((s.server.tcp 0).buffer ++ s.wire.take n).length < Message.BUF_SIZE := by omega
  rcases arrive_silent (p := p) hclient hempty (Process.Remote.register_part hfresh.context hshort)
    rfl rfl with ⟨s', hs', hserver, hnode, hclient'⟩
  refine ⟨s', .connecting todo (s.wire.drop n), hs', ⟨hdrop, hclient', ?_, ?_, m, hm, ?_⟩, rfl,
    Or.inr ?_⟩
  · rw [hserver]
    refine ⟨?_, hfresh.unknown⟩
    simpa using hfresh.context
  · rw [hnode]
    exact hidle
  · rw [hserver]
    simpa using hsplit
  · have htake := List.length_pos_of_ne_nil hempty
    rw [List.length_take] at htake
    simp only [Where.left, List.length_drop]
    omega

/-- The rest of it arrives. -/
theorem connecting_rest {todo : List Call} {m : Message.MessageData}
    (hclient : ClientAt s (some .connect) (todo.map .invoke) [] s.wire []) (hfresh : Fresh s.server)
    (hidle : Idle p s.node) (hm : Sdk.connectHeader = .ok m)
    (hbuffer : (s.server.tcp 0).buffer ++ s.wire = m.buf) {n : ℕ} (hempty : s.wire.take n ≠ [])
    (hdrop : s.wire.drop n = []) : Proceeds p s (.connecting todo s.wire) (.arrive n) := by
  have hwhole : (s.server.tcp 0).buffer ++ s.wire.take n = m.buf := by
    rw [← hbuffer, ← List.take_append_drop n s.wire, hdrop, List.append_nil, List.take_take,
      Nat.min_self]
  rcases Sdk.connectHeader_ok with ⟨m', hm', hparse, hname⟩
  obtain rfl := Except.ok.inj (hm.symm.trans hm')
  rcases Sdk.confirmed_registration with ⟨response, hresponse, -⟩
  rcases Process.Remote.register_rest hfresh.context hwhole hparse (by rw [hname]; decide)
    (by rw [hname]; decide) (by rw [hname]; exact hfresh.unknown) hresponse with
    ⟨server, hreceive, hreads, hsent, hcalls⟩
  rw [hname] at hreads
  have hcalls' : server.calls = s.server.calls ++ [] := by rw [hcalls, List.append_nil]
  have hstep := arrive_ok (p := p) (Endpoint.arrive_ok hempty hreceive hsent hcalls')
  refine ⟨_, .confirming todo, hstep, ⟨⟨_, hreads⟩, ?_, response, hresponse, hclient.client, hdrop,
    ?_⟩, rfl, Or.inr ?_⟩
  · simpa using hidle
  · show s.back ++ written 0 [(0, response.buf)] = response.buf
    rw [hclient.back]
    simp [written]
  · have htake := List.length_pos_of_ne_nil hempty
    rw [List.length_take] at htake
    simp only [Where.left]
    omega

theorem connecting_step {todo : List Call} {rest : List Byte}
    (h : (Where.connecting todo rest).Holds p s) (e : Session.Event) :
    Proceeds p s (.connecting todo rest) e := by
  rcases h with ⟨hrest, hclient, hfresh, hidle, m, hm, hbuffer⟩
  cases e with
  | client =>
    exact .stays (client_blocked hclient) ⟨hrest, hclient, hfresh, hidle, m, hm, hbuffer⟩ nofun
  | node e =>
    rcases node_idle hidle e with ⟨node, hnode, hidle'⟩
    exact .stays hnode ⟨hrest, hclient.withNode node, hfresh, hidle', m, hm, hbuffer⟩ nofun
  | arrive n =>
    obtain rfl := hclient.wire
    by_cases hempty : s.wire.take n = []
    · rcases arrive_empty (p := p) hrest hempty with ⟨rfl, hstay⟩
      refine .stays hstay ⟨hrest, hclient, hfresh, hidle, m, hm, hbuffer⟩ ?_
      rintro ⟨k, hk, hpos⟩
      cases hk
      exact absurd hpos (lt_irrefl 0)
    by_cases hdrop : s.wire.drop n = []
    · exact connecting_rest hclient hfresh hidle hm hbuffer hempty hdrop
    · exact connecting_part hclient hfresh hidle hm hbuffer hempty hdrop

theorem confirming_step {todo : List Call} (h : (Where.confirming todo).Holds p s)
    (e : Session.Event) : Proceeds p s (.confirming todo) e := by
  rcases h with ⟨hready, hidle, m, hm, hclient⟩
  cases e with
  | client =>
    rcases Sdk.confirmed_registration with ⟨m', hm', hconfirmed⟩
    obtain rfl := Except.ok.inj (hm.symm.trans hm')
    have hread : Op.connect.read m.buf = .ok (some (.connected true, [])) := by
      have hheader := Sdk.readN_append m.length_buf []
      rw [List.append_nil] at hheader
      unfold Sdk.Op.read
      rw [hheader]
      dsimp only
      rw [hconfirmed]
      rfl
    rcases client_returns hclient hread with ⟨s', hs', hserver, hnode, hclient'⟩
    refine ⟨s', .ready [] todo, hs', ⟨hclient', ?_, ?_⟩, rfl, Or.inr ?_⟩
    · rw [hserver]
      exact hready
    · rw [hnode]
      exact hidle
    · exact Nat.lt_succ_self _
  | arrive n => exact .stays (arrive_nothing hclient.wire n) ⟨hready, hidle, m, hm, hclient⟩ nofun
  | node e =>
    rcases node_idle hidle e with ⟨node, hnode, hidle'⟩
    exact .stays hnode ⟨hready, hidle', m, hm, hclient.withNode node⟩ nofun

theorem ready_step {done todo : List Call} (hwithin : ∀ c ∈ todo, Within p c)
    (h : (Where.ready done todo).Holds p s) (e : Session.Event) :
    Proceeds p s (.ready done todo) e := by
  rcases h with ⟨hclient, hready, hidle⟩
  cases e with
  | client =>
    cases todo with
    | nil =>
      refine .stays (client_done hclient) ⟨hclient, hready, hidle⟩ ?_
      rintro ⟨-, hne⟩
      exact hne rfl
    | cons c todo =>
      rcases exists_request (hwithin c List.mem_cons_self).payload with
        ⟨j, hmessage, hfor⟩
      rcases client_writes hclient hmessage with ⟨s', hs', hserver, hnode, hclient'⟩
      rcases hready with ⟨r, hreads⟩
      rw [List.nil_append] at hclient'
      have hlength : (j.header ++ j.payload).length = Message.BUF_SIZE + c.payload.length := by
        rw [List.length_append, j.header_length, hfor.payload]
      have howes : Owes (j.header ++ j.payload) Parser.idle [j.frame] := by
        refine .idle [] [j.frame] ?_
        rw [Framing.stream_cons, Framing.stream_nil, List.append_nil]
        rfl
      refine ⟨s', .sending done c todo (j.header ++ j.payload), hs', ⟨?_, hclient', ?_, r,
        Parser.idle, j, ?_, howes, hfor⟩, rfl, Or.inr ?_⟩
      · apply List.ne_nil_of_length_pos
        rw [hlength]
        exact Nat.add_pos_left Message.BUF_SIZE_pos _
      · rw [hnode]
        exact hidle
      · rw [hserver]
        exact hreads
      · simp only [Where.left, Where.cost, hlength, List.map_cons, List.sum_cons]
        omega
  | arrive n => exact .stays (arrive_nothing hclient.wire n) ⟨hclient, hready, hidle⟩ nofun
  | node e =>
    rcases node_idle hidle e with ⟨node, hnode, hidle'⟩
    exact .stays hnode ⟨hclient.withNode node, hready, hidle'⟩ nofun

/-- A part of a request arrives. -/
theorem sending_part {done todo : List Call} {c : Call} {r : Process.Remote.Ref} {q : Parser Byte}
    {j : Job}
    (hclient : ClientAt s (some (.invoke c)) (todo.map .invoke) (p.outcomes done) s.wire [])
    (hidle : Idle p s.node) (hreads : Reads s.server 0 r (.process NAME) q) (howes : Owes s.wire q [j.frame])
    (hfor : IsFor j c) {n : ℕ}
    (hempty : s.wire.take n ≠ []) (hdrop : s.wire.drop n ≠ []) :
    Proceeds p s (.sending done c todo s.wire) (.arrive n) := by
  rw [← List.take_append_drop n s.wire] at howes
  rcases Process.Remote.receive_part hreads howes j.wellFormed j.isRequest hdrop with
    ⟨server, q', hreceive, hreads', howes', hsent, hcalls⟩
  rcases arrive_silent (p := p) hclient hempty hreceive hsent hcalls with
    ⟨s', hs', hserver, hnode, hclient'⟩
  refine ⟨s', .sending done c todo (s.wire.drop n), hs', ⟨hdrop, hclient', ?_, r, q', j, ?_,
    howes', hfor⟩, rfl, Or.inr ?_⟩
  · rw [hnode]
    exact hidle
  · rw [hserver]
    exact hreads'
  · have htake := List.length_pos_of_ne_nil hempty
    rw [List.length_take] at htake
    simp only [Where.left, List.length_drop]
    omega

/-- The rest of it arrives, and the request waits for the poll loop. -/
theorem sending_rest {done todo : List Call} {c : Call} {r : Process.Remote.Ref} {q : Parser Byte}
    {j : Job}
    (hclient : ClientAt s (some (.invoke c)) (todo.map .invoke) (p.outcomes done) s.wire [])
    (hidle : Idle p s.node) (hreads : Reads s.server 0 r (.process NAME) q) (howes : Owes s.wire q [j.frame])
    (hfor : IsFor j c) {n : ℕ}
    (hempty : s.wire.take n ≠ []) (hdrop : s.wire.drop n = []) :
    Proceeds p s (.sending done c todo s.wire) (.arrive n) := by
  have hwhole : s.wire.take n = s.wire := by
    have hsplit := List.take_append_drop n s.wire
    rwa [hdrop, List.append_nil] at hsplit
  rcases Process.Remote.receive_rest hreads (hwhole.symm ▸ howes) j.wellFormed j.isRequest with
    ⟨server, hreceive, hreads', hsent, hcalls⟩
  have hsent' : server.sent = s.server.sent ++ [] := by rw [hsent, List.append_nil]
  have hstep := arrive_ok (p := p) (Endpoint.arrive_ok hempty hreceive hsent' hcalls)
  rw [← hfor.sender] at hcalls
  refine ⟨_, .serving done c todo .asked, hstep, ⟨⟨hclient.client, hdrop, ?_⟩, ⟨r, hreads'⟩, j, hfor,
    ?_⟩, rfl, Or.inr ?_⟩
  · simpa [written] using hclient.back
  · have hasked := asked_of_idle hidle j
    rw [Job.call, hfor.sender] at hasked
    exact hasked
  · have htake := List.length_pos_of_ne_nil hempty
    rw [hwhole] at htake
    simp only [Where.left, Stage.left]
    omega

theorem sending_step {done todo : List Call} {c : Call} {rest : List Byte}
    (h : (Where.sending done c todo rest).Holds p s) (e : Session.Event) :
    Proceeds p s (.sending done c todo rest) e := by
  have hholds := h
  rcases h with ⟨hrest, hclient, hidle, r, q, j, hreads, howes, hfor⟩
  cases e with
  | client => exact .stays (client_blocked hclient) hholds nofun
  | node e =>
    rcases node_idle hidle e with ⟨node, hnode, hidle'⟩
    exact .stays hnode ⟨hrest, hclient.withNode node, hidle', r, q, j, hreads, howes, hfor⟩ nofun
  | arrive n =>
    obtain rfl := hclient.wire
    by_cases hempty : s.wire.take n = []
    · rcases arrive_empty (p := p) hrest hempty with ⟨rfl, hstay⟩
      refine .stays hstay hholds ?_
      rintro ⟨k, hk, hpos⟩
      cases hk
      exact absurd hpos (lt_irrefl 0)
    by_cases hdrop : s.wire.drop n = []
    · exact sending_rest hclient hidle hreads howes hfor hempty hdrop
    · exact sending_part hclient hidle hreads howes hfor hempty hdrop

theorem left_next {j : Job} {st st' : Stage} (h : st.next p j = some st') : st'.left < st.left := by
  cases st with
  | asked =>
    unfold Stage.next at h
    split_ifs at h
    cases h
    decide
  | finished => cases h
  | _ =>
    cases h
    decide

/-- The process answers, and the answer is on its way to the client. -/
theorem serving_answered {done todo : List Call} {c : Call} {st : Stage} {j : Job} {node : Node}
    {e : Node.Event} (hwithin : Within p c)
    (hclient : ClientAt s (some (.invoke c)) (todo.map .invoke) (p.outcomes done) [] [])
    (hready : Ready s.server) (hfor : IsFor j c) (hidle : Idle p node)
    (hnode : s.node.step p e = .ok (node, [j.reply p])) :
    Proceeds p s (.serving done c todo st) (.node e) := by
  rcases hready with ⟨r, hreads⟩
  rcases Job.result_ok (hfor.runs hwithin) with ⟨hd, hheader, hresult⟩
  have hnode' : s.node.step p e = .ok (node, [j].map (Job.reply p)) := hnode
  rcases Endpoint.work_replies hreads hnode'
    (List.forall_mem_singleton.2 ⟨hfor.sender, hfor.runs hwithin⟩) with ⟨server, hreads', hwork⟩
  unfold Job.key at hheader
  rw [hfor.invocationId, hfor.functionName, hfor.payload] at hheader
  rw [hfor.functionName, hfor.payload] at hresult
  refine ⟨_, .answered done c todo, node_ok hwork, ⟨⟨r, hreads'⟩, hidle, hd, hheader,
    hclient.client, hclient.wire, ?_⟩, rfl, Or.inr ?_⟩
  · show s.back ++ [j].flatMap (Job.result p) = _
    rw [hclient.back, List.flatMap_singleton, hresult]
    rfl
  · have hpos : 0 < st.left := by cases st <;> decide
    simp only [Where.left]
    omega

theorem serving_step {done todo : List Call} {c : Call} {st : Stage} (hwithin : Within p c)
    (h : (Where.serving done c todo st).Holds p s) (e : Session.Event) :
    Proceeds p s (.serving done c todo st) e := by
  have hholds := h
  rcases h with ⟨hclient, hready, j, hfor, hstage⟩
  cases e with
  | client => exact .stays (client_blocked hclient) hholds nofun
  | arrive n => exact .stays (arrive_nothing hclient.wire n) hholds nofun
  | node e =>
    rcases stage_step hwithin.workers (hfor.runs hwithin) hstage e with
      ⟨node, calls, hnode, ⟨hawaits, rfl, hsame⟩ | ⟨hnext, hcalls⟩⟩
    · have hstep : s.step p (.node e) = .ok { s with node := node } :=
        node_ok (Endpoint.work_silent hnode)
      refine .stays hstep ⟨hclient.withNode node, hready, j, hfor, hsame⟩ ?_
      rintro ⟨e', he, he'⟩
      cases he
      exact hawaits he'
    · cases hlater : st.next p j with
      | none =>
        rw [hlater] at hnext hcalls
        obtain rfl : calls = [j.reply p] := hcalls
        exact serving_answered hwithin hclient hready hfor hnext hnode
      | some st' =>
        rw [hlater] at hnext hcalls
        obtain rfl : calls = [] := hcalls
        have hstep : s.step p (.node e) = .ok { s with node := node } :=
          node_ok (Endpoint.work_silent hnode)
        refine ⟨_, .serving done c todo st', hstep, ⟨hclient.withNode node, hready, j, hfor,
          hnext⟩, rfl, Or.inr ?_⟩
        have hless := left_next hlater
        simp only [Where.left]
        omega

theorem answered_step {done todo : List Call} {c : Call} (hwithin : Within p c)
    (h : (Where.answered done c todo).Holds p s) (e : Session.Event) :
    Proceeds p s (.answered done c todo) e := by
  have hholds := h
  rcases h with ⟨hready, hidle, m, hm, hclient⟩
  cases e with
  | client =>
    rcases p.answer_small hwithin.output with ⟨hcode, hsmall⟩
    rcases Sdk.received_result c.invocationId hcode hsmall with ⟨m', hm', hreceived⟩
    obtain rfl := Except.ok.inj (hm.symm.trans hm')
    have hread : (Op.invoke c).read (m.buf ++ (p.answer c.functionName.1 c.payload).2) =
        .ok (some (.result (p.result c), [])) := by
      have hall := hreceived []
      rw [List.append_nil] at hall
      unfold Sdk.Op.read
      rw [Sdk.readN_append m.length_buf]
      dsimp only
      rw [hall]
      rfl
    rcases client_returns hclient hread with ⟨s', hs', hserver, hnode, hclient'⟩
    have houtcomes : p.outcomes done ++ [.result (p.result c)] = p.outcomes (done ++ [c]) := by
      simp [Config.outcomes]
    rw [houtcomes] at hclient'
    refine ⟨s', .ready (done ++ [c]) todo, hs', ⟨hclient', ?_, ?_⟩, ?_, Or.inr ?_⟩
    · rw [hserver]
      exact hready
    · rw [hnode]
      exact hidle
    · simp [Where.calls]
    · exact Nat.lt_succ_self _
  | arrive n => exact .stays (arrive_nothing hclient.wire n) hholds nofun
  | node e =>
    rcases node_idle hidle e with ⟨node, hnode, hidle'⟩
    exact .stays hnode ⟨hready, hidle', m, hm, hclient.withNode node⟩ nofun

/-- **One event.** It leaves the program in its phase, or brings it closer to its end; the event
that it waits for does. -/
theorem session_step (hwithin : ∀ c ∈ w.calls, Within p c) (h : w.Holds p s)
    (e : Session.Event) : Proceeds p s w e := by
  cases w with
  | start todo => exact start_step h e
  | connecting todo rest => exact connecting_step h e
  | confirming todo => exact confirming_step h e
  | ready done todo =>
    exact ready_step (fun c hc => hwithin c (List.mem_append_right _ hc)) h e
  | sending done c todo rest => exact sending_step h e
  | serving done c todo st =>
    exact serving_step (hwithin c (List.mem_append_right _ List.mem_cons_self)) h e
  | answered done c todo =>
    exact answered_step (hwithin c (List.mem_append_right _ List.mem_cons_self)) h e

end Steps

/-! ## Runs -/

section Sessions

variable {p : Config} {calls : List Call} {s : Session} {w : Where}

theorem start_holds (p : Config) (calls : List Call) :
    (Where.start calls).Holds p (Session.start p calls) := by
  refine ⟨⟨rfl, rfl, rfl⟩, ⟨?_, rfl⟩, ?_, Flow.idle_new p⟩
  · simp [Session.start, TCPServer.new]
  · simp [Session.start, TCPServer.new]

/-- The program is in one of its phases. -/
def InPhase (p : Config) (calls : List Call) (s : Session) : Prop :=
  ∃ w : Where, w.Holds p s ∧ w.calls = calls

theorem inPhase_start (p : Config) (calls : List Call) :
    InPhase p calls (Session.start p calls) :=
  ⟨.start calls, start_holds p calls, rfl⟩

theorem inPhase_step (hwithin : ∀ c ∈ calls, Within p c) (h : InPhase p calls s)
    (e : Session.Event) : ∃ s', s.step p e = .ok s' ∧ InPhase p calls s' := by
  rcases h with ⟨w, hw, rfl⟩
  rcases session_step hwithin hw e with ⟨s', w', hs', hw', hcalls, -⟩
  exact ⟨s', hs', w', hw', hcalls⟩

theorem inPhase_run (hwithin : ∀ c ∈ calls, Within p c) (h : InPhase p calls s)
    (es : List Session.Event) :
    ∃ t, Lts.run (Session.step p) s es = .ok t ∧ InPhase p calls t := by
  induction es generalizing s with
  | nil => exact ⟨s, rfl, h⟩
  | cons e es ih =>
    rcases inPhase_step hwithin h e with ⟨s', hs', h'⟩
    rcases ih h' with ⟨t, ht, ht'⟩
    exact ⟨t, Lts.run_cons_ok.2 ⟨s', hs', ht⟩, ht'⟩

/-- The calls return in their order, each with its own result. -/
theorem outcomes_prefix (h : w.Holds p s) : s.client.outcomes <+: p.outcomes w.calls := by
  have hdone : ∀ done todo : List Call, p.outcomes done <+: p.outcomes (done ++ todo) := by
    intro done todo
    refine ⟨todo.map fun c => .result (p.result c), ?_⟩
    simp [Config.outcomes]
  cases w with
  | start todo => exact h.1.client ▸ List.nil_prefix
  | connecting todo rest => exact h.2.1.client ▸ List.nil_prefix
  | confirming todo =>
    rcases h with ⟨-, -, m, -, hclient⟩
    exact hclient.client ▸ List.nil_prefix
  | ready done todo => exact h.1.client ▸ hdone done todo
  | sending done c todo rest => exact h.2.1.client ▸ hdone done (c :: todo)
  | serving done c todo st => exact h.1.client ▸ hdone done (c :: todo)
  | answered done c todo =>
    rcases h with ⟨-, -, m, -, hclient⟩
    exact hclient.client ▸ hdone done (c :: todo)

theorem outcomes_length (p : Config) (calls : List Call) :
    (p.outcomes calls).length = calls.length + 1 := by
  simp [Config.outcomes]

/-- Once they all have returned, the program is in its last phase. -/
theorem ready_of_outcomes (h : w.Holds p s) (hall : s.client.outcomes = p.outcomes w.calls) :
    w = .ready w.calls [] := by
  have hlength := congrArg List.length hall
  rw [outcomes_length] at hlength
  cases w with
  | start todo =>
    rw [h.1.client] at hlength
    cases hlength
  | connecting todo rest =>
    rw [h.2.1.client] at hlength
    cases hlength
  | confirming todo =>
    rcases h with ⟨-, -, m, -, hclient⟩
    rw [hclient.client] at hlength
    cases hlength
  | ready done todo =>
    rw [h.1.client] at hlength
    simp only [Where.calls, outcomes_length, List.length_append] at hlength
    obtain rfl : todo = [] := List.eq_nil_of_length_eq_zero (by omega)
    simp [Where.calls]
  | sending done c todo rest =>
    rw [h.2.1.client] at hlength
    simp only [Where.calls, outcomes_length, List.length_append, List.length_cons] at hlength
    omega
  | serving done c todo st =>
    rw [h.1.client] at hlength
    simp only [Where.calls, outcomes_length, List.length_append, List.length_cons] at hlength
    omega
  | answered done c todo =>
    rcases h with ⟨-, -, m, -, hclient⟩
    rw [hclient.client] at hlength
    simp only [Where.calls, outcomes_length, List.length_append, List.length_cons] at hlength
    omega

theorem otherName_text :
    (str ['g']).length ≤ Process.Ipc.NAME_LENGTH ∧ (0 : Byte) ∉ str ['g'] := by
  decide

/-- A call of the function that is known, and of another one. -/
def sampleCalls : List Call :=
  [⟨Runtime.Arguments.sampleName, Runtime.Arguments.sampleKey, [1, 2, 3]⟩,
    ⟨⟨str ['g'], otherName_text⟩, Runtime.Arguments.sampleKey, []⟩]

theorem sample_within : ∀ c ∈ sampleCalls, Within sampleConfig c := by
  intro c hc
  simp only [sampleCalls, List.mem_cons, List.not_mem_nil, or_false] at hc
  rcases hc with rfl | rfl
  · exact ⟨by decide, by decide, by decide, by decide, by decide⟩
  · exact ⟨by decide, by decide, by decide, by decide, by decide⟩

/-- The connection, byte by byte, and a part of the first call. -/
def sampleTurns : List Session.Event :=
  .client :: List.replicate 60 (.arrive 1) ++
    [.client, .arrive 500, .client, .client, .arrive 1, .node .schedule]

/-- The event recurs, in a state where it does something. -/
def Recurs (x : Lts.Execution (Session.step p)) (acts : Session → Session.Event → Prop) : Prop :=
  ∀ n, ∃ m, n ≤ m ∧ acts (x.state m) (x.event m)

/-- The client goes on, bytes arrive, and the poll loop and the first worker take their turns;
time and again the poll loop finds all the datagrams that its worker has sent. -/
structure Fair (x : Lts.Execution (Session.step p)) : Prop where
  client : Recurs x fun _ e => e = .client
  arrive : Recurs x fun _ e => ∃ n, e = .arrive n ∧ 0 < n
  external : Recurs x fun _ e => e = .node .external
  schedule : Recurs x fun _ e => e = .node .schedule
  worker : Recurs x fun _ e => e = .node (.worker 0)
  receive : Recurs x fun s e => ∃ ready env, e = .node (.receive 0 ready env) ∧
    (s.node.process.worker 0).up.queue.length ≤ ready

theorem Recurs.mono {x : Lts.Execution (Session.step p)}
    {acts acts' : Session → Session.Event → Prop} (h : Recurs x acts)
    (himp : ∀ s e, acts s e → acts' s e) : Recurs x acts' := by
  intro n
  rcases h n with ⟨m, hm, hacts⟩
  exact ⟨m, hm, himp _ _ hacts⟩

/-- What a stage waits for recurs. -/
theorem Fair.stage {x : Lts.Execution (Session.step p)} (h : Fair x) (st : Stage) :
    Recurs x fun s e => ∃ e', e = .node e' ∧ st.Awaits s.node e' := by
  cases st with
  | asked => exact h.external.mono fun _ _ he => ⟨_, he, rfl⟩
  | waiting => exact h.schedule.mono fun _ _ he => ⟨_, he, rfl⟩
  | sent => exact h.worker.mono fun _ _ he => ⟨_, he, rfl⟩
  | running => exact h.worker.mono fun _ _ he => ⟨_, he, rfl⟩
  | finished =>
    refine h.receive.mono ?_
    rintro s e ⟨ready, env, rfl, hready⟩
    exact ⟨_, rfl, ready, env, rfl, hready⟩

/-- What a phase waits for recurs, if it is not the last. -/
theorem Fair.phase {x : Lts.Execution (Session.step p)} (h : Fair x)
    (hw : ∀ done, w ≠ .ready done []) : Recurs x fun s e => w.Awaits s e := by
  cases w with
  | start todo => exact h.client
  | connecting todo rest => exact h.arrive
  | confirming todo => exact h.client
  | ready done todo =>
    refine h.client.mono fun s e he => ⟨he, ?_⟩
    rintro rfl
    exact hw done rfl
  | sending done c todo rest => exact h.arrive
  | serving done c todo st => exact h.stage st
  | answered done c todo => exact h.client

/-- Everyone in turn, and one byte at a time. -/
def inTurn (n : ℕ) (s : Session) : Session.Event :=
  match n % 6 with
  | 0 => .client
  | 1 => .arrive 1
  | 2 => .node .external
  | 3 => .node .schedule
  | 4 => .node (.worker 0)
  | _ => .node (.receive 0 (s.node.process.worker 0).up.queue.length {})

theorem recurs_inTurn {x : Lts.Execution (Session.step p)}
    (hx : ∀ n, x.event n = inTurn n (x.state n)) (i : ℕ)
    {acts : Session → Session.Event → Prop} (h : ∀ n s, n % 6 = i % 6 → acts s (inTurn n s)) :
    Recurs x acts := by
  intro n
  refine ⟨6 * n + i, by omega, ?_⟩
  rw [hx]
  exact h _ _ (by omega)

theorem fair_inTurn {x : Lts.Execution (Session.step p)}
    (hx : ∀ n, x.event n = inTurn n (x.state n)) : Fair x where
  client := recurs_inTurn hx 0 fun n s hn => by simp [inTurn, hn]
  arrive := recurs_inTurn hx 1 fun n s hn => by simp [inTurn, hn]
  external := recurs_inTurn hx 2 fun n s hn => by simp [inTurn, hn]
  schedule := recurs_inTurn hx 3 fun n s hn => by simp [inTurn, hn]
  worker := recurs_inTurn hx 4 fun n s hn => by simp [inTurn, hn]
  receive := recurs_inTurn hx 5 fun n s hn => by simp [inTurn, hn]

end Sessions

end Praas.Platform
