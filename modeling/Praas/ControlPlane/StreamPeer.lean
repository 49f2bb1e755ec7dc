import Praas.Lib.Lists
import Praas.ControlPlane.Stream
import Praas.ControlPlane.Submission

/-! # One process at the control plane

Its connection, from the registration on, and what its object makes of the calls.

* `TcpStream.register_part`, `TcpStream.register_rest`: the chunks of its registration;
* `TcpStream.receive_messages`: a chunk, and the calls of the messages that it completes;
* `Process.connect_ok`, `Process.addInvocation_ok`: the requests that are sent;
* `Process.finish_all`: the responses to any of the invocations.
-/

namespace Praas.ControlPlane

open Message (MessageData)

namespace TcpStream

open Message Framing

variable (pending : Str → Bool) {s : Stream} {p : Parser Byte} {c rest : List Byte}

/-! ## The connection -/

/-- Without a whole header a connection that has not registered waits. -/
theorem register_part (hdata : s.data = none) (hshort : (s.buffer ++ c).length < BUF_SIZE) :
    s.receive pending c = .ok { s with buffer := s.buffer ++ c } := by
  unfold Stream.receive
  refine Stream.handleMessage_stop ?_ (Or.inl rfl)
  unfold Stream.handleOnce
  rw [show ({ s with buffer := s.buffer ++ c } : Stream).data = none from hdata]
  dsimp only
  rw [if_pos hshort]

/-- The rest of the header: the process registers. -/
theorem register_rest (hdata : s.data = none) {m : MessageData} (hbuffer : s.buffer ++ c = m.buf)
    (hparse : MessageParser.parse m.buf = .ok (.processConnection m.buf))
    (hpending : pending (ProcessConnection.processName m.buf) = true) :
    ∃ s', s.receive pending c = .ok s' ∧ Rep s' Parser.idle ∧
      s'.calls = s.calls ++ [.connect (ProcessConnection.processName m.buf)] := by
  have hrest : m.buf.drop BUF_SIZE = [] := List.drop_of_length_le m.length_buf.le
  have htake : m.buf.take BUF_SIZE = m.buf := List.take_of_length_le m.length_buf.le
  have honce : ({ s with buffer := s.buffer ++ c } : Stream).handleOnce pending =
      .ok (⟨some {}, [], s.calls ++ [.connect (ProcessConnection.processName m.buf)]⟩, true) := by
    unfold Stream.handleOnce
    rw [show ({ s with buffer := s.buffer ++ c } : Stream).data = none from hdata]
    simp only [hbuffer, m.length_buf, lt_irrefl, if_false, htake, hparse, hpending, if_true]
    simp [Stream.retrieve, Stream.call, hrest]
  exact ⟨_, Stream.handleMessage_stop honce (Or.inr rfl), rep_fresh rfl rfl, rfl⟩

/-- A chunk arrives: the messages that it completes are called, the others are still owed. -/
theorem receive_messages (h : Rep s p) {todo : List (Frame format)}
    (howes : Owes (c ++ rest) p todo)
    (hwf : ∀ f ∈ todo, lengthField f.header = some (f.payload.length : Int)) :
    ∃ s' done todo', s.receive pending c = .ok s' ∧ Rep s' (call format true p c).1 ∧
      todo = done ++ todo' ∧ Owes rest (call format true p c).1 todo' ∧
      s'.calls = s.calls ++ done.flatMap fun f => callOf f.parts := by
  rcases owes_call true howes with ⟨done, todo', rfl, hdone, howes'⟩
  rcases receive_simulates s p c rest _ howes hwf h with ⟨s', hs', hrep, hcalls⟩
  refine ⟨s', done, todo', hs', hrep, rfl, howes', ?_⟩
  rw [hcalls, hdone, List.flatMap_map]

end TcpStream

/-! ## The invocations of the process -/

/-- As it was asked for. -/
def Invocation.asked (i : Invocation) : Invocation := { i with submitted := false }

def Invocation.submit (i : Invocation) : Invocation := { i with submitted := true }

@[simp] theorem Invocation.asked_submit (i : Invocation) : i.submit.asked = i.asked := rfl

@[simp] theorem Invocation.asked_id (i : Invocation) : i.asked.id = i.id := rfl

/-- What is written for a request of the control plane. -/
def Outgoing.bytes : Outgoing → List Byte
  | .swapRequest msg => msg
  | .invocationRequest msg payload => msg ++ payload

theorem Invocation.outgoing_ok {i : Invocation} (h : i.Encodable) :
    ∃ msg, i.header = .ok msg ∧ i.outgoing = some (.invocationRequest msg.buf i.payload) := by
  rcases header_ok h with ⟨msg, hmsg, -⟩
  refine ⟨msg, hmsg, ?_⟩
  unfold Invocation.outgoing
  rw [hmsg]

namespace Process

variable {p : Process}

/-- The invocation that the process was created for, until its callback is called. -/
def uncalled (p : Process) : List Invocation :=
  match p.creationCallback with
  | some (.invoke i) => [i.asked]
  | _ => []

/-- The invocations that have been answered, and those that have not. -/
def answered (p : Process) : List Invocation := p.responses.map fun r => r.invocation.asked

def outstanding (p : Process) : List Invocation :=
  p.invocations.map Invocation.asked ++ p.uncalled

/-- Without an error, at most the instance is connected to. -/
theorem createdCallback_none (p : Process) :
    ∃ n, p.createdCallback none = { p with connecting := n } := by
  unfold createdCallback
  dsimp only
  split_ifs
  · exact ⟨_, rfl⟩
  · exact ⟨_, rfl⟩
  · exact ⟨_, rfl⟩
  · exact ⟨_, rfl⟩

/-- All that wait are sent. -/
theorem sendInvocations_all {l : List Invocation}
    (h : ∀ i ∈ l, i.submitted = false ∧ i.Encodable) :
    sendInvocations l = (l.map Invocation.submit, l.filterMap Invocation.outgoing, none) := by
  induction l with
  | nil => rfl
  | cons i l ih =>
    rcases h i List.mem_cons_self with ⟨hfresh, hencodable⟩
    rcases Invocation.outgoing_ok hencodable with ⟨msg, hmsg, hout⟩
    unfold sendInvocations
    rw [if_neg (by simp [hfresh]), hmsg]
    dsimp only
    rw [ih fun j hj => h j (List.mem_cons_of_mem _ hj), List.filterMap_cons_some hout]
    rfl

/-- The process registers. -/
theorem connect_ok (hstatus : p.status = .ALLOCATING)
    (hall : ∀ i ∈ p.invocations, i.submitted = false ∧ i.Encodable) (c : ConnId) :
    p.connect c = (({ p with
      connection := some c
      status := .ALLOCATED
      invocations := p.invocations.map Invocation.submit
      sent := p.sent ++ p.invocations.filterMap Invocation.outgoing } :
        Process).createdCallback none, none) := by
  unfold connect
  rw [if_neg (by simp [hstatus]), sendInvocations_all hall]

/-- Before that, an invocation waits. -/
theorem addInvocation_waits (hstatus : p.status ≠ .ALLOCATED) (i : Invocation) :
    p.addInvocation i = ({ p with
      invocations := p.invocations ++ [i]
      activeInvocations := p.activeInvocations + 1 }, none) := by
  unfold addInvocation
  rw [if_neg hstatus]

/-- After that, it is sent at once. -/
theorem addInvocation_ok (hstatus : p.status = .ALLOCATED) {i : Invocation} (h : i.Encodable) :
    p.addInvocation i = ({ p with
      invocations := p.invocations ++ [i.submit]
      activeInvocations := p.activeInvocations + 1
      sent := p.sent ++ [i].filterMap Invocation.outgoing }, none) := by
  rcases Invocation.outgoing_ok h with ⟨msg, hmsg, hout⟩
  unfold addInvocation
  rw [if_pos hstatus, hmsg, List.filterMap_cons_some hout]
  rfl

/-- The response to one of the invocations. -/
theorem finishInvocation_ok {i : Invocation} (hi : i ∈ p.invocations)
    (hids : (p.invocations.map Invocation.id).Nodup) (code : Int) (result : List Byte) :
    ∃ l, p.finishInvocation i.id code result = { p with
        activeInvocations := p.activeInvocations - 1
        invocations := l
        responses := p.responses ++ [⟨i, code, result⟩] } ∧
      p.invocations.Perm (i :: l) := by
  cases hfind : p.invocations.find? (fun j => j.id = i.id) with
  | none =>
    have hnone := List.find?_eq_none.1 hfind i hi
    simp at hnone
  | some k =>
    rcases Lists.find_erase hfind with ⟨hk, before, after, hsplit, herase, -⟩
    have hmem : k ∈ p.invocations := List.mem_of_find?_eq_some hfind
    obtain rfl : k = i := List.inj_on_of_nodup_map hids hmem hi (of_decide_eq_true hk)
    refine ⟨before ++ after, ?_, ?_⟩
    · unfold finishInvocation
      rw [hfind]
      dsimp only
      rw [herase]
    · rw [hsplit]
      exact List.perm_middle

end Process

end Praas.ControlPlane
