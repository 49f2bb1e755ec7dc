import Praas.Process.RemotePeer
import Praas.Platform.Flow

/-! # A process, and the connection of one peer

What the peer writes arrives in chunks; what the server writes to the peer is on its way back.

* `Endpoint.arrive`, `Endpoint.work` — the network, and the process;
* `Relays` — a registered peer, its requests on the wire and those in the process;
* `Relays.arrive`, `Relays.work` — none of them is lost between the two.
-/

namespace Praas.Platform

open Process (ServerCall)
open Process.Remote (TCPServer Sender Reads written)
open Framing (Parser Owes)

structure Endpoint where
  server : TCPServer
  node : Node
  wire : List Byte := []
  back : List Byte := []

namespace Endpoint

/-- What the server has sent is on its way to the peer. -/
def respond (x : Endpoint) (server : TCPServer) : Endpoint :=
  { x with
    server := server
    back := x.back ++ written 0 (server.sent.drop x.server.sent.length) }

/-- The next bytes arrive in one chunk. -/
def arrive (x : Endpoint) (n : ℕ) : Except Fault Endpoint :=
  if x.wire.take n = [] then .ok x
  else do
    let server ← x.server.receive 0 (x.wire.take n)
    let calls := (server.calls.drop x.server.calls.length).map Prod.snd
    return { x.respond server with
      wire := x.wire.drop n
      node := { x.node with inbox := x.node.inbox ++ calls } }

/-- The poll loop or a worker of the process goes on. -/
def work (p : Config) (x : Endpoint) (e : Node.Event) : Except Fault Endpoint := do
  let (node, calls) ← x.node.step p e
  let server ← Process.Host.serve x.server calls
  return { x with node := node }.respond server

section Steps

variable {p : Config} {x : Endpoint}

/-! ### The network -/

theorem arrive_nothing (h : x.wire = []) (n : ℕ) : x.arrive n = .ok x := by
  unfold arrive
  rw [h, List.take_nil, if_pos rfl]

/-- A chunk of no bytes. -/
theorem arrive_empty {n : ℕ} (hempty : x.wire.take n = []) : x.arrive n = .ok x := by
  unfold arrive
  rw [if_pos hempty]

/-- A chunk arrives; what the server sends and calls is passed on. -/
theorem arrive_ok {n : ℕ} {server : TCPServer} {sends : List (Process.Remote.TcpId × List Byte)}
    {ks : List (Process.Remote.TcpId × Process.Remote.Call)} (hne : x.wire.take n ≠ [])
    (hreceive : x.server.receive 0 (x.wire.take n) = .ok server)
    (hsent : server.sent = x.server.sent ++ sends) (hcalls : server.calls = x.server.calls ++ ks) :
    x.arrive n = .ok
      { server := server
        node := { x.node with inbox := x.node.inbox ++ ks.map Prod.snd }
        wire := x.wire.drop n
        back := x.back ++ written 0 sends } := by
  unfold arrive
  rw [if_neg hne, hreceive]
  simp only [bind, Except.bind, pure, Except.pure, respond, hsent, hcalls, List.drop_left]

/-- A chunk that comes to no call and no answer. -/
theorem arrive_silent {n : ℕ} {server : TCPServer} (hne : x.wire.take n ≠ [])
    (hreceive : x.server.receive 0 (x.wire.take n) = .ok server)
    (hsent : server.sent = x.server.sent) (hcalls : server.calls = x.server.calls) :
    x.arrive n = .ok { x with server := server, wire := x.wire.drop n } := by
  have hsent' : server.sent = x.server.sent ++ [] := by rw [hsent, List.append_nil]
  have hcalls' : server.calls = x.server.calls ++ [] := by rw [hcalls, List.append_nil]
  rw [arrive_ok hne hreceive hsent' hcalls']
  simp [written]

/-! ### The process -/

/-- The process makes no calls. -/
theorem work_silent {e : Node.Event} {node : Node} (hnode : x.node.step p e = .ok (node, [])) :
    x.work p e = .ok { x with node := node } := by
  simp only [work, hnode, bind, Except.bind]
  show Except.ok (respond { x with node := node } x.server) = _
  unfold respond
  simp [written]

theorem work_idle (h : Idle p x.node) (e : Node.Event) :
    ∃ node, x.work p e = .ok { x with node := node } ∧ Idle p node := by
  rcases idle_step h e with ⟨node, hnode, hidle⟩
  exact ⟨node, work_silent hnode, hidle⟩

end Steps

end Endpoint

/-! ## The answer to an invocation -/

/-- What the server writes for it. -/
def Job.result (p : Config) (j : Job) : List Byte :=
  match Process.Remote.TCPServer.resultHeader (.ofStr j.key) (p.answer j.functionName.1 j.payload).1
    (p.answer j.functionName.1 j.payload).2 with
  | .ok hd => hd.buf ++ (p.answer j.functionName.1 j.payload).2
  | .error _ => []

section Answers

variable {p : Config} {x : Endpoint} {d : Sender} {r : Process.Remote.Ref} {q : Parser Byte}
  {j : Job}

theorem Job.result_ok (hruns : j.Runs p) :
    ∃ hd, Process.Remote.TCPServer.resultHeader (.ofStr j.key)
        (p.answer j.functionName.1 j.payload).1 (p.answer j.functionName.1 j.payload).2 = .ok hd ∧
      j.result p = hd.buf ++ (p.answer j.functionName.1 j.payload).2 := by
  rcases p.answer_small hruns.small with ⟨hcode, hsmall⟩
  rcases Process.Remote.resultHeader_read j.invocationId.2 hcode hsmall with ⟨hd, hheader, -⟩
  refine ⟨hd, hheader, ?_⟩
  unfold Job.result
  rw [show Process.Remote.TCPServer.resultHeader (.ofStr j.key) _ _ = .ok hd from hheader]

/-- The answers are written one after the other, and nothing else. -/
theorem serve_replies {server : TCPServer} (h : Reads server 0 r d q) (js : List Job)
    (hjs : ∀ j ∈ js, j.sender = d ∧ j.Runs p) :
    ∃ server', Process.Host.serve server (js.map (Job.reply p)) = .ok server' ∧
      Reads server' 0 r d q ∧
      ∃ sends, server'.sent = server.sent ++ sends ∧ written 0 sends = js.flatMap (Job.result p) := by
  induction js generalizing server with
  | nil => exact ⟨server, rfl, h, [], (List.append_nil _).symm, rfl⟩
  | cons j js ih =>
    rcases hjs j List.mem_cons_self with ⟨hsender, hruns⟩
    rcases Job.result_ok hruns with ⟨hd, hheader, hresult⟩
    rcases Process.Remote.answer_ok h hheader with
      ⟨server₁, hanswer, hreads₁, -, -, sends₁, hsent₁, hwritten₁⟩
    rcases ih hreads₁ fun i hi => hjs i (List.mem_cons_of_mem _ hi) with
      ⟨server₂, hserve, hreads₂, sends₂, hsent₂, hwritten₂⟩
    have hevent : server.step (j.reply p).event = .ok server₁ := by
      unfold Job.reply
      rw [hsender]
      exact hanswer
    refine ⟨server₂, ?_, hreads₂, sends₁ ++ sends₂, ?_, ?_⟩
    · unfold Process.Host.serve at hserve ⊢
      rw [List.map_cons, List.foldlM_cons, hevent]
      exact hserve
    · rw [hsent₂, hsent₁, List.append_assoc]
    · rw [List.flatMap_cons, hresult, ← hwritten₁, ← hwritten₂]
      simp [written]

theorem Endpoint.work_replies (h : Reads x.server 0 r d q) {e : Node.Event} {node : Node}
    {js : List Job} (hnode : x.node.step p e = .ok (node, js.map (Job.reply p)))
    (hjs : ∀ j ∈ js, j.sender = d ∧ j.Runs p) :
    ∃ server, Reads server 0 r d q ∧ x.work p e = .ok
      { x with server := server, node := node, back := x.back ++ js.flatMap (Job.result p) } := by
  rcases serve_replies h js hjs with ⟨server, hserve, hreads, sends, hsent, hwritten⟩
  refine ⟨server, hreads, ?_⟩
  simp only [Endpoint.work, hnode, bind, Except.bind, hserve]
  show Except.ok (Endpoint.respond { x with node := node } server) = _
  unfold Endpoint.respond
  rw [hsent, List.drop_left, hwritten]

end Answers

/-! ## A registered peer -/

/-- The requests of the peer: those that have not arrived, and those in the process. -/
structure Relays (p : Config) (d : Sender) (x : Endpoint) (sending : List Job) (f : Flow) :
    Prop where
  reads : ∃ r q, Reads x.server 0 r d q ∧ Owes x.wire q (sending.map Job.frame)
  flow : f.Holds p x.node
  ids : ((sending ++ f.jobs).map Job.key).Nodup
  runs : ∀ j ∈ sending ++ f.jobs, j.sender = d ∧ j.Runs p

namespace Relays

variable {p : Config} {d : Sender} {x : Endpoint} {sending : List Job} {f : Flow}

/-- The peer has registered, and there is nothing to do. -/
theorem of_idle {r : Process.Remote.Ref} (hreads : Reads x.server 0 r d Parser.idle)
    (hidle : Idle p x.node) (hwire : x.wire = []) : Relays p d x [] (Flow.idle p) := by
  refine ⟨⟨r, _, hreads, .idle [] [] ?_⟩, hidle, ?_, ?_⟩
  · rw [hwire]
    rfl
  · rw [idle_jobs]
    exact List.nodup_nil
  · rw [idle_jobs]
    simp

/-- The peer writes requests. -/
theorem write (h : Relays p d x sending f) {js : List Job}
    (hids : ((sending ++ f.jobs ++ js).map Job.key).Nodup)
    (hjs : ∀ j ∈ js, j.sender = d ∧ j.Runs p) :
    Relays p d { x with wire := x.wire ++ js.flatMap fun j => j.header ++ j.payload }
      (sending ++ js) f := by
  have hperm : (sending ++ f.jobs ++ js).Perm (sending ++ js ++ f.jobs) := by
    rw [List.append_assoc, List.append_assoc]
    exact List.perm_append_comm.append_left sending
  rcases h.reads with ⟨r, q, hreads, howes⟩
  refine ⟨⟨r, q, hreads, ?_⟩, h.flow, ((hperm.map Job.key).nodup_iff).1 hids, ?_⟩
  · have hstream : (js.flatMap fun j => j.header ++ j.payload) =
        Framing.stream (js.map Job.frame) := by
      rw [Framing.stream, List.flatMap_map]
      rfl
    rw [List.map_append, hstream]
    exact howes.append _
  · intro j hj
    rcases List.mem_append.1 (hperm.symm.mem_iff.1 hj) with hj | hj
    · exact h.runs j hj
    · exact hjs j hj

/-- **The network** hands on what it has; nothing is written. -/
theorem arrive (h : Relays p d x sending f) (n : ℕ) :
    ∃ x' js sending', x.arrive n = .ok x' ∧ sending = js ++ sending' ∧ x'.back = x.back ∧
      Relays p d x' sending' { f with inbox := f.inbox ++ js } := by
  by_cases hempty : x.wire.take n = []
  · refine ⟨x, [], sending, Endpoint.arrive_empty hempty, rfl, rfl, ?_⟩
    rw [List.append_nil]
    exact h
  rcases h.reads with ⟨r, q, hreads, howes⟩
  rw [← List.take_append_drop n x.wire] at howes
  have hall : ∀ g ∈ sending.map Job.frame,
      Process.Remote.WellFormed g.header g.payload ∧ Process.Remote.IsRequest g.header := by
    intro g hg
    rcases List.mem_map.1 hg with ⟨j, -, rfl⟩
    exact ⟨j.wellFormed, j.isRequest⟩
  rcases Process.Remote.receive_requests hreads howes hall with
    ⟨server, done, todo', hreceive, hreads', hsplit, -, howes', hsent, hcalls⟩
  rcases List.map_eq_append_iff.1 hsplit with ⟨js, sending', rfl, rfl, rfl⟩
  have hperm : (js ++ sending' ++ f.jobs).Perm
      (sending' ++ ({ f with inbox := f.inbox ++ js } : Flow).jobs) := by
    unfold Flow.jobs
    rw [List.append_assoc, List.append_assoc f.inbox]
    refine (List.perm_append_comm_assoc _ _ _).trans (List.Perm.append_left _ ?_)
    exact List.perm_append_comm_assoc _ _ _
  have hsent' : server.sent = x.server.sent ++ [] := by rw [hsent, List.append_nil]
  have hids : ((f.jobs ++ js).map Job.key).Nodup := by
    have hmore : (js ++ sending' ++ f.jobs).Perm (f.jobs ++ js ++ sending') := by
      rw [List.append_assoc f.jobs]
      exact List.perm_append_comm
    have hall := ((hmore.map Job.key).nodup_iff).1 h.ids
    rw [List.map_append] at hall
    exact hall.of_append_left
  refine ⟨_, js, sending', Endpoint.arrive_ok hempty hreceive hsent' hcalls, rfl, ?_,
    ⟨r, _, hreads', howes'⟩, ?_, ((hperm.map Job.key).nodup_iff).1 h.ids, ?_⟩
  · simp [written]
  · have henter := h.flow.enter hids
    have hmap : ((js.map Job.frame).map fun g => (0, d.call g.header g.payload)).map Prod.snd =
        js.map Job.call := by
      rw [List.map_map, List.map_map]
      refine List.map_congr_left fun j hj => ?_
      have hsender := (h.runs j (List.mem_append_left _ (List.mem_append_left _ hj))).1
      show d.call j.header j.payload = j.call
      unfold Job.call
      rw [hsender]
    rw [hmap]
    exact henter
  · exact fun j hj => h.runs j (hperm.mem_iff.2 hj)

/-- **The process** answers what it has done, and keeps the rest. -/
theorem work (h : Relays p d x sending f) (e : Node.Event) :
    ∃ x' done f', x.work p e = .ok x' ∧ f.jobs.Perm (done ++ f'.jobs) ∧
      x'.back = x.back ++ done.flatMap (Job.result p) ∧ Relays p d x' sending f' := by
  have hruns : ∀ j ∈ f.jobs, j.sender = d ∧ j.Runs p := fun j hj =>
    h.runs j (List.mem_append_right _ hj)
  rcases h.reads with ⟨r, q, hreads, howes⟩
  rcases Flow.flow_step h.flow (fun j hj => (hruns j hj).2) e with
    ⟨node, calls, hnode, ⟨-, rfl, hsame⟩ | ⟨f', hmoves, hholds⟩⟩
  · refine ⟨_, [], f, Endpoint.work_silent hnode, .refl _, (List.append_nil _).symm,
      ⟨r, q, hreads, howes⟩, hsame, h.ids, h.runs⟩
  · rcases hmoves.jobs with ⟨done, rfl, hperm⟩
    have hdone : ∀ j ∈ done, j.sender = d ∧ j.Runs p := fun j hj =>
      hruns j (hperm.mem_iff.2 (List.mem_append_left _ hj))
    rcases Endpoint.work_replies hreads hnode hdone with ⟨server, hreads', hwork⟩
    have hall : (sending ++ f.jobs).Perm (done ++ (sending ++ f'.jobs)) :=
      (hperm.append_left sending).trans (List.perm_append_comm_assoc _ _ _)
    refine ⟨_, done, f', hwork, hperm, rfl, ⟨r, q, hreads', howes⟩, hholds, ?_, ?_⟩
    · have hids := ((hall.map Job.key).nodup_iff).1 h.ids
      rw [List.map_append] at hids
      exact hids.of_append_right
    · exact fun j hj => h.runs j (hall.mem_iff.2 (List.mem_append_right _ hj))

end Relays

end Praas.Platform
