import Praas.Process.Workers
import Praas.Runtime.Invoker

/-! # The way of the arguments to a function

The payloads that are added to a pending invocation are sent to a worker as one message: the
header has their lengths, and the channel puts their bytes one behind the other. The worker
cuts its input at the same places.

* `run_accept`: what is collected for a key.
* `header_ok`: the header of a submitted invocation names it and has the lengths.
* `poll_updates`: a call of `poll` goes through the updates in front of the message.
* `bytes_slices`: the input, cut at the lengths, gives back the buffers.
* `arguments_intact`: these together.
-/

namespace Praas.Runtime.Arguments

open Process (WorkQueue Workers Buffer InvocationSource Trigger)
open Process.Ipc (Text NAME_LENGTH ID_LENGTH MsgSize Outgoing Stands AtBoundary)
open Process.IpcHeader (Message MessageType Field HEADER_OFFSET ROOM parseMessage parse_of_type)
open Process.IpcHeader.InvocationRequest (setFunctionName setInvocationId setBuffers)
open Process.IpcHeader.InvocationRequestParsed
open Invoker (declared slices)
open Header (Kind)

/-! ## Payloads of a key -/

/-- A call of `add_payload`. -/
structure Added where
  fname : Text NAME_LENGTH
  key : Text ID_LENGTH
  buffer : Buffer
  source : InvocationSource

def accept (q : WorkQueue) (a : Added) : Except Fault WorkQueue :=
  (q.addPayload a.fname.1 a.key.1 a.buffer a.source).map Prod.fst

/-- What is added under a key. -/
def buffersOf (key : Text ID_LENGTH) (adds : List Added) : List Buffer :=
  (adds.filter fun a => a.key = key).map Added.buffer

section Accepting

variable {q q' : WorkQueue} {key : Text ID_LENGTH} {i : Process.Invocation}

theorem accept_step (hi : q.activeInvocations key.1 = some i) (hwaits : i.active = false)
    (a : Added) :
    ∃ q', accept q a = .ok q' ∧
      q'.activeInvocations key.1 =
        some { i with payload := i.payload ++ buffersOf key [a] } := by
  rcases q.addPayload_outcome a.fname a.key a.buffer a.source with ⟨r, hr, houtcome⟩
  have haccept : accept q a = .ok r.1 := by
    unfold accept
    rw [hr]
    rfl
  refine ⟨r.1, haccept, ?_⟩
  by_cases hkey : a.key = key
  · subst hkey
    have hbuffer : buffersOf a.key [a] = [a.buffer] := by simp [buffersOf]
    rw [hbuffer]
    cases houtcome
    case merged j hfound _ =>
      obtain rfl := Option.some.inj (hi.symm.trans hfound)
      simp [WorkQueue.setInvocation, Process.Invocation.push]
    case created trigger hfree _ =>
      rw [hi] at hfree
      cases hfree
    case rejected message hrefused =>
      rcases hrefused with hnone | ⟨j, hj, hactive⟩
      · rw [hi] at hnone
        cases hnone
      · obtain rfl := Option.some.inj (hi.symm.trans hj)
        rw [hwaits] at hactive
        cases hactive
  · have hother : key.1 ≠ a.key.1 := fun h => hkey (Subtype.ext h.symm)
    have hbuffer : buffersOf key [a] = [] := by simp [buffersOf, hkey]
    rw [hbuffer, List.append_nil]
    cases houtcome with
    | merged j _ _ => simpa [WorkQueue.setInvocation, hother] using hi
    | created trigger _ _ => simpa [WorkQueue.enqueue, hother] using hi
    | rejected message _ => exact hi

/-- A pending invocation collects what is added under its key, in order. -/
theorem run_accept (hi : q.activeInvocations key.1 = some i) (hwaits : i.active = false)
    (adds : List Added) :
    ∃ q', Lts.run accept q adds = .ok q' ∧
      q'.activeInvocations key.1 =
        some { i with payload := i.payload ++ buffersOf key adds } := by
  induction adds generalizing q i with
  | nil => exact ⟨q, rfl, by simpa [buffersOf] using hi⟩
  | cons a adds ih =>
    rcases accept_step hi hwaits a with ⟨m, hm, hcollected⟩
    rcases ih hcollected hwaits with ⟨q', hq', hall⟩
    refine ⟨q', Lts.run_cons_ok.2 ⟨m, hm, hq'⟩, ?_⟩
    have hsplit : buffersOf key (a :: adds) = buffersOf key [a] ++ buffersOf key adds := by
      unfold buffersOf
      rw [← List.map_append, ← List.filter_append, List.singleton_append]
    rw [hall, hsplit, ← List.append_assoc]

/-- The first payload of a key creates the invocation. -/
theorem accept_new {fname : Text NAME_LENGTH} {trigger : Trigger} {buffer : Buffer}
    {source : InvocationSource} (hfree : q.activeInvocations key.1 = none)
    (hknown : q.functions fname.1 = some trigger)
    (haccept : accept q ⟨fname, key, buffer, source⟩ = .ok q') :
    q'.activeInvocations key.1 =
      some { req := { invocationId := key, functionName := fname }, payload := [buffer],
             trigger := trigger, active := false, source := source } := by
  have hadd : accept q ⟨fname, key, buffer, source⟩ = .ok (q.enqueue key.1
      { req := { invocationId := key, functionName := fname }, payload := [buffer],
        trigger := trigger, active := false, source := source }) := by
    unfold accept WorkQueue.addPayload
    rw [hfree]
    dsimp only
    unfold WorkQueue.create
    rw [hknown]
    simp only [Process.Invocation.new_ok, hfree]
    rfl
  obtain rfl := Except.ok.inj (hadd.symm.trans haccept)
  simp [WorkQueue.enqueue]

end Accepting

/-! ## The header -/

/-- The header of an invocation: the constructor sets the names, `confirm_payload` the table. -/
def header (i : Process.Invocation) : Except Fault Message := do
  let m ← setFunctionName (Message.new .invocationRequest) (.ofStr i.req.functionName.1)
  let m ← setInvocationId m (.ofStr i.req.invocationId.1)
  setBuffers m i.req.buffers

/-- A header behind its total length, which the channel sets. -/
structure Names (data : List Byte) (key : Text ID_LENGTH) (fname : Text NAME_LENGTH)
    (lens : List ℕ) : Prop where
  type : data.take 2 = leBytes 2 MessageType.invocationRequest.code
  key : invocationId (data.drop HEADER_OFFSET) = key.1
  fname : functionName (data.drop HEADER_OFFSET) = fname.1
  count : buffers (data.drop HEADER_OFFSET) = lens.length
  lens : ∀ j (h : j < lens.length),
    buffersLengths (data.drop HEADER_OFFSET) j = .ok (lens[j] : Int)

section Header

variable {i : Process.Invocation} {lens : List ℕ}

/-- The calls of the setters in the constructor. -/
def nameCalls (key : Text ID_LENGTH) (fname : Text NAME_LENGTH) :
    List (Process.IpcHeader.format .invocationRequest).Call :=
  [⟨.functionName, StringView.ofStr fname.1⟩, ⟨.requestId, StringView.ofStr key.1⟩]

/-- The header before its table is written. -/
theorem named (key : Text ID_LENGTH) (fname : Text NAME_LENGTH) :
    ∃ m₁ m₂, setFunctionName (Message.new .invocationRequest) (.ofStr fname.1) = .ok m₁ ∧
      setInvocationId m₁ (.ofStr key.1) = .ok m₂ ∧
      m₂.data.take 2 = leBytes 2 MessageType.invocationRequest.code ∧
      Field.get .requestId m₂ = key.1 ∧ Field.get .functionName m₂ = fname.1 := by
  have hfname : (Kind.text NAME_LENGTH 0).Accepts (.ofStr fname.1) :=
    Kind.accepts_ofStr fname.2.1 fname.2.2
  have hkey : (Kind.text ID_LENGTH 0).Accepts (.ofStr key.1) :=
    Kind.accepts_ofStr key.2.1 key.2.2
  have haccepted : ∀ c ∈ nameCalls key fname, c.Accepted := by
    intro c hc
    simp only [nameCalls, List.mem_cons, List.not_mem_nil, or_false] at hc
    rcases hc with rfl | rfl
    · exact hfname
    · exact hkey
  rcases (Process.IpcHeader.object_stores .invocationRequest).run_keeps Field.two_le_off
    (Process.IpcHeader.keeps_new .invocationRequest) haccepted with ⟨o, hrun, hkeeps, htype⟩
  rcases Lts.run_cons_ok.1 hrun with ⟨o₁, hstep₁, hrun⟩
  rcases Lts.run_cons_ok.1 hrun with ⟨o₂, hstep₂, hrun⟩
  obtain rfl := Except.ok.inj hrun
  rcases Lts.bind_ok hstep₁ with ⟨m₁, hset₁, ho₁⟩
  obtain rfl := Except.ok.inj ho₁
  rcases Lts.bind_ok hstep₂ with ⟨m₂, hset₂, ho₂⟩
  obtain rfl := Except.ok.inj ho₂
  refine ⟨m₁, m₂, hset₁, hset₂, htype, ?_, ?_⟩
  · rw [Field.get_eq]
    refine (hkeeps.decode_load .requestId).trans ?_
    exact Kind.chars_ofStr key.1
  · rw [Field.get_eq]
    refine (hkeeps.decode_load .functionName).trans ?_
    exact Kind.chars_ofStr fname.1

/-- After `submit`, the header names the invocation and has the lengths of its buffers. -/
theorem header_ok (hreq : i.req.buffers = lens.map toInt32) (hroom : lens.length ≤ ROOM)
    (hsmall : ∀ n ∈ lens, n < 2 ^ 31) :
    ∃ m, header i = .ok m ∧ Names m.data i.req.invocationId i.req.functionName lens := by
  rcases named i.req.invocationId i.req.functionName with
    ⟨m₁, m₂, hfname, hkey, htype, hid, hname⟩
  have hwritten : i.req.buffers = lens.map Int.ofNat := by
    rw [hreq]
    exact List.map_congr_left fun n hn => toInt32_of_lt (hsmall n hn)
  have hlength : i.req.buffers.length = lens.length := by
    rw [hwritten, List.length_map]
  have hrange : ∀ x ∈ i.req.buffers, -2 ^ 31 ≤ x ∧ x < 2 ^ 31 := by
    intro x hx
    rw [hwritten] at hx
    rcases List.mem_map.1 hx with ⟨n, hn, rfl⟩
    have hlt := hsmall n hn
    constructor
    · exact le_trans (by norm_num) (Int.natCast_nonneg n)
    · show (n : Int) < 2 ^ 31
      omega
  rcases Process.IpcHeader.setBuffers_ok m₂ (hlength.trans_le hroom) with ⟨m, hset, hdata⟩
  have htable := Process.IpcHeader.table_of_data hdata (hlength.trans_le hroom) hrange
  refine ⟨m, ?_, htable.type.trans htype, ?_, ?_, ?_, ?_⟩
  · unfold header
    rw [hfname]
    show (setInvocationId m₁ _ >>= _) = _
    rw [hkey]
    exact hset
  · exact (htable.fields .requestId).trans hid
  · exact (htable.fields .functionName).trans hname
  · rw [htable.count, hlength]
  · intro j hj
    rw [htable.lengths j (hlength.symm ▸ hj)]
    simp [hwritten]

/-- The channel writes the total length before the fields. -/
theorem Names.sent {m : Message} {key : Text ID_LENGTH} {fname : Text NAME_LENGTH}
    (h : Names m.data key fname lens) (total : Int) :
    Names (m.sent.setTotalLength total).data key fname lens := by
  have hfront : (m.data.take 2).length = 2 := by
    rw [List.length_take, m.length_data]
    rfl
  have hlength : (m.data.take 2 ++ int32Bytes total).length = HEADER_OFFSET := by
    rw [List.length_append, hfront, length_int32Bytes]
    rfl
  have hdata : (m.sent.setTotalLength total).data =
      m.data.take 2 ++ int32Bytes total ++ m.data.drop HEADER_OFFSET := rfl
  have hdrop : (m.sent.setTotalLength total).data.drop HEADER_OFFSET =
      m.data.drop HEADER_OFFSET := by
    rw [hdata, List.drop_left' hlength]
  refine ⟨?_, ?_, ?_, ?_, ?_⟩
  · rw [hdata, List.append_assoc, List.take_left' hfront]
    exact h.type
  · rw [hdrop]
    exact h.key
  · rw [hdrop]
    exact h.fname
  · rw [hdrop]
    exact h.count
  · rw [hdrop]
    exact h.lens

/-- A worker reads the lengths that were set. -/
theorem Names.readLengths {data : List Byte} {key : Text ID_LENGTH} {fname : Text NAME_LENGTH}
    (h : Names data key fname lens) (hsmall : ∀ n ∈ lens, n < 2 ^ 31) {n : ℕ}
    (hn : n ≤ lens.length) :
    Invoker.readLengths (data.drop HEADER_OFFSET) n = .ok (lens.take n) := by
  induction n with
  | zero => rfl
  | succ n ih =>
    unfold Invoker.readLengths
    rw [ih (Nat.le_of_succ_le hn), h.lens n hn, List.take_succ_eq_append_getElem hn]
    have hlt := hsmall lens[n] (List.getElem_mem hn)
    have hsize : sizeT (lens[n] : Int) = lens[n] := by
      unfold sizeT
      omega
    show Except.ok (lens.take n ++ [sizeT (lens[n] : Int)]) = _
    rw [hsize]

end Header

/-! ## The input -/

/-- The bytes of an argument. -/
def bytes (input : List Byte) (a : Slice) : List Byte := (input.drop a.off).take a.len

/-- Slices of the lengths of the buffers that were put together. -/
theorem bytes_slices (front : List Byte) (payload : List Buffer)
    (h : front.length + payload.flatten.length < 2 ^ 64) :
    (slices front.length (payload.map List.length)).map (bytes (front ++ payload.flatten)) =
        payload ∧
      (slices front.length (payload.map List.length)).map Slice.len = payload.map List.length := by
  induction payload generalizing front with
  | nil => exact ⟨rfl, rfl⟩
  | cons buf payload ih =>
    rw [List.flatten_cons, List.length_append] at h
    have hnext : (front.length + buf.length) % 2 ^ 64 = (front ++ buf).length := by
      rw [List.length_append]
      exact Nat.mod_eq_of_lt (by omega)
    have hfirst : bytes (front ++ (buf ++ payload.flatten)) ⟨front.length, buf.length⟩ = buf := by
      unfold bytes
      rw [List.drop_left, List.take_left]
    have hrest := ih (front ++ buf) (by rw [List.length_append]; omega)
    rw [List.append_assoc] at hrest
    rw [List.map_cons, List.flatten_cons]
    unfold slices
    rw [hnext, List.map_cons, List.map_cons, hfirst, hrest.1, hrest.2]
    exact ⟨rfl, rfl⟩

/-! ## Waiting for the message -/

/-- The header is of another message than an invocation request. -/
def PassedOver (m : Process.Ipc.Message) : Prop :=
  ∃ msg, parseMessage m.data = .ok msg ∧ ∀ buf, msg ≠ .invocationRequest buf

section Waiting

variable {size : MsgSize} {v : Invoker} {o : Outgoing}

/-- The loop goes on after such a message. -/
theorem poll_passedOver {w : Invoker} (hreceive : Invoker.Receives size v w)
    (hpassed : PassedOver w.reader.msg) (rounds : ℕ) :
    ∃ application, v.poll size (rounds + 1) =
      Invoker.poll size rounds { w with application := application } := by
  rcases hpassed with ⟨msg, hparse, hother⟩
  rw [Invoker.poll_received rounds hreceive]
  unfold Invoker.handle
  rw [hparse]
  cases msg with
  | invocationRequest buf => exact absurd rfl (hother buf)
  | applicationUpdate buf => exact ⟨_, rfl⟩
  | getRequest buf => exact ⟨w.application, rfl⟩
  | putRequest buf => exact ⟨w.application, rfl⟩
  | invocationResult buf => exact ⟨w.application, rfl⟩
  | stateKeysRequest buf => exact ⟨w.application, rfl⟩
  | stateKeysResult buf => exact ⟨w.application, rfl⟩

/-- A call goes through the messages in front of a request. -/
theorem poll_front {front todo : List Outgoing}
    (h : Stands size v.reader v.queue (front ++ o :: todo)) (hread : v.reader.msgRead = false)
    (hfront : ∀ u ∈ front, PassedOver u.header) (rounds : ℕ) :
    ∃ u w, v.poll size (front.length + rounds) = u.poll size rounds ∧ Invoker.Receives size u w ∧
      w.reader.msg = o.header ∧ w.input.data = o.payload := by
  induction front generalizing v with
  | nil =>
    rcases Invoker.receive_stands h hread with ⟨w, hreceive, hmsg, hdata, -⟩
    refine ⟨v, w, ?_, hreceive, hmsg, hdata⟩
    rw [List.length_nil, Nat.zero_add]
  | cons f front ih =>
    rcases Invoker.receive_stands h hread with ⟨w, hreceive, hmsg, -, -, hstands, hbetween⟩
    have hpassed : PassedOver w.reader.msg := by
      rw [hmsg]
      exact hfront f List.mem_cons_self
    rcases poll_passedOver hreceive hpassed (front.length + rounds) with ⟨application, hround⟩
    rcases ih (v := { w with application := application }) hstands hbetween
      (fun u hu => hfront u (List.mem_cons_of_mem _ hu)) with ⟨u, w', hpoll, hrest⟩
    refine ⟨u, w', ?_, hrest⟩
    rw [List.length_cons, Nat.add_right_comm, hround, hpoll]

/-- The request is read as the invocation. -/
theorem handle_names {m : Process.Ipc.Message} {key : Text ID_LENGTH} {fname : Text NAME_LENGTH}
    {payload : List Buffer} (hnames : Names m.data key fname (payload.map List.length))
    (htotal : payload.flatten.length < 2 ^ 31) (application : Common.Application) :
    Invoker.handle application m.data payload.flatten =
      .ok (.invocation ⟨key.1, fname.1, slices 0 (payload.map List.length)⟩) := by
  have hparse : parseMessage m.data = .ok (.invocationRequest (m.data.drop HEADER_OFFSET)) :=
    parse_of_type (t := .invocationRequest) (m := ⟨m.data, m.length_data⟩) rfl hnames.type
  have hsum : (payload.map List.length).sum = payload.flatten.length := List.length_flatten.symm
  have hsmall : ∀ n ∈ payload.map List.length, n < 2 ^ 31 := by
    intro n hn
    have hle : n ≤ (payload.map List.length).sum := List.le_sum_of_mem hn
    omega
  have hcount : (buffers (m.data.drop HEADER_OFFSET)).toNat = (payload.map List.length).length := by
    rw [hnames.count]
    exact Int.toNat_natCast _
  have hlens := hnames.readLengths hsmall (le_refl _)
  rw [List.take_length] at hlens
  have hfits : ¬ payload.flatten.length < Invoker.totalLen (payload.map List.length) := by
    rw [Invoker.totalLen_eq, hsum, Nat.mod_eq_of_lt (by omega)]
    exact lt_irrefl _
  unfold Invoker.handle
  rw [hparse]
  show Invoker.invocationRequest _ _ = _
  unfold Invoker.invocationRequest
  rw [hcount, hlens]
  show (if _ then _ else _) = _
  rw [if_neg hfits, hnames.key, hnames.fname]
  rfl

end Waiting

/-! ## The whole way -/

/-- A run of the channel ends between two messages, and what the worker has yet to receive is
some messages that `poll` passes over, then the given one. -/
def Awaits (size : MsgSize) (s : Process.Ipc.State)
    (front : List (Process.Ipc.Message × List Byte)) (o : Outgoing) : Prop :=
  ∃ es later, Lts.Meets (Process.Ipc.step size) AtBoundary {} es ∧
    Lts.run (Process.Ipc.step size) {} es = .ok s ∧ s.reader.msgRead = false ∧
      Process.Ipc.sent size es = s.received ++ front ++ o.message :: later ∧
        ∀ f ∈ front, PassedOver f.1

theorem Awaits.stands {size : MsgSize} {s : Process.Ipc.State}
    {front : List (Process.Ipc.Message × List Byte)} {o : Outgoing} (h : Awaits size s front o) :
    ∃ todo o' rest, Stands size s.reader s.queue (todo ++ o' :: rest) ∧
      s.reader.msgRead = false ∧ todo.map Outgoing.message = front ∧ o'.message = o.message := by
  rcases h with ⟨es, later, hat, hrun, hread, hsent, -⟩
  rcases Process.Ipc.run_stands (Process.Ipc.stands_open size) hat with
    ⟨s', todo, hrun', hstands, hmessages⟩
  obtain rfl := Except.ok.inj (hrun.symm.trans hrun')
  have hleft : todo.map Outgoing.message = front ++ o.message :: later := by
    have hall : s.received ++ todo.map Outgoing.message =
        s.received ++ (front ++ o.message :: later) := by
      rw [hmessages, ← List.append_assoc, ← hsent]
      rfl
    exact List.append_cancel_left hall
  rcases List.map_eq_append_iff.1 hleft with ⟨before, after, rfl, hbefore, hafter⟩
  rcases List.map_eq_cons_iff.1 hafter with ⟨o', rest, rfl, ho', -⟩
  exact ⟨before, o', rest, hstands, hread, hbefore, ho'⟩

/-- The payloads added under a key reach the function as they are: whatever the worker has
received before, `poll` returns the name and the key, and arguments with the bytes and the
lengths of the payloads, in order. -/
theorem arguments_intact {size : MsgSize} {key : Text ID_LENGTH} {fname : Text NAME_LENGTH}
    {q q' : WorkQueue} {trigger : Trigger} {buffer : Buffer} {source : InvocationSource}
    {adds : List Added} {ws ws' : Workers} {i i' : Process.Invocation} {w : ℕ}
    (hfree : q.activeInvocations key.1 = none) (hknown : q.functions fname.1 = some trigger)
    (hadded : Lts.run accept q (⟨fname, key, buffer, source⟩ :: adds) = .ok q')
    (hi : q'.activeInvocations key.1 = some i) (hsubmit : ws.submit i = .ok (ws', i', w))
    (htotal : (buffer :: buffersOf key adds).flatten.length < 2 ^ 31) :
    i'.payload = buffer :: buffersOf key adds ∧
      ∃ m, header i' = .ok m ∧ ∀ (s : Process.Ipc.State) front (o : Outgoing)
        (application : Common.Application) (rounds : ℕ),
        o.msg = m.sent → o.body = .buffers i'.payload → Awaits size s front o →
        ∃ v args, Invoker.poll size (front.length + (rounds + 1))
            ⟨s.reader, s.queue, s.input, application⟩ =
              .ok (.invocation v ⟨key.1, fname.1, args⟩) ∧
          args.map (bytes v.input.data) = buffer :: buffersOf key adds ∧
          args.map Slice.len = (buffer :: buffersOf key adds).map List.length := by
  rcases Lts.run_cons_ok.1 hadded with ⟨q₁, hfirst, hrest⟩
  rcases run_accept (accept_new hfree hknown hfirst) rfl adds with ⟨q₂, hrun, hcollected⟩
  obtain rfl := Except.ok.inj (hrest.symm.trans hrun)
  obtain rfl := Option.some.inj (hi.symm.trans hcollected)
  rcases Workers.submit_fits hsubmit with ⟨hroom, hi'⟩
  have hpayload : i'.payload = buffer :: buffersOf key adds := by rw [hi']; rfl
  have hreq : i'.req.buffers = ((buffer :: buffersOf key adds).map List.length).map toInt32 := by
    rw [hi']
    rfl
  have hkey : i'.req.invocationId = key := by rw [hi']
  have hname : i'.req.functionName = fname := by rw [hi']
  have hlen : ((buffer :: buffersOf key adds).map List.length).length ≤ ROOM := by
    rw [List.length_map]
    exact hroom
  have hsmall : ∀ n ∈ (buffer :: buffersOf key adds).map List.length, n < 2 ^ 31 := by
    intro n hn
    have hle := List.le_sum_of_mem hn
    rw [← List.length_flatten] at hle
    omega
  rcases header_ok hreq hlen hsmall with ⟨m, hm, hnames⟩
  rw [hkey, hname] at hnames
  refine ⟨hpayload, m, hm, ?_⟩
  intro s front o application rounds hmsg hbody hawaits
  rcases hawaits.stands with ⟨todo, o', rest, hstands, hread, hfront, hmessage⟩
  have hpassed : ∀ u ∈ todo, PassedOver u.header := by
    intro u hu
    rcases hawaits with ⟨-, -, -, -, -, -, hall⟩
    exact hall u.message (hfront ▸ List.mem_map_of_mem hu)
  rcases poll_front (v := ⟨s.reader, s.queue, s.input, application⟩) hstands hread hpassed
    (rounds + 1) with ⟨u, v, hpoll, hreceive, hheader, hdata⟩
  -- the message is the one that was sent
  have hsame : o'.header = o.header ∧ o'.payload = o.payload := Prod.mk.inj hmessage
  have hsent : v.reader.msg = m.sent.setTotalLength (toInt32 o.body.payload.length) := by
    rw [hheader, hsame.1, Outgoing.header, hmsg]
  have hinput : v.input.data = (buffer :: buffersOf key adds).flatten := by
    rw [hdata, hsame.2, Outgoing.payload, hbody, hpayload]
    rfl
  have hnamed : Names v.reader.msg.data key fname
      ((buffer :: buffersOf key adds).map List.length) := by
    rw [hsent]
    exact hnames.sent _
  have hbytes := bytes_slices [] (buffer :: buffersOf key adds)
    (by rw [List.length_nil]; omega)
  refine ⟨v, slices 0 ((buffer :: buffersOf key adds).map List.length), ?_, ?_, hbytes.2⟩
  · have hlength : todo.length = front.length := by rw [← hfront, List.length_map]
    rw [← hlength, hpoll, Invoker.poll_received rounds hreceive, hinput,
      handle_names hnamed htotal]
  · rw [hinput]
    exact hbytes.1

/-! ### Three payloads, one of them empty -/

theorem sampleKey_text : (str ['k']).length ≤ ID_LENGTH ∧ (0 : Byte) ∉ str ['k'] := by decide

theorem sampleName_text : (str ['f']).length ≤ NAME_LENGTH ∧ (0 : Byte) ∉ str ['f'] := by decide

def sampleKey : Text ID_LENGTH := ⟨str ['k'], sampleKey_text⟩

def sampleName : Text NAME_LENGTH := ⟨str ['f'], sampleName_text⟩

def sampleAdded (key : Text ID_LENGTH) (buffer : Buffer) : Added :=
  ⟨sampleName, key, buffer, InvocationSource.fromLocal⟩

def sampleInvocation : Process.Invocation where
  req := { invocationId := sampleKey, functionName := sampleName }
  payload := [[1, 2], [], [3]]
  trigger := .direct
  active := false
  source := InvocationSource.fromLocal

/-- An update is received before the invocation; another invocation collects a payload. -/
theorem three_payloads :
    ∃ (s : Process.Ipc.State) (v : Invoker) (args : List Slice),
      Invoker.poll ⟨128, le_rfl⟩ 2 ⟨s.reader, s.queue, s.input, {}⟩ =
        .ok (.invocation v ⟨str ['k'], str ['f'], args⟩) ∧
      args.map (bytes v.input.data) = [[1, 2], [], [3]] ∧ args.map Slice.len = [2, 0, 1] := by
  have hrun : ∃ q', Lts.run accept (WorkQueue.new fun _ => some .direct)
      [sampleAdded sampleKey [1, 2], sampleAdded sampleKey [],
        sampleAdded ⟨str ['l'], by decide⟩ [9], sampleAdded sampleKey [3]] = .ok q' ∧
      q'.activeInvocations sampleKey.1 = some sampleInvocation := ⟨_, rfl, by decide⟩
  rcases hrun with ⟨q', hadded, hi⟩
  rcases @arguments_intact ⟨128, le_rfl⟩ _ _ _ _ _ _ _ _ (Workers.new 1) _ _ _ _ rfl rfl hadded hi
    rfl (by decide) with ⟨hpayload, m, hm, h⟩
  let update : Outgoing := ⟨Process.Ipc.Message.new 5, .none, by decide⟩
  let o : Outgoing := ⟨m.sent, .buffers [[1, 2], [], [3]], by decide⟩
  have hawaits : Awaits ⟨128, le_rfl⟩
      { queue := Process.Ipc.wire ⟨128, le_rfl⟩ [update, o] } [update.message] o := by
    refine ⟨[.send update, .send o], [], ?_, ?_, rfl, ?_, ?_⟩
    · exact Lts.meets_of_forall (by simp [AtBoundary]) _
    · simp [Lts.run, Process.Ipc.step, Outgoing.send_eq, Process.Ipc.wire]
    · simp [Process.Ipc.sent, Process.Ipc.Event.sent, Outgoing.send_eq, Outgoing.message,
        Outgoing.payload]
    · intro f hf
      obtain rfl := List.mem_singleton.1 hf
      refine ⟨.applicationUpdate _, rfl, fun buf h => ?_⟩
      cases h
  rcases h _ _ o {} 0 rfl rfl hawaits with ⟨v, args, hpoll, hbytes, hlens⟩
  exact ⟨_, v, args, hpoll, hbytes, hlens⟩

end Praas.Runtime.Arguments
