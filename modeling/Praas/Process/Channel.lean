import Praas.Lib.Lts
import Praas.Common.Bytes

/-! # The channel between the controller and a worker

`POSIXMQChannel`: a message is a header and a payload of buffers, sent as datagrams of at
most `_msg_size` bytes on a queue that loses none and keeps their order. The reader puts
the payload together by counting bytes, and goes on where it stopped when the queue was
empty.

* `Stands`: where the reader stands in the datagrams of the messages that it has not
  received yet; between two messages the queue starts with a header.
* `receive_stands`, `blockingReceive_stands`: one call keeps this, and returns a message
  only as it was sent.
* `messages_received`: the messages sent come out in order, each with its payload.
-/

namespace Praas.Process.Ipc

def Message.BUF_SIZE : ℕ := 128

/-- `Message`: the bytes of a header. -/
structure Message where
  data : List Byte
  length_data : data.length = Message.BUF_SIZE

namespace Message

/-- `Message(Type)`: zeroes, but for the type in the first two bytes. -/
def new (type : ℕ) : Message :=
  ⟨leBytes 2 type ++ List.replicate (BUF_SIZE - 2) 0, by simp [BUF_SIZE]⟩

def totalLength (m : Message) : Int := readInt32 m.data 2

def setTotalLength (m : Message) (len : Int) : Message :=
  ⟨splice m.data 2 (int32Bytes len), by
    rw [length_splice (by rw [m.length_data]; simp [BUF_SIZE]), m.length_data]⟩

theorem totalLength_setTotalLength (m : Message) {n : ℕ} (h : n < 2 ^ 31) :
    (m.setTotalLength (toInt32 n)).totalLength = n := by
  unfold totalLength setTotalLength
  rw [toInt32_of_lt h]
  exact readInt32_splice (by rw [m.length_data]; decide) (by omega) (by omega)

end Message

/-- `_msg_size`: a header fits into one datagram. -/
abbrev MsgSize := { size : ℕ // Message.BUF_SIZE ≤ size }

abbrev Datagram := List Byte

variable (size : MsgSize)

/-! ## Sending -/

/-- The loop of `_send`. -/
def sendLoop (data : List Byte) : List Datagram :=
  if data = [] then [] else data.take size.1 :: sendLoop (data.drop size.1)
termination_by data.length
decreasing_by
  rename_i h
  have hpos : 0 < size.1 := lt_of_lt_of_le (by decide) size.2
  have hlen : 0 < data.length := List.length_pos_iff.2 h
  rw [List.length_drop]
  omega

/-- `_send`, whose length is an `int`. -/
def sendData (data : List Byte) : List Datagram :=
  sendLoop size (data.take (toInt32 data.length).toNat)

/-- What goes with a header: nothing, one buffer of either kind, or a list of them. -/
inductive Body where
  | none
  | accessor (buf : List Byte)
  | buffers (data : List (List Byte))

def Body.payload : Body → List Byte
  | .none => []
  | .accessor buf => buf
  | .buffers data => data.flatten

/-- `send`: the message with its length, and the datagrams. -/
def send (msg : Message) : Body → Message × List Datagram
  | .none =>
    let msg := msg.setTotalLength 0
    (msg, sendData size msg.data)
  | .accessor buf =>
    let msg := msg.setTotalLength (toInt32 buf.length)
    (msg, sendData size msg.data ++ if 0 < buf.length then sendData size buf else [])
  | .buffers data =>
    let msg := msg.setTotalLength (toInt32 (data.map List.length).sum)
    (msg, sendData size msg.data ++
      data.flatMap fun buf => if 0 < buf.length then sendData size buf else [])

/-! ## Receiving -/

/-- A `Buffer` that is not null: the memory it owns and the bytes that are in it. -/
structure Buffer where
  size : ℕ
  data : List Byte

/-- `BufferQueue::retrieve_buffer`: the size that is asked for is compared with the number
of buffers that are left. -/
def retrieveBuffer (buffers : List Buffer) (n : ℕ) : Buffer × List Buffer :=
  match buffers with
  | [] => (⟨n, []⟩, [])
  | buf :: rest => (if rest.length < n then ⟨n, []⟩ else buf, rest)

/-- `POSIXMQChannel`, the reading end. -/
structure POSIXMQChannel where
  buffers : List Buffer
  msg : Message
  msgRead : Bool := false
  msgPayload : Option Buffer := none

def BUFFER_ELEMS : ℕ := 5
def BUFFER_SIZE : ℕ := 1024 * 1024

def POSIXMQChannel.open : POSIXMQChannel where
  buffers := List.replicate BUFFER_ELEMS ⟨BUFFER_SIZE, []⟩
  msg := Message.new 0

/-- `_recv` of `len` bytes into memory of `room` bytes: `ready` datagrams can be received
before `mq_receive` fails with `EAGAIN`, as it does on an empty queue. -/
def recv (room len : ℕ) : ℕ → List Byte → List Datagram →
    Except Fault (List Byte × ℕ × List Datagram)
  | ready, data, [] => .ok (data, ready, [])
  | 0, data, queue => .ok (data, 0, queue)
  | ready + 1, data, d :: queue =>
    if len ≤ data.length then .ok (data, ready + 1, d :: queue)
    else if room < data.length + d.length then .error .outOfBounds
    else recv room len ready (data ++ d) queue

namespace POSIXMQChannel

/-- The buffer of a payload, kept from an earlier call or retrieved, and the buffers that
are left. -/
def payloadBuffer (c : POSIXMQChannel) : Buffer × List Buffer :=
  match c.msgPayload with
  | some buf => (buf, c.buffers)
  | none => retrieveBuffer c.buffers (max (sizeT c.msg.totalLength) size.1)

/-- The first half of `receive`; `none` if the queue is empty. -/
def readHeader (c : POSIXMQChannel) (queue : List Datagram) (ready : ℕ) :
    Except Fault (Option (POSIXMQChannel × ℕ) × List Datagram) :=
  if c.msgRead then .ok (some (c, ready), queue)
  else
    match recv size.1 Message.BUF_SIZE ready [] queue with
    | .error f => .error f
    | .ok (data, ready, queue) =>
      if data.length = 0 then .ok (none, queue)
      else if h : data.length < Message.BUF_SIZE then .error .notImplemented
      else
        .ok (some ({ c with
          msg := ⟨data.take Message.BUF_SIZE, by
            rw [List.length_take]
            omega⟩
          msgRead := true }, ready), queue)

/-- The second half of `receive`; `none` while the payload is incomplete. -/
def readPayload (c : POSIXMQChannel) (queue : List Datagram) (ready : ℕ) :
    Except Fault (POSIXMQChannel × List Datagram × Option (List Byte)) :=
  if 0 < c.msg.totalLength then
    let buf := (c.payloadBuffer size).1
    let toRead := sizeT (c.msg.totalLength - buf.data.length)
    match recv (buf.size - buf.data.length) toRead ready [] queue with
    | .error f => .error f
    | .ok (data, _, queue) =>
      if data.length = toRead then
        .ok ({ c with buffers := (c.payloadBuffer size).2, msgRead := false, msgPayload := none },
          queue, some (buf.data ++ data))
      else
        .ok ({ c with
          buffers := (c.payloadBuffer size).2
          msgPayload := some { buf with data := buf.data ++ data } }, queue, none)
  else .ok ({ c with msgRead := false }, queue, some [])

def receive (c : POSIXMQChannel) (queue : List Datagram) (ready : ℕ) :
    Except Fault (POSIXMQChannel × List Datagram × Option (List Byte)) :=
  match c.readHeader size queue ready with
  | .error f => .error f
  | .ok (none, queue) => .ok (c, queue, none)
  | .ok (some (c, ready), queue) => c.readPayload size queue ready

/-- `blocking_receive` into `buf`; `none` as long as it waits for the queue. -/
def blockingReceive (c : POSIXMQChannel) (queue : List Datagram) (buf : Buffer) :
    Except Fault (Option (POSIXMQChannel × List Datagram × Buffer × Bool)) :=
  match recv size.1 Message.BUF_SIZE queue.length [] queue with
  | .error f => .error f
  | .ok (data, _, queue) =>
    if h : data.length < Message.BUF_SIZE then .ok none
    else
      let c := { c with msg := ⟨data.take Message.BUF_SIZE, by
        rw [List.length_take]
        omega⟩ }
      let toRead := sizeT c.msg.totalLength
      let buf := if buf.size < toRead then ⟨toRead, []⟩ else buf
      match recv buf.size toRead queue.length [] queue with
      | .error f => .error f
      | .ok (data, _, queue) =>
        if data.length < toRead then .ok none
        else .ok (some (c, queue, { buf with data := data }, decide (toRead ≤ data.length)))

end POSIXMQChannel

/-! ## The datagrams of a message -/

@[simp] theorem sendLoop_nil : sendLoop size [] = [] := by
  rw [sendLoop, if_pos rfl]

theorem sendLoop_cons {data : List Byte} (h : data ≠ []) :
    sendLoop size data = data.take size.1 :: sendLoop size (data.drop size.1) := by
  rw [sendLoop, if_neg h]

/-- A header, or any other data that fits, is one datagram. -/
theorem sendLoop_of_le {data : List Byte} (h : data ≠ []) (hlen : data.length ≤ size.1) :
    sendLoop size data = [data] := by
  rw [sendLoop_cons size h, List.take_of_length_le hlen, List.drop_of_length_le hlen, sendLoop_nil]

theorem flatten_sendLoop (data : List Byte) : (sendLoop size data).flatten = data := by
  fun_induction sendLoop size data with
  | case1 => rfl
  | case2 data hne ih => rw [List.flatten_cons, ih, List.take_append_drop]

theorem ne_nil_of_mem_sendLoop {data d : List Byte} (h : d ∈ sendLoop size data) : d ≠ [] := by
  fun_induction sendLoop size data with
  | case1 => cases h
  | case2 data hne ih =>
    rcases List.mem_cons.1 h with rfl | hrest
    · have hpos : size.1 ≠ 0 := Nat.ne_of_gt (lt_of_lt_of_le (by decide) size.2)
      intro hnil
      rcases List.take_eq_nil_iff.1 hnil with hzero | hempty
      · exact hpos hzero
      · exact hne hempty
    · exact ih hrest

theorem sendData_of_lt {data : List Byte} (h : data.length < 2 ^ 31) :
    sendData size data = sendLoop size data := by
  unfold sendData
  rw [toInt32_of_lt h, Int.toNat_natCast, List.take_length]

theorem sendData_header (m : Message) : sendData size m.data = [m.data] := by
  have hlen : m.data.length < 2 ^ 31 := by
    rw [m.length_data]
    decide
  have hne : m.data ≠ [] := by
    apply List.ne_nil_of_length_pos
    rw [m.length_data]
    decide
  rw [sendData_of_lt size hlen, sendLoop_of_le size hne (by rw [m.length_data]; exact size.2)]

/-- A call of `send`, whose length fits the header. -/
structure Outgoing where
  msg : Message
  body : Body
  fits : body.payload.length < 2 ^ 31

namespace Outgoing

/-- The message as the call leaves it. -/
def header (o : Outgoing) : Message :=
  o.msg.setTotalLength (toInt32 o.body.payload.length)

def payload (o : Outgoing) : List Byte := o.body.payload

/-- The datagrams that carry the payload. -/
def parts (o : Outgoing) : List Datagram :=
  match o.body with
  | .none => []
  | .accessor buf => sendLoop size buf
  | .buffers data => data.flatMap (sendLoop size)

theorem totalLength_header (o : Outgoing) : o.header.totalLength = o.payload.length :=
  Message.totalLength_setTotalLength o.msg o.fits

theorem flatten_parts (o : Outgoing) : (o.parts size).flatten = o.payload := by
  unfold parts payload Body.payload
  cases o.body with
  | none => rfl
  | accessor buf => exact flatten_sendLoop size buf
  | buffers data =>
    dsimp only
    induction data with
    | nil => rfl
    | cons buf data ih =>
      rw [List.flatMap_cons, List.flatten_append, flatten_sendLoop, ih, List.flatten_cons]

theorem ne_nil_of_mem_parts {o : Outgoing} {d : Datagram} (h : d ∈ o.parts size) : d ≠ [] := by
  unfold parts at h
  cases hbody : o.body with
  | none =>
    rw [hbody] at h
    cases h
  | accessor buf =>
    rw [hbody] at h
    exact ne_nil_of_mem_sendLoop size h
  | buffers data =>
    rw [hbody] at h
    rcases List.mem_flatMap.1 h with ⟨buf, -, hmem⟩
    exact ne_nil_of_mem_sendLoop size hmem

/-- A buffer, empty or not. -/
theorem sendData_buffer {buf : List Byte} (h : buf.length < 2 ^ 31) :
    (if 0 < buf.length then sendData size buf else []) = sendLoop size buf := by
  split_ifs with hpos
  · exact sendData_of_lt size h
  · obtain rfl : buf = [] := List.length_eq_zero_iff.1 (Nat.eq_zero_of_not_pos hpos)
    rw [sendLoop_nil]

/-- Every variant of `send` sends the header, then the payload. -/
theorem send_eq (o : Outgoing) :
    send size o.msg o.body = (o.header, o.header.data :: o.parts size) := by
  rcases o with ⟨msg, body, hfits⟩
  unfold send header parts
  cases body with
  | none =>
    dsimp only
    rw [sendData_header]
    rfl
  | accessor buf =>
    have hbuf : buf.length < 2 ^ 31 := hfits
    dsimp only
    rw [sendData_header, sendData_buffer size hbuf]
    rfl
  | buffers data =>
    have hsum : (data.map List.length).sum = data.flatten.length := List.length_flatten.symm
    have hparts : (data.flatMap fun buf => if 0 < buf.length then sendData size buf else []) =
        data.flatMap (sendLoop size) := by
      apply List.flatMap_congr
      intro buf hmem
      have hle : buf.length ≤ data.flatten.length := by
        rw [← hsum]
        exact List.le_sum_of_mem (List.mem_map_of_mem hmem)
      exact sendData_buffer size (lt_of_le_of_lt hle hfits)
    dsimp only
    rw [sendData_header, hparts, hsum]
    rfl

end Outgoing

/-! ## Gathering datagrams -/

section Gathering

variable {room len ready : ℕ} {data : List Byte} {ds queue : List Datagram}

/-- The datagrams that make up what is asked for can all be received. -/
theorem recv_all (hlen : data.length + ds.flatten.length = len) (hroom : len ≤ room)
    (hne : ∀ d ∈ ds, d ≠ []) (hready : ds.length ≤ ready) :
    recv room len ready data (ds ++ queue) =
      .ok (data ++ ds.flatten, ready - ds.length, queue) := by
  induction ds generalizing ready data with
  | nil =>
    have hfull : len ≤ data.length := by
      rw [← hlen]
      simp
    rw [List.nil_append, List.flatten_nil, List.append_nil]
    cases queue with
    | nil =>
      unfold recv
      rfl
    | cons d queue =>
      cases ready with
      | zero =>
        unfold recv
        rfl
      | succ ready =>
        unfold recv
        rw [if_pos hfull]
        rfl
  | cons d ds ih =>
    have hd : 0 < d.length := List.length_pos_iff.2 (hne d List.mem_cons_self)
    rw [List.flatten_cons, List.length_append] at hlen
    rw [List.length_cons] at hready
    rcases ready with _ | ready
    · omega
    · rw [List.cons_append, recv, if_neg (by omega), if_neg (by omega),
        ih (by rw [List.length_append]; omega) (fun d' hd' => hne d' (List.mem_cons_of_mem _ hd'))
          (by omega)]
      rw [List.flatten_cons, List.append_assoc, List.length_cons, Nat.add_sub_add_right]

/-- Some of them cannot: they stay in the queue. -/
theorem recv_some (hlen : data.length + ds.flatten.length = len) (hroom : len ≤ room)
    (hne : ∀ d ∈ ds, d ≠ []) (hready : ready < ds.length) :
    recv room len ready data (ds ++ queue) =
      .ok (data ++ (ds.take ready).flatten, 0, ds.drop ready ++ queue) := by
  induction ds generalizing ready data with
  | nil => exact absurd hready (Nat.not_lt_zero _)
  | cons d ds ih =>
    have hd : 0 < d.length := List.length_pos_iff.2 (hne d List.mem_cons_self)
    rw [List.flatten_cons, List.length_append] at hlen
    rw [List.length_cons] at hready
    cases ready with
    | zero =>
      rw [List.cons_append]
      unfold recv
      simp
    | succ ready =>
      rw [List.cons_append, recv, if_neg (by omega), if_neg (by omega),
        ih (by rw [List.length_append]; omega) (fun d' hd' => hne d' (List.mem_cons_of_mem _ hd'))
          (by omega)]
      rw [List.take_succ_cons, List.drop_succ_cons, List.flatten_cons, List.append_assoc]

end Gathering

/-! ## Where the reader stands -/

/-- The datagrams of a sequence of messages. -/
def wire (todo : List Outgoing) : List Datagram :=
  todo.flatMap fun o => o.header.data :: o.parts size

/-- The reader has yet to return `todo`, of which the queue holds the datagrams it has not
taken: it stands between two messages, or it has the header and the first datagrams of a
payload. -/
inductive Stands : POSIXMQChannel → List Datagram → List Outgoing → Prop where
  | between {c : POSIXMQChannel} {todo : List Outgoing} :
      c.msgRead = false → c.msgPayload = none → c.buffers.length ≤ BUFFER_ELEMS →
      Stands c (wire size todo) todo
  | inside {c : POSIXMQChannel} {o : Outgoing} {todo : List Outgoing} {done ds : List Datagram} :
      c.msgRead = true → c.msg = o.header → o.parts size = done ++ ds → ds ≠ [] →
      (c.payloadBuffer size).1.data = done.flatten →
      o.payload.length ≤ (c.payloadBuffer size).1.size →
      (c.payloadBuffer size).2.length ≤ BUFFER_ELEMS →
      Stands c (ds ++ wire size todo) (o :: todo)

/-- Few buffers are left, so that the one retrieved has the size that is asked for. -/
theorem retrieveBuffer_eq {buffers : List Buffer} {n : ℕ} (h : buffers.length ≤ BUFFER_ELEMS)
    (hn : BUFFER_ELEMS ≤ n) :
    (retrieveBuffer buffers n).1 = ⟨n, []⟩ ∧
      (retrieveBuffer buffers n).2.length ≤ BUFFER_ELEMS := by
  unfold retrieveBuffer
  cases buffers with
  | nil => exact ⟨rfl, Nat.zero_le _⟩
  | cons buf rest =>
    rw [List.length_cons] at h
    dsimp only
    rw [if_pos (by omega)]
    exact ⟨rfl, by omega⟩

/-- What came of a call of `receive`: it returned no message, which it does only if there
is none or it could not go on, or the next one as it was sent. -/
inductive Received (queue : List Datagram) (ready : ℕ) (todo : List Outgoing)
    (c' : POSIXMQChannel) (queue' : List Datagram) : Option (List Byte) → Prop where
  | incomplete : ready < queue.length ∨ todo = [] → Stands size c' queue' todo →
      Received queue ready todo c' queue' none
  | complete {o : Outgoing} {rest : List Outgoing} : todo = o :: rest → c'.msg = o.header →
      Stands size c' queue' rest → Received queue ready todo c' queue' (some o.payload)

section Reading

variable {size} {c : POSIXMQChannel} {o : Outgoing} {todo : List Outgoing}

theorem sizeT_header (o : Outgoing) : sizeT o.header.totalLength = o.payload.length :=
  sizeT_readInt32 o.totalLength_header

/-- The header of a payload has been read, and none of the payload. -/
theorem stands_header (hread : c.msgRead = true) (hmsg : c.msg = o.header)
    (hpayload : c.msgPayload = none) (hfree : c.buffers.length ≤ BUFFER_ELEMS)
    (hparts : o.parts size ≠ []) : Stands size c (o.parts size ++ wire size todo) (o :: todo) := by
  have hlen : sizeT c.msg.totalLength = o.payload.length := by rw [hmsg, sizeT_header]
  have hlarge : BUFFER_ELEMS ≤ max o.payload.length size.1 :=
    le_trans (le_trans (by decide) size.2) (le_max_right _ _)
  have hbuffer : c.payloadBuffer size = retrieveBuffer c.buffers (max o.payload.length size.1) := by
    unfold POSIXMQChannel.payloadBuffer
    rw [hpayload, hlen]
  have hretrieve := retrieveBuffer_eq hfree hlarge
  apply Stands.inside hread hmsg (List.nil_append _).symm hparts
  · rw [hbuffer, hretrieve.1]
    rfl
  · rw [hbuffer, hretrieve.1]
    exact le_max_left _ _
  · rw [hbuffer]
    exact hretrieve.2

section Payload

variable {done ds : List Datagram} {ready : ℕ}

theorem length_payload (hparts : o.parts size = done ++ ds) :
    o.payload.length = done.flatten.length + ds.flatten.length := by
  rw [← o.flatten_parts size, hparts, List.flatten_append, List.length_append]

theorem length_flatten_pos (hparts : o.parts size = done ++ ds) (hds : ds ≠ []) :
    0 < ds.flatten.length := by
  rcases List.exists_mem_of_ne_nil ds hds with ⟨d, hd⟩
  have hne : d ≠ [] := by
    apply o.ne_nil_of_mem_parts size
    rw [hparts]
    exact List.mem_append_right done hd
  apply List.length_pos_iff.2
  intro hnil
  exact hne (List.flatten_eq_nil_iff.1 hnil d hd)

/-- A reader inside a payload reads on where it stopped. -/
theorem readPayload_eq (hmsg : c.msg = o.header) (hparts : o.parts size = done ++ ds)
    (hds : ds ≠ []) (hgot : (c.payloadBuffer size).1.data = done.flatten) :
    c.readPayload size (ds ++ wire size todo) ready =
      match recv ((c.payloadBuffer size).1.size - done.flatten.length) ds.flatten.length ready []
          (ds ++ wire size todo) with
      | .error f => .error f
      | .ok (data, _, queue) =>
        if data.length = ds.flatten.length then
          .ok ({ c with buffers := (c.payloadBuffer size).2, msgRead := false, msgPayload := none },
            queue, some (done.flatten ++ data))
        else
          .ok ({ c with
            buffers := (c.payloadBuffer size).2
            msgPayload := some ⟨(c.payloadBuffer size).1.size, done.flatten ++ data⟩ },
              queue, none) := by
  have hlen := length_payload hparts
  have hpos := length_flatten_pos hparts hds
  have hlt : o.payload.length < 2 ^ 31 := o.fits
  have htotal : c.msg.totalLength = o.payload.length := by rw [hmsg, o.totalLength_header]
  have hrest : sizeT (c.msg.totalLength - done.flatten.length) = ds.flatten.length := by
    have h0 : (sizeT (c.msg.totalLength - done.flatten.length) : Int) =
        c.msg.totalLength - done.flatten.length := by
      apply sizeT_of_nonneg
      · omega
      · omega
    omega
  unfold POSIXMQChannel.readPayload
  rw [if_pos (by omega)]
  dsimp only
  rw [hgot, hrest]

/-- The rest of the payload can be received. -/
theorem readPayload_complete (hmsg : c.msg = o.header) (hparts : o.parts size = done ++ ds)
    (hds : ds ≠ []) (hgot : (c.payloadBuffer size).1.data = done.flatten)
    (hsize : o.payload.length ≤ (c.payloadBuffer size).1.size)
    (hfree : (c.payloadBuffer size).2.length ≤ BUFFER_ELEMS) (hready : ds.length ≤ ready) :
    ∃ c', c.readPayload size (ds ++ wire size todo) ready =
        .ok (c', wire size todo, some o.payload) ∧
      c'.msg = o.header ∧ Stands size c' (wire size todo) todo := by
  have hlen := length_payload hparts
  have hne : ∀ d ∈ ds, d ≠ [] := by
    intro d hd
    apply o.ne_nil_of_mem_parts size
    rw [hparts]
    exact List.mem_append_right done hd
  have hrecv : recv ((c.payloadBuffer size).1.size - done.flatten.length) ds.flatten.length ready
      [] (ds ++ wire size todo) = .ok ([] ++ ds.flatten, ready - ds.length, wire size todo) :=
    recv_all (Nat.zero_add _) (by omega) hne hready
  have hpayload : done.flatten ++ ds.flatten = o.payload := by
    rw [← o.flatten_parts size, hparts, List.flatten_append]
  rw [readPayload_eq hmsg hparts hds hgot, hrecv]
  dsimp only
  rw [List.nil_append, if_pos rfl, hpayload]
  exact ⟨_, rfl, hmsg, Stands.between rfl rfl hfree⟩

/-- Not all of it can: what there is goes to the buffer. -/
theorem readPayload_incomplete (hread : c.msgRead = true) (hmsg : c.msg = o.header)
    (hparts : o.parts size = done ++ ds) (hds : ds ≠ [])
    (hgot : (c.payloadBuffer size).1.data = done.flatten)
    (hsize : o.payload.length ≤ (c.payloadBuffer size).1.size)
    (hfree : (c.payloadBuffer size).2.length ≤ BUFFER_ELEMS) (hready : ready < ds.length) :
    ∃ c' queue', c.readPayload size (ds ++ wire size todo) ready = .ok (c', queue', none) ∧
      Stands size c' queue' (o :: todo) := by
  have hlen := length_payload hparts
  have hne : ∀ d ∈ ds, d ≠ [] := by
    intro d hd
    apply o.ne_nil_of_mem_parts size
    rw [hparts]
    exact List.mem_append_right done hd
  have hrecv : recv ((c.payloadBuffer size).1.size - done.flatten.length) ds.flatten.length ready
      [] (ds ++ wire size todo) =
        .ok ([] ++ (ds.take ready).flatten, 0, ds.drop ready ++ wire size todo) :=
    recv_some (Nat.zero_add _) (by omega) hne hready
  -- the datagrams that are left have bytes in them
  have hleft : ds.drop ready ≠ [] := by
    intro hnil
    exact absurd (List.drop_eq_nil_iff.1 hnil) (not_le_of_gt hready)
  have hsplit : o.parts size = (done ++ ds.take ready) ++ ds.drop ready := by
    rw [List.append_assoc, List.take_append_drop, hparts]
  have hpos := length_flatten_pos hsplit hleft
  have htake : (ds.take ready).flatten.length + (ds.drop ready).flatten.length =
      ds.flatten.length := by
    rw [← List.length_append, ← List.flatten_append, List.take_append_drop]
  rw [readPayload_eq hmsg hparts hds hgot, hrecv]
  dsimp only
  rw [List.nil_append, if_neg (by omega), ← List.flatten_append]
  refine ⟨_, _, rfl, ?_⟩
  exact Stands.inside hread hmsg hsplit hleft rfl hsize hfree

end Payload

/-- An empty payload is complete at once. -/
theorem readPayload_empty (hmsg : c.msg = o.header) (hpayload : c.msgPayload = none)
    (hfree : c.buffers.length ≤ BUFFER_ELEMS) (hparts : o.parts size = []) (ready : ℕ) :
    ∃ c', c.readPayload size (wire size todo) ready = .ok (c', wire size todo, some o.payload) ∧
      c'.msg = o.header ∧ Stands size c' (wire size todo) todo := by
  have hempty : o.payload = [] := by
    rw [← o.flatten_parts size, hparts]
    rfl
  have htotal : c.msg.totalLength = 0 := by
    rw [hmsg, o.totalLength_header, hempty]
    rfl
  unfold POSIXMQChannel.readPayload
  rw [htotal, if_neg (lt_irrefl 0), hempty]
  exact ⟨_, rfl, hmsg, Stands.between rfl hpayload hfree⟩

/-- With the header in hand, the call goes on with the payload. -/
theorem readPayload_stands {queue : List Datagram} (hread : c.msgRead = true)
    (h : Stands size c queue todo) (ready : ℕ) :
    ∃ c' queue' res, c.readPayload size queue ready = .ok (c', queue', res) ∧
      Received size queue ready todo c' queue' res := by
  cases h
  case between hno _ _ =>
    rw [hread] at hno
    cases hno
  case inside o todo done ds _ hmsg hparts hds hgot hsize hfree =>
    rcases Nat.lt_or_ge ready ds.length with hshort | hall
    · rcases readPayload_incomplete hread hmsg hparts hds hgot hsize hfree hshort
        with ⟨c', queue', hcall, hstands⟩
      refine ⟨c', queue', none, hcall, Received.incomplete (Or.inl ?_) hstands⟩
      rw [List.length_append]
      omega
    · rcases readPayload_complete hmsg hparts hds hgot hsize hfree hall with
        ⟨c', hcall, hmsg', hstands⟩
      exact ⟨c', _, _, hcall, Received.complete rfl hmsg' hstands⟩

/-- The header of the next message is one datagram. -/
theorem recv_header (m : Message) (queue : List Datagram) (ready : ℕ) :
    recv size.1 Message.BUF_SIZE (ready + 1) [] (m.data :: queue) = .ok (m.data, ready, queue) := by
  have hlen : m.data.length = Message.BUF_SIZE := m.length_data
  have hne : ∀ d ∈ [m.data], d ≠ [] := by
    intro d hd
    obtain rfl : d = m.data := List.mem_singleton.1 hd
    apply List.ne_nil_of_length_pos
    rw [hlen]
    decide
  have hall : recv size.1 Message.BUF_SIZE (ready + 1) [] ([m.data] ++ queue) =
      .ok ([] ++ [m.data].flatten, ready + 1 - [m.data].length, queue) := by
    apply recv_all
    · simpa using hlen
    · exact size.2
    · exact hne
    · simp
  simpa using hall

theorem recv_empty (room len ready : ℕ) (queue : List Datagram) (h : ready = 0 ∨ queue = []) :
    recv room len ready [] queue = .ok ([], ready, queue) := by
  rcases h with rfl | rfl
  · cases queue with
    | nil =>
      unfold recv
      rfl
    | cons d queue =>
      unfold recv
      rfl
  · unfold recv
    rfl

theorem readHeader_next (hread : c.msgRead = false) (n : ℕ) :
    c.readHeader size (wire size (o :: todo)) (n + 1) =
      .ok (some ({ c with msg := o.header, msgRead := true }, n),
        o.parts size ++ wire size todo) := by
  have hlen : o.header.data.length = Message.BUF_SIZE := o.header.length_data
  have hwire : wire size (o :: todo) = o.header.data :: (o.parts size ++ wire size todo) := rfl
  unfold POSIXMQChannel.readHeader
  rw [hread, hwire, recv_header]
  dsimp only
  rw [if_neg (by decide), if_neg (by rw [hlen]; decide), dif_neg (by rw [hlen]; decide)]
  simp only [List.take_of_length_le hlen.le]

/-- No datagram can be received. -/
theorem receive_none (hread : c.msgRead = false) {queue : List Datagram} {ready : ℕ}
    (hnone : ready = 0 ∨ queue = []) : c.receive size queue ready = .ok (c, queue, none) := by
  unfold POSIXMQChannel.receive POSIXMQChannel.readHeader
  rw [hread, recv_empty _ _ _ _ hnone]
  rfl

/-- A header and what follows it are read in one call. -/
theorem receive_next (hread : c.msgRead = false) (hpayload : c.msgPayload = none)
    (hfree : c.buffers.length ≤ BUFFER_ELEMS) (n : ℕ) :
    ∃ c' queue' res, c.receive size (wire size (o :: todo)) (n + 1) = .ok (c', queue', res) ∧
      Received size (wire size (o :: todo)) (n + 1) (o :: todo) c' queue' res := by
  have hcall : c.receive size (wire size (o :: todo)) (n + 1) =
      POSIXMQChannel.readPayload size { c with msg := o.header, msgRead := true }
        (o.parts size ++ wire size todo) n := by
    unfold POSIXMQChannel.receive
    rw [readHeader_next hread]
  rw [hcall]
  by_cases hparts : o.parts size = []
  · rw [hparts, List.nil_append]
    rcases readPayload_empty (c := { c with msg := o.header, msgRead := true }) rfl hpayload hfree
      hparts n with ⟨c', hpay, hmsg, hstands⟩
    exact ⟨c', _, _, hpay, Received.complete rfl hmsg hstands⟩
  · have hstands : Stands size { c with msg := o.header, msgRead := true }
        (o.parts size ++ wire size todo) (o :: todo) := stands_header rfl rfl hpayload hfree hparts
    rcases readPayload_stands rfl hstands n with ⟨c', queue', res, hpay, hreceived⟩
    refine ⟨c', queue', res, hpay, ?_⟩
    cases hreceived
    case incomplete hshort hrest =>
      rcases hshort with hshort | hnil
      · exact Received.incomplete (Or.inl (Nat.succ_lt_succ hshort)) hrest
      · cases hnil
    case complete htodo hmsg hrest => exact Received.complete htodo hmsg hrest

/-- **One call of `receive`.** Whatever the pattern of interruptions, it raises nothing and
returns the next message as it was sent, or none and goes on with it at the next call. -/
theorem receive_stands {queue : List Datagram} (h : Stands size c queue todo) (ready : ℕ) :
    ∃ c' queue' res, c.receive size queue ready = .ok (c', queue', res) ∧
      Received size queue ready todo c' queue' res := by
  cases hread : c.msgRead with
  | true =>
    -- the header has been read in an earlier call
    have hcall : c.receive size queue ready = c.readPayload size queue ready := by
      unfold POSIXMQChannel.receive POSIXMQChannel.readHeader
      rw [hread]
      rfl
    rw [hcall]
    exact readPayload_stands hread h ready
  | false =>
    cases h
    case inside hyes _ _ _ _ _ _ =>
      rw [hread] at hyes
      cases hyes
    case between _ hpayload hfree =>
      have hstands : Stands size c (wire size todo) todo := Stands.between hread hpayload hfree
      cases todo with
      | nil =>
        exact ⟨c, _, none, receive_none hread (Or.inr rfl),
          Received.incomplete (Or.inr rfl) hstands⟩
      | cons o todo =>
        cases ready with
        | zero =>
          exact ⟨c, _, none, receive_none hread (Or.inl rfl),
            Received.incomplete (Or.inl (Nat.succ_pos _)) hstands⟩
        | succ n => exact receive_next hread hpayload hfree n

/-- On a blocking queue a payload is received as a whole. -/
theorem recv_payload {room : ℕ} (hroom : o.payload.length ≤ room) :
    ∃ left, recv room o.payload.length (o.parts size ++ wire size todo).length []
      (o.parts size ++ wire size todo) = .ok (o.payload, left, wire size todo) := by
  have hlen : ([] : List Byte).length + (o.parts size).flatten.length = o.payload.length := by
    rw [o.flatten_parts size]
    exact Nat.zero_add _
  have hready : (o.parts size).length ≤ (o.parts size ++ wire size todo).length := by
    rw [List.length_append]
    omega
  have hall : recv room o.payload.length (o.parts size ++ wire size todo).length []
      (o.parts size ++ wire size todo) = .ok ([] ++ (o.parts size).flatten, _, wire size todo) :=
    recv_all hlen hroom (fun d hd => o.ne_nil_of_mem_parts size hd) hready
  rw [List.nil_append, o.flatten_parts size] at hall
  exact ⟨_, hall⟩

/-- A call of `blocking_receive` between two messages returns the next one as it was sent;
without one it waits. -/
theorem blockingReceive_stands {queue : List Datagram} (h : Stands size c queue todo)
    (hread : c.msgRead = false) (buf : Buffer) :
    (todo = [] ∧ c.blockingReceive size queue buf = .ok none) ∨
    ∃ o rest c' queue' n, todo = o :: rest ∧
      c.blockingReceive size queue buf = .ok (some (c', queue', ⟨n, o.payload⟩, true)) ∧
      c'.msg = o.header ∧ Stands size c' queue' rest := by
  cases h
  case inside hyes _ _ _ _ _ _ =>
    rw [hread] at hyes
    cases hyes
  case between _ hpayload hfree =>
    cases todo with
    | nil =>
      have hempty : wire size [] = [] := rfl
      refine Or.inl ⟨rfl, ?_⟩
      unfold POSIXMQChannel.blockingReceive
      rw [hempty, recv_empty _ _ _ _ (Or.inr rfl)]
      rfl
    | cons o todo =>
      have hlen : o.header.data.length = Message.BUF_SIZE := o.header.length_data
      have hwire : wire size (o :: todo) = o.header.data :: (o.parts size ++ wire size todo) := rfl
      have htotal : sizeT o.header.totalLength = o.payload.length := sizeT_header o
      rcases hbuf : (if buf.size < o.payload.length then (⟨o.payload.length, []⟩ : Buffer) else buf)
        with ⟨n, bytes⟩
      -- the buffer has the size that is asked for
      have hroom : o.payload.length ≤ n := by
        split_ifs at hbuf with hsmall
        · rw [(Buffer.mk.inj hbuf).1]
        · rw [hbuf] at hsmall
          exact not_lt.1 hsmall
      have hpay : ∃ left, recv n o.payload.length (o.parts size ++ wire size todo).length []
          (o.parts size ++ wire size todo) = .ok (o.payload, left, wire size todo) :=
        recv_payload hroom
      rcases hpay with ⟨left, hrecv⟩
      refine Or.inr ⟨o, todo, { c with msg := o.header }, wire size todo, n, rfl, ?_, rfl,
        Stands.between hread hpayload hfree⟩
      unfold POSIXMQChannel.blockingReceive
      rw [hwire, List.length_cons, recv_header]
      dsimp only
      rw [dif_neg (by rw [hlen]; decide)]
      simp only [List.take_of_length_le hlen.le, htotal, hbuf, hrecv]
      rw [if_neg (lt_irrefl _)]
      simp only [le_refl, decide_true]

/-- A call of `blocking_receive` leaves `_msg_read` as it is. -/
theorem blockingReceive_msgRead {queue queue' : List Datagram} {buf buf' : Buffer} {read : Bool}
    {c' : POSIXMQChannel}
    (h : c.blockingReceive size queue buf = .ok (some (c', queue', buf', read))) :
    c'.msgRead = c.msgRead := by
  unfold POSIXMQChannel.blockingReceive at h
  cases hheader : recv size.1 Message.BUF_SIZE queue.length [] queue with
  | error f => simp [hheader] at h
  | ok r =>
    rw [hheader] at h
    dsimp only at h
    split at h
    · cases h
    · -- the header is complete; the payload goes to a buffer of either size
      split at h
      · cases h
      · split at h
        · cases h
        · obtain ⟨rfl, -⟩ := Prod.mk.inj (Option.some.inj (Except.ok.inj h))
          rfl

end Reading

/-! ## Runs -/

/-- What is called on the two ends of a channel. -/
inductive Event where
  | send (o : Outgoing)
  | receive (ready : ℕ)
  | blockingReceive

/-- The queue, the reading end, the buffer of its blocking calls, and the messages it has
returned. -/
structure State where
  queue : List Datagram := []
  reader : POSIXMQChannel := POSIXMQChannel.open
  input : Buffer := ⟨0, []⟩
  received : List (Message × List Byte) := []

/-- A blocking call for which there is no message has not returned. -/
def step (s : State) : Event → Except Fault State
  | .send o => .ok { s with queue := s.queue ++ (send size o.msg o.body).2 }
  | .receive ready =>
    (s.reader.receive size s.queue ready).map fun r =>
      { s with
        reader := r.1
        queue := r.2.1
        received := s.received ++ (r.2.2.map fun payload => (r.1.msg, payload)).toList }
  | .blockingReceive =>
    (s.reader.blockingReceive size s.queue s.input).map fun r =>
      match r with
      | none => s
      | some (c, queue, buf, complete) =>
        { s with
          reader := c
          queue := queue
          input := buf
          received := s.received ++ if complete then [(c.msg, buf.data)] else [] }

/-- The header and the payload that an event sends. -/
def Event.sent : Event → List (Message × List Byte)
  | .send o => [((Ipc.send size o.msg o.body).1, o.body.payload)]
  | _ => []

def sent (es : List Event) : List (Message × List Byte) := es.flatMap (Event.sent size)

/-- The two ways of receiving change at the boundaries of messages only. -/
def AtBoundary (s : State) : Event → Prop
  | .blockingReceive => s.reader.msgRead = false
  | _ => True

instance : ∀ (s : State) (e : Event), Decidable (AtBoundary s e)
  | s, .blockingReceive => inferInstanceAs (Decidable (s.reader.msgRead = false))
  | _, .send _ => isTrue trivial
  | _, .receive _ => isTrue trivial

/-- A message as it is to come out. -/
def Outgoing.message (o : Outgoing) : Message × List Byte := (o.header, o.payload)

section Runs

variable {size} {s : State} {todo : List Outgoing}

/-- The datagrams of another message join the queue. -/
theorem stands_send {c : POSIXMQChannel} {queue : List Datagram} (h : Stands size c queue todo)
    (o : Outgoing) :
    Stands size c (queue ++ (o.header.data :: o.parts size)) (todo ++ [o]) := by
  have hwire : ∀ l : List Outgoing,
      wire size l ++ (o.header.data :: o.parts size) = wire size (l ++ [o]) := by
    intro l
    unfold wire
    rw [List.flatMap_append, List.flatMap_singleton]
  cases h
  case between hread hpayload hfree =>
    rw [hwire]
    exact Stands.between hread hpayload hfree
  case inside o' todo done ds hread hmsg hparts hds hgot hsize hfree =>
    rw [List.append_assoc, hwire]
    exact Stands.inside hread hmsg hparts hds hgot hsize hfree

theorem step_receive {ready : ℕ} {c' : POSIXMQChannel} {queue' : List Datagram}
    {res : Option (List Byte)}
    (hcall : s.reader.receive size s.queue ready = .ok (c', queue', res)) :
    step size s (.receive ready) = .ok { s with
      reader := c'
      queue := queue'
      received := s.received ++ (res.map fun payload => (c'.msg, payload)).toList } := by
  unfold step
  dsimp only
  rw [hcall]
  rfl

/-- A step of the run: what is sent and what is returned. -/
theorem step_stands (h : Stands size s.reader s.queue todo) {e : Event} (hat : AtBoundary s e) :
    ∃ s' todo', step size s e = .ok s' ∧ Stands size s'.reader s'.queue todo' ∧
      s'.received ++ todo'.map Outgoing.message =
        s.received ++ todo.map Outgoing.message ++ e.sent size := by
  cases e with
  | send o =>
    refine ⟨_, todo ++ [o], rfl, ?_, ?_⟩
    · rw [Outgoing.send_eq]
      exact stands_send h o
    · have hsent : Event.sent size (.send o) = [o.message] := by
        unfold Event.sent
        dsimp only
        rw [Outgoing.send_eq]
        rfl
      rw [hsent, List.map_append, ← List.append_assoc]
      rfl
  | receive ready =>
    rcases receive_stands h ready with ⟨c', queue', res, hcall, hres⟩
    have hstep := step_receive hcall
    -- the call returns the first message, or keeps what it has read of it
    cases hres
    case incomplete _ hstands =>
      exact ⟨_, todo, hstep, hstands, by simp [Event.sent]⟩
    case complete o rest htodo hmsg hstands =>
      refine ⟨_, rest, hstep, hstands, ?_⟩
      subst htodo
      simp [hmsg, Outgoing.message, Event.sent]
  | blockingReceive =>
    unfold step
    dsimp only
    rcases blockingReceive_stands h hat s.input with ⟨-, hcall⟩ |
      ⟨o, rest, c', queue', n, htodo, hcall, hmsg, hstands⟩
    · rw [hcall]
      exact ⟨_, todo, rfl, h, by simp [Event.sent]⟩
    · rw [hcall]
      refine ⟨_, rest, rfl, hstands, ?_⟩
      subst htodo
      simp [hmsg, Outgoing.message, Event.sent]

/-- A whole run, from wherever the reader stands. -/
theorem run_stands (h : Stands size s.reader s.queue todo) {es : List Event}
    (hat : Lts.Meets (step size) AtBoundary s es) :
    ∃ s' todo', Lts.run (step size) s es = .ok s' ∧ Stands size s'.reader s'.queue todo' ∧
      s'.received ++ todo'.map Outgoing.message =
        s.received ++ todo.map Outgoing.message ++ sent size es := by
  induction es generalizing s todo with
  | nil => exact ⟨s, todo, rfl, h, (List.append_nil _).symm⟩
  | cons e es ih =>
    rcases step_stands h hat.1 with ⟨m, todo', hm, hstands, hmessages⟩
    rcases ih hstands (hat.2 m hm) with ⟨s', todo'', hs', hstands', hmessages'⟩
    refine ⟨s', todo'', Lts.run_cons_ok.2 ⟨m, hm, hs'⟩, hstands', ?_⟩
    unfold sent at hmessages' ⊢
    rw [hmessages', hmessages, List.flatMap_cons, List.append_assoc _ (e.sent size)]

/-- With an empty queue nothing is to come. -/
theorem Stands.todo_eq_nil {c : POSIXMQChannel} {queue : List Datagram}
    (h : Stands size c queue todo) (hempty : queue = []) : todo = [] := by
  cases h
  case between =>
    cases todo with
    | nil => rfl
    | cons o todo => cases hempty
  case inside o todo done ds _ _ _ hds _ _ _ =>
    exact absurd (List.append_eq_nil_iff.1 hempty).1 hds

/-- The queue holds no more than the messages that are to come. -/
theorem length_queue_le {c : POSIXMQChannel} {queue : List Datagram}
    (h : Stands size c queue todo) : queue.length ≤ (wire size todo).length := by
  cases h
  case between => exact le_refl _
  case inside o todo done ds _ _ hparts _ _ _ _ =>
    have hwire : wire size (o :: todo) = o.header.data :: (o.parts size ++ wire size todo) := rfl
    rw [hwire, hparts]
    simp only [List.length_append, List.length_cons]
    omega

/-- Calls that are not interrupted return the messages one after the other. -/
theorem run_receive_all (h : Stands size s.reader s.queue todo) {ready : ℕ}
    (hready : (wire size todo).length ≤ ready) :
    ∃ t, Lts.run (step size) s (List.replicate todo.length (.receive ready)) = .ok t ∧
      t.received = s.received ++ todo.map Outgoing.message := by
  induction todo generalizing s with
  | nil => exact ⟨s, rfl, (List.append_nil _).symm⟩
  | cons o todo ih =>
    have hqueue := length_queue_le h
    rcases receive_stands h ready with ⟨c', queue', res, hcall, hres⟩
    cases hres
    case incomplete hno _ =>
      -- all datagrams are there, so no call is incomplete
      rcases hno with hshort | hnil
      · omega
      · cases hnil
    case complete o' rest htodo hmsg hstands =>
      have ho : o' = o := (List.cons.inj htodo).1.symm
      have hrest : rest = todo := (List.cons.inj htodo).2.symm
      subst ho
      subst hrest
      have hwire : (wire size rest).length ≤ (wire size (o' :: rest)).length := by
        unfold wire
        rw [List.flatMap_cons, List.length_append]
        omega
      rcases ih (s := { s with
        reader := c'
        queue := queue'
        received := s.received ++ [(c'.msg, o'.payload)] }) hstands (hwire.trans hready) with
        ⟨t, ht, hreceived⟩
      refine ⟨t, Lts.run_cons_ok.2 ⟨_, step_receive hcall, ht⟩, ?_⟩
      rw [hreceived, hmsg, List.append_assoc]
      rfl

end Runs

theorem stands_open : Stands size POSIXMQChannel.open [] [] := by
  have hfree : POSIXMQChannel.open.buffers.length ≤ BUFFER_ELEMS :=
    (List.length_replicate ..).le
  have hopen : Stands size POSIXMQChannel.open (wire size []) [] := Stands.between rfl rfl hfree
  exact hopen

/-- A list of buffers, one of them empty and one larger than a datagram. -/
def sampleOutgoing : Outgoing where
  msg := Message.new 2
  body := .buffers [[1], [], List.replicate 130 2]
  fits := by simp [Body.payload]

/-- The first call of `receive` is interrupted inside the payload. -/
def sampleCalls : List Event :=
  [.send sampleOutgoing, .receive 2, .send sampleOutgoing, .receive 9, .blockingReceive]

end Praas.Process.Ipc
