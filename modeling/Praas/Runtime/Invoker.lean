import Praas.Common.Application
import Praas.Process.BufferTable

/-! # The messages of `Invoker::poll`

A worker reads each message into the same input and looks at its header: the arguments of an
invocation are slices of the input, one behind the other, with the lengths of the table in
the header. Only the sum of the lengths is checked, as a `size_t`.

* `readLengths_ok`, `readLengths_outOfBounds`: the table is as long as the header says, which
  nothing limits.
* `inside_slices`: without wrap-around a sum that fits keeps every slice inside.
* `validation_sound_iff`: the headers for which the check is enough.
-/

namespace Praas.Runtime

open Process.Ipc (NAME_LENGTH ID_LENGTH MsgSize Datagram POSIXMQChannel Outgoing Stands wire)
open Process.IpcHeader (Message BUF_SIZE HEADER_OFFSET ROOM parseMessage parse_of_type intsBytes)
open Process.IpcHeader.InvocationRequest (TABLE)
open Process.IpcHeader.InvocationRequestParsed
open Process.IpcHeader.ApplicationUpdateParsed (statusChange)

/-- `runtime::Buffer` over the input: the distance of its pointer from the start of the input,
as addresses are subtracted, and its length. -/
structure Slice where
  off : ℕ
  len : ℕ
deriving DecidableEq, Repr

/-- `runtime::Invocation`. -/
structure Invocation where
  key : Str
  functionName : Str
  args : List Slice
deriving DecidableEq, Repr

/-- What came of a message; a `PraaSException` ends `poll` without an invocation. -/
inductive Handled where
  | raised
  | unsupported
  | updated (application : Common.Application)
  | invocation (i : Invocation)
deriving DecidableEq, Repr

/-- `Invoker`, with the queue it reads. -/
structure Invoker where
  reader : POSIXMQChannel
  queue : List Datagram
  input : Process.Ipc.Buffer
  application : Common.Application

/-- Where a call of `poll` is: it waits for a message or goes on, has ended without an
invocation, or has returned one. -/
inductive Polled where
  | waits
  | ended
  | invocation (v : Invoker) (i : Invocation)

namespace Invoker

/-- The first lengths of the table, each converted to `size_t`. -/
def readLengths (buf : List Byte) : ℕ → Except Fault (List ℕ)
  | 0 => .ok []
  | n + 1 => do
    let lens ← readLengths buf n
    let len ← buffersLengths buf n
    return lens ++ [sizeT len]

/-- `total_len`. -/
def totalLen (lens : List ℕ) : ℕ := lens.foldl (fun total len => (total + len) % 2 ^ 64) 0

/-- The arguments from a pointer into the input on. -/
def slices : ℕ → List ℕ → List Slice
  | _, [] => []
  | ptr, len :: lens => ⟨ptr, len⟩ :: slices ((ptr + len) % 2 ^ 64) lens

/-- The branch for an invocation request. -/
def invocationRequest (buf input : List Byte) : Except Fault Handled := do
  let lens ← readLengths buf (buffers buf).toNat
  if input.length < totalLen lens then return .raised
  else return .invocation ⟨invocationId buf, functionName buf, slices 0 lens⟩

/-- One message in the loop of `poll`. -/
def handle (application : Common.Application) (header input : List Byte) : Except Fault Handled :=
  match parseMessage header with
  | .error _ => .ok .raised
  | .ok (.invocationRequest buf) => invocationRequest buf input
  | .ok (.applicationUpdate buf) =>
    .ok (.updated (application.update (statusChange buf)
      (Process.IpcHeader.ApplicationUpdateParsed.processId buf)))
  | .ok _ => .ok .unsupported

/-- `poll`, as far as it comes in a number of rounds of its loop. -/
def poll (size : MsgSize) : ℕ → Invoker → Except Fault Polled
  | 0, _ => .ok .waits
  | rounds + 1, v =>
    match v.reader.blockingReceive size v.queue v.input with
    | .error f => .error f
    | .ok none => .ok .waits
    | .ok (some (reader, queue, input, read)) =>
      let v : Invoker := { v with reader := reader, queue := queue, input := input }
      if read then
        match handle v.application reader.msg.data input.data with
        | .error f => .error f
        | .ok .raised => .ok .ended
        | .ok .unsupported => v.poll size rounds
        | .ok (.updated application) => poll size rounds { v with application := application }
        | .ok (.invocation i) => .ok (.invocation v i)
      else .ok .ended

/-- The call receives a message, with which the worker is in the second state. -/
def Receives (size : MsgSize) (v w : Invoker) : Prop :=
  v.reader.blockingReceive size v.queue v.input = .ok (some (w.reader, w.queue, w.input, true)) ∧
    w.application = v.application

/-! ## What the check is for -/

/-- The slices lie inside the payload, each behind the one before it. -/
structure Inside (size : ℕ) (args : List Slice) : Prop where
  inside : ∀ a ∈ args, a.off + a.len ≤ size
  ordered : args.Pairwise fun a b => a.off + a.len ≤ b.off

/-- The branch raises, or has arguments inside the payload. -/
def Valid (result : Except Fault Handled) (size : ℕ) : Prop :=
  result = .ok .raised ∨ ∃ i, result = .ok (.invocation i) ∧ Inside size i.args

/-- A call ends with an exception, or returns arguments inside what it has received. -/
def Sound (result : Except Fault Polled) : Prop :=
  result = .ok .ended ∨
    ∃ v i, result = .ok (.invocation v i) ∧ Inside v.input.data.length i.args

/-- The lengths that the table declares, as they stand in the header. -/
def declared (buf : List Byte) : List Int :=
  (List.range (buffers buf).toNat).map fun i =>
    readInt32 buf (2 * ID_LENGTH + NAME_LENGTH + 4 + 4 * i)

/-! ## Rounds of the loop -/

section Rounds

variable {size : MsgSize} {v w : Invoker} {o : Outgoing} {todo : List Outgoing}

theorem poll_received (rounds : ℕ) (h : Receives size v w) :
    v.poll size (rounds + 1) =
      match handle w.application w.reader.msg.data w.input.data with
      | .error f => .error f
      | .ok .raised => .ok .ended
      | .ok .unsupported => w.poll size rounds
      | .ok (.updated application) => poll size rounds { w with application := application }
      | .ok (.invocation i) => .ok (.invocation w i) := by
  have hw : { v with reader := w.reader, queue := w.queue, input := w.input } = w := by
    rw [← h.2]
  rw [poll, h.1]
  dsimp only
  rw [if_pos rfl, hw, h.2]

/-- Between two messages the next one is received as it was sent, whatever is in the input. -/
theorem receive_stands (h : Stands size v.reader v.queue (o :: todo))
    (hread : v.reader.msgRead = false) :
    ∃ w, Receives size v w ∧ w.reader.msg = o.header ∧ w.input.data = o.payload ∧
      w.application = v.application ∧ Stands size w.reader w.queue todo ∧
        w.reader.msgRead = false := by
  rcases Process.Ipc.blockingReceive_stands h hread v.input with ⟨hnil, -⟩ |
    ⟨o', todo', c', queue', n, htodo, hcall, hmsg, hstands⟩
  · cases hnil
  · obtain ⟨rfl, rfl⟩ := List.cons.inj htodo
    refine ⟨⟨c', queue', ⟨n, o.payload⟩, v.application⟩, ⟨hcall, rfl⟩, hmsg, rfl, rfl, hstands, ?_⟩
    exact (Process.Ipc.blockingReceive_msgRead hcall).trans hread

end Rounds

/-! ## Reading the table -/

section Table

variable {buf : List Byte} {n : ℕ}

theorem readLengths_ok (hbuf : buf.length = BUF_SIZE - HEADER_OFFSET)
    (hn : n ≤ ROOM) :
    readLengths buf n = .ok ((List.range n).map fun i =>
      sizeT (readInt32 buf (2 * ID_LENGTH + NAME_LENGTH + 4 + 4 * i))) := by
  induction n with
  | zero => rfl
  | succ n ih =>
    have hroom : 2 * ID_LENGTH + NAME_LENGTH + 4 + 4 * n + 4 ≤ buf.length := by
      have hspace : 2 * ID_LENGTH + NAME_LENGTH + 4 + 4 * ROOM ≤
          BUF_SIZE - HEADER_OFFSET := by decide
      omega
    have hread : buffersLengths buf n =
        .ok (readInt32 buf (2 * ID_LENGTH + NAME_LENGTH + 4 + 4 * n)) := if_pos hroom
    unfold readLengths
    rw [ih (Nat.le_of_succ_le hn), hread, List.range_succ, List.map_append]
    rfl

/-- A count beyond the room for it leads past the end of the header. -/
theorem readLengths_outOfBounds (hbuf : buf.length = BUF_SIZE - HEADER_OFFSET)
    (hn : ROOM < n) : readLengths buf n = .error .outOfBounds := by
  induction n with
  | zero => exact absurd hn (Nat.not_lt_zero _)
  | succ n ih =>
    unfold readLengths
    rcases Nat.lt_or_ge ROOM n with hmore | hlast
    · rw [ih hmore]
      rfl
    · -- the first length that has no room
      obtain rfl : n = ROOM := Nat.le_antisymm hlast (Nat.le_of_lt_succ hn)
      have hread : buffersLengths buf ROOM = .error .outOfBounds := by
        unfold buffersLengths
        rw [hbuf, if_neg (by decide)]
      rw [readLengths_ok hbuf le_rfl, hread]
      rfl

end Table

/-! ## Slices -/

theorem totalLen_eq (lens : List ℕ) : totalLen lens = lens.sum % 2 ^ 64 := by
  have hfold : ∀ start, lens.foldl (fun total len => (total + len) % 2 ^ 64) (start % 2 ^ 64) =
      (start + lens.sum) % 2 ^ 64 := by
    induction lens with
    | nil =>
      intro start
      rfl
    | cons len lens ih =>
      intro start
      rw [List.foldl_cons, Nat.mod_add_mod, ih, List.sum_cons, Nat.add_assoc]
  have hstart := hfold 0
  rw [Nat.zero_add] at hstart
  exact hstart

/-- Without wrap-around the slices follow one another up to the sum of the lengths. -/
theorem slices_between (ptr : ℕ) {lens : List ℕ} (h : ptr + lens.sum < 2 ^ 64) :
    (∀ a ∈ slices ptr lens, ptr ≤ a.off ∧ a.off + a.len ≤ ptr + lens.sum) ∧
      (slices ptr lens).Pairwise fun a b => a.off + a.len ≤ b.off := by
  induction lens generalizing ptr with
  | nil => exact ⟨fun a ha => absurd ha List.not_mem_nil, List.Pairwise.nil⟩
  | cons len lens ih =>
    rw [List.sum_cons] at h ⊢
    have hnext : (ptr + len) % 2 ^ 64 = ptr + len := Nat.mod_eq_of_lt (by omega)
    have hrest := ih (ptr + len) (by omega)
    unfold slices
    rw [hnext]
    constructor
    · intro a ha
      rcases List.mem_cons.1 ha with rfl | ha
      · dsimp only
        omega
      · have hbetween := hrest.1 a ha
        omega
    · exact List.pairwise_cons.2 ⟨fun a ha => (hrest.1 a ha).1, hrest.2⟩

theorem inside_slices {size : ℕ} {lens : List ℕ} (hsum : lens.sum < 2 ^ 64) (h : lens.sum ≤ size) :
    Inside size (slices 0 lens) := by
  rcases slices_between 0 ((Nat.zero_add _).trans_lt hsum) with ⟨hbetween, hordered⟩
  exact ⟨fun a ha => by have hle := (hbetween a ha).2; omega, hordered⟩

theorem len_mem_slices (ptr : ℕ) {len : ℕ} {lens : List ℕ} (h : len ∈ lens) :
    ∃ a ∈ slices ptr lens, a.len = len := by
  induction lens generalizing ptr with
  | nil => cases h
  | cons l lens ih =>
    rcases List.mem_cons.1 h with rfl | h
    · exact ⟨_, List.mem_cons_self, rfl⟩
    · rcases ih ((ptr + l) % 2 ^ 64) h with ⟨a, ha, hlen⟩
      exact ⟨a, List.mem_cons_of_mem _ ha, hlen⟩

/-! ## Soundness -/

section Sound

variable {buf input : List Byte}

theorem sum_declared (hcount : buffers buf ≤ ROOM) (hnonneg : ∀ x ∈ declared buf, 0 ≤ x) :
    ((declared buf).map sizeT).sum < 2 ^ 64 := by
  have hlen : (declared buf).length ≤ 13 := by
    have hroom : (ROOM : Int) = 13 := rfl
    unfold declared
    rw [List.length_map, List.length_range]
    omega
  have hsmall : ∀ n ∈ (declared buf).map sizeT, n ≤ 2 ^ 31 := by
    intro n hn
    rcases List.mem_map.1 hn with ⟨x, hx, rfl⟩
    have h0 := hnonneg x hx
    rcases List.mem_map.1 hx with ⟨i, -, rfl⟩
    have hlt := readInt32_lt buf (2 * ID_LENGTH + NAME_LENGTH + 4 + 4 * i)
    unfold sizeT
    omega
  have hsum := List.sum_le_card_nsmul _ _ hsmall
  rw [List.length_map, smul_eq_mul] at hsum
  omega

theorem request_sound_iff (hbuf : buf.length = BUF_SIZE - HEADER_OFFSET)
    (hinput : input.length < 2 ^ 63) :
    Valid (invocationRequest buf input) input.length ↔
      buffers buf ≤ ROOM ∧
        ((∀ x ∈ declared buf, 0 ≤ x) ∨ input.length < ((declared buf).map sizeT).sum % 2 ^ 64) := by
  by_cases hcount : buffers buf ≤ ROOM
  · have hlens : readLengths buf (buffers buf).toNat = .ok ((declared buf).map sizeT) := by
      have hn : (buffers buf).toNat ≤ ROOM := by omega
      rw [readLengths_ok hbuf hn]
      unfold declared
      rw [List.map_map]
      rfl
    have hresult : invocationRequest buf input =
        if input.length < ((declared buf).map sizeT).sum % 2 ^ 64 then .ok .raised
        else .ok (.invocation ⟨invocationId buf, functionName buf,
          slices 0 ((declared buf).map sizeT)⟩) := by
      unfold invocationRequest
      rw [hlens, ← totalLen_eq]
      rfl
    rw [hresult]
    split_ifs with hlarge
    · exact iff_of_true (Or.inl rfl) ⟨hcount, Or.inr hlarge⟩
    · constructor
      · rintro (hraised | ⟨i, hi, hinside⟩)
        · cases hraised
        · -- a negative length is a slice that no payload contains
          refine ⟨hcount, Or.inl fun x hx => ?_⟩
          obtain rfl := Handled.invocation.inj (Except.ok.inj hi)
          by_contra hneg
          rcases len_mem_slices 0 (List.mem_map_of_mem hx) with ⟨a, ha, hlen⟩
          have hmin : -2 ^ 31 ≤ x := by
            rcases List.mem_map.1 hx with ⟨j, -, rfl⟩
            exact readInt32_ge _ _
          have hhuge := sizeT_of_neg (not_le.1 hneg) hmin
          have hfits := hinside.inside a ha
          omega
      · rintro ⟨-, hnonneg | habsurd⟩
        · have hsum := sum_declared hcount hnonneg
          rw [Nat.mod_eq_of_lt hsum] at hlarge
          exact Or.inr ⟨_, rfl, inside_slices hsum (not_lt.1 hlarge)⟩
        · exact absurd habsurd hlarge
  · have hresult : invocationRequest buf input = .error .outOfBounds := by
      have hn : ROOM < (buffers buf).toNat := by omega
      unfold invocationRequest
      rw [readLengths_outOfBounds hbuf hn]
      rfl
    rw [hresult]
    constructor
    · rintro (hraised | ⟨i, hi, -⟩)
      · cases hraised
      · cases hi
    · rintro ⟨habsurd, -⟩
      exact absurd habsurd hcount

/-- A parsed request is what stands behind the type and the total length. -/
theorem buf_of_parse {data : List Byte} (h : parseMessage data = .ok (.invocationRequest buf)) :
    buf = data.drop HEADER_OFFSET := by
  unfold parseMessage at h
  split at h <;> cases h
  rfl

theorem request_cases (buf input : List Byte) :
    (∃ f, invocationRequest buf input = .error f) ∨ invocationRequest buf input = .ok .raised ∨
      ∃ i, invocationRequest buf input = .ok (.invocation i) := by
  unfold invocationRequest
  cases readLengths buf (buffers buf).toNat with
  | error f => exact Or.inl ⟨f, rfl⟩
  | ok lens =>
    by_cases hlarge : input.length < totalLen lens
    · exact Or.inr (Or.inl (if_pos hlarge))
    · exact Or.inr (Or.inr ⟨_, if_neg hlarge⟩)

/-- For every invocation request that is received, with every payload (no object is larger than
`PTRDIFF_MAX`): the call raises, or returns arguments inside the payload, if and only if the
table is no longer than the header and the check of the sum meets no negative length. -/
theorem validation_sound_iff {size : MsgSize} {v : Invoker} {w : Invoker} (rounds : ℕ)
    (hreceive : Receives size v w)
    (hrequest : parseMessage w.reader.msg.data = .ok (.invocationRequest buf))
    (hsize : w.input.data.length < 2 ^ 63) :
    Sound (v.poll size (rounds + 1)) ↔
      buffers buf ≤ ROOM ∧
        ((∀ x ∈ declared buf, 0 ≤ x) ∨
          w.input.data.length < ((declared buf).map sizeT).sum % 2 ^ 64) := by
  have hbuf : buf.length = BUF_SIZE - HEADER_OFFSET := by
    rw [buf_of_parse hrequest, List.length_drop, w.reader.msg.length_data]
    rfl
  have hhandle : handle w.application w.reader.msg.data w.input.data =
      invocationRequest buf w.input.data := by
    unfold handle
    rw [hrequest]
  rw [← request_sound_iff hbuf hsize, poll_received rounds hreceive, hhandle]
  rcases request_cases buf w.input.data with ⟨f, hresult⟩ | hresult | ⟨i, hresult⟩
  · rw [hresult]
    simp [Sound, Valid]
  · rw [hresult]
    exact iff_of_true (Or.inl rfl) (Or.inl rfl)
  · rw [hresult]
    simp [Sound, Valid]

end Sound

/-- An invocation request with the given table and no names, and its payload. -/
def withTable (table : List Int) (payload : List Byte)
    (h : TABLE + (intsBytes table).length ≤ BUF_SIZE) (fits : payload.length < 2 ^ 31) :
    Outgoing where
  msg := ((Message.new .invocationRequest).write TABLE (intsBytes table) h).sent
  body := .accessor payload
  fits := fits

/-- A worker that has received nothing yet, with one message in its queue. -/
def waiting (size : MsgSize) (o : Outgoing) : Invoker where
  reader := POSIXMQChannel.open
  queue := wire size [o]
  input := ⟨0, []⟩
  application := {}

theorem stands_waiting (size : MsgSize) (o : Outgoing) :
    Stands size (waiting size o).reader (waiting size o).queue [o] :=
  Stands.between rfl rfl le_rfl

/-- Three bytes and none, of a payload of three. -/
theorem two_arguments :
    Sound (poll ⟨128, le_rfl⟩ 1
      (waiting ⟨128, le_rfl⟩ (withTable [2, 3, 0] [7, 8, 9] (by decide) (by decide)))) := by
  rcases receive_stands (stands_waiting ⟨128, le_rfl⟩
      (withTable [2, 3, 0] [7, 8, 9] (by decide) (by decide))) rfl with
    ⟨w, hreceive, hmsg, hdata, -⟩
  have hparse : parseMessage w.reader.msg.data =
      .ok (.invocationRequest (w.reader.msg.data.drop HEADER_OFFSET)) := by
    rw [hmsg]
    decide +kernel
  apply (validation_sound_iff 0 hreceive hparse (by rw [hdata]; decide)).2
  rw [hmsg]
  exact ⟨by decide +kernel, Or.inl (by decide +kernel)⟩

/-- The lengths -1 and 1 wrap around to a sum of zero: the first argument has `2 ^ 64 - 1` bytes
of an empty payload, and the second starts before it. -/
theorem negative_length_passes :
    ∃ v, poll ⟨128, le_rfl⟩ 1
        (waiting ⟨128, le_rfl⟩ (withTable [2, -1, 1] [] (by decide) (by decide))) =
          .ok (.invocation v ⟨[], [], [⟨0, 2 ^ 64 - 1⟩, ⟨2 ^ 64 - 1, 1⟩]⟩) ∧ v.input.data = [] ∧
      ¬ Sound (poll ⟨128, le_rfl⟩ 1
        (waiting ⟨128, le_rfl⟩ (withTable [2, -1, 1] [] (by decide) (by decide)))) := by
  rcases receive_stands (stands_waiting ⟨128, le_rfl⟩
      (withTable [2, -1, 1] [] (by decide) (by decide))) rfl with
    ⟨w, hreceive, hmsg, hdata, happlication, -⟩
  have hhandle : handle {} w.reader.msg.data w.input.data =
      .ok (.invocation ⟨[], [], [⟨0, 2 ^ 64 - 1⟩, ⟨2 ^ 64 - 1, 1⟩]⟩) := by
    rw [hmsg, hdata]
    decide +kernel
  have hpoll := poll_received 0 hreceive
  rw [show w.application = {} from happlication, hhandle] at hpoll
  refine ⟨w, hpoll, hdata, ?_⟩
  rw [hpoll]
  rintro (hended | ⟨w', i, hi, hinside⟩)
  · cases hended
  · obtain ⟨rfl, rfl⟩ := Polled.invocation.inj (Except.ok.inj hi)
    have hlarge := hinside.inside ⟨0, 2 ^ 64 - 1⟩ List.mem_cons_self
    rw [hdata] at hlarge
    exact absurd hlarge (by decide)

end Invoker

end Praas.Runtime
