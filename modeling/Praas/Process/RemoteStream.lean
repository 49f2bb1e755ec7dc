import Praas.Lib.Framing
import Praas.Process.Remote

/-! # Messages on a byte stream

What the messages on one registered connection come to at the controller, when
the byte stream is cut into arbitrary chunks and `_handle_message` is called
once after each.

* `WireMessage`: a header with exactly the payload it declares.
* `handleMessage_eq`: the bound on the recursion is never reached.
* `receive_simulates`: one call does what the abstract parser of
  `Praas.Lib.Framing` does that stops after a resumed payload.
* `chunks_delivered_iff`: the controller gets exactly the messages, and the
  connection ends idle, exactly if the connection can take every message and no
  chunk but the last completes the payload of the last message or none.
-/

namespace Praas.Process.Remote

open Message Framing TCPServer

/-! ## Messages and what they hand to the controller -/

/-- The length of the payload that follows a header. -/
def declared (hd : List Byte) : ℕ :=
  match MessageParser.parse hd with
  | .ok (.invocationRequest m) => sizeT (InvocationRequest.payloadSize m)
  | .ok (.invocationResult m) => sizeT (totalLength m)
  | .ok (.putMessage m) => sizeT (totalLength m)
  | _ => 0

/-- The frames of the byte stream. -/
def format : Format Byte where
  size := BUF_SIZE
  declared := declared
  size_pos := BUF_SIZE_pos

/-- The length field of a header of one of the five types a peer sends. -/
def lengthField (hd : List Byte) : Option Int :=
  match MessageParser.parse hd with
  | .ok (.invocationRequest m) => some (InvocationRequest.payloadSize m)
  | .ok (.invocationResult m) => some (totalLength m)
  | .ok (.putMessage m) => some (totalLength m)
  | .ok (.processConnection _) => some 0
  | .ok (.applicationUpdate _) => some 0
  | _ => none

/-- A header of one of these types, with a payload of exactly the length it
declares. -/
def WellFormed (hd payload : List Byte) : Prop := lengthField hd = some (payload.length : Int)

instance (hd payload : List Byte) : Decidable (WellFormed hd payload) :=
  inferInstanceAs (Decidable (lengthField hd = some (payload.length : Int)))

theorem WellFormed.length_eq {hd payload : List Byte} (h : WellFormed hd payload) :
    payload.length = declared hd := by
  unfold WellFormed lengthField at h
  unfold declared
  split at h <;> rename_i hp
  · rw [hp]
    exact (sizeT_readInt32 (Option.some.inj h)).symm
  · rw [hp]
    exact (sizeT_readInt32 (Option.some.inj h)).symm
  · rw [hp]
    exact (sizeT_readInt32 (Option.some.inj h)).symm
  · rw [hp]
    exact Int.ofNat.inj (Option.some.inj h).symm
  · rw [hp]
    exact Int.ofNat.inj (Option.some.inj h).symm
  · cases h

/-- A well-formed message on the wire. -/
structure WireMessage where
  header : List Byte
  payload : List Byte
  header_length : header.length = BUF_SIZE
  wellFormed : WellFormed header payload

/-- The message as a frame of the stream. -/
def WireMessage.frame (m : WireMessage) : Frame format where
  header := m.header
  payload := m.payload
  header_length := m.header_length
  payload_length := m.wellFormed.length_eq

/-- What reaches the controller, whoever it is said to come from. -/
inductive Handed where
  | message (header payload : List Byte)
  | update (status : Int) (process : Str)
deriving DecidableEq, Repr

/-- What a message is to hand to the controller: a confirmation of the
registration is for the server alone. -/
def handedOf (q : List Byte × List Byte) : List Handed :=
  match MessageParser.parse q.1 with
  | .ok (.processConnection _) => []
  | .ok (.applicationUpdate m) =>
    [.update (ApplicationUpdate.statusChange m) (ApplicationUpdate.processId m)]
  | _ => [.message q.1 q.2]

/-- What a call hands to the controller. -/
def Call.handed : Call → Handed
  | .remoteMessage msg payload _ => .message msg payload
  | .dataplaneMessage msg payload => .message msg payload
  | .controlplaneMessage msg payload => .message msg payload
  | .updateApplication status process => .update status process

/-- Everything handed to the controller so far, with the TCP connection it came
from. -/
def TCPServer.handed (s : TCPServer) : List (TcpId × Handed) :=
  s.calls.map fun c => (c.1, c.2.handed)

/-- The messages a connection can take: only a peer that registered under the
name of a process can send results and PUTs. -/
def Takes (type : RemoteType) (id : Option Str) (hd : List Byte) : Prop :=
  match MessageParser.parse hd with
  | .ok (.invocationRequest _) => type = .dataPlane ∨ type = .controlPlane ∨ id.isSome
  | .ok (.invocationResult _) => id.isSome
  | .ok (.putMessage _) => id.isSome
  | _ => True

theorem deliverRequest_cases (c : Connection) (payload : List Byte) :
    (∃ k, deliverRequest c payload = .ok k ∧ k.handed = .message c.curMsg payload ∧
      (c.type = .dataPlane ∨ c.type = .controlPlane ∨ c.id.isSome)) ∨
    (∃ x, deliverRequest c payload = .error x ∧
      ¬ (c.type = .dataPlane ∨ c.type = .controlPlane ∨ c.id.isSome)) := by
  unfold deliverRequest idValue
  cases hty : c.type <;> cases hid : c.id <;> simp [Call.handed]

theorem deliverRemote_cases (c : Connection) (payload : List Byte) :
    (∃ k, deliverRemote c payload = .ok k ∧ k.handed = .message c.curMsg payload ∧
      c.id.isSome) ∨
    (∃ x, deliverRemote c payload = .error x ∧ ¬ c.id.isSome) := by
  unfold deliverRemote idValue
  cases hid : c.id <;> simp [Call.handed]

/-! ## One call on a registered connection -/

variable {t : TcpId} {r : Ref}

/-- The connection `r` of `t` stands where the abstract parser stands. -/
structure Rep (t : TcpId) (r : Ref) (type : RemoteType) (id : Option Str) (s : TCPServer)
    (p : Parser Byte) : Prop where
  context : (s.tcp t).context = some r
  allocated : r < s.next
  type_eq : (s.heap r).type = type
  id_eq : (s.heap r).id = id
  buffer : (s.tcp t).buffer = p.buf
  fresh : p.waiting = none → (s.heap r).bytesToRead = 0
  waiting : ∀ hd, p.waiting = some hd → (s.heap r).bytesToRead = declared hd ∧
    0 < declared hd ∧ (s.heap r).curMsg = hd ∧ MessageParser.parse hd = .ok (s.heap r).parsedMsg

variable {type : RemoteType} {id : Option Str}

/-- A payload handler that has just started takes the header off the buffer. -/
theorem startPayload_fresh {s : TCPServer} {len : ℕ} (hb : (s.heap r).bytesToRead = 0) :
    s.startPayload t r len =
      (s.setConn r ((s.heap r).setBytesToRead len)).retrieve t BUF_SIZE := by
  simp [startPayload, hb]

theorem startPayload_resumed {s : TCPServer} {len : ℕ} (hb : 0 < (s.heap r).bytesToRead) :
    s.startPayload t r len = s := by
  simp [startPayload, show (s.heap r).bytesToRead ≠ 0 by omega]

/-- The three message types that carry a payload. -/
def HasPayload (hd : List Byte) : Prop :=
  match MessageParser.parse hd with
  | .ok (.invocationRequest _) => True
  | .ok (.invocationResult _) => True
  | .ok (.putMessage _) => True
  | _ => False

theorem hasPayload_of_declared {hd : List Byte} (h : 0 < declared hd) : HasPayload hd := by
  unfold declared at h
  unfold HasPayload
  split <;> simp_all

/-- Whom the payload of a header is delivered to. -/
def deliverOf (hd : List Byte) : Connection → List Byte → Except Fault Call :=
  match MessageParser.parse hd with
  | .ok (.invocationRequest _) => deliverRequest
  | _ => deliverRemote

theorem deliverOf_cases {hd : List Byte} (h : HasPayload hd) (c : Connection)
    (payload : List Byte) :
    (∃ k, deliverOf hd c payload = .ok k ∧ k.handed = .message c.curMsg payload ∧
      Takes c.type c.id hd) ∨
    (∃ x, deliverOf hd c payload = .error x ∧ ¬ Takes c.type c.id hd) := by
  unfold HasPayload at h
  unfold deliverOf Takes
  split at h <;> rename_i hp
  · rw [hp]
    exact deliverRequest_cases c payload
  · rw [hp]
    exact deliverRemote_cases c payload
  · rw [hp]
    exact deliverRemote_cases c payload
  · exact h.elim

theorem handedOf_payload {hd payload : List Byte} (h : HasPayload hd) :
    handedOf (hd, payload) = [.message hd payload] := by
  unfold HasPayload at h
  unfold handedOf
  split at h <;> simp_all

/-- A header in hand is visited as its type demands, in either branch. -/
theorem dispatch_fresh {s : TCPServer} {hd : List Byte} (hpay : HasPayload hd)
    (hb : (s.heap r).bytesToRead = 0)
    (hparse : MessageParser.parse hd = .ok (s.heap r).parsedMsg) :
    s.dispatch t r =
      ((s.setConn r ((s.heap r).setBytesToRead (declared hd))).retrieve t BUF_SIZE).finishPayload
        t r (declared hd) (deliverOf hd) := by
  unfold HasPayload at hpay
  unfold declared deliverOf dispatch
  split at hpay <;> rename_i hp
  · rw [hp] at hparse ⊢
    rw [← Except.ok.inj hparse]
    simp only [handleInvocation, startPayload_fresh hb]
  · rw [hp] at hparse ⊢
    rw [← Except.ok.inj hparse]
    simp [handleInvocationResult, startPayload_fresh hb]
  · rw [hp] at hparse ⊢
    rw [← Except.ok.inj hparse]
    simp [handlePutMessage, startPayload_fresh hb]
  · exact hpay.elim

theorem resume_waiting {s : TCPServer} {hd : List Byte}
    (hb : (s.heap r).bytesToRead = declared hd) (hpos : 0 < declared hd)
    (hparse : MessageParser.parse hd = .ok (s.heap r).parsedMsg) :
    s.resume t r = s.finishPayload t r (declared hd) (deliverOf hd) := by
  have hpay := hasPayload_of_declared hpos
  have hb' : 0 < (s.heap r).bytesToRead := by omega
  unfold HasPayload at hpay
  unfold deliverOf resume
  split at hpay <;> rename_i hp
  · rw [hp] at hparse ⊢
    rw [← Except.ok.inj hparse]
    simp [handleInvocation, startPayload_resumed hb', declared, hp]
  · rw [hp] at hparse ⊢
    rw [← Except.ok.inj hparse]
    simp [handleInvocationResult, startPayload_resumed hb', hb]
  · rw [hp] at hparse ⊢
    rw [← Except.ok.inj hparse]
    simp [handlePutMessage, startPayload_resumed hb', hb]
  · exact hpay.elim

/-- A payload that is there is delivered if the connection can take it. -/
theorem finishPayload_full {s : TCPServer} {hd payload b : List Byte} (hpay : HasPayload hd)
    (hcur : (s.heap r).curMsg = hd) (hbuf : (s.tcp t).buffer = payload ++ b)
    (hlen : payload.length = declared hd) (hctx : (s.tcp t).context = some r)
    (halloc : r < s.next) :
    (∃ s', s.finishPayload t r (declared hd) (deliverOf hd) = .ok (s', true) ∧
      Rep t r (s.heap r).type (s.heap r).id s' ⟨none, b⟩ ∧
      s'.handed = s.handed ++ (handedOf (hd, payload)).map (t, ·) ∧
      Takes (s.heap r).type (s.heap r).id hd) ∨
    (∃ x, s.finishPayload t r (declared hd) (deliverOf hd) = .error x ∧
      ¬ Takes (s.heap r).type (s.heap r).id hd) := by
  have hle : declared hd ≤ (s.tcp t).buffer.length := by simp [hbuf, ← hlen]
  have htake : (s.tcp t).buffer.take (declared hd) = payload := by
    rw [hbuf, ← hlen, List.take_left]
  unfold finishPayload
  rw [if_pos hle, htake]
  rcases deliverOf_cases hpay (s.heap r) payload with ⟨k, hk, hhanded, htakes⟩ | ⟨x, hx, htakes⟩
  · refine Or.inl ⟨_, by rw [hk], ?_, ?_, htakes⟩
    · constructor
      · simpa using hctx
      · simpa using halloc
      · simp
      · simp
      · simp [hbuf, ← hlen]
      · simp
      · simp
    · rw [handedOf_payload hpay]
      simp [handed, hhanded, hcur]
  · exact Or.inr ⟨x, by rw [hx], htakes⟩

theorem finishPayload_short {s : TCPServer} {n : ℕ}
    {deliver : Connection → List Byte → Except Fault Call} (h : (s.tcp t).buffer.length < n) :
    s.finishPayload t r n deliver = .ok (s, false) := by
  unfold finishPayload
  rw [if_neg (by omega)]

/-- An update of the application touches no part of a connection that the parser
uses. -/
theorem rep_handleAppUpdate {s : TCPServer} {p : Parser Byte} (m : MessagePtr)
    (h : Rep t r type id s p) : Rep t r type id (s.handleAppUpdate t m) p := by
  simp only [handleAppUpdate, toController_connectionData]
  split
  · rename_i r' _
    by_cases hr : r = r'
    · subst hr
      exact ⟨h.context, h.allocated, by simpa using h.type_eq, by simpa using h.id_eq,
        h.buffer, by simpa using h.fresh, by simpa using h.waiting⟩
    · exact ⟨h.context, h.allocated, by simpa [hr] using h.type_eq, by simpa [hr] using h.id_eq,
        h.buffer, by simpa [hr] using h.fresh, by simpa [hr] using h.waiting⟩
  · -- the new connection is another one
    have hr : r ≠ s.next := Nat.ne_of_lt h.allocated
    exact ⟨h.context, Nat.lt_succ_of_lt h.allocated, by simpa [hr] using h.type_eq,
      by simpa [hr] using h.id_eq, h.buffer, by simpa [hr] using h.fresh,
      by simpa [hr] using h.waiting⟩

theorem handed_handleAppUpdate (s : TCPServer) (m : MessagePtr) :
    (s.handleAppUpdate t m).handed = s.handed ++
      [(t, .update (ApplicationUpdate.statusChange m) (ApplicationUpdate.processId m))] := by
  simp only [handleAppUpdate, toController_connectionData]
  split <;> simp [handed, Call.handed]

/-- Retrieving from the buffer of an idle parser. -/
theorem rep_retrieve {s : TCPServer} {b : List Byte} (n : ℕ)
    (h : Rep t r type id s ⟨none, b⟩) : Rep t r type id (s.retrieve t n) ⟨none, b.drop n⟩ :=
  ⟨by simpa using h.context, h.allocated, h.type_eq, h.id_eq, by simp [h.buffer], h.fresh,
    by simp⟩

/-- The header that has been read is stored in the connection. -/
theorem rep_setMsg {s : TCPServer} {b : List Byte} (hd : List Byte) (v : MessageVariants)
    (h : Rep t r type id s ⟨none, b⟩) :
    Rep t r type id (s.setConn r ((s.heap r).setMsg hd v)) ⟨none, b⟩ :=
  ⟨h.context, h.allocated, by simpa using h.type_eq, by simpa using h.id_eq, h.buffer,
    by simpa using h.fresh, by simp⟩

/-- What an idle connection does with a header, once it is there. -/
theorem handleOnce_header {s : TCPServer} {hd b : List Byte} {v : MessageVariants}
    (h : Rep t r type id s ⟨none, hd ++ b⟩) (hhd : hd.length = BUF_SIZE)
    (hparse : MessageParser.parse hd = .ok v) :
    s.handleOnce t =
      ((s.setConn r ((s.heap r).setMsg hd v)).dispatch t r).map fun q =>
        (q.1, q.2 && decide (0 < (q.1.tcp t).buffer.length)) := by
  have hb : (s.heap r).bytesToRead = 0 := h.fresh rfl
  have htake : (s.tcp t).buffer.take BUF_SIZE = hd := by
    rw [h.buffer, ← hhd, List.take_left]
  have hlen : ¬ (s.tcp t).buffer.length < BUF_SIZE := by
    rw [h.buffer, List.length_append, hhd]
    omega
  unfold handleOnce
  simp only [h.context, hb, Nat.lt_irrefl, if_false, if_neg hlen, htake, hparse]

theorem handleOnce_short {s : TCPServer} {b : List Byte} (h : Rep t r type id s ⟨none, b⟩)
    (hlen : b.length < BUF_SIZE) : s.handleOnce t = .ok (s, false) := by
  have hb : (s.heap r).bytesToRead = 0 := h.fresh rfl
  have hlen' : (s.tcp t).buffer.length < BUF_SIZE := by rw [h.buffer]; exact hlen
  unfold handleOnce
  simp only [h.context, hb, Nat.lt_irrefl, if_false, if_pos hlen']

/-- A header without its payload: the connection waits for the payload. -/
theorem handleOnce_partial {s : TCPServer} {hd b : List Byte}
    (h : Rep t r type id s ⟨none, hd ++ b⟩) (hhd : hd.length = BUF_SIZE)
    (hlen : b.length < declared hd) :
    ∃ s', s.handleOnce t = .ok (s', false) ∧ Rep t r type id s' ⟨some hd, b⟩ ∧
      s'.handed = s.handed := by
  have hpos : 0 < declared hd := by omega
  have hpay := hasPayload_of_declared hpos
  obtain ⟨v, hv⟩ : ∃ v, MessageParser.parse hd = .ok v := by
    unfold HasPayload at hpay
    split at hpay <;> simp_all
  have hdrop : (hd ++ b).drop BUF_SIZE = b := by rw [← hhd, List.drop_left]
  have hset := rep_setMsg hd v h
  have hdisp := dispatch_fresh (t := t) hpay (hset.fresh rfl) (by simpa using hv)
  rw [finishPayload_short (by simpa [h.buffer, hdrop] using hlen)] at hdisp
  refine ⟨_, by rw [handleOnce_header h hhd hv, hdisp]; rfl, ?_, ?_⟩
  swap
  · simp [handed]
  refine ⟨by simpa using h.context, h.allocated, by simpa using h.type_eq,
    by simpa using h.id_eq, by simp [h.buffer, hdrop], by simp, ?_⟩
  intro hd' hhd'
  obtain rfl : hd = hd' := by simpa using hhd'
  exact ⟨by simp, hpos, by simp, by simpa using hv⟩

/-- What came of a call that was to deliver the messages `qs` and to leave the
parser at `p`: it did, and the connection could take all of them, or it raised. -/
def Outcome (t : TcpId) (r : Ref) (type : RemoteType) (id : Option Str) (s : TCPServer)
    (res : Except Fault TCPServer) (p : Parser Byte) (qs : List (List Byte × List Byte))
    (todo : List (Frame format)) : Prop :=
  (∃ s', res = .ok s' ∧ Rep t r type id s' p ∧
    s'.handed = s.handed ++ qs.flatMap (fun q => (handedOf q).map (t, ·)) ∧
    ∀ q ∈ qs, Takes type id q.1) ∨
  (∃ x, res = .error x ∧ ∃ f ∈ todo, ¬ Takes type id f.parts.1)

/-- A complete message is consumed, and the rest of the buffer is looked at. -/
theorem handleOnce_frame {s : TCPServer} {hd payload b : List Byte}
    (h : Rep t r type id s ⟨none, hd ++ (payload ++ b)⟩) (hhd : hd.length = BUF_SIZE)
    (hwf : WellFormed hd payload) :
    (∃ s', s.handleOnce t = .ok (s', decide (0 < b.length)) ∧ Rep t r type id s' ⟨none, b⟩ ∧
      s'.handed = s.handed ++ (handedOf (hd, payload)).map (t, ·) ∧ Takes type id hd) ∨
    (∃ x, s.handleOnce t = .error x ∧ ¬ Takes type id hd) := by
  obtain ⟨v, hv⟩ : ∃ v, MessageParser.parse hd = .ok v := by
    unfold WellFormed lengthField at hwf
    split at hwf <;> simp_all
  have hset := rep_setMsg hd v h
  rw [handleOnce_header h hhd hv]
  have hdrop : (hd ++ (payload ++ b)).drop BUF_SIZE = payload ++ b := by
    rw [← hhd, List.drop_left]
  by_cases hpay : HasPayload hd
  · -- the payload goes to the controller
    rw [dispatch_fresh hpay (hset.fresh rfl) (by simpa using hv)]
    rcases finishPayload_full (t := t) (r := r)
        (s := ((s.setConn r ((s.heap r).setMsg hd v)).setConn r
          (((s.setConn r ((s.heap r).setMsg hd v)).heap r).setBytesToRead (declared hd))).retrieve
            t BUF_SIZE) (b := b)
        hpay (by simp) (by simp [h.buffer, hdrop]) hwf.length_eq (by simpa using h.context)
        h.allocated with ⟨s', hs', hrep, hhanded, htakes⟩ | ⟨x, hx, htakes⟩
    · refine Or.inl ⟨s', ?_, ?_, ?_, ?_⟩
      · rw [hs']
        simp [Except.map, hrep.buffer]
      · simpa [h.type_eq, h.id_eq] using hrep
      · simpa [handed] using hhanded
      · simpa [h.type_eq, h.id_eq] using htakes
    · exact Or.inr ⟨x, by rw [hx]; rfl, by simpa [h.type_eq, h.id_eq] using htakes⟩
  · -- the other types are a header alone
    have hpayload : payload = [] := by
      have hzero : ¬ 0 < declared hd := fun hpos => hpay (hasPayload_of_declared hpos)
      exact List.length_eq_zero_iff.1 (by rw [hwf.length_eq]; omega)
    subst hpayload
    rw [List.nil_append] at h hset hdrop
    refine Or.inl ?_
    unfold WellFormed lengthField at hwf
    rw [hv] at hwf
    unfold HasPayload at hpay
    rw [hv] at hpay
    cases v with
    | processConnection m =>
      have hrep := rep_retrieve BUF_SIZE hset
      rw [hdrop] at hrep
      refine ⟨_, ?_, hrep, ?_, ?_⟩
      · simp [Except.map, dispatch, h.buffer, hdrop]
      · simp [handed, handedOf, hv]
      · simp [Takes, hv]
    | applicationUpdate m =>
      have hrep := rep_retrieve BUF_SIZE (rep_handleAppUpdate (t := t) m hset)
      rw [hdrop] at hrep
      refine ⟨_, ?_, hrep, ?_, ?_⟩
      · have hbuf := hrep.buffer
        simp only [retrieve_tcp, Function.update_self] at hbuf
        simp [Except.map, dispatch, ← hbuf]
      · have hup := handed_handleAppUpdate (t := t) (s.setConn r ((s.heap r).setMsg hd
          (.applicationUpdate m))) m
        simpa [handed, handedOf, hv] using hup
      · simp [Takes, hv]
    | _ => simp_all

/-! ## The recursion -/

/-- `_handle_message` up to its fuel: a pass on an idle connection that calls
itself again has left fewer bytes in the buffer. -/
theorem handleLoop_drain {fs : List (Frame format)} {b tail : List Byte} {n : ℕ} {s : TCPServer}
    (hb : b ++ tail = stream fs) (hwf : ∀ f ∈ fs, WellFormed f.header f.payload)
    (hn : b.length < n) (h : Rep t r type id s ⟨none, b⟩) :
    Outcome t r type id s (handleLoop n s t) (drain format b).1 (drain format b).2 fs := by
  induction fs generalizing b n s with
  | nil =>
    have hnil : b = [] := by
      have hlen := congrArg List.length hb
      simp at hlen
      exact hlen.1
    subst hnil
    obtain ⟨n, rfl⟩ : ∃ k, n = k + 1 := ⟨n - 1, by omega⟩
    have honce := handleOnce_short h (by decide)
    rw [drain_nil]
    exact Or.inl ⟨s, by simp only [handleLoop, honce], h, by simp, by simp⟩
  | cons f fs ih =>
    obtain ⟨n, rfl⟩ : ∃ k, n = k + 1 := ⟨n - 1, by omega⟩
    rcases prefix_cases hb with hshort | ⟨b', rfl, hpay⟩ | ⟨b', rfl, hrest⟩
    · -- not even the header is there
      have honce := handleOnce_short h hshort
      rw [drain_short hshort]
      exact Or.inl ⟨s, by simp only [handleLoop, honce], h, by simp, by simp⟩
    · -- the header is there, the payload is not
      obtain ⟨s', hs', hrep, hhanded⟩ :=
        handleOnce_partial h f.header_length (by rw [f.payload_length] at hpay; exact hpay)
      rw [drain_header hpay]
      exact Or.inl ⟨s', by simp only [handleLoop, hs'], hrep, by simp [hhanded], by simp⟩
    · -- the whole message is there
      rw [drain_frame]
      rcases handleOnce_frame h f.header_length (hwf f (by simp)) with
        ⟨s', hs', hrep, hhanded, htakes⟩ | ⟨x, hx, htakes⟩
      · have hlen : b'.length < n := by
          have hsize : 0 < f.header.length := by rw [f.header_length]; exact format.size_pos
          simp only [List.length_append] at hn
          omega
        have hloop : handleLoop (n + 1) s t = handleLoop n s' t ∨
            (b' = [] ∧ handleLoop (n + 1) s t = .ok s') := by
          simp only [handleLoop, hs']
          rcases Nat.eq_zero_or_pos b'.length with hzero | hpos
          · exact Or.inr ⟨List.length_eq_zero_iff.1 hzero, by simp [hzero]⟩
          · exact Or.inl (by simp [hpos])
        have hnext : Outcome t r type id s' (handleLoop (n + 1) s t) (drain format b').1
            (drain format b').2 fs := by
          rcases hloop with hloop | ⟨hnil, hloop⟩
          · rw [hloop]
            exact ih hrest (fun g hg => hwf g (by simp [hg])) hlen hrep
          · -- an empty buffer is not looked at again
            subst hnil
            rw [hloop, drain_nil]
            exact Or.inl ⟨s', rfl, hrep, by simp, by simp⟩
        rcases hnext with ⟨s'', hs'', hrep', hhanded', htakes'⟩ | ⟨x, hx, g, hg, hbad⟩
        · refine Or.inl ⟨s'', hs'', hrep', ?_, ?_⟩
          · rw [hhanded', hhanded, List.flatMap_cons, List.append_assoc]
            rfl
          · intro q hq
            rcases List.mem_cons.1 hq with rfl | hq
            · exact htakes
            · exact htakes' q hq
        · exact Or.inr ⟨x, hx, g, List.mem_cons_of_mem _ hg, hbad⟩
      · exact Or.inr ⟨x, by simp only [handleLoop, hx], f, by simp, htakes⟩

/-- A waiting connection consumes its payload when it is there, and stops. -/
theorem handleOnce_waiting {s : TCPServer} {f : Frame format} {b : List Byte}
    (h : Rep t r type id s ⟨some f.header, b⟩) :
    Outcome t r type id s (handleLoop ((s.tcp t).buffer.length + 1) s t)
      (call format false ⟨some f.header, []⟩ b).1 (call format false ⟨some f.header, []⟩ b).2
      [f] := by
  obtain ⟨hb, hpos, hcur, hparse⟩ := h.waiting f.header rfl
  have hbuf : (s.tcp t).buffer = b := h.buffer
  by_cases hshort : b.length < declared f.header
  · -- not enough bytes
    have honce : s.handleOnce t = .ok (s, false) := by
      simp [handleOnce, h.context, hbuf, hb, hpos, hshort]
    have hcall : call format false ⟨some f.header, []⟩ b = (⟨some f.header, b⟩, []) := by
      simp [call, format, hshort]
    rw [hcall]
    exact Or.inl ⟨s, by simp only [handleLoop, honce], h, by simp, by simp⟩
  · obtain ⟨payload, b', rfl, hlen⟩ : ∃ p q, b = p ++ q ∧ p.length = declared f.header :=
      ⟨b.take (declared f.header), b.drop (declared f.header),
        (List.take_append_drop _ _).symm, by rw [List.length_take]; omega⟩
    have hcall : call format false ⟨some f.header, []⟩ (payload ++ b') =
        (⟨none, b'⟩, [(f.header, payload)]) := by
      simp [call, format, ← hlen]
    have honce : s.handleOnce t =
        (s.finishPayload t r (declared f.header) (deliverOf f.header)).map
          fun q => (q.1, false) := by
      unfold handleOnce
      rw [← resume_waiting hb hpos hparse]
      simp only [h.context, hbuf, hb, if_pos hpos, if_neg hshort]
    rw [hcall]
    rcases finishPayload_full (t := t) (r := r) (hasPayload_of_declared hpos) hcur hbuf hlen
        h.context h.allocated with ⟨s', hs', hrep, hhanded, htakes⟩ | ⟨x, hx, htakes⟩
    · rw [h.type_eq, h.id_eq] at hrep htakes
      refine Or.inl ⟨s', by simp only [handleLoop, honce, hs', Except.map], hrep, by simp [hhanded], ?_⟩
      simpa using htakes
    · rw [h.type_eq, h.id_eq] at htakes
      exact Or.inr ⟨x, by simp only [handleLoop, honce, hx, Except.map], f, by simp, htakes⟩

/-- Appending a chunk to the buffer. -/
theorem rep_append {s : TCPServer} {p : Parser Byte} (c : List Byte)
    (h : Rep t r type id s p) : Rep t r type id (s.append t c) ⟨p.waiting, p.buf ++ c⟩ :=
  ⟨by simpa using h.context, h.allocated, h.type_eq, h.id_eq, by simp [h.buffer], h.fresh,
    h.waiting⟩

/-- One call of `_handle_message` does what the parser does that stops after a
resumed payload. -/
theorem receive_simulates (s : TCPServer) (p : Parser Byte) (c rest : List Byte)
    (todo : List (Frame format)) (howes : Owes (c ++ rest) p todo)
    (hwf : ∀ f ∈ todo, WellFormed f.header f.payload) (h : Rep t r type id s p) :
    Outcome t r type id s (s.receive t c) (call format false p c).1 (call format false p c).2
      todo := by
  have happ := rep_append c h
  have hhanded : (s.append t c).handed = s.handed := rfl
  cases howes with
  | idle b _ hb =>
    have hlen : (b ++ c).length < ((s.append t c).tcp t).buffer.length + 1 := by
      rw [happ.buffer]
      exact Nat.lt_succ_self _
    exact handleLoop_drain (by rw [List.append_assoc]; exact hb) hwf hlen happ
  | waiting f b fs hshort hb =>
    have hout := handleOnce_waiting happ
    have hcall : call format false ⟨some f.header, []⟩ (b ++ c) =
        call format false ⟨some f.header, b⟩ c := rfl
    rw [hcall] at hout
    rcases hout with hok | ⟨x, hx, g, hg, hbad⟩
    · exact Or.inl hok
    · obtain rfl : g = f := by simpa using hg
      exact Or.inr ⟨x, hx, g, by simp, hbad⟩

/-! ## Whole streams -/

/-- The TCP connection `t` belongs to a registered peer, `r` being its
`Connection`. -/
structure Registered (s : TCPServer) (t : TcpId) (r : Ref) : Prop where
  context : (s.tcp t).context = some r
  allocated : r < s.next

/-- Nothing is owed on the connection and nothing is left to read. -/
structure Idle (s : TCPServer) (t : TcpId) (r : Ref) : Prop where
  bytesToRead : (s.heap r).bytesToRead = 0
  buffer : (s.tcp t).buffer = []

/-- An idle connection stands where a parser stands that has read nothing. -/
theorem rep_idle {s : TCPServer} (hreg : Registered s t r) (hidle : Idle s t r) :
    Rep t r (s.heap r).type (s.heap r).id s Parser.idle :=
  ⟨hreg.context, hreg.allocated, rfl, rfl, hidle.buffer, fun _ => hidle.bytesToRead, by
    simp [Parser.idle]⟩

/-- The bytes of a sequence of messages. -/
def wire (ms : List WireMessage) : List Byte := ms.flatMap fun m => m.header ++ m.payload

/-- The chunks `cs` on `t`, each followed by one call of `_handle_message`, hand
the messages `ms` to the controller, in order and each with its payload, and
leave the connection idle. -/
def Delivered (s : TCPServer) (t : TcpId) (r : Ref) (ms : List WireMessage)
    (cs : List (List Byte)) : Prop :=
  ∃ s', Lts.run (fun s c => s.receive t c) s cs = .ok s' ∧
    s'.handed = s.handed ++ ms.flatMap (fun m => (handedOf (m.header, m.payload)).map (t, ·)) ∧
    Registered s' t r ∧ Idle s' t r

/-- An idle connection represents an idle parser. -/
theorem Rep.eq_idle {s : TCPServer} {p : Parser Byte} (h : Rep t r type id s p)
    (hidle : Idle s t r) : p = Parser.idle := by
  have hbuf : p.buf = [] := by rw [← h.buffer, hidle.buffer]
  have hwait : p.waiting = none := by
    rcases hp : p.waiting with _ | hd
    · rfl
    · have hw := h.waiting hd hp
      have hzero := hidle.bytesToRead
      omega
  cases p
  simp_all [Parser.idle]

theorem wire_eq_stream (ms : List WireMessage) : wire ms = stream (ms.map WireMessage.frame) := by
  simp [wire, stream, List.flatMap_map, Frame.bytes, WireMessage.frame]

/-- The whole run, chunk by chunk. -/
theorem run_receive_simulates {s : TCPServer} {ms : List WireMessage} {cs : List (List Byte)}
    (hcs : cs.flatten = wire ms) (h : Rep t r type id s Parser.idle) :
    Outcome t r type id s (Lts.run (fun s c => s.receive t c) s cs) (feed format false Parser.idle cs).1
      (feed format false Parser.idle cs).2 (ms.map WireMessage.frame) := by
  have howes : Owes cs.flatten Parser.idle (ms.map WireMessage.frame) :=
    Owes.idle [] _ (by rw [hcs, wire_eq_stream, List.nil_append])
  have hwf : ∀ f ∈ ms.map WireMessage.frame, WellFormed f.header f.payload := by
    intro f hf
    obtain ⟨m, -, rfl⟩ := List.mem_map.1 hf
    exact m.wellFormed
  exact feed_simulation (fun s p c rest todo => receive_simulates s p c rest todo) cs s
    Parser.idle _ howes hwf h

/-- **Chunking.** Whatever the chunks, the messages reach the controller and the
connection ends idle exactly if the connection can take each of them and, before
the last chunk, it does not wait for the payload of a message other than the
last: bytes that arrive together with the end of an awaited payload are not
looked at before the next chunk. -/
theorem chunks_delivered_iff (s : TCPServer) (t : TcpId) (r : Ref) (hreg : Registered s t r)
    (hidle : Idle s t r) (ms : List WireMessage) (cs : List (List Byte))
    (hcs : cs.flatten = wire ms) :
    Delivered s t r ms cs ↔
      (∀ m ∈ ms, Takes (s.heap r).type (s.heap r).id m.header) ∧
      ∀ i, waitAfter (ms.map WireMessage.frame) (cs.dropLast.map List.length) = some i →
        i + 1 = ms.length := by
  have hsim := run_receive_simulates hcs (rep_idle hreg hidle)
  have hfeed : feed format false Parser.idle cs =
        (Parser.idle, (ms.map WireMessage.frame).map Frame.parts) ↔
      ∀ i, waitAfter (ms.map WireMessage.frame) (cs.dropLast.map List.length) = some i →
        i + 1 = ms.length := by
    rcases List.eq_nil_or_concat cs with rfl | ⟨cs', c, rfl⟩
    · have hnil : ms = [] := by
        have hstream : stream (ms.map WireMessage.frame) = [] := by
          rw [← wire_eq_stream, ← hcs, List.flatten_nil]
        simpa using stream_eq_nil.1 hstream
      subst hnil
      simp [feed, waitAfter, waitFrom]
    · rw [List.concat_eq_append] at hcs ⊢
      rw [feed_once_iff _ cs' c (by rw [hcs, wire_eq_stream]), List.dropLast_concat,
        List.length_map]
  have hparts : ∀ qs : List (List Byte × List Byte),
      qs = (ms.map WireMessage.frame).map Frame.parts →
      qs.flatMap (fun q => (handedOf q).map (t, ·)) =
        ms.flatMap (fun m => (handedOf (m.header, m.payload)).map (t, ·)) := by
    intro qs hqs
    simp [hqs, List.flatMap_map, Frame.parts, WireMessage.frame]
  constructor
  · rintro ⟨s', hs', -, hreg', hidle'⟩
    rcases hsim with ⟨s'', hs'', hrep', -, htakes⟩ | ⟨x, hx, -⟩
    · -- an idle connection represents an idle parser, which owes nothing
      obtain rfl : s' = s'' := by simpa [hs'] using hs''
      have hend := hrep'.eq_idle hidle'
      have howes : Owes (cs.flatten ++ []) Parser.idle (ms.map WireMessage.frame) :=
        Owes.idle [] _ (by rw [hcs, wire_eq_stream]; simp)
      obtain ⟨done, todo, htodo, hout, hrest⟩ := owes_feed false howes
      rw [hend] at hrest
      obtain rfl := owes_nil_idle hrest
      rw [List.append_nil] at htodo
      rw [← htodo] at hout
      refine ⟨fun m hm => ?_, hfeed.1 (Prod.ext hend hout)⟩
      exact htakes _ (by rw [hout]; exact List.mem_map_of_mem (List.mem_map_of_mem hm))
    · simp [hs'] at hx
  · rintro ⟨htakes, hwait⟩
    rcases hsim with ⟨s', hs', hrep', hhanded, -⟩ | ⟨x, -, f, hf, hbad⟩
    · rw [hfeed.2 hwait] at hrep' hhanded
      refine ⟨s', hs', ?_, ⟨hrep'.context, hrep'.allocated⟩, ⟨hrep'.fresh rfl, hrep'.buffer⟩⟩
      rw [hhanded, hparts _ rfl]
    · obtain ⟨m, hm, rfl⟩ := List.mem_map.1 hf
      exact absurd (htakes m hm) hbad

/-- A request with two bytes of payload. -/
def sampleRequest : WireMessage where
  header := [4, 0, 2, 0, 0, 0, 2, 0, 0, 0] ++ List.replicate 60 0
  payload := [1, 2]
  header_length := by decide
  wellFormed := by decide

/-- A PUT of an empty message. -/
def samplePut : WireMessage where
  header := [9, 0] ++ List.replicate 68 0
  payload := []
  header_length := by decide
  wellFormed := by decide

/-- A server at which the process `p` has registered on the TCP connection 0. -/
def samplePeer : TCPServer :=
  ((TCPServer.new (str ['q'])).emplace (str ['p']) (registered (str ['p']) 0)).setContext 0 0

/-- The chunks end on the boundaries of header, payload and header. -/
theorem chunks_delivered_at_boundaries :
    Delivered samplePeer 0 0 [sampleRequest, samplePut]
      [sampleRequest.header, sampleRequest.payload, samplePut.header] := by
  have hwait : waitAfter ([sampleRequest, samplePut].map WireMessage.frame)
      ([sampleRequest.header, sampleRequest.payload].map List.length) = none := by decide
  refine (chunks_delivered_iff samplePeer 0 0 ⟨rfl, by decide⟩ ⟨by decide, rfl⟩
    [sampleRequest, samplePut] _ (by decide)).2 ⟨?_, ?_⟩
  · intro m hm
    rcases List.mem_cons.1 hm with rfl | hm
    · exact Or.inr (Or.inr (by decide))
    · obtain rfl : m = samplePut := by simpa using hm
      show (Option.isSome _) = true
      decide
  · intro i hi
    have hi' : waitAfter ([sampleRequest, samplePut].map WireMessage.frame)
      ([sampleRequest.header, sampleRequest.payload].map List.length) = some i := hi
    rw [hwait] at hi'
    cases hi'

/-- A PUT that arrives in one chunk with the end of an awaited payload stays in
the buffer. -/
theorem chunk_left_in_buffer :
    ¬ ∀ (s : TCPServer) (t : TcpId) (r : Ref), Registered s t r → Idle s t r →
      ∀ (ms : List WireMessage) (cs : List (List Byte)), (∀ c ∈ cs, c ≠ []) →
        cs.flatten = wire ms → Delivered s t r ms cs := by
  intro h
  obtain ⟨s', hs', -, -, hidle⟩ := h samplePeer 0 0 ⟨rfl, by decide⟩ ⟨by decide, rfl⟩
    [sampleRequest, samplePut] [sampleRequest.header, sampleRequest.payload ++ samplePut.header]
    (by decide) (by decide)
  have hleft : (Lts.run (fun s c => s.receive 0 c) samplePeer
      [sampleRequest.header, sampleRequest.payload ++ samplePut.header]).toOption.map
        (fun s => (s.tcp 0).buffer.length) = some 70 := by decide
  rw [hs'] at hleft
  simp [Except.toOption, hidle.buffer] at hleft

end Praas.Process.Remote
