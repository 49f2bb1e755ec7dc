import Praas.ControlPlane.Allocation
import Praas.Process.StringViews

/-! # Process names and the messages that carry them

`add_process` takes any name that is not empty. The process registers under it, is announced
and addressed with it, in headers of two formats whose fields have widths of their own.

* `Writes.carries_iff`: which names a field carries; `sent_iff`, `queued_iff` for either format.
* `carried_iff`: which names of processes that can be created all of them carry.
* `registered_not_invoked`: longer names register, and only an invocation cannot be
  addressed with them.
-/

namespace Praas.ControlPlane.ProcessNames

/-- Any header of the type takes the name, parses as its type, and gives the name back. -/
def Sent (t : Message.MessageType)
    (set : Message.MessageData → StringView → Except Fault Message.MessageData)
    (get : Message.MessagePtr → Str) (name : Str) : Prop :=
  ∀ m : Message.MessageData, m.buf.take 2 = leBytes 2 t.code →
    ∃ m', set m (.ofStr name) = .ok m' ∧
      Message.MessageParser.parse m'.buf = .ok (t.variant m'.buf) ∧ get m'.buf = name

/-- The same for the headers on the queues to the workers, whose getters are over the bytes
behind the offset. -/
def Queued (t : Process.IpcHeader.MessageType)
    (set : Process.IpcHeader.Message → StringView → Except Fault Process.IpcHeader.Message)
    (get : List Byte → Str) (name : Str) : Prop :=
  ∀ m : Process.IpcHeader.Message, m.data.take 2 = leBytes 2 t.code →
    ∃ m' v, set m (.ofStr name) = .ok m' ∧ m'.parse = .ok v ∧
      t.variant (m'.data.drop Process.IpcHeader.HEADER_OFFSET) = some v ∧
      get (m'.data.drop Process.IpcHeader.HEADER_OFFSET) = name

/-- All messages that name a process: its own registration, the updates about it, and the
messages that are addressed to it, on a connection and on the queues. -/
structure Carried (name : Str) : Prop where
  registration : Sent .processConnection Message.ProcessConnection.setProcessName
    Message.ProcessConnection.processName name
  update : Sent .applicationUpdate Message.ApplicationUpdate.setProcessId
    Message.ApplicationUpdate.processId name
  put : Sent .putMessage Message.PutMessage.setProcessId Message.PutMessage.processId name
  workerUpdate : Queued .applicationUpdate Process.IpcHeader.ApplicationUpdate.setProcessId
    Process.IpcHeader.ApplicationUpdateParsed.processId name
  workerGet : Queued .getRequest Process.IpcHeader.GenericRequest.setProcessId
    Process.IpcHeader.GenericRequestParsed.processId name
  workerPut : Queued .putRequest Process.IpcHeader.GenericRequest.setProcessId
    Process.IpcHeader.GenericRequestParsed.processId name
  workerInvoke : Queued .invocationRequest Process.IpcHeader.InvocationRequest.setProcessId
    Process.IpcHeader.InvocationRequestParsed.processId name

/-! ## One field -/

section Field

variable {bs : List Byte} {off limit : ℕ} {name : Str}

/-- The name that is read where it was written. -/
theorem cstr_splice (h : off + limit ≤ bs.length) (name : Str) :
    cstr (splice bs off (strncpy (StringView.ofStr name).data limit)) off limit =
      ((StringView.ofStr name).data.take limit).takeWhile (· ≠ 0) := by
  have hfront : (bs.take off).length = off := by
    rw [List.length_take]
    omega
  unfold cstr splice
  rw [List.append_assoc, List.drop_left' hfront, List.take_left' (length_strncpy _ _)]
  have hread := Header.Kind.takeWhile_strncpy (StringView.ofStr name).data limit 0
  rwa [List.replicate_zero, List.append_nil] at hread

/-- A string is followed by its terminator, so that only its own bytes can end it early. -/
theorem name_read_iff (h : off + limit ≤ bs.length) (hfits : name.length ≤ limit) :
    cstr (splice bs off (strncpy (StringView.ofStr name).data limit)) off limit = name ↔
      (0 : Byte) ∉ name := by
  have hslice : (StringView.ofStr name).length < (StringView.ofStr name).data.length := by
    simp [StringView.ofStr]
  have hnul : (StringView.ofStr name).data[(StringView.ofStr name).length]? = some 0 := by
    simp [StringView.ofStr]
  have hread := Header.Kind.takeWhile_take_iff hfits hslice
  rw [Header.Kind.chars_ofStr] at hread
  rw [cstr_splice h, hread]
  exact ⟨fun hends => hends.1, fun hfree => ⟨hfree, Or.inr hnul⟩⟩

end Field

/-- The setter of a field rejects a name that is longer, and writes any other there. -/
structure Writes {σ : Type} (bytes : σ → List Byte) (set : σ → StringView → Except Fault σ)
    (off limit : ℕ) : Prop where
  inside : ∀ m, off + limit ≤ (bytes m).length
  rejects : ∀ {m v}, limit < v.length → ∃ e, set m v = .error e
  writes : ∀ {m v}, ¬ limit < v.length →
    ∃ m', set m v = .ok m' ∧ bytes m' = splice (bytes m) off (strncpy v.data limit)

/-- The names that the field carries in headers of a type, which the setter keeps. -/
theorem Writes.carries_iff {σ : Type} {bytes : σ → List Byte}
    {set : σ → StringView → Except Fault σ} {off limit : ℕ} (h : Writes bytes set off limit)
    (hoff : 2 ≤ off) {type : List Byte} {parses : σ → Prop}
    (hparses : ∀ m, (bytes m).take 2 = type → parses m) {o : σ} (ho : (bytes o).take 2 = type)
    {name : Str} :
    (∀ m, (bytes m).take 2 = type → ∃ m', set m (.ofStr name) = .ok m' ∧ parses m' ∧
      cstr (bytes m') off limit = name) ↔ name.length ≤ limit ∧ (0 : Byte) ∉ name := by
  constructor
  · intro hall
    rcases hall o ho with ⟨m', hset, -, hget⟩
    have hfits : ¬ limit < (StringView.ofStr name).length := by
      intro hlong
      rcases h.rejects hlong with ⟨e, he⟩
      cases he.symm.trans hset
    rcases h.writes hfits with ⟨m'', hset', hbytes⟩
    obtain rfl := Except.ok.inj (hset'.symm.trans hset)
    rw [hbytes] at hget
    exact ⟨not_lt.1 hfits, (name_read_iff (h.inside o) (not_lt.1 hfits)).1 hget⟩
  · rintro ⟨hfits, hfree⟩ m htype
    have hview : ¬ limit < (StringView.ofStr name).length := not_lt.2 hfits
    rcases @h.writes m _ hview with ⟨m', hset, hbytes⟩
    refine ⟨m', hset, hparses m' ?_, ?_⟩
    · rw [hbytes, take_splice hoff ((Nat.le_add_right _ _).trans (h.inside m))]
      exact htype
    · rw [hbytes]
      exact (name_read_iff (h.inside m) hfits).2 hfree

theorem sent_iff {t : Message.MessageType} (ht : t ≠ .genericHeader) (what : String)
    (off limit : ℕ) (hinside : off + limit ≤ Message.BUF_SIZE) (hoff : 2 ≤ off) {name : Str} :
    Sent t (fun m v => m.setStr what off limit hinside v) (fun m => cstr m off limit) name ↔
      name.length ≤ limit ∧ (0 : Byte) ∉ name := by
  have hwrites : Writes Message.MessageData.buf (fun m v => m.setStr what off limit hinside v)
      off limit := by
    constructor
    · intro m
      rw [m.length_buf]
      exact hinside
    · intro m v hlong
      exact ⟨_, if_pos hlong⟩
    · intro m v hfits
      exact ⟨_, if_neg hfits, rfl⟩
  exact hwrites.carries_iff hoff (fun m => Message.parse_of_type ht)
    (Message.MessageData.take_new t)

theorem queued_iff {t : Process.IpcHeader.MessageType} (ht : t ≠ .genericHeader) (what : String)
    (off limit : ℕ) (hinside : Process.IpcHeader.HEADER_OFFSET + off + limit ≤
      Process.IpcHeader.BUF_SIZE) {name : Str} :
    Queued t (fun m v => m.setStr what (Process.IpcHeader.HEADER_OFFSET + off) limit hinside v)
        (fun buf => cstr buf off limit) name ↔
      name.length ≤ limit ∧ (0 : Byte) ∉ name := by
  have hwrites : Writes Process.IpcHeader.Message.data
      (fun m v => m.setStr what (Process.IpcHeader.HEADER_OFFSET + off) limit hinside v)
      (Process.IpcHeader.HEADER_OFFSET + off) limit := by
    constructor
    · intro m
      rw [m.length_data]
      exact hinside
    · intro m v hlong
      exact ⟨_, if_pos hlong⟩
    · intro m v hfits
      exact ⟨_, if_neg hfits, rfl⟩
  have hvariant : ∀ buf, ∃ v, t.variant buf = some v := by
    intro buf
    cases t with
    | genericHeader => exact absurd rfl ht
    | _ => exact ⟨_, rfl⟩
  have hparses : ∀ m : Process.IpcHeader.Message, m.data.take 2 = leBytes 2 t.code → ∃ v,
      m.parse = .ok v ∧ t.variant (m.data.drop Process.IpcHeader.HEADER_OFFSET) = some v := by
    intro m htype
    rcases hvariant (m.data.drop Process.IpcHeader.HEADER_OFFSET) with ⟨v, hv⟩
    exact ⟨v, Process.IpcHeader.parse_of_type hv htype, hv⟩
  have hnew : (Process.IpcHeader.Message.new t).data.take 2 = leBytes 2 t.code :=
    List.take_left' (length_leBytes 2 t.code)
  rw [← hwrites.carries_iff (Nat.le_add_right_of_le (by decide)) hparses hnew]
  unfold Queued
  simp only [Process.IpcHeader.cstr_drop]
  constructor
  · intro h m htype
    rcases h m htype with ⟨m', v, hset, hparse, hv, hget⟩
    exact ⟨m', hset, ⟨v, hparse, hv⟩, hget⟩
  · intro h m htype
    rcases h m htype with ⟨m', hset, ⟨v, hparse, hv⟩, hget⟩
    exact ⟨m', v, hset, hparse, hv, hget⟩

/-! ## All of them -/

theorem registration_iff {name : Str} : Sent .processConnection
      Message.ProcessConnection.setProcessName Message.ProcessConnection.processName name ↔
    name.length ≤ Message.NAME_LENGTH ∧ (0 : Byte) ∉ name :=
  sent_iff (by decide) "Process name too long" _ _ (by decide) (by decide)

/-- The width of an identifier is taken for the process, too. -/
theorem workerInvoke_iff {name : Str} : Queued .invocationRequest
      Process.IpcHeader.InvocationRequest.setProcessId
      Process.IpcHeader.InvocationRequestParsed.processId name ↔
    name.length ≤ Process.Ipc.ID_LENGTH ∧ (0 : Byte) ∉ name :=
  queued_iff (by decide) "Process ID too long" (Process.Ipc.ID_LENGTH + Process.Ipc.NAME_LENGTH) _
    (by decide)

theorem workerRequest_iff {t : Process.IpcHeader.MessageType} (ht : t ≠ .genericHeader)
    {name : Str} : Queued t Process.IpcHeader.GenericRequest.setProcessId
      Process.IpcHeader.GenericRequestParsed.processId name ↔
    name.length ≤ Process.Ipc.NAME_LENGTH ∧ (0 : Byte) ∉ name :=
  queued_iff ht "Process name too long" 4 _ (by decide)

/-- But for invocations, the messages carry every name that registers. -/
theorem carried_iff_invoke {name : Str} :
    Carried name ↔ (name.length ≤ Message.NAME_LENGTH ∧ (0 : Byte) ∉ name) ∧
      Queued .invocationRequest Process.IpcHeader.InvocationRequest.setProcessId
        Process.IpcHeader.InvocationRequestParsed.processId name := by
  constructor
  · intro h
    exact ⟨registration_iff.1 h.registration, h.workerInvoke⟩
  · rintro ⟨hname, hinvoke⟩
    constructor
    · exact registration_iff.2 hname
    · exact (sent_iff (by decide) "Process ID too long" _ _ (by decide) (by decide)).2 hname
    · exact (sent_iff (by decide) "Invocation ID too long" _ _ (by decide) (by decide)).2 hname
    · exact (queued_iff (by decide) "Process ID too long" 0 _ (by decide)).2 hname
    · exact (workerRequest_iff (by decide)).2 hname
    · exact (workerRequest_iff (by decide)).2 hname
    · exact hinvoke

theorem carried_iff {name : Str} :
    Carried name ↔ name.length ≤ Process.Ipc.ID_LENGTH ∧ (0 : Byte) ∉ name := by
  rw [carried_iff_invoke, workerInvoke_iff]
  constructor
  · intro h
    exact h.2
  · rintro ⟨hfits, hfree⟩
    exact ⟨⟨hfits.trans (by decide), hfree⟩, hfits, hfree⟩

def offered : Resources := ⟨some 128, some 1⟩

theorem created_of_ne_nil {name : Str} (h : name ≠ []) :
    ∃ t, ({} : State).addProcess ⟨1024, 1⟩ 0 name offered false = .ok t :=
  addProcess_isOk.2 ⟨h, by decide +kernel, rfl⟩

/-- The messages carry the name of a process that was created if and only if it fits into an
identifier and has no NUL; nothing of this is checked at its creation. -/
theorem created_carried_iff {b : Backend} {s : State} {a : AppId} {name : Str}
    {resources : Resources} {wait : Bool}
    (_ : ∃ t, s.addProcess b a name resources wait = .ok t) :
    Carried name ↔ name.length ≤ Process.Ipc.ID_LENGTH ∧ (0 : Byte) ∉ name :=
  carried_iff

theorem created_carried_samples : Carried (List.replicate 16 97) ∧
    ¬ Carried (List.replicate 17 97) := by
  constructor
  · exact (created_carried_iff (created_of_ne_nil (by decide))).2 (by decide)
  · intro h
    exact absurd ((created_carried_iff (created_of_ne_nil (by decide))).1 h) (by decide)

/-- A name of seventeen bytes. -/
theorem created_name_not_carried : ¬ ∀ (b : Backend) (s : State) (a : AppId) (name : Str)
    (resources : Resources) (wait : Bool),
    (∃ t, s.addProcess b a name resources wait = .ok t) → Carried name := by
  intro h
  have hcarried := h ⟨1024, 1⟩ {} 0 (List.replicate 17 97) offered false
    (created_of_ne_nil (by decide))
  exact absurd (carried_iff.1 hcarried) (by decide)

/-- A process whose name is longer than an identifier is created, registers, and is the target of
puts and gets, but no invocation can be addressed to it. -/
theorem registered_not_invoked {name : Str} (hlong : Process.Ipc.ID_LENGTH < name.length)
    (hfits : name.length ≤ Message.NAME_LENGTH) (hfree : (0 : Byte) ∉ name) :
    Sent .processConnection Message.ProcessConnection.setProcessName
        Message.ProcessConnection.processName name ∧
      ¬ Queued .invocationRequest Process.IpcHeader.InvocationRequest.setProcessId
        Process.IpcHeader.InvocationRequestParsed.processId name := by
  refine ⟨registration_iff.2 ⟨hfits, hfree⟩, ?_⟩
  rw [workerInvoke_iff]
  intro h
  exact absurd h.1 (not_le.2 hlong)

end Praas.ControlPlane.ProcessNames
