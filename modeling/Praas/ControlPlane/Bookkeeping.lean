import Praas.Lib.Lists
import Praas.ControlPlane.Submission

/-! # The invocations of a process, from their submission to their result

A process keeps its invocations in a list, their number in a counter, and whether each was
sent in a flag. Results name an invocation by the part of its identifier that was sent.
Here the three accounts are followed through any run of additions, registrations and
results.
-/

namespace Praas.ControlPlane

namespace Bookkeeping

/-! ## Runs -/

inductive Call where
  | addInvocation (i : Invocation)
  | connect (c : ConnId)
  | finishInvocation (id : Str) (returnCode : Int) (result : List Byte)

/-- A call; what it raises goes to the caller. -/
def step (p : Process) : Call → Process
  | .addInvocation i => (p.addInvocation i).1
  | .connect c => (p.connect c).1
  | .finishInvocation id returnCode result => p.finishInvocation id returnCode result

def added (calls : List Call) : List Invocation :=
  calls.filterMap fun
    | .addInvocation i => some i
    | _ => none

/-- A process that was created and has not registered yet. -/
structure Fresh (p : Process) : Prop where
  status : p.status = .ALLOCATING
  invocations : p.invocations = []
  activeInvocations : p.activeInvocations = 0
  sent : p.sent = []
  responses : p.responses = []

/-- An invocation as `add_invocation` creates it, of a function whose name fits, with a payload
below 2^31 bytes; the identifier is a text of 16 characters. -/
structure Generated (i : Invocation) : Prop where
  name : i.functionName.length ≤ Message.NAME_LENGTH
  payload : i.payload.length < 2 ^ 31
  id : i.id.length = Message.ID_LENGTH
  free : (0 : Byte) ∉ i.id
  waits : i.submitted = false

/-- The identifier in a request that was sent. -/
def requestId : Outgoing → Option Str
  | .invocationRequest msg _ => some (Message.InvocationRequest.invocationId msg)
  | .swapRequest _ => none

/-- What was sent for an identifier. -/
def sentFor (p : Process) (id : Str) : List Outgoing :=
  p.sent.filter fun o => requestId o = some id

/-! ## Messages -/

/-- It can be sent, and its identifier is read back. -/
structure Sendable (i : Invocation) : Prop where
  encodable : i.Encodable
  free : (0 : Byte) ∉ i.id

theorem Generated.sendable {i : Invocation} (h : Generated i) : Sendable i where
  encodable := by
    refine ⟨h.name, h.id.le, ?_⟩
    rw [toInt32_of_lt h.payload]
    exact Int.natCast_nonneg _
  free := h.free

theorem Sendable.outgoing {i : Invocation} (h : Sendable i) :
    ∃ msg : Message.MessageData, i.header = .ok msg ∧
      i.outgoing = some (.invocationRequest msg.buf i.payload) ∧
      requestId (.invocationRequest msg.buf i.payload) = some i.id := by
  rcases header_ok h.encodable with ⟨msg, hmsg, hid⟩
  refine ⟨msg, hmsg, ?_, congrArg some (hid h.free)⟩
  unfold Invocation.outgoing
  rw [hmsg]

section Lists

variable {l : List Invocation}

/-- If all can be sent, all are. -/
theorem sendInvocations_all (h : ∀ i ∈ l, Sendable i) :
    Process.sendInvocations l =
      (l.map fun i => { i with submitted := true }, (pending l).filterMap Invocation.outgoing, none) := by
  induction l with
  | nil => rfl
  | cons i l ih =>
    have hrest := ih fun j hj => h j (List.mem_cons_of_mem _ hj)
    unfold Process.sendInvocations
    cases hsubmitted : i.submitted with
    | true =>
      -- sent before, and passed over
      have hsame : { i with submitted := true } = i := by
        rw [← hsubmitted]
      rw [if_pos rfl, hrest, pending_cons_submitted hsubmitted, List.map_cons, hsame]
    | false =>
      rcases (h i List.mem_cons_self).outgoing with ⟨msg, hmsg, houtgoing, -⟩
      rw [if_neg (by simp), hmsg, hrest, pending_cons hsubmitted,
        List.filterMap_cons_some houtgoing]
      rfl

/-- Nothing is sent for an identifier that no pending invocation has. -/
theorem filter_pending_of_not_mem {id : Str} (h : ∀ i ∈ l, Sendable i) (hid : id ∉ l.map (·.id)) :
    ((pending l).filterMap Invocation.outgoing).filter (fun o => requestId o = some id) = [] := by
  refine List.filter_eq_nil_iff.2 fun o ho => ?_
  rcases List.mem_filterMap.1 ho with ⟨i, hi, houtgoing⟩
  have hmem : i ∈ l := List.mem_of_mem_filter hi
  rcases (h i hmem).outgoing with ⟨msg, -, hout, hread⟩
  obtain rfl := Option.some.inj (hout.symm.trans houtgoing)
  rw [hread]
  have hne : i.id ≠ id := fun heq => hid (heq ▸ List.mem_map_of_mem hmem)
  simpa using hne

/-- Each pending invocation is sent once. -/
theorem filter_pending {i : Invocation} (h : ∀ i ∈ l, Sendable i) (hids : (l.map (·.id)).Nodup)
    (hi : i ∈ l) :
    ((pending l).filterMap Invocation.outgoing).filter (fun o => requestId o = some i.id) =
      if i.submitted then [] else i.outgoing.toList := by
  induction l with
  | nil => cases hi
  | cons j l ih =>
    have hrest := fun k hk => h k (List.mem_cons_of_mem _ hk)
    rw [List.map_cons, List.nodup_cons] at hids
    rcases (h j List.mem_cons_self).outgoing with ⟨msg, -, houtgoing, hread⟩
    rcases List.mem_cons.1 hi with rfl | hmem
    · cases hsubmitted : i.submitted with
      | true =>
        rw [pending_cons_submitted hsubmitted, if_pos rfl]
        exact filter_pending_of_not_mem hrest hids.1
      | false =>
        rw [pending_cons hsubmitted, List.filterMap_cons_some houtgoing,
          List.filter_cons_of_pos (by simpa using hread), if_neg (by simp), houtgoing,
          filter_pending_of_not_mem hrest hids.1]
        rfl
    · have hne : j.id ≠ i.id := fun heq => hids.1 (heq ▸ List.mem_map_of_mem hmem)
      have htail := ih hrest hids.2 hmem
      cases hsubmitted : j.submitted with
      | true => rw [pending_cons_submitted hsubmitted, htail]
      | false =>
        rw [pending_cons hsubmitted, List.filterMap_cons_some houtgoing,
          List.filter_cons_of_neg (by simpa [hread] using hne), htail]

end Lists

/-! ## What the calls do -/

section Calls

variable {p : Process}

/-- An invocation is sent at once to a process that is allocated, and waits otherwise. -/
theorem addInvocation_cases {i : Invocation} (h : Sendable i) :
    (p.status = .ALLOCATED ∧ ∃ out, i.outgoing = some out ∧ requestId out = some i.id ∧
      (p.addInvocation i).1 = { p with
        invocations := p.invocations ++ [{ i with submitted := true }]
        activeInvocations := p.activeInvocations + 1
        sent := p.sent ++ [out] }) ∨
    (p.status ≠ .ALLOCATED ∧ (p.addInvocation i).1 = { p with
        invocations := p.invocations ++ [i]
        activeInvocations := p.activeInvocations + 1 }) := by
  unfold Process.addInvocation
  dsimp only
  by_cases hstatus : p.status = .ALLOCATED
  · rcases h.outgoing with ⟨msg, hmsg, houtgoing, hread⟩
    refine .inl ⟨hstatus, _, houtgoing, hread, ?_⟩
    rw [if_pos hstatus, hmsg]
  · refine .inr ⟨hstatus, ?_⟩
    rw [if_neg hstatus]

/-- The creation callback keeps the accounts. -/
theorem createdCallback_none (p : Process) :
    ∃ n, p.createdCallback none = { p with connecting := n } := by
  unfold Process.createdCallback
  dsimp only
  split_ifs
  · exact ⟨p.connecting, rfl⟩
  · exact ⟨p.connecting, rfl⟩
  · exact ⟨p.connecting + 1, rfl⟩
  · exact ⟨p.connecting, rfl⟩

/-- A process registers once, and sends what waits. -/
theorem connect_cases (c : ConnId) (h : ∀ i ∈ p.invocations, Sendable i) :
    (p.connect c).1 = p ∨ ∃ n, (p.connect c).1 = { p with
      connection := some c
      status := .ALLOCATED
      invocations := p.invocations.map fun i => { i with submitted := true }
      sent := p.sent ++ (pending p.invocations).filterMap Invocation.outgoing
      connecting := n } := by
  unfold Process.connect
  by_cases hstatus : p.status = .ALLOCATING
  · rw [if_neg (not_not.2 hstatus), sendInvocations_all h]
    rcases createdCallback_none { p with
      connection := some c
      status := .ALLOCATED
      invocations := p.invocations.map fun i => { i with submitted := true }
      sent := p.sent ++ (pending p.invocations).filterMap Invocation.outgoing } with ⟨n, hn⟩
    exact .inr ⟨n, hn⟩
  · rw [if_pos hstatus]
    exact .inl rfl

/-- The invocation of a result is answered and leaves the list. -/
theorem finishInvocation_stored (hids : (p.invocations.map (·.id)).Nodup) {i : Invocation}
    (hi : i ∈ p.invocations) (returnCode : Int) (result : List Byte) :
    ∃ before after, p.invocations = before ++ i :: after ∧
      p.finishInvocation i.id returnCode result = { p with
        activeInvocations := p.activeInvocations - 1
        invocations := before ++ after
        responses := p.responses ++ [⟨i, returnCode, result⟩] } := by
  rcases List.append_of_mem hi with ⟨before, after, hsplit⟩
  rw [hsplit, List.map_append, List.map_cons] at hids
  -- no invocation before it has its identifier
  have hbefore : ∀ j ∈ before, decide (j.id = i.id) = false := by
    intro j hj
    have hdisjoint := List.disjoint_of_nodup_append hids
    refine decide_eq_false fun heq => hdisjoint (List.mem_map_of_mem hj) ?_
    rw [heq]
    exact List.mem_cons_self
  have hfind : p.invocations.find? (fun j => j.id = i.id) = some i := by
    rw [hsplit, List.find?_append, List.find?_eq_none.2 fun j hj => by simp [hbefore j hj]]
    simp
  have herase : p.invocations.eraseP (fun j => j.id = i.id) = before ++ after := by
    rw [hsplit, List.eraseP_append_right _ fun j hj => by simp [hbefore j hj],
      List.eraseP_cons_of_pos (by simp)]
  refine ⟨before, after, hsplit, ?_⟩
  unfold Process.finishInvocation
  rw [hfind, herase]

/-- A result that no invocation waits for is ignored. -/
theorem finishInvocation_unknown {id : Str} (h : id ∉ p.invocations.map (·.id)) (returnCode : Int)
    (result : List Byte) : p.finishInvocation id returnCode result = p := by
  have hfind : p.invocations.find? (fun i => i.id = id) = none := by
    refine List.find?_eq_none.2 fun i hi heq => h ?_
    rw [← of_decide_eq_true heq]
    exact List.mem_map_of_mem hi
  unfold Process.finishInvocation
  rw [hfind]

end Calls

/-! ## The accounts -/

/-- The accounts of a process to which invocations with these identifiers were added. -/
structure Booked (p : Process) (ids : List Str) : Prop where
  active : p.activeInvocations = p.invocations.length
  sendable : ∀ i ∈ p.invocations, Sendable i
  sentOnce : ∀ i ∈ p.invocations, sentFor p i.id = if i.submitted then i.outgoing.toList else []
  allocated : p.status = .ALLOCATED →
    p.connection.isSome ∧ ∀ i ∈ p.invocations, i.submitted = true
  /-- What was added is stored or answered. -/
  account : (p.invocations.map (·.id) ++ p.responses.map (·.invocation.id)).Perm ids
  known : ∀ o ∈ p.sent, ∀ id, requestId o = some id → id ∈ ids

section Accounts

variable {p : Process} {ids : List Str}

theorem booked_of_fresh (h : Fresh p) : Booked p [] where
  active := by rw [h.activeInvocations, h.invocations]; rfl
  sendable := by simp [h.invocations]
  sentOnce := by simp [h.invocations]
  allocated := by simp [h.status]
  account := by rw [h.invocations, h.responses]; exact List.Perm.refl _
  known := by simp [h.sent]

theorem Booked.stored (h : Booked p ids) {i : Invocation} (hi : i ∈ p.invocations) : i.id ∈ ids :=
  h.account.subset (List.mem_append_left _ (List.mem_map_of_mem hi))

theorem Booked.nodup (h : Booked p ids) (hids : ids.Nodup) :
    (p.invocations.map (·.id)).Nodup ∧
      ∀ r ∈ p.responses, r.invocation.id ∉ p.invocations.map (·.id) := by
  have hall := h.account.nodup_iff.2 hids
  refine ⟨hall.of_append_left, fun r hr hstored => ?_⟩
  exact List.disjoint_of_nodup_append hall hstored (List.mem_map_of_mem hr)

/-- Nothing was sent for an invocation that is new. -/
theorem Booked.unsent (h : Booked p ids) {id : Str} (hid : id ∉ ids) : sentFor p id = [] :=
  List.filter_eq_nil_iff.2 fun o ho heq => hid (h.known o ho id (of_decide_eq_true heq))

/-- A new invocation at the end of the list, with what was sent for it. -/
theorem Booked.snoc (h : Booked p ids) {i : Invocation} {out : List Outgoing} (hi : Sendable i)
    (hnew : i.id ∉ ids) (hout : out = if i.submitted then i.outgoing.toList else [])
    (hread : ∀ o ∈ out, requestId o = some i.id)
    (hstatus : p.status = .ALLOCATED → i.submitted = true) :
    Booked { p with
      invocations := p.invocations ++ [i]
      activeInvocations := p.activeInvocations + 1
      sent := p.sent ++ out } (ids ++ [i.id]) := by
  have hmem : ∀ j ∈ p.invocations ++ [i], j ∈ p.invocations ∨ j = i := by
    intro j hj
    exact (List.mem_append.1 hj).imp_right List.mem_singleton.1
  constructor
  case active =>
    dsimp only
    rw [h.active, List.length_append]
    rfl
  case sendable =>
    intro j hj
    rcases hmem j hj with hj | rfl
    · exact h.sendable j hj
    · exact hi
  case sentOnce =>
    intro j hj
    show (p.sent ++ out).filter _ = _
    rw [List.filter_append]
    rcases hmem j hj with hj | rfl
    · -- what was sent now is for another identifier
      have hother : out.filter (fun o => requestId o = some j.id) = [] := by
        refine List.filter_eq_nil_iff.2 fun o ho heq => hnew ?_
        have hid : some i.id = some j.id := (hread o ho).symm.trans (of_decide_eq_true heq)
        rw [Option.some.inj hid]
        exact h.stored hj
      rw [hother, List.append_nil]
      exact h.sentOnce j hj
    · have hself : out.filter (fun o => requestId o = some j.id) = out := by
        refine List.filter_eq_self.2 fun o ho => ?_
        rw [hread o ho]
        exact decide_eq_true rfl
      rw [hself, ← hout]
      show sentFor p j.id ++ out = out
      rw [h.unsent hnew]
      rfl
  case allocated =>
    intro hallocated
    refine ⟨(h.allocated hallocated).1, fun j hj => ?_⟩
    rcases hmem j hj with hj | rfl
    · exact (h.allocated hallocated).2 j hj
    · exact hstatus hallocated
  case account =>
    rw [List.map_append]
    exact (Lists.perm_snoc_left _ _ _).trans (h.account.append_right _)
  case known =>
    intro o ho id hid
    rcases List.mem_append.1 ho with ho | ho
    · exact List.mem_append_left _ (h.known o ho id hid)
    · rw [hread o ho] at hid
      rw [← Option.some.inj hid]
      exact List.mem_append_right _ (List.mem_singleton_self _)

theorem booked_add (h : Booked p ids) {i : Invocation} (hi : Generated i) (hnew : i.id ∉ ids) :
    Booked (p.addInvocation i).1 (ids ++ [i.id]) := by
  rcases addInvocation_cases (p := p) hi.sendable with
    ⟨hstatus, out, hout, hread, hadd⟩ | ⟨hstatus, hadd⟩
  -- sent at once when the process is connected, kept for `connect` otherwise
  · rw [hadd]
    have hsent : [out] = Option.toList (some out) := rfl
    rw [← hout] at hsent
    refine h.snoc (i := { i with submitted := true }) ⟨hi.sendable.encodable, hi.free⟩ hnew hsent ?_
      fun _ => rfl
    intro o ho
    rw [List.mem_singleton.1 ho]
    exact hread
  · rw [hadd]
    have hnone : ([] : List Outgoing) = if i.submitted then i.outgoing.toList else [] := by
      rw [hi.waits]
      rfl
    have hbooked := h.snoc hi.sendable hnew hnone (by simp) fun hallocated => absurd hallocated hstatus
    rw [List.append_nil] at hbooked
    exact hbooked

theorem booked_connect (h : Booked p ids) (hids : ids.Nodup) (c : ConnId) :
    Booked (p.connect c).1 ids := by
  rcases connect_cases c h.sendable with hsame | ⟨n, hconnect⟩
  · rw [hsame]
    exact h
  · rw [hconnect]
    constructor
    case active =>
      dsimp only
      rw [h.active, List.length_map]
    case sendable =>
      intro i hi
      rcases List.mem_map.1 hi with ⟨j, hj, rfl⟩
      exact ⟨(h.sendable j hj).encodable, (h.sendable j hj).free⟩
    case sentOnce =>
      intro i hi
      rcases List.mem_map.1 hi with ⟨j, hj, rfl⟩
      -- what waited was not sent before, and what was sent before does not wait
      have hpending := filter_pending h.sendable (h.nodup hids).1 hj
      have hbefore := h.sentOnce j hj
      show (p.sent ++ _).filter _ = j.outgoing.toList
      rw [List.filter_append, hpending]
      show sentFor p j.id ++ _ = _
      rw [hbefore]
      cases j.submitted with
      | true => exact List.append_nil _
      | false => rfl
    case allocated =>
      refine fun _ => ⟨rfl, fun i hi => ?_⟩
      rcases List.mem_map.1 hi with ⟨j, -, rfl⟩
      rfl
    case account =>
      rw [List.map_map]
      exact h.account
    case known =>
      intro o ho id hid
      rcases List.mem_append.1 ho with ho | ho
      · exact h.known o ho id hid
      · rcases List.mem_filterMap.1 ho with ⟨i, hi, hout⟩
        have hmem := List.mem_of_mem_filter hi
        rcases (h.sendable i hmem).outgoing with ⟨msg, -, hmsg, hread⟩
        obtain rfl := Option.some.inj (hmsg.symm.trans hout)
        rw [← Option.some.inj (hread.symm.trans hid)]
        exact h.stored hmem

theorem booked_finish (h : Booked p ids) (hids : ids.Nodup) (id : Str) (returnCode : Int)
    (result : List Byte) : Booked (p.finishInvocation id returnCode result) ids := by
  by_cases hid : id ∈ p.invocations.map (·.id)
  · rcases List.mem_map.1 hid with ⟨i, hi, rfl⟩
    rcases finishInvocation_stored (h.nodup hids).1 hi returnCode result with
      ⟨before, after, hsplit, hfinish⟩
    have hkept : ∀ j ∈ before ++ after, j ∈ p.invocations := by
      intro j hj
      rw [hsplit]
      exact List.mem_append.2 ((List.mem_append.1 hj).imp_right (List.mem_cons_of_mem _))
    rw [hfinish]
    constructor
    case active =>
      dsimp only
      rw [h.active, hsplit, List.length_append, List.length_append, List.length_cons]
      push_cast
      ring
    case sendable => exact fun j hj => h.sendable j (hkept j hj)
    case sentOnce => exact fun j hj => h.sentOnce j (hkept j hj)
    case allocated =>
      intro hallocated
      exact ⟨(h.allocated hallocated).1, fun j hj => (h.allocated hallocated).2 j (hkept j hj)⟩
    case account =>
      refine List.Perm.trans ?_ h.account
      rw [hsplit]
      simp only [List.map_append, List.map_cons, List.map_nil, List.append_assoc]
      refine List.Perm.append_left _ ?_
      rw [← List.append_assoc]
      exact List.perm_append_singleton _ _
    case known => exact h.known
  · rw [finishInvocation_unknown hid]
    exact h

end Accounts

/-! ## Runs from a new process -/

theorem added_cons (call : Call) (calls : List Call) :
    added (call :: calls) = added [call] ++ added calls := by
  cases call <;> rfl

theorem booked_step {p : Process} {ids : List Str} (h : Booked p ids) (call : Call)
    (hids : (ids ++ (added [call]).map (·.id)).Nodup) (hadded : ∀ i ∈ added [call], Generated i) :
    Booked (step p call) (ids ++ (added [call]).map (·.id)) := by
  cases call with
  | addInvocation i =>
    have hnew : i.id ∉ ids := fun hin =>
      List.disjoint_of_nodup_append hids hin List.mem_cons_self
    exact booked_add h (hadded i List.mem_cons_self) hnew
  | connect c =>
    have hsame : ids ++ (added [.connect c]).map (·.id) = ids := List.append_nil _
    rw [hsame] at hids ⊢
    exact booked_connect h hids c
  | finishInvocation id returnCode result =>
    have hsame : ids ++ (added [.finishInvocation id returnCode result]).map (·.id) = ids :=
      List.append_nil _
    rw [hsame] at hids ⊢
    exact booked_finish h hids id returnCode result

theorem booked_run {calls : List Call} {p : Process} {ids : List Str} (h : Booked p ids)
    (hids : (ids ++ (added calls).map (·.id)).Nodup) (hadded : ∀ i ∈ added calls, Generated i) :
    Booked (calls.foldl step p) (ids ++ (added calls).map (·.id)) := by
  induction calls generalizing p ids with
  | nil =>
    rw [show ids ++ (added []).map (·.id) = ids from List.append_nil _]
    exact h
  | cons call calls ih =>
    rw [added_cons, List.map_append, ← List.append_assoc] at hids ⊢
    rw [added_cons] at hadded
    have hnext := booked_step h call hids.of_append_left
      fun i hi => hadded i (List.mem_append_left _ hi)
    exact ih hnext hids fun i hi => hadded i (List.mem_append_right _ hi)

/-- In every state of a run the counter is the number of invocations on the list, one is sent
once if it is flagged and not at all otherwise, and in a process that is allocated all are.
What was added is on the list or was answered; a result answers the invocation that it names
and takes it off the list, and a result for another identifier changes nothing. -/
theorem invocations_run (p : Process) (calls : List Call) (hfresh : Fresh p)
    (hadded : ∀ i ∈ added calls, Generated i) (hids : ((added calls).map (·.id)).Nodup) :
    let q := calls.foldl step p
    q.activeInvocations = q.invocations.length ∧
    (∀ i ∈ q.invocations, ∃ out, i.outgoing = some out ∧
      sentFor q i.id = if i.submitted then [out] else []) ∧
    (q.status = .ALLOCATED → q.connection.isSome ∧ ∀ i ∈ q.invocations, i.submitted = true) ∧
    (q.invocations.map (·.id) ++ q.responses.map (·.invocation.id)).Perm
      ((added calls).map (·.id)) ∧
    (∀ i ∈ q.invocations, ∀ returnCode result, ∃ before after,
      q.invocations = before ++ i :: after ∧
      q.finishInvocation i.id returnCode result = { q with
        activeInvocations := q.activeInvocations - 1
        invocations := before ++ after
        responses := q.responses ++ [⟨i, returnCode, result⟩] }) ∧
    (∀ id, id ∉ q.invocations.map (·.id) → ∀ returnCode result,
      q.finishInvocation id returnCode result = q) ∧
    ∀ r ∈ q.responses, ∀ returnCode result,
      q.finishInvocation r.invocation.id returnCode result = q := by
  intro q
  have hbooked : Booked q ((added calls).map (·.id)) := booked_run (booked_of_fresh hfresh) hids hadded
  rcases hbooked.nodup hids with ⟨hnodup, hanswered⟩
  refine ⟨hbooked.active, ?_, hbooked.allocated, hbooked.account, ?_, ?_, ?_⟩
  · intro i hi
    rcases (hbooked.sendable i hi).outgoing with ⟨msg, -, hout, -⟩
    have hsent := hbooked.sentOnce i hi
    rw [hout] at hsent
    exact ⟨_, hout, hsent⟩
  · exact fun i hi returnCode result => finishInvocation_stored hnodup hi returnCode result
  · exact fun id hid returnCode result => finishInvocation_unknown hid returnCode result
  · intro r hr returnCode result
    exact finishInvocation_unknown (hanswered r hr) returnCode result

/-- An invocation of the function `f`. -/
def sampleInvocation (c : Byte) : Invocation where
  id := List.replicate 16 c
  functionName := str ['f']
  payload := [1, 2]

/-- The first waits for the process, the second does not; the first is answered. -/
def sampleCalls : List Call :=
  [.addInvocation (sampleInvocation 48), .connect 0, .addInvocation (sampleInvocation 49),
    .finishInvocation (List.replicate 16 48) 0 []]

/-- The second is left, and was sent once. -/
theorem invocations_run_sample :
    let q := sampleCalls.foldl step { name := str ['p'], application := 0 }
    q.activeInvocations = 1 ∧ q.invocations.map (·.id) = [List.replicate 16 49] ∧
      q.activeInvocations = q.invocations.length := by
  have hgenerated : ∀ i ∈ added sampleCalls, Generated i := by
    intro i hi
    have hmem : i = sampleInvocation 48 ∨ i = sampleInvocation 49 := by
      simpa [added, sampleCalls] using hi
    rcases hmem with rfl | rfl
    · exact ⟨by decide, by decide, rfl, by decide, rfl⟩
    · exact ⟨by decide, by decide, rfl, by decide, rfl⟩
  have hrun := invocations_run { name := str ['p'], application := 0 } sampleCalls
    ⟨rfl, rfl, rfl, rfl, rfl⟩ hgenerated (by decide)
  exact ⟨by decide, by decide, hrun.1⟩

end Bookkeeping

end Praas.ControlPlane
