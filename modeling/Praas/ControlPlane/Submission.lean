import Mathlib.Data.List.TakeWhile
import Praas.Common.WireFormat
import Praas.ControlPlane.Process

/-! # The submission of invocations to a process

An invocation is sent when it is added, or when the process connects if that comes later.
Its header refuses a function name that does not fit and a payload whose length is negative
as an `int32_t`; here is what such a refusal leaves behind.
-/

namespace Praas.ControlPlane

open Message (MessageData)

/-! ## Headers -/

/-- The setters of the header take the name, the identifier and the length. -/
def Invocation.Encodable (i : Invocation) : Prop :=
  i.functionName.length ≤ Message.NAME_LENGTH ∧ i.id.length ≤ Message.ID_LENGTH ∧
    0 ≤ toInt32 i.payload.length

instance (i : Invocation) : Decidable i.Encodable := inferInstanceAs (Decidable (_ ∧ _))

section Headers

variable {i : Invocation}

open Message (format Field)

/-- The ranges of the header of an invocation. -/
abbrev requestRanges : Layout.Ranges (Field .invocationRequest) := (format .invocationRequest).ranges

theorem setFunctionName_ok (m : MessageData) (name : StringView)
    (h : name.length ≤ Message.NAME_LENGTH) :
    ∃ m', Message.InvocationRequest.setFunctionName m name = .ok m' ∧
      m'.buf = requestRanges.store m.buf .functionName (strncpy name.data Message.NAME_LENGTH) :=
  Message.setStr_ok h m (by decide)

theorem setInvocationId_ok (m : MessageData) (id : StringView)
    (h : id.length ≤ Message.ID_LENGTH) :
    ∃ m', Message.InvocationRequest.setInvocationId m id = .ok m' ∧
      m'.buf = requestRanges.store m.buf .requestId (strncpy id.data Message.ID_LENGTH) :=
  Message.setStr_ok h m (by decide)

theorem setPayloadSize_ok (m : MessageData) {size : Int} (h : 0 ≤ size) :
    ∃ m', Message.InvocationRequest.setPayloadSize m size = .ok m' ∧
      m'.buf = requestRanges.store m.buf .payloadSize (int32Bytes size) :=
  ⟨_, if_neg (not_lt.2 h), rfl⟩

/-- A string without NUL is read back from what `strncpy` wrote of it. -/
theorem takeWhile_strncpy {s : Str} {limit : ℕ} (h : s.length ≤ limit) (hfree : (0 : Byte) ∉ s) :
    (strncpy (StringView.ofStr s).data limit).takeWhile (· ≠ 0) = s := by
  have haccepts : (Header.Kind.text limit 0).Accepts (StringView.ofStr s) :=
    Header.Kind.accepts_ofStr h hfree
  rw [Header.Kind.strncpy_chars haccepts, Header.Kind.chars_ofStr]
  exact Header.Kind.decode_rep (k := .text limit 0) ⟨h, hfree⟩

/-- The identifier is read back from the header. -/
theorem header_ok (h : i.Encodable) :
    ∃ msg, i.header = .ok msg ∧
      ((0 : Byte) ∉ i.id → Message.InvocationRequest.invocationId msg.buf = i.id) := by
  rcases h with ⟨hname, hid, hsize⟩
  rcases setFunctionName_ok (MessageData.new .invocationRequest) (.ofStr i.functionName)
    hname with ⟨m₁, hm₁, hbuf₁⟩
  rcases setInvocationId_ok m₁ (.ofStr i.id) hid with ⟨m₂, hm₂, hbuf₂⟩
  rcases setPayloadSize_ok m₂ hsize with ⟨m₃, hm₃, hbuf₃⟩
  refine ⟨m₃.setTotalLength (toInt32 i.payload.length), ?_, fun hfree => ?_⟩
  · unfold Invocation.header
    dsimp only
    rw [hm₁]
    show (Message.InvocationRequest.setInvocationId m₁ _ >>= _) = _
    rw [hm₂]
    show (Message.InvocationRequest.setPayloadSize m₂ _ >>= _) = _
    rw [hm₃]
    rfl
  · -- later setters write other fields
    have hload : requestRanges.load (m₃.setTotalLength (toInt32 i.payload.length)).buf .requestId =
        strncpy (StringView.ofStr i.id).data Message.ID_LENGTH := by
      have htotal : (m₃.setTotalLength (toInt32 i.payload.length)).buf =
          requestRanges.store m₃.buf .totalLength (int32Bytes (toInt32 i.payload.length)) := rfl
      have hrest : (requestRanges.load m₁.buf .requestId).drop Message.ID_LENGTH = [] :=
        List.drop_eq_nil_of_le (List.length_take_le ..)
      have hself := Layout.Ranges.load_store_self (L := requestRanges) (i := .requestId)
        (v := strncpy (StringView.ofStr i.id).data Message.ID_LENGTH) m₁.length_buf
        (length_strncpy _ _).le
      rw [htotal, Layout.Ranges.load_store_of_ne m₃.length_buf (length_int32Bytes _).le (by decide),
        hbuf₃, Layout.Ranges.load_store_of_ne m₂.length_buf (length_int32Bytes _).le (by decide),
        hbuf₂, hself, length_strncpy, hrest, List.append_nil]
    show (requestRanges.load _ .requestId).takeWhile (· ≠ 0) = i.id
    rw [hload]
    exact takeWhile_strncpy hid hfree

theorem header_error (h : ¬ i.Encodable) : ∃ f, i.header = .error f := by
  cases hheader : i.header with
  | error f => exact ⟨f, rfl⟩
  | ok msg =>
    rcases Lts.bind_ok hheader with ⟨m₁, hm₁, hrest⟩
    rcases Lts.bind_ok hrest with ⟨m₂, hm₂, hrest⟩
    rcases Lts.bind_ok hrest with ⟨m₃, hm₃, -⟩
    refine absurd ⟨?_, ?_, ?_⟩ h
    · by_contra hlong
      cases (if_pos (not_le.1 hlong)).symm.trans hm₁
    · by_contra hlong
      cases (if_pos (not_le.1 hlong)).symm.trans hm₂
    · by_contra hnegative
      cases (if_pos (not_le.1 hnegative)).symm.trans hm₃

end Headers

/-! ## The loop over the pending invocations -/

/-- Those not sent yet. -/
def pending (l : List Invocation) : List Invocation := l.filter fun i => ¬ i.submitted

/-- What is written for an invocation. -/
def Invocation.outgoing (i : Invocation) : Option Outgoing :=
  match i.header with
  | .ok msg => some (.invocationRequest msg.buf i.payload)
  | .error _ => none

section Sending

variable {l : List Invocation}

theorem pending_cons_submitted {i : Invocation} (h : i.submitted = true) (l : List Invocation) :
    pending (i :: l) = pending l := by
  simp [pending, h]

theorem pending_cons {i : Invocation} (h : i.submitted = false) (l : List Invocation) :
    pending (i :: l) = i :: pending l := by
  simp [pending, h]

/-- The loop sends the pending invocations up to the first that cannot be encoded, and leaves
that one and those behind it pending. -/
theorem sendInvocations_spec (l : List Invocation) :
    pending (Process.sendInvocations l).1 = (pending l).dropWhile (fun i => i.Encodable) ∧
    (Process.sendInvocations l).2.1 =
      ((pending l).takeWhile fun i => i.Encodable).filterMap Invocation.outgoing ∧
    ((Process.sendInvocations l).2.2 = none ↔ ∀ i ∈ pending l, i.Encodable) := by
  induction l with
  | nil => simp [Process.sendInvocations, pending]
  | cons i l ih =>
    unfold Process.sendInvocations
    cases hsubmitted : i.submitted with
    | true =>
      rw [if_pos rfl]
      dsimp only
      rw [pending_cons_submitted hsubmitted, pending_cons_submitted hsubmitted]
      exact ih
    | false =>
      rw [if_neg (by simp), pending_cons hsubmitted]
      by_cases hencodable : i.Encodable
      · rcases header_ok hencodable with ⟨msg, hmsg, -⟩
        have houtgoing : i.outgoing = some (.invocationRequest msg.buf i.payload) := by
          unfold Invocation.outgoing
          rw [hmsg]
        rw [hmsg]
        dsimp only
        rw [List.dropWhile_cons_of_pos (by simpa using hencodable),
          List.takeWhile_cons_of_pos (by simpa using hencodable), pending_cons_submitted rfl,
          List.filterMap_cons_some houtgoing, ih.2.1]
        refine ⟨ih.1, rfl, ih.2.2.trans ?_⟩
        simp [hencodable]
      · rcases header_error hencodable with ⟨f, hf⟩
        rw [hf]
        dsimp only
        rw [List.dropWhile_cons_of_neg (by simpa using hencodable),
          List.takeWhile_cons_of_neg (by simpa using hencodable), pending_cons hsubmitted]
        refine ⟨rfl, rfl, ?_⟩
        simp [hencodable]

end Sending

/-! ## What a failed submission leaves behind -/

/-- If the call raises, the list and the counter are as before. -/
def AddRollsBack (p : Process) (i : Invocation) : Prop :=
  (p.addInvocation i).2 ≠ none →
    (p.addInvocation i).1.invocations = p.invocations ∧
      (p.addInvocation i).1.activeInvocations = p.activeInvocations

/-- Of what was pending in `p`, all but one were sent by `q`. -/
def OthersSent (p q : Process) : Prop :=
  ∃ before i after, pending p.invocations = before ++ i :: after ∧
    (∀ j ∈ before ++ after, j.outgoing.isSome) ∧
    q.sent = p.sent ++ (before ++ after).filterMap Invocation.outgoing ∧
    pending q.invocations = [i]

/-- If a process that registers cannot send one of its invocations, it sends the others, and
calls its creation callback, which goes on to the instance if there is one. -/
def ConnectContinues (p : Process) (c : ConnId) : Prop :=
  p.status = .ALLOCATING → (p.connect c).2 ≠ none →
    OthersSent p (p.connect c).1 ∧
      (p.creationCallback.isSome → p.handle = true →
        (p.connect c).1.connecting = p.connecting + 1)

section Failures

variable {p : Process}

theorem addRollsBack_iff (i : Invocation) :
    AddRollsBack p i ↔ p.status ≠ .ALLOCATED ∨ i.Encodable := by
  unfold AddRollsBack Process.addInvocation
  dsimp only
  by_cases hstatus : p.status = .ALLOCATED
  · rw [if_pos hstatus]
    by_cases hencodable : i.Encodable
    · rcases header_ok hencodable with ⟨msg, hmsg, -⟩
      rw [hmsg]
      simp [hencodable]
    · rcases header_error hencodable with ⟨f, hf⟩
      rw [hf]
      -- the invocation stays on the list
      simp [hstatus, hencodable]
  · rw [if_neg hstatus]
    simp [hstatus]

theorem connect_raises (hstatus : p.status = .ALLOCATING) {c : ConnId}
    (h : (Process.sendInvocations p.invocations).2.2 ≠ none) :
    (p.connect c).2 ≠ none ∧ (p.connect c).1.connecting = p.connecting ∧
      (p.connect c).1.invocations = (Process.sendInvocations p.invocations).1 ∧
      (p.connect c).1.sent = p.sent ++ (Process.sendInvocations p.invocations).2.1 := by
  rcases Option.ne_none_iff_exists'.1 h with ⟨f, hf⟩
  unfold Process.connect
  rw [if_neg (by simp [hstatus])]
  dsimp only
  rw [hf]
  simp

theorem connect_returns (hstatus : p.status = .ALLOCATING) {c : ConnId}
    (h : (Process.sendInvocations p.invocations).2.2 = none) : (p.connect c).2 = none := by
  unfold Process.connect
  rw [if_neg (by simp [hstatus])]
  dsimp only
  rw [h]

theorem connect_returns_iff (hstatus : p.status = .ALLOCATING) {c : ConnId} :
    (p.connect c).2 = none ↔ ∀ i ∈ pending p.invocations, i.Encodable := by
  rw [← (sendInvocations_spec p.invocations).2.2]
  constructor
  · intro hreturns
    by_contra hraised
    exact (connect_raises hstatus hraised).1 hreturns
  · exact connect_returns hstatus

/-- Whatever is behind the first invocation that cannot be sent stays. -/
theorem othersSent_iff (q : Process)
    (hpending : pending q.invocations =
      (pending p.invocations).dropWhile (fun i => i.Encodable))
    (hsent : q.sent = p.sent ++
      ((pending p.invocations).takeWhile fun i => i.Encodable).filterMap Invocation.outgoing)
    (hraised : ¬ ∀ i ∈ pending p.invocations, i.Encodable) :
    OthersSent p q ↔ ∀ i ∈ (pending p.invocations).dropLast, i.Encodable := by
  have hsplit := List.takeWhile_append_dropWhile (p := fun i : Invocation => decide i.Encodable)
    (l := pending p.invocations)
  have htaken : ∀ i ∈ (pending p.invocations).takeWhile (fun i => i.Encodable), i.Encodable := by
    intro i hi
    have htest := List.mem_takeWhile_imp (p := fun j : Invocation => decide j.Encodable) hi
    exact of_decide_eq_true htest
  constructor
  · rintro ⟨before, i, after, -, -, -, hleft⟩
    rw [hpending] at hleft
    rw [hleft] at hsplit
    rw [← hsplit, List.dropLast_concat]
    exact htaken
  · intro hlast
    rcases List.eq_nil_or_concat (pending p.invocations) with hnil | ⟨before, i, hconcat⟩
    · simp [hnil] at hraised
    · rw [List.concat_eq_append] at hconcat
      rw [hconcat] at hpending hsent hraised
      rw [hconcat, List.dropLast_concat] at hlast
      have hi : ¬ i.Encodable := by
        intro hi
        refine hraised fun j hj => ?_
        rcases List.mem_append.1 hj with hj | hj
        · exact hlast j hj
        · rwa [List.mem_singleton.1 hj]
      -- the loop gets to the last one
      have htake : (before ++ [i]).takeWhile (fun j => decide j.Encodable) = before := by
        rw [List.takeWhile_append_of_pos (by simpa using hlast)]
        simp [hi]
      have hdrop : (before ++ [i]).dropWhile (fun j => decide j.Encodable) = [i] := by
        rw [List.dropWhile_append_of_pos (by simpa using hlast)]
        simp [hi]
      refine ⟨before, i, [], hconcat, ?_, ?_, hpending.trans hdrop⟩
      · intro j hj
        rw [List.append_nil] at hj
        rcases header_ok (hlast j hj) with ⟨msg, hmsg, -⟩
        unfold Invocation.outgoing
        rw [hmsg]
        rfl
      · rw [hsent, htake, List.append_nil]

theorem connectContinues_iff (c : ConnId) :
    ConnectContinues p c ↔ p.status ≠ .ALLOCATING ∨ (∀ i ∈ pending p.invocations, i.Encodable) ∨
      ((∀ i ∈ (pending p.invocations).dropLast, i.Encodable) ∧
        (p.creationCallback = none ∨ p.handle = false)) := by
  rcases sendInvocations_spec p.invocations with ⟨hpending, hsent, hraised⟩
  unfold ConnectContinues
  by_cases hstatus : p.status = .ALLOCATING
  · by_cases hall : ∀ i ∈ pending p.invocations, i.Encodable
    · have hreturns := connect_returns (c := c) hstatus (hraised.2 hall)
      simp only [hreturns, ne_eq, not_true_eq_false, false_implies, implies_true, true_iff]
      exact .inr (.inl hall)
    · rcases connect_raises (c := c) hstatus (fun hnone => hall (hraised.1 hnone)) with
        ⟨hraises, hconnecting, hinvocations, hsends⟩
      have hothers := othersSent_iff (p := p) (p.connect c).1
        (by rw [hinvocations, hpending]) (by rw [hsends, hsent]) hall
      have hcallback : (p.creationCallback.isSome → p.handle = true →
          (p.connect c).1.connecting = p.connecting + 1) ↔
          (p.creationCallback = none ∨ p.handle = false) := by
        rw [hconnecting]
        cases p.creationCallback <;> cases p.handle <;> simp
      rw [hothers, hcallback]
      simp [hstatus, hall, hraises]
  · simp [hstatus]

end Failures

/-- A call that raises rolls back, and a registration goes on, exactly if nothing is sent at
once or the invocation can be encoded, and if nothing is pending that cannot be encoded, but
for the last one of a process whose creation callback has nothing to do. -/
theorem failed_submission (p : Process) (i : Invocation) (c : ConnId) :
    (AddRollsBack p i ↔ p.status ≠ .ALLOCATED ∨ i.Encodable) ∧
    (ConnectContinues p c ↔ p.status ≠ .ALLOCATING ∨ (∀ j ∈ pending p.invocations, j.Encodable) ∨
      ((∀ j ∈ (pending p.invocations).dropLast, j.Encodable) ∧
        (p.creationCallback = none ∨ p.handle = false))) :=
  ⟨addRollsBack_iff i, connectContinues_iff c⟩

/-- A name of 33 characters. -/
def sampleInvocation : Invocation where
  id := List.replicate 16 48
  functionName := List.replicate 33 97
  payload := []

/-- The invocation takes a place in a process to which it was never sent. -/
theorem failed_submission_keeps :
    ¬ ∀ (p : Process) (i : Invocation) (c : ConnId), AddRollsBack p i ∧ ConnectContinues p c := by
  intro h
  have hrolls := (h { name := str ['p'], application := 0, status := .ALLOCATED } sampleInvocation 0).1
  rw [addRollsBack_iff] at hrolls
  revert hrolls
  decide

end Praas.ControlPlane
