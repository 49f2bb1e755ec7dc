import Praas.Process.Workers
import Praas.Runtime.Invoker

/-! # The loops of the invokers

The C++ and the Python invoker take the invocations from `Invoker::poll`, call the function and
send its result with `Invoker::finish`. The controller frees the worker when it gets a result.

* `finish_ok`: a result names the invocation and has its code and its length.
* `Answering`: what the two loops do with one invocation, for which a result is sent or none.
* `one_result_iff`: every request is answered once, in order, exactly if `poll` accepts it and
  the function is loaded; in Python also, if the names are UTF-8 and what is raised is an
  `Exception` with a text.
-/

namespace Praas.Runtime.InvokerLoop

open Process (Buffer)
open Process.Ipc (ID_LENGTH)
open Process.IpcHeader (Message Field HEADER_OFFSET parseMessage)
open Process.IpcHeader.InvocationResult (setReturnCode setBufferLength setInvocationId)
open Process.IpcHeader.InvocationResultParsed (returnCode bufferLength)

/-! ## Results -/

/-- An `int`. -/
abbrev CInt := { n : Int // -2 ^ 31 ≤ n ∧ n < 2 ^ 31 }

/-- What is sent to the controller by `finish`. -/
structure Result where
  msg : Message
  output : Buffer

def Result.invocationId (r : Result) : Str :=
  Process.IpcHeader.InvocationResultParsed.invocationId (r.msg.data.drop HEADER_OFFSET)

/-- The id of a header that is an invocation request. -/
def requestId (header : List Byte) : Option Str :=
  match parseMessage header with
  | .ok (.invocationRequest buf) =>
    some (Process.IpcHeader.InvocationRequestParsed.invocationId buf)
  | _ => none

/-- The state of a loop: what `poll` keeps, whether the loop has ended, the invocation of the
context, what was sent, and the ids of the requests that were delivered. -/
structure Loop where
  application : Common.Application
  ended : Bool := false
  invocId : Str := []
  results : List Result := []
  requests : List Str := []

namespace Loop

@[simps] def stop (s : Loop) : Loop := { s with ended := true }

@[simps] def startInvocation (s : Loop) (key : Str) : Loop := { s with invocId := key }

@[simps] def send (s : Loop) (r : Result) : Loop := { s with results := s.results ++ [r] }

@[simps] def deliver (s : Loop) (header : List Byte) : Loop :=
  { s with requests := s.requests ++ (requestId header).toList }

/-- Both functions `finish`; an error is sent with the code -1. -/
def finish (s : Loop) (invocationId : Str) (output : Buffer) (code : Int) : Except Fault Loop := do
  let msg := setReturnCode (Message.new .invocationResult) code
  let msg := setBufferLength msg (toInt32 output.length)
  let msg ← setInvocationId msg (.ofStr invocationId)
  return s.send ⟨msg, output⟩

/-- The ids of the results. -/
def answered (s : Loop) : List Str := s.results.map Result.invocationId

end Loop

/-! ## The libraries -/

/-- The functions of the configuration, and which of them can be loaded. -/
structure Library where
  listed : List Str
  loads : Str → Bool

namespace Library

/-- `FunctionsLibrary::get_function`: a function that could not be loaded is left out. -/
def hasFunction (lib : Library) (name : Str) : Bool := decide (name ∈ lib.listed) && lib.loads name

/-- `Functions.__init__` raises if a function cannot be loaded. -/
def Initializes (lib : Library) : Prop := ∀ name ∈ lib.listed, lib.loads name = true

instance (lib : Library) : Decidable lib.Initializes := List.decidableBAll _ _

/-- `Functions.get_func`. -/
def getFunc (lib : Library) (name : Str) : Bool := decide (name ∈ lib.listed)

end Library

/-! ## What functions do -/

/-- The value that a C++ function returns, and the output. -/
structure Returned where
  code : CInt
  output : Buffer

/-- What is raised in Python: whether it is an `Exception`, and the message about it, if one can
be made, printed and encoded. -/
structure Raised where
  isException : Bool
  message : Option Buffer

/-- A value that a Python function returns: one that is an `int`, or one for which printing it
or the call of `finish` raises. -/
inductive Value where
  | none
  | int (code : CInt)
  | other (refused : Raised)

inductive PythonCall where
  | returned (value : Value) (output : Buffer)
  | raised (e : Raised)

/-- The arguments of `finish`, or what was raised before it. -/
def PythonCall.attempt : PythonCall → Except Raised (CInt × Buffer)
  | .returned .none output => .ok (⟨1, by decide⟩, output)
  | .returned (.int code) output => .ok (code, output)
  | .returned (.other refused) _ => .error refused
  | .raised e => .error e

/-- A `std::string` that has a `str` of Python. -/
def Decodes (s : Str) : Prop := ByteArray.IsValidUTF8 ⟨s.toArray⟩

instance (s : Str) : Decidable (Decodes s) := inferInstanceAs (Decidable (ByteArray.IsValidUTF8 _))

/-! ## The loops -/

/-- The body of the C++ loop. -/
def cpp (lib : Library) (s : Loop) (i : Invocation) (o : Returned) : Except Fault Loop :=
  if lib.hasFunction i.functionName then
    let s := s.startInvocation i.key
    s.finish s.invocId o.output o.code.1
  else
    -- it could not be loaded
    .ok s

/-- The handler of the Python loop; what it raises ends the program. -/
def handler (s : Loop) (e : Raised) : Loop :=
  match e.isException, e.message with
  | true, some text =>
    if Decodes s.invocId then
      match s.finish s.invocId text (-1) with
      | .ok s => s
      | .error _ => s.stop
    else s.stop
  | _, _ => s.stop

/-- The body of the Python loop. `codecError` is the text of the exception for a string that is
not UTF-8. -/
def python (codecError : Str → Buffer) (lib : Library) (s : Loop) (i : Invocation)
    (o : PythonCall) : Except Fault Loop :=
  if ¬ Decodes i.functionName then .ok s.stop
  else if ¬ lib.getFunc i.functionName then .ok s
  else if ¬ Decodes i.key then .ok (handler s ⟨true, some (codecError i.key)⟩)
  else
    let s := s.startInvocation i.key
    match o.attempt with
    | .error e => .ok (handler s e)
    | .ok (code, output) =>
      match s.finish s.invocId output code.1 with
      | .ok s => .ok s
      | .error _ => .ok s.stop

/-- A message for the worker, and what the function does that it starts. -/
structure Delivery (ω : Type) where
  header : List Byte
  input : List Byte
  outcome : ω

/-- A round of `poll` and of the loop. -/
def step {ω : Type} (body : Loop → Invocation → ω → Except Fault Loop) (s : Loop)
    (d : Delivery ω) : Except Fault Loop :=
  let s := s.deliver d.header
  if s.ended then .ok s
  else
    match Invoker.handle s.application d.header d.input with
    | .error f => .error f
    | .ok .raised => .ok s.stop
    | .ok .unsupported => .ok s
    | .ok (.updated application) => .ok { s with application := application }
    | .ok (.invocation i) => body s i d.outcome

def startCpp : Loop where
  application := {}

def startPython (lib : Library) : Loop where
  application := {}
  ended := !decide lib.Initializes

/-- The function is loaded. -/
def CppAnswers (lib : Library) (i : Invocation) (_ : Returned) : Prop :=
  lib.hasFunction i.functionName = true

/-- The names are UTF-8, the function is known, and what is raised is an `Exception` with a
message. -/
def PythonAnswers (lib : Library) (i : Invocation) (o : PythonCall) : Prop :=
  Decodes i.functionName ∧ lib.getFunc i.functionName = true ∧ Decodes i.key ∧
    ∀ e, o.attempt = .error e → e.isException = true ∧ e.message ≠ none

/-- The loop goes on, `poll` accepts the request, and the body of the loop answers it. -/
def Answered {ω : Type} (answers : Invocation → ω → Prop) (s : Loop) (d : Delivery ω) : Prop :=
  requestId d.header ≠ none → s.ended = false ∧
    ∃ i, Invoker.handle s.application d.header d.input = .ok (.invocation i) ∧
      answers i d.outcome

/-- Every request that was delivered has one result with its id, in the same order. -/
def OneEach (s : Loop) : Prop := s.answered = s.requests

/-! ## Results that are sent -/

section Results

variable {s t : Loop} {id : Str}

/-- An id that fits in the field of a header. -/
def Fits (id : Str) : Prop := id.length ≤ ID_LENGTH ∧ (0 : Byte) ∉ id

/-- A result names its invocation, with its code and the length of its output. -/
theorem finish_ok (s : Loop) (hid : Fits id) (output : Buffer) (code : CInt) :
    ∃ m, s.finish id output code.1 = .ok (s.send ⟨m, output⟩) ∧
      Result.invocationId ⟨m, output⟩ = id ∧ returnCode (m.data.drop HEADER_OFFSET) = code.1 ∧
      bufferLength (m.data.drop HEADER_OFFSET) = toInt32 output.length := by
  let calls : List (Process.IpcHeader.format .invocationResult).Call :=
    [⟨.returnCode, code.1⟩, ⟨.resultBufferLength, toInt32 output.length⟩,
      ⟨.resultId, StringView.ofStr id⟩]
  have haccepted : ∀ c ∈ calls, c.Accepted := by
    intro c hc
    simp only [calls, List.mem_cons, List.not_mem_nil, or_false] at hc
    rcases hc with rfl | rfl | rfl
    · exact code.2
    · exact ⟨toInt32_ge _, toInt32_lt _⟩
    · exact Header.Kind.accepts_ofStr hid.1 hid.2
  rcases Process.IpcHeader.run_new haccepted with ⟨o, hrun, -, hget⟩
  rcases Lts.run_cons_ok.1 hrun with ⟨o₁, hstep₁, hrun⟩
  rcases Lts.run_cons_ok.1 hrun with ⟨o₂, hstep₂, hrun⟩
  rcases Lts.run_cons_ok.1 hrun with ⟨o₃, hstep₃, hrun⟩
  obtain rfl := Except.ok.inj hrun
  obtain rfl := Except.ok.inj hstep₁
  obtain rfl := Except.ok.inj hstep₂
  rcases Lts.bind_ok hstep₃ with ⟨m, hset, ho₃⟩
  obtain rfl := Except.ok.inj ho₃
  have hid : setInvocationId (setBufferLength
      (setReturnCode (Message.new .invocationResult) code.1) (toInt32 output.length))
      (.ofStr id) = .ok m := hset
  refine ⟨m, ?_, ?_, hget .returnCode, hget .resultBufferLength⟩
  · unfold Loop.finish
    simp only [hid]
    rfl
  · exact (hget .resultId).trans (Header.Kind.chars_ofStr id)

/-- One more result, for the given id. -/
theorem finish_answers (s : Loop) (hid : Fits id) (output : Buffer) (code : CInt) :
    ∃ t, s.finish id output code.1 = .ok t ∧ t.answered = s.answered ++ [id] ∧
      t.requests = s.requests ∧ t.invocId = s.invocId := by
  rcases finish_ok s hid output code with ⟨m, hfinish, hnamed, _⟩
  refine ⟨_, hfinish, ?_, rfl, rfl⟩
  simp [Loop.answered, hnamed]

end Results

/-! ## The two bodies -/

/-- What the body of a loop does with an invocation that it answers, and with one that it does
not. -/
structure Answering {ω : Type} (body : Loop → Invocation → ω → Except Fault Loop)
    (answers : Invocation → ω → Prop) : Prop where
  answered : ∀ s i o, Fits i.key → answers i o →
    ∃ t, body s i o = .ok t ∧ t.answered = s.answered ++ [i.key] ∧ t.requests = s.requests ∧
      Fits t.invocId
  missed : ∀ s i o t, Fits s.invocId → Fits i.key → ¬ answers i o → body s i o = .ok t →
    t.requests = s.requests ∧
      (t.answered = s.answered ∨ ∃ id, id ≠ i.key ∧ t.answered = s.answered ++ [id])

theorem cpp_answering (lib : Library) : Answering (cpp lib) (CppAnswers lib) := by
  constructor
  · intro s i o hkey hloaded
    rcases finish_answers (s.startInvocation i.key) hkey o.output o.code with
      ⟨t, hfinish, hanswered, hrequests, hid⟩
    refine ⟨t, ?_, hanswered, hrequests, ?_⟩
    · exact (if_pos hloaded).trans hfinish
    · rw [hid]
      exact hkey
  · intro s i o t _ _ hmissing ht
    have hskipped : cpp lib s i o = .ok s := if_neg hmissing
    obtain rfl := Except.ok.inj (hskipped.symm.trans ht)
    exact ⟨rfl, Or.inl rfl⟩

/-- The handler sends a message for the invocation of the context, or ends the loop. -/
theorem handler_message {s : Loop} (hid : Fits s.invocId) (hdecodes : Decodes s.invocId)
    {e : Raised} (he : e.isException = true ∧ e.message ≠ none) :
    (handler s e).answered = s.answered ++ [s.invocId] ∧ (handler s e).requests = s.requests ∧
      (handler s e).invocId = s.invocId := by
  rcases e with ⟨isException, message⟩
  obtain rfl : isException = true := he.1
  cases message with
  | none => exact absurd rfl he.2
  | some text =>
    rcases finish_answers s hid text ⟨-1, by decide⟩ with ⟨t, hfinish, ht⟩
    have hhandler : handler s ⟨true, some text⟩ = t := by
      unfold handler
      simp only [hdecodes, if_true, hfinish]
    rw [hhandler]
    exact ht

theorem handler_silent {s : Loop} {e : Raised} (he : ¬ (e.isException = true ∧ e.message ≠ none)) :
    handler s e = s.stop := by
  rcases e with ⟨isException, message⟩
  cases isException with
  | false => rfl
  | true =>
    cases message with
    | none => rfl
    | some text => exact absurd ⟨rfl, Option.some_ne_none text⟩ he

/-- A key that is not UTF-8 is answered with the id of another invocation, if at all. -/
theorem handler_other {s : Loop} {e : Raised} (hid : Fits s.invocId) {key : Str}
    (hkey : ¬ Decodes key) :
    (handler s e).requests = s.requests ∧ ((handler s e).answered = s.answered ∨
      ∃ id, id ≠ key ∧ (handler s e).answered = s.answered ++ [id]) := by
  by_cases he : e.isException = true ∧ e.message ≠ none
  · by_cases hdecodes : Decodes s.invocId
    · rcases handler_message hid hdecodes he with ⟨hanswered, hrequests, _⟩
      refine ⟨hrequests, Or.inr ⟨s.invocId, ?_, hanswered⟩⟩
      rintro rfl
      exact hkey hdecodes
    · have hstop : handler s e = s.stop := by
        rcases e with ⟨isException, message⟩
        unfold handler
        split
        · rw [if_neg hdecodes]
        · rfl
      rw [hstop]
      exact ⟨rfl, Or.inl rfl⟩
  · rw [handler_silent he]
    exact ⟨rfl, Or.inl rfl⟩

theorem python_answering (codecError : Str → Buffer) (lib : Library) :
    Answering (python codecError lib) (PythonAnswers lib) := by
  constructor
  · rintro s i o hkey ⟨hname, hknown, hdecodes, hraised⟩
    unfold python
    rw [if_neg (not_not.2 hname), if_neg (not_not.2 hknown), if_neg (not_not.2 hdecodes)]
    dsimp only
    cases hattempt : o.attempt with
    | error e =>
      rcases handler_message (s := s.startInvocation i.key) hkey hdecodes (hraised e hattempt) with
        ⟨hanswered, hrequests, hid⟩
      refine ⟨_, rfl, hanswered, hrequests, ?_⟩
      rw [hid]
      exact hkey
    | ok r =>
      rcases r with ⟨code, output⟩
      rcases finish_answers (s.startInvocation i.key) hkey output code with
        ⟨t, hfinish, hanswered, hrequests, hid⟩
      refine ⟨t, ?_, hanswered, hrequests, ?_⟩
      · dsimp only
        rw [Loop.startInvocation_invocId, hfinish]
      · rw [hid]
        exact hkey
  · intro s i o t hid hkey hmissed ht
    unfold python at ht
    split_ifs at ht with hname hknown hdecodes
    · have hraised : ∃ e, o.attempt = .error e ∧ ¬ (e.isException = true ∧ e.message ≠ none) := by
        by_contra hnone
        refine hmissed ⟨hname, hknown, hdecodes, fun e he => ?_⟩
        by_contra hsilent
        exact hnone ⟨e, he, hsilent⟩
      rcases hraised with ⟨e, he, hsilent⟩
      dsimp only at ht
      rw [he] at ht
      obtain rfl := Except.ok.inj ht
      rw [handler_silent hsilent]
      exact ⟨rfl, Or.inl rfl⟩
    · obtain rfl := Except.ok.inj ht
      exact handler_other hid hdecodes
    · obtain rfl := Except.ok.inj ht
      exact ⟨rfl, Or.inl rfl⟩
    · obtain rfl := Except.ok.inj ht
      exact ⟨rfl, Or.inl rfl⟩

/-! ## Runs -/

section Runs

variable {ω : Type} {body : Loop → Invocation → ω → Except Fault Loop}
  {answers : Invocation → ω → Prop} {s t : Loop} {d : Delivery ω}

/-- `poll` returns an invocation for a request only, with its id. -/
theorem requestId_of_handle {application : Common.Application} {header input : List Byte}
    {i : Invocation} (h : Invoker.handle application header input = .ok (.invocation i)) :
    requestId header = some i.key ∧ Fits i.key := by
  unfold Invoker.handle at h
  split at h
  · cases h
  · rename_i buf hparse
    unfold Invoker.invocationRequest at h
    rcases Lts.bind_ok h with ⟨lens, _, h⟩
    split_ifs at h
    · cases h
    · have hid : requestId header =
          some (Process.IpcHeader.InvocationRequestParsed.invocationId buf) := by
        unfold requestId
        rw [hparse]
      obtain rfl := Handled.invocation.inj (Except.ok.inj h)
      exact ⟨hid, length_cstr_le .., Process.Ipc.zero_not_mem_takeWhile _⟩
  · cases h
  · cases h

theorem handle_of_not_request (application : Common.Application) {header : List Byte}
    (input : List Byte) (h : requestId header = none) :
    Invoker.handle application header input = .ok .raised ∨
      Invoker.handle application header input = .ok .unsupported ∨
      ∃ a, Invoker.handle application header input = .ok (.updated a) := by
  unfold Invoker.handle
  split
  · exact Or.inl rfl
  · rename_i buf hparse
    unfold requestId at h
    rw [hparse] at h
    cases h
  · exact Or.inr (Or.inr ⟨_, rfl⟩)
  · exact Or.inr (Or.inl rfl)

/-- What holds between two rounds. -/
structure Even (s : Loop) : Prop where
  oneEach : OneEach s
  fits : Fits s.invocId

/-- A round in which nothing is requested keeps this, whatever `poll` does. -/
theorem step_even (h : Even s) (hnone : requestId d.header = none) :
    ∃ t, step body s d = .ok t ∧ Even t := by
  have hdeliver : s.deliver d.header = s := by
    unfold Loop.deliver
    rw [hnone]
    simp
  unfold step
  dsimp only
  rw [hdeliver]
  split_ifs
  · exact ⟨s, rfl, h⟩
  · rcases handle_of_not_request s.application d.input hnone with
      hhandle | hhandle | ⟨a, hhandle⟩
    · rw [hhandle]
      exact ⟨_, rfl, h.oneEach, h.fits⟩
    · rw [hhandle]
      exact ⟨_, rfl, h⟩
    · rw [hhandle]
      exact ⟨_, rfl, h.oneEach, h.fits⟩

theorem step_running (hended : s.ended = false) :
    step body s d =
      match Invoker.handle s.application d.header d.input with
      | .error f => .error f
      | .ok .raised => .ok (s.deliver d.header).stop
      | .ok .unsupported => .ok (s.deliver d.header)
      | .ok (.updated application) => .ok { s.deliver d.header with application := application }
      | .ok (.invocation i) => body (s.deliver d.header) i d.outcome := by
  unfold step
  exact if_neg (by simp [hended])

theorem step_answered (hbody : Answering body answers) (h : Even s) (hd : Answered answers s d) :
    ∃ t, step body s d = .ok t ∧ Even t := by
  by_cases hnone : requestId d.header = none
  · exact step_even h hnone
  · rcases hd hnone with ⟨hended, i, hhandle, hanswers⟩
    rcases requestId_of_handle hhandle with ⟨hid, hkey⟩
    rcases hbody.answered (s.deliver d.header) i d.outcome hkey hanswers with
      ⟨t, ht, hanswered, hrequests, hfits⟩
    have hstep : step body s d = .ok t := by
      rw [step_running hended, hhandle]
      exact ht
    refine ⟨t, hstep, ?_, hfits⟩
    have hold : (s.deliver d.header).answered = s.requests := h.oneEach
    unfold OneEach
    rw [hanswered, hrequests, hold, Loop.deliver_requests, hid]
    rfl

/-- A request without a result, or with that of another one. -/
theorem not_oneEach (h : OneEach s) {id : Str} (hid : requestId d.header = some id)
    (hrequests : t.requests = (s.deliver d.header).requests)
    (hanswered : t.answered = s.answered ∨
      ∃ id', id' ≠ id ∧ t.answered = s.answered ++ [id']) : ¬ OneEach t := by
  have hsame : s.answered = s.requests := h
  intro ht
  unfold OneEach at ht
  rw [hrequests, Loop.deliver_requests, hid, ← hsame] at ht
  rcases hanswered with hnone | ⟨id', hne, hother⟩
  · rw [hnone] at ht
    simp at ht
  · rw [hother] at ht
    exact hne (List.singleton_inj.1 (List.append_cancel_left ht))

theorem step_missed (hbody : Answering body answers) (h : Even s) (hd : ¬ Answered answers s d)
    (ht : step body s d = .ok t) : ¬ OneEach t := by
  unfold Answered at hd
  push Not at hd
  rcases hd with ⟨hrequest, hmissed⟩
  rcases Option.ne_none_iff_exists'.1 hrequest with ⟨id, hid⟩
  have hunanswered : ∀ {u : Loop}, u = t → u.requests = (s.deliver d.header).requests →
      u.answered = s.answered → ¬ OneEach t := by
    rintro u rfl hrequests hanswered
    exact not_oneEach h.oneEach hid hrequests (Or.inl hanswered)
  cases hended : s.ended with
  | true =>
    have hstays : step body s d = .ok (s.deliver d.header) := if_pos hended
    exact hunanswered (Except.ok.inj (hstays.symm.trans ht)) rfl rfl
  | false =>
    rw [step_running hended] at ht
    split at ht
    · cases ht
    · exact hunanswered (Except.ok.inj ht) rfl rfl
    · exact hunanswered (Except.ok.inj ht) rfl rfl
    · exact hunanswered (Except.ok.inj ht) rfl rfl
    · rename_i i hhandle
      rcases requestId_of_handle hhandle with ⟨hkey, hfits⟩
      obtain rfl := Option.some.inj (hid.symm.trans hkey)
      rcases hbody.missed (s.deliver d.header) i d.outcome t h.fits hfits
        (hmissed hended i hhandle) ht with ⟨hrequests, hanswered⟩
      exact not_oneEach h.oneEach hid hrequests hanswered

theorem loop_iff (hbody : Answering body answers) (h : Even s) (ds : List (Delivery ω)) :
    (∀ fs, fs <+: ds → ∃ t, Lts.run (step body) s fs = .ok t ∧ OneEach t) ↔
      Lts.Meets (step body) (Answered answers) s ds :=
  Lts.keeps_iff_meets (fun _ _ h hd => step_answered hbody h hd) (fun _ h => h.oneEach)
    (fun _ _ _ h hd ht => step_missed hbody h hd ht) h

end Runs

theorem even_start (application : Common.Application) (ended : Bool) :
    Even { application := application, ended := ended } :=
  ⟨rfl, Nat.zero_le _, List.not_mem_nil⟩

/-- **One result per request.** In both loops, whatever is delivered and whatever the functions
do, every request has exactly one result with its id, in the same order, if and only if each one
finds the loop running and is accepted by `poll`, and its function is loaded; in Python also its
names are UTF-8, and if the function raises, it is an `Exception` that has a message. -/
theorem one_result_iff (lib : Library) (codecError : Str → Buffer)
    (ds : List (Delivery Returned)) (calls : List (Delivery PythonCall)) :
    ((∀ fs, fs <+: ds → ∃ t, Lts.run (step (cpp lib)) startCpp fs = .ok t ∧ OneEach t) ↔
      Lts.Meets (step (cpp lib)) (Answered (CppAnswers lib)) startCpp ds) ∧
    ((∀ fs, fs <+: calls →
      ∃ t, Lts.run (step (python codecError lib)) (startPython lib) fs = .ok t ∧ OneEach t) ↔
        Lts.Meets (step (python codecError lib)) (Answered (PythonAnswers lib)) (startPython lib)
          calls) := by
  constructor
  · exact loop_iff (cpp_answering lib) (even_start _ _) ds
  · exact loop_iff (python_answering codecError lib) (even_start _ _) calls

/-- The header of a request `k` for the function `f`, without arguments. -/
def sampleHeader : List Byte :=
  leBytes 2 Process.IpcHeader.MessageType.invocationRequest.code ++ List.replicate 4 0 ++
    strncpy (str ['k']) 16 ++ strncpy (str ['f']) 32 ++ List.replicate 74 0

def sampleLibrary (loaded : Bool) : Library where
  listed := [str ['f']]
  loads _ := loaded

example : (Lts.run (step (cpp (sampleLibrary true))) startCpp
    [⟨sampleHeader, [], ⟨0, by decide⟩, [7]⟩]).toOption.map Loop.answered =
      some [str ['k']] := by
  decide +kernel

/-- The function is in the configuration and could not be loaded: the request has no result. -/
theorem unloaded_unanswered :
    ∃ t, Lts.run (step (cpp (sampleLibrary false))) startCpp
        [⟨sampleHeader, [], ⟨0, by decide⟩, [7]⟩] = .ok t ∧
      t.requests = [str ['k']] ∧ t.ended = false ∧ t.answered = [] ∧ ¬ OneEach t := by
  have hrun := Lts.run_test (step (cpp (sampleLibrary false))) startCpp
    [⟨sampleHeader, [], ⟨0, by decide⟩, [7]⟩]
    (fun t => t.requests = [str ['k']] ∧ t.ended = false ∧ t.answered = []) (by decide +kernel)
  rcases hrun with ⟨t, ht, hrequests, hended, hanswered⟩
  refine ⟨t, ht, hrequests, hended, hanswered, ?_⟩
  unfold OneEach
  rw [hrequests, hanswered]
  simp

end Praas.Runtime.InvokerLoop
