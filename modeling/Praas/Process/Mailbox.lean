import Praas.Lib.Lists
import Praas.Lib.Lts
import Praas.Process.Controller

/-! # Matching of messages and GETs

Runs of the controller in which workers ask for messages and messages are put, by
workers for their own process or by other processes:
* `deliver_outcome`, `processGet_outcome` — what one request does to the mailbox
  and the table of pending GETs;
* `inv_step` — no message lies in the mailbox while a GET that matches it is
  pending, and every message is stored, handed over or rejected once;
* `mailbox_matching` — both for every run, if the name of the process itself fits
  the header of a reply.
-/

namespace Praas.Process.Mailbox

open Ipc (Text)

/-! ## The runs -/

/-- The message that an input puts: name, source and payload. -/
structure Mail where
  name : Text Ipc.NAME_LENGTH
  source : Str
  payload : Buffer

def mailOf (processId : Str) : Controller.Input → Option Mail
  | .internal _ (.putRequest req) payload _ => some ⟨req.name, processId, payload⟩
  | .external m =>
    some ⟨Text.read m.msg Message.HEADER_OFFSET Message.NAME_LENGTH,
      Message.PutMessage.processId m.msg, m.payload⟩
  | _ => none

/-- A GET, a PUT of a worker to its own process, or a `PutMessage`; none of them
about state. -/
def IsMail (processId : Str) : Controller.Input → Prop
  | .internal _ (.getRequest req) _ _ => req.state = false
  | .internal _ (.putRequest req) _ _ =>
    req.state = false ∧ (req.processId.1 = SELF_PROCESS ∨ req.processId.1 = processId)
  | .external m => readInt16 m.msg 0 = Message.MessageType.putMessage.code
  | _ => False

instance (processId : Str) (e : Controller.Input) : Decidable (IsMail processId e) :=
  match e with
  | .internal _ (.getRequest _) _ _ => inferInstanceAs (Decidable (_ = _))
  | .internal _ (.putRequest _) _ _ => inferInstanceAs (Decidable (_ ∧ _))
  | .external _ => inferInstanceAs (Decidable (_ = _))
  | .internal _ (.invocationRequest _) _ _ => inferInstanceAs (Decidable False)
  | .internal _ (.invocationResult _) _ _ => inferInstanceAs (Decidable False)
  | .internal _ .stateKeysRequest _ _ => inferInstanceAs (Decidable False)
  | .updates _ => inferInstanceAs (Decidable False)
  | .schedule => inferInstanceAs (Decidable False)

/-- The message a reply to a GET carries. -/
def delivery : Output → Option (Str × Buffer)
  | .toWorker _ (.getRequest m payload) => payload.map (m.name.1, ·)
  | _ => none

/-- The controller, and the account of the messages put, handed over to a GET, and
dropped because the name was taken. -/
structure Mailroom where
  ctl : Controller
  puts : List (Str × Buffer)
  handed : List (Str × Buffer)
  rejected : List (Str × Buffer)

def Mailroom.new (ctl : Controller) : Mailroom where
  ctl := ctl
  puts := []
  handed := []
  rejected := []

/-- The message is dropped: its name is taken and nothing is sent. -/
def isRejected (c : Controller) (sent : List Output) (m : Mail) : Bool :=
  (c.mailbox.msgs m.name.1).isSome && sent.isEmpty

def Mailroom.step (s : Mailroom) (e : Controller.Input) : Except Fault Mailroom := do
  let r ← s.ctl.handle e
  let mail := (mailOf s.ctl.processId e).toList
  return {
    ctl := r.1
    puts := s.puts ++ mail.map fun m => (m.name.1, m.payload)
    handed := s.handed ++ r.2.filterMap delivery
    rejected := s.rejected ++
      (mail.filter (isRejected s.ctl r.2)).map fun m => (m.name.1, m.payload) }

/-! ## What one request does -/

/-- A PUT goes to one GET that matches it, which is removed; or it is stored under
a free name; or its name is taken and nothing changes. -/
inductive PutOutcome (c : Controller) (m : Mail) : Except Fault (Controller × List Output) → Prop
  | handed (before after : PendingMessages) (source : Str) (w : ℕ) (sender : Text Ipc.NAME_LENGTH)
      (pending : c.pendingMsgs = before ++ (m.name.1, ⟨.get, some source, w⟩) :: after)
      (fits : source = ANY_PROCESS ∨ source = m.source)
      (named : sender.1 = m.source.takeWhile (· ≠ 0)) :
      PutOutcome c m (.ok (c.setPending (before ++ after),
        [.toWorker w (.getRequest ⟨sender, m.name, false⟩ (some m.payload))]))
  | stored (free : c.mailbox.msgs m.name.1 = none)
      (unmatched : ∀ p ∈ c.pendingMsgs, ¬ PendingMessages.Matches m.name.1 m.source p) :
      PutOutcome c m (.ok (c.setMailbox { c.mailbox with
        msgs := Function.update c.mailbox.msgs m.name.1 (some ⟨m.source, m.payload⟩) }, []))
  | rejected (taken : (c.mailbox.msgs m.name.1).isSome) : PutOutcome c m (.ok (c, []))

/-- A GET takes the message of its name if the source is right; otherwise it is
pending. -/
inductive GetOutcome (c : Controller) (w : ℕ) (req : Ipc.GenericRequestParsed) :
    Except Fault (Controller × List Output) → Prop
  | answered (m : MessageStore.Message Buffer) (found : c.mailbox.msgs req.name.1 = some m)
      (fits : c.resolve req.processId.1 = ANY_PROCESS ∨ m.source = c.resolve req.processId.1) :
      GetOutcome c w req (.ok (c.setMailbox { c.mailbox with
          msgs := Function.update c.mailbox.msgs req.name.1 none },
        [.toWorker w (.getRequest ⟨req.processId, req.name, false⟩ (some m.data))]))
  | waits (before after : PendingMessages) (pending : c.pendingMsgs = before ++ after)
      (missing : ∀ m ∈ c.mailbox.msgs req.name.1,
        c.resolve req.processId.1 ≠ ANY_PROCESS ∧ m.source ≠ c.resolve req.processId.1) :
      GetOutcome c w req (.ok (c.setPending (before ++
        (req.name.1, ⟨.get, some (c.resolve req.processId.1), w⟩) :: after), []))

theorem findGet_some {msgs rest : PendingMessages} {key source : Str} {w : ℕ}
    (h : msgs.findGet key source = (some w, rest)) :
    ∃ before after s, msgs = before ++ (key, ⟨.get, some s, w⟩) :: after ∧
      rest = before ++ after ∧ (s = ANY_PROCESS ∨ s = source) := by
  unfold PendingMessages.findGet at h
  rcases Prod.mk.inj h with ⟨hfind, rfl⟩
  rcases Option.map_eq_some_iff.1 hfind with ⟨⟨k, type, s, w'⟩, hp, rfl⟩
  rcases Lists.find_erase hp with ⟨hmatch, before, after, hmsgs, hrest, -⟩
  have hm : PendingMessages.Matches key source (k, ⟨type, s, w'⟩) := of_decide_eq_true hmatch
  rcases hm with ⟨hk, hs, ht⟩
  obtain rfl : k = key := hk
  obtain rfl : type = .get := ht
  rcases hs with hs | hs
  · obtain rfl : s = some ANY_PROCESS := hs
    exact ⟨before, after, ANY_PROCESS, hmsgs, hrest, Or.inl rfl⟩
  · obtain rfl : s = some source := hs
    exact ⟨before, after, source, hmsgs, hrest, Or.inr rfl⟩

theorem findGet_none {msgs rest : PendingMessages} {key source : Str}
    (h : msgs.findGet key source = (none, rest)) :
    ∀ p ∈ msgs, ¬ PendingMessages.Matches key source p := by
  unfold PendingMessages.findGet at h
  have hfind : msgs.find? (fun m => PendingMessages.Matches key source m) = none :=
    Option.map_eq_none_iff.1 (Prod.mk.inj h).1
  intro p hp
  simpa using List.find?_eq_none.1 hfind p hp

theorem deliver_outcome (c : Controller) (m : Mail) (hs : m.source.length ≤ Ipc.NAME_LENGTH) :
    PutOutcome c m (c.deliver m.name.1 m.source m.payload) := by
  unfold Controller.deliver
  cases hfound : c.pendingMsgs.findGet m.name.1 m.source with
  | mk w rest =>
    cases w with
    | some w =>
      rcases findGet_some hfound with ⟨before, after, source, hpending, rfl, hfits⟩
      simp only [Ipc.GetRequest.setProcessId_ok hs, Ipc.GetRequest.setName_text]
      exact .handed before after source w _ hpending hfits rfl
    | none =>
      have hno := findGet_none hfound
      unfold MessageStore.put
      cases hm : c.mailbox.msgs m.name.1 with
      | none => exact .stored hm hno
      | some x => exact .rejected (by simp [hm])

theorem processGet_outcome (c : Controller) (w : ℕ) (req : Ipc.GenericRequestParsed) (env : Env)
    (hstate : req.state = false) : GetOutcome c w req (c.processGet w req env) := by
  unfold Controller.processGet
  rw [if_neg (by simp [hstate])]
  unfold MessageStore.tryGet
  have hwaits : (∀ m ∈ c.mailbox.msgs req.name.1,
      c.resolve req.processId.1 ≠ ANY_PROCESS ∧ m.source ≠ c.resolve req.processId.1) →
      GetOutcome c w req (.ok (c.setPending (c.pendingMsgs.insertGet env.slot req.name.1
        (c.resolve req.processId.1) w), [])) :=
    .waits _ _ (List.take_append_drop env.slot c.pendingMsgs).symm
  cases hm : c.mailbox.msgs req.name.1 with
  | none => exact hwaits (by simp [hm])
  | some m =>
    by_cases hsrc : c.resolve req.processId.1 ≠ ANY_PROCESS ∧ m.source ≠ c.resolve req.processId.1
    · simp only [if_pos hsrc]
      exact hwaits (by simpa [hm] using hsrc)
    · simp only [if_neg hsrc, Ipc.GetRequest.setProcessId_text, Ipc.GetRequest.setName_text]
      exact .answered m hm (by tauto)

/-! ## The invariant -/

/-- A message of this name and payload lies in the mailbox. -/
def Stored (c : Controller) (x : Str × Buffer) : Prop :=
  (c.mailbox.msgs x.1).map (·.data) = some x.2

instance (c : Controller) (x : Str × Buffer) : Decidable (Stored c x) :=
  inferInstanceAs (Decidable (_ = _))

/-- No pending GET matches a message in the mailbox. -/
def Apart (c : Controller) : Prop :=
  ∀ name m, c.mailbox.msgs name = some m →
    ∀ p ∈ c.pendingMsgs, ¬ PendingMessages.Matches name m.source p

structure Inv (processId : Str) (s : Mailroom) : Prop where
  self : s.ctl.processId = processId
  apart : Apart s.ctl
  account : ∀ x, s.puts.count x =
    s.handed.count x + s.rejected.count x + if Stored s.ctl x then 1 else 0

theorem inv_new (processId : Str) (n : ℕ) (functions : Str → Option Trigger) :
    Inv processId (Mailroom.new (Controller.new processId n functions)) where
  self := rfl
  apart _ _ h := by cases h
  account x := by simp [Mailroom.new, Stored, Controller.new, MessageStore.empty]

/-- An input of these runs is a PUT or a GET. -/
theorem handle_outcome {c : Controller} {e : Controller.Input} (he : IsMail c.processId e)
    (hown : c.processId.length ≤ Ipc.NAME_LENGTH) :
    (∃ m, mailOf c.processId e = some m ∧ PutOutcome c m (c.handle e)) ∨
    (∃ w req, mailOf c.processId e = none ∧ GetOutcome c w req (c.handle e)) := by
  cases e with
  | external m =>
    left
    refine ⟨_, rfl, ?_⟩
    -- `he` is the type of the message
    have hparse : Message.MessageParser.parse m.msg = .ok (.putMessage m.msg) := by
      unfold Message.MessageParser.parse
      rw [show readInt16 m.msg 0 = 9 from he]
      rfl
    show PutOutcome c _ (c.processExternalMessage m)
    unfold Controller.processExternalMessage
    rw [hparse]
    exact deliver_outcome c ⟨_, _, m.payload⟩ (length_cstr_le ..)
  | internal w msg payload env =>
    cases msg with
    | getRequest req => exact Or.inr ⟨w, req, rfl, processGet_outcome c w req env he⟩
    | putRequest req =>
      left
      refine ⟨_, rfl, ?_⟩
      show PutOutcome c _ (c.processPut req payload env)
      have hself : c.IsSelf req.processId.1 := he.2
      unfold Controller.processPut
      rw [if_neg (by simp [he.1]), if_pos hself]
      exact deliver_outcome c ⟨req.name, c.processId, payload⟩ hown
    | invocationRequest req => exact absurd he id
    | invocationResult req => exact absurd he id
    | stateKeysRequest => exact absurd he id
  | updates updates => exact absurd he id
  | schedule => exact absurd he id

theorem step_ok {s : Mailroom} {e : Controller.Input} {r : Controller × List Output}
    (h : s.ctl.handle e = .ok r) :
    s.step e = .ok {
      ctl := r.1
      puts := s.puts ++ (mailOf s.ctl.processId e).toList.map fun m => (m.name.1, m.payload)
      handed := s.handed ++ r.2.filterMap delivery
      rejected := s.rejected ++ ((mailOf s.ctl.processId e).toList.filter
        (isRejected s.ctl r.2)).map fun m => (m.name.1, m.payload) } := by
  unfold Mailroom.step
  rw [h]
  rfl

/-- Storing a message under a free name adds it, once. -/
theorem stored_insert {c : Controller} {name : Str} (source : Str) (payload : Buffer)
    (free : c.mailbox.msgs name = none) (x : Str × Buffer) :
    (if Stored (c.setMailbox { c.mailbox with
        msgs := Function.update c.mailbox.msgs name (some ⟨source, payload⟩) }) x then 1 else 0) =
      (if Stored c x then 1 else 0) + [(name, payload)].count x := by
  rcases x with ⟨k, b⟩
  rcases eq_or_ne k name with rfl | hne
  · simp [Stored, free, List.count_singleton]
  · simp [Stored, hne, hne.symm]

/-- Taking the message of a name out removes it, once. -/
theorem stored_erase {c : Controller} {name : Str} {m : MessageStore.Message Buffer}
    (found : c.mailbox.msgs name = some m) (x : Str × Buffer) :
    (if Stored c x then 1 else 0) =
      (if Stored (c.setMailbox { c.mailbox with
        msgs := Function.update c.mailbox.msgs name none }) x then 1 else 0) +
        [(name, m.data)].count x := by
  rcases x with ⟨k, b⟩
  rcases eq_or_ne k name with rfl | hne
  · simp [Stored, found, List.count_singleton]
  · simp [Stored, hne, hne.symm]

/-- A request keeps the invariant, and the controller does not raise. -/
theorem inv_step {processId : Str} {s : Mailroom} {e : Controller.Input} (hs : Inv processId s)
    (he : IsMail processId e) (hown : processId.length ≤ Ipc.NAME_LENGTH) :
    ∃ s', s.step e = .ok s' ∧ Inv processId s' := by
  obtain rfl := hs.self
  rcases handle_outcome he hown with ⟨m, hm, hput⟩ | ⟨w, req, hm, hget⟩
  · generalize hr : s.ctl.handle e = r at hput
    cases hput with
    | handed before after source w sender pending fits named =>
      refine ⟨_, step_ok hr, rfl, ?_, fun x => ?_⟩
      · -- fewer GETs are pending, over the same mailbox
        intro name m' hm' p hp
        refine hs.apart name m' hm' p ?_
        rw [pending]
        rcases List.mem_append.1 hp with hp | hp
        · exact List.mem_append_left _ hp
        · exact List.mem_append_right _ (List.mem_cons_of_mem _ hp)
      · have hx := hs.account x
        have hkept : Stored (s.ctl.setPending (before ++ after)) x ↔ Stored s.ctl x := Iff.rfl
        simp [hm, isRejected, delivery, hkept, hx]
        omega
    | stored free unmatched =>
      refine ⟨_, step_ok hr, rfl, ?_, fun x => ?_⟩
      · intro name m' hm' p hp
        rcases eq_or_ne name m.name.1 with rfl | hne
        · obtain rfl : ⟨m.source, m.payload⟩ = m' := by simpa using hm'
          exact unmatched p hp
        · exact hs.apart name m' (by simpa [hne] using hm') p hp
      · have hx := hs.account x
        have hnew := stored_insert m.source m.payload free x
        simp [hm, isRejected, free, hx, hnew]
        omega
    | rejected taken =>
      refine ⟨_, step_ok hr, rfl, hs.apart, fun x => ?_⟩
      have hx := hs.account x
      simp [hm, isRejected, taken, hx]
      omega
  · generalize hr : s.ctl.handle e = r at hget
    cases hget with
    | answered m found fits =>
      refine ⟨_, step_ok hr, rfl, ?_, fun x => ?_⟩
      · intro name m' hm' p hp
        rcases eq_or_ne name req.name.1 with rfl | hne
        · simp at hm'
        · exact hs.apart name m' (by simpa [hne] using hm') p hp
      · have hx := hs.account x
        have hold := stored_erase found x
        simp [hm, delivery, hx, hold]
        omega
    | waits before after pending missing =>
      refine ⟨_, step_ok hr, rfl, ?_, fun x => ?_⟩
      · intro name m' hm' p hp
        have hcases : p = (req.name.1, ⟨.get, some (s.ctl.resolve req.processId.1), w⟩) ∨
            p ∈ s.ctl.pendingMsgs := by
          rw [pending]
          simp only [List.mem_append]
          simpa [or_left_comm, or_assoc] using hp
        rcases hcases with rfl | hp
        · -- the new GET found no message
          rintro ⟨rfl, hsrc, -⟩
          have hmiss := missing m' hm'
          rcases hsrc with hsrc | hsrc
          · exact hmiss.1 (Option.some.inj hsrc)
          · exact hmiss.2 (Option.some.inj hsrc).symm
        · exact hs.apart name m' hm' p hp
      · have hx := hs.account x
        have hkept : Stored (s.ctl.setPending (before ++ (req.name.1,
          ⟨.get, some (s.ctl.resolve req.processId.1), w⟩) :: after)) x ↔ Stored s.ctl x := Iff.rfl
        simpa [hm, hkept] using hx

/-! ## Matching, in every run -/

/-- What holds in every reachable state: no pending GET matches a stored message;
every PUT and every GET has one of the outcomes above; and each message put was
handed over once, rejected, or is stored. -/
structure Matched (s : Mailroom) : Prop where
  apart : Apart s.ctl
  put : ∀ e m, IsMail s.ctl.processId e → mailOf s.ctl.processId e = some m →
    PutOutcome s.ctl m (s.ctl.handle e)
  get : ∀ w req payload env, req.state = false →
    GetOutcome s.ctl w req (s.ctl.handle (.internal w (.getRequest req) payload env))
  once : ∀ x, s.puts.count x =
    s.handed.count x + s.rejected.count x + if Stored s.ctl x then 1 else 0

theorem matched_of_inv {processId : Str} {s : Mailroom} (hs : Inv processId s)
    (hown : processId.length ≤ Ipc.NAME_LENGTH) : Matched s := by
  obtain rfl := hs.self
  refine ⟨hs.apart, ?_, ?_, hs.account⟩
  · intro e m he hm
    rcases handle_outcome he hown with ⟨m', hm', hput⟩ | ⟨w, req, hno, -⟩
    · obtain rfl : m' = m := by simpa [hm'] using hm
      exact hput
    · simp [hno] at hm
  · intro w req payload env hstate
    exact processGet_outcome s.ctl w req env hstate

/-- Every run of GETs and PUTs is served, and what is put is matched with what is
asked for, provided that the name of the process fits the header of a reply. -/
theorem mailbox_matching (processId : Str) (n : ℕ) (functions : Str → Option Trigger)
    (hown : processId.length ≤ Ipc.NAME_LENGTH) (es : List Controller.Input)
    (hes : ∀ e ∈ es, IsMail processId e) :
    ∃ s, Lts.run Mailroom.step (Mailroom.new (Controller.new processId n functions)) es = .ok s ∧
      Matched s := by
  rcases Lts.run_keeps (C := fun _ e => IsMail processId e)
    (fun s e hs he => inv_step hs he hown) (inv_new processId n functions)
    (Lts.meets_of_forall (fun e he _ => hes e he) _) with ⟨s, hrun, hs⟩
  exact ⟨s, hrun, matched_of_inv hs hown⟩

/-! ### Two requests of one worker -/

def nameOf (s : Str) (h : s.length ≤ Ipc.NAME_LENGTH ∧ (0 : Byte) ∉ s := by decide) :
    Text Ipc.NAME_LENGTH := ⟨s, h⟩

/-- A worker asks its own process for the message `m`. -/
def getSelf : Controller.Input :=
  .internal 0 (.getRequest ⟨nameOf SELF_PROCESS, nameOf (str ['m']), false⟩) [] {}

/-- Another one puts it there. -/
def putSelf : Controller.Input :=
  .internal 1 (.putRequest ⟨nameOf SELF_PROCESS, nameOf (str ['m']), false⟩) [7] {}

theorem get_then_put_matched :
    ∃ s, Lts.run Mailroom.step (Mailroom.new (Controller.new (str ['p']) 2 fun _ => none))
      [getSelf, putSelf] = .ok s ∧ Matched s :=
  mailbox_matching (str ['p']) 2 (fun _ => none) (by decide) [getSelf, putSelf] (by decide)

/-- With a name of 33 bytes the waiting GET is removed and the reply to it raises:
the message is neither handed over nor stored nor rejected. -/
theorem long_name_loses_message :
    let own : Str := List.replicate 33 97
    let start := Mailroom.new (Controller.new own 2 fun _ => none)
    (∀ e ∈ [getSelf, putSelf], IsMail own e) ∧
      ∃ s m, Lts.run Mailroom.step start [getSelf] = .ok s ∧ mailOf own putSelf = some m ∧
        ¬ PutOutcome s.ctl m (s.ctl.handle putSelf) := by
  intro own start
  refine ⟨by decide, _, _, rfl, rfl, ?_⟩
  intro h
  generalize hr : Controller.handle _ putSelf = r at h
  have hraise : r = .error (.invalidArgument "Process name too long" 33 Ipc.NAME_LENGTH) := by
    rw [← hr]
    rfl
  rw [hraise] at h
  cases h

end Praas.Process.Mailbox
