import Praas.Lib.Lts
import Praas.Runtime.Context

/-! # Application updates on the channel of replies

The controller sends a worker its invocations, the replies to its calls and the
application updates over one channel. `Invoker::poll` applies the updates it
reads, but a call takes the next message for its reply.

A worker numbers its calls, and a reply on the channel carries the number of the
call it answers.
* `sound_step` — as long as no call reads an update, what a call reads is its reply;
* `updates_undisturbed` — then every call returns its own reply and every update is
  applied once, in order.
-/

namespace Praas.Runtime

open Process (WorkerMessage Controller Output Env Buffer)
open Process.Ipc (Text NAME_LENGTH)
open Common (Application ApplicationUpdate)

/-! ## Workers and their channels -/

inductive Phase where
  | polling
  | running
  | blocked (index : ℕ) (call : Call)
deriving DecidableEq

/-- The number of the call that blocks. -/
def Phase.waiting : Phase → List ℕ
  | .blocked k _ => [k]
  | _ => []

/-- How a call ended: the number of the reply it read, and what it returned. -/
structure Outcome where
  index : ℕ
  call : Call
  reply : Option ℕ
  result : Except GetFailure WorkerMessage

structure Worker where
  application : Application
  phase : Phase
  /-- The controller has dispatched an invocation to it. -/
  busy : Bool
  /-- `_user_buffers`, and the next address of the allocator. -/
  userBuffers : List Ptr
  next : ℕ
  /-- Calls made, and requests the controller has not answered. -/
  made : ℕ
  owed : List (ℕ × Call)
  /-- The replies of the controller. -/
  answered : List (ℕ × WorkerMessage)
  channel : List (Option ℕ × WorkerMessage)
  outcomes : List Outcome

namespace Worker

/-- `Invoker::Invoker`. -/
def new (processId : Str) : Worker where
  application := { activeProcesses := [processId] }
  phase := .polling
  busy := false
  userBuffers := []
  next := 0
  made := 0
  owed := []
  answered := []
  channel := []
  outcomes := []

@[simps] def push (v : Worker) (msgs : List (Option ℕ × WorkerMessage)) : Worker :=
  { v with channel := v.channel ++ msgs }

/-- One round of `Invoker::poll`. -/
def poll (v : Worker) : Worker :=
  match v.phase, v.channel with
  | .polling, (_, .invocationRequest _ _) :: rest => { v with phase := .running, channel := rest }
  | .polling, (_, .applicationUpdate m) :: rest =>
    { v with application := v.application.update m.statusChange m.processId.1, channel := rest }
  | .polling, _ :: rest => { v with channel := rest }
  | _, _ => v

/-- The function makes a call. Without a buffer for its input nothing is sent. -/
def call (v : Worker) (c : Call) : Worker :=
  if v.phase = .running then
    if c.copies v.userBuffers = 0 then
      { v with
        made := v.made + 1
        outcomes := v.outcomes ++ [⟨v.made, c, none, .error .noBuffer⟩] }
    else
      { v with
        made := v.made + 1
        phase := .blocked v.made c
        owed := v.owed ++ List.replicate (c.copies v.userBuffers) (v.made, c) }
  else v

/-- The controller answers the request it has had longest. -/
def reply (v : Worker) (r : Content) : Worker :=
  match v.owed with
  | (k, c) :: rest =>
    { v.push [(some k, c.answer r)] with
      owed := rest
      answered := v.answered ++ [(k, c.answer r)] }
  | [] => v

/-- `Invoker::get<MsgType>`: the next message is taken for the reply. -/
def receive (v : Worker) : Worker :=
  match v.phase, v.channel with
  | .blocked k c, (tag, m) :: rest =>
    { v with
      phase := .running
      channel := rest
      userBuffers := c.keep v.userBuffers v.next m
      next := v.next + 1
      outcomes := v.outcomes ++ [⟨k, c, tag, c.accept m⟩] }
  | _, _ => v

/-- `Context::get_buffer`. -/
def getBuffer (v : Worker) : Worker :=
  if v.phase = .running then
    { v with userBuffers := v.userBuffers ++ [some v.next], next := v.next + 1 }
  else v

/-- The function returns. -/
def finish (v : Worker) : Worker :=
  if v.phase = .running then
    { v with phase := .polling, busy := false, userBuffers := [] }
  else v

end Worker

/-! ## The system -/

structure Channels where
  ctl : Controller
  worker : ℕ → Worker
  broadcast : List ApplicationUpdate

inductive Event where
  | updates (us : List (Common.Status × Text NAME_LENGTH))
  | dispatch (w : ℕ) (m : Process.Ipc.InvocationRequest) (payload : List Buffer)
  | poll (w : ℕ)
  | call (w : ℕ) (c : Call)
  | reply (w : ℕ) (r : Content)
  | receive (w : ℕ)
  | getBuffer (w : ℕ)
  | finish (w : ℕ)

/-- The updates of an event. -/
def updatesOf (us : List (Common.Status × Text NAME_LENGTH)) : List ApplicationUpdate :=
  us.map fun u => ⟨u.1, u.2.1⟩

/-- What the controller sends to one worker. -/
def messageFor (w : ℕ) : Output → Option (Option ℕ × WorkerMessage)
  | .toWorker v m => if v = w then some (none, m) else none
  | .server _ => none

namespace Channels

def new (ctl : Controller) : Channels where
  ctl := ctl
  worker := fun _ => Worker.new ctl.processId
  broadcast := []

@[simps] def setWorker (s : Channels) (w : ℕ) (v : Worker) : Channels :=
  { s with worker := Function.update s.worker w v }

def step (s : Channels) : Event → Except Fault Channels
  | .updates us => do
    let r ← s.ctl.handle (.updates (updatesOf us))
    return {
      ctl := r.1
      worker := fun w => (s.worker w).push (r.2.filterMap (messageFor w))
      broadcast := s.broadcast ++ updatesOf us }
  | .dispatch w m payload =>
    if (s.worker w).busy then .ok s
    else .ok (s.setWorker w { (s.worker w).push [(none, .invocationRequest m payload)] with
      busy := true })
  | .poll w => .ok (s.setWorker w (s.worker w).poll)
  | .call w c => .ok (s.setWorker w ((s.worker w).call c))
  | .reply w r => .ok (s.setWorker w ((s.worker w).reply r))
  | .receive w => .ok (s.setWorker w (s.worker w).receive)
  | .getBuffer w => .ok (s.setWorker w (s.worker w).getBuffer)
  | .finish w => .ok (s.setWorker w (s.worker w).finish)

end Channels

/-- The message is an update. -/
def IsUpdate : WorkerMessage → Prop
  | .applicationUpdate _ => True
  | _ => False

instance (m : WorkerMessage) : Decidable (IsUpdate m) :=
  match m with
  | .applicationUpdate _ => inferInstanceAs (Decidable True)
  | .getRequest _ _ => inferInstanceAs (Decidable False)
  | .invocationRequest _ _ => inferInstanceAs (Decidable False)
  | .invocationResult _ _ => inferInstanceAs (Decidable False)
  | .stateKeysResult _ => inferInstanceAs (Decidable False)

/-- A blocked worker does not meet an update at the head of its channel, and the
input of a call is one of the buffers of the user. -/
def Undisturbed (s : Channels) : Event → Prop
  | .receive w => (s.worker w).phase.waiting ≠ [] →
      ∀ x ∈ (s.worker w).channel.head?, ¬ IsUpdate x.2
  | .call w c => (s.worker w).phase = .running → c.copies (s.worker w).userBuffers = 1
  | _ => True

instance (s : Channels) (e : Event) : Decidable (Undisturbed s e) :=
  match e with
  | .updates _ => inferInstanceAs (Decidable True)
  | .dispatch _ _ _ => inferInstanceAs (Decidable True)
  | .poll _ => inferInstanceAs (Decidable True)
  | .call _ _ => inferInstanceAs (Decidable (_ → _))
  | .reply _ _ => inferInstanceAs (Decidable True)
  | .receive _ => inferInstanceAs (Decidable (_ → ∀ _ ∈ _, _))
  | .getBuffer _ => inferInstanceAs (Decidable True)
  | .finish _ => inferInstanceAs (Decidable True)

/-! ## What is on a channel -/

def updateOf (x : Option ℕ × WorkerMessage) : Option ApplicationUpdate :=
  match x.2 with
  | .applicationUpdate m => some ⟨m.statusChange, m.processId.1⟩
  | _ => none

/-- The message starts an invocation. -/
def isStart (x : Option ℕ × WorkerMessage) : Bool :=
  match x.2 with
  | .invocationRequest _ _ => true
  | _ => false

def replyOf (x : Option ℕ × WorkerMessage) : Option (ℕ × WorkerMessage) :=
  x.1.map (·, x.2)

theorem updateOf_answer (tag : Option ℕ) (c : Call) (r : Content) :
    updateOf (tag, c.answer r) = none := by
  cases c <;> rfl

theorem isStart_answer (tag : Option ℕ) (c : Call) (r : Content) :
    isStart (tag, c.answer r) = false := by
  cases c <;> rfl

/-! ### The broadcast of updates -/

theorem mapM_updateMessage (us : List (Common.Status × Text NAME_LENGTH)) :
    (updatesOf us).mapM Controller.updateMessage =
      .ok (us.map fun u => { processId := u.2, statusChange := u.1 }) := by
  have hmsg : ∀ u : Common.Status × Text NAME_LENGTH,
      Controller.updateMessage ⟨u.1, u.2.1⟩ =
        .ok { processId := u.2, statusChange := u.1 } := by
    intro u
    unfold Controller.updateMessage Process.Ipc.ApplicationUpdate.setProcessId
    rw [Process.Ipc.setText_text]
    rfl
  induction us with
  | nil => rfl
  | cons u us ih =>
    unfold updatesOf at ih ⊢
    rw [List.map_cons, List.mapM_cons, hmsg, ih]
    rfl

/-- The messages of a broadcast to one worker. -/
def messagesOf (us : List (Common.Status × Text NAME_LENGTH)) :
    List (Option ℕ × WorkerMessage) :=
  us.map fun u => (none, .applicationUpdate { processId := u.2, statusChange := u.1 })

/-- Every worker gets every update, in order. -/
theorem filterMap_messageFor {n w : ℕ} (hw : w < n)
    (us : List (Common.Status × Text NAME_LENGTH)) :
    ((us.map fun u => ({ processId := u.2, statusChange := u.1 } : Process.Ipc.ApplicationUpdate)
      ).flatMap fun msg => (List.range n).map fun v => Output.toWorker v (.applicationUpdate msg)
      ).filterMap (messageFor w) = messagesOf us := by
  unfold messagesOf
  induction us with
  | nil => rfl
  | cons u us ih =>
    have hone := Lists.filterMap_range n w
      ((none : Option ℕ), WorkerMessage.applicationUpdate { processId := u.2, statusChange := u.1 })
    rw [if_pos hw] at hone
    rw [List.map_cons, List.flatMap_cons, List.filterMap_append, ih, List.filterMap_map,
      List.map_cons, ← List.singleton_append, ← hone]
    rfl

theorem handle_updates (c : Controller) (us : List (Common.Status × Text NAME_LENGTH)) :
    ∃ c' outs, c.handle (.updates (updatesOf us)) = .ok (c', outs) ∧ c'.workers = c.workers ∧
      ∀ w < c.workers.busy.length, outs.filterMap (messageFor w) = messagesOf us := by
  have hupdates : c.handle (.updates (updatesOf us)) = .ok (
      { c with application :=
          (updatesOf us).foldl (fun a u => a.update u.status u.processId) c.application },
      (us.map fun u => { processId := u.2, statusChange := u.1 }).flatMap fun msg =>
        (List.range c.workers.busy.length).map fun v => .toWorker v (.applicationUpdate msg)) := by
    show c.processApplicationUpdates (updatesOf us) = _
    unfold Controller.processApplicationUpdates
    rw [mapM_updateMessage]
    rfl
  refine ⟨_, _, hupdates, rfl, ?_⟩
  intro w hw
  exact filterMap_messageFor hw us

/-! ## What a run keeps -/

/-- Nothing disturbed the worker: every call but the one that blocks has returned
its own reply, no reply is left over, and the updates that are no longer on the
channel are applied. -/
structure Served (processId : Str) (broadcast : List ApplicationUpdate) (v : Worker) : Prop where
  calls : v.outcomes.map Outcome.index ++ v.phase.waiting = List.range v.made
  answers : v.answered.map Prod.fst ++ v.owed.map Prod.fst = List.range v.made
  outcomes : ∀ o ∈ v.outcomes, o.reply = some o.index ∧
    ∃ m, o.result = .ok m ∧ (o.index, m) ∈ v.answered
  leftover : v.phase.waiting = [] → v.channel.filterMap replyOf = []
  updates : ∃ applied, broadcast = applied ++ v.channel.filterMap updateOf ∧
    v.application = applied.foldl (fun a u => a.update u.status u.processId)
      { activeProcesses := [processId] }

/-- The reply to the call that blocks is owed or on the channel, and there is no
other. -/
def Replies (v : Worker) : Prop :=
  match v.phase with
  | .blocked k c =>
    (v.owed = [(k, c)] ∧ v.channel.filterMap replyOf = []) ∨
      (v.owed = [] ∧ ∃ r, v.channel.filterMap replyOf = [(k, c.answer r)])
  | _ => v.owed = [] ∧ v.channel.filterMap replyOf = []

/-- The invariant of `Served`. -/
structure Sound (processId : Str) (broadcast : List ApplicationUpdate) (v : Worker) : Prop where
  busy : v.phase ≠ .polling → v.busy = true
  starts : v.channel.countP isStart ≤ if v.phase = .polling ∧ v.busy = true then 1 else 0
  known : ∀ x ∈ v.channel, x.1 = none → isStart x = true ∨ ∃ u, updateOf x = some u
  replies : Replies v
  answered : v.answered = v.outcomes.filterMap (fun o => o.result.toOption.map (o.index, ·)) ++
    v.channel.filterMap replyOf
  calls : v.outcomes.map Outcome.index ++ v.phase.waiting = List.range v.made
  outcomes : ∀ o ∈ v.outcomes, o.reply = some o.index ∧ ∃ m, o.result = .ok m
  updates : ∃ applied, broadcast = applied ++ v.channel.filterMap updateOf ∧
    v.application = applied.foldl (fun a u => a.update u.status u.processId)
      { activeProcesses := [processId] }

theorem filterMap_updateOf_messagesOf (us : List (Common.Status × Text NAME_LENGTH)) :
    (messagesOf us).filterMap updateOf = updatesOf us := by
  unfold messagesOf updatesOf
  rw [List.filterMap_map]
  exact congrFun List.filterMap_eq_map' us

theorem filterMap_replyOf_messagesOf (us : List (Common.Status × Text NAME_LENGTH)) :
    (messagesOf us).filterMap replyOf = [] := by
  simp [messagesOf, replyOf]

theorem countP_isStart_messagesOf (us : List (Common.Status × Text NAME_LENGTH)) :
    (messagesOf us).countP isStart = 0 := by
  simp [messagesOf, isStart]

section Worker

variable {processId : Str} {broadcast : List ApplicationUpdate} {v : Worker}

theorem sound_new (processId : Str) : Sound processId [] (Worker.new processId) where
  busy h := absurd rfl h
  starts := Nat.zero_le _
  known _ hx := absurd hx List.not_mem_nil
  replies := ⟨rfl, rfl⟩
  answered := rfl
  calls := rfl
  outcomes _ ho := absurd ho List.not_mem_nil
  updates := ⟨[], rfl, rfl⟩

/-- A broadcast only lengthens the channel. -/
theorem Sound.push (h : Sound processId broadcast v)
    (us : List (Common.Status × Text NAME_LENGTH)) :
    Sound processId (broadcast ++ updatesOf us) (v.push (messagesOf us)) := by
  -- no update is a reply, and none starts an invocation
  have hreplies : (v.channel ++ messagesOf us).filterMap replyOf =
      v.channel.filterMap replyOf := by
    rw [List.filterMap_append, filterMap_replyOf_messagesOf, List.append_nil]
  constructor
  case busy => exact h.busy
  case starts =>
    simpa [countP_isStart_messagesOf] using h.starts
  case known =>
    intro x hx htag
    rcases List.mem_append.1 hx with hx | hx
    · exact h.known x hx htag
    · rcases List.mem_map.1 hx with ⟨u, -, rfl⟩
      exact .inr ⟨_, rfl⟩
  case replies =>
    have := h.replies
    unfold Replies at this ⊢
    simpa [hreplies] using this
  case answered =>
    simpa [hreplies] using h.answered
  case calls => exact h.calls
  case outcomes => exact h.outcomes
  case updates =>
    rcases h.updates with ⟨applied, hbroadcast, happ⟩
    refine ⟨applied, ?_, happ⟩
    simp [hbroadcast, filterMap_updateOf_messagesOf]

theorem Sound.dispatch (h : Sound processId broadcast v) (hbusy : v.busy = false)
    (m : Process.Ipc.InvocationRequest) (payload : List Buffer) :
    Sound processId broadcast
      { v.push [(none, .invocationRequest m payload)] with busy := true } := by
  -- a worker that is not busy polls, with no invocation on its channel
  have hphase : v.phase = .polling := by
    by_contra hne
    simpa [hbusy] using h.busy hne
  have hnone : v.channel.countP isStart = 0 := by
    have := h.starts
    simpa [hbusy] using this
  constructor
  case busy => intro; rfl
  case starts =>
    simp [hphase, hnone, isStart]
  case known =>
    intro x hx htag
    rcases List.mem_append.1 hx with hx | hx
    · exact h.known x hx htag
    · rw [List.mem_singleton.1 hx]
      exact .inl rfl
  case replies =>
    have := h.replies
    simp only [Replies, hphase] at this ⊢
    simpa [replyOf, hphase] using this
  case answered => simpa [List.filterMap_cons, replyOf] using h.answered
  case calls => exact h.calls
  case outcomes => exact h.outcomes
  case updates => simpa [List.filterMap_cons, updateOf] using h.updates

/-- A worker that polls has no replies on its channel: what it reads is an update
or starts an invocation. -/
theorem Sound.polled (h : Sound processId broadcast v) (hphase : v.phase = .polling)
    {x : Option ℕ × WorkerMessage} {rest : List (Option ℕ × WorkerMessage)}
    (hchannel : v.channel = x :: rest) :
    x.1 = none ∧ (isStart x = true ∨ ∃ u, updateOf x = some u) := by
  have hnone : x.1 = none := by
    have := h.replies
    simp only [Replies, hphase, hchannel, List.filterMap_cons] at this
    cases htag : x.1 with
    | none => rfl
    | some k => simp [replyOf, htag] at this
  exact ⟨hnone, h.known x (hchannel ▸ List.mem_cons_self) hnone⟩

theorem Sound.poll (h : Sound processId broadcast v) : Sound processId broadcast v.poll := by
  unfold Worker.poll
  split
  case h_1 tag m payload rest hphase hchannel =>
    -- the invocation starts: it was the only one on the channel
    obtain rfl : tag = none := (h.polled hphase hchannel).1
    have hstarts := h.starts
    rw [hchannel, List.countP_cons_of_pos rfl] at hstarts
    have hbusy : v.busy = true := by
      by_contra hne
      simp [hne] at hstarts
    have hrest : rest.countP isStart = 0 := by
      simp [hphase, hbusy] at hstarts
      simpa using hstarts
    constructor
    case busy => intro; exact hbusy
    case starts => simp [hrest]
    case known =>
      intro x hx
      exact h.known x (hchannel ▸ List.mem_cons_of_mem _ hx)
    case replies =>
      have := h.replies
      simpa [Replies, hphase, hchannel, List.filterMap_cons, replyOf] using this
    case answered =>
      simpa [hchannel, List.filterMap_cons, replyOf] using h.answered
    case calls =>
      simpa [hphase, Phase.waiting] using h.calls
    case outcomes => exact h.outcomes
    case updates =>
      simpa [hchannel, List.filterMap_cons, updateOf] using h.updates
  case h_2 tag m rest hphase hchannel =>
    obtain rfl : tag = none := (h.polled hphase hchannel).1
    constructor
    case busy => exact h.busy
    case starts =>
      simpa [hchannel, isStart] using h.starts
    case known =>
      intro x hx
      exact h.known x (hchannel ▸ List.mem_cons_of_mem _ hx)
    case replies =>
      have := h.replies
      simpa [Replies, hphase, hchannel, List.filterMap_cons, replyOf] using this
    case answered =>
      simpa [hchannel, List.filterMap_cons, replyOf] using h.answered
    case calls => exact h.calls
    case outcomes => exact h.outcomes
    case updates =>
      -- the update read is the next one to apply
      rcases h.updates with ⟨applied, hbroadcast, happ⟩
      refine ⟨applied ++ [⟨m.statusChange, m.processId.1⟩], ?_, ?_⟩
      · simp [hbroadcast, hchannel, updateOf]
      · simp [happ]
  case h_3 x rest hinvocation hupdate hphase hchannel =>
    -- a worker that polls reads nothing else
    exfalso
    rcases x with ⟨tag, m⟩
    have hkind := (h.polled hphase hchannel).2
    cases m with
    | invocationRequest m payload => exact hinvocation tag m payload rfl
    | applicationUpdate m => exact hupdate tag m rfl
    | getRequest m payload => simp [isStart, updateOf] at hkind
    | invocationResult m payload => simp [isStart, updateOf] at hkind
    | stateKeysResult keys => simp [isStart, updateOf] at hkind
  case h_4 => exact h

theorem Sound.call (h : Sound processId broadcast v) (c : Call)
    (hcopies : v.phase = .running → c.copies v.userBuffers = 1) :
    Sound processId broadcast (v.call c) := by
  unfold Worker.call
  split_ifs with hphase hzero
  case pos =>
    rw [hcopies hphase] at hzero
    exact absurd hzero Nat.one_ne_zero
  case neg =>
    -- no earlier request is owed, so this is the only one
    have hreplies := h.replies
    simp only [Replies, hphase] at hreplies
    rw [hcopies hphase, hreplies.1]
    constructor
    case busy =>
      intro
      exact h.busy (by simp [hphase])
    case starts => simpa [hphase] using h.starts
    case known => exact h.known
    case replies => exact .inl ⟨rfl, hreplies.2⟩
    case answered => exact h.answered
    case calls =>
      have hcalls := h.calls
      simp only [hphase, Phase.waiting, List.append_nil] at hcalls ⊢
      rw [hcalls, List.range_succ]
    case outcomes => exact h.outcomes
    case updates => exact h.updates
  case neg => exact h

theorem Sound.reply (h : Sound processId broadcast v) (r : Content) :
    Sound processId broadcast (v.reply r) := by
  unfold Worker.reply
  split
  case h_1 k c rest howed =>
    have hreplies := h.replies
    unfold Replies at hreplies
    split at hreplies
    case h_1 k' c' hphase =>
      -- the request is that of the call that blocks
      rcases hreplies with ⟨howed', hnone⟩ | ⟨howed', -⟩
      · obtain ⟨⟨rfl, rfl⟩, rfl⟩ : (k = k' ∧ c = c') ∧ rest = [] := by
          simpa [howed] using howed'
        constructor
        case busy => exact h.busy
        case starts => simpa [isStart_answer] using h.starts
        case known =>
          intro x hx htag
          rcases List.mem_append.1 hx with hx | hx
          · exact h.known x hx htag
          · rw [List.mem_singleton.1 hx] at htag
            cases htag
        case replies =>
          unfold Replies
          simp only [Worker.push_phase, hphase, Worker.push_channel, List.filterMap_append, hnone]
          exact .inr ⟨trivial, r, rfl⟩
        case answered =>
          simp only [Worker.push_channel, List.filterMap_append, h.answered]
          simp [hnone, replyOf]
        case calls => exact h.calls
        case outcomes => exact h.outcomes
        case updates =>
          simpa [List.filterMap_cons, updateOf_answer] using h.updates
      · simp [howed] at howed'
    case h_2 =>
      simp [howed] at hreplies
  case h_2 => exact h

/-- The message that a call reads, if it is no update, is its reply. -/
theorem Sound.reply_read (h : Sound processId broadcast v) {k : ℕ} {c : Call}
    (hphase : v.phase = .blocked k c) {tag : Option ℕ} {m : WorkerMessage}
    {rest : List (Option ℕ × WorkerMessage)} (hchannel : v.channel = (tag, m) :: rest)
    (hupdate : ¬ IsUpdate m) :
    ∃ r, tag = some k ∧ m = c.answer r ∧ v.owed = [] ∧ rest.filterMap replyOf = [] := by
  have hstart : isStart (tag, m) = false := by
    have hnone : v.channel.countP isStart = 0 := by
      simpa [hphase] using h.starts
    by_contra hne
    rw [hchannel, List.countP_cons_of_pos (by simpa using hne)] at hnone
    exact Nat.succ_ne_zero _ hnone
  have htag : tag ≠ none := by
    intro hnone
    rcases h.known (tag, m) (hchannel ▸ List.mem_cons_self) hnone with hs | ⟨u, hu⟩
    · simp [hstart] at hs
    · cases m with
      | applicationUpdate m => exact hupdate trivial
      | _ => simp [updateOf] at hu
  rcases Option.ne_none_iff_exists'.1 htag with ⟨k', rfl⟩
  -- it is a reply, and the only one on the channel is that of the call
  have hreplies := h.replies
  simp only [Replies, hphase, hchannel, List.filterMap_cons, replyOf, Option.map_some] at hreplies
  rcases hreplies with ⟨-, hnone⟩ | ⟨howed, r, hr⟩
  · cases hnone
  · obtain ⟨⟨rfl, rfl⟩, hrest⟩ : (k' = k ∧ m = c.answer r) ∧ rest.filterMap replyOf = [] := by
      simpa [replyOf] using hr
    exact ⟨r, rfl, rfl, howed, hrest⟩

theorem Sound.receive (h : Sound processId broadcast v)
    (hhead : v.phase.waiting ≠ [] → ∀ x ∈ v.channel.head?, ¬ IsUpdate x.2) :
    Sound processId broadcast v.receive := by
  unfold Worker.receive
  split
  case h_1 k c tag m rest hphase hchannel =>
    rcases h.reply_read hphase hchannel (hhead (by simp [hphase, Phase.waiting]) (tag, m)
      (by simp [hchannel])) with ⟨r, rfl, rfl, howed, hrest⟩
    have hstarts : (List.countP isStart rest) ≤ 0 := by
      simpa [hphase, hchannel, isStart_answer] using h.starts
    constructor
    case busy =>
      intro
      exact h.busy (by simp [hphase])
    case starts => simpa using hstarts
    case known =>
      intro x hx
      exact h.known x (hchannel ▸ List.mem_cons_of_mem _ hx)
    case replies => exact ⟨howed, hrest⟩
    case answered =>
      rw [h.answered, hchannel]
      simp [accept_answer, Except.toOption, hrest, replyOf]
    case calls => simpa [hphase, Phase.waiting] using h.calls
    case outcomes =>
      intro o ho
      rcases List.mem_append.1 ho with ho | ho
      · exact h.outcomes o ho
      · rw [List.mem_singleton.1 ho]
        exact ⟨rfl, _, accept_answer c r⟩
    case updates =>
      simpa [hchannel, List.filterMap_cons, updateOf_answer] using h.updates
  case h_2 => exact h

theorem Sound.getBuffer (h : Sound processId broadcast v) :
    Sound processId broadcast v.getBuffer := by
  unfold Worker.getBuffer
  split_ifs
  · exact ⟨h.busy, h.starts, h.known, h.replies, h.answered, h.calls, h.outcomes, h.updates⟩
  · exact h

theorem Sound.finish (h : Sound processId broadcast v) :
    Sound processId broadcast v.finish := by
  unfold Worker.finish
  split_ifs with hphase
  · constructor
    case busy =>
      intro hne
      exact absurd rfl hne
    case starts => simpa [hphase] using h.starts
    case known => exact h.known
    case replies =>
      have hreplies := h.replies
      simpa only [Replies, hphase] using hreplies
    case answered => exact h.answered
    case calls => simpa [hphase, Phase.waiting] using h.calls
    case outcomes => exact h.outcomes
    case updates => exact h.updates
  · exact h

theorem Sound.served (h : Sound processId broadcast v) : Served processId broadcast v := by
  -- every call that has come back has returned a value
  have hreturned : (v.outcomes.filterMap fun o => o.result.toOption.map (o.index, ·)).map
      Prod.fst = v.outcomes.map Outcome.index := by
    have hone : ∀ o ∈ v.outcomes,
        (o.result.toOption.map (o.index, ·)).map Prod.fst = some o.index := by
      intro o ho
      rcases (h.outcomes o ho).2 with ⟨m, hm⟩
      simp [hm, Except.toOption]
    rw [List.map_filterMap]
    rw [List.filterMap_congr hone]
    exact congrFun List.filterMap_eq_map' _
  have hreplies := h.replies
  constructor
  case calls => exact h.calls
  case answers =>
    have hcalls := h.calls
    rw [h.answered, List.map_append, hreturned, ← hcalls]
    unfold Replies at hreplies
    split at hreplies
    case h_1 k c hphase =>
      -- the call that waits is still owed its reply, or the reply is in the queue
      rcases hreplies with ⟨howed, hnone⟩ | ⟨howed, r, hr⟩
      · simp [howed, hnone, hphase, Phase.waiting]
      · simp [howed, hr, hphase, Phase.waiting]
    case h_2 hnot =>
      have hwaiting : v.phase.waiting = [] := by
        unfold Phase.waiting
        split
        case h_1 k c hphase => exact absurd hphase (hnot k c)
        case h_2 => rfl
      simp [hreplies.1, hreplies.2, hwaiting]
  case outcomes =>
    intro o ho
    rcases h.outcomes o ho with ⟨htag, m, hm⟩
    refine ⟨htag, m, hm, ?_⟩
    rw [h.answered]
    refine List.mem_append_left _ (List.mem_filterMap.2 ⟨o, ho, ?_⟩)
    simp [hm, Except.toOption]
  case leftover =>
    intro hwaiting
    unfold Replies at hreplies
    split at hreplies
    case h_1 k c hphase => simp [hphase, Phase.waiting] at hwaiting
    case h_2 => exact hreplies.2
  case updates => exact h.updates

end Worker

/-! ## Runs -/

/-- Every worker of the controller is sound. -/
structure AllSound (n : ℕ) (processId : Str) (s : Channels) : Prop where
  workers : s.ctl.workers.busy.length = n
  sound : ∀ w < n, Sound processId s.broadcast (s.worker w)

/-- A step of one worker. -/
theorem AllSound.setWorker {n : ℕ} {processId : Str} {s : Channels}
    (h : AllSound n processId s) (w : ℕ) {v : Worker}
    (hv : Sound processId s.broadcast (s.worker w) → Sound processId s.broadcast v) :
    AllSound n processId (s.setWorker w v) := by
  refine ⟨h.workers, fun u hu => ?_⟩
  by_cases huw : u = w
  · subst huw
    simpa using hv (h.sound u hu)
  · simpa [huw] using h.sound u hu

theorem sound_step {n : ℕ} {processId : Str} (s : Channels) (e : Event)
    (h : AllSound n processId s) (hundisturbed : Undisturbed s e) :
    ∃ s', s.step e = .ok s' ∧ AllSound n processId s' := by
  cases e with
  | updates us =>
    -- every worker gets the same updates
    rcases handle_updates s.ctl us with ⟨ctl', outs, hhandle, hworkers, hsent⟩
    have hstep : s.step (.updates us) = .ok {
        ctl := ctl'
        worker := fun w => (s.worker w).push (outs.filterMap (messageFor w))
        broadcast := s.broadcast ++ updatesOf us } := by
      simp only [Channels.step, hhandle]
      rfl
    refine ⟨_, hstep, hworkers ▸ h.workers, fun w hw => ?_⟩
    simp only [hsent w (h.workers.symm ▸ hw)]
    exact (h.sound w hw).push us
  | dispatch w m payload =>
    by_cases hbusy : (s.worker w).busy = true
    · exact ⟨s, if_pos hbusy, h⟩
    · exact ⟨_, if_neg hbusy, h.setWorker w fun hw => hw.dispatch (by simpa using hbusy) m payload⟩
  | poll w => exact ⟨_, rfl, h.setWorker w fun hw => hw.poll⟩
  | call w c => exact ⟨_, rfl, h.setWorker w fun hw => hw.call c hundisturbed⟩
  | reply w r => exact ⟨_, rfl, h.setWorker w fun hw => hw.reply r⟩
  | receive w => exact ⟨_, rfl, h.setWorker w fun hw => hw.receive hundisturbed⟩
  | getBuffer w => exact ⟨_, rfl, h.setWorker w fun hw => hw.getBuffer⟩
  | finish w => exact ⟨_, rfl, h.setWorker w fun hw => hw.finish⟩

/-- As long as no call reads an update, updates and requests do not disturb each
other. -/
theorem updates_undisturbed (ctl : Controller) (es : List Event)
    (h : Lts.Meets Channels.step Undisturbed (Channels.new ctl) es) :
    ∃ t, Lts.run Channels.step (Channels.new ctl) es = .ok t ∧
      ∀ w < ctl.workers.busy.length, Served ctl.processId t.broadcast (t.worker w) := by
  have hnew : AllSound ctl.workers.busy.length ctl.processId (Channels.new ctl) :=
    ⟨rfl, fun _ _ => sound_new ctl.processId⟩
  rcases Lts.run_keeps sound_step hnew h with ⟨t, hrun, hsound⟩
  exact ⟨t, hrun, fun w hw => (hsound.sound w hw).served⟩

/-! ### An update in front of a reply -/

def oneWorker : Controller := Controller.new (str ['p']) 1 fun _ => some .direct

def neighbour : Text NAME_LENGTH := ⟨str ['q'], by decide⟩

theorem updates_around_calls :
    ∃ t, Lts.run Channels.step (Channels.new oneWorker)
        [.updates [(Common.Status.ACTIVE, neighbour)], .dispatch 0 {} [], .poll 0, .poll 0,
          .call 0 .stateKeys, .reply 0 {}, .updates [(Common.Status.SWAPPED, neighbour)],
          .receive 0, .finish 0, .poll 0] = .ok t ∧
      ∀ w < 1, Served (str ['p']) t.broadcast (t.worker w) :=
  updates_undisturbed oneWorker _ (by decide +kernel)

/-- The controller broadcasts an update before it answers the call of a worker: the
call fails on the update, which is not applied, and the reply stays on the channel. -/
theorem update_read_as_reply :
    ∃ t, Lts.run Channels.step (Channels.new oneWorker)
        [.dispatch 0 {} [], .poll 0, .call 0 .stateKeys,
          .updates [(Common.Status.ACTIVE, neighbour)], .reply 0 {}, .receive 0] = .ok t ∧
      (t.worker 0).phase.waiting = [] ∧
      (t.worker 0).channel = [(some 0, Call.stateKeys.answer {})] ∧
      (t.worker 0).application = { activeProcesses := [str ['p']] } ∧
      ¬ Served (str ['p']) t.broadcast (t.worker 0) := by
  have hrun : ∃ t, Lts.run Channels.step (Channels.new oneWorker)
      [.dispatch 0 {} [], .poll 0, .call 0 .stateKeys,
        .updates [(Common.Status.ACTIVE, neighbour)], .reply 0 {}, .receive 0] = .ok t ∧
      (t.worker 0).phase.waiting = [] ∧
      (t.worker 0).channel = [(some 0, Call.stateKeys.answer {})] ∧
      (t.worker 0).application = { activeProcesses := [str ['p']] } :=
    Lts.run_test _ _ _ _ (by decide +kernel)
  rcases hrun with ⟨t, hrun, hwaiting, hchannel, happ⟩
  refine ⟨t, hrun, hwaiting, hchannel, happ, fun hserved => ?_⟩
  have hleft := hserved.leftover hwaiting
  rw [hchannel] at hleft
  cases hleft

end Praas.Runtime
