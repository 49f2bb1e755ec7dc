import Mathlib.Data.Prod.Lex
import Praas.Lib.Fairness
import Praas.Process.WorkerPool

/-! # The poll loop of the controller and its wake-up

The threads of the TCP server put messages and updates on two queues, and write to an
eventfd after that, outside of the lock. The poll thread waits in `epoll_wait`, where the
eventfd is registered edge-triggered: what was reported once is not reported again before
the next write. Each lock is held for one step only.

* `Inv` — a queue that is not empty will be seen: by the write that is still to come, by
  the counter of the eventfd, or by the pass that has just read it;
* `no_lost_wake_up` — nothing is left behind in any run, and in a fair execution
  everything is processed.
-/

namespace Praas.Process.Polling

/-! ## Queues -/

/-- A queue under its lock, the vector that the poll thread empties it into, and what went
in and out so far. -/
structure Channel (α : Type) where
  queue : List α := []
  batch : List α := []
  enqueued : List α := []
  processed : List α := []

namespace Channel

variable {α : Type}

/-- `emplace_back` under the lock. -/
@[simps] def push (c : Channel α) (a : α) : Channel α :=
  { c with queue := c.queue ++ [a], enqueued := c.enqueued ++ [a] }

/-- The vector is resized to the queue, and all elements are moved. -/
@[simps] def take (c : Channel α) : Channel α := { c with queue := [], batch := c.queue }

/-- The first elements of the vector have been processed; what is processed is not read
again. -/
@[simps] def advance (c : Channel α) (n : ℕ) : Channel α :=
  { c with batch := c.batch.drop n, processed := c.processed ++ c.batch.take n }

/-- Each element is in one place, in the order of the calls. -/
def Ordered (c : Channel α) : Prop := c.enqueued = c.processed ++ c.batch ++ c.queue

theorem ordered_push {c : Channel α} (h : c.Ordered) (a : α) : (c.push a).Ordered := by
  unfold Ordered at *
  simp [h]

theorem ordered_take {c : Channel α} (h : c.Ordered) (hbatch : c.batch = []) :
    c.take.Ordered := by
  unfold Ordered at *
  simp [h, hbatch]

theorem ordered_advance {c : Channel α} (h : c.Ordered) (n : ℕ) : (c.advance n).Ordered := by
  unfold Ordered at *
  simp [h]

/-- What goes in or out stays, and comes first. -/
structure Grows (c c' : Channel α) : Prop where
  enqueued : c.enqueued <+: c'.enqueued
  taken : c.processed ++ c.batch <+: c'.processed ++ c'.batch

theorem Grows.refl (c : Channel α) : Grows c c := ⟨List.prefix_rfl, List.prefix_rfl⟩

theorem grows_push (c : Channel α) (a : α) : Grows c (c.push a) :=
  ⟨List.prefix_append _ _, List.prefix_rfl⟩

theorem grows_take {c : Channel α} (hbatch : c.batch = []) : Grows c c.take :=
  ⟨List.prefix_rfl, by simp [hbatch]⟩

theorem grows_advance (c : Channel α) (n : ℕ) : Grows c (c.advance n) :=
  ⟨List.prefix_rfl, by simp⟩

end Channel

/-! ## The loop -/

/-- `MAX_EPOLL_EVENTS`. -/
def MAX_EPOLL_EVENTS : ℕ := 32

/-- The largest value of the counter of an eventfd. -/
def EVENTFD_MAX : ℕ := 2 ^ 64 - 2

/-- An entry of `events`: its data is the controller, or a worker. -/
inductive Ready where
  | notification
  | worker (w : ℕ)
deriving DecidableEq, Repr

/-- What `receive` returns once the message of a worker is complete. -/
structure Received where
  msg : Ipc.MessageVariants
  payload : Buffer
  env : Env

/-- Where the poll thread is. The events after the current one are still to be handled. -/
inductive Pc where
  | waiting
  | events (left : List Ready)
  /-- The eventfd was read. -/
  | messages (left : List Ready)
  | processing (left : List Ready)
  | updates (left : List Ready)
  | applying (left : List Ready)
  | scheduling
deriving DecidableEq, Repr

structure System (τ : Type) where
  ctl : Controller
  messages : Channel ExternalMessage := {}
  updates : Channel Common.ApplicationUpdate := {}
  /-- The counter of the eventfd. -/
  counter : ℕ := 0
  /-- The eventfd is on the list that `epoll_wait` looks through. -/
  ready : Bool := false
  pc : Pc := .waiting
  /-- The thread is between the two steps of its call. -/
  writing : τ → Bool := fun _ => false

inductive Call where
  | remoteMessage (msg : List Byte) (payload : Buffer) (processId : Str)
  | dataplaneMessage (msg : List Byte) (payload : Buffer)
  | controlplaneMessage (msg : List Byte) (payload : Buffer)
  | updateApplication (status : Common.Status) (process : Str)

inductive Event (τ : Type) where
  /-- The first step of a call: enqueue under the lock. -/
  | call (t : τ) (c : Call)
  /-- The second step: write 1 to the eventfd. A write to a counter that was zero is an
  edge; others may be one. -/
  | write (t : τ) (edge : Bool)
  /-- `epoll_wait` returns; with no events after a timeout. -/
  | epoll (reported : List Ready)
  /-- The next step of the poll thread. -/
  | poll (received : Option Received)

namespace System

variable {τ : Type}

def new (ctl : Controller) : System τ where
  ctl := ctl

def enqueue (s : System τ) : Call → System τ
  | .remoteMessage msg payload processId =>
    { s with messages := s.messages.push (Process.remoteMessage msg payload processId) }
  | .dataplaneMessage msg payload =>
    { s with messages := s.messages.push (Process.dataplaneMessage msg payload) }
  | .controlplaneMessage msg payload =>
    { s with messages := s.messages.push (Process.controlplaneMessage msg payload) }
  | .updateApplication status process =>
    { s with updates := s.updates.push ⟨status, process⟩ }

/-- The eventfd has a write that `epoll_wait` has not reported. -/
def Unseen (s : System τ) : Prop := s.ready = true ∧ 0 < s.counter

instance (s : System τ) : Decidable s.Unseen := inferInstanceAs (Decidable (_ ∧ _))

/-- Each descriptor is reported at most once, and the eventfd only if it is readable. -/
def CanReport (s : System τ) (reported : List Ready) : Prop :=
  s.pc = .waiting ∧ reported.Nodup ∧ reported.length ≤ MAX_EPOLL_EVENTS ∧
    (.notification ∈ reported → s.ready = true ∧ 0 < s.counter)

instance (s : System τ) (reported : List Ready) : Decidable (s.CanReport reported) :=
  inferInstanceAs (Decidable (_ ∧ _))

/-- `poll`, one step. -/
def poll (s : System τ) (received : Option Received) : Except Fault (System τ) :=
  match s.pc with
  | .waiting => .ok s
  | .events (.notification :: left) =>
    -- a read of an eventfd that is zero fails
    if 0 < s.counter then .ok { s with counter := 0, pc := .messages left }
    else .error .assertion
  | .messages left => .ok { s with messages := s.messages.take, pc := .processing left }
  | .processing left =>
    match s.messages.batch with
    | [] => .ok { s with pc := .updates left }
    | m :: _ => do
      let r ← s.ctl.handle (.external m)
      return { s with ctl := r.1, messages := s.messages.advance 1 }
  | .updates left => .ok { s with updates := s.updates.take, pc := .applying left }
  | .applying left => do
    let r ← s.ctl.handle (.updates s.updates.batch)
    return { s with
      ctl := r.1
      updates := s.updates.advance s.updates.batch.length
      pc := .events left }
  | .events (.worker w :: left) =>
    match received with
    | none => .ok { s with pc := .events left }
    | some m => do
      let r ← s.ctl.handle (.internal w m.msg m.payload m.env)
      return { s with ctl := r.1, pc := .events left }
  | .events [] => .ok { s with pc := .scheduling }
  | .scheduling => do
    -- the loop goes on as long as something was submitted
    let r ← s.ctl.handle .schedule
    return { s with ctl := r.1, pc := if r.2 = [] then .waiting else .scheduling }

variable [DecidableEq τ]

def setWriting (s : System τ) (t : τ) (b : Bool) : System τ :=
  { s with writing := Function.update s.writing t b }

def step (s : System τ) : Event τ → Except Fault (System τ)
  | .call t c => if s.writing t then .ok s else .ok ((s.enqueue c).setWriting t true)
  | .write t edge =>
    if s.writing t then
      -- the write would fail, and the process exits
      if s.counter + 1 ≤ EVENTFD_MAX then
        .ok ({ s with
          counter := s.counter + 1
          ready := s.ready || edge || s.counter = 0 }.setWriting t false)
      else .error .assertion
    else .ok s
  | .epoll reported =>
    if s.CanReport reported then
      .ok { s with
        ready := s.ready && .notification ∉ reported
        pc := .events reported }
    else .ok s
  | .poll received => s.poll received

end System

/-! ## What a step does -/

/-- A step of the poll thread; what a handler does to the controller matters only for the
loop that submits invocations. -/
inductive Polls {τ : Type} (s : System τ) : System τ → Prop
  | waits (pc : s.pc = .waiting) : Polls s s
  | reads {left : List Ready} (pc : s.pc = .events (.notification :: left))
      (readable : 0 < s.counter) : Polls s { s with counter := 0, pc := .messages left }
  | takes {left : List Ready} (pc : s.pc = .messages left) :
      Polls s { s with messages := s.messages.take, pc := .processing left }
  | processes {left : List Ready} {ctl : Controller} (pc : s.pc = .processing left)
      (batch : s.messages.batch ≠ []) :
      Polls s { s with ctl := ctl, messages := s.messages.advance 1 }
  | drained {left : List Ready} (pc : s.pc = .processing left) (batch : s.messages.batch = []) :
      Polls s { s with pc := .updates left }
  | takesUpdates {left : List Ready} (pc : s.pc = .updates left) :
      Polls s { s with updates := s.updates.take, pc := .applying left }
  | applies {left : List Ready} {ctl : Controller} (pc : s.pc = .applying left) :
      Polls s { s with
        ctl := ctl
        updates := s.updates.advance s.updates.batch.length
        pc := .events left }
  | serves {w : ℕ} {left : List Ready} {ctl : Controller} (pc : s.pc = .events (.worker w :: left)) :
      Polls s { s with ctl := ctl, pc := .events left }
  | handled (pc : s.pc = .events []) : Polls s { s with pc := .scheduling }
  | submits {ctl : Controller} (pc : s.pc = .scheduling)
      (fewer : ctl.workers.idleWorkers < s.ctl.workers.idleWorkers) :
      Polls s { s with ctl := ctl, pc := .scheduling }
  | rests {ctl : Controller} (pc : s.pc = .scheduling) :
      Polls s { s with ctl := ctl, pc := .waiting }

inductive Moves {τ : Type} [DecidableEq τ] (s : System τ) : Event τ → System τ → Prop
  | called (t : τ) (c : Call) (free : s.writing t = false) :
      Moves s (.call t c) ((s.enqueue c).setWriting t true)
  | wrote (t : τ) (edge ready : Bool) (writes : s.writing t = true)
      (kept : s.ready = true → ready = true) (raised : s.counter = 0 → ready = true) :
      Moves s (.write t edge)
        ({ s with counter := s.counter + 1, ready := ready }.setWriting t false)
  | reported (reported : List Ready) (can : s.CanReport reported) :
      Moves s (.epoll reported) { s with
        ready := s.ready && .notification ∉ reported
        pc := .events reported }
  | polls (received : Option Received) {s' : System τ} (polls : Polls s s') :
      Moves s (.poll received) s'
  /-- A thread that is busy makes no call, one that is not has nothing to write, and
  `epoll_wait` returns only to a thread that waits. -/
  | idle (e : Event τ) (quiet : ∀ received, e ≠ .poll received)
      (free : ∀ t edge, e = .write t edge → s.writing t = false) : Moves s e s

section Steps

variable {τ : Type} {s s' : System τ}

/-- Whatever is submitted takes an idle worker. -/
theorem schedule_fewer {c : Controller} {r : Controller × List Output}
    (h : c.handle .schedule = .ok r) (hout : r.2 ≠ []) :
    r.1.workers.idleWorkers < c.workers.idleWorkers := by
  have hidle : c.workers.hasIdleWorkers = true := by
    by_contra hnone
    simp only [Controller.handle, Controller.schedule, if_neg hnone] at h
    obtain rfl := Except.ok.inj h
    exact hout rfl
  have hpos : 0 < c.workers.idleWorkers := of_decide_eq_true hidle
  rcases WorkerPool.schedule_ok h with rfl | ⟨before, after, key, i, w, buffers, -, -, -, -, hws, -⟩
  · exact absurd rfl hout
  · rw [hws]
    exact Nat.sub_lt hpos Nat.one_pos

theorem polls_of_poll {received : Option Received} (h : s.poll received = .ok s') :
    Polls s s' := by
  unfold System.poll at h
  split at h
  case h_1 hpc => exact Except.ok.inj h ▸ .waits hpc
  case h_2 left hpc =>
    split_ifs at h with hreadable
    exact Except.ok.inj h ▸ .reads hpc hreadable
  case h_3 left hpc => exact Except.ok.inj h ▸ .takes hpc
  case h_4 left hpc =>
    split at h
    case h_1 hbatch => exact Except.ok.inj h ▸ .drained hpc hbatch
    case h_2 m rest hbatch =>
      rcases Lts.bind_ok h with ⟨r, -, h⟩
      exact Except.ok.inj h ▸ .processes hpc (by simp [hbatch])
  case h_5 left hpc => exact Except.ok.inj h ▸ .takesUpdates hpc
  case h_6 left hpc =>
    rcases Lts.bind_ok h with ⟨r, -, h⟩
    exact Except.ok.inj h ▸ .applies hpc
  case h_7 w left hpc =>
    split at h
    · exact Except.ok.inj h ▸ .serves hpc
    · rcases Lts.bind_ok h with ⟨r, -, h⟩
      exact Except.ok.inj h ▸ .serves hpc
  case h_8 hpc => exact Except.ok.inj h ▸ .handled hpc
  case h_9 hpc =>
    rcases Lts.bind_ok h with ⟨r, hr, h⟩
    obtain rfl := Except.ok.inj h
    by_cases hout : r.2 = []
    · rw [if_pos hout]
      exact .rests hpc
    · rw [if_neg hout]
      exact .submits hpc (schedule_fewer hr hout)

variable [DecidableEq τ] {e : Event τ}

theorem moves_of_step (h : s.step e = .ok s') : Moves s e s' := by
  cases e with
  | call t c =>
    simp only [System.step] at h
    split_ifs at h with hbusy
    · exact Except.ok.inj h ▸ .idle _ (by simp) (by simp)
    · exact Except.ok.inj h ▸ .called t c (by simpa using hbusy)
  | write t edge =>
    simp only [System.step] at h
    -- the third branch, a counter that is full, raises
    split_ifs at h with hbusy hroom
    · exact Except.ok.inj h ▸ .wrote t edge _ hbusy (by simp +contextual) (by simp +contextual)
    · exact Except.ok.inj h ▸ .idle _ (by simp) (by rintro _ _ ⟨⟩; simpa using hbusy)
  | epoll reported =>
    simp only [System.step] at h
    split_ifs at h with hcan
    · exact Except.ok.inj h ▸ .reported reported hcan
    · exact Except.ok.inj h ▸ .idle _ (by simp) (by simp)
  | poll received => exact .polls received (polls_of_poll h)

end Steps

/-! ## The invariant -/

/-- Events of this return of `epoll_wait` that are not handled yet. -/
def Pc.left : Pc → List Ready
  | .waiting | .scheduling => []
  | .events left | .messages left | .processing left | .updates left | .applying left => left

/-- What the notification announces. -/
inductive Queue where
  | externalQueue
  | appUpdates
deriving DecidableEq, Repr

/-- The eventfd was read, and the queue is still to be emptied. -/
def Pc.Takes : Pc → Queue → Prop
  | .messages _, _ => True
  | .processing _, .appUpdates | .updates _, .appUpdates => True
  | _, _ => False

section Invariant

variable {τ : Type} {s s' : System τ}

/-- Something is on the queue. -/
def System.Waits (s : System τ) : Queue → Prop
  | .externalQueue => s.messages.queue ≠ []
  | .appUpdates => s.updates.queue ≠ []

/-- The vectors of the poll thread are used only where they are processed. -/
structure Orders (s : System τ) : Prop where
  messages : s.messages.Ordered
  updates : s.updates.Ordered
  batch : (∀ left, s.pc ≠ .processing left) → s.messages.batch = []
  updateBatch : (∀ left, s.pc ≠ .applying left) → s.updates.batch = []

structure Notices (s : System τ) : Prop where
  once : s.pc.left.Nodup
  readable : .notification ∈ s.pc.left → 0 < s.counter
  /-- The counter is read in this pass, or reported again. -/
  armed : 0 < s.counter → s.ready = true ∨ .notification ∈ s.pc.left
  /-- What waits is announced by a write to come, by the counter, or was announced to the
  pass that goes on. -/
  announced : ∀ q, s.Waits q → (∃ t, s.writing t = true) ∨ 0 < s.counter ∨ s.pc.Takes q

structure Inv (s : System τ) : Prop where
  orders : Orders s
  notices : Notices s

theorem inv_new (ctl : Controller) : Inv (System.new ctl : System τ) where
  orders := ⟨rfl, rfl, fun _ => rfl, fun _ => rfl⟩
  notices := by
    refine ⟨List.nodup_nil, by simp [System.new, Pc.left], by simp [System.new], ?_⟩
    intro q hq
    cases q <;> exact absurd rfl hq

theorem orders_polls (h : Orders s) (hpolls : Polls s s') : Orders s' := by
  cases hpolls with
  | waits pc => exact h
  | reads pc | handled pc | serves pc | submits pc | rests pc =>
    -- no message moves, and the batches stay empty
    have hbatch := h.batch (by simp [pc])
    have hupdates := h.updateBatch (by simp [pc])
    exact ⟨h.messages, h.updates, fun _ => hbatch, fun _ => hupdates⟩
  | takes pc =>
    have hbatch := h.batch (by simp [pc])
    have hupdates := h.updateBatch (by simp [pc])
    exact ⟨Channel.ordered_take h.messages hbatch, h.updates, fun hne => absurd rfl (hne _),
      fun _ => hupdates⟩
  | processes pc batch =>
    have hupdates := h.updateBatch (by simp [pc])
    exact ⟨Channel.ordered_advance h.messages 1, h.updates, fun hne => absurd pc (hne _),
      fun _ => hupdates⟩
  | drained pc batch =>
    have hupdates := h.updateBatch (by simp [pc])
    exact ⟨h.messages, h.updates, fun _ => batch, fun _ => hupdates⟩
  | takesUpdates pc =>
    have hbatch := h.batch (by simp [pc])
    have hupdates := h.updateBatch (by simp [pc])
    exact ⟨h.messages, Channel.ordered_take h.updates hupdates, fun _ => hbatch,
      fun hne => absurd rfl (hne _)⟩
  | applies pc =>
    have hbatch := h.batch (by simp [pc])
    refine ⟨h.messages, Channel.ordered_advance h.updates _, fun _ => hbatch, fun _ => ?_⟩
    simp

theorem notices_polls (h : Notices s) (hpolls : Polls s s') : Notices s' := by
  have hleft := h.once
  have hreadable := h.readable
  have harmed := h.armed
  have hannounced := h.announced
  cases hpolls with
  | waits pc => exact h
  | reads pc readable =>
    rw [pc] at hleft hreadable harmed
    -- with the notification gone, the pass empties both queues
    refine ⟨(List.nodup_cons.1 hleft).2, fun hmem => absurd hmem (List.nodup_cons.1 hleft).1,
      fun hpos => absurd hpos (lt_irrefl _), fun q _ => .inr (.inr trivial)⟩
  | takes pc =>
    rw [pc] at hleft hreadable harmed hannounced
    refine ⟨hleft, hreadable, harmed, fun q hq => ?_⟩
    cases q with
    | externalQueue => exact absurd rfl hq
    | appUpdates => exact .inr (.inr trivial)
  | processes pc batch => exact ⟨hleft, hreadable, harmed, hannounced⟩
  | drained pc batch =>
    rw [pc] at hleft hreadable harmed hannounced
    refine ⟨hleft, hreadable, harmed, fun q hq => ?_⟩
    cases q with
    | externalQueue => exact hannounced .externalQueue hq
    | appUpdates => exact .inr (.inr trivial)
  | takesUpdates pc =>
    rw [pc] at hleft hreadable harmed hannounced
    refine ⟨hleft, hreadable, harmed, fun q hq => ?_⟩
    cases q with
    | externalQueue => exact hannounced .externalQueue hq
    | appUpdates => exact absurd rfl hq
  | applies pc =>
    rw [pc] at hleft hreadable harmed hannounced
    exact ⟨hleft, hreadable, harmed, hannounced⟩
  | @serves w left ctl pc =>
    rw [pc] at hleft hreadable harmed hannounced
    have hmem : Ready.notification ∈ left ↔ Ready.notification ∈ Ready.worker w :: left := by
      simp
    exact ⟨(List.nodup_cons.1 hleft).2, fun hin => hreadable (hmem.1 hin),
      fun hpos => (harmed hpos).imp_right hmem.2, hannounced⟩
  | handled pc | submits pc fewer | rests pc =>
    rw [pc] at hleft hreadable harmed hannounced
    exact ⟨hleft, hreadable, harmed, hannounced⟩

variable [DecidableEq τ] {e : Event τ}

theorem enqueue_orders (h : Orders s) (c : Call) (t : τ) :
    Orders ((s.enqueue c).setWriting t true) := by
  cases c with
  | updateApplication status process =>
    exact ⟨h.messages, Channel.ordered_push h.updates _, h.batch, h.updateBatch⟩
  | _ => exact ⟨Channel.ordered_push h.messages _, h.updates, h.batch, h.updateBatch⟩

/-- A call leaves everything but the queues to its second step. -/
theorem enqueue_notices (h : Notices s) (c : Call) (t : τ) :
    Notices ((s.enqueue c).setWriting t true) := by
  have hwriting : ((s.enqueue c).setWriting t true).writing t = true := Function.update_self ..
  have hrest : (s.enqueue c).pc = s.pc ∧ (s.enqueue c).counter = s.counter ∧
      (s.enqueue c).ready = s.ready := by
    cases c <;> exact ⟨rfl, rfl, rfl⟩
  rcases hrest with ⟨hpc, hcounter, hready⟩
  constructor
  case once => exact hpc ▸ h.once
  case readable => simpa [System.setWriting, hpc, hcounter] using h.readable
  case armed => simpa [System.setWriting, hpc, hcounter, hready] using h.armed
  case announced => exact fun q _ => .inl ⟨t, hwriting⟩

theorem inv_step (h : Inv s) (hstep : s.step e = .ok s') : Inv s' := by
  cases moves_of_step hstep with
  | called t c free => exact ⟨enqueue_orders h.orders c t, enqueue_notices h.notices c t⟩
  | wrote t edge ready writes kept raised =>
    refine ⟨⟨h.orders.messages, h.orders.updates, h.orders.batch, h.orders.updateBatch⟩,
      ⟨h.notices.once, fun _ => Nat.succ_pos _, fun _ => ?_, fun q _ => ?_⟩⟩
    · -- the first write is an edge, and later ones change nothing
      rcases Nat.eq_zero_or_pos s.counter with hzero | hpos
      · exact .inl (raised hzero)
      · exact (h.notices.armed hpos).imp_left kept
    · exact .inr (.inl (Nat.succ_pos _))
  | reported reported can =>
    rcases can with ⟨hpc, hnodup, -, hunseen⟩
    refine ⟨⟨h.orders.messages, h.orders.updates, fun _ => h.orders.batch (by simp [hpc]),
      fun _ => h.orders.updateBatch (by simp [hpc])⟩, ⟨hnodup, fun hmem => (hunseen hmem).2, ?_, ?_⟩⟩
    · intro hpos
      by_cases hmem : Ready.notification ∈ reported
      · exact .inr hmem
      · have hready := h.notices.armed hpos
        rw [hpc] at hready
        refine .inl ?_
        simpa [hmem, Pc.left] using hready
    · intro q hq
      refine (h.notices.announced q hq).imp_right (Or.imp_right fun htakes => ?_)
      rw [hpc] at htakes
      cases q <;> exact htakes.elim
  | polls received polls => exact ⟨orders_polls h.orders polls, notices_polls h.notices polls⟩
  | idle => exact h

end Invariant

/-! ## What is enqueued is processed -/

section Progress

variable {τ : Type} {s s' : System τ} {q : Queue}

/-- How many elements went in. -/
def System.sent (s : System τ) : Queue → ℕ
  | .externalQueue => s.messages.enqueued.length
  | .appUpdates => s.updates.enqueued.length

/-- How many the poll thread has taken. -/
def System.taken (s : System τ) : Queue → ℕ
  | .externalQueue => (s.messages.processed ++ s.messages.batch).length
  | .appUpdates => (s.updates.processed ++ s.updates.batch).length

structure Grows (s s' : System τ) : Prop where
  messages : s.messages.Grows s'.messages
  updates : s.updates.Grows s'.updates

theorem Grows.sent (h : Grows s s') (q : Queue) : s.sent q ≤ s'.sent q := by
  cases q with
  | externalQueue => exact h.messages.enqueued.length_le
  | appUpdates => exact h.updates.enqueued.length_le

theorem Grows.taken (h : Grows s s') (q : Queue) : s.taken q ≤ s'.taken q := by
  cases q with
  | externalQueue => exact h.messages.taken.length_le
  | appUpdates => exact h.updates.taken.length_le

/-- What was not taken is on the queue. -/
theorem Orders.waits (h : Orders s) (hlt : s.taken q < s.sent q) : s.Waits q := by
  cases q with
  | externalQueue =>
    intro hempty
    have hsplit := congrArg List.length h.messages
    rw [hempty, List.append_nil] at hsplit
    exact absurd hsplit hlt.ne'
  | appUpdates =>
    intro hempty
    have hsplit := congrArg List.length h.updates
    rw [hempty, List.append_nil] at hsplit
    exact absurd hsplit hlt.ne'

theorem grows_polls (h : Orders s) (hpolls : Polls s s') : Grows s s' := by
  cases hpolls with
  | takes pc => exact ⟨Channel.grows_take (h.batch (by simp [pc])), .refl _⟩
  | processes => exact ⟨Channel.grows_advance _ _, .refl _⟩
  | takesUpdates pc => exact ⟨.refl _, Channel.grows_take (h.updateBatch (by simp [pc]))⟩
  | applies => exact ⟨.refl _, Channel.grows_advance _ _⟩
  | _ => exact ⟨.refl _, .refl _⟩

/-- Both queues are emptied in this pass. -/
def System.Coming (s : System τ) (q : Queue) : Prop :=
  s.pc.Takes q ∨ .notification ∈ s.pc.left

theorem Coming.busy (h : s.Coming q) : s.pc ≠ .waiting := by
  intro hpc
  unfold System.Coming at h
  rw [hpc] at h
  cases q <;> simp [Pc.Takes, Pc.left] at h

/-- A pass that comes to a queue takes all that is on it. -/
theorem coming_polls (h : Inv s) (hcoming : s.Coming q) (hpolls : Polls s s') :
    s'.Coming q ∨ s'.taken q = s'.sent q := by
  have hmessages := congrArg List.length h.orders.messages
  have hupdates := congrArg List.length h.orders.updates
  unfold System.Coming at hcoming ⊢
  cases hpolls with
  | waits pc => exact .inl hcoming
  | reads pc => exact .inl (.inl trivial)
  | takes pc =>
    -- the batch was empty, so all that was sent is taken now
    have hbatch := h.orders.batch (by simp [pc])
    cases q with
    | externalQueue =>
      right
      simpa [System.taken, System.sent, hbatch] using hmessages.symm
    | appUpdates => exact .inl (.inl trivial)
  | processes pc => exact .inl hcoming
  | drained pc =>
    rw [pc] at hcoming
    cases q with
    | externalQueue => exact .inl (hcoming.imp_left False.elim)
    | appUpdates => exact .inl (.inl trivial)
  | takesUpdates pc =>
    rw [pc] at hcoming
    have hbatch := h.orders.updateBatch (by simp [pc])
    cases q with
    | externalQueue => exact .inl (hcoming.imp_left False.elim)
    | appUpdates =>
      right
      simpa [System.taken, System.sent, hbatch] using hupdates.symm
  | applies pc | serves pc =>
    rw [pc] at hcoming
    refine .inl (hcoming.imp (fun htakes => ?_) (by simp [Pc.left]))
    cases q <;> exact htakes
  | handled pc | submits pc | rests pc =>
    rw [pc] at hcoming
    cases q <;> simp [Pc.Takes, Pc.left] at hcoming

/-! A pass ends: events are handled one after the other, a batch gets shorter, and what is
submitted takes an idle worker. -/

def System.rank (s : System τ) : ℕ ×ₗ ℕ ×ₗ ℕ :=
  match s.pc with
  | .waiting => toLex (0, toLex (0, 0))
  | .scheduling => toLex (0, toLex (1, s.ctl.workers.idleWorkers))
  | .events left => toLex (left.length + 1, toLex (0, 0))
  | .applying left => toLex (left.length + 1, toLex (1, 0))
  | .updates left => toLex (left.length + 1, toLex (2, 0))
  | .processing left => toLex (left.length + 1, toLex (3, s.messages.batch.length))
  | .messages left => toLex (left.length + 1, toLex (4, 0))

theorem rank_polls (hpc : s.pc ≠ .waiting) (hpolls : Polls s s') : s'.rank < s.rank := by
  cases hpolls with
  | waits pc => exact absurd pc hpc
  | processes pc batch =>
    have hpos := List.length_pos_iff.2 batch
    simp [System.rank, pc, Prod.Lex.toLex_lt_toLex, hpos]
  | submits pc fewer => simpa [System.rank, pc, Prod.Lex.toLex_lt_toLex] using fewer
  | reads pc | takes pc | drained pc | takesUpdates pc | applies pc | serves pc | handled pc
  | rests pc => simp [System.rank, pc, Prod.Lex.toLex_lt_toLex]

variable [DecidableEq τ] {e : Event τ}

theorem grows_step (h : Orders s) (hstep : s.step e = .ok s') : Grows s s' := by
  cases moves_of_step hstep with
  | called t c free =>
    cases c with
    | updateApplication status process => exact ⟨.refl _, Channel.grows_push _ _⟩
    | _ => exact ⟨Channel.grows_push _ _, .refl _⟩
  | polls received polls => exact grows_polls h polls
  | _ => exact ⟨.refl _, .refl _⟩

/-- Within a pass only the poll thread moves it. -/
theorem pass_step (hpc : s.pc ≠ .waiting) (hstep : s.step e = .ok s') :
    Polls s s' ∨ (s'.pc = s.pc ∧ s'.rank = s.rank ∧ ∀ received, e ≠ .poll received) := by
  cases moves_of_step hstep with
  | called t c free =>
    right
    cases c with
    | _ => exact ⟨rfl, rfl, by simp⟩
  | wrote => exact .inr ⟨rfl, rfl, by simp⟩
  | reported reported can => exact absurd can.1 hpc
  | polls received polls => exact .inl polls
  | idle e quiet free => exact .inr ⟨rfl, rfl, quiet⟩

/-- A thread is between its steps until it writes. -/
theorem writing_step {t : τ} (hwriting : s.writing t = true) (hstep : s.step e = .ok s') :
    0 < s'.counter ∨ s'.writing t = true ∧ ∀ edge, e ≠ .write t edge := by
  cases moves_of_step hstep with
  | called t' c free =>
    right
    have hne : t ≠ t' := by
      rintro rfl
      simp [hwriting] at free
    refine ⟨?_, by simp⟩
    show Function.update (s.enqueue c).writing t' true t = true
    rw [Function.update_of_ne hne]
    cases c with
    | _ => exact hwriting
  | wrote => exact .inl (Nat.succ_pos _)
  | reported => exact .inr ⟨hwriting, by simp⟩
  | polls received polls =>
    cases polls with
    | _ => exact .inr ⟨hwriting, by simp⟩
  | idle e quiet free =>
    refine .inr ⟨hwriting, ?_⟩
    rintro edge rfl
    simp [hwriting] at free

/-- A write stays unseen until a pass begins that will read it, or is in it. -/
theorem unseen_step (hunseen : s.Unseen) (hstep : s.step e = .ok s') :
    (∀ q, s'.Coming q) ∨ s'.Unseen := by
  cases moves_of_step hstep with
  | called t c free =>
    right
    cases c with
    | _ => exact hunseen
  | wrote t edge ready writes kept raised => exact .inr ⟨kept hunseen.1, Nat.succ_pos _⟩
  | reported reported can =>
    by_cases hmem : Ready.notification ∈ reported
    · exact .inl fun q => .inr hmem
    · exact .inr ⟨by simp [hmem, hunseen.1], hunseen.2⟩
  | polls received polls =>
    cases polls with
    | reads pc => exact .inl fun q => .inl trivial
    | _ => exact .inr hunseen
  | idle => exact .inr hunseen

end Progress

/-! ## Fair executions -/

section Executions

open Lts (Execution)

variable {τ : Type} [DecidableEq τ]

/-- A thread that enqueued goes on to its write, the poll thread goes on until it waits, and
`epoll_wait`, called again and again, at some time reports the eventfd. -/
structure Fair (x : Execution (System.step (τ := τ))) : Prop where
  writes : ∀ n t, (x.state n).writing t = true → ∃ m, n ≤ m ∧ ∃ edge, x.event m = .write t edge
  polls : ∀ n, (x.state n).pc ≠ .waiting → ∃ m, n ≤ m ∧ ∃ received, x.event m = .poll received
  reports : ∀ n, (∀ k, n ≤ k → ∃ m, k ≤ m ∧ (x.state m).pc = .waiting) →
    ∃ m, n ≤ m ∧ ¬ (x.state m).Unseen

variable {x : Execution (System.step (τ := τ))} {q : Queue} {k : ℕ}

theorem inv_at {ctl : Controller} (hstart : x.state 0 = System.new ctl) (n : ℕ) :
    Inv (x.state n) :=
  x.always (fun _ _ _ => inv_step) (hstart ▸ inv_new ctl) n

/-- What the steps of the poll thread keep within a pass, until its goal, leads to the goal. -/
theorem leadsTo_of_pass {P Q : System τ → Prop} (hfair : Fair x)
    (hbusy : ∀ n, P (x.state n) → (x.state n).pc ≠ .waiting)
    (hpolls : ∀ n, P (x.state n) → Polls (x.state n) (x.state (n + 1)) →
      Q (x.state (n + 1)) ∨ P (x.state (n + 1)))
    (hothers : ∀ n, P (x.state n) → (x.state (n + 1)).pc = (x.state n).pc →
      P (x.state (n + 1))) :
    x.LeadsTo P Q := by
  refine Execution.leadsTo_of_rank System.rank (fun _ e => ∃ received, e = .poll received) ?_ ?_
  · intro n hP
    rcases pass_step (hbusy n hP) (x.next n) with hmove | ⟨hpc, hrank, hno⟩
    · have hlt := rank_polls (hbusy n hP) hmove
      exact (hpolls n hP hmove).imp_right fun hP' => ⟨hP', hlt.le, fun _ => hlt⟩
    · refine .inr ⟨hothers n hP hpc, hrank.le, ?_⟩
      rintro ⟨received, he⟩
      exact absurd he (hno received)
  · exact fun n hP => hfair.polls n (hbusy n hP)

/-- The poll thread always gets back to waiting. -/
theorem waits_again (hfair : Fair x) (n : ℕ) : ∃ m, n ≤ m ∧ (x.state m).pc = .waiting := by
  have hpass : x.LeadsTo (fun s => s.pc ≠ .waiting) (fun s => s.pc = .waiting) :=
    leadsTo_of_pass hfair (fun _ h => h) (fun n _ _ => Classical.em _)
      (fun n h hpc => hpc ▸ h)
  by_cases hpc : (x.state n).pc = .waiting
  · exact ⟨n, le_rfl, hpc⟩
  · exact hpass n hpc

section Drained

variable (hfair : Fair x) (hinv : ∀ n, Inv (x.state n))

include hinv in
theorem grows_at (n : ℕ) : Grows (x.state n) (x.state (n + 1)) :=
  grows_step (hinv n).orders (x.next n)

include hfair hinv

theorem coming_leadsTo : x.LeadsTo (fun s => s.Coming q ∧ k ≤ s.sent q) (fun s => k ≤ s.taken q) := by
  have hsent : ∀ n, k ≤ (x.state n).sent q → k ≤ (x.state (n + 1)).sent q :=
    fun n hk => hk.trans ((grows_at hinv n).sent q)
  refine leadsTo_of_pass hfair (fun n h => Coming.busy h.1) ?_ ?_
  · intro n h hpolls
    rcases coming_polls (hinv n) h.1 hpolls with hcoming | htaken
    · exact .inr ⟨hcoming, hsent n h.2⟩
    · exact .inl (htaken ▸ hsent n h.2)
  · intro n h hpc
    refine ⟨?_, hsent n h.2⟩
    unfold System.Coming
    rw [hpc]
    exact h.1

/-- The counter is read in this pass, or reported to a later one. -/
theorem counter_leadsTo :
    x.LeadsTo (fun s => 0 < s.counter ∧ k ≤ s.sent q) (fun s => k ≤ s.taken q) := by
  have hsent : ∀ n, k ≤ (x.state n).sent q → k ≤ (x.state (n + 1)).sent q :=
    fun n hk => hk.trans ((grows_at hinv n).sent q)
  intro n hn
  rcases (hinv n).notices.armed hn.1 with hready | hmem
  · rcases hfair.reports n (fun k _ => waits_again hfair k) with ⟨m, hm, hseen⟩
    -- unseen, until the report or the read
    have hwait := Execution.persists (x := x) (n := n)
      (Q := fun s => s.Coming q ∧ k ≤ s.sent q)
      (I := fun j => (x.state j).Unseen ∧ k ≤ (x.state j).sent q) ⟨⟨hready, hn.1⟩, hn.2⟩
      (fun j _ hj => ?_) hm
    · rcases hwait with ⟨j, hnj, -, hcoming⟩ | hunseen
      · rcases coming_leadsTo hfair hinv j hcoming with ⟨m', hm', htaken⟩
        exact ⟨m', hnj.trans hm', htaken⟩
      · exact absurd hunseen.1 hseen
    · rcases unseen_step hj.1 (x.next j) with hcoming | hunseen
      · exact .inl ⟨hcoming q, hsent j hj.2⟩
      · exact .inr ⟨hunseen, hsent j hj.2⟩
  · exact coming_leadsTo hfair hinv n ⟨.inr hmem, hn.2⟩

omit hfair in
theorem writing_leadsTo (hwrites : ∀ n t, (x.state n).writing t = true →
    ∃ m, n ≤ m ∧ ∃ edge, x.event m = .write t edge) (t : τ) :
    x.LeadsTo (fun s => s.writing t = true ∧ k ≤ s.sent q)
      (fun s => 0 < s.counter ∧ k ≤ s.sent q) := by
  refine Execution.leadsTo_of_recurs (fun _ e => ∃ edge, e = .write t edge) ?_
    (fun n h => hwrites n t h.1)
  intro n h
  have hsent := h.2.trans ((grows_at hinv n).sent q)
  rcases writing_step h.1 (x.next n) with hpos | ⟨hwriting, hno⟩
  · exact .inl ⟨hpos, hsent⟩
  · exact .inr ⟨⟨hwriting, hsent⟩, fun ⟨edge, he⟩ => hno edge he⟩

/-- What is on a queue is taken from it. -/
theorem sent_leadsTo : x.LeadsTo (fun s => k ≤ s.sent q) (fun s => k ≤ s.taken q) := by
  intro n hn
  by_cases htaken : k ≤ (x.state n).taken q
  · exact ⟨n, le_rfl, htaken⟩
  have hwaits := (hinv n).orders.waits ((lt_of_not_ge htaken).trans_le hn)
  rcases (hinv n).notices.announced q hwaits with ⟨t, hwriting⟩ | hpos | htakes
  · have hwrite := writing_leadsTo (q := q) (k := k) hinv hfair.writes t
    exact hwrite.trans (counter_leadsTo hfair hinv) n ⟨hwriting, hn⟩
  · exact counter_leadsTo hfair hinv n ⟨hpos, hn⟩
  · exact coming_leadsTo hfair hinv n ⟨.inl htakes, hn⟩

end Drained

/-- Between two states of an execution the queues only grow. -/
theorem grows_between (hinv : ∀ n, Inv (x.state n)) {n m : ℕ} (h : n ≤ m) :
    (x.state n).messages.enqueued <+: (x.state m).messages.enqueued ∧
      (x.state n).updates.enqueued <+: (x.state m).updates.enqueued ∧
      ∀ q, (x.state n).taken q ≤ (x.state m).taken q := by
  induction m, h using Nat.le_induction with
  | base => exact ⟨List.prefix_rfl, List.prefix_rfl, fun q => le_rfl⟩
  | succ m h ih =>
    have hgrows := grows_at hinv m
    exact ⟨ih.1.trans hgrows.messages.enqueued, ih.2.1.trans hgrows.updates.enqueued,
      fun q => (ih.2.2 q).trans (hgrows.taken q)⟩

/-- What went in first and was taken by a thread that waits now was processed. -/
theorem processed_of_taken {α : Type} {c : Channel α} {xs : List α} (h : c.Ordered)
    (hbatch : c.batch = []) (hxs : xs <+: c.enqueued)
    (htaken : xs.length ≤ (c.processed ++ c.batch).length) : xs <+: c.processed := by
  have hprocessed : c.processed <+: c.enqueued := by
    rw [h, List.append_assoc]
    exact List.prefix_append _ _
  rw [hbatch, List.append_nil] at htaken
  exact List.prefix_of_prefix_length_le hxs hprocessed htaken

end Executions

/-! ## The results -/

/-- The poll thread waits for a write that was made before. -/
def System.Lost {τ : Type} (s : System τ) : Prop :=
  s.pc = .waiting ∧ (s.messages.queue ≠ [] ∨ s.updates.queue ≠ []) ∧ ¬ s.Unseen ∧
    ∀ t, s.writing t = false

theorem not_lost_of_inv {τ : Type} {s : System τ} (h : Inv s) : ¬ s.Lost := by
  rintro ⟨hpc, hqueue, hseen, hidle⟩
  have hwaits : ∃ q, s.Waits q := by
    rcases hqueue with hqueue | hqueue
    · exact ⟨.externalQueue, hqueue⟩
    · exact ⟨.appUpdates, hqueue⟩
  rcases hwaits with ⟨q, hq⟩
  rcases h.notices.announced q hq with ⟨t, hwriting⟩ | hpos | htakes
  · simp [hidle t] at hwriting
  · have harmed := h.notices.armed hpos
    rw [hpc] at harmed
    exact hseen ⟨harmed.resolve_right (by simp [Pc.left]), hpos⟩
  · rw [hpc] at htakes
    cases q <;> exact htakes.elim

/-- The eventfd is read only when it was written to. -/
theorem read_succeeds {τ : Type} [DecidableEq τ] {ctl : Controller} {es : List (Event τ)}
    {s : System τ} (hrun : Lts.run System.step (System.new ctl) es = .ok s) {left : List Ready}
    (hpc : s.pc = .events (.notification :: left)) : 0 < s.counter := by
  have hinv : Inv s := Lts.run_always (fun _ _ _ => inv_step) (inv_new ctl) hrun
  exact hinv.notices.readable (by simp [hpc, Pc.left])

/-- In every run each message and each update is in one place, in the order of the calls, and
nothing waits that was not announced; in a fair execution everything is processed. -/
theorem no_lost_wake_up {τ : Type} [DecidableEq τ] (ctl : Controller) :
    (∀ (es : List (Event τ)) (s : System τ),
      Lts.run System.step (System.new ctl) es = .ok s →
        s.messages.Ordered ∧ s.updates.Ordered ∧ ¬ s.Lost) ∧
    ∀ x : Lts.Execution (System.step (τ := τ)), x.state 0 = System.new ctl → Fair x →
      ∀ n, ∃ m, n ≤ m ∧
        (x.state n).messages.enqueued <+: (x.state m).messages.processed ∧
        (x.state n).updates.enqueued <+: (x.state m).updates.processed := by
  constructor
  · intro es s hrun
    have hinv : Inv s := Lts.run_always (fun _ _ _ => inv_step) (inv_new ctl) hrun
    exact ⟨hinv.orders.messages, hinv.orders.updates, not_lost_of_inv hinv⟩
  · intro x hstart hfair n
    have hinv := inv_at hstart
    -- both queues are taken, and then the thread waits
    rcases sent_leadsTo (q := .externalQueue) hfair hinv n le_rfl with ⟨m₁, hm₁, hmessages⟩
    rcases sent_leadsTo (q := .appUpdates) hfair hinv n le_rfl with ⟨m₂, hm₂, hupdates⟩
    rcases waits_again hfair (max m₁ m₂) with ⟨m, hm, hpc⟩
    have hn : n ≤ m := (hm₁.trans (le_max_left _ _)).trans hm
    have hgrows := grows_between hinv hn
    have h₁ := (grows_between hinv ((le_max_left _ _).trans hm)).2.2 .externalQueue
    have h₂ := (grows_between hinv ((le_max_right _ _).trans hm)).2.2 .appUpdates
    have horders := (hinv m).orders
    refine ⟨m, hn, ?_, ?_⟩
    · exact processed_of_taken horders.messages (horders.batch (by simp [hpc])) hgrows.1
        (hmessages.trans h₁)
    · exact processed_of_taken horders.updates (horders.updateBatch (by simp [hpc])) hgrows.2.1
        (hupdates.trans h₂)

/-! One thread sends one message, and everyone takes a turn as soon as possible. -/

def sampleStart : System Unit :=
  System.new (Controller.new (str ['p']) 1 fun _ => some .direct)

def sampleEvent (s : System Unit) : Event Unit :=
  match s.pc with
  | .waiting =>
    if s.writing () then .write () true
    else if s.messages.enqueued.isEmpty then
      .call () (.dataplaneMessage (Message.MessageData.new .invocationRequest).buf [])
    else if s.ready then .epoll [.notification]
    else .epoll []
  | _ => .poll none

def sampleNext (s : System Unit) : System Unit :=
  match s.step (sampleEvent s) with
  | .ok s' => s'
  | .error _ => s

def sampleAt (n : ℕ) : System Unit := sampleNext^[n] sampleStart

/-- From the twelfth step on the thread only waits and times out. -/
theorem sampleAt_mem (n : ℕ) : ∃ i < 15, sampleAt n = sampleAt i := by
  have hnext : ∀ i, sampleAt (i + 1) = sampleNext (sampleAt i) :=
    fun i => Function.iterate_succ_apply' sampleNext i sampleStart
  induction n with
  | zero => exact ⟨0, by decide, rfl⟩
  | succ n ih =>
    rcases ih with ⟨i, hi, hn⟩
    rw [hnext n, hn, ← hnext i]
    rcases Nat.lt_or_ge (i + 1) 15 with hlt | hge
    · exact ⟨i + 1, hlt, rfl⟩
    · obtain rfl : i = 14 := by omega
      exact ⟨12, by decide, rfl⟩

theorem sampleAt_step (n : ℕ) :
    (sampleAt n).step (sampleEvent (sampleAt n)) = .ok (sampleAt (n + 1)) := by
  have hok : ∀ i < 15, ((sampleAt i).step (sampleEvent (sampleAt i))).toOption.isSome := by
    decide +kernel
  rcases sampleAt_mem n with ⟨i, hi, hn⟩
  have hn' := hok i hi
  rw [← hn] at hn'
  have hnext : sampleAt (n + 1) = sampleNext (sampleAt n) :=
    Function.iterate_succ_apply' sampleNext n sampleStart
  rw [hnext]
  unfold sampleNext
  cases hstep : (sampleAt n).step (sampleEvent (sampleAt n)) with
  | ok s' => rfl
  | error f =>
    rw [hstep] at hn'
    cases hn'

def sampleExecution : Lts.Execution (System.step (τ := Unit)) where
  state := sampleAt
  event n := sampleEvent (sampleAt n)
  next := sampleAt_step

theorem sample_fair : Fair sampleExecution where
  writes := by
    intro n t hwriting
    have hpc : ∀ i < 15, (sampleAt i).writing () = true → (sampleAt i).pc = .waiting := by
      decide +kernel
    rcases sampleAt_mem n with ⟨i, hi, hn⟩
    have hwait : (sampleAt n).pc = .waiting := hn ▸ hpc i hi (hn ▸ hwriting)
    refine ⟨n, le_rfl, true, ?_⟩
    show sampleEvent (sampleAt n) = _
    unfold sampleEvent
    rw [hwait]
    exact if_pos hwriting
  polls := by
    intro n hpc
    refine ⟨n, le_rfl, none, ?_⟩
    show sampleEvent (sampleAt n) = _
    unfold sampleEvent
    split
    · contradiction
    · rfl
  reports := by
    intro n _
    have hseen : ∀ i < 15, ¬ (sampleAt i).Unseen ∨ ¬ (sampleNext (sampleAt i)).Unseen := by
      decide +kernel
    rcases sampleAt_mem n with ⟨i, hi, hn⟩
    rcases hn ▸ hseen i hi with hnow | hthen
    · exact ⟨n, le_rfl, hnow⟩
    · refine ⟨n + 1, n.le_succ, ?_⟩
      have hnext : sampleAt (n + 1) = sampleNext (sampleAt n) :=
        Function.iterate_succ_apply' sampleNext n sampleStart
      show ¬ (sampleAt (n + 1)).Unseen
      rw [hnext]
      exact hthen

/-- The message is processed. -/
theorem no_lost_wake_up_sample :
    (sampleAt 1).messages.enqueued.length = 1 ∧
      ∃ m, 1 ≤ m ∧ (sampleAt 1).messages.enqueued <+: (sampleAt m).messages.processed ∧
        (sampleAt 1).updates.enqueued <+: (sampleAt m).updates.processed := by
  refine ⟨by decide +kernel, ?_⟩
  exact (no_lost_wake_up (Controller.new (str ['p']) 1 fun _ => some .direct)).2 sampleExecution
    rfl sample_fair 1

end Praas.Process.Polling
