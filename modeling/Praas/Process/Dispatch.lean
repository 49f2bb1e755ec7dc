import Praas.Lib.Lts
import Praas.Process.Workers

/-! # The work queue as a queue

The vector of pending invocations and the flags in the map of all invocations are two
accounts of one queue. Here they are followed through any run of the operations:
payloads are added, the next invocation is taken, what was taken is submitted to a
worker, and what runs is finished.
* `Inv` — the two accounts agree, and with the history of the run;
* `work_queue_run` — the queue is first in, first out, and each invocation is
  dispatched and finished once.
-/

namespace Praas.Process.Dispatch

/-! ## The operations on the queue -/

section Operations

variable {q : WorkQueue} {key fname : Str} {buffer : Buffer} {source : InvocationSource}

theorem new_fits (hfname : fname.length ≤ Ipc.NAME_LENGTH) (hkey : key.length ≤ Ipc.ID_LENGTH)
    (trigger : Trigger) : Invocation.new fname key trigger source =
      .ok { req := { invocationId := Ipc.Text.ofStr Ipc.ID_LENGTH key hkey
                     functionName := Ipc.Text.ofStr Ipc.NAME_LENGTH fname hfname }
            payload := [], trigger := trigger, active := false, source := source } := by
  unfold Invocation.new Ipc.InvocationRequest.setFunctionName Ipc.InvocationRequest.setInvocationId
  rw [Ipc.setText_ok hfname]
  show ((Ipc.setText _ _ _ >>= _) >>= _) = _
  rw [Ipc.setText_ok hkey]
  rfl

/-- A new invocation has no payload yet and is not active. -/
theorem new_waits {trigger : Trigger} {i : Invocation}
    (h : Invocation.new fname key trigger source = .ok i) :
    i.active = false ∧ i.payload = [] := by
  unfold Invocation.new at h
  rcases Lts.bind_ok h with ⟨req, -, hreq⟩
  rcases Lts.bind_ok hreq with ⟨req', -, hnew⟩
  obtain rfl := Except.ok.inj hnew
  exact ⟨rfl, rfl⟩

theorem create_ok {r : WorkQueue × Option Str} (h : q.create fname key buffer source = .ok r) :
    (∃ i, q.activeInvocations key = none ∧ i.active = false ∧ i.payload = [buffer] ∧
      r = (q.enqueue key i, none)) ∨ ∃ message, r = (q, some message) := by
  unfold WorkQueue.create at h
  split at h
  · exact .inr ⟨_, (Except.ok.inj h).symm⟩
  case h_2 trigger _ =>
    rcases Lts.bind_ok h with ⟨i, hi, hr⟩
    have hwaits := new_waits hi
    split_ifs at hr with hkey
    · exact .inr ⟨_, (Except.ok.inj hr).symm⟩
    · have hfree : q.activeInvocations key = none := by simpa using hkey
      refine .inl ⟨i.push buffer, hfree, hwaits.1, ?_, (Except.ok.inj hr).symm⟩
      rw [Invocation.push_payload, hwaits.2]
      rfl

/-- A payload joins the pending invocation of its key, starts a new one, or is refused. -/
theorem addPayload_ok {r : WorkQueue × Option Str}
    (h : q.addPayload fname key buffer source = .ok r) :
    (∃ i, q.activeInvocations key = some i ∧ i.active = false ∧
      r = (q.setInvocation key (i.push buffer), none)) ∨
    (∃ i, q.activeInvocations key = none ∧ i.active = false ∧ i.payload = [buffer] ∧
      r = (q.enqueue key i, none)) ∨ ∃ message, r = (q, some message) := by
  unfold WorkQueue.addPayload at h
  split at h
  case h_1 i hi =>
    split_ifs at h with hactive
    · exact .inr (create_ok h)
    · exact .inl ⟨i, hi, by simpa using hactive, (Except.ok.inj h).symm⟩
  case h_2 => exact .inr (create_ok h)

/-- Within the limits of the header nothing raises. -/
theorem addPayload_fits (q : WorkQueue) (buffer : Buffer) (source : InvocationSource)
    (hfname : fname.length ≤ Ipc.NAME_LENGTH) (hkey : key.length ≤ Ipc.ID_LENGTH) :
    ∃ r, q.addPayload fname key buffer source = .ok r := by
  have hcreate : ∃ r, q.create fname key buffer source = .ok r := by
    unfold WorkQueue.create
    split
    · exact ⟨_, rfl⟩
    case h_2 trigger _ =>
      -- the header of the new invocation takes both names
      rw [new_fits hfname hkey]
      by_cases htaken : (q.activeInvocations key).isSome = true
      · exact ⟨(q, some (WorkQueue.failedInsert fname key)), if_pos htaken⟩
      · exact ⟨_, if_neg htaken⟩
  unfold WorkQueue.addPayload
  split
  · split_ifs
    · exact hcreate
    · exact ⟨_, rfl⟩
  · exact hcreate

/-- A key that is not in use starts a new invocation of a known function. -/
theorem addPayload_free {trigger : Trigger} (hfree : q.activeInvocations key = none)
    (hknown : q.functions fname = some trigger) (hfname : fname.length ≤ Ipc.NAME_LENGTH)
    (hkey : key.length ≤ Ipc.ID_LENGTH) :
    ∃ i, i.active = false ∧ i.payload = [buffer] ∧
      q.addPayload fname key buffer source = .ok (q.enqueue key i, none) := by
  rcases addPayload_fits q buffer source hfname hkey with ⟨r, hr⟩
  rcases addPayload_ok hr with ⟨i, hi, -⟩ | ⟨i, -, hwaits, hpayload, rfl⟩ | ⟨message, rfl⟩
  · cases hfree.symm.trans hi
  · exact ⟨i, hwaits, hpayload, hr⟩
  · -- it is not refused: the function is known, and the key is free
    unfold WorkQueue.addPayload WorkQueue.create at hr
    rw [hfree] at hr
    dsimp only at hr
    rw [hknown] at hr
    dsimp only at hr
    rw [new_fits hfname hkey] at hr
    have hok := Except.ok.inj hr
    simp at hok

theorem ready_of_some {i : Invocation} (h : q.activeInvocations key = some i) :
    q.ready key = true := by
  unfold WorkQueue.ready
  rw [h]
  cases i.trigger
  simp [Trigger.ready]

/-- The first pending invocation is always ready. -/
theorem next_cons {rest : List Str} (h : q.pendingInvocations = key :: rest)
    (hready : q.ready key = true) :
    q.next = (some key, { q with pendingInvocations := rest }) := by
  unfold WorkQueue.next
  rw [h, List.find?_cons_of_pos hready, List.eraseP_cons_of_pos hready]

theorem next_nil (h : q.pendingInvocations = []) : q.next = (none, q) := by
  unfold WorkQueue.next
  cases q
  cases h
  rfl

theorem finish_eq (q : WorkQueue) (key : Str) :
    (∃ i, q.activeInvocations key = some i ∧ i.active = true ∧ q.finish key = (some i,
      { q with activeInvocations := Function.update q.activeInvocations key none })) ∨
    ((∀ i, q.activeInvocations key = some i → i.active = false) ∧ q.finish key = (none, q)) := by
  unfold WorkQueue.finish
  cases hi : q.activeInvocations key with
  | none => exact .inr ⟨by simp, rfl⟩
  | some i =>
    cases hactive : i.active with
    | true => exact .inl ⟨i, rfl, hactive, by simp [hactive]⟩
    | false =>
      refine .inr ⟨fun j hj => ?_, by simp [hactive]⟩
      rw [← Option.some.inj hj]
      exact hactive

end Operations

/-! ## Runs -/

/-- The queue and the workers, with the history of the run: the keys of the invocations
that were created, returned by `next`, submitted and finished, in this order. -/
structure System where
  queue : WorkQueue
  workers : Workers
  /-- What `next` has returned and was not submitted yet. -/
  held : List Str := []
  created : List Str := []
  returned : List Str := []
  submitted : List Str := []
  finished : List Str := []

inductive Op where
  | addPayload (fname key : Str) (buffer : Buffer) (source : InvocationSource)
  | next
  | submit (key : Str)
  | finish (key : Str)
  | release (w : ℕ)

namespace System

def new (functions : Str → Option Trigger) (functionWorkers : ℕ) : System where
  queue := WorkQueue.new functions
  workers := Workers.new functionWorkers

/-- An operation that raises ends the run. -/
def step (s : System) : Op → Except Fault System
  | .addPayload fname key buffer source => do
    let r ← s.queue.addPayload fname key buffer source
    let isNew := (s.queue.activeInvocations key).isNone ∧ r.2.isNone
    return { s with queue := r.1, created := if isNew then s.created ++ [key] else s.created }
  | .next =>
    match s.queue.next with
    | (none, _) => .ok s
    | (some key, q) =>
      .ok { s with queue := q, held := s.held ++ [key], returned := s.returned ++ [key] }
  | .submit key =>
    -- only a pointer that `next` has returned is passed on
    if key ∈ s.held then
      match s.queue.activeInvocations key with
      | none => .error .nullPointer
      | some i => do
        let (ws, i, _) ← s.workers.submit i
        return { s with
          queue := s.queue.setInvocation key i
          workers := ws
          held := s.held.erase key
          submitted := s.submitted ++ [key] }
    else .ok s
  | .finish key =>
    let r := s.queue.finish key
    .ok { s with
      queue := r.2
      finished := if r.1.isSome then s.finished ++ [key] else s.finished }
  | .release w => .ok { s with workers := s.workers.finish w }

end System

/-- The key was submitted, and not finished since. -/
def System.Runs (s : System) (key : Str) : Prop := s.finished.count key < s.submitted.count key

/-- The vector and the map agree with each other and with the history. -/
structure Inv (s : System) : Prop where
  nodup : (s.queue.pendingInvocations ++ s.held).Nodup
  waiting : ∀ key, key ∈ s.queue.pendingInvocations ++ s.held ↔
    ∃ i, s.queue.activeInvocations key = some i ∧ i.active = false
  order : s.created = s.returned ++ s.queue.pendingInvocations
  running : ∀ key, s.submitted.count key = s.finished.count key +
    if (s.queue.activeInvocations key).any (·.active) then 1 else 0

theorem inv_new (functions : Str → Option Trigger) (n : ℕ) : Inv (System.new functions n) where
  nodup := List.nodup_nil
  waiting key := by simp [System.new, WorkQueue.new]
  order := rfl
  running key := by simp [System.new, WorkQueue.new]

section Steps

variable {s t : System}

/-- The entry of a key changes and stays as active as it was. -/
theorem Inv.setInvocation (h : Inv s) {key : Str} {i j : Invocation}
    (hi : s.queue.activeInvocations key = some i) (hj : j.active = i.active) :
    Inv { s with queue := s.queue.setInvocation key j } where
  nodup := h.nodup
  waiting k := by
    refine (h.waiting k).trans ?_
    rcases eq_or_ne k key with rfl | hne
    · simp [hi, hj]
    · simp [hne]
  order := h.order
  running k := by
    have hk := h.running k
    rcases eq_or_ne k key with rfl | hne
    · simpa [hi, hj] using hk
    · simpa [hne] using hk

theorem Inv.create (h : Inv s) {key : Str} {i : Invocation}
    (hfree : s.queue.activeInvocations key = none) (hi : i.active = false) :
    Inv { s with queue := s.queue.enqueue key i, created := s.created ++ [key] } := by
  -- a key without an invocation does not wait
  have hnew : key ∉ s.queue.pendingInvocations ++ s.held := by
    rw [h.waiting]
    simp [hfree]
  have hmoved : (s.queue.pendingInvocations ++ [key] ++ s.held).Perm
      (key :: (s.queue.pendingInvocations ++ s.held)) := by
    rw [List.append_assoc]
    exact List.perm_middle
  constructor
  case nodup => exact hmoved.nodup_iff.2 (List.nodup_cons.2 ⟨hnew, h.nodup⟩)
  case waiting =>
    intro k
    refine hmoved.mem_iff.trans ?_
    rw [List.mem_cons, h.waiting]
    rcases eq_or_ne k key with rfl | hne
    · simp [hi]
    · simp [hne]
  case order => simp [h.order]
  case running =>
    intro k
    have hk := h.running k
    rcases eq_or_ne k key with rfl | hne
    · simpa [hfree, hi] using hk
    · simpa [hne] using hk

theorem inv_addPayload (h : Inv s) {fname key : Str} {buffer : Buffer} {source : InvocationSource}
    (hstep : s.step (.addPayload fname key buffer source) = .ok t) : Inv t := by
  rcases Lts.bind_ok hstep with ⟨r, hr, ht⟩
  obtain rfl := Except.ok.inj ht
  rcases addPayload_ok hr with ⟨i, hi, hwaits, rfl⟩ | ⟨i, hfree, hwaits, -, rfl⟩ | ⟨message, rfl⟩
  · have hset := h.setInvocation hi (j := i.push buffer) rfl
    simpa [hi] using hset
  · have hnew := h.create hfree hwaits
    simpa [hfree] using hnew
  · simpa using h

/-- The first pending invocation is returned, if there is one. -/
theorem next_cases (h : Inv s) :
    (s.queue.pendingInvocations = [] ∧ s.step .next = .ok s) ∨
    ∃ key rest, s.queue.pendingInvocations = key :: rest ∧ s.step .next = .ok { s with
      queue := { s.queue with pendingInvocations := rest }
      held := s.held ++ [key]
      returned := s.returned ++ [key] } := by
  unfold System.step
  cases hpending : s.queue.pendingInvocations with
  | nil =>
    rw [next_nil hpending]
    exact .inl ⟨rfl, rfl⟩
  | cons key rest =>
    have hmem : key ∈ s.queue.pendingInvocations ++ s.held := by simp [hpending]
    rcases (h.waiting key).1 hmem with ⟨i, hi, -⟩
    rw [next_cons hpending (ready_of_some hi)]
    exact .inr ⟨key, rest, rfl, rfl⟩

theorem inv_next (h : Inv s) (hstep : s.step .next = .ok t) : Inv t := by
  rcases next_cases h with ⟨-, hsame⟩ | ⟨key, rest, hpending, hnext⟩
  · rw [hsame] at hstep
    exact Except.ok.inj hstep ▸ h
  rw [hnext] at hstep
  obtain rfl := Except.ok.inj hstep
  -- the key passes from the queue to what is held
  have hmoved : (rest ++ (s.held ++ [key])).Perm (s.queue.pendingInvocations ++ s.held) := by
    rw [hpending, ← List.append_assoc]
    exact List.perm_append_comm
  constructor
  case nodup => exact hmoved.nodup_iff.2 h.nodup
  case waiting => exact fun k => hmoved.mem_iff.trans (h.waiting k)
  case order =>
    have horder := h.order
    rw [hpending] at horder
    simpa using horder
  case running => exact h.running

theorem inv_submit (h : Inv s) {key : Str} (hstep : s.step (.submit key) = .ok t) : Inv t := by
  unfold System.step at hstep
  dsimp only at hstep
  split_ifs at hstep with hheld
  · have hmem : key ∈ s.queue.pendingInvocations ++ s.held := List.mem_append_right _ hheld
    rcases (h.waiting key).1 hmem with ⟨i, hi, hwaits⟩
    rw [hi] at hstep
    rcases Lts.bind_ok hstep with ⟨⟨ws, i', w⟩, hsubmit, ht⟩
    obtain rfl := Except.ok.inj ht
    rcases Workers.submit_ok hsubmit with ⟨-, -, buffers, rfl⟩
    -- the key leaves those that wait, and its invocation runs
    have htaken : (s.queue.pendingInvocations ++ s.held).Perm
        (key :: (s.queue.pendingInvocations ++ s.held.erase key)) :=
      ((List.perm_cons_erase hheld).append_left _).trans List.perm_middle
    have hnodup := List.nodup_cons.1 (htaken.nodup_iff.1 h.nodup)
    constructor
    case nodup => exact hnodup.2
    case waiting =>
      intro k
      rcases eq_or_ne k key with rfl | hne
      · simpa using hnodup.1
      · have hold := htaken.mem_iff.symm.trans (h.waiting k)
        simpa [hne] using hold
    case order => exact h.order
    case running =>
      intro k
      have hk := h.running k
      rcases eq_or_ne k key with rfl | hne
      · simpa [hi, hwaits] using hk
      · simpa [hne, hne.symm] using hk
  · exact Except.ok.inj hstep ▸ h

theorem inv_finish (h : Inv s) {key : Str} (hstep : s.step (.finish key) = .ok t) : Inv t := by
  obtain rfl := Except.ok.inj hstep
  rcases finish_eq s.queue key with ⟨i, hi, hactive, heq⟩ | ⟨-, heq⟩
  · rw [heq]
    constructor
    case nodup => exact h.nodup
    case waiting =>
      intro k
      refine (h.waiting k).trans ?_
      rcases eq_or_ne k key with rfl | hne
      · simp [hi, hactive]
      · simp [hne]
    case order => exact h.order
    case running =>
      intro k
      have hk := h.running k
      rcases eq_or_ne k key with rfl | hne
      · simpa [hi, hactive] using hk
      · simpa [hne, hne.symm] using hk
  · rw [heq]
    exact h

theorem inv_step {op : Op} (h : Inv s) (hstep : s.step op = .ok t) : Inv t := by
  cases op with
  | addPayload fname key buffer source => exact inv_addPayload h hstep
  | next => exact inv_next h hstep
  | submit key => exact inv_submit h hstep
  | finish key => exact inv_finish h hstep
  | release w =>
    obtain rfl := Except.ok.inj hstep
    exact ⟨h.nodup, h.waiting, h.order, h.running⟩

theorem inv_run {functions : Str → Option Trigger} {n : ℕ} {ops : List Op}
    (h : Lts.run System.step (System.new functions n) ops = .ok s) : Inv s :=
  Lts.run_always (fun _ _ _ hs hstep => inv_step hs hstep) (inv_new functions n) h

/-- Calling `next` as often as there are pending invocations returns all of them. -/
theorem next_drains (h : Inv s) :
    ∃ t, Lts.run System.step s (List.replicate s.queue.pendingInvocations.length .next) = .ok t ∧
      t.queue.pendingInvocations = [] ∧ t.returned = s.created := by
  -- by induction on what is pending; each call returns its first element
  generalize hn : s.queue.pendingInvocations.length = n
  induction n generalizing s with
  | zero =>
    have hnil : s.queue.pendingInvocations = [] := List.length_eq_zero_iff.1 hn
    refine ⟨s, rfl, hnil, ?_⟩
    rw [h.order, hnil, List.append_nil]
  | succ n ih =>
    rcases next_cases h with ⟨hnil, -⟩ | ⟨key, rest, hpending, hnext⟩
    · rw [hnil] at hn
      cases hn
    · have hrest : rest.length = n := by
        rw [hpending] at hn
        exact Nat.succ.inj hn
      rcases ih (inv_next h hnext) hrest with ⟨t, ht, hempty, hreturned⟩
      exact ⟨t, Lts.run_cons_ok.2 ⟨_, hnext, ht⟩, hempty, hreturned⟩

end Steps

/-! ## The queue in every state -/

/-- The vector and the map are one queue. -/
structure IsQueue (s : System) : Prop where
  /-- Between two iterations of the poll loop nothing is held. -/
  pending : s.held = [] → s.queue.pendingInvocations.Nodup ∧
    ∀ key, key ∈ s.queue.pendingInvocations ↔
      ∃ i, s.queue.activeInvocations key = some i ∧ i.active = false
  /-- `next` has returned the invocations in the order of their creation, and returns the others
  in this order. -/
  order : s.created = s.returned ++ s.queue.pendingInvocations
  drains : ∃ t,
    Lts.run System.step s (List.replicate s.queue.pendingInvocations.length .next) = .ok t ∧
      t.returned = s.created
  accepts : ∀ fname key buffer source, fname.length ≤ Ipc.NAME_LENGTH →
    key.length ≤ Ipc.ID_LENGTH → ∃ r, s.queue.addPayload fname key buffer source = .ok r
  merges : ∀ key ∈ s.queue.pendingInvocations, ∀ fname buffer source,
    ∃ i, s.queue.activeInvocations key = some i ∧
      s.queue.addPayload fname key buffer source =
        .ok (s.queue.setInvocation key (i.push buffer), none)
  finishes : ∀ key, s.Runs key → ∃ i, s.queue.activeInvocations key = some i ∧
    s.queue.finish key = (some i, { s.queue with
      activeInvocations := Function.update s.queue.activeInvocations key none })
  ignores : ∀ key, ¬ s.Runs key → s.queue.finish key = (none, s.queue)
  /-- A key that is finished starts a new invocation. -/
  reuses : ∀ key fname trigger buffer source, s.Runs key → s.queue.functions fname = some trigger →
    fname.length ≤ Ipc.NAME_LENGTH → key.length ≤ Ipc.ID_LENGTH →
    ∃ i, i.active = false ∧ i.payload = [buffer] ∧
      (s.queue.finish key).2.addPayload fname key buffer source =
        .ok ((s.queue.finish key).2.enqueue key i, none)

theorem runs_iff {s : System} (h : Inv s) (key : Str) :
    s.Runs key ↔ ∃ i, s.queue.activeInvocations key = some i ∧ i.active = true := by
  have hcount := h.running key
  unfold System.Runs
  cases hi : s.queue.activeInvocations key with
  | none =>
    simp only [hi] at hcount
    simp at hcount ⊢
    omega
  | some i =>
    simp only [hi] at hcount
    cases hactive : i.active
    · simp [hactive] at hcount ⊢
      omega
    · simp [hactive] at hcount ⊢
      omega

theorem finish_runs {s : System} (h : Inv s) {key : Str} (hruns : s.Runs key) :
    ∃ i, s.queue.activeInvocations key = some i ∧ s.queue.finish key = (some i, { s.queue with
      activeInvocations := Function.update s.queue.activeInvocations key none }) := by
  rcases (runs_iff h key).1 hruns with ⟨i, hi, hactive⟩
  exact ⟨i, hi, WorkQueue.finish_active hi hactive⟩

theorem isQueue_of_inv {s : System} (h : Inv s) : IsQueue s := by
  constructor
  case pending =>
    intro hheld
    have hnodup := h.nodup
    have hwaiting := h.waiting
    rw [hheld, List.append_nil] at hnodup hwaiting
    exact ⟨hnodup, hwaiting⟩
  case order => exact h.order
  case drains =>
    rcases next_drains h with ⟨t, ht, -, hreturned⟩
    exact ⟨t, ht, hreturned⟩
  case accepts =>
    intro fname key buffer source hfname hkey
    exact addPayload_fits s.queue buffer source hfname hkey
  case merges =>
    intro key hkey fname buffer source
    rcases (h.waiting key).1 (List.mem_append_left _ hkey) with ⟨i, hi, hwaits⟩
    refine ⟨i, hi, ?_⟩
    unfold WorkQueue.addPayload
    rw [hi]
    simp [hwaits]
  case finishes => exact fun key hruns => finish_runs h hruns
  case ignores =>
    intro key hnot
    rcases finish_eq s.queue key with ⟨i, hi, hactive, -⟩ | ⟨-, heq⟩
    · exact absurd ((runs_iff h key).2 ⟨i, hi, hactive⟩) hnot
    · exact heq
  case reuses =>
    intro key fname trigger buffer source hruns hknown hfname hkey
    rcases finish_runs h hruns with ⟨i, -, heq⟩
    rw [heq]
    exact addPayload_free (Function.update_self _ _ _) hknown hfname hkey

/-- In every state of every run the vector and the map are one queue. -/
theorem work_queue_run (functions : Str → Option Trigger) (functionWorkers : ℕ) (ops : List Op)
    (s : System) (hrun : Lts.run System.step (System.new functions functionWorkers) ops = .ok s) :
    IsQueue s :=
  isQueue_of_inv (inv_run hrun)

/-- Two payloads are collected, the invocation runs, and its key is used again. -/
theorem work_queue_run_reuse :
    ∃ s, Lts.run System.step (System.new (fun _ => some .direct) 1)
        [.addPayload (str ['f']) (str ['k']) [1] .fromLocal,
          .addPayload (str ['f']) (str ['k']) [2] .fromLocal, .next, .submit (str ['k']),
          .finish (str ['k']), .release 0, .addPayload (str ['f']) (str ['k']) [3] .fromLocal] =
        .ok s ∧
      s.created = [str ['k'], str ['k']] ∧ s.finished = [str ['k']] ∧ IsQueue s := by
  have hrun := Lts.run_test System.step (System.new (fun _ => some .direct) 1)
    [.addPayload (str ['f']) (str ['k']) [1] .fromLocal,
      .addPayload (str ['f']) (str ['k']) [2] .fromLocal, .next, .submit (str ['k']),
      .finish (str ['k']), .release 0, .addPayload (str ['f']) (str ['k']) [3] .fromLocal]
    (fun s => s.created = [str ['k'], str ['k']] ∧ s.finished = [str ['k']]) (by decide +kernel)
  rcases hrun with ⟨s, hs, hcreated, hfinished⟩
  exact ⟨s, hs, hcreated, hfinished, work_queue_run _ _ _ _ hs⟩

end Praas.Process.Dispatch
