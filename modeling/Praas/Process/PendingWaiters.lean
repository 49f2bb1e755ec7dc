import Praas.Process.Controller

/-! # Waiters for messages and waiters for results

`PendingMessages` holds both kinds in one multimap under keys that users choose. The search
for a GET checks the kind of an entry, the search for the waiters of an invocation takes all
entries of its key.

* `invocations_after`: the waiters for a result are those inserted since its last search.
* `waiters_separate_iff`: in a run the kinds are kept apart exactly if no search for the
  waiters of an invocation meets a GET under its key.
-/

namespace Praas.Process.PendingMessages

/-! ## Runs -/

inductive Op where
  | insertGet (slot : ℕ) (key source : Str) (worker : ℕ)
  | insertInvocation (slot : ℕ) (key : Str) (worker : ℕ)
  | findGet (key source : Str)
  | findInvocation (key : Str)
deriving DecidableEq

/-- The workers that an operation returns, and the table it leaves. -/
def serve (msgs : PendingMessages) : Op → List ℕ × PendingMessages
  | .insertGet slot key source worker => ([], msgs.insertGet slot key source worker)
  | .insertInvocation slot key worker => ([], msgs.insertInvocation slot key worker)
  | .findGet key source => ((msgs.findGet key source).1.toList, (msgs.findGet key source).2)
  | .findInvocation key => msgs.findInvocation key

/-- The table after a run. -/
def after (ops : List Op) : PendingMessages :=
  ops.foldl (fun msgs op => (msgs.serve op).2) []

/-! ## What an operation is to do -/

def gets (msgs : PendingMessages) : PendingMessages := msgs.filter fun m => m.2.type = .get

def invocations (msgs : PendingMessages) : PendingMessages :=
  msgs.filter fun m => m.2.type = .invocation

/-- The workers inserted for the result of `key` since the last search for them. -/
def since (key : Str) (ops : List Op) : List ℕ :=
  ops.foldl (fun workers op =>
    match op with
    | .insertInvocation _ k worker => if k = key then workers ++ [worker] else workers
    | .findInvocation k => if k = key then [] else workers
    | _ => workers) []

/-- The operation that follows `ops` does what it is to do with one kind of waiters, and leaves
the other as it was. A result goes to the workers that wait for it. -/
def Separate (ops : List Op) (op : Op) : Prop :=
  let msgs := after ops
  let (workers, msgs') := msgs.serve op
  match op with
  | .insertGet _ key source worker =>
    msgs'.gets.Perm ((key, ⟨.get, some source, worker⟩) :: msgs.gets) ∧
      msgs'.invocations = msgs.invocations
  | .insertInvocation _ key worker =>
    msgs'.gets = msgs.gets ∧
      msgs'.invocations.Perm ((key, ⟨.invocation, some [], worker⟩) :: msgs.invocations)
  | .findGet key source =>
    msgs'.invocations = msgs.invocations ∧
      ((∃ m ∈ msgs.gets, Matches key source m ∧ workers = [m.2.worker] ∧
          msgs.gets.Perm (m :: msgs'.gets)) ∨
        (∀ m ∈ msgs.gets, ¬ Matches key source m) ∧ workers = [] ∧ msgs' = msgs)
  | .findInvocation key =>
    workers.Perm (since key ops) ∧ msgs'.gets = msgs.gets ∧
      msgs'.invocations = msgs.invocations.filter (fun m => m.1 ≠ key) ∧
      ∀ (c : Controller) returnCode payload r, c.pendingMsgs = msgs →
        c.wake key returnCode payload = .ok r →
          ∀ w m, .toWorker w m ∈ r.2 → w ∈ since key ops

/-! ## What the operations do -/

section Operations

variable {msgs : PendingMessages} {ops : List Op} {key source : Str} {m : Str × PendingMessage}

theorem after_append (ops : List Op) (op : Op) : after (ops ++ [op]) = ((after ops).serve op).2 := by
  unfold after
  rw [List.foldl_append]
  rfl

theorem mem_gets : m ∈ msgs.gets ↔ m ∈ msgs ∧ m.2.type = .get := by
  simp [gets]

/-- An entry joins those of its kind. -/
theorem filter_emplace (p : Str × PendingMessage → Bool) (slot : ℕ) (entry : PendingMessage) :
    ((msgs.emplace slot key entry).filter p).Perm
      (if p (key, entry) then (key, entry) :: msgs.filter p else msgs.filter p) := by
  have hsplit : msgs.filter p = (msgs.take slot).filter p ++ (msgs.drop slot).filter p := by
    rw [← List.filter_append, List.take_append_drop]
  unfold emplace
  rw [List.filter_append, List.filter_cons, hsplit]
  split_ifs
  · exact List.perm_middle
  · exact List.Perm.refl _

/-- It joins no other kind. -/
theorem filter_emplace_other {p : Str × PendingMessage → Bool} {entry : PendingMessage}
    (h : p (key, entry) = false) (slot : ℕ) :
    (msgs.emplace slot key entry).filter p = msgs.filter p := by
  unfold emplace
  rw [List.filter_append, List.filter_cons, if_neg (by simp [h]), ← List.filter_append,
    List.take_append_drop]

/-- `find_get` takes one GET, or finds none. -/
theorem findGet_cases (msgs : PendingMessages) (key source : Str) :
    (∃ before m rest, msgs = before ++ m :: rest ∧ Matches key source m ∧
      msgs.findGet key source = (some m.2.worker, before ++ rest)) ∨
    (∀ m ∈ msgs, ¬ Matches key source m) ∧ msgs.findGet key source = (none, msgs) := by
  unfold findGet
  cases hfind : msgs.find? (fun m => Matches key source m) with
  | some m =>
    rcases Lists.find_erase hfind with ⟨hm, before, rest, hsplit, herase, -⟩
    refine .inl ⟨before, m, rest, hsplit, of_decide_eq_true hm, ?_⟩
    rw [herase]
    rfl
  | none =>
    have hnone : ∀ m ∈ msgs, ¬ Matches key source m := by
      intro m hm
      simpa using List.find?_eq_none.1 hfind m hm
    refine .inr ⟨hnone, ?_⟩
    rw [List.eraseP_of_forall_not fun m hm => by simpa using hnone m hm]
    rfl

/-- Whatever is found, the waiters for results stay. -/
theorem invocations_findGet (msgs : PendingMessages) (key source : Str) :
    (msgs.findGet key source).2.invocations = msgs.invocations := by
  rcases findGet_cases msgs key source with ⟨before, m, rest, rfl, hm, hfind⟩ | ⟨-, hfind⟩
  · have htype : ¬ m.2.type = .invocation := by
      rw [hm.2.2]
      decide
    rw [hfind]
    simp [invocations, htype]
  · rw [hfind]

theorem invocations_findInvocation (msgs : PendingMessages) (key : Str) :
    (msgs.findInvocation key).2.invocations = msgs.invocations.filter fun m => m.1 ≠ key := by
  unfold findInvocation invocations
  rw [List.filter_filter, List.filter_filter]
  apply List.filter_congr
  intro m _
  exact Bool.and_comm _ _

end Operations

/-! ## The waiters for a result -/

theorem since_append (key : Str) (ops : List Op) (op : Op) :
    since key (ops ++ [op]) =
      match op with
      | .insertInvocation _ k worker =>
        if k = key then since key ops ++ [worker] else since key ops
      | .findInvocation k => if k = key then [] else since key ops
      | _ => since key ops := by
  unfold since
  rw [List.foldl_append]
  cases op <;> rfl

def waiters (msgs : PendingMessages) (key : Str) : List ℕ :=
  (msgs.invocations.filter fun m => m.1 = key).map (·.2.worker)

/-- The waiters that are stored for a result are those inserted since its last search. -/
theorem invocations_after (ops : List Op) (key : Str) :
    ((after ops).waiters key).Perm (since key ops) := by
  induction ops using List.reverseRecOn with
  | nil => exact List.Perm.refl _
  | append_singleton ops op ih =>
    rw [after_append, since_append]
    cases op with
    | insertGet slot k source worker =>
      have hsame : ((after ops).insertGet slot k source worker).invocations =
          (after ops).invocations := filter_emplace_other rfl slot
      show (waiters ((after ops).insertGet slot k source worker) key).Perm _
      unfold waiters
      rw [hsame]
      exact ih
    | insertInvocation slot k worker =>
      have hnew : ((after ops).insertInvocation slot k worker).invocations.Perm
          ((k, ⟨.invocation, some [], worker⟩) :: (after ops).invocations) :=
        filter_emplace _ slot _
      have hwaiters := (hnew.filter fun m => m.1 = key).map (·.2.worker)
      refine hwaiters.trans ?_
      by_cases hk : k = key
      · simp only [List.filter_cons, hk, decide_true, if_true, List.map_cons]
        exact (ih.cons _).trans (List.perm_append_singleton _ _).symm
      · simp only [List.filter_cons, hk, decide_false, Bool.false_eq_true, if_false]
        exact ih
    | findGet k source =>
      show (waiters ((after ops).findGet k source).2 key).Perm _
      unfold waiters
      rw [invocations_findGet]
      exact ih
    | findInvocation k =>
      show (waiters ((after ops).findInvocation k).2 key).Perm _
      unfold waiters
      rw [invocations_findInvocation, List.filter_filter]
      by_cases hk : k = key
      · -- all of them are taken
        simp [hk]
      · have hother : ∀ m ∈ (after ops).invocations,
            (decide (m.1 = key) && decide (m.1 ≠ k)) = decide (m.1 = key) := by
          intro m _
          by_cases hm : m.1 = key
          · simp [hm, Ne.symm hk]
          · simp [hm]
        unfold waiters at ih
        rw [List.filter_congr hother]
        dsimp only
        rw [if_neg hk]
        exact ih

/-- An entry is a GET or waits for a result. -/
theorem type_after (ops : List Op) :
    ∀ m ∈ after ops, m.2.type = .get ∨ m.2.type = .invocation := by
  induction ops using List.reverseRecOn with
  | nil => intro m hm; cases hm
  | append_singleton ops op ih =>
    rw [after_append]
    intro m hm
    have hemplace : ∀ {slot k entry}, m ∈ (after ops).emplace slot k entry →
        m = (k, entry) ∨ m ∈ after ops := by
      intro slot k entry h
      rcases List.mem_append.1 h with h | h
      · exact .inr (List.mem_of_mem_take h)
      · rcases List.mem_cons.1 h with h | h
        · exact .inl h
        · exact .inr (List.mem_of_mem_drop h)
    cases op with
    | insertGet slot k source worker =>
      rcases hemplace hm with rfl | hold
      · exact .inl rfl
      · exact ih m hold
    | insertInvocation slot k worker =>
      rcases hemplace hm with rfl | hold
      · exact .inr rfl
      · exact ih m hold
    | findGet k source => exact ih m (List.mem_of_mem_eraseP hm)
    | findInvocation k => exact ih m (List.mem_of_mem_filter hm)

/-! ## Runs that keep the kinds apart -/

section Runs

variable {ops : List Op} {key : Str}

/-- Where no GET stands under the key, the search takes the waiters for the result. -/
theorem findInvocation_apart (h : ∀ m ∈ after ops, m.1 = key → m.2.type ≠ .get) :
    ((after ops).findInvocation key).1.Perm (since key ops) ∧
      ((after ops).findInvocation key).2.gets = (after ops).gets := by
  constructor
  · have hkind : ∀ m ∈ after ops, decide (m.1 = key) =
        (decide (m.1 = key) && decide (m.2.type = .invocation)) := by
      intro m hm
      by_cases hkey : m.1 = key
      · have htype := (type_after ops m hm).resolve_left (h m hm hkey)
        simp [htype]
      · simp [hkey]
    have hfound : ((after ops).findInvocation key).1 = (after ops).waiters key := by
      unfold findInvocation waiters invocations
      rw [List.filter_filter, List.filter_congr hkind]
    rw [hfound]
    exact invocations_after ops key
  · unfold findInvocation gets
    rw [List.filter_filter]
    apply List.filter_congr
    intro m hm
    by_cases hkey : m.1 = key
    · simp [h m hm hkey]
    · simp [hkey]

/-- The recipients of a result are the workers that the search returns. -/
theorem mem_wake {c : Controller} {returnCode : Int} {payload : Buffer}
    {r : Controller × List Output} (h : c.wake key returnCode payload = .ok r) {w : ℕ}
    {m : WorkerMessage} (hm : .toWorker w m ∈ r.2) : w ∈ (c.pendingMsgs.findInvocation key).1 := by
  unfold Controller.wake at h
  rcases Lts.bind_ok h with ⟨result, -, h⟩
  rw [← Except.ok.inj h] at hm
  rcases List.mem_map.1 hm with ⟨v, hv, heq⟩
  obtain rfl : v = w := (Output.toWorker.inj heq).1
  exact hv

theorem separate_of_apart {op : Op}
    (h : ∀ key, op = .findInvocation key → ∀ m ∈ after ops, m.1 = key → m.2.type ≠ .get) :
    Separate ops op := by
  cases op with
  | insertGet slot key source worker =>
    exact ⟨filter_emplace _ slot _, filter_emplace_other rfl slot⟩
  | insertInvocation slot key worker =>
    exact ⟨filter_emplace_other rfl slot, filter_emplace _ slot _⟩
  | findGet key source =>
    refine ⟨invocations_findGet _ key source, ?_⟩
    show (∃ m ∈ (after ops).gets, Matches key source m ∧
        ((after ops).findGet key source).1.toList = [m.2.worker] ∧
          (after ops).gets.Perm (m :: gets ((after ops).findGet key source).2)) ∨
      (∀ m ∈ (after ops).gets, ¬ Matches key source m) ∧
        ((after ops).findGet key source).1.toList = [] ∧
          ((after ops).findGet key source).2 = after ops
    rcases findGet_cases (after ops) key source with
      ⟨before, m, rest, hsplit, hm, hfind⟩ | ⟨hnone, hfind⟩
    · refine .inl ⟨m, mem_gets.2 ⟨?_, hm.2.2⟩, hm, by rw [hfind]; rfl, ?_⟩
      · rw [hsplit]
        exact List.mem_append_right _ List.mem_cons_self
      · have hgets : (after ops).gets = gets before ++ m :: gets rest := by
          rw [hsplit]
          simp [gets, hm.2.2]
        have hrest : gets (before ++ rest) = gets before ++ gets rest := List.filter_append ..
        rw [hfind, hgets, hrest]
        exact List.perm_middle
    · exact .inr ⟨fun m hm => hnone m (mem_gets.1 hm).1, by rw [hfind]; rfl, by rw [hfind]⟩
  | findInvocation key =>
    rcases findInvocation_apart (h key rfl) with ⟨hworkers, hgets⟩
    refine ⟨hworkers, hgets, invocations_findInvocation _ key, ?_⟩
    intro c returnCode payload r hc hwake w m hm
    have hfound := mem_wake hwake hm
    rw [hc] at hfound
    exact hworkers.subset hfound

/-- For every run: each operation keeps GETs and waiters for results apart if and only if no
search for the waiters of an invocation finds a GET under its key. -/
theorem waiters_separate_iff (es : List Op) :
    (∀ ops op rest, es = ops ++ op :: rest → Separate ops op) ↔
      ∀ ops key rest, es = ops ++ .findInvocation key :: rest →
        ∀ m ∈ after ops, m.1 = key → m.2.type ≠ .get := by
  constructor
  · intro h ops key rest hes m hm hkey htype
    have hgets := (h ops (.findInvocation key) rest hes).2.1
    have hstays : m ∈ gets ((after ops).findInvocation key).2 := by
      rw [show gets ((after ops).findInvocation key).2 = (after ops).gets from hgets]
      exact mem_gets.2 ⟨hm, htype⟩
    have hleft := List.of_mem_filter (mem_gets.1 hstays).1
    simp [hkey] at hleft
  · intro h ops op rest hes
    apply separate_of_apart
    intro key hop
    exact h ops key rest (by rw [← hop]; exact hes)

/-- A worker waits in `get` for a message whose name is the identifier of an invocation: the
result of the invocation is sent to it, and it waits no more. -/
theorem result_taken_for_message :
    let ops := [Op.insertGet 0 (str ['k']) ANY_PROCESS 1, .insertInvocation 0 (str ['k']) 0]
    ¬ Separate ops (.findInvocation (str ['k'])) ∧
      (after ops).serve (.findInvocation (str ['k'])) = ([0, 1], []) := by
  intro ops
  refine ⟨fun h => ?_, by decide⟩
  have hgets : gets ((after ops).findInvocation (str ['k'])).2 = (after ops).gets := h.2.1
  exact absurd hgets (by decide)

end Runs

end Praas.Process.PendingMessages
