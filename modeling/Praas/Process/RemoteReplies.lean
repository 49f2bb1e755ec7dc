import Praas.Process.Invocations

/-! # Replies to remote requests

Only the source an invocation was created with gets its result, so a request that
is merged into an invocation that waits is never answered by itself:
* `held_effect` — as long as no request is merged, each external request that has
  no reply yet is the source of the one invocation of its id;
* `every_request_answered_once` — so in a run without merging every request gets
  one reply, once the invocations have run.
-/

namespace Praas.Process.Invocations

open Ipc (Text)

/-- The reply is to this request: it goes to its source, with its id, and is the
result of an execution with its payload, or its rejection. -/
inductive Answers (r : Request) : Reply → Prop
  | executed (j : Job) (returnCode : Int) (output : Buffer) (named : j.id = r.id)
      (included : r.payload ∈ j.payloads) :
      Answers r ⟨r.peer.source, r.id.1, returnCode, output, .executed j returnCode output⟩
  | rejected (message : Buffer) :
      Answers r ⟨r.peer.source, r.id.1, -1, message, .rejected none r.payload⟩

/-- No invocation of the requested id waits for a worker. -/
def Unmerged (s : System) : Event → Prop
  | .request _ msg _ => msg.invocationId.1 ∉ s.ctl.workQueue.pendingInvocations
  | .invoke _ req _ _ => req.invocationId.1 ∉ s.ctl.workQueue.pendingInvocations
  | _ => True

instance (s : System) (e : Event) : Decidable (Unmerged s e) :=
  match e with
  | .request _ _ _ => inferInstanceAs (Decidable (¬ _))
  | .invoke _ _ _ _ => inferInstanceAs (Decidable (¬ _))
  | .schedule => inferInstanceAs (Decidable True)
  | .result _ _ _ => inferInstanceAs (Decidable True)

/-- The work queue has drained: no invocation waits, and no worker runs one. -/
def Drained (s : System) : Prop :=
  s.ctl.workQueue.pendingInvocations = [] ∧ true ∉ s.ctl.workers.busy

instance (s : System) : Decidable (Drained s) := inferInstanceAs (Decidable (_ ∧ _))

theorem drained_table {s : System} (h : s.Sound) (hdrained : Drained s) (key : Str) :
    s.ctl.workQueue.activeInvocations key = none := by
  by_contra hne
  rcases Option.ne_none_iff_exists'.1 hne with ⟨i, hi⟩
  cases hactive : i.active with
  | false =>
    have hmem := (h.queued key).2 ⟨i, hi, hactive⟩
    rw [hdrained.1] at hmem
    cases hmem
  | true =>
    rcases h.runs key i hi hactive with ⟨w, j, hj, -⟩
    exact hdrained.2 (List.mem_of_getElem? (h.running w j hj).1)

/-! ## The requests without a reply -/

abbrev Table := Str → Option Invocation

/-- The requests `left` are the sources of the invocations from remote. -/
structure Held (table : Table) (left : List Request) : Prop where
  nodup : (left.map (·.id)).Nodup
  held : ∀ r ∈ left, ∃ i, table r.id.1 = some i ∧ i.source = r.peer.source ∧
    i.payload = [r.payload]
  remote : ∀ key i, table key = some i → i.source.isRemote = true → ∃ r ∈ left, r.id.1 = key
  single : ∀ key i, table key = some i → i.payload.length = 1

theorem held_new : Held (fun _ => none) [] where
  nodup := List.nodup_nil
  held r h := by cases h
  remote key i h := by cases h
  single key i h := by cases h

variable {table : Table} {left : List Request} {key : Str} {i : Invocation}

/-- A request is left exactly if its id is in the table. -/
theorem Held.ne_of_free (h : Held table left) (free : table key = none) {r : Request}
    (hr : r ∈ left) : r.id.1 ≠ key := by
  rintro rfl
  rcases h.held r hr with ⟨i, hi, -⟩
  simp [free] at hi

/-- An invocation is created for a request. -/
theorem held_request (h : Held table left) (r : Request) (free : table r.id.1 = none)
    (source : i.source = r.peer.source) (payload : i.payload = [r.payload]) :
    Held (Function.update table r.id.1 (some i)) (left ++ [r]) := by
  refine ⟨?_, fun x hx => ?_, fun k x hx hremote => ?_, fun k x hx => ?_⟩
  · rw [List.map_append]
    refine List.nodup_append.2 ⟨h.nodup, by simp, ?_⟩
    intro a ha b hb heq
    rcases List.mem_map.1 ha with ⟨x, hx, rfl⟩
    obtain rfl : b = r.id := by simpa using hb
    exact h.ne_of_free free hx (congrArg Subtype.val heq)
  · rcases List.mem_append.1 hx with hx | hx
    · simpa [h.ne_of_free free hx] using h.held x hx
    · obtain rfl : x = r := by simpa using hx
      exact ⟨i, by simp, source, payload⟩
  · rcases eq_or_ne k r.id.1 with rfl | hne
    · exact ⟨r, by simp, rfl⟩
    · rcases h.remote k x (by simpa [hne] using hx) hremote with ⟨y, hy, hid⟩
      exact ⟨y, by simp [hy], hid⟩
  · rcases eq_or_ne k r.id.1 with rfl | hne
    · obtain rfl : i = x := by simpa using hx
      simp [payload]
    · exact h.single k x (by simpa [hne] using hx)

/-- An invocation is created for a worker of the process itself. -/
theorem held_local (h : Held table left) (free : table key = none)
    (local_source : i.source.isRemote = false) (payload : i.payload.length = 1) :
    Held (Function.update table key (some i)) left := by
  refine ⟨h.nodup, fun x hx => ?_, fun k x hx hremote => ?_, fun k x hx => ?_⟩
  · simpa [h.ne_of_free free hx] using h.held x hx
  · rcases eq_or_ne k key with rfl | hne
    · obtain rfl : i = x := by simpa using hx
      simp [local_source] at hremote
    · exact h.remote k x (by simpa [hne] using hx) hremote
  · rcases eq_or_ne k key with rfl | hne
    · obtain rfl : i = x := by simpa using hx
      exact payload
    · exact h.single k x (by simpa [hne] using hx)

/-- An invocation is marked and its header filled. -/
theorem held_mark (h : Held table left) (found : table key = some i) {x : Invocation}
    (source : x.source = i.source) (payload : x.payload = i.payload) :
    Held (Function.update table key (some x)) left := by
  refine ⟨h.nodup, fun r hr => ?_, fun k y hy hremote => ?_, fun k y hy => ?_⟩
  · rcases h.held r hr with ⟨y, hy, hsource, hpayload⟩
    rcases eq_or_ne r.id.1 key with heq | hne
    · obtain rfl : i = y := by simpa [heq, found] using hy
      exact ⟨x, by simp [heq], source.trans hsource, payload.trans hpayload⟩
    · exact ⟨y, by simpa [hne] using hy, hsource, hpayload⟩
  · rcases eq_or_ne k key with rfl | hne
    · obtain rfl : x = y := by simpa using hy
      exact h.remote k i found (source ▸ hremote)
    · exact h.remote k y (by simpa [hne] using hy) hremote
  · rcases eq_or_ne k key with rfl | hne
    · obtain rfl : x = y := by simpa using hy
      rw [payload]
      exact h.single k i found
    · exact h.single k y (by simpa [hne] using hy)

/-- An invocation from remote has run: its request is no longer left. -/
theorem held_finish (h : Held table left) (found : table key = some i)
    (remote : i.source.isRemote = true) :
    ∃ before r after, left = before ++ r :: after ∧ r.id.1 = key ∧ i.source = r.peer.source ∧
      i.payload = [r.payload] ∧ Held (Function.update table key none) (before ++ after) := by
  rcases h.remote key i found remote with ⟨r, hr, rfl⟩
  rcases List.append_of_mem hr with ⟨before, after, rfl⟩
  rcases h.held r hr with ⟨y, hy, hsource, hpayload⟩
  obtain rfl : i = y := by simpa [found] using hy
  have hnodup : (r.id :: (before ++ after).map (·.id)).Nodup := by
    have hmid := h.nodup
    rw [List.map_append, List.map_cons, List.nodup_middle, ← List.map_append] at hmid
    exact hmid
  have hne : ∀ x ∈ before ++ after, x.id.1 ≠ r.id.1 := by
    intro x hx heq
    have hout := (List.nodup_cons.1 hnodup).1
    exact hout (List.mem_map.2 ⟨x, hx, Subtype.ext heq⟩)
  refine ⟨before, r, after, rfl, rfl, hsource, hpayload, (List.nodup_cons.1 hnodup).2,
    fun x hx => ?_, fun k x hx hremote => ?_, fun k x hx => ?_⟩
  · have hmem : x ∈ before ++ r :: after := by
      rcases List.mem_append.1 hx with hx | hx <;> simp [hx]
    simpa [hne x hx] using h.held x hmem
  · rcases eq_or_ne k r.id.1 with rfl | hk
    · simp at hx
    · rcases h.remote k x (by simpa [hk] using hx) hremote with ⟨y, hy, rfl⟩
      have hyr : y ≠ r := fun heq => hk (by rw [heq])
      exact ⟨y, by simpa [hyr] using hy, rfl⟩
  · rcases eq_or_ne k r.id.1 with rfl | hk
    · simp at hx
    · exact h.single k x (by simpa [hk] using hx)

/-- One from a worker has run. -/
theorem held_finish_local (h : Held table left) (found : table key = some i)
    (local_source : i.source.isRemote = false) :
    Held (Function.update table key none) left := by
  refine ⟨h.nodup, fun r hr => ?_, fun k x hx hremote => ?_, fun k x hx => ?_⟩
  · rcases h.held r hr with ⟨y, hy, hsource, hpayload⟩
    have hne : r.id.1 ≠ key := by
      intro heq
      obtain rfl : i = y := by simpa [heq, found] using hy
      rw [hsource, source_isRemote] at local_source
      cases local_source
    exact ⟨y, by simpa [hne] using hy, hsource, hpayload⟩
  · rcases eq_or_ne k key with rfl | hk
    · simp at hx
    · exact h.remote k x (by simpa [hk] using hx) hremote
  · rcases eq_or_ne k key with rfl | hk
    · simp at hx
    · exact h.single k x (by simpa [hk] using hx)

/-! ## One step -/

/-- The requests `done` have been answered, one by one, and `left` are to be. -/
def Accounted (s : System) (left : List Request) : Prop :=
  ∃ done : List Request, (done ++ left).Perm s.requests ∧ List.Forall₂ Answers done s.sent

def Inv (s : System) : Prop :=
  s.Sound ∧ ∃ left, Accounted s left ∧ Held s.ctl.workQueue.activeInvocations left

theorem inv_effect {s s' : System} {e : Event} (h : Inv s) (hc : Unmerged s e)
    (heff : Effect s e s') : Inv s' := by
  rcases h with ⟨hsound, left, ⟨done, hperm, hanswers⟩, hheld⟩
  refine ⟨sound_effect hsound heff, ?_⟩
  -- a request that meets no waiting invocation is not merged
  have hnew : ∀ {key payload source q}, key ∉ s.ctl.workQueue.pendingInvocations →
      Takes s.ctl.workQueue key payload source q →
      ∃ i, s.ctl.workQueue.activeInvocations key = none ∧ i.payload = [payload] ∧
        i.source = source ∧
        q.activeInvocations = Function.update s.ctl.workQueue.activeInvocations key (some i) := by
    intro key payload source q hout htakes
    cases htakes with
    | merged i found waits => exact absurd ((hsound.queued key).2 ⟨i, found, waits⟩) hout
    | created i free named waits payloads from_source =>
      exact ⟨i, free, payloads, from_source, rfl⟩
  cases heff with
  | @requested peer msg payload q takes =>
    rcases hnew hc takes with ⟨i, hfree, hpayload, hsource, hq⟩
    refine ⟨left ++ [⟨peer, msg.invocationId, payload⟩], ⟨done, ?_, hanswers⟩, ?_⟩
    · rw [← List.append_assoc]
      exact hperm.append_right _
    · show Held q.activeInvocations _
      rw [hq]
      exact held_request hheld ⟨peer, msg.invocationId, payload⟩ hfree hsource hpayload
  | @refused peer msg payload message refuses =>
    refine ⟨left, ⟨done ++ [⟨peer, msg.invocationId, payload⟩], ?_, ?_⟩, hheld⟩
    · exact (Lists.perm_snoc_left done left _).trans (hperm.append_right _)
    · exact List.rel_append hanswers (.cons (.rejected message) .nil)
  | @invoked w req payload env q runs takes =>
    rcases hnew hc takes with ⟨i, hfree, hpayload, hsource, hq⟩
    refine ⟨left, ⟨done, hperm, hanswers⟩, ?_⟩
    show Held q.activeInvocations left
    rw [hq]
    exact held_local hheld hfree (by rw [hsource]; rfl) (by rw [hpayload]; rfl)
  | invokeRefused runs refuses => exact ⟨left, ⟨done, hperm, hanswers⟩, hheld⟩
  | invokeSkipped => exact ⟨left, ⟨done, hperm, hanswers⟩, hheld⟩
  | submitted buffers pending found free =>
    exact ⟨left, ⟨done, hperm, hanswers⟩, held_mark hheld found rfl rfl⟩
  | scheduleSkipped => exact ⟨left, ⟨done, hperm, hanswers⟩, hheld⟩
  | @answeredRemote w j i returnCode output runs job found active remote =>
    rcases held_finish hheld found remote with
      ⟨before, r, after, rfl, hid, hsource, hpayload, hrest⟩
    refine ⟨before ++ after, ⟨done ++ [r], ?_, ?_⟩, hrest⟩
    · exact (Lists.perm_move_left done before after r).trans hperm
    · -- the invocation ran with the payload of its one request
      have hincluded : r.payload ∈ j.payloads := by
        rcases (hsound.running w j job).2 with ⟨x, hx, -, hx'⟩
        obtain rfl : i = x := by simpa [found] using hx
        simp [← hx', hpayload]
      have hreply : Answers r ⟨i.source, j.id.1, returnCode, output,
          .executed j returnCode output⟩ := by
        rw [hsource, ← hid]
        exact .executed j returnCode output (Subtype.ext hid.symm) hincluded
      exact List.rel_append hanswers (.cons hreply .nil)
  | answeredLocal runs job found active local_source =>
    exact ⟨left, ⟨done, hperm, hanswers⟩, held_finish_local hheld found local_source⟩
  | resultSkipped => exact ⟨left, ⟨done, hperm, hanswers⟩, hheld⟩

theorem inv_new (processId : Str) (n : ℕ) (functions : Str → Option Trigger) :
    Inv (System.new (Controller.new processId n functions)) :=
  ⟨sound_new functions n, [], ⟨[], List.Perm.refl _, .nil⟩, held_new⟩

theorem inv_step {s : System} {e : Event} (h : Inv s) (hc : Unmerged s e) :
    ∃ s', s.step e = .ok s' ∧ Inv s' := by
  have hfits : Fits s e := by
    cases e with
    | schedule =>
      intro _ key _ i hi
      rcases h.2 with ⟨left, -, hheld⟩
      have hlen : i.payload.length = 1 := hheld.single key i hi
      rw [hlen]
      decide
    | request peer msg payload => trivial
    | invoke w req payload env => trivial
    | result w returnCode output => trivial
  rcases step_effect h.1 e hfits with ⟨s', hs', heff⟩
  exact ⟨s', hs', inv_effect h hc heff⟩

/-! ## Whole runs -/

/-- In a run in which no request is merged into an invocation that waits, no step
raises, each reply is that of a different request, and once the work queue has
drained every request has got one. -/
theorem every_request_answered_once (processId : Str) (n : ℕ) (functions : Str → Option Trigger)
    (es : List Event)
    (hes : Lts.Meets System.step Unmerged
      (System.new (Controller.new processId n functions)) es) :
    ∃ s, Lts.run System.step (System.new (Controller.new processId n functions)) es = .ok s ∧
      ∃ done left, (done ++ left).Perm s.requests ∧ List.Forall₂ Answers done s.sent ∧
        (Drained s → left = []) := by
  rcases Lts.run_keeps (fun _ _ h hc => inv_step h hc) (inv_new processId n functions) hes with
    ⟨s, hrun, hsound, left, ⟨done, hperm, hanswers⟩, hheld⟩
  refine ⟨s, hrun, done, left, hperm, hanswers, fun hdrained => ?_⟩
  rw [List.eq_nil_iff_forall_not_mem]
  intro r hr
  rcases hheld.held r hr with ⟨i, hi, -⟩
  simp [drained_table hsound hdrained r.id.1] at hi

/-! ### Two requests -/

/-- The header of a request for the function `f`. -/
def requestHeader (id : Str) : RequestHeader :=
  ⟨leBytes 2 4 ++ List.replicate 8 0 ++ strncpy (str ['f']) 32 ++ strncpy id 16 ++
    List.replicate 12 0, rfl⟩

/-- A controller with one worker, whose functions are all known. -/
def oneWorker : System := System.new (Controller.new (str ['p']) 1 fun _ => some .direct)

theorem two_ids_answered :
    ∃ s, Lts.run System.step oneWorker
        [.request .dataPlane (requestHeader (str ['x'])) [1],
          .request (.process (str ['q'])) (requestHeader (str ['y'])) [2],
          .schedule, .result 0 0 [3], .schedule, .result 0 0 [4]] = .ok s ∧
      ∃ done left, (done ++ left).Perm s.requests ∧ List.Forall₂ Answers done s.sent ∧
        (Drained s → left = []) :=
  every_request_answered_once _ _ _ _ (by decide +kernel)

/-- A second request with the id of one that waits is merged into it; its own
source gets no reply. -/
theorem merged_request_unanswered :
    ∃ s, Lts.run System.step oneWorker
        [.request .dataPlane (requestHeader (str ['x'])) [1],
          .request (.process (str ['q'])) (requestHeader (str ['x'])) [2],
          .schedule, .result 0 0 [3]] = .ok s ∧
      Drained s ∧ (∃ r ∈ s.requests, r.peer = .process (str ['q'])) ∧
        ∀ reply ∈ s.sent, reply.source ≠ Peer.source (.process (str ['q'])) :=
  Lts.run_test _ _ _ _ (by decide +kernel)

end Praas.Process.Invocations
