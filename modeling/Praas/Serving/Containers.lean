import Praas.Serving.HttpServer

/-! # Callbacks and containers of the serving layer

A request is answered once, at the end of its chain of calls, and the table follows the
containers, as long as Docker's replies make sense: a started container is not started over
another one of the same process, and a stop is not confirmed after the process was created
anew. A request to kill a process that is not there takes the server down.
-/

namespace Praas.Serving

/-! ## What the code needs of a step -/

/-- The reply can be read, and agrees with the table. -/
def DockerCall.Fits (opts : Options) (ps : Processes) : DockerCall → DockerResponse → Prop
  | .create _ _ _, r => r.status = 201 → Lts.Returns (HttpServer.readId r)
  | .start process _, r => r.status = 204 → ps process = none
  | .inspect _ _, r => r.status = 200 → Lts.Returns (HttpServer.readPort opts r)
  | .stop process container, r => r.status = 204 → ∀ p ∈ ps process, p.containerId = container

instance (opts : Options) (ps : Processes) :
    (c : DockerCall) → (r : DockerResponse) → Decidable (c.Fits opts ps r)
  | .create _ _ _, _ => inferInstanceAs (Decidable (_ → _))
  | .start _ _, _ => inferInstanceAs (Decidable (_ → _))
  | .inspect _ _, _ => inferInstanceAs (Decidable (_ → _))
  | .stop _ _, _ => inferInstanceAs (Decidable (_ → ∀ p ∈ _, _))

/-- The body of a request can be read, a process that is killed is in the table, and a call is
answered by a reply that fits. -/
def System.Regular (opts : Options) (s : System) : Event → Prop
  | .create process body =>
    process = [] ∨ ∀ json ∈ body, Lts.Returns (HttpServer.readBody json)
  | .kill process => s.processes process ≠ none
  | .reply k response =>
    ∀ call ∈ s.calls[k]?, ∃ r ∈ response, DockerCall.Fits opts s.processes call.2 r

instance (opts : Options) (s : System) : (e : Event) → Decidable (s.Regular opts e)
  | .create _ _ => inferInstanceAs (Decidable (_ ∨ ∀ json ∈ _, _))
  | .kill _ => inferInstanceAs (Decidable (_ ≠ _))
  | .reply _ _ => inferInstanceAs (Decidable (∀ call ∈ _, ∃ r ∈ _, _))

/-! ## Callbacks and the table -/

/-- How often the callback of a request was called. -/
def System.answered (s : System) (id : ℕ) : ℕ := s.answers.countP fun a => a.1 = id

/-- How many calls of a request are not answered yet. -/
def System.waiting (s : System) (id : ℕ) : ℕ := s.calls.countP fun c => c.1 = id

/-- The table holds the containers that run. -/
def System.Tracked (s : System) : Prop :=
  ∀ process p, s.processes process = some p ↔
    p.processId = process ∧ (process, p.containerId) ∈ s.running

structure System.Correct (s : System) : Prop where
  /-- Once its calls have completed, the callback of a request has been called once. -/
  answered : ∀ id < s.requests, (∀ c ∈ s.calls, c.1 ≠ id) → s.answered id = 1
  tracked : s.Tracked

structure Inv (s : System) : Prop where
  once : ∀ id, s.waiting id + s.answered id = if id < s.requests then 1 else 0
  tracked : s.Tracked

theorem correct_of_inv {s : System} (h : Inv s) : s.Correct where
  answered := by
    intro id hid hdone
    have honce := h.once id
    have hwaiting : s.waiting id = 0 := List.countP_eq_zero.2 (by simpa using hdone)
    rw [hwaiting, if_pos hid] at honce
    omega
  tracked := h.tracked

theorem inv_init : Inv {} where
  once _ := rfl
  tracked process p := by simp

section Steps

variable {s s' : System} {opts : Options}

/-- A request, or a reply, ends in an answer or in the next call. -/
theorem finish_counts (s : System) (id : ℕ) (out : Outcome) (i : ℕ) :
    (s.finish id out).waiting i + (s.finish id out).answered i =
      s.waiting i + s.answered i + if id = i then 1 else 0 := by
  cases out with
  | answer r =>
    simp only [System.finish, System.waiting, System.answered, List.countP_append,
      List.countP_singleton, decide_eq_true_eq]
    omega
  | call c =>
    simp only [System.finish, System.waiting, System.answered, List.countP_append,
      List.countP_singleton, decide_eq_true_eq]
    omega

@[simp] theorem finish_requests (s : System) (id : ℕ) (out : Outcome) :
    (s.finish id out).requests = s.requests := by
  cases out <;> rfl

theorem finish_tracked {id : ℕ} {out : Outcome} : (s.finish id out).Tracked ↔ s.Tracked := by
  cases out <;> rfl

/-- A new request. -/
theorem Inv.request (h : Inv s) (out : Outcome) :
    Inv ({ s with requests := s.requests + 1 }.finish s.requests out) where
  once i := by
    have honce := h.once i
    rw [finish_counts, finish_requests]
    show s.waiting i + s.answered i + (if s.requests = i then 1 else 0) =
      if i < s.requests + 1 then 1 else 0
    rw [honce]
    split_ifs <;> omega
  tracked := finish_tracked.2 h.tracked

/-- A reply takes its call off the list. -/
theorem eraseIdx_waiting {k id : ℕ} {c : DockerCall} (hk : s.calls[k]? = some (id, c)) (i : ℕ) :
    (s.calls.eraseIdx k).countP (fun c => c.1 = i) + (if id = i then 1 else 0) = s.waiting i := by
  have hperm := List.getElem_cons_eraseIdx_perm (List.getElem?_eq_some_iff.1 hk).1
  have hcount := hperm.countP_eq fun c => c.1 = i
  rw [(List.getElem?_eq_some_iff.1 hk).2, List.countP_cons] at hcount
  simpa [System.waiting] using hcount

theorem Inv.reply (h : Inv s) {k id : ℕ} {c : DockerCall} (hk : s.calls[k]? = some (id, c))
    {ps : Processes} {running : Finset (Str × Str)} (out : Outcome)
    (htracked : System.Tracked { s with processes := ps, running := running }) :
    Inv (System.finish { s with
      processes := ps, calls := s.calls.eraseIdx k, running := running } id out) where
  once i := by
    have honce := h.once i
    have hcall := eraseIdx_waiting hk i
    rw [finish_counts, finish_requests]
    show (s.calls.eraseIdx k).countP _ + s.answered i + _ = if i < s.requests then 1 else 0
    rw [← honce, ← hcall]
    omega
  tracked := finish_tracked.2 htracked

/-! ## The table -/

/-- A container is started for a process that has none. -/
theorem tracked_start (h : s.Tracked) {process : Str} (container : Str)
    (hfree : s.processes process = none) :
    System.Tracked { s with
      processes := Function.update s.processes process (some ⟨process, container⟩)
      running := insert (process, container) s.running } := by
  intro q p
  rcases eq_or_ne q process with rfl | hne
  · have hnone : ∀ c, (q, c) ∉ s.running := by
      intro c hc
      have hq := (h q ⟨q, c⟩).2 ⟨rfl, hc⟩
      rw [hfree] at hq
      cases hq
    simp only [Function.update_self, Option.some.injEq, Finset.mem_insert, Prod.mk.injEq, true_and,
      hnone, or_false]
    constructor
    · rintro rfl
      exact ⟨rfl, rfl⟩
    · rintro ⟨rfl, rfl⟩
      rfl
  · simp only [Function.update_of_ne hne, Finset.mem_insert, Prod.mk.injEq, hne, false_and,
      false_or]
    exact h q p

/-- A container is stopped, and the table knows of no other one of the process. -/
theorem tracked_stop (h : s.Tracked) {process container : Str}
    (hown : ∀ p, s.processes process = some p → p.containerId = container) :
    System.Tracked { s with
      processes := s.processes.erase process
      running := s.running.erase (process, container) } := by
  intro q p
  unfold Processes.erase
  rcases eq_or_ne q process with rfl | hne
  · simp only [Function.update_self, Finset.mem_erase, ne_eq, Prod.mk.injEq, true_and]
    constructor
    · rintro ⟨⟩
    · rintro ⟨hp, hcontainer, hrunning⟩
      exact absurd (hown p ((h q p).2 ⟨hp, hrunning⟩)) hcontainer
  · simp only [Function.update_of_ne hne, Finset.mem_erase, ne_eq, Prod.mk.injEq, hne, false_and,
      not_false_eq_true, true_and]
    exact h q p

/-- The entry of another container is lost. -/
theorem not_tracked_stop (h : s.Tracked) {process container : Str} {p : Process}
    (hp : s.processes process = some p) (hother : p.containerId ≠ container) :
    ¬ System.Tracked { s with
      processes := s.processes.erase process
      running := s.running.erase (process, container) } := by
  intro hafter
  have hrunning := (h process p).1 hp
  have hkept : (process, p.containerId) ∈ s.running.erase (process, container) :=
    Finset.mem_erase.2 ⟨by simpa using hother, hrunning.2⟩
  have hfound := (hafter process p).2 ⟨hrunning.1, hkept⟩
  simp [Processes.erase] at hfound

/-! ## The handlers -/

theorem create_ok {process : Str} {body : Option Json}
    (h : s.Regular opts (.create process body)) : ∃ out, HttpServer.create process body = .ok out := by
  unfold HttpServer.create
  by_cases hempty : process = []
  · exact ⟨_, if_pos hempty⟩
  · rw [if_neg hempty]
    cases body with
    | none => exact ⟨_, rfl⟩
    | some json =>
      rcases h.resolve_left hempty json rfl with ⟨args, hargs⟩
      cases args with
      | none => exact ⟨_, by simp only [hargs]; rfl⟩
      | some args => exact ⟨_, by simp only [hargs]; rfl⟩

/-- Only a body that cannot be read raises. -/
theorem create_regular {process : Str} {body : Option Json} {out : Outcome}
    (h : HttpServer.create process body = .ok out) : s.Regular opts (.create process body) := by
  by_cases hempty : process = []
  · exact .inl hempty
  · refine .inr ?_
    rintro json rfl
    unfold HttpServer.create at h
    rw [if_neg hempty] at h
    rcases Lts.bind_ok h with ⟨args, hargs, -⟩
    exact ⟨args, hargs⟩

/-- What a reply that fits does to the table. -/
theorem reply_ok (h : s.Tracked) {c : DockerCall} {r : DockerResponse}
    (hfits : c.Fits opts s.processes r) :
    ∃ ps out, HttpServer.reply opts s.processes c (some r) = .ok (ps, out) ∧
      System.Tracked { s with processes := ps, running := s.runningAfter c (some r) } := by
  cases c with
  | create process image controlplaneAddr =>
    have hcreated : ∃ out, HttpServer.created process r = .ok out := by
      unfold HttpServer.created
      split_ifs with h409 h201
      · exact ⟨_, rfl⟩
      · -- only here is the body read
        rcases hfits h201 with ⟨id, hid⟩
        exact ⟨.call (.start process id), by rw [hid]; rfl⟩
      · exact ⟨_, rfl⟩
    rcases hcreated with ⟨out, hout⟩
    exact ⟨s.processes, out, by simp only [HttpServer.reply, hout]; rfl, h⟩
  | start process container =>
    unfold HttpServer.reply HttpServer.started System.runningAfter
    dsimp only
    by_cases h404 : r.status = 404
    · rw [if_pos h404, if_neg (by omega)]
      exact ⟨_, _, rfl, h⟩
    · rw [if_neg h404]
      by_cases h204 : r.status = 204
      · rw [if_pos h204, if_pos h204]
        -- the table throws if the name is taken
        have hfree := hfits h204
        unfold Processes.add
        rw [hfree]
        exact ⟨_, _, rfl, tracked_start h container hfree⟩
      · rw [if_neg h204, if_neg h204]
        exact ⟨_, _, rfl, h⟩
  | inspect process container =>
    have hinspected : ∃ out, HttpServer.inspected opts process container r = .ok out := by
      unfold HttpServer.inspected
      split_ifs with h200
      · rcases hfits h200 with ⟨port, hport⟩
        exact ⟨.answer (.created _ container process opts.serverIp port), by rw [hport]; rfl⟩
      · exact ⟨_, rfl⟩
    rcases hinspected with ⟨out, hout⟩
    exact ⟨s.processes, out, by simp only [HttpServer.reply, hout]; rfl, h⟩
  | stop process container =>
    unfold HttpServer.reply HttpServer.stopped System.runningAfter
    dsimp only
    by_cases h404 : r.status = 404
    · rw [if_pos h404, if_neg (by omega)]
      exact ⟨_, _, rfl, h⟩
    · rw [if_neg h404]
      by_cases h204 : r.status = 204
      · rw [if_pos h204, if_pos h204]
        exact ⟨_, _, rfl, tracked_stop h (hfits h204)⟩
      · rw [if_neg h204, if_neg h204]
        exact ⟨_, _, rfl, h⟩

/-- A reply that does not fit raises, or makes the table forget a container. -/
theorem reply_breaks (h : s.Tracked) {c : DockerCall} {r : DockerResponse}
    (hfits : ¬ c.Fits opts s.processes r) {ps : Processes} {out : Outcome}
    (hreply : HttpServer.reply opts s.processes c (some r) = .ok (ps, out)) :
    ¬ System.Tracked { s with processes := ps, running := s.runningAfter c (some r) } := by
  cases c with
  | create process image controlplaneAddr =>
    refine absurd (fun h201 : r.status = 201 => ?_) hfits
    rcases Lts.bind_ok hreply with ⟨out, hcreated, -⟩
    simp only [HttpServer.created, h201] at hcreated
    rcases Lts.bind_ok hcreated with ⟨id, hid, -⟩
    exact ⟨id, hid⟩
  | start process container =>
    refine absurd (fun h204 : r.status = 204 => ?_) hfits
    simp only [HttpServer.reply, HttpServer.started, h204] at hreply
    rcases Lts.bind_ok hreply with ⟨ps', hadd, -⟩
    unfold Processes.add at hadd
    split at hadd
    case h_1 hfree => exact hfree
    case h_2 => cases hadd
  | inspect process container =>
    refine absurd (fun h200 : r.status = 200 => ?_) hfits
    rcases Lts.bind_ok hreply with ⟨out, hinspected, -⟩
    simp only [HttpServer.inspected, h200] at hinspected
    rcases Lts.bind_ok hinspected with ⟨port, hport, -⟩
    exact ⟨port, hport⟩
  | stop process container =>
    unfold DockerCall.Fits at hfits
    push Not at hfits
    rcases hfits with ⟨h204, p, hp, hother⟩
    simp only [HttpServer.reply, HttpServer.stopped, h204] at hreply
    obtain ⟨rfl, -⟩ := Prod.mk.inj (Except.ok.inj hreply)
    -- the entry that is erased is that of another container
    simp only [System.runningAfter, if_pos h204]
    exact not_tracked_stop h hp hother

theorem step_regular (h : Inv s) {e : Event} (hC : s.Regular opts e) :
    ∃ s', s.step opts e = .ok s' ∧ Inv s' := by
  cases e with
  | create process body =>
    rcases create_ok hC with ⟨out, hout⟩
    exact ⟨_, by simp only [System.step, hout]; rfl, h.request out⟩
  | kill process =>
    rcases Option.ne_none_iff_exists'.1 hC with ⟨p, hp⟩
    refine ⟨{ s with requests := s.requests + 1 }.finish s.requests
      (.call (.stop process p.containerId)), ?_, h.request _⟩
    simp only [System.step, HttpServer.kill, hp, List.map_nil, List.append_nil]
    rfl
  | reply k response =>
    cases hk : s.calls[k]? with
    | none => exact ⟨s, by simp only [System.step, hk], h⟩
    | some call =>
      rcases call with ⟨id, c⟩
      rcases hC (id, c) hk with ⟨r, rfl, hfits⟩
      rcases reply_ok h.tracked hfits with ⟨ps, out, hreply, htracked⟩
      exact ⟨_, by simp only [System.step, hk, hreply]; rfl, h.reply hk out htracked⟩

theorem step_breaks (h : Inv s) {e : Event} (hC : ¬ s.Regular opts e)
    (hstep : s.step opts e = .ok s') : ¬ s'.Tracked := by
  cases e with
  | create process body =>
    rcases Lts.bind_ok hstep with ⟨out, hout, -⟩
    exact absurd (create_regular hout) hC
  | kill process =>
    refine absurd (fun hnone : s.processes process = none => ?_) hC
    simp only [System.step, HttpServer.kill, hnone] at hstep
    cases hstep
  | reply k response =>
    simp only [System.Regular, not_forall] at hC
    rcases hC with ⟨⟨id, c⟩, hk, hfits⟩
    rw [Option.mem_def] at hk
    simp only [System.step, hk] at hstep
    rcases Lts.bind_ok hstep with ⟨⟨ps, out⟩, hreply, hs'⟩
    obtain rfl := Except.ok.inj hs'
    cases response with
    | none => cases hreply
    | some r =>
      have hnot : ¬ c.Fits opts s.processes r := fun hfit => hfits ⟨r, rfl, hfit⟩
      rw [finish_tracked]
      exact reply_breaks h.tracked hnot hreply

end Steps

/-- A run returns, with every callback called once and the table in step with the containers
after each of its steps, if and only if all of its steps are regular. -/
theorem serving_run (opts : Options) (es : List Event) :
    (∀ fs, fs <+: es → ∃ s, Lts.run (System.step opts) {} fs = .ok s ∧ s.Correct) ↔
      Lts.Meets (System.step opts) (System.Regular opts) {} es :=
  Lts.keeps_iff_meets (fun _ _ h hC => step_regular h hC) (fun _ h => correct_of_inv h)
    (fun _ _ _ h hC hstep hcorrect => step_breaks h hC hstep hcorrect.tracked) inv_init

def sampleOptions : Options := ⟨str ['h'], 8000⟩

/-- A process that is not there is killed: the table is empty, and the server goes down. -/
theorem serving_run_unknown :
    ¬ ∀ es, ∃ s, Lts.run (System.step sampleOptions) {} es = .ok s ∧ s.Correct := by
  intro h
  rcases h [.kill (str ['p'])] with ⟨s, hrun, -⟩
  cases hrun

/-- The replies to a request that creates a process, and to one that kills it. -/
def sampleEvents : List Event :=
  [.create (str ['p']) (some (.object [(text "container-name", .string (str ['i'])),
      (text "controlplane-address", .string (str ['a']))])),
    .reply 0 (some ⟨201, some (.object [(text "Id", .string (str ['c']))]), []⟩),
    .reply 0 (some ⟨204, none, []⟩),
    .reply 0 (some ⟨200, some (.object [(text "NetworkSettings", .object [(text "Ports",
      .object [(text "8000/tcp", .array [.object [(text "HostPort", .string (text "49153"))]])])])]),
      []⟩),
    .kill (str ['p']), .reply 0 (some ⟨204, none, []⟩)]

theorem serving_run_sample :
    ∃ s, Lts.run (System.step sampleOptions) {} sampleEvents = .ok s ∧ s.Correct :=
  (serving_run sampleOptions sampleEvents).2 (by decide +kernel) sampleEvents List.prefix_rfl

end Praas.Serving
