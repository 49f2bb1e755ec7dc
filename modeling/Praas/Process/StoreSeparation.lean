import Praas.Lib.Lts
import Praas.Lib.Interleave
import Praas.Process.Messages

/-! # State and messages in one store

`MessageStore` keeps messages and state values in one map. A run is compared
with two stores of their own, one for messages and one for values, served side
by side:
* `serve_apart` — while no operation meets a key of the other kind, the store
  represents the two and gives their answers;
* `serve_clash` — an operation that meets one raises or answers differently;
* `state_and_messages_apart` — so a run does not interfere exactly when no
  operation of it meets a key of the other kind.
-/

namespace Praas.Process.StoreSeparation

open Interleave

variable {β : Type}

/-! ## The operations of the store -/

inductive MailOp (β : Type) where
  | put (key source : Str) (payload : β)
  | tryGet (key source : Str)

inductive MailAnswer (β : Type) where
  | stored (success : Bool)
  | got (payload : Option β)
deriving DecidableEq

inductive StateOp (β : Type) where
  | state (key : Str) (payload : β) (now : ℕ)
  | tryState (key : Str)

inductive StateAnswer (β : Type) where
  | written (success : Bool)
  | value (payload : Option β)
deriving DecidableEq

abbrev Op (β : Type) := MailOp β ⊕ StateOp β

abbrev Answer (β : Type) := MailAnswer β ⊕ StateAnswer β

def serve (s : MessageStore β) : Op β → Except Fault (MessageStore β × Answer β)
  | .inl (.put key source payload) =>
    .ok ((s.put key source payload).1, .inl (.stored (s.put key source payload).2))
  | .inl (.tryGet key source) =>
    .ok ((s.tryGet key source).1, .inl (.got (s.tryGet key source).2))
  | .inr (.state key payload now) =>
    (s.state key payload now).map fun r => (r.1, .inr (.written r.2))
  | .inr (.tryState key) => .ok (s, .inr (.value (s.tryState key)))

/-- The answers of a run. -/
def serveAll : MessageStore β → List (Op β) → Except Fault (List (Answer β))
  | _, [] => .ok []
  | s, e :: es => do
    let r ← serve s e
    let answers ← serveAll r.1 es
    return r.2 :: answers

/-- The answers to puts and gets in a run that starts with an empty store. -/
def mailAnswers (es : List (Op β)) : Except Fault (List (MailAnswer β)) :=
  (serveAll .empty es).map lefts

def stateAnswers (es : List (Op β)) : Except Fault (List (StateAnswer β)) :=
  (serveAll .empty es).map rights

/-! ## Two stores of their own -/

abbrev Mailbox (β : Type) := Str → Option (MessageStore.Message β)

def putMail (m : Mailbox β) (key source : Str) (payload : β) : Mailbox β × Bool :=
  if (m key).isSome then (m, false)
  else (Function.update m key (some ⟨source, payload⟩), true)

def getMail (m : Mailbox β) (key source : Str) : Mailbox β × Option β :=
  if ∃ x ∈ m key, source = ANY_PROCESS ∨ x.source = source then
    (Function.update m key none, (m key).map (·.data))
  else (m, none)

/-- A mailbox alone. -/
def mail : Machine (Mailbox β) (MailOp β) (MailAnswer β) where
  step m
    | .put key source payload =>
      ((putMail m key source payload).1, .stored (putMail m key source payload).2)
    | .tryGet key source => ((getMail m key source).1, .got (getMail m key source).2)

/-- A table of values alone. -/
def values : Machine (Str → Option β) (StateOp β) (StateAnswer β) where
  step v
    | .state key payload _ => (Function.update v key (some payload), .written true)
    | .tryState key => (v, .value (v key))

/-! ## When an operation meets the other kind -/

/-- The key holds a value. -/
def HoldsState (s : MessageStore β) (key : Str) : Prop := key ∈ s.stateKeys.map (·.1)

/-- The key holds a message. -/
def HoldsMessage (s : MessageStore β) (key : Str) : Prop :=
  (s.msgs key).isSome ∧ ¬ HoldsState s key

instance (s : MessageStore β) (key : Str) : Decidable (HoldsState s key) :=
  inferInstanceAs (Decidable (_ ∈ _))

instance (s : MessageStore β) (key : Str) : Decidable (HoldsMessage s key) :=
  inferInstanceAs (Decidable (_ ∧ _))

/-- The operation does not meet a key of the other kind. A GET that names a
process other than the empty one passes a value by. -/
def NoClash (s : MessageStore β) : Op β → Prop
  | .inl (.put key _ _) => ¬ HoldsState s key
  | .inl (.tryGet key source) => HoldsState s key → source ≠ ANY_PROCESS ∧ source ≠ []
  | .inr (.state key _ _) => ¬ HoldsMessage s key
  | .inr (.tryState key) => ¬ HoldsMessage s key

/-- The store after an operation, without the answer. -/
def next (s : MessageStore β) (e : Op β) : Except Fault (MessageStore β) :=
  (serve s e).map (·.1)

/-- No operation of the run meets a key of the other kind. -/
def Separated (es : List (Op β)) : Prop := Lts.Meets next NoClash MessageStore.empty es

/-! ## The store represents the two -/

abbrev Tables (β : Type) := Mailbox β × (Str → Option β)

/-- The store holds the messages of the mailbox and, under the empty source, the
values of the table, and its list of keys is the list of keys of values. -/
structure Rep (s : MessageStore β) (p : Tables β) : Prop where
  msgs : ∀ k, s.msgs k = (p.1 k).or ((p.2 k).map fun v => ⟨[], v⟩)
  keys : ∀ k, HoldsState s k ↔ (p.2 k).isSome
  apart : ∀ k, (p.1 k).isSome → p.2 k = none

theorem rep_empty : Rep (.empty : MessageStore β) (fun _ => none, fun _ => none) where
  msgs _ := rfl
  keys _ := by simp [HoldsState, MessageStore.empty]
  apart _ _ := rfl

variable {s : MessageStore β} {p : Tables β}

theorem Rep.no_state (h : Rep s p) {k : Str} : ¬ HoldsState s k ↔ p.2 k = none := by
  rw [h.keys, Option.not_isSome_iff_eq_none]

theorem Rep.holdsMessage (h : Rep s p) (k : Str) : HoldsMessage s k ↔ (p.1 k).isSome := by
  unfold HoldsMessage
  rw [h.msgs, h.no_state]
  constructor
  · rintro ⟨hsome, hnone⟩
    simpa [hnone] using hsome
  · intro hm
    exact ⟨by simp [hm], h.apart k hm⟩

/-- Writing the time of a key finds it if it is there, and keeps the keys. -/
theorem touch_of_mem {keys : List (Str × ℕ)} {k : Str} (now : ℕ)
    (hk : k ∈ keys.map (·.1)) :
    ∃ keys', MessageStore.touch keys k now = some keys' ∧
      keys'.map (·.1) = keys.map (·.1) := by
  induction keys with
  | nil => cases hk
  | cons x keys ih =>
    rcases x with ⟨k', time⟩
    by_cases h : k' = k
    · exact ⟨(k', now) :: keys, by simp [MessageStore.touch, h], rfl⟩
    · have hmem : k ∈ keys.map (·.1) := by
        rcases List.mem_cons.1 hk with rfl | hmem
        · exact absurd rfl h
        · exact hmem
      rcases ih hmem with ⟨keys', htouch, hkeys⟩
      exact ⟨(k', time) :: keys', by simp [MessageStore.touch, h, htouch], by simp [hkeys]⟩

theorem touch_of_not_mem {keys : List (Str × ℕ)} {k : Str} (now : ℕ)
    (hk : k ∉ keys.map (·.1)) : MessageStore.touch keys k now = none := by
  induction keys with
  | nil => rfl
  | cons x keys ih =>
    rcases x with ⟨k', time⟩
    have hne : k' ≠ k := fun h => hk (by simp [h])
    have hrest : k ∉ keys.map (·.1) := fun h => hk (List.mem_cons_of_mem _ h)
    simp [MessageStore.touch, hne, ih hrest]

/-! ### Operations that do not meet the other kind -/

variable {key source : Str}

theorem put_apart (source : Str) (payload : β) (h : Rep s p) (hc : ¬ HoldsState s key) :
    (s.put key source payload).2 = (putMail p.1 key source payload).2 ∧
      Rep (s.put key source payload).1 ((putMail p.1 key source payload).1, p.2) := by
  have hv : p.2 key = none := h.no_state.1 hc
  have hmsg : s.msgs key = p.1 key := by simp [h.msgs, hv]
  unfold MessageStore.put putMail
  rw [hmsg]
  cases hm : p.1 key with
  | some m => exact ⟨rfl, h⟩
  | none =>
    refine ⟨rfl, ?_, h.keys, ?_⟩
    · intro k
      rcases eq_or_ne k key with rfl | hne
      · simp
      · simpa [hne] using h.msgs k
    · intro k hk
      rcases eq_or_ne k key with rfl | hne
      · exact hv
      · exact h.apart k (by simpa [hne] using hk)

/-- Taking a message out on both sides. -/
theorem rep_remove (h : Rep s p) (hv : p.2 key = none) :
    Rep { s with msgs := Function.update s.msgs key none }
      (Function.update p.1 key none, p.2) where
  msgs k := by
    rcases eq_or_ne k key with rfl | hne
    · simp [hv]
    · simpa [hne] using h.msgs k
  keys := h.keys
  apart k hk := by
    rcases eq_or_ne k key with rfl | hne
    · exact hv
    · exact h.apart k (by simpa [hne] using hk)

theorem tryGet_apart (h : Rep s p)
    (hc : HoldsState s key → source ≠ ANY_PROCESS ∧ source ≠ []) :
    (s.tryGet key source).2 = (getMail p.1 key source).2 ∧
      Rep (s.tryGet key source).1 ((getMail p.1 key source).1, p.2) := by
  unfold MessageStore.tryGet getMail
  rw [h.msgs]
  cases hm : p.1 key with
  | some m =>
    have hv : p.2 key = none := h.apart key (by simp [hm])
    by_cases hsrc : source = ANY_PROCESS ∨ m.source = source
    · have hno : ¬ (source ≠ ANY_PROCESS ∧ m.source ≠ source) := by tauto
      simpa [hno, hsrc] using rep_remove h hv
    · have hyes : source ≠ ANY_PROCESS ∧ m.source ≠ source := by tauto
      simpa [hyes] using h
  | none =>
    cases hv : p.2 key with
    | none => simpa using h
    | some v =>
      -- a value is kept from a GET by its empty source
      have hsrc := hc ((h.keys key).2 (by simp [hv]))
      simpa [hsrc, hsrc.2.symm] using h

theorem state_apart (payload : β) (now : ℕ) (h : Rep s p) (hc : ¬ HoldsMessage s key) :
    ∃ s', s.state key payload now = .ok (s', true) ∧
      Rep s' (p.1, Function.update p.2 key (some payload)) := by
  have hmail : p.1 key = none := by
    rw [h.holdsMessage] at hc
    exact Option.not_isSome_iff_eq_none.1 hc
  -- whatever the order of the keys, as long as `key` is among them
  have hrep : ∀ keys : List (Str × ℕ),
      (∀ k, k ∈ keys.map (·.1) ↔ k = key ∨ HoldsState s k) →
      Rep ⟨Function.update s.msgs key (some ⟨[], payload⟩), keys⟩
        (p.1, Function.update p.2 key (some payload)) := by
    intro keys hkeys
    refine ⟨fun k => ?_, fun k => ?_, fun k hk => ?_⟩
    · rcases eq_or_ne k key with rfl | hne
      · simp [hmail]
      · simpa [hne] using h.msgs k
    · refine (hkeys k).trans ?_
      rcases eq_or_ne k key with rfl | hne
      · simp
      · simpa [hne] using h.keys k
    · have hne : k ≠ key := by
        rintro rfl
        simp [hmail] at hk
      simpa [hne] using h.apart k hk
  unfold MessageStore.state
  rw [h.msgs, hmail]
  cases hv : p.2 key with
  | none => exact ⟨_, rfl, hrep _ fun k => by simp [HoldsState, or_comm, eq_comm]⟩
  | some v =>
    have hmem : key ∈ s.stateKeys.map (·.1) := (h.keys key).2 (by simp [hv])
    rcases touch_of_mem now hmem with ⟨keys, htouch, hkeys⟩
    refine ⟨⟨_, keys⟩, by simp [htouch], hrep keys fun k => ?_⟩
    rw [hkeys]
    constructor
    · exact Or.inr
    · rintro (rfl | hk)
      · exact hmem
      · exact hk

theorem tryState_apart (h : Rep s p) (hc : ¬ HoldsMessage s key) :
    s.tryState key = p.2 key := by
  have hmail : p.1 key = none := by
    rw [h.holdsMessage] at hc
    exact Option.not_isSome_iff_eq_none.1 hc
  simp [MessageStore.tryState, h.msgs, hmail, Function.comp_def]

/-- An operation that does not meet a key of the other kind is answered as the
two tables answer it. -/
theorem serve_apart {e : Op β} (h : Rep s p) (hc : NoClash s e) :
    ∃ s', serve s e = .ok (s', ((both mail values).step p e).2) ∧
      Rep s' ((both mail values).step p e).1 := by
  rcases e with (⟨key, source, payload⟩ | ⟨key, source⟩) | (⟨key, payload, now⟩ | ⟨key⟩)
  · rcases put_apart source payload h hc with ⟨ha, hrep⟩
    exact ⟨_, by simp [serve, both, mail, ha], hrep⟩
  · rcases tryGet_apart h hc with ⟨ha, hrep⟩
    exact ⟨_, by simp [serve, both, mail, ha], hrep⟩
  · rcases state_apart payload now h hc with ⟨s', hs, hrep⟩
    exact ⟨s', by simp [serve, hs, both, values, Except.map], hrep⟩
  · have ha := tryState_apart h hc
    exact ⟨s, by simp [serve, both, values, ha], h⟩

/-! ### Operations that meet the other kind -/

/-- An operation that meets a key of the other kind raises, or its answer is not
the answer of the two tables. -/
theorem serve_clash {e : Op β} (h : Rep s p) (hc : ¬ NoClash s e) (s' : MessageStore β) :
    serve s e ≠ .ok (s', ((both mail values).step p e).2) := by
  intro hok
  rcases e with (⟨key, source, payload⟩ | ⟨key, source⟩) | (⟨key, payload, now⟩ | ⟨key⟩)
  · -- the value is in the way of the message
    rcases Option.isSome_iff_exists.1 ((h.keys key).1 (not_not.1 hc)) with ⟨v, hv⟩
    have hmail : p.1 key = none := by
      by_contra hne
      simp [h.apart key (Option.isSome_iff_ne_none.2 hne)] at hv
    simp [serve, both, mail, MessageStore.put, putMail, h.msgs, hv, hmail] at hok
  · -- the GET takes the value
    have hgot : HoldsState s key ∧ (source = ANY_PROCESS ∨ source = []) := by
      unfold NoClash at hc
      tauto
    rcases Option.isSome_iff_exists.1 ((h.keys key).1 hgot.1) with ⟨v, hv⟩
    have hmail : p.1 key = none := by
      by_contra hne
      simp [h.apart key (Option.isSome_iff_ne_none.2 hne)] at hv
    rcases hgot.2 with rfl | rfl
    · simp [serve, both, mail, MessageStore.tryGet, getMail, h.msgs, hv, hmail] at hok
    · simp [serve, both, mail, MessageStore.tryGet, getMail, h.msgs, hv, hmail] at hok
  · -- the list of keys has no entry of the key
    have hheld : HoldsMessage s key := not_not.1 hc
    have htouch := touch_of_not_mem now hheld.2
    rcases Option.isSome_iff_exists.1 hheld.1 with ⟨m, hm⟩
    simp [serve, MessageStore.state, hm, htouch, Except.map] at hok
  · -- the message is read
    have hheld : HoldsMessage s key := not_not.1 hc
    rcases Option.isSome_iff_exists.1 ((h.holdsMessage key).1 hheld) with ⟨m, hm⟩
    have hv : p.2 key = none := h.apart key (by simp [hm])
    simp [serve, both, values, MessageStore.tryState, h.msgs, hm, hv] at hok

/-! ## Runs -/

theorem serveAll_cons {e : Op β} {es : List (Op β)} {as : List (Answer β)} :
    serveAll s (e :: es) = .ok as ↔
      ∃ s' a as', serve s e = .ok (s', a) ∧ serveAll s' es = .ok as' ∧ as = a :: as' := by
  constructor
  · intro h
    rcases Lts.bind_ok h with ⟨r, hr, h⟩
    rcases Lts.bind_ok h with ⟨as', has, h⟩
    exact ⟨r.1, r.2, as', hr, has, (Except.ok.inj h).symm⟩
  · rintro ⟨s', a, as', hs, has, rfl⟩
    show (serve s e >>= _) = _
    rw [hs]
    show (serveAll s' es >>= _) = _
    rw [has]
    rfl

theorem next_of_serve {e : Op β} {s' : MessageStore β} {a : Answer β}
    (h : serve s e = .ok (s', a)) : next s e = .ok s' := by
  unfold next
  rw [h]
  rfl

/-- The answers of a run are those of the two tables exactly when no operation of
the run meets a key of the other kind. -/
theorem serveAll_eq_iff {es : List (Op β)} (h : Rep s p) :
    serveAll s es = .ok ((both mail values).answers p es) ↔ Lts.Meets next NoClash s es := by
  induction es generalizing s p with
  | nil => exact iff_of_true rfl trivial
  | cons e es ih =>
    constructor
    · intro hall
      rcases serveAll_cons.1 hall with ⟨s', a, as, hs, has, heq⟩
      rcases List.cons.inj heq with ⟨rfl, rfl⟩
      have hc : NoClash s e := by
        by_contra hc
        exact serve_clash h hc s' hs
      rcases serve_apart h hc with ⟨s'', hs'', hrep⟩
      obtain rfl : s' = s'' := by simpa [hs] using hs''
      refine ⟨hc, fun t ht => ?_⟩
      obtain rfl : s' = t := by simpa [next_of_serve hs] using ht
      exact (ih hrep).1 has
    · rintro ⟨hc, hrest⟩
      rcases serve_apart h hc with ⟨s', hs, hrep⟩
      have has := (ih hrep).2 (hrest s' (next_of_serve hs))
      exact serveAll_cons.2 ⟨s', _, _, hs, has, rfl⟩

/-- Each answer is of the kind of its operation. -/
theorem serveAll_kinds {es : List (Op β)} {as : List (Answer β)}
    (h : serveAll s es = .ok as) : as.map Sum.isLeft = es.map Sum.isLeft := by
  induction es generalizing s as with
  | nil =>
    obtain rfl : [] = as := Except.ok.inj h
    rfl
  | cons e es ih =>
    rcases serveAll_cons.1 h with ⟨s', a, as', hs, has, rfl⟩
    have hkind : a.isLeft = e.isLeft := by
      rcases e with (_ | _) | (⟨key, payload, now⟩ | _)
      · cases hs; rfl
      · cases hs; rfl
      · unfold serve at hs
        cases hstate : s.state key payload now with
        | error x => simp [hstate, Except.map] at hs
        | ok r =>
          simp only [hstate, Except.map, Except.ok.injEq, Prod.mk.injEq] at hs
          simp [← hs.2]
      · cases hs; rfl
    simp [hkind, ih has]

/-- Puts and gets alone meet no value. -/
theorem separated_mail (ms : List (MailOp β)) (h : s.stateKeys = []) :
    Lts.Meets next NoClash s (ms.map .inl) := by
  induction ms generalizing s with
  | nil => trivial
  | cons m ms ih =>
    have hno : ∀ k, ¬ HoldsState s k := by simp [HoldsState, h]
    rcases m with ⟨key, source, payload⟩ | ⟨key, source⟩
    · refine ⟨hno key, fun s' hs => ih ?_⟩
      obtain rfl : (s.put key source payload).1 = s' := by simpa [next, serve, Except.map] using hs
      unfold MessageStore.put
      cases s.msgs key <;> exact h
    · refine ⟨fun hk => absurd hk (hno key), fun s' hs => ih ?_⟩
      obtain rfl : (s.tryGet key source).1 = s' := by simpa [next, serve, Except.map] using hs
      unfold MessageStore.tryGet
      cases s.msgs key with
      | none => exact h
      | some m =>
        show (if _ then _ else _ : MessageStore β × Option β).1.stateKeys = []
        split <;> exact h

/-- State operations alone meet no message. -/
theorem separated_state (vs : List (StateOp β)) {v : Str → Option β}
    (h : Rep s (fun _ => none, v)) : Lts.Meets next NoClash s (vs.map .inr) := by
  induction vs generalizing s v with
  | nil => trivial
  | cons e vs ih =>
    have hc : NoClash s (.inr e) := by
      cases e with
      | state key payload now => simp [NoClash, h.holdsMessage]
      | tryState key => simp [NoClash, h.holdsMessage]
    rcases serve_apart h hc with ⟨s', hs, hrep⟩
    refine ⟨hc, fun t ht => ?_⟩
    obtain rfl : s' = t := by simpa [next_of_serve hs] using ht
    exact ih hrep

/-! ## State and messages do not interfere -/

theorem separated_iff {es : List (Op β)} :
    Separated es ↔ serveAll .empty es =
      .ok ((both mail values).answers (fun _ => none, fun _ => none) es) :=
  (serveAll_eq_iff rep_empty).symm

theorem stateAnswers_eq {es : List (Op β)} (h : Separated es) :
    stateAnswers es = .ok (values.answers (fun _ => none) (rights es)) := by
  unfold stateAnswers
  rw [separated_iff.1 h]
  exact congrArg Except.ok (answers_right mail values _ es)

theorem mailAnswers_eq {es : List (Op β)} (h : Separated es) :
    mailAnswers es = .ok (mail.answers (fun _ => none) (lefts es)) := by
  unfold mailAnswers
  rw [separated_iff.1 h]
  exact congrArg Except.ok (answers_left mail values _ es)

/-- A run is without interference, in either direction and against every other
run that is so, exactly when none of its operations meets a key of the other
kind. -/
theorem state_and_messages_apart (es : List (Op β)) :
    (∀ fs, Separated fs →
      (rights fs = rights es → stateAnswers fs = stateAnswers es) ∧
      (lefts fs = lefts es → mailAnswers fs = mailAnswers es)) ↔ Separated es := by
  constructor
  · intro h
    -- the run's own operations of one kind, alone, are a run to compare it with
    have hstate := (h _ (separated_state (rights es) rep_empty)).1 (by simp)
    have hmail := (h _ (separated_mail (lefts es) rfl)).2 (by simp)
    rw [stateAnswers_eq (separated_state (rights es) rep_empty), rights_map_inr] at hstate
    rw [mailAnswers_eq (separated_mail (lefts es) rfl), lefts_map_inl] at hmail
    cases has : serveAll .empty es with
    | error x => simp [stateAnswers, has, Except.map] at hstate
    | ok as =>
      have hr : values.answers (fun _ => none) (rights es) = rights as := by
        simpa [stateAnswers, has, Except.map] using hstate
      have hl : mail.answers (fun _ => none) (lefts es) = lefts as := by
        simpa [mailAnswers, has, Except.map] using hmail
      rw [separated_iff, has]
      refine congrArg Except.ok (ext_of_kinds ?_ ?_ ?_)
      · rw [serveAll_kinds has, answers_kinds]
      · rw [answers_left, hl]
      · rw [answers_right, hr]
  · intro h fs hfs
    constructor
    · intro heq
      rw [stateAnswers_eq hfs, stateAnswers_eq h, heq]
    · intro heq
      rw [mailAnswers_eq hfs, mailAnswers_eq h, heq]

/-- A GET from ANY consumes the state that was written under its name, so a later
read of that state finds none. -/
theorem get_consumes_state :
    let k := str ['k']
    let write : Op ℕ := .inr (.state k 7 0)
    let read : Op ℕ := .inr (.tryState k)
    let get : Op ℕ := .inl (.tryGet k ANY_PROCESS)
    rights [write, get, read] = rights [write, read] ∧
      stateAnswers [write, get, read] ≠ stateAnswers [write, read] := by
  intro k write read get
  refine ⟨rfl, ?_⟩
  have hconsumed : stateAnswers [write, get, read] = .ok [.written true, .value none] := rfl
  have hkept : stateAnswers [write, read] = .ok [.written true, .value (some 7)] := rfl
  rw [hconsumed, hkept]
  simp

end Praas.Process.StoreSeparation
