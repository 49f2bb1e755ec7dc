import Praas.Lib.Lists
import Praas.Process.StoreSeparation

/-! # The list of state keys

`_state_keys` mirrors the part of the map of a `MessageStore` that holds state values. Only
`state` maintains it; messages are inserted into and erased from the same map.

* `Indexed`: the list has the keys of the values that are stored, each once, in the order
  in which they were created, with the times of their last writes.
* `index_run_iff`: a run returns with this after each operation exactly if no GET takes a
  value and no state value is written over a message.
-/

namespace Praas.Process.StateKeys

open StoreSeparation (Op)

variable {β : Type}

/-! ## The store with its history -/

/-- What an entry was stored as. -/
inductive Kind where
  | message | state
deriving DecidableEq, Repr

/-- The store, what its entries were stored as, and the writes of state so far. -/
structure Journal (β : Type) where
  store : MessageStore β := .empty
  kinds : Str → Option Kind := fun _ => none
  writes : List (Str × ℕ) := []

def step (j : Journal β) : Op β → Except Fault (Journal β)
  | .inl (.put key source payload) =>
    .ok { j with
      store := (j.store.put key source payload).1
      kinds := if (j.store.put key source payload).2
        then Function.update j.kinds key (some .message) else j.kinds }
  | .inl (.tryGet key source) =>
    .ok { j with
      store := (j.store.tryGet key source).1
      kinds := if (j.store.tryGet key source).2.isSome
        then Function.update j.kinds key none else j.kinds }
  | .inr (.state key payload now) =>
    (j.store.state key payload now).map fun r =>
      { store := r.1
        kinds := Function.update j.kinds key (some .state)
        writes := j.writes ++ [(key, now)] }
  | .inr (.tryState _) => .ok j

/-- The time of the last write of a key. -/
def lastWrite (writes : List (Str × ℕ)) (key : Str) : Option ℕ :=
  ((writes.filter fun x => x.1 = key).getLast?).map (·.2)

/-- What `state_keys` is to return. -/
structure Indexed (j : Journal β) : Prop where
  /-- What is stored has a kind. -/
  stored : ∀ k, (j.store.msgs k).isSome ↔ (j.kinds k).isSome
  nodup : (j.store.stateKeys.map Prod.fst).Nodup
  keys : ∀ k, k ∈ j.store.stateKeys.map Prod.fst ↔ j.kinds k = some .state
  order : (j.store.stateKeys.map Prod.fst).Sublist (j.writes.map Prod.fst).eraseDups
  times : ∀ x ∈ j.store.stateKeys, lastWrite j.writes x.1 = some x.2

/-- A GET does not take a state value, and a state value is not written over a message. -/
def Kept (j : Journal β) : Op β → Prop
  | .inl (.tryGet key source) =>
    j.kinds key = some .state → source ≠ ANY_PROCESS ∧ source ≠ []
  | .inr (.state key _ _) => j.kinds key ≠ some .message
  | _ => True

instance (j : Journal β) : DecidablePred (Kept j)
  | .inl (.put ..) => isTrue trivial
  | .inl (.tryGet ..) => inferInstanceAs (Decidable (_ → _))
  | .inr (.state ..) => inferInstanceAs (Decidable (_ ≠ _))
  | .inr (.tryState _) => isTrue trivial

/-! ## The invariant -/

/-- As long as no value is taken, all keys that were ever written are on the list. -/
structure Inv (j : Journal β) : Prop where
  stored : ∀ k, (j.store.msgs k).isSome ↔ (j.kinds k).isSome
  /-- A state value has no source. -/
  source : ∀ k, j.kinds k = some .state → (j.store.msgs k).map (·.source) = some []
  written : ∀ k, j.kinds k = some .state ↔ k ∈ j.writes.map Prod.fst
  index : j.store.stateKeys.map Prod.fst = (j.writes.map Prod.fst).eraseDups
  times : ∀ x ∈ j.store.stateKeys, lastWrite j.writes x.1 = some x.2

section Writes

variable {writes : List (Str × ℕ)} {key : Str} {now : ℕ}

theorem lastWrite_self : lastWrite (writes ++ [(key, now)]) key = some now := by
  unfold lastWrite
  simp

theorem lastWrite_other {k : Str} (h : k ≠ key) :
    lastWrite (writes ++ [(key, now)]) k = lastWrite writes k := by
  unfold lastWrite
  simp [Ne.symm h]

/-- Writing the time of a key that is on the list changes its entry only. -/
theorem mem_touch {keys keys' : List (Str × ℕ)} (h : MessageStore.touch keys key now = some keys')
    (hnodup : (keys.map Prod.fst).Nodup) {x : Str × ℕ} (hx : x ∈ keys') :
    x = (key, now) ∨ x ∈ keys ∧ x.1 ≠ key := by
  induction keys generalizing keys' with
  | nil => cases h
  | cons y keys ih =>
    rcases y with ⟨k, time⟩
    rw [List.map_cons, List.nodup_cons] at hnodup
    unfold MessageStore.touch at h
    by_cases hk : k = key
    · rw [if_pos hk] at h
      rw [← Option.some.inj h] at hx
      rcases List.mem_cons.1 hx with rfl | hrest
      · exact .inl (by rw [hk])
      · refine .inr ⟨List.mem_cons_of_mem _ hrest, fun heq => hnodup.1 ?_⟩
        show k ∈ keys.map Prod.fst
        rw [hk, ← heq]
        exact List.mem_map_of_mem hrest
    · rw [if_neg hk] at h
      rcases Option.map_eq_some_iff.1 h with ⟨rest, hrest, rfl⟩
      rcases List.mem_cons.1 hx with rfl | hmem
      · exact .inr ⟨List.mem_cons_self, hk⟩
      · exact (ih hrest hnodup.2 hmem).imp_right fun hold => ⟨List.mem_cons_of_mem _ hold.1, hold.2⟩

end Writes

theorem inv_new : Inv ({} : Journal β) where
  stored k := by simp [MessageStore.empty]
  source k h := by cases h
  written k := by simp
  index := rfl
  times x hx := by cases hx

section Steps

variable {j j' : Journal β} {key source : Str}

theorem Inv.indexed (h : Inv j) : Indexed j where
  stored := h.stored
  nodup := by
    rw [h.index]
    exact Lists.nodup_eraseDups _
  keys k := by
    rw [h.index, List.mem_eraseDups, h.written]
  order := by
    rw [h.index]
  times := h.times

/-- The entry of a key that holds no state value changes. -/
theorem Inv.setMessage (h : Inv j) (hkey : j.kinds key ≠ some .state)
    (m : Option (MessageStore.Message β)) :
    Inv { j with
      store := { j.store with msgs := Function.update j.store.msgs key m }
      kinds := Function.update j.kinds key (m.map fun _ => .message) } := by
  have hkind : ∀ k, Function.update j.kinds key (m.map fun _ => Kind.message) k = some .state ↔
      j.kinds k = some .state := by
    intro k
    rcases eq_or_ne k key with rfl | hne
    · cases m <;> simp [hkey]
    · rw [Function.update_of_ne hne]
  constructor
  case stored =>
    intro k
    rcases eq_or_ne k key with rfl | hne
    · simp
    · simpa [hne] using h.stored k
  case source =>
    intro k hk
    have hold := (hkind k).1 hk
    have hne : k ≠ key := fun heq => hkey (heq ▸ hold)
    simpa [hne] using h.source k hold
  case written => exact fun k => (hkind k).trans (h.written k)
  case index => exact h.index
  case times => exact h.times

/-- A message that is put under a key that is free leaves the state values alone. -/
theorem inv_put (h : Inv j) (payload : β) :
    Inv { j with
      store := (j.store.put key source payload).1
      kinds := if (j.store.put key source payload).2
        then Function.update j.kinds key (some .message) else j.kinds } := by
  cases hkey : j.store.msgs key with
  | some m =>
    have hsame : j.store.put key source payload = (j.store, false) := by
      simp [MessageStore.put, hkey]
    rw [hsame]
    exact h
  | none =>
    have hput : j.store.put key source payload =
        ({ j.store with msgs := Function.update j.store.msgs key (some ⟨source, payload⟩) },
          true) := by
      simp [MessageStore.put, hkey]
    have hfree : j.kinds key ≠ some .state := by
      intro hstate
      have hsome := (h.stored key).2 (by simp [hstate])
      simp [hkey] at hsome
    rw [hput]
    exact h.setMessage hfree _

/-- What a GET takes. -/
theorem tryGet_cases (s : MessageStore β) (key source : Str) :
    s.tryGet key source = (s, none) ∨ ∃ m, s.msgs key = some m ∧
      (source = ANY_PROCESS ∨ m.source = source) ∧ s.tryGet key source =
        ({ s with msgs := Function.update s.msgs key none }, some m.data) := by
  unfold MessageStore.tryGet
  cases s.msgs key with
  | none => exact .inl rfl
  | some m =>
    dsimp only
    by_cases hother : source ≠ ANY_PROCESS ∧ m.source ≠ source
    · rw [if_pos hother]
      exact .inl rfl
    · rw [if_neg hother]
      refine .inr ⟨m, rfl, ?_, rfl⟩
      tauto

theorem inv_tryGet (h : Inv j)
    (hkept : j.kinds key = some .state → source ≠ ANY_PROCESS ∧ source ≠ []) :
    Inv { j with
      store := (j.store.tryGet key source).1
      kinds := if (j.store.tryGet key source).2.isSome
        then Function.update j.kinds key none else j.kinds } := by
  rcases tryGet_cases j.store key source with hsame | ⟨m, hkey, hsource, htake⟩
  · rw [hsame]
    exact h
  · -- what is taken is a message
    have hmessage : j.kinds key ≠ some .state := by
      intro hstate
      have hempty := h.source key hstate
      rw [hkey] at hempty
      rcases hsource with hany | heq
      · exact (hkept hstate).1 hany
      · exact (hkept hstate).2 (heq.symm.trans (Option.some.inj hempty))
    rw [htake]
    exact h.setMessage hmessage none

/-- A state value that is written: a new one joins the list, and of an old one the time is
written. -/
theorem state_ok (h : Inv j) (hkept : j.kinds key ≠ some .message) (payload : β) (now : ℕ) :
    ∃ keys, j.store.state key payload now =
        .ok (⟨Function.update j.store.msgs key (some ⟨[], payload⟩), keys⟩, true) ∧
      keys.map Prod.fst = ((j.writes ++ [(key, now)]).map Prod.fst).eraseDups ∧
      ∀ x ∈ keys, x = (key, now) ∨ x ∈ j.store.stateKeys ∧ x.1 ≠ key := by
  have hsnoc : ((j.writes ++ [(key, now)]).map Prod.fst).eraseDups =
      if key ∈ j.writes.map Prod.fst then (j.writes.map Prod.fst).eraseDups
      else (j.writes.map Prod.fst).eraseDups ++ [key] := by
    rw [List.map_append]
    exact Lists.eraseDups_snoc _ key
  rw [hsnoc]
  unfold MessageStore.state
  cases hkey : j.store.msgs key with
  | none =>
    have hnew : key ∉ j.writes.map Prod.fst := by
      intro hwritten
      have hsome := (h.stored key).2 (by simp [(h.written key).2 hwritten])
      simp [hkey] at hsome
    refine ⟨_, rfl, ?_, ?_⟩
    · rw [if_neg hnew, List.map_append, h.index]
      rfl
    · intro x hx
      rcases List.mem_append.1 hx with hold | hlast
      · refine .inr ⟨hold, fun heq => hnew ?_⟩
        rw [← List.mem_eraseDups, ← h.index, ← heq]
        exact List.mem_map_of_mem hold
      · exact .inl (List.mem_singleton.1 hlast)
  | some m =>
    have hstate : j.kinds key = some .state := by
      have hsome := (h.stored key).1 (by simp [hkey])
      rcases Option.isSome_iff_exists.1 hsome with ⟨kind, hkind⟩
      cases kind with
      | message => exact absurd hkind hkept
      | state => exact hkind
    have hold : key ∈ j.writes.map Prod.fst := (h.written key).1 hstate
    have hlisted : key ∈ j.store.stateKeys.map Prod.fst := by
      rw [h.index, List.mem_eraseDups]
      exact hold
    rcases StoreSeparation.touch_of_mem now hlisted with ⟨keys, htouch, hkeys⟩
    dsimp only
    rw [htouch]
    refine ⟨keys, rfl, ?_, fun x hx => mem_touch htouch h.indexed.nodup hx⟩
    rw [if_pos hold, hkeys, h.index]

theorem inv_state (h : Inv j) (hkept : j.kinds key ≠ some .message) (payload : β) (now : ℕ) :
    ∃ j', step j (.inr (.state key payload now)) = .ok j' ∧ Inv j' := by
  rcases state_ok h hkept payload now with ⟨keys, hstate, hindex, hmem⟩
  refine ⟨_, by rw [step, hstate]; rfl, ?_⟩
  constructor
  case stored =>
    intro k
    rcases eq_or_ne k key with rfl | hne
    · simp
    · simpa [hne] using h.stored k
  case source =>
    intro k hk
    rcases eq_or_ne k key with rfl | hne
    · simp
    · simp only [Function.update_of_ne hne] at hk ⊢
      exact h.source k hk
  case written =>
    intro k
    rcases eq_or_ne k key with rfl | hne
    · simp
    · simpa [hne] using h.written k
  case index => exact hindex
  case times =>
    intro x hx
    rcases hmem x hx with rfl | ⟨hold, hne⟩
    · exact lastWrite_self
    · rw [lastWrite_other hne]
      exact h.times x hold

/-- A step that keeps to the condition returns. -/
theorem inv_step (e : Op β) (h : Inv j) (hkept : Kept j e) : ∃ j', step j e = .ok j' ∧ Inv j' := by
  rcases e with mail | state
  · cases mail with
    | put key source payload => exact ⟨_, rfl, inv_put h payload⟩
    | tryGet key source => exact ⟨_, rfl, inv_tryGet h hkept⟩
  · cases state with
    | state key payload now => exact inv_state h hkept payload now
    | tryState key => exact ⟨j, rfl, h⟩

/-- A value that a GET takes stays on the list; a value cannot be written over a message. -/
theorem broken_step (e : Op β) (h : Inv j) (hkept : ¬ Kept j e) (hstep : step j e = .ok j') :
    ¬ Indexed j' := by
  intro hindexed
  rcases e with mail | state
  · cases mail with
    | put key source payload => exact hkept trivial
    | tryGet key source =>
      unfold Kept at hkept
      push Not at hkept
      rcases hkept with ⟨hstate, hsource⟩
      have hlisted : key ∈ j.store.stateKeys.map Prod.fst := (h.indexed.keys key).2 hstate
      rcases Option.map_eq_some_iff.1 (h.source key hstate) with ⟨m, hm, hempty⟩
      rcases tryGet_cases j.store key source with hsame | ⟨m', -, -, htake⟩
      · -- an entry without a source passes the check
        have hfound : (j.store.tryGet key source).2 = some m.data := by
          unfold MessageStore.tryGet
          rw [hm]
          dsimp only
          rw [if_neg]
          rintro ⟨hany, hne⟩
          exact hne (hempty.trans (hsource hany).symm)
        rw [hsame] at hfound
        cases hfound
      · have hgone := (hindexed.keys key).1 (by
          rw [← Except.ok.inj hstep, htake]
          exact hlisted)
        rw [← Except.ok.inj hstep, htake] at hgone
        simp at hgone
  · cases state with
    | state key payload now =>
      have hmessage : j.kinds key = some .message := not_not.1 hkept
      rcases Option.isSome_iff_exists.1 ((h.stored key).2 (by simp [hmessage])) with ⟨m, hm⟩
      have hunlisted : key ∉ j.store.stateKeys.map Prod.fst := by
        intro hlisted
        have hstate := (h.indexed.keys key).1 hlisted
        rw [hmessage] at hstate
        cases hstate
      simp [step, MessageStore.state, hm, StoreSeparation.touch_of_not_mem now hunlisted,
        Except.map] at hstep
    | tryState key => exact hkept trivial

/-- For every run of the operations of the store: after each operation it has returned, and the
list of keys is that of the state values stored, if and only if no GET takes a state value and
no state value is written over a message. -/
theorem index_run_iff (es : List (Op β)) :
    (∀ es', es' <+: es → ∃ j, Lts.run step {} es' = .ok j ∧ Indexed j) ↔
      Lts.Meets step Kept {} es :=
  Lts.keeps_iff_meets (fun _ e => inv_step e) (fun _ => Inv.indexed)
    (fun _ e _ h hkept hstep => broken_step e h hkept hstep) inv_new

end Steps

/-- A message is stored under a key, and a state value is written over it. -/
def messageThenState : List (Op ℕ) :=
  [.inl (.put (str ['k']) (str ['p']) 1), .inr (.state (str ['k']) 2 0)]

/-- A state value is taken by a GET from any process. -/
def stateThenGet : List (Op ℕ) :=
  [.inr (.state (str ['k']) 2 0), .inl (.tryGet (str ['k']) ANY_PROCESS)]

/-- The search for the key ends at no entry; the list has a key that holds nothing. -/
theorem index_broken :
    Lts.run step ({} : Journal ℕ) messageThenState = .error .danglingIterator ∧
      ∃ j, Lts.run step ({} : Journal ℕ) stateThenGet = .ok j ∧
        j.store.stateKeys = [(str ['k'], 0)] ∧ (j.store.msgs (str ['k'])).isNone ∧ ¬ Indexed j := by
  refine ⟨rfl, _, rfl, rfl, rfl, fun h => ?_⟩
  have hstored := (h.keys (str ['k'])).1 (by decide)
  exact absurd hstored (by decide)

end Praas.Process.StateKeys
