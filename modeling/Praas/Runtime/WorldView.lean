import Praas.Runtime.Updates

/-! # Active and swapped processes

The view that a controller and its workers have of the processes of their application: two
lists, to which they apply the updates of the control plane. A process that is active once
more is added to the one list and not taken from the other, one that is swapped moves only
if it was active.

* `count_known_applyAll`: an update to `ACTIVE` adds one entry for its process, any other
  update none.
* `mem_listed_applyAll`: a process that has an entry has one where its last update puts it.
* `world_view_iff`: the view is what the updates say if and only if each process that they
  name becomes active exactly once.
* `controller_view`, `worker_view`: the same for the views of the system.
-/

namespace Praas.Common

namespace Application

/-- The updates are applied one after another. -/
def applyAll (a : Application) (us : List ApplicationUpdate) : Application :=
  us.foldl (fun a u => a.update u.status u.processId) a

/-- The entries of both lists. -/
def known (a : Application) : List Str := a.activeProcesses ++ a.swappedProcesses

/-- The list that a status is for. -/
def listed (a : Application) (status : Status) : List Str :=
  if status = Status.ACTIVE then a.activeProcesses else a.swappedProcesses

end Application

def lastUpdate (us : List ApplicationUpdate) (p : Str) : Option ApplicationUpdate :=
  (us.filter fun u => u.processId = p).getLast?

/-- How often the updates make a process active. -/
def activations (us : List ApplicationUpdate) (p : Str) : ℕ :=
  us.countP fun u => u.status = Status.ACTIVE ∧ u.processId = p

/-- The view that the updates describe: no process has two entries, and each process is in
the list of its last update. -/
structure Application.Follows (a : Application) (us : List ApplicationUpdate) : Prop where
  once : a.known.Nodup
  last : ∀ p u, lastUpdate us p = some u → p ∈ a.listed u.status

namespace Application

/-! ## One update -/

/-- The process of an update to `ACTIVE` gets an entry; otherwise the entries stay, in one
list or the other. -/
theorem count_known_update (a : Application) (u : ApplicationUpdate) (p : Str) :
    (a.update u.status u.processId).known.count p =
      a.known.count p + activations [u] p := by
  unfold update known activations
  by_cases hstatus : u.status = Status.ACTIVE
  · rw [if_pos hstatus]
    simp only [List.count_append, List.count_singleton, List.countP_singleton, hstatus, true_and,
      beq_iff_eq, decide_eq_true_eq]
    omega
  · have hnone : List.countP (fun v : ApplicationUpdate =>
        v.status = Status.ACTIVE ∧ v.processId = p) [u] = 0 := by simp [hstatus]
    rw [if_neg hstatus, hnone]
    split_ifs with hmem
    · by_cases hp : u.processId = p
      · subst hp
        have hpos : 0 < a.activeProcesses.count u.processId := List.count_pos_iff.2 hmem
        simp only [List.count_append, List.count_erase_self, List.count_singleton_self]
        omega
      · simp [List.count_append, List.count_erase_of_ne (Ne.symm hp), hp]
    · rfl

/-- The entries of the other processes do not move. -/
theorem mem_listed_update_of_ne {a : Application} {u : ApplicationUpdate} {p : Str}
    (h : u.processId ≠ p) (status : Status) :
    p ∈ (a.update u.status u.processId).listed status ↔ p ∈ a.listed status := by
  have hne : p ≠ u.processId := Ne.symm h
  unfold update listed
  split_ifs <;> simp [List.mem_erase_of_ne hne, hne]

/-- A process that has an entry has one in the list of its update. -/
theorem mem_listed_update_self {a : Application} {u : ApplicationUpdate}
    (h : u.processId ∈ (a.update u.status u.processId).known) :
    u.processId ∈ (a.update u.status u.processId).listed u.status := by
  unfold update known listed at *
  by_cases hstatus : u.status = Status.ACTIVE
  · simp [hstatus]
  · rw [if_neg hstatus] at h ⊢
    rw [if_neg hstatus]
    split_ifs at h ⊢ with hmem
    · simp
    · rcases List.mem_append.1 h with hactive | hswapped
      · exact absurd hactive hmem
      · exact hswapped

/-! ## All updates -/

theorem applyAll_concat (a : Application) (us : List ApplicationUpdate) (u : ApplicationUpdate) :
    a.applyAll (us ++ [u]) = (a.applyAll us).update u.status u.processId := by
  simp [applyAll]

theorem count_known_applyAll (a : Application) (us : List ApplicationUpdate) (p : Str) :
    (a.applyAll us).known.count p = a.known.count p + activations us p := by
  induction us using List.reverseRecOn with
  | nil => rfl
  | append_singleton us u ih =>
    rw [applyAll_concat, count_known_update, ih]
    simp only [activations, List.countP_append]
    omega

theorem lastUpdate_concat_self (us : List ApplicationUpdate) (u : ApplicationUpdate) :
    lastUpdate (us ++ [u]) u.processId = some u := by
  simp [lastUpdate, List.filter_append]

theorem lastUpdate_concat_of_ne {us : List ApplicationUpdate} {u : ApplicationUpdate} {p : Str}
    (h : u.processId ≠ p) : lastUpdate (us ++ [u]) p = lastUpdate us p := by
  simp [lastUpdate, List.filter_append, h]

theorem lastUpdate_isSome {us : List ApplicationUpdate} {u : ApplicationUpdate} (h : u ∈ us) :
    ∃ v, lastUpdate us u.processId = some v := by
  unfold lastUpdate
  have hmem : u ∈ us.filter fun v => v.processId = u.processId := by simp [h]
  exact ⟨_, List.getLast?_eq_some_getLast (List.ne_nil_of_mem hmem)⟩

theorem mem_of_lastUpdate {us : List ApplicationUpdate} {u : ApplicationUpdate} {p : Str}
    (h : lastUpdate us p = some u) : u ∈ us ∧ u.processId = p := by
  have hmem := List.mem_of_getLast? h
  simpa using hmem

/-- By induction from the last update: the updates of other processes after it change
nothing. -/
theorem mem_listed_applyAll {a : Application} {us : List ApplicationUpdate} {p : Str}
    {u : ApplicationUpdate} (hknown : p ∈ (a.applyAll us).known)
    (hlast : lastUpdate us p = some u) : p ∈ (a.applyAll us).listed u.status := by
  induction us using List.reverseRecOn with
  | nil => cases hlast
  | append_singleton us v ih =>
    rw [applyAll_concat] at hknown ⊢
    by_cases hv : v.processId = p
    · subst hv
      rw [lastUpdate_concat_self] at hlast
      obtain rfl := Option.some.inj hlast
      exact mem_listed_update_self hknown
    · rw [lastUpdate_concat_of_ne hv] at hlast
      have hcount := count_known_update (a.applyAll us) v p
      have hnone : activations [v] p = 0 := by simp [activations, hv]
      rw [hnone, Nat.add_zero] at hcount
      have hbefore : p ∈ (a.applyAll us).known := by
        rw [← List.count_pos_iff, ← hcount]
        exact List.count_pos_iff.2 hknown
      exact (mem_listed_update_of_ne hv u.status).2 (ih hbefore hlast)

theorem mem_known_of_mem_listed {a : Application} {status : Status} {p : Str}
    (h : p ∈ a.listed status) : p ∈ a.known := by
  unfold listed at h
  unfold known
  split_ifs at h
  · exact List.mem_append_left _ h
  · exact List.mem_append_right _ h

/-- From a view that has each process once. -/
theorem follows_applyAll_iff {a : Application} (h : a.known.Nodup)
    (us : List ApplicationUpdate) : (a.applyAll us).Follows us ↔
      ∀ u ∈ us, a.known.count u.processId + activations us u.processId = 1 := by
  constructor
  · intro hfollows u hu
    rw [← count_known_applyAll]
    rcases lastUpdate_isSome hu with ⟨v, hv⟩
    have hknown := mem_known_of_mem_listed (hfollows.last u.processId v hv)
    exact List.count_eq_one_of_mem hfollows.once hknown
  · intro honce
    constructor
    · rw [List.nodup_iff_count_le_one]
      intro p
      rw [count_known_applyAll]
      by_cases hp : ∃ u ∈ us, u.processId = p
      · rcases hp with ⟨u, hu, rfl⟩
        exact (honce u hu).le
      · -- no update names it, so its entry is the one it had
        have hnone : activations us p = 0 := by
          rw [activations, List.countP_eq_zero]
          intro u hu
          simp only [decide_eq_true_eq, not_and]
          exact fun _ hup => hp ⟨u, hu, hup⟩
        rw [hnone]
        exact List.nodup_iff_count_le_one.1 h p
    · intro p u hlast
      rcases mem_of_lastUpdate hlast with ⟨hu, rfl⟩
      apply mem_listed_applyAll _ hlast
      rw [← List.count_pos_iff, count_known_applyAll, honce u hu]
      exact Nat.one_pos

end Application

/-- `own` is the process of a worker, which knows itself as active from the start; the
controller starts with none. -/
def Application.initial (own : Option Str) : Application where
  activeProcesses := own.toList

theorem Application.known_initial (own : Option Str) : (initial own).known = own.toList :=
  List.append_nil _

/-- The view follows the updates if and only if each process that they name becomes active
exactly once, where the worker's own process counts as made active by its start. -/
theorem world_view_iff (own : Option Str) (us : List ApplicationUpdate) :
    ((Application.initial own).applyAll us).Follows us ↔
      ∀ u ∈ us, own.toList.count u.processId + activations us u.processId = 1 := by
  have hnodup : (Application.initial own).known.Nodup := by
    rw [Application.known_initial]
    cases own with
    | none => exact List.nodup_nil
    | some p => exact List.nodup_singleton p
  rw [Application.follows_applyAll_iff hnodup, Application.known_initial]

/-- A process is active, swapped, and active again: it stays in the list of the swapped
ones. -/
theorem swapped_back_listed_twice : ¬ ∀ (own : Option Str) (us : List ApplicationUpdate),
    ((Application.initial own).applyAll us).Follows us := by
  intro h
  have hfollows := h none [⟨Status.ACTIVE, str ['q']⟩, ⟨Status.SWAPPED, str ['q']⟩,
    ⟨Status.ACTIVE, str ['q']⟩]
  exact absurd hfollows.once (by decide)

end Praas.Common

namespace Praas.Runtime

open Process (Controller Output)
open Common (Application ApplicationUpdate activations)

/-! ## The views of the system -/

/-- The controller's view after any rounds of updates, from the empty one. -/
theorem controller_view {c c' : Controller} {outs : List Output}
    {before us : List ApplicationUpdate}
    (hview : c.application = (Application.initial none).applyAll before)
    (h : c.processApplicationUpdates us = .ok (c', outs)) :
    c'.application = (Application.initial none).applyAll (before ++ us) := by
  unfold Controller.processApplicationUpdates at h
  rcases Lts.bind_ok h with ⟨msgs, -, h⟩
  obtain rfl : _ = c' := congrArg Prod.fst (Except.ok.inj h)
  simp [hview, Application.applyAll]

/-- The view of a worker that nothing disturbed is right about the updates that it has read if
and only if each process that they name became active once. -/
theorem worker_view {processId : Str} {broadcast : List ApplicationUpdate} {v : Worker}
    (h : Served processId broadcast v) :
    ∃ read, broadcast = read ++ v.channel.filterMap updateOf ∧
      (v.application.Follows read ↔
        ∀ u ∈ read, [processId].count u.processId + activations read u.processId = 1) := by
  rcases h.updates with ⟨read, hread, hview⟩
  refine ⟨read, hread, ?_⟩
  rw [hview]
  exact Application.follows_applyAll_iff (a := Application.initial (some processId))
    (List.nodup_singleton processId) read

end Praas.Runtime
