import Praas.Common.Bytes

/-! # Pending requests and the message store of the controller

`praas::process::message`: the table of workers that wait for a message or for
the result of an invocation, and the store of messages and state. The buffers
are of an arbitrary type `β`.
-/

namespace Praas.Process

/-- `ANY_PROCESS`. -/
def ANY_PROCESS : Str := str ['A', 'N', 'Y']

/-! ## PendingMessages -/

/-- `PendingMessage::Type`. -/
inductive PendingType where
  | none | get | invocation
deriving DecidableEq, Repr

/-- `PendingMessage`; a worker is named by its index. -/
structure PendingMessage where
  type : PendingType
  source : Option Str
  worker : ℕ
deriving DecidableEq, Repr

/-- `std::unordered_multimap<std::string, PendingMessage>`, as the sequence an
iteration would visit. Where an insertion puts an element among those of the
same key is not specified, so insertions take a position. -/
abbrev PendingMessages := List (Str × PendingMessage)

namespace PendingMessages

/-- `_msgs.emplace(...)` at some position. -/
def emplace (msgs : PendingMessages) (slot : ℕ) (key : Str) (m : PendingMessage) :
    PendingMessages :=
  msgs.take slot ++ (key, m) :: msgs.drop slot

def insertGet (msgs : PendingMessages) (slot : ℕ) (key source : Str) (worker : ℕ) :
    PendingMessages :=
  msgs.emplace slot key { type := .get, source := some source, worker := worker }

def insertInvocation (msgs : PendingMessages) (slot : ℕ) (key : Str) (worker : ℕ) :
    PendingMessages :=
  msgs.emplace slot key { type := .invocation, source := some [], worker := worker }

/-- The entry is a GET that a message `key` from `source` fulfils. -/
def Matches (key source : Str) (m : Str × PendingMessage) : Prop :=
  m.1 = key ∧ (m.2.source = some ANY_PROCESS ∨ m.2.source = some source) ∧ m.2.type = .get

instance (key source : Str) (m : Str × PendingMessage) : Decidable (Matches key source m) :=
  inferInstanceAs (Decidable (_ ∧ _))

/-- `find_get`: the worker of the first entry that matches, which is erased. -/
def findGet (msgs : PendingMessages) (key source : Str) : Option ℕ × PendingMessages :=
  ((msgs.find? (fun m => Matches key source m)).map (·.2.worker),
    msgs.eraseP (fun m => Matches key source m))

/-- `find_invocation`: the workers of all entries of the key, which are erased. -/
def findInvocation (msgs : PendingMessages) (key : Str) : List ℕ × PendingMessages :=
  ((msgs.filter (fun m => m.1 = key)).map (·.2.worker), msgs.filter (fun m => m.1 ≠ key))

end PendingMessages

/-! ## MessageStore -/

/-- `message::Message`. -/
structure MessageStore.Message (β : Type) where
  source : Str
  data : β
deriving DecidableEq, Repr

structure MessageStore (β : Type) where
  msgs : Str → Option (MessageStore.Message β)
  /-- The keys of state values, with the time of the last write. -/
  stateKeys : List (Str × ℕ)

variable {β : Type}

namespace MessageStore

def empty : MessageStore β where
  msgs := fun _ => none
  stateKeys := []

/-- `put`: `try_emplace` does nothing if the key exists. -/
def put (s : MessageStore β) (key source : Str) (payload : β) : MessageStore β × Bool :=
  match s.msgs key with
  | some _ => (s, false)
  | none => ({ s with msgs := Function.update s.msgs key (some ⟨source, payload⟩) }, true)

/-- Set the time of the first entry of the key, if there is one. -/
def touch (keys : List (Str × ℕ)) (key : Str) (now : ℕ) : Option (List (Str × ℕ)) :=
  match keys with
  | [] => none
  | (k, time) :: rest =>
    if k = key then some ((k, now) :: rest)
    else (touch rest key now).map ((k, time) :: ·)

/-- `state`: `insert_or_assign` under an empty source. For a key that exists the
entry in the list of keys is looked up and written through without a check. -/
def state (s : MessageStore β) (key : Str) (payload : β) (now : ℕ) :
    Except Fault (MessageStore β × Bool) :=
  let msgs := Function.update s.msgs key (some ⟨[], payload⟩)
  match s.msgs key with
  | none => .ok (⟨msgs, s.stateKeys ++ [(key, now)]⟩, true)
  | some _ =>
    match touch s.stateKeys key now with
    | some keys => .ok (⟨msgs, keys⟩, true)
    | none => .error .danglingIterator

/-- `try_get`: the source is checked unless any will do; the message is erased. -/
def tryGet (s : MessageStore β) (key source : Str) : MessageStore β × Option β :=
  match s.msgs key with
  | none => (s, none)
  | some m =>
    if source ≠ ANY_PROCESS ∧ m.source ≠ source then (s, none)
    else ({ s with msgs := Function.update s.msgs key none }, some m.data)

/-- `try_state`. -/
def tryState (s : MessageStore β) (key : Str) : Option β := (s.msgs key).map (·.data)

end MessageStore

end Praas.Process
