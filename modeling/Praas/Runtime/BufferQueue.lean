import Praas.Process.Channel

/-! # The pool of buffers

`BufferQueue`: the buffers that a reader copies payloads into. A buffer is taken from the
front of the queue and resized if need be, one that is given back goes to its end, and an
empty queue allocates.

* `serves_retrieveBuffer_iff`: when a retrieved buffer has room for what it was asked for.
  The size is compared with the number of buffers that are left, and not with the capacity.
* `retrieved_serve_iff`: the same over all calls on a pool.
* `unreturned_serve_iff`: when a pool that gets nothing back serves every request, as the
  pools of the controller and of its channels do (`ipc_pool_serves`).

Allocation succeeds, and the contents of the memory are left out: no operation reads them.
-/

namespace Praas.Runtime.Internal

/-- `Buffer`: the elements that its memory has room for, where `none` is the null pointer, its
size, and how many elements are in use. Default and moved-from buffers are null. -/
structure Buffer where
  ptr : Option ℕ := none
  size : ℕ := 0
  len : ℕ := 0
  size_eq : size = ptr.getD 0 := by rfl
  deriving DecidableEq

namespace Buffer

/-- `Buffer{new T[size], size, len}`. -/
def allocated (size len : ℕ) : Buffer where
  ptr := some size
  size := size
  len := len

def null (buf : Buffer) : Bool := buf.ptr.isNone

/-- `resize`: the old memory is dropped with what is in it. -/
def resize (_buf : Buffer) (size : ℕ) : Buffer := allocated size 0

/-- What the callers do with a buffer: `std::copy_n` of `n` elements, and the new length. -/
def copyN (buf : Buffer) (n : ℕ) : Except Fault Buffer :=
  if buf.ptr.getD 0 < n then .error .outOfBounds else .ok { buf with len := n }

/-- The buffer is what a request for `size` elements is promised. -/
structure Serves (buf : Buffer) (size : ℕ) : Prop where
  notNull : buf.null = false
  capacity : size ≤ buf.size
  empty : buf.len = 0

theorem serves_allocated {size room : ℕ} (h : size ≤ room) : (allocated room 0).Serves size :=
  ⟨rfl, h, rfl⟩

/-- Exactly the copies that the capacity has room for stay in bounds. -/
theorem copyN_returns_iff {buf : Buffer} {n : ℕ} :
    Lts.Returns (buf.copyN n) ↔ n ≤ buf.size := by
  have hsize := buf.size_eq
  unfold copyN
  split_ifs with h
  · constructor
    · rintro ⟨_, ⟨⟩⟩
    · intro hle
      omega
  · exact ⟨fun _ => hsize ▸ not_lt.1 h, fun _ => ⟨_, rfl⟩⟩

theorem Serves.copyN {buf : Buffer} {n : ℕ} (h : buf.Serves n) : Lts.Returns (buf.copyN n) :=
  copyN_returns_iff.2 h.capacity

end Buffer

/-- `BufferQueue`, a queue from the front. -/
structure BufferQueue where
  buffers : List Buffer := []

namespace BufferQueue

/-- `BufferQueue(elements, elem_size)`. -/
def new (elements elemSize : ℕ) : BufferQueue where
  buffers := List.replicate elements (Buffer.allocated elemSize 0)

def allocateBuffer (size : ℕ) : Buffer := Buffer.allocated size 0

/-- `retrieve_buffer`; what is compared with `size` is the number of buffers that are left. -/
def retrieveBuffer (q : BufferQueue) (size : ℕ) : Buffer × BufferQueue :=
  match q.buffers with
  | [] => (allocateBuffer size, q)
  | buf :: rest => (if rest.length < size then buf.resize size else buf, ⟨rest⟩)

/-- `return_buffer`, of any buffer. -/
def returnBuffer (q : BufferQueue) (buf : Buffer) : BufferQueue where
  buffers := q.buffers ++ [{ buf with len := 0 }]

/-! ## Calls on a pool -/

inductive Call where
  | retrieve (size : ℕ)
  | giveBack (buf : Buffer)

/-- What a call does to the queue; none of them raises. -/
def step (q : BufferQueue) : Call → Except Empty BufferQueue
  | .retrieve size => .ok (q.retrieveBuffer size).2
  | .giveBack buf => .ok (q.returnBuffer buf)

/-- The buffers that the calls retrieve, each after the size that was asked for. -/
def retrieved : BufferQueue → List Call → List (ℕ × Buffer)
  | _, [] => []
  | q, .retrieve size :: calls =>
    (size, (q.retrieveBuffer size).1) :: retrieved (q.retrieveBuffer size).2 calls
  | q, .giveBack buf :: calls => retrieved (q.returnBuffer buf) calls

/-- The queue has no buffer, or fewer of them behind the first than the elements that are
asked for, or its first buffer has room for them. -/
def Fits (q : BufferQueue) : Call → Prop
  | .retrieve size =>
    match q.buffers with
    | [] => True
    | buf :: rest => rest.length < size ∨ buf.null = false ∧ size ≤ buf.size
  | .giveBack _ => True

instance (q : BufferQueue) : DecidablePred q.Fits
  | .retrieve size => by
    unfold Fits
    dsimp only
    split <;> infer_instance
  | .giveBack _ => inferInstanceAs (Decidable True)

/-- No buffer in the queue is in use. -/
def Unused (q : BufferQueue) : Prop := ∀ buf ∈ q.buffers, buf.len = 0

theorem unused_new (elements elemSize : ℕ) : (new elements elemSize).Unused := by
  intro buf hmem
  obtain rfl := List.eq_of_mem_replicate hmem
  rfl

theorem Unused.retrieveBuffer {q : BufferQueue} (h : q.Unused) (size : ℕ) :
    (q.retrieveBuffer size).2.Unused := by
  unfold BufferQueue.retrieveBuffer
  split
  · exact h
  · rename_i buf rest hq
    intro b hb
    apply h b
    rw [hq]
    exact List.mem_cons_of_mem buf hb

theorem Unused.returnBuffer {q : BufferQueue} (h : q.Unused) (buf : Buffer) :
    (q.returnBuffer buf).Unused := by
  intro b hb
  rcases List.mem_append.1 hb with hold | hnew
  · exact h b hold
  · obtain rfl := List.mem_singleton.1 hnew
    rfl

/-- The pool gives out what it was asked for in exactly these states. -/
theorem serves_retrieveBuffer_iff {q : BufferQueue} {size : ℕ} (h : q.Unused) :
    (q.retrieveBuffer size).1.Serves size ↔ q.Fits (.retrieve size) := by
  unfold retrieveBuffer Fits
  dsimp only
  split
  · exact ⟨fun _ => trivial, fun _ => Buffer.serves_allocated le_rfl⟩
  · rename_i buf rest hq
    have hlen : buf.len = 0 := by
      apply h buf
      rw [hq]
      exact List.mem_cons_self
    split_ifs with hfew
    · -- resized, whatever it was
      exact ⟨fun _ => Or.inl hfew, fun _ => Buffer.serves_allocated le_rfl⟩
    · constructor
      · intro hserves
        exact Or.inr ⟨hserves.notNull, hserves.capacity⟩
      · intro hfits
        rcases hfits with hlt | ⟨hnull, hroom⟩
        · exact absurd hlt hfew
        · exact ⟨hnull, hroom, hlen⟩

theorem meets_retrieve {q : BufferQueue} {size : ℕ} {calls : List Call} :
    Lts.Meets step Fits q (.retrieve size :: calls) ↔
      q.Fits (.retrieve size) ∧ Lts.Meets step Fits (q.retrieveBuffer size).2 calls := by
  simp [Lts.Meets, step]

theorem meets_giveBack {q : BufferQueue} {buf : Buffer} {calls : List Call} :
    Lts.Meets step Fits q (.giveBack buf :: calls) ↔
      Lts.Meets step Fits (q.returnBuffer buf) calls := by
  simp [Lts.Meets, step, Fits]

/-- All the retrieved buffers serve their requests if and only if every call fits the queue
that it finds. -/
theorem retrieved_serve {q : BufferQueue} (h : q.Unused) (calls : List Call) :
    (∀ r ∈ q.retrieved calls, r.2.Serves r.1) ↔ Lts.Meets step Fits q calls := by
  induction calls generalizing q with
  | nil => simp [retrieved]
  | cons call calls ih =>
    cases call with
    | retrieve size =>
      rw [meets_retrieve, ← serves_retrieveBuffer_iff h, ← ih (h.retrieveBuffer size), retrieved,
        List.forall_mem_cons]
    | giveBack buf =>
      rw [meets_giveBack, ← ih (h.returnBuffer buf), retrieved]

/-- From any pool as it is built. -/
theorem retrieved_serve_iff (elements elemSize : ℕ) (calls : List Call) :
    (∀ r ∈ (new elements elemSize).retrieved calls, r.2.Serves r.1) ↔
      Lts.Meets step Fits (new elements elemSize) calls :=
  retrieved_serve (unused_new elements elemSize) calls

/-- Ten buffers of one element: nine are left, which is enough not to make the first one
larger for a request of five. -/
theorem small_buffers_retrieved : ¬ ∀ (elements elemSize : ℕ) (calls : List Call),
    ∀ r ∈ (new elements elemSize).retrieved calls, r.2.Serves r.1 := by
  intro h
  have hserves := h 10 1 [.retrieve 5] (5, Buffer.allocated 1 0) (by decide)
  have hcapacity : 5 ≤ 1 := hserves.capacity
  omega

/-! ## Pools that get nothing back -/

/-- At most `n` buffers, and all of them have room for `room` elements. -/
structure Holds (n room : ℕ) (q : BufferQueue) : Prop where
  few : q.buffers.length ≤ n
  rooms : ∀ buf ∈ q.buffers, buf.null = false ∧ room ≤ buf.size

theorem holds_new (elements elemSize : ℕ) : (new elements elemSize).Holds elements elemSize := by
  constructor
  · simp [new]
  · intro buf hmem
    obtain rfl := List.eq_of_mem_replicate hmem
    exact ⟨rfl, le_rfl⟩

theorem Holds.retrieveBuffer {n room : ℕ} {q : BufferQueue} (h : q.Holds n room) (size : ℕ) :
    (q.retrieveBuffer size).2.Holds n room := by
  unfold BufferQueue.retrieveBuffer
  split
  · exact h
  · rename_i buf rest hq
    rcases h with ⟨hfew, hrooms⟩
    rw [hq] at hfew hrooms
    exact ⟨(Nat.le_succ _).trans hfew, fun b hb => hrooms b (List.mem_cons_of_mem buf hb)⟩

/-- With at most one buffer more than the elements of each, a request is below the capacity
or above the number of buffers that are left. -/
theorem Holds.fits {n room size : ℕ} {q : BufferQueue} (h : q.Holds n room) (hn : n ≤ room + 1) :
    q.Fits (.retrieve size) := by
  unfold Fits
  dsimp only
  split
  · trivial
  · rename_i buf rest hq
    rcases h with ⟨hfew, hrooms⟩
    rw [hq] at hfew hrooms
    rw [List.length_cons] at hfew
    rcases hrooms buf List.mem_cons_self with ⟨hnull, hroom⟩
    rcases Nat.lt_or_ge rest.length size with hlt | hge
    · exact Or.inl hlt
    · exact Or.inr ⟨hnull, by omega⟩

theorem Holds.meets {n room : ℕ} {q : BufferQueue} (h : q.Holds n room) (hn : n ≤ room + 1)
    (sizes : List ℕ) : Lts.Meets step Fits q (sizes.map .retrieve) := by
  induction sizes generalizing q with
  | nil => trivial
  | cons size sizes ih =>
    rw [List.map_cons, meets_retrieve]
    exact ⟨h.fits hn, ih (h.retrieveBuffer size)⟩

/-- A pool that gets nothing back serves all requests if and only if its buffers are at most
one more than the elements of each. -/
theorem unreturned_serve_iff (elements elemSize : ℕ) :
    (∀ (sizes : List ℕ), ∀ r ∈ (new elements elemSize).retrieved (sizes.map .retrieve),
      r.2.Serves r.1) ↔ elements ≤ elemSize + 1 := by
  constructor
  · intro h
    by_contra hmany
    rw [not_le] at hmany
    -- one element more than there is room for, and still as many buffers left
    have hmeets := (retrieved_serve (unused_new elements elemSize) _).1 (h [elemSize + 1])
    have hfits : (new elements elemSize).Fits (.retrieve (elemSize + 1)) :=
      (meets_retrieve.1 hmeets).1
    obtain ⟨k, rfl⟩ : ∃ k, elements = k + 1 := ⟨elements - 1, by omega⟩
    have hcases : (List.replicate k (Buffer.allocated elemSize 0)).length < elemSize + 1 ∨
        (Buffer.allocated elemSize 0).null = false ∧ elemSize + 1 ≤ elemSize := hfits
    rw [List.length_replicate] at hcases
    omega
  · intro hn sizes
    exact (retrieved_serve (unused_new elements elemSize) _).2
      ((holds_new elements elemSize).meets hn sizes)

/-! ## The pool of a channel -/

/-- A buffer of `POSIXMQChannel`. -/
def ofChannel (buf : Process.Ipc.Buffer) : Buffer := Buffer.allocated buf.size buf.data.length

/-- The channel retrieves its buffers from such a pool. -/
theorem retrieveBuffer_ofChannel (buffers : List Process.Ipc.Buffer) (n : ℕ) :
    retrieveBuffer ⟨buffers.map ofChannel⟩ n =
      (ofChannel (Process.Ipc.retrieveBuffer buffers n).1,
        ⟨(Process.Ipc.retrieveBuffer buffers n).2.map ofChannel⟩) := by
  unfold retrieveBuffer Process.Ipc.retrieveBuffer
  cases buffers with
  | nil => rfl
  | cons buf rest =>
    rw [List.map_cons]
    dsimp only
    rw [List.length_map, apply_ite ofChannel]
    rfl

theorem new_ofChannel : (⟨Process.Ipc.POSIXMQChannel.open.buffers.map ofChannel⟩ : BufferQueue) =
    new Process.Ipc.BUFFER_ELEMS Process.Ipc.BUFFER_SIZE := by
  simp [Process.Ipc.POSIXMQChannel.open, new, ofChannel]

/-- A channel gives no buffer back, and has a few large ones: whatever lengths it reads, there
is room for them. -/
theorem ipc_pool_serves (sizes : List ℕ) :
    ∀ r ∈ retrieved ⟨Process.Ipc.POSIXMQChannel.open.buffers.map ofChannel⟩
      (sizes.map .retrieve), r.2.Serves r.1 := by
  rw [new_ofChannel]
  exact (unreturned_serve_iff _ _).2 (by decide) sizes

end BufferQueue

end Praas.Runtime.Internal
