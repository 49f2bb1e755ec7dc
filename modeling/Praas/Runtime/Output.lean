import Praas.Common.Bytes
import Praas.Lib.Lts

/-! # The output of an invocation

`praas::process::runtime::Context`: the output buffer it owns, the view of it that is returned
to functions and may be replaced by `set_output_buffer`, and the buffers it allocates for an
invocation. A `Context` serves one invocation after the other.

A byte of the memory holds what the invocation has written there, so an output is its length
and the bytes that the invocation wrote.

* `Lent`: the memory that is allocated is the output buffer and what the invocation was given.
* `Related`: two contexts in the course of the same calls, up to the names of their buffers.
* `isolated_iff`: after two histories, every sequence of calls has the same output exactly if
  their output buffers have one size, and the view is that of the output buffer after both or
  after none.
-/

namespace Praas.Runtime

/-- An allocation. -/
structure Context.Block where
  size : ℕ
  written : ℕ → Option Byte

/-- `runtime::Buffer`; an `internal::Buffer` has the same fields. -/
structure Context.Buffer where
  ptr : ℕ
  len : ℕ
  size : ℕ
deriving DecidableEq, Repr

/-- The context, the memory, and the buffers that the function holds: its arguments, which the
invoker has received for it, and what the context returned. -/
structure Context where
  mem : ℕ → Option Context.Block
  next : ℕ
  output : Context.Buffer
  outputBufView : Context.Buffer
  userBuffers : List ℕ
  args : List ℕ
  held : List Context.Buffer

namespace Context

def BUFFER_SIZE : ℕ := 1024 * 1024 * 5

namespace Block

def new (size : ℕ) : Block := ⟨size, fun _ => none⟩

def write (b : Block) (pos : ℕ) (bs : List Byte) : Block :=
  { b with written := fun i => if pos ≤ i then (bs[i - pos]?).or (b.written i) else b.written i }

end Block

/-- The constructor. -/
def new : Context where
  mem := Function.update (fun _ => none) 0 (some (Block.new BUFFER_SIZE))
  next := 1
  output := { ptr := 0, len := 0, size := BUFFER_SIZE }
  outputBufView := { ptr := 0, len := 0, size := BUFFER_SIZE }
  userBuffers := []
  args := []
  held := []

/-- What no call may do. -/
inductive Misuse where
  | freed
  | outOfBounds
  | noBuffer
deriving DecidableEq, Repr

variable (c : Context)

/-- `memcpy` to an address. -/
def write (ptr pos : ℕ) (bs : List Byte) : Except Misuse Context :=
  match c.mem ptr with
  | none => .error .freed
  | some b =>
    if pos + bs.length ≤ b.size then
      .ok { c with mem := Function.update c.mem ptr (some (b.write pos bs)) }
    else .error .outOfBounds

/-- `_output.resize(size)`: the old allocation is freed. -/
def resize (size : ℕ) : Context :=
  { c with
    mem := Function.update (Function.update c.mem c.output.ptr none) c.next
      (some (Block.new size))
    next := c.next + 1
    output := { ptr := c.next, len := 0, size := size } }

@[simps] def setView (b : Buffer) : Context := { c with outputBufView := b }

@[simps] def hold (b : Buffer) : Context := { c with held := c.held ++ [b] }

/-- A reference to `_output_buf_view` is returned. -/
def getOutputBuffer (size : ℕ) : Context :=
  if size ≠ 0 ∧ c.output.size < size then
    let c := c.resize size
    c.setView { ptr := c.output.ptr, len := c.output.len, size := c.output.size }
  else c

def setOutputBuffer (b : Buffer) : Context := c.setView b

/-- The memory of the new buffer. -/
def allocate (size : ℕ) : Context :=
  { c with mem := Function.update c.mem c.next (some (Block.new size)), next := c.next + 1 }

def getBuffer (size : ℕ) : Context :=
  { c.allocate size with
    userBuffers := c.userBuffers ++ [c.next]
    held := c.held ++ [{ ptr := c.next, len := 0, size := size }] }

def writeOutput (bs : List Byte) (pos : ℕ) : Except Misuse Context :=
  (c.write c.output.ptr pos bs).map fun c =>
    c.setView { c.outputBufView with len := max c.outputBufView.len (pos + bs.length) }

/-- The data that is returned, and its length. -/
def asBuffer : ℕ × ℕ :=
  if c.outputBufView.ptr ≠ c.output.ptr then (c.outputBufView.ptr, c.outputBufView.len)
  else
    let acc := (c.output.ptr, c.output.len)
    (acc.1, c.outputBufView.len)

/-- `start_invocation`. Nothing is written yet. -/
def startInvocation : Context :=
  { c with
    output := { c.output with len := 0 }
    outputBufView := { c.outputBufView with len := 0 }
    mem := fun ptr => (c.mem ptr).map fun b => Block.new b.size }

/-- `end_invocation` frees the user buffers; the next poll takes the memory of the arguments. -/
def endInvocation : Context :=
  { c with
    mem := fun ptr => if ptr ∈ c.userBuffers ++ c.args then none else c.mem ptr
    userBuffers := []
    args := []
    held := [] }

/-! ## Invocations -/

/-- An argument of the given size. -/
def receive (size : ℕ) : Context :=
  { c.allocate size with
    args := c.args ++ [c.next]
    held := c.held ++ [{ ptr := c.next, len := size, size := size }] }

/-- What a function does with its output. Through the reference that `get_output_buffer`
returns it writes, sets the length, and takes a copy. -/
inductive Op where
  | getOutputBuffer (size : ℕ)
  | writeView (pos : ℕ) (bs : List Byte)
  | setLen (len : ℕ)
  | copyView
  | writeOutput (bs : List Byte) (pos : ℕ)
  | getBuffer (size : ℕ)
  | writeHeld (i pos : ℕ) (bs : List Byte)
  | setOutputBuffer (i len : ℕ)
deriving DecidableEq, Repr

/-- A buffer that the function holds. -/
def withHeld (i : ℕ) (f : Buffer → Except Misuse Context) : Except Misuse Context :=
  match c.held[i]? with
  | none => .error .noBuffer
  | some b => f b

def step : Op → Except Misuse Context
  | .getOutputBuffer size => .ok (c.getOutputBuffer size)
  | .writeView pos bs => c.write c.outputBufView.ptr pos bs
  | .setLen len => .ok (c.setView { c.outputBufView with len := len })
  | .copyView => .ok (c.hold c.outputBufView)
  | .writeOutput bs pos => c.writeOutput bs pos
  | .getBuffer size => .ok (c.getBuffer size)
  | .writeHeld i pos bs => c.withHeld i fun b => c.write b.ptr pos bs
  | .setOutputBuffer i len => c.withHeld i fun b => .ok (c.setOutputBuffer { b with len := len })

structure Invocation where
  args : List ℕ
  calls : List Op

/-- The context when the function is called. -/
def enter (args : List ℕ) : Context := args.foldl receive c.startInvocation

/-- `get_function`, between `start_invocation` and `end_invocation`. -/
def invoke (v : Invocation) : Except Misuse Context :=
  (Lts.run step (c.enter v.args) v.calls).map endInvocation

/-- The length and the bytes that the invocation has written. -/
def result : List (Option Byte) :=
  (List.range c.asBuffer.2).map fun i => (c.mem c.asBuffer.1).bind fun b => b.written i

/-- The view is that of the output buffer. -/
def Owns : Prop := c.outputBufView.ptr = c.output.ptr

instance : Decidable c.Owns := inferInstanceAs (Decidable (_ = _))

/-- What an invocation does has the same output in both contexts. -/
def Isolated (c₁ c₂ : Context) : Prop :=
  ∀ args calls t₁ t₂, Lts.run step (c₁.enter args) calls = .ok t₁ →
    Lts.run step (c₂.enter args) calls = .ok t₂ → t₁.result = t₂.result

/-! ## The memory -/

/-- The memory that is allocated is the output buffer and what the invocation was given, and all
pointers are old. -/
structure Lent (c : Context) : Prop where
  output : c.output.ptr < c.next
  view : c.outputBufView.ptr < c.next
  held : ∀ b ∈ c.held, b.ptr < c.next
  given : ∀ ptr ∈ c.userBuffers ++ c.args, ptr < c.next ∧ ptr ≠ c.output.ptr
  block : ∃ b, c.mem c.output.ptr = some b ∧ b.size = c.output.size
  positive : 0 < c.output.size
  lent : ∀ ptr, c.mem ptr ≠ none → ptr = c.output.ptr ∨ ptr ∈ c.userBuffers ++ c.args

variable {c c' : Context}

theorem new_mem {ptr : ℕ} (h : ptr ≠ 0) : new.mem ptr = none := by
  simp [new, h]

theorem lent_new : Lent new := by
  constructor
  · exact Nat.one_pos
  · exact Nat.one_pos
  · intro b hb
    cases hb
  · intro ptr hptr
    cases hptr
  · exact ⟨Block.new BUFFER_SIZE, rfl, rfl⟩
  · decide
  · intro ptr hptr
    left
    by_contra hne
    exact hptr (new_mem hne)

theorem write_ok {ptr pos : ℕ} {bs : List Byte} (h : c.write ptr pos bs = .ok c') :
    ∃ b, c.mem ptr = some b ∧
      c' = { c with mem := Function.update c.mem ptr (some (b.write pos bs)) } := by
  unfold write at h
  split at h
  · cases h
  · rename_i b hb
    split_ifs at h
    exact ⟨b, hb, (Except.ok.inj h).symm⟩

theorem writeOutput_ok {bs : List Byte} {pos : ℕ} (h : c.writeOutput bs pos = .ok c') :
    ∃ c₁, c.write c.output.ptr pos bs = .ok c₁ ∧ c' = c₁.setView
      { c₁.outputBufView with len := max c₁.outputBufView.len (pos + bs.length) } := by
  unfold writeOutput at h
  cases hwrite : c.write c.output.ptr pos bs with
  | error x =>
    rw [hwrite] at h
    cases h
  | ok c₁ =>
    rw [hwrite] at h
    exact ⟨c₁, rfl, (Except.ok.inj h).symm⟩

theorem withHeld_ok {i : ℕ} {f : Buffer → Except Misuse Context} (h : c.withHeld i f = .ok c') :
    ∃ b, c.held[i]? = some b ∧ f b = .ok c' := by
  unfold withHeld at h
  split at h
  · cases h
  · rename_i b hb
    exact ⟨b, hb, h⟩

theorem lent_write (h : Lent c) {ptr pos : ℕ} {bs : List Byte} (hc : c.write ptr pos bs = .ok c') :
    Lent c' := by
  rcases write_ok hc with ⟨b, hb, rfl⟩
  refine ⟨h.output, h.view, h.held, h.given, ?_, h.positive, ?_⟩
  · rcases h.block with ⟨b', hb', hsize⟩
    rcases eq_or_ne c.output.ptr ptr with rfl | hne
    · obtain rfl := Option.some.inj (hb.symm.trans hb')
      exact ⟨b.write pos bs, by simp, hsize⟩
    · exact ⟨b', by simp [hne, hb'], hsize⟩
  · intro ptr' hptr'
    apply h.lent
    rcases eq_or_ne ptr' ptr with rfl | hne
    · simp [hb]
    · simpa [hne] using hptr'

theorem lent_setView (h : Lent c) {b : Buffer} (hb : b.ptr < c.next) : Lent (c.setView b) :=
  ⟨h.output, hb, h.held, h.given, h.block, h.positive, h.lent⟩

theorem lent_hold (h : Lent c) {b : Buffer} (hb : b.ptr < c.next) : Lent (c.hold b) := by
  refine ⟨h.output, h.view, ?_, h.given, h.block, h.positive, h.lent⟩
  intro b' hb'
  rcases List.mem_append.1 hb' with hb' | hb'
  · exact h.held b' hb'
  · obtain rfl := List.mem_singleton.1 hb'
    exact hb

/-- The output buffer is replaced by a new one, and the view with it. -/
theorem lent_getOutputBuffer (h : Lent c) (size : ℕ) : Lent (c.getOutputBuffer size) := by
  unfold getOutputBuffer
  split_ifs with hgrows
  · constructor
    · exact Nat.lt_succ_self c.next
    · exact Nat.lt_succ_self c.next
    · intro b hb
      exact Nat.lt_succ_of_lt (h.held b hb)
    · intro ptr hptr
      have hlt := (h.given ptr hptr).1
      exact ⟨Nat.lt_succ_of_lt hlt, hlt.ne⟩
    · exact ⟨Block.new size, Function.update_self .., rfl⟩
    · exact Nat.pos_of_ne_zero hgrows.1
    · intro ptr hptr
      rcases eq_or_ne ptr c.next with rfl | hne
      · exact Or.inl rfl
      · right
        have hold : c.mem ptr ≠ none ∧ ptr ≠ c.output.ptr := by
          simp only [setView_mem, resize, ne_eq, Function.update_of_ne hne] at hptr
          rcases eq_or_ne ptr c.output.ptr with rfl | hout
          · simp at hptr
          · exact ⟨by simpa [hout] using hptr, hout⟩
        exact (h.lent ptr hold.1).resolve_left hold.2
  · exact h

/-- A new buffer, for the user or for an argument. -/
theorem lent_allocate (h : Lent c) {size : ℕ} {b : Buffer} {userBuffers args : List ℕ}
    (hb : b.ptr = c.next)
    (hgiven : ∀ ptr, ptr ∈ userBuffers ++ args ↔ ptr ∈ c.userBuffers ++ c.args ∨ ptr = c.next) :
    Lent { c.allocate size with
      userBuffers := userBuffers
      args := args
      held := c.held ++ [b] } := by
  constructor
  · exact Nat.lt_succ_of_lt h.output
  · exact Nat.lt_succ_of_lt h.view
  · intro b' hb'
    rcases List.mem_append.1 hb' with hb' | hb'
    · exact Nat.lt_succ_of_lt (h.held b' hb')
    · obtain rfl := List.mem_singleton.1 hb'
      rw [hb]
      exact Nat.lt_succ_self c.next
  · intro ptr hptr
    rcases (hgiven ptr).1 hptr with hold | rfl
    · exact ⟨Nat.lt_succ_of_lt (h.given ptr hold).1, (h.given ptr hold).2⟩
    · exact ⟨Nat.lt_succ_self c.next, h.output.ne'⟩
  · rcases h.block with ⟨b', hb', hsize⟩
    exact ⟨b', by simp [allocate, h.output.ne, hb'], hsize⟩
  · exact h.positive
  · intro ptr hptr
    rcases eq_or_ne ptr c.next with rfl | hne
    · exact Or.inr ((hgiven c.next).2 (Or.inr rfl))
    · have hold := h.lent ptr (by simpa [allocate, hne] using hptr)
      exact hold.imp_right fun hold => (hgiven ptr).2 (Or.inl hold)

theorem lent_step (h : Lent c) {o : Op} (hc : c.step o = .ok c') : Lent c' := by
  cases o with
  | getOutputBuffer size =>
    obtain rfl := Except.ok.inj hc
    exact lent_getOutputBuffer h size
  | writeView pos bs => exact lent_write h hc
  | setLen len =>
    obtain rfl := Except.ok.inj hc
    exact lent_setView h h.view
  | copyView =>
    obtain rfl := Except.ok.inj hc
    exact lent_hold h h.view
  | writeOutput bs pos =>
    rcases writeOutput_ok hc with ⟨c₁, hwrite, rfl⟩
    have h₁ := lent_write h hwrite
    exact lent_setView h₁ h₁.view
  | getBuffer size =>
    obtain rfl := Except.ok.inj hc
    apply lent_allocate h rfl
    intro ptr
    simp only [List.mem_append, List.mem_singleton]
    tauto
  | writeHeld i pos bs =>
    rcases withHeld_ok hc with ⟨b, _, hc⟩
    exact lent_write h hc
  | setOutputBuffer i len =>
    rcases withHeld_ok hc with ⟨b, hb, hc⟩
    obtain rfl := Except.ok.inj hc
    exact lent_setView h (h.held b (List.mem_of_getElem? hb))

theorem lent_enter (h : Lent c) (args : List ℕ) : Lent (c.enter args) := by
  have hstart : Lent c.startInvocation := by
    refine ⟨h.output, h.view, h.held, h.given, ?_, h.positive, ?_⟩
    · rcases h.block with ⟨b, hb, hsize⟩
      exact ⟨Block.new b.size, by simp [startInvocation, hb], hsize⟩
    · intro ptr hptr
      apply h.lent
      intro hnone
      simp [startInvocation, hnone] at hptr
  unfold enter
  generalize c.startInvocation = s at hstart
  induction args generalizing s with
  | nil => exact hstart
  | cons size args ih =>
    apply ih
    apply lent_allocate hstart rfl
    intro ptr
    simp only [List.mem_append, List.mem_singleton]
    tauto

/-- Between invocations, only the output buffer is allocated. -/
structure Idle (c : Context) : Prop extends Lent c where
  gone : ∀ ptr, ptr ≠ c.output.ptr → c.mem ptr = none
  returned : c.held = []

theorem idle_endInvocation (h : Lent c) : Idle c.endInvocation := by
  have hkept : ∀ ptr, ptr ∉ c.userBuffers ++ c.args → c.endInvocation.mem ptr = c.mem ptr :=
    fun ptr hptr => if_neg hptr
  have hgone : ∀ ptr, ptr ≠ c.output.ptr → c.endInvocation.mem ptr = none := by
    intro ptr hne
    by_cases hgiven : ptr ∈ c.userBuffers ++ c.args
    · exact if_pos hgiven
    · rw [hkept ptr hgiven]
      by_contra hsome
      exact hgiven ((h.lent ptr hsome).resolve_left hne)
  refine ⟨⟨h.output, h.view, ?_, ?_, ?_, h.positive, ?_⟩, hgone, rfl⟩
  · intro b hb
    cases hb
  · intro ptr hptr
    cases hptr
  · have hnot : c.output.ptr ∉ c.userBuffers ++ c.args := fun hmem => (h.given _ hmem).2 rfl
    rcases h.block with ⟨b, hb, hsize⟩
    exact ⟨b, (hkept _ hnot).trans hb, hsize⟩
  · intro ptr hptr
    left
    by_contra hne
    exact hptr (hgone ptr hne)

theorem idle_new : Idle new :=
  ⟨lent_new, fun _ hne => new_mem hne, rfl⟩

theorem idle_invoke {v : Invocation} (h : Idle c) (hc : c.invoke v = .ok c') : Idle c' := by
  unfold invoke at hc
  cases hrun : Lts.run step (c.enter v.args) v.calls with
  | error x =>
    rw [hrun] at hc
    cases hc
  | ok t =>
    rw [hrun] at hc
    obtain rfl := Except.ok.inj hc
    apply idle_endInvocation
    exact Lts.run_always (fun _ _ _ h hc => lent_step h hc) (lent_enter h.toLent v.args) hrun

theorem idle_run {history : List Invocation} (h : Lts.run invoke new history = .ok c) : Idle c :=
  Lts.run_always (fun _ _ _ => idle_invoke) idle_new h

/-- The view decides what is returned. -/
theorem asBuffer_eq (c : Context) : c.asBuffer = (c.outputBufView.ptr, c.outputBufView.len) := by
  unfold asBuffer
  split_ifs with hown
  · rfl
  · rw [not_not.1 hown]

theorem result_view (c : Context) : c.result = (List.range c.outputBufView.len).map fun i =>
    (c.mem c.outputBufView.ptr).bind fun b => b.written i := by
  unfold result
  rw [asBuffer_eq]

/-! ## Two contexts -/

section Pair

variable (c₁ c₂ : Context)

/-- Since the invocations began: the output buffers, and what was allocated in the same order. -/
def Same (p₁ p₂ : ℕ) : Prop :=
  (p₁ = c₁.output.ptr ∧ p₂ = c₂.output.ptr) ∨ ∃ k, p₁ = c₁.next + k ∧ p₂ = c₂.next + k

/-- From an earlier invocation. -/
def Stale (c : Context) (ptr : ℕ) : Prop := ptr < c.next ∧ ptr ≠ c.output.ptr

def Points (p₁ p₂ : ℕ) : Prop := Same c₁ c₂ p₁ p₂ ∨ c₁.Stale p₁ ∧ c₂.Stale p₂

/-- The memories agree, and what is stale is not allocated. -/
structure Agree (m₁ m₂ : ℕ → Option Block) : Prop where
  same : ∀ p₁ p₂, Same c₁ c₂ p₁ p₂ → m₁ p₁ = m₂ p₂
  gone₁ : ∀ ptr, c₁.Stale ptr → m₁ ptr = none
  gone₂ : ∀ ptr, c₂.Stale ptr → m₂ ptr = none

/-- The contexts in the course of the same calls, which began in `c₁` and `c₂`. -/
structure Related (t₁ t₂ : Context) : Prop where
  began₁ : c₁.output.ptr < c₁.next
  began₂ : c₂.output.ptr < c₂.next
  next : ∃ k, t₁.next = c₁.next + k ∧ t₂.next = c₂.next + k
  output : Same c₁ c₂ t₁.output.ptr t₂.output.ptr
  size : t₁.output.size = t₂.output.size
  view : Points c₁ c₂ t₁.outputBufView.ptr t₂.outputBufView.ptr
  len : t₁.outputBufView.len = t₂.outputBufView.len
  held : List.Forall₂ (fun b₁ b₂ => Points c₁ c₂ b₁.ptr b₂.ptr) t₁.held t₂.held
  mem : Agree c₁ c₂ t₁.mem t₂.mem

variable {c₁ c₂} {t₁ t₂ u₁ u₂ : Context}

theorem same_iff (h₁ : c₁.output.ptr < c₁.next) (h₂ : c₂.output.ptr < c₂.next) {p₁ p₂ q₁ q₂ : ℕ}
    (hp : Same c₁ c₂ p₁ p₂) (hq : Same c₁ c₂ q₁ q₂) : p₁ = q₁ ↔ p₂ = q₂ := by
  rcases hp with ⟨rfl, rfl⟩ | ⟨k, rfl, rfl⟩
  · rcases hq with ⟨rfl, rfl⟩ | ⟨l, rfl, rfl⟩
    · exact iff_of_true rfl rfl
    · omega
  · rcases hq with ⟨rfl, rfl⟩ | ⟨l, rfl, rfl⟩
    · omega
    · omega

theorem not_stale₁ {p₁ p₂ : ℕ} (hp : Same c₁ c₂ p₁ p₂) :
    ¬ c₁.Stale p₁ := by
  rintro ⟨hlt, hne⟩
  rcases hp with ⟨rfl, -⟩ | ⟨k, rfl, -⟩
  · exact hne rfl
  · omega

theorem not_stale₂ {p₁ p₂ : ℕ} (hp : Same c₁ c₂ p₁ p₂) :
    ¬ c₂.Stale p₂ := by
  rintro ⟨hlt, hne⟩
  rcases hp with ⟨-, rfl⟩ | ⟨k, -, rfl⟩
  · exact hne rfl
  · omega

/-- The same change at the same place. -/
theorem Agree.update {m₁ m₂ : ℕ → Option Block} {p₁ p₂ : ℕ} (h : Agree c₁ c₂ m₁ m₂)
    (h₁ : c₁.output.ptr < c₁.next) (h₂ : c₂.output.ptr < c₂.next) (hp : Same c₁ c₂ p₁ p₂)
    (x : Option Block) :
    Agree c₁ c₂ (Function.update m₁ p₁ x) (Function.update m₂ p₂ x) := by
  constructor
  · intro q₁ q₂ hq
    have hiff := same_iff h₁ h₂ hq hp
    rcases eq_or_ne q₁ p₁ with rfl | hne
    · obtain rfl := hiff.1 rfl
      rw [Function.update_self, Function.update_self]
    · rw [Function.update_of_ne hne, Function.update_of_ne fun heq => hne (hiff.2 heq)]
      exact h.same q₁ q₂ hq
  · intro ptr hptr
    have hne : ptr ≠ p₁ := by
      rintro rfl
      exact not_stale₁ hp hptr
    rw [Function.update_of_ne hne]
    exact h.gone₁ ptr hptr
  · intro ptr hptr
    have hne : ptr ≠ p₂ := by
      rintro rfl
      exact not_stale₂ hp hptr
    rw [Function.update_of_ne hne]
    exact h.gone₂ ptr hptr

theorem Related.update (h : Related c₁ c₂ t₁ t₂) {p₁ p₂ : ℕ} (hp : Same c₁ c₂ p₁ p₂)
    (x : Option Block) :
    Agree c₁ c₂ (Function.update t₁.mem p₁ x) (Function.update t₂.mem p₂ x) :=
  h.mem.update h.began₁ h.began₂ hp x

theorem Related.fresh (h : Related c₁ c₂ t₁ t₂) :
    Same c₁ c₂ t₁.next t₂.next ∧ ∃ k, t₁.next + 1 = c₁.next + k ∧ t₂.next + 1 = c₂.next + k := by
  rcases h.next with ⟨k, hk₁, hk₂⟩
  refine ⟨Or.inr ⟨k, hk₁, hk₂⟩, k + 1, ?_, ?_⟩
  · rw [hk₁, Nat.add_assoc]
  · rw [hk₂, Nat.add_assoc]

theorem related_write (h : Related c₁ c₂ t₁ t₂) {p₁ p₂ pos : ℕ} {bs : List Byte}
    (hp : Points c₁ c₂ p₁ p₂) (hu₁ : t₁.write p₁ pos bs = .ok u₁)
    (hu₂ : t₂.write p₂ pos bs = .ok u₂) : Related c₁ c₂ u₁ u₂ := by
  rcases write_ok hu₁ with ⟨b₁, hb₁, rfl⟩
  rcases write_ok hu₂ with ⟨b₂, hb₂, rfl⟩
  rcases hp with hp | ⟨hstale, -⟩
  · have hsame := h.mem.same p₁ p₂ hp
    obtain rfl : b₁ = b₂ := Option.some.inj (hb₁.symm.trans (hsame.trans hb₂))
    exact { h with mem := h.update hp _ }
  · -- what is stale cannot be written
    cases hb₁.symm.trans (h.mem.gone₁ p₁ hstale)

theorem related_setView (h : Related c₁ c₂ t₁ t₂) {b₁ b₂ : Buffer}
    (hptr : Points c₁ c₂ b₁.ptr b₂.ptr) (hlen : b₁.len = b₂.len) :
    Related c₁ c₂ (t₁.setView b₁) (t₂.setView b₂) :=
  { h with view := hptr, len := hlen }

theorem related_hold (h : Related c₁ c₂ t₁ t₂) {b₁ b₂ : Buffer}
    (hptr : Points c₁ c₂ b₁.ptr b₂.ptr) : Related c₁ c₂ (t₁.hold b₁) (t₂.hold b₂) :=
  { h with held := List.rel_append h.held (List.Forall₂.cons hptr List.Forall₂.nil) }

theorem related_getOutputBuffer (h : Related c₁ c₂ t₁ t₂) (size : ℕ) :
    Related c₁ c₂ (t₁.getOutputBuffer size) (t₂.getOutputBuffer size) := by
  rcases h.fresh with ⟨hnew, hnext⟩
  unfold getOutputBuffer
  rw [h.size]
  split_ifs with hgrows
  · have hfreed := h.update h.output none
    exact {
      began₁ := h.began₁
      began₂ := h.began₂
      next := hnext
      output := hnew
      size := rfl
      view := Or.inl hnew
      len := rfl
      held := h.held
      mem := hfreed.update h.began₁ h.began₂ hnew _ }
  · exact h

/-- A buffer that is allocated, for the user or for an argument. -/
theorem related_allocate (h : Related c₁ c₂ t₁ t₂) (size len : ℕ)
    (users₁ users₂ args₁ args₂ : List ℕ) :
    Related c₁ c₂
      { t₁.allocate size with
        userBuffers := users₁
        args := args₁
        held := t₁.held ++ [{ ptr := t₁.next, len := len, size := size }] }
      { t₂.allocate size with
        userBuffers := users₂
        args := args₂
        held := t₂.held ++ [{ ptr := t₂.next, len := len, size := size }] } := by
  rcases h.fresh with ⟨hnew, hnext⟩
  exact {
    began₁ := h.began₁
    began₂ := h.began₂
    next := hnext
    output := h.output
    size := h.size
    view := h.view
    len := h.len
    held := List.rel_append h.held (List.Forall₂.cons (Or.inl hnew) List.Forall₂.nil)
    mem := h.update hnew _ }

/-- A buffer that the function holds, in both contexts. -/
theorem Related.held_get (h : Related c₁ c₂ t₁ t₂) {i : ℕ} {b₁ b₂ : Buffer}
    (hb₁ : t₁.held[i]? = some b₁) (hb₂ : t₂.held[i]? = some b₂) :
    Points c₁ c₂ b₁.ptr b₂.ptr := by
  rcases List.getElem?_eq_some_iff.1 hb₁ with ⟨hi₁, rfl⟩
  rcases List.getElem?_eq_some_iff.1 hb₂ with ⟨hi₂, rfl⟩
  exact h.held.get hi₁ hi₂

theorem related_step {o : Op} (h : Related c₁ c₂ t₁ t₂) (hu₁ : t₁.step o = .ok u₁)
    (hu₂ : t₂.step o = .ok u₂) : Related c₁ c₂ u₁ u₂ := by
  cases o with
  | getOutputBuffer size =>
    obtain rfl := Except.ok.inj hu₁
    obtain rfl := Except.ok.inj hu₂
    exact related_getOutputBuffer h size
  | writeView pos bs => exact related_write h h.view hu₁ hu₂
  | setLen len =>
    obtain rfl := Except.ok.inj hu₁
    obtain rfl := Except.ok.inj hu₂
    exact related_setView h h.view rfl
  | copyView =>
    obtain rfl := Except.ok.inj hu₁
    obtain rfl := Except.ok.inj hu₂
    exact related_hold h h.view
  | writeOutput bs pos =>
    rcases writeOutput_ok hu₁ with ⟨v₁, hv₁, rfl⟩
    rcases writeOutput_ok hu₂ with ⟨v₂, hv₂, rfl⟩
    have hv := related_write h (Or.inl h.output) hv₁ hv₂
    exact related_setView hv hv.view (congrArg (max · (pos + bs.length)) hv.len)
  | getBuffer size =>
    obtain rfl := Except.ok.inj hu₁
    obtain rfl := Except.ok.inj hu₂
    exact related_allocate h size 0 _ _ _ _
  | writeHeld i pos bs =>
    rcases withHeld_ok hu₁ with ⟨b₁, hb₁, hu₁⟩
    rcases withHeld_ok hu₂ with ⟨b₂, hb₂, hu₂⟩
    exact related_write h (h.held_get hb₁ hb₂) hu₁ hu₂
  | setOutputBuffer i len =>
    rcases withHeld_ok hu₁ with ⟨b₁, hb₁, hu₁⟩
    rcases withHeld_ok hu₂ with ⟨b₂, hb₂, hu₂⟩
    obtain rfl := Except.ok.inj hu₁
    obtain rfl := Except.ok.inj hu₂
    have hpoints := h.held_get hb₁ hb₂
    exact related_setView h hpoints rfl

/-- The output agrees, up to the name of its buffer. -/
theorem related_result (h : Related c₁ c₂ t₁ t₂) : t₁.result = t₂.result := by
  rw [result_view, result_view, h.len]
  apply List.map_congr_left
  intro i _
  rcases h.view with hsame | ⟨hstale₁, hstale₂⟩
  · rw [h.mem.same _ _ hsame]
  · rw [h.mem.gone₁ _ hstale₁, h.mem.gone₂ _ hstale₂]

/-- Two idle contexts whose outputs have one size start alike. -/
theorem related_start (h₁ : Idle c₁) (h₂ : Idle c₂) (hsize : c₁.output.size = c₂.output.size)
    (howns : c₁.Owns ↔ c₂.Owns) : Related c₁ c₂ c₁.startInvocation c₂.startInvocation := by
  have hoff : ∀ {c : Context}, Idle c → ∀ k, c.startInvocation.mem (c.next + k) = none := by
    intro c h k
    have hgone := h.gone (c.next + k) (by have := h.output; omega)
    simp [startInvocation, hgone]
  have hgone : ∀ {c : Context}, Idle c → ∀ ptr, c.Stale ptr → c.startInvocation.mem ptr = none := by
    intro c h ptr hptr
    simp [startInvocation, h.gone ptr hptr.2]
  have hmem : Agree c₁ c₂ c₁.startInvocation.mem c₂.startInvocation.mem := by
    refine ⟨?_, hgone h₁, hgone h₂⟩
    rintro p₁ p₂ (⟨rfl, rfl⟩ | ⟨k, rfl, rfl⟩)
    · rcases h₁.block with ⟨b₁, hb₁, hsize₁⟩
      rcases h₂.block with ⟨b₂, hb₂, hsize₂⟩
      simp [startInvocation, hb₁, hb₂, hsize₁, hsize₂, hsize]
    · rw [hoff h₁, hoff h₂]
  have hview : Points c₁ c₂ c₁.outputBufView.ptr c₂.outputBufView.ptr := by
    by_cases hown : c₁.Owns
    · exact Or.inl (Or.inl ⟨hown, howns.1 hown⟩)
    · exact Or.inr ⟨⟨h₁.view, hown⟩, h₂.view, fun hown₂ => hown (howns.2 hown₂)⟩
  have hheld : List.Forall₂ (fun b₁ b₂ => Points c₁ c₂ b₁.ptr b₂.ptr) c₁.held c₂.held := by
    rw [h₁.returned, h₂.returned]
    exact List.Forall₂.nil
  exact {
    began₁ := h₁.output
    began₂ := h₂.output
    next := ⟨0, rfl, rfl⟩
    output := Or.inl ⟨rfl, rfl⟩
    size := hsize
    view := hview
    len := rfl
    held := hheld
    mem := hmem }

theorem related_enter (h₁ : Idle c₁) (h₂ : Idle c₂) (hsize : c₁.output.size = c₂.output.size)
    (howns : c₁.Owns ↔ c₂.Owns) (args : List ℕ) :
    Related c₁ c₂ (c₁.enter args) (c₂.enter args) := by
  have hstart := related_start h₁ h₂ hsize howns
  unfold enter
  generalize c₁.startInvocation = s₁ at hstart
  generalize c₂.startInvocation = s₂ at hstart
  -- each argument takes a new buffer in both
  induction args generalizing s₁ s₂ with
  | nil => exact hstart
  | cons size args ih => exact ih _ _ (related_allocate hstart size size _ _ _ _)

theorem isolated_of (h₁ : Idle c₁) (h₂ : Idle c₂) (hsize : c₁.output.size = c₂.output.size)
    (howns : c₁.Owns ↔ c₂.Owns) : Isolated c₁ c₂ := by
  intro args calls t₁ t₂ ht₁ ht₂
  have hstep : ∀ (s t : Context) o s' t', Related c₁ c₂ s t → s.step o = .ok s' →
      t.step o = .ok t' → Related c₁ c₂ s' t' := fun _ _ _ _ _ => related_step
  have hrelated := Lts.run_related hstep (related_enter h₁ h₂ hsize howns args) ht₁ ht₂
  exact related_result hrelated

end Pair

/-! ## What tells them apart -/

/-- One byte is written to the output buffer. -/
theorem write_byte (h : Idle c) (b : Byte) :
    ∃ t, c.startInvocation.writeOutput [b] 0 = .ok t ∧ t.output.size = c.output.size ∧
      t.outputBufView.len = 1 ∧ t.result = [if c.Owns then some b else none] := by
  rcases h.block with ⟨block, hblock, hsize⟩
  have hfits : 0 + [b].length ≤ (Block.new block.size).size := by
    show 1 ≤ block.size
    rw [hsize]
    exact h.positive
  have hwrite : c.startInvocation.write c.output.ptr 0 [b] = .ok { c.startInvocation with
      mem := Function.update c.startInvocation.mem c.output.ptr
        (some ((Block.new block.size).write 0 [b])) } := by
    have hmem : c.startInvocation.mem c.output.ptr = some (Block.new block.size) := by
      simp [startInvocation, hblock]
    unfold write
    rw [hmem]
    exact if_pos hfits
  have hout : c.startInvocation.writeOutput [b] 0 = _ := congrArg (Except.map _) hwrite
  refine ⟨_, hout, rfl, rfl, ?_⟩
  rw [result_view]
  by_cases hown : c.Owns
  · have hptr : c.outputBufView.ptr = c.output.ptr := hown
    simp [startInvocation, hown, hptr, Block.write]
  · have hne : c.outputBufView.ptr ≠ c.output.ptr := hown
    simp [startInvocation, hown, hne, h.gone _ hne]

/-- A larger buffer drops what was written. -/
theorem write_grow (h : Idle c) (b : Byte) (size : ℕ) :
    ∃ t, Lts.run step (c.enter []) [.writeOutput [b] 0, .getOutputBuffer size] = .ok t ∧
      t.result.length = if c.output.size < size then 0 else 1 := by
  rcases write_byte h b with ⟨t, ht, hsize, hlen, _⟩
  refine ⟨t.getOutputBuffer size, Lts.run_cons_ok.2 ⟨t, ht, rfl⟩, ?_⟩
  rw [result_view, List.length_map, List.length_range]
  unfold getOutputBuffer
  rw [hsize]
  by_cases hgrows : c.output.size < size
  · rw [if_pos hgrows, if_pos ⟨Nat.ne_zero_of_lt hgrows, hgrows⟩]
    rfl
  · rw [if_neg hgrows, if_neg fun hboth => hgrows hboth.2]
    exact hlen

section Pair

variable {c₁ c₂ : Context}

theorem Isolated.symm (h : Isolated c₁ c₂) : Isolated c₂ c₁ :=
  fun args calls t₁ t₂ ht₁ ht₂ => (h args calls t₂ t₁ ht₂ ht₁).symm

theorem owns_of_isolated (h₁ : Idle c₁) (h₂ : Idle c₂) (h : Isolated c₁ c₂) :
    c₁.Owns ↔ c₂.Owns := by
  rcases write_byte h₁ 0 with ⟨t₁, ht₁, _, _, hresult₁⟩
  rcases write_byte h₂ 0 with ⟨t₂, ht₂, _, _, hresult₂⟩
  have hsame := h [] [.writeOutput [0] 0] t₁ t₂ (Lts.run_cons_ok.2 ⟨t₁, ht₁, rfl⟩)
    (Lts.run_cons_ok.2 ⟨t₂, ht₂, rfl⟩)
  rw [hresult₁, hresult₂] at hsame
  by_cases hown₁ : c₁.Owns
  · by_cases hown₂ : c₂.Owns
    · exact iff_of_true hown₁ hown₂
    · simp [hown₁, hown₂] at hsame
  · by_cases hown₂ : c₂.Owns
    · simp [hown₁, hown₂] at hsame
    · exact iff_of_false hown₁ hown₂

theorem size_le_of_isolated (h₁ : Idle c₁) (h₂ : Idle c₂) (h : Isolated c₁ c₂) :
    c₂.output.size ≤ c₁.output.size := by
  rcases write_grow h₁ 0 c₂.output.size with ⟨t₁, ht₁, hlength₁⟩
  rcases write_grow h₂ 0 c₂.output.size with ⟨t₂, ht₂, hlength₂⟩
  have hsame := congrArg List.length (h _ _ t₁ t₂ ht₁ ht₂)
  rw [hlength₁, hlength₂, if_neg (lt_irrefl _)] at hsame
  by_contra hlt
  rw [if_pos (not_le.1 hlt)] at hsame
  cases hsame

end Pair

end Context

end Praas.Runtime
