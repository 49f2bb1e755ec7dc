import Mathlib.Tactic
import Praas.Lib.Lts

/-! # Streams of framed messages, cut into chunks

A frame is a header of fixed size and a payload whose length the header
declares. A receiver sees the concatenation of the frames in arbitrary chunks
and calls its parser once after each. Between two calls the parser is idle, or
it waits for the payload of a header it has already taken off the buffer.

* `call again` is one call of the parser: an idle parser consumes every
  complete frame, a waiting one completes its payload and goes on with the rest
  of the buffer only if `again`.
* `feed_again` : with `again` every way of cutting the stream delivers exactly
  the frames.
* `feed_once_iff` : without `again` it does so exactly if the last call does not
  complete a payload with further frames behind it, and `waitAfter` computes
  from the positions of the cuts alone which payload a call waits for.
-/

namespace Framing

variable {β : Type*}

/-- Headers of `size` elements, each declaring the length of its payload. -/
structure Format (β : Type*) where
  size : ℕ
  declared : List β → ℕ
  size_pos : 0 < size

/-- A frame that carries exactly the payload its header declares. -/
structure Frame (F : Format β) where
  header : List β
  payload : List β
  header_length : header.length = F.size
  payload_length : payload.length = F.declared header

variable {F : Format β}

namespace Frame

/-- The frame on the wire. -/
def bytes (f : Frame F) : List β := f.header ++ f.payload

/-- What a parser delivers for the frame. -/
def parts (f : Frame F) : List β × List β := (f.header, f.payload)

@[simp] theorem length_bytes (f : Frame F) :
    f.bytes.length = F.size + f.payload.length := by
  simp [bytes, f.header_length]

end Frame

/-- The frames on the wire, back to back. -/
def stream (fs : List (Frame F)) : List β := fs.flatMap Frame.bytes

@[simp] theorem stream_nil : stream ([] : List (Frame F)) = [] := rfl

@[simp] theorem stream_cons (f : Frame F) (fs : List (Frame F)) :
    stream (f :: fs) = f.header ++ (f.payload ++ stream fs) := by
  simp [stream, Frame.bytes]

@[simp] theorem stream_append (fs gs : List (Frame F)) :
    stream (fs ++ gs) = stream fs ++ stream gs := by
  simp [stream]

/-- Only the empty list of frames has an empty stream. -/
theorem stream_eq_nil {fs : List (Frame F)} : stream fs = [] ↔ fs = [] := by
  cases fs with
  | nil => simp
  | cons f fs =>
    have hf := f.header_length
    have hpos := F.size_pos
    have hne : f.header ≠ [] := by
      intro h
      simp [h] at hf
      omega
    simp [hne]

/-! ## The parser -/

/-- Between two calls: the header whose payload is outstanding, and the unread
part of the buffer. -/
structure Parser (β : Type*) where
  waiting : Option (List β)
  buf : List β

/-- A parser that owes nothing and has nothing to read. -/
def Parser.idle : Parser β := ⟨none, []⟩

variable (F) in
/-- An idle parser consumes complete frames until the buffer has none left. -/
def drain (b : List β) : Parser β × List (List β × List β) :=
  if b.length < F.size then (⟨none, b⟩, [])
  else if (b.drop F.size).length < F.declared (b.take F.size) then
    (⟨some (b.take F.size), b.drop F.size⟩, [])
  else
    let r := drain ((b.drop F.size).drop (F.declared (b.take F.size)))
    (r.1, (b.take F.size, (b.drop F.size).take (F.declared (b.take F.size))) :: r.2)
termination_by b.length
decreasing_by
  have := F.size_pos
  simp only [List.length_drop]
  omega

variable (F) in
/-- One call of the parser, after `chunk` has been appended to the buffer. -/
def call (again : Bool) (p : Parser β) (chunk : List β) :
    Parser β × List (List β × List β) :=
  match p.waiting with
  | none => drain F (p.buf ++ chunk)
  | some hd =>
    let b := p.buf ++ chunk
    if b.length < F.declared hd then (⟨some hd, b⟩, [])
    else if again then
      let r := drain F (b.drop (F.declared hd))
      (r.1, (hd, b.take (F.declared hd)) :: r.2)
    else (⟨none, b.drop (F.declared hd)⟩, [(hd, b.take (F.declared hd))])

variable (F) in
/-- One call after each chunk; the deliveries of all calls in order. -/
def feed (again : Bool) : Parser β → List (List β) → Parser β × List (List β × List β)
  | p, [] => (p, [])
  | p, c :: cs =>
    let r := call F again p c
    let r' := feed again r.1 cs
    (r'.1, r.2 ++ r'.2)

theorem feed_append (again : Bool) (p : Parser β) (cs ds : List (List β)) :
    feed F again p (cs ++ ds) =
      ((feed F again (feed F again p cs).1 ds).1,
        (feed F again p cs).2 ++ (feed F again (feed F again p cs).1 ds).2) := by
  induction cs generalizing p with
  | nil => simp [feed]
  | cons c cs ih => simp [feed, ih]

theorem drain_short {b : List β} (h : b.length < F.size) :
    drain F b = (⟨none, b⟩, []) := by
  rw [drain, if_pos h]

@[simp] theorem drain_nil : drain F ([] : List β) = (⟨none, []⟩, []) :=
  drain_short F.size_pos

theorem drain_header {f : Frame F} {b : List β} (h : b.length < f.payload.length) :
    drain F (f.header ++ b) = (⟨some f.header, b⟩, []) := by
  have hlen : ¬ (f.header ++ b).length < F.size := by simp [f.header_length]
  have htake : (f.header ++ b).take F.size = f.header := by
    rw [← f.header_length, List.take_left]
  have hdrop : (f.header ++ b).drop F.size = b := by
    rw [← f.header_length, List.drop_left]
  rw [drain, if_neg hlen, htake, hdrop, if_pos (by rw [← f.payload_length]; exact h)]

theorem drain_frame (f : Frame F) (b : List β) :
    drain F (f.header ++ (f.payload ++ b)) =
      ((drain F b).1, f.parts :: (drain F b).2) := by
  have hlen : ¬ (f.header ++ (f.payload ++ b)).length < F.size := by
    simp [f.header_length]
  have htake : (f.header ++ (f.payload ++ b)).take F.size = f.header := by
    rw [← f.header_length, List.take_left]
  have hdrop : (f.header ++ (f.payload ++ b)).drop F.size = f.payload ++ b := by
    rw [← f.header_length, List.drop_left]
  rw [drain, if_neg hlen, htake, hdrop, ← f.payload_length, if_neg (by simp),
    List.drop_left, List.take_left]
  rfl

/-- Draining a stream that ends on a frame boundary delivers all of it. -/
theorem drain_stream (fs : List (Frame F)) :
    drain F (stream fs) = (Parser.idle, fs.map Frame.parts) := by
  induction fs with
  | nil => exact drain_nil
  | cons f fs ih => rw [stream_cons, drain_frame, ih]; rfl

/-! ## Positions in a stream -/

/-- The frame whose payload the position `e` lies in: its header is complete,
its payload is not. -/
def payloadAt : List (Frame F) → ℕ → Option ℕ
  | [], _ => none
  | f :: fs, e =>
    if e < F.size then none
    else if e < F.size + f.payload.length then some 0
    else (payloadAt fs (e - (F.size + f.payload.length))).map (· + 1)

/-- The end of the `i`-th frame in the stream. -/
def frameEnd (fs : List (Frame F)) (i : ℕ) : ℕ := (stream (fs.take (i + 1))).length

/-- Which payload is waited for after a call that has received `e` elements in
all: a payload that was waited for stays so until it is complete, and the call
that completes it looks no further. -/
def waitStep (fs : List (Frame F)) (w : Option ℕ) (e : ℕ) : Option ℕ :=
  match w with
  | some i => if e < frameEnd fs i then some i else none
  | none => payloadAt fs e

/-- `waitStep` along chunks of the given lengths, from position `e`. -/
def waitFrom (fs : List (Frame F)) (w : Option ℕ) (e : ℕ) : List ℕ → Option ℕ
  | [] => w
  | n :: ns => waitFrom fs (waitStep fs w (e + n)) (e + n) ns

/-- The payload that is waited for after chunks of the given lengths, as a
function of the frames and the positions of the cuts alone. -/
def waitAfter (fs : List (Frame F)) (ns : List ℕ) : Option ℕ := waitFrom fs none 0 ns

theorem payloadAt_lt {fs : List (Frame F)} {e i : ℕ} (h : payloadAt fs e = some i) :
    i < fs.length := by
  induction fs generalizing e i with
  | nil => cases h
  | cons f fs ih =>
    unfold payloadAt at h
    split_ifs at h
    · obtain rfl := Option.some.inj h
      exact Nat.succ_pos _
    · obtain ⟨j, hj, rfl⟩ := Option.map_eq_some_iff.1 h
      exact Nat.succ_lt_succ (ih hj)

theorem waitStep_lt {fs : List (Frame F)} {w : Option ℕ} (hw : ∀ i, w = some i → i < fs.length)
    (e : ℕ) : ∀ i, waitStep fs w e = some i → i < fs.length := by
  intro i h
  cases w with
  | none => exact payloadAt_lt h
  | some j =>
    unfold waitStep at h
    dsimp only at h
    split_ifs at h
    exact hw i h

/-- The payload that is waited for is that of a frame of the stream. -/
theorem waitAfter_lt {fs : List (Frame F)} {ns : List ℕ} {i : ℕ} (h : waitAfter fs ns = some i) :
    i < fs.length := by
  have key : ∀ (ns : List ℕ) (w : Option ℕ) (e : ℕ), (∀ i, w = some i → i < fs.length) →
      ∀ i, waitFrom fs w e ns = some i → i < fs.length := by
    intro ns
    induction ns with
    | nil =>
      intro w e hw i hi
      exact hw i hi
    | cons n ns ih =>
      intro w e hw i hi
      exact ih _ _ (waitStep_lt hw _) i hi
  exact key ns none 0 (fun j hj => by cases hj) i h

theorem payloadAt_append (done todo : List (Frame F)) (e : ℕ) :
    payloadAt (done ++ todo) ((stream done).length + e) =
      (payloadAt todo e).map (· + done.length) := by
  induction done with
  | nil => simp
  | cons f fs ih =>
    have h1 : ¬ (stream (f :: fs)).length + e < F.size := by
      simp [f.header_length]
      omega
    have h2 : ¬ (stream (f :: fs)).length + e < F.size + f.payload.length := by
      simp [f.header_length]
      omega
    have h3 : (stream (f :: fs)).length + e - (F.size + f.payload.length) =
        (stream fs).length + e := by
      simp [f.header_length]
      omega
    rw [List.cons_append, payloadAt, if_neg h1, if_neg h2, h3, ih]
    cases payloadAt todo e with
    | none => rfl
    | some i => simp; omega

theorem frameEnd_append (done : List (Frame F)) (f : Frame F) (todo : List (Frame F)) :
    frameEnd (done ++ f :: todo) done.length =
      (stream done).length + F.size + f.payload.length := by
  have htake : (done ++ f :: todo).take (done.length + 1) = done ++ [f] := by
    simp [List.take_append]
  simp [frameEnd, htake, f.header_length]
  omega

/-! ## The parser on a prefix of a stream -/

theorem exists_append_of_prefix {a b c d : List β} (h : a ++ b = c ++ d)
    (hlen : c.length ≤ a.length) : ∃ r, a = c ++ r := by
  refine ⟨a.drop c.length, ?_⟩
  have htake := congrArg (List.take c.length) h
  rw [List.take_append_of_le_length hlen, List.take_left] at htake
  conv_lhs => rw [← List.take_append_drop c.length a, htake]

/-- A prefix of a stream has no complete header yet, or the first header but not
its payload, or the first frame and a prefix of the rest. -/
theorem prefix_cases {f : Frame F} {fs : List (Frame F)} {b tail : List β}
    (h : b ++ tail = stream (f :: fs)) :
    b.length < F.size ∨
      (∃ r, b = f.header ++ r ∧ r.length < f.payload.length) ∨
      (∃ r, b = f.header ++ (f.payload ++ r) ∧ r ++ tail = stream fs) := by
  rw [stream_cons] at h
  by_cases hshort : b.length < F.size
  · exact Or.inl hshort
  · obtain ⟨r, rfl⟩ := exists_append_of_prefix h (by rw [f.header_length]; omega)
    rw [List.append_assoc, List.append_cancel_left_eq] at h
    by_cases hpay : r.length < f.payload.length
    · exact Or.inr (Or.inl ⟨r, rfl, hpay⟩)
    · obtain ⟨r', rfl⟩ := exists_append_of_prefix h (by omega)
      rw [List.append_assoc, List.append_cancel_left_eq] at h
      exact Or.inr (Or.inr ⟨r', rfl, h⟩)

/-- What an idle parser makes of a prefix of a stream: it delivers the complete
frames, and waits for a payload exactly if the prefix ends inside one. -/
theorem drain_prefix (fs : List (Frame F)) (b tail : List β) (h : b ++ tail = stream fs) :
    ∃ done todo, fs = done ++ todo ∧ (drain F b).2 = done.map Frame.parts ∧
      ((∃ r, (drain F b).1 = ⟨none, r⟩ ∧ b = stream done ++ r ∧
          payloadAt fs b.length = none) ∨
       (∃ f rest r, todo = f :: rest ∧ (drain F b).1 = ⟨some f.header, r⟩ ∧
          b = stream done ++ (f.header ++ r) ∧ r.length < f.payload.length ∧
          payloadAt fs b.length = some done.length)) := by
  induction fs generalizing b with
  | nil =>
    have hb : b = [] := by
      have := congrArg List.length h
      simp at this
      exact this.1
    subst hb
    exact ⟨[], [], rfl, by simp, Or.inl ⟨[], by simp, by simp, rfl⟩⟩
  | cons f fs ih =>
    rcases prefix_cases h with hshort | ⟨b', rfl, hpay⟩ | ⟨b'', rfl, hrest⟩
    · -- not even the header is there
      refine ⟨[], f :: fs, rfl, ?_, Or.inl ⟨b, ?_, by simp, ?_⟩⟩
      · rw [drain_short hshort]; rfl
      · rw [drain_short hshort]
      · simp [payloadAt, hshort]
    · -- the header is there, the payload is not
      refine ⟨[], f :: fs, rfl, ?_, Or.inr ⟨f, fs, b', rfl, ?_, by simp, hpay, ?_⟩⟩
      · rw [drain_header hpay]; rfl
      · rw [drain_header hpay]
      · simp [payloadAt, f.header_length, hpay]
    · -- the whole frame is there
      obtain ⟨done, todo, hfs, hout, hcase⟩ := ih b'' hrest
      have hpos : payloadAt (f :: fs) (f.header ++ (f.payload ++ b'')).length =
          (payloadAt fs b''.length).map (· + 1) := by
        have hstep := payloadAt_append [f] fs b''.length
        simpa [f.header_length, Nat.add_assoc] using hstep
      refine ⟨f :: done, todo, by rw [hfs]; rfl, ?_, ?_⟩
      · rw [drain_frame, hout]; rfl
      · rw [drain_frame, hpos]
        rcases hcase with ⟨r, h1, h2, h3⟩ | ⟨g, rest, r, h1, h2, h3, h4, h5⟩
        · refine Or.inl ⟨r, h1, ?_, by rw [h3]; rfl⟩
          rw [stream_cons, List.append_assoc, List.append_assoc, ← h2]
        · refine Or.inr ⟨g, rest, r, h1, h2, ?_, h4, by rw [h5]; rfl⟩
          rw [stream_cons, List.append_assoc, List.append_assoc, ← h3]

/-! ## What a parser still owes -/

/-- The frames `todo` are still to be delivered: they are the header in hand, the
buffer and the elements `rest` that have yet to arrive. -/
inductive Owes (rest : List β) : Parser β → List (Frame F) → Prop where
  | idle (b : List β) (todo : List (Frame F)) :
      b ++ rest = stream todo → Owes rest ⟨none, b⟩ todo
  | waiting (f : Frame F) (b : List β) (todo : List (Frame F)) :
      b.length < f.payload.length → b ++ rest = f.payload ++ stream todo →
      Owes rest ⟨some f.header, b⟩ (f :: todo)

/-- A call on a prefix of what is still to come delivers the first of the frames
that are owed, and owes the others. -/
theorem owes_call (again : Bool) {p : Parser β} {c rest : List β} {todo : List (Frame F)}
    (h : Owes (c ++ rest) p todo) :
    ∃ done todo', todo = done ++ todo' ∧ (call F again p c).2 = done.map Frame.parts ∧
      Owes rest (call F again p c).1 todo' := by
  -- draining a buffer that begins with a header
  have hdrain : ∀ (b : List β) (fs : List (Frame F)), b ++ rest = stream fs →
      ∃ done todo', fs = done ++ todo' ∧ (drain F b).2 = done.map Frame.parts ∧
        Owes rest (drain F b).1 todo' := by
    intro b fs hb
    obtain ⟨done, todo', hfs, hout, hcase⟩ := drain_prefix fs b rest hb
    refine ⟨done, todo', hfs, hout, ?_⟩
    rw [hfs, stream_append] at hb
    rcases hcase with ⟨r, h1, h2, -⟩ | ⟨f, fs', r, h1, h2, h3, h4, -⟩
    · rw [h2, List.append_assoc, List.append_cancel_left_eq] at hb
      rw [h1]
      exact Owes.idle r todo' hb
    · rw [h3, h1, stream_cons, List.append_assoc, List.append_cancel_left_eq,
        List.append_assoc, List.append_cancel_left_eq] at hb
      rw [h1, h2]
      exact Owes.waiting f r fs' h4 hb
  cases h with
  | idle b _ hb => exact hdrain (b ++ c) todo (by rw [List.append_assoc]; exact hb)
  | waiting f b fs hshort hb =>
    rw [← List.append_assoc] at hb
    by_cases hlen : (b ++ c).length < f.payload.length
    · -- the payload is still not complete
      have hcall : call F again ⟨some f.header, b⟩ c = (⟨some f.header, b ++ c⟩, []) := by
        simp only [call]
        rw [if_pos (by rw [← f.payload_length]; exact hlen)]
      rw [hcall]
      exact ⟨[], f :: fs, rfl, rfl, Owes.waiting f (b ++ c) fs hlen hb⟩
    · -- it is delivered, and what is behind it is drained now or at the next call
      obtain ⟨r, hr⟩ := exists_append_of_prefix hb (by omega)
      rw [hr, List.append_assoc, List.append_cancel_left_eq] at hb
      have hcall : call F again ⟨some f.header, b⟩ c =
          if again then ((drain F r).1, f.parts :: (drain F r).2) else (⟨none, r⟩, [f.parts]) := by
        simp only [call]
        rw [if_neg (by rw [← f.payload_length]; exact hlen), hr, ← f.payload_length,
          List.drop_left, List.take_left]
        rfl
      rw [hcall]
      cases again with
      | true =>
        obtain ⟨done, todo', hfs, hout, howes⟩ := hdrain r fs hb
        exact ⟨f :: done, todo', by rw [hfs]; rfl, by simp [hout], howes⟩
      | false => exact ⟨[f], fs, rfl, rfl, Owes.idle r fs hb⟩

/-- The same for any number of calls. -/
theorem owes_feed (again : Bool) {p : Parser β} {cs : List (List β)} {rest : List β}
    {todo : List (Frame F)} (h : Owes (cs.flatten ++ rest) p todo) :
    ∃ done todo', todo = done ++ todo' ∧ (feed F again p cs).2 = done.map Frame.parts ∧
      Owes rest (feed F again p cs).1 todo' := by
  induction cs generalizing p todo with
  | nil => exact ⟨[], todo, rfl, rfl, by simpa [feed] using h⟩
  | cons c cs ih =>
    rw [List.flatten_cons, List.append_assoc] at h
    obtain ⟨done, todo', htodo, hout, howes⟩ := owes_call again h
    obtain ⟨done', todo'', htodo', hout', howes'⟩ := ih howes
    refine ⟨done ++ done', todo'', ?_, ?_, howes'⟩
    · rw [htodo, htodo', List.append_assoc]
    · rw [feed, hout, hout', List.map_append]

/-- At the end of the stream nothing is owed beyond what is in the buffer. -/
theorem owes_nil {p : Parser β} {todo : List (Frame F)} (h : Owes [] p todo) (hbuf : p.buf = []) :
    todo = [] := by
  cases h with
  | idle b _ hb =>
    obtain rfl : b = [] := hbuf
    exact stream_eq_nil.1 hb.symm
  | waiting f b fs hshort hb =>
    rw [List.append_nil] at hb
    rw [hb, List.length_append] at hshort
    exact absurd hshort (not_lt.2 (Nat.le_add_right _ _))

/-- An idle parser at the end of the stream owes nothing. -/
theorem owes_nil_idle {todo : List (Frame F)} (h : Owes [] Parser.idle todo) : todo = [] :=
  owes_nil h rfl

/-- More frames follow on the stream. -/
theorem Owes.append {rest : List β} {p : Parser β} {todo : List (Frame F)} (h : Owes rest p todo)
    (fs : List (Frame F)) : Owes (rest ++ stream fs) p (todo ++ fs) := by
  cases h with
  | idle b _ hb =>
    refine .idle b _ ?_
    rw [← List.append_assoc, hb, stream_append]
  | waiting f b todo hshort hb =>
    refine .waiting f b (todo ++ fs) hshort ?_
    rw [← List.append_assoc, hb, stream_append, List.append_assoc]

/-- The rest of a single frame completes it, in either branch. -/
theorem call_whole (again : Bool) {p : Parser β} {c : List β} {f : Frame F}
    (h : Owes c p [f]) : call F again p c = (Parser.idle, [f.parts]) := by
  cases h with
  | idle b _ hb =>
    unfold call
    dsimp only
    rw [hb]
    exact drain_stream [f]
  | waiting _ b _ hlt hb =>
    have hpayload : b ++ c = f.payload := by simpa using hb
    have hlen : f.payload.length = F.declared f.header := f.payload_length
    unfold call
    dsimp only
    rw [hpayload, if_neg (by omega), ← hlen, List.drop_length, List.take_length, drain_nil]
    cases again <;> rfl

/-- A part of it does not. -/
theorem call_part (again : Bool) {p : Parser β} {c rest : List β} {f : Frame F}
    (h : Owes (c ++ rest) p [f]) (hrest : rest ≠ []) :
    (call F again p c).2 = [] ∧ Owes rest (call F again p c).1 [f] := by
  rcases owes_call again h with ⟨done, todo', htodo, hparts, howes⟩
  rcases done with _ | ⟨g, done⟩
  · obtain rfl : [f] = todo' := htodo
    exact ⟨hparts, howes⟩
  · -- the rest belongs to no frame
    obtain ⟨-, rfl⟩ : done = [] ∧ todo' = [] := List.append_eq_nil_iff.1 (List.cons.inj htodo).2.symm
    exfalso
    generalize (call F again p c).1 = q at howes
    cases howes with
    | idle b _ hb => exact hrest (List.append_eq_nil_iff.1 hb).2

/-- A receiver that on every call does what the parser does, or raises because
of a frame it cannot take, does so along a whole stream. `Rep` relates its
states to the parser's, `out` is what it has handed on, `deliver` what it makes
of one delivery and `Takes` says which it can take. -/
theorem feed_simulation {σ ε γ : Type*} {recv : σ → List β → Except ε σ}
    {Rep : σ → Parser β → Prop} {out : σ → List γ} {deliver : List β × List β → List γ}
    {Good : Frame F → Prop} {Takes : List β × List β → Prop} {again : Bool}
    (hcall : ∀ s p c rest todo, Owes (c ++ rest) p todo → (∀ f ∈ todo, Good f) → Rep s p →
      (∃ s', recv s c = .ok s' ∧ Rep s' (call F again p c).1 ∧
        out s' = out s ++ (call F again p c).2.flatMap deliver ∧
        ∀ q ∈ (call F again p c).2, Takes q) ∨
      (∃ x, recv s c = .error x ∧ ∃ f ∈ todo, ¬ Takes f.parts))
    (cs : List (List β)) (s : σ) (p : Parser β) (todo : List (Frame F))
    (howes : Owes cs.flatten p todo) (hgood : ∀ f ∈ todo, Good f) (hrep : Rep s p) :
    (∃ s', Lts.run recv s cs = .ok s' ∧ Rep s' (feed F again p cs).1 ∧
      out s' = out s ++ (feed F again p cs).2.flatMap deliver ∧
      ∀ q ∈ (feed F again p cs).2, Takes q) ∨
    (∃ x, Lts.run recv s cs = .error x ∧ ∃ f ∈ todo, ¬ Takes f.parts) := by
  induction cs generalizing s p todo with
  | nil => exact Or.inl ⟨s, rfl, hrep, by simp [feed], by simp [feed]⟩
  | cons c cs ih =>
    obtain ⟨done, todo', htodo, -, howes'⟩ := owes_call again howes
    have hmem : ∀ f ∈ todo', f ∈ todo := by
      intro f hf
      rw [htodo]
      exact List.mem_append_right _ hf
    rcases hcall s p c cs.flatten todo howes hgood hrep with
      ⟨s', hs', hrep', hout', htakes'⟩ | ⟨x, hx, hbad⟩
    · rcases ih s' _ todo' howes' (fun f hf => hgood f (hmem f hf)) hrep' with
        ⟨s'', hs'', hrep'', hout'', htakes''⟩ | ⟨x, hx, f, hf, hbad⟩
      · refine Or.inl ⟨s'', Lts.run_cons_ok.2 ⟨s', hs', hs''⟩, hrep'', ?_, ?_⟩
        · rw [hout'', hout', feed, List.flatMap_append, List.append_assoc]
        · intro q hq
          rcases List.mem_append.1 hq with hq | hq
          · exact htakes' q hq
          · exact htakes'' q hq
      · exact Or.inr ⟨x, by simpa [Lts.run, hs'] using hx, f, hmem f hf, hbad⟩
    · exact Or.inr ⟨x, by simp [Lts.run, hx], hbad⟩

/-- Where the parser stands after it has received `got`, a prefix of the stream
of `fs`, delivered `out`, and by the positions of the cuts waits for `w`. -/
inductive Stands (fs : List (Frame F)) (got : List β) :
    Parser β → List (List β × List β) → Option ℕ → Prop where
  | idle (done todo : List (Frame F)) (r : List β) :
      fs = done ++ todo → got = stream done ++ r →
      Stands fs got ⟨none, r⟩ (done.map Frame.parts) none
  | waiting (done : List (Frame F)) (f : Frame F) (todo : List (Frame F)) (r : List β) :
      fs = done ++ f :: todo → got = stream done ++ (f.header ++ r) →
      r.length < f.payload.length →
      Stands fs got ⟨some f.header, r⟩ (done.map Frame.parts) (some done.length)

theorem stands_drain {fs done todo : List (Frame F)} {b tail : List β}
    (hfs : fs = done ++ todo) (hb : b ++ tail = stream todo) :
    Stands fs (stream done ++ b) (drain F b).1
      (done.map Frame.parts ++ (drain F b).2)
      (payloadAt fs (stream done ++ b).length) := by
  obtain ⟨done', todo', htodo, hout, hcase⟩ := drain_prefix todo b tail hb
  have hpos : payloadAt fs (stream done ++ b).length =
      (payloadAt todo b.length).map (· + done.length) := by
    rw [hfs, List.length_append, payloadAt_append]
  rw [hout, hpos, ← List.map_append]
  rcases hcase with ⟨r, h1, h2, h3⟩ | ⟨f, rest, r, h1, h2, h3, h4, h5⟩
  · rw [h1, h3]
    refine Stands.idle _ todo' r ?_ ?_
    · rw [hfs, htodo, List.append_assoc]
    · rw [h2, stream_append, List.append_assoc]
  · have hlen : (some done'.length).map (· + done.length) =
        some (done ++ done').length := by simp [Nat.add_comm]
    rw [h2, h5, hlen]
    refine Stands.waiting _ f rest r ?_ ?_ h4
    · rw [hfs, htodo, h1, List.append_assoc]
    · rw [h3, stream_append, List.append_assoc]

/-- One call of a parser that looks no further after a resumed payload. -/
theorem stands_call {fs : List (Frame F)} {got : List β} (c tail : List β) {p : Parser β}
    {out : List (List β × List β)} {w : Option ℕ}
    (hall : got ++ c ++ tail = stream fs) (h : Stands fs got p out w) :
    Stands fs (got ++ c) (call F false p c).1 (out ++ (call F false p c).2)
      (waitStep fs w (got ++ c).length) := by
  cases h with
  | idle done todo r hfs hgot =>
    have hrest : (r ++ c) ++ tail = stream todo := by
      rw [hgot, hfs, stream_append] at hall
      simpa [List.append_assoc] using hall
    have hstand := stands_drain hfs hrest
    rw [← List.append_assoc, ← hgot] at hstand
    exact hstand
  | waiting done f todo r hfs hgot hr =>
    have hend : frameEnd fs done.length = (stream done).length + F.size + f.payload.length := by
      rw [hfs, frameEnd_append]
    have hlen : (got ++ c).length = (stream done).length + F.size + (r ++ c).length := by
      rw [hgot]
      simp [f.header_length]
      omega
    by_cases hshort : (r ++ c).length < f.payload.length
    · have hcall : call F false ⟨some f.header, r⟩ c = (⟨some f.header, r ++ c⟩, []) := by
        simp only [call]
        rw [if_pos (by rw [← f.payload_length]; exact hshort)]
      have hw : waitStep fs (some done.length) (got ++ c).length = some done.length := by
        simp only [waitStep]
        rw [if_pos (by rw [hend, hlen]; omega)]
      rw [hcall, hw, List.append_nil]
      exact Stands.waiting done f todo _ hfs (by rw [hgot]; simp [List.append_assoc]) hshort
    · -- the payload is complete; what follows it stays in the buffer
      have hrest : (r ++ c) ++ tail = f.payload ++ stream todo := by
        rw [hgot, hfs, stream_append, stream_cons] at hall
        simpa [List.append_assoc] using hall
      obtain ⟨b, hb⟩ := exists_append_of_prefix hrest (by omega)
      have hcall : call F false ⟨some f.header, r⟩ c = (⟨none, b⟩, [f.parts]) := by
        simp only [call]
        rw [if_neg (by rw [← f.payload_length]; exact hshort), hb, ← f.payload_length,
          List.drop_left, List.take_left]
        rfl
      have hw : waitStep fs (some done.length) (got ++ c).length = none := by
        simp only [waitStep]
        rw [if_neg (by rw [hend, hlen]; omega)]
      have hout : done.map Frame.parts ++ [f.parts] = (done ++ [f]).map Frame.parts := by simp
      rw [hcall, hw, hout]
      refine Stands.idle _ todo b (by simp [hfs]) ?_
      rw [hgot, stream_append, stream_cons]
      simp [List.append_assoc, hb]

theorem stands_feed {fs : List (Frame F)} {cs : List (List β)} {got tail : List β}
    {p : Parser β} {out : List (List β × List β)} {w : Option ℕ}
    (hall : got ++ cs.flatten ++ tail = stream fs) (h : Stands fs got p out w) :
    Stands fs (got ++ cs.flatten) (feed F false p cs).1 (out ++ (feed F false p cs).2)
      (waitFrom fs w got.length (cs.map List.length)) := by
  induction cs generalizing got p out w with
  | nil => simpa [feed, waitFrom] using h
  | cons c cs ih =>
    have hall' : (got ++ c) ++ cs.flatten ++ tail = stream fs := by
      simpa [List.append_assoc] using hall
    have hcall := stands_call c (cs.flatten ++ tail)
      (by simpa [List.append_assoc] using hall') h
    have hrest := ih hall' hcall
    simpa [feed, waitFrom, List.append_assoc] using hrest

theorem stands_start (fs : List (Frame F)) : Stands fs [] Parser.idle [] none :=
  Stands.idle [] fs [] rfl rfl

/-- After all chunks of a stream but the last, the parser waits for the payload
that `waitAfter` names. -/
theorem stands_before {fs : List (Frame F)} {cs : List (List β)} {c : List β}
    (hcs : (cs ++ [c]).flatten = stream fs) :
    Stands fs cs.flatten (feed F false Parser.idle cs).1 (feed F false Parser.idle cs).2
      (waitAfter fs (cs.map List.length)) := by
  have hall : ([] : List β) ++ cs.flatten ++ c = stream fs := by simpa using hcs
  simpa [waitAfter] using stands_feed hall (stands_start fs)

/-- **Resuming once.** A parser that stops after a resumed payload delivers the
frames of the stream and ends idle exactly if, before the last chunk, it waits
for no payload but possibly that of the last frame. -/
theorem feed_once_iff (fs : List (Frame F)) (cs : List (List β)) (c : List β)
    (hcs : (cs ++ [c]).flatten = stream fs) :
    feed F false Parser.idle (cs ++ [c]) = (Parser.idle, fs.map Frame.parts) ↔
      ∀ i, waitAfter fs (cs.map List.length) = some i → i + 1 = fs.length := by
  have hbefore := stands_before hcs
  have hflat : cs.flatten ++ c = stream fs := by simpa using hcs
  rw [feed_append]
  generalize (feed F false Parser.idle cs).2 = out at hbefore
  generalize (feed F false Parser.idle cs).1 = p at hbefore
  generalize waitAfter fs (cs.map List.length) = w at hbefore
  cases hbefore with
  | idle done todo r hfs hgot =>
    have hrest : r ++ c = stream todo := by
      rw [hgot, hfs, stream_append] at hflat
      simpa [List.append_assoc] using hflat
    simp [feed, call, hrest, drain_stream, hfs]
  | waiting done f todo r hfs hgot hr =>
    have hrest : r ++ c = f.payload ++ stream todo := by
      rw [hgot, hfs, stream_append, stream_cons] at hflat
      simpa [List.append_assoc] using hflat
    have hcall : call F false ⟨some f.header, r⟩ c = (⟨none, stream todo⟩, [f.parts]) := by
      simp only [call]
      rw [hrest, if_neg (by rw [← f.payload_length]; simp), ← f.payload_length,
        List.drop_left, List.take_left]
      rfl
    -- the parser stops behind this frame, with all later ones in its buffer
    simp only [feed, hcall, hfs]
    constructor
    · intro h i hi
      have hnil : stream todo = [] := by
        simpa [Parser.idle] using congrArg (fun q => q.1.buf) h
      obtain rfl : done.length = i := by simpa using hi
      simp [stream_eq_nil.1 hnil]
    · intro h
      have hlast := h done.length rfl
      have htodo : todo = [] := by
        have : todo.length = 0 := by
          rw [List.length_append, List.length_cons] at hlast
          omega
        exact List.length_eq_zero_iff.1 this
      simp [htodo, Parser.idle]

/-! ## A parser that goes on after a resumed payload -/

/-- With `again` a call of a waiting parser drains the header and the buffer
together, as if the header had not been taken off yet. -/
theorem call_again_eq_drain {p : Parser β} {c hd : List β} (hlen : hd.length = F.size)
    (hp : p.waiting = some hd) :
    call F true p c = drain F (hd ++ (p.buf ++ c)) := by
  have htake : (hd ++ (p.buf ++ c)).take F.size = hd := by rw [← hlen, List.take_left]
  have hdrop : (hd ++ (p.buf ++ c)).drop F.size = p.buf ++ c := by
    rw [← hlen, List.drop_left]
  have hbig : ¬ (hd ++ (p.buf ++ c)).length < F.size := by
    rw [List.length_append, hlen]
    omega
  rw [drain, if_neg hbig, htake, hdrop]
  simp only [call, hp]
  by_cases h : (p.buf ++ c).length < F.declared hd
  · rw [if_pos h, if_pos h]
  · rw [if_neg h, if_neg h]
    rfl

/-- **Resuming and going on.** However the stream is cut, the frames are
delivered and the parser ends idle. -/
theorem feed_again (fs : List (Frame F)) (cs : List (List β)) (hcs : cs.flatten = stream fs) :
    feed F true Parser.idle cs = (Parser.idle, fs.map Frame.parts) := by
  -- the header that has been taken off, put back in front of the buffer
  have key : ∀ (cs : List (List β)) (p : Parser β) (todo : List (Frame F)),
      (∀ hd, p.waiting = some hd → hd.length = F.size) →
      drain F (p.waiting.getD [] ++ p.buf) = (p, []) →
      (p.waiting.getD [] ++ p.buf) ++ cs.flatten = stream todo →
      feed F true p cs = (Parser.idle, todo.map Frame.parts) := by
    intro cs
    induction cs with
    | nil =>
      intro p todo _ hp hall
      rw [List.flatten_nil, List.append_nil] at hall
      rw [hall, drain_stream] at hp
      simpa [feed] using hp.symm
    | cons c cs ih =>
      intro p todo hwait hp hall
      have hcall : call F true p c = drain F ((p.waiting.getD [] ++ p.buf) ++ c) := by
        cases hw : p.waiting with
        | none => simp [call, hw]
        | some hd => simpa [List.append_assoc] using call_again_eq_drain (hwait hd hw) hw
      have hall' : ((p.waiting.getD [] ++ p.buf) ++ c) ++ cs.flatten = stream todo := by
        simpa [List.append_assoc] using hall
      obtain ⟨done, rest, htodo, hout, hcase⟩ := drain_prefix todo _ _ hall'
      simp only [feed, hcall, hout, htodo, List.map_append]
      rcases hcase with ⟨r, h1, h2, _⟩ | ⟨f, rest', r, h1, h2, h3, h4, _⟩
      · rw [h2, htodo, stream_append, List.append_assoc, List.append_cancel_left_eq] at hall'
        have hdr : drain F r = (⟨none, r⟩, []) := by
          have hidem : drain F (stream done ++ r) =
              ((drain F r).1, done.map Frame.parts ++ (drain F r).2) := by
            clear hall' h2 hout htodo h1
            induction done with
            | nil => simp
            | cons f fs ihd =>
              rw [stream_cons, List.append_assoc, List.append_assoc, drain_frame, ihd]
              rfl
          rw [← h2] at hidem
          have e1 : (drain F r).1 = ⟨none, r⟩ := by rw [← h1, hidem]
          have e2 : (drain F r).2 = [] := by
            rw [hidem] at hout
            simpa using hout
          exact Prod.ext e1 e2
        have := ih ⟨none, r⟩ rest (by simp) (by simpa using hdr) (by simpa using hall')
        rw [h1, this]
      · rw [h3, htodo, stream_append, List.append_assoc, List.append_cancel_left_eq] at hall'
        have := ih ⟨some f.header, r⟩ rest (by simp [f.header_length])
          (by simpa using drain_header h4) (by simpa using hall')
        rw [h2, this]
  have hstart : drain F ((Parser.idle : Parser β).waiting.getD [] ++ (Parser.idle : Parser β).buf) =
      (Parser.idle, []) := drain_short F.size_pos
  exact key cs Parser.idle fs (by simp [Parser.idle]) hstart (by simpa [Parser.idle] using hcs)

end Framing
