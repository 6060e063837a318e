/-
  File:      Ece358/ByteQueue.lean
  Subject:   `msg_buffer_t` as a queue of bytes and end marks.

  A buffer stands for its `tape`: the unread bytes of its messages, with a mark for each EOS marker.
  So does any sequence of calls, from the empty buffer on.

  * `readInto` -- `read` with the caller's array, as the source writes it;
  * `BufferOp`, `BufferUse` -- any sequence of the two methods, with the bytes that went in and out;
  * `Conforms`, `buffer_conforms` -- what holds after each of them.
-/
import Ece358.Lib.Transition
import Ece358.MsgBuffer

namespace Ece358.Rcs

open Lib Marked MsgT

namespace MsgBufferT

/-! ## 1. The array that is read into -/

/-- memcpy(dest + written, bytes, ...), within the array. -/
def copyTo (written : Nat) (bytes dest : List UInt8) : List UInt8 :=
  dest.take written ++ bytes ++ dest.drop (written + bytes.length)

/-- The loop of `read`; `dest` is all of the caller's array, of which `written` bytes are done. -/
def readIntoLoop : List MsgT → Nat → Nat → Nat → List UInt8 → (Nat × List UInt8) × List MsgT × Nat
  | [], offset, _, written, dest => ((written, dest), [], offset)
  | front :: rest, offset, length, written, dest =>
    if length = 0 then ((written, dest), front :: rest, offset)
    else if front.hasFlag EOS then
      if written ≠ 0 then ((written, dest), rest, offset)
      else readIntoLoop rest offset length written dest
    else
      let toCopy := min length (front.length.toNat - offset)
      let dest' := copyTo written ((front.data.drop offset).take toCopy) dest
      if front.length.toNat ≤ offset + toCopy then
        readIntoLoop rest 0 (length - toCopy) (written + toCopy) dest'
      else ((written + toCopy, dest'), front :: rest, offset + toCopy)

/-- `read(dest, length)`: its result and the array behind it, and the deque and `offset_`. -/
def readInto (b : MsgBufferT) (dest : List UInt8) (length : Nat) :
    (Nat × List UInt8) × List MsgT × Nat := readIntoLoop b.buffer_ b.offset_ length 0 dest

theorem copyTo_behind (written bytes rest : List UInt8) :
    copyTo written.length bytes (written ++ rest) =
      written ++ bytes ++ rest.drop bytes.length := by
  rw [copyTo, List.take_left, ← List.drop_drop, List.drop_left]

/-- The loop writes the bytes one behind the other, and nothing behind them. -/
theorem readIntoLoop_eq {q : List MsgT} (hq : ∀ m ∈ q, m.length.toNat ≤ MAX_DATA_LENGTH)
    (off L : Nat) (w rest : List UInt8) :
    ∃ taken, (readLoop q off L w).1 = w ++ taken ∧
      readIntoLoop q off L w.length (w ++ rest) =
        (((w ++ taken).length, w ++ taken ++ rest.drop taken.length), (readLoop q off L w).2) := by
  induction q generalizing off L w rest with
  | nil => exact ⟨[], by simp [readLoop], by simp [readLoop, readIntoLoop]⟩
  | cons m q ih =>
    have hq' := fun m' hm' => hq m' (List.mem_cons_of_mem m hm')
    unfold readLoop readIntoLoop
    by_cases hL : L = 0
    · rw [if_pos hL, if_pos hL]
      exact ⟨[], by simp, by simp⟩
    rw [if_neg hL, if_neg hL]
    by_cases he : m.hasFlag EOS = true
    · rw [if_pos he, if_pos he]
      by_cases hw : w = []
      · subst hw
        simp only [ne_eq, not_true_eq_false, if_false, List.length_nil]
        exact ih hq' off L [] rest
      · have hw' : w.length ≠ 0 := fun e => hw (List.eq_nil_of_length_eq_zero e)
        rw [if_pos hw, if_pos hw']
        exact ⟨[], by simp, by simp⟩
    · rw [if_neg he, if_neg he]
      dsimp only
      have hm := hq m List.mem_cons_self
      have hn : min L (m.length.toNat - off) ≤ (m.data.drop off).length := by
        rw [List.length_drop, m.size_data]
        omega
      generalize min L (m.length.toNat - off) = n at hn ⊢
      have hcopied : ((m.data.drop off).take n).length = n := by
        rw [List.length_take, Nat.min_eq_left hn]
      generalize (m.data.drop off).take n = copied at hcopied ⊢
      subst hcopied
      rw [copyTo_behind, ← List.length_append]
      split
      · obtain ⟨taken, h1, h2⟩ := ih hq' 0 (L - copied.length) (w ++ copied)
          (rest.drop copied.length)
        refine ⟨copied ++ taken, by rw [← List.append_assoc]; exact h1, ?_⟩
        rw [h2, List.append_assoc w copied taken, List.drop_drop, ← List.length_append]
      · exact ⟨copied, rfl, rfl⟩

/-- `read` returns the number of bytes it takes, and writes them, and nothing behind them. -/
theorem readInto_eq {b : MsgBufferT} (hb : ∀ m ∈ b.buffer_, m.length.toNat ≤ MAX_DATA_LENGTH)
    (dest : List UInt8) (L : Nat) :
    b.readInto dest L =
      (((b.read L).1.length, (b.read L).1 ++ dest.drop (b.read L).1.length),
        (b.read L).2.buffer_, (b.read L).2.offset_) := by
  obtain ⟨taken, h1, h2⟩ := readIntoLoop_eq hb b.offset_ L [] dest
  rw [List.nil_append] at h1
  have hread : (b.read L).1 = taken := h1
  have hloop : b.readInto dest L = _ := h2
  rw [hloop, hread]
  rfl

/-! ## 2. Any sequence of calls -/

/-- The shapes of the messages that send emits: data fragments, and EOS markers. -/
def Emitted (m : MsgT) : Prop :=
  (m.hasFlag EOS = false ∧ 1 ≤ m.length.toNat ∧ m.length.toNat ≤ MAX_DATA_LENGTH) ∨
    (m.hasFlag EOS = true ∧ m.length = 0)

end MsgBufferT

inductive BufferOp where
  | queueMessage (msg : MsgT)
  | read (length : Nat)

/-- A buffer in use, with the bytes that were queued and returned so far. -/
structure BufferUse where
  buffer : MsgBufferT
  queued : List UInt8
  returned : List UInt8

/-- The use of a new buffer. -/
def BufferUse.new : BufferUse := ⟨.new, [], []⟩

/-- One call; `read` is not called on an empty buffer. -/
def BufferUse.step (u : BufferUse) : BufferOp → Option BufferUse
  | .queueMessage msg => some { u with
      buffer := u.buffer.queueMessage msg
      queued := u.queued ++ symbols (MsgBufferT.tapeOf msg) }
  | .read length =>
    if u.buffer.empty then none
    else some { u with
      buffer := (u.buffer.read length).2
      returned := u.returned ++ (u.buffer.read length).1 }

/-- Only what send emits is queued. -/
def BufferUse.sendsOnly (_ : BufferUse) : BufferOp → Prop
  | .queueMessage msg => MsgBufferT.Emitted msg
  | .read _ => True

/-- A call on the tape. -/
def BufferOp.onTape (q : Marked UInt8) : BufferOp → Marked UInt8
  | .queueMessage msg => q ++ MsgBufferT.tapeOf msg
  | .read length => (readMarked length q).2

/-- A read of `length` bytes into `dest`. It skips the marks in front, and `n` unread bytes stand
    there before the next mark, or the end. -/
structure ReadsAsQueue (b : MsgBufferT) (length : Nat) (dest : List UInt8) (n : Nat) : Prop where
  before_mark : n = (Marked.front (skip b.tape)).length
  result : (b.readInto dest length).1.1 = min length n
  array : (b.readInto dest length).1.2 =
    (symbols b.tape).take (min length n) ++ dest.drop (min length n)
  leaves : (b.read length).2.tape = (readMarked length b.tape).2
  deque : (b.readInto dest length).2 = ((b.read length).2.buffer_, (b.read length).2.offset_)
  progress : 0 < length → 1 ≤ (b.readInto dest length).1.1

/-- What holds behind every call. -/
structure Conforms (u : BufferUse) : Prop where
  size : u.buffer.totalSize_ = (symbols u.buffer.tape).length
  offset : u.buffer.offset_ = 0 ∨
    ∃ m q, u.buffer.buffer_ = m :: q ∧ u.buffer.offset_ < m.length.toNat
  bytes : u.returned ++ symbols u.buffer.tape = u.queued
  reads : u.buffer.empty = false → ∀ length dest, ∃ n, ReadsAsQueue u.buffer length dest n

section Use

variable {u u' : BufferUse} {op : BufferOp} {as : List BufferOp}

/-- A read of a buffer whose count is exact. -/
theorem readsAsQueue {b : MsgBufferT} (hb : b.Exact) (he : b.empty = false) (length : Nat)
    (dest : List UInt8) :
    ReadsAsQueue b length dest (Marked.front (skip b.tape)).length := by
  obtain ⟨hread, htape⟩ := MsgBufferT.read_tape hb.fits length
  have hinto := MsgBufferT.readInto_eq hb.fits dest length
  have hfront : Marked.front (skip b.tape) <+: symbols b.tape :=
    symbols_skip b.tape ▸ front_isPrefix (skip b.tape)
  -- what is taken
  have htake : (b.read length).1 =
      (symbols b.tape).take (min length (Marked.front (skip b.tape)).length) := by
    rw [hread, readMarked]
    split
    next h0 => rw [h0, Nat.zero_min, List.take_zero]
    next =>
      obtain ⟨rest, hrest⟩ := hfront
      rw [← hrest, takeFront, List.take_append_of_le_length (Nat.min_le_right _ _),
        ← List.take_eq_take_min]
  have hlen : (b.read length).1.length = min length (Marked.front (skip b.tape)).length := by
    rw [htake, List.length_take, Nat.min_eq_left]
    exact Nat.le_trans (Nat.min_le_right _ _) hfront.length_le
  exact {
    before_mark := rfl
    result := by rw [hinto, hlen]
    array := by rw [hinto, hlen, htake]
    leaves := htape
    deque := by rw [hinto]
    progress := fun hL => by
      rw [hinto]
      exact List.length_pos_iff.mpr (MsgBufferT.read_ne_nil hb hL he) }

theorem emitted_fits {m : MsgT} (h : MsgBufferT.Emitted m) :
    m.length.toNat ≤ MAX_DATA_LENGTH ∧ (m.hasFlag EOS = true → m.length = 0) := by
  rcases h with ⟨he, _, hle⟩ | ⟨_, h0⟩
  · refine ⟨hle, fun he' => ?_⟩
    rw [he] at he'
    cases he'
  · rw [h0]
    exact ⟨Nat.zero_le _, fun _ => rfl⟩

/-- What one call preserves, and what it does on the tape. -/
theorem BufferUse.step_exact (hb : u.buffer.Exact)
    (hbytes : u.returned ++ symbols u.buffer.tape = u.queued) (hok : u.sendsOnly op)
    (h : u.step op = some u') :
    u'.buffer.Exact ∧ u'.returned ++ symbols u'.buffer.tape = u'.queued ∧
      u'.buffer.tape = op.onTape u.buffer.tape := by
  cases op with
  | queueMessage msg =>
    obtain ⟨hle, hzero⟩ := emitted_fits hok
    rw [BufferUse.step, Option.some.injEq] at h
    subst h
    have htape := MsgBufferT.tape_queueMessage u.buffer msg
    refine ⟨hb.queue hle hzero, ?_, htape⟩
    rw [htape, symbols_append, ← List.append_assoc, hbytes]
  | read length =>
    rw [BufferUse.step, Option.ite_none_left_eq_some] at h
    obtain ⟨_, h⟩ := h
    rw [Option.some.injEq] at h
    subst h
    obtain ⟨hread, htape⟩ := MsgBufferT.read_tape hb.fits length
    refine ⟨hb.read length, ?_, htape⟩
    rw [htape, hread, List.append_assoc, readMarked_symbols, hbytes]

/-- What a sequence of calls preserves, and what it does on the tape. -/
theorem BufferUse.run_exact (h : Run BufferUse.step BufferUse.sendsOnly u as u')
    (hb : u.buffer.Exact) (hbytes : u.returned ++ symbols u.buffer.tape = u.queued) :
    u'.buffer.Exact ∧ u'.returned ++ symbols u'.buffer.tape = u'.queued ∧
      u'.buffer.tape = as.foldl BufferOp.onTape u.buffer.tape := by
  induction h with
  | nil => exact ⟨hb, hbytes, rfl⟩
  | cons hok hf _ ih =>
    obtain ⟨hb1, hbytes1, htape1⟩ := BufferUse.step_exact hb hbytes hok hf
    obtain ⟨hb2, hbytes2, htape2⟩ := ih hb1 hbytes1
    exact ⟨hb2, hbytes2, by rw [htape2, htape1, List.foldl_cons]⟩

/-- After any sequence of calls the buffer is the queue that these calls make of the empty one, and
    what it returned and what is unread are the bytes that were queued. -/
theorem buffer_conforms (h : Run BufferUse.step BufferUse.sendsOnly .new as u) :
    u.buffer.tape = as.foldl BufferOp.onTape [] ∧ Conforms u := by
  obtain ⟨hb, hbytes, htape⟩ := BufferUse.run_exact h MsgBufferT.exact_new rfl
  refine ⟨htape, ?_, ?_, hbytes, fun he length dest => ⟨_, readsAsQueue hb he length dest⟩⟩
  · rw [hb.size, MsgBufferT.tape_symbols]
  · exact u.buffer.front.imp_right fun ⟨m, q, hq, _, hlt⟩ => ⟨m, q, hq, hlt⟩

/-- A fragment of two bytes, its marker, and a read that stops inside the fragment. -/
theorem buffer_conforms_inside : ∃ u, Run BufferUse.step BufferUse.sendsOnly .new
    [.queueMessage (MsgT.fragment 0 [1, 2] 2), .queueMessage (MsgT.control 1 EOS), .read 1] u ∧
    u.buffer.tape = [some 2, none] ∧ Conforms u := by
  have hrun : Run BufferUse.step BufferUse.sendsOnly .new
      [.queueMessage (MsgT.fragment 0 [1, 2] 2), .queueMessage (MsgT.control 1 EOS), .read 1] _ :=
    .cons (Or.inl (by decide)) rfl (.cons (Or.inr (by decide)) rfl (.cons trivial rfl (.nil _)))
  obtain ⟨htape, hconf⟩ := buffer_conforms hrun
  exact ⟨_, hrun, htape, hconf⟩

end Use

end Ece358.Rcs
