/-
  File:      Ece358/MsgBuffer.lean
  Subject:   `msg_buffer_t` (a4/msg_buffer_t.cc): the queue of received messages of a socket.

  * `MsgBufferT` -- the queue, its byte count and the offset into its front message. The offset
    is zero or lies inside a front message that is no EOS marker; the structure carries this as
    the field `front`, so no other buffer can be built;
  * `queueMessage`, `empty`, `readLoop`, `read` -- the methods;
  * `tape` -- the unread bytes of a buffer, with a mark for each EOS marker; `queueMessage` appends
    to it, and `read` is the read of a marked queue (`read_tape`);
  * `segments` -- its blocks: the byte strings between EOS markers, the last one still open;
    `closed` and `opened` split it there;
  * `read_spec` -- `read(dest, L)` takes the first `L` bytes of the first non-empty segment and
    leaves the rest.

  `totalSize_` is a `size_t`; it is a `Nat` here, and `totalSize_ -= written` is shown not to
  need more than there is (`Exact.read`) on the queues of the shapes that send emits.
-/
import Ece358.Lib.Marked
import Ece358.Msg

namespace Ece358.Rcs

open Lib Marked

/-! ## 1. The methods -/

/-- The class `msg_buffer_t`. -/
structure MsgBufferT where
  buffer_ : List MsgT
  totalSize_ : Nat
  offset_ : Nat
  front : offset_ = 0 ∨
    ∃ m q, buffer_ = m :: q ∧ m.hasFlag EOS = false ∧ offset_ < m.length.toNat
  deriving DecidableEq

namespace MsgBufferT

/-- msg_buffer_t() -/
def new : MsgBufferT where
  buffer_ := []
  totalSize_ := 0
  offset_ := 0
  front := Or.inl rfl

def queueMessage (b : MsgBufferT) (msg : MsgT) : MsgBufferT where
  buffer_ := b.buffer_ ++ [msg]
  totalSize_ := b.totalSize_ + msg.length.toNat
  offset_ := b.offset_
  front := b.front.imp_right fun ⟨m, q, hq, hm⟩ => ⟨m, q ++ [msg], by rw [hq]; rfl, hm⟩

def empty (b : MsgBufferT) : Bool := b.totalSize_ == 0

/-- The loop of `read`: the deque, `offset_`, `length` and the bytes written so far. A pass that
    does not finish its message has used up `length`, so the loop ends with it. -/
def readLoop : List MsgT → Nat → Nat → List UInt8 → List UInt8 × List MsgT × Nat
  | [], offset, _, written => (written, [], offset)
  | front :: rest, offset, length, written =>
    if length = 0 then (written, front :: rest, offset)
    else if front.hasFlag EOS then
      if written ≠ [] then (written, rest, offset) else readLoop rest offset length written
    else
      let toCopy := min length (front.length.toNat - offset)
      let written' := written ++ (front.data.drop offset).take toCopy
      if front.length.toNat ≤ offset + toCopy then readLoop rest 0 (length - toCopy) written'
      else (written', front :: rest, offset + toCopy)

/-- The loop keeps the offset inside its front message. -/
theorem readLoop_front (q : List MsgT) (off L : Nat) (w : List UInt8)
    (h : off = 0 ∨ ∃ m q', q = m :: q' ∧ m.hasFlag EOS = false ∧ off < m.length.toNat) :
    (readLoop q off L w).2.2 = 0 ∨ ∃ m q', (readLoop q off L w).2.1 = m :: q' ∧
      m.hasFlag EOS = false ∧ (readLoop q off L w).2.2 < m.length.toNat := by
  induction q generalizing off L w with
  | nil =>
    left
    rcases h with h | ⟨m, q', hq, _⟩
    · exact h
    · cases hq
  | cons m q ih =>
    unfold readLoop
    split
    · exact h
    · split
      next he =>
        have h0 : off = 0 := by
          rcases h with h | ⟨m', q', hq, hm, _⟩
          · exact h
          · cases hq
            rw [he] at hm
            cases hm
        split
        · exact Or.inl h0
        · exact ih off L w (Or.inl h0)
      next he =>
        dsimp only
        split
        · exact ih 0 _ _ (Or.inl rfl)
        next hlt =>
          exact Or.inr ⟨m, q, rfl, by simpa using he, by dsimp only; omega⟩

def read (b : MsgBufferT) (length : Nat) : List UInt8 × MsgBufferT :=
  ((readLoop b.buffer_ b.offset_ length []).1,
   { buffer_ := (readLoop b.buffer_ b.offset_ length []).2.1
     totalSize_ := b.totalSize_ - (readLoop b.buffer_ b.offset_ length []).1.length
     offset_ := (readLoop b.buffer_ b.offset_ length []).2.2
     front := readLoop_front _ _ _ _ b.front })

/-! ## 2. The tape -/

/-- What a message stands for. -/
def tapeOf (m : MsgT) : Marked UInt8 :=
  if m.hasFlag EOS then [none] else m.payload.map some

/-- The tape of a deque, from byte `off` of its front message on. -/
def tapeFrom : Nat → List MsgT → Marked UInt8
  | _, [] => []
  | off, m :: q => (tapeOf m).drop off ++ tapeFrom 0 q

/-- The unread bytes and end marks of a buffer. -/
def tape (b : MsgBufferT) : Marked UInt8 := tapeFrom b.offset_ b.buffer_

theorem tapeFrom_eos {m : MsgT} (h : m.hasFlag EOS = true) (q : List MsgT) :
    tapeFrom 0 (m :: q) = none :: tapeFrom 0 q := by
  rw [tapeFrom, tapeOf, if_pos h]
  rfl

theorem tapeFrom_data {m : MsgT} (h : m.hasFlag EOS = false) (off : Nat) (q : List MsgT) :
    tapeFrom off (m :: q) = (m.payload.drop off).map some ++ tapeFrom 0 q := by
  rw [tapeFrom, tapeOf, if_neg (by simp [h]), List.map_drop]

theorem tape_queueMessage (b : MsgBufferT) (m : MsgT) :
    (b.queueMessage m).tape = b.tape ++ tapeOf m := by
  have h : ∀ (q : List MsgT) (off : Nat), (q = [] → off = 0) →
      tapeFrom off (q ++ [m]) = tapeFrom off q ++ tapeOf m := by
    intro q
    induction q with
    | nil =>
      intro off h0
      rw [h0 rfl, List.nil_append, tapeFrom, tapeFrom, tapeFrom, List.append_nil]
      rfl
    | cons x q ih =>
      intro off _
      rw [List.cons_append, tapeFrom, tapeFrom, ih 0 fun _ => rfl, List.append_assoc]
  refine h b.buffer_ b.offset_ fun e => ?_
  rcases b.front with h0 | ⟨m', q, hq, _⟩
  · exact h0
  · rw [e] at hq
    cases hq

/-! ## 3. The loop on the tape -/

/-- What one pass of the loop copies. -/
theorem copied_eq (m : MsgT) (off L : Nat) :
    (m.data.drop off).take (min L (m.length.toNat - off)) = (m.payload.drop off).take L := by
  rw [MsgT.payload, List.drop_take, List.take_take]

section Loop

variable {q : List MsgT} {off L : Nat} {w : List UInt8}

theorem readLoop_zero (q : List MsgT) (off : Nat) (w : List UInt8) :
    readLoop q off 0 w = (w, q, off) := by
  cases q with
  | nil => rfl
  | cons m q => rw [readLoop, if_pos rfl]

/-- A pass that finishes its message. -/
theorem readLoop_whole {m : MsgT} (hL : L ≠ 0) (he : m.hasFlag EOS = false)
    (hm : m.length.toNat ≤ MAX_DATA_LENGTH) (hx : (m.payload.drop off).length ≤ L) :
    readLoop (m :: q) off L w =
      readLoop q 0 (L - (m.payload.drop off).length) (w ++ m.payload.drop off) := by
  have hdl : (m.payload.drop off).length = m.length.toNat - off := by
    rw [List.length_drop, MsgT.length_payload hm]
  have hmin : min L (m.length.toNat - off) = (m.payload.drop off).length := by omega
  rw [readLoop, if_neg hL, if_neg (by simp [he])]
  dsimp only
  rw [copied_eq, List.take_of_length_le hx, hmin, if_pos (by omega)]

/-- A pass that uses up the room it was given. -/
theorem readLoop_part {m : MsgT} (hL : L ≠ 0) (he : m.hasFlag EOS = false)
    (hm : m.length.toNat ≤ MAX_DATA_LENGTH) (hx : L < (m.payload.drop off).length) :
    readLoop (m :: q) off L w = (w ++ (m.payload.drop off).take L, m :: q, off + L) := by
  have hdl : (m.payload.drop off).length = m.length.toNat - off := by
    rw [List.length_drop, MsgT.length_payload hm]
  have hmin : min L (m.length.toNat - off) = L := by omega
  rw [readLoop, if_neg hL, if_neg (by simp [he])]
  dsimp only
  rw [copied_eq, hmin, if_neg (by omega)]

/-- Where a marker is in front the offset is zero. -/
theorem offset_zero {m : MsgT} (he : m.hasFlag EOS = true)
    (hf : off = 0 ∨ ∃ m' q', m :: q = m' :: q' ∧ m'.hasFlag EOS = false ∧ off < m'.length.toNat) :
    off = 0 := by
  rcases hf with hf | ⟨m', q', hmq, hm, _⟩
  · exact hf
  · cases hmq
    rw [he] at hm
    cases hm

/-- Once something was written, the loop reads up to the next mark. -/
theorem readLoop_takeFront (hq : ∀ m ∈ q, m.length.toNat ≤ MAX_DATA_LENGTH)
    (hf : off = 0 ∨ ∃ m q', q = m :: q' ∧ m.hasFlag EOS = false ∧ off < m.length.toNat)
    (hw : w ≠ []) :
    (readLoop q off L w).1 = w ++ (takeFront L (tapeFrom off q)).1 ∧
      tapeFrom (readLoop q off L w).2.2 (readLoop q off L w).2.1 =
        (takeFront L (tapeFrom off q)).2 := by
  induction q generalizing off L w with
  | nil =>
    unfold readLoop
    exact ⟨by simp [tapeFrom, takeFront, Marked.front], by simp [tapeFrom, takeFront]⟩
  | cons m q ih =>
    have hq' := fun m' hm' => hq m' (List.mem_cons_of_mem m hm')
    by_cases hL : L = 0
    · subst hL
      rw [readLoop_zero, takeFront_zero]
      exact ⟨(List.append_nil w).symm, rfl⟩
    · by_cases he : m.hasFlag EOS = true
      · -- the mark ends the read
        have h0 := offset_zero he hf
        subst h0
        rw [readLoop, if_neg hL, if_pos he, if_pos hw, tapeFrom_eos he, takeFront_mark hL]
        exact ⟨(List.append_nil w).symm, rfl⟩
      · have he' : m.hasFlag EOS = false := by simpa using he
        have hm := hq m List.mem_cons_self
        rw [tapeFrom_data he']
        by_cases hx : (m.payload.drop off).length ≤ L
        · obtain ⟨h1, h2⟩ := ih (L := L - (m.payload.drop off).length)
            (w := w ++ m.payload.drop off) hq' (Or.inl rfl) (by simp [hw])
          rw [readLoop_whole hL he' hm hx, takeFront_whole hx, h1, h2, List.append_assoc]
          exact ⟨rfl, rfl⟩
        · rw [readLoop_part hL he' hm (by omega), takeFront_part (by omega),
            tapeFrom_data he' (off + L), ← List.drop_drop]
          exact ⟨rfl, rfl⟩

/-- The loop is the read of a marked queue. -/
theorem readLoop_readMarked (hq : ∀ m ∈ q, m.length.toNat ≤ MAX_DATA_LENGTH)
    (hf : off = 0 ∨ ∃ m q', q = m :: q' ∧ m.hasFlag EOS = false ∧ off < m.length.toNat) :
    (readLoop q off L []).1 = (readMarked L (tapeFrom off q)).1 ∧
      tapeFrom (readLoop q off L []).2.2 (readLoop q off L []).2.1 =
        (readMarked L (tapeFrom off q)).2 := by
  by_cases hL : L = 0
  · subst hL
    rw [readLoop_zero, readMarked, if_pos rfl]
    exact ⟨rfl, rfl⟩
  rw [readMarked, if_neg hL]
  induction q generalizing off with
  | nil =>
    unfold readLoop
    exact ⟨by simp [tapeFrom, takeFront, Marked.front, skip], by simp [tapeFrom, takeFront, skip]⟩
  | cons m q ih =>
    have hq' := fun m' hm' => hq m' (List.mem_cons_of_mem m hm')
    by_cases he : m.hasFlag EOS = true
    · have h0 := offset_zero he hf
      subst h0
      rw [readLoop, if_neg hL, if_pos he, if_neg (by simp), tapeFrom_eos he]
      exact ih hq' (Or.inl rfl)
    · have he' : m.hasFlag EOS = false := by simpa using he
      have hm := hq m List.mem_cons_self
      rw [tapeFrom_data he']
      by_cases hx : (m.payload.drop off).length ≤ L
      · rw [readLoop_whole hL he' hm hx, List.nil_append]
        by_cases hnil : m.payload.drop off = []
        · -- an empty message leaves no trace
          rw [hnil]
          exact ih hq' (Or.inl rfl)
        · obtain ⟨h1, h2⟩ := readLoop_takeFront
            (L := L - (m.payload.drop off).length) hq' (Or.inl rfl) hnil
          rw [skip_append hnil, takeFront_whole hx, h1, h2]
          exact ⟨rfl, rfl⟩
      · have hne : m.payload.drop off ≠ [] := by
          intro e
          rw [e] at hx
          exact hx (Nat.zero_le L)
        rw [readLoop_part hL he' hm (by omega), skip_append hne, takeFront_part (by omega),
          tapeFrom_data he' (off + L), ← List.drop_drop]
        exact ⟨rfl, rfl⟩

/-- The loop only takes messages off the front. -/
theorem readLoop_suffix (q : List MsgT) (off L : Nat) (w : List UInt8) :
    (readLoop q off L w).2.1 <:+ q := by
  induction q generalizing off L w with
  | nil => exact List.suffix_rfl
  | cons m q ih =>
    have hq := List.suffix_cons m q
    unfold readLoop
    split
    · exact List.suffix_rfl
    · split
      · split
        · exact hq
        · exact (ih _ _ _).trans hq
      · dsimp only
        split
        · exact (ih _ _ _).trans hq
        · exact List.suffix_rfl

end Loop

/-- What a read does on the tape. -/
theorem read_tape {b : MsgBufferT} (hb : ∀ m ∈ b.buffer_, m.length.toNat ≤ MAX_DATA_LENGTH)
    (L : Nat) :
    (b.read L).1 = (readMarked L b.tape).1 ∧ (b.read L).2.tape = (readMarked L b.tape).2 :=
  readLoop_readMarked hb b.front

/-! ## 4. Segments -/

/-- The byte strings between the EOS markers of a queue, from byte `off` of its front message on.
    The last one is still open. -/
def segmentsFrom : Nat → List MsgT → List (List UInt8)
  | _, [] => [[]]
  | off, m :: q =>
    if m.hasFlag EOS then [] :: segmentsFrom 0 q
    else match segmentsFrom 0 q with
      | [] => [m.payload.drop off]
      | g :: gs => (m.payload.drop off ++ g) :: gs

/-- The byte strings a buffer holds, between its EOS markers. -/
def segments (b : MsgBufferT) : List (List UInt8) := segmentsFrom b.offset_ b.buffer_

/-- The segments that an EOS marker ends. -/
def closed (b : MsgBufferT) : List (List UInt8) := b.segments.dropLast

/-- The bytes behind the last EOS marker. -/
def opened (b : MsgBufferT) : List UInt8 := b.segments.getLastD []

/-- The unread messages. -/
def unread (b : MsgBufferT) : List (List UInt8) := nonempty b.segments

/-- The segments are the blocks of the tape. -/
theorem segmentsFrom_blocks {q : List MsgT} {off : Nat}
    (hf : off = 0 ∨ ∃ m q', q = m :: q' ∧ m.hasFlag EOS = false ∧ off < m.length.toNat) :
    segmentsFrom off q = blocks (tapeFrom off q) := by
  induction q generalizing off with
  | nil => rfl
  | cons m q ih =>
    have hrest : segmentsFrom 0 q = blocks (tapeFrom 0 q) := ih (Or.inl rfl)
    by_cases he : m.hasFlag EOS = true
    · have h0 := offset_zero he hf
      subst h0
      rw [segmentsFrom, if_pos he, tapeFrom_eos he, hrest]
      rfl
    · have he' : m.hasFlag EOS = false := by simpa using he
      obtain ⟨gs, hgs⟩ := blocks_front (tapeFrom 0 q)
      rw [segmentsFrom, if_neg he, hrest, hgs, tapeFrom_data he', blocks_map_append hgs]

theorem segments_blocks (b : MsgBufferT) : b.segments = blocks b.tape :=
  segmentsFrom_blocks b.front

/-- The bytes of the tape are the unread bytes. -/
theorem tape_symbols (b : MsgBufferT) : symbols b.tape = b.segments.flatten := by
  rw [segments_blocks, flatten_blocks]

/-! ## 5. The methods on segments -/

/-- A buffer whose byte count is the number of unread bytes, and whose messages fit their array:
    what `queueMessage` builds from messages whose EOS markers carry no payload. -/
structure Exact (b : MsgBufferT) : Prop where
  fits : ∀ m ∈ b.buffer_, m.length.toNat ≤ MAX_DATA_LENGTH
  size : b.totalSize_ = b.segments.flatten.length

theorem exact_new : new.Exact where
  fits := by simp [new]
  size := rfl

theorem segments_eq (b : MsgBufferT) : b.segments = b.closed ++ [b.opened] := by
  have h : b.segments ≠ [] := segments_blocks b ▸ blocks_ne_nil b.tape
  rw [closed, opened, List.getLastD_eq_getLast?, List.getLast?_eq_some_getLast h]
  exact (List.dropLast_append_getLast h).symm

theorem unread_eq (b : MsgBufferT) : b.unread = nonempty b.closed ++ nonempty [b.opened] := by
  rw [unread, segments_eq, nonempty_append]

theorem unread_flatten (b : MsgBufferT) : b.unread.flatten = b.segments.flatten :=
  flatten_nonempty _

theorem closed_opened_of_segments {b : MsgBufferT} {gs : List (List UInt8)} {g : List UInt8}
    (h : b.segments = gs ++ [g]) : b.closed = gs ∧ b.opened = g := by
  rw [closed, opened, h]
  simp

theorem queue_eos {b : MsgBufferT} {m : MsgT} (h : m.hasFlag EOS = true) :
    (b.queueMessage m).closed = b.closed ++ [b.opened] ∧ (b.queueMessage m).opened = [] := by
  refine closed_opened_of_segments ?_
  rw [← segments_eq, segments_blocks, tape_queueMessage, tapeOf, if_pos h, blocks_append_mark,
    ← segments_blocks]

theorem queue_data {b : MsgBufferT} {m : MsgT} (h : m.hasFlag EOS = false) :
    (b.queueMessage m).closed = b.closed ∧ (b.queueMessage m).opened = b.opened ++ m.payload := by
  obtain ⟨gs, g, hold, hnew⟩ := blocks_append_map b.tape m.payload
  rw [← segments_blocks] at hold
  obtain ⟨hclosed, hopened⟩ := closed_opened_of_segments hold
  rw [hclosed, hopened]
  refine closed_opened_of_segments ?_
  rw [segments_blocks, tape_queueMessage, tapeOf, if_neg (by simp [h]), hnew]

theorem Exact.queue {b : MsgBufferT} {m : MsgT} (hb : b.Exact)
    (hm : m.length.toNat ≤ MAX_DATA_LENGTH) (he : m.hasFlag EOS = true → m.length = 0) :
    (b.queueMessage m).Exact := by
  refine ⟨fun m' hm' => ?_, ?_⟩
  · rcases List.mem_append.mp hm' with h | h
    · exact hb.fits m' h
    · rw [List.mem_singleton.mp h]
      exact hm
  · have hs := hb.size
    show b.totalSize_ + m.length.toNat = (b.queueMessage m).segments.flatten.length
    rw [hs, segments_eq, segments_eq]
    by_cases h : m.hasFlag EOS = true
    · obtain ⟨hc, ho⟩ := queue_eos (b := b) h
      rw [hc, ho, he h]
      simp
    · obtain ⟨hc, ho⟩ := queue_data (b := b) (by simpa using h)
      rw [hc, ho]
      simp [MsgT.length_payload hm]
      omega

/-- What `read` takes and leaves. -/
theorem read_spec {b : MsgBufferT} (hb : b.Exact) (L : Nat) :
    (b.read L).1 = frontPart L b.unread ∧ (b.read L).2.unread = afterFront L b.unread ∧
      (b.read L).2.opened <:+ b.opened := by
  obtain ⟨hread, htape⟩ := read_tape hb.fits L
  have hblocks := readMarked_blocks L b.tape
  rw [← hread, ← htape, ← segments_blocks, ← segments_blocks] at hblocks
  exact hblocks

/-- The byte count covers what a read takes, and stays exact. -/
theorem Exact.read {b : MsgBufferT} (hb : b.Exact) (L : Nat) : (b.read L).2.Exact where
  fits m hm := hb.fits m ((readLoop_suffix _ _ _ _).subset hm)
  size := by
    obtain ⟨h1, h2, _⟩ := read_spec hb L
    have hsplit := frontPart_append_afterFront L b.unread
    have hlen := congrArg List.length hsplit
    rw [List.length_append, ← h1, ← h2, unread_flatten, unread_flatten, ← hb.size] at hlen
    show b.totalSize_ - (b.read L).1.length = (b.read L).2.segments.flatten.length
    omega

/-- The test `empty()` sees whether anything is unread. -/
theorem Exact.empty_iff {b : MsgBufferT} (hb : b.Exact) : b.empty = true ↔ b.unread = [] := by
  rw [empty, beq_iff_eq, hb.size, ← unread_flatten, List.length_eq_zero_iff]
  refine ⟨fun h => ?_, fun h => by rw [h]; rfl⟩
  cases hu : b.unread with
  | nil => rfl
  | cons g gs =>
    have hg : g ∈ nonempty b.segments := by
      show g ∈ b.unread
      rw [hu]
      exact List.mem_cons_self
    rw [hu, List.flatten_cons, List.append_eq_nil_iff] at h
    exact absurd h.1 (ne_nil_of_mem_nonempty hg)

/-- On a buffer that is not empty, a read with room takes something. -/
theorem read_ne_nil {b : MsgBufferT} (hb : b.Exact) {L : Nat} (hL : 0 < L)
    (he : b.empty = false) : (b.read L).1 ≠ [] := by
  have hu : b.unread ≠ [] := by
    intro h
    rw [(hb.empty_iff).mpr h] at he
    cases he
  obtain ⟨g, gs, hg⟩ := List.exists_cons_of_ne_nil hu
  have hmem : g ∈ nonempty b.segments := by
    show g ∈ b.unread
    rw [hg]
    exact List.mem_cons_self
  have hne : g ≠ [] := ne_nil_of_mem_nonempty hmem
  rw [(read_spec hb L).1, hg, frontPart, List.headD_cons]
  intro e
  rw [List.take_eq_nil_iff] at e
  rcases e with e | e
  · omega
  · exact hne e

end MsgBufferT

end Ece358.Rcs
