/-
  File:      Ece358/Checks.lean
  Subject:   What the methods of rcs rely on: their assertions, and the places they touch in arrays.

  Beside each method stands the list of what it does between two receives, in the order of the
  source, as far as it relies on something: the messages that it asks `valid()` of, prints, builds
  and sends, and its reads of the buffer. Such a use stands for checks: the conditions of
  assertions, the subtraction `totalSize_ -= written`, the indices computed, and the ranges copied.

  * `Check`, `AllHold` -- one thing relied on, and a list of them that holds, kind by kind;
  * `validChecks`, `printChecks`, `fragmentChecks`, `rawsendChecks`, `readChecks` -- the methods
    that rely on something themselves;
  * `Use`, `startUses`, `resumeUses` -- the uses, and those of the stretches of send and recv;
  * `Lists` -- that the list of a stretch is right: it sends the messages listed, and what it
    returns is what the read listed takes; and `readLoop_copies`, the same of the ranges of a read.

  INSPECT_PACKETS is 0 in the source. Its value is a parameter here, so that both builds are
  covered: with it rawsend and rawrecv print their messages.
-/
import Ece358.ByteCount

namespace Ece358.Rcs

open Lib MsgT

/-! ## 1. Checks -/

/-- The condition of an assertion, an index into an array, or a range of an array. -/
inductive Check where
  | assert (cond : Bool)
  | index (i : Int) (size : Nat)
  | range (first count size : Nat)
  deriving DecidableEq

namespace Check

def Holds : Check → Prop
  | .assert cond => cond = true
  | .index i size => 0 ≤ i ∧ i < size
  | .range first count size => first + count ≤ size

def isAssert : Check → Bool
  | .assert _ => true
  | _ => false

def isRange : Check → Bool
  | .range _ _ _ => true
  | _ => false

/-- An index or a range. -/
def isAccess (c : Check) : Bool := !c.isAssert

instance : DecidablePred Holds
  | .assert _ => inferInstanceAs (Decidable (_ = _))
  | .index _ _ => inferInstanceAs (Decidable (_ ∧ _))
  | .range _ _ _ => inferInstanceAs (Decidable (_ ≤ _))

end Check

/-- All of the checks that are of these kinds hold. -/
def AllHold (kinds : Check → Bool) (cs : List Check) : Prop := ∀ c ∈ cs, kinds c = true → c.Holds

instance (kinds : Check → Bool) (cs : List Check) : Decidable (AllHold kinds cs) := by
  unfold AllHold
  infer_instance

section AllHold

variable {kinds : Check → Bool} {cs cs' : List Check} {c : Check}

@[simp] theorem allHold_nil : AllHold kinds [] := fun _ h => absurd h List.not_mem_nil

@[simp] theorem allHold_append : AllHold kinds (cs ++ cs') ↔ AllHold kinds cs ∧ AllHold kinds cs' :=
  List.forall_mem_append

@[simp] theorem allHold_cons :
    AllHold kinds (c :: cs) ↔ (kinds c = true → c.Holds) ∧ AllHold kinds cs :=
  List.forall_mem_cons

/-- A check that counts, and one that does not. -/
theorem allHold_counted (h : kinds c = true) :
    AllHold kinds (c :: cs) ↔ c.Holds ∧ AllHold kinds cs := by
  rw [allHold_cons, forall_prop_of_true h]

theorem allHold_uncounted (h : kinds c = false) : AllHold kinds (c :: cs) ↔ AllHold kinds cs := by
  rw [allHold_cons, h]
  exact and_iff_right fun h => (by cases h)

end AllHold

/-! ## 2. Messages -/

namespace MsgT

/-- valid() reads `data[length - 1]`, where the length is not above the maximum. -/
def validChecks (m : MsgT) : List Check :=
  if m.length.toNat ≤ MAX_DATA_LENGTH then [.index ((m.length.toNat : Int) - 1) MAX_DATA_LENGTH]
  else []

/-- operator<< copies the payload of a valid message, and puts a 0 behind it. -/
def printChecks (m : MsgT) : List Check :=
  m.validChecks ++
    if m.valid then
      [.range 0 m.length.toNat MAX_DATA_LENGTH, .index m.length.toNat MAX_DATA_LENGTH]
    else []

/-- msg_t(seqnum, srcData, len, NONE) -/
def fragmentChecks (srcData : List UInt8) (len : Nat) : List Check :=
  [.index ((len : Int) - 1) srcData.length, .assert (decide (len ≤ MAX_DATA_LENGTH)),
   .range 0 len MAX_DATA_LENGTH]

/-- inspect_packet prints the message, where it is compiled in. -/
def inspectChecks (inspect : Bool) (m : MsgT) : List Check :=
  if inspect then m.printChecks else []

/-- rawsend: assert(!(msg.length == 0 && msg.flags == msg_t::NONE)) -/
def rawsendChecks (inspect : Bool) (m : MsgT) : List Check :=
  m.inspectChecks inspect ++ [.assert (!(m.length == 0 && m.flags == NONE))]

/-- A message that rawsend takes. -/
def Sendable (m : MsgT) : Prop := ¬ (m.length = 0 ∧ m.flags = NONE)

end MsgT

section Messages

variable {kinds : Check → Bool} {inspect : Bool} {m : MsgT}

/-- What rawsend relies on holds, but for what is printed. -/
theorem rawsendChecks_iff (h : m.Sendable) :
    AllHold kinds (m.rawsendChecks inspect) ↔ AllHold kinds (m.inspectChecks inspect) := by
  rw [rawsendChecks, allHold_append, allHold_cons]
  refine and_iff_left ⟨fun _ => ?_, allHold_nil⟩
  show (!(m.length == 0 && m.flags == NONE)) = true
  rw [Bool.not_eq_true', Bool.eq_false_iff, ne_eq, Bool.and_eq_true, beq_iff_eq, beq_iff_eq]
  exact h

theorem sendable_control (n : UInt16) {f : FlagsT} (hf : f ≠ NONE) : (control n f).Sendable :=
  fun h => hf h.2

theorem sendable_fragment (n : UInt16) (src : List UInt8) {len : Nat} (h1 : 1 ≤ len)
    (h : len ≤ MAX_DATA_LENGTH) : (fragment n src len).Sendable := by
  rintro ⟨h0, _⟩
  have hlen := fragment_length src n h
  rw [h0] at hlen
  have hlen : 0 = len := hlen
  omega

theorem fragmentChecks_hold {src : List UInt8} {len : Nat} (h1 : 1 ≤ len)
    (h : len ≤ MAX_DATA_LENGTH) (hs : len ≤ src.length) :
    AllHold kinds (fragmentChecks src len) := by
  rw [fragmentChecks, allHold_cons, allHold_cons, allHold_cons]
  refine ⟨fun _ => ?_, fun _ => decide_eq_true h, fun _ => ?_, allHold_nil⟩
  · show (0 : Int) ≤ (len : Int) - 1 ∧ (len : Int) - 1 < src.length
    omega
  · show 0 + len ≤ MAX_DATA_LENGTH
    omega

end Messages

/-! ## 3. The buffer -/

namespace MsgBufferT

/-- min(length, front.length - offset_), in `size_t` arithmetic -/
def toCopy (front : MsgT) (offset length : Nat) : Nat :=
  min length (UInt64.ofNat front.length.toNat - UInt64.ofNat offset).toNat

/-- The copies that the loop of `read` makes: the message, the offset, and how much. -/
def readLoopCopies : List MsgT → Nat → Nat → List UInt8 → List (MsgT × Nat × Nat)
  | [], _, _, _ => []
  | front :: rest, offset, length, written =>
    if length = 0 then []
    else if front.hasFlag EOS then
      if written ≠ [] then [] else readLoopCopies rest offset length written
    else
      let n := toCopy front offset length
      (front, offset, n) ::
        if front.length.toNat ≤ offset + n then
          readLoopCopies rest 0 (length - n) (written ++ (front.data.drop offset).take n)
        else []

/-- read: assert(!empty()); the loop; totalSize_ -= written -/
def readChecks (b : MsgBufferT) (length : Nat) : List Check :=
  .assert (!b.empty) ::
    ((readLoopCopies b.buffer_ b.offset_ length []).map
        (fun (_, offset, n) => .range offset n MAX_DATA_LENGTH) ++
      [.assert (decide ((b.read length).1.length ≤ b.totalSize_))])

/-- A buffer that counts all the bytes that can be read, if not more. -/
def Counted (b : MsgBufferT) : Prop := ∃ k, b.Counts k

end MsgBufferT

section Buffer

variable {kinds : Check → Bool} {b : MsgBufferT} {q : List MsgT} {off L : Nat} {w : List UInt8}

open MsgBufferT

/-- The subtraction does not wrap while the offset is inside the message. -/
theorem toCopy_eq {m : MsgT} (h : off ≤ m.length.toNat) (L : Nat) :
    toCopy m off L = min L (m.length.toNat - off) := by
  have hlt : m.length.toNat < 2 ^ 16 := m.length.toNat_lt
  have hm : (UInt64.ofNat m.length.toNat).toNat = m.length.toNat :=
    UInt64.toNat_ofNat_of_lt' (by simp only [UInt64.size]; omega)
  have ho : (UInt64.ofNat off).toNat = off :=
    UInt64.toNat_ofNat_of_lt' (by simp only [UInt64.size]; omega)
  rw [toCopy, UInt64.toNat_sub_of_le _ _ (by rw [UInt64.le_iff_toNat_le, hm, ho]; exact h), hm, ho]

/-- A message in front of the offset, or an offset of zero. -/
theorem offset_le {m : MsgT}
    (hf : off = 0 ∨ ∃ m' q', m :: q = m' :: q' ∧ m'.hasFlag EOS = false ∧ off < m'.length.toNat) :
    off ≤ m.length.toNat := by
  rcases hf with rfl | ⟨m', q', hmq, _, hlt⟩
  · exact Nat.zero_le _
  · cases hmq
    exact hlt.le

/-- What the loop has written in the end are the ranges listed. -/
theorem readLoop_copies
    (hf : off = 0 ∨ ∃ m q', q = m :: q' ∧ m.hasFlag EOS = false ∧ off < m.length.toNat) :
    (readLoop q off L w).1 = w ++ (readLoopCopies q off L w).flatMap
      fun (front, offset, n) => (front.data.drop offset).take n := by
  induction q generalizing off L w with
  | nil =>
    unfold readLoop readLoopCopies
    exact (List.append_nil w).symm
  | cons m q ih =>
    unfold readLoop readLoopCopies
    split
    · exact (List.append_nil w).symm
    · split
      next he =>
        split
        · exact (List.append_nil w).symm
        · exact ih (Or.inl (offset_zero he hf))
      next =>
        rw [toCopy_eq (offset_le hf)]
        dsimp only
        rw [List.flatMap_cons, ← List.append_assoc]
        split
        · exact ih (Or.inl rfl)
        · exact (List.append_nil _).symm

/-- They lie within the messages. -/
theorem readLoopCopies_fit (hq : ∀ m ∈ q, m.length.toNat ≤ MAX_DATA_LENGTH)
    (hf : off = 0 ∨ ∃ m q', q = m :: q' ∧ m.hasFlag EOS = false ∧ off < m.length.toNat) :
    ∀ c ∈ readLoopCopies q off L w, c.2.1 + c.2.2 ≤ MAX_DATA_LENGTH := by
  induction q generalizing off L w with
  | nil =>
    intro c hc
    cases hc
  | cons m q ih =>
    have hq' := fun m' hm' => hq m' (List.mem_cons_of_mem m hm')
    have hm := hq m List.mem_cons_self
    have hoff := offset_le hf
    unfold readLoopCopies
    split
    · exact fun c hc => by cases hc
    · split
      next he =>
        split
        · exact fun c hc => by cases hc
        · exact ih hq' (Or.inl (offset_zero he hf))
      next =>
        rw [toCopy_eq hoff]
        refine List.forall_mem_cons.mpr ⟨?_, ?_⟩
        · show off + min L (m.length.toNat - off) ≤ MAX_DATA_LENGTH
          omega
        · split
          · exact ih hq' (Or.inl rfl)
          · exact fun c hc => by cases hc

/-- A read of a buffer that is not empty takes no more than was counted. -/
theorem readChecks_hold (h : b.Counted) (he : b.empty = false) (L : Nat) :
    AllHold kinds (b.readChecks L) := by
  obtain ⟨k, h⟩ := h
  have hlen := congrArg List.length (h.read_bytes L)
  have hsize := h.size
  rw [List.length_append] at hlen
  refine allHold_cons.mpr ⟨fun _ => ?_, allHold_append.mpr ⟨?_, allHold_cons.mpr ⟨fun _ => ?_, ?_⟩⟩⟩
  · show (!b.empty) = true
    rw [he]
    rfl
  · intro c hc _
    obtain ⟨copy, hcopy, rfl⟩ := List.mem_map.mp hc
    exact readLoopCopies_fit h.fits b.front copy hcopy
  · exact decide_eq_true (by omega)
  · exact allHold_nil

end Buffer

/-! ## 4. The socket -/

/-- Something that a method relies on: it asks `valid()` of a message, hands it to inspect_packet,
    builds a fragment, sends a message, or reads the buffer. -/
inductive Use where
  | asked (m : MsgT)
  | inspected (m : MsgT)
  | built (srcData : List UInt8) (len : Nat)
  | sent (m : MsgT)
  | read (b : MsgBufferT) (length : Nat)

namespace Use

def checks (inspect : Bool) : Use → List Check
  | .asked m => m.validChecks
  | .inspected m => m.inspectChecks inspect
  | .built srcData len => fragmentChecks srcData len
  | .sent m => m.rawsendChecks inspect
  | .read b length => b.readChecks length

/-- It looks at a message received. -/
def looks : Use → Bool
  | .asked _ => true
  | .inspected _ => true
  | _ => false

/-- What a socket in order does by itself. -/
def Own : Use → Prop
  | .asked _ => False
  | .inspected _ => False
  | .built srcData len => 1 ≤ len ∧ len ≤ MAX_DATA_LENGTH ∧ len ≤ srcData.length
  | .sent m => m.Sendable
  | .read b _ => b.Counted ∧ b.empty = false

end Use

namespace RcsT

def closeUses : List Use := List.replicate 2048 (.sent (control 666 FIN))

/-- rawrecv would print what it has received, and asks `valid()` of it. -/
def rawrecvUses : RecvFrom → List Use
  | .error _ => []
  | .datagram _ bytes _ =>
    if bytes = [] then []
    else
      let msg := ofDatagram bytes
      [.inspected msg, .asked msg] ++ if accepted bytes && msg.hasFlag FIN then closeUses else []

def lowrecvUses (s : RcsT) (o : RecvFrom) : List Use :=
  rawrecvUses o ++ [.asked ((s.rawrecv o).msg.getD MsgT.default)]

/-- The head of the loop in `send`, and what follows the loop. -/
def sendLoopUses (s : RcsT) (data : List UInt8) (processedSize : Nat) : List Use :=
  if processedSize < data.length ∧ s.isClosing_ = false then
    let len := min (data.length - processedSize) MAX_DATA_LENGTH
    [.built (data.drop processedSize) len,
     .sent (MsgT.fragment s.sendSeqnum_ (data.drop processedSize) len)]
  else if s.isClosing_ = false then [.sent (MsgT.control s.sendSeqnum_ EOS)]
  else []

def acksendUses (s : RcsT) (msg : MsgT) (o : RecvFrom) : List Use :=
  s.lowrecvUses o ++ if (s.acksend msg o).2.2 then [] else [.sent msg]

def recvReturnUses (s : RcsT) (maxLength : Nat) : List Use :=
  if s.isClosing_ && s.buffer_.empty then [] else [.read s.buffer_ maxLength]

def recvAgainUses (s : RcsT) (maxLength : Nat) : List Use :=
  if s.buffer_.empty && !s.isClosing_ then [] else s.recvReturnUses maxLength

def recvWhileUses (s : RcsT) (maxLength : Nat) : List Use :=
  if s.isClosing_ then s.recvAgainUses maxLength else []

def finalizeEndUses (s : RcsT) (maxLength : Nat) : List Use :=
  (s.setTimeout RECV_TIMEOUT).1.recvAgainUses maxLength

def finalizePassUses (s : RcsT) (maxLength : Nat) (ack response : MsgT) (o : RecvFrom) :
    List Use :=
  let r := s.rawrecv o
  rawrecvUses o ++
    if r.bytes = 0 then r.sock.finalizeEndUses maxLength
    else
      let response' := r.msg.getD response
      .asked response' ::
        if startsNext response' then r.sock.finalizeEndUses maxLength else [.sent ack]

def recvBodyUses (s : RcsT) (maxLength : Nat) (response : MsgT) (ok : Bool) : List Use :=
  let inSequence := ok && response.seqnum == s.recvSeqnum_
  let s' := if inSequence then
      { s with buffer_ := s.buffer_.queueMessage response, recvSeqnum_ := s.recvSeqnum_ + 1 }
    else s
  let ack := MsgT.control (if inSequence then s.recvSeqnum_ else s.recvSeqnum_ - 1) ACK
  (if s'.isClosing_ then [] else [.sent ack]) ++
    if ok && response.hasFlag EOS then [] else s'.recvWhileUses maxLength

/-- recv asks `valid()` of a message that has the size it should have. -/
def recvPassUses (s : RcsT) (maxLength : Nat) (o : RecvFrom) : List Use :=
  let r := s.rawrecv o
  rawrecvUses o ++
    if r.bytes = 0 then r.sock.recvWhileUses maxLength
    else
      let response := r.msg.getD MsgT.default
      (if r.bytes = response.getTotalLength then [.asked response] else []) ++
        r.sock.recvBodyUses maxLength response (isValid r.bytes response)

end RcsT

open RcsT in
/-- The rest of a blocked call, from the outcome of its receive to the next one. -/
def resumeUses (s : RcsT) : Pc → RecvFrom → List Use
  | .sendFragment data processedSize msg, o =>
    s.acksendUses msg o ++
      if (s.acksend msg o).2.2 then
        sendLoopUses (nextFragment (s.acksend msg o).1) data (processedSize + MAX_DATA_LENGTH)
      else []
  | .sendEos _ msg, o => s.acksendUses msg o
  | .recvLoop maxLength, o => s.recvPassUses maxLength o
  | .finalizeRecv maxLength ack response, o => s.finalizePassUses maxLength ack response o
  | .returned _, _ => []

open RcsT in
/-- The start of a call. -/
def startUses (s : RcsT) : Call → List Use
  | .send data => sendLoopUses (sendStarted s) data 0
  | .recv maxLength => recvWhileUses { s with recvSeqnum_ := 0 } maxLength

/-- What the uses rely on. -/
def checksOf (inspect : Bool) (us : List Use) : List Check := us.flatMap (Use.checks inspect)

def resumeChecks (inspect : Bool) (s : RcsT) (pc : Pc) (o : RecvFrom) : List Check :=
  checksOf inspect (resumeUses s pc o)

def startChecks (inspect : Bool) (s : RcsT) (c : Call) : List Check :=
  checksOf inspect (startUses s c)

/-! ## 5. The lists are those of the methods -/

/-- The messages that the list says are sent. -/
def sentIn (us : List Use) : List MsgT :=
  us.filterMap fun
    | .sent m => some m
    | _ => none

/-- The reads that it lists. -/
def readsIn (us : List Use) : List (MsgBufferT × Nat) :=
  us.filterMap fun
    | .read b length => some (b, length)
    | _ => none

/-- A stretch that reads once returns what it has read and keeps the rest of the buffer, and one
    that does not read can only return 0 from recv. -/
def ReadBy (r : Res) : List (MsgBufferT × Nat) → Prop
  | [] => ∀ bytes, r.pc = .returned (.recv bytes) → bytes = []
  | [(b, length)] =>
    r.pc = .returned (.recv (b.read length).1) ∧ r.sock.buffer_ = (b.read length).2
  | _ => False

/-- The stretch sends the messages listed, and reads as listed. -/
structure Lists (us : List Use) (r : Res) : Prop where
  sent : sentIn us = r.messages
  reads : ReadBy r (readsIn us)

section Lists

variable {s : RcsT} {L : Nat} {m : MsgT} {o : RecvFrom} {us us' : List Use} {r : Res} {pc : Pc}
  {out : List Event}

theorem sentIn_append (us us' : List Use) : sentIn (us ++ us') = sentIn us ++ sentIn us' :=
  List.filterMap_append

theorem readsIn_append (us us' : List Use) : readsIn (us ++ us') = readsIn us ++ readsIn us' :=
  List.filterMap_append

theorem messages_after (r : Res) (out : List Event) :
    (r.after out).messages = out.filterMap Event.message ++ r.messages := List.filterMap_append

/-- Events in front of a stretch, and what lists them. -/
theorem Lists.after (h : Lists us r) (hs : sentIn us' = out.filterMap Event.message)
    (hr : readsIn us' = []) : Lists (us' ++ us) (r.after out) where
  sent := by rw [sentIn_append, messages_after, hs, h.sent]
  reads := by
    rw [readsIn_append, hr, List.nil_append]
    exact h.reads

/-- A stretch that does not return from recv. -/
theorem lists_of_blocked (hs : sentIn us = r.messages) (hr : readsIn us = [])
    (hpc : ∀ bytes, r.pc ≠ .returned (.recv bytes)) : Lists us r := by
  refine ⟨hs, ?_⟩
  rw [hr]
  exact fun bytes h => absurd h (hpc bytes)

/-- What asks and prints, in front of a list. -/
theorem sentIn_looks (us : List Use) (m m' : MsgT) :
    sentIn ([.inspected m, .asked m'] ++ us) = sentIn us ∧
      readsIn ([.inspected m, .asked m'] ++ us) = readsIn us := ⟨rfl, rfl⟩

theorem closeUses_sent (s : RcsT) :
    sentIn RcsT.closeUses = s.close.2.filterMap Event.message ∧ readsIn RcsT.closeUses = [] := by
  have hsent : ∀ n, sentIn (List.replicate n (.sent (control 666 FIN))) =
      List.replicate n (control 666 FIN) :=
    fun n => List.filterMap_replicate_of_some rfl
  have hout : ∀ n, (List.replicate n (s.rawsend (control 666 FIN))).filterMap Event.message =
      List.replicate n (control 666 FIN) :=
    fun n => List.filterMap_replicate_of_some rfl
  have hread : ∀ n, readsIn (List.replicate n (.sent (control 666 FIN))) = [] := fun n =>
    List.filterMap_eq_nil_iff.mpr fun u hu => by rw [List.eq_of_mem_replicate hu]
  refine ⟨?_, hread 2048⟩
  unfold RcsT.closeUses RcsT.close
  dsimp only
  rw [hsent, List.filterMap_append, hout]
  exact (List.append_nil _).symm

theorem rawrecvUses_sent (s : RcsT) (o : RecvFrom) :
    sentIn (RcsT.rawrecvUses o) = (s.rawrecv o).out.filterMap Event.message ∧
      readsIn (RcsT.rawrecvUses o) = [] := by
  cases o with
  | error e => exact ⟨rfl, rfl⟩
  | datagram e d src =>
    unfold RcsT.rawrecvUses RcsT.rawrecv
    dsimp only
    split
    · exact ⟨rfl, rfl⟩
    · rw [(sentIn_looks _ _ _).1, (sentIn_looks _ _ _).2]
      split
      · exact closeUses_sent _
      · exact ⟨rfl, rfl⟩

theorem acksendUses_sent (s : RcsT) (msg : MsgT) (o : RecvFrom) :
    sentIn (s.acksendUses msg o) = (s.acksend msg o).2.1.filterMap Event.message ∧
      readsIn (s.acksendUses msg o) = [] := by
  obtain ⟨hsent, hreads⟩ := rawrecvUses_sent s o
  have hlow : sentIn (s.lowrecvUses o) = (s.rawrecv o).out.filterMap Event.message ∧
      readsIn (s.lowrecvUses o) = [] := by
    unfold RcsT.lowrecvUses
    rw [sentIn_append, readsIn_append, hsent, hreads]
    exact ⟨List.append_nil _, rfl⟩
  unfold RcsT.acksendUses
  rw [sentIn_append, readsIn_append, hlow.1, hlow.2]
  unfold RcsT.acksend RcsT.lowrecv
  dsimp only
  split
  · rw [List.filterMap_append]
    exact ⟨rfl, rfl⟩
  · split
    · exact ⟨List.append_nil _, rfl⟩
    · rw [List.filterMap_append]
      exact ⟨rfl, rfl⟩

theorem lists_sendLoop (s : RcsT) (data : List UInt8) (k : Nat) :
    Lists (s.sendLoopUses data k) (s.sendLoop data k) := by
  unfold RcsT.sendLoopUses RcsT.sendLoop
  split
  · exact lists_of_blocked rfl rfl fun _ => Pc.noConfusion
  · split
    · exact lists_of_blocked rfl rfl fun _ => Pc.noConfusion
    · exact lists_of_blocked rfl rfl fun _ h => by cases h

theorem lists_recvReturn (s : RcsT) (L : Nat) :
    Lists (s.recvReturnUses L) (s.recvReturn L) := by
  unfold RcsT.recvReturnUses RcsT.recvReturn
  split
  · exact ⟨rfl, fun bytes h => by cases h; rfl⟩
  · exact ⟨rfl, rfl, rfl⟩

theorem lists_recvAgain (s : RcsT) (L : Nat) : Lists (s.recvAgainUses L) (s.recvAgain L) := by
  unfold RcsT.recvAgainUses RcsT.recvAgain
  split
  · exact lists_of_blocked rfl rfl fun _ => Pc.noConfusion
  · exact lists_recvReturn s L

theorem lists_recvWhile (s : RcsT) (L : Nat) : Lists (s.recvWhileUses L) (s.recvWhile L) := by
  unfold RcsT.recvWhileUses RcsT.recvWhile
  split
  · exact lists_recvAgain s L
  · exact lists_of_blocked rfl rfl fun _ => Pc.noConfusion

theorem lists_finalizeEnd (s : RcsT) (L : Nat) :
    Lists (s.finalizeEndUses L) (s.finalizeEnd L) :=
  show Lists ([] ++ _) _ from (lists_recvAgain (s.setTimeout RECV_TIMEOUT).1 L).after rfl rfl

theorem lists_finalizePass (s : RcsT) (L : Nat) (ack response : MsgT) (o : RecvFrom) :
    Lists (s.finalizePassUses L ack response o) (s.finalizePass L ack response o) := by
  obtain ⟨hsent, hreads⟩ := rawrecvUses_sent s o
  unfold RcsT.finalizePassUses RcsT.finalizePass
  dsimp only
  split
  · exact (lists_finalizeEnd _ L).after hsent hreads
  · split
    · exact Lists.after ⟨(lists_finalizeEnd _ L).sent, (lists_finalizeEnd _ L).reads⟩ hsent hreads
    · refine lists_of_blocked ?_ ?_ fun _ => Pc.noConfusion
      · rw [sentIn_append, hsent, Res.messages, List.filterMap_append]
        rfl
      · rw [readsIn_append, hreads]
        rfl

theorem lists_recvBody (s : RcsT) (L : Nat) (response : MsgT) (ok : Bool) :
    Lists (s.recvBodyUses L response ok) (s.recvBody L response ok) := by
  -- what is queued is not sent
  have hend : ∀ (s' : RcsT) (ack : MsgT) (queued : List Event),
      queued.filterMap Event.message = [] →
      Lists ((if s'.isClosing_ then [] else [.sent ack]) ++
          if ok && response.hasFlag EOS then [] else s'.recvWhileUses L)
        (if ok && response.hasFlag EOS then
          (s'.finalizeStart L ack).after
            (queued ++ if s'.isClosing_ then [] else [s'.rawsend ack])
        else
          (s'.recvWhile L).after
            (queued ++ if s'.isClosing_ then [] else [s'.rawsend ack])) := by
    intro s' ack queued hqueued
    have hfront : sentIn (if s'.isClosing_ then [] else [.sent ack]) =
          (queued ++ if s'.isClosing_ then [] else [s'.rawsend ack]).filterMap Event.message ∧
        readsIn (if s'.isClosing_ then [] else [.sent ack]) = [] := by
      rw [List.filterMap_append, hqueued]
      cases s'.isClosing_ with
      | true => exact ⟨rfl, rfl⟩
      | false => exact ⟨rfl, rfl⟩
    cases ok && response.hasFlag EOS with
    | true =>
      have hstart : Lists [] (s'.finalizeStart L ack) :=
        lists_of_blocked rfl rfl fun _ => Pc.noConfusion
      exact hstart.after hfront.1 hfront.2
    | false => exact (lists_recvWhile s' L).after hfront.1 hfront.2
  unfold RcsT.recvBodyUses RcsT.recvBody
  cases ok && response.seqnum == s.recvSeqnum_ with
  | true => exact hend _ _ [.queued response] rfl
  | false => exact hend _ _ [] rfl

theorem lists_recvPass (s : RcsT) (L : Nat) (o : RecvFrom) :
    Lists (s.recvPassUses L o) (s.recvPass L o) := by
  obtain ⟨hsent, hreads⟩ := rawrecvUses_sent s o
  unfold RcsT.recvPassUses RcsT.recvPass
  dsimp only
  split
  · exact (lists_recvWhile _ L).after hsent hreads
  · rw [← List.append_assoc]
    refine (lists_recvBody _ L _ _).after ?_ ?_
    · rw [sentIn_append, hsent]
      split
      · exact List.append_nil _
      · exact List.append_nil _
    · rw [readsIn_append, hreads]
      split
      · rfl
      · rfl

/-- What a blocked call does behind its receive is what is listed. -/
theorem lists_resume (hi : pc.idle = false) (s : RcsT) (o : RecvFrom) :
    Lists (resumeUses s pc o) (resume s pc o) := by
  cases pc with
  | returned ret => cases hi
  | recvLoop L => exact lists_recvPass s L o
  | finalizeRecv L ack response => exact lists_finalizePass s L ack response o
  | sendFragment data k msg =>
    obtain ⟨hsent, hreads⟩ := acksendUses_sent s msg o
    unfold resumeUses Rcs.resume
    dsimp only
    split
    · exact (lists_sendLoop _ data _).after hsent hreads
    · refine lists_of_blocked ?_ ?_ fun _ => Pc.noConfusion
      · rw [sentIn_append, hsent]
        exact List.append_nil _
      · rw [readsIn_append, hreads]
        rfl
  | sendEos data msg =>
    obtain ⟨hsent, hreads⟩ := acksendUses_sent s msg o
    unfold resumeUses Rcs.resume
    dsimp only
    split
    · exact lists_of_blocked hsent hreads fun _ h => by cases h
    · exact lists_of_blocked hsent hreads fun _ => Pc.noConfusion

theorem lists_start (s : RcsT) (c : Call) : Lists (startUses s c) (start s c) := by
  cases c with
  | send data => exact lists_sendLoop (sendStarted s) data 0
  | recv L => exact lists_recvWhile { s with recvSeqnum_ := 0 } L

end Lists

end Ece358.Rcs
