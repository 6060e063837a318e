/-
  File:      Ece358/InOrder.lean
  Subject:   A socket that is in order, and that what its calls rely on holds there.

  The buffer counts at least the bytes that can be read, and the message a blocked call holds can
  be sent. Every stretch of a call leaves it so, whatever it received.

  * `Use.Own`, `Parts` -- what a socket does by itself, and the rest, which looks at the message
    received;
  * `resume_iff`, `start_iff` -- everything holds that a stretch relies on, but for what it asks of
    the message it receives, and for the printing of those it sends;
  * `InOrder` -- what all stretches keep.
-/
import Ece358.Checks

namespace Ece358.Rcs

open Lib MsgT

/-! ## 1. What holds of every stretch -/

/-- What rawrecv does with a message that it has received. -/
def heardUses : RecvFrom → List Use
  | .error _ => []
  | .datagram _ bytes _ =>
    if bytes = [] then [] else [.inspected (ofDatagram bytes), .asked (ofDatagram bytes)]

/-- What its caller asks of the message that it has then. -/
def askedUses (r : RcsT.RawRecv) : Pc → List Use
  | .sendFragment _ _ _ => [.asked (r.msg.getD MsgT.default)]
  | .sendEos _ _ => [.asked (r.msg.getD MsgT.default)]
  | .recvLoop _ =>
    if r.bytes ≠ 0 ∧ r.bytes = (r.msg.getD MsgT.default).getTotalLength then
      [.asked (r.msg.getD MsgT.default)]
    else []
  | .finalizeRecv _ _ response => if r.bytes = 0 then [] else [.asked (r.msg.getD response)]
  | .returned _ => []

/-- The part of a stretch that is about the message received. -/
def messageChecks (inspect : Bool) (s : RcsT) (pc : Pc) (o : RecvFrom) : List Check :=
  checksOf inspect (heardUses o ++ askedUses (s.rawrecv o) pc)

/-- The message that a blocked call holds can be sent. -/
def Pc.Sendable : Pc → Prop
  | .sendFragment _ _ msg => msg.Sendable
  | .sendEos _ msg => msg.Sendable
  | .finalizeRecv _ ack _ => ack.Sendable
  | _ => True

/-- These of the uses look at messages received, and the others are the socket's own. -/
structure Parts (us looked : List Use) : Prop where
  looks : us.filter Use.looks = looked
  own : ∀ u ∈ us, u.looks = false → u.Own

section Stretches

variable {kinds : Check → Bool} {inspect : Bool} {s : RcsT} {b : MsgBufferT} {m : MsgT} {L : Nat}
  {o : RecvFrom} {pc : Pc} {us us' looked looked' : List Use}

theorem Parts.append (h : Parts us looked) (h' : Parts us' looked') :
    Parts (us ++ us') (looked ++ looked') where
  looks := by rw [List.filter_append, h.looks, h'.looks]
  own := List.forall_mem_append.mpr ⟨h.own, h'.own⟩

/-- Uses that are all the socket's own. -/
theorem parts_own (h : ∀ u ∈ us, u.Own) : Parts us [] where
  looks := List.filter_eq_nil_iff.mpr fun u hu hl => by
    have hown := h u hu
    cases u <;> first | exact hown | cases hl
  own := fun u hu _ => h u hu

theorem parts_nil : Parts [] [] := ⟨rfl, fun _ hu => absurd hu List.not_mem_nil⟩

theorem parts_asked (m : MsgT) : Parts [.asked m] [.asked m] where
  looks := rfl
  own := fun u hu hl => by
    rw [List.mem_singleton.mp hu] at hl
    cases hl

theorem own_nil : ∀ u ∈ ([] : List Use), u.Own := fun _ hu => absurd hu List.not_mem_nil

theorem own_sent (h : m.Sendable) : ∀ u ∈ [Use.sent m], u.Own := fun u hu => by
  rw [List.mem_singleton.mp hu]
  exact h

theorem allHold_checksOf :
    AllHold kinds (checksOf inspect us) ↔ ∀ u ∈ us, AllHold kinds (u.checks inspect) := by
  unfold AllHold checksOf
  simp only [List.mem_flatMap]
  exact ⟨fun h u hu c hc => h c ⟨u, hu, hc⟩, fun h c ⟨u, hu, hc⟩ => h u hu c hc⟩

theorem mem_sentIn : m ∈ sentIn us ↔ .sent m ∈ us := by
  unfold sentIn
  rw [List.mem_filterMap]
  refine ⟨fun ⟨u, hu, hm⟩ => ?_, fun h => ⟨_, h, rfl⟩⟩
  cases u <;> cases hm
  exact hu

/-- Whatever the socket does by itself holds, but for the printing of what it sends. -/
theorem Parts.hold_iff (h : Parts us looked) :
    AllHold kinds (checksOf inspect us) ↔
      AllHold kinds (checksOf inspect looked) ∧
        ∀ m ∈ sentIn us, AllHold kinds (m.inspectChecks inspect) := by
  rw [allHold_checksOf, allHold_checksOf, ← h.looks]
  constructor
  · intro hall
    refine ⟨fun u hu => hall u (List.mem_filter.mp hu).1, fun m hm => ?_⟩
    exact (allHold_append.mp (hall (.sent m) (mem_sentIn.mp hm))).1
  · rintro ⟨hlooked, hsent⟩ u hu
    cases hl : u.looks with
    | true => exact hlooked u (List.mem_filter.mpr ⟨hu, hl⟩)
    | false =>
      have hown := h.own u hu hl
      cases u with
      | asked m => cases hl
      | inspected m => cases hl
      | built src len => exact fragmentChecks_hold hown.1 hown.2.1 hown.2.2
      | sent m => exact (rawsendChecks_iff hown).mpr (hsent m (mem_sentIn.mpr hu))
      | read b L => exact readChecks_hold hown.1 hown.2 L

theorem counted_new : MsgBufferT.new.Counted := ⟨0, MsgBufferT.counts_new⟩

theorem MsgBufferT.Counted.queue (h : b.Counted) (hm : m.length.toNat ≤ MAX_DATA_LENGTH) :
    (b.queueMessage m).Counted := h.imp' _ fun _ h => h.queue hm

theorem MsgBufferT.Counted.leftOf (h : b.Counted) (L : Nat) : (leftOf L b).Counted :=
  h.imp fun _ h => (leftOf_counts h L).1

theorem sendable_ack (n : UInt16) : (control n ACK).Sendable :=
  sendable_control n (by decide)

theorem closeUses_own : ∀ u ∈ RcsT.closeUses, u.Own := by
  intro u hu
  rw [List.eq_of_mem_replicate hu]
  exact sendable_control 666 (by decide)

theorem parts_rawrecv (o : RecvFrom) : Parts (RcsT.rawrecvUses o) (heardUses o) := by
  cases o with
  | error e => exact parts_nil
  | datagram e d src =>
    unfold RcsT.rawrecvUses heardUses
    dsimp only
    split
    · exact parts_nil
    · have hheard : Parts [.inspected (ofDatagram d), .asked (ofDatagram d)]
          [.inspected (ofDatagram d), .asked (ofDatagram d)] :=
        ⟨rfl, fun u hu hl => by
          simp only [List.mem_cons, List.not_mem_nil, or_false] at hu
          obtain rfl | rfl := hu <;> cases hl⟩
      refine hheard.append (parts_own ?_)
      split
      · exact closeUses_own
      · exact own_nil

/-- The fragments of a send are within the data, and have at least one byte. -/
theorem sendLoopUses_own (s : RcsT) (data : List UInt8) (k : Nat) :
    ∀ u ∈ s.sendLoopUses data k, u.Own := by
  unfold RcsT.sendLoopUses
  split
  next h =>
    obtain ⟨hk, _⟩ := h
    have h1 : 1 ≤ min (data.length - k) MAX_DATA_LENGTH := by
      simp only [MAX_DATA_LENGTH]
      omega
    have hmax := Nat.min_le_right (data.length - k) MAX_DATA_LENGTH
    have hdrop : min (data.length - k) MAX_DATA_LENGTH ≤ (data.drop k).length := by
      rw [List.length_drop]
      exact Nat.min_le_left _ _
    exact List.forall_mem_cons.mpr ⟨⟨h1, hmax, hdrop⟩, own_sent (sendable_fragment _ _ h1 hmax)⟩
  next =>
    split
    · exact own_sent (sendable_control _ (by decide))
    · exact own_nil

/-- recv reads a buffer only where it is not empty. -/
theorem recvAgainUses_own (h : s.buffer_.Counted) (L : Nat) :
    ∀ u ∈ s.recvAgainUses L, u.Own := by
  have hread : s.buffer_.empty = false → ∀ u ∈ [Use.read s.buffer_ L], u.Own := fun he u hu => by
    rw [List.mem_singleton.mp hu]
    exact ⟨h, he⟩
  unfold RcsT.recvAgainUses RcsT.recvReturnUses
  cases he : s.buffer_.empty with
  | false =>
    rw [Bool.false_and, Bool.and_false]
    exact hread he
  | true =>
    cases hc : s.isClosing_ with
    | true => exact own_nil
    | false => exact own_nil

theorem recvWhileUses_own (h : s.buffer_.Counted) (L : Nat) :
    ∀ u ∈ s.recvWhileUses L, u.Own := by
  unfold RcsT.recvWhileUses
  split
  · exact recvAgainUses_own h L
  · exact own_nil

theorem finalizeEndUses_own (h : s.buffer_.Counted) (L : Nat) :
    ∀ u ∈ s.finalizeEndUses L, u.Own :=
  recvAgainUses_own (s := (s.setTimeout RECV_TIMEOUT).1) h L

theorem recvBodyUses_own (h : s.buffer_.Counted) (L : Nat) {ok : Bool}
    (hok : ok = true → m.length.toNat ≤ MAX_DATA_LENGTH) :
    ∀ u ∈ s.recvBodyUses L m ok, u.Own := by
  -- behind the test of the number
  have hend : ∀ (s' : RcsT) (v : UInt16), s'.buffer_.Counted →
      ∀ u ∈ (if s'.isClosing_ then [] else [Use.sent (control v ACK)]) ++
        if ok && m.hasFlag EOS then [] else s'.recvWhileUses L, u.Own := by
    intro s' v hs'
    refine List.forall_mem_append.mpr ⟨?_, ?_⟩
    · split
      · exact own_nil
      · exact own_sent (sendable_ack v)
    · split
      · exact own_nil
      · exact recvWhileUses_own hs' L
  unfold RcsT.recvBodyUses
  cases hseq : ok && m.seqnum == s.recvSeqnum_ with
  | true =>
    rw [Bool.and_eq_true] at hseq
    exact hend (queue s m) _ (MsgBufferT.Counted.queue h (hok hseq.1))
  | false => exact hend s _ h

theorem parts_resume (h : s.buffer_.Counted) (hs : pc.Sendable) (hi : pc.idle = false)
    (o : RecvFrom) :
    Parts (resumeUses s pc o) (heardUses o ++ askedUses (s.rawrecv o) pc) := by
  have hb : (s.rawrecv o).sock.buffer_.Counted := (rawrecv_rest s o).1 ▸ h
  have hheard := parts_rawrecv o
  have hack : ∀ msg : MsgT, msg.Sendable → Parts (s.acksendUses msg o)
      (heardUses o ++ [.asked ((s.rawrecv o).msg.getD MsgT.default)]) := by
    intro msg hmsg
    refine List.append_nil (heardUses o ++ _) ▸
      (hheard.append (parts_asked _)).append (parts_own ?_)
    split
    · exact own_nil
    · exact own_sent hmsg
  cases pc with
  | returned ret => cases hi
  | sendFragment data k msg =>
    refine List.append_nil (heardUses o ++ _) ▸ (hack msg hs).append (parts_own ?_)
    split
    · exact sendLoopUses_own _ _ _
    · exact own_nil
  | sendEos data msg => exact hack msg hs
  | recvLoop L =>
    refine hheard.append ?_
    unfold askedUses
    dsimp only
    by_cases h0 : (s.rawrecv o).bytes = 0
    · rw [if_pos h0, if_neg fun h' => h'.1 h0]
      exact parts_own (recvWhileUses_own hb L)
    · have hbody : ∀ u ∈ (s.rawrecv o).sock.recvBodyUses L ((s.rawrecv o).msg.getD default)
          (RcsT.isValid (s.rawrecv o).bytes ((s.rawrecv o).msg.getD default)), u.Own :=
        recvBodyUses_own hb L fun hok => valid_length_le (Bool.and_eq_true_iff.mp hok).1
      rw [if_neg h0]
      by_cases hsize : (s.rawrecv o).bytes = ((s.rawrecv o).msg.getD default).getTotalLength
      · rw [if_pos hsize, if_pos ⟨h0, hsize⟩]
        exact (parts_asked _).append (parts_own hbody)
      · rw [if_neg hsize, if_neg fun h' => hsize h'.2]
        exact parts_own hbody
  | finalizeRecv L ack response =>
    refine hheard.append ?_
    unfold askedUses
    dsimp only
    split
    · exact parts_own (finalizeEndUses_own hb L)
    · have hgo : ∀ u ∈ (if RcsT.startsNext ((s.rawrecv o).msg.getD response) = true then
          (s.rawrecv o).sock.finalizeEndUses L else [.sent ack]), u.Own := by
        split
        · exact finalizeEndUses_own hb L
        · exact own_sent hs
      exact (parts_asked _).append (parts_own hgo)

/-- What rawrecv does is in each of them. -/
theorem mem_resumeUses (hi : pc.idle = false) (s : RcsT) {u : Use}
    (hu : u ∈ RcsT.rawrecvUses o) : u ∈ resumeUses s pc o := by
  have hack : ∀ msg, u ∈ s.acksendUses msg o := fun msg =>
    List.mem_append_left _ (List.mem_append_left _ hu)
  cases pc with
  | returned ret => cases hi
  | sendFragment data k msg => exact List.mem_append_left _ (hack msg)
  | sendEos data msg => exact hack msg
  | recvLoop L => exact List.mem_append_left _ hu
  | finalizeRecv L ack response => exact List.mem_append_left _ hu

/-- All that a blocked call relies on holds, but for what it asks of the message it receives, and
    for the printing of what it sends. -/
theorem resume_iff (h : s.buffer_.Counted) (hs : pc.Sendable) (hi : pc.idle = false)
    (o : RecvFrom) :
    AllHold kinds (resumeChecks inspect s pc o) ↔
      AllHold kinds (messageChecks inspect s pc o) ∧
        ∀ m ∈ (resume s pc o).messages, AllHold kinds (m.inspectChecks inspect) := by
  rw [← (lists_resume hi s o).sent]
  exact (parts_resume h hs hi o).hold_iff

theorem start_iff (h : s.buffer_.Counted) (c : Call) :
    AllHold kinds (startChecks inspect s c) ↔
      ∀ m ∈ (start s c).messages, AllHold kinds (m.inspectChecks inspect) := by
  have hown : ∀ u ∈ startUses s c, u.Own := by
    cases c with
    | send data => exact sendLoopUses_own (sendStarted s) data 0
    | recv L => exact recvWhileUses_own (s := { s with recvSeqnum_ := 0 }) h L
  rw [← (lists_start s c).sent]
  exact (parts_own hown).hold_iff.trans (and_iff_right allHold_nil)

/-- What is asked of messages comes from `valid()` and from the printer. -/
theorem messageChecks_hold (hv : ∀ m : MsgT, AllHold kinds m.validChecks)
    (hp : ∀ m : MsgT, AllHold kinds (m.inspectChecks inspect)) (s : RcsT) (pc : Pc)
    (o : RecvFrom) : AllHold kinds (messageChecks inspect s pc o) := by
  have hasked : ∀ m : MsgT, ∀ u ∈ [Use.asked m], AllHold kinds (u.checks inspect) :=
    fun m u hu => List.mem_singleton.mp hu ▸ hv m
  have hnone : ∀ u ∈ ([] : List Use), AllHold kinds (u.checks inspect) :=
    fun _ hu => absurd hu List.not_mem_nil
  unfold messageChecks heardUses askedUses
  refine allHold_checksOf.mpr (List.forall_mem_append.mpr ⟨?_, ?_⟩)
  · split
    · exact hnone
    · split
      · exact hnone
      · exact List.forall_mem_cons.mpr ⟨hp _, hasked _⟩
  · split
    · exact hasked _
    · exact hasked _
    · split
      · exact hasked _
      · exact hnone
    · split
      · exact hnone
      · exact hasked _
    · exact hnone

/-! ## 2. What stretches keep -/

/-- A socket and its call, as all stretches leave them. -/
structure InOrder (s : RcsT) (pc : Pc) : Prop where
  counted : s.buffer_.Counted
  sendable : pc.Sendable
  blocked : pc.idle = false → (∃ L, RecvBlocked L pc) ∨ SendBlocked pc

theorem RecvBlocked.sendable (h : RecvBlocked L pc) : pc.Sendable := by
  cases h with
  | loop => trivial
  | finalize v response => exact sendable_ack v

theorem sendLoop_sendable (s : RcsT) (data : List UInt8) (k : Nat) :
    (s.sendLoop data k).pc.Sendable := by
  unfold RcsT.sendLoop
  split
  next h =>
    refine sendable_fragment _ _ ?_ (Nat.min_le_right _ _)
    have hk := h.1
    simp only [MAX_DATA_LENGTH]
    omega
  next =>
    split
    · exact sendable_control _ (by decide)
    · trivial

/-- A stretch of a recv. -/
theorem inOrder_recv {closing : Bool} {msgs : List MsgT} {r : Res} (h : b.Counted)
    (hr : RecvStretch L b closing msgs r) (hoff : ReadsOff L b r) : InOrder r.sock r.pc := by
  rcases hr.goes with ⟨hpc, hb⟩ | hpc
  · exact ⟨hb ▸ h, hpc.sendable, fun _ => Or.inl ⟨L, hpc⟩⟩
  · obtain ⟨hb, _⟩ := hoff (by rw [hpc]; rfl)
    rw [hpc]
    exact ⟨hb ▸ h.leftOf L, trivial, fun hi => by cases hi⟩

/-- A stretch of a send. -/
theorem inOrder_send {r : Res} (h : b.Counted) (hr : SendStretch b r) (hs : r.pc.Sendable) :
    InOrder r.sock r.pc := by
  refine ⟨hr.buffer ▸ h, hs, fun hi => Or.inr (hr.goes.resolve_right ?_)⟩
  rintro ⟨length, hpc⟩
  rw [hpc] at hi
  cases hi

theorem inOrder_start (h : s.buffer_.Counted) (c : Call) :
    InOrder (start s c).sock (start s c).pc := by
  cases c with
  | send data =>
    exact inOrder_send h (stretch_sendLoop (sendStarted s) data 0) (sendLoop_sendable _ data 0)
  | recv L => exact inOrder_recv h (stretch_recv s L) (readsOff_recv s L)

theorem InOrder.resume (h : InOrder s pc) (hi : pc.idle = false) (o : RecvFrom) :
    InOrder (resume s pc o).sock (resume s pc o).pc := by
  rcases h.blocked hi with ⟨L, hpc⟩ | hpc
  · obtain ⟨k, hk⟩ := h.counted
    exact inOrder_recv ⟨_, queueAll_counts hk fun m hm => received_fits hm⟩
      (stretch_resume hpc s o) (readsOff_resume hpc s o)
  · refine inOrder_send h.counted (stretch_sends hpc s o) ?_
    have hs := h.sendable
    cases hpc with
    | fragment data k msg =>
      unfold Rcs.resume
      dsimp only
      split
      · exact sendLoop_sendable _ _ _
      · exact hs
    | eos data msg =>
      unfold Rcs.resume
      dsimp only
      split
      · trivial
      · exact hs

end Stretches

end Ece358.Rcs
