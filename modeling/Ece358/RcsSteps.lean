/-
  File:      Ece358/RcsSteps.lean
  Subject:   What one stretch of a call does, on an open connected socket.

  `Open s` is a socket that is not closing and has its endpoint. A datagram `d` that arrives is
  described by the message `m` it was sent as: `d` is the wire form of `m` or, where the network
  cut it, a prefix of it. The lemmas here are the only ones that look inside the methods:

  * `acksend_cases` -- an acksend is answered, or sends its message again;
  * `recvLoop_cases` -- the five things that a datagram can do to the inner loop of recv;
  * `finalize_cases` -- finalizeRecv answers with its acknowledgement, or ends;
  * `finalizeEnd_cases` -- recv starts its next pass, or returns what a read takes;
  * `*_timeout` -- the same for a timer that fires;
  * `ticks_resume` -- no call switches the timer off.
-/
import Ece358.Rcs

namespace Ece358.Rcs

open Lib

/-! ## 1. Open sockets -/

/-- A socket that is not closing and knows its peer. -/
structure Open (s : RcsT) : Prop where
  notClosing : s.isClosing_ = false
  connected : s.hasEndpoint_ = true

/-- The message a datagram was sent as, where the network does no more than cut it. -/
structure SentAs (d : List UInt8) (m : MsgT) : Prop where
  isPrefix : d <+: m.wire
  built : m.Built
  noFin : m.hasFlag FIN = false

theorem Open.from {s : RcsT} (h : Open s) (src : SockaddrIn) :
    Open { s with fromEndpoint_ := src } := ⟨h.notClosing, h.connected⟩

namespace MsgT

theorem accepted_length {d : List UInt8} (h : accepted d = true) : 12 ≤ d.length := by
  simp only [accepted, Bool.and_eq_true, beq_iff_eq, recvSize, getTotalLength_eq] at h
  omega

theorem default_valid : default.valid = false := rfl

theorem wire_ne_nil {m : MsgT} (h : m.Built) : m.wire ≠ [] := by
  intro e
  have := length_wire h.length_le
  rw [e, List.length_nil] at this
  omega

end MsgT

open MsgT

/-- An accepted datagram is the whole message it was sent as. -/
theorem SentAs.whole {d : List UInt8} {m : MsgT} (h : SentAs d m) (ha : accepted d = true) :
    d = m.wire ∧ ofDatagram d = m := by
  have hd := accepted_prefix h.built h.isPrefix ha
  exact ⟨hd, by rw [hd, ofDatagram_wire h.built]⟩

theorem SentAs.refl {m : MsgT} (hb : m.Built) (hf : m.hasFlag FIN = false) : SentAs m.wire m :=
  ⟨List.prefix_rfl, hb, hf⟩

theorem SentAs.accepted_wire {d : List UInt8} {m : MsgT} (h : SentAs d m) (hd : d = m.wire) :
    accepted d = true := by rw [hd, MsgT.accepted_wire h.built]

/-- A datagram that closes nothing. -/
def NoFin (d : List UInt8) : Prop := accepted d = true → (ofDatagram d).hasFlag FIN = false

theorem SentAs.noFinHere {d : List UInt8} {m : MsgT} (h : SentAs d m) : NoFin d := by
  intro ha
  rw [(h.whole ha).2]
  exact h.noFin

/-! ## 2. rawrecv -/

section Rawrecv

variable {s : RcsT} {d : List UInt8} {e : Errno} {src : SockaddrIn}

theorem rawrecv_error (h : Open s) (e : Errno) :
    s.rawrecv (.error e) = ⟨s, [], RcsT.errnoResult e, none⟩ := by
  simp [RcsT.rawrecv, h.connected]

theorem rawrecv_empty (h : Open s) :
    s.rawrecv (.datagram e [] src) =
      ⟨{ s with fromEndpoint_ := src }, [], RcsT.errnoResult e, none⟩ := by
  simp [RcsT.rawrecv, h.connected]

theorem rawrecv_datagram (h : Open s) (hd : NoFin d) (hne : d ≠ []) :
    s.rawrecv (.datagram e d src) =
      ⟨{ s with fromEndpoint_ := src }, [], recvSize d, some (ofDatagram d)⟩ := by
  have hf : (accepted d && (ofDatagram d).hasFlag FIN) = false := by
    cases ha : accepted d with
    | false => rfl
    | true => rw [hd ha]; rfl
  simp [RcsT.rawrecv, h.connected, hne, hf]

/-- Without a message rawrecv returns 0 only for `EAGAIN`. -/
theorem errnoResult_zero (errno : Errno) : RcsT.errnoResult errno = 0 ↔ errno = .EAGAIN := by
  unfold RcsT.errnoResult
  split
  next h => exact iff_of_true rfl h
  next h => exact iff_of_false Nat.one_ne_zero h

theorem recvSize_ne_zero (hne : d ≠ []) : recvSize d ≠ 0 := by
  have := List.length_pos_iff.mpr hne
  simp only [recvSize, sizeofMsgT]
  omega

theorem isValid_ofDatagram (d : List UInt8) :
    RcsT.isValid (recvSize d) (ofDatagram d) = accepted d := rfl

end Rawrecv

/-! ## 3. acksend -/

section Acksend

variable {s : RcsT} {d : List UInt8} {m msg : MsgT} {e : Errno} {src : SockaddrIn}

theorem acksend_timeout (h : Open s) (msg : MsgT) :
    s.acksend msg (.error .EAGAIN) = (s, [s.rawsend msg], false) := by
  simp [RcsT.acksend, RcsT.lowrecv, rawrecv_error h, RcsT.isValid, default_valid, h.notClosing]

theorem acksend_empty (h : Open s) (msg : MsgT) :
    s.acksend msg (.datagram e [] src) =
      ({ s with fromEndpoint_ := src }, [s.rawsend msg], false) := by
  simp [RcsT.acksend, RcsT.lowrecv, rawrecv_empty h, RcsT.isValid, default_valid, h.notClosing]
  rfl

/-- An acksend that receives something looks at its number only. -/
theorem acksend_received (h : Open s) (msg : MsgT) (hd : NoFin d) (hne : d ≠ []) :
    s.acksend msg (.datagram e d src) =
      if accepted d = true ∧ (ofDatagram d).seqnum = msg.seqnum then
        ({ s with fromEndpoint_ := src }, [.acked msg], true)
      else ({ s with fromEndpoint_ := src }, [s.rawsend msg], false) := by
  simp only [RcsT.acksend, RcsT.lowrecv, rawrecv_datagram h hd hne, Option.getD_some,
    isValid_ofDatagram, Bool.and_eq_true, beq_iff_eq, h.notClosing]
  rfl

/-- An acksend that receives ends when the datagram is whole and has the awaited number, whatever
    else it is; otherwise the message goes out again. -/
theorem acksend_cases (h : Open s) (msg : MsgT) (hd : SentAs d m) (e : Errno) (src : SockaddrIn) :
    (d = m.wire ∧ m.seqnum = msg.seqnum ∧ s.acksend msg (.datagram e d src) =
      ({ s with fromEndpoint_ := src }, [.acked msg], true)) ∨
    ((d = m.wire → m.seqnum ≠ msg.seqnum) ∧ s.acksend msg (.datagram e d src) =
      ({ s with fromEndpoint_ := src }, [s.rawsend msg], false)) := by
  by_cases hne : d = []
  · right
    refine ⟨fun hw => absurd (hw.symm.trans hne) (wire_ne_nil hd.built), ?_⟩
    subst hne
    exact acksend_empty h msg
  · rw [acksend_received h msg hd.noFinHere hne]
    cases ha : accepted d with
    | false =>
      right
      exact ⟨fun hw => absurd (hd.accepted_wire hw) (by simp [ha]), if_neg (by simp)⟩
    | true =>
      obtain ⟨hw, hm⟩ := hd.whole ha
      rw [hm]
      by_cases hs : m.seqnum = msg.seqnum
      · exact Or.inl ⟨hw, hs, if_pos ⟨rfl, hs⟩⟩
      · exact Or.inr ⟨fun _ => hs, if_neg fun h => hs h.2⟩

end Acksend

/-! ## 4. recv -/

section Recv

variable {s : RcsT} {d : List UInt8} {m : MsgT} {e : Errno} {src : SockaddrIn} {L : Nat}

theorem recvPass_timeout (h : Open s) (L : Nat) :
    s.recvPass L (.error .EAGAIN) = ⟨s, [], .recvLoop L⟩ := by
  simp [RcsT.recvPass, rawrecv_error h, RcsT.errnoResult, RcsT.recvWhile, h.notClosing, Res.after]

/-- An empty datagram passes for a timeout while errno still says so. -/
theorem recvPass_empty (h : Open s) (L : Nat) :
    s.recvPass L (.datagram .EAGAIN [] src) =
      ⟨{ s with fromEndpoint_ := src }, [], .recvLoop L⟩ := by
  simp [RcsT.recvPass, rawrecv_empty h, RcsT.errnoResult, RcsT.recvWhile, h.notClosing, Res.after]

/-- The acknowledgement that recv has ready before it receives. -/
def readyAck (s : RcsT) : MsgT := MsgT.control (s.recvSeqnum_ - 1) ACK

/-- What is not accepted is answered with the acknowledgement that is ready. -/
theorem recvBody_invalid (h : Open s) (L : Nat) (response : MsgT) :
    s.recvBody L response false = ⟨s, [s.rawsend (readyAck s)], .recvLoop L⟩ := by
  simp [RcsT.recvBody, RcsT.recvWhile, h.notClosing, Res.after, readyAck]

theorem recvPass_received (h : Open s) (hd : NoFin d) (hr : d ≠ [] ∨ e ≠ .EAGAIN) :
    s.recvPass L (.datagram e d src) =
      { s with fromEndpoint_ := src }.recvBody L (ofDatagram d) (accepted d) := by
  by_cases hne : d = []
  · subst hne
    have he : e ≠ .EAGAIN := hr.resolve_left (fun h => h rfl)
    have ha : accepted [] = false := by
      cases ha : accepted [] with
      | false => rfl
      | true => exact absurd (accepted_length ha) (by simp)
    have hv : RcsT.isValid 1 default = false := rfl
    rw [ha, recvBody_invalid (h.from src)]
    simp [RcsT.recvPass, rawrecv_empty h, RcsT.errnoResult, he, hv, recvBody_invalid (h.from src),
      Res.after]
  · simp [RcsT.recvPass, rawrecv_datagram h hd hne, recvSize_ne_zero hne, isValid_ofDatagram,
      Res.after]

/-- The socket behind a queued message. -/
def queue (s : RcsT) (m : MsgT) : RcsT :=
  { s with buffer_ := s.buffer_.queueMessage m, recvSeqnum_ := s.recvSeqnum_ + 1 }

/-- The socket in finalizeRecv. -/
def finalizing (s : RcsT) : RcsT := { s with timeout := PROTOCOL_TIMEOUT }

/-- What the body of the loop does with an accepted message. -/
theorem recvBody_accepted (h : Open s) (L : Nat) (m : MsgT) :
    s.recvBody L m true =
      if m.seqnum = s.recvSeqnum_ then
        if m.hasFlag EOS = true then
          ⟨finalizing (queue s m), [.queued m, s.rawsend (MsgT.control s.recvSeqnum_ ACK),
            .setTimeout s.ucpSocket_ PROTOCOL_TIMEOUT],
            .finalizeRecv L (MsgT.control s.recvSeqnum_ ACK) default⟩
        else ⟨queue s m, [.queued m, s.rawsend (MsgT.control s.recvSeqnum_ ACK)], .recvLoop L⟩
      else
        if m.hasFlag EOS = true then
          ⟨finalizing s, [s.rawsend (readyAck s), .setTimeout s.ucpSocket_ PROTOCOL_TIMEOUT],
            .finalizeRecv L (readyAck s) default⟩
        else ⟨s, [s.rawsend (readyAck s)], .recvLoop L⟩ := by
  have hq : (queue s m).isClosing_ = false := h.notClosing
  by_cases hs : m.seqnum = s.recvSeqnum_ <;> by_cases he : m.hasFlag EOS = true <;>
    simp [RcsT.recvBody, RcsT.recvWhile, RcsT.finalizeStart, RcsT.setTimeout, Res.after, readyAck,
      h.notClosing, hs, he, queue, finalizing, RcsT.rawsend]

/-- The five things a datagram can do to the inner loop of recv. -/
theorem recvLoop_cases (h : Open s) (hd : SentAs d m) (L : Nat) (e : Errno) (src : SockaddrIn) :
    let s' := { s with fromEndpoint_ := src }
    let r := resume s (.recvLoop L) (.datagram e d src)
    (d = [] ∧ e = .EAGAIN ∧ r = ⟨s', [], .recvLoop L⟩) ∨
    ((d = m.wire → m.seqnum ≠ s.recvSeqnum_ ∧ m.hasFlag EOS = false) ∧
      r = ⟨s', [s'.rawsend (readyAck s)], .recvLoop L⟩) ∨
    (d = m.wire ∧ m.seqnum = s.recvSeqnum_ ∧ m.hasFlag EOS = false ∧
      r = ⟨queue s' m, [.queued m, s'.rawsend (MsgT.control s.recvSeqnum_ ACK)], .recvLoop L⟩) ∨
    (d = m.wire ∧ m.seqnum = s.recvSeqnum_ ∧ m.hasFlag EOS = true ∧
      r = ⟨finalizing (queue s' m), [.queued m, s'.rawsend (MsgT.control s.recvSeqnum_ ACK),
        .setTimeout s.ucpSocket_ PROTOCOL_TIMEOUT],
        .finalizeRecv L (MsgT.control s.recvSeqnum_ ACK) default⟩) ∨
    (d = m.wire ∧ m.seqnum ≠ s.recvSeqnum_ ∧ m.hasFlag EOS = true ∧
      r = ⟨finalizing s', [s'.rawsend (readyAck s), .setTimeout s.ucpSocket_ PROTOCOL_TIMEOUT],
        .finalizeRecv L (readyAck s) default⟩) := by
  intro s' r
  by_cases hr : d = [] ∧ e = .EAGAIN
  · left
    obtain ⟨rfl, rfl⟩ := hr
    exact ⟨rfl, rfl, recvPass_empty h L⟩
  · right
    have hr' : d ≠ [] ∨ e ≠ .EAGAIN := by
      by_cases hd0 : d = []
      · exact Or.inr fun he => hr ⟨hd0, he⟩
      · exact Or.inl hd0
    have hres : r = s'.recvBody L (ofDatagram d) (accepted d) :=
      recvPass_received h hd.noFinHere hr'
    cases ha : accepted d with
    | false =>
      left
      refine ⟨fun hw => absurd (hd.accepted_wire hw) (by simp [ha]), ?_⟩
      rw [hres, ha, recvBody_invalid (h.from src)]
      rfl
    | true =>
      obtain ⟨hw, hm⟩ := hd.whole ha
      rw [ha, hm, recvBody_accepted (h.from src)] at hres
      by_cases hs : m.seqnum = s.recvSeqnum_
      · by_cases he : m.hasFlag EOS = true
        · exact Or.inr (Or.inr (Or.inl ⟨hw, hs, he, by rw [hres, if_pos hs, if_pos he]⟩))
        · refine Or.inr (Or.inl ⟨hw, hs, by simpa using he, ?_⟩)
          rw [hres, if_pos hs, if_neg he]
      · by_cases he : m.hasFlag EOS = true
        · refine Or.inr (Or.inr (Or.inr ⟨hw, hs, he, ?_⟩))
          rw [hres, if_neg hs, if_pos he]
          rfl
        · refine Or.inl ⟨fun _ => ⟨hs, by simpa using he⟩, ?_⟩
          rw [hres, if_neg hs, if_neg he]
          rfl

end Recv

/-! ## 5. finalizeRecv -/

section Finalize

variable {s : RcsT} {d : List UInt8} {m ack response : MsgT} {e : Errno} {src : SockaddrIn}
  {L : Nat}

/-- The socket back in recv. -/
def resumed (s : RcsT) : RcsT := { s with timeout := RECV_TIMEOUT }

/-- Behind finalizeRecv, recv starts over while it has nothing to return, and else reads. -/
theorem finalizeEnd_cases (h : Open s) (L : Nat) :
    (s.buffer_.empty = true ∧ s.finalizeEnd L =
      ⟨{ resumed s with recvSeqnum_ := 0 }, [.setTimeout s.ucpSocket_ RECV_TIMEOUT],
        .recvLoop L⟩) ∨
    (s.buffer_.empty = false ∧ s.finalizeEnd L =
      ⟨{ resumed s with buffer_ := (s.buffer_.read L).2 }, [.setTimeout s.ucpSocket_ RECV_TIMEOUT],
        .returned (.recv (s.buffer_.read L).1)⟩) := by
  cases he : s.buffer_.empty with
  | true =>
    left
    simp [RcsT.finalizeEnd, RcsT.setTimeout, RcsT.recvAgain, Res.after, he, h.notClosing, resumed]
  | false =>
    right
    simp [RcsT.finalizeEnd, RcsT.setTimeout, RcsT.recvAgain, RcsT.recvReturn, Res.after, he,
      h.notClosing, resumed]

theorem finalize_timeout (h : Open s) (L : Nat) (ack response : MsgT) :
    resume s (.finalizeRecv L ack response) (.error .EAGAIN) = s.finalizeEnd L := by
  show s.finalizePass L ack response (.error .EAGAIN) = _
  simp [RcsT.finalizePass, rawrecv_error h, RcsT.errnoResult, Res.after]

theorem startsNext_default : RcsT.startsNext default = false := rfl

/-- In finalizeRecv a datagram is answered, or it ends the wait: because it was empty and errno
    still said "timed out", or because it looks like the first fragment of a next message. -/
theorem finalize_cases (h : Open s) (hd : NoFin d) (hr : RcsT.startsNext response = false)
    (L : Nat) (ack : MsgT) (e : Errno) (src : SockaddrIn) :
    let s' := { s with fromEndpoint_ := src }
    let r := resume s (.finalizeRecv L ack response) (.datagram e d src)
    (((d = [] ∧ e = .EAGAIN) ∨ (d ≠ [] ∧ RcsT.startsNext (ofDatagram d) = true)) ∧
      r = s'.finalizeEnd L) ∨
    (¬ (d = [] ∧ e = .EAGAIN) ∧ (d ≠ [] → RcsT.startsNext (ofDatagram d) = false) ∧
      ∃ response', RcsT.startsNext response' = false ∧
        r = ⟨s', [s'.rawsend ack], .finalizeRecv L ack response'⟩) := by
  intro s' r
  have hres : r = s.finalizePass L ack response (.datagram e d src) := rfl
  by_cases hne : d = []
  · subst hne
    by_cases he : e = .EAGAIN
    · left
      refine ⟨Or.inl ⟨rfl, he⟩, ?_⟩
      rw [hres, RcsT.finalizePass, rawrecv_empty h]
      simp [RcsT.errnoResult, he, Res.after, s']
    · right
      refine ⟨fun h => he h.2, fun h => absurd rfl h, response, hr, ?_⟩
      rw [hres, RcsT.finalizePass, rawrecv_empty h]
      simp [RcsT.errnoResult, he, hr, s']
  · cases hsn : RcsT.startsNext (ofDatagram d) with
    | true =>
      left
      refine ⟨Or.inr ⟨hne, rfl⟩, ?_⟩
      rw [hres, RcsT.finalizePass, rawrecv_datagram h hd hne]
      simp [recvSize_ne_zero hne, hsn, Res.after, s']
    | false =>
      right
      refine ⟨fun h => hne h.1, fun _ => rfl, ofDatagram d, hsn, ?_⟩
      rw [hres, RcsT.finalizePass, rawrecv_datagram h hd hne]
      simp [recvSize_ne_zero hne, hsn, s']

/-- A prefix of a message without payload never ends the wait. -/
theorem startsNext_of_length_zero (hm : m.length = 0) (hd : d <+: m.wire) :
    RcsT.startsNext (ofDatagram d) = false := by
  simp [RcsT.startsNext, ofDatagram_length_zero hm hd]

end Finalize

/-! ## 6. Timers -/

section Timers

variable {s : RcsT} {L : Nat}

@[simp] theorem timeout_rawrecv (s : RcsT) (o : RecvFrom) :
    (s.rawrecv o).sock.timeout = s.timeout := by
  cases o <;> simp only [RcsT.rawrecv, RcsT.setEndpoint, RcsT.close] <;> split_ifs <;> rfl

@[simp] theorem timeout_acksend (s : RcsT) (msg : MsgT) (o : RecvFrom) :
    (s.acksend msg o).1.timeout = s.timeout := by
  show (ite _ _ _ : RcsT × List Event × Bool).1.timeout = _
  split
  · exact timeout_rawrecv s o
  · split <;> exact timeout_rawrecv s o

@[simp] theorem timeout_sendLoop (s : RcsT) (data : List UInt8) (k : Nat) :
    (RcsT.sendLoop s data k).sock.timeout = s.timeout := by
  simp only [RcsT.sendLoop]
  split_ifs <;> rfl

@[simp] theorem timeout_recvAgain (s : RcsT) (L : Nat) :
    (s.recvAgain L).sock.timeout = s.timeout := by
  simp only [RcsT.recvAgain, RcsT.recvReturn]
  split_ifs <;> rfl

@[simp] theorem timeout_recvWhile (s : RcsT) (L : Nat) :
    (s.recvWhile L).sock.timeout = s.timeout := by
  simp only [RcsT.recvWhile]
  split_ifs
  · exact timeout_recvAgain s L
  · rfl

@[simp] theorem timeout_finalizeEnd (s : RcsT) (L : Nat) :
    (s.finalizeEnd L).sock.timeout = RECV_TIMEOUT := by
  simp [RcsT.finalizeEnd, Res.after, RcsT.setTimeout]

/-- No call leaves a socket without a timer that had one. -/
theorem ticks_resume (h : s.timeout ≠ 0) (pc : Pc) (o : RecvFrom) :
    (resume s pc o).sock.timeout ≠ 0 := by
  have hP : PROTOCOL_TIMEOUT ≠ 0 := by decide
  have hR : RECV_TIMEOUT ≠ 0 := by decide
  cases pc with
  | sendFragment data k msg =>
    simp only [resume]
    split_ifs <;> simpa [Res.after] using h
  | sendEos data msg =>
    simp only [resume]
    split_ifs <;> simpa using h
  | recvLoop L =>
    simp only [resume, RcsT.recvPass, RcsT.recvBody, RcsT.finalizeStart, RcsT.setTimeout, Res.after]
    split_ifs <;> simp [h, hP]
  | finalizeRecv L ack response =>
    simp only [resume, RcsT.finalizePass, Res.after]
    split_ifs <;> simp [h, hR]
  | returned ret => exact h

theorem ticks_start (h : s.timeout ≠ 0) (c : Call) : (start s c).sock.timeout ≠ 0 := by
  cases c with
  | send data => simpa [start, RcsT.send] using h
  | recv L => simpa [start, RcsT.recv] using h

end Timers

end Ece358.Rcs
