/-
  File:      Ece358/Assembly.lean
  Subject:   One pass of the inner loop of recv, over any datagrams.

  The loop looks at a datagram three times: its number says whether it is queued, the socket says
  whether it is acknowledged, and its EOS flag says whether the pass is over. Nothing ties the three
  together: an ACK or a FIN with the expected number is queued like data, and an EOS marker with any
  number ends the pass.

  * `DataFragment`, `EosMarker` -- the messages that a pass is for;
  * `passStep`, `passStart` -- a pass, datagram by datagram;
  * `Assembles` -- the pass has assembled one message, or a beginning of it;
  * `fits` -- what a datagram must be for it;
  * `pass_quiet`, `Heard` -- the two kinds of step, on any socket that is not closing;
  * `pass_assembles_iff` -- a pass assembles one message if and only if every datagram fits.
-/
import Ece358.Fin
import Ece358.Lib.Transition

namespace Ece358.Rcs

open Lib MsgT

/-! ## 1. A pass -/

/-- A message that carries data, and nothing but data. -/
structure DataFragment (m : MsgT) : Prop where
  eos : m.hasFlag EOS = false
  ack : m.hasFlag ACK = false
  fin : m.hasFlag FIN = false
  data : 1 ≤ m.length.toNat

/-- A message that ends a send, and does nothing else. -/
structure EosMarker (m : MsgT) : Prop where
  eos : m.hasFlag EOS = true
  ack : m.hasFlag ACK = false
  fin : m.hasFlag FIN = false
  data : m.length = 0

/-- The messages that were queued. -/
def queuedIn (out : List Event) : List MsgT :=
  out.filterMap fun
    | .queued msg => some msg
    | _ => none

/-- Every ACK carries the number of the message that was queued last; `c` messages were queued
    before these events. -/
def AcksLast : Nat → List Event → Prop
  | _, [] => True
  | c, .queued _ :: es => AcksLast (c + 1) es
  | c, .sendto _ msg _ :: es =>
    (msg.hasFlag ACK = true → msg = control (num c - 1) ACK) ∧ AcksLast c es
  | c, _ :: es => AcksLast c es

/-- The start of a pass. -/
def passStart (s : RcsT) (L : Nat) : Res := ⟨{ s with recvSeqnum_ := 0 }, [], .recvLoop L⟩

/-- The next receive of a pass. The pass is over when recv is in finalizeRecv, or has returned. -/
def passStep (r : Res) (o : RecvFrom) : Option Res :=
  match r.pc with
  | .recvLoop _ => some ((resume r.sock r.pc o).after r.out)
  | _ => none

/-- The first pass of a recv, and every further one. -/
theorem recv_passStart {s : RcsT} (h : s.isClosing_ = false) (L : Nat) :
    s.recv L = passStart s L ∧ (s.buffer_.empty = true → s.recvAgain L = passStart s L) := by
  refine ⟨?_, fun he => ?_⟩
  · rw [RcsT.recv, RcsT.recvWhile, if_neg (by simp [h])]
    rfl
  · rw [RcsT.recvAgain, if_pos (by simp [he, h])]
    rfl

/-- What a pass is for. `fragments` and `ending` are what it has queued. -/
structure Assembles (r : Res) : Prop where
  numbered : ∀ k m, (queuedIn r.out)[k]? = some m → m.seqnum = num k
  shape : ∃ fragments ending, queuedIn r.out = fragments ++ ending ∧
    (∀ m ∈ fragments, DataFragment m) ∧ (ending = [] ∨ ∃ eos, EosMarker eos ∧ ending = [eos]) ∧
    ((∀ L, r.pc ≠ .recvLoop L) → r.sock.isClosing_ = true ∨ ending ≠ [])
  counted : r.sock.recvSeqnum_ = num (queuedIn r.out).length
  acks : AcksLast 0 r.out
  repeated : ∀ L ack response, r.pc = .finalizeRecv L ack response →
    ack = control (num (queuedIn r.out).length - 1) ACK

/-- A datagram that has the expected number is a data fragment or an EOS marker, and only one that
    has it carries the EOS flag (or closes the socket). -/
def fits (r : Res) : RecvFrom → Prop
  | .error _ => True
  | .datagram _ d _ => accepted d = true →
    ((ofDatagram d).seqnum = r.sock.recvSeqnum_ →
      DataFragment (ofDatagram d) ∨ EosMarker (ofDatagram d)) ∧
    ((ofDatagram d).seqnum ≠ r.sock.recvSeqnum_ → (ofDatagram d).hasFlag EOS = true →
      (ofDatagram d).hasFlag FIN = true)

/-! ## 2. Its steps -/

@[simp] theorem queuedIn_append (out out' : List Event) :
    queuedIn (out ++ out') = queuedIn out ++ queuedIn out' := List.filterMap_append

theorem acksLast_append {c : Nat} {es es' : List Event} (h : AcksLast c es)
    (h' : AcksLast (c + (queuedIn es).length) es') : AcksLast c (es ++ es') := by
  induction es generalizing c with
  | nil => exact h'
  | cons e es ih =>
    cases e with
    | queued m =>
      have hlen : (queuedIn (Event.queued m :: es)).length = (queuedIn es).length + 1 := rfl
      exact ih (c := c + 1) h (by rwa [hlen, ← Nat.add_assoc, Nat.add_right_comm] at h')
    | sendto fd m dest => exact ⟨h.1, ih h.2 h'⟩
    | setTimeout fd t => exact ih h h'
    | closed fd => exact ih h h'
    | acked m => exact ih h h'

/-- What close sends are no ACKs. -/
theorem farewell_silent (s : RcsT) (src : SockaddrIn) (c : Nat) :
    queuedIn (farewell s src) = [] ∧ AcksLast c (farewell s src) := by
  have hfin : (control 666 FIN).hasFlag ACK = false := by rw [hasFlag_control]; rfl
  have h : ∀ k, queuedIn (List.replicate k ((latched s src).rawsend (control 666 FIN))) = [] ∧
      AcksLast c (List.replicate k ((latched s src).rawsend (control 666 FIN))) := by
    intro k
    induction k with
    | zero => exact ⟨rfl, trivial⟩
    | succ k ih =>
      refine ⟨ih.1, fun ha => ?_, ih.2⟩
      rw [hfin] at ha
      cases ha
  obtain ⟨hq, ha⟩ := h 2048
  have hout : farewell s src =
      List.replicate 2048 ((latched s src).rawsend (control 666 FIN)) ++
        [.closed (latched s src).ucpSocket_] := rfl
  rw [hout]
  refine ⟨by rw [queuedIn_append, hq]; rfl, acksLast_append ha trivial⟩

section Steps

variable {s : RcsT} {d : List UInt8} {m : MsgT} {L c : Nat}

theorem not_isFin_of_not_accepted (h : accepted d = false) : ¬ IsFin d := by
  intro hf
  have ha := hf.1
  rw [h] at ha
  cases ha

/-- What is no accepted datagram is answered with the ACK that is ready, or not at all. -/
theorem pass_quiet (h : s.isClosing_ = false) (L : Nat) {o : RecvFrom}
    (ho : ∀ e d src, o = .datagram e d src → accepted d = false) :
    ∃ s' k, resume s (.recvLoop L) o =
        ⟨s', List.replicate k (s'.rawsend (control (s.recvSeqnum_ - 1) ACK)), .recvLoop L⟩ ∧
      s'.isClosing_ = false ∧ s'.recvSeqnum_ = s.recvSeqnum_ := by
  -- the body of the loop with a message that is not accepted
  have hbody : ∀ src response, ∃ k, (latched s src).recvBody L response false =
      ⟨latched s src, List.replicate k ((latched s src).rawsend (control (s.recvSeqnum_ - 1) ACK)),
        .recvLoop L⟩ := by
    intro src response
    obtain ⟨hc, _, hr, _⟩ := latched_rest s src
    rw [h] at hc
    exact ⟨1, by simp [RcsT.recvBody, RcsT.recvWhile, Res.after, hc, hr]⟩
  have hnone : ∀ src e, ∃ k, (if RcsT.errnoResult e = 0 then (latched s src).recvWhile L
      else (latched s src).recvBody L default (RcsT.isValid (RcsT.errnoResult e) default)) =
      ⟨latched s src, List.replicate k ((latched s src).rawsend (control (s.recvSeqnum_ - 1) ACK)),
        .recvLoop L⟩ := by
    intro src e
    split
    · obtain ⟨hc, _⟩ := latched_rest s src
      rw [h] at hc
      exact ⟨0, by simp [RcsT.recvWhile, hc]⟩
    · exact hbody src default
  have hlatched : ∀ src, (latched s src).isClosing_ = false ∧
      (latched s src).recvSeqnum_ = s.recvSeqnum_ := fun src => by
    obtain ⟨hc, _, hr, _⟩ := latched_rest s src
    exact ⟨hc.trans h, hr⟩
  cases o with
  | error e =>
    obtain ⟨k, hk⟩ := hnone s.fromEndpoint_ e
    refine ⟨latched s s.fromEndpoint_, k, ?_, hlatched _⟩
    rw [← hk]
    simp only [resume, RcsT.recvPass, rawrecv_failed, Option.getD_none]
    rfl
  | datagram e d src =>
    have hd := ho e d src rfl
    by_cases hne : d = []
    · obtain ⟨k, hk⟩ := hnone src e
      refine ⟨latched s src, k, ?_, hlatched _⟩
      rw [← hk, hne]
      simp only [resume, RcsT.recvPass, rawrecv_nothing, Option.getD_none]
      rfl
    · obtain ⟨k, hk⟩ := hbody src (ofDatagram d)
      refine ⟨latched s src, k, ?_, hlatched _⟩
      rw [← hk]
      simp only [resume, RcsT.recvPass, rawrecv_plain (not_isFin_of_not_accepted hd) hne,
        if_neg (recvSize_ne_zero hne), Option.getD_some, isValid_ofDatagram, hd]
      rfl

/-- The step with an accepted message `m`; `c` messages were queued before. -/
structure Heard (c : Nat) (m : MsgT) (L : Nat) (r : Res) : Prop where
  queued : queuedIn r.out = if m.seqnum = num c then [m] else []
  counted : r.sock.recvSeqnum_ = num (c + (queuedIn r.out).length)
  closing : r.sock.isClosing_ = m.hasFlag FIN
  acks : AcksLast c r.out
  goes : m.hasFlag EOS = false → m.hasFlag FIN = false → r.pc = .recvLoop L
  ends : m.hasFlag EOS = true → r.pc =
    .finalizeRecv L (control (num (c + (queuedIn r.out).length) - 1) ACK) MsgT.default
  returns : m.hasFlag EOS = false → m.hasFlag FIN = true → ∃ ret, r.pc = .returned ret

theorem Heard.after {r : Res} (h : Heard c m L r) {out : List Event} (hq : queuedIn out = [])
    (ha : AcksLast c out) : Heard c m L (r.after out) := by
  have hqueued : queuedIn (r.after out).out = queuedIn r.out := by
    show queuedIn (out ++ r.out) = _
    rw [queuedIn_append, hq, List.nil_append]
  exact {
    queued := hqueued ▸ h.queued
    counted := hqueued ▸ h.counted
    closing := h.closing
    acks := acksLast_append ha (by rw [hq]; exact h.acks)
    goes := h.goes
    ends := hqueued ▸ h.ends
    returns := h.returns }

/-- The end of the body of the loop, behind the events `out`. -/
theorem heard_bodyEnd (out : List Event) (hr : s.recvSeqnum_ = num (c + (queuedIn out).length))
    (hc : s.isClosing_ = m.hasFlag FIN) (hq : queuedIn out = if m.seqnum = num c then [m] else [])
    (ha : AcksLast c out) (L : Nat) :
    Heard c m L (if m.hasFlag EOS then
        (s.finalizeStart L (control (num (c + (queuedIn out).length) - 1) ACK)).after out
      else (s.recvWhile L).after out) := by
  generalize hack : control (num (c + (queuedIn out).length) - 1) ACK = ack
  cases he : m.hasFlag EOS with
  | true =>
    have hout : queuedIn (out ++ [.setTimeout s.ucpSocket_ PROTOCOL_TIMEOUT]) = queuedIn out := by
      rw [queuedIn_append]
      exact List.append_nil _
    have hend : (s.finalizeStart L ack).after out = ⟨finalizing s,
      out ++ [.setTimeout s.ucpSocket_ PROTOCOL_TIMEOUT], .finalizeRecv L ack MsgT.default⟩ := rfl
    rw [if_pos rfl, hend]
    exact {
      queued := hout.trans hq
      counted := by rw [hout]; exact hr
      closing := hc
      acks := acksLast_append ha trivial
      goes := fun h => by rw [he] at h; cases h
      ends := fun _ => by rw [hout, hack]
      returns := fun h => by rw [he] at h; cases h }
  | false =>
    rw [if_neg (by simp)]
    cases hf : m.hasFlag FIN with
    | true =>
      obtain ⟨b, ret, hw⟩ := recvWhile_closing (hc.trans hf) L
      have hend : Res.after out ⟨{ s with buffer_ := b }, [], .returned ret⟩ =
        ⟨{ s with buffer_ := b }, out, .returned ret⟩ := by
          rw [Res.after, List.append_nil]
      rw [hw, hend]
      exact {
        queued := hq
        counted := hr
        closing := hc
        acks := ha
        goes := fun _ h => by rw [hf] at h; cases h
        ends := fun h => by rw [he] at h; cases h
        returns := fun _ _ => ⟨ret, rfl⟩ }
    | false =>
      have hw : s.recvWhile L = ⟨s, [], .recvLoop L⟩ := by
        rw [RcsT.recvWhile, if_neg (by simp [hc, hf])]
      have hend : Res.after out ⟨s, [], .recvLoop L⟩ = ⟨s, out, .recvLoop L⟩ := by
        rw [Res.after, List.append_nil]
      rw [hw, hend]
      exact {
        queued := hq
        counted := hr
        closing := hc
        acks := ha
        goes := fun _ _ => rfl
        ends := fun h => by rw [he] at h; cases h
        returns := fun _ h => by rw [hf] at h; cases h }

/-- The body of the loop with an accepted message; a FIN has closed the socket already. -/
theorem heard_body (hs : s.recvSeqnum_ = num c) (hc : s.isClosing_ = m.hasFlag FIN) (L : Nat) :
    Heard c m L (s.recvBody L m true) := by
  -- the ACK, where one is sent
  have hacks : ∀ (s' : RcsT) (c' : Nat), AcksLast c'
      (if s.isClosing_ then [] else [s'.rawsend (control (num c' - 1) ACK)]) := by
    intro s' c'
    split
    · trivial
    · exact ⟨fun _ => rfl, trivial⟩
  have hnone : ∀ (s' : RcsT) (msg : MsgT),
      queuedIn (if s.isClosing_ then [] else [s'.rawsend msg]) = [] := by
    intro s' msg
    split <;> rfl
  by_cases hseq : m.seqnum = num c
  · have hnum : control s.recvSeqnum_ ACK = control (num (c + 1) - 1) ACK := by
      rw [hs, num_succ_sub_one]
    let out : List Event := .queued m ::
      if s.isClosing_ then [] else [(queue s m).rawsend (control s.recvSeqnum_ ACK)]
    have hq : queuedIn out = [m] := congrArg (m :: ·) (hnone _ _)
    have hlen : (queuedIn out).length = 1 := by rw [hq]; rfl
    have hr : (queue s m).recvSeqnum_ = num (c + 1) := by
      show s.recvSeqnum_ + 1 = _
      rw [hs, num_succ]
    have hacks' : AcksLast c out := by
      have := hacks (queue s m) (c + 1)
      rw [← hnum] at this
      exact this
    have hend := heard_bodyEnd (s := queue s m) (m := m) (c := c) out (by rw [hlen, hr]) hc
      (by rw [hq, if_pos hseq]) hacks' L
    rw [hlen, ← hnum] at hend
    have hbody : s.recvBody L m true = if m.hasFlag EOS then
        ((queue s m).finalizeStart L (control s.recvSeqnum_ ACK)).after out
        else ((queue s m).recvWhile L).after out := by
      unfold RcsT.recvBody
      simp only [Bool.true_and, beq_iff_eq, hseq.trans hs.symm, if_true]
      rfl
    rw [hbody]
    exact hend
  · let out : List Event := if s.isClosing_ then [] else [s.rawsend (control (num c - 1) ACK)]
    have hq : queuedIn out = [] := hnone _ _
    have hlen : (queuedIn out).length = 0 := by rw [hq]; rfl
    have hacks' : AcksLast c out := hacks s c
    have hend := heard_bodyEnd (s := s) (m := m) (c := c) out (by rw [hlen, Nat.add_zero, hs]) hc
      (by rw [hq, if_neg hseq]) hacks' L
    rw [hlen, Nat.add_zero] at hend
    have hbody : s.recvBody L m true = if m.hasFlag EOS then
        (s.finalizeStart L (control (num c - 1) ACK)).after out
        else (s.recvWhile L).after out := by
      unfold RcsT.recvBody
      rw [hs]
      simp only [Bool.true_and, beq_iff_eq, hseq, if_false, List.nil_append]
      rfl
    rw [hbody]
    exact hend

/-- An accepted datagram, FIN or not. -/
theorem pass_heard (h : s.isClosing_ = false) (hs : s.recvSeqnum_ = num c)
    (ha : accepted d = true) (L : Nat) (e : Errno) (src : SockaddrIn) :
    Heard c (ofDatagram d) L (resume s (.recvLoop L) (.datagram e d src)) := by
  have hne : d ≠ [] := by
    rintro rfl
    have := accepted_length ha
    simp at this
  obtain ⟨hc, _, hr, _⟩ := latched_rest s src
  by_cases hf : IsFin d
  · have hres : resume s (.recvLoop L) (.datagram e d src) =
        ((finished s src).recvBody L (ofDatagram d) true).after (farewell s src) := by
      simp only [resume, RcsT.recvPass, rawrecv_fin hf, if_neg (recvSize_ne_zero hne),
        Option.getD_some, isValid_ofDatagram, ha]
    have hr' : (finished s src).recvSeqnum_ = num c := hr.trans hs
    obtain ⟨hq, hacks⟩ := farewell_silent s src c
    rw [hres]
    exact (heard_body hr' ((finished_closing s src).trans hf.2.symm) L).after hq hacks
  · have hno : (ofDatagram d).hasFlag FIN = false := by
      rw [← Bool.not_eq_true]
      exact fun hfin => hf ⟨ha, hfin⟩
    have hres : resume s (.recvLoop L) (.datagram e d src) =
        ((latched s src).recvBody L (ofDatagram d) true).after [] := by
      simp only [resume, RcsT.recvPass, rawrecv_plain hf hne, if_neg (recvSize_ne_zero hne),
        Option.getD_some, isValid_ofDatagram, ha]
    rw [hres]
    exact (heard_body (hr.trans hs) ((hc.trans h).trans hno.symm) L).after rfl trivial

end Steps

/-! ## 3. Whole passes -/

/-- A pass in which every datagram fitted so far. -/
structure Orderly (r : Res) : Prop where
  assembles : Assembles r
  going : ∀ L, r.pc = .recvLoop L → r.sock.isClosing_ = false ∧ ∀ m ∈ queuedIn r.out, DataFragment m

/-- A pass that went wrong: it has queued something else, or it has ended without a marker. -/
def Spoilt (r : Res) : Prop :=
  (∃ m ∈ queuedIn r.out, ¬ DataFragment m ∧ ¬ EosMarker m) ∨
    ((∀ L, r.pc ≠ .recvLoop L) ∧ r.sock.isClosing_ = false ∧ ∀ m ∈ queuedIn r.out, DataFragment m)

section Passes

variable {r r1 r' : Res} {m : MsgT} {L : Nat} {o : RecvFrom}

theorem orderly_passStart {s : RcsT} (h : s.isClosing_ = false) (L : Nat) :
    Orderly (passStart s L) where
  assembles := {
    numbered := fun k m hm => by cases hm
    shape := ⟨[], [], rfl, fun m hm => absurd hm List.not_mem_nil, Or.inl rfl,
      fun hpc => absurd rfl (hpc L)⟩
    counted := rfl
    acks := trivial
    repeated := fun L ack response hpc => by cases hpc }
  going _ _ := ⟨h, fun m hm => absurd hm List.not_mem_nil⟩

theorem passStep_eq (h : passStep r o = some r') :
    ∃ L, r.pc = .recvLoop L ∧ r' = (resume r.sock (.recvLoop L) o).after r.out := by
  unfold passStep at h
  split at h
  next L hpc =>
    rw [hpc, Option.some.injEq] at h
    exact ⟨L, hpc, h.symm⟩
  next => cases h

/-- Nothing was queued: the pass goes on, or the socket was closed. -/
theorem Orderly.same (h : Orderly r) (hpc : r.pc = .recvLoop L) (hq : queuedIn r1.out = [])
    (hr : r1.sock.recvSeqnum_ = r.sock.recvSeqnum_)
    (ha : AcksLast (queuedIn r.out).length r1.out)
    (hgo : r1.sock.isClosing_ = true ∨ (r1.sock.isClosing_ = false ∧ ∃ L, r1.pc = .recvLoop L))
    (hloop : ∀ L, r1.pc = .recvLoop L → r1.sock.isClosing_ = false)
    (hrep : ∀ L ack response, r1.pc = .finalizeRecv L ack response →
      ack = control (num (queuedIn r.out).length - 1) ACK) : Orderly (r1.after r.out) := by
  have hqueued : queuedIn (r1.after r.out).out = queuedIn r.out := by
    show queuedIn (r.out ++ r1.out) = _
    rw [queuedIn_append, hq, List.append_nil]
  obtain ⟨_, hdata⟩ := h.going L hpc
  refine ⟨?_, fun L' hpc' => ⟨hloop L' hpc', by rw [hqueued]; exact hdata⟩⟩
  exact {
    numbered := by rw [hqueued]; exact h.assembles.numbered
    shape := ⟨queuedIn r.out, [], by rw [hqueued, List.append_nil], hdata, Or.inl rfl, fun hend =>
      hgo.imp_right fun ⟨_, L', hL'⟩ => absurd hL' (hend L')⟩
    counted := by rw [hqueued]; exact hr.trans h.assembles.counted
    acks := acksLast_append h.assembles.acks (by rw [Nat.zero_add]; exact ha)
    repeated := fun L' ack response hpc' => by rw [hqueued]; exact hrep L' ack response hpc' }

/-- An accepted message with the expected number. -/
theorem Orderly.next (h : Orderly r) (hpc : r.pc = .recvLoop L)
    (hh : Heard (queuedIn r.out).length m L r1) (hseq : m.seqnum = num (queuedIn r.out).length)
    (hm : DataFragment m ∨ EosMarker m) : Orderly (r1.after r.out) := by
  have hq1 := hh.queued
  rw [if_pos hseq] at hq1
  have hqueued : queuedIn (r1.after r.out).out = queuedIn r.out ++ [m] := by
    show queuedIn (r.out ++ r1.out) = _
    rw [queuedIn_append, hq1]
  have hlen : (queuedIn (r1.after r.out).out).length = (queuedIn r.out).length + 1 := by
    rw [hqueued, List.length_append, List.length_singleton]
  have hlen1 : (queuedIn r1.out).length = 1 := by rw [hq1]; rfl
  obtain ⟨_, hdata⟩ := h.going L hpc
  have hnumbered : ∀ k m', (queuedIn (r1.after r.out).out)[k]? = some m' → m'.seqnum = num k := by
    intro k m' hk
    rw [hqueued] at hk
    rcases Nat.lt_or_ge k (queuedIn r.out).length with hlt | hge
    · rw [List.getElem?_append_left hlt] at hk
      exact h.assembles.numbered k m' hk
    · have hlt := (List.getElem?_eq_some_iff.mp hk).1
      rw [List.length_append, List.length_singleton] at hlt
      obtain rfl : k = (queuedIn r.out).length := by omega
      rw [List.getElem?_concat_length, Option.some.injEq] at hk
      rw [← hk, hseq]
  have hcounted : (r1.after r.out).sock.recvSeqnum_ =
      num (queuedIn (r1.after r.out).out).length := by
    rw [hlen, ← hlen1]
    exact hh.counted
  have hacks : AcksLast 0 (r1.after r.out).out :=
    acksLast_append h.assembles.acks (by rw [Nat.zero_add]; exact hh.acks)
  rcases hm with hm | hm
  · -- a fragment: the pass goes on
    have hpc1 : r1.pc = .recvLoop L := hh.goes hm.eos hm.fin
    have hall : ∀ m' ∈ queuedIn (r1.after r.out).out, DataFragment m' := by
      rw [hqueued]
      intro m' hm'
      rcases List.mem_append.mp hm' with hm' | hm'
      · exact hdata m' hm'
      · rw [List.mem_singleton.mp hm']
        exact hm
    refine ⟨?_, fun _ _ => ⟨hh.closing.trans hm.fin, hall⟩⟩
    exact {
      numbered := hnumbered
      shape := ⟨_, [], (List.append_nil _).symm, hall, Or.inl rfl, fun hend =>
        absurd hpc1 (hend L)⟩
      counted := hcounted
      acks := hacks
      repeated := fun L' ack response hpc' => by
        have : r1.pc = .finalizeRecv L' ack response := hpc'
        rw [hpc1] at this
        cases this }
  · -- the marker: the pass is over
    have hpc1 := hh.ends hm.eos
    rw [hlen1, ← hlen] at hpc1
    refine ⟨?_, fun L' hpc' => ?_⟩
    · exact {
        numbered := hnumbered
        shape := ⟨queuedIn r.out, [m], hqueued, hdata, Or.inr ⟨m, hm, rfl⟩, fun _ =>
          Or.inr (List.cons_ne_nil _ _)⟩
        counted := hcounted
        acks := hacks
        repeated := fun L' ack response hpc' => by
          have : r1.pc = .finalizeRecv L' ack response := hpc'
          rw [hpc1] at this
          exact ((Pc.finalizeRecv.injEq ..).mp this).2.1.symm }
    · have : r1.pc = .recvLoop L' := hpc'
      rw [hpc1] at this
      cases this

/-- An accepted message with another number. -/
theorem Orderly.other (h : Orderly r) (hpc : r.pc = .recvLoop L)
    (hh : Heard (queuedIn r.out).length m L r1) (hseq : m.seqnum ≠ num (queuedIn r.out).length)
    (hm : m.hasFlag EOS = true → m.hasFlag FIN = true) : Orderly (r1.after r.out) := by
  have hq1 := hh.queued
  rw [if_neg hseq] at hq1
  have hcounted := hh.counted
  have hends := hh.ends
  rw [hq1, List.length_nil, Nat.add_zero] at hcounted hends
  refine h.same hpc hq1 (hcounted.trans h.assembles.counted.symm) hh.acks ?_ ?_ ?_
  · rw [hh.closing]
    cases hf : m.hasFlag FIN with
    | true => exact Or.inl rfl
    | false =>
      have he : m.hasFlag EOS = false := by
        rw [← Bool.not_eq_true]
        intro he
        rw [hm he] at hf
        cases hf
      exact Or.inr ⟨rfl, L, hh.goes he hf⟩
  · intro L' hpc'
    rw [hh.closing, ← Bool.not_eq_true]
    intro hf
    cases he : m.hasFlag EOS with
    | true =>
      rw [hends he] at hpc'
      cases hpc'
    | false =>
      obtain ⟨ret, hret⟩ := hh.returns he hf
      rw [hret] at hpc'
      cases hpc'
  · intro L' ack response hpc'
    cases he : m.hasFlag EOS with
    | true =>
      rw [hends he] at hpc'
      exact ((Pc.finalizeRecv.injEq ..).mp hpc').2.1.symm
    | false =>
      cases hf : m.hasFlag FIN with
      | true =>
        obtain ⟨ret, hret⟩ := hh.returns he hf
        rw [hret] at hpc'
        cases hpc'
      | false =>
        rw [hh.goes he hf] at hpc'
        cases hpc'

theorem acksLast_replicate (s : RcsT) (c k : Nat) :
    queuedIn (List.replicate k (s.rawsend (control (num c - 1) ACK))) = [] ∧
      AcksLast c (List.replicate k (s.rawsend (control (num c - 1) ACK))) := by
  induction k with
  | zero => exact ⟨rfl, trivial⟩
  | succ k ih => exact ⟨ih.1, fun _ => rfl, ih.2⟩

/-- What is no accepted datagram. -/
theorem Orderly.quiet (h : Orderly r) (hpc : r.pc = .recvLoop L)
    (ho : ∀ e d src, o = .datagram e d src → accepted d = false) :
    Orderly ((resume r.sock (.recvLoop L) o).after r.out) := by
  obtain ⟨s', k, hres, hc, hr⟩ := pass_quiet (h.going L hpc).1 L ho
  rw [h.assembles.counted] at hres
  obtain ⟨hq, hacks⟩ := acksLast_replicate s' (queuedIn r.out).length k
  rw [hres]
  exact h.same hpc hq hr hacks (Or.inr ⟨hc, L, rfl⟩) (fun _ _ => hc) fun _ _ _ hpc => by cases hpc

/-- Every datagram that fits keeps the pass orderly. -/
theorem Orderly.step (h : Orderly r) (hfit : fits r o) (hstep : passStep r o = some r') :
    Orderly r' := by
  obtain ⟨L, hpc, rfl⟩ := passStep_eq hstep
  cases o with
  | error e => exact h.quiet hpc fun e d src ho => by cases ho
  | datagram e d src =>
    cases ha : accepted d with
    | false =>
      refine h.quiet hpc fun e' d' src' ho => ?_
      obtain ⟨rfl, rfl, rfl⟩ := (RecvFrom.datagram.injEq ..).mp ho
      exact ha
    | true =>
      obtain ⟨hin, hout⟩ := hfit ha
      have hh := pass_heard (h.going L hpc).1 h.assembles.counted ha L e src
      rw [h.assembles.counted] at hin hout
      by_cases hseq : (ofDatagram d).seqnum = num (queuedIn r.out).length
      · exact h.next hpc hh hseq (hin hseq)
      · exact h.other hpc hh hseq (hout hseq)

/-- Every other datagram spoils it. -/
theorem Orderly.spoils (h : Orderly r) (hfit : ¬ fits r o) (hstep : passStep r o = some r') :
    Spoilt r' := by
  obtain ⟨L, hpc, rfl⟩ := passStep_eq hstep
  obtain ⟨hc, hdata⟩ := h.going L hpc
  cases o with
  | error e => exact absurd trivial hfit
  | datagram e d src =>
    have ha : accepted d = true := by
      by_contra ha
      exact hfit fun h => absurd h ha
    have hh := pass_heard hc h.assembles.counted ha L e src
    by_cases hseq : (ofDatagram d).seqnum = num (queuedIn r.out).length
    · -- it is queued
      left
      have hq := hh.queued
      rw [if_pos hseq] at hq
      refine ⟨ofDatagram d, ?_, ?_⟩
      · show ofDatagram d ∈ queuedIn (r.out ++ _)
        rw [queuedIn_append, hq]
        exact List.mem_append_right _ (List.mem_singleton_self _)
      · rw [← not_or]
        refine fun hm => hfit fun _ => ⟨fun _ => hm, fun hne => ?_⟩
        rw [h.assembles.counted] at hne
        exact absurd hseq hne
    · -- it ends the pass
      right
      have hq := hh.queued
      rw [if_neg hseq] at hq
      have hmark : (ofDatagram d).hasFlag EOS = true ∧ (ofDatagram d).hasFlag FIN = false := by
        by_contra hno
        refine hfit fun _ => ⟨fun heq => ?_, fun _ he => ?_⟩
        · rw [h.assembles.counted] at heq
          exact absurd heq hseq
        · by_contra hf
          exact hno ⟨he, by simpa using hf⟩
      refine ⟨fun L' hpc' => ?_, hh.closing.trans hmark.2, ?_⟩
      · have hpc1 : (resume r.sock (.recvLoop L) (.datagram e d src)).pc = .recvLoop L' := hpc'
        rw [hh.ends hmark.1] at hpc1
        cases hpc1
      · show ∀ m ∈ queuedIn (r.out ++ _), DataFragment m
        rw [queuedIn_append, hq, List.append_nil]
        exact hdata

theorem Spoilt.stays (h : Spoilt r) (hstep : passStep r o = some r') : Spoilt r' := by
  obtain ⟨L, hpc, rfl⟩ := passStep_eq hstep
  rcases h with ⟨m, hm, hno⟩ | ⟨hend, _⟩
  · refine Or.inl ⟨m, ?_, hno⟩
    show m ∈ queuedIn (r.out ++ _)
    rw [queuedIn_append]
    exact List.mem_append_left _ hm
  · exact absurd hpc (hend L)

theorem Spoilt.not_assembles (h : Spoilt r) : ¬ Assembles r := by
  intro ha
  obtain ⟨fragments, ending, hq, hdata, hending, hend⟩ := ha.shape
  rcases h with ⟨m, hm, hnd, hne⟩ | ⟨hpc, hc, hall⟩
  · rw [hq] at hm
    rcases List.mem_append.mp hm with hm | hm
    · exact hnd (hdata m hm)
    · rcases hending with rfl | ⟨eos, heos, rfl⟩
      · cases hm
      · exact hne (List.mem_singleton.mp hm ▸ heos)
  · rcases hend hpc with hclosing | hne
    · rw [hc] at hclosing
      cases hclosing
    · rcases hending with rfl | ⟨eos, heos, rfl⟩
      · exact hne rfl
      · have hdf := hall eos (hq ▸ List.mem_append_right _ (List.mem_singleton_self _))
        have := hdf.eos
        rw [heos.eos] at this
        cases this

/-- On any socket that is not closing, over any datagrams: a pass queues the fragments 0, 1, ... of
    one message, then its marker, and acknowledges what it has queued, if and only if every datagram
    fits. -/
theorem pass_assembles_iff {s : RcsT} (h : s.isClosing_ = false) {os : List RecvFrom}
    (hrun : Run passStep (fun _ _ => True) (passStart s L) os r) :
    Assembles r ↔ Run passStep fits (passStart s L) os r :=
  hrun.good_iff (orderly_passStart h L) (fun _ _ _ hs hfit hstep => hs.step hfit hstep)
    (fun _ _ _ hs hfit hstep => hs.spoils hfit hstep) (fun _ _ _ hs hstep => hs.stays hstep)
    (fun _ hs => hs.assembles) (fun _ hs => hs.not_assembles)

end Passes

/-- A fragment and its marker. -/
theorem pass_assembles_one : ∃ r, Run passStep (fun _ _ => True) (passStart (.new 3 ⟨0, 0⟩) 4)
    [.datagram .EAGAIN (fragment 0 [1] 1).wire ⟨2, 0⟩,
      .datagram .EAGAIN (control 1 EOS).wire ⟨2, 0⟩]
    r ∧ Assembles r := by
  have hone : ∀ r, r.sock.recvSeqnum_ = 0 →
      fits r (.datagram .EAGAIN (fragment 0 [1] 1).wire ⟨2, 0⟩) := by
    intro r h0 _
    have hm : ofDatagram (fragment 0 [1] 1).wire = fragment 0 [1] 1 :=
      ofDatagram_wire (built_fragment 0 (by decide) (by decide) (by decide))
    rw [hm, h0]
    exact ⟨fun _ => Or.inl ⟨by decide, by decide, by decide, by decide⟩, fun hne => absurd rfl hne⟩
  have heos : ∀ r, r.sock.recvSeqnum_ = 1 →
      fits r (.datagram .EAGAIN (control 1 EOS).wire ⟨2, 0⟩) := by
    intro r h1 _
    rw [ofDatagram_wire (built_eos 1), h1]
    exact ⟨fun _ => Or.inr ⟨by decide, by decide, by decide, by decide⟩, fun hne => absurd rfl hne⟩
  have hrun : Run passStep fits (passStart (.new 3 ⟨0, 0⟩) 4)
      [.datagram .EAGAIN (fragment 0 [1] 1).wire ⟨2, 0⟩,
        .datagram .EAGAIN (control 1 EOS).wire ⟨2, 0⟩] _ :=
    .cons (hone _ rfl) rfl (.cons (heos _ (by decide +kernel)) rfl (.nil _))
  have hrun' := hrun.mono fun _ _ _ => trivial
  exact ⟨_, hrun', (pass_assembles_iff rfl hrun').mpr hrun⟩

/-- A left-over ACK with the expected number is queued, and counts as the first fragment. -/
theorem pass_spoilt : ¬ ∀ s : RcsT, s.isClosing_ = false → ∀ L os r,
    Run passStep (fun _ _ => True) (passStart s L) os r → Assembles r := by
  intro h
  have hrun : Run passStep (fun _ _ => True) (passStart (.new 3 ⟨0, 0⟩) 4)
      [.datagram .EAGAIN (control 0 ACK).wire ⟨2, 0⟩] _ := .cons trivial rfl (.nil _)
  refine Spoilt.not_assembles
    (Or.inl ⟨control 0 ACK, by decide +kernel, fun hm => ?_, fun hm => ?_⟩) (h _ rfl _ _ _ hrun)
  · exact absurd hm.ack (by decide)
  · exact absurd hm.ack (by decide)

end Ece358.Rcs
