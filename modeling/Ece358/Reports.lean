/-
  File:      Ece358/Reports.lean
  Subject:   What accept and connect say of the handshake (rcs_t.cc, lines 113 to 166).

  accept makes its socket first and returns it last; it looks neither at the result of bind nor at
  what recv and send return. connect always returns 0, and takes its new port off the start of its
  buffer, whether or not recv has written there.

  * `Dialogue`, `Dialogue.step` -- a call of either, receive by receive, with the messages that were
    received in sequence, their sources, and the bytes that connect's recv has returned;
  * `originTape` -- the bytes of a buffer, each with the message that brought it;
    `frontOf_origins` -- a recv reads them as they are;
  * `AcceptReports`, `ConnectReports` -- what the results should say;
  * `noFinYet` -- no FIN comes while accept is in its recv; `PortFirst` -- the first data that
    connect receives is the port;
  * `RecvStretch` -- a receive of recv on any socket: what it queues, sends, and what recv returns;
  * `Accepts`, `Connects` -- where such a call stands, and with what;
  * `reports_iff` -- when the results say what they should.
-/
import Ece358.Assembly
import Ece358.Process
import Ece358.SendResult
import Ece358.Wire

namespace Ece358.Rcs

open Lib Marked MsgT MsgBufferT

/-! ## 1. A call of accept or connect -/

/-- The message that recv takes from a receive: a whole one, with the number that it expects. -/
def received (s : RcsT) : Pc → RecvFrom → List MsgT
  | .recvLoop _, .datagram _ d _ =>
    if accepted d = true ∧ (ofDatagram d).seqnum = s.recvSeqnum_ then [ofDatagram d] else []
  | _, _ => []

/-- The same, with the source of the datagram. -/
def receivedFrom (s : RcsT) (pc : Pc) : RecvFrom → List (SockaddrIn × MsgT)
  | .datagram errno d src => (received s pc (.datagram errno d src)).map fun m => (src, m)
  | .error _ => []

/-- What connect's recv has returned behind the stretch `r`, where it has. -/
def deliveredBy : Stage → Res → Option (List UInt8)
  | .connectRecv, r =>
    match r.pc with
    | .returned ret => some ret.bytes
    | _ => none
  | .connectSend, r =>
    match r.pc, (r.sock.recv 16).pc with
    | .returned _, .returned ret => some ret.bytes
    | _, _ => none
  | _, _ => none

/-- A call, with the messages that were received in sequence, their sources, and the bytes that
    connect's recv has returned. -/
structure Dialogue where
  res : ApiRes
  taken : List (SockaddrIn × MsgT)
  delivered : Option (List UInt8)

/-- Its next receive. -/
def Dialogue.step (w : Dialogue) (o : RecvFrom) : Option Dialogue :=
  match w.res.pc with
  | .blocked stage pc => some {
      res := (apiResume w.res.sock stage pc o).after w.res.out
      taken := w.taken ++ receivedFrom w.res.sock pc o
      delivered := deliveredBy stage (resume w.res.sock pc o) }
  | .returned _ => none

/-- The messages without their sources. -/
def Dialogue.messages (w : Dialogue) : List MsgT := w.taken.map Prod.snd

def acceptStart (s : RcsT) (child : Nat) (me : SockaddrIn) : Dialogue :=
  ⟨apiStart s (.accept child me), [], none⟩

def connectStart (s : RcsT) (addr : SockaddrIn) : Dialogue :=
  ⟨apiStart s (.connect addr), [],
    deliveredBy .connectSend ((s.setEndpoint addr).send connectRequest)⟩

/-- The messages that were queued. -/
def queuedBy (out : List ApiEvent) : List MsgT :=
  out.filterMap fun
    | .io (.queued msg) => some msg
    | _ => none

/-- The fragment with the port was sent. -/
def PortSent (port : UInt16) (out : List ApiEvent) : Prop :=
  ∃ fd dest, .io (.sendto fd (pkt (portBytes port) 0) dest) ∈ out

/-- What the bind of the new socket comes to, in the process `p`. -/
def childBind (p : Proc) (sockName : SockaddrIn) (bind : SockaddrIn → Bool) : Int × SockaddrIn :=
  mybind (lowestFree p.openFds) { sockName with sin_port := 0 } bind

/-- Where a byte of a buffer is from: a message that was received, with its source; `none` if it
    was there before. -/
abbrev Origin := Option (SockaddrIn × MsgT)

/-- What a message that was received stands for, each byte with its origin. -/
def originOf (x : SockaddrIn × MsgT) : Marked (UInt8 × Origin) :=
  mapSymbols (fun byte => (byte, some x)) (tapeOf x.2)

/-- The buffer `b` and what was queued behind it, each byte with its origin. -/
def originTape (b : MsgBufferT) (taken : List (SockaddrIn × MsgT)) : Marked (UInt8 × Origin) :=
  mapSymbols (fun byte => (byte, none)) b.tape ++ taken.flatMap originOf

/-- accept returns a descriptor only for a bound socket whose port it has sent, and behind a
    connect request; else it leaves no new entry in the table. -/
structure AcceptReports (p : Proc) (sockfd : Nat) (sockName : SockaddrIn) (bind : SockaddrIn → Bool)
    (w : Dialogue) : Prop where
  success : ∀ result addr, w.res.pc = .returned (.accept result addr) → 0 ≤ result →
    (childBind p sockName bind).1 = 0 ∧ PortSent (childBind p sockName bind).2.sin_port w.res.out ∧
      pkt connectRequest 0 ∈ queuedBy w.res.out
  failure : ∀ result addr, w.res.pc = .returned (.accept result addr) → result < 0 →
    ∀ id, p.getSocket id = none → (p.accept sockfd sockName bind).getSocket id = none

/-- connect returns 0 only if its recv has delivered the two bytes of a port, as they came from the
    server at `addr`; else it returns a negative value and the port of its endpoint is still that of
    `addr`. At its start the buffer was `b`. -/
structure ConnectReports (b : MsgBufferT) (addr : SockaddrIn) (w : Dialogue) : Prop where
  success : ∀ result, w.res.pc = .returned (.connect result) → result = 0 →
    ∃ port, w.delivered = some (portBytes port) ∧ (readMarked 16 (originTape b w.taken)).1 =
      (portBytes port).map fun byte => (byte, some (addr, pkt (portBytes port) 0))
  failure : ∀ result, w.res.pc = .returned (.connect result) → result ≠ 0 →
    result < 0 ∧ w.res.sock.endPoint_.sin_port = addr.sin_port

/-- No FIN comes while accept is in its recv. -/
def noFinYet (w : Dialogue) (o : RecvFrom) : Prop :=
  match w.res.pc with
  | .blocked (.acceptRecv _ _) _ => ¬ BringsFin o
  | _ => True

instance (w : Dialogue) (o : RecvFrom) : Decidable (noFinYet w o) := by
  unfold noFinYet
  split <;> infer_instance

/-- No byte can be read off it. -/
def Dataless (m : MsgT) : Prop := m.hasFlag EOS = true ∨ m.length = 0

instance (m : MsgT) : Decidable (Dataless m) := inferInstanceAs (Decidable (_ ∨ _))

/-- The first data among the messages is a first fragment from `addr` with the two bytes of a port,
    and no more data comes before the end of this send. -/
def PortFirst (addr : SockaddrIn) (taken : List (SockaddrIn × MsgT)) : Prop :=
  ∃ port pre post, taken = pre ++ (addr, pkt (portBytes port) 0) :: post ∧
    (∀ x ∈ pre, Dataless x.2) ∧
    ∀ x ∈ post.takeWhile fun x => !x.2.hasFlag EOS, x.2.length = 0

/-- The buffer with some more messages. -/
def queueAll (b : MsgBufferT) (msgs : List MsgT) : MsgBufferT :=
  msgs.foldl MsgBufferT.queueMessage b

/-- What a recv takes off its buffer. -/
def frontOf (L : Nat) (b : MsgBufferT) : List UInt8 := if b.empty then [] else (b.read L).1

/-! ## 2. One receive of recv, on any socket -/

/-- A recv that is blocked. -/
inductive RecvBlocked (L : Nat) : Pc → Prop where
  | loop : RecvBlocked L (.recvLoop L)
  | finalize (v : UInt16) (response : MsgT) :
    RecvBlocked L (.finalizeRecv L (control v ACK) response)

/-- What close and recv send. -/
def OnlyControl (out : List Event) : Prop :=
  ∀ fd msg dest, .sendto fd msg dest ∈ out → msg.hasFlag ACK = true ∨ msg.hasFlag FIN = true

/-- A stretch of a recv that has queued `msgs`. Its buffer is `b` until it returns, and what it
    returns is read off `b`. -/
structure RecvStretch (L : Nat) (b : MsgBufferT) (closing : Bool) (msgs : List MsgT) (r : Res) :
    Prop where
  queued : queuedIn r.out = msgs
  sends : OnlyControl r.out
  closing : r.sock.isClosing_ = closing
  goes : (RecvBlocked L r.pc ∧ r.sock.buffer_ = b) ∨ r.pc = .returned (.recv (frontOf L b))

theorem RecvBlocked.blocked {L : Nat} {pc : Pc} (h : RecvBlocked L pc) (ret : Ret) :
    pc ≠ .returned ret := by
  cases h <;> exact Pc.noConfusion

section Recv

variable {s : RcsT} {L : Nat} {o : RecvFrom} {b : MsgBufferT} {closing : Bool} {msgs : List MsgT}
  {r : Res}

theorem onlyControl_nil : OnlyControl [] := fun _ _ _ h => absurd h List.not_mem_nil

theorem OnlyControl.append {out out' : List Event} (h : OnlyControl out) (h' : OnlyControl out') :
    OnlyControl (out ++ out') := fun fd msg dest hm =>
  (List.mem_append.mp hm).elim (h fd msg dest) (h' fd msg dest)

theorem onlyControl_singleton {e : Event}
    (h : ∀ fd msg dest, e = .sendto fd msg dest → msg.hasFlag ACK = true ∨ msg.hasFlag FIN = true) :
    OnlyControl [e] := fun fd msg dest hm => h fd msg dest (List.mem_singleton.mp hm).symm

theorem onlyControl_setTimeout (s : RcsT) (t : Nat) : OnlyControl (s.setTimeout t).2 :=
  onlyControl_singleton fun _ _ _ h => by cases h

theorem onlyControl_ack (s : RcsT) (v : UInt16) : OnlyControl [s.rawsend (control v ACK)] := by
  refine onlyControl_singleton fun fd msg dest h => Or.inl ?_
  rw [← ((Event.sendto.injEq ..).mp h).2.1, hasFlag_control]
  rfl

theorem onlyControl_farewell (s : RcsT) (src : SockaddrIn) : OnlyControl (farewell s src) := by
  have hfar : farewell s src = List.replicate 2048 ((latched s src).rawsend (control 666 FIN)) ++
      [.closed (latched s src).ucpSocket_] := rfl
  rw [hfar]
  refine OnlyControl.append (fun fd msg dest h => Or.inr ?_)
    (onlyControl_singleton fun _ _ _ h => by cases h)
  rw [((Event.sendto.injEq ..).mp (List.eq_of_mem_replicate h)).2.1, hasFlag_control]
  rfl

theorem RecvStretch.after (h : RecvStretch L b closing msgs r) {out : List Event}
    {msgs' : List MsgT} (hq : queuedIn out = msgs') (hs : OnlyControl out) :
    RecvStretch L b closing (msgs' ++ msgs) (r.after out) where
  queued := by
    show queuedIn (out ++ r.out) = _
    rw [queuedIn_append, hq, h.queued]
  sends := hs.append h.sends
  closing := h.closing
  goes := h.goes

theorem stretch_recvReturn {s : RcsT} (h : s.buffer_.empty = true → s.isClosing_ = true) (L : Nat) :
    RecvStretch L s.buffer_ s.isClosing_ [] (s.recvReturn L) := by
  unfold RcsT.recvReturn
  cases he : s.buffer_.empty with
  | true =>
    rw [h he]
    exact ⟨rfl, onlyControl_nil, h he, Or.inr (by rw [frontOf, he]; rfl)⟩
  | false =>
    rw [Bool.and_false]
    exact ⟨rfl, onlyControl_nil, rfl, Or.inr (by rw [frontOf, he]; rfl)⟩

theorem stretch_recvAgain (s : RcsT) (L : Nat) :
    RecvStretch L s.buffer_ s.isClosing_ [] (s.recvAgain L) := by
  unfold RcsT.recvAgain
  split
  next => exact ⟨rfl, onlyControl_nil, rfl, Or.inl ⟨.loop, rfl⟩⟩
  next hgo =>
    refine stretch_recvReturn (fun he => ?_) L
    rw [he, Bool.true_and, Bool.not_eq_true', Bool.not_eq_false] at hgo
    exact hgo

theorem stretch_recvWhile (s : RcsT) (L : Nat) :
    RecvStretch L s.buffer_ s.isClosing_ [] (s.recvWhile L) := by
  unfold RcsT.recvWhile
  split
  · exact stretch_recvAgain s L
  · exact ⟨rfl, onlyControl_nil, rfl, Or.inl ⟨.loop, rfl⟩⟩

theorem stretch_recv (s : RcsT) (L : Nat) :
    RecvStretch L s.buffer_ s.isClosing_ [] (s.recv L) :=
  stretch_recvWhile { s with recvSeqnum_ := 0 } L

theorem stretch_finalizeEnd (s : RcsT) (L : Nat) :
    RecvStretch L s.buffer_ s.isClosing_ [] (s.finalizeEnd L) :=
  (stretch_recvAgain (s.setTimeout RECV_TIMEOUT).1 L).after rfl (onlyControl_setTimeout s _)

/-- The end of the body of the loop, behind the events `out`. -/
theorem stretch_bodyEnd (s : RcsT) (L : Nat) (v : UInt16) (eos : Bool) {out : List Event}
    (hq : queuedIn out = msgs) (hs : OnlyControl out) :
    RecvStretch L s.buffer_ s.isClosing_ msgs
      (if eos then (s.finalizeStart L (control v ACK)).after out
        else (s.recvWhile L).after out) := by
  have hend : RecvStretch L s.buffer_ s.isClosing_ []
      (if eos then s.finalizeStart L (control v ACK) else s.recvWhile L) := by
    split
    · exact ⟨rfl, onlyControl_setTimeout s _, rfl, Or.inl ⟨.finalize v _, rfl⟩⟩
    · exact stretch_recvWhile s L
  have h := hend.after hq hs
  rw [List.append_nil] at h
  split at h
  next he => rwa [if_pos he]
  next he => rwa [if_neg he]

theorem stretch_recvBody (s : RcsT) (L : Nat) (response : MsgT) (ok : Bool) :
    RecvStretch L
      (queueAll s.buffer_ (if ok = true ∧ response.seqnum = s.recvSeqnum_ then [response] else []))
      s.isClosing_ (if ok = true ∧ response.seqnum = s.recvSeqnum_ then [response] else [])
      (s.recvBody L response ok) := by
  -- the ACK is sent on an open socket only
  have hack : ∀ (s' : RcsT) (v : UInt16),
      queuedIn (if s'.isClosing_ then [] else [s'.rawsend (control v ACK)]) = [] ∧
      OnlyControl (if s'.isClosing_ then [] else [s'.rawsend (control v ACK)]) := by
    intro s' v
    split
    · exact ⟨rfl, onlyControl_nil⟩
    · exact ⟨rfl, onlyControl_ack s' v⟩
  have hseq : (ok && response.seqnum == s.recvSeqnum_) = true ↔
      ok = true ∧ response.seqnum = s.recvSeqnum_ := by rw [Bool.and_eq_true, beq_iff_eq]
  unfold RcsT.recvBody
  by_cases h : ok = true ∧ response.seqnum = s.recvSeqnum_
  · obtain ⟨hq, hs⟩ := hack (queue s response) s.recvSeqnum_
    rw [if_pos h]
    simp only [hseq.mpr h, if_true]
    refine stretch_bodyEnd (queue s response) L s.recvSeqnum_ _ ?_ ?_
    · rw [queuedIn_append]
      exact congrArg (response :: ·) hq
    · exact (onlyControl_singleton fun _ _ _ h => by cases h).append hs
  · obtain ⟨hq, hs⟩ := hack s (s.recvSeqnum_ - 1)
    rw [if_neg h]
    simp only [Bool.eq_false_iff.mpr fun hb => h (hseq.mp hb), Bool.false_eq_true, if_false]
    exact stretch_bodyEnd s L _ _ hq hs

/-- What a `rawrecv` leaves: a FIN closes the socket, and nothing else of it matters to recv. -/
theorem rawrecv_rest (s : RcsT) (o : RecvFrom) :
    (s.rawrecv o).sock.buffer_ = s.buffer_ ∧ (s.rawrecv o).sock.recvSeqnum_ = s.recvSeqnum_ ∧
      ((s.rawrecv o).sock.isClosing_ = true ↔ s.isClosing_ = true ∨ BringsFin o) ∧
      queuedIn (s.rawrecv o).out = [] ∧ OnlyControl (s.rawrecv o).out := by
  cases o with
  | error e =>
    obtain ⟨hc, hb, hr, _⟩ := latched_rest s s.fromEndpoint_
    rw [rawrecv_failed]
    exact ⟨hb, hr, by rw [hc]; exact (or_iff_left id).symm, rfl, onlyControl_nil⟩
  | datagram e d src =>
    obtain ⟨hc, hb, hr, _⟩ := latched_rest s src
    by_cases hne : d = []
    · have hno : ¬ BringsFin (.datagram e d src) := fun hf => IsFin.ne_nil hf hne
      rw [hne, rawrecv_nothing, ← hne]
      exact ⟨hb, hr, by rw [hc]; exact (or_iff_left hno).symm, rfl, onlyControl_nil⟩
    · by_cases hfin : IsFin d
      · rw [rawrecv_fin hfin]
        exact ⟨hb, hr, iff_of_true rfl (Or.inr hfin), (farewell_silent s src 0).1,
          onlyControl_farewell s src⟩
      · rw [rawrecv_plain hfin hne]
        exact ⟨hb, hr, by rw [hc]; exact (or_iff_left hfin).symm, rfl, onlyControl_nil⟩

/-- What the inner loop of recv takes from a receive. -/
theorem received_recvLoop (s : RcsT) (L : Nat) (o : RecvFrom) :
    (if RcsT.isValid (s.rawrecv o).bytes ((s.rawrecv o).msg.getD default) = true ∧
        ((s.rawrecv o).msg.getD default).seqnum = s.recvSeqnum_
      then [(s.rawrecv o).msg.getD default] else []) = received s (.recvLoop L) o ∧
    ((s.rawrecv o).bytes = 0 → received s (.recvLoop L) o = []) := by
  have hdefault : ∀ bytes, RcsT.isValid bytes default = false := fun _ => rfl
  have hnil : accepted [] = false := by decide +kernel
  cases o with
  | error e =>
    rw [rawrecv_failed]
    refine ⟨if_neg fun h => ?_, fun _ => rfl⟩
    rw [Option.getD_none, hdefault] at h
    exact Bool.false_ne_true h.1
  | datagram e d src =>
    by_cases hne : d = []
    · have hno : received s (.recvLoop L) (.datagram e d src) = [] :=
        if_neg fun h => Bool.false_ne_true (hnil.symm.trans (hne ▸ h.1))
      refine ⟨?_, fun _ => hno⟩
      rw [hno, hne, rawrecv_nothing, Option.getD_none]
      refine if_neg fun h => ?_
      rw [hdefault] at h
      exact Bool.false_ne_true h.1
    · obtain ⟨hbytes, hmsg⟩ := rawrecv_reports s hne e src
      rw [hbytes, hmsg, Option.getD_some, isValid_ofDatagram]
      exact ⟨rfl, fun h => absurd h (recvSize_ne_zero hne)⟩

theorem stretch_recvPass (s : RcsT) (L : Nat) (o : RecvFrom) :
    RecvStretch L (queueAll s.buffer_ (received s (.recvLoop L) o)) (s.rawrecv o).sock.isClosing_
      (received s (.recvLoop L) o) (resume s (.recvLoop L) o) := by
  obtain ⟨hb, hr, _, hq, hs⟩ := rawrecv_rest s o
  obtain ⟨hreceived, hnothing⟩ := received_recvLoop s L o
  show RecvStretch _ _ _ _ (s.recvPass L o)
  unfold RcsT.recvPass
  dsimp only
  split
  next h0 =>
    rw [hnothing h0, ← hb]
    exact (stretch_recvWhile (s.rawrecv o).sock L).after hq hs
  next =>
    have h := (stretch_recvBody (s.rawrecv o).sock L ((s.rawrecv o).msg.getD default)
      (RcsT.isValid (s.rawrecv o).bytes ((s.rawrecv o).msg.getD default))).after hq hs
    rw [hr, hb, hreceived] at h
    exact h

theorem stretch_finalizePass (s : RcsT) (L : Nat) (v : UInt16) (response : MsgT) (o : RecvFrom) :
    RecvStretch L s.buffer_ (s.rawrecv o).sock.isClosing_ []
      (resume s (.finalizeRecv L (control v ACK) response) o) := by
  obtain ⟨hb, _, _, hq, hs⟩ := rawrecv_rest s o
  show RecvStretch _ _ _ _ (s.finalizePass L (control v ACK) response o)
  unfold RcsT.finalizePass
  dsimp only
  have hend := (stretch_finalizeEnd (s.rawrecv o).sock L).after hq hs
  rw [hb] at hend
  split
  · exact hend
  · split
    · exact hend
    · exact ⟨by rw [queuedIn_append, hq]; rfl, hs.append (onlyControl_ack _ v), rfl,
        Or.inl ⟨.finalize v _, hb⟩⟩

/-- A receive of a blocked recv. -/
theorem stretch_resume {pc : Pc} (h : RecvBlocked L pc) (s : RcsT) (o : RecvFrom) :
    RecvStretch L (queueAll s.buffer_ (received s pc o)) (s.rawrecv o).sock.isClosing_
      (received s pc o) (resume s pc o) := by
  cases h with
  | loop => exact stretch_recvPass s L o
  | finalize v response => exact stretch_finalizePass s L v response o

end Recv

/-! ## 3. One receive of send -/

/-- A send that is blocked. -/
inductive SendBlocked : Pc → Prop where
  | fragment (data : List UInt8) (processedSize : Nat) (msg : MsgT) :
    SendBlocked (.sendFragment data processedSize msg)
  | eos (data : List UInt8) (msg : MsgT) : SendBlocked (.sendEos data msg)

/-- A stretch of a send queues nothing. -/
structure SendStretch (b : MsgBufferT) (r : Res) : Prop where
  queued : queuedIn r.out = []
  buffer : r.sock.buffer_ = b
  goes : SendBlocked r.pc ∨ ∃ length, r.pc = .returned (.send length)

theorem SendBlocked.blocked {pc : Pc} (h : SendBlocked pc) (ret : Ret) : pc ≠ .returned ret := by
  cases h <;> exact Pc.noConfusion

section Send

variable {s : RcsT} {b : MsgBufferT} {r : Res}

theorem sends_sendPc (data : List UInt8) (k : Nat) : SendBlocked (sendPc data k) := by
  unfold sendPc
  split
  · exact .fragment _ _ _
  · exact .eos _ _

theorem SendStretch.after (h : SendStretch b r) {out : List Event} (hq : queuedIn out = []) :
    SendStretch b (r.after out) where
  queued := by
    show queuedIn (out ++ r.out) = _
    rw [queuedIn_append, hq, h.queued]
    rfl
  buffer := h.buffer
  goes := h.goes

theorem stretch_sendLoop (s : RcsT) (data : List UInt8) (k : Nat) :
    SendStretch s.buffer_ (RcsT.sendLoop s data k) := by
  unfold RcsT.sendLoop
  split
  · exact ⟨rfl, rfl, Or.inl (.fragment _ _ _)⟩
  · split
    · exact ⟨rfl, rfl, Or.inl (.eos _ _)⟩
    · exact ⟨rfl, rfl, Or.inr ⟨_, rfl⟩⟩

theorem acksend_queued (s : RcsT) (msg : MsgT) (o : RecvFrom) :
    queuedIn (s.acksend msg o).2.1 = [] := by
  obtain ⟨_, _, _, hq, _⟩ := rawrecv_rest s o
  unfold RcsT.acksend RcsT.lowrecv
  dsimp only
  split
  · rw [queuedIn_append, hq]
    rfl
  · split
    · exact hq
    · rw [queuedIn_append, hq]
      rfl

/-- A receive of a blocked send. -/
theorem stretch_sends {pc : Pc} (h : SendBlocked pc) (s : RcsT) (o : RecvFrom) :
    SendStretch s.buffer_ (resume s pc o) := by
  have hsock : ∀ msg, (s.acksend msg o).1.buffer_ = s.buffer_ := fun msg => by
    rw [(acksend_eq s msg o).1, (rawrecv_rest s o).1]
  cases h with
  | fragment data k msg =>
    have hq := acksend_queued s msg o
    have hb := hsock msg
    rw [resume]
    generalize s.acksend msg o = a at hq hb
    obtain ⟨s', out, leave⟩ := a
    cases leave with
    | true =>
      have h := (stretch_sendLoop (nextFragment s') data (k + MAX_DATA_LENGTH)).after hq
      have hb' : (nextFragment s').buffer_ = s.buffer_ := hb
      rw [hb'] at h
      exact h
    | false => exact ⟨hq, hb, Or.inl (.fragment _ _ _)⟩
  | eos data msg =>
    have hq := acksend_queued s msg o
    have hb := hsock msg
    rw [resume]
    generalize s.acksend msg o = a at hq hb
    obtain ⟨s', out, leave⟩ := a
    cases leave with
    | true => exact ⟨hq, hb, Or.inr ⟨_, rfl⟩⟩
    | false => exact ⟨hq, hb, Or.inl (.eos _ _)⟩

end Send

/-! ## 4. accept -/

/-- Where accept stands: it has not sent the port, or it has, or it has returned. -/
inductive AcceptPlace (child : Nat) (me : SockaddrIn) (r : ApiRes) : Prop where
  | receiving (pc : Pc) (hpc : r.pc = .blocked (.acceptRecv child me) pc) (hr : RecvBlocked 32 pc)
      (hno : ¬ PortSent me.sin_port r.out)
  | sending (pc : Pc) (hpc : r.pc = .blocked (.acceptSend child) pc) (hs : SendBlocked pc)
      (hport : PortSent me.sin_port r.out)
  | returned (addr : Option SockaddrIn) (hpc : r.pc = .returned (.accept child addr))

/-- The port was not sent, and never will be. -/
inductive Unsent (port : UInt16) (r : ApiRes) : Prop where
  | closing (child : Nat) (me : SockaddrIn) (pc : Pc)
      (hpc : r.pc = .blocked (.acceptRecv child me) pc) (hc : r.sock.isClosing_ = true)
  | returned (ret : ApiRet) (hpc : r.pc = .returned ret) (hno : ¬ PortSent port r.out)

section Accept

variable {child : Nat} {me : SockaddrIn} {r : Res} {w w' : Dialogue} {o : RecvFrom}

theorem queuedBy_append (out out' : List ApiEvent) :
    queuedBy (out ++ out') = queuedBy out ++ queuedBy out' := List.filterMap_append

theorem queuedBy_io (out : List Event) : queuedBy (out.map .io) = queuedIn out := by
  unfold queuedBy queuedIn
  rw [List.filterMap_map]
  refine List.filterMap_congr fun e _ => ?_
  cases e <;> rfl

theorem PortSent.append {port : UInt16} {out out' : List ApiEvent} :
    PortSent port (out ++ out') ↔ PortSent port out ∨ PortSent port out' := by
  unfold PortSent
  simp only [List.mem_append, exists_or]

/-- What close and recv send is not the port. -/
theorem not_portSent {out : List Event} (h : OnlyControl out) (port : UInt16) :
    ¬ PortSent port (out.map .io) := by
  rintro ⟨fd, dest, hm⟩
  obtain ⟨e, he, heq⟩ := List.mem_map.mp hm
  rw [(ApiEvent.io.injEq ..).mp heq] at he
  rcases h fd _ dest he with ha | hf
  · rw [pkt_noAck] at ha
    cases ha
  · rw [pkt_noFin] at hf
    cases hf

theorem nfrag_portBytes (port : UInt16) : 0 < nfrag (portBytes port) := by
  rw [lt_nfrag_iff, portBytes, length_leBytes]
  decide

/-- Behind its recv, on a closed socket, accept returns. -/
theorem acceptMid_closing {s : RcsT} (h : s.isClosing_ = true) (child : Nat) (me : SockaddrIn)
    (out : List Event) (ret : Ret) :
    acceptMid child me ⟨s, out, .returned ret⟩ = ⟨sendStarted s,
      out.map .io ++ [.childEndpoint child s.fromEndpoint_],
      .returned (.accept child (some s.fromEndpoint_))⟩ := by
  have hsend : s.send (portBytes me.sin_port) = ⟨sendStarted s, [], .returned (.send _)⟩ :=
    sendLoop_closing (show (sendStarted s).isClosing_ = true from h) _ 0
  show (acceptEnd child (s.send (portBytes me.sin_port))).after _ = _
  rw [hsend]
  exact congrArg (fun out => ApiRes.mk _ out _) (List.append_nil _)

/-- On an open one it sends the port. -/
theorem acceptMid_open {s : RcsT} (h : s.isClosing_ = false) (child : Nat) (me : SockaddrIn)
    (out : List Event) (ret : Ret) :
    acceptMid child me ⟨s, out, .returned ret⟩ = ⟨sendStarted s,
      out.map .io ++ [.childEndpoint child s.fromEndpoint_,
        .io ((sendStarted s).rawsend (pkt (portBytes me.sin_port) 0))],
      .blocked (.acceptSend child)
        (.sendFragment (portBytes me.sin_port) 0 (pkt (portBytes me.sin_port) 0))⟩ := by
  have hsend : s.send (portBytes me.sin_port) = _ :=
    sendLoop_at (show (sendStarted s).isClosing_ = false from h) (portBytes me.sin_port)
      (k := 0) rfl
  rw [sendPc, if_pos (nfrag_portBytes me.sin_port)] at hsend
  show (acceptEnd child (s.send (portBytes me.sin_port))).after _ = _
  rw [hsend]
  show ApiRes.mk _ (out.map .io ++ [_] ++ [_]) _ = _
  rw [List.append_assoc]
  rfl

/-- accept from its recv on, behind the events `out`. -/
theorem acceptMid_place (child : Nat) {me : SockaddrIn} {r : Res} {out : List ApiEvent}
    (h : RecvBlocked 32 r.pc ∨ ∃ ret, r.pc = .returned ret) (hr : OnlyControl r.out)
    (hno : ¬ PortSent me.sin_port out) :
    AcceptPlace child me ((acceptMid child me r).after out) ∧
      queuedBy ((acceptMid child me r).after out).out = queuedBy out ++ queuedIn r.out ∧
      (Unsent me.sin_port ((acceptMid child me r).after out) ↔ r.sock.isClosing_ = true) := by
  obtain ⟨s, es, pc⟩ := r
  have hno' : ¬ PortSent me.sin_port (out ++ es.map .io) := by
    rw [PortSent.append]
    exact fun h => h.elim hno (not_portSent hr _)
  have hqueued : ∀ tail : List ApiEvent, queuedBy tail = [] →
      queuedBy (out ++ (es.map .io ++ tail)) = queuedBy out ++ queuedIn es := by
    intro tail ht
    rw [queuedBy_append, queuedBy_append, queuedBy_io, ht, List.append_nil]
  rcases h with hpc | ⟨ret, rfl⟩
  · have hmid : acceptMid child me ⟨s, es, pc⟩ =
        ⟨s, es.map .io, .blocked (.acceptRecv child me) pc⟩ :=
      proceed_blocked (r := ⟨s, es, pc⟩) hpc.blocked (.acceptRecv child me)
    rw [hmid]
    refine ⟨.receiving pc rfl hpc hno', ?_, ?_, fun hc => .closing child me pc rfl hc⟩
    · rw [← hqueued [] rfl, List.append_nil]
      rfl
    · rintro (⟨_, _, _, _, hc⟩ | ⟨_, hret, _⟩)
      · exact hc
      · cases hret
  · cases hc : s.isClosing_ with
    | true =>
      rw [acceptMid_closing hc]
      refine ⟨.returned _ rfl, hqueued _ rfl, iff_of_true (.returned _ rfl ?_) rfl⟩
      show ¬ PortSent _ (out ++ (es.map .io ++ [.childEndpoint child s.fromEndpoint_]))
      rw [← List.append_assoc, PortSent.append]
      rintro (h | ⟨_, _, hm⟩)
      · exact hno' h
      · cases List.mem_singleton.mp hm
    | false =>
      rw [acceptMid_open hc]
      refine ⟨.sending _ rfl (.fragment _ _ _) ⟨s.ucpSocket_, s.endPoint_, ?_⟩, hqueued _ rfl,
        iff_of_false ?_ Bool.false_ne_true⟩
      · exact List.mem_append_right _ (List.mem_append_right _
          (List.mem_cons_of_mem _ (List.mem_singleton_self _)))
      · rintro (⟨_, _, _, hpc, _⟩ | ⟨_, hret, _⟩)
        · cases hpc
        · cases hret

/-- accept from its send on, behind events with the port. -/
theorem acceptEnd_place (child : Nat) {me : SockaddrIn} {r : Res} {out : List ApiEvent}
    (h : SendBlocked r.pc ∨ ∃ length, r.pc = .returned (.send length)) (hq : queuedIn r.out = [])
    (hport : PortSent me.sin_port out) :
    AcceptPlace child me ((acceptEnd child r).after out) ∧
      queuedBy ((acceptEnd child r).after out).out = queuedBy out ∧
      ¬ Unsent me.sin_port ((acceptEnd child r).after out) := by
  obtain ⟨s, es, pc⟩ := r
  have hport' : PortSent me.sin_port (out ++ es.map .io) := PortSent.append.mpr (Or.inl hport)
  have hqueued : queuedBy (out ++ es.map .io) = queuedBy out := by
    rw [queuedBy_append, queuedBy_io, hq, List.append_nil]
  rcases h with hs | ⟨length, rfl⟩
  · have hend : acceptEnd child ⟨s, es, pc⟩ = ⟨s, es.map .io, .blocked (.acceptSend child) pc⟩ :=
      proceed_blocked (r := ⟨s, es, pc⟩) hs.blocked (.acceptSend child)
    rw [hend]
    refine ⟨.sending pc rfl hs hport', hqueued, ?_⟩
    rintro (⟨_, _, _, hpc, _⟩ | ⟨_, hret, _⟩)
    · cases hpc
    · cases hret
  · refine ⟨.returned _ rfl, hqueued, ?_⟩
    rintro (⟨_, _, _, hpc, _⟩ | ⟨_, _, hno⟩)
    · cases hpc
    · exact hno hport'

/-- What accept has queued is what it has received in sequence. -/
structure Accepts (child : Nat) (me : SockaddrIn) (w : Dialogue) : Prop where
  place : AcceptPlace child me w.res
  queued : queuedBy w.res.out = w.messages

theorem receivedFrom_messages (s : RcsT) (pc : Pc) (o : RecvFrom) :
    (receivedFrom s pc o).map Prod.snd = received s pc o := by
  cases o with
  | error e => cases pc <;> rfl
  | datagram e d src =>
    unfold receivedFrom
    rw [List.map_map]
    exact List.map_id _

theorem messages_append (taken : List (SockaddrIn × MsgT)) (s : RcsT) (pc : Pc) (o : RecvFrom) :
    (taken ++ receivedFrom s pc o).map Prod.snd = taken.map Prod.snd ++ received s pc o := by
  rw [List.map_append, receivedFrom_messages]

theorem step_eq {stage : Stage} {pc : Pc} (hpc : w.res.pc = .blocked stage pc)
    (h : w.step o = some w') : w' = {
      res := (apiResume w.res.sock stage pc o).after w.res.out
      taken := w.taken ++ receivedFrom w.res.sock pc o
      delivered := deliveredBy stage (resume w.res.sock pc o) } := by
  unfold Dialogue.step at h
  rw [hpc] at h
  exact (Option.some.inj h).symm

theorem step_returned {ret : ApiRet} (hpc : w.res.pc = .returned ret) (h : w.step o = some w') :
    False := by
  unfold Dialogue.step at h
  rw [hpc] at h
  cases h

/-- One receive of accept: the port will never be sent if the socket was closing, or is now. -/
theorem Accepts.next (h : Accepts child me w) (hstep : w.step o = some w') : Accepts child me w' ∧
    (Unsent me.sin_port w'.res ↔ Unsent me.sin_port w.res ∨ ¬ noFinYet w o) := by
  cases h.place with
  | receiving pc hpc hr hno =>
    obtain rfl := step_eq hpc hstep
    have hs := stretch_resume hr w.res.sock o
    obtain ⟨hplace, hqueued, hunsent⟩ := acceptMid_place child
      (hs.goes.imp And.left fun h => ⟨_, h⟩) hs.sends hno
    refine ⟨⟨hplace, ?_⟩, hunsent.trans ?_⟩
    · exact hqueued.trans (by rw [h.queued, hs.queued]; exact (messages_append ..).symm)
    · have hwas : Unsent me.sin_port w.res ↔ w.res.sock.isClosing_ = true := by
        constructor
        · rintro (⟨_, _, _, _, hc⟩ | ⟨_, hret, _⟩)
          · exact hc
          · rw [hpc] at hret
            cases hret
        · exact fun hc => .closing child me pc hpc hc
      have hfin : noFinYet w o ↔ ¬ BringsFin o := by
        unfold noFinYet
        rw [hpc]
      rw [hs.closing, (rawrecv_rest w.res.sock o).2.2.1, hwas, hfin, not_not]
  | sending pc hpc hs hport =>
    obtain rfl := step_eq hpc hstep
    have hstretch := stretch_sends hs w.res.sock o
    obtain ⟨hplace, hqueued, hsent⟩ :=
      acceptEnd_place child hstretch.goes hstretch.queued hport
    have hnone : received w.res.sock pc o = [] := by cases hs <;> rfl
    have hwas : ¬ Unsent me.sin_port w.res := by
      rintro (⟨_, _, _, hpc', _⟩ | ⟨_, hret, _⟩)
      · rw [hpc] at hpc'
        cases hpc'
      · rw [hpc] at hret
        cases hret
    refine ⟨⟨hplace, ?_⟩, iff_of_false hsent fun h => h.elim hwas fun hno => hno ?_⟩
    · refine hqueued.trans (h.queued.trans ?_)
      unfold Dialogue.messages
      rw [messages_append, hnone, List.append_nil]
    · unfold noFinYet
      rw [hpc]
      trivial
  | returned addr hpc => exact (step_returned hpc hstep).elim

theorem accepts_start {s : RcsT} (h : s.isListenerSocket_ = true) (child : Nat) (me : SockaddrIn) :
    Accepts child me (acceptStart s child me) ∧
      (Unsent me.sin_port (acceptStart s child me).res ↔ s.isClosing_ = true) := by
  have hs := stretch_recv { (s.setTimeout 0).1 with hasEndpoint_ := false } 32
  have hno : ¬ PortSent me.sin_port ((s.setTimeout 0).2.map .io) :=
    not_portSent (onlyControl_setTimeout s 0) _
  obtain ⟨hplace, hqueued, hunsent⟩ := acceptMid_place child
    (hs.goes.imp And.left fun h => ⟨_, h⟩) hs.sends hno
  have hstart : (acceptStart s child me).res = accept s child me := if_pos h
  rw [hstart]
  refine ⟨⟨by rw [hstart]; exact hplace, ?_⟩, hunsent.trans (by rw [hs.closing]; rfl)⟩
  rw [hstart]
  exact hqueued.trans (by rw [hs.queued]; rfl)

/-- The port was sent if and only if the socket was open and no FIN came first. -/
theorem accept_sent_iff {s : RcsT} (h : s.isListenerSocket_ = true) {os : List RecvFrom}
    (hrun : Run Dialogue.step (fun _ _ => True) (acceptStart s child me) os w) :
    ¬ Unsent me.sin_port w.res ↔
      s.isClosing_ = false ∧ Run Dialogue.step noFinYet (acceptStart s child me) os w := by
  obtain ⟨h0, hstart⟩ := accepts_start h child me
  cases hc : s.isClosing_ with
  | true =>
    obtain ⟨_, hunsent⟩ := hrun.invariant
      (I := fun w => Accepts child me w ∧ Unsent me.sin_port w.res) ⟨h0, hstart.mpr hc⟩
      fun _ _ _ h _ hstep => ⟨(h.1.next hstep).1, (h.1.next hstep).2.mpr (Or.inl h.2)⟩
    exact iff_of_false (not_not_intro hunsent) fun h => absurd h.1 (by decide)
  | false =>
    rw [and_iff_right rfl]
    exact hrun.good_iff (I := fun w => Accepts child me w ∧ ¬ Unsent me.sin_port w.res)
      (B := fun w => Accepts child me w ∧ Unsent me.sin_port w.res)
      ⟨h0, fun hu => by rw [hstart.mp hu] at hc; cases hc⟩
      (fun _ _ _ h hok hstep => ⟨(h.1.next hstep).1, fun hu =>
        ((h.1.next hstep).2.mp hu).elim h.2 fun hno => hno hok⟩)
      (fun _ _ _ h hok hstep => ⟨(h.1.next hstep).1, (h.1.next hstep).2.mpr (Or.inr hok)⟩)
      (fun _ _ _ h hstep => ⟨(h.1.next hstep).1, (h.1.next hstep).2.mpr (Or.inl h.2)⟩)
      (fun _ h => h.2) (fun _ h => not_not_intro h.2)

end Accept

/-! ## 5. connect -/

/-- Where connect stands, with the buffer `b` at its start: what its recv delivers is read off that
    buffer and the messages that were received in sequence. -/
inductive Connects (b : MsgBufferT) (w : Dialogue) : Prop where
  | sending (pc : Pc) (hpc : w.res.pc = .blocked .connectSend pc) (hs : SendBlocked pc)
      (htaken : w.taken = []) (hb : w.res.sock.buffer_ = b)
  | receiving (pc : Pc) (hpc : w.res.pc = .blocked .connectRecv pc) (hr : RecvBlocked 16 pc)
      (hb : w.res.sock.buffer_ = queueAll b w.messages)
  | returned (hpc : w.res.pc = .returned (.connect 0))
      (hd : w.delivered = some (frontOf 16 (queueAll b w.messages)))

section Connect

variable {b : MsgBufferT} {w w' : Dialogue} {o : RecvFrom}

theorem queueAll_append (b : MsgBufferT) (msgs msgs' : List MsgT) :
    queueAll b (msgs ++ msgs') = queueAll (queueAll b msgs) msgs' := List.foldl_append

/-- connect from its recv on. -/
theorem connects_end {r : Res} {taken : List (SockaddrIn × MsgT)} (out : List ApiEvent)
    (h : (RecvBlocked 16 r.pc ∧ r.sock.buffer_ = queueAll b (taken.map Prod.snd)) ∨
      r.pc = .returned (.recv (frontOf 16 (queueAll b (taken.map Prod.snd))))) :
    Connects b ⟨(connectEnd r).after out, taken, deliveredBy .connectRecv r⟩ := by
  obtain ⟨s, es, pc⟩ := r
  rcases h with ⟨hr, hb⟩ | hpc
  · have hend : connectEnd ⟨s, es, pc⟩ = ⟨s, es.map .io, .blocked .connectRecv pc⟩ :=
      proceed_blocked (r := ⟨s, es, pc⟩) hr.blocked .connectRecv
    rw [hend]
    exact .receiving pc rfl hr hb
  · obtain rfl : pc = _ := hpc
    exact .returned rfl rfl

/-- connect from its send on. -/
theorem connects_mid {r : Res} (out : List ApiEvent) (h : SendStretch b r) :
    Connects b ⟨(connectMid r).after out, [], deliveredBy .connectSend r⟩ := by
  obtain ⟨s, es, pc⟩ := r
  rcases h.goes with hs | ⟨length, hpc⟩
  · have hmid : connectMid ⟨s, es, pc⟩ = ⟨s, es.map .io, .blocked .connectSend pc⟩ :=
      proceed_blocked (r := ⟨s, es, pc⟩) hs.blocked .connectSend
    rw [hmid]
    exact .sending pc rfl hs rfl h.buffer
  · obtain rfl : pc = _ := hpc
    have hrecv := (stretch_recv s 16).goes
    have hb : s.buffer_ = queueAll b [] := h.buffer
    rw [hb] at hrecv
    have hd : deliveredBy .connectSend ⟨s, es, .returned (.send length)⟩ =
        deliveredBy .connectRecv (s.recv 16) := by
      unfold deliveredBy
      dsimp only
      cases (s.recv 16).pc <;> rfl
    rw [hd]
    have hmid : (connectMid ⟨s, es, .returned (.send length)⟩).after out =
        (connectEnd (s.recv 16)).after (out ++ es.map .io) := by
      show ApiRes.mk _ (out ++ (es.map .io ++ _)) _ = ApiRes.mk _ (out ++ es.map .io ++ _) _
      rw [List.append_assoc]
      rfl
    rw [hmid]
    exact connects_end _ hrecv

theorem connects_start (s : RcsT) (addr : SockaddrIn) :
    Connects s.buffer_ (connectStart s addr) :=
  connects_mid [] (stretch_sendLoop (sendStarted (s.setEndpoint addr)) connectRequest 0)

theorem Connects.next (h : Connects b w) (hstep : w.step o = some w') : Connects b w' := by
  cases h with
  | sending pc hpc hs htaken hb =>
    obtain rfl := step_eq hpc hstep
    have hnone : receivedFrom w.res.sock pc o = [] := by cases hs <;> cases o <;> rfl
    have hstretch := stretch_sends hs w.res.sock o
    rw [hb] at hstretch
    rw [htaken, hnone]
    exact connects_mid w.res.out hstretch
  | receiving pc hpc hr hb =>
    obtain rfl := step_eq hpc hstep
    have hs := (stretch_resume hr w.res.sock o).goes
    rw [hb, ← queueAll_append] at hs
    refine connects_end w.res.out ?_
    rw [messages_append]
    exact hs
  | returned hpc => exact (step_returned hpc hstep).elim

end Connect

/-! ## 6. Where the bytes are from -/

section Origins

variable {b : MsgBufferT} {taken pre post : List (SockaddrIn × MsgT)} {x : SockaddrIn × MsgT}
  {addr : SockaddrIn} {L : Nat}

theorem queueAll_buffer (b : MsgBufferT) (msgs : List MsgT) :
    (queueAll b msgs).buffer_ = b.buffer_ ++ msgs := by
  induction msgs generalizing b with
  | nil => exact (List.append_nil _).symm
  | cons m msgs ih => exact (ih (b.queueMessage m)).trans (List.append_assoc _ [m] msgs)

theorem queueAll_tape (b : MsgBufferT) (msgs : List MsgT) :
    (queueAll b msgs).tape = b.tape ++ msgs.flatMap tapeOf := by
  induction msgs generalizing b with
  | nil => exact (List.append_nil _).symm
  | cons m msgs ih =>
    rw [List.flatMap_cons, ← List.append_assoc, ← tape_queueMessage]
    exact ih (b.queueMessage m)

theorem totalSize_le_queueAll (b : MsgBufferT) (msgs : List MsgT) :
    b.totalSize_ ≤ (queueAll b msgs).totalSize_ := by
  induction msgs generalizing b with
  | nil => exact le_refl _
  | cons m msgs ih => exact (Nat.le_add_right _ _).trans (ih (b.queueMessage m))

/-- A buffer that gets a message with data is not empty. -/
theorem queueAll_not_empty {m : MsgT} {msgs : List MsgT} (hm : m ∈ msgs) (hl : m.length ≠ 0)
    (b : MsgBufferT) : (queueAll b msgs).empty = false := by
  induction msgs generalizing b with
  | nil => cases hm
  | cons m' msgs ih =>
    rcases List.mem_cons.mp hm with rfl | hm
    · have hne : m.length.toNat ≠ 0 := fun h => hl (UInt16.toNat_inj.mp h)
      have hle : b.totalSize_ + m.length.toNat ≤ (queueAll b (m :: msgs)).totalSize_ :=
        totalSize_le_queueAll (b.queueMessage m) msgs
      exact beq_eq_false_iff_ne.mpr (by omega)
    · exact ih hm (b.queueMessage m')

/-- Without the origins it is the tape of the buffer. -/
theorem originTape_bytes (b : MsgBufferT) (taken : List (SockaddrIn × MsgT)) :
    mapSymbols Prod.fst (originTape b taken) = (queueAll b (taken.map Prod.snd)).tape := by
  have htaken : mapSymbols Prod.fst (taken.flatMap originOf) =
      (taken.map Prod.snd).flatMap tapeOf := by
    induction taken with
    | nil => rfl
    | cons x taken ih =>
      rw [List.flatMap_cons, mapSymbols_append, ih, List.map_cons, List.flatMap_cons]
      exact congrArg (· ++ _) (mapSymbols_leftInverse _ (fun _ => rfl) _)
  rw [originTape, mapSymbols_append, htaken, queueAll_tape]
  exact congrArg (· ++ _) (mapSymbols_leftInverse _ (fun _ => rfl) _)

/-- A recv reads the bytes at the front, whatever their origins. -/
theorem frontOf_origins (hb : ∀ m ∈ b.buffer_, m.length.toNat ≤ MAX_DATA_LENGTH)
    (ht : ∀ x ∈ taken, x.2.length.toNat ≤ MAX_DATA_LENGTH)
    (he : (queueAll b (taken.map Prod.snd)).empty = false) (L : Nat) :
    frontOf L (queueAll b (taken.map Prod.snd)) =
      (readMarked L (originTape b taken)).1.map Prod.fst := by
  have hfits : ∀ m ∈ (queueAll b (taken.map Prod.snd)).buffer_,
      m.length.toNat ≤ MAX_DATA_LENGTH := fun m hm => by
    rw [queueAll_buffer] at hm
    rcases List.mem_append.mp hm with hm | hm
    · exact hb m hm
    · obtain ⟨x, hx, rfl⟩ := List.mem_map.mp hm
      exact ht x hx
  rw [frontOf, if_neg (by rw [he]; decide), (read_tape hfits L).1, ← originTape_bytes,
    readMarked_mapSymbols]

theorem originOf_eos (he : x.2.hasFlag EOS = true) : originOf x = [none] := by
  rw [originOf, tapeOf, if_pos he]
  rfl

theorem originOf_data (he : x.2.hasFlag EOS = false) :
    originOf x = (x.2.payload.map fun byte => (byte, some x)).map some := by
  rw [originOf, tapeOf, if_neg (by rw [he]; decide), mapSymbols_map_some]

theorem payload_nil_iff {m : MsgT} (hm : m.length.toNat ≤ MAX_DATA_LENGTH) :
    m.payload = [] ↔ m.length = 0 := by
  rw [← List.length_eq_zero_iff, length_payload hm, ← UInt16.toNat_inj]
  rfl

theorem Dataless.symbols_nil (h : Dataless x.2) : symbols (originOf x) = [] := by
  cases he : x.2.hasFlag EOS with
  | true =>
    rw [originOf_eos he]
    rfl
  | false =>
    have hl : x.2.length = 0 := h.resolve_left (by rw [he]; decide)
    rw [originOf_data he, MsgT.payload, hl]
    rfl

/-- The messages in front of which nothing can be read. -/
theorem skip_dataless (h : ∀ y ∈ pre, Dataless y.2) (q : Marked (UInt8 × Origin)) :
    skip (pre.flatMap originOf ++ q) = skip q := by
  induction pre with
  | nil => rfl
  | cons y pre ih =>
    rw [List.flatMap_cons, List.append_assoc,
      skip_append_marks (h y List.mem_cons_self).symbols_nil]
    exact ih fun y' hy' => h y' (List.mem_cons_of_mem y hy')

/-- The first message with data is read first, and then what comes before the next marker. -/
theorem front_first (hpre : ∀ y ∈ pre, Dataless y.2) (he : x.2.hasFlag EOS = false)
    (hx : x.2.payload ≠ []) : front (skip ((pre ++ x :: post).flatMap originOf)) =
      (x.2.payload.map fun byte => (byte, some x)) ++ front (post.flatMap originOf) := by
  rw [List.flatMap_append, skip_dataless hpre, List.flatMap_cons, originOf_data he,
    skip_append (by rwa [ne_eq, List.map_eq_nil_iff]), front_append]

/-- What is read first is from the first message with data. -/
theorem first_of_front {byte : UInt8} (ht : ∀ y ∈ taken, y.2.length.toNat ≤ MAX_DATA_LENGTH)
    (h : (front (skip (taken.flatMap originOf))).head? = some (byte, some x)) :
    ∃ pre post, taken = pre ++ x :: post ∧ ∀ y ∈ pre, Dataless y.2 := by
  induction taken with
  | nil => cases h
  | cons y taken ih =>
    by_cases hy : Dataless y.2
    · have hyd : ∀ z ∈ [y], Dataless z.2 := fun z hz => List.mem_singleton.mp hz ▸ hy
      have hskip := skip_dataless hyd (taken.flatMap originOf)
      rw [List.flatMap_singleton] at hskip
      rw [List.flatMap_cons, hskip] at h
      obtain ⟨pre, post, rfl, hpre⟩ := ih (fun z hz => ht z (List.mem_cons_of_mem y hz)) h
      refine ⟨y :: pre, post, rfl, fun z hz => ?_⟩
      rcases List.mem_cons.mp hz with rfl | hz
      · exact hy
      · exact hpre z hz
    · obtain ⟨he, hl⟩ := not_or.mp hy
      have hp : y.2.payload ≠ [] := fun hp => hl ((payload_nil_iff (ht y List.mem_cons_self)).mp hp)
      have hnone : ∀ z ∈ ([] : List (SockaddrIn × MsgT)), Dataless z.2 := fun z hz => by
        cases hz
      rw [← List.nil_append (y :: taken), front_first hnone (Bool.eq_false_iff.mpr he) hp] at h
      obtain ⟨c, cs, hc⟩ := List.exists_cons_of_ne_nil hp
      rw [hc, List.map_cons, List.cons_append, List.head?_cons, Option.some.injEq,
        Prod.mk.injEq] at h
      obtain rfl : y = x := Option.some.inj h.2
      exact ⟨[], taken, rfl, fun z hz => absurd hz List.not_mem_nil⟩

/-- Nothing comes before the next marker. -/
theorem front_nil_iff (ht : ∀ y ∈ post, y.2.length.toNat ≤ MAX_DATA_LENGTH) :
    front (post.flatMap originOf) = [] ↔
      ∀ y ∈ post.takeWhile fun y => !y.2.hasFlag EOS, y.2.length = 0 := by
  induction post with
  | nil => exact iff_of_true rfl fun y hy => absurd hy List.not_mem_nil
  | cons y post ih =>
    have ih := ih fun z hz => ht z (List.mem_cons_of_mem y hz)
    rw [List.flatMap_cons]
    cases he : y.2.hasFlag EOS with
    | true =>
      rw [originOf_eos he, List.takeWhile_cons_of_neg (by rw [he]; decide)]
      exact iff_of_true rfl fun z hz => absurd hz List.not_mem_nil
    | false =>
      rw [originOf_data he, front_append, List.append_eq_nil_iff, List.map_eq_nil_iff,
        payload_nil_iff (ht y List.mem_cons_self), ih,
        List.takeWhile_cons_of_pos (by rw [he]; decide), List.forall_mem_cons]

theorem length_portBytes (port : UInt16) : (portBytes port).length = 2 := length_leBytes 2 _

theorem payload_port (port : UInt16) : (pkt (portBytes port) 0).payload = portBytes port := by
  rw [pkt_payload (nfrag_portBytes port), Nat.mul_zero, List.drop_zero,
    List.take_of_length_le (by rw [length_portBytes]; decide)]

/-- What connect's recv reads is the port from the server, if and only if the port is the first data
    in the buffer. -/
theorem reads_port_iff (ht : ∀ y ∈ taken, y.2.length.toNat ≤ MAX_DATA_LENGTH) :
    (∃ port, (readMarked 16 (originTape b taken)).1 =
        (portBytes port).map fun byte => (byte, some (addr, pkt (portBytes port) 0))) ↔
      symbols b.tape = [] ∧ PortFirst addr taken := by
  have hread : (readMarked 16 (originTape b taken)).1 =
      (front (skip (originTape b taken))).take 16 := rfl
  -- with nothing in the buffer, what is read first is from the messages
  have hskip : symbols b.tape = [] →
      skip (originTape b taken) = skip (taken.flatMap originOf) := fun h =>
    skip_append_marks (by rw [symbols_mapSymbols, h]; rfl) _
  -- behind the port there are 14 places left
  have hrest : ∀ (port : UInt16) (pre post : List (SockaddrIn × MsgT)),
      taken = pre ++ (addr, pkt (portBytes port) 0) :: post → (∀ y ∈ pre, Dataless y.2) →
      symbols b.tape = [] →
      (readMarked 16 (originTape b taken)).1 =
        ((portBytes port).map fun byte => (byte, some (addr, pkt (portBytes port) 0))) ++
          (front (post.flatMap originOf)).take 14 := fun port pre post heq hpre hb => by
    have hne : (pkt (portBytes port) 0).payload ≠ [] := by
      rw [payload_port, ← List.length_pos_iff, length_portBytes]
      decide
    rw [hread, hskip hb, heq, front_first hpre (by
      rw [pkt_hasFlag_eos, decide_eq_false (by have := nfrag_portBytes port; omega)]) hne,
      payload_port, List.take_append, List.length_map, length_portBytes,
      List.take_of_length_le (by rw [List.length_map, length_portBytes]; decide)]
  constructor
  · rintro ⟨port, hport⟩
    obtain ⟨b0, b1, hbytes⟩ := List.length_eq_two.mp (length_portBytes port)
    have hhead : (front (skip (originTape b taken))).head? =
        some (b0, some (addr, pkt (portBytes port) 0)) := by
      have h := congrArg List.head? (hread.symm.trans hport)
      rw [List.head?_take, if_neg (by decide)] at h
      rw [h, List.head?_map, hbytes]
      rfl
    have hb : symbols b.tape = [] := by
      rw [head_front_skip, originTape, symbols_append, symbols_mapSymbols] at hhead
      cases hb : symbols b.tape with
      | nil => rfl
      | cons c cs =>
        rw [hb, List.map_cons, List.cons_append, List.head?_cons, Option.some.injEq,
          Prod.mk.injEq] at hhead
        cases hhead.2
    rw [hskip hb] at hhead
    obtain ⟨pre, post, heq, hpre⟩ := first_of_front ht hhead
    refine ⟨hb, port, pre, post, heq, hpre, (front_nil_iff fun y hy => ht y ?_).mp ?_⟩
    · rw [heq]
      exact List.mem_append_right _ (List.mem_cons_of_mem _ hy)
    · rw [hrest port pre post heq hpre hb] at hport
      have hnil := List.append_right_eq_self.mp hport
      exact (List.take_eq_nil_iff.mp hnil).resolve_left (by decide)
  · rintro ⟨hb, port, pre, post, heq, hpre, hpost⟩
    refine ⟨port, ?_⟩
    rw [hrest port pre post heq hpre hb, (front_nil_iff fun y hy => ht y ?_).mpr hpost]
    · exact List.append_nil _
    · rw [heq]
      exact List.mem_append_right _ (List.mem_cons_of_mem _ hy)

end Origins

/-! ## 7. The result -/

section Result

variable {s : RcsT} {os : List RecvFrom} {w : Dialogue} {ret : ApiRet}

/-- A socket that does not listen: accept returns -1, and makes nothing. -/
theorem acceptReports_of_not_listener {p : Proc} {sockfd : Nat} (hs : p.getSocket sockfd = some s)
    (h : s.isListenerSocket_ = false) (sockName : SockaddrIn) (bind : SockaddrIn → Bool)
    (hpc : w.res.pc = .returned (.accept (-1) none)) :
    AcceptReports p sockfd sockName bind w where
  success result addr hpc' h0 := by
    rw [hpc, ApiPc.returned.injEq, ApiRet.accept.injEq] at hpc'
    omega
  failure _ _ _ _ id hid := by
    have hne : id ≠ sockfd := fun he => by
      rw [he, hs] at hid
      cases hid
    have hstart : ∀ child, apiStart s (.accept child sockName) =
        ⟨s, [], .returned (.accept (-1) none)⟩ := fun child => if_neg (by rw [h]; decide)
    unfold Proc.accept
    rw [hs]
    dsimp only
    rw [if_neg (by rw [h]; decide), hstart]
    exact (Function.update_of_ne hne _ _).trans hid

/-- A socket that listens: accept returns the number of its new socket. -/
theorem acceptReports_iff_of_listener {p : Proc} {sockName : SockaddrIn} {bind : SockaddrIn → Bool}
    (h : Accepts p.sNextId (childBind p sockName bind).2 w) (hret : w.res.pc = .returned ret)
    (sockfd : Nat) : AcceptReports p sockfd sockName bind w ↔ (childBind p sockName bind).1 = 0 ∧
      ¬ Unsent (childBind p sockName bind).2.sin_port w.res ∧
        pkt connectRequest 0 ∈ w.messages := by
  cases h.place with
  | receiving pc hpc => rw [hret] at hpc; cases hpc
  | sending pc hpc => rw [hret] at hpc; cases hpc
  | returned addr hpc =>
    have hchild : ∀ {result : Int} {addr' : Option SockaddrIn},
        w.res.pc = .returned (.accept result addr') → result = p.sNextId := fun hpc' => by
      rw [hpc, ApiPc.returned.injEq, ApiRet.accept.injEq] at hpc'
      exact hpc'.1.symm
    constructor
    · intro hr
      obtain ⟨hbound, hport, hmsg⟩ := hr.success _ addr hpc (Int.natCast_nonneg _)
      refine ⟨hbound, ?_, by rwa [h.queued] at hmsg⟩
      rintro (⟨_, _, _, hpc', _⟩ | ⟨_, _, hno⟩)
      · rw [hpc] at hpc'
        cases hpc'
      · exact hno hport
    · rintro ⟨hbound, hsent, hmsg⟩
      refine ⟨fun _ _ _ _ => ⟨hbound, ?_, by rwa [h.queued]⟩, fun _ _ hpc' hneg => ?_⟩
      · by_contra hno
        exact hsent (.returned _ hpc hno)
      · have := hchild hpc'
        omega

theorem accept_reports_iff {p : Proc} {sockfd : Nat} (hs : p.getSocket sockfd = some s)
    {sockName : SockaddrIn} {bind : SockaddrIn → Bool}
    (hrun : Run Dialogue.step (fun _ _ => True)
      (acceptStart s p.sNextId (childBind p sockName bind).2) os w)
    (hret : w.res.pc = .returned ret) :
    AcceptReports p sockfd sockName bind w ↔ s.isListenerSocket_ = false ∨
      ((childBind p sockName bind).1 = 0 ∧ s.isClosing_ = false ∧
        Run Dialogue.step noFinYet (acceptStart s p.sNextId (childBind p sockName bind).2) os w ∧
        pkt connectRequest 0 ∈ w.messages) := by
  cases hl : s.isListenerSocket_ with
  | false =>
    have hstart : (acceptStart s p.sNextId (childBind p sockName bind).2).res =
        ⟨s, [], .returned (.accept (-1) none)⟩ := if_neg (by rw [hl]; decide)
    refine iff_of_true (acceptReports_of_not_listener hs hl sockName bind ?_) (Or.inl rfl)
    cases hrun with
    | nil => rw [hstart]
    | cons _ hstep => exact (step_returned (by rw [hstart]) hstep).elim
  | true =>
    obtain ⟨h0, _⟩ := accepts_start hl p.sNextId (childBind p sockName bind).2
    have hw := hrun.invariant h0 fun _ _ _ h _ hstep => (h.next hstep).1
    rw [acceptReports_iff_of_listener hw hret sockfd, accept_sent_iff hl hrun, and_assoc,
      or_iff_right (by decide)]

/-- What recv takes from a receive fits its array. -/
theorem received_fits {s : RcsT} {pc : Pc} {o : RecvFrom} {m : MsgT} (hm : m ∈ received s pc o) :
    m.length.toNat ≤ MAX_DATA_LENGTH := by
  unfold received at hm
  split at hm
  · split at hm
    next h =>
      obtain rfl := List.mem_singleton.mp hm
      refine valid_length_le ?_
      have ha := h.1
      rw [accepted, Bool.and_eq_true] at ha
      exact ha.1
    · cases hm
  · cases hm

/-- What was received in sequence fits its array. -/
theorem taken_fits {w0 : Dialogue} (h0 : w0.taken = [])
    (hrun : Run Dialogue.step (fun _ _ => True) w0 os w) :
    ∀ x ∈ w.taken, x.2.length.toNat ≤ MAX_DATA_LENGTH := by
  refine hrun.invariant (I := fun w => ∀ x ∈ w.taken, x.2.length.toNat ≤ MAX_DATA_LENGTH)
    (by rw [h0]; exact fun x hx => absurd hx List.not_mem_nil) fun w o w' h _ hstep => ?_
  cases hpc : w.res.pc with
  | returned ret => exact (step_returned hpc hstep).elim
  | blocked stage pc =>
    obtain rfl := step_eq hpc hstep
    refine fun x hx => (List.mem_append.mp hx).elim (h x) fun hx => ?_
    have hm := List.mem_map_of_mem (f := Prod.snd) hx
    rw [receivedFrom_messages] at hm
    exact received_fits hm

theorem connect_reports_iff {addr : SockaddrIn}
    (hb : ∀ m ∈ s.buffer_.buffer_, m.length.toNat ≤ MAX_DATA_LENGTH)
    (hrun : Run Dialogue.step (fun _ _ => True) (connectStart s addr) os w)
    (hret : w.res.pc = .returned ret) :
    ConnectReports s.buffer_ addr w ↔ symbols s.buffer_.tape = [] ∧ PortFirst addr w.taken := by
  have ht := taken_fits rfl hrun
  cases hrun.invariant (connects_start s addr) fun _ _ _ h _ hstep => h.next hstep with
  | sending pc hpc => rw [hret] at hpc; cases hpc
  | receiving pc hpc => rw [hret] at hpc; cases hpc
  | returned hpc hd =>
    rw [← reads_port_iff ht]
    constructor
    · intro hr
      obtain ⟨port, _, hreads⟩ := hr.success 0 hpc rfl
      exact ⟨port, hreads⟩
    · rintro ⟨port, hreads⟩
      refine ⟨fun _ _ _ => ⟨port, ?_, hreads⟩, fun result hpc' hne => ?_⟩
      · obtain ⟨_, _, pre, post, heq, _, _⟩ := (reads_port_iff ht).mp ⟨port, hreads⟩
        have hmem : pkt (portBytes _) 0 ∈ w.messages :=
          List.mem_map_of_mem (heq ▸ List.mem_append_right pre List.mem_cons_self)
        have hne := queueAll_not_empty hmem (pkt_length_ne_zero (nfrag_portBytes _)) s.buffer_
        rw [hd, Dialogue.messages, frontOf_origins hb ht hne, hreads, List.map_map]
        exact congrArg some (List.map_id _)
      · rw [hpc, ApiPc.returned.injEq, ApiRet.connect.injEq] at hpc'
        exact absurd hpc'.symm hne

end Result

/-- accept that has returned says what it should if and only if its socket does not listen, or the
    bind of the new socket succeeds, the socket is open and no FIN comes in its recv, and a connect
    request is received in sequence. connect that has returned does if and only if there was nothing
    to read in its buffer, and the first data that is received in sequence is the port, from the
    server. -/
theorem reports_iff (s : RcsT) (os : List RecvFrom) (w : Dialogue) (ret : ApiRet)
    (hret : w.res.pc = .returned ret) :
    (∀ (p : Proc) (sockfd : Nat) (sockName : SockaddrIn) (bind : SockaddrIn → Bool),
      p.getSocket sockfd = some s →
      Run Dialogue.step (fun _ _ => True)
        (acceptStart s p.sNextId (childBind p sockName bind).2) os w →
      (AcceptReports p sockfd sockName bind w ↔ s.isListenerSocket_ = false ∨
        ((childBind p sockName bind).1 = 0 ∧ s.isClosing_ = false ∧
          Run Dialogue.step noFinYet (acceptStart s p.sNextId (childBind p sockName bind).2) os w ∧
          pkt connectRequest 0 ∈ w.messages))) ∧
    ∀ addr : SockaddrIn, (∀ m ∈ s.buffer_.buffer_, m.length.toNat ≤ MAX_DATA_LENGTH) →
      Run Dialogue.step (fun _ _ => True) (connectStart s addr) os w →
      (ConnectReports s.buffer_ addr w ↔
        symbols s.buffer_.tape = [] ∧ PortFirst addr w.taken) :=
  ⟨fun _ _ _ _ hs hrun => accept_reports_iff hs hrun hret,
    fun _ hb hrun => connect_reports_iff hb hrun hret⟩

/-- A process with one socket, that listens. -/
def oneListener : Proc where
  sSocketIdentifiers id :=
    if id = 0 then some { RcsT.new 3 ⟨0, 0⟩ with isListenerSocket_ := true } else none
  sNextId := 1
  openFds := [3, 2, 1, 0]
  timers _ := RECV_TIMEOUT
  busy := none
  log := []

/-- A request, with its marker, and the acknowledgements of the port. -/
def clientDatagrams : List RecvFrom :=
  [.datagram .EAGAIN (pkt connectRequest 0).wire ⟨2, 0⟩,
    .datagram .EAGAIN (pkt connectRequest 1).wire ⟨2, 0⟩, .error .EAGAIN,
    .datagram .EAGAIN (control 0 ACK).wire ⟨2, 0⟩, .datagram .EAGAIN (control 1 ACK).wire ⟨2, 0⟩]

def acceptDialogue (bind : SockaddrIn → Bool) : Option Dialogue :=
  exec Dialogue.step noFinYet (acceptStart { RcsT.new 3 ⟨0, 0⟩ with isListenerSocket_ := true } 1
    (childBind oneListener ⟨1, 0⟩ bind).2) clientDatagrams

/-- The acknowledgements of a request, and the port. -/
def serverDatagrams (port : UInt16) : List RecvFrom :=
  [.datagram .EAGAIN (control 0 ACK).wire ⟨1, 0⟩, .datagram .EAGAIN (control 1 ACK).wire ⟨1, 0⟩,
    .datagram .EAGAIN (pkt (portBytes port) 0).wire ⟨1, 0⟩,
    .datagram .EAGAIN (pkt (portBytes port) 1).wire ⟨1, 0⟩, .error .EAGAIN]

def connectDialogue (os : List RecvFrom) : Option Dialogue :=
  exec Dialogue.step (fun _ _ => True) (connectStart (.new 3 ⟨0, 0⟩) ⟨1, 0⟩) os

/-- What a call has returned. -/
def returnedBy (w : Dialogue) : Option ApiRet :=
  match w.res.pc with
  | .returned ret => some ret
  | _ => none

theorem returnedBy_eq {w : Dialogue} {ret : ApiRet} (h : returnedBy w = some ret) :
    w.res.pc = .returned ret := by
  unfold returnedBy at h
  split at h
  next hpc => rw [hpc, Option.some.inj h]
  next => cases h

/-- A handshake in which all goes well. -/
theorem reports_iff_handshake :
    (∃ w, acceptDialogue (fun _ => true) = some w ∧
      AcceptReports oneListener 0 ⟨1, 0⟩ (fun _ => true) w) ∧
    ∃ w, connectDialogue (serverDatagrams 10000) = some w ∧
      ConnectReports MsgBufferT.new ⟨1, 0⟩ w := by
  constructor
  · obtain ⟨w, hw⟩ := Option.isSome_iff_exists.mp
      (show (acceptDialogue fun _ => true).isSome = true by decide +kernel)
    have hall : ((acceptDialogue fun _ => true).all fun w =>
        returnedBy w == some (.accept 1 (some ⟨2, 0⟩)) &&
          decide (pkt connectRequest 0 ∈ w.messages)) = true := by decide +kernel
    rw [hw, Option.all_some, Bool.and_eq_true, beq_iff_eq, decide_eq_true_eq] at hall
    obtain ⟨hret, hmsg⟩ := hall
    have hrun := run_of_exec hw
    refine ⟨w, hw, ((reports_iff _ _ w _ (returnedBy_eq hret)).1 oneListener 0 ⟨1, 0⟩ _ rfl
      (hrun.mono fun _ _ _ => trivial)).mpr
      (Or.inr ⟨?_, rfl, hrun, hmsg⟩)⟩
    decide +kernel
  · obtain ⟨w, hw⟩ := Option.isSome_iff_exists.mp
      (show (connectDialogue (serverDatagrams 10000)).isSome = true by decide +kernel)
    have hall : ((connectDialogue (serverDatagrams 10000)).all fun w =>
        returnedBy w == some (.connect 0) && w.taken ==
          [(⟨1, 0⟩, pkt (portBytes 10000) 0), (⟨1, 0⟩, pkt (portBytes 10000) 1)]) = true := by
      decide +kernel
    rw [hw, Option.all_some, Bool.and_eq_true, beq_iff_eq, beq_iff_eq] at hall
    refine ⟨w, hw, ((reports_iff _ _ w _ (returnedBy_eq hall.1)).2 ⟨1, 0⟩
      (fun m hm => absurd hm List.not_mem_nil) (run_of_exec hw)).mpr ⟨rfl, ?_⟩⟩
    refine ⟨10000, [], [(⟨1, 0⟩, pkt (portBytes 10000) 1)], hall.2,
      fun x hx => absurd hx List.not_mem_nil, ?_⟩
    decide +kernel

/-- No port is free, and accept returns a descriptor; the server closes, and connect returns 0. -/
theorem handshake_unreported :
    ¬ (∀ (p : Proc) (sockfd : Nat) (s : RcsT) (sockName : SockaddrIn) (bind : SockaddrIn → Bool)
      (os : List RecvFrom) (w : Dialogue) (ret : ApiRet), p.getSocket sockfd = some s →
      Run Dialogue.step (fun _ _ => True)
        (acceptStart s p.sNextId (childBind p sockName bind).2) os w →
      w.res.pc = .returned ret → AcceptReports p sockfd sockName bind w) ∧
    ¬ ∀ (s : RcsT) (addr : SockaddrIn) (os : List RecvFrom) (w : Dialogue) (ret : ApiRet),
      (∀ m ∈ s.buffer_.buffer_, m.length.toNat ≤ MAX_DATA_LENGTH) →
      Run Dialogue.step (fun _ _ => True) (connectStart s addr) os w → w.res.pc = .returned ret →
      ConnectReports s.buffer_ addr w := by
  constructor
  · intro h
    obtain ⟨w, hw⟩ := Option.isSome_iff_exists.mp
      (show (acceptDialogue fun _ => false).isSome = true by decide +kernel)
    have hall : ((acceptDialogue fun _ => false).all fun w =>
        returnedBy w == some (.accept 1 (some ⟨2, 0⟩))) = true := by decide +kernel
    rw [hw, Option.all_some, beq_iff_eq] at hall
    have hpc := returnedBy_eq hall
    obtain ⟨hbound, _⟩ := (h oneListener 0 _ _ (fun _ => false) _ w _ rfl
      ((run_of_exec hw).mono fun _ _ _ => trivial) hpc).success 1 _ hpc (by decide)
    exact absurd hbound (by decide +kernel)
  · intro h
    let os : List RecvFrom := [.datagram .EAGAIN (control 666 FIN).wire ⟨1, 0⟩]
    obtain ⟨w, hw⟩ := Option.isSome_iff_exists.mp
      (show (connectDialogue os).isSome = true by decide +kernel)
    have hall : ((connectDialogue os).all fun w =>
        returnedBy w == some (.connect 0) && w.delivered == some []) = true := by decide +kernel
    rw [hw, Option.all_some, Bool.and_eq_true, beq_iff_eq, beq_iff_eq] at hall
    have hpc := returnedBy_eq hall.1
    obtain ⟨port, hdelivered, _⟩ := (h (.new 3 ⟨0, 0⟩) ⟨1, 0⟩ os w _
      (fun m hm => absurd hm List.not_mem_nil) (run_of_exec hw) hpc).success 0 hpc rfl
    rw [hall.2, Option.some.injEq] at hdelivered
    have hlen := length_portBytes port
    rw [← hdelivered] at hlen
    cases hlen

end Ece358.Rcs
