/-
  File:      Ece358/Fin.lean
  Subject:   A FIN that arrives while a call is blocked.

  `rawrecv` closes the descriptor as soon as it has read a FIN. The call goes on from there, and
  from then on every receive and every send on the descriptor fails with EBADF. Whether the call
  notices depends on the loop that it is in.

  * `IsFin` -- a datagram that closes the socket; `rawrecv_fin` is what it does, the other
    `rawrecv` lemmas what any other outcome of recvfrom does;
  * `Notices` -- the loop is one of acksend, or the inner loop of recv and the FIN is no EOS marker,
    or finalizeRecv and the FIN looks like a first fragment;
  * `drained` -- a call behind `k` receives on the closed descriptor;
  * `Ends`, `Untouched` -- it returns after some of them; it does not use the descriptor again;
  * `fin_ends_iff` -- either holds in these cases, and in no other;
  * `fin_not_noticed` -- a FIN in finalizeRecv: the call never returns.
-/
import Ece358.Api

namespace Ece358.Rcs

open Lib MsgT

/-! ## 1. The FIN -/

/-- A datagram that passes for a FIN. -/
def IsFin (d : List UInt8) : Prop := accepted d = true ∧ (ofDatagram d).hasFlag FIN = true

instance (d : List UInt8) : Decidable (IsFin d) := inferInstanceAs (Decidable (_ ∧ _))

/-- The socket that has read a datagram from `src`. -/
def latched (s : RcsT) (src : SockaddrIn) : RcsT :=
  if s.hasEndpoint_ then { s with fromEndpoint_ := src }
  else RcsT.setEndpoint { s with fromEndpoint_ := src } src

/-- The socket that was closed by a FIN from `src`. -/
def finished (s : RcsT) (src : SockaddrIn) : RcsT := (latched s src).close.1

/-- What `close` does. -/
def farewell (s : RcsT) (src : SockaddrIn) : List Event := (latched s src).close.2

/-- The call leaves its loop when the FIN was read. -/
def Notices (d : List UInt8) : Pc → Prop
  | .sendFragment _ _ _ => True
  | .sendEos _ _ => True
  | .recvLoop _ => (ofDatagram d).hasFlag EOS = false
  | .finalizeRecv _ _ _ => RcsT.startsNext (ofDatagram d) = true
  | .returned _ => True

section Steps

variable {s : RcsT} {d : List UInt8} {src : SockaddrIn} {L : Nat}

theorem finished_closing (s : RcsT) (src : SockaddrIn) : (finished s src).isClosing_ = true := rfl

theorem finished_fd (s : RcsT) (src : SockaddrIn) :
    (finished s src).ucpSocket_ = s.ucpSocket_ := by
  unfold finished latched
  split <;> rfl

theorem finished_connected (s : RcsT) (src : SockaddrIn) :
    (finished s src).hasEndpoint_ = true := by
  unfold finished latched
  split
  next h => exact h
  next => rfl

theorem IsFin.ne_nil (h : IsFin d) : d ≠ [] := by
  intro hd
  have := accepted_length h.1
  rw [hd, List.length_nil] at this
  omega

theorem rawrecv_fin (h : IsFin d) (s : RcsT) (e : Errno) (src : SockaddrIn) :
    s.rawrecv (.datagram e d src) =
      ⟨finished s src, farewell s src, recvSize d, some (ofDatagram d)⟩ := by
  simp [RcsT.rawrecv, h.ne_nil, h.1, h.2, finished, farewell, latched]

/-- What was heard from does not concern the rest of the object. -/
theorem latched_rest (s : RcsT) (src : SockaddrIn) :
    (latched s src).isClosing_ = s.isClosing_ ∧ (latched s src).buffer_ = s.buffer_ ∧
      (latched s src).recvSeqnum_ = s.recvSeqnum_ ∧
      (latched s src).sendSeqnum_ = s.sendSeqnum_ := by
  unfold latched
  split <;> exact ⟨rfl, rfl, rfl, rfl⟩

/-- A receive that fails. -/
theorem rawrecv_failed (s : RcsT) (e : Errno) :
    s.rawrecv (.error e) = ⟨latched s s.fromEndpoint_, [], RcsT.errnoResult e, none⟩ := by
  unfold RcsT.rawrecv latched
  rfl

/-- An empty datagram. -/
theorem rawrecv_nothing (s : RcsT) (e : Errno) (src : SockaddrIn) :
    s.rawrecv (.datagram e [] src) = ⟨latched s src, [], RcsT.errnoResult e, none⟩ := by
  unfold RcsT.rawrecv latched
  rfl

/-- Any other datagram that is no FIN. -/
theorem rawrecv_plain (h : ¬ IsFin d) (hne : d ≠ []) (s : RcsT) (e : Errno) (src : SockaddrIn) :
    s.rawrecv (.datagram e d src) = ⟨latched s src, [], recvSize d, some (ofDatagram d)⟩ := by
  have hno : ¬ (accepted d && (ofDatagram d).hasFlag FIN) = true := fun ha =>
    h (by simpa [IsFin] using ha)
  unfold RcsT.rawrecv latched
  simp only [if_neg hne, if_neg hno]

/-- An acksend that reads a FIN ends. -/
theorem acksend_fin (h : IsFin d) (s : RcsT) (msg : MsgT) (e : Errno) (src : SockaddrIn) :
    ∃ out, s.acksend msg (.datagram e d src) = (finished s src, farewell s src ++ out, true) ∧
      ∀ ev ∈ out, ev = .acked msg := by
  simp only [RcsT.acksend, RcsT.lowrecv, rawrecv_fin h, Option.getD_some, finished_closing, if_true]
  split
  · exact ⟨[.acked msg], rfl, fun ev hev => List.mem_singleton.mp hev⟩
  · exact ⟨[], by rw [List.append_nil], fun ev hev => absurd hev List.not_mem_nil⟩

end Steps

/-! ## 2. The call behind it -/

/-- The call behind `k` more receives, each of which fails on the closed descriptor. -/
def drained (r : ApiRes) : Nat → ApiRes
  | 0 => r
  | k + 1 =>
    match (drained r k).pc with
    | .blocked stage pc => apiResume (drained r k).sock stage pc (.error .EBADF)
    | .returned _ => drained r k

/-- The call returns after finitely many further steps. -/
def Ends (r : ApiRes) : Prop := ∃ k ret, (drained r k).pc = .returned ret

/-- An event that sends nothing. -/
def Event.silent : Event → Bool
  | .sendto _ _ _ => false
  | _ => true

def ApiEvent.silent : ApiEvent → Bool
  | .io event => event.silent
  | .childEndpoint _ _ => true

/-- An event that closes the descriptor. -/
def ApiEvent.closes : ApiEvent → Bool
  | .io (.closed _) => true
  | _ => false

/-- The call has returned without another receive, and from the close on it has sent nothing. -/
def Untouched (r : ApiRes) : Prop :=
  (∃ ret, r.pc = .returned ret) ∧
    ∀ ev ∈ r.out.dropWhile fun ev => !ev.closes, ev.silent = true

/-- A call in finalizeRecv, on a closed descriptor. -/
structure Trapped (r : ApiRes) : Prop where
  connected : r.sock.hasEndpoint_ = true
  loop : ∃ stage L ack response, r.pc = .blocked stage (.finalizeRecv L ack response) ∧
    RcsT.startsNext response = false

section Behind

variable {s : RcsT} {d : List UInt8} {src : SockaddrIn} {L : Nat} {r : ApiRes}

/-- `rawrecv` reports a closed descriptor as one byte received, so finalizeRecv goes on. -/
theorem finalize_closed (h : s.hasEndpoint_ = true) (L : Nat) (ack : MsgT) {response : MsgT}
    (hs : RcsT.startsNext response = false) :
    resume s (.finalizeRecv L ack response) (.error .EBADF) =
      ⟨s, [s.rawsend ack], .finalizeRecv L ack response⟩ := by
  have hraw : s.rawrecv (.error .EBADF) = ⟨s, [], 1, none⟩ := by
    simp [RcsT.rawrecv, h, RcsT.errnoResult]
  show s.finalizePass L ack response (.error .EBADF) = _
  simp [RcsT.finalizePass, hraw, hs]

theorem Trapped.next (h : Trapped r) : Trapped (drained r 1) := by
  obtain ⟨stage, L, ack, response, hpc, hs⟩ := h.loop
  have hres : drained r 1 =
      ⟨r.sock, [.io (r.sock.rawsend ack)], .blocked stage (.finalizeRecv L ack response)⟩ := by
    simp only [drained, hpc, apiResume, finalize_closed h.connected L ack hs]
    exact proceed_blocked (fun _ => Pc.noConfusion) stage
  rw [hres]
  exact ⟨h.connected, stage, L, ack, response, rfl, hs⟩

theorem drained_succ (r : ApiRes) (k : Nat) : drained r (k + 1) = drained (drained r k) 1 := rfl

theorem Trapped.drained (h : Trapped r) (k : Nat) : Trapped (drained r k) := by
  induction k with
  | zero => exact h
  | succ k ih => exact drained_succ r k ▸ ih.next

/-- Such a call never returns. -/
theorem Trapped.not_ends (h : Trapped r) : ¬ Ends r := by
  rintro ⟨k, ret, hret⟩
  obtain ⟨_, _, _, _, hpc, _⟩ := (h.drained k).loop
  rw [hpc] at hret
  cases hret

theorem Trapped.not_untouched (h : Trapped r) : ¬ Untouched r := by
  rintro ⟨⟨ret, hret⟩, _⟩
  obtain ⟨_, _, _, _, hpc, _⟩ := h.loop
  rw [hpc] at hret
  cases hret

/-! ### The stretch that reads the FIN -/

/-- The stretch closes the socket, returns, and is silent behind the close. -/
def Leaves (s : RcsT) (src : SockaddrIn) (r : Res) : Prop :=
  ∃ s' es ret, r = ⟨s', farewell s src ++ es, .returned ret⟩ ∧ s'.isClosing_ = true ∧
    ∀ ev ∈ es, ev.silent = true

theorem Leaves.after {s : RcsT} {src : SockaddrIn} {r : Res} {s' : RcsT} {es : List Event}
    {ret : Ret} {out : List Event} (hr : r = ⟨s', es, .returned ret⟩) (hc : s'.isClosing_ = true)
    (hes : ∀ ev ∈ es, ev.silent = true) (hout : ∀ ev ∈ out, ev.silent = true) :
    Leaves s src (r.after (farewell s src ++ out)) := by
  refine ⟨s', out ++ es, ret, ?_, hc, fun ev hev => ?_⟩
  · rw [hr, Res.after, List.append_assoc]
  · exact (List.mem_append.mp hev).elim (hout ev) (hes ev)

/-- In acksend, a FIN ends the whole send. -/
theorem send_fin (h : IsFin d) (s : RcsT) (data : List UInt8) (k : Nat) (msg : MsgT) (e : Errno)
    (src : SockaddrIn) :
    Leaves s src (resume s (.sendFragment data k msg) (.datagram e d src)) ∧
      Leaves s src (resume s (.sendEos data msg) (.datagram e d src)) := by
  obtain ⟨out, ha, hout⟩ := acksend_fin h s msg e src
  have hsilent : ∀ ev ∈ out, ev.silent = true := fun ev hev => by
    rw [hout ev hev]
    rfl
  constructor
  · simp only [resume, ha, if_true]
    have hc : (nextFragment (finished s src)).isClosing_ = true := finished_closing s src
    exact Leaves.after (sendLoop_closing hc _ _) hc (fun ev hev => absurd hev List.not_mem_nil)
      hsilent
  · simp only [resume, ha, if_true]
    exact ⟨finished s src, out, _, rfl, finished_closing s src, hsilent⟩

/-- The body of the inner loop on a closed socket: whether or not it queues the message, it sends
    nothing, and it enters finalizeRecv behind an EOS flag. -/
theorem recvBody_closing (h : s.isClosing_ = true) (L : Nat) (m : MsgT) :
    ∃ (s' : RcsT) (out : List Event) (ack : MsgT), s.recvBody L m true =
        (if m.hasFlag EOS then (s'.finalizeStart L ack).after out
          else (s'.recvWhile L).after out) ∧
      s'.isClosing_ = true ∧ s'.hasEndpoint_ = s.hasEndpoint_ ∧ ∀ ev ∈ out, ev.silent = true := by
  by_cases hs : m.seqnum = s.recvSeqnum_
  · refine ⟨queue s m, [.queued m], control s.recvSeqnum_ ACK, ?_, h, rfl, ?_⟩
    · simp [RcsT.recvBody, hs, h, queue]
    · intro ev hev
      rw [List.mem_singleton.mp hev]
      rfl
  · refine ⟨s, [], readyAck s, ?_, h, rfl, fun ev hev => absurd hev List.not_mem_nil⟩
    simp [RcsT.recvBody, hs, h, readyAck]

/-- The call is caught in finalizeRecv. -/
def Caught (r : Res) : Prop :=
  r.sock.hasEndpoint_ = true ∧ ∃ L ack response, r.pc = .finalizeRecv L ack response ∧
    RcsT.startsNext response = false

/-- In the inner loop of recv, a FIN ends recv, unless it is an EOS marker too. -/
theorem recv_fin (h : IsFin d) (s : RcsT) (L : Nat) (e : Errno) (src : SockaddrIn) :
    ((ofDatagram d).hasFlag EOS = false ∧
      Leaves s src (resume s (.recvLoop L) (.datagram e d src))) ∨
    ((ofDatagram d).hasFlag EOS = true ∧
      Caught (resume s (.recvLoop L) (.datagram e d src))) := by
  obtain ⟨s', out, ack, hb, hc, hconn, hout⟩ :=
    recvBody_closing (finished_closing s src) L (ofDatagram d)
  have hres : resume s (.recvLoop L) (.datagram e d src) =
      ((finished s src).recvBody L (ofDatagram d) true).after (farewell s src) := by
    show s.recvPass L _ = _
    simp [RcsT.recvPass, rawrecv_fin h, recvSize_ne_zero h.ne_nil, isValid_ofDatagram, h.1]
  rw [hres, hb]
  cases he : (ofDatagram d).hasFlag EOS with
  | false =>
    refine Or.inl ⟨rfl, ?_⟩
    obtain ⟨b, ret, hw⟩ := recvWhile_closing hc L
    have hleaves : Leaves s src ((s'.recvWhile L).after (farewell s src ++ out)) :=
      Leaves.after hw hc (fun ev hev => absurd hev List.not_mem_nil) hout
    rw [Res.after, List.append_assoc] at hleaves
    exact hleaves
  | true =>
    refine Or.inr ⟨rfl, ?_, L, ack, default, rfl, startsNext_default⟩
    exact hconn.trans (finished_connected s src)

/-- In finalizeRecv, a FIN ends recv only where it looks like a first fragment. -/
theorem finalizeRecv_fin (h : IsFin d) (s : RcsT) (L : Nat) (ack response : MsgT) (e : Errno)
    (src : SockaddrIn) :
    (RcsT.startsNext (ofDatagram d) = true ∧
      Leaves s src (resume s (.finalizeRecv L ack response) (.datagram e d src))) ∨
    (RcsT.startsNext (ofDatagram d) = false ∧
      Caught (resume s (.finalizeRecv L ack response) (.datagram e d src))) := by
  have hres : resume s (.finalizeRecv L ack response) (.datagram e d src) =
      if RcsT.startsNext (ofDatagram d) then ((finished s src).finalizeEnd L).after (farewell s src)
      else ⟨finished s src, farewell s src ++ [(finished s src).rawsend ack],
        .finalizeRecv L ack (ofDatagram d)⟩ := by
    show s.finalizePass L ack response _ = _
    simp [RcsT.finalizePass, rawrecv_fin h, recvSize_ne_zero h.ne_nil]
  rw [hres]
  cases hs : RcsT.startsNext (ofDatagram d) with
  | true =>
    refine Or.inl ⟨rfl, ?_⟩
    have hc : ((finished s src).setTimeout RECV_TIMEOUT).1.isClosing_ = true :=
      finished_closing s src
    obtain ⟨b, ret, hw⟩ := recvAgain_closing hc L
    have hleaves : Leaves s src ((((finished s src).setTimeout RECV_TIMEOUT).1.recvAgain L).after
        (farewell s src ++ ((finished s src).setTimeout RECV_TIMEOUT).2)) :=
      Leaves.after hw hc (fun ev hev => absurd hev List.not_mem_nil)
        (fun ev hev => by rw [List.mem_singleton.mp hev]; rfl)
    rw [Res.after, List.append_assoc] at hleaves
    exact hleaves
  | false => exact Or.inr ⟨rfl, finished_connected s src, L, ack, ofDatagram d, rfl, hs⟩

/-- A FIN ends the send or recv that reads it where it is noticed, and catches it elsewhere. -/
theorem resume_fin {pc : Pc} (h : IsFin d) (s : RcsT) (hp : pc.idle = false) (e : Errno)
    (src : SockaddrIn) :
    (Notices d pc ∧ Leaves s src (resume s pc (.datagram e d src))) ∨
      (¬ Notices d pc ∧ Caught (resume s pc (.datagram e d src))) := by
  cases pc with
  | sendFragment data k msg => exact Or.inl ⟨trivial, (send_fin h s data k msg e src).1⟩
  | sendEos data msg => exact Or.inl ⟨trivial, (send_fin h s data 0 msg e src).2⟩
  | recvLoop L =>
    rcases recv_fin h s L e src with ⟨he, hr⟩ | ⟨he, hr⟩
    · exact Or.inl ⟨he, hr⟩
    · exact Or.inr ⟨fun hn => absurd (hn.symm.trans he) (by decide), hr⟩
  | finalizeRecv L ack response =>
    rcases finalizeRecv_fin h s L ack response e src with ⟨hs, hr⟩ | ⟨hs, hr⟩
    · exact Or.inl ⟨hs, hr⟩
    · exact Or.inr ⟨fun hn => absurd (hs.symm.trans hn) (by decide), hr⟩
  | returned ret => cases hp

end Behind

/-! ## 3. The result -/

section Result

variable {s : RcsT} {d : List UInt8} {src : SockaddrIn} {stage : Stage} {pc : Pc}

/-- `close` sends first, and closes the descriptor last. -/
theorem farewell_closes (s : RcsT) (src : SockaddrIn) (es : List ApiEvent) :
    ((farewell s src).map ApiEvent.io ++ es).dropWhile (fun ev => !ev.closes) =
      .io (.closed (latched s src).ucpSocket_) :: es := by
  have hfar : farewell s src = List.replicate 2048 ((latched s src).rawsend (control 666 FIN)) ++
      [.closed (latched s src).ucpSocket_] := rfl
  have hsend : ∀ ev ∈ (List.replicate 2048 ((latched s src).rawsend (control 666 FIN))).map
      ApiEvent.io, (!ev.closes) = true := by
    intro ev hev
    rw [List.map_replicate] at hev
    rw [List.eq_of_mem_replicate hev]
    rfl
  rw [hfar, List.map_append, List.append_assoc, List.dropWhile_append_of_pos hsend]
  rfl

/-- A call that leaves its loop does nothing more on the descriptor. -/
theorem Leaves.untouched {r : Res} (h : Leaves s src r) (stage : Stage) :
    Untouched (proceed stage r) := by
  obtain ⟨s', es, ret, rfl, hc, hes⟩ := h
  obtain ⟨s'', es', ret', hr, hes', _⟩ :=
    proceed_closing (r := ⟨s', farewell s src ++ es, .returned ret⟩) hc rfl stage
  rw [hr]
  refine ⟨⟨ret', rfl⟩, ?_⟩
  rw [List.map_append, List.append_assoc, farewell_closes]
  intro ev hev
  rcases List.mem_cons.mp hev with rfl | hev
  · rfl
  · rcases List.mem_append.mp hev with hev | hev
    · obtain ⟨ev', hev', rfl⟩ := List.mem_map.mp hev
      exact hes ev' hev'
    · obtain ⟨_, _, rfl⟩ := hes' ev hev
      rfl

theorem Untouched.ends {r : ApiRes} (h : Untouched r) : Ends r := by
  obtain ⟨⟨ret, hret⟩, _⟩ := h
  exact ⟨0, ret, hret⟩

/-- A call that is caught stays in finalizeRecv. -/
theorem Caught.trapped {r : Res} (h : Caught r) (stage : Stage) : Trapped (proceed stage r) := by
  obtain ⟨hconn, L, ack, response, hpc, hs⟩ := h
  rw [proceed_blocked (fun ret hret => by rw [hpc] at hret; cases hret) stage]
  exact ⟨hconn, stage, L, ack, response, congrArg _ hpc, hs⟩

/-- A FIN arrives while a call is blocked: the socket is closing, and the call returns after
    finitely many further steps, if and only if its loop notices the FIN; then it returns at once
    and does not use the descriptor again, and else it does so for ever. -/
theorem fin_ends_iff (h : IsFin d) (hp : pc.idle = false) (s : RcsT) (stage : Stage) (e : Errno)
    (src : SockaddrIn) :
    let r := apiResume s stage pc (.datagram e d src)
    (Ends r ↔ Notices d pc) ∧ (Untouched r ↔ Notices d pc) := by
  intro r
  rcases resume_fin h s hp e src with ⟨hn, hl⟩ | ⟨hn, hc⟩
  · have hu : Untouched r := hl.untouched stage
    exact ⟨⟨fun _ => hn, fun _ => hu.ends⟩, ⟨fun _ => hn, fun _ => hu⟩⟩
  · have ht : Trapped r := hc.trapped stage
    exact ⟨⟨fun he => absurd he ht.not_ends, fun h => absurd h hn⟩,
      ⟨fun hu => absurd hu ht.not_untouched, fun h => absurd h hn⟩⟩

end Result

/-- A user's FIN, as `close` sends it, ends a send that is blocked in its first fragment. -/
theorem fin_ends_send :
    Ends (apiResume (.new 3 ⟨0, 0⟩) .plain (.sendFragment [97] 0 (pkt [97] 0))
      (.datagram .EAGAIN (control 666 FIN).wire ⟨1, 0⟩)) ∧
    Untouched (apiResume (.new 3 ⟨0, 0⟩) .plain (.sendFragment [97] 0 (pkt [97] 0))
      (.datagram .EAGAIN (control 666 FIN).wire ⟨1, 0⟩)) := by
  have hfin : IsFin (control 666 FIN).wire := by decide +kernel
  have hp : (Pc.sendFragment [97] 0 (pkt [97] 0)).idle = false := rfl
  have hiff := fin_ends_iff hfin hp (.new 3 ⟨0, 0⟩) .plain .EAGAIN ⟨1, 0⟩
  exact ⟨hiff.1.mpr trivial, hiff.2.mpr trivial⟩

/-- A call of recv that the fragment and the marker of one byte have reached. -/
def recvOneByte : ApiRes :=
  let datagrams := [(pkt [97] 0).wire, (pkt [97] 1).wire]
  datagrams.foldl (fun r d => match r.pc with
    | .blocked stage pc => apiResume r.sock stage pc (.datagram .EAGAIN d ⟨1, 0⟩)
    | .returned _ => r) (apiStart ((RcsT.new 3 ⟨0, 0⟩).setEndpoint ⟨1, 0⟩) (.call (.recv 4)))

/-- The peer sends a byte and closes: recv has the byte, reads the FIN in finalizeRecv, and never
    returns. -/
theorem fin_not_noticed : ∃ L ack response,
    recvOneByte.pc = .blocked .plain (.finalizeRecv L ack response) ∧
    recvOneByte.sock.buffer_.unread = [[97]] ∧ IsFin (control 666 FIN).wire ∧
    ¬ Ends (apiResume recvOneByte.sock .plain (.finalizeRecv L ack response)
      (.datagram .EAGAIN (control 666 FIN).wire ⟨1, 0⟩)) ∧
    ¬ Untouched (apiResume recvOneByte.sock .plain (.finalizeRecv L ack response)
      (.datagram .EAGAIN (control 666 FIN).wire ⟨1, 0⟩)) := by
  have hfin : IsFin (control 666 FIN).wire := by decide +kernel
  have hpc : recvOneByte.pc = .blocked .plain (.finalizeRecv 4 (control 1 ACK) default) := by
    decide +kernel
  have hbuf : recvOneByte.sock.buffer_.unread = [[97]] := by decide +kernel
  have hs : RcsT.startsNext (ofDatagram (control 666 FIN).wire) = false := by decide +kernel
  refine ⟨4, control 1 ACK, default, hpc, hbuf, hfin, ?_⟩
  rcases finalizeRecv_fin hfin recvOneByte.sock 4 (control 1 ACK) default .EAGAIN ⟨1, 0⟩ with
    ⟨h, _⟩ | ⟨_, hc⟩
  · rw [hs] at h
    cases h
  · have ht := hc.trapped .plain
    exact ⟨ht.not_ends, ht.not_untouched⟩

end Ece358.Rcs
