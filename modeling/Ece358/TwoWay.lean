/-
  File:      Ece358/TwoWay.lean
  Subject:   Both endpoints send and receive.

  acksend and recv look at numbers only, so an endpoint can take the peer's data for an
  acknowledgement, an acknowledgement for data, and what is left of an earlier message for a part
  of a new one. Where that does not happen, an acksend returns only once the peer has queued its
  message:

  * `Heeds`, `NothingLeft`, `heeding` -- what the steps of such a run look like;
  * `Progress`, `Way` -- one direction: `Dir` for the numbers, the record for the messages, and
    `Delivered` for the bytes;
  * `Two` -- both directions; the side that sends in one receives in the other;
  * `acks_sound` -- the result;
  * `crossedRun` -- a run in which both sides send at once, and the result fails.
-/
import Ece358.Delivery

namespace Ece358.Rcs

open Lib MsgT

/-! ## 1. The runs -/

/-- The datagram an endpoint reads is used for what it is: what ends an acksend is an
    acknowledgement, and what recv takes for its next message is not. -/
def Heeds (e : Endpoint) (d : List UInt8) : Prop :=
  (∀ v ∈ e.pc.awaited, Whole v d → (ofDatagram d).hasFlag ACK = true) ∧
  (∀ v ∈ e.expected, Whole v d → (ofDatagram d).hasFlag ACK = false)

-- Each half looks at one number at most, not at all of `UInt16`.
instance (e : Endpoint) (d : List UInt8) : Decidable (Heeds e d) :=
  @instDecidableAnd _ _ (Option.decidableForallMem _) (Option.decidableForallMem _)

/-- When A starts a send, nothing with number 0 is left over of an earlier one: no acknowledgement
    on its way to A, no marker on its way to B, and none that B answers with. -/
def NothingLeft (n : Net) : Prop :=
  (∀ d ∈ n.ba, Whole 0 d → (ofDatagram d).hasFlag ACK = false) ∧
  (∀ d ∈ n.ab, Whole 0 d → (ofDatagram d).hasFlag EOS = false) ∧ n.b.answering ≠ some 0

instance (n : Net) : Decidable (NothingLeft n) := inferInstanceAs (Decidable (_ ∧ _ ∧ _))

/-- The actions of side A; datagrams may get lost, but are not cut. -/
def heedingA (n : Net) : Act → Prop
  | .call (.send _) => NothingLeft n
  | .call (.recv _) => True
  | .timeout => True
  | .receive _ => ∀ d ∈ n.ba.head?, Heeds n.a d
  | .lose _ => True
  | .cut _ _ => False

instance (n : Net) : DecidablePred (heedingA n)
  | .call (.send _) => inferInstanceAs (Decidable (NothingLeft n))
  | .call (.recv _) => isTrue trivial
  | .timeout => isTrue trivial
  | .receive _ => inferInstanceAs (Decidable (∀ d ∈ n.ba.head?, Heeds n.a d))
  | .lose _ => isTrue trivial
  | .cut _ _ => isFalse id

def heeding (n : Net) : Side × Act → Prop
  | (.A, act) => heedingA n act
  | (.B, act) => heedingA n.swap act

instance (n : Net) : DecidablePred (heeding n)
  | (.A, act) => inferInstanceAs (Decidable (heedingA n act))
  | (.B, act) => inferInstanceAs (Decidable (heedingA n.swap act))

/-! ## 2. One direction -/

/-- How far one direction is: the sends before the current one, the current one, the two counts,
    what is on its way, and the messages of the sends before. -/
structure Progress where
  done : List (List UInt8)
  D : List UInt8
  K : Nat
  c : Nat
  old : List MsgT
  ks : List Nat
  base : List MsgT

/-- The messages on their way. -/
def Progress.msgs (p : Progress) : List MsgT := p.old ++ p.ks.map (pkt p.D)

/-- The first `k` messages of `send(D)`. -/
def firstMsgs (D : List UInt8) (k : Nat) : List MsgT := (List.range k).map (pkt D)

theorem firstMsgs_succ (D : List UInt8) (k : Nat) :
    firstMsgs D (k + 1) = firstMsgs D k ++ [pkt D k] := by
  rw [firstMsgs, List.range_succ, List.map_append]
  rfl

/-- The direction from `x` to `y`, with the acknowledgements `as` on their way back. The empty
    send that precedes the first one stands in front of both records. -/
structure Way (p : Progress) (as : List UInt16) (x y : Endpoint) : Prop where
  dir : Dir True p.D p.K p.c p.old p.ks as x.sock x.pc y.sock y.pc
  sent : [] :: sends x.record = p.done ++ [p.D]
  returned : sendsDone x.record + (if x.pc.sending then 1 else 0) = (sends x.record).length
  ackedMsgs : control 0 EOS :: acked x.record = p.base ++ firstMsgs p.D p.K
  queuedMsgs : (p.base ++ firstMsgs p.D p.c).Sublist (control 0 EOS :: queued y.record)
  delivered : Delivered p.done p.D p.c y.sock.buffer_ y.record

section Way

variable {p : Progress} {as as' : List UInt16} {x y : Endpoint} {es : List Entry} {r : Res}
  {d : List UInt8} {m : MsgT} {rest : List MsgT}

theorem Way.fewer (h : Way p as x y) (ha : as'.Sublist as) : Way p as' x y :=
  { h with dir := h.dir.weaken (List.Sublist.refl _) (List.Sublist.refl _) ha }

/-- The oldest message leaves the channel. -/
theorem Way.pop (h : Way p as x y) (hm : p.msgs = m :: rest) :
    ∃ p', p'.msgs = rest ∧ Way p' as x y := by
  obtain ⟨old', ks', hrest, hdir⟩ := h.dir.pop hm
  exact ⟨{ p with old := old', ks := ks' }, hrest, { h with dir := hdir }⟩

theorem Way.loses (h : Way p as x y) (i : Nat) :
    ∃ p', p'.msgs = p.msgs.eraseIdx i ∧ Way p' as x y := by
  obtain ⟨old', ks', hrest, hdir⟩ := h.dir.loses i
  exact ⟨{ p with old := old', ks := ks' }, hrest, { h with dir := hdir }⟩

/-- The receiver of this direction does something that is no recv. -/
theorem Way.receiver_keeps (h : Way p as x y) (hp : y.pc.receiving = false)
    (hp' : r.pc.receiving = false) (ho : Open r.sock) (hb : r.sock.buffer_ = y.sock.buffer_)
    (hr : recvs (es ++ r.entries) = []) (hq : queued (es ++ r.entries) = []) :
    Way p as x (y.went es r) := by
  have hc := h.dir.receiver.outside h.dir.c_le (not_loop_of_not_receiving hp)
  have hrec : (y.went es r).record = y.record ++ (es ++ r.entries) := List.append_assoc _ _ _
  refine
    { dir := h.dir.stays ho (receiverAt_between (between_of_not_receiving hp') hc)
        ((pend_of_not_receiving hp').trans (pend_of_not_receiving hp).symm)
      sent := h.sent
      returned := h.returned
      ackedMsgs := h.ackedMsgs
      queuedMsgs := ?_
      delivered := ?_ }
  · rw [hrec, queued_append, hq, List.append_nil]
    exact h.queuedMsgs
  · rw [hrec, went_sock, hb]
    exact h.delivered.entries hr hq

/-- The sender of this direction does something that is no send. -/
theorem Way.sender_keeps (h : Way p as x y) (hp : x.pc.sending = false)
    (hp' : r.pc.sending = false) (ho : Open r.sock) (hs : sends (es ++ r.entries) = [])
    (hd : sendsDone (es ++ r.entries) = 0) (ha : acked (es ++ r.entries) = []) :
    Way p as (x.went es r) y := by
  have hrec : (x.went es r).record = x.record ++ (es ++ r.entries) := List.append_assoc _ _ _
  refine
    { dir := h.dir.elsewhere hp ho hp'
      sent := ?_
      returned := ?_
      ackedMsgs := ?_
      queuedMsgs := h.queuedMsgs
      delivered := h.delivered }
  · rw [hrec, sends_append, hs, List.append_nil]
    exact h.sent
  · have hret := h.returned
    rw [hp] at hret
    rw [hrec, sends_append, hs, List.append_nil, sendsDone_append, hd, went_pc, hp']
    exact hret
  · rw [hrec, acked_append, ha, List.append_nil]
    exact h.ackedMsgs

/-- The sender of this direction answers what it receives. -/
theorem Way.answers (h : Way p as x y) (hp : x.pc.sending = false) {ms : List MsgT}
    (hm : ∀ m ∈ ms, IsAck m) : ∃ p', p'.msgs = p.msgs ++ ms ∧ Way p' as x y := by
  refine ⟨{ p with old := p.old ++ ms }, ?_, { h with dir := h.dir.answers hp hm }⟩
  have hks := h.dir.ksDone (h.dir.sender.done hp)
  simp [Progress.msgs, hks]

/-- A stretch of a send in progress. -/
theorem Way.senderGoesOn (h : Way p as x y) (p' : Progress) (hs : Sends p.D x.sock r)
    (hp : x.pc.sending = true) (hbase : p'.base = p.base) (hdone : p'.done = p.done)
    (hD : p'.D = p.D) (hc : p'.c = p.c) (hsent : Sent p.D p.K r p'.K)
    (hdir : Dir True p'.D p'.K p'.c p'.old p'.ks as' r.sock r.pc y.sock y.pc) :
    Way p' as' (x.went [] r) y := by
  have hret := h.returned
  have hidle : (if r.pc.sending then 1 else 0) = if r.pc.idle then 0 else 1 := by
    have hnr := hs.notReceiving
    cases hpc : r.pc <;> rw [hpc] at hnr <;> first | rfl | cases hnr
  refine
    { dir := hdir
      sent := ?_
      returned := ?_
      ackedMsgs := ?_
      queuedMsgs := by rw [hbase, hD, hc]; exact h.queuedMsgs
      delivered := by rw [hdone, hD, hc]; exact h.delivered }
  · simpa [hs.sends, hdone, hD] using h.sent
  · simp only [hp, if_true] at hret
    rw [went_record, went_pc, hidle, List.append_nil]
    exact hsent.returned hs hret
  · have hacked := h.ackedMsgs
    rw [went_record, acked_append, acked_append, acked_nil, List.append_nil, ← List.cons_append,
      hacked, hbase, hD]
    generalize p'.K = K' at hsent
    cases hsent with
    | again ha _ _ => rw [ha, List.append_nil]
    | next _ ha _ _ => rw [ha, firstMsgs_succ, List.append_assoc]
    | last _ ha _ _ => rw [ha, firstMsgs_succ, List.append_assoc]

/-- A send starts. -/
theorem Way.begins (h : Way p as x y) (hp : x.pc.idle = true) (data : List UInt8)
    (hclean : 0 ∉ as ++ [pend y.sock y.pc] ∧ control 0 EOS ∉ p.old) :
    ∃ p', p'.msgs = p.msgs ++ (start x.sock (.send data)).messages ∧
      Way p' as (x.went [.called (.send data)] (start x.sock (.send data))) y := by
  have hns := not_sending_of_idle hp
  have hK : p.K = nfrag p.D + 1 := le_antisymm h.dir.K_le (h.dir.sender.done hns)
  have hc : p.c = nfrag p.D + 1 := le_antisymm h.dir.c_le (hK ▸ h.dir.inOrder trivial)
  have hks := h.dir.ksDone (by omega)
  obtain ⟨hsends, hdone, hacked, hpc⟩ := went_send h.dir.openA data
  rw [send_start h.dir.openA] at hsends hdone hacked hpc ⊢
  refine ⟨⟨p.done ++ [p.D], data, 0, 0, p.old, [0], p.base ++ firstMsgs p.D p.K⟩, ?_, ?_⟩
  · simp [Progress.msgs, hks, Res.messages, Event.message, RcsT.rawsend]
  · refine
      { dir := h.dir.begin hns h.dir.openA.sendStarted rfl data fun _ => hclean
        sent := ?_
        returned := ?_
        ackedMsgs := ?_
        queuedMsgs := ?_
        delivered := h.delivered.next (Or.inl hc) data }
    · rw [hsends, ← h.sent, List.cons_append]
    · have hret := h.returned
      rw [hns] at hret
      rw [hdone, hsends, hpc, sendPc_sending, List.length_append, ← hret]
      rfl
    · rw [hacked, h.ackedMsgs]
      exact (List.append_nil _).symm
    · have hq := h.queuedMsgs
      rw [hc, ← hK] at hq
      simpa [firstMsgs] using hq

/-- A stretch of a recv. -/
theorem Way.receiverGoesOn (h : Way p as x y) (p' : Progress) (hbase : p'.base = p.base)
    (hdone : p'.done = p.done) (hD : p'.D = p.D) (hK : p'.K = p.K)
    (hrec : Received p.D y.sock.buffer_ r p.c p'.c)
    (hdir : Dir True p'.D p'.K p'.c p'.old p'.ks as' x.sock x.pc r.sock r.pc) :
    Way p' as' x (y.went [] r) := by
  refine
    { dir := hdir
      sent := by rw [hdone, hD]; exact h.sent
      returned := h.returned
      ackedMsgs := by rw [hbase, hD, hK]; exact h.ackedMsgs
      queuedMsgs := ?_
      delivered := ?_ }
  · have hq := h.queuedMsgs
    rw [went_record, queued_append, queued_append, queued_nil, List.append_nil, ← List.cons_append,
      hbase, hD]
    generalize p'.c = c' at hrec
    cases hrec with
    | nothing _ hn _ => rw [hn, List.append_nil]; exact hq
    | again _ _ hn _ => exact hq.trans (List.sublist_append_left _ _)
    | next _ _ hn _ =>
      rw [hn, firstMsgs_succ, ← List.append_assoc]
      exact hq.append (List.Sublist.refl _)
    | read _ _ _ _ hn _ => rw [hn, List.append_nil]; exact hq
  · rw [went_record, List.append_nil, hdone, hD]
    exact h.delivered.received hrec

/-- A recv starts. -/
theorem Way.recvBegins (h : Way p as x y) (hp : y.pc.idle = true) (L : Nat) :
    Way p as x (y.went [.called (.recv L)] (start y.sock (.recv L))) := by
  have hdir := h.dir.receiver_starts hp L
  rw [recv_start h.dir.openB] at hdir ⊢
  refine
    { dir := hdir
      sent := h.sent
      returned := h.returned
      ackedMsgs := h.ackedMsgs
      queuedMsgs := ?_
      delivered := ?_ }
  · rw [went_record, List.append_assoc, queued_append]
    exact (List.append_nil (queued y.record)).symm ▸ h.queuedMsgs
  · rw [went_record, List.append_assoc]
    exact h.delivered.entries rfl rfl

/-- The messages whose acksend was answered. -/
theorem Way.acked_sublist (h : Way p as x y) : (acked x.record).Sublist (queued y.record) := by
  have hle : (firstMsgs p.D p.K).Sublist (firstMsgs p.D p.c) :=
    (List.range_sublist.mpr (h.dir.inOrder trivial)).map _
  have hsub := ((List.Sublist.refl p.base).append hle).trans h.queuedMsgs
  rw [← h.ackedMsgs] at hsub
  exact List.cons_sublist_cons.mp hsub

/-- What carries the flag of an acknowledgement is one. -/
theorem Way.isAck (h : Way p as x y) (hm : m ∈ p.msgs) (hf : m.hasFlag ACK = true) : IsAck m := by
  rcases List.mem_append.mp hm with hm | hm
  · obtain ⟨v, rfl | rfl⟩ := h.dir.oldControl m hm
    · rw [hasFlag_control] at hf
      cases hf
    · exact isAck_control v
  · obtain ⟨k, _, rfl⟩ := List.mem_map.mp hm
    rw [pkt_noAck] at hf
    cases hf

/-- Nothing was sent yet. -/
theorem way_start (hx : Open x.sock) (hy : Open y.sock) (hpx : x.pc.idle = true)
    (hpy : y.pc.idle = true) (hrx : x.record = []) (hry : y.record = [])
    (hb : y.sock.buffer_.Exact) (hu : y.sock.buffer_.unread = []) :
    Way ⟨[], [], 1, 1, [], [], []⟩ [] x y where
  dir := dir_start True hx hy (not_sending_of_idle hpx) (not_receiving_of_idle hpy)
  sent := by rw [hrx]; rfl
  returned := by rw [hrx, not_sending_of_idle hpx]; rfl
  ackedMsgs := by rw [hrx]; rfl
  queuedMsgs := by rw [hry]; exact List.Sublist.refl _
  delivered := hry ▸ delivered_start hb hu

end Way

/-! ## 3. Both directions -/

structure Two (n : Net) (p q : Progress) : Prop where
  ab : Carries n.ab p.msgs
  ba : Carries n.ba q.msgs
  wholeAB : ∀ d ∈ n.ab, accepted d = true
  wholeBA : ∀ d ∈ n.ba, accepted d = true
  there : Way p (acks q.msgs) n.a n.b
  back : Way q (acks p.msgs) n.b n.a

section Two

variable {n : Net} {p q : Progress} {a' : Endpoint} {ab' ba' : List (List UInt8)} {act : Act}
  {m : MsgT} {r : Res}

theorem Two.swap (h : Two n p q) : Two n.swap q p :=
  ⟨h.ba, h.ab, h.wholeBA, h.wholeAB, h.back, h.there⟩

theorem Two.at_ba (h : Two n p q) (hm : m ∈ q.msgs) :
    ∃ d ∈ n.ba, Whole m.seqnum d ∧ ofDatagram d = m := by
  obtain ⟨d, hd, hs⟩ := carries_mem_message h.ba hm
  have hw := (hs.whole (h.wholeBA d hd)).2
  exact ⟨d, hd, ⟨h.wholeBA d hd, by rw [hw]⟩, hw⟩

theorem acks_pkts {D : List UInt8} {ms : List MsgT} (h : ∀ m ∈ ms, ∃ k, m = pkt D k) :
    acks ms = [] := by
  rw [acks, List.filterMap_eq_nil_iff]
  intro m hm
  obtain ⟨k, rfl⟩ := h m hm
  rw [pkt_noAck]
  rfl

/-- The wire forms of what was sent arrive whole. -/
theorem accepted_wires {ds : List (List UInt8)} {ms : List MsgT}
    (hd : ∀ d ∈ ds, accepted d = true) (hm : ∀ m ∈ ms, m.Built ∧ m.hasFlag FIN = false) :
    ∀ d ∈ ds ++ ms.map MsgT.wire, accepted d = true := by
  intro d hmem
  rcases List.mem_append.mp hmem with hmem | hmem
  · exact hd d hmem
  · obtain ⟨m, hms, rfl⟩ := List.mem_map.mp hmem
    exact accepted_wire (hm m hms).1

theorem built_of_pkts {D : List UInt8} {ms : List MsgT} (h : ∀ m ∈ ms, ∃ k, m = pkt D k) :
    ∀ m ∈ ms, m.Built ∧ m.hasFlag FIN = false := by
  intro m hm
  obtain ⟨k, rfl⟩ := h m hm
  exact ⟨pkt_built D k, pkt_noFin D k⟩

/-- Nothing with number 0 is left over, in terms of the messages. -/
theorem Two.clean (h : Two n p q) (hp : n.a.pc.idle = true) (hn : NothingLeft n) :
    0 ∉ acks q.msgs ++ [pend n.b.sock n.b.pc] ∧ control 0 EOS ∉ p.old := by
  refine ⟨fun hm => ?_, fun hm => ?_⟩
  · rcases List.mem_append.mp hm with hm | hm
    · obtain ⟨m, hmem, hm⟩ := List.mem_filterMap.mp hm
      rw [Option.ite_none_right_eq_some, Option.some.injEq] at hm
      obtain ⟨d, hd, hw, hmd⟩ := h.at_ba hmem
      rw [hm.2] at hw
      have hno := hn.1 d hd hw
      rw [hmd, hm.1] at hno
      cases hno
    · rw [List.mem_singleton] at hm
      have hK := h.there.dir.sender.done (not_sending_of_idle hp)
      have hc : p.c = nfrag p.D + 1 :=
        le_antisymm h.there.dir.c_le (le_trans hK (h.there.dir.inOrder trivial))
      have hbetween := h.there.dir.receiver.between (Or.inr hc)
      cases hpc : n.b.pc with
      | recvLoop L =>
        rw [hpc] at hm hbetween
        have hs : n.b.sock.recvSeqnum_ = 0 := hbetween
        have hm : 0 = n.b.sock.recvSeqnum_ - 1 := hm
        rw [hs] at hm
        exact absurd hm (by decide)
      | finalizeRecv L ack response =>
        rw [hpc] at hm
        refine hn.2.2 ?_
        rw [Endpoint.answering, hpc]
        exact congrArg some hm.symm
      | _ =>
        rw [hpc] at hm
        exact absurd (show (0 : UInt16) = 65535 from hm) (by decide)
  · obtain ⟨d, hd, hw, hmd⟩ := h.swap.at_ba (List.mem_append_left _ hm)
    have hno := hn.2.1 d hd hw
    rw [hmd, hasFlag_control] at hno
    cases hno

/-- Side A sends: its stretch of a send, and the other direction, which only sees that A does not
    receive. -/
theorem Two.sends (h : Two n p q) (p' q' : Progress) {es : List Entry} {D : List UInt8}
    (hm : ∀ m ∈ r.messages, ∃ k, m = pkt D k) (hp : p'.msgs = p.msgs ++ r.messages)
    (hba : Carries ba' q'.msgs) (hsub : ∀ d ∈ ba', d ∈ n.ba)
    (hthere : Way p' (acks q'.msgs) (n.a.went es r) n.b)
    (hback : Way q' (acks p.msgs) n.b (n.a.went es r)) :
    Two ⟨n.a.went es r, n.b, n.ab ++ r.datagrams, ba'⟩ p' q' where
  ab := by
    rw [hp]
    exact h.ab.sent (built_of_pkts hm)
  ba := hba
  wholeAB := accepted_wires h.wholeAB (built_of_pkts hm)
  wholeBA d hd := h.wholeBA d (hsub d hd)
  there := hthere
  back := by
    rw [hp, acks_append, acks_pkts hm, List.append_nil]
    exact hback

/-- Side A receives: its stretch of a recv, and the other direction, which gets the
    acknowledgements. -/
theorem Two.receives (h : Two n p q) (q' : Progress) (hrecv : Receives r)
    (hp : n.a.pc.sending = false) (hba : Carries ba' q'.msgs) (hsub : ∀ d ∈ ba', d ∈ n.ba)
    (has : (acks q'.msgs).Sublist (acks q.msgs))
    (hback : Way q' (acks p.msgs ++ acks r.messages) n.b (n.a.went [] r)) :
    ∃ p' q', Two ⟨n.a.went [] r, n.b, n.ab ++ r.datagrams, ba'⟩ p' q' := by
  obtain ⟨p', hp', hway⟩ := h.there.answers hp hrecv.messages
  have hbuilt : ∀ m ∈ r.messages, m.Built ∧ m.hasFlag FIN = false := fun m hm => by
    obtain ⟨v, rfl⟩ := hrecv.messages m hm
    exact ⟨built_ack v, by rw [hasFlag_control]; rfl⟩
  refine ⟨p', q', ?_⟩
  exact
    { ab := by rw [hp']; exact h.ab.sent hbuilt
      ba := hba
      wholeAB := accepted_wires h.wholeAB hbuilt
      wholeBA := fun d hd => h.wholeBA d (hsub d hd)
      there := (hway.fewer has).sender_keeps hp hrecv.notSending hrecv.isOpen hrecv.sends
        hrecv.sendsDone hrecv.acked
      back := by
        rw [hp', acks_append]
        exact hback }

/-- Side A makes a call. -/
theorem Two.calls (h : Two n p q) (call : Call) (hp : n.a.pc.idle = true)
    (hok : heedingA n (.call call)) :
    ∃ p' q', Two ⟨n.a.went [.called call] (start n.a.sock call), n.b,
      n.ab ++ (start n.a.sock call).datagrams, n.ba⟩ p' q' := by
  cases call with
  | send data =>
    obtain ⟨p', hp', hway⟩ := h.there.begins hp data (h.clean hp hok)
    have hstart := send_start h.there.dir.openA data
    obtain ⟨he, _⟩ := entries_sendPc (sendStarted n.a.sock)
      [(sendStarted n.a.sock).rawsend (pkt data 0)] data 0
    refine ⟨p', q, h.sends p' q (D := data) ?_ hp' h.ba (fun _ hd => hd) hway ?_⟩
    · rw [hstart]
      simp [Res.messages, Event.message, RcsT.rawsend]
    · rw [hstart]
      refine h.back.receiver_keeps (not_receiving_of_idle hp)
        (not_receiving_of_sending (sendPc_sending data 0)) h.there.dir.openA.sendStarted rfl ?_ ?_
      · rw [he]; rfl
      · rw [he]; rfl
  | recv L =>
    have hway := h.back.recvBegins hp L
    have hkeep : Way p (acks q.msgs) (n.a.went [.called (.recv L)] (start n.a.sock (.recv L)))
        n.b := by
      rw [recv_start h.there.dir.openA]
      exact h.there.sender_keeps (not_sending_of_idle hp) rfl h.there.dir.openA.recvStarted rfl
        rfl rfl
    refine ⟨p, q, { h with ab := ?_, wholeAB := ?_, there := hkeep, back := hway }⟩ <;>
      rw [recv_start h.there.dir.openA]
    · exact (List.append_nil n.ab).symm ▸ h.ab
    · exact (List.append_nil n.ab).symm ▸ h.wholeAB

/-- Its timer fires. -/
theorem Two.timesOut (h : Two n p q) (hp : n.a.pc.idle = false) :
    let r := resume n.a.sock n.a.pc (.error .EAGAIN)
    ∃ p' q', Two ⟨n.a.went [] r, n.b, n.ab ++ r.datagrams, n.ba⟩ p' q' := by
  intro r
  rcases sending_or_receiving hp with hs | hr
  · obtain ⟨hmsg, hsends, hsent, hdir⟩ := h.there.dir.sender_timeout (h.there.dir.sender.busy hs)
    have hway := h.there.senderGoesOn { p with ks := p.ks ++ [p.K] } hsends hs rfl rfl rfl
      rfl hsent hdir
    refine ⟨_, q, h.sends _ q hsends.messages ?_ h.ba (fun _ hd => hd) hway
      (h.back.receiver_keeps (not_receiving_of_sending hs) hsends.notReceiving hsends.isOpen
        hsends.buffer hsends.recvs hsends.queued)⟩
    rw [hmsg]
    simp [Progress.msgs]
  · obtain ⟨hrecv, hmsg, hrec, hdir⟩ := h.back.dir.receiver_timeout hr
    have hns := not_sending_of_receiving hr
    refine h.receives q hrecv hns h.ba (fun _ hd => hd) (List.Sublist.refl _) ?_
    rw [hmsg]
    simpa [acks] using h.back.receiverGoesOn q rfl rfl rfl rfl hrec hdir

/-- It hears the oldest datagram, and heeds it. -/
theorem Two.hears {d : List UInt8} (h : Two n p q) (errno : Errno) (hp : n.a.pc.idle = false)
    (hheeds : Heeds n.a d) (hinc : n.ba = d :: ba') :
    let r := resume n.a.sock n.a.pc (.datagram errno d n.a.sock.endPoint_)
    ∃ p' q', Two ⟨n.a.went [] r, n.b, n.ab ++ r.datagrams, ba'⟩ p' q' := by
  intro r
  have hba := h.ba
  rw [hinc] at hba
  obtain ⟨m, rest, hd, hba', hq⟩ := List.forall₂_cons_left_iff.mp hba
  have hmem : d ∈ n.ba := hinc ▸ List.mem_cons_self
  have hsub : ∀ x ∈ ba', x ∈ n.ba := fun x hx => hinc ▸ List.mem_cons_of_mem _ hx
  have hwhole := (hd.whole (h.wholeBA d hmem)).2
  have hacks : acks q.msgs = acks [m] ++ acks rest := by
    rw [hq, ← acks_append]
    rfl
  rcases sending_or_receiving hp with hs | hr
  · have hK := h.there.dir.sender.busy hs
    have hthere := h.there
    rw [hacks] at hthere
    obtain ⟨hpa, _⟩ := hthere.dir.sender.sending hK
    have hack : d = m.wire → m.seqnum = num p.K → IsAck m := fun _ hm => by
      refine h.back.isAck (hq ▸ List.mem_cons_self) ?_
      have hf := hheeds.1 (num p.K) (by rw [hpa, sendPc_awaited]; rfl)
        ⟨h.wholeBA d hmem, by rw [hwhole, hm]⟩
      rwa [hwhole] at hf
    obtain ⟨hsends, K', old', ks', hch, hsent, hdir⟩ := hthere.dir.sender_receives hK hd hack
      errno n.a.sock.endPoint_
    obtain ⟨q', hq', hback⟩ := h.back.pop hq
    have hway := h.there.senderGoesOn { p with K := K', old := old', ks := ks' } hsends hs
      rfl rfl rfl rfl hsent hdir
    exact ⟨_, q', h.sends { p with K := K', old := old', ks := ks' } q' hsends.messages hch
      (hq' ▸ hba') hsub (hq' ▸ hway)
      (hback.receiver_keeps (not_receiving_of_sending hs) hsends.notReceiving hsends.isOpen
        hsends.buffer hsends.recvs hsends.queued)⟩
  · have hns := not_sending_of_receiving hr
    have hack : ∀ L, n.a.pc = .recvLoop L → d = m.wire → m.seqnum = n.a.sock.recvSeqnum_ →
        m.hasFlag ACK = false := fun L hpc _ hm => by
      have hf := hheeds.2 n.a.sock.recvSeqnum_ (by rw [Endpoint.expected, hpc]; rfl)
        ⟨h.wholeBA d hmem, by rw [hwhole, hm]⟩
      rwa [hwhole] at hf
    obtain ⟨hrecv, c', old', ks', hrest, hrec, hdir⟩ := h.back.dir.receiver_receives hr hd hq hack
      errno n.a.sock.endPoint_
    have hway := h.back.receiverGoesOn { q with c := c', old := old', ks := ks' } rfl rfl
      rfl rfl hrec hdir
    have hq' : Progress.msgs { q with c := c', old := old', ks := ks' } = rest := hrest
    refine h.receives _ hrecv hns (hq' ▸ hba') hsub ?_ hway
    rw [hacks, hq']
    exact List.sublist_append_right _ _

/-- Every step of side A keeps both directions. -/
theorem Two.stepA (h : Two n p q) (hok : heedingA n act)
    (hact : Acts n.a n.ab n.ba act a' ab' ba') : ∃ p' q', Two ⟨a', n.b, ab', ba'⟩ p' q' := by
  cases hact with
  | call call hp => exact h.calls call hp hok
  | timeout hp ht => exact h.timesOut hp
  | receive errno d inc' hp hinc => exact h.hears errno hp (hok d (by rw [hinc]; rfl)) hinc
  | lose i hi =>
    obtain ⟨p', hp', hway⟩ := h.there.loses i
    refine ⟨p', q, { h with ab := hp' ▸ carries_lose h.ab i, there := hway, wholeAB := ?_,
                            back := ?_ }⟩
    · exact fun d hd => h.wholeAB d ((List.eraseIdx_sublist _ _).subset hd)
    · exact h.back.fewer (hp' ▸ acks_sublist (List.eraseIdx_sublist _ _))
  | cut i k d hd hk => exact hok.elim

theorem Two.step {n' : Net} {act : Side × Act} (h : Two n p q) (hok : heeding n act)
    (hs : n.step act = some n') : ∃ p' q', Two n' p' q' := by
  obtain ⟨a', b', ab', ba'⟩ := n'
  obtain ⟨side, act⟩ := act
  cases side with
  | A =>
    obtain ⟨hact, rfl⟩ := stepA_acts hs
    exact h.stepA hok hact
  | B =>
    obtain ⟨hact, rfl⟩ := stepB_acts hs
    obtain ⟨q', p', h'⟩ := h.swap.stepA hok hact
    exact ⟨p', q', h'.swap⟩

/-- The data of the sends that have returned. -/
theorem Way.returned_isPrefix {as : List UInt16} {x y : Endpoint} (h : Way p as x y) :
    ((sends x.record).take (sendsDone x.record)).flatten <+: storedBytes y.record := by
  rw [h.delivered.stored]
  have hret := h.returned
  cases hp : x.pc.sending with
  | false =>
    rw [hp, if_neg (by simp), Nat.add_zero] at hret
    have hc : p.c = nfrag p.D + 1 :=
      le_antisymm h.dir.c_le (le_trans (h.dir.sender.done hp) (h.dir.inOrder trivial))
    rw [hret, List.take_length, h.delivered.complete (Or.inl hc), ← h.sent]
    exact List.prefix_rfl
  | true =>
    rw [hp, if_pos rfl] at hret
    refine List.IsPrefix.trans ?_ h.delivered.done_isPrefix
    rw [take_flatten_of_snoc h.sent hret]

end Two

/-- Every reachable state of such a run has the invariant. -/
theorem two_of_reach {n0 n : Net} (h0 : Connected n0) (h : Reach Net.step heeding n0 n) :
    ∃ p q, Two n p q := by
  refine h.invariant (I := fun x => ∃ p q, Two x p q)
    ⟨⟨[], [], 1, 1, [], [], []⟩, ⟨[], [], 1, 1, [], [], []⟩, ?_⟩
    fun _ _ _ ⟨_, _, hI⟩ hok hs => hI.step hok hs
  exact
    { ab := by rw [h0.ab]; exact List.Forall₂.nil
      ba := by rw [h0.ba]; exact List.Forall₂.nil
      wholeAB := by rw [h0.ab]; nofun
      wholeBA := by rw [h0.ba]; nofun
      there := way_start h0.openA h0.openB h0.idleA h0.idleB h0.recordA h0.recordB h0.exactB
        h0.unreadB
      back := way_start h0.openB h0.openA h0.idleB h0.idleA h0.recordB h0.recordA h0.exactA
        h0.unreadA }

/-! ## 4. The result -/

/-- In every run whose steps heed what a datagram is: the messages whose acksend has returned are,
    in their order, among those the peer has queued, and the peer has all data of the sends that
    have returned. -/
theorem acks_sound {n0 n : Net} (h0 : Connected n0) (h : Reach Net.step heeding n0 n) :
    (acked n.a.record).Sublist (queued n.b.record) ∧
    (acked n.b.record).Sublist (queued n.a.record) ∧
    ((sends n.a.record).take (sendsDone n.a.record)).flatten <+: storedBytes n.b.record ∧
    ((sends n.b.record).take (sendsDone n.b.record)).flatten <+: storedBytes n.a.record := by
  obtain ⟨p, q, hI⟩ := two_of_reach h0 h
  exact ⟨hI.there.acked_sublist, hI.back.acked_sublist, hI.there.returned_isPrefix,
    hI.back.returned_isPrefix⟩

/-- Both sides send and receive a byte, one after the other. -/
def politeRun : List (Side × Act) :=
  [(.A, .call (.send [97])), (.B, .call (.recv 4)), (.B, .receive .EAGAIN), (.A, .receive .EAGAIN),
   (.B, .receive .EAGAIN), (.A, .receive .EAGAIN), (.B, .timeout), (.A, .call (.recv 4)),
   (.B, .call (.send [98])), (.A, .receive .EAGAIN), (.B, .receive .EAGAIN)]

theorem acks_sound_polite : ∃ n, Reach Net.step heeding Net.pair n ∧
    acked n.a.record = [pkt [97] 0, pkt [97] 1] ∧ acked n.b.record = [pkt [98] 0] ∧
    (acked n.a.record).Sublist (queued n.b.record) ∧
    (acked n.b.record).Sublist (queued n.a.record) := by
  have hrun : ((exec Net.step heeding Net.pair politeRun).map fun n =>
      (acked n.a.record, acked n.b.record)) = some ([pkt [97] 0, pkt [97] 1], [pkt [98] 0]) := by
    decide +kernel
  obtain ⟨n, hn, hres⟩ := Option.map_eq_some_iff.mp hrun
  have hsound := acks_sound connected_pair (reach_of_exec hn)
  exact ⟨n, reach_of_exec hn, congrArg Prod.fst hres, congrArg Prod.snd hres, hsound.1, hsound.2.1⟩

/-- Both sides start a send; A then reads the fragment of B. -/
def crossedRun : List (Side × Act) :=
  [(.A, .call (.send [97])), (.B, .call (.send [98])), (.A, .receive .EAGAIN)]

/-- A's acksend returns, and B has queued nothing. -/
theorem acks_unsound : ∃ n, Reach Net.step (fun _ _ => True) Net.pair n ∧
    exec Net.step (fun _ _ => True) Net.pair crossedRun = some n ∧
    acked n.a.record = [pkt [97] 0] ∧ queued n.b.record = [] ∧
    ¬ (acked n.a.record).Sublist (queued n.b.record) := by
  have hrun : ((exec Net.step (fun _ _ => True) Net.pair crossedRun).map fun n =>
      (acked n.a.record, queued n.b.record)) = some ([pkt [97] 0], []) := by
    decide +kernel
  obtain ⟨n, hn, hres⟩ := Option.map_eq_some_iff.mp hrun
  obtain ⟨ha, hq⟩ := Prod.mk.inj hres
  refine ⟨n, reach_of_exec hn, hn, ha, hq, fun hsub => ?_⟩
  rw [ha, hq] at hsub
  cases hsub

end Ece358.Rcs
