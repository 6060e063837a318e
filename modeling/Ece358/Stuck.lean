/-
  File:      Ece358/Stuck.lean
  Subject:   When a sender waits for ever.

  The system of `OneWay.lean`, with the errnos of its two threads: A sends, B receives. A is in the
  acksend of a message with number `v`. `Stuck v` describes the states in which no run without
  losses answers it: B has nothing of a message and would not answer with `v`, and nothing on its
  way changes that. It happens to the last message of a send, whose acknowledgement is lost when B
  leaves finalizeRecv, on its timer or on an empty datagram that it takes for one.

  * `CanReturn` -- some continuation without losses answers the acksend in progress;
  * `Stuck`, `Stuck.step`, `Stuck.not_canReturn` -- no step leaves it, and none answers;
  * `Hope` -- the rest of the states: B answers `v` once A's message reaches it
    (`OneWay.answers`), or gets nearer to that (`OneWay.hopes`);
  * `canReturn_iff` -- the two cases exclude each other and leave no third;
  * `stuckRun` -- a run that ends in a stuck state.
-/
import Ece358.Errno
import Ece358.OneWay

namespace Ece358.Rcs

open Lib MsgT

/-! ## 1. Stuck states -/

/-- A sends, B receives, and nothing is lost or cut. -/
def oneWayLossless (n : Net) (act : Side × Act) : Prop := oneWay n act ∧ act.2.lossless = true

/-- A continuation without losses. -/
abbrev Continues : Threads → Threads → Prop := Reach Threads.step (onNet oneWayLossless)

/-- Some continuation without losses answers the acksend in progress. -/
def CanReturn (t : Threads) : Prop :=
  ∃ t', Continues t t' ∧ (acked t.net.a.record).length < (acked t'.net.a.record).length

/-- A whole first fragment. -/
def First (d : List UInt8) : Prop := Whole 0 d ∧ (ofDatagram d).length ≠ 0

/-- The receiver has nothing of a message, and will not answer with `v`: its finalizeRecv answers
    with another number, or the next datagram is an empty one and, with errno at "timed out", ends
    it. -/
def AtStart (v : UInt16) (errno : Errno) (inc : List (List UInt8)) (s : RcsT) : Pc → Prop
  | .recvLoop _ => s.recvSeqnum_ = 0
  | .finalizeRecv _ ack _ => ack.seqnum ≠ v ∨ (errno = .EAGAIN ∧ inc.head? = some [])
  | _ => True

/-- A waits for `v`, and errno is that of B. -/
structure Stuck (v : UInt16) (errno : Errno) (n : Net) : Prop where
  awaited : n.a.pc.awaited = some v
  ne_zero : v ≠ 0
  ne_max : v ≠ 65535
  start : AtStart v errno n.ab n.b.sock n.b.pc
  noAck : ∀ d ∈ n.ba, ¬ Whole v d
  noFirst : ∀ d ∈ n.ab, ¬ First d

section Datagrams

variable {m : MsgT} {d : List UInt8} {v : UInt16}

theorem SentAs.of_first (h : SentAs d m) (hf : First d) : m.length ≠ 0 := by
  rw [← (h.whole hf.1.1).2]
  exact hf.2

theorem not_first_wire (hb : m.Built) (hm : m.seqnum ≠ 0 ∨ m.length = 0) : ¬ First m.wire := by
  rintro ⟨hw, hl⟩
  rw [ofDatagram_wire hb] at hl
  rcases hm with hm | hm
  · exact hm ((whole_wire_iff hb).mp hw)
  · exact hl hm

end Datagrams

section Awaiting

variable {n : Net} {done : List (List UInt8)} {D : List UInt8} {K c : Nat} {old : List MsgT}
  {ks : List Nat} {ms : List MsgT} {v : UInt16}

/-- The acksend in progress is that of message `K`. -/
theorem OneWay.awaiting (h : OneWay n done D K c old ks ms) (hv : n.a.pc.awaited = some v) :
    K ≤ nfrag D ∧ v = num K := by
  have hK := h.dir.sender.busy (awaited_sending hv)
  refine ⟨hK, ?_⟩
  rw [(h.dir.sender.sending hK).1, sendPc_awaited] at hv
  exact (Option.some.inj hv).symm

/-- On the way to B are markers and fragments. -/
theorem OneWay.marker_of_empty (h : OneWay n done D K c old ks ms) {m : MsgT}
    (hm : m ∈ old ++ ks.map (pkt D)) (hl : m.length = 0) : m.hasFlag EOS = true := by
  have hno := h.noAcks m hm
  rcases List.mem_append.mp hm with hm | hm
  · obtain ⟨v, rfl | rfl⟩ := h.dir.oldControl m hm
    · rw [hasFlag_control]; rfl
    · rw [hasFlag_control] at hno
      cases hno
  · obtain ⟨k, _, rfl⟩ := List.mem_map.mp hm
    rw [pkt_hasFlag_eos, decide_eq_true_eq]
    by_contra hk
    exact pkt_length_ne_zero (by omega) hl

end Awaiting

/-! ## 2. No step leaves a stuck state -/

section Stuck

variable {n : Net} {done : List (List UInt8)} {D : List UInt8} {K c : Nat} {old : List MsgT}
  {ks : List Nat} {ms : List MsgT} {v : UInt16} {a' b' : Endpoint}
  {ab' ba' : List (List UInt8)} {act : Act} {errno errno' : Errno}

/-- What is sent behind the next datagram does not matter yet. -/
theorem AtStart.append {inc : List (List UInt8)} {s : RcsT} {pc : Pc}
    (h : AtStart v errno inc s pc) (more : List (List UInt8)) :
    AtStart v errno (inc ++ more) s pc := by
  cases pc with
  | finalizeRecv L ack response =>
    refine h.imp_right fun ⟨he, hd⟩ => ⟨he, ?_⟩
    rw [List.head?_append, hd]
    rfl
  | _ => exact h

/-- The sender is not answered; it sends its message again. -/
theorem Stuck.again (h : OneWay n done D K c old ks ms) (hst : Stuck v errno n) {r : Res}
    {ba' : List (List UInt8)} (hba : ∀ d ∈ ba', d ∈ n.ba) (hmsg : r.messages = [pkt D K])
    (hsent : Sent D K r K) (hpc : r.pc = n.a.pc) :
    Stuck v errno ⟨n.a.went [] r, n.b, n.ab ++ r.datagrams, ba'⟩ ∧
      acked (n.a.went [] r).record = acked n.a.record := by
  refine ⟨{ hst with
              start := hst.start.append _
              awaited := (congrArg Pc.awaited hpc).trans hst.awaited
              noAck := fun d hd => hst.noAck d (hba d hd)
              noFirst := fun d hd => ?_ }, ?_⟩
  · rcases List.mem_append.mp hd with hd | hd
    · exact hst.noFirst d hd
    · rw [Res.datagrams, hmsg, List.map_singleton, List.mem_singleton] at hd
      rw [hd]
      refine not_first_wire (pkt_built D K) (Or.inl ?_)
      rw [pkt_seqnum, ← (h.awaiting hst.awaited).2]
      exact hst.ne_zero
  · cases hsent with
    | again ha _ _ => simp [ha]

theorem Stuck.stepA (h : OneWay n done D K c old ks ms) (hst : Stuck v errno n)
    (hl : act.lossless = true) (hact : Acts n.a n.ab n.ba act a' ab' ba') :
    Stuck v errno ⟨a', n.b, ab', ba'⟩ ∧ acked a'.record = acked n.a.record := by
  obtain ⟨hK, hvK⟩ := h.awaiting hst.awaited
  have hpa := (h.dir.sender.sending hK).1
  cases hact with
  | call call hp =>
    rw [awaited_not_idle hst.awaited] at hp
    cases hp
  | timeout hp ht =>
    obtain ⟨hmsg, _, hsent, hdir⟩ := h.dir.sender_timeout hK
    exact hst.again h (fun _ hd => hd) hmsg hsent ((hdir.sender.sending hK).1.trans hpa.symm)
  | receive e d inc' hp hinc =>
    have hba := h.ba
    rw [hinc] at hba
    obtain ⟨m, ms', hd, _, _⟩ := List.forall₂_cons_left_iff.mp hba
    rcases acksend_cases h.dir.openA (pkt D K) hd e n.a.sock.endPoint_ with
      ⟨hw, hs, _⟩ | ⟨_, ha⟩
    · rw [pkt_seqnum, ← hvK] at hs
      exact absurd (hw ▸ whole_wire hd.built hs) (hst.noAck d (hinc ▸ List.mem_cons_self))
    · obtain ⟨hmsg, _, hsent, hdir⟩ := h.dir.sender_again hK
        (h.dir.openA.from n.a.sock.endPoint_) rfl rfl ha
      exact hst.again h (fun x hx => hinc ▸ List.mem_cons_of_mem _ hx) hmsg hsent
        ((hdir.sender.sending hK).1.trans hpa.symm)
  | lose i hi => cases hl
  | cut i k d hd hk => cases hl

/-- The receiver's answers do not help a stuck sender. -/
theorem Stuck.answered (hst : Stuck v errno n) {r : Res} {ab' : List (List UInt8)}
    (hab : ∀ d ∈ ab', d ∈ n.ab) (hs : AtStart v errno' ab' r.sock r.pc)
    (hm : ∀ m ∈ r.messages, m.Built ∧ m.seqnum ≠ v) (es : List Entry) :
    Stuck v errno' ⟨n.a, n.b.went es r, ab', n.ba ++ r.datagrams⟩ :=
  { hst with
    start := hs
    noFirst := fun d hd => hst.noFirst d (hab d hd)
    noAck := fun d hd => by
      rcases List.mem_append.mp hd with hd | hd
      · exact hst.noAck d hd
      · obtain ⟨m, hmem, rfl⟩ := List.mem_map.mp hd
        rw [whole_wire_iff (hm m hmem).1]
        exact (hm m hmem).2 }

theorem Stuck.finalizeEnd (hst : Stuck v errno n) {s : RcsT} (ho : Open s)
    {ab' : List (List UInt8)} (hab : ∀ d ∈ ab', d ∈ n.ab) (L : Nat) :
    Stuck v errno'
      ⟨n.a, n.b.went [] (s.finalizeEnd L), ab', n.ba ++ (s.finalizeEnd L).datagrams⟩ := by
  rcases finalizeEnd_cases ho L with ⟨_, hr⟩ | ⟨_, hr⟩ <;> rw [hr]
  · refine hst.answered hab ?_ (fun m hm => ?_) []
    · exact rfl
    · simp [Res.messages, Event.message] at hm
  · refine hst.answered hab ?_ (fun m hm => ?_) []
    · exact trivial
    · simp [Res.messages, Event.message] at hm

/-- A waiting receiver that expects number 0 hears a datagram, which is no first fragment: it
stays at its start, and what it answers does not carry the sender's number. -/
theorem Stuck.loop_receives (h : OneWay n done D K c old ks ms) (hst : Stuck v errno n) {L : Nat}
    (hpc : n.b.pc = .recvLoop L) {d : List UInt8} {inc' : List (List UInt8)}
    (hinc : n.ab = d :: inc') {m : MsgT} (hm : m ∈ old ++ ks.map (pkt D)) (hd : SentAs d m)
    (es : List Entry) :
    Stuck v errno ⟨n.a, n.b.went es (resume n.b.sock (.recvLoop L)
      (.datagram errno d n.b.sock.endPoint_)), inc', n.ba ++ (resume n.b.sock (.recvLoop L)
        (.datagram errno d n.b.sock.endPoint_)).datagrams⟩ := by
  have hs := hst.start
  rw [hpc] at hs
  have hs : n.b.sock.recvSeqnum_ = 0 := hs
  have hsub : ∀ x ∈ inc', x ∈ n.ab := fun x hx => hinc ▸ List.mem_cons_of_mem _ hx
  have hready :
      (readyAck { n.b.sock with fromEndpoint_ := n.b.sock.endPoint_ }).seqnum ≠ v := by
    show n.b.sock.recvSeqnum_ - 1 ≠ v
    rw [hs]
    exact fun e => hst.ne_max e.symm
  have hzero : (control n.b.sock.recvSeqnum_ ACK).seqnum ≠ v := by
    show n.b.sock.recvSeqnum_ ≠ v
    rw [hs]
    exact fun e => hst.ne_zero e.symm
  rcases recvLoop_cases h.dir.openB hd L errno n.b.sock.endPoint_ with
    ⟨_, _, hr⟩ | ⟨_, hr⟩ | ⟨hw, hn, he, hr⟩ | ⟨_, _, _, hr⟩ | ⟨_, _, _, hr⟩ <;> rw [hr]
  · refine hst.answered hsub ?_ (fun m hm => absurd hm List.not_mem_nil) es
    exact hs
  · refine hst.answered hsub ?_ (fun m hm => ?_) es
    · exact hs
    · obtain rfl := List.mem_singleton.mp hm
      exact ⟨built_ack _, hready⟩
  · -- a whole message with number 0 that is no marker would be a first fragment
    exfalso
    have hlen : m.length ≠ 0 := fun hl => by
      rw [h.marker_of_empty hm hl] at he
      cases he
    refine hst.noFirst d (hinc ▸ List.mem_cons_self)
      ⟨hw ▸ whole_wire hd.built (hn.trans hs), ?_⟩
    rw [hw, ofDatagram_wire hd.built]
    exact hlen
  · refine hst.answered hsub ?_ (fun m hm => ?_) es
    · exact Or.inl hzero
    · obtain rfl := List.mem_singleton.mp hm
      exact ⟨built_ack _, hzero⟩
  · refine hst.answered hsub ?_ (fun m hm => ?_) es
    · exact Or.inl hready
    · obtain rfl := List.mem_singleton.mp hm
      exact ⟨built_ack _, hready⟩

/-- A finalizing receiver answers with its own number again, or ends. -/
theorem Stuck.finalize_receives (h : OneWay n done D K c old ks ms) (hst : Stuck v errno n)
    {L : Nat} {ack response : MsgT} (hpc : n.b.pc = .finalizeRecv L ack response) {d : List UInt8}
    {inc' : List (List UInt8)} (hinc : n.ab = d :: inc') {m : MsgT} (hd : SentAs d m) :
    Stuck v errno ⟨n.a, n.b.went [] (resume n.b.sock (.finalizeRecv L ack response)
      (.datagram errno d n.b.sock.endPoint_)), inc',
        n.ba ++ (resume n.b.sock (.finalizeRecv L ack response)
          (.datagram errno d n.b.sock.endPoint_)).datagrams⟩ := by
  have hs := hst.start
  have hdir := h.dir
  rw [hpc] at hs hdir
  have hsub : ∀ x ∈ inc', x ∈ n.ab := fun x hx => hinc ▸ List.mem_cons_of_mem _ hx
  obtain ⟨_, ⟨u, rfl⟩, hsn⟩ := hdir.finalizing_between
  rcases finalize_cases h.dir.openB hd.noFinHere hsn L (control u ACK) errno
      n.b.sock.endPoint_ with
    ⟨_, hr⟩ | ⟨hno, _, response', _, hr⟩ <;> rw [hr]
  · exact hst.finalizeEnd (h.dir.openB.from _) hsub L
  · -- it does not end, so its number is another one
    have hne : (control u ACK).seqnum ≠ v := by
      refine hs.resolve_right fun ⟨he, hhead⟩ => hno ⟨?_, he⟩
      rw [hinc] at hhead
      exact Option.some.inj hhead
    refine hst.answered hsub ?_ (fun m hm => ?_) []
    · exact Or.inl hne
    · obtain rfl := List.mem_singleton.mp hm
      exact ⟨built_ack u, hne⟩

theorem Stuck.receiver_timeout (h : OneWay n done D K c old ks ms) (hst : Stuck v errno n)
    (hpc : n.b.pc.receiving = true) :
    Stuck v .EAGAIN ⟨n.a, n.b.went [] (resume n.b.sock n.b.pc (.error .EAGAIN)), n.ab,
      n.ba ++ (resume n.b.sock n.b.pc (.error .EAGAIN)).datagrams⟩ := by
  have ho := h.dir.openB
  cases hb : n.b.pc with
  | recvLoop L =>
    have hs := hst.start
    rw [hb] at hs
    have hr : resume n.b.sock (.recvLoop L) (.error .EAGAIN) = ⟨n.b.sock, [], .recvLoop L⟩ :=
      recvPass_timeout ho L
    rw [hr]
    exact hst.answered (fun _ hd => hd) hs (fun m hm => absurd hm List.not_mem_nil) _
  | finalizeRecv L ack response =>
    rw [finalize_timeout ho]
    exact hst.finalizeEnd ho (fun _ hd => hd) L
  | _ => rw [hb] at hpc; cases hpc

theorem Stuck.stepB (h : OneWay n done D K c old ks ms) (hst : Stuck v errno n)
    (hok : oneWay n (.B, act)) (hl : act.lossless = true) (hf : act.finds errno)
    (hact : Acts n.b n.ba n.ab act b' ba' ab') :
    Stuck v (act.leaves errno) ⟨n.a, b', ab', ba'⟩ := by
  cases hact with
  | call call hp =>
    cases call with
    | send data => exact hok.elim
    | recv L =>
      rw [recv_start h.dir.openB]
      refine hst.answered (fun _ hd => hd) ?_ (fun m hm => absurd hm List.not_mem_nil) _
      exact rfl
  | timeout hp ht =>
    exact hst.receiver_timeout h ((sending_or_receiving hp).resolve_left (by simp [h.notSending]))
  | receive e d inc' hp hinc =>
    obtain rfl : e = errno := hf
    have hr := (sending_or_receiving hp).resolve_left (by simp [h.notSending])
    have hab := h.ab
    rw [hinc] at hab
    obtain ⟨m, rest, hd, _, hch⟩ := List.forall₂_cons_left_iff.mp hab
    cases hpc : n.b.pc with
    | recvLoop L => exact hst.loop_receives h hpc hinc (hch ▸ List.mem_cons_self) hd _
    | finalizeRecv L ack response => exact hst.finalize_receives h hpc hinc hd
    | _ => rw [hpc] at hr; cases hr
  | lose i hi => cases hl
  | cut i k d hd hk => cases hl

/-- No step without losses leaves a stuck state, or answers the sender. -/
theorem Stuck.step {t t' : Threads} {act : Side × Act} (hI : OneWayAt t.net)
    (hst : Stuck v t.errnoB t.net) (hok : oneWayLossless t.net act) (hs : t.step act = some t') :
    Stuck v t'.errnoB t'.net ∧ acked t'.net.a.record = acked t.net.a.record := by
  obtain ⟨done, D, K, c, old, ks, ms, h⟩ := hI
  obtain ⟨⟨a', b', ab', ba'⟩, eA', eB'⟩ := t'
  obtain ⟨side, act⟩ := act
  cases side with
  | A =>
    obtain ⟨_, hs, rfl, rfl⟩ := threadsA_moved hs
    obtain ⟨hact, rfl⟩ := stepA_acts hs
    exact hst.stepA h hok.2 hact
  | B =>
    obtain ⟨hf, hs, rfl, rfl⟩ := threadsB_moved hs
    obtain ⟨hact, rfl⟩ := stepB_acts hs
    exact ⟨hst.stepB h hok.1 hok.2 hf hact, rfl⟩

theorem Stuck.not_canReturn {t : Threads} (hI : OneWayAt t.net) (hst : Stuck v t.errnoB t.net) :
    ¬ CanReturn t := by
  rintro ⟨t', hreach, hlt⟩
  have hkeep : OneWayAt t'.net ∧ Stuck v t'.errnoB t'.net ∧
      acked t'.net.a.record = acked t.net.a.record :=
    hreach.invariant (I := fun x => OneWayAt x.net ∧ Stuck v x.errnoB x.net ∧
        acked x.net.a.record = acked t.net.a.record)
      ⟨hI, hst, rfl⟩ fun x act x' ⟨h1, h2, h3⟩ hok hs =>
        have hnext := h2.step h1 hok hs
        ⟨h1.step hok.1 (threads_net hs), hnext.1, hnext.2.trans h3⟩
  rw [hkeep.2.2] at hlt
  exact lt_irrefl _ hlt

end Stuck

/-! ## 3. The other states: answers on their way -/

/-- A state of a run in which both timers are on. -/
structure Alive (n : Net) : Prop where
  inv : OneWayAt n
  ticksA : n.a.sock.timeout ≠ 0
  ticksB : n.b.sock.timeout ≠ 0

section Alive

variable {n n' : Net} {t t' : Threads} {v : UInt16}

theorem Alive.step {act : Side × Act} (h : Alive n) (hok : oneWay n act)
    (hs : n.step act = some n') : Alive n' := by
  refine ⟨h.inv.step hok hs, ?_, ?_⟩ <;> obtain ⟨side, act⟩ := act <;> cases side
  · exact (stepA_acts hs).1.ticks h.ticksA
  · exact (stepB_acts hs).2 ▸ h.ticksA
  · exact (stepA_acts hs).2 ▸ h.ticksB
  · exact (stepB_acts hs).1.ticks h.ticksB

theorem alive_of_reach {n0 : Net} (h0 : Connected n0) (h : Reach Net.step oneWay n0 n) : Alive n :=
  h.invariant ⟨⟨_, _, _, _, _, _, _, h0.oneWay⟩, h0.ticksA, h0.ticksB⟩
    fun _ _ _ hI hok hs => hI.step hok hs

/-- A continuation that leaves the sender as it is. -/
theorem CanReturn.of_continues (hr : Continues t t')
    (ha : acked t'.net.a.record = acked t.net.a.record) (h : CanReturn t') : CanReturn t := by
  obtain ⟨t'', hr', hlt⟩ := h
  exact ⟨t'', hr.trans hr', ha ▸ hlt⟩

/-- A whole datagram with the awaited number reaches the sender in the end. -/
theorem canReturn_of_answer {inc : List (List UInt8)} (h : OneWayAt t.net)
    (hv : t.net.a.pc.awaited = some v) (hinc : t.net.ba = inc) (hd : ∃ d ∈ inc, Whole v d) :
    CanReturn t := by
  induction inc generalizing t with
  | nil =>
    obtain ⟨d, hd, _⟩ := hd
    cases hd
  | cons d inc ih =>
    obtain ⟨done, D, K, c, old, ks, ms, hI⟩ := h
    obtain ⟨hK, rfl⟩ := hI.awaiting hv
    obtain ⟨hpa, hsa⟩ := hI.dir.sender.sending hK
    have hba := hI.ba
    rw [hinc] at hba
    obtain ⟨m, ms', hsm, _, _⟩ := List.forall₂_cons_left_iff.mp hba
    have hstep := Acts.threadsA (.receive t.errnoA d inc (awaited_not_idle hv) hinc) rfl
    have hok : onNet oneWayLossless t (.A, .receive t.errnoA) := ⟨trivial, rfl⟩
    have ho := hI.dir.openA.from t.net.a.sock.endPoint_
    rcases acksend_cases hI.dir.openA (pkt D K) hsm t.errnoA t.net.a.sock.endPoint_ with
      ⟨_, _, ha⟩ | ⟨hno, ha⟩
    · -- this is the one
      refine ⟨_, reach_step hok hstep, ?_⟩
      have hr := resume_sendPc_acked ho hsa ha
      rw [← hpa] at hr
      have hacked : acked (resume t.net.a.sock t.net.a.pc
          (.datagram t.errnoA d t.net.a.sock.endPoint_)).entries = [pkt D K] := by
        rw [hr]
        split
        · rw [(entries_sendPc _ _ _ _).1]; rfl
        · rfl
      simp [hacked]
    · have hnot : ¬ Whole (num K) d := fun hw => by
        obtain ⟨h1, h2⟩ := hsm.of_whole hw
        exact hno h1 (h2.trans (pkt_seqnum D K).symm)
      have hrest : ∃ x ∈ inc, Whole (num K) x := by
        obtain ⟨x, hx, hw⟩ := hd
        rcases List.mem_cons.mp hx with rfl | hx
        · exact absurd hw hnot
        · exact ⟨x, hx, hw⟩
      obtain ⟨_, _, hsent, hdir⟩ := hI.dir.sender_again hK ho rfl rfl ha
      have hacked : acked (resume t.net.a.sock t.net.a.pc
          (.datagram t.errnoA d t.net.a.sock.endPoint_)).entries = [] := by
        cases hsent with
        | again h _ _ => exact h
      have hnext := ih (OneWayAt.step ⟨_, _, _, _, _, _, _, hI⟩ hok.1 (threads_net hstep)) ?_ rfl
        hrest
      · refine hnext.of_continues (reach_step hok hstep) ?_
        simp [hacked]
      · show Pc.awaited (Res.pc _) = _
        rw [(hdir.sender.sending hK).1, sendPc_awaited]

end Alive

/-! ## 4. The other states: the receiver answers -/

/-- The receiver will answer `v`, once the sender's message reaches it in the inner loop of recv. -/
def Hope (v : UInt16) (n : Net) : Prop :=
  v = 0 ∨ v = 65535 ∨ (∃ L, n.b.pc = .recvLoop L ∧ n.b.sock.recvSeqnum_ ≠ 0) ∨ ∃ d ∈ n.ab, First d

/-- A message among those sent answers with `v`. -/
def Answers (v : UInt16) (r : Res) : Prop := ∃ m ∈ r.messages, m.Built ∧ m.seqnum = v

section Hope

variable {n : Net} {done : List (List UInt8)} {D : List UInt8} {K c : Nat} {old : List MsgT}
  {ks : List Nat} {ms : List MsgT} {v : UInt16} {d : List UInt8} {ys : List (List UInt8)}
  {L : Nat} {s : RcsT} {r : Res} {errno : Errno}

theorem answers_ack {u : UInt16} (hm : r.messages = [control u ACK]) (hu : u = v) : Answers v r :=
  ⟨control u ACK, hm ▸ List.mem_cons_self, built_ack u, hu⟩

/-- The last whole message of the sender makes the receiver answer. -/
theorem OneWay.answers (h : OneWay n done D K c old ks ms) (hv : n.a.pc.awaited = some v)
    (hpc : n.b.pc = .recvLoop L) (hab : n.ab = [d]) (hw : Whole v d) (hope : Hope v n) :
    Answers v (resume n.b.sock n.b.pc (.datagram errno d n.b.sock.endPoint_)) := by
  obtain ⟨hK, rfl⟩ := h.awaiting hv
  have hch := h.ab
  rw [hab] at hch
  obtain ⟨m, rest, hd, _, hm⟩ := List.forall₂_cons_left_iff.mp hch
  obtain ⟨hdm, hmv⟩ := hd.of_whole hw
  have hdir := h.dir
  rw [hpc] at hdir ⊢
  have hready : n.b.sock.recvSeqnum_ ≠ m.seqnum → n.b.sock.recvSeqnum_ - 1 = num K := fun hne => by
    have hcK := hdir.c_le_K
    rw [hmv] at hne
    rcases hdir.expects with ⟨hcn, hse⟩ | ⟨hcn, hse⟩
    · by_cases hc0 : c = 0
      · rw [hse, hc0, num_zero] at hne ⊢
        rcases hope with h0 | h1 | ⟨_, _, h2⟩ | ⟨x, hx, hf⟩
        · exact absurd h0.symm hne
        · rw [h1]; rfl
        · rw [hse, hc0] at h2
          exact absurd rfl h2
        · rw [hab, List.mem_singleton] at hx
          exact absurd (hf.1.2.symm.trans (hx ▸ hw.2)) hne
      · have hck : c = K + 1 := by
          have := hdir.K_le_c
          by_contra hck
          have : c = K := by omega
          rw [hse, this] at hne
          exact hne rfl
        rw [hse, hck, num_succ_sub_one]
    · rw [hse] at hne ⊢
      rcases hope with h0 | h1 | ⟨_, _, h2⟩ | ⟨x, hx, hf⟩
      · exact absurd h0.symm hne
      · rw [h1]; rfl
      · exact absurd hse h2
      · rw [hab, List.mem_singleton] at hx
        exact absurd (hf.1.2.symm.trans (hx ▸ hw.2)) hne
  rcases recvLoop_cases hdir.openB hd L errno n.b.sock.endPoint_ with
    ⟨hd0, _, _⟩ | ⟨hs, hr⟩ | ⟨_, hs, _, hr⟩ | ⟨_, hs, _, hr⟩ | ⟨_, hs, _, hr⟩ <;> try rw [hr]
  · exact absurd (hdm.symm.trans hd0) (wire_ne_nil hd.built)
  · exact answers_ack rfl (hready fun e => (hs hdm).1 e.symm)
  · exact answers_ack rfl (hs.symm.trans hmv)
  · exact answers_ack rfl (hs.symm.trans hmv)
  · exact answers_ack rfl (hready fun e => hs e.symm)

/-- Any other datagram makes it answer too, or leaves the hope. -/
theorem OneWay.hopes (h : OneWay n done D K c old ks ms) (hv : n.a.pc.awaited = some v)
    (hpc : n.b.pc = .recvLoop L) (hab : n.ab = d :: ys) (hope : Hope v n) :
    let r := resume n.b.sock n.b.pc (.datagram errno d n.b.sock.endPoint_)
    Answers v r ∨ Hope v ⟨n.a, n.b.went [] r, ys, n.ba ++ r.datagrams⟩ := by
  obtain ⟨hK, rfl⟩ := h.awaiting hv
  have hch := h.ab
  rw [hab] at hch
  obtain ⟨m, rest, hd, _, hm⟩ := List.forall₂_cons_left_iff.mp hch
  have hack : m.hasFlag ACK = false := h.noAcks m (hm ▸ List.mem_cons_self)
  have hdir := h.dir
  rw [hpc] at hdir ⊢
  -- a hope that rests on a first fragment survives, unless the datagram is that fragment
  have hkeep : ∀ r : Res, (First d → ∃ L, r.pc = .recvLoop L ∧ r.sock.recvSeqnum_ ≠ 0) →
      (n.b.sock.recvSeqnum_ ≠ 0 → ∃ L, r.pc = .recvLoop L ∧ r.sock.recvSeqnum_ ≠ 0) →
      Hope (num K) ⟨n.a, n.b.went [] r, ys, n.ba ++ r.datagrams⟩ := by
    intro r hf hs
    rcases hope with h0 | h1 | ⟨_, _, h2⟩ | ⟨x, hx, hfx⟩
    · exact Or.inl h0
    · exact Or.inr (Or.inl h1)
    · exact Or.inr (Or.inr (Or.inl (hs h2)))
    · rw [hab] at hx
      rcases List.mem_cons.mp hx with rfl | hx
      · exact Or.inr (Or.inr (Or.inl (hf hfx)))
      · exact Or.inr (Or.inr (Or.inr ⟨x, hx, hfx⟩))
  have hmarker : m.hasFlag EOS = true → ¬ First d := fun he hf => by
    have hl := hd.of_first hf
    have hmem : m ∈ old ++ ks.map (pkt D) := hm ▸ List.mem_cons_self
    rcases List.mem_append.mp hmem with hmem | hmem
    · obtain ⟨u, rfl | rfl⟩ := hdir.oldControl m hmem <;> exact hl rfl
    · obtain ⟨k, hk, rfl⟩ := List.mem_map.mp hmem
      rw [pkt_hasFlag_eos, decide_eq_true_eq] at he
      rw [le_antisymm (hdir.ksOk k hk).2.1 he, pkt_eos] at hl
      exact hl rfl
  rcases recvLoop_cases hdir.openB hd L errno n.b.sock.endPoint_ with
    ⟨hd0, _, hr⟩ | ⟨hs, hr⟩ | ⟨_, hs, he, hr⟩ | ⟨_, hs, he, hr⟩ | ⟨_, hs, he, hr⟩ <;> rw [hr]
  · -- an empty datagram that is taken for a timeout
    refine Or.inr (hkeep _ (fun hf => ?_) fun h => ⟨L, rfl, h⟩)
    exact absurd ((hd.of_whole hf.1).1.symm.trans hd0) (wire_ne_nil hd.built)
  · refine Or.inr (hkeep _ (fun hf => ⟨L, rfl, ?_⟩) fun h => ⟨L, rfl, h⟩)
    obtain ⟨hdm, hm0⟩ := hd.of_whole hf.1
    exact fun e => (hs hdm).1 (hm0.trans e.symm)
  · rcases hdir.head_expected hm hack hs with ⟨ks', _, hks, rfl, hse⟩ | ⟨rfl, _⟩
    · by_cases hcK : c = K
      · exact Or.inl (answers_ack rfl (by rw [hse, hcK]))
      · -- the sender is ahead: it left message 0 too early, and this is that message
        have hk := hdir.ksOk c (hks ▸ List.mem_cons_self)
        have hc : K = 1 ∧ c = 0 := hdir.K_le_c.resolve_left (by omega)
        have hseq : n.b.sock.recvSeqnum_ + 1 ≠ 0 := by
          rw [hse, hc.2]
          decide
        exact Or.inr (hkeep _ (fun _ => ⟨L, rfl, hseq⟩) fun _ => ⟨L, rfl, hseq⟩)
    · cases he
  · rcases hdir.head_expected hm hack hs with ⟨ks', _, hks, rfl, hse⟩ | ⟨rfl, _, _, _, hse⟩
    · left
      refine answers_ack rfl ?_
      have hk := hdir.ksOk c (hks ▸ List.mem_cons_self)
      rw [pkt_hasFlag_eos, decide_eq_true_eq] at he
      rw [hse, show c = K by omega]
    · exact Or.inr (hkeep _ (fun hf => absurd hf (hmarker he)) fun h => absurd hse h)
  · have hse : n.b.sock.recvSeqnum_ = 0 :=
      hdir.receiver.between (hdir.head_marker hm hs he)
    exact Or.inr (hkeep _ (fun hf => absurd hf (hmarker he)) fun h => absurd hse h)

end Hope

/-! ## 5. The receiver gets there -/

section Ready

variable {t : Threads} {v : UInt16} {w : List UInt8}

/-- A step of the receiver that leaves the channel towards it alone keeps the hope. -/
theorem Hope.stay {n n' : Net} (h : Hope v n) (hpc : ∀ L, n.b.pc ≠ .recvLoop L)
    (hab : n'.ab = n.ab) : Hope v n' := by
  rcases h with h0 | h1 | ⟨L, h2, _⟩ | h3
  · exact Or.inl h0
  · exact Or.inr (Or.inl h1)
  · exact absurd h2 (hpc L)
  · exact Or.inr (Or.inr (Or.inr (hab ▸ h3)))

/-- The receiver, once idle, starts a recv. -/
theorem ready_of_idle (h : Alive t.net) (hp : t.net.b.pc.idle = true) :
    ∃ t', Continues t t' ∧ t'.net.a = t.net.a ∧ t'.net.ab = t.net.ab ∧ t'.net.ba = t.net.ba ∧
      Alive t'.net ∧ ∃ L, t'.net.b.pc = .recvLoop L := by
  have hstep := Acts.threadsB (t := t) (.call (.recv 1) hp) trivial
  have hok : onNet oneWayLossless t (.B, .call (.recv 1)) := ⟨trivial, rfl⟩
  obtain ⟨done, D, K, c, old, ks, ms, hI⟩ := h.inv
  refine ⟨_, reach_step hok hstep, rfl, rfl, ?_, h.step hok.1 (threads_net hstep), 1, ?_⟩
  · rw [recv_start hI.dir.openB]
    exact List.append_nil _
  · rw [recv_start hI.dir.openB]
    rfl

/-- Without any datagram, the receiver can get to the inner loop of recv. -/
theorem ready (h : Alive t.net) (hope : Hope v t.net) :
    ∃ t', Continues t t' ∧ t'.net.a = t.net.a ∧ t'.net.ab = t.net.ab ∧ t'.net.ba = t.net.ba ∧
      Alive t'.net ∧ (∃ L, t'.net.b.pc = .recvLoop L) ∧ Hope v t'.net := by
  obtain ⟨done, D, K, c, old, ks, ms, hI⟩ := h.inv
  cases hpc : t.net.b.pc with
  | recvLoop L =>
    exact ⟨t, Relation.ReflTransGen.refl, rfl, rfl, rfl, h, ⟨L, hpc⟩, hope⟩
  | returned ret =>
    obtain ⟨t', hr, ha, hab, hba, halive, hl⟩ := ready_of_idle h (by rw [hpc]; rfl)
    exact ⟨t', hr, ha, hab, hba, halive, hl, hope.stay (by rw [hpc]; nofun) hab⟩
  | finalizeRecv L ack response =>
    have hstep := Acts.threadsB (t := t) (.timeout (by rw [hpc]; rfl) h.ticksB) trivial
    have hok : onNet oneWayLossless t (.B, .timeout) := ⟨trivial, rfl⟩
    have halive := h.step hok.1 (threads_net hstep)
    have hend := finalizeEnd_cases hI.dir.openB L
    rw [hpc, finalize_timeout hI.dir.openB] at hstep halive
    have hno : t.net.ba ++ (t.net.b.sock.finalizeEnd L).datagrams = t.net.ba := by
      rcases hend with ⟨_, hr⟩ | ⟨_, hr⟩ <;> rw [hr] <;> exact List.append_nil _
    rw [hno] at hstep halive
    rcases hend with ⟨_, hr⟩ | ⟨_, hr⟩
    · refine ⟨_, reach_step hok hstep, rfl, rfl, rfl, halive, ⟨L, ?_⟩,
        hope.stay (by rw [hpc]; nofun) rfl⟩
      show Res.pc _ = _
      rw [hr]
    · have hidle : (t.net.b.went [] (t.net.b.sock.finalizeEnd L)).pc.idle = true := by
        rw [went_pc, hr]
        rfl
      obtain ⟨t', hr', ha, hab, hba, halive', hl⟩ := ready_of_idle (t := ⟨_, _, _⟩) halive hidle
      exact ⟨t', (reach_step hok hstep).trans hr', ha, hab, hba, halive', hl,
        hope.stay (by rw [hpc]; nofun) hab⟩
  | sendFragment _ _ _ =>
    have hs := hI.notSending
    rw [hpc] at hs
    cases hs
  | sendEos _ _ =>
    have hs := hI.notSending
    rw [hpc] at hs
    cases hs

/-- With the sender's message at the end of the channel, and hope, the answer gets on its way. -/
theorem answer_of_hope {xs : List (List UInt8)} (h : Alive t.net)
    (hv : t.net.a.pc.awaited = some v) (hab : t.net.ab = xs ++ [w]) (hw : Whole v w)
    (hope : Hope v t.net) :
    ∃ t', Continues t t' ∧ t'.net.a = t.net.a ∧ Alive t'.net ∧ ∃ d ∈ t'.net.ba, Whole v d := by
  induction xs generalizing t with
  | nil =>
    obtain ⟨t1, hr1, ha1, hab1, _, h1, ⟨L, hpc⟩, hope1⟩ := ready h hope
    have hab1' : t1.net.ab = [w] := hab1.trans hab
    obtain ⟨done, D, K, c, old, ks, ms, hI⟩ := h1.inv
    obtain ⟨m, hm, hb, hmv⟩ : Answers v (resume t1.net.b.sock t1.net.b.pc
        (.datagram t1.errnoB w t1.net.b.sock.endPoint_)) :=
      hI.answers (ha1 ▸ hv) hpc hab1' hw hope1
    have hstep := Acts.threadsB (.receive t1.errnoB w [] (by rw [hpc]; rfl) hab1') rfl
    have hok : onNet oneWayLossless t1 (.B, .receive t1.errnoB) := ⟨trivial, rfl⟩
    exact ⟨_, hr1.trans (reach_step hok hstep), ha1, h1.step hok.1 (threads_net hstep), m.wire,
      List.mem_append_right _ (List.mem_map_of_mem hm), whole_wire hb hmv⟩
  | cons d xs ih =>
    obtain ⟨t1, hr1, ha1, hab1, _, h1, ⟨L, hpc⟩, hope1⟩ := ready h hope
    have hab1' : t1.net.ab = d :: (xs ++ [w]) := hab1.trans hab
    obtain ⟨done, D, K, c, old, ks, ms, hI⟩ := h1.inv
    have hstep := Acts.threadsB (.receive t1.errnoB d _ (by rw [hpc]; rfl) hab1') rfl
    have hok : onNet oneWayLossless t1 (.B, .receive t1.errnoB) := ⟨trivial, rfl⟩
    have hreach := hr1.trans (reach_step hok hstep)
    have h2 := h1.step hok.1 (threads_net hstep)
    have hopes : _ ∨ Hope v ⟨_, t1.net.b.went [] (resume t1.net.b.sock t1.net.b.pc
        (.datagram t1.errnoB d t1.net.b.sock.endPoint_)), _, _⟩ :=
      hI.hopes (ha1 ▸ hv) hpc hab1' hope1
    rcases hopes with ⟨m, hm, hb, hmv⟩ | hope2
    · exact ⟨_, hreach, ha1, h2, m.wire, List.mem_append_right _ (List.mem_map_of_mem hm),
        whole_wire hb hmv⟩
    · obtain ⟨t', hr', ha', h', hd'⟩ := ih h2 (ha1 ▸ hv) rfl hope2
      exact ⟨t', hreach.trans hr', ha'.trans ha1, h', hd'⟩

/-- The sender's timer puts its message at the end of the channel. -/
theorem repeat_message (h : Alive t.net) (hv : t.net.a.pc.awaited = some v) :
    ∃ t' w, Continues t t' ∧ t'.errnoB = t.errnoB ∧ t'.net.b = t.net.b ∧ t'.net.ba = t.net.ba ∧
      t'.net.ab = t.net.ab ++ [w] ∧ Whole v w ∧ Alive t'.net ∧ t'.net.a.pc.awaited = some v ∧
      acked t'.net.a.record = acked t.net.a.record := by
  obtain ⟨done, D, K, c, old, ks, ms, hI⟩ := h.inv
  obtain ⟨hK, rfl⟩ := hI.awaiting hv
  have hstep := Acts.threadsA (t := t) (.timeout (awaited_not_idle hv) h.ticksA) trivial
  have hok : onNet oneWayLossless t (.A, .timeout) := ⟨trivial, rfl⟩
  obtain ⟨hmsg, _, hsent, hdir⟩ := hI.dir.sender_timeout hK
  refine ⟨_, (pkt D K).wire, reach_step hok hstep, rfl, rfl, rfl, ?_,
    whole_wire (pkt_built D K) (pkt_seqnum D K), h.step hok.1 (threads_net hstep), ?_, ?_⟩
  · show t.net.ab ++ Res.datagrams _ = _
    rw [Res.datagrams, hmsg]
    rfl
  · show Pc.awaited (Res.pc _) = _
    rw [(hdir.sender.sending hK).1, sendPc_awaited]
  · cases hsent with
    | again ha _ _ => simp [ha]

/-- Where finalizeRecv answers with the awaited number, any datagram makes it do so that does not
    pass for a timeout. -/
theorem answer_of_finalize {L : Nat} {ack response : MsgT} {d : List UInt8}
    {ys : List (List UInt8)} (h : Alive t.net) (hv : t.net.a.pc.awaited = some v) (h0 : v ≠ 0)
    (hpc : t.net.b.pc = .finalizeRecv L ack response) (hack : ack.seqnum = v)
    (hab : t.net.ab = d :: ys) (hd0 : ¬ (d = [] ∧ t.errnoB = .EAGAIN)) :
    ∃ t', Continues t t' ∧ t'.net.a = t.net.a ∧ Alive t'.net ∧ ∃ d ∈ t'.net.ba, Whole v d := by
  obtain ⟨done, D, K, c, old, ks, ms, hI⟩ := h.inv
  obtain ⟨hK, rfl⟩ := hI.awaiting hv
  have hch := hI.ab
  rw [hab] at hch
  obtain ⟨m, rest, hd, _, hm⟩ := List.forall₂_cons_left_iff.mp hch
  have hdir := hI.dir
  rw [hpc] at hdir
  obtain ⟨hc, ⟨u, rfl⟩, hsn⟩ := hdir.finalizing_between
  obtain rfl : u = num K := hack
  -- the receiver has the whole message, so all that is on its way are markers
  have hK1 : 1 ≤ K := by
    by_contra hK1
    obtain rfl : K = 0 := by omega
    exact h0 rfl
  have hcK : K + 1 ≤ c := by
    by_contra hcK
    refine hdir.rule.absent hK1 hK (by omega) ?_
    exact List.mem_append_right _ (List.mem_singleton.mpr rfl)
  have hcn : c = nfrag D + 1 := by omega
  have hlen : m.length = 0 := by
    rw [hdir.oldNil (by omega) hK, List.nil_append] at hm
    have hmem : m ∈ ks.map (pkt D) := hm ▸ List.mem_cons_self
    obtain ⟨k, hk, rfl⟩ := List.mem_map.mp hmem
    have hk := hdir.ksOk k hk
    rw [show k = nfrag D by omega, pkt_eos]
    rfl
  have hstep := Acts.threadsB (.receive t.errnoB d ys (by rw [hpc]; rfl) hab) rfl
  have hok : onNet oneWayLossless t (.B, .receive t.errnoB) := ⟨trivial, rfl⟩
  refine ⟨_, reach_step hok hstep, rfl, h.step hok.1 (threads_net hstep),
    (control (num K) ACK).wire, ?_, whole_wire (built_ack _) rfl⟩
  refine List.mem_append_right _ (List.mem_map_of_mem ?_)
  rw [hpc]
  rcases finalize_cases hdir.openB hd.noFinHere hsn L (control (num K) ACK) t.errnoB
      t.net.b.sock.endPoint_ with ⟨hend, _⟩ | ⟨_, _, response', _, hr⟩
  · rcases hend with he | ⟨_, hs⟩
    · exact absurd he hd0
    · rw [startsNext_of_length_zero hlen hd.isPrefix] at hs
      cases hs
  · rw [hr]
    exact List.mem_cons_self

end Ready

/-! ## 6. The result -/

/-- In every reachable state with an acksend in progress: either some continuation without losses
    answers it, or the state is stuck. -/
theorem canReturn_iff {t0 t : Threads} (h0 : Connected t0.net)
    (h : Reach Threads.step (onNet oneWay) t0 t) {v : UInt16}
    (hv : t.net.a.pc.awaited = some v) : CanReturn t ↔ ¬ Stuck v t.errnoB t.net := by
  have halive := alive_of_reach h0 (net_of_reach h)
  refine ⟨fun hc hst => hst.not_canReturn halive.inv hc, fun hst => ?_⟩
  by_cases hack : ∃ d ∈ t.net.ba, Whole v d
  · exact canReturn_of_answer halive.inv hv rfl hack
  obtain ⟨t1, w, hr1, he1, hb1, hba1, hab1, hw, h1, hv1, ha1⟩ := repeat_message halive hv
  by_cases hope : Hope v t.net
  · have hope1 : Hope v t1.net := by
      rcases hope with h0 | h1 | ⟨L, h2, h3⟩ | ⟨d, hd, hf⟩
      · exact Or.inl h0
      · exact Or.inr (Or.inl h1)
      · exact Or.inr (Or.inr (Or.inl ⟨L, hb1 ▸ h2, hb1 ▸ h3⟩))
      · exact Or.inr (Or.inr (Or.inr ⟨d, hab1 ▸ List.mem_append_left _ hd, hf⟩))
    obtain ⟨t2, hr2, ha2, h2, hd2⟩ := answer_of_hope h1 hv1 hab1 hw hope1
    exact (canReturn_of_answer h2.inv (ha2 ▸ hv1) rfl hd2).of_continues (hr1.trans hr2)
      (by rw [ha2, ha1])
  · -- what is left: the receiver is in finalizeRecv, with the awaited number in its answer
    have hne0 : v ≠ 0 := fun e => hope (Or.inl e)
    have hnem : v ≠ 65535 := fun e => hope (Or.inr (Or.inl e))
    have hfirst : ∀ d ∈ t.net.ab, ¬ First d := fun d hd hf =>
      hope (Or.inr (Or.inr (Or.inr ⟨d, hd, hf⟩)))
    have hstart : ¬ AtStart v t.errnoB t.net.ab t.net.b.sock t.net.b.pc := fun hs =>
      hst ⟨hv, hne0, hnem, hs, fun d hd hwd => hack ⟨d, hd, hwd⟩, hfirst⟩
    cases hpc : t.net.b.pc with
    | recvLoop L =>
      rw [hpc] at hstart
      exact absurd (Or.inr (Or.inr (Or.inl ⟨L, hpc, hstart⟩))) hope
    | finalizeRecv L ack response =>
      rw [hpc] at hstart
      obtain ⟨hseq, hhead⟩ := not_or.mp hstart
      -- the datagram in front is the one that was there before, or the one that was repeated
      obtain ⟨d, ys, hdy, hd0⟩ : ∃ d ys, t1.net.ab = d :: ys ∧
          ¬ (d = [] ∧ t1.errnoB = .EAGAIN) := by
        rw [hab1, he1]
        cases hab : t.net.ab with
        | nil =>
          refine ⟨w, [], rfl, fun he => ?_⟩
          rw [he.1] at hw
          exact absurd hw.1 (by decide +kernel)
        | cons d ys =>
          refine ⟨d, ys ++ [w], rfl, fun ⟨hd, he⟩ => hhead ⟨he, ?_⟩⟩
          rw [hab, hd]
          rfl
      obtain ⟨t2, hr2, ha2, h2, hd2⟩ :=
        answer_of_finalize h1 hv1 hne0 (hb1 ▸ hpc) (not_not.mp hseq) hdy hd0
      exact (canReturn_of_answer h2.inv (ha2 ▸ hv1) rfl hd2).of_continues (hr1.trans hr2)
        (by rw [ha2, ha1])
    | _ =>
      rw [hpc] at hstart
      exact absurd trivial hstart

/-- The marker of a one-byte message is answered, and the answer gets lost. -/
def lostAnswer : List (Side × Act) :=
  [(.A, .call (.send [97])), (.B, .call (.recv 4)), (.B, .receive (.other 0)),
   (.A, .receive (.other 0)), (.B, .receive (.other 0)), (.B, .lose 0)]

theorem canReturn_lostAnswer : ∃ t, Reach Threads.step (onNet oneWay) .pair t ∧
    t.net.a.pc.awaited = some 1 ∧ t.net.ab = [] ∧ t.net.ba = [] ∧ CanReturn t := by
  have hrun : ((exec Threads.step (onNet oneWay) .pair lostAnswer).map fun t =>
      (t.net.a.pc.awaited, t.net.b.pc, t.net.ab, t.net.ba)) =
      some (some 1, .finalizeRecv 4 (control 1 ACK) default, [], []) := by
    decide +kernel
  obtain ⟨t, ht, hres⟩ := Option.map_eq_some_iff.mp hrun
  simp only [Prod.mk.injEq] at hres
  obtain ⟨hv, hpc, hab, hba⟩ := hres
  have hreach := reach_of_exec ht
  refine ⟨t, hreach, hv, hab, hba, (canReturn_iff connected_pair hreach hv).mpr fun hst => ?_⟩
  have hs := hst.start
  rw [hpc, hab] at hs
  rcases hs with hs | ⟨_, hs⟩
  · exact hs rfl
  · cases hs

/-- Then the timer ends finalizeRecv, and the receiver goes on to its next recv. -/
def stuckRun : List (Side × Act) := lostAnswer ++ [(.B, .timeout), (.B, .call (.recv 4))]

/-- From there on no run without losses answers the sender. -/
theorem sender_stuck : ∃ t, exec Threads.step (onNet oneWay) .pair stuckRun = some t ∧
    Reach Threads.step (onNet oneWay) .pair t ∧ t.net.a.pc.awaited = some 1 ∧ ¬ CanReturn t := by
  have hrun : ((exec Threads.step (onNet oneWay) .pair stuckRun).map fun t =>
      (t.net.a.pc.awaited, t.net.b.pc, t.net.b.sock.recvSeqnum_, t.net.ab, t.net.ba)) =
      some (some 1, .recvLoop 4, 0, [], []) := by
    rfl
  obtain ⟨t, ht, hres⟩ := Option.map_eq_some_iff.mp hrun
  simp only [Prod.mk.injEq] at hres
  obtain ⟨hv, hpc, hs, hab, hba⟩ := hres
  have hreach := reach_of_exec ht
  have hst : Stuck 1 t.errnoB t.net :=
    { awaited := hv
      ne_zero := by decide
      ne_max := by decide
      start := by rw [hpc]; exact hs
      noAck := by rw [hba]; nofun
      noFirst := by rw [hab]; nofun }
  exact ⟨t, ht, hreach, hv,
    hst.not_canReturn (oneWayAt_of_reach connected_pair (net_of_reach hreach))⟩

end Ece358.Rcs
