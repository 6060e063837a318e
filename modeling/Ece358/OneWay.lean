/-
  File:      Ece358/OneWay.lean
  Subject:   One endpoint sends, the other receives.

  Side A makes send calls only, side B recv calls only. In every reachable state the bytes at B are
  a prefix of the data of A's sends, cut where a recv returned inside one of them, and complete for
  every send that has returned.

  * `oneWay` -- the calls that the two sides make;
  * `OneWay` -- the invariant: `Dir` for the numbers, `Delivered` for the bytes;
  * `OneWay.stepA`, `OneWay.stepB` -- every step keeps it;
  * `delivery` -- the result.
-/
import Ece358.Delivery

namespace Ece358.Rcs

open Lib MsgT

/-- A sends and B receives. -/
def oneWay (_ : Net) : Side × Act → Prop
  | (.A, .call (.recv _)) => False
  | (.B, .call (.send _)) => False
  | _ => True

instance (n : Net) : DecidablePred (oneWay n)
  | (.A, .call (.recv _)) => isFalse id
  | (.B, .call (.send _)) => isFalse id
  | (.A, .call (.send _)) => isTrue trivial
  | (.B, .call (.recv _)) => isTrue trivial
  | (.A, .timeout) => isTrue trivial
  | (.A, .receive _) => isTrue trivial
  | (.A, .lose _) => isTrue trivial
  | (.A, .cut _ _) => isTrue trivial
  | (.B, .timeout) => isTrue trivial
  | (.B, .receive _) => isTrue trivial
  | (.B, .lose _) => isTrue trivial
  | (.B, .cut _ _) => isTrue trivial

/-- The invariant: the sends before the current one, the current one, how far the two sides are
    with it, and what the two channels carry. -/
structure OneWay (n : Net) (done : List (List UInt8)) (D : List UInt8) (K c : Nat)
    (old : List MsgT) (ks : List Nat) (ms : List MsgT) : Prop where
  ab : Carries n.ab (old ++ ks.map (pkt D))
  ba : Carries n.ba ms
  noAcks : ∀ m ∈ old ++ ks.map (pkt D), m.hasFlag ACK = false
  onlyAcks : ∀ m ∈ ms, IsAck m
  dir : Dir False D K c old ks (acks ms) n.a.sock n.a.pc n.b.sock n.b.pc
  notReceiving : n.a.pc.receiving = false
  notSending : n.b.pc.sending = false
  sent : [] :: sends n.a.record = done ++ [D]
  returned : sendsDone n.a.record + (if n.a.pc.idle then 0 else 1) = (sends n.a.record).length
  delivered : Delivered done D c n.b.sock.buffer_ n.b.record

/-- Some progress of the two sides explains the state. -/
def OneWayAt (n : Net) : Prop := ∃ done D K c old ks ms, OneWay n done D K c old ks ms

section Steps

variable {n : Net} {done : List (List UInt8)} {D : List UInt8} {K c : Nat} {old : List MsgT}
  {ks : List Nat} {ms : List MsgT} {a' b' : Endpoint} {ab' ba' : List (List UInt8)} {act : Act}

theorem IsAck.built {m : MsgT} (h : IsAck m) : m.Built ∧ m.hasFlag FIN = false := by
  obtain ⟨v, rfl⟩ := h
  exact ⟨built_ack v, by rw [hasFlag_control]; rfl⟩

/-- The initial state explains itself with an empty send. -/
theorem Connected.oneWay (h : Connected n) : OneWay n [] [] 1 1 [] [] [] where
  ab := h.ab ▸ List.Forall₂.nil
  ba := h.ba ▸ List.Forall₂.nil
  noAcks m hm := absurd hm List.not_mem_nil
  onlyAcks m hm := absurd hm List.not_mem_nil
  dir := dir_start False h.openA h.openB (not_sending_of_idle h.idleA)
    (not_receiving_of_idle h.idleB)
  notReceiving := not_receiving_of_idle h.idleA
  notSending := not_sending_of_idle h.idleB
  sent := by rw [h.recordA]; rfl
  returned := by rw [h.recordA, h.idleA]; rfl
  delivered := h.recordB ▸ delivered_start h.exactB h.unreadB

/-- Nothing changes but the sender: its call goes on. -/
theorem OneWay.senderGoesOn (h : OneWay n done D K c old ks ms) {r : Res} {K' : Nat}
    {old' : List MsgT} {ks' : List Nat} {ms' : List MsgT} {ba' : List (List UInt8)}
    (hs : Sends D n.a.sock r)
    (hp : n.a.pc.idle = false) (hch : old' ++ ks'.map (pkt D) = old ++ ks.map (pkt D) ++ r.messages)
    (hsent : Sent D K r K')
    (hdir : Dir False D K' c old' ks' (acks ms') r.sock r.pc n.b.sock n.b.pc)
    (hba : Carries ba' ms') (hms : ∀ m ∈ ms', IsAck m) :
    OneWay ⟨n.a.went [] r, n.b, n.ab ++ r.datagrams, ba'⟩ done D K' c old' ks' ms' where
  ab := by
    rw [hch]
    refine h.ab.sent fun m hm => ?_
    obtain ⟨k, rfl⟩ := hs.messages m hm
    exact ⟨pkt_built D k, pkt_noFin D k⟩
  ba := hba
  noAcks m hm := by
    rw [hch] at hm
    rcases List.mem_append.mp hm with hm | hm
    · exact h.noAcks m hm
    · obtain ⟨k, rfl⟩ := hs.messages m hm
      exact pkt_noAck D k
  onlyAcks := hms
  dir := hdir
  notReceiving := hs.notReceiving
  notSending := h.notSending
  sent := by simpa [hs.sends] using h.sent
  returned := by
    have hret := h.returned
    simp only [hp, Bool.false_eq_true, if_false] at hret
    rw [went_record, List.append_nil]
    exact hsent.returned hs hret
  delivered := h.delivered

/-- A send starts. -/
theorem OneWay.begins (h : OneWay n done D K c old ks ms) (hp : n.a.pc.idle = true)
    (data : List UInt8) :
    OneWay ⟨n.a.went [.called (.send data)] (start n.a.sock (.send data)), n.b,
      n.ab ++ (start n.a.sock (.send data)).datagrams, n.ba⟩ (done ++ [D]) data 0 0 old [0] ms := by
  have hns := not_sending_of_idle hp
  have hK : K = nfrag D + 1 := le_antisymm h.dir.K_le (h.dir.sender.done hns)
  have hc : c = nfrag D + 1 ∨ (c = 0 ∧ nfrag D = 0) := by
    have := h.dir.K_le_c
    have := h.dir.c_le
    omega
  obtain ⟨hsends, hdone, _, hpc⟩ := went_send h.dir.openA data
  rw [send_start h.dir.openA] at hsends hdone hpc ⊢
  have hold : old ++ ks.map (pkt D) = old := by
    rw [h.dir.ksDone (by omega), List.map_nil, List.append_nil]
  have hnew : Carries (n.ab ++ [pkt data 0].map MsgT.wire) (old ++ [pkt data 0]) := by
    refine Carries.sent (hold ▸ h.ab) fun m hm => ?_
    rw [List.mem_singleton] at hm
    exact hm ▸ ⟨pkt_built data 0, pkt_noFin data 0⟩
  exact
    { ab := hnew
      ba := h.ba
      noAcks := fun m hm => by
        rcases List.mem_append.mp hm with hm | hm
        · exact h.noAcks m (List.mem_append_left _ hm)
        · rw [List.map_singleton, List.mem_singleton] at hm
          exact hm ▸ pkt_noAck data 0
      onlyAcks := h.onlyAcks
      dir := h.dir.begin hns h.dir.openA.sendStarted rfl data fun h => h.elim
      notReceiving := not_receiving_of_sending (sendPc_sending data 0)
      notSending := h.notSending
      sent := by rw [hsends, ← h.sent, List.cons_append]
      returned := by
        have hret := h.returned
        simp only [hp, if_true] at hret
        rw [hdone, hsends, hpc, sendPc_busy, List.length_append, ← hret]
        rfl
      delivered := h.delivered.next hc data }

/-- A call of the sender in progress is a send. -/
theorem OneWay.inSend (h : OneWay n done D K c old ks ms) (hp : n.a.pc.idle = false) :
    K ≤ nfrag D :=
  h.dir.sender.busy ((sending_or_receiving hp).resolve_right (by simp [h.notReceiving]))

/-- Every step of side A keeps the invariant. -/
theorem OneWay.stepA (h : OneWay n done D K c old ks ms) (hok : oneWay n (.A, act))
    (hact : Acts n.a n.ab n.ba act a' ab' ba') : OneWayAt ⟨a', n.b, ab', ba'⟩ := by
  cases hact with
  | call call hp =>
    cases call with
    | recv L => exact hok.elim
    | send data => exact ⟨_, _, _, _, _, _, _, h.begins hp data⟩
  | timeout hp ht =>
    have hK := h.inSend hp
    obtain ⟨hmsg, hsends, hsent, hdir⟩ := h.dir.sender_timeout hK
    refine ⟨done, D, K, c, old, ks ++ [K], ms,
      h.senderGoesOn hsends hp ?_ hsent hdir h.ba h.onlyAcks⟩
    rw [hmsg, List.map_append, List.append_assoc]
    rfl
  | receive errno d inc' hp hinc =>
    have hK := h.inSend hp
    have hba := h.ba
    rw [hinc] at hba
    obtain ⟨m, ms', hd, hba', rfl⟩ := List.forall₂_cons_left_iff.mp hba
    have hdir : Dir False D K c old ks (acks [m] ++ acks ms') n.a.sock n.a.pc n.b.sock n.b.pc := by
      rw [← acks_append]
      exact h.dir
    obtain ⟨hsends, K', old', ks', hch, hsent, hdir'⟩ := hdir.sender_receives hK hd
      (fun _ _ => h.onlyAcks m List.mem_cons_self) errno n.a.sock.endPoint_
    exact ⟨done, D, K', c, old', ks', ms', h.senderGoesOn hsends hp hch hsent hdir' hba'
      fun m hm => h.onlyAcks m (List.mem_cons_of_mem _ hm)⟩
  | lose i hi =>
    obtain ⟨old', ks', hch, hdir⟩ := h.dir.loses i
    exact ⟨done, D, K, c, old', ks', ms,
      { h with
        ab := hch ▸ carries_lose h.ab i
        noAcks := fun m hm => h.noAcks m ((List.eraseIdx_sublist _ _).subset (hch ▸ hm))
        dir := hdir }⟩
  | cut i k d hd hk =>
    exact ⟨done, D, K, c, old, ks, ms, { h with ab := h.ab.cut hd k }⟩

/-- Nothing changes but the receiver: its call goes on. -/
theorem OneWay.receiverGoesOn (h : OneWay n done D K c old ks ms) {r : Res} {c' : Nat}
    {old' : List MsgT} {ks' : List Nat} {ab' : List (List UInt8)} (hr : Receives r)
    (hrec : Received D n.b.sock.buffer_ r c c')
    (hdir : Dir False D K c' old' ks' (acks ms ++ acks r.messages) n.a.sock n.a.pc r.sock r.pc)
    (hab : Carries ab' (old' ++ ks'.map (pkt D)))
    (hsub : ∀ m ∈ old' ++ ks'.map (pkt D), m ∈ old ++ ks.map (pkt D)) :
    OneWay ⟨n.a, n.b.went [] r, ab', n.ba ++ r.datagrams⟩ done D K c' old' ks' (ms ++ r.messages)
    where
  ab := hab
  ba := h.ba.sent fun m hm => (hr.messages m hm).built
  noAcks m hm := h.noAcks m (hsub m hm)
  onlyAcks m hm := by
    rcases List.mem_append.mp hm with hm | hm
    · exact h.onlyAcks m hm
    · exact hr.messages m hm
  dir := by rwa [acks_append]
  notReceiving := h.notReceiving
  notSending := hr.notSending
  sent := h.sent
  returned := h.returned
  delivered := by
    rw [went_record, List.append_nil]
    exact h.delivered.received hrec

/-- Every step of side B keeps the invariant. -/
theorem OneWay.stepB (h : OneWay n done D K c old ks ms) (hok : oneWay n (.B, act))
    (hact : Acts n.b n.ba n.ab act b' ba' ab') : OneWayAt ⟨n.a, b', ab', ba'⟩ := by
  cases hact with
  | call call hp =>
    cases call with
    | send data => exact hok.elim
    | recv L =>
      have hdir := h.dir.receiver_starts hp L
      refine ⟨done, D, K, c, old, ks, ms, ?_⟩
      rw [recv_start h.dir.openB] at hdir ⊢
      exact
        { h with
          ba := (List.append_nil n.ba).symm ▸ h.ba
          dir := hdir
          notSending := rfl
          delivered := by
            rw [went_record, List.append_assoc]
            exact h.delivered.entries rfl rfl }
  | timeout hp ht =>
    have hr := (sending_or_receiving hp).resolve_left (by simp [h.notSending])
    obtain ⟨hrecv, hmsg, hrec, hdir⟩ := h.dir.receiver_timeout hr
    refine ⟨done, D, K, c, old, ks, ms ++ _, h.receiverGoesOn hrecv hrec ?_ h.ab fun _ hm => hm⟩
    rw [hmsg]
    simpa [acks] using hdir
  | receive errno d inc' hp hinc =>
    have hr := (sending_or_receiving hp).resolve_left (by simp [h.notSending])
    have hab := h.ab
    rw [hinc] at hab
    obtain ⟨m, rest, hd, hab', hch⟩ := List.forall₂_cons_left_iff.mp hab
    have hack : m.hasFlag ACK = false := h.noAcks m (hch ▸ List.mem_cons_self)
    obtain ⟨hrecv, c', old', ks', hrest, hrec, hdir⟩ := h.dir.receiver_receives hr hd hch
      (fun _ _ _ _ => hack) errno n.b.sock.endPoint_
    exact ⟨done, D, K, c', old', ks', ms ++ _, h.receiverGoesOn hrecv hrec hdir (hrest ▸ hab')
      fun m hm => hch ▸ List.mem_cons_of_mem _ (hrest ▸ hm)⟩
  | lose i hi =>
    exact ⟨done, D, K, c, old, ks, ms.eraseIdx i,
      { h with
        ba := carries_lose h.ba i
        onlyAcks := fun m hm => h.onlyAcks m ((List.eraseIdx_sublist _ _).subset hm)
        dir := h.dir.weaken (List.Sublist.refl _) (List.Sublist.refl _)
          (acks_sublist (List.eraseIdx_sublist _ _)) }⟩
  | cut i k d hd hk =>
    exact ⟨done, D, K, c, old, ks, ms, { h with ba := h.ba.cut hd k }⟩

theorem OneWayAt.step {n n' : Net} {act : Side × Act} (h : OneWayAt n) (hok : oneWay n act)
    (hs : n.step act = some n') : OneWayAt n' := by
  obtain ⟨done, D, K, c, old, ks, ms, h⟩ := h
  obtain ⟨a', b', ab', ba'⟩ := n'
  obtain ⟨side, act⟩ := act
  cases side with
  | A =>
    obtain ⟨hact, rfl⟩ := stepA_acts hs
    exact h.stepA hok hact
  | B =>
    obtain ⟨hact, rfl⟩ := stepB_acts hs
    exact h.stepB hok hact

end Steps

/-- Every reachable state has the invariant. -/
theorem oneWayAt_of_reach {n0 n : Net} (h0 : Connected n0) (h : Reach Net.step oneWay n0 n) :
    OneWayAt n :=
  h.invariant ⟨_, _, _, _, _, _, _, h0.oneWay⟩ fun _ _ _ hI hok hs => hI.step hok hs

/-! ## The result -/

section Result

variable {n : Net} {done : List (List UInt8)} {D : List UInt8} {K c : Nat} {old : List MsgT}
  {ks : List Nat} {ms : List MsgT}

theorem OneWay.sends_flatten (h : OneWay n done D K c old ks ms) :
    (sends n.a.record).flatten = (done ++ [D]).flatten := by
  rw [← h.sent]
  rfl

/-- The data of the sends that have returned. -/
theorem OneWay.returned_isPrefix (h : OneWay n done D K c old ks ms) :
    ((sends n.a.record).take (sendsDone n.a.record)).flatten <+: storedBytes n.b.record := by
  refine h.delivered.returned h.sent h.returned fun hp => ?_
  have hK := h.dir.sender.done (not_sending_of_idle hp)
  have hKc := h.dir.K_le_c
  have hKle := h.dir.K_le
  have hcle := h.dir.c_le
  omega

end Result

/-- In every run of a sender and a receiver: what recv returned, followed by what is in the buffer,
    is a prefix of what was sent; every result of recv lies inside the data of one send, in its
    place; and what was queued is just these bytes, among them all data of the sends that have
    returned. -/
theorem delivery {n0 n : Net} (h0 : Connected n0) (h : Reach Net.step oneWay n0 n) :
    (recvs n.b.record).flatten ++ n.b.sock.buffer_.unread.flatten <+: (sends n.a.record).flatten ∧
    (∀ pre r post, recvs n.b.record = pre ++ r :: post → Inside (sends n.a.record) pre.flatten r) ∧
    storedBytes n.b.record = (recvs n.b.record).flatten ++ n.b.sock.buffer_.unread.flatten ∧
    ((sends n.a.record).take (sendsDone n.a.record)).flatten <+: storedBytes n.b.record := by
  obtain ⟨done, D, K, c, old, ks, ms, hI⟩ := oneWayAt_of_reach h0 h
  refine ⟨?_, fun pre r post hr => ?_, hI.delivered.stored, hI.returned_isPrefix⟩
  · rw [hI.sends_flatten]
    exact hI.delivered.isPrefix
  · have hin := hI.delivered.pieces pre r post hr
    rw [← hI.sent] at hin
    exact hin.of_cons_nil

/-- A run that delivers one byte: its fragment and its marker arrive and are answered, and the
    timer ends finalizeRecv. -/
def oneByteRun : List (Side × Act) :=
  [(.A, .call (.send [97])), (.B, .call (.recv 4)), (.B, .receive .EAGAIN), (.A, .receive .EAGAIN),
   (.B, .receive .EAGAIN), (.A, .receive .EAGAIN), (.B, .timeout)]

theorem delivery_oneByte : ∃ n, Reach Net.step oneWay Net.pair n ∧
    recvs n.b.record = [[97]] ∧ sendsDone n.a.record = 1 ∧
    ((sends n.a.record).take (sendsDone n.a.record)).flatten <+: storedBytes n.b.record := by
  have hrun : ((exec Net.step oneWay Net.pair oneByteRun).map fun n =>
      (recvs n.b.record, sendsDone n.a.record)) = some ([[97]], 1) := by
    decide +kernel
  obtain ⟨n, hn, hres⟩ := Option.map_eq_some_iff.mp hrun
  have hreach := reach_of_exec hn
  exact ⟨n, hreach, congrArg Prod.fst hres, congrArg Prod.snd hres,
    (delivery connected_pair hreach).2.2.2⟩

end Ece358.Rcs
