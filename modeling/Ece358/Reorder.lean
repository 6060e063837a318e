/-
  File:      Ece358/Reorder.lean
  Subject:   The same two endpoints on a network that reorders and duplicates.

  A sends, B receives, and the channels are those of UDP: a datagram can overtake others and can
  be duplicated, besides getting lost. Numbers start at 0 with every send, so a copy that is old
  enough passes for a part of a later send. What is proved is how old a copy may get: it is gone
  when its number is awaited again.

  * `Net.udpStep`, `udp` -- the steps of this network, and those of a sender and a receiver on it;
  * `OldIsGone`, `timely` -- the runs in which old copies are gone in time;
  * `Clean` -- the invariant: what is on its way can do no harm (`Tame`);
  * `Clean.sender_receives`, `Clean.loop_receives`, `Clean.finalize_receives` -- its steps;
  * `delivery_timely` -- the result;
  * `bleeds` -- what happens where a copy lives longer.
-/
import Ece358.OneWay

namespace Ece358.Rcs

open Lib MsgT

/-! ## 1. The network -/

/-- What can happen on one side: what could happen before, and that in the channel away from it
    the `i`th datagram overtakes all in front of it, or is duplicated. -/
inductive UdpAct where
  | act (a : Act)
  | overtake (i : Nat)
  | duplicate (i : Nat)
  deriving DecidableEq

def Net.udpStepA (n : Net) : UdpAct → Option Net
  | .act a => n.stepA a
  | .overtake i => n.ab[i]?.map fun d => { n with ab := d :: n.ab.eraseIdx i }
  | .duplicate i => n.ab[i]?.map fun d => { n with ab := n.ab ++ [d] }

def Net.udpStep (n : Net) : Side × UdpAct → Option Net
  | (.A, act) => n.udpStepA act
  | (.B, act) => (n.swap.udpStepA act).map Net.swap

/-- On side A an action is taken, or the channel away from A is rearranged. -/
theorem udpStepA_cases {n n' : Net} {act : UdpAct} (h : n.udpStep (.A, act) = some n') :
    (∃ a, act = .act a ∧ Acts n.a n.ab n.ba a n'.a n'.ab n'.ba ∧ n'.b = n.b) ∨
    (n'.ab ⊆ n.ab ∧ n'.a = n.a ∧ n'.b = n.b ∧ n'.ba = n.ba) := by
  cases act with
  | act a => exact Or.inl ⟨a, rfl, stepA_acts h⟩
  | overtake i =>
    obtain ⟨d, hd, rfl⟩ := Option.map_eq_some_iff.mp h
    refine Or.inr ⟨fun x hx => ?_, rfl, rfl, rfl⟩
    rcases List.mem_cons.mp hx with rfl | hx
    · exact List.mem_of_getElem? hd
    · exact (List.eraseIdx_sublist _ _).subset hx
  | duplicate i =>
    obtain ⟨d, hd, rfl⟩ := Option.map_eq_some_iff.mp h
    refine Or.inr ⟨fun x hx => ?_, rfl, rfl, rfl⟩
    rcases List.mem_append.mp hx with hx | hx
    · exact hx
    · rw [List.mem_singleton] at hx
      exact hx ▸ List.mem_of_getElem? hd

/-- On side B an action is taken, or the channel away from B is rearranged. -/
theorem udpStepB_cases {n n' : Net} {act : UdpAct} (h : n.udpStep (.B, act) = some n') :
    (∃ a, act = .act a ∧ Acts n.b n.ba n.ab a n'.b n'.ba n'.ab ∧ n'.a = n.a) ∨
    (n'.ba ⊆ n.ba ∧ n'.b = n.b ∧ n'.a = n.a ∧ n'.ab = n.ab) := by
  obtain ⟨t, ht, rfl⟩ := Option.map_eq_some_iff.mp h
  exact udpStepA_cases (n := n.swap) ht

/-! ## 2. How long copies live -/

/-- No first fragment is among the datagrams. -/
def NoFirst (ds : List (List UInt8)) : Prop := ∀ d ∈ ds, RcsT.startsNext (ofDatagram d) = false

/-- No whole message with the number `v` is among them. -/
def NoNumber (v : UInt16) (ds : List (List UInt8)) : Prop := ∀ d ∈ ds, ¬ Whole v d

/-- No whole marker is among them. -/
def NoMarker (ds : List (List UInt8)) : Prop :=
  ∀ d ∈ ds, accepted d = true → (ofDatagram d).hasFlag EOS = false

instance (ds : List (List UInt8)) : Decidable (NoFirst ds) :=
  inferInstanceAs (Decidable (∀ d ∈ ds, _ = false))

instance (v : UInt16) (ds : List (List UInt8)) : Decidable (NoNumber v ds) :=
  inferInstanceAs (Decidable (∀ d ∈ ds, ¬ Whole v d))

instance (ds : List (List UInt8)) : Decidable (NoMarker ds) :=
  inferInstanceAs (Decidable (∀ d ∈ ds, _ → _ = false))

/-- A sends and B receives, and no datagram is damaged. -/
def udp (_ : Net) : Side × UdpAct → Prop
  | (_, .act (.cut _ _)) => False
  | (.A, .act (.call (.recv _))) => False
  | (.B, .act (.call (.send _))) => False
  | _ => True

instance (n : Net) : DecidablePred (udp n)
  | (.A, .act (.cut _ _)) => isFalse id
  | (.B, .act (.cut _ _)) => isFalse id
  | (.A, .act (.call (.recv _))) => isFalse id
  | (.B, .act (.call (.send _))) => isFalse id
  | (.A, .act (.call (.send _))) => isTrue trivial
  | (.B, .act (.call (.recv _))) => isTrue trivial
  | (.A, .act .timeout) => isTrue trivial
  | (.B, .act .timeout) => isTrue trivial
  | (.A, .act (.receive _)) => isTrue trivial
  | (.B, .act (.receive _)) => isTrue trivial
  | (.A, .act (.lose _)) => isTrue trivial
  | (.B, .act (.lose _)) => isTrue trivial
  | (.A, .overtake _) => isTrue trivial
  | (.B, .overtake _) => isTrue trivial
  | (.A, .duplicate _) => isTrue trivial
  | (.B, .duplicate _) => isTrue trivial

/-- When the acknowledgement of a fragment arrives, none with the next number is on its way. -/
def AnswerInTime (inc : List (List UInt8)) : Pc → Prop
  | .sendFragment _ _ msg =>
    Whole msg.seqnum (inc.headD []) → NoNumber (msg.seqnum + 1) inc.tail
  | _ => True

instance (inc : List (List UInt8)) : DecidablePred (AnswerInTime inc)
  | .sendFragment _ _ _ => inferInstanceAs (Decidable (_ → _))
  | .sendEos _ _ => isTrue trivial
  | .recvLoop _ => isTrue trivial
  | .finalizeRecv _ _ _ => isTrue trivial
  | .returned _ => isTrue trivial

/-- When recv takes a fragment, nothing with the next number and no marker is on its way. When a
    first fragment ends finalizeRecv, no other is on its way, but where the sender has just started
    a send (it awaits 0). -/
def TakenInTime (s : RcsT) (awaited : Option UInt16) (inc : List (List UInt8)) : Pc → Prop
  | .recvLoop _ =>
    Whole s.recvSeqnum_ (inc.headD []) → (ofDatagram (inc.headD [])).length ≠ 0 →
      NoNumber (s.recvSeqnum_ + 1) inc.tail ∧ NoMarker inc.tail
  | .finalizeRecv _ _ _ =>
    RcsT.startsNext (ofDatagram (inc.headD [])) = true → awaited ≠ some 0 → NoFirst inc.tail
  | _ => True

instance (s : RcsT) (awaited : Option UInt16) (inc : List (List UInt8)) :
    DecidablePred (TakenInTime s awaited inc)
  | .recvLoop _ => inferInstanceAs (Decidable (_ → _ → _ ∧ _))
  | .finalizeRecv _ _ _ => inferInstanceAs (Decidable (_ → _ → _))
  | .sendFragment _ _ _ => isTrue trivial
  | .sendEos _ _ => isTrue trivial
  | .returned _ => isTrue trivial

/-- What is old is gone when its number is awaited again. A send starts when nothing with number 0
    is on its way, nor an answer with 0 to come (from the finalizeRecv of an empty send), and its
    own numbers last. -/
def OldIsGone (n : Net) : Side × UdpAct → Prop
  | (.A, .act (.call (.send data))) =>
    NoNumber 0 n.ab ∧ NoNumber 0 n.ba ∧ (pend n.b.sock n.b.pc = 0 → n.ab = []) ∧
      nfrag data ≤ 65535
  | (.A, .act (.receive _)) => AnswerInTime n.ba n.a.pc
  | (.B, .act .timeout) =>
    n.b.pc.finalizing = true → n.a.pc.awaited ≠ some 0 → NoFirst n.ab
  | (.B, .act (.receive _)) => TakenInTime n.b.sock n.a.pc.awaited n.ab n.b.pc
  | _ => True

instance (n : Net) : DecidablePred (OldIsGone n)
  | (.A, .act (.call (.send _))) => inferInstanceAs (Decidable (_ ∧ _ ∧ (_ → _) ∧ _))
  | (.A, .act (.receive _)) => inferInstanceAs (Decidable (AnswerInTime _ _))
  | (.B, .act .timeout) => inferInstanceAs (Decidable (_ → _ → _))
  | (.B, .act (.receive _)) => inferInstanceAs (Decidable (TakenInTime _ _ _ _))
  | (.A, .act (.call (.recv _))) => isTrue trivial
  | (.B, .act (.call _)) => isTrue trivial
  | (.A, .act .timeout) => isTrue trivial
  | (.A, .act (.lose _)) => isTrue trivial
  | (.B, .act (.lose _)) => isTrue trivial
  | (.A, .act (.cut _ _)) => isTrue trivial
  | (.B, .act (.cut _ _)) => isTrue trivial
  | (.A, .overtake _) => isTrue trivial
  | (.B, .overtake _) => isTrue trivial
  | (.A, .duplicate _) => isTrue trivial
  | (.B, .duplicate _) => isTrue trivial

/-- The steps that find nothing old where it can do harm. -/
def timely (n : Net) (act : Side × UdpAct) : Prop := udp n act ∧ OldIsGone n act

instance (n : Net) : DecidablePred (timely n) := fun _ => inferInstanceAs (Decidable (_ ∧ _))

/-! ## 3. The invariant -/

/-- A message on its way to a receiver that has `c` messages of `send(D)`, when the sender has come
    to message `K`: where it has the number that is expected, it is the message of this send; and no
    marker comes before its time. -/
structure Tame (D : List UInt8) (K c : Nat) (m : MsgT) : Prop where
  sent : SentAs m.wire m
  zero : m.seqnum = 0 → m = pkt D 0
  next : c ≤ nfrag D → m.seqnum = num c → m = pkt D c ∧ c ≤ K
  marker : 1 ≤ c → c ≤ nfrag D → m.hasFlag EOS = true → m = pkt D c

/-- The sender repeats message `K` of `send(D)`, the receiver has `c` messages of it, and what is
    on its way (`ms` there, `ns` back) can do no harm. Where the receiver has nothing of this send
    yet, it may still be in the finalizeRecv of the last one. -/
structure Clean (D : List UInt8) (K c : Nat) (ms ns : List MsgT) (sa : RcsT) (pa : Pc) (sb : RcsT)
    (pb : Pc) : Prop where
  openA : Open sa
  openB : Open sb
  short : nfrag D ≤ 65535
  sender : SenderAt D K sa pa
  receiver : ReceiverAt (nfrag D) c sb pb
  K_le : K ≤ nfrag D + 1
  c_le : c ≤ nfrag D + 1
  K_le_c : K ≤ c
  c_le_K : c ≤ K + 1
  there : ∀ m ∈ ms, Tame D K c m
  back : ∀ m ∈ ns, ∃ v, m = control v ACK ∧ (K ≤ nfrag D → v = num K → K < c)
  ready : 1 ≤ c → pend sb pb = num (c - 1) ∨ (pend sb pb = 65535 ∧ c = nfrag D + 1)
  unready : c = 0 → pend sb pb ≠ 0 ∨ (0 < nfrag D ∧ ∀ m ∈ ms, m = pkt D 0)
  finished : pb.finalizing = true → c = 0 ∨ c = nfrag D + 1
  waiting : c = nfrag D + 1 → pb.finalizing = false → 0 < nfrag D → pkt D 0 ∉ ms

section Clean

variable {D : List UInt8} {K c j k n : Nat} {ms ms' ns ns' : List MsgT} {sa sa' : RcsT}
  {pa pa' : Pc} {s sb sb' : RcsT} {pb pb' : Pc} {m : MsgT} {e : Errno} {src : SockaddrIn} {L : Nat}
  {u : UInt16}

/-- The numbers of a send that is not too long are different. -/
theorem num_inj (hj : j ≤ 65535) (hk : k ≤ 65535) (h : num j = num k) : j = k := by
  rw [num_eq_iff] at h
  omega

theorem num_ne_zero (hk : k ≤ 65535) (h0 : k ≠ 0) : num k ≠ 0 := fun h =>
  h0 (num_inj hk (Nat.zero_le _) h)

theorem pkt_zero_ne (hn : nfrag D ≤ 65535) (hk : k ≤ nfrag D) (h0 : k ≠ 0) :
    pkt D 0 ≠ pkt D k := by
  intro h
  have hs := congrArg MsgT.seqnum h
  rw [pkt_seqnum, pkt_seqnum] at hs
  exact h0 (num_inj (Nat.zero_le _) (by omega) hs).symm

theorem startsNext_pkt (h : 0 < nfrag D) : RcsT.startsNext (pkt D 0) = true := by
  have ha := accepted_wire (pkt_built D 0)
  rw [accepted, ofDatagram_wire (pkt_built D 0), Bool.and_eq_true] at ha
  simp [RcsT.startsNext, ha.1, num_zero, pkt_length_ne_zero h]

/-- What the sender has sent up to now does no harm. -/
theorem tame_pkt (hn : nfrag D ≤ 65535) (hk : k ≤ nfrag D) (hkK : k ≤ K) (hKc : K ≤ c) :
    Tame D K c (pkt D k) where
  sent := SentAs.refl (pkt_built D k) (pkt_noFin D k)
  zero h0 := by
    rw [pkt_seqnum] at h0
    rw [num_inj (by omega) (Nat.zero_le _) h0]
  next hcn hs := by
    rw [pkt_seqnum] at hs
    obtain rfl := num_inj (by omega) (by omega) hs
    exact ⟨rfl, hkK⟩
  marker _ hcn he := by
    rw [pkt_hasFlag_eos, decide_eq_true_eq] at he
    rw [show k = c by omega]

/-- What is neither the next message nor a marker does no harm when the receiver has one more. -/
theorem Tame.advance (h : Tame D K c m)
    (hno : c < nfrag D → m.seqnum ≠ num (c + 1) ∧ m.hasFlag EOS = false) :
    Tame D K (c + 1) m where
  sent := h.sent
  zero := h.zero
  next hcn hs := absurd hs (hno hcn).1
  marker _ hcn he := absurd he (by rw [(hno hcn).2]; decide)

/-- The sender goes on. -/
theorem Tame.later (h : Tame D K c m) : Tame D (K + 1) c m :=
  { h with next := fun hcn hs => (h.next hcn hs).imp_right fun hcK => Nat.le_succ_of_le hcK }

/-- When a send starts, what is on its way has other numbers than 0. -/
theorem Tame.old {D' : List UInt8} (h : Tame D K c m) (h0 : m.seqnum ≠ 0)
    (hj : j = 0 ∨ nfrag D' < j) : Tame D' 0 j m where
  sent := h.sent
  zero hs := absurd hs h0
  next hj hs := by
    obtain rfl : j = 0 := by omega
    exact absurd hs h0
  marker h1 hj := by omega

/-- What is on its way can become fewer. -/
theorem Clean.fewer (h : Clean D K c ms ns sa pa sb pb) (hm : ms' ⊆ ms) (hn : ns' ⊆ ns) :
    Clean D K c ms' ns' sa pa sb pb :=
  { h with
    there := fun m hmem => h.there m (hm hmem)
    back := fun m hmem => h.back m (hn hmem)
    unready := fun hc => (h.unready hc).imp_right (And.imp_right fun hall m hmem =>
      hall m (hm hmem))
    waiting := fun hc hp h0 hmem => h.waiting hc hp h0 (hm hmem) }

/-- A send starts. The receiver has nothing of it, unless it is empty and the one before it was
    empty: then the acknowledgement of that one is good for both. -/
theorem Clean.begin {D' : List UInt8} (h : Clean D K c ms ns sa pa sb pb)
    (hp : pa.sending = false) (ho : Open sa') (hs : sa'.sendSeqnum_ = 0)
    (hms : ∀ m ∈ ms, m.seqnum ≠ 0) (hns : ∀ m ∈ ns, m.seqnum ≠ 0) (hD : nfrag D' ≤ 65535)
    (hj : (j = 0 ∧ (pend sb pb ≠ 0 ∨ (0 < nfrag D' ∧ ms = []))) ∨
      (j = 1 ∧ pend sb pb = 0 ∧ nfrag D' = 0)) :
    Clean D' 0 j (ms ++ [pkt D' 0]) ns sa' (sendPc D' 0) sb pb where
  openA := ho
  openB := h.openB
  short := hD
  sender := senderAt_sending hs (Nat.zero_le _)
  receiver := by
    have := h.sender.done hp
    have := h.K_le_c
    have := h.c_le
    exact receiverAt_between (h.receiver.between (by omega)) (by omega)
  K_le := Nat.zero_le _
  c_le := by omega
  K_le_c := Nat.zero_le _
  c_le_K := by omega
  there m hm := by
    rcases List.mem_append.mp hm with hm | hm
    · exact (h.there m hm).old (hms m hm) (by omega)
    · rw [List.mem_singleton.mp hm]
      exact tame_pkt hD (Nat.zero_le _) (le_refl 0) (Nat.zero_le _)
  back m hm := by
    obtain ⟨v, rfl, _⟩ := h.back m hm
    exact ⟨v, rfl, fun _ hv => absurd hv (hns _ hm)⟩
  ready hc := by
    obtain ⟨rfl, hq, _⟩ := hj.resolve_left fun h0 => by omega
    exact Or.inl hq
  unready hc := by
    obtain ⟨_, hq⟩ := hj.resolve_right fun h1 => by omega
    exact hq.imp_right fun ⟨h0, hnil⟩ => ⟨h0, fun m hm => by
      rw [hnil, List.nil_append] at hm
      exact List.mem_singleton.mp hm⟩
  finished _ := by omega
  waiting hc _ h0 := by omega

/-- The sender repeats its message. -/
theorem Clean.repeats (h : Clean D K c ms ns sa pa sb pb) (hK : K ≤ nfrag D) (ho : Open sa')
    (hs : sa'.sendSeqnum_ = sa.sendSeqnum_) :
    Clean D K c (ms ++ [pkt D K]) ns sa' (sendPc D K) sb pb :=
  have hKc := h.K_le_c
  { h with
    openA := ho
    sender := senderAt_sending (hs.trans (h.sender.sending hK).2) hK
    there := fun m hm => by
      rcases List.mem_append.mp hm with hm | hm
      · exact h.there m hm
      · rw [List.mem_singleton.mp hm]
        exact tame_pkt h.short hK (le_refl K) hKc
    unready := fun hc => (h.unready hc).imp_right (And.imp_right fun hall m hm => by
      rcases List.mem_append.mp hm with hm | hm
      · exact hall m hm
      · rw [List.mem_singleton.mp hm, show K = 0 by omega])
    waiting := fun hc hp h0 hm => by
      rcases List.mem_append.mp hm with hm | hm
      · exact h.waiting hc hp h0 hm
      · have := h.c_le_K
        exact pkt_zero_ne h.short hK (by omega) (List.mem_singleton.mp hm) }

/-- The sender is answered, and the next number is not on its way back. -/
theorem Clean.advances (h : Clean D K c ms ns sa pa sb pb) (hc : K < c) (ho : Open sa')
    (hs : SenderAt D (K + 1) sa' pa')
    (hno : K < nfrag D → ∀ m ∈ ns, m.seqnum ≠ num (K + 1)) :
    Clean D (K + 1) c (ms ++ if K < nfrag D then [pkt D (K + 1)] else []) ns sa' pa' sb pb :=
  have hcK := h.c_le_K
  have hcle := h.c_le
  { h with
    openA := ho
    sender := hs
    K_le := by omega
    K_le_c := hc
    c_le_K := by omega
    there := fun m hm => by
      rcases List.mem_append.mp hm with hm | hm
      · exact (h.there m hm).later
      · split at hm
        next hlt =>
          rw [List.mem_singleton.mp hm]
          exact tame_pkt h.short hlt (le_refl _) hc
        next => cases hm
    back := fun m hm => by
      obtain ⟨v, rfl, _⟩ := h.back m hm
      exact ⟨v, rfl, fun hK hv => absurd hv (hno hK _ hm)⟩
    unready := fun h0 => by omega
    waiting := fun hc hp h0 hm => by
      rcases List.mem_append.mp hm with hm | hm
      · exact h.waiting hc hp h0 hm
      · split at hm
        next hlt => exact pkt_zero_ne h.short hlt (by omega) (List.mem_singleton.mp hm)
        next => cases hm }

/-- The sender's timer fires. -/
theorem Clean.sender_timeout (h : Clean D K c ms ns sa pa sb pb) (hK : K ≤ nfrag D) :
    let r := resume sa pa (.error .EAGAIN)
    Sends D sa r ∧ Sent D K r K ∧ Clean D K c (ms ++ r.messages) ns r.sock r.pc sb pb := by
  intro r
  have hr : r = ⟨sa, [sa.rawsend (pkt D K)], sendPc D K⟩ := by
    rw [show r = resume sa (sendPc D K) _ from by rw [← (h.sender.sending hK).1]]
    exact resume_sendPc_again (acksend_timeout h.openA _)
  rw [hr]
  have hsends := sends_again h.openA rfl sa D K
  exact ⟨hsends.1, hsends.2, h.repeats hK h.openA rfl⟩

/-- A datagram reaches the sender. -/
theorem Clean.sender_receives (h : Clean D K c ms (m :: ns) sa pa sb pb) (hK : K ≤ nfrag D)
    (hno : m.seqnum = num K → K < nfrag D → ∀ m' ∈ ns, m'.seqnum ≠ num (K + 1))
    (e : Errno) (src : SockaddrIn) :
    let r := resume sa pa (.datagram e m.wire src)
    Sends D sa r ∧ ∃ K', Sent D K r K' ∧ Clean D K' c (ms ++ r.messages) ns r.sock r.pc sb pb := by
  intro r
  obtain ⟨hpa, hsa⟩ := h.sender.sending hK
  have ho := h.openA.from src
  have hb : ({ sa with fromEndpoint_ := src } : RcsT).buffer_ = sa.buffer_ := rfl
  have hpop := h.fewer (List.Subset.refl ms) (List.subset_cons_self m ns)
  obtain ⟨v, rfl, hv⟩ := h.back m List.mem_cons_self
  have hd : SentAs (control v ACK).wire (control v ACK) :=
    SentAs.refl (built_ack v) (by rw [hasFlag_control]; rfl)
  rcases acksend_cases h.openA (pkt D K) hd e src with ⟨_, hs, ha⟩ | ⟨_, ha⟩
  · -- the awaited acknowledgement
    rw [pkt_seqnum] at hs
    obtain rfl : v = num K := hs
    obtain ⟨hsends, hsent, hat, hmsg⟩ := sends_acked ho hb hsa hK ha
    rw [← hpa] at hsends hsent hat hmsg
    refine ⟨hsends, K + 1, hsent, ?_⟩
    rw [hmsg]
    exact hpop.advances (hv hK rfl) hsends.isOpen hat (hno rfl)
  · -- another one
    have hr : r = ⟨{ sa with fromEndpoint_ := src }, [sa.rawsend (pkt D K)], sendPc D K⟩ := by
      rw [show r = resume sa (sendPc D K) _ from by rw [← hpa]]
      exact resume_sendPc_again ha
    rw [hr]
    have hsends := sends_again ho hb sa D K
    exact ⟨hsends.1, K, hsends.2, hpop.repeats hK ho rfl⟩

/-! ### The receiver -/

/-- The number the inner loop of recv waits for. -/
theorem Clean.expects (h : Clean D K c ms ns sa pa sb (.recvLoop L)) :
    (c ≤ nfrag D ∧ sb.recvSeqnum_ = num c) ∨ (c = nfrag D + 1 ∧ sb.recvSeqnum_ = 0) :=
  h.receiver.expects h.c_le

/-- A message with the number that recv expects is the next one, or the marker of an empty send
    once more. -/
theorem Clean.expected (h : Clean D K c ms ns sa pa sb (.recvLoop L)) (hm : m ∈ ms)
    (hs : m.seqnum = sb.recvSeqnum_) :
    (c ≤ nfrag D ∧ c ≤ K ∧ m = pkt D c) ∨ (nfrag D = 0 ∧ c = 1 ∧ m = pkt D 0) := by
  rcases h.expects with ⟨hc, he⟩ | ⟨hc, he⟩ <;> rw [he] at hs
  · obtain ⟨rfl, hcK⟩ := (h.there m hm).next hc hs
    exact Or.inl ⟨hc, hcK, rfl⟩
  · obtain rfl := (h.there m hm).zero hs
    by_cases h0 : 0 < nfrag D
    · exact absurd hm (h.waiting hc rfl h0)
    · exact Or.inr ⟨by omega, by omega, rfl⟩

/-- A receiver in recv that has nothing answers with 65535. -/
theorem Clean.loop_unready (h : Clean D K c ms ns sa pa sb (.recvLoop L)) (hc : c = 0) :
    pend sb (.recvLoop L) ≠ 0 := by
  subst hc
  rcases h.expects with ⟨_, he⟩ | ⟨h0, _⟩
  · rw [pend, he]
    decide
  · omega

/-- What the receiver answers with its own number is no answer to a message that it does not
    have. -/
theorem Clean.pend_has (h : Clean D K c ms ns sa pa sb pb) (hq : c = 0 → pend sb pb ≠ 0)
    (hK : K ≤ nfrag D) (hv : pend sb pb = num K) : K < c := by
  have hn := h.short
  have hKc := h.K_le_c
  have hcle := h.c_le
  rcases Nat.eq_zero_or_pos c with h0 | h0
  · obtain rfl : K = 0 := by omega
    exact absurd hv (hq h0)
  · rcases h.ready h0 with hp | ⟨_, hp⟩
    · have := num_inj (by omega) (by omega) (hv.symm.trans hp)
      omega
    · omega

/-- The receiver answers with the acknowledgement it has ready. -/
theorem Clean.repliesReady (h : Clean D K c ms ns sa pa sb pb) (hq : c = 0 → pend sb pb ≠ 0)
    (ho : Open sb') (hr : ReceiverAt (nfrag D) c sb' pb') (hp : pend sb' pb' = pend sb pb)
    (hf : pb'.finalizing = true → c = 0 ∨ c = nfrag D + 1)
    (hw : pb'.finalizing = false → pb.finalizing = false) :
    Clean D K c ms (ns ++ [control (pend sb pb) ACK]) sa pa sb' pb' :=
  { h with
    openB := ho
    receiver := hr
    back := fun m hm => by
      rcases List.mem_append.mp hm with hm | hm
      · exact h.back m hm
      · exact ⟨_, List.mem_singleton.mp hm, h.pend_has hq⟩
    ready := fun hc => hp ▸ h.ready hc
    unready := fun hc => Or.inl (hp ▸ hq hc)
    finished := hf
    waiting := fun hc hp => h.waiting hc (hw hp) }

/-- The receiver forgets the message it has finished. -/
theorem Clean.forgets (h : Clean D K c ms ns sa pa sb pb) (hc : c = 0 ∨ c = nfrag D + 1)
    (ho : Open sb') (hr : Between sb' pb') (hp : pend sb' pb' = 65535)
    (hf : pb'.finalizing = false) (hw : c = nfrag D + 1 → 0 < nfrag D → pkt D 0 ∉ ms) :
    Clean D K c ms ns sa pa sb' pb' :=
  { h with
    openB := ho
    receiver := receiverAt_between hr hc
    ready := fun h1 => Or.inr ⟨hp, by omega⟩
    unready := fun _ => Or.inl (by rw [hp]; decide)
    finished := fun h1 => absurd (hf.symm.trans h1) (by decide)
    waiting := fun hc _ => hw hc }

/-- The receiver takes message `k`: the next one, or the marker of an empty send once more. -/
theorem Clean.takes (h : Clean D K c ms ns sa pa sb pb) (hv : num k = u) (hc : c ≤ k + 1)
    (hcK : k ≤ K) (hk : k ≤ nfrag D) (hthere : ∀ m ∈ ms', Tame D K (k + 1) m) (ho : Open sb')
    (hr : ReceiverAt (nfrag D) (k + 1) sb' pb') (hp : pend sb' pb' = u)
    (hf : pb'.finalizing = true ↔ k = nfrag D) :
    Clean D K (k + 1) ms' (ns ++ [control u ACK]) sa pa sb' pb' :=
  have hn := h.short
  { h with
    openB := ho
    receiver := hr
    c_le := by omega
    K_le_c := le_trans h.K_le_c hc
    c_le_K := by omega
    there := hthere
    back := fun m hm => by
      rcases List.mem_append.mp hm with hm | hm
      · obtain ⟨w, rfl, ha⟩ := h.back m hm
        exact ⟨w, rfl, fun hK hw => lt_of_lt_of_le (ha hK hw) hc⟩
      · refine ⟨_, List.mem_singleton.mp hm, fun hK hw => ?_⟩
        have := num_inj (by omega) (by omega) (hv.trans hw)
        omega
    ready := fun _ => Or.inl (hp.trans hv.symm)
    unready := fun h0 => absurd h0 (Nat.succ_ne_zero k)
    finished := fun h1 => Or.inr (congrArg Nat.succ (hf.mp h1))
    waiting := fun hc h0 => absurd (h0.symm.trans (hf.mpr (Nat.succ.inj hc))) (by decide) }

/-- A message reaches the inner loop of recv. If it is taken, and is a fragment, neither the next
    number nor a marker is on its way. -/
theorem Clean.loop_receives (h : Clean D K c (m :: ms) ns sa pa sb (.recvLoop L))
    (hno : m.seqnum = sb.recvSeqnum_ → m.length ≠ 0 →
      ∀ m' ∈ ms, m'.seqnum ≠ sb.recvSeqnum_ + 1 ∧ m'.hasFlag EOS = false)
    (e : Errno) (src : SockaddrIn) :
    let r := resume sb (.recvLoop L) (.datagram e m.wire src)
    Receives r ∧ ∃ c', Received D sb.buffer_ r c c' ∧
      Clean D K c' ms (ns ++ r.messages) sa pa r.sock r.pc := by
  intro r
  have ho := h.openB.from src
  have hharm := h.there m List.mem_cons_self
  have hd := hharm.sent
  have hpop := h.fewer (List.subset_cons_self m ms) (List.Subset.refl ns)
  have hstay : ReceiverAt (nfrag D) c { sb with fromEndpoint_ := src } (.recvLoop L) := h.receiver
  refine ⟨receives_recvLoop h.openB hd L e src, ?_⟩
  rcases recvLoop_cases h.openB hd L e src with
    ⟨hw, _, _⟩ | ⟨_, hr⟩ | ⟨_, hs, he, hr⟩ | ⟨_, hs, he, hr⟩ | ⟨_, hs, he, hr⟩
  · exact absurd hw (wire_ne_nil hd.built)
  · -- it has another number
    refine ⟨c, ?_, ?_⟩ <;> simp only [r, hr]
    · exact .nothing rfl rfl rfl
    · exact hpop.repliesReady h.loop_unready ho hstay rfl (fun hf => absurd hf Bool.false_ne_true)
        fun _ => rfl
  · -- the next fragment
    rcases h.expected List.mem_cons_self hs with ⟨hc, hcK, rfl⟩ | ⟨h0, _, rfl⟩
    · rw [pkt_hasFlag_eos, decide_eq_false_iff_not] at he
      have hno' := hno hs (pkt_length_ne_zero (by omega))
      rw [pkt_seqnum] at hs
      rw [← hs, num_succ] at hno'
      have hq : (queue { sb with fromEndpoint_ := src } (pkt D c)).recvSeqnum_ = num (c + 1) := by
        show sb.recvSeqnum_ + 1 = _
        rw [← hs, num_succ]
      refine ⟨c + 1, ?_, ?_⟩ <;> simp only [r, hr]
      · exact .next hc rfl rfl rfl
      · refine hpop.takes hs (Nat.le_succ c) hcK hc
          (fun m' hm' => (hpop.there m' hm').advance fun _ => hno' m' hm') (ho.queue _)
          (receiverAt_mid hq (by omega)) ?_
          ⟨fun hf => absurd hf Bool.false_ne_true, fun hf => by omega⟩
        show (queue _ (pkt D c)).recvSeqnum_ - 1 = _
        rw [hq, num_succ_sub_one, hs]
    · rw [pkt_hasFlag_eos, decide_eq_false_iff_not] at he
      omega
  · -- the marker
    rcases h.expected List.mem_cons_self hs with ⟨hc, hcK, rfl⟩ | ⟨h0, rfl, rfl⟩ <;>
      rw [pkt_seqnum] at hs <;> rw [pkt_hasFlag_eos, decide_eq_true_eq] at he
    · refine ⟨c + 1, ?_, ?_⟩ <;> simp only [r, hr]
      · exact .next hc rfl rfl rfl
      · exact hpop.takes hs (Nat.le_succ c) hcK hc
          (fun m' hm' => (hpop.there m' hm').advance fun hlt => by omega)
          (ho.queue _).finalizing
          (receiverAt_between ⟨isAck_control _, startsNext_default⟩ (by omega)) rfl
          ⟨fun _ => by omega, fun _ => rfl⟩
    · have hpkt : pkt D 0 = control 0 EOS := by
        rw [pkt, if_neg (by omega)]
        rfl
      refine ⟨1, ?_, ?_⟩ <;> simp only [r, hr]
      · rw [hpkt]
        exact .again (by omega) rfl rfl rfl
      · exact hpop.takes hs (le_refl 1) (Nat.zero_le _) (Nat.zero_le _) hpop.there
          (ho.queue _).finalizing
          (receiverAt_between ⟨isAck_control _, startsNext_default⟩ (by omega)) rfl
          ⟨fun _ => by omega, fun _ => rfl⟩
  · -- a marker with another number
    have hc : c = 0 ∨ c = nfrag D + 1 := by
      by_contra hmid
      rcases h.expects with ⟨hcn, hse⟩ | ⟨hc, _⟩
      · refine hs ?_
        rw [hharm.marker (by omega) hcn he, pkt_seqnum, hse]
      · exact hmid (Or.inr hc)
    refine ⟨c, ?_, ?_⟩ <;> simp only [r, hr]
    · exact .nothing rfl rfl rfl
    · exact hpop.repliesReady h.loop_unready ho.finalizing
        (receiverAt_between ⟨isAck_readyAck _, startsNext_default⟩ hc) rfl
        (fun _ => hc) fun hf => absurd hf (Bool.false_ne_true ∘ Eq.symm)

/-- finalizeRecv ends, when no first fragment of the finished send is on its way any more. -/
theorem Clean.finalizeEnd {ack response : MsgT}
    (h : Clean D K c ms ns sa pa sb (.finalizeRecv L ack response)) (ho : Open s)
    (hb : s.buffer_ = sb.buffer_) (hno : c = nfrag D + 1 → 0 < nfrag D → pkt D 0 ∉ ms) :
    let r := s.finalizeEnd L
    Received D sb.buffer_ r c c ∧ Clean D K c ms (ns ++ r.messages) sa pa r.sock r.pc := by
  intro r
  have hc := h.finished rfl
  rcases finalizeEnd_cases ho L with ⟨he, hr⟩ | ⟨he, hr⟩ <;> simp only [r, hr]
  · refine ⟨.nothing hb rfl rfl, ?_⟩
    rw [show Res.messages _ = [] from rfl, List.append_nil]
    exact h.forgets hc ⟨ho.notClosing, ho.connected⟩ rfl rfl rfl hno
  · refine ⟨.read L hc (hb ▸ he) (by rw [← hb]) rfl (by rw [← hb]; rfl), ?_⟩
    rw [show Res.messages _ = [] from rfl, List.append_nil]
    exact h.forgets hc ⟨ho.notClosing, ho.connected⟩ trivial rfl rfl hno

/-- A message reaches finalizeRecv. -/
theorem Clean.finalize_receives {ack response : MsgT}
    (h : Clean D K c (m :: ms) ns sa pa sb (.finalizeRecv L ack response))
    (hno : RcsT.startsNext m = true → c = nfrag D + 1 → 0 < nfrag D → pkt D 0 ∉ ms) (e : Errno)
    (src : SockaddrIn) :
    let r := resume sb (.finalizeRecv L ack response) (.datagram e m.wire src)
    Receives r ∧ Received D sb.buffer_ r c c ∧
      Clean D K c ms (ns ++ r.messages) sa pa r.sock r.pc := by
  intro r
  have hd := (h.there m List.mem_cons_self).sent
  have hc := h.finished rfl
  obtain ⟨ha, hs⟩ : IsAck ack ∧ RcsT.startsNext response = false := h.receiver.between hc
  have hne := wire_ne_nil hd.built
  have hpop := h.fewer (List.subset_cons_self _ ms) (List.Subset.refl ns)
  refine ⟨receives_finalizeRecv h.openB hd ha hs L e src, ?_⟩
  rcases finalize_cases h.openB hd.noFinHere hs L ack e src with
    ⟨hend, hr⟩ | ⟨_, hgo, response', hs', hr⟩ <;> simp only [r, hr]
  · have hstarts : RcsT.startsNext m = true := by
      rcases hend with ⟨hw, _⟩ | ⟨_, hs⟩
      · exact absurd hw hne
      · rwa [ofDatagram_wire hd.built] at hs
    exact hpop.finalizeEnd (h.openB.from src) rfl (hno hstarts)
  · -- where it would answer with the number that the sender has just begun to await, all that
    -- comes are first fragments
    have hq : c = 0 → pend sb (.finalizeRecv L ack response) ≠ 0 := fun h0 => by
      refine (h.unready h0).resolve_right fun ⟨hn, hall⟩ => ?_
      have hgo' := hgo hne
      rw [ofDatagram_wire hd.built, hall m List.mem_cons_self, startsNext_pkt hn] at hgo'
      cases hgo'
    obtain ⟨v, rfl⟩ := ha
    refine ⟨.nothing rfl rfl rfl, ?_⟩
    exact hpop.repliesReady hq (h.openB.from src)
      (receiverAt_between ⟨isAck_control v, hs'⟩ hc) rfl (fun _ => hc) fun hf => nomatch hf

/-- The receiver's timer fires. -/
theorem Clean.receiver_timeout (h : Clean D K c ms ns sa pa sb pb) (hp : pb.receiving = true)
    (hno : pb.finalizing = true → c = nfrag D + 1 → 0 < nfrag D → pkt D 0 ∉ ms) :
    let r := resume sb pb (.error .EAGAIN)
    Receives r ∧ Received D sb.buffer_ r c c ∧
      Clean D K c ms (ns ++ r.messages) sa pa r.sock r.pc := by
  cases pb with
  | recvLoop L =>
    have hr : resume sb (.recvLoop L) (.error .EAGAIN) = ⟨sb, [], .recvLoop L⟩ :=
      recvPass_timeout h.openB L
    rw [hr]
    refine ⟨⟨h.openB, trivial, by simp [Res.messages], rfl, rfl, rfl, rfl⟩, .nothing rfl rfl rfl,
      ?_⟩
    exact (List.append_nil ns).symm ▸ h
  | finalizeRecv L ack response =>
    rw [finalize_timeout h.openB]
    exact ⟨receives_finalizeEnd h.openB L, h.finalizeEnd h.openB rfl (hno rfl)⟩
  | sendFragment _ _ _ => cases hp
  | sendEos _ _ => cases hp
  | returned _ => cases hp

/-- A recv starts. -/
theorem Clean.receiver_starts (h : Clean D K c ms ns sa pa sb pb) (hp : pb.idle = true) (L : Nat) :
    Clean D K c ms ns sa pa (recvStarted sb) (.recvLoop L) := by
  have hf : pb.finalizing = false := by cases pb <;> first | rfl | cases hp
  have hc := h.receiver.outside h.c_le (not_loop_of_not_receiving (not_receiving_of_idle hp))
  exact h.forgets hc h.openB.recvStarted rfl rfl rfl fun hc => h.waiting hc hf

/-- A sender whose last send the receiver has, and which had fragments, does not await 0. -/
theorem Clean.not_first (h : Clean D K c ms ns sa pa sb pb) (hc : c = nfrag D + 1)
    (h0 : 0 < nfrag D) : pa.awaited ≠ some 0 := by
  intro hv
  have hn := h.short
  have hcK := h.c_le_K
  have hK := h.sender.busy (awaited_sending hv)
  rw [(h.sender.sending hK).1, sendPc_awaited] at hv
  exact num_ne_zero (by omega) (by omega) (Option.some.inj hv)

end Clean

/-! ## 4. Messages, send by send -/

/-- The first `c` messages of a send. -/
def firstOf (D : List UInt8) (c : Nat) : List MsgT := (List.range c).map (pkt D)

/-- All messages of a send. -/
def packets (D : List UInt8) : List MsgT := firstOf D (nfrag D + 1)

/-- The messages, but not the markers of empty sends: recv may take such a marker twice. -/
def proper (ms : List MsgT) : List MsgT := ms.filter fun m => m ≠ control 0 EOS

@[simp] theorem proper_append (ms ms' : List MsgT) : proper (ms ++ ms') = proper ms ++ proper ms' :=
  List.filter_append ..

@[simp] theorem proper_nil : proper [] = [] := rfl

@[simp] theorem proper_eos : proper [control 0 EOS] = [] := by
  simp [proper]

theorem firstOf_succ (D : List UInt8) (c : Nat) : firstOf D (c + 1) = firstOf D c ++ [pkt D c] := by
  unfold firstOf
  rw [List.range_succ, List.map_append]
  rfl

theorem firstOf_nil_one : firstOf [] 1 = [control 0 EOS] :=
  congrArg (fun m => [m]) (pkt_eos [])

section Records

variable {D : List UInt8} {K K' c c' : Nat} {b : MsgBufferT} {r : Res} {record : List Entry}
  {before : List MsgT}

theorem Received.queued_proper (h : Received D b r c c')
    (hq : proper (queued record) = proper (before ++ firstOf D c)) :
    proper (queued (record ++ r.entries)) = proper (before ++ firstOf D c') := by
  rw [queued_append, proper_append, hq]
  cases h with
  | nothing _ hq' _ => rw [hq', proper_nil, List.append_nil]
  | again _ _ hq' _ => rw [hq', proper_eos, List.append_nil]
  | next _ _ hq' _ => rw [hq', firstOf_succ, ← List.append_assoc, proper_append _ [pkt D c]]
  | read _ _ _ _ hq' _ => rw [hq', proper_nil, List.append_nil]

theorem Sent.acked_proper (h : Sent D K r K')
    (ha : proper (acked record) = proper (before ++ firstOf D K)) :
    proper (acked (record ++ r.entries)) = proper (before ++ firstOf D K') := by
  rw [acked_append, proper_append, ha]
  cases h with
  | again ha' _ _ => rw [ha', proper_nil, List.append_nil]
  | next _ ha' _ _ => rw [ha', firstOf_succ, ← List.append_assoc, proper_append _ [pkt D K]]
  | last _ ha' _ _ => rw [ha', firstOf_succ, ← List.append_assoc, proper_append _ [pkt D K]]

end Records

/-! ## 5. Every step -/

/-- The invariant of the system: the sends before the current one, the current one, how far the
    two sides are with it, and what the two channels carry. -/
structure Reordered (n : Net) (done : List (List UInt8)) (D : List UInt8) (K c : Nat)
    (ms ns : List MsgT) : Prop where
  ab : n.ab = ms.map MsgT.wire
  ba : n.ba = ns.map MsgT.wire
  clean : Clean D K c ms ns n.a.sock n.a.pc n.b.sock n.b.pc
  notReceiving : n.a.pc.receiving = false
  notSending : n.b.pc.sending = false
  sent : [] :: sends n.a.record = done ++ [D]
  returned : sendsDone n.a.record + (if n.a.pc.idle then 0 else 1) = (sends n.a.record).length
  delivered : Delivered done D c n.b.sock.buffer_ n.b.record
  taken : proper (queued n.b.record) = proper (done.flatMap packets ++ firstOf D c)
  answered : proper (acked n.a.record) = proper (done.flatMap packets ++ firstOf D K)

def ReorderedAt (n : Net) : Prop := ∃ done D K c ms ns, Reordered n done D K c ms ns

section Steps

variable {n : Net} {done : List (List UInt8)} {D : List UInt8} {K c : Nat} {ms ns : List MsgT}
  {a' b' : Endpoint} {ab' ba' : List (List UInt8)} {act : Act}

/-- The channels are rearranged, or lose something. -/
theorem Reordered.rearranged (h : Reordered n done D K c ms ns) (hab : ab' ⊆ n.ab)
    (hba : ba' ⊆ n.ba) : ReorderedAt ⟨n.a, n.b, ab', ba'⟩ := by
  rw [h.ab] at hab
  rw [h.ba] at hba
  obtain ⟨ms', hms, rfl⟩ := exists_messages_of_subset hab
  obtain ⟨ns', hns, rfl⟩ := exists_messages_of_subset hba
  exact ⟨done, D, K, c, ms', ns', { h with ab := rfl, ba := rfl, clean := h.clean.fewer hms hns }⟩

/-- Nothing changes but the sender: its call goes on. -/
theorem Reordered.senderGoesOn (h : Reordered n done D K c ms ns) {r : Res} {K' : Nat}
    {ns' : List MsgT} (hs : Sends D n.a.sock r) (hp : n.a.pc.idle = false) (hsent : Sent D K r K')
    (hclean : Clean D K' c (ms ++ r.messages) ns' r.sock r.pc n.b.sock n.b.pc) :
    Reordered ⟨n.a.went [] r, n.b, n.ab ++ r.datagrams, ns'.map MsgT.wire⟩ done D K' c
      (ms ++ r.messages) ns' where
  ab := by rw [h.ab, List.map_append, Res.datagrams]
  ba := rfl
  clean := hclean
  notReceiving := hs.notReceiving
  notSending := h.notSending
  sent := by simpa [hs.sends] using h.sent
  returned := by
    have hret := h.returned
    simp only [hp, Bool.false_eq_true, if_false] at hret
    rw [went_record, List.append_nil]
    exact hsent.returned hs hret
  delivered := h.delivered
  taken := h.taken
  answered := by
    rw [went_record, List.append_nil]
    exact hsent.acked_proper h.answered

theorem Reordered.inSend (h : Reordered n done D K c ms ns) (hp : n.a.pc.idle = false) :
    K ≤ nfrag D :=
  h.clean.sender.busy ((sending_or_receiving hp).resolve_right (by simp [h.notReceiving]))

/-- Among messages with other numbers. -/
theorem NoNumber.seqnum_ne {v : UInt16} (h : NoNumber v (ms.map MsgT.wire))
    (hb : ∀ m ∈ ms, m.Built) : ∀ m ∈ ms, m.seqnum ≠ v := fun m hm hv =>
  h _ (List.mem_map_of_mem hm) (whole_wire (hb m hm) hv)

/-- Among messages without a marker. -/
theorem NoMarker.not_eos (h : NoMarker (ms.map MsgT.wire)) (hb : ∀ m ∈ ms, m.Built) :
    ∀ m ∈ ms, m.hasFlag EOS = false := fun m hm => by
  have he := h _ (List.mem_map_of_mem hm) (accepted_wire (hb m hm))
  rwa [ofDatagram_wire (hb m hm)] at he

theorem Clean.built {sa sb : RcsT} {pa pb : Pc} (h : Clean D K c ms ns sa pa sb pb) :
    (∀ m ∈ ms, m.Built) ∧ ∀ m ∈ ns, m.Built := by
  refine ⟨fun m hm => (h.there m hm).sent.built, fun m hm => ?_⟩
  obtain ⟨v, rfl, _⟩ := h.back m hm
  exact built_ack v

/-- The next send starts; if it is empty, it has no bytes to be taken. -/
theorem Delivered.begins {b : MsgBufferT} {record : List Entry}
    (h : Delivered done D (nfrag D + 1) b record) (data : List UInt8) {j : Nat}
    (hj : j = 0 ∨ (j = 1 ∧ nfrag data = 0)) : Delivered (done ++ [D]) data j b record := by
  have hnext := h.next (Or.inl rfl) data
  rcases hj with rfl | ⟨rfl, h0⟩
  · exact hnext
  · refine { hnext with rest := ?_, opened := ?_ }
    · have hrest := hnext.rest
      rw [whole, if_pos (Nat.zero_le _)] at hrest
      rw [whole, if_neg (by omega), nfrag_eq_zero h0]
      simpa using rest_snoc hrest []
    · rw [hnext.opened, begun_between (Or.inl rfl), begun_between (Or.inr (by omega))]

/-- A send starts. -/
theorem Reordered.starts (h : Reordered n done D K c ms ns) (hp : n.a.pc.idle = true)
    {data : List UInt8} (hok : OldIsGone n (.A, .act (.call (.send data)))) :
    ReorderedAt ⟨n.a.went [.called (.send data)] (start n.a.sock (.send data)), n.b,
      n.ab ++ (start n.a.sock (.send data)).datagrams, n.ba⟩ := by
  obtain ⟨hab, hba, hpend, hlen⟩ := hok
  have hidle := not_sending_of_idle hp
  have hKc := h.clean.K_le_c
  have hcle := h.clean.c_le
  have hKdone := h.clean.sender.done hidle
  obtain rfl : K = nfrag D + 1 := by omega
  obtain rfl : c = nfrag D + 1 := by omega
  obtain ⟨hbm, hbn⟩ := h.clean.built
  rw [h.ab] at hab hpend
  rw [h.ba] at hba
  -- behind an empty send, the receiver may be ready to answer the marker of another one
  obtain ⟨j, hj⟩ : ∃ j, (j = 0 ∧ (pend n.b.sock n.b.pc ≠ 0 ∨ (0 < nfrag data ∧ ms = []))) ∨
      (j = 1 ∧ pend n.b.sock n.b.pc = 0 ∧ nfrag data = 0) := by
    by_cases hq : pend n.b.sock n.b.pc = 0
    · rcases Nat.eq_zero_or_pos (nfrag data) with h0 | h0
      · exact ⟨1, Or.inr ⟨rfl, hq, h0⟩⟩
      · exact ⟨0, Or.inl ⟨rfl, Or.inr ⟨h0, List.map_eq_nil_iff.mp (hpend hq)⟩⟩⟩
    · exact ⟨0, Or.inl ⟨rfl, Or.inl hq⟩⟩
  have hj' : j = 0 ∨ (j = 1 ∧ nfrag data = 0) := by omega
  have hfirst : proper (firstOf data j) = [] := by
    rcases hj' with rfl | ⟨rfl, h0⟩
    · rfl
    · rw [nfrag_eq_zero h0, firstOf_nil_one, proper_eos]
  obtain ⟨hsends, hret, hacked, hpc⟩ := went_send h.clean.openA data
  have hdone : (done ++ [D]).flatMap packets =
      done.flatMap packets ++ firstOf D (nfrag D + 1) := by
    rw [List.flatMap_append, List.flatMap_singleton]
    rfl
  rw [send_start h.clean.openA] at hsends hret hacked hpc ⊢
  exact ⟨done ++ [D], data, 0, j, ms ++ [pkt data 0], ns,
    { ab := by rw [h.ab, List.map_append]; rfl
      ba := h.ba
      clean := h.clean.begin hidle h.clean.openA.sendStarted rfl (hab.seqnum_ne hbm)
        (hba.seqnum_ne hbn) hlen hj
      notReceiving := not_receiving_of_sending (sendPc_sending data 0)
      notSending := h.notSending
      sent := by rw [hsends, ← h.sent, List.cons_append]
      returned := by
        have hbefore := h.returned
        simp only [hp, if_true] at hbefore
        rw [hret, hsends, hpc, sendPc_busy, List.length_append, ← hbefore]
        rfl
      delivered := h.delivered.begins data hj'
      taken := by rw [proper_append, hfirst, hdone, List.append_nil]; exact h.taken
      answered := by
        rw [proper_append, hdone, hacked]
        exact h.answered.trans (List.append_nil _).symm }⟩

/-- When the acknowledgement of a fragment arrives, none of the next one is on its way. -/
theorem Reordered.answerInTime {m : MsgT} {errno : Errno} (h : Reordered n done D K c ms (m :: ns))
    (hok : OldIsGone n (.A, .act (.receive errno))) (hK : K ≤ nfrag D) (hm : m.seqnum = num K)
    (hlt : K < nfrag D) : ∀ m' ∈ ns, m'.seqnum ≠ num (K + 1) := by
  have hbuilt := h.clean.built.2
  have htime : AnswerInTime n.ba n.a.pc := hok
  rw [(h.clean.sender.sending hK).1, sendPc, if_pos hlt, h.ba] at htime
  simp only [AnswerInTime, List.map_cons, List.headD_cons, List.tail_cons, pkt_seqnum,
    num_succ] at htime
  exact (htime (whole_wire (hbuilt m List.mem_cons_self) hm)).seqnum_ne fun m' hm' =>
    hbuilt m' (List.mem_cons_of_mem m hm')

/-- Every action of A keeps the invariant. -/
theorem Reordered.stepA (h : Reordered n done D K c ms ns) (hok : timely n (.A, .act act))
    (hact : Acts n.a n.ab n.ba act a' ab' ba') : ReorderedAt ⟨a', n.b, ab', ba'⟩ := by
  cases hact with
  | call call hp =>
    cases call with
    | recv L => exact hok.1.elim
    | send data => exact h.starts hp hok.2
  | timeout hp ht =>
    obtain ⟨hsends, hsent, hclean⟩ := h.clean.sender_timeout (h.inSend hp)
    have hgo := h.senderGoesOn hsends hp hsent hclean
    rw [← h.ba] at hgo
    exact ⟨_, _, _, _, _, _, hgo⟩
  | receive errno d inc' hp hinc =>
    have hba := h.ba
    rw [hinc] at hba
    obtain ⟨m, ns', rfl, rfl, rfl⟩ := List.map_eq_cons_iff.mp hba.symm
    have hK := h.inSend hp
    obtain ⟨hsends, K', hsent, hclean⟩ := h.clean.sender_receives hK (h.answerInTime hok.2 hK)
      errno n.a.sock.endPoint_
    exact ⟨_, _, _, _, _, _, h.senderGoesOn hsends hp hsent hclean⟩
  | lose i hi => exact h.rearranged (List.eraseIdx_sublist _ _).subset (List.Subset.refl _)
  | cut i k d hd hk => exact hok.1.elim

/-- Nothing changes but the receiver: its call goes on. -/
theorem Reordered.receiverGoesOn (h : Reordered n done D K c ms ns) {r : Res} {c' : Nat}
    {ms' : List MsgT} (hr : Receives r) (hrec : Received D n.b.sock.buffer_ r c c')
    (hclean : Clean D K c' ms' (ns ++ r.messages) n.a.sock n.a.pc r.sock r.pc) :
    Reordered ⟨n.a, n.b.went [] r, ms'.map MsgT.wire, n.ba ++ r.datagrams⟩ done D K c' ms'
      (ns ++ r.messages) where
  ab := rfl
  ba := by rw [h.ba, List.map_append, Res.datagrams]
  clean := hclean
  notReceiving := h.notReceiving
  notSending := hr.notSending
  sent := h.sent
  returned := h.returned
  delivered := by
    rw [went_record, List.append_nil]
    exact h.delivered.received hrec
  taken := by
    rw [went_record, List.append_nil]
    exact hrec.queued_proper h.taken
  answered := h.answered

/-- Among messages without a first fragment. -/
theorem NoFirst.not_mem (h : NoFirst (ms.map MsgT.wire)) (h0 : 0 < nfrag D) : pkt D 0 ∉ ms := by
  intro hm
  have hs := h _ (List.mem_map_of_mem hm)
  rw [ofDatagram_wire (pkt_built D 0), startsNext_pkt h0] at hs
  cases hs

/-- Every action of B keeps the invariant. -/
theorem Reordered.stepB (h : Reordered n done D K c ms ns) (hok : timely n (.B, .act act))
    (hact : Acts n.b n.ba n.ab act b' ba' ab') : ReorderedAt ⟨n.a, b', ab', ba'⟩ := by
  cases hact with
  | call call hp =>
    cases call with
    | send data => exact hok.1.elim
    | recv L =>
      have hclean := h.clean.receiver_starts hp L
      refine ⟨done, D, K, c, ms, ns, ?_⟩
      rw [recv_start h.clean.openB]
      exact
        { h with
          ba := (List.append_nil n.ba).trans h.ba
          clean := hclean
          notSending := rfl
          delivered := by
            rw [went_record, List.append_assoc]
            exact h.delivered.entries rfl rfl
          taken := by
            rw [went_record, List.append_assoc, queued_append, proper_append, h.taken]
            exact List.append_nil _ }
  | timeout hp ht =>
    have hr := (sending_or_receiving hp).resolve_left (by simp [h.notSending])
    obtain ⟨hrecv, hrec, hclean⟩ := h.clean.receiver_timeout hr fun hf hc h0 =>
      NoFirst.not_mem (h.ab ▸ hok.2 hf (h.clean.not_first hc h0)) h0
    have hgo := h.receiverGoesOn hrecv hrec hclean
    rw [← h.ab] at hgo
    exact ⟨_, _, _, _, _, _, hgo⟩
  | receive errno d inc' hp hinc =>
    have hr := (sending_or_receiving hp).resolve_left (by simp [h.notSending])
    have hab := h.ab
    rw [hinc] at hab
    obtain ⟨m, ms', rfl, rfl, rfl⟩ := List.map_eq_cons_iff.mp hab.symm
    have hclean := h.clean
    obtain ⟨hbm, _⟩ := hclean.built
    have hb := hbm m List.mem_cons_self
    have hbuilt : ∀ m' ∈ ms', m'.Built := fun m' hm' => hbm m' (List.mem_cons_of_mem m hm')
    have htime : TakenInTime n.b.sock n.a.pc.awaited n.ab n.b.pc := hok.2
    rw [hinc] at htime
    cases hpc : n.b.pc with
    | recvLoop L =>
      rw [hpc] at hclean htime
      simp only [TakenInTime, List.headD_cons, List.tail_cons, ofDatagram_wire hb] at htime
      have hno : m.seqnum = n.b.sock.recvSeqnum_ → m.length ≠ 0 → ∀ m' ∈ ms',
          m'.seqnum ≠ n.b.sock.recvSeqnum_ + 1 ∧ m'.hasFlag EOS = false := fun hs hl m' hm' => by
        obtain ⟨hnum, heos⟩ := htime (whole_wire hb hs) hl
        exact ⟨hnum.seqnum_ne hbuilt m' hm', heos.not_eos hbuilt m' hm'⟩
      obtain ⟨hrecv, c', hrec, hclean'⟩ := hclean.loop_receives hno errno n.b.sock.endPoint_
      exact ⟨_, _, _, _, _, _, h.receiverGoesOn hrecv hrec hclean'⟩
    | finalizeRecv L ack response =>
      rw [hpc] at hclean htime
      simp only [TakenInTime, List.headD_cons, List.tail_cons, ofDatagram_wire hb] at htime
      have hno : RcsT.startsNext m = true → c = nfrag D + 1 → 0 < nfrag D → pkt D 0 ∉ ms' :=
        fun hs hc h0 => NoFirst.not_mem (htime hs (hclean.not_first hc h0)) h0
      obtain ⟨hrecv, hrec, hclean'⟩ := hclean.finalize_receives hno errno n.b.sock.endPoint_
      exact ⟨_, _, _, _, _, _, h.receiverGoesOn hrecv hrec hclean'⟩
    | _ => rw [hpc] at hr; cases hr
  | lose i hi => exact h.rearranged (List.Subset.refl _) (List.eraseIdx_sublist _ _).subset
  | cut i k d hd hk => exact hok.1.elim

theorem ReorderedAt.step {n' : Net} {act : Side × UdpAct} (h : ReorderedAt n) (hok : timely n act)
    (hs : n.udpStep act = some n') : ReorderedAt n' := by
  obtain ⟨done, D, K, c, ms, ns, h⟩ := h
  obtain ⟨a', b', ab', ba'⟩ := n'
  obtain ⟨side, act⟩ := act
  cases side with
  | A =>
    rcases udpStepA_cases hs with ⟨a, rfl, hact, rfl⟩ | ⟨hab, rfl, rfl, rfl⟩
    · exact h.stepA hok hact
    · exact h.rearranged hab (List.Subset.refl _)
  | B =>
    rcases udpStepB_cases hs with ⟨a, rfl, hact, rfl⟩ | ⟨hba, rfl, rfl, rfl⟩
    · exact h.stepB hok hact
    · exact h.rearranged (List.Subset.refl _) hba

end Steps

section Result

variable {n : Net} {done : List (List UInt8)} {D : List UInt8} {K c : Nat} {ms ns : List MsgT}

theorem Reordered.returned_isPrefix (h : Reordered n done D K c ms ns) :
    ((sends n.a.record).take (sendsDone n.a.record)).flatten <+: storedBytes n.b.record := by
  refine h.delivered.returned h.sent h.returned fun hp => Or.inl ?_
  have hK := h.clean.sender.done (not_sending_of_idle hp)
  have hKc := h.clean.K_le_c
  have hcle := h.clean.c_le
  omega

end Result

end Ece358.Rcs
