/-
  File:      Ece358/Handshake.lean
  Subject:   One connect and the accept that serves it.

  Both sides work through a script: the client sends its request and receives the port, the
  listener receives the request and sends the port. In each phase of it a side sends one message
  only, again and again, so what it has sent ranks by the phases it was in:

  * `upMsg`, `downMsg` -- the message of each rank, from and to the client;
  * `upLo`, `downLo` -- which of the other side's messages a side has not read yet in a phase;
    `upMsg_due`, `upMsg_answer` and the like say what it can hear there;
  * `Has` -- a receive buffer with a part of one message, and nothing else;
  * `send_stretch`, `recv_stretch`, `finalize_stretch` -- what a datagram does to a call whose data
    fit into one fragment;
  * `ListenerAt`, `ListenerMoves` -- the phases of an accept, and a receive of it; `hears`,
    `refuses` and `timer` are the receives;
  * `ClientAt`, `ClientMoves` -- the same for a connect.
-/
import Ece358.Delivery
import Ece358.Isolation
import Ece358.Reports

namespace Ece358.Rcs

open Lib MsgT

/-! ## 1. The script -/

/-- What a client sends: its request, and the answers of its recv. -/
def upMsg : Nat → MsgT
  | 0 => pkt connectRequest 0
  | 1 => pkt connectRequest 0
  | 2 => pkt connectRequest 1
  | 3 => control 65535 ACK
  | 4 => control 0 ACK
  | _ => control 1 ACK

/-- What a listener sends to it: the answers of its recv, the port, and again answers of a recv if
    the client is heard of once more. -/
def downMsg (port : UInt16) : Nat → MsgT
  | 1 => control 0 ACK
  | 2 => control 1 ACK
  | 3 => pkt (portBytes port) 0
  | 4 => pkt (portBytes port) 1
  | _ => control 65535 ACK

/-- A listener in phase `k` has read all that the client sent below this rank. -/
def upLo : Nat → Nat
  | 0 => 0
  | 1 => 0
  | 2 => 2
  | 3 => 2
  | 4 => 4
  | _ => 5

/-- A client in phase `p` has read all that the listener sent below this rank. -/
def downLo : Nat → Nat
  | 0 => 0
  | 1 => 0
  | 2 => 1
  | 3 => 2
  | 4 => 3
  | _ => 4

theorem nfrag_connectRequest : nfrag connectRequest = 1 := by decide

theorem nfrag_port (port : UInt16) : nfrag (portBytes port) = 1 := by
  rw [nfrag, length_portBytes]
  rfl

theorem portBytes_ne_nil (port : UInt16) : portBytes port ≠ [] := by
  intro h
  have := length_portBytes port
  rw [h] at this
  cases this

theorem noFin_ack (v : UInt16) : (control v ACK).hasFlag FIN = false := by
  rw [hasFlag_control]
  rfl

theorem noEos_ack (v : UInt16) : (control v ACK).hasFlag EOS = false := by
  rw [hasFlag_control]
  rfl

theorem sentAs_upMsg (r : Nat) : SentAs (upMsg r).wire (upMsg r) := by
  unfold upMsg
  split
  · exact .refl (pkt_built _ _) (pkt_noFin _ _)
  · exact .refl (pkt_built _ _) (pkt_noFin _ _)
  · exact .refl (pkt_built _ _) (pkt_noFin _ _)
  · exact .refl (built_ack _) (noFin_ack _)
  · exact .refl (built_ack _) (noFin_ack _)
  · exact .refl (built_ack _) (noFin_ack _)

theorem sentAs_downMsg (port : UInt16) (r : Nat) :
    SentAs (downMsg port r).wire (downMsg port r) := by
  unfold downMsg
  split
  · exact .refl (built_ack _) (noFin_ack _)
  · exact .refl (built_ack _) (noFin_ack _)
  · exact .refl (pkt_built _ _) (pkt_noFin _ _)
  · exact .refl (pkt_built _ _) (pkt_noFin _ _)
  · exact .refl (built_ack _) (noFin_ack _)

/-- The messages of the request and of the port, as the script has them. -/
theorem upMsg_request {K : Nat} (hK : K ≤ 1) : upMsg (1 + K) = pkt connectRequest K := by
  obtain rfl | rfl : K = 0 ∨ K = 1 := by omega
  · rfl
  · rfl

theorem downMsg_portBytes (port : UInt16) {K : Nat} (hK : K ≤ 1) :
    downMsg port (3 + K) = pkt (portBytes port) K := by
  obtain rfl | rfl : K = 0 ∨ K = 1 := by omega
  · rfl
  · rfl

/-- The port is not in the answers. -/
theorem downMsg_port (port port' : UInt16) {r : Nat} (hr : r ≤ 2) :
    downMsg port r = downMsg port' r := by
  obtain rfl | rfl | rfl : r = 0 ∨ r = 1 ∨ r = 2 := by omega
  · rfl
  · rfl
  · rfl

/-- No phase of one side is behind an earlier one in what it has heard. -/
theorem downLo_mono : Monotone downLo := monotone_nat_of_le_succ fun p => by
  rcases p with _ | _ | _ | _ | _ | p
  all_goals first | decide | exact le_refl 4

theorem upLo_mono : Monotone upLo := monotone_nat_of_le_succ fun l => by
  rcases l with _ | _ | _ | _ | _ | l
  all_goals first | decide | exact le_refl 5

/-- In its recv a listener hears the message that it waits for, or nothing that counts. -/
theorem upMsg_due {c r : Nat} (hc : c ≤ 1) (hhi : downLo r ≤ c) :
    (upMsg r = pkt connectRequest c ∧ upLo (c + 1) ≤ r) ∨
      ((upMsg r).seqnum ≠ num c ∧ (upMsg r).hasFlag EOS = false) := by
  obtain rfl | rfl : c = 0 ∨ c = 1 := by omega
  · rcases r with _ | _ | r
    · exact Or.inl ⟨rfl, Nat.zero_le _⟩
    · exact Or.inl ⟨rfl, Nat.zero_le _⟩
    · exact absurd (le_trans (downLo_mono (show 2 ≤ r + 2 by omega)) hhi) (by decide)
  · rcases r with _ | _ | _ | r
    · exact Or.inr (by decide)
    · exact Or.inr (by decide)
    · exact Or.inl ⟨rfl, le_refl 2⟩
    · exact absurd (le_trans (downLo_mono (show 3 ≤ r + 3 by omega)) hhi) (by decide)

/-- So does a client. -/
theorem downMsg_due (port : UInt16) {c r : Nat} (hc : c ≤ 1) (hlo : downLo (3 + c) ≤ r)
    (hhi : upLo r ≤ 3 + c) : (downMsg port r = pkt (portBytes port) c ∧ downLo (3 + c + 1) ≤ r) ∨
      ((downMsg port r).seqnum ≠ num c ∧ (downMsg port r).hasFlag EOS = false) := by
  obtain rfl | rfl : c = 0 ∨ c = 1 := by omega
  · rcases r with _ | _ | _ | _ | r
    · cases hlo
    · exact absurd hlo (by decide)
    · exact Or.inr ⟨show (1 : UInt16) ≠ num 0 by decide, noEos_ack 1⟩
    · exact Or.inl ⟨rfl, le_refl 3⟩
    · exact absurd (le_trans (upLo_mono (show 4 ≤ r + 4 by omega)) hhi) (by decide)
  · rcases r with _ | _ | _ | _ | _ | r
    · cases hlo
    · exact absurd hlo (by decide)
    · exact absurd hlo (by decide)
    · refine Or.inr ⟨?_, ?_⟩
      · rw [downMsg, pkt_seqnum]
        decide
      · rw [downMsg, pkt_hasFlag_eos, nfrag_port]
        rfl
    · exact Or.inl ⟨rfl, le_refl 4⟩
    · exact absurd (le_trans (upLo_mono (show 5 ≤ r + 5 by omega)) hhi) (by decide)

/-- In its send a listener hears the number that it waits for in the answer only. -/
theorem upMsg_answer {K r : Nat} (hK : K ≤ 1) (hlo : upLo (3 + K) ≤ r)
    (hs : (upMsg r).seqnum = num K) : upLo (3 + K + 1) ≤ r := by
  obtain rfl | rfl : K = 0 ∨ K = 1 := by omega
  · rcases r with _ | _ | _ | _ | r
    · cases hlo
    · exact absurd hlo (by decide)
    · exact absurd hs (by decide)
    · exact absurd hs (by decide)
    · exact Nat.le_add_left 4 r
  · have hne : r ≠ 4 := fun h => absurd (h ▸ hs) (by decide)
    have h4 : 4 ≤ r := hlo
    exact show 5 ≤ r by omega

theorem downMsg_answer {port : UInt16} {K r : Nat} (hK : K ≤ 1) (hlo : downLo (1 + K) ≤ r)
    (hs : (downMsg port r).seqnum = num K) : downLo (1 + K + 1) ≤ r := by
  obtain rfl | rfl : K = 0 ∨ K = 1 := by omega
  · rcases r with _ | r
    · exact absurd (show (65535 : UInt16) = num 0 from hs) (by decide)
    · exact Nat.le_add_left 1 r
  · rcases r with _ | _ | r
    · cases hlo
    · exact absurd (show (0 : UInt16) = num 1 from hs) (by decide)
    · exact Nat.le_add_left 2 r

/-- Behind its request a client sends no data, and a listener none behind the port. -/
theorem upMsg_empty {r : Nat} (hlo : upLo 2 ≤ r) : (upMsg r).length = 0 := by
  rcases r with _ | _ | _ | _ | _ | r
  · cases hlo
  · exact absurd hlo (by decide)
  all_goals rfl

theorem downMsg_empty (port : UInt16) {r : Nat} (hlo : downLo 5 ≤ r) :
    (downMsg port r).length = 0 := by
  rcases r with _ | _ | _ | _ | _ | r
  · cases hlo
  · exact absurd hlo (by decide)
  · exact absurd hlo (by decide)
  · exact absurd hlo (by decide)
  · have hlast := pkt_eos (portBytes port)
    rw [nfrag_port] at hlast
    rw [downMsg, hlast, control_length]
  · rfl

/-! ## 2. Buffers -/

/-- Nothing is unread. -/
structure Blank (b : MsgBufferT) : Prop where
  exact : b.Exact
  unread : b.unread = []

/-- The first `c` messages of `send(D)` have been queued, and nothing else is unread. -/
structure Has (D : List UInt8) (c : Nat) (b : MsgBufferT) : Prop where
  exact : b.Exact
  closed : nonempty b.closed = if c ≤ nfrag D then [] else nonempty [D]
  opened : b.opened = begun D c

section Has

variable {D : List UInt8} {c L : Nat} {b : MsgBufferT}

theorem blank_new : Blank MsgBufferT.new := ⟨MsgBufferT.exact_new, rfl⟩

theorem Blank.has (h : Blank b) (D : List UInt8) : Has D 0 b := by
  have hu := h.unread
  rw [MsgBufferT.unread_eq, List.append_eq_nil_iff] at hu
  refine ⟨h.exact, ?_, ?_⟩
  · rw [if_pos (Nat.zero_le _), hu.1]
  · rw [begun_between (Or.inl rfl)]
    by_contra hne
    rw [nonempty_cons_of_ne hne] at hu
    cases hu.2

theorem Has.blank (h : Has D 0 b) : Blank b := by
  refine ⟨h.exact, ?_⟩
  rw [MsgBufferT.unread_eq, h.closed, if_pos (Nat.zero_le _), h.opened, begun_between (Or.inl rfl)]
  rfl

/-- The next message is queued. -/
theorem Has.queue (h : Has D c b) (hc : c ≤ nfrag D) :
    Has D (c + 1) (b.queueMessage (pkt D c)) := by
  obtain ⟨hopened, hclosed⟩ := queue_pkt hc h.opened
  refine ⟨h.exact.queue (pkt_built D c).length_le (pkt_length_of_eos hc), ?_, hopened⟩
  rw [hclosed, h.closed, if_pos hc, List.nil_append]
  by_cases hlt : c < nfrag D
  · rw [if_pos hlt, if_pos (by omega)]
  · rw [if_neg hlt, if_neg (by omega)]

/-- All of the message is read at once. -/
theorem Has.read (h : Has D (nfrag D + 1) b) (hD : D ≠ []) (hL : D.length ≤ L) :
    b.empty = false ∧ (b.read L).1 = D ∧ Blank (b.read L).2 := by
  have hunread : b.unread = [D] := by
    rw [MsgBufferT.unread_eq, h.closed, if_neg (by omega), h.opened, begun_between (Or.inr rfl),
      nonempty_cons_of_ne hD]
    rfl
  obtain ⟨hread, hleft, _⟩ := MsgBufferT.read_spec h.exact L
  refine ⟨?_, ?_, h.exact.read L, ?_⟩
  · rw [← Bool.not_eq_true, MsgBufferT.Exact.empty_iff h.exact, hunread]
    exact List.cons_ne_nil _ _
  · rw [hread, hunread]
    exact List.take_of_length_le hL
  · rw [hleft, hunread]
    show nonempty [D.drop L] = []
    rw [List.drop_of_length_le hL]
    rfl

end Has

/-! ## 3. Stretches -/

/-- The messages that are sent, with their destinations. -/
def sendings (out : List ApiEvent) : List (MsgT × SockaddrIn) :=
  out.filterMap fun
    | .io (.sendto _ msg dest) => some (msg, dest)
    | _ => none

/-- The sockets whose endpoint is set, with it. -/
def childEnds (out : List ApiEvent) : List (Nat × SockaddrIn) :=
  out.filterMap fun
    | .childEndpoint child addr => some (child, addr)
    | _ => none

@[simp] theorem sendings_append (out out' : List ApiEvent) :
    sendings (out ++ out') = sendings out ++ sendings out' := List.filterMap_append

@[simp] theorem childEnds_append (out out' : List ApiEvent) :
    childEnds (out ++ out') = childEnds out ++ childEnds out' := List.filterMap_append

theorem sendings_replicate (s : RcsT) (n : Nat) (msg : MsgT) :
    sendings ((List.replicate n (s.rawsend msg)).map .io) =
      List.replicate n (msg, s.endPoint_) := by
  rw [List.map_replicate]
  exact List.filterMap_replicate_of_some rfl

@[simp] theorem childEnds_io (out : List Event) : childEnds (out.map .io) = [] := by
  rw [childEnds, List.filterMap_map, List.filterMap_eq_nil_iff]
  exact fun _ _ => rfl

section Stretches

variable {s : RcsT} {D d : List UInt8} {m : MsgT} {K c : Nat}

/-- A send that receives something goes on, returns, or repeats its message. -/
theorem send_stretch (h : Open s) (hs : s.sendSeqnum_ = num K) (hK : K ≤ nfrag D)
    (hd : SentAs d m) (e : Errno) (src : SockaddrIn) :
    let s' := { s with fromEndpoint_ := src }
    let r := resume s (sendPc D K) (.datagram e d src)
    (d = m.wire ∧ m.seqnum = num K ∧ K < nfrag D ∧ r = ⟨nextFragment s',
      [.acked (pkt D K), s'.rawsend (pkt D (K + 1))], sendPc D (K + 1)⟩) ∨
    (d = m.wire ∧ m.seqnum = num K ∧ K = nfrag D ∧
      r = ⟨s', [.acked (pkt D K)], .returned (.send (.ofNat D.length))⟩) ∨
    r = ⟨s', [s'.rawsend (pkt D K)], sendPc D K⟩ := by
  intro s' r
  rcases acksend_cases h (pkt D K) hd e src with ⟨hw, hm, ha⟩ | ⟨_, ha⟩
  · rw [pkt_seqnum] at hm
    have hr : r = _ := resume_sendPc_acked (h.from src) hs ha
    by_cases hlt : K < nfrag D
    · rw [if_pos hlt] at hr
      exact Or.inl ⟨hw, hm, hlt, hr⟩
    · rw [if_neg hlt] at hr
      exact Or.inr (Or.inl ⟨hw, hm, by omega, hr⟩)
  · exact Or.inr (Or.inr (resume_sendPc_again ha))

theorem send_timer (h : Open s) (D : List UInt8) (K : Nat) :
    resume s (sendPc D K) (.error .EAGAIN) = ⟨s, [s.rawsend (pkt D K)], sendPc D K⟩ :=
  resume_sendPc_again (acksend_timeout h _)

/-- A recv whose data fit into one fragment takes the message that it waits for, or answers, or
    does nothing. -/
theorem recv_stretch (h : Open s) (hs : s.recvSeqnum_ = num c) (hn : nfrag D = 1) (hc : c ≤ 1)
    (hd : SentAs d m)
    (hm : d = m.wire → m = pkt D c ∨ (m.seqnum ≠ num c ∧ m.hasFlag EOS = false)) (L : Nat)
    (e : Errno) (src : SockaddrIn) :
    let s' := { s with fromEndpoint_ := src }
    let r := resume s (.recvLoop L) (.datagram e d src)
    (∃ k, r = ⟨s', List.replicate k (s'.rawsend (control (num c - 1) ACK)), .recvLoop L⟩ ∧
      (d = m.wire → m.seqnum ≠ num c)) ∨
    (d = m.wire ∧ m = pkt D c ∧ c = 0 ∧
      r = ⟨queue s' m, [.queued m, s'.rawsend (control (num 0) ACK)], .recvLoop L⟩) ∨
    (d = m.wire ∧ m = pkt D c ∧ c = 1 ∧ r = ⟨finalizing (queue s' m),
      [.queued m, s'.rawsend (control (num 1) ACK), .setTimeout s.ucpSocket_ PROTOCOL_TIMEOUT],
      .finalizeRecv L (control (num 1) ACK) default⟩) := by
  intro s' r
  have heos : (pkt D c).hasFlag EOS = decide (1 ≤ c) := by rw [pkt_hasFlag_eos, hn]
  have hack : control s.recvSeqnum_ ACK = control (num c) ACK := by rw [hs]
  rcases recvLoop_cases h hd L e src with
    ⟨hnil, _, hr⟩ | ⟨hno, hr⟩ | ⟨hw, hseq, hflag, hr⟩ | ⟨hw, hseq, hflag, hr⟩ |
      ⟨hw, hseq, hflag, hr⟩
  · exact Or.inl ⟨0, hr, fun hw => absurd (hw.symm.trans hnil) (wire_ne_nil hd.built)⟩
  · refine Or.inl ⟨1, ?_, fun hw => hs ▸ (hno hw).1⟩
    rw [← hs]
    exact hr
  · have hmc := (hm hw).resolve_right fun h => h.1 (hseq.trans hs)
    rw [hmc, heos] at hflag
    obtain rfl : c = 0 := by simpa using hflag
    rw [hack] at hr
    exact Or.inr (Or.inl ⟨hw, hmc, rfl, hr⟩)
  · have hmc := (hm hw).resolve_right fun h => h.1 (hseq.trans hs)
    rw [hmc, heos] at hflag
    obtain rfl : c = 1 := by
      have : 1 ≤ c := by simpa using hflag
      omega
    rw [hack] at hr
    exact Or.inr (Or.inr ⟨hw, hmc, rfl, hr⟩)
  · exfalso
    rw [hs] at hseq
    rcases hm hw with rfl | ⟨_, hno⟩
    · exact hseq (pkt_seqnum D c)
    · rw [hno] at hflag
      cases hflag

/-- finalizeRecv answers what does not start a next message, or ends as if the timer had fired. -/
theorem finalize_stretch (h : Open s) {response : MsgT}
    (hr : RcsT.startsNext response = false) (hd : SentAs d m)
    (hs : d ≠ [] → RcsT.startsNext (ofDatagram d) = false) (L : Nat) (ack : MsgT) (e : Errno)
    (src : SockaddrIn) :
    let s' := { s with fromEndpoint_ := src }
    let r := resume s (.finalizeRecv L ack response) (.datagram e d src)
    (d = [] ∧ e = .EAGAIN ∧ r = s'.finalizeEnd L) ∨
    ∃ response', RcsT.startsNext response' = false ∧
      r = ⟨s', [s'.rawsend ack], .finalizeRecv L ack response'⟩ := by
  intro s' r
  rcases finalize_cases h hd.noFinHere hr L ack e src with ⟨hend, h⟩ | ⟨_, _, response', hr', h⟩
  · rcases hend with ⟨hnil, he⟩ | ⟨hne, hstart⟩
    · exact Or.inl ⟨hnil, he, h⟩
    · rw [hs hne] at hstart
      cases hstart
  · exact Or.inr ⟨response', hr', h⟩

/-- The end of finalizeRecv, with a whole message to read. -/
theorem finalizeEnd_read (h : Open s) {L : Nat} (hb : Has D (nfrag D + 1) s.buffer_) (hD : D ≠ [])
    (hL : D.length ≤ L) :
    ∃ b, s.finalizeEnd L = ⟨{ resumed s with buffer_ := b },
      [.setTimeout s.ucpSocket_ RECV_TIMEOUT], .returned (.recv D)⟩ ∧ Blank b := by
  obtain ⟨hempty, hread, hblank⟩ := hb.read hD hL
  rcases finalizeEnd_cases h L with ⟨he, _⟩ | ⟨_, hr⟩
  · rw [hempty] at he
    cases he
  · refine ⟨(s.buffer_.read L).2, ?_, hblank⟩
    rw [hr, hread]

end Stretches

/-! ## 4. The listener -/

/-- The messages of a request that an accept has received up to phase `k`. -/
def requests (k : Nat) : List MsgT := [pkt connectRequest 0, pkt connectRequest 1].take k

/-- The endpoints that an accept has set up to phase `k`. -/
def endsAt (child : Nat) (x : SockaddrIn) (k : Nat) : List (Nat × SockaddrIn) :=
  if k ≤ 2 then [] else [(child, x)]

/-- Where an accept stands that talks to `x`: in its recv with the first messages of the request
    (0 and 1), in finalizeRecv (2), in its send of the port (3 and 4), and at its return (5). -/
inductive ListenerAt (child : Nat) (me x : SockaddrIn) : Nat → RcsT → ApiPc → Prop
  | request {s : RcsT} (c : Nat) (ho : Open s) (hx : s.endPoint_ = x) (hc : c ≤ 1)
      (hs : s.recvSeqnum_ = num c) (hb : Has connectRequest c s.buffer_) (ht : s.timeout = 0) :
      ListenerAt child me x c s (.blocked (.acceptRecv child me) (.recvLoop 32))
  | finalizing {s : RcsT} {response : MsgT} (ho : Open s) (hx : s.endPoint_ = x)
      (hb : Has connectRequest 2 s.buffer_) (hr : RcsT.startsNext response = false) :
      ListenerAt child me x 2 s
        (.blocked (.acceptRecv child me) (.finalizeRecv 32 (control (num 1) ACK) response))
  | port {s : RcsT} (K : Nat) (ho : Open s) (hx : s.endPoint_ = x) (hK : K ≤ 1)
      (hs : s.sendSeqnum_ = num K) (hb : Blank s.buffer_) :
      ListenerAt child me x (3 + K) s
        (.blocked (.acceptSend child) (sendPc (portBytes me.sin_port) K))
  | served {s : RcsT} (ho : Open s) (hb : Blank s.buffer_) :
      ListenerAt child me x 5 s (.returned (.accept child (some x)))

/-- A receive of an accept in phase `k`: it stays there or goes on to the next phase, and sends what
    it sends there, to `x`. -/
structure ListenerMoves (child : Nat) (me x : SockaddrIn) (k : Nat) (r : ApiRes)
    (took : List MsgT) (k' : Nat) : Prop where
  near : k' = k ∨ k' = k + 1
  stands : ListenerAt child me x k' r.sock r.pc
  sent : ∃ n, sendings r.out = List.replicate n (downMsg me.sin_port k', x)
  ends : endsAt child x k' = endsAt child x k ++ childEnds r.out
  took : requests k' = requests k ++ took

section Listener

variable {child : Nat} {me x src : SockaddrIn} {k r : Nat} {s : RcsT} {stage : Stage} {pc : Pc}
  {m : MsgT} {d : List UInt8} {e : Errno}

/-- What a recv takes from a datagram. -/
theorem received_loop (hd : SentAs d m) (L : Nat) : received s (.recvLoop L) (.datagram e d src) =
    if d = m.wire ∧ m.seqnum = s.recvSeqnum_ then [m] else [] := by
  show (if accepted d = true ∧ (ofDatagram d).seqnum = s.recvSeqnum_ then [ofDatagram d]
    else []) = _
  by_cases ha : accepted d = true
  · obtain ⟨hw, hm⟩ := hd.whole ha
    rw [hm]
    simp only [ha, ← hw, true_and]
  · have hw : d ≠ m.wire := fun hw => ha (hd.accepted_wire hw)
    rw [if_neg fun h => ha h.1, if_neg fun h => hw h.1]

theorem received_sendPc (D : List UInt8) (K : Nat) (o : RecvFrom) :
    received s (sendPc D K) o = [] := by
  unfold sendPc
  split <;> rfl

/-- A call that stays blocked. -/
theorem apiResume_blocked {o : RecvFrom} {q : Res} (h : resume s pc o = q)
    (hq : ∀ ret, q.pc ≠ .returned ret) (stage : Stage) :
    apiResume s stage pc o = ⟨q.sock, q.out.map .io, .blocked stage q.pc⟩ := by
  rw [apiResume, h]
  exact proceed_blocked hq stage

/-- A receive in the recv of accept. -/
theorem ListenerAt.request_hears (child : Nat) (me src : SockaddrIn) (e : Errno) {c : Nat}
    (ho : Open s) (hx : s.endPoint_ = x) (hc : c ≤ 1)
    (hs : s.recvSeqnum_ = num c) (hb : Has connectRequest c s.buffer_) (ht : s.timeout = 0)
    (hd : SentAs d m)
    (hm : d = m.wire → m = pkt connectRequest c ∨ (m.seqnum ≠ num c ∧ m.hasFlag EOS = false)) :
    ∃ k', (k' = c ∨ (d = m.wire ∧ m = pkt connectRequest c)) ∧
      ListenerMoves child me x c
        (apiResume s (.acceptRecv child me) (.recvLoop 32) (.datagram e d src))
        (received s (.recvLoop 32) (.datagram e d src)) k' := by
  have hn := nfrag_connectRequest
  rw [received_loop hd, hs]
  rcases recv_stretch ho hs hn hc hd hm 32 e src with
    ⟨n, hr, hno⟩ | ⟨hw, rfl, rfl, hr⟩ | ⟨hw, rfl, rfl, hr⟩
  · -- it answers
    rw [apiResume_blocked hr (fun _ => Pc.noConfusion), if_neg fun h => hno h.1 h.2]
    refine ⟨c, Or.inl rfl, Or.inl rfl, .request c (ho.from src) hx hc hs hb ht, ⟨n, ?_⟩, ?_, ?_⟩
    · have hack : control (num c - 1) ACK = downMsg me.sin_port c := by
        obtain rfl | rfl : c = 0 ∨ c = 1 := by omega
        · rfl
        · rfl
      rw [sendings_replicate, hack, ← hx]
    · rw [childEnds_io, List.append_nil]
    · rw [List.append_nil]
  · -- it has the fragment
    rw [apiResume_blocked hr (fun _ => Pc.noConfusion), if_pos ⟨hw, rfl⟩]
    refine ⟨1, Or.inr ⟨hw, rfl⟩, Or.inr rfl, .request 1 ⟨ho.notClosing, ho.connected⟩ hx (le_refl 1)
      ?_ (hb.queue (by omega)) ht, ⟨1, ?_⟩, rfl, rfl⟩
    · show s.recvSeqnum_ + 1 = num 1
      rw [hs, num_succ]
    · rw [← hx]
      rfl
  · -- it has the marker
    rw [apiResume_blocked hr (fun _ => Pc.noConfusion), if_pos ⟨hw, rfl⟩]
    refine ⟨2, Or.inr ⟨hw, rfl⟩, Or.inr rfl, .finalizing ⟨ho.notClosing, ho.connected⟩ hx
      (hb.queue (by omega)) rfl, ⟨1, ?_⟩, rfl, rfl⟩
    rw [← hx]
    rfl

/-- The end of finalizeRecv in accept: the port goes out. -/
theorem ListenerAt.finalizing_ends {ack response : MsgT} {o : RecvFrom} {s' : RcsT} (ho : Open s')
    (hx : s'.endPoint_ = x) (hb : Has connectRequest 2 s'.buffer_) (hfrom : s'.fromEndpoint_ = x)
    (h : resume s (.finalizeRecv 32 ack response) o = s'.finalizeEnd 32) :
    ListenerMoves child me x 2
      (apiResume s (.acceptRecv child me) (.finalizeRecv 32 ack response) o) [] 3 := by
  obtain ⟨b, hend, hblank⟩ := finalizeEnd_read ho (L := 32) hb (by decide) (by decide)
  have hopen : ({ resumed s' with buffer_ := b } : RcsT).isClosing_ = false := ho.notClosing
  rw [apiResume, h, hend, proceed, acceptMid_open hopen]
  refine ⟨Or.inr rfl, ?_, ⟨1, ?_⟩, ?_, ?_⟩
  · have hpc : Pc.sendFragment (portBytes me.sin_port) 0 (pkt (portBytes me.sin_port) 0) =
        sendPc (portBytes me.sin_port) 0 := by
      rw [sendPc, if_pos (nfrag_portBytes me.sin_port)]
      rfl
    rw [hpc]
    exact .port 0 ⟨ho.notClosing, ho.connected⟩ hx (Nat.zero_le 1) rfl hblank
  · rw [← hx]
    rfl
  · rw [← hfrom]
    rfl
  · rfl

/-- A receive in its finalizeRecv. -/
theorem ListenerAt.finalizing_hears (child : Nat) (me src : SockaddrIn) (e : Errno)
    {response : MsgT} (ho : Open s) (hx : s.endPoint_ = x)
    (hb : Has connectRequest 2 s.buffer_) (hr : RcsT.startsNext response = false)
    (hd : SentAs d m) (hstart : d ≠ [] → RcsT.startsNext (ofDatagram d) = false)
    (hsrc : d = [] → e = .EAGAIN → src = x) :
    ∃ k', (k' = 2 ∨ (k' = 3 ∧ d = [] ∧ e = .EAGAIN)) ∧
      ListenerMoves child me x 2 (apiResume s (.acceptRecv child me)
        (.finalizeRecv 32 (control (num 1) ACK) response) (.datagram e d src)) [] k' := by
  rcases finalize_stretch ho hr hd hstart 32 (control (num 1) ACK) e src with
    ⟨hnil, he, hend⟩ | ⟨response', hr', hgo⟩
  · exact ⟨3, Or.inr ⟨rfl, hnil, he⟩,
      finalizing_ends (ho.from src) hx hb (hsrc hnil he) hend⟩
  · rw [apiResume_blocked hgo (fun _ => Pc.noConfusion)]
    refine ⟨2, Or.inl rfl, Or.inl rfl, .finalizing (ho.from src) hx hb hr', ⟨1, ?_⟩, rfl, rfl⟩
    rw [← hx]
    rfl

/-- A receive in its send. -/
theorem ListenerAt.port_hears (child : Nat) (me src : SockaddrIn) (e : Errno) {K : Nat}
    (ho : Open s) (hx : s.endPoint_ = x) (hK : K ≤ 1)
    (hs : s.sendSeqnum_ = num K) (hb : Blank s.buffer_) (hd : SentAs d m)
    (hsrc : d = m.wire → m.seqnum = num K → src = x) :
    ∃ k', (k' = 3 + K ∨ (d = m.wire ∧ m.seqnum = num K)) ∧
      ListenerMoves child me x (3 + K) (apiResume s (.acceptSend child)
        (sendPc (portBytes me.sin_port) K) (.datagram e d src)) [] k' := by
  have hn := nfrag_port me.sin_port
  have hpc : ∀ j ret, sendPc (portBytes me.sin_port) j ≠ .returned ret := fun j =>
    (sends_sendPc _ j).blocked
  rcases send_stretch ho hs (hn ▸ hK) hd e src with
    ⟨hw, hseq, hlt, hr⟩ | ⟨hw, hseq, hlast, hr⟩ | hr
  · -- the marker follows
    obtain rfl : K = 0 := by omega
    rw [apiResume_blocked hr (hpc _)]
    refine ⟨4, Or.inr ⟨hw, hseq⟩, Or.inr rfl, .port 1 ⟨ho.notClosing, ho.connected⟩ hx (le_refl 1)
      ?_ hb, ⟨1, ?_⟩, rfl, rfl⟩
    · show s.sendSeqnum_ + 1 = num 1
      rw [hs, num_succ]
    · rw [← hx]
      rfl
  · -- accept returns
    obtain rfl : K = 1 := by omega
    rw [apiResume, hr]
    refine ⟨5, Or.inr ⟨hw, hseq⟩, Or.inr rfl, ?_, ⟨0, rfl⟩, rfl, rfl⟩
    rw [← hsrc hw hseq]
    exact .served (ho.from src) hb
  · -- the message goes out again
    rw [apiResume_blocked hr (hpc _)]
    refine ⟨3 + K, Or.inl rfl, Or.inl rfl, .port K (ho.from src) hx hK hs hb, ⟨1, ?_⟩, ?_, ?_⟩
    · rw [downMsg_portBytes _ hK, ← hx]
      rfl
    · rw [childEnds_io, List.append_nil]
    · rw [List.append_nil]

/-- A datagram of its own client. -/
theorem ListenerAt.hears (h : ListenerAt child me x k s (.blocked stage pc))
    (hd : SentAs d (upMsg r)) (hlo : upLo k ≤ r) (hhi : downLo r ≤ k) (e : Errno) :
    ∃ k', upLo k' ≤ r ∧ ListenerMoves child me x k (apiResume s stage pc (.datagram e d x))
      (received s pc (.datagram e d x)) k' := by
  generalize hq : ApiPc.blocked stage pc = q at h
  cases h with
  | request _ ho hx hc hs hb ht =>
    obtain ⟨rfl, rfl⟩ := ApiPc.blocked.inj hq
    have hdue := upMsg_due hc hhi
    obtain ⟨k', hk', hmoves⟩ := request_hears child me x e ho hx hc hs hb ht hd
      fun _ => hdue.imp_left And.left
    refine ⟨k', ?_, hmoves⟩
    rcases hk' with rfl | ⟨_, hpkt⟩
    · exact hlo
    · obtain ⟨_, hr⟩ := hdue.resolve_right fun h => h.1 (by rw [hpkt, pkt_seqnum])
      obtain rfl | rfl := hmoves.near
      · exact hlo
      · exact hr
  | finalizing ho hx hb hresp =>
    obtain ⟨rfl, rfl⟩ := ApiPc.blocked.inj hq
    obtain ⟨k', _, hmoves⟩ := finalizing_hears child me x e ho hx hb hresp hd
      (fun _ => startsNext_of_length_zero (upMsg_empty hlo) hd.isPrefix) fun _ _ => rfl
    refine ⟨k', ?_, hmoves⟩
    obtain rfl | rfl := hmoves.near <;> exact hlo
  | port K ho hx hK hs hb =>
    obtain ⟨rfl, rfl⟩ := ApiPc.blocked.inj hq
    obtain ⟨k', hk', hmoves⟩ := port_hears child me x e ho hx hK hs hb hd fun _ _ => rfl
    rw [received_sendPc]
    refine ⟨k', ?_, hmoves⟩
    rcases hk' with rfl | ⟨_, hseq⟩
    · exact hlo
    · obtain rfl | rfl := hmoves.near
      · exact hlo
      · exact upMsg_answer hK hlo hseq
  | served ho hb => cases hq

/-- A datagram that is refused, from anywhere. -/
theorem ListenerAt.refuses (h : ListenerAt child me x k s (.blocked stage pc)) (hd : SentAs d m)
    (hr : Refuses s e d pc) (src : SockaddrIn) :
    ListenerMoves child me x k (apiResume s stage pc (.datagram e d src))
      (received s pc (.datagram e d src)) k := by
  have hwhole : d = m.wire → accepted d = true ∧ ofDatagram d = m := fun hw =>
    ⟨hd.accepted_wire hw, (hd.whole (hd.accepted_wire hw)).2⟩
  generalize hq : ApiPc.blocked stage pc = q at h
  cases h with
  | request _ ho hx hc hs hb ht =>
    obtain ⟨rfl, rfl⟩ := ApiPc.blocked.inj hq
    have hno : d = m.wire → m.seqnum ≠ num k ∧ m.hasFlag EOS = false := fun hw => by
      obtain ⟨ha, hm⟩ := hwhole hw
      obtain ⟨hseq, heos, _⟩ := hr ha
      rw [hm] at hseq heos
      exact ⟨hs ▸ hseq, heos⟩
    obtain ⟨k', hk', hmoves⟩ := request_hears child me src e
      ho hx hc hs hb ht hd fun hw => Or.inr (hno hw)
    rcases hk' with rfl | ⟨hw, rfl⟩
    · exact hmoves
    · exact absurd (pkt_seqnum _ _) (hno hw).1
  | finalizing ho hx hb hresp =>
    obtain ⟨rfl, rfl⟩ := ApiPc.blocked.inj hq
    obtain ⟨_, hstart, hno⟩ := hr
    obtain ⟨k', hk', hmoves⟩ := finalizing_hears child me src e
      ho hx hb hresp hd hstart fun hnil he => absurd ⟨hnil, he⟩ hno
    rcases hk' with rfl | ⟨_, hnil, he⟩
    · exact hmoves
    · exact absurd ⟨hnil, he⟩ hno
  | port K ho hx hK hs hb =>
    obtain ⟨rfl, rfl⟩ := ApiPc.blocked.inj hq
    have hno : d = m.wire → m.seqnum ≠ num K := fun hw => by
      obtain ⟨ha, hm⟩ := hwhole hw
      have hseq : (ofDatagram d).seqnum ≠ (pkt (portBytes me.sin_port) K).seqnum := by
        unfold sendPc at hr
        split at hr <;> exact (hr ha).1
      rwa [hm, pkt_seqnum] at hseq
    obtain ⟨k', hk', hmoves⟩ := port_hears child me src e
      ho hx hK hs hb hd fun hw hseq => absurd hseq (hno hw)
    rw [received_sendPc]
    rcases hk' with rfl | ⟨hw, hseq⟩
    · exact hmoves
    · exact absurd hseq (hno hw)
  | served ho hb => cases hq

/-- The timer fires; it does not while the request is awaited. -/
theorem ListenerAt.timer (h : ListenerAt child me x k s (.blocked stage pc)) (ht : s.timeout ≠ 0)
    (hfrom : ∀ L ack response, pc = .finalizeRecv L ack response → s.fromEndpoint_ = x) :
    ∃ k', upLo k' ≤ upLo k ∧
      ListenerMoves child me x k (apiResume s stage pc (.error .EAGAIN)) [] k' := by
  generalize hq : ApiPc.blocked stage pc = q at h
  cases h with
  | request _ ho hx hc hs hb hnone => exact absurd hnone ht
  | finalizing ho hx hb hresp =>
    obtain ⟨rfl, rfl⟩ := ApiPc.blocked.inj hq
    exact ⟨3, le_refl 2,
      finalizing_ends ho hx hb (hfrom _ _ _ rfl) (finalize_timeout ho 32 _ _)⟩
  | port K ho hx hK hs hb =>
    obtain ⟨rfl, rfl⟩ := ApiPc.blocked.inj hq
    rw [apiResume_blocked (send_timer ho _ K) (sends_sendPc _ K).blocked]
    refine ⟨3 + K, le_refl _, Or.inl rfl, .port K ho hx hK hs hb, ⟨1, ?_⟩, ?_, ?_⟩
    · rw [downMsg_portBytes _ hK, ← hx]
      rfl
    · rw [childEnds_io, List.append_nil]
    · rw [List.append_nil]
  | served ho hb => cases hq

end Listener

/-! ## 5. The client -/

/-- Where a connect stands: not begun (0), in its send of the request (1 and 2), in its recv with
    the first messages of the port (3 and 4), in finalizeRecv (5), and at its return (6). -/
inductive ClientAt (host : UInt32) (port : UInt16) : Nat → RcsT → Option ApiPc → Prop
  | idle {s : RcsT} (hc : s.isClosing_ = false) (hb : Blank s.buffer_) : ClientAt host port 0 s none
  | request {s : RcsT} (K : Nat) (ho : Open s) (hx : s.endPoint_.sin_addr = host) (hK : K ≤ 1)
      (hs : s.sendSeqnum_ = num K) (hb : Blank s.buffer_) :
      ClientAt host port (1 + K) s (some (.blocked .connectSend (sendPc connectRequest K)))
  | port {s : RcsT} (c : Nat) (ho : Open s) (hx : s.endPoint_.sin_addr = host) (hc : c ≤ 1)
      (hs : s.recvSeqnum_ = num c) (hb : Has (portBytes port) c s.buffer_) :
      ClientAt host port (3 + c) s (some (.blocked .connectRecv (.recvLoop 16)))
  | finalizing {s : RcsT} {response : MsgT} (ho : Open s) (hx : s.endPoint_.sin_addr = host)
      (hb : Has (portBytes port) 2 s.buffer_) (hr : RcsT.startsNext response = false) :
      ClientAt host port 5 s
        (some (.blocked .connectRecv (.finalizeRecv 16 (control (num 1) ACK) response)))
  | connected {s : RcsT} (hx : s.endPoint_ = ⟨host, port⟩) :
      ClientAt host port 6 s (some (.returned (.connect 0)))

/-- A receive of a connect in phase `p`. -/
structure ClientMoves (host : UInt32) (port : UInt16) (p : Nat) (r : ApiRes) (p' : Nat) : Prop where
  near : p' = p ∨ p' = p + 1
  stands : ClientAt host port p' r.sock (some r.pc)
  sent : ∃ n, (sendings r.out).map Prod.fst = List.replicate n (upMsg p')

section Client

variable {host : UInt32} {port : UInt16} {src : SockaddrIn} {p r : Nat} {s : RcsT} {stage : Stage}
  {pc : Pc} {pc' : Option ApiPc} {m : MsgT} {d : List UInt8} {e : Errno}

/-- Before the listener sends its port, a client has nothing of it. -/
theorem ClientAt.early (h : ClientAt host port p s pc') (hp : p ≤ 3) (port' : UInt16) :
    ClientAt host port' p s pc' := by
  cases h with
  | idle hc hb => exact .idle hc hb
  | request K ho hx hK hs hb => exact .request K ho hx hK hs hb
  | port c ho hx hc hs hb =>
    obtain rfl : c = 0 := by omega
    exact .port 0 ho hx hc hs (hb.blank.has _)
  | finalizing => omega
  | connected => omega

/-- The start of connect. -/
theorem ClientAt.connects (h : ClientAt host port 0 s pc') (addr : SockaddrIn)
    (haddr : addr.sin_addr = host) : ClientMoves host port 0 (apiStart s (.connect addr)) 1 := by
  generalize hp : (0 : Nat) = p at h
  cases h with
  | idle hc hb =>
    have ho : Open (s.setEndpoint addr) := ⟨hc, rfl⟩
    have hsend := send_start ho connectRequest
    have hres : apiStart s (.connect addr) =
        ⟨sendStarted (s.setEndpoint addr), [.io ((sendStarted (s.setEndpoint addr)).rawsend
          (pkt connectRequest 0))], .blocked .connectSend (sendPc connectRequest 0)⟩ := by
      show proceed .connectSend (start (s.setEndpoint addr) (.send connectRequest)) = _
      rw [hsend]
      exact proceed_blocked (sends_sendPc connectRequest 0).blocked _
    rw [hres]
    exact ⟨Or.inr rfl, .request 0 ho.sendStarted haddr (Nat.zero_le 1) rfl hb, 1, rfl⟩
  | request => omega
  | port => omega
  | finalizing => cases hp
  | connected => cases hp

/-- A receive in its send. -/
theorem ClientAt.request_hears (port : UInt16) (e : Errno) (src : SockaddrIn) {K : Nat}
    (ho : Open s) (hx : s.endPoint_.sin_addr = host)
    (hK : K ≤ 1) (hs : s.sendSeqnum_ = num K) (hb : Blank s.buffer_) (hd : SentAs d m) :
    ∃ p', (p' = 1 + K ∨ (d = m.wire ∧ m.seqnum = num K)) ∧
      ClientMoves host port (1 + K)
        (apiResume s .connectSend (sendPc connectRequest K) (.datagram e d src)) p' := by
  have hn := nfrag_connectRequest
  have hpc : ∀ j ret, sendPc connectRequest j ≠ .returned ret := fun j =>
    (sends_sendPc _ j).blocked
  rcases send_stretch ho hs (hn ▸ hK) hd e src with
    ⟨hw, hseq, hlt, hr⟩ | ⟨hw, hseq, hlast, hr⟩ | hr
  · -- the marker follows
    obtain rfl : K = 0 := by omega
    rw [apiResume_blocked hr (hpc 1)]
    refine ⟨2, Or.inr ⟨hw, hseq⟩, Or.inr rfl, .request 1 ⟨ho.notClosing, ho.connected⟩ hx
      (le_refl 1) ?_ hb, 1, rfl⟩
    show s.sendSeqnum_ + 1 = num 1
    rw [hs, num_succ]
  · -- the recv starts
    obtain rfl : K = 1 := by omega
    have hrecv : ({ s with fromEndpoint_ := src } : RcsT).recv 16 =
        ⟨{ s with fromEndpoint_ := src, recvSeqnum_ := 0 }, [], .recvLoop 16⟩ := by
      simp [RcsT.recv, RcsT.recvWhile, ho.notClosing]
    have hres : apiResume s .connectSend (sendPc connectRequest 1) (.datagram e d src) =
        ⟨{ s with fromEndpoint_ := src, recvSeqnum_ := 0 }, [.io (.acked (pkt connectRequest 1))],
          .blocked .connectRecv (.recvLoop 16)⟩ := by
      rw [apiResume, hr]
      show (connectEnd (RcsT.recv _ 16)).after _ = _
      rw [hrecv]
      rfl
    rw [hres]
    exact ⟨3, Or.inr ⟨hw, hseq⟩, Or.inr rfl, .port 0 ⟨ho.notClosing, ho.connected⟩ hx
      (Nat.zero_le 1) rfl (hb.has _), 0, rfl⟩
  · -- the message goes out again
    rw [apiResume_blocked hr (hpc _)]
    refine ⟨1 + K, Or.inl rfl, Or.inl rfl, .request K (ho.from src) hx hK hs hb, 1, ?_⟩
    rw [upMsg_request hK]
    rfl

/-- A receive in its recv. -/
theorem ClientAt.port_hears (e : Errno) (src : SockaddrIn) {c : Nat} (ho : Open s)
    (hx : s.endPoint_.sin_addr = host) (hc : c ≤ 1)
    (hs : s.recvSeqnum_ = num c) (hb : Has (portBytes port) c s.buffer_) (hd : SentAs d m)
    (hm : d = m.wire → m = pkt (portBytes port) c ∨ (m.seqnum ≠ num c ∧ m.hasFlag EOS = false)) :
    ∃ p', (p' = 3 + c ∨ (d = m.wire ∧ m = pkt (portBytes port) c)) ∧
      ClientMoves host port (3 + c)
        (apiResume s .connectRecv (.recvLoop 16) (.datagram e d src)) p' := by
  have hn := nfrag_port port
  rcases recv_stretch ho hs hn hc hd hm 16 e src with
    ⟨n, hr, _⟩ | ⟨hw, rfl, rfl, hr⟩ | ⟨hw, rfl, rfl, hr⟩
  · -- it answers
    rw [apiResume_blocked hr (fun _ => Pc.noConfusion)]
    refine ⟨3 + c, Or.inl rfl, Or.inl rfl, .port c (ho.from src) hx hc hs hb, n, ?_⟩
    have hack : control (num c - 1) ACK = upMsg (3 + c) := by
      obtain rfl | rfl : c = 0 ∨ c = 1 := by omega
      · rfl
      · rfl
    rw [sendings_replicate, hack, List.map_replicate]
  · -- it has the fragment
    rw [apiResume_blocked hr (fun _ => Pc.noConfusion)]
    refine ⟨4, Or.inr ⟨hw, rfl⟩, Or.inr rfl, .port 1 ⟨ho.notClosing, ho.connected⟩ hx (le_refl 1)
      ?_ (hb.queue (by omega)), 1, rfl⟩
    show s.recvSeqnum_ + 1 = num 1
    rw [hs, num_succ]
  · -- it has the marker
    rw [apiResume_blocked hr (fun _ => Pc.noConfusion)]
    exact ⟨5, Or.inr ⟨hw, rfl⟩, Or.inr rfl, .finalizing ⟨ho.notClosing, ho.connected⟩ hx
      (hb.queue (by omega)) rfl, 1, rfl⟩

/-- The end of its finalizeRecv: the port is taken over. -/
theorem ClientAt.finalizing_ends {ack response : MsgT} {o : RecvFrom} {s' : RcsT} (ho : Open s')
    (hx : s'.endPoint_.sin_addr = host) (hb : Has (portBytes port) 2 s'.buffer_)
    (h : resume s (.finalizeRecv 16 ack response) o = s'.finalizeEnd 16) :
    ClientMoves host port 5
      (apiResume s .connectRecv (.finalizeRecv 16 ack response) o) 6 := by
  have hn := nfrag_port port
  obtain ⟨b, hend, _⟩ := finalizeEnd_read ho (L := 16) (hn.symm ▸ hb) (portBytes_ne_nil port)
    (by rw [length_portBytes]; decide)
  rw [apiResume, h, hend]
  refine ⟨Or.inr rfl, .connected ?_, 0, rfl⟩
  show SockaddrIn.mk s'.endPoint_.sin_addr (portOf (portBytes port ++ _)) = _
  rw [portOf_portBytes, hx]

/-- A receive in its finalizeRecv. -/
theorem ClientAt.finalizing_hears (e : Errno) (src : SockaddrIn) {response : MsgT} (ho : Open s)
    (hx : s.endPoint_.sin_addr = host) (hb : Has (portBytes port) 2 s.buffer_)
    (hr : RcsT.startsNext response = false) (hd : SentAs d m) (hlen : m.length = 0) :
    ∃ p', ClientMoves host port 5 (apiResume s .connectRecv
      (.finalizeRecv 16 (control (num 1) ACK) response) (.datagram e d src)) p' := by
  rcases finalize_stretch ho hr hd
    (fun _ => startsNext_of_length_zero hlen hd.isPrefix) 16 (control (num 1) ACK) e src with
    ⟨_, _, hend⟩ | ⟨response', hr', hgo⟩
  · exact ⟨6, finalizing_ends (ho.from src) hx hb hend⟩
  · rw [apiResume_blocked hgo (fun _ => Pc.noConfusion)]
    exact ⟨5, Or.inl rfl, .finalizing (ho.from src) hx hb hr', 1, rfl⟩

/-- A datagram of the listener. -/
theorem ClientAt.hears (h : ClientAt host port p s (some (.blocked stage pc)))
    (hd : SentAs d (downMsg port r)) (hlo : downLo p ≤ r) (hhi : upLo r ≤ p) (e : Errno)
    (src : SockaddrIn) : ∃ p', downLo p' ≤ r ∧
      ClientMoves host port p (apiResume s stage pc (.datagram e d src)) p' := by
  generalize hq : some (ApiPc.blocked stage pc) = q at h
  cases h with
  | idle hc hb => cases hq
  | request K ho hx hK hs hb =>
    obtain ⟨rfl, rfl⟩ := ApiPc.blocked.inj (Option.some.inj hq)
    obtain ⟨p', hp', hmoves⟩ := request_hears port e src ho hx hK hs hb hd
    refine ⟨p', ?_, hmoves⟩
    rcases hp' with rfl | ⟨_, hseq⟩
    · exact hlo
    · obtain rfl | rfl := hmoves.near
      · exact hlo
      · exact downMsg_answer hK hlo hseq
  | port c ho hx hc hs hb =>
    obtain ⟨rfl, rfl⟩ := ApiPc.blocked.inj (Option.some.inj hq)
    have hdue := downMsg_due port hc hlo hhi
    obtain ⟨p', hp', hmoves⟩ := port_hears e src ho hx hc hs hb hd fun _ =>
      hdue.imp_left And.left
    refine ⟨p', ?_, hmoves⟩
    rcases hp' with rfl | ⟨_, hpkt⟩
    · exact hlo
    · obtain ⟨_, hr⟩ := hdue.resolve_right fun h => h.1 (by rw [hpkt, pkt_seqnum])
      obtain rfl | rfl := hmoves.near
      · exact hlo
      · exact hr
  | finalizing ho hx hb hresp =>
    obtain ⟨rfl, rfl⟩ := ApiPc.blocked.inj (Option.some.inj hq)
    obtain ⟨p', hmoves⟩ := finalizing_hears e src ho hx hb hresp hd (downMsg_empty port hlo)
    refine ⟨p', ?_, hmoves⟩
    obtain rfl | rfl := hmoves.near <;> exact hlo
  | connected hx => cases hq

/-- Its timer fires. -/
theorem ClientAt.timer (h : ClientAt host port p s (some (.blocked stage pc))) :
    ∃ p', downLo p' ≤ downLo p ∧
      ClientMoves host port p (apiResume s stage pc (.error .EAGAIN)) p' := by
  generalize hq : some (ApiPc.blocked stage pc) = q at h
  cases h with
  | idle hc hb => cases hq
  | request K ho hx hK hs hb =>
    obtain ⟨rfl, rfl⟩ := ApiPc.blocked.inj (Option.some.inj hq)
    rw [apiResume_blocked (send_timer ho _ K) (sends_sendPc _ K).blocked]
    refine ⟨1 + K, le_refl _, Or.inl rfl, .request K ho hx hK hs hb, 1, ?_⟩
    rw [upMsg_request hK]
    rfl
  | port c ho hx hc hs hb =>
    obtain ⟨rfl, rfl⟩ := ApiPc.blocked.inj (Option.some.inj hq)
    have hr : resume s (.recvLoop 16) (.error .EAGAIN) = _ := recvPass_timeout ho 16
    rw [apiResume_blocked hr (fun _ => Pc.noConfusion)]
    exact ⟨3 + c, le_refl _, Or.inl rfl, .port c ho hx hc hs hb, 0, rfl⟩
  | finalizing ho hx hb hresp =>
    obtain ⟨rfl, rfl⟩ := ApiPc.blocked.inj (Option.some.inj hq)
    exact ⟨6, le_refl 4, finalizing_ends ho hx hb (finalize_timeout ho 16 _ _)⟩
  | connected hx => cases hq

end Client

end Ece358.Rcs
