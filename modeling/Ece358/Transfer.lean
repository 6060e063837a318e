/-
  File:      Ece358/Transfer.lean
  Subject:   rcsapp-client.c and rcsapp-server.c: a file sent over one connection.

  The client reads its stdin piece by piece, sends each piece, and closes its socket. The thread of
  the server writes what it receives to a file, until rcsRecv returns 0. Both sockets are connected;
  the channels lose and cut datagrams, as in `Net`. Behind a close nothing leaves the descriptor,
  and what a receive on it yields is anybody's guess.

  * `Transfer`, `TransferAct`, `Transfer.step` -- the two programs and what is between them;
  * `Res.leaving`, `Net.hearA`, `Net.deafA`, `Net.rcsCloseA` -- closing, as `Net` does not have it;
  * `Dir.ignores` -- what a piece of a FIN does to the receiver;
  * `Phase` -- the client is sending, or it has closed and the server has yet to hear of it, or the
    server has;
  * `Writing` -- the file, and what rcsRecv has returned and was not yet written;
  * `Drained` -- the server has read a FIN, and all of the data is in its file or its buffer;
  * `Moved` -- what a step does.
-/
import Ece358.ByteCount
import Ece358.OneWay
import Ece358.Process
import Mathlib.Data.List.TakeWhile

namespace Ece358.Rcs

open Lib MsgT

/-! ## 1. Closing -/

/-- The event closes the descriptor. -/
def Event.closes : Event → Bool
  | .closed _ => true
  | _ => false

/-- The datagrams of a stretch that leave the host: none behind the close. -/
def Res.leaving (r : Res) : List (List UInt8) :=
  ({ r with out := r.out.takeWhile fun ev => !ev.closes } : Res).datagrams

/-- A receive that ends with a datagram of the peer. -/
def Endpoint.heard (e : Endpoint) (errno : Errno) (d : List UInt8) : Res :=
  resume e.sock e.pc (.datagram errno d e.sock.endPoint_)

namespace Net

/-- Side A receives the oldest datagram of the channel towards it. -/
def hearA (n : Net) (errno : Errno) : Option Net :=
  match n.ba with
  | [] => none
  | d :: ba =>
    if n.a.pc.idle = false then
      let r := n.a.heard errno d
      some { n with a := n.a.went [] r, ab := n.ab ++ r.leaving, ba := ba }
    else none

/-- Side A receives on a descriptor that it has closed. -/
def deafA (n : Net) (o : RecvFrom) : Option Net :=
  if n.a.pc.idle = false then some { n with a := n.a.went [] (resume n.a.sock n.a.pc o) } else none

/-- rcsClose on side A; the FINs of a descriptor that was closed before go nowhere. -/
def rcsCloseA (n : Net) : Net :=
  { n with
    a := ⟨n.a.sock.close.1, n.a.pc, n.a.record ++ n.a.sock.close.2.map .did⟩
    ab := n.ab ++ if n.a.sock.isClosing_ then []
      else (n.a.sock.close.2.filterMap Event.message).map MsgT.wire }

end Net

/-! ## 2. The two programs -/

/-- `unsigned char buf[256]`, in both of them. -/
def BUF_SIZE : Nat := 256

/-- `main` of the client: in its loop, or behind rcsClose. -/
inductive ClientMain where
  | loop
  | closed
  deriving DecidableEq

/-- `serviceConnection`: at the head of its loop, in rcsRecv or just behind it, or returned, because
    rcsRecv gave 0 or because write() wrote too few. -/
inductive Service where
  | loop
  | rcsRecv
  | quit
  | tooFew
  deriving DecidableEq

/-- The state: the sockets, where the programs are, what is left of the client's stdin, and what the
    server has written. -/
structure Transfer where
  net : Net
  main : ClientMain
  input : List UInt8
  service : Service
  file : List UInt8
  deriving DecidableEq

/-- What can happen. `read`: the client's read() returns `n` bytes, which are sent; `readEnds`: it
    returns 0 or fails. `rcsRecv`: the thread calls it; `write`: it goes on behind it, and write()
    writes `n` bytes. `net`: a timer fires, or a channel loses or cuts a datagram; `hear` and
    `deaf`: a receive ends, on an open descriptor and on a closed one. -/
inductive TransferAct where
  | read (n : Nat)
  | readEnds
  | rcsRecv
  | write (n : Nat)
  | net (side : Side) (act : Act)
  | hear (side : Side) (errno : Errno)
  | deaf (side : Side) (o : RecvFrom)
  deriving DecidableEq

namespace Transfer

/-- Both sockets are connected, and nothing was read or written. -/
def init (net : Net) (stdin : List UInt8) : Transfer := ⟨net, .loop, stdin, .loop, []⟩

/-- A step of the sockets. -/
def onNet (t : Transfer) (net : Option Net) : Option Transfer :=
  net.map fun net => { t with net := net }

/-- The client's loop behind its read(). -/
def clientRead (t : Transfer) (n : Nat) : Option Transfer :=
  if t.main = .loop ∧ t.net.a.pc.idle = true ∧ 0 < n ∧ n ≤ BUF_SIZE ∧ n ≤ t.input.length then
    ({ t with input := t.input.drop n }).onNet
      (t.net.step (.A, .call (.send (t.input.take n))))
  else none

/-- The thread behind rcsRecv. -/
def serviceWrite (t : Transfer) (n : Nat) : Option Transfer :=
  match t.service, t.net.b.pc with
  | .rcsRecv, .returned (.recv bytes) =>
    if bytes = [] then some { t with service := .quit, net := t.net.swap.rcsCloseA.swap }
    else if n = bytes.length then some { t with service := .loop, file := t.file ++ bytes }
    else if n < bytes.length then
      some { t with
        service := .tooFew, file := t.file ++ bytes.take n, net := t.net.swap.rcsCloseA.swap }
    else none
  | _, _ => none

/-- The socket of one side. -/
def sock (t : Transfer) : Side → RcsT
  | .A => t.net.a.sock
  | .B => t.net.b.sock

/-- The actions that are no part of a program; a closed descriptor has no timer. -/
def plain (t : Transfer) (side : Side) : Act → Bool
  | .timeout => !(t.sock side).isClosing_
  | .lose _ => true
  | .cut _ _ => true
  | .call _ => false
  | .receive _ => false

def step (t : Transfer) : TransferAct → Option Transfer
  | .read n => t.clientRead n
  | .readEnds =>
    if t.main = .loop ∧ t.net.a.pc.idle = true then
      some { t with main := .closed, net := t.net.rcsCloseA }
    else none
  | .rcsRecv =>
    if t.service = .loop then
      ({ t with service := .rcsRecv }).onNet (t.net.step (.B, .call (.recv BUF_SIZE)))
    else none
  | .write n => t.serviceWrite n
  | .net side act => if t.plain side act then t.onNet (t.net.step (side, act)) else none
  | .hear .A errno =>
    if t.net.a.sock.isClosing_ then none else t.onNet (t.net.hearA errno)
  | .hear .B errno =>
    if t.net.b.sock.isClosing_ then none else t.onNet ((t.net.swap.hearA errno).map Net.swap)
  | .deaf .A o => if t.net.a.sock.isClosing_ then t.onNet (t.net.deafA o) else none
  | .deaf .B o =>
    if t.net.b.sock.isClosing_ then t.onNet ((t.net.swap.deafA o).map Net.swap) else none

end Transfer

/-! ## 3. One receive -/

section Receives

variable {s : RcsT} {pc : Pc} {o : RecvFrom} {n n' : Net} {errno : Errno}

/-- A `rawrecv` that leaves the socket open does nothing but read. -/
theorem rawrecv_out_of_open (h : (s.rawrecv o).sock.isClosing_ = false) :
    (s.rawrecv o).out = [] := by
  cases o with
  | error e => rw [rawrecv_failed]
  | datagram e d src =>
    by_cases hne : d = []
    · rw [hne, rawrecv_nothing]
    · by_cases hfin : IsFin d
      · rw [rawrecv_fin hfin] at h
        cases (finished_closing s src).symm.trans h
      · rw [rawrecv_plain hfin hne]

/-- Where a stretch leaves its socket open, all that it sends leaves the host. -/
theorem leaving_of_open (hp : pc.idle = false) (ho : (resume s pc o).sock.isClosing_ = false) :
    (resume s pc o).leaving = (resume s pc o).datagrams := by
  obtain ⟨es, hout, hk⟩ := resume_split hp s o
  have hnil := rawrecv_out_of_open (hk.closing.symm.trans ho)
  have hnone : ∀ ev ∈ (resume s pc o).out, (!ev.closes) = true := by
    intro ev hev
    rw [hout, hnil, List.nil_append] at hev
    have hstays := hk.events (.io ev) (List.mem_map_of_mem hev)
    cases ev with
    | closed fd => exact hstays.elim
    | _ => rfl
  rw [Res.leaving, List.takeWhile_eq_self_iff.mpr hnone]

theorem hearA_cases (h : n.hearA errno = some n') :
    ∃ d ba, n.a.pc.idle = false ∧ n.ba = d :: ba ∧
      n' = ⟨n.a.went [] (n.a.heard errno d), n.b, n.ab ++ (n.a.heard errno d).leaving, ba⟩ := by
  obtain ⟨a, b, ab, ba⟩ := n
  cases ba with
  | nil => cases h
  | cons d ba =>
    rw [Net.hearA, Option.ite_none_right_eq_some, Option.some.injEq] at h
    obtain ⟨hp, rfl⟩ := h
    exact ⟨d, ba, hp, rfl, rfl⟩

end Receives

section Ignores

variable {st : Prop} {D : List UInt8} {K c : Nat} {old : List MsgT} {ks : List Nat}
  {as : List UInt16} {sa sb : RcsT} {pa pb : Pc} {d : List UInt8}

/-- A datagram that is not accepted, and does not look like a first fragment, tells the receiver
    nothing. -/
theorem Dir.ignores (h : Dir st D K c old ks as sa pa sb pb) (hp : pb.receiving = true)
    (hd : accepted d = false) (hn : RcsT.startsNext (ofDatagram d) = false) (e : Errno)
    (src : SockaddrIn) :
    let r := resume sb pb (.datagram e d src)
    Receives r ∧ Received D sb.buffer_ r c c ∧
      Dir st D K c old ks (as ++ acks r.messages) sa pa r.sock r.pc := by
  intro r
  have ho := h.openB.from src
  have hfin : NoFin d := fun ha => absurd (hd.symm.trans ha) Bool.false_ne_true
  have hmsg : ∀ v, acks [control v ACK] = [v] := fun v => acks_cons_ack v []
  cases pb with
  | recvLoop L =>
    have hstay : ReceiverAt (nfrag D) c { sb with fromEndpoint_ := src } (.recvLoop L) := h.receiver
    by_cases hq : d = [] ∧ e = .EAGAIN
    · have hr : r = ⟨{ sb with fromEndpoint_ := src }, [], .recvLoop L⟩ := by
        obtain ⟨rfl, rfl⟩ := hq
        exact recvPass_empty h.openB L
      rw [hr]
      refine ⟨⟨ho, trivial, by simp [Res.messages], rfl, rfl, rfl, rfl⟩, .nothing rfl rfl rfl, ?_⟩
      exact h.stays ho hstay rfl |>.weaken (List.Sublist.refl _) (List.Sublist.refl _)
        (by simp [Res.messages, acks])
    · have hr : r = ⟨{ sb with fromEndpoint_ := src },
          [({ sb with fromEndpoint_ := src } : RcsT).rawsend (readyAck sb)], .recvLoop L⟩ := by
        have hres : r = { sb with fromEndpoint_ := src }.recvBody L (ofDatagram d) (accepted d) :=
          recvPass_received h.openB hfin (by by_cases hd0 : d = [] <;> simp_all)
        rw [hres, hd, recvBody_invalid ho]
        rfl
      rw [hr]
      refine ⟨⟨ho, trivial, by simp [Res.messages, Event.message, RcsT.rawsend], rfl, rfl, rfl,
        rfl⟩, .nothing rfl rfl rfl, ?_⟩
      exact (hmsg (pend sb (.recvLoop L))) ▸ h.repliesReady ho hstay rfl
  | finalizeRecv L ack response =>
    obtain ⟨hc, ha, hs⟩ := h.finalizing_between
    rcases finalize_cases h.openB hfin hs L ack e src with ⟨_, hr⟩ | ⟨_, _, response', hs', hr⟩
    · have hend := h.finalizeEnd ho rfl
      have hno : acks r.messages = [] := by
        simp only [r, hr]
        rcases finalizeEnd_cases ho L with ⟨_, h1⟩ | ⟨_, h1⟩ <;> rw [h1] <;> rfl
      rw [hno, List.append_nil]
      refine ⟨?_, ?_⟩ <;> simp only [r, hr]
      · exact receives_finalizeEnd ho L
      · exact hend
    · obtain ⟨v, rfl⟩ := ha
      simp only [r, hr]
      refine ⟨⟨ho, ⟨isAck_control v, hs'⟩, by simp [Res.messages, Event.message, RcsT.rawsend],
        rfl, rfl, rfl, rfl⟩, .nothing rfl rfl rfl, ?_⟩
      exact (hmsg v) ▸ h.repliesReady ho (receiverAt_between ⟨isAck_control v, hs'⟩ hc) rfl
  | sendFragment _ _ _ => cases hp
  | sendEos _ _ => cases hp
  | returned _ => cases hp

end Ignores

/-! ## 4. The file -/

/-- What the thread has written, and what rcsRecv has returned to it and was not yet written. -/
inductive Writing (service : Service) (file : List UInt8) (e : Endpoint) : Prop where
  | head (hs : service = .loop) (hp : e.pc.idle = true) (hfile : file = (recvs e.record).flatten)
  | blocked (hs : service = .rcsRecv) (hp : RecvBlocked BUF_SIZE e.pc)
      (hfile : file = (recvs e.record).flatten)
  | returned (bytes : List UInt8) (hs : service = .rcsRecv) (hp : e.pc = .returned (.recv bytes))
      (hfile : file ++ bytes = (recvs e.record).flatten)
      (hnil : bytes = [] → e.sock.isClosing_ = true ∧ e.sock.buffer_.unread = [])

section Writing

variable {file : List UInt8} {e : Endpoint} {es : List Entry} {r : Res} {b : MsgBufferT}
  {closing : Bool} {msgs : List MsgT} {L : Nat} {o : RecvFrom} {service : Service}

/-- A stretch that does not return has no result in its record. -/
theorem recvs_blocked (h : RecvBlocked L r.pc) : recvs r.entries = [] := by
  rw [entries_of_blocked h.not_idle]
  exact recvs_did r.out

theorem recvs_returned {bytes : List UInt8} (h : r.pc = .returned (.recv bytes)) :
    recvs r.entries = [bytes] := by
  rw [Res.entries, h, recvs_append, recvs_did]
  rfl

/-- What a recv takes, and what it leaves. -/
theorem frontOf_leftOf (hb : b.Exact) (L : Nat) :
    frontOf L b ++ (leftOf L b).unread.flatten = b.unread.flatten := by
  unfold frontOf leftOf
  split
  · rfl
  · obtain ⟨hread, hleft, _⟩ := MsgBufferT.read_spec hb L
    rw [hread, hleft]
    exact frontPart_append_afterFront L b.unread

theorem exact_leftOf (hb : b.Exact) (L : Nat) : (leftOf L b).Exact := by
  unfold leftOf
  split
  · exact hb
  · exact hb.read L

/-- A recv with room that returns nothing has found its buffer empty. -/
theorem unread_of_frontOf_nil (hb : b.Exact) (hL : 0 < L) (hf : frontOf L b = []) :
    b.empty = true ∧ (leftOf L b).unread = [] := by
  have he : b.empty = true := by
    by_contra he
    rw [Bool.not_eq_true] at he
    rw [frontOf, he] at hf
    exact MsgBufferT.read_ne_nil hb hL he hf
  refine ⟨he, ?_⟩
  rw [leftOf, if_pos he]
  exact hb.empty_iff.mp he

/-- A stretch of the thread's rcsRecv. -/
theorem writing_stretch (hfile : file = (recvs e.record).flatten) (hes : recvs es = [])
    (hr : RecvStretch BUF_SIZE b closing msgs r) (hoff : ReadsOff BUF_SIZE b r) (hb : b.Exact) :
    Writing .rcsRecv file (e.went es r) := by
  rcases hr.goes with ⟨hp, _⟩ | hp
  · refine .blocked rfl hp ?_
    rw [went_record, recvs_append, recvs_append, hes, recvs_blocked hp, hfile]
    simp
  · obtain ⟨hleft, hclosing⟩ := hoff (by rw [hp]; rfl)
    refine .returned _ rfl hp ?_ fun hnil => ?_
    · rw [went_record, recvs_append, recvs_append, hes, recvs_returned hp, hfile]
      simp
    · obtain ⟨he, hunread⟩ := unread_of_frontOf_nil hb (by decide) hnil
      exact ⟨hclosing he, by rw [went_sock, hleft, hunread]⟩

/-- The thread calls rcsRecv. -/
theorem Writing.calls (h : Writing .loop file e) (hb : e.sock.buffer_.Exact) :
    Writing .rcsRecv file
      (e.went [.called (.recv BUF_SIZE)] (start e.sock (.recv BUF_SIZE))) := by
  cases h with
  | head hs hp hfile =>
    exact writing_stretch hfile rfl (stretch_recv e.sock BUF_SIZE)
      (readsOff_recv e.sock BUF_SIZE) hb
  | blocked hs hp hfile => cases hs
  | returned bytes hs hp hfile hnil => cases hs

/-- What recv queues keeps the count exact, where markers have no payload. -/
theorem exact_queueAll (hb : b.Exact) (hfits : ∀ m ∈ msgs, m.length.toNat ≤ MAX_DATA_LENGTH)
    (hm : ∀ m ∈ msgs, m.hasFlag EOS = true → m.length = 0) : (queueAll b msgs).Exact := by
  induction msgs generalizing b with
  | nil => exact hb
  | cons m msgs ih =>
    exact ih (hb.queue (hfits m List.mem_cons_self) (hm m List.mem_cons_self))
      (fun m' h => hfits m' (List.mem_cons_of_mem m h)) fun m' h => hm m' (List.mem_cons_of_mem m h)

/-- A call of the thread that is blocked is its rcsRecv. -/
theorem Writing.blocked_of_busy (h : Writing service file e) (hp : e.pc.idle = false) :
    service = .rcsRecv ∧ RecvBlocked BUF_SIZE e.pc := by
  cases h with
  | blocked hs hb => exact ⟨hs, hb⟩
  | head _ hidle => cases hp.symm.trans hidle
  | returned _ _ hret =>
    rw [hret] at hp
    cases hp

/-- A receive of the thread's rcsRecv. -/
theorem Writing.resumes (h : Writing service file e) (hp : e.pc.idle = false)
    (hb : e.sock.buffer_.Exact)
    (hm : ∀ m ∈ received e.sock e.pc o, m.hasFlag EOS = true → m.length = 0) :
    Writing service file (e.went [] (resume e.sock e.pc o)) := by
  cases h with
  | blocked hs hblocked hfile =>
    subst hs
    exact writing_stretch hfile rfl (stretch_resume hblocked e.sock o)
      (readsOff_resume hblocked e.sock o) (exact_queueAll hb (fun m h => received_fits h) hm)
  | head hs hidle hfile => cases hp.symm.trans hidle
  | returned bytes hs hret hfile hnil =>
    rw [hret] at hp
    cases hp

end Writing

/-! ## 5. The phases -/

/-- The datagram of a FIN, as close sends it. -/
def finWire : List UInt8 := (control 666 FIN).wire

theorem built_fin : (control 666 FIN).Built := built_control 666 rfl

theorem isFin_finWire : IsFin finWire := by
  refine ⟨accepted_wire built_fin, ?_⟩
  rw [finWire, ofDatagram_wire built_fin, hasFlag_control]
  rfl

/-- A piece of a FIN is a FIN, or it is not accepted. -/
theorem fin_piece {d : List UInt8} (h : d <+: finWire) :
    d = finWire ∨ accepted d = false := by
  cases ha : accepted d with
  | true => exact Or.inl ( accepted_prefix built_fin h ha)
  | false => exact Or.inr rfl

theorem fin_not_next {d : List UInt8} (h : d <+: finWire) :
    RcsT.startsNext (ofDatagram d) = false := startsNext_of_length_zero rfl h

/-- What is left of the data when the client has closed: the server's file, and its buffer. -/
structure Drained (t : Transfer) : Prop where
  closing : t.net.b.sock.isClosing_ = true
  finalizing : t.net.b.pc.idle = false → t.net.b.pc.finalizing = true
  exact : t.net.b.sock.buffer_.Exact
  bytes : (recvs t.net.b.record).flatten ++ t.net.b.sock.buffer_.unread.flatten =
    (sends t.net.a.record).flatten

/-- The client is in its loop; or it has closed, and the server has not read its FIN; or it has.
    `client` is the client's endpoint before the close, and `data` what it had sent. -/
inductive Phase (t : Transfer) : Prop where
  | sending (hmain : t.main = .loop) (h : OneWayAt t.net)
  | closed (hmain : t.main = .closed) (hidle : t.net.a.pc.idle = true) (client : Endpoint)
      (data fins : List (List UInt8)) (h : OneWayAt ⟨client, t.net.b, data, t.net.ba⟩)
      (hclient : client.pc.idle = true) (hsends : sends client.record = sends t.net.a.record)
      (hab : t.net.ab = data ++ fins) (hfins : ∀ d ∈ fins, d <+: finWire)
  | drained (hmain : t.main = .closed) (hidle : t.net.a.pc.idle = true) (h : Drained t)

section Phase

variable {n : Net} {done : List (List UInt8)} {D : List UInt8} {K c : Nat} {old : List MsgT}
  {ks : List Nat} {ms : List MsgT} {d : List UInt8} {e : Errno} {src : SockaddrIn} {t : Transfer}

/-- Of the messages on their way only markers carry EOS, and they have no payload. -/
theorem OneWay.marks_empty (h : OneWay n done D K c old ks ms) {m : MsgT}
    (hm : m ∈ old ++ ks.map (pkt D)) (he : m.hasFlag EOS = true) : m.length = 0 := by
  rcases List.mem_append.mp hm with hm | hm
  · obtain ⟨v, rfl | rfl⟩ := h.dir.oldControl m hm <;> rfl
  · obtain ⟨k, hk, rfl⟩ := List.mem_map.mp hm
    exact pkt_length_of_eos (h.dir.ksOk k hk).2.1 he

/-- What the receiver queues, of the oldest datagram on its way to it. -/
theorem OneWayAt.received_empty (h : OneWayAt n) {ab : List (List UInt8)} (hab : n.ab = d :: ab)
    (pc : Pc) : ∀ m ∈ received n.b.sock pc (.datagram e d src), m.hasFlag EOS = true →
      m.length = 0 := by
  obtain ⟨done, D, K, c, old, ks, ms, h⟩ := h
  have hcarries := h.ab
  rw [hab] at hcarries
  obtain ⟨m', rest, hd, _, hch⟩ := List.forall₂_cons_left_iff.mp hcarries
  intro m hm he
  unfold received at hm
  split at hm
  · split at hm
    next hacc =>
      obtain rfl := List.mem_singleton.mp hm
      rename_i d' _ ho
      cases ho
      obtain ⟨_, hof⟩ := hd.whole hacc.1
      rw [hof] at he ⊢
      exact h.marks_empty (hch ▸ List.mem_cons_self) he
    · cases hm
  · cases hm

theorem OneWayAt.openB (h : OneWayAt n) : Open n.b.sock := by
  obtain ⟨done, D, K, c, old, ks, ms, h⟩ := h
  exact h.dir.openB

theorem OneWayAt.openA (h : OneWayAt n) : Open n.a.sock := by
  obtain ⟨done, D, K, c, old, ks, ms, h⟩ := h
  exact h.dir.openA

theorem OneWayAt.exact (h : OneWayAt n) : n.b.sock.buffer_.Exact := by
  obtain ⟨done, D, K, c, old, ks, ms, h⟩ := h
  exact h.delivered.exact

theorem OneWayAt.receiving (h : OneWayAt n) (hp : n.b.pc.idle = false) :
    n.b.pc.receiving = true := by
  obtain ⟨done, D, K, c, old, ks, ms, h⟩ := h
  exact (sending_or_receiving hp).resolve_left (by simp [h.notSending])

theorem OneWayAt.isPrefix (h : OneWayAt n) :
    (recvs n.b.record).flatten <+: (sends n.a.record).flatten := by
  obtain ⟨done, D, K, c, old, ks, ms, h⟩ := h
  rw [h.sends_flatten]
  exact (List.prefix_append _ _).trans h.delivered.isPrefix

/-- Between two sends, all that was sent is at the receiver. -/
theorem OneWayAt.complete (h : OneWayAt n) (hp : n.a.pc.idle = true) :
    (recvs n.b.record).flatten ++ n.b.sock.buffer_.unread.flatten = (sends n.a.record).flatten ∧
      Between n.b.sock n.b.pc := by
  obtain ⟨done, D, K, c, old, ks, ms, h⟩ := h
  have hK := h.dir.sender.done (not_sending_of_idle hp)
  have hKc := h.dir.K_le_c
  have hKle := h.dir.K_le
  have hcle := h.dir.c_le
  refine ⟨?_, h.dir.receiver.between (by omega)⟩
  rw [h.sends_flatten]
  exact h.delivered.complete (by omega)

/-- A datagram that tells the receiver nothing. -/
theorem OneWayAt.ignores (h : OneWayAt n) (hp : n.b.pc.idle = false) (hd : accepted d = false)
    (hn : RcsT.startsNext (ofDatagram d) = false) (e : Errno) (src : SockaddrIn) :
    let r := resume n.b.sock n.b.pc (.datagram e d src)
    OneWayAt ⟨n.a, n.b.went [] r, n.ab, n.ba ++ r.datagrams⟩ := by
  intro r
  have hreceiving := h.receiving hp
  obtain ⟨done, D, K, c, old, ks, ms, h⟩ := h
  obtain ⟨hr, hrec, hdir⟩ := h.dir.ignores hreceiving hd hn e src
  exact ⟨done, D, K, c, old, ks, ms ++ r.messages,
    h.receiverGoesOn hr hrec hdir h.ab fun _ hm => hm⟩

end Phase

section Fin

variable {s : RcsT} {L : Nat} {e : Endpoint} {es : List Entry} {r : Res} {b : MsgBufferT}
  {closing : Bool} {n : Net} {t : Transfer}

/-- A stretch that queues nothing moves bytes from the buffer to the results. -/
theorem bytes_stretch (hes : recvs es = []) (hb : b.Exact) (he : e.sock.buffer_ = b)
    (hr : RecvStretch L b closing [] r) (hoff : ReadsOff L b r) :
    (e.went es r).sock.buffer_.Exact ∧
      (recvs (e.went es r).record).flatten ++ (e.went es r).sock.buffer_.unread.flatten =
        (recvs e.record).flatten ++ e.sock.buffer_.unread.flatten := by
  rw [went_sock, went_record, recvs_append, recvs_append, hes, List.append_nil, he]
  rcases hr.goes with ⟨hp, hsame⟩ | hp
  · rw [hsame, recvs_blocked hp, List.append_nil]
    exact ⟨hb, rfl⟩
  · obtain ⟨hleft, _⟩ := hoff (by rw [hp]; rfl)
    rw [hleft, recvs_returned hp, List.flatten_append, List.flatten_singleton, List.append_assoc,
      frontOf_leftOf hb]
    exact ⟨exact_leftOf hb L, rfl⟩

/-- A call on a closing socket that returned or is in finalizeRecv stays so. -/
theorem finalizing_resume (h : s.isClosing_ = true) {pc : Pc} (hp : pc.finalizing = true)
    (o : RecvFrom) :
    (resume s pc o).pc.idle = true ∨ (resume s pc o).pc.finalizing = true := by
  cases pc with
  | finalizeRecv L ack response =>
    have hc : (s.rawrecv o).sock.isClosing_ = true := (rawrecv_rest s o).2.2.1.mpr (Or.inl h)
    have hend : ((s.rawrecv o).sock.finalizeEnd L).pc.idle = true := by
      have hc' : ((s.rawrecv o).sock.setTimeout RECV_TIMEOUT).1.isClosing_ = true := hc
      obtain ⟨b, ret, hw⟩ := recvAgain_closing hc' L
      rw [RcsT.finalizeEnd, hw]
      rfl
    show (s.finalizePass L ack response o).pc.idle = true ∨
      (s.finalizePass L ack response o).pc.finalizing = true
    unfold RcsT.finalizePass
    dsimp only
    split
    · exact Or.inl hend
    · split
      · exact Or.inl hend
      · exact Or.inr rfl
  | _ => cases hp

/-- A FIN closes a receiver that has all of the data. -/
theorem fin_closes {pc : Pc} (hb : RecvBlocked L pc) (hbetween : Between s pc) (errno : Errno)
    (src : SockaddrIn) :
    let r := resume s pc (.datagram errno finWire src)
    r.sock.isClosing_ = true ∧ (r.pc.idle = false → r.pc.finalizing = true) ∧
      received s pc (.datagram errno finWire src) = [] := by
  intro r
  have hof : ofDatagram finWire = control 666 FIN := ofDatagram_wire built_fin
  have hclosing : r.sock.isClosing_ = true := by
    rw [(stretch_resume hb s (.datagram errno finWire src)).closing]
    exact (rawrecv_rest s _).2.2.1.mpr (Or.inr isFin_finWire)
  refine ⟨hclosing, fun hidle => ?_, ?_⟩
  · rcases resume_fin isFin_finWire s hb.not_idle errno src with ⟨_, hl⟩ | ⟨_, hl⟩
    · obtain ⟨s', es, ret, hr, _⟩ := hl
      have hpc : r.pc = .returned ret := congrArg Res.pc hr
      rw [hpc] at hidle
      cases hidle
    · obtain ⟨_, L', ack, response, hpc, _⟩ := hl
      have hpc : r.pc = .finalizeRecv L' ack response := hpc
      rw [hpc]
      rfl
  · cases hb with
    | loop =>
      have h0 : s.recvSeqnum_ = 0 := hbetween
      refine if_neg fun hacc => ?_
      rw [hof, h0] at hacc
      exact absurd hacc.2 (by decide)
    | finalize v response => rfl

/-- The server reads the FIN of the client. -/
theorem OneWayAt.drains (h : OneWayAt n) (ha : n.a.pc.idle = true) {t : Transfer}
    (hb : RecvBlocked L n.b.pc) (errno : Errno) (src : SockaddrIn)
    (hb' : t.net.b = n.b.went [] (resume n.b.sock n.b.pc (.datagram errno finWire src)))
    (hs : sends n.a.record = sends t.net.a.record) : Drained t := by
  obtain ⟨hbytes, hbetween⟩ := h.complete ha
  obtain ⟨hclosing, hfin, hnothing⟩ := fin_closes hb hbetween errno src
  have hr := stretch_resume hb n.b.sock (.datagram errno finWire src)
  have hoff := readsOff_resume hb n.b.sock (.datagram errno finWire src)
  rw [hnothing] at hr hoff
  obtain ⟨hexact, hsame⟩ := bytes_stretch (rfl : recvs [] = []) h.exact rfl hr hoff
  refine { closing := ?_, finalizing := ?_, exact := ?_, bytes := ?_ }
  · rw [hb']
    exact hclosing
  · rw [hb']
    exact hfin
  · rw [hb']
    exact hexact
  · rw [hb', hsame, hbytes, hs]

/-- The server receives on the descriptor that it has closed. -/
theorem Drained.deaf (h : Drained t) {t' : Transfer} (hb : RecvBlocked L t.net.b.pc) (o : RecvFrom)
    (hb' : t'.net.b = t.net.b.went [] (resume t.net.b.sock t.net.b.pc o))
    (hs : sends t'.net.a.record = sends t.net.a.record) : Drained t' := by
  have hfin := h.finalizing hb.not_idle
  have hnothing : received t.net.b.sock t.net.b.pc o = [] := by
    cases hpc : t.net.b.pc with
    | finalizeRecv L ack response => rfl
    | _ =>
      rw [hpc] at hfin
      cases hfin
  have hr := stretch_resume hb t.net.b.sock o
  have hoff := readsOff_resume hb t.net.b.sock o
  rw [hnothing] at hr hoff
  obtain ⟨hexact, hsame⟩ := bytes_stretch (rfl : recvs [] = []) h.exact rfl hr hoff
  refine { closing := ?_, finalizing := ?_, exact := ?_, bytes := ?_ }
  · rw [hb', went_sock, hr.closing]
    exact (rawrecv_rest _ o).2.2.1.mpr (Or.inl h.closing)
  · rw [hb']
    intro hidle
    exact (finalizing_resume h.closing hfin o).resolve_left (by
      rw [went_pc] at hidle
      rw [hidle]
      exact Bool.false_ne_true)
  · rw [hb']
    exact hexact
  · rw [hb', hsame, h.bytes, hs]

/-- The thread calls rcsRecv on the closed socket. -/
theorem Drained.calls (h : Drained t) {t' : Transfer}
    (hb' : t'.net.b = t.net.b.went [.called (.recv BUF_SIZE)]
      (start t.net.b.sock (.recv BUF_SIZE)))
    (hs : sends t'.net.a.record = sends t.net.a.record) : Drained t' := by
  have hr : RecvStretch _ _ _ _ (start t.net.b.sock (.recv BUF_SIZE)) :=
    stretch_recv t.net.b.sock BUF_SIZE
  have hoff : ReadsOff _ _ (start t.net.b.sock (.recv BUF_SIZE)) :=
    readsOff_recv t.net.b.sock BUF_SIZE
  obtain ⟨s', ret, hstart, hc, _⟩ := start_closing h.closing (.recv BUF_SIZE)
  obtain ⟨hexact, hsame⟩ :=
    bytes_stretch (rfl : recvs [.called (.recv BUF_SIZE)] = []) h.exact rfl hr hoff
  refine { closing := ?_, finalizing := ?_, exact := ?_, bytes := ?_ }
  · rw [hb', went_sock, hstart]
    exact hc
  · rw [hb', went_pc, hstart]
    exact fun hidle => by cases hidle
  · rw [hb']
    exact hexact
  · rw [hb', hsame, h.bytes, hs]

end Fin

/-! ## 6. Steps -/

/-- What a step does. -/
inductive Moved (t : Transfer) : TransferAct → Transfer → Prop where
  | read (n : Nat) (a' : Endpoint) (ab' ba' : List (List UInt8)) (hmain : t.main = .loop)
      (hact : Acts t.net.a t.net.ab t.net.ba (.call (.send (t.input.take n))) a' ab' ba') :
    Moved t (.read n) { t with net := ⟨a', t.net.b, ab', ba'⟩, input := t.input.drop n }
  | readEnds (hmain : t.main = .loop) (hp : t.net.a.pc.idle = true) :
    Moved t .readEnds { t with main := .closed, net := t.net.rcsCloseA }
  | rcsRecv (b' : Endpoint) (ba' ab' : List (List UInt8)) (hs : t.service = .loop)
      (hact : Acts t.net.b t.net.ba t.net.ab (.call (.recv BUF_SIZE)) b' ba' ab') :
    Moved t .rcsRecv { t with service := .rcsRecv, net := ⟨t.net.a, b', ab', ba'⟩ }
  | quit (n : Nat) (hs : t.service = .rcsRecv) (hp : t.net.b.pc = .returned (.recv [])) :
    Moved t (.write n) { t with service := .quit, net := t.net.swap.rcsCloseA.swap }
  | wrote (bytes : List UInt8) (hs : t.service = .rcsRecv) (hne : bytes ≠ [])
      (hp : t.net.b.pc = .returned (.recv bytes)) :
    Moved t (.write bytes.length) { t with service := .loop, file := t.file ++ bytes }
  | tooFew (n : Nat) (bytes : List UInt8) (hs : t.service = .rcsRecv)
      (hp : t.net.b.pc = .returned (.recv bytes)) :
    Moved t (.write n) { t with
      service := .tooFew, file := t.file ++ bytes.take n, net := t.net.swap.rcsCloseA.swap }
  | netA (act : Act) (a' : Endpoint) (ab' ba' : List (List UInt8))
      (hplain : t.plain .A act = true) (hact : Acts t.net.a t.net.ab t.net.ba act a' ab' ba') :
    Moved t (.net .A act) { t with net := ⟨a', t.net.b, ab', ba'⟩ }
  | netB (act : Act) (b' : Endpoint) (ba' ab' : List (List UInt8))
      (hplain : t.plain .B act = true) (hact : Acts t.net.b t.net.ba t.net.ab act b' ba' ab') :
    Moved t (.net .B act) { t with net := ⟨t.net.a, b', ab', ba'⟩ }
  | hearA (errno : Errno) (d : List UInt8) (ba : List (List UInt8))
      (hopen : t.net.a.sock.isClosing_ = false) (hp : t.net.a.pc.idle = false)
      (hba : t.net.ba = d :: ba) :
    Moved t (.hear .A errno) { t with
      net := ⟨t.net.a.went [] (t.net.a.heard errno d), t.net.b,
        t.net.ab ++ (t.net.a.heard errno d).leaving, ba⟩ }
  | hearB (errno : Errno) (d : List UInt8) (ab : List (List UInt8))
      (hopen : t.net.b.sock.isClosing_ = false) (hp : t.net.b.pc.idle = false)
      (hab : t.net.ab = d :: ab) :
    Moved t (.hear .B errno) { t with
      net := ⟨t.net.a, t.net.b.went [] (t.net.b.heard errno d), ab,
        t.net.ba ++ (t.net.b.heard errno d).leaving⟩ }
  | deafA (o : RecvFrom) (hclosing : t.net.a.sock.isClosing_ = true)
      (hp : t.net.a.pc.idle = false) :
    Moved t (.deaf .A o) { t with
      net := { t.net with a := t.net.a.went [] (resume t.net.a.sock t.net.a.pc o) } }
  | deafB (o : RecvFrom) (hclosing : t.net.b.sock.isClosing_ = true)
      (hp : t.net.b.pc.idle = false) :
    Moved t (.deaf .B o) { t with
      net := { t.net with b := t.net.b.went [] (resume t.net.b.sock t.net.b.pc o) } }

/-- It does nothing else. -/
theorem moved {t t' : Transfer} {act : TransferAct} (h : t.step act = some t') :
    Moved t act t' := by
  cases act with
  | read n =>
    rw [Transfer.step, Transfer.clientRead, Option.ite_none_right_eq_some, Transfer.onNet,
      Option.map_eq_some_iff] at h
    obtain ⟨⟨hmain, _⟩, net, hnet, rfl⟩ := h
    obtain ⟨hact, hb⟩ := stepA_acts hnet
    obtain ⟨a', b', ab', ba'⟩ := net
    obtain rfl : b' = t.net.b := hb
    exact .read n a' ab' ba' hmain hact
  | readEnds =>
    rw [Transfer.step, Option.ite_none_right_eq_some, Option.some.injEq] at h
    obtain ⟨⟨hmain, hp⟩, rfl⟩ := h
    exact .readEnds hmain hp
  | rcsRecv =>
    rw [Transfer.step, Option.ite_none_right_eq_some, Transfer.onNet,
      Option.map_eq_some_iff] at h
    obtain ⟨hs, net, hnet, rfl⟩ := h
    obtain ⟨hact, ha⟩ := stepB_acts hnet
    obtain ⟨a', b', ab', ba'⟩ := net
    obtain rfl : a' = t.net.a := ha
    exact .rcsRecv b' ba' ab' hs hact
  | write n =>
    rw [Transfer.step, Transfer.serviceWrite] at h
    split at h
    next bytes hs hp =>
      split_ifs at h with hnil hall htooFew
      · cases h
        exact .quit n hs (hnil ▸ hp)
      · cases h
        subst hall
        exact .wrote bytes hs hnil hp
      · cases h
        exact .tooFew n bytes hs hp
    · cases h
  | net side act =>
    cases side with
    | A =>
      rw [Transfer.step, Option.ite_none_right_eq_some, Transfer.onNet,
        Option.map_eq_some_iff] at h
      obtain ⟨hplain, net, hnet, rfl⟩ := h
      obtain ⟨hact, hb⟩ := stepA_acts hnet
      obtain ⟨a', b', ab', ba'⟩ := net
      obtain rfl : b' = t.net.b := hb
      exact .netA act a' ab' ba' hplain hact
    | B =>
      rw [Transfer.step, Option.ite_none_right_eq_some, Transfer.onNet,
        Option.map_eq_some_iff] at h
      obtain ⟨hplain, net, hnet, rfl⟩ := h
      obtain ⟨hact, ha⟩ := stepB_acts hnet
      obtain ⟨a', b', ab', ba'⟩ := net
      obtain rfl : a' = t.net.a := ha
      exact .netB act b' ba' ab' hplain hact
  | hear side errno =>
    cases side with
    | A =>
      rw [Transfer.step, Option.ite_none_left_eq_some, Transfer.onNet,
        Option.map_eq_some_iff] at h
      obtain ⟨hopen, net, hnet, rfl⟩ := h
      obtain ⟨d, ba, hp, hba, rfl⟩ := hearA_cases hnet
      exact .hearA errno d ba (Bool.eq_false_iff.mpr hopen) hp hba
    | B =>
      rw [Transfer.step, Option.ite_none_left_eq_some, Transfer.onNet, Option.map_map,
        Option.map_eq_some_iff] at h
      obtain ⟨hopen, net, hnet, rfl⟩ := h
      obtain ⟨d, ab, hp, hab, rfl⟩ := hearA_cases hnet
      exact .hearB errno d ab (Bool.eq_false_iff.mpr hopen) hp hab
  | deaf side o =>
    cases side with
    | A =>
      rw [Transfer.step, Option.ite_none_right_eq_some, Transfer.onNet,
        Option.map_eq_some_iff] at h
      obtain ⟨hclosing, net, hnet, rfl⟩ := h
      rw [Net.deafA, Option.ite_none_right_eq_some, Option.some.injEq] at hnet
      obtain ⟨hp, rfl⟩ := hnet
      exact .deafA o hclosing hp
    | B =>
      rw [Transfer.step, Option.ite_none_right_eq_some, Transfer.onNet, Option.map_map,
        Option.map_eq_some_iff] at h
      obtain ⟨hclosing, net, hnet, rfl⟩ := h
      rw [Net.deafA, Option.ite_none_right_eq_some, Option.some.injEq] at hnet
      obtain ⟨hp, rfl⟩ := hnet
      exact .deafB o hclosing hp

end Ece358.Rcs
