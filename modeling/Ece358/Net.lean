/-
  File:      Ece358/Net.lean
  Subject:   Two connected endpoints and the two FIFO channels between them.

  Each endpoint runs calls of send and recv on its socket, one after the other; the two channels
  keep the order, may lose a datagram, and may cut one to a strict prefix (as `ucpSendTo` does).

  * `Endpoint` -- a socket, where its call stands, and the record of what it did so far;
  * `Net`, `Act`, `Net.step` -- the system, what can happen on one side of it, and the step
    function; an action of side B is the mirror image of the same action of side A;
  * `sends`, `recvs`, `acked`, `queued` -- the record read as the data of the send calls begun,
    the results of the recv calls, the messages whose acksend was answered, and the messages
    that recv queued;
  * `Acts` -- what a step on one side is, action by action;
  * `Connected` -- two endpoints that nothing was sent between yet.

  A datagram that an endpoint receives comes from its peer, the address in its `endPoint_`.
-/
import Ece358.Fragments
import Ece358.Lib.LossyFifo
import Ece358.Lib.Transition

namespace Ece358.Rcs

open Lib MsgT

/-! ## 1. Endpoints -/

/-- An entry of the record: a call begun, an event of it, its return. -/
inductive Entry where
  | called (call : Call)
  | did (event : Event)
  | returned (ret : Ret)
  deriving DecidableEq

structure Endpoint where
  sock : RcsT
  pc : Pc
  record : List Entry
  deriving DecidableEq

/-- The message an event sends. -/
def Event.message : Event → Option MsgT
  | .sendto _ msg _ => some msg
  | _ => none

/-- The messages a stretch of a call sends. -/
def Res.messages (r : Res) : List MsgT := r.out.filterMap Event.message

/-- The datagrams a stretch of a call puts on the wire. -/
def Res.datagrams (r : Res) : List (List UInt8) := r.messages.map MsgT.wire

/-- What the record says of a stretch of a call. -/
def Res.entries (r : Res) : List Entry :=
  r.out.map .did ++ (match r.pc with
    | .returned ret => [.returned ret]
    | _ => [])

/-- A stretch that does not end its call leaves its events in the record, and nothing else. -/
theorem entries_of_blocked {r : Res} (h : r.pc.idle = false) : r.entries = r.out.map .did := by
  obtain ⟨s, out, pc⟩ := r
  cases pc <;> first | exact List.append_nil _ | cases h

/-- The number an acksend in progress waits for. -/
def Pc.awaited : Pc → Option UInt16
  | .sendFragment _ _ msg => some msg.seqnum
  | .sendEos _ msg => some msg.seqnum
  | _ => none

/-- The number the inner loop of recv waits for. -/
def Endpoint.expected (e : Endpoint) : Option UInt16 :=
  match e.pc with
  | .recvLoop _ => some e.sock.recvSeqnum_
  | _ => none

/-- The number finalizeRecv answers with. -/
def Endpoint.answering (e : Endpoint) : Option UInt16 :=
  match e.pc with
  | .finalizeRecv _ ack _ => some ack.seqnum
  | _ => none

/-- The endpoint behind a stretch of its call, after the entries `es`. -/
def Endpoint.went (e : Endpoint) (es : List Entry) (r : Res) : Endpoint :=
  ⟨r.sock, r.pc, e.record ++ es ++ r.entries⟩

section Went

variable (e : Endpoint) (es : List Entry) (r : Res)

@[simp] theorem went_sock : (e.went es r).sock = r.sock := rfl

@[simp] theorem went_pc : (e.went es r).pc = r.pc := rfl

@[simp] theorem went_record : (e.went es r).record = e.record ++ es ++ r.entries := rfl

end Went

/-! ## 2. The record -/

/-- The data of the send calls begun. -/
def sends (record : List Entry) : List (List UInt8) :=
  record.filterMap fun
    | .called (.send data) => some data
    | _ => none

/-- The number of send calls that have returned. -/
def sendsDone (record : List Entry) : Nat :=
  (record.filterMap fun
    | .returned (.send n) => some n
    | _ => none).length

/-- The results of the recv calls that have returned. -/
def recvs (record : List Entry) : List (List UInt8) :=
  record.filterMap fun
    | .returned (.recv bytes) => some bytes
    | _ => none

/-- The messages whose acksend was answered. -/
def acked (record : List Entry) : List MsgT :=
  record.filterMap fun
    | .did (.acked msg) => some msg
    | _ => none

/-- The messages that recv has queued. -/
def queued (record : List Entry) : List MsgT :=
  record.filterMap fun
    | .did (.queued msg) => some msg
    | _ => none

/-- The bytes of these messages. -/
def storedBytes (record : List Entry) : List UInt8 := (queued record).flatMap payload

section Record

variable (r r' : List Entry)

@[simp] theorem sends_nil : sends [] = [] := rfl

@[simp] theorem sendsDone_nil : sendsDone [] = 0 := rfl

@[simp] theorem recvs_nil : recvs [] = [] := rfl

@[simp] theorem acked_nil : acked [] = [] := rfl

@[simp] theorem queued_nil : queued [] = [] := rfl

@[simp] theorem sends_append : sends (r ++ r') = sends r ++ sends r' := List.filterMap_append

@[simp] theorem sendsDone_append : sendsDone (r ++ r') = sendsDone r + sendsDone r' := by
  simp [sendsDone, List.filterMap_append]

@[simp] theorem recvs_append : recvs (r ++ r') = recvs r ++ recvs r' := List.filterMap_append

@[simp] theorem acked_append : acked (r ++ r') = acked r ++ acked r' := List.filterMap_append

@[simp] theorem queued_append : queued (r ++ r') = queued r ++ queued r' := List.filterMap_append

@[simp] theorem storedBytes_append : storedBytes (r ++ r') = storedBytes r ++ storedBytes r' := by
  simp [storedBytes]

end Record

/-! ## 3. The system -/

structure Net where
  a : Endpoint
  b : Endpoint
  ab : List (List UInt8)
  ba : List (List UInt8)
  deriving DecidableEq

/-- The same system, seen from the other side. -/
def Net.swap (n : Net) : Net := ⟨n.b, n.a, n.ba, n.ab⟩

inductive Side where
  | A
  | B
  deriving DecidableEq

/-- What can happen on one side: its user makes a call, its receive timer fires, it receives the
    oldest datagram of the channel towards it (errno holds the given value), or the channel away
    from it loses its `i`th datagram or cuts it to `k` bytes. -/
inductive Act where
  | call (c : Call)
  | timeout
  | receive (errno : Errno)
  | lose (i : Nat)
  | cut (i k : Nat)
  deriving DecidableEq

/-- Side A goes on with the outcome of its receive. -/
def Net.resumeA (n : Net) (o : RecvFrom) : Net :=
  let r := resume n.a.sock n.a.pc o
  { n with a := n.a.went [] r, ab := n.ab ++ r.datagrams }

/-- An action of side A. -/
def Net.stepA (n : Net) : Act → Option Net
  | .call c =>
    if n.a.pc.idle then
      let r := start n.a.sock c
      some { n with a := n.a.went [.called c] r, ab := n.ab ++ r.datagrams }
    else none
  | .timeout =>
    if n.a.pc.idle = false ∧ n.a.sock.timeout ≠ 0 then some (n.resumeA (.error .EAGAIN)) else none
  | .receive errno =>
    match n.ba with
    | [] => none
    | d :: ba =>
      if n.a.pc.idle = false then
        some (({ n with ba := ba } : Net).resumeA (.datagram errno d n.a.sock.endPoint_))
      else none
  | .lose i => if i < n.ab.length then some { n with ab := n.ab.eraseIdx i } else none
  | .cut i k =>
    match n.ab[i]? with
    | some d => if k < d.length then some { n with ab := n.ab.set i (d.take k) } else none
    | none => none

def Net.step (n : Net) : Side × Act → Option Net
  | (.A, act) => n.stepA act
  | (.B, act) => (n.swap.stepA act).map Net.swap

/-- An action that neither loses nor damages a datagram. -/
def Act.lossless : Act → Bool
  | .lose _ => false
  | .cut _ _ => false
  | _ => true

/-- What an action does to the endpoint that takes it, to the channel away from it, and to the
    channel towards it. -/
inductive Acts (e : Endpoint) (out inc : List (List UInt8)) :
    Act → Endpoint → List (List UInt8) → List (List UInt8) → Prop where
  | call (c : Call) (hp : e.pc.idle = true) :
      Acts e out inc (.call c) (e.went [.called c] (start e.sock c))
        (out ++ (start e.sock c).datagrams) inc
  | timeout (hp : e.pc.idle = false) (ht : e.sock.timeout ≠ 0) :
      Acts e out inc .timeout (e.went [] (resume e.sock e.pc (.error .EAGAIN)))
        (out ++ (resume e.sock e.pc (.error .EAGAIN)).datagrams) inc
  | receive (errno : Errno) (d : List UInt8) (inc' : List (List UInt8)) (hp : e.pc.idle = false)
      (hinc : inc = d :: inc') :
      Acts e out inc (.receive errno)
        (e.went [] (resume e.sock e.pc (.datagram errno d e.sock.endPoint_)))
        (out ++ (resume e.sock e.pc (.datagram errno d e.sock.endPoint_)).datagrams) inc'
  | lose (i : Nat) (hi : i < out.length) : Acts e out inc (.lose i) e (out.eraseIdx i) inc
  | cut (i k : Nat) (d : List UInt8) (hd : out[i]? = some d) (hk : k < d.length) :
      Acts e out inc (.cut i k) e (out.set i (d.take k)) inc

/-- A step on side A is an action of A. -/
theorem stepA_acts {n n' : Net} {act : Act} (h : n.step (.A, act) = some n') :
    Acts n.a n.ab n.ba act n'.a n'.ab n'.ba ∧ n'.b = n.b := by
  obtain ⟨a, b, ab, ba⟩ := n
  cases act with
  | call c =>
    simp only [Net.step, Net.stepA, Option.ite_none_right_eq_some, Option.some.injEq] at h
    obtain ⟨hp, rfl⟩ := h
    exact ⟨.call c hp, rfl⟩
  | timeout =>
    simp only [Net.step, Net.stepA, Option.ite_none_right_eq_some, Option.some.injEq] at h
    obtain ⟨⟨hp, ht⟩, rfl⟩ := h
    exact ⟨.timeout hp ht, rfl⟩
  | receive errno =>
    cases ba with
    | nil => cases h
    | cons d ba =>
      simp only [Net.step, Net.stepA, Option.ite_none_right_eq_some, Option.some.injEq] at h
      obtain ⟨hp, rfl⟩ := h
      exact ⟨.receive errno d ba hp rfl, rfl⟩
  | lose i =>
    simp only [Net.step, Net.stepA, Option.ite_none_right_eq_some, Option.some.injEq] at h
    obtain ⟨hi, rfl⟩ := h
    exact ⟨.lose i hi, rfl⟩
  | cut i k =>
    simp only [Net.step, Net.stepA] at h
    split at h
    next d hd =>
      simp only [Option.ite_none_right_eq_some, Option.some.injEq] at h
      obtain ⟨hk, rfl⟩ := h
      exact ⟨.cut i k d hd hk, rfl⟩
    · cases h

/-- A step on side B is an action of B. -/
theorem stepB_acts {n n' : Net} {act : Act} (h : n.step (.B, act) = some n') :
    Acts n.b n.ba n.ab act n'.b n'.ba n'.ab ∧ n'.a = n.a := by
  simp only [Net.step, Option.map_eq_some_iff] at h
  obtain ⟨t, ht, rfl⟩ := h
  exact stepA_acts (n := n.swap) ht

/-- An action of A is a step on side A. -/
theorem Acts.stepA {n : Net} {act : Act} {a' : Endpoint} {ab' ba' : List (List UInt8)}
    (h : Acts n.a n.ab n.ba act a' ab' ba') : n.step (.A, act) = some ⟨a', n.b, ab', ba'⟩ := by
  obtain ⟨a, b, ab, ba⟩ := n
  cases h with
  | call c hp => exact if_pos hp
  | timeout hp ht => exact if_pos ⟨hp, ht⟩
  | receive errno d inc' hp hinc =>
    subst hinc
    exact if_pos hp
  | lose i hi => exact if_pos hi
  | cut i k d hd hk => simp [Net.step, Net.stepA, hd, hk]

/-- An action of B is a step on side B. -/
theorem Acts.stepB {n : Net} {act : Act} {b' : Endpoint} {ab' ba' : List (List UInt8)}
    (h : Acts n.b n.ba n.ab act b' ba' ab') : n.step (.B, act) = some ⟨n.a, b', ab', ba'⟩ := by
  have hs := Acts.stepA (n := n.swap) h
  show (n.swap.step (.A, act)).map Net.swap = _
  rw [hs]
  rfl

/-- An action leaves the timer on. -/
theorem Acts.ticks {e e' : Endpoint} {out inc out' inc' : List (List UInt8)} {act : Act}
    (h : Acts e out inc act e' out' inc') (ht : e.sock.timeout ≠ 0) : e'.sock.timeout ≠ 0 := by
  cases h with
  | call c hp => exact ticks_start ht c
  | timeout hp _ => exact ticks_resume ht _ _
  | receive errno d inc' hp hinc => exact ticks_resume ht _ _
  | lose i hi => exact ht
  | cut i k d hd hk => exact ht

/-! ## 4. Datagrams on their way -/

/-- A channel carries messages: its datagrams are theirs, or prefixes of theirs. -/
abbrev Carries (ds : List (List UInt8)) (ms : List MsgT) : Prop := List.Forall₂ SentAs ds ms

theorem SentAs.take {d : List UInt8} {m : MsgT} (h : SentAs d m) (k : Nat) :
    SentAs (d.take k) m := ⟨(List.take_prefix k d).trans h.isPrefix, h.built, h.noFin⟩

theorem Carries.cut {ds : List (List UInt8)} {ms : List MsgT} {d : List UInt8} {i : Nat}
    (h : Carries ds ms) (hi : ds[i]? = some d) (k : Nat) : Carries (ds.set i (d.take k)) ms :=
  carries_damage h i hi fun _ hm => hm.take k

theorem Carries.sent {ds : List (List UInt8)} {ms ms' : List MsgT} (h : Carries ds ms)
    (hm : ∀ m ∈ ms', m.Built ∧ m.hasFlag FIN = false) :
    Carries (ds ++ ms'.map MsgT.wire) (ms ++ ms') := by
  refine carries_append h ?_
  rw [List.forall₂_map_left_iff, List.forall₂_same]
  exact fun m h => SentAs.refl (hm m h).1 (hm m h).2

/-- A datagram that recv or acksend accepts, with the number `v`. -/
def Whole (v : UInt16) (d : List UInt8) : Prop := accepted d = true ∧ (ofDatagram d).seqnum = v

instance (v : UInt16) (d : List UInt8) : Decidable (Whole v d) :=
  inferInstanceAs (Decidable (_ ∧ _))

section Whole

variable {m : MsgT} {d : List UInt8} {v : UInt16}

theorem SentAs.of_whole (h : SentAs d m) (hw : Whole v d) : d = m.wire ∧ m.seqnum = v := by
  obtain ⟨h1, h2⟩ := h.whole hw.1
  exact ⟨h1, h2 ▸ hw.2⟩

theorem whole_wire (hb : m.Built) (hv : m.seqnum = v) : Whole v m.wire :=
  ⟨accepted_wire hb, by rw [ofDatagram_wire hb, hv]⟩

theorem whole_wire_iff (hb : m.Built) : Whole v m.wire ↔ m.seqnum = v := by
  rw [Whole, accepted_wire hb, ofDatagram_wire hb]
  simp

end Whole

/-- The numbers of the acknowledgements among messages. -/
def acks (ms : List MsgT) : List UInt16 :=
  ms.filterMap fun m => if m.hasFlag ACK then some m.seqnum else none

@[simp] theorem acks_append (ms ms' : List MsgT) : acks (ms ++ ms') = acks ms ++ acks ms' :=
  List.filterMap_append

theorem acks_cons_ack (v : UInt16) (ms : List MsgT) :
    acks (MsgT.control v ACK :: ms) = v :: acks ms := by
  have h : (MsgT.control v ACK).hasFlag ACK = true := by
    rw [MsgT.hasFlag_control]
    rfl
  simp [acks, h]

theorem acks_sublist {ms ms' : List MsgT} (h : ms.Sublist ms') : (acks ms).Sublist (acks ms') :=
  h.filterMap _

/-! ## 5. The start -/

/-- Two endpoints that know each other and have nothing unread; the numbers and addresses in their
    sockets may be any. -/
structure Connected (n : Net) : Prop where
  openA : Open n.a.sock
  openB : Open n.b.sock
  idleA : n.a.pc.idle = true
  idleB : n.b.pc.idle = true
  recordA : n.a.record = []
  recordB : n.b.record = []
  exactA : n.a.sock.buffer_.Exact
  exactB : n.b.sock.buffer_.Exact
  unreadA : n.a.sock.buffer_.unread = []
  unreadB : n.b.sock.buffer_.unread = []
  ticksA : n.a.sock.timeout ≠ 0
  ticksB : n.b.sock.timeout ≠ 0
  ab : n.ab = []
  ba : n.ba = []

/-- The endpoint of a new socket that was given its peer. -/
def Endpoint.fresh (fd : Nat) (unset peer : SockaddrIn) : Endpoint :=
  ⟨(RcsT.new fd unset).setEndpoint peer, .returned (.send 0), []⟩

/-- Two such endpoints. -/
def Net.fresh (fdA fdB : Nat) (unset addrA addrB : SockaddrIn) : Net :=
  ⟨.fresh fdA unset addrB, .fresh fdB unset addrA, [], []⟩

/-- The pair on which the concrete runs of this development start. -/
def Net.pair : Net := .fresh 3 4 ⟨0, 0⟩ ⟨1, 0⟩ ⟨2, 0⟩

theorem connected_fresh (fdA fdB : Nat) (unset addrA addrB : SockaddrIn) :
    Connected (Net.fresh fdA fdB unset addrA addrB) where
  openA := ⟨rfl, rfl⟩
  openB := ⟨rfl, rfl⟩
  idleA := rfl
  idleB := rfl
  recordA := rfl
  recordB := rfl
  exactA := MsgBufferT.exact_new
  exactB := MsgBufferT.exact_new
  unreadA := rfl
  unreadB := rfl
  ticksA := Nat.succ_ne_zero 9
  ticksB := Nat.succ_ne_zero 9
  ab := rfl
  ba := rfl

theorem connected_pair : Connected Net.pair := connected_fresh _ _ _ _ _

end Ece358.Rcs
