/-
  File:      Ece358/GroupServer/UdpServer.lean
  Subject:   `UDPServer::run` (a2/UDPServer.cc), and what it keeps from one datagram to the next.

  The server reads every datagram into the same buffer, and takes the request off the start of it
  without a look at the size that recvfrom has returned. It remembers its clients by address.

  * `UdpServer`, `recvfrom`, `get_client_num`, `handle_msg`, `react`, `step` -- the code;
  * `reaction` -- what the server does with a request, of the table and the source alone;
  * `react_eq` -- it does that with the request that the buffer holds behind the datagram;
  * `Independent` -- the reaction to a datagram is the same behind all earlier traffic, and any
    reply goes to its source;
  * `independent_iff` -- that is so if and only if the datagram has the size of a request.
-/
import Ece358.GroupServer.Message
import Ece358.Lib.Transition

namespace Ece358.GroupServer

open Lib

/-! ## 1. The server -/

/-- The struct sockaddr_in. -/
structure SockaddrIn where
  sin_addr : UInt32
  sin_port : UInt16
  deriving DecidableEq

/-- What the server does with a datagram: the request it takes, the reply it sends, its exit, and
    the exception of `clients_.at`. -/
inductive UdpEvent where
  | handled (msg : Message)
  | sendto (reply : List UInt8) (dest : SockaddrIn)
  | stopped
  | out_of_range
  deriving DecidableEq

/-- The object, with the local `buffer` of `run`, and whether it is still in the loop. -/
structure UdpServer where
  groups_ : Groups
  clients_ : List SockaddrIn
  buffer : List UInt8
  running : Bool

/-- What recvfrom answers. -/
inductive Incoming where
  | error
  | datagram (bytes : List UInt8) (source_addr : SockaddrIn)

namespace UdpServer

/-- sizeof(buffer) in `run` -/
def BUFFER_SIZE : Nat := 1024

/-- The server behind `init`; `memory` is what its buffer holds. -/
def init (groups_ : Groups) (memory : List UInt8) : UdpServer := ⟨groups_, [], memory, true⟩

/-- The bytes of a datagram, at the start of the buffer. -/
def recvfrom (s : UdpServer) (bytes : List UInt8) : UdpServer :=
  { s with buffer := bytes.take BUFFER_SIZE ++ s.buffer.drop bytes.length }

/-- The for loop of `get_client_num`, over the clients from index `i` on. -/
def find_client (source_addr : SockaddrIn) : List SockaddrIn → Nat → Option Nat
  | [], _ => none
  | client_addr :: clients, i =>
    if client_addr.sin_port = source_addr.sin_port ∧
        client_addr.sin_addr = source_addr.sin_addr then
      some i
    else find_client source_addr clients (i + 1)

def get_client_num (s : UdpServer) (source_addr : SockaddrIn) : Nat × UdpServer :=
  match find_client source_addr s.clients_ 0 with
  | some i => (i, s)
  | none => (s.clients_.length, { s with clients_ := s.clients_ ++ [source_addr] })

def respond (s : UdpServer) (client : Nat) (reply : List UInt8) : List UdpEvent :=
  match s.clients_[client]? with
  | some dest => [.sendto reply dest]
  | none => [.out_of_range]

/-- The second component says whether the server stays in its loop. -/
def handle_msg (s : UdpServer) (client : Nat) : List UdpEvent × Bool :=
  let msg := Message.deserialize s.buffer
  match Command.ofWord msg.command with
  | some .GET =>
    (.handled msg :: s.respond client (get s.groups_ msg.param1.toInt32 msg.param2.toInt32), true)
  | some .STOP_SESSION => ([.handled msg], true)
  | some .STOP => ([.handled msg, .stopped], false)
  | none => ([.handled msg], true)

/-- The body of the loop behind recvfrom. -/
def react (s : UdpServer) (bytes : List UInt8) (source_addr : SockaddrIn) :
    UdpServer × List UdpEvent :=
  let client_num := (s.recvfrom bytes).get_client_num source_addr
  let handled := client_num.2.handle_msg client_num.1
  ({ client_num.2 with running := handled.2 }, handled.1)

def step (s : UdpServer) (i : Incoming) : Option UdpServer :=
  if s.running then
    match i with
    | .error => some { s with running := false }
    | .datagram bytes source_addr => some (s.react bytes source_addr).1
  else none

end UdpServer

open UdpServer

/-! ## 2. One datagram -/

/-- What the server does with the request `msg` of a client. -/
def reaction (groups_ : Groups) (msg : Message) (source_addr : SockaddrIn) : List UdpEvent :=
  match Command.ofWord msg.command with
  | some .GET =>
    [.handled msg, .sendto (get groups_ msg.param1.toInt32 msg.param2.toInt32) source_addr]
  | some .STOP_SESSION => [.handled msg]
  | some .STOP => [.handled msg, .stopped]
  | none => [.handled msg]

/-- The invariant: the table is the one that was loaded, and the buffer has its size. -/
structure Keeps (groups_ : Groups) (s : UdpServer) : Prop where
  table : s.groups_ = groups_
  size : s.buffer.length = UdpServer.BUFFER_SIZE

section Steps

variable {s s' : UdpServer} {groups_ : Groups} {d : List UInt8} {src : SockaddrIn}

theorem find_client_some {clients : List SockaddrIn} {i j : Nat}
    (h : find_client src clients i = some j) : ∃ k, j = i + k ∧ clients[k]? = some src := by
  induction clients generalizing i with
  | nil => cases h
  | cons client_addr clients ih =>
    unfold find_client at h
    split at h
    next heq =>
      cases h
      refine ⟨0, rfl, congrArg some ?_⟩
      cases client_addr
      cases src
      exact (SockaddrIn.mk.injEq ..).mpr ⟨heq.2, heq.1⟩
    next =>
      obtain ⟨k, rfl, hk⟩ := ih h
      exact ⟨k + 1, by omega, hk⟩

/-- The client's number leads to its address; nothing else changes. -/
theorem get_client_num_spec (s : UdpServer) (src : SockaddrIn) :
    (s.get_client_num src).2.clients_[(s.get_client_num src).1]? = some src ∧
      (s.get_client_num src).2.groups_ = s.groups_ ∧
      (s.get_client_num src).2.buffer = s.buffer := by
  unfold get_client_num
  cases hi : find_client src s.clients_ 0 with
  | some i =>
    obtain ⟨k, rfl, hk⟩ := find_client_some hi
    exact ⟨by rwa [Nat.zero_add], rfl, rfl⟩
  | none =>
    refine ⟨?_, rfl, rfl⟩
    dsimp only
    rw [List.getElem?_append_right (Nat.le_refl _), Nat.sub_self]
    rfl

theorem handle_msg_events {client : Nat} (h : s.clients_[client]? = some src) :
    (s.handle_msg client).1 = reaction s.groups_ (Message.deserialize s.buffer) src := by
  unfold UdpServer.handle_msg reaction respond
  rw [h]
  dsimp only
  split <;> rfl

/-- Only a STOP ends the loop. -/
theorem handle_msg_running (s : UdpServer) (client : Nat) : (s.handle_msg client).2 = true ↔
    Command.ofWord (Message.deserialize s.buffer).command ≠ some .STOP := by
  unfold UdpServer.handle_msg
  dsimp only
  split
  next h => exact iff_of_true rfl (by rw [h]; decide)
  next h => exact iff_of_true rfl (by rw [h]; decide)
  next h => exact iff_of_false Bool.false_ne_true fun hne => hne h
  next h => exact iff_of_true rfl (by rw [h]; decide)

/-- The reaction to a datagram is that to the request in the buffer behind it. -/
theorem react_eq (s : UdpServer) (d : List UInt8) (src : SockaddrIn) :
    (s.react d src).2 = reaction s.groups_ (Message.deserialize (s.recvfrom d).buffer) src ∧
      (s.react d src).1.groups_ = s.groups_ ∧ (s.react d src).1.buffer = (s.recvfrom d).buffer := by
  obtain ⟨hclient, hgroups, hbuffer⟩ := get_client_num_spec (s.recvfrom d) src
  refine ⟨(handle_msg_events hclient).trans ?_, hgroups, hbuffer⟩
  rw [hgroups, hbuffer]
  rfl

theorem react_running (s : UdpServer) (d : List UInt8) (src : SockaddrIn) :
    (s.react d src).1.running = true ↔
      Command.ofWord (Message.deserialize (s.recvfrom d).buffer).command ≠ some .STOP := by
  obtain ⟨_, _, hbuffer⟩ := get_client_num_spec (s.recvfrom d) src
  refine (handle_msg_running _ _).trans ?_
  rw [hbuffer]

theorem length_recvfrom (h : s.buffer.length = UdpServer.BUFFER_SIZE) (d : List UInt8) :
    (s.recvfrom d).buffer.length = UdpServer.BUFFER_SIZE := by
  unfold recvfrom
  rw [List.length_append, List.length_take, List.length_drop, h]
  omega

theorem Keeps.step {i : Incoming} (h : Keeps groups_ s) (hstep : s.step i = some s') :
    Keeps groups_ s' := by
  unfold UdpServer.step at hstep
  split at hstep
  · cases i with
    | error =>
      cases hstep
      exact ⟨h.table, h.size⟩
    | datagram d src =>
      obtain ⟨_, hgroups, hbuffer⟩ := react_eq s d src
      rw [← Option.some.inj hstep]
      exact ⟨hgroups.trans h.table, by rw [hbuffer, length_recvfrom h.size]⟩
  · cases hstep

theorem keeps_init (groups_ : Groups) {memory : List UInt8}
    (h : memory.length = UdpServer.BUFFER_SIZE) : Keeps groups_ (.init groups_ memory) := ⟨rfl, h⟩

/-- The request that a datagram is, where it has the size of one. -/
theorem react_whole (hs : Keeps groups_ s) (hd : d.length ≤ UdpServer.BUFFER_SIZE)
    (h : Message.sizeofMessage ≤ d.length) (src : SockaddrIn) :
    (s.react d src).2 = reaction groups_ (Message.deserialize d) src := by
  have hpre : Message.codec.enc (Message.deserialize d) <+: d := by
    show (Message.deserialize d).serialize <+: d
    rw [Message.serialize_deserialize d h]
    exact List.take_prefix _ _
  have hread : Message.deserialize (s.recvfrom d).buffer = Message.deserialize d := by
    unfold recvfrom
    rw [List.take_of_length_le hd]
    exact Message.codec.read_of_prefix hpre s.buffer
  rw [(react_eq s d src).1, hs.table, hread]

theorem mem_reaction {msg : Message} {reply : List UInt8} {dest : SockaddrIn}
    (h : UdpEvent.sendto reply dest ∈ reaction groups_ msg src) : dest = src := by
  unfold reaction at h
  split at h <;> simp at h
  exact h.2

theorem head_reaction (groups_ : Groups) (msg : Message) (src : SockaddrIn) :
    (reaction groups_ msg src).head? = some (.handled msg) := by
  unfold reaction
  split <;> rfl

end Steps

/-! ## 3. Earlier traffic -/

/-- Behind any two histories that leave the server running, it handles the same request, with the
    same reply, and a reply goes to where the datagram came from. -/
def Independent (groups_ : Groups) (d : List UInt8) (src : SockaddrIn) : Prop :=
  ∀ memory : List UInt8, memory.length = UdpServer.BUFFER_SIZE → ∀ is₁ is₂ s₁ s₂,
    Run UdpServer.step (fun _ _ => True) (.init groups_ memory) is₁ s₁ →
    Run UdpServer.step (fun _ _ => True) (.init groups_ memory) is₂ s₂ →
    s₁.running = true → s₂.running = true →
    (s₁.react d src).2 = (s₂.react d src).2 ∧
      ∀ reply dest, .sendto reply dest ∈ (s₁.react d src).2 → dest = src

section Traffic

variable {groups_ : Groups} {d : List UInt8} {src : SockaddrIn}

/-- A datagram of twelve equal bytes, which is no command. -/
def corrupted (b : UInt8) : List UInt8 := List.replicate Message.sizeofMessage b

/-- A server that was just started, behind such a datagram. -/
def corruptedServer (groups_ : Groups) (src : SockaddrIn) (b : UInt8) : UdpServer :=
  ((UdpServer.init groups_ (List.replicate UdpServer.BUFFER_SIZE 0)).react (corrupted b) src).1

/-- The server goes on, with those bytes at the start of its buffer. -/
theorem corruptedServer_spec (groups_ : Groups) (src : SockaddrIn) {b : UInt8}
    (hb : b = 5 ∨ b = 6) :
    Run UdpServer.step (fun _ _ => True)
      (.init groups_ (List.replicate UdpServer.BUFFER_SIZE 0)) [.datagram (corrupted b) src]
      (corruptedServer groups_ src b) ∧
    (corruptedServer groups_ src b).running = true ∧
    (corruptedServer groups_ src b).buffer = corrupted b ++ List.replicate 1012 0 := by
  have hbuffer : ((UdpServer.init groups_ (List.replicate UdpServer.BUFFER_SIZE 0)).recvfrom
      (corrupted b)).buffer = corrupted b ++ List.replicate 1012 0 := by
    show (corrupted b).take _ ++ (List.replicate _ 0).drop _ = _
    rw [List.drop_replicate,
      List.take_of_length_le (by rw [corrupted, List.length_replicate]; decide), corrupted,
      List.length_replicate]
    rfl
  refine ⟨.cons trivial rfl (.nil _), ?_, (react_eq _ _ _).2.2.trans hbuffer⟩
  refine (react_running _ _ _).mpr ?_
  rw [hbuffer]
  rcases hb with rfl | rfl <;> decide +kernel

/-- What is missing of a request is taken from the datagram before. -/
theorem read_corrupted {b : UInt8} (hb : b = 5 ∨ b = 6) (h : d.length < Message.sizeofMessage) :
    (Message.deserialize ((corruptedServer groups_ src b).recvfrom d).buffer).serialize[11]? =
      some b := by
  obtain ⟨_, _, hbuffer⟩ := corruptedServer_spec groups_ src hb
  have hlen : (corrupted b).length = Message.sizeofMessage := List.length_replicate
  unfold Message.sizeofMessage at h hlen
  have hsize : 12 ≤ (corrupted b ++ List.replicate 1012 0).length := by
    rw [List.length_append]
    omega
  have hread := Message.codec.getElem?_enc_read hsize (show d.length ≤ 11 by omega) (by decide)
  rw [List.getElem?_append_left (by omega), corrupted, List.getElem?_replicate, if_pos (by decide)]
    at hread
  unfold recvfrom
  rw [hbuffer, List.take_of_length_le (by unfold UdpServer.BUFFER_SIZE; omega)]
  exact hread

theorem not_independent (groups_ : Groups) (src : SockaddrIn)
    (h : d.length < Message.sizeofMessage) : ¬ Independent groups_ d src := by
  intro hind
  obtain ⟨hrun₁, hgo₁, _⟩ := corruptedServer_spec groups_ src (Or.inl rfl : (5 : UInt8) = 5 ∨ _)
  obtain ⟨hrun₂, hgo₂, _⟩ := corruptedServer_spec groups_ src (Or.inr rfl : _ ∨ (6 : UInt8) = 6)
  have hevents := (hind _ List.length_replicate _ _ _ _ hrun₁ hrun₂ hgo₁ hgo₂).1
  have hhead := congrArg List.head? hevents
  rw [(react_eq _ d src).1, (react_eq _ d src).1, head_reaction, head_reaction, Option.some.injEq,
    UdpEvent.handled.injEq] at hhead
  have hbyte : (Message.deserialize
      ((corruptedServer groups_ src 5).recvfrom d).buffer).serialize[11]? = some 5 :=
    read_corrupted (Or.inl rfl) h
  rw [hhead, read_corrupted (Or.inr rfl) h] at hbyte
  exact absurd hbyte (by decide)

/-- The reaction to a datagram does not depend on the traffic before it if and only if it has the
    size of a request. -/
theorem independent_iff (hd : d.length ≤ UdpServer.BUFFER_SIZE) (groups_ : Groups)
    (src : SockaddrIn) : Independent groups_ d src ↔ Message.sizeofMessage ≤ d.length := by
  constructor
  · intro h
    by_contra hlt
    exact not_independent groups_ src (Nat.not_le.mp hlt) h
  · intro h memory hm is₁ is₂ s₁ s₂ hrun₁ hrun₂ _ _
    have hkeeps : ∀ {is s}, Run UdpServer.step (fun _ _ => True) (.init groups_ memory) is s →
        Keeps groups_ s := fun hrun =>
      hrun.invariant (keeps_init groups_ hm) fun _ _ _ hs _ hstep => hs.step hstep
    rw [react_whole (hkeeps hrun₁) hd h, react_whole (hkeeps hrun₂) hd h]
    exact ⟨rfl, fun _ _ hmem => mem_reaction hmem⟩

end Traffic

/-- A whole request gets its answer whatever was sent before. -/
theorem independent_get :
    Independent (fun _ => none) (Message.serialize ⟨0, 7, 8⟩) ⟨1, 1⟩ :=
  (independent_iff (by decide) _ _).mpr (by decide)

/-- Two students of one group. -/
def twoNames : Groups := fun group_id =>
  if group_id = 7 then some fun student_id =>
    if student_id = 8 then some [65] else if student_id = 9 then some [66] else none
  else none

/-- The server behind the request for one of them. -/
def askedFor (student_id : UInt32) : UdpServer :=
  ((UdpServer.init twoNames (List.replicate UdpServer.BUFFER_SIZE 0)).react
    (Message.serialize ⟨0, 7, student_id⟩) ⟨1, 1⟩).1

/-- An empty datagram from elsewhere is answered with the name that the last client has asked
    for. -/
theorem empty_request_answered : ¬ ∀ (groups_ : Groups) (d : List UInt8) (src : SockaddrIn),
    d.length ≤ UdpServer.BUFFER_SIZE → Independent groups_ d src := by
  intro h
  have hrun : ∀ student_id, Run UdpServer.step (fun _ _ => True)
      (.init twoNames (List.replicate UdpServer.BUFFER_SIZE 0))
      [.datagram (Message.serialize ⟨0, 7, student_id⟩) ⟨1, 1⟩] (askedFor student_id) :=
    fun _ => .cons trivial rfl (.nil _)
  have hevents := (h twoNames [] ⟨2, 2⟩ (by decide) _ List.length_replicate _ _ _ _ (hrun 8)
    (hrun 9) (by decide +kernel) (by decide +kernel)).1
  have hA : ((askedFor 8).react [] ⟨2, 2⟩).2 = [.handled ⟨0, 7, 8⟩, .sendto [65] ⟨2, 2⟩] := by
    decide +kernel
  have hB : ((askedFor 9).react [] ⟨2, 2⟩).2 = [.handled ⟨0, 7, 9⟩, .sendto [66] ⟨2, 2⟩] := by
    decide +kernel
  rw [hA, hB] at hevents
  exact absurd hevents (by decide)

end Ece358.GroupServer
