/-
  File:      Ece358/GroupServer/UdpNet.lean
  Subject:   One UDPServer and any number of UDPClients (a2/UDPClient.cc), over a network that loses
             and reorders.

  A client sends a request and blocks in recvfrom until it has a reply; to STOP and STOP_SESSION
  there is none. Neither side repeats anything.

  * `Packet`, `UdpClient`, `UdpNet`, `UdpNet.step` -- the clients, the server, and what is on its
    way between them;
  * `received` -- what send_message returns;
  * `Mirrors`, `mirrors_step` -- the network is one of clients that call a server, as `Calls`;
  * `udp_replies` -- every client gets the replies to its own requests, in their order;
  * `reply_comes_iff` -- from which states a client can still get its reply;
  * `names_printed` -- both programs, from their stdins to what the client prints.
-/
import Ece358.GroupServer.ClientMain
import Ece358.GroupServer.TcpClient
import Ece358.GroupServer.UdpServer
import Ece358.Lib.Calls

namespace Ece358.GroupServer

open Lib

/-! ## 1. The network -/

/-- A datagram on its way. -/
structure Packet where
  src : SockaddrIn
  dst : SockaddrIn
  bytes : List UInt8
  deriving DecidableEq

/-- A client with what its `main` will still send. `waiting` is the message of a call of
    send_message that has not returned; `results` are those of the calls that have. -/
structure UdpClient where
  host_addr_ : SockaddrIn
  todo : List Message
  waiting : Option Message
  results : List (Option (List UInt8))

/-- The server at its address, the clients at theirs, and the datagrams on their way. -/
structure UdpNet where
  server : UdpServer
  address : SockaddrIn
  client : SockaddrIn → UdpClient
  wire : List Packet

/-- What can happen. `send`: a client goes on to its next send_message; `serve`: the server takes a
    datagram; `serverError`: its recvfrom fails; `receive`: a datagram ends the recvfrom of the
    client that it is for; `lose`: it gets lost. -/
inductive UdpAct where
  | send (a : SockaddrIn)
  | serve (i : Nat)
  | serverError
  | receive (i : Nat)
  | lose (i : Nat)
  deriving DecidableEq

/-- BUFFER_SIZE of send_message -/
def UdpClient.BUFFER_SIZE : Nat := 1024

/-- What send_message returns for a reply; none where its NUL is written behind the buffer. -/
def received (bytes : List UInt8) : Option (List UInt8) :=
  let buffer := bytes.take UdpClient.BUFFER_SIZE
  if buffer.length < UdpClient.BUFFER_SIZE then some (cString buffer) else none

/-- The datagrams that the server sends. -/
def replyPackets (address : SockaddrIn) (events : List UdpEvent) : List Packet :=
  events.filterMap fun
    | .sendto reply dest => some ⟨address, dest, reply⟩
    | _ => none

namespace UdpNet

/-- Nothing was sent; `program` is what each client is going to send. -/
def init (groups_ : Groups) (memory : List UInt8) (address : SockaddrIn)
    (program : SockaddrIn → List Message) : UdpNet where
  server := .init groups_ memory
  address := address
  client := fun a => ⟨address, program a, none, []⟩
  wire := []

/-- The first half of send_message. -/
def send (n : UdpNet) (a : SockaddrIn) : Option UdpNet :=
  let k := n.client a
  match k.todo with
  | [] => none
  | msg :: todo =>
    if a ≠ n.address ∧ k.waiting = none then
      some { n with
        client := Function.update n.client a { k with todo := todo, waiting := some msg }
        wire := n.wire ++ [⟨a, k.host_addr_, msg.serialize⟩] }
    else none

/-- One round of the loop of the server. -/
def serve (n : UdpNet) (i : Nat) : Option UdpNet :=
  match n.wire[i]? with
  | none => none
  | some p =>
    if p.dst = n.address then
      (n.server.step (.datagram p.bytes p.src)).map fun server => { n with
        server := server
        wire := n.wire.eraseIdx i ++ replyPackets n.address (n.server.react p.bytes p.src).2 }
    else none

/-- The second half of send_message: recvfrom also writes the address of the sender. -/
def receive (n : UdpNet) (i : Nat) : Option UdpNet :=
  match n.wire[i]? with
  | none => none
  | some p =>
    let k := n.client p.dst
    if p.dst ≠ n.address ∧ k.waiting.isSome then
      some { n with
        client := Function.update n.client p.dst { k with
          host_addr_ := p.src, waiting := none, results := k.results ++ [received p.bytes] }
        wire := n.wire.eraseIdx i }
    else none

def step (n : UdpNet) : UdpAct → Option UdpNet
  | .send a => n.send a
  | .serve i => n.serve i
  | .serverError => (n.server.step .error).map fun server => { n with server := server }
  | .receive i => n.receive i
  | .lose i => if i < n.wire.length then some { n with wire := n.wire.eraseIdx i } else none

end UdpNet

/-! ## 2. Calls -/

/-- The reply that a request gets, if any. -/
def replyTo (groups_ : Groups) (msg : Message) : Option (List UInt8) :=
  if Command.ofWord msg.command = some .GET then some (answer groups_ msg) else none

/-- The requests that the server does not survive. -/
def halts (msg : Message) : Bool := Command.ofWord msg.command = some .STOP

/-- A request in a datagram for the server. -/
def asRequest (address : SockaddrIn) (p : Packet) : Option (SockaddrIn × Message) :=
  if p.dst = address then some (p.src, Message.deserialize p.bytes) else none

/-- A reply in a datagram for a client. -/
def asReply (address : SockaddrIn) (p : Packet) : Option (SockaddrIn × List UInt8) :=
  if p.dst = address then none else some (p.dst, p.bytes)

/-- The datagrams are whole requests to the server, and replies from it. -/
structure Proper (address : SockaddrIn) (p : Packet) : Prop where
  request : p.dst = address → p.src ≠ address ∧ ∃ msg : Message, p.bytes = msg.serialize
  reply : p.dst ≠ address → p.src = address

/-- A client that is to send `program`, as a client of `Calls`. -/
structure SameClient (address : SockaddrIn) (program : List Message) (k : UdpClient)
    (r : Caller Message (List UInt8)) : Prop where
  host : k.host_addr_ = address
  waiting : r.waiting = k.waiting
  results : k.results = r.done.map fun p => received p.2
  program : r.done.map Prod.fst ++ k.waiting.toList ++ k.todo = program

/-- The network `n` is at the state `c` of clients that call a server. -/
structure Mirrors (groups_ : Groups) (program : SockaddrIn → List Message) (n : UdpNet)
    (c : Calls SockaddrIn Message (List UInt8)) : Prop where
  server : Keeps groups_ n.server
  proper : ∀ p ∈ n.wire, Proper n.address p
  requests : c.requests = n.wire.filterMap (asRequest n.address)
  replies : c.replies = n.wire.filterMap (asReply n.address)
  up : c.up = n.server.running
  clients : ∀ a, SameClient n.address (program a) (n.client a) (c.caller a)
  apart : (n.client n.address).waiting = none

section Mirrors

variable {groups_ : Groups} {program : SockaddrIn → List Message} {n n' : UdpNet}
  {c : Calls SockaddrIn Message (List UInt8)} {address a : SockaddrIn} {p : Packet} {msg : Message}
  {i : Nat} {act : UdpAct}

/-- What stands around the i-th datagram. -/
theorem exists_split {wire : List Packet} (h : wire[i]? = some p) :
    ∃ xs ys, wire = xs ++ p :: ys ∧ wire.eraseIdx i = xs ++ ys := by
  obtain ⟨hlt, hp⟩ := List.getElem?_eq_some_iff.mp h
  refine ⟨wire.take i, wire.drop (i + 1), ?_, List.eraseIdx_eq_take_drop_succ wire i⟩
  rw [← hp, ← List.drop_eq_getElem_cons hlt, List.take_append_drop]

theorem reaction_packets (groups_ : Groups) (msg : Message) (src : SockaddrIn) :
    replyPackets address (reaction groups_ msg src) =
      (replyTo groups_ msg).toList.map fun reply => ⟨address, src, reply⟩ := by
  unfold reaction replyTo answer
  cases Command.ofWord msg.command with
  | none => rfl
  | some cmd => cases cmd <;> rfl

theorem mirrors_init (memory : List UInt8) (hm : memory.length = UdpServer.BUFFER_SIZE) :
    Mirrors groups_ program (.init groups_ memory address program)
      ⟨fun _ => ⟨[], none⟩, [], [], true⟩ where
  server := keeps_init groups_ hm
  proper _ h := absurd h List.not_mem_nil
  requests := rfl
  replies := rfl
  up := rfl
  clients _ := ⟨rfl, rfl, rfl, rfl⟩
  apart := rfl

/-- A step of one client leaves the others as they are. -/
theorem Mirrors.update (h : Mirrors groups_ program n c) {k : UdpClient}
    {r : Caller Message (List UInt8)} (hk : SameClient n.address (program a) k r)
    (a' : SockaddrIn) :
    SameClient n.address (program a') (Function.update n.client a k a')
      (Function.update c.caller a r a') := by
  by_cases ha : a' = a
  · subst ha
    rw [Function.update_self, Function.update_self]
    exact hk
  · rw [Function.update_of_ne ha, Function.update_of_ne ha]
    exact h.clients a'

/-- A request is read back from its datagram. -/
theorem deserialize_bytes (msg : Message) : Message.deserialize msg.serialize = msg := by
  have h := Message.deserialize_serialize msg []
  rwa [List.append_nil] at h

theorem mirrors_send (h : Mirrors groups_ program n c) (hs : n.send a = some n') :
    ∃ c', Relation.ReflTransGen (Calls.Step (replyTo groups_) halts) c c' ∧
      Mirrors groups_ program n' c' := by
  rw [UdpNet.send] at hs
  split at hs
  · cases hs
  next msg todo htodo =>
    rw [Option.ite_none_right_eq_some, Option.some.injEq] at hs
    obtain ⟨⟨ha, hw⟩, rfl⟩ := hs
    obtain ⟨hhost, hwaiting, hresults, hprogram⟩ := h.clients a
    refine ⟨_, .single (.call c a msg (hwaiting.trans hw)), ?_⟩
    have hreq : asRequest n.address ⟨a, (n.client a).host_addr_, msg.serialize⟩ =
        some (a, msg) := by
      rw [asRequest, hhost, if_pos rfl, deserialize_bytes]
    have hrep : asReply n.address ⟨a, (n.client a).host_addr_, msg.serialize⟩ = none := by
      rw [asReply, hhost, if_pos rfl]
    refine { server := h.server, proper := ?_, requests := ?_, replies := ?_, up := h.up,
             clients := h.update ⟨hhost, rfl, hresults, ?_⟩, apart := ?_ }
    · intro p hp
      rcases List.mem_append.mp hp with hp | hp
      · exact h.proper p hp
      · obtain rfl := List.mem_singleton.mp hp
        exact ⟨fun _ => ⟨ha, msg, rfl⟩, fun hne => absurd hhost hne⟩
    · show c.requests ++ [(a, msg)] = (n.wire ++ [_]).filterMap _
      rw [List.filterMap_append, ← h.requests, List.filterMap_cons_some hreq]
      rfl
    · show c.replies = (n.wire ++ [_]).filterMap _
      rw [List.filterMap_append, ← h.replies, List.filterMap_cons_none hrep]
      exact (List.append_nil _).symm
    · rw [hw, htodo] at hprogram
      rw [← hprogram]
      simp
    · dsimp only
      rw [Function.update_of_ne (Ne.symm ha)]
      exact h.apart

/-- The server's reaction to a whole request, with whether it goes on. -/
theorem react_request {s server : UdpServer} (hs : Keeps groups_ s)
    (hstep : s.step (.datagram msg.serialize a) = some server) :
    s.running = true ∧ (s.react msg.serialize a).2 = reaction groups_ msg a ∧
      server.running = !halts msg := by
  have hsize : msg.serialize.length = Message.sizeofMessage := msg.length_serialize
  have hreact := react_whole (d := msg.serialize) hs (by rw [hsize]; decide) hsize.ge a
  rw [deserialize_bytes] at hreact
  rw [UdpServer.step, Option.ite_none_right_eq_some, Option.some.injEq] at hstep
  obtain ⟨hrunning, rfl⟩ := hstep
  refine ⟨hrunning, hreact, ?_⟩
  -- the request in the buffer is this one
  have hsame := (react_eq s msg.serialize a).1.symm.trans hreact
  rw [hs.table] at hsame
  have hhead := congrArg List.head? hsame
  rw [head_reaction, head_reaction, Option.some.injEq, UdpEvent.handled.injEq] at hhead
  have hgo := react_running s msg.serialize a
  rw [hhead] at hgo
  rw [Bool.eq_iff_iff, hgo, halts, Bool.not_eq_true', decide_eq_false_iff_not]

/-- The server takes a datagram that is for it. -/
theorem mirrors_serve (h : Mirrors groups_ program n c) (hs : n.serve i = some n') :
    ∃ c', Relation.ReflTransGen (Calls.Step (replyTo groups_) halts) c c' ∧
      Mirrors groups_ program n' c' := by
  rw [UdpNet.serve] at hs
  split at hs
  · cases hs
  next p hp =>
    rw [Option.ite_none_right_eq_some, Option.map_eq_some_iff] at hs
    obtain ⟨hdst, server, hserver, rfl⟩ := hs
    obtain ⟨xs, ys, hwire, herase⟩ := exists_split hp
    have hmem : p ∈ n.wire := List.mem_of_getElem? hp
    obtain ⟨hsrc, msg, hbytes⟩ := (h.proper p hmem).request hdst
    have hkeeps := h.server.step hserver
    rw [hbytes] at hserver
    obtain ⟨hrunning, hreact, hgoes⟩ := react_request h.server hserver
    have hreq : asRequest n.address p = some (p.src, msg) := by
      rw [asRequest, if_pos hdst, hbytes, deserialize_bytes]
    have hrep : asReply n.address p = none := if_pos hdst
    have hreply : ∀ reply, asRequest n.address ⟨n.address, p.src, reply⟩ = none ∧
        asReply n.address ⟨n.address, p.src, reply⟩ = some (p.src, reply) := fun _ =>
      ⟨if_neg hsrc, if_neg hsrc⟩
    have hserve : Calls.Step (replyTo groups_) halts c _ := .serve c p.src msg
      (xs.filterMap (asRequest n.address)) (ys.filterMap (asRequest n.address))
      (h.up.trans hrunning) (by
        rw [h.requests, hwire, List.filterMap_append, List.filterMap_cons_some hreq])
    refine ⟨_, .single hserve, ?_⟩
    rw [hbytes, hreact, reaction_packets]
    refine { server := hkeeps, proper := ?_, requests := ?_, replies := ?_, up := hgoes.symm,
             clients := h.clients, apart := h.apart }
    · intro q hq
      rcases List.mem_append.mp hq with hq | hq
      · exact h.proper q ((List.eraseIdx_sublist n.wire i).subset hq)
      · obtain ⟨reply, _, rfl⟩ := List.mem_map.mp hq
        exact ⟨fun hd => absurd hd hsrc, fun _ => rfl⟩
    · show _ = (n.wire.eraseIdx i ++ _).filterMap (asRequest n.address)
      rw [herase, List.filterMap_append, List.filterMap_append]
      cases replyTo groups_ msg with
      | none => exact (List.append_nil _).symm
      | some reply =>
        show _ = _ ++ [_].filterMap _
        rw [List.filterMap_cons_none (hreply reply).1]
        exact (List.append_nil _).symm
    · show c.replies ++ _ = (n.wire.eraseIdx i ++ _).filterMap (asReply n.address)
      rw [herase, List.filterMap_append, List.filterMap_append, h.replies, hwire,
        List.filterMap_append, List.filterMap_cons_none hrep]
      cases replyTo groups_ msg with
      | none => rfl
      | some reply =>
        show _ ++ [_] = _ ++ [_].filterMap _
        rw [List.filterMap_cons_some (hreply reply).2]
        rfl

/-- A datagram ends the recvfrom of a client. -/
theorem mirrors_receive (h : Mirrors groups_ program n c) (hs : n.receive i = some n') :
    ∃ c', Relation.ReflTransGen (Calls.Step (replyTo groups_) halts) c c' ∧
      Mirrors groups_ program n' c' := by
  rw [UdpNet.receive] at hs
  split at hs
  · cases hs
  next p hp =>
    rw [Option.ite_none_right_eq_some, Option.some.injEq] at hs
    obtain ⟨⟨hdst, hw⟩, rfl⟩ := hs
    obtain ⟨msg, hmsg⟩ := Option.isSome_iff_exists.mp hw
    obtain ⟨xs, ys, hwire, herase⟩ := exists_split hp
    obtain ⟨hhost, hwaiting, hresults, hprogram⟩ := h.clients p.dst
    have hsrc := (h.proper p (List.mem_of_getElem? hp)).reply hdst
    have hreq : asRequest n.address p = none := if_neg hdst
    have hrep : asReply n.address p = some (p.dst, p.bytes) := if_neg hdst
    have hreturn : Calls.Step (replyTo groups_) halts c _ := .returns c p.dst msg p.bytes
      (xs.filterMap (asReply n.address)) (ys.filterMap (asReply n.address))
      (hwaiting.trans hmsg) (by
        rw [h.replies, hwire, List.filterMap_append, List.filterMap_cons_some hrep])
    refine ⟨_, .single hreturn, ?_⟩
    refine { server := h.server, proper := ?_, requests := ?_, replies := ?_, up := h.up,
             clients := h.update ⟨hsrc, rfl, ?_, ?_⟩, apart := ?_ }
    · exact fun q hq => h.proper q ((List.eraseIdx_sublist n.wire i).subset hq)
    · show c.requests = (n.wire.eraseIdx i).filterMap _
      rw [herase, h.requests, hwire, List.filterMap_append, List.filterMap_append,
        List.filterMap_cons_none hreq]
    · show _ = (n.wire.eraseIdx i).filterMap _
      rw [herase, List.filterMap_append]
    · rw [hresults, List.map_append]
      rfl
    · rw [hmsg] at hprogram
      rw [← hprogram, List.map_append]
      simp
    · dsimp only
      rw [Function.update_of_ne (Ne.symm hdst)]
      exact h.apart

/-- A datagram gets lost. -/
theorem mirrors_lose (h : Mirrors groups_ program n c) (hi : i < n.wire.length) :
    ∃ c', Relation.ReflTransGen (Calls.Step (replyTo groups_) halts) c c' ∧
      Mirrors groups_ program { n with wire := n.wire.eraseIdx i } c' := by
  obtain ⟨xs, ys, hwire, herase⟩ := exists_split (List.getElem?_eq_getElem hi)
  have hproper : ∀ q ∈ n.wire.eraseIdx i, Proper n.address q := fun q hq =>
    h.proper q ((List.eraseIdx_sublist n.wire i).subset hq)
  by_cases hdst : n.wire[i].dst = n.address
  · have hreq : asRequest n.address n.wire[i] = some (n.wire[i].src, _) := if_pos hdst
    have hrep : asReply n.address n.wire[i] = none := if_pos hdst
    have hlose : Calls.Step (replyTo groups_) halts c _ := .loseRequest c _
      (xs.filterMap (asRequest n.address)) (ys.filterMap (asRequest n.address)) (by
        rw [h.requests, hwire, List.filterMap_append, List.filterMap_cons_some hreq])
    refine ⟨_, .single hlose, ⟨h.server, hproper, ?_, ?_, h.up, h.clients, h.apart⟩⟩
    · show _ = (n.wire.eraseIdx i).filterMap _
      rw [herase, List.filterMap_append]
    · show c.replies = (n.wire.eraseIdx i).filterMap _
      rw [herase, h.replies, hwire, List.filterMap_append, List.filterMap_append,
        List.filterMap_cons_none hrep]
  · have hreq : asRequest n.address n.wire[i] = none := if_neg hdst
    have hrep : asReply n.address n.wire[i] = some (n.wire[i].dst, _) := if_neg hdst
    have hlose : Calls.Step (replyTo groups_) halts c _ := .loseReply c _
      (xs.filterMap (asReply n.address)) (ys.filterMap (asReply n.address)) (by
        rw [h.replies, hwire, List.filterMap_append, List.filterMap_cons_some hrep])
    refine ⟨_, .single hlose, ⟨h.server, hproper, ?_, ?_, h.up, h.clients, h.apart⟩⟩
    · show c.requests = (n.wire.eraseIdx i).filterMap _
      rw [herase, h.requests, hwire, List.filterMap_append, List.filterMap_append,
        List.filterMap_cons_none hreq]
    · show _ = (n.wire.eraseIdx i).filterMap _
      rw [herase, List.filterMap_append]

/-- Every step of the network is matched by the clients and the server of `Calls`. -/
theorem mirrors_step (h : Mirrors groups_ program n c) (hs : n.step act = some n') :
    ∃ c', Relation.ReflTransGen (Calls.Step (replyTo groups_) halts) c c' ∧
      Mirrors groups_ program n' c' := by
  cases act with
  | send a => exact mirrors_send h hs
  | serve i => exact mirrors_serve h hs
  | receive i => exact mirrors_receive h hs
  | serverError =>
    rw [UdpNet.step, Option.map_eq_some_iff] at hs
    obtain ⟨server, hserver, rfl⟩ := hs
    have hkeeps := h.server.step hserver
    rw [UdpServer.step, Option.ite_none_right_eq_some, Option.some.injEq] at hserver
    obtain ⟨_, rfl⟩ := hserver
    exact ⟨_, .single (.crash c),
      ⟨hkeeps, h.proper, h.requests, h.replies, rfl, h.clients, h.apart⟩⟩
  | lose i =>
    rw [UdpNet.step, Option.ite_none_right_eq_some, Option.some.injEq] at hs
    obtain ⟨hi, rfl⟩ := hs
    exact mirrors_lose h hi

end Mirrors

/-! ## 3. Replies -/

section Replies

variable {groups_ : Groups} {program : SockaddrIn → List Message} {n n' : UdpNet}
  {address a : SockaddrIn} {memory : List UInt8} {msg : Message}

/-- The calls behind a reachable state of the network. -/
theorem exists_calls (hm : memory.length = UdpServer.BUFFER_SIZE)
    (h : Reach UdpNet.step (fun _ _ => True) (.init groups_ memory address program) n) :
    ∃ c, Mirrors groups_ program n c ∧ ∀ a, c.Good (replyTo groups_) a := by
  obtain ⟨c, hrun, hmirror⟩ := h.simulates (mirrors_init memory hm)
    fun _ _ _ _ hR _ hs => mirrors_step hR hs
  exact ⟨c, hmirror, fun a => good_of_steps ⟨fun p hp => absurd hp List.not_mem_nil, .idle⟩ hrun⟩

theorem replyTo_some {reply : List UInt8} (h : replyTo groups_ msg = some reply) :
    Command.ofWord msg.command = some .GET ∧ reply = answer groups_ msg := by
  unfold replyTo at h
  split at h
  next hget => exact ⟨hget, (Option.some.inj h).symm⟩
  · cases h

/-- The calls that have returned are GETs, and each has the reply to its own request. -/
theorem SameClient.answered {program : List Message} {k : UdpClient}
    {r : Caller Message (List UInt8)} (h : SameClient address program k r)
    (hgood : ∀ p ∈ r.done, replyTo groups_ p.1 = some p.2) :
    ∃ done, done ++ (k.waiting.toList ++ k.todo) = program ∧
      k.results = done.map (fun msg => received (answer groups_ msg)) ∧
      ∀ msg ∈ done, Command.ofWord msg.command = some .GET := by
  refine ⟨r.done.map Prod.fst, ?_, ?_, fun msg hmsg => ?_⟩
  · rw [← h.program, List.append_assoc]
  · rw [h.results, List.map_map]
    refine List.map_congr_left fun p hp => ?_
    rw [Function.comp_apply, (replyTo_some (hgood p hp)).2]
  · obtain ⟨p, hp, rfl⟩ := List.mem_map.mp hmsg
    exact (replyTo_some (hgood p hp)).1

/-- In every run, the calls of a client that have returned are the first of its program, all of
    them GETs, and each has the reply to its own request. -/
theorem udp_replies (hm : memory.length = UdpServer.BUFFER_SIZE)
    (h : Reach UdpNet.step (fun _ _ => True) (.init groups_ memory address program) n)
    (a : SockaddrIn) :
    ∃ done, done ++ ((n.client a).waiting.toList ++ (n.client a).todo) = program a ∧
      (n.client a).results = done.map (fun msg => received (answer groups_ msg)) ∧
      ∀ msg ∈ done, Command.ofWord msg.command = some .GET := by
  obtain ⟨c, hmirror, hgood⟩ := exists_calls hm h
  exact (hmirror.clients a).answered (hgood a).answered

/-- The call of the client returns in some continuation. -/
def CallReturns (n : UdpNet) (a : SockaddrIn) : Prop :=
  ∃ n', Reach UdpNet.step (fun _ _ => True) n n' ∧ (n'.client a).results ≠ (n.client a).results

/-- A reply that is on its way can be received. -/
theorem returns_of_reply {p : Packet} (hw : (n.client a).waiting = some msg) (ha : a ≠ n.address)
    (hp : p ∈ n.wire) (hdst : p.dst = a) : CallReturns n a := by
  obtain ⟨i, hlt, hget⟩ := List.getElem_of_mem hp
  subst hdst
  have hstep : n.step (.receive i) = some { n with
      client := Function.update n.client p.dst { n.client p.dst with
        host_addr_ := p.src, waiting := none
        results := (n.client p.dst).results ++ [received p.bytes] }
      wire := n.wire.eraseIdx i } := by
    show n.receive i = _
    rw [UdpNet.receive, List.getElem?_eq_getElem hlt, hget]
    exact if_pos ⟨ha, by rw [hw]; rfl⟩
  refine ⟨_, reach_step trivial hstep, fun he => ?_⟩
  dsimp only at he
  rw [Function.update_self] at he
  exact absurd (congrArg List.length he) (by simp)

theorem sentTo_replies {wire : List Packet} (h : ∀ p ∈ wire, p.dst ≠ a) :
    sentTo a (wire.filterMap (asReply address)) = [] := by
  rw [sentTo, List.filterMap_filterMap, List.filterMap_eq_nil_iff]
  intro p hp
  unfold asReply
  split
  · rfl
  · exact if_neg (h p hp)

theorem sentTo_requests {wire : List Packet} (h : ∀ p ∈ wire, p.src ≠ a) :
    sentTo a (wire.filterMap (asRequest address)) = [] := by
  rw [sentTo, List.filterMap_filterMap, List.filterMap_eq_nil_iff]
  intro p hp
  unfold asRequest
  split
  · exact if_neg (h p hp)
  · rfl

/-- A GET that is on its way to a running server can be answered. -/
theorem returns_of_request {c : Calls SockaddrIn Message (List UInt8)} {p : Packet}
    (hmirror : Mirrors groups_ program n c) (hgood : c.Good (replyTo groups_) a)
    (hw : (n.client a).waiting = some msg) (ha : a ≠ n.address)
    (hget : Command.ofWord msg.command = some .GET) (hrunning : n.server.running = true)
    (hp : p ∈ n.wire) (hsrc : p.src = a) : CallReturns n a := by
  have hproper := hmirror.proper p hp
  have hdst : p.dst = n.address := by
    by_contra hne
    exact ha (hsrc.symm.trans (hproper.reply hne))
  obtain ⟨_, msg', hbytes⟩ := hproper.request hdst
  obtain ⟨i, hlt, hpi⟩ := List.getElem_of_mem hp
  have hpi : n.wire[i]? = some p := by rw [List.getElem?_eq_getElem hlt, hpi]
  -- the request is the one that the client waits with
  obtain rfl : msg = msg' := by
    obtain ⟨xs, ys, hwire, _⟩ := exists_split hpi
    have hreq : asRequest n.address p = some (a, msg') := by
      rw [asRequest, if_pos hdst, hbytes, deserialize_bytes, hsrc]
    obtain ⟨hw', _⟩ := hgood.request (r := msg') (by
      rw [hmirror.requests, hwire, List.filterMap_append, List.filterMap_cons_some hreq])
    exact Option.some.inj (hw.symm.trans ((hmirror.clients a).waiting.symm.trans hw'))
  have hserver : n.server.step (.datagram msg.serialize a) =
      some (n.server.react msg.serialize a).1 := by
    rw [UdpServer.step, if_pos hrunning]
  obtain ⟨_, hreact, _⟩ := react_request hmirror.server hserver
  have hstep : n.step (.serve i) = some { n with
      server := (n.server.react msg.serialize a).1
      wire := n.wire.eraseIdx i ++ [⟨n.address, a, answer groups_ msg⟩] } := by
    show n.serve i = _
    rw [UdpNet.serve, hpi]
    dsimp only
    rw [if_pos hdst, hbytes, hsrc, hserver, hreact, reaction_packets, replyTo, if_pos hget]
    rfl
  have hmem : (⟨n.address, a, answer groups_ msg⟩ : Packet) ∈
      n.wire.eraseIdx i ++ [⟨n.address, a, answer groups_ msg⟩] :=
    List.mem_append_right _ List.mem_cons_self
  obtain ⟨n', hrun, hne⟩ := returns_of_reply (n := { n with
      server := (n.server.react msg.serialize a).1
      wire := n.wire.eraseIdx i ++ [⟨n.address, a, answer groups_ msg⟩] }) hw ha hmem rfl
  exact ⟨n', reach_head trivial hstep hrun, hne⟩

/-- A call that has not returned returns in some continuation if and only if its reply is on its
    way, or it is a GET that is on its way to a running server. -/
theorem reply_comes_iff (hm : memory.length = UdpServer.BUFFER_SIZE)
    (h : Reach UdpNet.step (fun _ _ => True) (.init groups_ memory address program) n)
    (hw : (n.client a).waiting = some msg) :
    CallReturns n a ↔ (∃ p ∈ n.wire, p.dst = a) ∨
      (Command.ofWord msg.command = some .GET ∧ n.server.running = true ∧
        ∃ p ∈ n.wire, p.src = a) := by
  obtain ⟨c, hmirror, hgood⟩ := exists_calls hm h
  have ha : a ≠ n.address := by
    rintro rfl
    cases hmirror.apart.symm.trans hw
  constructor
  · rintro ⟨n', hrun, hne⟩
    by_contra hno
    rw [not_or] at hno
    obtain ⟨hreply, hget⟩ := hno
    have hdoomed : Doomed (replyTo groups_) c a msg := by
      refine ⟨(hmirror.clients a).waiting.trans hw, ?_, ?_⟩
      · rw [hmirror.replies]
        exact sentTo_replies fun p hp hdst => hreply ⟨p, hp, hdst⟩
      · by_cases hcmd : Command.ofWord msg.command = some .GET
        · cases hup : n.server.running with
          | false => exact Or.inr (Or.inl (hmirror.up.trans hup))
          | true =>
            left
            rw [hmirror.requests]
            exact sentTo_requests fun p hp hsrc => hget ⟨hcmd, hup, p, hp, hsrc⟩
        · exact Or.inr (Or.inr (if_neg hcmd))
    obtain ⟨c', hsteps, hmirror'⟩ := hrun.simulates hmirror
      fun _ _ _ _ hR _ hs => mirrors_step hR hs
    have hdone := (hdoomed.steps (hgood a) hsteps).2
    rw [(hmirror'.clients a).results, (hmirror.clients a).results, hdone] at hne
    exact hne rfl
  · rintro (⟨p, hp, hdst⟩ | ⟨hget, hrunning, p, hp, hsrc⟩)
    · exact returns_of_reply hw ha hp hdst
    · exact returns_of_request hmirror (hgood a) hw ha hget hrunning hp hsrc

end Replies

/-- A client at port 1 that asks for one name and ends its session; the server is at port 2. -/
def oneGet : UdpNet :=
  .init twoNames (List.replicate UdpServer.BUFFER_SIZE 0) ⟨0, 2⟩ fun a =>
    if a = ⟨0, 1⟩ then [⟨0, 7, 8⟩, Client.send_stop_session] else []

theorem udp_replies_oneGet : ∃ n, Reach UdpNet.step (fun _ _ => True) oneGet n ∧
    (n.client ⟨0, 1⟩).results = [some [65]] ∧
    ∃ done, done ++ ((n.client ⟨0, 1⟩).waiting.toList ++ (n.client ⟨0, 1⟩).todo) =
        [⟨0, 7, 8⟩, Client.send_stop_session] ∧
      (n.client ⟨0, 1⟩).results = done.map (fun msg => received (answer twoNames msg)) ∧
      ∀ msg ∈ done, Command.ofWord msg.command = some .GET := by
  have hrun : ((exec UdpNet.step (fun _ _ => True) oneGet
      [.send ⟨0, 1⟩, .serve 0, .receive 0]).map fun n => (n.client ⟨0, 1⟩).results) =
      some [some [65]] := by
    decide +kernel
  obtain ⟨n, hn, hres⟩ := Option.map_eq_some_iff.mp hrun
  have hreach := reach_of_exec hn
  exact ⟨n, hreach, hres, udp_replies List.length_replicate hreach ⟨0, 1⟩⟩

/-- The same client, whose request is on its way; and behind its STOP_SESSION. -/
theorem reply_comes_oneGet :
    (∃ n, Reach UdpNet.step (fun _ _ => True) oneGet n ∧ CallReturns n ⟨0, 1⟩) ∧
      ∃ n, Reach UdpNet.step (fun _ _ => True) oneGet n ∧
        (n.client ⟨0, 1⟩).waiting = some Client.send_stop_session ∧ ¬ CallReturns n ⟨0, 1⟩ := by
  constructor
  · have hrun : ((exec UdpNet.step (fun _ _ => True) oneGet [.send ⟨0, 1⟩]).map fun n =>
        ((n.client ⟨0, 1⟩).waiting, n.server.running, n.wire)) =
        some (some ⟨0, 7, 8⟩, true, [⟨⟨0, 1⟩, ⟨0, 2⟩, Message.serialize ⟨0, 7, 8⟩⟩]) := by
      decide +kernel
    obtain ⟨n, hn, hres⟩ := Option.map_eq_some_iff.mp hrun
    simp only [Prod.mk.injEq] at hres
    obtain ⟨hw, hrunning, hwire⟩ := hres
    have hreach := reach_of_exec hn
    have hmem : ∃ p ∈ n.wire, p.src = ⟨0, 1⟩ := by
      rw [hwire]
      exact ⟨_, List.mem_cons_self, rfl⟩
    exact ⟨n, hreach, (reply_comes_iff List.length_replicate hreach hw).mpr
      (Or.inr ⟨rfl, hrunning, hmem⟩)⟩
  · have hrun : ((exec UdpNet.step (fun _ _ => True) oneGet
        [.send ⟨0, 1⟩, .serve 0, .receive 0, .send ⟨0, 1⟩]).map fun n =>
        ((n.client ⟨0, 1⟩).waiting, n.wire)) = some (some Client.send_stop_session,
          [⟨⟨0, 1⟩, ⟨0, 2⟩, Client.send_stop_session.serialize⟩]) := by
      decide +kernel
    obtain ⟨n, hn, hres⟩ := Option.map_eq_some_iff.mp hrun
    simp only [Prod.mk.injEq] at hres
    obtain ⟨hw, hwire⟩ := hres
    have hreach := reach_of_exec hn
    refine ⟨n, hreach, hw, fun hcomes => ?_⟩
    rcases (reply_comes_iff List.length_replicate hreach hw).mp hcomes with
      ⟨p, hp, hdst⟩ | ⟨hget, _⟩
    · rw [hwire, List.mem_singleton] at hp
      subst hp
      cases hdst
    · cases hget

/-! ## 4. Both programs -/

section Programs

variable {memory : List UInt8} {address : SockaddrIn}

theorem command_stop_session : Command.ofWord Client.send_stop_session.command =
    some .STOP_SESSION := rfl

/-- The server finds the student that the client has asked for. -/
theorem answer_ask (groups_ : Groups) (ask : Ask) :
    answer groups_ ask.message = get groups_ ask.group_id ask.student_id := rfl

/-- The first calls of a client with some commands: none of them is its STOP_SESSION. -/
theorem asked_first {asks : List Ask} {done rest : List Message}
    (h : done ++ rest = asks.map Ask.message ++ [Client.send_stop_session])
    (hget : ∀ msg ∈ done, Command.ofWord msg.command = some .GET) :
    done = (asks.take done.length).map Ask.message := by
  have hpre : done <+: asks.map Ask.message ++ [Client.send_stop_session] := ⟨rest, h⟩
  rcases List.prefix_concat_iff.mp hpre with rfl | hpre
  · have hstop := hget _ (List.mem_append_right _ List.mem_cons_self)
    cases command_stop_session.symm.trans hstop
  · rw [List.map_take]
    exact List.prefix_iff_eq_take.mp hpre

/-- The server has read the text of a roster, and every client that of some requests. Whatever the
    network does, what a client has printed are the names that it has asked for, in their order and
    up to some request: of each student the one that was written last, or an error. -/
theorem names_printed (roster : List Group) (group_id : Int32) (asks : SockaddrIn → List Ask)
    (unset : SockaddrIn → Istream → Int32 × Int32)
    (hm : memory.length = UdpServer.BUFFER_SIZE) :
    ∃ groups_, readingLoop (.start (rosterText roster) group_id) = .run groups_ ∧
      ∀ n, Reach UdpNet.step (fun _ _ => True) (.init groups_ memory address fun a =>
          sentBy (clientLoop (unset a) (.ofBytes (commandText ((asks a).map Ask.line))))) n →
        ∀ a, ∃ k, (n.client a).results = ((asks a).take k).map fun ask =>
          received ((lastName roster ask.group_id ask.student_id).getD (textBytes ("error: " ++
            toString ask.group_id.toInt ++ " " ++ toString ask.student_id.toInt))) := by
  refine ⟨_, readingLoop_roster roster, fun n h a => ?_⟩
  obtain ⟨c, hmirror, hgood⟩ := exists_calls hm h
  obtain ⟨done, hprogram, hresults, hget⟩ := (hmirror.clients a).answered (hgood a).answered
  have hasked : sentBy (clientLoop (unset a) (.ofBytes (commandText ((asks a).map Ask.line)))) =
      (asks a).map Ask.message ++ [Client.send_stop_session] := by
    have hall := sentBy_commands (asks a) (unset a) [] .eof
    rwa [List.append_nil] at hall
  rw [hasked] at hprogram
  refine ⟨done.length, ?_⟩
  rw [hresults]
  conv_lhs => rw [asked_first hprogram hget]
  rw [List.map_map]
  refine List.map_congr_left fun ask _ => ?_
  rw [Function.comp_apply, answer_ask, get_roster]

end Programs

/-- A roster of one name, and a client that asks for it. -/
def oneName : List Group := [⟨7, [⟨8, [65], by decide, by decide⟩]⟩]

def oneAsk : List Ask := [⟨7, 8, by decide, by decide⟩]

/-- It gets the name. -/
theorem names_printed_oneName : ∃ groups_ n,
    readingLoop (.start (rosterText oneName) 0) = .run groups_ ∧
    Reach UdpNet.step (fun _ _ => True)
      (.init groups_ (List.replicate UdpServer.BUFFER_SIZE 0) ⟨0, 2⟩ fun _ =>
        sentBy (clientLoop (fun _ => (0, 0)) (.ofBytes (commandText (oneAsk.map Ask.line))))) n ∧
    (n.client ⟨0, 1⟩).results = [some [65]] ∧
    ∃ k, (n.client ⟨0, 1⟩).results = (oneAsk.take k).map fun ask =>
      received ((lastName oneName ask.group_id ask.student_id).getD (textBytes ("error: " ++
        toString ask.group_id.toInt ++ " " ++ toString ask.student_id.toInt))) := by
  obtain ⟨groups_, hload, hall⟩ := @names_printed (List.replicate UdpServer.BUFFER_SIZE 0) ⟨0, 2⟩
    oneName 0 (fun _ => oneAsk) (fun _ _ => (0, 0)) List.length_replicate
  have hgroups : groups_ = oneName.foldl Group.load fun _ => none :=
    Loaded.run.inj (hload.symm.trans (readingLoop_roster oneName))
  have hsent : sentBy (clientLoop (fun _ => (0, 0))
      (.ofBytes (commandText (oneAsk.map Ask.line)))) = [⟨0, 7, 8⟩, Client.send_stop_session] := by
    have hcommands := sentBy_commands oneAsk (fun _ => (0, 0)) [] .eof
    rwa [List.append_nil] at hcommands
  have hrun : ((exec UdpNet.step (fun _ _ => True)
      (.init (oneName.foldl Group.load fun _ => none) (List.replicate UdpServer.BUFFER_SIZE 0)
        ⟨0, 2⟩ fun _ => [⟨0, 7, 8⟩, Client.send_stop_session])
      [.send ⟨0, 1⟩, .serve 0, .receive 0]).map fun n => (n.client ⟨0, 1⟩).results) =
      some [some [65]] := by
    decide +kernel
  obtain ⟨n, hn, hres⟩ := Option.map_eq_some_iff.mp hrun
  have hreach := reach_of_exec hn
  rw [← hgroups, ← hsent] at hreach
  exact ⟨groups_, n, hload, hreach, hres, hall n hreach ⟨0, 1⟩⟩

end Ece358.GroupServer
