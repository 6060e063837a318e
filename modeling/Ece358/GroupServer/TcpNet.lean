/-
  File:      Ece358/GroupServer/TcpNet.lean
  Subject:   One TCPServer and any number of TCPClients, each over its own connection.

  A client sends a request and blocks in recv until some of the reply, or the end of the stream, is
  there. The server is one loop around poll; whom it accepts, and whom it reads from next, is up to
  the network.

  * `Link`, `TcpPeer`, `TcpNet`, `TcpNet.step` -- the clients, their connections and the server;
  * `whole` -- a network that cuts no request and no reply;
  * `TcpMoved`, `tcpMoved` -- what a step of the network can be;
  * `replyBytes`, `received_message` -- what the server does with a request that arrives whole;
  * `Standing`, `TcpGood`, `step_tcpGood` -- the invariant, of each client, and its steps;
  * `tcp_replies` -- every client gets the replies to its own requests, in their order;
  * `names_printed_tcp` -- both programs, from their stdins to what the client prints.
-/
import Ece358.GroupServer.ClientMain
import Ece358.GroupServer.ClientTable
import Ece358.GroupServer.TcpClient

namespace Ece358.GroupServer

open Lib

/-! ## 1. The network -/

/-- How far a client's connection has come. The server knows one that it has accepted by its
    descriptor. -/
inductive Link where
  | unconnected
  | pending
  | accepted (fd : Nat)
  | closed
  deriving DecidableEq

/-- A client, with what its `main` will still send, and its connection: `up` is what it has sent and
    the server has not received; `ended` says that a recv of the server has returned 0. -/
structure TcpPeer where
  todo : List Message
  session : Session
  link : Link
  up : List UInt8
  ended : Bool

/-- The server, and the clients, by any names: it does not look at their addresses. -/
structure TcpNet (α : Type) where
  server : TcpServer
  peer : α → TcpPeer

/-- What can happen. Of a client: its connect, the two halves of its next send_message, and the end
    of its program. Of the server: the outcome of its poll, accept or recv, and a signal that
    kills it. -/
inductive TcpAct (α : Type) where
  | connect (a : α)
  | send (a : α) (result : Int)
  | reply (a : α) (result : Except SockError Nat) (memory : List UInt8)
  | exit (a : α)
  | poll (result : Int) (revents : List Nat)
  | accept (a : α) (fd : Nat)
  | receive (a : α) (count : Nat) (memory : List UInt8)
  | acceptError (e : SockError)
  | recvError (a : α) (e : SockError)
  | kill (status : Nat)

/-- The server is in its loop. -/
def TcpServer.running (s : TcpServer) : Bool :=
  match s.pc with
  | .exited _ => false
  | _ => true

/-- What the server has done between two states. -/
def TcpServer.eventsSince (s s' : TcpServer) : List Event := s'.log.drop s.log.length

section Network

variable {α : Type} [DecidableEq α]

namespace TcpNet

/-- A server that listens on `sock`; `program` is what each client is going to send. -/
def init (groups_ : Groups) (sock : Nat) (program : α → List Message) : TcpNet α where
  server := .init groups_ sock
  peer := fun a => ⟨program a, .init groups_ 0, .unconnected, [], false⟩

def put (n : TcpNet α) (a : α) (k : TcpPeer) : TcpNet α :=
  { n with peer := Function.update n.peer a k }

/-- No more comes from the server on this connection. -/
def finished (n : TcpNet α) (a : α) : Prop :=
  (n.peer a).link = .closed ∨ n.server.running = false

instance (n : TcpNet α) (a : α) : Decidable (n.finished a) :=
  inferInstanceAs (Decidable (_ ∨ _))

/-- The connect of set_host_info. -/
def connect (n : TcpNet α) (a : α) : Option (TcpNet α) :=
  if (n.peer a).link = .unconnected ∧ n.server.running then
    some (n.put a { n.peer a with link := .pending })
  else none

/-- The first half of send_message; where `send` does not take all of the request, it is the last
    thing that the client does. -/
def send (n : TcpNet α) (a : α) (result : Int) : Option (TcpNet α) :=
  let k := n.peer a
  match k.todo with
  | [] => none
  | msg :: todo =>
    if k.session.pc = .idle ∧ k.link ≠ .unconnected then
      some (n.put a { k with
        todo := if result ≠ (Message.sizeofMessage : Int) then k.todo else todo
        session := k.session.call msg result
        up := k.up ++ msg.serialize.take result.toNat })
    else none

/-- The second half: recv returns a part of the stream, or 0 at its end, or it fails. -/
def reply (n : TcpNet α) (a : α) (memory : List UInt8) :
    Except SockError Nat → Option (TcpNet α)
  | .ok count =>
    let k := n.peer a
    if k.session.pc = .recv ∧ count ≤ BUFFER_SIZE ∧ count ≤ k.session.stream.length ∧
        (count = 0 → k.session.stream = [] ∧ n.finished a) then
      some (n.put a { k with session := k.session.reply memory (.ok count) })
    else none
  | .error e =>
    let k := n.peer a
    if k.session.pc = .recv then
      some (n.put a { k with session := k.session.reply memory (.error e) })
    else none

/-- The end of `main`; its exit closes the socket. -/
def exit (n : TcpNet α) (a : α) : Option (TcpNet α) :=
  let k := n.peer a
  if k.session.pc = .idle ∧ k.todo = [] then
    some (n.put a { k with session := { k.session with pc := .exited } })
  else none

/-- The accept of the server takes a connection that waits for it. -/
def accept (n : TcpNet α) (a : α) (fd : Nat) : Option (TcpNet α) :=
  if (n.peer a).link = .pending then
    (n.server.step (.accept (.ok fd))).map fun server =>
      { n.put a { n.peer a with link := .accepted fd } with server := server }
  else none

/-- The recv of the server takes what there is of a client, or 0 if that is gone; what is done with
    it goes to the same client. -/
def receive (n : TcpNet α) (a : α) (count : Nat) (memory : List UInt8) : Option (TcpNet α) :=
  match n.server.pc with
  | .recv it =>
    match n.server.clients_[it]? with
    | some conn =>
      let k := n.peer a
      if k.link = .accepted conn.fd ∧ count ≤ k.up.length ∧
          (count = 0 → k.up = [] ∧ k.session.pc = .exited) then
        (n.server.step (.recv (.ok (k.up.take count)) memory)).map fun server =>
          let events := n.server.eventsSince server
          { n.put a { k with
              session := { k.session with
                stream := k.session.stream ++ sentBytes events, served := k.session.served + 1 }
              link := if .closed conn.fd ∈ events then .closed else k.link
              up := k.up.drop count
              ended := k.ended || count = 0 } with server := server }
      else none
    | none => none
  | _ => none

/-- The recv of the server fails. Nothing comes behind the end of a stream: from there on recv does
    not say that it would block. -/
def recvError (n : TcpNet α) (a : α) (e : SockError) : Option (TcpNet α) :=
  match n.server.pc with
  | .recv it =>
    match n.server.clients_[it]? with
    | some conn =>
      let k := n.peer a
      if k.link = .accepted conn.fd ∧ (e = .EWOULDBLOCK → k.ended = false) then
        (n.server.step (.recv (.error e) [])).map fun server => { n with server := server }
      else none
    | none => none
  | _ => none

def step (n : TcpNet α) : TcpAct α → Option (TcpNet α)
  | .connect a => n.connect a
  | .send a result => n.send a result
  | .reply a result memory => n.reply a memory result
  | .exit a => n.exit a
  | .poll result revents =>
    (n.server.step (.poll result revents)).map fun server => { n with server := server }
  | .accept a fd => n.accept a fd
  | .receive a count memory => n.receive a count memory
  | .acceptError e =>
    (n.server.step (.accept (.error e))).map fun server => { n with server := server }
  | .recvError a e => n.recvError a e
  | .kill status =>
    if n.server.running then some { n with server := n.server.exit status } else none

end TcpNet

/-- The network cuts neither a request nor a reply, no recv of a client fails, and the replies fit
    into the buffer of the client and have no NUL. -/
def whole (n : TcpNet α) : TcpAct α → Prop
  | .receive a count _ => count = (n.peer a).up.length
  | .reply a (.ok count) _ =>
    let stream := (n.peer a).session.stream
    count = stream.length ∧ count < BUFFER_SIZE ∧ 0 ∉ stream
  | .reply _ (.error _) _ => False
  | _ => True

instance (n : TcpNet α) : (act : TcpAct α) → Decidable (whole n act)
  | .receive _ _ _ => inferInstanceAs (Decidable (_ = _))
  | .reply _ (.ok _) _ => inferInstanceAs (Decidable (_ ∧ _ ∧ _))
  | .reply _ (.error _) _ => .isFalse id
  | .connect _ | .send _ _ | .exit _ | .poll _ _ | .accept _ _ | .acceptError _ | .recvError _ _
  | .kill _ => .isTrue trivial

theorem put_self (n : TcpNet α) (a : α) (k : TcpPeer) : (n.put a k).peer a = k :=
  Function.update_self ..

theorem put_other (n : TcpNet α) {a b : α} (k : TcpPeer) (h : b ≠ a) :
    (n.put a k).peer b = n.peer b := Function.update_of_ne h ..

/-- What a step can be. -/
inductive TcpMoved (n : TcpNet α) : TcpAct α → TcpNet α → Prop where
  | connects (a : α) (hlink : (n.peer a).link = .unconnected)
      (hrunning : n.server.running = true) :
    TcpMoved n (.connect a) (n.put a { n.peer a with link := .pending })
  | sends (a : α) (result : Int) (msg : Message) (todo : List Message)
      (htodo : (n.peer a).todo = msg :: todo) (hpc : (n.peer a).session.pc = .idle)
      (hlink : (n.peer a).link ≠ .unconnected) :
    TcpMoved n (.send a result) (n.put a { n.peer a with
      todo := if result ≠ (Message.sizeofMessage : Int) then (n.peer a).todo else todo
      session := (n.peer a).session.call msg result
      up := (n.peer a).up ++ msg.serialize.take result.toNat })
  | replies (a : α) (result : Except SockError Nat) (memory : List UInt8)
      (hpc : (n.peer a).session.pc = .recv)
      (hok : ∀ count, result = .ok count → count ≤ BUFFER_SIZE ∧
        count ≤ (n.peer a).session.stream.length ∧
        (count = 0 → (n.peer a).session.stream = [] ∧ n.finished a)) :
    TcpMoved n (.reply a result memory)
      (n.put a { n.peer a with session := (n.peer a).session.reply memory result })
  | exits (a : α) (hpc : (n.peer a).session.pc = .idle) (htodo : (n.peer a).todo = []) :
    TcpMoved n (.exit a)
      (n.put a { n.peer a with session := { (n.peer a).session with pc := .exited } })
  | answers (act : TcpAct α) (ans : Answer) (server : TcpServer)
      (hserver : n.server.step ans = some server) (haccept : ∀ fd, ans ≠ .accept (.ok fd))
      (hrecv : ∀ bytes memory, ans ≠ .recv (.ok bytes) memory) :
    TcpMoved n act { n with server := server }
  | accepts (a : α) (fd : Nat) (server : TcpServer) (hlink : (n.peer a).link = .pending)
      (hserver : n.server.step (.accept (.ok fd)) = some server) :
    TcpMoved n (.accept a fd)
      { n.put a { n.peer a with link := .accepted fd } with server := server }
  | receives (a : α) (count : Nat) (memory : List UInt8) (it : Nat) (conn : Pollfd)
      (server : TcpServer) (hpc : n.server.pc = .recv it)
      (hget : n.server.clients_[it]? = some conn) (hlink : (n.peer a).link = .accepted conn.fd)
      (hnone : count = 0 → (n.peer a).up = [] ∧ (n.peer a).session.pc = .exited)
      (hserver : n.server.step (.recv (.ok ((n.peer a).up.take count)) memory) = some server) :
    TcpMoved n (.receive a count memory) { n.put a { n.peer a with
        session := { (n.peer a).session with
          stream := (n.peer a).session.stream ++ sentBytes (n.server.eventsSince server)
          served := (n.peer a).session.served + 1 }
        link := if .closed conn.fd ∈ n.server.eventsSince server then .closed else (n.peer a).link
        up := (n.peer a).up.drop count
        ended := (n.peer a).ended || count = 0 } with server := server }
  | killed (status : Nat) (hrunning : n.server.running = true) :
    TcpMoved n (.kill status) { n with server := n.server.exit status }

/-- It is nothing else. -/
theorem tcpMoved {n n' : TcpNet α} {act : TcpAct α} (hs : n.step act = some n') :
    TcpMoved n act n' := by
  cases act with
  | connect a =>
    simp only [TcpNet.step, TcpNet.connect, Option.ite_none_right_eq_some, Option.some.injEq] at hs
    obtain ⟨⟨hlink, hrunning⟩, rfl⟩ := hs
    exact .connects a hlink hrunning
  | send a result =>
    simp only [TcpNet.step, TcpNet.send] at hs
    split at hs
    · cases hs
    next msg todo htodo =>
      rw [Option.ite_none_right_eq_some, Option.some.injEq] at hs
      obtain ⟨⟨hpc, hlink⟩, rfl⟩ := hs
      exact .sends a result msg todo htodo hpc hlink
  | reply a result memory =>
    cases result with
    | error e =>
      simp only [TcpNet.step, TcpNet.reply, Option.ite_none_right_eq_some, Option.some.injEq] at hs
      obtain ⟨hpc, rfl⟩ := hs
      exact .replies a (.error e) memory hpc fun _ h => by cases h
    | ok count =>
      simp only [TcpNet.step, TcpNet.reply, Option.ite_none_right_eq_some, Option.some.injEq] at hs
      obtain ⟨⟨hpc, hok⟩, rfl⟩ := hs
      refine .replies a (.ok count) memory hpc fun count' h => ?_
      cases h
      exact hok
  | exit a =>
    simp only [TcpNet.step, TcpNet.exit, Option.ite_none_right_eq_some, Option.some.injEq] at hs
    obtain ⟨⟨hpc, htodo⟩, rfl⟩ := hs
    exact .exits a hpc htodo
  | poll result revents =>
    obtain ⟨server, hserver, rfl⟩ := Option.map_eq_some_iff.mp hs
    exact .answers _ _ server hserver (fun _ h => by cases h) fun _ _ h => by cases h
  | accept a fd =>
    simp only [TcpNet.step, TcpNet.accept, Option.ite_none_right_eq_some,
      Option.map_eq_some_iff] at hs
    obtain ⟨hlink, server, hserver, rfl⟩ := hs
    exact .accepts a fd server hlink hserver
  | receive a count memory =>
    simp only [TcpNet.step, TcpNet.receive] at hs
    split at hs
    next it hpc =>
      split at hs
      next conn hget =>
        rw [Option.ite_none_right_eq_some, Option.map_eq_some_iff] at hs
        obtain ⟨⟨hlink, _, hnone⟩, server, hserver, rfl⟩ := hs
        exact .receives a count memory it conn server hpc hget hlink hnone hserver
      · cases hs
    · cases hs
  | acceptError e =>
    obtain ⟨server, hserver, rfl⟩ := Option.map_eq_some_iff.mp hs
    exact .answers _ _ server hserver (fun _ h => by cases h) fun _ _ h => by cases h
  | recvError a e =>
    simp only [TcpNet.step, TcpNet.recvError] at hs
    split at hs
    · split at hs
      · rw [Option.ite_none_right_eq_some, Option.map_eq_some_iff] at hs
        obtain ⟨_, server, hserver, rfl⟩ := hs
        exact .answers _ _ server hserver (fun _ h => by cases h) fun _ _ h => by cases h
      · cases hs
    · cases hs
  | kill status =>
    simp only [TcpNet.step, Option.ite_none_right_eq_some, Option.some.injEq] at hs
    obtain ⟨hrunning, rfl⟩ := hs
    exact .killed status hrunning

end Network

/-! ## 2. What the server does -/

/-- The bytes that the server sends for a request. -/
def replyBytes (groups_ : Groups) (msg : Message) : List UInt8 :=
  if Command.ofWord msg.command = some .GET then answer groups_ msg else []

section Server

variable {s s' : TcpServer} {ans : Answer} {msg : Message} {memory : List UInt8} {it : Nat}
  {conn : Pollfd}

theorem running_iff : s.running = true ↔ ∀ status, s.pc ≠ .exited status := by
  unfold TcpServer.running
  split
  next status hpc => exact ⟨fun h => (Bool.false_ne_true h).elim, fun h => absurd hpc (h status)⟩
  next h => exact ⟨fun _ status => h status, fun _ => rfl⟩

/-- Only a server that runs makes a step. -/
theorem running_of_step (h : s.step ans = some s') : s.running = true :=
  running_iff.mpr (stepped h).alive

/-- The table of names stays. -/
theorem step_groups (h : s.step ans = some s') : s'.groups_ = s.groups_ := by
  cases stepped h with
  | receives it conn bytes memory =>
    unfold TcpServer.handle
    split <;> rfl
  | _ => rfl

/-- A request that has arrived whole: the server sends its reply, and closes the connection if it
    is a STOP_SESSION. -/
theorem received_message (hpc : s.pc = .recv it) (hget : s.clients_[it]? = some conn)
    (h : s.step (.recv (.ok msg.serialize) memory) = some s') :
    sentBytes (s.eventsSince s') = replyBytes s.groups_ msg ∧
      (.closed conn.fd ∈ s.eventsSince s' →
        Command.ofWord msg.command = some .STOP_SESSION) := by
  cases stepped h with
  | receives it' conn' bytes memory hpc' hget' =>
    obtain rfl : it = it' := ServerPc.recv.inj (hpc.symm.trans hpc')
    obtain rfl : conn = conn' := Option.some.inj (hget.symm.trans hget')
    have hmsg := Message.deserialize_serialize msg (memory.drop msg.serialize.length)
    unfold TcpServer.eventsSince TcpServer.handle handle_msg replyBytes
    rw [hmsg]
    dsimp only
    cases hcmd : Command.ofWord msg.command with
    | none => simp [sentBytes]
    | some command => cases command <;> simp [sentBytes, answer]

end Server

/-! ## 3. Where a client stands -/

/-- One of the messages ends the session. -/
def EndsSession (msgs : List Message) : Prop :=
  ∃ msg ∈ msgs, Command.ofWord msg.command = some .STOP_SESSION

/-- A client whose calls `called` have returned their replies, and `late` the empty string, which is
    all there is behind the end of the stream. `current` is the call that has not returned: its
    request is on its way, or its reply. -/
inductive Standing (groups_ : Groups) (running : Bool) (k : TcpPeer) (called : List Message) :
    (late current : List Message) → Prop where
  | quiet (hpc : k.session.pc = .idle) (hup : k.up = [])
      (hstream : k.session.stream = []) (hclosed : k.link = .closed → EndsSession called) :
      Standing groups_ running k called [] []
  | asked (msg : Message) (hpc : k.session.pc = .recv)
      (hup : k.up = msg.serialize) (hstream : k.session.stream = [])
      (hclosed : k.link = .closed → EndsSession called) :
      Standing groups_ running k called [] [msg]
  | served (msg : Message) (hpc : k.session.pc = .recv) (hup : k.up = [])
      (hstream : k.session.stream = replyBytes groups_ msg)
      (hclosed : k.link = .closed → EndsSession (called ++ [msg])) :
      Standing groups_ running k called [] [msg]
  | behind (late current : List Message) (hover : k.link = .closed ∨ running = false)
      (hstream : k.session.stream = []) (hwhy : running = false ∨ EndsSession called)
      (hpc : (k.session.pc = .idle ∧ current = []) ∨
        (k.session.pc = .recv ∧ ∃ msg, current = [msg])) :
      Standing groups_ running k called late current
  | gone (late : List Message) (hpc : k.session.pc = .exited)
      (hwhy : late = [] ∨ running = false ∨ EndsSession called) :
      Standing groups_ running k called late []

/-- The invariant, of one client. -/
structure TcpGood (groups_ : Groups) (running : Bool) (program : List Message) (k : TcpPeer)
    (called late current : List Message) : Prop where
  asked : k.session.asked = called ++ late ++ current
  results : k.session.results = called.map (replyBytes groups_) ++ late.map fun _ => []
  todo : k.session.asked ++ k.todo = program
  stands : Standing groups_ running k called late current

section Peers

variable {groups_ : Groups} {running running' : Bool} {program called late current : List Message}
  {k k' : TcpPeer} {msg : Message} {todo : List Message} {memory : List UInt8}

/-- An empty string has a reason: the server is gone, or it was asked to end the session. -/
theorem Standing.why (h : Standing groups_ running k called late current) :
    late = [] ∨ running = false ∨ EndsSession called := by
  cases h with
  | quiet | asked | served => exact Or.inl rfl
  | behind _ _ _ _ hwhy => exact Or.inr hwhy
  | gone _ _ hwhy => exact hwhy

theorem Standing.length_current (h : Standing groups_ running k called late current) :
    current.length = if k.session.pc = .recv then 1 else 0 := by
  cases h with
  | quiet hpc => rw [hpc]; rfl
  | asked _ hpc => rw [hpc]; rfl
  | served _ hpc => rw [hpc]; rfl
  | behind _ _ _ _ _ hpc =>
    rcases hpc with ⟨hpc, rfl⟩ | ⟨hpc, msg, rfl⟩
    · rw [hpc]; rfl
    · rw [hpc]; rfl
  | gone _ hpc => rw [hpc]; rfl

theorem Standing.current_nil (h : Standing groups_ running k called late current)
    (hpc : k.session.pc = .idle) : current = [] := by
  have hlen := h.length_current
  rw [hpc] at hlen
  exact List.eq_nil_of_length_eq_zero hlen

/-- What happens elsewhere: the server may come to its end, and a link that is not closed may come
    further. -/
theorem Standing.elsewhere (h : Standing groups_ running k called late current)
    (hrunning : running = false → running' = false) (hsession : k'.session = k.session)
    (hup : k'.up = k.up) (hlink : k'.link = .closed ↔ k.link = .closed) :
    Standing groups_ running' k' called late current := by
  cases h with
  | quiet hpc hup' hstream hclosed =>
    exact .quiet (hsession ▸ hpc) (hup.trans hup') (hsession ▸ hstream)
      fun h => hclosed (hlink.mp h)
  | asked msg hpc hup' hstream hclosed =>
    exact .asked msg (hsession ▸ hpc) (hup.trans hup') (hsession ▸ hstream)
      fun h => hclosed (hlink.mp h)
  | served msg hpc hup' hstream hclosed =>
    exact .served msg (hsession ▸ hpc) (hup.trans hup') (hsession ▸ hstream)
      fun h => hclosed (hlink.mp h)
  | behind _ _ hover hstream hwhy hpc =>
    exact .behind late current (hover.imp hlink.mpr hrunning) (hsession ▸ hstream)
      (hwhy.imp_left hrunning) (hsession ▸ hpc)
  | gone _ hpc hwhy =>
    exact .gone late (hsession ▸ hpc) (hwhy.imp_right (Or.imp_left hrunning))

theorem TcpGood.elsewhere (h : TcpGood groups_ running program k called late current)
    (hrunning : running = false → running' = false) (hsession : k'.session = k.session)
    (htodo : k'.todo = k.todo) (hup : k'.up = k.up)
    (hlink : k'.link = .closed ↔ k.link = .closed) :
    TcpGood groups_ running' program k' called late current where
  asked := hsession ▸ h.asked
  results := hsession ▸ h.results
  todo := by rw [hsession, htodo]; exact h.todo
  stands := h.stands.elsewhere hrunning hsession hup hlink

/-- The request is sent, or the client gives up. -/
theorem TcpGood.send (h : TcpGood groups_ running program k called late current)
    (hpc : k.session.pc = .idle) (htodo : k.todo = msg :: todo) (result : Int) :
    ∃ current', TcpGood groups_ running program { k with
        todo := if result ≠ (Message.sizeofMessage : Int) then k.todo else todo
        session := k.session.call msg result
        up := k.up ++ msg.serialize.take result.toNat } called late current' := by
  obtain rfl := h.stands.current_nil hpc
  unfold Session.call
  split
  · exact ⟨[], h.asked, h.results, h.todo, .gone late rfl h.stands.why⟩
  next hresult =>
    obtain rfl : result = (Message.sizeofMessage : Int) := not_not.mp hresult
    have hall : msg.serialize.take (Message.sizeofMessage : Int).toNat = msg.serialize :=
      List.take_of_length_le (Nat.le_of_eq (Message.length_serialize msg))
    refine ⟨[msg], ?_, h.results, ?_, ?_⟩
    · show k.session.asked ++ [msg] = _
      rw [h.asked, List.append_nil]
    · show k.session.asked ++ [msg] ++ todo = program
      rw [List.append_assoc, List.singleton_append, ← htodo]
      exact h.todo
    · rw [hall]
      cases h.stands with
      | quiet _ hup hstream hclosed =>
        exact .asked msg rfl (by rw [hup]; rfl) hstream hclosed
      | behind _ _ hover hstream hwhy _ =>
        exact .behind late [msg] hover hstream hwhy (Or.inr ⟨rfl, msg, rfl⟩)
      | gone _ hpc' => cases hpc.symm.trans hpc'

/-- All of the reply is received, or the end of the stream. -/
theorem TcpGood.reply (h : TcpGood groups_ running program k called late current)
    (memory : List UInt8) (hpc : k.session.pc = .recv) (hnul : 0 ∉ k.session.stream)
    (hend : k.session.stream = [] → k.link = .closed ∨ running = false) :
    ∃ called' late', TcpGood groups_ running program
      { k with session := k.session.reply memory (.ok k.session.stream.length) }
      called' late' [] := by
  have hresults : (k.session.reply memory (.ok k.session.stream.length)).results =
      k.session.results ++ [k.session.stream] := by
    show _ ++ [cString (k.session.stream.take k.session.stream.length)] = _
    rw [List.take_length, cString_eq_iff.mpr hnul]
  have hstream : (k.session.reply memory (.ok k.session.stream.length)).stream = [] :=
    List.drop_length
  cases hs : h.stands with
  | quiet hpc' => cases hpc.symm.trans hpc'
  | gone _ hpc' => cases hpc.symm.trans hpc'
  | asked msg _ _ hnil hclosed =>
    -- the request will never be read
    have hover := hend hnil
    refine ⟨called, [msg], ?_, ?_, h.todo, .behind [msg] [] hover hstream ?_
      (Or.inl ⟨rfl, rfl⟩)⟩
    · exact h.asked.trans (by simp)
    · rw [hresults, h.results, hnil]
      simp
    · exact hover.symm.imp_right hclosed
  | served msg _ hup hreply hclosed =>
    refine ⟨called ++ [msg], [], ?_, ?_, h.todo, .quiet rfl hup hstream hclosed⟩
    · exact h.asked.trans (by simp)
    · rw [hresults, h.results, hreply]
      simp
  | behind _ _ hover hnil hwhy hpc' =>
    obtain ⟨msg, rfl⟩ : ∃ msg, current = [msg] := by
      rcases hpc' with ⟨hidle, _⟩ | ⟨_, hmsg⟩
      · cases hpc.symm.trans hidle
      · exact hmsg
    refine ⟨called, late ++ [msg], ?_, ?_, h.todo, .behind (late ++ [msg]) [] hover hstream
      hwhy (Or.inl ⟨rfl, rfl⟩)⟩
    · exact h.asked.trans (by simp)
    · rw [hresults, h.results, hnil]
      simp

/-- The end of its program. -/
theorem TcpGood.exit (h : TcpGood groups_ running program k called late current)
    (hpc : k.session.pc = .idle) :
    TcpGood groups_ running program { k with session := { k.session with pc := .exited } }
      called late [] := by
  obtain rfl := h.stands.current_nil hpc
  exact ⟨h.asked, h.results, h.todo, .gone late rfl h.stands.why⟩

/-- The server reads what the client has sent: one request, or anything if the client is gone. -/
theorem TcpGood.serve (h : TcpGood groups_ true program k called late current) {fd : Nat}
    (hlink : k.link = .accepted fd) (hsome : k.up = [] → k.session.pc = .exited)
    (hsession : k'.session.asked = k.session.asked ∧ k'.session.results = k.session.results ∧
      k'.session.pc = k.session.pc) (htodo : k'.todo = k.todo) (hup : k'.up = [])
    (hserved : ∀ msg, k.up = msg.serialize →
      k'.session.stream = k.session.stream ++ replyBytes groups_ msg ∧
      (k'.link = .closed → Command.ofWord msg.command = some .STOP_SESSION)) :
    TcpGood groups_ running' program k' called late current := by
  obtain ⟨hasked, hresults, hpc'⟩ := hsession
  have hopen : k.link ≠ .closed := by
    rw [hlink]
    exact Link.noConfusion
  refine ⟨hasked.trans h.asked, hresults.trans h.results, by rw [hasked, htodo]; exact h.todo, ?_⟩
  cases h.stands with
  | quiet hpc hnil => cases hpc.symm.trans (hsome hnil)
  | served _ hpc hnil => cases hpc.symm.trans (hsome hnil)
  | asked msg hpc hmsg hstream hclosed =>
    obtain ⟨hreply, hstop⟩ := hserved msg hmsg
    refine .served msg (hpc'.trans hpc) hup ?_ fun hc => ?_
    · rw [hreply, hstream, List.nil_append]
    · exact ⟨msg, List.mem_append_right _ List.mem_cons_self, hstop hc⟩
  | behind _ _ hover => exact (hover.resolve_right Bool.noConfusion |> hopen).elim
  | gone _ hpc hwhy =>
    exact .gone late (hpc'.trans hpc) (hwhy.imp_right fun h => Or.inr (h.resolve_left
      Bool.noConfusion))

end Peers

/-! ## 4. Replies -/

section Replies

variable {α : Type} {groups_ : Groups} {program : α → List Message} {n n' : TcpNet α}
  {act : TcpAct α} {sock : Nat}

/-- The invariant: every client is in order. -/
structure InOrder (groups_ : Groups) (program : α → List Message) (n : TcpNet α) : Prop where
  groups : n.server.groups_ = groups_
  clients : ∀ a, ∃ called late current,
    TcpGood groups_ n.server.running (program a) (n.peer a) called late current

theorem inOrder_init (groups_ : Groups) (sock : Nat) (program : α → List Message) :
    InOrder groups_ program (.init groups_ sock program) where
  groups := rfl
  clients _ := ⟨[], [], [], rfl, rfl, rfl, .quiet rfl rfl rfl fun h => Link.noConfusion h⟩

/-- Only the server does something. -/
theorem InOrder.serve (h : InOrder groups_ program n) {server : TcpServer}
    (hgroups : server.groups_ = n.server.groups_)
    (hrunning : n.server.running = false → server.running = false) :
    InOrder groups_ program { n with server := server } where
  groups := hgroups.trans h.groups
  clients a := by
    obtain ⟨called, late, current, hgood⟩ := h.clients a
    exact ⟨called, late, current, hgood.elsewhere hrunning rfl rfl rfl Iff.rfl⟩

/-- After an answer of the operating system. -/
theorem InOrder.answer (h : InOrder groups_ program n) {ans : Answer} {server : TcpServer}
    (hs : n.server.step ans = some server) : InOrder groups_ program { n with server := server } :=
  h.serve (step_groups hs) fun hrunning => (Bool.false_ne_true
    (hrunning.symm.trans (running_of_step hs))).elim

variable [DecidableEq α]

/-- One client does something, and the server may come to its end. -/
theorem InOrder.put (h : InOrder groups_ program n) (a : α) {k : TcpPeer}
    {server : TcpServer} (hgroups : server.groups_ = n.server.groups_)
    (hrunning : n.server.running = false → server.running = false)
    (ha : ∃ called late current,
      TcpGood groups_ server.running (program a) k called late current) :
    InOrder groups_ program { n.put a k with server := server } where
  groups := hgroups.trans h.groups
  clients b := by
    show ∃ called late current, TcpGood groups_ server.running (program b)
      ((n.put a k).peer b) called late current
    by_cases hb : b = a
    · subst hb
      rw [put_self]
      exact ha
    · rw [put_other n k hb]
      obtain ⟨called, late, current, hgood⟩ := h.clients b
      exact ⟨called, late, current, hgood.elsewhere hrunning rfl rfl rfl Iff.rfl⟩

/-- Every step keeps it, as long as nothing is cut. -/
theorem InOrder.step (h : InOrder groups_ program n) (hok : whole n act)
    (hs : n.step act = some n') : InOrder groups_ program n' := by
  cases tcpMoved hs with
  | connects a hlink =>
    obtain ⟨called, late, current, hgood⟩ := h.clients a
    refine h.put a rfl id ⟨called, late, current, hgood.elsewhere id rfl rfl rfl ?_⟩
    rw [hlink]
    exact ⟨Link.noConfusion, Link.noConfusion⟩
  | sends a result msg todo htodo hpc =>
    obtain ⟨called, late, current, hgood⟩ := h.clients a
    obtain ⟨current', hgood'⟩ := hgood.send hpc htodo result
    exact h.put a rfl id ⟨called, late, current', hgood'⟩
  | replies a result memory hpc hend =>
    cases result with
    | error e => exact hok.elim
    | ok count =>
      obtain ⟨rfl, _, hnul⟩ := hok
      obtain ⟨called, late, current, hgood⟩ := h.clients a
      obtain ⟨called', late', hgood'⟩ := hgood.reply memory hpc hnul
        fun hnil => ((hend _ rfl).2.2 (by rw [hnil]; rfl)).2
      exact h.put a rfl id ⟨called', late', [], hgood'⟩
  | exits a hpc =>
    obtain ⟨called, late, current, hgood⟩ := h.clients a
    exact h.put a rfl id ⟨called, late, [], hgood.exit hpc⟩
  | answers act ans server hserver => exact h.answer hserver
  | accepts a fd server hlink hserver =>
    obtain ⟨called, late, current, hgood⟩ := h.clients a
    have hfalse : n.server.running = false → server.running = false := fun hfalse => by
      cases hfalse.symm.trans (running_of_step hserver)
    refine h.put a (step_groups hserver) hfalse ⟨called, late, current,
      hgood.elsewhere hfalse rfl rfl rfl ?_⟩
    rw [hlink]
    exact ⟨Link.noConfusion, Link.noConfusion⟩
  | receives a count memory it conn server hpc hget hlink hnone hserver =>
    obtain rfl : count = (n.peer a).up.length := hok
    rw [List.take_length] at hserver
    have hrunning := running_of_step hserver
    obtain ⟨called, late, current, hgood⟩ := h.clients a
    rw [hrunning] at hgood
    refine h.put a (step_groups hserver) (fun hfalse => ?_) ⟨called, late, current,
      hgood.serve hlink (fun hnil => (hnone (by rw [hnil]; rfl)).2) ⟨rfl, rfl, rfl⟩ rfl
        List.drop_length fun msg hmsg => ?_⟩
    · cases hfalse.symm.trans hrunning
    · rw [hmsg] at hserver
      obtain ⟨hreply, hstop⟩ := received_message hpc hget hserver
      refine ⟨by rw [hreply, h.groups], fun hclosed => hstop ?_⟩
      by_contra hnot
      rw [if_neg hnot, hlink] at hclosed
      exact Link.noConfusion hclosed
  | killed status => exact h.serve rfl fun _ => rfl

theorem inOrder (h : Reach TcpNet.step whole (.init groups_ sock program) n) :
    InOrder groups_ program n :=
  h.invariant (inOrder_init groups_ sock program) fun _ _ _ hI hok hs => hI.step hok hs

/-- In every run that cuts nothing, the calls of a client that have returned are the first of its
    program. Each has returned the reply to its own request; but for the last ones, which have
    returned the empty string because the server is gone, or has closed the connection at a
    STOP_SESSION before them. -/
theorem tcp_replies (h : Reach TcpNet.step whole (.init groups_ sock program) n) (a : α) :
    ∃ called late current, called ++ late ++ current ++ (n.peer a).todo = program a ∧
      (n.peer a).session.results =
        called.map (replyBytes groups_) ++ (late.map fun _ => []) ∧
      (late = [] ∨ n.server.running = false ∨ EndsSession called) ∧
      current.length = if (n.peer a).session.pc = .recv then 1 else 0 := by
  obtain ⟨called, late, current, hgood⟩ := (inOrder h).clients a
  refine ⟨called, late, current, ?_, hgood.results, hgood.stands.why,
    hgood.stands.length_current⟩
  rw [← hgood.asked]
  exact hgood.todo

end Replies

/-- One client, which asks for one name and ends its session. -/
def oneSession : TcpNet Unit :=
  .init (allNamed [65]) 3 fun _ => [⟨0, 7, 8⟩, Client.send_stop_session]

/-- Its reply, and the end of the stream behind the STOP_SESSION. -/
theorem tcp_replies_oneSession : ∃ n, Reach TcpNet.step whole oneSession n ∧
    (n.peer ()).session.results = [[65], []] ∧
    ∃ called late current, called ++ late ++ current ++ (n.peer ()).todo =
        [⟨0, 7, 8⟩, Client.send_stop_session] ∧
      (n.peer ()).session.results =
        called.map (replyBytes (allNamed [65])) ++ (late.map fun _ => []) ∧
      (late = [] ∨ n.server.running = false ∨ EndsSession called) ∧
      current.length = if (n.peer ()).session.pc = .recv then 1 else 0 := by
  have hrun : ((exec TcpNet.step whole oneSession [.connect (), .poll 1 [1], .accept () 4,
      .acceptError .EWOULDBLOCK, .send () 12, .poll 1 [0, 1],
      .receive () 12 (List.replicate 1024 0), .reply () (.ok 1) [],
      .recvError () .EWOULDBLOCK, .send () 12, .poll 1 [0, 1],
      .receive () 12 (List.replicate 1024 0), .reply () (.ok 0) []]).map fun n =>
        (n.peer ()).session.results) = some [[65], []] := by
    decide +kernel
  obtain ⟨n, hn, hres⟩ := Option.map_eq_some_iff.mp hrun
  have hreach := reach_of_exec hn
  exact ⟨n, hreach, hres, tcp_replies hreach ()⟩

/-! ## 5. Both programs -/

section Programs

variable {α : Type} [DecidableEq α]

theorem replyBytes_ask (groups_ : Groups) (ask : Ask) :
    replyBytes groups_ ask.message = get groups_ ask.group_id ask.student_id := rfl

/-- Of a program that begins with some requests, the first calls. -/
theorem take_called {asks : List Ask} {called late tail msgs : List Message}
    (h : called ++ late ++ tail = asks.map Ask.message ++ msgs) :
    called.take asks.length = (asks.take called.length).map Ask.message := by
  have hpre : called = (asks.map Ask.message ++ msgs).take called.length := by
    rw [← h, List.append_assoc, List.take_left]
  have hlen : min asks.length called.length ≤ (asks.map Ask.message).length := by
    rw [List.length_map]
    exact Nat.min_le_left _ _
  conv_lhs => rw [hpre]
  rw [List.take_take, List.take_append_of_le_length hlen, List.map_take]
  by_cases hle : asks.length ≤ called.length
  · rw [Nat.min_eq_left hle, List.take_of_length_le (by rw [List.length_map]),
      List.take_of_length_le (by rw [List.length_map]; exact hle)]
  · rw [Nat.min_eq_right (by omega)]

theorem not_endsSession_asks (asks : List Ask) : ¬ EndsSession (asks.map Ask.message) := by
  rintro ⟨msg, hmsg, hstop⟩
  obtain ⟨ask, _, rfl⟩ := List.mem_map.mp hmsg
  cases hstop

/-- The server has read the text of a roster, and every client a text that begins with some
    requests, and goes on in any way. As long as nothing is cut, what a client prints for these
    requests are the names that it has asked for, in their order: of each student the one that was
    written last, or an error; and empty lines for the last of them, if the server has gone. -/
theorem names_printed_tcp (roster : List Group) (group_id : Int32) (asks : α → List Ask)
    (rest : α → List UInt8) (unset : α → Istream → Int32 × Int32) :
    ∃ groups_, readingLoop (.start (rosterText roster) group_id) = .run groups_ ∧
      ∀ sock n, Reach TcpNet.step whole (.init groups_ sock fun a =>
          sentBy (clientLoop (unset a)
            (.ofBytes (commandText ((asks a).map Ask.line) ++ rest a)))) n →
        ∀ a, ∃ k m, (n.peer a).session.results.take (asks a).length =
            (((asks a).take k).map fun ask =>
              (lastName roster ask.group_id ask.student_id).getD (textBytes ("error: " ++
                toString ask.group_id.toInt ++ " " ++ toString ask.student_id.toInt))) ++
              List.replicate m [] ∧
          (m = 0 ∨ n.server.running = false) := by
  refine ⟨_, readingLoop_roster roster, fun sock n h a => ?_⟩
  obtain ⟨called, late, current, hgood⟩ := (inOrder h).clients a
  have hasked : called ++ late ++ (current ++ (n.peer a).todo) = (asks a).map Ask.message ++
      sentBy (clientLoop (unset a) (.ofBytes (rest a))) := by
    rw [← List.append_assoc, ← hgood.asked, hgood.todo]
    exact sentBy_commands (asks a) (unset a) (rest a) (requested_loop (unset a) (rest a))
  have hcalled := take_called hasked
  refine ⟨called.length, (late.take ((asks a).length - called.length)).length, ?_, ?_⟩
  · rw [hgood.results, List.take_append, ← List.map_take, ← List.map_take, hcalled, List.map_map,
      List.length_map, List.map_const']
    refine congrArg₂ _ (List.map_congr_left fun ask _ => ?_) rfl
    rw [Function.comp_apply, replyBytes_ask, get_roster]
  · -- an empty line among them: the client has not asked to end the session yet
    by_cases hle : (asks a).length ≤ called.length
    · left
      rw [Nat.sub_eq_zero_of_le hle]
      rfl
    · have hall : called = ((asks a).take called.length).map Ask.message := by
        rw [← hcalled, List.take_of_length_le (by omega)]
      rcases hgood.stands.why with rfl | hgone | hstop
      · left
        rw [List.take_nil]
        rfl
      · exact Or.inr hgone
      · rw [hall] at hstop
        exact absurd hstop (not_endsSession_asks _)

end Programs

end Ece358.GroupServer
