/-
  File:      Ece358/GroupServer/TcpServer.lean
  Subject:   `TCPServer::run` (a2/TCPServer.cc), from one system call to the next.

  The server waits in poll, in accept or in the recv of one of its clients. A step is the answer of
  the operating system, with all that `run` does up to its next call. The buffer of recv is not
  initialised, so an answer says too what the memory under it holds.

  * `TcpServer`, `ServerPc` -- the object, the locals of `run`, and where it waits;
  * `Event` -- what it does, for the record;
  * `handle_msg`, `scan`, `step` -- the code;
  * `Stepped` -- what a step can be;
  * `Conn`, `conn` -- a connection as the record shows it, from its accept on;
  * `Served` -- the invariant: the table, and what was handled on each connection.
-/
import Ece358.GroupServer.Message
import Ece358.Lib.Transition

namespace Ece358.GroupServer

open Lib

/-! ## 1. The server -/

/-- struct pollfd; its `events` are the same for all. -/
structure Pollfd where
  fd : Nat
  revents : Nat
  deriving DecidableEq

/-- make_poll(sock); poll sets `revents` before anything reads it. -/
def make_poll (sock : Nat) : Pollfd := ⟨sock, 0⟩

/-- What errno says of a call that failed. -/
inductive SockError where
  | EWOULDBLOCK
  | other (errno : Nat)
  deriving DecidableEq

/-- What the server does. `received` is for the record, with the memory under the buffer. -/
inductive Event where
  | accepted (fd : Nat)
  | received (fd : Nat) (bytes memory : List UInt8)
  | handled (client : Nat) (msg : Message)
  | sent (client : Nat) (reply : List UInt8)
  | closed (fd : Nat)
  | stopped (client : Nat)
  deriving DecidableEq

/-- The system call that the server waits in. -/
inductive ServerPc where
  | poll
  | accept
  | recv (it : Nat)
  | exited (status : Nat)
  deriving DecidableEq

/-- The object, with the local `sock` of `run`. -/
structure TcpServer where
  groups_ : Groups
  clients_ : List Pollfd
  sock : Nat
  pc : ServerPc
  log : List Event

/-- What `handle_msg` comes to: its result, or the exit(0) of `stop`. -/
inductive Outcome where
  | returned (result : Bool)
  | exited
  deriving DecidableEq

/-- sizeof(buffer) in `run` -/
def BUFFER_SIZE : Nat := 1024

def handle_msg (groups_ : Groups) (client : Nat) (buffer : List UInt8) : List Event × Outcome :=
  let msg := Message.deserialize buffer
  match Command.ofWord msg.command with
  | some .GET =>
    ([.handled client msg, .sent client (get groups_ msg.param1.toInt32 msg.param2.toInt32)],
      .returned true)
  | some .STOP_SESSION => ([.handled client msg], .returned false)
  | some .STOP => ([.handled client msg, .stopped client], .exited)
  | none => ([.handled client msg], .returned true)

/-- The for loop of `run` from `it` on, over the entries `clients`, up to its next call. -/
def scan (sock : Nat) : List Pollfd → Nat → ServerPc
  | [], _ => .poll
  | conn :: clients, it =>
    if conn.revents = 0 then scan sock clients (it + 1)
    else if conn.fd = sock then .accept
    else .recv it

/-- The answers of the operating system. -/
inductive Answer where
  | poll (result : Int) (revents : List Nat)
  | accept (result : Except SockError Nat)
  | recv (result : Except SockError (List UInt8)) (memory : List UInt8)

namespace TcpServer

/-- The server behind `init`, which listens on `sock`. -/
def init (groups_ : Groups) (sock : Nat) : TcpServer := ⟨groups_, [make_poll sock], sock, .poll, []⟩

def exit (s : TcpServer) (status : Nat) : TcpServer := { s with pc := .exited status }

/-- The behaviour of `run` behind a poll. -/
def polled (s : TcpServer) (result : Int) (revents : List Nat) : Option TcpServer :=
  if result < 0 then some (s.exit 1)
  else if result = 0 then some (s.exit 1)
  else if revents.length = s.clients_.length then
    let clients := s.clients_.zipWith (fun conn r => { conn with revents := r }) revents
    some { s with clients_ := clients, pc := scan s.sock clients 0 }
  else none

/-- Behind an accept; the kernel hands out no descriptor that is still open. -/
def accepted (s : TcpServer) : Except SockError Nat → Option TcpServer
  | .ok fd =>
    if fd ∈ s.clients_.map Pollfd.fd then none
    else some { s with
      clients_ := s.clients_ ++ [make_poll fd]
      log := s.log ++ [.accepted fd] }
  | .error .EWOULDBLOCK => some { s with pc := .poll }
  | .error (.other errno) => some (s.exit errno)

/-- The message that was read off the buffer is handled, and the recv repeated, or the client
    erased. -/
def handle (s : TcpServer) (it : Nat) (fd : Nat) (buffer : List UInt8) : TcpServer :=
  match handle_msg s.groups_ fd buffer with
  | (events, .returned true) => { s with log := s.log ++ events }
  | (events, .returned false) =>
    { s with
      clients_ := s.clients_.eraseIdx it, pc := .poll, log := s.log ++ events ++ [.closed fd] }
  | (events, .exited) => { s with pc := .exited 0, log := s.log ++ events }

/-- Behind a recv of the client at `it`; at the end of the stream it returns no bytes. -/
def received (s : TcpServer) (it : Nat) (memory : List UInt8) :
    Except SockError (List UInt8) → Option TcpServer
  | .ok bytes =>
    match s.clients_[it]? with
    | none => none
    | some conn =>
      if bytes.length ≤ BUFFER_SIZE ∧ memory.length = BUFFER_SIZE then
        some ({ s with log := s.log ++ [Event.received conn.fd bytes memory] }.handle it conn.fd
          (bytes ++ memory.drop bytes.length))
      else none
  | .error .EWOULDBLOCK => some { s with pc := scan s.sock (s.clients_.drop (it + 1)) (it + 1) }
  | .error (.other errno) => some (s.exit errno)

def step (s : TcpServer) : Answer → Option TcpServer
  | .poll result revents => if s.pc = .poll then s.polled result revents else none
  | .accept result => if s.pc = .accept then s.accepted result else none
  | .recv result memory =>
    match s.pc with
    | .recv it => s.received it memory result
    | _ => none

end TcpServer

/-! ## 2. Connections -/

/-- A connection: what recv has delivered, with the memory under it, what was handled, and whether
    the server has ended it. -/
structure Conn where
  reads : List (List UInt8 × List UInt8)
  handled : List Message
  ended : Bool
  deriving DecidableEq

def Conn.new : Conn := ⟨[], [], false⟩

/-- The connection with the descriptor `fd` behind an event; an accept begins a new one. -/
def Conn.next (fd : Nat) (c : Conn) : Event → Conn
  | .accepted fd' => if fd' = fd then .new else c
  | .received fd' bytes memory =>
    if fd' = fd then { c with reads := c.reads ++ [(bytes, memory)] } else c
  | .handled fd' msg => if fd' = fd then { c with handled := c.handled ++ [msg] } else c
  | .sent _ _ => c
  | .closed fd' => if fd' = fd then { c with ended := true } else c
  | .stopped fd' => if fd' = fd then { c with ended := true } else c

/-- The connection that has, or had last, the descriptor `fd`. -/
def TcpServer.conn (s : TcpServer) (fd : Nat) : Conn := s.log.foldl (Conn.next fd) .new

/-- The request that is read off the buffer. -/
abbrev request : List UInt8 × List UInt8 → Message := Message.codec.read

/-- What holds of a connection: up to the first request that ends it, one request was handled for
    each recv. -/
structure Conn.Good (c : Conn) : Prop where
  handled : c.handled = takeThrough Message.ends (c.reads.map request)
  ended : c.ended = true → ∃ m ∈ c.handled, m.ends = true
  sizes : ∀ r ∈ c.reads, r.2.length = BUFFER_SIZE

/-- The invariant. -/
structure Served (s : TcpServer) : Prop where
  listener : (s.clients_.map Pollfd.fd).head? = some s.sock
  distinct : (s.clients_.map Pollfd.fd).Nodup
  client : ∀ it conn, s.pc = .recv it → s.clients_[it]? = some conn → conn.fd ≠ s.sock
  good : ∀ fd, (s.conn fd).Good
  going : (∀ status, s.pc ≠ .exited status) →
    ∀ fd ∈ s.clients_.map Pollfd.fd, ∀ m ∈ (s.conn fd).handled, m.ends = false

section Steps

variable {s s' : TcpServer} {fd it : Nat} {buffer : List UInt8}

theorem conn_append (es : List Event) (h : s'.log = s.log ++ es) (fd : Nat) :
    s'.conn fd = es.foldl (Conn.next fd) (s.conn fd) := by
  rw [TcpServer.conn, h, List.foldl_append, TcpServer.conn]

/-- What `run` does behind an answer. -/
inductive Stepped (s : TcpServer) : Answer → TcpServer → Prop where
  | pollFails (result : Int) (revents : List Nat) (hpc : s.pc = .poll) (hresult : result ≤ 0) :
    Stepped s (.poll result revents) (s.exit 1)
  | polls (result : Int) (revents : List Nat) (clients : List Pollfd) (hpc : s.pc = .poll)
      (hresult : 0 < result) (hlen : revents.length = s.clients_.length)
      (hclients : clients = s.clients_.zipWith (fun conn r => { conn with revents := r }) revents) :
    Stepped s (.poll result revents) { s with clients_ := clients, pc := scan s.sock clients 0 }
  | accepts (fd : Nat) (hpc : s.pc = .accept) (hnew : fd ∉ s.clients_.map Pollfd.fd) :
    Stepped s (.accept (.ok fd)) { s with
      clients_ := s.clients_ ++ [make_poll fd]
      log := s.log ++ [.accepted fd] }
  | acceptBlocks (hpc : s.pc = .accept) :
    Stepped s (.accept (.error .EWOULDBLOCK)) { s with pc := .poll }
  | acceptFails (errno : Nat) (hpc : s.pc = .accept) :
    Stepped s (.accept (.error (.other errno))) (s.exit errno)
  | receives (it : Nat) (conn : Pollfd) (bytes memory : List UInt8) (hpc : s.pc = .recv it)
      (hget : s.clients_[it]? = some conn) (hlen : bytes.length ≤ BUFFER_SIZE)
      (hsize : memory.length = BUFFER_SIZE) :
    Stepped s (.recv (.ok bytes) memory)
      ({ s with log := s.log ++ [Event.received conn.fd bytes memory] }.handle it conn.fd
        (bytes ++ memory.drop bytes.length))
  | recvBlocks (it : Nat) (memory : List UInt8) (hpc : s.pc = .recv it) :
    Stepped s (.recv (.error .EWOULDBLOCK) memory)
      { s with pc := scan s.sock (s.clients_.drop (it + 1)) (it + 1) }
  | recvFails (it errno : Nat) (memory : List UInt8) (hpc : s.pc = .recv it) :
    Stepped s (.recv (.error (.other errno)) memory) (s.exit errno)

/-- It does nothing else. -/
theorem stepped {a : Answer} (h : s.step a = some s') : Stepped s a s' := by
  cases a with
  | poll result revents =>
    simp only [TcpServer.step, TcpServer.polled] at h
    split_ifs at h with hpc hneg hzero hlen
    · cases h
      exact .pollFails result revents hpc hneg.le
    · cases h
      exact .pollFails result revents hpc hzero.le
    · cases h
      exact .polls result revents _ hpc (by omega) hlen rfl
  | accept result =>
    simp only [TcpServer.step, TcpServer.accepted] at h
    split_ifs at h with hpc
    split at h
    · split_ifs at h with hnew
      cases h
      exact .accepts _ hpc hnew
    · cases h
      exact .acceptBlocks hpc
    · cases h
      exact .acceptFails _ hpc
  | recv result memory =>
    simp only [TcpServer.step, TcpServer.received] at h
    split at h
    next it hpc =>
      split at h
      · split at h
        · cases h
        next conn hget =>
          split_ifs at h with hsize
          cases h
          exact .receives it conn _ memory hpc hget hsize.1 hsize.2
      · cases h
        exact .recvBlocks it memory hpc
      · cases h
        exact .recvFails it _ memory hpc
    · cases h

theorem Stepped.alive {a : Answer} (h : Stepped s a s') (status : Nat) :
    s.pc ≠ .exited status := by
  intro he
  cases h <;> simp_all

/-- A client's recv can return any bytes that fit, over any memory. -/
theorem step_recv {conn : Pollfd} {bytes memory : List UInt8} (hpc : s.pc = .recv it)
    (hget : s.clients_[it]? = some conn) (hlen : bytes.length ≤ BUFFER_SIZE)
    (hsize : memory.length = BUFFER_SIZE) :
    s.step (.recv (.ok bytes) memory) =
      some ({ s with log := s.log ++ [Event.received conn.fd bytes memory] }.handle it conn.fd
        (bytes ++ memory.drop bytes.length)) := by
  have hrecv : s.step (.recv (.ok bytes) memory) = s.received it memory (.ok bytes) := by
    simp only [TcpServer.step, hpc]
  rw [hrecv, TcpServer.received, hget]
  exact if_pos ⟨hlen, hsize⟩

theorem good_new : Conn.new.Good where
  handled := rfl
  ended h := by cases h
  sizes r hr := absurd hr List.not_mem_nil

/-- Where the scan of the table stops for a recv, there is a client. -/
theorem scan_recv {sock : Nat} {clients : List Pollfd} {it0 : Nat}
    (h : scan sock clients it0 = .recv it) :
    ∃ k conn, it = it0 + k ∧ clients[k]? = some conn ∧ conn.fd ≠ sock := by
  induction clients generalizing it0 with
  | nil => cases h
  | cons conn clients ih =>
    unfold scan at h
    split at h
    · obtain ⟨k, conn', rfl, hk, hne⟩ := ih h
      exact ⟨k + 1, conn', by omega, hk, hne⟩
    · split at h
      · cases h
      next hne =>
        cases h
        exact ⟨0, conn, rfl, rfl, hne⟩

theorem served_init (groups_ : Groups) (sock : Nat) : Served (.init groups_ sock) where
  listener := rfl
  distinct := by simp [TcpServer.init]
  client it conn h := by cases h
  good fd := good_new
  going _ fd _ m hm := absurd hm List.not_mem_nil

/-- What changes neither the record nor the table. -/
theorem Served.go (hs : Served s) (hlog : s'.log = s.log) (hsock : s'.sock = s.sock)
    (hfds : s'.clients_.map Pollfd.fd = s.clients_.map Pollfd.fd)
    (hclient : ∀ it conn, s'.pc = .recv it → s'.clients_[it]? = some conn → conn.fd ≠ s.sock)
    (halive : ∀ status, s.pc ≠ .exited status) : Served s' := by
  have hconn : ∀ fd, s'.conn fd = s.conn fd := fun fd => by
    rw [TcpServer.conn, TcpServer.conn, hlog]
  exact {
    listener := by rw [hfds, hsock]; exact hs.listener
    distinct := by rw [hfds]; exact hs.distinct
    client := by rw [hsock]; exact hclient
    good := fun fd => by rw [hconn]; exact hs.good fd
    going := fun _ fd hfd => by
      rw [hfds] at hfd
      rw [hconn]
      exact hs.going halive fd hfd }

/-- A new client. -/
theorem Served.accepted (hs : Served s) (hpc : s.pc = .accept)
    (hnew : fd ∉ s.clients_.map Pollfd.fd) :
    Served { s with
      clients_ := s.clients_ ++ [make_poll fd]
      log := s.log ++ [.accepted fd] } := by
  have hconn : ∀ fd', TcpServer.conn { s with
      clients_ := s.clients_ ++ [make_poll fd]
      log := s.log ++ [.accepted fd] } fd' = if fd = fd' then .new else s.conn fd' :=
    fun fd' => conn_append (s := s) [.accepted fd] rfl fd'
  have halive : ∀ status, s.pc ≠ .exited status := fun status => by
    rw [hpc]
    exact ServerPc.noConfusion
  refine ⟨?_, ?_, ?_, ?_, ?_⟩
  · show ((s.clients_ ++ [make_poll fd]).map Pollfd.fd).head? = _
    rw [List.map_append, List.head?_append, hs.listener]
    rfl
  · show ((s.clients_ ++ [make_poll fd]).map Pollfd.fd).Nodup
    rw [List.map_append, List.nodup_append]
    refine ⟨hs.distinct, by simp, fun fd' hfd' fd'' hfd'' => ?_⟩
    rintro rfl
    obtain rfl := List.mem_singleton.mp hfd''
    exact hnew hfd'
  · intro it conn h
    have h : s.pc = _ := h
    rw [hpc] at h
    cases h
  · intro fd'
    rw [hconn]
    split
    · exact good_new
    · exact hs.good fd'
  · intro _ fd' hfd'
    rw [hconn]
    split
    · exact fun m hm => absurd hm List.not_mem_nil
    next hne =>
      have hfd' : fd' ∈ (s.clients_ ++ [make_poll fd]).map Pollfd.fd := hfd'
      rw [List.map_append, List.mem_append] at hfd'
      exact hs.going halive fd' (hfd'.resolve_right fun h => hne (List.mem_singleton.mp h).symm)

/-! ### One recv -/

/-- A request on a connection that was going. -/
theorem Conn.Good.go {c : Conn} (h : c.Good) (hgoing : ∀ m ∈ c.handled, m.ends = false)
    {r : List UInt8 × List UInt8} (hr : r.2.length = BUFFER_SIZE) {ended : Bool}
    (hended : ended = true → (request r).ends = true) :
    Conn.Good ⟨c.reads ++ [r], c.handled ++ [request r], ended⟩ where
  handled := by
    show c.handled ++ [request r] = _
    rw [h.handled] at hgoing
    rw [List.map_append, takeThrough_append_of_all hgoing, ← h.handled]
    exact congrArg _ (takeThrough_singleton _).symm
  ended he := ⟨request r, List.mem_append_right _ List.mem_cons_self, hended he⟩
  sizes r' hr' := (List.mem_append.mp hr').elim (h.sizes r') fun h => by
    rw [List.mem_singleton.mp h, hr]

/-- What is handled: a request that goes on, or one that ends the connection or the server. -/
theorem handle_cases (s : TcpServer) (it fd : Nat) (buffer : List UInt8) :
    let msg := Message.deserialize buffer
    let result := (handle_msg s.groups_ fd buffer).2
    (msg.ends = false ∧ result = .returned true ∧ ∃ es, (∀ e ∈ es, ∃ reply, e = .sent fd reply) ∧
      s.handle it fd buffer = { s with log := s.log ++ .handled fd msg :: es }) ∨
    (msg.ends = true ∧ (result = .returned false ∧ s.handle it fd buffer = { s with
        clients_ := s.clients_.eraseIdx it
        pc := .poll
        log := s.log ++ [.handled fd msg, .closed fd] } ∨
      result = .exited ∧ s.handle it fd buffer = { s with
        pc := .exited 0
        log := s.log ++ [.handled fd msg, .stopped fd] })) := by
  intro msg result
  cases hc : Command.ofWord msg.command with
  | none =>
    have hmsg : handle_msg s.groups_ fd buffer = ([.handled fd msg], .returned true) := by
      simp only [handle_msg, hc, msg]
    refine Or.inl ⟨by rw [Message.ends, hc], congrArg Prod.snd hmsg, [],
      fun e he => absurd he List.not_mem_nil, ?_⟩
    rw [TcpServer.handle, hmsg]
  | some command =>
    cases command with
    | GET =>
      have hmsg : handle_msg s.groups_ fd buffer = ([.handled fd msg,
          .sent fd (get s.groups_ msg.param1.toInt32 msg.param2.toInt32)], .returned true) := by
        simp only [handle_msg, hc, msg]
      refine Or.inl ⟨by rw [Message.ends, hc], congrArg Prod.snd hmsg,
        [.sent fd (get s.groups_ msg.param1.toInt32 msg.param2.toInt32)],
        fun e he => ⟨_, List.mem_singleton.mp he⟩, ?_⟩
      rw [TcpServer.handle, hmsg]
    | STOP =>
      have hmsg : handle_msg s.groups_ fd buffer =
          ([.handled fd msg, .stopped fd], .exited) := by
        simp only [handle_msg, hc, msg]
      refine Or.inr ⟨by rw [Message.ends, hc], Or.inr ⟨congrArg Prod.snd hmsg, ?_⟩⟩
      rw [TcpServer.handle, hmsg]
    | STOP_SESSION =>
      have hmsg : handle_msg s.groups_ fd buffer = ([.handled fd msg], .returned false) := by
        simp only [handle_msg, hc, msg]
      refine Or.inr ⟨by rw [Message.ends, hc], Or.inl ⟨congrArg Prod.snd hmsg, ?_⟩⟩
      rw [TcpServer.handle, hmsg]
      dsimp only
      rw [List.append_assoc, List.singleton_append]

theorem foldl_sent {es : List Event} (hes : ∀ e ∈ es, ∃ reply, e = .sent fd reply) (fd' : Nat)
    (c : Conn) : es.foldl (Conn.next fd') c = c := by
  induction es with
  | nil => rfl
  | cons e es ih =>
    obtain ⟨reply, rfl⟩ := hes e List.mem_cons_self
    exact ih fun e he => hes e (List.mem_cons_of_mem _ he)

/-- The entry at `it` is erased, and its descriptor is gone. -/
theorem mem_eraseIdx_fds {clients : List Pollfd} (hd : (clients.map Pollfd.fd).Nodup)
    {conn : Pollfd} (hget : clients[it]? = some conn) {fd' : Nat}
    (h : fd' ∈ (clients.eraseIdx it).map Pollfd.fd) :
    fd' ∈ clients.map Pollfd.fd ∧ fd' ≠ conn.fd := by
  obtain ⟨conn', hmem, rfl⟩ := List.mem_map.mp h
  obtain ⟨i, hi, hget'⟩ := List.mem_eraseIdx_iff_getElem?.mp hmem
  refine ⟨List.mem_map_of_mem (List.mem_of_getElem? hget'), fun he => hi ?_⟩
  have hfd : (clients.map Pollfd.fd)[i]? = (clients.map Pollfd.fd)[it]? := by
    rw [List.getElem?_map, List.getElem?_map, hget', hget, Option.map_some, Option.map_some, he]
  have hlt : i < (clients.map Pollfd.fd).length := by
    rw [List.length_map]
    exact (List.getElem?_eq_some_iff.mp hget').1
  exact (List.getElem?_inj hlt hd).mp hfd

/-- The listener is not erased. -/
theorem head_eraseIdx {clients : List Pollfd} {sock : Nat} {conn : Pollfd}
    (h : (clients.map Pollfd.fd).head? = some sock) (hget : clients[it]? = some conn)
    (hne : conn.fd ≠ sock) : ((clients.eraseIdx it).map Pollfd.fd).head? = some sock := by
  cases clients with
  | nil => cases h
  | cons first rest =>
    cases it with
    | zero =>
      cases hget
      exact absurd (Option.some.inj h) hne
    | succ it => exact h

/-- The connections behind a recv, but for the events `es` at its end. -/
theorem conn_request {bytes memory : List UInt8} (es : List Event)
    (h : s'.log = s.log ++ [.received fd bytes memory] ++
      .handled fd (request (bytes, memory)) :: es) (fd' : Nat) :
    s'.conn fd' = es.foldl (Conn.next fd')
      (if fd = fd' then ⟨(s.conn fd).reads ++ [(bytes, memory)],
        (s.conn fd).handled ++ [request (bytes, memory)], (s.conn fd).ended⟩
      else s.conn fd') := by
  rw [List.append_assoc] at h
  rw [conn_append _ h, List.foldl_append, List.foldl_cons, List.foldl_cons, List.foldl_nil]
  by_cases he : fd = fd'
  · subst he
    simp [Conn.next]
  · simp [Conn.next, he]

/-- One more request on the connection `fd`; whoever stays has not asked to end. -/
theorem Served.next (hs : Served s) (hmem : fd ∈ s.clients_.map Pollfd.fd)
    (halive : ∀ status, s.pc ≠ .exited status) (r : List UInt8 × List UInt8)
    (hr : r.2.length = BUFFER_SIZE) (ended : Bool)
    (hended : ended = true → (request r).ends = true)
    (hlistener : (s'.clients_.map Pollfd.fd).head? = some s'.sock)
    (hdistinct : (s'.clients_.map Pollfd.fd).Nodup)
    (hclient : ∀ it conn, s'.pc = .recv it → s'.clients_[it]? = some conn → conn.fd ≠ s'.sock)
    (hconn : ∀ fd', s'.conn fd' =
      if fd = fd' then ⟨(s.conn fd).reads ++ [r],
        (s.conn fd).handled ++ [request r], ended⟩
      else s.conn fd')
    (hstay : (∀ status, s'.pc ≠ .exited status) → ∀ fd' ∈ s'.clients_.map Pollfd.fd,
      fd' ∈ s.clients_.map Pollfd.fd ∧ (fd' = fd → (request r).ends = false)) :
    Served s' := by
  have hgoing := hs.going halive fd hmem
  refine ⟨hlistener, hdistinct, hclient, fun fd' => ?_, fun hrun fd' hfd' => ?_⟩
  · rw [hconn]
    split
    · exact (hs.good fd).go hgoing hr hended
    · exact hs.good fd'
  · obtain ⟨hin, hnext⟩ := hstay hrun fd' hfd'
    rw [hconn]
    split
    next he =>
      intro m hm
      rcases List.mem_append.mp hm with hm | hm
      · exact hgoing m hm
      · rw [List.mem_singleton.mp hm]
        exact hnext he.symm
    next => exact hs.going halive fd' hin

/-- Bytes, or the end of the stream, on a client's connection. -/
theorem Served.received (hs : Served s) (hpc : s.pc = .recv it) {conn : Pollfd}
    (hget : s.clients_[it]? = some conn) {bytes memory : List UInt8}
    (hsize : memory.length = BUFFER_SIZE) :
    Served ({ s with log := s.log ++ [Event.received conn.fd bytes memory] }.handle it conn.fd
      (bytes ++ memory.drop bytes.length)) := by
  have hne := hs.client it conn hpc hget
  have hmem : conn.fd ∈ s.clients_.map Pollfd.fd :=
    List.mem_map_of_mem (List.mem_of_getElem? hget)
  have halive : ∀ status, s.pc ≠ .exited status := fun status => by
    rw [hpc]
    exact ServerPc.noConfusion
  have hrunning : (s.conn conn.fd).ended = false := by
    cases hended : (s.conn conn.fd).ended with
    | false => rfl
    | true =>
      obtain ⟨m, hm, hmends⟩ := (hs.good conn.fd).ended hended
      rw [hs.going halive conn.fd hmem m hm] at hmends
      cases hmends
  rcases handle_cases { s with log := s.log ++ [Event.received conn.fd bytes memory] } it conn.fd
    (bytes ++ memory.drop bytes.length) with ⟨hends, _, es, hes, hh⟩ | ⟨hends, ⟨_, hh⟩ | ⟨_, hh⟩⟩
  · -- the client is read again
    rw [hh]
    refine hs.next hmem halive (bytes, memory) hsize false Bool.noConfusion hs.listener
      hs.distinct hs.client (fun fd' => ?_) fun _ fd' hin => ⟨hin, fun _ => hends⟩
    rw [conn_request (s := s) es rfl, foldl_sent hes, hrunning]
  · -- the client is erased
    rw [hh]
    refine hs.next hmem halive (bytes, memory) hsize true (fun _ => hends)
      (head_eraseIdx hs.listener hget hne)
      (hs.distinct.sublist ((List.eraseIdx_sublist _ _).map _))
      (fun it' conn' h => ServerPc.noConfusion h) (fun fd' => ?_) fun _ fd' hin => ?_
    · rw [conn_request (s := s) [.closed conn.fd] rfl]
      by_cases he : conn.fd = fd' <;> simp [Conn.next, he]
    · obtain ⟨hin', hne'⟩ := mem_eraseIdx_fds hs.distinct hget hin
      exact ⟨hin', fun he => absurd he hne'⟩
  · -- the server is gone
    rw [hh]
    refine hs.next hmem halive (bytes, memory) hsize true (fun _ => hends) hs.listener
      hs.distinct (fun it' conn' h => ServerPc.noConfusion h) (fun fd' => ?_)
      fun hrun => absurd rfl (hrun 0)
    rw [conn_request (s := s) [.stopped conn.fd] rfl]
    by_cases he : conn.fd = fd' <;> simp [Conn.next, he]

/-! ### Any step -/

theorem Served.exit (hs : Served s) (halive : ∀ status, s.pc ≠ .exited status) (status : Nat) :
    Served (s.exit status) :=
  hs.go rfl rfl rfl (fun _ _ h => ServerPc.noConfusion h) halive

/-- poll changes no descriptor of the table. -/
theorem zipWith_fds {clients : List Pollfd} {revents : List Nat}
    (h : revents.length = clients.length) :
    (clients.zipWith (fun conn r => { conn with revents := r }) revents).map Pollfd.fd =
      clients.map Pollfd.fd := by
  induction clients generalizing revents with
  | nil => rfl
  | cons conn clients ih =>
    cases revents with
    | nil => cases h
    | cons r revents =>
      rw [List.zipWith_cons_cons, List.map_cons, List.map_cons, ih (Nat.succ.inj h)]

/-- Every answer of the operating system keeps the invariant. -/
theorem step_served {a : Answer} (hs : Served s) (h : s.step a = some s') : Served s' := by
  have halive := (stepped h).alive
  cases stepped h with
  | pollFails => exact hs.exit halive 1
  | polls result revents clients hpc hresult hlen hclients =>
    have hfds : clients.map Pollfd.fd = s.clients_.map Pollfd.fd := by
      rw [hclients, zipWith_fds hlen]
    refine hs.go rfl rfl hfds (fun it conn h hget => ?_) halive
    obtain ⟨k, conn', rfl, hk, hne⟩ := scan_recv h
    rw [Nat.zero_add] at hget
    rw [hk] at hget
    cases hget
    exact hne
  | accepts fd hpc hnew => exact hs.accepted hpc hnew
  | acceptBlocks => exact hs.go rfl rfl rfl (fun it conn h => ServerPc.noConfusion h) halive
  | acceptFails errno => exact hs.exit halive errno
  | receives it conn bytes memory hpc hget _ hsize => exact hs.received hpc hget hsize
  | recvBlocks it memory hpc =>
    refine hs.go rfl rfl rfl (fun it' conn h hget => ?_) halive
    obtain ⟨k, conn', rfl, hk, hne⟩ := scan_recv h
    rw [List.getElem?_drop, hget] at hk
    cases hk
    exact hne
  | recvFails it errno => exact hs.exit halive errno

/-- Every run of the server keeps it. -/
theorem run_served {as : List Answer} (hs : Served s)
    (h : Run TcpServer.step (fun _ _ => True) s as s') : Served s' :=
  h.invariant hs fun _ _ _ hs _ hf => step_served hs hf

end Steps

end Ece358.GroupServer
