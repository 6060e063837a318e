/-
  File:      Ece358/GroupServer/Requests.lean
  Subject:   The requests of a TCP client, and what the server takes for them.

  `run` hands each chunk that a recv delivers to `handle_msg`, which reads one request off the start
  of the buffer, however much of it the chunk has filled.

  * `Delivered` -- a connection has been read to the end of its chunks, or to its own end;
  * `Conn.Good.handled_eq` -- such a connection has handled one request for each chunk;
  * `exists_delivered` -- any chunks can be delivered, over any memory;
  * `handled_iff` -- the requests that are handled are those of the client, if and only if the
    chunks are framed; `framed_iff_exact` -- without an end, one chunk is one request then;
  * `second_lost` -- two requests in one chunk.
-/
import Ece358.GroupServer.TcpServer

namespace Ece358.GroupServer

open Lib

/-- The chunks have been delivered in order, and all of them unless the server has ended the
    connection. -/
structure Delivered (s : TcpServer) (fd : Nat) (chunks : List (List UInt8)) : Prop where
  inOrder : (s.conn fd).reads.map Prod.fst <+: chunks
  all : (s.conn fd).reads.map Prod.fst = chunks ∨ (s.conn fd).ended = true

section Requests

variable {s : TcpServer} {fd it : Nat} {ms : List Message} {chunks : List (List UInt8)}
  {reads : List (List UInt8 × List UInt8)}

/-- What would come behind the end of a connection does not count. -/
theorem Conn.Good.handled_eq {c : Conn} (h : c.Good) (hpre : c.reads <+: reads)
    (hall : c.reads = reads ∨ c.ended = true) :
    c.handled = takeThrough Message.ends (reads.map request) := by
  rcases hall with hall | hended
  · rw [← hall, h.handled]
  · obtain ⟨rest, rfl⟩ := hpre
    have hstop := h.ended hended
    rw [h.handled] at hstop
    rw [List.map_append, takeThrough_append hstop, h.handled]

/-- A blocked recv of the client `fd` can be given any chunks, over any memory. -/
theorem exists_run (conn : Pollfd) (hpc : s.pc = .recv it) (hget : s.clients_[it]? = some conn)
    (hreads : ∀ r ∈ reads, r.1.length ≤ BUFFER_SIZE ∧ r.2.length = BUFFER_SIZE) :
    ∃ as s' more, Run TcpServer.step (fun _ _ => True) s as s' ∧
      (s'.conn conn.fd).reads = (s.conn conn.fd).reads ++ more ∧ more <+: reads ∧
      (more = reads ∨ (s'.conn conn.fd).ended = true) := by
  induction reads generalizing s with
  | nil =>
    exact ⟨[], s, [], .nil s, (List.append_nil _).symm, List.prefix_rfl, Or.inl rfl⟩
  | cons r reads ih =>
    obtain ⟨bytes, memory⟩ := r
    have hsize := hreads (bytes, memory) List.mem_cons_self
    let s1 : TcpServer := { s with log := s.log ++ [Event.received conn.fd bytes memory] }
    have hstep : s.step (.recv (.ok bytes) memory) =
        some (s1.handle it conn.fd (bytes ++ memory.drop bytes.length)) :=
      step_recv hpc hget hsize.1 hsize.2
    rcases handle_cases s1 it conn.fd (bytes ++ memory.drop bytes.length) with
      ⟨_, _, es, hes, hh⟩ | ⟨_, ⟨_, hh⟩ | ⟨_, hh⟩⟩
    · rw [hh] at hstep
      let s2 : TcpServer :=
        { s1 with log := s1.log ++ .handled conn.fd (request (bytes, memory)) :: es }
      obtain ⟨as, s', more, hrun, hmore, hpre, hall⟩ := ih (s := s2) hpc hget
        fun r hr => hreads r (List.mem_cons_of_mem _ hr)
      refine ⟨_ :: as, s', (bytes, memory) :: more, .cons trivial hstep hrun, ?_,
        (List.prefix_cons_inj _).mpr hpre, hall.imp_left fun h => by rw [h]⟩
      rw [hmore, conn_request (s := s) es rfl, foldl_sent hes, if_pos rfl, List.append_assoc]
      rfl
    · rw [hh] at hstep
      refine ⟨_, _, [(bytes, memory)], .cons trivial hstep (.nil _), ?_,
        ⟨reads, rfl⟩, Or.inr ?_⟩
      · rw [conn_request (s := s) [.closed conn.fd] rfl]
        simp [Conn.next]
      · rw [conn_request (s := s) [.closed conn.fd] rfl]
        simp [Conn.next]
    · rw [hh] at hstep
      refine ⟨_, _, [(bytes, memory)], .cons trivial hstep (.nil _), ?_,
        ⟨reads, rfl⟩, Or.inr ?_⟩
      · rw [conn_request (s := s) [.stopped conn.fd] rfl]
        simp [Conn.next]
      · rw [conn_request (s := s) [.stopped conn.fd] rfl]
        simp [Conn.next]

/-- A server that waits for the first bytes of a client. -/
def oneClient : TcpServer where
  groups_ := fun _ => none
  clients_ := [⟨3, 0⟩, ⟨4, 1⟩]
  sock := 3
  pc := .recv 1
  log := [.accepted 4]

theorem run_oneClient : Run TcpServer.step (fun _ _ => True) (.init (fun _ => none) 3)
    [.poll 1 [1], .accept (.ok 4), .accept (.error .EWOULDBLOCK), .poll 1 [0, 1]] oneClient :=
  .cons trivial rfl (.cons trivial rfl (.cons trivial rfl (.cons trivial rfl (.nil _))))

/-- Its client sends one request. -/
theorem step_oneClient (m : Message) {memory : List UInt8} (hsize : memory.length = BUFFER_SIZE) :
    oneClient.step (.recv (.ok m.serialize) memory) =
      some ({ oneClient with log := [.accepted 4, .received 4 m.serialize memory] }.handle 1 4
        (m.serialize ++ memory.drop m.serialize.length)) := by
  have hget : oneClient.clients_[1]? = some ⟨4, 1⟩ := rfl
  have hlen : m.serialize.length ≤ BUFFER_SIZE := by
    rw [m.length_serialize]
    decide
  exact step_recv rfl hget hlen hsize

/-- Any chunks can be delivered, over any memory. -/
theorem exists_delivered (reads : List (List UInt8 × List UInt8))
    (hreads : ∀ r ∈ reads, r.1.length ≤ BUFFER_SIZE ∧ r.2.length = BUFFER_SIZE) :
    ∃ as s, Run TcpServer.step (fun _ _ => True) (.init (fun _ => none) 3) as s ∧
      Delivered s 4 (reads.map Prod.fst) ∧
      (s.conn 4).handled = takeThrough Message.ends (reads.map request) := by
  obtain ⟨as, s, more, hrun, hmore, hpre, hall⟩ :=
    exists_run (s := oneClient) ⟨4, 1⟩ rfl rfl hreads
  have hmore : (s.conn 4).reads = more := hmore
  subst hmore
  have hrun' := run_oneClient.append hrun
  have hgood := (run_served (served_init _ 3) hrun').good 4
  exact ⟨_, s, hrun', ⟨hpre.map Prod.fst, hall.imp_left fun h => by rw [h]⟩,
    hgood.handled_eq hpre hall⟩

/-- On every connection, in every run and whatever the memory holds: the requests that are handled
    are those that the client has written, up to the first that ends the session or the server, if
    and only if each chunk up to that one starts with the next request. -/
theorem handled_iff (hlen : ∀ c ∈ chunks, c.length ≤ BUFFER_SIZE) :
    (∀ groups_ sock fd as s,
      Run TcpServer.step (fun _ _ => True) (.init groups_ sock) as s → Delivered s fd chunks →
      (s.conn fd).handled = takeThrough Message.ends ms) ↔
    Framed Message.codec Message.ends ms chunks := by
  have hN : Message.codec.size ≤ BUFFER_SIZE := by decide
  rw [← framed_iff Message.codec hN]
  constructor
  · intro h reads hreads hmem
    obtain ⟨as, s, hrun, hdel, hhandled⟩ := exists_delivered reads fun r hr =>
      ⟨hlen r.1 (hreads ▸ List.mem_map_of_mem hr), hmem r hr⟩
    rw [← hhandled]
    exact h _ 3 4 as s hrun (hreads ▸ hdel)
  · intro h groups_ sock fd as s hrun hdel
    have hgood := (run_served (served_init groups_ sock) hrun).good fd
    obtain ⟨rest, hrest⟩ := hdel.inOrder
    -- the chunks that were not read any more, over some memory
    let reads := (s.conn fd).reads ++ rest.map fun c => (c, List.replicate BUFFER_SIZE 0)
    have hfst : reads.map Prod.fst = chunks := by
      rw [← hrest, List.map_append, List.map_map]
      exact congrArg _ (List.map_id rest)
    have hmem : ∀ r ∈ reads, r.2.length = BUFFER_SIZE := by
      intro r hr
      rcases List.mem_append.mp hr with hr | hr
      · exact hgood.sizes r hr
      · obtain ⟨c, _, rfl⟩ := List.mem_map.mp hr
        exact List.length_replicate
    rw [← h reads hfst hmem]
    refine hgood.handled_eq ⟨_, rfl⟩ (hdel.all.imp_left fun hall => ?_)
    have hnil : rest = [] := by
      rw [hall] at hrest
      exact List.append_cancel_left (hrest.trans (List.append_nil _).symm)
    show _ = (s.conn fd).reads ++ _
    rw [hnil, List.map_nil, List.append_nil]

/-- Where the client ends nothing, such chunks are its requests, one by one. -/
theorem framed_iff_exact (hms : ∀ m ∈ ms, m.ends = false)
    (hstream : chunks.flatten = ms.flatMap Message.serialize) :
    Framed Message.codec Message.ends ms chunks ↔ chunks = ms.map Message.serialize := by
  refine ⟨fun h => h.exact _ hms hstream, ?_⟩
  rintro rfl
  clear hstream
  induction ms with
  | nil => exact .nil
  | cons m ms ih =>
    exact .go (hms m List.mem_cons_self) List.prefix_rfl
      (ih fun m hm => hms m (List.mem_cons_of_mem _ hm))

end Requests

/-- A GET and the end of the session, each in a chunk of its own. -/
theorem handled_get_stop : ∃ as s,
    Run TcpServer.step (fun _ _ => True) (.init (fun _ => none) 3) as s ∧
    Delivered s 4 [Message.serialize ⟨0, 7, 8⟩, Message.serialize ⟨2, 0, 0⟩] ∧
    (s.conn 4).handled = [⟨0, 7, 8⟩, ⟨2, 0, 0⟩] := by
  have hlen : ∀ c ∈ [Message.serialize ⟨0, 7, 8⟩, Message.serialize ⟨2, 0, 0⟩],
      c.length ≤ BUFFER_SIZE := by decide
  have hframed : Framed Message.codec Message.ends [⟨0, 7, 8⟩, ⟨2, 0, 0⟩]
      [Message.serialize ⟨0, 7, 8⟩, Message.serialize ⟨2, 0, 0⟩] :=
    .go rfl List.prefix_rfl (.stop rfl List.prefix_rfl [] [])
  obtain ⟨as, s, hrun, hdel, _⟩ := exists_delivered
    [(Message.serialize ⟨0, 7, 8⟩, List.replicate BUFFER_SIZE 0),
      (Message.serialize ⟨2, 0, 0⟩, List.replicate BUFFER_SIZE 0)] (by decide +kernel)
  exact ⟨as, s, hrun, hdel, (handled_iff hlen).mpr hframed _ 3 4 as s hrun hdel⟩

/-- Two GETs that arrive in one chunk: the second one is never handled. -/
theorem second_lost : ∃ as s,
    Run TcpServer.step (fun _ _ => True) (.init (fun _ => none) 3) as s ∧
    Delivered s 4 [Message.serialize ⟨0, 7, 8⟩ ++ Message.serialize ⟨0, 7, 9⟩] ∧
    (s.conn 4).handled ≠ takeThrough Message.ends [⟨0, 7, 8⟩, ⟨0, 7, 9⟩] := by
  obtain ⟨as, s, hrun, hdel, hhandled⟩ := exists_delivered
    [(Message.serialize ⟨0, 7, 8⟩ ++ Message.serialize ⟨0, 7, 9⟩, List.replicate BUFFER_SIZE 0)]
    (by decide +kernel)
  refine ⟨as, s, hrun, hdel, ?_⟩
  rw [hhandled, List.map_singleton, takeThrough_singleton]
  exact fun h => absurd (congrArg List.length h) (by decide)

end Ece358.GroupServer
