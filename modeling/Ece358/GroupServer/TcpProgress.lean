/-
  File:      Ece358/GroupServer/TcpProgress.lean
  Subject:   Which calls of the TCP clients can still return.

  The server waits in poll for all of its clients, and in the recv of one for nothing: where nothing
  is there it goes on to the next entry of its table, and back to poll.

  * `Linked`, `linked_step` -- every connection that was accepted has an entry of its own;
  * `scan_marked`, `step_marked` -- a poll that finds one descriptor ready;
  * `reach_poll`, `reach_accepted`, `reach_served`, `reach_returned` -- from wherever the server
    waits back to poll, on to the accept and to the recv of a given client, and to the return of its
    call;
  * `Severed`, `Severed.step` -- the calls that will return nothing;
  * `reply_reached_iff` -- from which states a call can still return its reply.
-/
import Ece358.GroupServer.TcpNet
import Mathlib.Data.Fintype.EquivFin

namespace Ece358.GroupServer

open Lib

/-! ## 1. Connections and descriptors -/

/-- The connections that were accepted and the entries of the table, but for the listener, are the
    same, one for one. -/
structure Linked {α : Type} (n : TcpNet α) : Prop where
  served : Served n.server
  entry : ∀ a fd, (n.peer a).link = .accepted fd →
    fd ∈ n.server.clients_.map Pollfd.fd ∧ fd ≠ n.server.sock
  owner : ∀ fd ∈ n.server.clients_.map Pollfd.fd, fd ≠ n.server.sock →
    ∃ a, (n.peer a).link = .accepted fd
  apart : ∀ a b fd, (n.peer a).link = .accepted fd → (n.peer b).link = .accepted fd → a = b

/-- A recv is of an entry of the table. -/
def Inside (s : TcpServer) : Prop := ∀ it, s.pc = .recv it → it < s.clients_.length

section Links

variable {α : Type} [DecidableEq α] {n n' : TcpNet α} {act : TcpAct α} {groups_ : Groups}
  {sock : Nat} {program : α → List Message}

omit [DecidableEq α] in
theorem linked_init (groups_ : Groups) (sock : Nat) (program : α → List Message) :
    Linked (.init groups_ sock program) where
  served := served_init groups_ sock
  entry _ _ h := by cases h
  owner fd hfd hne := by
    obtain rfl := List.mem_singleton.mp hfd
    exact absurd rfl hne
  apart _ _ _ h := by cases h

omit [DecidableEq α] in
/-- Nothing was accepted, and nothing was closed. -/
theorem Linked.same (h : Linked n) (hserved : Served n'.server)
    (hsock : n'.server.sock = n.server.sock)
    (hfds : n'.server.clients_.map Pollfd.fd = n.server.clients_.map Pollfd.fd)
    (hlinks : ∀ a fd, (n'.peer a).link = .accepted fd ↔ (n.peer a).link = .accepted fd) :
    Linked n' where
  served := hserved
  entry a fd ha := by
    rw [hfds, hsock]
    exact h.entry a fd ((hlinks a fd).mp ha)
  owner fd hfd hne := by
    rw [hfds] at hfd
    rw [hsock] at hne
    obtain ⟨a, ha⟩ := h.owner fd hfd hne
    exact ⟨a, (hlinks a fd).mpr ha⟩
  apart a b fd ha hb := h.apart a b fd ((hlinks a fd).mp ha) ((hlinks b fd).mp hb)

theorem put_link (n : TcpNet α) (a b : α) (k : TcpPeer) :
    ((n.put a k).peer b).link = if b = a then k.link else (n.peer b).link := by
  split
  next he => rw [he, put_self]
  next hne => rw [put_other n k hne]

/-- What a client does to its side of a connection. -/
theorem Linked.put (h : Linked n) (a : α) {k : TcpPeer}
    (hk : ∀ fd, k.link = .accepted fd ↔ (n.peer a).link = .accepted fd) : Linked (n.put a k) := by
  refine h.same h.served rfl rfl fun b fd => ?_
  rw [put_link]
  split
  next he => exact he ▸ hk fd
  · exact Iff.rfl

omit [DecidableEq α] in
/-- What the server does without accepting or closing. -/
theorem Linked.answer (h : Linked n) {ans : Answer} {server : TcpServer}
    (hstep : n.server.step ans = some server) (haccept : ∀ fd, ans ≠ .accept (.ok fd))
    (hrecv : ∀ bytes memory, ans ≠ .recv (.ok bytes) memory) :
    Linked { n with server := server } := by
  obtain ⟨hsock, htable⟩ := step_table hstep
  cases htable with
  | kept _ _ _ hfds => exact h.same (step_served h.served hstep) hsock hfds fun _ _ => Iff.rfl
  | accepted fd ha => exact absurd ha (haccept fd)
  | refused _ _ _ _ _ _ href => exact absurd href (not_refuses_of_ne hrecv)

omit [DecidableEq α] in
/-- A descriptor that the kernel hands out is nobody's. -/
theorem Linked.fresh (h : Linked n) {fd : Nat} (hnew : fd ∉ n.server.clients_.map Pollfd.fd) :
    fd ≠ n.server.sock ∧ ∀ a, (n.peer a).link ≠ .accepted fd := by
  refine ⟨?_, fun a ha => hnew (h.entry a fd ha).1⟩
  rintro rfl
  exact hnew (List.mem_of_mem_head? h.served.listener)

theorem Linked.accept (h : Linked n) {a : α} {fd : Nat} {server : TcpServer}
    (hpending : (n.peer a).link = .pending)
    (hserver : n.server.step (.accept (.ok fd)) = some server) :
    Linked { n.put a { n.peer a with link := .accepted fd } with server := server } := by
  have hserved := step_served h.served hserver
  cases stepped hserver with
  | accepts _ _ hnew =>
    obtain ⟨hne, hnobody⟩ := h.fresh hnew
    have hlink : ∀ b fd', ((n.put a { n.peer a with link := .accepted fd }).peer b).link =
        .accepted fd' → (b = a ∧ fd' = fd) ∨ (b ≠ a ∧ (n.peer b).link = .accepted fd') := by
      intro b fd' hb
      rw [put_link] at hb
      split at hb
      next he => exact Or.inl ⟨he, (Link.accepted.inj hb).symm⟩
      next hne => exact Or.inr ⟨hne, hb⟩
    refine ⟨hserved, fun b fd' hb => ?_, fun fd' hfd' hsock => ?_, fun b c fd' hb hc => ?_⟩
    · show fd' ∈ (n.server.clients_ ++ [make_poll fd]).map Pollfd.fd ∧ fd' ≠ n.server.sock
      rw [List.map_append, List.mem_append]
      rcases hlink b fd' hb with ⟨_, rfl⟩ | ⟨_, hb⟩
      · exact ⟨Or.inr List.mem_cons_self, hne⟩
      · obtain ⟨hmem, hsock⟩ := h.entry b fd' hb
        exact ⟨Or.inl hmem, hsock⟩
    · have hfd' : fd' ∈ (n.server.clients_ ++ [make_poll fd]).map Pollfd.fd := hfd'
      rw [List.map_append, List.mem_append] at hfd'
      rcases hfd' with hmem | hmem
      · obtain ⟨b, hb⟩ := h.owner fd' hmem hsock
        refine ⟨b, (put_link n a b _).trans ?_⟩
        rw [if_neg fun he => ?_]
        · exact hb
        · rw [he, hpending] at hb
          cases hb
      · obtain rfl := List.mem_singleton.mp hmem
        exact ⟨a, (put_link n a a _).trans (if_pos rfl)⟩
    · rcases hlink b fd' hb with ⟨rfl, rfl⟩ | ⟨_, hold⟩ <;>
        rcases hlink c _ hc with ⟨rfl, hfd⟩ | ⟨_, hold'⟩
      · rfl
      · exact absurd hold' (hnobody c)
      · exact (hnobody b (hfd ▸ hold)).elim
      · exact h.apart b c fd' hold hold'

omit [DecidableEq α] in
/-- The descriptors that are left where one entry is erased. -/
theorem mem_erased {clients : List Pollfd} {it : Nat} {conn : Pollfd}
    (hd : (clients.map Pollfd.fd).Nodup) (hget : clients[it]? = some conn) (fd : Nat) :
    fd ∈ (clients.eraseIdx it).map Pollfd.fd ↔ fd ∈ clients.map Pollfd.fd ∧ fd ≠ conn.fd := by
  refine ⟨mem_eraseIdx_fds hd hget, fun ⟨hmem, hne⟩ => ?_⟩
  obtain ⟨conn', hconn, rfl⟩ := List.mem_map.mp hmem
  obtain ⟨i, hi⟩ := List.mem_iff_getElem?.mp hconn
  refine List.mem_map_of_mem (List.mem_eraseIdx_iff_getElem?.mpr ⟨i, ?_, hi⟩)
  rintro rfl
  cases hget.symm.trans hi
  exact hne rfl

/-- Where the connection of a client is closed, its entry is erased. -/
theorem Linked.close (h : Linked n) {a : α} {it : Nat} {conn : Pollfd}
    (hget : n.server.clients_[it]? = some conn) (hlink : (n.peer a).link = .accepted conn.fd)
    (hserved : Served n'.server) (hsock : n'.server.sock = n.server.sock)
    (hclients : n'.server.clients_ = n.server.clients_.eraseIdx it)
    (hlinks : ∀ b, (n'.peer b).link = if b = a then .closed else (n.peer b).link) :
    Linked n' := by
  have hmem := mem_erased h.served.distinct hget
  have hold : ∀ b fd, (n'.peer b).link = .accepted fd →
      b ≠ a ∧ (n.peer b).link = .accepted fd := by
    intro b fd hb
    rw [hlinks] at hb
    split at hb
    · cases hb
    next hne => exact ⟨hne, hb⟩
  refine ⟨hserved, fun b fd hb => ?_, fun fd hfd hne => ?_, fun b c fd hb hc => ?_⟩
  · obtain ⟨hne, hb⟩ := hold b fd hb
    obtain ⟨hin, hns⟩ := h.entry b fd hb
    rw [hclients, hsock]
    refine ⟨(hmem fd).mpr ⟨hin, fun hfd => hne ?_⟩, hns⟩
    exact h.apart b a fd hb (hfd ▸ hlink)
  · rw [hclients] at hfd
    rw [hsock] at hne
    obtain ⟨hin, hother⟩ := (hmem fd).mp hfd
    obtain ⟨b, hb⟩ := h.owner fd hin hne
    refine ⟨b, ?_⟩
    rw [hlinks, if_neg fun he => ?_]
    · exact hb
    · rw [he, hlink] at hb
      exact hother (Link.accepted.inj hb).symm
  · exact h.apart b c fd (hold b fd hb).2 (hold c fd hc).2

theorem Linked.receive (h : Linked n) {a : α} {it : Nat} {conn : Pollfd} {k : TcpPeer}
    {bytes memory : List UInt8} {server : TcpServer} (hpc : n.server.pc = .recv it)
    (hget : n.server.clients_[it]? = some conn) (hlink : (n.peer a).link = .accepted conn.fd)
    (hserver : n.server.step (.recv (.ok bytes) memory) = some server)
    (hk : k.link = if .closed conn.fd ∈ n.server.eventsSince server then .closed
      else (n.peer a).link) : Linked { n.put a k with server := server } := by
  obtain ⟨hsock, htable⟩ := step_table hserver
  have hserved := step_served h.served hserver
  cases htable with
  | kept es hes hlog hfds =>
    have hnone : Event.closed conn.fd ∉ n.server.eventsSince server := by
      rw [TcpServer.eventsSince, hlog, List.drop_left]
      exact fun hmem => (hes _ hmem conn.fd).2 rfl
    refine h.same hserved hsock hfds fun b fd => ?_
    rw [put_link, hk, if_neg hnone]
    split
    next he => rw [he]
    · exact Iff.rfl
  | accepted fd' ha => cases ha
  | refused it' conn' es hes hpc' hget' href hlog hclients =>
    obtain rfl : it = it' := ServerPc.recv.inj (hpc.symm.trans hpc')
    obtain rfl : conn = conn' := Option.some.inj (hget.symm.trans hget')
    have hmem : Event.closed conn.fd ∈ n.server.eventsSince server := by
      rw [TcpServer.eventsSince, hlog, List.append_assoc, List.drop_left]
      exact List.mem_append_right _ List.mem_cons_self
    refine h.close hget hlink hserved hsock hclients fun b => ?_
    rw [put_link, hk, if_pos hmem]

/-- Every step keeps it. -/
theorem linked_step (h : Linked n) (hstep : n.step act = some n') : Linked n' := by
  cases tcpMoved hstep with
  | connects a hlink =>
    refine h.put a fun fd => ?_
    rw [hlink]
    exact ⟨Link.noConfusion, Link.noConfusion⟩
  | sends a => exact h.put a fun _ => Iff.rfl
  | replies a => exact h.put a fun _ => Iff.rfl
  | exits a => exact h.put a fun _ => Iff.rfl
  | answers act ans server hserver haccept hrecv => exact h.answer hserver haccept hrecv
  | accepts a fd server hlink hserver => exact h.accept hlink hserver
  | receives a count memory it conn server hpc hget hlink hnone hserver =>
    exact h.receive hpc hget hlink hserver rfl
  | killed status hrunning =>
    exact h.same (h.served.exit (running_iff.mp hrunning) status) rfl rfl fun _ _ => Iff.rfl

theorem Linked.run (h : Linked n) (hrun : Reach TcpNet.step whole n n') : Linked n' :=
  hrun.invariant h fun _ _ _ hI _ hstep => linked_step hI hstep

end Links

/-! ## 2. The server goes on -/

section Server

variable {s s' : TcpServer} {ans : Answer} {sock fd : Nat} {clients : List Pollfd} {conn : Pollfd}

/-- The scan comes to a recv only inside the table. -/
theorem scan_inside {it it0 : Nat} (h : scan sock clients it0 = .recv it) :
    it0 ≤ it ∧ it < it0 + clients.length := by
  obtain ⟨k, conn, rfl, hk, _⟩ := scan_recv h
  have hlt := (List.getElem?_eq_some_iff.mp hk).1
  omega

theorem step_inside (h : Inside s) (hs : s.step ans = some s') : Inside s' := by
  cases stepped hs with
  | pollFails => exact fun _ hpc => ServerPc.noConfusion hpc
  | polls result revents clients hpc hresult hlen hclients =>
    intro it hit
    have hlt := (scan_inside hit).2
    rw [Nat.zero_add] at hlt
    exact hlt
  | accepts fd hpc hnew =>
    intro it hit
    cases hpc.symm.trans hit
  | acceptBlocks => exact fun _ hpc => ServerPc.noConfusion hpc
  | acceptFails => exact fun _ hpc => ServerPc.noConfusion hpc
  | receives it conn bytes memory hpc hget =>
    intro it' hit'
    rcases handle_cases { s with log := s.log ++ [Event.received conn.fd bytes memory] } it conn.fd
      (bytes ++ memory.drop bytes.length) with ⟨_, _, es, _, hh⟩ | ⟨_, ⟨_, hh⟩ | ⟨_, hh⟩⟩
    · rw [hh] at hit' ⊢
      exact h it' hit'
    · rw [hh] at hit'
      cases hit'
    · rw [hh] at hit'
      cases hit'
  | recvBlocks it memory hpc =>
    intro it' hit'
    have hlt := scan_inside hit'
    rw [List.length_drop] at hlt
    have := h it hpc
    show it' < s.clients_.length
    omega
  | recvFails => exact fun _ hpc => ServerPc.noConfusion hpc

theorem scan_ne_exited {it0 status : Nat} : scan sock clients it0 ≠ .exited status := by
  induction clients generalizing it0 with
  | nil => exact ServerPc.noConfusion
  | cons conn clients ih =>
    unfold scan
    split_ifs
    · exact ih
    · exact ServerPc.noConfusion
    · exact ServerPc.noConfusion

/-- What poll says of an entry where there is something on the descriptor `fd` only. -/
def only (fd : Nat) (conn : Pollfd) : Nat := if conn.fd = fd then 1 else 0

/-- The table behind that poll. -/
def marked (fd : Nat) (clients : List Pollfd) : List Pollfd :=
  clients.map fun conn => { conn with revents := only fd conn }

theorem marked_fds (fd : Nat) (clients : List Pollfd) :
    (marked fd clients).map Pollfd.fd = clients.map Pollfd.fd := by
  rw [marked, List.map_map]
  rfl

/-- The scan of it comes to that descriptor. -/
theorem scan_marked (sock : Nat) (hmem : fd ∈ clients.map Pollfd.fd) (it0 : Nat) :
    (fd = sock ∧ scan sock (marked fd clients) it0 = .accept) ∨
    (fd ≠ sock ∧ ∃ k conn, scan sock (marked fd clients) it0 = .recv (it0 + k) ∧
      (marked fd clients)[k]? = some conn ∧ conn.fd = fd) := by
  induction clients generalizing it0 with
  | nil => cases hmem
  | cons conn clients ih =>
    rw [marked, List.map_cons, scan, only]
    by_cases hfd : conn.fd = fd
    · rw [if_pos hfd, if_neg Nat.one_ne_zero]
      by_cases hsock : fd = sock
      · exact Or.inl ⟨hsock, if_pos (hfd.trans hsock)⟩
      · exact Or.inr ⟨hsock, 0, _, if_neg fun h => hsock (hfd.symm.trans h), rfl, hfd⟩
    · rw [if_neg hfd, if_pos rfl]
      rw [List.map_cons] at hmem
      rcases ih ((List.mem_cons.mp hmem).resolve_left fun h => hfd h.symm) (it0 + 1) with
        ⟨hsock, hscan⟩ | ⟨hsock, k, conn', hscan, hk, hfd'⟩
      · exact Or.inl ⟨hsock, hscan⟩
      · refine Or.inr ⟨hsock, k + 1, conn', ?_, hk, hfd'⟩
        exact hscan.trans (congrArg _ (by omega))

/-- A poll of a server that waits in it. -/
theorem step_marked (hpc : s.pc = .poll) (fd : Nat) :
    s.step (.poll 1 (s.clients_.map (only fd))) = some { s with
      clients_ := marked fd s.clients_
      pc := scan s.sock (marked fd s.clients_) 0 } := by
  have hmarked : s.clients_.zipWith (fun conn r => { conn with revents := r })
      (s.clients_.map (only fd)) = marked fd s.clients_ := by
    rw [List.zipWith_map_right, List.zipWith_self, marked]
  simp only [TcpServer.step, if_pos hpc, TcpServer.polled, List.length_map, hmarked]
  rfl

end Server

section Progress

variable {α : Type} [DecidableEq α] {n n' : TcpNet α} {act : TcpAct α} {groups_ : Groups}
  {sock fd it : Nat} {program : α → List Message} {a : α} {conn : Pollfd} {msg : Message}

/-- What a step of the network does to the server. -/
theorem step_server (hstep : n.step act = some n') : n'.server = n.server ∨
    (∃ ans, n.server.step ans = some n'.server) ∨
    ∃ status, n'.server = n.server.exit status := by
  cases tcpMoved hstep with
  | answers act ans server hserver => exact Or.inr (Or.inl ⟨ans, hserver⟩)
  | accepts a fd server hlink hserver => exact Or.inr (Or.inl ⟨_, hserver⟩)
  | receives a count memory it conn server hpc hget hlink hnone hserver =>
    exact Or.inr (Or.inl ⟨_, hserver⟩)
  | killed status => exact Or.inr (Or.inr ⟨status, rfl⟩)
  | _ => exact Or.inl rfl

theorem inside (h : Reach TcpNet.step whole (.init groups_ sock program) n) : Inside n.server := by
  refine h.invariant (I := fun n => Inside n.server) (fun _ hpc => ServerPc.noConfusion hpc)
    fun m act m' hm _ hstep => ?_
  rcases step_server hstep with hserver | ⟨ans, hserver⟩ | ⟨status, hserver⟩
  · rw [hserver]
    exact hm
  · exact step_inside hm hserver
  · rw [hserver]
    exact fun _ hpc => ServerPc.noConfusion hpc

/-- The table of names stays. -/
theorem run_groups (h : Reach TcpNet.step whole n n') : n'.server.groups_ = n.server.groups_ := by
  refine h.invariant (I := fun m => m.server.groups_ = n.server.groups_) rfl
    fun m act m' hm _ hstep => ?_
  rcases step_server hstep with hserver | ⟨ans, hserver⟩ | ⟨status, hserver⟩
  · rw [hserver]
    exact hm
  · exact (step_groups hserver).trans hm
  · rw [hserver]
    exact hm

/-! ## 3. To the return of a call -/

/-- The network, with the server in a call. -/
def TcpNet.waits (n : TcpNet α) (pc : ServerPc) : TcpNet α :=
  { n with server := { n.server with pc := pc } }

theorem accept_poll (n : TcpNet α) : Reach TcpNet.step whole (n.waits .accept) (n.waits .poll) :=
  reach_step (a := .acceptError .EWOULDBLOCK) trivial rfl

/-- Where nothing is there, the server goes on through its table, and back to poll. -/
theorem recv_poll (howner : ∀ fd ∈ n.server.clients_.map Pollfd.fd, fd ≠ n.server.sock →
      ∃ a, (n.peer a).link = .accepted fd ∧ (n.peer a).ended = false)
    (hget : n.server.clients_[it]? = some conn) (hne : conn.fd ≠ n.server.sock) :
    Reach TcpNet.step whole (n.waits (.recv it)) (n.waits .poll) := by
  -- on what is left of the table
  induction hleft : n.server.clients_.length - it using Nat.strong_induction_on
    generalizing it conn with
  | h left ih =>
    obtain ⟨a, hlink, hgoing⟩ :=
      howner conn.fd (List.mem_map_of_mem (List.mem_of_getElem? hget)) hne
    have hpass : (n.waits (.recv it)).step (.recvError a .EWOULDBLOCK) = some (n.waits
        (scan n.server.sock (n.server.clients_.drop (it + 1)) (it + 1))) := by
      simp only [TcpNet.step, TcpNet.recvError, TcpNet.waits, hget, hlink, hgoing]
      rfl
    refine reach_head (a := .recvError a .EWOULDBLOCK) trivial hpass ?_
    cases hscan : scan n.server.sock (n.server.clients_.drop (it + 1)) (it + 1) with
    | poll => exact .refl
    | accept => exact accept_poll n
    | exited status => exact absurd hscan scan_ne_exited
    | recv it' =>
      obtain ⟨k, conn', rfl, hk, hne'⟩ := scan_recv hscan
      rw [List.getElem?_drop] at hk
      have hlt := (List.getElem?_eq_some_iff.mp hk).1
      exact ih _ (by omega) hk hne' rfl

theorem reach_poll (h : Linked n) (hinside : Inside n.server) (hrunning : n.server.running = true)
    (hgoing : ∀ b fd, (n.peer b).link = .accepted fd → (n.peer b).ended = false) :
    Reach TcpNet.step whole n (n.waits .poll) := by
  have hself : n.waits n.server.pc = n := rfl
  cases hpc : n.server.pc with
  | poll =>
    rw [← hpc, hself]
  | accept =>
    rw [hpc] at hself
    exact hself ▸ accept_poll n
  | exited status => exact absurd hpc (running_iff.mp hrunning status)
  | recv it =>
    rw [hpc] at hself
    have hget := List.getElem?_eq_getElem (hinside it hpc)
    have hpass := recv_poll (fun fd hfd hne => (h.owner fd hfd hne).imp fun a ha =>
      ⟨ha, hgoing a fd ha⟩) hget (h.served.client it _ hpc hget)
    rwa [hself] at hpass

/-- A connection that waits is accepted, and the server waits in poll again. -/
theorem reach_accepted (h : Linked n) (hpc : n.server.pc = .poll)
    (hpending : (n.peer a).link = .pending) :
    ∃ fd n', Reach TcpNet.step whole n n' ∧ n'.server.pc = .poll ∧
      n'.peer a = { n.peer a with link := .accepted fd } := by
  have hmem : n.server.sock ∈ n.server.clients_.map Pollfd.fd :=
    List.mem_of_mem_head? h.served.listener
  obtain ⟨fd, hfd⟩ := Infinite.exists_notMem_finset (n.server.clients_.map Pollfd.fd).toFinset
  rw [List.mem_toFinset] at hfd
  let asked : TcpServer := { n.server with
    clients_ := marked n.server.sock n.server.clients_, pc := .accept }
  have hpoll : n.step (.poll 1 (n.server.clients_.map (only n.server.sock))) =
      some { n with server := asked } := by
    have hscan : scan n.server.sock (marked n.server.sock n.server.clients_) 0 = .accept :=
      (scan_marked _ hmem 0).elim And.right fun hne => absurd rfl hne.1
    rw [TcpNet.step, step_marked hpc, hscan]
    rfl
  have haccept : TcpNet.step { n with server := asked } (.accept a fd) =
      some { n.put a { n.peer a with link := .accepted fd } with
        server := { asked with
          clients_ := asked.clients_ ++ [make_poll fd]
          log := asked.log ++ [.accepted fd] } } := by
    have hnew : fd ∉ asked.clients_.map Pollfd.fd := by
      rw [marked_fds]
      exact hfd
    simp only [TcpNet.step, TcpNet.accept, TcpServer.step, TcpServer.accepted, if_pos hpending,
      if_pos (show asked.pc = .accept from rfl), if_neg hnew]
    rfl
  refine ⟨fd, _, reach_head (a := .poll _ _) trivial hpoll (reach_head (a := .accept a fd) trivial
    haccept (reach_step (a := .acceptError .EWOULDBLOCK) trivial rfl)), rfl, ?_⟩
  exact put_self n a _

/-- The request of a client is read, and its reply sent. -/
theorem receive_message (hpc : n.server.pc = .recv it)
    (hget : n.server.clients_[it]? = some conn) (hlink : (n.peer a).link = .accepted conn.fd)
    (hup : (n.peer a).up = msg.serialize) :
    ∃ n', n.step (.receive a (n.peer a).up.length (List.replicate BUFFER_SIZE 0)) = some n' ∧
      (n'.peer a).session = { (n.peer a).session with
        stream := (n.peer a).session.stream ++ replyBytes n.server.groups_ msg
        served := (n.peer a).session.served + 1 } := by
  have hlen : msg.serialize.length = 12 := Message.length_serialize msg
  have hsize : (List.replicate BUFFER_SIZE (0 : UInt8)).length = BUFFER_SIZE :=
    List.length_replicate
  obtain ⟨server, hserver⟩ : ∃ server, n.server.step
      (.recv (.ok msg.serialize) (List.replicate BUFFER_SIZE 0)) = some server :=
    ⟨_, step_recv hpc hget (by rw [hlen]; decide) hsize⟩
  obtain ⟨hreply, _⟩ := received_message hpc hget hserver
  have hnone : (n.peer a).up.length = 0 → (n.peer a).up = [] ∧ (n.peer a).session.pc = .exited :=
    fun h0 => by
      rw [hup, hlen] at h0
      cases h0
  simp only [TcpNet.step, TcpNet.receive, hpc, hget]
  rw [if_pos ⟨hlink, Nat.le_refl _, hnone⟩, List.take_length, hup, hserver]
  refine ⟨_, rfl, (congrArg TcpPeer.session (put_self n a _)).trans ?_⟩
  dsimp only
  rw [hreply]

/-- From poll to the reply to a client that was accepted. -/
theorem reach_served (h : Linked n) (hpc : n.server.pc = .poll)
    (hlink : (n.peer a).link = .accepted fd) (hup : (n.peer a).up = msg.serialize) :
    ∃ n', Reach TcpNet.step whole n n' ∧ (n'.peer a).session = { (n.peer a).session with
      stream := (n.peer a).session.stream ++ replyBytes n.server.groups_ msg
      served := (n.peer a).session.served + 1 } := by
  obtain ⟨hmem, hne⟩ := h.entry a fd hlink
  obtain ⟨hsock, _⟩ | ⟨_, it, conn, hscan, hget, rfl⟩ :=
    scan_marked n.server.sock hmem 0
  · exact absurd hsock hne
  have hpoll : n.step (.poll 1 (n.server.clients_.map (only conn.fd))) =
      some { n with server := { n.server with
        clients_ := marked conn.fd n.server.clients_, pc := .recv it } } := by
    rw [TcpNet.step, step_marked hpc, hscan, Nat.zero_add]
    rfl
  obtain ⟨n', hn', hsession⟩ := receive_message (n := { n with server := { n.server with
    clients_ := marked conn.fd n.server.clients_, pc := .recv it } }) rfl hget hlink hup
  exact ⟨n', reach_head (a := .poll _ _) trivial hpoll (reach_step (a := .receive a _ _) rfl hn'),
    hsession⟩

/-- The reply is there, and the call returns it. -/
theorem reach_returned {reply : List UInt8} (hpc : (n.peer a).session.pc = .recv)
    (hstream : (n.peer a).session.stream = reply) (hne : reply ≠ [])
    (hlen : reply.length < BUFFER_SIZE) (hnul : 0 ∉ reply) :
    ∃ n', Reach TcpNet.step whole n n' ∧
      (n'.peer a).session.results = (n.peer a).session.results ++ [reply] := by
  subst hstream
  have hnone : (n.peer a).session.stream.length = 0 →
      (n.peer a).session.stream = [] ∧ n.finished a := fun h0 =>
    absurd (List.eq_nil_of_length_eq_zero h0) hne
  have hstep : n.step (.reply a (.ok (n.peer a).session.stream.length) []) = some _ :=
    if_pos ⟨hpc, hlen.le, Nat.le_refl _, hnone⟩
  refine ⟨_, reach_step (a := .reply a (.ok _) []) ⟨rfl, hlen, hnul⟩ hstep, ?_⟩
  refine (congrArg (fun k : TcpPeer => k.session.results) (put_self n a _)).trans ?_
  show _ ++ [cString ((n.peer a).session.stream.take _)] = _
  rw [List.take_length, cString_eq_iff.mpr hnul]

/-- A client whose connect has not been done does it first. -/
theorem reach_connected (hrunning : n.server.running = true)
    (hgoing : ∀ b fd, (n.peer b).link = .accepted fd → (n.peer b).ended = false)
    (hopen : (n.peer a).link ≠ .closed) :
    ∃ n', Reach TcpNet.step whole n n' ∧ n'.server = n.server ∧
      (n'.peer a).session = (n.peer a).session ∧ (n'.peer a).up = (n.peer a).up ∧
      (∀ b fd, (n'.peer b).link = .accepted fd → (n'.peer b).ended = false) ∧
      ((n'.peer a).link = .pending ∨ ∃ fd, (n'.peer a).link = .accepted fd) := by
  cases hlink : (n.peer a).link with
  | closed => exact absurd hlink hopen
  | pending => exact ⟨n, .refl, rfl, rfl, rfl, hgoing, Or.inl hlink⟩
  | accepted fd => exact ⟨n, .refl, rfl, rfl, rfl, hgoing, Or.inr ⟨fd, hlink⟩⟩
  | unconnected =>
    have hself : (n.put a { n.peer a with link := .pending }).peer a =
        { n.peer a with link := .pending } := put_self n a _
    refine ⟨_, reach_step (a := .connect a) trivial (if_pos ⟨hlink, hrunning⟩), rfl,
      by rw [hself], by rw [hself], fun b fd hb => ?_, Or.inl (by rw [hself])⟩
    by_cases he : b = a
    · subst he
      rw [hself] at hb
      cases hb
    · rw [put_other n _ he] at hb ⊢
      exact hgoing b fd hb

/-- A call whose request is on its way: the server comes to it, and its reply to the client. -/
theorem reach_reply (h : Linked n) (hinside : Inside n.server)
    (hrunning : n.server.running = true)
    (hgoing : ∀ b fd, (n.peer b).link = .accepted fd → (n.peer b).ended = false)
    (hopen : (n.peer a).link = .pending ∨ ∃ fd, (n.peer a).link = .accepted fd)
    (hpc : (n.peer a).session.pc = .recv) (hup : (n.peer a).up = msg.serialize)
    (hstream : (n.peer a).session.stream = [])
    (hne : replyBytes n.server.groups_ msg ≠ [])
    (hlen : (replyBytes n.server.groups_ msg).length < BUFFER_SIZE)
    (hnul : 0 ∉ replyBytes n.server.groups_ msg) :
    ∃ n', Reach TcpNet.step whole n n' ∧ (n'.peer a).session.results =
      (n.peer a).session.results ++ [replyBytes n.server.groups_ msg] := by
  have hpoll := reach_poll h hinside hrunning hgoing
  -- accepted, if it is not yet, with the server in poll
  obtain ⟨fd, n1, hn1, hpc1, hlink1, hup1, hsession1⟩ : ∃ fd n1, Reach TcpNet.step whole n n1 ∧
      n1.server.pc = .poll ∧ (n1.peer a).link = .accepted fd ∧ (n1.peer a).up = (n.peer a).up ∧
      (n1.peer a).session = (n.peer a).session := by
    rcases hopen with hpending | ⟨fd, hlink⟩
    · obtain ⟨fd, n1, hn1, hpc1, hpeer⟩ := reach_accepted (h.run hpoll) rfl hpending
      exact ⟨fd, n1, hpoll.trans hn1, hpc1, by rw [hpeer], by rw [hpeer]; rfl, by rw [hpeer]; rfl⟩
    · exact ⟨fd, _, hpoll, rfl, hlink, rfl, rfl⟩
  obtain ⟨n2, hn2, hsession2⟩ := reach_served (h.run hn1) hpc1 hlink1 (hup1.trans hup)
  rw [run_groups hn1, hsession1, hstream, List.nil_append] at hsession2
  obtain ⟨n3, hn3, hresults⟩ := reach_returned (n := n2) (a := a)
    (by rw [hsession2]; exact hpc) (by rw [hsession2]) hne hlen hnul
  refine ⟨n3, hn1.trans (hn2.trans hn3), hresults.trans ?_⟩
  rw [hsession2]

/-! ## 4. Calls that return nothing -/

/-- There is nothing for the client `a`, and nothing will come; since it had `before`, its calls
    have returned the empty string. -/
structure Severed (n : TcpNet α) (a : α) (before : List (List UInt8)) : Prop where
  nothing : (n.peer a).session.stream = []
  finished : n.finished a
  results : ∃ late, (n.peer a).session.results = before ++ late ∧ ∀ result ∈ late, result = []

theorem step_running (hstep : n.step act = some n') (h : n.server.running = false) :
    n'.server.running = false := by
  rcases step_server hstep with hserver | ⟨ans, hserver⟩ | ⟨status, hserver⟩
  · rw [hserver]
    exact h
  · exact absurd (h.symm.trans (running_of_step hserver)) Bool.false_ne_true
  · rw [hserver]
    rfl

/-- The client `b` does something, or something is done for it; if it is `a`, it gets nothing. -/
theorem Severed.put {before : List (List UInt8)} {b : α} {k : TcpPeer} {server : TcpServer}
    (h : Severed n a before) (hrunning : n.server.running = false → server.running = false)
    (hk : a = b → k.session.stream = [] ∧ ((n.peer b).link = .closed → k.link = .closed) ∧
      ∃ late, k.session.results = (n.peer b).session.results ++ late ∧
        ∀ result ∈ late, result = []) :
    Severed { n.put b k with server := server } a before := by
  by_cases hb : a = b
  · subst hb
    have hself := put_self n a k
    obtain ⟨hstream, hlink, late, hlate, hempty⟩ := hk rfl
    obtain ⟨late', hlate', hempty'⟩ := h.results
    refine ⟨?_, ?_, late' ++ late, ?_, ?_⟩
    · rw [hself]
      exact hstream
    · show ((n.put a k).peer a).link = .closed ∨ server.running = false
      rw [hself]
      exact h.finished.imp hlink hrunning
    · rw [hself, hlate, hlate', List.append_assoc]
    · exact fun result hr => (List.mem_append.mp hr).elim (hempty' result) (hempty result)
  · have hother := put_other n k hb
    refine ⟨?_, ?_, ?_⟩
    · rw [hother]
      exact h.nothing
    · show ((n.put b k).peer a).link = .closed ∨ server.running = false
      rw [hother]
      exact h.finished.imp_right hrunning
    · rw [hother]
      exact h.results

/-- A request changes nothing of what the client has got. -/
theorem call_same (w : Session) (msg : Message) (result : Int) :
    (w.call msg result).stream = w.stream ∧ (w.call msg result).results = w.results := by
  unfold Session.call
  split
  · exact ⟨rfl, rfl⟩
  · exact ⟨rfl, rfl⟩

/-- Every step keeps it. -/
theorem Severed.step {before : List (List UInt8)} (h : Severed n a before)
    (hok : whole n act) (hstep : n.step act = some n') : Severed n' a before := by
  have hrunning := step_running hstep
  have hsame : ∀ k : TcpPeer, k.session.stream = (n.peer a).session.stream →
      k.session.results = (n.peer a).session.results →
      ((n.peer a).link = .closed → k.link = .closed) →
      k.session.stream = [] ∧ ((n.peer a).link = .closed → k.link = .closed) ∧
        ∃ late, k.session.results = (n.peer a).session.results ++ late ∧
          ∀ result ∈ late, result = [] := fun k hstream hresults hlink =>
    ⟨hstream.trans h.nothing, hlink, [], by rw [hresults, List.append_nil],
      fun _ hr => absurd hr List.not_mem_nil⟩
  cases tcpMoved hstep with
  | connects b hlink =>
    refine h.put hrunning fun hb => ?_
    subst hb
    exact hsame _ rfl rfl fun hc => Link.noConfusion (hc.symm.trans hlink)
  | sends b result msg =>
    refine h.put hrunning fun hb => ?_
    subst hb
    obtain ⟨hstream, hresults⟩ := call_same (n.peer a).session msg result
    exact hsame _ hstream hresults id
  | replies b result memory hpc hend =>
    cases result with
    | error e => exact hok.elim
    | ok count =>
      refine h.put hrunning fun hb => ?_
      subst hb
      refine ⟨?_, id, [cString ((n.peer a).session.stream.take count)], rfl, fun result hr => ?_⟩
      · show (n.peer a).session.stream.drop count = []
        rw [h.nothing, List.drop_nil]
      · rw [List.mem_singleton.mp hr, h.nothing, List.take_nil]
        rfl
  | exits b =>
    refine h.put hrunning fun hb => ?_
    subst hb
    exact hsame _ rfl rfl id
  | answers act ans server hserver =>
    exact ⟨h.nothing, h.finished.imp_right hrunning, h.results⟩
  | accepts b fd server hlink =>
    refine h.put hrunning fun hb => ?_
    subst hb
    exact hsame _ rfl rfl fun hc => Link.noConfusion (hc.symm.trans hlink)
  | receives b count memory it conn server hpc hget hlink hnone hserver =>
    refine h.put hrunning fun hb => ?_
    subst hb
    -- the server reads only of connections that are open
    rcases h.finished with hc | hgone
    · cases hc.symm.trans hlink
    · cases hgone.symm.trans (running_of_step hserver)
  | killed status =>
    exact ⟨h.nothing, h.finished.imp_right hrunning, h.results⟩

theorem Severed.run {before : List (List UInt8)} (h : Severed n a before)
    (hrun : Reach TcpNet.step whole n n') : Severed n' a before :=
  hrun.invariant (I := fun m => Severed m a before) h fun _ _ _ hI hok hstep => hI.step hok hstep

/-! ## 5. From which states a call returns its reply -/

/-- As long as the server has not seen the end of a connection that it serves (it would stay in the
    recv of it): a call can still return its reply if and only if the reply is there already, or the
    server runs and has not closed the connection. -/
theorem reply_reached_iff (h : Reach TcpNet.step whole (.init groups_ sock program) n)
    (hgoing : ∀ b fd, (n.peer b).link = .accepted fd → (n.peer b).ended = false)
    (hpc : (n.peer a).session.pc = .recv) (hasked : (n.peer a).session.asked.getLast? = some msg)
    (hne : replyBytes groups_ msg ≠ []) (hlen : (replyBytes groups_ msg).length < BUFFER_SIZE)
    (hnul : 0 ∉ replyBytes groups_ msg) :
    (∃ n', Reach TcpNet.step whole n n' ∧ (n'.peer a).session.results =
      (n.peer a).session.results ++ [replyBytes groups_ msg]) ↔
    (n.peer a).session.stream ≠ [] ∨
      (n.server.running = true ∧ (n.peer a).link ≠ .closed) := by
  have hgroups := (inOrder h).groups
  constructor
  · rintro ⟨n', hrun, hresults⟩
    by_contra hnot
    rw [not_or, not_not, not_and, not_not] at hnot
    obtain ⟨hstream, hover⟩ := hnot
    have hsevered : Severed n a (n.peer a).session.results := by
      refine ⟨hstream, ?_, [], (List.append_nil _).symm, fun _ hr => absurd hr List.not_mem_nil⟩
      cases hrunning : n.server.running with
      | true => exact Or.inl (hover hrunning)
      | false => exact Or.inr hrunning
    obtain ⟨late, hlate, hempty⟩ := (hsevered.run hrun).results
    rw [hresults, List.append_cancel_left_eq] at hlate
    exact hne (hempty _ (hlate ▸ List.mem_cons_self))
  · intro hready
    obtain ⟨called, late, current, hgood⟩ := (inOrder h).clients a
    have hlast : ∀ m, current = [m] → m = msg := by
      rintro m rfl
      rw [hgood.asked, List.getLast?_concat] at hasked
      exact Option.some.inj hasked
    cases hgood.stands with
    | quiet hidle => cases hpc.symm.trans hidle
    | gone _ hexited => cases hpc.symm.trans hexited
    | behind _ _ hover hstream =>
      rcases hready with hsome | ⟨hrunning, hopen⟩
      · exact absurd hstream hsome
      · exact (hover.elim hopen fun hgone => Bool.false_ne_true (hgone.symm.trans hrunning)).elim
    | served m _ _ hstream =>
      obtain rfl := hlast m rfl
      exact reach_returned hpc hstream hne hlen hnul
    | asked m _ hup hstream =>
      obtain rfl := hlast m rfl
      obtain ⟨hrunning, hopen⟩ := hready.resolve_left fun hsome => hsome hstream
      obtain ⟨n1, hn1, hserver1, hsession1, hup1, hgoing1, hopen1⟩ :=
        reach_connected hrunning hgoing hopen
      have hlinked := (linked_init groups_ sock program).run (h.trans hn1)
      obtain ⟨n2, hn2, hresults⟩ := reach_reply (n := n1) (a := a) hlinked
        (hserver1 ▸ inside h) (hserver1 ▸ hrunning) hgoing1 hopen1 (hsession1 ▸ hpc)
        (hup1.trans hup) (hsession1 ▸ hstream) (by rwa [hserver1, hgroups])
        (by rwa [hserver1, hgroups]) (by rwa [hserver1, hgroups])
      refine ⟨n2, hn1.trans hn2, ?_⟩
      rw [hresults, hsession1, hserver1, hgroups]

end Progress

/-- A client that has connected and sent its request, before the server has looked at it. -/
theorem reply_reached_oneSession : ∃ n n', Reach TcpNet.step whole oneSession n ∧
    (n.peer ()).session.results = [] ∧ (n.peer ()).link = .pending ∧
    Reach TcpNet.step whole n n' ∧ (n'.peer ()).session.results = [[65]] := by
  have hrun : (exec TcpNet.step whole oneSession [.connect (), .send () 12]).map (fun n =>
      ((n.peer ()).session.results, (n.peer ()).link, (n.peer ()).session.pc,
        (n.peer ()).session.asked, n.server.running)) =
      some ([], .pending, .recv, [⟨0, 7, 8⟩], true) := by
    decide +kernel
  obtain ⟨n, hn, hstate⟩ := Option.map_eq_some_iff.mp hrun
  obtain ⟨hresults, hlink, hpc, hasked, hrunning⟩ : _ ∧ _ ∧ _ ∧ _ ∧ _ := by
    simpa only [Prod.mk.injEq] using hstate
  have hreach := reach_of_exec hn
  have hopen : (n.peer ()).link ≠ .closed := by
    rw [hlink]
    exact Link.noConfusion
  have hlast : (n.peer ()).session.asked.getLast? = some ⟨0, 7, 8⟩ := by
    rw [hasked]
    rfl
  obtain ⟨n', hn', hdone⟩ := (reply_reached_iff hreach
    (fun b fd hb => Link.noConfusion (hlink.symm.trans hb)) hpc hlast
    (by decide) (by decide) (by decide)).mpr (Or.inr ⟨hrunning, hopen⟩)
  rw [hresults] at hdone
  exact ⟨n, n', hreach, hresults, hlink, hn', hdone⟩

end Ece358.GroupServer
