/-
  File:      Ece358/GroupServer/ClientTable.lean
  Subject:   The table `clients_` of the TCP server.

  `run` changes the table while it walks over it: it appends the clients that it accepts, and erases
  one whose session is over. The walk ends behind either, and the next one starts afresh. Closing is
  left to `run`, too; only the destructor, behind the end of the program, closes what is left.

  * `openConns` -- the connections that were accepted and not closed yet, by the record;
  * `ClientTable` -- the invariant: the listener, and these;
  * `Refuses`, `step_closed` -- a connection is closed where its `handle_msg` returns false, and
    nowhere else;
  * `tableOps`, `step_sound` -- what `run` does with `it` and `conn`, from one call to the next;
  * `client_table` -- all of it, on every run; `closed_in_all` -- with the destructor.
-/
import Mathlib.Data.List.Count
import Mathlib.Data.List.InsertIdx
import Mathlib.Data.List.Nodup
import Ece358.GroupServer.Requests
import Ece358.Lib.Handles

namespace Ece358.GroupServer

open Lib

/-! ## 1. What is open -/

/-- The open connections behind an event. -/
def openNext (fds : List Nat) : Event → List Nat
  | .accepted fd => fds ++ [fd]
  | .closed fd => fds.erase fd
  | _ => fds

/-- The connections that were accepted and not closed yet, in their order. -/
def openConns (log : List Event) : List Nat := log.foldl openNext []

/-- The table of a server that listens on `sock`. Every connection that was accepted is closed by
    now, once, or open. -/
structure ClientTable (sock : Nat) (s : TcpServer) : Prop where
  listens : s.sock = sock
  entries : s.clients_.map Pollfd.fd = sock :: openConns s.log
  once : (sock :: openConns s.log).Nodup
  lives : ∀ fd, s.log.count (.accepted fd) =
    s.log.count (.closed fd) + (openConns s.log).count fd

/-- The answer is a message of the connection `fd`, and `handle_msg` returns false for it. -/
def Refuses (s : TcpServer) (a : Answer) (fd : Nat) : Prop :=
  ∃ it conn bytes memory, s.pc = .recv it ∧ s.clients_[it]? = some conn ∧ conn.fd = fd ∧
    a = .recv (.ok bytes) memory ∧
    (handle_msg s.groups_ fd (bytes ++ memory.drop bytes.length)).2 = .returned false

/-! ## 2. What `run` does with its iterator and its reference -/

/-- The variables of `run` that refer into the table; what `end` and `&clients_[0]` return is used
    at once, and never again. -/
inductive Handle where
  | it
  | conn
  deriving DecidableEq

/-- The for loop from `it` on, over the entries `clients`, up to the next call and with it: `it` is
    compared, and read for `conn`, and `conn` is looked at. -/
def scanOps (sock : Nat) : List Pollfd → List (HandleOp Handle)
  | [] => [.used .it]
  | conn :: clients =>
    [.used .it, .used .it, .obtained .conn, .used .conn] ++
      if conn.revents = 0 then .used .it :: scanOps sock clients
      else if conn.fd = sock then [.used .conn]
      else [.used .conn, .used .conn]

/-- Behind `handle_msg`: the next recv, or close and erase. -/
def outcomeOps : Outcome → List (HandleOp Handle)
  | .returned true => [.used .conn]
  | .returned false => [.used .conn, .used .it, .changed, .obtained .it]
  | .exited => []

/-- What `run` does behind an answer. -/
def tableOps (s : TcpServer) : Answer → List (HandleOp Handle)
  | .poll result revents =>
    if result < 0 then []
    else if result = 0 then []
    else .obtained .it ::
      scanOps s.sock (s.clients_.zipWith (fun conn r => { conn with revents := r }) revents)
  | .accept (.ok _) => [.changed]
  | .accept (.error _) => []
  | .recv result memory =>
    match s.pc with
    | .recv it =>
      match result with
      | .ok bytes =>
        match s.clients_[it]? with
        | some conn =>
          .used .conn ::
            outcomeOps (handle_msg s.groups_ conn.fd (bytes ++ memory.drop bytes.length)).2
        | none => []
      | .error .EWOULDBLOCK => .used .it :: scanOps s.sock (s.clients_.drop (it + 1))
      | .error (.other _) => []
    | _ => []

/-- Over a run. -/
def tableTrace (s : TcpServer) : List Answer → List (HandleOp Handle)
  | [] => []
  | a :: as =>
    tableOps s a ++
      match s.step a with
      | some s' => tableTrace s' as
      | none => []

section Table

variable {s s' : TcpServer} {a : Answer} {sock fd fd' : Nat} {es : List Event}

/-! ## 3. What a step does to the table -/

/-- Events that open and close nothing. -/
def Neutral (es : List Event) : Prop := ∀ e ∈ es, ∀ fd, e ≠ .accepted fd ∧ e ≠ .closed fd

/-- A step leaves the descriptors of the table alone, appends one that was accepted, or erases one
    that was refused. -/
inductive TableStep (s : TcpServer) (a : Answer) (s' : TcpServer) : Prop where
  | kept (es : List Event) (hes : Neutral es) (hlog : s'.log = s.log ++ es)
      (hfds : s'.clients_.map Pollfd.fd = s.clients_.map Pollfd.fd)
      (hnone : ∀ fd, ¬ Refuses s a fd)
  | accepted (fd : Nat) (ha : a = .accept (.ok fd)) (hnew : fd ∉ s.clients_.map Pollfd.fd)
      (hlog : s'.log = s.log ++ [.accepted fd])
      (hfds : s'.clients_.map Pollfd.fd = s.clients_.map Pollfd.fd ++ [fd])
  | refused (it : Nat) (conn : Pollfd) (es : List Event) (hes : Neutral es)
      (hpc : s.pc = .recv it) (hget : s.clients_[it]? = some conn) (href : Refuses s a conn.fd)
      (hlog : s'.log = s.log ++ es ++ [.closed conn.fd])
      (hclients : s'.clients_ = s.clients_.eraseIdx it)

theorem neutral_nil : Neutral [] := fun _ h => absurd h List.not_mem_nil

/-- A message that is handled without a closing. -/
theorem neutral_read {bytes memory : List UInt8} {msg : Message}
    (hes : ∀ e ∈ es, (∃ reply, e = .sent fd reply) ∨ e = .stopped fd) :
    Neutral (.received fd bytes memory :: .handled fd msg :: es) := by
  refine List.forall_mem_cons.mpr ⟨fun _ => ⟨Event.noConfusion, Event.noConfusion⟩,
    List.forall_mem_cons.mpr ⟨fun _ => ⟨Event.noConfusion, Event.noConfusion⟩, ?_⟩⟩
  intro e he fd'
  rcases hes e he with ⟨reply, rfl⟩ | rfl
  · exact ⟨Event.noConfusion, Event.noConfusion⟩
  · exact ⟨Event.noConfusion, Event.noConfusion⟩

theorem Neutral.count_accepted (hes : Neutral es) (fd : Nat) : es.count (.accepted fd) = 0 :=
  List.count_eq_zero_of_not_mem fun h => (hes _ h fd).1 rfl

theorem Neutral.count_closed (hes : Neutral es) (fd : Nat) : es.count (.closed fd) = 0 :=
  List.count_eq_zero_of_not_mem fun h => (hes _ h fd).2 rfl

theorem not_refuses_of_ne (ha : ∀ bytes memory, a ≠ .recv (.ok bytes) memory) :
    ¬ Refuses s a fd := by
  rintro ⟨it, conn, bytes, memory, _, _, _, h, _⟩
  exact ha bytes memory h

/-- Only one connection was read. -/
theorem Refuses.unique (h : Refuses s a fd) (h' : Refuses s a fd') : fd = fd' := by
  obtain ⟨it, conn, _, _, hpc, hget, rfl, _⟩ := h
  obtain ⟨it', conn', _, _, hpc', hget', rfl, _⟩ := h'
  rw [hpc] at hpc'
  cases hpc'
  rw [hget] at hget'
  cases hget'
  rfl

/-- Nothing was read, opened or closed. -/
theorem TableStep.same (hlog : s'.log = s.log)
    (hfds : s'.clients_.map Pollfd.fd = s.clients_.map Pollfd.fd)
    (ha : ∀ bytes memory, a ≠ .recv (.ok bytes) memory) : TableStep s a s' :=
  .kept [] neutral_nil (hlog.trans (List.append_nil _).symm) hfds fun _ => not_refuses_of_ne ha

theorem step_table (h : s.step a = some s') : s'.sock = s.sock ∧ TableStep s a s' := by
  cases stepped h with
  | pollFails => exact ⟨rfl, .same rfl rfl fun _ _ h => (by cases h)⟩
  | polls result revents clients hpc hresult hlen hclients =>
    have hfds : clients.map Pollfd.fd = s.clients_.map Pollfd.fd := by
      rw [hclients, zipWith_fds hlen]
    exact ⟨rfl, .same rfl hfds fun _ _ h => (by cases h)⟩
  | accepts fd hpc hnew => exact ⟨rfl, .accepted fd rfl hnew rfl List.map_append⟩
  | acceptBlocks => exact ⟨rfl, .same rfl rfl fun _ _ h => (by cases h)⟩
  | acceptFails => exact ⟨rfl, .same rfl rfl fun _ _ h => (by cases h)⟩
  | recvBlocks => exact ⟨rfl, .same rfl rfl fun _ _ h => (by cases h)⟩
  | recvFails => exact ⟨rfl, .same rfl rfl fun _ _ h => (by cases h)⟩
  | receives it conn bytes memory hpc hget =>
    -- the result of handle_msg decides
    have hresult : ∀ fd, Refuses s (.recv (.ok bytes) memory) fd →
        (handle_msg s.groups_ conn.fd (bytes ++ memory.drop bytes.length)).2 =
          .returned false := by
      rintro fd ⟨it', conn', bytes', memory', hpc', hget', rfl, ha, hfalse⟩
      cases ha
      cases hpc.symm.trans hpc'
      cases hget.symm.trans hget'
      exact hfalse
    have hread : Neutral [.received conn.fd bytes memory,
        .handled conn.fd (Message.deserialize (bytes ++ memory.drop bytes.length))] :=
      neutral_read fun e he => absurd he List.not_mem_nil
    rcases handle_cases { s with log := s.log ++ [Event.received conn.fd bytes memory] } it conn.fd
      (bytes ++ memory.drop bytes.length) with ⟨_, hout, es, hes, hh⟩ | ⟨_, ⟨hout, hh⟩ | ⟨hout, hh⟩⟩
    · rw [hh]
      refine ⟨rfl, .kept _ (neutral_read fun e he => Or.inl (hes e he)) (List.append_assoc _ _ _)
        rfl fun fd hr => ?_⟩
      cases (hresult fd hr).symm.trans hout
    · rw [hh]
      refine ⟨rfl, .refused it conn _ hread hpc hget
        ⟨it, conn, bytes, memory, hpc, hget, rfl, rfl, hout⟩ ?_ rfl⟩
      simp only [List.append_assoc, List.cons_append, List.nil_append]
    · rw [hh]
      refine ⟨rfl, .kept _ (neutral_read fun e he => Or.inr (List.mem_singleton.mp he))
        (List.append_assoc _ _ _) rfl fun fd hr => ?_⟩
      cases (hresult fd hr).symm.trans hout

/-! ## 4. The invariant -/

theorem openConns_append (log es : List Event) :
    openConns (log ++ es) = es.foldl openNext (openConns log) :=
  List.foldl_append

theorem foldl_neutral (hes : Neutral es) (fds : List Nat) : es.foldl openNext fds = fds := by
  induction es with
  | nil => rfl
  | cons e es ih =>
    obtain ⟨he, hes⟩ := List.forall_mem_cons.mp hes
    have hnext : openNext fds e = fds := by
      cases e with
      | accepted fd => exact absurd rfl (he fd).1
      | closed fd => exact absurd rfl (he fd).2
      | received fd bytes memory => rfl
      | handled client msg => rfl
      | sent client reply => rfl
      | stopped client => rfl
    rw [List.foldl_cons, hnext, ih hes]

theorem clientTable_init (groups_ : Groups) (sock : Nat) :
    ClientTable sock (.init groups_ sock) where
  listens := rfl
  entries := rfl
  once := List.nodup_singleton sock
  lives _ := rfl

/-- Nothing was opened or closed. -/
theorem ClientTable.kept (ht : ClientTable sock s) (hsock : s'.sock = s.sock) (hes : Neutral es)
    (hlog : s'.log = s.log ++ es)
    (hfds : s'.clients_.map Pollfd.fd = s.clients_.map Pollfd.fd) : ClientTable sock s' := by
  have hopen : openConns s'.log = openConns s.log := by
    rw [hlog, openConns_append, foldl_neutral hes]
  refine ⟨hsock.trans ht.listens, ?_, ?_, fun fd => ?_⟩
  · rw [hfds, hopen]
    exact ht.entries
  · rw [hopen]
    exact ht.once
  · rw [hopen, hlog, List.count_append, List.count_append, hes.count_accepted,
      hes.count_closed]
    exact ht.lives fd

/-- A descriptor that was not open before. -/
theorem ClientTable.accepted (ht : ClientTable sock s) (hsock : s'.sock = s.sock)
    (hnew : fd ∉ s.clients_.map Pollfd.fd) (hlog : s'.log = s.log ++ [.accepted fd])
    (hfds : s'.clients_.map Pollfd.fd = s.clients_.map Pollfd.fd ++ [fd]) :
    ClientTable sock s' := by
  have hopen : openConns s'.log = openConns s.log ++ [fd] := by
    rw [hlog, openConns_append]
    rfl
  rw [ht.entries] at hnew
  refine ⟨hsock.trans ht.listens, ?_, ?_, fun fd' => ?_⟩
  · rw [hfds, ht.entries, hopen]
    rfl
  · rw [hopen, ← List.cons_append]
    exact ht.once.append (List.nodup_singleton fd) (List.disjoint_singleton.mpr hnew)
  · have hlives := ht.lives fd'
    have haccepted : ([Event.accepted fd]).count (.accepted fd') = ([fd]).count fd' := by
      rw [List.count_singleton, List.count_singleton]
      simp
    have hclosed : ([Event.accepted fd]).count (.closed fd') = 0 := rfl
    rw [hopen, hlog, List.count_append, List.count_append, List.count_append, haccepted, hclosed]
    omega

/-- The entry at `it` is erased, and its descriptor closed. -/
theorem ClientTable.refused (ht : ClientTable sock s) (hsock : s'.sock = s.sock) {it : Nat}
    {conn : Pollfd} (hget : s.clients_[it]? = some conn) (hne : conn.fd ≠ sock) (hes : Neutral es)
    (hlog : s'.log = s.log ++ es ++ [.closed conn.fd])
    (hclients : s'.clients_ = s.clients_.eraseIdx it) : ClientTable sock s' := by
  have hopen : openConns s'.log = (openConns s.log).erase conn.fd := by
    rw [hlog, openConns_append, openConns_append, foldl_neutral hes]
    rfl
  have hfd : (sock :: openConns s.log)[it]? = some conn.fd := by
    rw [← ht.entries, List.getElem?_map, hget]
    rfl
  obtain ⟨k, rfl⟩ : ∃ k, it = k + 1 := by
    cases it with
    | zero => exact absurd (Option.some.inj hfd).symm hne
    | succ k => exact ⟨k, rfl⟩
  obtain ⟨hk, hkfd⟩ := List.getElem?_eq_some_iff.mp hfd
  have hmem : conn.fd ∈ openConns s.log := List.mem_of_getElem? hfd
  have hnodup := (List.nodup_cons.mp ht.once).2
  refine ⟨hsock.trans ht.listens, ?_, ?_, fun fd => ?_⟩
  · rw [hclients, ← List.eraseIdx_map, ht.entries, List.eraseIdx_cons_succ, hopen, ← hkfd]
    exact congrArg _ (hnodup.erase_getElem k _).symm
  · rw [hopen]
    exact ht.once.sublist (List.Sublist.cons_cons sock List.erase_sublist)
  · have hlives := ht.lives fd
    have haccepted : ([Event.closed conn.fd]).count (.accepted fd) = 0 := rfl
    have hclosed : ([Event.closed conn.fd]).count (.closed fd) = ([conn.fd]).count fd := by
      rw [List.count_singleton, List.count_singleton]
      simp
    have hcount : (openConns s.log).count fd =
        ([conn.fd]).count fd + ((openConns s.log).erase conn.fd).count fd := by
      rw [← List.count_append]
      exact (List.perm_cons_erase hmem).count_eq fd
    rw [hopen, hlog, List.count_append, List.count_append, List.count_append, List.count_append,
      hes.count_accepted, hes.count_closed, haccepted, hclosed]
    omega

/-! ## 5. Closings -/

/-- A connection is closed where its `handle_msg` returns false, and nowhere else. -/
theorem step_closed (h : s.step a = some s') (fd : Nat) :
    (Refuses s a fd ∧ s'.log.count (.closed fd) = s.log.count (.closed fd) + 1) ∨
      (¬ Refuses s a fd ∧ s'.log.count (.closed fd) = s.log.count (.closed fd)) := by
  rcases (step_table h).2 with ⟨es, hes, hlog, _, hnone⟩ | ⟨fd', rfl, _, hlog, _⟩ |
    ⟨it, conn, es, hes, _, _, href, hlog, _⟩
  · refine Or.inr ⟨hnone fd, ?_⟩
    rw [hlog, List.count_append, hes.count_closed, Nat.add_zero]
  · refine Or.inr ⟨not_refuses_of_ne fun _ _ h => Answer.noConfusion h, ?_⟩
    rw [hlog, List.count_append]
    rfl
  · have hcount : s'.log.count (.closed fd) =
        s.log.count (.closed fd) + ([Event.closed conn.fd]).count (.closed fd) := by
      rw [hlog, List.count_append, List.count_append, hes.count_closed]
      rfl
    by_cases hfd : conn.fd = fd
    · subst hfd
      refine Or.inl ⟨href, ?_⟩
      rw [hcount, List.count_singleton_self]
    · refine Or.inr ⟨fun h => hfd (href.unique h), ?_⟩
      rw [hcount, List.count_singleton, if_neg (by simpa using hfd), Nat.add_zero]

/-- Every answer of the operating system keeps the table. -/
theorem step_clientTable (hs : Served s) (ht : ClientTable sock s) (h : s.step a = some s') :
    ClientTable sock s' := by
  obtain ⟨hsock, hstep⟩ := step_table h
  cases hstep with
  | kept es hes hlog hfds _ => exact ht.kept hsock hes hlog hfds
  | accepted fd _ hnew hlog hfds => exact ht.accepted hsock hnew hlog hfds
  | refused it conn es hes hpc hget _ hlog hclients =>
    exact ht.refused hsock hget (ht.listens ▸ hs.client it conn hpc hget) hes hlog hclients

/-! ## 6. Handles -/

/-- The handles that are good while the server waits in a call. -/
def held : ServerPc → Set Handle
  | .recv _ => Set.univ
  | _ => ∅

/-- The for loop, from where `it` is good. -/
theorem scanOps_sound (sock : Nat) {valid : Set Handle} (hit : .it ∈ valid)
    (clients : List Pollfd) (it : Nat) :
    Sound valid (scanOps sock clients) ∧
      held (scan sock clients it) ⊆ validAfter valid (scanOps sock clients) := by
  induction clients generalizing valid it with
  | nil => exact ⟨sound_used.mpr ⟨hit, trivial⟩, Set.empty_subset _⟩
  | cons conn clients ih =>
    have hit' : Handle.it ∈ insert Handle.conn valid := Set.mem_insert_of_mem _ hit
    have hconn : Handle.conn ∈ insert Handle.conn valid := Set.mem_insert _ _
    -- up to the test of revents
    have hsound : ∀ ops, Sound (insert .conn valid) ops → Sound valid
        ([.used .it, .used .it, .obtained .conn, .used .conn] ++ ops) := fun ops hops =>
      sound_used.mpr ⟨hit, sound_used.mpr ⟨hit,
        sound_obtained.mpr (sound_used.mpr ⟨hconn, hops⟩)⟩⟩
    have hvalid : ∀ ops, validAfter valid
        ([.used .it, .used .it, .obtained .conn, .used .conn] ++ ops) =
          validAfter (insert .conn valid) ops := fun _ => rfl
    unfold scanOps scan
    rw [hvalid]
    split
    · obtain ⟨hops, hheld⟩ := ih hit' (it + 1)
      exact ⟨hsound _ (sound_used.mpr ⟨hit', hops⟩), hheld⟩
    · split
      · exact ⟨hsound _ (sound_used.mpr ⟨hconn, trivial⟩), Set.empty_subset _⟩
      · refine ⟨hsound _ (sound_used.mpr ⟨hconn, sound_used.mpr ⟨hconn, trivial⟩⟩), ?_⟩
        rintro (_ | _) _
        · exact hit'
        · exact hconn

/-- Behind `handle_msg`, in a recv of the client. -/
theorem outcomeOps_sound (outcome : Outcome) :
    Sound Set.univ (.used .conn :: outcomeOps outcome) := by
  have huniv : ∀ h : Handle, h ∈ (Set.univ : Set Handle) := Set.mem_univ
  refine sound_used.mpr ⟨huniv _, ?_⟩
  rcases outcome with (_ | _) | _
  · exact sound_used.mpr ⟨huniv _, sound_used.mpr ⟨huniv _,
      sound_changed.mpr (sound_obtained.mpr trivial)⟩⟩
  · exact sound_used.mpr ⟨huniv _, trivial⟩
  · trivial

theorem step_sound (h : s.step a = some s') :
    Sound (held s.pc) (tableOps s a) ∧ held s'.pc ⊆ validAfter (held s.pc) (tableOps s a) := by
  cases stepped h with
  | pollFails result revents hpc hresult =>
    have hops : tableOps s (.poll result revents) = [] := by
      rw [tableOps]
      split_ifs <;> first | rfl | omega
    rw [hops]
    exact ⟨trivial, Set.empty_subset _⟩
  | polls result revents clients hpc hresult hlen hclients =>
    have hops : tableOps s (.poll result revents) = .obtained .it :: scanOps s.sock clients := by
      rw [tableOps, if_neg (by omega), if_neg (by omega), hclients]
    obtain ⟨hscan, hheld⟩ :=
      scanOps_sound s.sock (Set.mem_insert Handle.it (held s.pc)) clients 0
    rw [hops]
    exact ⟨sound_obtained.mpr hscan, hheld⟩
  | accepts fd hpc hnew =>
    refine ⟨sound_changed.mpr trivial, ?_⟩
    show held s.pc ⊆ _
    rw [hpc]
    exact Set.empty_subset _
  | acceptBlocks => exact ⟨trivial, Set.empty_subset _⟩
  | acceptFails errno => exact ⟨trivial, Set.empty_subset _⟩
  | receives it conn bytes memory hpc hget =>
    have hops : tableOps s (.recv (.ok bytes) memory) = .used .conn ::
        outcomeOps (handle_msg s.groups_ conn.fd (bytes ++ memory.drop bytes.length)).2 := by
      simp only [tableOps, hpc, hget]
    have hheld : held s.pc = Set.univ := by
      rw [hpc]
      rfl
    rw [hops, hheld]
    refine ⟨outcomeOps_sound _, ?_⟩
    rcases handle_cases { s with log := s.log ++ [Event.received conn.fd bytes memory] } it conn.fd
      (bytes ++ memory.drop bytes.length) with ⟨_, hout, es, _, hh⟩ | ⟨_, ⟨_, hh⟩ | ⟨_, hh⟩⟩
    · -- both handles are as good as before
      have hout : (handle_msg s.groups_ conn.fd (bytes ++ memory.drop bytes.length)).2 =
          .returned true := hout
      rw [hout]
      exact Set.subset_univ _
    · rw [hh]
      exact Set.empty_subset _
    · rw [hh]
      exact Set.empty_subset _
  | recvBlocks it memory hpc =>
    obtain ⟨hops, hheld⟩ := scanOps_sound s.sock (Set.mem_univ Handle.it)
      (s.clients_.drop (it + 1)) (it + 1)
    simp only [tableOps, hpc]
    exact ⟨sound_used.mpr ⟨Set.mem_univ _, hops⟩, hheld⟩
  | recvFails it errno memory hpc =>
    simp only [tableOps, hpc]
    exact ⟨trivial, Set.empty_subset _⟩

theorem run_sound {as : List Answer} (h : Run TcpServer.step (fun _ _ => True) s as s') :
    Sound (held s.pc) (tableTrace s as) := by
  induction as generalizing s with
  | nil => trivial
  | cons a as ih =>
    cases h with
    | cons _ hf hrun =>
      obtain ⟨hops, hheld⟩ := step_sound hf
      rw [tableTrace, hf]
      exact sound_append.mpr ⟨hops, (ih hrun).mono hheld⟩

end Table

section Runs

variable {groups_ : Groups} {sock : Nat} {as : List Answer} {s : TcpServer}

theorem run_clientTable (hrun : Run TcpServer.step (fun _ _ => True) (.init groups_ sock) as s) :
    ClientTable sock s :=
  (hrun.invariant (I := fun s => Served s ∧ ClientTable sock s)
    ⟨served_init groups_ sock, clientTable_init groups_ sock⟩
    fun _ _ _ hI _ hf => ⟨step_served hI.1 hf, step_clientTable hI.1 hI.2 hf⟩).2

/-- On every run: the table holds the listener and the open connections, each once; a connection is
    closed when, and only when, its `handle_msg` returns false; and no iterator or reference into
    the table is used behind the push_back or erase that may have invalidated it. -/
theorem client_table (hrun : Run TcpServer.step (fun _ _ => True) (.init groups_ sock) as s) :
    ClientTable sock s ∧
    (∀ a s', s.step a = some s' → ∀ fd,
      (Refuses s a fd ∧ s'.log.count (.closed fd) = s.log.count (.closed fd) + 1) ∨
        (¬ Refuses s a fd ∧ s'.log.count (.closed fd) = s.log.count (.closed fd))) ∧
    SafeUse (tableTrace (.init groups_ sock) as) :=
  ⟨run_clientTable hrun, fun _ _ hf => step_closed hf, (run_sound hrun).safeUse⟩

/-- A server whose only client has ended its session. -/
def oneClosed : TcpServer where
  groups_ := fun _ => none
  clients_ := [⟨3, 0⟩]
  sock := 3
  pc := .poll
  log := [.accepted 4, .received 4 (Message.serialize ⟨2, 0, 0⟩) (List.replicate BUFFER_SIZE 0),
    .handled 4 ⟨2, 0, 0⟩, .closed 4]

theorem run_oneClosed : Run TcpServer.step (fun _ _ => True) (.init (fun _ => none) 3)
    [.poll 1 [1], .accept (.ok 4), .accept (.error .EWOULDBLOCK), .poll 1 [0, 1],
      .recv (.ok (Message.serialize ⟨2, 0, 0⟩)) (List.replicate BUFFER_SIZE 0)] oneClosed := by
  have hsize : (List.replicate BUFFER_SIZE (0 : UInt8)).length = BUFFER_SIZE :=
    List.length_replicate
  have hstep := step_oneClient ⟨2, 0, 0⟩ hsize
  rw [TcpServer.handle, handle_msg, Message.deserialize_serialize] at hstep
  exact run_oneClient.append (.cons trivial hstep (.nil oneClosed))

theorem client_table_closed :
    ClientTable 3 oneClosed ∧
    (∀ a s', oneClosed.step a = some s' → ∀ fd,
      (Refuses oneClosed a fd ∧
        s'.log.count (.closed fd) = oneClosed.log.count (.closed fd) + 1) ∨
      (¬ Refuses oneClosed a fd ∧ s'.log.count (.closed fd) = oneClosed.log.count (.closed fd))) ∧
    SafeUse (tableTrace (.init (fun _ => none) 3)
      [.poll 1 [1], .accept (.ok 4), .accept (.error .EWOULDBLOCK), .poll 1 [0, 1],
        .recv (.ok (Message.serialize ⟨2, 0, 0⟩)) (List.replicate BUFFER_SIZE 0)]) :=
  client_table run_oneClosed

/-- `~TCPServer`: exit destroys the server. -/
def TcpServer.destroyed (s : TcpServer) : List Event :=
  s.clients_.map fun conn => .closed conn.fd

/-- In the end every connection is closed once for its accept. -/
theorem closed_in_all (hrun : Run TcpServer.step (fun _ _ => True) (.init groups_ sock) as s)
    {fd : Nat} (hne : fd ≠ sock) :
    (s.log ++ s.destroyed).count (.closed fd) = s.log.count (.accepted fd) := by
  have ht := run_clientTable hrun
  have hdestroyed : s.destroyed.count (.closed fd) = (openConns s.log).count fd := by
    have hmap : s.destroyed = (sock :: openConns s.log).map Event.closed := by
      rw [← ht.entries, List.map_map]
      rfl
    rw [hmap, List.count_map_of_injective _ _ fun _ _ h => Event.closed.inj h]
    exact List.count_cons_of_ne (Ne.symm hne)
  rw [List.count_append, hdestroyed, ht.lives]

end Runs

end Ece358.GroupServer
