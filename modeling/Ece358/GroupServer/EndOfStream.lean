/-
  File:      Ece358/GroupServer/EndOfStream.lean
  Subject:   A client that closes its connection without STOP_SESSION.

  recv returns 0 at the end of a stream, and goes on returning 0. `run` does not look for that: it
  hands the buffer to `handle_msg`, which reads a request off what lies there, and receives again.

  * `ClosesQuietly` -- what should follow: no request, the connection closed, its entry erased;
  * `step_end` -- what follows;
  * `closes_iff` -- the loop is left, and the connection closed, if and only if some time the buffer
    holds a STOP_SESSION, and no STOP before; `stale_forever` -- the request that was handled last,
    which is what a recv without bytes leaves in the buffer, is handled without end;
  * `end_of_stream` -- on no connection and over no memory is the end of the stream a quiet one.
-/
import Ece358.GroupServer.Requests

namespace Ece358.GroupServer

open Lib

/-- recv finds the end of the stream, time after time, over these memories. -/
def atEnd (memories : List (List UInt8)) : List Answer :=
  memories.map fun memory => .recv (.ok []) memory

/-- What the server has done since `s`. -/
def TcpServer.since (s s' : TcpServer) : List Event := s'.log.drop s.log.length

/-- The inner loop is left, the connection closed and its entry erased; the others are as they
    were. -/
structure Closes (s s' : TcpServer) (it fd : Nat) : Prop where
  left : s'.pc ≠ .recv it
  closed : .closed fd ∈ s.since s'
  entries : s'.clients_ = s.clients_.eraseIdx it

/-- And no request of the connection was handled. -/
structure ClosesQuietly (s s' : TcpServer) (it fd : Nat) : Prop extends Closes s s' it fd where
  quiet : ∀ msg, .handled fd msg ∉ s.since s'

section EndOfStream

variable {s s' : TcpServer} {it : Nat} {conn : Pollfd} {memory : List UInt8}

/-! ## 1. One recv -/

/-- The request that is read off a buffer which was not written. -/
def leftover (memory : List UInt8) : Message := Message.deserialize memory

/-- A recv without bytes is followed by `handle_msg` all the same. -/
theorem step_end (hpc : s.pc = .recv it) (hget : s.clients_[it]? = some conn)
    (hsize : memory.length = BUFFER_SIZE) :
    s.step (.recv (.ok []) memory) =
      some ({ s with log := s.log ++ [Event.received conn.fd [] memory] }.handle it conn.fd
        memory) :=
  step_recv hpc hget (Nat.zero_le _) hsize

/-- What is left over in the buffer is handled first, whatever it is. -/
theorem handle_log (s : TcpServer) (it fd : Nat) (buffer : List UInt8) :
    ∃ es, (s.handle it fd buffer).log =
      s.log ++ .handled fd (Message.deserialize buffer) :: es := by
  rcases handle_cases s it fd buffer with ⟨_, _, es, _, hh⟩ | ⟨_, ⟨_, hh⟩ | ⟨_, hh⟩⟩
  · exact ⟨es, by rw [hh]⟩
  · exact ⟨[.closed fd], by rw [hh]⟩
  · exact ⟨[.stopped fd], by rw [hh]⟩

/-- A leftover that ends nothing: the loop goes on, over the same table. -/
theorem step_end_go (hpc : s.pc = .recv it) (hget : s.clients_[it]? = some conn)
    (hsize : memory.length = BUFFER_SIZE) (hends : (leftover memory).ends = false) :
    ∃ s', s.step (.recv (.ok []) memory) = some s' ∧ s'.pc = .recv it ∧
      s'.clients_ = s.clients_ ∧ ∃ es, s'.log = s.log ++ es := by
  refine ⟨_, step_end hpc hget hsize, ?_⟩
  rcases handle_cases { s with log := s.log ++ [Event.received conn.fd [] memory] } it conn.fd
    memory with ⟨_, _, es, _, hh⟩ | ⟨hends', _⟩
  · rw [hh]
    exact ⟨hpc, rfl, _, List.append_assoc _ _ _⟩
  · exact absurd hends' (Bool.eq_false_iff.mp hends)

/-- A leftover STOP_SESSION. -/
theorem step_end_close (hpc : s.pc = .recv it) (hget : s.clients_[it]? = some conn)
    (hsize : memory.length = BUFFER_SIZE)
    (hcommand : Command.ofWord (leftover memory).command = some .STOP_SESSION) :
    ∃ s', s.step (.recv (.ok []) memory) = some s' ∧ s'.pc = .poll ∧
      s'.clients_ = s.clients_.eraseIdx it ∧
      s'.log = s.log ++ [.received conn.fd [] memory, .handled conn.fd (leftover memory),
        .closed conn.fd] := by
  refine ⟨_, step_end hpc hget hsize, ?_⟩
  unfold leftover at hcommand
  simp only [TcpServer.handle, handle_msg, hcommand, List.append_assoc, List.cons_append,
    List.nil_append]
  exact ⟨trivial, trivial, rfl⟩

/-- A leftover STOP. -/
theorem step_end_stop (hpc : s.pc = .recv it) (hget : s.clients_[it]? = some conn)
    (hsize : memory.length = BUFFER_SIZE)
    (hcommand : Command.ofWord (leftover memory).command = some .STOP) :
    ∃ s', s.step (.recv (.ok []) memory) = some s' ∧ s'.pc = .exited 0 ∧
      s'.clients_ = s.clients_ := by
  refine ⟨_, step_end hpc hget hsize, ?_⟩
  unfold leftover at hcommand
  simp only [TcpServer.handle, handle_msg, hcommand, List.append_assoc, List.cons_append,
    List.nil_append]
  exact ⟨trivial, trivial⟩

/-! ## 2. The inner loop -/

/-- Nobody answers a recv where the server does not wait in one. -/
theorem step_end_none (hpc : ∀ it, s.pc ≠ .recv it) : s.step (.recv (.ok []) memory) = none := by
  cases h : s.step (.recv (.ok []) memory) with
  | none => rfl
  | some s' =>
    cases stepped h with
    | receives it _ _ _ hrecv => exact absurd hrecv (hpc it)

theorem run_atEnd_over {ms : List (List UInt8)} (hpc : ∀ it, s.pc ≠ .recv it)
    (hrun : Run TcpServer.step (fun _ _ => True) s (atEnd ms) s') : ms = [] ∧ s' = s := by
  cases ms with
  | nil =>
    cases hrun
    exact ⟨rfl, rfl⟩
  | cons m ms =>
    cases hrun with
    | cons _ hf _ =>
      rw [step_end_none hpc] at hf
      cases hf

/-- Leftovers that end nothing keep the loop going. -/
theorem run_atEnd_go {ms : List (List UInt8)} (hpc : s.pc = .recv it)
    (hget : s.clients_[it]? = some conn)
    (hms : ∀ m ∈ ms, m.length = BUFFER_SIZE ∧ (leftover m).ends = false) :
    ∃ s', Run TcpServer.step (fun _ _ => True) s (atEnd ms) s' ∧ s'.pc = .recv it ∧
      s'.clients_ = s.clients_ ∧ ∃ es, s'.log = s.log ++ es := by
  induction ms generalizing s with
  | nil => exact ⟨s, .nil s, hpc, rfl, [], (List.append_nil _).symm⟩
  | cons m ms ih =>
    obtain ⟨hsize, hends⟩ := hms m List.mem_cons_self
    obtain ⟨s1, hstep, hpc1, hclients1, es, hlog⟩ := step_end_go hpc hget hsize hends
    obtain ⟨s2, hrun, hpc2, hclients2, es', hlog'⟩ := ih hpc1 (hclients1 ▸ hget)
      fun m' hm' => hms m' (List.mem_cons_of_mem m hm')
    exact ⟨s2, .cons trivial hstep hrun, hpc2, hclients2.trans hclients1, es ++ es',
      by rw [hlog', hlog, List.append_assoc]⟩

theorem command_of_ends {m : Message} (h : m.ends = true) :
    Command.ofWord m.command = some .STOP ∨ Command.ofWord m.command = some .STOP_SESSION := by
  unfold Message.ends at h
  split at h
  next hc => exact Or.inl hc
  next hc => exact Or.inr hc
  · cases h

/-- The table is as it was, or the last leftover was a STOP_SESSION, and the first that ended
    anything. -/
theorem run_atEnd_cases {ms : List (List UInt8)} (hpc : s.pc = .recv it)
    (hget : s.clients_[it]? = some conn) (hsize : ∀ m ∈ ms, m.length = BUFFER_SIZE)
    (hrun : Run TcpServer.step (fun _ _ => True) s (atEnd ms) s') :
    s'.clients_ = s.clients_ ∨ ∃ pre m, ms = pre ++ [m] ∧
      (∀ p ∈ pre, (leftover p).ends = false) ∧
      Command.ofWord (leftover m).command = some .STOP_SESSION := by
  induction ms generalizing s with
  | nil =>
    cases hrun
    exact Or.inl rfl
  | cons m ms ih =>
    have hm := hsize m List.mem_cons_self
    cases hrun with
    | cons _ hf hrun =>
      cases hends : (leftover m).ends with
      | false =>
        obtain ⟨s1, hstep, hpc1, hclients1, _⟩ := step_end_go hpc hget hm hends
        obtain rfl := Option.some.inj (hf.symm.trans hstep)
        rcases ih hpc1 (hclients1 ▸ hget) (fun p hp => hsize p (List.mem_cons_of_mem m hp)) hrun
          with hsame | ⟨pre, last, rfl, hpre, hlast⟩
        · exact Or.inl (hsame.trans hclients1)
        · refine Or.inr ⟨m :: pre, last, rfl, fun p hp => ?_, hlast⟩
          rcases List.mem_cons.mp hp with rfl | hp
          · exact hends
          · exact hpre p hp
      | true =>
        rcases command_of_ends hends with hc | hc
        · obtain ⟨s1, hstep, hpc1, hclients1⟩ := step_end_stop hpc hget hm hc
          obtain rfl := Option.some.inj (hf.symm.trans hstep)
          obtain ⟨_, rfl⟩ := run_atEnd_over (fun it h => by rw [hpc1] at h; cases h) hrun
          exact Or.inl hclients1
        · obtain ⟨s1, hstep, hpc1, _⟩ := step_end_close hpc hget hm hc
          obtain rfl := Option.some.inj (hf.symm.trans hstep)
          obtain ⟨rfl, _⟩ := run_atEnd_over (fun it h => by rw [hpc1] at h; cases h) hrun
          exact Or.inr ⟨[], m, rfl, fun p hp => absurd hp List.not_mem_nil, hc⟩

/-- The loop comes to an end and closes the connection, if and only if a STOP_SESSION is left over
    some time, and nothing before that ends anything. -/
theorem closes_iff {memories : Nat → List UInt8} (hpc : s.pc = .recv it)
    (hget : s.clients_[it]? = some conn) (hsize : ∀ n, (memories n).length = BUFFER_SIZE) :
    (∃ n s', Run TcpServer.step (fun _ _ => True) s (atEnd ((List.range n).map memories)) s' ∧
      Closes s s' it conn.fd) ↔
    ∃ n, Command.ofWord (leftover (memories n)).command = some .STOP_SESSION ∧
      ∀ k < n, (leftover (memories k)).ends = false := by
  have hsizes : ∀ n, ∀ m ∈ (List.range n).map memories, m.length = BUFFER_SIZE := by
    intro n m hm
    obtain ⟨k, _, rfl⟩ := List.mem_map.mp hm
    exact hsize k
  constructor
  · rintro ⟨n, s', hrun, hcloses⟩
    rcases run_atEnd_cases hpc hget (hsizes n) hrun with hsame | ⟨pre, m, hms, hpre, hm⟩
    · -- the entry is still there
      have hlen := congrArg List.length (hcloses.entries.symm.trans hsame)
      rw [List.length_eraseIdx_of_lt (List.getElem?_eq_some_iff.mp hget).1] at hlen
      have := (List.getElem?_eq_some_iff.mp hget).1
      omega
    · cases n with
      | zero => exact absurd hms.symm (List.append_ne_nil_of_right_ne_nil _ (List.cons_ne_nil _ _))
      | succ n =>
        rw [List.range_succ, List.map_append] at hms
        obtain ⟨rfl, hlast⟩ := List.append_inj' hms rfl
        refine ⟨n, (List.cons.inj hlast).1 ▸ hm, fun k hk => ?_⟩
        exact hpre _ (List.mem_map_of_mem (List.mem_range.mpr hk))
  · rintro ⟨n, hn, hbefore⟩
    have hgo : ∀ m ∈ (List.range n).map memories,
        m.length = BUFFER_SIZE ∧ (leftover m).ends = false := by
      intro m hm
      obtain ⟨k, hk, rfl⟩ := List.mem_map.mp hm
      exact ⟨hsize k, hbefore k (List.mem_range.mp hk)⟩
    obtain ⟨s1, hrun, hpc1, hclients1, es, hlog1⟩ := run_atEnd_go hpc hget hgo
    obtain ⟨s2, hstep, hpc2, hclients2, hlog2⟩ :=
      step_end_close hpc1 (hclients1 ▸ hget) (hsize n) hn
    have hleft : s2.pc ≠ .recv it := by
      rw [hpc2]
      exact ServerPc.noConfusion
    have hlog : s2.log = s.log ++ (es ++ [.received conn.fd [] (memories n),
        .handled conn.fd (leftover (memories n)), .closed conn.fd]) := by
      rw [hlog2, hlog1, List.append_assoc]
    refine ⟨n + 1, s2, ?_, hleft, ?_, hclients2.trans (by rw [hclients1])⟩
    · rw [List.range_succ, List.map_append, atEnd, List.map_append]
      exact hrun.append (.cons trivial hstep (.nil s2))
    · rw [TcpServer.since, hlog, List.drop_left]
      simp

/-- What the last recv of the connection has left in the buffer is handled again and again. -/
theorem stale_forever (hs : Served s) (hpc : s.pc = .recv it) (hget : s.clients_[it]? = some conn)
    (hsize : memory.length = BUFFER_SIZE) (hstale : leftover memory ∈ (s.conn conn.fd).handled)
    (n : Nat) :
    ∃ s', Run TcpServer.step (fun _ _ => True) s (atEnd (List.replicate n memory)) s' ∧
      s'.pc = .recv it ∧ s'.clients_ = s.clients_ := by
  have hgoing : (leftover memory).ends = false :=
    hs.going (fun status h => ServerPc.noConfusion (hpc.symm.trans h)) conn.fd
      (List.mem_map_of_mem (List.mem_of_getElem? hget)) _ hstale
  have hms : ∀ m ∈ List.replicate n memory, m.length = BUFFER_SIZE ∧ (leftover m).ends = false := by
    intro m hm
    rw [List.eq_of_mem_replicate hm]
    exact ⟨hsize, hgoing⟩
  obtain ⟨s', hrun, hpc', hclients, _⟩ := run_atEnd_go hpc hget hms
  exact ⟨s', hrun, hpc', hclients⟩

/-! ## 3. Whatever comes behind -/

/-- The record only grows. -/
theorem step_log {a : Answer} (h : s.step a = some s') : s.log <+: s'.log := by
  cases stepped h with
  | accepts fd => exact List.prefix_append _ _
  | receives it conn bytes memory =>
    obtain ⟨es, hes⟩ := handle_log
      { s with log := s.log ++ [Event.received conn.fd bytes memory] } it conn.fd
      (bytes ++ memory.drop bytes.length)
    rw [hes, List.append_assoc]
    exact List.prefix_append _ _
  | _ => exact List.prefix_rfl

theorem run_log {as : List Answer} (h : Run TcpServer.step (fun _ _ => True) s as s') :
    s.log <+: s'.log :=
  h.invariant (I := fun s' => s.log <+: s'.log) List.prefix_rfl
    fun _ _ _ hlog _ hf => hlog.trans (step_log hf)

/-- Behind a recv without bytes a request is on record, and stays there. -/
theorem handled_since {as : List Answer} (hpc : s.pc = .recv it)
    (hget : s.clients_[it]? = some conn)
    (hrun : Run TcpServer.step (fun _ _ => True) s (.recv (.ok []) memory :: as) s') :
    .handled conn.fd (leftover memory) ∈ s.since s' := by
  cases hrun with
  | cons _ hf hrun =>
    have hsize : memory.length = BUFFER_SIZE := by
      cases stepped hf with
      | receives _ _ _ _ _ _ _ hsize => exact hsize
    obtain rfl := Option.some.inj (hf.symm.trans (step_end hpc hget hsize))
    obtain ⟨es, hes⟩ := handle_log
      { s with log := s.log ++ [Event.received conn.fd [] memory] } it conn.fd memory
    obtain ⟨more, hmore⟩ := run_log hrun
    rw [TcpServer.since, ← hmore, hes, List.append_assoc, List.append_assoc, List.drop_left]
    simp [leftover]

/-- Whatever lies in the buffer and whatever comes behind, the end of the stream is not a quiet one;
    the connection is closed if and only if a STOP_SESSION lies there some time, and nothing before
    that ends anything. -/
theorem end_of_stream {memories : Nat → List UInt8} (hpc : s.pc = .recv it)
    (hget : s.clients_[it]? = some conn) (hsize : ∀ n, (memories n).length = BUFFER_SIZE) :
    (∀ as s', Run TcpServer.step (fun _ _ => True) s (.recv (.ok []) (memories 0) :: as) s' →
      ¬ ClosesQuietly s s' it conn.fd) ∧
    ((∃ n s', Run TcpServer.step (fun _ _ => True) s (atEnd ((List.range n).map memories)) s' ∧
      Closes s s' it conn.fd) ↔
    ∃ n, Command.ofWord (leftover (memories n)).command = some .STOP_SESSION ∧
      ∀ k < n, (leftover (memories k)).ends = false) :=
  ⟨fun _ _ hrun h => h.quiet _ (handled_since hpc hget hrun), closes_iff hpc hget hsize⟩

end EndOfStream

/-- A buffer that nothing was written into yet. -/
def blankBuffer : List UInt8 := List.replicate BUFFER_SIZE 0

/-- The buffer behind a GET, as the recv of it has left it. -/
def getBuffer : List UInt8 :=
  Message.serialize ⟨0, 7, 8⟩ ++ blankBuffer.drop (Message.serialize ⟨0, 7, 8⟩).length

theorem length_getBuffer : getBuffer.length = BUFFER_SIZE := by decide +kernel

theorem end_of_stream_get :
    (∀ as s', Run TcpServer.step (fun _ _ => True) oneClient
        (.recv (.ok []) getBuffer :: as) s' → ¬ ClosesQuietly oneClient s' 1 4) ∧
    ((∃ n s', Run TcpServer.step (fun _ _ => True) oneClient
        (atEnd ((List.range n).map fun _ => getBuffer)) s' ∧ Closes oneClient s' 1 4) ↔
      ∃ n : Nat, Command.ofWord (leftover getBuffer).command = some .STOP_SESSION ∧
        ∀ k < n, (leftover getBuffer).ends = false) :=
  have hget : oneClient.clients_[1]? = some ⟨4, 1⟩ := rfl
  have hsize : ∀ n : Nat, ((fun _ => getBuffer) n).length = BUFFER_SIZE := fun _ => length_getBuffer
  end_of_stream rfl hget hsize

/-- The server has answered a GET of its client. -/
def oneAnswered : TcpServer :=
  { oneClient with
    log := [.accepted 4, .received 4 (Message.serialize ⟨0, 7, 8⟩) blankBuffer,
      .handled 4 ⟨0, 7, 8⟩, .sent 4 (get (fun _ => none) 7 8)] }

theorem step_oneAnswered :
    oneClient.step (.recv (.ok (Message.serialize ⟨0, 7, 8⟩)) blankBuffer) = some oneAnswered := by
  have hread : Message.deserialize getBuffer = ⟨0, 7, 8⟩ := Message.deserialize_serialize _ _
  have hsize : blankBuffer.length = BUFFER_SIZE := List.length_replicate
  rw [step_oneClient _ hsize, ← getBuffer, TcpServer.handle, handle_msg, hread]
  rfl

/-- A client that asks for a name and closes its connection: it is answered without end. -/
theorem get_forever : ∃ as s,
    Run TcpServer.step (fun _ _ => True) (.init (fun _ => none) 3) as s ∧
    s.pc = .recv 1 ∧ s.clients_[1]? = some ⟨4, 1⟩ ∧ (s.conn 4).handled = [⟨0, 7, 8⟩] ∧
    (∀ as' s', Run TcpServer.step (fun _ _ => True) s (.recv (.ok []) getBuffer :: as') s' →
      ¬ ClosesQuietly s s' 1 4) ∧
    ∀ n, ∃ s', Run TcpServer.step (fun _ _ => True) s (atEnd (List.replicate n getBuffer)) s' ∧
      s'.pc = .recv 1 ∧ s'.clients_ = s.clients_ := by
  have hrun := run_oneClient.append (.cons trivial step_oneAnswered (.nil oneAnswered))
  have hread : leftover getBuffer = ⟨0, 7, 8⟩ := Message.deserialize_serialize _ _
  have hget : oneAnswered.clients_[1]? = some ⟨4, 1⟩ := rfl
  refine ⟨_, oneAnswered, hrun, rfl, rfl, rfl, fun as' s' hrun' h => ?_, fun n => ?_⟩
  · exact h.quiet _ (handled_since rfl hget hrun')
  · refine stale_forever (run_served (served_init _ 3) hrun) rfl hget length_getBuffer ?_ n
    rw [hread]
    exact List.mem_singleton_self _

end Ece358.GroupServer
