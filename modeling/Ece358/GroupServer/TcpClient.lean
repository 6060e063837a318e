/-
  File:      Ece358/GroupServer/TcpClient.lean
  Subject:   `TCPClient::send_message` (a2/TCPClient.cc) and the replies of the server.

  A reply is the bare bytes of a name: nothing says where it ends. The client takes what one recv
  returns for the reply, writes a NUL behind it and returns the C string in its buffer.

  * `Session`, `SessionAction`, `Session.step` -- one client and the server: a request, its handling
    by the server, and the outcome of the client's recv, which may return any part of what was sent;
  * `Right` -- each call that has returned has the reply to its request, every index that was
    written is in the buffer, and no call waits for a reply that was sent;
  * `wholeReplies` -- what the replies and the recvs must be for that;
  * `Keeping`, `Broken` -- a session that was right so far, and one that never will be again;
  * `round_trip_iff` -- a session is right if and only if all its steps were of that kind.
-/
import Ece358.GroupServer.TcpServer
import Mathlib.Data.List.Infix
import Mathlib.Data.List.TakeWhile

namespace Ece358.GroupServer

open Lib

/-! ## 1. A session -/

/-- Where the client stands: between calls, in the recv of `send_message`, or behind its exit(1). -/
inductive ClientPc where
  | idle
  | recv
  | exited
  deriving DecidableEq

/-- A client on its connection. `stream` is what the server has sent and the client has not
    received; `asked`, `results` and `written` are for the record: the requests, the strings that
    were returned, and the indices of the NULs. -/
structure Session where
  groups_ : Groups
  fd : Nat
  pc : ClientPc
  stream : List UInt8
  served : Nat
  asked : List Message
  results : List (List UInt8)
  written : List Int

/-- A call with what its `send` returns, the server's handling of the next request, with the memory
    behind it in the buffer, and the client's recv, with the memory in its own. -/
inductive SessionAction where
  | send_message (param1 param2 : UInt32) (result : Int)
  | serve (memory : List UInt8)
  | recv (result : Except SockError Nat) (memory : List UInt8)

/-- The C string at the start of some bytes, or all of them where a NUL was written behind. -/
def cString (bytes : List UInt8) : List UInt8 := bytes.takeWhile fun b => b != 0

/-- The bytes in some sends of the server. -/
def sentBytes (events : List Event) : List UInt8 :=
  events.flatMap fun event => match event with
    | .sent _ reply => reply
    | _ => []

/-- What `Server::get` computes for a request. -/
def answer (groups_ : Groups) (msg : Message) : List UInt8 :=
  get groups_ msg.param1.toInt32 msg.param2.toInt32

namespace Session

def init (groups_ : Groups) (fd : Nat) : Session := ⟨groups_, fd, .idle, [], 0, [], [], []⟩

/-- The start of `send_message`, with a GET. -/
def call (w : Session) (msg : Message) (result : Int) : Session :=
  if result ≠ (Message.sizeofMessage : Int) then { w with pc := .exited }
  else { w with pc := .recv, asked := w.asked ++ [msg] }

/-- The end of `send_message`. Its test of `bytes` never fails, so an error is index -1. -/
def reply (w : Session) (memory : List UInt8) : Except SockError Nat → Session
  | .ok result => { w with
      pc := .idle
      stream := w.stream.drop result
      results := w.results ++ [cString (w.stream.take result)]
      written := w.written ++ [(result : Int)] }
  | .error _ => { w with
      pc := .idle
      results := w.results ++ [cString memory]
      written := w.written ++ [-1] }

def step (w : Session) : SessionAction → Option Session
  | .send_message param1 param2 result =>
    if w.pc = .idle then some (w.call ⟨0, param1, param2⟩ result) else none
  | .serve memory =>
    (w.asked[w.served]?).map fun msg => { w with
      stream := w.stream ++ sentBytes (handle_msg w.groups_ w.fd (msg.serialize ++ memory)).1
      served := w.served + 1 }
  | .recv result memory =>
    if w.pc = .recv then
      match result with
      | .ok n =>
        if 0 < n ∧ n ≤ BUFFER_SIZE ∧ n ≤ w.stream.length then some (w.reply memory (.ok n))
        else none
      | .error errno => some (w.reply memory (.error errno))
    else none

end Session

/-- What the session must be at every moment. -/
structure Right (w : Session) : Prop where
  replies : w.results <+: w.asked.map (answer w.groups_)
  inside : ∀ i ∈ w.written, 0 ≤ i ∧ i < (BUFFER_SIZE : Int)
  answered : w.pc = .recv → w.served = w.asked.length → w.stream ≠ []

/-- No reply is empty; each is shorter than the buffer, has no NUL, and is received at once. -/
def wholeReplies (w : Session) : SessionAction → Prop
  | .send_message _ _ _ => True
  | .serve _ => ∀ msg, w.asked[w.served]? = some msg → answer w.groups_ msg ≠ []
  | .recv (.ok n) _ => ∀ msg, w.asked.getLast? = some msg →
      n = (answer w.groups_ msg).length ∧ n < BUFFER_SIZE ∧ 0 ∉ answer w.groups_ msg
  | .recv (.error _) _ => False

/-! ## 2. What was right stays right, what was wrong stays wrong -/

/-- A session that was right so far: every request but that of the current call was answered, and
    what there is of the stream is the reply to that. -/
structure Keeping (w : Session) : Prop where
  gets : ∀ msg ∈ w.asked, msg.command = 0
  inside : ∀ i ∈ w.written, 0 ≤ i ∧ i < (BUFFER_SIZE : Int)
  between : w.pc ≠ .recv →
    w.results = w.asked.map (answer w.groups_) ∧ w.served = w.asked.length ∧ w.stream = []
  during : w.pc = .recv → ∃ msgs msg, w.asked = msgs ++ [msg] ∧
    w.results = msgs.map (answer w.groups_) ∧
    ((w.served = msgs.length ∧ w.stream = []) ∨
      (w.served = w.asked.length ∧ w.stream = answer w.groups_ msg ∧ answer w.groups_ msg ≠ []))

/-- A call that has returned something else, an index outside the buffer, or a call that waits for
    nothing. -/
inductive Broken (w : Session) : Prop where
  | result (i : Nat) (result : List UInt8) (msg : Message) (hr : w.results[i]? = some result)
      (hm : w.asked[i]? = some msg) (hne : result ≠ answer w.groups_ msg)
  | outside (i : Int) (hi : i ∈ w.written) (ho : ¬ (0 ≤ i ∧ i < (BUFFER_SIZE : Int)))
  | waits (hpc : w.pc = .recv) (hserved : w.served = w.asked.length) (hnil : w.stream = [])

section Steps

variable {w w' : Session} {a : SessionAction} {groups_ : Groups} {fd : Nat}

theorem getElem?_mono {α : Type} {l l' : List α} {i : Nat} {x : α} (h : l <+: l')
    (hx : l[i]? = some x) : l'[i]? = some x := by
  obtain ⟨rest, rfl⟩ := h
  rw [List.getElem?_append_left (List.getElem?_eq_some_iff.mp hx).1, hx]

theorem Broken.not_right (h : Broken w) : ¬ Right w := by
  intro hr
  cases h with
  | result i result msg hi hm hne =>
    refine hne ?_
    have hat := getElem?_mono hr.replies hi
    rw [List.getElem?_map, hm] at hat
    exact (Option.some.inj hat).symm
  | outside i hi ho => exact ho (hr.inside i hi)
  | waits hpc hserved hnil => exact hr.answered hpc hserved hnil

theorem Keeping.right (h : Keeping w) : Right w where
  replies := by
    by_cases hpc : w.pc = .recv
    · obtain ⟨msgs, msg, hasked, hresults, _⟩ := h.during hpc
      rw [hasked, hresults, List.map_append]
      exact List.prefix_append _ _
    · rw [(h.between hpc).1]
  inside := h.inside
  answered hpc hserved hnil := by
    obtain ⟨msgs, msg, hasked, _, ⟨hs, _⟩ | ⟨_, hstream, hne⟩⟩ := h.during hpc
    · rw [hs, hasked, List.length_append, List.length_singleton] at hserved
      omega
    · exact hne (hstream.symm.trans hnil)

theorem keeping_init (groups_ : Groups) (fd : Nat) : Keeping (.init groups_ fd) where
  gets msg hm := absurd hm List.not_mem_nil
  inside i hi := absurd hi List.not_mem_nil
  between _ := ⟨rfl, rfl, rfl⟩
  during h := by cases h

/-- The server sends the reply to the request that it reads off its buffer. -/
theorem sentBytes_handle (groups_ : Groups) (fd : Nat) {msg : Message} (h : msg.command = 0)
    (memory : List UInt8) :
    sentBytes (handle_msg groups_ fd (msg.serialize ++ memory)).1 = answer groups_ msg := by
  have hcommand : Command.ofWord msg.command = some .GET := by rw [h]; rfl
  unfold handle_msg
  rw [Message.deserialize_serialize]
  dsimp only
  rw [hcommand]
  exact List.append_nil _

/-- A C string is all of its bytes if none of them is NUL. -/
theorem cString_eq_iff {bytes : List UInt8} : cString bytes = bytes ↔ 0 ∉ bytes := by
  unfold cString
  rw [List.takeWhile_eq_self_iff]
  constructor
  · intro h h0
    exact absurd (h 0 h0) (by decide)
  · intro h b hb
    rw [bne_iff_ne]
    exact fun h0 => h (h0 ▸ hb)

theorem length_cString_le (bytes : List UInt8) : (cString bytes).length ≤ bytes.length :=
  (List.takeWhile_prefix _).length_le

/-- The four steps of a session. -/
theorem step_cases (h : w.step a = some w') :
    (∃ param1 param2 result, a = .send_message param1 param2 result ∧ w.pc = .idle ∧
      w' = w.call ⟨0, param1, param2⟩ result) ∨
    (∃ memory msg, a = .serve memory ∧ w.asked[w.served]? = some msg ∧ w' = { w with
      stream := w.stream ++ sentBytes (handle_msg w.groups_ w.fd (msg.serialize ++ memory)).1
      served := w.served + 1 }) ∨
    (∃ n memory, a = .recv (.ok n) memory ∧ w.pc = .recv ∧ 0 < n ∧ n ≤ BUFFER_SIZE ∧
      n ≤ w.stream.length ∧ w' = w.reply memory (.ok n)) ∨
    (∃ errno memory, a = .recv (.error errno) memory ∧ w.pc = .recv ∧
      w' = w.reply memory (.error errno)) := by
  cases a with
  | send_message param1 param2 result =>
    rw [Session.step, Option.ite_none_right_eq_some, Option.some.injEq] at h
    exact Or.inl ⟨param1, param2, result, rfl, h.1, h.2.symm⟩
  | serve memory =>
    rw [Session.step, Option.map_eq_some_iff] at h
    obtain ⟨msg, hmsg, rfl⟩ := h
    exact Or.inr (Or.inl ⟨memory, msg, rfl, hmsg, rfl⟩)
  | recv result memory =>
    cases result with
    | ok n =>
      rw [Session.step, Option.ite_none_right_eq_some, Option.ite_none_right_eq_some,
        Option.some.injEq] at h
      obtain ⟨hpc, ⟨hpos, hle, hlen⟩, rfl⟩ := h
      exact Or.inr (Or.inr (Or.inl ⟨n, memory, rfl, hpc, hpos, hle, hlen, rfl⟩))
    | error errno =>
      rw [Session.step, Option.ite_none_right_eq_some, Option.some.injEq] at h
      exact Or.inr (Or.inr (Or.inr ⟨errno, memory, rfl, h.1, h.2.symm⟩))

/-- A call that the server is about to serve has an empty stream before it. -/
theorem Keeping.unserved {msg : Message} (h : Keeping w) (hmsg : w.asked[w.served]? = some msg) :
    ∃ msgs, w.pc = .recv ∧ w.asked = msgs ++ [msg] ∧ w.results = msgs.map (answer w.groups_) ∧
      w.served = msgs.length ∧ w.stream = [] := by
  have hlt := (List.getElem?_eq_some_iff.mp hmsg).1
  by_cases hpc : w.pc = .recv
  · obtain ⟨msgs, msg', hasked, hresults, ⟨hs, hnil⟩ | ⟨hs, _⟩⟩ := h.during hpc
    · rw [hasked, hs, List.getElem?_concat_length, Option.some.injEq] at hmsg
      exact ⟨msgs, hpc, hmsg ▸ hasked, hresults, hs, hnil⟩
    · omega
  · have := (h.between hpc).2.1
    omega

/-- A call that receives has the reply in front of it, and nothing else. -/
theorem Keeping.served {n : Nat} (h : Keeping w) (hpc : w.pc = .recv) (hpos : 0 < n)
    (hlen : n ≤ w.stream.length) : ∃ msgs msg, w.asked = msgs ++ [msg] ∧
      w.results = msgs.map (answer w.groups_) ∧ w.served = w.asked.length ∧
      w.stream = answer w.groups_ msg := by
  obtain ⟨msgs, msg, hasked, hresults, ⟨_, hnil⟩ | ⟨hs, hstream, _⟩⟩ := h.during hpc
  · rw [hnil, List.length_nil] at hlen
    omega
  · exact ⟨msgs, msg, hasked, hresults, hs, hstream⟩

theorem Keeping.call (h : Keeping w) (hpc : w.pc = .idle) (param1 param2 : UInt32) (result : Int) :
    Keeping (w.call ⟨0, param1, param2⟩ result) := by
  obtain ⟨hresults, hserved, hnil⟩ := h.between (by rw [hpc]; decide)
  unfold Session.call
  split
  · exact {
      gets := h.gets
      inside := h.inside
      between := fun _ => ⟨hresults, hserved, hnil⟩
      during := fun hpc => by cases hpc }
  · exact {
      gets := fun msg hm => (List.mem_append.mp hm).elim (h.gets msg) fun hm => by
        rw [List.mem_singleton.mp hm]
      inside := h.inside
      between := fun hpc => absurd rfl hpc
      during := fun _ => ⟨w.asked, _, rfl, hresults, Or.inl ⟨hserved, hnil⟩⟩ }

theorem Keeping.step (h : Keeping w) (hok : wholeReplies w a) (hstep : w.step a = some w') :
    Keeping w' := by
  rcases step_cases hstep with ⟨param1, param2, result, rfl, hpc, rfl⟩ |
    ⟨memory, msg, rfl, hmsg, rfl⟩ | ⟨n, memory, rfl, hpc, hpos, hle, hlen, rfl⟩ |
    ⟨errno, memory, rfl, _⟩
  · exact h.call hpc param1 param2 result
  · obtain ⟨msgs, hpc, hasked, hresults, hserved, hnil⟩ := h.unserved hmsg
    have hget : msg.command = 0 := h.gets msg (List.mem_of_getElem? hmsg)
    exact {
      gets := h.gets
      inside := h.inside
      between := fun hne => absurd hpc hne
      during := fun _ => ⟨msgs, msg, hasked, hresults, Or.inr ⟨by
          rw [hasked, hserved, List.length_append, List.length_singleton],
        by rw [hnil, sentBytes_handle w.groups_ w.fd hget, List.nil_append], hok msg hmsg⟩⟩ }
  · obtain ⟨msgs, msg, hasked, hresults, hserved, hstream⟩ := h.served hpc hpos hlen
    obtain ⟨hn, hlt, hnul⟩ := hok msg (by rw [hasked, List.getLast?_concat])
    have hall : w.stream.take n = answer w.groups_ msg := by rw [hstream, hn, List.take_length]
    exact {
      gets := h.gets
      inside := fun i hi => (List.mem_append.mp hi).elim (h.inside i) fun hi => by
        rw [List.mem_singleton.mp hi]
        omega
      between := fun _ => ⟨by
          show w.results ++ [cString (w.stream.take n)] = w.asked.map (answer w.groups_)
          rw [hall, cString_eq_iff.mpr hnul, hresults, hasked, List.map_append, List.map_singleton],
        hserved, by
          show w.stream.drop n = []
          rw [hstream, hn, List.drop_length]⟩
      during := fun hpc => by cases hpc }
  · exact hok.elim

theorem Keeping.broken (h : Keeping w) (hok : ¬ wholeReplies w a) (hstep : w.step a = some w') :
    Broken w' := by
  rcases step_cases hstep with ⟨param1, param2, result, rfl, _⟩ | ⟨memory, msg, rfl, hmsg, rfl⟩ |
    ⟨n, memory, rfl, hpc, hpos, hle, hlen, rfl⟩ | ⟨errno, memory, rfl, hpc, rfl⟩
  · exact absurd trivial hok
  · obtain ⟨msgs, hpc, hasked, hresults, hserved, hnil⟩ := h.unserved hmsg
    have hget : msg.command = 0 := h.gets msg (List.mem_of_getElem? hmsg)
    have hempty : answer w.groups_ msg = [] := by
      by_contra hne
      refine hok fun msg' hmsg' => ?_
      rw [hmsg, Option.some.injEq] at hmsg'
      rwa [← hmsg']
    refine .waits hpc ?_ ?_
    · show w.served + 1 = w.asked.length
      rw [hasked, hserved, List.length_append, List.length_singleton]
    · show w.stream ++ _ = []
      rw [hnil, sentBytes_handle w.groups_ w.fd hget, hempty, List.append_nil]
  · obtain ⟨msgs, msg, hasked, hresults, hserved, hstream⟩ := h.served hpc hpos hlen
    have hlast : w.asked.getLast? = some msg := by rw [hasked, List.getLast?_concat]
    by_cases hlt : n < BUFFER_SIZE
    · refine .result msgs.length (cString (w.stream.take n)) msg ?_ ?_ fun heq => ?_
      · show (w.results ++ [_])[msgs.length]? = _
        rw [hresults, ← List.length_map (answer w.groups_), List.getElem?_concat_length]
      · show w.asked[msgs.length]? = _
        rw [hasked, List.getElem?_concat_length]
      -- a string as long as the reply is all of it, and has no NUL
      · have heq : cString (w.stream.take n) = answer w.groups_ msg := heq
        have hn : n = (answer w.groups_ msg).length := by
          have := length_cString_le (w.stream.take n)
          rw [heq, List.length_take] at this
          rw [hstream] at hlen
          omega
        rw [hstream, hn, List.take_length, cString_eq_iff] at heq
        refine hok fun msg' hmsg' => ?_
        rw [hlast, Option.some.injEq] at hmsg'
        rw [← hmsg']
        exact ⟨hn, hlt, heq⟩
    · refine .outside (n : Int) (List.mem_append_right _ (List.mem_singleton_self _)) ?_
      omega
  · refine .outside (-1) (List.mem_append_right _ (List.mem_singleton_self _)) ?_
    omega

/-- Nothing is taken back. -/
theorem step_grows (h : w.step a = some w') : w'.groups_ = w.groups_ ∧ w.results <+: w'.results ∧
    w.asked <+: w'.asked ∧ w.written ⊆ w'.written := by
  rcases step_cases h with ⟨param1, param2, result, _, _, rfl⟩ | ⟨memory, msg, _, _, rfl⟩ |
    ⟨n, memory, _, _, _, _, _, rfl⟩ | ⟨errno, memory, _, _, rfl⟩
  · unfold Session.call
    split
    · exact ⟨rfl, List.prefix_rfl, List.prefix_rfl, List.Subset.refl _⟩
    · exact ⟨rfl, List.prefix_rfl, List.prefix_append _ _, List.Subset.refl _⟩
  · exact ⟨rfl, List.prefix_rfl, List.prefix_rfl, List.Subset.refl _⟩
  · exact ⟨rfl, List.prefix_append _ _, List.prefix_rfl, List.subset_append_left _ _⟩
  · exact ⟨rfl, List.prefix_append _ _, List.prefix_rfl, List.subset_append_left _ _⟩

theorem Broken.step (h : Broken w) (hstep : w.step a = some w') : Broken w' := by
  obtain ⟨hgroups, hresults, hasked, hwritten⟩ := step_grows hstep
  cases h with
  | result i result msg hr hm hne =>
    exact .result i result msg (getElem?_mono hresults hr) (getElem?_mono hasked hm)
      (by rwa [hgroups])
  | outside i hi ho => exact .outside i (hwritten hi) ho
  | waits hpc hserved hnil =>
    rcases step_cases hstep with ⟨_, _, _, _, hidle, _⟩ | ⟨memory, msg, _, hmsg, _⟩ |
      ⟨n, memory, _, _, hpos, _, hlen, _⟩ | ⟨errno, memory, _, _, rfl⟩
    · rw [hpc] at hidle
      cases hidle
    · have := (List.getElem?_eq_some_iff.mp hmsg).1
      omega
    · rw [hnil, List.length_nil] at hlen
      omega
    · refine .outside (-1) (List.mem_append_right _ (List.mem_singleton_self _)) ?_
      omega

end Steps

/-! ## 3. The result -/

/-- A session is right if and only if each reply has between 1 and 1023 bytes, none of them NUL, and
    each recv returns the whole of one. -/
theorem round_trip_iff {groups_ : Groups} {fd : Nat} {as : List SessionAction} {w : Session}
    (hrun : Run Session.step (fun _ _ => True) (.init groups_ fd) as w) :
    Right w ↔ Run Session.step wholeReplies (.init groups_ fd) as w :=
  hrun.good_iff (keeping_init groups_ fd) (fun _ _ _ h hok hstep => h.step hok hstep)
    (fun _ _ _ h hok hstep => h.broken hok hstep) (fun _ _ _ h hstep => h.step hstep)
    (fun _ h => h.right) (fun _ h => h.not_right)

/-- A table in which every student has one name. -/
def allNamed (name : List UInt8) : Groups := fun _ => some fun _ => some name

/-- The request for a name of one byte, and its reply. -/
theorem round_trip_oneByte : ∃ w, Run Session.step (fun _ _ => True) (.init (allNamed [65]) 4)
      [.send_message 7 8 12, .serve [], .recv (.ok 1) []] w ∧ w.results = [[65]] ∧ Right w := by
  have hrun : Run Session.step (fun _ _ => True) (.init (allNamed [65]) 4)
      [.send_message 7 8 12, .serve [], .recv (.ok 1) []] _ :=
    .cons trivial rfl (.cons trivial rfl (.cons trivial rfl (.nil _)))
  refine ⟨_, hrun, rfl, (round_trip_iff hrun).mpr ?_⟩
  refine .cons trivial rfl (.cons ?_ rfl (.cons ?_ rfl (.nil _)))
  · exact fun _ _ => List.cons_ne_nil _ _
  · exact fun _ _ => ⟨rfl, by decide, show (0 : UInt8) ∉ [65] by decide⟩

/-- The table of one group with one student, who has no name. -/
def nameless : Groups := fun group_id =>
  if group_id = 7 then some fun student_id => if student_id = 8 then some [] else none else none

/-- The server sends nothing for this student, and the client waits for ever. -/
theorem empty_name_waits :
    ¬ ∀ w, Run Session.step (fun _ _ => True) (.init nameless 4)
      [.send_message 7 8 12, .serve []] w → Right w := by
  intro h
  have hrun : Run Session.step (fun _ _ => True) (.init nameless 4)
      [.send_message 7 8 12, .serve []] _ := .cons trivial rfl (.cons trivial rfl (.nil _))
  exact (h _ hrun).answered rfl rfl rfl

end Ece358.GroupServer
