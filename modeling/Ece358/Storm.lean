/-
  File:      Ece358/Storm.lean
  Subject:   Acknowledgements that are answered with acknowledgements.

  A has finished its sends and has entered recv, B is still in finalizeRecv for the last of them.
  Both loops answer every datagram without looking at it, so what is in flight when this starts
  stays in flight. The one datagram that they pass over is an empty one, where errno still says
  "timed out": recv goes on without an answer, and finalizeRecv ends.

  * `afterSends` -- the steps from A's recv on: no call but B's recvs, and else anything;
  * `Waiting` -- the invariant of these states: markers and acknowledgements towards B,
    acknowledgements towards A;
  * `exchange` -- a datagram is received, and nothing else happens;
  * `Exchanged` -- what such a step does, datagram by datagram;
  * `Storm`, `Storm.next` -- the states whose exchange goes on for ever;
  * `Silent`, `Returning` -- those in which nothing is answered, and those in which B returns;
  * `exchange_finite_iff` -- the exchange is finite in these, and in no others.
-/
import Ece358.Errno
import Ece358.OneWay
import Mathlib.Data.Prod.Lex

namespace Ece358.Rcs

open Lib MsgT

/-! ## 1. The states -/

/-- The steps behind A's recv: A makes no other call, B makes recv calls only. -/
def afterSends (_ : Net) : Side × Act → Prop
  | (.A, .call _) => False
  | (.B, .call (.send _)) => False
  | _ => True

/-- One endpoint receives, and nothing else happens. -/
def exchange (_ : Threads) : Side × Act → Prop
  | (_, .receive _) => True
  | _ => False

/-- A datagram that a receive loop does not take for a timeout. -/
def Answered (errno : Errno) (d : List UInt8) : Prop := d ≠ [] ∨ errno ≠ .EAGAIN

instance (errno : Errno) (d : List UInt8) : Decidable (Answered errno d) :=
  inferInstanceAs (Decidable (_ ∨ _))

/-- Nothing in flight will be answered; or an empty datagram is on its way to B that will end its
    finalizeRecv, and there is something for B's recv to return. -/
def DiesOut (t : Threads) : Prop :=
  ((∀ d ∈ t.net.ab, ¬ Answered t.errnoB d) ∧ ∀ d ∈ t.net.ba, ¬ Answered t.errnoA d) ∨
    (t.errnoB = .EAGAIN ∧ [] ∈ t.net.ab ∧ t.net.b.sock.buffer_.empty = false)

/-- A waits in recv for a message that nobody sends; what is left over is on its way. -/
structure Waiting (n : Net) (ms ns : List MsgT) : Prop where
  openA : Open n.a.sock
  openB : Open n.b.sock
  recvA : ∃ L, n.a.pc = .recvLoop L
  notSending : n.b.pc.sending = false
  settled : Settled n.b.pc
  ab : Carries n.ab ms
  ba : Carries n.ba ns
  controls : ∀ m ∈ ms, IsControl m
  onlyAcks : ∀ m ∈ ns, IsAck m

def WaitingAt (n : Net) : Prop := ∃ ms ns, Waiting n ms ns

section Waiting

variable {n : Net} {ms ns : List MsgT} {a' b' : Endpoint} {ab' ba' : List (List UInt8)} {act : Act}

theorem IsAck.isControl {m : MsgT} (h : IsAck m) : IsControl m := by
  obtain ⟨v, hv⟩ := h
  exact ⟨v, Or.inr hv⟩

theorem IsControl.length {m : MsgT} (h : IsControl m) : m.length = 0 := by
  obtain ⟨v, rfl | rfl⟩ := h <;> rfl

/-- A receiver that gets an acknowledgement stays where it is. -/
theorem recvLoop_ack {s : RcsT} {d : List UInt8} {m : MsgT} (h : Open s) (hd : SentAs d m)
    (hm : IsAck m) (L : Nat) (e : Errno) (src : SockaddrIn) :
    (resume s (.recvLoop L) (.datagram e d src)).pc = .recvLoop L := by
  have heos : m.hasFlag EOS = false := by
    obtain ⟨v, rfl⟩ := hm
    rw [hasFlag_control]
    rfl
  rcases recvLoop_cases h hd L e src with
    ⟨_, _, hr⟩ | ⟨_, hr⟩ | ⟨_, _, _, hr⟩ | ⟨_, _, he, _⟩ | ⟨_, _, he, _⟩
  · exact congrArg Res.pc hr
  · exact congrArg Res.pc hr
  · exact congrArg Res.pc hr
  · rw [heos] at he
    cases he
  · rw [heos] at he
    cases he

/-- A datagram makes a blocked recv send acknowledgements only. -/
theorem receives_waiting {s : RcsT} {pc : Pc} {d : List UInt8} {m : MsgT} (h : Open s)
    (hd : SentAs d m) (hp : pc.receiving = true) (hs : Settled pc) (e : Errno) (src : SockaddrIn) :
    Receives (resume s pc (.datagram e d src)) := by
  cases pc with
  | recvLoop L => exact receives_recvLoop h hd L e src
  | finalizeRecv L ack response => exact receives_finalizeRecv h hd hs.1 hs.2 L e src
  | _ => cases hp

/-- B goes on in its recv. -/
theorem Waiting.receiver (h : Waiting n ms ns) {r : Res} (hr : Receives r) {ms' : List MsgT}
    (hab : Carries ab' ms') (hsub : ∀ m ∈ ms', m ∈ ms) :
    Waiting ⟨n.a, n.b.went [] r, ab', n.ba ++ r.datagrams⟩ ms' (ns ++ r.messages) :=
  { h with
    openB := hr.isOpen
    notSending := hr.notSending
    settled := hr.settled
    ab := hab
    ba := h.ba.sent fun m hm => (hr.messages m hm).built
    controls := fun m hm => h.controls m (hsub m hm)
    onlyAcks := fun m hm => (List.mem_append.mp hm).elim (h.onlyAcks m) (hr.messages m) }

theorem Waiting.stepA (h : Waiting n ms ns) (hok : afterSends n (.A, act))
    (hact : Acts n.a n.ab n.ba act a' ab' ba') : WaitingAt ⟨a', n.b, ab', ba'⟩ := by
  obtain ⟨L, hpc⟩ := h.recvA
  cases hact with
  | call c hp => exact hok.elim
  | timeout hp ht =>
    have hr : resume n.a.sock n.a.pc (.error .EAGAIN) = ⟨n.a.sock, [], .recvLoop L⟩ := by
      rw [hpc]
      exact recvPass_timeout h.openA L
    rw [hr]
    exact ⟨ms, ns, { h with recvA := ⟨L, rfl⟩, ab := (List.append_nil n.ab).symm ▸ h.ab }⟩
  | receive e d inc' hp hinc =>
    have hba := h.ba
    rw [hinc] at hba
    obtain ⟨m, ns', hd, hba', rfl⟩ := List.forall₂_cons_left_iff.mp hba
    have hm := h.onlyAcks m List.mem_cons_self
    have hrecv := receives_recvLoop h.openA hd L e n.a.sock.endPoint_
    have hstay := recvLoop_ack h.openA hd hm L e n.a.sock.endPoint_
    rw [hpc]
    exact ⟨_, ns',
      { h with
        openA := hrecv.isOpen
        recvA := ⟨L, hstay⟩
        ab := h.ab.sent fun m hm => (hrecv.messages m hm).built
        ba := hba'
        controls := fun m hm =>
          (List.mem_append.mp hm).elim (h.controls m) fun hm => (hrecv.messages m hm).isControl
        onlyAcks := fun m hm => h.onlyAcks m (List.mem_cons_of_mem _ hm) }⟩
  | lose i hi =>
    exact ⟨ms.eraseIdx i, ns,
      { h with
        ab := carries_lose h.ab i
        controls := fun m hm => h.controls m ((List.eraseIdx_sublist _ _).subset hm) }⟩
  | cut i k d hd hk => exact ⟨ms, ns, { h with ab := h.ab.cut hd k }⟩

theorem Waiting.stepB (h : Waiting n ms ns) (hok : afterSends n (.B, act))
    (hact : Acts n.b n.ba n.ab act b' ba' ab') : WaitingAt ⟨n.a, b', ab', ba'⟩ := by
  cases hact with
  | call c hp =>
    cases c with
    | send data => exact hok.elim
    | recv L =>
      rw [recv_start h.openB]
      exact ⟨ms, ns, { h with openB := h.openB.recvStarted, notSending := rfl, settled := trivial,
                              ba := (List.append_nil n.ba).symm ▸ h.ba }⟩
  | timeout hp ht =>
    have hr := (sending_or_receiving hp).resolve_left (by simp [h.notSending])
    have hsettled := h.settled
    cases hpc : n.b.pc with
    | recvLoop L =>
      have hres : resume n.b.sock (.recvLoop L) (.error .EAGAIN) = ⟨n.b.sock, [], .recvLoop L⟩ :=
        recvPass_timeout h.openB L
      rw [hres]
      exact ⟨ms, ns, { h with notSending := rfl, settled := trivial,
                              ba := (List.append_nil n.ba).symm ▸ h.ba }⟩
    | finalizeRecv L ack response =>
      rw [finalize_timeout h.openB]
      exact ⟨ms, _, h.receiver (receives_finalizeEnd h.openB L) h.ab fun _ hm => hm⟩
    | _ => rw [hpc] at hr; cases hr
  | receive e d inc' hp hinc =>
    have hr := (sending_or_receiving hp).resolve_left (by simp [h.notSending])
    have hab := h.ab
    rw [hinc] at hab
    obtain ⟨m, ms', hd, hab', rfl⟩ := List.forall₂_cons_left_iff.mp hab
    exact ⟨ms', _, h.receiver (receives_waiting h.openB hd hr h.settled e _) hab' fun x hx =>
      List.mem_cons_of_mem _ hx⟩
  | lose i hi =>
    exact ⟨ms, ns.eraseIdx i,
      { h with
        ba := carries_lose h.ba i
        onlyAcks := fun m hm => h.onlyAcks m ((List.eraseIdx_sublist _ _).subset hm) }⟩
  | cut i k d hd hk => exact ⟨ms, ns, { h with ba := h.ba.cut hd k }⟩

theorem WaitingAt.step {n' : Net} {act : Side × Act} (h : WaitingAt n) (hok : afterSends n act)
    (hs : n.step act = some n') : WaitingAt n' := by
  obtain ⟨ms, ns, h⟩ := h
  obtain ⟨a', b', ab', ba'⟩ := n'
  obtain ⟨side, act⟩ := act
  cases side with
  | A =>
    obtain ⟨hact, rfl⟩ := stepA_acts hs
    exact h.stepA hok hact
  | B =>
    obtain ⟨hact, rfl⟩ := stepB_acts hs
    exact h.stepB hok hact

/-- A enters recv when its last send has returned. -/
theorem waiting_of_recv {n' : Net} {L : Nat} (h : OneWayAt n)
    (hs : n.step (.A, .call (.recv L)) = some n') : WaitingAt n' := by
  obtain ⟨done, D, K, c, old, ks, ms, h⟩ := h
  obtain ⟨a', b', ab', ba'⟩ := n'
  obtain ⟨hact, rfl⟩ := stepA_acts hs
  cases hact with
  | call _ hp =>
    have hab := h.ab
    rw [h.dir.ksDone (h.dir.sender.done (not_sending_of_idle hp)), List.map_nil,
      List.append_nil] at hab
    rw [recv_start h.dir.openA]
    refine ⟨old, ms, ?_⟩
    refine
      { openA := h.dir.openA.recvStarted
        openB := h.dir.openB
        recvA := ⟨L, rfl⟩
        notSending := h.notSending
        settled := ?_
        ab := by
          show Carries (n.ab ++ []) old
          rwa [List.append_nil]
        ba := h.ba
        controls := h.dir.oldControl
        onlyAcks := h.onlyAcks }
    have hdir := h.dir
    show Settled n.b.pc
    cases hpc : n.b.pc with
    | finalizeRecv L ack response =>
      rw [hpc] at hdir
      exact hdir.finalizing_between.2
    | _ => trivial

end Waiting

/-! ## 2. One exchange -/

section Loops

variable {s : RcsT} {pc : Pc} {d : List UInt8} {m : MsgT} {e : Errno} {src : SockaddrIn}

/-- A message without data leaves an empty buffer empty, and no other. -/
theorem queue_control (hm : IsControl m) (s : RcsT) :
    (queue s m).buffer_.empty = s.buffer_.empty := by
  show (s.buffer_.totalSize_ + m.length.toNat == 0) = _
  rw [hm.length]
  rfl

/-- Both loops answer a control message, and go on. -/
theorem control_answered (h : Open s) (hd : SentAs d m) (hm : IsControl m)
    (hp : pc.receiving = true) (hs : Settled pc) (ha : Answered e d) :
    let r := resume s pc (.datagram e d src)
    r.messages ≠ [] ∧ r.pc.receiving = true ∧ (pc.finalizing = true → r.pc.finalizing = true) ∧
      r.sock.buffer_.empty = s.buffer_.empty := by
  intro r
  cases pc with
  | recvLoop L =>
    have hgo : ∀ s' out pc', r = ⟨s', out, pc'⟩ → (⟨s', out, pc'⟩ : Res).messages ≠ [] →
        pc'.receiving = true → s'.buffer_.empty = s.buffer_.empty →
        r.messages ≠ [] ∧ r.pc.receiving = true ∧
          (Pc.finalizing (.recvLoop L) = true → r.pc.finalizing = true) ∧
          r.sock.buffer_.empty = s.buffer_.empty := by
      intro s' out pc' hr hmsg hpc hb
      rw [hr]
      exact ⟨hmsg, hpc, fun hf => absurd hf Bool.false_ne_true, hb⟩
    rcases recvLoop_cases h hd L e src with
      ⟨hd0, he, _⟩ | ⟨_, hr⟩ | ⟨_, _, _, hr⟩ | ⟨_, _, _, hr⟩ | ⟨_, _, _, hr⟩
    · exact absurd ha (not_or.mpr ⟨not_not_intro hd0, not_not_intro he⟩)
    · exact hgo _ _ _ hr (List.cons_ne_nil _ _) rfl rfl
    · exact hgo _ _ _ hr (List.cons_ne_nil _ _) rfl (queue_control hm _)
    · exact hgo _ _ _ hr (List.cons_ne_nil _ _) rfl (queue_control hm _)
    · exact hgo _ _ _ hr (List.cons_ne_nil _ _) rfl rfl
  | finalizeRecv L ack response =>
    rcases finalize_cases h hd.noFinHere hs.2 L ack e src with
      ⟨hend, _⟩ | ⟨_, _, response', _, hr⟩
    · rcases hend with ⟨hd0, he⟩ | ⟨_, hstarts⟩
      · exact absurd ha (not_or.mpr ⟨not_not_intro hd0, not_not_intro he⟩)
      · rw [startsNext_of_length_zero hm.length hd.isPrefix] at hstarts
        cases hstarts
    · rw [show r = _ from hr]
      exact ⟨List.cons_ne_nil _ _, rfl, fun _ => rfl, rfl⟩
  | _ => cases hp

/-- An empty datagram that passes for a timeout ends finalizeRecv. -/
theorem finalize_empty (h : Open s) (L : Nat) (ack response : MsgT) :
    resume s (.finalizeRecv L ack response) (.datagram .EAGAIN [] src) =
      ({ s with fromEndpoint_ := src } : RcsT).finalizeEnd L := by
  show s.finalizePass L ack response (.datagram .EAGAIN [] src) = _
  simp [RcsT.finalizePass, rawrecv_empty h, RcsT.errnoResult, Res.after]

/-- What they take for a timeout they do not answer: recv goes on, and finalizeRecv ends. -/
theorem silent_unanswered (h : Open s) (hp : pc.receiving = true) (ha : ¬ Answered e d) :
    let r := resume s pc (.datagram e d src)
    r.messages = [] ∧
      (s.buffer_.empty = true → r.pc.receiving = true ∧ r.sock.buffer_.empty = true) ∧
      (pc.finalizing = true → s.buffer_.empty = false → r.pc.idle = true) := by
  intro r
  obtain ⟨hd0, he⟩ := not_or.mp ha
  obtain rfl : d = [] := not_not.mp hd0
  obtain rfl : e = .EAGAIN := not_not.mp he
  cases pc with
  | recvLoop L =>
    have hr : r = ⟨{ s with fromEndpoint_ := src }, [], .recvLoop L⟩ := recvPass_empty h L
    rw [hr]
    exact ⟨rfl, fun hb => ⟨rfl, hb⟩, fun hf => absurd hf Bool.false_ne_true⟩
  | finalizeRecv L ack response =>
    rcases finalizeEnd_cases (h.from src) L with ⟨hb, hend⟩ | ⟨hb, hend⟩ <;>
      rw [show r = _ from (finalize_empty h L ack response).trans hend]
    · exact ⟨rfl, fun _ => ⟨rfl, hb⟩, fun _ hb' => absurd (hb.symm.trans hb') Bool.noConfusion⟩
    · exact ⟨rfl, fun hb' => absurd (hb.symm.trans hb') Bool.noConfusion, fun _ _ => rfl⟩
  | _ => cases hp

end Loops

/-- What comes out of a loop that has received `d`: whole datagrams, if it answers `d`, and only
    then. -/
structure Replies (errno : Errno) (d : List UInt8) (out : List (List UInt8)) : Prop where
  whole : ∀ x ∈ out, x ≠ []
  some_iff : out ≠ [] ↔ Answered errno d

/-- What an exchange does: one side takes the oldest datagram of its channel. -/
inductive Exchanged (t : Threads) : Threads → Prop where
  | atA (d : List UInt8) (ba' out : List (List UInt8)) (a' : Endpoint)
      (hba : t.net.ba = d :: ba') (hout : Replies t.errnoA d out) :
      Exchanged t ⟨⟨a', t.net.b, t.net.ab ++ out, ba'⟩, t.errnoA, t.errnoB⟩
  | atB (d : List UInt8) (ab' out : List (List UInt8)) (b' : Endpoint)
      (hab : t.net.ab = d :: ab') (hp : t.net.b.pc.receiving = true)
      (hout : Replies t.errnoB d out)
      (hgoes : Answered t.errnoB d → b'.pc.receiving = true ∧
        (t.net.b.pc.finalizing = true → b'.pc.finalizing = true) ∧
        b'.sock.buffer_.empty = t.net.b.sock.buffer_.empty)
      (hends : ¬ Answered t.errnoB d →
        (t.net.b.sock.buffer_.empty = true →
          b'.pc.receiving = true ∧ b'.sock.buffer_.empty = true) ∧
        (t.net.b.pc.finalizing = true → t.net.b.sock.buffer_.empty = false → b'.pc.idle = true)) :
      Exchanged t ⟨⟨t.net.a, b', ab', t.net.ba ++ out⟩, t.errnoA, t.errnoB⟩

section Exchange

variable {t t' : Threads} {d : List UInt8} {r : Res}

theorem Receives.replies (h : Receives r) {errno : Errno}
    (hsome : Answered errno d → r.messages ≠ [])
    (hnone : ¬ Answered errno d → r.messages = []) : Replies errno d r.datagrams where
  whole x hx := by
    obtain ⟨m, hm, rfl⟩ := List.mem_map.mp hx
    exact wire_ne_nil (h.messages m hm).built.1
  some_iff := by
    rw [Res.datagrams, ne_eq, List.map_eq_nil_iff]
    refine ⟨fun h => ?_, hsome⟩
    by_contra hno
    exact h (hnone hno)

theorem exchange_moved (h : WaitingAt t.net) (hstep : Step Threads.step exchange t t') :
    Exchanged t t' ∧ WaitingAt t'.net := by
  obtain ⟨⟨side, act⟩, hok, hstep⟩ := hstep
  have hnext : WaitingAt t'.net := by
    refine h.step ?_ (threads_net hstep)
    cases act <;> first | exact hok.elim | (cases side <;> trivial)
  refine ⟨?_, hnext⟩
  obtain ⟨ms, ns, h⟩ := h
  obtain ⟨⟨a', b', ab', ba'⟩, eA', eB'⟩ := t'
  cases act with
  | receive e =>
    cases side with
    | A =>
      obtain ⟨rfl, hstep, rfl, rfl⟩ := threadsA_moved hstep
      obtain ⟨hact, rfl⟩ := stepA_acts hstep
      obtain ⟨L, hpc⟩ := h.recvA
      cases hact with
      | receive _ d _ hp hinc =>
        have hba := h.ba
        rw [hinc] at hba
        obtain ⟨m, ns', hd, _, rfl⟩ := List.forall₂_cons_left_iff.mp hba
        have hm := (h.onlyAcks m List.mem_cons_self).isControl
        have hrecv := receives_recvLoop h.openA hd L t.errnoA t.net.a.sock.endPoint_
        have hr : Pc.receiving (.recvLoop L) = true := rfl
        have hs : Settled (.recvLoop L) := trivial
        rw [hpc]
        exact .atA d ba' _ _ hinc
          (hrecv.replies (fun ha => (control_answered h.openA hd hm hr hs ha).1)
            fun ha => (silent_unanswered h.openA hr ha).1)
    | B =>
      obtain ⟨rfl, hstep, rfl, rfl⟩ := threadsB_moved hstep
      obtain ⟨hact, rfl⟩ := stepB_acts hstep
      cases hact with
      | receive _ d _ hp hinc =>
        have hab := h.ab
        rw [hinc] at hab
        obtain ⟨m, ms', hd, _, rfl⟩ := List.forall₂_cons_left_iff.mp hab
        have hm := h.controls m List.mem_cons_self
        have hr := (sending_or_receiving hp).resolve_left (by simp [h.notSending])
        have hrecv := receives_waiting h.openB hd hr h.settled t.errnoB t.net.b.sock.endPoint_
        exact .atB d ab' _ _ hinc hr
          (hrecv.replies (fun ha => (control_answered h.openB hd hm hr h.settled ha).1)
            fun ha => (silent_unanswered h.openB hr ha).1)
          (fun ha => (control_answered h.openB hd hm hr h.settled ha).2)
          fun ha => (silent_unanswered h.openB hr ha).2
  | _ => exact hok.elim

/-- While anything is in flight, somebody can receive. -/
theorem exchange_exists (h : WaitingAt t.net) (hp : t.net.b.pc.receiving = true)
    (hflight : t.net.ab ≠ [] ∨ t.net.ba ≠ []) : ∃ t', Step Threads.step exchange t t' := by
  obtain ⟨ms, ns, h⟩ := h
  rcases hflight with hne | hne
  · obtain ⟨d, ab', hab⟩ := List.exists_cons_of_ne_nil hne
    have hidle : t.net.b.pc.idle = false := by
      cases hpc : t.net.b.pc <;> rw [hpc] at hp <;> first | rfl | cases hp
    exact ⟨_, (.B, .receive t.errnoB), trivial,
      Acts.threadsB (.receive t.errnoB d ab' hidle hab) rfl⟩
  · obtain ⟨d, ba', hba⟩ := List.exists_cons_of_ne_nil hne
    obtain ⟨L, hpc⟩ := h.recvA
    exact ⟨_, (.A, .receive t.errnoA), trivial,
      Acts.threadsA (.receive t.errnoA d ba' (by rw [hpc]; rfl) hba) rfl⟩

end Exchange

/-! ## 3. The storm -/

/-- Something in flight will be answered, and B will go on: it has nothing to return, or meets no
    datagram that ends its finalizeRecv. -/
structure Storm (t : Threads) : Prop where
  waiting : WaitingAt t.net
  receiving : t.net.b.pc.receiving = true
  stays : t.net.b.sock.buffer_.empty = true ∨
    (t.net.b.pc.finalizing = true ∧ (t.errnoB = .EAGAIN → [] ∉ t.net.ab))
  live : (∃ d ∈ t.net.ab, Answered t.errnoB d) ∨ ∃ d ∈ t.net.ba, Answered t.errnoA d

/-- Nothing in flight will be answered. -/
structure Silent (t : Threads) : Prop where
  waiting : WaitingAt t.net
  ab : ∀ d ∈ t.net.ab, ¬ Answered t.errnoB d
  ba : ∀ d ∈ t.net.ba, ¬ Answered t.errnoA d

/-- B has returned, or will at the first empty datagram that reaches it. -/
structure Returning (t : Threads) : Prop where
  waiting : WaitingAt t.net
  errno : t.errnoB = .EAGAIN
  returns : t.net.b.pc.idle = true ∨
    (t.net.b.pc.finalizing = true ∧ t.net.b.sock.buffer_.empty = false ∧ [] ∈ t.net.ab)

section Storm

variable {t t' : Threads} {d : List UInt8} {out : List (List UInt8)} {errno : Errno}

/-- What is answered leaves something that will be answered. -/
theorem Replies.live (h : Replies errno d out) (ha : Answered errno d) (errno' : Errno) :
    ∃ x ∈ out, Answered errno' x := by
  obtain ⟨x, out', rfl⟩ := List.exists_cons_of_ne_nil (h.some_iff.mpr ha)
  exact ⟨x, List.mem_cons_self, Or.inl (h.whole x List.mem_cons_self)⟩

theorem Replies.none (h : Replies errno d out) (ha : ¬ Answered errno d) : out = [] := by
  by_contra hne
  exact ha (h.some_iff.mp hne)

/-- An exchange leads from a storm to a storm. -/
theorem Storm.next (h : Storm t) (hstep : Step Threads.step exchange t t') : Storm t' := by
  obtain ⟨hmoved, hwait⟩ := exchange_moved h.waiting hstep
  cases hmoved with
  | atA d ba' out a' hba hout =>
    have hno : [] ∉ t.net.ab → [] ∉ t.net.ab ++ out := fun hno hmem =>
      (List.mem_append.mp hmem).elim hno fun hmem => hout.whole [] hmem rfl
    refine ⟨hwait, h.receiving, h.stays.imp_right fun ⟨hf, hn⟩ => ⟨hf, fun he => hno (hn he)⟩, ?_⟩
    by_cases ha : Answered t.errnoA d
    · obtain ⟨x, hx, hans⟩ := hout.live ha t.errnoB
      exact Or.inl ⟨x, List.mem_append_right _ hx, hans⟩
    · refine h.live.imp (fun ⟨x, hx, hans⟩ => ⟨x, List.mem_append_left _ hx, hans⟩) ?_
      rintro ⟨x, hx, hans⟩
      rw [hba] at hx
      exact ⟨x, (List.mem_cons.mp hx).resolve_left fun he => ha (he ▸ hans), hans⟩
  | atB d ab' out b' hab hp hout hgoes hends =>
    by_cases ha : Answered t.errnoB d
    · obtain ⟨hr, hf, hb⟩ := hgoes ha
      obtain ⟨x, hx, hans⟩ := hout.live ha t.errnoA
      refine ⟨hwait, hr, h.stays.imp hb.trans fun ⟨hfin, hno⟩ => ⟨hf hfin, fun he hmem => ?_⟩,
        Or.inr ⟨x, List.mem_append_right _ hx, hans⟩⟩
      exact hno he (hab ▸ List.mem_cons_of_mem _ hmem)
    · -- an empty datagram: B has nothing to return
      have hb : t.net.b.sock.buffer_.empty = true := by
        refine h.stays.resolve_right fun ⟨_, hno⟩ => ?_
        obtain ⟨hd, he⟩ := not_or.mp ha
        exact hno (not_not.mp he) (hab ▸ not_not.mp hd ▸ List.mem_cons_self)
      obtain ⟨hr, hb'⟩ := (hends ha).1 hb
      refine ⟨hwait, hr, Or.inl hb', ?_⟩
      refine h.live.imp ?_ fun ⟨x, hx, hans⟩ => ⟨x, List.mem_append_left _ hx, hans⟩
      rintro ⟨x, hx, hans⟩
      rw [hab] at hx
      exact ⟨x, (List.mem_cons.mp hx).resolve_left fun he => ha (he ▸ hans), hans⟩

/-- A storm goes on for ever. -/
theorem Storm.endless (h : Storm t) : Endless (Step Threads.step exchange) t := by
  refine endless_of_invariant (I := Storm) h fun t h => ?_
  have hflight : t.net.ab ≠ [] ∨ t.net.ba ≠ [] :=
    h.live.imp (fun ⟨_, hd, _⟩ => List.ne_nil_of_mem hd) fun ⟨_, hd, _⟩ => List.ne_nil_of_mem hd
  obtain ⟨t', hstep⟩ := exchange_exists h.waiting h.receiving hflight
  exact ⟨t', hstep, h.next hstep⟩

/-- Where nothing is answered, every exchange takes a datagram out of flight. -/
theorem Silent.next (h : Silent t) (hstep : Step Threads.step exchange t t') : Silent t' ∧
    t'.net.ab.length + t'.net.ba.length < t.net.ab.length + t.net.ba.length := by
  obtain ⟨hmoved, hwait⟩ := exchange_moved h.waiting hstep
  cases hmoved with
  | atA d ba' out a' hba hout =>
    obtain rfl := hout.none (h.ba d (hba ▸ List.mem_cons_self))
    refine ⟨⟨hwait, ?_, fun x hx => h.ba x (hba ▸ List.mem_cons_of_mem _ hx)⟩, ?_⟩
    · rw [List.append_nil]
      exact h.ab
    · dsimp only
      rw [hba, List.append_nil, List.length_cons]
      omega
  | atB d ab' out b' hab hp hout =>
    obtain rfl := hout.none (h.ab d (hab ▸ List.mem_cons_self))
    refine ⟨⟨hwait, fun x hx => h.ab x (hab ▸ List.mem_cons_of_mem _ hx), ?_⟩, ?_⟩
    · rw [List.append_nil]
      exact h.ba
    · dsimp only
      rw [hab, List.append_nil, List.length_cons]
      omega

/-- How many datagrams B will receive before it returns, and how many are on their way to A. -/
def returnRank (t : Threads) : Nat ×ₗ Nat :=
  toLex (if t.net.b.pc.idle then 0 else t.net.ab.idxOf [] + 1, t.net.ba.length)

/-- B gets nearer to its return with all that it receives, and A has less to receive till then. -/
theorem Returning.next (h : Returning t) (hstep : Step Threads.step exchange t t') :
    Returning t' ∧ returnRank t' < returnRank t := by
  obtain ⟨hmoved, hwait⟩ := exchange_moved h.waiting hstep
  cases hmoved with
  | atA d ba' out a' hba hout =>
    refine ⟨⟨hwait, h.errno, h.returns.imp_right fun ⟨hf, hb, hmem⟩ =>
      ⟨hf, hb, List.mem_append_left _ hmem⟩⟩, Prod.Lex.toLex_lt_toLex.mpr (Or.inr ⟨?_, ?_⟩)⟩
    · dsimp only
      split
      · rfl
      next hidle =>
        rw [List.idxOf_append_of_mem (h.returns.resolve_left hidle).2.2]
    · dsimp only
      rw [hba, List.length_cons]
      exact Nat.lt_succ_self _
  | atB d ab' out b' hab hp hout hgoes hends =>
    have hidle : ¬ t.net.b.pc.idle = true := fun hi => by
      rw [not_receiving_of_idle hi] at hp
      cases hp
    obtain ⟨hf, hb, hmem⟩ := h.returns.resolve_left hidle
    unfold returnRank
    rw [if_neg hidle, hab]
    by_cases ha : Answered t.errnoB d
    · obtain ⟨hr, hf', hb'⟩ := hgoes ha
      have hd : d ≠ [] := ha.resolve_right (not_not_intro h.errno)
      have hidle' : ¬ b'.pc.idle = true := fun hi => by
        rw [not_receiving_of_idle hi] at hr
        cases hr
      refine ⟨⟨hwait, h.errno, Or.inr ⟨hf' hf, hb'.trans hb, ?_⟩⟩,
        Prod.Lex.toLex_lt_toLex.mpr (Or.inl ?_)⟩
      · rw [hab] at hmem
        exact (List.mem_cons.mp hmem).resolve_left fun he => hd he.symm
      · dsimp only
        rw [if_neg hidle', List.idxOf_cons_ne _ hd]
        exact Nat.lt_succ_self _
    · have hreturned := (hends ha).2 hf hb
      refine ⟨⟨hwait, h.errno, Or.inl hreturned⟩, Prod.Lex.toLex_lt_toLex.mpr (Or.inl ?_)⟩
      dsimp only
      rw [if_pos hreturned]
      exact Nat.succ_pos _

theorem waitingAt_of_reach {t0 t1 t2 : Threads} {L : Nat} (h0 : Connected t0.net)
    (h1 : Reach Threads.step (onNet oneWay) t0 t1)
    (hs : t1.step (.A, .call (.recv L)) = some t2)
    (h2 : Reach Threads.step (onNet afterSends) t2 t) : WaitingAt t.net :=
  (net_of_reach h2).invariant (waiting_of_recv (oneWayAt_of_reach h0 (net_of_reach h1))
    (threads_net hs)) fun _ _ _ hI hok hs => hI.step hok hs

end Storm

/-! ## 4. The result -/

/-- A in recv and B in finalizeRecv: no exchange goes on for ever, if and only if nothing in flight
    will be answered, or B returns at an empty datagram that it takes for a timeout. -/
theorem exchange_finite_iff {t0 t1 t2 t : Threads} {L N : Nat} {ack response : MsgT}
    (h0 : Connected t0.net) (h1 : Reach Threads.step (onNet oneWay) t0 t1)
    (hs : t1.step (.A, .call (.recv L)) = some t2)
    (h2 : Reach Threads.step (onNet afterSends) t2 t)
    (hB : t.net.b.pc = .finalizeRecv N ack response) :
    ¬ Endless (Step Threads.step exchange) t ↔ DiesOut t := by
  have hwait := waitingAt_of_reach h0 h1 hs h2
  have hf : t.net.b.pc.finalizing = true := by rw [hB]; rfl
  constructor
  · intro hfin
    by_contra hdies
    obtain ⟨hlive, hstays⟩ := not_or.mp hdies
    refine hfin (Storm.endless ⟨hwait, by rw [hB]; rfl, ?_, ?_⟩)
    · by_contra hno
      obtain ⟨hb, hend⟩ := not_or.mp hno
      refine hend ⟨hf, fun he hmem => hstays ⟨he, hmem, Bool.eq_false_iff.mpr hb⟩⟩
    · by_contra hno
      push Not at hno
      exact hlive hno
  · rintro (⟨hab, hba⟩ | ⟨he, hmem, hb⟩)
    · exact not_endless_of_descends (I := Silent) (fun t => t.net.ab.length + t.net.ba.length)
        ⟨hwait, hab, hba⟩ fun _ _ h hstep => h.next hstep
    · exact not_endless_of_descends (I := Returning) returnRank
        ⟨hwait, he, Or.inr ⟨hf, hb, hmem⟩⟩ fun _ _ h hstep => h.next hstep

/-- A sends a byte, its timer fires once, and the second copy of the marker is cut to nothing; B has
    waited in vain once, so that its errno says "timed out". -/
def cutToNothing : List (Side × Act) :=
  [(.A, .call (.send [97])), (.B, .call (.recv 4)), (.B, .timeout), (.B, .receive .EAGAIN),
   (.A, .receive (.other 0)), (.A, .timeout), (.A, .cut 1 0), (.B, .receive .EAGAIN),
   (.A, .receive .EAGAIN)]

theorem exchange_finite_cut : ∃ t1 t2, Reach Threads.step (onNet oneWay) .pair t1 ∧
    t1.step (.A, .call (.recv 16)) = some t2 ∧ t2.net.ab = [[]] ∧
    ¬ Endless (Step Threads.step exchange) t2 := by
  have hrun : ((exec Threads.step (onNet oneWay) .pair cutToNothing).bind fun t1 =>
      (t1.step (.A, .call (.recv 16))).map fun t2 =>
        (t2.net.ab, t2.net.ba, t2.net.b.pc, t2.errnoB, t2.net.b.sock.buffer_.empty)) =
      some ([[]], [], .finalizeRecv 4 (MsgT.control 1 ACK) default, .EAGAIN, false) := by
    decide +kernel
  obtain ⟨t1, h1, hrun⟩ := Option.bind_eq_some_iff.mp hrun
  obtain ⟨t2, h2, hres⟩ := Option.map_eq_some_iff.mp hrun
  simp only [Prod.mk.injEq] at hres
  obtain ⟨hab, hba, hpc, he, hb⟩ := hres
  refine ⟨t1, t2, reach_of_exec h1, h2, hab, ?_⟩
  refine (exchange_finite_iff connected_pair (reach_of_exec h1) h2
    Relation.ReflTransGen.refl hpc).mpr (Or.inr ⟨he, ?_, hb⟩)
  rw [hab]
  exact List.mem_singleton_self _

/-- The same, but the second copy is not cut. -/
def twiceMarked : List (Side × Act) :=
  [(.A, .call (.send [97])), (.B, .call (.recv 4)), (.B, .receive (.other 0)),
   (.A, .receive (.other 0)), (.A, .timeout), (.B, .receive (.other 0)), (.A, .receive .EAGAIN)]

/-- One left-over marker, and the two loops answer each other for ever. -/
theorem exchange_storm : ∃ t1 t2, Reach Threads.step (onNet oneWay) .pair t1 ∧
    t1.step (.A, .call (.recv 16)) = some t2 ∧
    (∃ N ack response, t2.net.b.pc = .finalizeRecv N ack response) ∧ t2.net.ab.length = 1 ∧
    t2.net.ba = [] ∧ Endless (Step Threads.step exchange) t2 := by
  have hrun : ((exec Threads.step (onNet oneWay) .pair twiceMarked).bind fun t1 =>
      (t1.step (.A, .call (.recv 16))).map fun t2 =>
        (t2.net.ab, t2.net.ba, t2.net.b.pc, t2.errnoB)) =
      some ([(MsgT.control 1 EOS).wire], [], .finalizeRecv 4 (MsgT.control 1 ACK) default,
        .other 0) := by
    decide +kernel
  obtain ⟨t1, h1, hrun⟩ := Option.bind_eq_some_iff.mp hrun
  obtain ⟨t2, h2, hres⟩ := Option.map_eq_some_iff.mp hrun
  simp only [Prod.mk.injEq] at hres
  obtain ⟨hab, hba, hpc, he⟩ := hres
  have hwait := waitingAt_of_reach connected_pair (reach_of_exec h1) h2 Relation.ReflTransGen.refl
  refine ⟨t1, t2, reach_of_exec h1, h2, ⟨_, _, _, hpc⟩, by rw [hab]; rfl, hba, ?_⟩
  refine Storm.endless ⟨hwait, by rw [hpc]; rfl, Or.inr ⟨by rw [hpc]; rfl, fun he' => ?_⟩,
    Or.inl ⟨_, hab ▸ List.mem_singleton_self _, Or.inr ?_⟩⟩
  · rw [he] at he'
    cases he'
  · rw [he]
    decide

end Ece358.Rcs
