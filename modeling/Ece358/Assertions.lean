/-
  File:      Ece358/Assertions.lean
  Subject:   The assertions of rcs, over all runs of a process.

  rawsend asserts that no empty message without flags goes out, the data constructor of msg_t that
  its data fits, and read that the buffer is not empty; read also takes what it has written off
  `totalSize_`. None of this can fail, whatever the user calls and whatever datagrams come, with
  the printing of packets compiled in or not.

  * `proceedChecks`, `apiStartChecks`, `apiResumeChecks` -- what a call of the user relies on;
  * `Proc.checks` -- what an action of a process relies on;
  * `Proc.InOrder` -- the invariant: every buffer counts at least what it holds, and a call that is
    blocked holds a message that can be sent;
  * `no_assertion_fires` -- the result.
-/
import Ece358.InOrder
import Ece358.Descriptors

namespace Ece358.Rcs

open Lib MsgT

/-! ## 1. What the calls rely on -/

/-- Behind its recv accept sends the port, and behind its send connect receives it. -/
def proceedChecks (inspect : Bool) (stage : Stage) (r : Res) : List Check :=
  match stage, r.pc with
  | .acceptRecv _ me, .returned _ => startChecks inspect r.sock (.send (portBytes me.sin_port))
  | .connectSend, .returned _ => startChecks inspect r.sock (.recv 16)
  | _, _ => []

def apiStartChecks (inspect : Bool) (s : RcsT) : ApiCall → List Check
  | .call c => startChecks inspect s c
  | .accept child me =>
    if s.isListenerSocket_ then
      let s' := { (s.setTimeout 0).1 with hasEndpoint_ := false }
      startChecks inspect s' (.recv 32) ++
        proceedChecks inspect (.acceptRecv child me) (start s' (.recv 32))
    else []
  | .connect addr =>
    let s' := s.setEndpoint addr
    startChecks inspect s' (.send connectRequest) ++
      proceedChecks inspect .connectSend (start s' (.send connectRequest))

def apiResumeChecks (inspect : Bool) (s : RcsT) (stage : Stage) (pc : Pc) (o : RecvFrom) :
    List Check :=
  resumeChecks inspect s pc o ++ proceedChecks inspect stage (resume s pc o)

namespace Proc

/-- A call on a number that names no socket returns at once. -/
def onSocketChecks (p : Proc) (sockfd : Nat) (checks : RcsT → List Check) : List Check :=
  match p.getSocket sockfd with
  | none => []
  | some s => checks s

def checks (inspect : Bool) (p : Proc) : ProcAct → List Check
  | .outcome o =>
    match p.busy with
    | none => []
    | some (id, stage, pc) => p.onSocketChecks id fun s => apiResumeChecks inspect s stage pc o
  | .call sockfd c => p.onSocketChecks sockfd fun s => apiStartChecks inspect s (.call c)
  | .connect sockfd addr =>
    p.onSocketChecks sockfd fun s => apiStartChecks inspect s (.connect addr)
  | .accept sockfd sockName bind =>
    p.onSocketChecks sockfd fun s =>
      let me := (mybind (lowestFree p.openFds) { sockName with sin_port := 0 } bind).2
      apiStartChecks inspect s (.accept p.sNextId me)
  | .close sockfd => p.onSocketChecks sockfd fun _ => checksOf inspect RcsT.closeUses
  | _ => []

/-- Every socket counts at least what it holds, and then the call in progress is in order. -/
structure InOrder (p : Proc) : Prop where
  counted : ∀ id s, p.getSocket id = some s → s.buffer_.Counted
  busy : ∀ id stage pc, p.busy = some (id, stage, pc) → pc.idle = false ∧
    ∀ s : RcsT, s.buffer_.Counted → Rcs.InOrder s pc

end Proc

/-! ## 2. A stretch of a call -/

/-- The stretch leaves its socket, and the call that is blocked on it, in order. -/
structure ApiRes.InOrder (r : ApiRes) : Prop where
  counted : r.sock.buffer_.Counted
  blocked : ∀ stage pc, r.pc = .blocked stage pc → Rcs.InOrder r.sock pc

section Calls

variable {inspect : Bool} {s : RcsT} {r : Res} {stage : Stage} {pc : Pc}

theorem validChecks_asserts (m : MsgT) : AllHold Check.isAssert m.validChecks := by
  unfold validChecks
  split
  · exact (allHold_uncounted rfl).mpr allHold_nil
  · exact allHold_nil

theorem printChecks_asserts (m : MsgT) : AllHold Check.isAssert m.printChecks := by
  unfold printChecks
  refine allHold_append.mpr ⟨validChecks_asserts m, ?_⟩
  split
  · exact (allHold_uncounted rfl).mpr ((allHold_uncounted rfl).mpr allHold_nil)
  · exact allHold_nil

theorem inspectChecks_asserts (inspect : Bool) (m : MsgT) :
    AllHold Check.isAssert (m.inspectChecks inspect) := by
  unfold inspectChecks
  split
  · exact printChecks_asserts m
  · exact allHold_nil

/-- No assertion fails in the start of a call, nor in what follows a receive. -/
theorem startChecks_asserts (h : s.buffer_.Counted) (c : Call) :
    AllHold Check.isAssert (startChecks inspect s c) :=
  (start_iff h c).mpr fun m _ => inspectChecks_asserts inspect m

theorem resumeChecks_asserts (h : Rcs.InOrder s pc) (hi : pc.idle = false) (o : RecvFrom) :
    AllHold Check.isAssert (resumeChecks inspect s pc o) :=
  (resume_iff h.counted h.sendable hi o).mpr
    ⟨messageChecks_hold validChecks_asserts (inspectChecks_asserts inspect) s pc o,
      fun m _ => inspectChecks_asserts inspect m⟩

theorem proceedChecks_asserts (h : r.sock.buffer_.Counted) (stage : Stage) :
    AllHold Check.isAssert (proceedChecks inspect stage r) := by
  unfold proceedChecks
  split
  · exact startChecks_asserts h _
  · exact startChecks_asserts h _
  · exact allHold_nil

theorem apiStartChecks_asserts (h : s.buffer_.Counted) (c : ApiCall) :
    AllHold Check.isAssert (apiStartChecks inspect s c) := by
  cases c with
  | call c => exact startChecks_asserts h c
  | connect addr =>
    have hs : (s.setEndpoint addr).buffer_.Counted := h
    exact allHold_append.mpr
      ⟨startChecks_asserts hs _, proceedChecks_asserts (inOrder_start hs _).counted _⟩
  | accept child me =>
    unfold apiStartChecks
    dsimp only
    split
    · have hs : ({ (s.setTimeout 0).1 with hasEndpoint_ := false } : RcsT).buffer_.Counted := h
      exact allHold_append.mpr
        ⟨startChecks_asserts hs _, proceedChecks_asserts (inOrder_start hs _).counted _⟩
    · exact allHold_nil

theorem apiResumeChecks_asserts (h : Rcs.InOrder s pc) (hi : pc.idle = false) (stage : Stage)
    (o : RecvFrom) : AllHold Check.isAssert (apiResumeChecks inspect s stage pc o) :=
  allHold_append.mpr
    ⟨resumeChecks_asserts h hi o, proceedChecks_asserts (h.resume hi o).counted stage⟩

theorem ApiRes.InOrder.after {r : ApiRes} (h : r.InOrder) (out : List ApiEvent) :
    (r.after out).InOrder := ⟨h.counted, h.blocked⟩

/-- A send or recv that is blocked, and the call that made it. -/
theorem inOrder_blocked (h : Rcs.InOrder r.sock r.pc) (hb : ∀ ret, r.pc ≠ .returned ret)
    (stage : Stage) : (proceed stage r).InOrder := by
  rw [proceed_blocked hb]
  refine ⟨h.counted, fun stage' pc hpc => ?_⟩
  cases hpc
  exact h

theorem acceptEnd_inOrder (h : Rcs.InOrder r.sock r.pc) (child : Nat) :
    (acceptEnd child r).InOrder := by
  cases hpc : r.pc with
  | returned ret =>
    unfold acceptEnd
    rw [hpc]
    exact ⟨h.counted, fun _ _ hb => by cases hb⟩
  | _ => exact inOrder_blocked h (by rw [hpc]; intro _ hr; cases hr) (.acceptSend child)

theorem connectEnd_inOrder (h : Rcs.InOrder r.sock r.pc) : (connectEnd r).InOrder := by
  cases hpc : r.pc with
  | returned ret =>
    unfold connectEnd
    rw [hpc]
    exact ⟨h.counted, fun _ _ hb => by cases hb⟩
  | _ => exact inOrder_blocked h (by rw [hpc]; intro _ hr; cases hr) .connectRecv

theorem proceed_inOrder (h : Rcs.InOrder r.sock r.pc) (stage : Stage) :
    (proceed stage r).InOrder := by
  cases stage with
  | acceptSend child => exact acceptEnd_inOrder h child
  | connectRecv => exact connectEnd_inOrder h
  | plain =>
    cases hpc : r.pc with
    | returned ret =>
      unfold proceed
      dsimp only
      rw [hpc]
      exact ⟨h.counted, fun _ _ hb => by cases hb⟩
    | _ => exact inOrder_blocked h (by rw [hpc]; intro _ hr; cases hr) .plain
  | acceptRecv child me =>
    cases hpc : r.pc with
    | returned ret =>
      show (acceptMid child me r).InOrder
      unfold acceptMid
      rw [hpc]
      exact (acceptEnd_inOrder (inOrder_start h.counted (.send _)) child).after _
    | _ => exact inOrder_blocked h (by rw [hpc]; intro _ hr; cases hr) (.acceptRecv child me)
  | connectSend =>
    cases hpc : r.pc with
    | returned ret =>
      show (connectMid r).InOrder
      unfold connectMid
      rw [hpc]
      exact (connectEnd_inOrder (inOrder_start h.counted (.recv 16))).after _
    | _ => exact inOrder_blocked h (by rw [hpc]; intro _ hr; cases hr) .connectSend

theorem apiStart_inOrder (h : s.buffer_.Counted) (c : ApiCall) : (apiStart s c).InOrder := by
  cases c with
  | call c => exact proceed_inOrder (inOrder_start h c) .plain
  | connect addr =>
    have hs : (s.setEndpoint addr).buffer_.Counted := h
    exact proceed_inOrder (inOrder_start hs (.send connectRequest)) .connectSend
  | accept child me =>
    unfold apiStart
    dsimp only
    split
    · have hs : ({ (s.setTimeout 0).1 with hasEndpoint_ := false } : RcsT).buffer_.Counted := h
      exact (proceed_inOrder (inOrder_start hs (.recv 32)) (.acceptRecv child me)).after _
    · exact ⟨h, fun _ _ hb => by cases hb⟩

end Calls

/-! ## 3. Runs of a process -/

section Runs

variable {p p' : Proc} {id : Nat} {s : RcsT} {r : ApiRes} {a : ProcAct}

/-- A table whose sockets have the buffers that they had before. -/
theorem counted_of_buffers {table table' : Nat → Option RcsT}
    (h : ∀ id s, table id = some s → s.buffer_.Counted)
    (hb : ∀ id, (table' id).map RcsT.buffer_ = (table id).map RcsT.buffer_) :
    ∀ id s, table' id = some s → s.buffer_.Counted := by
  intro id s hs
  have hid := hb id
  rw [hs, Option.map_some, eq_comm, Option.map_eq_some_iff] at hid
  obtain ⟨s0, hs0, hbuf⟩ := hid
  exact hbuf ▸ h id s0 hs0

theorem counted_update {table : Nat → Option RcsT}
    (h : ∀ id s, table id = some s → s.buffer_.Counted) {o : Option RcsT}
    (ho : ∀ s, o = some s → s.buffer_.Counted) (id : Nat) :
    ∀ id' s, Function.update table id o id' = some s → s.buffer_.Counted := by
  intro id' s hs
  rw [Function.update_apply] at hs
  split at hs
  · exact ho s hs
  · exact h id' s hs

/-- A stretch of a call on socket `id`. -/
theorem Proc.InOrder.absorb (h : p.InOrder) (hr : r.InOrder)
    (hi : ∀ stage pc, r.pc = .blocked stage pc → pc.idle = false) (id : Nat) :
    (p.absorb id r).InOrder where
  counted := by
    have hup : ∀ id' s, Function.update p.sSocketIdentifiers id (some r.sock) id' = some s →
        s.buffer_.Counted :=
      counted_update h.counted (fun s hs => (Option.some.inj hs) ▸ hr.counted) id
    exact counted_of_buffers hup fun id' => foldl_setChild_map (fun _ _ => rfl) r.out _ id'
  busy id' stage pc hbusy := by
    obtain ⟨_, hpc⟩ := absorb_busy hbusy
    have hblocked := hr.blocked stage pc hpc
    exact ⟨hi stage pc hpc, fun s hs => ⟨hs, hblocked.sendable, hblocked.blocked⟩⟩

theorem Proc.InOrder.onSocket (h : p.InOrder) (sockfd : Nat) (c : ApiCall) :
    (p.onSocket sockfd c).InOrder := by
  unfold Proc.onSocket
  split
  · exact h
  next s hs =>
    exact h.absorb (apiStart_inOrder (h.counted sockfd s hs) c) (fun _ _ hb => apiStart_idle hb) _

theorem Proc.InOrder.makeSocket (h : p.InOrder) : p.makeSocket.InOrder where
  counted := counted_update h.counted
    (fun _ hs => (Option.some.inj hs) ▸ counted_new) p.sNextId
  busy := h.busy

theorem Proc.InOrder.accept (h : p.InOrder) (sockfd : Nat) (sockName : SockaddrIn)
    (bind : SockaddrIn → Bool) : (p.accept sockfd sockName bind).InOrder := by
  unfold Proc.accept
  split
  · exact h
  next s hs =>
    have hstart := fun c => apiStart_inOrder (h.counted sockfd s hs) c
    dsimp only
    split
    · exact h.makeSocket.absorb (hstart _) (fun _ _ hb => apiStart_idle hb) _
    · exact h.absorb (hstart _) (fun _ _ hb => apiStart_idle hb) _

theorem Proc.InOrder.receive {o : RecvFrom} (h : p.InOrder) (hstep : p.receive o = some p') :
    p'.InOrder := by
  obtain ⟨id, stage, pc, s, hbusy, hs, _, rfl⟩ := receive_some hstep
  obtain ⟨hi, hpc⟩ := h.busy id stage pc hbusy
  have hres := (hpc s (h.counted id s hs)).resume hi o
  have hlog : ({ p with log := p.log ++ [.used id s.ucpSocket_] } : Proc).InOrder :=
    ⟨h.counted, h.busy⟩
  exact hlog.absorb (proceed_inOrder hres stage) (fun _ _ hb => proceed_idle hb) id

theorem Proc.InOrder.step (h : p.InOrder) (hstep : p.step a = some p') : p'.InOrder := by
  cases a <;> simp only [Proc.step, Option.ite_none_right_eq_some, Option.some.injEq] at hstep
  case outcome o => exact h.receive hstep
  all_goals
    obtain ⟨-, rfl⟩ := hstep
  case socket => exact h.makeSocket
  case listen sockfd =>
    refine ⟨counted_update h.counted (fun s hs => ?_) sockfd, h.busy⟩
    obtain ⟨s0, hs0, rfl⟩ := Option.map_eq_some_iff.mp hs
    exact h.counted sockfd s0 hs0
  case call sockfd c => exact h.onSocket sockfd _
  case connect sockfd addr => exact h.onSocket sockfd _
  case accept sockfd sockName bind => exact h.accept sockfd sockName bind
  case close sockfd =>
    unfold Proc.destroySocket
    split
    · exact h
    · exact ⟨counted_update h.counted (fun s hs => by cases hs) sockfd, h.busy⟩
  case fileOpen => exact ⟨h.counted, h.busy⟩
  case fileClose fd => exact ⟨h.counted, h.busy⟩

theorem inOrder_init (fds : List Nat) : (Proc.init fds).InOrder :=
  ⟨fun _ _ hs => (by cases hs), fun _ _ _ hb => (by cases hb)⟩

/-- An action relies on what its socket relies on. -/
theorem onSocketChecks_hold {kinds : Check → Bool} {checks : RcsT → List Check}
    (h : ∀ s, p.getSocket id = some s → AllHold kinds (checks s)) :
    AllHold kinds (p.onSocketChecks id checks) := by
  unfold Proc.onSocketChecks
  split
  · exact allHold_nil
  next s hs => exact h s hs

theorem closeUses_asserts (inspect : Bool) :
    AllHold Check.isAssert (checksOf inspect RcsT.closeUses) :=
  (parts_own closeUses_own).hold_iff.mpr
    ⟨allHold_nil, fun m _ => inspectChecks_asserts inspect m⟩

/-- In every state that a process reaches, by any calls and any outcomes of its receives, no
    assertion fails in what it does next. -/
theorem no_assertion_fires (inspect : Bool) {fds : List Nat}
    (h : Reach Proc.step (fun _ _ => True) (Proc.init fds) p) (a : ProcAct) :
    AllHold Check.isAssert (p.checks inspect a) := by
  have hp : p.InOrder :=
    h.invariant (inOrder_init fds) fun _ _ _ h _ hstep => h.step hstep
  have hstart : ∀ sockfd (c : ApiCall),
      AllHold Check.isAssert (p.onSocketChecks sockfd fun s => apiStartChecks inspect s c) :=
    fun sockfd c =>
      onSocketChecks_hold fun s hs => apiStartChecks_asserts (hp.counted sockfd s hs) c
  cases a with
  | call sockfd c => exact hstart sockfd _
  | connect sockfd addr => exact hstart sockfd _
  | accept sockfd sockName bind => exact hstart sockfd _
  | close sockfd => exact onSocketChecks_hold fun _ _ => closeUses_asserts inspect
  | outcome o =>
    unfold Proc.checks
    dsimp only
    split
    · exact allHold_nil
    next id stage pc hbusy =>
      obtain ⟨hi, hpc⟩ := hp.busy id stage pc hbusy
      exact onSocketChecks_hold fun s hs =>
        apiResumeChecks_asserts (hpc s (hp.counted id s hs)) hi stage o
  | _ => exact allHold_nil

/-- A recv, the marker of an empty message that carries a byte, and a FIN behind it. -/
def hostile : List ProcAct :=
  [.socket, .call 0 (.recv 4), .outcome (.datagram .EAGAIN loadedMark.wire ⟨2, 0⟩),
   .outcome (.error .EAGAIN), .call 0 (.recv 4)]

theorem no_assertion_fires_hostile : ∃ p,
    Reach Proc.step (fun _ _ => True) (Proc.init []) p ∧ p.busy.isSome = true ∧
      AllHold Check.isAssert
        (p.checks true (.outcome (.datagram .EAGAIN (control 666 FIN).wire ⟨2, 0⟩))) := by
  have hrun : ((exec Proc.step (fun _ _ => True) (Proc.init []) hostile).map
      fun p => p.busy.isSome) = some true := by decide +kernel
  obtain ⟨p, hp, hbusy⟩ := Option.map_eq_some_iff.mp hrun
  have hreach := reach_of_exec hp
  exact ⟨p, hreach, hbusy, no_assertion_fires true hreach _⟩

end Runs

end Ece358.Rcs
