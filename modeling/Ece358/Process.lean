/-
  File:      Ece358/Process.lean
  Subject:   The rcs sockets of one process (rcs.cc; rcs_t.cc, lines 37 to 78).

  The objects live in a table, under the numbers that the user knows them by. The operating system
  hands out the lowest descriptor that is free; the rest of the program opens and closes files of
  its own. The process has one thread: while a call is blocked, nothing else happens.

  * `Proc` -- the table, the descriptors that are open, their receive timers, the call in progress,
    and the log of what was opened, used (sent or received on) and closed, by which socket;
  * `makeSocket`, `destroySocket`, `absorb` -- what the functions do to all this;
  * `ProcAct`, `Proc.step` -- the calls of the user, and the outcome of the receive of a call;
  * `Keeps` -- a stretch of a call sends on its own descriptor only, sets no other timer, and closes
    nothing;
  * `apiStart_keeps`, `apiResume_split` -- every stretch is of this kind, but for the `rawrecv` at
    its start.
-/
import Ece358.Fin
import Ece358.Lib.Ownership
import Ece358.Lib.Transition
import Mathlib.Data.List.Range
import Mathlib.Data.List.Perm.Subperm

namespace Ece358.Rcs

open Lib MsgT

/-! ## 1. The process -/

/-- The state: `timers` are the receive timeouts (`SO_RCVTIMEO`) of the descriptors, and `busy` is
    the call in progress, with the number of its socket. The user knows a number by its `sockfdOf`,
    which is one number's only as long as no more than 2^32 sockets are made. -/
structure Proc where
  sSocketIdentifiers : Nat → Option RcsT
  sNextId : Nat
  openFds : List Nat
  timers : Nat → Nat
  busy : Option (Nat × Stage × Pc)
  log : List (Op Nat Nat)

/-- The lowest descriptor that is free. -/
def lowestFree (fds : List Nat) : Nat :=
  ((List.range (fds.length + 1)).find? fun fd => fd ∉ fds).getD 0

theorem lowestFree_not_mem (fds : List Nat) : lowestFree fds ∉ fds := by
  unfold lowestFree
  cases hf : (List.range (fds.length + 1)).find? fun fd => fd ∉ fds with
  | some fd => simpa using List.find?_some hf
  | none =>
    -- more numbers than descriptors
    exfalso
    rw [List.find?_eq_none] at hf
    have hsub : List.range (fds.length + 1) ⊆ fds := fun fd hfd => by simpa using hf fd hfd
    have hlen := (List.nodup_range.subperm hsub).length_le
    rw [List.length_range] at hlen
    omega

/-- The `int` that the table is keyed by, and that makeSocket returns; the counter is a `size_t`. -/
def sockfdOf (id : Nat) : Int32 := Int32.ofNat id

namespace Proc

/-- A process with some files open, and no sockets yet. -/
def init (fds : List Nat) : Proc := ⟨fun _ => none, 0, fds, fun _ => 0, none, []⟩

def getSocket (p : Proc) (id : Nat) : Option RcsT := p.sSocketIdentifiers id

/-- makeSocket(); the addresses of a new object are not set, and nothing reads them before. Its
    constructor sets the timer of the new descriptor. -/
def makeSocket (p : Proc) : Proc :=
  let fd := lowestFree p.openFds
  { p with
    sSocketIdentifiers :=
      Function.update p.sSocketIdentifiers p.sNextId (some (RcsT.new fd ⟨0, 0⟩))
    sNextId := p.sNextId + 1
    openFds := fd :: p.openFds
    timers := Function.update p.timers fd RECV_TIMEOUT
    log := p.log ++ [.opened p.sNextId fd] }

end Proc

/-- What an event of socket `id` says of descriptors. -/
def opOf (id : Nat) : ApiEvent → Option (Op Nat Nat)
  | .io (.sendto fd _ _) => some (.used id fd)
  | .io (.closed fd) => some (.closed id fd)
  | _ => none

/-- The descriptors that the events close. -/
def closedFds (out : List ApiEvent) : List Nat :=
  out.filterMap fun
    | .io (.closed fd) => some fd
    | _ => none

/-- What an event does to the timers: whoever sets one sets that of the descriptor, also where the
    number stands for another socket by then. -/
def setTimer (timers : Nat → Nat) : ApiEvent → Nat → Nat
  | .io (.setTimeout fd milliSecs) => Function.update timers fd milliSecs
  | _ => timers

/-- What an event does to other objects: accept sets the endpoint of the new one. -/
def setChild (table : Nat → Option RcsT) : ApiEvent → Nat → Option RcsT
  | .childEndpoint child addr =>
    Function.update table child ((table child).map fun s => s.setEndpoint addr)
  | _ => table

namespace Proc

/-- The process behind a stretch of a call on socket `id`. -/
def absorb (p : Proc) (id : Nat) (r : ApiRes) : Proc where
  sSocketIdentifiers := r.out.foldl setChild (Function.update p.sSocketIdentifiers id (some r.sock))
  sNextId := p.sNextId
  openFds := p.openFds.filter fun fd => fd ∉ closedFds r.out
  timers := r.out.foldl setTimer p.timers
  busy := match r.pc with
    | .blocked stage pc => some (id, stage, pc)
    | .returned _ => none
  log := p.log ++ r.out.filterMap (opOf id)

/-- destroySocket(id) -/
def destroySocket (p : Proc) (id : Nat) : Proc :=
  match p.getSocket id with
  | none => p
  | some s =>
    let out := s.close.2.map ApiEvent.io
    { p with
      sSocketIdentifiers := Function.update p.sSocketIdentifiers id none
      openFds := p.openFds.filter fun fd => fd ∉ closedFds out
      log := p.log ++ out.filterMap (opOf id) }

/-- Who holds which descriptor. -/
def held (p : Proc) : Nat → Option Nat := holders (fun _ => none) p.log

end Proc

/-- What can happen: the calls of rcs.cc, the outcome of the receive of a call in progress, and
    the rest of the program opening or closing a file. accept is given what `getSockName` leaves
    in `me`, and which addresses the operating system binds. -/
inductive ProcAct where
  | socket
  | listen (sockfd : Nat)
  | call (sockfd : Nat) (c : Call)
  | connect (sockfd : Nat) (addr : SockaddrIn)
  | accept (sockfd : Nat) (sockName : SockaddrIn) (bind : SockaddrIn → Bool)
  | close (sockfd : Nat)
  | outcome (o : RecvFrom)
  | fileOpen
  | fileClose (fd : Nat)

namespace Proc

/-- rcsAccept -/
def accept (p : Proc) (sockfd : Nat) (sockName : SockaddrIn) (bind : SockaddrIn → Bool) : Proc :=
  match p.getSocket sockfd with
  | none => p
  | some s =>
    if s.isListenerSocket_ then
      let me := (mybind (lowestFree p.openFds) { sockName with sin_port := 0 } bind).2
      p.makeSocket.absorb sockfd (apiStart s (.accept p.sNextId me))
    else p.absorb sockfd (apiStart s (.accept p.sNextId sockName))

/-- A call that finds its socket; without one it returns -1. -/
def onSocket (p : Proc) (sockfd : Nat) (c : ApiCall) : Proc :=
  match p.getSocket sockfd with
  | none => p
  | some s => p.absorb sockfd (apiStart s c)

/-- The outcome of the receive that the call in progress is blocked in; on a closed descriptor it
    fails with EBADF. -/
def receive (p : Proc) (o : RecvFrom) : Option Proc :=
  match p.busy with
  | none => none
  | some (id, stage, pc) =>
    match p.getSocket id with
    | none => none
    | some s =>
      if s.ucpSocket_ ∈ p.openFds ∨ o = .error .EBADF then
        some ({ p with log := p.log ++ [Op.used id s.ucpSocket_] }.absorb id
          (apiResume s stage pc o))
      else none

def step (p : Proc) : ProcAct → Option Proc
  | .outcome o => p.receive o
  | .socket => if p.busy = none then some p.makeSocket else none
  | .listen sockfd =>
    if p.busy = none then
      some { p with
        sSocketIdentifiers := Function.update p.sSocketIdentifiers sockfd
          ((p.getSocket sockfd).map fun s => { s with isListenerSocket_ := true }) }
    else none
  | .call sockfd c => if p.busy = none then some (p.onSocket sockfd (.call c)) else none
  | .connect sockfd addr => if p.busy = none then some (p.onSocket sockfd (.connect addr)) else none
  | .accept sockfd sockName bind =>
    if p.busy = none then some (p.accept sockfd sockName bind) else none
  | .close sockfd => if p.busy = none then some (p.destroySocket sockfd) else none
  | .fileOpen =>
    if p.busy = none then some { p with openFds := lowestFree p.openFds :: p.openFds } else none
  | .fileClose fd =>
    if p.busy = none ∧ p.held fd = none then
      some { p with openFds := p.openFds.filter fun fd' => fd' ≠ fd }
    else none

end Proc

/-- Where the outcome of a receive goes on in the call in progress. -/
theorem receive_some {p p' : Proc} {o : RecvFrom} (h : p.receive o = some p') :
    ∃ id stage pc s, p.busy = some (id, stage, pc) ∧ p.getSocket id = some s ∧
      (s.ucpSocket_ ∈ p.openFds ∨ o = .error .EBADF) ∧
      p' = { p with log := p.log ++ [Op.used id s.ucpSocket_] }.absorb id
        (apiResume s stage pc o) := by
  unfold Proc.receive at h
  split at h
  · cases h
  next id stage pc hbusy =>
    split at h
    · cases h
    next s hs =>
      rw [Option.ite_none_right_eq_some] at h
      exact ⟨id, stage, pc, s, hbusy, hs, h.1, (Option.some.inj h.2).symm⟩

/-! ## 2. What a stretch does to descriptors -/

/-- An event that closes nothing, and sends on `fd` and sets its timer if at all. -/
def ApiEvent.stays (fd : Nat) : ApiEvent → Prop
  | .io (.sendto fd' _ _) => fd' = fd
  | .io (.setTimeout fd' _) => fd' = fd
  | .io (.closed _) => False
  | _ => True

/-- From `s` to `s'`, with the events `out`: the descriptor stays, and stays as open as it was, and
    the object knows what its timer is. -/
structure Keeps (s : RcsT) (out : List ApiEvent) (s' : RcsT) : Prop where
  fd : s'.ucpSocket_ = s.ucpSocket_
  closing : s'.isClosing_ = s.isClosing_
  events : ∀ ev ∈ out, ev.stays s.ucpSocket_
  timer : ∀ timers : Nat → Nat, timers s.ucpSocket_ = s.timeout →
    out.foldl setTimer timers s.ucpSocket_ = s'.timeout

/-- The same of a stretch of a send or recv. -/
abbrev Res.Keeps (s : RcsT) (r : Res) : Prop := Rcs.Keeps s (r.out.map .io) r.sock

section Keeps

variable {s s' s'' : RcsT} {out out' : List ApiEvent} {r : Res} {L : Nat}

theorem Keeps.silent (hfd : s'.ucpSocket_ = s.ucpSocket_) (hc : s'.isClosing_ = s.isClosing_)
    (ht : s'.timeout = s.timeout) : Keeps s [] s' :=
  ⟨hfd, hc, fun _ hev => absurd hev List.not_mem_nil, fun _ h => h.trans ht.symm⟩

theorem Keeps.trans (h : Keeps s out s') (h' : Keeps s' out' s'') : Keeps s (out ++ out') s'' where
  fd := h'.fd.trans h.fd
  closing := h'.closing.trans h.closing
  events ev hev := (List.mem_append.mp hev).elim (h.events ev) fun hev => h.fd ▸ h'.events ev hev
  timer timers ht := by
    rw [List.foldl_append, ← h.fd]
    exact h'.timer _ (h.fd ▸ h.timer timers ht)

/-- What stays on a descriptor leaves the timers of the others alone. -/
theorem foldl_setTimer_other {fd fd' : Nat} (h : ∀ ev ∈ out, ev.stays fd) (hne : fd' ≠ fd)
    (timers : Nat → Nat) : out.foldl setTimer timers fd' = timers fd' := by
  induction out generalizing timers with
  | nil => rfl
  | cons ev out ih =>
    rw [List.foldl_cons, ih fun ev hev => h ev (List.mem_cons_of_mem _ hev)]
    have hev := h ev List.mem_cons_self
    cases ev with
    | childEndpoint child addr => rfl
    | io ev =>
      cases ev with
      | setTimeout fd'' t =>
        have hfd : fd'' = fd := hev
        exact Function.update_of_ne (hfd ▸ hne) _ _
      | _ => rfl

/-- What only gives endpoints to sockets sets no timer. -/
theorem foldl_setTimer_quiet (h : ∀ ev ∈ out, ∃ child addr, ev = .childEndpoint child addr)
    (timers : Nat → Nat) : out.foldl setTimer timers = timers := by
  induction out generalizing timers with
  | nil => rfl
  | cons ev out ih =>
    obtain ⟨child, addr, rfl⟩ := h ev List.mem_cons_self
    exact ih (fun ev hev => h ev (List.mem_cons_of_mem _ hev)) timers

theorem Res.Keeps.after (h : r.Keeps s') {es : List Event} (hs : Rcs.Keeps s (es.map .io) s') :
    (r.after es).Keeps s := by
  unfold Res.Keeps
  rw [Res.after, List.map_append]
  exact hs.trans h

/-- One event that sets no timer. -/
theorem keeps_event {ev : ApiEvent} (h : ev.stays s.ucpSocket_)
    (hq : ∀ timers, setTimer timers ev = timers) : Keeps s [ev] s := by
  refine ⟨rfl, rfl, fun e he => ?_, fun timers ht => ?_⟩
  · obtain rfl := List.mem_singleton.mp he
    exact h
  · rw [List.foldl_cons, List.foldl_nil, hq]
    exact ht

theorem keeps_rawsend (s : RcsT) (msg : MsgT) : Keeps s ([s.rawsend msg].map .io) s :=
  keeps_event rfl fun _ => rfl

theorem keeps_sendLoop (s : RcsT) (data : List UInt8) (k : Nat) :
    (RcsT.sendLoop s data k).Keeps s := by
  unfold RcsT.sendLoop
  split_ifs
  · exact keeps_rawsend s _
  · exact keeps_rawsend s _
  · exact .silent rfl rfl rfl

theorem keeps_recvAgain (s : RcsT) (L : Nat) : (s.recvAgain L).Keeps s := by
  unfold RcsT.recvAgain RcsT.recvReturn
  split_ifs <;> exact .silent rfl rfl rfl

theorem keeps_recvWhile (s : RcsT) (L : Nat) : (s.recvWhile L).Keeps s := by
  unfold RcsT.recvWhile
  split_ifs
  · exact keeps_recvAgain s L
  · exact .silent rfl rfl rfl

theorem keeps_setTimeout (s : RcsT) (t : Nat) :
    Keeps s ((s.setTimeout t).2.map .io) (s.setTimeout t).1 :=
  ⟨rfl, rfl, fun ev hev => by rw [List.mem_singleton.mp hev]; rfl,
    fun timers _ => Function.update_self _ _ timers⟩

theorem keeps_finalizeEnd (s : RcsT) (L : Nat) : (s.finalizeEnd L).Keeps s :=
  Res.Keeps.after (keeps_recvAgain (s.setTimeout RECV_TIMEOUT).1 L)
    (keeps_setTimeout s RECV_TIMEOUT)

theorem keeps_finalizeStart (s : RcsT) (L : Nat) (ack : MsgT) :
    (s.finalizeStart L ack).Keeps s := keeps_setTimeout s PROTOCOL_TIMEOUT

theorem keeps_recvBody (s : RcsT) (L : Nat) (response : MsgT) (ok : Bool) :
    (s.recvBody L response ok).Keeps s := by
  -- the part in front of the marker test
  have hpart : ∀ (s' : RcsT) (q : List Event) (ack : MsgT), Keeps s (q.map .io) s' →
      Keeps s ((q ++ if s'.isClosing_ then [] else [s'.rawsend ack]).map .io) s' := by
    intro s' q ack hq
    rw [List.map_append]
    refine hq.trans ?_
    split
    · exact .silent rfl rfl rfl
    · exact keeps_rawsend s' ack
  unfold RcsT.recvBody
  cases ok && response.seqnum == s.recvSeqnum_ with
  | true =>
    have hevent : Keeps s ([Event.queued response].map .io) s := keeps_event trivial fun _ => rfl
    have hqueue : Keeps s ([Event.queued response].map .io) (queue s response) :=
      hevent.trans (.silent rfl rfl rfl)
    have hq := hpart (queue s response) [.queued response] (control s.recvSeqnum_ ACK) hqueue
    simp only [if_true]
    split
    · exact Res.Keeps.after (keeps_finalizeStart _ _ _) hq
    · exact Res.Keeps.after (keeps_recvWhile _ _) hq
  | false =>
    have hq := hpart s [] (control (s.recvSeqnum_ - 1) ACK) (.silent rfl rfl rfl)
    simp only [Bool.false_eq_true, if_false]
    split
    · exact Res.Keeps.after (keeps_finalizeStart _ _ _) hq
    · exact Res.Keeps.after (keeps_recvWhile _ _) hq

theorem keeps_start (s : RcsT) (c : Call) : (start s c).Keeps s := by
  cases c with
  | send data =>
    have h : Keeps s [] (sendStarted s) := .silent rfl rfl rfl
    exact h.trans (keeps_sendLoop (sendStarted s) data 0)
  | recv L =>
    have h : Keeps s [] { s with recvSeqnum_ := 0 } := .silent rfl rfl rfl
    exact h.trans (keeps_recvWhile { s with recvSeqnum_ := 0 } L)

/-- An acksend keeps the descriptor from its `rawrecv` on. -/
theorem acksend_split (s : RcsT) (msg : MsgT) (o : RecvFrom) :
    ∃ es leave, s.acksend msg o = ((s.rawrecv o).sock, (s.rawrecv o).out ++ es, leave) ∧
      Keeps (s.rawrecv o).sock (es.map .io) (s.rawrecv o).sock := by
  simp only [RcsT.acksend, RcsT.lowrecv]
  let r := s.rawrecv o
  by_cases ha : (RcsT.isValid r.bytes (r.msg.getD MsgT.default) &&
      (r.msg.getD MsgT.default).seqnum == msg.seqnum) = true
  · exact ⟨[.acked msg], true, if_pos ha, keeps_event trivial fun _ => rfl⟩
  · by_cases hc : r.sock.isClosing_ = true
    · refine ⟨[], true, (if_neg ha).trans ((if_pos hc).trans ?_), .silent rfl rfl rfl⟩
      rw [List.append_nil]
    · exact ⟨[r.sock.rawsend msg], false, (if_neg ha).trans (if_neg hc), keeps_rawsend r.sock msg⟩

/-- A stretch keeps the descriptor from its `rawrecv` on. -/
theorem resume_split {pc : Pc} (hp : pc.idle = false) (s : RcsT) (o : RecvFrom) :
    ∃ es, (resume s pc o).out = (s.rawrecv o).out ++ es ∧
      Keeps (s.rawrecv o).sock (es.map .io) (resume s pc o).sock := by
  cases pc with
  | returned ret => cases hp
  | sendFragment data k msg =>
    obtain ⟨es, leave, ha, hk⟩ := acksend_split s msg o
    simp only [resume, ha]
    cases leave with
    | false => exact ⟨es, rfl, hk⟩
    | true =>
      have hn : Keeps (s.rawrecv o).sock [] (nextFragment (s.rawrecv o).sock) := .silent rfl rfl rfl
      have hl := hn.trans (keeps_sendLoop (nextFragment (s.rawrecv o).sock) data
        (k + MAX_DATA_LENGTH))
      refine ⟨es ++ _, List.append_assoc _ _ _, ?_⟩
      rw [List.map_append]
      exact hk.trans hl
  | sendEos data msg =>
    obtain ⟨es, leave, ha, hk⟩ := acksend_split s msg o
    simp only [resume, ha]
    cases leave <;> exact ⟨es, rfl, hk⟩
  | recvLoop L =>
    show ∃ es, (s.recvPass L o).out = _ ∧ Keeps _ _ (s.recvPass L o).sock
    simp only [RcsT.recvPass]
    generalize s.rawrecv o = r
    by_cases h0 : r.bytes = 0
    · rw [if_pos h0]
      exact ⟨_, rfl, keeps_recvWhile r.sock L⟩
    · rw [if_neg h0]
      exact ⟨_, rfl, keeps_recvBody r.sock L _ _⟩
  | finalizeRecv L ack response =>
    show ∃ es, (s.finalizePass L ack response o).out = _ ∧
      Keeps _ _ (s.finalizePass L ack response o).sock
    simp only [RcsT.finalizePass]
    generalize s.rawrecv o = r
    by_cases h0 : r.bytes = 0
    · rw [if_pos h0]
      exact ⟨_, rfl, keeps_finalizeEnd r.sock L⟩
    · rw [if_neg h0]
      by_cases hn : RcsT.startsNext (r.msg.getD response) = true
      · rw [if_pos hn]
        exact ⟨_, rfl, keeps_finalizeEnd r.sock L⟩
      · rw [if_neg hn]
        exact ⟨[r.sock.rawsend ack], rfl, keeps_rawsend r.sock ack⟩

/-! ### Whole calls -/

theorem Keeps.endpoint (s : RcsT) (addr : SockaddrIn) : Keeps s [] (s.setEndpoint addr) :=
  .silent rfl rfl rfl

/-- A stretch that adds something to `r`. -/
def Extends (r : Res) (r' : ApiRes) : Prop :=
  ∃ es, r'.out = r.out.map .io ++ es ∧ Keeps r.sock es r'.sock

theorem Extends.same {r' : ApiRes} (hout : r'.out = r.out.map .io)
    (hs : Keeps r.sock [] r'.sock) : Extends r r' :=
  ⟨[], by rw [hout, List.append_nil], hs⟩

theorem acceptEnd_extends (child : Nat) (r : Res) : Extends r (acceptEnd child r) := by
  unfold acceptEnd
  split <;> exact .same rfl (.silent rfl rfl rfl)

theorem connectEnd_extends (r : Res) : Extends r (connectEnd r) := by
  unfold connectEnd
  split
  · exact .same rfl (Keeps.endpoint r.sock _)
  · exact .same rfl (.silent rfl rfl rfl)

/-- A second send or recv behind the first, with the events `mid` in between. -/
theorem Extends.chain {r' : Res} {r'' : ApiRes} {mid : List ApiEvent}
    (hmid : Keeps r.sock mid r.sock) (hr' : r'.Keeps r.sock) (h : Extends r' r'') :
    Extends r (r''.after (r.out.map .io ++ mid)) := by
  obtain ⟨es, hout, hk⟩ := h
  refine ⟨mid ++ (r'.out.map .io ++ es), ?_, hmid.trans (hr'.trans hk)⟩
  rw [ApiRes.after, hout, List.append_assoc]

theorem proceed_extends (stage : Stage) (r : Res) : Extends r (proceed stage r) := by
  cases stage with
  | plain =>
    unfold proceed
    dsimp only
    split <;> exact .same rfl (.silent rfl rfl rfl)
  | acceptSend child => exact acceptEnd_extends child r
  | connectRecv => exact connectEnd_extends r
  | acceptRecv child me =>
    show Extends r (acceptMid child me r)
    unfold acceptMid
    split
    · have hmid : Keeps r.sock [.childEndpoint child r.sock.fromEndpoint_] r.sock :=
        keeps_event trivial fun _ => rfl
      exact .chain hmid (keeps_start r.sock (.send (portBytes me.sin_port)))
        (acceptEnd_extends child _)
    · exact .same rfl (.silent rfl rfl rfl)
  | connectSend =>
    show Extends r (connectMid r)
    unfold connectMid
    split
    · have hmid : Keeps r.sock [] r.sock := .silent rfl rfl rfl
      have h := Extends.chain hmid (keeps_start r.sock (.recv 16)) (connectEnd_extends _)
      rw [List.append_nil] at h
      exact h
    · exact .same rfl (.silent rfl rfl rfl)

theorem keeps_proceed (h : r.Keeps s) (stage : Stage) :
    Keeps s (proceed stage r).out (proceed stage r).sock := by
  obtain ⟨es, hout, hk⟩ := proceed_extends stage r
  rw [hout]
  exact h.trans hk

/-- The start of a call keeps the descriptor. -/
theorem apiStart_keeps (s : RcsT) (c : ApiCall) :
    Keeps s (apiStart s c).out (apiStart s c).sock := by
  cases c with
  | call c => exact keeps_proceed (keeps_start s c) .plain
  | connect addr =>
    exact (Keeps.endpoint s addr).trans
      (keeps_proceed (keeps_start (s.setEndpoint addr) (.send connectRequest)) .connectSend)
  | accept child me =>
    unfold apiStart
    dsimp only
    split
    · have h0 : Keeps s ((s.setTimeout 0).2.map .io)
          { (s.setTimeout 0).1 with hasEndpoint_ := false } :=
        ⟨rfl, rfl, (keeps_setTimeout s 0).events, (keeps_setTimeout s 0).timer⟩
      exact h0.trans (keeps_proceed (keeps_start _ (.recv 32)) (.acceptRecv child me))
    · exact .silent rfl rfl rfl

/-- The rest of a call keeps the descriptor from its `rawrecv` on. -/
theorem apiResume_split {pc : Pc} (hp : pc.idle = false) (s : RcsT) (stage : Stage)
    (o : RecvFrom) :
    ∃ es, (apiResume s stage pc o).out = (s.rawrecv o).out.map .io ++ es ∧
      Keeps (s.rawrecv o).sock es (apiResume s stage pc o).sock := by
  obtain ⟨es, hout, hk⟩ := resume_split hp s o
  obtain ⟨es', hout', hk'⟩ := proceed_extends stage (resume s pc o)
  refine ⟨es.map .io ++ es', ?_, hk.trans hk'⟩
  show (proceed stage (resume s pc o)).out = _
  rw [hout', hout, List.map_append, List.append_assoc]

/-- A call is blocked in a receive. -/
theorem acceptEnd_idle {child : Nat} {stage : Stage} {pc : Pc}
    (h : (acceptEnd child r).pc = .blocked stage pc) : pc.idle = false := by
  obtain ⟨s, out, pc'⟩ := r
  cases pc' <;> cases h <;> rfl

theorem connectEnd_idle {stage : Stage} {pc : Pc}
    (h : (connectEnd r).pc = .blocked stage pc) : pc.idle = false := by
  obtain ⟨s, out, pc'⟩ := r
  cases pc' <;> cases h <;> rfl

theorem acceptMid_idle {child : Nat} {me : SockaddrIn} {stage : Stage} {pc : Pc}
    (h : (acceptMid child me r).pc = .blocked stage pc) : pc.idle = false := by
  obtain ⟨s, out, pc'⟩ := r
  cases pc' with
  | returned ret => exact acceptEnd_idle (r := s.send (portBytes me.sin_port)) h
  | _ =>
    cases h
    rfl

theorem connectMid_idle {stage : Stage} {pc : Pc}
    (h : (connectMid r).pc = .blocked stage pc) : pc.idle = false := by
  obtain ⟨s, out, pc'⟩ := r
  cases pc' with
  | returned ret => exact connectEnd_idle (r := s.recv 16) h
  | _ =>
    cases h
    rfl

theorem proceed_idle {stage stage' : Stage} {pc : Pc}
    (h : (proceed stage r).pc = .blocked stage' pc) : pc.idle = false := by
  cases stage with
  | plain =>
    obtain ⟨s, out, pc'⟩ := r
    cases pc' <;> cases h <;> rfl
  | acceptRecv child me => exact acceptMid_idle h
  | acceptSend child => exact acceptEnd_idle h
  | connectSend => exact connectMid_idle h
  | connectRecv => exact connectEnd_idle h

theorem apiStart_idle {c : ApiCall} {stage : Stage} {pc : Pc}
    (h : (apiStart s c).pc = .blocked stage pc) : pc.idle = false := by
  cases c with
  | call c =>
    have h : (proceed .plain (start s c)).pc = .blocked stage pc := h
    exact proceed_idle h
  | connect addr => exact connectMid_idle h
  | accept child me =>
    unfold apiStart at h
    dsimp only at h
    split at h
    · exact acceptMid_idle h
    · cases h

/-- A call that has come to a send or recv on a closing socket returns, and does nothing on the
    descriptor. -/
theorem proceed_start_closing (h : s.isClosing_ = true) (c : Call) (stage : Stage) :
    (∃ ret, (proceed stage (start s c)).pc = .returned ret) ∧
      ∀ ev ∈ (proceed stage (start s c)).out, ∃ child addr, ev = .childEndpoint child addr := by
  obtain ⟨s', ret, hs, hc, _⟩ := start_closing h c
  rw [hs]
  obtain ⟨s'', es, ret', hp, hes, _⟩ :=
    proceed_closing (r := ⟨s', [], .returned ret⟩) hc rfl stage
  rw [hp]
  exact ⟨⟨ret', rfl⟩, hes⟩

/-- On a closing socket a call returns at once, and neither sends nor closes. -/
theorem apiStart_closing (h : s.isClosing_ = true) (c : ApiCall) (id : Nat) :
    (∃ ret, (apiStart s c).pc = .returned ret) ∧ (apiStart s c).out.filterMap (opOf id) = [] := by
  have hquiet : ∀ {es : List ApiEvent}, (∀ ev ∈ es, ∃ child addr, ev = .childEndpoint child addr) →
      es.filterMap (opOf id) = [] := by
    intro es hes
    rw [List.filterMap_eq_nil_iff]
    intro ev hev
    obtain ⟨child, addr, rfl⟩ := hes ev hev
    rfl
  cases c with
  | call c =>
    obtain ⟨hret, hes⟩ := proceed_start_closing h c .plain
    exact ⟨hret, hquiet hes⟩
  | connect addr =>
    have hc : (s.setEndpoint addr).isClosing_ = true := h
    obtain ⟨hret, hes⟩ := proceed_start_closing hc (.send connectRequest) .connectSend
    exact ⟨hret, hquiet hes⟩
  | accept child me =>
    unfold apiStart
    dsimp only
    split
    · have hc : ({ (s.setTimeout 0).1 with hasEndpoint_ := false } : RcsT).isClosing_ = true := h
      obtain ⟨hret, hes⟩ := proceed_start_closing hc (.recv 32) (.acceptRecv child me)
      refine ⟨hret, ?_⟩
      show List.filterMap (opOf id) (_ ++ _) = []
      rw [List.filterMap_append, List.append_eq_nil_iff]
      exact ⟨rfl, hquiet hes⟩
    · exact ⟨⟨_, rfl⟩, rfl⟩

end Keeps

end Ece358.Rcs
