/-
  File:      Ece358/Api.lean
  Subject:   The calls that can block, as a user makes them (rcs.cc, rcs_t.cc lines 108 to 166).

  accept and connect make one send and one recv each, on the socket they are called on, and go on
  behind them. `Stage` says for which of these a send or recv is blocked; `proceed` is the rest of
  the call behind a stretch of it.

  * `mybind` -- mybind.c: the first port of the range that the operating system grants;
  * `Stage`, `ApiPc`, `ApiRes` -- where a call stands, and a stretch of it;
  * `accept`, `connect`, `apiStart`, `apiResume` -- the calls, from their start or from the outcome
    of a receive to the next receive or the return;
  * `proceed_blocked`, `proceed_closing` -- a blocked send or recv blocks the call; on a closing
    socket a call returns without sending anything.

  accept makes a socket and sets its endpoint. What it does to that other object is left to the
  owner of all sockets: the number, the descriptor and the ports granted to it are parameters here,
  and its new endpoint is an event.
-/
import Ece358.Fragments

namespace Ece358.Rcs

open Lib MsgT

/-! ## 1. Ports -/

/-- #define PORT_RANGE_LO, of mybind.c -/
def PORT_RANGE_LO : Nat := 10000

/-- #define PORT_RANGE_HI, of mybind.c -/
def PORT_RANGE_HI : Nat := 10100

/-- The value of htons(p), on a little-endian machine. -/
def htons (p : Nat) : UInt16 := UInt16.ofNat (p % 256 * 256 + p / 256 % 256)

/-- The loop of `mybind` over the ports `ps`; `bind` is what the operating system grants. -/
def mybindLoop (bind : SockaddrIn → Bool) (addr : SockaddrIn) : List Nat → Int × SockaddrIn
  | [] => (-1, addr)
  | p :: ps =>
    let addr' := { addr with sin_port := htons p }
    if bind addr' then (0, addr') else mybindLoop bind addr' ps

/-- The result of `mybind`, and what it leaves in `*addr`. -/
def mybind (sockfd : Nat) (addr : SockaddrIn) (bind : SockaddrIn → Bool) : Int × SockaddrIn :=
  if sockfd < 1 then (-1, addr)
  else if addr.sin_port ≠ 0 then (-1, addr)
  else mybindLoop bind addr (List.range' PORT_RANGE_LO (PORT_RANGE_HI + 1 - PORT_RANGE_LO))

/-- A successful `mybind` has bound the address that it leaves, and kept the host part of it. -/
theorem mybindLoop_bound {bind : SockaddrIn → Bool} {addr addr' : SockaddrIn} {ps : List Nat}
    (h : mybindLoop bind addr ps = (0, addr')) :
    bind addr' = true ∧ addr'.sin_addr = addr.sin_addr := by
  induction ps generalizing addr with
  | nil => cases h
  | cons p ps ih =>
    simp only [mybindLoop] at h
    split at h
    next hb =>
      obtain ⟨_, rfl⟩ := Prod.mk.inj h
      exact ⟨hb, rfl⟩
    next =>
      obtain ⟨hb, ha⟩ := ih h
      exact ⟨hb, ha⟩

theorem mybind_bound {sockfd : Nat} {bind : SockaddrIn → Bool} {addr addr' : SockaddrIn}
    (h : mybind sockfd addr bind = (0, addr')) :
    bind addr' = true ∧ addr'.sin_addr = addr.sin_addr := by
  unfold mybind at h
  split at h
  · cases h
  · split at h
    · cases h
    · exact mybindLoop_bound h

/-! ## 2. Calls -/

/-- For which call a send or recv is blocked: a plain one, or one of those that accept and connect
    make. accept keeps the number of the new socket and its address `me`. -/
inductive Stage where
  | plain
  | acceptRecv (child : Nat) (me : SockaddrIn)
  | acceptSend (child : Nat)
  | connectSend
  | connectRecv
  deriving DecidableEq

/-- What a call returns. accept also fills the caller's `*addr`, where there is one. -/
inductive ApiRet where
  | call (ret : Ret)
  | accept (result : Int) (addr : Option SockaddrIn)
  | connect (result : Int)
  deriving DecidableEq

/-- What a call does: an event of its own socket, or `setEndpoint` on the new socket. -/
inductive ApiEvent where
  | io (event : Event)
  | childEndpoint (child : Nat) (addr : SockaddrIn)
  deriving DecidableEq

inductive ApiPc where
  | blocked (stage : Stage) (pc : Pc)
  | returned (ret : ApiRet)
  deriving DecidableEq

structure ApiRes where
  sock : RcsT
  out : List ApiEvent
  pc : ApiPc
  deriving DecidableEq

def ApiRes.after (out : List ApiEvent) (r : ApiRes) : ApiRes := { r with out := out ++ r.out }

/-- The bytes of a `short`, as they lie in memory. -/
def portBytes (port : UInt16) : List UInt8 := leBytes 2 port.toNat

/-- The `short` at the start of a buffer. -/
def portOf (bytes : List UInt8) : UInt16 := UInt16.ofNat (ofLeBytes (bytes.take 2))

/-- The string "rcs connect". -/
def connectRequest : List UInt8 := [114, 99, 115, 32, 99, 111, 110, 110, 101, 99, 116]

/-- The array `connection[16]`, which holds that string and zeros. -/
def connectionBuffer : List UInt8 := padTo 16 connectRequest

/-- What recv has read; nothing, for a send. -/
def Ret.bytes : Ret → List UInt8
  | .recv bytes => bytes
  | .send _ => []

/-- accept, from its send on. -/
def acceptEnd (child : Nat) (r : Res) : ApiRes :=
  match r.pc with
  | .returned _ =>
    ⟨r.sock, r.out.map .io, .returned (.accept child (some r.sock.fromEndpoint_))⟩
  | pc => ⟨r.sock, r.out.map .io, .blocked (.acceptSend child) pc⟩

/-- accept, from its recv on. -/
def acceptMid (child : Nat) (me : SockaddrIn) (r : Res) : ApiRes :=
  match r.pc with
  | .returned _ =>
    (acceptEnd child (r.sock.send (portBytes me.sin_port))).after
      (r.out.map .io ++ [.childEndpoint child r.sock.fromEndpoint_])
  | pc => ⟨r.sock, r.out.map .io, .blocked (.acceptRecv child me) pc⟩

/-- The end of connect: the port is read off the buffer, over which recv has written `bytes`. -/
def updatePort (s : RcsT) (bytes : List UInt8) : RcsT :=
  let connection := bytes ++ connectionBuffer.drop bytes.length
  s.setEndpoint { s.endPoint_ with sin_port := portOf connection }

/-- connect, from its recv on. -/
def connectEnd (r : Res) : ApiRes :=
  match r.pc with
  | .returned ret => ⟨updatePort r.sock ret.bytes, r.out.map .io, .returned (.connect 0)⟩
  | pc => ⟨r.sock, r.out.map .io, .blocked .connectRecv pc⟩

/-- connect, from its send on. -/
def connectMid (r : Res) : ApiRes :=
  match r.pc with
  | .returned _ => (connectEnd (r.sock.recv 16)).after (r.out.map .io)
  | pc => ⟨r.sock, r.out.map .io, .blocked .connectSend pc⟩

/-- The rest of a call behind a stretch of a send or recv that it made. -/
def proceed : Stage → Res → ApiRes
  | .plain, r =>
    match r.pc with
    | .returned ret => ⟨r.sock, r.out.map .io, .returned (.call ret)⟩
    | pc => ⟨r.sock, r.out.map .io, .blocked .plain pc⟩
  | .acceptRecv child me, r => acceptMid child me r
  | .acceptSend child, r => acceptEnd child r
  | .connectSend, r => connectMid r
  | .connectRecv, r => connectEnd r

/-- accept on a listening socket, behind `makeSocket` and `bind`, which left `me`. -/
def accept (s : RcsT) (child : Nat) (me : SockaddrIn) : ApiRes :=
  (acceptMid child me (({ (s.setTimeout 0).1 with hasEndpoint_ := false } : RcsT).recv 32)).after
    ((s.setTimeout 0).2.map .io)

def connect (s : RcsT) (addr : SockaddrIn) : ApiRes :=
  connectMid ((s.setEndpoint addr).send connectRequest)

/-- The calls on one socket; accept with what it finds when it starts to block. -/
inductive ApiCall where
  | call (c : Call)
  | accept (child : Nat) (me : SockaddrIn)
  | connect (addr : SockaddrIn)
  deriving DecidableEq

/-- The start of a call. -/
def apiStart (s : RcsT) : ApiCall → ApiRes
  | .call c => proceed .plain (start s c)
  | .accept child me =>
    if s.isListenerSocket_ then accept s child me else ⟨s, [], .returned (.accept (-1) none)⟩
  | .connect addr => connect s addr

/-- The rest of a blocked call, from the outcome of its receive to the next one. -/
def apiResume (s : RcsT) (stage : Stage) (pc : Pc) (o : RecvFrom) : ApiRes :=
  proceed stage (resume s pc o)

/-! ## 3. Where a call goes on -/

section Proceed

variable {s : RcsT} {stage : Stage} {r : Res}

/-- A blocked send or recv blocks the call that made it. -/
theorem proceed_blocked (h : ∀ ret, r.pc ≠ .returned ret) (stage : Stage) :
    proceed stage r = ⟨r.sock, r.out.map .io, .blocked stage r.pc⟩ := by
  obtain ⟨s, out, pc⟩ := r
  cases pc with
  | returned ret => exact absurd rfl (h ret)
  | _ => cases stage <;> rfl

theorem portOf_portBytes (port : UInt16) (rest : List UInt8) :
    portOf (portBytes port ++ rest) = port := by
  have hlen : (portBytes port).length = 2 := length_leBytes 2 _
  unfold portOf
  rw [List.take_append_of_le_length (by omega), List.take_of_length_le (by omega), portBytes,
    ofLeBytes_leBytes]
  refine UInt16.toNat_inj.mp ?_
  have := port.toNat_lt
  simp only [UInt16.toNat_ofNat']
  omega

/-! ### Closing sockets -/

theorem sendLoop_closing (h : s.isClosing_ = true) (data : List UInt8) (k : Nat) :
    RcsT.sendLoop s data k = ⟨s, [], .returned (.send (.ofNat data.length))⟩ := by
  simp [RcsT.sendLoop, h]

theorem recvAgain_closing (h : s.isClosing_ = true) (L : Nat) :
    ∃ b ret, s.recvAgain L = ⟨{ s with buffer_ := b }, [], .returned ret⟩ := by
  unfold RcsT.recvAgain RcsT.recvReturn
  rw [if_neg (by simp [h])]
  split
  · exact ⟨s.buffer_, _, rfl⟩
  · exact ⟨_, _, rfl⟩

theorem recvWhile_closing (h : s.isClosing_ = true) (L : Nat) :
    ∃ b ret, s.recvWhile L = ⟨{ s with buffer_ := b }, [], .returned ret⟩ := by
  unfold RcsT.recvWhile
  rw [if_pos h]
  exact recvAgain_closing h L

/-- On a closing socket a send or recv returns at once. -/
theorem start_closing (h : s.isClosing_ = true) (c : Call) :
    ∃ s' ret, start s c = ⟨s', [], .returned ret⟩ ∧ s'.isClosing_ = true ∧
      s'.ucpSocket_ = s.ucpSocket_ := by
  cases c with
  | send data =>
    have hs : (sendStarted s).isClosing_ = true := h
    exact ⟨sendStarted s, _, sendLoop_closing hs data 0, h, rfl⟩
  | recv L =>
    have hs : ({ s with recvSeqnum_ := 0 } : RcsT).isClosing_ = true := h
    obtain ⟨b, ret, hr⟩ := recvWhile_closing hs L
    exact ⟨_, ret, hr, h, rfl⟩

/-- A call whose send or recv has returned on a closing socket returns, and does nothing more on
    its descriptor. -/
theorem proceed_closing (h : r.sock.isClosing_ = true) {ret : Ret} (hp : r.pc = .returned ret)
    (stage : Stage) :
    ∃ s' es ret', proceed stage r = ⟨s', r.out.map .io ++ es, .returned ret'⟩ ∧
      (∀ e ∈ es, ∃ child addr, e = .childEndpoint child addr) ∧ s'.isClosing_ = true ∧
      s'.ucpSocket_ = r.sock.ucpSocket_ := by
  obtain ⟨s, out, pc⟩ := r
  obtain rfl : pc = .returned ret := hp
  cases stage with
  | plain =>
    exact ⟨s, [], .call ret, by simp [proceed], fun e he => absurd he List.not_mem_nil, h, rfl⟩
  | acceptSend child =>
    exact ⟨s, [], .accept child (some s.fromEndpoint_), by simp [proceed, acceptEnd],
      fun e he => absurd he List.not_mem_nil, h, rfl⟩
  | acceptRecv child me =>
    obtain ⟨s', ret', hs, hc, hfd⟩ := start_closing h (.send (portBytes me.sin_port))
    have hs' : s.send (portBytes me.sin_port) = ⟨s', [], .returned ret'⟩ := hs
    refine ⟨s', [.childEndpoint child s.fromEndpoint_], .accept child (some s'.fromEndpoint_), ?_,
      ?_, hc, hfd⟩
    · simp [proceed, acceptMid, acceptEnd, hs', ApiRes.after]
    · intro e he
      exact ⟨_, _, List.mem_singleton.mp he⟩
  | connectRecv =>
    exact ⟨updatePort s ret.bytes, [], .connect 0, by simp [proceed, connectEnd],
      fun e he => absurd he List.not_mem_nil, h, rfl⟩
  | connectSend =>
    obtain ⟨s', ret', hs, hc, hfd⟩ := start_closing h (.recv 16)
    have hs' : s.recv 16 = ⟨s', [], .returned ret'⟩ := hs
    exact ⟨updatePort s' ret'.bytes, [], .connect 0,
      by simp [proceed, connectMid, connectEnd, hs', ApiRes.after],
      fun e he => absurd he List.not_mem_nil, hc, hfd⟩

end Proceed

end Ece358.Rcs
