/-
  File:      Ece358/Rcs.lean
  Subject:   `rcs_t` (a4/rcs_t.cc): one socket, and the calls send and recv on it.

  Every call of `rcs_t` blocks in one place only, the `ucpRecvFrom` of `rawrecv`. The model cuts
  each C++ function there: a call runs from its start, or from the outcome of a receive, to the
  next receive or to its return. `Pc` says which receive a call is blocked in, with the locals
  that are alive there; `resume` is what happens from it on.

  * `RcsT` -- the object, and the receive timeout that it has set last (`ucpSetSockRecvTimeout`);
  * `Event` -- what a call does that others can see: datagrams, timeouts, closing, and for the
    record the messages it queues and the messages whose acksend was answered;
  * `RecvFrom` -- what the operating system answers a receive with;
  * `rawsend`, `close`, `rawrecv`, `lowrecv`, `acksend`, `send`, `recv`, `finalizeRecv`,
    `setEndpoint` -- the methods, under the source's names;
  * `resume` -- the rest of a blocked call, up to its next receive or its return.
-/
import Ece358.MsgBuffer

namespace Ece358.Rcs

/-! ## 1. The object and its surroundings -/

/-- static const size_t RECV_TIMEOUT, in milliseconds -/
def RECV_TIMEOUT : Nat := 10

/-- static const size_t PROTOCOL_TIMEOUT, in milliseconds -/
def PROTOCOL_TIMEOUT : Nat := 500

/-- The struct sockaddr_in; the port is in network byte order, as the struct stores it. -/
structure SockaddrIn where
  sin_addr : UInt32
  sin_port : UInt16
  deriving DecidableEq

/-- The errno values the code looks at (EWOULDBLOCK is EAGAIN here) or is assumed to meet. -/
inductive Errno where
  | EAGAIN
  | EBADF
  | other (code : Nat)
  deriving DecidableEq

/-- The class `rcs_t`. The timeout is the one that the object has set last for its descriptor; 0
    waits for ever. The timers of the descriptors themselves are part of a process. -/
structure RcsT where
  ucpSocket_ : Nat
  isListenerSocket_ : Bool
  endPoint_ : SockaddrIn
  buffer_ : MsgBufferT
  sendSeqnum_ : UInt16
  recvSeqnum_ : UInt16
  hasEndpoint_ : Bool
  fromEndpoint_ : SockaddrIn
  isClosing_ : Bool
  timeout : Nat
  deriving DecidableEq

/-- What a call does that can be seen from outside. The bytes of `sendto` are `msg.wire`;
    `queued` and `acked` record a `queueMessage` and an answered `acksend`. -/
inductive Event where
  | sendto (fd : Nat) (msg : MsgT) (dest : SockaddrIn)
  | setTimeout (fd : Nat) (milliSecs : Nat)
  | closed (fd : Nat)
  | queued (msg : MsgT)
  | acked (msg : MsgT)
  deriving DecidableEq

/-- What a receive answers. A datagram comes with the value errno happens to hold, which the code
    looks at when the datagram is empty. -/
inductive RecvFrom where
  | error (errno : Errno)
  | datagram (errno : Errno) (bytes : List UInt8) (src : SockaddrIn)
  deriving DecidableEq

/-- What a call returns: `send` the length it was given, made an `int`, and `recv` the bytes it
    read. -/
inductive Ret where
  | send (result : Int32)
  | recv (bytes : List UInt8)
  deriving DecidableEq

/-- Where a call stands: in the acksend of a fragment or of the EOS marker, in the inner loop of
    recv, in finalizeRecv, or returned. -/
inductive Pc where
  | sendFragment (data : List UInt8) (processedSize : Nat) (msg : MsgT)
  | sendEos (data : List UInt8) (msg : MsgT)
  | recvLoop (maxLength : Nat)
  | finalizeRecv (maxLength : Nat) (ack response : MsgT)
  | returned (ret : Ret)
  deriving DecidableEq

/-- No call is in progress. -/
def Pc.idle : Pc → Bool
  | .returned _ => true
  | _ => false

/-- The call is in finalizeRecv. -/
def Pc.finalizing : Pc → Bool
  | .finalizeRecv _ _ _ => true
  | _ => false

/-- A stretch of a call: the object behind it, what was done, and where the call stands. -/
structure Res where
  sock : RcsT
  out : List Event
  pc : Pc
  deriving DecidableEq

/-- The same stretch, after something else was done. -/
def Res.after (out : List Event) (r : Res) : Res := { r with out := out ++ r.out }

namespace RcsT

/-- rcs_t(), with the descriptor that `ucpSocket()` returned; the two addresses are not set. -/
def new (fd : Nat) (unset : SockaddrIn) : RcsT where
  ucpSocket_ := fd
  isListenerSocket_ := false
  endPoint_ := unset
  buffer_ := MsgBufferT.new
  sendSeqnum_ := 0
  recvSeqnum_ := 0
  hasEndpoint_ := false
  fromEndpoint_ := unset
  isClosing_ := false
  timeout := RECV_TIMEOUT

def setEndpoint (s : RcsT) (addr : SockaddrIn) : RcsT :=
  { s with endPoint_ := addr, hasEndpoint_ := true }

def setTimeout (s : RcsT) (newTimeout : Nat) : RcsT × List Event :=
  ({ s with timeout := newTimeout }, [.setTimeout s.ucpSocket_ newTimeout])

/-! ## 2. Sending and receiving one datagram -/

def rawsend (s : RcsT) (msg : MsgT) : Event := .sendto s.ucpSocket_ msg s.endPoint_

def close (s : RcsT) : RcsT × List Event :=
  ({ s with isClosing_ := true },
   List.replicate 2048 (rawsend s (MsgT.control 666 FIN)) ++ [.closed s.ucpSocket_])

/-- What `rawrecv` leaves: the object, what was done, its result, and what it stored in `*out`
    (nothing, where it returns before the deserialisation). -/
structure RawRecv where
  sock : RcsT
  out : List Event
  bytes : Nat
  msg : Option MsgT

/-- The result of `rawrecv` when nothing was received: 0 says "timed out", 1 anything else. -/
def errnoResult (errno : Errno) : Nat := if errno = .EAGAIN then 0 else 1

def rawrecv (s : RcsT) (o : RecvFrom) : RawRecv :=
  let s1 := match o with
    | .error _ => s
    | .datagram _ _ src => { s with fromEndpoint_ := src }
  let s2 := if s1.hasEndpoint_ then s1 else s1.setEndpoint s1.fromEndpoint_
  match o with
  | .error errno => ⟨s2, [], errnoResult errno, none⟩
  | .datagram errno bytes _ =>
    if bytes = [] then ⟨s2, [], errnoResult errno, none⟩
    else
      let msg := MsgT.ofDatagram bytes
      if MsgT.accepted bytes && msg.hasFlag FIN then
        ⟨s2.close.1, s2.close.2, MsgT.recvSize bytes, some msg⟩
      else ⟨s2, [], MsgT.recvSize bytes, some msg⟩

/-- Whether `bytes` is the size that the message `msg` should have, and `msg` is valid. -/
def isValid (bytes : Nat) (msg : MsgT) : Bool := msg.valid && bytes == msg.getTotalLength

/-- The message in `*out`, which the caller has set to `msg_t()`, and whether it was valid. -/
def lowrecv (s : RcsT) (o : RecvFrom) : RawRecv × MsgT × Bool :=
  let r := s.rawrecv o
  let out := r.msg.getD MsgT.default
  (r, out, isValid r.bytes out)

/-! ## 3. send -/

/-- The head of the loop in `send`, and what follows the loop. -/
def sendLoop (s : RcsT) (data : List UInt8) (processedSize : Nat) : Res :=
  if processedSize < data.length ∧ s.isClosing_ = false then
    let msg := MsgT.fragment s.sendSeqnum_ (data.drop processedSize)
      (min (data.length - processedSize) MAX_DATA_LENGTH)
    ⟨s, [s.rawsend msg], .sendFragment data processedSize msg⟩
  else if s.isClosing_ = false then
    let msg := MsgT.control s.sendSeqnum_ EOS
    ⟨s, [s.rawsend msg], .sendEos data msg⟩
  else ⟨s, [], .returned (.send (.ofNat data.length))⟩

def send (s : RcsT) (data : List UInt8) : Res := sendLoop { s with sendSeqnum_ := 0 } data 0

/-- One pass of `acksend` from its receive on: `none` where the loop goes on. -/
def acksend (s : RcsT) (msg : MsgT) (o : RecvFrom) : RcsT × List Event × Bool :=
  let (r, response, ok) := s.lowrecv o
  if ok && response.seqnum == msg.seqnum then (r.sock, r.out ++ [.acked msg], true)
  else if r.sock.isClosing_ then (r.sock, r.out, true)
  else (r.sock, r.out ++ [r.sock.rawsend msg], false)

/-! ## 4. recv -/

/-- The end of `recv`, behind its loop. -/
def recvReturn (s : RcsT) (maxLength : Nat) : Res :=
  if s.isClosing_ && s.buffer_.empty then ⟨s, [], .returned (.recv [])⟩
  else
    let (bytes, buffer) := s.buffer_.read maxLength
    ⟨{ s with buffer_ := buffer }, [], .returned (.recv bytes)⟩

/-- The condition of the do-while loop, and the start of its next pass. -/
def recvAgain (s : RcsT) (maxLength : Nat) : Res :=
  if s.buffer_.empty && !s.isClosing_ then ⟨{ s with recvSeqnum_ := 0 }, [], .recvLoop maxLength⟩
  else s.recvReturn maxLength

/-- The head of the inner loop. -/
def recvWhile (s : RcsT) (maxLength : Nat) : Res :=
  if s.isClosing_ then s.recvAgain maxLength else ⟨s, [], .recvLoop maxLength⟩

def recv (s : RcsT) (maxLength : Nat) : Res := recvWhile { s with recvSeqnum_ := 0 } maxLength

/-- The way out of `finalizeRecv`, and of the inner loop behind it. -/
def finalizeEnd (s : RcsT) (maxLength : Nat) : Res :=
  ((s.setTimeout RECV_TIMEOUT).1.recvAgain maxLength).after (s.setTimeout RECV_TIMEOUT).2

/-- The start of `finalizeRecv`. -/
def finalizeStart (s : RcsT) (maxLength : Nat) (ack : MsgT) : Res :=
  ⟨(s.setTimeout PROTOCOL_TIMEOUT).1, (s.setTimeout PROTOCOL_TIMEOUT).2,
   .finalizeRecv maxLength ack MsgT.default⟩

/-- The test that ends `finalizeRecv`: the first fragment of a next message. -/
def startsNext (response : MsgT) : Bool :=
  response.valid && response.seqnum == 0 && response.length != 0

/-- One pass of `finalizeRecv`, from its receive on. -/
def finalizePass (s : RcsT) (maxLength : Nat) (ack response : MsgT) (o : RecvFrom) : Res :=
  let r := s.rawrecv o
  if r.bytes = 0 then (r.sock.finalizeEnd maxLength).after r.out
  else
    let response' := r.msg.getD response
    if startsNext response' then (r.sock.finalizeEnd maxLength).after r.out
    else ⟨r.sock, r.out ++ [r.sock.rawsend ack], .finalizeRecv maxLength ack response'⟩

/-- The body of the inner loop of `recv` behind its test that something was received. -/
def recvBody (s : RcsT) (maxLength : Nat) (response : MsgT) (ok : Bool) : Res :=
  let inSequence := ok && response.seqnum == s.recvSeqnum_
  let s' := if inSequence then
      { s with buffer_ := s.buffer_.queueMessage response, recvSeqnum_ := s.recvSeqnum_ + 1 }
    else s
  let ack := MsgT.control (if inSequence then s.recvSeqnum_ else s.recvSeqnum_ - 1) ACK
  let out := (if inSequence then [.queued response] else []) ++
    (if s'.isClosing_ then [] else [s'.rawsend ack])
  if ok && response.hasFlag EOS then (s'.finalizeStart maxLength ack).after out
  else (s'.recvWhile maxLength).after out

/-- One pass of the inner loop of `recv`, from its receive on. -/
def recvPass (s : RcsT) (maxLength : Nat) (o : RecvFrom) : Res :=
  let r := s.rawrecv o
  if r.bytes = 0 then (r.sock.recvWhile maxLength).after r.out
  else
    let response := r.msg.getD MsgT.default
    (r.sock.recvBody maxLength response (isValid r.bytes response)).after r.out

end RcsT

/-! ## 5. Going on from a receive -/

open RcsT in
/-- The rest of a blocked call, from the outcome of its receive to the next one. -/
def resume (s : RcsT) : Pc → RecvFrom → Res
  | .sendFragment data processedSize msg, o =>
    let (s', out, leave) := s.acksend msg o
    if leave then
      (sendLoop { s' with sendSeqnum_ := s'.sendSeqnum_ + 1 } data
        (processedSize + MAX_DATA_LENGTH)).after out
    else ⟨s', out, .sendFragment data processedSize msg⟩
  | .sendEos data msg, o =>
    let (s', out, leave) := s.acksend msg o
    if leave then ⟨s', out, .returned (.send (.ofNat data.length))⟩
    else ⟨s', out, .sendEos data msg⟩
  | .recvLoop maxLength, o => s.recvPass maxLength o
  | .finalizeRecv maxLength ack response, o => s.finalizePass maxLength ack response o
  | .returned ret, _ => ⟨s, [], .returned ret⟩

/-- The calls a user makes on a connected socket. -/
inductive Call where
  | send (data : List UInt8)
  | recv (maxLength : Nat)
  deriving DecidableEq

/-- The start of a call. -/
def start (s : RcsT) : Call → Res
  | .send data => s.send data
  | .recv maxLength => s.recv maxLength

end Ece358.Rcs
