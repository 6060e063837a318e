/-
  File:      Ece358/Msg.lean
  Subject:   `msg_t` (a4/msg_t.h, a4/msg_t.cc): the datagram format of rcs.

  A message is a C struct that is sent as its own bytes, on a little-endian machine whose `char`
  is signed, with the layout 4 + 2 + 2 + 4 + 500 bytes:

      checksum  seqnum  length  flags  data[500]

  * `MsgT`, `MsgT.control`, `MsgT.fragment` -- the struct and its constructors;
  * `MsgT.valid`, `MsgT.hasFlag`, `MsgT.getTotalLength`, `MsgT.serialize`, `MsgT.deserialize`
    -- its methods. `data[length - 1]` of a message with `length == 0` is the byte in front of
    `data`, the top byte of `flags`;
  * `wire m` -- the bytes `rawsend` hands to `ucpSendTo`;
  * `accepted d` -- the acceptance test that recv, lowrecv and the FIN check apply to a datagram
    of bytes `d`: `valid()` and a size equal to `getTotalLength()`;
  * `deserialize_recvBuffer_wire`, `accepted_prefix` -- an untouched datagram is accepted and
    reads back as the message, and no strict prefix of it is accepted.

  Bytes of `data` behind `length` are never sent; where the constructors leave them
  uninitialised this file has zeros, which is also what the receive buffer holds there.
-/
import Ece358.Lib.Bytes

namespace Ece358.Rcs

open Lib

/-! ## 1. The struct -/

/-- const size_t MAX_DATA_LENGTH -/
def MAX_DATA_LENGTH : Nat := 500

/-- const uint32_t MSG_CHECKSUM -/
def MSG_CHECKSUM : UInt32 := 16

/-- The value of sizeof(msg_t). -/
def sizeofMsgT : Nat := 512

/-- The enum `flags_t`: a bit mask. -/
abbrev FlagsT := UInt32

def NONE : FlagsT := 0
def ACK : FlagsT := 1
def EOS : FlagsT := 2
def FIN : FlagsT := 4

/-- The struct `msg_t`; its array has exactly `MAX_DATA_LENGTH` bytes. -/
structure MsgT where
  checksum : UInt32
  seqnum : UInt16
  length : UInt16
  flags : FlagsT
  data : List UInt8
  size_data : data.length = MAX_DATA_LENGTH
  deriving DecidableEq

namespace MsgT

/-- The array nobody has written to. -/
def noData : List UInt8 := List.replicate MAX_DATA_LENGTH 0

/-- msg_t() -/
def default : MsgT where
  checksum := 0
  seqnum := 0
  length := 0
  flags := NONE
  data := noData
  size_data := List.length_replicate

/-- msg_t(seqnum, flags) -/
def control (seqnum : UInt16) (flags : FlagsT) : MsgT where
  checksum := MSG_CHECKSUM
  seqnum := seqnum
  length := 0
  flags := flags
  data := noData
  size_data := List.length_replicate

/-- A `char` in integer arithmetic: sign-extended, then converted to `uint32_t`. -/
def charToUint32 (c : UInt8) : UInt32 := c.toInt8.toInt32.toUInt32

/-- MSG_CHECKSUM * (c + 1) -/
def checksumOf (c : UInt8) : UInt32 := MSG_CHECKSUM * (charToUint32 c + 1)

/-- msg_t(seqnum, srcData, len, NONE); the caller keeps `1 <= len <= MAX_DATA_LENGTH`. -/
def fragment (seqnum : UInt16) (srcData : List UInt8) (len : Nat) : MsgT where
  checksum := checksumOf (srcData.getD (len - 1) 0)
  seqnum := seqnum
  length := UInt16.ofNat len
  flags := NONE
  data := padTo MAX_DATA_LENGTH (srcData.take len)
  size_data := length_padTo _ _

/-- The byte `data[length - 1]`. -/
def lastByte (m : MsgT) : UInt8 :=
  if m.length = 0 then (m.flags >>> 24).toUInt8 else m.data.getD (m.length.toNat - 1) 0

def valid (m : MsgT) : Bool :=
  decide (m.length.toNat ≤ MAX_DATA_LENGTH) && m.checksum == checksumOf m.lastByte

def hasFlag (m : MsgT) (mask : FlagsT) : Bool := (m.flags &&& mask) == mask

/-- The method's `size_t` arithmetic, which wraps where `length > MAX_DATA_LENGTH`. -/
def getTotalLength (m : MsgT) : Nat :=
  (UInt64.ofNat sizeofMsgT - (UInt64.ofNat MAX_DATA_LENGTH - m.length.toUInt64)).toNat

/-- The first `length` bytes of `data`. -/
def payload (m : MsgT) : List UInt8 := m.data.take m.length.toNat

/-- The bytes in front of `data`. -/
def header (m : MsgT) : List UInt8 :=
  leBytes 4 m.checksum.toNat ++ (leBytes 2 m.seqnum.toNat ++
    (leBytes 2 m.length.toNat ++ leBytes 4 m.flags.toNat))

def serialize (m : MsgT) : List UInt8 := m.header ++ m.data

def deserialize (buffer : List UInt8) : MsgT where
  checksum := UInt32.ofNat (ofLeBytes (field 0 4 buffer))
  seqnum := UInt16.ofNat (ofLeBytes (field 4 2 buffer))
  length := UInt16.ofNat (ofLeBytes (field 6 2 buffer))
  flags := UInt32.ofNat (ofLeBytes (field 8 4 buffer))
  data := padTo MAX_DATA_LENGTH (buffer.drop 12)
  size_data := length_padTo _ _

/-- The bytes that go out for a message: the first `getTotalLength()` of its serialised form. -/
def wire (m : MsgT) : List UInt8 := m.serialize.take m.getTotalLength

/-- The zero-filled buffer of `sizeof(msg_t)` bytes after a datagram was received into it. -/
def recvBuffer (d : List UInt8) : List UInt8 := padTo sizeofMsgT d

/-- The message a receiver makes of a datagram. -/
def ofDatagram (d : List UInt8) : MsgT := deserialize (recvBuffer d)

/-- The number of bytes the receive call reports: longer datagrams are cut off. -/
def recvSize (d : List UInt8) : Nat := min d.length sizeofMsgT

/-- The acceptance test: `valid()`, and the size received is `getTotalLength()`. -/
def accepted (d : List UInt8) : Bool :=
  (ofDatagram d).valid && recvSize d == (ofDatagram d).getTotalLength

/-! ## 2. Sizes -/

@[simp] theorem length_header (m : MsgT) : m.header.length = 12 := by simp [header]

theorem getTotalLength_eq (m : MsgT) : m.getTotalLength = 12 + m.length.toNat := by
  have hl : m.length.toUInt64.toNat = m.length.toNat := UInt16.toNat_toUInt64 _
  have hlt : m.length.toNat < 2 ^ 16 := m.length.toNat_lt
  have h5 : (UInt64.ofNat MAX_DATA_LENGTH).toNat = 500 := rfl
  have h6 : (UInt64.ofNat sizeofMsgT).toNat = 512 := rfl
  rw [getTotalLength, UInt64.toNat_sub, UInt64.toNat_sub, hl, h5, h6]
  omega

theorem valid_length_le {m : MsgT} (h : m.valid = true) : m.length.toNat ≤ MAX_DATA_LENGTH := by
  simp only [valid, Bool.and_eq_true, decide_eq_true_eq] at h
  exact h.1

theorem length_payload {m : MsgT} (h : m.length.toNat ≤ MAX_DATA_LENGTH) :
    m.payload.length = m.length.toNat := by
  rw [payload, List.length_take, m.size_data]
  omega

theorem length_wire {m : MsgT} (h : m.length.toNat ≤ MAX_DATA_LENGTH) :
    m.wire.length = 12 + m.length.toNat := by
  have hs : m.serialize.length = 512 := by
    rw [serialize, List.length_append, length_header, m.size_data]
    rfl
  rw [wire, List.length_take, getTotalLength_eq, hs]
  simp only [MAX_DATA_LENGTH] at h
  omega

theorem wire_eq (m : MsgT) : m.wire = m.header ++ m.payload := by
  rw [wire, serialize, getTotalLength_eq, List.take_append, length_header,
    List.take_of_length_le (by simp), payload]
  congr 2
  omega

/-! ## 3. The round trip -/

@[ext] theorem ext' {m m' : MsgT} (h1 : m.checksum = m'.checksum) (h2 : m.seqnum = m'.seqnum)
    (h3 : m.length = m'.length) (h4 : m.flags = m'.flags) (h5 : m.data = m'.data) : m = m' := by
  cases m
  cases m'
  simp_all

/-- A message as the constructors make it: valid, and zero behind its payload. -/
structure Built (m : MsgT) : Prop where
  valid : m.valid = true
  tail : m.data.drop m.length.toNat = List.replicate (MAX_DATA_LENGTH - m.length.toNat) 0

theorem Built.length_le {m : MsgT} (h : m.Built) : m.length.toNat ≤ MAX_DATA_LENGTH :=
  valid_length_le h.valid

/-- The fields of a buffer that starts with a message's header. -/
theorem deserialize_header (m : MsgT) (rest : List UInt8) :
    (deserialize (m.header ++ rest)).checksum = m.checksum ∧
    (deserialize (m.header ++ rest)).seqnum = m.seqnum ∧
    (deserialize (m.header ++ rest)).length = m.length ∧
    (deserialize (m.header ++ rest)).flags = m.flags := by
  refine ⟨?_, ?_, ?_, ?_⟩
  · show UInt32.ofNat (ofLeBytes (field 0 4 (m.header ++ rest))) = _
    rw [field_append_left _ _ (by simp), header, field_append_left _ _ (by simp), field,
      List.drop_zero, List.take_of_length_le (by simp), ofLeBytes_leBytes]
    exact UInt32.ofNat_mod_size.trans UInt32.ofNat_toNat
  · show UInt16.ofNat (ofLeBytes (field 4 2 (m.header ++ rest))) = _
    rw [field_append_left _ _ (by simp), header, field_append_right _ _ _ (by simp),
      List.take_append_of_le_length (by simp), List.take_of_length_le (by simp), ofLeBytes_leBytes]
    exact UInt16.ofNat_mod_size.trans UInt16.ofNat_toNat
  · show UInt16.ofNat (ofLeBytes (field 6 2 (m.header ++ rest))) = _
    rw [field_append_left _ _ (by simp), header, field_append_skip _ _ _ (by simp),
      field_append_right _ _ _ (by simp), List.take_append_of_le_length (by simp),
      List.take_of_length_le (by simp), ofLeBytes_leBytes]
    exact UInt16.ofNat_mod_size.trans UInt16.ofNat_toNat
  · show UInt32.ofNat (ofLeBytes (field 8 4 (m.header ++ rest))) = _
    rw [field_append_left _ _ (by simp), header, field_append_skip _ _ _ (by simp),
      field_append_skip _ _ _ (by simp), field_append_right _ _ _ (by simp),
      List.take_of_length_le (by simp), ofLeBytes_leBytes]
    exact UInt32.ofNat_mod_size.trans UInt32.ofNat_toNat

/-- The receive buffer after a whole message came in. -/
theorem recvBuffer_wire {m : MsgT} (h : m.Built) : recvBuffer m.wire = m.header ++ m.data := by
  have hle := h.length_le
  simp only [MAX_DATA_LENGTH] at hle
  have hw := length_wire h.length_le
  rw [recvBuffer, padTo_of_length_le (by rw [hw, sizeofMsgT]; omega), hw, wire_eq,
    List.append_assoc, payload]
  have htail : List.replicate (sizeofMsgT - (12 + m.length.toNat)) (0 : UInt8) =
      m.data.drop m.length.toNat := by
    rw [h.tail, sizeofMsgT, MAX_DATA_LENGTH, Nat.sub_add_eq]
  rw [htail, List.take_append_drop]

/-- A message that arrives whole is read back as it was sent. -/
theorem ofDatagram_wire {m : MsgT} (h : m.Built) : ofDatagram m.wire = m := by
  rw [ofDatagram, recvBuffer_wire h]
  obtain ⟨h1, h2, h3, h4⟩ := deserialize_header m m.data
  refine ext' h1 h2 h3 h4 ?_
  show padTo MAX_DATA_LENGTH ((m.header ++ m.data).drop 12) = m.data
  rw [List.drop_append, List.drop_eq_nil_of_le (by simp), length_header, List.nil_append,
    Nat.sub_self, List.drop_zero, padTo, List.take_of_length_le m.size_data.le, m.size_data,
    Nat.sub_self]
  simp

theorem accepted_wire {m : MsgT} (h : m.Built) : accepted m.wire = true := by
  have hle := h.length_le
  simp only [MAX_DATA_LENGTH] at hle
  rw [accepted, ofDatagram_wire h, h.valid, recvSize, length_wire h.length_le, getTotalLength_eq,
    sizeofMsgT, Nat.min_eq_left (by omega)]
  simp

/-! ## 4. What the constructors build -/

theorem control_flags (n : UInt16) (f : FlagsT) : (control n f).flags = f := rfl

@[simp] theorem control_seqnum (n : UInt16) (f : FlagsT) : (control n f).seqnum = n := rfl

@[simp] theorem control_length (n : UInt16) (f : FlagsT) : (control n f).length = 0 := rfl

@[simp] theorem fragment_seqnum (n : UInt16) (src : List UInt8) (len : Nat) :
    (fragment n src len).seqnum = n := rfl

theorem fragment_length (src : List UInt8) {len : Nat} (n : UInt16) (h : len ≤ MAX_DATA_LENGTH) :
    (fragment n src len).length.toNat = len := by
  show (UInt16.ofNat len).toNat = len
  rw [UInt16.toNat_ofNat', Nat.mod_eq_of_lt]
  simp only [MAX_DATA_LENGTH] at h
  omega

theorem fragment_payload {src : List UInt8} {len : Nat} (n : UInt16) (h : len ≤ MAX_DATA_LENGTH)
    (hs : len ≤ src.length) : (fragment n src len).payload = src.take len := by
  have hl : (src.take len).length = len := by rw [List.length_take, Nat.min_eq_left hs]
  rw [payload, fragment_length _ n h]
  show (padTo MAX_DATA_LENGTH (src.take len)).take len = src.take len
  rw [padTo_of_length_le (by rw [hl]; exact h), List.take_append_of_le_length hl.ge,
    List.take_of_length_le hl.le]

theorem control_valid {f : FlagsT} (n : UInt16) (hf : (f >>> 24).toUInt8 = 0) :
    (control n f).valid = true := by
  have hb : (control n f).lastByte = 0 := by
    rw [lastByte, if_pos (control_length n f), control_flags, hf]
  rw [valid, hb]
  rfl

theorem built_control {f : FlagsT} (n : UInt16) (hf : (f >>> 24).toUInt8 = 0) :
    (control n f).Built where
  valid := control_valid n hf
  tail := rfl

theorem built_fragment {src : List UInt8} {len : Nat} (n : UInt16) (h1 : 1 ≤ len)
    (h : len ≤ MAX_DATA_LENGTH) (hs : len ≤ src.length) : (fragment n src len).Built := by
  have hl : (src.take len).length = len := by rw [List.length_take, Nat.min_eq_left hs]
  have hlen := fragment_length src n h
  refine ⟨?_, ?_⟩
  · have hne : (fragment n src len).length ≠ 0 := by
      intro e
      rw [e] at hlen
      simp at hlen
      omega
    have hb : (fragment n src len).lastByte = src.getD (len - 1) 0 := by
      rw [lastByte, if_neg hne, hlen]
      show (padTo MAX_DATA_LENGTH (src.take len)).getD (len - 1) 0 = _
      rw [padTo_of_length_le (by rw [hl]; exact h)]
      simp only [List.getD_eq_getElem?_getD]
      rw [List.getElem?_append_left (by omega), List.getElem?_take_of_lt (by omega)]
    rw [valid, hb, hlen, decide_eq_true h]
    simp [fragment]
  · rw [hlen]
    exact drop_padTo hl.le

theorem hasFlag_control (n : UInt16) (f mask : FlagsT) :
    (control n f).hasFlag mask = ((f &&& mask) == mask) := rfl

theorem hasFlag_fragment (n : UInt16) (src : List UInt8) (len : Nat) (mask : FlagsT) :
    (fragment n src len).hasFlag mask = (NONE == mask) := by
  show ((0 &&& mask) == mask) = _
  rw [UInt32.zero_and]
  rfl

/-! ## 5. Truncated datagrams -/

/-- A cut behind the length field leaves that field as it was sent. -/
theorem ofDatagram_length_cut {m : MsgT} {d : List UInt8} (hp : d <+: m.wire)
    (h8 : 8 ≤ d.length) : (ofDatagram d).length = m.length := by
  obtain ⟨t, ht⟩ := hp
  have hf : field 6 2 (recvBuffer d) = field 6 2 d := by
    rw [recvBuffer, padTo]
    by_cases hle : d.length ≤ sizeofMsgT
    · rw [List.take_of_length_le hle, field_append_left _ _ h8]
    · have hl : (d.take sizeofMsgT).length = sizeofMsgT := by
        rw [List.length_take]
        omega
      rw [field_append_left _ _ (by rw [hl, sizeofMsgT]; omega), field, field, List.drop_take,
        List.take_take]
      rfl
  have hw : field 6 2 d = field 6 2 m.wire := by rw [← ht, field_append_left _ _ h8]
  have hh : field 6 2 m.wire = field 6 2 (m.header ++ m.payload) := by rw [wire_eq]
  show UInt16.ofNat (ofLeBytes (field 6 2 (recvBuffer d))) = m.length
  rw [hf, hw, hh]
  exact (deserialize_header m m.payload).2.2.1

/-- No strict prefix of a datagram passes the acceptance test. -/
theorem accepted_prefix {m : MsgT} {d : List UInt8} (hm : m.Built) (hp : d <+: m.wire)
    (ha : accepted d = true) : d = m.wire := by
  have hle := hm.length_le
  simp only [MAX_DATA_LENGTH] at hle
  have hw := length_wire hm.length_le
  have hdl := hp.length_le
  simp only [accepted, Bool.and_eq_true, beq_iff_eq, recvSize, getTotalLength_eq] at ha
  have hmin : min d.length sizeofMsgT = d.length :=
    Nat.min_eq_left (by rw [sizeofMsgT]; omega)
  rw [hmin] at ha
  have hlen := ofDatagram_length_cut hp (by omega)
  rw [hlen] at ha
  exact hp.eq_of_length (by omega)

/-- A prefix of a message without payload never shows a non-zero length field. -/
theorem ofDatagram_length_zero {m : MsgT} {d : List UInt8} (hm : m.length = 0)
    (hp : d <+: m.wire) : (ofDatagram d).length = 0 := by
  by_cases h8 : 8 ≤ d.length
  · rw [ofDatagram_length_cut hp h8, hm]
  · -- the two bytes of the field are zero, whether received or filled in
    have hl : d.length ≤ sizeofMsgT := by rw [sizeofMsgT]; omega
    have hfield : field 6 2 m.wire = List.replicate 2 0 := by
      rw [wire_eq, field_append_left _ _ (by simp), header, field_append_skip _ _ _ (by simp),
        field_append_right _ _ _ (by simp), List.take_append_of_le_length (by simp),
        List.take_of_length_le (by simp), hm]
      rfl
    show UInt16.ofNat (ofLeBytes (field 6 2 (recvBuffer d))) = 0
    have hd : (d.drop 6).take 2 = List.replicate (min (d.length - 6) 2) 0 := by
      have htake : d = m.wire.take d.length := List.prefix_iff_eq_take.mp hp
      rw [htake, List.drop_take, List.take_take, Nat.min_comm, ← List.take_take, ← htake]
      rw [← List.take_replicate, ← hfield]
      rfl
    have hj : field 6 2 (recvBuffer d) = List.replicate (min (d.length - 6) 2 +
        min (2 - (d.drop 6).length) (sizeofMsgT - d.length - (6 - d.length))) 0 := by
      rw [recvBuffer, padTo_of_length_le hl, field, List.drop_append, List.take_append, hd,
        List.drop_replicate, List.take_replicate, List.replicate_append_replicate]
    rw [hj, ofLeBytes_replicate_zero]
    rfl

end MsgT

end Ece358.Rcs
