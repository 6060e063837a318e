/-
  File:      Ece358/Wire.lean
  Subject:   The acceptance test, against datagrams that were cut or altered.

  ucpSendTo may cut a datagram or write over its bytes. A cut always shows: the size must be
  `getTotalLength()`. The checksum is made of one byte, the last of the payload (of a control
  message: the top byte of the flags), so an altered byte shows there, in the checksum itself and in
  the length, and nowhere else.

  * `flagged`, `Constructed` -- the messages that the constructors of `msg_t` build;
  * `cut_accepted_iff` -- the three tests on a datagram that was cut;
  * `altered_accepted_iff` -- the tests on a datagram with one altered byte.
-/
import Ece358.RcsSteps

namespace Ece358.Rcs

open Lib

namespace MsgT

/-! ## 1. The constructors -/

/-- msg_t(seqnum, srcData, len, flags); the caller keeps `1 <= len <= MAX_DATA_LENGTH`. -/
def flagged (seqnum : UInt16) (srcData : List UInt8) (len : Nat) (flags : FlagsT) : MsgT :=
  { fragment seqnum srcData len with flags := flags }

/-- A message that a constructor builds. -/
inductive Constructed : MsgT → Prop where
  | data (seqnum : UInt16) (srcData : List UInt8) (len : Nat) (flags : FlagsT) (h1 : 1 ≤ len)
      (h : len ≤ MAX_DATA_LENGTH) (hs : len ≤ srcData.length) :
      Constructed (flagged seqnum srcData len flags)
  | control (seqnum : UInt16) (flags : FlagsT) (h0 : flags ≠ NONE)
      (h : flags ≤ ACK ||| EOS ||| FIN) : Constructed (control seqnum flags)

/-- Where there is a payload, the flags do not matter for the checksum. -/
theorem built_flagged {m : MsgT} (hm : m.Built) (hl : m.length ≠ 0) (flags : FlagsT) :
    ({ m with flags := flags } : MsgT).Built := by
  refine ⟨?_, hm.tail⟩
  have hv := hm.valid
  simp only [valid, lastByte, if_neg hl] at hv ⊢
  exact hv

theorem fragment_length_ne_zero (seqnum : UInt16) (srcData : List UInt8) {len : Nat} (h1 : 1 ≤ len)
    (h : len ≤ MAX_DATA_LENGTH) : (fragment seqnum srcData len).length ≠ 0 := by
  intro e
  have hlen := fragment_length srcData seqnum h
  rw [e] at hlen
  simp at hlen
  omega

theorem topByte_eq (flags : FlagsT) : (flags >>> 24).toUInt8.toNat = flags.toNat / 2 ^ 24 := by
  have := flags.toNat_lt
  rw [UInt32.toNat_toUInt8, UInt32.toNat_shiftRight]
  show flags.toNat >>> 24 % 256 = _
  rw [Nat.shiftRight_eq_div_pow]
  omega

theorem Constructed.built {m : MsgT} (hm : Constructed m) : m.Built := by
  cases hm with
  | data seqnum srcData len flags h1 h hs =>
    exact built_flagged (built_fragment seqnum h1 h hs) (fragment_length_ne_zero _ _ h1 h) flags
  | control seqnum flags h0 h =>
    refine built_control seqnum (UInt8.toNat_inj.mp ?_)
    have hle : flags.toNat ≤ 7 := UInt32.le_iff_toNat_le.mp h
    rw [topByte_eq, Nat.div_eq_of_lt (by omega)]
    rfl

end MsgT

open MsgT

/-! ## 2. Cut datagrams -/

/-- What the three tests look at: the size and the message that rawrecv reports. -/
theorem rawrecv_reports (s : RcsT) {d : List UInt8} (hne : d ≠ []) (e : Errno) (src : SockaddrIn) :
    (s.rawrecv (.datagram e d src)).bytes = recvSize d ∧
      (s.rawrecv (.datagram e d src)).msg = some (ofDatagram d) := by
  simp only [RcsT.rawrecv, if_neg hne]
  split
  · exact ⟨rfl, rfl⟩
  · exact ⟨rfl, rfl⟩

/-- An empty datagram leaves the message of the caller alone, which is not valid. -/
theorem rawrecv_reports_nothing (s : RcsT) (e : Errno) (src : SockaddrIn) :
    (s.rawrecv (.datagram e [] src)).msg = none := by
  simp only [RcsT.rawrecv, if_true]

theorem not_accepted_nil : accepted [] = false := by
  rw [← Bool.not_eq_true]
  intro h
  have := accepted_length h
  simp at this

/-- The tests of lowrecv and of recv on a datagram are the acceptance test. -/
theorem isValid_reports (s : RcsT) (d : List UInt8) (e : Errno) (src : SockaddrIn) :
    RcsT.isValid (s.rawrecv (.datagram e d src)).bytes
      ((s.rawrecv (.datagram e d src)).msg.getD default) = accepted d := by
  by_cases hne : d = []
  · subst hne
    rw [rawrecv_reports_nothing, not_accepted_nil]
    rfl
  · obtain ⟨hb, hm⟩ := rawrecv_reports s hne e src
    rw [hb, hm]
    rfl

theorem take_getTotalLength (m : MsgT) : m.serialize.take m.getTotalLength = m.wire := rfl

theorem accepted_cut_iff {m : MsgT} (hm : m.Built) {k : Nat} (hk : k ≤ m.getTotalLength) :
    accepted (m.serialize.take k) = true ↔ k = m.getTotalLength := by
  have hlen := length_wire hm.length_le
  have hcut : m.serialize.take k = m.wire.take k := by
    rw [wire, List.take_take, Nat.min_eq_left hk]
  constructor
  · intro ha
    rw [hcut] at ha
    have hd := accepted_prefix hm (List.take_prefix k m.wire) ha
    have := congrArg List.length hd
    rw [List.length_take, hlen] at this
    rw [getTotalLength_eq] at hk ⊢
    omega
  · intro h
    rw [h, take_getTotalLength]
    exact accepted_wire hm

/-- A datagram that was cut passes the tests of lowrecv, of recv and for FIN only if nothing is
    missing, and then it is the message that was sent. -/
theorem cut_accepted_iff {m : MsgT} (hm : Constructed m) {k : Nat} (hk : k ≤ m.getTotalLength)
    (s : RcsT) (e : Errno) (src : SockaddrIn) :
    let o : RecvFrom := .datagram e (m.serialize.take k) src
    let r := s.rawrecv o
    let out := r.msg.getD default
    ((s.lowrecv o).2.2 = true ↔ k = m.getTotalLength) ∧
    (RcsT.isValid r.bytes out = true ↔ k = m.getTotalLength) ∧
    (accepted (m.serialize.take k) = true ↔ k = m.getTotalLength) ∧
    (k = m.getTotalLength → out.seqnum = m.seqnum ∧ out.length = m.length ∧
      out.flags = m.flags ∧ out.payload = m.payload) := by
  intro o r out
  have hiff := accepted_cut_iff hm.built hk
  have htest : RcsT.isValid r.bytes out = accepted (m.serialize.take k) :=
    isValid_reports s _ e src
  refine ⟨?_, ?_, hiff, ?_⟩
  · show RcsT.isValid r.bytes out = true ↔ _
    rw [htest]
    exact hiff
  · rw [htest]
    exact hiff
  · intro h
    have hout : out = m := by
      obtain ⟨_, hmsg⟩ := rawrecv_reports s (wire_ne_nil hm.built) e src
      show (s.rawrecv (.datagram e (m.serialize.take k) src)).msg.getD default = m
      rw [h, take_getTotalLength, hmsg, ofDatagram_wire hm.built]
      rfl
    rw [hout]
    exact ⟨rfl, rfl, rfl, rfl⟩

/-- A fragment of two bytes, cut behind the first one. -/
theorem cut_accepted_iff_fragment :
    let m := flagged 7 [1, 2] 2 NONE
    let o : RecvFrom := .datagram .EAGAIN (m.serialize.take 13) ⟨2, 0⟩
    ((RcsT.new 3 ⟨0, 0⟩).lowrecv o).2.2 = true ↔ 13 = m.getTotalLength :=
  (cut_accepted_iff (.data 7 [1, 2] 2 NONE (by decide) (by decide) (by decide)) (by decide)
    (RcsT.new 3 ⟨0, 0⟩) .EAGAIN ⟨2, 0⟩).1

/-! ## 3. Altered datagrams -/

/-- The last byte that a checksum was made of can be read off it. -/
theorem checksumOf_inj {c c' : UInt8} (h : checksumOf c = checksumOf c') : c = c' := by
  have hread : ∀ n < 256, (checksumOf (UInt8.ofNat n) / 16 - 1).toUInt8 = UInt8.ofNat n := by
    decide +kernel
  have hc : ∀ c : UInt8, (checksumOf c / 16 - 1).toUInt8 = c := fun c => by
    have := hread c.toNat c.toNat_lt
    rwa [UInt8.ofNat_toNat] at this
  rw [← hc c, h, hc c']

/-- The top byte of four bytes read as a number. -/
theorem topByte_field {bs : List UInt8} (h : bs.length = 4) :
    bs[3]? = some (UInt32.ofNat (ofLeBytes bs) >>> 24).toUInt8 := by
  obtain ⟨a, b, c, d, rfl⟩ : ∃ a b c d, bs = [a, b, c, d] := by
    match bs, h with
    | [a, b, c, d], _ => exact ⟨a, b, c, d, rfl⟩
  have ha := a.toNat_lt
  have hb := b.toNat_lt
  have hc := c.toNat_lt
  have hd := d.toNat_lt
  refine congrArg some (UInt8.toNat_inj.mp ?_)
  rw [topByte_eq, UInt32.toNat_ofNat']
  simp only [ofLeBytes]
  omega

section Altered

variable {m : MsgT} {i : Nat} {d : List UInt8}

/-- A datagram of the right size is accepted for its length and its checksum. -/
theorem accepted_iff_of_length (hm : m.Built) (hd : d.length = m.wire.length) :
    accepted d = true ↔ (ofDatagram d).length = m.length ∧
      (ofDatagram d).checksum = checksumOf (ofDatagram d).lastByte := by
  have hle := hm.length_le
  have hw := length_wire hm.length_le
  have hsize : recvSize d = 12 + m.length.toNat := by
    simp only [MAX_DATA_LENGTH] at hle
    rw [recvSize, hd, hw, sizeofMsgT, Nat.min_eq_left (by omega)]
  simp only [accepted, valid, Bool.and_eq_true, decide_eq_true_eq, beq_iff_eq, hsize,
    getTotalLength_eq]
  constructor
  · rintro ⟨⟨_, hc⟩, hl⟩
    exact ⟨UInt16.toNat_inj.mp (by omega), hc⟩
  · rintro ⟨hl, hc⟩
    exact ⟨⟨hl ▸ hle, hc⟩, by rw [hl]⟩

/-- The altered receive buffer. -/
theorem altered_recvBuffer (hm : m.Built) (h : Altered i m.wire d) :
    Altered i (recvBuffer m.wire) (recvBuffer d) := by
  have hle := hm.length_le
  simp only [MAX_DATA_LENGTH] at hle
  refine h.padTo ?_
  rw [length_wire hm.length_le, sizeofMsgT]
  omega

theorem altered_length_iff (hm : m.Built) (h : Altered i m.wire d) :
    (ofDatagram d).length = m.length ↔ i < 6 ∨ 8 ≤ i := by
  have hb := altered_recvBuffer hm h
  have hm' : m.length = (ofDatagram m.wire).length := by rw [ofDatagram_wire hm]
  have hlt : ∀ bs, ofLeBytes (field 6 2 bs) < 2 ^ 16 := ofLeBytes_field_lt 6 2
  rw [hm', ofDatagram, ofDatagram, deserialize, deserialize, ← UInt16.toNat_inj]
  dsimp only
  rw [UInt16.toNat_ofNat', UInt16.toNat_ofNat', Nat.mod_eq_of_lt (hlt _),
    Nat.mod_eq_of_lt (hlt _)]
  exact hb.ofLeBytes_field_iff 6 2

theorem altered_checksum_iff (hm : m.Built) (h : Altered i m.wire d) :
    (ofDatagram d).checksum = m.checksum ↔ 4 ≤ i := by
  have hb := altered_recvBuffer hm h
  have hm' : m.checksum = (ofDatagram m.wire).checksum := by rw [ofDatagram_wire hm]
  have hlt : ∀ bs, ofLeBytes (field 0 4 bs) < 2 ^ 32 := ofLeBytes_field_lt 0 4
  rw [hm', ofDatagram, ofDatagram, deserialize, deserialize, ← UInt32.toNat_inj]
  dsimp only
  rw [UInt32.toNat_ofNat', UInt32.toNat_ofNat', Nat.mod_eq_of_lt (hlt _),
    Nat.mod_eq_of_lt (hlt _), hb.ofLeBytes_field_iff 0 4]
  omega

/-- The byte that the checksum is made of stands in front of the end of the payload, also where the
    payload is empty. -/
theorem lastByte_ofDatagram (hl : (ofDatagram d).length.toNat ≤ MAX_DATA_LENGTH) :
    (recvBuffer d)[11 + (ofDatagram d).length.toNat]? = some (ofDatagram d).lastByte := by
  have hlen : (recvBuffer d).length = 512 := length_padTo _ _
  simp only [MAX_DATA_LENGTH] at hl
  unfold lastByte
  split
  next h0 =>
    -- the top byte of the flags
    have hf : (field 8 4 (recvBuffer d)).length = 4 := by
      rw [field, List.length_take, List.length_drop, hlen]
      rfl
    have htop := topByte_field hf
    rw [field, List.getElem?_take_of_lt (by omega), List.getElem?_drop] at htop
    rw [h0]
    exact htop
  next h0 =>
    have hne : (ofDatagram d).length.toNat ≠ 0 := fun e => h0 (UInt16.toNat_inj.mp e)
    have hdata : (ofDatagram d).data = (recvBuffer d).drop 12 := by
      show padTo MAX_DATA_LENGTH ((recvBuffer d).drop 12) = _
      rw [padTo, List.length_drop, hlen,
        List.take_of_length_le (by rw [List.length_drop, hlen]; rfl)]
      exact List.append_nil _
    rw [hdata, List.getD_eq_getElem?_getD, List.getElem?_drop,
      show 12 + ((ofDatagram d).length.toNat - 1) = 11 + (ofDatagram d).length.toNat by omega,
      List.getElem?_eq_getElem (by omega), Option.getD_some]

/-- Where an altered byte shows: in the checksum, in the length, and in the byte that the checksum
    is made of. -/
def Covered (m : MsgT) (i : Nat) : Prop := i < 4 ∨ i = 6 ∨ i = 7 ∨ i + 1 = m.getTotalLength

theorem not_accepted_altered_iff (hm : m.Built) (h : Altered i m.wire d) :
    accepted d = false ↔ Covered m i := by
  have hle := hm.length_le
  have hvalid := hm.valid
  simp only [valid, Bool.and_eq_true, beq_iff_eq] at hvalid
  rw [← Bool.not_eq_true, accepted_iff_of_length hm h.length_eq, altered_length_iff hm h, Covered,
    getTotalLength_eq]
  by_cases hi : i < 6 ∨ 8 ≤ i
  · have hlen := (altered_length_iff hm h).mpr hi
    have hb := altered_recvBuffer hm h
    have hat := lastByte_ofDatagram (d := d) (hlen ▸ hle)
    have hat' := lastByte_ofDatagram (d := m.wire) (by rw [ofDatagram_wire hm]; exact hle)
    rw [hlen] at hat
    rw [ofDatagram_wire hm] at hat'
    by_cases hlast : i = 11 + m.length.toNat
    · -- the byte that the checksum is made of
      have hc := (altered_checksum_iff hm h).mpr (by omega)
      obtain ⟨b, hb', hne⟩ := hb.getElem?_at
      rw [hc, hvalid.2]
      refine ⟨fun _ => by omega, fun _ hboth => hne ?_⟩
      rw [← hb', hlast, hat, hat', checksumOf_inj hboth.2]
    · have hsame : (ofDatagram d).lastByte = m.lastByte := by
        rw [hb.getElem?_ne (Ne.symm hlast), hat'] at hat
        exact (Option.some.inj hat).symm
      rw [hsame, ← hvalid.2, altered_checksum_iff hm h]
      omega
  · constructor
    · intro _
      omega
    · intro _ hboth
      exact hi hboth.1

/-- The tests of lowrecv and of recv refuse a datagram with one altered byte if and only if the
    byte is one of these. -/
theorem altered_refused_iff (hm : Constructed m) (h : Altered i m.wire d) (s : RcsT) (e : Errno)
    (src : SockaddrIn) :
    let o : RecvFrom := .datagram e d src
    let r := s.rawrecv o
    ((s.lowrecv o).2.2 = false ↔ Covered m i) ∧
    (RcsT.isValid r.bytes (r.msg.getD default) = false ↔ Covered m i) := by
  intro o r
  have htest : RcsT.isValid r.bytes (r.msg.getD default) = accepted d := isValid_reports s d e src
  have hiff := not_accepted_altered_iff hm.built h
  refine ⟨?_, ?_⟩
  · show RcsT.isValid r.bytes (r.msg.getD default) = false ↔ _
    rw [htest]
    exact hiff
  · rw [htest]
    exact hiff

/-- The last byte of a fragment is altered. -/
theorem altered_refused_iff_last :
    ((RcsT.new 3 ⟨0, 0⟩).lowrecv
      (.datagram .EAGAIN ((flagged 7 [1, 2] 2 NONE).wire.set 13 9) ⟨2, 0⟩)).2.2 = false :=
  (altered_refused_iff (.data 7 [1, 2] 2 NONE (by decide) (by decide) (by decide))
    ⟨by decide, 9, by decide, rfl⟩ (RcsT.new 3 ⟨0, 0⟩) .EAGAIN ⟨2, 0⟩).1.mpr
    (Or.inr (Or.inr (Or.inr (by decide))))

/-- The first byte of a fragment of two is altered, and nobody notices. -/
theorem altered_unnoticed : ¬ ∀ (m : MsgT) (i : Nat) (d : List UInt8), Constructed m →
    Altered i m.wire d → ∀ (s : RcsT) (e : Errno) (src : SockaddrIn),
    (s.lowrecv (.datagram e d src)).2.2 = false := by
  intro h
  have hnoticed := h (flagged 7 [1, 2] 2 NONE) 12 ((flagged 7 [1, 2] 2 NONE).wire.set 12 9)
    (.data 7 [1, 2] 2 NONE (by decide) (by decide) (by decide)) ⟨by decide, 9, by decide, rfl⟩
    (RcsT.new 3 ⟨0, 0⟩) .EAGAIN ⟨2, 0⟩
  revert hnoticed
  decide +kernel

end Altered

end Ece358.Rcs
