/-
  File:      Ece358/Fragments.lean
  Subject:   The messages one send call emits (rcs_t.cc, lines 185 to 209).

  `send(data, length)` cuts its data into `nfrag data` fragments, numbered from 0 modulo 2^16,
  and ends with an EOS marker that carries the next number:

  * `num k` -- the number of the `k`th message, a `uint16_t`;
  * `pkt data k` -- the `k`th message, for `k <= nfrag data`; the last one is the marker;
  * `sendLoop_at`, `send_start` -- the loop of send emits `pkt data k` in its `k`th pass;
  * `payloads_take` -- the payloads of the first `c` messages are the first `500 * c` bytes.
-/
import Ece358.RcsSteps

namespace Ece358.Rcs

open MsgT

/-! ## 1. Numbers modulo 2^16 -/

/-- The number of the `k`th message of a send call. -/
def num (k : Nat) : UInt16 := UInt16.ofNat k

theorem num_eq_iff {j k : Nat} : num j = num k ↔ j % 65536 = k % 65536 := by
  rw [num, num, ← UInt16.toNat_inj, UInt16.toNat_ofNat', UInt16.toNat_ofNat']

theorem num_succ (k : Nat) : num k + 1 = num (k + 1) := by
  rw [num, num, UInt16.ofNat_add]
  rfl

theorem num_succ_sub_one (k : Nat) : num (k + 1) - 1 = num k := by
  rw [← num_succ, UInt16.add_sub_cancel]

theorem num_zero : num 0 = 0 := rfl

theorem num_succ_ne (k : Nat) : num (k + 1) ≠ num k := by
  rw [Ne, num_eq_iff]
  omega

theorem num_eq_max_iff {k : Nat} : num k = 65535 ↔ k % 65536 = 65535 := by
  have h : (65535 : UInt16) = num 65535 := rfl
  rw [h, num_eq_iff]

/-! ## 2. The messages of a send call -/

/-- The number of fragments. -/
def nfrag (data : List UInt8) : Nat := (data.length + (MAX_DATA_LENGTH - 1)) / MAX_DATA_LENGTH

/-- The `k`th message of `send(data)`: a fragment, or the EOS marker behind the last one. -/
def pkt (data : List UInt8) (k : Nat) : MsgT :=
  if k < nfrag data then
    fragment (num k) (data.drop (MAX_DATA_LENGTH * k))
      (min (data.length - MAX_DATA_LENGTH * k) MAX_DATA_LENGTH)
  else control (num k) EOS

theorem lt_nfrag_iff {data : List UInt8} {k : Nat} :
    k < nfrag data ↔ MAX_DATA_LENGTH * k < data.length := by
  simp only [nfrag, MAX_DATA_LENGTH]
  omega

theorem nfrag_eq_zero {data : List UInt8} (h : nfrag data = 0) : data = [] := by
  have h0 : ¬ 0 < nfrag data := by omega
  rw [lt_nfrag_iff] at h0
  exact List.eq_nil_of_length_eq_zero (by omega)

theorem pkt_fragment {data : List UInt8} {k : Nat} (h : k < nfrag data) :
    pkt data k = fragment (num k) (data.drop (MAX_DATA_LENGTH * k))
      (min (data.length - MAX_DATA_LENGTH * k) MAX_DATA_LENGTH) := if_pos h

theorem pkt_eos (data : List UInt8) : pkt data (nfrag data) = control (num (nfrag data)) EOS :=
  if_neg (lt_irrefl _)

@[simp] theorem pkt_seqnum (data : List UInt8) (k : Nat) : (pkt data k).seqnum = num k := by
  rw [pkt]
  split <;> rfl

theorem built_eos (v : UInt16) : (control v EOS).Built := built_control v rfl

theorem built_ack (v : UInt16) : (control v ACK).Built := built_control v rfl

theorem pkt_built (data : List UInt8) (k : Nat) : (pkt data k).Built := by
  rw [pkt]
  split
  next h =>
    rw [lt_nfrag_iff] at h
    simp only [MAX_DATA_LENGTH] at h
    refine built_fragment _ ?_ (Nat.min_le_right _ _) ?_
    · simp only [MAX_DATA_LENGTH]
      omega
    · rw [List.length_drop]
      exact Nat.min_le_left _ _
  next => exact built_eos _

theorem pkt_hasFlag_eos (data : List UInt8) {k : Nat} :
    (pkt data k).hasFlag EOS = decide (nfrag data ≤ k) := by
  rw [pkt]
  split
  next h =>
    rw [hasFlag_fragment, decide_eq_false (by omega)]
    rfl
  next h =>
    rw [hasFlag_control, decide_eq_true (by omega)]
    rfl

theorem pkt_noFin (data : List UInt8) (k : Nat) : (pkt data k).hasFlag FIN = false := by
  rw [pkt]
  split
  · rw [hasFlag_fragment]; rfl
  · rw [hasFlag_control]; rfl

theorem pkt_noAck (data : List UInt8) (k : Nat) : (pkt data k).hasFlag ACK = false := by
  rw [pkt]
  split
  · rw [hasFlag_fragment]; rfl
  · rw [hasFlag_control]; rfl

/-- The payload of a fragment. -/
theorem pkt_payload {data : List UInt8} {k : Nat} (h : k < nfrag data) :
    (pkt data k).payload = (data.drop (MAX_DATA_LENGTH * k)).take MAX_DATA_LENGTH := by
  rw [pkt_fragment h, fragment_payload _ (Nat.min_le_right _ _)
    (by rw [List.length_drop]; exact Nat.min_le_left _ _), Nat.min_comm, ← List.length_drop,
    ← List.take_eq_take_min]

theorem pkt_length_ne_zero {data : List UInt8} {k : Nat} (h : k < nfrag data) :
    (pkt data k).length ≠ 0 := by
  intro e
  have hl := fragment_length (data.drop (MAX_DATA_LENGTH * k)) (num k)
    (Nat.min_le_right (data.length - MAX_DATA_LENGTH * k) MAX_DATA_LENGTH)
  rw [← pkt_fragment h, e] at hl
  rw [lt_nfrag_iff] at h
  simp only [MAX_DATA_LENGTH] at hl h
  simp at hl
  omega

/-- The bytes of the first `c` messages. -/
def firstBytes (data : List UInt8) (c : Nat) : List UInt8 := data.take (MAX_DATA_LENGTH * c)

@[simp] theorem firstBytes_zero (data : List UInt8) : firstBytes data 0 = [] := rfl

theorem firstBytes_succ {data : List UInt8} {c : Nat} (h : c < nfrag data) :
    firstBytes data (c + 1) = firstBytes data c ++ (pkt data c).payload := by
  rw [pkt_payload h, firstBytes, firstBytes, Nat.mul_succ, List.take_add]

theorem firstBytes_nfrag (data : List UInt8) : firstBytes data (nfrag data) = data := by
  refine List.take_of_length_le ?_
  have h : ¬ nfrag data < nfrag data := lt_irrefl _
  rw [lt_nfrag_iff] at h
  omega

/-! ## 3. The loop of send -/

/-- Where a send call stands that is about to repeat its `k`th message. -/
def sendPc (data : List UInt8) (k : Nat) : Pc :=
  if k < nfrag data then .sendFragment data (MAX_DATA_LENGTH * k) (pkt data k)
  else .sendEos data (pkt data k)

/-- A pass of the loop, or the marker behind it. -/
theorem sendLoop_at {s : RcsT} (h : s.isClosing_ = false) (data : List UInt8) {k : Nat}
    (hs : s.sendSeqnum_ = num k) :
    RcsT.sendLoop s data (MAX_DATA_LENGTH * k) =
      ⟨s, [s.rawsend (pkt data k)], sendPc data k⟩ := by
  by_cases hlt : k < nfrag data
  · have hl := lt_nfrag_iff.mp hlt
    simp only [RcsT.sendLoop, sendPc, if_pos hlt, pkt_fragment hlt, hl, h, hs,
      and_self, if_true]
  · have hl : ¬ MAX_DATA_LENGTH * k < data.length := fun hl => hlt (lt_nfrag_iff.mpr hl)
    have he : pkt data k = control (num k) EOS := if_neg hlt
    simp only [RcsT.sendLoop, sendPc, if_neg hlt, he, hl, h, hs, false_and, if_false,
      if_true]

/-- The socket at the start of a send. -/
def sendStarted (s : RcsT) : RcsT := { s with sendSeqnum_ := 0 }

theorem Open.sendStarted {s : RcsT} (h : Open s) : Open (sendStarted s) :=
  ⟨h.notClosing, h.connected⟩

/-- A send call starts with its first message. -/
theorem send_start {s : RcsT} (h : Open s) (data : List UInt8) :
    start s (.send data) = ⟨sendStarted s, [(sendStarted s).rawsend (pkt data 0)], sendPc data 0⟩ :=
  sendLoop_at h.sendStarted.notClosing data rfl

/-- The socket behind an answered acksend of a fragment. -/
def nextFragment (s : RcsT) : RcsT := { s with sendSeqnum_ := s.sendSeqnum_ + 1 }

/-- A blocked send call whose acksend ends goes on to its next message, or returns. -/
theorem resume_sendPc_left {s s' : RcsT} {o : RecvFrom} {data : List UInt8} {k : Nat}
    {out : List Event} (h : s'.isClosing_ = false) (hs : s'.sendSeqnum_ = num k)
    (ha : s.acksend (pkt data k) o = (s', out, true)) :
    resume s (sendPc data k) o =
      if k < nfrag data then
        ⟨nextFragment s', out ++ [s'.rawsend (pkt data (k + 1))], sendPc data (k + 1)⟩
      else ⟨s', out, .returned (.send (.ofNat data.length))⟩ := by
  by_cases hlt : k < nfrag data
  · have hn : (nextFragment s').sendSeqnum_ = num (k + 1) := by
      show s'.sendSeqnum_ + 1 = _
      rw [hs, num_succ]
    have hl := sendLoop_at (show (nextFragment s').isClosing_ = false from h) data hn
    rw [Nat.mul_succ] at hl
    rw [sendPc, if_pos hlt, if_pos hlt, resume, ha]
    show (RcsT.sendLoop (nextFragment s') data (MAX_DATA_LENGTH * k + MAX_DATA_LENGTH)).after _ = _
    rw [hl]
    rfl
  · rw [sendPc, if_neg hlt, if_neg hlt, resume, ha]
    rfl

theorem resume_sendPc_acked {s s' : RcsT} {o : RecvFrom} {data : List UInt8} {k : Nat}
    (h : Open s') (hs : s'.sendSeqnum_ = num k)
    (ha : s.acksend (pkt data k) o = (s', [.acked (pkt data k)], true)) :
    resume s (sendPc data k) o =
      if k < nfrag data then
        ⟨nextFragment s', [.acked (pkt data k), s'.rawsend (pkt data (k + 1))], sendPc data (k + 1)⟩
      else ⟨s', [.acked (pkt data k)], .returned (.send (.ofNat data.length))⟩ :=
  resume_sendPc_left h.notClosing hs ha

/-- A blocked send call that is not answered stays where it is. -/
theorem resume_sendPc_again {s s' : RcsT} {o : RecvFrom} {data : List UInt8} {k : Nat}
    {out : List Event} (ha : s.acksend (pkt data k) o = (s', out, false)) :
    resume s (sendPc data k) o = ⟨s', out, sendPc data k⟩ := by
  rw [sendPc]
  split
  · rw [resume, ha]; rfl
  · rw [resume, ha]; rfl

end Ece358.Rcs
