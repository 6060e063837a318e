/-
  File:      Ece358/SendSize.lean
  Subject:   The size that rcsSend is given (rcs.cc, lines 109 to 116; rcs_t.cc, lines 185 to 209).

  The user passes a pointer and an `int`. The size becomes a `size_t` by a cast, so a negative one
  becomes a length of almost 2^64, and the loop of send counts up to it in steps of 500, in 64-bit
  arithmetic, while it copies from the user's memory.

  * `Memory`, `bytesAt` -- the memory behind the pointer;
  * `rcsSendLoop`, `rcsSendResume`, `rcsSendRun` -- the call on a stream of outcomes, with the
    parts it has built: for each fragment, what was read for it;
  * `Acknowledged` -- the peer acknowledges every fragment, and sends no FIN;
  * `Covers` -- what is built in the end covers the bytes of the user;
  * `InLoop` -- the invariant: the `k`th part is the one that `send` repeats as its `k`th message;
  * `covers_iff` -- the fragments cover the bytes if and only if the size is not negative.
-/
import Ece358.SendResult

namespace Ece358.Rcs

open Lib MsgT

/-! ## 1. The call -/

/-- The memory, by the distance from the address `data`; addresses wrap. -/
abbrev Memory := UInt64 → UInt8

/-- The `n` bytes from `data + first` on. -/
def bytesAt (mem : Memory) (first : UInt64) (n : Nat) : List UInt8 :=
  (List.range n).map fun i => mem (first + UInt64.ofNat i)

/-- static_cast<size_t>(size) -/
def toSizeT (size : Int32) : UInt64 := size.toInt64.toUInt64

/-- A fragment, and the bytes that were read for it: `count` of them from `data + first` on. -/
structure Fragment where
  first : UInt64
  count : UInt64
  msg : MsgT
  deriving DecidableEq

/-- What send builds: fragments, and a marker. -/
inductive Part where
  | fragment (f : Fragment)
  | marker (msg : MsgT)
  deriving DecidableEq

inductive SizedPc where
  | fragment (processedSize : UInt64) (msg : MsgT)
  | eos (msg : MsgT)
  | returned (result : Int32)
  deriving DecidableEq

/-- The state of the call: the socket, where it stands, and the parts it has built. -/
structure SizedSend where
  sock : RcsT
  pc : SizedPc
  built : List Part
  deriving DecidableEq

/-- The head of the loop in `send`, and what follows the loop; the result is an `int` again. -/
def rcsSendLoop (s : RcsT) (mem : Memory) (length processedSize : UInt64) (built : List Part) :
    SizedSend :=
  if processedSize < length ∧ s.isClosing_ = false then
    let count := min (length - processedSize) 500
    let msg := MsgT.fragment s.sendSeqnum_ (bytesAt mem processedSize count.toNat) count.toNat
    ⟨s, .fragment processedSize msg, built ++ [.fragment ⟨processedSize, count, msg⟩]⟩
  else if s.isClosing_ = false then
    let msg := MsgT.control s.sendSeqnum_ EOS
    ⟨s, .eos msg, built ++ [.marker msg]⟩
  else ⟨s, .returned length.toUInt32.toInt32, built⟩

/-- rcsSend on a socket -/
def rcsSend (s : RcsT) (mem : Memory) (size : Int32) : SizedSend :=
  rcsSendLoop { s with sendSeqnum_ := 0 } mem (toSizeT size) 0 []

/-- The rest of the call, from the outcome of a receive on. -/
def rcsSendResume (mem : Memory) (length : UInt64) (w : SizedSend) (o : RecvFrom) : SizedSend :=
  match w.pc with
  | .fragment processedSize msg =>
    let (s', _, leave) := w.sock.acksend msg o
    if leave then
      rcsSendLoop { s' with sendSeqnum_ := s'.sendSeqnum_ + 1 } mem length (processedSize + 500)
        w.built
    else { w with sock := s' }
  | .eos msg =>
    let (s', _, leave) := w.sock.acksend msg o
    if leave then { w with sock := s', pc := .returned length.toUInt32.toInt32 }
    else { w with sock := s' }
  | .returned _ => w

/-- The call behind the first `n` outcomes of a stream. -/
def rcsSendRun (s : RcsT) (mem : Memory) (size : Int32) (os : Nat → RecvFrom) : Nat → SizedSend
  | 0 => rcsSend s mem size
  | n + 1 => rcsSendResume mem (toSizeT size) (rcsSendRun s mem size os n) (os n)

/-- The peer acknowledges every fragment that is repeated to it, and closes nothing. -/
structure Acknowledged (run : Nat → SizedSend) (os : Nat → RecvFrom) : Prop where
  noFin : ∀ n, ¬ BringsFin (os n)
  answers : ∀ n processedSize msg, (run n).pc = .fragment processedSize msg →
    ∃ m, n ≤ m ∧ Acknowledges msg (os m)

/-- These fragments, and one marker behind them, carry the `size` bytes of the user and nothing
    else, under the numbers from 0 on. -/
structure CoveredBy (mem : Memory) (size : Nat) (frs : List Fragment) (built : List Part) :
    Prop where
  parts : built = frs.map .fragment ++ [.marker (control (num frs.length) EOS)]
  nonempty : ∀ f ∈ frs, 0 < f.msg.length.toNat ∧ f.msg.length.toNat ≤ MAX_DATA_LENGTH
  numbers : ∀ k (hk : k < frs.length), frs[k].msg.seqnum = num k
  bytes : (frs.flatMap fun f => f.msg.payload) = bytesAt mem 0 size
  reads : ∀ f ∈ frs, f.first.toNat + f.count.toNat ≤ size

/-- The loop ends: from some receive on, what is built covers the `max(size, 0)` bytes of the
    user, and stays so. -/
def Covers (mem : Memory) (size : Int32) (run : Nat → SizedSend) : Prop :=
  ∃ N frs, ∀ n, N ≤ n → CoveredBy mem size.toInt.toNat frs (run n).built

/-! ## 2. Sizes and bytes -/

section Sizes

variable {size : Int32} {mem : Memory}

theorem toSizeT_of_nonneg (h : 0 ≤ size.toInt) : (toSizeT size).toNat = size.toInt.toNat := by
  have h64 : (0 : Int64) ≤ size.toInt64 := by
    rw [Int64.le_iff_toInt_le, Int32.toInt_toInt64]
    exact h
  rw [toSizeT, Int64.toNat_toUInt64_of_le h64, Int64.toNatClampNeg, Int32.toInt_toInt64]

/-- A negative size becomes a length in the upper half. -/
theorem toSizeT_of_neg (h : size.toInt < 0) : 2 ^ 63 ≤ (toSizeT size).toNat := by
  have hneg : size.toInt64.toBitVec.toInt < 0 := by
    show size.toInt64.toInt < 0
    rw [Int32.toInt_toInt64]
    exact h
  have hbits : (toSizeT size).toNat = size.toInt64.toBitVec.toNat := by
    rw [← Int64.toBitVec_toUInt64]
    rfl
  rw [BitVec.toInt_neg_iff] at hneg
  omega

theorem toNat_min (a b : UInt64) : (min a b).toNat = min a.toNat b.toNat := by
  show (if a ≤ b then a else b).toNat = _
  split
  next h => exact (Nat.min_eq_left (UInt64.le_iff_toNat_le.mp h)).symm
  next h =>
    rw [UInt64.le_iff_toNat_le] at h
    exact (Nat.min_eq_right (by omega)).symm

@[simp] theorem length_bytesAt (mem : Memory) (first : UInt64) (n : Nat) :
    (bytesAt mem first n).length = n := by
  rw [bytesAt, List.length_map, List.length_range]

/-- Bytes out of the middle. -/
theorem bytesAt_drop_take {n a c : Nat} (h : a + c ≤ n) :
    ((bytesAt mem 0 n).drop a).take c = bytesAt mem (UInt64.ofNat a) c := by
  refine List.ext_getElem (by simp; omega) fun i _ _ => ?_
  simp only [bytesAt, List.getElem_take, List.getElem_drop, List.getElem_map, List.getElem_range,
    UInt64.ofNat_add, UInt64.zero_add]

/-- A fragment is built from the bytes it takes. -/
theorem fragment_take (v : UInt16) (src : List UInt8) {len : Nat} (h : 1 ≤ len) :
    fragment v (src.take len) len = fragment v src len := by
  refine ext' ?_ rfl rfl rfl ?_
  · show checksumOf ((src.take len).getD (len - 1) 0) = checksumOf (src.getD (len - 1) 0)
    rw [List.getD_eq_getElem?_getD, List.getD_eq_getElem?_getD,
      List.getElem?_take_of_lt (by omega)]
  · show padTo MAX_DATA_LENGTH ((src.take len).take len) = padTo MAX_DATA_LENGTH (src.take len)
    rw [List.take_take, Nat.min_self]

end Sizes

/-! ## 3. The loop -/

/-- The bytes of the user. -/
def userBytes (mem : Memory) (size : Int32) : List UInt8 := bytesAt mem 0 size.toInt.toNat

/-- The `k`th fragment. -/
def fragmentAt (mem : Memory) (size : Int32) (k : Nat) : Fragment where
  first := UInt64.ofNat (MAX_DATA_LENGTH * k)
  count := UInt64.ofNat (min (size.toInt.toNat - MAX_DATA_LENGTH * k) MAX_DATA_LENGTH)
  msg := pkt (userBytes mem size) k

/-- The `k`th part: a fragment, or the marker behind the last one. -/
def partAt (mem : Memory) (size : Int32) (k : Nat) : Part :=
  if k < nfrag (userBytes mem size) then .fragment (fragmentAt mem size k)
  else .marker (pkt (userBytes mem size) k)

/-- The first `k` parts. -/
def partsTo (mem : Memory) (size : Int32) (k : Nat) : List Part :=
  (List.range k).map (partAt mem size)

/-- Where the call repeats the `k`th part. -/
def placeAt (mem : Memory) (size : Int32) (k : Nat) : SizedPc :=
  if k < nfrag (userBytes mem size) then
    .fragment (UInt64.ofNat (MAX_DATA_LENGTH * k)) (pkt (userBytes mem size) k)
  else .eos (pkt (userBytes mem size) k)

/-- The call repeats its `k`th part. -/
structure InLoop (mem : Memory) (size : Int32) (w : SizedSend) (k : Nat) : Prop where
  le : k ≤ nfrag (userBytes mem size)
  pc : w.pc = placeAt mem size k
  built : w.built = partsTo mem size (k + 1)
  seqnum : w.sock.sendSeqnum_ = num k
  notClosing : w.sock.isClosing_ = false

/-- The call has returned, with all parts built. -/
structure Done (mem : Memory) (size : Int32) (w : SizedSend) : Prop where
  pc : ∃ result, w.pc = .returned result
  built : w.built = partsTo mem size (nfrag (userBytes mem size) + 1)

section Loop

variable {s : RcsT} {mem : Memory} {size : Int32} {w : SizedSend} {k : Nat} {o : RecvFrom}

@[simp] theorem length_userBytes (mem : Memory) (size : Int32) :
    (userBytes mem size).length = size.toInt.toNat := length_bytesAt _ _ _

@[simp] theorem length_partsTo (mem : Memory) (size : Int32) (k : Nat) :
    (partsTo mem size k).length = k := by
  rw [partsTo, List.length_map, List.length_range]

theorem partsTo_succ (mem : Memory) (size : Int32) (k : Nat) :
    partsTo mem size (k + 1) = partsTo mem size k ++ [partAt mem size k] := by
  rw [partsTo, List.range_succ, List.map_append]
  rfl

/-- A pass of the loop, or the marker behind it. -/
theorem rcsSendLoop_at (mem : Memory) (hsize : 0 ≤ size.toInt) (h : s.isClosing_ = false)
    (hs : s.sendSeqnum_ = num k) (hk : k ≤ nfrag (userBytes mem size)) :
    InLoop mem size (rcsSendLoop s mem (toSizeT size) (UInt64.ofNat (MAX_DATA_LENGTH * k))
      (partsTo mem size k)) k := by
  have hlen := toSizeT_of_nonneg hsize
  have hmax : size.toInt.toNat < 2 ^ 31 := by
    have hlt := size.toInt_lt
    omega
  have hfirst : (UInt64.ofNat (MAX_DATA_LENGTH * k)).toNat = MAX_DATA_LENGTH * k := by
    refine UInt64.toNat_ofNat_of_lt' ?_
    simp only [nfrag, length_userBytes, MAX_DATA_LENGTH, UInt64.size] at hk ⊢
    omega
  have hcond : UInt64.ofNat (MAX_DATA_LENGTH * k) < toSizeT size ↔
      k < nfrag (userBytes mem size) := by
    rw [UInt64.lt_iff_toNat_lt, hfirst, hlen, lt_nfrag_iff, length_userBytes]
  unfold rcsSendLoop
  by_cases hlt : k < nfrag (userBytes mem size)
  · have hk' := lt_nfrag_iff.mp hlt
    rw [length_userBytes] at hk'
    rw [if_pos ⟨hcond.mpr hlt, h⟩]
    -- the 64-bit arithmetic does not wrap
    have hcount : min (toSizeT size - UInt64.ofNat (MAX_DATA_LENGTH * k)) 500 =
        UInt64.ofNat (min (size.toInt.toNat - MAX_DATA_LENGTH * k) MAX_DATA_LENGTH) := by
      refine UInt64.toNat_inj.mp ?_
      have hle : UInt64.ofNat (MAX_DATA_LENGTH * k) ≤ toSizeT size := by
        rw [UInt64.le_iff_toNat_le, hfirst, hlen]
        exact hk'.le
      rw [toNat_min, UInt64.toNat_sub_of_le _ _ hle, hfirst, hlen]
      refine (UInt64.toNat_ofNat_of_lt' ?_).symm
      simp only [UInt64.size]
      omega
    have hcount' : (min (toSizeT size - UInt64.ofNat (MAX_DATA_LENGTH * k)) 500).toNat =
        min (size.toInt.toNat - MAX_DATA_LENGTH * k) MAX_DATA_LENGTH := by
      rw [hcount]
      refine UInt64.toNat_ofNat_of_lt' ?_
      simp only [UInt64.size]
      omega
    have hmsg : fragment (num k) (bytesAt mem (UInt64.ofNat (MAX_DATA_LENGTH * k))
        (min (size.toInt.toNat - MAX_DATA_LENGTH * k) MAX_DATA_LENGTH))
        (min (size.toInt.toNat - MAX_DATA_LENGTH * k) MAX_DATA_LENGTH) =
        pkt (userBytes mem size) k := by
      have h1 : 1 ≤ min (size.toInt.toNat - MAX_DATA_LENGTH * k) MAX_DATA_LENGTH := by
        simp only [MAX_DATA_LENGTH] at hk' ⊢
        omega
      rw [pkt_fragment hlt, length_userBytes, userBytes,
        ← bytesAt_drop_take (n := size.toInt.toNat) (by omega), fragment_take _ _ h1]
    dsimp only
    rw [hs, hcount', hcount, hmsg]
    refine ⟨hk, ?_, ?_, hs, h⟩
    · rw [placeAt, if_pos hlt]
    · rw [partsTo_succ, partAt, if_pos hlt]
      rfl
  · rw [if_neg fun hc => hlt (hcond.mp hc.1), if_pos h]
    have hmsg : control (num k) EOS = pkt (userBytes mem size) k := (if_neg hlt).symm
    rw [hs, hmsg]
    refine ⟨hk, ?_, ?_, hs, h⟩
    · rw [placeAt, if_neg hlt]
    · rw [partsTo_succ, partAt, if_neg hlt]

/-- An acksend that is left leads to the next pass, or to the return. -/
theorem rcsSendResume_fragment {processedSize length : UInt64} {msg : MsgT}
    (h : w.pc = .fragment processedSize msg) :
    rcsSendResume mem length w o =
      if (w.sock.acksend msg o).2.2 = true then
        rcsSendLoop (nextFragment (w.sock.acksend msg o).1) mem length (processedSize + 500) w.built
      else ⟨(w.sock.acksend msg o).1, .fragment processedSize msg, w.built⟩ := by
  unfold rcsSendResume
  rw [h]
  rfl

theorem rcsSendResume_eos {length : UInt64} {msg : MsgT} (h : w.pc = .eos msg) :
    rcsSendResume mem length w o =
      if (w.sock.acksend msg o).2.2 = true then
        ⟨(w.sock.acksend msg o).1, .returned length.toUInt32.toInt32, w.built⟩
      else ⟨(w.sock.acksend msg o).1, .eos msg, w.built⟩ := by
  unfold rcsSendResume
  rw [h]

/-- What the call does with a receive: it repeats its part, or goes on to the next one. -/
theorem InLoop.next (hsize : 0 ≤ size.toInt) (h : InLoop mem size w k) (hfin : ¬ BringsFin o) :
    let w' := rcsSendResume mem (toSizeT size) w o
    (¬ EndsAcksend (pkt (userBytes mem size) k) o → InLoop mem size w' k) ∧
      (EndsAcksend (pkt (userBytes mem size) k) o →
        if k < nfrag (userBytes mem size) then InLoop mem size w' (k + 1)
        else Done mem size w') := by
  intro w'
  obtain ⟨hseq, hclosed, hends⟩ := acksend_rest h.notClosing (pkt (userBytes mem size) k) o
  have hopen : (w.sock.acksend (pkt (userBytes mem size) k) o).1.isClosing_ = false :=
    Bool.eq_false_iff.mpr fun hc => hfin (hclosed.mp hc)
  have hseq' := hseq.trans h.seqnum
  by_cases hlt : k < nfrag (userBytes mem size)
  · have hplace : placeAt mem size k = .fragment _ _ := if_pos hlt
    have hw' : w' = _ := rcsSendResume_fragment (h.pc.trans hplace)
    rw [if_pos hlt, hw']
    refine ⟨fun hno => ?_, fun he => ?_⟩
    · rw [if_neg fun hl => hno (hends.mp hl)]
      exact ⟨h.le, hplace.symm, h.built, hseq', hopen⟩
    · rw [if_pos (hends.mpr he)]
      have hnum : (nextFragment (w.sock.acksend (pkt (userBytes mem size) k) o).1).sendSeqnum_ =
          num (k + 1) := by
        show (w.sock.acksend (pkt (userBytes mem size) k) o).1.sendSeqnum_ + 1 = _
        rw [hseq', num_succ]
      have hloop := rcsSendLoop_at mem hsize (show (nextFragment _).isClosing_ = false from
        hopen) hnum hlt
      rw [← h.built, Nat.mul_succ, UInt64.ofNat_add] at hloop
      exact hloop
  · have hplace : placeAt mem size k = .eos _ := if_neg hlt
    have hw' : w' = _ := rcsSendResume_eos (h.pc.trans hplace)
    rw [if_neg hlt, hw']
    refine ⟨fun hno => ?_, fun he => ?_⟩
    · rw [if_neg fun hl => hno (hends.mp hl)]
      exact ⟨h.le, hplace.symm, h.built, hseq', hopen⟩
    · rw [if_pos (hends.mpr he)]
      have hk : k = nfrag (userBytes mem size) := Nat.le_antisymm h.le (Nat.not_lt.mp hlt)
      exact ⟨⟨_, rfl⟩, hk ▸ h.built⟩

theorem Done.next (h : Done mem size w) (o : RecvFrom) :
    rcsSendResume mem (toSizeT size) w o = w := by
  obtain ⟨result, hpc⟩ := h.pc
  unfold rcsSendResume
  rw [hpc]

/-- What was built stays built. -/
theorem built_isPrefix (mem : Memory) (length : UInt64) (w : SizedSend) (o : RecvFrom) :
    w.built <+: (rcsSendResume mem length w o).built := by
  have hloop : ∀ (s : RcsT) (p : UInt64),
      w.built <+: (rcsSendLoop s mem length p w.built).built := by
    intro s p
    unfold rcsSendLoop
    split
    · exact List.prefix_append _ _
    · split
      · exact List.prefix_append _ _
      · exact List.prefix_rfl
  cases hpc : w.pc with
  | fragment p msg =>
    rw [rcsSendResume_fragment hpc]
    split
    · exact hloop _ _
    · exact List.prefix_rfl
  | eos msg =>
    rw [rcsSendResume_eos hpc]
    split <;> exact List.prefix_rfl
  | returned result =>
    unfold rcsSendResume
    rw [hpc]

end Loop

/-! ## 4. Runs -/

section Runs

variable {s : RcsT} {mem : Memory} {size : Int32} {os : Nat → RecvFrom} {k n m : Nat}

theorem run_isPrefix (s : RcsT) (mem : Memory) (size : Int32) (os : Nat → RecvFrom) (h : n ≤ m) :
    (rcsSendRun s mem size os n).built <+: (rcsSendRun s mem size os m).built := by
  induction m, h using Nat.le_induction with
  | base => exact List.prefix_rfl
  | succ m _ ih => exact ih.trans (built_isPrefix mem (toSizeT size) _ (os m))

/-- The call is in its loop, or behind it. -/
theorem run_place (mem : Memory) (h : s.isClosing_ = false) (hsize : 0 ≤ size.toInt)
    (hfin : ∀ n, ¬ BringsFin (os n)) (n : Nat) :
    (∃ k, InLoop mem size (rcsSendRun s mem size os n) k) ∨
      Done mem size (rcsSendRun s mem size os n) := by
  induction n with
  | zero =>
    exact Or.inl ⟨0, rcsSendLoop_at (s := sendStarted s) mem hsize h rfl (Nat.zero_le _)⟩
  | succ n ih =>
    rcases ih with ⟨k, hk⟩ | hdone
    · obtain ⟨hstay, hgo⟩ := hk.next hsize (hfin n)
      by_cases he : EndsAcksend (pkt (userBytes mem size) k) (os n)
      · have hgo := hgo he
        split at hgo
        · exact Or.inl ⟨k + 1, hgo⟩
        · exact Or.inr hgo
      · exact Or.inl ⟨k, hstay he⟩
    · exact Or.inr (by rw [rcsSendRun, hdone.next]; exact hdone)

/-- A fragment is repeated until it is left behind. -/
theorem run_waits (hsize : 0 ≤ size.toInt) (hfin : ∀ n, ¬ BringsFin (os n))
    (hk : InLoop mem size (rcsSendRun s mem size os n) k) (hlt : k < nfrag (userBytes mem size))
    (hm : n ≤ m) : InLoop mem size (rcsSendRun s mem size os m) k ∨
      k + 1 < (rcsSendRun s mem size os m).built.length := by
  induction m, hm using Nat.le_induction with
  | base => exact Or.inl hk
  | succ m _ ih =>
    rcases ih with hk | hlen
    · obtain ⟨hstay, hgo⟩ := hk.next hsize (hfin m)
      by_cases he : EndsAcksend (pkt (userBytes mem size) k) (os m)
      · have hnext := hgo he
        rw [if_pos hlt] at hnext
        right
        rw [rcsSendRun, hnext.built, length_partsTo]
        omega
      · exact Or.inl (hstay he)
    · exact Or.inr (hlen.trans_le (run_isPrefix s mem size os (Nat.le_succ m)).length_le)

/-- Every fragment is left behind. -/
theorem run_rises (h : s.isClosing_ = false) (hsize : 0 ≤ size.toInt)
    (hos : Acknowledged (rcsSendRun s mem size os) os)
    (hn : (rcsSendRun s mem size os n).built.length < nfrag (userBytes mem size) + 1) :
    ∃ m, (rcsSendRun s mem size os n).built.length < (rcsSendRun s mem size os m).built.length := by
  rcases run_place mem h hsize hos.noFin n with ⟨k, hk⟩ | hdone
  · have hlen : (rcsSendRun s mem size os n).built.length = k + 1 := by
      rw [hk.built, length_partsTo]
    have hlt : k < nfrag (userBytes mem size) := by omega
    have hplace : placeAt mem size k = .fragment _ _ := if_pos hlt
    obtain ⟨m, hm, hack⟩ := hos.answers n _ _ (hk.pc.trans hplace)
    rcases run_waits hsize hos.noFin hk hlt hm with hk' | hrose
    · have hnext := (hk'.next hsize (hos.noFin m)).2 (ends_of_acknowledges hack)
      rw [if_pos hlt] at hnext
      refine ⟨m + 1, ?_⟩
      rw [hlen, rcsSendRun, hnext.built, length_partsTo]
      omega
    · exact ⟨m, hlen ▸ hrose⟩
  · rw [hdone.built, length_partsTo] at hn
    omega

/-- The fragments carry the bytes of the user. -/
theorem flatMap_payload (data : List UInt8) {c : Nat} (hc : c ≤ nfrag data) :
    ((List.range c).flatMap fun k => (pkt data k).payload) = firstBytes data c := by
  induction c with
  | zero => rfl
  | succ c ih =>
    rw [List.range_succ, List.flatMap_append, ih (Nat.le_of_succ_le hc), firstBytes_succ hc]
    simp

theorem covered_parts (hsize : 0 ≤ size.toInt) :
    CoveredBy mem size.toInt.toNat
      ((List.range (nfrag (userBytes mem size))).map (fragmentAt mem size))
      (partsTo mem size (nfrag (userBytes mem size) + 1)) where
  parts := by
    rw [partsTo_succ, List.length_map, List.length_range, partAt, if_neg (lt_irrefl _), pkt_eos,
      partsTo, List.map_map]
    congr 1
    exact List.map_congr_left fun k hk => if_pos (List.mem_range.mp hk)
  nonempty f hf := by
    obtain ⟨k, hk, rfl⟩ := List.mem_map.mp hf
    have hne := pkt_length_ne_zero (List.mem_range.mp hk)
    refine ⟨Nat.pos_of_ne_zero fun h0 => hne (UInt16.toNat_inj.mp h0), ?_⟩
    exact (pkt_built (userBytes mem size) k).length_le
  numbers k hk := by
    rw [List.getElem_map, List.getElem_range]
    exact pkt_seqnum _ k
  bytes := by
    rw [List.flatMap_map]
    show ((List.range _).flatMap fun k => (pkt (userBytes mem size) k).payload) = _
    rw [flatMap_payload _ (Nat.le_refl _), firstBytes_nfrag]
    rfl
  reads f hf := by
    obtain ⟨k, hk, rfl⟩ := List.mem_map.mp hf
    have hlt := lt_nfrag_iff.mp (List.mem_range.mp hk)
    have hmax := size.toInt_lt
    rw [length_userBytes] at hlt
    show (UInt64.ofNat _).toNat + (UInt64.ofNat _).toNat ≤ _
    rw [UInt64.toNat_ofNat_of_lt' (by simp only [UInt64.size]; omega),
      UInt64.toNat_ofNat_of_lt' (by simp only [UInt64.size]; omega)]
    omega

/-- A size that is not negative. -/
theorem covers_of_nonneg (h : s.isClosing_ = false) (hsize : 0 ≤ size.toInt)
    (hos : Acknowledged (rcsSendRun s mem size os) os) :
    Covers mem size (rcsSendRun s mem size os) := by
  obtain ⟨N, hN⟩ := exists_ge_of_rises fun n => run_rises (n := n) h hsize hos
  refine ⟨N, (List.range (nfrag (userBytes mem size))).map (fragmentAt mem size), fun n hn => ?_⟩
  have hall := hN.trans (run_isPrefix s mem size os hn).length_le
  have hbuilt : (rcsSendRun s mem size os n).built =
      partsTo mem size (nfrag (userBytes mem size) + 1) := by
    rcases run_place mem h hsize hos.noFin n with ⟨k, hk⟩ | hdone
    · have hle := hk.le
      rw [hk.built, length_partsTo] at hall
      rw [hk.built, show k = nfrag (userBytes mem size) by omega]
    · exact hdone.built
  rw [hbuilt]
  exact covered_parts hsize

/-- With a length to go, the first fragment has a byte. -/
theorem first_fragment (h : s.isClosing_ = false) (hlen : 0 < (toSizeT size).toNat)
    (mem : Memory) (os : Nat → RecvFrom) :
    ∃ f : Fragment, f.msg.payload ≠ [] ∧
      (rcsSendRun s mem size os 0).built = [.fragment f] := by
  have hlt : (0 : UInt64) < toSizeT size := UInt64.lt_iff_toNat_lt.mpr hlen
  have hcount : (min (toSizeT size - 0) 500).toNat =
      min (toSizeT size).toNat MAX_DATA_LENGTH := by
    rw [UInt64.sub_zero, toNat_min]
    rfl
  have hbuilt : (rcsSendRun s mem size os 0).built = [.fragment ⟨0, min (toSizeT size - 0) 500,
      fragment 0 (bytesAt mem 0 (min (toSizeT size - 0) 500).toNat)
        (min (toSizeT size - 0) 500).toNat⟩] := by
    unfold rcsSendRun rcsSend rcsSendLoop
    rw [if_pos ⟨hlt, h⟩]
    rfl
  refine ⟨_, ?_, hbuilt⟩
  rw [hcount, fragment_payload _ (Nat.min_le_right _ _) (length_bytesAt _ _ _).ge, ne_eq,
    ← List.length_eq_zero_iff, List.length_take, length_bytesAt]
  simp only [MAX_DATA_LENGTH]
  omega

/-- A negative size: nothing should be sent, but the first fragment has a byte. -/
theorem not_covers_of_neg (h : s.isClosing_ = false) (hsize : size.toInt < 0) (mem : Memory)
    (os : Nat → RecvFrom) :
    ¬ Covers mem size (rcsSendRun s mem size os) := by
  rintro ⟨N, frs, hcov⟩
  have hlen := toSizeT_of_neg hsize
  obtain ⟨parts, _, _, hbytes, _⟩ := hcov N (Nat.le_refl N)
  obtain ⟨f, hf, hbuilt⟩ := first_fragment h (Nat.lt_of_lt_of_le (by decide) hlen) mem os
  obtain ⟨rest, hrest⟩ := run_isPrefix s mem size os (Nat.zero_le N)
  rw [hbuilt, parts] at hrest
  cases frs with
  | nil => cases hrest
  | cons g gs =>
    rw [List.map_cons, List.cons_append, List.cons_append, List.cons.injEq,
      Part.fragment.injEq] at hrest
    obtain ⟨rfl, _⟩ := hrest
    rw [Int.toNat_of_nonpos hsize.le, List.flatMap_cons] at hbytes
    exact hf (List.append_eq_nil_iff.mp hbytes).1

/-- On an open socket whose peer acknowledges every fragment: what rcsSend builds covers the bytes
    of the user if and only if the size is not negative. -/
theorem covers_iff (h : s.isClosing_ = false) (mem : Memory) (size : Int32)
    (hos : Acknowledged (rcsSendRun s mem size os) os) :
    Covers mem size (rcsSendRun s mem size os) ↔ 0 ≤ size.toInt := by
  refine ⟨fun hcov => ?_, fun hsize => covers_of_nonneg h hsize hos⟩
  by_contra hneg
  exact not_covers_of_neg h (Int.not_le.mp hneg) mem os hcov

/-! ### A peer -/

/-- The acknowledgements of a peer, one after the other. -/
def ackStream (n : Nat) : RecvFrom := .datagram .EAGAIN (control (num n) ACK).wire ⟨1, 0⟩

/-- The call waits for the acknowledgement `n`, or has returned. -/
def Expects (w : SizedSend) (n : Nat) : Prop :=
  (w.sock.isClosing_ = false ∧ w.sock.sendSeqnum_ = num n ∧ ∃ msg, msg.seqnum = num n ∧
    ((∃ p, w.pc = .fragment p msg) ∨ w.pc = .eos msg)) ∨ ∃ result, w.pc = .returned result

theorem acknowledges_ackStream {msg : MsgT} (h : msg.seqnum = num n) :
    Acknowledges msg (ackStream n) := by
  have hd := ofDatagram_wire (built_ack (num n))
  refine ⟨accepted_wire (built_ack (num n)), ?_, ?_⟩
  · rw [hd, h, control_seqnum]
  · rw [hd, hasFlag_control]
    rfl

theorem not_fin_ackStream (n : Nat) : ¬ BringsFin (ackStream n) := by
  rintro ⟨_, hfin⟩
  rw [ofDatagram_wire (built_ack (num n)), hasFlag_control] at hfin
  cases hfin

theorem expects_loop (h : s.isClosing_ = false) (hs : s.sendSeqnum_ = num n) (mem : Memory)
    (length p : UInt64) (built : List Part) : Expects (rcsSendLoop s mem length p built) n := by
  unfold rcsSendLoop
  split
  · exact Or.inl ⟨h, hs, _, hs, Or.inl ⟨p, rfl⟩⟩
  · exact Or.inl ⟨h, hs, _, hs, Or.inr rfl⟩

theorem expects_ackStream (h : s.isClosing_ = false) (mem : Memory) (size : Int32) (n : Nat) :
    Expects (rcsSendRun s mem size ackStream n) n := by
  induction n with
  | zero => exact expects_loop (s := sendStarted s) h rfl mem _ 0 []
  | succ n ih =>
    rcases ih with ⟨hopen, hs, msg, hmsg, hpc⟩ | ⟨result, hpc⟩
    · have hack := acknowledges_ackStream hmsg
      have hfin := not_fin_ackStream n
      rw [rcsSendRun]
      generalize ackStream n = o at hack hfin
      obtain ⟨hseq, hclosed, hends⟩ := acksend_rest hopen msg o
      have hleave := hends.mpr (ends_of_acknowledges hack)
      have hopen' := Bool.eq_false_iff.mpr fun hc => hfin (hclosed.mp hc)
      rcases hpc with ⟨p, hpc⟩ | hpc
      · rw [rcsSendResume_fragment hpc, if_pos hleave]
        refine expects_loop (s := nextFragment _) hopen' ?_ mem _ _ _
        show (RcsT.acksend _ msg o).1.sendSeqnum_ + 1 = _
        rw [hseq, hs, num_succ]
      · rw [rcsSendResume_eos hpc, if_pos hleave]
        exact Or.inr ⟨_, rfl⟩
    · right
      rw [rcsSendRun]
      unfold rcsSendResume
      rw [hpc]
      exact ⟨result, hpc⟩

/-- Whatever the size, such a peer acknowledges every fragment. -/
theorem acknowledged_ackStream (h : s.isClosing_ = false) (mem : Memory) (size : Int32) :
    Acknowledged (rcsSendRun s mem size ackStream) ackStream := by
  refine ⟨not_fin_ackStream, fun n p msg hpc => ⟨n, Nat.le_refl n, ?_⟩⟩
  rcases expects_ackStream h mem size n with ⟨_, _, msg', hmsg, hpc'⟩ | ⟨result, hpc'⟩
  · rw [hpc] at hpc'
    rcases hpc' with ⟨p', hpc'⟩ | hpc'
    · cases hpc'
      exact acknowledges_ackStream hmsg
    · cases hpc'
  · rw [hpc] at hpc'
    cases hpc'

end Runs

/-- A socket that is connected to the address 1. -/
def connectedSocket : RcsT := (RcsT.new 3 ⟨0, 0⟩).setEndpoint ⟨1, 0⟩

/-- Three fragments. -/
theorem covers_iff_1200 : Covers (fun a => a.toUInt8) 1200
    (rcsSendRun connectedSocket (fun a => a.toUInt8) 1200 ackStream) :=
  (covers_iff rfl _ 1200 (acknowledged_ackStream rfl _ 1200)).mpr (by decide)

/-- The size -1 asks for almost all of the memory. -/
theorem sends_too_much : ¬ ∀ (s : RcsT) (mem : Memory) (size : Int32) (os : Nat → RecvFrom),
    Open s → Acknowledged (rcsSendRun s mem size os) os →
      Covers mem size (rcsSendRun s mem size os) := by
  intro h
  have hneg : (-1 : Int32).toInt < 0 := by decide
  exact not_covers_of_neg (s := connectedSocket) rfl hneg (fun a => a.toUInt8) ackStream
    (h connectedSocket _ (-1) ackStream ⟨rfl, rfl⟩ (acknowledged_ackStream rfl _ (-1)))

end Ece358.Rcs
