/-
  File:      Ece358/SendResult.lean
  Subject:   What the result of send says (rcs_t.cc, lines 178 to 235).

  send returns the length it was given, whatever its acksends came to: acksend has no result, and it
  ends for a FIN, and for any message with the awaited number, as it does for an acknowledgement.
  The length is a size_t and the result an int, so a length of 2^31 or more comes out smaller.

  * `Acknowledges msg o` -- the outcome of a receive is an acknowledgement of `msg`;
  * `Sending`, `sendStep` -- a send on any socket, receive by receive, with the messages that were
    acknowledged while they were awaited;
  * `Truthful` -- the result is the length only if all messages were acknowledged, and no more than
    the acknowledged bytes otherwise;
  * `honest` -- what the datagrams must be for that; `Understates` -- a length so large that its int
    promises no more than was acknowledged;
  * `Sending.next` -- the two ways a send can take a receive: it waits on, or it leaves the message;
  * `send_truthful_iff` -- a send that has returned was truthful if and only if its socket was open
    and its datagrams were honest, or its length understates.
-/
import Ece358.Fin
import Ece358.Lib.Transition

namespace Ece358.Rcs

open Lib MsgT

/-! ## 1. A send and its acknowledgements -/

/-- The acknowledgement of a message: a whole message with its number and the ACK flag. -/
def Acknowledges (msg : MsgT) : RecvFrom → Prop
  | .error _ => False
  | .datagram _ d _ =>
    accepted d = true ∧ (ofDatagram d).seqnum = msg.seqnum ∧ (ofDatagram d).hasFlag ACK = true

instance (msg : MsgT) : DecidablePred (Acknowledges msg)
  | .error _ => isFalse id
  | .datagram _ _ _ => inferInstanceAs (Decidable (_ ∧ _ ∧ _))

/-- A send, with the messages that were acknowledged. -/
structure Sending where
  res : Res
  answered : List MsgT

/-- The message a blocked send repeats. -/
def awaited : Pc → Option MsgT
  | .sendFragment _ _ msg => some msg
  | .sendEos _ msg => some msg
  | _ => none

def sendStart (s : RcsT) (data : List UInt8) : Sending := ⟨start s (.send data), []⟩

/-- Its next receive. -/
def sendStep (w : Sending) (o : RecvFrom) : Option Sending :=
  match awaited w.res.pc with
  | some msg => some {
      res := (resume w.res.sock w.res.pc o).after w.res.out
      answered := if Acknowledges msg o then w.answered ++ [msg] else w.answered }
  | none => none

/-- The fragments of a send, and the EOS marker behind them. -/
def messages (data : List UInt8) : List MsgT := (List.range (nfrag data + 1)).map (pkt data)

/-- The bytes in some messages. -/
def bytesIn (msgs : List MsgT) : Nat := (msgs.map fun m => m.payload.length).sum

/-- A result that is the length says that all messages were acknowledged; any other is negative, or
    at most the number of bytes that were. -/
def Truthful (data : List UInt8) (w : Sending) : Prop :=
  ∀ v, w.res.pc = .returned (.send v) →
    (v.toInt = data.length → w.answered = messages data) ∧
      (v.toInt ≠ data.length → v.toInt < 0 ∨ v.toInt ≤ bytesIn w.answered)

/-- The length does not fit an int, and what is left of it is negative, or at most the number of
    bytes that were acknowledged. -/
def Understates (data : List UInt8) (w : Sending) : Prop :=
  2 ^ 31 ≤ data.length ∧
    ((Int32.ofNat data.length).toInt < 0 ∨ (Int32.ofNat data.length).toInt ≤ bytesIn w.answered)

/-- Only an acknowledgement has the awaited number, and a FIN comes with nothing but that of the
    EOS marker. -/
def honest (w : Sending) : RecvFrom → Prop
  | .error _ => True
  | .datagram e d src => ∀ msg ∈ awaited w.res.pc, accepted d = true →
      ((ofDatagram d).seqnum = msg.seqnum → (ofDatagram d).hasFlag ACK = true) ∧
      ((ofDatagram d).hasFlag FIN = true →
        Acknowledges msg (.datagram e d src) ∧ msg.hasFlag EOS = true)

instance (w : Sending) : DecidablePred (honest w)
  | .error _ => isTrue trivial
  | .datagram _ d _ => inferInstanceAs (Decidable
      (∀ msg ∈ awaited w.res.pc, accepted d = true → _ ∧ (_ → _)))

/-! ## 2. One receive -/

/-- acksend ends for what it takes for an answer, and for a FIN. -/
def EndsAcksend (msg : MsgT) : RecvFrom → Prop
  | .error _ => False
  | .datagram _ d _ => accepted d = true ∧
      ((ofDatagram d).seqnum = msg.seqnum ∨ (ofDatagram d).hasFlag FIN = true)

/-- The datagram is a FIN. -/
def BringsFin : RecvFrom → Prop
  | .error _ => False
  | .datagram _ d _ => IsFin d

instance : DecidablePred BringsFin
  | .error _ => isFalse id
  | .datagram _ d _ => inferInstanceAs (Decidable (IsFin d))

section Steps

variable {s : RcsT} {o : RecvFrom} {data : List UInt8} {k : Nat} {w w' : Sending}

theorem acksend_eq (s : RcsT) (msg : MsgT) (o : RecvFrom) :
    (s.acksend msg o).1 = (s.rawrecv o).sock ∧
      ((s.acksend msg o).2.2 = true ↔
        RcsT.isValid (s.rawrecv o).bytes ((s.rawrecv o).msg.getD MsgT.default) = true ∧
          ((s.rawrecv o).msg.getD MsgT.default).seqnum = msg.seqnum ∨
        (s.rawrecv o).sock.isClosing_ = true) := by
  unfold RcsT.acksend RcsT.lowrecv
  dsimp only
  split
  next h =>
    rw [Bool.and_eq_true, beq_iff_eq] at h
    exact ⟨rfl, iff_of_true rfl (Or.inl h)⟩
  next h =>
    rw [Bool.and_eq_true, beq_iff_eq] at h
    split
    next hc => exact ⟨rfl, iff_of_true rfl (Or.inr hc)⟩
    next hc => exact ⟨rfl, iff_of_false Bool.false_ne_true fun h' => h'.elim h hc⟩

/-- What an acksend on an open socket makes of a receive. -/
theorem acksend_rest (h : s.isClosing_ = false) (msg : MsgT) (o : RecvFrom) :
    (s.acksend msg o).1.sendSeqnum_ = s.sendSeqnum_ ∧
      ((s.acksend msg o).1.isClosing_ = true ↔ BringsFin o) ∧
      ((s.acksend msg o).2.2 = true ↔ EndsAcksend msg o) := by
  have hdefault : ∀ bytes, RcsT.isValid bytes MsgT.default = false := fun _ => rfl
  have hlatched : ∀ src, (latched s src).sendSeqnum_ = s.sendSeqnum_ ∧
      (latched s src).isClosing_ = false := fun src =>
    ⟨(latched_rest s src).2.2.2, (latched_rest s src).1.trans h⟩
  rw [(acksend_eq s msg o).1, (acksend_eq s msg o).2]
  cases o with
  | error e =>
    obtain ⟨hseq, hc⟩ := hlatched s.fromEndpoint_
    rw [rawrecv_failed]
    simp [hseq, hc, hdefault, BringsFin, EndsAcksend]
  | datagram e d src =>
    obtain ⟨hseq, hc⟩ := hlatched src
    by_cases hne : d = []
    · have ha : accepted d = false := by
        rw [hne]
        decide +kernel
      rw [hne, rawrecv_nothing]
      simp [hseq, hc, hdefault, BringsFin, EndsAcksend, IsFin, ← hne, ha]
    · by_cases hfin : IsFin d
      · rw [rawrecv_fin hfin]
        exact ⟨hseq, iff_of_true rfl hfin, iff_of_true (Or.inr rfl) ⟨hfin.1, Or.inr hfin.2⟩⟩
      · rw [rawrecv_plain hfin hne]
        refine ⟨hseq, iff_of_false (by simp [hc]) hfin, ?_⟩
        rw [Option.getD_some, isValid_ofDatagram]
        have hno : accepted d = true → ¬ (ofDatagram d).hasFlag FIN = true := fun ha hf =>
          hfin ⟨ha, hf⟩
        constructor
        · rintro (⟨ha, hs⟩ | hcl)
          · exact ⟨ha, Or.inl hs⟩
          · rw [hc] at hcl
            cases hcl
        · rintro ⟨ha, hs | hf⟩
          · exact Or.inl ⟨ha, hs⟩
          · exact absurd hf (hno ha)

theorem ends_of_acknowledges {msg : MsgT} (h : Acknowledges msg o) : EndsAcksend msg o := by
  cases o with
  | error e => exact h
  | datagram e d src => exact ⟨h.1, Or.inl h.2.1⟩

theorem ends_of_fin {msg : MsgT} (h : BringsFin o) : EndsAcksend msg o := by
  cases o with
  | error e => exact h
  | datagram e d src => exact ⟨h.1, Or.inr h.2⟩

/-! ## 3. The place of a send -/

/-- The number of messages that a send has left behind. -/
def passed (data : List UInt8) : Pc → Nat
  | .sendFragment _ processedSize _ => processedSize / MAX_DATA_LENGTH
  | .sendEos _ _ => nfrag data
  | _ => nfrag data + 1

/-- A send that repeats its `k`th message. -/
structure Repeats (data : List UInt8) (w : Sending) (k : Nat) : Prop where
  pc : w.res.pc = sendPc data k
  le : k ≤ nfrag data
  seqnum : w.res.sock.sendSeqnum_ = num k
  notClosing : w.res.sock.isClosing_ = false

/-- A send on its way, or behind it. -/
def Proceeds (data : List UInt8) (w : Sending) : Prop :=
  (∃ k, Repeats data w k) ∨ w.res.pc = .returned (.send (.ofNat data.length))

theorem awaited_sendPc (data : List UInt8) (k : Nat) :
    awaited (sendPc data k) = some (pkt data k) := by
  unfold sendPc
  split <;> rfl

theorem passed_sendPc (h : k ≤ nfrag data) : passed data (sendPc data k) = k := by
  unfold sendPc
  split
  next => exact Nat.mul_div_cancel_left k (by decide)
  next hk => exact Nat.le_antisymm (Nat.not_lt.mp hk) h

theorem Proceeds.passed_le (h : Proceeds data w) : passed data w.res.pc ≤ nfrag data + 1 := by
  rcases h with ⟨k, hk⟩ | hpc
  · rw [hk.pc, passed_sendPc hk.le]
    exact Nat.le_succ_of_le hk.le
  · rw [hpc]
    exact Nat.le_refl _

/-- On a closed socket the rest of a send is skipped. -/
theorem resume_sendPc_closed {s' : RcsT} {out : List Event} (h : s'.isClosing_ = true)
    (ha : s.acksend (pkt data k) o = (s', out, true)) :
    (resume s (sendPc data k) o).pc = .returned (.send (.ofNat data.length)) := by
  unfold sendPc
  split
  · simp only [resume, ha, if_true]
    show ((nextFragment s').sendLoop data _ |>.after out).pc = _
    rw [sendLoop_closing (show (nextFragment s').isClosing_ = true from h)]
    rfl
  · simp only [resume, ha, if_true]

/-- What a send does with a receive: it repeats its message, or leaves it behind, and a FIN makes it
    leave all of them. -/
theorem Repeats.next (h : Repeats data w k) (o : RecvFrom) (answered : List MsgT) :
    let w' : Sending := ⟨(resume w.res.sock w.res.pc o).after w.res.out, answered⟩
    Proceeds data w' ∧ (¬ EndsAcksend (pkt data k) o → passed data w'.res.pc = k) ∧
      (EndsAcksend (pkt data k) o → ¬ BringsFin o → passed data w'.res.pc = k + 1) ∧
      (BringsFin o → passed data w'.res.pc = nfrag data + 1) := by
  intro w'
  obtain ⟨hseq, hfin, hends⟩ := acksend_rest h.notClosing (pkt data k) o
  have hpc : w'.res.pc = (resume w.res.sock (sendPc data k) o).pc := by
    rw [← h.pc]
    rfl
  have hsock : w'.res.sock = (resume w.res.sock (sendPc data k) o).sock := by
    rw [← h.pc]
    rfl
  rcases ha : w.res.sock.acksend (pkt data k) o with ⟨s', out, leave⟩
  rw [ha] at hseq hfin hends
  cases leave with
  | false =>
    have hno : ¬ EndsAcksend (pkt data k) o := fun he => Bool.false_ne_true (hends.mpr he)
    have hc : s'.isClosing_ = false := by
      cases hc : s'.isClosing_ with
      | false => rfl
      | true => exact absurd (ends_of_fin (hfin.mp hc)) hno
    rw [resume_sendPc_again ha] at hpc hsock
    have hr : Repeats data w' k :=
      ⟨hpc, h.le, by rw [hsock]; exact hseq.trans h.seqnum, by rw [hsock]; exact hc⟩
    refine ⟨Or.inl ⟨k, hr⟩, fun _ => ?_, fun he => absurd he hno,
      fun hf => absurd (ends_of_fin hf) hno⟩
    rw [hpc, passed_sendPc h.le]
  | true =>
    have he : EndsAcksend (pkt data k) o := hends.mp rfl
    by_cases hf : BringsFin o
    · rw [resume_sendPc_closed (hfin.mpr hf) ha] at hpc
      refine ⟨Or.inr hpc, fun hno => absurd he hno, fun _ hno => absurd hf hno, fun _ => ?_⟩
      rw [hpc]
      rfl
    · have hc : s'.isClosing_ = false := Bool.eq_false_iff.mpr fun hc => hf (hfin.mp hc)
      rw [resume_sendPc_left hc (hseq.trans h.seqnum) ha] at hpc hsock
      by_cases hlt : k < nfrag data
      · rw [if_pos hlt] at hpc hsock
        have hnum : s'.sendSeqnum_ + 1 = num (k + 1) := by rw [hseq, h.seqnum, num_succ]
        have hr : Repeats data w' (k + 1) :=
          ⟨hpc, hlt, by rw [hsock]; exact hnum, by rw [hsock]; exact hc⟩
        refine ⟨Or.inl ⟨k + 1, hr⟩, fun hno => absurd he hno, fun _ _ => ?_,
          fun hf' => absurd hf' hf⟩
        rw [hpc, passed_sendPc hlt]
      · rw [if_neg hlt] at hpc
        have hk : k = nfrag data := Nat.le_antisymm h.le (Nat.not_lt.mp hlt)
        refine ⟨Or.inr hpc, fun hno => absurd he hno, fun _ _ => ?_, fun hf' => absurd hf' hf⟩
        rw [hpc, hk]
        rfl

/-- One receive of a send that has not returned. -/
theorem Proceeds.next (h : Proceeds data w) (hstep : sendStep w o = some w') :
    ∃ k, Repeats data w k ∧ passed data w.res.pc = k ∧ Proceeds data w' ∧
      w'.answered =
        (if Acknowledges (pkt data k) o then w.answered ++ [pkt data k] else w.answered) ∧
      (¬ EndsAcksend (pkt data k) o → passed data w'.res.pc = k) ∧
      (EndsAcksend (pkt data k) o → ¬ BringsFin o → passed data w'.res.pc = k + 1) ∧
      (BringsFin o → passed data w'.res.pc = nfrag data + 1) := by
  unfold sendStep at hstep
  rcases h with ⟨k, hk⟩ | hpc
  · have hpassed : passed data w.res.pc = k := by rw [hk.pc, passed_sendPc hk.le]
    rw [hk.pc, awaited_sendPc, ← hk.pc, Option.some.injEq] at hstep
    obtain ⟨hproceeds, hstay, hleave, hfin⟩ := hk.next o w'.answered
    rw [← hstep] at hproceeds hstay hleave hfin ⊢
    exact ⟨k, hk, hpassed, hproceeds, rfl, hstay, hleave, hfin⟩
  · rw [hpc] at hstep
    cases hstep

/-! ## 4. What was acknowledged -/

/-- Every message left behind was acknowledged. -/
def AllAnswered (data : List UInt8) (w : Sending) : Prop :=
  w.answered = (messages data).take (passed data w.res.pc)

/-- A message was left behind that was not. -/
def OneUnanswered (data : List UInt8) (w : Sending) : Prop :=
  w.answered.length < passed data w.res.pc

theorem length_messages (data : List UInt8) : (messages data).length = nfrag data + 1 := by
  rw [messages, List.length_map, List.length_range]

theorem messages_take_succ (h : k ≤ nfrag data) :
    (messages data).take (k + 1) = (messages data).take k ++ [pkt data k] := by
  have hk : (messages data)[k]? = some (pkt data k) := by
    rw [messages, List.getElem?_map, List.getElem?_range (Nat.lt_succ_of_le h)]
    rfl
  rw [List.take_add_one, hk]
  rfl

theorem OneUnanswered.not_all (hw : Proceeds data w) (h : OneUnanswered data w) :
    ¬ AllAnswered data w := by
  intro ha
  have hlen := hw.passed_le
  unfold OneUnanswered at h
  rw [ha, List.length_take, length_messages] at h
  omega

/-- An honest datagram that ends an acksend acknowledges its message, and a FIN only the marker. -/
theorem honest_answers (hk : Repeats data w k) (h : honest w o) (he : EndsAcksend (pkt data k) o) :
    Acknowledges (pkt data k) o ∧ (BringsFin o → k = nfrag data) := by
  cases o with
  | error e => exact he.elim
  | datagram e d src =>
    obtain ⟨ha, hs⟩ := he
    obtain ⟨hack, hfin⟩ := h (pkt data k) (by rw [hk.pc, awaited_sendPc]; rfl) ha
    have heos : (ofDatagram d).hasFlag FIN = true → k = nfrag data := fun hf => by
      have := (hfin hf).2
      rw [pkt_hasFlag_eos, decide_eq_true_iff] at this
      exact Nat.le_antisymm hk.le this
    refine ⟨?_, fun hf => heos hf.2⟩
    rcases hs with hs | hf
    · exact ⟨ha, hs, hack hs⟩
    · exact (hfin hf).1

/-- A datagram that is not honest ends the acksend, without an acknowledgement or before the last
    message. -/
theorem not_honest_ends (hk : Repeats data w k) (h : ¬ honest w o) :
    EndsAcksend (pkt data k) o ∧
      (¬ Acknowledges (pkt data k) o ∨ (BringsFin o ∧ k < nfrag data)) := by
  cases o with
  | error e => exact absurd trivial h
  | datagram e d src =>
    by_contra hall
    refine h fun msg hmsg ha => ?_
    rw [hk.pc, awaited_sendPc, Option.mem_some] at hmsg
    subst hmsg
    have hanswered : EndsAcksend (pkt data k) (.datagram e d src) →
        Acknowledges (pkt data k) (.datagram e d src) := fun he => by
      by_contra hno
      exact hall ⟨he, Or.inl hno⟩
    refine ⟨fun hs => (hanswered ⟨ha, Or.inl hs⟩).2.2, fun hf => ⟨hanswered ⟨ha, Or.inr hf⟩, ?_⟩⟩
    rw [pkt_hasFlag_eos, decide_eq_true_iff]
    by_contra hlt
    exact hall ⟨⟨ha, Or.inr hf⟩, Or.inr ⟨⟨ha, hf⟩, Nat.not_le.mp hlt⟩⟩

theorem Proceeds.step (h : Proceeds data w) (hstep : sendStep w o = some w') :
    Proceeds data w' := by
  obtain ⟨_, _, _, h', _⟩ := h.next hstep
  exact h'

theorem AllAnswered.step (hw : Proceeds data w) (h : AllAnswered data w) (hok : honest w o)
    (hstep : sendStep w o = some w') : AllAnswered data w' := by
  obtain ⟨k, hk, hp, _, hanswered, hstay, hleave, hfin⟩ := hw.next hstep
  unfold AllAnswered at h ⊢
  rw [hp] at h
  by_cases he : EndsAcksend (pkt data k) o
  · obtain ⟨hack, hlast⟩ := honest_answers hk hok he
    have hp' : passed data w'.res.pc = k + 1 := by
      by_cases hf : BringsFin o
      · rw [hfin hf, hlast hf]
      · exact hleave he hf
    rw [hp', hanswered, if_pos hack, messages_take_succ hk.le, h]
  · rw [hstay he, hanswered, if_neg fun hack => he (ends_of_acknowledges hack), h]

/-- A receive answers one message at most, and only one that the send then leaves behind. -/
theorem OneUnanswered.step (hw : Proceeds data w) (h : OneUnanswered data w)
    (hstep : sendStep w o = some w') : OneUnanswered data w' := by
  obtain ⟨k, hk, hp, _, hanswered, hstay, hleave, hfin⟩ := hw.next hstep
  have hle := hk.le
  unfold OneUnanswered at h ⊢
  rw [hp] at h
  by_cases he : EndsAcksend (pkt data k) o
  · have hgrow : w'.answered.length ≤ w.answered.length + 1 := by
      rw [hanswered]
      split
      · rw [List.length_append, List.length_singleton]
      · exact Nat.le_succ _
    by_cases hf : BringsFin o
    · rw [hfin hf]
      omega
    · rw [hleave he hf]
      omega
  · rw [hstay he, hanswered, if_neg fun hack => he (ends_of_acknowledges hack)]
    exact h

theorem AllAnswered.lost (hw : Proceeds data w) (h : AllAnswered data w) (hok : ¬ honest w o)
    (hstep : sendStep w o = some w') : OneUnanswered data w' := by
  obtain ⟨k, hk, hp, _, hanswered, _, hleave, hfin⟩ := hw.next hstep
  have hle := hk.le
  have hlen : w.answered.length = k := by
    unfold AllAnswered at h
    rw [h, hp, List.length_take, length_messages]
    omega
  unfold OneUnanswered
  obtain ⟨he, hno⟩ := not_honest_ends hk hok
  by_cases hf : BringsFin o
  · rw [hfin hf, hanswered]
    rcases hno with hno | ⟨_, hlt⟩
    · rw [if_neg hno]
      omega
    · split
      · rw [List.length_append, List.length_singleton]
        omega
      · omega
  · rw [hleave he hf, hanswered, if_neg (hno.resolve_right fun h => hf h.1)]
    omega

theorem proceeds_start (h : s.isClosing_ = false) (data : List UInt8) :
    Proceeds data (sendStart s data) ∧ AllAnswered data (sendStart s data) := by
  have hs : (sendStarted s).isClosing_ = false := h
  have hstart : start s (.send data) = ⟨_, _, sendPc data 0⟩ := sendLoop_at hs data rfl
  have hr : Repeats data (sendStart s data) 0 := by
    unfold sendStart
    rw [hstart]
    exact ⟨rfl, Nat.zero_le _, rfl, hs⟩
  refine ⟨Or.inl ⟨0, hr⟩, ?_⟩
  unfold AllAnswered
  rw [hr.pc, passed_sendPc hr.le]
  rfl

/-- On a closed socket send returns at once. -/
theorem unanswered_start (h : s.isClosing_ = true) (data : List UInt8) :
    Proceeds data (sendStart s data) ∧ OneUnanswered data (sendStart s data) := by
  have hpc : (sendStart s data).res.pc = .returned (.send (.ofNat data.length)) := by
    have hs : (sendStarted s).isClosing_ = true := h
    have hstart : start s (.send data) = _ := sendLoop_closing hs data 0
    unfold sendStart
    rw [hstart]
  refine ⟨Or.inr hpc, ?_⟩
  unfold OneUnanswered
  rw [hpc]
  exact Nat.succ_pos _

/-- The messages of a send carry its bytes. -/
theorem bytesIn_messages (data : List UInt8) : bytesIn (messages data) = data.length := by
  have hfirst : ∀ c, c ≤ nfrag data →
      bytesIn ((List.range c).map (pkt data)) = (firstBytes data c).length := by
    intro c
    induction c with
    | zero => exact fun _ => rfl
    | succ c ih =>
      intro hc
      rw [firstBytes_succ hc, List.length_append, ← ih (Nat.le_of_succ_le hc), bytesIn, bytesIn,
        List.range_succ, List.map_append, List.map_append, List.sum_append]
      rfl
  have hmarker : (pkt data (nfrag data)).payload.length = 0 := by
    rw [pkt_eos]
    rfl
  rw [messages, List.range_succ, List.map_append, bytesIn, List.map_append, List.sum_append,
    List.map_singleton, List.map_singleton, List.sum_singleton, hmarker, Nat.add_zero]
  exact (hfirst _ (le_refl _)).trans (congrArg List.length (firstBytes_nfrag data))

/-- A length is the int that is made of it if and only if it fits, and never less than that. -/
theorem toInt_length (n : Nat) :
    ((Int32.ofNat n).toInt = n ↔ n < 2 ^ 31) ∧ (Int32.ofNat n).toInt ≤ n := by
  rw [Int32.toInt_ofNat', show Int32.size = 2 ^ 32 from rfl]
  have hmod := Int.bmod_def (n : Int) (2 ^ 32)
  split at hmod <;> omega

/-- Behind a send, the result is true if and only if every message was acknowledged, or the length
    understates. -/
theorem truthful_iff_answered (hw : Proceeds data w) (hret : w.res.pc.idle = true) :
    Truthful data w ↔ AllAnswered data w ∨ Understates data w := by
  rcases hw with ⟨k, hk⟩ | hpc
  · rw [hk.pc, sendPc] at hret
    split at hret <;> cases hret
  · have hall : (messages data).take (passed data w.res.pc) = messages data := by
      rw [hpc]
      exact List.take_of_length_le (length_messages data).le
    obtain ⟨hfits, hle⟩ := toInt_length data.length
    unfold Truthful AllAnswered Understates
    rw [hall]
    constructor
    · intro h
      obtain ⟨hsame, hother⟩ := h _ hpc
      by_cases hv : (Int32.ofNat data.length).toInt = data.length
      · exact Or.inl (hsame hv)
      · exact Or.inr ⟨Nat.not_lt.mp fun hlt => hv (hfits.mpr hlt), hother hv⟩
    · intro h v hv
      rw [hpc, Pc.returned.injEq, Ret.send.injEq] at hv
      rw [← hv]
      rcases h with h | ⟨hlarge, h⟩
      · refine ⟨fun _ => h, fun _ => Or.inr ?_⟩
        rw [h, bytesIn_messages]
        exact hle
      · exact ⟨fun hsame => absurd (hfits.mp hsame) (Nat.not_lt.mpr hlarge), fun _ => h⟩

end Steps

/-! ## 5. The result -/

/-- The result of a send that has returned is true if and only if its socket was not closing, no
    datagram but an acknowledgement had the number that was awaited, and no FIN was read, unless it
    was the acknowledgement of the EOS marker too; or its length understates. -/
theorem send_truthful_iff {s : RcsT} {data : List UInt8} {os : List RecvFrom} {w : Sending}
    (hrun : Run sendStep (fun _ _ => True) (sendStart s data) os w) (hret : w.res.pc.idle = true) :
    Truthful data w ↔
      (s.isClosing_ = false ∧ Run sendStep honest (sendStart s data) os w) ∨
        Understates data w := by
  cases hc : s.isClosing_ with
  | true =>
    obtain ⟨hw, hlost⟩ := hrun.invariant (I := fun w => Proceeds data w ∧ OneUnanswered data w)
      (unanswered_start hc data) fun _ _ _ h _ hstep => ⟨h.1.step hstep, h.2.step h.1 hstep⟩
    rw [truthful_iff_answered hw hret]
    exact or_congr_left (iff_of_false (hlost.not_all hw) fun h => absurd h.1 (by decide))
  | false =>
    have h0 := proceeds_start hc data
    have hw : Proceeds data w := hrun.invariant h0.1 fun _ _ _ h _ hstep => h.step hstep
    rw [truthful_iff_answered hw hret, and_iff_right rfl]
    refine or_congr_left ?_
    exact hrun.good_iff (I := fun w => Proceeds data w ∧ AllAnswered data w)
      (B := fun w => Proceeds data w ∧ OneUnanswered data w) h0
      (fun _ _ _ h hok hstep => ⟨h.1.step hstep, h.2.step h.1 hok hstep⟩)
      (fun _ _ _ h hok hstep => ⟨h.1.step hstep, h.2.lost h.1 hok hstep⟩)
      (fun _ _ _ h hstep => ⟨h.1.step hstep, h.2.step h.1 hstep⟩)
      (fun _ h => h.2) (fun _ h => h.2.not_all h.1)

/-- A send of one byte that is acknowledged, with its marker. -/
def oneByteAcked : Option Sending :=
  exec sendStep honest (sendStart ((RcsT.new 3 ⟨0, 0⟩).setEndpoint ⟨2, 0⟩) [97])
    [.datagram .EAGAIN (control 0 ACK).wire ⟨2, 0⟩, .datagram .EAGAIN (control 1 ACK).wire ⟨2, 0⟩]

theorem send_truthful_iff_oneByte : ∃ w, oneByteAcked = some w ∧ w.res.pc.idle = true ∧
    Truthful [97] w := by
  have hsome : oneByteAcked.isSome = true := by decide +kernel
  obtain ⟨w, hw⟩ := Option.isSome_iff_exists.mp hsome
  have hret : w.res.pc.idle = true := by
    have : (oneByteAcked.all fun w => w.res.pc.idle) = true := by decide +kernel
    rwa [hw] at this
  have hrun := run_of_exec hw
  exact ⟨w, hw, hret, (send_truthful_iff (hrun.mono fun _ _ _ => trivial) hret).mpr
    (Or.inl ⟨rfl, hrun⟩)⟩

/-- The same send, where the peer closes before it has acknowledged anything. -/
def oneByteClosed : Option Sending :=
  exec sendStep (fun _ _ => True) (sendStart ((RcsT.new 3 ⟨0, 0⟩).setEndpoint ⟨2, 0⟩) [97])
    [.datagram .EAGAIN (control 666 FIN).wire ⟨2, 0⟩]

/-- It returns 1 for its byte. -/
theorem send_unacknowledged : ¬ ∀ (s : RcsT) (data : List UInt8) (os : List RecvFrom) (w : Sending),
    Run sendStep (fun _ _ => True) (sendStart s data) os w → w.res.pc.idle = true →
    Truthful data w := by
  intro h
  have hends : oneByteClosed.isSome = true := by decide +kernel
  have hall : (oneByteClosed.all fun w =>
      w.res.pc == .returned (.send 1) && w.answered == []) = true := by decide +kernel
  obtain ⟨w, hw⟩ := Option.isSome_iff_exists.mp hends
  rw [hw, Option.all_some, Bool.and_eq_true, beq_iff_eq, beq_iff_eq] at hall
  obtain ⟨hpc, hanswered⟩ := hall
  have hret : w.res.pc.idle = true := by rw [hpc]; rfl
  have hlen := ((h _ _ _ w (run_of_exec hw) hret 1 hpc).1 (by decide)).symm.trans hanswered
  exact absurd (congrArg List.length hlen) (by rw [length_messages]; decide)

end Ece358.Rcs
