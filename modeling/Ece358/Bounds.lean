/-
  File:      Ece358/Bounds.lean
  Subject:   Where the code reaches in its arrays while it handles a datagram.

  The length field of a datagram is not checked before `valid()` reads `data[length - 1]`: a
  message of length 0, which every acknowledgement is, makes it read the byte in front of the
  array. `valid()` lets a length of 500 pass, and the printer has no room for the terminator then.
  What read copies is within its message, whatever came. With INSPECT_PACKETS the messages that
  are sent in answer are printed too, and few answers are no control message.

  * `stepChecks`, `InBounds` -- what a step of an endpoint touches, and that it stays inside;
  * `GoodLength`, `Printable` -- the messages that `valid()`, and the printer, have room for;
  * `Harmless` -- the datagrams that do not lead outside, place by place;
  * `PrintableAnswer` -- those behind which the code sends nothing that it cannot print;
  * `in_bounds_iff` -- a run stays inside its arrays if and only if its datagrams are harmless.
-/
import Ece358.InOrder

namespace Ece358.Rcs

open Lib MsgT

/-! ## 1. The accesses of a step -/

def stepChecks (inspect : Bool) (e : Endpoint) : Arrival → List Check
  | .call c => startChecks inspect e.sock c
  | .outcome o => resumeChecks inspect e.sock e.pc o
  | .foreign errno bytes src => resumeChecks inspect e.sock e.pc (.datagram errno bytes src)

/-- Where a datagram has come, all accesses count; else those of read and of the fragments. -/
def Arrival.judged : Arrival → Check → Bool
  | .outcome (.datagram _ _ _) => Check.isAccess
  | .foreign _ _ _ => Check.isAccess
  | _ => Check.isRange

/-- The step stays inside the arrays. -/
def InBounds (inspect : Bool) (e : Endpoint) (a : Arrival) : Prop :=
  AllHold a.judged (stepChecks inspect e a)

/-- A message that the printer has room for: `valid()` reads the byte in front of the array for a
    length of 0, and the terminator of a whole message is behind the array. -/
def Printable (m : MsgT) : Prop := m.length ≠ 0 ∧ (m.valid = true → m.length ≠ 500)

/-- A message whose length field leads nowhere outside, where it is asked and perhaps printed. -/
def GoodLength (inspect : Bool) (m : MsgT) : Prop :=
  m.length ≠ 0 ∧ (inspect = true → Printable m)

/-- What comes to a blocked call makes it send nothing that cannot be printed: nothing at all, or
    fragments of less than 500 bytes. A FIN is answered by FINs, and recv acknowledges whatever it
    gets. -/
def PrintableAnswer (errno : Errno) (d : List UInt8) (pc : Pc) : Prop :=
  ¬ IsFin d ∧ match pc with
    | .sendFragment data processedSize msg =>
      if accepted d = true ∧ (ofDatagram d).seqnum = msg.seqnum then
        processedSize + MAX_DATA_LENGTH < data.length ∧
          data.length < processedSize + MAX_DATA_LENGTH + MAX_DATA_LENGTH
      else Printable msg
    | .sendEos _ msg => (accepted d = true ∧ (ofDatagram d).seqnum = msg.seqnum) ∨ Printable msg
    | .recvLoop _ => d = [] ∧ errno = .EAGAIN
    | .finalizeRecv _ _ response =>
      (d = [] ∧ errno = .EAGAIN) ∨
        RcsT.startsNext (if d = [] then response else ofDatagram d) = true
    | .returned _ => True

/-- What is asked of the message received stays inside. Behind an empty datagram, acksend asks
    `valid()` of `msg_t()`, and finalizeRecv, unless errno says "timed out", of the message it has
    seen last. -/
def GoodMessage (inspect : Bool) (errno : Errno) (d : List UInt8) (pc : Pc) : Prop :=
  if d ≠ [] then GoodLength inspect (ofDatagram d)
  else match pc with
    | .sendFragment _ _ _ => False
    | .sendEos _ _ => False
    | .finalizeRecv _ _ response => errno = .EAGAIN ∨ response.length ≠ 0
    | _ => True

/-- Datagrams that lead nowhere outside. -/
def Harmless (inspect : Bool) (errno : Errno) (d : List UInt8) (pc : Pc) : Prop :=
  GoodMessage inspect errno d pc ∧ (inspect = true → PrintableAnswer errno d pc)

def harmless (inspect : Bool) (e : Endpoint) : Arrival → Prop
  | .outcome (.datagram errno d _) => Harmless inspect errno d e.pc
  | .foreign errno d _ => Harmless inspect errno d e.pc
  | _ => True

instance (m : MsgT) : Decidable (Printable m) := inferInstanceAs (Decidable (_ ∧ _))

instance (inspect : Bool) (m : MsgT) : Decidable (GoodLength inspect m) :=
  inferInstanceAs (Decidable (_ ∧ _))

instance (errno : Errno) (d : List UInt8) (pc : Pc) : Decidable (PrintableAnswer errno d pc) := by
  unfold PrintableAnswer
  cases pc <;> infer_instance

instance (inspect : Bool) (errno : Errno) (d : List UInt8) (pc : Pc) :
    Decidable (GoodMessage inspect errno d pc) := by
  unfold GoodMessage
  cases pc <;> infer_instance

instance (inspect : Bool) (errno : Errno) (d : List UInt8) (pc : Pc) :
    Decidable (Harmless inspect errno d pc) := inferInstanceAs (Decidable (_ ∧ _))

instance (inspect : Bool) (e : Endpoint) : DecidablePred (harmless inspect e)
  | .outcome (.datagram _ _ _) => inferInstanceAs (Decidable (Harmless _ _ _ _))
  | .foreign _ _ _ => inferInstanceAs (Decidable (Harmless _ _ _ _))
  | .outcome (.error _) => isTrue trivial
  | .call _ => isTrue trivial

instance (inspect : Bool) (e : Endpoint) (a : Arrival) : Decidable (InBounds inspect e a) :=
  inferInstanceAs (Decidable (AllHold _ _))

/-! ## 2. What is asked of a message -/

section Message

variable {inspect : Bool} {m : MsgT}

theorem validChecks_inside : AllHold Check.isAccess m.validChecks ↔ m.length ≠ 0 := by
  have hzero : m.length = 0 ↔ m.length.toNat = 0 := UInt16.toNat_inj.symm
  rw [ne_eq, hzero, validChecks]
  split
  next hle =>
    rw [allHold_counted rfl, and_iff_left allHold_nil]
    show (0 : Int) ≤ (m.length.toNat : Int) - 1 ∧ (m.length.toNat : Int) - 1 < MAX_DATA_LENGTH ↔ _
    omega
  next hgt =>
    simp only [MAX_DATA_LENGTH] at hgt
    exact iff_of_true allHold_nil (by omega)

theorem printChecks_inside : AllHold Check.isAccess m.printChecks ↔ Printable m := by
  have hmax : m.length = 500 ↔ m.length.toNat = 500 := UInt16.toNat_inj.symm
  rw [printChecks, allHold_append, validChecks_inside, Printable]
  refine and_congr_right fun _ => ?_
  by_cases hv : m.valid = true
  · have hle := valid_length_le hv
    rw [if_pos hv, allHold_counted rfl, allHold_counted rfl, and_iff_left allHold_nil, ne_eq, hmax,
      forall_prop_of_true hv]
    show 0 + m.length.toNat ≤ MAX_DATA_LENGTH ∧
      ((0 : Int) ≤ m.length.toNat ∧ (m.length.toNat : Int) < MAX_DATA_LENGTH) ↔ _
    simp only [MAX_DATA_LENGTH] at hle ⊢
    omega
  · rw [if_neg hv]
    exact iff_of_true allHold_nil fun h => absurd h hv

theorem inspectChecks_inside :
    AllHold Check.isAccess (m.inspectChecks inspect) ↔ (inspect = true → Printable m) := by
  unfold inspectChecks
  split
  next h => rw [printChecks_inside, forall_prop_of_true h]
  next h => exact iff_of_true allHold_nil fun h' => absurd h' h

/-- valid() copies nothing, and the printer no more than there is. -/
theorem validChecks_ranges (m : MsgT) : AllHold Check.isRange m.validChecks := by
  unfold validChecks
  split
  · exact (allHold_uncounted rfl).mpr allHold_nil
  · exact allHold_nil

theorem inspectChecks_ranges (inspect : Bool) (m : MsgT) :
    AllHold Check.isRange (m.inspectChecks inspect) := by
  unfold inspectChecks printChecks
  split
  · refine allHold_append.mpr ⟨validChecks_ranges m, ?_⟩
    split
    next hv =>
      refine (allHold_counted rfl).mpr ⟨?_, (allHold_uncounted rfl).mpr allHold_nil⟩
      show 0 + m.length.toNat ≤ MAX_DATA_LENGTH
      rw [Nat.zero_add]
      exact valid_length_le hv
    · exact allHold_nil
  · exact allHold_nil

theorem not_printable_control (n : UInt16) (f : FlagsT) : ¬ Printable (control n f) :=
  fun h => h.1 rfl

/-- A fragment can be printed where it is shorter than the array. -/
theorem printable_fragment (n : UInt16) (src : List UInt8) {len : Nat} (h1 : 1 ≤ len)
    (h : len ≤ MAX_DATA_LENGTH) (hs : len ≤ src.length) :
    Printable (MsgT.fragment n src len) ↔ len < MAX_DATA_LENGTH := by
  have hlen : (MsgT.fragment n src len).length.toNat = len := fragment_length src n h
  have hvalid := (built_fragment n h1 h hs).valid
  have hzero : (MsgT.fragment n src len).length = 0 ↔ len = 0 := by
    rw [← UInt16.toNat_inj, hlen]
    rfl
  have hmax : (MsgT.fragment n src len).length = 500 ↔ len = 500 := by
    rw [← UInt16.toNat_inj, hlen]
    rfl
  rw [Printable, forall_prop_of_true hvalid, ne_eq, ne_eq, hzero, hmax]
  simp only [MAX_DATA_LENGTH] at h ⊢
  omega

end Message

section Received

variable {inspect : Bool} {pc : Pc}

/-- What is asked of a datagram stays inside if and only if its message is good. -/
theorem messageChecks_inside (hi : pc.idle = false) (s : RcsT) (errno : Errno) (d : List UInt8)
    (src : SockaddrIn) :
    AllHold Check.isAccess (messageChecks inspect s pc (.datagram errno d src)) ↔
      GoodMessage inspect errno d pc := by
  have hnone : ∀ us, us = [] → (AllHold Check.isAccess (checksOf inspect us) ↔ True) :=
    fun us h => iff_true_intro (h ▸ allHold_nil)
  have hasked : ∀ m : MsgT,
      AllHold Check.isAccess (checksOf inspect [.asked m]) ↔ m.length ≠ 0 := fun m => by
    rw [← validChecks_inside]
    show AllHold _ (m.validChecks ++ []) ↔ _
    rw [List.append_nil]
  unfold messageChecks GoodMessage
  by_cases hne : d = []
  · -- no message, and the one that the caller had is asked
    subst hne
    rw [if_neg (not_not_intro rfl), rawrecv_nothing]
    show AllHold _ (checksOf inspect (askedUses _ _)) ↔ _
    cases pc with
    | returned ret => cases hi
    | sendFragment data k msg => exact (hasked _).trans (iff_of_false (fun h => h rfl) id)
    | sendEos data msg => exact (hasked _).trans (iff_of_false (fun h => h rfl) id)
    | recvLoop L =>
      refine hnone _ (if_neg ?_)
      -- neither 0 nor 1 is the size of a message
      rintro ⟨_, hsize⟩
      dsimp only at hsize
      rw [Option.getD_none, getTotalLength_eq] at hsize
      unfold RcsT.errnoResult at hsize
      split at hsize <;> cases hsize
    | finalizeRecv L ack response =>
      unfold askedUses RcsT.errnoResult
      dsimp only
      by_cases he : errno = .EAGAIN
      · rw [if_pos he, if_pos rfl]
        exact (hnone _ rfl).trans (iff_of_true trivial (Or.inl he))
      · rw [if_neg he, if_neg Nat.one_ne_zero, Option.getD_none, hasked]
        exact (or_iff_right he).symm
  · obtain ⟨hbytes, hmsg⟩ := rawrecv_reports s hne errno src
    rw [if_pos hne, checksOf, List.flatMap_append, allHold_append]
    have hheard : heardUses (.datagram errno d src) =
        [.inspected (ofDatagram d), .asked (ofDatagram d)] := if_neg hne
    rw [hheard, List.flatMap_cons, allHold_append]
    refine Iff.trans (and_congr_left fun _ => and_congr inspectChecks_inside (hasked _)) ?_
    refine ⟨fun h => ⟨h.1.2, h.1.1⟩, fun h => ⟨⟨h.2, h.1⟩, ?_⟩⟩
    -- whoever asks again asks the same message
    have hagain := (hasked _).mpr h.1
    unfold askedUses
    cases pc with
    | returned ret => exact allHold_nil
    | recvLoop L =>
      dsimp only
      rw [hmsg, Option.getD_some]
      split
      · exact hagain
      · exact allHold_nil
    | finalizeRecv L ack response =>
      dsimp only
      rw [hmsg, Option.getD_some]
      split
      · exact allHold_nil
      · exact hagain
    | _ =>
      dsimp only
      rw [hmsg, Option.getD_some]
      exact hagain

end Received

/-! ## 3. What is sent in answer -/

/-- A call that goes round a loop with `!isClosing_` in its head. -/
def Pc.looping : Pc → Bool
  | .sendFragment _ _ _ => true
  | .sendEos _ _ => true
  | .recvLoop _ => true
  | _ => false

/-- It does so on an open socket only. -/
def Awake (s : RcsT) (pc : Pc) : Prop := pc.looping = true → s.isClosing_ = false

section Awake

variable {s : RcsT} {r : Res}

theorem awake_after (h : Awake r.sock r.pc) (out : List Event) :
    Awake (r.after out).sock (r.after out).pc := h

theorem awake_sendLoop (s : RcsT) (data : List UInt8) (k : Nat) :
    Awake (s.sendLoop data k).sock (s.sendLoop data k).pc := by
  unfold RcsT.sendLoop
  split
  next h => exact fun _ => h.2
  next =>
    split
    next h => exact fun _ => h
    next => exact fun h => by cases h

theorem awake_recvAgain (s : RcsT) (L : Nat) :
    Awake (s.recvAgain L).sock (s.recvAgain L).pc := by
  unfold RcsT.recvAgain RcsT.recvReturn
  split
  next h => exact fun _ => by simpa using (Bool.and_eq_true_iff.mp h).2
  next =>
    split
    · exact fun h => by cases h
    · exact fun h => by cases h

theorem awake_recvWhile (s : RcsT) (L : Nat) :
    Awake (s.recvWhile L).sock (s.recvWhile L).pc := by
  unfold RcsT.recvWhile
  split
  · exact awake_recvAgain s L
  next h => exact fun _ => by simpa using h

theorem awake_recvBody (s : RcsT) (L : Nat) (response : MsgT) (ok : Bool) :
    Awake (s.recvBody L response ok).sock (s.recvBody L response ok).pc := by
  unfold RcsT.recvBody
  dsimp only
  split
  · exact fun h => by cases h
  · exact awake_after (awake_recvWhile _ L) _

theorem awake_finalizeEnd (s : RcsT) (L : Nat) :
    Awake (s.finalizeEnd L).sock (s.finalizeEnd L).pc :=
  awake_after (awake_recvAgain (s.setTimeout RECV_TIMEOUT).1 L) _

theorem awake_start (s : RcsT) (c : Call) : Awake (start s c).sock (start s c).pc := by
  cases c with
  | send data => exact awake_sendLoop _ data 0
  | recv L => exact awake_recvWhile _ L

/-- acksend goes round again on an open socket only. -/
theorem acksend_again {msg : MsgT} {o : RecvFrom} (h : (s.acksend msg o).2.2 = false) :
    (s.acksend msg o).1.isClosing_ = false := by
  unfold RcsT.acksend at h ⊢
  dsimp only at h ⊢
  split at h
  · cases h
  next ha =>
    split at h
    · cases h
    next hc =>
      rw [if_neg ha, if_neg hc]
      simpa using hc

theorem awake_resume (s : RcsT) (pc : Pc) (o : RecvFrom) :
    Awake (resume s pc o).sock (resume s pc o).pc := by
  cases pc with
  | returned ret => exact fun h => by cases h
  | sendFragment data k msg =>
    unfold Rcs.resume
    dsimp only
    cases h : (s.acksend msg o).2.2 with
    | true => exact awake_after (awake_sendLoop _ data _) _
    | false => exact fun _ => acksend_again h
  | sendEos data msg =>
    unfold Rcs.resume
    dsimp only
    cases h : (s.acksend msg o).2.2 with
    | true => exact fun h => by cases h
    | false => exact fun _ => acksend_again h
  | recvLoop L =>
    show Awake (s.recvPass L o).sock (s.recvPass L o).pc
    unfold RcsT.recvPass
    dsimp only
    split
    · exact awake_after (awake_recvWhile _ L) _
    · exact awake_after (awake_recvBody _ L _ _) _
  | finalizeRecv L ack response =>
    show Awake (s.finalizePass L ack response o).sock (s.finalizePass L ack response o).pc
    unfold RcsT.finalizePass
    dsimp only
    split
    · exact awake_after (awake_finalizeEnd _ L) _
    · split
      · exact awake_after (awake_finalizeEnd _ L) _
      · exact fun h => by cases h

end Awake

section Answers

variable {s : RcsT} {pc : Pc} {d : List UInt8} {errno : Errno} {src : SockaddrIn} {L : Nat}
  {r : Res}

/-- The stretch sends nothing that cannot be printed. -/
def SendsPrintable (r : Res) : Prop := ∀ m ∈ r.messages, Printable m

theorem sendsPrintable_after (out : List Event) (r : Res) :
    SendsPrintable (r.after out) ↔
      (∀ m ∈ out.filterMap Event.message, Printable m) ∧ SendsPrintable r := by
  unfold SendsPrintable
  rw [messages_after, List.forall_mem_append]

theorem sendsPrintable_nothing (h : r.out = []) : SendsPrintable r := by
  intro m hm
  rw [Res.messages, h] at hm
  cases hm

/-- A FIN is answered by FINs. -/
theorem not_sendsPrintable_fin (hi : pc.idle = false) (h : IsFin d) :
    ¬ SendsPrintable (resume s pc (.datagram errno d src)) := by
  intro hall
  have hclose : .sent (control 666 FIN) ∈ RcsT.rawrecvUses (.datagram errno d src) := by
    unfold RcsT.rawrecvUses
    dsimp only
    rw [if_neg h.ne_nil, if_pos (Bool.and_eq_true_iff.mpr h)]
    exact List.mem_append_right _ (List.mem_replicate.mpr ⟨by decide, rfl⟩)
  have hlist := (lists_resume hi s (.datagram errno d src)).sent
  have hmem := mem_sentIn.mpr (mem_resumeUses hi s hclose)
  rw [hlist] at hmem
  exact not_printable_control _ _ (hall _ hmem)

/-- An acksend on an open socket that gets anything but a FIN. -/
theorem acksend_plain (hf : ¬ IsFin d) (h : s.isClosing_ = false) (msg : MsgT) (errno : Errno)
    (src : SockaddrIn) :
    s.acksend msg (.datagram errno d src) =
      if accepted d = true ∧ (ofDatagram d).seqnum = msg.seqnum then
        (latched s src, [.acked msg], true)
      else (latched s src, [(latched s src).rawsend msg], false) := by
  have hopen := (latched_rest s src).1.trans h
  unfold RcsT.acksend RcsT.lowrecv
  dsimp only
  by_cases hne : d = []
  · subst hne
    have hinvalid : RcsT.isValid (RcsT.errnoResult errno) MsgT.default = false := rfl
    rw [rawrecv_nothing, Option.getD_none, hinvalid, Bool.false_and, if_neg Bool.false_ne_true,
      hopen, if_neg Bool.false_ne_true, not_accepted_nil]
    exact (if_neg fun h => by cases h.1).symm
  · simp only [rawrecv_plain hf hne, Option.getD_some, isValid_ofDatagram, Bool.and_eq_true,
      beq_iff_eq, hopen, List.nil_append, Bool.false_eq_true, if_false]

/-- The loop of send goes on with a fragment that can be printed. -/
theorem sendsPrintable_sendLoop (h : s.isClosing_ = false) (data : List UInt8) (k : Nat) :
    SendsPrintable (s.sendLoop data k) ↔ k < data.length ∧ data.length < k + MAX_DATA_LENGTH := by
  unfold RcsT.sendLoop
  by_cases hk : k < data.length
  · have hdrop : min (data.length - k) MAX_DATA_LENGTH ≤ (data.drop k).length := by
      rw [List.length_drop]
      exact Nat.min_le_left _ _
    rw [if_pos ⟨hk, h⟩]
    refine List.forall_mem_singleton.trans ((printable_fragment _ _ ?_ ?_ hdrop).trans ?_)
    · simp only [MAX_DATA_LENGTH]
      omega
    · exact Nat.min_le_right _ _
    · simp only [MAX_DATA_LENGTH]
      omega
  · rw [if_neg fun h' => hk h'.1, if_pos h]
    refine iff_of_false (fun hall => ?_) fun h' => hk h'.1
    exact not_printable_control _ _ (hall _ List.mem_cons_self)

/-- Behind its loop recv sends nothing. -/
theorem recvAgain_out (s : RcsT) (L : Nat) : (s.recvAgain L).out = [] := by
  unfold RcsT.recvAgain RcsT.recvReturn
  split
  · rfl
  · split
    · rfl
    · rfl

theorem recvWhile_out (s : RcsT) (L : Nat) : (s.recvWhile L).out = [] := by
  unfold RcsT.recvWhile
  split
  · exact recvAgain_out s L
  · rfl

theorem sendsPrintable_finalizeEnd (s : RcsT) (L : Nat) : SendsPrintable (s.finalizeEnd L) :=
  (sendsPrintable_after _ _).mpr
    ⟨fun _ hm => absurd hm List.not_mem_nil,
      sendsPrintable_nothing (recvAgain_out (s.setTimeout RECV_TIMEOUT).1 L)⟩

/-- On an open socket recv acknowledges whatever it gets. -/
theorem not_sendsPrintable_recvBody (h : s.isClosing_ = false) (L : Nat) (response : MsgT)
    (ok : Bool) : ¬ SendsPrintable (s.recvBody L response ok) := by
  have hend : ∀ (s' : RcsT) (v : UInt16) (queued : List Event) (r : Res),
      s'.isClosing_ = false → ¬ SendsPrintable (r.after
        (queued ++ if s'.isClosing_ then [] else [s'.rawsend (control v ACK)])) := by
    intro s' v queued r hs' hall
    rw [hs', sendsPrintable_after, List.filterMap_append] at hall
    exact not_printable_control v ACK
      (hall.1 _ (List.mem_append_right _ List.mem_cons_self))
  unfold RcsT.recvBody
  cases ok && response.seqnum == s.recvSeqnum_ with
  | true =>
    cases ok && response.hasFlag EOS with
    | true => exact hend (queue s response) _ _ _ h
    | false => exact hend (queue s response) _ _ _ h
  | false =>
    cases ok && response.hasFlag EOS with
    | true => exact hend s _ _ _ h
    | false => exact hend s _ _ _ h

/-- What comes to a recv that waits for a fragment. -/
theorem sendsPrintable_recvPass (hf : ¬ IsFin d) (h : s.isClosing_ = false) (L : Nat)
    (errno : Errno) (src : SockaddrIn) :
    SendsPrintable (s.recvPass L (.datagram errno d src)) ↔ d = [] ∧ errno = .EAGAIN := by
  have hopen := (latched_rest s src).1.trans h
  unfold RcsT.recvPass
  by_cases hne : d = []
  · subst hne
    rw [rawrecv_nothing]
    dsimp only
    by_cases he : errno = .EAGAIN
    · rw [if_pos ((errnoResult_zero errno).mpr he)]
      exact iff_of_true (sendsPrintable_nothing (recvWhile_out _ L)) ⟨rfl, he⟩
    · rw [if_neg fun h0 => he ((errnoResult_zero errno).mp h0)]
      exact iff_of_false (not_sendsPrintable_recvBody hopen L _ _) fun h' => he h'.2
  · simp only [rawrecv_plain hf hne]
    rw [if_neg (recvSize_ne_zero hne)]
    exact iff_of_false (not_sendsPrintable_recvBody hopen L _ _) fun h' => hne h'.1

/-- What comes to a finalizeRecv. -/
theorem sendsPrintable_finalizePass (hf : ¬ IsFin d) (s : RcsT) (L : Nat) (v : UInt16)
    (response : MsgT) (errno : Errno) (src : SockaddrIn) :
    SendsPrintable (s.finalizePass L (control v ACK) response (.datagram errno d src)) ↔
      (d = [] ∧ errno = .EAGAIN) ∨
        RcsT.startsNext (if d = [] then response else ofDatagram d) = true := by
  -- with a message in hand, the test decides
  have hgo : ∀ (s' : RcsT) (response' : MsgT), SendsPrintable
      (if RcsT.startsNext response' = true then (s'.finalizeEnd L).after []
        else ⟨s', [] ++ [s'.rawsend (control v ACK)], .finalizeRecv L (control v ACK) response'⟩) ↔
      RcsT.startsNext response' = true := by
    intro s' response'
    split
    next hs => exact iff_of_true (sendsPrintable_finalizeEnd s' L) hs
    next hs =>
      refine iff_of_false (fun hall => ?_) hs
      exact not_printable_control v ACK (hall _ List.mem_cons_self)
  unfold RcsT.finalizePass
  by_cases hne : d = []
  · subst hne
    rw [rawrecv_nothing]
    dsimp only
    rw [Option.getD_none]
    by_cases he : errno = .EAGAIN
    · rw [if_pos ((errnoResult_zero errno).mpr he)]
      exact iff_of_true (sendsPrintable_finalizeEnd _ L) (Or.inl ⟨rfl, he⟩)
    · rw [if_neg fun h0 => he ((errnoResult_zero errno).mp h0), hgo, if_pos rfl]
      exact (or_iff_right fun h' => he h'.2).symm
  · simp only [rawrecv_plain hf hne, Option.getD_some]
    rw [if_neg (recvSize_ne_zero hne), hgo, if_neg hne]
    exact (or_iff_right fun h' => hne h'.1).symm

/-- What a blocked call sends behind a datagram. -/
theorem sendsPrintable_iff (hi : pc.idle = false) (hawake : Awake s pc)
    (hblocked : (∃ L, RecvBlocked L pc) ∨ SendBlocked pc) (errno : Errno) (src : SockaddrIn) :
    SendsPrintable (resume s pc (.datagram errno d src)) ↔ PrintableAnswer errno d pc := by
  unfold PrintableAnswer
  by_cases hf : IsFin d
  · exact iff_of_false (not_sendsPrintable_fin hi hf) fun h => h.1 hf
  rw [and_iff_right hf]
  rcases hblocked with ⟨L, hpc⟩ | hpc
  · cases hpc with
    | loop => exact sendsPrintable_recvPass hf (hawake rfl) L errno src
    | finalize v response => exact sendsPrintable_finalizePass hf s L v response errno src
  · cases hpc with
    | fragment data k msg =>
      have hopen := (latched_rest s src).1.trans (hawake rfl)
      unfold Rcs.resume
      dsimp only
      rw [acksend_plain hf (hawake rfl)]
      split
      · exact (sendsPrintable_after _ _).trans ((and_iff_right fun m hm => by cases hm).trans
          (sendsPrintable_sendLoop (s := nextFragment (latched s src)) hopen data _))
      · exact List.forall_mem_singleton
    | eos data msg =>
      unfold Rcs.resume
      dsimp only
      rw [acksend_plain hf (hawake rfl)]
      split
      next ha => exact iff_of_true (fun m hm => by cases hm) (Or.inl ha)
      next ha => exact List.forall_mem_singleton.trans (or_iff_right ha).symm

end Answers

/-! ## 4. Runs -/

section Steps

variable {inspect : Bool} {e e' : Endpoint} {a : Arrival}

/-- Any calls and any outcomes leave a socket and its call in order. -/
theorem InOrder.step (h : InOrder e.sock e.pc) (hstep : e.hears a = some e') :
    InOrder e'.sock e'.pc := by
  rcases hears_cases hstep with ⟨c, _, _, rfl⟩ | ⟨o, _, hi, rfl⟩
  · exact inOrder_start h.counted c
  · exact h.resume hi o

theorem awake_step (hstep : e.hears a = some e') : Awake e'.sock e'.pc := by
  rcases hears_cases hstep with ⟨c, _, _, rfl⟩ | ⟨o, _, _, rfl⟩
  · exact awake_start e.sock c
  · exact awake_resume e.sock e.pc o

/-- What a blocked call does behind a receive stays inside as far as read and the fragments go, and
    behind a harmless datagram altogether. -/
theorem resumeChecks_ranges (h : InOrder e.sock e.pc) (hi : e.pc.idle = false) (o : RecvFrom) :
    AllHold Check.isRange (resumeChecks inspect e.sock e.pc o) :=
  (resume_iff h.counted h.sendable hi o).mpr
    ⟨messageChecks_hold validChecks_ranges (inspectChecks_ranges inspect) _ _ o,
      fun m _ => inspectChecks_ranges inspect m⟩

theorem resumeChecks_inside (h : InOrder e.sock e.pc) (hawake : Awake e.sock e.pc)
    (hi : e.pc.idle = false) (errno : Errno) (d : List UInt8) (src : SockaddrIn) :
    AllHold Check.isAccess (resumeChecks inspect e.sock e.pc (.datagram errno d src)) ↔
      Harmless inspect errno d e.pc := by
  rw [resume_iff h.counted h.sendable hi, messageChecks_inside hi, Harmless,
    ← sendsPrintable_iff hi hawake (h.blocked hi) errno src]
  refine and_congr_right fun _ => ?_
  exact ⟨fun hall hins m hm => inspectChecks_inside.mp (hall m hm) hins,
    fun hall m hm => inspectChecks_inside.mpr fun hins => hall hins m hm⟩

theorem inBounds_iff (h : InOrder e.sock e.pc) (hawake : Awake e.sock e.pc)
    (hstep : e.hears a = some e') : InBounds inspect e a ↔ harmless inspect e a := by
  unfold InBounds
  cases a with
  | call c =>
    exact iff_of_true
      ((start_iff h.counted c).mpr fun m _ => inspectChecks_ranges inspect m) trivial
  | outcome o =>
    simp only [Endpoint.hears, Option.ite_none_right_eq_some] at hstep
    cases o with
    | error errno => exact iff_of_true (resumeChecks_ranges h hstep.1 _) trivial
    | datagram errno d src => exact resumeChecks_inside h hawake hstep.1 errno d src
  | foreign errno d src =>
    simp only [Endpoint.hears, Option.ite_none_right_eq_some] at hstep
    exact resumeChecks_inside h hawake hstep.1 errno d src

end Steps

/-- Whatever calls, datagrams and timeouts come to a new socket, with or without the printing of
    packets: they lead nowhere outside an array if and only if the datagrams among them are harmless
    where they come. -/
theorem in_bounds_iff (inspect : Bool) {s : RcsT} (h : s.buffer_ = .new) (n : Int32)
    (as : List Arrival) (e : Endpoint) :
    Run Endpoint.hears (InBounds inspect) ⟨s, .returned (.send n), []⟩ as e ↔
      Run Endpoint.hears (harmless inspect) ⟨s, .returned (.send n), []⟩ as e := by
  have hstart : InOrder s (.returned (.send n)) :=
    ⟨h ▸ counted_new, trivial, fun hi => (by cases hi)⟩
  exact Run.congr (I := fun e => InOrder e.sock e.pc ∧ Awake e.sock e.pc)
    ⟨hstart, fun hl => (by cases hl)⟩
    (fun _ _ _ h hf => ⟨h.1.step hf, awake_step hf⟩)
    fun _ _ _ h hf => inBounds_iff h.1 h.2 hf

/-- A new socket, and no call in progress. -/
def lone : Endpoint := ⟨.new 3 ⟨0, 0⟩, .returned (.send 0), []⟩

/-- A recv that gets one fragment of one byte, and a send of two fragments that gets a first
    fragment in place of its acknowledgement. -/
def smallRecv : List Arrival :=
  [.call (.recv 4), .outcome (.datagram .EAGAIN (pkt [97] 0).wire ⟨2, 0⟩)]

def crossedSend (data : List UInt8) : List Arrival :=
  [.call (.send (List.replicate 501 97)), .outcome (.datagram .EAGAIN (pkt data 0).wire ⟨2, 0⟩)]

theorem in_bounds_small :
    (∃ e, Run Endpoint.hears (InBounds false) lone smallRecv e ∧ e.sock.recvSeqnum_ = 1) ∧
      ∃ e, Run Endpoint.hears (InBounds true) lone (crossedSend [98]) e ∧
        e.sock.sendSeqnum_ = 1 := by
  have hrecv : ((exec Endpoint.hears (harmless false) lone smallRecv).map
      fun e => e.sock.recvSeqnum_) = some 1 := by decide +kernel
  have hsend : ((exec Endpoint.hears (harmless true) lone (crossedSend [98])).map
      fun e => e.sock.sendSeqnum_) = some 1 := by decide +kernel
  obtain ⟨e, he, hn⟩ := Option.map_eq_some_iff.mp hrecv
  obtain ⟨e', he', hn'⟩ := Option.map_eq_some_iff.mp hsend
  exact ⟨⟨e, (in_bounds_iff false rfl 0 smallRecv e).mpr (run_of_exec he), hn⟩,
    e', (in_bounds_iff true rfl 0 (crossedSend [98]) e').mpr (run_of_exec he'), hn'⟩

/-- A send that gets its acknowledgement. -/
def ackedSend : List Arrival :=
  [.call (.send [97]), .outcome (.datagram .EAGAIN (control 0 ACK).wire ⟨2, 0⟩)]

/-- Every acknowledgement leads outside of an array, and a fragment of the full size does where
    packets are printed. -/
theorem out_of_bounds :
    (∀ inspect, ¬ ∀ e, Run Endpoint.hears (fun _ _ => True) lone ackedSend e →
      Run Endpoint.hears (InBounds inspect) lone ackedSend e) ∧
    ¬ ∀ e, Run Endpoint.hears (fun _ _ => True) lone (crossedSend (List.replicate 500 98)) e →
      Run Endpoint.hears (InBounds true) lone (crossedSend (List.replicate 500 98)) e := by
  have hbad : ∀ (inspect : Bool) (as : List Arrival),
      (exec Endpoint.hears (fun _ _ => True) lone as).isSome →
      exec Endpoint.hears (InBounds inspect) lone as = none →
      ¬ ∀ e, Run Endpoint.hears (fun _ _ => True) lone as e →
        Run Endpoint.hears (InBounds inspect) lone as e := by
    intro inspect as hsome hnone h
    obtain ⟨e, he⟩ := Option.isSome_iff_exists.mp hsome
    have hrun := exec_of_run (h e (run_of_exec he))
    rw [hnone] at hrun
    cases hrun
  refine ⟨fun inspect => hbad inspect ackedSend (by decide +kernel) ?_,
    hbad true _ (by decide +kernel) (by decide +kernel)⟩
  cases inspect with
  | false => decide +kernel
  | true => decide +kernel

end Ece358.Rcs
