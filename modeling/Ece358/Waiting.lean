/-
  File:      Ece358/Waiting.lean
  Subject:   What recv waits for, at its start and in finalizeRecv.

  recv tests its buffer behind its loop only, so it waits for a datagram even where the buffer holds
  the rest of an earlier message. finalizeRecv waits for silence or for the first fragment of a next
  message; rawrecv tells it of silence by what errno says, also where an empty datagram came, and
  the fragment need not be complete.

  * `AtOnce`, `recv_waits` -- recv without datagrams: it never returns;
  * `Wait`, `finStep` -- a finalizeRecv, receive by receive, with what rawrecv returned;
  * `ExitsRightly`, `unambiguous` -- it is right about silence and about the fragment; what the
    outcomes of its receives must be for that;
  * `finalize_exits_iff` -- the one holds if and only if the other does.
-/
import Ece358.Assembly
import Ece358.Wire

namespace Ece358.Rcs

open Lib MsgT

/-! ## 1. A recv with something in the buffer -/

/-- A call behind receives that fail, with these values of errno. -/
def withoutDatagrams (r : Res) (errnos : List Errno) : Res :=
  errnos.foldl (fun r e => (resume r.sock r.pc (.error e)).after r.out) r

/-- recv returns the next part of the first unread message, without a datagram. -/
def AtOnce (s : RcsT) (L : Nat) : Prop :=
  ∃ errnos, (withoutDatagrams (start s (.recv L)) errnos).pc =
    .returned (.recv (frontPart L s.buffer_.unread))

/-- Without a datagram recv stays in its inner loop. -/
theorem recv_waits {s : RcsT} (h : s.isClosing_ = false) (L : Nat) (errnos : List Errno) :
    (withoutDatagrams (start s (.recv L)) errnos).pc = .recvLoop L := by
  have hrun : ∀ (errnos : List Errno) (r : Res), r.pc = .recvLoop L → r.sock.isClosing_ = false →
      (withoutDatagrams r errnos).pc = .recvLoop L := by
    intro errnos
    induction errnos with
    | nil => exact fun r hpc _ => hpc
    | cons e errnos ih =>
      intro r hpc hc
      obtain ⟨s', k, hres, hc', _⟩ := pass_quiet hc L (o := .error e) fun e d src ho => by cases ho
      refine ih ((resume r.sock r.pc (.error e)).after r.out) ?_ ?_
      · rw [hpc, hres]
        rfl
      · rw [hpc, hres]
        exact hc'
  have hstart : start s (.recv L) = passStart s L := (recv_passStart h L).1
  exact hrun errnos _ (by rw [hstart]; rfl) (by rw [hstart]; exact h)

/-- On no open socket does recv return what is left of a message without a datagram. -/
theorem never_at_once {s : RcsT} (h : Open s) (L : Nat) : ¬ AtOnce s L := by
  rintro ⟨errnos, hpc⟩
  rw [recv_waits h.notClosing] at hpc
  cases hpc

/-- A socket that has received two bytes, of which one was read. -/
def halfRead : RcsT :=
  { (RcsT.new 3 ⟨0, 0⟩).setEndpoint ⟨2, 0⟩ with
    buffer_ := (((MsgBufferT.new.queueMessage (fragment 0 [1, 2] 2)).queueMessage
      (control 1 EOS)).read 1).2 }

theorem open_halfRead : Open halfRead := ⟨rfl, rfl⟩

theorem unread_halfRead : halfRead.buffer_.unread = [[2]] := by decide +kernel

theorem never_at_once_halfRead : halfRead.buffer_.unread = [[2]] ∧ ¬ AtOnce halfRead 4 :=
  ⟨unread_halfRead, never_at_once open_halfRead 4⟩

/-- One byte is left, and recv waits for the peer to send something more. -/
theorem remainder_waits :
    ¬ ∀ s : RcsT, Open s → s.buffer_.unread ≠ [] → ∀ L, 0 < L → AtOnce s L := by
  intro h
  obtain ⟨errnos, hpc⟩ := h halfRead open_halfRead (by rw [unread_halfRead]; decide) 4 (by decide)
  rw [recv_waits rfl] at hpc
  cases hpc

/-! ## 2. finalizeRecv -/

/-- A finalizeRecv, with the outcomes of its receives and what rawrecv has returned for each. -/
structure Wait where
  res : Res
  heard : List (RecvFrom × Nat)

/-- The start of finalizeRecv. -/
def waitStart (s : RcsT) (L : Nat) (ack : MsgT) : Wait := ⟨s.finalizeStart L ack, []⟩

/-- Its next receive, until its loop is left. -/
def finStep (w : Wait) (o : RecvFrom) : Option Wait :=
  match w.res.pc with
  | .finalizeRecv _ _ _ => some {
      res := (resume w.res.sock w.res.pc o).after w.res.out
      heard := w.heard ++ [(o, (w.res.sock.rawrecv o).bytes)] }
  | _ => none

/-- `ucpRecvFrom` timed out. -/
def TimedOut (o : RecvFrom) : Prop := o = .error .EAGAIN

/-- A complete first fragment. -/
def FirstFragment (o : RecvFrom) : Prop :=
  ∃ e d src, o = .datagram e d src ∧ accepted d = true ∧ DataFragment (ofDatagram d) ∧
    (ofDatagram d).seqnum = 0

/-- rawrecv has returned 0 for silence and for nothing else; while the loop waits it does so with
    the timer at `PROTOCOL_TIMEOUT`, and it was left for silence or for a complete first
    fragment. -/
structure ExitsRightly (w : Wait) : Prop where
  results : ∀ x ∈ w.heard, x.2 = 0 ↔ TimedOut x.1
  timer : ∀ L ack response, w.res.pc = .finalizeRecv L ack response →
    w.res.sock.timeout = PROTOCOL_TIMEOUT
  exits : (∀ L ack response, w.res.pc ≠ .finalizeRecv L ack response) →
    ∃ heard x, w.heard = heard ++ [x] ∧ (TimedOut x.1 ∨ FirstFragment x.1)

/-- No empty datagram comes while errno says `EAGAIN`. -/
def Told : RecvFrom → Prop
  | .error _ => True
  | .datagram e d _ => ¬ (d = [] ∧ e = .EAGAIN)

/-- What passes the test of finalizeRecv is complete, and a data fragment. -/
def unambiguous (_ : Wait) (o : RecvFrom) : Prop :=
  Told o ∧ ∀ e d src, o = .datagram e d src → RcsT.startsNext (ofDatagram d) = true →
    accepted d = true ∧ DataFragment (ofDatagram d)

section Finalize

variable {s : RcsT} {o : RecvFrom} {L : Nat} {ack response : MsgT} {w w' : Wait}

/-- rawrecv returns 0 for silence only, where no empty datagram passes for it. -/
theorem rawrecv_zero_iff (s : RcsT) (o : RecvFrom) :
    ((s.rawrecv o).bytes = 0 ↔ TimedOut o) ↔ Told o := by
  cases o with
  | error e =>
    rw [rawrecv_failed, errnoResult_zero]
    unfold TimedOut Told
    rw [RecvFrom.error.injEq]
    exact iff_true_intro Iff.rfl
  | datagram e d src =>
    have hno : ¬ TimedOut (.datagram e d src) := fun h => by cases h
    rw [iff_false_intro hno, iff_false]
    unfold Told
    rw [not_iff_not]
    by_cases hne : d = []
    · subst hne
      rw [rawrecv_nothing, errnoResult_zero, and_iff_right rfl]
    · rw [(rawrecv_reports s hne e src).1]
      exact iff_of_false (recvSize_ne_zero hne) fun h => hne h.1

theorem startsNext_nil : RcsT.startsNext (ofDatagram []) = false := by decide +kernel

/-- finalizeRecv is left for a 0, or for what passes its test; else it goes on. -/
theorem finalizePass_goes (hr : RcsT.startsNext response = false) (s : RcsT) (L : Nat) (ack : MsgT)
    (o : RecvFrom) :
    let r := resume s (.finalizeRecv L ack response) o
    let tested := ∃ e d src, o = .datagram e d src ∧ RcsT.startsNext (ofDatagram d) = true
    (((s.rawrecv o).bytes = 0 ∨ tested) ∧ ∀ L ack response, r.pc ≠ .finalizeRecv L ack response) ∨
    (¬ ((s.rawrecv o).bytes = 0 ∨ tested) ∧ r.sock.timeout = s.timeout ∧
      ∃ response', r.pc = .finalizeRecv L ack response' ∧ RcsT.startsNext response' = false) := by
  intro r tested
  have hres : r = s.finalizePass L ack response o := rfl
  -- the way out
  have hout : ∀ (s' : RcsT) (out : List Event) (L' : Nat) (ack' response' : MsgT),
      ((s'.finalizeEnd L).after out).pc ≠ .finalizeRecv L' ack' response' := by
    intro s' out L' ack' response'
    show ((s'.setTimeout RECV_TIMEOUT).1.recvAgain L).pc ≠ _
    unfold RcsT.recvAgain RcsT.recvReturn
    split_ifs <;> exact Pc.noConfusion
  -- the test looks at the new message, or at the last one
  have htest : RcsT.startsNext ((s.rawrecv o).msg.getD response) = true ↔ tested := by
    cases o with
    | error e =>
      rw [rawrecv_failed, Option.getD_none, hr]
      refine ⟨fun h => absurd h (by decide), ?_⟩
      rintro ⟨_, _, _, ho, _⟩
      cases ho
    | datagram e d src =>
      have hd : tested ↔ RcsT.startsNext (ofDatagram d) = true := by
        refine ⟨?_, fun h => ⟨e, d, src, rfl, h⟩⟩
        rintro ⟨e', d', src', ho, h⟩
        obtain ⟨rfl, rfl, rfl⟩ := (RecvFrom.datagram.injEq ..).mp ho
        exact h
      rw [hd]
      by_cases hne : d = []
      · subst hne
        rw [rawrecv_nothing, Option.getD_none, hr, startsNext_nil]
      · rw [(rawrecv_reports s hne e src).2, Option.getD_some]
  by_cases h0 : (s.rawrecv o).bytes = 0
  · refine Or.inl ⟨Or.inl h0, ?_⟩
    rw [hres, RcsT.finalizePass]
    dsimp only
    rw [if_pos h0]
    exact hout _ _
  · by_cases hsn : RcsT.startsNext ((s.rawrecv o).msg.getD response) = true
    · refine Or.inl ⟨Or.inr (htest.mp hsn), ?_⟩
      rw [hres, RcsT.finalizePass]
      dsimp only
      rw [if_neg h0, if_pos hsn]
      exact hout _ _
    · have hgo : r = ⟨(s.rawrecv o).sock, (s.rawrecv o).out ++ [(s.rawrecv o).sock.rawsend ack],
          .finalizeRecv L ack ((s.rawrecv o).msg.getD response)⟩ := by
        rw [hres, RcsT.finalizePass]
        dsimp only
        rw [if_neg h0, if_neg hsn]
      refine Or.inr ⟨fun h => h.elim h0 fun ht => hsn (htest.mpr ht), ?_, _, ?_, by simpa using hsn⟩
      · rw [hgo]
        exact timeout_rawrecv s o
      · rw [hgo]

/-- What the outcome of a receive does to a wait that was right so far. -/
structure Waits (w : Wait) : Prop where
  right : ExitsRightly w
  inside : ∀ L ack response, w.res.pc = .finalizeRecv L ack response →
    RcsT.startsNext response = false

/-- A wait that was not: rawrecv was wrong about silence, or the loop was left for a reason that is
    none. -/
def Misled (w : Wait) : Prop :=
  (∃ x ∈ w.heard, ¬ (x.2 = 0 ↔ TimedOut x.1)) ∨
    ((∀ L ack response, w.res.pc ≠ .finalizeRecv L ack response) ∧
      ∃ heard x, w.heard = heard ++ [x] ∧ ¬ (TimedOut x.1 ∨ FirstFragment x.1))

theorem waits_start (s : RcsT) (L : Nat) (ack : MsgT) : Waits (waitStart s L ack) where
  right := {
    results := fun x hx => absurd hx List.not_mem_nil
    timer := fun _ _ _ _ => rfl
    exits := fun h => absurd rfl (h L ack MsgT.default) }
  inside L' ack' response hpc := by
    obtain ⟨_, _, rfl⟩ := (Pc.finalizeRecv.injEq ..).mp hpc
    exact startsNext_default

theorem finStep_eq (h : finStep w o = some w') : ∃ L ack response,
    w.res.pc = .finalizeRecv L ack response ∧
    w' = ⟨(resume w.res.sock (.finalizeRecv L ack response) o).after w.res.out,
      w.heard ++ [(o, (w.res.sock.rawrecv o).bytes)]⟩ := by
  unfold finStep at h
  split at h
  next L ack response hpc =>
    rw [hpc, Option.some.injEq] at h
    exact ⟨L, ack, response, hpc, h.symm⟩
  next => cases h

theorem Waits.step (h : Waits w) (hok : unambiguous w o) (hstep : finStep w o = some w') :
    Waits w' := by
  obtain ⟨L, ack, response, hpc, rfl⟩ := finStep_eq hstep
  have hzero := (rawrecv_zero_iff w.res.sock o).mpr hok.1
  have hresults : ∀ x ∈ w.heard ++ [(o, (w.res.sock.rawrecv o).bytes)],
      x.2 = 0 ↔ TimedOut x.1 := by
    intro x hx
    rcases List.mem_append.mp hx with hx | hx
    · exact h.right.results x hx
    · rw [List.mem_singleton.mp hx]
      exact hzero
  rcases finalizePass_goes (h.inside L ack response hpc) w.res.sock L ack o with
    ⟨hleft, hend⟩ | ⟨_, htimer, response', hpc', hr'⟩
  · refine ⟨⟨hresults, fun L' ack' r' h' => absurd h' (hend L' ack' r'), fun _ =>
      ⟨w.heard, _, rfl, ?_⟩⟩, fun L' ack' r' h' => absurd h' (hend L' ack' r')⟩
    rcases hleft with h0 | ⟨e, d, src, ho, hsn⟩
    · exact Or.inl (hzero.mp h0)
    · obtain ⟨ha, hd⟩ := hok.2 e d src ho hsn
      have hseq : (ofDatagram d).seqnum = 0 := by
        simp only [RcsT.startsNext, Bool.and_eq_true, beq_iff_eq] at hsn
        exact hsn.1.2
      exact Or.inr ⟨e, d, src, ho, ha, hd, hseq⟩
  · refine ⟨⟨hresults, fun _ _ _ _ => htimer.trans (h.right.timer L ack response hpc), fun hend =>
      absurd hpc' (hend L ack response')⟩, fun L' ack' r' h' => ?_⟩
    have hpc'' : Pc.finalizeRecv L ack response' = .finalizeRecv L' ack' r' := hpc'.symm.trans h'
    rw [← ((Pc.finalizeRecv.injEq ..).mp hpc'').2.2]
    exact hr'

theorem Waits.misled (h : Waits w) (hok : ¬ unambiguous w o) (hstep : finStep w o = some w') :
    Misled w' := by
  obtain ⟨L, ack, response, hpc, rfl⟩ := finStep_eq hstep
  by_cases htold : Told o
  · -- the test of finalizeRecv was wrong
    obtain ⟨e, d, src, ho, hsn, hno⟩ : ∃ e d src, o = .datagram e d src ∧
        RcsT.startsNext (ofDatagram d) = true ∧
        ¬ (accepted d = true ∧ DataFragment (ofDatagram d)) := by
      by_contra hall
      refine hok ⟨htold, fun e d src ho hsn => ?_⟩
      by_contra hno
      exact hall ⟨e, d, src, ho, hsn, hno⟩
    right
    rcases finalizePass_goes (h.inside L ack response hpc) w.res.sock L ack o with
      ⟨_, hend⟩ | ⟨hgoes, _⟩
    · refine ⟨hend, w.heard, _, rfl, ?_⟩
      rintro (ht | ⟨e', d', src', ho', ha, hd, _⟩)
      · have ho' : o = .error .EAGAIN := ht
        rw [ho] at ho'
        cases ho'
      · have ho'' : o = .datagram e' d' src' := ho'
        rw [ho] at ho''
        obtain ⟨rfl, rfl, rfl⟩ := (RecvFrom.datagram.injEq ..).mp ho''
        exact hno ⟨ha, hd⟩
    · exact absurd (Or.inr ⟨e, d, src, ho, hsn⟩) hgoes
  · left
    refine ⟨(o, (w.res.sock.rawrecv o).bytes), ?_, fun hz => htold ?_⟩
    · exact List.mem_append_right _ (List.mem_singleton_self _)
    · exact (rawrecv_zero_iff w.res.sock o).mp hz

theorem Misled.stays (h : Misled w) (hstep : finStep w o = some w') : Misled w' := by
  obtain ⟨L, ack, response, hpc, rfl⟩ := finStep_eq hstep
  rcases h with ⟨x, hx, hno⟩ | ⟨hend, _⟩
  · exact Or.inl ⟨x, List.mem_append_left _ hx, hno⟩
  · exact absurd hpc (hend L ack response)

theorem Misled.not_right (h : Misled w) : ¬ ExitsRightly w := by
  intro hr
  rcases h with ⟨x, hx, hno⟩ | ⟨hend, heard, x, hw, hno⟩
  · exact hno (hr.results x hx)
  · obtain ⟨heard', x', hw', hx'⟩ := hr.exits hend
    rw [hw] at hw'
    have hx := (List.append_inj' hw' rfl).2
    rw [List.cons.injEq] at hx
    exact hno (hx.1 ▸ hx')

end Finalize

/-- rawrecv returns 0 exactly for silence if and only if no empty datagram comes while errno says
    `EAGAIN`; and a finalizeRecv is right about silence and leaves its loop for silence or a
    complete first fragment only, if and only if no such datagram comes and whatever passes its test
    is complete and a data fragment. -/
theorem finalize_exits_iff (s : RcsT) :
    (∀ o : RecvFrom, ((s.rawrecv o).bytes = 0 ↔ TimedOut o) ↔ Told o) ∧
    ∀ (L : Nat) (ack : MsgT) (os : List RecvFrom) (w : Wait),
      Run finStep (fun _ _ => True) (waitStart s L ack) os w →
      (ExitsRightly w ↔ Run finStep unambiguous (waitStart s L ack) os w) :=
  ⟨rawrecv_zero_iff s, fun L ack _ _ hrun => hrun.good_iff (waits_start s L ack)
    (fun _ _ _ hs hok hstep => hs.step hok hstep) (fun _ _ _ hs hok hstep => hs.misled hok hstep)
    (fun _ _ _ hs hstep => hs.stays hstep) (fun _ hs => hs.right) (fun _ hs => hs.not_right)⟩

/-- What a wait hears that is right to end: the marker once more, and a first fragment. -/
def nextFirst : List RecvFrom :=
  [.datagram .EAGAIN (control 1 EOS).wire ⟨2, 0⟩, .datagram .EAGAIN (pkt [98] 0).wire ⟨2, 0⟩]

theorem finalize_exits_iff_silence : ∃ w,
    Run finStep (fun _ _ => True) (waitStart halfRead 4 (control 1 ACK)) nextFirst w ∧
    w.res.pc.finalizing = false ∧ ExitsRightly w := by
  have hexec : ((exec finStep (fun _ _ => True) (waitStart halfRead 4 (control 1 ACK))
      nextFirst).map fun w => w.res.pc.finalizing) = some false := by decide +kernel
  obtain ⟨w, hw, hpc⟩ := Option.map_eq_some_iff.mp hexec
  have hrun := run_of_exec hw
  refine ⟨w, hrun, hpc, ((finalize_exits_iff halfRead).2 _ _ _ _ hrun).mpr ?_⟩
  obtain _ | ⟨_, hmark, _ | ⟨_, hfirst, _ | _⟩⟩ := hrun
  refine .cons ?_ hmark (.cons ?_ hfirst (.nil _))
  · -- the marker does not pass the test
    refine ⟨fun h => absurd h.1 (by decide +kernel), fun e d src he hsn => ?_⟩
    cases he
    exact absurd hsn (by decide +kernel)
  · refine ⟨fun h => absurd h.1 (by decide +kernel), fun e d src he _ => ?_⟩
    cases he
    exact ⟨by decide +kernel,
      ⟨by decide +kernel, by decide +kernel, by decide +kernel, by decide +kernel⟩⟩

/-- A datagram cut to nothing, behind a timeout: rawrecv says that nothing came, and the wait
    ends. -/
theorem nothing_ends_wait :
    ¬ (∀ (s : RcsT) (o : RecvFrom), (s.rawrecv o).bytes = 0 ↔ TimedOut o) ∧
    ¬ ∀ s : RcsT, Open s → ∀ L ack os w, Run finStep (fun _ _ => True) (waitStart s L ack) os w →
      ExitsRightly w := by
  have htold : ¬ Told (.datagram .EAGAIN [] ⟨2, 0⟩) := fun h => h ⟨rfl, rfl⟩
  constructor
  · exact fun h => htold ((rawrecv_zero_iff halfRead _).mp (h halfRead _))
  · intro h
    have hrun : Run finStep (fun _ _ => True) (waitStart halfRead 4 (control 1 ACK))
        [.datagram .EAGAIN [] ⟨2, 0⟩] _ := .cons trivial rfl (.nil _)
    refine (Waits.misled (waits_start _ _ _) ?_ rfl).not_right (h _ open_halfRead _ _ _ _ hrun)
    exact fun hok => htold hok.1

end Ece358.Rcs
