/-
  File:      Ece358/Ucp.lean
  Subject:   ucpSendTo (ucp.c), and the two programs on top of it.

  ucpSendTo rolls its dice: it may send a part of the datagram, write over all of its bytes, or send
  nothing and say that it did. `Transfer` has channels that lose and cut. What was written over is
  no less than a loss where the test of the receiver refuses it, and then the programs cannot tell
  these channels from the real sends.

  * `ucpSendTo`, `viaUcp`, `Transfer.ucpStep` -- the code, the datagrams of one step through it, and
    the two programs on such sends;
  * `shown` -- what was written over is refused by the test;
  * `Becomes` -- what can become of a datagram;
  * `Pc.Like`, `Res.Like`, `Endpoint.Like` -- the same, but for what finalizeRecv has read last;
  * `resume_becomes` -- such a datagram does what some cut of the original does;
  * `Masks`, `masks_step` -- every step is one of `Transfer`, with losses and cuts around it;
  * `delivers_over_ucp` -- the result.
-/
import Ece358.TransferRun

namespace Ece358.Rcs

open Lib MsgT

/-! ## 1. The code -/

/-- const int pDoEvil: the chance in 100. -/
def pDoEvil : UInt32 := 37

/-- The loop over `sendBuf` that writes over its bytes; `rand i` is what the `i`th get_rand() of the
    call returns. -/
def overwritten (rand : Nat → UInt32) (len : Nat) : List UInt8 :=
  (List.range len).map fun i => (rand (i + 2) % 256).toUInt8

/-- The result of ucpSendTo, and the bytes that it passes to sendto, if any; `sendto` is what this
    returns. -/
def ucpSendTo (rand : Nat → UInt32) (sendto : List UInt8 → Int) (buf : List UInt8) (len : Int) :
    Int × Option (List UInt8) :=
  if len ≤ 0 then (-1, none)
  else
    let sendBuf := buf.take len.toNat
    if rand 0 % 100 < pDoEvil then
      let evilKind := rand 1 % 3
      if evilKind = 0 then
        let part := sendBuf.take (rand 2 % UInt32.ofNat len.toNat).toNat
        (sendto part, some part)
      else if evilKind = 1 then
        (sendto (overwritten rand len.toNat), some (overwritten rand len.toNat))
      else (len, none)
    else (sendto sendBuf, some sendBuf)

/-- Datagrams on their way through ucpSendTo; `rands i` are the numbers that the `i`th call draws. A
    sendto that fails is a loss, which the channels have anyway. -/
def viaUcp (rands : Nat → Nat → UInt32) : Nat → List (List UInt8) → List (List UInt8)
  | _, [] => []
  | i, d :: ds =>
    (ucpSendTo (rands i) (fun bytes => bytes.length) d d.length).2.toList ++
      viaUcp rands (i + 1) ds

/-- A channel behind a step, which has put its datagrams at the end of it, if any. -/
def sentVia (rands : Nat → Nat → UInt32) (before after : List (List UInt8)) : List (List UInt8) :=
  after.take before.length ++ viaUcp rands 0 (after.drop before.length)

namespace Transfer

/-- The same for both channels. -/
def sentVia (rands : Nat → Nat → UInt32) (t t' : Transfer) : Transfer :=
  { t' with net := { t'.net with
      ab := Rcs.sentVia rands t.net.ab t'.net.ab
      ba := Rcs.sentVia rands t.net.ba t'.net.ba } }

/-- A step of the two programs whose datagrams are sent by ucpSendTo. -/
def ucpStep (t : Transfer) (act : TransferAct × (Nat → Nat → UInt32)) : Option Transfer :=
  (t.step act.1).map fun t' => sentVia act.2 t t'

end Transfer

/-- The channel cuts a datagram. -/
def TransferAct.cuts : TransferAct → Bool
  | .net _ (.cut _ _) => true
  | _ => false

/-- Where ucpSendTo writes over a datagram, the test refuses what comes out. -/
def Shown (rands : Nat → Nat → UInt32) : Nat → List (List UInt8) → Prop
  | _, [] => True
  | i, d :: ds =>
    (rands i 0 % 100 < pDoEvil → rands i 1 % 3 = 1 →
      accepted (overwritten (rands i) d.length) = false) ∧ Shown rands (i + 1) ds

instance decidableShown (rands : Nat → Nat → UInt32) :
    ∀ (i : Nat) (ds : List (List UInt8)), Decidable (Shown rands i ds)
  | _, [] => isTrue trivial
  | i, _ :: ds =>
    have := decidableShown rands (i + 1) ds
    inferInstanceAs (Decidable (_ ∧ _))

/-- The same of the datagrams of one step; the channels themselves lose datagrams, and do not cut
    them. -/
def shown (t : Transfer) (act : TransferAct × (Nat → Nat → UInt32)) : Prop :=
  act.1.cuts = false ∧ ∀ t' ∈ t.step act.1,
    Shown act.2 0 (t'.net.ab.drop t.net.ab.length) ∧ Shown act.2 0 (t'.net.ba.drop t.net.ba.length)

instance (t : Transfer) : DecidablePred (shown t) := fun _ => inferInstanceAs (Decidable (_ ∧ _))

/-! ## 2. What can become of a datagram -/

/-- A part of it or all of it; or bytes that are refused. -/
inductive Becomes (d : List UInt8) : List UInt8 → Prop
  | part (k : Nat) : Becomes d (d.take k)
  | refused (d' : List UInt8) (h : accepted d' = false) (hd : 1 < d.length) : Becomes d d'

section Datagrams

variable {d d' : List UInt8} {ds : List (List UInt8)} {rand : Nat → UInt32}
  {rands : Nat → Nat → UInt32}

theorem Becomes.refl (d : List UInt8) : Becomes d d := by
  have h := Becomes.part (d := d) d.length
  rwa [List.take_length] at h

/-- What ucpSendTo passes on. -/
theorem ucpSendTo_becomes (hd : 1 < d.length) {sendto : List UInt8 → Int}
    (hs : rand 0 % 100 < pDoEvil → rand 1 % 3 = 1 →
      accepted (overwritten rand d.length) = false)
    (h : (ucpSendTo rand sendto d d.length).2 = some d') : Becomes d d' := by
  have hall : d.take d.length = d := List.take_length
  have hlen : ¬ (d.length : Int) ≤ 0 := by omega
  unfold ucpSendTo at h
  rw [if_neg hlen] at h
  simp only [Int.toNat_natCast, hall] at h
  split_ifs at h with hevil hpart hover
  · cases h
    exact .part _
  · cases h
    exact .refused _ (hs hevil hover) hd
  · cases h
    exact .refl d

/-- What a step passes on: some of its datagrams, and what has become of them. -/
theorem viaUcp_becomes {i : Nat} (hs : Shown rands i ds) (hd : ∀ d ∈ ds, 1 < d.length) :
    ∃ ds', ds'.Sublist ds ∧ List.Forall₂ Becomes ds' (viaUcp rands i ds) := by
  induction ds generalizing i with
  | nil => exact ⟨[], List.Sublist.refl _, .nil⟩
  | cons d ds ih =>
    obtain ⟨ds', hsub, hall⟩ := ih hs.2 fun d hmem => hd d (List.mem_cons_of_mem _ hmem)
    cases hsent : (ucpSendTo (rands i) (fun bytes => bytes.length) d d.length).2 with
    | none =>
      refine ⟨ds', hsub.cons d, ?_⟩
      rw [viaUcp, hsent]
      exact hall
    | some d' =>
      refine ⟨d :: ds', hsub.cons_cons d, ?_⟩
      rw [viaUcp, hsent]
      exact .cons (ucpSendTo_becomes (hd d List.mem_cons_self) hs.1 hsent) hall

theorem sentVia_append (rands : Nat → Nat → UInt32) (before ds : List (List UInt8)) :
    sentVia rands before (before ++ ds) = before ++ viaUcp rands 0 ds := by
  rw [sentVia, List.take_left, List.drop_left]

theorem sentVia_of_le {before after : List (List UInt8)} (h : after.length ≤ before.length) :
    sentVia rands before after = after := by
  rw [sentVia, List.take_of_length_le h, List.drop_of_length_le h]
  exact List.append_nil _

/-- The datagrams of a stretch have a header. -/
theorem one_lt_length_wire (m : MsgT) : 1 < m.wire.length := by
  have hs : m.serialize.length = 512 := by
    rw [serialize, List.length_append, length_header, m.size_data]
    rfl
  rw [wire, List.length_take, getTotalLength_eq, hs]
  omega

end Datagrams

/-! ## 3. Endpoints -/

/-- The same place; what finalizeRecv has read last can differ, as long as it does not end it. -/
inductive Pc.Like : Pc → Pc → Prop
  | same (pc : Pc) : Like pc pc
  | finalize (L : Nat) (ack response response' : MsgT) (h : RcsT.startsNext response = false)
      (h' : RcsT.startsNext response' = false) :
      Like (.finalizeRecv L ack response) (.finalizeRecv L ack response')

/-- The same stretch, up to that. -/
structure Res.Like (r r' : Res) : Prop where
  sock : r.sock = r'.sock
  out : r.out = r'.out
  pc : r.pc.Like r'.pc

/-- The same endpoint, up to that. -/
structure Endpoint.Like (e e' : Endpoint) : Prop where
  sock : e.sock = e'.sock
  record : e.record = e'.record
  pc : e.pc.Like e'.pc

section Like

variable {s : RcsT} {pc pc' : Pc} {r r' : Res} {e e' : Endpoint} {d d' : List UInt8}
  {errno errno' : Errno}

theorem Pc.Like.idle (h : pc.Like pc') : pc'.idle = pc.idle := by
  cases h <;> rfl

theorem Pc.Like.returned {ret : Ret} (h : pc.Like pc') (hp : pc = .returned ret) :
    pc' = .returned ret := by
  cases h with
  | same => exact hp
  | finalize => cases hp

theorem Res.Like.refl (r : Res) : r.Like r := ⟨rfl, rfl, .same _⟩

theorem Res.Like.entries (h : r.Like r') : r.entries = r'.entries := by
  have hout := h.out
  have hpc := h.pc
  obtain ⟨s, out, pc⟩ := r
  obtain ⟨s', out', pc'⟩ := r'
  obtain rfl : out = out' := hout
  obtain hpc : pc.Like pc' := hpc
  cases hpc <;> rfl

theorem Res.Like.datagrams (h : r.Like r') : r.datagrams = r'.datagrams := by
  rw [Res.datagrams, Res.messages, h.out]
  rfl

theorem Res.Like.leaving (h : r.Like r') : r.leaving = r'.leaving := by
  unfold Res.leaving Res.datagrams Res.messages
  rw [h.out]

theorem Endpoint.Like.went (h : e.Like e') (es : List Entry) (hr : r.Like r') :
    (e.went es r).Like (e'.went es r') where
  sock := hr.sock
  record := by rw [went_record, went_record, h.record, hr.entries]
  pc := hr.pc

/-! ### Receives -/

/-- The same outcome, at the same place. -/
theorem resume_like (h : pc.Like pc') (s : RcsT) (o : RecvFrom) :
    (resume s pc o).Like (resume s pc' o) := by
  cases h with
  | same => exact .refl _
  | finalize L ack response response' h h' =>
    show (s.finalizePass L ack response o).Like (s.finalizePass L ack response' o)
    unfold RcsT.finalizePass
    dsimp only
    by_cases h0 : (s.rawrecv o).bytes = 0
    · rw [if_pos h0, if_pos h0]
      exact .refl _
    · rw [if_neg h0, if_neg h0]
      cases hm : (s.rawrecv o).msg with
      | some m => exact .refl _
      | none =>
        rw [Option.getD_none, Option.getD_none, h, h']
        exact ⟨rfl, rfl, .finalize L ack response response' h h'⟩

/-- The number of what was refused does not matter. -/
theorem acksend_unheeded (h : accepted d = false) (hne : d ≠ []) (h' : accepted d' = false)
    (hne' : d' ≠ []) (s : RcsT) (msg : MsgT) (errno errno' : Errno) (src : SockaddrIn) :
    s.acksend msg (.datagram errno d src) = s.acksend msg (.datagram errno' d' src) := by
  simp only [RcsT.acksend, RcsT.lowrecv, rawrecv_plain (not_isFin_of_not_accepted h) hne,
    rawrecv_plain (not_isFin_of_not_accepted h') hne', Option.getD_some, isValid_ofDatagram, h, h',
    Bool.false_and]

/-- Nothing of it matters to recv. -/
theorem recvBody_refused (s : RcsT) (L : Nat) (response response' : MsgT) :
    s.recvBody L response false = s.recvBody L response' false := by
  simp only [RcsT.recvBody, Bool.false_and, Bool.false_eq_true, if_false]

/-- Two datagrams that are refused, and that finalizeRecv does not take for a first fragment. -/
theorem resume_unheeded (hpc : pc.Like pc') (h : accepted d = false) (hne : d ≠ [])
    (h' : accepted d' = false) (hne' : d' ≠ []) (hn : pc.finalizing = true →
      RcsT.startsNext (ofDatagram d) = false ∧ RcsT.startsNext (ofDatagram d') = false)
    (src : SockaddrIn) :
    (resume s pc (.datagram errno d src)).Like (resume s pc' (.datagram errno' d' src)) := by
  have hfin : ∀ L ack response response', RcsT.startsNext (ofDatagram d) = false →
      RcsT.startsNext (ofDatagram d') = false →
      (s.finalizePass L ack response (.datagram errno d src)).Like
        (s.finalizePass L ack response' (.datagram errno' d' src)) := by
    intro L ack response response' hd hd'
    simp only [RcsT.finalizePass, rawrecv_plain (not_isFin_of_not_accepted h) hne,
      rawrecv_plain (not_isFin_of_not_accepted h') hne', if_neg (recvSize_ne_zero hne),
      if_neg (recvSize_ne_zero hne'), Option.getD_some, hd, hd', Bool.false_eq_true, if_false]
    exact ⟨rfl, rfl, .finalize L ack _ _ hd hd'⟩
  cases hpc with
  | finalize L ack response response' _ _ => exact hfin L ack _ _ (hn rfl).1 (hn rfl).2
  | same =>
    cases pc with
    | sendFragment data k msg =>
      simp only [resume, acksend_unheeded h hne h' hne' s msg errno errno' src]
      exact .refl _
    | sendEos data msg =>
      simp only [resume, acksend_unheeded h hne h' hne' s msg errno errno' src]
      exact .refl _
    | recvLoop L =>
      show (s.recvPass L _).Like (s.recvPass L _)
      simp only [RcsT.recvPass, rawrecv_plain (not_isFin_of_not_accepted h) hne,
        rawrecv_plain (not_isFin_of_not_accepted h') hne', if_neg (recvSize_ne_zero hne),
        if_neg (recvSize_ne_zero hne'), Option.getD_some, isValid_ofDatagram, h, h',
        recvBody_refused _ L (ofDatagram d) (ofDatagram d')]
      exact .refl _
    | finalizeRecv L ack response => exact hfin L ack _ _ (hn rfl).1 (hn rfl).2
    | returned ret => exact .refl _

/-- What ends finalizeRecv is as good as a timeout. -/
theorem finalize_next (hpc : pc.Like pc') (hf : pc.finalizing = true) (h : accepted d = false)
    (hne : d ≠ []) (hn : RcsT.startsNext (ofDatagram d) = true) (src : SockaddrIn) :
    (resume s pc (.datagram errno d src)).Like (resume s pc' (.datagram .EAGAIN [] src)) := by
  have hfin : ∀ L ack response response',
      (s.finalizePass L ack response (.datagram errno d src)).Like
        (s.finalizePass L ack response' (.datagram .EAGAIN [] src)) := by
    intro L ack response response'
    simp only [RcsT.finalizePass, rawrecv_plain (not_isFin_of_not_accepted h) hne,
      rawrecv_nothing, if_neg (recvSize_ne_zero hne), Option.getD_some, hn, if_true,
      RcsT.errnoResult]
    exact .refl _
  cases hpc with
  | finalize L ack response response' _ _ => exact hfin L ack response response'
  | same =>
    cases pc with
    | finalizeRecv L ack response => exact hfin L ack response response
    | _ => cases hf

/-- The first byte of a datagram is refused, and starts nothing. -/
theorem take_one (d : List UInt8) :
    accepted (d.take 1) = false ∧ RcsT.startsNext (ofDatagram (d.take 1)) = false := by
  constructor
  · rw [← Bool.not_eq_true]
    intro ha
    have hlen := accepted_length ha
    rw [List.length_take] at hlen
    omega
  · cases d with
    | nil => decide +kernel
    | cons b d =>
      have hzero : (ofDatagram [b]).length = 0 := rfl
      show RcsT.startsNext (ofDatagram [b]) = false
      simp [RcsT.startsNext, hzero]

/-- What has become of a datagram does to a call what some part of the datagram does. -/
theorem resume_becomes (hpc : pc.Like pc') (h : Becomes d d') (s : RcsT) (errno : Errno)
    (src : SockaddrIn) : ∃ k errno', k ≤ d.length ∧
      (resume s pc (.datagram errno d' src)).Like
        (resume s pc' (.datagram errno' (d.take k) src)) := by
  cases h with
  | part k =>
    refine ⟨min k d.length, errno, Nat.min_le_right _ _, ?_⟩
    have htake : d.take (min k d.length) = d.take k := by
      rw [List.take_eq_take_iff]
      omega
    rw [htake]
    exact resume_like hpc s _
  | refused _ hd hlen =>
    by_cases hne : d' = []
    · subst hne
      exact ⟨0, errno, Nat.zero_le _, resume_like hpc s _⟩
    · by_cases hnext : pc.finalizing = true ∧ RcsT.startsNext (ofDatagram d') = true
      · exact ⟨0, .EAGAIN, Nat.zero_le _, finalize_next hpc hnext.1 hd hne hnext.2 src⟩
      · obtain ⟨hrefused, hstarts⟩ := take_one d
        have hone : d.take 1 ≠ [] := by
          rw [← List.length_pos_iff, List.length_take]
          omega
        refine ⟨1, errno, Nat.le_of_lt hlen, resume_unheeded hpc hd hne hrefused hone ?_ src⟩
        exact fun hf => ⟨Bool.eq_false_iff.mpr fun hn => hnext ⟨hf, hn⟩, hstarts⟩

end Like

/-! ## 4. One side goes on -/

/-- The system from the view of one side. -/
def Net.via (n : Net) : Side → Net
  | .A => n
  | .B => n.swap

def Side.other : Side → Side
  | .A => .B
  | .B => .A

@[simp] theorem via_via (n : Net) (side : Side) : (n.via side).via side = n := by
  cases side <;> rfl

/-- The same endpoints; what is on the channels of `n` has become what is on those of `u`. -/
structure Net.Like (u n : Net) : Prop where
  a : u.a.Like n.a
  b : u.b.Like n.b
  ab : List.Forall₂ Becomes n.ab u.ab
  ba : List.Forall₂ Becomes n.ba u.ba

/-- Side A goes on in both systems, and sends the datagrams `ds`. -/
structure Follows (u n u' n' : Net) (ds : List (List UInt8)) : Prop where
  a : u'.a.Like n'.a
  b : u'.b.Like n'.b
  ab : u'.ab = u.ab ++ ds
  ab' : n'.ab = n.ab ++ ds
  ba : List.Forall₂ Becomes n'.ba u'.ba
  le : u'.ba.length ≤ u.ba.length
  long : ∀ d ∈ ds, 1 < d.length

section Follows

variable {u n u' : Net} {c : Call} {o : RecvFrom} {errno : Errno} {r : Res} {d : List UInt8}

theorem Net.Like.via (h : u.Like n) (side : Side) : (u.via side).Like (n.via side) := by
  cases side with
  | A => exact h
  | B => exact ⟨h.b, h.a, h.ba, h.ab⟩

theorem long_datagrams (r : Res) : ∀ d ∈ r.datagrams, 1 < d.length := by
  intro d hd
  obtain ⟨m, _, rfl⟩ := List.mem_map.mp hd
  exact one_lt_length_wire m

theorem Net.Like.calls (h : u.Like n) (hs : u.stepA (.call c) = some u') :
    ∃ n' ds, n.stepA (.call c) = some n' ∧ Follows u n u' n' ds := by
  rw [Net.stepA, Option.ite_none_right_eq_some, Option.some.injEq] at hs
  obtain ⟨hp, rfl⟩ := hs
  refine ⟨{ n with
    a := n.a.went [.called c] (start u.a.sock c)
    ab := n.ab ++ (start u.a.sock c).datagrams }, (start u.a.sock c).datagrams, ?_, ?_⟩
  · rw [Net.stepA, h.a.pc.idle, if_pos hp, ← h.a.sock]
  · exact ⟨h.a.went _ (.refl _), h.b, rfl, rfl, h.ba, le_refl _, long_datagrams _⟩

theorem Net.Like.timer (h : u.Like n) (hs : u.stepA .timeout = some u') :
    ∃ n' ds, n.stepA .timeout = some n' ∧ Follows u n u' n' ds := by
  rw [Net.stepA, Option.ite_none_right_eq_some, Option.some.injEq] at hs
  obtain ⟨⟨hp, ht⟩, rfl⟩ := hs
  have hr := resume_like h.a.pc u.a.sock (.error .EAGAIN)
  refine ⟨n.resumeA (.error .EAGAIN), (resume u.a.sock u.a.pc (.error .EAGAIN)).datagrams, ?_, ?_⟩
  · rw [Net.stepA, h.a.pc.idle, ← h.a.sock, if_pos ⟨hp, ht⟩]
  · refine ⟨?_, h.b, rfl, ?_, h.ba, le_refl _, long_datagrams _⟩
    · show (u.a.went [] _).Like (n.a.went [] (resume n.a.sock n.a.pc _))
      rw [← h.a.sock]
      exact h.a.went [] hr
    · show n.ab ++ (resume n.a.sock n.a.pc _).datagrams = _
      rw [← h.a.sock, ← hr.datagrams]

theorem Net.Like.closes (h : u.Like n) :
    ∃ ds, Follows u n u.rcsCloseA n.rcsCloseA ds := by
  refine ⟨if u.a.sock.isClosing_ then []
    else (u.a.sock.close.2.filterMap Event.message).map MsgT.wire, ?_, h.b, rfl, ?_, h.ba,
    le_refl _, ?_⟩
  · refine ⟨?_, ?_, h.a.pc⟩
    · show u.a.sock.close.1 = n.a.sock.close.1
      rw [h.a.sock]
    · show u.a.record ++ _ = n.a.record ++ _
      rw [h.a.sock, h.a.record]
  · show n.ab ++ _ = _
    rw [h.a.sock]
  · intro d hd
    split at hd
    · cases hd
    · obtain ⟨m, _, rfl⟩ := List.mem_map.mp hd
      exact one_lt_length_wire m

theorem Net.Like.deaf (h : u.Like n) (hs : u.deafA o = some u') :
    ∃ n', n.deafA o = some n' ∧ Follows u n u' n' [] := by
  rw [Net.deafA, Option.ite_none_right_eq_some, Option.some.injEq] at hs
  obtain ⟨hp, rfl⟩ := hs
  refine ⟨{ n with a := n.a.went [] (resume u.a.sock n.a.pc o) }, ?_, ?_⟩
  · rw [Net.deafA, h.a.pc.idle, if_pos hp, ← h.a.sock]
  · exact ⟨h.a.went [] (resume_like h.a.pc _ _), h.b, (List.append_nil _).symm,
      (List.append_nil _).symm, h.ba, le_refl _, fun d hd => by cases hd⟩

/-- Side A hears what has become of a datagram in the one system, and a part of it in the other. -/
theorem Net.Like.hears (h : u.Like n) (hs : u.hearA errno = some u') :
    ∃ d rest k errno' n' ds, n.ba = d :: rest ∧ k ≤ d.length ∧
      ({ n with ba := d.take k :: rest } : Net).hearA errno' = some n' ∧
      Follows u n u' n' ds := by
  obtain ⟨d', rest', hp, hba, rfl⟩ := hearA_cases hs
  have hall := h.ba
  rw [hba] at hall
  obtain ⟨d, rest, hd, hrest, hn⟩ := List.forall₂_cons_right_iff.mp hall
  obtain ⟨k, errno', hk, hr⟩ := resume_becomes h.a.pc hd u.a.sock errno u.a.sock.endPoint_
  refine ⟨d, rest, k, errno', { n with
      a := n.a.went [] (n.a.heard errno' (d.take k))
      ab := n.ab ++ (n.a.heard errno' (d.take k)).leaving
      ba := rest }, (u.a.heard errno d').leaving, hn, hk, ?_, ?_⟩
  · rw [Net.hearA]
    exact if_pos (h.a.pc.idle.trans hp)
  · have hheard : (u.a.heard errno d').Like (n.a.heard errno' (d.take k)) := by
      unfold Endpoint.heard
      rw [← h.a.sock]
      exact hr
    refine ⟨h.a.went [] hheard, h.b, rfl, ?_, hrest, ?_, ?_⟩
    · show n.ab ++ _ = _
      rw [hheard.leaving]
    · rw [hba]
      exact Nat.le_succ _
    · exact long_datagrams _

end Follows

/-! ## 5. The two programs -/

/-- The programs are in the same state, on such sockets. -/
structure Masks (u t : Transfer) : Prop where
  same : t = { u with net := t.net }
  net : u.net.Like t.net

section Masks

variable {u u' t : Transfer} {n n' : Net} {rands : Nat → Nat → UInt32} {ds ds' : List (List UInt8)}
  {side : Side}

/-- The channel away from a side loses the `i`th datagram. -/
theorem step_lose (side : Side) {i : Nat} (hi : i < (t.net.via side).ab.length) :
    t.step (.net side (.lose i)) = some { t with
      net := ({ t.net.via side with ab := (t.net.via side).ab.eraseIdx i } : Net).via side } := by
  cases side with
  | A =>
    have hi : i < t.net.ab.length := hi
    simp [Transfer.step, Transfer.plain, Transfer.onNet, Net.step, Net.stepA, Net.via, hi]
  | B =>
    have hi : i < t.net.ba.length := hi
    simp [Transfer.step, Transfer.plain, Transfer.onNet, Net.step, Net.stepA, Net.via, Net.swap, hi]

/-- It loses all of some datagrams but `ds'`. -/
theorem loses (side : Side) (hsub : ds'.Sublist ds) (front : List (List UInt8))
    (hab : (t.net.via side).ab = front ++ ds) :
    Reach Transfer.step (fun _ _ => True) t { t with
      net := ({ t.net.via side with ab := front ++ ds' } : Net).via side } := by
  induction hsub generalizing t front with
  | slnil =>
    have hsame : ({ t.net.via side with ab := front ++ [] } : Net) = t.net.via side := by
      rw [← hab]
    rw [hsame, via_via]
  | @cons l l' d hsub ih =>
    have hlose := step_lose (t := t) side (i := front.length) (by
      rw [hab, List.length_append, List.length_cons]
      omega)
    have herase : (front ++ d :: l').eraseIdx front.length = front ++ l' := by
      rw [List.eraseIdx_append_of_length_le (le_refl _), Nat.sub_self]
      rfl
    rw [hab, herase] at hlose
    refine reach_head trivial hlose ?_
    have hrest := ih (t := { t with
      net := ({ t.net.via side with ab := front ++ l' } : Net).via side }) front (by rw [via_via])
    rwa [via_via] at hrest
  | @cons_cons l l' d hsub ih =>
    have hrest := ih (front ++ [d]) (by rw [hab, List.append_assoc]; rfl)
    rwa [List.append_assoc] at hrest

/-- The oldest datagram on its way to a side is cut. -/
theorem cuts_oldest {d : List UInt8} {rest : List (List UInt8)} {k : Nat}
    (hba : (t.net.via side).ba = d :: rest) (hk : k ≤ d.length) :
    Reach Transfer.step (fun _ _ => True) t { t with
      net := ({ t.net.via side with ba := d.take k :: rest } : Net).via side } := by
  by_cases hall : k = d.length
  · have hsame : ({ t.net.via side with ba := d.take k :: rest } : Net) = t.net.via side := by
      rw [hall, List.take_length, ← hba]
    rw [hsame, via_via]
  · have hlt : k < d.length := by omega
    refine reach_step (a := .net side.other (.cut 0 k)) trivial ?_
    cases side with
    | A =>
      have hba : t.net.ba = d :: rest := hba
      simp [Transfer.step, Transfer.plain, Transfer.onNet, Net.step, Net.stepA, Net.via, Net.swap,
        Side.other, hba, hlt]
    | B =>
      have hab : t.net.ab = d :: rest := hba
      simp [Transfer.step, Transfer.plain, Transfer.onNet, Net.step, Net.stepA, Net.via, Net.swap,
        Side.other, hab, hlt]

/-- What ucpSendTo makes of the datagrams of a step. -/
theorem sentVia_via (rands : Nat → Nat → UInt32) (u u' : Transfer) (side : Side) :
    ((Transfer.sentVia rands u u').net.via side) = { u'.net.via side with
      ab := sentVia rands (u.net.via side).ab (u'.net.via side).ab
      ba := sentVia rands (u.net.via side).ba (u'.net.via side).ba } := by
  cases side <;> rfl

/-- Behind a step in which `side` sends, the channel loses what ucpSendTo does not send. -/
theorem Follows.sent (hf : Follows (u.net.via side) (t.net.via side) (u'.net.via side)
      (n'.via side) ds)
    (hnet : u.net.Like t.net) (hs : Shown rands 0 ((u'.net.via side).ab.drop
      (u.net.via side).ab.length)) :
    ∃ t', Reach Transfer.step (fun _ _ => True) { u' with net := n' } t' ∧
      Masks (Transfer.sentVia rands u u') t' := by
  rw [hf.ab, List.drop_left] at hs
  obtain ⟨ds', hsub, hbecomes⟩ := viaUcp_becomes hs hf.long
  refine ⟨_, loses side hsub (t.net.via side).ab hf.ab', rfl, ?_⟩
  have hvia : ((Transfer.sentVia rands u u').net.via side).Like
      { n'.via side with ab := (t.net.via side).ab ++ ds' } := by
    rw [sentVia_via, hf.ab, sentVia_append, sentVia_of_le hf.le]
    exact ⟨hf.a, hf.b, List.rel_append (hnet.via side).ab hbecomes, hf.ba⟩
  have hback := hvia.via side
  rwa [via_via] at hback

/-- Behind a step that sends nothing there is nothing to do. -/
theorem masks_quiet (hab : u'.net.ab.length ≤ u.net.ab.length)
    (hba : u'.net.ba.length ≤ u.net.ba.length) (h : u'.net.Like n') :
    Masks (Transfer.sentVia rands u u') { u' with net := n' } := by
  refine ⟨rfl, ?_⟩
  show Net.Like { u'.net with
    ab := sentVia rands u.net.ab u'.net.ab
    ba := sentVia rands u.net.ba u'.net.ba } n'
  rw [sentVia_of_le hab, sentVia_of_le hba]
  exact h

theorem step_via (n : Net) (side : Side) (act : Act) :
    n.step (side, act) = ((n.via side).stepA act).map fun n => n.via side := by
  cases side with
  | A => exact Option.map_id'.symm
  | B => rfl

theorem step_hear (t : Transfer) (side : Side) (errno : Errno) :
    t.step (.hear side errno) = if (t.sock side).isClosing_ then none
      else t.onNet (((t.net.via side).hearA errno).map fun n => n.via side) := by
  cases side with
  | A =>
    show (if t.net.a.sock.isClosing_ then _ else t.onNet (t.net.hearA errno)) = _
    rw [← Option.map_id' (x := t.net.hearA errno)]
    rfl
  | B => rfl

theorem step_deaf (t : Transfer) (side : Side) (o : RecvFrom) :
    t.step (.deaf side o) = if (t.sock side).isClosing_ then
      t.onNet (((t.net.via side).deafA o).map fun n => n.via side) else none := by
  cases side with
  | A =>
    show (if t.net.a.sock.isClosing_ then t.onNet (t.net.deafA o) else none) = _
    rw [← Option.map_id' (x := t.net.deafA o)]
    rfl
  | B => rfl

theorem sock_via (t : Transfer) (side : Side) : t.sock side = (t.net.via side).a.sock := by
  cases side <;> rfl

/-- A step of one side is one of the other system, behind a cut. -/
theorem Follows.goes {act : TransferAct} (h : u.net.Like t.net)
    (hreach : Reach Transfer.step (fun _ _ => True) t { u' with net := n' })
    (hf : Follows (u.net.via side) (t.net.via side) (u'.net.via side) (n'.via side) ds)
    (hstep : u.step act = some u') (hok : shown u (act, rands)) :
    ∃ t', Reach Transfer.step (fun _ _ => True) t t' ∧
      Masks (Transfer.sentVia rands u u') t' := by
  obtain ⟨hab, hba⟩ := hok.2 u' hstep
  have hshown : Shown rands 0 ((u'.net.via side).ab.drop (u.net.via side).ab.length) := by
    cases side with
    | A => exact hab
    | B => exact hba
  obtain ⟨t', hrest, hmasks⟩ := hf.sent h hshown
  exact ⟨t', hreach.trans hrest, hmasks⟩

/-- A timer fires in both systems, or both lose a datagram. -/
theorem net_masked {act : Act} (h : u.net.Like n) (hcuts : (TransferAct.net side act).cuts = false)
    (hstep : u.step (.net side act) = some u') (hok : shown u (.net side act, rands)) :
    ∃ t', Reach Transfer.step (fun _ _ => True) { u with net := n } t' ∧
      Masks (Transfer.sentVia rands u u') t' := by
  have hs := hstep
  rw [Transfer.step, Option.ite_none_right_eq_some, Transfer.onNet, Option.map_eq_some_iff] at hs
  obtain ⟨hplain, un, hun, rfl⟩ := hs
  rw [step_via, Option.map_eq_some_iff] at hun
  obtain ⟨un, hun, rfl⟩ := hun
  have hplain' : Transfer.plain { u with net := n } side act = true := by
    have hsock : Transfer.sock { u with net := n } side = u.sock side := by
      rw [sock_via, sock_via, (h.via side).a.sock]
    rw [← hplain, Transfer.plain.eq_def, Transfer.plain.eq_def, hsock]
  have hgo : ∀ n', (n.via side).stepA act = some n' →
      Transfer.step { u with net := n } (.net side act) =
        some { u with net := n'.via side } := by
    intro n' hn
    rw [Transfer.step, if_pos hplain', Transfer.onNet, step_via, hn]
    rfl
  cases act with
  | call c => cases hplain
  | receive errno => cases hplain
  | cut i k => cases hcuts
  | timeout =>
    obtain ⟨n', ds, hn, hf⟩ := (h.via side).timer hun
    have hf' : Follows (u.net.via side) (n.via side) ((un.via side).via side)
        ((n'.via side).via side) ds := by simpa only [via_via] using hf
    exact hf'.goes h (reach_step trivial (hgo n' hn)) hstep hok
  | lose i =>
    have hlike := h.via side
    rw [Net.stepA, Option.ite_none_right_eq_some, Option.some.injEq] at hun
    obtain ⟨hi, rfl⟩ := hun
    have hi' : i < (n.via side).ab.length := by rw [hlike.ab.length_eq]; exact hi
    refine ⟨_, reach_step trivial (hgo { n.via side with ab := (n.via side).ab.eraseIdx i } ?_), ?_⟩
    · rw [Net.stepA, if_pos hi']
    · have hlost : Net.Like { u.net.via side with ab := (u.net.via side).ab.eraseIdx i }
          { n.via side with ab := (n.via side).ab.eraseIdx i } :=
        ⟨hlike.a, hlike.b, carries_lose hlike.ab i, hlike.ba⟩
      have hle := List.length_eraseIdx_le (u.net.via side).ab i
      refine masks_quiet ?_ ?_ (hlost.via side)
      · cases side with
        | A => exact hle
        | B => exact le_refl _
      · cases side with
        | A => exact le_refl _
        | B => exact hle

/-- The thread goes on behind its rcsRecv. -/
theorem write_masked {k : Nat} (h : u.net.Like n) (hstep : u.step (.write k) = some u')
    (hok : shown u (.write k, rands)) :
    ∃ t', Reach Transfer.step (fun _ _ => True) { u with net := n } t' ∧
      Masks (Transfer.sentVia rands u u') t' := by
  have hs := hstep
  rw [Transfer.step, Transfer.serviceWrite] at hs
  obtain ⟨ds, hf⟩ := (h.via .B).closes
  have hf' : Follows (u.net.via .B) (n.via .B) (u.net.swap.rcsCloseA.swap.via .B)
      (n.swap.rcsCloseA.swap.via .B) ds := hf
  split at hs
  next bytes hservice hp =>
    have hp' := h.b.pc.returned hp
    split_ifs at hs with hnil hall hfew
    · cases hs
      refine hf'.goes h (reach_step (a := .write k) trivial ?_) hstep hok
      simp only [Transfer.step, Transfer.serviceWrite, hservice, hp', if_pos hnil]
    · cases hs
      refine ⟨_, reach_step (a := .write k) trivial ?_, masks_quiet (le_refl _) (le_refl _) h⟩
      simp only [Transfer.step, Transfer.serviceWrite, hservice, hp', if_neg hnil, if_pos hall]
    · cases hs
      refine hf'.goes h (reach_step (a := .write k) trivial ?_) hstep hok
      simp only [Transfer.step, Transfer.serviceWrite, hservice, hp', if_neg hnil, if_neg hall,
        if_pos hfew]
  · cases hs

/-- Every step is matched. -/
theorem masks_step {act : TransferAct} (h : u.net.Like n) (hcuts : act.cuts = false)
    (hstep : u.step act = some u') (hok : shown u (act, rands)) :
    ∃ t', Reach Transfer.step (fun _ _ => True) { u with net := n } t' ∧
      Masks (Transfer.sentVia rands u u') t' := by
  have hs := hstep
  cases act with
  | read k =>
    rw [Transfer.step, Transfer.clientRead, Option.ite_none_right_eq_some, Transfer.onNet,
      Option.map_eq_some_iff] at hs
    obtain ⟨⟨hmain, hidle, hk⟩, un, hun, rfl⟩ := hs
    obtain ⟨n', ds, hn, hf⟩ := h.calls hun
    have hf' : Follows (u.net.via .A) (n.via .A) (un.via .A) (n'.via .A) ds := hf
    refine hf'.goes h (reach_step (a := .read k) trivial ?_) hstep hok
    rw [Transfer.step, Transfer.clientRead, if_pos ⟨hmain, h.a.pc.idle.trans hidle, hk⟩]
    show Transfer.onNet { u with net := n, input := u.input.drop k }
      (n.stepA (.call (.send (u.input.take k)))) = _
    rw [hn]
    rfl
  | readEnds =>
    rw [Transfer.step, Option.ite_none_right_eq_some, Option.some.injEq] at hs
    obtain ⟨⟨hmain, hidle⟩, rfl⟩ := hs
    obtain ⟨ds, hf⟩ := h.closes
    have hf' : Follows (u.net.via .A) (n.via .A) (u.net.rcsCloseA.via .A) (n.rcsCloseA.via .A) ds :=
      hf
    refine hf'.goes h (reach_step (a := .readEnds) trivial ?_) hstep hok
    rw [Transfer.step, if_pos ⟨hmain, h.a.pc.idle.trans hidle⟩]
  | rcsRecv =>
    rw [Transfer.step, Option.ite_none_right_eq_some, Transfer.onNet, Option.map_eq_some_iff,
      step_via] at hs
    obtain ⟨hs, un, hun, rfl⟩ := hs
    rw [Option.map_eq_some_iff] at hun
    obtain ⟨un, hun, rfl⟩ := hun
    obtain ⟨n', ds, hn, hf⟩ := (h.via .B).calls hun
    have hf' : Follows (u.net.via .B) (n.via .B) ((un.via .B).via .B) ((n'.via .B).via .B) ds := by
      simpa only [via_via] using hf
    refine hf'.goes h (reach_step (a := .rcsRecv) trivial ?_) hstep hok
    rw [Transfer.step, if_pos hs]
    show Transfer.onNet { u with net := n, service := .rcsRecv } (n.step _) = _
    rw [step_via, hn]
    rfl
  | write k => exact write_masked h hstep hok
  | net side act => exact net_masked h hcuts hstep hok
  | hear side errno =>
    rw [step_hear, Transfer.onNet, Option.ite_none_left_eq_some, Option.map_eq_some_iff] at hs
    obtain ⟨hopen, un, hun, rfl⟩ := hs
    rw [Option.map_eq_some_iff] at hun
    obtain ⟨un, hun, rfl⟩ := hun
    obtain ⟨d, rest, k, errno', n', ds, hba, hk, hn, hf⟩ := (h.via side).hears hun
    have hf' : Follows (u.net.via side) (n.via side) ((un.via side).via side)
        ((n'.via side).via side) ds := by simpa only [via_via] using hf
    have hcut := cuts_oldest (t := { u with net := n }) hba hk
    refine hf'.goes h (hcut.tail ⟨.hear side errno', trivial, ?_⟩) hstep hok
    rw [step_hear, sock_via, via_via]
    show (if (n.via side).a.sock.isClosing_ = true then none else _) = _
    rw [← (h.via side).a.sock, ← sock_via, if_neg hopen, hn]
    rfl
  | deaf side o =>
    rw [step_deaf, Transfer.onNet, Option.ite_none_right_eq_some, Option.map_eq_some_iff] at hs
    obtain ⟨hclosing, un, hun, rfl⟩ := hs
    rw [Option.map_eq_some_iff] at hun
    obtain ⟨un, hun, rfl⟩ := hun
    obtain ⟨n', hn, hf⟩ := (h.via side).deaf hun
    have hf' : Follows (u.net.via side) (n.via side) ((un.via side).via side)
        ((n'.via side).via side) [] := by simpa only [via_via] using hf
    refine hf'.goes h (reach_step (a := .deaf side o) trivial ?_) hstep hok
    rw [step_deaf, sock_via]
    show (if (n.via side).a.sock.isClosing_ = true then _ else none) = _
    rw [← (h.via side).a.sock, ← sock_via, if_pos hclosing, hn]
    rfl

end Masks

/-! ## 6. The result -/

/-- Every run over ucpSendTo shows what some run of `Transfer` shows. -/
theorem over_ucp {n0 : Net} {stdin : List UInt8} {u : Transfer} (h0 : Connected n0)
    (h : Reach Transfer.ucpStep shown (.init n0 stdin) u) :
    ∃ t, (Running stdin t ∨ Finished stdin t) ∧ Masks u t := by
  have hinit : Masks (.init n0 stdin) (.init n0 stdin) := by
    refine ⟨rfl, ⟨rfl, rfl, .same _⟩, ⟨rfl, rfl, .same _⟩, ?_, ?_⟩
    · show List.Forall₂ Becomes n0.ab n0.ab
      rw [h0.ab]
      exact .nil
    · show List.Forall₂ Becomes n0.ba n0.ba
      rw [h0.ba]
      exact .nil
  obtain ⟨t, hreach, hmasks⟩ := h.simulates hinit fun u act u2 t hm hok hs => by
    obtain ⟨act, rands⟩ := act
    obtain ⟨u', hstep, rfl⟩ := Option.map_eq_some_iff.mp hs
    rw [hm.same]
    exact masks_step hm.net hok.1 hstep hok
  exact ⟨t, running_or_finished h0 hreach, hmasks⟩

theorem Masks.delivered {stdin : List UInt8} {u t : Transfer} (h : Masks u t)
    (ht : Running stdin t ∨ Finished stdin t) :
    u.file <+: stdin ∧ (u.service = .quit → u.main = .closed ∧ u.file ++ u.input = stdin) := by
  have hresult := file_delivered ht
  rw [h.same] at hresult
  exact hresult

/-- The same two programs whose datagrams go through ucpSendTo: the file of the server is the start
    of the client's stdin, and all that the client has read when rcsRecv has returned 0 and the
    thread with it; unless something that was written over passes the test. -/
theorem delivers_over_ucp {n0 : Net} {stdin : List UInt8} {u : Transfer} (h0 : Connected n0)
    (h : Reach Transfer.ucpStep shown (.init n0 stdin) u) :
    u.file <+: stdin ∧ (u.service = .quit → u.main = .closed ∧ u.file ++ u.input = stdin) := by
  obtain ⟨t, ht, hmasks⟩ := over_ucp h0 h
  exact hmasks.delivered ht

/-- What the calls of ucpSendTo draw: nothing evil, and each of the three kinds. -/
def noEvil : Nat → Nat → UInt32 := fun _ _ => 99

def evil (kind : UInt32) : Nat → Nat → UInt32 := fun _ i => if i = 1 then kind else 0

/-- The file of one byte again: its first fragment is written over and then cut, and two answers are
    not sent. -/
def evilFile : List (TransferAct × (Nat → Nat → UInt32)) :=
  [(.read 1, evil 1), (.rcsRecv, noEvil), (.hear .B .EAGAIN, evil 2),
    (.net .A .timeout, evil 0), (.hear .B (.other 4), evil 2), (.net .A .timeout, noEvil)] ++
  [.hear .B .EAGAIN, .hear .A .EAGAIN, .hear .B .EAGAIN, .hear .A .EAGAIN, .net .B .timeout,
    .write 1, .rcsRecv, .readEnds, .hear .B .EAGAIN, .write 0].map fun act => (act, noEvil)

theorem delivers_over_ucp_oneByte : ∃ u,
    Reach Transfer.ucpStep shown (.init Net.pair [97]) u ∧ u.service = .quit ∧
      u.file = [97] ∧ u.file <+: [97] ∧ u.main = .closed ∧ u.file ++ u.input = [97] := by
  have hrun : ((exec Transfer.ucpStep shown (.init Net.pair [97]) evilFile).map
      fun u => (u.service, u.file)) = some (.quit, [97]) := by
    decide +kernel
  obtain ⟨u, hu, hres⟩ := Option.map_eq_some_iff.mp hrun
  have hreach := reach_of_exec hu
  obtain ⟨hpre, hall⟩ := delivers_over_ucp connected_pair hreach
  have hquit := congrArg Prod.fst hres
  exact ⟨u, hreach, hquit, congrArg Prod.snd hres, hpre, hall hquit⟩

end Ece358.Rcs
