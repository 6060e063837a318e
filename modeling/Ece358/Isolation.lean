/-
  File:      Ece358/Isolation.lean
  Subject:   What datagrams from third parties do to a connected socket.

  `rawrecv` notes the source of a datagram in `fromEndpoint_`, and nothing of send and recv looks at
  it: a datagram counts by its bytes, whoever sent it. So a third party is kept out by the tests
  that the bytes must pass, and by nothing else.

  * `Arrival`, `Endpoint.hears` -- one endpoint and what comes to it; foreign datagrams apart;
  * `Refuses` -- the tests, for each place where a call can be blocked;
  * `Alike` -- the same endpoint, but for the last source seen and the datagrams sent;
  * `resume_heard`, `refused` -- the two steps: own arrivals keep endpoints alike, and a foreign
    datagram that is refused leaves no other trace;
  * `isolation` -- the result; `intruded` -- third parties whose datagrams pass the tests.
-/
import Ece358.Net

namespace Ece358.Rcs

open Lib MsgT

/-! ## 1. One endpoint -/

/-- What comes to an endpoint: a call of its user, the outcome of its receive, or a datagram from
    elsewhere. -/
inductive Arrival where
  | call (c : Call)
  | outcome (o : RecvFrom)
  | foreign (errno : Errno) (bytes : List UInt8) (src : SockaddrIn)
  deriving DecidableEq

def Arrival.own : Arrival → Bool
  | .foreign _ _ _ => false
  | _ => true

def Endpoint.hears (e : Endpoint) : Arrival → Option Endpoint
  | .call c => if e.pc.idle then some (e.went [.called c] (start e.sock c)) else none
  | .outcome o => if e.pc.idle = false then some (e.went [] (resume e.sock e.pc o)) else none
  | .foreign errno bytes src =>
    if e.pc.idle = false then some (e.went [] (resume e.sock e.pc (.datagram errno bytes src)))
    else none

/-- The tests that a datagram fails, where the call is blocked: it does not have the awaited number
    and is no FIN; for recv, it is no EOS marker either; and it does not end finalizeRecv. -/
def Refuses (s : RcsT) (errno : Errno) (d : List UInt8) : Pc → Prop
  | .sendFragment _ _ msg =>
    accepted d = true → (ofDatagram d).seqnum ≠ msg.seqnum ∧ (ofDatagram d).hasFlag FIN = false
  | .sendEos _ msg =>
    accepted d = true → (ofDatagram d).seqnum ≠ msg.seqnum ∧ (ofDatagram d).hasFlag FIN = false
  | .recvLoop _ =>
    accepted d = true → (ofDatagram d).seqnum ≠ s.recvSeqnum_ ∧
      (ofDatagram d).hasFlag EOS = false ∧ (ofDatagram d).hasFlag FIN = false
  | .finalizeRecv _ _ _ =>
    (accepted d = true → (ofDatagram d).hasFlag FIN = false) ∧
      (d ≠ [] → RcsT.startsNext (ofDatagram d) = false) ∧ ¬ (d = [] ∧ errno = .EAGAIN)
  | .returned _ => True

/-- Datagrams from elsewhere come to a socket that is not closing, and are refused. -/
def thirdParty (e : Endpoint) : Arrival → Prop
  | .foreign errno d src =>
    src ≠ e.sock.endPoint_ ∧ e.sock.isClosing_ = false ∧ Refuses e.sock errno d e.pc
  | _ => True

instance (s : RcsT) (errno : Errno) (d : List UInt8) : DecidablePred (Refuses s errno d)
  | .sendFragment _ _ _ => inferInstanceAs (Decidable (_ → _))
  | .sendEos _ _ => inferInstanceAs (Decidable (_ → _))
  | .recvLoop _ => inferInstanceAs (Decidable (_ → _))
  | .finalizeRecv _ _ _ => inferInstanceAs (Decidable (_ ∧ _ ∧ _))
  | .returned _ => isTrue trivial

instance (e : Endpoint) : DecidablePred (thirdParty e)
  | .foreign _ _ _ => inferInstanceAs (Decidable (_ ∧ _ ∧ _))
  | .call _ => isTrue trivial
  | .outcome _ => isTrue trivial

/-! ## 2. Endpoints that differ in the last source only -/

/-- The same object after a datagram from `src`. -/
def heard (s : RcsT) (src : SockaddrIn) : RcsT := { s with fromEndpoint_ := src }

/-- The same stretch of a call, on such an object. -/
def Res.heard (r : Res) (src : SockaddrIn) : Res := { r with sock := Rcs.heard r.sock src }

section Heard

variable (s : RcsT) (a : SockaddrIn) (L : Nat)

theorem sendLoop_heard (data : List UInt8) (k : Nat) :
    RcsT.sendLoop (heard s a) data k = (RcsT.sendLoop s data k).heard a := by
  unfold RcsT.sendLoop heard
  split_ifs <;> rfl

theorem recvAgain_heard : (heard s a).recvAgain L = (s.recvAgain L).heard a := by
  unfold RcsT.recvAgain RcsT.recvReturn heard
  split_ifs <;> rfl

theorem recvWhile_heard : (heard s a).recvWhile L = (s.recvWhile L).heard a := by
  unfold RcsT.recvWhile
  show (if s.isClosing_ then (heard s a).recvAgain L else _) = _
  rw [recvAgain_heard]
  split_ifs <;> rfl

theorem finalizeEnd_heard : (heard s a).finalizeEnd L = (s.finalizeEnd L).heard a :=
  congrArg (Res.after _) (recvAgain_heard (s.setTimeout RECV_TIMEOUT).1 a L)

theorem start_heard (c : Call) : start (heard s a) c = (start s c).heard a := by
  cases c with
  | send data => exact sendLoop_heard { s with sendSeqnum_ := 0 } a data 0
  | recv L => exact recvWhile_heard { s with recvSeqnum_ := 0 } a L

/-- A datagram is processed alike, whoever was heard before. -/
theorem resume_heard_datagram (pc : Pc) (e : Errno) (d : List UInt8) (src : SockaddrIn) :
    resume (heard s a) pc (.datagram e d src) =
      match pc with
      | .returned ret => ⟨heard s a, [], .returned ret⟩
      | pc => resume s pc (.datagram e d src) := by
  cases pc <;> rfl

/-- The end of the body of the inner loop. -/
theorem bodyEnd_heard (eos : Bool) (ack : MsgT) (out : List Event) :
    (if eos then ((heard s a).finalizeStart L ack).after out
      else ((heard s a).recvWhile L).after out) =
    (if eos then (s.finalizeStart L ack).after out else (s.recvWhile L).after out).heard a := by
  cases eos with
  | true => rfl
  | false => exact congrArg (Res.after out) (recvWhile_heard s a L)

theorem recvBody_heard (response : MsgT) (ok : Bool) :
    (heard s a).recvBody L response ok = (s.recvBody L response ok).heard a := by
  unfold RcsT.recvBody
  cases hi : ok && response.seqnum == s.recvSeqnum_ with
  | true =>
    simp only [show (ok && response.seqnum == (heard s a).recvSeqnum_) = true from hi, if_true]
    exact bodyEnd_heard (queue s response) a L _ _ _
  | false =>
    simp only [show (ok && response.seqnum == (heard s a).recvSeqnum_) = false from hi,
      Bool.false_eq_true, if_false]
    exact bodyEnd_heard s a L _ _ _

variable {s}

theorem rawrecv_error_connected (h : s.hasEndpoint_ = true) (e : Errno) :
    s.rawrecv (.error e) = ⟨s, [], RcsT.errnoResult e, none⟩ := by
  simp [RcsT.rawrecv, h]

/-- An acksend that receives nothing sends its message again, unless the socket is closing. -/
theorem acksend_error (h : s.hasEndpoint_ = true) (msg : MsgT) (e : Errno) :
    s.acksend msg (.error e) =
      if s.isClosing_ then (s, [], true) else (s, [s.rawsend msg], false) := by
  simp only [RcsT.acksend, RcsT.lowrecv, rawrecv_error_connected h, Option.getD_none, RcsT.isValid,
    default_valid]
  rfl

theorem acksend_heard_error (h : s.hasEndpoint_ = true) (msg : MsgT) (e : Errno) :
    (heard s a).acksend msg (.error e) =
      (heard (s.acksend msg (.error e)).1 a, (s.acksend msg (.error e)).2) := by
  rw [acksend_error h, acksend_error (show (heard s a).hasEndpoint_ = true from h)]
  cases hc : s.isClosing_ with
  | true => rw [if_pos (show (heard s a).isClosing_ = true from hc)]; rfl
  | false => rw [if_neg (by simp [heard, hc])]; rfl

theorem recvPass_error (h : s.hasEndpoint_ = true) (e : Errno) :
    s.recvPass L (.error e) =
      if RcsT.errnoResult e = 0 then s.recvWhile L else s.recvBody L default false := by
  simp only [RcsT.recvPass, rawrecv_error_connected h, Option.getD_none, RcsT.isValid,
    default_valid]
  rfl

theorem finalizePass_error (h : s.hasEndpoint_ = true) (ack response : MsgT) (e : Errno) :
    s.finalizePass L ack response (.error e) =
      if RcsT.errnoResult e = 0 then s.finalizeEnd L
      else if RcsT.startsNext response then s.finalizeEnd L
      else ⟨s, [s.rawsend ack], .finalizeRecv L ack response⟩ := by
  simp only [RcsT.finalizePass, rawrecv_error_connected h, Option.getD_none]
  rfl

/-- So is a receive without a datagram. -/
theorem resume_heard_error (h : s.hasEndpoint_ = true) (pc : Pc) (e : Errno) :
    resume (heard s a) pc (.error e) = (resume s pc (.error e)).heard a := by
  have hh : (heard s a).hasEndpoint_ = true := h
  cases pc with
  | sendFragment data k msg =>
    simp only [resume, acksend_heard_error a h]
    obtain ⟨s', out, leave⟩ := s.acksend msg (.error e)
    cases leave with
    | true => exact congrArg (Res.after out) (sendLoop_heard (nextFragment s') a data _)
    | false => rfl
  | sendEos data msg =>
    simp only [resume, acksend_heard_error a h]
    obtain ⟨s', out, leave⟩ := s.acksend msg (.error e)
    cases leave <;> rfl
  | recvLoop L =>
    show (heard s a).recvPass L _ = (s.recvPass L _).heard a
    rw [recvPass_error L h, recvPass_error L hh, recvWhile_heard, recvBody_heard]
    split_ifs <;> rfl
  | finalizeRecv L ack response =>
    show (heard s a).finalizePass L ack response _ = (s.finalizePass L ack response _).heard a
    rw [finalizePass_error L h, finalizePass_error L hh, finalizeEnd_heard]
    split_ifs <;> rfl
  | returned ret => rfl

end Heard

/-! ## 3. What a stretch leaves -/

/-- A call in finalizeRecv has not seen the start of a next message. -/
def Pc.quiet : Pc → Bool
  | .finalizeRecv _ _ response => !RcsT.startsNext response
  | _ => true

/-- A stretch leaves a connected socket, and a call that is quiet. -/
structure Calm (r : Res) : Prop where
  connected : r.sock.hasEndpoint_ = true
  quiet : r.pc.quiet = true

section Calm

variable {s : RcsT} {L : Nat}

theorem Calm.after {r : Res} (h : Calm r) (out : List Event) : Calm (r.after out) :=
  ⟨h.connected, h.quiet⟩

theorem calm_sendLoop (h : s.hasEndpoint_ = true) (data : List UInt8) (k : Nat) :
    Calm (RcsT.sendLoop s data k) := by
  unfold RcsT.sendLoop
  split_ifs <;> exact ⟨h, rfl⟩

theorem calm_recvAgain (h : s.hasEndpoint_ = true) (L : Nat) : Calm (s.recvAgain L) := by
  unfold RcsT.recvAgain RcsT.recvReturn
  split_ifs <;> exact ⟨h, rfl⟩

theorem calm_recvWhile (h : s.hasEndpoint_ = true) (L : Nat) : Calm (s.recvWhile L) := by
  unfold RcsT.recvWhile
  split_ifs
  · exact calm_recvAgain h L
  · exact ⟨h, rfl⟩

theorem calm_finalizeEnd (h : s.hasEndpoint_ = true) (L : Nat) : Calm (s.finalizeEnd L) := by
  unfold RcsT.finalizeEnd
  exact (calm_recvAgain (show (s.setTimeout RECV_TIMEOUT).1.hasEndpoint_ = true from h) L).after _

theorem calm_recvBody (h : s.hasEndpoint_ = true) (L : Nat) (response : MsgT) (ok : Bool) :
    Calm (s.recvBody L response ok) := by
  have hq : (queue s response).hasEndpoint_ = true := h
  unfold RcsT.recvBody
  cases ok && response.seqnum == s.recvSeqnum_ <;> cases ok && response.hasFlag EOS
  · exact (calm_recvWhile h L).after _
  · exact ⟨h, rfl⟩
  · exact (calm_recvWhile hq L).after _
  · exact ⟨h, rfl⟩

theorem calm_start (h : s.hasEndpoint_ = true) (c : Call) : Calm (start s c) := by
  cases c with
  | send data => exact calm_sendLoop (show (sendStarted s).hasEndpoint_ = true from h) data 0
  | recv L =>
    exact calm_recvWhile (show ({ s with recvSeqnum_ := 0 } : RcsT).hasEndpoint_ = true from h) L

/-- A socket stays connected through a receive. -/
theorem connected_rawrecv (h : s.hasEndpoint_ = true) (o : RecvFrom) :
    (s.rawrecv o).sock.hasEndpoint_ = true := by
  cases o <;> simp only [RcsT.rawrecv, RcsT.setEndpoint, RcsT.close] <;> split_ifs <;>
    first | rfl | exact h

theorem connected_acksend (h : s.hasEndpoint_ = true) (msg : MsgT) (o : RecvFrom) :
    (s.acksend msg o).1.hasEndpoint_ = true := by
  show (ite _ _ _ : RcsT × List Event × Bool).1.hasEndpoint_ = _
  split
  · exact connected_rawrecv h o
  · split <;> exact connected_rawrecv h o

theorem calm_resume (h : s.hasEndpoint_ = true) {pc : Pc} (hq : pc.quiet = true) (o : RecvFrom) :
    Calm (resume s pc o) := by
  have hr := connected_rawrecv h o
  cases pc with
  | sendFragment data k msg =>
    have ha := connected_acksend h msg o
    simp only [resume]
    split
    · exact (calm_sendLoop (show (nextFragment _).hasEndpoint_ = true from ha) _ _).after _
    · exact ⟨ha, rfl⟩
  | sendEos data msg =>
    have ha := connected_acksend h msg o
    simp only [resume]
    split <;> exact ⟨ha, rfl⟩
  | recvLoop L =>
    simp only [resume, RcsT.recvPass]
    split
    · exact (calm_recvWhile hr L).after _
    · exact (calm_recvBody hr L _ _).after _
  | finalizeRecv L ack response =>
    simp only [resume, RcsT.finalizePass]
    split
    · exact (calm_finalizeEnd hr L).after _
    · split
      next => exact (calm_finalizeEnd hr L).after _
      next hs => exact ⟨hr, by simpa [Pc.quiet] using hs⟩
  | returned ret => exact ⟨h, hq⟩

end Calm

/-! ## 4. Endpoints that are alike -/

/-- The record without the datagrams sent. -/
def unsent (record : List Entry) : List Entry :=
  record.filter fun
    | .did (.sendto _ _ _) => false
    | _ => true

@[simp] theorem unsent_append (r r' : List Entry) : unsent (r ++ r') = unsent r ++ unsent r' :=
  List.filter_append ..

/-- The same place in the same call, but for the last datagram seen in finalizeRecv. -/
inductive AlikePc : Pc → Pc → Prop where
  | same (pc : Pc) : AlikePc pc pc
  | finalizing (L : Nat) (ack response response' : MsgT) :
      AlikePc (.finalizeRecv L ack response) (.finalizeRecv L ack response')

/-- Two endpoints that agree in all but the last source seen, the last datagram seen in
    finalizeRecv, and the datagrams sent. -/
structure Alike (e t : Endpoint) : Prop where
  connected : e.sock.hasEndpoint_ = true
  quiet : e.pc.quiet = true
  quiet' : t.pc.quiet = true
  sock : ∃ a, t.sock = heard e.sock a
  pc : AlikePc e.pc t.pc
  record : unsent e.record = unsent t.record

section Alike

variable {s : RcsT} {e e' t : Endpoint} {pc pc' : Pc} {a : SockaddrIn}

theorem AlikePc.idle_eq (h : AlikePc pc pc') : pc.idle = pc'.idle := by
  cases h <;> rfl

theorem AlikePc.trans {pc'' : Pc} (h : AlikePc pc pc') (h' : AlikePc pc' pc'') :
    AlikePc pc pc'' := by
  cases h with
  | same => exact h'
  | finalizing L ack response response' =>
    cases h' with
    | same => exact .finalizing L ack response response'
    | finalizing _ _ _ response'' => exact .finalizing L ack response response''

/-- Two stretches with the same trace. -/
structure AlikeRes (r q : Res) : Prop where
  sock : ∃ a, q.sock = heard r.sock a
  out : q.out = r.out
  pc : AlikePc r.pc q.pc

theorem alikeRes_refl (r : Res) : AlikeRes r r := ⟨⟨r.sock.fromEndpoint_, rfl⟩, rfl, .same _⟩

theorem alikeRes_heard (r : Res) (a : SockaddrIn) : AlikeRes r (r.heard a) :=
  ⟨⟨a, rfl⟩, rfl, .same _⟩

theorem AlikeRes.entries {r q : Res} (h : AlikeRes r q) : q.entries = r.entries := by
  obtain ⟨_, hout, hpc⟩ := h
  unfold Res.entries
  rw [hout]
  cases r with
  | mk _ _ p =>
    cases q with
    | mk _ _ p' => cases hpc <;> rfl

/-- The last datagram seen in finalizeRecv does not matter while none started a next message. -/
theorem finalizePass_alike (L : Nat) (ack : MsgT) {response response' : MsgT}
    (h : RcsT.startsNext response = false) (h' : RcsT.startsNext response' = false)
    (o : RecvFrom) :
    AlikeRes (s.finalizePass L ack response o) (s.finalizePass L ack response' o) := by
  unfold RcsT.finalizePass
  obtain ⟨s', out, bytes, msg⟩ := s.rawrecv o
  cases msg with
  | some m => exact alikeRes_refl _
  | none =>
    simp only [Option.getD_none, h, h', Bool.false_eq_true, if_false]
    split
    · exact alikeRes_refl _
    · exact ⟨⟨s'.fromEndpoint_, rfl⟩, rfl, .finalizing L ack response response'⟩

/-- The outcome of a receive leads on in the same way. -/
theorem resume_alike (hc : s.hasEndpoint_ = true) (h : AlikePc pc pc') (hq : pc.quiet = true)
    (hq' : pc'.quiet = true) (hp : pc.idle = false) (o : RecvFrom) :
    AlikeRes (resume s pc o) (resume (heard s a) pc' o) := by
  -- the source heard before
  have hheard : AlikeRes (resume s pc' o) (resume (heard s a) pc' o) := by
    cases o with
    | error e =>
      rw [resume_heard_error a hc]
      exact alikeRes_heard _ a
    | datagram e d src =>
      have hp' : pc'.idle = false := h.idle_eq ▸ hp
      rw [resume_heard_datagram]
      cases pc' <;> first | exact alikeRes_refl _ | cases hp'
  cases h with
  | same => exact hheard
  | finalizing L ack response response' =>
    -- the datagram seen before
    have hs : RcsT.startsNext response = false := by simpa [Pc.quiet] using hq
    have hs' : RcsT.startsNext response' = false := by simpa [Pc.quiet] using hq'
    have hpass : AlikeRes (resume s (.finalizeRecv L ack response) o)
        (resume s (.finalizeRecv L ack response') o) := finalizePass_alike L ack hs hs' o
    obtain ⟨⟨b, hb⟩, hout, hpc⟩ := hheard
    obtain ⟨⟨b', hb'⟩, hout', hpc'⟩ := hpass
    refine ⟨⟨b, ?_⟩, hout.trans hout', ?_⟩
    · rw [hb, hb']
      rfl
    · exact hpc'.trans hpc

/-- A call of the user keeps endpoints alike. -/
theorem Alike.call (h : Alike e t) (c : Call) (hs : e.hears (.call c) = some e') :
    ∃ t', t.hears (.call c) = some t' ∧ Alike e' t' := by
  obtain ⟨a, ha⟩ := h.sock
  simp only [Endpoint.hears, Option.ite_none_right_eq_some, Option.some.injEq] at hs
  obtain ⟨hp, rfl⟩ := hs
  have hcalm := calm_start h.connected c
  have hres : start t.sock c = (start e.sock c).heard a := by rw [ha, start_heard]
  refine ⟨_, if_pos (h.pc.idle_eq ▸ hp), ?_⟩
  rw [hres]
  exact
    { connected := hcalm.connected
      quiet := hcalm.quiet
      quiet' := hcalm.quiet
      sock := ⟨a, rfl⟩
      pc := .same _
      record := by
        simp only [went_record, unsent_append, h.record]
        rfl }

/-- The outcome of a receive keeps endpoints alike. -/
theorem Alike.outcome (h : Alike e t) (o : RecvFrom) (hs : e.hears (.outcome o) = some e') :
    ∃ t', t.hears (.outcome o) = some t' ∧ Alike e' t' := by
  obtain ⟨a, ha⟩ := h.sock
  simp only [Endpoint.hears, Option.ite_none_right_eq_some, Option.some.injEq] at hs
  obtain ⟨hp, rfl⟩ := hs
  have hres : AlikeRes (resume e.sock e.pc o) (resume t.sock t.pc o) :=
    ha ▸ resume_alike h.connected h.pc h.quiet h.quiet' hp o
  have hcalm := calm_resume h.connected h.quiet o
  have hcalm' := calm_resume (s := t.sock) (ha ▸ h.connected) h.quiet' o
  refine ⟨_, if_pos (h.pc.idle_eq ▸ hp), ?_⟩
  exact
    { connected := hcalm.connected
      quiet := hcalm.quiet
      quiet' := hcalm'.quiet
      sock := hres.sock
      pc := hres.pc
      record := by simp only [went_record, unsent_append, h.record, hres.entries] }

/-! ### Datagrams that are refused -/

/-- What a refused datagram leaves behind: its source, and a datagram in answer to it. -/
structure Ignored (s : RcsT) (pc : Pc) (src : SockaddrIn) (r : Res) : Prop where
  sock : r.sock = heard s src
  out : r.out = [] ∨ ∃ m, r.out = [s.rawsend m]
  pc : AlikePc r.pc pc
  notReturned : r.pc.idle = false

theorem acksend_refused {d : List UInt8} {msg : MsgT} (h : Open s) (hr : accepted d = true →
    (ofDatagram d).seqnum ≠ msg.seqnum ∧ (ofDatagram d).hasFlag FIN = false) (errno : Errno)
    (src : SockaddrIn) :
    s.acksend msg (.datagram errno d src) = (heard s src, [s.rawsend msg], false) := by
  by_cases hne : d = []
  · subst hne
    exact acksend_empty h msg
  · rw [acksend_received h msg (fun ha => (hr ha).2) hne]
    exact if_neg fun hw => (hr hw.1).1 hw.2

/-- A refused datagram is ignored. -/
theorem refused {d : List UInt8} {errno : Errno} (h : Open s) (hq : pc.quiet = true)
    (hp : pc.idle = false) (hr : Refuses s errno d pc) (src : SockaddrIn) :
    Ignored s pc src (resume s pc (.datagram errno d src)) := by
  cases pc with
  | sendFragment data k msg =>
    simp only [resume, acksend_refused h hr errno src]
    exact ⟨rfl, Or.inr ⟨msg, rfl⟩, .same _, rfl⟩
  | sendEos data msg =>
    simp only [resume, acksend_refused h hr errno src]
    exact ⟨rfl, Or.inr ⟨msg, rfl⟩, .same _, rfl⟩
  | recvLoop L =>
    show Ignored s _ src (s.recvPass L _)
    by_cases he : d = [] ∧ errno = .EAGAIN
    · obtain ⟨rfl, rfl⟩ := he
      rw [recvPass_empty h]
      exact ⟨rfl, Or.inl rfl, .same _, rfl⟩
    · have hne : d ≠ [] ∨ errno ≠ .EAGAIN := by
        by_cases hd : d = []
        · exact Or.inr fun h => he ⟨hd, h⟩
        · exact Or.inl hd
      rw [recvPass_received h (fun ha => (hr ha).2.2) hne]
      cases ha : accepted d with
      | false =>
        rw [recvBody_invalid (h.from src)]
        exact ⟨rfl, Or.inr ⟨_, rfl⟩, .same _, rfl⟩
      | true =>
        obtain ⟨hs, heos, _⟩ := hr ha
        rw [recvBody_accepted (h.from src), if_neg hs, if_neg (by simp [heos])]
        exact ⟨rfl, Or.inr ⟨_, rfl⟩, .same _, rfl⟩
  | finalizeRecv L ack response =>
    obtain ⟨hfin, hstart, hno⟩ := hr
    have hs : RcsT.startsNext response = false := by simpa [Pc.quiet] using hq
    rcases finalize_cases h hfin hs L ack errno src with ⟨hend, _⟩ | ⟨_, _, response', _, hres⟩
    · rcases hend with he | ⟨hne, he⟩
      · exact absurd he hno
      · rw [hstart hne] at he
        cases he
    · rw [hres]
      exact ⟨rfl, Or.inr ⟨_, rfl⟩, .finalizing L ack response' response, rfl⟩
  | returned ret => cases hp

theorem Ignored.unsent {src : SockaddrIn} {r : Res} (h : Ignored s pc src r) :
    unsent r.entries = [] := by
  rw [entries_of_blocked h.notReturned]
  rcases h.out with ho | ⟨m, ho⟩ <;> rw [ho] <;> rfl

/-- A refused datagram from elsewhere leaves endpoints alike. -/
theorem Alike.foreign (h : Alike e t) {errno : Errno} {d : List UInt8} {src : SockaddrIn}
    (hok : thirdParty e (.foreign errno d src)) (hs : e.hears (.foreign errno d src) = some e') :
    Alike e' t := by
  obtain ⟨_, hopen, hr⟩ := hok
  obtain ⟨a, ha⟩ := h.sock
  simp only [Endpoint.hears, Option.ite_none_right_eq_some, Option.some.injEq] at hs
  obtain ⟨hp, rfl⟩ := hs
  have hig := refused ⟨hopen, h.connected⟩ h.quiet hp hr src
  have hcalm := calm_resume h.connected h.quiet (.datagram errno d src)
  exact
    { connected := hcalm.connected
      quiet := hcalm.quiet
      quiet' := h.quiet'
      sock := ⟨a, by rw [went_sock, hig.sock, ha]; rfl⟩
      pc := hig.pc.trans h.pc
      record := by simp [hig.unsent, h.record] }

end Alike

/-! ## 5. The result -/

/-- In any two runs of a connected socket that differ only in datagrams from elsewhere, each of
    which is refused where it arrives: the calls return the same results, and the numbers, the
    buffer and the closing flag are the same. -/
theorem isolation {e e1 : Endpoint} {as : List Arrival} (hc : e.sock.hasEndpoint_ = true)
    (hp : e.pc.idle = true) (h : Run Endpoint.hears thirdParty e as e1) :
    (∃ e2, Run Endpoint.hears (fun _ _ => True) e (as.filter Arrival.own) e2) ∧
    ∀ e2, Run Endpoint.hears (fun _ _ => True) e (as.filter Arrival.own) e2 →
      unsent e1.record = unsent e2.record ∧ e1.sock.sendSeqnum_ = e2.sock.sendSeqnum_ ∧
      e1.sock.recvSeqnum_ = e2.sock.recvSeqnum_ ∧ e1.sock.buffer_ = e2.sock.buffer_ ∧
      e1.sock.isClosing_ = e2.sock.isClosing_ := by
  have hq : e.pc.quiet = true := by
    cases hpc : e.pc <;> first | rfl | (rw [hpc] at hp; cases hp)
  have hstart : Alike e e := ⟨hc, hq, hq, ⟨e.sock.fromEndpoint_, rfl⟩, .same _, rfl⟩
  have hpurge : ∃ e2, Run Endpoint.hears (fun _ _ => True) e (as.filter Arrival.own) e2 ∧
      Alike e1 e2 := by
    refine h.purge (fun s t a s' hR hok hk hf => ?_) (fun s t a s' hR _ hk hf => ?_) hstart
    · cases a with
      | foreign errno d src => exact hR.foreign hok hf
      | _ => cases hk
    · cases a with
      | call c =>
        obtain ⟨t', ht, hR'⟩ := hR.call c hf
        exact ⟨t', trivial, ht, hR'⟩
      | outcome o =>
        obtain ⟨t', ht, hR'⟩ := hR.outcome o hf
        exact ⟨t', trivial, ht, hR'⟩
      | foreign errno d src => cases hk
  obtain ⟨e2, hrun, hal⟩ := hpurge
  refine ⟨⟨e2, hrun⟩, fun e2' hrun' => ?_⟩
  obtain rfl := hrun.unique hrun'
  obtain ⟨a, ha⟩ := hal.sock
  rw [ha]
  exact ⟨hal.record, rfl, rfl, rfl, rfl⟩

/-- An endpoint whose peer has the address 1. -/
def ofPeer : Endpoint := .fresh 3 ⟨0, 0⟩ ⟨1, 0⟩

/-- A third party. -/
def stranger : SockaddrIn := ⟨9, 9⟩

/-- Between the calls of recv and the first fragment, a stranger's acknowledgement arrives. -/
def visited : List Arrival :=
  [.call (.recv 4), .foreign .EAGAIN (control 7 ACK).wire stranger,
   .outcome (.datagram .EAGAIN (pkt [97] 0).wire ⟨1, 0⟩)]

theorem isolation_visited : ∃ e1, Run Endpoint.hears thirdParty ofPeer visited e1 ∧
    e1.sock.recvSeqnum_ = 1 ∧
    ∃ e2, Run Endpoint.hears (fun _ _ => True) ofPeer (visited.filter Arrival.own) e2 ∧
      unsent e1.record = unsent e2.record ∧ e1.sock.recvSeqnum_ = e2.sock.recvSeqnum_ := by
  have hrun : ((exec Endpoint.hears thirdParty ofPeer visited).map fun e => e.sock.recvSeqnum_) =
      some 1 := by
    decide +kernel
  obtain ⟨e1, h1, hn⟩ := Option.map_eq_some_iff.mp hrun
  obtain ⟨⟨e2, h2⟩, hall⟩ := isolation rfl rfl (run_of_exec h1)
  obtain ⟨hrec, _, hseq, _⟩ := hall e2 h2
  exact ⟨e1, run_of_exec h1, hn, e2, h2, hrec, hseq⟩

/-- A stranger closes a socket, has recv queue data, and answers an acksend; without the stranger,
    nothing of this happens. -/
theorem intruded :
    ((exec Endpoint.hears (fun _ _ => True) ofPeer
        [.call (.recv 4), .foreign .EAGAIN (control 666 FIN).wire stranger]).map
      fun e => e.sock.isClosing_) = some true ∧
    ((exec Endpoint.hears (fun _ _ => True) ofPeer
        [.call (.recv 4), .foreign .EAGAIN (pkt [120] 0).wire stranger]).map
      fun e => (e.sock.recvSeqnum_, storedBytes e.record)) = some (1, [120]) ∧
    ((exec Endpoint.hears (fun _ _ => True) ofPeer [.call (.recv 4)]).map
      fun e => (e.sock.isClosing_, e.sock.recvSeqnum_, storedBytes e.record)) =
      some (false, 0, []) ∧
    ((exec Endpoint.hears (fun _ _ => True) ofPeer
        [.call (.send [97]), .foreign .EAGAIN (control 0 ACK).wire stranger]).map
      fun e => (e.sock.sendSeqnum_, acked e.record)) = some (1, [pkt [97] 0]) ∧
    ((exec Endpoint.hears (fun _ _ => True) ofPeer [.call (.send [97])]).map
      fun e => (e.sock.sendSeqnum_, acked e.record)) = some (0, []) ∧
    stranger ≠ ofPeer.sock.endPoint_ := by
  refine ⟨?_, ?_, ?_, ?_, ?_, ?_⟩ <;> decide +kernel

end Ece358.Rcs
