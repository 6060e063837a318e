/-
  File:      Ece358/Connection.lean
  Subject:   From rcsConnect and rcsAccept to the two programs.

  Behind a connect that has returned, the client's socket is as good as new, and accept has made a
  socket whose endpoint is the client. What is still on its way between the client and the listener
  can disturb them: a late answer of the listener passes for one of the new socket. Where nothing
  is, the listener never speaks to this client again, and the two sockets are connected.

  * `AsNew` -- a socket that is open, with nothing to read and the usual timeout;
  * `ClientAt.asNew` -- so is that of a client whose connect returns;
  * `Quiet` -- nothing is on its way between the listener and the client, and no accept talks to it;
  * `ListeningMoved`, `listeningMoved` -- what a step of the listener and its clients can be;
  * `Serves.speaks` -- whom the listener speaks to behind a receive;
  * `Quiet.step` -- quiet stays quiet;
  * `connection_delivers` -- the result: the handshake, and then the two programs over ucpSendTo.
-/
import Ece358.Agreement
import Ece358.Ucp

namespace Ece358.Rcs

open Lib MsgT

/-! ## 1. The client behind its connect -/

/-- Open, with nothing to read, and the usual timeout. -/
structure AsNew (s : RcsT) : Prop where
  opened : Open s
  blank : Blank s.buffer_
  timeout : s.timeout = RECV_TIMEOUT

section Client

variable {host : UInt32} {port : UInt16} {p p' : Nat} {s s' : RcsT} {stage : Stage} {pc : Pc}
  {o : RecvFrom} {ret : ApiRet} {ack response : MsgT} {m : MsgT}

/-- finalizeRecv is the last that a connect waits in. -/
theorem ClientAt.last (h : ClientAt host port p s (some (.returned ret))) : p = 6 := by
  generalize hq : some (ApiPc.returned ret) = q at h
  cases h with
  | connected => rfl
  | _ => cases hq

theorem ClientAt.blocked_le (h : ClientAt host port p s (some (.blocked stage pc))) : p ≤ 5 := by
  generalize hq : some (ApiPc.blocked stage pc) = q at h
  cases h with
  | request K _ _ hK => omega
  | port c _ _ hc => omega
  | finalizing => exact le_refl 5
  | _ => cases hq

theorem finalizing_asNew (ho : Open s') (hb : Has (portBytes port) 2 s'.buffer_)
    (h : resume s (.finalizeRecv 16 ack response) o = s'.finalizeEnd 16) :
    AsNew (apiResume s .connectRecv (.finalizeRecv 16 ack response) o).sock := by
  have hn := nfrag_port port
  obtain ⟨b, hend, hblank⟩ := finalizeEnd_read ho (L := 16) (hn.symm ▸ hb) (portBytes_ne_nil port)
    (by rw [length_portBytes]; decide)
  rw [apiResume, h, hend]
  exact ⟨⟨ho.notClosing, rfl⟩, hblank, rfl⟩

/-- The socket of a client whose connect returns. -/
theorem ClientAt.asNew (h : ClientAt host port p s (some (.blocked stage pc)))
    (ho : o = .error .EAGAIN ∨ ∃ e d src m, o = .datagram e d src ∧ SentAs d m ∧
      (p = 5 → m.length = 0))
    (hm : ClientMoves host port p (apiResume s stage pc o) p')
    (hret : (apiResume s stage pc o).pc = .returned ret) :
    AsNew (apiResume s stage pc o).sock := by
  have hstands := hm.stands
  rw [hret] at hstands
  have hlast := hstands.last
  have hle := h.blocked_le
  have hnear := hm.near
  obtain rfl : p = 5 := by omega
  generalize hq : some (ApiPc.blocked stage pc) = q at h
  generalize hp : (5 : Nat) = p at h
  cases h with
  | request K _ _ hK => omega
  | port c _ _ hc => omega
  | idle => cases hq
  | connected => cases hq
  | finalizing hopen hx hb hr =>
    obtain ⟨rfl, rfl⟩ := ApiPc.blocked.inj (Option.some.inj hq)
    rcases ho with rfl | ⟨e, d, src, m, rfl, hd, hlen⟩
    · exact finalizing_asNew hopen hb (finalize_timeout hopen 16 _ _)
    · rcases finalize_stretch hopen hr hd
        (fun _ => startsNext_of_length_zero (hlen rfl) hd.isPrefix) 16 (control (num 1) ACK) e src
        with ⟨_, _, hend⟩ | ⟨response', _, hgo⟩
      · exact finalizing_asNew (hopen.from src) hb hend
      · rw [apiResume_blocked hgo (fun _ => Pc.noConfusion)] at hret
        cases hret

end Client

/-! ## 2. Whom the listener speaks to -/

/-- Behind a receive: all that the listener has sent in it went to `x`, and so will what follows. -/
def Spoke (w : Listening) (x : SockaddrIn) (w' : Listening) : Prop :=
  ∃ a out n m, w' = w.settle a out ∧ sendings out = List.replicate n (m, x) ∧
    ∀ stage pc, a.res.pc = .blocked stage pc → a.res.sock.endPoint_ = x

/-- Nothing is on its way between the listener and `x`, and no call of accept talks to it. -/
structure Quiet (w : Listening) (x : SockaddrIn) : Prop where
  up : (w.links x).up = []
  down : (w.links x).down = []
  elsewhere : ∀ a ∈ w.serving, a.res.sock.hasEndpoint_ = true → a.res.sock.endPoint_ ≠ x

/-- What a step of the listener and its clients can be. -/
inductive ListeningMoved (w : Listening) : ListeningAct → Listening → Prop where
  | accepts (fd : Nat) (bind : SockaddrIn → Bool) (w' : Listening) (hnone : w.serving = none)
      (haccept : w.accept fd bind = some w') : ListeningMoved w (.accept fd bind) w'
  | connects (x addr : SockaddrIn) (hpc : (w.links x).pc = none) :
    ListeningMoved w (.connect x addr)
      (w.setLink x ((w.links x).runs (apiStart (w.links x).sock (.connect addr))))
  | hears (x : SockaddrIn) (errno : Errno) (d : List UInt8) (rest : List (List UInt8))
      (w' : Listening) (hup : (w.links x).up = d :: rest)
      (hreceive : (w.setLink x { w.links x with up := rest }).receive x (.datagram errno d x) =
        some w') : ListeningMoved w (.hear x errno) w'
  | fires (a : Accept) (w' : Listening) (ha : w.serving = some a)
      (htime : a.res.sock.timeout ≠ 0)
      (hreceive : w.receive w.sockName (.error .EAGAIN) = some w') : ListeningMoved w .timer w'
  | clientHears (x : SockaddrIn) (errno : Errno) (d : List UInt8) (rest : List (List UInt8))
      (stage : Stage) (pc : Pc) (hdown : (w.links x).down = d :: rest)
      (hpc : (w.links x).pc = some (.blocked stage pc)) :
    ListeningMoved w (.clientHear x errno) (w.setLink x (Link.runs
      { w.links x with down := rest }
      (apiResume (w.links x).sock stage pc (.datagram errno d w.sockName))))
  | clientFires (x : SockaddrIn) (stage : Stage) (pc : Pc)
      (hpc : (w.links x).pc = some (.blocked stage pc)) :
    ListeningMoved w (.clientTimer x) (w.setLink x ((w.links x).runs
      (apiResume (w.links x).sock stage pc (.error .EAGAIN))))
  | loses (x : SockaddrIn) (way : Heading) (i : Nat) : ListeningMoved w (.lose x way i)
      (w.setLink x ((w.links x).alter (fun ds => ds.eraseIdx i) way))
  | cuts (x : SockaddrIn) (way : Heading) (i k : Nat) : ListeningMoved w (.cut x way i k)
      (w.setLink x ((w.links x).alter (fun ds => ds.modify i fun d => d.take k) way))

theorem listeningMoved {w w' : Listening} {act : ListeningAct} (h : w.step act = some w') :
    ListeningMoved w act w' := by
  cases act with
  | accept fd bind =>
    refine .accepts fd bind w' ?_ h
    simp only [Listening.step, Listening.accept, Option.ite_none_right_eq_some] at h
    exact Option.isNone_iff_eq_none.mp h.1.1
  | connect x addr =>
    simp only [Listening.step, Option.ite_none_right_eq_some, Option.some.injEq] at h
    obtain ⟨⟨hpc, _⟩, rfl⟩ := h
    exact .connects x addr hpc
  | hear x errno =>
    simp only [Listening.step] at h
    split at h
    next => cases h
    next d rest hup => exact .hears x errno d rest w' hup h
  | timer =>
    simp only [Listening.step] at h
    split at h
    next => cases h
    next a ha =>
      rw [Option.ite_none_right_eq_some] at h
      exact .fires a w' ha h.1 h.2
  | clientHear x errno =>
    simp only [Listening.step] at h
    split at h
    next => cases h
    next d rest hdown =>
      simp only [Listening.clientReceive, Listening.setLink, Function.update_self,
        Function.update_idem] at h
      split at h
      next stage pc hpc =>
        rw [← Option.some.inj h]
        exact .clientHears x errno d rest stage pc hdown hpc
      next => cases h
  | clientTimer x =>
    simp only [Listening.step, Option.ite_none_right_eq_some, Listening.clientReceive] at h
    obtain ⟨_, h⟩ := h
    split at h
    next stage pc hpc =>
      rw [← Option.some.inj h]
      exact .clientFires x stage pc hpc
    next => cases h
  | lose x way i => exact Option.some.inj h ▸ .loses x way i
  | cut x way i k => exact Option.some.inj h ▸ .cuts x way i k

section Listener

variable {w w' : Listening} {p l : SockaddrIn → Nat} {port : SockaddrIn → UInt16} {a : Accept}
  {me x y : SockaddrIn} {child k k' : Nat} {q : ApiRes} {took took' : List MsgT} {d : List UInt8}
  {rest : List (List UInt8)} {e : Errno}

theorem spoke_of_moves (hm : ListenerMoves child me x k q took k') (w : Listening) (a : Accept)
    (y : SockaddrIn) : Spoke w x (w.settle (a.behind q y took') q.out) := by
  obtain ⟨n, hn⟩ := hm.sent
  refine ⟨_, q.out, n, _, rfl, hn, fun stage pc hpc => ?_⟩
  have hstands := hm.stands
  have hpc : q.pc = .blocked stage pc := hpc
  rw [hpc] at hstands
  exact hstands.busy.2.1

/-- The listener reads a datagram of `y`: it speaks to `y`, or to its endpoint. -/
theorem Serves.speaks (h : Serves w p l port) (hup : (w.links y).up = d :: rest)
    (hok : ∀ a ∈ w.serving, a.res.sock.hasEndpoint_ = true → y ≠ a.res.sock.endPoint_ →
      a.Declines e d)
    (hstep : (w.setLink y { w.links y with up := rest }).receive y (.datagram e d y) = some w') :
    ∃ a x, w.serving = some a ∧
      (x = y ∨ (a.res.sock.hasEndpoint_ = true ∧ a.res.sock.endPoint_ = x)) ∧
      Spoke (w.setLink y { w.links y with up := rest }) x w' := by
  obtain ⟨r, hd, hlo, hr, _, _⟩ := (h.links y).pops hup
  let w0 := w.setLink y { w.links y with up := rest }
  have hheard : downLo r ≤ l y := le_trans (downLo_mono hr) (h.links y).heard
  cases h.listener with
  | free hs =>
    rw [show Listening.receive _ _ _ = none by simp only [Listening.receive, Listening.setLink, hs]]
      at hstep
    cases hstep
  | waiting a me hs hhost hno ht hl =>
    have hstands := (ht y).stands
    obtain ⟨hpc, _⟩ := hstands.first
    rw [hpc] at hstands
    rw [receive_eq (w := w0) hs hpc, apiResume_unheard hno, Option.some.injEq] at hstep
    refine ⟨a, y, hs, Or.inl rfl, ?_⟩
    rcases hl y with h0 | h5
    · obtain ⟨k', _, hm⟩ := hstands.hears hd (Nat.zero_le r) (h0 ▸ hheard) e
      exact hstep ▸ spoke_of_moves hm w0 a y
    · rw [h5] at hlo
      exact hstep ▸ spoke_of_moves (hstands.refuses hd (hstands.ignores hd hlo e) y) w0 a y
  | talking a me x k hs hhost ht hx hl =>
    have hstands := ht.stands
    cases hpc : a.res.pc with
    | returned ret =>
      rw [show Listening.receive _ _ _ = none by
        simp only [Listening.receive, Listening.setLink, hs, hpc]] at hstep
      cases hstep
    | blocked stage pc =>
      rw [hpc] at hstands
      rw [receive_eq (w := w0) hs hpc, Option.some.injEq] at hstep
      obtain ⟨hopen, hend, _⟩ := hstands.busy
      refine ⟨a, x, hs, Or.inr ⟨hopen.connected, hend⟩, ?_⟩
      by_cases hy : y = x
      · subst hy
        rcases hx with ⟨hk, _⟩ | ⟨rfl, h5⟩
        · obtain ⟨k', _, hm⟩ := hstands.hears hd (hk ▸ hlo) (hk ▸ hheard) e
          exact hstep ▸ spoke_of_moves hm w0 a y
        · rw [h5] at hlo
          exact hstep ▸ spoke_of_moves (hstands.refuses hd (hstands.ignores hd hlo e) y) w0 a y
      · have hdecl := hok a hs hopen.connected (hend ▸ hy)
        rw [Accept.Declines, hpc] at hdecl
        exact hstep ▸ spoke_of_moves (hstands.refuses hd hdecl y) w0 a y

/-- When its timer fires, it speaks to its endpoint. -/
theorem Serves.speaks_timer {x' : SockaddrIn} (h : Serves w p l port) (hs : w.serving = some a)
    (htime : a.res.sock.timeout ≠ 0) (hok : a.Undisturbed)
    (hstep : w.receive x' (.error .EAGAIN) = some w') :
    a.res.sock.hasEndpoint_ = true ∧ Spoke w a.res.sock.endPoint_ w' := by
  cases h.listener with
  | free hnone =>
    rw [hnone] at hs
    cases hs
  | waiting b me hb hhost hno ht hl =>
    obtain rfl := Option.some.inj (hs.symm.trans hb)
    exact absurd (ht w.sockName).stands.timerless htime
  | talking b me x k hb hhost ht hx hl =>
    obtain rfl := Option.some.inj (hs.symm.trans hb)
    have hstands := ht.stands
    cases hpc : a.res.pc with
    | returned ret =>
      rw [show Listening.receive _ _ _ = none by simp only [Listening.receive, hs, hpc]] at hstep
      cases hstep
    | blocked stage pc =>
      rw [hpc] at hstands
      rw [receive_eq hs hpc, Option.some.injEq] at hstep
      obtain ⟨hopen, hend, _⟩ := hstands.busy
      have hfrom : ∀ L ack response, pc = .finalizeRecv L ack response →
          a.res.sock.fromEndpoint_ = x := by
        rintro L ack response rfl
        rw [Accept.Undisturbed, hpc] at hok
        exact hok.trans hend
      obtain ⟨k', _, hm⟩ := hstands.timer htime hfrom
      rw [hend]
      exact ⟨hopen.connected, hstep ▸ spoke_of_moves hm w a x'⟩

/-- What goes to `x` leaves the others quiet. -/
theorem Quiet.spoke (h : Quiet w y) (hx : x ≠ y) (hs : Spoke w x w') :
    Quiet w' y ∧ w'.links y = w.links y := by
  obtain ⟨a, out, n, m, rfl, hsend, hend⟩ := hs
  have hlink : posted w.links out y = w.links y := by
    rw [posted_replicate w.links hsend, Function.update_of_ne hx.symm]
  unfold Listening.settle
  cases hpc : a.res.pc with
  | blocked stage pc =>
    refine ⟨⟨(congrArg Link.up hlink).trans h.up, (congrArg Link.down hlink).trans h.down,
      fun b hb _ => ?_⟩, hlink⟩
    rw [← Option.some.inj hb, hend stage pc hpc]
    exact hx
  | returned ret =>
    exact ⟨⟨(congrArg Link.up hlink).trans h.up, (congrArg Link.down hlink).trans h.down,
      fun b hb => by cases hb⟩, hlink⟩

end Listener

/-! ## 3. Quiet stays quiet -/

section Stays

variable {w w' : Listening} {p l : SockaddrIn → Nat} {port : SockaddrIn → UInt16}
  {x y : SockaddrIn} {ret : ApiRet} {k : Link}

/-- Another link changes. -/
theorem Quiet.relinks (h : Quiet w x) (hy : y ≠ x) (k : Link) :
    Quiet (w.setLink y k) x ∧ (w.setLink y k).links x = w.links x := by
  have hlink : (w.setLink y k).links x = w.links x := Function.update_of_ne hy.symm ..
  exact ⟨⟨(congrArg Link.up hlink).trans h.up, (congrArg Link.down hlink).trans h.down,
    h.elsewhere⟩, hlink⟩

/-- The network finds nothing to lose or to cut. -/
theorem Quiet.alters (h : Quiet w x) {f : List (List UInt8) → List (List UInt8)} (hf : f [] = [])
    (y : SockaddrIn) (way : Heading) :
    Quiet (w.setLink y ((w.links y).alter f way)) x ∧
      (w.setLink y ((w.links y).alter f way)).links x = w.links x := by
  by_cases hy : y = x
  · subst hy
    have hsame : (w.links y).alter f way = w.links y := by
      cases way with
      | up =>
        show { w.links y with up := f (w.links y).up } = w.links y
        rw [h.up, hf, ← h.up]
      | down =>
        show { w.links y with down := f (w.links y).down } = w.links y
        rw [h.down, hf, ← h.down]
    have hlink : (w.setLink y (w.links y)).links y = w.links y := Function.update_self ..
    rw [hsame]
    exact ⟨⟨(congrArg Link.up hlink).trans h.up, (congrArg Link.down hlink).trans h.down,
      h.elsewhere⟩, hlink⟩
  · exact h.relinks hy _

/-- A call of accept starts; it has not heard of anybody. -/
theorem Quiet.accepts {fd : Nat} {bind : SockaddrIn → Bool} (h : Quiet w x)
    (hc : w.sock.isClosing_ = false) (hstep : w.accept fd bind = some w') :
    Quiet w' x ∧ w'.links x = w.links x := by
  simp only [Listening.accept, Option.ite_none_right_eq_some, Option.some.injEq] at hstep
  obtain ⟨⟨_, hlistens⟩, rfl⟩ := hstep
  generalize mybind fd { w.sockName with sin_port := 0 } bind = bound
  have hr : apiStart w.sock (.accept w.sNextId bound.2) =
      ⟨{ w.sock with timeout := 0, hasEndpoint_ := false, recvSeqnum_ := 0 },
        [.io (.setTimeout w.sock.ucpSocket_ 0)],
        .blocked (.acceptRecv w.sNextId bound.2) (.recvLoop 32)⟩ := by
    simp [apiStart, hlistens, accept, RcsT.recv, RcsT.recvWhile, RcsT.setTimeout, hc, acceptMid,
      ApiRes.after]
  have hlink : posted w.links [.io (.setTimeout w.sock.ucpSocket_ 0)] x = w.links x :=
    congrArg (fun ds => { w.links x with down := ds }) (List.append_nil _)
  rw [hr]
  refine ⟨⟨(congrArg Link.up hlink).trans h.up, (congrArg Link.down hlink).trans h.down, ?_⟩, hlink⟩
  intro a ha hend
  rw [← Option.some.inj ha] at hend
  cases hend

/-- The listener never speaks to such a client again. -/
theorem Quiet.step {act : ListeningAct} (h : Quiet w x) (hs : Serves w p l port)
    (hret : (w.links x).pc = some (.returned ret)) (hok : apart w act)
    (hstep : w.step act = some w') : Quiet w' x ∧ w'.links x = w.links x := by
  have hother : ∀ {y d rest}, (w.links y).up = d :: rest → y ≠ x := by
    rintro y d rest hup rfl
    cases hup.symm.trans h.up
  cases listeningMoved hstep with
  | accepts fd bind _ hnone haccept =>
    refine h.accepts ?_ haccept
    cases hs.listener with
    | free _ hc => exact hc
    | waiting a _ ha => cases hnone.symm.trans ha
    | talking a _ _ _ ha => cases hnone.symm.trans ha
  | connects y addr hpc =>
    refine h.relinks ?_ _
    rintro rfl
    cases hpc.symm.trans hret
  | hears y errno d rest _ hup hreceive =>
    obtain ⟨a, x', ha, hx', hspoke⟩ := hs.speaks hup
      (fun a ha hc hx => hok a ha hc hx d (by rw [hup]; rfl)) hreceive
    obtain ⟨hquiet, hlink⟩ := h.relinks (hother hup) { w.links y with up := rest }
    have hne : x' ≠ x := by
      rcases hx' with rfl | ⟨hend, rfl⟩
      · exact hother hup
      · exact h.elsewhere a ha hend
    obtain ⟨hquiet', hlink'⟩ := hquiet.spoke hne hspoke
    exact ⟨hquiet', hlink'.trans hlink⟩
  | fires a _ ha htime hreceive =>
    obtain ⟨hend, hspoke⟩ := hs.speaks_timer ha htime (hok a ha) hreceive
    exact h.spoke (h.elsewhere a ha hend) hspoke
  | clientHears y errno d rest stage pc hdown hpc =>
    refine h.relinks ?_ _
    rintro rfl
    cases hdown.symm.trans h.down
  | clientFires y stage pc hpc =>
    refine h.relinks ?_ _
    rintro rfl
    cases hpc.symm.trans hret
  | loses y way i => exact h.alters List.eraseIdx_nil y way
  | cuts y way i k => exact h.alters (List.modify_nil ..) y way

end Stays

/-! ## 4. The result -/

section Connected

variable {w w' w0 : Listening} {p l : SockaddrIn → Nat} {port : SockaddrIn → UInt16}
  {a : Accept} {x : SockaddrIn} {o : RecvFrom} {act : ListeningAct} {k : Link}

@[simp] theorem settle_links (w : Listening) (a : Accept) (out : List ApiEvent) :
    (w.settle a out).links = posted w.links out := by
  unfold Listening.settle
  split <;> rfl

theorem receive_settles (h : w.receive x o = some w') : ∃ a out, w' = w.settle a out := by
  unfold Listening.receive at h
  split at h
  · cases h
  · split at h
    · cases h
    · exact ⟨_, _, (Option.some.inj h).symm⟩

/-- The clients whose connect has returned have such sockets. -/
def ClientsAsNew (w : Listening) : Prop :=
  ∀ x ret, (w.links x).pc = some (.returned ret) → AsNew (w.links x).sock

/-- What changes the datagrams on their way only. -/
theorem ClientsAsNew.same (h : ClientsAsNew w) (hsame : ∀ x, (w'.links x).pc = (w.links x).pc ∧
    (w'.links x).sock = (w.links x).sock) : ClientsAsNew w' := by
  intro x ret hret
  rw [(hsame x).2]
  exact h x ret ((hsame x).1.symm.trans hret)

theorem ClientsAsNew.relinks (h : ClientsAsNew w)
    (hk : ∀ ret, k.pc = some (.returned ret) → AsNew k.sock) : ClientsAsNew (w.setLink x k) := by
  intro y ret
  by_cases hy : y = x
  · subst hy
    have hlink : (w.setLink y k).links y = k := Function.update_self ..
    rw [hlink]
    exact hk ret
  · have hlink : (w.setLink x k).links y = w.links y := Function.update_of_ne hy ..
    rw [hlink]
    exact h y ret

/-- Every step keeps that. -/
theorem Serves.asNew_step (hs : Serves w p l port) (h : ClientsAsNew w) (hok : apart w act)
    (hstep : w.step act = some w') : ClientsAsNew w' := by
  cases listeningMoved hstep with
  | accepts fd bind _ hnone haccept =>
    simp only [Listening.accept, Option.ite_none_right_eq_some, Option.some.injEq] at haccept
    obtain ⟨_, rfl⟩ := haccept
    refine h.same fun x => ?_
    rw [settle_links]
    exact ⟨rfl, rfl⟩
  | connects x addr hpc =>
    refine h.relinks fun ret hret => ?_
    have hp : p x = 0 := by
      have hc := (hs.links x).client
      rw [hpc] at hc
      generalize p x = px at hc
      cases hc
      rfl
    have hstands := ((hp ▸ (hs.links x).client).connects addr hok).stands
    have hret : (apiStart (w.links x).sock (.connect addr)).pc = .returned ret :=
      Option.some.inj hret
    rw [hret] at hstands
    cases hstands.last
  | hears y errno d rest _ hup hreceive =>
    obtain ⟨a, out, rfl⟩ := receive_settles hreceive
    have h' : ClientsAsNew (w.setLink y { w.links y with up := rest }) :=
      h.relinks fun ret hret => h y ret hret
    refine h'.same fun x => ?_
    rw [settle_links]
    exact ⟨rfl, rfl⟩
  | fires a _ ha htime hreceive =>
    obtain ⟨a, out, rfl⟩ := receive_settles hreceive
    refine h.same fun x => ?_
    rw [settle_links]
    exact ⟨rfl, rfl⟩
  | clientHears x errno d rest stage pc hdown hpc =>
    have hlink := hs.links x
    obtain ⟨r, hd, hlo, hr, _⟩ := (hdown ▸ hlink.down).pop
    have hclient := hlink.client
    rw [hpc] at hclient
    obtain ⟨p', _, hm⟩ := hclient.hears hd hlo (le_trans (upLo_mono hr) hlink.said) errno
      w.sockName
    refine h.relinks fun ret hret => ?_
    exact hclient.asNew (Or.inr ⟨errno, d, w.sockName, _, rfl, hd, fun hp =>
      downMsg_empty (port x) (hp ▸ hlo)⟩) hm (Option.some.inj hret)
  | clientFires x stage pc hpc =>
    have hclient := (hs.links x).client
    rw [hpc] at hclient
    obtain ⟨p', _, hm⟩ := hclient.timer
    refine h.relinks fun ret hret => ?_
    exact hclient.asNew (Or.inl rfl) hm (Option.some.inj hret)
  | loses x way i =>
    refine h.relinks fun ret hret => ?_
    cases way <;> exact h x ret hret
  | cuts x way i k =>
    refine h.relinks fun ret hret => ?_
    cases way <;> exact h x ret hret

/-- The invariant of both. -/
theorem serves_asNew (h0 : Ready w0) (h : Reach Listening.step apart w0 w) :
    ∃ p l port, Serves w p l port ∧ ClientsAsNew w := by
  refine h.invariant (I := fun w => ∃ p l port, Serves w p l port ∧ ClientsAsNew w)
    ⟨_, _, _, serves_start h0, fun x ret hret => ?_⟩
    fun w act w' ⟨_, _, _, hs, hnew⟩ hok hstep => ?_
  · cases (h0.links x).1.symm.trans hret
  · obtain ⟨p', l', port', hs'⟩ := hs.step hok hstep
    exact ⟨p', l', port', hs', hs.asNew_step hnew hok hstep⟩

/-- The socket that a call of accept has made, on the descriptor `fd`. -/
def Accept.childSocket (a : Accept) (fd : Nat) (unset : SockaddrIn) : RcsT :=
  (childEnds a.res.out).foldl (fun s q => s.setEndpoint q.2) (RcsT.new fd unset)

/-- A client and that socket, with nothing between them. -/
def connection (k : Link) (a : Accept) (fd : Nat) (unset : SockaddrIn) : Net :=
  ⟨⟨k.sock, .returned (.recv []), []⟩, ⟨a.childSocket fd unset, .returned (.send 0), []⟩, [], []⟩

theorem connected_connection (hk : AsNew k.sock) (ha : childEnds a.res.out = [(a.child, x)])
    (fd : Nat) (unset : SockaddrIn) : Connected (connection k a fd unset) := by
  have hchild : a.childSocket fd unset = (RcsT.new fd unset).setEndpoint x := by
    rw [Accept.childSocket, ha]
    rfl
  exact
    { openA := hk.opened
      openB := by
        show Open (a.childSocket fd unset)
        rw [hchild]
        exact ⟨rfl, rfl⟩
      idleA := rfl
      idleB := rfl
      recordA := rfl
      recordB := rfl
      exactA := hk.blank.exact
      exactB := by
        show (a.childSocket fd unset).buffer_.Exact
        rw [hchild]
        exact blank_new.exact
      unreadA := hk.blank.unread
      unreadB := by
        show (a.childSocket fd unset).buffer_.unread = []
        rw [hchild]
        exact blank_new.unread
      ticksA := by
        show k.sock.timeout ≠ 0
        rw [hk.timeout]
        decide
      ticksB := by
        rw [show (connection k a fd unset).b.sock = a.childSocket fd unset from rfl, hchild]
        show RECV_TIMEOUT ≠ 0
        decide
      ab := rfl
      ba := rfl }

end Connected

/-- A call of accept that has returned in a run that keeps the clients apart is about one client. If
    its connect has returned too, nothing is on its way between it and the listener, and no accept
    in progress has latched on it, then the listener never speaks to it again, and the two programs
    on the client's socket and the new one deliver the client's stdin, over ucpSendTo; unless
    something that was written over passes the test. -/
theorem connection_delivers {w0 w : Listening} {a : Accept} (h0 : Ready w0)
    (h : Reach Listening.step apart w0 w) (ha : a ∈ w.served) :
    ∃ x, Agreed w a x ∧ ((w.links x).pc = some (.returned (.connect 0)) → Quiet w x →
      (∀ w', Reach Listening.step apart w w' → Quiet w' x ∧ w'.links x = w.links x) ∧
      ∀ fd unset stdin u, Reach Transfer.ucpStep shown
          (.init (connection (w.links x) a fd unset) stdin) u →
        u.file <+: stdin ∧
          (u.service = .quit → u.main = .closed ∧ u.file ++ u.input = stdin)) := by
  obtain ⟨p, l, port, hs, hnew⟩ := serves_asNew h0 h
  obtain ⟨x, hagreed⟩ := hs.agreed ha
  refine ⟨x, hagreed, fun hret hquiet => ⟨fun w' h' => ?_, fun fd unset stdin u hu => ?_⟩⟩
  · have hall := h'.invariant
      (I := fun w' => (∃ p l port, Serves w' p l port) ∧ Quiet w' x ∧ w'.links x = w.links x)
      ⟨⟨p, l, port, hs⟩, hquiet, rfl⟩ ?_
    · exact hall.2
    · rintro w1 act w2 ⟨⟨_, _, _, hs1⟩, hq1, hlink⟩ hok hstep
      obtain ⟨hq2, hlink2⟩ := hq1.step hs1 ((congrArg Link.pc hlink).trans hret) hok hstep
      exact ⟨hs1.step hok hstep, hq2, hlink2.trans hlink⟩
  · have hconnected := connected_connection (hnew x _ hret) hagreed.endpoint fd unset
    obtain ⟨t, ht, hmasks⟩ := over_ucp hconnected hu
    exact hmasks.delivered ht

/-- The client at 2 that was served, when all datagrams of the handshake have arrived. -/
theorem connection_delivers_served : ∃ w a, Reach Listening.step apart listening w ∧
    a ∈ w.served ∧ Agreed w a ⟨2, 0⟩ ∧
    (w.links ⟨2, 0⟩).pc = some (.returned (.connect 0)) ∧ Quiet w ⟨2, 0⟩ ∧
    (∀ w', Reach Listening.step apart w w' →
      Quiet w' ⟨2, 0⟩ ∧ w'.links ⟨2, 0⟩ = w.links ⟨2, 0⟩) ∧
    ∀ fd unset stdin u, Reach Transfer.ucpStep shown
        (.init (connection (w.links ⟨2, 0⟩) a fd unset) stdin) u →
      u.file <+: stdin ∧ (u.service = .quit → u.main = .closed ∧ u.file ++ u.input = stdin) := by
  have hrun : ((exec Listening.step apart listening servedRun).map fun w =>
      (w.served.map fun a => childEnds a.res.out, (w.links ⟨2, 0⟩).pc,
        (w.links ⟨2, 0⟩).up.isEmpty && (w.links ⟨2, 0⟩).down.isEmpty && w.serving.isNone)) =
      some ([[(1, ⟨2, 0⟩)]], some (.returned (.connect 0)), true) := by
    decide +kernel
  obtain ⟨w, hw, hres⟩ := Option.map_eq_some_iff.mp hrun
  obtain ⟨hends, hrest⟩ := Prod.mk.inj hres
  obtain ⟨hpc, hrest⟩ := Prod.mk.inj hrest
  obtain ⟨⟨hup, hdown⟩, hnone⟩ := Bool.and_eq_true_iff.mp hrest |>.imp_left Bool.and_eq_true_iff.mp
  obtain ⟨a, ha, hend⟩ : ∃ a ∈ w.served, childEnds a.res.out = [(1, ⟨2, 0⟩)] :=
    List.mem_map.mp (hends ▸ List.mem_singleton_self _)
  have hquiet : Quiet w ⟨2, 0⟩ := by
    refine ⟨List.isEmpty_iff.mp hup, List.isEmpty_iff.mp hdown, fun b hb => ?_⟩
    rw [Option.isNone_iff_eq_none.mp hnone] at hb
    cases hb
  have hreach := reach_of_exec hw
  obtain ⟨x, hagreed, hall⟩ := connection_delivers ready_listening hreach ha
  obtain rfl : x = ⟨2, 0⟩ := by
    have hx := hagreed.endpoint
    rw [hend, List.cons.injEq, Prod.mk.injEq] at hx
    exact hx.1.2.symm
  obtain ⟨hstays, hdelivers⟩ := hall hpc hquiet
  exact ⟨w, a, hreach, ha, hagreed, hpc, hquiet, hstays, hdelivers⟩

end Ece358.Rcs
