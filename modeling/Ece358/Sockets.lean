/-
  File:      Ece358/Sockets.lean
  Subject:   The timers and the numbers of the sockets, over all runs of a process.

  The timer of a descriptor is set in three places: at its making, at the start of accept (to 0,
  which waits for ever), and by finalizeRecv (to 500 ms, and back to 10 ms). Every return and every
  loop must leave it as the rest of the code expects it. A socket that a FIN has closed still sets
  the timer of its number in accept, and closes it in rcsClose, whatever it stands for by then.

  * `TimerOf` -- the timer that a call has set where it is blocked;
  * `Timed`, `ApiRes.Timed` -- of a socket and the call on it, while the descriptor is open;
  * `timed_start`, `timed_resume`, `timed_proceed` -- a stretch of a call keeps it;
  * `Proc.Timed` -- the sockets of a process have set their timers to what they should be;
  * `Spares` -- no accept and no close of a socket whose number stands for something else by now;
  * `Synced`, `timers` -- in every run of this kind, the timers of the open sockets are those that
    they have set last; `timer_taken` is a run of the other kind;
  * `Concerns`, `step_other` -- what is not about a socket leaves the object as it is;
  * `NumberStep`, `step_number` -- what a step can do to a number;
  * `numbers` -- a number stands for one object, from its making to its rcsClose.
-/
import Ece358.Descriptors
import Ece358.RcsSteps

namespace Ece358.Rcs

open Lib MsgT

/-! ## 1. Timers -/

/-- The timer where a call is blocked; `first` says that the call is in the recv of accept. -/
def TimerOf (first : Bool) : Pc → Nat → Prop
  | .finalizeRecv _ _ _, t => t = PROTOCOL_TIMEOUT
  | .recvLoop _, t => t = RECV_TIMEOUT ∨ (first = true ∧ t = 0)
  | _, t => t = RECV_TIMEOUT

/-- The recv of accept. -/
def Stage.first : Stage → Bool
  | .acceptRecv _ _ => true
  | _ => false

/-- A send or recv that stands at `pc`; where the descriptor is closed, its timer is nobody's. -/
def Timed (first : Bool) (s : RcsT) (pc : Pc) : Prop :=
  s.isClosing_ = false → TimerOf first pc s.timeout

/-- A call, blocked or returned. -/
def ApiRes.Timed (r : ApiRes) : Prop :=
  r.sock.isClosing_ = false → match r.pc with
    | .blocked stage pc => TimerOf stage.first pc r.sock.timeout
    | .returned _ => r.sock.timeout = RECV_TIMEOUT

section Timers

variable {s : RcsT} {first : Bool} {pc : Pc} {L : Nat}

/-- An open socket has not been closed. -/
theorem open_of_rawrecv {o : RecvFrom} (h : (s.rawrecv o).sock.isClosing_ = false) :
    s.isClosing_ = false := by
  cases hc : s.isClosing_ with
  | false => rfl
  | true =>
    have hclosing : (s.rawrecv o).sock.isClosing_ = true := by
      cases o <;> simp only [RcsT.rawrecv, RcsT.setEndpoint, RcsT.close] <;> split_ifs <;>
        simp_all
    cases hclosing.symm.trans h

theorem Timed.rawrecv {pc' : Pc} (h : Timed first s pc) (o : RecvFrom)
    (hpc : ∀ t, TimerOf first pc t → TimerOf first pc' t) :
    Timed first (s.rawrecv o).sock pc' := by
  intro hopen
  rw [timeout_rawrecv]
  exact hpc _ (h (open_of_rawrecv hopen))

theorem timed_sendLoop (h : s.isClosing_ = false → s.timeout = RECV_TIMEOUT) (data : List UInt8)
    (k : Nat) : Timed first (RcsT.sendLoop s data k).sock (RcsT.sendLoop s data k).pc := by
  intro hopen
  rw [timeout_sendLoop]
  unfold RcsT.sendLoop at hopen ⊢
  split_ifs at hopen ⊢ <;> exact h hopen

/-- The inner loop of recv is left on a closing socket only. -/
theorem timed_recvWhile (h : Timed first s (.recvLoop L)) (L' : Nat) :
    Timed first (s.recvWhile L').sock (s.recvWhile L').pc := by
  by_cases hc : s.isClosing_ = true
  · obtain ⟨b, ret, hr⟩ := recvWhile_closing hc L'
    rw [hr]
    intro hopen
    cases hc.symm.trans hopen
  · unfold RcsT.recvWhile
    rw [if_neg hc]
    exact h

/-- finalizeRecv has put the timer back. -/
theorem timed_finalizeEnd (s : RcsT) (L : Nat) :
    Timed first (s.finalizeEnd L).sock (s.finalizeEnd L).pc := by
  intro _
  rw [timeout_finalizeEnd]
  simp only [RcsT.finalizeEnd, RcsT.recvAgain, RcsT.recvReturn, Res.after]
  split_ifs
  · exact Or.inl rfl
  · rfl
  · rfl

theorem timed_recvBody (h : Timed first s (.recvLoop L)) (L' : Nat) (response : MsgT) (ok : Bool) :
    Timed first (s.recvBody L' response ok).sock (s.recvBody L' response ok).pc := by
  have hqueue : Timed first (queue s response) (.recvLoop L) := h
  unfold RcsT.recvBody
  cases ok && response.seqnum == s.recvSeqnum_ with
  | true =>
    simp only [if_true]
    split
    · exact fun _ => rfl
    · exact timed_recvWhile hqueue L'
  | false =>
    simp only [Bool.false_eq_true, if_false]
    split
    · exact fun _ => rfl
    · exact timed_recvWhile h L'

theorem timed_start (h : s.isClosing_ = false → s.timeout = RECV_TIMEOUT) (c : Call) :
    Timed first (start s c).sock (start s c).pc := by
  cases c with
  | send data => exact timed_sendLoop (s := sendStarted s) h data 0
  | recv L =>
    exact timed_recvWhile (s := { s with recvSeqnum_ := 0 }) (L := L) (fun ho => Or.inl (h ho)) L

theorem timed_resume (h : Timed first s pc) (hp : pc.idle = false) (o : RecvFrom) :
    Timed first (resume s pc o).sock (resume s pc o).pc := by
  cases pc with
  | returned ret => cases hp
  | sendFragment data k msg =>
    obtain ⟨es, leave, ha, _⟩ := acksend_split s msg o
    have hr : Timed first (s.rawrecv o).sock (.sendFragment data k msg) := h.rawrecv o fun _ => id
    simp only [resume, ha]
    cases leave with
    | false => exact hr
    | true => exact timed_sendLoop (s := nextFragment (s.rawrecv o).sock) hr _ _
  | sendEos data msg =>
    obtain ⟨es, leave, ha, _⟩ := acksend_split s msg o
    have hr : Timed first (s.rawrecv o).sock (.sendEos data msg) := h.rawrecv o fun _ => id
    simp only [resume, ha]
    cases leave <;> exact hr
  | recvLoop L =>
    have hr : Timed first (s.rawrecv o).sock (.recvLoop L) := h.rawrecv o fun _ => id
    show Timed first (s.recvPass L o).sock (s.recvPass L o).pc
    unfold RcsT.recvPass
    dsimp only
    split
    · exact timed_recvWhile hr L
    · exact timed_recvBody hr L _ _
  | finalizeRecv L ack response =>
    have hr : Timed first (s.rawrecv o).sock (.finalizeRecv L ack response) :=
      h.rawrecv o fun _ => id
    show Timed first (s.finalizePass L ack response o).sock (s.finalizePass L ack response o).pc
    unfold RcsT.finalizePass
    dsimp only
    split
    · exact timed_finalizeEnd _ L
    · split
      · exact timed_finalizeEnd _ L
      · exact hr

end Timers

/-! ## 2. Whole calls -/

section Calls

variable {s : RcsT} {r : Res}

theorem ApiRes.Timed.after {r : ApiRes} (h : r.Timed) (out : List ApiEvent) :
    (r.after out).Timed := h

theorem timed_blocked (stage : Stage) (h : Timed stage.first r.sock r.pc)
    (hb : ∀ ret, r.pc ≠ .returned ret) : (proceed stage r).Timed := by
  rw [proceed_blocked hb]
  exact h

theorem timed_acceptEnd (h : Timed false r.sock r.pc) (child : Nat) :
    (acceptEnd child r).Timed := by
  cases hpc : r.pc with
  | returned ret =>
    rw [hpc] at h
    unfold acceptEnd
    rw [hpc]
    exact h
  | _ => exact timed_blocked (.acceptSend child) h (by rw [hpc]; intro _ hr; cases hr)

theorem timed_connectEnd (h : Timed false r.sock r.pc) : (connectEnd r).Timed := by
  cases hpc : r.pc with
  | returned ret =>
    rw [hpc] at h
    unfold connectEnd
    rw [hpc]
    exact h
  | _ => exact timed_blocked .connectRecv h (by rw [hpc]; intro _ hr; cases hr)

theorem timed_proceed (stage : Stage) (h : Timed stage.first r.sock r.pc) :
    (proceed stage r).Timed := by
  cases stage with
  | acceptSend child => exact timed_acceptEnd h child
  | connectRecv => exact timed_connectEnd h
  | plain =>
    cases hpc : r.pc with
    | returned ret =>
      rw [hpc] at h
      unfold proceed
      dsimp only
      rw [hpc]
      exact h
    | _ => exact timed_blocked _ h (by rw [hpc]; intro _ hr; cases hr)
  | acceptRecv child me =>
    cases hpc : r.pc with
    | returned ret =>
      rw [hpc] at h
      show (acceptMid child me r).Timed
      unfold acceptMid
      rw [hpc]
      exact (timed_acceptEnd (timed_start h (.send (portBytes me.sin_port))) child).after _
    | _ => exact timed_blocked _ h (by rw [hpc]; intro _ hr; cases hr)
  | connectSend =>
    cases hpc : r.pc with
    | returned ret =>
      rw [hpc] at h
      show (connectMid r).Timed
      unfold connectMid
      rw [hpc]
      exact (timed_connectEnd (timed_start h (.recv 16))).after _
    | _ => exact timed_blocked _ h (by rw [hpc]; intro _ hr; cases hr)

theorem timed_apiStart (h : s.isClosing_ = false → s.timeout = RECV_TIMEOUT) (c : ApiCall) :
    (apiStart s c).Timed := by
  cases c with
  | call c => exact timed_proceed .plain (timed_start h c)
  | connect addr =>
    exact timed_proceed .connectSend
      (timed_start (s := s.setEndpoint addr) h (.send connectRequest))
  | accept child me =>
    unfold apiStart
    dsimp only
    split
    · -- the only place where the timer is switched off
      have hwait : Timed true ({ (s.setTimeout 0).1 with
          hasEndpoint_ := false, recvSeqnum_ := 0 } : RcsT) (.recvLoop 32) :=
        fun _ => Or.inr ⟨rfl, rfl⟩
      exact (timed_proceed (.acceptRecv child me) (timed_recvWhile hwait 32)).after _
    · exact h

end Calls

/-! ## 3. Runs of a process -/

/-- The sockets of a process, and the call in progress. -/
structure Proc.Timed (p : Proc) : Prop where
  resting : ∀ id s, p.getSocket id = some s → (∀ stage pc, p.busy ≠ some (id, stage, pc)) →
    s.isClosing_ = false → s.timeout = RECV_TIMEOUT
  calling : ∀ id stage pc s, p.busy = some (id, stage, pc) → p.getSocket id = some s →
    pc.idle = false ∧ Rcs.Timed stage.first s pc

section Runs

variable {p p' : Proc} {id : Nat} {s : RcsT} {r : ApiRes} {a : ProcAct}

theorem timed_init (fds : List Nat) : (Proc.init fds).Timed :=
  ⟨fun _ _ hs => (by cases hs), fun _ _ _ _ hb => (by cases hb)⟩

/-- What an absorbed stretch leaves of a socket: the one of the call, up to the endpoint that the
    call may have given to it, or one that was there. -/
theorem absorb_get {id' : Nat} {s' : RcsT} (h : (p.absorb id r).getSocket id' = some s') :
    ∃ s, (if id' = id then some r.sock else p.getSocket id') = some s ∧
      s'.timeout = s.timeout ∧ s'.isClosing_ = s.isClosing_ ∧ s'.ucpSocket_ = s.ucpSocket_ := by
  have hmap := foldl_setChild_map (g := fun s => (s.timeout, s.isClosing_, s.ucpSocket_))
    (fun _ _ => rfl) r.out (Function.update p.sSocketIdentifiers id (some r.sock)) id'
  have h : r.out.foldl setChild (Function.update p.sSocketIdentifiers id (some r.sock)) id' =
      some s' := h
  rw [h, Option.map_some, eq_comm, Option.map_eq_some_iff, Function.update_apply] at hmap
  obtain ⟨s, hs, heq⟩ := hmap
  simp only [Prod.mk.injEq] at heq
  exact ⟨s, hs, heq.1.symm, heq.2.1.symm, heq.2.2.symm⟩

/-- A stretch of a call, where the other sockets rest. -/
theorem Proc.Timed.absorb (hr : r.Timed)
    (hi : ∀ stage pc, r.pc = .blocked stage pc → pc.idle = false)
    (hothers : ∀ id' s, id' ≠ id → p.getSocket id' = some s → s.isClosing_ = false →
      s.timeout = RECV_TIMEOUT) : (p.absorb id r).Timed where
  resting id' s' hs' hidle hopen := by
    obtain ⟨s, hs, htime, hc, _⟩ := absorb_get hs'
    rw [htime]
    rw [hc] at hopen
    split at hs
    next he =>
      subst he
      obtain rfl := Option.some.inj hs
      have hr := hr hopen
      cases hpc : r.pc with
      | returned ret => rwa [hpc] at hr
      | blocked stage pc =>
        refine absurd ?_ (hidle stage pc)
        show (match r.pc with
          | .blocked stage pc => some (id', stage, pc)
          | .returned _ => none) = _
        rw [hpc]
    next hne => exact hothers id' s hne hs hopen
  calling id' stage pc s' hbusy hs' := by
    obtain ⟨rfl, hpc⟩ := absorb_busy hbusy
    refine ⟨hi stage pc hpc, fun hopen => ?_⟩
    obtain ⟨s, hs, htime, hc, _⟩ := absorb_get hs'
    rw [if_pos rfl, Option.some.injEq] at hs
    subst hs
    rw [htime]
    have hr := hr (hc ▸ hopen)
    rwa [hpc] at hr

theorem Proc.Timed.idle (h : p.Timed) (hb : p.busy = none) {s : RcsT}
    (hs : p.getSocket id = some s) (hopen : s.isClosing_ = false) : s.timeout = RECV_TIMEOUT :=
  h.resting id s hs (fun _ _ hbusy => by cases hb.symm.trans hbusy) hopen

theorem Proc.Timed.onSocket (h : p.Timed) (hb : p.busy = none) (sockfd : Nat) (c : ApiCall) :
    (p.onSocket sockfd c).Timed := by
  unfold Proc.onSocket
  split
  · exact h
  next s hs =>
    exact .absorb (timed_apiStart (h.idle hb hs) c) (fun _ _ hb => apiStart_idle hb)
      fun id' s' _ hs' => h.idle hb hs'

/-- A table in which one more socket has the timer of a new one. -/
theorem Proc.Timed.update (h : p.Timed) (hb : p.busy = none) {o : Option RcsT}
    (ho : ∀ s, o = some s → s.isClosing_ = false → s.timeout = RECV_TIMEOUT)
    (htable : p'.sSocketIdentifiers = Function.update p.sSocketIdentifiers id o)
    (hb' : p'.busy = none) : p'.Timed where
  resting id' s hs _ hopen := by
    have hs : p'.sSocketIdentifiers id' = some s := hs
    rw [htable, Function.update_apply] at hs
    split at hs
    · exact ho s hs hopen
    · exact h.idle hb hs hopen
  calling id' stage pc s hbusy := by
    rw [hb'] at hbusy
    cases hbusy

theorem Proc.Timed.makeSocket (h : p.Timed) (hb : p.busy = none) : p.makeSocket.Timed :=
  h.update hb (fun _ hs _ => (Option.some.inj hs) ▸ rfl) rfl hb

theorem Proc.Timed.accept (h : p.Timed) (hb : p.busy = none) (sockfd : Nat)
    (sockName : SockaddrIn) (bind : SockaddrIn → Bool) :
    (p.accept sockfd sockName bind).Timed := by
  unfold Proc.accept
  split
  · exact h
  next s hs =>
    dsimp only
    split
    · exact .absorb (timed_apiStart (h.idle hb hs) _) (fun _ _ hb => apiStart_idle hb)
        fun id' s' _ hs' => (h.makeSocket hb).idle hb hs'
    · exact .absorb (timed_apiStart (h.idle hb hs) _) (fun _ _ hb => apiStart_idle hb)
        fun id' s' _ hs' => h.idle hb hs'

theorem Proc.Timed.receive {o : RecvFrom} (h : p.Timed) (hstep : p.receive o = some p') :
    p'.Timed := by
  obtain ⟨id, stage, pc, s, hbusy, hs, _, rfl⟩ := receive_some hstep
  obtain ⟨hi, ht⟩ := h.calling id stage pc s hbusy hs
  refine .absorb (timed_proceed stage (timed_resume ht hi o)) (fun _ _ hb => proceed_idle hb)
    fun id' s' hne hs' hopen => h.resting id' s' hs' (fun stage' pc' hb => hne ?_) hopen
  exact congrArg Prod.fst (Option.some.inj (hb.symm.trans hbusy))

theorem Proc.Timed.step (h : p.Timed) (hstep : p.step a = some p') : p'.Timed := by
  cases a <;> simp only [Proc.step, Option.ite_none_right_eq_some, Option.some.injEq] at hstep
  case outcome o => exact h.receive hstep
  case fileClose fd =>
    obtain ⟨-, rfl⟩ := hstep
    exact ⟨h.resting, h.calling⟩
  all_goals
    obtain ⟨hb, rfl⟩ := hstep
  case socket => exact h.makeSocket hb
  case listen sockfd =>
    refine h.update hb (fun s hs hopen => ?_) rfl hb
    obtain ⟨s0, hs0, rfl⟩ := Option.map_eq_some_iff.mp hs
    have ht : s0.timeout = RECV_TIMEOUT := h.idle hb hs0 hopen
    exact ht
  case call sockfd c => exact h.onSocket hb sockfd _
  case connect sockfd addr => exact h.onSocket hb sockfd _
  case accept sockfd sockName bind => exact h.accept hb sockfd sockName bind
  case close sockfd =>
    exact h.update hb (fun s hs => by cases hs) (destroySocket_table p sockfd)
      ((destroySocket_rest p sockfd).2.1.trans hb)
  case fileOpen => exact ⟨h.resting, h.calling⟩

/-! ### The timers themselves -/

/-- A FIN has closed the socket, and its number is among these descriptors. -/
def Proc.stray (p : Proc) (id : Nat) (fds : List Nat) : Bool :=
  (p.getSocket id).any fun s => s.isClosing_ && decide (s.ucpSocket_ ∈ fds)

/-- Nobody closes a socket that a FIN has closed while its number is open again, nor accepts on one
    that listens; accept also makes a socket, which may be the one that gets the number. -/
def Spares (p : Proc) : ProcAct → Prop
  | .close sockfd => p.stray sockfd p.openFds = false
  | .accept sockfd _ _ => (p.getSocket sockfd).any (fun s => s.isListenerSocket_) = true →
      p.stray sockfd (lowestFree p.openFds :: p.openFds) = false
  | _ => True

instance (p : Proc) : DecidablePred (Spares p)
  | .close _ => inferInstanceAs (Decidable (_ = _))
  | .accept _ _ _ => inferInstanceAs (Decidable (_ → _))
  | .socket => isTrue trivial
  | .listen _ => isTrue trivial
  | .call _ _ => isTrue trivial
  | .connect _ _ => isTrue trivial
  | .outcome _ => isTrue trivial
  | .fileOpen => isTrue trivial
  | .fileClose _ => isTrue trivial

/-- The timer of an open socket is the one that it has set last. -/
def Synced (p : Proc) : Prop :=
  ∀ id s, p.getSocket id = some s → s.isClosing_ = false → p.timers s.ucpSocket_ = s.timeout

theorem not_stray {fds : List Nat} (h : p.stray id fds = false) (hs : p.getSocket id = some s)
    (hc : s.isClosing_ = true) : s.ucpSocket_ ∉ fds := by
  rw [Proc.stray, hs, Option.any_some, hc, Bool.true_and] at h
  exact of_decide_eq_false h

/-- The descriptor of an open socket is open, and no other socket that is open has it. -/
theorem Owned.opened (h : Owned p) (hs : p.getSocket id = some s) (hopen : s.isClosing_ = false) :
    p.held s.ucpSocket_ = some id ∧ s.ucpSocket_ ∈ p.openFds := by
  have hheld := h.holds id s.ucpSocket_ (by rw [key_of_get hs, hopen])
  exact ⟨hheld, (h.holder _ _ hheld).1⟩

theorem Owned.apart (h : Owned p) {id' : Nat} {s' : RcsT} (hne : id' ≠ id)
    (hs : p.getSocket id = some s) (hs' : p.getSocket id' = some s')
    (hopen' : s'.isClosing_ = false) (hfree : s.isClosing_ = true → s.ucpSocket_ ∉ p.openFds) :
    s'.ucpSocket_ ≠ s.ucpSocket_ := by
  obtain ⟨hheld', hin'⟩ := h.opened hs' hopen'
  intro he
  cases hc : s.isClosing_ with
  | true => exact hfree hc (he ▸ hin')
  | false =>
    rw [he, (h.opened hs hc).1] at hheld'
    exact hne (Option.some.inj hheld').symm

/-- A stretch that leaves the timers of the other open sockets alone. -/
theorem Synced.absorb (h : Synced p)
    (hself : r.sock.isClosing_ = false →
      r.out.foldl setTimer p.timers r.sock.ucpSocket_ = r.sock.timeout)
    (hothers : ∀ id' s', id' ≠ id → p.getSocket id' = some s' → s'.isClosing_ = false →
      r.out.foldl setTimer p.timers s'.ucpSocket_ = p.timers s'.ucpSocket_) :
    Synced (p.absorb id r) := by
  intro id' s' hs' hopen
  obtain ⟨s, hs, htime, hc, hfd⟩ := absorb_get hs'
  show r.out.foldl setTimer p.timers s'.ucpSocket_ = _
  rw [htime, hfd]
  rw [hc] at hopen
  split at hs
  next =>
    obtain rfl := Option.some.inj hs
    exact hself hopen
  next hne => exact (hothers id' s hne hs hopen).trans (h id' s hs hopen)

/-- One that keeps its descriptor, which is no longer the socket's where it is closing. -/
theorem Synced.keep (h : Synced p) (how : Owned p) (hs : p.getSocket id = some s)
    (hk : Keeps s r.out r.sock) (hfree : s.isClosing_ = true → s.ucpSocket_ ∉ p.openFds) :
    Synced (p.absorb id r) := by
  refine h.absorb (fun hopen => ?_) fun id' s' hne hs' hopen' =>
    foldl_setTimer_other hk.events (how.apart hne hs hs' hopen' hfree) _
  rw [hk.fd]
  exact hk.timer _ (h id s hs (hk.closing ▸ hopen))

/-- A call on a closing socket sets no timer, but for accept. -/
theorem Synced.start (h : Synced p) (how : Owned p) (hs : p.getSocket id = some s) (c : ApiCall)
    (hfree : ∀ child me, c = .accept child me → s.isClosing_ = true →
      s.ucpSocket_ ∉ p.openFds) : Synced (p.absorb id (apiStart s c)) := by
  have hk := apiStart_keeps s c
  by_cases hc : s.isClosing_ = true ∧ ∀ child me, c ≠ .accept child me
  · have hquiet : ∀ timers, (apiStart s c).out.foldl setTimer timers = timers := by
      obtain ⟨hc, hno⟩ := hc
      refine fun timers => foldl_setTimer_quiet ?_ timers
      cases c with
      | call c => exact (proceed_start_closing hc c .plain).2
      | connect addr =>
        exact (proceed_start_closing (s := s.setEndpoint addr) hc (.send connectRequest)
          .connectSend).2
      | accept child me => exact absurd rfl (hno child me)
    refine h.absorb (fun hopen => ?_) fun id' s' _ _ _ => congrFun (hquiet _) _
    rw [hk.closing, hc.1] at hopen
    cases hopen
  · refine h.keep how hs hk fun hclosing => ?_
    by_contra hin
    exact hc ⟨hclosing, fun child me hcall => hfree child me hcall hclosing hin⟩

theorem Synced.onSocket (h : Synced p) (how : Owned p) (sockfd : Nat) {c : ApiCall}
    (hc : ∀ child me, c ≠ .accept child me) : Synced (p.onSocket sockfd c) := by
  unfold Proc.onSocket
  split
  · exact h
  next s hs => exact h.start how hs c fun child me he => absurd he (hc child me)

theorem Synced.makeSocket (h : Synced p) (how : Owned p) : Synced p.makeSocket := by
  intro id s hs hopen
  have hs : Function.update p.sSocketIdentifiers p.sNextId _ id = some s := hs
  show Function.update p.timers (lowestFree p.openFds) RECV_TIMEOUT _ = _
  rw [Function.update_apply] at hs
  split at hs
  · obtain rfl := Option.some.inj hs
    exact Function.update_self _ _ _
  · -- the new descriptor was free
    have hin := (how.opened hs hopen).2
    have hne : s.ucpSocket_ ≠ lowestFree p.openFds :=
      fun he => lowestFree_not_mem p.openFds (he ▸ hin)
    rw [Function.update_of_ne hne]
    exact h id s hs hopen

theorem Synced.accept (h : Synced p) (how : Owned p) (hb : p.busy = none) (sockfd : Nat)
    (sockName : SockaddrIn) (bind : SockaddrIn → Bool)
    (hspares : Spares p (.accept sockfd sockName bind)) :
    Synced (p.accept sockfd sockName bind) := by
  unfold Proc.accept
  split
  · exact h
  next s hs =>
    dsimp only
    split
    next hl =>
      have hstray := hspares (by rw [hs]; exact hl)
      have hmade : p.makeSocket.getSocket sockfd = some s := by
        refine (Function.update_of_ne ?_ _ _).trans hs
        rintro rfl
        have hnone := how.fresh _ le_rfl
        rw [key_of_get hs] at hnone
        cases hnone
      exact (h.makeSocket how).start (how.makeSocket hb) hmade _
        fun _ _ _ hc => not_stray hstray hs hc
    next hl =>
      have hnothing : apiStart s (.accept p.sNextId sockName) =
          ⟨s, [], .returned (.accept (-1) none)⟩ := if_neg hl
      rw [hnothing]
      exact h.absorb (fun hopen => h sockfd s hs hopen) fun _ _ _ _ _ => rfl

theorem Synced.receive {o : RecvFrom} (h : Synced p) (how : Owned p)
    (hstep : p.receive o = some p') : Synced p' := by
  obtain ⟨id, stage, pc, s, _, hs, rfl, _, hout, hk | hq⟩ := receive_cases how hstep
  · have hlog : Synced { p with log := p.log ++ [Op.used id s.ucpSocket_] } := h
    exact hlog.keep (how.use id _) hs hk hout
  · have hlog : Synced { p with log := p.log ++ [Op.used id s.ucpSocket_] } := h
    refine hlog.absorb (fun hopen => ?_) fun id' s' hne hs' hopen' => ?_
    · rw [(Prod.mk.inj hq.key).2] at hopen
      cases hopen
    · exact hq.timers _ _ (how.apart hne hs hs' hopen' hout)

/-- A table whose open sockets were there before, with their descriptors and timers. -/
theorem Synced.same (h : Synced p) (htimers : p'.timers = p.timers)
    (hsame : ∀ id s', p'.getSocket id = some s' → s'.isClosing_ = false → ∃ s,
      p.getSocket id = some s ∧ s.isClosing_ = false ∧ s'.ucpSocket_ = s.ucpSocket_ ∧
        s'.timeout = s.timeout) : Synced p' := by
  intro id s' hs' hopen'
  obtain ⟨s, hs, hopen, hfd, ht⟩ := hsame id s' hs' hopen'
  rw [htimers, hfd, ht]
  exact h id s hs hopen

theorem Synced.step (h : Synced p) (how : Owned p) (hok : Spares p a)
    (hstep : p.step a = some p') : Synced p' := by
  cases a <;> simp only [Proc.step, Option.ite_none_right_eq_some, Option.some.injEq] at hstep
  case outcome o => exact h.receive how hstep
  case fileClose fd =>
    obtain ⟨-, rfl⟩ := hstep
    exact h
  all_goals
    obtain ⟨hb, rfl⟩ := hstep
  case socket => exact h.makeSocket how
  case listen sockfd =>
    refine h.same rfl fun id s' hs' hopen => ?_
    have hs' : Function.update p.sSocketIdentifiers sockfd _ id = some s' := hs'
    rw [Function.update_apply] at hs'
    split at hs'
    next he =>
      subst he
      obtain ⟨s, hs, rfl⟩ := Option.map_eq_some_iff.mp hs'
      exact ⟨s, hs, hopen, rfl, rfl⟩
    next => exact ⟨s', hs', hopen, rfl, rfl⟩
  case call sockfd c => exact h.onSocket how sockfd fun _ _ => ApiCall.noConfusion
  case connect sockfd addr => exact h.onSocket how sockfd fun _ _ => ApiCall.noConfusion
  case accept sockfd sockName bind => exact h.accept how hb sockfd sockName bind hok
  case close sockfd =>
    refine h.same (destroySocket_rest p sockfd).2.2 fun id s' hs' hopen => ?_
    rw [Proc.getSocket, destroySocket_table, Function.update_apply] at hs'
    split at hs'
    · cases hs'
    · exact ⟨s', hs', hopen, rfl, rfl⟩
  case fileOpen => exact h

/-- What spares the descriptors of others keeps the sockets and their descriptors together. -/
theorem Owned.step (h : Owned p) (hok : Spares p a) (hstep : p.step a = some p') : Owned p' := by
  refine owned_kept.step h (fun sockfd ha hb => ?_) hstep
  subst ha
  cases hget : p.getSocket sockfd with
  | none => exact (destroySocket_none hget).symm ▸ h
  | some s =>
    refine h.destroySocket hb hget fun j hj => ?_
    cases hc : s.isClosing_ with
    | true => exact absurd (h.holder _ _ hj).1 (not_stray hok hget hc)
    | false => exact Option.some.inj (hj.symm.trans (h.opened hget hc).1)

/-- In every run that spares the descriptors of others, the timer of an open socket is 10 ms between
    calls, and wherever a call waits: but in finalizeRecv, where it is 500 ms, and in the recv of
    accept, which may wait for ever. -/
theorem timers {fds : List Nat} (h : Reach Proc.step Spares (Proc.init fds) p)
    (hs : p.getSocket id = some s) (hopen : s.isClosing_ = false) :
    match p.busy with
    | none => p.timers s.ucpSocket_ = RECV_TIMEOUT
    | some (id', stage, pc) =>
      if id' = id then TimerOf stage.first pc (p.timers s.ucpSocket_)
      else p.timers s.ucpSocket_ = RECV_TIMEOUT := by
  obtain ⟨hp, _, hsync⟩ := h.invariant (I := fun p => p.Timed ∧ Owned p ∧ Synced p)
    ⟨timed_init fds, owned_init fds, fun _ _ hs => by cases hs⟩
    fun _ _ _ ⟨ht, ho, hsync⟩ hok hstep => ⟨ht.step hstep, ho.step hok hstep,
      hsync.step ho hok hstep⟩
  rw [hsync id s hs hopen]
  cases hb : p.busy with
  | none => exact hp.idle hb hs hopen
  | some call =>
    obtain ⟨id', stage, pc⟩ := call
    dsimp only
    split
    next he =>
      subst he
      exact (hp.calling _ stage pc s hb hs).2 hopen
    next hne =>
      refine hp.resting id s hs (fun stage' pc' hb' => hne ?_) hopen
      exact congrArg Prod.fst (Option.some.inj (hb.symm.trans hb'))

end Runs

/-- A listening socket in its accept. -/
theorem timers_accept : ∃ p s, Reach Proc.step Spares (Proc.init [0, 1, 2]) p ∧
    p.getSocket 0 = some s ∧ s.isClosing_ = false ∧ p.timers s.ucpSocket_ = 0 ∧
    match p.busy with
    | none => p.timers s.ucpSocket_ = RECV_TIMEOUT
    | some (id', stage, pc) =>
      if id' = 0 then TimerOf stage.first pc (p.timers s.ucpSocket_)
      else p.timers s.ucpSocket_ = RECV_TIMEOUT := by
  have hrun : ((exec Proc.step Spares (Proc.init [0, 1, 2])
      [.socket, .listen 0, .accept 0 ⟨1, 10000⟩ fun _ => true]).map fun p =>
        (p.getSocket 0).map fun s => (s.isClosing_, p.timers s.ucpSocket_)) =
      some (some (false, 0)) := by
    decide +kernel
  obtain ⟨p, hp, hres⟩ := Option.map_eq_some_iff.mp hrun
  obtain ⟨s, hs, hst⟩ := Option.map_eq_some_iff.mp hres
  obtain ⟨hopen, htime⟩ := Prod.mk.inj hst
  exact ⟨p, s, reach_of_exec hp, hs, hopen, htime, timers (reach_of_exec hp) hs hopen⟩

/-- A FIN closes a listening socket, another socket gets its descriptor, and an accept on the first
    takes the limit off the receives of the second. -/
theorem timer_taken : ∃ p s, Reach Proc.step (fun _ _ => True) (Proc.init [0, 1, 2]) p ∧
    p.busy = none ∧ p.getSocket 1 = some s ∧ s.isClosing_ = false ∧
    p.timers s.ucpSocket_ = 0 := by
  have hrun : ((exec Proc.step (fun _ _ => True) (Proc.init [0, 1, 2])
      [.socket, .listen 0, .call 0 (.recv 1),
        .outcome (.datagram .EAGAIN (control 666 FIN).wire ⟨1, 0⟩), .socket,
        .accept 0 ⟨1, 10000⟩ fun _ => true]).map fun p =>
        (p.busy, (p.getSocket 1).map fun s => (s.isClosing_, p.timers s.ucpSocket_))) =
      some (none, some (false, 0)) := by
    decide +kernel
  obtain ⟨p, hp, hres⟩ := Option.map_eq_some_iff.mp hrun
  obtain ⟨hbusy, hsock⟩ := Prod.mk.inj hres
  obtain ⟨s, hs, hst⟩ := Option.map_eq_some_iff.mp hsock
  obtain ⟨hopen, htime⟩ := Prod.mk.inj hst
  exact ⟨p, s, reach_of_exec hp, hbusy, hs, hopen, htime⟩

/-! ## 4. Numbers -/

/-- The socket that a blocked call will give an endpoint to. -/
def Stage.child : Stage → Option Nat
  | .acceptRecv child _ => some child
  | _ => none

/-- The action is about the socket `id`: it makes it, it is called on it, it is a stretch of a call
    on it, or of the accept that made it. -/
def Concerns (p : Proc) (id : Nat) : ProcAct → Prop
  | .socket => id = p.sNextId
  | .listen sockfd | .call sockfd _ | .connect sockfd _ | .close sockfd => id = sockfd
  | .accept sockfd _ _ => id = sockfd ∨ id = p.sNextId
  | .outcome _ => ∃ id' stage pc, p.busy = some (id', stage, pc) ∧
      (id = id' ∨ stage.child = some id)
  | .fileOpen | .fileClose _ => False

section Numbers

variable {p p' : Proc} {id : Nat} {a : ProcAct} {r : Res} {out : List ApiEvent} {c : Nat}
  {addr : SockaddrIn}

theorem not_mem_io (es : List Event) : ApiEvent.childEndpoint c addr ∉ es.map .io := by
  intro h
  obtain ⟨ev, _, hev⟩ := List.mem_map.mp h
  cases hev

theorem acceptEnd_out (child : Nat) (r : Res) : (acceptEnd child r).out = r.out.map .io := by
  unfold acceptEnd
  split <;> rfl

theorem connectEnd_out (r : Res) : (connectEnd r).out = r.out.map .io := by
  unfold connectEnd
  split <;> rfl

/-- A call gives an endpoint to the socket that it has made, and to no other. -/
theorem proceed_child (stage : Stage) (h : .childEndpoint c addr ∈ (proceed stage r).out) :
    stage.child = some c := by
  cases stage with
  | plain =>
    unfold proceed at h
    dsimp only at h
    split at h <;> exact absurd h (not_mem_io _)
  | acceptSend child =>
    have h : .childEndpoint c addr ∈ (acceptEnd child r).out := h
    rw [acceptEnd_out] at h
    exact absurd h (not_mem_io _)
  | connectRecv =>
    have h : .childEndpoint c addr ∈ (connectEnd r).out := h
    rw [connectEnd_out] at h
    exact absurd h (not_mem_io _)
  | connectSend =>
    have h : .childEndpoint c addr ∈ (connectMid r).out := h
    unfold connectMid at h
    split at h
    · rw [ApiRes.after, connectEnd_out] at h
      rcases List.mem_append.mp h with h | h <;> exact absurd h (not_mem_io _)
    · exact absurd h (not_mem_io _)
  | acceptRecv child me =>
    have h : .childEndpoint c addr ∈ (acceptMid child me r).out := h
    unfold acceptMid at h
    split at h
    · rw [ApiRes.after, acceptEnd_out] at h
      rcases List.mem_append.mp h with h | h
      · rcases List.mem_append.mp h with h | h
        · exact absurd h (not_mem_io _)
        · cases List.mem_singleton.mp h
          rfl
      · exact absurd h (not_mem_io _)
    · exact absurd h (not_mem_io _)

theorem apiStart_child {s : RcsT} {call : ApiCall}
    (h : .childEndpoint c addr ∈ (apiStart s call).out) : ∃ me, call = .accept c me := by
  cases call with
  | call call => cases proceed_child .plain h
  | connect dest => cases proceed_child .connectSend h
  | accept child me =>
    unfold apiStart at h
    dsimp only at h
    split at h
    · rcases List.mem_append.mp h with h | h
      · exact absurd h (not_mem_io _)
      · cases proceed_child (.acceptRecv child me) h
        exact ⟨me, rfl⟩
    · exact absurd h List.not_mem_nil

/-- The others stay as they are. -/
theorem foldl_setChild_other (h : ∀ addr, .childEndpoint id addr ∉ out)
    (table : Nat → Option RcsT) : out.foldl setChild table id = table id := by
  induction out generalizing table with
  | nil => rfl
  | cons ev out ih =>
    rw [List.foldl_cons, ih fun addr hmem => h addr (List.mem_cons_of_mem _ hmem)]
    cases ev with
    | io ev => rfl
    | childEndpoint child addr =>
      have hne : id ≠ child := by
        rintro rfl
        exact h addr List.mem_cons_self
      exact Function.update_of_ne hne _ _

theorem absorb_other {id' : Nat} {r : ApiRes} (hne : id ≠ id')
    (h : ∀ addr, .childEndpoint id addr ∉ r.out) :
    (p.absorb id' r).getSocket id = p.getSocket id := by
  show r.out.foldl setChild _ id = _
  rw [foldl_setChild_other h, Function.update_of_ne hne]
  rfl

theorem makeSocket_other (hne : id ≠ p.sNextId) : p.makeSocket.getSocket id = p.getSocket id :=
  Function.update_of_ne hne _ _

theorem onSocket_other {sockfd : Nat} {call : ApiCall} (hne : id ≠ sockfd)
    (hcall : ∀ child me, call ≠ .accept child me) :
    (p.onSocket sockfd call).getSocket id = p.getSocket id := by
  unfold Proc.onSocket
  split
  · rfl
  · refine absorb_other hne fun addr hmem => ?_
    obtain ⟨me, hme⟩ := apiStart_child hmem
    exact hcall id me hme

theorem accept_other {sockfd : Nat} {sockName : SockaddrIn} {bind : SockaddrIn → Bool}
    (hne : id ≠ sockfd) (hnew : id ≠ p.sNextId) :
    (p.accept sockfd sockName bind).getSocket id = p.getSocket id := by
  have hquiet : ∀ (s : RcsT) me addr,
      .childEndpoint id addr ∉ (apiStart s (.accept p.sNextId me)).out := by
    intro s me addr hmem
    obtain ⟨me', hme⟩ := apiStart_child hmem
    cases hme
    exact hnew rfl
  unfold Proc.accept
  split
  · rfl
  · dsimp only
    split
    · exact (absorb_other hne (hquiet _ _)).trans (makeSocket_other hnew)
    · exact absorb_other hne (hquiet _ _)

/-- A step that is not about a socket leaves it as it is. -/
theorem step_other (hstep : p.step a = some p') (h : ¬ Concerns p id a) :
    p'.getSocket id = p.getSocket id := by
  cases a <;> simp only [Proc.step, Option.ite_none_right_eq_some, Option.some.injEq] at hstep
  case outcome o =>
    obtain ⟨id', stage, pc, s, hbusy, _, _, rfl⟩ := receive_some hstep
    refine absorb_other (fun hid => h ⟨id', stage, pc, hbusy, Or.inl hid⟩) fun addr hmem => ?_
    exact h ⟨id', stage, pc, hbusy, Or.inr (proceed_child stage hmem)⟩
  all_goals
    obtain ⟨-, rfl⟩ := hstep
  case socket => exact makeSocket_other h
  case listen sockfd => exact Function.update_of_ne h _ _
  case call sockfd c => exact onSocket_other h fun _ _ hcall => by cases hcall
  case connect sockfd addr => exact onSocket_other h fun _ _ hcall => by cases hcall
  case accept sockfd sockName bind =>
    exact accept_other (fun hid => h (Or.inl hid)) fun hid => h (Or.inr hid)
  case close sockfd =>
    rw [Proc.getSocket, destroySocket_table]
    exact Function.update_of_ne h _ _
  case fileOpen => rfl
  case fileClose fd => rfl

/-- A call that is absorbed keeps the descriptors of all sockets. -/
theorem absorb_fd {id' : Nat} {s : RcsT} {r : ApiRes} (hget : p.getSocket id' = some s)
    (hfd : r.sock.ucpSocket_ = s.ucpSocket_) (id : Nat) :
    ((p.absorb id' r).getSocket id).map RcsT.ucpSocket_ =
      (p.getSocket id).map RcsT.ucpSocket_ := by
  refine (foldl_setChild_map (g := RcsT.ucpSocket_) (fun _ _ => rfl) r.out _ id).trans ?_
  by_cases he : id = id'
  · subst he
    rw [Function.update_self, hget, Option.map_some, Option.map_some, hfd]
  · rw [Function.update_of_ne he]
    rfl

theorem onSocket_fd (sockfd : Nat) (call : ApiCall) (id : Nat) :
    ((p.onSocket sockfd call).getSocket id).map RcsT.ucpSocket_ =
      (p.getSocket id).map RcsT.ucpSocket_ := by
  unfold Proc.onSocket
  split
  · rfl
  next s hs => exact absorb_fd hs (apiStart_keeps s call).fd id

theorem makeSocket_fd (hne : id ≠ p.sNextId) :
    (p.makeSocket.getSocket id).map RcsT.ucpSocket_ = (p.getSocket id).map RcsT.ucpSocket_ := by
  rw [makeSocket_other hne]

theorem accept_fd {sockfd : Nat} {sockName : SockaddrIn} {bind : SockaddrIn → Bool}
    (hne : id ≠ p.sNextId) (hnew : p.getSocket p.sNextId = none) :
    ((p.accept sockfd sockName bind).getSocket id).map RcsT.ucpSocket_ =
      (p.getSocket id).map RcsT.ucpSocket_ := by
  unfold Proc.accept
  split
  · rfl
  next s hs =>
    dsimp only
    split
    · have hmade : p.makeSocket.getSocket sockfd = some s := by
        refine (makeSocket_other ?_).trans hs
        rintro rfl
        cases hnew.symm.trans hs
      exact (absorb_fd hmade (apiStart_keeps s _).fd id).trans (makeSocket_fd hne)
    · exact absorb_fd hs (apiStart_keeps s _).fd id

theorem receive_fd {o : RecvFrom} (ht : p.Timed) (hstep : p.receive o = some p') (id : Nat) :
    (p'.getSocket id).map RcsT.ucpSocket_ = (p.getSocket id).map RcsT.ucpSocket_ := by
  obtain ⟨id', stage, pc, s, hbusy, hs, _, rfl⟩ := receive_some hstep
  obtain ⟨_, _, hk⟩ := apiResume_split (ht.calling id' stage pc s hbusy hs).1 s stage o
  have hraw : (s.rawrecv o).sock.ucpSocket_ = s.ucpSocket_ := by
    cases o <;> simp only [RcsT.rawrecv, RcsT.setEndpoint, RcsT.close] <;> split_ifs <;> rfl
  exact absorb_fd (p := { p with log := p.log ++ [.used id' s.ucpSocket_] }) hs
    (hk.fd.trans hraw) id

theorem receive_next {o : RecvFrom} (hstep : p.receive o = some p') :
    p'.sNextId = p.sNextId := by
  obtain ⟨_, _, _, _, _, _, _, rfl⟩ := receive_some hstep
  rfl

/-- No number from `sNextId` on names a socket. -/
def Fresh (p : Proc) : Prop := ∀ id, p.sNextId ≤ id → p.getSocket id = none

/-- What a step does to a number: its socket keeps its descriptor; or it is closed; or the number is
    the next, and is handed out. -/
inductive NumberStep (p : Proc) (a : ProcAct) (p' : Proc) (id : Nat) : Prop where
  | keeps (hfd : (p'.getSocket id).map RcsT.ucpSocket_ = (p.getSocket id).map RcsT.ucpSocket_)
  | closes (ha : a = .close id) (hnone : p'.getSocket id = none)
  | makes (hid : id = p.sNextId) (hnext : p.sNextId < p'.sNextId)

theorem step_number (ht : p.Timed) (hp : Fresh p) (hstep : p.step a = some p') :
    p.sNextId ≤ p'.sNextId ∧ ∀ id, NumberStep p a p' id := by
  cases a <;> simp only [Proc.step, Option.ite_none_right_eq_some, Option.some.injEq] at hstep
  case outcome o =>
    exact ⟨(receive_next hstep).ge, fun id => .keeps (receive_fd ht hstep id)⟩
  all_goals
    obtain ⟨-, rfl⟩ := hstep
  case socket =>
    refine ⟨Nat.le_succ _, fun id => ?_⟩
    by_cases hid : id = p.sNextId
    · exact .makes hid (Nat.lt_succ_self _)
    · exact .keeps (makeSocket_fd hid)
  case listen sockfd =>
    refine ⟨le_refl _, fun id => .keeps ?_⟩
    show (Function.update p.sSocketIdentifiers sockfd _ id).map _ = _
    rw [Function.update_apply]
    split
    next hid =>
      subst hid
      rw [Option.map_map]
      rfl
    · rfl
  case call sockfd c =>
    refine ⟨?_, fun id => .keeps (onSocket_fd sockfd _ id)⟩
    unfold Proc.onSocket
    split <;> exact le_refl _
  case connect sockfd addr =>
    refine ⟨?_, fun id => .keeps (onSocket_fd sockfd _ id)⟩
    unfold Proc.onSocket
    split <;> exact le_refl _
  case accept sockfd sockName bind =>
    have hnext : p.sNextId ≤ (p.accept sockfd sockName bind).sNextId := by
      unfold Proc.accept
      split
      · exact le_refl _
      · dsimp only
        split
        · exact Nat.le_succ _
        · exact le_refl _
    refine ⟨hnext, fun id => ?_⟩
    by_cases hid : id = p.sNextId
    · rcases hnext.lt_or_eq with hlt | heq
      · exact .makes hid hlt
      · -- no socket was made
        refine .keeps ?_
        revert heq
        unfold Proc.accept
        split
        · exact fun _ => rfl
        next s hs =>
          dsimp only
          split
          · exact fun heq => absurd heq (Nat.lt_succ_self _).ne
          · exact fun _ => absorb_fd hs (apiStart_keeps s _).fd id
    · exact .keeps (accept_fd hid (hp _ (le_refl _)))
  case close sockfd =>
    refine ⟨(destroySocket_rest p sockfd).1.ge, fun id => ?_⟩
    have htable := congrFun (destroySocket_table p sockfd) id
    by_cases hid : id = sockfd
    · subst hid
      exact .closes rfl (htable.trans (Function.update_self _ _ _))
    · exact .keeps (congrArg _ (htable.trans (Function.update_of_ne hid _ _)))
  case fileOpen => exact ⟨le_refl _, fun _ => .keeps rfl⟩
  case fileClose fd => exact ⟨le_refl _, fun _ => .keeps rfl⟩

/-- A number that names no socket, and is not the next, never will. -/
theorem NumberStep.none (h : NumberStep p a p' id) (hnone : p.getSocket id = none)
    (hne : id ≠ p.sNextId ∨ p'.sNextId ≤ id) : p'.getSocket id = none := by
  cases h with
  | keeps hfd =>
    rw [hnone] at hfd
    exact Option.map_eq_none_iff.mp hfd
  | closes _ hnone' => exact hnone'
  | makes hid hnext => omega

theorem sockfdOf_inj {id' : Nat} (h : id < 2 ^ 32) (h' : id' < 2 ^ 32)
    (he : sockfdOf id = sockfdOf id') : id = id' := by
  have hbits : BitVec.ofNat 32 id = BitVec.ofNat 32 id' := congrArg Int32.toBitVec he
  have hnat := congrArg BitVec.toNat hbits
  rwa [BitVec.toNat_ofNat, BitVec.toNat_ofNat, Nat.mod_eq_of_lt h, Nat.mod_eq_of_lt h'] at hnat

theorem Fresh.step (hp : Fresh p) (ht : p.Timed) (hstep : p.step a = some p') : Fresh p' := by
  obtain ⟨hle, hnumber⟩ := step_number ht hp hstep
  exact fun id hid => (hnumber id).none (hp id (hle.trans hid)) (Or.inr hid)

/-- In every run that makes no more than 2^32 sockets: a number that has not been handed out names
    no object; a number whose object was destroyed never names one again, and its `int` is not given
    to another one; an object keeps the number of its descriptor until it is closed by its own
    number; and what is not about an object leaves the object as it is. The descriptor itself can be
    closed by a FIN, and then stands for something else. -/
theorem numbers {fds : List Nat} (h : Reach Proc.step (fun _ _ => True) (Proc.init fds) p) :
    (∀ id, p.sNextId ≤ id → p.getSocket id = none) ∧
    (∀ id p', id < p.sNextId → p.getSocket id = none → Reach Proc.step (fun _ _ => True) p p' →
      p'.getSocket id = none ∧ (p'.sNextId ≤ 2 ^ 32 →
        ∀ id', p.sNextId ≤ id' → id' < p'.sNextId → sockfdOf id' ≠ sockfdOf id)) ∧
    (∀ id s p', p.getSocket id = some s → Reach Proc.step (fun _ a => a ≠ .close id) p p' →
      ∃ s', p'.getSocket id = some s' ∧ s'.ucpSocket_ = s.ucpSocket_) ∧
    ∀ id p', Reach Proc.step (fun p a => ¬ Concerns p id a) p p' →
      p'.getSocket id = p.getSocket id := by
  have hstart : p.Timed ∧ Fresh p := h.invariant (I := fun p => p.Timed ∧ Fresh p)
    ⟨timed_init fds, fun _ _ => rfl⟩
    fun _ _ _ h _ hstep => ⟨h.1.step hstep, h.2.step h.1 hstep⟩
  refine ⟨hstart.2, fun id p' hlt hnone h' => ?_, fun id s p' hs h' => ?_, fun id p' h' => ?_⟩
  · have hall := h'.invariant
      (I := fun p' => (p'.Timed ∧ Fresh p') ∧ id < p'.sNextId ∧ p'.getSocket id = none)
      ⟨hstart, hlt, hnone⟩ fun q a q' ⟨hq, hlt, hnone⟩ _ hstep => by
        obtain ⟨hle, hnumber⟩ := step_number hq.1 hq.2 hstep
        exact ⟨⟨hq.1.step hstep, hq.2.step hq.1 hstep⟩, hlt.trans_le hle,
          (hnumber id).none hnone (Or.inl hlt.ne)⟩
    refine ⟨hall.2.2, fun hle id' hge' hlt' he => ?_⟩
    have hid := sockfdOf_inj (hlt'.trans_le hle) (hall.2.1.trans_le hle) he
    omega
  · have hall := h'.invariant
      (I := fun p' => (p'.Timed ∧ Fresh p') ∧
        ∃ s', p'.getSocket id = some s' ∧ s'.ucpSocket_ = s.ucpSocket_)
      ⟨hstart, s, hs, rfl⟩ fun q a q' ⟨hq, s', hs', hfd⟩ hne hstep => by
        obtain ⟨_, hnumber⟩ := step_number hq.1 hq.2 hstep
        refine ⟨⟨hq.1.step hstep, hq.2.step hq.1 hstep⟩, ?_⟩
        cases hnumber id with
        | keeps hkeep =>
          rw [hs', Option.map_some, Option.map_eq_some_iff] at hkeep
          obtain ⟨s'', hs'', hfd''⟩ := hkeep
          exact ⟨s'', hs'', hfd''.trans hfd⟩
        | closes ha _ => exact absurd ha hne
        | makes hid _ => cases (hq.2 id hid.ge).symm.trans hs'
    exact hall.2
  · exact h'.invariant (I := fun p' => p'.getSocket id = p.getSocket id) rfl
      fun _ _ _ h hnot hstep => (step_other hstep hnot).trans h

end Numbers

/-- The first socket of a program that has three files open stays, while a second one comes and
    goes; the third one gets a number of its own. -/
theorem numbers_first : ∃ p' p'', Reach Proc.step (fun _ a => a ≠ .close 0)
    (Proc.init [0, 1, 2]).makeSocket p' ∧
    (∃ s', p'.getSocket 0 = some s' ∧ s'.ucpSocket_ = 3) ∧ p'.getSocket 1 = none ∧
    Reach Proc.step (fun _ _ => True) p' p'' ∧ p''.sNextId = 3 ∧ p''.getSocket 1 = none ∧
    sockfdOf 2 ≠ sockfdOf 1 := by
  let p' := (Proc.init [0, 1, 2]).makeSocket.makeSocket.destroySocket 1
  have hclosed : (Proc.init [0, 1, 2]).makeSocket.makeSocket.step (.close 1) = some p' := rfl
  have hrun : Reach Proc.step (fun _ a => a ≠ .close 0) (Proc.init [0, 1, 2]).makeSocket p' :=
    reach_head (a := .socket) ProcAct.noConfusion rfl
      (reach_step (fun h => Nat.one_ne_zero (ProcAct.close.inj h)) hclosed)
  have hall : Reach Proc.step (fun _ _ => True) (Proc.init [0, 1, 2]) p' :=
    reach_head (a := .socket) trivial rfl
      (reach_head (a := .socket) trivial rfl (reach_step trivial hclosed))
  have hthird : Reach Proc.step (fun _ _ => True) p' p'.makeSocket :=
    reach_step (a := .socket) trivial rfl
  obtain ⟨hnone, hint⟩ := (numbers hall).2.1 1 _ (by decide) rfl hthird
  exact ⟨p', _, hrun, (numbers (reach_step (a := .socket) trivial rfl)).2.2.1 0 _ _ rfl hrun, rfl,
    hthird, rfl, hnone, hint (by decide) 2 (by decide) (by decide)⟩

end Ece358.Rcs
