/-
  File:      Ece358/TransferEnd.lean
  Subject:   Whether the thread of the server ever returns.

  The FIN ends rcsRecv where it is read in the inner loop. Where it is read in finalizeRecv the
  socket closes, the receives fail with EBADF from then on, and the loop there never ends: what the
  buffer holds is never written.

  * `Trap` -- the thread in finalizeRecv, on a closed descriptor; no step leaves it;
  * `caught_forever` -- its file stays as it is, and misses the end of the stdin;
  * `Hopeless` -- an open socket, and no FIN on its way;
  * `can_quit_iff` -- from which states the thread can still return.
-/
import Ece358.TransferRun

namespace Ece358.Rcs

open Lib MsgT

/-! ## 1. The threads that return -/

/-- On a closed descriptor every receive fails with EBADF. -/
def reported (_ : Transfer) : TransferAct → Prop
  | .deaf _ o => o = .error .EBADF
  | _ => True

instance (t : Transfer) : DecidablePred (reported t)
  | .deaf _ o => inferInstanceAs (Decidable (o = _))
  | .read _ => isTrue trivial
  | .readEnds => isTrue trivial
  | .rcsRecv => isTrue trivial
  | .write _ => isTrue trivial
  | .net _ _ => isTrue trivial
  | .hear _ _ => isTrue trivial

/-- The thread returns in some continuation, because rcsRecv has returned 0. -/
def CanQuit (t : Transfer) : Prop := ∃ t', Reach Transfer.step reported t t' ∧ t'.service = .quit

/-- The thread is in finalizeRecv, and its descriptor is closed. -/
structure Trap (t : Transfer) : Prop where
  closing : t.net.b.sock.isClosing_ = true
  connected : t.net.b.sock.hasEndpoint_ = true
  service : t.service = .rcsRecv
  loop : ∃ ack response, t.net.b.pc = .finalizeRecv BUF_SIZE ack response ∧
    RcsT.startsNext response = false

/-- The thread's socket is closed, and it still is in rcsRecv. -/
def Transfer.caught (t : Transfer) : Bool := t.net.b.sock.isClosing_ && !t.net.b.pc.idle

section Trap

variable {t t' : Transfer} {act : TransferAct}

/-- No step leaves the trap, and none changes the file. -/
theorem Trap.step (h : Trap t) (hok : reported t act) (hm : Moved t act t') :
    Trap t' ∧ t'.file = t.file ∧ t'.net.b.sock.buffer_ = t.net.b.sock.buffer_ := by
  obtain ⟨ack, response, hpc, hn⟩ := h.loop
  have hbusy : t.net.b.pc.idle = false := by rw [hpc]; rfl
  cases hm with
  | read n a' ab' ba' hmain hact => exact ⟨{ h with }, rfl, rfl⟩
  | readEnds hmain hp => exact ⟨{ h with }, rfl, rfl⟩
  | rcsRecv b' ba' ab' hs hact => cases hs.symm.trans h.service
  | quit n hs hp => cases hp.symm.trans hpc
  | wrote bytes hs hne hp => cases hp.symm.trans hpc
  | tooFew n bytes hs hp => cases hp.symm.trans hpc
  | netA a a' ab' ba' hplain hact => exact ⟨{ h with }, rfl, rfl⟩
  | netB a b' ba' ab' hplain hact =>
    cases hact with
    | call c hp => cases hplain
    | receive errno d inc' hp hinc => cases hplain
    | timeout hp ht => simp [Transfer.plain, Transfer.sock, h.closing] at hplain
    | lose i hi => exact ⟨{ h with }, rfl, rfl⟩
    | cut i k d hd hk => exact ⟨{ h with }, rfl, rfl⟩
  | hearA errno d ba hopen hp hba => exact ⟨{ h with }, rfl, rfl⟩
  | hearB errno d ab hopen hp hab => cases hopen.symm.trans h.closing
  | deafA o hclosing hp => exact ⟨{ h with }, rfl, rfl⟩
  | deafB o hclosing hp =>
    obtain rfl : o = .error .EBADF := hok
    have hr := finalize_closed h.connected BUF_SIZE ack hn
    rw [hpc, hr]
    exact ⟨⟨h.closing, h.connected, h.service, ack, response, rfl, hn⟩, rfl, rfl⟩

theorem Trap.run (h : Trap t) (hrun : Reach Transfer.step reported t t') :
    Trap t' ∧ t'.file = t.file ∧ t'.net.b.sock.buffer_ = t.net.b.sock.buffer_ := by
  refine hrun.invariant (I := fun t' => Trap t' ∧ t'.file = t.file ∧
    t'.net.b.sock.buffer_ = t.net.b.sock.buffer_) ⟨h, rfl, rfl⟩ fun t1 act t2 h1 hok hs => ?_
  obtain ⟨h2, hfile, hbuf⟩ := h1.1.step hok (moved hs)
  exact ⟨h2, hfile.trans h1.2.1, hbuf.trans h1.2.2⟩

/-- A blocked rcsRecv of the thread. -/
theorem Running.blocked {stdin : List UInt8} (h : Running stdin t) (hp : t.net.b.pc.idle = false) :
    t.service = .rcsRecv ∧ RecvBlocked BUF_SIZE t.net.b.pc ∧
      t.file = (recvs t.net.b.record).flatten := by
  cases h.writing with
  | blocked hs hb hfile => exact ⟨hs, hb, hfile⟩
  | head _ hidle => cases hp.symm.trans hidle
  | returned _ _ hret =>
    rw [hret] at hp
    cases hp

/-- A datagram that is no FIN leaves the socket open. -/
theorem open_of_hears {s : RcsT} {pc : Pc} {L : Nat} {o : RecvFrom} (hb : RecvBlocked L pc)
    (ho : s.isClosing_ = false) (hfin : ¬ BringsFin o) :
    (resume s pc o).sock.isClosing_ = false := by
  rw [(stretch_resume hb s o).closing, Bool.eq_false_iff]
  intro hc
  rcases (rawrecv_rest s o).2.2.1.mp hc with hc | hc
  · cases ho.symm.trans hc
  · exact hfin hc

/-- The thread gets caught by a FIN in finalizeRecv only. -/
theorem Running.trap_step {stdin : List UInt8} (h : Running stdin t)
    (ht : t.caught = true → Trap t) (hok : reported t act) (hm : Moved t act t') :
    t'.caught = true → Trap t' := by
  intro hc
  have hc' : t'.net.b.sock.isClosing_ = true ∧ t'.net.b.pc.idle = false := by
    simpa [Transfer.caught] using hc
  -- the steps that leave the thread and its socket alone
  have hsame : t'.net.b = t.net.b → t'.service = t.service → Trap t' := by
    intro hb hs
    have htrap := ht (by rw [Transfer.caught, ← hb]; exact hc)
    rcases htrap with ⟨h1, h2, h3, h4⟩
    refine ⟨?_, ?_, hs.trans h3, ?_⟩ <;> rw [hb] <;> assumption
  obtain ⟨hclosing, hbusy⟩ := hc'
  cases hm with
  | read n a' ab' ba' hmain hact => exact hsame rfl rfl
  | readEnds hmain hp => exact hsame rfl rfl
  | rcsRecv b' ba' ab' hs hact =>
    exfalso
    cases hact with
    | call c hp =>
      cases hb : t.net.b.sock.isClosing_ with
      | true =>
        obtain ⟨s', ret, hstart, _⟩ := start_closing hb (.recv BUF_SIZE)
        have hpc : (start t.net.b.sock (.recv BUF_SIZE)).pc.idle = false := hbusy
        rw [hstart] at hpc
        cases hpc
      | false =>
        have hcl : (t.net.b.sock.recv BUF_SIZE).sock.isClosing_ = true := hclosing
        rw [(stretch_recv t.net.b.sock BUF_SIZE).closing, hb] at hcl
        cases hcl
  | quit n hs hp =>
    have hidle : t.net.b.pc.idle = false := hbusy
    rw [hp] at hidle
    cases hidle
  | wrote bytes hs hne hp =>
    have hidle : t.net.b.pc.idle = false := hbusy
    rw [hp] at hidle
    cases hidle
  | tooFew n bytes hs hp =>
    have hidle : t.net.b.pc.idle = false := hbusy
    rw [hp] at hidle
    cases hidle
  | netA a a' ab' ba' hplain hact => exact hsame rfl rfl
  | netB a b' ba' ab' hplain hact =>
    cases hact with
    | call c hp => cases hplain
    | receive errno d inc' hp hinc => cases hplain
    | timeout hp hticks =>
      have hopen : t.net.b.sock.isClosing_ = false := by
        simpa [Transfer.plain, Transfer.sock] using hplain
      have hstays := open_of_hears (h.blocked hp).2.1 hopen (o := .error .EAGAIN) id
      cases hstays.symm.trans hclosing
    | lose i hi => exact hsame rfl rfl
    | cut i k d hd hk => exact hsame rfl rfl
  | hearA errno d ba hopen hp hba => exact hsame rfl rfl
  | hearB errno d ab hopen hp hab =>
    obtain ⟨hs, hb, _⟩ := h.blocked hp
    by_cases hfin : IsFin d
    · rcases resume_fin hfin t.net.b.sock hp errno t.net.b.sock.endPoint_ with ⟨_, hl⟩ | ⟨_, hl⟩
      · obtain ⟨s', es, ret, hr, _⟩ := hl
        have hidle : (resume t.net.b.sock t.net.b.pc _).pc.idle = false := hbusy
        rw [hr] at hidle
        cases hidle
      · obtain ⟨hconnected, L, ack, response, hpc, hn⟩ := hl
        have hL : L = BUF_SIZE := by
          rcases (stretch_resume hb t.net.b.sock _).goes with ⟨hb', _⟩ | hret
          · rw [hpc] at hb'
            cases hb'
            rfl
          · cases hpc.symm.trans hret
        subst hL
        exact ⟨hclosing, hconnected, hs, ack, response, hpc, hn⟩
    · have hstays := open_of_hears hb hopen (o := .datagram errno d t.net.b.sock.endPoint_) hfin
      cases hstays.symm.trans hclosing
  | deafA o hcl hp => exact hsame rfl rfl
  | deafB o hcl hp =>
    have htrap := ht (by simp [Transfer.caught, hcl, hp])
    exact (htrap.step hok (.deafB o hcl hp)).1

end Trap
/-! ## 2. The two programs, where receives on a closed descriptor fail -/

/-- The thread is at work. -/
structure Working (stdin : List UInt8) (t : Transfer) : Prop where
  running : Running stdin t
  trap : t.caught = true → Trap t
  ticks : t.net.b.sock.timeout ≠ 0

/-- The thread has returned. -/
structure Over (t : Transfer) : Prop where
  service : t.service = .quit ∨ t.service = .tooFew
  idle : t.net.b.pc.idle = true

section Working

variable {t t' : Transfer} {act : TransferAct} {stdin : List UInt8} {n0 : Net}

/-- The timer of the server's socket stays on. -/
theorem Moved.ticks (hm : Moved t act t') (ht : t.net.b.sock.timeout ≠ 0) :
    t'.net.b.sock.timeout ≠ 0 := by
  cases hm with
  | rcsRecv b' ba' ab' hs hact => exact hact.ticks ht
  | netB a b' ba' ab' hplain hact => exact hact.ticks ht
  | hearB errno d ab hopen hp hab => exact ticks_resume ht _ _
  | deafB o hclosing hp => exact ticks_resume ht _ _
  | _ => exact ht

/-- A thread that has returned does not come back. -/
theorem Over.step (h : Over t) (hm : Moved t act t') : Over t' := by
  obtain ⟨hs, hidle⟩ := h
  cases hm with
  | rcsRecv b' ba' ab' hloop hact => rcases hs with hs | hs <;> cases hs.symm.trans hloop
  | wrote bytes hrecv hne hp => rcases hs with hs | hs <;> cases hs.symm.trans hrecv
  | quit n hrecv hp => exact ⟨Or.inl rfl, hidle⟩
  | tooFew n bytes hrecv hp => exact ⟨Or.inr rfl, hidle⟩
  | netB a b' ba' ab' hplain hact =>
    cases hact with
    | call c hp => cases hplain
    | timeout hp ht => cases hp.symm.trans hidle
    | receive errno d inc' hp hinc => cases hplain
    | lose i hi => exact ⟨hs, hidle⟩
    | cut i k d hd hk => exact ⟨hs, hidle⟩
  | hearB errno d ab hopen hp hab => cases hp.symm.trans hidle
  | deafB o hclosing hp => cases hp.symm.trans hidle
  | _ => exact ⟨hs, hidle⟩

theorem Running.service (h : Running stdin t) : t.service = .loop ∨ t.service = .rcsRecv := by
  cases h.writing with
  | head hs => exact Or.inl hs
  | blocked hs => exact Or.inr hs
  | returned _ hs => exact Or.inr hs

/-- The thread returns behind rcsRecv only. -/
theorem Running.returns (h : Running stdin t) (hm : Moved t act t')
    (hs : t'.service = .quit ∨ t'.service = .tooFew) : Over t' := by
  have hstays : t'.service ≠ t.service := by
    intro he
    rw [he] at hs
    rcases h.service with hs' | hs' <;> rcases hs with hs | hs <;> cases hs.symm.trans hs'
  cases hm with
  | rcsRecv b' ba' ab' hloop hact => rcases hs with hs | hs <;> cases hs
  | quit n hrecv hp => exact ⟨hs, show t.net.b.pc.idle = true by rw [hp]; rfl⟩
  | wrote bytes hrecv hne hp => rcases hs with hs | hs <;> cases hs
  | tooFew n bytes hrecv hp => exact ⟨hs, show t.net.b.pc.idle = true by rw [hp]; rfl⟩
  | _ => exact absurd rfl hstays

theorem Working.step (h : Working stdin t) (hok : reported t act) (hm : Moved t act t') :
    Working stdin t' ∨ Over t' := by
  rcases h.running.step hm with hr | hf
  · exact Or.inl ⟨hr, h.running.trap_step h.trap hok hm, hm.ticks h.ticks⟩
  · exact Or.inr (h.running.returns hm
      (hf.file.imp And.left And.left))

theorem working_init (h0 : Connected n0) : Working stdin (.init n0 stdin) where
  running := by
    rcases running_or_finished h0 .refl with h | h
    · exact h
    · rcases h.file with ⟨hs, _⟩ | ⟨hs, _⟩ <;> cases hs
  trap := fun hc => by
    have hopen : (n0.b.sock.isClosing_ && !n0.b.pc.idle) = true := hc
    rw [h0.openB.notClosing] at hopen
    cases hopen
  ticks := h0.ticksB

theorem working_or_over (h : Working stdin t) (hrun : Reach Transfer.step reported t t') :
    Working stdin t' ∨ Over t' := by
  refine hrun.invariant (I := fun t => Working stdin t ∨ Over t) (Or.inl h)
    fun t1 act t2 h1 hok hs => ?_
  rcases h1 with h1 | h1
  · exact h1.step hok (moved hs)
  · exact Or.inr (h1.step (moved hs))

/-- What the thread has not written is in the buffer of its socket, or the client has not read
    it. -/
theorem Trap.rest (htrap : Trap t) (h : Running stdin t) :
    t.main = .closed ∧ t.file ++ t.net.b.sock.buffer_.unread.flatten ++ t.input = stdin := by
  obtain ⟨ack, response, hpc, _⟩ := htrap.loop
  obtain ⟨_, _, hfile⟩ := h.blocked (by rw [hpc]; rfl)
  obtain ⟨hmain, _, hd⟩ := h.phase.drained_of_closing htrap.closing
  refine ⟨hmain, ?_⟩
  rw [hfile, hd.bytes]
  exact h.input

/-- A thread that is in rcsRecv when its socket is closed stays there for ever, as long as nobody
    else gets its descriptor: in no continuation does it write a byte more, and what its buffer
    holds is lost. -/
theorem caught_forever (h0 : Connected n0)
    (h : Reach Transfer.step reported (.init n0 stdin) t) (hc : t.caught = true)
    (h' : Reach Transfer.step reported t t') :
    t'.caught = true ∧ t'.service = .rcsRecv ∧ t'.file = t.file ∧
      t.file ++ t.net.b.sock.buffer_.unread.flatten ++ t.input = stdin := by
  rcases working_or_over (working_init h0) h with hw | hover
  · have htrap := hw.trap hc
    obtain ⟨htrap', hfile, _⟩ := htrap.run h'
    obtain ⟨ack, response, hpc, _⟩ := htrap'.loop
    refine ⟨?_, htrap'.service, hfile, (htrap.rest hw.running).2⟩
    rw [Transfer.caught, htrap'.closing, hpc]
    rfl
  · have hidle : (t.net.b.sock.isClosing_ && !t.net.b.pc.idle) = true := hc
    rw [hover.idle, Bool.not_true, Bool.and_false] at hidle
    cases hidle

end Working

/-- A run in which the FIN of a file of one byte is read in finalizeRecv. -/
def finTooSoon : List TransferAct :=
  [.read 1, .rcsRecv, .hear .B .EAGAIN, .hear .A .EAGAIN, .hear .B .EAGAIN, .hear .A .EAGAIN,
   .readEnds, .hear .B .EAGAIN]

theorem caught_finTooSoon : ∃ t, Reach Transfer.step reported (.init Net.pair [97]) t ∧
    t.caught = true ∧ ∀ t', Reach Transfer.step reported t t' → t'.file = [] := by
  have hrun : ((exec Transfer.step reported (.init Net.pair [97]) finTooSoon).map
      fun t => (t.caught, t.file)) = some (true, []) := by
    decide +kernel
  obtain ⟨t, ht, hres⟩ := Option.map_eq_some_iff.mp hrun
  have hreach := reach_of_exec ht
  have hcaught := congrArg Prod.fst hres
  refine ⟨t, hreach, hcaught, fun t' h' => ?_⟩
  obtain ⟨_, _, hfile, _⟩ := caught_forever connected_pair hreach hcaught h'
  exact hfile.trans (congrArg Prod.snd hres)

/-! ## 3. The threads that never return -/

/-- The client has closed, no FIN of it is on its way, and the server's socket is open. -/
structure Hopeless (t : Transfer) : Prop where
  closed : t.main = .closed
  opened : t.net.b.sock.isClosing_ = false
  noFin : finWire ∉ t.net.ab
  service : t.service ≠ .quit

section Hopeless

variable {t t' : Transfer} {act : TransferAct} {stdin : List UInt8} {a : Act}
  {e e' : Endpoint} {out inc out' inc' : List (List UInt8)} {d : List UInt8}

/-- Of a message that carries no FIN no piece is one. -/
theorem SentAs.not_fin {m : MsgT} (h : SentAs d m) : ¬ IsFin d := fun hf =>
  absurd ((h.noFinHere hf.1).symm.trans hf.2) Bool.false_ne_true

/-- What is on its way from a client that has closed. -/
theorem Phase.on_the_way (h : Phase t) (hmain : t.main = .closed)
    (hopen : t.net.b.sock.isClosing_ = false) (hd : d ∈ t.net.ab) :
    (∃ m, SentAs d m) ∨ d <+: finWire := by
  cases h with
  | sending hmain' => cases hmain.symm.trans hmain'
  | drained _ _ hd' => cases hd'.closing.symm.trans hopen
  | closed _ _ client data fins hI hclient hsends hab hfins =>
    rw [hab] at hd
    rcases List.mem_append.mp hd with hd | hd
    · obtain ⟨done, D, K, c, old, ks, ms, hI⟩ := hI
      obtain ⟨m, _, hm⟩ := carries_mem_message hI.ab.flip hd
      exact Or.inl ⟨m, hm⟩
    · exact Or.inr (hfins d hd)

/-- The only FIN among it is a whole one. -/
theorem Phase.fin_only (h : Phase t) (hmain : t.main = .closed)
    (hopen : t.net.b.sock.isClosing_ = false) (hd : d ∈ t.net.ab) (hfin : IsFin d) :
    d = finWire := by
  rcases h.on_the_way hmain hopen hd with ⟨m, hm⟩ | hpiece
  · exact absurd hfin hm.not_fin
  · rcases fin_piece hpiece with rfl | hno
    · rfl
    · cases hno.symm.trans hfin.1

/-- What is cut is no FIN. -/
theorem Phase.fin_of_cut (h : Phase t) (hmain : t.main = .closed)
    (hopen : t.net.b.sock.isClosing_ = false) (hd : d ∈ t.net.ab) {k : Nat} (hk : k < d.length) :
    d.take k ≠ finWire := by
  intro he
  rcases h.on_the_way hmain hopen hd with ⟨m, hm⟩ | hpiece
  · exact (hm.take k).not_fin (he ▸ isFin_finWire)
  · have hle := hpiece.length_le
    rw [← he, List.length_take] at hle
    omega

/-- No FIN gets on its way. -/
theorem Hopeless.step (h : Hopeless t) (hr : Running stdin t) (hm : Moved t act t') :
    Hopeless t' ∨ t'.service = .tooFew := by
  have hidle := hr.phase.client_idle h.closed
  obtain ⟨hmain, hopen, hno, hservice⟩ := h
  cases hm with
  | read n a' ab' ba' hloop hact => cases hmain.symm.trans hloop
  | readEnds hloop hp => cases hmain.symm.trans hloop
  | rcsRecv b' ba' ab' hs hact =>
    cases hact with
    | call c hp =>
      refine Or.inl ⟨hmain, ?_, hno, fun hs => by cases hs⟩
      exact (stretch_recv t.net.b.sock BUF_SIZE).closing.trans hopen
  | quit n hs hp =>
    have hclosing : t.net.b.sock.isClosing_ = true := by
      cases hr.writing with
      | head hs' => cases hs.symm.trans hs'
      | blocked _ hb =>
        have hbusy := hb.not_idle
        rw [hp] at hbusy
        cases hbusy
      | returned bytes _ hp' _ hnil =>
        rw [hp] at hp'
        injection hp' with hp'
        injection hp' with hp'
        exact (hnil hp'.symm).1
    cases hclosing.symm.trans hopen
  | wrote bytes hs hne hp => exact Or.inl ⟨hmain, hopen, hno, fun hs => by cases hs⟩
  | tooFew n bytes hs hp => exact Or.inr rfl
  | netA a a' ab' ba' hplain hact =>
    refine Or.inl ⟨hmain, hopen, ?_, hservice⟩
    cases hact with
    | call c hp => cases hplain
    | receive errno d inc' hp hinc => cases hplain
    | timeout hp ht => cases hp.symm.trans hidle
    | lose i hi => exact fun hd => hno ((List.eraseIdx_sublist _ i).subset hd)
    | cut i k d hd hk =>
      intro hfin
      rcases List.mem_or_eq_of_mem_set hfin with hfin | hfin
      · exact hno hfin
      · exact hr.phase.fin_of_cut hmain hopen (List.mem_of_getElem? hd) hk hfin.symm
  | netB a b' ba' ab' hplain hact =>
    left
    cases hact with
    | call c hp => cases hplain
    | receive errno d inc' hp hinc => cases hplain
    | timeout hp ht =>
      exact ⟨hmain, open_of_hears (hr.blocked hp).2.1 hopen (o := .error .EAGAIN) id, hno,
        hservice⟩
    | lose i hi => exact ⟨hmain, hopen, hno, hservice⟩
    | cut i k d hd hk => exact ⟨hmain, hopen, hno, hservice⟩
  | hearA errno d ba _ hp hba => cases hp.symm.trans hidle
  | hearB errno d ab _ hp hab =>
    have hd : d ∈ t.net.ab := hab ▸ List.mem_cons_self
    have hfin : ¬ IsFin d := fun hfin =>
      hno (hr.phase.fin_only hmain hopen hd hfin ▸ hd)
    refine Or.inl ⟨hmain, open_of_hears (hr.blocked hp).2.1 hopen hfin, fun hrest => hno ?_,
      hservice⟩
    rw [hab]
    exact List.mem_cons_of_mem d hrest
  | deafA o _ hp => cases hp.symm.trans hidle
  | deafB o hclosing hp => cases hclosing.symm.trans hopen

theorem Moved.tooFew_stays (hm : Moved t act t') (h : t.service = .tooFew) :
    t'.service = .tooFew := by
  cases hm with
  | rcsRecv b' ba' ab' hs hact => cases hs.symm.trans h
  | quit n hs hp => cases hs.symm.trans h
  | wrote bytes hs hne hp => cases hs.symm.trans h
  | tooFew n bytes hs hp => rfl
  | _ => exact h

/-- Without a FIN the thread returns in no continuation, unless write() writes too few. -/
theorem Hopeless.not_canQuit (h : Hopeless t) (hw : Working stdin t) : ¬ CanQuit t := by
  rintro ⟨t', hrun, hquit⟩
  have hall : (Working stdin t' ∧ Hopeless t') ∨ t'.service = .tooFew := by
    refine hrun.invariant (I := fun t' => (Working stdin t' ∧ Hopeless t') ∨
      t'.service = .tooFew) (Or.inl ⟨hw, h⟩) fun t1 act t2 h1 hok hs => ?_
    have hm := moved hs
    rcases h1 with ⟨h1, h2⟩ | h1
    · rcases h2.step h1.running hm with h3 | h3
      · rcases h1.step hok hm with h4 | h4
        · exact Or.inl ⟨h4, h3⟩
        · exact Or.inr (h4.service.resolve_left h3.service)
      · exact Or.inr h3
    · exact Or.inr (hm.tooFew_stays h1)
  rcases hall with ⟨_, h2⟩ | h2
  · exact h2.service hquit
  · cases hquit.symm.trans h2

end Hopeless

/-! ## 4. The threads that can return -/

section CanQuit

variable {t t' : Transfer} {a : TransferAct} {stdin : List UInt8} {L : Nat}

theorem CanQuit.of_reach (h : CanQuit t') (hrun : Reach Transfer.step reported t t') :
    CanQuit t := by
  obtain ⟨t'', hrun', hquit⟩ := h
  exact ⟨t'', hrun.trans hrun', hquit⟩

/-- A step behind which the thread is at work. -/
theorem Working.keeps (h : Working stdin t) (hok : reported t a) (hs : t.step a = some t')
    (hservice : t'.service = .loop ∨ t'.service = .rcsRecv) : Working stdin t' := by
  rcases h.step hok (moved hs) with h' | h'
  · exact h'
  · rcases h'.service with hq | hq <;> rcases hservice with hw | hw <;> cases hq.symm.trans hw

/-- The thread calls rcsRecv. -/
theorem step_rcsRecv (hs : t.service = .loop) (hp : t.net.b.pc.idle = true) :
    t.step .rcsRecv = some { t with
      service := .rcsRecv
      net := ⟨t.net.a,
        t.net.b.went [.called (.recv BUF_SIZE)] (start t.net.b.sock (.recv BUF_SIZE)), t.net.ab,
        t.net.ba ++ (start t.net.b.sock (.recv BUF_SIZE)).datagrams⟩ } := by
  have hstep := Acts.stepB (n := t.net) (.call (.recv BUF_SIZE) hp)
  show (if t.service = .loop then _ else none) = _
  rw [if_pos hs, hstep]
  rfl

/-- The thread writes what rcsRecv returned, and is back at the head of its loop. -/
theorem step_wrote {bytes : List UInt8} (hs : t.service = .rcsRecv)
    (hp : t.net.b.pc = .returned (.recv bytes)) (hne : bytes ≠ []) :
    t.step (.write bytes.length) =
      some { t with service := .loop, file := t.file ++ bytes } := by
  show t.serviceWrite bytes.length = _
  rw [Transfer.serviceWrite, hs, hp]
  simp [hne]

theorem quits_of_nothing (hs : t.service = .rcsRecv) (hp : t.net.b.pc = .returned (.recv [])) :
    CanQuit t := by
  have hstep : t.step (.write 0) =
      some { t with service := .quit, net := t.net.swap.rcsCloseA.swap } := by
    show t.serviceWrite 0 = _
    rw [Transfer.serviceWrite, hs, hp]
    rfl
  exact ⟨_, reach_step (a := .write 0) trivial hstep, rfl⟩

/-- A thread behind rcsRecv, or at the head of its loop. -/
theorem Running.returned_of_idle (h : Running stdin t) (hs : t.service = .rcsRecv)
    (hp : t.net.b.pc.idle = true) : ∃ bytes, t.net.b.pc = .returned (.recv bytes) := by
  cases h.writing with
  | head hs' => cases hs.symm.trans hs'
  | blocked _ hb => cases hb.not_idle.symm.trans hp
  | returned bytes _ hp' => exact ⟨bytes, hp'⟩

/-- On a closed socket rcsRecv returns at once, and in the end 0. -/
theorem Working.quits_of_closed (h : Working stdin t) (hc : t.net.b.sock.isClosing_ = true)
    (hp : t.net.b.pc.idle = true) : CanQuit t := by
  -- every call takes the file nearer to what was sent
  induction hk : (sends t.net.a.record).flatten.length - t.file.length using Nat.strong_induction_on
    generalizing t with
  | _ k ih =>
    have hreturned : ∀ t1, Working stdin t1 → t1.net.b.sock.isClosing_ = true →
        t1.net.b.pc.idle = true → t1.service = .rcsRecv →
        (sends t1.net.a.record).flatten.length - t1.file.length = k → CanQuit t1 := by
      intro t1 h1 hc1 hp1 hs1 hk1
      obtain ⟨bytes, hret⟩ := h1.running.returned_of_idle hs1 hp1
      by_cases hne : bytes = []
      · exact quits_of_nothing hs1 (hne ▸ hret)
      · have hstep := step_wrote hs1 hret hne
        have hnext := h1.keeps (a := .write bytes.length) trivial hstep (Or.inl rfl)
        have hle := hnext.running.phase.recvs_isPrefix.length_le
        have hfile := (h1.running.returned hs1 hret).1
        have hpos := List.length_pos_iff.mpr hne
        refine (ih _ ?_ hnext hc1 hp1 rfl).of_reach (reach_step (a := .write _) trivial hstep)
        have hlen : (t1.file ++ bytes).length = (recvs t1.net.b.record).flatten.length := by
          rw [hfile]
        rw [List.length_append] at hlen
        show (sends t1.net.a.record).flatten.length - (t1.file ++ bytes).length < k
        have hle' : (recvs t1.net.b.record).flatten.length ≤
          (sends t1.net.a.record).flatten.length := hle
        rw [List.length_append]
        omega
    rcases h.running.service with hs | hs
    · have hstep := step_rcsRecv hs hp
      obtain ⟨s', ret, hstart, hc', _⟩ := start_closing hc (.recv BUF_SIZE)
      have hnext := h.keeps (a := .rcsRecv) trivial hstep (Or.inr rfl)
      refine (hreturned _ hnext ?_ ?_ rfl hk).of_reach (reach_step (a := .rcsRecv) trivial hstep)
      · show (start t.net.b.sock (.recv BUF_SIZE)).sock.isClosing_ = true
        rw [hstart]
        exact hc'
      · show (start t.net.b.sock (.recv BUF_SIZE)).pc.idle = true
        rw [hstart]
        rfl
    · exact hreturned t h hc hp hs hk

/-- The server receives the oldest datagram. -/
theorem step_hearB {d : List UInt8} {ab : List (List UInt8)} (errno : Errno)
    (hopen : t.net.b.sock.isClosing_ = false) (hp : t.net.b.pc.idle = false)
    (hab : t.net.ab = d :: ab) :
    t.step (.hear .B errno) = some { t with
      net := ⟨t.net.a, t.net.b.went [] (t.net.b.heard errno d), ab,
        t.net.ba ++ (t.net.b.heard errno d).leaving⟩ } := by
  obtain ⟨⟨a, b, ab', ba⟩, main, input, service, file⟩ := t
  obtain rfl : ab' = d :: ab := hab
  have hopen : b.sock.isClosing_ = false := hopen
  have hp : b.pc.idle = false := hp
  simp [Transfer.step, Transfer.onNet, Net.hearA, Net.swap, hopen, hp]

/-- The client has closed, and the server's socket is open. -/
structure AwaitsFin (stdin : List UInt8) (t : Transfer) : Prop where
  working : Working stdin t
  closed : t.main = .closed
  opened : Open t.net.b.sock

/-- A FIN that is read in the inner loop of rcsRecv lets the thread return; what is on its way in
    front of it may get lost. -/
theorem AwaitsFin.quits (h : AwaitsFin stdin t) (hpc : t.net.b.pc = .recvLoop L)
    {ds fins : List (List UInt8)} (hab : t.net.ab = ds ++ finWire :: fins) : CanQuit t := by
  have hbusy : t.net.b.pc.idle = false := by
    rw [hpc]
    rfl
  induction ds generalizing t with
  | nil =>
    have hstep := step_hearB (.other 0) h.opened.notClosing hbusy hab
    have hservice := (h.working.running.blocked hbusy).1
    have hnext := h.working.keeps (a := .hear .B (.other 0)) trivial hstep (Or.inr hservice)
    rcases recv_fin isFin_finWire t.net.b.sock L (.other 0) t.net.b.sock.endPoint_ with
      ⟨_, s', es, ret, hr, hc, _⟩ | ⟨heos, _⟩
    · rw [← hpc] at hr
      refine (hnext.quits_of_closed ?_ ?_).of_reach
        (reach_step (a := .hear .B (.other 0)) trivial hstep)
      · show (resume t.net.b.sock t.net.b.pc _).sock.isClosing_ = true
        rw [hr]
        exact hc
      · show (resume t.net.b.sock t.net.b.pc _).pc.idle = true
        rw [hr]
        rfl
    · rw [finWire, ofDatagram_wire built_fin, hasFlag_control] at heos
      cases heos
  | cons d ds ih =>
    have hstep : t.step (.net .A (.lose 0)) = some { t with
        net := ⟨t.net.a, t.net.b, ds ++ finWire :: fins, t.net.ba⟩ } := by
      have hlose := Acts.stepA (n := t.net) (.lose 0 (by rw [hab]; exact Nat.succ_pos _))
      show t.onNet (t.net.step (.A, .lose 0)) = _
      rw [hlose, hab]
      rfl
    have hservice := (h.working.running.blocked hbusy).1
    have hnext := h.working.keeps (a := .net .A (.lose 0)) trivial hstep (Or.inr hservice)
    exact (ih ⟨hnext, h.closed, h.opened⟩ hpc rfl hbusy).of_reach
      (reach_step (a := .net .A (.lose 0)) trivial hstep)

/-- The thread can get to the inner loop of rcsRecv, and nothing on its way to it is touched. -/
def Listens (stdin : List UInt8) (t : Transfer) : Prop :=
  ∃ t' L, Reach Transfer.step reported t t' ∧ AwaitsFin stdin t' ∧ t'.net.b.pc = .recvLoop L ∧
    t'.net.ab = t.net.ab

theorem Listens.of_step (h : Listens stdin t') (hok : reported t a) (hs : t.step a = some t')
    (hab : t'.net.ab = t.net.ab) : Listens stdin t := by
  obtain ⟨t'', L, hrun, hw, hpc, hab'⟩ := h
  exact ⟨t'', L, (reach_step hok hs).trans hrun, hw, hpc, hab'.trans hab⟩

theorem AwaitsFin.listens_of_head (h : AwaitsFin stdin t) (hs : t.service = .loop)
    (hp : t.net.b.pc.idle = true) : Listens stdin t := by
  have hstep := step_rcsRecv hs hp
  have hnext := h.working.keeps (a := .rcsRecv) trivial hstep (Or.inr rfl)
  rw [recv_start h.opened] at hstep hnext
  refine Listens.of_step ⟨_, BUF_SIZE, .refl, ⟨hnext, h.closed, ?_⟩, rfl, rfl⟩
    (a := .rcsRecv) trivial hstep rfl
  exact ⟨h.opened.notClosing, h.opened.connected⟩

theorem AwaitsFin.listens_of_idle (h : AwaitsFin stdin t) (hp : t.net.b.pc.idle = true) :
    Listens stdin t := by
  cases h.working.running.writing with
  | head hs => exact h.listens_of_head hs hp
  | blocked _ hb => cases hb.not_idle.symm.trans hp
  | returned bytes hs hret _ hnil =>
    have hne : bytes ≠ [] := fun he => by cases (hnil he).1.symm.trans h.opened.notClosing
    have hstep := step_wrote hs hret hne
    have hnext := h.working.keeps (a := .write bytes.length) trivial hstep (Or.inl rfl)
    exact (AwaitsFin.listens_of_head ⟨hnext, h.closed, h.opened⟩ rfl hp).of_step
      (a := .write bytes.length) trivial hstep rfl

theorem AwaitsFin.listens (h : AwaitsFin stdin t) : Listens stdin t := by
  cases hp : t.net.b.pc.idle with
  | true => exact h.listens_of_idle hp
  | false =>
    obtain ⟨hs, hb, _⟩ := h.working.running.blocked hp
    generalize hpc : t.net.b.pc = pc at hb
    cases hb with
    | loop => exact ⟨t, BUF_SIZE, .refl, h, hpc, rfl⟩
    | finalize v response =>
      have hstep : t.step (.net .B .timeout) = some { t with
          net := ⟨t.net.a, t.net.b.went [] (t.net.b.sock.finalizeEnd BUF_SIZE), t.net.ab,
            t.net.ba ++ (t.net.b.sock.finalizeEnd BUF_SIZE).datagrams⟩ } := by
        have hnet := Acts.stepB (n := t.net) (.timeout hp h.working.ticks)
        rw [hpc, finalize_timeout h.opened] at hnet
        have hplain : t.plain .B .timeout = true := by
          simp [Transfer.plain, Transfer.sock, h.opened.notClosing]
        show (if t.plain .B .timeout then _ else none) = _
        rw [if_pos hplain, hnet]
        rfl
      have hnext := h.working.keeps (a := .net .B .timeout) trivial hstep (Or.inr hs)
      refine Listens.of_step ?_ (a := .net .B .timeout) trivial hstep rfl
      rcases finalizeEnd_cases h.opened BUF_SIZE with ⟨_, hr⟩ | ⟨_, hr⟩ <;> rw [hr] at hnext ⊢
      · exact ⟨_, BUF_SIZE, .refl, ⟨hnext, h.closed, ⟨h.opened.notClosing, h.opened.connected⟩⟩,
          rfl, rfl⟩
      · exact AwaitsFin.listens_of_idle
          ⟨hnext, h.closed, ⟨h.opened.notClosing, h.opened.connected⟩⟩ rfl

end CanQuit

/-! ## 5. The result -/

/-- When the client has closed, a thread that is at work can still return because of a 0 if and only
    if it is not caught behind the FIN, and its socket is closing already, or a FIN that was neither
    lost nor cut is on its way. -/
theorem can_quit_iff {n0 : Net} {stdin : List UInt8} {t : Transfer} (h0 : Connected n0)
    (h : Reach Transfer.step reported (.init n0 stdin) t) (hmain : t.main = .closed)
    (hs : t.service = .loop ∨ t.service = .rcsRecv) :
    CanQuit t ↔ t.caught = false ∧ (t.net.b.sock.isClosing_ = true ∨ finWire ∈ t.net.ab) := by
  have hw : Working stdin t := by
    rcases working_or_over (working_init h0) h with hw | hover
    · exact hw
    · rcases hover.service with hq | hq <;> rcases hs with hs | hs <;> cases hq.symm.trans hs
  constructor
  · intro hquit
    cases hcaught : t.caught with
    | true =>
      obtain ⟨t', hrun, hq⟩ := hquit
      cases (caught_forever h0 h hcaught hrun).2.1.symm.trans hq
    | false =>
      refine ⟨rfl, ?_⟩
      by_contra hno
      rw [not_or, Bool.not_eq_true] at hno
      have hservice : t.service ≠ .quit := by
        rcases hs with hs | hs <;> rw [hs] <;> exact Service.noConfusion
      exact Hopeless.not_canQuit ⟨hmain, hno.1, hno.2, hservice⟩ hw hquit
  · rintro ⟨hcaught, hfin⟩
    cases hclosing : t.net.b.sock.isClosing_ with
    | true =>
      refine hw.quits_of_closed hclosing ?_
      rw [Transfer.caught, hclosing] at hcaught
      simpa using hcaught
    | false =>
      rw [hclosing] at hfin
      obtain ⟨ds, fins, hab⟩ := List.append_of_mem (hfin.resolve_left Bool.false_ne_true)
      have hopen : Open t.net.b.sock := by
        cases hw.running.phase with
        | sending _ hI => exact hI.openB
        | closed _ _ client data fins hI => exact hI.openB
        | drained _ _ hd => cases hd.closing.symm.trans hclosing
      obtain ⟨t', L, hrun, hw', hpc, hab'⟩ := AwaitsFin.listens ⟨hw, hmain, hopen⟩
      exact (hw'.quits hpc (hab'.trans hab)).of_reach hrun

/-- A stdin that ended before a byte was read, and the file of one byte whose FIN came too soon. -/
theorem can_quit_finTooSoon :
    (∃ t, Reach Transfer.step reported (.init Net.pair []) t ∧ t.main = .closed ∧ CanQuit t) ∧
      ∃ t, Reach Transfer.step reported (.init Net.pair [97]) t ∧ t.main = .closed ∧
        ¬ CanQuit t := by
  constructor
  · have hrun : ((exec Transfer.step reported (.init Net.pair []) [.readEnds]).map fun t =>
        (t.main, t.service, t.caught, decide (finWire ∈ t.net.ab))) =
        some (.closed, .loop, false, true) := by
      decide +kernel
    obtain ⟨t, ht, hres⟩ := Option.map_eq_some_iff.mp hrun
    simp only [Prod.mk.injEq, decide_eq_true_eq] at hres
    obtain ⟨hmain, hs, hcaught, hfin⟩ := hres
    have hreach := reach_of_exec ht
    exact ⟨t, hreach, hmain, (can_quit_iff connected_pair hreach hmain (Or.inl hs)).mpr
      ⟨hcaught, Or.inr hfin⟩⟩
  · have hrun : ((exec Transfer.step reported (.init Net.pair [97]) finTooSoon).map
        fun t => (t.main, t.service, t.caught)) = some (.closed, .rcsRecv, true) := by
      decide +kernel
    obtain ⟨t, ht, hres⟩ := Option.map_eq_some_iff.mp hrun
    simp only [Prod.mk.injEq] at hres
    obtain ⟨hmain, hs, hcaught⟩ := hres
    have hreach := reach_of_exec ht
    refine ⟨t, hreach, hmain, fun hquit => ?_⟩
    cases hcaught.symm.trans
      ((can_quit_iff connected_pair hreach hmain (Or.inr hs)).mp hquit).1

end Ece358.Rcs
