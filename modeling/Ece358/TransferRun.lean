/-
  File:      Ece358/TransferRun.lean
  Subject:   What the file of the server holds, at any moment.

  * `Running`, `Finished` -- the invariant, while the thread is at work and when it has returned;
  * `Phase.net_closed`, `Phase.hearB` -- the two steps that concern a client that has closed: its
    FINs get lost or cut, or one of them is read;
  * `Running.step`, `Finished.step` -- every step keeps the invariant;
  * `transfer_delivers` -- the file is the start of the stdin, and all of it behind a 0.
-/
import Ece358.Transfer

namespace Ece358.Rcs

open Lib MsgT

/-! ## 1. Invariants -/

/-- What the two programs keep while the thread is at work. -/
structure Running (stdin : List UInt8) (t : Transfer) : Prop where
  input : (sends t.net.a.record).flatten ++ t.input = stdin
  phase : Phase t
  writing : Writing t.service t.file t.net.b

/-- What holds when the thread has returned. -/
structure Finished (stdin : List UInt8) (t : Transfer) : Prop where
  input : (sends t.net.a.record).flatten ++ t.input = stdin
  file : (t.service = .quit ∧ t.main = .closed ∧ t.file = (sends t.net.a.record).flatten) ∨
    (t.service = .tooFew ∧ t.file <+: (sends t.net.a.record).flatten)

/-! ## 2. Steps -/

section Steps

variable {t t' : Transfer} {act : TransferAct} {stdin : List UInt8} {n : Net}
  {e e' : Endpoint} {out inc out' inc' : List (List UInt8)} {r : Res} {a : Act}

theorem sends_entries (r : Res) : sends r.entries = [] := by
  have hdid : sends (r.out.map .did) = [] := by
    rw [sends, List.filterMap_map, List.filterMap_eq_nil_iff]
    exact fun _ _ => rfl
  rw [Res.entries, sends_append, hdid]
  split <;> rfl

theorem sends_went (e : Endpoint) (r : Res) : sends (e.went [] r).record = sends e.record := by
  rw [went_record, sends_append, sends_append, sends_entries]
  simp

theorem OneWayAt.stepA (h : OneWayAt n) (hok : oneWay n (.A, a))
    (hact : Acts n.a n.ab n.ba a e' out' inc') : OneWayAt ⟨e', n.b, out', inc'⟩ := by
  obtain ⟨done, D, K, c, old, ks, ms, h⟩ := h
  exact h.stepA hok hact

theorem OneWayAt.stepB (h : OneWayAt n) (hok : oneWay n (.B, a))
    (hact : Acts n.b n.ba n.ab a e' out' inc') : OneWayAt ⟨n.a, e', inc', out'⟩ := by
  obtain ⟨done, D, K, c, old, ks, ms, h⟩ := h
  exact h.stepB hok hact

/-- What neither calls nor receives leaves the channel towards it alone. -/
theorem Acts.reroute (h : Acts e out inc a e' out' inc') (side : Side)
    (ht : t.plain side a = true) :
    inc' = inc ∧ sends e'.record = sends e.record ∧
      ∀ inc2, Acts e out inc2 a e' out' inc2 := by
  cases h with
  | call c hp => cases ht
  | receive errno d inc' hp hinc => cases ht
  | timeout hp hticks => exact ⟨rfl, sends_went e _, fun _ => .timeout hp hticks⟩
  | lose i hi => exact ⟨rfl, rfl, fun _ => .lose i hi⟩
  | cut i k d hd hk => exact ⟨rfl, rfl, fun _ => .cut i k d hd hk⟩

theorem oneWay_plain (n : Net) (side side' : Side) (ht : t.plain side a = true) :
    oneWay n (side', a) := by
  cases a with
  | call c => cases ht
  | receive errno => cases ht
  | timeout => cases side' <;> trivial
  | lose i => cases side' <;> trivial
  | cut i k => cases side' <;> trivial

theorem Phase.sending_of_loop (h : Phase t) (hmain : t.main = .loop) : OneWayAt t.net := by
  cases h with
  | sending _ h => exact h
  | closed hmain' => cases hmain.symm.trans hmain'
  | drained hmain' => cases hmain.symm.trans hmain'

/-- A client that has closed does nothing. -/
theorem Phase.client_idle (h : Phase t) (hmain : t.main = .closed) : t.net.a.pc.idle = true := by
  cases h with
  | sending hmain' => cases hmain.symm.trans hmain'
  | closed _ hidle => exact hidle
  | drained _ hidle => exact hidle

/-- What rcsRecv has returned was sent. -/
theorem Phase.recvs_isPrefix (h : Phase t) :
    (recvs t.net.b.record).flatten <+: (sends t.net.a.record).flatten := by
  cases h with
  | sending _ h => exact h.isPrefix
  | closed _ _ client data fins h hclient hsends =>
    rw [← hsends]
    exact h.isPrefix
  | drained _ _ h =>
    rw [← h.bytes]
    exact List.prefix_append _ _

/-- The socket of the server is closing behind the FIN only, and then all data is there. -/
theorem Phase.drained_of_closing (h : Phase t) (hc : t.net.b.sock.isClosing_ = true) :
    t.main = .closed ∧ t.net.a.pc.idle = true ∧ Drained t := by
  cases h with
  | sending _ h => cases h.openB.notClosing.symm.trans hc
  | closed _ _ client data fins h => cases h.openB.notClosing.symm.trans hc
  | drained hmain hidle h => exact ⟨hmain, hidle, h⟩

/-- The pieces of FINs behind the data can be lost and cut. -/
theorem Phase.net_closed {client : Endpoint} {data fins : List (List UInt8)}
    (h : OneWayAt ⟨client, t.net.b, data, t.net.ba⟩) (hab : t.net.ab = data ++ fins)
    (hfins : ∀ d ∈ fins, d <+: finWire) (hidle : t.net.a.pc.idle = true)
    (hplain : t.plain .A a = true) (hact : Acts t.net.a t.net.ab t.net.ba a e' out' inc') :
    e' = t.net.a ∧ ∃ data' fins', OneWayAt ⟨client, t.net.b, data', t.net.ba⟩ ∧
      out' = data' ++ fins' ∧ ∀ d ∈ fins', d <+: finWire := by
  cases hact with
  | call c hp => cases hplain
  | receive errno d inc' hp hinc => cases hplain
  | timeout hp ht => cases hp.symm.trans hidle
  | lose i hi =>
    refine ⟨rfl, ?_⟩
    by_cases hlt : i < data.length
    · have hnext := h.stepA (a := .lose i) trivial (.lose i hlt)
      exact ⟨data.eraseIdx i, fins, hnext, by rw [hab, List.eraseIdx_append_of_lt_length hlt],
        hfins⟩
    · refine ⟨data, fins.eraseIdx (i - data.length), h, ?_, fun d hd =>
        hfins d ((List.eraseIdx_sublist _ _).subset hd)⟩
      rw [hab, List.eraseIdx_append_of_length_le (by omega)]
  | cut i k d hd hk =>
    refine ⟨rfl, ?_⟩
    rw [hab] at hd ⊢
    by_cases hlt : i < data.length
    · rw [List.getElem?_append_left hlt] at hd
      have hnext := h.stepA (a := .cut i k) trivial (.cut i k d hd hk)
      exact ⟨data.set i (d.take k), fins, hnext, List.set_append_left _ _ hlt, hfins⟩
    · rw [List.getElem?_append_right (by omega)] at hd
      refine ⟨data, fins.set (i - data.length) (d.take k), h,
        List.set_append_right _ _ (by omega), fun d' hd' => ?_⟩
      rcases List.mem_or_eq_of_mem_set hd' with hd' | rfl
      · exact hfins d' hd'
      · exact (List.take_prefix k d).trans (hfins d (List.mem_of_getElem? hd))

/-- The server receives, of the data that is left, or of the FIN. -/
theorem Phase.hearB (h : Phase t) (hw : Writing t.service t.file t.net.b) {errno : Errno}
    {d : List UInt8} {ab : List (List UInt8)} (hopen : t.net.b.sock.isClosing_ = false)
    (hp : t.net.b.pc.idle = false) (hab : t.net.ab = d :: ab) :
    Phase { t with
      net := ⟨t.net.a, t.net.b.went [] (t.net.b.heard errno d), ab,
        t.net.ba ++ (t.net.b.heard errno d).leaving⟩ } ∧
    Writing t.service t.file (t.net.b.went [] (t.net.b.heard errno d)) := by
  cases h with
  | sending hmain h =>
    have hnext := h.stepB (a := .receive errno) trivial (.receive errno d ab hp hab)
    refine ⟨.sending hmain ?_, hw.resumes hp h.exact (h.received_empty hab _)⟩
    rw [Endpoint.heard, leaving_of_open hp hnext.openB.notClosing]
    exact hnext
  | closed hmain hidle client data fins h hclient hsends hab' hfins =>
    cases data with
    | cons d' data =>
      obtain ⟨rfl, hrest⟩ := List.cons.inj (hab'.symm.trans hab)
      have hnext := h.stepB (a := .receive errno) trivial (.receive errno d' data hp rfl)
      refine ⟨.closed hmain hidle client data fins ?_ hclient hsends hrest.symm hfins,
        hw.resumes hp h.exact (h.received_empty rfl _)⟩
      rw [Endpoint.heard, leaving_of_open hp hnext.openB.notClosing]
      exact hnext
    | nil =>
      obtain ⟨fins', rfl⟩ : ∃ fins', fins = d :: fins' := ⟨ab, hab'.symm.trans hab⟩
      obtain ⟨_, hrest⟩ := List.cons.inj (hab'.symm.trans hab)
      have hd := hfins d List.mem_cons_self
      rcases fin_piece hd with rfl | hd'
      · obtain ⟨_, hb⟩ := hw.blocked_of_busy hp
        refine ⟨.drained hmain hidle (h.drains hclient hb errno t.net.b.sock.endPoint_ rfl hsends),
          hw.resumes hp h.exact ?_⟩
        rw [(fin_closes hb (h.complete hclient).2 errno _).2.2]
        exact fun m hm => absurd hm List.not_mem_nil
      · have hnext := h.ignores hp hd' (fin_not_next hd) errno t.net.b.sock.endPoint_
        refine ⟨.closed hmain hidle client [] fins' ?_ hclient hsends hrest.symm
          fun d hd => hfins d (List.mem_cons_of_mem _ hd), hw.resumes hp h.exact ?_⟩
        · rw [Endpoint.heard, leaving_of_open hp hnext.openB.notClosing]
          exact hnext
        · intro m hm
          unfold received at hm
          split at hm
          next ho =>
            cases ho
            rw [if_neg fun hacc => absurd (hd'.symm.trans hacc.1) Bool.false_ne_true] at hm
            cases hm
          · cases hm
  | drained hmain hidle h => cases h.closing.symm.trans hopen

end Steps

section Runs

variable {t t' : Transfer} {act : TransferAct} {stdin : List UInt8}

/-- A close leaves the record of the sends as it is. -/
theorem sends_rcsCloseA (n : Net) : sends n.rcsCloseA.a.record = sends n.a.record := by
  show sends (n.a.record ++ n.a.sock.close.2.map .did) = _
  rw [sends_append]
  have hdid : sends (n.a.sock.close.2.map .did) = [] := by
    rw [sends, List.filterMap_map, List.filterMap_eq_nil_iff]
    exact fun _ _ => rfl
  rw [hdid, List.append_nil]

/-- The FINs of a close. -/
theorem mem_farewells (s : RcsT) :
    ∀ d ∈ (s.close.2.filterMap Event.message).map MsgT.wire, d <+: finWire := by
  intro d hd
  have hclose : s.close.2 = List.replicate 2048 (s.rawsend (control 666 FIN)) ++
      [.closed s.ucpSocket_] := rfl
  obtain ⟨m, hm, rfl⟩ := List.mem_map.mp hd
  obtain ⟨ev, hev, hmsg⟩ := List.mem_filterMap.mp hm
  rw [hclose] at hev
  rcases List.mem_append.mp hev with hev | hev
  · rw [List.eq_of_mem_replicate hev] at hmsg
    obtain rfl := Option.some.inj hmsg
    exact List.prefix_rfl
  · rw [List.mem_singleton.mp hev] at hmsg
    cases hmsg

/-- The client closes. -/
theorem Running.closes (h : Running stdin t) (hmain : t.main = .loop)
    (hp : t.net.a.pc.idle = true) :
    Running stdin { t with main := .closed, net := t.net.rcsCloseA } where
  input := by
    show (sends t.net.rcsCloseA.a.record).flatten ++ _ = _
    rw [sends_rcsCloseA]
    exact h.input
  phase := by
    have hsend := h.phase.sending_of_loop hmain
    refine .closed rfl hp t.net.a t.net.ab _ hsend hp (sends_rcsCloseA t.net).symm ?_
      (mem_farewells t.net.a.sock)
    show t.net.ab ++ (if t.net.a.sock.isClosing_ then [] else _) = _
    rw [hsend.openA.notClosing]
    rfl
  writing := h.writing

/-- The thread calls rcsRecv. -/
theorem Running.rcsRecv (h : Running stdin t) {b' : Endpoint} {ba' ab' : List (List UInt8)}
    (hs : t.service = .loop)
    (hact : Acts t.net.b t.net.ba t.net.ab (.call (.recv BUF_SIZE)) b' ba' ab') :
    Running stdin { t with service := .rcsRecv, net := ⟨t.net.a, b', ab', ba'⟩ } := by
  have hw := h.writing
  rw [hs] at hw
  have hghost : ∀ (client : Endpoint) (data : List (List UInt8)),
      OneWayAt ⟨client, t.net.b, data, t.net.ba⟩ → OneWayAt ⟨client, b', data, ba'⟩ := by
    intro client data hd
    cases hact with
    | call c hp =>
      have hnext := hd.stepB (a := .call (.recv BUF_SIZE)) trivial (.call _ hp)
      exact hnext
  cases hact with
  | call c hp =>
    refine ⟨h.input, ?_, ?_⟩
    · cases h.phase with
      | sending hmain hd => exact .sending hmain (hghost t.net.a t.net.ab hd)
      | closed hmain hidle client data fins hd hclient hsends hab hfins =>
        exact .closed hmain hidle client data fins (hghost client data hd) hclient hsends hab hfins
      | drained hmain hidle hd => exact .drained hmain hidle (hd.calls rfl rfl)
    · refine hw.calls ?_
      cases h.phase with
      | sending _ hd => exact hd.exact
      | closed _ _ client data fins hd => exact hd.exact
      | drained _ _ hd => exact hd.exact

/-- The thread goes on behind rcsRecv. -/
theorem Running.returned (h : Running stdin t) {bytes : List UInt8} (hs : t.service = .rcsRecv)
    (hp : t.net.b.pc = .returned (.recv bytes)) :
    t.file ++ bytes = (recvs t.net.b.record).flatten ∧
      (bytes = [] → t.main = .closed ∧ t.file = (sends t.net.a.record).flatten) := by
  cases h.writing with
  | head hs' => cases hs.symm.trans hs'
  | blocked _ hb =>
    have hidle := hb.not_idle
    rw [hp] at hidle
    cases hidle
  | returned bytes' _ hp' hfile hnil =>
    obtain rfl : bytes = bytes' := by
      have hret := hp.symm.trans hp'
      injection hret with hret
      injection hret
    refine ⟨hfile, fun he => ?_⟩
    obtain ⟨hclosing, hunread⟩ := hnil he
    obtain ⟨hmain, _, hd⟩ := h.phase.drained_of_closing hclosing
    have hbytes := hd.bytes
    rw [hunread, ← hfile, he] at hbytes
    exact ⟨hmain, by simpa using hbytes⟩

/-- The thread has written what rcsRecv returned. -/
theorem Running.wrote (h : Running stdin t) {bytes : List UInt8} (hs : t.service = .rcsRecv)
    (hp : t.net.b.pc = .returned (.recv bytes)) :
    Running stdin { t with service := .loop, file := t.file ++ bytes } where
  input := h.input
  phase := by
    cases h.phase with
    | sending hmain hd => exact .sending hmain hd
    | closed hmain hidle client data fins hd hclient hsends hab hfins =>
      exact .closed hmain hidle client data fins hd hclient hsends hab hfins
    | drained hmain hidle hd => exact .drained hmain hidle { hd with }
  writing := .head rfl (by rw [hp]; rfl) (h.returned hs hp).1

/-- A timer or a channel acts on the client's side. -/
theorem Running.netA (h : Running stdin t) {a : Act} {a' : Endpoint}
    {ab' ba' : List (List UInt8)} (hplain : t.plain .A a = true)
    (hact : Acts t.net.a t.net.ab t.net.ba a a' ab' ba') :
    Running stdin { t with net := ⟨a', t.net.b, ab', ba'⟩ } := by
  obtain ⟨rfl, hsends, _⟩ := hact.reroute .A hplain
  refine ⟨by rw [hsends]; exact h.input, ?_, h.writing⟩
  cases h.phase with
  | sending hmain hd => exact .sending hmain (hd.stepA (oneWay_plain _ .A .A hplain) hact)
  | closed hmain hidle client data fins hd hclient hsends' hab hfins =>
    obtain ⟨rfl, data', fins', hd', hab', hfins'⟩ :=
      Phase.net_closed hd hab hfins hidle hplain hact
    exact .closed hmain hidle client data' fins' hd' hclient hsends' hab' hfins'
  | drained hmain hidle hd =>
    have hsame : a' = t.net.a := by
      cases hact with
      | call c hp => cases hplain
      | receive errno d inc' hp hinc => cases hplain
      | timeout hp ht => cases hp.symm.trans hidle
      | lose i hi => rfl
      | cut i k d hd hk => rfl
    subst hsame
    exact .drained hmain hidle { hd with }

theorem received_error (s : RcsT) (pc : Pc) (e : Errno) : received s pc (.error e) = [] := by
  cases pc <;> rfl

/-- A timer or a channel acts on the server's side. -/
theorem Running.netB (h : Running stdin t) {a : Act} {b' : Endpoint}
    {ba' ab' : List (List UInt8)} (hplain : t.plain .B a = true)
    (hact : Acts t.net.b t.net.ba t.net.ab a b' ba' ab') :
    Running stdin { t with net := ⟨t.net.a, b', ab', ba'⟩ } := by
  obtain ⟨rfl, _, hreroute⟩ := hact.reroute .B hplain
  have hwriting : t.net.b.sock.buffer_.Exact → Writing t.service t.file b' := by
    intro hexact
    cases hact with
    | call c hp => cases hplain
    | receive errno d inc' hp hinc => cases hplain
    | timeout hp ht =>
      refine h.writing.resumes hp hexact ?_
      rw [received_error]
      exact fun m hm => absurd hm List.not_mem_nil
    | lose i hi => exact h.writing
    | cut i k d hd hk => exact h.writing
  cases h.phase with
  | sending hmain hd =>
    exact ⟨h.input, .sending hmain (hd.stepB (oneWay_plain _ .B .B hplain) hact),
      hwriting hd.exact⟩
  | closed hmain hidle client data fins hd hclient hsends hab hfins =>
    refine ⟨h.input, ?_, hwriting hd.exact⟩
    have hnext := hd.stepB (oneWay_plain _ .B .B hplain) (hreroute data)
    exact .closed hmain hidle client data fins hnext hclient hsends hab hfins
  | drained hmain hidle hd =>
    have hsame : b' = t.net.b := by
      cases hact with
      | call c hp => cases hplain
      | receive errno d inc' hp hinc => cases hplain
      | timeout hp ht =>
        have hclosing := hd.closing
        simp [Transfer.plain, Transfer.sock, hclosing] at hplain
      | lose i hi => rfl
      | cut i k d hd hk => rfl
    subst hsame
    exact ⟨h.input, .drained hmain hidle { hd with }, h.writing⟩

/-- The client's socket receives. -/
theorem Running.hearA (h : Running stdin t) {errno : Errno} {d : List UInt8}
    {ba : List (List UInt8)} (hp : t.net.a.pc.idle = false) (hba : t.net.ba = d :: ba) :
    Running stdin { t with
      net := ⟨t.net.a.went [] (t.net.a.heard errno d), t.net.b,
        t.net.ab ++ (t.net.a.heard errno d).leaving, ba⟩ } := by
  refine ⟨?_, ?_, h.writing⟩
  · rw [sends_went]
    exact h.input
  · cases hmain : t.main with
    | closed => cases hp.symm.trans (h.phase.client_idle hmain)
    | loop =>
      have hnext := (h.phase.sending_of_loop hmain).stepA (a := .receive errno) trivial
        (.receive errno d ba hp hba)
      refine .sending rfl ?_
      rw [Endpoint.heard, leaving_of_open hp hnext.openA.notClosing]
      exact hnext

/-- The thread's socket receives on its closed descriptor. -/
theorem Running.deafB (h : Running stdin t) (o : RecvFrom)
    (hclosing : t.net.b.sock.isClosing_ = true) (hp : t.net.b.pc.idle = false) :
    Running stdin { t with
      net := { t.net with b := t.net.b.went [] (resume t.net.b.sock t.net.b.pc o) } } := by
  obtain ⟨hmain, hidle, hd⟩ := h.phase.drained_of_closing hclosing
  obtain ⟨_, hb⟩ := h.writing.blocked_of_busy hp
  refine ⟨h.input, .drained hmain hidle (hd.deaf hb o rfl rfl), h.writing.resumes hp hd.exact ?_⟩
  have hfin := hd.finalizing hp
  cases hpc : t.net.b.pc with
  | finalizeRecv L ack response => exact fun m hm => absurd hm List.not_mem_nil
  | _ =>
    rw [hpc] at hfin
    cases hfin

/-- What a step preserves while the thread is at work. -/
theorem Running.step (h : Running stdin t) (hm : Moved t act t') :
    Running stdin t' ∨ Finished stdin t' := by
  cases hm with
  | read n a' ab' ba' hmain hact =>
    left
    have hnext := (h.phase.sending_of_loop hmain).stepA (a := .call (.send (t.input.take n)))
      trivial hact
    refine ⟨?_, .sending hmain hnext, h.writing⟩
    cases hact with
    | call c hp =>
      have hinput := h.input
      show (sends (t.net.a.went _ _).record).flatten ++ t.input.drop n = stdin
      rw [went_record, sends_append, sends_append, sends_entries, List.append_nil,
        List.flatten_append, List.append_assoc, ← hinput]
      congr 1
      show [t.input.take n].flatten ++ t.input.drop n = t.input
      rw [List.flatten_singleton, List.take_append_drop]
  | readEnds hmain hp => exact Or.inl (h.closes hmain hp)
  | rcsRecv b' ba' ab' hs hact => exact Or.inl (h.rcsRecv hs hact)
  | quit n hs hp =>
    right
    obtain ⟨hfile, hnil⟩ := h.returned hs hp
    obtain ⟨hmain, hall⟩ := hnil rfl
    exact ⟨h.input, Or.inl ⟨rfl, hmain, hall⟩⟩
  | wrote bytes hs hne hp => exact Or.inl (h.wrote hs hp)
  | tooFew n bytes hs hp =>
    right
    obtain ⟨hfile, _⟩ := h.returned hs hp
    refine ⟨h.input, Or.inr ⟨rfl, ?_⟩⟩
    refine List.IsPrefix.trans ?_ h.phase.recvs_isPrefix
    rw [← hfile, List.prefix_append_right_inj]
    exact List.take_prefix n bytes
  | netA a a' ab' ba' hplain hact => exact Or.inl (h.netA hplain hact)
  | netB a b' ba' ab' hplain hact => exact Or.inl (h.netB hplain hact)
  | hearA errno d ba hopen hp hba => exact Or.inl (h.hearA hp hba)
  | hearB errno d ab hopen hp hab =>
    obtain ⟨hphase, hw⟩ := h.phase.hearB h.writing hopen hp hab
    exact Or.inl ⟨h.input, hphase, hw⟩
  | deafA o hclosing hp =>
    cases hmain : t.main with
    | closed => cases hp.symm.trans (h.phase.client_idle hmain)
    | loop => cases (h.phase.sending_of_loop hmain).openA.notClosing.symm.trans hclosing
  | deafB o hclosing hp => exact Or.inl (h.deafB o hclosing hp)

/-- Behind the thread's return, only the client still reads and sends. -/
theorem Finished.step (h : Finished stdin t) (hm : Moved t act t') : Finished stdin t' := by
  have hservice : t.service = .quit ∨ t.service = .tooFew := by
    rcases h.file with ⟨hs, _⟩ | ⟨hs, _⟩
    · exact Or.inl hs
    · exact Or.inr hs
  -- the steps that leave the client's sends alone
  have hkeep : ∀ net : Net, sends net.a.record = sends t.net.a.record →
      Finished stdin { t with net := net } := by
    intro net hs
    refine ⟨?_, ?_⟩ <;> rw [hs]
    · exact h.input
    · exact h.file
  cases hm with
  | read n a' ab' ba' hmain hact =>
    cases hact with
    | call c hp =>
      have hrec : sends (t.net.a.went [.called (.send (t.input.take n))]
          (start t.net.a.sock (.send (t.input.take n)))).record =
          sends t.net.a.record ++ [t.input.take n] := by
        rw [went_record, sends_append, sends_append, sends_entries, List.append_nil]
        rfl
      refine ⟨?_, ?_⟩
      · show (sends (Endpoint.went _ _ _).record).flatten ++ t.input.drop n = stdin
        rw [hrec, List.flatten_append, List.flatten_singleton, List.append_assoc,
          List.take_append_drop]
        exact h.input
      · right
        rcases h.file with ⟨_, hmain', _⟩ | ⟨hs, hfile⟩
        · cases hmain.symm.trans hmain'
        · refine ⟨hs, hfile.trans ?_⟩
          show _ <+: (sends (Endpoint.went _ _ _).record).flatten
          rw [hrec, List.flatten_append]
          exact List.prefix_append _ _
  | readEnds hmain hp =>
    rcases h.file with ⟨_, hmain', _⟩ | ⟨hs, hfile⟩
    · cases hmain.symm.trans hmain'
    · refine ⟨?_, Or.inr ⟨hs, ?_⟩⟩
      · show (sends t.net.rcsCloseA.a.record).flatten ++ _ = _
        rw [sends_rcsCloseA]
        exact h.input
      · show _ <+: (sends t.net.rcsCloseA.a.record).flatten
        rw [sends_rcsCloseA]
        exact hfile
  | rcsRecv b' ba' ab' hs hact => rcases hservice with hs' | hs' <;> cases hs.symm.trans hs'
  | quit n hs hp => rcases hservice with hs' | hs' <;> cases hs.symm.trans hs'
  | wrote bytes hs hne hp => rcases hservice with hs' | hs' <;> cases hs.symm.trans hs'
  | tooFew n bytes hs hp => rcases hservice with hs' | hs' <;> cases hs.symm.trans hs'
  | netA a a' ab' ba' hplain hact => exact hkeep _ (hact.reroute .A hplain).2.1
  | netB a b' ba' ab' hplain hact => exact hkeep _ rfl
  | hearA errno d ba hopen hp hba => exact hkeep _ (sends_went _ _)
  | hearB errno d ab hopen hp hab => exact hkeep _ rfl
  | deafA o hclosing hp => exact hkeep _ (sends_went _ _)
  | deafB o hclosing hp => exact hkeep _ rfl

end Runs

/-! ## 3. The result -/

/-- At any moment the thread is at work, or it has returned. -/
theorem running_or_finished {n0 : Net} {stdin : List UInt8} {t : Transfer} (h0 : Connected n0)
    (h : Reach Transfer.step (fun _ _ => True) (.init n0 stdin) t) :
    Running stdin t ∨ Finished stdin t := by
  have hstart : Running stdin (.init n0 stdin) := by
    refine ⟨?_, .sending rfl ⟨_, _, _, _, _, _, _, h0.oneWay⟩, .head rfl h0.idleB ?_⟩
    · show (sends n0.a.record).flatten ++ stdin = stdin
      rw [h0.recordA]
      rfl
    · show ([] : List UInt8) = (recvs n0.b.record).flatten
      rw [h0.recordB]
      rfl
  refine h.invariant (I := fun t => Running stdin t ∨ Finished stdin t) (Or.inl hstart)
    fun t act t' ht _ hs => ?_
  rcases ht with ht | ht
  · exact ht.step (moved hs)
  · exact Or.inr (ht.step (moved hs))

/-- What the file holds then. -/
theorem file_delivered {stdin : List UInt8} {t : Transfer}
    (h : Running stdin t ∨ Finished stdin t) :
    t.file <+: stdin ∧ (t.service = .quit → t.main = .closed ∧ t.file ++ t.input = stdin) := by
  rcases h with ht | ht
  · refine ⟨?_, fun hs => ?_⟩
    · have hpre : t.file <+: (recvs t.net.b.record).flatten := by
        cases ht.writing with
        | head _ _ hfile => rw [hfile]
        | blocked _ _ hfile => rw [hfile]
        | returned bytes _ _ hfile =>
          rw [← hfile]
          exact List.prefix_append _ _
      rw [← ht.input]
      exact (hpre.trans ht.phase.recvs_isPrefix).trans (List.prefix_append _ _)
    · cases ht.writing with
      | head hs' => cases hs.symm.trans hs'
      | blocked hs' => cases hs.symm.trans hs'
      | returned _ hs' => cases hs.symm.trans hs'
  · rw [← ht.input]
    rcases ht.file with ⟨_, hmain, hfile⟩ | ⟨hs', hfile⟩
    · rw [hfile]
      exact ⟨List.prefix_append _ _, fun _ => ⟨hmain, rfl⟩⟩
    · exact ⟨hfile.trans (List.prefix_append _ _), fun hs => by cases hs.symm.trans hs'⟩

/-- The file of the server is the start of the client's stdin; and when rcsRecv has returned 0, and
    the thread with it, the client has closed, and the file is all that it had read. -/
theorem transfer_delivers {n0 : Net} {stdin : List UInt8} {t : Transfer} (h0 : Connected n0)
    (h : Reach Transfer.step (fun _ _ => True) (.init n0 stdin) t) :
    t.file <+: stdin ∧ (t.service = .quit → t.main = .closed ∧ t.file ++ t.input = stdin) :=
  file_delivered (running_or_finished h0 h)

/-- A run that sends a file of one byte: the thread reads the FIN in its second rcsRecv. -/
def oneByteFile : List TransferAct :=
  [.read 1, .rcsRecv, .hear .B .EAGAIN, .hear .A .EAGAIN, .hear .B .EAGAIN, .hear .A .EAGAIN,
   .net .B .timeout, .write 1, .rcsRecv, .readEnds, .hear .B .EAGAIN, .write 0]

theorem transfer_delivers_oneByte : ∃ t,
    Reach Transfer.step (fun _ _ => True) (.init Net.pair [97]) t ∧ t.service = .quit ∧
      t.file = [97] ∧ t.file <+: [97] ∧ t.main = .closed ∧ t.file ++ t.input = [97] := by
  have hrun : ((exec Transfer.step (fun _ _ => True) (.init Net.pair [97]) oneByteFile).map
      fun t => (t.service, t.file)) = some (.quit, [97]) := by
    decide +kernel
  obtain ⟨t, ht, hres⟩ := Option.map_eq_some_iff.mp hrun
  have hreach := reach_of_exec ht
  obtain ⟨hpre, hall⟩ := transfer_delivers connected_pair hreach
  have hquit := congrArg Prod.fst hres
  exact ⟨t, hreach, hquit, congrArg Prod.snd hres, hpre, hall hquit⟩

end Ece358.Rcs
