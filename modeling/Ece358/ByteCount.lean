/-
  File:      Ece358/ByteCount.lean
  Subject:   What a recv that returns 0 says, whatever the network delivers.

  `queueMessage` counts the payload of every message, and `read` hands out the payload of those
  without the EOS flag only. A marker that carries a payload leaves bytes in the count that nobody
  can read, and `empty()` asks the count.

  * `markLength`, `overcount` -- the bytes that are counted and never read;
  * `Counts b k` -- the count of `b` is `k` too high, which no read changes;
  * `ZeroMeansClosed` -- recv has returned 0 on a closed socket only, with everything read;
  * `ReadsOff` -- what a recv that returns leaves in its buffer;
  * `Tallied` -- the count and the bytes of a socket, after any calls and datagrams;
  * `zero_means_closed_iff` -- 0 means closed as long as the markers that are queued are empty.
-/
import Ece358.Isolation
import Ece358.Reports

namespace Ece358.Rcs

open Lib Marked MsgT

/-! ## 1. The count -/

/-- The bytes of a message that are counted, and never read. -/
def markLength (m : MsgT) : Nat := if m.hasFlag EOS then m.length.toNat else 0

namespace MsgBufferT

/-- A buffer that counts `k` bytes more than can be read. -/
structure Counts (b : MsgBufferT) (k : Nat) : Prop where
  fits : ∀ m ∈ b.buffer_, m.length.toNat ≤ MAX_DATA_LENGTH
  size : b.totalSize_ = (symbols b.tape).length + k

section Counts

variable {b : MsgBufferT} {m : MsgT} {k : Nat}

theorem counts_new : new.Counts 0 where
  fits _ hm := absurd hm List.not_mem_nil
  size := rfl

theorem Counts.exact (h : b.Counts 0) : b.Exact where
  fits := h.fits
  size := by rw [h.size, tape_symbols, Nat.add_zero]

theorem length_tapeOf (hm : m.length.toNat ≤ MAX_DATA_LENGTH) :
    (symbols (tapeOf m)).length + markLength m = m.length.toNat := by
  unfold tapeOf markLength
  split
  · exact Nat.zero_add _
  · rw [symbols_map_some, MsgT.length_payload hm, Nat.add_zero]

theorem Counts.queue (h : b.Counts k) (hm : m.length.toNat ≤ MAX_DATA_LENGTH) :
    (b.queueMessage m).Counts (k + markLength m) where
  fits m' hm' := by
    rcases List.mem_append.mp hm' with hm' | hm'
    · exact h.fits m' hm'
    · rw [List.mem_singleton.mp hm']
      exact hm
  size := by
    have hsize := h.size
    have hlen := length_tapeOf hm
    rw [tape_queueMessage, symbols_append, List.length_append]
    show b.totalSize_ + m.length.toNat = _
    omega

/-- A read takes what it does not leave. -/
theorem Counts.read_bytes (h : b.Counts k) (L : Nat) :
    (b.read L).1 ++ symbols (b.read L).2.tape = symbols b.tape := by
  obtain ⟨hread, htape⟩ := read_tape h.fits L
  rw [hread, htape, readMarked_symbols]

theorem Counts.read (h : b.Counts k) (L : Nat) : (b.read L).2.Counts k where
  fits m hm := h.fits m ((readLoop_suffix _ _ _ _).subset hm)
  size := by
    have hsize := h.size
    have hlen := congrArg List.length (h.read_bytes L)
    rw [List.length_append] at hlen
    show b.totalSize_ - (b.read L).1.length = _
    omega

/-- An empty buffer holds nothing that can be read. -/
theorem Counts.symbols_nil (h : b.Counts k) (he : b.empty = true) : symbols b.tape = [] := by
  have hsize := h.size
  have h0 : b.totalSize_ = 0 := beq_iff_eq.mp he
  exact List.eq_nil_of_length_eq_zero (by omega)

end Counts

end MsgBufferT

/-- The bytes counted too much behind a record. -/
def overcount (record : List Entry) : Nat := ((queued record).map markLength).sum

/-- The bytes that can be read off the messages that were queued. -/
def readable (record : List Entry) : List UInt8 :=
  (queued record).flatMap fun m => symbols (MsgBufferT.tapeOf m)

/-- The buffer that a recv leaves when it returns. -/
def leftOf (L : Nat) (b : MsgBufferT) : MsgBufferT := if b.empty then b else (b.read L).2

/-- The count is that of the bytes that can be read; and where recv has returned 0, the socket is
    closed, and every byte that was queued has been returned. -/
structure ZeroMeansClosed (e : Endpoint) : Prop where
  counted : e.sock.buffer_.totalSize_ = (symbols e.sock.buffer_.tape).length
  zero : e.pc = .returned (.recv []) →
    e.sock.isClosing_ = true ∧ (recvs e.record).flatten = storedBytes e.record

/-- The outcome of a receive, whoever sent it. -/
def Arrival.heard : Arrival → Option RecvFrom
  | .call _ => none
  | .outcome o => some o
  | .foreign errno bytes src => some (.datagram errno bytes src)

/-- recv is called with room for something. -/
def asks (_ : Endpoint) : Arrival → Prop
  | .call (.recv maxLength) => 0 < maxLength
  | _ => True

/-- An EOS marker that is queued carries no payload. -/
def marksEmpty (e : Endpoint) (a : Arrival) : Prop :=
  ∀ o ∈ a.heard, ∀ m ∈ received e.sock e.pc o, m.hasFlag EOS = true → m.length = 0

instance (e : Endpoint) : DecidablePred (asks e)
  | .call (.recv _) => inferInstanceAs (Decidable (_ < _))
  | .call (.send _) => isTrue trivial
  | .outcome _ => isTrue trivial
  | .foreign _ _ _ => isTrue trivial

/-! ## 2. What a recv leaves in its buffer -/

/-- A recv that returns leaves what its read does; an empty buffer makes it return on a closed
    socket only. -/
def ReadsOff (L : Nat) (b : MsgBufferT) (r : Res) : Prop :=
  r.pc.idle = true → r.sock.buffer_ = leftOf L b ∧ (b.empty = true → r.sock.isClosing_ = true)

section ReadsOff

variable {s : RcsT} {b : MsgBufferT} {L : Nat} {r : Res} {pc : Pc}

theorem readsOff_blocked (h : r.pc.idle = false) : ReadsOff L b r := fun hi => by
  rw [h] at hi
  cases hi

theorem ReadsOff.after (h : ReadsOff L b r) (out : List Event) : ReadsOff L b (r.after out) := h

theorem readsOff_recvReturn (h : s.buffer_.empty = true → s.isClosing_ = true) (L : Nat) :
    ReadsOff L s.buffer_ (s.recvReturn L) := by
  unfold RcsT.recvReturn ReadsOff leftOf
  cases he : s.buffer_.empty with
  | true => simp [h he]
  | false => simp

theorem readsOff_recvAgain (s : RcsT) (L : Nat) : ReadsOff L s.buffer_ (s.recvAgain L) := by
  unfold RcsT.recvAgain
  split
  next => exact readsOff_blocked rfl
  next hgo =>
    refine readsOff_recvReturn (fun he => ?_) L
    rw [he, Bool.true_and, Bool.not_eq_true', Bool.not_eq_false] at hgo
    exact hgo

theorem readsOff_recvWhile (s : RcsT) (L : Nat) : ReadsOff L s.buffer_ (s.recvWhile L) := by
  unfold RcsT.recvWhile
  split
  · exact readsOff_recvAgain s L
  · exact readsOff_blocked rfl

theorem readsOff_recv (s : RcsT) (L : Nat) : ReadsOff L s.buffer_ (s.recv L) :=
  readsOff_recvWhile { s with recvSeqnum_ := 0 } L

theorem readsOff_finalizeEnd (s : RcsT) (L : Nat) : ReadsOff L s.buffer_ (s.finalizeEnd L) :=
  (readsOff_recvAgain (s.setTimeout RECV_TIMEOUT).1 L).after _

theorem readsOff_recvBody (s : RcsT) (L : Nat) (response : MsgT) (ok : Bool) :
    ReadsOff L
      (queueAll s.buffer_ (if ok = true ∧ response.seqnum = s.recvSeqnum_ then [response] else []))
      (s.recvBody L response ok) := by
  have hseq : (ok && response.seqnum == s.recvSeqnum_) = true ↔
      ok = true ∧ response.seqnum = s.recvSeqnum_ := by rw [Bool.and_eq_true, beq_iff_eq]
  have hend : ∀ (s' : RcsT) (ack : MsgT) (out : List Event) (eos : Bool),
      ReadsOff L s'.buffer_ (if eos then (s'.finalizeStart L ack).after out
        else (s'.recvWhile L).after out) := by
    intro s' ack out eos
    cases eos with
    | true => exact readsOff_blocked rfl
    | false => exact (readsOff_recvWhile s' L).after out
  unfold RcsT.recvBody
  by_cases h : ok = true ∧ response.seqnum = s.recvSeqnum_
  · rw [if_pos h]
    simp only [hseq.mpr h, if_true]
    exact hend (queue s response) _ _ _
  · rw [if_neg h]
    simp only [Bool.eq_false_iff.mpr fun hb => h (hseq.mp hb), Bool.false_eq_true, if_false]
    exact hend s _ _ _

/-- A receive of a blocked recv. -/
theorem readsOff_resume (h : RecvBlocked L pc) (s : RcsT) (o : RecvFrom) :
    ReadsOff L (queueAll s.buffer_ (received s pc o)) (resume s pc o) := by
  obtain ⟨hb, hr, _⟩ := rawrecv_rest s o
  cases h with
  | loop =>
    obtain ⟨hreceived, hnothing⟩ := received_recvLoop s L o
    show ReadsOff _ _ (s.recvPass L o)
    unfold RcsT.recvPass
    dsimp only
    split
    next h0 =>
      rw [hnothing h0, ← hb]
      exact (readsOff_recvWhile (s.rawrecv o).sock L).after _
    next =>
      have h := (readsOff_recvBody (s.rawrecv o).sock L ((s.rawrecv o).msg.getD default)
        (RcsT.isValid (s.rawrecv o).bytes ((s.rawrecv o).msg.getD default))).after
          (s.rawrecv o).out
      rw [hr, hb, hreceived] at h
      exact h
  | finalize v response =>
    have hend := (readsOff_finalizeEnd (s.rawrecv o).sock L).after (s.rawrecv o).out
    rw [hb] at hend
    show ReadsOff _ _ (s.finalizePass L (control v ACK) response o)
    unfold RcsT.finalizePass
    dsimp only
    split
    · exact hend
    · split
      · exact hend
      · exact readsOff_blocked rfl

end ReadsOff

/-! ## 3. Runs -/

/-- The count and the bytes behind any calls and datagrams. -/
structure Tallied (e : Endpoint) : Prop where
  counts : e.sock.buffer_.Counts (overcount e.record)
  bytes : (recvs e.record).flatten ++ symbols e.sock.buffer_.tape = readable e.record
  blocked : e.pc.idle = false → (∃ L, RecvBlocked L e.pc) ∨ SendBlocked e.pc

section Runs

variable {e e' : Endpoint} {a : Arrival} {b : MsgBufferT} {k L : Nat} {r : Res} {es : List Entry}
  {msgs : List MsgT}

theorem leftOf_counts (h : b.Counts k) (L : Nat) :
    (leftOf L b).Counts k ∧ frontOf L b ++ symbols (leftOf L b).tape = symbols b.tape := by
  unfold leftOf frontOf
  split
  · exact ⟨h, rfl⟩
  · exact ⟨h.read L, h.read_bytes L⟩

/-- With an exact count, only an empty buffer gives nothing to a read with room. -/
theorem empty_of_frontOf_nil (h : b.Counts 0) (hL : 0 < L) (hf : frontOf L b = []) :
    b.empty = true := by
  by_contra he
  rw [Bool.not_eq_true] at he
  rw [frontOf, he] at hf
  exact MsgBufferT.read_ne_nil h.exact hL he hf

theorem queueAll_counts (h : b.Counts k) (hm : ∀ m ∈ msgs, m.length.toNat ≤ MAX_DATA_LENGTH) :
    (queueAll b msgs).Counts (k + (msgs.map markLength).sum) := by
  induction msgs generalizing b k with
  | nil => exact h
  | cons m msgs ih =>
    rw [List.map_cons, List.sum_cons, ← Nat.add_assoc]
    exact ih (h.queue (hm m List.mem_cons_self)) fun m' hm' => hm m' (List.mem_cons_of_mem _ hm')

theorem queueAll_bytes (b : MsgBufferT) (msgs : List MsgT) : symbols (queueAll b msgs).tape =
    symbols b.tape ++ msgs.flatMap fun m => symbols (MsgBufferT.tapeOf m) := by
  rw [queueAll_tape, symbols_append]
  exact congrArg _ List.filterMap_flatMap

theorem fits_nil : ∀ m ∈ ([] : List MsgT), m.length.toNat ≤ MAX_DATA_LENGTH :=
  fun _ hm => absurd hm List.not_mem_nil

/-- The record behind a stretch. -/
theorem queued_went (hes : queued es = []) :
    queued (e.went es r).record = queued e.record ++ queuedIn r.out := by
  have hentries : queued r.entries = queuedIn r.out := by
    have hdid : queued (r.out.map .did) = queuedIn r.out := by
      rw [queued, List.filterMap_map]
      exact List.filterMap_congr fun ev _ => by cases ev <;> rfl
    unfold Res.entries
    rw [queued_append, hdid]
    cases r.pc <;> exact List.append_nil _
  rw [went_record, queued_append, queued_append, hes, hentries, List.append_nil]

theorem overcount_went (hes : queued es = []) (hq : queuedIn r.out = msgs) :
    overcount (e.went es r).record = overcount e.record + (msgs.map markLength).sum := by
  rw [overcount, queued_went hes, hq, List.map_append, List.sum_append]
  rfl

theorem recvs_did (out : List Event) : recvs (out.map .did) = [] :=
  List.filterMap_eq_nil_iff.mpr fun x hx => by
    obtain ⟨ev, _, rfl⟩ := List.mem_map.mp hx
    rfl

theorem recvs_went (hes : recvs es = []) :
    recvs (e.went es r).record = recvs e.record ++ recvs r.entries := by
  rw [went_record, recvs_append, recvs_append, hes, List.append_nil]

theorem RecvBlocked.not_idle {pc : Pc} (h : RecvBlocked L pc) : pc.idle = false := by
  cases h <;> rfl

theorem SendBlocked.not_idle {pc : Pc} (h : SendBlocked pc) : pc.idle = false := by
  cases h <;> rfl

/-- A stretch of a recv. -/
theorem Tallied.reads (h : Tallied e) (hes : queued es = []) (hes' : recvs es = [])
    (hm : ∀ m ∈ msgs, m.length.toNat ≤ MAX_DATA_LENGTH) {closing : Bool}
    (hr : RecvStretch L (queueAll e.sock.buffer_ msgs) closing msgs r)
    (hoff : ReadsOff L (queueAll e.sock.buffer_ msgs) r) : Tallied (e.went es r) := by
  have hcounts := queueAll_counts h.counts hm
  have hreadable : readable (e.went es r).record =
      (recvs e.record).flatten ++ symbols (queueAll e.sock.buffer_ msgs).tape := by
    rw [readable, queued_went hes, hr.queued, List.flatMap_append, queueAll_bytes,
      ← List.append_assoc, h.bytes]
    rfl
  rw [← overcount_went hes hr.queued] at hcounts
  rcases hr.goes with ⟨hpc, hb⟩ | hpc
  · have hrecvs : recvs r.entries = [] := by
      rw [entries_of_blocked hpc.not_idle, recvs_did]
    refine ⟨?_, ?_, fun _ => Or.inl ⟨L, hpc⟩⟩
    · rw [went_sock, hb]
      exact hcounts
    · rw [recvs_went hes', hrecvs, List.append_nil, went_sock, hb, hreadable]
  · obtain ⟨hb, _⟩ := hoff (by rw [hpc]; rfl)
    obtain ⟨hleft, hsplit⟩ := leftOf_counts hcounts L
    have hrecvs : recvs r.entries = [frontOf L (queueAll e.sock.buffer_ msgs)] := by
      unfold Res.entries
      rw [hpc, recvs_append, recvs_did]
      rfl
    refine ⟨?_, ?_, fun hi => ?_⟩
    · rw [went_sock, hb]
      exact hleft
    · rw [recvs_went hes', hrecvs, List.flatten_append, List.flatten_singleton, went_sock, hb,
        List.append_assoc, hsplit, hreadable]
    · rw [went_pc, hpc] at hi
      cases hi

/-- A stretch of a send. -/
theorem Tallied.sends (h : Tallied e) (hes : queued es = []) (hes' : recvs es = [])
    (hr : SendStretch e.sock.buffer_ r) : Tallied (e.went es r) := by
  have hq : queued (e.went es r).record = queued e.record := by
    rw [queued_went hes, hr.queued, List.append_nil]
  have hrecvs : recvs r.entries = [] := by
    rcases hr.goes with hpc | ⟨length, hpc⟩
    · rw [entries_of_blocked hpc.not_idle, recvs_did]
    · unfold Res.entries
      rw [hpc, recvs_append, recvs_did]
      rfl
  refine ⟨?_, ?_, fun hi => Or.inr (hr.goes.resolve_right ?_)⟩
  · rw [went_sock, hr.buffer, overcount, hq]
    exact h.counts
  · rw [recvs_went hes', hrecvs, List.append_nil, went_sock, hr.buffer, readable, hq]
    exact h.bytes
  · rintro ⟨length, hpc⟩
    rw [went_pc, hpc] at hi
    cases hi

/-- What comes to an endpoint is a call, where none is in progress, or the outcome of its
    receive. -/
theorem hears_cases (h : e.hears a = some e') :
    (∃ c, a = .call c ∧ e.pc.idle = true ∧ e' = e.went [.called c] (start e.sock c)) ∨
    (∃ o, a.heard = some o ∧ e.pc.idle = false ∧ e' = e.went [] (resume e.sock e.pc o)) := by
  cases a <;> simp only [Endpoint.hears, Option.ite_none_right_eq_some, Option.some.injEq] at h <;>
    obtain ⟨hi, rfl⟩ := h
  · exact Or.inl ⟨_, rfl, hi, rfl⟩
  · exact Or.inr ⟨_, rfl, hi, rfl⟩
  · exact Or.inr ⟨_, rfl, hi, rfl⟩

/-- Every call, and every outcome of its receives. -/
theorem Tallied.step (h : Tallied e) (hstep : e.hears a = some e') : Tallied e' := by
  rcases hears_cases hstep with ⟨c, rfl, _, rfl⟩ | ⟨o, _, hi, rfl⟩
  · cases c with
    | send data =>
      exact h.sends rfl rfl (stretch_sendLoop { e.sock with sendSeqnum_ := 0 } data 0)
    | recv L =>
      exact h.reads rfl rfl fits_nil (stretch_recv e.sock L) (readsOff_recv e.sock L)
  · rcases h.blocked hi with ⟨L, hpc⟩ | hpc
    · exact h.reads rfl rfl (fun m hm => received_fits hm) (stretch_resume hpc e.sock o)
        (readsOff_resume hpc e.sock o)
    · exact h.sends rfl rfl (stretch_sends hpc e.sock o)

theorem tallied_start {s : RcsT} (h : s.buffer_ = .new) (n : Int32) :
    Tallied ⟨s, .returned (.send n), []⟩ where
  counts := by
    show s.buffer_.Counts 0
    rw [h]
    exact MsgBufferT.counts_new
  bytes := by
    show symbols s.buffer_.tape = []
    rw [h]
    rfl
  blocked hi := by cases hi

/-! ### recv with room -/

/-- recv is called with room, and as long as the count was exact it has returned 0 only where its
    buffer was empty and the socket closed. -/
structure Roomy (e : Endpoint) : Prop where
  room : ∀ L, RecvBlocked L e.pc → 0 < L
  zero : e.pc = .returned (.recv []) → overcount e.record = 0 →
    e.sock.isClosing_ = true ∧ symbols e.sock.buffer_.tape = []

/-- The end of a recv that was given room. -/
theorem Tallied.zero_of_reads (h : Tallied e) (hes : queued es = []) (hL : 0 < L)
    (hm : ∀ m ∈ msgs, m.length.toNat ≤ MAX_DATA_LENGTH) {closing : Bool}
    (hr : RecvStretch L (queueAll e.sock.buffer_ msgs) closing msgs r)
    (hoff : ReadsOff L (queueAll e.sock.buffer_ msgs) r) : Roomy (e.went es r) := by
  refine ⟨fun L' hpc' => ?_, fun hpc hover => ?_⟩
  · rcases hr.goes with ⟨hpc, _⟩ | hpc
    · have hpc' : RecvBlocked L' r.pc := hpc'
      generalize r.pc = pc at hpc hpc'
      cases hpc with
      | loop =>
        cases hpc'
        exact hL
      | finalize v response =>
        cases hpc'
        exact hL
    · have hidle := hpc'.not_idle
      rw [went_pc, hpc] at hidle
      cases hidle
  · have hpc : r.pc = .returned (.recv []) := hpc
    have hcounts := queueAll_counts h.counts hm
    rw [← overcount_went hes hr.queued, hover] at hcounts
    obtain ⟨hb, hclosing⟩ := hoff (by rw [hpc]; rfl)
    have hfront : frontOf L (queueAll e.sock.buffer_ msgs) = [] := by
      rcases hr.goes with ⟨hgo, _⟩ | hret
      · have hidle := hgo.not_idle
        rw [hpc] at hidle
        cases hidle
      · rw [hpc, Pc.returned.injEq, Ret.recv.injEq] at hret
        exact hret.symm
    have hempty := empty_of_frontOf_nil hcounts hL hfront
    refine ⟨hclosing hempty, ?_⟩
    rw [went_sock, hb, leftOf, if_pos hempty]
    exact hcounts.symbols_nil hempty

theorem roomy_of_sends (hr : SendBlocked r.pc ∨ ∃ length, r.pc = .returned (.send length)) :
    Roomy (e.went es r) := by
  refine ⟨fun L hpc => ?_, fun hpc => ?_⟩
  · have hpc : RecvBlocked L r.pc := hpc
    rcases hr with hr | ⟨length, hr⟩
    · generalize r.pc = pc at hpc hr
      cases hr <;> cases hpc
    · have hidle := hpc.not_idle
      rw [hr] at hidle
      cases hidle
  · have hpc : r.pc = .returned (.recv []) := hpc
    rcases hr with hr | ⟨length, hr⟩
    · have hidle := hr.not_idle
      rw [hpc] at hidle
      cases hidle
    · rw [hpc] at hr
      cases hr

theorem Roomy.step (h : Tallied e) (hroom : Roomy e) (hasks : asks e a)
    (hstep : e.hears a = some e') : Roomy e' := by
  rcases hears_cases hstep with ⟨c, rfl, _, rfl⟩ | ⟨o, _, hi, rfl⟩
  · cases c with
    | send data =>
      exact roomy_of_sends (stretch_sendLoop { e.sock with sendSeqnum_ := 0 } data 0).goes
    | recv L =>
      exact h.zero_of_reads rfl hasks fits_nil (stretch_recv e.sock L) (readsOff_recv e.sock L)
  · rcases h.blocked hi with ⟨L, hpc⟩ | hpc
    · exact h.zero_of_reads rfl (hroom.room L hpc) (fun m hm => received_fits hm)
        (stretch_resume hpc e.sock o) (readsOff_resume hpc e.sock o)
    · exact roomy_of_sends (stretch_sends hpc e.sock o).goes

/-! ### The result -/

theorem marksEmpty_iff : marksEmpty e a ↔
    ∀ o ∈ a.heard, ((received e.sock e.pc o).map markLength).sum = 0 := by
  have hmark : ∀ m : MsgT, (m.hasFlag EOS = true → m.length = 0) ↔ markLength m = 0 := by
    intro m
    unfold markLength
    split
    next he => exact ⟨fun h => by rw [h he]; rfl, fun h _ => UInt16.toNat_inj.mp h⟩
    next he => exact ⟨fun _ => rfl, fun _ h => absurd h he⟩
  unfold marksEmpty
  simp only [hmark, List.sum_eq_zero_iff_forall_eq_nat, List.forall_mem_map]

/-- What is counted too much grows by what the markers carry. -/
theorem overcount_hears (h : Tallied e) (hstep : e.hears a = some e') :
    (overcount e'.record = overcount e.record ↔ marksEmpty e a) ∧
      overcount e.record ≤ overcount e'.record := by
  rw [marksEmpty_iff]
  rcases hears_cases hstep with ⟨c, rfl, _, rfl⟩ | ⟨o, ho, hi, rfl⟩
  · have hq : queuedIn (start e.sock c).out = [] := by
      cases c with
      | send data => exact (stretch_sendLoop { e.sock with sendSeqnum_ := 0 } data 0).queued
      | recv L => exact (stretch_recv e.sock L).queued
    rw [overcount_went rfl hq]
    exact ⟨iff_of_true rfl fun o ho => (by cases ho), Nat.le_refl _⟩
  · have hq : queuedIn (resume e.sock e.pc o).out = received e.sock e.pc o := by
      rcases h.blocked hi with ⟨L, hpc⟩ | hpc
      · exact (stretch_resume hpc e.sock o).queued
      · rw [(stretch_sends hpc e.sock o).queued]
        generalize e.pc = pc at hpc
        cases hpc <;> rfl
    rw [overcount_went rfl hq, ho]
    refine ⟨?_, Nat.le_add_right _ _⟩
    rw [Nat.add_eq_left]
    exact ⟨fun h o' ho' => Option.mem_some.mp ho' ▸ h, fun h => h o rfl⟩

/-- Without such markers, what can be read is what was queued. -/
theorem readable_eq {record : List Entry} (h : overcount record = 0) :
    readable record = storedBytes record := by
  unfold readable storedBytes
  unfold overcount at h
  refine List.flatMap_congr fun m hm => ?_
  have hmark := List.sum_eq_zero_iff_forall_eq_nat.mp h (markLength m) (List.mem_map_of_mem hm)
  unfold markLength at hmark
  unfold MsgBufferT.tapeOf
  split
  next he =>
    rw [if_pos he] at hmark
    rw [payload, hmark, List.take_zero]
    rfl
  next => exact symbols_map_some m.payload

theorem zero_of_exact (h : Tallied e) (hroom : Roomy e) (hover : overcount e.record = 0) :
    ZeroMeansClosed e where
  counted := by rw [h.counts.size, hover, Nat.add_zero]
  zero hpc := by
    obtain ⟨hclosing, hnil⟩ := hroom.zero hpc hover
    have hbytes := h.bytes
    rw [hnil, List.append_nil, readable_eq hover] at hbytes
    exact ⟨hclosing, hbytes⟩

/-- After any calls of recv with room, any sends, and any datagrams: the count is that of the bytes
    that can be read, and 0 has meant "closed, and everything read", if and only if every EOS marker
    that was queued was empty. -/
theorem zero_means_closed_iff {s : RcsT} (h : s.buffer_ = .new) {n : Int32} {as : List Arrival}
    (hrun : Run Endpoint.hears asks ⟨s, .returned (.send n), []⟩ as e) :
    ZeroMeansClosed e ↔ Run Endpoint.hears (fun e a => asks e a ∧ marksEmpty e a)
      ⟨s, .returned (.send n), []⟩ as e := by
  have hstart : Roomy ⟨s, .returned (.send n), []⟩ :=
    ⟨fun L hpc => (by cases hpc), fun hpc => (by cases hpc)⟩
  refine hrun.good_iff_within
    (I := fun e => Tallied e ∧ Roomy e ∧ overcount e.record = 0)
    (B := fun e => Tallied e ∧ overcount e.record ≠ 0)
    ⟨tallied_start h n, hstart, rfl⟩ ?_ ?_ ?_ ?_ ?_
  · rintro e a e' ⟨ht, hroom, hover⟩ hasks hmarks hstep
    exact ⟨ht.step hstep, hroom.step ht hasks hstep,
      ((overcount_hears ht hstep).1.mpr hmarks).trans hover⟩
  · rintro e a e' ⟨ht, _, hover⟩ _ hmarks hstep
    refine ⟨ht.step hstep, fun h0 => hmarks ((overcount_hears ht hstep).1.mp ?_)⟩
    rw [h0, hover]
  · rintro e a e' ⟨ht, hover⟩ _ hstep
    have hle := (overcount_hears ht hstep).2
    exact ⟨ht.step hstep, by omega⟩
  · rintro e ⟨ht, hroom, hover⟩
    exact zero_of_exact ht hroom hover
  · rintro e ⟨ht, hover⟩ hzero
    have hsize := ht.counts.size
    have hcounted := hzero.counted
    omega

end Runs

/-- A recv of one byte, and a second one that the peer's FIN ends. -/
def closedRecv : List Arrival :=
  [.call (.recv 4), .outcome (.datagram .EAGAIN (pkt [97] 0).wire ⟨2, 0⟩),
   .outcome (.datagram .EAGAIN (pkt [97] 1).wire ⟨2, 0⟩), .outcome (.error .EAGAIN),
   .call (.recv 4), .outcome (.datagram .EAGAIN (control 666 FIN).wire ⟨2, 0⟩)]

instance (e : Endpoint) (a : Arrival) : Decidable (asks e a ∧ marksEmpty e a) := by
  unfold marksEmpty
  infer_instance

theorem zero_means_closed_fin : ∃ e,
    Run Endpoint.hears asks ⟨.new 3 ⟨0, 0⟩, .returned (.send 0), []⟩ closedRecv e ∧
    recvs e.record = [[97], []] ∧ ZeroMeansClosed e := by
  have hrun : ((exec Endpoint.hears (fun e a => asks e a ∧ marksEmpty e a)
      ⟨.new 3 ⟨0, 0⟩, .returned (.send 0), []⟩ closedRecv).map fun e => recvs e.record) =
      some [[97], []] := by decide +kernel
  rw [Option.map_eq_some_iff] at hrun
  obtain ⟨e, he, hrecvs⟩ := hrun
  have hgood := run_of_exec he
  have hasks := hgood.mono fun _ _ h => h.1
  exact ⟨e, hasks, hrecvs, (zero_means_closed_iff rfl hasks).mpr hgood⟩

/-- A marker that carries a byte. -/
def loadedMark : MsgT := { fragment 0 [1] 1 with flags := EOS }

/-- It comes alone, and nothing comes behind it. -/
def markedRecv : List Arrival :=
  [.call (.recv 4), .outcome (.datagram .EAGAIN loadedMark.wire ⟨2, 0⟩), .outcome (.error .EAGAIN)]

/-- recv returns 0 on an open socket. -/
theorem zero_on_open : ¬ ∀ s : RcsT, s.buffer_ = .new → ∀ as e,
    Run Endpoint.hears asks ⟨s, .returned (.send 0), []⟩ as e → ZeroMeansClosed e := by
  intro h
  have hrun : ((exec Endpoint.hears asks ⟨.new 3 ⟨0, 0⟩, .returned (.send 0), []⟩
      markedRecv).map fun e => (e.pc, e.sock.isClosing_)) =
      some (.returned (.recv []), false) := by decide +kernel
  rw [Option.map_eq_some_iff] at hrun
  obtain ⟨e, he, hres⟩ := hrun
  obtain ⟨hpc, hopen⟩ := Prod.mk.inj hres
  obtain ⟨hclosing, _⟩ := (h _ rfl _ e (run_of_exec he)).zero hpc
  rw [hopen] at hclosing
  cases hclosing

end Ece358.Rcs
