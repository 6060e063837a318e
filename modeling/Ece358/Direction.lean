/-
  File:      Ece358/Direction.lean
  Subject:   The invariant of one direction: a sender, a receiver, and what is between them.

  The sender is inside `send(D)`, about to repeat its `K`th message, or done with it
  (`K = nfrag D + 1`); the receiver has queued the first `c` messages of it. Between them are the
  messages on their way, `old ++ ks.map (pkt D)`, and the numbers `as` of the acknowledgements on
  their way back. The code compares numbers only, so everything rests on their order:

  * `pend s pc` -- the number of the acknowledgement that the receiver would send next;
  * `Rule n K c vs` -- the numbers `vs` on their way back, with `pend` behind them. Up to the
    number that the sender awaits they belong to the message before; behind it nothing older can
    follow. `65535` is what a receiver answers that has nothing of a message;
  * `Dir` -- the invariant itself; `Dir.begin`, `Dir.acked`, `Dir.repeat`, `Dir.weaken` and the
    like are its steps. Its `st` stands for what a run keeps in addition, so that both kinds of
    runs share the steps;
  * `Dir.sender_receives`, `Dir.receiver_receives` -- what a datagram does to either side;
    `Received` says what it does to the receiver's buffer.

  A stale acknowledgement can be taken for a new one in one place only: behind a message whose
  last number was 0 modulo 2^16 the sender can leave message 0 of the next one too early
  (`K = 1` and `c = 0`). It then waits for 1, which no receiver without message 0 ever answers.
-/
import Ece358.Net
import Mathlib.Data.List.InsertIdx

namespace Ece358.Rcs

open Lib MsgT

/-! ## 1. The numbers on their way back -/

/-- What may follow the acknowledgement of message `K`. -/
def After (n K : Nat) (v : UInt16) : Prop := v = num K ∨ (v = 65535 ∧ (K = 0 ∨ K = n))

/-- The numbers on their way back, oldest first, for a message with `n` fragments of which the
    sender repeats number `K` and the receiver has `c`. -/
structure Rule (n K c : Nat) (vs : List UInt16) : Prop where
  base : 1 ≤ K → ∀ v ∈ vs, v = num (K - 1) ∨ (v = 65535 ∧ (K = 1 ∨ K = n + 1)) ∨
    (K + 1 ≤ c ∧ After n K v)
  order : K ≤ n → vs.Pairwise fun a b => a = num K → After n K b

section Rule

variable {n K c : Nat} {vs : List UInt16} {p q : UInt16}

theorem Rule.sublist (h : Rule n K c vs) {vs' : List UInt16} (hs : vs'.Sublist vs) :
    Rule n K c vs' where
  base hK v hv := h.base hK v (hs.subset hv)
  order hK := (h.order hK).sublist hs

theorem Rule.mono (h : Rule n K c vs) {c' : Nat} (hc : c ≤ c') : Rule n K c' vs where
  base hK v hv := by
    rcases h.base hK v hv with h1 | h1 | ⟨h1, h2⟩
    · exact Or.inl h1
    · exact Or.inr (Or.inl h1)
    · exact Or.inr (Or.inr ⟨by omega, h2⟩)
  order := h.order

/-- The awaited number is not on its way before the receiver has the message. -/
theorem Rule.absent (h : Rule n K c vs) (hK : 1 ≤ K) (hKn : K ≤ n) (hc : c ≤ K) : num K ∉ vs := by
  intro hv
  rcases h.base hK _ hv with h1 | ⟨h1, h2⟩ | ⟨h1, _⟩
  · obtain ⟨k, rfl⟩ : ∃ k, K = k + 1 := ⟨K - 1, by omega⟩
    exact num_succ_ne k h1
  · rw [num_eq_max_iff] at h1
    omega
  · omega

theorem Rule.snoc (h : Rule n K c vs)
    (hb : 1 ≤ K → q = num (K - 1) ∨ (q = 65535 ∧ (K = 1 ∨ K = n + 1)) ∨ (K + 1 ≤ c ∧ After n K q))
    (ho : K ≤ n → num K ∈ vs → After n K q) : Rule n K c (vs ++ [q]) where
  base hK v hv := by
    rcases List.mem_append.mp hv with hv | hv
    · exact h.base hK v hv
    · rw [List.mem_singleton] at hv
      subst hv
      exact hb hK
  order hK := by
    rw [List.pairwise_append]
    refine ⟨h.order hK, List.pairwise_singleton _ _, fun a ha b hbm he => ?_⟩
    rw [List.mem_singleton] at hbm
    subst hbm
    subst he
    exact ho hK ha

/-- The last number can be sent again. -/
theorem Rule.dup (h : Rule n K c (vs ++ [p])) : Rule n K c (vs ++ [p, p]) := by
  have hd : Rule n K c ((vs ++ [p]) ++ [p]) := by
    refine h.snoc (fun hK => h.base hK p (by simp)) fun hK hm => ?_
    rcases List.mem_append.mp hm with hm | hm
    · have ho := h.order hK
      rw [List.pairwise_append] at ho
      exact ho.2.2 _ hm p (List.mem_singleton.mpr rfl) rfl
    · rw [List.mem_singleton] at hm
      exact Or.inl hm.symm
  rwa [List.append_assoc] at hd

/-- The receiver replaces the number it would send by another one. -/
theorem Rule.replace (h : Rule n K c (vs ++ [p])) {c' : Nat} (hc : c ≤ c')
    (hb : 1 ≤ K → q = num (K - 1) ∨ (q = 65535 ∧ (K = 1 ∨ K = n + 1)) ∨ (K + 1 ≤ c' ∧ After n K q))
    (ho : K ≤ n → num K ∈ vs → After n K q) : Rule n K c' (vs ++ [q]) :=
  ((h.sublist (List.sublist_append_left vs [p])).mono hc).snoc hb ho

/-- The receiver takes the next message. -/
theorem Rule.next (h : Rule n K c (vs ++ [p])) (hcK : c ≤ K) (hKc : K ≤ c ∨ (K = 1 ∧ c = 0)) :
    Rule n K (c + 1) (vs ++ [num c]) := by
  refine h.replace (Nat.le_succ c) (fun hK => ?_) fun hK hm => ?_
  · rcases hKc with hKc | ⟨rfl, rfl⟩
    · obtain rfl : c = K := le_antisymm hcK hKc
      exact Or.inr (Or.inr ⟨le_refl _, Or.inl rfl⟩)
    · exact Or.inl rfl
  · rcases hKc with hKc | ⟨rfl, rfl⟩
    · obtain rfl : c = K := le_antisymm hcK hKc
      exact Or.inl rfl
    · exact absurd (List.mem_append_left _ hm) (h.absent (le_refl 1) hK (Nat.zero_le 1))

/-- The receiver forgets the message it has finished. -/
theorem Rule.forget (h : Rule n K c (vs ++ [p])) (hc : c = 0 ∨ c = n + 1) (hcK : c ≤ K + 1)
    (hKc : K ≤ c ∨ (K = 1 ∧ c = 0)) : Rule n K c (vs ++ [65535]) := by
  refine h.replace (le_refl c) (fun hK => ?_) fun hK hm => ?_
  · by_cases h1 : K = 1
    · exact Or.inr (Or.inl ⟨rfl, Or.inl h1⟩)
    · by_cases hn : K = n
      · exact Or.inr (Or.inr ⟨by omega, Or.inr ⟨rfl, Or.inr hn⟩⟩)
      · exact Or.inr (Or.inl ⟨rfl, Or.inr (by omega)⟩)
  · by_cases h0 : K = 0
    · exact Or.inr ⟨rfl, Or.inl h0⟩
    · by_cases hn : K = n
      · exact Or.inr ⟨rfl, Or.inr hn⟩
      · exact absurd (List.mem_append_left _ hm) (h.absent (by omega) hK (by omega))

/-- The receiver takes a marker with number 0 that it has no use for. -/
theorem Rule.again (h : Rule n K c (vs ++ [p])) (hc : c = 0 ∨ c = n + 1) (hcK : c ≤ K + 1)
    (hKc : K ≤ c ∨ (K = 1 ∧ c = 0)) (hn : 1 ≤ c → num n = 0) : Rule n K c (vs ++ [0]) := by
  refine h.replace (le_refl c) (fun hK => ?_) fun hK hm => ?_
  · by_cases h0 : c = 0
    · have h1 : K = 1 := by omega
      subst h1
      exact Or.inl rfl
    · have hn0 := hn (by omega)
      by_cases hKn : K = n
      · subst hKn
        exact Or.inr (Or.inr ⟨by omega, Or.inl hn0.symm⟩)
      · obtain rfl : K = n + 1 := by omega
        exact Or.inl hn0.symm
  · by_cases h0 : K = 0
    · subst h0
      exact Or.inl rfl
    · by_cases hc0 : c = 0
      · exact absurd (List.mem_append_left _ hm) (h.absent (by omega) hK (by omega))
      · obtain rfl : K = n := by omega
        exact Or.inl (hn (by omega)).symm

/-- The sender reads the number it awaits. -/
theorem Rule.accept (h : Rule n K c (num K :: vs)) (hK : K ≤ n) :
    Rule n (K + 1) c vs ∧ (1 ≤ K → K + 1 ≤ c) := by
  have hafter : ∀ v ∈ vs, After n K v := fun v hv =>
    (List.pairwise_cons.mp (h.order hK)).1 v hv rfl
  refine ⟨⟨fun _ v hv => ?_, fun hKn => ?_⟩, fun hK1 => ?_⟩
  · rcases hafter v hv with h1 | ⟨h1, h2⟩
    · exact Or.inl h1
    · exact Or.inr (Or.inl ⟨h1, by omega⟩)
  · refine List.Pairwise.imp_of_mem (R := fun _ _ => True) (fun {a b} ha _ _ he => ?_)
      (List.pairwise_of_forall fun _ _ => trivial)
    exfalso
    rcases hafter a ha with h1 | ⟨h1, h2⟩
    · exact num_succ_ne K (he ▸ h1)
    · have h3 : num (K + 1) = 65535 := he ▸ h1
      rw [num_eq_max_iff] at h3
      omega
  · by_contra hc
    exact h.absent hK1 hK (by omega) List.mem_cons_self

/-- The numbers behind a finished message are as good as any in front of the next one. -/
theorem Rule.restart (h : Rule n (n + 1) c vs) (hc : c ≤ n + 1) (n' : Nat) : Rule n' 0 0 vs := by
  refine ⟨fun h0 => absurd h0 (by omega), fun _ => ?_⟩
  have hv : ∀ v ∈ vs, v = num n ∨ v = 65535 := by
    intro v hv
    rcases h.base (by omega) v hv with h1 | ⟨h1, _⟩ | ⟨h1, _⟩
    · exact Or.inl h1
    · exact Or.inr h1
    · omega
  refine List.Pairwise.imp_of_mem (R := fun _ _ => True) (fun {a b} ha hb _ he => ?_)
    (List.pairwise_of_forall fun _ _ => trivial)
  rcases hv a ha with h1 | h1
  · rcases hv b hb with h2 | h2
    · exact Or.inl (by rw [h2, ← h1, he])
    · exact Or.inr ⟨h2, Or.inl rfl⟩
  · rw [he] at h1
    exact absurd h1 (by decide)

end Rule

/-! ## 2. The two sides -/

/-- The number of the acknowledgement the receiver would send next. -/
def pend (s : RcsT) : Pc → UInt16
  | .recvLoop _ => s.recvSeqnum_ - 1
  | .finalizeRecv _ ack _ => ack.seqnum
  | _ => 65535

/-- The message is an acknowledgement, as recv sends them. -/
def IsAck (m : MsgT) : Prop := ∃ v, m = control v ACK

@[simp] theorem isAck_control (v : UInt16) : IsAck (control v ACK) := ⟨v, rfl⟩

@[simp] theorem isAck_readyAck (s : RcsT) : IsAck (readyAck s) := ⟨_, rfl⟩

/-- The receiver has no part of a message. -/
def Between (s : RcsT) : Pc → Prop
  | .recvLoop _ => s.recvSeqnum_ = 0
  | .finalizeRecv _ ack response =>
    IsAck ack ∧ RcsT.startsNext response = false
  | _ => True

/-- The receiver has the first `c` of a message with `n` fragments. -/
def ReceiverAt (n c : Nat) (s : RcsT) (pc : Pc) : Prop :=
  if 1 ≤ c ∧ c ≤ n then ∃ L, pc = .recvLoop L ∧ s.recvSeqnum_ = num c else Between s pc

/-- The call is a send. -/
def Pc.sending : Pc → Bool
  | .sendFragment _ _ _ => true
  | .sendEos _ _ => true
  | _ => false

/-- The sender repeats message `K`, or has no more to repeat. -/
def SenderAt (D : List UInt8) (K : Nat) (s : RcsT) (pc : Pc) : Prop :=
  if K ≤ nfrag D then pc = sendPc D K ∧ s.sendSeqnum_ = num K else pc.sending = false

theorem sendPc_sending (D : List UInt8) (K : Nat) : (sendPc D K).sending = true := by
  rw [sendPc]
  split <;> rfl

theorem sendPc_busy (D : List UInt8) (K : Nat) : (sendPc D K).idle = false := by
  rw [sendPc]
  split <;> rfl

theorem sendPc_awaited (D : List UInt8) (K : Nat) : (sendPc D K).awaited = some (num K) := by
  rw [← pkt_seqnum D K, sendPc]
  split <;> rfl

theorem awaited_sending {pc : Pc} {v : UInt16} (h : pc.awaited = some v) : pc.sending = true := by
  cases pc <;> first | rfl | cases h

theorem awaited_not_idle {pc : Pc} {v : UInt16} (h : pc.awaited = some v) : pc.idle = false := by
  cases pc <;> first | rfl | cases h

/-- The call is a recv. -/
def Pc.receiving : Pc → Bool
  | .recvLoop _ => true
  | .finalizeRecv _ _ _ => true
  | _ => false

theorem pend_of_not_receiving {s : RcsT} {pc : Pc} (h : pc.receiving = false) :
    pend s pc = 65535 := by
  cases pc <;> first | rfl | cases h

theorem between_of_not_receiving {s : RcsT} {pc : Pc} (h : pc.receiving = false) :
    Between s pc := by
  cases pc <;> trivial

theorem not_loop_of_not_receiving {pc : Pc} (h : pc.receiving = false) (L : Nat) :
    pc ≠ .recvLoop L := by
  rintro rfl
  cases h

theorem not_receiving_of_sending {pc : Pc} (h : pc.sending = true) : pc.receiving = false := by
  cases pc <;> first | rfl | cases h

theorem not_receiving_of_idle {pc : Pc} (h : pc.idle = true) : pc.receiving = false := by
  cases pc <;> first | rfl | cases h

theorem not_sending_of_idle {pc : Pc} (h : pc.idle = true) : pc.sending = false := by
  cases pc <;> first | rfl | cases h

theorem not_sending_of_receiving {pc : Pc} (h : pc.receiving = true) : pc.sending = false := by
  cases pc <;> first | rfl | cases h

/-- A call in progress is a send or a recv. -/
theorem sending_or_receiving {pc : Pc} (h : pc.idle = false) :
    pc.sending = true ∨ pc.receiving = true := by
  cases pc <;> first | exact Or.inl rfl | exact Or.inr rfl | cases h

section Sides

variable {n c : Nat} {s : RcsT} {pc : Pc} {D : List UInt8} {K : Nat}

theorem ReceiverAt.between (h : ReceiverAt n c s pc) (hc : c = 0 ∨ c = n + 1) : Between s pc := by
  rwa [ReceiverAt, if_neg (by omega)] at h

theorem receiverAt_between (h : Between s pc) (hc : c = 0 ∨ c = n + 1) : ReceiverAt n c s pc := by
  rwa [ReceiverAt, if_neg (by omega)]

theorem receiverAt_mid {L : Nat} (hs : s.recvSeqnum_ = num c) (h : 1 ≤ c ∧ c ≤ n) :
    ReceiverAt n c s (.recvLoop L) := by
  rw [ReceiverAt, if_pos h]
  exact ⟨L, rfl, hs⟩

/-- Where it has a part of a message, it is in the inner loop of recv. -/
theorem ReceiverAt.outside (h : ReceiverAt n c s pc) (hc : c ≤ n + 1)
    (hp : ∀ L, pc ≠ .recvLoop L) : c = 0 ∨ c = n + 1 := by
  by_contra hmid
  rw [ReceiverAt, if_pos (by omega)] at h
  obtain ⟨L, hpc, _⟩ := h
  exact hp L hpc

/-- The number that it waits for there. -/
theorem ReceiverAt.expects {L : Nat} (h : ReceiverAt n c s (.recvLoop L)) (hc : c ≤ n + 1) :
    (c ≤ n ∧ s.recvSeqnum_ = num c) ∨ (c = n + 1 ∧ s.recvSeqnum_ = 0) := by
  by_cases hmid : 1 ≤ c ∧ c ≤ n
  · rw [ReceiverAt, if_pos hmid] at h
    obtain ⟨_, _, hs⟩ := h
    exact Or.inl ⟨hmid.2, hs⟩
  · have hs : s.recvSeqnum_ = 0 := h.between (by omega)
    rcases Nat.eq_zero_or_pos c with rfl | h0
    · exact Or.inl ⟨Nat.zero_le _, hs⟩
    · exact Or.inr ⟨by omega, hs⟩

theorem SenderAt.sending (h : SenderAt D K s pc) (hK : K ≤ nfrag D) :
    pc = sendPc D K ∧ s.sendSeqnum_ = num K := by
  rwa [SenderAt, if_pos hK] at h

theorem senderAt_sending (hs : s.sendSeqnum_ = num K) (hK : K ≤ nfrag D) :
    SenderAt D K s (sendPc D K) := by
  rw [SenderAt, if_pos hK]
  exact ⟨rfl, hs⟩

theorem SenderAt.done (h : SenderAt D K s pc) (hp : pc.sending = false) : nfrag D < K := by
  by_contra hK
  have hs := (h.sending (by omega)).1
  rw [hs, sendPc_sending] at hp
  cases hp

/-- A send in progress has a message to repeat. -/
theorem SenderAt.busy (h : SenderAt D K s pc) (hp : pc.sending = true) : K ≤ nfrag D := by
  by_contra hK
  rw [SenderAt, if_neg hK, hp] at h
  cases h

theorem senderAt_done (hp : pc.sending = false) (hK : nfrag D < K) : SenderAt D K s pc := by
  rwa [SenderAt, if_neg (by omega)]

end Sides

/-! ## 3. The invariant -/

/-- A message that a sender has behind it: a marker, or an acknowledgement of its own recv. -/
def IsControl (m : MsgT) : Prop := ∃ v, m = control v EOS ∨ m = control v ACK

/-- The invariant. Where `st` holds, nothing with number 0 was left of an earlier message when the
    send started; the sender is then never ahead of the receiver. -/
structure Dir (st : Prop) (D : List UInt8) (K c : Nat) (old : List MsgT) (ks : List Nat)
    (as : List UInt16) (sa : RcsT) (pa : Pc) (sb : RcsT) (pb : Pc) : Prop where
  openA : Open sa
  openB : Open sb
  sender : SenderAt D K sa pa
  receiver : ReceiverAt (nfrag D) c sb pb
  K_le : K ≤ nfrag D + 1
  c_le : c ≤ nfrag D + 1
  c_le_K : c ≤ K + 1
  K_le_c : K ≤ c ∨ (K = 1 ∧ c = 0)
  inOrder : st → K ≤ c
  fresh : st → K = 0 → c = 0 → 0 ∉ as ++ [pend sb pb] ∧ control 0 EOS ∉ old
  oldControl : ∀ m ∈ old, IsControl m
  oldNil : 1 ≤ c → K ≤ nfrag D → old = []
  oldZero : nfrag D < K → control 0 EOS ∈ old → num (nfrag D) = 0
  ksOk : ∀ k ∈ ks, k ≤ K ∧ k ≤ nfrag D ∧ c ≤ k + 1
  ksSorted : ks.Pairwise (· ≤ ·)
  ksDone : nfrag D < K → ks = []
  rule : Rule (nfrag D) K c (as ++ [pend sb pb])

section Dir

variable {st : Prop} {D : List UInt8} {K c : Nat} {old : List MsgT} {ks : List Nat}
  {as : List UInt16} {sa sa' : RcsT} {pa pa' : Pc} {sb sb' : RcsT} {pb pb' : Pc}

/-- Datagrams get lost, or are of no use. -/
theorem Dir.weaken (h : Dir st D K c old ks as sa pa sb pb) {old' : List MsgT} {ks' : List Nat}
    {as' : List UInt16} (ho : old'.Sublist old) (hk : ks'.Sublist ks) (ha : as'.Sublist as) :
    Dir st D K c old' ks' as' sa pa sb pb :=
  { h with
    oldControl := fun m hm => h.oldControl m (ho.subset hm)
    oldNil := fun hc hK => List.sublist_nil.mp (h.oldNil hc hK ▸ ho)
    oldZero := fun hK hm => h.oldZero hK (ho.subset hm)
    ksOk := fun k hm => h.ksOk k (hk.subset hm)
    ksSorted := h.ksSorted.sublist hk
    ksDone := fun hK => List.sublist_nil.mp (h.ksDone hK ▸ hk)
    fresh := fun hst hK hc =>
      have hf := h.fresh hst hK hc
      ⟨fun hm => hf.1 ((ha.append_right _).subset hm), fun hm => hf.2 (ho.subset hm)⟩
    rule := h.rule.sublist (ha.append_right _) }

/-- The channel loses its `i`th message. -/
theorem Dir.loses (h : Dir st D K c old ks as sa pa sb pb) (i : Nat) :
    ∃ old' ks', old' ++ ks'.map (pkt D) = (old ++ ks.map (pkt D)).eraseIdx i ∧
      Dir st D K c old' ks' as sa pa sb pb := by
  by_cases hi : i < old.length
  · exact ⟨old.eraseIdx i, ks, (List.eraseIdx_append_of_lt_length hi _).symm,
      h.weaken (List.eraseIdx_sublist _ _) (List.Sublist.refl _) (List.Sublist.refl _)⟩
  · refine ⟨old, ks.eraseIdx (i - old.length), ?_,
      h.weaken (List.Sublist.refl _) (List.eraseIdx_sublist _ _) (List.Sublist.refl _)⟩
    rw [List.eraseIdx_append_of_length_le (by omega), List.eraseIdx_map]

/-- Two endpoints that nothing was sent between yet are at the end of an empty send. -/
theorem dir_start (st : Prop) (ha : Open sa) (hb : Open sb) (hpa : pa.sending = false)
    (hpb : pb.receiving = false) : Dir st [] 1 1 [] [] [] sa pa sb pb where
  openA := ha
  openB := hb
  sender := senderAt_done hpa (Nat.lt_succ_self _)
  receiver := receiverAt_between (between_of_not_receiving hpb) (Or.inr rfl)
  K_le := le_refl _
  c_le := le_refl _
  c_le_K := Nat.le_succ _
  K_le_c := Or.inl (le_refl _)
  inOrder _ := le_refl _
  fresh _ hK := absurd hK (by omega)
  oldControl m hm := absurd hm List.not_mem_nil
  oldNil _ _ := rfl
  oldZero _ hm := absurd hm List.not_mem_nil
  ksOk k hk := absurd hk List.not_mem_nil
  ksSorted := List.Pairwise.nil
  ksDone _ := rfl
  rule := by
    rw [pend_of_not_receiving hpb]
    refine ⟨fun _ v hv => Or.inr (Or.inl ⟨?_, Or.inl rfl⟩), fun _ => List.pairwise_singleton _ _⟩
    exact List.mem_singleton.mp hv

theorem sorted_snoc {k : Nat} (h : ks.Pairwise (· ≤ ·)) (hk : ∀ j ∈ ks, j ≤ k) :
    (ks ++ [k]).Pairwise (· ≤ ·) := by
  rw [List.pairwise_append]
  refine ⟨h, List.pairwise_singleton _ _, fun j hj i hi => ?_⟩
  rw [List.mem_singleton] at hi
  exact hi ▸ hk j hj

/-! ### The sender's steps -/

/-- The sender, which has no send to finish, goes on with something else. -/
theorem Dir.elsewhere (h : Dir st D K c old ks as sa pa sb pb) (hp : pa.sending = false)
    (ho : Open sa') (hp' : pa'.sending = false) : Dir st D K c old ks as sa' pa' sb pb :=
  { h with openA := ho, sender := senderAt_done hp' (h.sender.done hp) }

/-- The sender, which has no send to finish, sends acknowledgements. -/
theorem Dir.answers (h : Dir st D K c old ks as sa pa sb pb) (hp : pa.sending = false)
    {ms : List MsgT} (hm : ∀ m ∈ ms, IsAck m) :
    Dir st D K c (old ++ ms) ks as sa pa sb pb :=
  have hK := h.sender.done hp
  { h with
    oldControl := fun m hmem => by
      rcases List.mem_append.mp hmem with hmem | hmem
      · exact h.oldControl m hmem
      · obtain ⟨v, hv⟩ := hm m hmem
        exact ⟨v, Or.inr hv⟩
    oldNil := fun _ hK' => absurd hK (by omega)
    fresh := fun _ hK' => absurd hK (by omega)
    oldZero := fun _ hmem => by
      rcases List.mem_append.mp hmem with hmem | hmem
      · exact h.oldZero hK hmem
      · obtain ⟨v, hv⟩ := hm _ hmem
        cases congrArg MsgT.flags hv }

/-- A send starts. -/
theorem Dir.begin (h : Dir st D K c old ks as sa pa sb pb) (hp : pa.sending = false)
    (ho : Open sa') (hs : sa'.sendSeqnum_ = 0) (D' : List UInt8)
    (hst : st → 0 ∉ as ++ [pend sb pb] ∧ control 0 EOS ∉ old) :
    Dir st D' 0 0 old [0] as sa' (sendPc D' 0) sb pb where
  openA := ho
  openB := h.openB
  sender := senderAt_sending hs (Nat.zero_le _)
  receiver := by
    have := h.sender.done hp
    have := h.K_le_c
    have := h.c_le
    exact receiverAt_between (h.receiver.between (by omega)) (Or.inl rfl)
  K_le := Nat.zero_le _
  c_le := Nat.zero_le _
  c_le_K := Nat.zero_le _
  K_le_c := Or.inl (le_refl 0)
  inOrder _ := le_refl 0
  fresh h _ _ := hst h
  oldControl := h.oldControl
  oldNil hc := absurd hc (by omega)
  oldZero hK := absurd hK (by omega)
  ksOk k hk := by
    rw [List.mem_singleton] at hk
    omega
  ksSorted := List.pairwise_singleton _ _
  ksDone hK := absurd hK (by omega)
  rule := by
    have hK : K = nfrag D + 1 := le_antisymm h.K_le (h.sender.done hp)
    exact (hK ▸ h.rule).restart h.c_le _

/-- The sender repeats its message. -/
theorem Dir.repeats (h : Dir st D K c old ks as sa pa sb pb) (hK : K ≤ nfrag D) (ho : Open sa')
    (hs : sa'.sendSeqnum_ = sa.sendSeqnum_) :
    Dir st D K c old (ks ++ [K]) as sa' (sendPc D K) sb pb :=
  { h with
    openA := ho
    sender := senderAt_sending (hs.trans (h.sender.sending hK).2) hK
    ksOk := fun k hk => by
      rcases List.mem_append.mp hk with hk | hk
      · exact h.ksOk k hk
      · rw [List.mem_singleton] at hk
        have := h.c_le_K
        omega
    ksSorted := sorted_snoc h.ksSorted fun k hk => (h.ksOk k hk).1
    ksDone := fun hK' => absurd hK (by omega) }

/-- Where nothing of an earlier message was left, the answer is never ahead of the receiver. -/
theorem Dir.accepted_inOrder (h : Dir st D K c old ks (num K :: as) sa pa sb pb) (hst : st)
    (hK : K ≤ nfrag D) : K + 1 ≤ c := by
  by_cases h0 : K = 0
  · subst h0
    by_contra hc
    exact (h.fresh hst rfl (by omega)).1 List.mem_cons_self
  · exact (h.rule.accept hK).2 (by omega)

/-- The sender is answered, and goes on to its next message. -/
theorem Dir.advances (h : Dir st D K c old ks (num K :: as) sa pa sb pb) (hK : K < nfrag D)
    (ho : Open sa') (hs : sa'.sendSeqnum_ = num (K + 1)) :
    Dir st D (K + 1) c old (ks ++ [K + 1]) as sa' (sendPc D (K + 1)) sb pb where
  openA := ho
  openB := h.openB
  sender := senderAt_sending hs hK
  receiver := h.receiver
  K_le := by omega
  c_le := h.c_le
  c_le_K := by
    have := h.c_le_K
    omega
  K_le_c := by
    have := (h.rule.accept (le_of_lt hK)).2
    omega
  inOrder hst := h.accepted_inOrder hst (le_of_lt hK)
  fresh _ hK' := absurd hK' (by omega)
  oldControl := h.oldControl
  oldNil hc hK' := h.oldNil hc (by omega)
  oldZero hK' := absurd hK' (by omega)
  ksOk k hk := by
    have := h.c_le_K
    rcases List.mem_append.mp hk with hk | hk
    · have := h.ksOk k hk
      omega
    · rw [List.mem_singleton] at hk
      omega
  ksSorted := sorted_snoc h.ksSorted fun k hk => Nat.le_succ_of_le (h.ksOk k hk).1
  ksDone hK' := absurd hK' (by omega)
  rule := (h.rule.accept (le_of_lt hK)).1

/-- The sender is answered, and its send returns. -/
theorem Dir.finishes (h : Dir st D (nfrag D) c old ks (num (nfrag D) :: as) sa pa sb pb)
    (ho : Open sa') (hp : pa'.sending = false) :
    Dir st D (nfrag D + 1) c (old ++ ks.map (pkt D)) [] as sa' pa' sb pb := by
  have hacc := h.rule.accept (le_refl _)
  have hKc := h.K_le_c
  -- what is still on its way of this message are copies of its marker
  have hlast : ∀ k ∈ ks, k = nfrag D := fun k hk => by
    have := h.ksOk k hk
    by_cases h0 : nfrag D = 0
    · omega
    · have := hacc.2 (by omega)
      omega
  refine
    { openA := ho
      openB := h.openB
      sender := senderAt_done hp (Nat.lt_succ_self _)
      receiver := h.receiver
      K_le := le_refl _
      c_le := h.c_le
      c_le_K := le_trans h.c_le_K (Nat.le_succ _)
      inOrder := fun hst => h.accepted_inOrder hst (le_refl _)
      fresh := fun _ hK => absurd hK (by omega)
      K_le_c := ?_
      oldControl := fun m hm => ?_
      oldNil := fun _ hK => absurd hK (by omega)
      oldZero := fun _ hm => ?_
      ksOk := fun k hk => absurd hk List.not_mem_nil
      ksSorted := List.Pairwise.nil
      ksDone := fun _ => rfl
      rule := hacc.1 }
  · have := hacc.2
    omega
  · rcases List.mem_append.mp hm with hm | hm
    · exact h.oldControl m hm
    · obtain ⟨k, hk, rfl⟩ := List.mem_map.mp hm
      rw [hlast k hk, pkt_eos]
      exact ⟨_, Or.inl rfl⟩
  · rcases List.mem_append.mp hm with hm | hm
    · have hc : ¬ 1 ≤ c := fun hc => by
        rw [h.oldNil hc (le_refl _)] at hm
        cases hm
      have h0 : nfrag D = 0 := by
        by_contra h0
        have := hacc.2 (by omega)
        omega
      rw [h0]
      rfl
    · obtain ⟨k, hk, he⟩ := List.mem_map.mp hm
      rw [hlast k hk, pkt_eos] at he
      exact congrArg MsgT.seqnum he

/-! ### The receiver's steps -/

/-- The receiver stays where it is. -/
theorem Dir.stays (h : Dir st D K c old ks as sa pa sb pb) (ho : Open sb')
    (hr : ReceiverAt (nfrag D) c sb' pb') (hp : pend sb' pb' = pend sb pb) :
    Dir st D K c old ks as sa pa sb' pb' :=
  { h with openB := ho, receiver := hr, rule := hp ▸ h.rule, fresh := hp ▸ h.fresh }

/-- The receiver answers with the acknowledgement it has ready. -/
theorem Dir.repliesReady (h : Dir st D K c old ks as sa pa sb pb) (ho : Open sb')
    (hr : ReceiverAt (nfrag D) c sb' pb') (hp : pend sb' pb' = pend sb pb) :
    Dir st D K c old ks (as ++ [pend sb pb]) sa pa sb' pb' :=
  { h with
    openB := ho
    receiver := hr
    fresh := fun hst hK hc =>
      have hf := h.fresh hst hK hc
      ⟨by simpa [hp] using hf.1, hf.2⟩
    rule := by
      rw [hp, List.append_assoc]
      exact h.rule.dup }

/-- The receiver forgets the message it has finished. -/
theorem Dir.forgets (h : Dir st D K c old ks as sa pa sb pb) (hc : c = 0 ∨ c = nfrag D + 1)
    (ho : Open sb') (hr : Between sb' pb') (hp : pend sb' pb' = 65535) :
    Dir st D K c old ks as sa pa sb' pb' :=
  { h with
    openB := ho
    receiver := receiverAt_between hr hc
    fresh := fun hst hK hc =>
      have hf := h.fresh hst hK hc
      ⟨by simpa [hp] using fun hm => hf.1 (List.mem_append_left _ hm), hf.2⟩
    rule := hp ▸ h.rule.forget hc h.c_le_K h.K_le_c }

/-- The receiver takes a marker with number 0 once more. -/
theorem Dir.takesAgain (h : Dir st D K c old ks as sa pa sb pb) (hc : c = 0 ∨ c = nfrag D + 1)
    (hn : 1 ≤ c → num (nfrag D) = 0) (hst : st → K = 0 → c = 0 → False) (ho : Open sb')
    (hr : Between sb' pb') (hp : pend sb' pb' = 0) :
    Dir st D K c old ks (as ++ [0]) sa pa sb' pb' :=
  { h with
    openB := ho
    fresh := fun h hK hc => (hst h hK hc).elim
    receiver := receiverAt_between hr hc
    rule := by
      rw [hp, List.append_assoc]
      exact (h.rule.again hc h.c_le_K h.K_le_c hn).dup }

/-- The receiver takes the next message. -/
theorem Dir.takesNext (h : Dir st D K c [] (c :: ks) as sa pa sb pb) (ho : Open sb')
    (hr : ReceiverAt (nfrag D) (c + 1) sb' pb') (hp : pend sb' pb' = num c) :
    Dir st D K (c + 1) [] ks (as ++ [num c]) sa pa sb' pb' :=
  have hck := h.ksOk c List.mem_cons_self
  have hsorted := List.pairwise_cons.mp h.ksSorted
  { h with
    openB := ho
    receiver := hr
    c_le := by omega
    c_le_K := by omega
    K_le_c := by
      have := h.K_le_c
      omega
    inOrder := fun hst => le_trans (h.inOrder hst) (Nat.le_succ c)
    fresh := fun _ _ hc => absurd hc (by omega)
    oldControl := fun m hm => absurd hm List.not_mem_nil
    oldNil := fun _ _ => rfl
    oldZero := fun _ hm => absurd hm List.not_mem_nil
    ksOk := fun k hk => by
      have := h.ksOk k (List.mem_cons_of_mem _ hk)
      have := hsorted.1 k hk
      omega
    ksSorted := hsorted.2
    ksDone := fun hK => by cases h.ksDone hK
    rule := by
      rw [hp, List.append_assoc]
      exact (h.rule.next hck.1 h.K_le_c).dup }

end Dir

/-! ## 4. What the receiver does -/

/-- What a stretch of recv did with the buffer `b` of the receiver, which had `c` messages: it
    goes from `c` to `c + 1` where the message `pkt D c` was queued. -/
inductive Received (D : List UInt8) (b : MsgBufferT) (r : Res) (c : Nat) : Nat → Prop where
  | nothing (hb : r.sock.buffer_ = b) (hq : queued r.entries = []) (hr : recvs r.entries = []) :
      Received D b r c c
  | again (hc : c = 0 ∨ c = nfrag D + 1) (hb : r.sock.buffer_ = b.queueMessage (control 0 EOS))
      (hq : queued r.entries = [control 0 EOS]) (hr : recvs r.entries = []) : Received D b r c c
  | next (hc : c ≤ nfrag D) (hb : r.sock.buffer_ = b.queueMessage (pkt D c))
      (hq : queued r.entries = [pkt D c]) (hr : recvs r.entries = []) : Received D b r c (c + 1)
  | read (L : Nat) (hc : c = 0 ∨ c = nfrag D + 1) (he : b.empty = false)
      (hb : r.sock.buffer_ = (b.read L).2) (hq : queued r.entries = [])
      (hr : recvs r.entries = [(b.read L).1]) : Received D b r c c

/-- finalizeRecv holds an acknowledgement, and has not seen the start of a next message. -/
def Settled : Pc → Prop
  | .finalizeRecv _ ack response => IsAck ack ∧ RcsT.startsNext response = false
  | _ => True

/-- What every stretch of recv has in common. -/
structure Receives (r : Res) : Prop where
  isOpen : Open r.sock
  settled : Settled r.pc
  messages : ∀ m ∈ r.messages, IsAck m
  notSending : r.pc.sending = false
  sends : sends r.entries = []
  sendsDone : sendsDone r.entries = 0
  acked : acked r.entries = []

section Receiver

variable {st : Prop} {D : List UInt8} {K c : Nat} {old : List MsgT} {ks : List Nat}
  {as : List UInt16} {sa : RcsT} {pa : Pc} {s sb : RcsT} {pb : Pc} {d : List UInt8} {m : MsgT}
  {rest : List MsgT} {e : Errno} {src : SockaddrIn} {L : Nat}

theorem Open.finalizing (h : Open s) : Open (finalizing s) := ⟨h.notClosing, h.connected⟩

theorem Open.queue (h : Open s) (m : MsgT) : Open (queue s m) := ⟨h.notClosing, h.connected⟩

theorem receives_finalizeEnd (h : Open s) (L : Nat) : Receives (s.finalizeEnd L) := by
  rcases finalizeEnd_cases h L with ⟨_, hr⟩ | ⟨_, hr⟩ <;> rw [hr]
  · exact ⟨⟨h.notClosing, h.connected⟩, trivial, by simp [Res.messages, Event.message], rfl, rfl,
      rfl, rfl⟩
  · exact ⟨⟨h.notClosing, h.connected⟩, trivial, by simp [Res.messages, Event.message], rfl, rfl,
      rfl, rfl⟩

/-- A datagram makes recv send acknowledgements only. -/
theorem receives_recvLoop (h : Open s) (hd : SentAs d m) (L : Nat) (e : Errno) (src : SockaddrIn) :
    Receives (resume s (.recvLoop L) (.datagram e d src)) := by
  have ho := h.from src
  rcases recvLoop_cases h hd L e src with
    ⟨_, _, hr⟩ | ⟨_, hr⟩ | ⟨_, _, _, hr⟩ | ⟨_, _, _, hr⟩ | ⟨_, _, _, hr⟩ <;> rw [hr]
  · exact ⟨ho, trivial, by simp [Res.messages], rfl, rfl, rfl, rfl⟩
  · exact ⟨ho, trivial, by simp [Res.messages, Event.message, RcsT.rawsend], rfl, rfl, rfl, rfl⟩
  · exact ⟨ho.queue m, trivial, by simp [Res.messages, Event.message, RcsT.rawsend], rfl, rfl, rfl,
      rfl⟩
  · exact ⟨(ho.queue m).finalizing, ⟨isAck_control _, startsNext_default⟩,
      by simp [Res.messages, Event.message, RcsT.rawsend], rfl, rfl, rfl, rfl⟩
  · exact ⟨ho.finalizing, ⟨isAck_readyAck _, startsNext_default⟩,
      by simp [Res.messages, Event.message, RcsT.rawsend], rfl, rfl, rfl, rfl⟩

theorem receives_finalizeRecv (h : Open s) (hd : SentAs d m) {ack response : MsgT}
    (ha : IsAck ack) (hs : RcsT.startsNext response = false) (L : Nat) (e : Errno)
    (src : SockaddrIn) :
    Receives (resume s (.finalizeRecv L ack response) (.datagram e d src)) := by
  rcases finalize_cases h hd.noFinHere hs L ack e src with
    ⟨_, hr⟩ | ⟨_, _, response', hs', hr⟩ <;> rw [hr]
  · exact receives_finalizeEnd (h.from src) L
  · exact ⟨h.from src, ⟨ha, hs'⟩, by simpa [Res.messages, Event.message, RcsT.rawsend] using ha,
      rfl, rfl, rfl, rfl⟩

/-! ### The head of the channel -/

/-- The oldest message on its way leaves the channel. -/
theorem Dir.pop (h : Dir st D K c old ks as sa pa sb pb) (hm : old ++ ks.map (pkt D) = m :: rest) :
    ∃ old' ks', old' ++ ks'.map (pkt D) = rest ∧ Dir st D K c old' ks' as sa pa sb pb := by
  cases old with
  | cons m' old' =>
    obtain ⟨rfl, hrest⟩ := List.cons.inj hm
    exact ⟨old', ks, hrest, h.weaken (List.sublist_cons_self _ _) (List.Sublist.refl _)
      (List.Sublist.refl _)⟩
  | nil =>
    cases ks with
    | nil => cases hm
    | cons k ks' =>
      obtain ⟨_, hrest⟩ := List.cons.inj hm
      exact ⟨[], ks', hrest, h.weaken (List.Sublist.refl _) (List.sublist_cons_self _ _)
        (List.Sublist.refl _)⟩

/-- The number the inner loop of recv waits for. -/
theorem Dir.expects (h : Dir st D K c old ks as sa pa sb (.recvLoop L)) :
    (c ≤ nfrag D ∧ sb.recvSeqnum_ = num c) ∨ (c = nfrag D + 1 ∧ sb.recvSeqnum_ = 0) :=
  h.receiver.expects h.c_le

/-- A message with the expected number is the next one, or a marker with number 0 that is left
    over. -/
theorem Dir.head_expected (h : Dir st D K c old ks as sa pa sb (.recvLoop L))
    (hm : old ++ ks.map (pkt D) = m :: rest) (hack : m.hasFlag ACK = false)
    (hs : m.seqnum = sb.recvSeqnum_) :
    (∃ ks', old = [] ∧ ks = c :: ks' ∧ m = pkt D c ∧ sb.recvSeqnum_ = num c) ∨
    (m = control 0 EOS ∧ (c = 0 ∨ c = nfrag D + 1) ∧ (1 ≤ c → num (nfrag D) = 0) ∧
      (st → K = 0 → c = 0 → False) ∧ sb.recvSeqnum_ = 0) := by
  have hKc := h.K_le_c
  have hKle := h.K_le
  cases old with
  | cons m' old' =>
    right
    obtain ⟨rfl, _⟩ := List.cons.inj hm
    have hc : c = 0 ∨ c = nfrag D + 1 := by
      by_contra hc
      have := h.c_le
      cases h.oldNil (by omega) (by have := h.c_le_K; omega)
    have h0 : sb.recvSeqnum_ = 0 := h.receiver.between hc
    obtain ⟨v, hv⟩ := h.oldControl m' List.mem_cons_self
    have hv0 : v = 0 := by
      rcases hv with rfl | rfl <;> exact hs.trans h0
    subst hv0
    have he : m' = control 0 EOS := hv.resolve_right fun e => by
      rw [e, hasFlag_control] at hack
      cases hack
    refine ⟨he, hc, fun h1 => h.oldZero ?_ (he ▸ List.mem_cons_self),
      fun hst hK hc => (h.fresh hst hK hc).2 (he ▸ List.mem_cons_self), h0⟩
    by_contra hK
    cases h.oldNil h1 (by omega)
  | nil =>
    cases ks with
    | nil => cases hm
    | cons k ks' =>
      obtain ⟨rfl, _⟩ := List.cons.inj hm
      have hk := h.ksOk k List.mem_cons_self
      rw [pkt_seqnum] at hs
      rcases h.expects with ⟨hcn, hse⟩ | ⟨hcn, hse⟩
      · left
        have hkc : k = c := by
          rw [hse, num_eq_iff] at hs
          omega
        subst hkc
        exact ⟨ks', rfl, rfl, rfl, hse⟩
      · right
        obtain rfl : k = nfrag D := by omega
        rw [hse] at hs
        rw [pkt_eos, hs]
        exact ⟨rfl, Or.inr hcn, fun _ => rfl, fun _ _ hc => by omega, hse⟩

/-- A marker with another number arrives between messages only. -/
theorem Dir.head_marker (h : Dir st D K c old ks as sa pa sb (.recvLoop L))
    (hm : old ++ ks.map (pkt D) = m :: rest) (hs : m.seqnum ≠ sb.recvSeqnum_)
    (he : m.hasFlag EOS = true) : c = 0 ∨ c = nfrag D + 1 := by
  by_contra hc
  have hcn := h.c_le
  have hcK := h.c_le_K
  have hKc := h.K_le_c
  rw [h.oldNil (by omega) (by omega), List.nil_append] at hm
  cases ks with
  | nil => cases hm
  | cons k ks' =>
    obtain ⟨rfl, _⟩ := List.cons.inj hm
    have hk := h.ksOk k List.mem_cons_self
    rw [pkt_hasFlag_eos, decide_eq_true_eq] at he
    rcases h.expects with ⟨_, hse⟩ | ⟨hcn', _⟩
    · rw [pkt_seqnum, hse] at hs
      have : k = c := by omega
      exact hs (by rw [this])
    · omega

/-! ### The steps -/

/-- In finalizeRecv the receiver is between messages. -/
theorem Dir.finalizing_between {ack response : MsgT}
    (h : Dir st D K c old ks as sa pa sb (.finalizeRecv L ack response)) :
    (c = 0 ∨ c = nfrag D + 1) ∧ IsAck ack ∧ RcsT.startsNext response = false := by
  have hc := h.receiver.outside h.c_le fun _ => Pc.noConfusion
  exact ⟨hc, h.receiver.between hc⟩

/-- finalizeRecv ends. -/
theorem Dir.finalizeEnd {ack response : MsgT}
    (h : Dir st D K c old ks as sa pa sb (.finalizeRecv L ack response)) (ho : Open s)
    (hb : s.buffer_ = sb.buffer_) :
    Received D sb.buffer_ (s.finalizeEnd L) c c ∧
      Dir st D K c old ks as sa pa (s.finalizeEnd L).sock (s.finalizeEnd L).pc := by
  obtain ⟨hc, _, _⟩ := h.finalizing_between
  rcases finalizeEnd_cases ho L with ⟨he, hr⟩ | ⟨he, hr⟩ <;> rw [hr]
  · exact ⟨.nothing hb rfl rfl, h.forgets hc ⟨ho.notClosing, ho.connected⟩ rfl rfl⟩
  · exact ⟨.read L hc (hb ▸ he) (by rw [← hb]) rfl (by rw [← hb]; rfl),
      h.forgets hc ⟨ho.notClosing, ho.connected⟩ trivial rfl⟩

/-- The socket in the inner loop takes the message it waits for. -/
theorem Dir.loop_next (h : Dir st D K c [] (c :: ks) as sa pa sb (.recvLoop L)) (ho : Open s)
    (hs : s.recvSeqnum_ = num c) (he : (pkt D c).hasFlag EOS = false) :
    Dir st D K (c + 1) [] ks (as ++ [num c]) sa pa (queue s (pkt D c)) (.recvLoop L) := by
  rw [pkt_hasFlag_eos, decide_eq_false_iff_not] at he
  have hq : (queue s (pkt D c)).recvSeqnum_ = num (c + 1) := by
    show s.recvSeqnum_ + 1 = _
    rw [hs, num_succ]
  refine h.takesNext (ho.queue _) (receiverAt_mid hq (by omega)) ?_
  show (queue s (pkt D c)).recvSeqnum_ - 1 = _
  rw [hq, num_succ_sub_one]

/-- A datagram reaches the inner loop of recv. -/
theorem Dir.loop_receives (h : Dir st D K c old ks as sa pa sb (.recvLoop L)) (hd : SentAs d m)
    (hm : old ++ ks.map (pkt D) = m :: rest)
    (hack : d = m.wire → m.seqnum = sb.recvSeqnum_ → m.hasFlag ACK = false) :
    let r := resume sb (.recvLoop L) (.datagram e d src)
    ∃ c' old' ks', old' ++ ks'.map (pkt D) = rest ∧ Received D sb.buffer_ r c c' ∧
      Dir st D K c' old' ks' (as ++ acks r.messages) sa pa r.sock r.pc := by
  intro r
  have ho := h.openB.from src
  have hmsg : ∀ v, acks [control v ACK] = [v] := fun v => acks_cons_ack v []
  have hsent : ∀ v, sb.recvSeqnum_ = v → acks [control sb.recvSeqnum_ ACK] = [v] :=
    fun v hv => (hmsg _).trans (by rw [hv])
  obtain ⟨old', ks', hrest, hpop⟩ := h.pop hm
  have hstay : ReceiverAt (nfrag D) c { sb with fromEndpoint_ := src } (.recvLoop L) := h.receiver
  rcases recvLoop_cases h.openB hd L e src with
    ⟨_, _, hr⟩ | ⟨_, hr⟩ | ⟨hw, hs, he, hr⟩ | ⟨hw, hs, he, hr⟩ | ⟨_, hs, he, hr⟩
  · refine ⟨c, old', ks', hrest, ?_, ?_⟩ <;> simp only [r, hr]
    · exact .nothing rfl rfl rfl
    · exact hpop.stays ho hstay rfl |>.weaken (List.Sublist.refl _) (List.Sublist.refl _)
        (by simp [Res.messages, acks])
  · refine ⟨c, old', ks', hrest, ?_, ?_⟩ <;> simp only [r, hr]
    · exact .nothing rfl rfl rfl
    · exact (hmsg (pend sb (.recvLoop L))) ▸ hpop.repliesReady ho hstay rfl
  · -- the next fragment
    rcases h.head_expected hm (hack hw hs) hs with ⟨ks'', rfl, rfl, rfl, hse⟩ | ⟨rfl, _⟩
    · have hrest' : ks''.map (pkt D) = rest := (List.cons.inj hm).2
      refine ⟨c + 1, [], ks'', hrest', ?_, ?_⟩ <;> simp only [r, hr]
      · exact .next (h.ksOk c List.mem_cons_self).2.1 rfl rfl rfl
      · exact (hsent _ hse) ▸ h.loop_next ho hse he
    · cases he
  · -- the marker behind the last fragment, or a left-over one
    rcases h.head_expected hm (hack hw hs) hs with
      ⟨ks'', rfl, rfl, rfl, hse⟩ | ⟨rfl, hc, hn, hst, hse⟩
    · have hrest' : ks''.map (pkt D) = rest := (List.cons.inj hm).2
      have hcn := (h.ksOk c List.mem_cons_self).2.1
      rw [pkt_hasFlag_eos, decide_eq_true_eq] at he
      refine ⟨c + 1, [], ks'', hrest', ?_, ?_⟩ <;> simp only [r, hr]
      · exact .next hcn rfl rfl rfl
      · refine (hsent _ hse) ▸ h.takesNext (ho.queue _).finalizing (receiverAt_between ?_ ?_) hse
        · exact ⟨isAck_control _, startsNext_default⟩
        · omega
    · refine ⟨c, old', ks', hrest, ?_, ?_⟩ <;> simp only [r, hr]
      · exact .again hc rfl rfl rfl
      · exact (hsent _ hse) ▸ hpop.takesAgain hc hn hst (ho.queue _).finalizing
          ⟨isAck_control _, startsNext_default⟩ hse
  · -- a marker of an earlier message
    have hc := h.head_marker hm hs he
    refine ⟨c, old', ks', hrest, ?_, ?_⟩ <;> simp only [r, hr]
    · exact .nothing rfl rfl rfl
    · exact (hmsg (pend sb (.recvLoop L))) ▸ hpop.repliesReady ho.finalizing
        (receiverAt_between ⟨isAck_readyAck _, startsNext_default⟩ hc) rfl

/-- A datagram reaches finalizeRecv. -/
theorem Dir.finalize_receives {ack response : MsgT}
    (h : Dir st D K c old ks as sa pa sb (.finalizeRecv L ack response)) (hd : SentAs d m)
    (hm : old ++ ks.map (pkt D) = m :: rest) :
    let r := resume sb (.finalizeRecv L ack response) (.datagram e d src)
    ∃ old' ks', old' ++ ks'.map (pkt D) = rest ∧ Received D sb.buffer_ r c c ∧
      Dir st D K c old' ks' (as ++ acks r.messages) sa pa r.sock r.pc := by
  intro r
  obtain ⟨hc, ha, hs⟩ := h.finalizing_between
  obtain ⟨old', ks', hrest, hpop⟩ := h.pop hm
  refine ⟨old', ks', hrest, ?_⟩
  rcases finalize_cases h.openB hd.noFinHere hs L ack e src with
    ⟨_, hr⟩ | ⟨_, _, response', hs', hr⟩
  · have hend := hpop.finalizeEnd (h.openB.from src) rfl
    have hno : acks r.messages = [] := by
      simp only [r, hr]
      rcases finalizeEnd_cases (h.openB.from src) L with ⟨_, h1⟩ | ⟨_, h1⟩ <;> rw [h1] <;> rfl
    rw [hno, List.append_nil]
    simpa only [r, hr] using hend
  · simp only [r, hr]
    refine ⟨.nothing rfl rfl rfl, ?_⟩
    obtain ⟨v, rfl⟩ := ha
    exact (acks_cons_ack v []) ▸ hpop.repliesReady (h.openB.from src)
      (receiverAt_between ⟨isAck_control v, hs'⟩ hc) rfl

/-- A datagram reaches the receiver. -/
theorem Dir.receiver_receives (h : Dir st D K c old ks as sa pa sb pb) (hp : pb.receiving = true)
    (hd : SentAs d m) (hm : old ++ ks.map (pkt D) = m :: rest)
    (hack : ∀ L, pb = .recvLoop L → d = m.wire → m.seqnum = sb.recvSeqnum_ → m.hasFlag ACK = false)
    (e : Errno) (src : SockaddrIn) :
    let r := resume sb pb (.datagram e d src)
    Receives r ∧ ∃ c' old' ks', old' ++ ks'.map (pkt D) = rest ∧ Received D sb.buffer_ r c c' ∧
      Dir st D K c' old' ks' (as ++ acks r.messages) sa pa r.sock r.pc := by
  intro r
  cases pb with
  | recvLoop L =>
    exact ⟨receives_recvLoop h.openB hd L e src, h.loop_receives hd hm (hack L rfl)⟩
  | finalizeRecv L ack response =>
    obtain ⟨_, ha, hs⟩ := h.finalizing_between
    exact ⟨receives_finalizeRecv h.openB hd ha hs L e src, c, h.finalize_receives hd hm⟩
  | sendFragment _ _ _ => cases hp
  | sendEos _ _ => cases hp
  | returned _ => cases hp

/-- The receiver's timer fires. -/
theorem Dir.receiver_timeout (h : Dir st D K c old ks as sa pa sb pb) (hp : pb.receiving = true) :
    let r := resume sb pb (.error .EAGAIN)
    Receives r ∧ r.messages = [] ∧ Received D sb.buffer_ r c c ∧
      Dir st D K c old ks as sa pa r.sock r.pc := by
  cases pb with
  | recvLoop L =>
    have hr : resume sb (.recvLoop L) (.error .EAGAIN) = ⟨sb, [], .recvLoop L⟩ :=
      recvPass_timeout h.openB L
    rw [hr]
    exact ⟨⟨h.openB, trivial, by simp [Res.messages], rfl, rfl, rfl, rfl⟩, rfl,
      .nothing rfl rfl rfl, h⟩
  | finalizeRecv L ack response =>
    rw [finalize_timeout h.openB]
    refine ⟨receives_finalizeEnd h.openB L, ?_, h.finalizeEnd h.openB rfl⟩
    rcases finalizeEnd_cases h.openB L with ⟨_, h1⟩ | ⟨_, h1⟩ <;> rw [h1] <;> rfl
  | sendFragment _ _ _ => cases hp
  | sendEos _ _ => cases hp
  | returned _ => cases hp

/-- The socket at the start of a recv. -/
def recvStarted (s : RcsT) : RcsT := { s with recvSeqnum_ := 0 }

theorem Open.recvStarted (h : Open s) : Open (recvStarted s) := ⟨h.notClosing, h.connected⟩

/-- A recv starts. -/
theorem recv_start (h : Open s) (L : Nat) :
    start s (.recv L) = ⟨recvStarted s, [], .recvLoop L⟩ := by
  simp [start, RcsT.recv, RcsT.recvWhile, h.notClosing, Rcs.recvStarted]

theorem Dir.receiver_starts (h : Dir st D K c old ks as sa pa sb pb) (hp : pb.idle = true)
    (L : Nat) :
    Dir st D K c old ks as sa pa (start sb (.recv L)).sock (start sb (.recv L)).pc := by
  rw [recv_start h.openB]
  have hc := h.receiver.outside h.c_le (not_loop_of_not_receiving (not_receiving_of_idle hp))
  exact h.forgets hc h.openB.recvStarted rfl rfl

end Receiver

/-! ## 5. What the sender does -/

/-- What a stretch of `send(D)` did: it goes from `K` to `K + 1` where message `K` was answered. -/
inductive Sent (D : List UInt8) (K : Nat) (r : Res) : Nat → Prop where
  | again (ha : acked r.entries = []) (hr : sendsDone r.entries = 0) (hp : r.pc.idle = false) :
      Sent D K r K
  | next (hK : K < nfrag D) (ha : acked r.entries = [pkt D K]) (hr : sendsDone r.entries = 0)
      (hp : r.pc.idle = false) : Sent D K r (K + 1)
  | last (hK : K = nfrag D) (ha : acked r.entries = [pkt D K]) (hr : sendsDone r.entries = 1)
      (hp : r.pc.idle = true) : Sent D K r (K + 1)

/-- Only the last message ends the call. -/
theorem Sent.returns {D : List UInt8} {K K' : Nat} {r : Res} (h : Sent D K r K') :
    sendsDone r.entries + (if r.pc.idle then 0 else 1) = 1 := by
  cases h with
  | again _ hr hp => rw [hr, hp]; rfl
  | next _ _ hr hp => rw [hr, hp]; rfl
  | last _ _ hr hp => rw [hr, hp]; rfl

/-- What every stretch of `send(D)` on the socket `s` has in common. -/
structure Sends (D : List UInt8) (s : RcsT) (r : Res) : Prop where
  isOpen : Open r.sock
  messages : ∀ m ∈ r.messages, ∃ k, m = pkt D k
  notReceiving : r.pc.receiving = false
  buffer : r.sock.buffer_ = s.buffer_
  sends : sends r.entries = []
  recvs : recvs r.entries = []
  queued : queued r.entries = []

section Sender

variable {st : Prop} {D : List UInt8} {K c : Nat} {old : List MsgT} {ks : List Nat}
  {as as' : List UInt16} {s sa : RcsT} {pa : Pc} {sb : RcsT} {pb : Pc} {d : List UInt8} {m : MsgT}
  {out : List Event} {e : Errno} {src : SockaddrIn}

/-- What a stretch of a call does, where the call is blocked in a send before and behind it. -/
theorem entries_sendPc (s : RcsT) (out : List Event) (D : List UInt8) (K : Nat) :
    (⟨s, out, sendPc D K⟩ : Res).entries = out.map .did ∧ (sendPc D K).idle = false :=
  ⟨entries_of_blocked (sendPc_busy D K), sendPc_busy D K⟩

/-- A stretch that leaves the call in the send. -/
theorem blocked_sends (ho : Open s) (hb : s.buffer_ = sa.buffer_)
    (hm : ∀ m ∈ (⟨s, out, sendPc D K⟩ : Res).messages, ∃ k, m = pkt D k)
    (hq : queued (out.map .did) = []) : Sends D sa ⟨s, out, sendPc D K⟩ := by
  obtain ⟨he, _⟩ := entries_sendPc s out D K
  refine ⟨ho, hm, not_receiving_of_sending (sendPc_sending D K), hb, ?_, ?_, he ▸ hq⟩
  · rw [he, sends, List.filterMap_map]
    exact List.filterMap_eq_nil_iff.mpr fun _ _ => rfl
  · rw [he, recvs, List.filterMap_map]
    exact List.filterMap_eq_nil_iff.mpr fun _ _ => rfl

/-- A send starts. -/
theorem went_send {x : Endpoint} (h : Open x.sock) (data : List UInt8) :
    let x' := x.went [.called (.send data)] (start x.sock (.send data))
    sends x'.record = sends x.record ++ [data] ∧ sendsDone x'.record = sendsDone x.record ∧
      acked x'.record = acked x.record ∧ x'.pc = sendPc data 0 := by
  intro x'
  obtain ⟨he, _⟩ := entries_sendPc (sendStarted x.sock)
    [(sendStarted x.sock).rawsend (pkt data 0)] data 0
  have hx' : x'.record = x.record ++ [.called (.send data)] ++
      [.did ((sendStarted x.sock).rawsend (pkt data 0))] := by
    show x.record ++ _ ++ (start x.sock (.send data)).entries = _
    rw [send_start h, he]
    rfl
  refine ⟨?_, ?_, ?_, congrArg Res.pc (send_start h data)⟩
  · rw [hx', sends_append, sends_append]
    exact List.append_nil _
  · rw [hx', sendsDone_append, sendsDone_append]
    rfl
  · rw [hx', acked_append, acked_append]
    exact (List.append_nil _).trans (List.append_nil _)

/-- A stretch of it ends the last send of the record, or does not. -/
theorem Sent.returned {r : Res} {K' : Nat} {record : List Entry} (hsent : Sent D K r K')
    (hs : Sends D s r) (h : sendsDone record + 1 = (sends record).length) :
    sendsDone (record ++ r.entries) + (if r.pc.idle then 0 else 1) =
      (sends (record ++ r.entries)).length := by
  have hend := hsent.returns
  rw [sendsDone_append, sends_append, hs.sends, List.append_nil]
  omega

/-- The sender sends its message again. -/
theorem sends_again (ho : Open s) (hb : s.buffer_ = sa.buffer_) (s' : RcsT) (D : List UInt8)
    (K : Nat) : Sends D sa ⟨s, [s'.rawsend (pkt D K)], sendPc D K⟩ ∧
      Sent D K ⟨s, [s'.rawsend (pkt D K)], sendPc D K⟩ K := by
  obtain ⟨he, hp⟩ := entries_sendPc s [s'.rawsend (pkt D K)] D K
  refine ⟨blocked_sends ho hb ?_ rfl, .again ?_ ?_ hp⟩
  · simp [Res.messages, Event.message, RcsT.rawsend]
  · rw [he]; rfl
  · rw [he]; rfl

/-- The sender is not answered: its timer fires, or the datagram is not the one it awaits. -/
theorem Dir.sender_again (h : Dir st D K c old ks as sa pa sb pb) (hK : K ≤ nfrag D) {o : RecvFrom}
    (ho : Open s) (hb : s.buffer_ = sa.buffer_) (hs : s.sendSeqnum_ = sa.sendSeqnum_)
    (hack : sa.acksend (pkt D K) o = (s, [sa.rawsend (pkt D K)], false)) :
    let r := resume sa pa o
    r.messages = [pkt D K] ∧ Sends D sa r ∧ Sent D K r K ∧
      Dir st D K c old (ks ++ [K]) as r.sock r.pc sb pb := by
  intro r
  have hr : r = ⟨s, [sa.rawsend (pkt D K)], sendPc D K⟩ := by
    rw [show r = resume sa (sendPc D K) o from by rw [← (h.sender.sending hK).1]]
    exact resume_sendPc_again hack
  rw [hr]
  exact ⟨rfl, (sends_again ho hb sa D K).1, (sends_again ho hb sa D K).2, h.repeats hK ho hs⟩

/-- The sender's timer fires. -/
theorem Dir.sender_timeout (h : Dir st D K c old ks as sa pa sb pb) (hK : K ≤ nfrag D) :
    let r := resume sa pa (.error .EAGAIN)
    r.messages = [pkt D K] ∧ Sends D sa r ∧ Sent D K r K ∧
      Dir st D K c old (ks ++ [K]) as r.sock r.pc sb pb :=
  h.sender_again hK h.openA rfl rfl (acksend_timeout h.openA _)

/-- The sender is answered: it goes on to its next message, or returns. -/
theorem sends_acked {o : RecvFrom} (ho : Open s) (hb : s.buffer_ = sa.buffer_)
    (hs : s.sendSeqnum_ = num K) (hK : K ≤ nfrag D)
    (ha : sa.acksend (pkt D K) o = (s, [.acked (pkt D K)], true)) :
    let r := resume sa (sendPc D K) o
    Sends D sa r ∧ Sent D K r (K + 1) ∧ SenderAt D (K + 1) r.sock r.pc ∧
      r.messages = if K < nfrag D then [pkt D (K + 1)] else [] := by
  intro r
  have hr : r = _ := resume_sendPc_acked ho hs ha
  by_cases hlt : K < nfrag D
  · rw [if_pos hlt] at hr
    rw [if_pos hlt, hr]
    obtain ⟨he, hp⟩ := entries_sendPc (nextFragment s) [.acked (pkt D K), s.rawsend (pkt D (K + 1))]
      D (K + 1)
    have hn : (nextFragment s).sendSeqnum_ = num (K + 1) := by
      show s.sendSeqnum_ + 1 = _
      rw [hs, num_succ]
    refine ⟨blocked_sends ⟨ho.notClosing, ho.connected⟩ hb ?_ rfl, .next hlt ?_ ?_ hp,
      senderAt_sending hn hlt, rfl⟩
    · simp [Res.messages, Event.message, RcsT.rawsend]
    · rw [he]; rfl
    · rw [he]; rfl
  · rw [if_neg hlt] at hr
    rw [if_neg hlt, hr]
    refine ⟨⟨ho, by simp [Res.messages, Event.message], rfl, hb, rfl, rfl, rfl⟩,
      .last (by omega) rfl rfl rfl, senderAt_done rfl (by omega), rfl⟩

/-- A datagram reaches the sender. -/
theorem Dir.sender_receives (h : Dir st D K c old ks (acks [m] ++ as) sa pa sb pb)
    (hK : K ≤ nfrag D) (hd : SentAs d m)
    (hack : d = m.wire → m.seqnum = num K → IsAck m) (e : Errno) (src : SockaddrIn) :
    let r := resume sa pa (.datagram e d src)
    Sends D sa r ∧ ∃ K' old' ks',
      old' ++ ks'.map (pkt D) = old ++ ks.map (pkt D) ++ r.messages ∧ Sent D K r K' ∧
      Dir st D K' c old' ks' as r.sock r.pc sb pb := by
  intro r
  obtain ⟨hpa, hsa⟩ := h.sender.sending hK
  have ho := h.openA.from src
  rcases acksend_cases h.openA (pkt D K) hd e src with
    ⟨hw, hs, ha⟩ | ⟨_, ha⟩
  · -- the awaited acknowledgement
    rw [pkt_seqnum] at hs
    obtain ⟨v, rfl⟩ := hack hw hs
    obtain rfl : v = num K := hs
    rw [acks_cons_ack] at h
    have hb : ({ sa with fromEndpoint_ := src } : RcsT).buffer_ = sa.buffer_ := rfl
    obtain ⟨hsends, hsent, hat, hmsg⟩ := sends_acked ho hb hsa hK ha
    rw [← hpa] at hsends hsent hat hmsg
    by_cases hlt : K < nfrag D
    · rw [if_pos hlt] at hmsg
      obtain ⟨hpc, hn⟩ := hat.sending hlt
      refine ⟨hsends, K + 1, old, ks ++ [K + 1], ?_, hsent, ?_⟩
      · rw [hmsg, List.map_append, ← List.append_assoc]
        rfl
      · show Dir st D (K + 1) c old (ks ++ [K + 1]) as r.sock r.pc sb pb
        rw [show r.pc = _ from hpc]
        exact h.advances hlt hsends.isOpen hn
    · obtain rfl : K = nfrag D := by omega
      rw [if_neg hlt] at hmsg
      refine ⟨hsends, nfrag D + 1, old ++ ks.map (pkt D), [], by rw [hmsg]; simp, hsent, ?_⟩
      rw [SenderAt, if_neg (Nat.not_succ_le_self _)] at hat
      exact h.finishes hsends.isOpen hat
  · -- anything else
    obtain ⟨hmsg, hsends, hsent, hdir⟩ := h.sender_again hK ho rfl rfl ha
    refine ⟨hsends, K, old, ks ++ [K], ?_, hsent, hdir.weaken (List.Sublist.refl _)
      (List.Sublist.refl _) (List.sublist_append_right _ _)⟩
    rw [hmsg, List.map_append, List.append_assoc]
    rfl

end Sender

end Ece358.Rcs
