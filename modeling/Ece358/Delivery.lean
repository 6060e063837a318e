/-
  File:      Ece358/Delivery.lean
  Subject:   The bytes at the receiver, against the data of the sends.

  The sends before the current one are `done`, the current one is `D`, and the receiver has queued
  the first `c` messages of it:

  * `Delivered done D c b record` -- what the receiver has returned (its `record`) and what is in
    its buffer `b` are the bytes of `done` and of these `c` messages, in order;
  * `Delivered.received` -- every stretch of recv keeps it;
  * `Delivered.next` -- so does the start of the next send;
  * `Delivered.isPrefix`, `Delivered.complete` -- what it says of the bytes.
-/
import Ece358.Direction

namespace Ece358.Rcs

open Lib MsgT

/-- The sends that the receiver has to the end. -/
def whole (done : List (List UInt8)) (D : List UInt8) (c : Nat) : List (List UInt8) :=
  if c ≤ nfrag D then done else done ++ [D]

/-- The bytes of the send that the receiver has a part of. -/
def begun (D : List UInt8) (c : Nat) : List UInt8 := if c ≤ nfrag D then firstBytes D c else []

structure Delivered (done : List (List UInt8)) (D : List UInt8) (c : Nat) (b : MsgBufferT)
    (record : List Entry) : Prop where
  exact : b.Exact
  rest : Rest (whole done D c) (recvs record).flatten (nonempty b.closed)
  opened : b.opened = begun D c
  stored : storedBytes record = (recvs record).flatten ++ b.unread.flatten
  pieces : ∀ pre r post, recvs record = pre ++ r :: post → Inside (done ++ [D]) pre.flatten r

/-- All sends but the last one, behind an empty one. -/
theorem take_flatten_of_snoc {ds done : List (List UInt8)} {D : List UInt8} {k : Nat}
    (h : [] :: ds = done ++ [D]) (hk : k + 1 = ds.length) : (ds.take k).flatten = done.flatten := by
  have hlen : done.length = k + 1 := by
    have := congrArg List.length h
    simp only [List.length_cons, List.length_append, List.length_nil] at this
    omega
  have htake : [] :: ds.take k = done := by
    rw [← List.take_succ_cons, h, ← hlen, List.take_left]
  rw [← htake]
  rfl

section Delivered

variable {done : List (List UInt8)} {D : List UInt8} {c c' : Nat} {b b' : MsgBufferT}
  {record es : List Entry} {r : Res}

theorem begun_between (hc : c = 0 ∨ c = nfrag D + 1) : begun D c = [] := by
  rcases hc with rfl | rfl
  · rw [begun, if_pos (Nat.zero_le _), firstBytes_zero]
  · rw [begun, if_neg (by omega)]

/-- Of the messages of a send only the marker carries EOS, and it has no bytes. -/
theorem pkt_length_of_eos (hc : c ≤ nfrag D) (he : (pkt D c).hasFlag EOS = true) :
    (pkt D c).length = 0 := by
  rw [pkt_hasFlag_eos, decide_eq_true_eq] at he
  rw [le_antisymm hc he, pkt_eos, control_length]

/-- The next message of a send is queued. Its marker closes what its fragments have opened. -/
theorem queue_pkt (hc : c ≤ nfrag D) (hopen : b.opened = begun D c) :
    (b.queueMessage (pkt D c)).opened = begun D (c + 1) ∧
      nonempty (b.queueMessage (pkt D c)).closed =
        nonempty b.closed ++ if c < nfrag D then [] else nonempty [D] := by
  rw [begun, if_pos hc] at hopen
  by_cases hlt : c < nfrag D
  · have he : (pkt D c).hasFlag EOS = false := by
      rw [pkt_hasFlag_eos, decide_eq_false (by omega)]
    obtain ⟨hclosed', hopen'⟩ := MsgBufferT.queue_data (b := b) he
    refine ⟨?_, ?_⟩
    · rw [hopen', hopen, begun, if_pos (by omega), firstBytes_succ hlt]
    · rw [hclosed', if_pos hlt, List.append_nil]
  · obtain rfl : c = nfrag D := by omega
    have he : (pkt D (nfrag D)).hasFlag EOS = true := by
      rw [pkt_hasFlag_eos, decide_eq_true (le_refl _)]
    obtain ⟨hclosed', hopen'⟩ := MsgBufferT.queue_eos (b := b) he
    refine ⟨?_, ?_⟩
    · rw [hopen', begun_between (Or.inr rfl)]
    · rw [hclosed', nonempty_append, hopen, firstBytes_nfrag, if_neg hlt]

/-- An empty buffer holds all of an empty send. -/
theorem delivered_start (hb : b.Exact) (hu : b.unread = []) : Delivered [] [] 1 b [] := by
  have hnil := hu
  rw [MsgBufferT.unread_eq, List.append_eq_nil_iff] at hnil
  refine
    { exact := hb
      rest := by
        rw [hnil.1]
        exact Or.inl ⟨rfl, rfl⟩
      opened := ?_
      stored := by rw [hu]; rfl
      pieces := fun pre r post hr => by cases pre <;> cases hr }
  by_contra hne
  rw [nonempty_cons_of_ne hne] at hnil
  cases hnil.2

/-- What is queued lies behind what was unread. -/
theorem unread_queue {m : MsgT} (b : MsgBufferT) (he : m.hasFlag EOS = true → m.payload = []) :
    (b.queueMessage m).unread.flatten = b.unread.flatten ++ m.payload := by
  rw [MsgBufferT.unread_flatten, MsgBufferT.unread_flatten, MsgBufferT.segments_eq,
    MsgBufferT.segments_eq b]
  cases hm : m.hasFlag EOS with
  | true =>
    obtain ⟨h1, h2⟩ := MsgBufferT.queue_eos (b := b) hm
    simp [h1, h2, he hm]
  | false =>
    obtain ⟨h1, h2⟩ := MsgBufferT.queue_data (b := b) hm
    simp [h1, h2]

/-- What neither queues nor returns anything leaves no trace in the bytes. -/
theorem Delivered.entries (h : Delivered done D c b record) (hr : recvs es = [])
    (hq : queued es = []) : Delivered done D c b (record ++ es) :=
  { h with
    rest := by
      rw [recvs_append, hr, List.append_nil]
      exact h.rest
    stored := by
      rw [storedBytes_append, recvs_append, hr, h.stored, storedBytes, hq]
      simp
    pieces := by
      rw [recvs_append, hr, List.append_nil]
      exact h.pieces }

/-- A message is queued: nothing is returned. -/
theorem Delivered.queues (h : Delivered done D c b record) {m : MsgT}
    (hm : m.length.toNat ≤ MAX_DATA_LENGTH) (he : m.hasFlag EOS = true → m.length = 0)
    (hq : queued es = [m]) (hr : recvs es = [])
    (hrest : Rest (whole done D c') (recvs record).flatten (nonempty (b.queueMessage m).closed))
    (hopen : (b.queueMessage m).opened = begun D c') :
    Delivered done D c' (b.queueMessage m) (record ++ es) where
  exact := h.exact.queue hm he
  rest := by rwa [recvs_append, hr, List.append_nil]
  opened := hopen
  stored := by
    have hp : m.hasFlag EOS = true → m.payload = [] := fun hf => by
      rw [payload, he hf]
      rfl
    rw [storedBytes_append, recvs_append, hr, h.stored, storedBytes, hq, unread_queue b hp]
    simp
  pieces := by
    rw [recvs_append, hr, List.append_nil]
    exact h.pieces

/-- Every stretch of recv keeps the bytes right. -/
theorem Delivered.received (h : Delivered done D c b record) (hr : Received D b r c c') :
    Delivered done D c' r.sock.buffer_ (record ++ r.entries) := by
  cases hr with
  | nothing hb hq hr =>
    rw [hb]
    exact h.entries hr hq
  | again hc hb hq hr =>
    have he : (control 0 EOS).hasFlag EOS = true := by rw [hasFlag_control]; rfl
    obtain ⟨h1, h2⟩ := MsgBufferT.queue_eos (b := b) he
    rw [hb]
    refine h.queues (Nat.zero_le _) (fun _ => rfl) hq hr ?_ ?_
    · rw [h1, nonempty_append, h.opened, begun_between hc]
      simpa using h.rest
    · rw [h2, begun_between hc]
  | next hc hb hq hr =>
    have hrest := h.rest
    rw [whole, if_pos hc] at hrest
    obtain ⟨hopen, hclosed⟩ := queue_pkt hc h.opened
    rw [hb]
    refine h.queues (pkt_built D c).length_le (pkt_length_of_eos hc) hq hr ?_ hopen
    rw [hclosed]
    by_cases hlt : c < nfrag D
    · rw [if_pos hlt, List.append_nil, whole, if_pos (by omega)]
      exact hrest
    · rw [if_neg hlt, whole, if_neg (by omega)]
      exact rest_snoc hrest D
  | read L hc he hb hq hr =>
    obtain ⟨hread, hleft, hopened⟩ := MsgBufferT.read_spec h.exact L
    have hnil : b.opened = [] := h.opened.trans (begun_between hc)
    have hunread : b.unread = nonempty b.closed := by
      rw [MsgBufferT.unread_eq, hnil]
      simp
    have hnil' : (b.read L).2.opened = [] := List.suffix_nil.mp (hnil ▸ hopened)
    have hunread' : nonempty (b.read L).2.closed = (b.read L).2.unread := by
      rw [MsgBufferT.unread_eq, hnil']
      simp
    have hne : nonempty b.closed ≠ [] := by
      rw [← hunread]
      intro hu
      rw [← Bool.not_eq_true, MsgBufferT.Exact.empty_iff h.exact] at he
      exact he hu
    have hkeep := rest_read h.rest L
    rw [hb]
    refine
      { exact := h.exact.read L
        rest := ?_
        opened := hnil'.trans (begun_between hc).symm
        stored := ?_
        pieces := fun pre x post hsplit => ?_ }
    · rw [recvs_append, hr, List.flatten_append, List.flatten_singleton, hunread', hleft, hread,
        hunread]
      exact hkeep.1
    · have htake := frontPart_append_afterFront L b.unread
      rw [storedBytes_append, recvs_append, hr, h.stored, storedBytes, hq, List.flatten_append,
        List.flatten_singleton, hleft, hread, ← htake]
      simp
    · rw [recvs_append, hr] at hsplit
      rcases mem_split_snoc hsplit with ⟨rfl, rfl⟩ | ⟨post', hsplit⟩
      · have hin := hkeep.2 hne
        rw [whole] at hin
        rw [hread, hunread]
        split at hin
        · exact hin.append [D]
        · exact hin
      · exact h.pieces pre x post' hsplit

/-- The next send starts, once the receiver has the current one (or that one has no bytes). -/
theorem Delivered.next (h : Delivered done D c b record)
    (hc : c = nfrag D + 1 ∨ (c = 0 ∧ nfrag D = 0)) (D' : List UInt8) :
    Delivered (done ++ [D]) D' 0 b record where
  exact := h.exact
  rest := by
    have hrest := h.rest
    rw [whole, if_pos (Nat.zero_le _)]
    rcases hc with rfl | ⟨rfl, h0⟩
    · rwa [whole, if_neg (by omega)] at hrest
    · rw [whole, if_pos (Nat.zero_le _)] at hrest
      rw [nfrag_eq_zero h0]
      simpa using rest_snoc hrest []
  opened := by rw [h.opened, begun_between (by omega), begun_between (Or.inl rfl)]
  stored := h.stored
  pieces pre r post hr := (h.pieces pre r post hr).append [D']

/-- What was returned and what is in the buffer. -/
theorem Delivered.bytes (h : Delivered done D c b record) :
    (recvs record).flatten ++ b.unread.flatten = (whole done D c).flatten ++ begun D c := by
  have hf := rest_flatten h.rest
  rw [MsgBufferT.unread_eq, h.opened, List.flatten_append, ← List.append_assoc, hf,
    flatten_nonempty]
  simp

theorem Delivered.isPrefix (h : Delivered done D c b record) :
    (recvs record).flatten ++ b.unread.flatten <+: (done ++ [D]).flatten := by
  rw [h.bytes, whole, begun]
  split
  · rw [List.flatten_append, List.flatten_singleton, List.prefix_append_right_inj]
    exact List.take_prefix _ _
  · rw [List.append_nil]

theorem Delivered.done_isPrefix (h : Delivered done D c b record) :
    done.flatten <+: (recvs record).flatten ++ b.unread.flatten := by
  rw [h.bytes, whole]
  split
  · exact List.prefix_append _ _
  · rw [List.flatten_append, List.append_assoc]
    exact List.prefix_append _ _

theorem Delivered.complete (h : Delivered done D c b record)
    (hc : c = nfrag D + 1 ∨ (c = 0 ∧ nfrag D = 0)) :
    (recvs record).flatten ++ b.unread.flatten = (done ++ [D]).flatten := by
  rw [h.bytes]
  rcases hc with rfl | ⟨rfl, h0⟩
  · rw [whole, if_neg (by omega), begun_between (Or.inr rfl), List.append_nil]
  · rw [whole, if_pos (Nat.zero_le _), begun_between (Or.inl rfl), nfrag_eq_zero h0]
    simp

/-- The data of the sends that have returned is there. The sender's record is `sent`; it is `idle`
    when the current send has returned too. -/
theorem Delivered.returned (h : Delivered done D c b record) {sent : List Entry} {idle : Bool}
    (hsent : [] :: sends sent = done ++ [D])
    (hret : sendsDone sent + (if idle then 0 else 1) = (sends sent).length)
    (hdone : idle = true → c = nfrag D + 1 ∨ (c = 0 ∧ nfrag D = 0)) :
    ((sends sent).take (sendsDone sent)).flatten <+: storedBytes record := by
  rw [h.stored]
  cases hp : idle with
  | true =>
    rw [hp, if_pos rfl, Nat.add_zero] at hret
    rw [hret, List.take_length, h.complete (hdone hp), ← hsent]
    exact List.prefix_rfl
  | false =>
    rw [hp] at hret
    rw [take_flatten_of_snoc hsent hret]
    exact h.done_isPrefix

end Delivered

end Ece358.Rcs
