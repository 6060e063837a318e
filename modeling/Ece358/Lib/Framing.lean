/-
  File:      Ece358/Lib/Framing.lean
  Subject:   Fixed-size messages on a byte stream, and a receiver that decodes each chunk once.

  A stream arrives in chunks. The receiver here copies each chunk over the start of a buffer that
  holds anything before, and decodes one message from the start of the buffer. General facts, over
  any messages and bytes:

  * `Codec` -- messages of a fixed size, written and read back;
  * `takeThrough` -- a list up to and including the first element that stops it;
  * `Framed` -- each chunk starts with the next message, up to the first that stops;
  * `framed_iff` -- the receiver gets the messages right, whatever the buffer holds, if and only if
    the chunks are framed;
  * `Framed.exact` -- where nothing stops, such chunks are the messages themselves.
-/
import Mathlib.Data.List.Basic
import Mathlib.Logic.Nontrivial.Basic

namespace Lib

/-- Messages `α` as byte strings of one size. -/
structure Codec (α β : Type*) where
  size : Nat
  enc : α → List β
  dec : List β → α
  length_enc : ∀ a, (enc a).length = size
  dec_enc : ∀ a rest, dec (enc a ++ rest) = a
  enc_dec : ∀ bs, size ≤ bs.length → enc (dec bs) = bs.take size

/-! ## 1. Up to the first stop -/

section TakeThrough

variable {α : Type*} {p : α → Bool} {l : List α}

/-- The list up to the first element with `p`, including it. -/
def takeThrough (p : α → Bool) : List α → List α
  | [] => []
  | a :: l => if p a then [a] else a :: takeThrough p l

@[simp] theorem takeThrough_nil : takeThrough p [] = [] := rfl

theorem takeThrough_stop {a : α} (h : p a = true) (l : List α) : takeThrough p (a :: l) = [a] :=
  if_pos h

theorem takeThrough_go {a : α} (h : p a = false) (l : List α) :
    takeThrough p (a :: l) = a :: takeThrough p l := if_neg (by simp [h])

theorem takeThrough_cons_ne_nil (a : α) (l : List α) : takeThrough p (a :: l) ≠ [] := by
  unfold takeThrough
  split <;> exact List.cons_ne_nil _ _

theorem head_takeThrough {a b : α} {l' : List α}
    (h : takeThrough p (a :: l) = takeThrough p (b :: l')) : a = b := by
  unfold takeThrough at h
  split at h <;> split at h <;> exact (List.cons.inj h).1

/-- Nothing has stopped the list yet. -/
theorem takeThrough_append_of_all (h : ∀ a ∈ takeThrough p l, p a = false) (l' : List α) :
    takeThrough p (l ++ l') = takeThrough p l ++ takeThrough p l' := by
  induction l with
  | nil => rfl
  | cons a l ih =>
    cases hp : p a with
    | true =>
      rw [takeThrough_stop hp] at h
      exact absurd (h a List.mem_cons_self) (by simp [hp])
    | false =>
      rw [takeThrough_go hp] at h
      rw [List.cons_append, takeThrough_go hp, takeThrough_go hp,
        ih fun b hb => h b (List.mem_cons_of_mem a hb), List.cons_append]

theorem takeThrough_singleton (a : α) : takeThrough p [a] = [a] := by
  unfold takeThrough
  split <;> rfl

/-- What comes behind a stop does not count. -/
theorem takeThrough_append (h : ∃ a ∈ takeThrough p l, p a = true) (l' : List α) :
    takeThrough p (l ++ l') = takeThrough p l := by
  induction l with
  | nil =>
    obtain ⟨a, ha, _⟩ := h
    cases ha
  | cons a l ih =>
    cases hp : p a with
    | true => rw [List.cons_append, takeThrough_stop hp, takeThrough_stop hp]
    | false =>
      rw [takeThrough_go hp] at h ⊢
      obtain ⟨b, hb, hpb⟩ := h
      rcases List.mem_cons.mp hb with rfl | hb
      · rw [hp] at hpb
        cases hpb
      · rw [List.cons_append, takeThrough_go hp, ih ⟨b, hb, hpb⟩]

end TakeThrough

/-! ## 2. Chunks -/

section Chunks

variable {α β : Type*} (C : Codec α β) {stop : α → Bool} {ms : List α} {chunks : List (List β)}
  {N : Nat}

/-- The message that is read off a buffer with the content `r.2`, over which the chunk `r.1` was
    copied. -/
def Codec.read (r : List β × List β) : α := C.dec (r.1 ++ r.2.drop r.1.length)

/-- Each chunk starts with the next message, as long as none has stopped the stream. -/
inductive Framed (C : Codec α β) (stop : α → Bool) : List α → List (List β) → Prop where
  | nil : Framed C stop [] []
  | stop {m : α} {c : List β} (hm : stop m = true) (hc : C.enc m <+: c) (ms : List α)
      (cs : List (List β)) : Framed C stop (m :: ms) (c :: cs)
  | go {m : α} {c : List β} {ms : List α} {cs : List (List β)} (hm : stop m = false)
      (hc : C.enc m <+: c) (h : Framed C stop ms cs) : Framed C stop (m :: ms) (c :: cs)

theorem Codec.read_of_prefix {m : α} {c : List β} (h : C.enc m <+: c) (junk : List β) :
    C.read (c, junk) = m := by
  obtain ⟨rest, rfl⟩ := h
  unfold Codec.read
  rw [List.append_assoc, C.dec_enc]

/-- What the chunk does not bring is read off the buffer. -/
theorem Codec.getElem?_enc_read {c junk : List β} {i : Nat} (hN : C.size ≤ junk.length)
    (hc : c.length ≤ i) (hi : i < C.size) : (C.enc (C.read (c, junk)))[i]? = junk[i]? := by
  have hlen : C.size ≤ (c ++ junk.drop c.length).length := by
    rw [List.length_append, List.length_drop]
    omega
  unfold Codec.read
  rw [C.enc_dec _ hlen, List.getElem?_take_of_lt hi, List.getElem?_append_right hc,
    List.getElem?_drop, Nat.add_sub_cancel' hc]

/-- A chunk from which `m` is read whatever the buffer holds has the whole of `m`: a missing byte
    can be any. -/
theorem Codec.prefix_of_read [Nontrivial β] {m : α} {c : List β} (hN : C.size ≤ N)
    (h : ∀ junk : List β, junk.length = N → C.read (c, junk) = m) : C.enc m <+: c := by
  obtain ⟨b, b', hne⟩ := exists_pair_ne β
  by_cases hc : C.size ≤ c.length
  · have hread : C.dec (c ++ (List.replicate N b).drop c.length) = m :=
      h (List.replicate N b) List.length_replicate
    rw [← hread, C.enc_dec _ (by rw [List.length_append]; omega), List.take_append_of_le_length hc]
    exact List.take_prefix _ _
  · exfalso
    -- the first byte that is missing, off a buffer filled with `b`
    have hat : ∀ b, (C.enc m)[c.length]? = some b := by
      intro b
      have hN' : C.size ≤ (List.replicate N b).length := by rwa [List.length_replicate]
      rw [← h (List.replicate N b) List.length_replicate,
        C.getElem?_enc_read hN' (Nat.le_refl _) (Nat.not_le.mp hc), List.getElem?_replicate,
        if_pos (by omega)]
    exact hne (Option.some.inj ((hat b).symm.trans (hat b')))

/-- The receiver gets the messages up to the first stop, whatever its buffer holds before each
    chunk, if and only if the chunks are framed. -/
theorem framed_iff [Nontrivial β] (hN : C.size ≤ N) :
    (∀ reads : List (List β × List β), reads.map Prod.fst = chunks →
      (∀ r ∈ reads, r.2.length = N) →
      takeThrough stop (reads.map C.read) = takeThrough stop ms) ↔ Framed C stop ms chunks := by
  constructor
  · intro h
    obtain ⟨b⟩ : Nonempty β := inferInstance
    induction chunks generalizing ms with
    | nil =>
      have hnil := h [] rfl fun r hr => absurd hr List.not_mem_nil
      cases ms with
      | nil => exact .nil
      | cons m ms => exact absurd hnil.symm (takeThrough_cons_ne_nil m ms)
    | cons c cs ih =>
      -- some reads of the other chunks
      obtain ⟨rest, hrest, hrestN⟩ : ∃ rest : List (List β × List β), rest.map Prod.fst = cs ∧
          ∀ r ∈ rest, r.2.length = N := by
        refine ⟨cs.map fun c => (c, List.replicate N b), ?_, ?_⟩
        · rw [List.map_map]
          exact List.map_id cs
        · intro r hr
          obtain ⟨c, _, rfl⟩ := List.mem_map.mp hr
          exact List.length_replicate
      have hcons : ∀ (junk : List β) (rest : List (List β × List β)), junk.length = N →
          rest.map Prod.fst = cs → (∀ r ∈ rest, r.2.length = N) →
          takeThrough stop (C.read (c, junk) :: rest.map C.read) = takeThrough stop ms := by
        intro junk rest hj hr hrN
        refine h ((c, junk) :: rest) (by rw [List.map_cons, hr]) fun r hmem => ?_
        rcases List.mem_cons.mp hmem with rfl | hmem
        · exact hj
        · exact hrN r hmem
      cases ms with
      | nil =>
        exact absurd (hcons (List.replicate N b) rest List.length_replicate hrest hrestN)
          (takeThrough_cons_ne_nil _ _)
      | cons m ms =>
        have hread : ∀ junk : List β, junk.length = N → C.read (c, junk) = m :=
          fun junk hj => head_takeThrough (hcons junk rest hj hrest hrestN)
        have hc := C.prefix_of_read hN hread
        cases hm : stop m with
        | true => exact .stop hm hc ms cs
        | false =>
          refine .go hm hc (ih fun rest' hr hrN => ?_)
          have := hcons (List.replicate N b) rest' List.length_replicate hr hrN
          rw [hread _ List.length_replicate, takeThrough_go hm, takeThrough_go hm] at this
          exact (List.cons.inj this).2
  · intro h reads hreads hN
    induction h generalizing reads with
    | nil =>
      obtain rfl := List.map_eq_nil_iff.mp hreads
      rfl
    | @stop m c hm hc ms cs =>
      obtain ⟨r, rest, rfl, rfl, rfl⟩ := List.map_eq_cons_iff.mp hreads
      have hread : C.read r = m := C.read_of_prefix hc r.2
      rw [List.map_cons, hread, takeThrough_stop hm, takeThrough_stop hm]
    | @go m c ms cs hm hc h ih =>
      obtain ⟨r, rest, rfl, rfl, hrest⟩ := List.map_eq_cons_iff.mp hreads
      have hread : C.read r = m := C.read_of_prefix hc r.2
      rw [List.map_cons, hread, takeThrough_go hm, takeThrough_go hm,
        ih rest hrest fun r hr => hN r (List.mem_cons_of_mem _ hr)]

/-- Framed chunks of a stream that nothing stops are the messages, one by one. -/
theorem Framed.exact (h : Framed C stop ms chunks) (hms : ∀ m ∈ ms, stop m = false)
    (hstream : chunks.flatten = ms.flatMap C.enc) : chunks = ms.map C.enc := by
  have hlen : ∀ {ms : List α} {chunks : List (List β)}, Framed C stop ms chunks →
      (∀ m ∈ ms, stop m = false) → (ms.flatMap C.enc).length ≤ chunks.flatten.length := by
    intro ms chunks h hms
    induction h with
    | nil => exact Nat.le_refl _
    | stop hm => exact absurd (hms _ List.mem_cons_self) (by simp [hm])
    | go hm hc h ih =>
      have hrest := ih fun m hm => hms m (List.mem_cons_of_mem _ hm)
      have hfirst := hc.length_le
      rw [List.flatMap_cons, List.flatten_cons, List.length_append, List.length_append]
      omega
  induction h with
  | nil => rfl
  | stop hm => exact absurd (hms _ List.mem_cons_self) (by simp [hm])
  | @go m c ms cs hm hc h ih =>
    have hms' : ∀ m ∈ ms, stop m = false := fun m hm => hms m (List.mem_cons_of_mem _ hm)
    obtain ⟨rest, rfl⟩ := hc
    have htail : rest ++ cs.flatten = ms.flatMap C.enc := by
      rw [List.flatten_cons, List.flatMap_cons, List.append_assoc] at hstream
      exact List.append_cancel_left hstream
    -- the other chunks have room for the other messages already
    have hrest : rest = [] := by
      have := hlen h hms'
      rw [← htail, List.length_append] at this
      exact List.eq_nil_of_length_eq_zero (by omega)
    subst hrest
    rw [List.append_nil, List.map_cons, ih hms' htail]

end Chunks

end Lib
