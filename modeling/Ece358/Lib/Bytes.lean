/-
  File:      Ece358/Lib/Bytes.lean
  Subject:   Fixed-width little-endian numbers and fields of a byte buffer.

  General facts, over any byte list:

  * `leBytes w n`, `ofLeBytes` -- the `w` low bytes of `n`, least significant first, and the
    number such bytes denote; `ofLeBytes_leBytes` and `leBytes_ofLeBytes` are the round trips;
  * `field off w bs` -- the `w` bytes at offset `off`; `field_append_right`, `field_prefix` say
    where a field of a concatenation, or of a prefix, comes from;
  * `padTo n bs` -- a buffer of exactly `n` bytes that starts with `bs` and is zero after it;
  * `Altered i bs bs'` -- the same bytes but for the one at position `i`.
-/
import Mathlib.Data.List.Basic
import Mathlib.Tactic.Ring

namespace Lib

/-! ## 1. Little-endian numbers -/

/-- The `w` low bytes of `n`, least significant first. -/
def leBytes : Nat → Nat → List UInt8
  | 0, _ => []
  | w + 1, n => UInt8.ofNat n :: leBytes w (n / 256)

/-- The number a little-endian byte string denotes. -/
def ofLeBytes : List UInt8 → Nat
  | [] => 0
  | b :: bs => b.toNat + 256 * ofLeBytes bs

@[simp] theorem length_leBytes (w n : Nat) : (leBytes w n).length = w := by
  induction w generalizing n with
  | zero => rfl
  | succ w ih => simp [leBytes, ih]

/-- Reading back what was written keeps the low `w` bytes. -/
theorem ofLeBytes_leBytes (w n : Nat) : ofLeBytes (leBytes w n) = n % 256 ^ w := by
  induction w generalizing n with
  | zero => simp [leBytes, ofLeBytes, Nat.mod_one]
  | succ w ih =>
    have hb : (UInt8.ofNat n).toNat = n % 256 := UInt8.toNat_ofNat'
    simp only [leBytes, ofLeBytes, hb, ih]
    rw [pow_succ', Nat.mod_mul]

/-- Writing back what was read. -/
theorem leBytes_ofLeBytes (bs : List UInt8) : leBytes bs.length (ofLeBytes bs) = bs := by
  induction bs with
  | nil => rfl
  | cons b bs ih =>
    have hb : b.toNat < 256 := b.toNat_lt
    have hlow : UInt8.ofNat (b.toNat + 256 * ofLeBytes bs) = b := by
      refine UInt8.toNat_inj.mp ?_
      rw [UInt8.toNat_ofNat', Nat.add_mul_mod_self_left, Nat.mod_eq_of_lt hb]
    have hhigh : (b.toNat + 256 * ofLeBytes bs) / 256 = ofLeBytes bs := by omega
    rw [List.length_cons, ofLeBytes, leBytes, hlow, hhigh, ih]

theorem ofLeBytes_lt (bs : List UInt8) : ofLeBytes bs < 256 ^ bs.length := by
  induction bs with
  | nil => exact Nat.one_pos
  | cons b bs ih =>
    have hb : b.toNat < 256 := b.toNat_lt
    rw [ofLeBytes, List.length_cons, pow_succ']
    omega

theorem ofLeBytes_replicate_zero (k : Nat) : ofLeBytes (List.replicate k 0) = 0 := by
  induction k with
  | zero => rfl
  | succ k ih => simp [List.replicate_succ, ofLeBytes, ih]

/-! ## 2. Fields of a buffer -/

/-- The `w` bytes at offset `off`. -/
def field (off w : Nat) (bs : List UInt8) : List UInt8 := (bs.drop off).take w

/-- A field that starts where the first part ends is the head of the second part. -/
theorem field_append_right (xs ys : List UInt8) {off : Nat} (w : Nat) (h : xs.length = off) :
    field off w (xs ++ ys) = ys.take w := by
  subst h
  simp [field]

/-- A field that starts behind the first part is a field of the second part. -/
theorem field_append_skip (xs ys : List UInt8) {off : Nat} (w : Nat) (h : xs.length ≤ off) :
    field off w (xs ++ ys) = field (off - xs.length) w ys := by
  simp only [field]
  rw [List.drop_append, List.drop_eq_nil_of_le h, List.nil_append]

/-- A field that lies inside the first part is a field of the first part. -/
theorem field_append_left (xs ys : List UInt8) {off w : Nat} (h : off + w ≤ xs.length) :
    field off w (xs ++ ys) = field off w xs := by
  simp only [field]
  rw [List.drop_append_of_le_length (by omega), List.take_append_of_le_length]
  simp only [List.length_drop]
  omega

theorem ofLeBytes_field_lt (off w : Nat) (bs : List UInt8) :
    ofLeBytes (field off w bs) < 256 ^ w := by
  refine Nat.lt_of_lt_of_le (ofLeBytes_lt _) (Nat.pow_le_pow_right (by omega) ?_)
  rw [field, List.length_take]
  exact Nat.min_le_left _ _

/-! ## 3. Zero-filled buffers -/

/-- A buffer of `n` bytes that holds (the first `n` bytes of) `bs` and is zero behind them. -/
def padTo (n : Nat) (bs : List UInt8) : List UInt8 :=
  bs.take n ++ List.replicate (n - bs.length) 0

@[simp] theorem length_padTo (n : Nat) (bs : List UInt8) : (padTo n bs).length = n := by
  simp only [padTo, List.length_append, List.length_take, List.length_replicate]
  omega

theorem padTo_of_length_le {n : Nat} {bs : List UInt8} (h : bs.length ≤ n) :
    padTo n bs = bs ++ List.replicate (n - bs.length) 0 := by
  rw [padTo, List.take_of_length_le h]

/-- The padded buffer has only zeros behind the bytes it was given. -/
theorem drop_padTo {n k : Nat} {bs : List UInt8} (h : bs.length ≤ k) :
    (padTo n bs).drop k = List.replicate (n - k) 0 := by
  have hlen : (bs.take n).length ≤ k := by
    rw [List.length_take]
    omega
  rw [padTo, List.drop_append, List.drop_eq_nil_of_le hlen, List.nil_append,
    List.drop_replicate, List.length_take]
  congr 1
  omega

/-! ## 4. Altered bytes -/

/-- `bs'` is `bs` with another byte at position `i`. -/
def Altered (i : Nat) (bs bs' : List UInt8) : Prop :=
  i < bs.length ∧ ∃ b, bs[i]? ≠ some b ∧ bs' = bs.set i b

section Altered

variable {i off w n : Nat} {bs bs' : List UInt8}

theorem Altered.length_eq (h : Altered i bs bs') : bs'.length = bs.length := by
  obtain ⟨_, b, _, rfl⟩ := h
  exact List.length_set

theorem Altered.ne (h : Altered i bs bs') : bs' ≠ bs := by
  obtain ⟨hi, b, hb, rfl⟩ := h
  intro e
  refine hb ?_
  rw [← e, List.getElem?_set_self hi]

/-- Numbers of one width are different if their bytes are. -/
theorem Altered.ofLeBytes_ne (h : Altered i bs bs') : ofLeBytes bs' ≠ ofLeBytes bs := by
  intro e
  refine h.ne ?_
  rw [← leBytes_ofLeBytes bs', ← leBytes_ofLeBytes bs, h.length_eq, e]

theorem Altered.getElem?_ne (h : Altered i bs bs') {j : Nat} (hj : j ≠ i) : bs'[j]? = bs[j]? := by
  obtain ⟨_, b, _, rfl⟩ := h
  exact List.getElem?_set_ne hj.symm

theorem Altered.getElem?_at (h : Altered i bs bs') : ∃ b, bs'[i]? = some b ∧ bs[i]? ≠ some b := by
  obtain ⟨hi, b, hb, rfl⟩ := h
  exact ⟨b, List.getElem?_set_self hi, hb⟩

/-- A field that the altered byte is not in. -/
theorem Altered.field_eq (h : Altered i bs bs') (ho : i < off ∨ off + w ≤ i) :
    field off w bs' = field off w bs := by
  refine List.ext_getElem? fun j => ?_
  unfold field
  by_cases hj : j < w
  · rw [List.getElem?_take_of_lt hj, List.getElem?_take_of_lt hj, List.getElem?_drop,
      List.getElem?_drop, h.getElem?_ne (by omega)]
  · rw [List.getElem?_take_eq_none (by omega), List.getElem?_take_eq_none (by omega)]

/-- The field that it is in. -/
theorem Altered.field (h : Altered i bs bs') (ho : off ≤ i) (hi : i < off + w) :
    Altered (i - off) (field off w bs) (field off w bs') := by
  obtain ⟨hlt, b, hb, rfl⟩ := h
  have hat : (Lib.field off w bs)[i - off]? = bs[i]? := by
    unfold Lib.field
    rw [List.getElem?_take_of_lt (by omega), List.getElem?_drop, Nat.add_sub_cancel' ho]
  refine ⟨?_, b, hat ▸ hb, ?_⟩
  · rw [Lib.field, List.length_take, List.length_drop]
    omega
  · unfold Lib.field
    rw [List.drop_set, if_neg (by omega), List.take_set]

/-- The number in a field stays the same if and only if the altered byte is not in it. -/
theorem Altered.ofLeBytes_field_iff (h : Altered i bs bs') (off w : Nat) :
    ofLeBytes (Lib.field off w bs') = ofLeBytes (Lib.field off w bs) ↔ i < off ∨ off + w ≤ i := by
  constructor
  · intro e
    by_contra hi
    exact (h.field (show off ≤ i by omega) (show i < off + w by omega)).ofLeBytes_ne e
  · intro hi
    rw [h.field_eq hi]

/-- An altered byte shows in a buffer that has room for it. -/
theorem Altered.padTo (h : Altered i bs bs') (hn : bs.length ≤ n) :
    Altered i (padTo n bs) (padTo n bs') := by
  obtain ⟨hlt, b, hb, rfl⟩ := h
  refine ⟨by rw [length_padTo]; omega, b, ?_, ?_⟩
  · rwa [padTo_of_length_le hn, List.getElem?_append_left hlt]
  · rw [padTo_of_length_le hn, padTo_of_length_le (by rwa [List.length_set]), List.length_set,
      List.set_append_left _ _ hlt]

end Altered

end Lib
