/-
  File:      Ece358/Lib/Streams.lean
  Subject:   Formatted input from a stream of characters, as the standard library of C++ has it.

  A stream is what is left of its characters, and two flags: `eof` when a read has come to the end,
  `fail` when a read has not found what it was asked for. Every read fails on a stream with a flag.

  * `Istream.readWord`, `Istream.readInt`, `Istream.getline` -- `>>` into a string, `>>` into an
    integer between two bounds, and `getline`;
  * `decimal`, `valueOf` -- the decimal text of a number, and the number that digits stand for;
  * `readWord_append`, `readInt_append`, `getline_append` -- what was written is read back, up to
    the character behind it;
  * `readWord_shorter`, `readInt_le`, `getline_le` -- a word takes at least one character, and no
    read gives one back.
-/
import Mathlib.Data.List.Basic

namespace Lib

/-! ## 1. Characters -/

/-- isspace, in the C locale -/
def isSpace (c : UInt8) : Bool := c == 32 || (9 ≤ c && c ≤ 13)

def isDigit (c : UInt8) : Bool := 48 ≤ c && c ≤ 57

/-- The number that some digits stand for. -/
def valueOf (digits : List UInt8) : Nat := digits.foldl (fun v d => 10 * v + (d.toNat - 48)) 0

/-- The decimal text of a natural number. -/
def decimal (n : Nat) : List UInt8 := (Nat.toDigits 10 n).map fun c => UInt8.ofNat c.toNat

/-- The decimal text of an integer. -/
def decimalInt : Int → List UInt8
  | .ofNat n => decimal n
  | .negSucc n => 45 :: decimal (n + 1)

/-! ## 2. Streams -/

structure Istream where
  rest : List UInt8
  eof : Bool
  fail : Bool
  deriving DecidableEq

namespace Istream

/-- A stream that nothing was read from. -/
def ofBytes (bytes : List UInt8) : Istream := ⟨bytes, false, false⟩

/-- The stream behind a read that came as far as `rest`. -/
def cameTo (rest : List UInt8) (fail : Bool) : Istream := ⟨rest, rest.isEmpty, fail⟩

/-- `>>` into a string: white space is skipped, then everything up to the next white space taken.
    Without a word the string stays as it was. -/
def readWord (s : Istream) : Istream × Option (List UInt8) :=
  if s.eof || s.fail then ({ s with fail := true }, none)
  else
    let text := s.rest.dropWhile isSpace
    if text = [] then (cameTo [] true, none)
    else
      (cameTo (text.dropWhile fun c => !isSpace c) false, some (text.takeWhile fun c => !isSpace c))

/-- `>>` into an integer from `lo` to `hi`: without digits it becomes 0, beyond a bound it becomes
    that bound, and both are failures. At the end of the stream it stays as it was. -/
def readInt (lo hi : Int) (s : Istream) : Istream × Option Int :=
  if s.eof || s.fail then ({ s with fail := true }, none)
  else
    let text := s.rest.dropWhile isSpace
    if text = [] then (cameTo [] true, none)
    else
      let number := if text.head? = some 45 ∨ text.head? = some 43 then text.tail else text
      let digits := number.takeWhile isDigit
      let rest := number.dropWhile isDigit
      let v : Int := if text.head? = some 45 then -(valueOf digits : Int) else valueOf digits
      if digits = [] then (cameTo rest true, some 0)
      else if v < lo then (cameTo rest true, some lo)
      else if hi < v then (cameTo rest true, some hi)
      else (cameTo rest false, some v)

/-- getline: everything up to the next newline, which is taken as well. Without a character it
    fails. -/
def getline (s : Istream) : Istream × Option (List UInt8) :=
  if s.eof || s.fail then ({ s with fail := true }, none)
  else
    let line := s.rest.takeWhile fun c => c != 10
    match s.rest.dropWhile fun c => c != 10 with
    | [] => (⟨[], true, line.isEmpty⟩, some line)
    | _ :: rest => (⟨rest, false, false⟩, some line)

end Istream

/-! ## 3. Numbers -/

section Numbers

theorem toNat_digit {c : Char} (h : c.isDigit = true) :
    (UInt8.ofNat c.toNat).toNat = c.toNat ∧ 48 ≤ c.toNat ∧ c.toNat ≤ 57 := by
  rw [Char.isDigit, Bool.and_eq_true, decide_eq_true_eq, decide_eq_true_eq] at h
  obtain ⟨hlo, hhi⟩ := h
  have hlo : 48 ≤ c.toNat := hlo
  have hhi : c.toNat ≤ 57 := hhi
  refine ⟨?_, hlo, hhi⟩
  rw [UInt8.toNat_ofNat']
  omega

theorem decimal_digits (n : Nat) : ∀ d ∈ decimal n, isDigit d = true := by
  intro d hd
  obtain ⟨c, hc, rfl⟩ := List.mem_map.mp hd
  obtain ⟨heq, hlo, hhi⟩ := toNat_digit (Nat.isDigit_of_mem_toDigits (by decide) (by decide) hc)
  rw [isDigit, Bool.and_eq_true, decide_eq_true_eq, decide_eq_true_eq, UInt8.le_iff_toNat_le,
    UInt8.le_iff_toNat_le, heq]
  exact ⟨hlo, hhi⟩

theorem decimal_ne_nil (n : Nat) : decimal n ≠ [] := by
  rw [decimal, ne_eq, List.map_eq_nil_iff]
  exact Nat.toDigits_ne_nil

theorem valueOf_decimal (n : Nat) : valueOf (decimal n) = n := by
  have hfold : ∀ (cs : List Char) (v : Nat), (∀ c ∈ cs, c.isDigit = true) →
      (cs.map fun c => UInt8.ofNat c.toNat).foldl (fun v d => 10 * v + (d.toNat - 48)) v =
        Nat.ofDigitChars 10 cs v := by
    intro cs
    induction cs with
    | nil => exact fun v _ => Nat.ofDigitChars_nil.symm
    | cons c cs ih =>
      intro v hcs
      rw [List.map_cons, List.foldl_cons, Nat.ofDigitChars_cons,
        (toNat_digit (hcs c List.mem_cons_self)).1,
        ih _ fun c' hc' => hcs c' (List.mem_cons_of_mem c hc')]
      rfl
  have hdigits : ∀ c ∈ Nat.toDigits 10 n, c.isDigit = true := fun c hc =>
    Nat.isDigit_of_mem_toDigits (by decide) (by decide) hc
  rw [valueOf, decimal, hfold _ _ hdigits]
  exact Nat.ofDigitChars_ten_toDigits

/-- A digit is no white space. -/
theorem not_space_of_digit {d : UInt8} (h : isDigit d = true) : isSpace d = false := by
  rw [isDigit, Bool.and_eq_true, decide_eq_true_eq, decide_eq_true_eq, UInt8.le_iff_toNat_le,
    UInt8.le_iff_toNat_le] at h
  have h48 : (48 : UInt8).toNat = 48 := rfl
  have h13 : (13 : UInt8).toNat = 13 := rfl
  have hne : d ≠ 32 := fun e => by
    rw [e] at h
    exact absurd h.1 (by decide)
  rw [isSpace, Bool.or_eq_false_iff, beq_eq_false_iff_ne, Bool.and_eq_false_iff]
  refine ⟨hne, Or.inr (decide_eq_false fun hle => ?_)⟩
  rw [UInt8.le_iff_toNat_le] at hle
  omega

end Numbers

/-! ## 4. What was written is read back -/

section Read

variable {α : Type} {p : α → Bool} {ws w : List UInt8} {c : UInt8}

/-- A run of characters of one kind, and the first that is of another. -/
theorem takeWhile_run {w tail : List α} {c : α} (hw : ∀ a ∈ w, p a = true) (hc : p c = false) :
    (w ++ c :: tail).takeWhile p = w := by
  rw [List.takeWhile_append_of_pos hw, List.takeWhile_cons_of_neg (Bool.eq_false_iff.mp hc),
    List.append_nil]

theorem dropWhile_run {w tail : List α} {c : α} (hw : ∀ a ∈ w, p a = true) (hc : p c = false) :
    (w ++ c :: tail).dropWhile p = c :: tail := by
  rw [List.dropWhile_append_of_pos hw, List.dropWhile_cons_of_neg (Bool.eq_false_iff.mp hc)]

namespace Istream

/-- White space in front of a word is skipped. -/
theorem readWord_blank (hws : ∀ a ∈ ws, isSpace a = true) (rest : List UInt8) :
    (ofBytes (ws ++ rest)).readWord = (ofBytes rest).readWord := by
  unfold readWord ofBytes
  dsimp only
  rw [List.dropWhile_append_of_pos hws]
  rfl

/-- A word, up to the white space behind it. -/
theorem readWord_append (hne : w ≠ []) (hw : ∀ a ∈ w, isSpace a = false) (hc : isSpace c = true)
    (tail : List UInt8) : (ofBytes (w ++ c :: tail)).readWord = (ofBytes (c :: tail), some w) := by
  obtain ⟨a, w', rfl⟩ := List.exists_cons_of_ne_nil hne
  have hnot : ∀ b ∈ a :: w', (!isSpace b) = true := fun b hb => by rw [hw b hb]; rfl
  have hnotc : (!isSpace c) = false := by rw [hc]; rfl
  have htext : (a :: w' ++ c :: tail).dropWhile isSpace = a :: w' ++ c :: tail := by
    rw [List.cons_append, List.dropWhile_cons_of_neg (by rw [hw a List.mem_cons_self]; decide)]
  unfold readWord ofBytes
  dsimp only
  rw [if_neg (by decide), htext, if_neg (by simp), takeWhile_run hnot hnotc,
    dropWhile_run hnot hnotc]
  rfl

/-- A line without a newline in it, and a newline. -/
theorem getline_append {line : List UInt8} (hline : 10 ∉ line) (tail : List UInt8) :
    (ofBytes (line ++ 10 :: tail)).getline = (ofBytes tail, some line) := by
  have hrun : ∀ a ∈ line, (a != 10) = true := fun a ha =>
    bne_iff_ne.mpr fun e => hline (e ▸ ha)
  unfold getline ofBytes
  dsimp only
  rw [if_neg (by decide), takeWhile_run hrun rfl, dropWhile_run hrun rfl]

/-- An integer within the bounds, in decimal, behind white space. -/
theorem readInt_append {lo hi n : Int} (hws : ∀ a ∈ ws, isSpace a = true) (hlo : lo ≤ n)
    (hhi : n ≤ hi) (hc : isDigit c = false) (tail : List UInt8) :
    (ofBytes (ws ++ (decimalInt n ++ c :: tail))).readInt lo hi =
      (ofBytes (c :: tail), some n) := by
  -- the digits behind the sign
  have hdigits : ∀ m, (decimal m ++ c :: tail).takeWhile isDigit = decimal m := fun m =>
    takeWhile_run (decimal_digits m) hc
  have hrest : ∀ m, (decimal m ++ c :: tail).dropWhile isDigit = c :: tail := fun m =>
    dropWhile_run (decimal_digits m) hc
  cases n with
  | ofNat m =>
    obtain ⟨d, ds, hd⟩ := List.exists_cons_of_ne_nil (decimal_ne_nil m)
    have hdigit := decimal_digits m d (hd ▸ List.mem_cons_self)
    have htext : (ws ++ (decimal m ++ c :: tail)).dropWhile isSpace = decimal m ++ c :: tail := by
      rw [hd, List.cons_append, dropWhile_run hws (not_space_of_digit hdigit)]
    have hhead : (decimal m ++ c :: tail).head? = some d := by rw [hd]; rfl
    have hvalue : (m : Int) = Int.ofNat m := rfl
    have hminus : ¬(decimal m ++ c :: tail).head? = some 45 := by
      rw [hhead, Option.some.injEq]
      rintro rfl
      exact absurd hdigit (by decide)
    have hplus : ¬(decimal m ++ c :: tail).head? = some 43 := by
      rw [hhead, Option.some.injEq]
      rintro rfl
      exact absurd hdigit (by decide)
    unfold readInt ofBytes decimalInt
    dsimp only
    rw [if_neg (by decide), htext, if_neg (by simp), if_neg (not_or.mpr ⟨hminus, hplus⟩),
      if_neg hminus, hdigits, hrest, valueOf_decimal, hvalue, if_neg (decimal_ne_nil m),
      if_neg (Int.not_lt.mpr hlo), if_neg (Int.not_lt.mpr hhi)]
    rfl
  | negSucc m =>
    have htext : (ws ++ (45 :: decimal (m + 1) ++ c :: tail)).dropWhile isSpace =
        45 :: (decimal (m + 1) ++ c :: tail) := by
      rw [List.cons_append, dropWhile_run hws (by decide)]
    have hminus : (45 :: (decimal (m + 1) ++ c :: tail)).head? = some 45 := rfl
    have hvalue : -((m + 1 : Nat) : Int) = Int.negSucc m := rfl
    unfold readInt ofBytes decimalInt
    dsimp only
    rw [if_neg (by decide), htext, if_neg (by simp), if_pos (Or.inl hminus), if_pos hminus,
      List.tail_cons, hdigits, hrest, valueOf_decimal, hvalue, if_neg (decimal_ne_nil _),
      if_neg (Int.not_lt.mpr hlo), if_neg (Int.not_lt.mpr hhi)]
    rfl

/-! ### How far a read comes -/

theorem readWord_shorter {s s' : Istream} {w : List UInt8} (h : s.readWord = (s', some w)) :
    s'.rest.length < s.rest.length := by
  unfold readWord at h
  split at h
  · cases h
  · dsimp only at h
    split at h
    · cases h
    next hne =>
      obtain ⟨a, text, htext⟩ := List.exists_cons_of_ne_nil hne
      have hle := (List.dropWhile_suffix isSpace (l := s.rest)).length_le
      have hspace : isSpace a = false := by
        have hhead := List.head?_dropWhile_not isSpace s.rest
        rw [htext] at hhead
        simpa using hhead
      rw [htext, List.dropWhile_cons_of_pos (by rw [hspace]; rfl)] at h
      have hdrop := (List.dropWhile_suffix (fun c => !isSpace c) (l := text)).length_le
      rw [htext, List.length_cons] at hle
      obtain ⟨rfl, _⟩ := Prod.mk.inj h
      show (text.dropWhile _).length < _
      omega

theorem readInt_le (lo hi : Int) (s : Istream) :
    (s.readInt lo hi).1.rest.length ≤ s.rest.length := by
  have hspace := (List.dropWhile_suffix isSpace (l := s.rest)).length_le
  unfold readInt
  split
  · exact Nat.le_refl _
  · dsimp only
    generalize s.rest.dropWhile isSpace = text at hspace ⊢
    have hsign : (if text.head? = some 45 ∨ text.head? = some 43 then text.tail
        else text).length ≤ text.length := by
      split
      · rw [List.length_tail]
        exact Nat.sub_le _ _
      · exact Nat.le_refl _
    generalize (if text.head? = some 45 ∨ text.head? = some 43 then text.tail
      else text) = number at hsign ⊢
    have hdigits := (List.dropWhile_suffix isDigit (l := number)).length_le
    have hrest := Nat.le_trans hdigits (Nat.le_trans hsign hspace)
    split
    · exact Nat.zero_le _
    · split
      · exact hrest
      · generalize (if text.head? = some 45 then _ else _ : Int) = v
        split
        · exact hrest
        · split <;> exact hrest

theorem getline_le (s : Istream) : s.getline.1.rest.length ≤ s.rest.length := by
  have hdrop := (List.dropWhile_suffix (fun c => c != 10) (l := s.rest)).length_le
  unfold getline
  split
  · exact Nat.le_refl _
  · dsimp only
    split
    · exact Nat.zero_le _
    next _ rest hrest =>
      rw [hrest, List.length_cons] at hdrop
      exact Nat.le_trans (Nat.le_succ _) hdrop

end Istream

end Read

end Lib
