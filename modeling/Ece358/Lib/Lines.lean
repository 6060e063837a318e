/-
  File:      Ece358/Lib/Lines.lean
  Subject:   What `getline` and `>>` read off any text.

  * `lines` -- the lines of a text, and `Spells` -- a text that begins with an integer;
  * `Istream.readInt_iff` -- an integer is read if and only if the text begins with one, and it is
    between the bounds;
  * `Istream.getline_lines`, `Istream.getline_shorter` -- getline reads the lines one by one.
-/
import Ece358.Lib.Streams
import Mathlib.Data.List.TakeWhile

namespace Lib

/-! ## 1. Lines and integers of a text -/

/-- The lines of a text; behind the last newline there is one more if anything is there. -/
def lines : List UInt8 → List (List UInt8)
  | [] => []
  | c :: text =>
    if c = 10 then [] :: lines text
    else match lines text with
      | [] => [[c]]
      | line :: rest => (c :: line) :: rest

/-- The text is white space, perhaps a sign, digits that stand for `v`, and `rest`, which does not
    begin with a digit. -/
def Spells (text rest : List UInt8) (v : Int) : Prop :=
  ∃ ws sign digits, text = ws ++ (sign ++ (digits ++ rest)) ∧ (∀ a ∈ ws, isSpace a = true) ∧
    digits ≠ [] ∧ (∀ d ∈ digits, isDigit d = true) ∧ (∀ c ∈ rest.head?, isDigit c = false) ∧
    ((sign = [45] ∧ v = -(valueOf digits : Int)) ∨
      ((sign = [] ∨ sign = [43]) ∧ v = (valueOf digits : Int)))

/-! ## 2. What a stream reads -/

section Texts

variable {α : Type} {p : α → Bool} {w tail : List α} {text rest : List UInt8} {lo hi v : Int}

/-- A run of characters of one kind, and what does not go on with it. -/
theorem takeWhile_stop (hw : ∀ a ∈ w, p a = true) (ht : ∀ c ∈ tail.head?, p c = false) :
    (w ++ tail).takeWhile p = w := by
  cases tail with
  | nil => rw [List.append_nil, List.takeWhile_eq_self_iff.mpr hw]
  | cons c tail => exact takeWhile_run hw (ht c rfl)

theorem dropWhile_stop (hw : ∀ a ∈ w, p a = true) (ht : ∀ c ∈ tail.head?, p c = false) :
    (w ++ tail).dropWhile p = tail := by
  cases tail with
  | nil => rw [List.append_nil, List.dropWhile_eq_nil_iff.mpr hw]
  | cons c tail => exact dropWhile_run hw (ht c rfl)

theorem head_dropWhile_not (p : α → Bool) (l : List α) :
    ∀ c ∈ (l.dropWhile p).head?, p c = false := by
  intro c hc
  have hnot := List.head?_dropWhile_not p l
  rw [Option.mem_def] at hc
  rw [hc] at hnot
  simpa using hnot

/-- A text without its sign. -/
theorem exists_sign (text : List UInt8) : ∃ sign number, text = sign ++ number ∧
    (if text.head? = some 45 ∨ text.head? = some 43 then text.tail else text) = number ∧
    ((sign = [45] ∧ text.head? = some 45) ∨
      ((sign = [] ∨ sign = [43]) ∧ text.head? ≠ some 45)) := by
  cases text with
  | nil => exact ⟨[], [], rfl, rfl, Or.inr ⟨Or.inl rfl, fun h => by cases h⟩⟩
  | cons c number =>
    by_cases h45 : c = 45
    · subst h45
      exact ⟨[45], number, rfl, rfl, Or.inl ⟨rfl, rfl⟩⟩
    · have hne : (c :: number).head? ≠ some 45 := fun h => h45 (Option.some.inj h)
      by_cases h43 : c = 43
      · subst h43
        exact ⟨[43], number, rfl, rfl, Or.inr ⟨Or.inr rfl, hne⟩⟩
      · have hne' : (c :: number).head? ≠ some 43 := fun h => h43 (Option.some.inj h)
        exact ⟨[], c :: number, rfl, if_neg (not_or.mpr ⟨hne, hne'⟩), Or.inr ⟨Or.inl rfl, hne⟩⟩

/-- The sign and the digits behind white space begin with none. -/
theorem not_space_of_number {sign digits rest : List UInt8}
    (hsign : sign = [45] ∨ sign = [] ∨ sign = [43]) (hne : digits ≠ [])
    (hdigits : ∀ d ∈ digits, isDigit d = true) :
    ∀ c ∈ (sign ++ (digits ++ rest)).head?, isSpace c = false := by
  obtain ⟨d, ds, rfl⟩ := List.exists_cons_of_ne_nil hne
  have hd := not_space_of_digit (hdigits d List.mem_cons_self)
  intro c hc
  rcases hsign with rfl | rfl | rfl
  · obtain rfl := Option.some.inj hc
    rfl
  · obtain rfl := Option.some.inj hc
    exact hd
  · obtain rfl := Option.some.inj hc
    rfl

namespace Istream

/-- A read of an integer that does not fail. -/
theorem readInt_iff : (ofBytes text).readInt lo hi = (cameTo rest false, some v) ↔
    Spells text rest v ∧ lo ≤ v ∧ v ≤ hi := by
  unfold readInt ofBytes
  dsimp only
  rw [if_neg (by decide)]
  constructor
  · intro h
    have hws : ∀ a ∈ text.takeWhile isSpace, isSpace a = true := fun a ha =>
      List.mem_takeWhile_imp ha
    have htext := (List.takeWhile_append_dropWhile (p := isSpace) (l := text)).symm
    obtain ⟨sign, number, hnumber, hif, hsign⟩ := exists_sign (text.dropWhile isSpace)
    rw [hif] at h
    have hdigits : ∀ d ∈ number.takeWhile isDigit, isDigit d = true := fun d hd =>
      List.mem_takeWhile_imp hd
    have hnum := (List.takeWhile_append_dropWhile (p := isDigit) (l := number)).symm
    generalize hval : (if (text.dropWhile isSpace).head? = some 45 then
      -(valueOf (number.takeWhile isDigit) : Int) else valueOf (number.takeWhile isDigit)) = u at h
    split_ifs at h with hnil hnone hlo hhi
    · cases congrArg (fun r => r.1.fail) h
    · cases congrArg (fun r => r.1.fail) h
    · cases congrArg (fun r => r.1.fail) h
    · cases congrArg (fun r => r.1.fail) h
    · obtain ⟨hcame, hv⟩ := Prod.mk.inj h
      obtain rfl : u = v := Option.some.inj hv
      obtain rfl : number.dropWhile isDigit = rest := congrArg Istream.rest hcame
      refine ⟨⟨_, sign, number.takeWhile isDigit, ?_, hws, hnone, hdigits,
        head_dropWhile_not isDigit number, ?_⟩, by omega, by omega⟩
      · rw [← hnum, ← hnumber]
        exact htext
      · rcases hsign with ⟨hs, h45⟩ | ⟨hs, h45⟩
        · rw [if_pos h45] at hval
          exact Or.inl ⟨hs, hval.symm⟩
        · rw [if_neg h45] at hval
          exact Or.inr ⟨hs, hval.symm⟩
  · rintro ⟨⟨ws, sign, digits, rfl, hws, hne, hdigits, hrest, hv⟩, hlo, hhi⟩
    have hsigns : sign = [45] ∨ sign = [] ∨ sign = [43] := hv.imp And.left And.left
    rw [dropWhile_stop hws (not_space_of_number hsigns hne hdigits)]
    obtain ⟨d, ds, rfl⟩ := List.exists_cons_of_ne_nil hne
    have hd := hdigits d List.mem_cons_self
    have hd45 : d ≠ 45 := by
      rintro rfl
      exact absurd hd (by decide)
    have hd43 : d ≠ 43 := by
      rintro rfl
      exact absurd hd (by decide)
    have hnumber : (if (sign ++ (d :: ds ++ rest)).head? = some 45 ∨
        (sign ++ (d :: ds ++ rest)).head? = some 43 then (sign ++ (d :: ds ++ rest)).tail
        else sign ++ (d :: ds ++ rest)) = d :: ds ++ rest := by
      rcases hsigns with rfl | rfl | rfl
      · rfl
      · refine if_neg (not_or.mpr ⟨fun h => ?_, fun h => ?_⟩)
        · exact hd45 (Option.some.inj h)
        · exact hd43 (Option.some.inj h)
      · rfl
    have hvalue : (if (sign ++ (d :: ds ++ rest)).head? = some 45 then
        -(valueOf (d :: ds) : Int) else valueOf (d :: ds)) = v := by
      rcases hv with ⟨rfl, rfl⟩ | ⟨rfl | rfl, rfl⟩
      · rfl
      · exact if_neg fun h => hd45 (Option.some.inj h)
      · rfl
    rw [if_neg (by simp), hnumber, takeWhile_stop hdigits hrest, dropWhile_stop hdigits hrest,
      hvalue, if_neg hne, if_neg (Int.not_lt.mpr hlo), if_neg (Int.not_lt.mpr hhi)]

/-- A read fails, or it comes to the character behind an integer. -/
theorem readInt_cases (lo hi : Int) (s : Istream) : (s.readInt lo hi).1.fail = true ∨
    ∃ text rest v, s = ofBytes text ∧ s.readInt lo hi = (cameTo rest false, some v) := by
  obtain ⟨text, eof, fail⟩ := s
  unfold readInt
  dsimp only
  cases hflag : (eof || fail) with
  | true => exact Or.inl rfl
  | false =>
    obtain ⟨rfl, rfl⟩ := Bool.or_eq_false_iff.mp hflag
    rw [if_neg Bool.false_ne_true]
    generalize (if (text.dropWhile isSpace).head? = some 45 ∨
      (text.dropWhile isSpace).head? = some 43 then _ else _) = number
    generalize (if (text.dropWhile isSpace).head? = some 45 then _ else _ : Int) = v
    split_ifs
    · exact Or.inl rfl
    · exact Or.inl rfl
    · exact Or.inl rfl
    · exact Or.inl rfl
    · exact Or.inr ⟨text, _, v, rfl, rfl⟩

theorem readInt_fail {s : Istream} (h : s.fail = true) (lo hi : Int) :
    (s.readInt lo hi).1.fail = true := by
  unfold readInt
  rw [h, Bool.or_true]
  rfl

end Istream

/-- A line, and the newline behind it. -/
theorem lines_append {line : List UInt8} (h : 10 ∉ line) (text : List UInt8) :
    lines (line ++ 10 :: text) = line :: lines text := by
  induction line with
  | nil => rfl
  | cons c line ih =>
    rw [List.mem_cons, not_or] at h
    rw [List.cons_append, lines, if_neg fun hc => h.1 hc.symm, ih h.2]

/-- A line without one. -/
theorem lines_single {line : List UInt8} (h : 10 ∉ line) (hne : line ≠ []) :
    lines line = [line] := by
  induction line with
  | nil => exact absurd rfl hne
  | cons c line ih =>
    rw [List.mem_cons, not_or] at h
    rw [lines, if_neg fun hc => h.1 hc.symm]
    by_cases hnil : line = []
    · rw [hnil]
      rfl
    · rw [ih h.2 hnil]

namespace Istream

theorem getline_of_eof {s : Istream} (h : s.eof = true) : s.getline.1.fail = true := by
  rw [getline, h]
  rfl

/-- getline reads the next line. -/
theorem getline_lines (hne : text ≠ []) : ∃ line rest eof,
    (ofBytes text).getline = (⟨rest, eof, false⟩, some line) ∧ lines text = line :: lines rest ∧
      rest.length < text.length ∧ (eof = true → rest = []) := by
  have hline : 10 ∉ text.takeWhile fun c => c != 10 := fun h => by
    have hp := List.mem_takeWhile_imp h
    cases hp
  have htext := List.takeWhile_append_dropWhile (p := fun c => c != (10 : UInt8)) (l := text)
  unfold getline ofBytes
  dsimp only
  rw [if_neg (by decide)]
  cases hdrop : text.dropWhile fun c => c != 10 with
  | nil =>
    rw [hdrop, List.append_nil] at htext
    rw [htext] at hline ⊢
    refine ⟨text, [], true, ?_, lines_single hline hne, List.length_pos_iff.mpr hne, fun _ => rfl⟩
    dsimp only
    rw [List.isEmpty_eq_false_iff.mpr hne]
  | cons c rest =>
    obtain rfl : c = 10 := by
      have hhead := head_dropWhile_not (fun c => c != (10 : UInt8)) text c (by rw [hdrop]; rfl)
      simpa using hhead
    rw [hdrop] at htext
    refine ⟨_, rest, false, rfl, ?_, ?_, fun h => by cases h⟩
    · conv_lhs => rw [← htext]
      exact lines_append hline rest
    · rw [← htext, List.length_append, List.length_cons]
      omega

theorem getline_shorter {s : Istream} (h : s.getline.1.fail = false) :
    s.getline.1.rest.length < s.rest.length := by
  obtain ⟨text, eof, fail⟩ := s
  cases hflag : (eof || fail) with
  | true =>
    unfold getline at h
    rw [if_pos hflag] at h
    cases h
  | false =>
    obtain ⟨rfl, rfl⟩ := Bool.or_eq_false_iff.mp hflag
    by_cases hne : text = []
    · subst hne
      cases h
    · obtain ⟨line, rest, eof, hg, _, hlen, _⟩ := getline_lines hne
      have hg : Istream.getline ⟨text, false, false⟩ = _ := hg
      rw [hg]
      exact hlen

end Istream

end Texts

end Lib
