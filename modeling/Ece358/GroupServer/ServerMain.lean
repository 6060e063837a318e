/-
  File:      Ece358/GroupServer/ServerMain.lean
  Subject:   The groups that the server reads (a2/ServerMain.cc), and its table of them
             (a2/Server.cc).

  The words and the lines come off one stream: a "Group" line leaves its newline behind, and the
  name of a student begins with the space that stood in front of it. The loop ends with the stream,
  and the server runs; a bad line ends the program.

  * `count`, `subscript`, `assign` -- what the code does with a map;
  * `Server.add_student`, `Server.get` -- the table;
  * `Reading`, `nextLine`, `readingLoop` -- the loop of `main`;
  * `Student`, `Group`, `rosterText` -- what is written for the server to read;
  * `nextLine_group`, `nextLine_student`, `readingLoop_roster` -- it is read, line by line;
  * `roster_loaded` -- what the server answers then, and goes on answering.
-/
import Mathlib.Data.List.TakeWhile
import Mathlib.Logic.Function.Basic
import Ece358.GroupServer.Message
import Ece358.Lib.Streams

namespace Ece358.GroupServer

open Lib

/-! ## 1. The table -/

section Maps

variable {κ ν : Type}

/-- m.count(k) -/
def count (m : κ → Option ν) (k : κ) : Nat := if (m k).isSome then 1 else 0

theorem count_of_some {m : κ → Option ν} {k : κ} {v : ν} (h : m k = some v) : count m k = 1 := by
  rw [count, h]
  rfl

theorem count_of_none {m : κ → Option ν} {k : κ} (h : m k = none) : count m k = 0 := by
  rw [count, h]
  rfl

variable [DecidableEq κ]

/-- m[k], which enters the key with `fresh` where it is missing. -/
def subscript (m : κ → Option ν) (fresh : ν) (k : κ) : (κ → Option ν) × ν :=
  match m k with
  | some v => (m, v)
  | none => (Function.update m k (some fresh), fresh)

/-- m[k] = v -/
def assign (m : κ → Option ν) (k : κ) (v : ν) : κ → Option ν := Function.update m k (some v)

/-- A key that is there is not entered. -/
theorem subscript_of_some {m : κ → Option ν} {k : κ} {v : ν} (h : m k = some v) (fresh : ν) :
    subscript m fresh k = (m, v) := by
  rw [subscript, h]

/-- A key that is not there is entered, and overwritten. -/
theorem assign_subscript (m : κ → Option ν) (fresh v : ν) (k : κ) :
    assign (subscript m fresh k).1 k v = assign m k v := by
  unfold subscript
  split
  · rfl
  · exact Function.update_idem _ _ _

theorem snd_subscript (m : κ → Option ν) (fresh : ν) (k : κ) :
    (subscript m fresh k).2 = (m k).getD fresh := by
  unfold subscript
  split
  next v h => rw [h, Option.getD_some]
  next h => rw [h, Option.getD_none]

theorem assign_of_some {m : κ → Option ν} {k : κ} {v : ν} (h : m k = some v) :
    assign m k v = m := by
  rw [assign, ← h, Function.update_eq_self]

theorem assign_apply (m : κ → Option ν) (k k' : κ) (v : ν) :
    assign m k v k' = if k' = k then some v else m k' :=
  Function.update_apply _ _ _ _

end Maps

/-- map<int, string>() -/
def noStudents : Int32 → Option (List UInt8) := fun _ => none

namespace Server

def add_student (groups_ : Groups) (group_id student_id : Int32) (name : List UInt8) : Groups :=
  let (groups_, students) := subscript groups_ noStudents group_id
  assign groups_ group_id (assign students student_id name)

/-- `Server::get`, with the table that it leaves. -/
def get (groups_ : Groups) (group_id student_id : Int32) : Groups × List UInt8 :=
  let (groups_, found) :=
    if count groups_ group_id ≠ 0 then
      let (groups_, students) := subscript groups_ noStudents group_id
      (groups_, decide (count students student_id ≠ 0))
    else (groups_, false)
  if found then
    let (groups_, students) := subscript groups_ noStudents group_id
    let (students, name) := subscript students [] student_id
    (assign groups_ group_id students, name)
  else
    (groups_,
      textBytes ("error: " ++ toString group_id.toInt ++ " " ++ toString student_id.toInt))

end Server

/-! ## 2. The loop -/

/-- The variables of `main`, and the table. -/
structure Reading where
  cin : Istream
  group_id : Int32
  group_has_been_set : Bool
  groups_ : Groups

/-- How the loop ends: the server runs, or the program exits. -/
inductive Loaded where
  | run (groups_ : Groups)
  | exited (status : Nat)

/-- atoi, of a text that begins with a digit: a long, cut down to an int. -/
def atoi (text : List UInt8) : Int32 :=
  Int32.ofInt (min (valueOf (text.takeWhile isDigit)) (2 ^ 63 - 1))

/-- One round of the loop of `main`. -/
def nextLine (r : Reading) : Reading ⊕ Loaded :=
  match r.cin.readWord with
  | (_, none) => .inr (.run r.groups_)
  | (cin, some command) =>
    if command = textBytes "Group" then
      let (cin, number) := cin.readInt (-2 ^ 31) (2 ^ 31 - 1)
      .inl { r with
        cin
        group_id := (number.map Int32.ofInt).getD r.group_id
        group_has_been_set := true }
    else if command.head?.any isDigit then
      if r.group_has_been_set = false then .inr (.exited 1)
      else
        let student_id := atoi command
        let (cin, line) := cin.getline
        let name := line.getD []
        let name := if name.head? = some 32 then name.tail else name
        .inl { r with cin, groups_ := Server.add_student r.groups_ r.group_id student_id name }
    else .inr (.exited 2)

theorem nextLine_shorter {r r' : Reading} (h : nextLine r = .inl r') :
    r'.cin.rest.length < r.cin.rest.length := by
  unfold nextLine at h
  split at h
  · cases h
  next cin command hword =>
    have hshort := Istream.readWord_shorter hword
    split_ifs at h
    · cases h
      exact (Istream.readInt_le _ _ cin).trans_lt hshort
    · cases h
      exact (Istream.getline_le cin).trans_lt hshort

/-- while (cin >> command) -/
def readingLoop (r : Reading) : Loaded :=
  match _h : nextLine r with
  | .inl r' => readingLoop r'
  | .inr loaded => loaded
termination_by r.cin.rest.length
decreasing_by exact nextLine_shorter _h

/-- The loop on `input`; nothing is set yet, and `group_id` may be anything. -/
def Reading.start (input : List UInt8) (group_id : Int32) : Reading :=
  ⟨.ofBytes input, group_id, false, fun _ => none⟩

/-! ## 3. Rosters -/

/-- A student: the number is not negative, and the name is of one line. -/
structure Student where
  id : Int32
  name : List UInt8
  nonneg : 0 ≤ id.toInt
  oneLine : 10 ∉ name

structure Group where
  id : Int32
  students : List Student

def Student.line (s : Student) : List UInt8 :=
  textBytes (toString s.id.toInt ++ " ") ++ s.name ++ textBytes "\n"

def Group.lines (g : Group) : List UInt8 :=
  textBytes ("Group " ++ toString g.id.toInt ++ "\n") ++ g.students.flatMap Student.line

/-- The groups, written one behind the other. -/
def rosterText (roster : List Group) : List UInt8 := roster.flatMap Group.lines

/-- The names that a group's lines give to a student, in their order. -/
def Group.names (g : Group) (group_id student_id : Int32) : List (List UInt8) :=
  (g.students.filter fun s => g.id = group_id ∧ s.id = student_id).map Student.name

/-- The name that was written last for a student of a group. -/
def lastName (roster : List Group) (group_id student_id : Int32) : Option (List UInt8) :=
  (roster.flatMap fun g => g.names group_id student_id).getLast?

/-! ## 4. A roster is read -/

section Texts

theorem textBytes_append (a b : String) : textBytes (a ++ b) = textBytes a ++ textBytes b := by
  rw [textBytes, String.toList_append, List.map_append, textBytes, textBytes]

/-- A number in a text is written in decimal. -/
theorem textBytes_toString (n : Int) : textBytes (toString n) = decimalInt n := by
  rw [Int.toString_eq_repr]
  cases n with
  | ofNat m =>
    show textBytes m.repr = _
    rw [textBytes, Nat.toList_repr]
    rfl
  | negSucc m =>
    show textBytes ("-" ++ (m + 1).repr) = _
    rw [textBytes_append, textBytes, textBytes, Nat.toList_repr]
    rfl

theorem Group.lines_eq (g : Group) :
    g.lines = textBytes "Group" ++
      32 :: (decimalInt g.id.toInt ++ 10 :: g.students.flatMap Student.line) := by
  have hblank : textBytes "Group " = textBytes "Group" ++ [32] := by decide
  have hend : textBytes "\n" = [10] := by decide
  rw [Group.lines, textBytes_append, textBytes_append, textBytes_toString, hblank, hend]
  simp only [List.append_assoc, List.cons_append, List.nil_append]

theorem Student.line_eq (s : Student) :
    s.line = decimal s.id.toInt.toNat ++ 32 :: (s.name ++ [10]) := by
  have hblank : textBytes " " = [32] := by decide
  have hend : textBytes "\n" = [10] := by decide
  have hid : decimalInt s.id.toInt = decimal s.id.toInt.toNat := by
    obtain ⟨n, hn⟩ := Int.eq_ofNat_of_zero_le s.nonneg
    rw [hn]
    rfl
  rw [Student.line, textBytes_append, textBytes_toString, hblank, hend, hid]
  simp only [List.append_assoc, List.cons_append, List.nil_append]

/-- For a text that is written out. -/
theorem not_space_of_all {text : List UInt8} (h : text.all (fun a => !isSpace a) = true) :
    ∀ a ∈ text, isSpace a = false := fun a ha =>
  Bool.not_eq_true' (isSpace a) ▸ List.all_eq_true.mp h a ha

theorem atoi_decimal {n : Int32} (h : 0 ≤ n.toInt) : atoi (decimal n.toInt.toNat) = n := by
  have hlt := n.toInt_lt
  have hdigits : (decimal n.toInt.toNat).takeWhile isDigit = decimal n.toInt.toNat :=
    List.takeWhile_eq_self_iff.mpr (decimal_digits _)
  have hmin : min (n.toInt.toNat : Int) (2 ^ 63 - 1) = n.toInt := by omega
  rw [atoi, hdigits, valueOf_decimal]
  refine (congrArg Int32.ofInt ?_).trans (Int32.ofInt_toInt n)
  exact hmin

end Texts

section Lines

variable {gid : Int32} {has : Bool} {groups_ : Groups}

/-- The number of the group; the end of its line stays on the stream. -/
theorem nextLine_group (g : Int32) (tail : List UInt8) :
    nextLine ⟨.ofBytes (textBytes "Group" ++ 32 :: (decimalInt g.toInt ++ 10 :: tail)),
      gid, has, groups_⟩ = .inl ⟨.ofBytes (10 :: tail), g, true, groups_⟩ := by
  have hword := Istream.readWord_append (w := textBytes "Group") (c := 32) (by decide)
    (not_space_of_all (by decide)) (by decide) (decimalInt g.toInt ++ 10 :: tail)
  have hnumber : (Istream.ofBytes ([32] ++ (decimalInt g.toInt ++ 10 :: tail))).readInt
      (-2 ^ 31) (2 ^ 31 - 1) = (.ofBytes (10 :: tail), some g.toInt) :=
    Istream.readInt_append (List.all_eq_true.mp (by decide)) g.le_toInt
      (Int.le_sub_one_of_lt g.toInt_lt) (by decide) tail
  unfold nextLine
  dsimp only
  rw [hword]
  dsimp only
  rw [if_pos rfl, ← List.singleton_append, hnumber]
  dsimp only [Option.map_some, Option.getD_some]
  rw [Int32.ofInt_toInt]

/-- The name without the space in front of it, and nothing else taken off. -/
theorem nextLine_student (s : Student) (tail : List UInt8) :
    nextLine ⟨.ofBytes (s.line ++ tail), gid, true, groups_⟩ =
      .inl ⟨.ofBytes tail, gid, true, Server.add_student groups_ gid s.id s.name⟩ := by
  obtain ⟨d, ds, hd⟩ := List.exists_cons_of_ne_nil (decimal_ne_nil s.id.toInt.toNat)
  have hdigit := decimal_digits s.id.toInt.toNat
  have htext : s.line ++ tail = decimal s.id.toInt.toNat ++ 32 :: (s.name ++ 10 :: tail) := by
    rw [s.line_eq]
    simp only [List.append_assoc, List.cons_append, List.nil_append]
  have hword := Istream.readWord_append (w := decimal s.id.toInt.toNat) (c := 32)
    (decimal_ne_nil _) (fun a ha => not_space_of_digit (hdigit a ha)) (by decide)
    (s.name ++ 10 :: tail)
  have hspaced : 10 ∉ 32 :: s.name := fun h => (List.mem_cons.mp h).elim (by decide) s.oneLine
  have hline := Istream.getline_append hspaced tail
  have hcommand : decimal s.id.toInt.toNat ≠ textBytes "Group" := fun h => by
    have h71 := hdigit 71 (h ▸ by decide)
    exact absurd h71 (by decide)
  have hfirst : (decimal s.id.toInt.toNat).head?.any isDigit = true := by
    rw [hd]
    exact hdigit d (hd ▸ List.mem_cons_self)
  unfold nextLine
  dsimp only
  rw [htext, hword]
  dsimp only
  rw [if_neg hcommand, if_pos hfirst, if_neg Bool.noConfusion, ← List.cons_append, hline,
    atoi_decimal s.nonneg]
  rfl

/-- The end of a line that was left is skipped. -/
theorem nextLine_newline (tail : List UInt8) :
    nextLine ⟨.ofBytes (10 :: tail), gid, has, groups_⟩ =
      nextLine ⟨.ofBytes tail, gid, has, groups_⟩ := by
  unfold nextLine
  dsimp only
  rw [← List.singleton_append, Istream.readWord_blank (List.all_eq_true.mp (by decide))]

/-- What the lines of a group do to the table. -/
def Group.load (groups_ : Groups) (g : Group) : Groups :=
  g.students.foldl (fun groups_ s => Server.add_student groups_ g.id s.id s.name) groups_

theorem readingLoop_inl {r r' : Reading} (h : nextLine r = .inl r') :
    readingLoop r = readingLoop r' := by
  rw [readingLoop, h]

theorem readingLoop_newline (tail : List UInt8) :
    readingLoop ⟨.ofBytes (10 :: tail), gid, has, groups_⟩ =
      readingLoop ⟨.ofBytes tail, gid, has, groups_⟩ := by
  rw [readingLoop, readingLoop, nextLine_newline]

theorem readingLoop_students (students : List Student) (tail : List UInt8) :
    readingLoop ⟨.ofBytes (students.flatMap Student.line ++ tail), gid, true, groups_⟩ =
      readingLoop ⟨.ofBytes tail, gid, true, students.foldl
        (fun groups_ s => Server.add_student groups_ gid s.id s.name) groups_⟩ := by
  induction students generalizing groups_ with
  | nil => rfl
  | cons s students ih =>
    rw [List.flatMap_cons, List.append_assoc, readingLoop_inl (nextLine_student s _), ih]
    rfl

theorem readingLoop_roster (roster : List Group) :
    readingLoop ⟨.ofBytes (rosterText roster), gid, has, groups_⟩ =
      .run (roster.foldl Group.load groups_) := by
  induction roster generalizing gid has groups_ with
  | nil =>
    rw [readingLoop]
    rfl
  | cons g roster ih =>
    have htext : rosterText (g :: roster) = textBytes "Group" ++
        32 :: (decimalInt g.id.toInt ++
          10 :: (g.students.flatMap Student.line ++ rosterText roster)) := by
      rw [rosterText, List.flatMap_cons, g.lines_eq, rosterText]
      simp only [List.append_assoc, List.cons_append]
    rw [htext, readingLoop_inl (nextLine_group g.id _), readingLoop_newline,
      readingLoop_students, ih]
    rfl

end Lines

/-! ## 5. The table that was read -/

section Table

variable {groups_ : Groups} {g s : Int32}

/-- The name in the table. -/
def nameOf (groups_ : Groups) (group_id student_id : Int32) : Option (List UInt8) :=
  (groups_ group_id).bind fun students => students student_id

theorem nameOf_add_student (group_id student_id : Int32) (name : List UInt8) :
    nameOf (Server.add_student groups_ group_id student_id name) g s =
      if group_id = g ∧ student_id = s then some name else nameOf groups_ g s := by
  have hadd : Server.add_student groups_ group_id student_id name =
      assign groups_ group_id (assign ((groups_ group_id).getD noStudents) student_id name) := by
    rw [← snd_subscript]
    exact assign_subscript groups_ noStudents _ group_id
  rw [hadd, nameOf, nameOf, assign_apply]
  by_cases hg : group_id = g
  · subst hg
    rw [if_pos rfl, Option.bind_some, assign_apply]
    by_cases hs : student_id = s
    · rw [if_pos hs.symm, if_pos ⟨rfl, hs⟩]
    · rw [if_neg fun h => hs h.symm, if_neg fun h => hs h.2]
      cases groups_ group_id <;> rfl
  · rw [if_neg fun h => hg h.symm, if_neg fun h => hg h.1]

/-- Whoever writes names behind those that are there, one by one, writes them all behind. -/
theorem nameOf_foldl {α : Type} {write : Groups → α → Groups} {names : α → List (List UInt8)}
    (hwrite : ∀ groups_ a,
      nameOf (write groups_ a) g s = (names a).getLast?.or (nameOf groups_ g s)) (l : List α) :
    nameOf (l.foldl write groups_) g s = (l.flatMap names).getLast?.or (nameOf groups_ g s) := by
  induction l generalizing groups_ with
  | nil => rfl
  | cons a l ih =>
    rw [List.foldl_cons, ih, hwrite, List.flatMap_cons, List.getLast?_append, Option.or_assoc]

theorem nameOf_load (groups_ : Groups) (group : Group) :
    nameOf (group.load groups_) g s = (group.names g s).getLast?.or (nameOf groups_ g s) := by
  have hnames : group.names g s = group.students.flatMap fun student =>
      if group.id = g ∧ student.id = s then [student.name] else [] := by
    rw [Group.names]
    induction group.students with
    | nil => rfl
    | cons student students ih =>
      rw [List.filter_cons, List.flatMap_cons, ← ih]
      by_cases h : group.id = g ∧ student.id = s
      · rw [if_pos (decide_eq_true h), if_pos h]
        rfl
      · rw [if_neg (by rwa [decide_eq_true_eq]), if_neg h]
        rfl
  rw [hnames]
  refine nameOf_foldl (fun groups_ student => ?_) group.students
  rw [nameOf_add_student]
  split <;> rfl

/-- `Server::get` leaves the table as it was, and answers as the servers' `get`. -/
theorem Server.get_eq (groups_ : Groups) (g s : Int32) :
    Server.get groups_ g s = (groups_, GroupServer.get groups_ g s) := by
  unfold Server.get GroupServer.get
  cases hg : groups_ g with
  | none =>
    rw [count_of_none hg, if_neg (not_not.mpr rfl)]
    rfl
  | some students =>
    rw [count_of_some hg, if_pos Nat.one_ne_zero, subscript_of_some hg, Option.bind_some]
    dsimp only
    cases hs : students s with
    | none =>
      rw [count_of_none hs]
      rfl
    | some name =>
      rw [count_of_some hs, if_pos (by decide), subscript_of_some hg]
      dsimp only
      rw [subscript_of_some hs, assign_of_some hg]

theorem get_eq_getD (groups_ : Groups) (g s : Int32) :
    GroupServer.get groups_ g s = (nameOf groups_ g s).getD
      (textBytes ("error: " ++ toString g.toInt ++ " " ++ toString s.toInt)) := by
  unfold GroupServer.get nameOf
  split
  next name h => rw [h, Option.getD_some]
  next h => rw [h, Option.getD_none]

end Table

/-- Behind the reading loop the server answers with the name that was written last, or with an
    error, and whatever it is asked, it goes on answering the same. -/
theorem roster_loaded (roster : List Group) (group_id : Int32) :
    ∃ groups_, readingLoop (.start (rosterText roster) group_id) = .run groups_ ∧
      (∀ g s, (Server.get groups_ g s).2 = (lastName roster g s).getD
        (textBytes ("error: " ++ toString g.toInt ++ " " ++ toString s.toInt))) ∧
      ∀ (calls : List (Int32 × Int32)) (g s : Int32),
        (Server.get (calls.foldl (fun t call => (Server.get t call.1 call.2).1) groups_) g s).2 =
          (Server.get groups_ g s).2 := by
  refine ⟨_, readingLoop_roster roster, fun g s => ?_, fun calls g s => ?_⟩
  · have hnone : nameOf (fun _ => none) g s = none := rfl
    rw [Server.get_eq, get_eq_getD, nameOf_foldl nameOf_load, hnone, Option.or_none]
    rfl
  · have hsame : ∀ groups_, calls.foldl (fun t call => (Server.get t call.1 call.2).1) groups_ =
        groups_ := fun groups_ => by
      induction calls with
      | nil => rfl
      | cons call calls ih => rw [List.foldl_cons, Server.get_eq, ih]
    rw [hsame]

end Ece358.GroupServer
