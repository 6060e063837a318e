/-
  File:      Ece358/GroupServer/ClientMain.lean
  Subject:   The loop of the client (a2/ClientMain.cc), and the requests it makes (a2/Client.cc).

  A line of stdin is a pair of numbers, or it begins with the word STOP, or it is an error. What the
  client sends does not depend on the replies.

  * `Client.send_get`, `Client.send_stop`, `Client.send_stop_session` -- the requests;
  * `Typed`, `readLine` -- the body of the loop;
  * `ClientEvent`, `clientLoop` -- the loop;
  * `Asks`, `Stops`, `Requested` -- what the lines of a stdin ask for, as lines;
  * `readLine_get_iff`, `readLine_stop_iff`, `client_requests` -- this is what is sent;
  * `Ask`, `commandText`, `commands_asked` -- the requests that were written come out.
-/
import Ece358.GroupServer.ServerMain
import Ece358.Lib.Lines

namespace Ece358.GroupServer

open Lib

/-! ## 1. Requests -/

namespace Client

/-- The message of `send_get`. -/
def send_get (group_id student_id : Int32) : Message :=
  ⟨0, group_id.toUInt32, student_id.toUInt32⟩

/-- The message of `send_stop`. -/
def send_stop : Message := ⟨1, 0, 0⟩

/-- The message of `send_stop_session`. -/
def send_stop_session : Message := ⟨2, 0, 0⟩

end Client

/-! ## 2. The loop -/

/-- What the body of the loop does with a line. -/
inductive Typed where
  | get (group_id student_number : Int32)
  | stop
  | error (text : List UInt8)
  deriving DecidableEq

/-- input.peek() as a char: at the end of the stream it is -1. -/
def peek (input : Istream) : UInt8 := input.rest.head?.getD 255

/-- The body of the loop. The two ints may hold anything at its start. -/
def readLine (line : List UInt8) (group_id student_number : Int32) : Typed :=
  let input := Istream.ofBytes line
  let peekedChar := peek input
  if peekedChar = 83 then
    let command := input.readWord.2.getD []
    if command = textBytes "STOP" then .stop else .error (textBytes "error: invalid input")
  else if isDigit peekedChar then
    let (input, number) := input.readInt (-2 ^ 31) (2 ^ 31 - 1)
    let group_id := (number.map Int32.ofInt).getD group_id
    let (input, number) := input.readInt (-2 ^ 31) (2 ^ 31 - 1)
    let student_number := (number.map Int32.ofInt).getD student_number
    if input.fail then .error (textBytes "error: must enter student number")
    else if group_id.toInt ≤ 0 ∨ student_number.toInt ≤ 0 then
      .error (textBytes ("error: invalid input: " ++ toString group_id.toInt ++ " " ++
        toString student_number.toInt))
    else .get group_id student_number
  else .error (textBytes "error: invalid input")

/-- A call of `send_message`, or a line on cerr. -/
inductive ClientEvent where
  | send_message (msg : Message)
  | cerr (text : List UInt8)
  deriving DecidableEq

/-- while (getline(cin, line)), and what follows it; `unset` is what the ints hold. -/
def clientLoop (unset : Istream → Int32 × Int32) (cin : Istream) : List ClientEvent :=
  match _h : cin.getline with
  | (cin', line) =>
    if _hfail : cin'.fail then [.send_message Client.send_stop_session]
    else match readLine (line.getD []) (unset cin').1 (unset cin').2 with
      | .get group_id student_number =>
        .send_message (Client.send_get group_id student_number) :: clientLoop unset cin'
      | .stop => [.send_message Client.send_stop]
      | .error text => .cerr text :: clientLoop unset cin'
termination_by cin.rest.length
decreasing_by all_goals
  have hshort := Istream.getline_shorter (s := cin)
  rw [_h] at hshort
  exact hshort (Bool.eq_false_iff.mpr _hfail)

/-! ## 3. One line -/

section Lines

variable {line : List UInt8} {g s : Int32}

/-- A pair of positive numbers at the start of a line. -/
def Asks (line : List UInt8) (g s : Int32) : Prop :=
  (∃ c ∈ line.head?, isDigit c = true) ∧
    (∃ rest tail, Spells line rest g.toInt ∧ Spells rest tail s.toInt) ∧
    0 < g.toInt ∧ 0 < s.toInt

/-- The ints are set, wherever they are used. -/
theorem readLine_unset (line : List UInt8) (group_id student_number g s : Int32) :
    readLine line group_id student_number = readLine line g s := by
  unfold readLine
  dsimp only
  split
  · rfl
  · split
    · rcases Istream.readInt_cases (-2 ^ 31) (2 ^ 31 - 1) (.ofBytes line) with
        hfail | ⟨_, rest, v, _, hread⟩
      · simp only [Istream.readInt_fail hfail, if_true]
      · rw [hread]
        dsimp only
        rcases Istream.readInt_cases (-2 ^ 31) (2 ^ 31 - 1) (.cameTo rest false) with
          hfail | ⟨_, tail, u, _, hread'⟩
        · simp only [hfail, if_true]
        · simp only [hread', Option.map_some, Option.getD_some]
    · rfl

theorem spells_ne_nil {text rest : List UInt8} {v : Int} (h : Spells text rest v) : text ≠ [] := by
  obtain ⟨ws, sign, digits, rfl, _, hne, _⟩ := h
  intro hnil
  simp only [List.append_eq_nil_iff] at hnil
  exact hne hnil.2.2.1

/-- A stream that came to some text goes on there. -/
theorem cameTo_of_ne_nil {rest : List UInt8} (h : rest ≠ []) :
    Istream.cameTo rest false = .ofBytes rest := by
  rw [Istream.cameTo, List.isEmpty_eq_false_iff.mpr h]
  rfl

theorem int32_bounds (n : Int32) : -2 ^ 31 ≤ n.toInt ∧ n.toInt ≤ 2 ^ 31 - 1 :=
  ⟨n.le_toInt, Int.le_sub_one_of_lt n.toInt_lt⟩

/-- The lines that are taken for a GET are those that begin with two positive numbers, the first of
    them without white space or a sign in front of it. -/
theorem readLine_get_iff (group_id student_number : Int32) :
    readLine line group_id student_number = .get g s ↔ Asks line g s := by
  constructor
  · intro h
    unfold readLine at h
    dsimp only at h
    rcases Istream.readInt_cases (-2 ^ 31) (2 ^ 31 - 1) (.ofBytes line) with
      hfail | ⟨text, rest, v, htext, hread⟩
    · simp only [Istream.readInt_fail hfail, if_true] at h
      split_ifs at h
    · obtain rfl : line = text := congrArg Istream.rest htext
      rw [hread] at h
      dsimp only at h
      rcases Istream.readInt_cases (-2 ^ 31) (2 ^ 31 - 1) (.cameTo rest false) with
        hfail | ⟨text, tail, u, htext', hread'⟩
      · simp only [hfail, if_true] at h
        split_ifs at h
      · obtain rfl : rest = text := congrArg Istream.rest htext'
        rw [hread'] at h
        rw [htext'] at hread'
        simp only [Option.map_some, Option.getD_some] at h
        split_ifs at h with hS hstop hdigit hfail hpos
        cases h
        obtain ⟨hg, hglo, hghi⟩ := Istream.readInt_iff.mp hread
        obtain ⟨hs, hslo, hshi⟩ := Istream.readInt_iff.mp hread'
        rw [Int32.toInt_ofInt_of_le hglo (Int.lt_of_le_sub_one hghi),
          Int32.toInt_ofInt_of_le hslo (Int.lt_of_le_sub_one hshi), not_or, Int.not_le,
          Int.not_le] at hpos
        refine ⟨?_, ⟨rest, tail, ?_, ?_⟩, ?_⟩
        · cases line with
          | nil => exact absurd rfl (spells_ne_nil hg)
          | cons c line => exact ⟨c, rfl, hdigit⟩
        · rwa [Int32.toInt_ofInt_of_le hglo (Int.lt_of_le_sub_one hghi)]
        · rwa [Int32.toInt_ofInt_of_le hslo (Int.lt_of_le_sub_one hshi)]
        · rwa [Int32.toInt_ofInt_of_le hglo (Int.lt_of_le_sub_one hghi),
            Int32.toInt_ofInt_of_le hslo (Int.lt_of_le_sub_one hshi)]
  · rintro ⟨⟨c, hc, hdigit⟩, ⟨rest, tail, hg, hs⟩, hgpos, hspos⟩
    have hpeek : peek (.ofBytes line) = c := by
      rw [Option.mem_def] at hc
      rw [peek, Istream.ofBytes, hc]
      rfl
    have hS : c ≠ 83 := by
      rintro rfl
      exact absurd hdigit (by decide)
    have hread := Istream.readInt_iff.mpr ⟨hg, int32_bounds g⟩
    have hread' := Istream.readInt_iff.mpr ⟨hs, int32_bounds s⟩
    have hpos : ¬ (g.toInt ≤ 0 ∨ s.toInt ≤ 0) := by omega
    unfold readLine
    dsimp only
    rw [hpeek, if_neg hS, if_pos hdigit, hread]
    dsimp only
    rw [cameTo_of_ne_nil (spells_ne_nil hs), hread']
    simp only [Istream.cameTo, Option.map_some, Option.getD_some, Int32.ofInt_toInt]
    rw [if_neg Bool.false_ne_true, if_neg hpos]

/-- The word at the start of a line that begins with none. -/
theorem readWord_of_head {c : UInt8} (text : List UInt8) (hc : isSpace c = false) :
    (Istream.ofBytes (c :: text)).readWord.2 =
      some ((c :: text).takeWhile fun a => !isSpace a) := by
  unfold Istream.readWord Istream.ofBytes
  dsimp only
  rw [if_neg (by decide), List.dropWhile_cons_of_neg (by rw [hc]; exact Bool.false_ne_true),
    if_neg (List.cons_ne_nil c text)]

/-- The lines that are taken for a STOP: their first character begins this word, and nothing but
    white space stands behind it. -/
theorem readLine_stop_iff (group_id student_number : Int32) :
    readLine line group_id student_number = .stop ↔
      line.takeWhile (fun c => !isSpace c) = textBytes "STOP" := by
  have hstop : textBytes "STOP" = [83, 84, 79, 80] := by decide
  cases line with
  | nil => exact iff_of_false (fun h => by cases h) (by decide)
  | cons c text =>
    have hpeek : peek (.ofBytes (c :: text)) = c := rfl
    by_cases hc : c = 83
    · have hword := readWord_of_head text (show isSpace c = false by rw [hc]; decide)
      unfold readLine
      dsimp only
      rw [hpeek, if_pos hc, hword, Option.getD_some]
      constructor
      · intro h
        split_ifs at h with hw
        exact hw
      · exact fun h => if_pos h
    · refine iff_of_false (fun h => ?_) fun h => ?_
      · unfold readLine at h
        dsimp only at h
        rw [hpeek, if_neg hc] at h
        split_ifs at h
      · rw [hstop, List.takeWhile_cons] at h
        split at h
        · exact hc (List.cons.inj h).1
        · cases h

end Lines

/-! ## 4. The requests of a stdin -/

/-- The messages that are sent. -/
def sentBy (events : List ClientEvent) : List Message :=
  events.filterMap fun
    | .send_message msg => some msg
    | .cerr _ => none

/-- A line whose first word is STOP, with nothing in front of it. -/
def Stops (line : List UInt8) : Prop :=
  line.takeWhile (fun c => !isSpace c) = textBytes "STOP"

/-- What is to be sent for some lines: a GET for each that asks for a student, up to the first
    STOP; without one, a STOP_SESSION at the end. The other lines are errors. -/
inductive Requested : List (List UInt8) → List Message → Prop where
  | eof : Requested [] [Client.send_stop_session]
  | stop {line : List UInt8} {ls : List (List UInt8)} (h : Stops line) :
      Requested (line :: ls) [Client.send_stop]
  | get {line : List UInt8} {ls : List (List UInt8)} {g s : Int32} {msgs : List Message}
      (h : Asks line g s) (rest : Requested ls msgs) :
      Requested (line :: ls) (Client.send_get g s :: msgs)
  | error {line : List UInt8} {ls : List (List UInt8)} {msgs : List Message}
      (hstop : ¬ Stops line) (hget : ∀ g s, ¬ Asks line g s) (rest : Requested ls msgs) :
      Requested (line :: ls) msgs

section Requests

variable {unset : Istream → Int32 × Int32} {cin : Istream} {ls : List (List UInt8)}
  {msgs msgs' : List Message} {line : List UInt8} {g s g' s' : Int32}

theorem Asks.unique (h : Asks line g s) (h' : Asks line g' s') : g = g' ∧ s = s' := by
  have heq := ((readLine_get_iff 0 0).mpr h).symm.trans
    ((readLine_get_iff 0 0).mpr h')
  exact Typed.get.inj heq

theorem Asks.not_stops (h : Asks line g s) : ¬ Stops line := fun hstop => by
  cases ((readLine_get_iff 0 0).mpr h).symm.trans
    ((readLine_stop_iff 0 0).mpr hstop)

theorem Requested.unique (h : Requested ls msgs) (h' : Requested ls msgs') : msgs = msgs' := by
  induction h generalizing msgs' with
  | eof => cases h'; rfl
  | stop hstop =>
    cases h' with
    | stop _ => rfl
    | get hget _ => exact absurd hstop hget.not_stops
    | error hno _ _ => exact absurd hstop hno
  | get hget _ ih =>
    cases h' with
    | stop hstop => exact absurd hstop hget.not_stops
    | get hget' hrest =>
      obtain ⟨rfl, rfl⟩ := hget.unique hget'
      rw [ih hrest]
    | error _ hno _ => exact absurd hget (hno _ _)
  | error hstop hget _ ih =>
    cases h' with
    | stop hstop' => exact absurd hstop' hstop
    | get hget' _ => exact absurd hget' (hget _ _)
    | error _ _ hrest => exact ih hrest

theorem clientLoop_end (h : cin.getline.1.fail = true) :
    clientLoop unset cin = [.send_message Client.send_stop_session] := by
  rw [clientLoop]
  split
  next cin' line hline =>
    rw [hline] at h
    exact dif_pos h

theorem clientLoop_line {cin' : Istream} (h : cin.getline = (cin', some line))
    (hfail : cin'.fail = false) :
    clientLoop unset cin = match readLine line 0 0 with
      | .get group_id student_number =>
        .send_message (Client.send_get group_id student_number) :: clientLoop unset cin'
      | .stop => [.send_message Client.send_stop]
      | .error text => .cerr text :: clientLoop unset cin' := by
  rw [clientLoop]
  split
  next cin'' line' hline =>
    obtain ⟨rfl, rfl⟩ := Prod.mk.inj (h.symm.trans hline)
    rw [dif_neg (by rw [hfail]; exact Bool.false_ne_true), Option.getD_some,
      readLine_unset line _ _ 0 0]

theorem requested_loop (unset : Istream → Int32 × Int32) (stdin : List UInt8) :
    Requested (lines stdin) (sentBy (clientLoop unset (.ofBytes stdin))) := by
  induction hlen : stdin.length using Nat.strong_induction_on generalizing stdin with
  | _ n ih =>
    by_cases hne : stdin = []
    · subst hne
      rw [clientLoop_end rfl]
      exact .eof
    · obtain ⟨line, rest, eof, hget, hlines, hshort, heof⟩ := Istream.getline_lines hne
      rw [hlines, clientLoop_line hget rfl]
      have hrest : Requested (lines rest) (sentBy (clientLoop unset ⟨rest, eof, false⟩)) := by
        cases eof with
        | true =>
          rw [heof rfl, clientLoop_end (Istream.getline_of_eof rfl)]
          exact .eof
        | false => exact ih rest.length (by omega) rest rfl
      cases hline : readLine line 0 0 with
      | stop => exact .stop ((readLine_stop_iff 0 0).mp hline)
      | get g s => exact .get ((readLine_get_iff 0 0).mp hline) hrest
      | error text =>
        refine .error (fun hstop => ?_) (fun g s hget => ?_) hrest
        · cases ((readLine_stop_iff 0 0).mpr hstop).symm.trans hline
        · cases ((readLine_get_iff 0 0).mpr hget).symm.trans hline

/-- For every stdin, what the client sends is what its lines ask for. -/
theorem client_requests (unset : Istream → Int32 × Int32) (stdin : List UInt8)
    (msgs : List Message) :
    sentBy (clientLoop unset (.ofBytes stdin)) = msgs ↔ Requested (lines stdin) msgs := by
  constructor
  · rintro rfl
    exact requested_loop unset stdin
  · exact fun h => (requested_loop unset stdin).unique h

end Requests

/-! ## 5. Commands -/

/-- A request as a user writes it: the two numbers are positive. -/
structure Ask where
  group_id : Int32
  student_id : Int32
  group_pos : 0 < group_id.toInt
  student_pos : 0 < student_id.toInt

/-- Its line, without the newline. -/
def Ask.line (ask : Ask) : List UInt8 :=
  textBytes (toString ask.group_id.toInt ++ " " ++ toString ask.student_id.toInt)

def Ask.message (ask : Ask) : Message := Client.send_get ask.group_id ask.student_id

/-- Lines, each with its newline. -/
def commandText (ls : List (List UInt8)) : List UInt8 := ls.flatMap fun line => line ++ [10]

section Commands

variable {ls : List (List UInt8)} {msgs : List Message}

theorem lines_commandText (h : ∀ line ∈ ls, 10 ∉ line) (text : List UInt8) :
    lines (commandText ls ++ text) = ls ++ lines text := by
  induction ls with
  | nil => rfl
  | cons line ls ih =>
    have htext : commandText (line :: ls) ++ text = line ++ 10 :: (commandText ls ++ text) := by
      simp [commandText]
    rw [htext, lines_append (h line List.mem_cons_self),
      ih fun l hl => h l (List.mem_cons_of_mem _ hl)]
    rfl

/-- A number in decimal, behind white space. -/
theorem spells_decimal (ws : List UInt8) (n : Nat) {rest : List UInt8}
    (hws : ∀ a ∈ ws, isSpace a = true) (hrest : ∀ c ∈ rest.head?, isDigit c = false) :
    Spells (ws ++ (decimal n ++ rest)) rest n :=
  ⟨ws, [], decimal n, rfl, hws, decimal_ne_nil n, decimal_digits n, hrest,
    Or.inr ⟨Or.inl rfl, by rw [valueOf_decimal]⟩⟩

theorem Ask.line_eq (ask : Ask) :
    ask.line = decimal ask.group_id.toInt.toNat ++ (32 :: decimal ask.student_id.toInt.toNat) := by
  have hblank : textBytes " " = [32] := by decide
  have hid : ∀ n : Int, 0 < n → decimalInt n = decimal n.toNat := by
    intro n hn
    obtain ⟨m, rfl⟩ := Int.eq_ofNat_of_zero_le (Int.le_of_lt hn)
    rfl
  rw [Ask.line, textBytes_append, textBytes_append, textBytes_toString, textBytes_toString, hblank,
    hid _ ask.group_pos, hid _ ask.student_pos, List.append_assoc]
  rfl

theorem Ask.asks (ask : Ask) : Asks ask.line ask.group_id ask.student_id := by
  have hg : ((ask.group_id.toInt.toNat : Nat) : Int) = ask.group_id.toInt :=
    Int.toNat_of_nonneg (Int.le_of_lt ask.group_pos)
  have hs : ((ask.student_id.toInt.toNat : Nat) : Int) = ask.student_id.toInt :=
    Int.toNat_of_nonneg (Int.le_of_lt ask.student_pos)
  refine ⟨?_, ⟨32 :: decimal ask.student_id.toInt.toNat, [], ?_, ?_⟩, ask.group_pos,
    ask.student_pos⟩
  · obtain ⟨d, ds, hd⟩ := List.exists_cons_of_ne_nil (decimal_ne_nil ask.group_id.toInt.toNat)
    rw [ask.line_eq, hd]
    exact ⟨d, rfl, decimal_digits _ d (hd ▸ List.mem_cons_self)⟩
  · rw [ask.line_eq, ← hg]
    refine spells_decimal [] _ (fun a ha => absurd ha List.not_mem_nil) fun c hc => ?_
    obtain rfl := Option.some.inj hc
    decide
  · rw [← hs]
    have hspell := spells_decimal [32] ask.student_id.toInt.toNat
      (List.all_eq_true.mp (by decide)) (fun c (hc : c ∈ ([] : List UInt8).head?) => by cases hc)
    rw [List.append_nil] at hspell
    exact hspell

theorem Ask.oneLine (ask : Ask) : 10 ∉ ask.line := by
  rw [ask.line_eq]
  intro h
  rcases List.mem_append.mp h with h | h
  · exact absurd (decimal_digits _ 10 h) (by decide)
  · rcases List.mem_cons.mp h with h | h
    · cases h
    · exact absurd (decimal_digits _ 10 h) (by decide)

theorem requested_asks (asks : List Ask) (h : Requested ls msgs) :
    Requested (asks.map Ask.line ++ ls) (asks.map Ask.message ++ msgs) := by
  induction asks with
  | nil => exact h
  | cons ask asks ih => exact .get ask.asks ih

/-- Requests that were written, and then something else. -/
theorem sentBy_commands (asks : List Ask) (unset : Istream → Int32 × Int32) (rest : List UInt8)
    (h : Requested (lines rest) msgs) :
    sentBy (clientLoop unset (.ofBytes (commandText (asks.map Ask.line) ++ rest))) =
      asks.map Ask.message ++ msgs := by
  have hlines : ∀ line ∈ asks.map Ask.line, 10 ∉ line := by
    intro line hl
    obtain ⟨ask, _, rfl⟩ := List.mem_map.mp hl
    exact ask.oneLine
  refine (requested_loop unset _).unique ?_
  rw [lines_commandText hlines]
  exact requested_asks asks h

/-- What the server answers that has read a roster. -/
theorem get_roster (roster : List Group) (g s : Int32) :
    get (roster.foldl Group.load fun _ => none) g s = (lastName roster g s).getD
      (textBytes ("error: " ++ toString g.toInt ++ " " ++ toString s.toInt)) := by
  have hnone : nameOf (fun _ => none) g s = none := rfl
  rw [get_eq_getD, nameOf_foldl nameOf_load, hnone, Option.or_none]
  rfl

/-- The requests that were written, one on a line, are those that are sent, with a STOP_SESSION
    behind them; or with a STOP, where a line says so, and then nothing more is read. -/
theorem commands_asked (asks : List Ask) (unset : Istream → Int32 × Int32) :
    sentBy (clientLoop unset (.ofBytes (commandText (asks.map Ask.line)))) =
        asks.map Ask.message ++ [Client.send_stop_session] ∧
      ∀ rest, sentBy (clientLoop unset
          (.ofBytes (commandText (asks.map Ask.line) ++ (textBytes "STOP\n" ++ rest)))) =
        asks.map Ask.message ++ [Client.send_stop] := by
  constructor
  · have hall := sentBy_commands asks unset [] .eof
    rwa [List.append_nil] at hall
  · intro rest
    refine sentBy_commands asks unset _ ?_
    have hstop : textBytes "STOP\n" ++ rest = textBytes "STOP" ++ 10 :: rest := by
      have htext : textBytes "STOP\n" = textBytes "STOP" ++ [10] := by decide
      rw [htext, List.append_assoc]
      rfl
    rw [hstop, lines_append (by decide)]
    exact .stop (by rw [Stops]; decide)

end Commands

end Ece358.GroupServer
