/-
  File:      Ece358/Lib/Marked.lean
  Subject:   A queue of symbols with marks in it, read up to the next mark.

  `none` is a mark, `some a` the symbol `a`. A read with room skips the marks in front, takes
  symbols up to the next mark, and, if it still has room there, the mark too. General facts, over
  any symbols:

  * `front`, `skip`, `symbols` -- the symbols before the next mark, the queue behind the marks in
    front, and all symbols;
  * `blocks` -- the symbols between the marks;
  * `takeFront`, `readMarked` -- a read without and with the skipping;
  * `takeFront_whole`, `takeFront_part` -- a read of a block of symbols;
  * `readMarked_symbols` -- a read takes exactly what it does not leave;
  * `readMarked_blocks` -- the blocks are messages, of which it reads the first non-empty one;
  * `mapSymbols` -- the same queue over other symbols, for what a symbol carries along: a read does
    not look at it (`readMarked_mapSymbols`).
-/
import Ece358.Lib.Messages
import Mathlib.Data.List.Infix

namespace Lib

/-- A queue of symbols and marks. -/
abbrev Marked (α : Type*) := List (Option α)

namespace Marked

variable {α : Type*} {L : Nat} {q : Marked α} {xs : List α}

/-- The symbols before the next mark. -/
def front : Marked α → List α
  | some a :: q => a :: front q
  | _ => []

/-- The queue without the marks in front. -/
def skip : Marked α → Marked α
  | none :: q => skip q
  | q => q

/-- All symbols. -/
def symbols (q : Marked α) : List α := q.filterMap id

/-- The symbols between the marks. The last ones are not ended by a mark yet. -/
def blocks : Marked α → List (List α)
  | [] => [[]]
  | none :: q => [] :: blocks q
  | some a :: q => (a :: (blocks q).headD []) :: (blocks q).tail

/-- A read of at most `L` symbols from where the queue stands. -/
def takeFront (L : Nat) (q : Marked α) : List α × Marked α :=
  (q.front.take L, if L ≤ q.front.length then q.drop L else (q.drop q.front.length).tail)

/-- A read of at most `L` symbols. -/
def readMarked (L : Nat) (q : Marked α) : List α × Marked α :=
  if L = 0 then ([], q) else takeFront L q.skip

@[simp] theorem symbols_append (q r : Marked α) : symbols (q ++ r) = symbols q ++ symbols r :=
  List.filterMap_append

@[simp] theorem symbols_map_some (xs : List α) : symbols (xs.map some) = xs := by
  rw [symbols, List.filterMap_map]
  exact List.filterMap_some

@[simp] theorem symbols_mark (q : Marked α) : symbols (none :: q) = symbols q := rfl

theorem front_append (xs : List α) (q : Marked α) : front (xs.map some ++ q) = xs ++ front q := by
  induction xs with
  | nil => rfl
  | cons x xs ih => exact congrArg (x :: ·) ih

theorem skip_append (h : xs ≠ []) (q : Marked α) : skip (xs.map some ++ q) = xs.map some ++ q := by
  cases xs with
  | nil => exact absurd rfl h
  | cons x xs => rfl

/-- The queue is its front and the rest. -/
theorem front_rest (q : Marked α) : q = (front q).map some ++ q.drop (front q).length := by
  induction q with
  | nil => rfl
  | cons x q ih =>
    cases x with
    | none => rfl
    | some a => exact congrArg (some a :: ·) ih

/-- Behind its front there is a mark, if anything. -/
theorem front_drop_front (q : Marked α) : front (q.drop (front q).length) = [] := by
  induction q with
  | nil => rfl
  | cons x q ih =>
    cases x with
    | none => rfl
    | some a => exact ih

theorem symbols_skip (q : Marked α) : symbols (skip q) = symbols q := by
  induction q with
  | nil => rfl
  | cons x q ih =>
    cases x with
    | none => exact ih
    | some a => rfl

/-- Where the front is empty, the tail loses a mark only. -/
theorem symbols_tail (h : front q = []) : symbols q.tail = symbols q := by
  cases q with
  | nil => rfl
  | cons x q =>
    cases x with
    | none => rfl
    | some a => cases h

theorem front_isPrefix (q : Marked α) : front q <+: symbols q := by
  have := congrArg symbols (front_rest q)
  rw [symbols_append, symbols_map_some] at this
  exact ⟨_, this.symm⟩

/-- A part of the front is gone. -/
theorem drop_front (h : L ≤ (front q).length) :
    q.drop L = ((front q).drop L).map some ++ q.drop (front q).length := by
  rw [List.map_drop, ← List.drop_append_of_le_length (by rwa [List.length_map]), ← front_rest]

theorem takeFront_symbols (L : Nat) (q : Marked α) :
    (takeFront L q).1 ++ symbols (takeFront L q).2 = symbols q := by
  have hq : symbols q = front q ++ symbols (q.drop (front q).length) := by
    have := congrArg symbols (front_rest q)
    rwa [symbols_append, symbols_map_some] at this
  unfold takeFront
  dsimp only
  split
  next hL =>
    rw [drop_front hL, symbols_append, symbols_map_some, ← List.append_assoc,
      List.take_append_drop, hq]
  next hL =>
    rw [List.take_of_length_le (by omega), symbols_tail (front_drop_front q), hq]

/-- Nothing is lost, repeated or reordered. -/
theorem readMarked_symbols (L : Nat) (q : Marked α) :
    (readMarked L q).1 ++ symbols (readMarked L q).2 = symbols q := by
  unfold readMarked
  split
  · rfl
  · rw [takeFront_symbols, symbols_skip]

/-- A read of nothing. -/
theorem takeFront_zero (q : Marked α) : takeFront 0 q = ([], q) := by
  simp [takeFront]

/-- A mark ends a read that has room. -/
theorem takeFront_mark (hL : L ≠ 0) (q : Marked α) : takeFront L (none :: q) = ([], q) := by
  have h : ¬ L ≤ 0 := by omega
  simp [takeFront, front, h]

/-- A read that does not get to the end of a block. -/
theorem takeFront_part (h : L < xs.length) (q : Marked α) :
    takeFront L (xs.map some ++ q) = (xs.take L, (xs.drop L).map some ++ q) := by
  unfold takeFront
  rw [front_append, if_pos (by rw [List.length_append]; omega),
    List.take_append_of_le_length (by omega),
    List.drop_append_of_le_length (by rw [List.length_map]; omega), List.map_drop]

/-- A read that takes a block, and goes on. -/
theorem takeFront_whole (h : xs.length ≤ L) (q : Marked α) :
    takeFront L (xs.map some ++ q) =
      (xs ++ (takeFront (L - xs.length) q).1, (takeFront (L - xs.length) q).2) := by
  have hdrop : ∀ k, (xs.map some ++ q).drop (xs.length + k) = q.drop k := fun k => by
    rw [← List.length_map some, List.drop_append, List.drop_eq_nil_of_le (by omega),
      List.nil_append, Nat.add_sub_cancel_left]
  unfold takeFront
  dsimp only
  rw [front_append, List.take_append, List.take_of_length_le h, List.length_append]
  by_cases hL : L - xs.length ≤ (front q).length
  · rw [if_pos hL, if_pos (by omega), ← hdrop, Nat.add_sub_cancel' h]
  · rw [if_neg hL, if_neg (by omega), hdrop]

/-! ## Blocks -/

/-- The first block is the front. -/
theorem blocks_front (q : Marked α) : ∃ gs, blocks q = front q :: gs := by
  induction q with
  | nil => exact ⟨[], rfl⟩
  | cons x q ih =>
    cases x with
    | none => exact ⟨blocks q, rfl⟩
    | some a =>
      obtain ⟨gs, h⟩ := ih
      exact ⟨gs, by rw [blocks, h]; rfl⟩

theorem blocks_ne_nil (q : Marked α) : blocks q ≠ [] := by
  obtain ⟨gs, h⟩ := blocks_front q
  rw [h]
  exact List.cons_ne_nil _ _

/-- Symbols in front extend the first block. -/
theorem blocks_map_append {g : List α} {gs : List (List α)} (h : blocks q = g :: gs)
    (xs : List α) : blocks (xs.map some ++ q) = (xs ++ g) :: gs := by
  induction xs with
  | nil => exact h
  | cons x xs ih =>
    rw [List.map_cons, List.cons_append, blocks, ih]
    rfl

/-- A mark at the end closes the last block. -/
theorem blocks_append_mark (q : Marked α) : blocks (q ++ [none]) = blocks q ++ [[]] := by
  induction q with
  | nil => rfl
  | cons x q ih =>
    cases x with
    | none => exact congrArg ([] :: ·) ih
    | some a =>
      obtain ⟨gs, h⟩ := blocks_front q
      rw [List.cons_append, blocks, ih, blocks, h]
      rfl

/-- Symbols at the end extend it. -/
theorem blocks_append_map (q : Marked α) (xs : List α) :
    ∃ gs g, blocks q = gs ++ [g] ∧ blocks (q ++ xs.map some) = gs ++ [g ++ xs] := by
  induction q with
  | nil =>
    refine ⟨[], [], rfl, ?_⟩
    rw [List.nil_append, ← List.append_nil (xs.map some), blocks_map_append rfl]
    simp
  | cons x q ih =>
    obtain ⟨gs, g, h1, h2⟩ := ih
    cases x with
    | none => exact ⟨[] :: gs, g, congrArg ([] :: ·) h1, congrArg ([] :: ·) h2⟩
    | some a =>
      rw [List.cons_append, blocks, blocks, h1, h2]
      cases gs with
      | nil => exact ⟨[], a :: g, rfl, rfl⟩
      | cons g0 gs => exact ⟨(a :: g0) :: gs, g, rfl, rfl⟩

theorem flatten_blocks (q : Marked α) : (blocks q).flatten = symbols q := by
  induction q with
  | nil => rfl
  | cons x q ih =>
    cases x with
    | none => exact ih
    | some a =>
      obtain ⟨gs, h⟩ := blocks_front q
      rw [h] at ih
      rw [blocks, h]
      exact congrArg (a :: ·) ih

/-- The last of more than one. -/
theorem getLastD_cons (g d : α) {gs : List α} (h : gs ≠ []) :
    (g :: gs).getLastD d = gs.getLastD d := by
  cases gs with
  | nil => exact absurd rfl h
  | cons x gs => rfl

/-- The marks in front end empty blocks only. -/
theorem blocks_skip (q : Marked α) : nonempty (blocks (skip q)) = nonempty (blocks q) ∧
    (blocks (skip q)).getLastD [] = (blocks q).getLastD [] := by
  induction q with
  | nil => exact ⟨rfl, rfl⟩
  | cons x q ih =>
    cases x with
    | none => exact ⟨ih.1, ih.2.trans (getLastD_cons _ _ (blocks_ne_nil q)).symm⟩
    | some a => exact ⟨rfl, rfl⟩

/-- Behind the marks in front there are symbols, if anything. -/
theorem skip_eq_nil (h : front (skip q) = []) : skip q = [] := by
  induction q with
  | nil => rfl
  | cons x q ih =>
    cases x with
    | none => exact ih h
    | some a => cases h

/-- A read from where the queue stands is one from its first block. -/
theorem takeFront_blocks {g : List α} {gs : List (List α)} (h : blocks q = g :: gs) (L : Nat) :
    (takeFront L q).1 = g.take L ∧
      nonempty (blocks (takeFront L q).2) = nonempty (g.drop L :: gs) ∧
      (blocks (takeFront L q).2).getLastD [] <:+ (g :: gs).getLastD [] := by
  obtain ⟨ts, hts⟩ := blocks_front (q.drop (front q).length)
  rw [front_drop_front] at hts
  have hq := blocks_map_append hts (front q)
  rw [← front_rest, h, List.append_nil] at hq
  obtain ⟨rfl, rfl⟩ := List.cons.inj hq
  refine ⟨rfl, ?_⟩
  unfold takeFront
  dsimp only
  split
  next hL =>
    rw [drop_front hL, blocks_map_append hts, List.append_nil]
    refine ⟨rfl, ?_⟩
    cases gs with
    | nil => exact List.drop_suffix _ _
    | cons g' gs => exact List.suffix_rfl
  next hL =>
    have hnil : (front q).drop L = [] := List.drop_eq_nil_of_le (by omega)
    rw [hnil, nonempty_cons_nil]
    generalize q.drop (front q).length = rest at hts
    cases rest with
    | nil =>
      cases hts
      exact ⟨rfl, List.nil_suffix⟩
    | cons x rest =>
      cases x with
      | none =>
        obtain ⟨_, rfl⟩ := List.cons.inj hts
        exact ⟨rfl, by rw [getLastD_cons _ _ (blocks_ne_nil rest)]; exact List.suffix_rfl⟩
      | some a => cases hts

/-- A read takes a part of the first block that has something to read. -/
theorem readMarked_blocks (L : Nat) (q : Marked α) :
    (readMarked L q).1 = frontPart L (nonempty (blocks q)) ∧
      nonempty (blocks (readMarked L q).2) = afterFront L (nonempty (blocks q)) ∧
      (blocks (readMarked L q).2).getLastD [] <:+ (blocks q).getLastD [] := by
  by_cases hL : L = 0
  · subst hL
    rw [readMarked, if_pos rfl, afterFront_zero, nonempty_nonempty]
    exact ⟨List.take_zero.symm, rfl, List.suffix_rfl⟩
  · rw [readMarked, if_neg hL, ← (blocks_skip q).1, ← (blocks_skip q).2]
    by_cases hf : front (skip q) = []
    · rw [skip_eq_nil hf]
      simp [takeFront, blocks, front, frontPart, afterFront]
    · obtain ⟨gs, hgs⟩ := blocks_front (skip q)
      obtain ⟨htaken, hleft, hlast⟩ := takeFront_blocks hgs L
      rw [hgs, nonempty_cons_of_ne hf, frontPart, afterFront, List.headD_cons, List.tail_cons,
        nonempty_cons_nonempty]
      exact ⟨htaken, hleft, hlast⟩

/-! ## Other symbols -/

section MapSymbols

variable {β : Type*} (f : α → β)

/-- The queue with every symbol replaced. -/
def mapSymbols (q : Marked α) : Marked β := q.map (Option.map f)

theorem mapSymbols_append (q r : Marked α) :
    mapSymbols f (q ++ r) = mapSymbols f q ++ mapSymbols f r := List.map_append

theorem mapSymbols_map_some (xs : List α) :
    mapSymbols f (xs.map some) = (xs.map f).map some := by
  rw [mapSymbols, List.map_map, List.map_map]
  rfl

theorem mapSymbols_leftInverse {g : β → α} (h : ∀ a, g (f a) = a) (q : Marked α) :
    mapSymbols g (mapSymbols f q) = q := by
  have hg : g ∘ f = id := funext h
  rw [mapSymbols, mapSymbols, List.map_map, Option.map_comp_map, hg, Option.map_id, List.map_id]

theorem symbols_mapSymbols (q : Marked α) : symbols (mapSymbols f q) = (symbols q).map f := by
  induction q with
  | nil => rfl
  | cons x q ih =>
    cases x with
    | none => exact ih
    | some a => exact congrArg (f a :: ·) ih

theorem front_mapSymbols (q : Marked α) : front (mapSymbols f q) = (front q).map f := by
  induction q with
  | nil => rfl
  | cons x q ih =>
    cases x with
    | none => rfl
    | some a => exact congrArg (f a :: ·) ih

theorem skip_mapSymbols (q : Marked α) : skip (mapSymbols f q) = mapSymbols f (skip q) := by
  induction q with
  | nil => rfl
  | cons x q ih =>
    cases x with
    | none => exact ih
    | some a => rfl

/-- A read does not look at the symbols. -/
theorem readMarked_mapSymbols (L : Nat) (q : Marked α) :
    (readMarked L (mapSymbols f q)).1 = (readMarked L q).1.map f := by
  unfold readMarked takeFront
  split
  · rfl
  · dsimp only
    rw [skip_mapSymbols, front_mapSymbols, List.map_take]

end MapSymbols

/-- A queue without symbols is skipped. -/
theorem skip_append_marks (h : symbols q = []) (r : Marked α) : skip (q ++ r) = skip r := by
  induction q with
  | nil => rfl
  | cons x q ih =>
    cases x with
    | none => exact ih h
    | some a => cases h

/-- What a read meets first is the first symbol of all. -/
theorem head_front_skip (q : Marked α) : (front (skip q)).head? = (symbols q).head? := by
  induction q with
  | nil => rfl
  | cons x q ih =>
    cases x with
    | none => exact ih
    | some a => rfl

end Marked

end Lib
