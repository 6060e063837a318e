/-
  File:      Ece358/Lib/Messages.lean
  Subject:   Reading a sequence of messages in pieces.

  A sender writes messages `ds`; a reader takes bytes from the front, never across the end of a
  message. What the reader still has to read is a list of non-empty messages, the first of which
  may be a remainder. General facts, over any alphabet:

  * `nonempty gs` -- the messages that have anything to read;
  * `frontPart n gs`, `afterFront n gs` -- what one read of at most `n` takes, and what it leaves;
  * `Rest ds taken gs` -- after `taken` was read of `ds`, `gs` is what is left;
  * `Inside ds taken r` -- the piece `r`, read after `taken`, lies in one message of `ds`;
  * `rest_read`, `rest_snoc`, `rest_flatten` -- a read and a new message keep `Rest`, and nothing
    is lost or repeated.
-/
import Mathlib.Data.List.Basic

namespace Lib

variable {α : Type*}

/-! ## 1. One read -/

/-- The messages that have anything to read. -/
def nonempty (gs : List (List α)) : List (List α) := gs.filter (fun g => !g.isEmpty)

/-- What one read of at most `n` symbols takes. -/
def frontPart (n : Nat) (gs : List (List α)) : List α := (gs.headD []).take n

/-- What one read of at most `n` symbols leaves. -/
def afterFront (n : Nat) (gs : List (List α)) : List (List α) :=
  nonempty ((gs.headD []).drop n :: gs.tail)

@[simp] theorem nonempty_nil : nonempty ([] : List (List α)) = [] := rfl

@[simp] theorem nonempty_cons_nil (gs : List (List α)) : nonempty ([] :: gs) = nonempty gs := rfl

theorem nonempty_cons_of_ne {g : List α} (h : g ≠ []) (gs : List (List α)) :
    nonempty (g :: gs) = g :: nonempty gs := by
  cases g with
  | nil => exact absurd rfl h
  | cons x g => rfl

theorem nonempty_append (gs hs : List (List α)) :
    nonempty (gs ++ hs) = nonempty gs ++ nonempty hs := List.filter_append ..

@[simp] theorem nonempty_nonempty (gs : List (List α)) : nonempty (nonempty gs) = nonempty gs := by
  simp [nonempty, List.filter_filter]

theorem nonempty_cons_nonempty (g : List α) (gs : List (List α)) :
    nonempty (g :: nonempty gs) = nonempty (g :: gs) := by
  have h := nonempty_append [g] (nonempty gs)
  rw [nonempty_nonempty, ← nonempty_append] at h
  exact h

theorem flatten_nonempty (gs : List (List α)) : (nonempty gs).flatten = gs.flatten := by
  induction gs with
  | nil => rfl
  | cons g gs ih =>
    by_cases hg : g = []
    · subst hg
      exact ih
    · rw [nonempty_cons_of_ne hg, List.flatten_cons, List.flatten_cons, ih]

theorem ne_nil_of_mem_nonempty {g : List α} {gs : List (List α)} (h : g ∈ nonempty gs) :
    g ≠ [] := by
  have := (List.mem_filter.mp h).2
  intro e
  subst e
  simp at this

/-- A read of nothing. -/
theorem afterFront_zero (gs : List (List α)) : afterFront 0 gs = nonempty gs := by
  cases gs <;> rfl

/-- A read takes exactly what it does not leave. -/
theorem frontPart_append_afterFront (n : Nat) (gs : List (List α)) :
    frontPart n gs ++ (afterFront n gs).flatten = gs.flatten := by
  rw [afterFront, flatten_nonempty, List.flatten_cons, ← List.append_assoc, frontPart,
    List.take_append_drop]
  cases gs <;> rfl

/-! ## 2. What is left of a sequence of messages -/

/-- After `taken` was read of the messages `ds`, the list `gs` is what is left. -/
def Rest (ds : List (List α)) (taken : List α) (gs : List (List α)) : Prop :=
  (gs = [] ∧ taken = ds.flatten) ∨
  ∃ pre x y post, ds = pre ++ (x ++ y) :: post ∧ y ≠ [] ∧ taken = pre.flatten ++ x ∧
    gs = y :: nonempty post

/-- The piece `r`, read after `taken`, lies in one non-empty message of `ds`, at its place. -/
def Inside (ds : List (List α)) (taken r : List α) : Prop :=
  ∃ pre a b post, ds = pre ++ (a ++ r ++ b) :: post ∧ a ++ r ++ b ≠ [] ∧ taken = pre.flatten ++ a

theorem rest_flatten {ds gs : List (List α)} {taken : List α} (h : Rest ds taken gs) :
    taken ++ gs.flatten = ds.flatten := by
  rcases h with ⟨rfl, rfl⟩ | ⟨pre, x, y, post, rfl, _, rfl, rfl⟩
  · simp
  · simp [flatten_nonempty]

/-- Everything of `post` is what is left once all in front of it was read. -/
theorem rest_of_nonempty (pre post : List (List α)) :
    Rest (pre ++ post) pre.flatten (nonempty post) := by
  induction post generalizing pre with
  | nil => exact Or.inl ⟨rfl, by simp⟩
  | cons d post ih =>
    by_cases hd : d = []
    · subst hd
      have h := ih (pre ++ [[]])
      simpa using h
    · exact Or.inr ⟨pre, [], d, post, rfl, hd, by simp, nonempty_cons_of_ne hd post⟩

/-- A new message is left as a whole. -/
theorem rest_snoc {ds gs : List (List α)} {taken : List α} (h : Rest ds taken gs) (d : List α) :
    Rest (ds ++ [d]) taken (gs ++ nonempty [d]) := by
  rcases h with ⟨rfl, rfl⟩ | ⟨pre, x, y, post, rfl, hy, rfl, rfl⟩
  · exact rest_of_nonempty ds [d]
  · refine Or.inr ⟨pre, x, y, post ++ [d], by simp, hy, rfl, ?_⟩
    rw [nonempty_append, List.cons_append]

theorem Inside.append {ds : List (List α)} {taken r : List α} (h : Inside ds taken r)
    (ds' : List (List α)) : Inside (ds ++ ds') taken r := by
  obtain ⟨pre, a, b, post, rfl, hne, rfl⟩ := h
  exact ⟨pre, a, b, post ++ ds', by simp, hne, rfl⟩

/-- An empty message holds no piece. -/
theorem Inside.of_cons_nil {ds : List (List α)} {taken r : List α} (h : Inside ([] :: ds) taken r) :
    Inside ds taken r := by
  obtain ⟨pre, a, b, post, hds, hne, rfl⟩ := h
  cases pre with
  | nil => exact absurd (List.cons.inj hds).1.symm hne
  | cons g pre =>
    obtain ⟨rfl, rfl⟩ := List.cons.inj hds
    exact ⟨pre, a, b, post, rfl, hne, rfl⟩

/-- An element of a list with one more at the end is that one, or was there before. -/
theorem mem_split_snoc {xs pre post : List α} {x y : α} (h : xs ++ [y] = pre ++ x :: post) :
    (pre = xs ∧ x = y) ∨ ∃ post', xs = pre ++ x :: post' := by
  rcases List.eq_nil_or_concat post with rfl | ⟨post', z, rfl⟩
  · obtain ⟨h1, h2⟩ := List.append_inj' h rfl
    exact Or.inl ⟨h1.symm, (List.cons.inj h2).1.symm⟩
  · rw [List.concat_eq_append, ← List.cons_append, ← List.append_assoc] at h
    exact Or.inr ⟨post', (List.append_inj' h rfl).1⟩

/-- A read keeps `Rest`, and what it takes lies in one message. -/
theorem rest_read {ds gs : List (List α)} {taken : List α} (h : Rest ds taken gs) (n : Nat) :
    Rest ds (taken ++ frontPart n gs) (afterFront n gs) ∧
      (gs ≠ [] → Inside ds taken (frontPart n gs)) := by
  rcases h with ⟨rfl, rfl⟩ | ⟨pre, x, y, post, rfl, hy, rfl, rfl⟩
  · exact ⟨Or.inl ⟨by simp [afterFront], by simp [frontPart]⟩, fun h => absurd rfl h⟩
  · have hsplit : x ++ y = (x ++ y.take n) ++ y.drop n := by
      rw [List.append_assoc, List.take_append_drop]
    refine ⟨?_, fun _ =>
      ⟨pre, x, y.drop n, post, by simp [frontPart], by simp [frontPart, hy], rfl⟩⟩
    by_cases hd : y.drop n = []
    · have hy' : y.take n = y := by
        have := List.take_append_drop n y
        rwa [hd, List.append_nil] at this
      have hr := rest_of_nonempty (pre ++ [x ++ y]) post
      have ha : afterFront n (y :: nonempty post) = nonempty post := by
        simp [afterFront, hd]
      rw [ha]
      simpa [frontPart, hy'] using hr
    · refine Or.inr
        ⟨pre, x ++ y.take n, y.drop n, post, by rw [← hsplit], hd, by simp [frontPart], ?_⟩
      simp [afterFront, nonempty_cons_of_ne hd]

end Lib
