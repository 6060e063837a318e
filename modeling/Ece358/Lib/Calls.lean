/-
  File:      Ece358/Lib/Calls.lean
  Subject:   Clients that call a server, one request at a time, over a network that loses and
             reorders.

  A client that has called waits for its reply. The server takes the requests in any order; to a
  request it gives the reply `f r`, or none; some requests make it halt, and it may crash.

  * `Caller`, `Calls`, `Calls.Step` -- the clients, what is on its way, and what can happen;
  * `sentTo` -- what is on its way from or to one client;
  * `Calls.Good` -- of one client at most one thing is on its way: its request, or its reply;
  * `Calls.Good.step`, `good_of_steps` -- so every reply is the one to the request before it;
  * `Doomed`, `Doomed.steps` -- the clients that wait for ever.
-/
import Mathlib.Logic.Function.Basic
import Mathlib.Logic.Relation

namespace Lib

/-! ## 1. Clients and a server -/

/-- A client: its calls that have returned, each with its reply, and the request it waits with. -/
structure Caller (ρ σ : Type) where
  done : List (ρ × σ)
  waiting : Option ρ

/-- The clients, the requests and the replies on their way, and whether the server runs. -/
structure Calls (α ρ σ : Type) where
  caller : α → Caller ρ σ
  requests : List (α × ρ)
  replies : List (α × σ)
  up : Bool

section Steps

variable {α ρ σ : Type} [DecidableEq α]

/-- What can happen: a call, its service, its return, a loss, and the end of the server. -/
inductive Calls.Step (f : ρ → Option σ) (halts : ρ → Bool) : Calls α ρ σ → Calls α ρ σ → Prop where
  | call (c : Calls α ρ σ) (a : α) (r : ρ) (hw : (c.caller a).waiting = none) :
      Step f halts c { c with
        caller := Function.update c.caller a { c.caller a with waiting := some r }
        requests := c.requests ++ [(a, r)] }
  | serve (c : Calls α ρ σ) (a : α) (r : ρ) (xs ys : List (α × ρ)) (hup : c.up = true)
      (hr : c.requests = xs ++ (a, r) :: ys) :
      Step f halts c { c with
        requests := xs ++ ys
        replies := c.replies ++ (f r).toList.map fun x => (a, x)
        up := !halts r }
  | returns (c : Calls α ρ σ) (a : α) (r : ρ) (x : σ) (xs ys : List (α × σ))
      (hw : (c.caller a).waiting = some r) (hr : c.replies = xs ++ (a, x) :: ys) :
      Step f halts c { c with
        caller := Function.update c.caller a ⟨(c.caller a).done ++ [(r, x)], none⟩
        replies := xs ++ ys }
  | loseRequest (c : Calls α ρ σ) (p : α × ρ) (xs ys : List (α × ρ))
      (hr : c.requests = xs ++ p :: ys) : Step f halts c { c with requests := xs ++ ys }
  | loseReply (c : Calls α ρ σ) (p : α × σ) (xs ys : List (α × σ))
      (hr : c.replies = xs ++ p :: ys) : Step f halts c { c with replies := xs ++ ys }
  | crash (c : Calls α ρ σ) : Step f halts c { c with up := false }

/-- The parts that belong to one client. -/
def sentTo {τ : Type} (a : α) (l : List (α × τ)) : List τ :=
  l.filterMap fun p => if p.1 = a then some p.2 else none

section SentTo

variable {τ : Type} {a a' : α} {x : τ} {l l' : List (α × τ)}

@[simp] theorem sentTo_nil : sentTo a ([] : List (α × τ)) = [] := rfl

@[simp] theorem sentTo_append : sentTo a (l ++ l') = sentTo a l ++ sentTo a l' :=
  List.filterMap_append

@[simp] theorem sentTo_cons_self : sentTo a ((a, x) :: l) = x :: sentTo a l :=
  List.filterMap_cons_some (if_pos rfl)

theorem sentTo_cons_ne (h : a' ≠ a) : sentTo a ((a', x) :: l) = sentTo a l :=
  List.filterMap_cons_none (if_neg h)

/-- Of the replies to `a'`, another client has none. -/
theorem sentTo_map_ne (h : a' ≠ a) (xs : List τ) : sentTo a (xs.map fun x => (a', x)) = [] := by
  rw [sentTo, List.filterMap_map, List.filterMap_eq_nil_iff]
  exact fun _ _ => if_neg h

@[simp] theorem sentTo_map_self (xs : List τ) : sentTo a (xs.map fun x => (a, x)) = xs := by
  induction xs with
  | nil => rfl
  | cons x xs ih => rw [List.map_cons, sentTo_cons_self, ih]

end SentTo

/-! ## 2. One thing on its way -/

/-- Where a call stands: the request of a client, what of it is on its way to the server, and what
    to the client. -/
inductive CallPhase (f : ρ → Option σ) : Option ρ → List ρ → List σ → Prop where
  | idle : CallPhase f none [] []
  | asked (r : ρ) : CallPhase f (some r) [r] []
  | replied (r : ρ) (x : σ) (h : f r = some x) : CallPhase f (some r) [] [x]
  | lost (r : ρ) : CallPhase f (some r) [] []

/-- The invariant, of one client. -/
structure Calls.Good (f : ρ → Option σ) (c : Calls α ρ σ) (a : α) : Prop where
  answered : ∀ p ∈ (c.caller a).done, f p.1 = some p.2
  phase : CallPhase f (c.caller a).waiting (sentTo a c.requests) (sentTo a c.replies)

section Good

variable {f : ρ → Option σ} {halts : ρ → Bool} {c c' : Calls α ρ σ} {a : α} {r : ρ}

theorem append_cons_ne_nil {τ : Type} {xs ys : List τ} {x : τ} : xs ++ x :: ys ≠ [] := by simp

theorem append_cons_eq_singleton {τ : Type} {xs ys : List τ} {x y : τ} (h : xs ++ x :: ys = [y]) :
    xs = [] ∧ x = y ∧ ys = [] := by
  cases xs with
  | nil =>
    obtain ⟨hx, hys⟩ := List.cons.inj h
    exact ⟨rfl, hx, hys⟩
  | cons z xs => cases (List.cons.inj h).2 |> append_cons_ne_nil

/-- A request that is on its way is that of a client that waits with it, and it is all there is. -/
theorem Calls.Good.request (h : c.Good f a) {xs ys : List (α × ρ)}
    (hr : c.requests = xs ++ (a, r) :: ys) :
    (c.caller a).waiting = some r ∧ sentTo a (xs ++ ys) = [] ∧ sentTo a c.replies = [] := by
  have hp := h.phase
  rw [hr, sentTo_append, sentTo_cons_self] at hp
  generalize hw : (c.caller a).waiting = w at hp
  generalize hq : sentTo a xs ++ r :: sentTo a ys = q at hp
  generalize hs : sentTo a c.replies = s at hp
  cases hp with
  | idle => exact absurd hq append_cons_ne_nil
  | asked r' =>
    obtain ⟨hxs, rfl, hys⟩ := append_cons_eq_singleton hq
    exact ⟨rfl, by rw [sentTo_append, hxs, hys]; rfl, rfl⟩
  | replied r' x hf => exact absurd hq append_cons_ne_nil
  | lost r' => exact absurd hq append_cons_ne_nil

/-- A reply that is on its way is the one that a client waits for, and it is all there is. -/
theorem Calls.Good.reply (h : c.Good f a) {x : σ} {xs ys : List (α × σ)}
    (hr : c.replies = xs ++ (a, x) :: ys) :
    ∃ r, (c.caller a).waiting = some r ∧ f r = some x ∧ sentTo a (xs ++ ys) = [] ∧
      sentTo a c.requests = [] := by
  have hp := h.phase
  rw [hr, sentTo_append, sentTo_cons_self] at hp
  generalize hw : (c.caller a).waiting = w at hp
  generalize hq : sentTo a c.requests = q at hp
  generalize hs : sentTo a xs ++ x :: sentTo a ys = s at hp
  cases hp with
  | idle => exact absurd hs append_cons_ne_nil
  | asked r' => exact absurd hs append_cons_ne_nil
  | replied r' x' hf =>
    obtain ⟨hxs, rfl, hys⟩ := append_cons_eq_singleton hs
    exact ⟨r', rfl, hf, by rw [sentTo_append, hxs, hys]; rfl, rfl⟩
  | lost r' => exact absurd hs append_cons_ne_nil

/-- What a step takes off a channel, of another client it takes nothing. -/
theorem sentTo_remove_ne {τ : Type} {a' : α} {x : τ} {l xs ys : List (α × τ)}
    (hl : l = xs ++ (a', x) :: ys) (h : a' ≠ a) : sentTo a (xs ++ ys) = sentTo a l := by
  rw [hl, sentTo_append, sentTo_append, sentTo_cons_ne h]

/-- Every step keeps it. -/
theorem Calls.Good.step (h : c.Good f a) (hs : Calls.Step f halts c c') : c'.Good f a := by
  cases hs with
  | call a' r hw =>
    by_cases ha : a' = a
    · subst ha
      have hp := h.phase
      rw [hw] at hp
      generalize hq : sentTo a' c.requests = q at hp
      generalize hr : sentTo a' c.replies = s at hp
      cases hp
      refine ⟨?_, ?_⟩
      · dsimp only
        rw [Function.update_self]
        exact h.answered
      · dsimp only
        rw [Function.update_self, sentTo_append, hq, hr]
        simpa using CallPhase.asked r
    · refine ⟨?_, ?_⟩
      · dsimp only
        rw [Function.update_of_ne (Ne.symm ha)]
        exact h.answered
      · dsimp only
        rw [Function.update_of_ne (Ne.symm ha), sentTo_append, sentTo_cons_ne ha, sentTo_nil,
          List.append_nil]
        exact h.phase
  | serve a' r xs ys hup hr =>
    by_cases ha : a' = a
    · subst ha
      obtain ⟨hw, hrest, hnone⟩ := h.request hr
      refine ⟨h.answered, ?_⟩
      rw [hw, hrest, sentTo_append, hnone, sentTo_map_self, List.nil_append]
      cases hf : f r with
      | none => exact .lost r
      | some x => exact .replied r x hf
    · refine ⟨h.answered, ?_⟩
      rw [sentTo_remove_ne hr ha, sentTo_append, sentTo_map_ne ha, List.append_nil]
      exact h.phase
  | returns a' r x xs ys hw hr =>
    by_cases ha : a' = a
    · subst ha
      obtain ⟨r', hw', hf, hrest, hnone⟩ := h.reply hr
      obtain rfl : r = r' := Option.some.inj (hw.symm.trans hw')
      refine ⟨?_, ?_⟩
      · dsimp only
        rw [Function.update_self]
        intro p hp
        rcases List.mem_append.mp hp with hp | hp
        · exact h.answered p hp
        · rw [List.mem_singleton.mp hp]
          exact hf
      · dsimp only
        rw [Function.update_self, hrest, hnone]
        exact .idle
    · refine ⟨?_, ?_⟩
      · dsimp only
        rw [Function.update_of_ne (Ne.symm ha)]
        exact h.answered
      · dsimp only
        rw [Function.update_of_ne (Ne.symm ha), sentTo_remove_ne hr ha]
        exact h.phase
  | loseRequest p xs ys hr =>
    obtain ⟨a', r⟩ := p
    refine ⟨h.answered, ?_⟩
    by_cases ha : a' = a
    · subst ha
      obtain ⟨hw, hrest, hnone⟩ := h.request hr
      rw [hw, hrest, hnone]
      exact .lost r
    · rw [sentTo_remove_ne hr ha]
      exact h.phase
  | loseReply p xs ys hr =>
    obtain ⟨a', x⟩ := p
    refine ⟨h.answered, ?_⟩
    by_cases ha : a' = a
    · subst ha
      obtain ⟨r, hw, _, hrest, hnone⟩ := h.reply hr
      rw [hw, hrest, hnone]
      exact .lost r
    · rw [sentTo_remove_ne hr ha]
      exact h.phase
  | crash => exact ⟨h.answered, h.phase⟩

theorem good_of_steps (h : c.Good f a)
    (hrun : Relation.ReflTransGen (Calls.Step f halts) c c') : c'.Good f a := by
  induction hrun with
  | refl => exact h
  | tail _ hs ih => exact ih.step hs

end Good

/-! ## 3. Calls that never return -/

/-- A client that waits, where its reply is not on its way, and will not be: its request was lost,
    or the server is gone, or it gives no reply to this request. -/
structure Doomed (f : ρ → Option σ) (c : Calls α ρ σ) (a : α) (r : ρ) : Prop where
  waits : (c.caller a).waiting = some r
  noReply : sentTo a c.replies = []
  noHope : sentTo a c.requests = [] ∨ c.up = false ∨ f r = none

section Doomed

variable {f : ρ → Option σ} {halts : ρ → Bool} {c c' : Calls α ρ σ} {a : α} {r : ρ}

theorem Doomed.step (h : Doomed f c a r) (hgood : c.Good f a) (hs : Calls.Step f halts c c') :
    Doomed f c' a r ∧ (c'.caller a).done = (c.caller a).done := by
  have hcall : ∀ a', (c.caller a').waiting = none → a' ≠ a := by
    rintro a' hw rfl
    cases hw.symm.trans h.waits
  cases hs with
  | call a' r' hw =>
    have ha := hcall a' hw
    refine ⟨⟨?_, h.noReply, ?_⟩, ?_⟩
    · dsimp only
      rw [Function.update_of_ne (Ne.symm ha)]
      exact h.waits
    · rw [sentTo_append, sentTo_cons_ne ha, sentTo_nil, List.append_nil]
      exact h.noHope
    · dsimp only
      rw [Function.update_of_ne (Ne.symm ha)]
  | serve a' r' xs ys hup hr =>
    by_cases ha : a' = a
    · subst ha
      obtain ⟨hw, hrest, hnone⟩ := hgood.request hr
      obtain rfl : r = r' := Option.some.inj (h.waits.symm.trans hw)
      have hf : f r = none := by
        rcases h.noHope with hq | hdown | hf
        · rw [hr, sentTo_append, sentTo_cons_self] at hq
          exact absurd hq append_cons_ne_nil
        · cases hdown.symm.trans hup
        · exact hf
      refine ⟨⟨hw, ?_, Or.inl hrest⟩, rfl⟩
      rw [sentTo_append, hnone, sentTo_map_self, hf]
      rfl
    · refine ⟨⟨h.waits, ?_, ?_⟩, rfl⟩
      · rw [sentTo_append, h.noReply, sentTo_map_ne ha]
        rfl
      · rw [sentTo_remove_ne hr ha]
        rcases h.noHope with hq | hdown | hf
        · exact Or.inl hq
        · cases hdown.symm.trans hup
        · exact Or.inr (Or.inr hf)
  | returns a' r' x xs ys hw hr =>
    by_cases ha : a' = a
    · subst ha
      have hno := h.noReply
      rw [hr, sentTo_append, sentTo_cons_self] at hno
      exact absurd hno append_cons_ne_nil
    · refine ⟨⟨?_, ?_, h.noHope⟩, ?_⟩
      · dsimp only
        rw [Function.update_of_ne (Ne.symm ha)]
        exact h.waits
      · rw [sentTo_remove_ne hr ha]
        exact h.noReply
      · dsimp only
        rw [Function.update_of_ne (Ne.symm ha)]
  | loseRequest p xs ys hr =>
    obtain ⟨a', r'⟩ := p
    refine ⟨⟨h.waits, h.noReply, ?_⟩, rfl⟩
    by_cases ha : a' = a
    · subst ha
      exact Or.inl (hgood.request hr).2.1
    · rw [sentTo_remove_ne hr ha]
      exact h.noHope
  | loseReply p xs ys hr =>
    obtain ⟨a', x⟩ := p
    refine ⟨⟨h.waits, ?_, h.noHope⟩, rfl⟩
    by_cases ha : a' = a
    · subst ha
      have hno := h.noReply
      rw [hr, sentTo_append, sentTo_cons_self] at hno
      exact absurd hno append_cons_ne_nil
    · rw [sentTo_remove_ne hr ha]
      exact h.noReply
  | crash => exact ⟨⟨h.waits, h.noReply, Or.inr (Or.inl rfl)⟩, rfl⟩

/-- Such a client waits for ever. -/
theorem Doomed.steps (h : Doomed f c a r) (hgood : c.Good f a)
    (hrun : Relation.ReflTransGen (Calls.Step f halts) c c') :
    Doomed f c' a r ∧ (c'.caller a).done = (c.caller a).done := by
  induction hrun with
  | refl => exact ⟨h, rfl⟩
  | tail hrun hs ih =>
    obtain ⟨hd, hdone⟩ := ih
    obtain ⟨hd', hdone'⟩ := hd.step (good_of_steps hgood hrun) hs
    exact ⟨hd', hdone'.trans hdone⟩

end Doomed

end Steps

end Lib
