/-
  File:      Ece358/Lib/LossyFifo.lean
  Subject:   Channels that lose datagrams, damage them, or reorder and repeat them.

  A channel holds datagrams `ds`; `List.Forall₂ R ds ms` says that they carry the messages `ms`,
  in this order, where `R d m` allows for the damage the channel can do. Losing the `i`th datagram
  loses the `i`th message, damaging it changes no message, and messages are lost from the middle:
  what is left is a sublist. A channel that reorders and repeats has nothing but `ds ⊆ ms.map wire`.

  `Ranked R lo hi ds` says that the datagrams carry ranks that never go down, from `lo` to `hi`: the
  channel of a sender that works through a script and repeats itself on the way.
-/
import Mathlib.Data.List.Forall2

namespace Lib

variable {α β : Type*} {R : α → β → Prop} {ds : List α} {ms : List β}

theorem carries_append {ds' : List α} {ms' : List β} (h : List.Forall₂ R ds ms)
    (h' : List.Forall₂ R ds' ms') : List.Forall₂ R (ds ++ ds') (ms ++ ms') :=
  List.rel_append h h'

theorem carries_lose (h : List.Forall₂ R ds ms) (i : Nat) :
    List.Forall₂ R (ds.eraseIdx i) (ms.eraseIdx i) := by
  induction h generalizing i with
  | nil => exact List.Forall₂.nil
  | cons hd _ ih =>
    cases i with
    | zero => assumption
    | succ i => exact List.Forall₂.cons hd (ih i)

/-- Damage that `R` allows for leaves the messages as they are. -/
theorem carries_damage {d d' : α} (h : List.Forall₂ R ds ms) (i : Nat) (hi : ds[i]? = some d)
    (hR : ∀ m, R d m → R d' m) : List.Forall₂ R (ds.set i d') ms := by
  induction h generalizing i with
  | nil => exact List.Forall₂.nil
  | cons hd htail ih =>
    cases i with
    | zero =>
      rw [List.getElem?_cons_zero, Option.some.injEq] at hi
      subst hi
      exact List.Forall₂.cons (hR _ hd) htail
    | succ i =>
      rw [List.getElem?_cons_succ] at hi
      exact List.Forall₂.cons hd (ih i hi)

theorem carries_modify {f : α → α} (h : List.Forall₂ R ds ms) (i : Nat)
    (hf : ∀ d m, R d m → R (f d) m) : List.Forall₂ R (ds.modify i f) ms := by
  induction h generalizing i with
  | nil =>
    rw [List.modify_nil]
    exact List.Forall₂.nil
  | cons hd htail ih =>
    cases i with
    | zero => exact List.Forall₂.cons (hf _ _ hd) htail
    | succ i => exact List.Forall₂.cons hd (ih i)

theorem carries_mem_message {m : β} (h : List.Forall₂ R ds ms) (hm : m ∈ ms) :
    ∃ d ∈ ds, R d m := by
  induction h with
  | nil => cases hm
  | @cons d m' ds ms hR _ ih =>
    rcases List.mem_cons.mp hm with rfl | hm
    · exact ⟨d, List.mem_cons_self, hR⟩
    · obtain ⟨d', hd', hR'⟩ := ih hm
      exact ⟨d', List.mem_cons_of_mem _ hd', hR'⟩

/-- What is left of the datagrams of some messages, in any order and number, are datagrams of some
    of these messages. -/
theorem exists_messages_of_subset {wire : β → α} (h : ds ⊆ ms.map wire) :
    ∃ ms', ms' ⊆ ms ∧ ds = ms'.map wire := by
  induction ds with
  | nil => exact ⟨[], List.nil_subset _, rfl⟩
  | cons d ds ih =>
    obtain ⟨m, hm, rfl⟩ := List.mem_map.mp (h List.mem_cons_self)
    obtain ⟨ms', hms', rfl⟩ := ih fun x hx => h (List.mem_cons_of_mem _ hx)
    exact ⟨m :: ms', List.cons_subset.mpr ⟨hm, hms'⟩, rfl⟩

/-! ## Ranks -/

/-- The datagrams carry ranks that never go down, from `lo` to `hi`. -/
def Ranked (R : α → Nat → Prop) (lo hi : Nat) (ds : List α) : Prop :=
  ∃ rs : List Nat, List.Forall₂ R ds rs ∧ rs.Pairwise (· ≤ ·) ∧ ∀ r ∈ rs, lo ≤ r ∧ r ≤ hi

section Ranked

variable {R R' : α → Nat → Prop} {lo hi lo' hi' : Nat}

theorem ranked_nil : Ranked R lo hi [] :=
  ⟨[], .nil, .nil, fun _ h => absurd h List.not_mem_nil⟩

theorem Ranked.mono (h : Ranked R lo hi ds) (hlo : lo' ≤ lo) (hhi : hi ≤ hi') :
    Ranked R lo' hi' ds := by
  obtain ⟨rs, hR, hs, hb⟩ := h
  exact ⟨rs, hR, hs, fun r hr => ⟨Nat.le_trans hlo (hb r hr).1, Nat.le_trans (hb r hr).2 hhi⟩⟩

/-- What the datagrams carry is read in another way. -/
theorem Ranked.imp (h : Ranked R lo hi ds) (hR : ∀ d r, lo ≤ r → r ≤ hi → R d r → R' d r) :
    Ranked R' lo hi ds := by
  obtain ⟨rs, hF, hs, hb⟩ := h
  refine ⟨rs, ?_, hs, hb⟩
  clear hs
  induction hF with
  | nil => exact .nil
  | @cons d r ds rs hd hF ih =>
    have hr := hb r List.mem_cons_self
    exact .cons (hR d r hr.1 hr.2 hd) (ih fun r hr => hb r (List.mem_cons_of_mem _ hr))

/-- The oldest datagram leaves the channel; the others do not rank below it. -/
theorem Ranked.pop {d : α} (h : Ranked R lo hi (d :: ds)) :
    ∃ r, R d r ∧ lo ≤ r ∧ r ≤ hi ∧ Ranked R r hi ds := by
  obtain ⟨rs, hF, hs, hb⟩ := h
  cases hF with
  | @cons _ r _ rs hd hF =>
    obtain ⟨hfirst, hrest⟩ := List.pairwise_cons.mp hs
    have hr := hb r List.mem_cons_self
    exact ⟨r, hd, hr.1, hr.2, rs, hF, hrest, fun r' hr' =>
      ⟨hfirst r' hr', (hb r' (List.mem_cons_of_mem _ hr')).2⟩⟩

/-- Datagrams of the highest rank are sent. -/
theorem Ranked.sends (h : Ranked R lo hi ds) {d : α} (hlo : lo ≤ hi') (hhi : hi ≤ hi')
    (hd : R d hi') (k : Nat) : Ranked R lo hi' (ds ++ List.replicate k d) := by
  obtain ⟨rs, hF, hs, hb⟩ := h
  refine ⟨rs ++ List.replicate k hi', ?_, ?_, ?_⟩
  · refine carries_append hF ?_
    rw [List.forall₂_iff_get]
    refine ⟨by simp, fun i _ _ => by simpa using hd⟩
  · rw [List.pairwise_append]
    refine ⟨hs, ?_, fun a ha b hb' => ?_⟩
    · rw [List.pairwise_replicate]
      exact Or.inr (Nat.le_refl _)
    · rw [List.eq_of_mem_replicate hb']
      exact Nat.le_trans (hb a ha).2 hhi
  · intro r hr
    rcases List.mem_append.mp hr with hr | hr
    · exact ⟨(hb r hr).1, Nat.le_trans (hb r hr).2 hhi⟩
    · rw [List.eq_of_mem_replicate hr]
      exact ⟨hlo, Nat.le_refl _⟩

theorem Ranked.loses (h : Ranked R lo hi ds) (i : Nat) : Ranked R lo hi (ds.eraseIdx i) := by
  obtain ⟨rs, hF, hs, hb⟩ := h
  exact ⟨rs.eraseIdx i, carries_lose hF i, hs.sublist (List.eraseIdx_sublist _ _),
    fun r hr => hb r ((List.eraseIdx_sublist _ _).subset hr)⟩

theorem Ranked.damage (h : Ranked R lo hi ds) (i : Nat) {f : α → α}
    (hf : ∀ d r, R d r → R (f d) r) : Ranked R lo hi (ds.modify i f) := by
  obtain ⟨rs, hF, hs, hb⟩ := h
  exact ⟨rs, carries_modify hF i hf, hs, hb⟩

end Ranked

end Lib
