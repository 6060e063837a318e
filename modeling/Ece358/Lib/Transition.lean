/-
  File:      Ece358/Lib/Transition.lean
  Subject:   Partial step functions and the runs they have.

  A system is a function `f : σ → α → Option σ`: the action `a` leads from `s` to `f s a`, where
  it is possible at all. A restriction `ok : σ → α → Prop` says which actions a run may take, and
  where. General facts, over any system:

  * `Step f ok s s'`, `Reach f ok s s'` -- one allowed step, and a run of them;
  * `Reach.invariant` -- what a step preserves, a run preserves;
  * `Reach.simulates` -- a system that matches every step matches every run;
  * `exec`, `reach_of_exec` -- a given list of actions, run by evaluation;
  * `Run`, `Run.purge` -- runs with their actions; actions that leave no trace can be left out;
  * `Run.congr` -- restrictions that agree under an invariant allow the same runs;
  * `Run.good_iff`, `Run.good_iff_within` -- a run ends well if and only if no step of it does
    irreparable harm;
  * `exists_ge_of_rises` -- a rank that keeps rising reaches its top;
  * `Endless r s`, `not_endless_of_descends`, `endless_of_invariant` -- infinite runs of a relation,
    refuted by a rank that descends and built from an invariant that always has a successor.
-/
import Mathlib.Logic.Function.Iterate
import Mathlib.Logic.Relation
import Mathlib.Order.WellFounded

namespace Lib

variable {σ α : Type*}

/-- One step of `f` by an action that `ok` allows. -/
def Step (f : σ → α → Option σ) (ok : σ → α → Prop) (s s' : σ) : Prop :=
  ∃ a, ok s a ∧ f s a = some s'

/-- A run of allowed steps. -/
abbrev Reach (f : σ → α → Option σ) (ok : σ → α → Prop) : σ → σ → Prop :=
  Relation.ReflTransGen (Step f ok)

variable {f : σ → α → Option σ} {ok ok' : σ → α → Prop} {s s' s'' : σ}

/-- What every allowed step preserves holds along every run. -/
theorem Reach.invariant {I : σ → Prop} (h : Reach f ok s s') (h0 : I s)
    (hstep : ∀ s a s', I s → ok s a → f s a = some s' → I s') : I s' := by
  induction h with
  | refl => exact h0
  | tail _ hs ih =>
    obtain ⟨a, ha, hf⟩ := hs
    exact hstep _ a _ ih ha hf

/-- Where every allowed step is matched by steps of another system, every run is. -/
theorem Reach.simulates {τ : Type*} {g : τ → τ → Prop} {R : σ → τ → Prop} {t : τ}
    (h : Reach f ok s s') (h0 : R s t)
    (hstep : ∀ s a s' t, R s t → ok s a → f s a = some s' →
      ∃ t', Relation.ReflTransGen g t t' ∧ R s' t') :
    ∃ t', Relation.ReflTransGen g t t' ∧ R s' t' := by
  induction h with
  | refl => exact ⟨t, .refl, h0⟩
  | tail _ hs ih =>
    obtain ⟨a, ha, hf⟩ := hs
    obtain ⟨t1, ht1, hR1⟩ := ih
    obtain ⟨t2, ht2, hR2⟩ := hstep _ a _ t1 hR1 ha hf
    exact ⟨t2, ht1.trans ht2, hR2⟩

theorem reach_step {a : α} (ha : ok s a) (hf : f s a = some s') : Reach f ok s s' :=
  Relation.ReflTransGen.single ⟨a, ha, hf⟩

/-- A step in front of a run. -/
theorem reach_head {a : α} (ha : ok s a) (hf : f s a = some s') (h : Reach f ok s' s'') :
    Reach f ok s s'' := Relation.ReflTransGen.head ⟨a, ha, hf⟩ h

/-! ## Given actions -/

/-- The state a list of actions leads to, where each of them is allowed. -/
def exec (f : σ → α → Option σ) (ok : σ → α → Prop) [∀ s a, Decidable (ok s a)] :
    σ → List α → Option σ
  | s, [] => some s
  | s, a :: as => if ok s a then (f s a).bind fun s' => exec f ok s' as else none

theorem reach_of_exec [∀ s a, Decidable (ok s a)] {as : List α} (h : exec f ok s as = some s') :
    Reach f ok s s' := by
  induction as generalizing s with
  | nil =>
    rw [exec, Option.some.injEq] at h
    rw [h]
  | cons a as ih =>
    rw [exec, Option.ite_none_right_eq_some, Option.bind_eq_some_iff] at h
    obtain ⟨ha, t, ht, h⟩ := h
    exact reach_head ha ht (ih h)

/-! ## Runs with their actions -/

/-- A run of allowed steps, with the actions it takes. -/
inductive Run (f : σ → α → Option σ) (ok : σ → α → Prop) : σ → List α → σ → Prop where
  | nil (s : σ) : Run f ok s [] s
  | cons {s s' s'' : σ} {a : α} {as : List α} (ha : ok s a) (hf : f s a = some s')
      (h : Run f ok s' as s'') : Run f ok s (a :: as) s''

/-- What every allowed step preserves holds along every run. -/
theorem Run.invariant {I : σ → Prop} {as : List α} (h : Run f ok s as s') (h0 : I s)
    (hstep : ∀ s a s', I s → ok s a → f s a = some s' → I s') : I s' := by
  induction h with
  | nil => exact h0
  | cons ha hf _ ih => exact ih (hstep _ _ _ h0 ha hf)

/-- Where good steps keep `I`, any other step that is allowed leads to `B`, and no allowed step
    leaves `B`: a run from `I` ends well if and only if all its steps are good. -/
theorem Run.good_iff_within {I B G : σ → Prop} {as : List α} (h : Run f ok s as s') (h0 : I s)
    (hI : ∀ s a s', I s → ok s a → ok' s a → f s a = some s' → I s')
    (hB : ∀ s a s', I s → ok s a → ¬ ok' s a → f s a = some s' → B s')
    (hstay : ∀ s a s', B s → ok s a → f s a = some s' → B s') (hgood : ∀ s, I s → G s)
    (hbad : ∀ s, B s → ¬ G s) : G s' ↔ Run f (fun s a => ok s a ∧ ok' s a) s as s' := by
  constructor
  · intro hG
    induction h with
    | nil => exact .nil _
    | @cons s s1 s2 a as hok hf h ih =>
      by_cases ha : ok' s a
      · exact .cons ⟨hok, ha⟩ hf (ih (hI s a s1 h0 hok ha hf) hG)
      · exact absurd hG (hbad _ (h.invariant (hB s a s1 h0 hok ha hf) hstay))
  · exact fun h => hgood _ (h.invariant h0 fun s a s' hs ha hf => hI s a s' hs ha.1 ha.2 hf)

theorem Run.mono {as : List α} (h : Run f ok s as s') (hok : ∀ s a, ok s a → ok' s a) :
    Run f ok' s as s' := by
  induction h with
  | nil => exact .nil _
  | cons ha hf _ ih => exact .cons (hok _ _ ha) hf ih

/-- The same, where every step is allowed. -/
theorem Run.good_iff {I B G : σ → Prop} {as : List α} (h : Run f (fun _ _ => True) s as s')
    (h0 : I s) (hI : ∀ s a s', I s → ok s a → f s a = some s' → I s')
    (hB : ∀ s a s', I s → ¬ ok s a → f s a = some s' → B s')
    (hstay : ∀ s a s', B s → f s a = some s' → B s') (hgood : ∀ s, I s → G s)
    (hbad : ∀ s, B s → ¬ G s) : G s' ↔ Run f ok s as s' := by
  have hiff : G s' ↔ Run f (fun s a => True ∧ ok s a) s as s' := h.good_iff_within h0
    (fun s a s' hs _ ha hf => hI s a s' hs ha hf)
    (fun s a s' hs _ ha hf => hB s a s' hs ha hf) (fun s a s' hs _ hf => hstay s a s' hs hf) hgood
    hbad
  rw [hiff]
  exact ⟨fun h => h.mono fun _ _ ha => ha.2, fun h => h.mono fun _ _ ha => ⟨trivial, ha⟩⟩

/-- One run behind another. -/
theorem Run.append {as as' : List α} (h : Run f ok s as s') (h' : Run f ok s' as' s'') :
    Run f ok s (as ++ as') s'' := by
  induction h with
  | nil => exact h'
  | cons ha hf _ ih => exact .cons ha hf (ih h')

/-- The actions say where a run ends. -/
theorem Run.unique {as : List α} {t : σ} (h : Run f ok s as s') (h' : Run f ok' s as t) :
    s' = t := by
  induction h with
  | nil =>
    cases h'
    rfl
  | cons _ hf _ ih =>
    cases h' with
    | cons _ hf' h' =>
      rw [hf, Option.some.injEq] at hf'
      subst hf'
      exact ih h'

theorem run_of_exec [∀ s a, Decidable (ok s a)] {as : List α} (h : exec f ok s as = some s') :
    Run f ok s as s' := by
  induction as generalizing s with
  | nil =>
    rw [exec, Option.some.injEq] at h
    exact h ▸ .nil s
  | cons a as ih =>
    rw [exec, Option.ite_none_right_eq_some, Option.bind_eq_some_iff] at h
    obtain ⟨ha, t, ht, h⟩ := h
    exact .cons ha ht (ih h)

theorem exec_of_run [∀ s a, Decidable (ok s a)] {as : List α} (h : Run f ok s as s') :
    exec f ok s as = some s' := by
  induction h with
  | nil => rfl
  | cons ha hf _ ih => rw [exec, if_pos ha, hf, Option.bind_some, ih]

/-- Restrictions that agree wherever a run can come allow the same runs. -/
theorem Run.congr {I : σ → Prop} {as : List α} (h0 : I s)
    (hI : ∀ s a s', I s → f s a = some s' → I s')
    (hok : ∀ s a s', I s → f s a = some s' → (ok s a ↔ ok' s a)) :
    Run f ok s as s' ↔ Run f ok' s as s' := by
  induction as generalizing s with
  | nil =>
    constructor <;>
    · intro h
      cases h
      exact .nil _
  | cons a as ih =>
    constructor <;>
    · intro h
      cases h with
      | cons ha hf h =>
        have hiff := hok _ _ _ h0 hf
        have hrest := ih (hI _ _ _ h0 hf)
        first
          | exact .cons (hiff.mp ha) hf (hrest.mp h)
          | exact .cons (hiff.mpr ha) hf (hrest.mpr h)

/-- Where some actions leave no trace up to `R` and the others keep `R`, a run without the former
    ends in the same state, up to `R`. -/
theorem Run.purge {R : σ → σ → Prop} {keep : α → Bool} {as : List α} {t : σ}
    (hdrop : ∀ s t a s', R s t → ok s a → keep a = false → f s a = some s' → R s' t)
    (hkeep : ∀ s t a s', R s t → ok s a → keep a = true → f s a = some s' →
      ∃ t', ok' t a ∧ f t a = some t' ∧ R s' t')
    (h : Run f ok s as s') (hR : R s t) : ∃ t', Run f ok' t (as.filter keep) t' ∧ R s' t' := by
  induction h generalizing t with
  | nil s => exact ⟨t, .nil t, hR⟩
  | @cons s s1 s2 a as ha hf _ ih =>
    cases hk : keep a with
    | false =>
      obtain ⟨t', hrun, hR'⟩ := ih (hdrop s t a s1 hR ha hk hf)
      exact ⟨t', by rwa [List.filter_cons_of_neg (by simp [hk])], hR'⟩
    | true =>
      obtain ⟨t1, hok, hf', hR1⟩ := hkeep s t a s1 hR ha hk hf
      obtain ⟨t', hrun, hR'⟩ := ih hR1
      exact ⟨t', by rw [List.filter_cons_of_pos hk]; exact .cons hok hf' hrun, hR'⟩

/-! ## Progress -/

/-- A rank that rises again and again, while it is below `top`, gets there. -/
theorem exists_ge_of_rises {rank : Nat → Nat} {top : Nat}
    (h : ∀ n, rank n < top → ∃ m, rank n < rank m) : ∃ n, top ≤ rank n := by
  have hall : ∀ k, k ≤ top → ∃ n, k ≤ rank n := by
    intro k
    induction k with
    | zero => exact fun _ => ⟨0, Nat.zero_le _⟩
    | succ k ih =>
      intro hk
      obtain ⟨n, hn⟩ := ih (Nat.le_of_succ_le hk)
      by_cases hlt : rank n < top
      · obtain ⟨m, hm⟩ := h n hlt
        exact ⟨m, by omega⟩
      · exact ⟨n, by omega⟩
  exact hall top (Nat.le_refl top)

/-! ## Infinite runs -/

/-- There is an infinite run of `r` from `s`. -/
def Endless (r : σ → σ → Prop) (s : σ) : Prop :=
  ∃ run : Nat → σ, run 0 = s ∧ ∀ i, r (run i) (run (i + 1))

/-- A rank that descends with every step, within an invariant, leaves no infinite run. -/
theorem not_endless_of_descends {β : Type*} [LT β] [WellFoundedLT β] {r : σ → σ → Prop}
    {I : σ → Prop} (rank : σ → β) (h0 : I s)
    (hstep : ∀ s s', I s → r s s' → I s' ∧ rank s' < rank s) : ¬ Endless r s := by
  rintro ⟨run, rfl, hr⟩
  have hI : ∀ i, I (run i) := by
    intro i
    induction i with
    | zero => exact h0
    | succ i ih => exact (hstep _ _ ih (hr i)).1
  obtain ⟨i, hi⟩ := WellFounded.not_rel_apply_succ (r := (· < ·)) fun i => rank (run i)
  exact hi (hstep _ _ (hI i) (hr i)).2

/-- An invariant that always has a successor within itself gives an infinite run. -/
theorem endless_of_invariant {r : σ → σ → Prop} {I : σ → Prop} (h0 : I s)
    (hnext : ∀ s, I s → ∃ s', r s s' ∧ I s') : Endless r s := by
  classical
  let next : {s // I s} → {s // I s} := fun x =>
    ⟨(hnext x.1 x.2).choose, (hnext x.1 x.2).choose_spec.2⟩
  let run : Nat → {s // I s} := fun i => next^[i] ⟨s, h0⟩
  refine ⟨fun i => (run i).1, rfl, fun i => ?_⟩
  have hi : run (i + 1) = next (run i) := Function.iterate_succ_apply' next i _
  show r (run i).1 (run (i + 1)).1
  rw [hi]
  exact (hnext (run i).1 (run i).2).choose_spec.1

end Lib
