/-
  File:      Ece358/Lib/Ownership.lean
  Subject:   Resources that owners open, use and close.

  A log says, step by step, which owner opened, used or closed which resource. At each moment a
  resource has at most one holder: who opened it last, unless somebody has closed it since. General
  facts, over any owners and resources:

  * `Op`, `hold`, `holders` -- the steps, and the holders behind them;
  * `Proper` -- a step is in order: only the holder closes, and nobody uses what another holds;
  * `Orderly` -- every step of a log is in order;
  * `orderly_append`, `orderly_uses` -- logs behind one another, and logs of uses;
  * `Separate` -- no resource is closed twice for one opening, and no owner touches what another
    holds; an orderly log is separate, and one that goes on with a late closing is not.
-/
import Mathlib.Data.List.Induction
import Mathlib.Logic.Function.Basic

namespace Lib

/-- A step of owner `i` on resource `r`. -/
inductive Op (ι ρ : Type*) where
  | opened (i : ι) (r : ρ)
  | used (i : ι) (r : ρ)
  | closed (i : ι) (r : ρ)
  deriving DecidableEq

variable {ι ρ : Type*} [DecidableEq ρ] {h h' : ρ → Option ι} {i j : ι} {r : ρ}

/-- The holders behind one step. -/
def hold (h : ρ → Option ι) : Op ι ρ → ρ → Option ι
  | .opened i r => Function.update h r (some i)
  | .used _ _ => h
  | .closed _ r => Function.update h r none

/-- The holders behind a log. -/
def holders (h : ρ → Option ι) (ops : List (Op ι ρ)) : ρ → Option ι := ops.foldl hold h

/-- A step in order: what is used is held by the user or by nobody, what is closed is held by who
    closes it. -/
def Proper (h : ρ → Option ι) : Op ι ρ → Prop
  | .opened _ _ => True
  | .used i r => ∀ j, h r = some j → j = i
  | .closed i r => h r = some i

/-- Every step of the log is in order. -/
def Orderly (h : ρ → Option ι) : List (Op ι ρ) → Prop
  | [] => True
  | o :: os => Proper h o ∧ Orderly (hold h o) os

@[simp] theorem holders_nil : holders h [] = h := rfl

@[simp] theorem holders_cons (o : Op ι ρ) (os : List (Op ι ρ)) :
    holders h (o :: os) = holders (hold h o) os := rfl

@[simp] theorem holders_append (os os' : List (Op ι ρ)) :
    holders h (os ++ os') = holders (holders h os) os' := List.foldl_append

@[simp] theorem orderly_nil : Orderly h ([] : List (Op ι ρ)) := trivial

theorem orderly_append {os os' : List (Op ι ρ)} :
    Orderly h (os ++ os') ↔ Orderly h os ∧ Orderly (holders h os) os' := by
  induction os generalizing h with
  | nil => exact (and_iff_right trivial).symm
  | cons o os ih =>
    show Proper h o ∧ Orderly (hold h o) (os ++ os') ↔
      (Proper h o ∧ Orderly (hold h o) os) ∧ Orderly (holders (hold h o) os) os'
    rw [ih, and_assoc]

/-- Uses change no holder. -/
theorem holders_uses {os : List (Op ι ρ)} (hos : ∀ o ∈ os, o = .used i r) : holders h os = h := by
  induction os with
  | nil => rfl
  | cons o os ih =>
    obtain rfl := hos o List.mem_cons_self
    exact ih fun o ho => hos o (List.mem_cons_of_mem _ ho)

/-- Uses by one owner, of one resource that nobody else holds, are in order. -/
theorem orderly_uses {os : List (Op ι ρ)} (hos : ∀ o ∈ os, o = .used i r)
    (hr : ∀ j, h r = some j → j = i) : Orderly h os := by
  induction os with
  | nil => trivial
  | cons o os ih =>
    obtain rfl := hos o List.mem_cons_self
    exact ⟨hr, ih fun o ho => hos o (List.mem_cons_of_mem _ ho)⟩

/-- Uses by the holder, who closes then. -/
theorem orderly_close {os : List (Op ι ρ)} (hos : ∀ o ∈ os, o = .used i r) (hr : h r = some i) :
    Orderly h (os ++ [.closed i r]) ∧
      holders h (os ++ [.closed i r]) = Function.update h r none := by
  constructor
  · rw [orderly_append, holders_uses hos]
    exact ⟨orderly_uses hos fun j hj => Option.some.inj (hj.symm.trans hr), hr, trivial⟩
  · rw [holders_append, holders_uses hos]
    rfl

/-- What nobody opens stays without a holder, once it has none. -/
theorem holders_none {os : List (Op ι ρ)} (hos : ∀ i, .opened i r ∉ os) (hr : h r = none) :
    holders h os r = none := by
  induction os generalizing h with
  | nil => exact hr
  | cons o os ih =>
    refine ih (fun i hi => hos i (List.mem_cons_of_mem _ hi)) ?_
    cases o with
    | opened i r' =>
      have hne : r ≠ r' := fun he => hos i (he ▸ List.mem_cons_self)
      exact (Function.update_of_ne hne _ _).trans hr
    | used i r' => exact hr
    | closed i r' =>
      by_cases he : r = r'
      · exact he ▸ Function.update_self _ _ _
      · exact (Function.update_of_ne he _ _).trans hr

/-- The owner `i` uses or closes `r`. -/
def Op.Touches (i : ι) (r : ρ) (o : Op ι ρ) : Prop := o = .used i r ∨ o = .closed i r

/-- In a log that starts without holders, no resource is closed twice for one opening, and no owner
    touches what another one holds at that moment. -/
structure Separate (ops : List (Op ι ρ)) : Prop where
  once : ∀ pre mid post i j r, ops = pre ++ .closed i r :: (mid ++ .closed j r :: post) →
    ∃ k, .opened k r ∈ mid
  exclusive : ∀ pre o post i r, ops = pre ++ o :: post → o.Touches i r →
    ∀ j, holders (fun _ => none) pre r = some j → j = i

/-- Between two closings of one resource, it was opened. -/
theorem Orderly.closed_once {pre mid post : List (Op ι ρ)}
    (ho : Orderly h (pre ++ .closed i r :: (mid ++ .closed j r :: post))) :
    ∃ k, .opened k r ∈ mid := by
  by_contra hno
  rw [not_exists] at hno
  obtain ⟨_, _, ho⟩ := orderly_append.mp ho
  obtain ⟨_, hj, _⟩ := orderly_append.mp ho
  have hn := holders_none hno (show hold (holders h pre) (.closed i r) r = none from
    Function.update_self _ _ _)
  rw [Proper, hn] at hj
  cases hj

theorem Orderly.separate {ops : List (Op ι ρ)} (ho : Orderly (fun _ => none) ops) :
    Separate ops where
  once pre mid post i j r he := (he ▸ ho).closed_once
  exclusive pre o post i r he ht j hj := by
    obtain ⟨_, hp, _⟩ := orderly_append.mp (he ▸ ho)
    rcases ht with rfl | rfl
    · exact hp j hj
    · exact Option.some.inj (hj.symm.trans hp)

theorem Separate.of_append {os os' : List (Op ι ρ)} (hs : Separate (os ++ os')) : Separate os where
  once pre mid post i j r he := hs.once pre mid (post ++ os') i j r (by simp [he])
  exclusive pre o post i r he := hs.exclusive pre o (post ++ os') i r (by simp [he])

/-- A resource that was closed and has no holder was not opened since its last closing. -/
theorem exists_last_closed {ops : List (Op ι ρ)} (hc : .closed i r ∈ ops)
    (hr : holders h ops r = none) :
    ∃ pre k mid, ops = pre ++ .closed k r :: mid ∧ ∀ k', .opened k' r ∉ mid := by
  induction ops using List.reverseRecOn with
  | nil => cases hc
  | append_singleton ops o ih =>
    rw [holders_append, holders_cons, holders_nil] at hr
    by_cases ho : ∃ k, o = .closed k r
    · obtain ⟨k, rfl⟩ := ho
      exact ⟨ops, k, [], rfl, fun _ => List.not_mem_nil⟩
    · -- the last step is another one, and no opening either
      have hno : ∀ k, o ≠ .opened k r := by
        rintro k rfl
        rw [hold, Function.update_self] at hr
        cases hr
      have hr' : holders h ops r = none := by
        cases o with
        | opened k r' =>
          have hne : r ≠ r' := fun he => hno k (he ▸ rfl)
          rwa [hold, Function.update_of_ne hne] at hr
        | used k r' => exact hr
        | closed k r' =>
          have hne : r ≠ r' := fun he => ho ⟨k, he ▸ rfl⟩
          rwa [hold, Function.update_of_ne hne] at hr
      have hc' : .closed i r ∈ ops := (List.mem_append.mp hc).resolve_right fun hl =>
        ho ⟨i, (List.mem_singleton.mp hl).symm⟩
      obtain ⟨pre, k, mid, rfl, hmid⟩ := ih hc' hr'
      refine ⟨pre, k, mid ++ [o], by simp, fun k' hk' => ?_⟩
      rcases List.mem_append.mp hk' with hk' | hk'
      · exact hmid k' hk'
      · exact hno k' (List.mem_singleton.mp hk').symm

/-- An owner closes a resource that was closed before and that it does not hold. -/
theorem not_separate_of_late {ops : List (Op ι ρ)} (hc : .closed i r ∈ ops)
    (hj : holders (fun _ => none) ops r ≠ some j) : ¬ Separate (ops ++ [.closed j r]) := by
  intro hs
  cases hr : holders (fun _ => none) ops r with
  | some k =>
    -- somebody else holds it by now
    have hk := hs.exclusive ops _ [] j r rfl (Or.inr rfl) k hr
    exact hj (hk ▸ hr)
  | none =>
    obtain ⟨pre, k, mid, rfl, hmid⟩ := exists_last_closed hc hr
    obtain ⟨k', hk'⟩ := hs.once pre mid [] k j r (by simp)
    exact hmid k' hk'

end Lib
