/-
  File:      Ece358/Lib/Handles.lean
  Subject:   Handles into a container: iterators, references, pointers.

  Code obtains handles, uses them and changes the container. Which handles a change leaves valid
  depends on the container; here it leaves none, so that code which is safe is safe for every one
  of them.

  * `HandleOp`, `SafeUse` -- what the code does, and that no handle is used behind a change, unless
    it was obtained again;
  * `validBehind`, `Sound` -- the same, step by step, over the handles that are valid;
  * `sound_append` -- code behind other code; `Sound.safeUse` -- sound code is safe.
-/
import Mathlib.Data.Set.Insert

namespace Lib

/-- What code does with its handles. -/
inductive HandleOp (η : Type*) where
  | obtained (h : η)
  | used (h : η)
  | changed
  deriving DecidableEq

variable {η : Type*} {valid valid' : Set η}

/-- Whenever a handle is used, it was obtained before, and the container was not changed since. -/
def SafeUse (ops : List (HandleOp η)) : Prop :=
  ∀ pre h post, ops = pre ++ .used h :: post →
    ∃ before since, pre = before ++ .obtained h :: since ∧ .changed ∉ since

/-- The handles that are valid behind an operation. -/
def validBehind (valid : Set η) : HandleOp η → Set η
  | .obtained h => insert h valid
  | .used _ => valid
  | .changed => ∅

/-- Behind some of them. -/
def validAfter (valid : Set η) (ops : List (HandleOp η)) : Set η := ops.foldl validBehind valid

/-- Only valid handles are used. -/
def Sound (valid : Set η) : List (HandleOp η) → Prop
  | [] => True
  | op :: ops => (∀ h, op = .used h → h ∈ valid) ∧ Sound (validBehind valid op) ops

theorem sound_append {ops ops' : List (HandleOp η)} :
    Sound valid (ops ++ ops') ↔ Sound valid ops ∧ Sound (validAfter valid ops) ops' := by
  induction ops generalizing valid with
  | nil => exact (and_iff_right trivial).symm
  | cons op ops ih =>
    rw [List.cons_append, Sound, Sound, ih, and_assoc, validAfter, validAfter, List.foldl_cons]

theorem sound_obtained {h : η} {ops : List (HandleOp η)} :
    Sound valid (.obtained h :: ops) ↔ Sound (insert h valid) ops :=
  and_iff_right nofun

theorem sound_used {h : η} {ops : List (HandleOp η)} :
    Sound valid (.used h :: ops) ↔ h ∈ valid ∧ Sound valid ops :=
  and_congr_left fun _ => ⟨fun hu => hu h rfl, fun hv _ e => HandleOp.used.inj e ▸ hv⟩

theorem sound_changed {ops : List (HandleOp η)} :
    Sound valid (.changed :: ops) ↔ Sound ∅ ops :=
  and_iff_right nofun

/-- More valid handles do no harm. -/
theorem Sound.mono {ops : List (HandleOp η)} (hs : Sound valid ops) (hle : valid ⊆ valid') :
    Sound valid' ops := by
  induction ops generalizing valid valid' with
  | nil => trivial
  | cons op ops ih =>
    refine ⟨fun h hu => hle (hs.1 h hu), ih hs.2 ?_⟩
    cases op with
    | obtained h => exact Set.insert_subset_insert hle
    | used h => exact hle
    | changed => exact Set.Subset.rfl

/-- A handle that is used was valid at the start, or obtained since, and the container was not
    changed since then. -/
theorem Sound.used {ops pre post : List (HandleOp η)} {h : η} (hs : Sound valid ops)
    (hops : ops = pre ++ .used h :: post) :
    (h ∈ valid ∧ .changed ∉ pre) ∨
      ∃ before since, pre = before ++ .obtained h :: since ∧ .changed ∉ since := by
  induction pre generalizing valid ops with
  | nil =>
    rw [hops] at hs
    exact Or.inl ⟨hs.1 h rfl, List.not_mem_nil⟩
  | cons op pre ih =>
    rw [hops] at hs
    rcases ih hs.2 rfl with ⟨hvalid, hpre⟩ | ⟨before, since, rfl, hsince⟩
    · cases op with
      | obtained h' =>
        rcases hvalid with rfl | hvalid
        · exact Or.inr ⟨[], pre, rfl, hpre⟩
        · refine Or.inl ⟨hvalid, fun hc => ?_⟩
          exact hpre ((List.mem_cons.mp hc).resolve_left nofun)
      | used h' =>
        refine Or.inl ⟨hvalid, fun hc => ?_⟩
        exact hpre ((List.mem_cons.mp hc).resolve_left nofun)
      | changed => exact absurd hvalid (Set.notMem_empty h)
    · exact Or.inr ⟨op :: before, since, rfl, hsince⟩

/-- Code that starts without a handle. -/
theorem Sound.safeUse {ops : List (HandleOp η)} (hs : Sound ∅ ops) : SafeUse ops :=
  fun _ h _ hops => (hs.used hops).resolve_left fun hv => Set.notMem_empty h hv.1

end Lib
