/-
  File:      Ece358/Errno.lean
  Subject:   The same two endpoints, with the errno of the thread at each of them.

  rawrecv looks at errno also where `recvfrom` has succeeded with an empty datagram, and errno then
  is what the last call that failed has left there. `Net.step` lets a receive find any value in it.
  That is good enough where a property is to hold whatever errno says, but not where a run has to
  exist: here every receive finds what is there.

  * `Threads` -- the system and the two errnos; `Act.finds`, `Act.leaves` -- what an action finds in
    errno, and leaves there;
  * `Threads.step`, `onNet` -- its steps, and a restriction of `Net` on it;
  * `threadsA_moved`, `threadsB_moved` -- what a step is; `net_of_reach` -- so every run is a run of
    `Net`;
  * `Acts.threadsA`, `Acts.threadsB` -- an action that finds what is in errno is a step.
-/
import Ece358.Net

namespace Ece358.Rcs

open Lib

/-- The system, and the errno of the thread at each side. -/
structure Threads where
  net : Net
  errnoA : Errno
  errnoB : Errno
  deriving DecidableEq

/-- A receive finds what errno holds. -/
def Act.finds (errno : Errno) : Act → Prop
  | .receive e => e = errno
  | _ => True

instance (errno : Errno) : DecidablePred (Act.finds errno)
  | .receive _ => inferInstanceAs (Decidable (_ = _))
  | .call _ => isTrue trivial
  | .timeout => isTrue trivial
  | .lose _ => isTrue trivial
  | .cut _ _ => isTrue trivial

/-- errno behind an action: a receive that times out sets it, and what succeeds leaves it. -/
def Act.leaves (errno : Errno) : Act → Errno
  | .timeout => .EAGAIN
  | _ => errno

def Threads.step (t : Threads) : Side × Act → Option Threads
  | (.A, act) =>
    if act.finds t.errnoA then
      (t.net.step (.A, act)).map fun n => ⟨n, act.leaves t.errnoA, t.errnoB⟩
    else none
  | (.B, act) =>
    if act.finds t.errnoB then
      (t.net.step (.B, act)).map fun n => ⟨n, t.errnoA, act.leaves t.errnoB⟩
    else none

/-- A restriction on what the two sides do, whatever their errnos hold. -/
def onNet (ok : Net → Side × Act → Prop) (t : Threads) (act : Side × Act) : Prop := ok t.net act

instance (ok : Net → Side × Act → Prop) [∀ n act, Decidable (ok n act)] (t : Threads)
    (act : Side × Act) : Decidable (onNet ok t act) := inferInstanceAs (Decidable (ok t.net act))

section Threads

variable {t t' : Threads} {act : Act} {ok : Net → Side × Act → Prop}

/-- A step of side A is one of `Net` that finds what is in A's errno. -/
theorem threadsA_moved (h : t.step (.A, act) = some t') : act.finds t.errnoA ∧
    t.net.step (.A, act) = some t'.net ∧ t'.errnoA = act.leaves t.errnoA ∧
      t'.errnoB = t.errnoB := by
  unfold Threads.step at h
  rw [Option.ite_none_right_eq_some, Option.map_eq_some_iff] at h
  obtain ⟨hf, n, hn, rfl⟩ := h
  exact ⟨hf, hn, rfl, rfl⟩

theorem threadsB_moved (h : t.step (.B, act) = some t') : act.finds t.errnoB ∧
    t.net.step (.B, act) = some t'.net ∧ t'.errnoA = t.errnoA ∧
      t'.errnoB = act.leaves t.errnoB := by
  unfold Threads.step at h
  rw [Option.ite_none_right_eq_some, Option.map_eq_some_iff] at h
  obtain ⟨hf, n, hn, rfl⟩ := h
  exact ⟨hf, hn, rfl, rfl⟩

theorem threads_net {act : Side × Act} (h : t.step act = some t') :
    t.net.step act = some t'.net := by
  obtain ⟨side, act⟩ := act
  cases side with
  | A => exact (threadsA_moved h).2.1
  | B => exact (threadsB_moved h).2.1

/-- A run of the threads is a run of `Net`. -/
theorem net_of_reach (h : Reach Threads.step (onNet ok) t t') : Reach Net.step ok t.net t'.net :=
  h.lift Threads.net fun _ _ ⟨act, hok, hstep⟩ => ⟨act, hok, threads_net hstep⟩

/-- An action of A that finds what is in errno is a step. -/
theorem Acts.threadsA {a' : Endpoint} {ab' ba' : List (List UInt8)}
    (h : Acts t.net.a t.net.ab t.net.ba act a' ab' ba') (hf : act.finds t.errnoA) :
    t.step (.A, act) =
      some ⟨⟨a', t.net.b, ab', ba'⟩, act.leaves t.errnoA, t.errnoB⟩ := by
  show (if act.finds t.errnoA then _ else none) = _
  rw [if_pos hf, h.stepA]
  rfl

theorem Acts.threadsB {b' : Endpoint} {ab' ba' : List (List UInt8)}
    (h : Acts t.net.b t.net.ba t.net.ab act b' ba' ab') (hf : act.finds t.errnoB) :
    t.step (.B, act) =
      some ⟨⟨t.net.a, b', ab', ba'⟩, t.errnoA, act.leaves t.errnoB⟩ := by
  show (if act.finds t.errnoB then _ else none) = _
  rw [if_pos hf, h.stepB]
  rfl

end Threads

/-- The pair on which the concrete runs start, with errnos that no call has set yet. -/
def Threads.pair : Threads := ⟨.pair, .other 0, .other 0⟩

end Ece358.Rcs
