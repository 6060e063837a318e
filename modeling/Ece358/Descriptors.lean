/-
  File:      Ece358/Descriptors.lean
  Subject:   Sockets and each other's descriptors.

  As long as nobody closes a socket that a FIN has closed before, every open socket holds its
  descriptor, and a closing one has none that it would use. A late close goes to whatever the
  number stands for by then.

  * `key` -- what the invariant needs of a socket;
  * `Owned`, `Sound` -- the invariant, without and with the log; `keep` and `release` are the two
    ways to go on in it;
  * `ClosesOpen` -- the restriction on `rcsClose`;
  * `step_sound`, `step_late` -- a step keeps the invariant, or spoils the log for good;
  * `separate_iff` -- the sockets of a run are separate if and only if all its closes are of this
    kind;
  * `second_closed` -- a run where a socket closes the descriptor of another one.
-/
import Ece358.Process

namespace Ece358.Rcs

open Lib MsgT

/-! ## 1. The invariant -/

/-- The descriptor of a socket, and whether the socket is closing. -/
def keyOf (s : RcsT) : Nat × Bool := (s.ucpSocket_, s.isClosing_)

def Proc.key (p : Proc) (id : Nat) : Option (Nat × Bool) := (p.getSocket id).map keyOf

/-- The open sockets hold their descriptors, and nobody else holds one; the call in progress is on
    an open descriptor, or on one that was closed during the call. -/
structure Owned (p : Proc) : Prop where
  holds : ∀ id fd, p.key id = some (fd, false) → p.held fd = some id
  holder : ∀ id fd, p.held fd = some id → fd ∈ p.openFds ∧ p.key id = some (fd, false)
  fresh : ∀ id, p.sNextId ≤ id → p.key id = none
  busy : ∀ id stage pc, p.busy = some (id, stage, pc) → pc.idle = false ∧
    ∀ fd, p.key id = some (fd, true) → fd ∉ p.openFds

/-- And what has happened to descriptors was in order. -/
structure Sound (p : Proc) : Prop extends Owned p where
  orderly : Lib.Orderly (fun _ => none) p.log
  gone : ∀ id fd, p.key id = some (fd, true) → .closed id fd ∈ p.log

section Key

variable {p : Proc} {id : Nat} {s : RcsT}

theorem key_of_get (h : p.getSocket id = some s) :
    p.key id = some (s.ucpSocket_, s.isClosing_) := by
  rw [Proc.key, h]
  rfl

/-- One entry of the table is another one. -/
theorem key_update {p' : Proc} {o : Option RcsT}
    (h : p'.sSocketIdentifiers = Function.update p.sSocketIdentifiers id o) :
    p'.key = Function.update p.key id (o.map keyOf) := by
  funext id'
  show (p'.sSocketIdentifiers id').map keyOf = _
  rw [h]
  exact Function.apply_update (fun _ => Option.map keyOf) _ _ _ _

/-- Setting the endpoint of a child changes nothing that does not ask for endpoints. -/
theorem setChild_map {α : Type} {g : RcsT → α} (hg : ∀ s addr, g (s.setEndpoint addr) = g s)
    (table : Nat → Option RcsT) (ev : ApiEvent) (id : Nat) :
    (setChild table ev id).map g = (table id).map g := by
  cases ev with
  | io ev => rfl
  | childEndpoint child addr =>
    by_cases he : id = child
    · subst he
      rw [setChild, Function.update_self, Option.map_map]
      exact Option.map_congr fun s _ => hg s addr
    · rw [setChild, Function.update_of_ne he]

theorem foldl_setChild_map {α : Type} {g : RcsT → α}
    (hg : ∀ s addr, g (s.setEndpoint addr) = g s) (out : List ApiEvent)
    (table : Nat → Option RcsT) (id : Nat) :
    (out.foldl setChild table id).map g = (table id).map g := by
  induction out generalizing table with
  | nil => rfl
  | cons ev out ih => exact (ih (setChild table ev)).trans (setChild_map hg table ev id)

theorem absorb_key (p : Proc) (id : Nat) (r : ApiRes) :
    (p.absorb id r).key =
      Function.update p.key id (some (r.sock.ucpSocket_, r.sock.isClosing_)) := by
  funext id'
  refine (foldl_setChild_map (g := keyOf) (fun _ _ => rfl) r.out _ id').trans ?_
  by_cases he : id' = id
  · subst he
    rw [Function.update_self, Function.update_self]
    rfl
  · rw [Function.update_of_ne he, Function.update_of_ne he]
    rfl

end Key

/-! ### What a stretch logs -/

section Log

variable {s s' : RcsT} {out : List ApiEvent} {id : Nat}

/-- A stretch that stays on its descriptor uses it, if anything. -/
theorem Keeps.ops (h : Keeps s out s') (id : Nat) :
    ∀ o ∈ out.filterMap (opOf id), o = .used id s.ucpSocket_ := by
  intro o ho
  obtain ⟨ev, hev, hop⟩ := List.mem_filterMap.mp ho
  have hstays := h.events ev hev
  cases ev with
  | childEndpoint child addr => cases hop
  | io ev =>
    cases ev with
    | sendto fd msg dest =>
      cases hop
      exact congrArg (Op.used id) hstays
    | closed fd => exact hstays.elim
    | _ => cases hop

theorem Keeps.closedFds (h : Keeps s out s') : closedFds out = [] := by
  unfold Rcs.closedFds
  rw [List.filterMap_eq_nil_iff]
  intro ev hev
  have hstays := h.events ev hev
  cases ev with
  | childEndpoint child addr => rfl
  | io ev =>
    cases ev with
    | closed fd => exact hstays.elim
    | _ => rfl

theorem close_ops (s : RcsT) (id : Nat) :
    (s.close.2.map ApiEvent.io).filterMap (opOf id) =
      List.replicate 2048 (.used id s.ucpSocket_) ++ [.closed id s.ucpSocket_] := by
  show ((List.replicate 2048 (s.rawsend (control 666 FIN)) ++ [Event.closed s.ucpSocket_]).map
    ApiEvent.io).filterMap (opOf id) = _
  rw [List.map_append, List.filterMap_append, List.map_replicate, List.filterMap_replicate]
  rfl

theorem close_closedFds (s : RcsT) : closedFds (s.close.2.map ApiEvent.io) = [s.ucpSocket_] := by
  show ((List.replicate 2048 (s.rawsend (control 666 FIN)) ++ [Event.closed s.ucpSocket_]).map
    ApiEvent.io).filterMap _ = _
  rw [List.map_append, List.filterMap_append, List.map_replicate, List.filterMap_replicate]
  rfl

theorem close_timers (s : RcsT) (timers : Nat → Nat) :
    (s.close.2.map ApiEvent.io).foldl setTimer timers = timers := by
  have hsends : ∀ n, ((List.replicate n (s.rawsend (control 666 FIN))).map ApiEvent.io).foldl
      setTimer timers = timers := by
    intro n
    induction n with
    | zero => rfl
    | succ n ih => exact ih
  show ((List.replicate 2048 (s.rawsend (control 666 FIN)) ++ [Event.closed s.ucpSocket_]).map
    ApiEvent.io).foldl _ _ = _
  rw [List.map_append, List.foldl_append, hsends]
  rfl

theorem closedFds_append (out out' : List ApiEvent) :
    closedFds (out ++ out') = closedFds out ++ closedFds out' := List.filterMap_append

end Log

/-! ## 2. The two ways to go on -/

section Steps

variable {p p' : Proc} {id fd : Nat} {s : RcsT} {r : ApiRes}

theorem absorb_returned {ret : ApiRet} (h : r.pc = .returned ret) :
    (p.absorb id r).busy = none := by
  obtain ⟨s, out, rpc⟩ := r
  cases rpc with
  | returned ret => rfl
  | blocked stage pc => cases h

theorem absorb_busy {id' : Nat} {stage : Stage} {pc : Pc}
    (h : (p.absorb id r).busy = some (id', stage, pc)) : id' = id ∧ r.pc = .blocked stage pc := by
  obtain ⟨s, out, rpc⟩ := r
  cases rpc with
  | returned ret => cases h
  | blocked stage' pc' =>
    cases h
    exact ⟨rfl, rfl⟩

theorem Owned.not_open (hs : Owned p) (h : fd ∉ p.openFds) : p.held fd = none := by
  cases hh : p.held fd with
  | none => rfl
  | some id => exact absurd (hs.holder id fd hh).1 h

theorem owned_init (fds : List Nat) : Owned (Proc.init fds) where
  holds _ _ h := by cases h
  holder _ _ h := by cases h
  fresh _ _ := rfl
  busy _ _ _ h := by cases h

theorem sound_init (fds : List Nat) : Sound (Proc.init fds) where
  toOwned := owned_init fds
  orderly := trivial
  gone _ _ h := by cases h

theorem keep_key (hget : p.getSocket id = some s) (hk : Keeps s r.out r.sock) :
    (p.absorb id r).key = p.key := by
  rw [absorb_key, hk.fd, hk.closing, ← key_of_get hget]
  exact Function.update_eq_self id p.key

/-- The first way: the socket uses its descriptor, or does nothing on it. -/
theorem Owned.keep (hs : Owned p) (hget : p.getSocket id = some s) (hk : Keeps s r.out r.sock)
    (hb : ∀ stage pc, r.pc = .blocked stage pc → pc.idle = false ∧
      (s.isClosing_ = true → s.ucpSocket_ ∉ p.openFds)) : Owned (p.absorb id r) := by
  have hkey := keep_key hget hk
  have hopen : (p.absorb id r).openFds = p.openFds := by
    show p.openFds.filter (fun fd => fd ∉ closedFds r.out) = _
    rw [hk.closedFds]
    simp
  have hheld : (p.absorb id r).held = p.held :=
    (holders_append _ _).trans (holders_uses (hk.ops id))
  exact {
    holds := by rw [hkey, hheld]; exact hs.holds
    holder := by rw [hkey, hheld, hopen]; exact hs.holder
    fresh := by rw [hkey]; exact hs.fresh
    busy := by
      intro id' stage pc h
      obtain ⟨rfl, hpc⟩ := absorb_busy h
      obtain ⟨hidle, hgone⟩ := hb stage pc hpc
      rw [hkey, hopen, key_of_get hget]
      refine ⟨hidle, fun fd hfd => ?_⟩
      obtain ⟨rfl, hc⟩ := Prod.mk.inj (Option.some.inj hfd)
      exact hgone hc }

theorem Sound.keep (hs : Sound p) (hget : p.getSocket id = some s) (hk : Keeps s r.out r.sock)
    (hu : r.out.filterMap (opOf id) = [] ∨ ∀ j, p.held s.ucpSocket_ = some j → j = id)
    (hb : ∀ stage pc, r.pc = .blocked stage pc → pc.idle = false ∧
      (s.isClosing_ = true → s.ucpSocket_ ∉ p.openFds)) : Sound (p.absorb id r) := by
  have hops : Lib.Orderly p.held (r.out.filterMap (opOf id)) := by
    rcases hu with h | h
    · rw [h]
      trivial
    · exact orderly_uses (hk.ops id) h
  exact {
    toOwned := hs.toOwned.keep hget hk hb
    orderly := orderly_append.mpr ⟨hs.orderly, hops⟩
    gone := by
      rw [keep_key hget hk]
      exact fun id fd h => List.mem_append_left _ (hs.gone id fd h) }

/-- The second way: a socket closes its descriptor, which nobody else holds, and is closing or
    gone. -/
theorem Owned.release (hs : Owned p) {c : Bool} (hid : p.key id = some (fd, c))
    (hmine : ∀ j, p.held fd = some j → j = id)
    {k : Option (Nat × Bool)} (hk : k = none ∨ k = some (fd, true))
    (hkey : p'.key = Function.update p.key id k)
    (hheld : p'.held = Function.update p.held fd none)
    (hopen : p'.openFds = p.openFds.filter fun fd' => fd' ≠ fd)
    (hnext : p'.sNextId = p.sNextId)
    (hb : ∀ id' stage pc, p'.busy = some (id', stage, pc) → id' = id ∧ pc.idle = false) :
    Owned p' := by
  have hother : ∀ {id' fd'}, p'.key id' = some (fd', false) → id' ≠ id ∧
      p.key id' = some (fd', false) := by
    intro id' fd' h
    rw [hkey] at h
    by_cases he : id' = id
    · rw [he, Function.update_self] at h
      rcases hk with rfl | rfl <;> cases h
    · rw [Function.update_of_ne he] at h
      exact ⟨he, h⟩
  have hopen' : ∀ fd', fd' ∈ p'.openFds ↔ fd' ∈ p.openFds ∧ fd' ≠ fd := by
    intro fd'
    rw [hopen, List.mem_filter, decide_eq_true_iff]
  exact {
    holds := by
      intro id' fd' h
      obtain ⟨hne, h⟩ := hother h
      have hfd : fd' ≠ fd := by
        rintro rfl
        exact hne (hmine id' (hs.holds id' fd' h))
      rw [hheld, Function.update_of_ne hfd]
      exact hs.holds id' fd' h
    holder := by
      intro id' fd' h
      by_cases hfd : fd' = fd
      · rw [hheld, hfd, Function.update_self] at h
        cases h
      · rw [hheld, Function.update_of_ne hfd] at h
        obtain ⟨hin, hk'⟩ := hs.holder id' fd' h
        have hne : id' ≠ id := by
          rintro rfl
          rw [hid] at hk'
          cases hk'
          exact hfd rfl
        exact ⟨(hopen' fd').mpr ⟨hin, hfd⟩, by rw [hkey, Function.update_of_ne hne, hk']⟩
    fresh := by
      intro id' h
      have hne : id' ≠ id := by
        rintro rfl
        rw [hs.fresh id' (hnext ▸ h)] at hid
        cases hid
      rw [hkey, Function.update_of_ne hne]
      exact hs.fresh id' (hnext ▸ h)
    busy := by
      intro id' stage pc h
      obtain ⟨rfl, hidle⟩ := hb id' stage pc h
      refine ⟨hidle, fun fd' h => ?_⟩
      rw [hkey, Function.update_self] at h
      rcases hk with rfl | rfl
      · cases h
      · cases h
        exact fun hin => ((hopen' fd).mp hin).2 rfl }

/-- The holders behind uses and the closing. -/
theorem held_release {os os' : List (Op Nat Nat)}
    (hos : ∀ o ∈ os, o = .used id fd) (hos' : ∀ o ∈ os', o = .used id fd)
    (hlog : p'.log = p.log ++ (os ++ [.closed id fd] ++ os')) :
    p'.held = Function.update p.held fd none := by
  show holders _ p'.log = _
  rw [hlog, holders_append, holders_append, holders_append, holders_uses hos, holders_uses hos']
  rfl

theorem Sound.release (hs : Sound p) (hid : p.key id = some (fd, false))
    {k : Option (Nat × Bool)} (hk : k = none ∨ k = some (fd, true))
    (hkey : p'.key = Function.update p.key id k) {os os' : List (Op Nat Nat)}
    (hos : ∀ o ∈ os, o = .used id fd) (hos' : ∀ o ∈ os', o = .used id fd)
    (hlog : p'.log = p.log ++ (os ++ [.closed id fd] ++ os'))
    (hopen : p'.openFds = p.openFds.filter fun fd' => fd' ≠ fd)
    (hnext : p'.sNextId = p.sNextId)
    (hb : ∀ id' stage pc, p'.busy = some (id', stage, pc) → id' = id ∧ pc.idle = false) :
    Sound p' := by
  have hheld := hs.holds id fd hid
  obtain ⟨hord, hclosed⟩ := orderly_close hos hheld
  have hord' : Lib.Orderly (Function.update p.held fd none) os' := orderly_uses hos' fun j hj => by
    rw [Function.update_self] at hj
    cases hj
  exact {
    toOwned := hs.toOwned.release hid (fun j hj => Option.some.inj (hj.symm.trans hheld)) hk hkey
      (held_release hos hos' hlog) hopen hnext hb
    orderly := by
      rw [hlog]
      exact orderly_append.mpr ⟨hs.orderly, orderly_append.mpr ⟨hord, hclosed ▸ hord'⟩⟩
    gone := by
      intro id' fd' h
      rw [hlog]
      rw [hkey] at h
      by_cases he : id' = id
      · rw [he, Function.update_self] at h
        rcases hk with rfl | rfl
        · cases h
        · cases h
          rw [he]
          simp
      · rw [Function.update_of_ne he] at h
        exact List.mem_append_left _ (hs.gone id' fd' h) }

/-! ### The actions -/

/-- What changes no socket and no log, and closes nothing that a socket holds. -/
theorem Owned.other (hs : Owned p) (hkey : p'.key = p.key) (hlog : p'.log = p.log)
    (hnext : p'.sNextId = p.sNextId) (hb : p'.busy = none)
    (hopen : ∀ fd, fd ∈ p.openFds → p.held fd ≠ none → fd ∈ p'.openFds) : Owned p' := by
  have hheld : p'.held = p.held := congrArg (holders fun _ => none) hlog
  exact {
    holds := by rw [hkey, hheld]; exact hs.holds
    holder := by
      rw [hkey, hheld]
      intro id fd h
      obtain ⟨hin, hk⟩ := hs.holder id fd h
      exact ⟨hopen fd hin (by rw [h]; exact Option.some_ne_none id), hk⟩
    fresh := by rw [hkey, hnext]; exact hs.fresh
    busy := fun id stage pc h => by rw [hb] at h; cases h }

theorem makeSocket_key (p : Proc) : p.makeSocket.key =
    Function.update p.key p.sNextId (some (lowestFree p.openFds, false)) :=
  key_update (o := some (RcsT.new _ ⟨0, 0⟩)) rfl

/-- A new socket holds a descriptor that was free. -/
theorem Owned.makeSocket (hs : Owned p) (hb : p.busy = none) : Owned p.makeSocket := by
  have hfree := lowestFree_not_mem p.openFds
  have hheld : p.makeSocket.held =
      Function.update p.held (lowestFree p.openFds) (some p.sNextId) := holders_append _ _
  have hnew : ∀ id, p.key id ≠ none → id ≠ p.sNextId := by
    rintro id hk rfl
    exact hk (hs.fresh _ le_rfl)
  refine ⟨?_, ?_, ?_, ?_⟩
  · intro id fd h
    rw [makeSocket_key] at h
    rw [hheld]
    by_cases he : id = p.sNextId
    · rw [he, Function.update_self] at h
      cases h
      rw [he, Function.update_self]
    · rw [Function.update_of_ne he] at h
      have hh := hs.holds id fd h
      have hfd : fd ≠ lowestFree p.openFds := fun e => hfree (e ▸ (hs.holder id fd hh).1)
      rw [Function.update_of_ne hfd, hh]
  · intro id fd h
    rw [hheld] at h
    rw [makeSocket_key]
    by_cases hfd : fd = lowestFree p.openFds
    · rw [hfd, Function.update_self] at h
      cases h
      rw [Function.update_self, hfd]
      exact ⟨List.mem_cons_self, rfl⟩
    · rw [Function.update_of_ne hfd] at h
      obtain ⟨hin, hk⟩ := hs.holder id fd h
      rw [Function.update_of_ne (hnew id (by rw [hk]; exact Option.some_ne_none _))]
      exact ⟨List.mem_cons_of_mem _ hin, hk⟩
  · intro id h
    have hlt : p.sNextId < id := h
    rw [makeSocket_key, Function.update_of_ne (by omega)]
    exact hs.fresh id hlt.le
  · intro id stage pc h
    have hb' : p.makeSocket.busy = none := hb
    rw [hb'] at h
    cases h

theorem Sound.makeSocket (hs : Sound p) (hb : p.busy = none) : Sound p.makeSocket where
  toOwned := hs.toOwned.makeSocket hb
  orderly := orderly_append.mpr ⟨hs.orderly, trivial, trivial⟩
  gone id fd h := by
    rw [makeSocket_key] at h
    by_cases he : id = p.sNextId
    · rw [he, Function.update_self] at h
      cases h
    · rw [Function.update_of_ne he] at h
      exact List.mem_append_left _ (hs.gone id fd h)

/-- The start of a call on a closing socket returns at once, and one on an open socket uses the
    descriptor that the socket holds. -/
theorem start_cases (hs : Owned p) (hget : p.getSocket id = some s) (c : ApiCall) :
    ((apiStart s c).out.filterMap (opOf id) = [] ∨ ∀ j, p.held s.ucpSocket_ = some j → j = id) ∧
    ∀ stage pc, (apiStart s c).pc = .blocked stage pc → pc.idle = false ∧
      (s.isClosing_ = true → s.ucpSocket_ ∉ p.openFds) := by
  cases hc : s.isClosing_ with
  | true =>
    obtain ⟨⟨ret, hret⟩, hops⟩ := apiStart_closing hc c id
    refine ⟨Or.inl hops, fun stage pc hpc => ?_⟩
    rw [hret] at hpc
    cases hpc
  | false =>
    have hh := hs.holds id s.ucpSocket_ (by rw [key_of_get hget, hc])
    exact ⟨Or.inr fun j hj => Option.some.inj (hj.symm.trans hh), fun stage pc hpc =>
      ⟨apiStart_idle hpc, fun h => by cases h⟩⟩

theorem Owned.start (hs : Owned p) (hget : p.getSocket id = some s) (c : ApiCall) :
    Owned (p.absorb id (apiStart s c)) :=
  hs.keep hget (apiStart_keeps s c) (start_cases hs hget c).2

theorem Sound.start (hs : Sound p) (hget : p.getSocket id = some s) (c : ApiCall) :
    Sound (p.absorb id (apiStart s c)) :=
  hs.keep hget (apiStart_keeps s c) (start_cases hs.toOwned hget c).1
    (start_cases hs.toOwned hget c).2

theorem used_held (p : Proc) (id fd : Nat) :
    Proc.held { p with log := p.log ++ [Op.used id fd] } = p.held := holders_append _ _

theorem Owned.use (hs : Owned p) (id fd : Nat) :
    Owned { p with log := p.log ++ [Op.used id fd] } where
  holds id' fd' h := used_held p id fd ▸ hs.holds id' fd' h
  holder id' fd' h := hs.holder id' fd' (used_held p id fd ▸ h)
  fresh := hs.fresh
  busy := hs.busy

theorem Sound.use (hs : Sound p) (hu : ∀ j, p.held fd = some j → j = id) :
    Sound { p with log := p.log ++ [Op.used id fd] } where
  toOwned := hs.toOwned.use id fd
  orderly := orderly_append.mpr ⟨hs.orderly, hu, trivial⟩
  gone id' fd' h := List.mem_append_left _ (hs.gone id' fd' h)

/-- What `rawrecv` does to a descriptor: nothing, unless it reads a FIN. -/
theorem rawrecv_keeps (s : RcsT) (o : RecvFrom)
    (hfin : ∀ e d src, o = .datagram e d src → ¬ IsFin d) :
    (s.rawrecv o).out = [] ∧ Keeps s [] (s.rawrecv o).sock := by
  have ht := timeout_rawrecv s o
  cases o with
  | error e =>
    unfold RcsT.rawrecv at ht ⊢
    dsimp only at ht ⊢
    refine ⟨rfl, .silent ?_ ?_ ht⟩ <;> split <;> rfl
  | datagram e d src =>
    have hno : ¬ (accepted d && (ofDatagram d).hasFlag FIN) = true := fun h =>
      hfin e d src rfl (by simpa [IsFin] using h)
    unfold RcsT.rawrecv at ht ⊢
    dsimp only at ht ⊢
    rw [if_neg hno] at ht ⊢
    refine ⟨by split <;> rfl, .silent ?_ ?_ ht⟩ <;> split <;> split <;> rfl

/-- A stretch that reads a FIN: it closes the descriptor, does no more than use it, and sets no
    other timer. -/
structure Quits (id : Nat) (s : RcsT) (r : ApiRes) : Prop where
  opened : s.isClosing_ = false
  key : (r.sock.ucpSocket_, r.sock.isClosing_) = (s.ucpSocket_, true)
  ops : ∃ os, (∀ o ∈ os, o = .used id s.ucpSocket_) ∧ r.out.filterMap (opOf id) =
    List.replicate 2048 (.used id s.ucpSocket_) ++ [.closed id s.ucpSocket_] ++ os
  fds : closedFds r.out = [s.ucpSocket_]
  timers : ∀ (timers : Nat → Nat) (fd : Nat), fd ≠ s.ucpSocket_ →
    r.out.foldl setTimer timers fd = timers fd

/-- What comes behind the FIN stays on the descriptor. -/
theorem quits_fin {pc : Pc} (hidle : pc.idle = false) (hopen : s.isClosing_ = false)
    {d : List UInt8} (hd : IsFin d) (id : Nat) (stage : Stage) (errno : Errno) (src : SockaddrIn) :
    Quits id s (apiResume s stage pc (.datagram errno d src)) := by
  obtain ⟨es, hes, hk⟩ := apiResume_split hidle s stage (.datagram errno d src)
  rw [rawrecv_fin hd] at hes hk
  have hfd : (latched s src).ucpSocket_ = s.ucpSocket_ := finished_fd s src
  refine ⟨hopen, ?_, ⟨es.filterMap (opOf id), finished_fd s src ▸ hk.ops id, ?_⟩, ?_,
    fun timers fd hne => ?_⟩
  · rw [hk.fd, hk.closing, finished_fd, finished_closing]
  · rw [hes, List.filterMap_append, farewell, close_ops, hfd]
  · rw [hes, closedFds_append, farewell, close_closedFds, hfd, hk.closedFds, List.append_nil]
  · rw [hes, List.foldl_append, farewell, close_timers]
    exact foldl_setTimer_other hk.events (finished_fd s src ▸ hne) timers

/-- The outcome of the receive of a blocked call: nobody else holds its descriptor, and it keeps
    this, or reads a FIN. -/
theorem receive_cases (hs : Owned p) {o : RecvFrom} (h : p.receive o = some p') :
    ∃ id stage pc s, p.busy = some (id, stage, pc) ∧ p.getSocket id = some s ∧
      p' = { p with log := p.log ++ [Op.used id s.ucpSocket_] }.absorb id
        (apiResume s stage pc o) ∧
      (∀ j, p.held s.ucpSocket_ = some j → j = id) ∧
      (s.isClosing_ = true → s.ucpSocket_ ∉ p.openFds) ∧
      (Keeps s (apiResume s stage pc o).out (apiResume s stage pc o).sock ∨
        Quits id s (apiResume s stage pc o)) := by
  obtain ⟨id, stage, pc, s, hbusy, hget, hopen, rfl⟩ := receive_some h
  obtain ⟨hidle, hgone⟩ := hs.busy id stage pc hbusy
  have hkey := key_of_get hget
  have hout : s.isClosing_ = true → s.ucpSocket_ ∉ p.openFds :=
    fun hc => hgone _ (by rw [hkey, hc])
  refine ⟨id, stage, pc, s, hbusy, hget, rfl, fun j hj => ?_, hout, ?_⟩
  · cases hc : s.isClosing_ with
    | true =>
      rw [hs.not_open (hout hc)] at hj
      cases hj
    | false =>
      rw [hc] at hkey
      exact Option.some.inj (hj.symm.trans (hs.holds id _ hkey))
  by_cases hfin : ∃ e d src, o = .datagram e d src ∧ IsFin d
  · obtain ⟨e, d, src, rfl, hd⟩ := hfin
    -- a FIN can only come in on an open descriptor
    have hin : s.ucpSocket_ ∈ p.openFds := hopen.resolve_right RecvFrom.noConfusion
    exact Or.inr (quits_fin hidle (Bool.eq_false_iff.mpr fun hc => hout hc hin) hd id stage e src)
  · obtain ⟨es, hes, hk⟩ := apiResume_split hidle s stage o
    obtain ⟨hnil, hk0⟩ := rawrecv_keeps s o fun e d src ho hd => hfin ⟨e, d, src, ho, hd⟩
    rw [hnil] at hes
    exact Or.inl (hes ▸ hk0.trans hk)

/-- What a stretch that reads a FIN does to the process. -/
theorem Quits.absorb (h : Quits id s r) (hget : p.getSocket id = some s) :
    (p.absorb id r).key = Function.update p.key id (some (s.ucpSocket_, true)) ∧
      (p.absorb id r).openFds = p.openFds.filter (fun fd => fd ≠ s.ucpSocket_) ∧
      p.key id = some (s.ucpSocket_, false) := by
  refine ⟨by rw [absorb_key, h.key], ?_, by rw [key_of_get hget, h.opened]⟩
  show p.openFds.filter _ = _
  rw [h.fds]
  simp

theorem Owned.receive (hs : Owned p) {o : RecvFrom} (h : p.receive o = some p') : Owned p' := by
  obtain ⟨id, stage, pc, s, _, hget, rfl, hmine, hout, hk | hq⟩ := receive_cases hs h
  · exact (hs.use id _).keep hget hk fun _ _ hpc => ⟨proceed_idle hpc, hout⟩
  · obtain ⟨hkey, hopen, hid⟩ := hq.absorb (p := { p with log := _ }) hget
    obtain ⟨os, hos, hlog⟩ := hq.ops
    refine (hs.use id _).release hid (fun j hj => hmine j (used_held p id _ ▸ hj)) (Or.inr rfl) hkey
      (held_release (fun o ho => List.eq_of_mem_replicate ho) hos (congrArg _ hlog)) hopen rfl
      fun id' stage' pc' h => ?_
    obtain ⟨rfl, hpc⟩ := absorb_busy h
    exact ⟨rfl, proceed_idle hpc⟩

/-- The outcome of the receive of a blocked call. -/
theorem Sound.receive (hs : Sound p) {o : RecvFrom} (h : p.receive o = some p') : Sound p' := by
  obtain ⟨id, stage, pc, s, _, hget, rfl, hmine, hout, hk | hq⟩ := receive_cases hs.toOwned h
  · exact (hs.use hmine).keep hget hk (Or.inr fun j hj => hmine j (used_held p id _ ▸ hj))
      fun _ _ hpc => ⟨proceed_idle hpc, hout⟩
  · obtain ⟨hkey, hopen, hid⟩ := hq.absorb (p := { p with log := _ }) hget
    obtain ⟨os, hos, hlog⟩ := hq.ops
    refine (hs.use hmine).release hid (Or.inr rfl) hkey
      (fun o ho => List.eq_of_mem_replicate ho) hos (congrArg _ hlog) hopen rfl
      fun id' stage' pc' h => ?_
    obtain ⟨rfl, hpc⟩ := absorb_busy h
    exact ⟨rfl, proceed_idle hpc⟩

/-- Without a socket of this number, nothing happens. -/
theorem destroySocket_none (hget : p.getSocket id = none) : p.destroySocket id = p := by
  unfold Proc.destroySocket
  rw [hget]

theorem destroySocket_table (p : Proc) (id : Nat) : (p.destroySocket id).sSocketIdentifiers =
    Function.update p.sSocketIdentifiers id none := by
  unfold Proc.destroySocket
  split
  next hnone => exact (Function.update_eq_self_iff.mpr hnone.symm).symm
  next => rfl

theorem destroySocket_key (p : Proc) (id : Nat) :
    (p.destroySocket id).key = Function.update p.key id none :=
  key_update (destroySocket_table p id)

theorem destroySocket_log (hget : p.getSocket id = some s) :
    (p.destroySocket id).log = p.log ++ List.replicate 2048 (.used id s.ucpSocket_) ++
      [.closed id s.ucpSocket_] := by
  unfold Proc.destroySocket
  rw [hget, List.append_assoc, ← close_ops]

theorem destroySocket_open (hget : p.getSocket id = some s) :
    (p.destroySocket id).openFds = p.openFds.filter fun fd => fd ≠ s.ucpSocket_ := by
  unfold Proc.destroySocket
  rw [hget]
  show p.openFds.filter _ = _
  rw [close_closedFds]
  simp

theorem destroySocket_rest (p : Proc) (id : Nat) : (p.destroySocket id).sNextId = p.sNextId ∧
    (p.destroySocket id).busy = p.busy ∧ (p.destroySocket id).timers = p.timers := by
  unfold Proc.destroySocket
  split <;> exact ⟨rfl, rfl, rfl⟩

/-- The user closes a socket whose descriptor nobody else holds. -/
theorem Owned.destroySocket (hs : Owned p) (hb : p.busy = none) (hget : p.getSocket id = some s)
    (hmine : ∀ j, p.held s.ucpSocket_ = some j → j = id) : Owned (p.destroySocket id) := by
  obtain ⟨hnext, hbusy, _⟩ := destroySocket_rest p id
  have hlog := destroySocket_log hget
  rw [List.append_assoc, ← List.append_nil (List.replicate _ _ ++ _)] at hlog
  refine hs.release (key_of_get hget) hmine (Or.inl rfl) (destroySocket_key p id)
    (held_release (fun o ho => List.eq_of_mem_replicate ho)
      (fun o ho => absurd ho List.not_mem_nil) hlog) (destroySocket_open hget) hnext
    fun id' stage pc h => ?_
  rw [hbusy, hb] at h
  cases h

/-- The user closes an open socket. -/
theorem Sound.destroySocket (hs : Sound p) (hb : p.busy = none) (hget : p.getSocket id = some s)
    (hc : s.isClosing_ = false) : Sound (p.destroySocket id) := by
  obtain ⟨hnext, hbusy, _⟩ := destroySocket_rest p id
  have hkey : p.key id = some (s.ucpSocket_, false) := by rw [key_of_get hget, hc]
  have hlog := destroySocket_log hget
  rw [List.append_assoc, ← List.append_nil (List.replicate _ _ ++ _)] at hlog
  refine hs.release hkey (Or.inl rfl) (destroySocket_key p id)
    (fun o ho => List.eq_of_mem_replicate ho) (fun o ho => absurd ho List.not_mem_nil) hlog
    (destroySocket_open hget) hnext fun id' stage pc h => ?_
  rw [hbusy, hb] at h
  cases h

end Steps

/-! ## 3. Runs -/

section Runs

variable {p p' : Proc} {a : ProcAct} {as : List ProcAct} {id : Nat}

/-- The socket `id` is there, and closing. -/
def Proc.closing (p : Proc) (id : Nat) : Bool := (p.getSocket id).any fun s => s.isClosing_

/-- `rcsClose` is called on open sockets only. -/
def ClosesOpen (p : Proc) : ProcAct → Prop
  | .close sockfd => p.closing sockfd = false
  | _ => True

/-- An action that starts something is taken when no call is in progress. -/
theorem of_idle {q : Proc} (h : (if p.busy = none then some q else none) = some p') :
    p.busy = none ∧ q = p' := by
  split at h
  next hb => exact ⟨hb, Option.some.inj h⟩
  next => cases h

/-- What an invariant must be kept by, for the steps of a process to keep it. -/
structure KeptBy (I : Proc → Prop) : Prop where
  fresh : ∀ {p}, I p → ∀ id, p.sNextId ≤ id → p.key id = none
  other : ∀ {p p'}, I p → p'.key = p.key → p'.log = p.log → p'.sNextId = p.sNextId →
    p'.busy = none → (∀ fd, fd ∈ p.openFds → p.held fd ≠ none → fd ∈ p'.openFds) → I p'
  makeSocket : ∀ {p}, I p → p.busy = none → I p.makeSocket
  start : ∀ {p id s}, I p → p.getSocket id = some s → ∀ c, I (p.absorb id (apiStart s c))
  receive : ∀ {p p' o}, I p → p.receive o = some p' → I p'

/-- Any step but a close. -/
theorem KeptBy.step {I : Proc → Prop} (hI : KeptBy I) (hs : I p)
    (hclose : ∀ sockfd, a = .close sockfd → p.busy = none → I (p.destroySocket sockfd))
    (h : p.step a = some p') : I p' := by
  cases a with
  | outcome o => exact hI.receive hs h
  | socket =>
    obtain ⟨hb, rfl⟩ := of_idle h
    exact hI.makeSocket hs hb
  | listen sockfd =>
    obtain ⟨hb, rfl⟩ := of_idle h
    refine hI.other hs ?_ rfl rfl hb fun fd hin _ => hin
    funext id
    show (Function.update p.sSocketIdentifiers sockfd _ id).map keyOf = _
    by_cases he : id = sockfd
    · rw [he, Function.update_self, Option.map_map]
      rfl
    · rw [Function.update_of_ne he]
      rfl
  | fileOpen =>
    obtain ⟨hb, rfl⟩ := of_idle h
    exact hI.other hs rfl rfl rfl hb fun fd hin _ => List.mem_cons_of_mem _ hin
  | fileClose fd =>
    simp only [Proc.step] at h
    split_ifs at h with hb
    cases h
    refine hI.other hs rfl rfl rfl hb.1 fun fd' hin hheld => List.mem_filter.mpr ⟨hin, ?_⟩
    have hne : fd' ≠ fd := fun he => hheld (he ▸ hb.2)
    exact decide_eq_true hne
  | call sockfd c =>
    obtain ⟨hb, rfl⟩ := of_idle h
    unfold Proc.onSocket
    split
    · exact hs
    · exact hI.start hs ‹_› (.call c)
  | connect sockfd addr =>
    obtain ⟨hb, rfl⟩ := of_idle h
    unfold Proc.onSocket
    split
    · exact hs
    · exact hI.start hs ‹_› (.connect addr)
  | accept sockfd sockName bind =>
    obtain ⟨hb, rfl⟩ := of_idle h
    unfold Proc.accept
    split
    · exact hs
    next s hget =>
      split
      · have hne : sockfd ≠ p.sNextId := by
          rintro rfl
          have hnone := hI.fresh hs _ le_rfl
          rw [key_of_get hget] at hnone
          cases hnone
        have hget' : p.makeSocket.getSocket sockfd = some s :=
          (Function.update_of_ne hne _ _).trans hget
        exact hI.start (hI.makeSocket hs hb) hget' _
      · exact hI.start hs hget _
  | close sockfd =>
    obtain ⟨hb, rfl⟩ := of_idle h
    exact hclose sockfd rfl hb

theorem owned_kept : KeptBy Owned :=
  ⟨Owned.fresh, Owned.other, Owned.makeSocket, Owned.start, fun hs h => hs.receive h⟩

theorem sound_kept : KeptBy Sound where
  fresh hs := hs.fresh
  other hs hkey hlog hnext hb hopen := {
    toOwned := hs.toOwned.other hkey hlog hnext hb hopen
    orderly := hlog ▸ hs.orderly
    gone := by rw [hkey, hlog]; exact hs.gone }
  makeSocket := Sound.makeSocket
  start := Sound.start
  receive hs h := hs.receive h

/-- One step of the process, with its closes restricted, keeps the invariant. -/
theorem step_sound (hs : Sound p) (hok : ClosesOpen p a) (h : p.step a = some p') : Sound p' := by
  refine sound_kept.step hs (fun sockfd ha hb => ?_) h
  subst ha
  cases hget : p.getSocket sockfd with
  | none => exact (destroySocket_none hget).symm ▸ hs
  | some s =>
    have hc : s.isClosing_ = false := by
      have hc : p.closing sockfd = false := hok
      rwa [Proc.closing, hget] at hc
    exact hs.destroySocket hb hget hc

/-- A late close spoils the log. -/
theorem step_late (hs : Sound p) (hok : ¬ ClosesOpen p a) (h : p.step a = some p') :
    ¬ Separate p'.log := by
  cases a with
  | close sockfd =>
    obtain ⟨hb, rfl⟩ := of_idle h
    cases hget : p.getSocket sockfd with
    | none => exact absurd (show p.closing sockfd = false by rw [Proc.closing, hget]; rfl) hok
    | some s =>
      have hc : s.isClosing_ = true := by
        cases hc : s.isClosing_ with
        | true => rfl
        | false =>
          exact absurd (show p.closing sockfd = false by rw [Proc.closing, hget]; exact hc) hok
      have hkey : p.key sockfd = some (s.ucpSocket_, true) := by rw [key_of_get hget, hc]
      rw [destroySocket_log hget]
      refine not_separate_of_late (List.mem_append_left _ (hs.gone _ _ hkey)) fun hheld => ?_
      -- the FINs do not make the socket a holder
      rw [holders_append, holders_uses fun o ho => List.eq_of_mem_replicate ho] at hheld
      rw [(hs.holder _ _ hheld).2] at hkey
      cases hkey
  | _ => exact absurd trivial hok

/-- The log only grows. -/
theorem step_log (h : p.step a = some p') : ∃ more, p'.log = p.log ++ more := by
  have habsorb : ∀ (q : Proc) id r, ∃ more, (q.absorb id r).log = q.log ++ more :=
    fun q id r => ⟨_, rfl⟩
  have hself : ∃ more, p.log = p.log ++ more := ⟨[], (List.append_nil _).symm⟩
  cases a with
  | outcome o =>
    obtain ⟨id, stage, pc, s, _, _, _, rfl⟩ := receive_some h
    exact ⟨_, List.append_assoc _ _ _⟩
  | fileClose fd =>
    simp only [Proc.step] at h
    split_ifs at h
    cases h
    exact hself
  | call sockfd c =>
    obtain ⟨_, rfl⟩ := of_idle h
    unfold Proc.onSocket
    split
    · exact hself
    · exact habsorb _ _ _
  | connect sockfd addr =>
    obtain ⟨_, rfl⟩ := of_idle h
    unfold Proc.onSocket
    split
    · exact hself
    · exact habsorb _ _ _
  | accept sockfd sockName bind =>
    obtain ⟨_, rfl⟩ := of_idle h
    unfold Proc.accept
    split
    · exact hself
    · split
      · exact ⟨_, List.append_assoc _ _ _⟩
      · exact habsorb _ _ _
  | close sockfd =>
    obtain ⟨_, rfl⟩ := of_idle h
    unfold Proc.destroySocket
    split
    · exact hself
    · exact ⟨_, rfl⟩
  | socket =>
    obtain ⟨_, rfl⟩ := of_idle h
    exact ⟨_, rfl⟩
  | _ =>
    obtain ⟨_, rfl⟩ := of_idle h
    exact hself

theorem run_log (h : Run Proc.step (fun _ _ => True) p as p') : ∃ more, p'.log = p.log ++ more := by
  induction h with
  | nil p => exact ⟨[], (List.append_nil _).symm⟩
  | cons _ hf _ ih =>
    obtain ⟨more, h1⟩ := step_log hf
    obtain ⟨more', h2⟩ := ih
    exact ⟨more ++ more', by rw [h2, h1, List.append_assoc]⟩

/-- From a sound state: the log stays separate as long as no close is late, and no longer. -/
theorem separate_iff_of_sound (hs : Sound p) (h : Run Proc.step (fun _ _ => True) p as p') :
    Separate p'.log ↔ Run Proc.step ClosesOpen p as p' := by
  induction h with
  | nil p => exact ⟨fun _ => .nil p, fun _ => hs.orderly.separate⟩
  | @cons p p1 p' a as _ hf hrun ih =>
    by_cases hok : ClosesOpen p a
    · have hiff := ih (step_sound hs hok hf)
      refine ⟨fun hsep => .cons hok hf (hiff.mp hsep), fun hr => hiff.mpr ?_⟩
      cases hr with
      | cons _ hf' h' =>
        rw [hf, Option.some.injEq] at hf'
        exact hf' ▸ h'
    · obtain ⟨more, hlog⟩ := run_log hrun
      refine ⟨fun hsep => ?_, fun hr => ?_⟩
      · rw [hlog] at hsep
        exact absurd hsep.of_append (step_late hs hok hf)
      · cases hr with
        | cons hok' _ _ => exact absurd hok' hok

/-- In every run of a process, with any calls on any sockets and any datagrams: no descriptor is
    closed twice for one opening and no socket touches the descriptor of another one, if and only
    if no `rcsClose` is called on a socket that a FIN has closed. -/
theorem separate_iff {fds : List Nat} (h : Run Proc.step (fun _ _ => True) (Proc.init fds) as p) :
    Separate p.log ↔ Run Proc.step ClosesOpen (Proc.init fds) as p :=
  separate_iff_of_sound (sound_init fds) h

end Runs

/-- Two sockets, each closed once. -/
theorem separate_two : ∃ p,
    Run Proc.step (fun _ _ => True) (Proc.init [0, 1, 2]) [.socket, .socket, .close 0, .close 1] p ∧
    Separate p.log := by
  have hrun : ∃ p, Run Proc.step ClosesOpen (Proc.init [0, 1, 2])
      [.socket, .socket, .close 0, .close 1] p :=
    ⟨_, .cons trivial rfl (.cons trivial rfl (.cons rfl rfl (.cons rfl rfl (.nil _))))⟩
  obtain ⟨p, hrun⟩ := hrun
  have hany : ∀ {p q : Proc} {as}, Run Proc.step ClosesOpen p as q →
      Run Proc.step (fun _ _ => True) p as q := by
    intro p q as h
    induction h with
    | nil p => exact .nil p
    | cons _ hf _ ih => exact .cons trivial hf ih
  exact ⟨p, hany hrun, (separate_iff (hany hrun)).mpr hrun⟩

/-- Where the descriptor of a closing socket is the next one to be given away, a new socket gets it,
    and a late close hits the new socket. -/
theorem reused {p : Proc} {id : Nat} {c : Bool} (hb : p.busy = none) (hne : id ≠ p.sNextId)
    (hk : p.key id = some (lowestFree p.openFds, c)) :
    ∃ p', Run Proc.step (fun _ _ => True) p [.socket, .close id] p' ∧
      p'.key p.sNextId = some (lowestFree p.openFds, false) ∧ ¬ Separate p'.log := by
  obtain ⟨s, hget, hs⟩ := Option.map_eq_some_iff.mp hk
  have hfd : s.ucpSocket_ = lowestFree p.openFds := congrArg Prod.fst hs
  have hget' : p.makeSocket.getSocket id = some s := (Function.update_of_ne hne _ _).trans hget
  have h1 : p.step .socket = some p.makeSocket := if_pos hb
  have h2 : p.makeSocket.step (.close id) = some (p.makeSocket.destroySocket id) := if_pos hb
  refine ⟨_, .cons trivial h1 (.cons trivial h2 (.nil _)), ?_, fun hsep => ?_⟩
  · rw [destroySocket_key, Function.update_of_ne hne.symm, makeSocket_key, Function.update_self]
  · have hlog := destroySocket_log hget'
    rw [hfd] at hlog
    refine hne (hsep.exclusive _ _ [] id _ hlog (Or.inr rfl) p.sNextId ?_).symm
    rw [holders_append, holders_uses fun o ho => List.eq_of_mem_replicate ho]
    show holders _ (p.log ++ _) _ = _
    rw [holders_append]
    exact Function.update_self _ _ _

/-- A FIN closes socket 0, socket 1 gets the descriptor that is free by then, and the user closes
    socket 0: it sends its FINs on the descriptor of socket 1, and closes it. -/
theorem second_closed : ∃ p,
    Run Proc.step (fun _ _ => True) (Proc.init [0, 1, 2])
      [.socket, .call 0 (.recv 1), .outcome (.datagram .EAGAIN (control 666 FIN).wire ⟨1, 0⟩),
        .socket, .close 0] p ∧
    p.key 1 = some (3, false) ∧ ¬ Separate p.log := by
  obtain ⟨r, hr⟩ : ∃ r, apiResume (.new 3 ⟨0, 0⟩) .plain (.recvLoop 1)
    (.datagram .EAGAIN (control 666 FIN).wire ⟨1, 0⟩) = r := ⟨_, rfl⟩
  have hpc : r.pc = .returned (.call (.recv [])) := by
    rw [← hr]
    decide +kernel
  have hfds : closedFds r.out = [3] := by
    rw [← hr]
    decide +kernel
  have hkey : keyOf r.sock = (3, true) := by
    rw [← hr]
    decide +kernel
  -- the process blocked in recv
  let q : Proc := (Proc.init [0, 1, 2]).makeSocket.absorb 0
    (apiStart (.new 3 ⟨0, 0⟩) (.call (.recv 1)))
  let q' : Proc := { q with log := q.log ++ [Op.used 0 3] }.absorb 0 r
  have h3 : q.step (.outcome (.datagram .EAGAIN (control 666 FIN).wire ⟨1, 0⟩)) = some q' := by
    show _ = some (Proc.absorb _ 0 r)
    rw [← hr]
    rfl
  have hbusy : q'.busy = none := absorb_returned hpc
  have hopen : q'.openFds = [0, 1, 2] := by
    show [3, 0, 1, 2].filter (fun fd => fd ∉ closedFds r.out) = _
    rw [hfds]
    rfl
  have hk : q'.key 0 = some (lowestFree q'.openFds, true) := by
    rw [absorb_key, Function.update_self, hopen]
    exact congrArg some hkey
  obtain ⟨p, hrun, hp⟩ := reused hbusy (by decide : (0 : Nat) ≠ 1) hk
  rw [hopen] at hp
  exact ⟨p, .cons trivial rfl (.cons trivial rfl (.cons trivial h3 hrun)), hp⟩

end Ece358.Rcs
