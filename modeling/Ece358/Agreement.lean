/-
  File:      Ece358/Agreement.lean
  Subject:   A listening socket and its clients (rcs_t.cc, lines 113 to 166).

  accept talks to the source of the first datagram that it reads, and makes the endpoint of its new
  socket out of the source of the last one that its recv has read. With other clients about, these
  can be two.

  * `Link`, `Accept`, `Listening`, `Listening.step` -- any number of clients, one for each address,
    the listener, and the datagrams between them;
  * `Agreed` -- a call of accept that has returned was about one client, and this client knows it;
  * `apart` -- no datagram of another client counts in a handshake, and none is the last one that
    finalizeRecv reads; the new socket is bound, to the host that the clients connect to;
  * `LinkAt` -- the phases of a client and of the listener for it, and what is between them;
  * `Serves` -- the invariant;
  * `agreement` -- accept agrees with its client in every run that keeps the clients apart;
    `divided` -- a run that does not.
-/
import Ece358.Handshake

namespace Ece358.Rcs

open Lib MsgT

/-! ## 1. The system -/

/-- A client, and the datagrams on their way to the listener and back. A client that has not called
    connect has no `pc`. -/
structure Link where
  sock : RcsT
  pc : Option ApiPc
  up : List (List UInt8)
  down : List (List UInt8)

/-- A call of accept: the number of the new socket, the address that is bound to it, the call so
    far, and the messages that it has received in sequence, with their sources. -/
structure Accept where
  child : Nat
  bound : Option SockaddrIn
  res : ApiRes
  taken : List (SockaddrIn × MsgT)

/-- The call behind a stretch `r` of it, in which it has received `took` from `x`. -/
def Accept.behind (a : Accept) (r : ApiRes) (x : SockaddrIn) (took : List MsgT) : Accept :=
  { a with res := r.after a.res.out, taken := a.taken ++ took.map fun m => (x, m) }

/-- The listener: its address, its socket between two calls, the call in progress, and the calls
    that have returned. There is a client for every address. -/
structure Listening where
  sockName : SockaddrIn
  sock : RcsT
  sNextId : Nat
  serving : Option Accept
  served : List Accept
  links : SockaddrIn → Link

/-- To the listener, or to the client. -/
inductive Heading where
  | up
  | down

/-- What can happen: the calls, with what ucpSocket and bind come to; a datagram or a timeout for
    the listener or a client; and what the network does to a datagram. -/
inductive ListeningAct where
  | accept (fd : Nat) (bind : SockaddrIn → Bool)
  | connect (x addr : SockaddrIn)
  | hear (x : SockaddrIn) (errno : Errno)
  | timer
  | clientHear (x : SockaddrIn) (errno : Errno)
  | clientTimer (x : SockaddrIn)
  | lose (x : SockaddrIn) (way : Heading) (i : Nat)
  | cut (x : SockaddrIn) (way : Heading) (i k : Nat)

/-- The datagrams in `out`, on their way to their destinations. -/
def posted (links : SockaddrIn → Link) (out : List ApiEvent) (x : SockaddrIn) : Link :=
  { links x with
    down := (links x).down ++
      (((sendings out).filter fun q => q.2 = x).map Prod.fst).map MsgT.wire }

/-- What a change of the datagrams on one way makes of a link. -/
def Link.alter (k : Link) (f : List (List UInt8) → List (List UInt8)) : Heading → Link
  | .up => { k with up := f k.up }
  | .down => { k with down := f k.down }

/-- A client behind a stretch of its connect; its datagrams go to the listener. -/
def Link.runs (k : Link) (r : ApiRes) : Link :=
  { k with
    sock := r.sock, pc := some r.pc
    up := k.up ++ ((sendings r.out).map Prod.fst).map MsgT.wire }

namespace Listening

/-- Whether datagrams to `addr` reach the listener, which may be bound to all hosts. -/
def Reaches (w : Listening) (addr : SockaddrIn) : Prop :=
  addr.sin_port = w.sockName.sin_port ∧
    (addr.sin_addr = w.sockName.sin_addr ∨ w.sockName.sin_addr = 0)

instance (w : Listening) (addr : SockaddrIn) : Decidable (w.Reaches addr) :=
  inferInstanceAs (Decidable (_ ∧ _))

def setLink (w : Listening) (x : SockaddrIn) (k : Link) : Listening :=
  { w with links := Function.update w.links x k }

/-- The listener behind a stretch of the call `a`, in which it did `out`. -/
def settle (w : Listening) (a : Accept) (out : List ApiEvent) : Listening :=
  match a.res.pc with
  | .blocked _ _ => { w with serving := some a, links := posted w.links out }
  | .returned _ =>
    { w with
      sock := a.res.sock, serving := none, served := w.served ++ [a],
      links := posted w.links out }

/-- rcsAccept, on a socket that listens. -/
def accept (w : Listening) (fd : Nat) (bind : SockaddrIn → Bool) : Option Listening :=
  if w.serving.isNone ∧ w.sock.isListenerSocket_ = true then
    let bound := mybind fd { w.sockName with sin_port := 0 } bind
    let r := apiStart w.sock (.accept w.sNextId bound.2)
    some (settle { w with sNextId := w.sNextId + 1 }
      ⟨w.sNextId, if bound.1 = 0 then some bound.2 else none, r, []⟩ r.out)
  else none

/-- The receive of the call in progress, with the source of what it receives. -/
def receive (w : Listening) (x : SockaddrIn) (o : RecvFrom) : Option Listening :=
  match w.serving with
  | none => none
  | some a =>
    match a.res.pc with
    | .returned _ => none
    | .blocked stage pc =>
      let r := apiResume a.res.sock stage pc o
      some (w.settle (a.behind r x (received a.res.sock pc o)) r.out)

/-- A receive of the client `x`. -/
def clientReceive (w : Listening) (x : SockaddrIn) (o : RecvFrom) : Option Listening :=
  match (w.links x).pc with
  | some (.blocked stage pc) =>
    some (w.setLink x ((w.links x).runs (apiResume (w.links x).sock stage pc o)))
  | _ => none

def step (w : Listening) : ListeningAct → Option Listening
  | .accept fd bind => w.accept fd bind
  | .connect x addr =>
    if (w.links x).pc = none ∧ w.Reaches addr then
      some (w.setLink x ((w.links x).runs (apiStart (w.links x).sock (.connect addr))))
    else none
  | .hear x errno =>
    match (w.links x).up with
    | [] => none
    | d :: rest =>
      (w.setLink x { w.links x with up := rest }).receive x (.datagram errno d x)
  | .timer =>
    match w.serving with
    | none => none
    | some a =>
      if a.res.sock.timeout ≠ 0 then w.receive w.sockName (.error .EAGAIN) else none
  | .clientHear x errno =>
    match (w.links x).down with
    | [] => none
    | d :: rest =>
      (w.setLink x { w.links x with down := rest }).clientReceive x (.datagram errno d w.sockName)
  | .clientTimer x =>
    if (w.links x).sock.timeout ≠ 0 then w.clientReceive x (.error .EAGAIN) else none
  | .lose x way i => some (w.setLink x ((w.links x).alter (fun ds => ds.eraseIdx i) way))
  | .cut x way i k =>
    some (w.setLink x ((w.links x).alter (fun ds => ds.modify i fun d => d.take k) way))

end Listening

/-! ## 2. Agreement -/

/-- The call of accept `a` was about the client `x`: it is the endpoint of the new socket, the
    address that accept returns, and the destination of all that accept has sent, the answers and
    the port; the request that accept has received is its request; and when its connect has
    returned 0, its endpoint is the address of the new socket. -/
structure Agreed (w : Listening) (a : Accept) (x : SockaddrIn) : Prop where
  endpoint : childEnds a.res.out = [(a.child, x)]
  returned : a.res.pc = .returned (.accept a.child (some x))
  sent : ∀ q ∈ sendings a.res.out, q.2 = x
  consumed : a.taken = [(x, pkt connectRequest 0), (x, pkt connectRequest 1)]
  connected : (w.links x).pc = some (.returned (.connect 0)) →
    a.bound = some (w.links x).sock.endPoint_

/-- A listener that was not called yet, and clients that have not called connect. -/
structure Ready (w : Listening) : Prop where
  serving : w.serving = none
  served : w.served = []
  notClosing : w.sock.isClosing_ = false
  buffer : w.sock.buffer_ = MsgBufferT.new
  links : ∀ x, (w.links x).pc = none ∧ (w.links x).up = [] ∧ (w.links x).down = [] ∧
    (w.links x).sock.isClosing_ = false ∧ (w.links x).sock.buffer_ = MsgBufferT.new

/-- The call refuses the datagram where it is blocked. -/
def Accept.Declines (a : Accept) (errno : Errno) (d : List UInt8) : Prop :=
  match a.res.pc with
  | .blocked _ pc => Refuses a.res.sock errno d pc
  | .returned _ => True

/-- In finalizeRecv, the last datagram came from the endpoint. -/
def Accept.Undisturbed (a : Accept) : Prop :=
  match a.res.pc with
  | .blocked _ (.finalizeRecv _ _ _) => a.res.sock.fromEndpoint_ = a.res.sock.endPoint_
  | _ => True

/-- The new socket is bound; clients connect to the host that the listener is bound to; a datagram
    from elsewhere than the endpoint is refused; and finalizeRecv does not end behind one. -/
def apart (w : Listening) : ListeningAct → Prop
  | .accept fd bind => (mybind fd { w.sockName with sin_port := 0 } bind).1 = 0
  | .connect _ addr => addr.sin_addr = w.sockName.sin_addr
  | .hear x errno => ∀ a ∈ w.serving, a.res.sock.hasEndpoint_ = true →
      x ≠ a.res.sock.endPoint_ → ∀ d ∈ (w.links x).up.head?, a.Declines errno d
  | .timer => ∀ a ∈ w.serving, a.Undisturbed
  | _ => True

instance (a : Accept) (errno : Errno) (d : List UInt8) : Decidable (a.Declines errno d) := by
  unfold Accept.Declines
  split <;> infer_instance

instance (a : Accept) : Decidable a.Undisturbed := by
  unfold Accept.Undisturbed
  split <;> infer_instance

instance (w : Listening) : DecidablePred (apart w)
  | .accept _ _ => inferInstanceAs (Decidable (_ = 0))
  | .connect _ _ => inferInstanceAs (Decidable (_ = w.sockName.sin_addr))
  | .hear _ _ => inferInstanceAs (Decidable (∀ a ∈ w.serving, _ → _ → ∀ d ∈ _, a.Declines _ d))
  | .timer => inferInstanceAs (Decidable (∀ a ∈ w.serving, a.Undisturbed))
  | .clientHear _ _ => isTrue trivial
  | .clientTimer _ => isTrue trivial
  | .lose _ _ _ => isTrue trivial
  | .cut _ _ _ _ => isTrue trivial

/-! ## 3. A client and the listener -/

/-- The client is in phase `p`, the listener for it in phase `l`; neither has heard more than the
    other has said, and what is on the way was said in the phases between. -/
structure LinkAt (host : UInt32) (port : UInt16) (p l : Nat) (k : Link) : Prop where
  client : ClientAt host port p k.sock k.pc
  said : upLo l ≤ p
  heard : downLo p ≤ l
  up : Ranked (fun d r => SentAs d (upMsg r)) (upLo l) p k.up
  down : Ranked (fun d r => SentAs d (downMsg port r)) (downLo p) l k.down

section Links

variable {host : UInt32} {port : UInt16} {p p' l l' r : Nat} {k : Link} {d : List UInt8}
  {rest : List (List UInt8)}

/-- The port of a listener that has not heard of the client does not matter. -/
theorem LinkAt.early (h : LinkAt host port p 0 k) (port' : UInt16) : LinkAt host port' p 0 k where
  client := h.client.early (by
    by_contra hp
    exact absurd (le_trans (downLo_mono (show 4 ≤ p by omega)) h.heard) (by decide)) port'
  said := h.said
  heard := h.heard
  up := h.up
  down := h.down.imp fun d r _ hr hd => by rwa [downMsg_port port' port (by omega)]

/-- The listener reads a datagram of the client. -/
theorem LinkAt.pops (h : LinkAt host port p l k) (hk : k.up = d :: rest) :
    ∃ r, SentAs d (upMsg r) ∧ upLo l ≤ r ∧ r ≤ p ∧
      Ranked (fun d r => SentAs d (upMsg r)) r p rest ∧
      LinkAt host port p l { k with up := rest } := by
  obtain ⟨r, hd, hlo, hr, hup⟩ := (hk ▸ h.up).pop
  exact ⟨r, hd, hlo, hr, hup, h.client, h.said, h.heard, hup.mono hlo (le_refl p), h.down⟩

/-- It answers, and is in phase `l'`. -/
theorem LinkAt.listens (h : LinkAt host port p l k) (hl : l ≤ l') (hlo : upLo l' ≤ r)
    (hr : r ≤ p) (hup : Ranked (fun d r => SentAs d (upMsg r)) r p k.up) (n : Nat) :
    LinkAt host port p l'
      { k with down := k.down ++ List.replicate n (downMsg port l').wire } where
  client := h.client
  said := le_trans hlo hr
  heard := le_trans h.heard hl
  up := hup.mono hlo (le_refl p)
  down := h.down.sends (le_trans h.heard hl) hl (sentAs_downMsg port l') n

/-- The listener answers in phase `k'` of a call that talks to the client: the one that it was in
    for the client, or the first one of a call that hears of a client that was served. -/
theorem LinkAt.answered {k k' : Nat} {port' : UInt16} {q : Link} (h : LinkAt host port p l q)
    (hk : k ≤ 4) (hnear : k' = k ∨ k' = k + 1)
    (hx : (k = l ∧ port = port' ∧ upLo k' ≤ r ∧ r ≤ p ∧
        Ranked (fun d r => SentAs d (upMsg r)) r p q.up) ∨ (k' = 0 ∧ l = 5)) (n : Nat) :
    ∃ l', (l = 5 → l' = 5) ∧ ((k' = l' ∧ port = port') ∨ (k' = 0 ∧ l' = 5)) ∧
      (k' = 5 → k' = l' ∧ port = port') ∧
      LinkAt host port p l'
        { q with down := q.down ++ List.replicate n (downMsg port' k').wire } := by
  rcases hx with ⟨rfl, rfl, hlo, hr, hup⟩ | ⟨rfl, rfl⟩
  · have hle : k ≤ k' := by rcases hnear with h | h <;> omega
    exact ⟨k', fun h => by omega, Or.inl ⟨rfl, rfl⟩, fun _ => ⟨rfl, rfl⟩,
      h.listens hle hlo hr hup n⟩
  · exact ⟨5, fun _ => rfl, Or.inr ⟨rfl, rfl⟩, fun h => by omega,
      h.listens (le_refl 5) (le_refl _) h.said h.up n⟩

/-- The client has read, and is in phase `p'`. -/
theorem LinkAt.runs {q : ApiRes} (h : LinkAt host port p l k)
    (hq : ClientMoves host port p q p') (hlo : downLo p' ≤ r) (hr : r ≤ l)
    (hdown : Ranked (fun d r => SentAs d (downMsg port r)) r l rest) :
    LinkAt host port p' l (({ k with down := rest } : Link).runs q) := by
  have hp : p ≤ p' := by rcases hq.near with rfl | rfl <;> omega
  obtain ⟨n, hn⟩ := hq.sent
  exact
    { client := hq.stands
      said := le_trans h.said hp
      heard := le_trans hlo hr
      up := by
        show Ranked _ _ _ (k.up ++ _)
        rw [hn, List.map_replicate]
        exact h.up.sends (le_trans h.said hp) hp (sentAs_upMsg p') n
      down := hdown.mono hlo (le_refl l) }

/-- A client that calls connect. -/
theorem LinkAt.connects (h : LinkAt host port p l k) (hpc : k.pc = none) (addr : SockaddrIn)
    (haddr : addr.sin_addr = host) :
    ∃ p', LinkAt host port p' l (k.runs (apiStart k.sock (.connect addr))) := by
  have hp : p = 0 := by
    have hc := h.client
    rw [hpc] at hc
    cases hc
    rfl
  subst hp
  exact ⟨1, h.runs (h.client.connects addr haddr) (le_refl 0) (Nat.zero_le l) h.down⟩

/-- The network loses or cuts a datagram. -/
theorem LinkAt.alters (h : LinkAt host port p l k) (way : Heading)
    {f : List (List UInt8) → List (List UInt8)}
    (hf : ∀ (R : List UInt8 → Nat → Prop) lo hi ds, (∀ d r n, R d r → R (d.take n) r) →
      Ranked R lo hi ds → Ranked R lo hi (f ds)) : LinkAt host port p l (k.alter f way) := by
  cases way with
  | up => exact ⟨h.client, h.said, h.heard, hf _ _ _ _ (fun d r n hd => hd.take n) h.up, h.down⟩
  | down => exact ⟨h.client, h.said, h.heard, h.up, hf _ _ _ _ (fun d r n hd => hd.take n) h.down⟩

end Links

/-! ## 4. The invariant -/

/-- The call `a`, on the socket `s`, talks to `x` and is in phase `k`; all that it has done so far
    was about `x`. -/
structure Talk (a : Accept) (me x : SockaddrIn) (k : Nat) (s : RcsT) : Prop where
  bound : a.bound = some me
  stands : ListenerAt a.child me x k s a.res.pc
  ends : childEnds a.res.out = endsAt a.child x k
  sent : ∀ q ∈ sendings a.res.out, q.2 = x
  taken : a.taken = (requests k).map fun m => (x, m)

/-- No handshake with a client is under way. -/
def AtRest (l : Nat) : Prop := l = 0 ∨ l = 5

/-- Where the listener is: between calls, in a call that has heard of nobody, or in one that talks
    to `x`. A client that was served before is not served again: it sends no request any more. -/
inductive ListenerState (w : Listening) (l : SockaddrIn → Nat) (port : SockaddrIn → UInt16) : Prop
  | free (hs : w.serving = none) (hc : w.sock.isClosing_ = false) (hb : Blank w.sock.buffer_)
      (hl : ∀ y, AtRest (l y))
  | waiting (a : Accept) (me : SockaddrIn) (hs : w.serving = some a)
      (hhost : me.sin_addr = w.sockName.sin_addr) (hno : a.res.sock.hasEndpoint_ = false)
      (ht : ∀ x, Talk a me x 0 (a.res.sock.setEndpoint x)) (hl : ∀ y, AtRest (l y))
  | talking (a : Accept) (me x : SockaddrIn) (k : Nat) (hs : w.serving = some a)
      (hhost : me.sin_addr = w.sockName.sin_addr) (ht : Talk a me x k a.res.sock)
      (hx : (k = l x ∧ port x = me.sin_port) ∨ (k = 0 ∧ l x = 5))
      (hl : ∀ y, y ≠ x → AtRest (l y))

/-- Every client is in its phase, and the listener for it; and a call that has returned was about
    a client that has got its port from it. -/
structure Serves (w : Listening) (p l : SockaddrIn → Nat) (port : SockaddrIn → UInt16) : Prop where
  links : ∀ x, LinkAt w.sockName.sin_addr (port x) (p x) (l x) (w.links x)
  listener : ListenerState w l port
  served : ∀ a ∈ w.served, ∃ x s, l x = 5 ∧ Talk a ⟨w.sockName.sin_addr, port x⟩ x 5 s

section Serves

variable {w w' : Listening} {p l : SockaddrIn → Nat} {port : SockaddrIn → UInt16} {a : Accept}
  {me x y : SockaddrIn} {k k' r : Nat} {s : RcsT} {stage : Stage} {pc : Pc} {d : List UInt8}

/-- What holds of every client, where one of them changes. -/
theorem forall_updated {β γ : Type} {P : SockaddrIn → β → γ → Prop} {f : SockaddrIn → β}
    {g : SockaddrIn → γ} {b : β} {c : γ} (h : ∀ z, P z (f z) (g z)) (hx : P x b c)
    (z : SockaddrIn) : P z (Function.update f x b z) (Function.update g x c z) := by
  by_cases hz : z = x
  · subst hz
    rw [Function.update_self, Function.update_self]
    exact hx
  · rw [Function.update_of_ne hz, Function.update_of_ne hz]
    exact h z

/-- A receive of a call that talks to `x`, whoever it comes from, if it takes nothing else. -/
theorem Talk.moves {q : ApiRes} {took : List MsgT} (h : Talk a me x k s)
    (hm : ListenerMoves a.child me x k q took k') :
    Talk (a.behind q x took) me x k' q.sock where
  bound := h.bound
  stands := hm.stands
  ends := by
    show childEnds (a.res.out ++ q.out) = endsAt a.child x k'
    rw [childEnds_append, hm.ends, h.ends]
  sent := by
    obtain ⟨n, hn⟩ := hm.sent
    intro c hc
    have hc' : c ∈ sendings a.res.out ++ sendings q.out := by
      rw [← sendings_append]
      exact hc
    rcases List.mem_append.mp hc' with hc' | hc'
    · exact h.sent c hc'
    · rw [hn] at hc'
      rw [List.eq_of_mem_replicate hc']
  taken := by
    rw [hm.took, List.map_append, ← h.taken]
    rfl

/-- What goes to one client only. -/
theorem posted_replicate (links : SockaddrIn → Link) {out : List ApiEvent} {n : Nat} {m : MsgT}
    (h : sendings out = List.replicate n (m, x)) : posted links out =
      Function.update links x { links x with
        down := (links x).down ++ List.replicate n m.wire } := by
  funext y
  by_cases hy : y = x
  · subst hy
    rw [Function.update_self, posted, h, List.filter_replicate_of_pos (by simp),
      List.map_replicate, List.map_replicate]
  · rw [Function.update_of_ne hy, posted, h,
      List.filter_replicate_of_neg (by simpa using fun h => hy h.symm)]
    exact congrArg (fun ds => { links y with down := ds }) (List.append_nil _)

/-- A blocked accept has its endpoint, and has not got to the last phase. -/
theorem ListenerAt.busy {child : Nat} (h : ListenerAt child me x k s (.blocked stage pc)) :
    Open s ∧ s.endPoint_ = x ∧ k ≤ 4 := by
  generalize hq : ApiPc.blocked stage pc = q at h
  cases h with
  | request _ ho hx hc => exact ⟨ho, hx, by omega⟩
  | finalizing ho hx => exact ⟨ho, hx, by omega⟩
  | port K ho hx hK => exact ⟨ho, hx, by omega⟩
  | served => cases hq

theorem ListenerAt.returned {child : Nat} {ret : ApiRet}
    (h : ListenerAt child me x k s (.returned ret)) : k = 5 ∧ Open s ∧ Blank s.buffer_ := by
  generalize hq : ApiPc.returned ret = q at h
  cases h with
  | served ho hb => exact ⟨rfl, ho, hb⟩
  | _ => cases hq

/-- The first phase has no timer. -/
theorem ListenerAt.timerless {child : Nat} {q : ApiPc} (h : ListenerAt child me x 0 s q) :
    s.timeout = 0 := by
  generalize hk : (0 : Nat) = k at h
  cases h with
  | request _ _ _ _ _ _ ht => exact ht.trans hk
  | _ => omega

/-- The listener answers `x` in a call that talks to it. -/
theorem Serves.answers {q : ApiRes} {took : List MsgT}
    (hlinks : ∀ z, LinkAt w.sockName.sin_addr (port z) (p z) (l z) (w.links z))
    (hserved : ∀ a ∈ w.served, ∃ x s, l x = 5 ∧ Talk a ⟨w.sockName.sin_addr, port x⟩ x 5 s)
    (hhost : me.sin_addr = w.sockName.sin_addr) (ht : Talk a me x k s)
    (hpc : a.res.pc = .blocked stage pc) (hl : ∀ y, y ≠ x → AtRest (l y))
    (hm : ListenerMoves a.child me x k q took k')
    (hx : (k = l x ∧ port x = me.sin_port ∧ upLo k' ≤ r ∧ r ≤ p x ∧
        Ranked (fun d r => SentAs d (upMsg r)) r (p x) (w.links x).up) ∨
      (k' = 0 ∧ l x = 5)) :
    ∃ l', Serves (w.settle (a.behind q x took) q.out) p l' port := by
  have ht' := ht.moves hm
  have hk : k ≤ 4 := (hpc ▸ ht.stands).busy.2.2
  obtain ⟨n, hn⟩ := hm.sent
  have hposted := posted_replicate w.links hn
  obtain ⟨lx, hlx, hkx, hrest, hlink⟩ := (hlinks x).answered hk hm.near hx n
  refine ⟨Function.update l x lx, ?_⟩
  have hlinks' : ∀ z, LinkAt w.sockName.sin_addr (port z) (p z) (Function.update l x lx z)
      (posted w.links q.out z) := by
    rw [hposted]
    exact forall_updated (P := fun z => LinkAt w.sockName.sin_addr (port z) (p z)) hlinks hlink
  have hserved' : ∀ b ∈ w.served, ∃ z s, Function.update l x lx z = 5 ∧
      Talk b ⟨w.sockName.sin_addr, port z⟩ z 5 s := by
    intro b hb
    obtain ⟨z, s, hz, hb⟩ := hserved b hb
    refine ⟨z, s, ?_, hb⟩
    by_cases hzx : z = x
    · subst hzx
      rw [Function.update_self]
      exact hlx hz
    · rw [Function.update_of_ne hzx]
      exact hz
  have hothers : ∀ y, y ≠ x → AtRest (Function.update l x lx y) := fun y hy => by
    rw [Function.update_of_ne hy]
    exact hl y hy
  have hstands := hm.stands
  cases hq : q.pc with
  | blocked stage' pc' =>
    have hsettle : w.settle (a.behind q x took) q.out = { w with
        serving := some (a.behind q x took)
        links := posted w.links q.out } := by
      simp only [Listening.settle, Accept.behind, ApiRes.after, hq]
    rw [hsettle]
    refine ⟨hlinks', .talking _ me x k' rfl hhost ht' ?_ hothers, hserved'⟩
    rw [Function.update_self]
    exact hkx
  | returned ret =>
    rw [hq] at hstands
    obtain ⟨rfl, ho, hb⟩ := hstands.returned
    obtain ⟨rfl, hport⟩ := hrest rfl
    have hsettle : w.settle (a.behind q x took) q.out = { w with
        sock := q.sock, serving := none
        served := w.served ++ [a.behind q x took]
        links := posted w.links q.out } := by
      simp only [Listening.settle, Accept.behind, ApiRes.after, hq]
    rw [hsettle]
    refine ⟨hlinks', .free rfl ho.notClosing hb fun y => ?_, fun b hb => ?_⟩
    · by_cases hy : y = x
      · subst hy
        rw [Function.update_self]
        exact Or.inr rfl
      · exact hothers y hy
    · rcases List.mem_append.mp hb with hb | hb
      · exact hserved' b hb
      · rw [List.mem_singleton] at hb
        subst hb
        refine ⟨x, q.sock, Function.update_self .., ?_⟩
        have hme : me = ⟨w.sockName.sin_addr, port x⟩ := by
          rw [← hhost, hport]
        rw [← hme]
        exact ht'

/-- In the first phase, accept is in the loop of its recv. -/
theorem ListenerAt.first {child : Nat} {q : ApiPc} (h : ListenerAt child me x 0 s q) :
    q = .blocked (.acceptRecv child me) (.recvLoop 32) ∧ s.recvSeqnum_ = num 0 := by
  generalize hk : (0 : Nat) = k at h
  cases h with
  | request _ _ _ _ hs => exact ⟨rfl, hs⟩
  | _ => omega

/-- What is left over of a client that was served does not start a recv. -/
theorem ListenerAt.ignores {child : Nat} (h : ListenerAt child me x 0 s (.blocked stage pc))
    (hd : SentAs d (upMsg r)) (hr : 5 ≤ r) (e : Errno) : Refuses s e d pc := by
  obtain ⟨hpc, hs⟩ := h.first
  obtain ⟨rfl, rfl⟩ := ApiPc.blocked.inj hpc
  obtain ⟨r, rfl⟩ := Nat.exists_eq_add_of_le' hr
  intro ha
  rw [(hd.whole ha).2, hs]
  exact ⟨show (1 : UInt16) ≠ num 0 by decide, noEos_ack 1, noFin_ack 1⟩

/-- The first datagram sets the endpoint. -/
theorem apiResume_unheard (h : s.hasEndpoint_ = false) (stage : Stage) (L : Nat) (e : Errno)
    (d : List UInt8) (x : SockaddrIn) :
    apiResume s stage (.recvLoop L) (.datagram e d x) =
      apiResume (s.setEndpoint x) stage (.recvLoop L) (.datagram e d x) := by
  have hraw : s.rawrecv (.datagram e d x) = (s.setEndpoint x).rawrecv (.datagram e d x) := by
    simp [RcsT.rawrecv, RcsT.setEndpoint, h]
  simp only [apiResume, resume, RcsT.recvPass, hraw]

theorem receive_eq (hs : w.serving = some a) (hpc : a.res.pc = .blocked stage pc) (x : SockaddrIn)
    (o : RecvFrom) : w.receive x o = some (w.settle
      (a.behind (apiResume a.res.sock stage pc o) x (received a.res.sock pc o))
      (apiResume a.res.sock stage pc o).out) := by
  simp only [Listening.receive, hs, hpc]

/-- Any port will do for a client that was not heard of before. -/
theorem ports_early {host : UInt32} {links : SockaddrIn → Link} {served : List Accept}
    (hlinks : ∀ z, LinkAt host (port z) (p z) (l z) (links z))
    (hserved : ∀ b ∈ served, ∃ z s, l z = 5 ∧ Talk b ⟨host, port z⟩ z 5 s) (h0 : l y = 0)
    (port' : UInt16) :
    (∀ z, LinkAt host (Function.update port y port' z) (p z) (l z) (links z)) ∧
      ∀ b ∈ served, ∃ z s, l z = 5 ∧ Talk b ⟨host, Function.update port y port' z⟩ z 5 s := by
  have hport : ∀ z, l z ≠ 0 → Function.update port y port' z = port z := fun z hz =>
    Function.update_of_ne (fun hzy => hz (by rw [hzy]; exact h0)) _ _
  refine ⟨fun z => ?_, fun b hb => ?_⟩
  · by_cases hz : l z = 0
    · have h := hlinks z
      rw [hz] at h ⊢
      exact h.early _
    · rw [hport z hz]
      exact hlinks z
  · obtain ⟨z, s, hz, hb⟩ := hserved b hb
    refine ⟨z, s, hz, ?_⟩
    rw [hport z (by omega)]
    exact hb

/-- The listener reads a datagram of `y`. -/
theorem Serves.hears {rest : List (List UInt8)} {e : Errno} (h : Serves w p l port)
    (hup : (w.links y).up = d :: rest)
    (hok : ∀ a ∈ w.serving, a.res.sock.hasEndpoint_ = true → y ≠ a.res.sock.endPoint_ →
      a.Declines e d)
    (hstep : (w.setLink y { w.links y with up := rest }).receive y (.datagram e d y) = some w') :
    ∃ l' port', Serves w' p l' port' := by
  obtain ⟨r, hd, hlo, hr, hrest, hlink⟩ := (h.links y).pops hup
  let w0 := w.setLink y { w.links y with up := rest }
  have hy0 : w0.links y = { w.links y with up := rest } := Function.update_self ..
  have hlinks : ∀ z, LinkAt w0.sockName.sin_addr (port z) (p z) (l z) (w0.links z) :=
    (Function.forall_update_iff w.links fun z =>
      LinkAt w.sockName.sin_addr (port z) (p z) (l z)).mpr ⟨hlink, fun z _ => h.links z⟩
  have hrest' : Ranked (fun d r => SentAs d (upMsg r)) r (p y) (w0.links y).up := hy0 ▸ hrest
  have hheard : downLo r ≤ l y := le_trans (downLo_mono hr) (h.links y).heard
  cases h.listener with
  | free hs =>
    rw [show Listening.receive _ _ _ = none by simp only [Listening.receive, Listening.setLink, hs]]
      at hstep
    cases hstep
  | waiting a me hs hhost hno ht hl =>
    have hstands := (ht y).stands
    obtain ⟨hpc, _⟩ := hstands.first
    rw [hpc] at hstands
    rw [receive_eq (w := w0) hs hpc, apiResume_unheard hno, Option.some.injEq] at hstep
    rcases hl y with h0 | h5
    · -- a client that was not heard of before
      obtain ⟨hlinks', hserved⟩ := ports_early hlinks h.served h0 me.sin_port
      obtain ⟨k', hk', hm⟩ := hstands.hears hd (Nat.zero_le r) (h0 ▸ hheard) e
      obtain ⟨l', hl'⟩ := Serves.answers hlinks' hserved hhost (ht y) hpc (fun z _ => hl z) hm
        (Or.inl ⟨h0.symm, Function.update_self .., hk', hr, hrest'⟩)
      exact ⟨l', _, hstep ▸ hl'⟩
    · -- one that was served
      rw [h5] at hlo
      have hm := hstands.refuses hd (hstands.ignores hd hlo e) y
      obtain ⟨l', hl'⟩ := Serves.answers (r := 0) hlinks h.served hhost (ht y) hpc
        (fun z _ => hl z) hm (Or.inr ⟨rfl, h5⟩)
      exact ⟨l', port, hstep ▸ hl'⟩
  | talking a me x k hs hhost ht hx hl =>
    have hstands := ht.stands
    cases hpc : a.res.pc with
    | returned ret =>
      rw [show Listening.receive _ _ _ = none by
        simp only [Listening.receive, Listening.setLink, hs, hpc]] at hstep
      cases hstep
    | blocked stage pc =>
      rw [hpc] at hstands
      rw [receive_eq (w := w0) hs hpc, Option.some.injEq] at hstep
      obtain ⟨hopen, hend, _⟩ := hstands.busy
      by_cases hy : y = x
      · subst hy
        rcases hx with ⟨hk, hport⟩ | ⟨rfl, h5⟩
        · obtain ⟨k', hk', hm⟩ := hstands.hears hd (hk ▸ hlo) (hk ▸ hheard) e
          obtain ⟨l', hl'⟩ := Serves.answers hlinks h.served hhost ht hpc hl hm
            (Or.inl ⟨hk, hport, hk', hr, hrest'⟩)
          exact ⟨l', port, hstep ▸ hl'⟩
        · rw [h5] at hlo
          have hm := hstands.refuses hd (hstands.ignores hd hlo e) y
          obtain ⟨l', hl'⟩ := Serves.answers (r := 0) hlinks h.served hhost ht hpc hl hm
            (Or.inr ⟨rfl, h5⟩)
          exact ⟨l', port, hstep ▸ hl'⟩
      · -- a datagram from elsewhere
        have hdecl := hok a hs hopen.connected (hend ▸ hy)
        rw [Accept.Declines, hpc] at hdecl
        have hm := hstands.refuses hd hdecl y
        have hnil : received a.res.sock pc (.datagram e d y) = [] :=
          List.self_eq_append_right.mp hm.took
        rw [hnil] at hstep hm
        have hnobody : ∀ q, a.behind q y [] = a.behind q x [] := fun q => rfl
        rw [hnobody] at hstep
        obtain ⟨l', hl'⟩ := Serves.answers hlinks h.served hhost ht hpc hl hm (by
          rcases hx with ⟨hk, hport⟩ | ⟨hk, h5⟩
          · exact Or.inl ⟨hk, hport, le_refl _, hk ▸ (hlinks x).said, hk ▸ (hlinks x).up⟩
          · exact Or.inr ⟨hk, h5⟩)
        exact ⟨l', port, hstep ▸ hl'⟩

/-- The listener's timer fires. -/
theorem Serves.timer {x' : SockaddrIn} (h : Serves w p l port) (hs : w.serving = some a)
    (htime : a.res.sock.timeout ≠ 0) (hok : a.Undisturbed)
    (hstep : w.receive x' (.error .EAGAIN) = some w') : ∃ l', Serves w' p l' port := by
  cases h.listener with
  | free hnone =>
    rw [hnone] at hs
    cases hs
  | waiting b me hb hhost hno ht hl =>
    obtain rfl := Option.some.inj (hs.symm.trans hb)
    exact absurd (ht w.sockName).stands.timerless htime
  | talking b me x k hb hhost ht hx hl =>
    obtain rfl := Option.some.inj (hs.symm.trans hb)
    have hstands := ht.stands
    cases hpc : a.res.pc with
    | returned ret =>
      rw [show Listening.receive _ _ _ = none by simp only [Listening.receive, hs, hpc]] at hstep
      cases hstep
    | blocked stage pc =>
      rw [hpc] at hstands
      rw [receive_eq hs hpc, Option.some.injEq] at hstep
      have hfrom : ∀ L ack response, pc = .finalizeRecv L ack response →
          a.res.sock.fromEndpoint_ = x := by
        rintro L ack response rfl
        rw [Accept.Undisturbed, hpc] at hok
        exact hok.trans hstands.busy.2.1
      obtain ⟨k', hk', hm⟩ := hstands.timer htime hfrom
      have hnil : received a.res.sock pc (.error .EAGAIN) = [] := by cases pc <;> rfl
      rw [hnil] at hstep
      have hnobody : ∀ q, a.behind q x' [] = a.behind q x [] := fun q => rfl
      rw [hnobody] at hstep
      obtain ⟨l', hl'⟩ := Serves.answers h.links h.served hhost ht hpc hl hm (by
        rcases hx with ⟨hk, hport⟩ | ⟨rfl, _⟩
        · exact Or.inl ⟨hk, hport, hk', hk ▸ (h.links x).said, hk ▸ (h.links x).up⟩
        · exact absurd hstands.timerless htime)
      exact ⟨l', hstep ▸ hl'⟩

/-- A call of accept starts. -/
theorem Serves.accepts {fd : Nat} {bind : SockaddrIn → Bool} (h : Serves w p l port)
    (hbound : (mybind fd { w.sockName with sin_port := 0 } bind).1 = 0)
    (hstep : w.accept fd bind = some w') : Serves w' p l port := by
  obtain ⟨_, me, hme⟩ : ∃ b me, mybind fd { w.sockName with sin_port := 0 } bind = (b, me) :=
    ⟨_, _, rfl⟩
  rw [hme] at hbound
  subst hbound
  simp only [Listening.accept, hme, Option.ite_none_right_eq_some, Option.some.injEq,
    if_true] at hstep
  obtain ⟨⟨hnone, hlistens⟩, rfl⟩ := hstep
  rw [Option.isNone_iff_eq_none] at hnone
  cases h.listener with
  | waiting b _ hs =>
    rw [hs] at hnone
    cases hnone
  | talking b _ _ _ hs =>
    rw [hs] at hnone
    cases hnone
  | free _ hc hb hl =>
    have hr : apiStart w.sock (.accept w.sNextId me) =
        ⟨{ w.sock with timeout := 0, hasEndpoint_ := false, recvSeqnum_ := 0 },
          [.io (.setTimeout w.sock.ucpSocket_ 0)],
          .blocked (.acceptRecv w.sNextId me) (.recvLoop 32)⟩ := by
      simp [apiStart, hlistens, accept, RcsT.recv, RcsT.recvWhile, RcsT.setTimeout, hc, acceptMid,
        ApiRes.after]
    have hnothing : posted w.links [.io (.setTimeout w.sock.ucpSocket_ 0)] = w.links := by
      funext z
      exact congrArg (fun ds => { w.links z with down := ds }) (List.append_nil _)
    rw [hr]
    refine ⟨?_, .waiting _ me rfl (mybind_bound hme).2 rfl (fun x => ?_) hl, h.served⟩
    · intro z
      show LinkAt _ _ _ _ (posted w.links _ z)
      rw [hnothing]
      exact h.links z
    · exact ⟨rfl, .request 0 ⟨hc, rfl⟩ rfl (Nat.zero_le 1) rfl (hb.has _) rfl, rfl,
        fun q hq => absurd hq List.not_mem_nil, rfl⟩

/-- A link changes. -/
theorem Serves.relinks {k' : Link} {px : Nat} (h : Serves w p l port)
    (hk : LinkAt w.sockName.sin_addr (port x) px (l x) k') :
    Serves (w.setLink x k') (Function.update p x px) l port where
  links := forall_updated (P := fun z q => LinkAt w.sockName.sin_addr (port z) q (l z)) h.links hk
  listener := by
    cases h.listener with
    | free hs hc hb hl => exact .free hs hc hb hl
    | waiting a me hs hhost hno ht hl => exact .waiting a me hs hhost hno ht hl
    | talking a me x k hs hhost ht hx hl => exact .talking a me x k hs hhost ht hx hl
  served := h.served

/-- What a step keeps. -/
theorem Serves.step {act : ListeningAct} (h : Serves w p l port) (hok : apart w act)
    (hstep : w.step act = some w') : ∃ p' l' port', Serves w' p' l' port' := by
  cases act with
  | accept fd bind => exact ⟨p, l, port, h.accepts hok hstep⟩
  | connect x addr =>
    simp only [Listening.step, Option.ite_none_right_eq_some, Option.some.injEq] at hstep
    obtain ⟨⟨hpc, _⟩, rfl⟩ := hstep
    obtain ⟨p', hlink⟩ := (h.links x).connects hpc addr hok
    exact ⟨_, l, port, h.relinks hlink⟩
  | hear x errno =>
    simp only [Listening.step] at hstep
    split at hstep
    next => cases hstep
    next d rest hup =>
      obtain ⟨l', port', h'⟩ := h.hears hup (fun a ha hc hx => hok a ha hc hx d (by rw [hup]; rfl))
        hstep
      exact ⟨p, l', port', h'⟩
  | timer =>
    simp only [Listening.step] at hstep
    split at hstep
    next => cases hstep
    next a hs =>
      rw [Option.ite_none_right_eq_some] at hstep
      obtain ⟨l', h'⟩ := h.timer hs hstep.1 (hok a hs) hstep.2
      exact ⟨p, l', port, h'⟩
  | clientHear x errno =>
    simp only [Listening.step] at hstep
    split at hstep
    next => cases hstep
    next d rest hdown =>
      have hlink := h.links x
      simp only [Listening.clientReceive, Listening.setLink, Function.update_self,
        Function.update_idem] at hstep
      split at hstep
      next stage pc hpc =>
        obtain ⟨r, hd, hlo, hr, hrest⟩ := (hdown ▸ hlink.down).pop
        have hclient := hlink.client
        rw [hpc] at hclient
        obtain ⟨p', hp', hm⟩ := hclient.hears hd hlo (le_trans (upLo_mono hr) hlink.said) errno
          w.sockName
        rw [← Option.some.inj hstep]
        exact ⟨_, l, port, h.relinks (hlink.runs hm hp' hr hrest)⟩
      next => cases hstep
  | clientTimer x =>
    simp only [Listening.step, Option.ite_none_right_eq_some, Listening.clientReceive] at hstep
    obtain ⟨_, hstep⟩ := hstep
    split at hstep
    next stage pc hpc =>
      have hlink := h.links x
      have hclient := hlink.client
      rw [hpc] at hclient
      obtain ⟨p', hp', hm⟩ := hclient.timer
      rw [← Option.some.inj hstep]
      exact ⟨_, l, port, h.relinks (hlink.runs hm hp' hlink.heard hlink.down)⟩
    next => cases hstep
  | lose x way i =>
    rw [← Option.some.inj hstep]
    exact ⟨_, l, port, h.relinks ((h.links x).alters way fun _ _ _ _ _ hds => hds.loses i)⟩
  | cut x way i k =>
    rw [← Option.some.inj hstep]
    exact ⟨_, l, port, h.relinks ((h.links x).alters way fun _ _ _ _ htake hds =>
      hds.damage i fun d r hd => htake d r k hd)⟩

/-- At the start, nobody has said anything. -/
theorem serves_start (h : Ready w) : Serves w (fun _ => 0) (fun _ => 0) (fun _ => 0) where
  links x := by
    obtain ⟨hpc, hup, hdown, hc, hb⟩ := h.links x
    exact
      { client := by
          rw [hpc]
          exact .idle hc (hb ▸ blank_new)
        said := le_refl 0
        heard := le_refl 0
        up := hup ▸ ranked_nil
        down := hdown ▸ ranked_nil }
  listener := .free h.serving h.notClosing (h.buffer ▸ blank_new) fun _ => Or.inl rfl
  served := by
    rw [h.served]
    exact fun a ha => absurd ha List.not_mem_nil

/-- A call that has returned agrees with its client. -/
theorem Serves.agreed (h : Serves w p l port) (ha : a ∈ w.served) : ∃ x, Agreed w a x := by
  obtain ⟨x, s, _, ht⟩ := h.served a ha
  refine ⟨x, ht.ends, ?_, ht.sent, ht.taken, fun hpc => ?_⟩
  · have hstands := ht.stands
    generalize hk : (5 : Nat) = k at hstands
    generalize hq : a.res.pc = q at hstands
    cases hstands with
    | served => rfl
    | request => omega
    | finalizing => cases hk
    | port => omega
  · have hclient := (h.links x).client
    rw [hpc] at hclient
    generalize hq : some (ApiPc.returned (.connect 0)) = q at hclient
    generalize (w.links x).sock = s' at hclient ⊢
    generalize p x = px at hclient
    cases hclient with
    | connected hx =>
      rw [hx]
      exact ht.bound
    | _ => cases hq

end Serves

/-- In every run that keeps the clients apart, each call of accept that has returned was about one
    client: its endpoint, its address, the destination of all answers and of the port, and the
    request are those of this client, and the endpoint of this client, when its connect has
    returned, is the address of the new socket. -/
theorem agreement {w0 w : Listening} (h0 : Ready w0) (h : Reach Listening.step apart w0 w) :
    ∀ a ∈ w.served, ∃ x, Agreed w a x := by
  obtain ⟨p, l, port, hs⟩ := h.invariant (I := fun w => ∃ p l port, Serves w p l port)
    ⟨_, _, _, serves_start h0⟩ fun _ _ _ ⟨_, _, _, hs⟩ hok hstep => hs.step hok hstep
  exact fun a ha => hs.agreed ha

/-- A listener, and a client at every address. -/
def listening : Listening where
  sockName := ⟨1, 80⟩
  sock := { RcsT.new 3 ⟨0, 0⟩ with isListenerSocket_ := true }
  sNextId := 1
  serving := none
  served := []
  links _ := ⟨RcsT.new 4 ⟨0, 0⟩, none, [], []⟩

theorem ready_listening : Ready listening :=
  ⟨rfl, rfl, rfl, rfl, fun _ => ⟨rfl, rfl, rfl, rfl, rfl⟩⟩

/-- The client at 2 is served; a fragment of the client at 3 comes behind its first one. -/
def servedRun : List ListeningAct :=
  [.accept 5 fun _ => true, .connect ⟨2, 0⟩ ⟨1, 80⟩, .connect ⟨3, 0⟩ ⟨1, 80⟩,
    .hear ⟨2, 0⟩ .EAGAIN, .hear ⟨3, 0⟩ .EAGAIN, .lose ⟨2, 0⟩ .down 1, .clientHear ⟨2, 0⟩ .EAGAIN,
    .hear ⟨2, 0⟩ .EAGAIN, .clientHear ⟨2, 0⟩ .EAGAIN, .timer, .clientHear ⟨2, 0⟩ .EAGAIN,
    .hear ⟨2, 0⟩ .EAGAIN, .clientHear ⟨2, 0⟩ .EAGAIN, .hear ⟨2, 0⟩ .EAGAIN, .clientTimer ⟨2, 0⟩]

theorem agreement_served : ∃ w, Reach Listening.step apart listening w ∧ w.served ≠ [] ∧
    (w.links ⟨2, 0⟩).pc = some (.returned (.connect 0)) ∧ ∀ a ∈ w.served, ∃ x, Agreed w a x := by
  have hrun : ((exec Listening.step apart listening servedRun).map fun w =>
      (w.served.isEmpty, (w.links ⟨2, 0⟩).pc)) =
      some (false, some (.returned (.connect 0))) := by
    decide +kernel
  obtain ⟨w, hw, hres⟩ := Option.map_eq_some_iff.mp hrun
  obtain ⟨hserved, hpc⟩ := Prod.mk.inj hres
  have hreach := reach_of_exec hw
  exact ⟨w, hreach, fun h => by simp [h] at hserved, hpc, agreement ready_listening hreach⟩

/-- The fragment of the client at 3 comes while finalizeRecv waits. -/
def dividedRun : List ListeningAct :=
  [.accept 5 fun _ => true, .connect ⟨2, 0⟩ ⟨1, 80⟩, .connect ⟨3, 0⟩ ⟨1, 80⟩,
    .hear ⟨2, 0⟩ .EAGAIN, .clientHear ⟨2, 0⟩ .EAGAIN, .hear ⟨2, 0⟩ .EAGAIN, .hear ⟨3, 0⟩ .EAGAIN,
    .clientHear ⟨2, 0⟩ .EAGAIN, .clientHear ⟨2, 0⟩ .EAGAIN, .hear ⟨2, 0⟩ .EAGAIN,
    .clientHear ⟨2, 0⟩ .EAGAIN, .hear ⟨2, 0⟩ .EAGAIN]

/-- The answers and the port go to the client at 2, and the endpoint of the new socket is the
    client at 3. -/
theorem divided : ¬ ∀ w0 w : Listening, Ready w0 → Reach Listening.step (fun _ _ => True) w0 w →
    ∀ a ∈ w.served, ∃ x, Agreed w a x := by
  intro h
  have hrun : ((exec Listening.step (fun _ _ => True) listening dividedRun).map fun w =>
      w.served.map fun a => (childEnds a.res.out, (sendings a.res.out).map Prod.snd)) =
      some [([(1, ⟨3, 0⟩)], List.replicate 4 ⟨2, 0⟩)] := by
    decide +kernel
  obtain ⟨w, hw, hres⟩ := Option.map_eq_some_iff.mp hrun
  obtain ⟨a, ha, hfa⟩ : ∃ a ∈ w.served, (childEnds a.res.out, (sendings a.res.out).map Prod.snd) =
      ([(1, ⟨3, 0⟩)], List.replicate 4 ⟨2, 0⟩) :=
    List.mem_map.mp (hres ▸ List.mem_singleton_self _)
  obtain ⟨hends, hsent⟩ := Prod.mk.inj hfa
  obtain ⟨x, hx⟩ := h listening w ready_listening (reach_of_exec hw) a ha
  have hend : x = ⟨3, 0⟩ := by
    have hend := hx.endpoint
    rw [hends, List.cons.injEq, Prod.mk.injEq] at hend
    exact hend.1.2.symm
  have hmem : (⟨2, 0⟩ : SockaddrIn) ∈ (sendings a.res.out).map Prod.snd := by
    rw [hsent]
    exact List.mem_cons_self
  obtain ⟨q, hq, hq2⟩ := List.mem_map.mp hmem
  have hdest := hx.sent q hq
  rw [hq2, hend] at hdest
  exact absurd hdest (by decide)

end Ece358.Rcs
