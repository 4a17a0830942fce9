import Summerset.Server.Types
import Summerset.Utils.Bitmap

/-!
# Waiting until a lease grant is revoked (`protocols/multipaxos/leaderlease.rs`)

`ensure_lease_revoked(peer)` (lines 23-55) is how the leader waits until it
no longer grants a lease to `peer`. While `grant_set().get(peer)?` holds, it
takes the lease manager's actions one by one and hands each to
`handle_lease_action` (lines 60-94), which forwards lease messages to the
transport and answers whether the action may have shrunk the grant set
(`GrantRemoved`, `GrantTimeout`, `HigherNumber`). Only after such an action is
the grant set read again; after any other the leader broadcasts a heartbeat.

The lease manager and the transport hub are not under `src/`: what they
answer is the argument. Each `get_action()` answers an error or an event
(`LeaseEvent`): the action, what the transport answered to the lease message
and to the heartbeat it caused, and the grant set `grant_set()` reads once it
is handled. Every one of these calls is followed by `?`. A call returns what
it sent, in order, and its result; it is `none` when the answers run out
first, that is, while it is still waiting.

* `revokeLoop_ok_iff`, `ensureLeaseRevoked_ok_iff`: the call returns `Ok`
  exactly when its last read of the grant set, made right after a possible
  shrink, no longer finds `peer`, every earlier read having found it and
  every earlier send having gone through; what it sent is, action by action
  up to that one, the forwarded lease message and a heartbeat after each
  action that was no possible shrink (`RevokedAfter`);
* `ensureLeaseRevoked_returns`: once the lease manager reports a possible
  shrink after which `peer` is no longer granted, the call has returned.

So the call's postcondition holds only at the moment of its last read: an
action that shrinks the grant set without being a possible shrink (such as
`NextExpiration`) is answered by a heartbeat, and the wait goes on.
-/

namespace Summerset.MultiPaxos

open Summerset.Utils

/-- Modelled from the spec: `LeaseAction`, with the variants of section 4.5
(the type is not under `src/`). `Msg` is the lease message, which the loop
only forwards. -/
inductive LeaseAction (Msg : Type) where
  | sendLeaseMsg (peer : ReplicaId) (msg : Msg)
  | bcastLeaseMsgs (peers : Bitmap) (msg : Msg)
  | grantTimeout (peer : ReplicaId)
  | grantRemoved (peer : ReplicaId)
  | higherNumber
  | nextExpiration (when : Nat)
  deriving DecidableEq, Repr

/-- The `PeerMsg::Heartbeat` of lines 41-46: `bal_max_seen`, `commit_bar`,
`exec_bar` and `snap_bar`, which the loop does not change. -/
structure Heartbeat where
  ballot : Nat
  commitBar : Nat
  execBar : Nat
  snapBar : Nat
  deriving DecidableEq, Repr

/-- What the loop sends, in order. -/
inductive LeaseEffect (Msg : Type) where
  /-- `transport_hub.send_lease_msg(0, lease_num, msg, peer)` -/
  | sendLeaseMsg (purpose leaseNum : Nat) (msg : Msg) (peer : ReplicaId)
  /-- `transport_hub.bcast_lease_msg(0, lease_num, msg, Some(peers))` -/
  | bcastLeaseMsg (purpose leaseNum : Nat) (msg : Msg) (peers : Option Bitmap)
  /-- `transport_hub.bcast_msg(PeerMsg::Heartbeat {..}, None)` -/
  | bcastHeartbeat (hb : Heartbeat)
  deriving DecidableEq, Repr

/-- One `lease_manager.get_action()` that returned: the lease number and the
action, what the transport hub answered to the lease message the action
makes the loop send (if any) and to the heartbeat broadcast after it (if
any), and the grant set `grant_set()` reads once the action is handled. -/
structure LeaseEvent (Msg : Type) where
  leaseNum : Nat
  action : LeaseAction Msg
  msgSent : Except String Unit
  hbSent : Except String Unit
  grantSet : Bitmap
  deriving Repr

variable {Msg : Type}

/-- `handle_lease_action`, the transport answering `sent` to the lease
message it forwards: whether the action may mean that the grant set shrunk,
and what it sent.
mirrors src/src/protocols/multipaxos/leaderlease.rs:60-94 -/
def handleLeaseAction (leaseNum : Nat) (sent : Except String Unit) :
    LeaseAction Msg → Except String (Bool × List (LeaseEffect Msg))
  | .sendLeaseMsg peer msg => do sent; pure (false, [.sendLeaseMsg 0 leaseNum msg peer])
  | .bcastLeaseMsgs peers msg => do sent; pure (false, [.bcastLeaseMsg 0 leaseNum msg (some peers)])
  | .grantRemoved _ | .grantTimeout _ | .higherNumber => pure (true, [])
  | _ => pure (false, [])

/-- Puts what was sent earlier in the call before what a later part sent. -/
def sentBefore (effs : List (LeaseEffect Msg)) :
    Option (List (LeaseEffect Msg) × Except String Unit) →
      Option (List (LeaseEffect Msg) × Except String Unit) :=
  Option.map fun r => (effs ++ r.1, r.2)

/-- The `while` test of line 27, `grant_set().get(peer)?`; `body` is the rest
of the call when it holds. -/
def whileGranted (peer : ReplicaId) (grantSet : Bitmap)
    (body : Option (List (LeaseEffect Msg) × Except String Unit)) :
    Option (List (LeaseEffect Msg) × Except String Unit) :=
  match grantSet.get peer with
  | .error err => some ([], .error err)
  | .ok false => some ([], .ok ())
  | .ok true => body

/-- The inner `loop`, with the `while` test after each `break`.
mirrors src/src/protocols/multipaxos/leaderlease.rs:27-52 -/
def revokeLoop (peer : ReplicaId) (hb : Heartbeat) :
    List (Except String (LeaseEvent Msg)) → Option (List (LeaseEffect Msg) × Except String Unit)
  | [] => none
  | .error err :: _ => some ([], .error err)
  | .ok ev :: evs =>
    match handleLeaseAction ev.leaseNum ev.msgSent ev.action with
    | .error err => some ([], .error err)
    | .ok (true, effs) => sentBefore effs (whileGranted peer ev.grantSet (revokeLoop peer hb evs))
    | .ok (false, effs) =>
      match ev.hbSent with
      | .error err => some (effs, .error err)
      | .ok () => sentBefore (effs ++ [.bcastHeartbeat hb]) (revokeLoop peer hb evs)

/-- `ensure_lease_revoked(peer)`, the grant set first read being `grantSet`.
mirrors src/src/protocols/multipaxos/leaderlease.rs:23-55 -/
def ensureLeaseRevoked (peer : ReplicaId) (hb : Heartbeat) (grantSet : Bitmap)
    (evs : List (Except String (LeaseEvent Msg))) :
    Option (List (LeaseEffect Msg) × Except String Unit) :=
  whileGranted peer grantSet (revokeLoop peer hb evs)

/-! ## What the wait is for -/

/-- The loop reads the grant set again after `ev`: its action is a possible
shrink. -/
def rechecks (ev : LeaseEvent Msg) : Bool :=
  match ev.action with
  | .grantRemoved _ | .grantTimeout _ | .higherNumber => true
  | _ => false

/-- The lease message the action of `ev` makes the loop forward, if any. -/
def leaseMsgs (ev : LeaseEvent Msg) : List (LeaseEffect Msg) :=
  match ev.action with
  | .sendLeaseMsg peer msg => [.sendLeaseMsg 0 ev.leaseNum msg peer]
  | .bcastLeaseMsgs peers msg => [.bcastLeaseMsg 0 ev.leaseNum msg (some peers)]
  | _ => []

/-- What the loop sends for `ev`: its lease message, then a heartbeat unless
the grant set is read again. -/
def eventEffects (hb : Heartbeat) (ev : LeaseEvent Msg) : List (LeaseEffect Msg) :=
  leaseMsgs ev ++ if rechecks ev then [] else [.bcastHeartbeat hb]

/-- The transport took what the loop sent for `ev`: the lease message, if
there is one, and the heartbeat, if one is sent. -/
def Delivered (ev : LeaseEvent Msg) : Prop :=
  (leaseMsgs ev ≠ [] → ev.msgSent = .ok ()) ∧ (rechecks ev = false → ev.hbSent = .ok ())

/-- The wait ends with the events `pre ++ [ev]`: the lease manager answered
each of them, the transport took what was sent for those of `pre`, every
read of the grant set after an event of `pre` still found `peer`, the read
after `ev` no longer does, and `effs` is what handling these events sends. -/
def RevokedAfter (peer : ReplicaId) (hb : Heartbeat) (evs : List (Except String (LeaseEvent Msg)))
    (effs : List (LeaseEffect Msg)) : Prop :=
  ∃ pre ev post, evs = pre.map .ok ++ .ok ev :: post ∧
    (∀ e ∈ pre, Delivered e ∧ (rechecks e = true → e.grantSet.get peer = .ok true)) ∧
    rechecks ev = true ∧ ev.grantSet.get peer = .ok false ∧
    effs = (pre ++ [ev]).flatMap (eventEffects hb)

variable {peer : ReplicaId} {hb : Heartbeat}

@[simp]
theorem sentBefore_eq_some {effs effs' : List (LeaseEffect Msg)} {r : Except String Unit}
    {o : Option (List (LeaseEffect Msg) × Except String Unit)} :
    sentBefore effs o = some (effs', r) ↔ ∃ effs'', o = some (effs'', r) ∧ effs' = effs ++ effs'' := by
  rcases o with _ | ⟨l, r'⟩
  · simp [sentBefore]
  · simp only [sentBefore, Option.map_some', Option.some.injEq, Prod.mk.injEq]
    constructor
    · rintro ⟨rfl, rfl⟩
      exact ⟨l, ⟨rfl, rfl⟩, rfl⟩
    · rintro ⟨_, ⟨rfl, rfl⟩, rfl⟩
      exact ⟨rfl, rfl⟩

/-- Past the transport, `handle_lease_action` answers `rechecks` and sends
the lease message. -/
theorem handleLeaseAction_delivered {ev : LeaseEvent Msg}
    (h : leaseMsgs ev ≠ [] → ev.msgSent = .ok ()) :
    handleLeaseAction ev.leaseNum ev.msgSent ev.action = .ok (rechecks ev, leaseMsgs ev) := by
  unfold handleLeaseAction rechecks leaseMsgs at *
  split <;> simp_all

theorem delivered_of_rechecks {ev : LeaseEvent Msg} (h : rechecks ev = true) : Delivered ev := by
  refine ⟨fun hm => absurd ?_ hm, fun h' => absurd h (by rw [h']; decide)⟩
  unfold rechecks at h; unfold leaseMsgs; split <;> simp_all

theorem revokeLoop_delivered (ev : LeaseEvent Msg) (evs : List (Except String (LeaseEvent Msg)))
    (hd : Delivered ev) :
    revokeLoop peer hb (.ok ev :: evs) =
      if rechecks ev then sentBefore (eventEffects hb ev)
        (whileGranted peer ev.grantSet (revokeLoop peer hb evs))
      else sentBefore (eventEffects hb ev) (revokeLoop peer hb evs) := by
  simp only [revokeLoop, handleLeaseAction_delivered hd.1, eventEffects]
  cases hr : rechecks ev
  · simp [hd.2 hr]
  · simp

/-- A send the transport refuses ends the loop with its error. -/
theorem revokeLoop_undelivered {ev : LeaseEvent Msg} (evs : List (Except String (LeaseEvent Msg)))
    (hd : ¬ Delivered ev) : ∃ effs err, revokeLoop peer hb (.ok ev :: evs) = some (effs, .error err) := by
  by_cases hm : leaseMsgs ev ≠ [] → ev.msgSent = .ok ()
  · -- the transport refused the heartbeat
    obtain ⟨hr, hn⟩ := Classical.not_imp.mp fun h => hd ⟨hm, h⟩
    cases hs : ev.hbSent with
    | error err => simp [revokeLoop, handleLeaseAction_delivered hm, hr, hs]
    | ok u => exact absurd hs hn
  · -- the transport refused the lease message
    obtain ⟨hne, hsent⟩ := Classical.not_imp.mp hm
    cases hs : ev.msgSent with
    | ok u => exact absurd hs hsent
    | error err =>
      refine ⟨[], err, ?_⟩
      unfold leaseMsgs at hne
      simp only [revokeLoop, handleLeaseAction]
      split at hne <;> simp_all

theorem not_revokedAfter_nil {effs : List (LeaseEffect Msg)} : ¬ RevokedAfter peer hb [] effs :=
  fun ⟨pre, _, _, h, _⟩ => by simp at h

theorem revokedAfter_cons {x : Except String (LeaseEvent Msg)}
    {evs : List (Except String (LeaseEvent Msg))} {effs : List (LeaseEffect Msg)} :
    RevokedAfter peer hb (x :: evs) effs ↔ ∃ ev, x = .ok ev ∧
      ((rechecks ev = true ∧ ev.grantSet.get peer = .ok false ∧ effs = eventEffects hb ev) ∨
      (Delivered ev ∧ (rechecks ev = true → ev.grantSet.get peer = .ok true) ∧
        ∃ effs', RevokedAfter peer hb evs effs' ∧ effs = eventEffects hb ev ++ effs')) := by
  constructor
  · rintro ⟨pre, ev', post, h, hpre, hr, hg, rfl⟩
    rcases pre with _ | ⟨e, pre'⟩
    · cases h
      exact ⟨ev', rfl, .inl ⟨hr, hg, by simp⟩⟩
    · simp only [List.map_cons, List.cons_append, List.cons.injEq] at h
      obtain ⟨rfl, h'⟩ := h
      obtain ⟨hd, hev⟩ := hpre e (List.mem_cons_self _ _)
      exact ⟨e, rfl, .inr ⟨hd, hev, _, ⟨pre', ev', post, h',
        fun e' he' => hpre e' (List.mem_cons_of_mem _ he'), hr, hg, rfl⟩, by simp⟩⟩
  · rintro ⟨ev, rfl, ⟨hr, hg, rfl⟩ | ⟨hd, hev, effs', ⟨pre, ev', post, rfl, hpre, hr, hg, rfl⟩, rfl⟩⟩
    · exact ⟨[], ev, evs, rfl, by simp, hr, hg, by simp⟩
    · refine ⟨ev :: pre, ev', post, rfl, ?_, hr, hg, by simp⟩
      simp only [List.mem_cons, forall_eq_or_imp]
      exact ⟨⟨hd, hev⟩, hpre⟩

/-- The loop returns `Ok` exactly when the wait ends as `RevokedAfter` says. -/
theorem revokeLoop_ok_iff {evs : List (Except String (LeaseEvent Msg))}
    {effs : List (LeaseEffect Msg)} :
    revokeLoop peer hb evs = some (effs, .ok ()) ↔ RevokedAfter peer hb evs effs := by
  induction evs generalizing effs with
  | nil => simp [revokeLoop, not_revokedAfter_nil]
  | cons x evs ih =>
    rw [revokedAfter_cons]
    rcases x with err | ev
    · simp [revokeLoop]
    by_cases hd : Delivered ev
    · rw [revokeLoop_delivered ev evs hd]
      cases hr : rechecks ev
      · simp [ih, hd, hr]
      · cases hg : ev.grantSet.get peer with
        | error err => simp [whileGranted, hg, hr]
        | ok b => cases b <;> simp [whileGranted, hg, ih, hd, hr]
    · obtain ⟨effs', err, h⟩ : ∃ effs err, revokeLoop peer hb (.ok ev :: evs) =
          some (effs, .error err) := revokeLoop_undelivered evs hd
      rw [h]
      simp only [Option.some.injEq, Prod.mk.injEq, reduceCtorEq, and_false, false_iff]
      rintro ⟨_, ⟨⟩, ⟨hr, -⟩ | ⟨hd', -⟩⟩
      exacts [hd (delivered_of_rechecks hr), hd hd']

theorem ensureLeaseRevoked_ok_iff {grantSet : Bitmap} {evs : List (Except String (LeaseEvent Msg))}
    {effs : List (LeaseEffect Msg)} :
    ensureLeaseRevoked peer hb grantSet evs = some (effs, .ok ()) ↔
      grantSet.get peer = .ok false ∧ effs = [] ∨
        grantSet.get peer = .ok true ∧ RevokedAfter peer hb evs effs := by
  unfold ensureLeaseRevoked whileGranted
  cases h : grantSet.get peer with
  | error err => simp
  | ok b =>
    cases b
    · simp [eq_comm]
    · simp [revokeLoop_ok_iff]

/-! ## Returning -/

theorem sentBefore_ne_none {effs : List (LeaseEffect Msg)}
    {o : Option (List (LeaseEffect Msg) × Except String Unit)} :
    sentBefore effs o ≠ none ↔ o ≠ none := by
  simp [sentBefore]

theorem whileGranted_ne_none {grantSet : Bitmap}
    {body : Option (List (LeaseEffect Msg) × Except String Unit)} (h : body ≠ none) :
    whileGranted peer grantSet body ≠ none := by
  unfold whileGranted
  split <;> simp [h]

/-- Whatever comes first, the loop returns once the rest of the answers make
it return. -/
theorem revokeLoop_cons_ne_none (x : Except String (LeaseEvent Msg))
    {evs : List (Except String (LeaseEvent Msg))} (h : revokeLoop peer hb evs ≠ none) :
    revokeLoop peer hb (x :: evs) ≠ none := by
  rcases x with err | ev
  · simp [revokeLoop]
  simp only [revokeLoop]
  split
  · simp
  · exact sentBefore_ne_none.mpr (whileGranted_ne_none h)
  · split
    · simp
    · exact sentBefore_ne_none.mpr h

/-- A possible shrink after which `peer` is no longer granted ends the loop. -/
theorem revokeLoop_ne_none_of_revoked {ev : LeaseEvent Msg}
    (evs : List (Except String (LeaseEvent Msg))) (hr : rechecks ev = true)
    (hg : ev.grantSet.get peer = .ok false) : revokeLoop peer hb (.ok ev :: evs) ≠ none := by
  rw [revokeLoop_delivered ev evs (delivered_of_rechecks hr)]
  simp [hr, whileGranted, hg, sentBefore]

theorem revokeLoop_returns {evs : List (Except String (LeaseEvent Msg))}
    (h : ∃ ev, .ok ev ∈ evs ∧ rechecks ev = true ∧ ev.grantSet.get peer = .ok false) :
    revokeLoop peer hb evs ≠ none := by
  induction evs with
  | nil => simp at h
  | cons x evs ih =>
    obtain ⟨ev, he, hr, hg⟩ := h
    rcases List.mem_cons.mp he with rfl | he
    · exact revokeLoop_ne_none_of_revoked evs hr hg
    · exact revokeLoop_cons_ne_none x (ih ⟨ev, he, hr, hg⟩)

/-- Once the lease manager reports a possible shrink after which `peer` is
no longer granted, `ensure_lease_revoked` has returned. -/
theorem ensureLeaseRevoked_returns {grantSet : Bitmap} {evs : List (Except String (LeaseEvent Msg))}
    (h : ∃ ev, .ok ev ∈ evs ∧ rechecks ev = true ∧ ev.grantSet.get peer = .ok false) :
    ensureLeaseRevoked peer hb grantSet evs ≠ none :=
  whileGranted_ne_none (revokeLoop_returns h)

/-- The grant set `[false, true, false]`: a lease granted to replica 1 only. -/
def grantedToOne : Bitmap := ⟨FixedBitSet.ofBits [false, true, false]⟩

/-- A schedule hint while replica 1 still holds the grant, answered by a
heartbeat the transport takes, then its grant times out and the grant set is
empty. -/
def expiryEvents : List (Except String (LeaseEvent Nat)) :=
  [.ok ⟨4, .nextExpiration 9, .ok (), .ok (), grantedToOne⟩,
    .ok ⟨4, .grantTimeout 1, .ok (), .ok (), ⟨.withCapacity 3⟩⟩]

theorem ensureLeaseRevoked_returns_expiry :
    (∃ ev, .ok ev ∈ expiryEvents ∧ rechecks ev = true ∧ ev.grantSet.get 1 = .ok false) ∧
      ensureLeaseRevoked 1 ⟨4, 2, 2, 0⟩ grantedToOne expiryEvents ≠ none :=
  have h : ∃ ev, .ok ev ∈ expiryEvents ∧ rechecks ev = true ∧ ev.grantSet.get 1 = .ok false :=
    ⟨_, List.mem_cons_of_mem _ (List.mem_singleton_self _), rfl, rfl⟩
  ⟨h, ensureLeaseRevoked_returns h⟩

/-- The heartbeat after the schedule hint, and `Ok` once the grant timed out. -/
example : ensureLeaseRevoked 1 ⟨4, 2, 2, 0⟩ grantedToOne expiryEvents =
    some ([.bcastHeartbeat ⟨4, 2, 2, 0⟩], .ok ()) := rfl

end Summerset.MultiPaxos
