import Summerset.Server.Types
import Summerset.Utils.Bitmap

/-!
# CRaft leader election (`protocols/craft/leadership.rs`)

The replica's fields that `leadership.rs` reads or writes, and its six
functions. Each function takes the replica and returns the replica after the
call with the messages it sent, in order (`Effect`), or the `Fault` it ended
with.

The components the replica drives are outside `src/`, so what they answer is
an argument of the call that asks: `do_sync_action` answers a `SyncReply` (the
results of earlier async log actions it drained, then its own result);
`peer_alive()` answers a `Bitmap`. `handle_log_result` (in `durability.rs`, not
under `src/`) is the argument `hlr`. Of the heartbeater only the hear timer's
source and the sending flag are kept; its reply counters feed only
`peer_alive()`, and its methods (`update_heard_cnt`, `kickoff_hear_timer`,
`clear_reply_cnts`, `update_bcast_cnts`) are taken to return `Ok`. The sends
to the hubs are the effects; `sendThrough` runs a call against the hubs'
answers, each send being followed by `?`.

`id`, `population` and `config` are set once by `new_and_setup` and never
written; they are the context `CRaftCtx` every function reads, apart from the
state.
-/

namespace Summerset.CRaft

open Summerset.Utils

/-- `Role`. -/
inductive Role where
  | follower
  | candidate
  | leader
  deriving DecidableEq, Repr

/-- A log entry: its term and whether a local client awaits its reply. The
coded shards and the file offset are not read by `leadership.rs`. -/
structure LogEntry where
  term : Nat
  external : Bool
  deriving DecidableEq, Repr

/-- `DurEntry`: what the durable log holds. -/
inductive DurEntry where
  | logEntry (entry : LogEntry)
  | metadata (currTerm : Nat) (votedFor : Option ReplicaId)
  deriving DecidableEq, Repr

/-- `DurEntry::pack_meta`. -/
def DurEntry.packMeta (currTerm : Nat) (votedFor : Option ReplicaId) : DurEntry :=
  .metadata currTerm votedFor

/-- The peer messages `leadership.rs` sends. -/
inductive PeerMsg where
  | appendEntries (term : Nat) (prevSlot : Nat) (prevTerm : Nat) (entries : List LogEntry)
      (leaderCommit : Nat) (lastSnap : Nat)
  | requestVote (term : Nat) (lastSlot : Nat) (lastTerm : Nat)
  deriving DecidableEq, Repr

/-- What a call sends, in order. -/
inductive Effect where
  /-- `transport_hub.send_msg(msg, peer)` -/
  | send (peer : ReplicaId) (msg : PeerMsg)
  /-- `transport_hub.bcast_msg(msg, None)` -/
  | bcast (msg : PeerMsg)
  /-- `control_hub.send_ctrl(msg)` -/
  | ctrl (msg : CtrlMsg)
  /-- `storage_hub.do_sync_action(0, action)` -/
  | logSync (action : LogAction DurEntry)
  deriving DecidableEq, Repr

/-- `ReplicaConfigCRaft`, the fields read here. -/
structure ReplicaConfigCRaft where
  disallowStepUp : Bool
  disableHbTimer : Bool
  loggerSync : Bool
  faultTolerance : Nat
  deriving DecidableEq, Repr

/-- The heartbeater's state that `leadership.rs` sets: the timeout source of
the armed hear timer (`kickoff_hear_timer(Some(peer))`) and the sending flag. -/
structure Heartbeater where
  hearSource : Option ReplicaId
  sending : Bool
  deriving DecidableEq, Repr

/-- The fields of `CRaftReplica` set once by `new_and_setup`. -/
structure CRaftCtx where
  id : ReplicaId
  population : Nat
  config : ReplicaConfigCRaft
  deriving DecidableEq, Repr

/-- `CRaftReplica`, the other fields `leadership.rs` uses. `HashMap`s are
partial functions, `votes_granted` a finite set. -/
structure CRaftReplica where
  role : Role
  currTerm : Nat
  votedFor : Option ReplicaId
  votesGranted : Finset ReplicaId
  leader : Option ReplicaId
  startSlot : Nat
  log : List LogEntry
  lastCommit : Nat
  lastSnap : Nat
  nextSlot : ReplicaId → Option Nat
  tryNextSlot : ReplicaId → Option Nat
  matchSlot : ReplicaId → Option Nat
  fullCopyMode : Bool
  heartbeater : Heartbeater

/-- What `do_sync_action` hands back. -/
structure SyncReply where
  olds : List (LogActionId × LogResult DurEntry)
  result : LogResult DurEntry

/-- `handle_log_result` as `leadership.rs` calls it. -/
abbrev LogHandler := LogActionId → LogResult DurEntry → CRaftReplica → Except Fault CRaftReplica

variable (c : CRaftCtx) (hlr : LogHandler)

/-- mirrors src/src/protocols/craft/leadership.rs:295-319 -/
def heardHeartbeat (peer : ReplicaId) (_term : Nat) (s : CRaftReplica) : CRaftReplica :=
  if !c.config.disableHbTimer then { s with heartbeater := { s.heartbeater with hearSource := some peer } }
  else s

/-- The loop over drained results: `handle_log_result`, then `heard_heartbeat`.
mirrors src/src/protocols/craft/leadership.rs:48-51 and 196-199 -/
def foldLogResults (peer : ReplicaId) (term : Nat) :
    List (LogActionId × LogResult DurEntry) → CRaftReplica → Except Fault CRaftReplica
  | [], s => .ok s
  | (oldId, oldResult) :: rest, s => do
    let s ← hlr oldId oldResult s
    foldLogResults peer term rest (heardHeartbeat c peer term s)

/-- The states in which `foldLogResults` calls `handle_log_result`. -/
def foldCallStates (peer : ReplicaId) (term : Nat) :
    List (LogActionId × LogResult DurEntry) → CRaftReplica → List CRaftReplica
  | [], _ => []
  | (oldId, oldResult) :: rest, s =>
    s :: match hlr oldId oldResult s with
      | .ok s' => foldCallStates peer term rest (heardHeartbeat c peer term s')
      | .error _ => []

/-- The meta record written at offset 0. -/
def metaWrite (s : CRaftReplica) : Effect :=
  .logSync (.write (DurEntry.packMeta s.currTerm s.votedFor) 0 c.config.loggerSync)

/-- Lines 25-31 of `check_term`: adopt `term`, forget the vote, take `peer` as
leader and refresh the hear timer. -/
def adoptTerm (peer : ReplicaId) (term : Nat) (s : CRaftReplica) : CRaftReplica :=
  heardHeartbeat c peer term
    { s with currTerm := term, votedFor := none, votesGranted := ∅, leader := some peer }

/-- Returns whether the role changed back to follower.
mirrors src/src/protocols/craft/leadership.rs:17-75 -/
def checkTerm (peer : ReplicaId) (term : Nat) (reply : SyncReply) (s : CRaftReplica) :
    Except Fault (Bool × CRaftReplica × List Effect) :=
  if term > s.currTerm then do
    let s1 := adoptTerm c peer term s
    let s2 ← foldLogResults c hlr peer term reply.olds s1
    if !reply.result.isWriteOk then
      throw (.error "unexpected log result type or failed write")
    if s2.role ≠ .follower then
      pure (true, { s2 with role := .follower, heartbeater := { s2.heartbeater with sending := false } },
        [metaWrite c s1, .ctrl (.leaderStatus false)])
    else pure (false, s2, [metaWrite c s1])
  else pure (false, s, [])

/-- mirrors src/src/protocols/craft/leadership.rs:80-139 (the fallback's
re-persisting and re-sending are left out in the source) -/
def switchAssignmentMode (toFullCopy : Bool) (s : CRaftReplica) : CRaftReplica :=
  if s.fullCopyMode = toFullCopy then s else { s with fullCopyMode := toFullCopy }

/-- The early-return condition of `become_a_candidate`. -/
def skipsCandidacy (timeoutSource : ReplicaId) (s : CRaftReplica) : Bool :=
  s.role != .follower || s.leader.any (· != timeoutSource) || c.config.disallowStepUp

/-- Lines 154-159: the new role, term, vote and vote set. -/
def startCandidacy (s : CRaftReplica) : CRaftReplica :=
  { s with role := .candidate, currTerm := s.currTerm + 1, votedFor := some c.id,
           votesGranted := {c.id} }

/-- `last_slot` and `last_term` of the RequestVote. -/
def lastSlotTerm (s : CRaftReplica) : Except Fault (Nat × Nat) := do
  let lastSlot ← checkedSub (s.startSlot + s.log.length) 1
  debugAssert (lastSlot ≥ s.startSlot) "assertion failed: last_slot >= self.start_slot"
  let entry ← index s.log (← checkedSub lastSlot s.startSlot)
  pure (lastSlot, entry.term)

/-- mirrors src/src/protocols/craft/leadership.rs:143-209 -/
def becomeACandidate (timeoutSource : ReplicaId) (reply : SyncReply) (s : CRaftReplica) :
    Except Fault (CRaftReplica × List Effect) :=
  if skipsCandidacy c timeoutSource s then pure (s, [])
  else do
    if s.currTerm ≥ u64Max then throw (.panic "attempt to add with overflow")
    let s1 := heardHeartbeat c c.id (s.currTerm + 1) (startCandidacy c s)
    let (lastSlot, lastTerm) ← lastSlotTerm s1
    let s2 ← foldLogResults c hlr c.id s1.currTerm reply.olds s1
    if !reply.result.isWriteOk then
      throw (.error "unexpected log result type or failed write")
    pure (s2, [.bcast (.requestVote s1.currTerm lastSlot lastTerm), metaWrite c s1])

/-- The heartbeat to one peer.
mirrors src/src/protocols/craft/leadership.rs:256-272 -/
def heartbeatTo (s : CRaftReplica) (peer : ReplicaId) : Except Fault Effect := do
  let prevSlot := min (← checkedSub (← mapGet s.tryNextSlot peer) 1)
    (← checkedSub (s.startSlot + s.log.length) 1)
  debugAssert (prevSlot ≥ s.startSlot) "assertion failed: prev_slot >= self.start_slot"
  let entry ← index s.log (← checkedSub prevSlot s.startSlot)
  pure (.send peer (.appendEntries s.currTerm prevSlot entry.term [] s.lastCommit s.lastSnap))

/-- `alive` is what `peer_alive()` returns after `update_bcast_cnts()`.
mirrors src/src/protocols/craft/leadership.rs:249-292 -/
def bcastHeartbeats (alive : Bitmap) (s : CRaftReplica) :
    Except Fault (CRaftReplica × List Effect) := do
  let sends ← ((List.range c.population).filter (· ≠ c.id)).mapM (heartbeatTo s)
  let s := heardHeartbeat c c.id s.currTerm s
  if !s.fullCopyMode then
    let down ← checkedSub c.population alive.count
    if down ≥ c.config.faultTolerance then pure (switchAssignmentMode true s, sends)
    else pure (s, sends)
  else pure (s, sends)

/-- Every key of a `HashMap` set to `v` (`for slot in map.values_mut()`). -/
def setValues (m : ReplicaId → Option Nat) (v : Nat) : ReplicaId → Option Nat :=
  fun p => (m p).map fun _ => v

/-- The entries from position `k` on marked external. -/
def markExternal (k : Nat) (log : List LogEntry) : List LogEntry :=
  log.take k ++ (log.drop k).map fun e => { e with external := true }

/-- mirrors src/src/protocols/craft/leadership.rs:212-246 -/
def becomeTheLeader (alive : Bitmap) (s : CRaftReplica) :
    Except Fault (CRaftReplica × List Effect) := do
  let s := { s with role := .leader, heartbeater := { s.heartbeater with sending := true } }
  let (s, sends) ← bcastHeartbeats c alive s
  let n := s.startSlot + s.log.length
  let s := { s with nextSlot := setValues s.nextSlot n, tryNextSlot := setValues s.tryNextSlot n,
                    matchSlot := setValues s.matchSlot 0 }
  let k ← checkedSub (s.lastCommit + 1) s.startSlot
  pure ({ s with log := markExternal k s.log }, .ctrl (.leaderStatus true) :: sends)

/-! ## One lemma per function -/

/-- The meta record a `do_sync_action` write at offset 0 carries. -/
def Effect.metaRecord : Effect → Option (Nat × Option ReplicaId)
  | .logSync (.write (.metadata t v) 0 _) => some (t, v)
  | _ => none

/-- The meta record the last write at offset 0 among `effs` left, if any. -/
def lastMetaWrite (effs : List Effect) : Option (Nat × Option ReplicaId) :=
  (effs.filterMap Effect.metaRecord).getLast?

/-- The four fields of the role machine are the same in `s` and `s'`. -/
structure SameRole (s s' : CRaftReplica) : Prop where
  currTerm : s'.currTerm = s.currTerm
  votedFor : s'.votedFor = s.votedFor
  votesGranted : s'.votesGranted = s.votesGranted
  role : s'.role = s.role

theorem SameRole.rfl' (s : CRaftReplica) : SameRole s s := ⟨rfl, rfl, rfl, rfl⟩

theorem SameRole.trans {s s' s'' : CRaftReplica} (h : SameRole s s') (h' : SameRole s' s'') :
    SameRole s s'' :=
  ⟨h'.currTerm.trans h.currTerm, h'.votedFor.trans h.votedFor,
    h'.votesGranted.trans h.votesGranted, h'.role.trans h.role⟩

/-- `handle_log_result` writes none of `curr_term`, `voted_for`, `votes_granted`
and `role`. -/
def KeepsRole (hlr : LogHandler) : Prop := ∀ i r s s', hlr i r s = .ok s' → SameRole s s'

theorem heardHeartbeat_eq (peer : ReplicaId) (t : Nat) (s : CRaftReplica) :
    ∃ hb, heardHeartbeat c peer t s = { s with heartbeater := hb } := by
  unfold heardHeartbeat; split
  exacts [⟨_, rfl⟩, ⟨s.heartbeater, rfl⟩]

theorem sameRole_heardHeartbeat (peer : ReplicaId) (t : Nat) (s : CRaftReplica) :
    SameRole s (heardHeartbeat c peer t s) := by
  obtain ⟨hb, e⟩ := heardHeartbeat_eq c peer t s; rw [e]; exact ⟨rfl, rfl, rfl, rfl⟩

theorem foldLogResults_sameRole (hk : KeepsRole hlr) (peer : ReplicaId) (t : Nat) :
    ∀ {olds s s'}, foldLogResults c hlr peer t olds s = .ok s' → SameRole s s'
  | [], s, _, h => by cases h; exact .rfl' s
  | (i, r) :: _, s, _, h => by
    obtain ⟨s1, h1, h2⟩ := bind_eq_ok.mp h
    exact (hk i r s s1 h1).trans ((sameRole_heardHeartbeat c peer t s1).trans
      (foldLogResults_sameRole hk peer t h2))

theorem checkTerm_of_le {peer : ReplicaId} {t : Nat} (r : SyncReply) {s : CRaftReplica}
    (h : t ≤ s.currTerm) : checkTerm c hlr peer t r s = .ok (false, s, []) := by
  simp [checkTerm, Nat.not_lt.mpr h]

/-- A `check_term` that adopts a higher term ends as a follower at that term
with no vote, having written `(term, None)` at offset 0; it returns whether
the role was not follower. -/
theorem checkTerm_adopt (hk : KeepsRole hlr) {peer : ReplicaId} {t : Nat} {r : SyncReply}
    {s s' : CRaftReplica} {b : Bool} {effs : List Effect} (ht : s.currTerm < t)
    (h : checkTerm c hlr peer t r s = .ok (b, s', effs)) :
    s'.currTerm = t ∧ s'.votedFor = none ∧ s'.votesGranted = ∅ ∧ s'.role = .follower ∧
      b = (s.role != .follower) ∧ lastMetaWrite effs = some (t, none) := by
  simp only [checkTerm, gt_iff_lt, ht, if_true] at h
  obtain ⟨s2, h2, h⟩ := bind_eq_ok.mp h
  split at h
  · simp [bind_eq_ok] at h
  simp only [pure_bind] at h
  obtain ⟨h1, h3, h4, h5⟩ :=
    (sameRole_heardHeartbeat c peer t _).trans (foldLogResults_sameRole c hlr hk peer t h2)
  have hm : lastMetaWrite [metaWrite c (adoptTerm c peer t s)] = some (t, none) := by
    obtain ⟨hb, e⟩ := heardHeartbeat_eq c peer t
      { s with currTerm := t, votedFor := none, votesGranted := ∅, leader := some peer }
    simp [lastMetaWrite, metaWrite, adoptTerm, e, Effect.metaRecord, DurEntry.packMeta]
  by_cases hr : s.role = .follower
  · simp only [h5, hr, ne_eq, not_true_eq_false, if_false, Except.ok.injEq, Prod.mk.injEq] at h
    obtain ⟨rfl, rfl, rfl⟩ := h
    exact ⟨h1, h3, h4, h5.trans hr, by simp [hr], hm⟩
  · simp only [h5, hr, ne_eq, not_false_eq_true, if_true, Except.ok.injEq, Prod.mk.injEq] at h
    obtain ⟨rfl, rfl, rfl⟩ := h
    refine ⟨h1, h3, h4, rfl, by simp [hr], ?_⟩
    simpa [lastMetaWrite, Effect.metaRecord] using hm

@[simp] theorem metaRecord_metaWrite (s : CRaftReplica) :
    (metaWrite c s).metaRecord = some (s.currTerm, s.votedFor) := rfl

theorem becomeACandidate_skip {src : ReplicaId} (r : SyncReply) {s : CRaftReplica}
    (h : skipsCandidacy c src s = true) : becomeACandidate c hlr src r s = .ok (s, []) := by
  simp [becomeACandidate, h]

/-- A `become_a_candidate` past its guard ends as a candidate one term up, with
its own vote, having written that term and vote at offset 0. -/
theorem becomeACandidate_start (hk : KeepsRole hlr) {src : ReplicaId} {r : SyncReply}
    {s s' : CRaftReplica} {effs : List Effect} (h0 : skipsCandidacy c src s = false)
    (h : becomeACandidate c hlr src r s = .ok (s', effs)) :
    s'.role = .candidate ∧ s'.currTerm = s.currTerm + 1 ∧ s'.votedFor = some c.id ∧
      s'.votesGranted = {c.id} ∧ s.currTerm < u64Max ∧
      lastMetaWrite effs = some (s.currTerm + 1, some c.id) := by
  simp only [becomeACandidate, h0, Bool.false_eq_true, if_false] at h
  split at h
  · simp [bind_eq_ok] at h
  rename_i hmax
  simp only [pure_bind] at h
  obtain ⟨⟨ls, lt⟩, -, h⟩ := bind_eq_ok.mp h
  obtain ⟨s2, h2, h⟩ := bind_eq_ok.mp h
  split at h
  · simp [bind_eq_ok] at h
  simp only [pure_bind, pure_eq_ok, Except.ok.injEq, Prod.mk.injEq] at h
  obtain ⟨rfl, rfl⟩ := h
  have hh := sameRole_heardHeartbeat c c.id (s.currTerm + 1) (startCandidacy c s)
  obtain ⟨h1, h3, h4, h5⟩ := hh.trans (foldLogResults_sameRole c hlr hk _ _ h2)
  refine ⟨h5, h1, h3, h4, Nat.not_le.mp hmax, ?_⟩
  show some (_, _) = _
  rw [hh.currTerm, hh.votedFor]; rfl

theorem heartbeatTo_send {s : CRaftReplica} {peer : ReplicaId} {e : Effect}
    (h : heartbeatTo s peer = .ok e) : ∃ m, e = .send peer m := by
  simp only [heartbeatTo, bind_eq_ok, pure_eq_ok, Except.ok.injEq] at h
  obtain ⟨_, -, _, -, _, -, _, -, _, -, _, -, rfl⟩ := h
  exact ⟨_, rfl⟩

/-- With every heartbeat built, `bcast_heartbeats` sends them in peer order
and, unless already in full-copy mode, switches to it when `fault_tolerance`
peers or more are down. -/
theorem bcastHeartbeats_eq {alive : Bitmap} {s : CRaftReplica} {sends : List Effect}
    (hs : ((List.range c.population).filter (· ≠ c.id)).mapM (heartbeatTo s) = .ok sends)
    (halive : s.fullCopyMode = false → alive.count ≤ c.population) :
    ∃ hb, bcastHeartbeats c alive s =
      .ok ({ s with heartbeater := hb, fullCopyMode := (s.fullCopyMode ||
          decide (c.config.faultTolerance ≤ c.population - alive.count)) }, sends) := by
  obtain ⟨hb, e⟩ := heardHeartbeat_eq c c.id s.currTerm s
  refine ⟨hb, ?_⟩
  simp only [bcastHeartbeats, hs, ok_bind, e]
  cases hf : s.fullCopyMode
  · rw [checkedSub_of_le (halive hf)]
    by_cases hd : c.config.faultTolerance ≤ c.population - alive.count <;>
      simp [hf, hd, switchAssignmentMode]
  · simp [hf]

/-- What a successful `bcast_heartbeats` did: it built every heartbeat, and
changed only the heartbeater and the full-copy flag. -/
theorem bcastHeartbeats_inv {alive : Bitmap} {s s' : CRaftReplica} {effs : List Effect}
    (h : bcastHeartbeats c alive s = .ok (s', effs)) :
    ((List.range c.population).filter (· ≠ c.id)).mapM (heartbeatTo s) = .ok effs ∧
      ∃ hb, s' = { s with heartbeater := hb, fullCopyMode := (s.fullCopyMode ||
          decide (c.config.faultTolerance ≤ c.population - alive.count)) } := by
  obtain ⟨sends, hs, h'⟩ := bind_eq_ok.mp h
  have halive : s.fullCopyMode = false → alive.count ≤ c.population := fun hf => by
    obtain ⟨hb, e⟩ := heardHeartbeat_eq c c.id s.currTerm s
    simp only [e, hf, Bool.not_false, if_true] at h'
    exact (checkedSub_eq_ok.mp (bind_eq_ok.mp h').choose_spec.1).1
  obtain ⟨hb, e⟩ := bcastHeartbeats_eq c hs halive
  rw [e, Except.ok.injEq, Prod.mk.injEq] at h
  obtain ⟨rfl, rfl⟩ := h
  exact ⟨hs, hb, rfl⟩

/-- `bcast_heartbeats` turns full-copy mode on when `population -
peer_alive().count() >= fault_tolerance` and never turns it off. -/
theorem bcastHeartbeats_fullCopyMode {alive : Bitmap} {s s' : CRaftReplica} {effs : List Effect}
    (h : bcastHeartbeats c alive s = .ok (s', effs)) :
    s'.fullCopyMode =
      (s.fullCopyMode || decide (c.config.faultTolerance ≤ c.population - alive.count)) := by
  obtain ⟨-, hb, rfl⟩ := bcastHeartbeats_inv c h
  rfl

/-- `bcast_heartbeats` sends heartbeats only, and keeps the role fields. -/
theorem bcastHeartbeats_ok {alive : Bitmap} {s s' : CRaftReplica} {effs : List Effect}
    (h : bcastHeartbeats c alive s = .ok (s', effs)) :
    SameRole s s' ∧ ∀ e ∈ effs, ∃ p m, e = .send p m := by
  obtain ⟨hs, hb, rfl⟩ := bcastHeartbeats_inv c h
  exact ⟨⟨rfl, rfl, rfl, rfl⟩, fun e he => by
    obtain ⟨p, -, hp⟩ := mapM_ok_mem hs e he
    exact ⟨p, heartbeatTo_send hp⟩⟩

theorem lastMetaWrite_sends {effs : List Effect} (h : ∀ e ∈ effs, ∃ p m, e = .send p m) :
    lastMetaWrite effs = none := by
  have : effs.filterMap Effect.metaRecord = [] := by
    rw [List.filterMap_eq_nil_iff]
    intro e he
    obtain ⟨p, m, rfl⟩ := h e he
    rfl
  simp [lastMetaWrite, this]

/-- `become_the_leader` takes the leader role and keeps term, vote and vote set;
it writes no meta record. -/
theorem becomeTheLeader_ok {alive : Bitmap} {s s' : CRaftReplica} {effs : List Effect}
    (h : becomeTheLeader c alive s = .ok (s', effs)) :
    s'.role = .leader ∧ s'.currTerm = s.currTerm ∧ s'.votedFor = s.votedFor ∧
      s'.votesGranted = s.votesGranted ∧ lastMetaWrite effs = none := by
  simp only [becomeTheLeader, bind_eq_ok] at h
  obtain ⟨⟨s1, sends⟩, hb, _, -, h⟩ := h
  obtain ⟨⟨h1, h2, h3, h4⟩, hs⟩ := bcastHeartbeats_ok c hb
  have hm := lastMetaWrite_sends hs
  simp only [pure_eq_ok, Except.ok.injEq, Prod.mk.injEq] at h
  obtain ⟨rfl, rfl⟩ := h
  exact ⟨h4, h1, h2, h3, by simpa [lastMetaWrite, Effect.metaRecord] using hm⟩

/-- A heartbeat to a peer whose `try_next_slot` is past `start_slot` names a
slot of the log and that slot's term. -/
theorem heartbeatTo_ok {s : CRaftReplica} {peer v : Nat} (hv : s.tryNextSlot peer = some v)
    (hlt : s.startSlot < v) (hlog : s.log ≠ []) :
    ∃ prev entry, prev = min (v - 1) (s.startSlot + s.log.length - 1) ∧
      s.startSlot ≤ prev ∧ prev < s.startSlot + s.log.length ∧
      s.log[prev - s.startSlot]? = some entry ∧
      heartbeatTo s peer = .ok (.send peer (.appendEntries s.currTerm prev entry.term [] s.lastCommit
        s.lastSnap)) := by
  have hl : 0 < s.log.length := List.length_pos.mpr hlog
  have hin : min (v - 1) (s.startSlot + s.log.length - 1) - s.startSlot < s.log.length := by omega
  have hge : min (v - 1) (s.startSlot + s.log.length - 1) ≥ s.startSlot := by omega
  refine ⟨_, s.log.get ⟨_, hin⟩, rfl, hge, by omega, List.getElem?_eq_getElem hin, ?_⟩
  simp only [heartbeatTo, mapGet_some hv, ok_bind, checkedSub_of_le (show 1 ≤ v by omega),
    checkedSub_of_le (show 1 ≤ s.startSlot + s.log.length by omega), decide_eq_true hge,
    debugAssert_true, checkedSub_of_le hge, index_of_lt hin]
  rfl

/-- With `try_next_slot[peer]` at the end of the log, where `become_the_leader`
resets it, the heartbeat names the last slot of the log and its term. -/
theorem heartbeatTo_lastSlot {s : CRaftReplica} {peer t : Nat}
    (hv : s.tryNextSlot peer = some (s.startSlot + s.log.length))
    (hlast : s.log.getLast?.map LogEntry.term = some t) :
    heartbeatTo s peer = .ok (.send peer (.appendEntries s.currTerm
      (s.startSlot + s.log.length - 1) t [] s.lastCommit s.lastSnap)) := by
  have hlog : s.log ≠ [] := by rintro h; simp [h] at hlast
  have hl : 0 < s.log.length := List.length_pos.mpr hlog
  obtain ⟨prev, entry, hprev, -, -, hget, h⟩ := heartbeatTo_ok hv (by omega) hlog
  rw [min_self] at hprev
  have he : s.log.getLast? = some entry := by
    rw [List.getLast?_eq_getElem?, ← hget, hprev]; congr 1; omega
  rw [he, Option.map_some'] at hlast
  rw [h, hprev, ← Option.some_inj.mp hlast]

/-- A heartbeat that is built names a slot of the log and that slot's term. -/
theorem heartbeatTo_inv {s : CRaftReplica} {peer : Nat} {e : Effect}
    (h : heartbeatTo s peer = .ok e) :
    ∃ prev entry, s.startSlot ≤ prev ∧ prev < s.startSlot + s.log.length ∧
      s.log[prev - s.startSlot]? = some entry ∧
      e = .send peer (.appendEntries s.currTerm prev entry.term [] s.lastCommit s.lastSnap) := by
  simp only [heartbeatTo, bind_eq_ok, checkedSub_eq_ok, debugAssert_eq_ok, index_eq_ok,
    decide_eq_true_eq, pure_eq_ok, Except.ok.injEq] at h
  obtain ⟨_, -, _, -, _, ⟨h1, rfl⟩, _, hge, _, ⟨-, rfl⟩, entry, he, rfl⟩ := h
  exact ⟨_, entry, hge, by omega, he, rfl⟩

/-- Every way `heartbeatTo` fails is a panic. -/
theorem panicsOnly_heartbeatTo (s : CRaftReplica) (peer : Nat) : PanicsOnly (heartbeatTo s peer) :=
  .bind (.mapGet _ _) fun _ => .bind (.checkedSub _ _) fun _ => .bind (.checkedSub _ _) fun _ =>
    .bind (.debugAssert _ _) fun _ => .bind (.checkedSub _ _) fun _ => .bind (.index _ _) fun _ =>
      .ok _

/-- A heartbeat to a peer whose `try_next_slot` is at or below `start_slot`
fails. -/
theorem heartbeatTo_stale {s : CRaftReplica} {peer v : Nat} (hv : s.tryNextSlot peer = some v)
    (hle : v ≤ s.startSlot) : ∃ f, heartbeatTo s peer = .error f := by
  cases h : heartbeatTo s peer with
  | error f => exact ⟨f, rfl⟩
  | ok e =>
    simp only [heartbeatTo, bind_eq_ok, mapGet_some hv, Except.ok.injEq, checkedSub_eq_ok,
      debugAssert_eq_ok, decide_eq_true_eq] at h
    obtain ⟨_, rfl, _, ⟨h1, rfl⟩, _, ⟨-, rfl⟩, _, hge, -⟩ := h
    omega

/-- `become_the_leader` after its broadcast: the maps reset and the marks. -/
theorem becomeTheLeader_of_bcast {alive : Bitmap} {s s2 : CRaftReplica} {sends : List Effect}
    (hb : bcastHeartbeats c alive
      { s with role := .leader, heartbeater := { s.heartbeater with sending := true } } =
        .ok (s2, sends))
    (hc : s2.startSlot ≤ s2.lastCommit + 1) :
    becomeTheLeader c alive s = .ok ({ s2 with
      nextSlot := setValues s2.nextSlot (s2.startSlot + s2.log.length),
      tryNextSlot := setValues s2.tryNextSlot (s2.startSlot + s2.log.length),
      matchSlot := setValues s2.matchSlot 0,
      log := markExternal (s2.lastCommit + 1 - s2.startSlot) s2.log },
      .ctrl (.leaderStatus true) :: sends) := by
  simp only [becomeTheLeader, hb, ok_bind, checkedSub_of_le hc]
  rfl

theorem getElem?_markExternal (k : Nat) (log : List LogEntry) (i : Nat) :
    (markExternal k log)[i]? =
      log[i]?.map fun e => if k ≤ i then { e with external := true } else e := by
  unfold markExternal
  rcases Nat.lt_or_ge i log.length with h' | h'
  · by_cases hk : k ≤ i
    · rw [List.getElem?_append_right (by simp; omega)]
      simp [hk, List.getElem?_drop, show min k log.length = k by omega,
        show k + (i - k) = i by omega]
    · rw [List.getElem?_append_left (by simp; omega)]
      simp [h', hk, List.getElem?_take, Nat.lt_of_not_le hk]
  · rw [List.getElem?_eq_none (by simp; omega), List.getElem?_eq_none h']
    rfl

/-- The marks of `become_the_leader`: the entries at slots after `last_commit`. -/
theorem getElem?_markExternal_after (start commit : Nat) (log : List LogEntry) (i : Nat) :
    (markExternal (commit + 1 - start) log)[i]? =
      log[i]?.map fun e => if commit < start + i then { e with external := true } else e := by
  rw [getElem?_markExternal]
  congr 1; funext e
  simp only [show commit + 1 - start ≤ i ↔ commit < start + i by omega]

@[simp] theorem length_markExternal (k : Nat) (log : List LogEntry) :
    (markExternal k log).length = log.length := by
  simp only [markExternal, List.length_append, List.length_take, List.length_map,
    List.length_drop]
  omega

/-- Marking entries external keeps every term. -/
theorem getLast?_markExternal_term (k : Nat) (log : List LogEntry) :
    (markExternal k log).getLast?.map LogEntry.term = log.getLast?.map LogEntry.term := by
  rw [List.getLast?_eq_getElem?, List.getLast?_eq_getElem?, length_markExternal,
    getElem?_markExternal, Option.map_map]
  congr 1; funext e
  split <;> rfl

end Summerset.CRaft
