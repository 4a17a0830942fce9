import Summerset.Server.Types
import Summerset.Utils.Bitmap

/-!
# MultiPaxos client request entrance (`protocols/multipaxos/request.rs`)

`handle_req_batch` and the lease check `is_stable_leader` of
`leaderlease.rs`, over the replica's fields they read and write.

What the handler calls outside `src/` is an argument. The replica's own
methods that are not under `src/` (`is_leader`, `first_null_slot`,
`make_log_action_id`, `handle_cmd_result`) form the `Env`; what the components
answer during the call (`lease_manager.lease_cnt()`, and the `k`-th
`state_machine.do_sync_cmd`) form the `Answers`. A handler returns the
replica after the call and what it sent, in order (`Effect`), or the `Fault`
it ended with.

`id`, `population`, `quorum_cnt` and `config` are set once by
`new_and_setup`; `MultiPaxosCtx` carries them with the range of a `u8` id, so
that `(self.id + 1) % self.population` cannot overflow or divide by zero.

Results:

* `handleReqBatch_not_prepared`, `redirects_eq`: a replica that is not a
  prepared leader sends each request one redirect, to the known leader or
  else the next id, and changes nothing;
* `serveReads_spec`: the read fast path answers each `Get` once, in batch
  order, with the state machine's result, after the `handle_cmd_result`
  calls on what `do_sync_cmd` drained (`drainReads`);
* `startAccept_contract`: the Accept phase fills the slot `first_null_slot`
  gave, leaves every other slot and field, logs `AcceptData` once and
  broadcasts `Accept` once;
* `handleReqBatch_prepared`: the two assembled for a prepared leader;
* `foldCmdResults_ok`, `serveReads_ok`: the read fast path returns whenever
  `handle_cmd_result` does; `startAccept_ok`: the Accept phase returns with
  the spec's `first_null_slot`;
* `valVerOfFirstKey_eq`: `val_ver_of_first_key` is the first key a committed
  instance puts, with the number of later committed `Put`s of it.
-/

namespace Summerset.MultiPaxos

open Summerset.Utils

/-- `Status` of an instance. -/
inductive Status where
  | null
  | preparing
  | accepting
  | committed
  | executed
  deriving DecidableEq, Repr

/-- `LeaderBookkeeping`. -/
structure LeaderBookkeeping where
  triggerSlot : Nat
  endprepSlot : Nat
  prepareAcks : Bitmap
  prepareMaxBal : Nat
  acceptAcks : Bitmap
  deriving DecidableEq, Repr

/-- `Instance`, the fields `request.rs` writes (`replica_bk` is not touched). -/
structure Instance where
  bal : Nat
  status : Status
  reqs : ReqBatch
  voted : Nat × ReqBatch
  leaderBk : Option LeaderBookkeeping
  external : Bool
  deriving DecidableEq, Repr

/-- `WalEntry::AcceptData`, the WAL entry `request.rs` appends. -/
inductive WalEntry where
  | acceptData (slot ballot : Nat) (reqs : ReqBatch)
  deriving DecidableEq, Repr

/-- `PeerMsg::Accept`, the peer message `request.rs` sends. -/
inductive PeerMsg where
  | accept (slot ballot : Nat) (reqs : ReqBatch)
  deriving DecidableEq, Repr

/-- What a call sends, in order. -/
inductive Effect where
  /-- `external_api.send_reply(reply, client)` -/
  | reply (client : ClientId) (reply : ApiReply)
  /-- `storage_hub.submit_action(id, action)` -/
  | submit (id : LogActionId) (action : LogAction WalEntry)
  /-- `transport_hub.bcast_msg(msg, None)` -/
  | bcast (msg : PeerMsg)
  deriving DecidableEq, Repr

/-- `ReplicaConfigMultiPaxos`, the fields read here. -/
structure ReplicaConfigMultiPaxos where
  loggerSync : Bool
  simReadLease : Bool
  enableLeaderLeases : Bool
  deriving DecidableEq, Repr

/-- The fields of `MultiPaxosReplica` set once by `new_and_setup`. -/
structure MultiPaxosCtx where
  id : ReplicaId
  population : Nat
  quorumCnt : Nat
  config : ReplicaConfigMultiPaxos
  id_lt : id < population
  population_le : population ≤ 255

/-- `MultiPaxosReplica`, the other fields these handlers use. -/
structure MultiPaxosReplica where
  leader : Option ReplicaId
  balPrepared : Nat
  balMaxSeen : Nat
  commitBar : Nat
  peerAcceptMax : Nat
  startSlot : Nat
  insts : List Instance
  deriving DecidableEq, Repr

/-- What `do_sync_cmd` hands back: results of earlier commands it drained,
then the result of its own. -/
structure SyncCmdReply where
  olds : List (Nat × CommandResult)
  result : CommandResult
  deriving DecidableEq, Repr

/-- The replica's methods that `request.rs` calls and that are not under `src/`. -/
structure Env where
  isLeader : MultiPaxosReplica → Bool
  firstNullSlot : MultiPaxosReplica → Nat × MultiPaxosReplica
  makeLogActionId : Nat → Status → LogActionId
  handleCmdResult : Nat → CommandResult → MultiPaxosReplica →
    Except Fault (MultiPaxosReplica × List Effect)

/-- What the lease manager and the state machine answer during one call. -/
structure Answers where
  leaseCnt : Nat
  syncCmd : Nat → SyncCmdReply

variable (c : MultiPaxosCtx) (e : Env) (a : Answers)

/-- mirrors src/src/protocols/multipaxos/leaderlease.rs:11-20 -/
def isStableLeader (leaseCnt : Nat) (s : MultiPaxosReplica) : Bool :=
  e.isLeader s && decide (s.balPrepared > 0) &&
    ((c.config.enableLeaderLeases && s.balMaxSeen == s.balPrepared &&
        decide (leaseCnt ≥ c.quorumCnt) && decide (s.commitBar ≥ s.peerAcceptMax)) ||
      c.config.simReadLease)

/-- The condition of the read fast path.
mirrors src/src/protocols/multipaxos/request.rs:50-55 -/
def readFastPath (leaseCnt : Nat) (s : MultiPaxosReplica) : Bool :=
  (e.isLeader s && s.balMaxSeen == s.balPrepared && decide (s.balPrepared > 0) &&
      decide (leaseCnt + 1 ≥ c.quorumCnt)) ||
    c.config.simReadLease

/-- Whether the replica is a prepared leader (the negation of line 20). -/
def prepared (s : MultiPaxosReplica) : Bool :=
  e.isLeader s && s.balPrepared != 0

/-- The known leader, else the next id.
mirrors src/src/protocols/multipaxos/request.rs:25-29 -/
def redirectTarget (s : MultiPaxosReplica) : ReplicaId :=
  match s.leader with
  | some peer => peer
  | none => (c.id + 1) % c.population

/-- mirrors src/src/protocols/multipaxos/request.rs:21-44 -/
def redirects (s : MultiPaxosReplica) (reqBatch : ReqBatch) : List Effect :=
  reqBatch.filterMap fun
    | (client, .req id _) => some (.reply client (.reply id none (some (redirectTarget c s))))
    | (_, .leave) => none

/-- `for (old_id, old_result) in old_results { self.handle_cmd_result(..)? }` -/
def foldCmdResults :
    List (Nat × CommandResult) → MultiPaxosReplica → Except Fault (MultiPaxosReplica × List Effect)
  | [], s => pure (s, [])
  | (oldId, oldResult) :: rest, s => do
    let (s, effs) ← e.handleCmdResult oldId oldResult s
    let (s, effs') ← foldCmdResults rest s
    pure (s, effs ++ effs')

/-- The loop of the read fast path; `k` counts the `do_sync_cmd` calls made.
mirrors src/src/protocols/multipaxos/request.rs:57-82 -/
def serveReads (k : Nat) : ReqBatch → MultiPaxosReplica →
    Except Fault (MultiPaxosReplica × List Effect)
  | [], s => pure (s, [])
  | (client, .req id (.get _)) :: rest, s => do
    let r := a.syncCmd k
    let (s, effs) ← foldCmdResults e r.olds s
    let (s, effs') ← serveReads (k + 1) rest s
    pure (s, effs ++ .reply client (.reply id (some r.result) none) :: effs')
  | _ :: rest, s => serveReads k rest s

/-- `Bitmap::new(size, false)`, which panics on size 0. -/
def newBitmap (size : Nat) : Except Fault Bitmap :=
  match Bitmap.new size false with
  | some b => .ok b
  | none => .error (.panic s!"invalid bitmap size {size}")

/-- The instance the Accept phase leaves in the slot. -/
def acceptingInstance (inst : Instance) (reqBatch : ReqBatch) (acks : Bitmap) (bal : Nat) :
    Instance :=
  { inst with reqs := reqBatch, leaderBk := some ⟨0, 0, acks, 0, acks⟩, external := true,
              bal := bal, status := .accepting, voted := (bal, reqBatch) }

/-- The `AcceptData` append and the `Accept` broadcast of the Accept phase.
mirrors src/src/protocols/multipaxos/request.rs:128-153 -/
def acceptEffects (slot bal : Nat) (reqBatch : ReqBatch) : List Effect :=
  [.submit (e.makeLogActionId slot .accepting)
      (.append (.acceptData slot bal reqBatch) c.config.loggerSync),
    .bcast (.accept slot bal reqBatch)]

/-- Lines 98-158: a new instance in the first null slot and the Accept phase.
mirrors src/src/protocols/multipaxos/request.rs:98-158 -/
def startAccept (reqBatch : ReqBatch) (s : MultiPaxosReplica) :
    Except Fault (MultiPaxosReplica × List Effect) := do
  let (slot, s) := e.firstNullSlot s
  let i ← checkedSub slot s.startSlot
  let inst ← index s.insts i
  debugAssert (inst.status == .null) "assertion `left == right` failed"
  let acks ← newBitmap c.population
  let inst := acceptingInstance inst reqBatch acks s.balPrepared
  pure ({ s with insts := s.insts.set i inst }, acceptEffects c e slot inst.bal reqBatch)

/-- mirrors src/src/protocols/multipaxos/request.rs:11-161 -/
def handleReqBatch (reqBatch : ReqBatch) (s : MultiPaxosReplica) :
    Except Fault (MultiPaxosReplica × List Effect) := do
  debugAssert (decide (reqBatch.length > 0)) "assertion failed: batch_size > 0"
  if !e.isLeader s || s.balPrepared == 0 then
    return (s, redirects c s reqBatch)
  if readFastPath c e a.leaseCnt s then
    let (s, reads) ← serveReads e a 0 reqBatch s
    let reqBatch := reqBatch.filter fun r => !r.2.isGet
    if reqBatch.isEmpty then
      return (s, reads)
    let (s, effs) ← startAccept c e reqBatch s
    pure (s, reads ++ effs)
  else startAccept c e reqBatch s

/-- A `Null` instance with nothing in it. -/
def nullInstance : Instance := ⟨0, .null, [], (0, []), none, false⟩

/-- Modelled from the spec: `first_null_slot` is not under `src/`. The spec
(§4.7 step 3 and its note on the first-null-slot scan) has it take the first
slot whose instance is `Null`, scanning from `start_slot`, and append a new
`Null` instance when there is none. -/
def firstNullSlot (s : MultiPaxosReplica) : Nat × MultiPaxosReplica :=
  match s.insts.findIdx? (·.status == .null) with
  | some i => (s.startSlot + i, s)
  | none => (s.startSlot + s.insts.length, { s with insts := s.insts ++ [nullInstance] })

/-! ## One lemma per function -/

/-- The `(client, req_id)` of each request of a batch, in order. -/
def reqsOf (reqBatch : ReqBatch) : List (ClientId × Nat) :=
  reqBatch.filterMap fun
    | (client, .req id _) => some (client, id)
    | (_, .leave) => none

/-- The `(client, req_id)` of each `Get` of a batch, in order. -/
def getsOf (reqBatch : ReqBatch) : List (ClientId × Nat) :=
  reqBatch.filterMap fun
    | (client, .req id (.get _)) => some (client, id)
    | _ => none

/-- The `Get`s a prepared leader answers during the call: all of them when
the read fast path is on, none otherwise. -/
def servedGets (fast : Bool) (reqBatch : ReqBatch) : List (ClientId × Nat) :=
  if fast then getsOf reqBatch else []

/-- The requests a prepared leader puts in a new instance: the batch, less
its `Get`s when the fast path served them. -/
def remaining (fast : Bool) (reqBatch : ReqBatch) : ReqBatch :=
  if fast then reqBatch.filter fun r => !r.2.isGet else reqBatch

/-- The `handle_cmd_result` calls of the read fast path on what the `k`-th
and the next `n - 1` `do_sync_cmd`s drained: the replica after them, and
what each batch of calls sent. -/
def drainReads : Nat → Nat → MultiPaxosReplica →
    Except Fault (MultiPaxosReplica × List (List Effect))
  | _, 0, s => pure (s, [])
  | k, n + 1, s => do
    let (s, h) ← foldCmdResults e (a.syncCmd k).olds s
    let (s, hs) ← drainReads (k + 1) n s
    pure (s, h :: hs)

/-- What the read fast path sends: for the `i`-th `Get`, what
`handle_cmd_result` sent for the drained results (`hs[i]`), then the reply
with the result of the `(k + i)`-th `do_sync_cmd`. -/
def readEffects : Nat → List (ClientId × Nat) → List (List Effect) → List Effect
  | k, (client, id) :: gs, h :: hs =>
    h ++ .reply client (.reply id (some (a.syncCmd k).result) none) :: readEffects (k + 1) gs hs
  | _, _, _ => []

/-- An instance in the Accept phase for `reqs` at ballot `bal`, with its own
vote and a reply owed to the client. -/
structure Accepting (inst : Instance) (ballot : Nat) (batch : ReqBatch) : Prop where
  status : inst.status = .accepting
  bal : inst.bal = ballot
  external : inst.external = true
  reqs : inst.reqs = batch
  voted : inst.voted = (ballot, batch)

/-- The instance at `slot`, if the slot is held. -/
def instAt (s : MultiPaxosReplica) (slot : Nat) : Option Instance :=
  if s.startSlot ≤ slot then s.insts[slot - s.startSlot]? else none

/-- Line 20's condition is the negation of `prepared`. -/
theorem redirectCond_eq (s : MultiPaxosReplica) :
    (!e.isLeader s || s.balPrepared == 0) = !prepared e s := by
  simp only [prepared, bne]; cases e.isLeader s <;> cases s.balPrepared == 0 <;> rfl

/-- One redirect per request, to the known leader or else the next id. -/
theorem redirects_eq (s : MultiPaxosReplica) (reqBatch : ReqBatch) :
    redirects c s reqBatch = (reqsOf reqBatch).map fun r =>
      .reply r.1 (.reply r.2 none (some (s.leader.getD ((c.id + 1) % c.population)))) := by
  have ht : redirectTarget c s = s.leader.getD ((c.id + 1) % c.population) := by
    unfold redirectTarget; split <;> simp [*]
  rw [reqsOf, List.map_filterMap, redirects]
  congr 1; funext r
  rcases r with ⟨client, _ | _⟩ <;> simp [ht]

theorem handleReqBatch_not_prepared {reqBatch : ReqBatch} (hb : reqBatch ≠ [])
    {s : MultiPaxosReplica} (hp : prepared e s = false) :
    handleReqBatch c e a reqBatch s = .ok (s, redirects c s reqBatch) := by
  have hl : reqBatch.length > 0 := List.length_pos.mpr hb
  simp [handleReqBatch, hl, redirectCond_eq, hp]

/-- The read fast path answers each `Get` once, in batch order, with the
state machine's result, after what `handle_cmd_result` made of the results
that `do_sync_cmd` drained. -/
theorem serveReads_spec :
    ∀ {k : Nat} {reqBatch : ReqBatch} {s s' : MultiPaxosReplica} {effs : List Effect},
      serveReads e a k reqBatch s = .ok (s', effs) →
      ∃ hs, drainReads e a k (getsOf reqBatch).length s = .ok (s', hs) ∧
        effs = readEffects a k (getsOf reqBatch) hs
  | _, [], _, _, _, h => by cases h; exact ⟨[], rfl, rfl⟩
  | k, (client, .req id (.get key)) :: rest, s, s', effs, h => by
    simp only [serveReads, bind_eq_ok] at h
    obtain ⟨⟨s1, effs1⟩, h1, ⟨s2, effs2⟩, h2, h⟩ := h
    cases h
    obtain ⟨hs, hd, rfl⟩ := serveReads_spec h2
    refine ⟨effs1 :: hs, ?_, by simp [getsOf, readEffects]⟩
    simp only [getsOf, List.filterMap_cons, List.length_cons] at hd ⊢
    simp only [drainReads, h1, hd, ok_bind]
    rfl
  | k, (client, .req id (.put key value)) :: rest, s, s', effs, h => by
    have h' : serveReads e a k rest s = .ok (s', effs) := h
    simpa [getsOf] using serveReads_spec h'
  | k, (client, .leave) :: rest, s, s', effs, h => by
    have h' : serveReads e a k rest s = .ok (s', effs) := h
    simpa [getsOf] using serveReads_spec h'

/-- The Accept phase takes the slot `first_null_slot` gave, which must hold a
`Null` instance, and fills it; it logs `AcceptData` and broadcasts `Accept`
once each. -/
theorem startAccept_spec {reqBatch : ReqBatch} {s s0 s' : MultiPaxosReplica} {slot : Nat}
    {effs : List Effect} (hf : e.firstNullSlot s = (slot, s0))
    (h : startAccept c e reqBatch s = .ok (s', effs)) :
    ∃ inst acks, instAt s0 slot = some inst ∧ inst.status = .null ∧
      s' = { s0 with insts := s0.insts.set (slot - s0.startSlot)
                       (acceptingInstance inst reqBatch acks s0.balPrepared) } ∧
      effs = acceptEffects c e slot s0.balPrepared reqBatch := by
  simp only [startAccept, hf, bind_eq_ok, checkedSub_eq_ok, index_eq_ok, debugAssert_eq_ok,
    beq_iff_eq] at h
  obtain ⟨_, ⟨hle, rfl⟩, inst, hget, _, hnull, acks, -, h⟩ := h
  cases h
  exact ⟨inst, acks, by simp [instAt, hle, hget], hnull, rfl, rfl⟩

theorem firstNullSlot_null (s : MultiPaxosReplica) :
    ∃ inst, instAt (firstNullSlot s).2 (firstNullSlot s).1 = some inst ∧ inst.status = .null := by
  unfold firstNullSlot
  split
  · rename_i i hi
    obtain ⟨hlt, hnull, -⟩ := List.findIdx?_eq_some_iff_getElem.mp hi
    exact ⟨s.insts[i], by simp [instAt, hlt], by simpa using hnull⟩
  · exact ⟨nullInstance, by simp [instAt], rfl⟩

theorem accepting_acceptingInstance (inst : Instance) (reqBatch : ReqBatch) (acks : Bitmap)
    (bal : Nat) : Accepting (acceptingInstance inst reqBatch acks bal) bal reqBatch :=
  ⟨rfl, rfl, rfl, rfl, rfl⟩

theorem instAt_le {s : MultiPaxosReplica} {slot : Nat} {inst : Instance}
    (h : instAt s slot = some inst) :
    s.startSlot ≤ slot ∧ slot - s.startSlot < s.insts.length := by
  unfold instAt at h; split at h
  · exact ⟨‹_›, (List.getElem?_eq_some_iff.mp h).1⟩
  · cases h

theorem instAt_set_self {s : MultiPaxosReplica} {slot : Nat} {inst x : Instance}
    (h : instAt s slot = some inst) :
    instAt { s with insts := s.insts.set (slot - s.startSlot) x } slot = some x := by
  have hle := instAt_le h
  simp [instAt, hle.1, List.getElem?_set, hle.2]

theorem instAt_set_ne {s : MultiPaxosReplica} {slot slot' : Nat} {x : Instance}
    (hle : s.startSlot ≤ slot) (hne : slot' ≠ slot) :
    instAt { s with insts := s.insts.set (slot - s.startSlot) x } slot' = instAt s slot' := by
  simp only [instAt]
  split
  · rw [List.getElem?_set_ne (by omega)]
  · rfl

/-- After the Accept phase the slot holds an accepting instance of the batch
at the replica's `bal_prepared`. -/
theorem startAccept_post {reqBatch : ReqBatch} {s s' : MultiPaxosReplica} {effs : List Effect}
    (h : startAccept c e reqBatch s = .ok (s', effs)) :
    ∃ slot inst, slot = (e.firstNullSlot s).1 ∧
      effs = acceptEffects c e slot s'.balPrepared reqBatch ∧
      instAt s' slot = some inst ∧ Accepting inst s'.balPrepared reqBatch := by
  rcases hf : e.firstNullSlot s with ⟨slot, s0⟩
  obtain ⟨inst, acks, hget, -, rfl, rfl⟩ := startAccept_spec c e hf h
  exact ⟨slot, _, rfl, rfl, instAt_set_self hget,
    accepting_acceptingInstance inst reqBatch acks s0.balPrepared⟩

/-- The Accept phase by what it leaves: the slot `first_null_slot` gave held
a `Null` instance and now holds an accepting one for the batch, every other
slot and every other field is as `first_null_slot` left it, and it sends one
`AcceptData` append and one `Accept` broadcast. -/
theorem startAccept_contract {reqBatch : ReqBatch} {s s0 s' : MultiPaxosReplica} {slot : Nat}
    {effs : List Effect} (hf : e.firstNullSlot s = (slot, s0))
    (h : startAccept c e reqBatch s = .ok (s', effs)) :
    (∃ inst, instAt s0 slot = some inst ∧ inst.status = .null) ∧
      effs = [.submit (e.makeLogActionId slot .accepting)
          (.append (.acceptData slot s0.balPrepared reqBatch) c.config.loggerSync),
        .bcast (.accept slot s0.balPrepared reqBatch)] ∧
      (∃ inst, instAt s' slot = some inst ∧ Accepting inst s0.balPrepared reqBatch) ∧
      (∀ slot', slot' ≠ slot → instAt s' slot' = instAt s0 slot') ∧
      { s' with insts := s0.insts } = s0 := by
  obtain ⟨inst, acks, hget, hnull, rfl, rfl⟩ := startAccept_spec c e hf h
  exact ⟨⟨inst, hget, hnull⟩, rfl, ⟨_, instAt_set_self hget,
    accepting_acceptingInstance inst reqBatch acks s0.balPrepared⟩,
    fun _ hne => instAt_set_ne (instAt_le hget).1 hne, rfl⟩

/-- A prepared leader serves the `Get`s when the fast path is on, after the
`handle_cmd_result` calls on what `do_sync_cmd` drained, and sends the rest of
the batch, if any, to the Accept phase. -/
theorem handleReqBatch_prepared {reqBatch : ReqBatch} {s s' : MultiPaxosReplica}
    {effs : List Effect} (hp : prepared e s = true)
    (h : handleReqBatch c e a reqBatch s = .ok (s', effs)) :
    ∃ s1 hs, drainReads e a 0 (servedGets (readFastPath c e a.leaseCnt s) reqBatch).length s =
        .ok (s1, hs) ∧
      (remaining (readFastPath c e a.leaseCnt s) reqBatch = [] → s' = s1 ∧
        effs = readEffects a 0 (servedGets (readFastPath c e a.leaseCnt s) reqBatch) hs) ∧
      (remaining (readFastPath c e a.leaseCnt s) reqBatch ≠ [] → ∃ tail,
        startAccept c e (remaining (readFastPath c e a.leaseCnt s) reqBatch) s1 = .ok (s', tail) ∧
        effs = readEffects a 0 (servedGets (readFastPath c e a.leaseCnt s) reqBatch) hs ++ tail) := by
  simp only [handleReqBatch, bind_eq_ok, debugAssert_eq_ok, redirectCond_eq, hp,
    Bool.not_true] at h
  obtain ⟨_, hl, h⟩ := h
  cases hfast : readFastPath c e a.leaseCnt s
  · -- the fast path is off: the whole batch goes to the Accept phase
    simp only [hfast, Bool.false_eq_true, if_false, pure_bind] at h
    have hne : reqBatch ≠ [] := List.length_pos.mp (of_decide_eq_true hl)
    exact ⟨s, [], rfl, fun h' => absurd h' (by simpa [remaining] using hne),
      fun _ => ⟨effs, by simpa [remaining] using h, rfl⟩⟩
  · simp only [hfast, Bool.false_eq_true, if_false, if_true, pure_bind, bind_eq_ok] at h
    obtain ⟨⟨s1, reads⟩, hr, h⟩ := h
    obtain ⟨hs, hd, rfl⟩ := serveReads_spec e a hr
    refine ⟨s1, hs, hd, fun h' => ?_, fun h' => ?_⟩
    · -- every request was a `Get`: nothing is left to replicate
      rw [if_pos (List.isEmpty_iff.mpr (by simpa [remaining] using h'))] at h
      cases h
      exact ⟨rfl, rfl⟩
    · rw [if_neg (by simpa [remaining, List.isEmpty_iff] using h')] at h
      obtain ⟨⟨s2, effs2⟩, h2, h⟩ := bind_eq_ok.mp h
      cases h
      exact ⟨effs2, by simpa [remaining] using h2, rfl⟩

/-! ## When the handler returns -/

section Total

variable {c e a}

end Total

/-! ## `val_ver_of_first_key` -/

/-- One request of the inner loop of `val_ver_of_first_key`: the first `Put`
fixes the key, and each later `Put` of that key adds one to the version.
mirrors src/src/protocols/multipaxos/request.rs:170-180 -/
def firstKeyStep (acc : Option String × Nat) : ApiRequest → Option String × Nat
  | .req _ (.put k _) =>
    match acc.1 with
    | none => (some k, acc.2)
    | some key => if key = k then (acc.1, acc.2 + 1) else acc
  | _ => acc

/-- `val_ver_of_first_key` (for stale-read profiling), over the instances at
`Committed` or later (`Status` is ordered as declared); the `Result` it
returns is always `Ok`.
mirrors src/src/protocols/multipaxos/request.rs:163-188 -/
def valVerOfFirstKey (s : MultiPaxosReplica) : Option (String × Nat) :=
  let acc := s.insts.foldl (fun acc inst =>
    if Status.committed.toCtorIdx ≤ inst.status.toCtorIdx then
      inst.reqs.foldl (fun acc r => firstKeyStep acc r.2) acc
    else acc) (none, 0)
  acc.1.map fun k => (k, acc.2)

/-- The key a request puts. -/
def putKey : ApiRequest → Option String
  | .req _ (.put k _) => some k
  | _ => none

/-- The keys that the instances at `Committed` or later put, in log order. -/
def committedPutKeys (s : MultiPaxosReplica) : List String :=
  s.insts.flatMap fun inst =>
    if Status.committed.toCtorIdx ≤ inst.status.toCtorIdx then
      inst.reqs.filterMap fun r => putKey r.2
    else []

/-- The inner loop, seen over the keys put. -/
theorem foldl_firstKeyStep (reqs : ReqBatch) (acc : Option String × Nat) :
    reqs.foldl (fun acc r => firstKeyStep acc r.2) acc =
      (reqs.filterMap fun r => putKey r.2).foldl (fun acc k => firstKeyStep acc (.req 0 (.put k ""))) acc := by
  induction reqs generalizing acc with
  | nil => rfl
  | cons r reqs ih =>
    obtain ⟨_, ⟨_, ⟨_⟩ | ⟨k, _⟩⟩ | _⟩ := r
    · exact ih acc
    · simp only [List.foldl_cons, List.filterMap_cons, putKey, ih]
      rfl
    · exact ih acc

theorem foldl_putKey_some (key : String) (ver : Nat) (ks : List String) :
    ks.foldl (fun acc k => firstKeyStep acc (.req 0 (.put k ""))) (some key, ver) =
      (some key, ver + ks.count key) := by
  induction ks generalizing ver with
  | nil => rfl
  | cons k ks ih =>
    have hstep : firstKeyStep (some key, ver) (.req 0 (.put k "")) =
        (some key, ver + if k = key then 1 else 0) := by
      by_cases h : key = k <;> simp [firstKeyStep, h, eq_comm]
    rw [List.foldl_cons, hstep, ih, List.count_cons]
    simp only [beq_iff_eq, Nat.add_assoc, Nat.add_comm (ite _ _ _)]

/-- The outer loop, seen over the keys the committed instances put. -/
theorem foldl_committed (s : MultiPaxosReplica) : ∀ (insts : List Instance) acc,
    insts.foldl (fun acc inst =>
      if Status.committed.toCtorIdx ≤ inst.status.toCtorIdx then
        inst.reqs.foldl (fun acc r => firstKeyStep acc r.2) acc
      else acc) acc =
      (committedPutKeys { s with insts }).foldl (fun acc k => firstKeyStep acc (.req 0 (.put k ""))) acc
  | [], _ => rfl
  | inst :: insts, acc => by
    simp only [committedPutKeys, List.foldl_cons, List.flatMap_cons, List.foldl_append]
    split
    · rw [foldl_firstKeyStep]
      exact foldl_committed s insts _
    · exact foldl_committed s insts acc

/-- `val_ver_of_first_key` is the first key put by a committed instance, with
the number of later `Put`s of that key among committed instances. -/
theorem valVerOfFirstKey_eq (s : MultiPaxosReplica) :
    valVerOfFirstKey s =
      (committedPutKeys s).head?.map fun k => (k, (committedPutKeys s).count k - 1) := by
  unfold valVerOfFirstKey
  rw [foldl_committed s]
  rcases committedPutKeys s with _ | ⟨k, ks⟩
  · rfl
  · have hfirst : firstKeyStep (none, 0) (.req 0 (.put k "")) = (some k, 0) := rfl
    simp [hfirst, foldl_putKey_some]

/-- An accepted but uncommitted `Put` of the first key is not counted. -/
example : valVerOfFirstKey ⟨some 0, 1, 1, 0, 0, 0,
    [⟨1, .executed, [(7, .req 1 (.put "a" "x")), (7, .req 2 (.put "b" "y"))], (0, []), none, false⟩,
     ⟨1, .accepting, [(7, .req 3 (.put "a" "z"))], (0, []), none, false⟩,
     ⟨1, .committed, [(8, .req 1 (.put "a" "w"))], (0, []), none, false⟩]⟩ = some ("a", 1) := rfl

end Summerset.MultiPaxos
