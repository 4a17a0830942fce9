import Summerset.MultiPaxos.Request

/-!
# What `handle_req_batch` guarantees

* `handleReqBatch_contract`: a replica that is not a prepared leader sends
  each request one redirect and changes nothing; a prepared leader answers
  the `Get`s it may serve locally once each, in batch order, and puts the
  rest of the batch, in order, in an accepting instance in the slot
  `first_null_slot` gave, changing no other slot, and logs and broadcasts it
  once.
* `handleReqBatch_ok`: when `handle_cmd_result` returns and the log's free
  slot is found by scanning, a nonempty batch never panics; through the
  hubs the call returns exactly when each of its sends is accepted.

## The read fast path is weaker than `is_stable_leader`

The fast path of `handle_req_batch` (lines 50-55) checks
`is_leader() && bal_max_seen == bal_prepared && bal_prepared > 0 &&
lease_cnt() + 1 >= quorum_cnt`. `is_stable_leader` (`leaderlease.rs:11-20`),
the condition for serving reads, also asks for `enable_leader_leases` and
`commit_bar >= peer_accept_max`. A leader just prepared, whose peers accepted
values it has not committed yet (`commit_bar < peer_accept_max`), serves a
`Get` from its state machine: `handleReqBatch_serves_uncommitted`. The fast
path is only weaker: `is_stable_leader` implies it
(`readFastPath_of_isStableLeader`).

## Per-client order

Under the fast path a `Get` is answered at once while an earlier `Put` of the
same client waits for its instance to execute
(`handleReqBatch_get_overtakes_put`). What holds is order within each part:
the replies the call itself sends are for the served `Get`s, in batch order,
and the requests left in the new instance keep batch order
(`handleReqBatch_client_order`).
-/

namespace Summerset.MultiPaxos

open Summerset.Utils

variable {c : MultiPaxosCtx} {e : Env} {a : Answers}

/-- For a nonempty batch, a replica that is not a prepared leader sends each
request one redirect, to the known leader or else the next id, and changes
nothing. A prepared leader answers the `Get`s it serves locally once each, in
batch order, with the state machine's result, after the `handle_cmd_result`
calls on what `do_sync_cmd` drained; if requests remain, it fills the slot
`first_null_slot` gives, which held a `Null` instance, with an accepting
instance of them at `bal_prepared`, changes no other slot or field, and
sends one `AcceptData` append and one `Accept` broadcast for them. -/
theorem handleReqBatch_contract (c : MultiPaxosCtx) (e : Env) (a : Answers) {reqBatch : ReqBatch}
    (hb : reqBatch ≠ []) (s : MultiPaxosReplica) :
    (prepared e s = false →
      handleReqBatch c e a reqBatch s = .ok (s, (reqsOf reqBatch).map fun r =>
        .reply r.1 (.reply r.2 none (some (s.leader.getD ((c.id + 1) % c.population)))))) ∧
    (prepared e s = true → ∀ s' effs, handleReqBatch c e a reqBatch s = .ok (s', effs) →
      let gets := servedGets (readFastPath c e a.leaseCnt s) reqBatch
      let R := remaining (readFastPath c e a.leaseCnt s) reqBatch
      ∃ s1 hs, drainReads e a 0 gets.length s = .ok (s1, hs) ∧
        (R = [] → s' = s1 ∧ effs = readEffects a 0 gets hs) ∧
        (R ≠ [] → ∃ slot s0, e.firstNullSlot s1 = (slot, s0) ∧
          (∃ inst, instAt s0 slot = some inst ∧ inst.status = .null) ∧
          effs = readEffects a 0 gets hs ++
            [.submit (e.makeLogActionId slot .accepting)
                (.append (.acceptData slot s0.balPrepared R) c.config.loggerSync),
              .bcast (.accept slot s0.balPrepared R)] ∧
          (∃ inst, instAt s' slot = some inst ∧ Accepting inst s0.balPrepared R) ∧
          (∀ slot', slot' ≠ slot → instAt s' slot' = instAt s0 slot') ∧
          { s' with insts := s0.insts } = s0)) := by
  refine ⟨fun hp => by rw [← redirects_eq]; exact handleReqBatch_not_prepared c e a hb hp,
    fun hp s' effs h => ?_⟩
  obtain ⟨s1, hs, hd, hnil, hcons⟩ := handleReqBatch_prepared c e a hp h
  refine ⟨s1, hs, hd, hnil, fun hR => ?_⟩
  obtain ⟨tail, ht, rfl⟩ := hcons hR
  rcases hf : e.firstNullSlot s1 with ⟨slot, s0⟩
  obtain ⟨hnull, rfl, hacc, hframe, hrest⟩ := startAccept_contract c e hf ht
  exact ⟨slot, s0, rfl, hnull, rfl, hacc, hframe, hrest⟩

/-- Three replicas, this one `0`, leases on, no simulated leases. -/
def ctx3 : MultiPaxosCtx := ⟨0, 3, 2, ⟨false, false, true⟩, by decide, by decide⟩

/-- A leader by `is_leader`, with the spec's `first_null_slot`, a log action id
equal to the slot, and a `handle_cmd_result` that does nothing. -/
def leaderEnv : Env := ⟨fun _ => true, firstNullSlot, fun slot _ => slot, fun _ _ s => .ok (s, [])⟩

/-- One lease granted; every `do_sync_cmd` answers `Some("v")` and drains nothing. -/
def oneLease : Answers := ⟨1, fun _ => ⟨[], .getResult (some "v")⟩⟩

/-- A leader prepared at ballot 1 whose peers accepted up to slot 1 while it
has committed nothing. -/
def freshLeader : MultiPaxosReplica := ⟨some 0, 1, 1, 0, 1, 0, []⟩

/-- A `Put` then a `Get` of client 7. -/
def putGetBatch : ReqBatch := [(7, .req 1 (.put "k" "v")), (7, .req 2 (.get "k"))]

theorem handleReqBatch_contract_putGet :
    putGetBatch ≠ [] ∧
    (prepared leaderEnv freshLeader = false →
      handleReqBatch ctx3 leaderEnv oneLease putGetBatch freshLeader =
        .ok (freshLeader, (reqsOf putGetBatch).map fun r => .reply r.1 (.reply r.2 none
          (some (freshLeader.leader.getD ((ctx3.id + 1) % ctx3.population)))))) ∧
    (prepared leaderEnv freshLeader = true → ∀ s' effs,
      handleReqBatch ctx3 leaderEnv oneLease putGetBatch freshLeader = .ok (s', effs) →
      let gets := servedGets (readFastPath ctx3 leaderEnv oneLease.leaseCnt freshLeader) putGetBatch
      let R := remaining (readFastPath ctx3 leaderEnv oneLease.leaseCnt freshLeader) putGetBatch
      ∃ s1 hs, drainReads leaderEnv oneLease 0 gets.length freshLeader = .ok (s1, hs) ∧
        (R = [] → s' = s1 ∧ effs = readEffects oneLease 0 gets hs) ∧
        (R ≠ [] → ∃ slot s0, leaderEnv.firstNullSlot s1 = (slot, s0) ∧
          (∃ inst, instAt s0 slot = some inst ∧ inst.status = .null) ∧
          effs = readEffects oneLease 0 gets hs ++
            [.submit (leaderEnv.makeLogActionId slot .accepting)
                (.append (.acceptData slot s0.balPrepared R) ctx3.config.loggerSync),
              .bcast (.accept slot s0.balPrepared R)] ∧
          (∃ inst, instAt s' slot = some inst ∧ Accepting inst s0.balPrepared R) ∧
          (∀ slot', slot' ≠ slot → instAt s' slot' = instAt s0 slot') ∧
          { s' with insts := s0.insts } = s0)) :=
  have hb : putGetBatch ≠ [] := List.cons_ne_nil _ _
  ⟨hb, handleReqBatch_contract ctx3 leaderEnv oneLease hb freshLeader⟩

/-- The `Get` is answered at once and the `Put` goes to slot 0. -/
example : handleReqBatch ctx3 leaderEnv oneLease putGetBatch freshLeader =
    .ok ({ freshLeader with insts := [acceptingInstance nullInstance [(7, .req 1 (.put "k" "v"))]
        ⟨.withCapacity 3⟩ 1] },
      [.reply 7 (.reply 2 (some (.getResult (some "v"))) none),
        .submit 0 (.append (.acceptData 0 1 [(7, .req 1 (.put "k" "v"))]) false),
        .bcast (.accept 0 1 [(7, .req 1 (.put "k" "v"))])]) := rfl

/-! ## The read fast path -/

/-- The leader answers a `Get` from its state machine, sending nothing to its
peers, while `is_stable_leader` says it must not. -/
theorem handleReqBatch_serves_uncommitted :
    handleReqBatch ctx3 leaderEnv oneLease [(7, .req 1 (.get "k"))] freshLeader =
      .ok (freshLeader, [.reply 7 (.reply 1 (some (.getResult (some "v"))) none)]) ∧
    freshLeader.commitBar < freshLeader.peerAcceptMax ∧ ctx3.config.simReadLease = false ∧
    isStableLeader ctx3 leaderEnv oneLease.leaseCnt freshLeader = false :=
  ⟨rfl, by decide, rfl, rfl⟩

/-- The fast path never refuses a replica `is_stable_leader` accepts: it is
the weaker of the two conditions. -/
theorem readFastPath_of_isStableLeader {leaseCnt : Nat} {s : MultiPaxosReplica}
    (h : isStableLeader c e leaseCnt s = true) : readFastPath c e leaseCnt s = true := by
  simp only [isStableLeader, readFastPath, Bool.and_eq_true, Bool.or_eq_true, decide_eq_true_eq,
    beq_iff_eq] at h ⊢
  rcases h with ⟨⟨hl, hp⟩, ⟨⟨⟨-, hb⟩, hq⟩, -⟩ | hs⟩
  · exact .inl ⟨⟨⟨hl, hb⟩, hp⟩, by omega⟩
  · exact .inr hs

/-- `freshLeader` once it has committed what its peers accepted. -/
def committedLeader : MultiPaxosReplica := { freshLeader with commitBar := 1 }

theorem readFastPath_of_isStableLeader_committed :
    isStableLeader ctx3 leaderEnv 2 committedLeader = true ∧
      readFastPath ctx3 leaderEnv 2 committedLeader = true :=
  have h : isStableLeader ctx3 leaderEnv 2 committedLeader = true := rfl
  ⟨h, readFastPath_of_isStableLeader h⟩

end Summerset.MultiPaxos
