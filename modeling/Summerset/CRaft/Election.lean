import Summerset.CRaft.RoleMachine

/-!
# CRaft elections: timeouts of a candidate, and the new leader's heartbeats

## A candidate does not start a new election

`become_a_candidate` returns at once unless the replica is a follower
(`leadership.rs:146-151`). A candidate's hear timer is armed with its own id
(`heard_heartbeat(self.id, ..)`, line 162), so when it fires the call is
`become_a_candidate(id)` from a candidate, which does nothing. A candidate at
term `T` moves only when `check_term` adopts a higher term.

* `reachable_candidate_keeps_term`: after one election from a fresh follower,
  the candidate's own timeout does not start a second one;
* `nonFollower_ignores_timeout`: for every state that is not a follower, every
  timeout is ignored, and every call keeps the term unless it is a
  `check_term` that adopts a higher one and makes the replica a follower.

## `become_the_leader` broadcasts before it resets `try_next_slot`

`become_the_leader` (lines 212-246) calls `bcast_heartbeats` at line 227 and
resets `next_slot`, `try_next_slot` and `match_slot` only after it (lines
230-238). The heartbeat to `p` is built from the `try_next_slot[p]` left from
an earlier leadership: `prev_slot = min(try_next_slot[p] - 1, last_slot)`,
which is below `start_slot` once the log was compacted past it, and the
`debug_assert!(prev_slot >= self.start_slot)` at line 260 fails.

* `becomeTheLeader_stale_panics`: a candidate whose log starts at slot 5 and
  whose `try_next_slot` still holds 1 panics there;
* `becomeTheLeader_panics_of_stale`: so does, on that assertion, every
  candidate with a nonempty log, `try_next_slot` keys of 1 or more, and a peer
  whose `try_next_slot` is at or below `start_slot`;
* `becomeTheLeader_fresh`: when every peer's `try_next_slot` is past
  `start_slot` (and `peer_alive()` counts at most `population` replicas), the
  call succeeds, sends each peer one heartbeat whose `prev_slot` lies in the
  log, resets the slot maps and marks the uncommitted entries external.

The fix is the order the spec gives: `becomeTheLeaderSpecOrder` resets the
maps and marks the entries before it broadcasts, and
`becomeTheLeaderSpecOrder_ok` shows it succeeds whatever `try_next_slot`
held, each peer getting the heartbeat at the last slot of the log; so the
panic comes from the place of the broadcast alone.

## After a step-up, heartbeats do not panic

The panic needs a `try_next_slot` at or below `start_slot`. A successful
`become_the_leader` leaves every peer's `try_next_slot` at the end of a
nonempty log (`becomeTheLeader_ready`), and the other calls keep
`start_slot`, `try_next_slot` and the log (`run_logFrame`), given a
`handle_log_result` that does too (`KeepsLog`).

* `bcastHeartbeats_run_ok`: from such a state, along every run, every
  `bcast_heartbeats` returns.

The results that conclude a call returns say so through the hubs
(`sendThrough`): the call returns exactly when each of its sends is
accepted.
-/

namespace Summerset.CRaft

open Summerset.Utils

variable {c : CRaftCtx} {hlr : LogHandler}

theorem skipsCandidacy_of_ne (src : ReplicaId) {s : CRaftReplica} (h : s.role ≠ .follower) :
    skipsCandidacy c src s = true := by
  simp [skipsCandidacy, h]

/-! ## Timeouts of a candidate -/

/-- The election the spec's retry rule asks for: a reachable candidate whose
own hear timer fires starts the next term. -/
theorem reachable_candidate_keeps_term :
    ¬ ∀ (c : CRaftCtx) (hlr : LogHandler) (s0 : CRaftReplica) (n : Node),
      c.config.disallowStepUp = false → s0.role = .follower →
      Relation.ReflTransGen (Step c hlr) (Node.recovered s0) n → n.rep.role = .candidate →
      ∀ r s' effs, becomeACandidate c hlr c.id r n.rep = .ok (s', effs) →
        s'.currTerm = n.rep.currTerm + 1 ∧ s'.votedFor = some c.id ∧
          s'.votesGranted = {c.id} := fun h => by
  have hs := @Step.mk ctx3 keepHandler (Node.recovered freshFollower)
    (.becomeACandidate 0 ⟨[], .write true 1⟩) _ _ trivial rfl
  have h1 := h ctx3 keepHandler freshFollower _ rfl rfl (.single hs) rfl ⟨[], .write true 1⟩ _ []
    (becomeACandidate_skip ctx3 keepHandler _ rfl)
  exact Nat.succ_ne_self _ h1.1.symm

/-- A replica that is not a follower ignores every election timeout, and each
call keeps its term and its non-follower role unless the call is a
`check_term` that adopts a higher term as a follower. -/
theorem nonFollower_ignores_timeout (hk : KeepsRole hlr) {s : CRaftReplica}
    (hr : s.role ≠ .follower) :
    (∀ src r, becomeACandidate c hlr src r s = .ok (s, [])) ∧
    ∀ op s' effs, Op.run c hlr op s = .ok (s', effs) →
      (s'.currTerm = s.currTerm ∧ s'.role ≠ .follower) ∨
      ∃ peer t r, op = .checkTerm peer t r ∧ s.currTerm < t ∧ s'.currTerm = t ∧
        s'.role = .follower := by
  have hskip : ∀ src r, becomeACandidate c hlr src r s = .ok (s, []) := fun src r =>
    becomeACandidate_skip c hlr r (skipsCandidacy_of_ne src hr)
  refine ⟨hskip, fun op s' effs h => ?_⟩
  cases op with
  | checkTerm peer t r =>
    obtain ⟨b, h⟩ := (run_checkTerm c hlr).mp h
    by_cases ht : s.currTerm < t
    · obtain ⟨h1, -, -, h4, -⟩ := checkTerm_adopt c hlr hk ht h
      exact .inr ⟨peer, t, r, rfl, ht, h1, h4⟩
    · rw [checkTerm_of_le c hlr r (Nat.not_lt.mp ht)] at h
      cases h
      exact .inl ⟨rfl, hr⟩
  | becomeACandidate src r =>
    rw [Op.run, hskip] at h
    cases h
    exact .inl ⟨rfl, hr⟩
  | becomeTheLeader alive =>
    obtain ⟨h1, h2, -⟩ := becomeTheLeader_ok c h
    exact .inl ⟨h2, by rw [h1]; decide⟩
  | bcastHeartbeats alive =>
    obtain ⟨⟨h1, -, -, h4⟩, -⟩ := bcastHeartbeats_ok c h
    exact .inl ⟨h1, h4 ▸ hr⟩
  | heardHeartbeat peer t =>
    cases h
    obtain ⟨h1, -, -, h4⟩ := sameRole_heardHeartbeat c peer t s
    exact .inl ⟨h1, h4 ▸ hr⟩

/-- The candidate `freshFollower` becomes after its first election. -/
def freshCandidate : CRaftReplica :=
  { freshFollower with role := .candidate, currTerm := 1, votedFor := some 0,
                       votesGranted := {0}, heartbeater := ⟨some 0, false⟩ }

theorem nonFollower_ignores_timeout_fresh :
    KeepsRole keepHandler ∧ freshCandidate.role ≠ .follower ∧
      (∀ src r, becomeACandidate ctx3 keepHandler src r freshCandidate = .ok (freshCandidate, [])) ∧
      ∀ op s' effs, Op.run ctx3 keepHandler op freshCandidate = .ok (s', effs) →
        (s'.currTerm = freshCandidate.currTerm ∧ s'.role ≠ .follower) ∨
        ∃ peer t r, op = .checkTerm peer t r ∧ freshCandidate.currTerm < t ∧
          s'.currTerm = t ∧ s'.role = .follower :=
  have hk : KeepsRole keepHandler := fun _ _ s _ h => by cases h; exact .rfl' s
  have hr : freshCandidate.role ≠ .follower := by decide
  ⟨hk, hr, nonFollower_ignores_timeout hk hr⟩

/-! ## The new leader's heartbeats -/

/-- A candidate of `ctx3` at term 2 whose log was compacted to start at slot 5,
with `try_next_slot` still 1 for every peer. -/
def staleCandidate : CRaftReplica :=
  { freshCandidate with currTerm := 2, votesGranted := {0, 1}, startSlot := 5,
                        log := [⟨1, false⟩], lastCommit := 5, lastSnap := 5,
                        nextSlot := fun _ => some 1, tryNextSlot := fun _ => some 1,
                        matchSlot := fun _ => some 0 }

/-- The code panics on the `debug_assert!` of `bcast_heartbeats`. -/
theorem becomeTheLeader_stale_panics :
    becomeTheLeader ctx3 ⟨.withCapacity 3⟩ staleCandidate =
      .error (.panic "assertion failed: prev_slot >= self.start_slot") := rfl

/-- With a nonempty log and a `try_next_slot` of 1 or more for the peer, the
only way a heartbeat fails is the `debug_assert!` of line 260. -/
theorem heartbeatTo_error {s : CRaftReplica} {peer v : Nat} {f : Fault}
    (hv : s.tryNextSlot peer = some v) (h1 : 1 ≤ v) (hlog : s.log ≠ [])
    (h : heartbeatTo s peer = .error f) :
    f = .panic "assertion failed: prev_slot >= self.start_slot" := by
  have hl : 0 < s.log.length := List.length_pos.mpr hlog
  simp only [heartbeatTo, mapGet_some hv, ok_bind, checkedSub_of_le h1,
    checkedSub_of_le (show 1 ≤ s.startSlot + s.log.length by omega)] at h
  by_cases hge : min (v - 1) (s.startSlot + s.log.length - 1) ≥ s.startSlot
  · -- the assertion holds, and the slot is in the log
    simp only [decide_eq_true hge, debugAssert_true, ok_bind, checkedSub_of_le hge,
      index_of_lt (show min (v - 1) (s.startSlot + s.log.length - 1) - s.startSlot <
        s.log.length by omega)] at h
    cases h
  · simp only [decide_eq_false hge, debugAssert, Bool.false_eq_true, if_false, error_bind] at h
    cases h
    rfl

/-- With a nonempty log and every peer's `try_next_slot` key at 1 or more,
a peer whose `try_next_slot` is at or below `start_slot` makes
`become_the_leader` panic on the `debug_assert!` of line 260. -/
theorem becomeTheLeader_panics_of_stale {alive : Bitmap} {s : CRaftReplica} {p v : Nat}
    (hlog : s.log ≠ [])
    (hkeys : ∀ q < c.population, q ≠ c.id → ∃ w, s.tryNextSlot q = some w ∧ 1 ≤ w)
    (hp : p < c.population) (hne : p ≠ c.id) (hv : s.tryNextSlot p = some v)
    (hle : v ≤ s.startSlot) :
    becomeTheLeader c alive s = .error (.panic "assertion failed: prev_slot >= self.start_slot") := by
  let s1 : CRaftReplica :=
    { s with role := .leader, heartbeater := { s.heartbeater with sending := true } }
  obtain ⟨f, hf⟩ := heartbeatTo_stale (show s1.tryNextSlot p = some v from hv) hle
  have hmem : p ∈ (List.range c.population).filter (· ≠ c.id) :=
    List.mem_filter.mpr ⟨List.mem_range.mpr hp, decide_eq_true hne⟩
  obtain ⟨f', hm⟩ := mapM_error_of_mem hmem hf
  obtain ⟨q, hq, hqf⟩ := mapM_eq_error hm
  obtain ⟨hq, hqne⟩ := List.mem_filter.mp hq
  obtain ⟨w, hw, h1⟩ := hkeys q (List.mem_range.mp hq) (of_decide_eq_true hqne)
  rw [← heartbeatTo_error (show s1.tryNextSlot q = some w from hw) h1 hlog hqf]
  simp only [becomeTheLeader, bcastHeartbeats, s1, hm, error_bind]

theorem becomeTheLeader_panics_of_stale_five :
    staleCandidate.log ≠ [] ∧
      (∀ q < ctx3.population, q ≠ ctx3.id → ∃ w, staleCandidate.tryNextSlot q = some w ∧ 1 ≤ w) ∧
      1 < ctx3.population ∧ 1 ≠ ctx3.id ∧ staleCandidate.tryNextSlot 1 = some 1 ∧
      1 ≤ staleCandidate.startSlot ∧
      becomeTheLeader ctx3 ⟨.withCapacity 3⟩ staleCandidate =
        .error (.panic "assertion failed: prev_slot >= self.start_slot") :=
  have hlog : staleCandidate.log ≠ [] := List.cons_ne_nil _ _
  have hkeys : ∀ q < ctx3.population, q ≠ ctx3.id →
      ∃ w, staleCandidate.tryNextSlot q = some w ∧ 1 ≤ w := fun _ _ _ => ⟨1, rfl, le_rfl⟩
  ⟨hlog, hkeys, by decide, by decide, rfl, by decide,
    @becomeTheLeader_panics_of_stale ctx3 ⟨.withCapacity 3⟩ staleCandidate 1 1 hlog hkeys
      (by decide) (by decide) rfl (by decide)⟩

/-- When every peer's `try_next_slot` is past `start_slot`, `become_the_leader`
announces the step-up, sends each peer in order one heartbeat whose
`prev_slot` is a slot of the log with that slot's term, resets `next_slot`,
`try_next_slot` and `match_slot`, and marks exactly the entries after
`last_commit` external; through the hubs it returns so exactly when each of
its sends is accepted. -/
theorem becomeTheLeader_fresh {alive : Bitmap} {s : CRaftReplica}
    (hlog : s.log ≠ []) (hc : s.startSlot ≤ s.lastCommit) (halive : alive.count ≤ c.population)
    (htry : ∀ p < c.population, p ≠ c.id → ∃ v, s.tryNextSlot p = some v ∧ s.startSlot < v) :
    ∃ s' sends, (∀ hub, sendThrough hub (becomeTheLeader c alive s) =
        .ok (s', .ctrl (.leaderStatus true) :: sends) ↔
        ∀ e ∈ Effect.ctrl (.leaderStatus true) :: sends, hub e = .ok ()) ∧
      List.Forall₂ (fun p e => ∃ prev entry, s.startSlot ≤ prev ∧
          prev < s.startSlot + s.log.length ∧ s.log[prev - s.startSlot]? = some entry ∧
          e = .send p (.appendEntries s.currTerm prev entry.term [] s.lastCommit s.lastSnap))
        ((List.range c.population).filter (· ≠ c.id)) sends ∧
      s'.role = .leader ∧
      s'.nextSlot = setValues s.nextSlot (s.startSlot + s.log.length) ∧
      s'.tryNextSlot = setValues s.tryNextSlot (s.startSlot + s.log.length) ∧
      s'.matchSlot = setValues s.matchSlot 0 ∧
      ∀ i, s'.log[i]? = s.log[i]?.map fun e =>
        if s.lastCommit < s.startSlot + i then { e with external := true } else e := by
  let s1 : CRaftReplica :=
    { s with role := .leader, heartbeater := { s.heartbeater with sending := true } }
  have hsend : ∀ p ∈ (List.range c.population).filter (· ≠ c.id), ∃ e, heartbeatTo s1 p = .ok e :=
    fun p hp => by
      obtain ⟨hp, hne⟩ := List.mem_filter.mp hp
      obtain ⟨v, hv, hlt⟩ := htry p (List.mem_range.mp hp) (of_decide_eq_true hne)
      obtain ⟨_, _, -, -, -, -, h⟩ := heartbeatTo_ok (show s1.tryNextSlot p = some v from hv) hlt hlog
      exact ⟨_, h⟩
  obtain ⟨sends, hs, hrel⟩ := mapM_ok_of_forall hsend
  obtain ⟨hb, hb_eq⟩ := bcastHeartbeats_eq c hs fun _ => halive
  exact ⟨_, sends, sendThrough_ok_iff (becomeTheLeader_of_bcast c hb_eq (by dsimp only; omega)),
    hrel.imp fun _ _ h => heartbeatTo_inv h, rfl, rfl, rfl, rfl,
    getElem?_markExternal_after s.startSlot s.lastCommit s.log⟩

/-- `staleCandidate` with every `try_next_slot` caught up to slot 6. -/
def caughtUpCandidate : CRaftReplica := { staleCandidate with tryNextSlot := fun _ => some 6 }

theorem becomeTheLeader_fresh_caughtUp :
    caughtUpCandidate.log ≠ [] ∧ caughtUpCandidate.startSlot ≤ caughtUpCandidate.lastCommit ∧
      (⟨.withCapacity 3⟩ : Bitmap).count ≤ ctx3.population ∧
      (∀ p < ctx3.population, p ≠ ctx3.id →
        ∃ v, caughtUpCandidate.tryNextSlot p = some v ∧ caughtUpCandidate.startSlot < v) ∧
      ∃ s' sends, (∀ hub, sendThrough hub (becomeTheLeader ctx3 ⟨.withCapacity 3⟩ caughtUpCandidate) =
          .ok (s', .ctrl (.leaderStatus true) :: sends) ↔
          ∀ e ∈ Effect.ctrl (.leaderStatus true) :: sends, hub e = .ok ()) ∧
        List.Forall₂ (fun p e => ∃ prev entry, caughtUpCandidate.startSlot ≤ prev ∧
            prev < caughtUpCandidate.startSlot + caughtUpCandidate.log.length ∧
            caughtUpCandidate.log[prev - caughtUpCandidate.startSlot]? = some entry ∧
            e = .send p (.appendEntries caughtUpCandidate.currTerm prev entry.term []
              caughtUpCandidate.lastCommit caughtUpCandidate.lastSnap))
          ((List.range ctx3.population).filter (· ≠ ctx3.id)) sends ∧
        s'.role = .leader ∧
        s'.nextSlot = setValues caughtUpCandidate.nextSlot
          (caughtUpCandidate.startSlot + caughtUpCandidate.log.length) ∧
        s'.tryNextSlot = setValues caughtUpCandidate.tryNextSlot
          (caughtUpCandidate.startSlot + caughtUpCandidate.log.length) ∧
        s'.matchSlot = setValues caughtUpCandidate.matchSlot 0 ∧
        ∀ i, s'.log[i]? = caughtUpCandidate.log[i]?.map fun e =>
          if caughtUpCandidate.lastCommit < caughtUpCandidate.startSlot + i then
            { e with external := true } else e :=
  have hlog : caughtUpCandidate.log ≠ [] := List.cons_ne_nil _ _
  have hc : caughtUpCandidate.startSlot ≤ caughtUpCandidate.lastCommit := by decide
  have halive : (⟨.withCapacity 3⟩ : Bitmap).count ≤ ctx3.population := by decide
  have htry : ∀ p < ctx3.population, p ≠ ctx3.id →
      ∃ v, caughtUpCandidate.tryNextSlot p = some v ∧ caughtUpCandidate.startSlot < v :=
    fun _ _ _ => ⟨6, rfl, by decide⟩
  ⟨hlog, hc, halive, htry, becomeTheLeader_fresh hlog hc halive htry⟩

/-- `become_the_leader` with its steps in the order the spec gives for a new
leader: reset `next_slot`, `try_next_slot` and `match_slot`, mark the
uncommitted entries external, then broadcast the heartbeats. Only the place
of the `bcast_heartbeats` call differs from `becomeTheLeader`. -/
def becomeTheLeaderSpecOrder (c : CRaftCtx) (alive : Bitmap) (s : CRaftReplica) :
    Except Fault (CRaftReplica × List Effect) := do
  let s := { s with role := .leader, heartbeater := { s.heartbeater with sending := true } }
  let n := s.startSlot + s.log.length
  let s := { s with nextSlot := setValues s.nextSlot n, tryNextSlot := setValues s.tryNextSlot n,
                    matchSlot := setValues s.matchSlot 0 }
  let k ← checkedSub (s.lastCommit + 1) s.startSlot
  let (s, sends) ← bcastHeartbeats c alive { s with log := markExternal k s.log }
  pure (s, .ctrl (.leaderStatus true) :: sends)

/-- In the spec's order the call succeeds on every state with a nonempty log
and a `try_next_slot` key for every peer, whatever value the key held: each
peer gets one heartbeat at the last slot of the log with that slot's term,
and the maps and marks are those of `becomeTheLeader_fresh`. -/
theorem becomeTheLeaderSpecOrder_ok {alive : Bitmap} {s : CRaftReplica} {last : LogEntry}
    (hlast : s.log.getLast? = some last) (hc : s.startSlot ≤ s.lastCommit + 1)
    (halive : alive.count ≤ c.population)
    (hkey : ∀ p < c.population, p ≠ c.id → (s.tryNextSlot p).isSome) :
    ∃ s', becomeTheLeaderSpecOrder c alive s = .ok (s', .ctrl (.leaderStatus true) ::
        ((List.range c.population).filter (· ≠ c.id)).map fun p =>
          .send p (.appendEntries s.currTerm (s.startSlot + s.log.length - 1) last.term []
            s.lastCommit s.lastSnap)) ∧
      s'.role = .leader ∧
      s'.nextSlot = setValues s.nextSlot (s.startSlot + s.log.length) ∧
      s'.tryNextSlot = setValues s.tryNextSlot (s.startSlot + s.log.length) ∧
      s'.matchSlot = setValues s.matchSlot 0 ∧
      ∀ i, s'.log[i]? = s.log[i]?.map fun e =>
        if s.lastCommit < s.startSlot + i then { e with external := true } else e := by
  let n := s.startSlot + s.log.length
  let s3 : CRaftReplica :=
    { s with role := .leader, heartbeater := { s.heartbeater with sending := true },
             nextSlot := setValues s.nextSlot n, tryNextSlot := setValues s.tryNextSlot n,
             matchSlot := setValues s.matchSlot 0,
             log := markExternal (s.lastCommit + 1 - s.startSlot) s.log }
  have hterm : s3.log.getLast?.map LogEntry.term = some last.term := by
    simp only [s3, getLast?_markExternal_term, hlast, Option.map_some']
  have hsend : ∀ p ∈ (List.range c.population).filter (· ≠ c.id), heartbeatTo s3 p =
      .ok (.send p (.appendEntries s.currTerm (s.startSlot + s.log.length - 1) last.term []
        s.lastCommit s.lastSnap)) := fun p hp => by
    obtain ⟨hp, hne⟩ := List.mem_filter.mp hp
    obtain ⟨v, hv⟩ := Option.isSome_iff_exists.mp
      (hkey p (List.mem_range.mp hp) (of_decide_eq_true hne))
    have hreset : s3.tryNextSlot p = some (s3.startSlot + s3.log.length) := by
      simp only [s3, setValues, hv, Option.map_some', length_markExternal, n]
    simpa only [s3, length_markExternal] using heartbeatTo_lastSlot hreset hterm
  obtain ⟨hb, hb_eq⟩ := bcastHeartbeats_eq c (mapM_eq_map hsend) fun _ => halive
  refine ⟨{ s3 with heartbeater := hb, fullCopyMode := (s3.fullCopyMode ||
      decide (c.config.faultTolerance ≤ c.population - alive.count)) },
    ?_, rfl, rfl, rfl, rfl, getElem?_markExternal_after s.startSlot s.lastCommit s.log⟩
  simp only [becomeTheLeaderSpecOrder, checkedSub_of_le hc, ok_bind]
  rw [hb_eq]
  rfl

/-- On `staleCandidate`, where `becomeTheLeader` panics, the spec's order
sends both peers the heartbeat at slot 5. -/
example : ∃ s', becomeTheLeaderSpecOrder ctx3 ⟨.withCapacity 3⟩ staleCandidate =
    .ok (s', [.ctrl (.leaderStatus true), .send 1 (.appendEntries 2 5 1 [] 5 5),
      .send 2 (.appendEntries 2 5 1 [] 5 5)]) :=
  let ⟨s', h, _⟩ := @becomeTheLeaderSpecOrder_ok ctx3 ⟨.withCapacity 3⟩ staleCandidate ⟨1, false⟩
    rfl (by decide) (by decide) fun _ _ _ => rfl
  ⟨s', h⟩

/-! ## After a step-up, heartbeats do not panic -/

/-- `s'` has the `start_slot` and `try_next_slot` of `s`, and a log at least
as long. -/
structure LogFrame (s s' : CRaftReplica) : Prop where
  startSlot : s'.startSlot = s.startSlot
  tryNextSlot : s'.tryNextSlot = s.tryNextSlot
  length : s.log.length ≤ s'.log.length

theorem LogFrame.refl (s : CRaftReplica) : LogFrame s s := ⟨rfl, rfl, le_rfl⟩

theorem LogFrame.trans {s s' s'' : CRaftReplica} (h : LogFrame s s') (h' : LogFrame s' s'') :
    LogFrame s s'' :=
  ⟨h'.startSlot.trans h.startSlot, h'.tryNextSlot.trans h.tryNextSlot, h.length.trans h'.length⟩

/-- A hypothesis on `handle_log_result`, which is not under `src/`: it keeps
`start_slot` and `try_next_slot`, and takes no entry out of the log. -/
def KeepsLog (hlr : LogHandler) : Prop := ∀ i r s s', hlr i r s = .ok s' → LogFrame s s'

variable (c) in
/-- What a heartbeat to every peer needs: for each peer, a nonempty log and
a `try_next_slot` past `start_slot`. -/
def HeartbeatReady (s : CRaftReplica) : Prop :=
  ∀ p < c.population, p ≠ c.id → s.log ≠ [] ∧ ∃ v, s.tryNextSlot p = some v ∧ s.startSlot < v

theorem HeartbeatReady.of_frame {s s' : CRaftReplica} (h : HeartbeatReady c s)
    (hf : LogFrame s s') : HeartbeatReady c s' := fun p hp hne => by
  obtain ⟨hlog, hv⟩ := h p hp hne
  exact ⟨List.ne_nil_of_length_pos ((List.length_pos.mpr hlog).trans_le hf.length),
    hf.tryNextSlot ▸ hf.startSlot ▸ hv⟩

theorem logFrame_heardHeartbeat (peer : ReplicaId) (t : Nat) (s : CRaftReplica) :
    LogFrame s (heardHeartbeat c peer t s) := by
  obtain ⟨hb, e⟩ := heardHeartbeat_eq c peer t s
  rw [e]; exact ⟨rfl, rfl, le_rfl⟩

section Frame

variable (hk : KeepsLog hlr)
include hk

theorem foldLogResults_logFrame (peer : ReplicaId) (t : Nat) :
    ∀ {olds s s'}, foldLogResults c hlr peer t olds s = .ok s' → LogFrame s s'
  | [], s, _, h => by cases h; exact .refl s
  | (i, r) :: _, _, _, h => by
    obtain ⟨s1, h1, h2⟩ := bind_eq_ok.mp h
    exact (hk i r _ s1 h1).trans ((logFrame_heardHeartbeat peer t s1).trans
      (foldLogResults_logFrame peer t h2))

/-- Every call but `become_the_leader` keeps `start_slot` and
`try_next_slot`, and takes no entry out of the log. -/
theorem run_logFrame {op : Op} {s s' : CRaftReplica} {effs : List Effect}
    (h : Op.run c hlr op s = .ok (s', effs)) :
    LogFrame s s' ∨ ∃ alive, becomeTheLeader c alive s = .ok (s', effs) := by
  cases op with
  | checkTerm peer t r =>
    obtain ⟨b, h⟩ := (run_checkTerm c hlr).mp h
    left
    by_cases ht : s.currTerm < t
    · simp only [checkTerm, gt_iff_lt, ht, if_true] at h
      obtain ⟨s2, h2, h⟩ := bind_eq_ok.mp h
      have h1 : LogFrame s (adoptTerm c peer t s) :=
        .trans (by exact ⟨rfl, rfl, le_rfl⟩) (logFrame_heardHeartbeat peer t _)
      have hf := h1.trans (foldLogResults_logFrame hk peer t h2)
      split at h
      · simp [bind_eq_ok] at h
      simp only [pure_bind] at h
      split at h <;> simp only [pure_eq_ok, Except.ok.injEq, Prod.mk.injEq] at h <;>
        obtain ⟨-, rfl, -⟩ := h
      exacts [⟨hf.1, hf.2, hf.3⟩, hf]
    · rw [checkTerm_of_le c hlr r (Nat.not_lt.mp ht)] at h
      cases h; exact .refl s
  | becomeACandidate src r =>
    left
    change becomeACandidate c hlr src r s = _ at h
    cases h0 : skipsCandidacy c src s
    · simp only [becomeACandidate, h0, Bool.false_eq_true, if_false] at h
      split at h
      · simp [bind_eq_ok] at h
      simp only [pure_bind] at h
      obtain ⟨_, -, h⟩ := bind_eq_ok.mp h
      obtain ⟨s2, h2, h⟩ := bind_eq_ok.mp h
      split at h
      · simp [bind_eq_ok] at h
      simp only [pure_bind, pure_eq_ok, Except.ok.injEq, Prod.mk.injEq] at h
      obtain ⟨rfl, -⟩ := h
      have h1 : LogFrame s (heardHeartbeat c c.id (s.currTerm + 1) (startCandidacy c s)) :=
        .trans (by exact ⟨rfl, rfl, le_rfl⟩) (logFrame_heardHeartbeat c.id _ _)
      exact h1.trans (foldLogResults_logFrame hk _ _ h2)
    · rw [becomeACandidate_skip c hlr r h0] at h
      cases h; exact .refl s
  | becomeTheLeader alive => exact .inr ⟨alive, h⟩
  | bcastHeartbeats alive =>
    obtain ⟨-, hb, rfl⟩ := bcastHeartbeats_inv c h
    exact .inl ⟨rfl, rfl, le_rfl⟩
  | heardHeartbeat peer t =>
    cases h
    exact .inl (logFrame_heardHeartbeat peer t s)

end Frame

theorem heartbeatTo_key {s : CRaftReplica} {peer : ReplicaId} {e : Effect}
    (h : heartbeatTo s peer = .ok e) : ∃ v, s.tryNextSlot peer = some v := by
  cases hv : s.tryNextSlot peer with
  | none => simp [heartbeatTo, mapGet, hv] at h
  | some v => exact ⟨v, rfl⟩

/-- A successful `become_the_leader` leaves every peer's `try_next_slot` at
the end of a nonempty log. -/
theorem becomeTheLeader_ready {alive : Bitmap} {s s' : CRaftReplica} {effs : List Effect}
    (h : becomeTheLeader c alive s = .ok (s', effs)) : HeartbeatReady c s' := by
  obtain ⟨⟨s2, sends⟩, hb, h⟩ := bind_eq_ok.mp h
  obtain ⟨hs, hbt, rfl⟩ := bcastHeartbeats_inv c hb
  obtain ⟨_, -, h⟩ := bind_eq_ok.mp h
  simp only [pure_eq_ok, Except.ok.injEq, Prod.mk.injEq] at h
  obtain ⟨rfl, -⟩ := h
  intro p hp hne
  obtain ⟨eff, he⟩ := mapM_ok_forall hs p
    (List.mem_filter.mpr ⟨List.mem_range.mpr hp, decide_eq_true hne⟩)
  obtain ⟨v, hv⟩ := heartbeatTo_key he
  obtain ⟨prev, -, hge, hlt, -⟩ := heartbeatTo_inv he
  have hl : 0 < s.log.length := by dsimp only at hge hlt; omega
  refine ⟨List.ne_nil_of_length_pos (by simpa using hl), s.startSlot + s.log.length, ?_, ?_⟩
  · show (s.tryNextSlot p).map _ = _
    rw [show s.tryNextSlot p = some v from hv]; rfl
  · dsimp only; omega

/-- With every heartbeat ready, `bcast_heartbeats` returns. -/
theorem bcastHeartbeats_ready {alive : Bitmap} {s : CRaftReplica} (hr : HeartbeatReady c s)
    (halive : alive.count ≤ c.population) : ∃ s' effs, bcastHeartbeats c alive s = .ok (s', effs) := by
  have hsend : ∀ p ∈ (List.range c.population).filter (· ≠ c.id), ∃ e, heartbeatTo s p = .ok e :=
    fun p hp => by
      obtain ⟨hp, hne⟩ := List.mem_filter.mp hp
      obtain ⟨hlog, v, hv, hlt⟩ := hr p (List.mem_range.mp hp) (of_decide_eq_true hne)
      obtain ⟨_, _, -, -, -, -, h⟩ := heartbeatTo_ok hv hlt hlog
      exact ⟨_, h⟩
  obtain ⟨sends, hs, -⟩ := mapM_ok_of_forall hsend
  obtain ⟨hb, e⟩ := bcastHeartbeats_eq c hs fun _ => halive
  exact ⟨_, _, e⟩

theorem heartbeatReady_step (hk : KeepsLog hlr) {n n' : Node} (hr : HeartbeatReady c n.rep)
    (h : Step c hlr n n') : HeartbeatReady c n'.rep := by
  obtain ⟨-, h⟩ := h
  rcases run_logFrame hk h with hf | ⟨alive, h⟩
  exacts [hr.of_frame hf, becomeTheLeader_ready h]

/-- Once every peer's `try_next_slot` is past `start_slot` over a nonempty
log, as every successful `become_the_leader` leaves them, it stays so along
every run, and no `bcast_heartbeats` of the run panics: through the hubs it
returns exactly when each heartbeat it sends is accepted. -/
theorem bcastHeartbeats_run_ok (hk : KeepsLog hlr) {n₀ n : Node} (h0 : HeartbeatReady c n₀.rep)
    (h : Relation.ReflTransGen (Step c hlr) n₀ n) :
    HeartbeatReady c n.rep ∧ ∀ alive : Bitmap, alive.count ≤ c.population →
      ∃ s' effs, ∀ hub, sendThrough hub (bcastHeartbeats c alive n.rep) = .ok (s', effs) ↔
        ∀ e ∈ effs, hub e = .ok () := by
  have hr : HeartbeatReady c n.rep := by
    induction h with
    | refl => exact h0
    | tail _ hs ih => exact heartbeatReady_step hk ih hs
  refine ⟨hr, fun _ halive => ?_⟩
  obtain ⟨s', effs, h⟩ := bcastHeartbeats_ready hr halive
  exact ⟨s', effs, sendThrough_ok_iff h⟩

theorem bcastHeartbeats_run_ok_caughtUp :
    KeepsLog keepHandler ∧ HeartbeatReady ctx3 (Node.recovered caughtUpCandidate).rep ∧
      ∃ n, Relation.ReflTransGen (Step ctx3 keepHandler) (Node.recovered caughtUpCandidate) n ∧
        n.rep.role = .leader ∧ HeartbeatReady ctx3 n.rep ∧
        ∀ alive : Bitmap, alive.count ≤ ctx3.population →
          ∃ s' effs, ∀ hub, sendThrough hub (bcastHeartbeats ctx3 alive n.rep) = .ok (s', effs) ↔
            ∀ e ∈ effs, hub e = .ok () :=
  have hk : KeepsLog keepHandler := fun _ _ s _ h => by cases h; exact .refl s
  have h0 : HeartbeatReady ctx3 (Node.recovered caughtUpCandidate).rep :=
    fun _ _ _ => ⟨List.cons_ne_nil _ _, 6, rfl, by decide⟩
  have hr : Relation.ReflTransGen (Step ctx3 keepHandler) (Node.recovered caughtUpCandidate) _ :=
    .single (@Step.mk ctx3 keepHandler (Node.recovered caughtUpCandidate)
      (.becomeTheLeader ⟨.withCapacity 3⟩) _ _ rfl rfl)
  ⟨hk, h0, _, hr, rfl, bcastHeartbeats_run_ok hk h0 hr⟩

end Summerset.CRaft
