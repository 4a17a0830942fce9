import Summerset.CRaft.RoleMachine
import Mathlib.Data.List.Chain

/-!
# What a CRaft replica sends over a whole run

`RoleMachine` follows the replica's state along a run of the five operations
of `leadership.rs`. Here the run also keeps what each call sent, in order
(`Trace`); erasing the effects gives back the runs of `Step` (`Trace.run`,
`exists_trace`). A replica tells its peers its term in every message, makes
`(curr_term, voted_for)` durable at offset 0 of its log, and tells the
cluster manager when it steps up to leader or back down
(`CtrlMsg::LeaderStatus`).

**Hypothesis.** `handle_log_result` writes none of `curr_term`, `voted_for`,
`votes_granted` and `role` (`KeepsRole`), as for `roleMachine_invariant`.

**Results.**
* `callTerms`, `callNotices`: what one call sends;
* `trace_terms`: over every trace, the terms of the messages sent never go
  down and stay within the replica's terms; the `RequestVote`s are for
  strictly increasing terms, so the replica campaigns at most once in a term,
  and each term it campaigns in is recorded with its own vote; the meta
  records written at offset 0 are for strictly increasing terms, so no two of
  them record votes for one term;
* `life_terms`: across crashes at any point of a call, each restart
  recovering the term and the vote from the meta record last made durable
  (`Life`): the meta records are still for strictly increasing terms, and
  after every call the durable record is the replica's term and vote; but a
  crash between `become_a_candidate`'s `RequestVote` broadcast and its meta
  write loses that term, so the replica may campaign for it again: the
  `RequestVote` terms only never go down, and a message is at most one term
  past the current term;
* `trace_leaderStatus`: from a replica that is not the leader, the manager is
  never told of two step-ups without a step-down between, and after every
  call the last notice it got says step-up exactly when the replica is the
  leader.
-/

namespace Summerset.CRaft

open Summerset.Utils

/-- The term a peer message carries. -/
def PeerMsg.term : PeerMsg → Nat
  | .appendEntries t .. => t
  | .requestVote t .. => t

/-- The term of the peer message an effect sends, if any. -/
def Effect.msgTerm : Effect → Option Nat
  | .send _ m => some m.term
  | .bcast m => some m.term
  | _ => none

/-- The term of the `RequestVote` an effect sends, if any. -/
def Effect.voteTerm : Effect → Option Nat
  | .send _ (.requestVote t _ _) => some t
  | .bcast (.requestVote t _ _) => some t
  | _ => none

/-- The `step_up` flag of the `LeaderStatus` notice an effect sends, if any. -/
def Effect.notice : Effect → Option Bool
  | .ctrl (.leaderStatus stepUp) => some stepUp
  | _ => none

/-- The terms of the messages sent among `effs`, in order. -/
def msgTerms (effs : List Effect) : List Nat := effs.filterMap Effect.msgTerm

/-- The terms of the `RequestVote`s sent among `effs`, in order. -/
def voteTerms (effs : List Effect) : List Nat := effs.filterMap Effect.voteTerm

/-- The meta records written at offset 0 among `effs`, in order. -/
def metaRecords (effs : List Effect) : List (Nat × Option ReplicaId) :=
  effs.filterMap Effect.metaRecord

/-- The `LeaderStatus` notices sent among `effs`, in order. -/
def notices (effs : List Effect) : List Bool := effs.filterMap Effect.notice

section Lists

variable (effs effs' : List Effect)

@[simp] theorem msgTerms_append : msgTerms (effs ++ effs') = msgTerms effs ++ msgTerms effs' :=
  List.filterMap_append _ _ _
@[simp] theorem voteTerms_append : voteTerms (effs ++ effs') = voteTerms effs ++ voteTerms effs' :=
  List.filterMap_append _ _ _
@[simp] theorem metaRecords_append :
    metaRecords (effs ++ effs') = metaRecords effs ++ metaRecords effs' :=
  List.filterMap_append _ _ _
@[simp] theorem notices_append : notices (effs ++ effs') = notices effs ++ notices effs' :=
  List.filterMap_append _ _ _

end Lists

theorem msgTerm_of_voteTerm {e : Effect} {t : Nat} (h : e.voteTerm = some t) :
    e.msgTerm = some t := by
  cases e with
  | send _ m => cases m <;> cases h; rfl
  | bcast m => cases m <;> cases h; rfl
  | ctrl => cases h
  | logSync => cases h

theorem mem_msgTerms_of_mem_voteTerms {effs : List Effect} {t : Nat} (h : t ∈ voteTerms effs) :
    t ∈ msgTerms effs := by
  obtain ⟨e, he, hv⟩ := List.mem_filterMap.mp h
  exact List.mem_filterMap.mpr ⟨e, he, msgTerm_of_voteTerm hv⟩

/-! ## What one call sends -/

/-- `effs` sends only messages at term `t` other than `RequestVote`s, and
writes no meta record. -/
def SendsAt (t : Nat) (effs : List Effect) : Prop :=
  ∀ e ∈ effs, e.voteTerm = none ∧ e.metaRecord = none ∧ ∀ x, e.msgTerm = some x → x = t

theorem sendsAt_nil (t : Nat) : SendsAt t [] := fun _ h => absurd h (List.not_mem_nil _)

theorem SendsAt.lists {t : Nat} {effs : List Effect} (h : SendsAt t effs) :
    voteTerms effs = [] ∧ metaRecords effs = [] ∧ ∀ x ∈ msgTerms effs, x = t :=
  ⟨List.filterMap_eq_nil_iff.mpr fun e he => (h e he).1,
    List.filterMap_eq_nil_iff.mpr fun e he => (h e he).2.1,
    fun x hx => by
      obtain ⟨e, he, hm⟩ := List.mem_filterMap.mp hx
      exact (h e he).2.2 x hm⟩

theorem notices_sends {effs : List Effect} (h : ∀ e ∈ effs, ∃ p m, e = .send p m) :
    notices effs = [] :=
  List.filterMap_eq_nil_iff.mpr fun e he => by obtain ⟨p, m, rfl⟩ := h e he; rfl

variable {c : CRaftCtx} {hlr : LogHandler}

section MetaWrite

variable (s : CRaftReplica) (effs : List Effect)

@[simp] theorem msgTerms_metaWrite : msgTerms (metaWrite c s :: effs) = msgTerms effs := rfl
@[simp] theorem voteTerms_metaWrite : voteTerms (metaWrite c s :: effs) = voteTerms effs := rfl
@[simp] theorem notices_metaWrite : notices (metaWrite c s :: effs) = notices effs := rfl
@[simp] theorem metaRecords_metaWrite :
    metaRecords (metaWrite c s :: effs) = (s.currTerm, s.votedFor) :: metaRecords effs := rfl

@[simp] theorem adoptTerm_currTerm (peer t : Nat) : (adoptTerm c peer t s).currTerm = t :=
  (sameRole_heardHeartbeat c peer t _).currTerm
@[simp] theorem adoptTerm_votedFor (peer t : Nat) : (adoptTerm c peer t s).votedFor = none :=
  (sameRole_heardHeartbeat c peer t _).votedFor

end MetaWrite

/-- The step-down notice of `check_term`, if it is sent. -/
theorem sendsAt_stepDown (t : Nat) (p : Prop) [Decidable p] :
    SendsAt t (if p then [] else [.ctrl (.leaderStatus false)]) := by
  split
  exacts [sendsAt_nil t, fun e he => by rw [List.mem_singleton.mp he]; exact ⟨rfl, rfl, nofun⟩]

/-- The heartbeats of `bcast_heartbeats` are at the replica's term. -/
theorem bcastHeartbeats_sendsAt {alive : Bitmap} {s s' : CRaftReplica} {effs : List Effect}
    (h : bcastHeartbeats c alive s = .ok (s', effs)) : SendsAt s.currTerm effs := fun e he => by
  obtain ⟨p, -, hp⟩ := mapM_ok_mem (bcastHeartbeats_inv c h).1 e he
  obtain ⟨_, _, -, -, -, rfl⟩ := heartbeatTo_inv hp
  exact ⟨rfl, rfl, fun _ h => (Option.some_inj.mp h).symm⟩

/-- `become_the_leader` sends the step-up notice, then heartbeats at its term. -/
theorem becomeTheLeader_effs {alive : Bitmap} {s s' : CRaftReplica} {effs : List Effect}
    (h : becomeTheLeader c alive s = .ok (s', effs)) :
    ∃ sends, effs = .ctrl (.leaderStatus true) :: sends ∧ SendsAt s.currTerm sends ∧
      notices sends = [] := by
  simp only [becomeTheLeader, bind_eq_ok] at h
  obtain ⟨⟨s1, sends⟩, hb, _, -, h⟩ := h
  simp only [pure_eq_ok, Except.ok.injEq, Prod.mk.injEq] at h
  have hs := bcastHeartbeats_sendsAt hb
  exact ⟨sends, h.2.symm, hs, notices_sends (bcastHeartbeats_ok c hb).2⟩

/-- A `check_term` that adopts a higher term writes the meta record of that
term with no vote, then tells the manager of the step-down if the replica was
not a follower. -/
theorem checkTerm_adopt_effs (hk : KeepsRole hlr) {peer t : Nat} {r : SyncReply}
    {s s' : CRaftReplica} {b : Bool} {effs : List Effect} (ht : s.currTerm < t)
    (h : checkTerm c hlr peer t r s = .ok (b, s', effs)) :
    effs = metaWrite c (adoptTerm c peer t s) ::
      if s.role = .follower then [] else [.ctrl (.leaderStatus false)] := by
  simp only [checkTerm, gt_iff_lt, ht, if_true] at h
  obtain ⟨s2, h2, h⟩ := bind_eq_ok.mp h
  split at h
  · simp [bind_eq_ok] at h
  simp only [pure_bind] at h
  have hr : s2.role = s.role :=
    ((sameRole_heardHeartbeat c peer t _).trans (foldLogResults_sameRole c hlr hk peer t h2)).role
  by_cases hf : s.role = .follower <;>
    simp only [hr, hf, ne_eq, not_true_eq_false, not_false_eq_true, if_true, if_false,
      pure_eq_ok, Except.ok.injEq, Prod.mk.injEq] at h <;>
    simp [h.2.2, hf]

/-- A `become_a_candidate` past its guard broadcasts `RequestVote` at the new
term, then writes the new term with its own vote. -/
theorem becomeACandidate_effs {src : ReplicaId} {r : SyncReply} {s s' : CRaftReplica}
    {effs : List Effect} (h0 : skipsCandidacy c src s = false)
    (h : becomeACandidate c hlr src r s = .ok (s', effs)) :
    ∃ s1 lastSlot lastTerm, s1.currTerm = s.currTerm + 1 ∧ s1.votedFor = some c.id ∧
      effs = [.bcast (.requestVote s1.currTerm lastSlot lastTerm), metaWrite c s1] := by
  simp only [becomeACandidate, h0, Bool.false_eq_true, if_false] at h
  split at h
  · simp [bind_eq_ok] at h
  simp only [pure_bind] at h
  obtain ⟨⟨ls, lt⟩, -, h⟩ := bind_eq_ok.mp h
  obtain ⟨s2, -, h⟩ := bind_eq_ok.mp h
  split at h
  · simp [bind_eq_ok] at h
  simp only [pure_bind, pure_eq_ok, Except.ok.injEq, Prod.mk.injEq] at h
  have hh := sameRole_heardHeartbeat c c.id (s.currTerm + 1) (startCandidacy c s)
  exact ⟨_, ls, lt, hh.currTerm, hh.votedFor, h.2.symm⟩

variable (c) in
/-- What a call that takes the replica from term `t` to term `t'` may send:
messages at `t'`, only if `t'` is at most one past `t`; a `RequestVote` only
for the next term, recorded with the replica's own vote; a meta record only
for a new term. -/
structure CallTerms (t t' : Nat) (effs : List Effect) : Prop where
  le : t ≤ t'
  msg : ∀ x ∈ msgTerms effs, x = t' ∧ t' ≤ t + 1
  vote : voteTerms effs = [] ∨
    t' = t + 1 ∧ voteTerms effs = [t'] ∧ (t', some c.id) ∈ metaRecords effs
  meta : metaRecords effs = [] ∨ t < t' ∧ ∃ v, metaRecords effs = [(t', v)]

section Call

variable (hk : KeepsRole hlr)
include hk

/-- What one call sends, against the term before and after it. -/
theorem callTerms {op : Op} {s s' : CRaftReplica} {effs : List Effect}
    (h : Op.run c hlr op s = .ok (s', effs)) : CallTerms c s.currTerm s'.currTerm effs := by
  have quiet : s'.currTerm = s.currTerm → SendsAt s.currTerm effs →
      CallTerms c s.currTerm s'.currTerm effs := fun ht hs => by
    obtain ⟨hv, hm, hmsg⟩ := hs.lists
    exact ⟨ht.ge, fun x hx => ⟨ht ▸ hmsg x hx, by omega⟩, .inl hv, .inl hm⟩
  cases op with
  | checkTerm peer t r =>
    obtain ⟨b, h2⟩ := (run_checkTerm c hlr).mp h
    by_cases ht : s.currTerm < t
    · obtain ⟨h1, h2', -, -, -, -⟩ := checkTerm_adopt c hlr hk ht h2
      obtain ⟨hv, hm, -⟩ := (sendsAt_stepDown t (s.role = .follower)).lists
      have hmsg : msgTerms (if s.role = .follower then [] else [.ctrl (.leaderStatus false)]) = [] := by
        split <;> rfl
      rw [checkTerm_adopt_effs hk ht h2, h1]
      exact ⟨ht.le, by simp [hmsg], .inl (by simpa using hv), .inr ⟨ht, none, by simp [hm]⟩⟩
    · rw [checkTerm_of_le c hlr r (Nat.not_lt.mp ht)] at h2
      cases h2
      exact quiet rfl (sendsAt_nil _)
  | becomeACandidate src r =>
    cases h0 : skipsCandidacy c src s
    · obtain ⟨-, h1, -⟩ := becomeACandidate_start c hlr hk h0 h
      obtain ⟨s1, ls, lt, ht1, hv1, rfl⟩ := becomeACandidate_effs h0 h
      have hl : msgTerms [.bcast (.requestVote s1.currTerm ls lt), metaWrite c s1] = [s1.currTerm] ∧
          voteTerms [.bcast (.requestVote s1.currTerm ls lt), metaWrite c s1] = [s1.currTerm] ∧
          metaRecords [.bcast (.requestVote s1.currTerm ls lt), metaWrite c s1] =
            [(s1.currTerm, s1.votedFor)] := ⟨rfl, rfl, rfl⟩
      refine ⟨by omega, fun x hx => ?_, .inr ⟨h1, ?_, ?_⟩, .inr ⟨by omega, s1.votedFor, ?_⟩⟩
      · rw [hl.1, List.mem_singleton] at hx; omega
      · rw [hl.2.1, ht1, h1]
      · rw [hl.2.2, ht1, hv1, h1]; exact List.mem_singleton_self _
      · rw [hl.2.2, ht1, h1]
    · rw [Op.run, becomeACandidate_skip c hlr r h0] at h
      cases h
      exact quiet rfl (sendsAt_nil _)
  | becomeTheLeader alive =>
    obtain ⟨-, h1, -⟩ := becomeTheLeader_ok c h
    obtain ⟨sends, rfl, hs, -⟩ := becomeTheLeader_effs h
    exact quiet h1 fun e he => by
      rcases List.mem_cons.mp he with rfl | he
      · exact ⟨rfl, rfl, nofun⟩
      · exact hs e he
  | bcastHeartbeats alive => exact quiet (bcastHeartbeats_ok c h).1.currTerm (bcastHeartbeats_sendsAt h)
  | heardHeartbeat peer t =>
    cases h
    exact quiet (sameRole_heardHeartbeat c peer t s).currTerm (sendsAt_nil _)

/-- What one call tells the manager: `become_the_leader` a step-up, as a
candidate becomes the leader; `check_term` a step-down, as a candidate or a
leader becomes a follower; every other call nothing, and it keeps whether
the replica is the leader. -/
theorem callNotices {op : Op} {s s' : CRaftReplica} {effs : List Effect}
    (ha : op.allowed s) (h : Op.run c hlr op s = .ok (s', effs)) :
    (notices effs = [true] ∧ s.role = .candidate ∧ s'.role = .leader) ∨
    (notices effs = [false] ∧ s.role ≠ .follower ∧ s'.role = .follower) ∨
    (notices effs = [] ∧ (s'.role = .leader ↔ s.role = .leader)) := by
  cases op with
  | checkTerm peer t r =>
    obtain ⟨b, h2⟩ := (run_checkTerm c hlr).mp h
    by_cases ht : s.currTerm < t
    · obtain ⟨-, -, -, h4, -⟩ := checkTerm_adopt c hlr hk ht h2
      rw [checkTerm_adopt_effs hk ht h2, notices_metaWrite, h4]
      by_cases hf : s.role = .follower
      · rw [if_pos hf, hf]
        exact .inr (.inr ⟨rfl, Iff.rfl⟩)
      · rw [if_neg hf]
        exact .inr (.inl ⟨rfl, hf, rfl⟩)
    · rw [checkTerm_of_le c hlr r (Nat.not_lt.mp ht)] at h2
      cases h2
      exact .inr (.inr ⟨rfl, Iff.rfl⟩)
  | becomeACandidate src r =>
    cases h0 : skipsCandidacy c src s
    · obtain ⟨h1, -⟩ := becomeACandidate_start c hlr hk h0 h
      obtain ⟨s1, ls, lt, -, -, rfl⟩ := becomeACandidate_effs h0 h
      have hf : s.role = .follower := by
        simp only [skipsCandidacy, Bool.or_eq_false_iff, bne_eq_false_iff_eq] at h0
        exact h0.1.1
      exact .inr (.inr ⟨rfl, by rw [h1, hf]; decide⟩)
    · rw [Op.run, becomeACandidate_skip c hlr r h0] at h
      cases h
      exact .inr (.inr ⟨rfl, Iff.rfl⟩)
  | becomeTheLeader alive =>
    obtain ⟨h1, -⟩ := becomeTheLeader_ok c h
    obtain ⟨sends, rfl, -, hn⟩ := becomeTheLeader_effs h
    exact .inl ⟨show true :: notices sends = [true] by rw [hn], ha, h1⟩
  | bcastHeartbeats alive =>
    obtain ⟨hs, he⟩ := bcastHeartbeats_ok c h
    exact .inr (.inr ⟨notices_sends he, by rw [hs.role]⟩)
  | heardHeartbeat peer t =>
    cases h
    exact .inr (.inr ⟨rfl, by rw [(sameRole_heardHeartbeat c peer t s).role]⟩)

end Call

/-! ## Traces -/

variable (c hlr) in
/-- A run with what it sent: the calls of `Step`, each one's effects
appended to the trace in order. -/
inductive Trace : Node → List Effect → Node → Prop
  | refl (n : Node) : Trace n [] n
  | tail {n₀ n : Node} {trace : List Effect} {op : Op} {s' : CRaftReplica} {effs : List Effect} :
      Trace n₀ trace n → op.allowed n.rep → Op.run c hlr op n.rep = .ok (s', effs) →
      Trace n₀ (trace ++ effs) ⟨s', Op.ghost c n.rep n.cand op, (lastMetaWrite effs).getD n.durable⟩

/-- Erasing the effects of a trace gives a run of `Step`. -/
theorem Trace.run {n₀ n : Node} {trace : List Effect} (h : Trace c hlr n₀ trace n) :
    Relation.ReflTransGen (Step c hlr) n₀ n := by
  induction h with
  | refl => exact .refl
  | tail _ ha hr ih => exact ih.tail (.mk ha hr)

/-- Every run of `Step` is the erasure of a trace. -/
theorem exists_trace {n₀ n : Node} (h : Relation.ReflTransGen (Step c hlr) n₀ n) :
    ∃ trace, Trace c hlr n₀ trace n := by
  induction h with
  | refl => exact ⟨[], .refl _⟩
  | tail _ hs ih =>
    obtain ⟨trace, ht⟩ := ih
    obtain ⟨ha, hr⟩ := hs
    exact ⟨_, ht.tail ha hr⟩

variable (c) in
/-- What a trace from term `t₀` to term `t` has sent. -/
structure TraceTerms (t₀ t : Nat) (trace : List Effect) : Prop where
  le : t₀ ≤ t
  msg_mono : (msgTerms trace).Pairwise (· ≤ ·)
  vote_strict : (voteTerms trace).Pairwise (· < ·)
  meta_strict : (metaRecords trace).Pairwise fun r r' => r.1 < r'.1
  vote_recorded : ∀ x ∈ voteTerms trace, (x, some c.id) ∈ metaRecords trace
  msg_range : ∀ x ∈ msgTerms trace, t₀ ≤ x ∧ x ≤ t
  vote_gt : ∀ x ∈ voteTerms trace, t₀ < x
  meta_range : ∀ r ∈ metaRecords trace, t₀ < r.1 ∧ r.1 ≤ t

theorem traceTerms_nil (t : Nat) : TraceTerms c t t [] :=
  ⟨le_rfl, .nil, .nil, .nil, nofun, nofun, nofun, nofun⟩

/-- One call's effects, as a trace of their own. -/
theorem CallTerms.traceTerms {t t' : Nat} {effs : List Effect} (hc : CallTerms c t t' effs) :
    TraceTerms c t t' effs := by
  refine ⟨hc.le, (List.pairwise_of_forall fun _ _ => trivial).imp_of_mem
      fun ha hb _ => ((hc.msg _ ha).1.trans (hc.msg _ hb).1.symm).le, ?_, ?_, fun x hx => ?_,
    fun x hx => by rw [(hc.msg x hx).1]; exact ⟨hc.le, le_rfl⟩, fun x hx => ?_, fun r hr => ?_⟩
  · rcases hc.vote with hv | ⟨-, hv, -⟩ <;> rw [hv]
    exacts [.nil, List.pairwise_singleton _ _]
  · rcases hc.meta with hm | ⟨-, v, hm⟩ <;> rw [hm]
    exacts [.nil, List.pairwise_singleton _ _]
  · rcases hc.vote with hv | ⟨-, hv, hm⟩ <;> rw [hv] at hx
    · cases hx
    · exact List.mem_singleton.mp hx ▸ hm
  · rcases hc.vote with hv | ⟨hsucc, hv, -⟩ <;> rw [hv] at hx
    · cases hx
    · rw [List.mem_singleton.mp hx, hsucc]; exact Nat.lt_succ_self t
  · rcases hc.meta with hm | ⟨hlt, v, hm⟩ <;> rw [hm] at hr
    · cases hr
    · rw [List.mem_singleton.mp hr]
      exact ⟨hlt, le_rfl⟩

/-- Two traces, the second from the term the first ends at: everything the
second sends comes after, in term order, everything the first sent. -/
theorem TraceTerms.concat {t₀ t t' : Nat} {trace trace' : List Effect}
    (hi : TraceTerms c t₀ t trace) (hi' : TraceTerms c t t' trace') :
    TraceTerms c t₀ t' (trace ++ trace') := by
  have hmsg : ∀ x ∈ msgTerms trace, x ≤ t := fun x hx => (hi.msg_range x hx).2
  refine ⟨hi.le.trans hi'.le, ?_, ?_, ?_, fun x hx => ?_, fun x hx => ?_, fun x hx => ?_,
    fun r hr => ?_⟩
  · rw [msgTerms_append, List.pairwise_append]
    exact ⟨hi.msg_mono, hi'.msg_mono, fun x hx y hy => (hmsg x hx).trans (hi'.msg_range y hy).1⟩
  · rw [voteTerms_append, List.pairwise_append]
    exact ⟨hi.vote_strict, hi'.vote_strict, fun x hx y hy =>
      (hmsg x (mem_msgTerms_of_mem_voteTerms hx)).trans_lt (hi'.vote_gt y hy)⟩
  · rw [metaRecords_append, List.pairwise_append]
    exact ⟨hi.meta_strict, hi'.meta_strict, fun r hr r' hr' =>
      (hi.meta_range r hr).2.trans_lt (hi'.meta_range r' hr').1⟩
  · rw [voteTerms_append, List.mem_append] at hx
    rw [metaRecords_append, List.mem_append]
    exact hx.imp (hi.vote_recorded x) (hi'.vote_recorded x)
  · rw [msgTerms_append, List.mem_append] at hx
    rcases hx with hx | hx
    · exact ⟨(hi.msg_range x hx).1, (hmsg x hx).trans hi'.le⟩
    · exact ⟨hi.le.trans (hi'.msg_range x hx).1, (hi'.msg_range x hx).2⟩
  · rw [voteTerms_append, List.mem_append] at hx
    rcases hx with hx | hx
    exacts [hi.vote_gt x hx, hi.le.trans_lt (hi'.vote_gt x hx)]
  · rw [metaRecords_append, List.mem_append] at hr
    rcases hr with hr | hr
    · exact ⟨(hi.meta_range r hr).1, (hi.meta_range r hr).2.trans hi'.le⟩
    · exact ⟨hi.le.trans_lt (hi'.meta_range r hr).1, (hi'.meta_range r hr).2⟩

theorem traceTerms_trace (hk : KeepsRole hlr) {n₀ n : Node} {trace : List Effect}
    (h : Trace c hlr n₀ trace n) : TraceTerms c n₀.rep.currTerm n.rep.currTerm trace := by
  induction h with
  | refl => exact traceTerms_nil _
  | tail _ _ hr ih => exact ih.concat (callTerms hk hr).traceTerms

/-- Over every trace: the terms of the messages sent never go down and lie
between the replica's first and last terms; the `RequestVote`s are for
strictly increasing terms, each recorded at offset 0 with the replica's own
vote; the meta records written at offset 0 are for strictly increasing terms
past the first. -/
theorem trace_terms (hk : KeepsRole hlr) {n₀ n : Node} {trace : List Effect}
    (h : Trace c hlr n₀ trace n) :
    (msgTerms trace).Pairwise (· ≤ ·) ∧ (voteTerms trace).Pairwise (· < ·) ∧
      (metaRecords trace).Pairwise (fun r r' => r.1 < r'.1) ∧
      (∀ x ∈ voteTerms trace, (x, some c.id) ∈ metaRecords trace) ∧
      (∀ x ∈ msgTerms trace, n₀.rep.currTerm ≤ x ∧ x ≤ n.rep.currTerm) ∧
      (∀ r ∈ metaRecords trace, n₀.rep.currTerm < r.1 ∧ r.1 ≤ n.rep.currTerm) :=
  have hi := traceTerms_trace hk h
  ⟨hi.msg_mono, hi.vote_strict, hi.meta_strict, hi.vote_recorded, hi.msg_range, hi.meta_range⟩

/-- `freshFollower` with a `next_slot`, `try_next_slot` and `match_slot` key
for every peer. -/
def keyedFollower : CRaftReplica :=
  { freshFollower with nextSlot := fun _ => some 1, tryNextSlot := fun _ => some 1,
                       matchSlot := fun _ => some 0 }

/-- What `keyedFollower` sends when it times out and then wins the election:
the `RequestVote` of term 1, its vote for itself made durable, the step-up
notice and a heartbeat to each peer. -/
def stepUpTrace : List Effect :=
  [.bcast (.requestVote 1 0 0), .logSync (.write (.metadata 1 (some 0)) 0 false),
    .ctrl (.leaderStatus true),
    .send 1 (.appendEntries 1 0 0 [] 0 0), .send 2 (.appendEntries 1 0 0 [] 0 0)]

theorem exists_stepUp_trace :
    ∃ n, Trace ctx3 keepHandler (Node.recovered keyedFollower) stepUpTrace n :=
  ⟨_, @Trace.tail ctx3 keepHandler _ _ _ (.becomeTheLeader ⟨.withCapacity 3⟩) _ _
    (@Trace.tail ctx3 keepHandler _ _ _ (.becomeACandidate 0 ⟨[], .write true 1⟩) _ _
      (.refl (Node.recovered keyedFollower)) trivial rfl) rfl rfl⟩

theorem trace_terms_stepUp :
    KeepsRole keepHandler ∧
      ∃ n, Trace ctx3 keepHandler (Node.recovered keyedFollower) stepUpTrace n ∧
        (msgTerms stepUpTrace).Pairwise (· ≤ ·) ∧ (voteTerms stepUpTrace).Pairwise (· < ·) ∧
        (metaRecords stepUpTrace).Pairwise (fun r r' => r.1 < r'.1) ∧
        (∀ x ∈ voteTerms stepUpTrace, (x, some ctx3.id) ∈ metaRecords stepUpTrace) ∧
        (∀ x ∈ msgTerms stepUpTrace,
          (Node.recovered keyedFollower).rep.currTerm ≤ x ∧ x ≤ n.rep.currTerm) ∧
        (∀ r ∈ metaRecords stepUpTrace,
          (Node.recovered keyedFollower).rep.currTerm < r.1 ∧ r.1 ≤ n.rep.currTerm) :=
  let ⟨n, ht⟩ := exists_stepUp_trace
  ⟨keepsRole_keepHandler, n, ht, trace_terms keepsRole_keepHandler ht⟩

example : voteTerms stepUpTrace = [1] ∧ metaRecords stepUpTrace = [(1, some 0)] := ⟨rfl, rfl⟩

/-! ## Across crashes -/

variable (c hlr) in
/-- A replica's life: runs separated by crashes. A crash may come at any
point of a call, after the first `pre` of the effects the call sends (none
of them for a crash between calls): for instance between the `RequestVote`
broadcast of `become_a_candidate` (lines 169-176) and its meta write (lines
185-195). The replica then restarts as a follower with the term and the vote
of the meta record it last made durable, in `pre` or before the call; the
rest of its state is whatever recovery rebuilt. -/
inductive Life : Node → List Effect → Node → Prop
  | run {n₀ n : Node} {trace : List Effect} : Trace c hlr n₀ trace n → Life n₀ trace n
  | restart {n₀ n n' : Node} {trace pre trace' effs : List Effect} {op : Op}
      {s₁ s : CRaftReplica} :
      Life n₀ trace n → op.allowed n.rep → Op.run c hlr op n.rep = .ok (s₁, effs) →
      pre <+: effs → s.role = .follower →
      (s.currTerm, s.votedFor) = (lastMetaWrite pre).getD n.durable →
      Trace c hlr (Node.recovered s) trace' n' → Life n₀ (trace ++ pre ++ trace') n'

/-- What a life from term `t₀` has sent up to a point where the durable term
is `d`: `RequestVote`s for terms that never go down, meta records for
strictly increasing terms past `t₀` and up to `d`, and no message more than
one term past `d`. -/
structure CutTerms (t₀ d : Nat) (trace : List Effect) : Prop where
  le : t₀ ≤ d
  vote_mono : (voteTerms trace).Pairwise (· ≤ ·)
  meta_strict : (metaRecords trace).Pairwise fun r r' => r.1 < r'.1
  meta_range : ∀ r ∈ metaRecords trace, t₀ < r.1 ∧ r.1 ≤ d
  msg_le : ∀ x ∈ msgTerms trace, x ≤ d + 1

theorem TraceTerms.cutTerms {t₀ t : Nat} {trace : List Effect} (hi : TraceTerms c t₀ t trace) :
    CutTerms t₀ t trace :=
  ⟨hi.le, hi.vote_strict.imp le_of_lt, hi.meta_strict, hi.meta_range,
    fun x hx => Nat.le_succ_of_le (hi.msg_range x hx).2⟩

/-- A crash inside a call from term `t`, after the prefix `pre` of what the
call sends: the durable term is that of the last meta record in `pre`, or
`t` when `pre` has none. -/
theorem CutTerms.crash {t₀ t t' : Nat} {trace effs pre : List Effect}
    {dflt : Nat × Option ReplicaId} (hi : CutTerms t₀ t trace) (hc : CallTerms c t t' effs)
    (hp : pre <+: effs) (hdflt : dflt.1 = t) :
    CutTerms t₀ ((lastMetaWrite pre).getD dflt).1 (trace ++ pre) := by
  have hrec : ∀ r ∈ metaRecords pre, r.1 = t' ∧ t < t' := fun r hr => by
    have hr' := (hp.filterMap Effect.metaRecord).subset hr
    rcases hc.meta with hm | ⟨hlt, w, hm⟩ <;> simp only [metaRecords] at hm <;> rw [hm] at hr'
    · cases hr'
    · exact ⟨by rw [List.mem_singleton.mp hr'], hlt⟩
  have hvote : ∀ x ∈ voteTerms pre, x = t + 1 := fun x hx => by
    have hx' := (hp.filterMap Effect.voteTerm).subset hx
    rcases hc.vote with hv | ⟨hsucc, hv, -⟩ <;> simp only [voteTerms] at hv <;> rw [hv] at hx'
    · cases hx'
    · rw [List.mem_singleton.mp hx', hsucc]
  -- the durable term: `t`, or that of the one meta record in `pre`
  have hd : t ≤ ((lastMetaWrite pre).getD dflt).1 ∧
      ∀ r ∈ metaRecords pre, r.1 = ((lastMetaWrite pre).getD dflt).1 := by
    cases hl : lastMetaWrite pre with
    | none =>
      have hnil : metaRecords pre = [] := List.getLast?_eq_none_iff.mp hl
      exact ⟨hdflt.ge, by simp [hnil]⟩
    | some r =>
      have hr := hrec r (List.mem_of_getLast?_eq_some hl)
      exact ⟨hr.1 ▸ hr.2.le, fun r' hr' => (hrec r' hr').1.trans hr.1.symm⟩
  refine ⟨hi.le.trans hd.1, ?_, ?_, fun r hr => ?_, fun x hx => ?_⟩
  · rw [voteTerms_append, List.pairwise_append]
    exact ⟨hi.vote_mono, (List.pairwise_of_forall fun _ _ => trivial).imp_of_mem
      fun ha hb _ => ((hvote _ ha).trans (hvote _ hb).symm).le, fun x hx y hy =>
      (hi.msg_le x (mem_msgTerms_of_mem_voteTerms hx)).trans (hvote y hy).ge⟩
  · rw [metaRecords_append, List.pairwise_append]
    refine ⟨hi.meta_strict, ?_, fun r hr r' hr' =>
      (hi.meta_range r hr).2.trans_lt ((hrec r' hr').1 ▸ (hrec r' hr').2)⟩
    rcases hc.meta with hm | ⟨-, w, hm⟩ <;>
      refine List.Pairwise.sublist (hp.filterMap Effect.metaRecord).sublist ?_ <;>
      simp only [metaRecords] at hm <;> rw [hm]
    exacts [.nil, List.pairwise_singleton _ _]
  · rw [metaRecords_append, List.mem_append] at hr
    rcases hr with hr | hr
    · exact ⟨(hi.meta_range r hr).1, (hi.meta_range r hr).2.trans hd.1⟩
    · have h1 := hrec r hr
      exact ⟨hi.le.trans_lt (h1.1 ▸ h1.2), (hd.2 r hr).le⟩
  · rw [msgTerms_append, List.mem_append] at hx
    rcases hx with hx | hx
    · exact (hi.msg_le x hx).trans (Nat.succ_le_succ hd.1)
    · have hx' := (hp.filterMap Effect.msgTerm).subset hx
      obtain ⟨rfl, hle⟩ := hc.msg x hx'
      exact hle.trans (Nat.succ_le_succ hd.1)

/-- A run after the cut, from the durable term `d`, sends after everything
before it in term order. -/
theorem CutTerms.append {t₀ d t : Nat} {trace trace' : List Effect} (hi : CutTerms t₀ d trace)
    (hi' : TraceTerms c d t trace') : CutTerms t₀ t (trace ++ trace') := by
  refine ⟨hi.le.trans hi'.le, ?_, ?_, fun r hr => ?_, fun x hx => ?_⟩
  · rw [voteTerms_append, List.pairwise_append]
    exact ⟨hi.vote_mono, hi'.vote_strict.imp le_of_lt, fun x hx y hy =>
      (hi.msg_le x (mem_msgTerms_of_mem_voteTerms hx)).trans (hi'.vote_gt y hy)⟩
  · rw [metaRecords_append, List.pairwise_append]
    exact ⟨hi.meta_strict, hi'.meta_strict, fun r hr r' hr' =>
      (hi.meta_range r hr).2.trans_lt (hi'.meta_range r' hr').1⟩
  · rw [metaRecords_append, List.mem_append] at hr
    rcases hr with hr | hr
    · exact ⟨(hi.meta_range r hr).1, (hi.meta_range r hr).2.trans hi'.le⟩
    · exact ⟨hi.le.trans_lt (hi'.meta_range r hr).1, (hi'.meta_range r hr).2⟩
  · rw [msgTerms_append, List.mem_append] at hx
    rcases hx with hx | hx
    · exact (hi.msg_le x hx).trans (Nat.succ_le_succ hi'.le)
    · exact Nat.le_succ_of_le (hi'.msg_range x hx).2

/-- After every call of a life the durable record is the replica's term and
vote, and what the life sent is as `CutTerms` says, up to the current term. -/
theorem life_inv (hk : KeepsRole hlr) {s₀ : CRaftReplica} (h0 : s₀.role = .follower) {n : Node}
    {trace : List Effect} (h : Life c hlr (Node.recovered s₀) trace n) :
    RoleInv c n ∧ CutTerms s₀.currTerm n.rep.currTerm trace := by
  induction h with
  | run ht => exact ⟨roleInv_run hk (roleInv_recovered c h0) ht.run, (traceTerms_trace hk ht).cutTerms⟩
  | restart _ _ hr hp hf hd ht ih =>
    have hcut := ih.2.crash (callTerms hk hr) hp (congrArg Prod.fst ih.1.durable)
    have ht' := traceTerms_trace hk ht
    rw [Node.recovered, (Prod.mk.inj hd).1] at ht'
    exact ⟨roleInv_run hk (roleInv_recovered c hf) ht.run, hcut.append ht'⟩

/-- Over a whole life, with crashes at any point of a call: the
`RequestVote`s are for terms that never go down; the meta records written at
offset 0 are for strictly increasing terms, past the first term and up to
the current one, so no term gets two; no message is more than one term past
the current term; and after every call the durable record is the replica's
term and vote. -/
theorem life_terms (hk : KeepsRole hlr) {s₀ : CRaftReplica} (h0 : s₀.role = .follower)
    {n : Node} {trace : List Effect} (h : Life c hlr (Node.recovered s₀) trace n) :
    (voteTerms trace).Pairwise (· ≤ ·) ∧
      (metaRecords trace).Pairwise (fun r r' => r.1 < r'.1) ∧
      (∀ r ∈ metaRecords trace, s₀.currTerm < r.1 ∧ r.1 ≤ n.rep.currTerm) ∧
      (∀ x ∈ msgTerms trace, x ≤ n.rep.currTerm + 1) ∧
      n.durable = (n.rep.currTerm, n.rep.votedFor) := by
  obtain ⟨hi, ht⟩ := life_inv hk h0 h
  exact ⟨ht.vote_mono, ht.meta_strict, ht.meta_range, ht.msg_le, hi.durable⟩

/-- The `RequestVote` of `keyedFollower`'s first candidacy. -/
def firstRequestVote : Effect := .bcast (.requestVote 1 0 0)

/-- `keyedFollower` times out and broadcasts `RequestVote` for term 1, crashes
before its vote is durable, restarts at term 0, and campaigns for term 1
again, this time recording its vote. -/
theorem life_terms_crashedCandidacy :
    KeepsRole keepHandler ∧ keyedFollower.role = .follower ∧
      ∃ trace n, Life ctx3 keepHandler (Node.recovered keyedFollower) trace n ∧
        voteTerms trace = [1, 1] ∧
        (voteTerms trace).Pairwise (· ≤ ·) ∧
        (metaRecords trace).Pairwise (fun r r' => r.1 < r'.1) ∧
        (∀ r ∈ metaRecords trace, keyedFollower.currTerm < r.1 ∧ r.1 ≤ n.rep.currTerm) ∧
        (∀ x ∈ msgTerms trace, x ≤ n.rep.currTerm + 1) ∧
        n.durable = (n.rep.currTerm, n.rep.votedFor) :=
  have h2 := @Trace.tail ctx3 keepHandler _ _ _ (.becomeACandidate 0 ⟨[], .write true 1⟩) _ _
    (.refl (Node.recovered keyedFollower)) trivial rfl
  have hl := @Life.restart ctx3 keepHandler _ _ _ [] [firstRequestVote] _ _
    (.becomeACandidate 0 ⟨[], .write true 1⟩) _ keyedFollower
    (.run (.refl (Node.recovered keyedFollower))) trivial rfl
    ⟨_, rfl⟩ rfl rfl h2
  ⟨keepsRole_keepHandler, rfl, _, _, hl, rfl, life_terms keepsRole_keepHandler rfl hl⟩

/-- What the manager has been told agrees with the replica's role: no two
step-ups without a step-down between, and the last notice says step-up
exactly when the replica is the leader. -/
structure NoticesAgree (trace : List Effect) (role : Role) : Prop where
  no_double : (notices trace).Chain' fun b b' => b = true → b' = false
  last : (notices trace).getLast? = some true ↔ role = .leader

theorem NoticesAgree.append {trace effs : List Effect} {role role' : Role}
    (hi : NoticesAgree trace role)
    (hc : (notices effs = [true] ∧ role = .candidate ∧ role' = .leader) ∨
      (notices effs = [false] ∧ role ≠ .follower ∧ role' = .follower) ∨
      (notices effs = [] ∧ (role' = .leader ↔ role = .leader))) :
    NoticesAgree (trace ++ effs) role' := by
  rcases hc with ⟨hn, hr, hr'⟩ | ⟨hn, -, hr'⟩ | ⟨hn, hr⟩ <;> constructor <;>
    rw [notices_append, hn]
  · -- a step-up: the last notice before it was not one
    have hlast : (notices trace).getLast? ≠ some true := by rw [Ne, hi.last, hr]; decide
    exact List.chain'_append.mpr ⟨hi.no_double, List.chain'_singleton _,
      fun _ hb _ _ hbt => absurd (hbt ▸ Option.mem_def.mp hb) hlast⟩
  · simp [List.getLast?_concat, hr']
  · exact List.chain'_append.mpr ⟨hi.no_double, List.chain'_singleton _,
      fun _ _ _ hb' _ => (Option.some_inj.mp hb').symm⟩
  · simp [List.getLast?_concat, hr']
  · exact (List.append_nil _).symm ▸ hi.no_double
  · rw [List.append_nil]
    exact hi.last.trans hr.symm

/-- Over every trace from a replica that is not the leader, the manager is
never told of two step-ups without a step-down between, and the last notice
it got says step-up exactly when the replica is the leader. -/
theorem trace_leaderStatus (hk : KeepsRole hlr) {n₀ n : Node} {trace : List Effect}
    (h0 : n₀.rep.role ≠ .leader) (h : Trace c hlr n₀ trace n) :
    (notices trace).Chain' (fun b b' => b = true → b' = false) ∧
      ((notices trace).getLast? = some true ↔ n.rep.role = .leader) := by
  have hi : NoticesAgree trace n.rep.role := by
    induction h with
    | refl => exact ⟨List.chain'_nil, by simp [notices, h0]⟩
    | tail _ ha hr ih => exact ih.append (callNotices hk ha hr)
  exact ⟨hi.no_double, hi.last⟩

theorem trace_leaderStatus_stepUp :
    KeepsRole keepHandler ∧ (Node.recovered keyedFollower).rep.role ≠ .leader ∧
      ∃ n, Trace ctx3 keepHandler (Node.recovered keyedFollower) stepUpTrace n ∧
        (notices stepUpTrace).Chain' (fun b b' => b = true → b' = false) ∧
        ((notices stepUpTrace).getLast? = some true ↔ n.rep.role = .leader) :=
  have h0 : (Node.recovered keyedFollower).rep.role ≠ .leader := by decide
  let ⟨n, ht⟩ := exists_stepUp_trace
  ⟨keepsRole_keepHandler, h0, n, ht, trace_leaderStatus keepsRole_keepHandler h0 ht⟩

example : notices stepUpTrace = [true] := rfl

end Summerset.CRaft
