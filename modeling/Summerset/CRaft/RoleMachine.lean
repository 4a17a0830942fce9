import Summerset.CRaft.Leadership
import Mathlib.Logic.Relation

/-!
# The CRaft role machine over whole runs

A run starts from a state recovered from the durable log (role `Follower`,
the meta record at offset 0 equal to `(curr_term, voted_for)`) and applies,
in any order and any number of times, the five operations of
`leadership.rs`: `check_term`, `become_a_candidate`, `become_the_leader`
(which its caller runs only as a candidate), `bcast_heartbeats` and
`heard_heartbeat`. A run goes on only through operations that return `Ok`;
an `Err` or a panic stops the replica.

Besides the replica, a `Node` keeps two things the code does not store: the
meta record last written at offset 0 (`durable`), and the ghost `cand`, the
term the latest `become_a_candidate` past its guard produced, forgotten when
`check_term` adopts a higher term.

`run_cases` says once what one operation can do; every invariant follows from
it. Results:

* `roleInv_step`, `roleInv_run`: a non-follower has voted for itself in the
  term its own latest candidacy produced, a candidate's vote set holds its own
  vote, and the durable meta record is `(curr_term, voted_for)`;
* `currTerm_run_mono`: `curr_term` never decreases;
* `roleMachine_invariant`: the above for every run from a recovered state;
* `roleMove_step`, `roleMoves_run`: the code refines the spec's role machine
  (`RoleMove`, section 4.6): every call of every run keeps the role and the
  term or makes one of its moves.
-/

namespace Summerset.CRaft

open Summerset.Utils

/-- One call a run makes, with what the components outside `src/` answer. -/
inductive Op where
  | checkTerm (peer : ReplicaId) (term : Nat) (reply : SyncReply)
  | becomeACandidate (timeoutSource : ReplicaId) (reply : SyncReply)
  | becomeTheLeader (alive : Bitmap)
  | bcastHeartbeats (alive : Bitmap)
  | heardHeartbeat (peer : ReplicaId) (term : Nat)

variable (c : CRaftCtx) (hlr : LogHandler)

/-- The call itself; `check_term`'s returned flag is dropped. -/
def Op.run : Op → CRaftReplica → Except Fault (CRaftReplica × List Effect)
  | .checkTerm peer t r, s =>
    (CRaft.checkTerm c hlr peer t r s).map fun (_, s', effs) => (s', effs)
  | .becomeACandidate src r, s => CRaft.becomeACandidate c hlr src r s
  | .becomeTheLeader alive, s => CRaft.becomeTheLeader c alive s
  | .bcastHeartbeats alive, s => CRaft.bcastHeartbeats c alive s
  | .heardHeartbeat peer t, s => .ok (CRaft.heardHeartbeat c peer t s, [])

/-- When a caller makes the call: `become_the_leader` only as a candidate. -/
def Op.allowed (s : CRaftReplica) : Op → Prop
  | .becomeTheLeader _ => s.role = .candidate
  | _ => True

/-- The ghost `cand` after the call. -/
def Op.ghost (s : CRaftReplica) (cand : Option Nat) : Op → Option Nat
  | .checkTerm _ t _ => if s.currTerm < t then none else cand
  | .becomeACandidate src _ => if skipsCandidacy c src s then cand else some (s.currTerm + 1)
  | _ => cand

/-- A replica with its durable meta record and the ghost `cand`. -/
structure Node where
  rep : CRaftReplica
  cand : Option Nat
  durable : Nat × Option ReplicaId

/-- The node right after recovery from the durable log. -/
def Node.recovered (s : CRaftReplica) : Node :=
  ⟨s, none, (s.currTerm, s.votedFor)⟩

/-- One successful call. The durable record is the last one written at offset 0. -/
inductive Step : Node → Node → Prop
  | mk {n : Node} {op : Op} {s' : CRaftReplica} {effs : List Effect}
      (ha : op.allowed n.rep) (h : Op.run c hlr op n.rep = .ok (s', effs)) :
      Step n ⟨s', Op.ghost c n.rep n.cand op, (lastMetaWrite effs).getD n.durable⟩

/-! ## What one call can do -/

theorem run_checkTerm {peer t : Nat} {r : SyncReply} {s s' : CRaftReplica} {effs : List Effect} :
    Op.run c hlr (.checkTerm peer t r) s = .ok (s', effs) ↔
      ∃ b, checkTerm c hlr peer t r s = .ok (b, s', effs) := by
  simp only [Op.run]
  rcases checkTerm c hlr peer t r s with _ | ⟨b, x⟩ <;> simp [Except.map, eq_comm]

section Cases

variable {c hlr} (hk : KeepsRole hlr)
include hk

/-- Every successful call is one of four kinds: it keeps the role fields,
adopts a higher term as a follower, starts a candidacy, or makes a candidate
the leader. -/
theorem run_cases {op : Op} {s s' : CRaftReplica} {effs : List Effect} (cand : Option Nat)
    (ha : op.allowed s) (h : Op.run c hlr op s = .ok (s', effs)) :
    (SameRole s s' ∧ Op.ghost c s cand op = cand ∧ lastMetaWrite effs = none) ∨
    (s'.role = .follower ∧ s.currTerm < s'.currTerm ∧ Op.ghost c s cand op = none ∧
      lastMetaWrite effs = some (s'.currTerm, s'.votedFor)) ∨
    (s.role = .follower ∧ s'.role = .candidate ∧ s'.currTerm = s.currTerm + 1 ∧
      s'.votedFor = some c.id ∧ s'.votesGranted = {c.id} ∧ Op.ghost c s cand op = some s'.currTerm ∧
      lastMetaWrite effs = some (s'.currTerm, s'.votedFor)) ∨
    (s.role = .candidate ∧ s'.role = .leader ∧ s'.currTerm = s.currTerm ∧
      s'.votedFor = s.votedFor ∧ s'.votesGranted = s.votesGranted ∧
      Op.ghost c s cand op = cand ∧ lastMetaWrite effs = none) := by
  cases op with
  | checkTerm peer t r =>
    obtain ⟨b, h2⟩ := (run_checkTerm c hlr).mp h
    by_cases ht : s.currTerm < t
    · obtain ⟨h1, h2, -, h4, -, h6⟩ := checkTerm_adopt c hlr hk ht h2
      exact .inr (.inl ⟨h4, h1 ▸ ht, by simp [Op.ghost, ht], by rw [h6, h1, h2]⟩)
    · rw [checkTerm_of_le c hlr r (Nat.not_lt.mp ht)] at h2
      cases h2
      exact .inl ⟨.rfl' s, by simp [Op.ghost, ht], rfl⟩
  | becomeACandidate src r =>
    cases h0 : skipsCandidacy c src s
    · obtain ⟨h1, h2, h3, h4, -, h6⟩ := becomeACandidate_start c hlr hk h0 h
      have hf : s.role = .follower := by
        simp only [skipsCandidacy, Bool.or_eq_false_iff, bne_eq_false_iff_eq] at h0
        exact h0.1.1
      right; right; left
      simp only [Op.ghost, h0, Bool.false_eq_true, if_false]
      exact ⟨hf, h1, h2, h3, h4, by rw [h2], by rw [h6, h2, h3]⟩
    · rw [Op.run, becomeACandidate_skip c hlr r h0] at h
      cases h
      exact .inl ⟨.rfl' s, by simp [Op.ghost, h0], rfl⟩
  | becomeTheLeader alive =>
    obtain ⟨h1, h2, h3, h4, h5⟩ := becomeTheLeader_ok c h
    exact .inr (.inr (.inr ⟨ha, h1, h2, h3, h4, rfl, h5⟩))
  | bcastHeartbeats alive =>
    obtain ⟨hs, he⟩ := bcastHeartbeats_ok c h
    exact .inl ⟨hs, rfl, lastMetaWrite_sends he⟩
  | heardHeartbeat peer t =>
    cases h
    exact .inl ⟨sameRole_heardHeartbeat c peer t s, rfl, rfl⟩

end Cases

/-! ## The invariant -/

/-- The role machine's invariant. -/
structure RoleInv (n : Node) : Prop where
  /-- A candidate or leader voted for itself, in the term its own latest
  candidacy produced, and has adopted no term since. -/
  voted : n.rep.role ≠ .follower → n.rep.votedFor = some c.id ∧ n.cand = some n.rep.currTerm
  /-- A candidate counts its own vote. -/
  selfVote : n.rep.role = .candidate → c.id ∈ n.rep.votesGranted
  /-- The durable meta record is the current term and vote. -/
  durable : n.durable = (n.rep.currTerm, n.rep.votedFor)

theorem roleInv_recovered {s : CRaftReplica} (h : s.role = .follower) :
    RoleInv c (Node.recovered s) :=
  ⟨fun h' => absurd h h', fun h' => absurd (h.symm.trans h') (by decide), rfl⟩

variable {c hlr}

theorem roleInv_step (hk : KeepsRole hlr) {n n' : Node} (hi : RoleInv c n)
    (h : Step c hlr n n') : RoleInv c n' := by
  obtain ⟨ha, h⟩ := h
  constructor <;> dsimp only
  all_goals rcases run_cases hk n.cand ha h with
    ⟨⟨h1, h2, h3, h4⟩, hg, hm⟩ | ⟨hr, -, hg, hm⟩ | ⟨-, hr, -, hv, hvs, hg, hm⟩ |
      ⟨hr0, hr, h1, h2, h3, hg, hm⟩
  -- `voted`: kept, vacuous, set by the candidacy, or kept from the candidate
  · rw [hg, h1, h2]; exact fun hr => hi.voted (h4 ▸ hr)
  · exact fun h' => absurd hr h'
  · exact fun _ => ⟨hv, hg⟩
  · rw [hg, h1, h2]; exact fun _ => hi.voted (by rw [hr0]; decide)
  -- `selfVote`
  · rw [h3]; exact fun hr => hi.selfVote (h4 ▸ hr)
  · exact fun h' => absurd (hr.symm.trans h') (by decide)
  · exact fun _ => hvs ▸ Finset.mem_singleton_self _
  · exact fun h' => absurd (hr.symm.trans h') (by decide)
  -- `durable`: untouched or rewritten with the new term and vote
  · simp only [hm, Option.getD_none, hi.durable, h1, h2]
  · simp [hm]
  · simp [hm]
  · simp only [hm, Option.getD_none, hi.durable, h1, h2]

theorem roleInv_run (hk : KeepsRole hlr) {n n' : Node} (hi : RoleInv c n)
    (h : Relation.ReflTransGen (Step c hlr) n n') : RoleInv c n' := by
  induction h with
  | refl => exact hi
  | tail _ hs ih => exact roleInv_step hk ih hs

theorem currTerm_step (hk : KeepsRole hlr) {n n' : Node} (h : Step c hlr n n') :
    n.rep.currTerm ≤ n'.rep.currTerm := by
  obtain ⟨ha, h⟩ := h
  dsimp only
  rcases run_cases hk n.cand ha h with
    ⟨⟨h1, -⟩, -⟩ | ⟨-, h1, -⟩ | ⟨-, -, h1, -⟩ | ⟨-, -, h1, -⟩ <;> omega

theorem currTerm_run_mono (hk : KeepsRole hlr) {n n' : Node}
    (h : Relation.ReflTransGen (Step c hlr) n n') : n.rep.currTerm ≤ n'.rep.currTerm := by
  induction h with
  | refl => exact le_rfl
  | tail _ hs ih => exact ih.trans (currTerm_step hk hs)

/-- Every run from a recovered follower keeps the role machine's invariant
after every call, `curr_term` never decreases along the run or after it, and
a `check_term` with a higher term from any state of the run ends as a
follower at that term with no vote. -/
theorem roleMachine_invariant (hk : KeepsRole hlr) {s0 : CRaftReplica}
    (h0 : s0.role = .follower) {n : Node}
    (hr : Relation.ReflTransGen (Step c hlr) (Node.recovered s0) n) :
    RoleInv c n ∧ s0.currTerm ≤ n.rep.currTerm ∧
      (∀ n', Relation.ReflTransGen (Step c hlr) n n' → n.rep.currTerm ≤ n'.rep.currTerm) ∧
      (∀ peer t r b s' effs, n.rep.currTerm < t →
        checkTerm c hlr peer t r n.rep = .ok (b, s', effs) →
        s'.role = .follower ∧ s'.currTerm = t ∧ s'.votedFor = none ∧ s'.votesGranted = ∅ ∧
          lastMetaWrite effs = some (t, none)) :=
  ⟨roleInv_run hk (roleInv_recovered c h0) hr, currTerm_run_mono hk hr,
    fun _ h => currTerm_run_mono hk h, fun _ _ _ _ _ _ ht h => by
      obtain ⟨h1, h2, h3, h4, -, h6⟩ := checkTerm_adopt c hlr hk ht h
      exact ⟨h4, h1, h2, h3, h6⟩⟩

/-- Three replicas, this one `0`, default configuration. -/
def ctx3 : CRaftCtx := ⟨0, 3, ⟨false, false, false, 1⟩⟩

/-- A follower at term 0 with only the dummy entry at slot 0 and no leader. -/
def freshFollower : CRaftReplica where
  role := .follower
  currTerm := 0
  votedFor := none
  votesGranted := ∅
  leader := none
  startSlot := 0
  log := [⟨0, false⟩]
  lastCommit := 0
  lastSnap := 0
  nextSlot := fun _ => none
  tryNextSlot := fun _ => none
  matchSlot := fun _ => none
  fullCopyMode := false
  heartbeater := ⟨none, false⟩

/-- A `handle_log_result` that changes nothing. -/
def keepHandler : LogHandler := fun _ _ s => .ok s

theorem keepsRole_keepHandler : KeepsRole keepHandler := fun _ _ s _ h => by
  cases h; exact .rfl' s

/-- `freshFollower` after its first election: the node one call of
`become_a_candidate` makes of it. -/
def firstElection : Node :=
  match becomeACandidate ctx3 keepHandler 0 ⟨[], .write true 1⟩ freshFollower with
  | .ok (s', effs) =>
    ⟨s', some 1, (lastMetaWrite effs).getD (freshFollower.currTerm, freshFollower.votedFor)⟩
  | .error _ => Node.recovered freshFollower

theorem step_firstElection : Step ctx3 keepHandler (Node.recovered freshFollower) firstElection :=
  @Step.mk ctx3 keepHandler (Node.recovered freshFollower)
    (.becomeACandidate 0 ⟨[], .write true 1⟩) _ _ trivial rfl

/-- The first election is the spec's timeout move. -/
example : firstElection.rep.role = .candidate ∧ firstElection.rep.currTerm = 1 := ⟨rfl, rfl⟩

theorem roleMachine_invariant_firstElection :
    KeepsRole keepHandler ∧ freshFollower.role = .follower ∧
      Relation.ReflTransGen (Step ctx3 keepHandler) (Node.recovered freshFollower) firstElection ∧
      RoleInv ctx3 firstElection ∧ freshFollower.currTerm ≤ firstElection.rep.currTerm ∧
      (∀ n', Relation.ReflTransGen (Step ctx3 keepHandler) firstElection n' →
        firstElection.rep.currTerm ≤ n'.rep.currTerm) ∧
      (∀ peer t r b s' effs, firstElection.rep.currTerm < t →
        checkTerm ctx3 keepHandler peer t r firstElection.rep = .ok (b, s', effs) →
        s'.role = .follower ∧ s'.currTerm = t ∧ s'.votedFor = none ∧ s'.votesGranted = ∅ ∧
          lastMetaWrite effs = some (t, none)) :=
  have hr := Relation.ReflTransGen.single step_firstElection
  ⟨keepsRole_keepHandler, rfl, hr, roleMachine_invariant keepsRole_keepHandler rfl hr⟩

/-! ## The spec's role machine -/

/-- The role machine of the spec (section 4.6) over `(role, curr_term)`: a
follower's timeout makes it a candidate one term up, a candidate becomes the
leader of its term, and a replica that sees a higher term becomes a follower
at that term; `stay` is a call that changes neither. -/
inductive RoleMove : Role × Nat → Role × Nat → Prop
  | stay (r : Role) (t : Nat) : RoleMove (r, t) (r, t)
  | timeout (t : Nat) : RoleMove (.follower, t) (.candidate, t + 1)
  | win (t : Nat) : RoleMove (.candidate, t) (.leader, t)
  | stepDown (r : Role) {t t' : Nat} : t < t' → RoleMove (r, t) (.follower, t')

/-- The role and the term of a node. -/
def Node.roleTerm (n : Node) : Role × Nat := (n.rep.role, n.rep.currTerm)

theorem roleMove_step (hk : KeepsRole hlr) {n n' : Node} (h : Step c hlr n n') :
    RoleMove n.roleTerm n'.roleTerm := by
  obtain ⟨ha, h⟩ := h
  show RoleMove (n.rep.role, n.rep.currTerm) (_, _)
  rcases run_cases hk n.cand ha h with
    ⟨⟨h1, -, -, h4⟩, -⟩ | ⟨hr, ht, -⟩ | ⟨hf, hr, ht, -⟩ | ⟨hr0, hr, ht, -⟩
  · rw [h1, h4]; exact .stay _ _
  · rw [hr]; exact .stepDown _ ht
  · rw [hf, hr, ht]; exact .timeout _
  · rw [hr0, hr, ht]; exact .win _

/-- Every run of the code is a run of the spec's role machine, call by call:
each step of the run keeps the role and the term, or makes one of the spec's
moves. -/
theorem roleMoves_run (hk : KeepsRole hlr) {n n' : Node}
    (h : Relation.ReflTransGen (Step c hlr) n n') :
    Relation.ReflTransGen (fun m m' => Step c hlr m m' ∧ RoleMove m.roleTerm m'.roleTerm) n n' :=
  Relation.ReflTransGen.mono (fun _ _ hs => ⟨hs, roleMove_step hk hs⟩) h

theorem roleMoves_run_firstElection :
    KeepsRole keepHandler ∧
      Relation.ReflTransGen (Step ctx3 keepHandler) (Node.recovered freshFollower) firstElection ∧
      Relation.ReflTransGen (fun m m' => Step ctx3 keepHandler m m' ∧ RoleMove m.roleTerm m'.roleTerm)
        (Node.recovered freshFollower) firstElection :=
  have hr := Relation.ReflTransGen.single step_firstElection
  ⟨keepsRole_keepHandler, hr, roleMoves_run keepsRole_keepHandler hr⟩

end Summerset.CRaft
