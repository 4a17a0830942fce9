import Summerset.MultiPaxos.Batch

/-!
# A leader's run of `handle_req_batch`: one batch per slot

MultiPaxos is safe only if a leader proposes at most one batch for each slot.
`handle_req_batch` places each batch it does not answer locally in the slot
`first_null_slot` gives, and broadcasts one `Accept` for it. Here: over any
run of `handle_req_batch` calls at one replica, with any batches, lease
counts and state-machine answers, the `Accept`s sent are for pairwise
different slots, none of them held a batch when the run began, and each still
holds the batch its `Accept` carried.

**Hypotheses.** `first_null_slot` is the spec's (`firstNullSlot`), and
`handle_cmd_result`, which is not under `src/` either, sends no `Accept` and
takes no batch out of the log (`HcrFrame`).

**Results.**
* `handleReqBatch_extends`: one call keeps every batch of the log, and either
  sends no `Accept` or sends one, for a slot that held no batch and now holds
  the batch it carries;
* `leaderRun_accepts`: the run's `Accept`s, as above.
-/

namespace Summerset.MultiPaxos

open Summerset.Utils

/-- The `(slot, batch)` of each `Accept` broadcast among `effs`, in order. -/
def acceptsOf (effs : List Effect) : List (Nat × ReqBatch) :=
  effs.filterMap fun
    | .bcast (.accept slot _ reqs) => some (slot, reqs)
    | _ => none

/-- The batch a slot holds: that of its instance, unless it is `Null`. -/
def batchAt (s : MultiPaxosReplica) (slot : Nat) : Option ReqBatch :=
  (instAt s slot).bind fun inst => if inst.status = .null then none else some inst.reqs

/-- `s'` holds every batch `s` holds, in the same slot. -/
def Extends (s s' : MultiPaxosReplica) : Prop :=
  ∀ slot R, batchAt s slot = some R → batchAt s' slot = some R

theorem Extends.refl (s : MultiPaxosReplica) : Extends s s := fun _ _ h => h

theorem Extends.trans {s s' s'' : MultiPaxosReplica} (h : Extends s s') (h' : Extends s' s'') :
    Extends s s'' := fun slot R hR => h' slot R (h slot R hR)

/-- A hypothesis on `handle_cmd_result`, which is not under `src/`: it sends
no `Accept` and takes no batch out of the log. -/
def HcrFrame (e : Env) : Prop :=
  ∀ i r s s' effs, e.handleCmdResult i r s = .ok (s', effs) → acceptsOf effs = [] ∧ Extends s s'

@[simp]
theorem acceptsOf_append (effs effs' : List Effect) :
    acceptsOf (effs ++ effs') = acceptsOf effs ++ acceptsOf effs' :=
  List.filterMap_append _ _ _

@[simp]
theorem acceptsOf_reply (client : ClientId) (reply : ApiReply) (effs : List Effect) :
    acceptsOf (.reply client reply :: effs) = acceptsOf effs := rfl

theorem acceptsOf_redirects (c : MultiPaxosCtx) (s : MultiPaxosReplica) :
    ∀ reqBatch : ReqBatch, acceptsOf (redirects c s reqBatch) = []
  | [] => rfl
  | (_, .req _ _) :: rest => acceptsOf_redirects c s rest
  | (_, .leave) :: rest => acceptsOf_redirects c s rest

theorem acceptsOf_acceptEffects (c : MultiPaxosCtx) (e : Env) (slot bal : Nat) (reqBatch : ReqBatch) :
    acceptsOf (acceptEffects c e slot bal reqBatch) = [(slot, reqBatch)] := rfl

variable {c : MultiPaxosCtx} {e : Env} {a : Answers}

section Frame

variable (hcr : HcrFrame e)
include hcr

theorem foldCmdResults_frame :
    ∀ {olds : List (Nat × CommandResult)} {s s' : MultiPaxosReplica} {effs : List Effect},
      foldCmdResults e olds s = .ok (s', effs) → acceptsOf effs = [] ∧ Extends s s'
  | [], s, _, _, h => by cases h; exact ⟨rfl, .refl s⟩
  | (i, r) :: _, _, _, _, h => by
    obtain ⟨⟨s1, effs1⟩, h1, h⟩ := bind_eq_ok.mp h
    obtain ⟨⟨s2, effs2⟩, h2, h⟩ := bind_eq_ok.mp h
    cases h
    obtain ⟨ha1, hx1⟩ := hcr i r _ _ _ h1
    obtain ⟨ha2, hx2⟩ := foldCmdResults_frame h2
    exact ⟨by simp [ha1, ha2], hx1.trans hx2⟩

theorem serveReads_frame :
    ∀ {k : Nat} {reqBatch : ReqBatch} {s s' : MultiPaxosReplica} {effs : List Effect},
      serveReads e a k reqBatch s = .ok (s', effs) → acceptsOf effs = [] ∧ Extends s s'
  | _, [], s, _, _, h => by cases h; exact ⟨rfl, .refl s⟩
  | k, (client, .req id (.get key)) :: rest, s, s', effs, h => by
    obtain ⟨⟨s1, effs1⟩, h1, h⟩ := bind_eq_ok.mp h
    obtain ⟨⟨s2, effs2⟩, h2, h⟩ := bind_eq_ok.mp h
    cases h
    obtain ⟨ha1, hx1⟩ := foldCmdResults_frame hcr h1
    obtain ⟨ha2, hx2⟩ := serveReads_frame h2
    exact ⟨by simp [ha1, ha2], hx1.trans hx2⟩
  | k, (client, .req id (.put key value)) :: rest, s, s', effs, h =>
    have h' : serveReads e a k rest s = .ok (s', effs) := h
    serveReads_frame h'
  | k, (client, .leave) :: rest, s, s', effs, h =>
    have h' : serveReads e a k rest s = .ok (s', effs) := h
    serveReads_frame h'

end Frame

/-! ## `first_null_slot` and the Accept phase -/

/-- `first_null_slot` keeps the batch of every slot: it only appends a `Null`
instance. -/
theorem batchAt_firstNullSlot (s : MultiPaxosReplica) (slot : Nat) :
    batchAt (firstNullSlot s).2 slot = batchAt s slot := by
  unfold firstNullSlot
  split
  · rfl
  · simp only [batchAt, instAt]
    split
    · rcases Nat.lt_trichotomy (slot - s.startSlot) s.insts.length with hlt | heq | hgt
      · rw [List.getElem?_append_left hlt]
      · rw [List.getElem?_append_right (by omega), heq,
          List.getElem?_eq_none (Nat.le_refl s.insts.length)]
        simp [nullInstance]
      · rw [List.getElem?_eq_none (by simp only [List.length_append, List.length_singleton]; omega),
          List.getElem?_eq_none (by omega)]
    · rfl

/-- The slot `first_null_slot` gives holds no batch. -/
theorem batchAt_firstNullSlot_slot (s : MultiPaxosReplica) :
    batchAt s (firstNullSlot s).1 = none := by
  obtain ⟨inst, hget, hnull⟩ := firstNullSlot_null s
  rw [← batchAt_firstNullSlot, batchAt, hget]
  simp [hnull]

/-- Writing the instance of one slot keeps the batches of the others. -/
theorem batchAt_set {s : MultiPaxosReplica} {slot slot' : Nat} {x : Instance}
    (hle : s.startSlot ≤ slot) (hne : slot' ≠ slot) :
    batchAt { s with insts := s.insts.set (slot - s.startSlot) x } slot' = batchAt s slot' := by
  simp only [batchAt, instAt]
  split
  · rw [List.getElem?_set_ne (by omega)]
  · rfl

section Run

variable (hfns : e.firstNullSlot = firstNullSlot) (hcr : HcrFrame e)
include hfns

/-- The Accept phase fills a slot that held no batch with the batch, keeps
every other batch, and broadcasts one `Accept`. -/
theorem startAccept_frame {reqBatch : ReqBatch} {s s' : MultiPaxosReplica} {effs : List Effect}
    (h : startAccept c e reqBatch s = .ok (s', effs)) :
    ∃ slot, acceptsOf effs = [(slot, reqBatch)] ∧ batchAt s slot = none ∧
      batchAt s' slot = some reqBatch ∧ Extends s s' := by
  obtain ⟨slot', inst', hslot, heffs, hget', hacc⟩ := startAccept_post c e h
  rcases hf : e.firstNullSlot s with ⟨slot, s0⟩
  obtain ⟨inst, acks, hget, -, rfl, -⟩ := startAccept_spec c e hf h
  simp only [hf] at hslot
  subst hslot
  have hfree : batchAt s slot' = none := by
    have := batchAt_firstNullSlot_slot s
    rwa [← hfns, hf] at this
  have hs0 : ∀ slot'', batchAt s0 slot'' = batchAt s slot'' := by
    intro slot''
    rw [← batchAt_firstNullSlot s slot'', ← hfns, hf]
  have hle : s0.startSlot ≤ slot' := by
    unfold instAt at hget
    split at hget
    · assumption
    · cases hget
  refine ⟨slot', by rw [heffs]; rfl, hfree, by simp [batchAt, hget', hacc.status, hacc.reqs], ?_⟩
  intro slot'' R hR
  have hne : slot'' ≠ slot' := by
    rintro rfl
    rw [hfree] at hR
    cases hR
  rw [batchAt_set hle hne, hs0]
  exact hR

include hcr

/-- One `handle_req_batch` keeps every batch of the log, and either sends no
`Accept` or sends one, for a slot that held no batch and now holds the
batch it carries. -/
theorem handleReqBatch_extends {reqBatch : ReqBatch} {s s' : MultiPaxosReplica}
    {effs : List Effect} (h : handleReqBatch c e a reqBatch s = .ok (s', effs)) :
    Extends s s' ∧ (acceptsOf effs = [] ∨ ∃ slot R, acceptsOf effs = [(slot, R)] ∧
      batchAt s slot = none ∧ batchAt s' slot = some R) := by
  simp only [handleReqBatch, bind_eq_ok, debugAssert_eq_ok] at h
  obtain ⟨_, -, h⟩ := h
  split at h
  · cases h
    exact ⟨.refl s, .inl (acceptsOf_redirects c s reqBatch)⟩
  simp only [pure_bind] at h
  split at h
  · obtain ⟨⟨s1, reads⟩, h1, h⟩ := bind_eq_ok.mp h
    obtain ⟨ha1, hx1⟩ := serveReads_frame hcr h1
    split at h
    · cases h
      exact ⟨hx1, .inl ha1⟩
    · obtain ⟨⟨s2, effs2⟩, h2, h⟩ := bind_eq_ok.mp h
      cases h
      obtain ⟨slot, ha2, hfree, hnew, hx2⟩ := startAccept_frame hfns h2
      refine ⟨hx1.trans hx2, .inr ⟨slot, _, by simp [ha1, ha2], ?_, hnew⟩⟩
      cases hb : batchAt s slot with
      | none => rfl
      | some R => rw [hx1 slot R hb] at hfree; cases hfree
  · obtain ⟨slot, ha, hfree, hnew, hx⟩ := startAccept_frame hfns h
    exact ⟨hx, .inr ⟨slot, _, ha, hfree, hnew⟩⟩

end Run

/-! ## Runs -/

/-- A run of `handle_req_batch` calls at one replica from `s`, each with its
own batch and answers, and what they sent, in order. -/
inductive LeaderRun (c : MultiPaxosCtx) (e : Env) (s : MultiPaxosReplica) :
    List Effect → MultiPaxosReplica → Prop
  | refl : LeaderRun c e s [] s
  | step {trace effs : List Effect} {s1 s2 : MultiPaxosReplica} (a : Answers) (reqBatch : ReqBatch) :
      LeaderRun c e s trace s1 → handleReqBatch c e a reqBatch s1 = .ok (s2, effs) →
      LeaderRun c e s (trace ++ effs) s2

/-- Over every run of `handle_req_batch` calls, every batch held at the start
is still held, the `Accept`s sent are for pairwise different slots, and each
is for a slot that held no batch at the start and now holds the batch the
`Accept` carried. -/
theorem leaderRun_accepts (hfns : e.firstNullSlot = firstNullSlot) (hcr : HcrFrame e)
    {s s' : MultiPaxosReplica} {trace : List Effect} (h : LeaderRun c e s trace s') :
    Extends s s' ∧ ((acceptsOf trace).map Prod.fst).Nodup ∧
      ∀ slot R, (slot, R) ∈ acceptsOf trace → batchAt s slot = none ∧ batchAt s' slot = some R := by
  induction h with
  | refl => exact ⟨.refl s, List.nodup_nil, nofun⟩
  | step a reqBatch _ hstep ih =>
    obtain ⟨hx, hnd, hall⟩ := ih
    obtain ⟨hx12, hnone | ⟨slot, R, hnew, hfree, hheld⟩⟩ := handleReqBatch_extends hfns hcr hstep
    · refine ⟨hx.trans hx12, by simpa [hnone] using hnd, fun slot R hmem => ?_⟩
      rw [acceptsOf_append, hnone, List.append_nil] at hmem
      exact ⟨(hall slot R hmem).1, hx12 slot R (hall slot R hmem).2⟩
    · have hfresh : ∀ R', (slot, R') ∉ acceptsOf _ := fun R' hmem => by
        rw [(hall slot R' hmem).2] at hfree
        cases hfree
      refine ⟨hx.trans hx12, ?_, fun slot' R' hmem => ?_⟩
      · rw [acceptsOf_append, hnew, List.map_append, List.nodup_append]
        refine ⟨hnd, List.nodup_singleton _, ?_⟩
        simp only [List.map_cons, List.map_nil, List.disjoint_singleton, List.mem_map, not_exists,
          not_and]
        rintro ⟨_, R'⟩ hmem rfl
        exact hfresh R' hmem
      · rw [acceptsOf_append, hnew, List.mem_append, List.mem_singleton] at hmem
        rcases hmem with hmem | ⟨rfl, rfl⟩
        · exact ⟨(hall slot' R' hmem).1, hx12 slot' R' (hall slot' R' hmem).2⟩
        · refine ⟨?_, hheld⟩
          cases hb : batchAt s slot with
          | none => rfl
          | some R'' => rw [hx _ _ hb] at hfree; cases hfree

/-- `handle_req_batch` at `leaderEnv` with one lease, the state kept on a fault. -/
def callOrStay (reqBatch : ReqBatch) (s : MultiPaxosReplica) : MultiPaxosReplica × List Effect :=
  match handleReqBatch ctx3 leaderEnv oneLease reqBatch s with
  | .ok r => r
  | .error _ => (s, [])

/-- Two `Put`s of client 7, one batch each, at `freshLeader`. -/
def twoPuts : MultiPaxosReplica × List Effect :=
  let first := callOrStay [(7, .req 1 (.put "k" "v"))] freshLeader
  let second := callOrStay [(7, .req 2 (.put "k" "w"))] first.1
  (second.1, first.2 ++ second.2)

theorem leaderRun_accepts_twoPuts :
    leaderEnv.firstNullSlot = firstNullSlot ∧ HcrFrame leaderEnv ∧
      LeaderRun ctx3 leaderEnv freshLeader ([] ++ twoPuts.2) twoPuts.1 ∧
      Extends freshLeader twoPuts.1 ∧ ((acceptsOf ([] ++ twoPuts.2)).map Prod.fst).Nodup ∧
      ∀ slot R, (slot, R) ∈ acceptsOf ([] ++ twoPuts.2) →
        batchAt freshLeader slot = none ∧ batchAt twoPuts.1 slot = some R :=
  have hcr : HcrFrame leaderEnv := fun _ _ s _ _ h => by cases h; exact ⟨rfl, .refl s⟩
  have hrun : LeaderRun ctx3 leaderEnv freshLeader ([] ++ twoPuts.2) twoPuts.1 :=
    List.append_assoc [] _ _ ▸ .step oneLease [(7, .req 2 (.put "k" "w"))]
      (.step oneLease [(7, .req 1 (.put "k" "v"))] .refl rfl) rfl
  ⟨rfl, hcr, hrun, leaderRun_accepts rfl hcr hrun⟩

/-- The two calls' `Accept`s are for slots 0 and 1. -/
example : (acceptsOf twoPuts.2).map Prod.fst = [0, 1] := rfl

end Summerset.MultiPaxos
