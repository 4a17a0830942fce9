import Summerset.Server.Types
import Mathlib.Logic.Relation

/-!
# Raft command execution (`protocols/raft/execution.rs`)

`handle_cmd_result` takes the result of one executed command, replies to the
command's client when a reply is owed, and moves `last_exec` to the entry's
slot once the entry's last command has been executed.

`Self::split_command_id` is not under `src/`, so it is the argument `split`;
`external_api.has_client(client)` answers `connected client`.

The state machine applies commands in the order they were submitted: entries
in slot order from `last_exec + 1`, each entry's commands in index order. A
run (`ExecStep`) handles results in that order, with stale results (for slots
below `start_slot`) anywhere in between. Besides the replica, an `ExecNode`
keeps the position whose result comes next (`next`) and the positions whose
results were handled (`handled`); before the run every command up to
`last_exec` counts as handled.

* `handleCmdResult_stale`, `handleCmdResult_spec`, `handleCmdResult_leave`:
  what one call does;
* `execInv_step`, `execInv_run`: `next` follows `last_exec`, and every command
  of every entry from `start_slot` to `last_exec` has been handled;
* `execution_run`: the above, `last_exec` never decreasing, and what each
  call of a run sends.
-/

namespace Summerset.Raft

/-- A log entry; `log_offset` is not read here. -/
structure LogEntry where
  term : Nat
  reqs : ReqBatch
  external : Bool
  deriving DecidableEq, Repr

/-- `RaftReplica`, the fields `execution.rs` uses. -/
structure RaftReplica where
  startSlot : Nat
  log : List LogEntry
  lastExec : Nat
  deriving DecidableEq, Repr

variable (split : Nat → Nat × Nat)

/-- Returns the replica after the call and the replies sent, in order.
mirrors src/src/protocols/raft/execution.rs:11-52 -/
def handleCmdResult (connected : ClientId → Bool) (cmdId : Nat) (cmdResult : CommandResult)
    (s : RaftReplica) : Except Fault (RaftReplica × List (ClientId × ApiReply)) := do
  let (slot, cmdIdx) := split cmdId
  if slot < s.startSlot then
    return (s, [])
  debugAssert (decide (slot < s.startSlot + s.log.length))
    "assertion failed: slot < self.start_slot + self.log.len()"
  let entry ← index s.log (slot - s.startSlot)
  debugAssert (decide (cmdIdx < entry.reqs.length))
    "assertion failed: cmd_idx < entry.reqs.len()"
  let (client, req) ← index entry.reqs cmdIdx
  let replies ← match req with
    | .req id _ => pure <|
      if entry.external && connected client then [(client, ApiReply.normal id (some cmdResult))]
      else []
    | .leave => throw (.error "unexpected API request type")
  let last ← checkedSub entry.reqs.length 1
  pure (if cmdIdx == last then { s with lastExec := slot } else s, replies)

/-! ## One call -/

/-- The number of commands of the entry at `slot` (0 if the slot is not held). -/
def entryLen (s : RaftReplica) (slot : Nat) : Nat :=
  ((s.log[slot - s.startSlot]?).map fun entry => entry.reqs.length).getD 0

variable {split}

theorem handleCmdResult_stale (connected : ClientId → Bool) {cmdId : Nat} (res : CommandResult)
    {s : RaftReplica} (h : (split cmdId).1 < s.startSlot) :
    handleCmdResult split connected cmdId res s = .ok (s, []) := by
  simp [handleCmdResult, h]

/-- A result for a held slot names an existing `Req`; the call replies to its
client exactly when the entry is external and the client connected, and sets
`last_exec` to the slot exactly when the command is the entry's last. -/
theorem handleCmdResult_spec {connected : ClientId → Bool} {cmdId : Nat} {res : CommandResult}
    {s s' : RaftReplica} {effs : List (ClientId × ApiReply)}
    (hs : s.startSlot ≤ (split cmdId).1)
    (h : handleCmdResult split connected cmdId res s = .ok (s', effs)) :
    ∃ entry client id cmd, s.log[(split cmdId).1 - s.startSlot]? = some entry ∧
      entry.reqs[(split cmdId).2]? = some (client, .req id cmd) ∧
      effs = (if entry.external && connected client then
        [(client, ApiReply.normal id (some res))] else []) ∧
      s' = (if (split cmdId).2 + 1 = entry.reqs.length then
        { s with lastExec := (split cmdId).1 } else s) := by
  rcases hsp : split cmdId with ⟨slot, idx⟩
  simp only [hsp] at hs
  simp only [handleCmdResult, hsp, Nat.not_lt.mpr hs, if_false, bind_eq_ok, debugAssert_eq_ok,
    index_eq_ok, checkedSub_eq_ok, decide_eq_true_eq] at h
  obtain ⟨_, -, _, -, entry, he, _, -, ⟨client, req⟩, hr, h⟩ := h
  cases req with
  | leave => simp at h
  | req id cmd =>
    simp only [pure_bind, bind_eq_ok, checkedSub_eq_ok] at h
    obtain ⟨_, ⟨-, rfl⟩, h⟩ := h
    cases h
    refine ⟨entry, client, id, cmd, he, hr, rfl, ?_⟩
    have hidx := (List.getElem?_eq_some_iff.mp hr).1
    have hlast : idx = entry.reqs.length - 1 ↔ idx + 1 = entry.reqs.length := by omega
    simp only [beq_iff_eq, hlast]

/-- A non-`Req` request in a held slot is an error. -/
theorem handleCmdResult_leave {connected : ClientId → Bool} {cmdId : Nat} (res : CommandResult)
    {s : RaftReplica} {entry : LogEntry} {client : ClientId}
    (hs : s.startSlot ≤ (split cmdId).1)
    (he : s.log[(split cmdId).1 - s.startSlot]? = some entry)
    (hr : entry.reqs[(split cmdId).2]? = some (client, .leave)) :
    handleCmdResult split connected cmdId res s = .error (.error "unexpected API request type") := by
  rcases hsp : split cmdId with ⟨slot, idx⟩
  simp only [hsp] at hs he hr
  have hslot : slot - s.startSlot < s.log.length := (List.getElem?_eq_some_iff.mp he).1
  have hidx : idx < entry.reqs.length := (List.getElem?_eq_some_iff.mp hr).1
  simp [handleCmdResult, hsp, Nat.not_lt.mpr hs, index, he, hr, hidx, debugAssert,
    show slot < s.startSlot + s.log.length by omega]

/-! ## Runs in submission order -/

/-- A replica with the position whose result comes next and the positions
whose results were handled. -/
structure ExecNode where
  rep : RaftReplica
  next : Nat × Nat
  handled : List (Nat × Nat)

/-- The position after `(slot, idx)` in submission order. -/
def advance (s : RaftReplica) (pos : Nat × Nat) : Nat × Nat :=
  if pos.2 + 1 < entryLen s pos.1 then (pos.1, pos.2 + 1) else (pos.1 + 1, 0)

/-- Every command position of the entries from `start_slot` to `last_exec`. -/
def executedBefore (s : RaftReplica) : List (Nat × Nat) :=
  (List.range' s.startSlot (s.lastExec + 1 - s.startSlot)).flatMap fun slot =>
    (List.range (entryLen s slot)).map fun idx => (slot, idx)

/-- The node a run starts from. -/
def ExecNode.init (s : RaftReplica) : ExecNode :=
  ⟨s, (s.lastExec + 1, 0), executedBefore s⟩

variable (split) in
/-- One result handled: a stale one, or the one that comes next. -/
inductive ExecStep : ExecNode → ExecNode → Prop
  | stale {n : ExecNode} {connected : ClientId → Bool} {cmdId : Nat} {res : CommandResult}
      {s' : RaftReplica} {effs : List (ClientId × ApiReply)}
      (hs : (split cmdId).1 < n.rep.startSlot)
      (h : handleCmdResult split connected cmdId res n.rep = .ok (s', effs)) :
      ExecStep n { n with rep := s' }
  | next {n : ExecNode} {connected : ClientId → Bool} {cmdId : Nat} {res : CommandResult}
      {s' : RaftReplica} {effs : List (ClientId × ApiReply)}
      (hn : split cmdId = n.next) (hs : n.rep.startSlot ≤ n.next.1)
      (h : handleCmdResult split connected cmdId res n.rep = .ok (s', effs)) :
      ExecStep n ⟨s', advance n.rep n.next, n.next :: n.handled⟩

/-- The run's invariant. -/
structure ExecInv (n : ExecNode) : Prop where
  /-- The next result is for the slot after `last_exec`. -/
  next_slot : n.next.1 = n.rep.lastExec + 1
  /-- The commands of that slot before the next one were handled. -/
  partial_entry : ∀ idx < n.next.2, (n.next.1, idx) ∈ n.handled
  /-- No entry up to `last_exec` is partly executed. -/
  complete : ∀ slot, n.rep.startSlot ≤ slot → slot ≤ n.rep.lastExec →
    ∀ idx < entryLen n.rep slot, (slot, idx) ∈ n.handled

theorem execInv_init (s : RaftReplica) : ExecInv (ExecNode.init s) where
  next_slot := rfl
  partial_entry := fun _ h => absurd h (Nat.not_lt_zero _)
  complete := fun slot h1 h2 idx hi => by
    dsimp only [ExecNode.init] at h1 h2 hi ⊢
    simp only [executedBefore, List.mem_flatMap, List.mem_range'_1, List.mem_map,
      List.mem_range, Prod.mk.injEq]
    exact ⟨slot, ⟨h1, by omega⟩, idx, hi, rfl, rfl⟩

theorem entryLen_of_getElem? {s : RaftReplica} {slot : Nat} {entry : LogEntry}
    (h : s.log[slot - s.startSlot]? = some entry) : entryLen s slot = entry.reqs.length := by
  simp [entryLen, h]

/-- What one step does to the replica: nothing for a stale result; for the
next result, `last_exec` moves to its slot exactly when it completes the entry. -/
theorem execStep_cases {n n' : ExecNode} (h : ExecStep split n n') :
    (n'.rep = n.rep ∧ n'.next = n.next ∧ n'.handled = n.handled) ∨
    (n.rep.startSlot ≤ n.next.1 ∧ n.next.2 < entryLen n.rep n.next.1 ∧
      n'.handled = n.next :: n.handled ∧
      (n.next.2 + 1 = entryLen n.rep n.next.1 →
        n'.rep = { n.rep with lastExec := n.next.1 } ∧ n'.next = (n.next.1 + 1, 0)) ∧
      (n.next.2 + 1 ≠ entryLen n.rep n.next.1 →
        n'.rep = n.rep ∧ n'.next = (n.next.1, n.next.2 + 1))) := by
  cases h with
  | stale hs h =>
    rw [handleCmdResult_stale _ _ hs] at h
    cases h
    exact .inl ⟨rfl, rfl, rfl⟩
  | next hn hs h =>
    obtain ⟨entry, client, id, cmd, he, hr, -, rfl⟩ := handleCmdResult_spec (hn ▸ hs) h
    rw [hn] at he hr
    have hl := entryLen_of_getElem? he
    have hidx := (List.getElem?_eq_some_iff.mp hr).1
    refine .inr ⟨hs, hl ▸ hidx, rfl, fun h1 => ?_, fun h1 => ?_⟩
    · simp only [hn, ← hl, h1, if_true, advance, lt_irrefl, if_false, and_self]
    · simp only [hn, ← hl, h1, if_false, advance, true_and]
      rw [if_pos (by omega)]

theorem execInv_step {n n' : ExecNode} (hi : ExecInv n) (h : ExecStep split n n') :
    ExecInv n' := by
  rcases execStep_cases h with ⟨hs, hn, hh⟩ | ⟨-, hidx, hh, hlast, hmid⟩
  · exact ⟨hs ▸ hn ▸ hi.next_slot, hn ▸ hh ▸ hi.partial_entry, hs ▸ hh ▸ hi.complete⟩
  have hold : ∀ {p}, p ∈ n.handled → p ∈ n'.handled := fun hp => hh ▸ List.mem_cons_of_mem _ hp
  by_cases hl : n.next.2 + 1 = entryLen n.rep n.next.1
  · -- the entry's last command: `last_exec` moves to its slot
    obtain ⟨hs, hn⟩ := hlast hl
    refine ⟨by rw [hs, hn], by simp [hn], fun slot h1 h2 j hj => ?_⟩
    rw [hs] at h1 h2 hj
    rcases Nat.lt_or_ge slot n.next.1 with hlt | hge
    · exact hold (hi.complete slot h1 (by have := hi.next_slot; omega) j hj)
    · obtain rfl : slot = n.next.1 := le_antisymm h2 hge
      rcases Nat.lt_or_ge j n.next.2 with hj' | hj'
      · exact hold (hi.partial_entry j hj')
      · obtain rfl : j = n.next.2 := by simp only [entryLen] at hj hl; omega
        exact hh ▸ List.mem_cons_self _ _
  · -- a command inside the entry: only the position moves
    obtain ⟨hs, hn⟩ := hmid hl
    refine ⟨by rw [hs, hn, hi.next_slot], fun j hj => ?_, fun slot h1 h2 j hj => ?_⟩
    · rw [hn] at hj ⊢
      rcases Nat.lt_or_ge j n.next.2 with hj' | hj'
      · exact hold (hi.partial_entry j hj')
      · obtain rfl : j = n.next.2 := by omega
        exact hh ▸ List.mem_cons_self _ _
    · rw [hs] at h1 h2 hj
      exact hold (hi.complete slot h1 h2 j hj)

theorem lastExec_step {n n' : ExecNode} (hi : ExecInv n) (h : ExecStep split n n') :
    n.rep.lastExec ≤ n'.rep.lastExec := by
  rcases execStep_cases h with ⟨hs, -⟩ | ⟨-, -, -, hlast, hmid⟩
  · rw [hs]
  by_cases hl : n.next.2 + 1 = entryLen n.rep n.next.1
  · rw [(hlast hl).1]; have := hi.next_slot; dsimp only; omega
  · rw [(hmid hl).1]

theorem execInv_run {n n' : ExecNode} (hi : ExecInv n)
    (h : Relation.ReflTransGen (ExecStep split) n n') : ExecInv n' := by
  induction h with
  | refl => exact hi
  | tail _ hs ih => exact execInv_step ih hs

theorem lastExec_run_mono {n n' : ExecNode} (hi : ExecInv n)
    (h : Relation.ReflTransGen (ExecStep split) n n') : n.rep.lastExec ≤ n'.rep.lastExec := by
  induction h with
  | refl => exact le_rfl
  | tail hr hs ih => exact ih.trans (lastExec_step (execInv_run hi hr) hs)

/-- Every run of results in submission order keeps `next` after `last_exec`
and leaves no entry up to `last_exec` partly executed; `last_exec` never
decreases; a stale result changes nothing; a result for a held slot is for a
`Req` and sends one reply when the entry is external and its client
connected, none otherwise; a `Leave` there is an error. -/
theorem execution_run {s0 : RaftReplica} {n : ExecNode}
    (hr : Relation.ReflTransGen (ExecStep split) (ExecNode.init s0) n) :
    ExecInv n ∧ s0.lastExec ≤ n.rep.lastExec ∧
      (∀ n', Relation.ReflTransGen (ExecStep split) n n' → n.rep.lastExec ≤ n'.rep.lastExec) ∧
      (∀ connected cmdId res, (split cmdId).1 < n.rep.startSlot →
        handleCmdResult split connected cmdId res n.rep = .ok (n.rep, [])) ∧
      (∀ connected cmdId res s' effs, n.rep.startSlot ≤ (split cmdId).1 →
        handleCmdResult split connected cmdId res n.rep = .ok (s', effs) →
        ∃ entry client id cmd, n.rep.log[(split cmdId).1 - n.rep.startSlot]? = some entry ∧
          entry.reqs[(split cmdId).2]? = some (client, .req id cmd) ∧ effs.length ≤ 1 ∧
          (effs.length = 1 ↔ entry.external = true ∧ connected client = true)) ∧
      (∀ connected cmdId res entry client, n.rep.startSlot ≤ (split cmdId).1 →
        n.rep.log[(split cmdId).1 - n.rep.startSlot]? = some entry →
        entry.reqs[(split cmdId).2]? = some (client, .leave) →
        handleCmdResult split connected cmdId res n.rep =
          .error (.error "unexpected API request type")) := by
  have hi := execInv_run (execInv_init s0) hr
  refine ⟨hi, lastExec_run_mono (execInv_init s0) hr, fun _ h => lastExec_run_mono hi h,
    fun connected _ res hs => handleCmdResult_stale connected res hs,
    fun _ _ _ _ _ hs h => ?_, fun _ _ res _ _ hs he hl => handleCmdResult_leave res hs he hl⟩
  obtain ⟨entry, client, id, cmd, he, hr, rfl, -⟩ := handleCmdResult_spec hs h
  refine ⟨entry, client, id, cmd, he, hr, ?_⟩
  split <;> simp_all

/-- A command id with the slot in the tens and the index in the units. -/
def splitTens (cmdId : Nat) : Nat × Nat := (cmdId / 10, cmdId % 10)

/-- A log from slot 1 whose entry at slot 1 holds one `Put` of client 7. -/
def onePut : RaftReplica := ⟨1, [⟨1, [(7, .req 1 (.put "k" "v"))], true⟩], 0⟩

theorem execution_run_onePut :
    ∃ n, Relation.ReflTransGen (ExecStep splitTens) (ExecNode.init onePut) n ∧
      n.rep.lastExec = 1 ∧
      ExecInv n ∧ onePut.lastExec ≤ n.rep.lastExec ∧
      (∀ n', Relation.ReflTransGen (ExecStep splitTens) n n' → n.rep.lastExec ≤ n'.rep.lastExec) ∧
      (∀ connected cmdId res, (splitTens cmdId).1 < n.rep.startSlot →
        handleCmdResult splitTens connected cmdId res n.rep = .ok (n.rep, [])) ∧
      (∀ connected cmdId res s' effs, n.rep.startSlot ≤ (splitTens cmdId).1 →
        handleCmdResult splitTens connected cmdId res n.rep = .ok (s', effs) →
        ∃ entry client id cmd, n.rep.log[(splitTens cmdId).1 - n.rep.startSlot]? = some entry ∧
          entry.reqs[(splitTens cmdId).2]? = some (client, .req id cmd) ∧ effs.length ≤ 1 ∧
          (effs.length = 1 ↔ entry.external = true ∧ connected client = true)) ∧
      (∀ connected cmdId res entry client, n.rep.startSlot ≤ (splitTens cmdId).1 →
        n.rep.log[(splitTens cmdId).1 - n.rep.startSlot]? = some entry →
        entry.reqs[(splitTens cmdId).2]? = some (client, .leave) →
        handleCmdResult splitTens connected cmdId res n.rep =
          .error (.error "unexpected API request type")) :=
  have hr : Relation.ReflTransGen (ExecStep splitTens) (ExecNode.init onePut)
      ⟨{ onePut with lastExec := 1 }, advance onePut (1, 0), (1, 0) :: executedBefore onePut⟩ :=
    .single (@ExecStep.next splitTens (ExecNode.init onePut) (fun _ => true) 10
      (.putResult none) _ [(7, ApiReply.normal 1 (some (.putResult none)))] rfl (by decide) rfl)
  ⟨_, hr, rfl, execution_run hr⟩

end Summerset.Raft
