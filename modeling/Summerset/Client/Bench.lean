import Summerset.Server.Types
import Mathlib.Logic.Relation

/-!
# The benchmarking client (`summerset_client/src/clients/bench.rs`)

`ClientBench` checks its mode parameters, then runs a loop for `length_s`
seconds: closed-loop when `freq_target` is 0 (send a request, wait for its
reply), open-loop otherwise (a ticker at `freq_target` sends, replies are
taken as they come, and the ticker pauses while a send must be retried and
a reply is outstanding). Every print interval it prints the chunk's
throughput and mean latency and starts a new chunk.

The driver (`DriverOpenLoop`) and the clock are not under `src/`: what the
driver answers is the argument of each iteration, and time is left out, so a
step of the loop is an iteration of either kind or the printing of a chunk.

The main result is `benchInv_run`: over every run of the loop, `chunk_cnt`
counts the chunk's latencies, there are no more replies than requests sent,
and the open loop's ticker pauses only while a reply is outstanding.

Lemmas of the model on the way: `newParams_ok_iff` and `newParams_error`
(`ClientBench::new` accepts exactly the parameters within the four bounds it
checks, and a refusal names the first field out of bound with its value),
`newParams_default` (the defaults pass), and `putDraws_length` (of the 101
values `gen_range(0..=100)` draws, `put_ratio + 1` make `issue_rand_cmd` send
a `Put`).
-/

namespace Summerset.Client

/-! ## Mode parameters -/

/-- `ModeParamsBench`.
mirrors src/summerset_client/src/clients/bench.rs:40-54 -/
structure ModeParamsBench where
  freqTarget : Nat
  lengthS : Nat
  putRatio : Nat
  valueSize : Nat
  deriving DecidableEq, Repr

/-- `ModeParamsBench::default()`.
mirrors src/summerset_client/src/clients/bench.rs:56-66 -/
def ModeParamsBench.default : ModeParamsBench := ⟨200000, 30, 50, 1024⟩

/-- One check of `ClientBench::new`:
`logged_err!("c"; "invalid params.<field> '{}'", value)` when the value is
out of bound (`\x27` is the quote). -/
def checkParam (field : String) (value : Nat) (invalid : Bool) : Except String Unit :=
  if invalid then .error s!"invalid params.{field} \x27{value}\x27" else .ok ()

/-- The checks of `ClientBench::new`, in order: the field, its value, and
whether it is out of bound.
mirrors src/summerset_client/src/clients/bench.rs:93-108 -/
def paramChecks (p : ModeParamsBench) : List (String × Nat × Bool) :=
  [("freq_target", p.freqTarget, decide (p.freqTarget > 10000000)),
   ("length_s", p.lengthS, p.lengthS == 0),
   ("put_ratio", p.putRatio, decide (p.putRatio > 100)),
   ("value_size", p.valueSize, p.valueSize == 0)]

/-- `ClientBench::new` on the parsed parameters: the checks, in order; the
driver, the random generator and the value it then builds are left out.
mirrors src/summerset_client/src/clients/bench.rs:85-122 -/
def newParams (p : ModeParamsBench) : Except String ModeParamsBench := do
  (paramChecks p).forM fun c => checkParam c.1 c.2.1 c.2.2
  return p

@[simp]
theorem checkParam_false (field : String) (value : Nat) : checkParam field value false = .ok () := rfl

@[simp]
theorem checkParam_true (field : String) (value : Nat) :
    checkParam field value true = .error s!"invalid params.{field} \x27{value}\x27" := rfl

theorem forM_checkParam_ok {checks : List (String × Nat × Bool)} :
    checks.forM (fun c => checkParam c.1 c.2.1 c.2.2) = .ok () ↔ ∀ c ∈ checks, c.2.2 = false := by
  induction checks with
  | nil => simp
  | cons c checks ih =>
    obtain ⟨field, value, _ | _⟩ := c <;> simp [ih]

theorem forM_checkParam_error {checks : List (String × Nat × Bool)} {msg : String}
    (h : checks.forM (fun c => checkParam c.1 c.2.1 c.2.2) = .error msg) :
    ∃ pre field value post, checks = pre ++ (field, value, true) :: post ∧
      (∀ c ∈ pre, c.2.2 = false) ∧ msg = s!"invalid params.{field} \x27{value}\x27" := by
  induction checks with
  | nil => cases h
  | cons c checks ih =>
    obtain ⟨field, value, _ | _⟩ := c
    · obtain ⟨pre, field', value', post, rfl, hpre, hmsg⟩ := ih (by simpa using h)
      refine ⟨(field, value, false) :: pre, field', value', post, rfl, ?_, hmsg⟩
      simpa using hpre
    · simp only [List.forM_cons', checkParam_true, error_bind, Except.error.injEq] at h
      exact ⟨[], field, value, checks, rfl, by simp, h.symm⟩

theorem newParams_eq (p : ModeParamsBench) :
    newParams p = ((paramChecks p).forM fun c => checkParam c.1 c.2.1 c.2.2).map fun _ => p := by
  unfold newParams
  cases (paramChecks p).forM fun c => checkParam c.1 c.2.1 c.2.2 <;> rfl

/-- `ClientBench::new` accepts exactly the parameters within its bounds. -/
theorem newParams_ok_iff {p p' : ModeParamsBench} :
    newParams p = .ok p' ↔
      p' = p ∧ p.freqTarget ≤ 10000000 ∧ 0 < p.lengthS ∧ p.putRatio ≤ 100 ∧ 0 < p.valueSize := by
  have hmap : newParams p = .ok p' ↔
      (paramChecks p).forM (fun c => checkParam c.1 c.2.1 c.2.2) = .ok () ∧ p' = p := by
    rw [newParams_eq]
    cases (paramChecks p).forM fun c => checkParam c.1 c.2.1 c.2.2 <;>
      simp [Except.map, eq_comm]
  rw [hmap, forM_checkParam_ok]
  simp [paramChecks, Nat.pos_iff_ne_zero]
  exact and_comm

/-- A refusal names the first field out of bound, and its value. -/
theorem newParams_error {p : ModeParamsBench} {msg : String} (h : newParams p = .error msg) :
    ∃ pre field value post, paramChecks p = pre ++ (field, value, true) :: post ∧
      (∀ c ∈ pre, c.2.2 = false) ∧ msg = s!"invalid params.{field} \x27{value}\x27" := by
  rw [newParams_eq] at h
  apply forM_checkParam_error
  cases h' : (paramChecks p).forM fun c => checkParam c.1 c.2.1 c.2.2 with
  | error e =>
    simp only [h', Except.map, Except.error.injEq] at h
    rw [h]
  | ok u => simp [h', Except.map] at h

/-- A zero `length_s` is the first field out of bound. -/
example : newParams ⟨200000, 0, 50, 1024⟩ = .error "invalid params.length_s \x270\x27" := rfl

/-- The defaults pass the checks. -/
theorem newParams_default : newParams ModeParamsBench.default = .ok ModeParamsBench.default := rfl

/-! ## Requests -/

/-- `issue_rand_cmd`'s command: the key `KEYS_POOL[keyIdx]`, where `keyIdx`
is the draw of `gen_range(0..KEYS_POOL.len())`, with a `Put` of the fixed
value when the draw of `gen_range(0..=100)` is at most `put_ratio` and a
`Get` otherwise; `none` is the panic of an index out of range.
mirrors src/summerset_client/src/clients/bench.rs:124-132 -/
def issueRandCmd (keysPool : List String) (value : String) (p : ModeParamsBench)
    (keyIdx draw : Nat) : Option Command := do
  let key ← keysPool[keyIdx]?
  if draw ≤ p.putRatio then some (.put key value) else some (.get key)

theorem range_filter_le_length (r : Nat) : ∀ n, ((List.range n).filter (· ≤ r)).length = min n (r + 1)
  | 0 => rfl
  | n + 1 => by
    rw [List.range_succ, List.filter_append, List.length_append, range_filter_le_length r n]
    by_cases h : n ≤ r <;> simp [h] <;> omega

/-- Of the 101 draws of `gen_range(0..=100)`, `put_ratio + 1` give a `Put`. -/
theorem putDraws_length (keysPool : List String) (value : String) (p : ModeParamsBench)
    {keyIdx : Nat} (hk : keyIdx < keysPool.length) (hp : p.putRatio ≤ 100) :
    ((List.range 101).filter fun draw =>
      (issueRandCmd keysPool value p keyIdx draw).any Command.isPut).length = p.putRatio + 1 := by
  have hput : ∀ draw, (issueRandCmd keysPool value p keyIdx draw).any Command.isPut =
      decide (draw ≤ p.putRatio) := by
    intro draw
    by_cases h : draw ≤ p.putRatio <;>
      simp [issueRandCmd, List.getElem?_eq_getElem hk, h, Command.isPut]
  simp only [hput]
  rw [range_filter_le_length]
  omega

/-- With the default `put_ratio` of 50, 51 of the 101 draws give a `Put`. -/
example : ((List.range 101).filter fun draw => (issueRandCmd ["k0", "k1", "k2", "k3", "k4"] "v"
    ModeParamsBench.default 0 draw).any Command.isPut).length = 51 :=
  putDraws_length ["k0", "k1", "k2", "k3", "k4"] "v" ModeParamsBench.default (by decide) (by decide)

/-! ## The loop -/

/-- The counters of `run` (lines 244-249): requests sent and replies got,
the chunk's reply count and latencies in microseconds, and the two flags. -/
structure BenchCounters where
  totalCnt : Nat
  replyCnt : Nat
  chunkCnt : Nat
  chunkLats : List Float
  retrying : Bool
  slowdown : Bool

/-- The counters `run` starts from. -/
def BenchCounters.init : BenchCounters := ⟨0, 0, 0, [], false, false⟩

/-- The driver calls an iteration makes. -/
inductive DriverCall where
  | issueRetry
  | issueRandCmd
  | waitReply
  deriving DecidableEq, Repr

/-- The send of both loops: `issue_retry()` after a send that did not go
out, else `issue_rand_cmd()`. -/
def issueCall (c : BenchCounters) : DriverCall := if c.retrying then .issueRetry else .issueRandCmd

/-- The counters after a send that returned `issued` (lines 151-154 and
209-213): `retrying` when it did not go out, else one more request.
The open loop also sets `slowdown`. -/
def afterSend (issued : Option Nat) (c : BenchCounters) : BenchCounters :=
  let retrying := issued.isNone
  { c with retrying, totalCnt := if retrying then c.totalCnt else c.totalCnt + 1 }

/-- A reply, `lat` seconds after its request (lines 160-165, 189-193). -/
def recordReply (lat : Float) (c : BenchCounters) : BenchCounters :=
  { c with replyCnt := c.replyCnt + 1, chunkCnt := c.chunkCnt + 1,
           chunkLats := c.chunkLats ++ [lat * 1000000.0] }

/-- `closed_loop_iter`: `issued` is what the send returned, `reply` what
`wait_reply` returns when it is called.
mirrors src/summerset_client/src/clients/bench.rs:134-169 -/
def closedLoopIter (issued : Option Nat) (reply : Option Float) (c : BenchCounters) :
    List DriverCall × BenchCounters :=
  let c1 := afterSend issued c
  if c1.totalCnt > c1.replyCnt then
    ([issueCall c, .waitReply], match reply with
      | some lat => recordReply lat c1
      | none => c1)
  else ([issueCall c], c1)

section Counters

variable (issued : Option Nat) (lat : Float) (c : BenchCounters)

@[simp] theorem afterSend_replyCnt : (afterSend issued c).replyCnt = c.replyCnt := rfl
@[simp] theorem afterSend_chunkCnt : (afterSend issued c).chunkCnt = c.chunkCnt := rfl
@[simp] theorem afterSend_chunkLats : (afterSend issued c).chunkLats = c.chunkLats := rfl
@[simp] theorem afterSend_retrying : (afterSend issued c).retrying = issued.isNone := rfl
@[simp] theorem afterSend_slowdown : (afterSend issued c).slowdown = c.slowdown := rfl

theorem afterSend_totalCnt :
    (afterSend issued c).totalCnt = if issued.isNone then c.totalCnt else c.totalCnt + 1 := rfl

theorem le_afterSend_totalCnt : c.totalCnt ≤ (afterSend issued c).totalCnt := by
  rw [afterSend_totalCnt]
  split <;> omega

@[simp] theorem recordReply_totalCnt : (recordReply lat c).totalCnt = c.totalCnt := rfl
@[simp] theorem recordReply_replyCnt : (recordReply lat c).replyCnt = c.replyCnt + 1 := rfl
@[simp] theorem recordReply_slowdown : (recordReply lat c).slowdown = c.slowdown := rfl

theorem recordReply_chunk (h : c.chunkCnt = c.chunkLats.length) :
    (recordReply lat c).chunkCnt = (recordReply lat c).chunkLats.length := by
  simp [recordReply, h]

end Counters

/-- What `tokio::select!` of `open_loop_iter` picks: a reply from
`wait_reply`, or a tick of the ticker. -/
inductive OpenLoopEvent where
  | reply (lat : Option Float)
  | tick (issued : Option Nat)

/-- `open_loop_iter`; `none` when the event cannot be picked, a tick while
the ticker is paused (`if !*slowdown`).
mirrors src/summerset_client/src/clients/bench.rs:171-218 -/
def openLoopIter (ev : OpenLoopEvent) (c : BenchCounters) : Option (List DriverCall × BenchCounters) :=
  match ev with
  | .reply none => some ([.waitReply], c)
  | .reply (some lat) => some ([.waitReply], { recordReply lat c with slowdown := false })
  | .tick issued =>
    if c.slowdown then none
    else
      some ([issueCall c], { afterSend issued c with
        slowdown := issued.isNone && decide (c.totalCnt > c.replyCnt) })

/-- The statistics line of a chunk printed `printElapsed` seconds after the
last: throughput, and mean latency (0 for a chunk without replies); then the
chunk is cleared.
mirrors src/summerset_client/src/clients/bench.rs:278-296 -/
def printStats (printElapsed : Float) (c : BenchCounters) : (Float × Float) × BenchCounters :=
  ((c.chunkCnt.toFloat / printElapsed,
    if c.chunkLats.isEmpty then 0.0 else c.chunkLats.foldl (· + ·) 0.0 / c.chunkLats.length.toFloat),
   { c with chunkCnt := 0, chunkLats := [] })

/-- One step of `run`'s loop (lines 250-297): an iteration of the closed loop
when `freq_target` is 0, else of the open loop, or the printing of a chunk.
The driver answers a reply only for a request it sent: a reply of the open
loop comes while `total_cnt > reply_cnt` (the closed loop checks it itself). -/
inductive BenchStep (closedLoop : Bool) : BenchCounters → BenchCounters → Prop
  | closedIter {c : BenchCounters} (issued : Option Nat) (reply : Option Float) :
      closedLoop = true → BenchStep closedLoop c (closedLoopIter issued reply c).2
  | openIter {c c' : BenchCounters} {ev : OpenLoopEvent} {calls : List DriverCall} :
      closedLoop = false → (∀ lat, ev = .reply (some lat) → c.replyCnt < c.totalCnt) →
      openLoopIter ev c = some (calls, c') → BenchStep closedLoop c c'
  | print {c : BenchCounters} (printElapsed : Float) :
      BenchStep closedLoop c (printStats printElapsed c).2

/-- The loop's invariant. -/
structure BenchInv (closedLoop : Bool) (c : BenchCounters) : Prop where
  chunk : c.chunkCnt = c.chunkLats.length
  replies : c.replyCnt ≤ c.totalCnt
  closed_noSlowdown : closedLoop = true → c.slowdown = false
  slowdown_pending : c.slowdown = true → c.retrying = true ∧ c.replyCnt < c.totalCnt

theorem benchInv_init (closedLoop : Bool) : BenchInv closedLoop BenchCounters.init :=
  ⟨rfl, le_refl 0, fun _ => rfl, nofun⟩

variable {closedLoop : Bool}

theorem benchInv_closedLoopIter {c : BenchCounters} (hi : BenchInv closedLoop c)
    (hcl : closedLoop = true) (issued : Option Nat) (reply : Option Float) :
    BenchInv closedLoop (closedLoopIter issued reply c).2 := by
  obtain ⟨hchunk, hrep, hclosed, -⟩ := hi
  have hs : c.slowdown = false := hclosed hcl
  have hsend := le_afterSend_totalCnt issued c
  by_cases hgt : (afterSend issued c).totalCnt > (afterSend issued c).replyCnt
  · simp only [closedLoopIter, hgt, ↓reduceIte]
    cases reply with
    | none => exact ⟨hchunk, by simp; omega, fun _ => hs, by simp [hs]⟩
    | some lat =>
      exact ⟨recordReply_chunk lat _ hchunk, by simp at hgt ⊢; omega, fun _ => hs, by simp [hs]⟩
  · simp only [closedLoopIter, hgt, ↓reduceIte]
    exact ⟨hchunk, by simp; omega, fun _ => hs, by simp [hs]⟩

theorem benchInv_openLoopIter {c c' : BenchCounters} {ev : OpenLoopEvent}
    {calls : List DriverCall} (hi : BenchInv closedLoop c) (hclosed : closedLoop = false)
    (hreply : ∀ lat, ev = .reply (some lat) → c.replyCnt < c.totalCnt)
    (h : openLoopIter ev c = some (calls, c')) : BenchInv closedLoop c' := by
  obtain ⟨hchunk, hrep, -, hslow⟩ := hi
  have hopen : closedLoop = true → c'.slowdown = false := by simp [hclosed]
  cases ev with
  | reply r =>
    cases r with
    | none =>
      simp only [openLoopIter, Option.some.injEq, Prod.mk.injEq] at h
      obtain ⟨-, rfl⟩ := h
      exact ⟨hchunk, hrep, hopen, hslow⟩
    | some lat =>
      simp only [openLoopIter, Option.some.injEq, Prod.mk.injEq] at h
      obtain ⟨-, rfl⟩ := h
      have hpending := hreply lat rfl
      have hrep' : c.replyCnt + 1 ≤ c.totalCnt := hpending
      exact ⟨recordReply_chunk lat c hchunk, hrep', hopen, nofun⟩
  | tick issued =>
    have hsend := le_afterSend_totalCnt issued c
    simp only [openLoopIter] at h
    split at h
    · cases h
    · simp only [Option.some.injEq, Prod.mk.injEq] at h
      obtain ⟨-, rfl⟩ := h
      refine ⟨hchunk, by simp only [afterSend_replyCnt]; omega, hopen, fun hs => ?_⟩
      simp only [Bool.and_eq_true, decide_eq_true_eq] at hs
      simp [hs.1, afterSend_totalCnt, hs.2]

theorem benchInv_printStats {c : BenchCounters} (hi : BenchInv closedLoop c) (printElapsed : Float) :
    BenchInv closedLoop (printStats printElapsed c).2 :=
  ⟨rfl, hi.replies, hi.closed_noSlowdown, hi.slowdown_pending⟩

theorem benchInv_step {c c' : BenchCounters} (hi : BenchInv closedLoop c)
    (h : BenchStep closedLoop c c') : BenchInv closedLoop c' := by
  cases h with
  | closedIter issued reply hcl => exact benchInv_closedLoopIter hi hcl issued reply
  | openIter hclosed hreply hev => exact benchInv_openLoopIter hi hclosed hreply hev
  | print printElapsed => exact benchInv_printStats hi printElapsed

/-- Over every run of `run`'s loop, `chunk_cnt` counts the chunk's latencies,
no more replies than requests sent are counted, and the open loop's ticker is
paused only after a send that did not go out, while a reply is outstanding. -/
theorem benchInv_run {c : BenchCounters}
    (h : Relation.ReflTransGen (BenchStep closedLoop) BenchCounters.init c) :
    c.chunkCnt = c.chunkLats.length ∧ c.replyCnt ≤ c.totalCnt ∧
      (closedLoop = true → c.slowdown = false) ∧
      (c.slowdown = true → c.retrying = true ∧ c.replyCnt < c.totalCnt) := by
  have hi : BenchInv closedLoop c := by
    induction h with
    | refl => exact benchInv_init closedLoop
    | tail _ hstep ih => exact benchInv_step ih hstep
  exact ⟨hi.chunk, hi.replies, hi.closed_noSlowdown, hi.slowdown_pending⟩

/-- The closed loop's first iteration: the request goes out, and its reply
comes back a millisecond later. -/
def oneReply : BenchCounters := (closedLoopIter (some 0) (some 0.001) BenchCounters.init).2

theorem benchInv_run_oneReply :
    Relation.ReflTransGen (BenchStep true) BenchCounters.init oneReply ∧
      oneReply.chunkCnt = oneReply.chunkLats.length ∧ oneReply.replyCnt ≤ oneReply.totalCnt ∧
      (true = true → oneReply.slowdown = false) ∧
      (oneReply.slowdown = true → oneReply.retrying = true ∧ oneReply.replyCnt < oneReply.totalCnt) :=
  have h : Relation.ReflTransGen (BenchStep true) BenchCounters.init oneReply :=
    .single (.closedIter (some 0) (some 0.001) rfl)
  ⟨h, benchInv_run h⟩

end Summerset.Client
