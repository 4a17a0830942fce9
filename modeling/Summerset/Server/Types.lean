import Mathlib.Data.Finset.Basic

/-!
# Types shared by the replicas (`server`, `client`)

The declarations of `crate::server` and `crate::client` that the modelled
handlers use. They are not under `src/`; their shape follows the spec (§3, §6)
and the way `leadership.rs`, `request.rs` and `execution.rs` use them.

Integers are `Nat`; terms, request ids and slots, which proofs compare and
add, are written `Nat` and not under an alias. Arithmetic is as in a build with overflow checks and
debug assertions on: `checkedSub` panics on a `usize` underflow, `debugAssert`
panics when its condition fails. `index` and `mapGet` panic like `v[i]` and
`map[&k]` out of range. A handler returns `Except Fault`: the
`SummersetError` it returns, or a panic.

The hubs a handler sends through (`transport_hub`, `control_hub`,
`external_api`, `storage_hub`) are outside `src/`, and every send of the
modelled handlers is followed by `?`. A handler is modelled by what it
sends, in order; `sendThrough hub` runs that against hubs answering each
send with `hub`, so the first refused send ends the call with the hub's
error (`sendThrough_eq_ok`, `sendThrough_eq_error`).
-/

namespace Summerset

/-- `ReplicaId` (`u8`). -/
abbrev ReplicaId := Nat

/-- `ClientId` (`u64`). mirrors src/src/client/endpoint.rs:12-13 -/
abbrev ClientId := Nat

/-- `u64::MAX`. -/
def u64Max : Nat := 2 ^ 64 - 1

/-- How a handler ends early. -/
inductive Fault where
  /-- An `Err(SummersetError)` with its message. -/
  | error (msg : String)
  /-- A panic with its message. -/
  | panic (msg : String)
  deriving DecidableEq, Repr

/-- `a - b` on `usize`. -/
def checkedSub (a b : Nat) : Except Fault Nat :=
  if b ≤ a then .ok (a - b) else .error (.panic "attempt to subtract with overflow")

/-- `debug_assert!(cond)`. -/
def debugAssert (cond : Bool) (msg : String) : Except Fault Unit :=
  if cond then .ok () else .error (.panic msg)

/-- `v[i]` on a `Vec`. -/
def index {α : Type} (v : List α) (i : Nat) : Except Fault α :=
  match v[i]? with
  | some a => .ok a
  | none => .error (.panic "index out of bounds")

/-- `map[&k]` on a `HashMap`, modelled as a partial function. -/
def mapGet {κ α : Type} (m : κ → Option α) (k : κ) : Except Fault α :=
  match m k with
  | some a => .ok a
  | none => .error (.panic "no entry found for key")

@[simp] theorem pure_eq_ok {ε α : Type} (a : α) : (pure a : Except ε α) = .ok a := rfl

@[simp] theorem throw_eq_error {ε α : Type} (e : ε) : (throw e : Except ε α) = .error e := rfl

@[simp] theorem ok_bind {ε α β : Type} (a : α) (f : α → Except ε β) :
    (Except.ok a >>= f) = f a := rfl

@[simp] theorem error_bind {ε α β : Type} (x : ε) (f : α → Except ε β) :
    (Except.error x >>= f) = Except.error x := rfl

theorem bind_eq_ok {ε α β : Type} {m : Except ε α} {f : α → Except ε β} {b : β} :
    m >>= f = .ok b ↔ ∃ a, m = .ok a ∧ f a = .ok b := by
  cases m <;> simp [bind, Except.bind]

theorem mapM_ok_mem {ε α β : Type} {f : α → Except ε β} :
    ∀ {l : List α} {l' : List β}, l.mapM f = .ok l' → ∀ y ∈ l', ∃ x ∈ l, f x = .ok y
  | [], _, h, y, hy => by cases h; simp at hy
  | a :: l, l', h, y, hy => by
    simp only [List.mapM_cons, bind_eq_ok] at h
    obtain ⟨b, hb, bs, hbs, h⟩ := h
    cases h
    rcases List.mem_cons.mp hy with rfl | hy
    · exact ⟨a, List.mem_cons_self _ _, hb⟩
    · obtain ⟨x, hx, hfx⟩ := mapM_ok_mem hbs y hy
      exact ⟨x, List.mem_cons_of_mem _ hx, hfx⟩

theorem mapM_ok_of_forall {ε α β : Type} {f : α → Except ε β} :
    ∀ {l : List α}, (∀ x ∈ l, ∃ y, f x = .ok y) →
      ∃ l', l.mapM f = .ok l' ∧ List.Forall₂ (fun x y => f x = .ok y) l l'
  | [], _ => ⟨[], rfl, .nil⟩
  | a :: l, h => by
    obtain ⟨b, hb⟩ := h a (List.mem_cons_self _ _)
    obtain ⟨l', hl', hr⟩ := mapM_ok_of_forall fun x hx => h x (List.mem_cons_of_mem _ hx)
    exact ⟨b :: l', by rw [List.mapM_cons, hb, ok_bind, hl']; rfl, .cons hb hr⟩

theorem mapM_eq_map {ε α β : Type} {f : α → Except ε β} {g : α → β} :
    ∀ {l : List α}, (∀ x ∈ l, f x = .ok (g x)) → l.mapM f = .ok (l.map g)
  | [], _ => rfl
  | a :: l, h => by
    rw [List.mapM_cons, h a (List.mem_cons_self _ _), ok_bind,
      mapM_eq_map fun x hx => h x (List.mem_cons_of_mem _ hx)]
    rfl

theorem mapM_eq_error {ε α β : Type} {f : α → Except ε β} :
    ∀ {l : List α} {e : ε}, l.mapM f = .error e → ∃ x ∈ l, f x = .error e
  | [], _, h => by cases h
  | a :: l, e, h => by
    rw [List.mapM_cons] at h
    cases ha : f a with
    | error e' => rw [ha] at h; cases h; exact ⟨a, List.mem_cons_self _ _, ha⟩
    | ok b =>
      rw [ha, ok_bind] at h
      cases hl : l.mapM f with
      | error e' =>
        rw [hl] at h; cases h
        obtain ⟨x, hx, hfx⟩ := mapM_eq_error hl
        exact ⟨x, List.mem_cons_of_mem _ hx, hfx⟩
      | ok bs => rw [hl] at h; cases h

theorem mapM_ok_forall {ε α β : Type} {f : α → Except ε β} :
    ∀ {l : List α} {l' : List β}, l.mapM f = .ok l' → ∀ x ∈ l, ∃ y, f x = .ok y
  | [], _, _, x, hx => absurd hx (List.not_mem_nil x)
  | a :: l, l', h, x, hx => by
    simp only [List.mapM_cons, bind_eq_ok] at h
    obtain ⟨b, hb, bs, hbs, -⟩ := h
    rcases List.mem_cons.mp hx with rfl | hx
    · exact ⟨b, hb⟩
    · exact mapM_ok_forall hbs x hx

theorem mapM_error_of_mem {ε α β : Type} {f : α → Except ε β} {l : List α} {x : α} {e : ε}
    (hx : x ∈ l) (h : f x = .error e) : ∃ e', l.mapM f = .error e' := by
  cases hl : l.mapM f with
  | error e' => exact ⟨e', rfl⟩
  | ok l' =>
    obtain ⟨y, hy⟩ := mapM_ok_forall hl x hx
    rw [h] at hy; cases hy

@[simp] theorem checkedSub_of_le {a b : Nat} (h : b ≤ a) : checkedSub a b = .ok (a - b) := by
  simp [checkedSub, h]

theorem checkedSub_of_lt {a b : Nat} (h : a < b) :
    checkedSub a b = .error (.panic "attempt to subtract with overflow") := by
  simp [checkedSub, Nat.not_le.mpr h]

@[simp] theorem checkedSub_eq_ok {a b r : Nat} : checkedSub a b = .ok r ↔ b ≤ a ∧ a - b = r := by
  unfold checkedSub; split <;> simp [*]

@[simp] theorem debugAssert_eq_ok {cond : Bool} {msg : String} {u : Unit} :
    debugAssert cond msg = .ok u ↔ cond = true := by
  unfold debugAssert; split <;> simp [*]

@[simp] theorem index_eq_ok {α : Type} {v : List α} {i : Nat} {a : α} :
    index v i = .ok a ↔ v[i]? = some a := by
  unfold index; split <;> simp [*]

@[simp] theorem debugAssert_true (msg : String) : debugAssert true msg = .ok () := rfl

@[simp] theorem index_of_lt {α : Type} {v : List α} {i : Nat} (h : i < v.length) :
    index v i = .ok v[i] := by
  simp [index, List.getElem?_eq_getElem h]

@[simp] theorem mapGet_some {κ α : Type} {m : κ → Option α} {k : κ} {a : α} (h : m k = some a) :
    mapGet m k = .ok a := by
  simp [mapGet, h]

/-! ## Sends through the hubs -/

/-- A call that returned `r` run against hubs that answer each of its sends
with `hub`: the sends go out in order, and the first one refused ends the
call with the hub's error. -/
def sendThrough {σ ε : Type} (hub : ε → Except Fault Unit) (r : Except Fault (σ × List ε)) :
    Except Fault (σ × List ε) := do
  let (s, effs) ← r
  effs.forM hub
  pure (s, effs)

theorem forM_cons' {ε : Type} (hub : ε → Except Fault Unit) (e : ε) (effs : List ε) :
    (e :: effs).forM hub = hub e >>= fun _ => effs.forM hub := rfl

theorem forM_eq_ok {ε : Type} {hub : ε → Except Fault Unit} :
    ∀ {effs : List ε}, effs.forM hub = .ok () ↔ ∀ e ∈ effs, hub e = .ok ()
  | [] => by simp
  | e :: effs => by
    rw [forM_cons']
    cases h : hub e <;> simp [h, forM_eq_ok]

theorem forM_eq_error {ε : Type} {hub : ε → Except Fault Unit} {f : Fault} :
    ∀ {effs : List ε}, effs.forM hub = .error f → ∃ e ∈ effs, hub e = .error f
  | [], h => by cases h
  | e :: effs, h => by
    rw [forM_cons'] at h
    cases he : hub e with
    | error f' => rw [he] at h; cases h; exact ⟨e, List.mem_cons_self _ _, he⟩
    | ok u =>
      rw [he, ok_bind] at h
      obtain ⟨e', he', h'⟩ := forM_eq_error h
      exact ⟨e', List.mem_cons_of_mem _ he', h'⟩

theorem sendThrough_ok_eq {σ ε : Type} (hub : ε → Except Fault Unit) (s : σ) (effs : List ε) :
    sendThrough hub (.ok (s, effs)) = effs.forM hub >>= fun _ => .ok (s, effs) := rfl

/-- Through the hubs a call returns exactly what it returned alone, once
every send it made is accepted. -/
theorem sendThrough_eq_ok {σ ε : Type} {hub : ε → Except Fault Unit}
    {r : Except Fault (σ × List ε)} {x : σ × List ε} :
    sendThrough hub r = .ok x ↔ r = .ok x ∧ ∀ e ∈ x.2, hub e = .ok () := by
  rcases r with f | ⟨s, effs⟩
  · simp [sendThrough]
  · rw [sendThrough_ok_eq]
    constructor
    · intro h
      obtain ⟨u, hu, h⟩ := bind_eq_ok.mp h
      cases h
      exact ⟨rfl, forM_eq_ok.mp hu⟩
    · rintro ⟨hx, h⟩
      cases hx
      rw [forM_eq_ok.mpr h]
      rfl

/-- A call that returned `x` returns it through the hubs exactly when each
of its sends is accepted. -/
theorem sendThrough_ok_iff {σ ε : Type} {r : Except Fault (σ × List ε)} {x : σ × List ε}
    (h : r = .ok x) (hub : ε → Except Fault Unit) :
    sendThrough hub r = .ok x ↔ ∀ e ∈ x.2, hub e = .ok () := by
  rw [sendThrough_eq_ok, h]
  exact and_iff_right rfl

/-- A call that returned fails through the hubs only with a hub's refusal of
one of its sends. -/
theorem sendThrough_eq_error {σ ε : Type} {hub : ε → Except Fault Unit} {s : σ}
    {effs : List ε} {f : Fault} (h : sendThrough hub (.ok (s, effs)) = .error f) :
    ∃ e ∈ effs, hub e = .error f := by
  rw [sendThrough_ok_eq] at h
  cases h' : effs.forM hub with
  | error f' => rw [h', error_bind] at h; cases h; exact forM_eq_error h'
  | ok u => rw [h', ok_bind] at h; cases h

/-- Every error `m` can end with is a panic. -/
def PanicsOnly {α : Type} (m : Except Fault α) : Prop :=
  ∀ f, m = .error f → ∃ msg, f = .panic msg

namespace PanicsOnly

theorem ok {α : Type} (a : α) : PanicsOnly (.ok a : Except Fault α) := fun _ h => by cases h

theorem bind {α β : Type} {m : Except Fault α} {k : α → Except Fault β} (hm : PanicsOnly m)
    (hk : ∀ a, PanicsOnly (k a)) : PanicsOnly (m >>= k) := fun f h => by
  cases hm' : m with
  | error f' => rw [hm', error_bind] at h; cases h; exact hm _ hm'
  | ok a => rw [hm', ok_bind] at h; exact hk a f h

theorem checkedSub (a b : Nat) : PanicsOnly (Summerset.checkedSub a b) := fun _ h => by
  unfold Summerset.checkedSub at h; split at h <;> cases h; exact ⟨_, rfl⟩

theorem debugAssert (cond : Bool) (msg : String) : PanicsOnly (Summerset.debugAssert cond msg) :=
  fun _ h => by unfold Summerset.debugAssert at h; split at h <;> cases h; exact ⟨_, rfl⟩

theorem index {α : Type} (v : List α) (i : Nat) : PanicsOnly (Summerset.index v i) := fun _ h => by
  unfold Summerset.index at h; split at h <;> cases h; exact ⟨_, rfl⟩

theorem mapGet {κ α : Type} (m : κ → Option α) (k : κ) : PanicsOnly (Summerset.mapGet m k) :=
  fun _ h => by unfold Summerset.mapGet at h; split at h <;> cases h; exact ⟨_, rfl⟩

end PanicsOnly

/-! ## Client requests and replies -/

/-- `Command`: `Get{key}` or `Put{key, value}`. -/
inductive Command where
  | get (key : String)
  | put (key value : String)
  deriving DecidableEq, Repr

/-- `CommandResult`. -/
inductive CommandResult where
  | getResult (value : Option String)
  | putResult (oldValue : Option String)
  deriving DecidableEq, Repr

/-- `ApiRequest`: a client request `Req{id, cmd}`, or the client's `Leave`. -/
inductive ApiRequest where
  | req (id : Nat) (cmd : Command)
  | leave
  deriving DecidableEq, Repr

/-- `ApiReply`: `Reply{id, result, redirect}`, or `LeaveAck`. -/
inductive ApiReply where
  | reply (id : Nat) (result : Option CommandResult) (redirect : Option ReplicaId)
  | leaveAck
  deriving DecidableEq, Repr

/-- `ApiReply::normal(id, result)`: a reply with a result and no redirect. -/
def ApiReply.normal (id : Nat) (result : Option CommandResult) : ApiReply :=
  .reply id result none

/-- `ReqBatch`: client requests with the client each came from. -/
abbrev ReqBatch := List (ClientId × ApiRequest)

/-- `Command::Put{..}`. -/
def Command.isPut : Command → Bool
  | .put _ _ => true
  | _ => false

/-- `Req{cmd: Get{..}, ..}`, the requests the read fast path answers. -/
def ApiRequest.isGet : ApiRequest → Bool
  | .req _ (.get _) => true
  | _ => false

/-! ## Durable log actions -/

/-- `LogActionId` (`u64`). -/
abbrev LogActionId := Nat

/-- `LogAction`, over the protocol's entry type. -/
inductive LogAction (Ent : Type) where
  | append (entry : Ent) (sync : Bool)
  | write (entry : Ent) (offset : Nat) (sync : Bool)
  | read (offset : Nat)
  | truncate (offset : Nat)
  deriving DecidableEq, Repr

/-- `LogResult`, over the protocol's entry type. -/
inductive LogResult (Ent : Type) where
  | append (nowSize : Nat)
  | write (offsetOk : Bool) (nowSize : Nat)
  | read (entry : Option Ent) (endOffset : Nat)
  | truncate (offsetOk : Bool) (nowSize : Nat)
  deriving DecidableEq, Repr

/-- `if let LogResult::Write { offset_ok: true, .. } = result`. -/
def LogResult.isWriteOk {Ent : Type} : LogResult Ent → Bool
  | .write true _ => true
  | _ => false

/-- `CtrlMsg` to the manager; only `LeaderStatus` is sent by the handlers here. -/
inductive CtrlMsg where
  | leaderStatus (stepUp : Bool)
  deriving DecidableEq, Repr

end Summerset
