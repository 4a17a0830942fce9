/-!
# Protocol names on the command line (`protocols/mod.rs`)

The server and the client take the protocol as `--protocol <name>`.
`SmrProtocol::parse_name` (lines 63-75) reads the name, and `Display`
(lines 200-204) writes a protocol with its derived `Debug` form, the
variant's identifier.

The names form a small data format, and `parseName_eq_some_iff` is its round
trip: `parse_name` accepts exactly the names `Display` writes
(`display_of_parseName`), and reads each back to its protocol
(`parseName_display`).
-/

namespace Summerset.Protocols

/-- `SmrProtocol`.
mirrors src/src/protocols/mod.rs:41-51 -/
inductive SmrProtocol where
  | repNothing
  | simplePush
  | chainRep
  | multiPaxos
  | raft
  | rsPaxos
  | cRaft
  deriving DecidableEq, Repr

namespace SmrProtocol

/-- `parse_name`: the protocol a command-line name stands for.
mirrors src/src/protocols/mod.rs:63-75 -/
def parseName : String → Option SmrProtocol
  | "RepNothing" => some .repNothing
  | "SimplePush" => some .simplePush
  | "ChainRep" => some .chainRep
  | "MultiPaxos" => some .multiPaxos
  | "Raft" => some .raft
  | "RSPaxos" => some .rsPaxos
  | "CRaft" => some .cRaft
  | _ => none

/-- `Display`: `write!(f, "{:?}", self)`, the derived `Debug` form, which is
the variant's identifier.
mirrors src/src/protocols/mod.rs:200-204 -/
def display : SmrProtocol → String
  | .repNothing => "RepNothing"
  | .simplePush => "SimplePush"
  | .chainRep => "ChainRep"
  | .multiPaxos => "MultiPaxos"
  | .raft => "Raft"
  | .rsPaxos => "RSPaxos"
  | .cRaft => "CRaft"

theorem parseName_display (p : SmrProtocol) : parseName p.display = some p := by
  cases p <;> rfl

theorem display_of_parseName {name : String} {p : SmrProtocol} (h : parseName name = some p) :
    p.display = name := by
  unfold parseName at h
  split at h <;> cases h <;> rfl

/-- A name parses to `p` exactly when it is the name `Display` writes for `p`. -/
theorem parseName_eq_some_iff {name : String} {p : SmrProtocol} :
    parseName name = some p ↔ p.display = name :=
  ⟨display_of_parseName, fun h => h ▸ parseName_display p⟩

/-- The name of `parse_invalid_name` (line 231) is refused. -/
example : parseName "InvalidProtocol" = none := rfl

end SmrProtocol

end Summerset.Protocols
