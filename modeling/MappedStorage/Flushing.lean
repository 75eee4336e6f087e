/-!
When written bytes are made durable, and how. The role of a file says when: a log is flushed
after each write, data when it is synced. The medium of the mapping says how: persistent memory
by writing back cache lines, an emulation of it through the page cache.
-/

namespace MappedStorage

/-- What stands behind a mapping. -/
inductive Medium where
  /-- Persistent memory: bytes are durable once their cache lines are written back. -/
  | persistent
  /-- An ordinary file: bytes are durable once the page cache is synced. -/
  | emulated
  deriving DecidableEq

/-- The use of a file, which decides when it is flushed. -/
inductive Role where
  /-- Flushed when it is synced. -/
  | data
  /-- Flushed after each write. -/
  | log
  deriving DecidableEq

/-- The name of a medium. -/
def Medium.name : Medium → String
  | .persistent => "Persistent"
  | .emulated => "Emulated"

/-- The name of a role. -/
def Role.name : Role → String
  | .data => "Data"
  | .log => "Log"

/-- The bytes from `start` up to and without `stop`; empty if `stop ≤ start`. -/
structure Span where
  start : Nat
  stop : Nat
  deriving DecidableEq

/-- Bytes to make durable, with the primitive of a medium. -/
structure Flush where
  medium : Medium
  span : Span
  deriving DecidableEq

/-- When a file of a role on a medium is flushed. -/
structure FlushRule where
  medium : Medium
  role : Role
  deriving DecidableEq

namespace FlushRule

/-- The flush of some bytes with the primitive of the medium. -/
def flush (p : FlushRule) (span : Span) : Flush := ⟨p.medium, span⟩

/-- The flush that follows a write: a log flushes what was written. -/
def dueOnWrite (p : FlushRule) (written : Span) : Option Flush :=
  match p.role with
  | .log => some (p.flush written)
  | .data => none

/-- The flush that a sync asks for: data flushes all used bytes. -/
def dueOnSync (p : FlushRule) (used : Nat) : Option Flush :=
  match p.role with
  | .log => none
  | .data => some (p.flush ⟨0, used⟩)

end FlushRule
end MappedStorage
