import MappedStorage.Flushing

/-!
The flag words of the host engine and what they mean: the kind and mode of an open, the levels
of a file lock, the strength of a sync, and the operations on the lock slots of a shared index.
-/

namespace MappedStorage

/-- What the host engine keeps in a file. -/
inductive FileKind where
  | mainDb
  | mainJournal
  | wal
  | tempDb
  | tempJournal
  | subJournal
  | superJournal
  | transientDb
  deriving DecidableEq

namespace FileKind

/-- Every kind, in the order in which the bits of an open word are looked at. -/
def all : List FileKind :=
  [mainDb, mainJournal, wal, tempDb, tempJournal, subJournal, superJournal, transientDb]

/-- The bit of a kind in an open word. -/
def bit : FileKind → Nat
  | mainDb => 0x100
  | mainJournal => 0x800
  | wal => 0x80000
  | tempDb => 0x200
  | tempJournal => 0x1000
  | subJournal => 0x2000
  | superJournal => 0x4000
  | transientDb => 0x400

/-- The name of a kind. -/
def name : FileKind → String
  | mainDb => "MainDb"
  | mainJournal => "MainJournal"
  | wal => "Wal"
  | tempDb => "TempDb"
  | tempJournal => "TempJournal"
  | subJournal => "SubJournal"
  | superJournal => "SuperJournal"
  | transientDb => "TransientDb"

/-- The kind of a name. -/
def ofName? (name : String) : Option FileKind := all.find? fun kind => kind.name == name

/-- How a file of the kind is flushed; temporary files have no role. -/
def role : FileKind → Option Role
  | wal => some .log
  | mainDb | mainJournal | superJournal => some .data
  | tempDb | tempJournal | subJournal | transientDb => none

def isTransient (kind : FileKind) : Bool := kind.role.isNone

end FileKind

/-- How a file is to be opened. -/
structure OpenFlags where
  kind : FileKind
  readOnly : Bool := false
  create : Bool := true
  exclusive : Bool := false
  deleteOnClose : Bool := false
  deriving DecidableEq

namespace OpenFlags

/-- Some bit of the mask is set in the word. -/
def has (word mask : Nat) : Bool := word &&& mask != 0

/-- The meaning of an open word, if it names a kind. A word that allows writing is not read
only, whatever else it says. -/
def ofWord? (word : Nat) : Option OpenFlags :=
  (FileKind.all.find? fun kind => has word kind.bit).map fun kind =>
    { kind
      readOnly := !has word 2 && has word 1
      create := has word 4
      exclusive := has word 0x10
      deleteOnClose := has word 8 }

/-- The open word of a mode. -/
def toWord (flags : OpenFlags) : Nat :=
  flags.kind.bit + (if flags.readOnly then 1 else 2) + (if flags.create then 4 else 0) +
    (if flags.exclusive then 0x10 else 0) + (if flags.deleteOnClose then 8 else 0)

end OpenFlags

/-- What is asked about a path. -/
inductive AccessCheck where
  | existence
  | readWrite
  | read
  deriving DecidableEq

/-- The name of a question. -/
def AccessCheck.name : AccessCheck → String
  | existence => "Exists"
  | readWrite => "ReadWrite"
  | read => "Read"

def AccessCheck.ofWord? : Int → Option AccessCheck
  | 0 => some existence
  | 1 => some readWrite
  | 2 => some read
  | _ => none

/-- The levels of a file lock, from none to exclusive. -/
inductive LockLevel where
  | none
  | shared
  | reserved
  | pending
  | exclusive
  deriving DecidableEq

namespace LockLevel

/-- The place of a level in the order from none to exclusive. -/
def rank : LockLevel → Nat
  | none => 0
  | shared => 1
  | reserved => 2
  | pending => 3
  | exclusive => 4

/-- The name of a level. -/
def name : LockLevel → String
  | none => "None"
  | shared => "Shared"
  | reserved => "Reserved"
  | pending => "Pending"
  | exclusive => "Exclusive"

instance : LE LockLevel := ⟨fun a b => a.rank ≤ b.rank⟩
instance : LT LockLevel := ⟨fun a b => a.rank < b.rank⟩
instance (a b : LockLevel) : Decidable (a ≤ b) := inferInstanceAs (Decidable (a.rank ≤ b.rank))
instance (a b : LockLevel) : Decidable (a < b) := inferInstanceAs (Decidable (a.rank < b.rank))

/-- The level of a lock word. -/
def ofWord? : Int → Option LockLevel
  | 0 => some none
  | 1 => some shared
  | 2 => some reserved
  | 3 => some pending
  | 4 => some exclusive
  | _ => Option.none

/-- The stronger of two levels. -/
def sup (a b : LockLevel) : LockLevel := if a ≤ b then b else a

theorem le_iff_rank {a b : LockLevel} : a ≤ b ↔ a.rank ≤ b.rank := Iff.rfl
theorem lt_iff_rank {a b : LockLevel} : a < b ↔ a.rank < b.rank := Iff.rfl

end LockLevel

/-- How strong a sync is asked for. -/
structure SyncFlags where
  full : Bool := false
  dataOnly : Bool := false
  deriving DecidableEq

namespace SyncFlags

/-- The meaning of a sync word, of which only the low five bits count. -/
def ofWord (word : Int) : SyncFlags where
  full := word % 16 == 3
  dataOnly := word / 16 % 2 == 1

def toWord (flags : SyncFlags) : Nat :=
  (if flags.full then 3 else 2) + (if flags.dataOnly then 0x10 else 0)

end SyncFlags

/-- What is done to lock slots of a shared index. -/
inductive SlotLockOp where
  | lockShared
  | lockExclusive
  | unlockShared
  | unlockExclusive
  deriving DecidableEq

namespace SlotLockOp

/-- The operation of a word. Its two lowest bits say unlock or lock, the next two shared or
exclusive, and exactly one of each has to be set. -/
def ofWord? (word : Int) : Option SlotLockOp :=
  match word % 4, word / 4 % 4 with
  | 1, 1 => some unlockShared
  | 1, 2 => some unlockExclusive
  | 2, 1 => some lockShared
  | 2, 2 => some lockExclusive
  | _, _ => none

/-- The name of an operation. -/
def name : SlotLockOp → String
  | lockShared => "LockShared"
  | lockExclusive => "LockExclusive"
  | unlockShared => "UnlockShared"
  | unlockExclusive => "UnlockExclusive"

def isRelease : SlotLockOp → Bool
  | unlockShared | unlockExclusive => true
  | lockShared | lockExclusive => false

end SlotLockOp

/-- The lock slots of a shared index. -/
def slotCount : Nat := 8

end MappedStorage
