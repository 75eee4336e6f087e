import MappedStorage.Locking.Table
import MappedStorage.Store.Basic
import MappedStorage.Store.SharedIndex

/-!
Files as a provider hands them out: a page store with locks, and for a database also its shared
index. What all files of a provider share (`Shared`) is passed in and handed back by each
operation, which is one step: no two overlap. Closing a file lets go of its locks, its index and its
store, whatever fails.
-/

namespace MappedStorage

/-- What the files of a provider share: locks, open regions, and the platform. -/
structure Shared where
  locks : LockTable := {}
  regions : RegionTable := ∅
  platform : Platform

/-- A file opened through a provider. -/
structure OpenFile where
  kind : FileKind
  store : Store
  /-- The shared index, which only a database has. -/
  index : Option SharedIndex
  client : LockClient
  sectorSize : Nat
  deriving DecidableEq

namespace OpenFile

def path (f : OpenFile) : Path := f.store.path

/-! ## Bytes -/

/-- Fills a buffer with the bytes at an offset. -/
def readInto (f : OpenFile) (offset : Nat) (buffer : Bytes) (s : Shared) :
    Except ProviderError Unit × Bytes :=
  f.store.readInto offset buffer s.regions s.platform

/-- Writes bytes at an offset. -/
def write (f : OpenFile) (offset : Nat) (data : Bytes) (s : Shared) :
    Except ProviderError Unit × OpenFile × Shared :=
  let (result, store, regions, platform) := f.store.write offset data s.regions s.platform
  (result, { f with store }, { s with regions, platform })

/-- Makes the file durable. How strong a sync is asked for makes no difference. -/
def sync (f : OpenFile) (_flags : SyncFlags) (s : Shared) :
    Except ProviderError Unit × OpenFile × Shared :=
  let (result, store, platform) := f.store.sync s.regions s.platform
  (result, { f with store }, { s with platform })

/-- The size of the file, as long as it is open. -/
def fileSize (f : OpenFile) (s : Shared) : Except ProviderError Nat :=
  if f.store.closed then .error .closed else .ok (f.store.fileSize s.regions)

/-- The bytes at an offset, if all of them are within the file. -/
def fetch? (f : OpenFile) (offset len : Nat) (s : Shared) : Option Bytes :=
  f.store.fetch? offset len s.regions s.platform

/-! ## Locks -/

def lock (f : OpenFile) (level : LockLevel) (s : Shared) :
    Except ProviderError Unit × OpenFile × Shared :=
  let (result, client, locks) := f.client.lock level s.locks
  (result, { f with client }, { s with locks })

def unlock (f : OpenFile) (level : LockLevel) (s : Shared) : OpenFile × Shared :=
  let (client, locks) := f.client.unlock level s.locks
  ({ f with client }, { s with locks })

def isReserved (f : OpenFile) (s : Shared) : Bool := f.client.isReserved s.locks

def lockSlots (f : OpenFile) (offset n : Nat) (op : SlotLockOp) (s : Shared) :
    Except ProviderError Unit × OpenFile × Shared :=
  let (result, client, locks) := f.client.lockSlots offset n op s.locks
  (result, { f with client }, { s with locks })

/-! ## The shared index -/

/-- Maps a slot of the shared index. -/
def requestSlot (f : OpenFile) (index slotSize : Nat) (extend : Bool) (s : Shared) :
    Except ProviderError (Option Slot) × OpenFile × Shared :=
  match f.index with
  | none => (.error (.unsupported .indexOfOtherFiles), f, s)
  | some x =>
    let (result, x, platform) := x.requestSlot index slotSize extend s.platform
    (result, { f with index := some x }, { s with platform })

/-- The words of a slot, if it is mapped. -/
def wordsOf? (f : OpenFile) (slot : Slot) : Option WordView := f.index.bind (·.wordsOf? slot)

/-- The bytes of a slot, if it is mapped. -/
def readSlot? (f : OpenFile) (slot : Slot) (s : Shared) : Option Bytes :=
  f.index.bind (·.readSlot? slot s.platform)

/-- Makes the shared index durable as far as possible; a failure is not reported. -/
def barrier (f : OpenFile) (s : Shared) : Shared :=
  match f.index with
  | none => s
  | some x => { s with platform := (x.barrier s.platform).2 }

/-- Unmaps the shared index, and removes its file if `delete` says so. -/
def unmapIndex (f : OpenFile) (delete : Bool) (s : Shared) :
    Except ProviderError Unit × OpenFile × Shared :=
  match f.index with
  | none => (.ok (), f, s)
  | some x =>
    let (result, x, platform) := x.unmap delete s.platform
    (result, { f with index := some x }, { s with platform })

/-! ## Closing -/

/-- Closes the page store. -/
def closeStore (f : OpenFile) (s : Shared) : Except ProviderError Unit × OpenFile × Shared :=
  let (result, store, regions, platform) := f.store.close s.regions s.platform
  (result, { f with store }, { s with regions, platform })

/-- Lets go of every lock. -/
def releaseLocks (f : OpenFile) (s : Shared) : OpenFile × Shared :=
  let (client, locks) := f.client.release s.locks
  ({ f with client }, { s with locks })

/-- Closes the file. The failure of the store is reported before that of the index. Closing again
does nothing. -/
def close (f : OpenFile) (s : Shared) : Except ProviderError Unit × OpenFile × Shared :=
  if f.store.closed then (.ok (), f, s)
  else
    let (f, s) := f.releaseLocks s
    let (unmapped, f, s) := f.unmapIndex false s
    let (closed, f, s) := f.closeStore s
    match closed with
    | .error e => (.error e, f, s)
    | .ok () => (unmapped, f, s)

/-- Gives the file up: it is closed, and locks taken since then are let go. -/
def drop (f : OpenFile) (s : Shared) : Shared :=
  let (_, f, s) := f.close s
  let s := (f.releaseLocks s).2
  match f.index with
  | none => s
  | some x => { s with platform := (x.unmap false s.platform).2.2 }

end OpenFile
end MappedStorage
