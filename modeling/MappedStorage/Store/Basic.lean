import MappedStorage.Keyed
import MappedStorage.Provider.Error

/-!
Stores: handles on mapped files. All stores of one path share one region, which is opened
with the first of them and closed with the last; the table of open regions counts the stores of
each path. A store flushes as its role and medium ask for, after writes or on sync.
-/

namespace MappedStorage

/-- A region with the number of stores that are open on it. -/
structure HeldRegion where
  region : Region
  stores : Nat
  deriving DecidableEq

/-- The regions that are open, by path. -/
abbrev RegionTable := Keyed Path.Key HeldRegion

/-- The table with the region of a path replaced, its stores staying as they are. -/
def RegionTable.setRegion (t : RegionTable) (key : Path.Key) (region : Region) : RegionTable :=
  t.modify key fun held => { held with region }

/-- How often a store has flushed. -/
structure FlushCounts where
  /-- Flushes that followed a write. -/
  writeFlushes : Nat := 0
  /-- Flushes by sync. -/
  syncFlushes : Nat := 0
  /-- Syncs that had nothing to flush. -/
  noopSyncs : Nat := 0
  deriving DecidableEq

/-- A handle on a mapped file. -/
structure Store where
  path : Path
  /-- The medium that the region had when the store was opened. -/
  medium : Medium
  role : Role
  counts : FlushCounts := {}
  closed : Bool := false
  deriving DecidableEq

namespace Store

/-- A store on a region that is open. -/
def attach (path : Path) (role : Role) (region : Region) : Store :=
  { path, medium := region.medium, role }

/-- Opens a store, on the region of the path if there is one, else on a new region. -/
def «open» (path : Path) (role : Role) (setup : RegionSetup) (t : RegionTable) (p : Platform) :
    Except ProviderError Store × RegionTable × Platform :=
  match t.find? path.key with
  | some held =>
    (.ok (attach path role held.region),
      t.insert path.key { held with stores := held.stores + 1 }, p)
  | none =>
    match Region.open path setup p with
    | (.error e, p) => (.error (.ofRegion .opening e), t, p)
    | (.ok region, p) => (.ok (attach path role region), t.insert path.key ⟨region, 1⟩, p)

/-- The region of a store that is open. -/
def region? (s : Store) (t : RegionTable) : Option Region :=
  if s.closed then none else (t.find? s.path.key).map (·.region)

def capacity (s : Store) (t : RegionTable) : Nat :=
  match s.region? t with
  | some region => region.capacity
  | none => 0

def remaps (s : Store) (t : RegionTable) : Nat :=
  match s.region? t with
  | some region => region.remaps
  | none => 0

/-- The size of the file, which is the used length of its region. -/
def fileSize (s : Store) (t : RegionTable) : Nat :=
  match s.region? t with
  | some region => region.used
  | none => 0

/-- When the store flushes. -/
def rule (s : Store) : FlushRule := ⟨s.medium, s.role⟩

/-- Fills a buffer with the bytes at an offset. -/
def readInto (s : Store) (offset : Nat) (buffer : Bytes) (t : RegionTable) (p : Platform) :
    Except ProviderError Unit × Bytes :=
  match s.region? t with
  | none => (.error .closed, buffer)
  | some region =>
    match region.readInto offset buffer p with
    | (.ok (), buffer) => (.ok (), buffer)
    | (.error e, buffer) => (.error (.ofRegion .reading e), buffer)

/-- Counts a flush after a write. -/
def countWriteFlush (s : Store) : Store :=
  { s with counts := { s.counts with writeFlushes := s.counts.writeFlushes + 1 } }

/-- Counts a flush by sync. -/
def countSyncFlush (s : Store) : Store :=
  { s with counts := { s.counts with syncFlushes := s.counts.syncFlushes + 1 } }

/-- Counts a sync without a flush. -/
def countNoopSync (s : Store) : Store :=
  { s with counts := { s.counts with noopSyncs := s.counts.noopSyncs + 1 } }

/-- Writes bytes at an offset and flushes them if the role asks for it. If only the flush fails,
the bytes are written all the same. -/
def write (s : Store) (offset : Nat) (data : Bytes) (t : RegionTable) (p : Platform) :
    Except ProviderError Unit × Store × RegionTable × Platform :=
  match s.region? t with
  | none => (.error .closed, s, t, p)
  | some region =>
    match region.write offset data p with
    | (.error e, region, p) => (.error (.ofRegion .writing e), s, t.setRegion s.path.key region, p)
    | (.ok written, region, p) =>
      let t := t.setRegion s.path.key region
      match s.rule.dueOnWrite written with
      | none => (.ok (), s, t, p)
      | some flush =>
        match region.flush flush p with
        | (.error e, p) => (.error (.ofRegion .writing e), s, t, p)
        | (.ok (), p) => (.ok (), s.countWriteFlush, t, p)

/-- Makes the file durable, unless its writes already are. -/
def sync (s : Store) (t : RegionTable) (p : Platform) :
    Except ProviderError Unit × Store × Platform :=
  match s.region? t with
  | none => (.error .closed, s, p)
  | some region =>
    match s.rule.dueOnSync region.used with
    | none => (.ok (), s.countNoopSync, p)
    | some flush =>
      match region.flush flush p with
      | (.error e, p) => (.error (.ofRegion .syncing e), s, p)
      | (.ok (), p) => (.ok (), s.countSyncFlush, p)

/-- The bytes at an offset, if all of them are within the file. -/
def fetch? (s : Store) (offset len : Nat) (t : RegionTable) (p : Platform) : Option Bytes :=
  match s.region? t with
  | none => none
  | some region =>
    match Word.add? offset len with
    | none => none
    | some stop => if stop ≤ region.used then region.bytes? ⟨offset, stop⟩ p else none

/-- Files never shrink while they are open, so a request to truncate one is granted and changes
nothing. -/
def truncate (_s : Store) (_size : Nat) : Except ProviderError Unit := .ok ()

/-- Gives up the region of a store. The last store of a path closes it. -/
def release (s : Store) (t : RegionTable) (p : Platform) :
    Except ProviderError Unit × RegionTable × Platform :=
  match t.find? s.path.key with
  | none => (.ok (), t, p)
  | some held =>
    if 1 < held.stores then
      (.ok (), t.insert s.path.key { held with stores := held.stores - 1 }, p)
    else
      let t := t.erase s.path.key
      match held.region.close p with
      | (.ok (), _, p) => (.ok (), t, p)
      | (.error e, _, p) => (.error (.ofRegion .closing e), t, p)

/-- Closes a store. Closing again does nothing. -/
def close (s : Store) (t : RegionTable) (p : Platform) :
    Except ProviderError Unit × Store × RegionTable × Platform :=
  if s.closed then (.ok (), s, t, p)
  else
    let (result, t, p) := s.release t p
    (result, { s with closed := true }, t, p)

/-- Gives the store up, whatever closing it comes to. -/
def drop (s : Store) (st : RegionTable × Platform) : RegionTable × Platform :=
  (s.close st.1 st.2).2.2

end Store
end MappedStorage
