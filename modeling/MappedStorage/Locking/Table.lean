import MappedStorage.Keyed
import MappedStorage.Provider.Error

/-!
Locks between connections of one process. The table keeps, for every path with a lock, how many
readers there are, who has reserved it, who waits for the readers to leave, and who has it alone,
and the holders of the eight lock slots of its shared index. A holder knows its own level and
slots. An entry is made when it is needed and removed as soon as nobody holds anything in it.

Holders are numbered in the order in which they are made. Fewer than `2 ^ 64` are ever made, so a number
fits into a word and none is given out twice. A request for the reserved level takes for granted that the
holder is at the shared level already, and is judged alike where it is not.
-/

namespace MappedStorage

/-- The identity of a lock holder: how many holders were made before it. -/
abbrev Owner := Nat

/-- Who holds a lock slot. -/
structure SlotLocks where
  shared : Nat := 0
  exclusive : Option Owner := none
  deriving DecidableEq

/-- Who holds the locks of a path. -/
structure FileLocks where
  shared : Nat := 0
  reserved : Option Owner := none
  pending : Option Owner := none
  exclusive : Option Owner := none
  slots : Vector SlotLocks slotCount := Vector.replicate slotCount {}
  deriving DecidableEq

/-- The locks of all paths. -/
structure LockTable where
  paths : Keyed Path.Key FileLocks := ∅
  /-- The owner that the next holder becomes. -/
  nextOwner : Owner := 0
  deriving DecidableEq

/-- A holder of locks on a path. -/
structure LockHolder where
  path : Path
  owner : Owner
  level : LockLevel := .none
  sharedSlots : Vector Bool slotCount := Vector.replicate slotCount false
  exclusiveSlots : Vector Bool slotCount := Vector.replicate slotCount false
  deriving DecidableEq

/-- What grants the locks of a file. -/
inductive LockClient where
  /-- Grants everything and remembers nothing. -/
  | none
  | inProcess (holder : LockHolder)
  deriving DecidableEq

namespace SlotLocks

def isFree (s : SlotLocks) : Bool := s.shared == 0 && s.exclusive.isNone

end SlotLocks

namespace FileLocks

/-- Nobody holds anything. -/
def isFree (l : FileLocks) : Bool :=
  l.shared == 0 && l.reserved.isNone && l.pending.isNone && l.exclusive.isNone &&
    l.slots.all SlotLocks.isFree

/-- Somebody but `me` holds it. -/
def heldByOther (holder : Option Owner) (me : Owner) : Bool :=
  match holder with
  | some owner => owner != me
  | none => false

/-- The holder unless it is `me`. -/
def without (holder : Option Owner) (me : Owner) : Option Owner :=
  if holder = some me then none else holder

end FileLocks

namespace LockTable

/-- The entry of a path. -/
def find? (t : LockTable) (key : Path.Key) : Option FileLocks := t.paths.find? key

/-- The locks of a path, which nobody holds where there is no entry. -/
def locks (t : LockTable) (key : Path.Key) : FileLocks := (t.find? key).getD {}

def erase (t : LockTable) (key : Path.Key) : LockTable := { t with paths := t.paths.erase key }

/-- The table with the locks of a path set, an idle entry included. -/
def insert (t : LockTable) (key : Path.Key) (l : FileLocks) : LockTable :=
  { t with paths := t.paths.insert key l }

/-- The table with an entry for a path, made where there is none. -/
def touch (t : LockTable) (key : Path.Key) : LockTable :=
  match t.find? key with
  | some _ => t
  | none => t.insert key {}

/-- The table with the locks of a path set, where an idle entry is removed. -/
def settle (t : LockTable) (key : Path.Key) (l : FileLocks) : LockTable :=
  if l.isFree then t.erase key else t.insert key l

/-- How many paths have an entry. -/
def size (t : LockTable) : Nat := t.paths.size

def isEmpty (t : LockTable) : Bool := t.paths.isEmpty

/-- A new holder on a path. -/
def addHolder (t : LockTable) (path : Path) : LockHolder × LockTable :=
  ({ path, owner := t.nextOwner }, { t with nextOwner := t.nextOwner + 1 })

end LockTable

namespace LockHolder

open FileLocks (heldByOther without)

/-! ## Levels of the file lock -/

/-- Raises the level of a holder. A request for the exclusive level leaves the holder waiting, at
the pending level, if only readers stand in its way. -/
def lock (h : LockHolder) (level : LockLevel) (t : LockTable) :
    Except ProviderError Unit × LockHolder × LockTable :=
  if level ≤ h.level then (.ok (), h, t)
  else
    let key := h.path.key
    let l := t.locks key
    match level with
    | .none => (.ok (), h, t)
    | .shared =>
      if heldByOther l.pending h.owner || heldByOther l.exclusive h.owner then
        (.error .busy, h, t.touch key)
      else (.ok (), { h with level }, t.insert key { l with shared := l.shared + 1 })
    | .reserved =>
      if heldByOther l.reserved h.owner then (.error .busy, h, t.touch key)
      else (.ok (), { h with level }, t.insert key { l with reserved := some h.owner })
    | .pending =>
      if heldByOther l.pending h.owner || heldByOther l.exclusive h.owner then
        (.error .busy, h, t.touch key)
      else (.ok (), { h with level }, t.insert key { l with pending := some h.owner })
    | .exclusive =>
      if heldByOther l.pending h.owner || heldByOther l.exclusive h.owner then
        (.error .busy, h, t.touch key)
      else if 1 < l.shared then
        (.error .busy, { h with level := h.level.sup .pending },
          t.insert key { l with pending := some h.owner })
      else
        (.ok (), { h with level },
          t.insert key { l with pending := some h.owner, exclusive := some h.owner })

/-- Lowers the level of a holder. -/
def unlock (h : LockHolder) (level : LockLevel) (t : LockTable) : LockHolder × LockTable :=
  if h.level ≤ level then (h, t)
  else
    let key := h.path.key
    let l := t.locks key
    let l := if LockLevel.shared < h.level then
        { l with
          reserved := without l.reserved h.owner
          pending := without l.pending h.owner
          exclusive := without l.exclusive h.owner }
      else l
    let l := if level = .none then { l with shared := l.shared - 1 } else l
    ({ h with level }, t.settle key l)

/-- Somebody, perhaps the holder itself, is past the shared level of the path. -/
def isReserved (h : LockHolder) (t : LockTable) : Bool :=
  match t.find? h.path.key with
  | some l => l.reserved.isSome || l.pending.isSome || l.exclusive.isSome
  | none => false

/-! ## Slots of the shared index -/

/-- The slot is one of the `n` from `offset` on. -/
def inRange (offset n i : Nat) : Bool := offset ≤ i && i < offset + n

/-- How often the holder itself counts among the shared holders of a slot. -/
def sharedShare (h : LockHolder) (i : Fin slotCount) : Nat := if h.sharedSlots[i] then 1 else 0

/-- Some slot of a range satisfies a condition. -/
def anySlot (offset n : Nat) (cond : Fin slotCount → Bool) : Bool :=
  (List.finRange slotCount).any fun i => inRange offset n i && cond i

/-- Slots whose values are replaced on a range. -/
def onRange {α : Type} (offset n : Nat) (slots : Vector α slotCount)
    (value : Fin slotCount → α) : Vector α slotCount :=
  Vector.ofFn fun i => if inRange offset n i then value i else slots[i]

/-- The locks of a path once a holder has let go of the slots of a range. -/
def freeSlots (h : LockHolder) (offset n : Nat) (l : FileLocks) : FileLocks :=
  { l with slots := onRange offset n l.slots fun i =>
      let slot := l.slots[i]
      ⟨slot.shared - h.sharedShare i, without slot.exclusive h.owner⟩ }

/-- The holder once it has let go of the slots of a range. -/
def forgetSlots (h : LockHolder) (offset n : Nat) : LockHolder :=
  { h with
    sharedSlots := onRange offset n h.sharedSlots fun _ => false
    exclusiveSlots := onRange offset n h.exclusiveSlots fun _ => false }

/-- Locks or unlocks a range of slots: all of them or, where one is held by another, none. -/
def lockSlots (h : LockHolder) (offset n : Nat) (op : SlotLockOp) (t : LockTable) :
    Except ProviderError Unit × LockHolder × LockTable :=
  if n = 0 ∨ slotCount < offset + n then (.error (.slotRange offset n slotCount), h, t)
  else
    let key := h.path.key
    let l := t.locks key
    match op with
    | .unlockShared | .unlockExclusive =>
      (.ok (), h.forgetSlots offset n, t.settle key (h.freeSlots offset n l))
    | .lockShared =>
      if anySlot offset n fun i => heldByOther l.slots[i].exclusive h.owner then
        (.error .busy, h, t.touch key)
      else
        (.ok (), { h with sharedSlots := onRange offset n h.sharedSlots fun _ => true },
          t.settle key { l with slots := onRange offset n l.slots fun i =>
            let slot := l.slots[i]
            { slot with shared := slot.shared + (1 - h.sharedShare i) } })
    | .lockExclusive =>
      if anySlot offset n fun i => heldByOther l.slots[i].exclusive h.owner ||
          h.sharedShare i < l.slots[i].shared then
        (.error .busy, h, t.touch key)
      else
        (.ok (), { h with exclusiveSlots := onRange offset n h.exclusiveSlots fun _ => true },
          t.settle key { l with slots := onRange offset n l.slots fun i =>
            { l.slots[i] with exclusive := some h.owner } })

/-- Lets go of all slots, if any are held. -/
def unlockAllSlots (h : LockHolder) (t : LockTable) : LockHolder × LockTable :=
  if h.sharedSlots.any id || h.exclusiveSlots.any id then
    let key := h.path.key
    (h.forgetSlots 0 slotCount, t.settle key (h.freeSlots 0 slotCount (t.locks key)))
  else (h, t)

/-- Lets go of everything. -/
def release (h : LockHolder) (t : LockTable) : LockHolder × LockTable :=
  let (h, t) := h.unlockAllSlots t
  h.unlock .none t

end LockHolder

namespace LockClient

/-- The level held, which is none where locks are not kept. -/
def level : LockClient → LockLevel
  | none => .none
  | inProcess h => h.level

def lock (k : LockClient) (level : LockLevel) (t : LockTable) :
    Except ProviderError Unit × LockClient × LockTable :=
  match k with
  | none => (.ok (), none, t)
  | inProcess h =>
    let (result, h, t) := h.lock level t
    (result, inProcess h, t)

def unlock (k : LockClient) (level : LockLevel) (t : LockTable) : LockClient × LockTable :=
  match k with
  | none => (none, t)
  | inProcess h =>
    let (h, t) := h.unlock level t
    (inProcess h, t)

def isReserved (k : LockClient) (t : LockTable) : Bool :=
  match k with
  | none => false
  | inProcess h => h.isReserved t

def lockSlots (k : LockClient) (offset n : Nat) (op : SlotLockOp) (t : LockTable) :
    Except ProviderError Unit × LockClient × LockTable :=
  match k with
  | none => (.ok (), none, t)
  | inProcess h =>
    let (result, h, t) := h.lockSlots offset n op t
    (result, inProcess h, t)

def release (k : LockClient) (t : LockTable) : LockClient × LockTable :=
  match k with
  | none => (none, t)
  | inProcess h =>
    let (h, t) := h.release t
    (inProcess h, t)

end LockClient
end MappedStorage
