import MappedStorage.Provider.Error

/-!
The shared index of a database: a file mapped in slots. The first slot mapped fixes the size of
all, the index grows by whole slots, and a slot is handed out as a reference that is looked up
when it is used. The file is never trimmed, since other handles may map it too.
-/

namespace MappedStorage

/-- A slot that was mapped. -/
structure Slot where
  index : Nat
  offset : Nat
  len : Nat
  deriving DecidableEq

/-- The bytes of a slot. -/
def Slot.span (s : Slot) : Span := ⟨s.offset, s.offset + s.len⟩

/-- How far a shared index has come. -/
inductive IndexState where
  | unallocated
  | allocated (region : Region) (slotSize : Nat)
  | unmapped
  deriving DecidableEq

/-- The shared index of one handle. -/
structure SharedIndex where
  path : Path
  setup : RegionSetup
  /-- The capacity that an empty index is given. -/
  baseSize : Nat
  state : IndexState
  deriving DecidableEq

namespace SharedIndex

/-- An index of which nothing is mapped. -/
def new (path : Path) (setup : RegionSetup) (baseSize : Nat) : SharedIndex :=
  { path, setup := { setup with trimOnClose := false }, baseSize, state := .unallocated }

def region? (x : SharedIndex) : Option Region :=
  match x.state with
  | .allocated region _ => some region
  | _ => none

/-- The size of the slots, once one is mapped. -/
def slotSize? (x : SharedIndex) : Option Nat :=
  match x.state with
  | .allocated _ slotSize => some slotSize
  | _ => none

def capacity (x : SharedIndex) : Nat :=
  match x.region? with
  | some region => region.capacity
  | none => 0

def medium? (x : SharedIndex) : Option Medium := x.region?.map (·.medium)

/-- Opens the region of the index, with slots as its granules. -/
def establish (x : SharedIndex) (slotSize : Nat) (p : Platform) :
    Except ProviderError Region × Platform :=
  match x.setup.growth.inGranulesOf slotSize with
  | .error e => (.error (.outOfMemory (.capacity e)), p)
  | .ok growth =>
    match Region.open x.path { x.setup with initialCapacity := x.baseSize, growth } p with
    | (.error e, p) => (.error (.ofRegion .indexOpening e), p)
    | (.ok region, p) => (.ok region, p)

/-- Maps a slot of an index that is allocated, growing it if `extend` says so. -/
def mapIn (x : SharedIndex) (region : Region) (index slotSize required : Nat) (extend : Bool)
    (p : Platform) : Except ProviderError (Option Slot) × SharedIndex × Platform :=
  let slot : Slot := ⟨index, required - slotSize, slotSize⟩
  if required ≤ region.capacity then
    (.ok (some slot), { x with state := .allocated (region.countUsed required) slotSize }, p)
  else if extend then
    match region.reserve required p with
    | (.error e, region, p) =>
      (.error (.ofRegion .indexMapping e), { x with state := .allocated region slotSize }, p)
    | (.ok (), region, p) =>
      (.ok (some slot), { x with state := .allocated (region.countUsed required) slotSize }, p)
  else (.ok none, { x with state := .allocated region slotSize }, p)

/-- The bytes up to the end of a slot, if they can be counted. -/
def required? (index slotSize : Nat) : Option Nat :=
  (Word.add? index 1).bind (Word.mul? · slotSize)

/-- Maps a slot. Without `extend` nothing is allocated and nothing grows, and a slot that is not
there is no error. -/
def requestSlot (x : SharedIndex) (index slotSize : Nat) (extend : Bool) (p : Platform) :
    Except ProviderError (Option Slot) × SharedIndex × Platform :=
  if slotSize = 0 ∨ slotSize % Region.wordSize ≠ 0 then (.error (.slotAlignment slotSize), x, p)
  else match x.state with
    | .allocated region established =>
      if established ≠ slotSize then (.error (.slotSize slotSize established), x, p)
      else match required? index slotSize with
        | none => (.error (.outOfMemory (.capacity (.overflow Word.max))), x, p)
        | some required => x.mapIn region index slotSize required extend p
    | _ =>
      match required? index slotSize with
      | none => (.error (.outOfMemory (.capacity (.overflow Word.max))), x, p)
      | some required =>
        if extend then
          match x.establish slotSize p with
          | (.error e, p) => (.error e, x, p)
          | (.ok region, p) => x.mapIn region index slotSize required extend p
        else (.ok none, x, p)

/-- The words of a slot, if it is mapped. -/
def wordsOf? (x : SharedIndex) (s : Slot) : Option WordView :=
  x.region?.bind (·.words? s.span)

/-- The bytes of a slot, if it is mapped. -/
def readSlot? (x : SharedIndex) (s : Slot) (p : Platform) : Option Bytes :=
  x.region?.bind (·.bytes? s.span p)

/-- Stores one byte all over a slot, if it is mapped, and tells how often. -/
def fillSlot? (x : SharedIndex) (s : Slot) (byte : UInt8) (p : Platform) :
    Option (Nat × Platform) :=
  match x.region? with
  | none => none
  | some region =>
    (region.poke? s.offset (Array.replicate s.len byte) p).map fun p => (s.len, p)

/-- Makes the whole index durable. -/
def barrier (x : SharedIndex) (p : Platform) : Except ProviderError Unit × Platform :=
  match x.region? with
  | none => (.ok (), p)
  | some region =>
    match region.flushWhole p with
    | (.ok (), p) => (.ok (), p)
    | (.error e, p) => (.error (.ofRegion .indexMapping e), p)

/-- Removes the file of the index. A file that is gone already is no error. -/
def deleteFile (x : SharedIndex) (p : Platform) : Except ProviderError Unit × Platform :=
  match p.files.unlink x.path with
  | .ok files => (.ok (), { p with files })
  | .error e =>
    if e = .os Errno.noEntry then (.ok (), p) else (.error (.io .deleting x.path e), p)

/-- Unmaps the index, and removes its file if `delete` says so. An index that is not allocated
stays as it is, file and all. -/
def unmap (x : SharedIndex) (delete : Bool) (p : Platform) :
    Except ProviderError Unit × SharedIndex × Platform :=
  match x.state with
  | .allocated region _ =>
    let x := { x with state := .unmapped }
    let (closed, _, p) := region.close p
    let closed : Except ProviderError Unit := match closed with
      | .ok () => .ok ()
      | .error e => .error (.ofRegion .indexUnmapping e)
    if delete then
      match x.deleteFile p with
      | (.error e, p) => (.error e, x, p)
      | (.ok (), p) => (closed, x, p)
    else (closed, x, p)
  | _ => (.ok (), x, p)

end SharedIndex
end MappedStorage
