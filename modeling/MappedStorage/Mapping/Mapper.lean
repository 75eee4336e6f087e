import MappedStorage.System.Platform

/-!
Mapping files into memory and flushing them. A mapper knows how the medium is found out and
whether synchronous mappings can be asked for; `Mapper.map` tries a synchronous mapping first
where that settles the question, and `Mapper.flush` picks the primitive of a medium.
-/

namespace MappedStorage

/-- How the medium behind a mapping is determined. -/
inductive Detection where
  /-- Persistent if a synchronous mapping is granted. -/
  | automatic
  | persistent
  | emulated
  deriving DecidableEq

def Detection.name : Detection → String
  | .automatic => "Detect"
  | .persistent => "Persistent"
  | .emulated => "Emulated"

/-- A call on a mapping failed. -/
structure MappingError where
  errno : Errno
  deriving DecidableEq

namespace MappingError

/-- The system had no room for the mapping. -/
def isShortage (e : MappingError) : Bool :=
  e.errno = Errno.noMemory ∨ e.errno = Errno.overflow ∨ e.errno = Errno.tryAgain

def toIo (e : MappingError) : IoError := .os e.errno

/-- The text shown for a failed mapping call. -/
def message (e : MappingError) : String :=
  "mapping call failed with errno " ++ toString e.errno

end MappingError

/-- How files are mapped. -/
structure Mapper where
  detection : Detection := .automatic
  /-- Synchronous mappings can be asked for. -/
  offersSynchronous : Bool := true
  /-- The errors by which a synchronous mapping is refused for want of support. -/
  unsupported : List Errno := [Errno.notSupported, Errno.invalid]
  /-- The size of pages, a power of two. -/
  pageSize : Nat := 4096
  deriving DecidableEq

namespace Mapper

/-- The medium of a plain mapping. -/
def plainMedium (m : Mapper) : Medium :=
  if m.detection = .persistent then .persistent else .emulated

/-- Makes one attempt to map a file. A null result counts as a bad address. -/
def attempt (h : Handle) (len : Nat) (sharing : Sharing) (p : Platform) :
    Except MappingError Mapping × Platform :=
  match p.map h len sharing with
  | (.ok mapping, p) => (.ok mapping, p)
  | (.error (some errno), p) => (.error ⟨errno⟩, p)
  | (.error none, p) => (.error ⟨Errno.badAddress⟩, p)

/-- Maps a file plainly. -/
def mapPlain (m : Mapper) (h : Handle) (len : Nat) (p : Platform) :
    Except MappingError (Mapping × Medium) × Platform :=
  match attempt h len .plain p with
  | (.ok mapping, p) => (.ok (mapping, m.plainMedium), p)
  | (.error e, p) => (.error e, p)

/-- Maps the first `len` bytes of a file and tells their medium. An empty mapping is refused
without a call. -/
def map (m : Mapper) (h : Handle) (len : Nat) (p : Platform) :
    Except MappingError (Mapping × Medium) × Platform :=
  if len = 0 then (.error ⟨Errno.invalid⟩, p)
  else if m.detection = .automatic ∧ m.offersSynchronous then
    match attempt h len .synchronous p with
    | (.ok mapping, p) => (.ok (mapping, .persistent), p)
    | (.error e, p) => if e.errno ∈ m.unsupported then m.mapPlain h len p else (.error e, p)
  else m.mapPlain h len p

/-- Takes a mapping down. -/
def unmap (mapping : Mapping) (p : Platform) : Except MappingError Unit × Platform :=
  match p.unmap mapping with
  | (none, p) => (.ok (), p)
  | (some errno, p) => (.error ⟨errno⟩, p)

/-- How far an offset into a mapping lies past the start of its page. -/
def pageOffset (m : Mapper) (mapping : Mapping) (offset : Nat) : Nat :=
  (mapping.address + offset) % m.pageSize

/-- Makes a range of a mapping durable. Syncing the page cache starts at the page that the range
starts in; an empty range needs no call. -/
def flush (m : Mapper) (mapping : Mapping) (offset len : Nat) (medium : Medium) (p : Platform) :
    Except MappingError Unit × Platform :=
  if len = 0 then (.ok (), p)
  else
    let before := match medium with
      | .persistent => 0
      | .emulated => m.pageOffset mapping offset
    match p.flush medium mapping (offset - before) (len + before) with
    | (none, p) => (.ok (), p)
    | (some errno, p) => (.error ⟨errno⟩, p)

end Mapper
end MappedStorage
