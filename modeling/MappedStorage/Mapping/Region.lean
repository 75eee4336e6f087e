import MappedStorage.Capacity
import MappedStorage.Mapping.TrackedFile
import MappedStorage.Mapping.Mapper

/-!
A mapped region: a file seen as a growable array of bytes. The used length is what has been
written so far; capacity and file run ahead of it, and closing trims the file to the used length.
Writes grow the region as its growth rule says, mapping the longer file before the old mapping
is taken down, so a growth that fails leaves the region as it was.
-/

namespace MappedStorage

/-- Why an operation on a region failed. -/
inductive RegionError where
  | io (path : Path) (source : IoError)
  /-- The system had no room for a mapping. -/
  | outOfMemory (requested : Nat) (source : MappingError)
  /-- Bytes past the used length were asked for. -/
  | shortRead (offset len used : Nat)
  | closed
  /-- The capacity can not be computed. -/
  | capacity (source : CapacityError)
  deriving DecidableEq

/-- The text shown for a region error. -/
def RegionError.message : RegionError → String
  | .io path source => "i/o error on " ++ path.display ++ ": " ++ source.message
  | .outOfMemory requested source =>
    "can not map " ++ toString requested ++ " bytes: " ++ source.message
  | .shortRead offset len used =>
    "read of " ++ toString len ++ " bytes at offset " ++ toString offset ++
      " beyond the used length " ++ toString used
  | .closed => "the region is closed"
  | .capacity source => source.message

/-- How a region is opened and grown. -/
structure RegionSetup where
  mapper : Mapper := {}
  /-- The capacity that an empty file is given. -/
  initialCapacity : Nat := 8192
  growth : GrowthRule := .doubling
  /-- Closing cuts the file to the used length. -/
  trimOnClose : Bool := true
  deriving DecidableEq

/-- A file mapped into memory. -/
structure Region where
  file : TrackedFile
  mapped : Option Mapping
  /-- How many bytes from the beginning hold data. -/
  used : Nat
  medium : Medium
  setup : RegionSetup
  /-- How often the region has grown. -/
  remaps : Nat
  closed : Bool
  deriving DecidableEq

/-- Some words of a region, each of four bytes. -/
structure WordView where
  mapping : Mapping
  start : Nat
  count : Nat
  deriving DecidableEq

namespace Region

def path (r : Region) : Path := r.file.path

/-- How many bytes are mapped. -/
def capacity (r : Region) : Nat :=
  match r.mapped with
  | some mapping => mapping.len
  | none => 0

/-! ## Opening and growing -/

/-- What a failed mapping of so many bytes means for a region. -/
def mapFailure (path : Path) (capacity : Nat) (e : MappingError) : RegionError :=
  if e.isShortage then .outOfMemory capacity e else .io path e.toIo

/-- Lengthens the file to a capacity and maps it anew. The old mapping is taken down once the
new one is in place. -/
def remap (r : Region) (capacity : Nat) (p : Platform) :
    Except RegionError Unit × Region × Platform :=
  match r.file.growTo capacity p.files with
  | (.error e, file, files) => (.error (.io r.path e), { r with file }, { p with files })
  | (.ok (), file, files) =>
    match r.setup.mapper.map file.handle capacity { p with files } with
    | (.error e, p) => (.error (mapFailure r.path capacity e), { r with file }, p)
    | (.ok (mapping, medium), p) =>
      let p := match r.mapped with
        | some old => (Mapper.unmap old p).2
        | none => p
      (.ok (), { r with file, medium, mapped := some mapping }, p)

/-- Makes the capacity at least so large. -/
def reserve (r : Region) (least : Nat) (p : Platform) :
    Except RegionError Unit × Region × Platform :=
  if r.closed then (.error .closed, r, p)
  else match r.setup.growth.grow r.capacity least with
    | .error e => (.error (.capacity e), r, p)
    | .ok none => (.ok (), r, p)
    | .ok (some growth) =>
      match r.remap growth.capacity p with
      | (.error e, r, p) => (.error e, r, p)
      | (.ok (), r, p) => (.ok (), { r with remaps := r.remaps + 1 }, p)

/-- Cuts the file to the used length if the region is to be trimmed. -/
def trim (r : Region) (p : Platform) : Except RegionError Unit × Region × Platform :=
  if r.setup.trimOnClose then
    match r.file.trimTo r.used p.files with
    | (.ok (), file, files) => (.ok (), { r with file }, { p with files })
    | (.error e, file, files) =>
      (.error (.io r.path e), { r with file }, { p with files })
  else (.ok (), r, p)

/-- Takes the mapping down. -/
def detach (r : Region) (p : Platform) : Except RegionError Unit × Region × Platform :=
  match r.mapped with
  | none => (.ok (), r, p)
  | some mapping =>
    match Mapper.unmap mapping p with
    | (.ok (), p) => (.ok (), { r with mapped := none }, p)
    | (.error e, p) => (.error (.io r.path e.toIo), { r with mapped := none }, p)

/-- Closes the region: the mapping is taken down and the file trimmed, whichever of the two
fails. The failure to take the mapping down is the one reported. Closing again does nothing. -/
def close (r : Region) (p : Platform) : Except RegionError Unit × Region × Platform :=
  if r.closed then (.ok (), r, p)
  else
    let (detached, r, p) := { r with closed := true }.detach p
    let (trimmed, r, p) := r.trim p
    match detached with
    | .error e => (.error e, r, p)
    | .ok () => (trimmed, r, p)

/-- The medium assumed before anything is mapped. -/
def assumedMedium (setup : RegionSetup) : Medium := setup.mapper.plainMedium

/-- Capacity and used length of a region over a file of a length. -/
def initialSizes (setup : RegionSetup) (len : Nat) : Except CapacityError (Nat × Nat) :=
  if 0 < len then (setup.growth.align len).map (·, len)
  else (setup.growth.align setup.initialCapacity).map (·, 0)

/-- Maps a file that is open. If that fails the region is closed again. -/
def ofTrackedFile (file : TrackedFile) (setup : RegionSetup) (p : Platform) :
    Except RegionError Region × Platform :=
  match initialSizes setup file.len with
  | .error e => (.error (.capacity e), p)
  | .ok (capacity, used) =>
    let r : Region :=
      { file, mapped := none, used, medium := assumedMedium setup, setup, remaps := 0
        closed := false }
    if capacity = 0 then (.ok r, p)
    else match r.remap capacity p with
      | (.ok (), r, p) => (.ok r, p)
      | (.error e, r, p) => (.error e, (r.close p).2.2)

/-- Opens a region over the file of a path, making the file where it is missing. -/
def «open» (path : Path) (setup : RegionSetup) (p : Platform) :
    Except RegionError Region × Platform :=
  match TrackedFile.openOrCreate p.files path with
  | (.error e, files) => (.error (.io path e), { p with files })
  | (.ok file, files) => ofTrackedFile file setup { p with files }

/-- Opens a region over an open file, which messages call by a label. -/
def ofHandle (h : Handle) (label : Path) (setup : RegionSetup) (p : Platform) :
    Except RegionError Region × Platform :=
  ofTrackedFile (TrackedFile.ofHandle p.files h label) setup p

/-! ## Bytes -/

/-- The mapped bytes of a range, if all of it is mapped. -/
def bytes? (r : Region) (span : Span) (p : Platform) : Option Bytes :=
  if span.start ≤ span.stop ∧ span.stop ≤ r.capacity then
    match r.mapped with
    | some mapping => some (p.loadBytes mapping span.start (span.stop - span.start))
    | none => some #[]
  else none

/-- The bytes up to the used length. -/
def validBytes (r : Region) (p : Platform) : Bytes :=
  match r.mapped with
  | some mapping => p.loadBytes mapping 0 r.used
  | none => #[]

/-- Stores bytes anywhere in the mapping, if they fit. -/
def poke? (r : Region) (offset : Nat) (data : Bytes) (p : Platform) : Option Platform :=
  if offset + data.size ≤ r.capacity then
    match r.mapped with
    | some mapping => some (p.store mapping offset data)
    | none => some p
  else none

/-- How many of `len` bytes at an offset lie within the used length. -/
def readable (r : Region) (offset len : Nat) : Nat := min len (r.used - offset)

/-- Fills a buffer with the bytes at an offset. Past the used length it gets zeros and the read
falls short, as does an empty read that starts there. -/
def readInto (r : Region) (offset : Nat) (buffer : Bytes) (p : Platform) :
    Except RegionError Unit × Bytes :=
  if r.closed then (.error .closed, buffer)
  else
    let n := r.readable offset buffer.size
    let data := match r.mapped with
      | some mapping => p.loadBytes mapping offset n
      | none => #[]
    let filled := data ++ Array.replicate (buffer.size - data.size) 0
    if n = buffer.size ∧ offset ≤ r.used then (.ok (), filled)
    else (.error (.shortRead offset buffer.size r.used), filled)

/-- Stores bytes that are known to fit. -/
def put (r : Region) (offset : Nat) (data : Bytes) (p : Platform) : Region × Platform :=
  let r := { r with used := max r.used (offset + data.size) }
  match r.mapped with
  | some mapping => (r, p.store mapping offset data)
  | none => (r, p)

/-- Writes bytes at an offset, growing the region where they do not fit. Nothing grows for an
empty write. -/
def write (r : Region) (offset : Nat) (data : Bytes) (p : Platform) :
    Except RegionError Span × Region × Platform :=
  if r.closed then (.error .closed, r, p)
  else match Word.add? offset data.size with
    | none => (.error (.capacity (.overflow Word.max)), r, p)
    | some stop =>
      if data.size = 0 then (.ok ⟨offset, offset⟩, r, p)
      else match r.reserve stop p with
        | (.error e, r, p) => (.error e, r, p)
        | (.ok (), r, p) =>
          let (r, p) := r.put offset data p
          (.ok ⟨offset, stop⟩, r, p)

/-- Counts bytes as used, as far as they are mapped. -/
def countUsed (r : Region) (len : Nat) : Region :=
  { r with used := max r.used (min len r.capacity) }

/-! ## Flushing -/

/-- A range cut to the bytes that are mapped. -/
def clip (r : Region) (span : Span) : Span :=
  let stop := min span.stop r.capacity
  ⟨min span.start stop, stop⟩

/-- Makes the mapped bytes of a range durable. -/
def flush (r : Region) (f : Flush) (p : Platform) : Except RegionError Unit × Platform :=
  match r.mapped with
  | none => (.ok (), p)
  | some mapping =>
    let span := r.clip f.span
    match r.setup.mapper.flush mapping span.start (span.stop - span.start) f.medium p with
    | (.ok (), p) => (.ok (), p)
    | (.error e, p) => (.error (.io r.path e.toIo), p)

/-- Makes all mapped bytes durable. -/
def flushWhole (r : Region) (p : Platform) : Except RegionError Unit × Platform :=
  r.flush ⟨r.medium, ⟨0, r.capacity⟩⟩ p

/-- Writes bytes and makes them durable if a role asks for it on the medium that the region has
before the write. Tells the flush that was made. -/
def writeDurably (r : Region) (role : Role) (offset : Nat) (data : Bytes) (p : Platform) :
    Except RegionError (Option Flush) × Region × Platform :=
  let rule : FlushRule := ⟨r.medium, role⟩
  match r.write offset data p with
  | (.error e, r, p) => (.error e, r, p)
  | (.ok written, r, p) =>
    match rule.dueOnWrite written with
    | none => (.ok none, r, p)
    | some f =>
      match r.flush f p with
      | (.error e, p) => (.error e, r, p)
      | (.ok (), p) => (.ok (some f), r, p)

/-- Makes the used bytes durable if a role asks for it. Tells the flush that was made. -/
def syncDurably (r : Region) (role : Role) (p : Platform) :
    Except RegionError (Option Flush) × Platform :=
  let rule : FlushRule := ⟨r.medium, role⟩
  match rule.dueOnSync r.used with
  | none => (.ok none, p)
  | some f =>
    match r.flush f p with
    | (.error e, p) => (.error e, p)
    | (.ok (), p) => (.ok (some f), p)

/-! ## Words -/

/-- The bytes of a word. -/
def wordSize : Nat := 4

/-- The words of a range, if it is mapped, aligned, and holds whole words. -/
def words? (r : Region) (span : Span) : Option WordView :=
  if span.start ≤ span.stop ∧ span.stop ≤ r.capacity ∧ (span.stop - span.start) % wordSize = 0 then
    match r.mapped with
    | some mapping =>
      if (mapping.address + span.start) % wordSize = 0 then
        some ⟨mapping, span.start, (span.stop - span.start) / wordSize⟩
      else none
    | none => none
  else none

end Region

namespace WordView

/-- The word at an index, lowest byte first. -/
def load (v : WordView) (i : Nat) (p : Platform) : Nat :=
  let place := v.start + i * Region.wordSize
  let byte (i : Nat) := (p.load v.mapping (place + i)).toNat
  byte 0 + byte 1 * 0x100 + byte 2 * 0x10000 + byte 3 * 0x1000000

/-- The bytes of a word, lowest first. -/
def bytesOf (word : Nat) : Bytes :=
  #[UInt8.ofNat word, UInt8.ofNat (word / 0x100), UInt8.ofNat (word / 0x10000),
    UInt8.ofNat (word / 0x1000000)]

/-- Stores a word at an index. -/
def store (v : WordView) (i word : Nat) (p : Platform) : Platform :=
  p.store v.mapping (v.start + i * Region.wordSize) (bytesOf word)

end WordView
end MappedStorage
