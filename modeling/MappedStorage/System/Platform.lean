import MappedStorage.System.AddressSpace
import MappedStorage.System.FileSystem

/-!
What a program runs on: the file system and the memory mapped from it. A mapping is a shared
view, so storing through it changes the file, and every other mapping of the file sees it.
Which calls fail is not decided here: `CallPlan` lists outcomes in advance, and `Platform.calls`
records every call made, latest first. Mappings lie where there is room for them. An access past the
last page of a file that was shortened under its mapping would end the program; here it is one to
memory that no file has.
-/

namespace MappedStorage

/-- How a mapping is asked for. -/
inductive Sharing where
  /-- Shared with every other mapping of the file. -/
  | plain
  /-- Shared, and synchronous with persistent memory, or refused. -/
  | synchronous
  deriving DecidableEq

/-- The flag word of a way to map. -/
def Sharing.flags : Sharing → Nat
  | .plain => 0x1
  | .synchronous => 0x80003

/-- A range of memory through which a file is seen from its beginning. -/
structure Mapping where
  address : Nat
  len : Nat
  file : FileId
  sharing : Sharing
  deriving DecidableEq

/-- What became of a request for a mapping. -/
inductive MapOutcome where
  | granted
  | refused (errno : Errno)
  /-- No mapping, although the call did not fail. -/
  | null
  deriving DecidableEq

/-- A call on mappings, with its outcome. -/
inductive Call where
  /-- A request for a mapping, which is in place only if it was granted. -/
  | map (mapping : Mapping) (outcome : MapOutcome)
  | unmap (mapping : Mapping) (failure : Option Errno)
  /-- A flush with the primitive of a medium, from an offset into a mapping. -/
  | flush (medium : Medium) (mapping : Mapping) (offset len : Nat) (failure : Option Errno)
  deriving DecidableEq

/-- Outcomes of calls to come, by the kind of call. Once a list is used up its calls succeed,
except that synchronous mappings are not supported. -/
structure CallPlan where
  plain : List MapOutcome := []
  synchronous : List MapOutcome := []
  unmap : List (Option Errno) := []
  pageSync : List (Option Errno) := []
  persist : List (Option Errno) := []
  /-- The longest mapping granted. -/
  limit : Option Nat := none
  /-- The failure of longer ones. -/
  beyondLimit : Errno := Errno.noMemory
  /-- Syncing pages writes them back, which clears the memory past the end of a file. -/
  writesBack : Bool := true
  deriving DecidableEq

/-- The addresses that a mapping takes. -/
def Mapping.range (m : Mapping) : Span := ⟨m.address, m.address + AddressSpace.roomFor m.len⟩

/-- The file system, the mappings in place, and the calls made and planned. -/
structure Platform where
  files : FileSystem
  /-- The mappings in place, highest first. -/
  live : List Mapping := []
  calls : List Call := []
  plan : CallPlan := {}

namespace Platform

/-- A platform with an empty tree and no failures. -/
def empty : Platform := { files := .empty }

instance : Inhabited Platform := ⟨empty⟩

/-- The planned outcome of a request for a mapping, and the plan that remains. -/
def planned (plan : CallPlan) : Sharing → MapOutcome × CallPlan
  | .plain =>
    match plan.plain with
    | [] => (.granted, plan)
    | o :: rest => (o, { plan with plain := rest })
  | .synchronous =>
    match plan.synchronous with
    | [] => (.refused Errno.notSupported, plan)
    | o :: rest => (o, { plan with synchronous := rest })

/-- The length is more than the plan grants. -/
def exceeds (plan : CallPlan) (len : Nat) : Bool :=
  match plan.limit with
  | some limit => limit < len
  | none => false

/-- What a request for a mapping comes to. Past the plan, the mapping needs room in memory and a
writable file. -/
def decide (plan : CallPlan) (h : Handle) (len : Nat) (room : Option Nat) :
    MapOutcome → MapOutcome
  | .refused errno => .refused errno
  | o =>
    if exceeds plan len then .refused plan.beyondLimit
    else if o = .null then .null
    else if room = none then .refused Errno.noMemory
    else if h.writable then .granted
    else .refused Errno.accessDenied

/-- Adds a mapping to those in place, keeping the order. -/
def enlist (m : Mapping) : List Mapping → List Mapping
  | [] => [m]
  | other :: rest =>
    if other.address ≤ m.address then m :: other :: rest else other :: enlist m rest

/-- Asks for a mapping of a file. -/
def map (p : Platform) (h : Handle) (len : Nat) (sharing : Sharing) :
    Except (Option Errno) Mapping × Platform :=
  let (o, plan) := planned p.plan sharing
  let room := AddressSpace.place len (p.live.map Mapping.range)
  let outcome := decide plan h len room o
  let mapping : Mapping := ⟨room.getD 0, len, h.file, sharing⟩
  let p := { p with plan, calls := .map mapping outcome :: p.calls }
  match outcome with
  | .refused errno => (.error (some errno), p)
  | .null => (.error none, p)
  | .granted => (.ok mapping, { p with live := enlist mapping p.live })

/-- Takes a mapping down, which happens even if the call fails. -/
def unmap (p : Platform) (m : Mapping) : Option Errno × Platform :=
  let (failure, rest) := match p.plan.unmap with
    | [] => (none, [])
    | o :: rest => (o, rest)
  (failure, { p with
    plan := { p.plan with unmap := rest }
    calls := .unmap m failure :: p.calls
    live := p.live.erase m })

/-- The last page of a file is among those of a range. -/
def reachesEnd (file : File) (start stop : Nat) : Bool :=
  let last := file.size / AddressSpace.page * AddressSpace.page
  start < last + AddressSpace.page && last < stop

/-- Makes a range of a mapping durable with the primitive of a medium. If the call succeeds, the
bytes survive a crash. -/
def flush (p : Platform) (medium : Medium) (m : Mapping) (offset len : Nat) :
    Option Errno × Platform :=
  let (failure, plan) := match medium with
    | .persistent =>
      match p.plan.persist with
      | [] => (none, p.plan)
      | o :: rest => (o, { p.plan with persist := rest })
    | .emulated =>
      match p.plan.pageSync with
      | [] => (none, p.plan)
      | o :: rest => (o, { p.plan with pageSync := rest })
  let p := { p with plan, calls := .flush medium m offset len failure :: p.calls }
  match failure with
  | some errno => (some errno, p)
  | none =>
    let file := (p.files.file m.file).settle offset (offset + len)
    let clears := plan.writesBack && medium == .emulated && reachesEnd file offset (offset + len)
    (none, { p with
      files := p.files.setFile m.file (if clears then file.clearPastEnd else file) })

/-- The byte at an offset into a mapping. -/
def load (p : Platform) (m : Mapping) (offset : Nat) : UInt8 :=
  (p.files.file m.file).byte offset

/-- The bytes of a range of a mapping. -/
def loadBytes (p : Platform) (m : Mapping) (offset len : Nat) : Bytes :=
  (p.files.file m.file).slice offset len

/-- Stores bytes through a mapping. -/
def store (p : Platform) (m : Mapping) (offset : Nat) (data : Bytes) : Platform :=
  { p with files := p.files.setFile m.file ((p.files.file m.file).overlay offset data) }

/-- The platform after a crash: no mappings, and of the bytes those that were durable. -/
def crash (p : Platform) : Platform := { p with files := p.files.crash, live := [] }

end Platform
end MappedStorage
