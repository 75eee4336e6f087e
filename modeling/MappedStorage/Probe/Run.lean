import MappedStorage.Probe.Command
import MappedStorage.Provider.Basic

/-!
The probe: opens a file through a provider set up from the environment, reports how the file is
mapped, writes and syncs as asked, and prints the first bytes of the file once it is closed.
-/

namespace MappedStorage.Probe

/-- What a run of the probe prints and how it ends. -/
structure Report where
  exitCode : Nat
  stdout : String
  stderr : String
  deriving DecidableEq

/-! ## The dump -/

/-- The bytes of a line of the dump. -/
def lineWidth : Nat := 16

/-- A number in hexadecimal digits, padded with zeros to a width. -/
def hexPadded (width n : Nat) : String :=
  let digits := Nat.toDigits 16 n
  String.ofList (List.replicate (width - digits.length) '0' ++ digits)

/-- How a byte shows as text: printing ASCII characters as they are, all others as a dot. -/
def glyph (b : UInt8) : Char :=
  if 0x20 ≤ b && b ≤ 0x7E then Char.ofNat b.toNat else '.'

/-- A line of the dump: the offset, the bytes in hexadecimal, and the bytes as text. -/
def dumpLine (offset : Nat) (bytes : List UInt8) : String :=
  let hex := " ".intercalate (bytes.map fun b => hexPadded 2 b.toNat)
  let gap := String.ofList (List.replicate (3 * lineWidth - 1 - hex.length) ' ')
  hexPadded 8 offset ++ "  " ++ hex ++ gap ++ "  " ++ String.ofList (bytes.map glyph) ++ "\n"

/-- The lines of some bytes that start at an offset. -/
def dumpLines (offset : Nat) (bytes : List UInt8) : String :=
  match bytes with
  | [] => ""
  | b :: rest =>
    dumpLine offset (b :: rest.take (lineWidth - 1)) ++
      dumpLines (offset + lineWidth) (rest.drop (lineWidth - 1))
termination_by bytes.length
decreasing_by simp only [List.length_drop, List.length_cons]; omega

/-- The first bytes of the file of a path as they are stored. -/
def dump (path : Path) (n : Nat) (files : FileSystem) : Except ProviderError String :=
  match files.openExisting path false with
  | .error e => .error (.io .reading path e)
  | .ok h =>
    if files.length h = 0 then .ok "dump: empty\n"
    else .ok (dumpLines 0 ((files.file h.file).slice 0 (min n (files.length h))).toList)

/-! ## The run -/

/-- The run ends well. -/
def success (stdout : String) : Report := ⟨0, stdout, ""⟩

/-- The run ends with an error. -/
def failure (stdout : String) (e : ProviderError) : Report :=
  ⟨1, stdout, "pm-probe: " ++ e.message ++ " (result code " ++ toString e.code ++ ")\n"⟩

/-- The arguments were misused. -/
def misuse : Report :=
  ⟨2, "", "usage: pm-probe PATH [--kind db|wal] [--write TEXT] [--offset N] [--sync] [--dump N]\n"⟩

/-- How an open file is mapped. -/
def describe (f : OpenFile) (s : Shared) : String :=
  "path: " ++ f.path.display ++ "\nmedium: " ++ f.store.medium.name ++ "\nrole: " ++
    f.store.role.name ++ "\ncapacity: " ++ toString (f.store.capacity s.regions) ++ "\nsize: " ++
    toString (f.store.fileSize s.regions) ++ "\n"

/-- How often a file was flushed. -/
def describeFlushes (f : OpenFile) : String :=
  "flushes: " ++ toString f.store.counts.writeFlushes ++ " after writes, " ++
    toString f.store.counts.syncFlushes ++ " on sync, " ++ toString f.store.counts.noopSyncs ++
    " skipped\n"

/-- Writes what the command asks for and says so. -/
def writePart (c : Command) (f : OpenFile) (s : Shared) :
    Except ProviderError String × OpenFile × Shared :=
  match c.write with
  | none => (.ok "", f, s)
  | some text =>
    let data := (Utf8.encode text).toArray
    match f.write c.offset data s with
    | (.error e, f, s) => (.error e, f, s)
    | (.ok (), f, s) =>
      (.ok ("wrote: " ++ toString data.size ++ " bytes at " ++ toString c.offset ++ "\n"), f, s)

/-- Syncs if the command asks for it. -/
def syncPart (c : Command) (f : OpenFile) (s : Shared) :
    Except ProviderError Unit × OpenFile × Shared :=
  if c.sync then f.sync {} s else (.ok (), f, s)

/-- Carries a command out on an open file. Wherever that ends, the file is given up. -/
def carryOut (c : Command) (f : OpenFile) (s : Shared) : Report × Shared :=
  let opened := describe f s
  match writePart c f s with
  | (.error e, f, s) => (failure opened e, f.drop s)
  | (.ok wrote, f, s) =>
    match syncPart c f s with
    | (.error e, f, s) => (failure (opened ++ wrote) e, f.drop s)
    | (.ok (), f, s) =>
      let stdout := opened ++ wrote ++ describeFlushes f
      match f.close s with
      | (.error e, f, s) => (failure stdout e, f.drop s)
      | (.ok (), f, s) =>
        let report := match c.dump with
          | none => success stdout
          | some n =>
            match dump f.path n s.platform.files with
            | .ok text => success (stdout ++ text)
            | .error e => failure stdout e
        (report, f.drop s)

/-- The flags with which a command opens its file. -/
def Command.flags (c : Command) : OpenFlags := { kind := c.kind }

/-- The file that a command works on, if there is a provider for the environment. -/
def Command.file? (c : Command) (env : Settings.Environment) : Option Path :=
  match Settings.ofEnvironment env with
  | .error _ => none
  | .ok settings =>
    match Provider.ofSettings settings with
    | .error _ => none
    | .ok provider => some (provider.resolve c.path c.kind)

/-- Carries a command out in an environment. -/
def Command.run (c : Command) (env : Settings.Environment) (p : Platform) : Report × Platform :=
  match Settings.ofEnvironment env with
  | .error e => (failure "" (.settings e), p)
  | .ok settings =>
    match Provider.ofSettings settings with
    | .error e => (failure "" e, p)
    | .ok provider =>
      match provider.openFile (some c.path) c.flags { platform := p } with
      | (.error e, s) => (failure "" e, s.platform)
      | (.ok f, s) =>
        let (report, s) := carryOut c f s
        (report, s.platform)

/-- Runs the probe with some arguments. -/
def run (args : List Argument) (env : Settings.Environment) (p : Platform) : Report × Platform :=
  match Command.ofArguments? args with
  | some c => c.run env p
  | none => (misuse, p)

end MappedStorage.Probe
