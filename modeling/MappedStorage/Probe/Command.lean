import MappedStorage.Flags
import MappedStorage.Naming.Path
import MappedStorage.Text.Numeral

/-!
The command line of the probe. Arguments are bytes; options are long names that take a value
after an equals sign or as the next argument, each at most once, and two dashes end the options.
-/

namespace MappedStorage.Probe

/-- An argument as it was given. -/
abbrev Argument := List UInt8

/-- What the probe is asked to do. -/
structure Command where
  path : Path
  kind : FileKind := .mainDb
  /-- The text to write. -/
  write : Option String := none
  offset : Nat := 0
  sync : Bool := false
  /-- How many bytes to print at the end. -/
  dump : Option Nat := none
  deriving DecidableEq

/-- What the arguments looked at so far have said. -/
structure Partial where
  path : Option Path := none
  kind : Option FileKind := none
  write : Option String := none
  offset : Option Nat := none
  sync : Bool := false
  dump : Option Nat := none
  deriving DecidableEq

/-- The value for a setting that has none yet. -/
def once {α : Type} (earlier : Option α) (value : Option α) : Option (Option α) :=
  match earlier with
  | none => value.map some
  | some _ => none

/-- The kind of file that a word names. -/
def kindOf (value : Argument) : Option FileKind :=
  match Utf8.string? value with
  | some "db" => some .mainDb
  | some "wal" => some .wal
  | _ => none

/-- The word that a numeral denotes. -/
def wordOf (value : Argument) : Option Nat := (Utf8.decode? value).bind Numeral.word?

namespace Partial

/-- Takes the value of a named option. -/
def setOption (c : Partial) (name : String) (value : Argument) : Option Partial :=
  match name with
  | "kind" => (once c.kind (kindOf value)).map fun kind => { c with kind }
  | "write" => (once c.write (Utf8.string? value)).map fun write => { c with write }
  | "offset" => (once c.offset (wordOf value)).map fun offset => { c with offset }
  | "dump" => (once c.dump (wordOf value)).map fun dump => { c with dump }
  | _ => none

/-- Takes an argument that is no option: the path, which must not be empty. -/
def setPath (c : Partial) (value : Argument) : Option Partial :=
  match c.path, value with
  | none, _ :: _ => some { c with path := some ⟨value⟩ }
  | _, _ => none

/-- The command, once all arguments are taken. -/
def finish (c : Partial) : Option Command :=
  c.path.map fun path =>
    { path
      kind := c.kind.getD .mainDb
      write := c.write
      offset := c.offset.getD 0
      sync := c.sync
      dump := c.dump }

end Partial

/-- The byte of a dash. -/
def dash : UInt8 := 0x2D

/-- The byte of an equals sign. -/
def equals : UInt8 := 0x3D

/-- An argument that is not an option: a single dash is none. -/
def isPlain (arg : Argument) : Bool := arg.head? != some dash || arg == [dash]

/-- An option split at its equals sign, if it has one. -/
def splitOption (arg : Argument) : String × Option Argument :=
  let name := Utf8.lossy (arg.takeWhile (· ≠ equals))
  match arg.dropWhile (· ≠ equals) with
  | _ :: value => (name, some value)
  | [] => (name, none)

/-- Takes arguments one by one. -/
def collect (c : Partial) : List Argument → Option Partial
  | [] => some c
  | arg :: rest =>
    if arg = [dash, dash] then rest.foldlM Partial.setPath c
    else if isPlain arg then (c.setPath arg).bind fun c => collect c rest
    else if [dash, dash].isPrefixOf arg then
      match splitOption (arg.drop 2) with
      | ("sync", none) => if c.sync then none else collect { c with sync := true } rest
      | (name, some value) => (c.setOption name value).bind fun c => collect c rest
      | (name, none) =>
        match rest with
        | value :: rest =>
          if isPlain value then (c.setOption name value).bind fun c => collect c rest else none
        | [] => none
    else none

/-- The command that arguments give, unless they are misused. -/
def Command.ofArguments? (args : List Argument) : Option Command :=
  (collect {} args).bind Partial.finish

end MappedStorage.Probe
