import MappedStorage.Mapping.Region
import MappedStorage.Text.Blank
import MappedStorage.Text.Numeral
import MappedStorage.Text.Quoted

/-!
The settings of a provider: its name, the sizes and growth of its regions, where logs and shared
indexes go, and how files are locked. Settings have defaults, four of them can be overridden by
variables of the environment (`Settings.ofEnvironment`), and `Settings.validate` names the first
one that no provider can work with.
-/

namespace MappedStorage

/-- How the locks of files are kept. -/
inductive Exclusion where
  /-- Every lock is granted. -/
  | none
  /-- Connections of this process exclude each other. -/
  | inProcess
  deriving DecidableEq

def Exclusion.name : Exclusion → String
  | .none => "Noop"
  | .inProcess => "InProcess"

/-- A variable of the environment that a provider looks at. -/
inductive Variable where
  | directory
  | initialCapacity
  | forceMedium
  | locking
  deriving DecidableEq

def Variable.name : Variable → String
  | .directory => "PMEM_VFS_DIR"
  | .initialCapacity => "PMEM_VFS_INITIAL_CAPACITY"
  | .forceMedium => "PMEM_IS_PMEM_FORCE"
  | .locking => "PMEM_VFS_LOCKING"

/-- Why settings are refused. -/
inductive SettingsError where
  /-- A variable has a value that it can not have. -/
  | invalid (var : Variable) (value : List UInt8)
  | growthFactor (given : Nat)
  /-- A setting is zero that must not be. -/
  | zero (setting : String)
  | locking (word : String)
  deriving DecidableEq

/-- The text shown for refused settings. -/
def SettingsError.message : SettingsError → String
  | .invalid var value => var.name ++ ": invalid value " ++ Quoted.quote (Utf8.lossy value)
  | .growthFactor given => "growth factor must be at least 2, got " ++ toString given
  | .zero setting => setting ++ " must not be zero"
  | .locking word =>
    "unknown locking mode " ++ Quoted.quote word ++ ", expected `noop` or `in-process`"

/-- The locking mode that a word names. -/
def Exclusion.ofWord (word : String) : Except SettingsError Exclusion :=
  if word = "noop" ∨ word = "none" then .ok .none
  else if word = "in-process" ∨ word = "process" then .ok .inProcess
  else .error (.locking word)

/-- What a provider is set up with. -/
structure Settings where
  name : String := "pmem"
  /-- The length from which on full path names are too long. -/
  maxPathname : Nat := 512
  /-- The capacity that an empty file is given. -/
  initialCapacity : Nat := 8192
  /-- The capacity that an empty shared index is given. -/
  indexBaseSize : Nat := 32768
  growthFactor : Nat := 2
  sectorSize : Nat := 4096
  /-- The directory of logs and shared indexes, if they do not go next to their database. -/
  directory : Option Path := none
  detection : Detection := .automatic
  locking : Exclusion := .none
  deriving DecidableEq

namespace Settings

/-- The settings that must not be zero, in the order in which they are checked. -/
def positives (s : Settings) : List (String × Nat) :=
  [("initial capacity", s.initialCapacity), ("shared index base size", s.indexBaseSize),
    ("maximum path name length", s.maxPathname), ("sector size", s.sectorSize),
    ("name length", s.name.utf8ByteSize)]

/-- Accepts settings that a provider can work with. -/
def validate (s : Settings) : Except SettingsError Unit :=
  if s.growthFactor < 2 then .error (.growthFactor s.growthFactor)
  else match s.positives.find? (·.2 = 0) with
    | some (setting, _) => .error (.zero setting)
    | none => .ok ()

/-- Settings that passed `validate`. -/
def checked (s : Settings) : Except SettingsError Settings :=
  match s.validate with
  | .ok () => .ok s
  | .error e => .error e

/-- The growth rule of regions. -/
def growth (s : Settings) : Except SettingsError GrowthRule :=
  match GrowthRule.ofFactor s.growthFactor with
  | .ok rule => .ok rule
  | .error _ => .error (.growthFactor s.growthFactor)

/-! ## The environment -/

/-- The values of the variables that are set. -/
abbrev Environment := Variable → Option (List UInt8)

/-- A capacity written in decimal, with white space around it. -/
def capacityOf (value : List UInt8) : Except SettingsError Nat :=
  match (Utf8.decode? value).bind fun cs => Numeral.word? (Blank.trim cs) with
  | some n => .ok n
  | none => .error (.invalid .initialCapacity value)

/-- The medium that a value forces: one for persistent memory, zero for an emulation. -/
def forcedMedium (value : List UInt8) : Except SettingsError Detection :=
  if value = [0x31] then .ok .persistent
  else if value = [0x30] then .ok .emulated
  else .error (.invalid .forceMedium value)

/-- The locking mode that a value names. -/
def lockingOf (value : List UInt8) : Except SettingsError Exclusion :=
  match Utf8.string? value with
  | some word => Exclusion.ofWord word
  | none => .error (.invalid .locking value)

/-- The value of a variable if it is set, else a default. -/
def override {α : Type} (env : Environment) (var : Variable) (otherwise : α)
    (read : List UInt8 → Except SettingsError α) : Except SettingsError α :=
  match env var with
  | some value => read value
  | none => .ok otherwise

/-- The directory variable, which counts as unset if it is empty. -/
def directoryOf (env : Environment) : Option Path :=
  match env .directory with
  | some (b :: rest) => some ⟨b :: rest⟩
  | _ => none

/-- The settings of an environment. Of several bad values the first in this order is reported:
capacity, medium, locking, and then a capacity of zero. -/
def ofEnvironment (env : Environment) : Except SettingsError Settings :=
  match override env .initialCapacity ({} : Settings).initialCapacity capacityOf with
  | .error e => .error e
  | .ok initialCapacity =>
    match override env .forceMedium ({} : Settings).detection forcedMedium with
    | .error e => .error e
    | .ok detection =>
      match override env .locking ({} : Settings).locking lockingOf with
      | .error e => .error e
      | .ok locking =>
        checked { directory := directoryOf env, initialCapacity, detection, locking }

end Settings
end MappedStorage
