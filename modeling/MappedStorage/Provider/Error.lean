import MappedStorage.Flags
import MappedStorage.Provider.Settings

/-!
What a provider answers when it can not do what the host engine asked: the cause, its text, and
the result code by which the engine knows it.
-/

namespace MappedStorage

/-- What was being done when a request to the system failed. -/
inductive Activity where
  | opening
  | reading
  | writing
  | syncing
  | stating
  | deleting
  | directorySyncing
  | closing
  | indexOpening
  | indexMapping
  | indexUnmapping
  deriving DecidableEq

namespace Activity

/-- How messages call an activity. -/
def word : Activity → String
  | opening => "open"
  | reading => "read"
  | writing => "write"
  | syncing => "sync"
  | stating => "stat"
  | deleting => "delete"
  | directorySyncing => "directory sync"
  | closing => "close"
  | indexOpening => "shared index open"
  | indexMapping => "shared index map"
  | indexUnmapping => "shared index unmap"

/-- The result code of a failure during an activity. -/
def code : Activity → Nat
  | opening => 14
  | reading => 266
  | writing => 778
  | syncing => 1034
  | stating => 1802
  | deleting => 2570
  | directorySyncing => 1290
  | closing => 4106
  | indexOpening => 4618
  | indexMapping => 5386
  | indexUnmapping => 6154

end Activity

/-- Why a path can not be opened or resolved. -/
inductive CantOpenReason where
  | missing
  | nulByte
  | leavesRoot
  | tooManyLinks
  | tooLong
  deriving DecidableEq

def CantOpenReason.text : CantOpenReason → String
  | .missing => "file does not exist"
  | .nulByte => "path contains a nul byte"
  | .leavesRoot => "path leaves the root directory"
  | .tooManyLinks => "too many levels of symbolic links"
  | .tooLong => "path name too long"

/-- What a provider does not offer. -/
inductive Feature where
  | temporaryFiles
  | loadableExtensions
  | indexOfOtherFiles
  deriving DecidableEq

def Feature.text : Feature → String
  | .temporaryFiles => "temporary files"
  | .loadableExtensions => "loadable extensions"
  | .indexOfOtherFiles => "shared index mappings of non-database files"

/-- Why a provider did not do what it was asked. -/
inductive ProviderError where
  | io (activity : Activity) (path : Path) (source : IoError)
  | outOfMemory (source : RegionError)
  | shortRead (offset len used : Nat)
  | unsupported (feature : Feature)
  /-- The file control is not known. -/
  | notFound
  /-- Another connection holds the lock. -/
  | busy
  | cantOpen (path : Path) (reason : CantOpenReason)
  /-- A slot of another size than that of the slots already mapped. -/
  | slotSize (requested established : Nat)
  /-- A slot size that is not a positive number of words. -/
  | slotAlignment (size : Nat)
  /-- Lock slots that do not exist. -/
  | slotRange (offset n slots : Nat)
  | closed
  | settings (source : SettingsError)
  deriving DecidableEq

namespace ProviderError

/-- What the failure of a region during an activity means for the provider. -/
def ofRegion (activity : Activity) : RegionError → ProviderError
  | .io path source => .io activity path source
  | .shortRead offset len used => .shortRead offset len used
  | .closed => .closed
  | .outOfMemory requested source => .outOfMemory (.outOfMemory requested source)
  | .capacity source => .outOfMemory (.capacity source)

/-- The text shown for an error. -/
def message : ProviderError → String
  | io activity path source =>
    activity.word ++ " of " ++ path.display ++ " failed: " ++ source.message
  | outOfMemory _ => "out of memory"
  | shortRead offset len used =>
    "read of " ++ toString len ++ " bytes at offset " ++ toString offset ++
      " beyond the file size " ++ toString used
  | unsupported feature => feature.text ++ " are not supported"
  | notFound => "unknown file control"
  | busy => "the lock is held by another connection"
  | cantOpen path reason => "can not open " ++ path.display ++ ": " ++ reason.text
  | slotSize requested established =>
    "slot size " ++ toString requested ++ " differs from the established slot size " ++
      toString established
  | slotAlignment size =>
    "slot size " ++ toString size ++ " is not a positive multiple of 4 bytes"
  | slotRange offset n slots =>
    toString n ++ " shared lock slots at " ++ toString offset ++ " are outside of the " ++
      toString slots ++ " lock slots"
  | closed => "the file handle is closed"
  | settings source => source.message

/-- The result code of an error. -/
def code : ProviderError → Nat
  | io activity _ _ => activity.code
  | outOfMemory _ => 7
  | shortRead .. => 522
  | unsupported _ => 10
  | notFound => 12
  | busy => 5
  | cantOpen .. => 14
  | slotSize .. | slotAlignment _ => 4874
  | slotRange .. => 5130
  | closed => 21
  | settings _ => 1

end ProviderError
end MappedStorage
