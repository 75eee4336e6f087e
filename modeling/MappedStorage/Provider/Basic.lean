import MappedStorage.Naming.FullName
import MappedStorage.Naming.Placement
import MappedStorage.Provider.OpenFile

/-!
The storage provider: opens, deletes and examines files for a host engine. Logs and shared
indexes are placed by the settings (`Provider.resolve`); all files of a provider share its lock
table and its open regions. What a provider hands on from the system as it is (random bytes, the time,
the last error number) is left out, and a directory that can be opened can be synced.
-/

namespace MappedStorage

/-- A storage provider. -/
structure Provider where
  settings : Settings
  mapper : Mapper
  /-- The name of the root directory, where the tree is part of a larger one. -/
  rootName : Option Name := none

namespace Provider

/-- A provider with settings that it can work with. -/
def ofSettings (settings : Settings) : Except ProviderError Provider :=
  match settings.validate with
  | .error e => .error (.settings e)
  | .ok () => .ok { settings, mapper := { detection := settings.detection } }

/-- A provider that maps files with a given mapper. -/
def ofMapper (settings : Settings) (mapper : Mapper) : Except ProviderError Provider :=
  match ofSettings settings with
  | .error e => .error e
  | .ok provider => .ok { provider with mapper }

/-- How the provider opens regions. -/
def regionSetup (v : Provider) : Except ProviderError RegionSetup :=
  match v.settings.growth with
  | .error e => .error (.settings e)
  | .ok growth =>
    .ok { mapper := v.mapper, initialCapacity := v.settings.initialCapacity, growth }

/-- Where the file of a path lives. -/
def resolve (v : Provider) (path : Path) (kind : FileKind) : Path :=
  if kind = .wal ∨ Placement.isPlaced path then
    Placement.placeIn v.rootName path v.settings.directory
  else path

/-- The file of a database or log, once its store is open. -/
def assemble (v : Provider) (path real : Path) (kind : FileKind) (setup : RegionSetup)
    (store : Store) (s : Shared) : OpenFile × Shared :=
  let index := if kind = .mainDb then
      some (SharedIndex.new (Placement.indexPath path v.settings.directory) setup
        v.settings.indexBaseSize)
    else none
  match v.settings.locking with
  | .none => ({ kind, store, index, client := .none, sectorSize := v.settings.sectorSize }, s)
  | .inProcess =>
    let (holder, locks) := s.locks.addHolder real
    ({ kind, store, index, client := .inProcess holder, sectorSize := v.settings.sectorSize },
      { s with locks })

/-- Opens a file. Temporary files, which have no path or no role or vanish on closing, are not
supported. -/
def openFile (v : Provider) (path : Option Path) (flags : OpenFlags) (s : Shared) :
    Except ProviderError OpenFile × Shared :=
  match path, flags.kind.role with
  | some path, some role =>
    if flags.deleteOnClose then (.error (.unsupported .temporaryFiles), s)
    else
      let real := v.resolve path flags.kind
      if !flags.create && !s.platform.files.isPresent real then
        (.error (.cantOpen real .missing), s)
      else match v.regionSetup with
        | .error e => (.error e, s)
        | .ok setup =>
          match Store.open real role setup s.regions s.platform with
          | (.error e, regions, platform) => (.error e, { s with regions, platform })
          | (.ok store, regions, platform) =>
            let (file, s) :=
              v.assemble path real flags.kind setup store { s with regions, platform }
            (.ok file, s)
  | _, _ => (.error (.unsupported .temporaryFiles), s)

/-- The size of a file, which is opened and closed for it. -/
def sizeOf (v : Provider) (path : Option Path) (flags : OpenFlags) (s : Shared) :
    Except ProviderError Nat × Shared :=
  match v.openFile path flags s with
  | (.error e, s) => (.error e, s)
  | (.ok f, s) =>
    let size := f.fileSize s
    match f.close s with
    | (.error e, f, s) => (.error e, f.drop s)
    | (.ok (), f, s) => (size, f.drop s)

/-- Syncs the directory of a file, which the path may no longer lead to once the file is gone. A
file that the path names alone lies in the working directory, which is left alone. -/
def syncDirectory (files : FileSystem) (path : Path) : Except ProviderError Unit :=
  match path.parent? with
  | none => .ok ()
  | some directory =>
    if directory.bytes = [] then .ok ()
    else match files.stat directory with
      | .error e => .error (.io .directorySyncing directory e)
      | .ok _ => .ok ()

/-- Deletes a file and syncs its directory if asked to. A file that is gone already is no error. -/
def delete (v : Provider) (path : Path) (syncing : Bool) (s : Shared) :
    Except ProviderError Unit × Shared :=
  let real := v.resolve path .mainDb
  match s.platform.files.unlink real with
  | .error e =>
    if e = .os Errno.noEntry then (.ok (), s) else (.error (.io .deleting real e), s)
  | .ok files =>
    (if syncing then syncDirectory files real else .ok (),
      { s with platform := { s.platform with files } })

/-- Examines a path. A file without bytes counts as missing, but not for access to it. -/
def access (v : Provider) (path : Path) (mode : AccessCheck) (s : Shared) :
    Except ProviderError Bool :=
  let real := v.resolve path .mainDb
  let files := s.platform.files
  match mode with
  | .existence =>
    match files.stat real with
    | .ok (.file id) => .ok (0 < (files.file id).size)
    | .ok _ => .ok true
    | .error _ => .ok false
  | .readWrite | .read =>
    if 0 ∈ real.bytes then .error (.cantOpen real .nulByte) else .ok (files.isPresent real)

/-- The full name of a path. -/
def fullName (v : Provider) (path : Path) (s : Shared) : Except ProviderError FullName :=
  FullName.resolve s.platform.files v.settings.maxPathname path

/-- Extensions can not be loaded. -/
def loadExtension (_v : Provider) (_path : Path) : Except ProviderError Unit :=
  .error (.unsupported .loadableExtensions)

/-- Extensions have no symbols. -/
def findSymbol (_v : Provider) (_name : String) : Except ProviderError Unit :=
  .error (.unsupported .loadableExtensions)

/-- The message about extensions. -/
def extensionMessage (_v : Provider) : String := "Loadable extensions are not supported"

end Provider

/-! ## What every file answers alike -/

namespace OpenFile

/-- No file control is known. -/
def fileControl (_f : OpenFile) (_code : Int) : Except ProviderError Unit := .error .notFound

/-- Truncates the file as its store does. -/
def truncate (f : OpenFile) (size : Nat) : Except ProviderError Unit := f.store.truncate size

/-- Files promise nothing beyond what they are asked for. -/
def guarantees (_f : OpenFile) : Nat := 0

end OpenFile
end MappedStorage
