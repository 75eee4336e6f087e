import Std.Data.TreeMap
import MappedStorage.Keyed
import MappedStorage.Word
import MappedStorage.Naming.Path
import MappedStorage.System.Errno
import MappedStorage.System.File

/-!
The file system: a tree of directories, files and symbolic links, with a working directory.
`FileSystem.walk` resolves a path as the system does it: links are followed before a pair of dots
is, a missing or unsuitable directory on the way is an error, and at most `maxLinks` links are
followed. Directories and files have identities apart from their names, so a walk goes from
directory to directory, and a file that is open lives on when its last name is removed. What a
change does is said by `FileSystem.lookup_setEntry` and `FileSystem.file_setFile`.
-/

namespace MappedStorage

/-- The identity of a directory. -/
abbrev DirectoryId := Nat

/-- The identity of a file, apart from its names. -/
abbrev FileId := Nat

/-- What a name in a directory stands for. -/
inductive Entry where
  | directory (id : DirectoryId)
  | file (id : FileId)
  | link (target : Path)
  deriving DecidableEq

/-- The entries of a directory by their names, the directory above it, and the names that lead to
it from the root, the last one first. The root is above itself. -/
structure Directory where
  parent : DirectoryId
  trail : List Name
  entries : Keyed Name Entry
  deriving DecidableEq

/-- The directories and the files, and the directory that relative paths start from. The numbers
from `nextDirectory` and `nextFile` on are free. -/
structure FileSystem where
  directories : Std.TreeMap DirectoryId Directory
  files : Std.TreeMap FileId File
  nextDirectory : DirectoryId
  nextFile : FileId
  workingDirectory : DirectoryId

/-- An open file. -/
structure Handle where
  file : FileId
  writable : Bool
  deriving DecidableEq

/-- Where a path leads. -/
inductive Place where
  | directory (id : DirectoryId)
  /-- To a file, by its name in a directory. -/
  | file (holder : DirectoryId) (name : Name) (id : FileId)
  /-- To a link itself, by its name in a directory. -/
  | link (holder : DirectoryId) (name : Name) (target : Path)
  /-- To a name that its directory does not have. -/
  | vacant (holder : DirectoryId) (name : Name)
  deriving DecidableEq

/-- What is at a place, if it is not vacant. -/
def Place.occupant? : Place → Option Entry
  | .directory id => some (.directory id)
  | .file _ _ id => some (.file id)
  | .link _ _ target => some (.link target)
  | .vacant .. => none

/-- What a path is resolved for, which decides about its last name. -/
inductive Intent where
  /-- To reach something: a link is followed. -/
  | reach
  /-- To reach or make a file: a link is followed, a slash after the name is refused. -/
  | create
  /-- To look at the name itself: a link is followed only if a slash comes after it. -/
  | inspect
  /-- To change what the name stands for: a link is never followed. -/
  | rename
  deriving DecidableEq

namespace FileSystem

/-- The links that are followed in one path. -/
def maxLinks : Nat := 40

/-- The longest name. -/
def maxName : Nat := 255

/-- The length from which on a path is too long. -/
def maxPath : Nat := 4096

/-- The bytes of a block. -/
def blockSize : Nat := 4096

/-- The longest file: as many blocks as a 32-bit number can count. -/
def maxFile : Nat := 0xFFFFFFFF * blockSize

/-- The longest file that memory has room for when all of it is read. -/
def maxRead : Nat := 0x100000000

/-- The root directory. -/
def root : DirectoryId := 0

/-- The file that a handle to a directory refers to. Nothing can be read, written or mapped through
such a handle, so the length of the file is all that shows: a directory takes one block. -/
def directoryFile : FileId := 0

/-- The root directory and nothing else. -/
def empty : FileSystem where
  directories := ∅
  files := (∅ : Std.TreeMap FileId File).insert directoryFile (File.empty.resize blockSize)
  nextDirectory := root + 1
  nextFile := directoryFile + 1
  workingDirectory := root

instance : Inhabited FileSystem := ⟨empty⟩

/-- A directory. One that nothing was put into yet is as the root begins. -/
def directory (fs : FileSystem) (id : DirectoryId) : Directory :=
  fs.directories.getD id ⟨root, [], ∅⟩

/-- A file. -/
def file (fs : FileSystem) (id : FileId) : File := fs.files.getD id .empty

/-- What a name in a directory stands for. -/
def lookup (fs : FileSystem) (holder : DirectoryId) (name : Name) : Option Entry :=
  (fs.directory holder).entries.find? name

/-- The names that lead from the root to a directory. -/
def namesOf (fs : FileSystem) (id : DirectoryId) : List Name := (fs.directory id).trail.reverse

/-- The pieces of a path that lead somewhere. -/
def steps (path : Path) : List (List UInt8) := (Path.pieces path.bytes).filter (· ≠ [])

/-- A slash comes after the last name. -/
def isSlashed (path : Path) : Bool :=
  path.bytes.getLast? == some Path.separator && steps path ≠ []

/-- Follows steps from a directory. `links` is how many links may still be followed, and
`slashed` says that a slash comes after the last step. -/
def walk (fs : FileSystem) (intent : Intent) (links : Nat) (here : DirectoryId)
    (steps : List (List UInt8)) (slashed : Bool) : Except Errno Place :=
  match steps with
  | [] => .ok (.directory here)
  | step :: rest =>
    if step = [Path.dot] then walk fs intent links here rest slashed
    else if step = [Path.dot, Path.dot] then
      walk fs intent links (fs.directory here).parent rest slashed
    else if rest = [] ∧ slashed ∧ intent = .create then .error Errno.isDirectory
    else if maxName < step.length then .error Errno.nameTooLong
    else match fs.lookup here step with
      | none => if rest = [] then .ok (.vacant here step) else .error Errno.noEntry
      | some (.directory id) => walk fs intent links id rest slashed
      | some (.file id) =>
        if rest = [] ∧ (slashed = false ∨ intent = .rename) then .ok (.file here step id)
        else .error Errno.notDirectory
      | some (.link target) =>
        if rest = [] ∧ (intent = .rename ∨ intent = .inspect ∧ slashed = false) then
          .ok (.link here step target)
        else match links with
          | 0 => .error Errno.tooManyLinks
          | left + 1 =>
            walk fs intent left (if target.isAbsolute then root else here)
              (FileSystem.steps target ++ rest)
              (slashed || (rest = [] && isSlashed target))
termination_by (links, steps.length)

/-- Where a path leads, from the root or the working directory. -/
def resolve (fs : FileSystem) (intent : Intent) (path : Path) : Except IoError Place :=
  if 0 ∈ path.bytes then .error .nulInName
  else if path.bytes = [] then .error (.os Errno.noEntry)
  else if maxPath ≤ path.bytes.length then .error (.os Errno.nameTooLong)
  else match fs.walk intent maxLinks (if path.isAbsolute then root else fs.workingDirectory)
      (steps path) (isSlashed path) with
    | .ok place => .ok place
    | .error errno => .error (.os errno)

/-! ## Changes to the tree and to files -/

/-- The file system with another directory. -/
def setDirectory (fs : FileSystem) (id : DirectoryId) (directory : Directory) : FileSystem :=
  { fs with directories := fs.directories.insert id directory }

/-- The file system with other contents of a file. -/
def setFile (fs : FileSystem) (id : FileId) (file : File) : FileSystem :=
  { fs with files := fs.files.insert id file }

/-- The file system with an entry under a name in a directory, or none. -/
def setEntry (fs : FileSystem) (holder : DirectoryId) (name : Name) (value : Option Entry) :
    FileSystem :=
  let directory := fs.directory holder
  fs.setDirectory holder { directory with
    entries := match value with
      | some entry => directory.entries.insert name entry
      | none => directory.entries.erase name }

/-- A new file under a name in a directory. -/
def addFile (fs : FileSystem) (holder : DirectoryId) (name : Name) (file : File) : FileSystem :=
  { (fs.setEntry holder name (some (.file fs.nextFile))).setFile fs.nextFile file with
    nextFile := fs.nextFile + 1 }

/-- A new directory under a name in a directory. -/
def addDirectory (fs : FileSystem) (holder : DirectoryId) (name : Name) : FileSystem :=
  { (fs.setEntry holder name (some (.directory fs.nextDirectory))).setDirectory fs.nextDirectory
      ⟨holder, name :: (fs.directory holder).trail, ∅⟩ with
    nextDirectory := fs.nextDirectory + 1 }

/-! ## Requests -/

/-- Opens a file that exists, or a directory if it is not to be written. -/
def openExisting (fs : FileSystem) (path : Path) (writable : Bool) : Except IoError Handle :=
  match fs.resolve .reach path with
  | .error e => .error e
  | .ok (.vacant ..) => .error (.os Errno.noEntry)
  | .ok (.file _ _ id) => .ok ⟨id, writable⟩
  | .ok _ => if writable then .error (.os Errno.isDirectory) else .ok ⟨directoryFile, false⟩

/-- Opens a file for writing, making it if need be. -/
def openOrCreate (fs : FileSystem) (path : Path) : Except IoError Handle × FileSystem :=
  match fs.resolve .create path with
  | .error e => (.error e, fs)
  | .ok (.vacant holder name) => (.ok ⟨fs.nextFile, true⟩, fs.addFile holder name .empty)
  | .ok (.file _ _ id) => (.ok ⟨id, true⟩, fs)
  | .ok _ => (.error (.os Errno.isDirectory), fs)

/-- The length of an open file. -/
def length (fs : FileSystem) (h : Handle) : Nat := (fs.file h.file).size

/-- Sets the length of an open file. -/
def setLength (fs : FileSystem) (h : Handle) (len : Nat) : Except IoError FileSystem :=
  if Word.addressable < len then .error .lengthTooLarge
  else if h.writable = false then .error (.os Errno.invalid)
  else if maxFile < len then .error (.os Errno.fileTooLarge)
  else .ok (fs.setFile h.file ((fs.file h.file).resize len))

/-- What is at the place that a path leads to. -/
def entryAt (fs : FileSystem) (intent : Intent) (path : Path) : Except IoError Entry :=
  match fs.resolve intent path with
  | .error e => .error e
  | .ok place =>
    match place.occupant? with
    | none => .error (.os Errno.noEntry)
    | some entry => .ok entry

/-- What a path leads to. -/
def stat (fs : FileSystem) (path : Path) : Except IoError Entry := fs.entryAt .reach path

/-- What a path leads to, a link standing for itself. -/
def linkStat (fs : FileSystem) (path : Path) : Except IoError Entry := fs.entryAt .inspect path

/-- Removes the name of a file or link. -/
def unlink (fs : FileSystem) (path : Path) : Except IoError FileSystem :=
  match fs.resolve .rename path with
  | .error e => .error e
  | .ok (.vacant ..) => .error (.os Errno.noEntry)
  | .ok (.directory _) => .error (.os Errno.isDirectory)
  | .ok (.file holder name _) | .ok (.link holder name _) =>
    if isSlashed path then .error (.os Errno.notDirectory)
    else .ok (fs.setEntry holder name none)

/-- Makes a directory. -/
def makeDirectory (fs : FileSystem) (path : Path) : Except IoError FileSystem :=
  match fs.resolve .rename path with
  | .error e => .error e
  | .ok (.vacant holder name) => .ok (fs.addDirectory holder name)
  | .ok _ => .error (.os Errno.alreadyThere)

/-- A path that leads to a directory. -/
def isDirectory (fs : FileSystem) (path : Path) : Bool :=
  match fs.stat path with
  | .ok (.directory _) => true
  | _ => false

/-- Makes a directory, which may be there already. -/
def passDirectory (fs : FileSystem) (path : Path) : Except IoError FileSystem :=
  match fs.makeDirectory path with
  | .ok fs => .ok fs
  | .error e => if fs.isDirectory path then .ok fs else .error e

/-- Makes the first of some directories, each of which is in the next. Where one above it is missing,
that one is made before, and stays even if the directory itself can not be made. -/
def makeAlong (fs : FileSystem) : List Path → Except IoError Unit × FileSystem
  | [] => (.ok (), fs)
  | path :: above =>
    match fs.passDirectory path with
    | .ok fs => (.ok (), fs)
    | .error e =>
      if e = .os Errno.noEntry then
        match makeAlong fs above with
        | (.error e, fs) => (.error e, fs)
        | (.ok (), fs) =>
          match fs.passDirectory path with
          | .ok fs => (.ok (), fs)
          | .error e => (.error e, fs)
      else (.error e, fs)

/-- Makes a directory and those above it that are missing. The empty path stands for a directory
that is there. -/
def makeDirectories (fs : FileSystem) (path : Path) : Except IoError Unit × FileSystem :=
  fs.makeAlong ((path :: path.ancestors).takeWhile (·.bytes ≠ []))

/-- Makes a symbolic link. A NUL byte in either name is refused before anything else. -/
def makeLink (fs : FileSystem) (target path : Path) : Except IoError FileSystem :=
  if 0 ∈ target.bytes ∨ 0 ∈ path.bytes then .error .nulInName
  else if target.bytes = [] then .error (.os Errno.noEntry)
  else if maxPath ≤ target.bytes.length then .error (.os Errno.nameTooLong)
  else match fs.resolve .rename path with
    | .error e => .error e
    | .ok (.vacant holder name) =>
      if isSlashed path then .error (.os Errno.noEntry)
      else .ok (fs.setEntry holder name (some (.link target)))
    | .ok _ => .error (.os Errno.alreadyThere)

/-- Changes the working directory. -/
def changeDirectory (fs : FileSystem) (path : Path) : Except IoError FileSystem :=
  match fs.stat path with
  | .error e => .error e
  | .ok (.directory id) => .ok { fs with workingDirectory := id }
  | .ok _ => .error (.os Errno.notDirectory)

/-- The contents of the file that a path leads to, all in memory. -/
def contentsOf (fs : FileSystem) (path : Path) : Except IoError Bytes :=
  match fs.stat path with
  | .error e => .error e
  | .ok (.file id) =>
    if maxRead < (fs.file id).size then .error .outOfMemory else .ok (fs.file id).contents
  | .ok _ => .error (.os Errno.isDirectory)

/-- Replaces the contents of the file that a path leads to, making it if need be. -/
def setContents (fs : FileSystem) (path : Path) (data : Bytes) : Except IoError FileSystem :=
  match fs.openOrCreate path with
  | (.error e, _) => .error e
  | (.ok h, fs) => .ok (fs.setFile h.file (.ofBytes data))

/-- A path that leads to something. -/
def isPresent (fs : FileSystem) (path : Path) : Bool := (fs.stat path).isOk

/-- The file system after a crash, with the bytes that were durable. -/
def crash (fs : FileSystem) : FileSystem := { fs with files := fs.files.map fun _ => File.crash }

/-! ## What a change does -/

theorem directory_setDirectory (fs : FileSystem) (id other : DirectoryId) (d : Directory) :
    (fs.setDirectory id d).directory other = if other = id then d else fs.directory other := by
  simp [directory, setDirectory, Std.TreeMap.getD_insert, eq_comm (a := other)]

theorem file_setFile (fs : FileSystem) (id other : FileId) (f : File) :
    (fs.setFile id f).file other = if other = id then f else fs.file other := by
  simp [file, setFile, Std.TreeMap.getD_insert, eq_comm (a := other)]

@[simp] theorem file_setFile_self (fs : FileSystem) (id : FileId) (f : File) :
    (fs.setFile id f).file id = f := by simp [file_setFile]

theorem file_setFile_of_ne (fs : FileSystem) {id other : FileId} (f : File) (h : other ≠ id) :
    (fs.setFile id f).file other = fs.file other := by simp [file_setFile, h]

@[simp] theorem file_setEntry (fs : FileSystem) (holder : DirectoryId) (name : Name)
    (value : Option Entry) (id : FileId) : (fs.setEntry holder name value).file id = fs.file id :=
  rfl

@[simp] theorem lookup_setFile (fs : FileSystem) (id : FileId) (f : File) (holder : DirectoryId)
    (name : Name) : (fs.setFile id f).lookup holder name = fs.lookup holder name := rfl

theorem lookup_setEntry (fs : FileSystem) (holder other : DirectoryId) (name called : Name)
    (value : Option Entry) :
    (fs.setEntry holder name value).lookup other called =
      if other = holder ∧ called = name then value else fs.lookup other called := by
  simp only [lookup, setEntry, directory_setDirectory]
  by_cases same : other = holder
  · subst same
    cases value <;> simp [Keyed.find?_insert, Keyed.find?_erase]
  · simp [same]

/-- A crash leaves the durable bytes of every file. -/
theorem byte_file_crash (fs : FileSystem) (id : FileId) (i : Nat) :
    (fs.crash.file id).byte i = (fs.file id).stable.byte i := by
  simp only [file, crash, Std.TreeMap.getD_eq_getD_getElem?, Std.TreeMap.getElem?_map]
  cases fs.files[id]? with
  | none => rfl
  | some f => exact f.byte_crash i

end FileSystem
end MappedStorage
