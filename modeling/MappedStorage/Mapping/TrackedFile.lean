import MappedStorage.System.FileSystem

/-!
The file behind a region, with the length it was last seen to have. Other handles may change the
length meanwhile, so growing looks at the file first and never shortens it. The length of an open file
can always be asked for; setting it may fail.
-/

namespace MappedStorage

/-- An open file and its known length. -/
structure TrackedFile where
  handle : Handle
  path : Path
  len : Nat
  /-- The file was made when it was opened. -/
  created : Bool
  deriving DecidableEq

namespace TrackedFile

def isEmpty (f : TrackedFile) : Bool := f.len == 0

/-- A file that is open already. -/
def ofHandle (fs : FileSystem) (h : Handle) (path : Path) : TrackedFile :=
  ⟨h, path, fs.length h, false⟩

/-- Opens a file for writing, making it where it is missing. -/
def openOrCreate (fs : FileSystem) (path : Path) : Except IoError TrackedFile × FileSystem :=
  match fs.openExisting path true with
  | .ok h => (.ok (ofHandle fs h path), fs)
  | .error e =>
    if e = .os Errno.noEntry then
      match fs.openOrCreate path with
      | (.ok h, fs) => (.ok { ofHandle fs h path with created := true }, fs)
      | (.error e, fs) => (.error e, fs)
    else (.error e, fs)

/-- The length that the file has now. -/
def refresh (f : TrackedFile) (fs : FileSystem) : TrackedFile :=
  { f with len := fs.length f.handle }

/-- Sets the length of the file. -/
def setLength (f : TrackedFile) (len : Nat) (fs : FileSystem) :
    Except IoError Unit × TrackedFile × FileSystem :=
  match fs.setLength f.handle len with
  | .ok fs => (.ok (), { f with len }, fs)
  | .error e => (.error e, f, fs)

/-- Makes the file at least so long. -/
def growTo (f : TrackedFile) (len : Nat) (fs : FileSystem) :
    Except IoError Unit × TrackedFile × FileSystem :=
  let f := f.refresh fs
  if len ≤ f.len then (.ok (), f, fs) else f.setLength len fs

/-- Makes the file at most so long. -/
def trimTo (f : TrackedFile) (len : Nat) (fs : FileSystem) :
    Except IoError Unit × TrackedFile × FileSystem :=
  let f := f.refresh fs
  if len < f.len then f.setLength len fs else (.ok (), f, fs)

end TrackedFile
end MappedStorage
