import MappedStorage.Naming.Path

/-!
Where the files of a database live. The log and the shared index are named by a suffix of the
database path, and a directory for persistent memory takes both away from the database. Opening
knows the kind of a file; deleting and examining it have only its name to go by.
-/

namespace MappedStorage.Placement

/-- The suffix of the log of a database. -/
def logSuffix : List UInt8 := [0x2D, 0x77, 0x61, 0x6C]

/-- The suffix of the shared index of a database. -/
def indexSuffix : List UInt8 := [0x2D, 0x73, 0x68, 0x6D]

/-- The suffix of the rollback journal of a database. -/
def journalSuffix : List UInt8 := [0x2D, 0x6A, 0x6F, 0x75, 0x72, 0x6E, 0x61, 0x6C]

/-- The name of a file. The root has a name where the tree is part of a larger one. -/
def nameOf (rootName : Option Name) (path : Path) : Option Name :=
  if path.components = [.root] then rootName else path.fileName?

/-- The file of the same name in a directory; the path itself without a directory or a name. -/
def placeIn (rootName : Option Name) (path : Path) (directory : Option Path) : Path :=
  match directory, nameOf rootName path with
  | some dir, some name => dir.join ⟨name⟩
  | _, _ => path

/-- A name that says of a file that it goes to persistent memory. It has to be text. -/
def isPlacedName (name : Name) : Bool :=
  (Utf8.decode? name).isSome && (logSuffix.isSuffixOf name || indexSuffix.isSuffixOf name)

/-- A path whose name says that the file goes to persistent memory. -/
def isPlaced (path : Path) : Bool :=
  match path.fileName? with
  | some name => isPlacedName name
  | none => false

/-- The path of the log of a database, before it is placed. -/
def logPath (database : Path) : Path := database.append logSuffix

/-- Where the shared index of a database lives. -/
def indexPath (database : Path) (directory : Option Path) : Path :=
  placeIn none (database.append indexSuffix) directory

end MappedStorage.Placement
