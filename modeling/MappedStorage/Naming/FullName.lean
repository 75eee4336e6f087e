import MappedStorage.Provider.Error

/-!
Full path names: absolute, without dots and without symbolic links. Names are looked at one by
one, so a name that does not exist yet is kept, and two dots after it take it away again. Each
link followed uses up one of `maxLinks`, which bounds the work in any tree.
-/

namespace MappedStorage

/-- A full path name. -/
structure FullName where
  path : Path
  /-- A link was followed on the way. -/
  followedLink : Bool
  deriving DecidableEq

namespace FullName

/-- The links that are followed for one name. -/
def maxLinks : Nat := 100

/-- A component that waits to be appended, with the path that it came from. -/
structure Pending where
  component : Component
  source : Path
  deriving DecidableEq

/-- The components of a path, waiting. -/
def pending (path : Path) : List Pending := path.components.map fun c => ⟨c, path⟩

/-- Appends components to a full name. `links` is how many links may still be followed; the
result tells how many are left. -/
def extend (fs : FileSystem) (links : Nat) (names : List Name) :
    List Pending → Except ProviderError (List Name × Nat)
  | [] => .ok (names, links)
  | ⟨.root, _⟩ :: rest => extend fs links [] rest
  | ⟨.here, _⟩ :: rest => extend fs links names rest
  | ⟨.up, source⟩ :: rest =>
    if names = [] then .error (.cantOpen source .leavesRoot)
    else extend fs links names.dropLast rest
  | ⟨.name name, _⟩ :: rest =>
    let path := Path.ofNames (names ++ [name])
    match fs.linkStat path with
    | .error e =>
      if e = .os Errno.noEntry then extend fs links (names ++ [name]) rest
      else .error (.io .stating path e)
    | .ok (.link target) =>
      match links with
      | 0 => .error (.cantOpen path .tooManyLinks)
      | left + 1 => extend fs left names (pending target ++ rest)
    | .ok _ => extend fs links (names ++ [name]) rest
termination_by waiting => (links, waiting.length)

/-- The components of a path after those of the working directory, which an absolute path does
not need. -/
def route (fs : FileSystem) (path : Path) : List Pending :=
  if path.isAbsolute then pending path
  else pending (Path.ofNames (fs.namesOf fs.workingDirectory)) ++ pending path

/-- The full name of a path, which has to be shorter than a limit. -/
def resolve (fs : FileSystem) (limit : Nat) (path : Path) : Except ProviderError FullName :=
  match extend fs maxLinks [] (route fs path) with
  | .error e => .error e
  | .ok (names, left) =>
    let full := Path.ofNames names
    if limit ≤ full.bytes.length then .error (.cantOpen full .tooLong)
    else .ok ⟨full, left < maxLinks⟩

end FullName
end MappedStorage
