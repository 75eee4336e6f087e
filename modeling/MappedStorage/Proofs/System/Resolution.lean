import MappedStorage.Mapping.TrackedFile

/-!
What a path leads to while files change. A walk reads the names of a tree and nothing else
(`walk_congr`), so it does not see what becomes of the contents of files (`SameNames`). Where a file
is made for a path, the path leads to that file from then on (`openOrCreate_correct`).
-/

namespace MappedStorage.FileSystem

/-- Two file systems with the same names, whatever their files hold. -/
structure SameNames (fs fs' : FileSystem) : Prop where
  directories : fs'.directories = fs.directories
  workingDirectory : fs'.workingDirectory = fs.workingDirectory
  nextFile : fs'.nextFile = fs.nextFile

/-- The bytes of the file that a path leads to; none if it leads to no file. -/
def bytesAt (fs : FileSystem) (path : Path) : Bytes :=
  match fs.openExisting path true with
  | .ok h => (fs.file h.file).contents
  | .error _ => #[]

theorem SameNames.refl (fs : FileSystem) : fs.SameNames fs := ⟨rfl, rfl, rfl⟩

theorem SameNames.trans {a b c : FileSystem} (first : a.SameNames b) (second : b.SameNames c) :
    a.SameNames c :=
  ⟨second.directories.trans first.directories, second.workingDirectory.trans first.workingDirectory,
    second.nextFile.trans first.nextFile⟩

theorem sameNames_setFile (fs : FileSystem) (id : FileId) (f : File) :
    fs.SameNames (fs.setFile id f) := ⟨rfl, rfl, rfl⟩

theorem sameNames_crash (fs : FileSystem) : fs.SameNames fs.crash := ⟨rfl, rfl, rfl⟩

/-! ## Walks -/

/-- A walk reads parents and entries only. -/
theorem walk_congr {fs fs' : FileSystem}
    (parents : ∀ id, (fs'.directory id).parent = (fs.directory id).parent)
    (entries : ∀ holder name, fs'.lookup holder name = fs.lookup holder name) (intent : Intent)
    (links : Nat) (here : DirectoryId) (steps : List (List UInt8)) (slashed : Bool) :
    fs'.walk intent links here steps slashed = fs.walk intent links here steps slashed := by
  fun_induction walk fs intent links here steps slashed <;> rw [walk] <;> grind

/-- What is found when a file may be made is found when one is looked for. -/
theorem walk_reach_of_create {fs : FileSystem} {links : Nat} {here : DirectoryId}
    {steps : List (List UInt8)} {slashed : Bool} {holder : DirectoryId} {name : Name} {id : FileId}
    (found : fs.walk .create links here steps slashed = .ok (.file holder name id)) :
    fs.walk .reach links here steps slashed = .ok (.file holder name id) := by
  fun_induction walk fs .create links here steps slashed <;> rw [walk] <;> grind

/-- A place that is vacant has no entry. -/
theorem lookup_of_vacant {fs : FileSystem} {intent : Intent} {links : Nat} {here : DirectoryId}
    {steps : List (List UInt8)} {slashed : Bool} {holder : DirectoryId} {name : Name}
    (found : fs.walk intent links here steps slashed = .ok (.vacant holder name)) :
    fs.lookup holder name = none := by
  fun_induction walk fs intent links here steps slashed <;> grind

theorem parent_directory_setEntry (fs : FileSystem) (holder : DirectoryId) (name : Name)
    (value : Option Entry) (id : DirectoryId) :
    ((fs.setEntry holder name value).directory id).parent = (fs.directory id).parent := by
  simp only [setEntry, directory_setDirectory]
  split
  · rename_i same
    rw [same]
  · rfl

/-- Once a file is at the vacant place that a walk led to, the walk finds it. Nowhere before its
last step can the walk have met that place, since it would have ended there. -/
theorem walk_reach_setEntry {fs : FileSystem} {links : Nat} {here : DirectoryId}
    {steps : List (List UInt8)} {slashed : Bool} {holder : DirectoryId} {name : Name} (id : FileId)
    (found : fs.walk .create links here steps slashed = .ok (.vacant holder name)) :
    (fs.setEntry holder name (some (.file id))).walk .reach links here steps slashed =
      .ok (.file holder name id) := by
  have free := lookup_of_vacant found
  fun_induction walk fs .create links here steps slashed <;> rw [walk] <;>
    grind [lookup_setEntry, parent_directory_setEntry]

/-- A walk that finds a file finds it after another one was put at a vacant place. -/
theorem walk_reach_setEntry_of_vacant {fs : FileSystem} {holder : DirectoryId} {name : Name}
    (free : fs.lookup holder name = none) (entry : Entry) {links : Nat} {here : DirectoryId}
    {steps : List (List UInt8)} {slashed : Bool} {other : DirectoryId} {sought : Name} {id : FileId}
    (found : fs.walk .reach links here steps slashed = .ok (.file other sought id)) :
    (fs.setEntry holder name (some entry)).walk .reach links here steps slashed =
      .ok (.file other sought id) := by
  fun_induction walk fs .reach links here steps slashed <;> rw [walk] <;>
    grind [lookup_setEntry, parent_directory_setEntry]

/-! ## Opening files -/

/-- Trees with the same directories resolve paths alike. -/
theorem resolve_congr {fs fs' : FileSystem} (directories : fs'.directories = fs.directories)
    (workingDirectory : fs'.workingDirectory = fs.workingDirectory) (intent : Intent) (path : Path) :
    fs'.resolve intent path = fs.resolve intent path := by
  have directory (id : DirectoryId) : fs'.directory id = fs.directory id := by
    rw [FileSystem.directory, FileSystem.directory, directories]
  have walk (intent : Intent) : fs'.walk intent = fs.walk intent := by
    funext links here steps slashed
    exact walk_congr (fun id => by rw [directory])
      (fun holder name => by rw [lookup, lookup, directory]) intent links here steps slashed
  simp only [FileSystem.resolve, walk, workingDirectory]

theorem SameNames.resolve {fs fs' : FileSystem} (same : fs.SameNames fs') (intent : Intent)
    (path : Path) : fs'.resolve intent path = fs.resolve intent path :=
  resolve_congr same.directories same.workingDirectory intent path

/-- A new file is found by its entry. -/
theorem resolve_addFile (fs : FileSystem) (holder : DirectoryId) (name : Name) (f : File)
    (intent : Intent) (path : Path) : (fs.addFile holder name f).resolve intent path =
      (fs.setEntry holder name (some (.file fs.nextFile))).resolve intent path := by
  refine resolve_congr ?_ ?_ intent path <;> rfl

/-- Contents of files make no difference to what a path opens. -/
theorem SameNames.openExisting {fs fs' : FileSystem} (same : fs.SameNames fs') (path : Path)
    (writable : Bool) : fs'.openExisting path writable = fs.openExisting path writable := by
  simp only [FileSystem.openExisting, same.resolve]

/-- A handle that writes is to the file that a path leads to. -/
theorem openExisting_eq_ok_iff {fs : FileSystem} {path : Path} {h : Handle} :
    fs.openExisting path true = .ok h ↔
      ∃ holder name id, fs.resolve .reach path = .ok (.file holder name id) ∧ h = ⟨id, true⟩ := by
  rw [openExisting]
  cases fs.resolve .reach path with
  | error e => simp
  | ok place => cases place <;> simp [and_assoc, eq_comm (a := h)]

/-- What walks come to in another tree, paths come to there. -/
theorem resolve_of_walk {fs fs' : FileSystem} {intent intent' : Intent} {path : Path}
    {place found : Place} (resolved : fs.resolve intent path = .ok place)
    (workingDirectory : fs'.workingDirectory = fs.workingDirectory)
    (walks : ∀ links here steps slashed, fs.walk intent links here steps slashed = .ok place →
      fs'.walk intent' links here steps slashed = .ok found) :
    fs'.resolve intent' path = .ok found := by
  rw [resolve] at resolved ⊢
  split at resolved
  · cases resolved
  · split at resolved
    · cases resolved
    · split at resolved
      · cases resolved
      · rename_i plain nonempty short
        rw [if_neg plain, if_neg nonempty, if_neg short, workingDirectory]
        split at resolved
        · rename_i walked
          cases resolved
          rw [walks _ _ _ _ walked]
        · cases resolved

/-- The place that a path leads to has no entry if it is vacant. -/
theorem lookup_of_resolve {fs : FileSystem} {intent : Intent} {path : Path} {holder : DirectoryId}
    {name : Name} (resolved : fs.resolve intent path = .ok (.vacant holder name)) :
    fs.lookup holder name = none := by
  rw [resolve] at resolved
  split at resolved
  · cases resolved
  · split at resolved
    · cases resolved
    · split at resolved
      · cases resolved
      · split at resolved
        · rename_i walked
          cases resolved
          exact lookup_of_vacant walked
        · cases resolved

/-- The file that opening a path for writing opens, one that it makes included. -/
def target? (fs : FileSystem) (path : Path) : Option FileId :=
  (TrackedFile.openOrCreate fs path).1.toOption.map (·.handle.file)

theorem SameNames.target?_eq {fs fs' : FileSystem} (same : fs.SameNames fs') (path : Path) :
    fs'.target? path = fs.target? path := by
  rw [target?, target?, TrackedFile.openOrCreate, TrackedFile.openOrCreate, same.openExisting,
    FileSystem.openOrCreate, FileSystem.openOrCreate, same.resolve]
  cases fs.openExisting path true with
  | ok h => rfl
  | error e =>
    dsimp only
    split
    · cases fs.resolve .create path with
      | error e => rfl
      | ok place => cases place <;> simp [Except.toOption, same.nextFile, TrackedFile.ofHandle]
    · rfl

/-- A path that leads to a file opens it as it is. -/
theorem openOrCreate_of_leads {fs : FileSystem} {path : Path} {h : Handle}
    (leads : fs.openExisting path true = .ok h) :
    TrackedFile.openOrCreate fs path = (.ok (.ofHandle fs h path), fs) := by
  rw [TrackedFile.openOrCreate, leads]

/-- Paths that lead to a file still do when one is made for another path. -/
theorem openExisting_openOrCreate {fs : FileSystem} (path : Path) {other : Path} {h : Handle}
    (leads : fs.openExisting other true = .ok h) :
    (TrackedFile.openOrCreate fs path).2.openExisting other true = .ok h := by
  rw [TrackedFile.openOrCreate]
  split
  · exact leads
  · split
    · rw [FileSystem.openOrCreate]
      cases resolved : fs.resolve .create path with
      | error e => exact leads
      | ok place =>
        cases place with
        | directory id => exact leads
        | link holder name target => exact leads
        | file holder name id => exact leads
        | vacant holder name =>
          obtain ⟨parent, sought, id, reached, rfl⟩ := openExisting_eq_ok_iff.mp leads
          have free := lookup_of_resolve resolved
          refine openExisting_eq_ok_iff.mpr ⟨parent, sought, id, ?_, rfl⟩
          rw [resolve_addFile]
          exact resolve_of_walk reached rfl fun _ _ _ _ => walk_reach_setEntry_of_vacant free _
    · exact leads

/-- What opening a file for writing comes to. Where it succeeds the path leads to the file, the file
holds what the path led to before, and no other file has changed. -/
def OpenCorrect (fs : FileSystem) (path : Path) (fs' : FileSystem) :
    Except IoError TrackedFile → Prop
  | .ok f => f.path = path ∧ f.handle.writable = true ∧ f.len = (fs'.file f.handle.file).size ∧
      fs'.openExisting path true = .ok f.handle ∧
      (fs'.file f.handle.file).contents = fs.bytesAt path ∧
      ∀ other, other ≠ f.handle.file → fs'.file other = fs.file other
  | .error _ => fs' = fs

theorem openOrCreate_correct (fs : FileSystem) (path : Path) :
    OpenCorrect fs path (TrackedFile.openOrCreate fs path).2 (TrackedFile.openOrCreate fs path).1 := by
  rw [TrackedFile.openOrCreate]
  cases existing : fs.openExisting path true with
  | ok h =>
    obtain ⟨holder, name, id, _, rfl⟩ := openExisting_eq_ok_iff.mp existing
    exact ⟨rfl, rfl, rfl, existing, by rw [bytesAt, existing]; rfl, fun _ _ => rfl⟩
  | error e =>
    have nothing : fs.bytesAt path = #[] := by rw [bytesAt, existing]
    dsimp only
    by_cases missing : e = .os Errno.noEntry
    · rw [if_pos missing, FileSystem.openOrCreate]
      cases resolved : fs.resolve .create path with
      | error e => rfl
      | ok place =>
        cases place with
        | directory id => rfl
        | link holder name target => rfl
        | file holder name id =>
          have reached := resolve_of_walk resolved rfl fun _ _ _ _ => walk_reach_of_create
          have present := openExisting_eq_ok_iff.mpr ⟨holder, name, id, reached, rfl⟩
          rw [existing] at present
          cases present
        | vacant holder name =>
          have reached : (fs.addFile holder name .empty).resolve .reach path =
              .ok (.file holder name fs.nextFile) := by
            rw [resolve_addFile]
            exact resolve_of_walk resolved rfl fun _ _ _ _ => walk_reach_setEntry fs.nextFile
          have made : (fs.addFile holder name .empty).file fs.nextFile = .empty :=
            file_setFile_self ..
          refine ⟨rfl, rfl, rfl, openExisting_eq_ok_iff.mpr ⟨_, _, _, reached, rfl⟩, ?_, ?_⟩
          · rw [nothing]
            exact congrArg File.contents made
          · intro other different
            exact file_setFile_of_ne _ _ different
    · rw [if_neg missing]
      rfl

end MappedStorage.FileSystem
