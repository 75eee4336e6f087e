import MappedStorage.Proofs.System.Tree

/-!
Trees under requests. The first file system is a tree (`isTree_empty`), and what the requests do to
one is one of three things: files change, a name comes or goes that no directory has
(`IsTree.setEntry`), or a directory is put where there was nothing (`IsTree.addDirectory`). So every
request leaves a tree (`IsTree.serve`), and whatever a file system has been asked for, it is one
(`IsTree.run`).
-/

namespace MappedStorage.FileSystem

/-- The directories stay where they are. -/
structure SameBranches (fs fs' : FileSystem) : Prop where
  parent : ∀ id, (fs'.directory id).parent = (fs.directory id).parent
  trail : ∀ id, (fs'.directory id).trail = (fs.directory id).trail
  branch : ∀ holder name id,
    fs'.lookup holder name = some (.directory id) ↔ fs.lookup holder name = some (.directory id)
  nextDirectory : fs'.nextDirectory = fs.nextDirectory

variable {fs fs' : FileSystem} {holder id : DirectoryId} {name : Name} {path : Path}

theorem SameBranches.of_directories (directories : fs'.directories = fs.directories)
    (nextDirectory : fs'.nextDirectory = fs.nextDirectory) : fs.SameBranches fs' := by
  have directory (id : DirectoryId) : fs'.directory id = fs.directory id := by
    rw [FileSystem.directory, FileSystem.directory, directories]
  refine ⟨fun id => by rw [directory], fun id => by rw [directory], fun holder name id => ?_,
    nextDirectory⟩
  rw [lookup, lookup, directory]

theorem SameBranches.attached_iff (same : fs.SameBranches fs') :
    fs'.Attached id ↔ fs.Attached id := by
  refine ⟨fun attached => ?_, fun attached => ?_⟩
  · induction attached with
    | root => exact .root
    | inside _ found ih => exact .inside ih ((same.branch ..).mp found)
  · induction attached with
    | root => exact .root
    | inside _ found ih => exact .inside ih ((same.branch ..).mpr found)

/-- A tree whose directories stay is a tree still, if the names in it are fit and the working
directory is one of its directories. -/
theorem IsTree.of_sameBranches (tree : fs.IsTree) (same : fs.SameBranches fs')
    (named : ∀ {holder name entry}, fs.Attached holder → fs'.lookup holder name = some entry →
      IsEntryName name)
    (working : fs.Attached fs'.workingDirectory) : fs'.IsTree where
  rootParent := (same.parent root).trans tree.rootParent
  rootTrail := (same.trail root).trans tree.rootTrail
  named attached := named (same.attached_iff.mp attached)
  parent attached found :=
    (same.parent _).trans (tree.parent (same.attached_iff.mp attached) ((same.branch ..).mp found))
  trail {holder name id} attached found := by
    rw [same.trail, same.trail]
    exact tree.trail (same.attached_iff.mp attached) ((same.branch ..).mp found)
  numbered attached := by
    rw [same.nextDirectory]
    exact tree.numbered (same.attached_iff.mp attached)
  working := same.attached_iff.mpr working

/-! ## Changes -/

theorem isTree_empty : empty.IsTree := by
  have nothing (holder : DirectoryId) (name : Name) : empty.lookup holder name = none := rfl
  have only {id : DirectoryId} (attached : empty.Attached id) : id = root := by
    cases attached with
    | root => rfl
    | inside _ found => cases (nothing _ _).symm.trans found
  refine ⟨rfl, rfl, fun _ found => ?_, fun _ found => ?_, fun _ found => ?_, fun attached => ?_, .root⟩
  · cases (nothing _ _).symm.trans found
  · cases (nothing _ _).symm.trans found
  · cases (nothing _ _).symm.trans found
  · rw [only attached]
    exact Nat.lt_succ_self root

/-- What becomes of files does not show in the tree. -/
theorem IsTree.of_directories (tree : fs.IsTree) (directories : fs'.directories = fs.directories)
    (nextDirectory : fs'.nextDirectory = fs.nextDirectory)
    (working : fs.Attached fs'.workingDirectory) : fs'.IsTree := by
  refine tree.of_sameBranches (.of_directories directories nextDirectory) ?_ working
  intro holder name entry attached found
  rw [lookup, directory, directories] at found
  exact tree.named attached found

theorem IsTree.setFile (tree : fs.IsTree) (id : FileId) (f : File) : (fs.setFile id f).IsTree :=
  tree.of_directories rfl rfl tree.working

theorem IsTree.crash (tree : fs.IsTree) : fs.crash.IsTree :=
  tree.of_directories rfl rfl tree.working

theorem trail_directory_setEntry (fs : FileSystem) (holder : DirectoryId) (name : Name)
    (value : Option Entry) (id : DirectoryId) :
    ((fs.setEntry holder name value).directory id).trail = (fs.directory id).trail := by
  simp only [setEntry, directory_setDirectory]
  split
  · rename_i same
    rw [same]
  · rfl

/-- A name comes, goes or changes its meaning, and is that of no directory before or after. -/
theorem IsTree.setEntry (tree : fs.IsTree) (named : IsEntryName name) {value : Option Entry}
    (before : ∀ id, fs.lookup holder name ≠ some (.directory id))
    (after : ∀ id, value ≠ some (.directory id)) : (fs.setEntry holder name value).IsTree := by
  have same : fs.SameBranches (fs.setEntry holder name value) := by
    refine ⟨parent_directory_setEntry fs holder name value, trail_directory_setEntry fs holder name value,
      fun other called id => ?_, rfl⟩
    rw [lookup_setEntry]
    split
    · rename_i here
      rw [here.1, here.2]
      exact iff_of_false (after id) (before id)
    · exact Iff.rfl
  refine tree.of_sameBranches same ?_ tree.working
  intro other called entry attached found
  rw [lookup_setEntry] at found
  split at found
  · rename_i here
    rw [here.2]
    exact named
  · exact tree.named attached found

theorem IsTree.addFile (tree : fs.IsTree) (named : IsEntryName name)
    (vacant : fs.lookup holder name = none) (f : File) : (fs.addFile holder name f).IsTree := by
  have put : (fs.setEntry holder name (some (.file fs.nextFile))).IsTree :=
    tree.setEntry named (fun id found => nomatch vacant.symm.trans found) nofun
  exact put.of_directories rfl rfl put.working

theorem directory_addDirectory (fs : FileSystem) (holder : DirectoryId) (name : Name)
    (id : DirectoryId) : (fs.addDirectory holder name).directory id =
      if id = fs.nextDirectory then ⟨holder, name :: (fs.directory holder).trail, ∅⟩
      else (fs.setEntry holder name (some (.directory fs.nextDirectory))).directory id :=
  directory_setDirectory ..

/-- The new directory is empty, its name stands for it, and all other names are as before. -/
theorem lookup_addDirectory (fs : FileSystem) (holder : DirectoryId) (name : Name)
    (other : DirectoryId) (called : Name) : (fs.addDirectory holder name).lookup other called =
      if other = fs.nextDirectory then none
      else if other = holder ∧ called = name then some (.directory fs.nextDirectory)
      else fs.lookup other called := by
  rw [lookup, directory_addDirectory]
  split
  · rfl
  · exact lookup_setEntry ..

theorem directory_addDirectory_of_lt (name : Name) (older : id < fs.nextDirectory) :
    ((fs.addDirectory holder name).directory id).parent = (fs.directory id).parent ∧
      ((fs.addDirectory holder name).directory id).trail = (fs.directory id).trail := by
  rw [directory_addDirectory, if_neg (Nat.ne_of_lt older)]
  exact ⟨parent_directory_setEntry .., trail_directory_setEntry ..⟩

/-- What is below the root afterwards was there before, or is the new directory. -/
theorem attached_of_addDirectory (attached : (fs.addDirectory holder name).Attached id) :
    fs.Attached id ∨ id = fs.nextDirectory := by
  induction attached with
  | root => exact .inl .root
  | inside _ found ih =>
    rw [lookup_addDirectory] at found
    split at found
    · cases found
    · rename_i old
      split at found
      · cases found
        exact .inr rfl
      · exact .inl (.inside (ih.resolve_right old) found)

theorem attached_addDirectory (tree : fs.IsTree) (vacant : fs.lookup holder name = none)
    (attached : fs.Attached id) : (fs.addDirectory holder name).Attached id := by
  induction attached with
  | root => exact .root
  | @inside other id called above found ih =>
    have kept : (fs.addDirectory holder name).lookup other called = some (.directory id) := by
      rw [lookup_addDirectory, if_neg (Nat.ne_of_lt (tree.numbered above)), if_neg]
      · exact found
      · rintro ⟨rfl, rfl⟩
        cases vacant.symm.trans found
    exact .inside ih kept

theorem IsTree.addDirectory (tree : fs.IsTree) (attached : fs.Attached holder)
    (named : IsEntryName name) (vacant : fs.lookup holder name = none) :
    (fs.addDirectory holder name).IsTree := by
  have rooted : root < fs.nextDirectory := tree.numbered .root
  have older := tree.numbered attached
  -- An entry of the new tree is the new directory, or an entry of the tree before.
  have cases_found {other : DirectoryId} {called : Name} {entry : Entry}
      (above : (fs.addDirectory holder name).Attached other)
      (found : (fs.addDirectory holder name).lookup other called = some entry) :
      (other = holder ∧ called = name ∧ entry = .directory fs.nextDirectory) ∨
        (fs.Attached other ∧ fs.lookup other called = some entry) := by
    rw [lookup_addDirectory] at found
    split at found
    · cases found
    · rename_i old
      split at found
      · rename_i here
        cases found
        exact .inl ⟨here.1, here.2, rfl⟩
      · exact .inr ⟨(attached_of_addDirectory above).resolve_right old, found⟩
  have made : (fs.addDirectory holder name).directory fs.nextDirectory =
      ⟨holder, name :: (fs.directory holder).trail, ∅⟩ := by
    rw [directory_addDirectory, if_pos rfl]
  refine ⟨?_, ?_, fun above found => ?_, fun above found => ?_, fun above found => ?_,
    fun above => ?_, attached_addDirectory tree vacant tree.working⟩
  · rw [(directory_addDirectory_of_lt name rooted).1, tree.rootParent]
  · rw [(directory_addDirectory_of_lt name rooted).2, tree.rootTrail]
  · obtain ⟨-, rfl, -⟩ | ⟨above, found⟩ := cases_found above found
    · exact named
    · exact tree.named above found
  · obtain ⟨rfl, -, same⟩ | ⟨above, found⟩ := cases_found above found
    · cases same
      rw [made]
    · rw [(directory_addDirectory_of_lt name (tree.numbered (.inside above found))).1]
      exact tree.parent above found
  · obtain ⟨rfl, rfl, same⟩ | ⟨above, found⟩ := cases_found above found
    · cases same
      rw [made, (directory_addDirectory_of_lt _ older).2]
    · rw [(directory_addDirectory_of_lt name (tree.numbered (.inside above found))).2,
        (directory_addDirectory_of_lt name (tree.numbered above)).2]
      exact tree.trail above found
  · obtain old | rfl := attached_of_addDirectory above
    · exact Nat.lt_succ_of_lt (tree.numbered old)
    · exact Nat.lt_succ_self _

/-! ## Requests -/

theorem IsTree.stands_of_resolve (tree : fs.IsTree) {intent : Intent} {place : Place}
    (resolved : fs.resolve intent path = .ok place) : place.Stands fs := by
  obtain ⟨_, leads⟩ := resolve_eq_ok_iff.mp resolved
  exact leads.stands tree

theorem IsTree.openOrCreate (tree : fs.IsTree) (path : Path) : (fs.openOrCreate path).2.IsTree := by
  rw [FileSystem.openOrCreate]
  split
  · exact tree
  · rename_i holder name resolved
    obtain ⟨_, named, vacant⟩ := tree.stands_of_resolve resolved
    exact tree.addFile named vacant .empty
  · exact tree
  · exact tree

theorem IsTree.setLength (tree : fs.IsTree) {h : Handle} {len : Nat}
    (done : fs.setLength h len = .ok fs') : fs'.IsTree := by
  rw [FileSystem.setLength] at done
  split at done
  · cases done
  · split at done
    · cases done
    · split at done
      · cases done
      · cases done
        exact tree.setFile ..

theorem IsTree.unlink (tree : fs.IsTree) (done : fs.unlink path = .ok fs') : fs'.IsTree := by
  rw [FileSystem.unlink] at done
  have removed {holder : DirectoryId} {name : Name} {entry : Entry} (named : IsEntryName name)
      (found : fs.lookup holder name = some entry) (other : ∀ id, entry ≠ .directory id) :
      (fs.setEntry holder name none).IsTree :=
    tree.setEntry named (fun id same => other id (Option.some.inj (found.symm.trans same))) nofun
  split at done
  · cases done
  · cases done
  · cases done
  · rename_i holder name id resolved
    obtain ⟨_, named, found⟩ := tree.stands_of_resolve resolved
    split at done
    · cases done
    · cases done
      exact removed named found nofun
  · rename_i holder name target resolved
    obtain ⟨_, named, found⟩ := tree.stands_of_resolve resolved
    split at done
    · cases done
    · cases done
      exact removed named found nofun

theorem IsTree.makeLink (tree : fs.IsTree) {target : Path}
    (done : fs.makeLink target path = .ok fs') : fs'.IsTree := by
  rw [FileSystem.makeLink] at done
  split at done
  · cases done
  · split at done
    · cases done
    · split at done
      · cases done
      · split at done
        · cases done
        · rename_i holder name resolved
          obtain ⟨_, named, vacant⟩ := tree.stands_of_resolve resolved
          split at done
          · cases done
          · cases done
            exact tree.setEntry named (fun id found => nomatch vacant.symm.trans found) nofun
        · cases done

theorem IsTree.makeDirectory (tree : fs.IsTree) (done : fs.makeDirectory path = .ok fs') :
    fs'.IsTree := by
  rw [FileSystem.makeDirectory] at done
  split at done
  · cases done
  · rename_i holder name resolved
    cases done
    obtain ⟨attached, named, vacant⟩ := tree.stands_of_resolve resolved
    exact tree.addDirectory attached named vacant
  · cases done

theorem IsTree.passDirectory (tree : fs.IsTree) (done : fs.passDirectory path = .ok fs') :
    fs'.IsTree := by
  rw [FileSystem.passDirectory] at done
  split at done
  · rename_i made
    cases done
    exact tree.makeDirectory made
  · split at done
    · cases done
      exact tree
    · cases done

theorem IsTree.makeAlong (tree : fs.IsTree) (paths : List Path) : (fs.makeAlong paths).2.IsTree := by
  induction paths with
  | nil => exact tree
  | cons path above ih =>
    rw [FileSystem.makeAlong]
    split
    · rename_i passed
      exact tree.passDirectory passed
    · split
      · split
        · rename_i same
          rw [same] at ih
          exact ih
        · rename_i same
          rw [same] at ih
          split
          · rename_i passed
            exact ih.passDirectory passed
          · exact ih
      · exact tree

theorem IsTree.makeDirectories (tree : fs.IsTree) (path : Path) :
    (fs.makeDirectories path).2.IsTree := tree.makeAlong _

theorem IsTree.changeDirectory (tree : fs.IsTree) (done : fs.changeDirectory path = .ok fs') :
    fs'.IsTree := by
  rw [FileSystem.changeDirectory] at done
  split at done
  · cases done
  · rename_i id found
    cases done
    refine tree.of_directories rfl rfl ?_
    rw [stat, entryAt] at found
    split at found
    · cases found
    · rename_i place resolved
      have stands := tree.stands_of_resolve resolved
      cases place <;> cases found
      exact stands
  · cases done

theorem IsTree.setContents (tree : fs.IsTree) {data : Bytes}
    (done : fs.setContents path data = .ok fs') : fs'.IsTree := by
  have opened := tree.openOrCreate path
  rw [FileSystem.setContents] at done
  split at done
  · cases done
  · rename_i h between same
    cases done
    rw [same] at opened
    exact opened.setFile ..

/-! ## Runs -/

/-- What changes a file system. -/
inductive Request where
  | openOrCreate (path : Path)
  | setLength (h : Handle) (len : Nat)
  /-- Stores something in a file, through a handle or a mapping. -/
  | setFile (id : FileId) (f : File)
  | setContents (path : Path) (data : Bytes)
  | unlink (path : Path)
  | makeLink (target path : Path)
  | makeDirectory (path : Path)
  | makeDirectories (path : Path)
  | changeDirectory (path : Path)
  | crash

/-- The file system after a request. One that is refused changes nothing, but that directories above
the path which could be made are there. -/
def serve (fs : FileSystem) : Request → FileSystem
  | .openOrCreate path => (fs.openOrCreate path).2
  | .setLength h len => (fs.setLength h len).toOption.getD fs
  | .setFile id f => fs.setFile id f
  | .setContents path data => (fs.setContents path data).toOption.getD fs
  | .unlink path => (fs.unlink path).toOption.getD fs
  | .makeLink target path => (fs.makeLink target path).toOption.getD fs
  | .makeDirectory path => (fs.makeDirectory path).toOption.getD fs
  | .makeDirectories path => (fs.makeDirectories path).2
  | .changeDirectory path => (fs.changeDirectory path).toOption.getD fs
  | .crash => fs.crash

/-- The file system after some requests. -/
def run (fs : FileSystem) (requests : List Request) : FileSystem := requests.foldl serve fs

theorem IsTree.getD (tree : fs.IsTree) {result : Except IoError FileSystem}
    (done : ∀ {fs'}, result = .ok fs' → fs'.IsTree) : (result.toOption.getD fs).IsTree := by
  cases result with
  | error e => exact tree
  | ok fs' => exact done rfl

theorem IsTree.serve (tree : fs.IsTree) (request : Request) : (fs.serve request).IsTree := by
  cases request with
  | openOrCreate path => exact tree.openOrCreate path
  | setLength h len => exact tree.getD tree.setLength
  | setFile id f => exact tree.setFile id f
  | setContents path data => exact tree.getD tree.setContents
  | unlink path => exact tree.getD tree.unlink
  | makeLink target path => exact tree.getD tree.makeLink
  | makeDirectory path => exact tree.getD tree.makeDirectory
  | makeDirectories path => exact tree.makeDirectories path
  | changeDirectory path => exact tree.getD tree.changeDirectory
  | crash => exact tree.crash

/-- Whatever a tree is asked for, it is one afterwards. -/
theorem IsTree.run (tree : fs.IsTree) (requests : List Request) : (fs.run requests).IsTree := by
  induction requests generalizing fs with
  | nil => exact tree
  | cons request rest ih => exact ih (tree.serve request)

end MappedStorage.FileSystem
