import MappedStorage.Proofs.System.Resolution

/-!
Lengths of files while a file system changes. Every name of a file is that of one that has been made
(`FileSystem.Tidy`), so a file that is made anew is none of those. As long as no file that is there
gets shorter (`FileSystem.Lengthens`), names may come and go and files be made and grow.
-/

namespace MappedStorage.FileSystem

/-- The names of files are those of files that have been made. -/
def Tidy (fs : FileSystem) : Prop :=
  ∀ holder name id, fs.lookup holder name = some (.file id) → id < fs.nextFile

/-- No file gets shorter, and none is taken for a new one. -/
structure Lengthens (fs fs' : FileSystem) : Prop where
  next : fs.nextFile ≤ fs'.nextFile
  tidy : fs.Tidy → fs'.Tidy
  size_le : ∀ id, id < fs.nextFile → (fs.file id).size ≤ (fs'.file id).size

variable {fs fs' fs'' : FileSystem}

theorem tidy_empty : empty.Tidy := by
  intro holder name id found
  rw [lookup, directory] at found
  cases found

theorem Lengthens.refl (fs : FileSystem) : fs.Lengthens fs :=
  ⟨Nat.le_refl _, id, fun _ _ => Nat.le_refl _⟩

theorem Lengthens.trans (first : fs.Lengthens fs') (second : fs'.Lengthens fs'') :
    fs.Lengthens fs'' := by
  refine ⟨Nat.le_trans first.next second.next, fun tidy => second.tidy (first.tidy tidy), ?_⟩
  intro id made
  exact Nat.le_trans (first.size_le id made)
    (second.size_le id (Nat.lt_of_lt_of_le made first.next))

theorem SameNames.lookup_eq (same : fs.SameNames fs') (holder : DirectoryId) (name : Name) :
    fs'.lookup holder name = fs.lookup holder name := by
  rw [lookup, lookup, directory, directory, same.directories]

theorem SameNames.tidy (same : fs.SameNames fs') (tidy : fs.Tidy) : fs'.Tidy := by
  intro holder name id found
  rw [same.lookup_eq] at found
  rw [same.nextFile]
  exact tidy holder name id found

theorem SameNames.lengthens (same : fs.SameNames fs')
    (size_le : ∀ id, (fs.file id).size ≤ (fs'.file id).size) : fs.Lengthens fs' :=
  ⟨Nat.le_of_eq same.nextFile.symm, same.tidy, fun id _ => size_le id⟩

/-- A file with other contents, and no fewer of them. -/
theorem lengthens_setFile (fs : FileSystem) {id : FileId} {f : File}
    (size_le : (fs.file id).size ≤ f.size) : fs.Lengthens (fs.setFile id f) := by
  refine (fs.sameNames_setFile id f).lengthens ?_
  intro other
  rw [file_setFile]
  split
  · rename_i here
    rw [here]
    exact size_le
  · exact Nat.le_refl _

/-- A name that is removed leaves its file. -/
theorem lengthens_setEntry_none (fs : FileSystem) (holder : DirectoryId) (name : Name) :
    fs.Lengthens (fs.setEntry holder name none) := by
  refine ⟨Nat.le_refl _, fun tidy => ?_, fun id _ => Nat.le_of_eq (by rw [file_setEntry])⟩
  intro other called id found
  rw [lookup_setEntry] at found
  split at found
  · cases found
  · exact tidy other called id found

theorem unlink_lengthens {path : Path} (unlinked : fs.unlink path = .ok fs') :
    fs.Lengthens fs' := by
  rw [unlink] at unlinked
  cases resolved : fs.resolve .rename path with
  | error e =>
    rw [resolved] at unlinked
    cases unlinked
  | ok place =>
    rw [resolved] at unlinked
    cases place with
    | directory id => cases unlinked
    | vacant holder name => cases unlinked
    | file holder name id | link holder name target =>
      dsimp only at unlinked
      split at unlinked
      · cases unlinked
      · cases unlinked
        exact fs.lengthens_setEntry_none holder name

theorem file_unlink {path : Path} (unlinked : fs.unlink path = .ok fs') (id : FileId) :
    fs'.file id = fs.file id := by
  rw [unlink] at unlinked
  split at unlinked
  · cases unlinked
  · cases unlinked
  · cases unlinked
  all_goals
    split at unlinked
    · cases unlinked
    · cases unlinked
      rfl

/-- A file that is made is none of those that were there. -/
theorem lengthens_addFile (fs : FileSystem) (holder : DirectoryId) (name : Name) :
    fs.Lengthens (fs.addFile holder name .empty) := by
  refine ⟨Nat.le_succ _, fun tidy => ?_, ?_⟩
  · intro other called id found
    have entry : (fs.setEntry holder name (some (.file fs.nextFile))).lookup other called =
      some (.file id) := found
    rw [lookup_setEntry] at entry
    split at entry
    · cases entry
      exact Nat.lt_succ_self _
    · exact Nat.lt_succ_of_lt (tidy other called id entry)
  · intro id made
    have kept : (fs.addFile holder name .empty).file id = fs.file id :=
      file_setFile_of_ne _ _ (Nat.ne_of_lt made)
    exact Nat.le_of_eq (congrArg File.size kept.symm)

/-- A file that a walk finds has a name. -/
theorem lookup_of_walk_file {intent : Intent} {links : Nat} {here : DirectoryId}
    {steps : List (List UInt8)} {slashed : Bool} {holder : DirectoryId} {name : Name} {id : FileId}
    (found : fs.walk intent links here steps slashed = .ok (.file holder name id)) :
    fs.lookup holder name = some (.file id) := by
  fun_induction walk fs intent links here steps slashed <;> grind

theorem lookup_of_resolve_file {intent : Intent} {path : Path} {holder : DirectoryId} {name : Name}
    {id : FileId} (resolved : fs.resolve intent path = .ok (.file holder name id)) :
    fs.lookup holder name = some (.file id) := by
  rw [resolve] at resolved
  split at resolved
  · cases resolved
  · split at resolved
    · cases resolved
    · split at resolved
      · cases resolved
      · split at resolved
        · rename_i walked
          cases resolved
          exact lookup_of_walk_file walked
        · cases resolved

/-- A file that a path opens has been made. -/
theorem Tidy.made (tidy : fs.Tidy) {path : Path} {h : Handle}
    (leads : fs.openExisting path true = .ok h) : h.file < fs.nextFile := by
  obtain ⟨holder, name, id, resolved, rfl⟩ := openExisting_eq_ok_iff.mp leads
  exact tidy holder name id (lookup_of_resolve_file resolved)

theorem openOrCreate_lengthens (fs : FileSystem) (path : Path) :
    fs.Lengthens (TrackedFile.openOrCreate fs path).2 := by
  rw [TrackedFile.openOrCreate]
  split
  · exact .refl fs
  · split
    · rw [FileSystem.openOrCreate]
      cases resolved : fs.resolve .create path with
      | error e => exact .refl fs
      | ok place =>
        cases place with
        | directory id => exact .refl fs
        | link holder name target => exact .refl fs
        | file holder name id => exact .refl fs
        | vacant holder name => exact fs.lengthens_addFile holder name
    · exact .refl fs

end MappedStorage.FileSystem
