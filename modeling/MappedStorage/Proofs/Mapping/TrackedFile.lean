import MappedStorage.Mapping.TrackedFile
import MappedStorage.Proofs.System.Contents
import MappedStorage.Proofs.System.Resolution

/-!
What a change of its length does to the file behind a region, and to no other file.
-/

namespace MappedStorage

/-- A length that a file was given. -/
theorem FileSystem.setLength_eq_ok {fs fs' : FileSystem} {h : Handle} {len : Nat}
    (set : fs.setLength h len = .ok fs') :
    len ≤ maxFile ∧ fs' = fs.setFile h.file ((fs.file h.file).resize len) := by
  rw [setLength] at set
  split at set
  · cases set
  · split at set
    · cases set
    · split at set
      · cases set
      · rename_i bound
        cases set
        exact ⟨Nat.le_of_not_lt bound, rfl⟩

/-- Any length within the limits can be given through a handle that writes. -/
theorem FileSystem.setLength_ok (fs : FileSystem) {h : Handle} {len : Nat}
    (writable : h.writable = true) (addressable : len ≤ Word.addressable) (bound : len ≤ maxFile) :
    fs.setLength h len = .ok (fs.setFile h.file ((fs.file h.file).resize len)) := by
  rw [setLength, if_neg (by omega), if_neg (by simp [writable]), if_neg (by omega)]

namespace TrackedFile

/-- A change of the length of a file: the same file is open, and nothing else changes. -/
structure SameFile (f f' : TrackedFile) (fs fs' : FileSystem) : Prop where
  handle : f'.handle = f.handle
  path : f'.path = f.path
  names : fs.SameNames fs'
  others : ∀ other, other ≠ f.handle.file → fs'.file other = fs.file other

/-- A look at the length is no change. -/
theorem SameFile.of_refresh {f f' : TrackedFile} {fs fs' : FileSystem}
    (same : SameFile (f.refresh fs) f' fs fs') : SameFile f f' fs fs' :=
  ⟨same.handle, same.path, same.names, same.others⟩

theorem setLength_sameFile (f : TrackedFile) (len : Nat) (fs : FileSystem) :
    SameFile f (f.setLength len fs).2.1 fs (f.setLength len fs).2.2 := by
  rw [setLength]
  split
  · rename_i fs' set
    obtain ⟨_, rfl⟩ := FileSystem.setLength_eq_ok set
    exact ⟨rfl, rfl, fs.sameNames_setFile .., fun _ different =>
      FileSystem.file_setFile_of_ne _ _ different⟩
  · exact ⟨rfl, rfl, .refl _, fun _ _ => rfl⟩

theorem growTo_sameFile (f : TrackedFile) (len : Nat) (fs : FileSystem) :
    SameFile f (f.growTo len fs).2.1 fs (f.growTo len fs).2.2 := by
  rw [growTo]
  split
  · exact ⟨rfl, rfl, .refl _, fun _ _ => rfl⟩
  · exact (setLength_sameFile (f.refresh fs) len fs).of_refresh

/-- Growing makes a file longer or leaves it, and if it succeeds the file is long enough. -/
theorem growTo_extends (f : TrackedFile) (len : Nat) (fs : FileSystem) :
    (fs.file f.handle.file).Extends ((f.growTo len fs).2.2.file f.handle.file) ∧
      ((f.growTo len fs).1 = .ok () → len ≤ ((f.growTo len fs).2.2.file f.handle.file).size) := by
  rw [growTo]
  split
  · rename_i enough
    exact ⟨.refl _, fun _ => enough⟩
  · rename_i short
    rw [setLength]
    split
    · rename_i fs' set
      obtain ⟨bound, rfl⟩ := FileSystem.setLength_eq_ok set
      have resized : ((fs.setFile f.handle.file ((fs.file f.handle.file).resize len)).file
          f.handle.file) = (fs.file f.handle.file).resize len := FileSystem.file_setFile_self ..
      rw [show (f.refresh fs).handle = f.handle from rfl, resized]
      exact ⟨.inr ⟨len, Nat.lt_of_not_le short, bound, rfl⟩, fun _ => Nat.le_refl _⟩
    · exact ⟨.refl _, nofun⟩

theorem trimTo_sameFile (f : TrackedFile) (len : Nat) (fs : FileSystem) :
    SameFile f (f.trimTo len fs).2.1 fs (f.trimTo len fs).2.2 := by
  rw [trimTo]
  split
  · exact (setLength_sameFile (f.refresh fs) len fs).of_refresh
  · exact ⟨rfl, rfl, .refl _, fun _ _ => rfl⟩

/-- Trimming to a length that a file can have cuts the file off there. -/
theorem trimTo_file {f : TrackedFile} {len : Nat} {fs : FileSystem}
    (writable : f.handle.writable = true) (addressable : len ≤ Word.addressable)
    (bound : len < (fs.file f.handle.file).size → len ≤ FileSystem.maxFile) :
    (f.trimTo len fs).1 = .ok () ∧ (f.trimTo len fs).2.2.file f.handle.file =
      if len < (fs.file f.handle.file).size then (fs.file f.handle.file).resize len
      else fs.file f.handle.file := by
  rw [trimTo]
  split
  · rename_i longer
    have set := fs.setLength_ok (h := f.handle) writable addressable (bound longer)
    rw [setLength, show (f.refresh fs).handle = f.handle from rfl, set,
      if_pos (show len < (fs.file f.handle.file).size from longer)]
    exact ⟨rfl, FileSystem.file_setFile_self ..⟩
  · rename_i short
    exact ⟨rfl, (if_neg short).symm⟩

end TrackedFile
end MappedStorage
