import MappedStorage.Mapping.Region
import MappedStorage.Proofs.Capacity
import MappedStorage.Proofs.Mapping.Mapper
import MappedStorage.Proofs.Mapping.TrackedFile

/-!
What the operations of an open region keep. A region is `Sound` if its mapping shows the file, covers
the used bytes and ends within the file. If nothing else stores to the file it is `Clear`: past the used
bytes there are only zeros; if nothing else maps it the region is `Alone` with it. Growing makes the file longer (`Grown`), writing lays bytes over it
(`write_correct`), and flushing changes none (`flush_settled`).
-/

namespace MappedStorage.Region

/-- The file behind a region. -/
def fileId (r : Region) : FileId := r.file.handle.file

/-- What the file behind a region holds. -/
def backing (r : Region) (p : Platform) : File := p.files.file r.fileId

/-- An open region whose mapping shows its file, covers the used bytes and ends within the file. -/
structure Sound (r : Region) (p : Platform) : Prop where
  isOpen : r.closed = false
  writable : r.file.handle.writable = true
  shows : ∀ m ∈ r.mapped, m.file = r.fileId
  used_le : r.used ≤ r.capacity
  capacity_le : r.capacity ≤ (r.backing p).size
  addressable : r.capacity ≤ Word.addressable

/-- What holds of an open region whatever happens to its file: its mapping shows the file and covers the
used bytes. -/
structure Fitted (r : Region) : Prop where
  isOpen : r.closed = false
  shows : ∀ m ∈ r.mapped, m.file = r.fileId
  used_le : r.used ≤ r.capacity

/-- A sound region that has its file to itself: no other mapping shows the file, and the bytes past
the used length are zero. -/
structure Alone (r : Region) (p : Platform) : Prop extends Sound r p where
  only : (p.mappingsOf r.fileId).Perm r.mapped.toList
  zeros : ∀ i, r.used ≤ i → i < (r.backing p).size → (r.backing p).byte i = 0
  bounded : r.used < (r.backing p).size → (r.backing p).size ≤ FileSystem.maxFile

/-- A sound region whose file has only zeros past the used bytes. -/
structure Clear (r : Region) (p : Platform) : Prop extends Sound r p where
  zeros : ∀ i, r.used ≤ i → i < (r.backing p).size → (r.backing p).byte i = 0
  bounded : r.used < (r.backing p).size → (r.backing p).size ≤ FileSystem.maxFile

/-- A region at two times: over the same file, set up the same way. -/
structure SameRegion (r r' : Region) : Prop where
  handle : r'.file.handle = r.file.handle
  path : r'.file.path = r.file.path
  setup : r'.setup = r.setup
  closed : r'.closed = r.closed

/-- What an operation leaves alone: other files, and the mappings of other
files. Of its own file the region has as many mappings as before. -/
structure Kept (r : Region) (p : Platform) (r' : Region) (p' : Platform) : Prop where
  same : r.SameRegion r'
  onlyFile : p.OnlyFile r.fileId p'
  only : (p.mappingsOf r.fileId).Perm r.mapped.toList →
    (p'.mappingsOf r.fileId).Perm r'.mapped.toList

/-- What growing does, whether or not it succeeds: the file may be longer and mapped anew, and no
byte of it has changed. -/
structure Grown (r : Region) (p : Platform) (r' : Region) (p' : Platform) : Prop
    extends Kept r p r' p' where
  used : r'.used = r.used
  longer : (r.backing p).Extends (p'.files.file r.fileId)
  shows : ∀ m ∈ r'.mapped, m.file = r.fileId

variable {r r' : Region} {p p' : Platform}

theorem SameRegion.refl (r : Region) : r.SameRegion r := ⟨rfl, rfl, rfl, rfl⟩

theorem SameRegion.trans {a b c : Region} (first : a.SameRegion b) (second : b.SameRegion c) :
    a.SameRegion c :=
  ⟨second.handle.trans first.handle, second.path.trans first.path, second.setup.trans first.setup,
    second.closed.trans first.closed⟩

theorem SameRegion.fileId_eq (same : r.SameRegion r') : r'.fileId = r.fileId :=
  congrArg Handle.file same.handle

theorem SameRegion.backing_eq (same : r.SameRegion r') (p : Platform) :
    r'.backing p = p.files.file r.fileId := by rw [backing, same.fileId_eq]

theorem Alone.clear (alone : r.Alone p) : r.Clear p := ⟨alone.toSound, alone.zeros, alone.bounded⟩

theorem Clear.alone (clear : r.Clear p) (only : (p.mappingsOf r.fileId).Perm r.mapped.toList) :
    r.Alone p := ⟨clear.toSound, only, clear.zeros, clear.bounded⟩

theorem Sound.used_le_size (sound : r.Sound p) : r.used ≤ (r.backing p).size :=
  Nat.le_trans sound.used_le sound.capacity_le

theorem Sound.used_le_addressable (sound : r.Sound p) : r.used ≤ Word.addressable :=
  Nat.le_trans sound.used_le sound.addressable

theorem capacity_eq_of_mapped {m : Mapping} (mapped : r.mapped = some m) : r.capacity = m.len := by
  rw [capacity, mapped]

/-- A region with room is mapped. -/
theorem exists_mapping (room : 0 < r.capacity) : ∃ m, r.mapped = some m := by
  rw [capacity] at room
  split at room
  · exact ⟨_, by assumption⟩
  · cases room

theorem Sound.fitted (sound : r.Sound p) : r.Fitted := ⟨sound.isOpen, sound.shows, sound.used_le⟩

/-- A region without a mapping has no used bytes. -/
theorem Fitted.used_eq_zero (fitted : r.Fitted) (unmapped : r.mapped = none) : r.used = 0 := by
  have none : r.capacity = 0 := by rw [capacity, unmapped]
  exact Nat.le_zero.mp (none ▸ fitted.used_le)

/-! ## Growing -/

theorem Kept.refl (r : Region) (p : Platform) : Kept r p r p := ⟨.refl r, .refl .., id⟩

theorem Kept.trans {s : Region} {q : Platform} (first : Kept r p s q) (second : Kept s q r' p') :
    Kept r p r' p' := by
  have file := first.same.fileId_eq
  refine ⟨first.same.trans second.same, first.onlyFile.trans (file ▸ second.onlyFile), fun only => ?_⟩
  have later := first.only only
  rw [← file] at later ⊢
  exact second.only later

theorem Grown.refl (shows : ∀ m ∈ r.mapped, m.file = r.fileId) : Grown r p r p :=
  ⟨.refl r p, rfl, .refl _, shows⟩

/-- What mapping a region anew does: the file can not be made long enough, the mapping of it is refused, or
it takes the place of the mapping before. -/
inductive Remaps (r : Region) (capacity : Nat) (p : Platform) :
    Except RegionError Unit → Region → Platform → Prop
  | short {e : IoError} {file : TrackedFile} {files : FileSystem}
      (growth : r.file.growTo capacity p.files = (.error e, file, files)) :
      r.Remaps capacity p (.error (.io r.path e)) { r with file } { p with files }
  | refused {e : MappingError} {file : TrackedFile} {files : FileSystem} {q : Platform}
      (growth : r.file.growTo capacity p.files = (.ok (), file, files))
      (mapping : r.setup.mapper.map file.handle capacity { p with files } = (.error e, q)) :
      r.Remaps capacity p (.error (mapFailure r.path capacity e)) { r with file } q
  | granted {m : Mapping} {medium : Medium} {file : TrackedFile} {files : FileSystem} {q : Platform}
      (growth : r.file.growTo capacity p.files = (.ok (), file, files))
      (mapping : r.setup.mapper.map file.handle capacity { p with files } = (.ok (m, medium), q)) :
      r.Remaps capacity p (.ok ()) { r with file, medium, mapped := some m }
        (r.mapped.elim q fun old => (Mapper.unmap old q).2)

theorem remap_cases {capacity : Nat} {result : Except RegionError Unit}
    (remapped : r.remap capacity p = (result, r', p')) : r.Remaps capacity p result r' p' := by
  rw [remap] at remapped
  rcases growth : r.file.growTo capacity p.files with ⟨_ | _, file, files⟩ <;> rw [growth] at remapped
  · cases remapped
    exact .short growth
  · dsimp only at remapped
    rcases mapping : r.setup.mapper.map file.handle capacity { p with files } with ⟨_ | ⟨m, medium⟩, q⟩ <;>
      rw [mapping] at remapped
    · cases remapped
      exact .refused growth mapping
    · have granted := Remaps.granted growth mapping
      cases old : r.mapped <;> rw [old] at granted remapped <;> cases remapped <;> exact granted

/-- What mapping a region anew with a capacity comes to. -/
def RemapCorrect (r : Region) (capacity : Nat) (r' : Region) (p' : Platform) :
    Except RegionError Unit → Prop
  | .ok () => ∃ m, r'.mapped = some m ∧ m.len = capacity ∧ capacity ≤ (p'.files.file r.fileId).size
  | .error _ => r'.mapped = r.mapped ∧ r'.medium = r.medium

/-- A file is made longer, or not, for the region that is over it. -/
theorem Grown.of_growTo {capacity : Nat} {outcome : Except IoError Unit} {file : TrackedFile}
    {files : FileSystem} (shows : ∀ m ∈ r.mapped, m.file = r.fileId)
    (growth : r.file.growTo capacity p.files = (outcome, file, files)) :
    Grown r p { r with file } { p with files } := by
  have same := r.file.growTo_sameFile capacity p.files
  have longer := (r.file.growTo_extends capacity p.files).1
  rw [growth] at same longer
  exact ⟨⟨⟨same.handle, same.path, rfl, rfl⟩, ⟨same.names, same.others, fun _ _ => .refl _⟩, id⟩, rfl,
    longer, shows⟩

/-- A mapping that takes the place of the one before leaves the region with as many as it had. -/
theorem Kept.of_granted {h : Handle} {len : Nat} {m : Mapping} {medium : Medium} {q : Platform}
    (shows : ∀ m ∈ r.mapped, m.file = r.fileId) (here : h.file = r.fileId)
    (request : Requested h len p q (some m)) :
    Kept r p { r with medium, mapped := some m } (r.mapped.elim q fun old => (Mapper.unmap old q).2) := by
  have only := request.onlyFile
  rw [here] at only
  have m_file : m.file = r.fileId := (request.fits m rfl).1.trans here
  have in_place : (q.mappingsOf r.fileId).Perm (m :: p.mappingsOf r.fileId) := by
    have added := request.mappingsOf r.fileId
    rwa [Option.toList_some, List.filter_cons_of_pos (by simpa using m_file), List.filter_nil] at added
  cases old : r.mapped with
  | none =>
    refine ⟨⟨rfl, rfl, rfl, rfl⟩, only, fun alone => ?_⟩
    rw [old] at alone
    exact in_place.trans (alone.cons m)
  | some before =>
    have before_file := shows before (by rw [old]; rfl)
    refine ⟨⟨rfl, rfl, rfl, rfl⟩, only.trans (before_file ▸ Mapper.unmap_onlyFile before q), fun alone => ?_⟩
    rw [old] at alone
    rw [Option.elim_some, Mapper.unmap_mappingsOf]
    have both : (q.mappingsOf r.fileId).Perm [before, m] :=
      (in_place.trans (alone.cons m)).trans (.swap ..)
    simpa using both.erase before

theorem remap_correct {capacity : Nat} {result : Except RegionError Unit}
    (shows : ∀ m ∈ r.mapped, m.file = r.fileId)
    (remapped : r.remap capacity p = (result, r', p')) :
    Grown r p r' p' ∧ RemapCorrect r capacity r' p' result := by
  cases remap_cases remapped with
  | short growth => exact ⟨.of_growTo shows growth, rfl, rfl⟩
  | @refused e file files _ growth mapping =>
    have lengthened := Grown.of_growTo shows growth
    have request := r.setup.mapper.map_requested file.handle capacity { p with files }
    rw [mapping] at request
    refine ⟨⟨lengthened.toKept.trans ⟨.refl _, request.onlyFile, fun alone => ?_⟩, rfl, ?_, shows⟩, rfl, rfl⟩
    · exact (request.mappingsOf _).trans alone
    · rw [request.files]
      exact lengthened.longer
  | @granted m medium file files q growth mapping =>
    have lengthened := Grown.of_growTo shows growth
    have long_enough := (r.file.growTo_extends capacity p.files).2
    have request := r.setup.mapper.map_requested file.handle capacity { p with files }
    rw [growth] at long_enough
    rw [mapping] at request
    obtain ⟨m_file, m_len⟩ := request.fits m rfl
    have here : file.handle.file = r.fileId := lengthened.same.fileId_eq
    have before_shows : ∀ m ∈ r.mapped, m.file = file.handle.file := by
      rw [here]
      exact shows
    have kept : Kept { r with file } { p with files } { r with file, medium, mapped := some m }
        (r.mapped.elim q fun old => (Mapper.unmap old q).2) := .of_granted before_shows rfl request
    have left : (r.mapped.elim q fun old => (Mapper.unmap old q).2).files = files := by
      cases r.mapped with
      | none => exact request.files
      | some old => exact (Mapper.unmap_files old q).trans request.files
    refine ⟨⟨lengthened.toKept.trans kept, rfl, ?_, ?_⟩, m, rfl, m_len, ?_⟩
    · rw [left]
      exact lengthened.longer
    · rintro n ⟨⟩
      exact m_file.trans here
    · rw [left]
      exact long_enough rfl

/-- A region has zeros past the used bytes where the file gets longer, or bytes within the used length
are stored. -/
theorem Clear.of_extends (clear : r.Clear p) (sound : r'.Sound p') {f : File}
    (longer : (r.backing p).Extends f) (size : (r'.backing p').size = f.size)
    (used : r.used ≤ r'.used) (past : ∀ i, r'.used ≤ i → (r'.backing p').byte i = f.byte i) :
    r'.Clear p' := by
  refine ⟨sound, fun i beyond inside => ?_, fun slack => ?_⟩
  · rw [past i beyond, longer.byte_eq (size ▸ inside)]
    split
    · rename_i before
      exact clear.zeros i (Nat.le_trans used beyond) before
    · rfl
  · rw [size] at slack ⊢
    obtain rfl | ⟨_, _, bound, rfl⟩ := longer
    · exact clear.bounded (Nat.lt_of_le_of_lt used slack)
    · exact bound

/-- A region stays alone with its file as long as it has zeros past the used bytes. -/
theorem Kept.alone (kept : Kept r p r' p') (alone : r.Alone p) (clear : r'.Clear p') : r'.Alone p' :=
  clear.alone (kept.same.fileId_eq ▸ kept.only alone.only)

/-- Growing keeps a region alone with its file, once it is known to be sound. -/
theorem Grown.alone (grown : Grown r p r' p') (alone : r.Alone p) (sound : r'.Sound p') :
    r'.Alone p' := by
  have backing := grown.same.backing_eq p'
  refine grown.toKept.alone alone (alone.clear.of_extends sound grown.longer (by rw [backing])
    (Nat.le_of_eq grown.used.symm) fun _ _ => ?_)
  rw [backing]

/-- Growing keeps a region sound as long as the file covers the capacity, and the capacity the used
bytes. -/
theorem Grown.sound (grown : Grown r p r' p') (sound : r.Sound p) (room : r.used ≤ r'.capacity)
    (within : r'.capacity ≤ (p'.files.file r.fileId).size) (addressable : r'.capacity ≤ Word.addressable) :
    r'.Sound p' := by
  constructor
  case isOpen => rw [grown.same.closed, sound.isOpen]
  case writable => rw [grown.same.handle, sound.writable]
  case shows =>
    rw [grown.same.fileId_eq]
    exact grown.shows
  case used_le =>
    rw [grown.used]
    exact room
  case capacity_le =>
    rw [grown.same.backing_eq]
    exact within
  case addressable => exact addressable

/-- What a region does about a request for capacity: nothing if it is closed, if the capacity covers it or can
not be made to; else it is mapped anew. -/
inductive Reserves (r : Region) (least : Nat) (p : Platform) :
    Except RegionError Unit → Region → Platform → Prop
  | closed (shut : r.closed = true) : r.Reserves least p (.error .closed) r p
  | covered (enough : least ≤ r.capacity) : r.Reserves least p (.ok ()) r p
  | excessive {e : CapacityError} (short : r.capacity < least)
      (growth : r.setup.growth.grow r.capacity least = .error e) :
      r.Reserves least p (.error (.capacity e)) r p
  | refused {g : Enlargement} {e : RegionError} {r' : Region} {p' : Platform}
      (isOpen : r.closed = false) (growth : r.setup.growth.grow r.capacity least = .ok (some g))
      (remapped : r.remap g.capacity p = (.error e, r', p')) : r.Reserves least p (.error e) r' p'
  | enlarged {g : Enlargement} {r' : Region} {p' : Platform} (isOpen : r.closed = false)
      (growth : r.setup.growth.grow r.capacity least = .ok (some g))
      (remapped : r.remap g.capacity p = (.ok (), r', p')) :
      r.Reserves least p (.ok ()) { r' with remaps := r'.remaps + 1 } p'

theorem reserve_cases {least : Nat} {result : Except RegionError Unit}
    (reserved : r.reserve least p = (result, r', p')) : r.Reserves least p result r' p' := by
  rw [reserve] at reserved
  by_cases shut : r.closed = true
  · rw [if_pos shut] at reserved
    cases reserved
    exact .closed shut
  · rw [if_neg shut] at reserved
    rcases growth : r.setup.growth.grow r.capacity least with e | (_ | g) <;> rw [growth] at reserved
    · cases reserved
      refine .excessive (Nat.lt_of_not_le fun enough => ?_) growth
      rw [GrowthRule.grow_eq_none_iff.mpr enough] at growth
      cases growth
    · cases reserved
      exact .covered (GrowthRule.grow_eq_none_iff.mp growth)
    · have isOpen : r.closed = false := Bool.eq_false_iff.mpr shut
      dsimp only at reserved
      rcases remapped : r.remap g.capacity p with ⟨_ | _, s, q⟩ <;> rw [remapped] at reserved
      · cases reserved
        exact .refused isOpen growth remapped
      · cases reserved
        exact .enlarged isOpen growth remapped

/-- What a request for capacity comes to. It is refused only if the capacity does not cover it, and
then the region is mapped as before. -/
def ReserveCorrect (r : Region) (least : Nat) (r' : Region) : Except RegionError Unit → Prop
  | .ok () => least ≤ r'.capacity
  | .error _ => r.capacity < least ∧ r'.mapped = r.mapped ∧ r'.medium = r.medium

theorem reserve_correct {least : Nat} {result : Except RegionError Unit} (sound : r.Sound p)
    (reserved : r.reserve least p = (result, r', p')) :
    Grown r p r' p' ∧ r'.Sound p' ∧ r.capacity ≤ r'.capacity ∧ ReserveCorrect r least r' result := by
  have unchanged : Grown r p r p := .refl sound.shows
  have used_le := sound.used_le
  cases reserve_cases reserved with
  | closed shut => cases sound.isOpen.symm.trans shut
  | covered enough => exact ⟨unchanged, sound, Nat.le_refl _, enough⟩
  | excessive short => exact ⟨unchanged, sound, Nat.le_refl _, short, rfl, rfl⟩
  | refused _ growth remapped =>
    obtain ⟨short, -⟩ := GrowthRule.grow_reaches growth
    obtain ⟨grown, mapped, medium⟩ := remap_correct sound.shows remapped
    have capacity : r'.capacity = r.capacity := by rw [Region.capacity, Region.capacity, mapped]
    have within := Nat.le_trans sound.capacity_le grown.longer.size_le
    rw [← capacity] at used_le within
    exact ⟨grown, grown.sound sound used_le within (capacity ▸ sound.addressable),
      Nat.le_of_eq capacity.symm, short, mapped, medium⟩
  | @enlarged g s _ _ growth remapped =>
    obtain ⟨short, covers, addressable⟩ := GrowthRule.grow_reaches growth
    obtain ⟨grown, m, mapped, m_len, within⟩ := remap_correct sound.shows remapped
    have capacity : ({ s with remaps := s.remaps + 1 } : Region).capacity = g.capacity :=
      (capacity_eq_of_mapped mapped).trans m_len
    have counted : Grown r p { s with remaps := s.remaps + 1 } p' :=
      ⟨⟨⟨grown.same.handle, grown.same.path, grown.same.setup, grown.same.closed⟩,
        grown.onlyFile, grown.only⟩, grown.used, grown.longer, grown.shows⟩
    refine ⟨counted, counted.sound sound ?_ ?_ ?_, ?_,
      Nat.le_trans covers (Nat.le_of_eq capacity.symm)⟩ <;> rw [capacity]
    · omega
    · exact within
    · exact addressable
    · omega

/-! ## Bytes -/

theorem Fitted.validBytes_eq (fitted : r.Fitted) (p : Platform) :
    r.validBytes p = (r.backing p).slice 0 r.used := by
  rw [validBytes]
  cases mapped : r.mapped with
  | none =>
    rw [fitted.used_eq_zero mapped]
    exact (Array.eq_empty_of_size_eq_zero (Patchwork.size_slice ..)).symm
  | some m =>
    have shows := fitted.shows m mapped
    rw [backing, ← shows]
    rfl

theorem validBytes_eq (sound : r.Sound p) : r.validBytes p = (r.backing p).slice 0 r.used :=
  sound.fitted.validBytes_eq p

theorem Fitted.size_validBytes (fitted : r.Fitted) (p : Platform) : (r.validBytes p).size = r.used := by
  rw [fitted.validBytes_eq]
  exact Patchwork.size_slice ..

@[simp] theorem size_validBytes (sound : r.Sound p) : (r.validBytes p).size = r.used :=
  sound.fitted.size_validBytes p

theorem Fitted.getD_validBytes (fitted : r.Fitted) (p : Platform) (i : Nat) :
    (r.validBytes p).getD i 0 = if i < r.used then (r.backing p).byte i else 0 := by
  rw [fitted.validBytes_eq, File.getD_slice, Nat.zero_add]

theorem getD_validBytes (sound : r.Sound p) (i : Nat) :
    (r.validBytes p).getD i 0 = if i < r.used then (r.backing p).byte i else 0 :=
  sound.fitted.getD_validBytes p i

/-- What a region does to write bytes: nothing if it is closed, if there are none or their end is no offset;
else it is asked for the capacity and they are stored. -/
inductive Writes (r : Region) (offset : Nat) (data : Bytes) (p : Platform) :
    Except RegionError Span → Region → Platform → Prop
  | closed (shut : r.closed = true) : r.Writes offset data p (.error .closed) r p
  | beyond (past : Word.max < offset + data.size) :
      r.Writes offset data p (.error (.capacity (.overflow Word.max))) r p
  | empty (nothing : data.size = 0) : r.Writes offset data p (.ok ⟨offset, offset⟩) r p
  | refused {e : RegionError} {r' : Region} {p' : Platform}
      (reserved : r.reserve (offset + data.size) p = (.error e, r', p')) :
      r.Writes offset data p (.error e) r' p'
  | stored {s : Region} {q : Platform} (nonempty : 0 < data.size)
      (reserved : r.reserve (offset + data.size) p = (.ok (), s, q)) :
      r.Writes offset data p (.ok ⟨offset, offset + data.size⟩)
        { s with used := max s.used (offset + data.size) } (s.put offset data q).2

theorem put_region (r : Region) (offset : Nat) (data : Bytes) (p : Platform) :
    (r.put offset data p).1 = { r with used := max r.used (offset + data.size) } := by
  rw [put]
  cases r.mapped <;> rfl

theorem write_cases {offset : Nat} {data : Bytes} {result : Except RegionError Span}
    (wrote : r.write offset data p = (result, r', p')) : r.Writes offset data p result r' p' := by
  rw [write] at wrote
  by_cases shut : r.closed = true
  · rw [if_pos shut] at wrote
    cases wrote
    exact .closed shut
  · rw [if_neg shut] at wrote
    cases sum : Word.add? offset data.size with
    | none =>
      rw [sum] at wrote
      cases wrote
      refine .beyond (Nat.lt_of_not_le fun within => ?_)
      rw [Word.add?, if_pos within] at sum
      cases sum
    | some stop =>
      obtain ⟨rfl, -⟩ := Word.add?_eq_some_iff.mp sum
      simp only [sum] at wrote
      by_cases nothing : data.size = 0
      · rw [if_pos nothing] at wrote
        cases wrote
        exact .empty nothing
      · rw [if_neg nothing] at wrote
        rcases reserved : r.reserve (offset + data.size) p with ⟨_ | _, s, q⟩ <;>
          simp only [reserved] at wrote
        · cases wrote
          exact .refused reserved
        · rw [put_region] at wrote
          cases wrote
          exact .stored (Nat.pos_of_ne_zero nothing) reserved

/-- What a write of bytes comes to. It is refused only if the capacity does not cover it and could
not be made to; if it is granted the bytes lie over the file, which may be longer than before. -/
def WriteCorrect (r : Region) (offset : Nat) (data : Bytes) (p : Platform) (r' : Region)
    (p' : Platform) : Except RegionError Span → Prop
  | .ok written => written = ⟨offset, offset + data.size⟩ ∧
      (data.size = 0 ∧ r' = r ∧ p' = p ∨
        0 < data.size ∧ offset + data.size ≤ r'.capacity ∧
          r'.used = max r.used (offset + data.size) ∧
          ∃ f, (r.backing p).Extends f ∧ r'.backing p' = f.overlay offset data)
  | .error _ => r.capacity < offset + data.size ∧ r'.mapped = r.mapped ∧ r'.medium = r.medium ∧
      r'.used = r.used ∧ (r.backing p).Extends (r'.backing p')

/-- Bytes that are stored lie over the file. A sound region has room for them within its capacity. -/
theorem put_correct {offset : Nat} {data : Bytes} (sound : r.Sound p) (nonempty : 0 < data.size)
    (room : offset + data.size ≤ r.capacity) (stored : r.put offset data p = (r', p')) :
    r' = { r with used := max r.used (offset + data.size) } ∧ Kept r p r' p' ∧ r'.Sound p' ∧
      r'.backing p' = (r.backing p).overlay offset data := by
  obtain ⟨m, mapped⟩ := exists_mapping (r := r) (by omega)
  have shows : m.file = r.fileId := sound.shows m mapped
  have put_eq : r.put offset data p =
      ({ r with used := max r.used (offset + data.size) }, p.store m offset data) := by
    simp only [put, mapped]
  rw [put_eq] at stored
  cases stored
  have overlaid : (p.store m offset data).files.file r.fileId =
      (p.files.file r.fileId).overlay offset data := by
    rw [← shows]
    exact FileSystem.file_setFile_self ..
  refine ⟨rfl, ⟨⟨rfl, rfl, rfl, rfl⟩, ?_, fun only => only⟩, ⟨sound.isOpen, sound.writable, sound.shows,
    Nat.max_le.mpr ⟨sound.used_le, room⟩, ?_, sound.addressable⟩, overlaid⟩
  · rw [← shows]
    exact p.onlyFile_setFile m.file _
  · show r.capacity ≤ ((p.store m offset data).files.file r.fileId).size
    rw [overlaid]
    exact sound.capacity_le

theorem write_correct {offset : Nat} {data : Bytes} {result : Except RegionError Span}
    (sound : r.Sound p) (wrote : r.write offset data p = (result, r', p')) :
    Kept r p r' p' ∧ r'.Sound p' ∧ r.capacity ≤ r'.capacity ∧
      WriteCorrect r offset data p r' p' result := by
  have addressable := sound.addressable
  have limit := Word.addressable_lt_max
  cases write_cases wrote with
  | closed shut => cases sound.isOpen.symm.trans shut
  | beyond past => exact ⟨.refl r p, sound, Nat.le_refl _, by omega, rfl, rfl, rfl, .refl _⟩
  | empty nothing =>
    exact ⟨.refl r p, sound, Nat.le_refl _, by rw [nothing, Nat.add_zero], .inl ⟨nothing, rfl, rfl⟩⟩
  | refused reserved =>
    obtain ⟨grown, sound', larger, short, mapped, medium⟩ := reserve_correct sound reserved
    refine ⟨grown.toKept, sound', larger, short, mapped, medium, grown.used, ?_⟩
    rw [grown.same.backing_eq]
    exact grown.longer
  | @stored s q nonempty reserved =>
    obtain ⟨grown, s_sound, larger, covers⟩ := reserve_correct sound reserved
    obtain ⟨-, kept, sound', overlaid⟩ := put_correct s_sound nonempty covers
      (Prod.ext (s.put_region offset data q) rfl)
    refine ⟨grown.toKept.trans kept, sound', larger, rfl,
      .inr ⟨nonempty, covers, by rw [← grown.used], s.backing q, ?_, overlaid⟩⟩
    rw [grown.same.backing_eq]
    exact grown.longer

/-! ## Calls -/

/-- Lengthening and mapping a file flushes nothing, whatever of it succeeds. -/
theorem remap_noFlush {capacity : Nat} {result : Except RegionError Unit}
    (remapped : r.remap capacity p = (result, r', p')) : p.NoFlush p' := by
  cases remap_cases remapped with
  | short => exact ⟨[], rfl, by simp⟩
  | @refused e file files _ _ mapping =>
    have request := r.setup.mapper.map_requested file.handle capacity { p with files }
    rw [mapping] at request
    exact request.calls
  | @granted m medium file files q _ mapping =>
    have request := r.setup.mapper.map_requested file.handle capacity { p with files }
    rw [mapping] at request
    have quiet : p.NoFlush q := request.calls
    cases r.mapped with
    | none => exact quiet
    | some before => exact quiet.trans (Mapper.unmap_noFlush before q)

theorem reserve_noFlush {least : Nat} {result : Except RegionError Unit}
    (reserved : r.reserve least p = (result, r', p')) : p.NoFlush p' := by
  cases reserve_cases reserved with
  | closed | covered | excessive => exact .refl p
  | refused _ _ remapped | enlarged _ _ remapped => exact remap_noFlush remapped

theorem put_live (r : Region) (offset : Nat) (data : Bytes) (p : Platform) :
    (r.put offset data p).2.live = p.live := by
  rw [put]
  cases r.mapped <;> rfl

theorem put_calls (r : Region) (offset : Nat) (data : Bytes) (p : Platform) :
    (r.put offset data p).2.calls = p.calls := by
  rw [put]
  cases r.mapped <;> rfl

/-- A region flushes only when it is told to. -/
theorem write_noFlush (r : Region) (offset : Nat) (data : Bytes) (p : Platform) :
    p.NoFlush (r.write offset data p).2.2 := by
  rcases wrote : r.write offset data p with ⟨result, r', p'⟩
  cases write_cases wrote with
  | closed | beyond | empty => exact .refl p
  | refused reserved => exact reserve_noFlush reserved
  | @stored s q _ reserved =>
    obtain ⟨made, calls, others⟩ := reserve_noFlush reserved
    exact ⟨made, (s.put_calls offset data q).trans calls, others⟩

/-! ## What is read -/

theorem WriteCorrect.clear {offset : Nat} {data : Bytes} {result : Except RegionError Span}
    (correct : WriteCorrect r offset data p r' p' result) (clear : r.Clear p) (sound : r'.Sound p') :
    r'.Clear p' := by
  cases result with
  | error e =>
    obtain ⟨_, _, _, used, longer⟩ := correct
    exact clear.of_extends sound longer rfl (Nat.le_of_eq used.symm) fun _ _ => rfl
  | ok written =>
    obtain ⟨_, ⟨_, rfl, rfl⟩ | ⟨_, _, used, f, longer, overlaid⟩⟩ := correct
    · exact clear
    · refine clear.of_extends sound longer (by rw [overlaid, File.size_overlay]) (by omega) ?_
      intro i beyond
      rw [overlaid, File.byte_overlay, if_neg (by omega)]

theorem WriteCorrect.alone {offset : Nat} {data : Bytes} {result : Except RegionError Span}
    (correct : WriteCorrect r offset data p r' p' result) (alone : r.Alone p)
    (kept : Kept r p r' p') (sound : r'.Sound p') : r'.Alone p' :=
  kept.alone alone (correct.clear alone.clear sound)

theorem Grown.validBytes (grown : Grown r p r' p') (sound : r.Sound p) (sound' : r'.Sound p') :
    r'.validBytes p' = r.validBytes p := by
  have used := grown.used
  refine bytes_ext (by rw [size_validBytes sound', size_validBytes sound, used]) fun i inside => ?_
  rw [size_validBytes sound'] at inside
  have within : i < (r.backing p).size := Nat.lt_of_lt_of_le (used ▸ inside) sound.used_le_size
  have within' : i < (r'.backing p').size := Nat.lt_of_lt_of_le inside sound'.used_le_size
  rw [getD_validBytes sound', getD_validBytes sound, if_pos inside, if_pos (used ▸ inside)]
  rw [grown.same.backing_eq] at within' ⊢
  rw [grown.longer.byte_eq within', if_pos within]

/-- A write that is granted lays its bytes over those that were there. The gap that it may leave was
zero before, since nothing else has stored past the used length. -/
theorem WriteCorrect.validBytes_ok {offset : Nat} {data : Bytes} {written : Span}
    (correct : WriteCorrect r offset data p r' p' (.ok written)) (clear : r.Clear p)
    (sound' : r'.Sound p') : r'.validBytes p' = overlaid (r.validBytes p) offset data := by
  obtain ⟨_, ⟨empty, rfl, rfl⟩ | ⟨nonempty, _, used, f, longer, overlay⟩⟩ := correct
  · rw [overlaid, if_pos empty]
  · have size : (r'.backing p').size = f.size := by rw [overlay, File.size_overlay]
    have reach := sound'.used_le_size
    refine bytes_ext ?_ fun i inside => ?_
    · rw [size_validBytes sound', size_overlaid, if_neg (by omega), size_validBytes clear.toSound, used]
    · rw [size_validBytes sound'] at inside
      rw [getD_validBytes sound', if_pos inside, getD_overlaid, getD_validBytes clear.toSound, overlay,
        File.byte_overlay]
      by_cases here : offset ≤ i ∧ i < offset + data.size
      · rw [if_pos here, if_pos here]
      · rw [if_neg here, if_neg here, longer.byte_eq (by omega)]
        by_cases valid : i < r.used
        · rw [if_pos valid, if_pos (Nat.lt_of_lt_of_le valid clear.used_le_size)]
        · rw [if_neg valid]
          split
          · rename_i within
            exact clear.zeros i (by omega) within
          · rfl

theorem WriteCorrect.validBytes_error {offset : Nat} {data : Bytes} {e : RegionError}
    (correct : WriteCorrect r offset data p r' p' (.error e)) (sound : r.Sound p)
    (sound' : r'.Sound p') : r'.validBytes p' = r.validBytes p := by
  obtain ⟨_, _, _, used, longer⟩ := correct
  refine bytes_ext (by rw [size_validBytes sound', size_validBytes sound, used]) fun i inside => ?_
  rw [size_validBytes sound'] at inside
  rw [getD_validBytes sound', getD_validBytes sound, if_pos inside, if_pos (used ▸ inside),
    longer.byte_eq (Nat.lt_of_lt_of_le inside sound'.used_le_size),
    if_pos (Nat.lt_of_lt_of_le (used ▸ inside) sound.used_le_size)]

/-- A region that is open fills a buffer from its file. -/
theorem Fitted.readInto_eq (fitted : r.Fitted) (p : Platform) (offset : Nat) (buffer : Bytes) :
    r.readInto offset buffer p =
      (if r.readable offset buffer.size = buffer.size ∧ offset ≤ r.used then .ok ()
        else .error (.shortRead offset buffer.size r.used),
      (r.backing p).slice offset (r.readable offset buffer.size) ++
        Array.replicate (buffer.size - r.readable offset buffer.size) 0) := by
  have size : ((r.backing p).slice offset (r.readable offset buffer.size)).size =
    r.readable offset buffer.size := Patchwork.size_slice ..
  rw [Region.readInto, if_neg (by simp [fitted.isOpen])]
  rcases Option.eq_none_or_eq_some r.mapped with mapped | ⟨m, mapped⟩
  · have nothing : r.readable offset buffer.size = 0 := by
      rw [readable, fitted.used_eq_zero mapped, Nat.zero_sub, Nat.min_zero]
    have empty : (r.backing p).slice offset 0 = #[] :=
      Array.eq_empty_of_size_eq_zero (Patchwork.size_slice ..)
    simp only [mapped, nothing, empty]
    split <;> rfl
  · have loaded : p.loadBytes m offset (r.readable offset buffer.size) =
        (r.backing p).slice offset (r.readable offset buffer.size) := by
      rw [backing, ← fitted.shows m mapped]
      rfl
    simp only [mapped, loaded, size]
    split <;> rfl

/-- A read sees a window of the valid bytes, and is complete if the window ends within them. -/
theorem Fitted.readInto_correct (fitted : r.Fitted) (p : Platform) (offset : Nat) (buffer : Bytes) :
    r.readInto offset buffer p =
      (if offset + buffer.size ≤ r.used then .ok () else .error (.shortRead offset buffer.size r.used),
        window (r.validBytes p) offset buffer.size) := by
  have count : r.readable offset buffer.size = min buffer.size (r.used - offset) := rfl
  have size : ((r.backing p).slice offset (r.readable offset buffer.size)).size =
    r.readable offset buffer.size := Patchwork.size_slice ..
  have filled : (r.backing p).slice offset (r.readable offset buffer.size) ++
      Array.replicate (buffer.size - r.readable offset buffer.size) 0 =
        window (r.validBytes p) offset buffer.size := by
    refine bytes_ext (by rw [Array.size_append, Array.size_replicate, size, size_window]; omega)
      fun i inside => ?_
    rw [Array.size_append, Array.size_replicate, size] at inside
    rw [getD_window, if_pos (by omega), fitted.getD_validBytes, Array.getD_eq_getD_getElem?,
      Array.getElem?_append, size]
    by_cases valid : i < r.readable offset buffer.size
    · rw [if_pos valid, if_pos (by omega), ← Array.getD_eq_getD_getElem?, File.getD_slice, if_pos valid]
    · rw [if_neg valid, if_neg (by omega), Array.getElem?_replicate]
      split <;> rfl
  rw [fitted.readInto_eq, filled]
  by_cases complete : offset + buffer.size ≤ r.used
  · rw [if_pos (by omega), if_pos complete]
  · rw [if_neg (by omega), if_neg complete]

theorem readInto_correct (sound : r.Sound p) (offset : Nat) (buffer : Bytes) :
    r.readInto offset buffer p =
      (if offset + buffer.size ≤ r.used then .ok () else .error (.shortRead offset buffer.size r.used),
        window (r.validBytes p) offset buffer.size) := sound.fitted.readInto_correct p offset buffer

/-- The bytes of a range within the used length are mapped. -/
theorem Fitted.bytes?_correct (fitted : r.Fitted) (p : Platform) {offset len : Nat}
    (within : offset + len ≤ r.used) :
    r.bytes? ⟨offset, offset + len⟩ p = some (window (r.validBytes p) offset len) := by
  have used_le := fitted.used_le
  rw [bytes?, if_pos ⟨Nat.le_add_right .., Nat.le_trans within used_le⟩]
  rcases Option.eq_none_or_eq_some r.mapped with mapped | ⟨m, mapped⟩
  · have nothing := fitted.used_eq_zero mapped
    obtain rfl : len = 0 := by omega
    simp only [mapped]
    exact congrArg some (Array.eq_empty_of_size_eq_zero (size_window ..)).symm
  · simp only [mapped]
    refine congrArg some (bytes_ext ?_ fun i inside => ?_)
    · rw [size_window, Nat.add_sub_cancel_left]
      exact Patchwork.size_slice ..
    · have short : i < len := by
        rwa [Nat.add_sub_cancel_left, Platform.loadBytes, File.slice, Patchwork.size_slice] at inside
      rw [Nat.add_sub_cancel_left, getD_window, if_pos short, fitted.getD_validBytes, if_pos (by omega),
        Platform.loadBytes, File.getD_slice, if_pos short, backing, fitted.shows m mapped]

/-! ## Other files -/

/-- Nothing happened to the file of a region or to its mappings. -/
abbrev Untouched (r : Region) (p p' : Platform) : Prop := p.Spares r.fileId p'

/-- What happens to one file is nothing to a region over another. -/
theorem Untouched.of_onlyFile {id : FileId} (only : p.OnlyFile id p') (different : r.fileId ≠ id) :
    r.Untouched p p' := only.spares different

theorem Untouched.backing_eq (untouched : r.Untouched p p') : r.backing p' = r.backing p :=
  untouched.file

theorem Untouched.sound (untouched : r.Untouched p p') (sound : r.Sound p) : r.Sound p' :=
  ⟨sound.isOpen, sound.writable, sound.shows, sound.used_le,
    untouched.backing_eq ▸ sound.capacity_le, sound.addressable⟩

theorem Untouched.clear (untouched : r.Untouched p p') (clear : r.Clear p) : r.Clear p' := by
  refine ⟨untouched.sound clear.toSound, ?_, ?_⟩
  · rw [untouched.backing_eq]
    exact clear.zeros
  · rw [untouched.backing_eq]
    exact clear.bounded

theorem Untouched.alone (untouched : r.Untouched p p') (alone : r.Alone p) : r.Alone p' :=
  (untouched.clear alone.clear).alone (untouched.mappings.trans alone.only)

theorem Untouched.validBytes (untouched : r.Untouched p p') (sound : r.Sound p) :
    r.validBytes p' = r.validBytes p := by
  rw [validBytes_eq (untouched.sound sound), validBytes_eq sound, untouched.backing_eq]

/-- What is mapped of a file shows the same bytes as long as nothing happens to the file. -/
theorem Untouched.bytes?_eq (untouched : r.Untouched p p') (shows : ∀ m ∈ r.mapped, m.file = r.fileId)
    (span : Span) : r.bytes? span p' = r.bytes? span p := by
  rw [bytes?, bytes?]
  split
  · split
    · rename_i m mapped
      rw [Platform.loadBytes, Platform.loadBytes, shows m mapped, untouched.file]
    · rfl
  · rfl

/-! ## Flushing -/

/-- What a flush changes, whether or not it succeeds: of the file only how much of it is durable. -/
structure Settled (r : Region) (p p' : Platform) : Prop where
  onlyFile : p.OnlyFile r.fileId p'
  live : p'.live = p.live
  flushed : (r.backing p).Flushed (r.backing p')

theorem Settled.refl (r : Region) (p : Platform) : r.Settled p p := ⟨.refl .., rfl, .refl _⟩

theorem Settled.sound (settled : r.Settled p p') (sound : r.Sound p) : r.Sound p' :=
  ⟨sound.isOpen, sound.writable, sound.shows, sound.used_le,
    settled.flushed.size_eq ▸ sound.capacity_le, sound.addressable⟩

theorem Settled.clear (settled : r.Settled p p') (clear : r.Clear p) : r.Clear p' := by
  refine ⟨settled.sound clear.toSound, fun i past inside => ?_, fun slack => ?_⟩
  · rw [settled.flushed.size_eq] at inside
    rw [settled.flushed.byte_eq inside, clear.zeros i past inside]
  · rw [settled.flushed.size_eq] at slack ⊢
    exact clear.bounded slack

theorem Settled.alone (settled : r.Settled p p') (alone : r.Alone p) : r.Alone p' := by
  refine (settled.clear alone.clear).alone ?_
  rw [Platform.mappingsOf, settled.live]
  exact alone.only

theorem Settled.validBytes (settled : r.Settled p p') (sound : r.Sound p) :
    r.validBytes p' = r.validBytes p := by
  have sound' := settled.sound sound
  refine bytes_ext (by rw [size_validBytes sound', size_validBytes sound]) fun i inside => ?_
  rw [size_validBytes sound'] at inside
  rw [getD_validBytes sound', getD_validBytes sound, if_pos inside, if_pos inside,
    settled.flushed.byte_eq (Nat.lt_of_lt_of_le inside sound.used_le_size)]

/-- A flush comes to one call on the mapping that is in place, which covers the range as far as it is
mapped, or to none if nothing of it is mapped. -/
theorem flush_cases (r : Region) (f : Flush) (p : Platform) :
    ((r.clip f.span).stop ≤ (r.clip f.span).start ∧ r.flush f p = (.ok (), p)) ∨
    ∃ m first count failure p', r.mapped = some m ∧ first ≤ (r.clip f.span).start ∧
      (r.clip f.span).stop ≤ first + count ∧
      p.flush f.medium m first count = (failure, p') ∧
      r.flush f p =
        (match failure with | none => .ok () | some errno => .error (.io r.path (.os errno)), p') := by
  unfold Region.flush
  cases mapped : r.mapped with
  | none =>
    have nothing : r.capacity = 0 := by rw [capacity, mapped]
    exact .inl ⟨by simp [clip, nothing], rfl⟩
  | some m =>
    dsimp only
    obtain ⟨empty, flushed⟩ | ⟨first, count, failure, p', _, low, high, call, flushed⟩ :=
      r.setup.mapper.flush_cases m (r.clip f.span).start
        ((r.clip f.span).stop - (r.clip f.span).start) f.medium p
    · exact .inl ⟨by omega, by rw [flushed]⟩
    · refine .inr ⟨m, first, count, failure, p', rfl, low, by omega, call, ?_⟩
      rw [flushed]
      cases failure <;> rfl

/-- A range that is mapped is not cut. -/
theorem clip_eq {start stop : Nat} (nonempty : start < stop) (within : stop ≤ r.capacity) :
    r.clip ⟨start, stop⟩ = ⟨start, stop⟩ := by
  rw [clip, Nat.min_eq_left within, Nat.min_eq_left (Nat.le_of_lt nonempty)]

/-- A flush that succeeds covers its range on the mapping in place, and makes it durable. -/
theorem flush_covers {medium : Medium} {start stop : Nat} (sound : r.Sound p) (nonempty : start < stop)
    (within : stop ≤ r.capacity) (flushed : r.flush ⟨medium, ⟨start, stop⟩⟩ p = (.ok (), p')) :
    ∃ m first count, r.mapped = some m ∧ first ≤ start ∧ stop ≤ first + count ∧
      p.flush medium m first count = (none, p') ∧
      ∀ i, start ≤ i → i < stop → (r.backing p').Durable i ((r.backing p).byte i) := by
  have uncut := clip_eq nonempty within
  obtain ⟨empty, _⟩ | ⟨m, first, count, failure, q, mapped, low, high, call, flushed'⟩ :=
    r.flush_cases ⟨medium, ⟨start, stop⟩⟩ p
  · rw [uncut] at empty
    dsimp only at empty
    omega
  · rw [uncut] at low high
    rw [flushed] at flushed'
    cases failure with
    | some errno => cases flushed'
    | none =>
      cases flushed'
      refine ⟨m, first, count, mapped, low, high, call, fun i above below => ?_⟩
      have inside : i < (p.files.file m.file).size := by
        rw [sound.shows m mapped]
        exact Nat.lt_of_lt_of_le below (Nat.le_trans within sound.capacity_le)
      have durable := Platform.flush_durable call (Nat.le_trans low above)
        (Nat.lt_of_lt_of_le below high) inside
      rwa [sound.shows m mapped] at durable

theorem flush_settled (shows : ∀ m ∈ r.mapped, m.file = r.fileId) (f : Flush) :
    r.Settled p (r.flush f p).2 := by
  obtain ⟨_, flushed⟩ | ⟨m, first, count, failure, p', mapped, _, _, call, flushed⟩ :=
    r.flush_cases f p
  · rw [flushed]
    exact .refl r p
  · have here := shows m mapped
    have only := p.flush_onlyFile f.medium m first count
    have live := p.flush_live f.medium m first count
    have durable := p.flush_flushed f.medium m first count
    rw [flushed]
    rw [call, here] at only durable
    rw [call] at live
    exact ⟨only, live, durable⟩

end MappedStorage.Region
