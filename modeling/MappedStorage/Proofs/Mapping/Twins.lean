import MappedStorage.Proofs.Mapping.FailedGrowth

/-!
Two regions that are alike and of which the same calls will fail. Where one grows so does the other, and
what is asked of either is answered the same (`Region.Twin.reserve`, `Region.Twin.flush`), although the file
of one goes on with zeros.
-/

namespace MappedStorage

/-- Platforms that are alike, with the same outcomes planned. -/
structure Platform.Twin (h : Handle) (p p' : Platform) : Prop extends Platform.Alike h p p' where
  samePlan : p'.plan = p.plan

/-- Regions that are alike, with the same outcomes planned. -/
structure Region.Twin (r : Region) (p : Platform) (r' : Region) (p' : Platform) : Prop extends
    Region.Alike r p r' p' where
  samePlan : p'.plan = p.plan

namespace File.Padded

variable {f f' : File}

/-- A file that is made no longer than the other stays padded to it. -/
theorem resize_left (padded : f.Padded f') {n : Nat} (longer : f.size ≤ n) (within : n ≤ f'.size) :
    (f.resize n).Padded f' := by
  refine ⟨within, fun i inside => ?_, fun i => ?_⟩
  · rw [padded.byte_eq i inside, size_resize, byte_resize]
    by_cases before : i < f.size
    · rw [if_pos before, if_pos (by omega), if_pos ⟨before, by omega⟩]
    · have beyond : ¬ (i < f.size ∧ i < n) := fun both => before both.1
      rw [if_neg before, if_neg beyond, ite_self]
  · rw [padded.stable_eq, stable_resize]
    split
    · rfl
    · exact f.stable_beyond i (by omega)

/-- Files that are given the same length stay padded. -/
theorem resize (padded : f.Padded f') (n : Nat) : (f.resize n).Padded (f'.resize n) := by
  have size_le := padded.size_le
  refine ⟨Nat.le_refl _, fun i inside => ?_, fun i => ?_⟩
  · rw [size_resize] at inside
    rw [size_resize, if_pos inside, byte_resize, byte_resize]
    by_cases before : i < f'.size
    · rw [if_pos ⟨before, inside⟩, padded.byte_eq i before]
      by_cases early : i < f.size
      · rw [if_pos early, if_pos ⟨early, inside⟩]
      · rw [if_neg early, if_neg fun here => early here.1]
    · rw [if_neg fun here => before here.1, if_neg fun here => before (by omega)]
  · rw [stable_resize, stable_resize, padded.stable_eq]

end File.Padded

/-! ## Platforms -/

namespace Platform.Twin

variable {p p' : Platform} {g h : Handle}

/-- A mapping is granted or refused on both, at the same address. -/
theorem map (twin : p.Twin g p') (h : Handle) (len : Nat) (sharing : Sharing) :
    (p'.map h len sharing).1 = (p.map h len sharing).1 ∧
      (p.map h len sharing).2.Twin g (p'.map h len sharing).2 := by
  obtain ⟨⟨live, -, names, others, file, lengthened⟩, samePlan⟩ := twin
  unfold Platform.map
  rw [samePlan, live]
  dsimp only
  split <;> exact ⟨rfl, ⟨rfl, rfl, names, others, file, lengthened⟩, rfl⟩

theorem unmap (twin : p.Twin g p') (m : Mapping) :
    (p'.unmap m).1 = (p.unmap m).1 ∧ (p.unmap m).2.Twin g (p'.unmap m).2 := by
  obtain ⟨answer, alike⟩ := twin.toAlike.unmap m
  exact ⟨answer, alike, by rw [Platform.unmap, Platform.unmap, twin.samePlan]⟩

theorem flush (twin : p.Twin g p') {m : Mapping} (shows : m.file = g.file) (medium : Medium)
    (offset len : Nat) : (p'.flush medium m offset len).1 = (p.flush medium m offset len).1 ∧
      (p.flush medium m offset len).2.Twin g (p'.flush medium m offset len).2 := by
  obtain ⟨answer, alike⟩ := twin.toAlike.flush shows medium offset len
  refine ⟨answer, alike, ?_⟩
  rw [flush_eq, flush_eq, twin.samePlan]
  rcases forFlush p.plan medium with ⟨_ | errno, rest⟩ <;> dsimp only

end Platform.Twin

namespace Mapper

variable {p p' : Platform} {g : Handle}

theorem attempt_eq (h : Handle) (len : Nat) (sharing : Sharing) (p : Platform) :
    attempt h len sharing p = ((p.map h len sharing).1.mapError fun e => ⟨e.getD Errno.badAddress⟩,
      (p.map h len sharing).2) := by
  unfold attempt
  split <;> rename_i mapped <;> rw [mapped] <;> rfl

theorem attempt_twin (twin : p.Twin g p') (h : Handle) (len : Nat) (sharing : Sharing) :
    (attempt h len sharing p').1 = (attempt h len sharing p).1 ∧
      (attempt h len sharing p).2.Twin g (attempt h len sharing p').2 := by
  obtain ⟨answer, later⟩ := twin.map h len sharing
  rw [attempt_eq, attempt_eq, answer]
  exact ⟨rfl, later⟩

theorem mapPlain_twin (m : Mapper) (twin : p.Twin g p') (h : Handle) (len : Nat) :
    (m.mapPlain h len p').1 = (m.mapPlain h len p).1 ∧
      (m.mapPlain h len p).2.Twin g (m.mapPlain h len p').2 := by
  obtain ⟨answer, later⟩ := attempt_twin twin h len .plain
  unfold mapPlain
  rcases attempted : attempt h len .plain p with ⟨outcome, q⟩
  rcases attempted' : attempt h len .plain p' with ⟨outcome', q'⟩
  rw [attempted, attempted'] at answer later
  cases answer
  cases outcome <;> exact ⟨rfl, later⟩

theorem map_twin (m : Mapper) (twin : p.Twin g p') (h : Handle) (len : Nat) :
    (m.map h len p').1 = (m.map h len p).1 ∧ (m.map h len p).2.Twin g (m.map h len p').2 := by
  unfold map
  split
  · exact ⟨rfl, twin⟩
  · split
    · obtain ⟨answer, later⟩ := attempt_twin twin h len .synchronous
      rcases attempted : attempt h len .synchronous p with ⟨outcome, q⟩
      rcases attempted' : attempt h len .synchronous p' with ⟨outcome', q'⟩
      rw [attempted, attempted'] at answer later
      cases answer
      cases outcome with
      | ok mapping => exact ⟨rfl, later⟩
      | error e =>
        dsimp only
        split
        · exact m.mapPlain_twin later h len
        · exact ⟨rfl, later⟩
    · exact m.mapPlain_twin twin h len

theorem unmap_twin (mapping : Mapping) (twin : p.Twin g p') :
    (unmap mapping p').1 = (unmap mapping p).1 ∧ (unmap mapping p).2.Twin g (unmap mapping p').2 := by
  obtain ⟨answer, alike⟩ := unmap_alike mapping twin.toAlike
  refine ⟨answer, alike, ?_⟩
  rw [snd_unmap, snd_unmap]
  exact (twin.unmap mapping).2.samePlan

theorem flush_twin (m : Mapper) {mapping : Mapping} (twin : p.Twin g p') (shows : mapping.file = g.file)
    (offset len : Nat) (medium : Medium) :
    (m.flush mapping offset len medium p).2.Twin g (m.flush mapping offset len medium p').2 := by
  rw [flush_eq, flush_eq]
  split
  · exact twin
  · exact (twin.flush shows medium _ _).2

end Mapper

namespace TrackedFile

variable {f : TrackedFile} {n : Nat} {fs fs' : FileSystem}

theorem growTo_of_enough (enough : n ≤ (fs.file f.handle.file).size) :
    f.growTo n fs = (.ok (), f.refresh fs, fs) := if_pos enough

theorem growTo_of_error {e : IoError} (short : (fs.file f.handle.file).size < n)
    (refused : fs.setLength f.handle n = .error e) : f.growTo n fs = (.error e, f.refresh fs, fs) := by
  have short : ¬ n ≤ (f.refresh fs).len := Nat.not_le.mpr short
  rw [growTo, if_neg short, setLength, show (f.refresh fs).handle = f.handle from rfl, refused]

theorem growTo_of_ok (short : (fs.file f.handle.file).size < n)
    (set : fs.setLength f.handle n = .ok fs') : f.growTo n fs = (.ok (), { f with len := n }, fs') := by
  have short : ¬ n ≤ (f.refresh fs).len := Nat.not_le.mpr short
  rw [growTo, if_neg short, setLength, show (f.refresh fs).handle = f.handle from rfl, set]
  rfl

end TrackedFile

/-- Growing comes to the same. A file that goes on with zeros far enough needs no more of them. -/
theorem Platform.Twin.growTo {f : TrackedFile} {p p' : Platform} (twin : p.Twin f.handle p')
    (len n : Nat) :
    (({ f with len } : TrackedFile).growTo n p'.files).1 = (f.growTo n p.files).1 ∧
      ({ p with files := (f.growTo n p.files).2.2 } : Platform).Twin f.handle
        { p' with files := (({ f with len } : TrackedFile).growTo n p'.files).2.2 } := by
  have size_le := twin.file.size_le
  have names := twin.names
  obtain enough | short := Nat.lt_or_ge n ((p.files.file f.handle.file).size + 1)
  · have enough : n ≤ (p.files.file f.handle.file).size := by omega
    rw [TrackedFile.growTo_of_enough enough,
      TrackedFile.growTo_of_enough (f := { f with len }) (Nat.le_trans enough size_le)]
    exact ⟨rfl, twin⟩
  · have short : (p.files.file f.handle.file).size < n := short
    by_cases enough : n ≤ (p'.files.file f.handle.file).size
    · obtain ⟨writable, bounded⟩ := twin.lengthened (by omega)
      have reach : n ≤ FileSystem.maxFile := by omega
      have set := p.files.setLength_ok writable (Nat.le_trans reach (by decide)) reach
      rw [TrackedFile.growTo_of_ok short set, TrackedFile.growTo_of_enough (f := { f with len }) enough]
      refine ⟨rfl, ⟨twin.live, twin.plan, ⟨names.1, names.2, names.3⟩, fun other different => ?_, ?_, fun _ => ?_⟩,
        twin.samePlan⟩
      · rw [FileSystem.file_setFile_of_ne _ _ different, twin.others other different]
      · rw [FileSystem.file_setFile_self]
        exact twin.file.resize_left (Nat.le_of_lt short) enough
      · exact ⟨writable, bounded⟩
    · have short' : (p'.files.file f.handle.file).size < n := Nat.lt_of_not_le enough
      obtain ⟨e, refused, refused'⟩ | ⟨set, set'⟩ :=
        FileSystem.setLength_congr p.files p'.files f.handle n
      · rw [TrackedFile.growTo_of_error short refused,
          TrackedFile.growTo_of_error (f := { f with len }) short' refused']
        exact ⟨rfl, twin⟩
      · rw [TrackedFile.growTo_of_ok short set,
          TrackedFile.growTo_of_ok (f := { f with len }) short' set']
        refine ⟨rfl, ⟨twin.live, twin.plan, ⟨names.1, names.2, names.3⟩, fun other different => ?_, ?_, fun longer => ?_⟩,
          twin.samePlan⟩
        · rw [FileSystem.file_setFile_of_ne _ _ different, FileSystem.file_setFile_of_ne _ _ different,
            twin.others other different]
        · rw [FileSystem.file_setFile_self, FileSystem.file_setFile_self]
          exact twin.file.resize n
        · rw [FileSystem.file_setFile_self, FileSystem.file_setFile_self] at longer
          exact absurd longer (Nat.lt_irrefl n)

/-! ## Regions -/

namespace Region

variable {r r' : Region} {p p' : Platform}

theorem Twin.onPlatform (twin : r.Twin p r' p') : p.Twin r.file.handle p' :=
  ⟨twin.platform, twin.samePlan⟩

/-- A region is mapped anew or not just as its twin is. -/
theorem Twin.remap (twin : r.Twin p r' p') (capacity : Nat) :
    (r'.remap capacity p').1 = (r.remap capacity p).1 ∧
      (r.remap capacity p).2.1.Twin (r.remap capacity p).2.2 (r'.remap capacity p').2.1
        (r'.remap capacity p').2.2 := by
  have platform := twin.onPlatform
  obtain ⟨-, len, rfl⟩ := twin.exists_len
  have handle := (r.file.growTo_sameFile capacity p.files).handle
  have known := r.file.growTo_file capacity p.files
  have known' := ({ r.file with len } : TrackedFile).growTo_file capacity p'.files
  obtain ⟨answer, grown⟩ := platform.growTo (f := r.file) len capacity
  rcases growth : r.file.growTo capacity p.files with ⟨outcome, file, files⟩
  rcases growth' : ({ r.file with len } : TrackedFile).growTo capacity p'.files with
    ⟨outcome', file', files'⟩
  rw [growth, growth'] at answer grown
  rw [growth] at handle known
  rw [growth'] at known'
  dsimp only at handle known known' answer grown
  subst answer
  have handle' : file'.handle = r.file.handle := by rw [known']
  have length : file' = { file with len := file'.len } := by rw [known, known']
  unfold Region.remap
  dsimp only
  rw [growth, growth']
  cases outcome' with
  | error e => exact ⟨rfl, ⟨by rw [length], by rw [handle]; exact grown.toAlike⟩, grown.samePlan⟩
  | ok =>
    obtain ⟨granted, later⟩ := r.setup.mapper.map_twin grown r.file.handle capacity
    dsimp only
    rw [handle, handle']
    rcases mapping : r.setup.mapper.map r.file.handle capacity { p with files } with ⟨outcome, q⟩
    rcases mapping' : r.setup.mapper.map r.file.handle capacity { p' with files := files' } with
      ⟨outcome', q'⟩
    rw [mapping, mapping'] at granted later
    cases granted
    cases outcome with
    | error e =>
      exact ⟨rfl, ⟨by rw [length], by rw [handle]; exact later.toAlike⟩, later.samePlan⟩
    | ok both =>
      obtain ⟨m, medium⟩ := both
      dsimp only
      split
      · rename_i old _
        have last := (Mapper.unmap_twin old later).2
        exact ⟨rfl, ⟨by rw [length], by rw [handle]; exact last.toAlike⟩, last.samePlan⟩
      · exact ⟨rfl, ⟨by rw [length], by rw [handle]; exact later.toAlike⟩, later.samePlan⟩

theorem Twin.reserve (twin : r.Twin p r' p') (least : Nat) :
    (r'.reserve least p').1 = (r.reserve least p).1 ∧
      (r.reserve least p).2.1.Twin (r.reserve least p).2.2 (r'.reserve least p').2.1
        (r'.reserve least p').2.2 := by
  have closed : r'.closed = r.closed := by rw [twin.region]
  have setup : r'.setup = r.setup := by rw [twin.region]
  unfold Region.reserve
  rw [closed, setup, twin.capacity_eq]
  split
  · exact ⟨rfl, twin⟩
  · split
    · exact ⟨rfl, twin⟩
    · exact ⟨rfl, twin⟩
    · rename_i g _
      obtain ⟨answer, later⟩ := twin.remap g.capacity
      rcases remapping : r.remap g.capacity p with ⟨outcome, s, q⟩
      rcases remapping' : r'.remap g.capacity p' with ⟨outcome', s', q'⟩
      rw [remapping, remapping'] at answer later
      cases answer
      cases outcome with
      | error e => exact ⟨rfl, later⟩
      | ok =>
        have samePlan := later.samePlan
        obtain ⟨platform, len, same⟩ := later.exists_len
        dsimp only at platform samePlan same ⊢
        subst same
        exact ⟨rfl, ⟨rfl, platform⟩, samePlan⟩

theorem Twin.countUsed (twin : r.Twin p r' p') (len : Nat) :
    (r.countUsed len).Twin p (r'.countUsed len) p' := by
  obtain ⟨platform, known, rfl⟩ := twin.exists_len
  exact ⟨⟨rfl, platform⟩, twin.samePlan⟩

theorem Twin.flush (twin : r.Twin p r' p') (backed : r.Backed p) (f : Flush) :
    (r'.flush f p').1 = (r.flush f p).1 ∧ r.Twin (r.flush f p).2 r' (r'.flush f p').2 := by
  obtain ⟨answer, alike, -⟩ := twin.toAlike.flush backed f
  have mapped_eq : r'.mapped = r.mapped := by rw [twin.region]
  refine ⟨answer, alike, ?_⟩
  rcases Option.eq_none_or_eq_some r.mapped with mapped | ⟨m, mapped⟩
  · simp only [Region.flush, mapped_eq, mapped]
    exact twin.samePlan
  · have clip : r'.clip f.span = r.clip f.span := by rw [clip, clip, twin.capacity_eq]
    rw [flush_of_mapped mapped, flush_of_mapped (mapped_eq.trans mapped), clip,
      show r'.setup = r.setup by rw [twin.region]]
    exact (r.setup.mapper.flush_twin twin.onPlatform (backed.shows m mapped) _ _ _).samePlan

theorem Twin.flushWhole (twin : r.Twin p r' p') (backed : r.Backed p) :
    (r'.flushWhole p').1 = (r.flushWhole p).1 ∧
      r.Twin (r.flushWhole p).2 r' (r'.flushWhole p').2 := by
  have whole : r'.flushWhole p' = r'.flush ⟨r.medium, ⟨0, r.capacity⟩⟩ p' := by
    rw [Region.flushWhole, twin.capacity_eq, show r'.medium = r.medium by rw [twin.region]]
  rw [whole]
  exact twin.flush backed ⟨r.medium, ⟨0, r.capacity⟩⟩

/-- Bytes stored through the mapping of both are stored in both files. -/
theorem Twin.store (twin : r.Twin p r' p') (backed : r.Backed p) {m : Mapping} (mapped : m ∈ r.mapped)
    {offset : Nat} {data : Bytes} (within : offset + data.size ≤ r.capacity) :
    r.Twin (p.store m offset data) r' (p'.store m offset data) ∧ r.Backed (p.store m offset data) := by
  have shows := backed.shows m mapped
  have stored := twin.platform.store shows (Nat.le_trans within backed.capacity_le)
  refine ⟨⟨⟨twin.region, stored⟩, twin.samePlan⟩, backed.toFitted, ?_⟩
  rw [backing, ← shows, Platform.store, FileSystem.file_setFile_self, File.size_overlay, shows]
  exact backed.capacity_le

end Region

end MappedStorage
