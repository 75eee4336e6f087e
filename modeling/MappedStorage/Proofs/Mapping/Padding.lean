import MappedStorage.Proofs.Mapping.Mapper
import MappedStorage.Proofs.Mapping.TrackedFile

/-!
Files that go on with zeros. A file that was made longer holds what it held, and then zeros
(`File.Padded`). Two platforms that differ in that alone stay `Platform.Alike` under stores to what both
files have, under flushes and as mappings are taken down, and are answered the same. Trimming both files
makes them hold the same.
-/

namespace MappedStorage

/-- The file as it was, or with zeros at its end. It holds the same now and after a crash. -/
structure File.Padded (f f' : File) : Prop where
  size_le : f.size ≤ f'.size
  byte_eq : ∀ i < f'.size, f'.byte i = if i < f.size then f.byte i else 0
  stable_eq : ∀ i, f'.stable.byte i = f.stable.byte i

/-- Two platforms that differ in the file of a handle, which goes on with zeros on the second, in the
calls on record and in the mappings that will be refused. -/
structure Platform.Alike (h : Handle) (p p' : Platform) : Prop where
  live : p'.live = p.live
  plan : p'.plan = { p.plan with plain := p'.plan.plain, synchronous := p'.plan.synchronous }
  names : p.files.SameNames p'.files
  others : ∀ other, other ≠ h.file → p'.files.file other = p.files.file other
  file : (p.files.file h.file).Padded (p'.files.file h.file)
  lengthened : (p.files.file h.file).size < (p'.files.file h.file).size →
    h.writable = true ∧ (p'.files.file h.file).size ≤ FileSystem.maxFile

/-- Two files that hold the same, now and after a crash. -/
structure File.Holds (f f' : File) : Prop where
  contents : f'.contents = f.contents
  durable : f'.crash.contents = f.crash.contents

/-! ## Files with zeros at the end -/

namespace File.Padded

variable {f f' g : File}

theorem refl (f : File) : f.Padded f :=
  ⟨Nat.le_refl _, fun _ inside => (if_pos inside).symm, fun _ => rfl⟩

theorem of_extends (longer : f.Extends f') : f.Padded f' := by
  refine ⟨longer.size_le, fun i inside => longer.byte_eq inside, fun i => ?_⟩
  obtain rfl | ⟨size, more, _, rfl⟩ := longer
  · rfl
  · rw [stable_resize]
    split
    · rfl
    · exact (f.stable_beyond i (by omega)).symm

theorem trans (first : f.Padded g) (second : g.Padded f') : f.Padded f' := by
  refine ⟨Nat.le_trans first.size_le second.size_le, fun i inside => ?_, fun i => ?_⟩
  · rw [second.byte_eq i inside]
    by_cases between : i < g.size
    · rw [if_pos between, first.byte_eq i between]
    · have beyond := first.size_le
      rw [if_neg between, if_neg (by omega)]
  · rw [second.stable_eq, first.stable_eq]

/-- Both have the same bytes as far as the shorter reaches. -/
theorem byte_inside (padded : f.Padded f') {i : Nat} (inside : i < f.size) : f'.byte i = f.byte i := by
  rw [padded.byte_eq i (Nat.lt_of_lt_of_le inside padded.size_le), if_pos inside]

theorem slice_eq (padded : f.Padded f') {start len : Nat} (within : start + len ≤ f.size) :
    f'.slice start len = f.slice start len := by
  rw [slice_eq_ofFn, slice_eq_ofFn]
  congr 1
  funext i
  exact padded.byte_inside (by omega)

/-- Files of one length hold the same. -/
theorem holds (padded : f.Padded f') (size : f'.size = f.size) : f.Holds f' := by
  refine ⟨by rw [contents, contents, size, padded.slice_eq (by omega)], ?_⟩
  rw [contents, contents, show f'.crash.size = f.crash.size from size, slice_eq_ofFn, slice_eq_ofFn]
  congr 1
  funext i
  exact padded.stable_eq _

theorem overlay (padded : f.Padded f') {offset : Nat} {data : Bytes}
    (within : offset + data.size ≤ f.size) : (f.overlay offset data).Padded (f'.overlay offset data) := by
  refine ⟨padded.size_le, fun i inside => ?_, padded.stable_eq⟩
  rw [size_overlay] at inside
  rw [byte_overlay, byte_overlay, size_overlay, padded.byte_eq i inside]
  by_cases here : offset ≤ i ∧ i < offset + data.size
  · rw [if_pos here, if_pos here, if_pos (by omega)]
  · rw [if_neg here, if_neg here]

/-- What is settled of the zeros at the end was zero after a crash before. -/
theorem settle (padded : f.Padded f') (start stop : Nat) :
    (f.settle start stop).Padded (f'.settle start stop) := by
  refine ⟨padded.size_le, padded.byte_eq, fun i => ?_⟩
  rw [stable_settle, stable_settle, padded.stable_eq i]
  by_cases inside : i < f'.size
  · rw [padded.byte_eq i inside]
    by_cases before : i < f.size
    · simp only [inside, before, if_true]
    · have beyond := f.stable_beyond i (Nat.le_of_not_lt before)
      simp only [inside, before, and_true, and_false, if_false, beyond, ite_self]
  · have beyond : ¬ i < f.size := fun before => inside (Nat.lt_of_lt_of_le before padded.size_le)
    rw [if_neg (fun here => inside here.2.2), if_neg (fun here => beyond here.2.2)]

/-- Memory past the end is not part of a file. -/
theorem clear (padded : f.Padded f') (first second : Bool) :
    (if first then f.clearPastEnd else f).Padded (if second then f'.clearPastEnd else f') := by
  have left : (if first then f.clearPastEnd else f).Padded f' := by
    cases first with
    | false => exact padded
    | true =>
      refine ⟨padded.size_le, fun i inside => ?_, padded.stable_eq⟩
      rw [padded.byte_eq i inside, if_pos rfl, size_clearPastEnd, byte_clearPastEnd]
      split <;> rfl
  cases second with
  | false => exact left
  | true =>
    refine ⟨left.size_le, fun i inside => ?_, left.stable_eq⟩
    have inside : i < f'.size := inside
    rw [if_pos rfl, byte_clearPastEnd, if_pos inside, left.byte_eq i inside]

/-- Cut to what both reach, or left alone if it is no longer than that, a file holds the same. -/
theorem cut (padded : f.Padded f') {n : Nat} (within : n ≤ f.size) :
    (if n < f.size then f.resize n else f).Padded (if n < f'.size then f'.resize n else f') := by
  have size_le := padded.size_le
  by_cases short : n < f.size
  · rw [if_pos short, if_pos (by omega)]
    refine ⟨Nat.le_refl _, fun i inside => ?_, fun i => ?_⟩
    · rw [size_resize] at inside
      rw [size_resize, if_pos inside, byte_resize, byte_resize, if_pos (by omega), if_pos (by omega),
        padded.byte_inside (by omega)]
    · rw [stable_resize, stable_resize, padded.stable_eq]
  · rw [if_neg short]
    split
    · obtain rfl : n = f.size := by omega
      refine ⟨Nat.le_refl _, fun i inside => ?_, fun i => ?_⟩
      · rw [size_resize] at inside
        rw [if_pos inside, byte_resize, if_pos (by omega), padded.byte_inside inside]
      · rw [stable_resize, padded.stable_eq]
        split
        · rfl
        · exact (f.stable_beyond i (by omega)).symm
    · exact padded

theorem size_cut (padded : f.Padded f') {n : Nat} (within : n ≤ f.size) :
    (if n < f'.size then f'.resize n else f').size = (if n < f.size then f.resize n else f).size := by
  have size_le := padded.size_le
  by_cases short : n < f.size
  · rw [if_pos short, if_pos (by omega), size_resize, size_resize]
  · rw [if_neg short]
    split
    · rw [size_resize]
      omega
    · omega

end File.Padded

/-! ## Platforms -/

namespace Platform

variable {p q p' : Platform} {g : Handle} {m : Mapping}

theorem Alike.refl (g : Handle) (p : Platform) : p.Alike g p :=
  ⟨rfl, rfl, .refl _, fun _ _ => rfl, .refl _, fun longer => absurd longer (Nat.lt_irrefl _)⟩

theorem Alike.trans (first : p.Alike g q) (second : q.Alike g p') : p.Alike g p' := by
  refine ⟨second.live.trans first.live, ?_, first.names.trans second.names, fun other different => ?_,
    first.file.trans second.file, fun longer => ?_⟩
  · rw [second.plan, first.plan]
  · rw [second.others other different, first.others other different]
  · by_cases later : (q.files.file g.file).size < (p'.files.file g.file).size
    · exact second.lengthened later
    · have same : (p'.files.file g.file).size = (q.files.file g.file).size :=
        Nat.le_antisymm (Nat.le_of_not_lt later) second.file.size_le
      rw [same] at longer ⊢
      exact first.lengthened longer

/-- Platforms stay alike where the file becomes another of its length on each, as long as the two are
padded. -/
theorem Alike.setFile (alike : p.Alike g p') {f f' : File} (padded : f.Padded f')
    (size : f.size = (p.files.file g.file).size) (size' : f'.size = (p'.files.file g.file).size) :
    ({ p with files := p.files.setFile g.file f } : Platform).Alike g
      { p' with files := p'.files.setFile g.file f' } := by
  refine ⟨alike.live, alike.plan, ?_, fun other different => ?_, ?_, ?_⟩
  · exact ⟨alike.names.directories, alike.names.workingDirectory, alike.names.nextFile⟩
  · rw [FileSystem.file_setFile_of_ne _ _ different, FileSystem.file_setFile_of_ne _ _ different,
      alike.others other different]
  · rw [FileSystem.file_setFile_self, FileSystem.file_setFile_self]
    exact padded
  · rw [FileSystem.file_setFile_self, FileSystem.file_setFile_self, size, size']
    exact alike.lengthened

theorem Alike.store (alike : p.Alike g p') (shows : m.file = g.file) {offset : Nat} {data : Bytes}
    (within : offset + data.size ≤ (p.files.file g.file).size) :
    (p.store m offset data).Alike g (p'.store m offset data) := by
  rw [Platform.store, Platform.store, shows]
  exact alike.setFile (alike.file.overlay within) rfl rfl

theorem Alike.loadBytes_eq (alike : p.Alike g p') (shows : m.file = g.file) {offset len : Nat}
    (within : offset + len ≤ (p.files.file g.file).size) :
    p'.loadBytes m offset len = p.loadBytes m offset len := by
  rw [loadBytes, loadBytes, shows]
  exact alike.file.slice_eq within

/-- Taking a mapping down comes to the same. -/
theorem Alike.unmap (alike : p.Alike g p') (m : Mapping) :
    (p'.unmap m).1 = (p.unmap m).1 ∧ (p.unmap m).2.Alike g (p'.unmap m).2 := by
  obtain ⟨live, plan, names, others, file, lengthened⟩ := alike
  have unmaps : p'.plan.unmap = p.plan.unmap := by rw [plan]
  refine ⟨by rw [Platform.unmap, Platform.unmap, unmaps], ?_, ?_, names, others, file, lengthened⟩
  · show p'.live.erase m = p.live.erase m
    rw [live]
  · rw [Platform.unmap, Platform.unmap, unmaps, plan]

/-- The planned outcome of a flush, and the plan that remains. -/
def forFlush (plan : CallPlan) : Medium → Option Errno × CallPlan
  | .persistent =>
    match plan.persist with
    | [] => (none, plan)
    | o :: rest => (o, { plan with persist := rest })
  | .emulated =>
    match plan.pageSync with
    | [] => (none, plan)
    | o :: rest => (o, { plan with pageSync := rest })

/-- What a flush does, by its planned outcome. -/
theorem flush_eq (p : Platform) (medium : Medium) (m : Mapping) (offset len : Nat) :
    p.flush medium m offset len =
      let (failure, plan) := forFlush p.plan medium
      let q := { p with plan, calls := .flush medium m offset len failure :: p.calls }
      let file := (p.files.file m.file).settle offset (offset + len)
      let clears := plan.writesBack && medium == .emulated && reachesEnd file offset (offset + len)
      match failure with
      | some errno => (some errno, q)
      | none =>
        (none, { q with
          files := p.files.setFile m.file (if clears then file.clearPastEnd else file) }) := by
  cases medium <;> rfl

theorem forFlush_eq (plan : CallPlan) (medium : Medium) (plain synchronous : List MapOutcome) :
    forFlush { plan with plain, synchronous } medium =
      ((forFlush plan medium).1, { (forFlush plan medium).2 with plain, synchronous }) := by
  cases medium <;> simp only [forFlush] <;> split <;> rfl

/-- A flush comes to the same. How far it clears memory past the end of the file is no matter. -/
theorem Alike.flush (alike : p.Alike g p') (shows : m.file = g.file) (medium : Medium) (offset len : Nat) :
    (p'.flush medium m offset len).1 = (p.flush medium m offset len).1 ∧
      (p.flush medium m offset len).2.Alike g (p'.flush medium m offset len).2 := by
  have settled := alike.file.settle offset (offset + len)
  rw [flush_eq, flush_eq, alike.plan, forFlush_eq, shows]
  rcases forFlush p.plan medium with ⟨failure, rest⟩
  cases failure with
  | some errno =>
    exact ⟨rfl, alike.live, rfl, alike.names, alike.others, alike.file, alike.lengthened⟩
  | none =>
    dsimp only
    refine ⟨rfl, ?_⟩
    have same := alike.setFile (settled.clear
      (rest.writesBack && medium == .emulated &&
        reachesEnd ((p.files.file g.file).settle offset (offset + len)) offset (offset + len))
      (rest.writesBack && medium == .emulated &&
        reachesEnd ((p'.files.file g.file).settle offset (offset + len)) offset (offset + len)))
      (by split <;> rfl) (by split <;> rfl)
    exact ⟨same.live, rfl, same.names, same.others, same.file, same.lengthened⟩

end Platform

/-! ## Growing -/

theorem FileSystem.setLength_writable {fs fs' : FileSystem} {h : Handle} {len : Nat}
    (set : fs.setLength h len = .ok fs') : h.writable = true := by
  unfold setLength at set
  split at set
  · cases set
  · split at set
    · cases set
    · rename_i writable
      exact Bool.not_eq_false _ ▸ writable

/-- A file gets longer only through a handle that writes. -/
theorem TrackedFile.growTo_writable (f : TrackedFile) (len : Nat) (fs : FileSystem)
    (longer : (fs.file f.handle.file).size < ((f.growTo len fs).2.2.file f.handle.file).size) :
    f.handle.writable = true := by
  rw [growTo] at longer
  split at longer
  · exact absurd longer (Nat.lt_irrefl _)
  · rw [setLength] at longer
    split at longer
    · rename_i set
      exact FileSystem.setLength_writable set
    · exact absurd longer (Nat.lt_irrefl _)

theorem TrackedFile.growTo_file (f : TrackedFile) (len : Nat) (fs : FileSystem) :
    (f.growTo len fs).2.1 = { f with len := (f.growTo len fs).2.1.len } := by
  rw [growTo]
  split
  · rfl
  · rw [setLength]
    split <;> rfl

namespace Platform

variable {p p' : Platform} {g : Handle}

/-- Nothing but the plan of mappings and the calls on record may differ. -/
theorem Alike.of_planned (files : p'.files = p.files) (live : p'.live = p.live)
    (plan : p'.plan = { p.plan with plain := p'.plan.plain, synchronous := p'.plan.synchronous }) :
    p.Alike g p' := by
  refine ⟨live, plan, by rw [files]; exact .refl _, fun _ _ => by rw [files], ?_, fun longer => ?_⟩
  · rw [files]
    exact .refl _
  · rw [files] at longer
    exact absurd longer (Nat.lt_irrefl _)

theorem planned_eq (plan : CallPlan) (sharing : Sharing) : (planned plan sharing).2 =
    { plan with
      plain := (planned plan sharing).2.plain, synchronous := (planned plan sharing).2.synchronous } := by
  cases sharing <;> unfold planned <;> dsimp only <;> split <;> rfl

theorem map_refused {h : Handle} {len : Nat} {sharing : Sharing} {e : Option Errno}
    (refused : p.map h len sharing = (.error e, p')) : p.Alike g p' := by
  have plan := planned_eq p.plan sharing
  unfold map at refused
  dsimp only at refused
  split at refused <;> cases refused <;> exact .of_planned rfl rfl plan

end Platform

namespace Mapper

variable {p p' : Platform} {g : Handle} {h : Handle} {len : Nat} {e : MappingError}

theorem attempt_refused {sharing : Sharing} (refused : attempt h len sharing p = (.error e, p')) :
    p.Alike g p' := by
  unfold attempt at refused
  split at refused <;> rename_i mapped <;> cases refused <;> exact Platform.map_refused mapped

theorem mapPlain_refused {m : Mapper} (refused : m.mapPlain h len p = (.error e, p')) :
    p.Alike g p' := by
  unfold mapPlain at refused
  split at refused <;> rename_i attempted <;> cases refused
  exact attempt_refused attempted

/-- Whichever attempts to map a file fail, nothing else comes of them. -/
theorem map_refused {m : Mapper} (refused : m.map h len p = (.error e, p')) : p.Alike g p' := by
  unfold map at refused
  split at refused
  · cases refused
    exact .refl g p
  · split at refused
    · split at refused <;> rename_i attempted
      · cases refused
      · split at refused
        · exact (attempt_refused attempted).trans (mapPlain_refused refused)
        · cases refused
          exact attempt_refused attempted
    · exact mapPlain_refused refused

/-- A flush is answered as the call is that it makes. -/
theorem flush_eq (m : Mapper) (mapping : Mapping) (offset len : Nat) (medium : Medium) (p : Platform) :
    m.flush mapping offset len medium p = if len = 0 then (.ok (), p) else
      let before := match medium with
        | .persistent => 0
        | .emulated => m.pageOffset mapping offset
      let made := p.flush medium mapping (offset - before) (len + before)
      ((made.1.elim (.ok ()) fun errno => .error ⟨errno⟩), made.2) := by
  unfold flush
  split
  · rfl
  · cases medium <;> dsimp only <;> split <;> rename_i made <;> rw [made] <;> rfl

/-- A flush of a range comes to the same. -/
theorem flush_alike (m : Mapper) {mapping : Mapping} (alike : p.Alike g p') (shows : mapping.file = g.file)
    (offset len : Nat) (medium : Medium) :
    (m.flush mapping offset len medium p').1 = (m.flush mapping offset len medium p).1 ∧
      (m.flush mapping offset len medium p).2.Alike g (m.flush mapping offset len medium p').2 := by
  rw [flush_eq, flush_eq]
  split
  · exact ⟨rfl, alike⟩
  · obtain ⟨answer, same⟩ := alike.flush shows medium _ _
    exact ⟨by dsimp only; rw [answer], same⟩

theorem unmap_alike (mapping : Mapping) (alike : p.Alike g p') :
    (unmap mapping p').1 = (unmap mapping p).1 ∧ (unmap mapping p).2.Alike g (unmap mapping p').2 := by
  obtain ⟨answer, same⟩ := alike.unmap mapping
  rw [← snd_unmap, ← snd_unmap] at same
  refine ⟨?_, same⟩
  unfold unmap
  rcases unmapped : p.unmap mapping with ⟨failure, q⟩
  rcases unmapped' : p'.unmap mapping with ⟨failure', q'⟩
  rw [unmapped, unmapped'] at answer
  cases answer
  cases failure <;> rfl

end Mapper

/-! ## Trimming -/

/-- Whether a file can be given a length is a matter of the handle and the length. -/
theorem FileSystem.setLength_congr (fs fs' : FileSystem) (h : Handle) (len : Nat) :
    (∃ e, fs.setLength h len = .error e ∧ fs'.setLength h len = .error e) ∨
      fs.setLength h len = .ok (fs.setFile h.file ((fs.file h.file).resize len)) ∧
        fs'.setLength h len = .ok (fs'.setFile h.file ((fs'.file h.file).resize len)) := by
  unfold setLength
  split
  · exact .inl ⟨_, rfl, rfl⟩
  · split
    · exact .inl ⟨_, rfl, rfl⟩
    · split
      · exact .inl ⟨_, rfl, rfl⟩
      · exact .inr ⟨rfl, rfl⟩

/-- Trimming both files to a length that both reach leaves the same, and is answered the same. -/
theorem Platform.Alike.trimTo {f : TrackedFile} {p p' : Platform} (alike : p.Alike f.handle p')
    {n : Nat} (len : Nat) (within : n ≤ (p.files.file f.handle.file).size) :
    (({ f with len } : TrackedFile).trimTo n p'.files).1 = (f.trimTo n p.files).1 ∧
      ((f.trimTo n p.files).2.2.file f.handle.file).Holds
        ((({ f with len } : TrackedFile).trimTo n p'.files).2.2.file f.handle.file) := by
  have cut := alike.file.cut within
  have size_cut := alike.file.size_cut within
  by_cases longer : (p.files.file f.handle.file).size < (p'.files.file f.handle.file).size
  · obtain ⟨writable, bounded⟩ := alike.lengthened longer
    have reach : n ≤ FileSystem.maxFile := by omega
    have addressable : n ≤ Word.addressable := Nat.le_trans reach (by decide)
    obtain ⟨answer, file⟩ :=
      @TrackedFile.trimTo_file f n p.files writable addressable fun _ => reach
    obtain ⟨answer', file'⟩ :=
      @TrackedFile.trimTo_file { f with len } n p'.files writable addressable fun _ => reach
    refine ⟨by rw [answer, answer'], ?_⟩
    rw [← file] at cut size_cut
    exact file' ▸ cut.holds size_cut
  · have size : (p'.files.file f.handle.file).size = (p.files.file f.handle.file).size :=
      Nat.le_antisymm (Nat.le_of_not_lt longer) alike.file.size_le
    have refresh : ({ f with len } : TrackedFile).refresh p'.files = f.refresh p.files := by
      simp only [TrackedFile.refresh, FileSystem.length, size]
    rw [TrackedFile.trimTo, TrackedFile.trimTo, refresh]
    split
    · rename_i shorter
      have shorter : n < (p.files.file f.handle.file).size := shorter
      rw [size, if_pos shorter, if_pos shorter] at cut size_cut
      obtain ⟨e, refused, refused'⟩ | ⟨set, set'⟩ :=
        FileSystem.setLength_congr p.files p'.files (f.refresh p.files).handle n
      · rw [TrackedFile.setLength, TrackedFile.setLength, refused, refused']
        exact ⟨rfl, alike.file.holds size⟩
      · rw [TrackedFile.setLength, TrackedFile.setLength, set, set']
        refine ⟨rfl, ?_⟩
        show File.Holds ((p.files.setFile f.handle.file _).file f.handle.file)
          ((p'.files.setFile f.handle.file _).file f.handle.file)
        rw [FileSystem.file_setFile_self, FileSystem.file_setFile_self]
        exact cut.holds size_cut
    · exact ⟨rfl, alike.file.holds size⟩

end MappedStorage
