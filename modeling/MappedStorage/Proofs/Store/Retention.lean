import MappedStorage.Proofs.Mapping.NewFile
import MappedStorage.Proofs.Store.Basic

/-!
What the file of a path holds while stores come and go. A region that is trimmed holds bytes which are in
the file once it is closed (`RegionTable.Retains`). What the stores of the path do keeps these bytes, but
for a write, which lays its own over them (`Store.write_retains`); what others do keeps them too
(`RegionTable.Retains.of_spares`).
-/

namespace MappedStorage

/-- A region over a file that will be cut to these bytes. -/
structure Region.Bears (r : Region) (id : FileId) (bytes : Bytes) (p : Platform) : Prop where
  file : r.fileId = id
  trims : r.setup.trimOnClose = true
  clear : r.Clear p
  bytes : r.validBytes p = bytes

/-- A file holds these bytes, in the region of its path if there is one. -/
def RegionTable.Retains (t : RegionTable) (key : Path.Key) (id : FileId) (bytes : Bytes)
    (p : Platform) : Prop :=
  match t.find? key with
  | some held => held.region.Bears id bytes p
  | none => (p.files.file id).contents = bytes

namespace RegionTable

variable {t t' : RegionTable} {p p' : Platform} {key : Path.Key} {id : FileId} {bytes : Bytes}
  {held : HeldRegion}

theorem Retains.bears (retains : t.Retains key id bytes p) (found : t.find? key = some held) :
    held.region.Bears id bytes p := by rwa [Retains, found] at retains

theorem retains_of_bears (found : t.find? key = some held) (bears : held.region.Bears id bytes p) :
    t.Retains key id bytes p := by rwa [Retains, found]

theorem Retains.contents (retains : t.Retains key id bytes p) (absent : t.find? key = none) :
    (p.files.file id).contents = bytes := by rwa [Retains, absent] at retains

theorem retains_of_contents (absent : t.find? key = none) (holds : (p.files.file id).contents = bytes) :
    t.Retains key id bytes p := by rwa [Retains, absent]

/-- Where nothing happens to the file nor to the region of its path, the bytes stay. -/
theorem Retains.of_spares (retains : t.Retains key id bytes p)
    (same : t'.find? key = t.find? key) (spares : p.Spares id p') : t'.Retains key id bytes p' := by
  cases found : t.find? key with
  | none =>
    refine retains_of_contents (same.trans found) ?_
    rw [spares.file]
    exact retains.contents found
  | some held =>
    obtain ⟨rfl, trims, clear, bytes⟩ := retains.bears found
    have untouched : held.region.Untouched p p' := spares
    exact retains_of_bears (same.trans found)
      ⟨rfl, trims, untouched.clear clear, (untouched.validBytes clear.toSound).trans bytes⟩

end RegionTable

/-- Flushing changes no byte of a region. -/
theorem Region.Bears.of_settled {r : Region} {p p' : Platform} {id : FileId} {bytes : Bytes}
    (bears : r.Bears id bytes p) (settled : r.Settled p p') : r.Bears id bytes p' :=
  ⟨bears.file, bears.trims, settled.clear bears.clear,
    (settled.validBytes bears.clear.toSound).trans bears.bytes⟩

namespace Store

open RegionTable

variable {s s' : Store} {t t' : RegionTable} {p p' : Platform} {result : Except ProviderError Unit}
  {id : FileId} {bytes : Bytes}

theorem write_retains {offset : Nat} {data : Bytes} (retains : t.Retains s.path.key id bytes p)
    (wrote : s.write offset data t p = (result, s', t', p')) :
    t'.Retains s.path.key id (if s.takes offset data t p then overlaid bytes offset data else bytes) p' := by
  have correct := write_correct wrote
  cases region : s.region? t with
  | none =>
    rw [region] at correct
    obtain ⟨_, _, rfl, rfl⟩ := correct
    simp only [takes, region]
    exact retains
  | some r =>
    rw [region] at correct
    obtain ⟨outcome, r', q, writing, rfl, _, flushing⟩ := correct
    obtain ⟨_, n, found⟩ := region?_eq_some_iff.mp region
    obtain ⟨rfl, trims, clear, rfl⟩ := retains.bears found
    obtain ⟨kept, sound, _, wrote⟩ := Region.write_correct clear.toSound writing
    have bears : r'.Bears r.fileId (r'.validBytes q) q :=
      ⟨kept.same.fileId_eq, kept.same.setup ▸ trims, wrote.clear clear sound, rfl⟩
    refine retains_of_bears (differs_setRegion found r').here ?_
    have settled := bears.of_settled (flushing.settled sound.shows)
    simp only [takes, region, writing]
    cases outcome with
    | error e => rwa [wrote.validBytes_error clear.toSound sound] at settled
    | ok written => rwa [wrote.validBytes_ok clear sound] at settled

theorem sync_retains (retains : t.Retains s.path.key id bytes p)
    (synced : s.sync t p = (result, s', p')) : t.Retains s.path.key id bytes p' := by
  have correct := sync_correct synced
  cases region : s.region? t with
  | none =>
    rw [region] at correct
    obtain ⟨_, _, rfl⟩ := correct
    exact retains
  | some r =>
    rw [region] at correct
    obtain ⟨_, n, found⟩ := region?_eq_some_iff.mp region
    have bears := retains.bears found
    exact retains_of_bears found (bears.of_settled (correct.settled bears.clear.shows))

/-- The last store that is closed leaves the bytes in the file. -/
theorem close_retains (retains : t.Retains s.path.key id bytes p)
    (closed : s.close t p = (result, s', t', p')) : t'.Retains s.path.key id bytes p' := by
  obtain ⟨_, rfl, rfl⟩ | ⟨held, _, found, ⟨_, rfl, rfl⟩ | ⟨_, rfl, rfl⟩⟩ := (close_correct closed).2
  · exact retains
  · have bears := retains.bears found
    exact retains_of_bears (t.differs_insert s.path.key _).here bears
  · obtain ⟨rfl, trims, clear, rfl⟩ := retains.bears found
    exact retains_of_contents (t.differs_erase s.path.key).here
      (clear.close_closed.contents_of_clear clear trims)

/-- A store that is opened finds the bytes, in the region of the path or in a new one over the file. -/
theorem open_retains {path : Path} {role : Role} {setup : RegionSetup} {made : Except ProviderError Store}
    (retains : t.Retains path.key id bytes p) (trims : setup.trimOnClose = true)
    (leads : p.files.openExisting path true = .ok ⟨id, true⟩)
    (opened : Store.open path role setup t p = (made, t', p')) : t'.Retains path.key id bytes p' := by
  have correct := open_correct opened
  cases made with
  | error e =>
    obtain ⟨absent, rfl, e', opening⟩ := correct
    have unopened := (Region.open_correct opening).2
    exact retains_of_contents absent ((unopened.contents trims _ leads).trans (retains.contents absent))
  | ok s =>
    obtain ⟨held, found, rfl, rfl, rfl⟩ | ⟨absent, r, opening, rfl, rfl⟩ := correct
    · have bears := retains.bears found
      exact retains_of_bears (t.differs_insert path.key _).here bears
    · have opened := (Region.open_correct opening).2
      have target : p.files.target? path = some id := by
        rw [FileSystem.target?, FileSystem.openOrCreate_of_leads leads]
        rfl
      refine retains_of_bears (t.differs_insert path.key _).here
        ⟨Option.some.inj (opened.target.symm.trans target), opened.setup_eq ▸ trims, opened.clear, ?_⟩
      rw [opened.bytes, FileSystem.bytesAt, leads]
      exact retains.contents absent

/-- A store can be opened at a vacant place. -/
theorem open_isOk {path : Path} {role : Role} {setup : RegionSetup} {holder : DirectoryId} {name : Name}
    (absent : t.find? path.key = none) (vacant : p.files.resolve .create path = .ok (.vacant holder name))
    (room : Region.HasRoom setup p) : (Store.open path role setup t p).1.isOk = true := by
  obtain ⟨r, q, opening⟩ := Region.exists_of_isOk (Region.open_of_vacant vacant room)
  rw [Store.open, absent]
  dsimp only
  rw [opening]
  rfl

/-- A store that is opened at a vacant place has a new file, which is empty. -/
theorem open_new {path : Path} {role : Role} {setup : RegionSetup} {holder : DirectoryId} {name : Name}
    (absent : t.find? path.key = none) (trims : setup.trimOnClose = true)
    (vacant : p.files.resolve .create path = .ok (.vacant holder name))
    (opened : Store.open path role setup t p = (.ok s, t', p')) :
    t'.Retains path.key p.files.nextFile #[] p' ∧
      p'.files.openExisting path true = .ok ⟨p.files.nextFile, true⟩ := by
  obtain ⟨held, found, _⟩ | ⟨_, r, opening, rfl, rfl⟩ := open_correct opened
  · rw [absent] at found
    cases found
  · have opened := (Region.open_correct opening).2
    have file : r.fileId = p.files.nextFile :=
      Option.some.inj (opened.target.symm.trans (FileSystem.target?_of_vacant vacant))
    refine ⟨retains_of_bears (t.differs_insert path.key _).here
      ⟨file, opened.setup_eq ▸ trims, opened.clear, ?_⟩, ?_⟩
    · rw [opened.bytes, FileSystem.bytesAt_of_vacant vacant]
    · rw [opened.leads, ← file, Region.fileId, ← opened.clear.writable]

end Store
end MappedStorage
