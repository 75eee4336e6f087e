import MappedStorage.Proofs.Keyed
import MappedStorage.Proofs.Mapping.Lifetime
import MappedStorage.Store.Basic

/-!
The table of open regions. It counts the stores of each path (`Counts`), and each of its regions is
alone with its file, which no other region of the table has (`Consistent`). Both are kept by the three
changes that a table sees: a region is added, replaced by what it has become, or removed.
-/

namespace MappedStorage.RegionTable

/-- The table has a region where there are stores, with their number. -/
structure Counts (stores : Path.Key → Nat) (t : RegionTable) : Prop where
  counted : ∀ key held, t.find? key = some held → held.stores = stores key
  positive : ∀ key, t.find? key ≠ none ↔ 0 < stores key

/-- Each region of the table has its file to itself and holds the contents of its path, which leads to
its file. All mappings are of these files or of foreign ones. -/
structure Consistent (foreign : List FileId) (contents : Path.Key → Bytes) (t : RegionTable)
    (p : Platform) : Prop where
  alone : ∀ key held, t.find? key = some held → held.region.Alone p
  holds : ∀ key held, t.find? key = some held → held.region.validBytes p = contents key
  named : ∀ key held, t.find? key = some held → held.region.path.key = key
  leads : ∀ key held, t.find? key = some held →
    p.files.openExisting held.region.path true = .ok held.region.file.handle
  apart : ∀ key other held held', t.find? key = some held → t.find? other = some held' →
    held.region.fileId = held'.region.fileId → key = other
  mapped : ∀ m ∈ p.live, m.file ∈ foreign ∨
    ∃ key held, t.find? key = some held ∧ m.file = held.region.fileId

/-- The file of a path is not foreign, nor is it the file of a region of another path. -/
def Separate (foreign : List FileId) (path : Path) (t : RegionTable) (p : Platform) : Prop :=
  ∀ id, p.files.target? path = some id → id ∉ foreign ∧
    ∀ key held, t.find? key = some held → key ≠ path.key → held.region.fileId ≠ id

/-- A table that differs from another under one key at most. -/
def Differs (t : RegionTable) (key : Path.Key) (entry : Option HeldRegion) (t' : RegionTable) : Prop :=
  ∀ other, t'.find? other = if other = key then entry else t.find? other

variable {t t' : RegionTable} {p p' : Platform} {key : Path.Key} {held : HeldRegion} {region : Region}
  {entry : Option HeldRegion}

theorem differs_setRegion (found : t.find? key = some held) (region : Region) :
    t.Differs key (some { held with region }) (t.setRegion key region) := by
  intro other
  rw [setRegion, Keyed.find?_modify]
  split
  · rename_i here
    rw [here, found]
    rfl
  · rfl

theorem differs_insert (t : RegionTable) (key : Path.Key) (held : HeldRegion) :
    t.Differs key (some held) (t.insert key held) := fun other => t.find?_insert key other held

theorem differs_erase (t : RegionTable) (key : Path.Key) : t.Differs key none (t.erase key) :=
  fun other => t.find?_erase key other

theorem Differs.here (differs : t.Differs key entry t') : t'.find? key = entry := by
  rw [differs, if_pos rfl]

theorem Differs.elsewhere (differs : t.Differs key entry t') {other : Path.Key}
    (different : other ≠ key) : t'.find? other = t.find? other := by
  rw [differs, if_neg different]

/-- What is found is the entry that differs or was there before. -/
theorem Differs.cases (differs : t.Differs key entry t') {other : Path.Key}
    (there : t'.find? other = some held) :
    other = key ∧ entry = some held ∨ other ≠ key ∧ t.find? other = some held := by
  rw [differs] at there
  split at there
  · exact .inl ⟨by assumption, there⟩
  · exact .inr ⟨by assumption, there⟩

/-- Nothing was opened: paths lead where they did, and no region is new. -/
structure NoneOpened (t : RegionTable) (p : Platform) (t' : RegionTable) (p' : Platform) : Prop where
  names : p.files.SameNames p'.files
  regions : ∀ key held', t'.find? key = some held' →
    ∃ held, t.find? key = some held ∧ held'.region.path = held.region.path

theorem NoneOpened.refl (t : RegionTable) (p : Platform) : t.NoneOpened p t p :=
  ⟨.refl _, fun _ held there => ⟨held, there, rfl⟩⟩

/-- Where only the platform changes, nothing is opened as long as the names stay. -/
theorem NoneOpened.of_names (names : p.files.SameNames p'.files) : t.NoneOpened p t p' :=
  ⟨names, fun _ held there => ⟨held, there, rfl⟩⟩

theorem NoneOpened.of_differs (found : t.find? key = some held) (differs : t.Differs key entry t')
    (same : ∀ held' ∈ entry, held'.region.path = held.region.path)
    (names : p.files.SameNames p'.files) : t.NoneOpened p t' p' := by
  refine ⟨names, fun other held' there => ?_⟩
  obtain ⟨rfl, here⟩ | ⟨_, before⟩ := differs.cases there
  · exact ⟨held, found, same held' here⟩
  · exact ⟨held', before, rfl⟩

/-! ## Counts -/

variable {stores stores' : Path.Key → Nat}

theorem counts_empty : Counts (fun _ => 0) ∅ := ⟨by simp, by simp⟩

theorem Counts.congr (counts : t.Counts stores) (same : ∀ key, stores' key = stores key) :
    t.Counts stores' := by
  rw [funext same]
  exact counts

/-- The table tells the number of stores of a path that has become larger or smaller. -/
theorem Counts.put (counts : t.Counts stores) (differs : t.Differs key (some held) t')
    (positive : 0 < held.stores)
    (counted : ∀ other, stores' other = if other = key then held.stores else stores other) :
    t'.Counts stores' := by
  refine ⟨fun other found there => ?_, fun other => ?_⟩
  · rw [counted]
    obtain ⟨here, same⟩ | ⟨different, before⟩ := differs.cases there
    · rw [if_pos here, ← Option.some.inj same]
    · rw [if_neg different, counts.counted other found before]
  · rw [differs, counted]
    split
    · simpa using positive
    · exact counts.positive other

theorem Counts.remove (counts : t.Counts stores) (differs : t.Differs key none t')
    (counted : ∀ other, stores' other = if other = key then 0 else stores other) :
    t'.Counts stores' := by
  refine ⟨fun other found there => ?_, fun other => ?_⟩
  · obtain ⟨_, absent⟩ | ⟨different, before⟩ := differs.cases there
    · cases absent
    · rw [counted, if_neg different, counts.counted other found before]
  · rw [differs, counted]
    split
    · simp
    · exact counts.positive other

/-! ## Consistency -/

variable {foreign : List FileId} {contents contents' : Path.Key → Bytes}

/-- A region that may stand under a key of a table: it has its file to itself, also among the regions of
other keys. -/
structure Belongs (contents : Path.Key → Bytes) (key : Path.Key) (t : RegionTable) (p : Platform)
    (region : Region) : Prop where
  alone : region.Alone p
  holds : region.validBytes p = contents key
  named : region.path.key = key
  leads : p.files.openExisting region.path true = .ok region.file.handle
  apart : ∀ other held, other ≠ key → t.find? other = some held →
    held.region.fileId ≠ region.fileId

/-- One entry of the table changes, and its file with it. Regions under other keys are untouched. -/
theorem Consistent.change (consistent : t.Consistent foreign contents p)
    (differs : t.Differs key entry t')
    (belongs : ∀ held ∈ entry, Belongs contents' key t p' held.region)
    (untouched : ∀ other held, other ≠ key → t.find? other = some held → held.region.Untouched p p')
    (leads : ∀ path h, p.files.openExisting path true = .ok h → p'.files.openExisting path true = .ok h)
    (live : ∀ m ∈ p'.live, (∃ held ∈ entry, m.file = held.region.fileId) ∨
      m ∈ p.live ∧ ∀ held, t.find? key = some held → m.file ≠ held.region.fileId)
    (others : ∀ other, other ≠ key → contents' other = contents other) :
    t'.Consistent foreign contents' p' := by
  constructor
  case alone =>
    intro other held' there
    obtain ⟨rfl, here⟩ | ⟨different, before⟩ := differs.cases there
    · exact (belongs held' here).alone
    · exact (untouched other held' different before).alone (consistent.alone other held' before)
  case holds =>
    intro other held' there
    obtain ⟨rfl, here⟩ | ⟨different, before⟩ := differs.cases there
    · exact (belongs held' here).holds
    · have sound := (consistent.alone other held' before).toSound
      rw [(untouched other held' different before).validBytes sound, others other different]
      exact consistent.holds other held' before
  case named =>
    intro other held' there
    obtain ⟨rfl, here⟩ | ⟨_, before⟩ := differs.cases there
    · exact (belongs held' here).named
    · exact consistent.named other held' before
  case leads =>
    intro other held' there
    obtain ⟨rfl, here⟩ | ⟨_, before⟩ := differs.cases there
    · exact (belongs held' here).leads
    · exact leads _ _ (consistent.leads other held' before)
  case apart =>
    intro other another held' held'' there there' same_file
    obtain ⟨rfl, here⟩ | ⟨different, before⟩ := differs.cases there <;>
      obtain ⟨rfl, here'⟩ | ⟨different', before'⟩ := differs.cases there'
    · rfl
    · exact absurd same_file.symm ((belongs held' here).apart another held'' different' before')
    · exact absurd same_file ((belongs held'' here').apart other held' different before)
    · exact consistent.apart other another held' held'' before before' same_file
  case mapped =>
    intro m member
    obtain ⟨held', here, file⟩ | ⟨before, elsewhere⟩ := live m member
    · exact .inr ⟨key, held', differs.here.trans here, file⟩
    · obtain strange | ⟨other, held', there, file⟩ := consistent.mapped m before
      · exact .inl strange
      · have different : other ≠ key := by
          rintro rfl
          exact elsewhere held' there file
        exact .inr ⟨other, held', (differs.elsewhere different).trans there, file⟩

/-- Regions of different keys have different files. -/
theorem Consistent.different (consistent : t.Consistent foreign contents p)
    (found : t.find? key = some held) {other : Path.Key} {held' : HeldRegion} (different : other ≠ key)
    (there : t.find? other = some held') : held'.region.fileId ≠ held.region.fileId :=
  fun same_file => different (consistent.apart _ _ _ _ there found same_file)

/-- The region under a key has become another one over the same file, and its contents may have
changed. -/
theorem Consistent.put (consistent : t.Consistent foreign contents p) (found : t.find? key = some held)
    {n : Nat} (differs : t.Differs key (some ⟨region, n⟩) t') (same : held.region.SameRegion region)
    (only : p.OnlyFile held.region.fileId p') (alone : region.Alone p')
    (holds : region.validBytes p' = contents' key)
    (others : ∀ other, other ≠ key → contents' other = contents other) :
    t'.Consistent foreign contents' p' := by
  have leads (path : Path) : p'.files.openExisting path true = p.files.openExisting path true :=
    only.names.openExisting path true
  refine consistent.change differs ?_ (fun other held' different there =>
    .of_onlyFile only (consistent.different found different there)) (fun path h there => ?_)
    (fun m member => ?_) others
  · rintro _ ⟨⟩
    refine ⟨alone, holds, (congrArg Path.key same.path).trans (consistent.named _ held found), ?_,
      fun other held' different there => ?_⟩
    · rw [leads, Region.path, same.path, same.handle]
      exact consistent.leads _ held found
    · rw [same.fileId_eq]
      exact consistent.different found different there
  · rw [leads]
    exact there
  · by_cases here : m.file = held.region.fileId
    · exact .inl ⟨_, rfl, here.trans same.fileId_eq.symm⟩
    · refine .inr ⟨(only.mem_live here).mp member, fun held' there => ?_⟩
      rw [found] at there
      cases there
      exact here

theorem consistent_empty (contents : Path.Key → Bytes) (p : Platform) :
    Consistent (p.live.map (·.file)) contents ∅ p := by
  constructor
  case mapped => exact fun m member => .inl (List.mem_map_of_mem member)
  all_goals simp

variable {path : Path} {setup : RegionSetup}

/-- The file that is opened for a path without a region is not mapped. -/
theorem Consistent.unmapped (consistent : t.Consistent foreign contents p)
    (absent : t.find? path.key = none) (separate : t.Separate foreign path p) {id : FileId}
    (target : p.files.target? path = some id) : p.mappingsOf id = [] := by
  refine List.filter_eq_nil_iff.mpr fun m member here => ?_
  obtain rfl : m.file = id := of_decide_eq_true here
  obtain ⟨familiar, others⟩ := separate _ target
  obtain strange | ⟨key, held, found, file⟩ := consistent.mapped m member
  · exact familiar strange
  · refine others key held found ?_ file.symm
    rintro rfl
    rw [absent] at found
    cases found

/-- While the file of a path without a region is opened, the regions of other paths are untouched, and
so are the mappings of their files. -/
theorem Consistent.untouched (absent : t.find? path.key = none)
    (separate : t.Separate foreign path p) (opening : Region.Opening path p p')
    (found : t.find? key = some held) : held.region.Untouched p p' := by
  refine opening.untouched fun target => (separate _ target).2 key held found ?_ rfl
  rintro rfl
  rw [absent] at found
  cases found

/-- A region that is opened anew holds what its path led to. -/
theorem Consistent.add (consistent : t.Consistent foreign contents p)
    (absent : t.find? path.key = none) (separate : t.Separate foreign path p)
    (opening : Region.Opening path p p') (opened : Region.OpenedAt path setup p region p') {n : Nat}
    (differs : t.Differs path.key (some ⟨region, n⟩) t')
    (holds : contents' path.key = p.files.bytesAt path)
    (others : ∀ other, other ≠ path.key → contents' other = contents other) :
    t'.Consistent foreign contents' p' := by
  refine consistent.change differs ?_ (fun other held' _ there =>
    Consistent.untouched absent separate opening there) opening.leads (fun m member => ?_) others
  · rintro _ ⟨⟩
    refine ⟨opened.alone (consistent.unmapped absent separate opened.target),
      opened.bytes.trans holds.symm, congrArg Path.key opened.path_eq, ?_,
      fun other held' different there => (separate _ opened.target).2 other held' there different⟩
    rw [opened.path_eq]
    exact opened.leads
  · by_cases here : m.file = region.fileId
    · exact .inl ⟨_, rfl, here⟩
    · have target : p.files.target? path ≠ some m.file := fun target =>
        here (Option.some.inj (target.symm.trans opened.target))
      refine .inr ⟨(opening.mem_live target).mp member, fun held' there => ?_⟩
      rw [absent] at there
      cases there

/-- Where no region can be opened, those of other paths stay as they were. -/
theorem Consistent.not_added (consistent : t.Consistent foreign contents p)
    (absent : t.find? path.key = none) (separate : t.Separate foreign path p)
    (opening : Region.Opening path p p')
    (unmapped : ∀ id, p.mappingsOf id = [] → p'.mappingsOf id = [])
    (others : ∀ other, other ≠ path.key → contents' other = contents other) :
    t.Consistent foreign contents' p' := by
  have unchanged : t.Differs path.key none t := fun other => by
    split
    · rename_i here
      rw [here, absent]
    · rfl
  refine consistent.change unchanged (by simp) (fun other held' _ there =>
    Consistent.untouched absent separate opening there) opening.leads (fun m member => ?_) others
  by_cases target : p.files.target? path = some m.file
  · have gone := unmapped _ (consistent.unmapped absent separate target)
    have here : m ∈ p'.mappingsOf m.file := by simpa [Platform.mappingsOf] using member
    rw [gone] at here
    cases here
  · refine .inr ⟨(opening.mem_live target).mp member, fun held' there => ?_⟩
    rw [absent] at there
    cases there

/-- A region that is closed leaves the others as they were. -/
theorem Consistent.remove (consistent : t.Consistent foreign contents p)
    (found : t.find? key = some held) (differs : t.Differs key none t')
    (closed : held.region.Closed p p') : t'.Consistent foreign contents p' := by
  have only := closed.onlyFile
  refine consistent.change differs (by simp) (fun other held' different there =>
    .of_onlyFile only (consistent.different found different there)) (fun path h there => ?_)
    (fun m member => ?_) fun _ _ => rfl
  · rw [only.names.openExisting]
    exact there
  · have away : m.file ≠ held.region.fileId := by
      intro here
      have left : m ∈ p'.mappingsOf held.region.fileId := by
        simpa [Platform.mappingsOf, here] using member
      rw [closed.unmapped (consistent.alone key held found).only] at left
      cases left
    refine .inr ⟨(only.mem_live away).mp member, fun held' there => ?_⟩
    rw [found] at there
    cases there
    exact away

end MappedStorage.RegionTable
