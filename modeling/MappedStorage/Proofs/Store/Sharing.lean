import MappedStorage.Proofs.Store.Run

/-!
Stores of one path share one file. Whatever events led there, each open store shows all that was
written to its path, a store that is closed before the last one disturbs no other, and once the last
one is closed the file holds what was written, in whichever order they were closed
(`run_faithful`).
-/

namespace MappedStorage

/-- The name of the store that an event closes or drops. -/
def StoreEvent.ends? : StoreEvent → Option String
  | .close name | .drop name => some name
  | _ => none

namespace Stores

/-- The keys of the stores that are open. -/
def openKeys (s : Stores) : List Path.Key :=
  (s.objects.entries.filter fun e => !e.2.closed).map (·.2.path.key)

/-- The region of a path before some stores are closed, and what is left of it when they are. The
stores of other paths never touch its file. -/
def Ending (r : Region) (key : Path.Key) (p₀ : Platform) (t : RegionTable) (p : Platform) : Prop :=
  p₀.files.SameNames p.files ∧
    ((∃ n, t.find? key = some ⟨r, n⟩ ∧ r.backing p = r.backing p₀) ∨
      t.find? key = none ∧
        (∀ other held, t.find? other = some held → held.region.fileId ≠ r.fileId) ∧
        r.backing p = if r.setup.trimOnClose = true ∧ r.used < (r.backing p₀).size then
          (r.backing p₀).resize r.used else r.backing p₀)

variable {s : Stores} {foreign : List FileId} {contents : Path.Key → Bytes} {r : Region}
  {key : Path.Key} {p₀ p p' : Platform} {t t' : RegionTable} {store : Store} {name : String}
  {e : StoreEvent}

theorem ending_close (consistent : t.Consistent foreign contents p) (ending : Ending r key p₀ t p)
    (closed : store.CloseCorrect t p t' p') : Ending r key p₀ t' p' := by
  obtain ⟨_, rfl, rfl⟩ | ⟨held, _, found, ⟨_, rfl, rfl⟩ | ⟨_, rfl, rfl⟩⟩ := closed
  · exact ending
  · have differs := t.differs_insert store.path.key { held with stores := held.stores - 1 }
    obtain ⟨names, ⟨n, there, same⟩ | ⟨gone, apart, left⟩⟩ := ending
    · refine ⟨names, .inl ?_⟩
      by_cases here : key = store.path.key
      · subst here
        rw [there] at found
        cases found
        exact ⟨_, differs.here, same⟩
      · exact ⟨n, (differs.elsewhere here).trans there, same⟩
    · refine ⟨names, .inr ⟨?_, fun other held' there => ?_, left⟩⟩
      · have here : key ≠ store.path.key := by
          rintro rfl
          rw [gone] at found
          cases found
        rw [differs.elsewhere here, gone]
      · obtain ⟨rfl, same⟩ | ⟨_, before⟩ := differs.cases there
        · cases same
          exact apart store.path.key held found
        · exact apart _ _ before
  · have differs := t.differs_erase store.path.key
    have closed := (consistent.alone _ _ found).close_closed
    obtain ⟨names, ⟨n, there, same⟩ | ⟨gone, apart, left⟩⟩ := ending
    · refine ⟨names.trans closed.onlyFile.names, ?_⟩
      by_cases here : key = store.path.key
      · subst here
        rw [there] at found
        cases found
        refine .inr ⟨differs.here, fun other held' there' => ?_, ?_⟩
        · obtain ⟨_, absent⟩ | ⟨different, before⟩ := differs.cases there'
          · cases absent
          · exact fun same_file => different (consistent.apart _ _ _ _ before there same_file)
        · rw [← same]
          exact closed.trimmed
      · refine .inl ⟨n, (differs.elsewhere here).trans there, ?_⟩
        rw [← same]
        exact closed.onlyFile.others _ fun same_file =>
          here (consistent.apart _ _ _ _ there found same_file)
    · refine ⟨names.trans closed.onlyFile.names, .inr ⟨?_, fun other held' there => ?_, ?_⟩⟩
      · rw [differs]
        split
        · rfl
        · exact gone
      · obtain ⟨_, absent⟩ | ⟨_, before⟩ := differs.cases there
        · cases absent
        · exact apart _ _ before
      · rw [← left]
        exact closed.onlyFile.others _ (apart _ _ found).symm

/-- What an event that ends a store does to the table and the platform, and to no other store. -/
theorem step_of_ends (ends : e.ends? = some name) (found : s.find? name = some store) :
    (s.step e).2.state = store.drop s.state ∧
      ∀ other, other ≠ name → (s.step e).2.find? other = s.find? other := by
  cases e with
  | close given =>
    cases ends
    rcases closing : store.close s.table s.platform with ⟨result, store', t, p⟩
    rw [step, perform_of_find? found (by rw [closing])]
    refine ⟨?_, fun other different => (Keyed.find?_modify ..).trans (if_neg different)⟩
    exact (congrArg (·.2.2) closing).symm
  | drop given =>
    cases ends
    simp only [step, Session.drop, found]
    exact ⟨trivial, fun other different => (Keyed.find?_erase ..).trans (if_neg different)⟩
  | _ => cases ends

theorem step_of_nobody (ends : e.ends? = some name) (absent : s.find? name = none) :
    (s.step e).2 = s := by
  cases e with
  | close given =>
    cases ends
    rw [step, perform_of_none absent]
  | drop given =>
    cases ends
    simp only [step, Session.drop, absent]
  | _ => cases ends

/-- Ending stores opens nothing and writes nothing. -/
theorem ends_harmless (foreign : List FileId) (contents : Path.Key → Bytes) (ends : e.ends? ≠ none)
    (s : Stores) : s.Separate foreign e ∧ s.account contents e = contents := by
  cases e with
  | close name => exact ⟨trivial, rfl⟩
  | drop name => exact ⟨trivial, rfl⟩
  | _ => exact absurd rfl ends

theorem ending_step (valid : s.Valid foreign contents) (ends : e.ends? ≠ none)
    (ending : Ending r key p₀ s.table s.platform) :
    Ending r key p₀ (s.step e).2.table (s.step e).2.platform := by
  obtain ⟨name, ends⟩ := Option.ne_none_iff_exists'.mp ends
  cases found : s.find? name with
  | none =>
    rw [step_of_nobody ends found]
    exact ending
  | some store =>
    have state := (step_of_ends ends found).1
    rcases closing : store.close s.table s.platform with ⟨result, store', t, p⟩
    have correct := (Store.close_correct closing).2
    have same : (s.step e).2.state = (t, p) := by
      rw [state]
      exact congrArg (·.2.2) closing
    rw [table, platform, same]
    exact ending_close valid.consistent ending correct

/-- However many stores are closed, in whichever order, what is left of a region depends only on what it
was before. -/
theorem ending_run {events : List StoreEvent} (valid : s.Valid foreign contents)
    (ends : ∀ e ∈ events, e.ends? ≠ none) (ending : Ending r key p₀ s.table s.platform) :
    Ending r key p₀ (s.run events).table (s.run events).platform ∧
      (s.run events).Valid foreign contents := by
  induction events generalizing s with
  | nil => exact ⟨ending, valid⟩
  | cons e rest ih =>
    have here := ends e List.mem_cons_self
    obtain ⟨separate, same⟩ := ends_harmless foreign contents here s
    have valid' := step_valid valid separate
    rw [same] at valid'
    exact ih valid' (fun e member => ends e (List.mem_cons_of_mem _ member))
      (ending_step valid here ending)

/-- Stores that share files faithfully, with what was written to each path. -/
structure Faithful (foreign : List FileId) (contents : Path.Key → Bytes) (s : Stores) : Prop where
  /-- A path has a region as long as a store of it is open. -/
  one_region : ∀ key, s.table.find? key ≠ none ↔
    ∃ name store, s.find? name = some store ∧ store.closed = false ∧ store.path.key = key
  /-- No file of a region is mapped but by its region. -/
  one_mapping : ∀ key held, s.table.find? key = some held →
    (s.platform.mappingsOf held.region.fileId).Perm held.region.mapped.toList
  /-- Nor are there other mappings, but foreign ones. -/
  no_other_mapping : ∀ m ∈ s.platform.live, m.file ∈ foreign ∨
    ∃ key held, s.table.find? key = some held ∧ held.region.mapped = some m
  /-- The table tells how many paths have an open store. -/
  size_eq : s.table.size = s.openKeys.dedup.length
  /-- Each open store shows all that was written. -/
  shows : ∀ name store, s.find? name = some store → store.closed = false →
    let bytes := contents store.path.key
    (∀ offset buffer, (s.step (.read name offset buffer)).1 =
      .read (if offset + buffer.size ≤ bytes.size then .ok ()
        else .error (.ofRegion .reading (.shortRead offset buffer.size bytes.size)))
        (window bytes offset buffer.size)) ∧
    (∀ offset len, (s.step (.fetch name offset len)).1 =
      .fetched (if offset + len ≤ bytes.size then some (window bytes offset len) else none)) ∧
    (s.step (.fileSize name)).1 = .size bytes.size
  /-- A store that is not the last of its path disturbs no other when it ends. -/
  not_last : ∀ e name store, e.ends? = some name → s.find? name = some store → store.closed = false →
    1 < s.holders store.path.key →
    (s.step e).2.platform = s.platform ∧
      ∀ other store', other ≠ name → s.find? other = some store' →
        (s.step e).2.find? other = some store' ∧
          store'.region? (s.step e).2.table = store'.region? s.table
  /-- Once all stores of a path have ended, in whichever order, its file holds what was written, with
  zeros up to the length it had if the region was not to be trimmed. -/
  last : ∀ key held events, s.table.find? key = some held → (∀ e ∈ events, e.ends? ≠ none) →
    let s' : Stores := s.run events
    s'.holders key = 0 →
    s'.table.find? key = none ∧
    s'.platform.files.openExisting held.region.path true = .ok held.region.file.handle ∧
    (s'.platform.files.file held.region.fileId).contents =
      contents key ++ Array.replicate (if held.region.setup.trimOnClose then 0 else
        (s.platform.files.file held.region.fileId).size - (contents key).size) 0

/-- The region of a store that is open. -/
theorem Valid.region (valid : s.Valid foreign contents) (found : s.find? name = some store)
    (isOpen : store.closed = false) :
    ∃ r, store.region? s.table = some r ∧ r.Alone s.platform ∧
      r.validBytes s.platform = contents store.path.key := by
  obtain ⟨held, there⟩ :=
    Option.ne_none_iff_exists'.mp ((valid.counts.positive _).mpr (holders_pos found isOpen))
  exact ⟨held.region, Store.region?_eq_some_iff.mpr ⟨isOpen, held.stores, there⟩,
    valid.consistent.alone _ _ there, valid.consistent.holds _ _ there⟩

theorem Valid.one_region (valid : s.Valid foreign contents) (key : Path.Key) :
    s.table.find? key ≠ none ↔
      ∃ name store, s.find? name = some store ∧ store.closed = false ∧ store.path.key = key := by
  rw [valid.counts.positive, holders, Keyed.count_pos_iff]
  simp only [Store.holds_iff]
  rfl

theorem Valid.no_other_mapping (valid : s.Valid foreign contents) {m : Mapping}
    (live : m ∈ s.platform.live) : m.file ∈ foreign ∨
      ∃ key held, s.table.find? key = some held ∧ held.region.mapped = some m := by
  obtain strange | ⟨key, held, found, file⟩ := valid.consistent.mapped m live
  · exact .inl strange
  · have here : m ∈ s.platform.mappingsOf held.region.fileId := by
      simpa [Platform.mappingsOf, file] using live
    rw [(valid.consistent.alone _ _ found).only.mem_iff, Option.mem_toList] at here
    exact .inr ⟨key, held, found, here⟩

theorem mem_openKeys_iff : key ∈ s.openKeys ↔
    ∃ name store, s.find? name = some store ∧ store.closed = false ∧ store.path.key = key := by
  simp only [openKeys, List.mem_map, List.mem_filter, Bool.not_eq_true']
  constructor
  · rintro ⟨e, ⟨member, isOpen⟩, rfl⟩
    exact ⟨e.1, e.2, Keyed.mem_entries_iff.mp member, isOpen, rfl⟩
  · rintro ⟨name, store, found, isOpen, rfl⟩
    exact ⟨(name, store), ⟨Keyed.mem_entries_iff.mpr found, isOpen⟩, rfl⟩

theorem Valid.size_eq (valid : s.Valid foreign contents) :
    s.table.size = s.openKeys.dedup.length := by
  have same : (s.table.entries.map (·.1)).Perm s.openKeys.dedup := by
    refine (List.perm_ext_iff_of_nodup s.table.nodup (List.nodup_dedup _)).mpr fun key => ?_
    rw [Keyed.mem_keys_iff, valid.one_region, List.mem_dedup, mem_openKeys_iff]
  rw [← same.length_eq, List.length_map]
  rfl

theorem ask_of_find? (found : s.find? name = some store)
    (question : Store → RegionTable → Platform → StoreAnswer) :
    (s.ask name question).1 = question store s.table s.platform := by
  simp only [ask, Session.look, found, Option.map_some, Option.getD_some]
  rfl

theorem Valid.shows (valid : s.Valid foreign contents) (found : s.find? name = some store)
    (isOpen : store.closed = false) :
    let bytes := contents store.path.key
    (∀ offset buffer, (s.step (.read name offset buffer)).1 =
      .read (if offset + buffer.size ≤ bytes.size then .ok ()
        else .error (.ofRegion .reading (.shortRead offset buffer.size bytes.size)))
        (window bytes offset buffer.size)) ∧
    (∀ offset len, (s.step (.fetch name offset len)).1 =
      .fetched (if offset + len ≤ bytes.size then some (window bytes offset len) else none)) ∧
    (s.step (.fileSize name)).1 = .size bytes.size := by
  obtain ⟨r, region, alone, bytes⟩ := valid.region found isOpen
  have used : r.used = (contents store.path.key).size := by
    rw [← bytes, Region.size_validBytes alone.toSound]
  refine ⟨fun offset buffer => ?_, fun offset len => ?_, ?_⟩
  · rw [step, ask_of_find? found, Store.readInto_correct region alone.toSound, used, bytes]
  · rw [step, ask_of_find? found, Store.fetch?_correct region alone.toSound, used, bytes]
  · rw [step, ask_of_find? found, Store.fileSize_eq region, used]

theorem Valid.not_last (valid : s.Valid foreign contents) (ends : e.ends? = some name)
    (found : s.find? name = some store) (isOpen : store.closed = false)
    (others : 1 < s.holders store.path.key) :
    (s.step e).2.platform = s.platform ∧
      ∀ other store', other ≠ name → s.find? other = some store' →
        (s.step e).2.find? other = some store' ∧
          store'.region? (s.step e).2.table = store'.region? s.table := by
  obtain ⟨state, kept⟩ := step_of_ends ends found
  rcases closing : store.close s.table s.platform with ⟨result, store', t, p⟩
  have same : (s.step e).2.state = (t, p) := by
    rw [state]
    exact congrArg (·.2.2) closing
  obtain ⟨r, region, _⟩ := valid.region found isOpen
  obtain ⟨_, n, there⟩ := Store.region?_eq_some_iff.mp region
  have counted := valid.counts.counted _ _ there
  rw [table, platform, same]
  obtain ⟨alone, rfl, rfl⟩ | ⟨held, _, here, ⟨_, rfl, rfl⟩ | ⟨last, _, _⟩⟩ :=
    (Store.close_correct closing).2
  · exact absurd there (alone _ isOpen)
  · refine ⟨rfl, fun other store' different found' => ⟨(kept other different).trans found', ?_⟩⟩
    have differs := s.table.differs_insert store.path.key { held with stores := held.stores - 1 }
    rw [Store.region?, Store.region?]
    split
    · rfl
    · rw [differs]
      split
      · rename_i same_key
        rw [same_key, here]
        rfl
      · rfl
  · rw [here] at there
    cases there
    omega

theorem Valid.last {held : HeldRegion} {events : List StoreEvent} (valid : s.Valid foreign contents)
    (found : s.table.find? key = some held) (ends : ∀ e ∈ events, e.ends? ≠ none) :
    let s' : Stores := s.run events
    s'.holders key = 0 →
    s'.table.find? key = none ∧
    s'.platform.files.openExisting held.region.path true = .ok held.region.file.handle ∧
    (s'.platform.files.file held.region.fileId).contents =
      contents key ++ Array.replicate (if held.region.setup.trimOnClose then 0 else
        (s.platform.files.file held.region.fileId).size - (contents key).size) 0 := by
  intro s' nobody
  have start : Ending held.region key s.platform s.table s.platform :=
    ⟨.refl _, .inl ⟨held.stores, found, rfl⟩⟩
  obtain ⟨⟨names, ⟨n, there, _⟩ | ⟨gone, _, left⟩⟩, valid'⟩ := ending_run valid ends start
  · have some : 0 < s'.holders key := (valid'.counts.positive key).mp (by rw [there]; exact nofun)
    omega
  · have alone := valid.consistent.alone _ _ found
    have bytes := valid.consistent.holds _ _ found
    refine ⟨gone, ?_, ?_⟩
    · rw [names.openExisting]
      exact valid.consistent.leads _ _ found
    · have contents_eq := congrArg File.contents left
      rw [alone.clear.contents_trimmed, bytes] at contents_eq
      rw [← bytes, Region.size_validBytes alone.toSound, bytes]
      exact contents_eq

theorem Valid.faithful (valid : s.Valid foreign contents) : s.Faithful foreign contents where
  one_region := valid.one_region
  one_mapping _ _ found := (valid.consistent.alone _ _ found).only
  no_other_mapping _ live := valid.no_other_mapping live
  size_eq := valid.size_eq
  shows _ _ found isOpen := valid.shows found isOpen
  not_last _ _ _ ends found isOpen others := valid.not_last ends found isOpen others
  last _ _ _ found ends := valid.last found ends

/-- Whatever stores have done with files that nothing else uses, they share them faithfully. -/
theorem run_faithful (p : Platform) (events : List StoreEvent)
    (undisturbed : (start p).Undisturbed (p.live.map (·.file)) events) :
    ((start p).run events).Faithful (p.live.map (·.file)) ((start p).accounts (fun _ => #[]) events) :=
  (run_valid (start_valid p _) undisturbed).faithful

/-- For instance two stores of one file, of which the one that wrote ends first. -/
theorem two_stores_faithful :
    let events : List StoreEvent := [.open "a" ⟨[0x78]⟩ .data {}, .open "b" ⟨[0x78]⟩ .log {},
      .write "a" 2 #[1], .close "a", .read "b" 0 #[9, 9], .drop "b"]
    (start .empty).Undisturbed [] events ∧
      ((start .empty).run events).Faithful [] ((start .empty).accounts (fun _ => #[]) events) := by
  intro events
  have undisturbed : (start .empty).Undisturbed [] events :=
    (OnePath.run (start_valid .empty fun _ => #[]) (start_onePath .empty ⟨[0x78]⟩ fun _ _ => rfl)
      (by simp [events, OpensOnly])).1
  exact ⟨undisturbed, run_faithful .empty events undisturbed⟩

/-- A file that is not trimmed does not hold exactly what was written when its last store is closed. -/
theorem untrimmed_file_keeps_slack :
    let events : List StoreEvent := [.open "a" ⟨[0x78]⟩ .data { initialCapacity := 4, trimOnClose := false },
      .write "a" 0 #[1]]
    let s : Stores := (((start .empty).run events).step (.close "a")).2
    s.table.find? (Path.key ⟨[0x78]⟩) = none ∧
      s.platform.files.bytesAt ⟨[0x78]⟩ = #[1, 0, 0, 0] ∧
      (start .empty).accounts (fun _ => #[]) events (Path.key ⟨[0x78]⟩) = #[1] := by
  refine ⟨?_, ?_, ?_⟩ <;> cbv

end Stores
end MappedStorage
