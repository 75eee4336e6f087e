import MappedStorage.Proofs.Store.Run

/-!
What a crash leaves. A write through a log that succeeds has been flushed over its whole range, a sync
of data over all used bytes, and from then on each of these bytes survives a crash unless it is
written over (`run_durable`). Crashes fall between operations, any of which may have failed halfway.
-/

namespace MappedStorage

/-- A write that reaches an offset, whether or not it succeeds. -/
def StoreEvent.Covers (i : Nat) : StoreEvent → Prop
  | .write _ offset data => offset ≤ i ∧ i < offset + data.size
  | _ => False

namespace Stores

/-- The file of a path has a byte at an offset, now and after a crash, and a region of the path counts it
as used. -/
def Safe (path : Path) (i : Nat) (b : UInt8) (t : RegionTable) (p : Platform) : Prop :=
  ∃ h, p.files.openExisting path true = .ok h ∧ (p.files.file h.file).Durable i b ∧
    ∀ held, t.find? path.key = some held → held.region.fileId = h.file ∧ i < held.region.used

/-- On the way from one platform to another a flush is made that succeeds, and nothing after it. It
covers some bytes at an offset of the mapping of a region, which shows them when it is made. -/
def Flushes (r : Region) (medium : Medium) (offset : Nat) (bytes : Bytes) (p p' : Platform) : Prop :=
  ∃ m first count q, r.mapped = some m ∧ m ∈ p'.live ∧ first ≤ offset ∧
    offset + bytes.size ≤ first + count ∧ p.NoFlush q ∧ q.loadBytes m offset bytes.size = bytes ∧
    q.flush medium m first count = (none, p')

/-- After a crash the file of a path has some bytes at an offset, wherever they are untouched, and who
opens the path reads them there. -/
structure Survives (path : Path) (offset : Nat) (bytes : Bytes) (Untouched : Nat → Prop) (p : Platform) :
    Prop where
  inFile : ∀ i, offset ≤ i → i < offset + bytes.size → Untouched i →
    i < (p.crash.files.bytesAt path).size ∧
      (p.crash.files.bytesAt path).getD i 0 = bytes.getD (i - offset) 0
  read : ∀ role setup store t q start buffer,
    Store.open path role setup ∅ p.crash = (.ok store, t, q) → 0 < buffer.size → offset ≤ start →
    start + buffer.size ≤ offset + bytes.size →
    (∀ i, start ≤ i → i < start + buffer.size → Untouched i) →
    store.readInto start buffer t q = (.ok (), window bytes (start - offset) buffer.size)

variable {path : Path} {i : Nat} {b : UInt8} {t t' : RegionTable} {p p' : Platform} {s : Stores}
  {foreign : List FileId} {contents : Path.Key → Bytes} {store store' : Store}

/-! ## What keeps a byte -/

theorem Safe.of_open {role : Role} {setup : RegionSetup} {result : Except ProviderError Store}
    (safe : Safe path i b t p) (opened : Store.open path role setup t p = (result, t', p')) :
    Safe path i b t' p' := by
  obtain ⟨h, leads, durable, held⟩ := safe
  have correct := Store.open_correct opened
  have kept (opening : Region.Opening path p p') : p'.files.openExisting path true = .ok h ∧
      (p'.files.file h.file).Durable i b := by
    refine ⟨opening.leads _ _ leads, ?_⟩
    obtain ⟨g, longer, same | cut⟩ := opening.left h leads
    · rw [same]
      exact durable.of_extends longer
    · rw [cut]
      exact (durable.of_extends longer).resize durable.inside
  cases result with
  | error e =>
    obtain ⟨_, rfl, e', failed⟩ := correct
    obtain ⟨leads', durable'⟩ := kept (Region.open_correct failed).1
    exact ⟨h, leads', durable', held⟩
  | ok store =>
    obtain ⟨shared, found, _, rfl, rfl⟩ | ⟨_, r, regionOpened, _, rfl⟩ := correct
    · refine ⟨h, leads, durable, fun after there => ?_⟩
      rw [(t.differs_insert path.key _).here] at there
      cases there
      exact held shared found
    · obtain ⟨opening, at_path⟩ := Region.open_correct regionOpened
      obtain ⟨leads', durable'⟩ := kept opening
      refine ⟨h, leads', durable', fun after there => ?_⟩
      rw [(t.differs_insert path.key _).here] at there
      cases there
      have same : r.file.handle = h := by
        have both := at_path.leads
        rw [leads'] at both
        exact (Except.ok.inj both).symm
      have size : r.used = (p.files.file h.file).size := by
        rw [at_path.used, FileSystem.bytesAt, leads, File.size_contents]
      exact ⟨congrArg Handle.file same, size ▸ durable.inside⟩

theorem Safe.of_write {offset : Nat} {data : Bytes} {result : Except ProviderError Unit}
    (safe : Safe path i b t p) (consistent : t.Consistent foreign contents p)
    (onePath : OnePath foreign path t p) (apart : ¬ (offset ≤ i ∧ i < offset + data.size))
    (wrote : store.write offset data t p = (result, store', t', p')) : Safe path i b t' p' := by
  obtain ⟨h, leads, durable, used⟩ := safe
  have correct := Store.write_correct wrote
  cases region : store.region? t with
  | none =>
    rw [region] at correct
    obtain ⟨_, rfl, rfl, rfl⟩ := correct
    exact ⟨h, leads, durable, used⟩
  | some r =>
    rw [region] at correct
    obtain ⟨outcome, r', q, writing, rfl, same, flushing⟩ := correct
    obtain ⟨_, n, found⟩ := Store.region?_eq_some_iff.mp region
    have key : store.path.key = path.key := (onePath.named _ _ found).1
    rw [key] at found ⊢
    obtain ⟨file, below⟩ := used _ found
    have sound := (consistent.alone _ _ found).toSound
    obtain ⟨kept, sound', _, wrote⟩ := Region.write_correct sound writing
    have settled := flushing.settled sound'.shows
    have here : r'.fileId = h.file := kept.same.fileId_eq.trans file
    have before : (r.backing p).Durable i b := by
      rw [Region.backing, file]
      exact durable
    have after : (r'.backing q).Durable i b ∧ r.used ≤ r'.used := by
      cases outcome with
      | error e =>
        obtain ⟨_, _, _, same, longer⟩ := wrote
        exact ⟨before.of_extends longer, Nat.le_of_eq same.symm⟩
      | ok written =>
        obtain ⟨_, ⟨_, rfl, rfl⟩ | ⟨_, _, larger, f, longer, overlaid⟩⟩ := wrote
        · exact ⟨before, Nat.le_refl _⟩
        · rw [overlaid, larger]
          exact ⟨(before.of_extends longer).overlay apart, Nat.le_max_left ..⟩
    refine ⟨h, ?_, ?_, fun held there => ?_⟩
    · rw [settled.onlyFile.names.openExisting, kept.onlyFile.names.openExisting, leads]
    · rw [← here]
      exact after.1.of_flushed settled.flushed
    · rw [(RegionTable.differs_setRegion found r').here] at there
      cases there
      exact ⟨here, Nat.lt_of_lt_of_le below after.2⟩

theorem Safe.of_sync {result : Except ProviderError Unit} (safe : Safe path i b t p)
    (consistent : t.Consistent foreign contents p) (onePath : OnePath foreign path t p)
    (synced : store.sync t p = (result, store', p')) : Safe path i b t p' := by
  obtain ⟨h, leads, durable, used⟩ := safe
  have correct := Store.sync_correct synced
  cases region : store.region? t with
  | none =>
    rw [region] at correct
    obtain ⟨_, rfl, rfl⟩ := correct
    exact ⟨h, leads, durable, used⟩
  | some r =>
    rw [region] at correct
    obtain ⟨_, n, found⟩ := Store.region?_eq_some_iff.mp region
    have key : store.path.key = path.key := (onePath.named _ _ found).1
    rw [key] at found
    have here := (used _ found).1
    have settled := correct.settled (consistent.alone _ _ found).shows
    refine ⟨h, ?_, ?_, used⟩
    · rw [settled.onlyFile.names.openExisting, leads]
    · rw [← here] at durable ⊢
      exact durable.of_flushed settled.flushed

theorem Safe.of_close (safe : Safe path i b t p) (consistent : t.Consistent foreign contents p)
    (onePath : OnePath foreign path t p) (closed : store.CloseCorrect t p t' p') :
    Safe path i b t' p' := by
  obtain ⟨h, leads, durable, used⟩ := safe
  obtain ⟨_, rfl, rfl⟩ | ⟨held, _, found, ⟨_, rfl, rfl⟩ | ⟨_, rfl, rfl⟩⟩ := closed
  · exact ⟨h, leads, durable, used⟩
  · refine ⟨h, leads, durable, fun after there => ?_⟩
    obtain ⟨here, same⟩ | ⟨_, before⟩ := (t.differs_insert _ _).cases there
    · cases same
      exact used held (here ▸ found)
    · exact used after before
  · have key : store.path.key = path.key := (onePath.named _ _ found).1
    rw [key] at found ⊢
    obtain ⟨file, below⟩ := used held found
    have closed := (consistent.alone _ _ found).close_closed
    refine ⟨h, ?_, ?_, fun after there => ?_⟩
    · rw [closed.onlyFile.names.openExisting, leads]
    · have cut := closed.trimmed
      rw [Region.backing, Region.backing, file] at cut
      rw [cut]
      split
      · exact durable.resize below
      · exact durable
    · rw [(t.differs_erase path.key).here] at there
      cases there

theorem Safe.step {e : StoreEvent} (valid : s.Valid foreign contents)
    (onePath : OnePath foreign path s.table s.platform) (only : OpensOnly path e)
    (apart : ¬ e.Covers i) (safe : Safe path i b s.table s.platform) :
    Safe path i b (s.step e).2.table (s.step e).2.platform := by
  have separate := (onePath.step valid only).1
  -- Dropping a store may follow opening another, so the path invariant goes along.
  have both : OnePath foreign path (s.step e).2.table (s.step e).2.platform ∧
      Safe path i b (s.step e).2.table (s.step e).2.platform := by
    refine (s.stepped e).induction (I := fun t p => OnePath foreign path t p ∧ Safe path i b t p)
      valid.consistent separate ⟨onePath, safe⟩ ?_ ?_ ?_ ?_
    · rintro name other role setup result t p rfl opened
      obtain rfl : other = path := only
      exact ⟨onePath.of_open opened, safe.of_open opened⟩
    · rintro name store offset data result store' t p rfl wrote
      exact ⟨onePath.of_noneOpened (Store.write_keeps valid.consistent wrote).1,
        safe.of_write valid.consistent onePath apart wrote⟩
    · intro store result store' p synced
      exact ⟨onePath.of_noneOpened (Store.sync_keeps valid.consistent synced).1,
        safe.of_sync valid.consistent onePath synced⟩
    · rintro contents' store t p t' p' consistent ⟨before, safe⟩ closed
      exact ⟨before.of_noneOpened (closed.noneOpened consistent),
        safe.of_close consistent before closed⟩
  exact both.2

theorem Safe.run {events : List StoreEvent} (valid : s.Valid foreign contents)
    (onePath : OnePath foreign path s.table s.platform) (only : ∀ e ∈ events, OpensOnly path e)
    (apart : ∀ e ∈ events, ¬ e.Covers i) (safe : Safe path i b s.table s.platform) :
    Safe path i b (s.run events).table (s.run events).platform := by
  induction events generalizing s contents with
  | nil => exact safe
  | cons e rest ih =>
    have here := only e List.mem_cons_self
    obtain ⟨separate, onePath'⟩ := onePath.step valid here
    exact ih (step_valid valid separate) onePath' (fun e member => only e (List.mem_cons_of_mem _ member))
      (fun e member => apart e (List.mem_cons_of_mem _ member))
      (safe.step valid onePath here (apart e List.mem_cons_self))

/-! ## What a flush makes of a byte -/

/-- Bytes that are durable in the file of a region are safe. -/
theorem safe_of_durable {r : Region} (consistent : t.Consistent foreign contents p)
    (onePath : OnePath foreign path t p) (region : store.region? t = some r) (below : i < r.used)
    (durable : (r.backing p).Durable i b) : Safe path i b t p := by
  obtain ⟨_, n, found⟩ := Store.region?_eq_some_iff.mp region
  obtain ⟨key, path_eq⟩ := onePath.named _ _ found
  rw [key] at found
  refine ⟨r.file.handle, ?_, durable, fun held there => ?_⟩
  · rw [← path_eq]
    exact consistent.leads _ _ found
  · rw [found] at there
    cases there
    exact ⟨rfl, below⟩

/-- A mapping of a region that is alone with its file is in place. -/
theorem mapped_live {r : Region} {m : Mapping} (alone : r.Alone p) (mapped : r.mapped = some m) :
    m ∈ p.live := by
  have here : m ∈ p.mappingsOf r.fileId := alone.only.mem_iff.mpr (by rw [mapped]; simp)
  exact List.mem_of_mem_filter here

/-- A region shows the bytes of its file through its mapping. -/
theorem loadBytes_eq {r : Region} {m : Mapping} {offset : Nat} {bytes : Bytes} (sound : r.Sound p)
    (mapped : r.mapped = some m)
    (shown : ∀ i, offset ≤ i → i < offset + bytes.size → (r.backing p).byte i = bytes.getD (i - offset) 0) :
    p.loadBytes m offset bytes.size = bytes := by
  have size : (p.loadBytes m offset bytes.size).size = bytes.size := Patchwork.size_slice ..
  refine bytes_ext size fun i inside => ?_
  rw [size] at inside
  rw [Platform.loadBytes, File.getD_slice, if_pos inside, sound.shows m mapped,
    ← Region.backing, shown _ (by omega) (by omega), Nat.add_sub_cancel_left]

/-- A write through a log that succeeds has flushed all of its bytes. -/
theorem write_flushes {offset : Nat} {data : Bytes} (consistent : t.Consistent foreign contents p)
    (role : store.role = .log) (nonempty : 0 < data.size)
    (wrote : store.write offset data t p = (.ok (), store', t', p')) :
    ∃ r, store.region? t' = some r ∧ Flushes r store.medium offset data p p' ∧
      ∀ i, offset ≤ i → i < offset + data.size →
        i < r.used ∧ (r.backing p').Durable i (data.getD (i - offset) 0) := by
  have correct := Store.write_correct wrote
  cases region : store.region? t with
  | none =>
    rw [region] at correct
    cases correct.1
  | some r =>
    rw [region] at correct
    obtain ⟨outcome, r', q, writing, rfl, _, flushing⟩ := correct
    obtain ⟨isOpen, n, found⟩ := Store.region?_eq_some_iff.mp region
    have alone := consistent.alone _ _ found
    obtain ⟨kept, sound, _, wrote⟩ := Region.write_correct alone.toSound writing
    have alone' := wrote.alone alone kept sound
    have quiet := r.write_noFlush offset data p
    rw [writing] at quiet
    cases outcome with
    | error e =>
      obtain ⟨_, e', failed⟩ := flushing
      cases failed
    | ok written =>
      simp only [Store.FlushCorrect, role] at flushing
      obtain ⟨flushed, flush_eq, succeeded⟩ := flushing
      rw [succeeded.mp trivial] at flush_eq
      obtain ⟨rfl, ⟨empty, _⟩ | ⟨_, room, used, f, longer, overlaid⟩⟩ := wrote
      · omega
      · obtain ⟨m, first, count, mapped, low, high, call, durable⟩ :=
          Region.flush_covers sound (by omega) room flush_eq
        have shown (i : Nat) (above : offset ≤ i) (below : i < offset + data.size) :
            (r'.backing q).byte i = data.getD (i - offset) 0 := by
          rw [overlaid, File.byte_overlay, if_pos ⟨above, below⟩]
        have live : m ∈ p'.live := by
          have same := q.flush_live store.medium m first count
          rw [call] at same
          rw [show p'.live = q.live from same]
          exact mapped_live alone' mapped
        refine ⟨r', Store.region?_eq_some_iff.mpr
          ⟨isOpen, n, (RegionTable.differs_setRegion found r').here⟩,
          ⟨m, first, count, q, mapped, live, low, high, quiet, loadBytes_eq sound mapped shown, call⟩,
          fun i above below => ⟨by omega, ?_⟩⟩
        rw [← shown i above below]
        exact durable i above below

/-- A sync of data that succeeds has flushed all used bytes. -/
theorem sync_flushes (consistent : t.Consistent foreign contents p) (role : store.role = .data)
    (synced : store.sync t p = (.ok (), store', p')) :
    ∃ r, store.region? t = some r ∧ r.used = (contents store.path.key).size ∧
      (0 < r.used → Flushes r store.medium 0 (contents store.path.key) p p') ∧
      ∀ i, i < r.used → (r.backing p').Durable i ((contents store.path.key).getD i 0) := by
  have correct := Store.sync_correct synced
  cases region : store.region? t with
  | none =>
    rw [region] at correct
    cases correct.1
  | some r =>
    rw [region] at correct
    obtain ⟨_, flushing⟩ := correct
    obtain ⟨isOpen, n, found⟩ := Store.region?_eq_some_iff.mp region
    have alone := consistent.alone _ _ found
    have bytes := consistent.holds _ _ found
    have used : r.used = (contents store.path.key).size := by
      rw [← bytes, Region.size_validBytes alone.toSound]
    rw [role] at flushing
    obtain ⟨flushed, flush_eq, succeeded⟩ := flushing
    rw [succeeded.mp rfl] at flush_eq
    have shown (i : Nat) (below : i < r.used) :
        (r.backing p).byte i = (contents store.path.key).getD i 0 := by
      rw [← bytes, Region.getD_validBytes alone.toSound, if_pos below]
    by_cases empty : r.used = 0
    · exact ⟨r, rfl, used, fun some => by omega, fun i below => by omega⟩
    · obtain ⟨m, first, count, mapped, low, high, call, durable⟩ :=
        Region.flush_covers alone.toSound (Nat.pos_of_ne_zero empty) alone.used_le flush_eq
      have live : m ∈ p'.live := by
        have same := p.flush_live store.medium m first count
        rw [call] at same
        rw [show p'.live = p.live from same]
        exact mapped_live alone mapped
      refine ⟨r, rfl, used, fun _ => ⟨m, first, count, p, mapped, live, low, by omega, .refl p, ?_, call⟩,
        fun i below => ?_⟩
      · exact loadBytes_eq alone.toSound mapped fun i _ below => shown i (by omega)
      · rw [← shown i below]
        exact durable i (Nat.zero_le _) below

/-! ## Crashes -/

/-- A byte that is safe is found by its path after a crash. -/
theorem Safe.after_crash (safe : Safe path i b t p) :
    i < (p.crash.files.bytesAt path).size ∧ (p.crash.files.bytesAt path).getD i 0 = b := by
  obtain ⟨h, leads, durable, _⟩ := safe
  have leads' : p.crash.files.openExisting path true = .ok h :=
    ((p.files.sameNames_crash).openExisting path true).trans leads
  have size : (p.crash.files.file h.file).size = (p.files.file h.file).size :=
    p.files.size_file_crash h.file
  have inside := durable.inside
  rw [FileSystem.bytesAt, leads', File.size_contents, File.getD_contents, size, if_pos inside]
  exact ⟨inside, (p.files.byte_file_crash h.file i).trans durable.stable⟩

/-- Safe bytes survive. -/
theorem survives_of_safe (t : RegionTable) {offset : Nat} {bytes : Bytes} {Untouched : Nat → Prop}
    (safe : ∀ i, offset ≤ i → i < offset + bytes.size → Untouched i →
      Safe path i (bytes.getD (i - offset) 0) t p) : Survives path offset bytes Untouched p := by
  refine ⟨fun i above below spared => (safe i above below spared).after_crash, ?_⟩
  intro role setup store t' q start buffer opened nonempty low high untouched
  obtain ⟨held, found, _⟩ | ⟨_, r, regionOpened, rfl, rfl⟩ := Store.open_correct opened
  · cases found
  have at_path := (Region.open_correct regionOpened).2
  have here (i : Nat) (above : start ≤ i) (below : i < start + buffer.size) :=
    (safe i (Nat.le_trans low above) (Nat.lt_of_lt_of_le below high) (untouched i above below)).after_crash
  have region : (Store.attach path role r).region? (Keyed.insert ∅ path.key ⟨r, 1⟩) = some r :=
    Store.region?_eq_some_iff.mpr ⟨rfl, 1, (RegionTable.differs_insert ∅ path.key ⟨r, 1⟩).here⟩
  have complete : start + buffer.size ≤ r.used := by
    have last := (here (start + buffer.size - 1) (by omega) (by omega)).1
    rw [at_path.used]
    omega
  rw [Store.readInto_correct region at_path.sound, if_pos complete, at_path.bytes]
  refine congrArg (Except.ok (), ·) (bytes_ext (by simp) fun i inside => ?_)
  rw [size_window] at inside
  rw [getD_window, getD_window, if_pos inside, if_pos inside, (here (start + i) (by omega) (by omega)).2,
    show start + i - offset = start - offset + i by omega]

/-- A step of a store that is open. -/
theorem step_write {name : String} {offset : Nat} {data : Bytes} (found : s.find? name = some store)
    (answer : (s.step (.write name offset data)).1 = .done (.ok ())) :
    ∃ store', store.write offset data s.table s.platform =
      (.ok (), store', (s.step (.write name offset data)).2.table,
        (s.step (.write name offset data)).2.platform) := by
  rcases writing : store.write offset data s.table s.platform with ⟨result, store', t, p⟩
  have stepped : s.step (.write name offset data) =
      (.done result, { s.update name store' with state := (t, p) }) := by
    rw [step, perform_of_find? found (by rw [writing])]
  rw [stepped] at answer ⊢
  cases answer
  exact ⟨store', rfl⟩

theorem step_sync {name : String} (found : s.find? name = some store)
    (answer : (s.step (.sync name)).1 = .done (.ok ())) :
    (s.step (.sync name)).2.table = s.table ∧ ∃ store', store.sync s.table s.platform =
      (.ok (), store', (s.step (.sync name)).2.platform) := by
  rcases syncing : store.sync s.table s.platform with ⟨result, store', p⟩
  have stepped : s.step (.sync name) =
      (.done result, { s.update name store' with state := (s.table, p) }) := by
    rw [step, perform_of_find? found (by rw [syncing])]
  rw [stepped] at answer ⊢
  cases answer
  exact ⟨rfl, store', rfl⟩

/-- Of stores of one path whose file nothing else uses: if a write through a log succeeds, a flush of all
it wrote has succeeded, on the mapping in place and after the bytes were there. If a sync of data succeeds,
such a flush of all that was written to the path has. These bytes survive a crash at any later time,
wherever they were not written over. -/
theorem run_durable (p : Platform) (path : Path)
    (unused : ∀ id, p.files.target? path = some id → p.mappingsOf id = [])
    (before after : List StoreEvent) (only : ∀ e ∈ before ++ after, OpensOnly path e) (name : String)
    (store : Store) (found : ((start p).run before).find? name = some store) :
    let s : Stores := (start p).run before
    let untouched : Nat → Prop := fun i => ∀ e ∈ after, ¬ e.Covers i
    (∀ offset data, store.role = .log → 0 < data.size →
      (s.step (.write name offset data)).1 = .done (.ok ()) →
      let s' : Stores := (s.step (.write name offset data)).2
      (∃ r, store.region? s'.table = some r ∧
        Flushes r store.medium offset data s.platform s'.platform) ∧
      Survives path offset data untouched (s'.run after).platform) ∧
    (store.role = .data → (s.step (.sync name)).1 = .done (.ok ()) →
      let s' : Stores := (s.step (.sync name)).2
      let bytes := (start p).accounts (fun _ => #[]) before path.key
      (∃ r, store.region? s'.table = some r ∧ r.used = bytes.size ∧
        (0 < r.used → Flushes r store.medium 0 bytes s.platform s'.platform)) ∧
      Survives path 0 bytes untouched (s'.run after).platform) := by
  intro s untouched
  have begun := start_valid p fun _ => #[]
  obtain ⟨undisturbed, onePath⟩ := OnePath.run begun (start_onePath p path unused) fun e member =>
    only e (List.mem_append_left after member)
  have valid := run_valid begun undisturbed
  have later : ∀ e ∈ after, OpensOnly path e := fun e member =>
    only e (List.mem_append_right before member)
  refine ⟨fun offset data role nonempty answer => ?_, fun role answer => ?_⟩
  · obtain ⟨store', wrote⟩ := step_write found answer
    obtain ⟨r, region, flushes, durable⟩ := write_flushes valid.consistent role nonempty wrote
    obtain ⟨separate, onePath'⟩ := onePath.step (e := .write name offset data) valid trivial
    have valid' := step_valid valid separate
    have safe (i : Nat) (above : offset ≤ i) (below : i < offset + data.size) (spared : untouched i) :=
      (safe_of_durable valid'.consistent onePath' region (durable i above below).1
        (durable i above below).2).run valid' onePath' later spared
    exact ⟨⟨r, region, flushes⟩, survives_of_safe _ safe⟩
  · obtain ⟨table, store', synced⟩ := step_sync found answer
    obtain ⟨r, region, used, flushes, durable⟩ := sync_flushes valid.consistent role synced
    obtain ⟨separate, onePath'⟩ := onePath.step (e := .sync name) valid trivial
    have valid' := step_valid valid separate
    have key : store.path.key = path.key := by
      obtain ⟨_, n, there⟩ := Store.region?_eq_some_iff.mp region
      exact (onePath.named _ _ there).1
    rw [← table] at region
    rw [key] at used flushes durable
    have safe (i : Nat) (below : i < r.used) (spared : untouched i) :=
      (safe_of_durable valid'.consistent onePath' region below (durable i below)).run valid' onePath'
        later spared
    exact ⟨⟨r, region, used, flushes⟩, survives_of_safe _ fun i _ below spared =>
      safe i (by rwa [Nat.zero_add, ← used] at below) spared⟩

/-- For instance two bytes of a log, of which the second is written over before the crash. -/
theorem log_bytes_survive :
    let s : Stores := (start .empty).run [.open "log" ⟨[0x78]⟩ .log { initialCapacity := 1 }]
    let s' : Stores := (s.step (.write "log" 3 #[1, 2])).2
    (s.step (.write "log" 3 #[1, 2])).1 = .done (.ok ()) ∧
      Survives ⟨[0x78]⟩ 3 #[1, 2]
        (fun i => ∀ e ∈ [.write "log" 4 #[7], .close "log"], ¬ StoreEvent.Covers i e)
        (s'.run [.write "log" 4 #[7], .close "log"]).platform := by
  have found : ((start .empty).run [.open "log" ⟨[0x78]⟩ .log { initialCapacity := 1 }]).find? "log" =
      some ⟨⟨[0x78]⟩, .emulated, .log, {}, false⟩ := by cbv
  have answer : (((start .empty).run [.open "log" ⟨[0x78]⟩ .log { initialCapacity := 1 }]).step
      (.write "log" 3 #[1, 2])).1 = .done (.ok ()) := by cbv
  have durable := run_durable .empty ⟨[0x78]⟩ (fun _ _ => rfl)
    [.open "log" ⟨[0x78]⟩ .log { initialCapacity := 1 }] [.write "log" 4 #[7], .close "log"]
    (by simp [OpensOnly]) "log" _ found
  exact ⟨answer, (durable.1 3 #[1, 2] rfl (by decide) answer).2⟩

end Stores
end MappedStorage
