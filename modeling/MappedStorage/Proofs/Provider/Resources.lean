import MappedStorage.Proofs.Provider.Holding

/-!
All that is open at a time: regions and indexes that stand alone, and stores and files, which share tables
of regions (`Grounds`). The account is in order (`Resources.Balanced`) if the mappings in place are those of
all regions and each table counts the handles of each path. What is done to some handles keeps the
account in order, whatever others there are (`Resources.Moves`).
-/

namespace MappedStorage

/-- What stores and files that belong together share. -/
structure Hub where
  locks : LockTable := {}
  regions : RegionTable := ∅

/-- What all handles share: the hubs by name, and the platform. -/
structure Grounds where
  hubs : Keyed String Hub := ∅
  platform : Platform

namespace Grounds

/-- The hub of a name, which begins with no locks and no regions. -/
def hub (g : Grounds) (name : String) : Hub := (g.hubs.find? name).getD {}

/-- What the files of a hub share. -/
def shared (g : Grounds) (name : String) : Shared :=
  { locks := (g.hub name).locks, regions := (g.hub name).regions, platform := g.platform }

/-- The grounds after a change to what the files of a hub share. -/
def settle (g : Grounds) (name : String) (s : Shared) : Grounds :=
  { hubs := g.hubs.insert name ⟨s.locks, s.regions⟩, platform := s.platform }

/-- The regions of all stores. -/
def regions (g : Grounds) : List Region := g.hubs.gather (·.regions.regions)

end Grounds

/-- A handle that was opened: a region, a store or a file of a hub, or a shared index. -/
inductive Resource where
  | region (r : Region)
  | store (s : Store) (hub : String)
  | index (x : SharedIndex)
  | file (f : OpenFile) (hub : String)

/-- What is asked of a store between opening and closing it, besides what changes nothing. -/
inductive StoreRequest where
  | write (offset : Nat) (data : Bytes)
  | sync

/-- What is asked of a handle, by its kind. -/
inductive ResourceRequest where
  | region (request : RegionRequest)
  | store (request : StoreRequest)
  | index (request : IndexRequest)
  | file (request : FileRequest)

/-- How a handle is opened. -/
inductive Opening where
  | region (path : Path) (setup : RegionSetup)
  /-- Over a file that is open. -/
  | regionOver (h : Handle) (label : Path) (setup : RegionSetup)
  | store (hub : String) (path : Path) (role : Role) (setup : RegionSetup)
  | index (path : Path) (setup : RegionSetup) (baseSize : Nat)
  | file (hub : String) (v : Provider) (path : Option Path) (flags : OpenFlags)

/-- Opens a handle, if that succeeds. -/
def Opening.open? (g : Grounds) : Opening → Option Resource × Grounds
  | .region path setup =>
    let (made, p) := Region.open path setup g.platform
    (made.toOption.map .region, { g with platform := p })
  | .regionOver h label setup =>
    let (made, p) := Region.ofHandle h label setup g.platform
    (made.toOption.map .region, { g with platform := p })
  | .store hub path role setup =>
    let s := g.shared hub
    let (made, t, p) := Store.open path role setup s.regions s.platform
    (made.toOption.map (.store · hub), g.settle hub { s with regions := t, platform := p })
  | .index path setup baseSize => (some (.index (.new path setup baseSize)), g)
  | .file hub v path flags =>
    let (made, s) := v.openFile path flags (g.shared hub)
    (made.toOption.map (.file · hub), g.settle hub s)

namespace Resource

/-- Does what a handle is asked for. A handle does not answer to requests of another kind. -/
def serve (x : Resource) (request : ResourceRequest) (g : Grounds) : Resource × Grounds :=
  match x, request with
  | .region r, .region request =>
    let (_, r, p) := r.serve g.platform request
    (.region r, { g with platform := p })
  | .store s hub, .store (.write offset data) =>
    let (_, s, t, p) := s.write offset data (g.shared hub).regions (g.shared hub).platform
    (.store s hub, g.settle hub { g.shared hub with regions := t, platform := p })
  | .store s hub, .store .sync =>
    let (_, s, p) := s.sync (g.shared hub).regions (g.shared hub).platform
    (.store s hub, g.settle hub { g.shared hub with platform := p })
  | .index x, .index request =>
    let (_, x, p) := x.serve g.platform request
    (.index x, { g with platform := p })
  | .file f hub, .file request =>
    let (f, s) := f.serve request (g.shared hub)
    (.file f hub, g.settle hub s)
  | x, _ => (x, g)

/-- Closes a handle. An index that is closed is unmapped. -/
def close (x : Resource) (g : Grounds) : Resource × Grounds :=
  match x with
  | .region r =>
    let (_, r, p) := r.close g.platform
    (.region r, { g with platform := p })
  | .store s hub =>
    let (_, s, t, p) := s.close (g.shared hub).regions (g.shared hub).platform
    (.store s hub, g.settle hub { g.shared hub with regions := t, platform := p })
  | .index x =>
    let (_, x, p) := x.unmap false g.platform
    (.index x, { g with platform := p })
  | .file f hub =>
    let (_, f, s) := f.close (g.shared hub)
    (.file f hub, g.settle hub s)

/-- Gives a handle up. -/
def drop (x : Resource) (g : Grounds) : Grounds :=
  match x with
  | .region r => { g with platform := (r.close g.platform).2.2 }
  | .store s hub =>
    let (t, p) := s.drop ((g.shared hub).regions, (g.shared hub).platform)
    g.settle hub { g.shared hub with regions := t, platform := p }
  | .index x => { g with platform := x.drop g.platform }
  | .file f hub => g.settle hub (f.drop (g.shared hub))

/-- The handle is closed. An index is, as long as it is not mapped. -/
def isClosed : Resource → Bool
  | .region r => r.closed
  | .store s _ => s.closed
  | .index x => x.region?.isNone
  | .file f _ => f.store.closed

/-- The regions that are with the handle itself. -/
def regions : Resource → List Region
  | .region r => [r]
  | .store .. => []
  | .index x => x.regions
  | .file f _ => f.indexRegion?.toList

/-- A file that is closed has no index mapped. -/
def Quiet : Resource → Prop
  | .file f _ => f.Quiet
  | .region _ | .store .. | .index _ => True

/-- A slot is requested only of a file that is open. -/
def Permits : Resource → ResourceRequest → Prop
  | .file f _, .file request => f.Permits request
  | _, _ => True

/-- The handle is a store or a file that is open on a path of a hub. -/
def holds (hub : String) (key : Path.Key) : Resource → Bool
  | .store s own => own = hub && s.holds key
  | .file f own => own = hub && f.store.holds key
  | .region _ | .index _ => false

end Resource

/-- The request lets go of something. -/
def ResourceRequest.closes : ResourceRequest → Bool
  | .index (.unmap _) => true
  | .file request => request.closes
  | _ => false

namespace Resources

/-- The regions of some handles, with those of all stores. -/
def regions (xs : List Resource) (g : Grounds) : List Region := xs.flatMap Resource.regions ++ g.regions

/-- How many of some handles are open on a path of a hub. -/
def holders (xs : List Resource) (hub : String) (key : Path.Key) : Nat := xs.countP (·.holds hub key)

/-- The mappings in place are those of all regions, and the table of each hub counts its handles. -/
structure Balanced (xs : List Resource) (g : Grounds) : Prop where
  proper : ∀ r ∈ regions xs g, r.Proper
  holds : g.platform.Holds (Region.mappings (regions xs g))
  counts : ∀ hub, (g.hub hub).regions.Counts (holders xs hub)

/-- From some handles to others the account stays in order, whatever other handles there are. -/
def Moves (xs : List Resource) (g : Grounds) (xs' : List Resource) (g' : Grounds) : Prop :=
  ∀ rest, Balanced (xs ++ rest) g → Balanced (xs' ++ rest) g'

end Resources

/-! ## Hubs -/

namespace Grounds

variable {g : Grounds} {name other : String} {s : Shared}

theorem hub_settle (g : Grounds) (name : String) (s : Shared) (other : String) :
    (g.settle name s).hub other = if other = name then ⟨s.locks, s.regions⟩ else g.hub other := by
  unfold hub settle
  rw [Keyed.find?_insert]
  split <;> rfl

/-- The regions of all stores are those of one hub and those of the others. -/
theorem regions_hub (g : Grounds) (name : String) : g.regions.Perm
    ((g.hub name).regions.regions ++ (g.hubs.erase name).gather (·.regions.regions)) := by
  unfold hub regions
  cases found : g.hubs.find? name with
  | some h => exact Keyed.gather_of_find? found _
  | none =>
    rw [Keyed.gather_of_none found]
    exact .refl _

theorem mem_regions_of_hub {r : Region} (member : r ∈ (g.hub name).regions.regions) : r ∈ g.regions :=
  (g.regions_hub name).mem_iff.mpr (List.mem_append_left _ member)

theorem regions_settle (g : Grounds) (name : String) (s : Shared) : (g.settle name s).regions =
    s.regions.regions ++ (g.hubs.erase name).gather (·.regions.regions) := Keyed.gather_insert ..

end Grounds

/-! ## The account -/

namespace Resources

variable {xs xs' xs'' rest : List Resource} {x : Resource} {g g' g'' : Grounds} {hub : String}
  {key : Path.Key} {p' : Platform} {s' : Shared}

theorem holders_append (xs rest : List Resource) (hub : String) (key : Path.Key) :
    holders (xs ++ rest) hub key = holders xs hub key + holders rest hub key := List.countP_append

theorem holders_nil (hub : String) (key : Path.Key) : holders [] hub key = 0 := rfl

theorem holders_singleton (x : Resource) (hub : String) (key : Path.Key) :
    holders [x] hub key = if x.holds hub key then 1 else 0 := List.countP_singleton

theorem Balanced.perm (balanced : Balanced xs g) (same : xs.Perm xs') : Balanced xs' g := by
  have regions : (regions xs g).Perm (regions xs' g) := (same.flatMap_right _).append_right _
  refine ⟨fun r member => balanced.proper r (regions.mem_iff.mpr member),
    balanced.holds.perm (regions.filterMap _), fun hub => ?_⟩
  exact (balanced.counts hub).congr fun key => same.symm.countP_eq _

theorem Moves.refl (xs : List Resource) (g : Grounds) : Moves xs g xs g := fun _ => id

/-- What is done to the platform, and to handles that are counted nowhere. -/
theorem Moves.of_platform (uncounted : ∀ hub key, holders xs' hub key = holders xs hub key)
    (passes : (∀ r ∈ xs.flatMap Resource.regions, r.Proper) →
      g.platform.Passes (xs.flatMap Resource.regions) p' (xs'.flatMap Resource.regions)) :
    Moves xs g xs' { g with platform := p' } := by
  intro rest balanced
  have split (ys : List Resource) (g : Grounds) : regions (ys ++ rest) g =
      ys.flatMap Resource.regions ++ (rest.flatMap Resource.regions ++ g.regions) := by
    rw [regions, List.flatMap_append, List.append_assoc]
  have proper := balanced.proper
  have holds := balanced.holds
  rw [split] at proper holds
  have framed := (passes fun r member => proper r (List.mem_append_left _ member)).frame fun r member =>
    proper r (List.mem_append_right _ member)
  refine ⟨by rw [split]; exact framed.proper, by rw [split]; exact framed.trades.holds holds, fun hub => ?_⟩
  refine (balanced.counts hub).congr fun key => ?_
  rw [holders_append, holders_append, uncounted]

/-- What is done to the handles of one hub. -/
theorem Moves.of_hub
    (elsewhere : ∀ other, other ≠ hub → ∀ key, holders xs' other key = holders xs other key)
    (passes : (∀ r ∈ xs.flatMap Resource.regions ++ (g.hub hub).regions.regions, r.Proper) →
      g.platform.Passes (xs.flatMap Resource.regions ++ (g.hub hub).regions.regions)
        s'.platform (xs'.flatMap Resource.regions ++ s'.regions.regions))
    (counts : ∀ n : Path.Key → Nat, (g.hub hub).regions.Counts (fun key => holders xs hub key + n key) →
      s'.regions.Counts fun key => holders xs' hub key + n key) :
    Moves xs g xs' (g.settle hub s') := by
  intro rest balanced
  let others := rest.flatMap Resource.regions ++ (g.hubs.erase hub).gather (·.regions.regions)
  have arrange (ys : List Resource) (here : List Region) :
      (((ys ++ rest).flatMap Resource.regions) ++
        (here ++ (g.hubs.erase hub).gather (·.regions.regions))).Perm
      ((ys.flatMap Resource.regions ++ here) ++ others) := by
    rw [List.flatMap_append, List.append_assoc, List.append_assoc]
    refine List.Perm.append_left _ ?_
    rw [← List.append_assoc, ← List.append_assoc]
    exact List.perm_append_comm.append_right _
  have before : (regions (xs ++ rest) g).Perm
      ((xs.flatMap Resource.regions ++ (g.hub hub).regions.regions) ++ others) :=
    ((g.regions_hub hub).append_left _).trans (arrange xs _)
  have after : (regions (xs' ++ rest) (g.settle hub s')).Perm
      ((xs'.flatMap Resource.regions ++ s'.regions.regions) ++ others) := by
    unfold regions
    rw [g.regions_settle]
    exact arrange xs' _
  have proper (r : Region) (member : r ∈ _) := balanced.proper r (before.mem_iff.mpr member)
  have framed := ((passes fun r member => proper r (List.mem_append_left _ member)).frame fun r member =>
    proper r (List.mem_append_right _ member)).perm before after
  refine ⟨framed.proper, framed.trades.holds balanced.holds, fun other => ?_⟩
  have counted := balanced.counts other
  rw [g.hub_settle]
  split
  · rename_i here
    subst here
    have all := counts (holders rest other) (counted.congr fun key => (holders_append ..).symm)
    exact all.congr fun key => holders_append ..
  · rename_i different
    refine counted.congr fun key => ?_
    rw [holders_append, holders_append, elsewhere other different]

theorem holders_store (s : Store) (hub : String) (key : Path.Key) :
    holders [.store s hub] hub key = if s.holds key then 1 else 0 := by
  rw [holders_singleton]
  simp [Resource.holds]

theorem holders_file (f : OpenFile) (hub : String) (key : Path.Key) :
    holders [.file f hub] hub key = if f.store.holds key then 1 else 0 := by
  rw [holders_singleton]
  simp [Resource.holds]

/-- A store that is open is counted. -/
theorem holders_store_pos {s : Store} (isOpen : s.closed = false) (hub : String) (n : Path.Key → Nat) :
    0 < holders [.store s hub] hub s.path.key + n s.path.key := by
  rw [holders_store, if_pos (Store.holds_iff.mpr ⟨isOpen, rfl⟩)]
  omega

theorem holders_file_pos {f : OpenFile} (isOpen : f.store.closed = false) (hub : String)
    (n : Path.Key → Nat) : 0 < holders [.file f hub] hub f.path.key + n f.path.key := by
  rw [holders_file, if_pos (OpenFile.holds_path isOpen)]
  omega

theorem holders_store_elsewhere {other : String} (different : other ≠ hub) (s : Store) :
    holders [.store s hub] other key = 0 := by
  rw [holders_singleton]
  exact if_neg (by simp [Resource.holds, Ne.symm different])

theorem holders_file_elsewhere {other : String} (different : other ≠ hub) (f : OpenFile) :
    holders [.file f hub] other key = 0 := by
  rw [holders_singleton]
  exact if_neg (by simp [Resource.holds, Ne.symm different])

/-! ## Opening -/

/-- What opening a handle comes to: the account is in order with it, if it was opened, and no mapping was
released but for a longer one. -/
structure Opens (g : Grounds) (made : Option Resource) (g' : Grounds) : Prop where
  moves : Moves [] g made.toList g'
  replaces : (∀ r ∈ g.regions, r.Proper) → g.platform.Replaces g'.platform
  quiet : (∀ r ∈ g.regions, r.Proper) → ∀ x ∈ made, x.Quiet

theorem Opens.of_brings {made : Except RegionError Region} (brings : Region.Brings g.platform made p') :
    Opens g (made.toOption.map .region) { g with platform := p' } := by
  refine ⟨?_, fun _ => brings.replaces, fun _ x member => ?_⟩
  · cases made with
    | error e => exact .of_platform (fun _ _ => rfl) fun _ => .of_unopened brings
    | ok r => exact .of_platform (fun _ _ => rfl) fun _ => .of_opened brings
  · obtain ⟨r, -, rfl⟩ := Option.map_eq_some_iff.mp member
    trivial

theorem Opens.of_store {path : Path} {role : Role} {setup : RegionSetup}
    {made : Except ProviderError Store} {t : RegionTable}
    (opening : Store.open path role setup (g.hub hub).regions g.platform = (made, t, p')) :
    Opens g (made.toOption.map (.store · hub))
      (g.settle hub { g.shared hub with regions := t, platform := p' }) := by
  have handled (proper : ∀ r ∈ (g.hub hub).regions.regions, r.Proper) :=
    Store.open_handled proper opening
  have counts {n : Path.Key → Nat} (counted : (g.hub hub).regions.Counts n) :=
    Store.open_counts counted opening
  refine ⟨?_, fun proper => (handled fun r member => proper r ?_).replaces, fun _ x member => ?_⟩
  · cases made with
    | error e =>
      exact .of_hub (fun _ _ _ => rfl) (fun proper => (handled proper).passes) fun n counted =>
        (counts counted).2 e rfl
    | ok s =>
      show Moves [] g [.store s hub] _
      refine .of_hub (fun other different key => holders_store_elsewhere different s)
        (fun proper => (handled proper).passes) fun n counted => ?_
      refine ((counts counted).1 s rfl).congr fun key => ?_
      rw [holders_store, holders_nil, Nat.zero_add]
      exact Nat.add_comm ..
  · exact Grounds.mem_regions_of_hub member
  · obtain ⟨s, -, rfl⟩ := Option.map_eq_some_iff.mp member
    trivial

theorem Opens.of_file {v : Provider} {path : Option Path} {flags : OpenFlags}
    {made : Except ProviderError OpenFile}
    (opened : v.openFile path flags (g.shared hub) = (made, s')) :
    Opens g (made.toOption.map (.file · hub)) (g.settle hub s') := by
  have handled (proper : ∀ r ∈ (g.hub hub).regions.regions, r.Proper) :=
    Provider.openFile_handled (s := g.shared hub) proper opened
  have counts {n : Path.Key → Nat} (counted : (g.hub hub).regions.Counts n) :=
    Provider.openFile_counts (s := g.shared hub) counted opened
  refine ⟨?_, fun proper => (handled fun r member => proper r (Grounds.mem_regions_of_hub member)).2.1,
    fun proper x member => ?_⟩
  · cases made with
    | error e =>
      exact .of_hub (fun _ _ _ => rfl) (fun proper => (handled proper).1) fun n counted =>
        (counts counted).2 e rfl
    | ok f =>
      show Moves [] g [.file f hub] _
      refine .of_hub (fun other different key => holders_file_elsewhere different f) (fun proper => ?_)
        fun n counted => ?_
      · obtain ⟨passes, -, new⟩ := handled proper
        have none : [Resource.file f hub].flatMap Resource.regions = [] := by
          simp [Resource.regions, new f rfl]
        rw [none]
        exact passes
      · refine ((counts counted).1 f rfl).congr fun key => ?_
        rw [holders_file, holders_nil, Nat.zero_add]
        exact Nat.add_comm ..
  · cases made with
    | error e => cases member
    | ok f =>
      cases member
      exact fun _ => (handled fun r member => proper r (Grounds.mem_regions_of_hub member)).2.2 f rfl

theorem open_opens (g : Grounds) (what : Opening) : Opens g (what.open? g).1 (what.open? g).2 := by
  cases what with
  | region path setup => exact .of_brings (Region.open_brings rfl)
  | regionOver h label setup => exact .of_brings (Region.ofTrackedFile_brings ..)
  | store hub path role setup => exact .of_store rfl
  | file hub v path flags => exact .of_file rfl
  | index path setup baseSize =>
    refine ⟨fun rest balanced => ?_, fun _ => .refl _, ?_⟩
    · exact ⟨balanced.proper, balanced.holds, fun hub => (balanced.counts hub).congr fun key => rfl⟩
    · rintro - _ ⟨⟩
      trivial

/-! ## What is asked of a handle -/

theorem regions_singleton (x : Resource) : [x].flatMap Resource.regions = x.regions := by
  rw [List.flatMap_cons, List.flatMap_nil, List.append_nil]

theorem Moves.of_region {r r' : Region}
    (passes : r.Proper → g.platform.Passes [r] p' [r']) :
    Moves [.region r] g [.region r'] { g with platform := p' } :=
  .of_platform (fun _ _ => rfl) fun proper => passes (proper r (List.mem_singleton_self r))

theorem Moves.of_index {y y' : SharedIndex}
    (passes : (∀ r ∈ y.regions, r.Proper) → g.platform.Passes y.regions p' y'.regions) :
    Moves [.index y] g [.index y'] { g with platform := p' } := by
  refine .of_platform (fun _ _ => rfl) ?_
  rw [regions_singleton, regions_singleton]
  exact passes

theorem Moves.of_store {s t : Store}
    (passes : (∀ r ∈ (g.hub hub).regions.regions, r.Proper) →
      g.platform.Passes (g.hub hub).regions.regions s'.platform s'.regions.regions)
    (counts : ∀ n : Path.Key → Nat, (g.hub hub).regions.Counts n →
      (s.closed = false → 0 < n s.path.key) → s'.regions.Counts (Store.recount n s t)) :
    Moves [.store s hub] g [.store t hub] (g.settle hub s') := by
  refine .of_hub (fun other different key => ?_) passes fun n counted => ?_
  · rw [holders_store_elsewhere different, holders_store_elsewhere different]
  · refine (counts _ counted (holders_store_pos · hub n)).congr fun key => ?_
    rw [Store.recount, holders_store, holders_store]
    omega

theorem Moves.of_file {f f' : OpenFile}
    (passes : (∀ r ∈ f.holdings (g.shared hub), r.Proper) → f.Passes (g.shared hub) f' s')
    (counts : ∀ n : Path.Key → Nat, (g.hub hub).regions.Counts n →
      (f.store.closed = false → 0 < n f.path.key) → s'.regions.Counts (Store.recount n f.store f'.store)) :
    Moves [.file f hub] g [.file f' hub] (g.settle hub s') := by
  refine .of_hub (fun other different key => ?_) ?_ fun n counted => ?_
  · rw [holders_file_elsewhere different, holders_file_elsewhere different]
  · rw [regions_singleton, regions_singleton]
    exact passes
  · refine (counts _ counted (holders_file_pos · hub n)).congr fun key => ?_
    rw [Store.recount, holders_file, holders_file]
    omega

/-- Whatever is asked of a handle keeps the account in order. -/
theorem serve_moves (x : Resource) (request : ResourceRequest) (g : Grounds) :
    Moves [x] g [(x.serve request g).1] (x.serve request g).2 := by
  cases x with
  | region r =>
    cases request with
    | region request => exact .of_region fun proper => .of_handled (r.serve_handled proper request)
    | store | index | file => exact Moves.refl _ _
  | store s hub =>
    cases request with
    | store request =>
      cases request with
      | write offset data =>
        exact .of_store (fun proper => (Store.write_handled proper rfl).passes) fun n counted member =>
          (Store.write_counts counted rfl).congr (Store.recount_same (Store.write_same rfl) member)
      | sync =>
        exact .of_store (fun proper => (Store.sync_handled proper rfl).passes) fun n counted member =>
          counted.congr (Store.recount_same (Store.sync_same rfl) member)
    | region | index | file => exact Moves.refl _ _
  | index y =>
    cases request with
    | index request => exact .of_index fun proper => SharedIndex.serve_passes proper request g.platform
    | region | store | file => exact Moves.refl _ _
  | file f hub =>
    cases request with
    | file request =>
      exact .of_file (fun proper => OpenFile.serve_passes proper request) fun n counted member =>
        OpenFile.serve_counts (s := g.shared hub) counted member request
    | region | store | index => exact Moves.refl _ _

/-- While nothing is let go of, mappings are released only to be replaced. -/
theorem serve_replaces (own : ∀ r ∈ x.regions, r.Proper) (tables : ∀ r ∈ g.regions, r.Proper)
    {request : ResourceRequest} (keeps : request.closes = false) :
    g.platform.Replaces (x.serve request g).2.platform := by
  have table (hub : String) (r : Region) (member : r ∈ (g.hub hub).regions.regions) : r.Proper :=
    tables r (Grounds.mem_regions_of_hub member)
  cases x with
  | region r =>
    cases request with
    | region request => exact (r.serve_handled (own r (List.mem_singleton_self r)) request).replaces
    | store | index | file => exact .refl _
  | store s hub =>
    cases request with
    | store request =>
      cases request with
      | write offset data => exact (Store.write_handled (table hub) rfl).replaces
      | sync => exact (Store.sync_handled (table hub) rfl).replaces
    | region | index | file => exact .refl _
  | index y =>
    cases request with
    | index request =>
      refine (SharedIndex.serve_handled own (fun delete same => ?_) g.platform).replaces
      rw [same] at keeps
      cases keeps
    | region | store | file => exact .refl _
  | file f hub =>
    cases request with
    | file request =>
      refine (OpenFile.serve_handled (s := g.shared hub) (fun r member => ?_) keeps).replaces
      rcases List.mem_append.mp member with member | member
      · exact own r member
      · exact table hub r member
    | region | store | index => exact .refl _

/-! ## Letting go -/

theorem Moves.of_store_closed {s t : Store} {result : Except ProviderError Unit} {table : RegionTable}
    (closed : s.close (g.hub hub).regions g.platform = (result, t, table, p')) :
    Moves [.store s hub] g [.store t hub]
      (g.settle hub { g.shared hub with regions := table, platform := p' }) := by
  refine .of_store (fun proper => Store.close_passes proper closed) fun n counted member => ?_
  obtain ⟨rfl, left⟩ := Store.close_counts counted member closed
  refine left.congr fun key => ?_
  simp [Store.recount, Store.holds]

/-- Closing a handle keeps the account in order, whatever fails. -/
theorem close_moves (x : Resource) (g : Grounds) : Moves [x] g [(x.close g).1] (x.close g).2 := by
  cases x with
  | region r => exact .of_region fun proper => .of_close proper g.platform
  | store s hub => exact .of_store_closed rfl
  | index y => exact .of_index fun proper => SharedIndex.serve_passes proper (.unmap false) g.platform
  | file f hub =>
    exact .of_file OpenFile.close_passes fun n counted member =>
      (OpenFile.close_counts (s := g.shared hub) counted member).1

/-- A handle that is closed is closed, whatever fails. -/
theorem isClosed_close (x : Resource) (g : Grounds) (proper : ∀ r ∈ x.regions, r.Proper) :
    (x.close g).1.isClosed = true := by
  cases x with
  | region r => exact (r.close_trades (proper r (List.mem_singleton_self r)) g.platform).2.1
  | store s hub =>
    have closed := (Store.close_correct (s := s) (t := (g.hub hub).regions) (p := g.platform) rfl).1
    exact congrArg Store.closed closed
  | index y => exact Option.isNone_iff_eq_none.mpr (y.region?_unmap false g.platform)
  | file f hub => exact f.closed_close (g.shared hub)

/-- A handle that is no longer there is counted no more. -/
theorem Moves.of_gone (elsewhere : ∀ other, other ≠ hub → ∀ key, holders [x] other key = 0)
    (passes : (∀ r ∈ x.regions ++ (g.hub hub).regions.regions, r.Proper) →
      g.platform.Passes (x.regions ++ (g.hub hub).regions.regions) s'.platform s'.regions.regions)
    (counts : ∀ n : Path.Key → Nat, (g.hub hub).regions.Counts (fun key => holders [x] hub key + n key) →
      s'.regions.Counts n) : Moves [x] g [] (g.settle hub s') := by
  refine .of_hub (fun other different key => (elsewhere other different key).symm) ?_ fun n counted => ?_
  · rw [regions_singleton]
    exact passes
  · refine (counts n counted).congr fun key => ?_
    rw [holders_nil, Nat.zero_add]

/-- A handle that is given up takes all that it has with it. -/
theorem drop_moves (x : Resource) (g : Grounds) : Moves [x] g [] (x.drop g) := by
  cases x with
  | region r =>
    exact .of_platform (fun _ _ => rfl) fun proper => .of_closed (proper r (List.mem_singleton_self r)) _
  | store s hub =>
    refine .of_gone (fun other different key => holders_store_elsewhere different s)
      (fun proper => Store.close_passes proper rfl) fun n counted => ?_
    have left := (Store.close_counts (p := g.platform) counted (holders_store_pos · hub n) rfl).2
    refine left.congr fun key => ?_
    rw [holders_store, Nat.add_sub_cancel_left]
  | index y =>
    refine .of_platform (fun _ _ => rfl) ?_
    rw [regions_singleton]
    exact fun proper => y.unmap_passes proper false g.platform
  | file f hub =>
    refine .of_gone (fun other different key => holders_file_elsewhere different f)
      (fun proper => OpenFile.drop_passes (s := g.shared hub) proper) fun n counted => ?_
    have left := OpenFile.drop_counts (s := g.shared hub) counted (holders_file_pos · hub n)
    refine left.congr fun key => ?_
    rw [holders_file, Nat.add_sub_cancel_left]

/-- Asking for the size of a file, which opens and closes it, leaves the account in order. -/
theorem sizeOf_moves (g : Grounds) (hub : String) (v : Provider) (path : Option Path) (flags : OpenFlags) :
    Moves [] g [] (g.settle hub (v.sizeOf path flags (g.shared hub)).2) := by
  refine .of_hub (fun _ _ _ => rfl) (fun proper => ?_) fun n counted => ?_
  · exact Provider.sizeOf_passes (s := g.shared hub) proper path flags
  · exact Provider.sizeOf_counts (s := g.shared hub) counted path flags

/-- Files may change under the handles. -/
theorem files_moves (g : Grounds) (files : FileSystem) :
    Moves [] g [] { g with platform := { g.platform with files } } :=
  .of_platform (fun _ _ => rfl) fun proper => .of_same proper rfl rfl

/-! ## Handles that are closed -/

theorem serve_quiet (quiet : x.Quiet) {request : ResourceRequest} (permits : x.Permits request)
    (g : Grounds) : (x.serve request g).1.Quiet := by
  cases x with
  | region => cases request <;> trivial
  | store =>
    cases request with
    | store request => cases request <;> trivial
    | region | index | file => trivial
  | index => cases request <;> trivial
  | file f hub =>
    cases request with
    | file request => exact OpenFile.serve_quiet (s := g.shared hub) quiet permits
    | region | store | index => exact quiet

theorem close_quiet (quiet : x.Quiet) (g : Grounds) : (x.close g).1.Quiet := by
  cases x with
  | region | store | index => trivial
  | file f hub => exact OpenFile.close_quiet (s := g.shared hub) quiet

/-- A handle that is closed is counted nowhere. -/
theorem not_holds_of_closed (closed : x.isClosed = true) (hub : String) (key : Path.Key) :
    x.holds hub key = false := by
  cases x with
  | region | index => rfl
  | store s own =>
    have isClosed : s.closed = true := closed
    simp [Resource.holds, Store.holds, isClosed]
  | file f own =>
    have isClosed : f.store.closed = true := closed
    simp [Resource.holds, Store.holds, isClosed]

/-- Of the regions that are with a handle that is closed none is mapped. -/
theorem unmapped_of_closed (closed : x.isClosed = true) (quiet : x.Quiet) :
    ∀ r ∈ x.regions, r.Proper → r.mapped = none := by
  intro r member proper
  cases x with
  | region s =>
    obtain rfl := List.mem_singleton.mp member
    exact proper.unmapped closed
  | store s own => cases member
  | index y =>
    rw [Resource.regions, SharedIndex.regions_of_none (Option.isNone_iff_eq_none.mp closed)] at member
    cases member
  | file f own =>
    rw [Resource.regions, quiet closed] at member
    cases member

/-- Where no handle is counted there are no regions of stores. -/
theorem Balanced.tables_empty (balanced : Balanced xs g)
    (nobody : ∀ x ∈ xs, ∀ hub key, x.holds hub key = false) : g.regions = [] := by
  refine List.eq_nil_iff_forall_not_mem.mpr fun r member => ?_
  obtain ⟨hub, h, found, there⟩ := Keyed.mem_gather_iff.mp member
  obtain ⟨key, held, present, -⟩ := Keyed.mem_gather_iff.mp there
  have here : (g.hub hub).regions.find? key ≠ none := by
    rw [Grounds.hub, found, Option.getD_some, present]
    exact Option.some_ne_none held
  obtain ⟨x, inUse, holds⟩ := List.countP_pos_iff.mp (((balanced.counts hub).positive key).mp here)
  rw [nobody x inUse hub key] at holds
  cases holds

/-- If all handles are closed, and no file has mapped its index again, nothing is mapped. -/
theorem Balanced.idle (balanced : Balanced xs g) (closed : ∀ x ∈ xs, x.isClosed = true)
    (quiet : ∀ x ∈ xs, x.Quiet) : g.platform.live = [] := by
  have empty := balanced.tables_empty fun x member => not_holds_of_closed (closed x member)
  have nothing : Region.mappings (regions xs g) = [] := by
    refine List.filterMap_eq_nil_iff.mpr fun r member => ?_
    have proper := balanced.proper r member
    rw [regions, empty, List.append_nil] at member
    obtain ⟨x, there, mine⟩ := List.mem_flatMap.mp member
    exact unmapped_of_closed (closed x there) (quiet x there) r mine proper
  have live := balanced.holds.live
  rw [nothing] at live
  exact live.eq_nil

end Resources
end MappedStorage
