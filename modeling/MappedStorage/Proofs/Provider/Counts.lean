import MappedStorage.Proofs.Provider.OpenFile
import MappedStorage.Proofs.Store.Run

/-!
How many files are open on a path. Whatever a provider is asked for, its table of regions counts the files
that are open on each path, and has a region where there are any (`OpenFiles.run_counts`).
-/

namespace MappedStorage

/-- The numbers of stores after one has become another. -/
def Store.recount (n : Path.Key → Nat) (s s' : Store) : Path.Key → Nat :=
  fun key => n key - (if s.holds key then 1 else 0) + if s'.holds key then 1 else 0

theorem Store.recount_same {n : Path.Key → Nat} {s s' : Store} (same : s.SameStore s')
    (member : s.closed = false → 0 < n s.path.key) (key : Path.Key) : Store.recount n s s' key = n key := by
  rw [recount, same.holds_eq]
  split
  · rename_i here
    obtain ⟨isOpen, rfl⟩ := holds_iff.mp here
    have positive := member isOpen
    omega
  · rfl

namespace OpenFile

variable {f : OpenFile} {s : Shared} {n : Path.Key → Nat}

theorem holds_path (isOpen : f.store.closed = false) : f.store.holds f.path.key = true :=
  Store.holds_iff.mpr ⟨isOpen, rfl⟩

theorem close_counts (counts : s.regions.Counts n) (member : f.store.closed = false → 0 < n f.path.key) :
    (f.close s).2.2.regions.Counts (Store.recount n f.store (f.close s).2.1.store) ∧
      (f.close s).2.1.store.closed = true := by
  cases isClosed : f.store.closed with
  | true =>
    rw [close_of_closed isClosed]
    exact ⟨counts.congr (Store.recount_same (.refl _) member), isClosed⟩
  | false =>
    rw [close_eq isClosed]
    obtain ⟨store, regions⟩ := (f.releaseLocks s).1.unmapIndex_store false (f.releaseLocks s).2
    rcases unmapping : (f.releaseLocks s).1.unmapIndex false (f.releaseLocks s).2 with ⟨_, f₂, s₂⟩
    rw [unmapping] at store regions
    have store : f₂.store = f.store := store
    have regions : s₂.regions = s.regions := regions
    rcases closing : f₂.store.close s₂.regions s₂.platform with ⟨result, store', t, p⟩
    obtain ⟨rfl, counts'⟩ := Store.close_counts (regions ▸ counts) (store ▸ member) closing
    dsimp only
    rw [closeStore_eq closing]
    refine ⟨counts'.congr fun key => ?_, rfl⟩
    rw [Store.recount, store]
    simp [Store.holds]

/-- A file that is dropped is no longer counted. -/
theorem drop_counts (counts : s.regions.Counts n) (member : f.store.closed = false → 0 < n f.path.key) :
    (f.drop s).regions.Counts fun key => n key - if f.store.holds key then 1 else 0 := by
  obtain ⟨counts', closed⟩ := close_counts counts member
  rcases closing : f.close s with ⟨_, f₁, s₁⟩
  rw [closing] at counts' closed
  have closed : f₁.store.closed = true := closed
  obtain ⟨_, regions⟩ := (f₁.releaseLocks s₁).1.unmapIndex_store false (f₁.releaseLocks s₁).2
  rw [drop_eq closing, regions]
  refine counts'.congr fun key => ?_
  simp [Store.recount, Store.holds, closed]

theorem serve_counts (counts : s.regions.Counts n) (member : f.store.closed = false → 0 < n f.path.key)
    (request : FileRequest) : (f.serve request s).2.regions.Counts
      (Store.recount n f.store (f.serve request s).1.store) := by
  have still (regions : (f.serve request s).2.regions = s.regions)
      (store : f.store.SameStore (f.serve request s).1.store) : (f.serve request s).2.regions.Counts
        (Store.recount n f.store (f.serve request s).1.store) := by
    rw [regions]
    exact counts.congr (Store.recount_same store member)
  cases request with
  | write offset data =>
    rcases writing : f.store.write offset data s.regions s.platform with ⟨result, store, t, p⟩
    rw [serve, write_eq writing]
    exact (Store.write_counts counts writing).congr
      (Store.recount_same (Store.write_same writing) member)
  | sync flags =>
    rcases syncing : f.store.sync s.regions s.platform with ⟨result, store, p⟩
    rw [serve, sync_eq syncing]
    exact counts.congr (Store.recount_same (Store.sync_same syncing) member)
  | close => exact (close_counts counts member).1
  | requestSlot i slotSize extend =>
    obtain ⟨store, regions⟩ := f.requestSlot_store i slotSize extend s
    exact still regions (by rw [serve, store]; exact .refl _)
  | unmapIndex delete =>
    obtain ⟨store, regions⟩ := f.unmapIndex_store delete s
    exact still regions (by rw [serve, store]; exact .refl _)
  | fillSlot slot byte => exact still (f.fillSlot_table slot byte s).1 (.refl _)
  | storeWord slot i word => exact still (f.storeWord_table slot i word s).1 (.refl _)
  | barrier => exact still (f.barrier_table s).1 (.refl _)
  | truncate size => exact still rfl (.refl _)
  | lock level => exact still rfl (.refl _)
  | unlock level => exact still rfl (.refl _)
  | lockSlots offset n op => exact still rfl (.refl _)

end OpenFile

namespace Provider

variable {v : Provider} {path : Option Path} {flags : OpenFlags} {s s' : Shared} {n : Path.Key → Nat}

/-- A file that is opened is counted. -/
theorem openFile_counts {result : Except ProviderError OpenFile} (counts : s.regions.Counts n)
    (opened : v.openFile path flags s = (result, s')) :
    (∀ f, result = .ok f → s'.regions.Counts fun key => n key + if f.store.holds key then 1 else 0) ∧
      ∀ e, result = .error e → s'.regions.Counts n := by
  cases openFile_opened opened with
  | refused e => exact ⟨fun _ => nofun, fun _ _ => counts⟩
  | failed leads opening =>
    exact ⟨fun _ => nofun, fun _ _ => (Store.open_counts counts opening).2 _ rfl⟩
  | opened leads opening made =>
    have made := assemble_correct made
    refine ⟨?_, fun _ => nofun⟩
    rintro _ ⟨⟩
    rw [made.regions, made.store]
    exact (Store.open_counts counts opening).1 _ rfl

theorem sizeOf_counts (counts : s.regions.Counts n) (path : Option Path) (flags : OpenFlags) :
    (v.sizeOf path flags s).2.regions.Counts n := by
  rcases asked : v.sizeOf path flags s with ⟨_, s'⟩
  cases sizeOf_sized asked with
  | failed opening => exact (openFile_counts counts opening).2 _ rfl
  | @sized f f' s₁ s₂ opening closing =>
    have here : f.store.closed = false → 0 < n f.path.key + if f.store.holds f.path.key then 1 else 0 := by
      intro isOpen
      rw [if_pos (OpenFile.holds_path isOpen)]
      exact Nat.succ_pos _
    obtain ⟨counts', closed⟩ := OpenFile.close_counts ((openFile_counts counts opening).1 f rfl) here
    rw [closing] at counts' closed
    have closed : f'.store.closed = true := closed
    have gone := OpenFile.drop_counts counts' (f := f') fun isOpen => by
      rw [closed] at isOpen
      cases isOpen
    refine gone.congr fun key => ?_
    simp [Store.recount, Store.holds, closed]

end Provider

namespace OpenFiles

/-- How many files are open on a path. -/
def holders (s : OpenFiles) (key : Path.Key) : Nat := s.objects.count (·.store.holds key)

/-- Every file of a path is closed. -/
def AllClosed (s : OpenFiles) (key : Path.Key) : Prop :=
  ∀ name f, s.find? name = some f → f.path.key = key → f.store.closed = true

variable {v : Provider} {s : OpenFiles} {name : String} {f f' : OpenFile} {st : Shared}

theorem holders_eq (found : s.find? name = some f) (key : Path.Key) : s.holders key =
    (s.objects.erase name).count (·.store.holds key) + if f.store.holds key then 1 else 0 :=
  Keyed.count_of_find? found _

/-- An open file is counted. -/
theorem holders_pos (found : s.find? name = some f) (isOpen : f.store.closed = false) :
    0 < s.holders f.path.key := by
  rw [holders_eq found, if_pos (OpenFile.holds_path isOpen)]
  exact Nat.succ_pos _

/-- There is a region for an open file. -/
theorem find?_ne_none (counts : s.state.regions.Counts s.holders) (found : s.find? name = some f)
    (isOpen : f.store.closed = false) : s.state.regions.find? f.path.key ≠ none :=
  (counts.positive _).mpr (holders_pos found isOpen)

/-- No region is left of a path on which no file is open. -/
theorem find?_eq_none (counts : s.state.regions.Counts s.holders) {key : Path.Key}
    (closed : s.AllClosed key) : s.state.regions.find? key = none := by
  by_contra present
  obtain ⟨name, f, found, holds⟩ := Keyed.count_pos_iff.mp ((counts.positive key).mp present)
  obtain ⟨isOpen, here⟩ := Store.holds_iff.mp holds
  rw [closed name f found here] at isOpen
  cases isOpen

theorem drop_counts (name : String) (extra : Path.Key → Nat)
    (counts : s.state.regions.Counts fun key => s.holders key + extra key) :
    let s' : OpenFiles := s.drop name OpenFile.drop
    s'.state.regions.Counts fun key => s'.holders key + extra key := by
  cases found : s.find? name with
  | none =>
    simp only [Session.drop, found]
    exact counts
  | some f =>
    have dropped := OpenFile.drop_counts counts (f := f) fun isOpen =>
      Nat.add_pos_left (holders_pos found isOpen) _
    simp only [Session.drop, found]
    refine dropped.congr fun key => ?_
    have left : holders ⟨(s.forget name).objects, f.drop s.state⟩ key =
      (s.objects.erase name).count (·.store.holds key) := rfl
    rw [left, holders_eq found]
    omega

/-- The table counts the files that are open on each path, whatever happens. -/
theorem step_counts (counts : s.state.regions.Counts s.holders) (e : ProviderEvent) :
    (s.step v e).state.regions.Counts (s.step v e).holders := by
  cases e with
  | «open» name path flags =>
    rcases opening : v.openFile path flags s.state with ⟨result, st⟩
    obtain ⟨some, none⟩ := Provider.openFile_counts counts opening
    simp only [step, Session.enter, opening]
    cases result with
    | error e => exact none e rfl
    | ok f =>
      have counts' := drop_counts (s := { s with state := st }) name _ (some f rfl)
      have absent : Session.find? (Session.drop { s with state := st } name OpenFile.drop) name =
        Option.none := by rw [Session.find?_drop, if_pos rfl]
      refine counts'.congr fun key => ?_
      exact (Keyed.count_insert ..).trans (by rw [← Keyed.count_of_none absent]; rfl)
  | ask name request =>
    cases found : s.find? name with
    | none =>
      rw [step_ask_of_none found]
      exact counts
    | some f =>
      rw [step_ask found]
      refine (OpenFile.serve_counts counts (holders_pos found) request).congr fun key => ?_
      rw [Store.recount, holders_eq found, Nat.add_sub_cancel]
      exact Keyed.count_modify found _ (·.store.holds key)
  | drop name => exact drop_counts name (fun _ => 0) counts
  | sizeOf path flags => exact Provider.sizeOf_counts counts path flags
  | delete path syncing =>
    simp only [step]
    rw [(v.delete_table path syncing s.state).1]
    exact counts
  | outside files => exact counts

theorem run_counts (counts : s.state.regions.Counts s.holders) (events : List ProviderEvent) :
    (s.run v events).state.regions.Counts (s.run v events).holders := by
  induction events generalizing s with
  | nil => exact counts
  | cons e rest ih => exact ih (step_counts counts e)

theorem start_counts (p : Platform) : (start p).state.regions.Counts (start p).holders :=
  RegionTable.counts_empty

end OpenFiles
end MappedStorage
