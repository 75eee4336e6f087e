import MappedStorage.Proofs.Provider.Counts
import MappedStorage.Proofs.Store.IndexRun

/-!
The mappings of open files. A file has to do with the region of its index and with those of all stores
(`OpenFile.holdings`), and passes them on, whatever it is asked for (`OpenFile.serve_passes`); unless its index
is unmapped or the file closed, a mapping goes only for a longer one (`OpenFile.serve_handled`). A file that is closed
has no index mapped, as long as no slot is requested of it after that (`OpenFile.serve_quiet`).
-/

namespace MappedStorage

/-- The request lets go of something. -/
def FileRequest.closes : FileRequest → Bool
  | .unmapIndex _ | .close => true
  | _ => false

namespace OpenFile

/-- The regions that a file has to do with: that of its index and those of all stores. -/
def holdings (f : OpenFile) (s : Shared) : List Region := f.indexRegion?.toList ++ s.regions.regions

/-- From one file to another, the regions that it has to do with are passed on. -/
abbrev Passes (f : OpenFile) (s : Shared) (f' : OpenFile) (s' : Shared) : Prop :=
  s.platform.Passes (f.holdings s) s'.platform (f'.holdings s')

/-- Besides, mappings are released only to be replaced. -/
structure Handled (f : OpenFile) (s : Shared) (f' : OpenFile) (s' : Shared) : Prop where
  passes : f.Passes s f' s'
  replaces : s.platform.Replaces s'.platform

/-- A file that is closed has no index mapped. -/
def Quiet (f : OpenFile) : Prop := f.store.closed = true → f.indexRegion? = none

/-- A slot is requested only of a file that is open. -/
def Permits (f : OpenFile) : FileRequest → Prop
  | .requestSlot .. => f.store.closed = false
  | _ => True

variable {f f' f'' : OpenFile} {s s' s'' : Shared} {x x' : SharedIndex}

theorem indexRegion?_of_index (has : f.index = some x) : f.indexRegion?.toList = x.regions := by
  rw [indexRegion?, has, Option.bind_some, SharedIndex.regions]

theorem proper_table (proper : ∀ r ∈ f.holdings s, r.Proper) : ∀ r ∈ s.regions.regions, r.Proper :=
  fun r member => proper r (List.mem_append_right _ member)

theorem proper_index (proper : ∀ r ∈ f.holdings s, r.Proper) (has : f.index = some x) :
    ∀ r ∈ x.regions, r.Proper := by
  intro r member
  rw [← indexRegion?_of_index has] at member
  exact proper r (List.mem_append_left _ member)

/-! ## Frames -/

/-- What changes the regions of stores leaves the index. -/
theorem Passes.of_table (proper : ∀ r ∈ f.holdings s, r.Proper) (same : f'.index = f.index)
    (passes : s.platform.Passes s.regions.regions s'.platform s'.regions.regions) : f.Passes s f' s' := by
  have region : f'.indexRegion? = f.indexRegion? := by rw [indexRegion?, indexRegion?, same]
  unfold Passes holdings
  rw [region]
  refine (passes.frame fun r member => ?_).perm List.perm_append_comm List.perm_append_comm
  exact proper r (List.mem_append_left _ member)

/-- What changes the region of the index leaves those of stores. -/
theorem Passes.of_index (proper : ∀ r ∈ f.holdings s, r.Proper) (same : s'.regions = s.regions)
    (has : f.index = some x) (has' : f'.index = some x')
    (passes : s.platform.Passes x.regions s'.platform x'.regions) : f.Passes s f' s' := by
  unfold Passes holdings
  rw [same, indexRegion?_of_index has, indexRegion?_of_index has']
  exact passes.frame (proper_table proper)

theorem Passes.refl (proper : ∀ r ∈ f.holdings s, r.Proper) : f.Passes s f s :=
  Platform.Passes.refl proper s.platform

theorem Handled.refl (proper : ∀ r ∈ f.holdings s, r.Proper) : f.Handled s f s :=
  ⟨.refl proper, .refl _⟩

/-- Nothing is passed on where no region changes and no call on mappings is made. -/
theorem Handled.of_same (proper : ∀ r ∈ f.holdings s, r.Proper) (index : f'.index = f.index)
    (regions : s'.regions = s.regions) (live : s'.platform.live = s.platform.live)
    (calls : s'.platform.calls = s.platform.calls) : f.Handled s f' s' := by
  refine ⟨.of_table proper index ?_, .of_same calls⟩
  rw [regions]
  exact .of_same (proper_table proper) live calls

/-! ## Requests -/

theorem write_handled (proper : ∀ r ∈ f.holdings s, r.Proper) (offset : Nat) (data : Bytes) :
    f.Handled s (f.write offset data s).2.1 (f.write offset data s).2.2 := by
  rcases writing : f.store.write offset data s.regions s.platform with ⟨result, store, t, p⟩
  have handled := Store.write_handled (proper_table proper) writing
  rw [write_eq writing]
  exact ⟨.of_table proper rfl handled.passes, handled.replaces⟩

theorem sync_handled (proper : ∀ r ∈ f.holdings s, r.Proper) (flags : SyncFlags) :
    f.Handled s (f.sync flags s).2.1 (f.sync flags s).2.2 := by
  rcases syncing : f.store.sync s.regions s.platform with ⟨result, store, p⟩
  have handled := Store.sync_handled (proper_table proper) syncing
  rw [sync_eq syncing]
  exact ⟨.of_table proper rfl handled.passes, handled.replaces⟩

theorem requestSlot_handled (proper : ∀ r ∈ f.holdings s, r.Proper) (i slotSize : Nat) (extend : Bool) :
    f.Handled s (f.requestSlot i slotSize extend s).2.1 (f.requestSlot i slotSize extend s).2.2 := by
  unfold requestSlot
  split
  · exact .refl proper
  · rename_i x has
    have requested : x.requestSlot i slotSize extend s.platform = _ := rfl
    have handled := SharedIndex.requestSlot_handled (proper_index proper has) requested
    exact ⟨.of_index proper rfl has rfl handled.passes, handled.replaces⟩

theorem fillSlot_handled (proper : ∀ r ∈ f.holdings s, r.Proper) (slot : Slot) (byte : UInt8) :
    f.Handled s f (f.fillSlot slot byte s) := by
  unfold fillSlot
  split
  · rename_i filled
    obtain ⟨x, _, filled⟩ := Option.bind_eq_some_iff.mp filled
    obtain ⟨live, calls⟩ := SharedIndex.fillSlot?_same filled
    exact .of_same proper rfl rfl live calls
  · exact .refl proper

theorem storeWord_handled (proper : ∀ r ∈ f.holdings s, r.Proper) (slot : Slot) (i word : Nat) :
    f.Handled s f (f.storeWord slot i word s) := by
  unfold storeWord
  split
  · split
    · exact .of_same proper rfl rfl rfl rfl
    · exact .refl proper
  · exact .refl proper

theorem barrier_handled (proper : ∀ r ∈ f.holdings s, r.Proper) : f.Handled s f (f.barrier s) := by
  unfold barrier
  split
  · exact .refl proper
  · rename_i x has
    have handled := x.barrier_handled (proper_index proper has) s.platform
    exact ⟨.of_index proper rfl has has handled.passes, handled.replaces⟩

/-- While nothing is let go of, mappings are released only to be replaced. -/
theorem serve_handled (proper : ∀ r ∈ f.holdings s, r.Proper) {request : FileRequest}
    (keeps : request.closes = false) : f.Handled s (f.serve request s).1 (f.serve request s).2 := by
  cases request with
  | write offset data => exact write_handled proper offset data
  | sync flags => exact sync_handled proper flags
  | requestSlot i slotSize extend => exact requestSlot_handled proper i slotSize extend
  | fillSlot slot byte => exact fillSlot_handled proper slot byte
  | storeWord slot i word => exact storeWord_handled proper slot i word
  | barrier => exact barrier_handled proper
  | truncate size => exact .refl proper
  | lock level => exact .of_same proper rfl rfl rfl rfl
  | unlock level => exact .of_same proper rfl rfl rfl rfl
  | lockSlots offset n op => exact .of_same proper rfl rfl rfl rfl
  | unmapIndex | close => cases keeps

/-! ## Letting go -/

theorem unmapIndex_passes (proper : ∀ r ∈ f.holdings s, r.Proper) (delete : Bool) :
    f.Passes s (f.unmapIndex delete s).2.1 (f.unmapIndex delete s).2.2 := by
  unfold unmapIndex
  split
  · exact .refl proper
  · rename_i x has
    have passes := x.unmap_passes (proper_index proper has) delete s.platform
    refine .of_index proper rfl has rfl ?_
    rw [SharedIndex.regions_of_none (x.region?_unmap delete s.platform)]
    exact passes

theorem closeStore_passes (proper : ∀ r ∈ f.holdings s, r.Proper) :
    f.Passes s (f.closeStore s).2.1 (f.closeStore s).2.2 := by
  rcases closing : f.store.close s.regions s.platform with ⟨result, store, t, p⟩
  have passes := Store.close_passes (proper_table proper) closing
  rw [closeStore_eq closing]
  exact .of_table proper rfl passes

/-- A file that is closed gives the mapping of its index up, and the last one of a path that of its
store, whatever fails. -/
theorem close_passes (proper : ∀ r ∈ f.holdings s, r.Proper) :
    f.Passes s (f.close s).2.1 (f.close s).2.2 := by
  cases isClosed : f.store.closed with
  | true =>
    rw [close_of_closed isClosed]
    exact .refl proper
  | false =>
    rw [close_eq isClosed]
    have unmapped := unmapIndex_passes (f := (f.releaseLocks s).1) (s := (f.releaseLocks s).2) proper false
    exact Platform.Passes.trans unmapped (closeStore_passes unmapped.proper)

theorem drop_passes (proper : ∀ r ∈ f.holdings s, r.Proper) :
    s.platform.Passes (f.holdings s) (f.drop s).platform (f.drop s).regions.regions := by
  have closed := close_passes proper
  rcases closing : f.close s with ⟨_, f₁, s₁⟩
  rw [closing] at closed
  have unmapped := unmapIndex_passes (f := (f₁.releaseLocks s₁).1) (s := (f₁.releaseLocks s₁).2)
    closed.proper false
  have none := ((f₁.releaseLocks s₁).1.unmapIndex_goes false (f₁.releaseLocks s₁).2).2
  rw [drop_eq closing]
  unfold Passes holdings at unmapped
  rw [none] at unmapped
  exact Platform.Passes.trans closed unmapped

theorem serve_passes (proper : ∀ r ∈ f.holdings s, r.Proper) (request : FileRequest) :
    f.Passes s (f.serve request s).1 (f.serve request s).2 := by
  cases closes : request.closes with
  | false => exact (serve_handled proper closes).passes
  | true =>
    cases request with
    | unmapIndex delete => exact unmapIndex_passes proper delete
    | close => exact close_passes proper
    | write | sync | requestSlot | fillSlot | storeWord | barrier | truncate | lock | unlock | lockSlots =>
      cases closes

/-! ## Files that are closed -/

/-- A file is closed even if that fails. -/
theorem closed_close (f : OpenFile) (s : Shared) : (f.close s).2.1.store.closed = true := by
  cases isClosed : f.store.closed with
  | true =>
    rw [close_of_closed isClosed]
    exact isClosed
  | false =>
    rw [close_eq isClosed]
    exact congrArg Store.closed (Store.close_correct rfl).1

theorem Quiet.of_same (quiet : f.Quiet) (index : f'.index = f.index)
    (closed : f'.store.closed = f.store.closed) : f'.Quiet := by
  intro isClosed
  rw [closed] at isClosed
  rw [indexRegion?, index]
  exact quiet isClosed

theorem close_quiet (quiet : f.Quiet) : (f.close s).2.1.Quiet := by
  cases isClosed : f.store.closed with
  | true =>
    rw [close_of_closed isClosed]
    exact quiet
  | false =>
    rw [close_eq isClosed]
    exact fun _ => ((f.releaseLocks s).1.unmapIndex_goes false (f.releaseLocks s).2).2

theorem serve_quiet (quiet : f.Quiet) {request : FileRequest} (permits : f.Permits request) :
    (f.serve request s).1.Quiet := by
  cases request with
  | write offset data => exact quiet.of_same rfl (Store.write_same (t := s.regions) rfl).closed
  | sync flags => exact quiet.of_same rfl (Store.sync_same (t := s.regions) rfl).closed
  | requestSlot i slotSize extend =>
    intro isClosed
    have store := (f.requestSlot_store i slotSize extend s).1
    unfold serve at isClosed
    dsimp only at isClosed
    rw [store, show f.store.closed = false from permits] at isClosed
    cases isClosed
  | unmapIndex delete => exact fun _ => (f.unmapIndex_goes delete s).2
  | close => exact close_quiet quiet
  | lock level => exact quiet.of_same rfl rfl
  | unlock level => exact quiet.of_same rfl rfl
  | lockSlots offset n op => exact quiet.of_same rfl rfl
  | truncate | fillSlot | storeWord | barrier => exact quiet

end OpenFile

/-! ## Opening -/

namespace Provider

variable {v : Provider} {path : Option Path} {flags : OpenFlags} {s s' : Shared}

/-- A file that is opened may open the region of its store. That of its index is not mapped yet. -/
theorem openFile_handled {result : Except ProviderError OpenFile}
    (proper : ∀ r ∈ s.regions.regions, r.Proper) (opened : v.openFile path flags s = (result, s')) :
    s.platform.Passes s.regions.regions s'.platform s'.regions.regions ∧
      s.platform.Replaces s'.platform ∧ ∀ f, result = .ok f → f.indexRegion? = none := by
  cases openFile_opened opened with
  | refused e => exact ⟨.refl proper _, .refl _, fun _ => nofun⟩
  | failed leads opening =>
    have handled := Store.open_handled proper opening
    exact ⟨handled.passes, handled.replaces, fun _ => nofun⟩
  | opened leads opening made =>
    have handled := Store.open_handled proper opening
    obtain ⟨-, new, -⟩ := assemble_new made fun _ => none
    have made := assemble_correct made
    rw [made.platform, made.regions]
    refine ⟨handled.passes, handled.replaces, ?_⟩
    rintro _ ⟨⟩
    exact new

/-- A file that is opened for its size takes all that it has with it. -/
theorem sizeOf_passes (proper : ∀ r ∈ s.regions.regions, r.Proper) (path : Option Path) (flags : OpenFlags) :
    s.platform.Passes s.regions.regions (v.sizeOf path flags s).2.platform
      (v.sizeOf path flags s).2.regions.regions := by
  rcases asked : v.sizeOf path flags s with ⟨_, s'⟩
  cases sizeOf_sized asked with
  | failed opening => exact (openFile_handled proper opening).1
  | @sized f f' s₁ s₂ opening closing =>
    obtain ⟨opened, -, new⟩ := openFile_handled proper opening
    have none : f.holdings s₁ = s₁.regions.regions := by rw [OpenFile.holdings, new f rfl]; rfl
    have closed := OpenFile.close_passes (f := f) (s := s₁) (by rw [none]; exact opened.proper)
    unfold OpenFile.Passes at closed
    rw [none, closing] at closed
    exact opened.trans (closed.trans (OpenFile.drop_passes closed.proper))

end Provider
end MappedStorage
