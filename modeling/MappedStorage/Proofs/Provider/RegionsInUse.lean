import MappedStorage.Proofs.Provider.ClosedFiles
import MappedStorage.Proofs.Store.Medium

/-!
The regions that files use. Whatever is asked of files, the regions of their stores are open
(`OpenFiles.run_allOpen`), and so are those of their indexes, which leave their files as they are when they are
closed (`OpenFiles.run_lasting`).
-/

namespace MappedStorage

/-- The regions of a table are open. -/
def RegionTable.AllOpen (t : RegionTable) : Prop :=
  ∀ key held, t.find? key = some held → held.region.closed = false

/-- An index that outlives its region: the region is open as long as there is one, and will not be trimmed. -/
structure SharedIndex.Lasting (x : SharedIndex) : Prop where
  untrimmed : x.setup.trimOnClose = false
  region : ∀ r, x.region? = some r → r.closed = false ∧ r.setup.trimOnClose = false

/-! ## Regions -/

namespace Region

variable {r r' : Region} {p p' : Platform}

theorem remap_state {capacity : Nat} {result : Except RegionError Unit}
    (remapped : r.remap capacity p = (result, r', p')) : r'.closed = r.closed ∧ r'.setup = r.setup := by
  cases remap_cases remapped <;> exact ⟨rfl, rfl⟩

theorem reserve_state {least : Nat} {result : Except RegionError Unit}
    (reserved : r.reserve least p = (result, r', p')) : r'.closed = r.closed ∧ r'.setup = r.setup := by
  cases reserve_cases reserved with
  | closed | covered | excessive => exact ⟨rfl, rfl⟩
  | refused _ _ remapped => exact remap_state remapped
  | enlarged _ _ remapped => exact ⟨(remap_state remapped).1, (remap_state remapped).2⟩

theorem write_closed (r : Region) (offset : Nat) (data : Bytes) (p : Platform) :
    (r.write offset data p).2.1.closed = r.closed := by
  rcases wrote : r.write offset data p with ⟨result, r', p'⟩
  cases write_cases wrote with
  | closed | beyond | empty => rfl
  | refused reserved | stored _ reserved => exact (reserve_state reserved).1

end Region

/-! ## Indexes -/

namespace SharedIndex

variable {x x' : SharedIndex} {p p' : Platform}

theorem MappedIn.lasting {r : Region} {slot : Slot} {result : Except ProviderError (Option Slot)}
    (mapped : x.MappedIn r slot p result x' p') (untrimmed : x.setup.trimOnClose = false)
    (kept : r.closed = false ∧ r.setup.trimOnClose = false) : x'.Lasting := by
  cases mapped with
  | covered enough =>
    refine ⟨untrimmed, ?_⟩
    rintro _ ⟨⟩
    exact kept
  | absent short =>
    refine ⟨untrimmed, ?_⟩
    rintro _ ⟨⟩
    exact kept
  | failed short reserving | grown short reserving =>
    obtain ⟨closed, setup⟩ := Region.reserve_state reserving
    refine ⟨untrimmed, ?_⟩
    rintro _ ⟨⟩
    exact ⟨closed.trans kept.1, (congrArg RegionSetup.trimOnClose setup).trans kept.2⟩

theorem Lasting.requestSlot (lasting : x.Lasting) (index slotSize : Nat) (extend : Bool) (p : Platform) :
    (x.requestSlot index slotSize extend p).2.1.Lasting := by
  rcases requested : x.requestSlot index slotSize extend p with ⟨result, x', p'⟩
  cases requestSlot_answered requested with
  | refused none => exact lasting
  | unopened absent trims opening => exact lasting
  | mapped state size mapped =>
    exact mapped.lasting lasting.untrimmed (lasting.region _ (region?_of_state state))
  | opened absent extending size trims granule opening mapped =>
    have opened := (Region.open_correct opening).2
    refine mapped.lasting lasting.untrimmed ⟨opened.sound.isOpen, ?_⟩
    rw [opened.setup_eq, trims]
    exact lasting.untrimmed

theorem Lasting.unmap (lasting : x.Lasting) (delete : Bool) (p : Platform) :
    (x.unmap delete p).2.1.Lasting := by
  have unmapped : SharedIndex.Lasting { x with state := .unmapped } :=
    ⟨lasting.untrimmed, fun _ mapped => by cases mapped⟩
  rw [SharedIndex.unmap]
  split
  · cases delete with
    | false => exact unmapped
    | true =>
      dsimp only
      rw [if_pos rfl]
      split <;> exact unmapped
  · exact lasting

end SharedIndex

/-! ## Files -/

namespace OpenFile

/-- The index of a file outlives its region. -/
def Lasting (f : OpenFile) : Prop := ∀ x, f.index = some x → x.Lasting

variable {f : OpenFile} {s : Shared}

theorem Lasting.unmapIndex (lasting : f.Lasting) (delete : Bool) (s : Shared) :
    (f.unmapIndex delete s).2.1.Lasting := by
  rw [OpenFile.unmapIndex]
  split
  · exact lasting
  · rename_i x has
    rintro _ ⟨⟩
    exact (lasting x has).unmap delete s.platform

theorem Lasting.serve (lasting : f.Lasting) (request : FileRequest) (s : Shared) :
    (f.serve request s).1.Lasting := by
  cases request with
  | requestSlot i slotSize extend =>
    rw [OpenFile.serve, OpenFile.requestSlot]
    split
    · exact lasting
    · rename_i x has
      rintro _ ⟨⟩
      exact (lasting x has).requestSlot i slotSize extend s.platform
  | unmapIndex delete => exact lasting.unmapIndex delete s
  | close =>
    cases isClosed : f.store.closed with
    | true =>
      rw [OpenFile.serve, close_of_closed isClosed]
      exact lasting
    | false =>
      rw [OpenFile.serve, close_eq isClosed]
      exact Lasting.unmapIndex (f := (f.releaseLocks s).1) lasting false (f.releaseLocks s).2
  | write | truncate | sync | lock | unlock | lockSlots | fillSlot | storeWord | barrier => exact lasting

theorem closeStore_allOpen (f : OpenFile) (allOpen : s.regions.AllOpen) :
    (f.closeStore s).2.2.regions.AllOpen := by
  rcases closing : f.store.close s.regions s.platform with ⟨result, store, t, p⟩
  rw [closeStore_eq closing]
  intro key held found
  obtain ⟨held₀, before, same⟩ := (Store.close_correct closing).2.region_eq found
  rw [same]
  exact allOpen key held₀ before

theorem close_allOpen (f : OpenFile) (allOpen : s.regions.AllOpen) :
    (f.close s).2.2.regions.AllOpen := by
  cases isClosed : f.store.closed with
  | true =>
    rw [close_of_closed isClosed]
    exact allOpen
  | false =>
    have regions := ((f.releaseLocks s).1.unmapIndex_store false (f.releaseLocks s).2).2
    rw [close_eq isClosed]
    refine closeStore_allOpen _ ?_
    rw [regions]
    exact allOpen

theorem drop_allOpen (f : OpenFile) (allOpen : s.regions.AllOpen) : (f.drop s).regions.AllOpen := by
  have closed := f.close_allOpen allOpen
  rcases closing : f.close s with ⟨result, f', s'⟩
  rw [closing] at closed
  rw [drop_eq closing, ((f'.releaseLocks s').1.unmapIndex_store false _).2]
  exact closed

theorem serve_allOpen (f : OpenFile) (allOpen : s.regions.AllOpen) (request : FileRequest) :
    (f.serve request s).2.regions.AllOpen := by
  have still (regions : (f.serve request s).2.regions = s.regions) :
      (f.serve request s).2.regions.AllOpen := regions ▸ allOpen
  cases request with
  | write offset data =>
    rcases writing : f.store.write offset data s.regions s.platform with ⟨result, store, t, p⟩
    rw [serve, write_eq writing]
    intro key held found
    obtain ⟨held₀, before, same | wrote⟩ := Store.write_region writing found
    · rw [same]
      exact allOpen key held₀ before
    · rw [wrote, Region.write_closed]
      exact allOpen key held₀ before
  | close => exact f.close_allOpen allOpen
  | requestSlot i slotSize extend => exact still (f.requestSlot_store i slotSize extend s).2
  | unmapIndex delete => exact still (f.unmapIndex_store delete s).2
  | fillSlot slot byte => exact still (f.fillSlot_table slot byte s).1
  | storeWord slot i word => exact still (f.storeWord_table slot i word s).1
  | barrier => exact still (f.barrier_table s).1
  | truncate | sync | lock | unlock | lockSlots => exact still rfl

end OpenFile

namespace Provider

variable {v : Provider} {path : Option Path} {flags : OpenFlags} {s s' : Shared}

theorem openFile_allOpen {result : Except ProviderError OpenFile} (allOpen : s.regions.AllOpen)
    (opened : v.openFile path flags s = (result, s')) : s'.regions.AllOpen := by
  have after {real : Path} {role : Role} {setup : RegionSetup} {made : Except ProviderError Store}
      {t : RegionTable} {p : Platform}
      (opening : Store.open real role setup s.regions s.platform = (made, t, p)) : t.AllOpen := by
    intro key held found
    obtain ⟨held₀, before, same⟩ | ⟨_, new⟩ := Store.open_region opening found
    · rw [same]
      exact allOpen key held₀ before
    · exact (Region.open_correct new).2.sound.isOpen
  cases openFile_opened opened with
  | refused e => exact allOpen
  | failed leads opening => exact after opening
  | opened leads opening made =>
    rw [(assemble_correct made).regions]
    exact after opening

theorem sizeOf_allOpen (v : Provider) (path : Option Path) (flags : OpenFlags) (allOpen : s.regions.AllOpen) :
    (v.sizeOf path flags s).2.regions.AllOpen := by
  rcases asked : v.sizeOf path flags s with ⟨_, s'⟩
  cases sizeOf_sized asked with
  | failed opening => exact openFile_allOpen allOpen opening
  | @sized f f' s₁ s₂ opening closing =>
    have closed := f.close_allOpen (openFile_allOpen allOpen opening)
    rw [closing] at closed
    exact f'.drop_allOpen closed

theorem openFile_lasting {f : OpenFile} (opened : v.openFile path flags s = (.ok f, s')) : f.Lasting := by
  cases openFile_opened opened with
  | opened leads opening made =>
    obtain ⟨-, unmapped, untrimmed⟩ := assemble_new made fun _ => none
    intro x has
    refine ⟨untrimmed x has, fun r region => ?_⟩
    rw [OpenFile.indexRegion?, has, Option.bind_some, region] at unmapped
    cases unmapped

end Provider

/-! ## Runs -/

namespace OpenFiles

variable {v : Provider} {s : OpenFiles}

theorem step_lasting (lasting : ∀ name f, s.find? name = some f → f.Lasting) (e : ProviderEvent) :
    ∀ name f, (s.step v e).find? name = some f → f.Lasting := by
  intro name f there
  have becomes := step_becomes v s name e
  rw [there] at becomes
  generalize after : some f = outcome at becomes
  cases becomes with
  | stays => exact lasting name f after.symm
  | served found =>
    cases after
    exact (lasting name _ found).serve _ s.state
  | opened opening =>
    cases after
    exact Provider.openFile_lasting opening
  | dropped => cases after

theorem drop_allOpen (name : String) (allOpen : s.state.regions.AllOpen) :
    (Session.drop s name OpenFile.drop).state.regions.AllOpen := by
  rw [Session.drop]
  split
  · exact allOpen
  · exact OpenFile.drop_allOpen _ allOpen

theorem step_allOpen (allOpen : s.state.regions.AllOpen) (e : ProviderEvent) :
    (s.step v e).state.regions.AllOpen := by
  cases e with
  | «open» name path flags =>
    rcases opening : v.openFile path flags s.state with ⟨result, st⟩
    have opened := Provider.openFile_allOpen allOpen opening
    simp only [step, Session.enter, opening]
    cases result with
    | error e => exact opened
    | ok f => exact drop_allOpen (s := { s with state := st }) name opened
  | ask name request =>
    cases found : s.find? name with
    | none => rwa [step_ask_of_none found]
    | some f =>
      rw [step_ask found]
      exact f.serve_allOpen allOpen request
  | drop name => exact drop_allOpen name allOpen
  | sizeOf path flags => exact v.sizeOf_allOpen path flags allOpen
  | delete path syncing =>
    simp only [step]
    rwa [(v.delete_table path syncing s.state).1]
  | outside files => exact allOpen

/-- The regions of stores are open at any time in a run. -/
theorem run_allOpen (v : Provider) (p : Platform) (events : List ProviderEvent) :
    ((start p).run v events).state.regions.AllOpen := by
  induction events using List.reverseRecOn with
  | nil => exact fun _ _ => nofun
  | append_singleton events e ih =>
    rw [run, List.foldl_append]
    exact step_allOpen ih e

/-- The index of a file outlives its region at any time in a run. -/
theorem run_lasting (v : Provider) (p : Platform) (events : List ProviderEvent) :
    ∀ name f, ((start p).run v events).find? name = some f → f.Lasting := by
  induction events using List.reverseRecOn with
  | nil => exact fun _ _ => nofun
  | append_singleton events e ih =>
    rw [run, List.foldl_append]
    exact step_lasting ih e

end OpenFiles
end MappedStorage
