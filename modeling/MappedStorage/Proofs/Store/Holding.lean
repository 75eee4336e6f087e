import MappedStorage.Proofs.Mapping.Holding
import MappedStorage.Proofs.Store.Basic
import MappedStorage.Proofs.Store.SharedIndex

/-!
The mappings of several regions: those of a table of open regions, and that of a shared index. Each
operation passes the regions that there are on to those that there are then (`Platform.Passes`); none but
closing and unmapping takes a mapping down without another in its place.
-/

namespace MappedStorage

/-- The mappings of some regions. -/
def Region.mappings (rs : List Region) : List Mapping := rs.filterMap (·.mapped)

theorem Region.mappings_append (rs others : List Region) :
    mappings (rs ++ others) = mappings rs ++ mappings others := List.filterMap_append

theorem Region.mappings_cons (r : Region) (rs : List Region) :
    mappings (r :: rs) = r.mapped.toList ++ mappings rs := by
  unfold mappings
  cases mapped : r.mapped with
  | none => rw [List.filterMap_cons_none mapped]; rfl
  | some m => rw [List.filterMap_cons_some mapped]; rfl

theorem Region.mappings_singleton (r : Region) : mappings [r] = r.mapped.toList := by
  rw [mappings_cons]
  exact List.append_nil _

/-- From one platform to another, the mappings of some regions are given up for those of others. -/
structure Platform.Passes (p : Platform) (rs : List Region) (p' : Platform) (rs' : List Region) :
    Prop where
  proper : ∀ r ∈ rs', r.Proper
  trades : p.Trades (Region.mappings rs) p' (Region.mappings rs')

namespace Platform.Passes

variable {p q p' : Platform} {rs rs' rs'' others : List Region} {r r' : Region}

theorem refl (proper : ∀ r ∈ rs, r.Proper) (p : Platform) : p.Passes rs p rs := ⟨proper, .refl p _⟩

theorem trans (first : p.Passes rs q rs') (second : q.Passes rs' p' rs'') : p.Passes rs p' rs'' :=
  ⟨second.proper, first.trades.trans second.trades⟩

/-- Nothing is passed on where only files change. -/
theorem of_same (proper : ∀ r ∈ rs, r.Proper) (live : p'.live = p.live) (calls : p'.calls = p.calls) :
    p.Passes rs p' rs := ⟨proper, .of_same live calls _⟩

theorem frame (passes : p.Passes rs p' rs') (proper : ∀ r ∈ others, r.Proper) :
    p.Passes (rs ++ others) p' (rs' ++ others) := by
  refine ⟨fun r member => ?_, ?_⟩
  · rcases List.mem_append.mp member with h | h
    · exact passes.proper r h
    · exact proper r h
  · rw [Region.mappings_append, Region.mappings_append]
    exact passes.trades.frame _

theorem perm {given left : List Region} (passes : p.Passes rs p' rs') (same : given.Perm rs)
    (same' : left.Perm rs') : p.Passes given p' left :=
  ⟨fun r member => passes.proper r (same'.mem_iff.mp member),
    passes.trades.perm (same.filterMap _) (same'.filterMap _)⟩

theorem of_handled (handled : r.Handled p r' p') : p.Passes [r] p' [r'] := by
  refine ⟨by simpa using handled.proper, ?_⟩
  rw [Region.mappings_singleton, Region.mappings_singleton]
  exact handled.trades

/-- A region that is opened is there besides the others. -/
theorem of_opened (brings : Region.Brings p (.ok r) p') : p.Passes [] p' [r] := by
  refine ⟨by simpa using (brings.proper r rfl).1, ?_⟩
  rw [Region.mappings_singleton]
  exact brings.trades

theorem of_unopened {e : RegionError} (brings : Region.Brings p (.error e) p') : p.Passes [] p' [] :=
  ⟨by simp, brings.trades⟩

theorem of_closed (proper : r.Proper) (p : Platform) : p.Passes [r] (r.close p).2.2 [] := by
  refine ⟨by simp, ?_⟩
  rw [Region.mappings_singleton]
  exact (Region.close_trades proper p).1

/-- A region that is closed has no mapping any more. -/
theorem of_close (proper : r.Proper) (p : Platform) :
    p.Passes [r] (r.close p).2.2 [(r.close p).2.1] := by
  obtain ⟨trades, -, unmapped⟩ := Region.close_trades proper p
  refine ⟨by simpa using Region.close_proper proper p, ?_⟩
  rw [Region.mappings_singleton, Region.mappings_singleton, unmapped]
  exact trades

section

variable {κ α : Type} [DecidableEq κ] {t : Keyed κ α} {key : κ} {a a' : α} {f : α → List Region}

/-- What one value of a table passes on, its table does. -/
theorem modify (proper : ∀ r ∈ t.gather f, r.Proper) (found : t.find? key = some a)
    (passes : p.Passes (f a) p' (f a')) :
    p.Passes (t.gather f) p' ((t.modify key fun _ => a').gather f) := by
  have here := Keyed.gather_of_find? found f
  refine (passes.frame fun r member => ?_).perm here (Keyed.gather_modify found (fun _ => a') f)
  exact proper r (here.mem_iff.mpr (List.mem_append_right _ member))

theorem erase (proper : ∀ r ∈ t.gather f, r.Proper) (found : t.find? key = some a)
    (passes : p.Passes (f a) p' []) : p.Passes (t.gather f) p' ((t.erase key).gather f) := by
  have here := Keyed.gather_of_find? found f
  refine (passes.frame fun r member => ?_).perm here (.refl _)
  exact proper r (here.mem_iff.mpr (List.mem_append_right _ member))

theorem insert (proper : ∀ r ∈ t.gather f, r.Proper) (absent : t.find? key = none)
    (passes : p.Passes [] p' (f a)) : p.Passes (t.gather f) p' ((t.insert key a).gather f) := by
  rw [Keyed.gather_insert, Keyed.gather_of_none absent]
  exact passes.frame proper

end

end Platform.Passes

/-! ## Tables -/

namespace RegionTable

/-- The regions of a table. -/
def regions (t : RegionTable) : List Region := t.gather fun held => [held.region]

variable {t t' : RegionTable} {p p' : Platform} {key : Path.Key} {held : HeldRegion}
  {entry : Option HeldRegion}

theorem regions_erase_congr (differs : t.Differs key entry t') :
    (regions (t'.erase key)).Perm (regions (t.erase key)) := by
  refine (Keyed.perm_of_find?_eq fun other => ?_).flatMap_right _
  rw [Keyed.find?_erase, Keyed.find?_erase]
  split
  · rfl
  · rename_i different
    exact differs.elsewhere different

theorem regions_of_find? (found : t.find? key = some held) :
    t.regions.Perm (held.region :: regions (t.erase key)) := Keyed.gather_of_find? found _

theorem regions_of_none (absent : t.find? key = none) : regions (t.erase key) = t.regions :=
  Keyed.gather_of_none absent _

theorem mem_regions (found : t.find? key = some held) : held.region ∈ t.regions :=
  Keyed.mem_gather_iff.mpr ⟨key, held, found, List.mem_singleton_self _⟩

/-- The regions after a change, by the entry that differs. -/
theorem regions_differs (differs : t.Differs key entry t') :
    t'.regions.Perm ((entry.map (·.region)).toList ++ regions (t.erase key)) := by
  have others := regions_erase_congr differs
  have here := differs.here
  cases entry with
  | none =>
    rw [regions_of_none here] at others
    exact others
  | some held => exact (regions_of_find? here).trans (others.cons _)

/-- A table in which one region is replaced passes on what the region does. -/
theorem passes_of_handled {region : Region} {n : Nat} (proper : ∀ r ∈ t.regions, r.Proper)
    (found : t.find? key = some held) (differs : t.Differs key (some ⟨region, n⟩) t')
    (handled : held.region.Handled p region p') : p.Passes t.regions p' t'.regions := by
  have here := regions_of_find? found
  refine ((Platform.Passes.of_handled handled).frame fun r member => ?_).perm here
    (regions_differs differs)
  exact proper r (here.mem_iff.mpr (List.mem_cons_of_mem _ member))

end RegionTable

namespace Store

variable {s s' : Store} {t t' : RegionTable} {p p' : Platform}

/-- What a store does passes the regions of its table on. -/
structure Handled (t : RegionTable) (p : Platform) (t' : RegionTable) (p' : Platform) : Prop where
  passes : p.Passes t.regions p' t'.regions
  replaces : p.Replaces p'

theorem Handled.refl (proper : ∀ r ∈ t.regions, r.Proper) (p : Platform) : Handled t p t p :=
  ⟨.refl proper p, .refl p⟩

theorem open_handled {path : Path} {role : Role} {setup : RegionSetup}
    {result : Except ProviderError Store} (proper : ∀ r ∈ t.regions, r.Proper)
    (opened : Store.open path role setup t p = (result, t', p')) : Handled t p t' p' := by
  have correct := open_correct opened
  cases result with
  | error e =>
    obtain ⟨-, rfl, e', opening⟩ := correct
    have brings := Region.open_brings opening
    exact ⟨(Platform.Passes.of_unopened brings).frame proper, brings.replaces⟩
  | ok s =>
    obtain ⟨held, found, -, rfl, rfl⟩ | ⟨absent, r, opening, -, rfl⟩ := correct
    · have differs := t.differs_insert path.key { held with stores := held.stores + 1 }
      exact ⟨RegionTable.passes_of_handled proper found differs
        (.refl (proper _ (RegionTable.mem_regions found)) _), .refl _⟩
    · have brings := Region.open_brings opening
      refine ⟨((Platform.Passes.of_opened brings).frame proper).perm (.refl _) ?_, brings.replaces⟩
      have differs := RegionTable.regions_differs (t.differs_insert path.key ⟨r, 1⟩)
      rwa [RegionTable.regions_of_none absent] at differs

theorem FlushCorrect.handled {r : Region} {q : Platform} {result : Except ProviderError Unit}
    {outcome : Except RegionError Span} (correct : s.FlushCorrect r q result p' outcome)
    (proper : r.Proper) : r.Handled q r p' := by
  rw [FlushCorrect.eq_def] at correct
  cases outcome with
  | error e =>
    obtain ⟨rfl, _⟩ := correct
    exact .refl proper _
  | ok written =>
    cases role : s.role with
    | data =>
      simp only [role] at correct
      obtain ⟨rfl, _⟩ := correct
      exact .refl proper _
    | log =>
      simp only [role] at correct
      obtain ⟨flushed, flushing, _⟩ := correct
      have handled := Region.flush_handled proper ⟨s.medium, written⟩ q
      rwa [flushing] at handled

theorem write_handled {offset : Nat} {data : Bytes} {result : Except ProviderError Unit}
    (proper : ∀ r ∈ t.regions, r.Proper) (wrote : s.write offset data t p = (result, s', t', p')) :
    Handled t p t' p' := by
  have correct := write_correct wrote
  cases region : s.region? t with
  | none =>
    rw [region] at correct
    obtain ⟨-, -, rfl, rfl⟩ := correct
    exact .refl proper _
  | some r =>
    rw [region] at correct
    obtain ⟨outcome, r', q, writing, rfl, -, flushing⟩ := correct
    obtain ⟨-, n, found⟩ := region?_eq_some_iff.mp region
    have writes := Region.write_handled (proper r (RegionTable.mem_regions found)) writing
    have both := writes.trans (flushing.handled writes.proper)
    exact ⟨RegionTable.passes_of_handled proper found (RegionTable.differs_setRegion found r') both,
      both.replaces⟩

theorem sync_handled {result : Except ProviderError Unit} (proper : ∀ r ∈ t.regions, r.Proper)
    (synced : s.sync t p = (result, s', p')) : Handled t p t p' := by
  have correct := sync_correct synced
  cases region : s.region? t with
  | none =>
    rw [region] at correct
    obtain ⟨-, -, rfl⟩ := correct
    exact .refl proper _
  | some r =>
    rw [region] at correct
    obtain ⟨-, flushing⟩ := correct
    cases role : s.role with
    | log =>
      rw [role] at flushing
      obtain ⟨rfl, -⟩ := flushing
      exact .refl proper _
    | data =>
      rw [role] at flushing
      obtain ⟨flushed, flushing, -⟩ := flushing
      have trades := r.flush_trades ⟨s.medium, ⟨0, r.used⟩⟩ p (Region.mappings t.regions)
      have replaces := r.flush_replaces ⟨s.medium, ⟨0, r.used⟩⟩ p
      rw [flushing] at trades replaces
      exact ⟨⟨proper, trades⟩, replaces⟩

/-- The last store of a region gives its mapping up. -/
theorem close_passes {result : Except ProviderError Unit} (proper : ∀ r ∈ t.regions, r.Proper)
    (closed : s.close t p = (result, s', t', p')) : p.Passes t.regions p' t'.regions := by
  obtain ⟨-, correct⟩ := close_correct closed
  obtain ⟨-, rfl, rfl⟩ | ⟨held, -, found, ⟨-, rfl, rfl⟩ | ⟨-, rfl, rfl⟩⟩ := correct
  · exact .refl proper _
  · have differs := t.differs_insert s.path.key { held with stores := held.stores - 1 }
    exact RegionTable.passes_of_handled proper found differs
      (.refl (proper _ (RegionTable.mem_regions found)) _)
  · have here := RegionTable.regions_of_find? found
    have closes := Platform.Passes.of_closed (proper _ (RegionTable.mem_regions found)) p
    refine (closes.frame fun r member => ?_).perm here (.refl _)
    exact proper r (here.mem_iff.mpr (List.mem_cons_of_mem _ member))

end Store

/-! ## Shared indexes -/

namespace SharedIndex

/-- The region of an index, if it is allocated. -/
def regions (x : SharedIndex) : List Region := x.region?.toList

/-- What is asked of an index passes its region on. -/
structure Handled (x : SharedIndex) (p : Platform) (x' : SharedIndex) (p' : Platform) : Prop where
  passes : p.Passes x.regions p' x'.regions
  replaces : p.Replaces p'

variable {x x' : SharedIndex} {p p' : Platform} {r : Region} {slot : Slot} {index slotSize : Nat}
  {extend : Bool} {result : Except ProviderError (Option Slot)}

theorem Handled.refl (proper : ∀ r ∈ x.regions, r.Proper) (p : Platform) : x.Handled p x p :=
  ⟨.refl proper p, .refl p⟩

theorem regions_of_region? (found : x.region? = some r) : x.regions = [r] := by
  rw [regions, found, Option.toList_some]

theorem regions_of_none (absent : x.region? = none) : x.regions = [] := by
  rw [regions, absent, Option.toList_none]

theorem MappedIn.handled (mapped : x.MappedIn r slot p result x' p') (proper : r.Proper) :
    ∃ r', x'.region? = some r' ∧ r.Handled p r' p' := by
  cases mapped with
  | covered _ => exact ⟨_, rfl, Region.countUsed_handled proper _ p⟩
  | absent _ => exact ⟨r, rfl, .refl proper p⟩
  | failed _ reserving => exact ⟨_, rfl, Region.reserve_handled proper reserving⟩
  | grown _ reserving =>
    have handled := Region.reserve_handled proper reserving
    exact ⟨_, rfl, handled.trans (Region.countUsed_handled handled.proper _ _)⟩

theorem requestSlot_handled (proper : ∀ r ∈ x.regions, r.Proper)
    (requested : x.requestSlot index slotSize extend p = (result, x', p')) : x.Handled p x' p' := by
  cases requestSlot_answered requested with
  | refused _ => exact .refl proper _
  | unopened absent _ opening =>
    have brings := Region.open_brings opening
    rw [regions_of_none absent] at proper
    refine ⟨?_, brings.replaces⟩
    rw [regions_of_none absent]
    exact .of_unopened brings
  | mapped state _ mapped =>
    have found := region?_of_state state
    rw [regions_of_region? found] at proper
    obtain ⟨r', later, handled⟩ := mapped.handled (proper _ (List.mem_singleton_self _))
    refine ⟨?_, handled.replaces⟩
    rw [regions_of_region? found, regions_of_region? later]
    exact .of_handled handled
  | opened absent _ _ _ _ opening mapped =>
    have brings := Region.open_brings opening
    obtain ⟨r', later, handled⟩ := mapped.handled (brings.proper _ rfl).1
    refine ⟨?_, brings.replaces.trans handled.replaces⟩
    rw [regions_of_none absent, regions_of_region? later]
    exact (Platform.Passes.of_opened brings).trans (.of_handled handled)

theorem barrier_handled (proper : ∀ r ∈ x.regions, r.Proper) (p : Platform) :
    x.Handled p x (x.barrier p).2 := by
  unfold barrier
  split
  · exact .refl proper p
  · rename_i r _
    have trades := r.flush_trades ⟨r.medium, ⟨0, r.capacity⟩⟩ p (Region.mappings x.regions)
    have replaces := r.flush_replaces ⟨r.medium, ⟨0, r.capacity⟩⟩ p
    unfold Region.flushWhole
    split <;> rename_i flushed <;> rw [flushed] at trades replaces <;>
      exact ⟨⟨proper, trades⟩, replaces⟩

theorem deleteFile_same (x : SharedIndex) (p : Platform) :
    (x.deleteFile p).2.live = p.live ∧ (x.deleteFile p).2.calls = p.calls := by
  unfold deleteFile
  split
  · exact ⟨rfl, rfl⟩
  · split <;> exact ⟨rfl, rfl⟩

/-- Unmapping gives the mapping of an index up, whatever fails. -/
theorem unmap_passes (proper : ∀ r ∈ x.regions, r.Proper) (delete : Bool) (p : Platform) :
    p.Passes x.regions (x.unmap delete p).2.2 [] := by
  cases state : x.state with
  | unallocated | unmapped =>
    have absent : x.region? = none := by rw [region?, state]
    rw [unmap_of_none absent, regions_of_none absent]
    exact .refl (by simp) p
  | allocated r size =>
    have found := region?_of_state state
    rw [regions_of_region? found] at proper ⊢
    have closes := Platform.Passes.of_closed (proper r (List.mem_singleton_self _)) p
    have removed := deleteFile_same { x with state := .unmapped } (r.close p).2.2
    simp only [unmap, state]
    cases delete with
    | false => exact closes
    | true =>
      rw [if_pos rfl]
      split <;> rename_i outcome <;> rw [outcome] at removed <;>
        exact closes.trans (.of_same (by simp) removed.1 removed.2)

end SharedIndex
end MappedStorage
