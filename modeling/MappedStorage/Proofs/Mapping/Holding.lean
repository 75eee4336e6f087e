import MappedStorage.Proofs.Mapping.GrowingArray
import MappedStorage.Proofs.Mapping.Ledger

/-!
The mapping of a region. A region holds one mapping or none, and none once it is closed
(`Region.Proper`). What is done through it trades the mapping for the one that it has afterwards
(`Region.Handled`), opening brings one at most (`open_trades`), and closing gives it up whatever
fails (`close_trades`).
-/

namespace MappedStorage.Region

/-- A region whose mapping shows its file, and which has none once it is closed. -/
structure Proper (r : Region) : Prop where
  shows : ∀ m ∈ r.mapped, m.file = r.fileId
  unmapped : r.closed = true → r.mapped = none

/-- What is done through a region: its mapping is traded for the one that it has then. -/
structure Handled (r : Region) (p : Platform) (r' : Region) (p' : Platform) : Prop where
  proper : r'.Proper
  trades : p.Trades r.mapped.toList p' r'.mapped.toList
  replaces : p.Replaces p'

variable {r r' r'' : Region} {p p' p'' : Platform}

theorem Proper.of_same (proper : r.Proper) (mapped : r'.mapped = r.mapped) (file : r'.fileId = r.fileId)
    (closed : r'.closed = r.closed) : r'.Proper :=
  ⟨by rw [mapped, file]; exact proper.shows, by rw [mapped, closed]; exact proper.unmapped⟩

theorem Handled.refl (proper : r.Proper) (p : Platform) : r.Handled p r p :=
  ⟨proper, .refl p _, .refl p⟩

theorem Handled.trans (first : r.Handled p r' p') (second : r'.Handled p' r'' p'') :
    r.Handled p r'' p'' :=
  ⟨second.proper, first.trades.trans second.trades, first.replaces.trans second.replaces⟩

/-- Nothing is traded where neither the mapping nor a call changes. -/
theorem Handled.of_same (proper : r'.Proper) (mapped : r'.mapped = r.mapped) (live : p'.live = p.live)
    (calls : p'.calls = p.calls) : r.Handled p r' p' :=
  ⟨proper, by rw [mapped]; exact .of_same live calls _, .of_same calls⟩

/-! ## Growing -/

theorem remap_handled {capacity : Nat} {result : Except RegionError Unit} (proper : r.Proper)
    (larger : ∀ m ∈ r.mapped, m.len < capacity) (isOpen : r.closed = false)
    (remapped : r.remap capacity p = (result, r', p')) : r.Handled p r' p' := by
  obtain ⟨grown, -⟩ := remap_correct proper.shows remapped
  have still_proper : r'.Proper := by
    refine ⟨by rw [grown.same.fileId_eq]; exact grown.shows, fun closed => ?_⟩
    rw [grown.same.closed, isOpen] at closed
    cases closed
  cases remap_cases remapped with
  | short => exact .of_same still_proper rfl rfl rfl
  | @refused e file files _ _ mapping =>
    have grants := r.setup.mapper.map_grants file.handle capacity { p with files }
    rw [mapping] at grants
    exact ⟨still_proper, (grants.trades.frame _).of_files, grants.replaces⟩
  | @granted n medium file files q growth mapping =>
    have same := r.file.growTo_sameFile capacity p.files
    have grants := r.setup.mapper.map_grants file.handle capacity { p with files }
    have fits := (r.setup.mapper.map_requested file.handle capacity { p with files }).fits
    rw [growth] at same
    rw [mapping] at grants fits
    obtain ⟨n_file, n_len⟩ := fits n rfl
    cases old : r.mapped with
    | none => exact ⟨still_proper, by rw [old]; exact grants.trades.of_files, grants.replaces⟩
    | some m =>
      have file : n.file = m.file := by
        rw [n_file, proper.shows m old]
        exact congrArg Handle.file same.handle
      have longer : m.len < n.len := by
        rw [n_len]
        exact larger m old
      obtain ⟨exchanged, replaces⟩ := grants.exchange file longer
      exact ⟨still_proper, by rw [old]; exact exchanged.of_files, replaces⟩

theorem reserve_handled {least : Nat} {result : Except RegionError Unit} (proper : r.Proper)
    (reserved : r.reserve least p = (result, r', p')) : r.Handled p r' p' := by
  have larger {g : Enlargement} (growth : r.setup.growth.grow r.capacity least = .ok (some g))
      (m : Mapping) (mapped : m ∈ r.mapped) : m.len < g.capacity := by
    obtain ⟨short, covers, -⟩ := GrowthRule.grow_reaches growth
    rw [← capacity_eq_of_mapped mapped]
    omega
  cases reserve_cases reserved with
  | closed | covered | excessive => exact .refl proper _
  | refused isOpen growth remapped => exact remap_handled proper (larger growth) isOpen remapped
  | enlarged isOpen growth remapped =>
    have handled := remap_handled proper (larger growth) isOpen remapped
    exact ⟨handled.proper.of_same rfl rfl rfl, handled.trades, handled.replaces⟩

/-! ## Bytes -/

theorem put_handled (proper : r.Proper) (offset : Nat) (data : Bytes) (p : Platform) :
    r.Handled p (r.put offset data p).1 (r.put offset data p).2 := by
  have live := r.put_live offset data p
  have calls := r.put_calls offset data p
  rw [put_region]
  exact .of_same (proper.of_same rfl rfl rfl) rfl live calls

theorem write_handled {offset : Nat} {data : Bytes} {result : Except RegionError Span} (proper : r.Proper)
    (wrote : r.write offset data p = (result, r', p')) : r.Handled p r' p' := by
  cases write_cases wrote with
  | closed | beyond | empty => exact .refl proper _
  | refused reserved => exact reserve_handled proper reserved
  | @stored s q _ reserved =>
    have handled := reserve_handled proper reserved
    have stored := put_handled handled.proper offset data q
    rw [put_region] at stored
    exact handled.trans stored

theorem countUsed_handled (proper : r.Proper) (len : Nat) (p : Platform) :
    r.Handled p (r.countUsed len) p :=
  .of_same (proper.of_same rfl rfl rfl) rfl rfl rfl

theorem flush_trades (r : Region) (f : Flush) (p : Platform) (ms : List Mapping) :
    p.Trades ms (r.flush f p).2 ms := by
  unfold Region.flush
  split
  · exact .refl p ms
  · rename_i m _
    have trades := r.setup.mapper.flush_trades m (r.clip f.span).start
      ((r.clip f.span).stop - (r.clip f.span).start) f.medium p ms
    dsimp only
    split <;> rename_i flushed <;> rw [flushed] at trades <;> exact trades

theorem flush_replaces (r : Region) (f : Flush) (p : Platform) : p.Replaces (r.flush f p).2 := by
  unfold Region.flush
  split
  · exact .refl p
  · rename_i m _
    have replaces := r.setup.mapper.flush_replaces m (r.clip f.span).start
      ((r.clip f.span).stop - (r.clip f.span).start) f.medium p
    dsimp only
    split <;> rename_i flushed <;> rw [flushed] at replaces <;> exact replaces

theorem flush_handled (proper : r.Proper) (f : Flush) (p : Platform) : r.Handled p r (r.flush f p).2 :=
  ⟨proper, r.flush_trades f p _, r.flush_replaces f p⟩

/-- Whatever is asked of a region trades its mapping. -/
theorem serve_handled (proper : r.Proper) (request : RegionRequest) :
    r.Handled p (r.serve p request).2.1 (r.serve p request).2.2 := by
  cases request with
  | write offset data => exact write_handled proper rfl
  | read offset buffer => exact .refl proper p
  | reserve least => exact reserve_handled proper rfl
  | flush f => exact flush_handled proper f p
  | flushWhole => exact flush_handled proper _ p

/-! ## Beginning and end -/

theorem trim_same (r : Region) (p : Platform) :
    (r.trim p).2.2.live = p.live ∧ (r.trim p).2.2.calls = p.calls ∧
      (r.trim p).2.1.mapped = r.mapped ∧ (r.trim p).2.1.closed = r.closed := by
  unfold trim
  split
  · split <;> exact ⟨rfl, rfl, rfl, rfl⟩
  · exact ⟨rfl, rfl, rfl, rfl⟩

theorem detach_trades (r : Region) (p : Platform) :
    p.Trades r.mapped.toList (r.detach p).2.2 [] ∧
      (r.detach p).2.1 = { r with mapped := none } := by
  unfold detach
  split
  · rename_i mapped
    rw [← mapped]
    exact ⟨by rw [mapped]; exact .refl p [], rfl⟩
  · rename_i m mapped
    have trades := Mapper.unmap_trades m p
    rw [mapped]
    split <;> rename_i unmapped <;> rw [unmapped] at trades <;> exact ⟨trades, rfl⟩

/-- Closing gives the mapping up, whichever call fails. -/
theorem close_trades (proper : r.Proper) (p : Platform) :
    p.Trades r.mapped.toList (r.close p).2.2 [] ∧ (r.close p).2.1.closed = true ∧
      (r.close p).2.1.mapped = none := by
  unfold close
  by_cases closed : r.closed = true
  · have unmapped := proper.unmapped closed
    rw [if_pos closed]
    exact ⟨by rw [unmapped]; exact .refl p [], closed, unmapped⟩
  · rw [if_neg closed]
    obtain ⟨trades, detached⟩ := detach_trades { r with closed := true } p
    rcases detaching : ({ r with closed := true } : Region).detach p with ⟨outcome, s, q⟩
    rw [detaching] at trades detached
    obtain ⟨live, calls, mapped, closed⟩ := trim_same s q
    dsimp only at detached
    rw [detached] at mapped closed live calls
    have given_up : p.Trades r.mapped.toList (s.trim q).2.2 [] := by
      rw [detached]
      exact trades.trans (.of_same live calls [])
    dsimp only
    rw [detached] at given_up ⊢
    cases outcome <;> exact ⟨given_up, closed, mapped⟩

/-- Nothing is released where nothing is mapped. -/
theorem close_of_unmapped (unmapped : r.mapped = none) (p : Platform) :
    (r.close p).2.2.calls = p.calls := by
  unfold close
  split
  · rfl
  · have detached : ({ r with closed := true } : Region).detach p =
        (.ok (), { r with closed := true }, p) := by simp only [detach, unmapped]
    rw [detached]
    exact (trim_same _ p).2.1

theorem close_proper (proper : r.Proper) (p : Platform) : (r.close p).2.1.Proper := by
  obtain ⟨-, -, mapped⟩ := close_trades proper p
  exact ⟨by simp [mapped], fun _ => mapped⟩

/-- What opening a region brings: its mapping, or nothing if it fails. -/
structure Brings (p : Platform) (result : Except RegionError Region) (p' : Platform) : Prop where
  trades : p.Trades [] p' (result.toOption.bind (·.mapped)).toList
  replaces : p.Replaces p'
  proper : ∀ r, result = .ok r → r.Proper ∧ r.closed = false

theorem Brings.nothing {e : RegionError} (live : p'.live = p.live) (calls : p'.calls = p.calls) :
    Brings p (.error e) p' :=
  ⟨.of_same live calls [], .of_same calls, fun _ opened => by cases opened⟩

theorem ofTrackedFile_brings (f : TrackedFile) (setup : RegionSetup) (p : Platform) :
    Brings p (ofTrackedFile f setup p).1 (ofTrackedFile f setup p).2 := by
  unfold ofTrackedFile
  cases sizes : initialSizes setup f.len with
  | error e => exact .nothing rfl rfl
  | ok both =>
    obtain ⟨capacity, used⟩ := both
    obtain ⟨rfl, -⟩ := initialSizes_eq_ok sizes
    dsimp only
    have proper : (unmappedOver f setup).Proper := ⟨by simp [unmappedOver], fun _ => rfl⟩
    by_cases nothing : capacity = 0
    · rw [if_pos nothing]
      refine ⟨.refl p [], .refl p, ?_⟩
      rintro r ⟨⟩
      exact ⟨proper, rfl⟩
    · rw [if_neg nothing]
      rcases remapping : (unmappedOver f setup).remap capacity p with ⟨remapped, r, q⟩
      have handled := remap_handled proper (by simp [unmappedOver]) rfl remapping
      obtain ⟨grown, correct⟩ := remap_correct proper.shows remapping
      unfold unmappedOver at remapping
      rw [remapping]
      cases remapped with
      | ok =>
        refine ⟨handled.trades, handled.replaces, ?_⟩
        rintro r ⟨⟩
        exact ⟨handled.proper, grown.same.closed⟩
      | error e =>
        have mapped : r.mapped = none := correct.1
        obtain ⟨closing, -⟩ := close_trades handled.proper q
        exact ⟨handled.trades.trans closing,
          handled.replaces.trans (.of_same (close_of_unmapped mapped q)),
          fun _ opened => by cases opened⟩

/-- Whether or not a region can be opened, it brings no mapping but its own. -/
theorem open_brings {path : Path} {setup : RegionSetup} {result : Except RegionError Region}
    (opened : Region.open path setup p = (result, p')) : Brings p result p' := by
  unfold Region.open at opened
  rcases opening : TrackedFile.openOrCreate p.files path with ⟨_ | f, files⟩ <;>
    rw [opening] at opened
  · cases opened
    exact .nothing rfl rfl
  · have brings := ofTrackedFile_brings f setup { p with files }
    dsimp only at opened
    rw [opened] at brings
    exact ⟨brings.trades.of_files, brings.replaces, brings.proper⟩

end MappedStorage.Region
