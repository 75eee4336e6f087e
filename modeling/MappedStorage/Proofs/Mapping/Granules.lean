import MappedStorage.Proofs.Mapping.Holding

/-!
Regions reach to the end of a granule. A region is opened with whole granules, whatever the length of its
file (`open_granular`), and grows by whole granules or not at all (`reserve_granular`).
-/

namespace MappedStorage.Region

/-- An open region that reaches to the end of a granule. -/
structure Granular (r : Region) : Prop where
  isOpen : r.closed = false
  used_le : r.used ≤ r.capacity
  addressable : r.capacity ≤ Word.addressable
  whole : r.capacity % r.setup.growth.granule = 0

variable {r r' : Region} {p p' : Platform}

theorem initialSizes_mod_granule {setup : RegionSetup} {len capacity used : Nat}
    (sizes : initialSizes setup len = .ok (capacity, used)) : capacity % setup.growth.granule = 0 := by
  have align {n m : Nat} (aligned : (setup.growth.align n).map (·, m) = .ok (capacity, used)) :
      capacity % setup.growth.granule = 0 := by
    cases found : setup.growth.align n with
    | error e =>
      rw [found] at aligned
      cases aligned
    | ok rounded =>
      rw [found] at aligned
      cases aligned
      exact GrowthRule.align_mod_granule found
  unfold initialSizes at sizes
  split at sizes
  · exact align sizes
  · exact align sizes

theorem ofTrackedFile_whole {f : TrackedFile} {setup : RegionSetup}
    (opened : ofTrackedFile f setup p = (.ok r, p')) : r.capacity % setup.growth.granule = 0 := by
  obtain ⟨capacity, -, -, sizes, ⟨rfl, rfl, -⟩ | remapped⟩ := ofTrackedFile_eq_ok opened
  · exact Nat.zero_mod _
  · obtain ⟨-, m, mapped, len, -⟩ := remap_correct (by simp [unmappedOver]) remapped
    rw [capacity_eq_of_mapped mapped, len]
    exact initialSizes_mod_granule sizes

theorem open_granular {path : Path} {setup : RegionSetup}
    (opened : Region.open path setup p = (.ok r, p')) : r.Granular ∧ r.setup = setup := by
  obtain ⟨-, at_path⟩ := open_correct opened
  have sound := at_path.sound
  refine ⟨⟨sound.isOpen, sound.used_le, sound.addressable, ?_⟩, at_path.setup_eq⟩
  rw [at_path.setup_eq]
  unfold Region.open at opened
  rcases opening : TrackedFile.openOrCreate p.files path with ⟨_ | f, files⟩ <;>
    rw [opening] at opened
  · cases opened
  · exact ofTrackedFile_whole opened

/-- What a request for capacity leaves of a region in granules. -/
structure Reserved (r : Region) (least : Nat) (r' : Region) (result : Except RegionError Unit) :
    Prop extends r'.Granular where
  setup_eq : r'.setup = r.setup
  used_eq : r'.used = r.used
  larger : r.capacity ≤ r'.capacity
  covers : result = .ok () → least ≤ r'.capacity

theorem Reserved.refl {least : Nat} {result : Except RegionError Unit} (granular : r.Granular)
    (covers : result = .ok () → least ≤ r.capacity) : r.Reserved least r result :=
  ⟨granular, rfl, rfl, Nat.le_refl _, covers⟩

theorem reserve_granular {least : Nat} {result : Except RegionError Unit} (proper : r.Proper)
    (granular : r.Granular) (reserved : r.reserve least p = (result, r', p')) :
    r.Reserved least r' result := by
  have used_le := granular.used_le
  cases reserve_cases reserved with
  | closed shut => cases granular.isOpen.symm.trans shut
  | covered enough => exact .refl granular fun _ => enough
  | excessive => exact .refl granular fun granted => by cases granted
  | refused _ _ remapped =>
    obtain ⟨grown, mapped, -⟩ := remap_correct proper.shows remapped
    have capacity : r'.capacity = r.capacity := by rw [Region.capacity, Region.capacity, mapped]
    refine ⟨⟨grown.same.closed.trans granular.isOpen, ?_, ?_, ?_⟩, grown.same.setup, grown.used,
      Nat.le_of_eq capacity.symm, fun granted => by cases granted⟩
    · rw [grown.used, capacity]
      exact used_le
    · rw [capacity]
      exact granular.addressable
    · rw [capacity, grown.same.setup]
      exact granular.whole
  | @enlarged g s _ _ growth remapped =>
    obtain ⟨short, covers, addressable⟩ := GrowthRule.grow_reaches growth
    have whole := GrowthRule.grow_mod_granule growth
    obtain ⟨grown, m, mapped, len, -⟩ := remap_correct proper.shows remapped
    have capacity : ({ s with remaps := s.remaps + 1 } : Region).capacity = g.capacity :=
      (capacity_eq_of_mapped mapped).trans len
    refine ⟨⟨grown.same.closed.trans granular.isOpen, ?_, ?_, ?_⟩, grown.same.setup, grown.used, ?_,
      fun _ => ?_⟩ <;> rw [capacity]
    · show s.used ≤ g.capacity
      rw [grown.used]
      omega
    · exact addressable
    · show g.capacity % s.setup.growth.granule = 0
      rw [grown.same.setup]
      exact whole
    · omega
    · exact covers

theorem countUsed_granular (granular : r.Granular) (len : Nat) : (r.countUsed len).Granular :=
  ⟨granular.isOpen, Nat.max_le.mpr ⟨granular.used_le, Nat.min_le_right ..⟩, granular.addressable,
    granular.whole⟩

end MappedStorage.Region
