import MappedStorage.Proofs.Mapping.Lifetime

/-!
The medium of a region is that of the mapping in place (`Region.Labelled`), which a mapper tells by how
it asks for mappings (`Mapper.mediumOf`). It may change with each growth, unless the mapper never asks
for synchronous mappings. A flush uses whichever medium it is given (`Region.flush_flushes`).
-/

namespace MappedStorage

namespace Platform

/-- The calls made from one platform to another, of which the flushes have one medium and are on the
mapping in place. -/
def FlushesOn (medium : Medium) (mapped : Option Mapping) (p p' : Platform) : Prop :=
  ∃ made, p'.calls = made ++ p.calls ∧ ∀ used m offset len failure,
    Call.flush used m offset len failure ∈ made → used = medium ∧ mapped = some m

variable {p q p' : Platform} {medium : Medium} {mapped : Option Mapping}

theorem NoFlush.flushesOn (quiet : p.NoFlush p') : p.FlushesOn medium mapped p' := by
  obtain ⟨made, calls, others⟩ := quiet
  refine ⟨made, calls, fun used m offset len failure member => ?_⟩
  cases others _ member

theorem FlushesOn.trans (first : p.FlushesOn medium mapped q) (second : q.FlushesOn medium mapped p') :
    p.FlushesOn medium mapped p' := by
  obtain ⟨early, early_eq, early_on⟩ := first
  obtain ⟨late, late_eq, late_on⟩ := second
  refine ⟨late ++ early, by rw [late_eq, early_eq, List.append_assoc], ?_⟩
  intro used m offset len failure member
  rcases List.mem_append.mp member with h | h
  · exact late_on _ _ _ _ _ h
  · exact early_on _ _ _ _ _ h

theorem map_sharing {h : Handle} {len : Nat} {sharing : Sharing} {m : Mapping}
    (mapped : p.map h len sharing = (.ok m, p')) : m.sharing = sharing := by
  rw [Platform.map] at mapped
  split at mapped
  dsimp only at mapped
  split at mapped <;> cases mapped
  rfl

end Platform

namespace Mapper

/-- The mapper finds the medium out by asking for a synchronous mapping. -/
def Detects (m : Mapper) : Prop := m.detection = .automatic ∧ m.offersSynchronous = true

instance (m : Mapper) : Decidable m.Detects := inferInstanceAs (Decidable (_ ∧ _))

/-- The medium of a mapping. -/
def mediumOf (m : Mapper) (mapping : Mapping) : Medium :=
  if m.Detects ∧ mapping.sharing = .synchronous then .persistent else m.plainMedium

variable {m : Mapper} {h : Handle} {len : Nat} {mapping : Mapping} {medium : Medium} {p p' : Platform}

theorem attempt_sharing {sharing : Sharing} (attempted : attempt h len sharing p = (.ok mapping, p')) :
    mapping.sharing = sharing := by
  rw [attempt] at attempted
  split at attempted <;> rename_i mapped <;> cases attempted
  exact Platform.map_sharing mapped

theorem mapPlain_medium (mapped : m.mapPlain h len p = (.ok (mapping, medium), p')) :
    medium = m.mediumOf mapping := by
  rw [mapPlain] at mapped
  split at mapped <;> rename_i attempted <;> cases mapped
  have plain := attempt_sharing attempted
  rw [mediumOf, if_neg (by simp [plain])]

theorem map_medium (mapped : m.map h len p = (.ok (mapping, medium), p')) :
    medium = m.mediumOf mapping := by
  rw [map] at mapped
  split at mapped
  · cases mapped
  · split at mapped
    · rename_i detects
      split at mapped <;> rename_i attempted
      · cases mapped
        rw [mediumOf, if_pos ⟨detects, attempt_sharing attempted⟩]
      · split at mapped
        · exact mapPlain_medium mapped
        · cases mapped
    · exact mapPlain_medium mapped

theorem mediumOf_of_not_detects (fixed : ¬ m.Detects) (mapping : Mapping) :
    m.mediumOf mapping = m.plainMedium := by
  rw [mediumOf, if_neg fun both => fixed both.1]

end Mapper

namespace Region

/-- The medium of the region is that of the mapping in place, or the one assumed as long as there is
none. -/
def Labelled (r : Region) : Prop :=
  r.medium = match r.mapped with
    | some m => r.setup.mapper.mediumOf m
    | none => assumedMedium r.setup

variable {r r' : Region}

/-- The medium of a region does not change where it is not found out by mapping. -/
theorem Labelled.of_not_detects (labelled : r.Labelled) (fixed : ¬ r.setup.mapper.Detects) :
    r.medium = assumedMedium r.setup := by
  rw [labelled]
  split
  · exact Mapper.mediumOf_of_not_detects fixed _
  · rfl

theorem remap_labelled {capacity : Nat} {p p' : Platform} {result : Except RegionError Unit}
    (labelled : r.Labelled) (remapped : r.remap capacity p = (result, r', p')) :
    r'.Labelled ∧ r'.setup = r.setup := by
  cases remap_cases remapped with
  | short | refused => exact ⟨labelled, rfl⟩
  | granted _ mapping => exact ⟨Mapper.map_medium mapping, rfl⟩

theorem reserve_labelled {least : Nat} {p p' : Platform} {result : Except RegionError Unit}
    (labelled : r.Labelled) (reserved : r.reserve least p = (result, r', p')) :
    r'.Labelled ∧ r'.setup = r.setup := by
  cases reserve_cases reserved with
  | closed | covered | excessive => exact ⟨labelled, rfl⟩
  | refused _ _ remapped => exact remap_labelled labelled remapped
  | enlarged _ _ remapped =>
    obtain ⟨still, setup⟩ := remap_labelled labelled remapped
    exact ⟨still, setup⟩

/-- A region stays labelled when it is written to, however it grows. -/
theorem write_labelled (labelled : r.Labelled) (offset : Nat) (data : Bytes) (p : Platform) :
    (r.write offset data p).2.1.Labelled ∧ (r.write offset data p).2.1.setup = r.setup := by
  rcases wrote : r.write offset data p with ⟨result, r', p'⟩
  cases write_cases wrote with
  | closed | beyond | empty => exact ⟨labelled, rfl⟩
  | refused reserved => exact reserve_labelled labelled reserved
  | stored _ reserved =>
    obtain ⟨still, setup⟩ := reserve_labelled labelled reserved
    exact ⟨still, setup⟩

theorem open_labelled {path : Path} {setup : RegionSetup} {p p' : Platform}
    (opened : Region.open path setup p = (.ok r, p')) : r.Labelled ∧ r.setup = setup := by
  rw [Region.open] at opened
  split at opened
  · cases opened
  · rename_i file files _
    obtain ⟨capacity, -, -, -, ⟨-, rfl, -⟩ | remapped⟩ := ofTrackedFile_eq_ok opened
    · exact ⟨rfl, rfl⟩
    · have labelled : (unmappedOver file setup).Labelled := rfl
      exact remap_labelled labelled remapped

/-- A flush is made with the medium that is asked for, on the mapping in place. -/
theorem flush_flushes (r : Region) (f : Flush) (p : Platform) :
    p.FlushesOn f.medium r.mapped (r.flush f p).2 := by
  obtain ⟨_, flushed⟩ | ⟨m, first, count, failure, p', mapped, _, _, call, flushed⟩ := r.flush_cases f p
  · rw [flushed]
    exact (Platform.NoFlush.refl p).flushesOn
  · have calls := p.flush_calls f.medium m first count
    rw [call] at calls
    rw [flushed]
    refine ⟨[_], calls, fun used m' offset len failure' member => ?_⟩
    cases List.mem_singleton.mp member
    exact ⟨rfl, mapped⟩

end Region
end MappedStorage
