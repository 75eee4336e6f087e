import MappedStorage.Proofs.Mapping.Extent
import MappedStorage.Provider.OpenFile

/-!
The regions that are open at a time, those of stores and those of shared indexes. They fit their files
(`OpenRegions.Fits`) as long as the file of a store has no other region. What is done to regions that
are open keeps this, and leaves no region smaller (`OpenRegions.Goes`); so does opening one over a file
that no other uses (`OpenRegions.Steps`).
-/

namespace MappedStorage

/-- Where a region is open: for the stores of a path, or for the index of a file. -/
inductive Site where
  | store (key : Path.Key)
  | index (name : String)
  deriving DecidableEq

/-- The regions that are open, and the platform under them. -/
structure OpenRegions where
  region? : Site → Option Region
  platform : Platform

namespace OpenRegions

/-- Another region at a site, or none. -/
def put (o : OpenRegions) (site : Site) (r : Option Region) (p : Platform) : OpenRegions :=
  ⟨fun other => if other = site then r else o.region? other, p⟩

/-- Each region ends within its file, and the file of a store is that of no other region. -/
structure Fits (o : OpenRegions) : Prop where
  tidy : o.platform.files.Tidy
  made : ∀ site r, o.region? site = some r → r.fileId < o.platform.files.nextFile
  sound : ∀ site r, o.region? site = some r → r.Sound o.platform
  apart : ∀ key site r r', o.region? (.store key) = some r → o.region? site = some r' →
    site ≠ .store key → r'.fileId ≠ r.fileId
  /-- Only stores cut their files. -/
  untrimmed : ∀ name r, o.region? (.index name) = some r → r.setup.trimOnClose = false

/-- Regions that fit still do, and those that are open were open before and are no smaller. -/
def Goes (o o' : OpenRegions) : Prop :=
  o.Fits → o'.Fits ∧
    ∀ site r', o'.region? site = some r' → ∃ r, o.region? site = some r ∧ r.Later r'

/-- Regions fit, and those that were open before, and are still, are no smaller. -/
structure Steps (o o' : OpenRegions) : Prop where
  fits : o'.Fits
  later : ∀ site r r', o.region? site = some r → o'.region? site = some r' → r.Later r'

variable {o o' o'' : OpenRegions} {site other : Site} {key : Path.Key} {name : String} {r r' : Region}
  {p p' : Platform}

theorem put_cases {s : Option Region} (found : (o.put site s p).region? other = some r) :
    other = site ∧ s = some r ∨ other ≠ site ∧ o.region? other = some r := by
  simp only [put] at found
  split at found
  · rename_i here
    exact .inl ⟨here, found⟩
  · rename_i different
    exact .inr ⟨different, found⟩

theorem Goes.refl (o : OpenRegions) : o.Goes o :=
  fun fits => ⟨fits, fun _ r found => ⟨r, found, .refl r⟩⟩

theorem Goes.trans (first : o.Goes o') (second : o'.Goes o'') : o.Goes o'' := by
  intro fits
  obtain ⟨fits', before'⟩ := first fits
  obtain ⟨fits'', before''⟩ := second fits'
  refine ⟨fits'', ?_⟩
  intro site r'' found''
  obtain ⟨r', found', later'⟩ := before'' site r'' found''
  obtain ⟨r, found, later⟩ := before' site r' found'
  exact ⟨r, found, later.trans later'⟩

theorem Goes.steps (goes : o.Goes o') (fits : o.Fits) : o.Steps o' := by
  obtain ⟨fits', before⟩ := goes fits
  refine ⟨fits', ?_⟩
  intro site r r' found found'
  obtain ⟨s, there, later⟩ := before site r' found'
  rw [found] at there
  cases there
  exact later

theorem Steps.goes (steps : o.Steps o') (goes : o'.Goes o'') : o.Steps o'' := by
  obtain ⟨fits, before⟩ := goes steps.fits
  refine ⟨fits, ?_⟩
  intro site r r'' found found''
  obtain ⟨r', found', later⟩ := before site r'' found''
  exact (steps.later site r r' found found').trans later

/-! ## What is done to regions that are open -/

/-- Files that get longer leave the regions as they are. -/
theorem goes_files (longer : o.Fits → o.platform.files.Lengthens p.files) :
    o.Goes ⟨o.region?, p⟩ := by
  intro fits
  have longer := longer fits
  refine ⟨⟨longer.tidy fits.tidy, ?_, ?_, fits.apart, fits.untrimmed⟩,
    fun _ r found => ⟨r, found, .refl r⟩⟩
  · intro site r found
    exact Nat.lt_of_lt_of_le (fits.made site r found) longer.next
  · intro site r found
    exact (fits.sound site r found).of_lengthens (fits.made site r found) longer

/-- One region may grow. -/
theorem goes_put (found : o.region? site = some r)
    (advanced : r.Sound o.platform → r.Advanced o.platform r' p) :
    o.Goes (o.put site (some r') p) := by
  intro fits
  have advanced := advanced (fits.sound site r found)
  have longer := advanced.longer
  have file := advanced.same.fileId_eq
  have before {other : Site} {s : Region} (there : (o.put site (some r') p).region? other = some s) :
      ∃ s₀, o.region? other = some s₀ ∧ s₀.Later s := by
    obtain ⟨rfl, same⟩ | ⟨_, there⟩ := put_cases there
    · cases same
      exact ⟨r, found, advanced.toLater⟩
    · exact ⟨s, there, .refl s⟩
  refine ⟨⟨longer.tidy fits.tidy, ?_, ?_, ?_, ?_⟩, fun other s there => before there⟩
  · intro other s there
    obtain ⟨s₀, there₀, later⟩ := before there
    rw [later.same.fileId_eq]
    exact Nat.lt_of_lt_of_le (fits.made other s₀ there₀) longer.next
  · intro other s there
    obtain ⟨rfl, same⟩ | ⟨_, there⟩ := put_cases there
    · cases same
      exact advanced.sound
    · exact (fits.sound other s there).of_lengthens (fits.made other s there) longer
  · intro key other s s' there there' different
    obtain ⟨s₀, there₀, later⟩ := before there
    obtain ⟨s₀', there₀', later'⟩ := before there'
    rw [later.same.fileId_eq, later'.same.fileId_eq]
    exact fits.apart key other s₀ s₀' there₀ there₀' different
  · intro name s there
    obtain ⟨s₀, there₀, later⟩ := before there
    rw [later.same.setup]
    exact fits.untrimmed name s₀ there₀

/-- A region that is gone leaves the others, if their files are as long as before. -/
theorem goes_remove (sound : o.Fits → ∀ other r, other ≠ site → o.region? other = some r → r.Sound p)
    (names : o.Fits → p.files.Tidy ∧ o.platform.files.nextFile ≤ p.files.nextFile) :
    o.Goes (o.put site none p) := by
  intro fits
  have before {other : Site} {s : Region} (there : (o.put site none p).region? other = some s) :
      other ≠ site ∧ o.region? other = some s := by
    obtain ⟨_, nothing⟩ | kept := put_cases there
    · cases nothing
    · exact kept
  obtain ⟨tidy, next⟩ := names fits
  refine ⟨⟨tidy, ?_, ?_, ?_, ?_⟩, fun other s there => ⟨s, (before there).2, .refl s⟩⟩
  · intro other s there
    exact Nat.lt_of_lt_of_le (fits.made other s (before there).2) next
  · intro other s there
    exact sound fits other s (before there).1 (before there).2
  · intro key other s s' there there' different
    exact fits.apart key other s s' (before there).2 (before there').2 different
  · intro name s there
    exact fits.untrimmed name s (before there).2

/-- A store may cut its file when it ends, since no other region is over the file. -/
theorem goes_end (found : o.region? (.store key) = some r)
    (ended : r.Sound o.platform → r.Ended o.platform p) : o.Goes (o.put (.store key) none p) := by
  refine goes_remove (fun fits other s different there => ?_) fun fits => ?_
  · have ended := ended (fits.sound _ r found)
    have sound := fits.sound other s there
    have kept : s.backing p = s.backing o.platform :=
      ended.onlyFile.others _ (fits.apart key other r s found there different)
    exact { sound with capacity_le := kept ▸ sound.capacity_le }
  · have names := (ended (fits.sound _ r found)).onlyFile.names
    exact ⟨names.tidy fits.tidy, Nat.le_of_eq names.nextFile.symm⟩

/-- An index leaves its file as long as it is when it ends. -/
theorem goes_unmap (longer : o.Fits → o.platform.files.Lengthens p.files) :
    o.Goes (o.put site none p) := by
  refine goes_remove (fun fits other s _ there => ?_) fun fits => ?_
  · exact (fits.sound other s there).of_lengthens (fits.made other s there) (longer fits)
  · exact ⟨(longer fits).tidy fits.tidy, (longer fits).next⟩

/-! ## Opening -/

/-- A region that is opened fits as well, if it is over the file of no store, or over that of no region
at all if a store opens it. -/
theorem steps_open {path : Path} {setup : RegionSetup} (fits : o.Fits)
    (absent : o.region? site = none) (longer : o.platform.files.Lengthens p.files)
    (began : r.Began path setup o.platform p)
    (stores : ∀ key s, o.region? (.store key) = some s → s.fileId ≠ r.fileId)
    (all : ∀ key, site = .store key → ∀ other s, o.region? other = some s → s.fileId ≠ r.fileId)
    (untrimmed : ∀ name, site = .index name → r.setup.trimOnClose = false) :
    o.Steps (o.put site (some r) p) := by
  have kept {other : Site} {s : Region} (there : (o.put site (some r) p).region? other = some s) :
      other = site ∧ s = r ∨ other ≠ site ∧ o.region? other = some s := by
    obtain ⟨here, same⟩ | kept := put_cases there
    · exact .inl ⟨here, (Option.some.inj same).symm⟩
    · exact .inr kept
  refine ⟨⟨longer.tidy fits.tidy, ?_, ?_, ?_, ?_⟩, ?_⟩
  · intro other s there
    obtain ⟨rfl, rfl⟩ | ⟨_, there⟩ := kept there
    · exact began.made
    · exact Nat.lt_of_lt_of_le (fits.made other s there) longer.next
  · intro other s there
    obtain ⟨rfl, rfl⟩ | ⟨_, there⟩ := kept there
    · exact began.sound
    · exact (fits.sound other s there).of_lengthens (fits.made other s there) longer
  · -- Of two regions either may be the new one, but not both, since they are at different sites.
    intro key other s s' there there' different
    obtain ⟨here, rfl⟩ | ⟨_, before⟩ := kept there <;>
      obtain ⟨here', rfl⟩ | ⟨_, before'⟩ := kept there'
    · exact absurd (here'.trans here.symm) different
    · exact all key here.symm other s' before'
    · exact (stores key s before).symm
    · exact fits.apart key other s s' before before' different
  · intro name s there
    obtain ⟨here, rfl⟩ | ⟨_, before⟩ := kept there
    · exact untrimmed name here.symm
    · exact fits.untrimmed name s before
  · intro other s s' there there'
    obtain ⟨rfl, rfl⟩ | ⟨_, there'⟩ := kept there'
    · rw [absent] at there
      cases there
    · rw [there] at there'
      cases there'
      exact .refl s

end OpenRegions
end MappedStorage
