import Mathlib.Data.List.Basic
import MappedStorage.Naming.FullName

/-!
The pieces and the components of paths that are put together. What is appended to a path goes to its
last piece (`Path.exists_pieces_append`), and a name that follows a directory becomes one more
component (`Path.components_join`). A path is normal if it goes from the root by names alone
(`Path.IsNormal`), and a full name is put together from names (`FullName.extend_names`).
-/

namespace MappedStorage

namespace Path

variable {suffix : List UInt8} {name : Name} {names : List Name} {p : Path}

/-- A name that a directory can have. -/
structure IsName (name : Name) : Prop where
  whole : separator ∉ name
  tells : component? name = some (.name name)

theorem isName_iff : IsName name ↔ separator ∉ name ∧ component? name = some (.name name) :=
  ⟨fun is => ⟨is.whole, is.tells⟩, fun is => ⟨is.1, is.2⟩⟩

instance : DecidablePred IsName := fun _ => decidable_of_iff _ isName_iff.symm

/-- A path from the root by names alone. -/
def IsNormal (p : Path) : Prop := ∃ names, (∀ name ∈ names, IsName name) ∧ p = ofNames names

/-- The bytes after the last separator. -/
def lastPiece (p : Path) : List UInt8 := (pieces p.bytes).getLastD []

/-! ## Pieces -/

theorem pieces_ne_nil (bytes : List UInt8) : pieces bytes ≠ [] := by
  cases bytes with
  | nil => exact List.cons_ne_nil _ _
  | cons b rest =>
    rw [pieces]
    split
    · exact List.cons_ne_nil _ _
    · split <;> exact List.cons_ne_nil _ _

theorem pieces_cons_separator (bytes : List UInt8) :
    pieces (separator :: bytes) = [] :: pieces bytes := by
  rw [pieces, if_pos rfl]

theorem pieces_of_whole (whole : separator ∉ name) : pieces name = [name] := by
  induction name with
  | nil => rfl
  | cons b rest ih =>
    rw [List.mem_cons, not_or] at whole
    rw [pieces, if_neg (Ne.symm whole.1), ih whole.2]

/-- What comes after a separator has pieces of its own. -/
theorem pieces_append_separator (bytes more : List UInt8) :
    pieces (bytes ++ separator :: more) = pieces bytes ++ pieces more := by
  induction bytes with
  | nil =>
    rw [List.nil_append, pieces_cons_separator]
    rfl
  | cons b rest ih =>
    rw [List.cons_append, pieces, pieces, ih]
    split
    · rfl
    · cases parts : pieces rest with
      | nil => exact absurd parts (pieces_ne_nil rest)
      | cons piece more => rfl

theorem whole_of_mem_pieces {bytes piece : List UInt8} (member : piece ∈ pieces bytes) :
    separator ∉ piece := by
  induction bytes generalizing piece with
  | nil =>
    rw [pieces, List.mem_singleton] at member
    rw [member]
    exact List.not_mem_nil
  | cons b rest ih =>
    rw [pieces] at member
    split at member
    · obtain rfl | later := List.mem_cons.mp member
      · exact List.not_mem_nil
      · exact ih later
    · rename_i plain
      cases parts : pieces rest with
      | nil => exact absurd parts (pieces_ne_nil rest)
      | cons first more =>
        rw [parts] at member ih
        obtain rfl | later := List.mem_cons.mp member
        · rw [List.mem_cons, not_or]
          exact ⟨Ne.symm plain, ih List.mem_cons_self⟩
        · exact ih (List.mem_cons_of_mem first later)

theorem exists_last_separator {bytes : List UInt8} (slashed : separator ∈ bytes) :
    ∃ before last, bytes = before ++ separator :: last ∧ separator ∉ last := by
  obtain ⟨last, before, reversed, plain⟩ :=
    List.eq_append_cons_of_mem (List.mem_reverse.mpr slashed)
  refine ⟨before.reverse, last.reverse, ?_, mt List.mem_reverse.mp plain⟩
  rw [← List.reverse_reverse bytes, reversed, List.reverse_append, List.reverse_cons,
    List.append_assoc]
  rfl

/-- What is appended to a path without a separator goes to the last piece. -/
theorem exists_pieces_append (p : Path) (whole : separator ∉ suffix) :
    ∃ init, pieces p.bytes = init ++ [p.lastPiece] ∧
      pieces (p.append suffix).bytes = init ++ [p.lastPiece ++ suffix] := by
  obtain ⟨bytes⟩ := p
  by_cases slashed : separator ∈ bytes
  · obtain ⟨before, last, rfl, plain⟩ := exists_last_separator slashed
    have parts := pieces_append_separator before last
    rw [pieces_of_whole plain] at parts
    have here : lastPiece ⟨before ++ separator :: last⟩ = last := by
      rw [lastPiece, parts, List.getLastD_concat]
    have both : separator ∉ last ++ suffix := by
      rw [List.mem_append, not_or]
      exact ⟨plain, whole⟩
    refine ⟨pieces before, by rw [here, parts], ?_⟩
    rw [here, append, List.append_assoc, List.cons_append, pieces_append_separator,
      pieces_of_whole both]
  · have here : lastPiece ⟨bytes⟩ = bytes := by
      rw [lastPiece, pieces_of_whole slashed]
      rfl
    have both : separator ∉ bytes ++ suffix := by
      rw [List.mem_append, not_or]
      exact ⟨slashed, whole⟩
    refine ⟨[], by rw [here, pieces_of_whole slashed]; rfl, ?_⟩
    rw [here, append, pieces_of_whole both]
    rfl

/-! ## Components -/

theorem component?_eq_name {piece : List UInt8} (found : component? piece = some (.name name)) :
    name = piece := by
  rw [component?] at found
  split at found
  · cases found
  · split at found
    · cases found
    · cases found
      rfl

theorem isName_of_mem_components (member : .name name ∈ p.components) : IsName name := by
  rw [components, List.mem_append] at member
  obtain begins | later := member
  · rw [start] at begins
    split at begins
    · simp at begins
    · split at begins <;> simp at begins
  · obtain ⟨piece, there, tells⟩ := List.mem_filterMap.mp later
    obtain rfl := component?_eq_name tells
    exact ⟨whole_of_mem_pieces there, tells⟩

theorem fileName?_of_components {init : List Component} (parts : p.components = init ++ [.name name]) :
    p.fileName? = some name := by
  rw [fileName?, parts, List.getLast?_concat]

theorem components_of_fileName? (named : p.fileName? = some name) :
    p.components = p.components.dropLast ++ [.name name] := by
  rw [fileName?] at named
  split at named
  · rename_i last
    cases named
    exact (List.dropLast_append_getLast? _ last).symm
  · cases named

/-- A suffix that says something makes a name of whatever a path ends with. -/
theorem fileName?_append (p : Path) (whole : separator ∉ suffix)
    (tells : component? (p.lastPiece ++ suffix) = some (.name (p.lastPiece ++ suffix))) :
    (p.append suffix).fileName? = some (p.lastPiece ++ suffix) := by
  obtain ⟨init, -, parts⟩ := p.exists_pieces_append whole
  have ends : (p.append suffix).components = ((p.append suffix).start ++ init.filterMap component?) ++
      [.name (p.lastPiece ++ suffix)] := by
    rw [components, parts, List.filterMap_append, List.append_assoc, List.filterMap_cons, tells]
    rfl
  exact fileName?_of_components ends

theorem pieces_names (whole : ∀ name ∈ names, separator ∉ name) {first : Name}
    (plain : separator ∉ first) : pieces (first ++ names.flatMap (separator :: ·)) = first :: names := by
  induction names generalizing first with
  | nil => rw [List.flatMap_nil, List.append_nil, pieces_of_whole plain]
  | cons next rest ih =>
    rw [List.flatMap_cons, List.cons_append, pieces_append_separator, pieces_of_whole plain,
      ih (fun name member => whole name (List.mem_cons_of_mem next member))
        (whole next List.mem_cons_self)]
    rfl

theorem filterMap_component? (say : ∀ name ∈ names, component? name = some (.name name)) :
    names.filterMap component? = names.map .name := by
  induction names with
  | nil => rfl
  | cons first rest ih =>
    rw [List.filterMap_cons, say first List.mem_cons_self,
      ih fun name member => say name (List.mem_cons_of_mem first member)]
    rfl

theorem pieces_ofNames {first : Name} (whole : ∀ name ∈ first :: names, separator ∉ name) :
    pieces (ofNames (first :: names)).bytes = [] :: first :: names := by
  obtain ⟨plain, whole⟩ := List.forall_mem_cons.mp whole
  rw [ofNames, List.flatMap_cons, List.cons_append, pieces_cons_separator, pieces_names whole plain]
  exact nofun

theorem components_ofNames (areNames : ∀ name ∈ names, IsName name) :
    (ofNames names).components = .root :: names.map .name := by
  cases names with
  | nil => rfl
  | cons first rest =>
    have parts := pieces_ofNames fun name member => (areNames name member).whole
    have rooted : (ofNames (first :: rest)).start = [.root] := by
      rw [start, if_pos]
      rfl
    rw [components, rooted, parts, List.filterMap_cons,
      filterMap_component? fun name member => (areNames name member).tells]
    rfl

theorem ofNames_append_singleton (names : List Name) (name : Name) :
    ofNames (names ++ [name]) = ⟨names.flatMap (separator :: ·) ++ separator :: name⟩ := by
  rw [ofNames, List.flatMap_append]
  · simp
  · simp

theorem append_ofNames (names : List Name) (name : Name) (suffix : List UInt8) :
    (ofNames (names ++ [name])).append suffix = ofNames (names ++ [name ++ suffix]) := by
  rw [ofNames_append_singleton, ofNames_append_singleton, append]
  simp

theorem lastPiece_ofNames (names : List Name) (whole : separator ∉ name) :
    (ofNames (names ++ [name])).lastPiece = name := by
  rw [lastPiece, ofNames_append_singleton, pieces_append_separator, pieces_of_whole whole]
  simp

theorem isNormal_ofNames (areNames : ∀ name ∈ names, IsName name) : (ofNames names).IsNormal :=
  ⟨names, areNames, rfl⟩

/-- A normal path is what its names say. -/
theorem IsNormal.eq_of_key_eq (normal : p.IsNormal) (normal' : q.IsNormal) (same : p.key = q.key) :
    p = q := by
  obtain ⟨names, areNames, rfl⟩ := normal
  obtain ⟨names', areNames', rfl⟩ := normal'
  rw [key, key, components_ofNames areNames, components_ofNames areNames'] at same
  have injective : Function.Injective Component.name := fun _ _ => Component.name.inj
  rw [injective.list_map (List.cons.inj same).2]

/-- A normal path with a last name leads to it from the names before. -/
theorem IsNormal.exists_names (normal : p.IsNormal) (named : p.fileName? = some name) :
    ∃ names, (∀ n ∈ names ++ [name], IsName n) ∧ p = ofNames (names ++ [name]) := by
  obtain ⟨names, areNames, rfl⟩ := normal
  have ends := components_of_fileName? named
  rw [components_ofNames areNames] at ends
  rcases List.eq_nil_or_concat names with rfl | ⟨init, last, rfl⟩
  · cases ends
  · rw [List.concat_eq_append] at areNames ends ⊢
    rw [List.map_append, ← List.cons_append] at ends
    have same := (List.append_inj' ends rfl).2
    obtain rfl : last = name := by simpa using same
    exact ⟨init, areNames, rfl⟩

theorem start_congr {q : Path} (first : p.bytes.head? = q.bytes.head?)
    (piece : (pieces p.bytes).head? = (pieces q.bytes).head?) : p.start = q.start := by
  rw [start, start, isAbsolute, isAbsolute, first, piece]

theorem components_of_isName (isName : IsName name) : components ⟨name⟩ = [.name name] := by
  have plain : ¬ isAbsolute ⟨name⟩ = true := by
    intro rooted
    exact isName.whole (List.mem_of_mem_head? (Option.mem_def.mpr (beq_iff_eq.mp rooted)))
  have tells : name ≠ [dot] := by
    rintro rfl
    exact absurd isName.tells (by decide)
  have begins : start ⟨name⟩ = [] := by
    rw [start, if_neg plain, pieces_of_whole isName.whole]
    simp [tells]
  rw [components, begins, pieces_of_whole isName.whole, List.nil_append, List.filterMap_cons,
    isName.tells]
  rfl

/-- A name that follows a directory is one more component. -/
theorem components_join (dir : Path) (isName : IsName name) :
    (dir.join ⟨name⟩).components = dir.components ++ [.name name] := by
  have plain : ¬ isAbsolute ⟨name⟩ = true := by
    intro rooted
    exact isName.whole (List.mem_of_mem_head? (Option.mem_def.mpr (beq_iff_eq.mp rooted)))
  rw [join, if_neg plain]
  obtain ⟨bytes⟩ := dir
  -- After a separator the name is a piece of its own, whether the directory ends with one or not.
  have followed {before : List UInt8} (pieces_eq : (pieces bytes).filterMap component? =
      (pieces before).filterMap component?) (begins : start ⟨bytes⟩ = start ⟨before ++ separator :: name⟩) :
      components ⟨before ++ separator :: name⟩ = components ⟨bytes⟩ ++ [.name name] := by
    rw [components, components, begins, pieces_append_separator, pieces_of_whole isName.whole,
      List.filterMap_append, pieces_eq, List.append_assoc, List.filterMap_cons, isName.tells]
    rfl
  have head_pieces (before more : List UInt8) :
      (pieces (before ++ separator :: more)).head? = (pieces before).head? := by
    rw [pieces_append_separator, List.head?_append_of_ne_nil _ (pieces_ne_nil before)]
  split
  · rename_i ends
    obtain rfl | slashed := ends
    · rw [show (⟨[] ++ name⟩ : Path) = ⟨name⟩ from rfl, components_of_isName isName]
      rfl
    · obtain ⟨before, rfl⟩ := List.getLast?_eq_some_iff.mp slashed
      rw [show before ++ [separator] ++ name = before ++ separator :: name by simp]
      refine followed ?_ (start_congr ?_ ?_)
      · rw [pieces_append_separator, List.filterMap_append]
        simp [pieces, component?]
      · cases before <;> rfl
      · rw [head_pieces, head_pieces]
  · rename_i open_
    rw [not_or] at open_
    refine followed rfl (start_congr ?_ (head_pieces ..).symm)
    rw [List.head?_append_of_ne_nil _ open_.1]

end Path

namespace FullName

theorem isName_of_mem_pending {path : Path} {name : Name} {source : Path}
    (member : ⟨.name name, source⟩ ∈ pending path) : Path.IsName name := by
  obtain ⟨c, there, same⟩ := List.mem_map.mp member
  cases same
  exact Path.isName_of_mem_components there

theorem extend_names {fs : FileSystem} {links left : Nat} {names full : List Name}
    {waiting : List Pending} (areNames : ∀ name ∈ names, Path.IsName name)
    (ahead : ∀ name source, ⟨.name name, source⟩ ∈ waiting → Path.IsName name)
    (extended : extend fs links names waiting = .ok (full, left)) :
    ∀ name ∈ full, Path.IsName name := by
  have shorter (names : List Name) : ∀ name ∈ names.dropLast, name ∈ names :=
    fun _ member => List.dropLast_subset names member
  fun_induction extend fs links names waiting <;> grind [isName_of_mem_pending]

theorem isName_of_mem_route {fs : FileSystem} {path : Path} {name : Name} {source : Path}
    (member : ⟨.name name, source⟩ ∈ route fs path) : Path.IsName name := by
  rw [route] at member
  split at member
  · exact isName_of_mem_pending member
  · obtain here | there := List.mem_append.mp member
    · exact isName_of_mem_pending here
    · exact isName_of_mem_pending there

end FullName
end MappedStorage
