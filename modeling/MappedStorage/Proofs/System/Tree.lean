import MappedStorage.Proofs.Naming.Path
import MappedStorage.Proofs.System.Resolution
import MappedStorage.Proofs.System.Walks

/-!
File systems that are trees. Below the root every directory has one name, knows the directory above
it and the names that lead to it (`IsTree`). Every walk then ends at a place in the tree
(`Walks.stands`), which the names from the root lead to without any link
(`Place.Stands.leadsTo_names`).
-/

namespace MappedStorage

/-- A name that an entry of a directory can have. -/
structure IsEntryName (name : Name) : Prop extends Path.IsName name where
  short : name.length ≤ FileSystem.maxName

namespace FileSystem

/-- A step that a path can have. -/
structure IsStep (step : List UInt8) : Prop where
  whole : Path.separator ∉ step
  nonempty : step ≠ []

/-- The directories that can be reached from the root. -/
inductive Attached (fs : FileSystem) : DirectoryId → Prop
  | root : Attached fs root
  | inside {holder id : DirectoryId} {name : Name} (above : Attached fs holder)
      (found : fs.lookup holder name = some (.directory id)) : Attached fs id

/-- Every directory below the root is in one other directory, under one name. -/
structure IsTree (fs : FileSystem) : Prop where
  rootParent : (fs.directory root).parent = root
  rootTrail : (fs.directory root).trail = []
  named : ∀ {holder name entry}, fs.Attached holder → fs.lookup holder name = some entry →
    IsEntryName name
  parent : ∀ {holder name id}, fs.Attached holder → fs.lookup holder name = some (.directory id) →
    (fs.directory id).parent = holder
  trail : ∀ {holder name id}, fs.Attached holder → fs.lookup holder name = some (.directory id) →
    (fs.directory id).trail = name :: (fs.directory holder).trail
  numbered : ∀ {id}, fs.Attached id → id < fs.nextDirectory
  working : fs.Attached fs.workingDirectory

end FileSystem

namespace Place

variable (fs : FileSystem)

/-- The names that lead from the root to a place. -/
def names : Place → List Name
  | .directory id => fs.namesOf id
  | .file holder name _ | .link holder name _ | .vacant holder name => fs.namesOf holder ++ [name]

/-- A place in the tree. -/
def Stands (place : Place) : Prop :=
  match place with
  | .directory id => fs.Attached id
  | .file holder name _ | .link holder name _ | .vacant holder name =>
    fs.Attached holder ∧ IsEntryName name ∧ fs.lookup holder name = place.occupant?

end Place

namespace FileSystem

variable {fs : FileSystem} {intent : Intent} {count : Nat} {here holder id : DirectoryId}
  {name : Name} {parts : List (List UInt8)} {slashed : Bool} {place : Place} {path : Path}

/-! ## Steps of paths -/

theorem LooksUp.isEntryName {rest : List (List UInt8)} (looks : LooksUp intent slashed name rest)
    (isStep : IsStep name) : IsEntryName name := by
  refine ⟨⟨isStep.whole, ?_⟩, looks.short⟩
  rw [Path.component?, if_neg (not_or.mpr ⟨isStep.nonempty, looks.notHere⟩), if_neg looks.notUp]

theorem LooksUp.of_isEntryName {rest : List (List UInt8)} (named : IsEntryName name)
    (allowed : ¬ (rest = [] ∧ slashed = true ∧ intent = .create)) :
    LooksUp intent slashed name rest := by
  refine ⟨?_, ?_, allowed, named.short⟩
  · rintro rfl
    exact absurd named.tells (by decide)
  · rintro rfl
    exact absurd named.tells (by decide)

theorem isStep_of_mem_steps (path : Path) : ∀ step ∈ steps path, IsStep step := by
  intro step member
  obtain ⟨piece, nonempty⟩ := List.mem_filter.mp member
  exact ⟨Path.whole_of_mem_pieces piece, of_decide_eq_true nonempty⟩

theorem isStep_of_isName (isName : Path.IsName name) : IsStep name := by
  refine ⟨isName.whole, ?_⟩
  rintro rfl
  exact absurd isName.tells (by decide)

theorem steps_ofNames {names : List Name} (areNames : ∀ name ∈ names, Path.IsName name) :
    steps (Path.ofNames names) = names := by
  cases names with
  | nil => rfl
  | cons first rest =>
    rw [steps, Path.pieces_ofNames fun name member => (areNames name member).whole,
      List.filter_cons_of_neg (by simp), List.filter_eq_self]
    intro name member
    exact decide_eq_true (isStep_of_isName (areNames name member)).nonempty

theorem isSlashed_ofNames {names : List Name} (areNames : ∀ name ∈ names, Path.IsName name) :
    isSlashed (Path.ofNames names) = false := by
  rcases List.eq_nil_or_concat names with rfl | ⟨init, last, rfl⟩
  · rfl
  · rw [List.concat_eq_append] at areNames ⊢
    have isName := areNames last (List.mem_append_right _ List.mem_cons_self)
    rw [isSlashed, Bool.and_eq_false_iff, Path.ofNames_append_singleton]
    refine .inl (beq_eq_false_iff_ne.mpr fun ends => isName.whole ?_)
    rw [List.getLast?_append_of_ne_nil _ (List.cons_ne_nil _ _),
      List.getLast?_cons_of_ne_nil (isStep_of_isName isName).nonempty] at ends
    exact List.mem_of_getLast? ends

theorem isAbsolute_ofNames (names : List Name) : (Path.ofNames names).isAbsolute = true := by
  cases names with
  | nil => rfl
  | cons first rest => simp [Path.ofNames, Path.isAbsolute]

/-! ## Directories -/

theorem IsTree.namesOf_root (tree : fs.IsTree) : fs.namesOf root = [] := by
  rw [namesOf, tree.rootTrail]
  rfl

theorem IsTree.namesOf_below (tree : fs.IsTree) (attached : fs.Attached holder)
    (found : fs.lookup holder name = some (.directory id)) :
    fs.namesOf id = fs.namesOf holder ++ [name] := by
  rw [namesOf, tree.trail attached found, List.reverse_cons]
  rfl

theorem IsTree.attached_parent (tree : fs.IsTree) (attached : fs.Attached id) :
    fs.Attached (fs.directory id).parent := by
  cases attached with
  | root =>
    rw [tree.rootParent]
    exact .root
  | inside above found =>
    rw [tree.parent above found]
    exact above

/-- A path is read from the root or from a directory of the tree. -/
theorem Attached.start (attached : fs.Attached here) (path : Path) :
    fs.Attached (if path.isAbsolute then FileSystem.root else here) := by
  split
  · exact .root
  · exact attached

/-- Two dots lead away from the last name of a directory. -/
theorem IsTree.namesOf_parent (tree : fs.IsTree) (attached : fs.Attached id) :
    fs.namesOf (fs.directory id).parent = (fs.namesOf id).dropLast := by
  cases attached with
  | root =>
    rw [tree.rootParent, tree.namesOf_root]
    rfl
  | inside above found =>
    rw [tree.parent above found, tree.namesOf_below above found, List.dropLast_concat]

theorem IsTree.isName_of_mem_namesOf (tree : fs.IsTree) (attached : fs.Attached id) :
    ∀ name ∈ fs.namesOf id, Path.IsName name := by
  induction attached with
  | root =>
    rw [tree.namesOf_root]
    exact nofun
  | inside above found ih =>
    rw [tree.namesOf_below above found]
    intro name member
    obtain before | last := List.mem_append.mp member
    · exact ih name before
    · rw [List.mem_singleton.mp last]
      exact (tree.named above found).toIsName

/-- A walk from a directory is one from the root that begins with the names of the directory. -/
theorem IsTree.walks_from_root (tree : fs.IsTree) (attached : fs.Attached here)
    (ends : slashed = true → parts ≠ []) (walks : fs.Walks intent here parts slashed count place) :
    fs.Walks intent root (fs.namesOf here ++ parts) slashed count place := by
  induction attached generalizing parts with
  | root =>
    rw [tree.namesOf_root]
    exact walks
  | inside above found ih =>
    have looks : LooksUp intent slashed _ parts :=
      .of_isEntryName (tree.named above found) fun refused => ends refused.2.1 refused.1
    rw [tree.namesOf_below above found, List.append_assoc]
    exact ih (fun _ => List.cons_ne_nil _ _) (.directory looks found walks)

/-! ## Places -/

/-- A walk that starts in the tree ends in the tree. -/
theorem Walks.stands (walks : fs.Walks intent here parts slashed count place) (tree : fs.IsTree)
    (attached : fs.Attached here) (areSteps : ∀ step ∈ parts, IsStep step) : place.Stands fs := by
  induction walks with
  | stop => exact attached
  | stay _ ih => exact ih attached (List.forall_mem_cons.mp areSteps).2
  | up _ ih => exact ih (tree.attached_parent attached) (List.forall_mem_cons.mp areSteps).2
  | vacant looks found =>
    exact ⟨attached, looks.isEntryName (List.forall_mem_cons.mp areSteps).1, found⟩
  | directory looks found _ ih =>
    exact ih (.inside attached found) (List.forall_mem_cons.mp areSteps).2
  | file looks found _ =>
    exact ⟨attached, looks.isEntryName (List.forall_mem_cons.mp areSteps).1, found⟩
  | link looks found _ =>
    exact ⟨attached, looks.isEntryName (List.forall_mem_cons.mp areSteps).1, found⟩
  | follow looks found _ _ ih =>
    exact ih (attached.start _) (List.forall_mem_append.mpr
      ⟨isStep_of_mem_steps _, (List.forall_mem_cons.mp areSteps).2⟩)

theorem LeadsTo.stands (leads : fs.LeadsTo intent path count place) (tree : fs.IsTree) :
    place.Stands fs :=
  leads.walks.stands tree (tree.working.start path) (isStep_of_mem_steps path)

end FileSystem

namespace Place.Stands

open FileSystem

variable {fs : FileSystem} {intent : Intent} {place : Place}

theorem isName_of_mem_names (stands : place.Stands fs) (tree : fs.IsTree) :
    ∀ name ∈ place.names fs, Path.IsName name := by
  have beneath {holder : DirectoryId} {last : Name} (attached : fs.Attached holder)
      (named : IsEntryName last) : ∀ name ∈ fs.namesOf holder ++ [last], Path.IsName name := by
    intro name member
    obtain before | final := List.mem_append.mp member
    · exact tree.isName_of_mem_namesOf attached name before
    · rw [List.mem_singleton.mp final]
      exact named.toIsName
  cases place with
  | directory id => exact tree.isName_of_mem_namesOf stands
  | file holder name id => exact beneath stands.1 stands.2.1
  | link holder name target => exact beneath stands.1 stands.2.1
  | vacant holder name => exact beneath stands.1 stands.2.1

/-- The names of a place lead to it from the root, by way of no link. -/
theorem walks_names (stands : place.Stands fs) (tree : fs.IsTree)
    (final : ∀ holder name target, place = .link holder name target →
      intent = .rename ∨ intent = .inspect) :
    fs.Walks intent root (place.names fs) false 0 place := by
  have looks {name : Name} (named : IsEntryName name) : LooksUp intent false name [] :=
    .of_isEntryName named fun refused => Bool.false_ne_true refused.2.1
  have ends {parts : List (List UInt8)} : false = true → parts ≠ [] := nofun
  cases place with
  | directory id =>
    have walks := tree.walks_from_root stands ends (.stop : fs.Walks intent id [] false 0 _)
    rwa [List.append_nil] at walks
  | file holder name id =>
    exact tree.walks_from_root stands.1 ends (.file (looks stands.2.1) stands.2.2 (.inl rfl))
  | link holder name target =>
    have kept : intent = .rename ∨ intent = .inspect ∧ false = false :=
      (final holder name target rfl).imp_right fun inspects => ⟨inspects, rfl⟩
    exact tree.walks_from_root stands.1 ends (.link (looks stands.2.1) stands.2.2 ⟨rfl, kept⟩)
  | vacant holder name =>
    exact tree.walks_from_root stands.1 ends (.vacant (looks stands.2.1) stands.2.2)

theorem leadsTo_names (stands : place.Stands fs) (tree : fs.IsTree)
    (final : ∀ holder name target, place = .link holder name target →
      intent = .rename ∨ intent = .inspect)
    (acceptable : IsAcceptable (Path.ofNames (place.names fs))) :
    fs.LeadsTo intent (Path.ofNames (place.names fs)) 0 place := by
  have areNames := stands.isName_of_mem_names tree
  refine ⟨acceptable, Nat.zero_le _, ?_⟩
  rw [isAbsolute_ofNames, if_pos rfl, steps_ofNames areNames, isSlashed_ofNames areNames]
  exact stands.walks_names tree final

end Place.Stands

namespace FileSystem

variable {fs : FileSystem} {here : DirectoryId} {name : Name}

/-- A name looked at by the names of its directory is what the directory says it is. -/
theorem IsTree.linkStat_names (tree : fs.IsTree) (attached : fs.Attached here)
    (named : IsEntryName name) (acceptable : IsAcceptable (Path.ofNames (fs.namesOf here ++ [name]))) :
    fs.linkStat (Path.ofNames (fs.namesOf here ++ [name])) =
      (fs.lookup here name).elim (.error (.os Errno.noEntry)) .ok := by
  have seen (place : Place) (stands : place.Stands fs)
      (names : place.names fs = fs.namesOf here ++ [name]) :
      fs.linkStat (Path.ofNames (fs.namesOf here ++ [name])) =
        place.occupant?.elim (.error (.os Errno.noEntry)) .ok := by
    rw [← names] at acceptable ⊢
    have leads := stands.leadsTo_names tree (fun _ _ _ _ => .inr rfl) acceptable
    rw [linkStat, entryAt, leads.resolve_eq]
    dsimp only
    cases place.occupant? with
    | none => rfl
    | some entry => rfl
  cases found : fs.lookup here name with
  | none => exact seen (.vacant here name) ⟨attached, named, found⟩ rfl
  | some entry =>
    cases entry with
    | directory id =>
      exact seen (.directory id) (.inside attached found) (tree.namesOf_below attached found)
    | file id => exact seen (.file here name id) ⟨attached, named, found⟩ rfl
    | link target => exact seen (.link here name target) ⟨attached, named, found⟩ rfl

end FileSystem
end MappedStorage
