import Mathlib.Data.List.Permutation
import MappedStorage.Proofs.System.TreeRequests

/-!
What full names mean. Appending the components of a path goes through the tree as the system does
when it opens the path: at each step the names so far are those of the directory that the walk has
come to (`extend_of_walks`). So a full name leads where the path leads, by way of no link, and tells
whether the path leads there by way of one (`resolve_same_place`).
-/

namespace MappedStorage.FullName

open FileSystem

variable {fs : FileSystem} {intent : Intent} {links left count limit : Nat} {here : DirectoryId}
  {name : Name} {names full : List Name} {waiting rest : List Pending} {parts : List (List UInt8)}
  {slashed : Bool} {place : Place} {path : Path}

/-- What waiting components say. A dot that a path begins with says nothing. -/
def said (waiting : List Pending) : List Component :=
  (waiting.map (·.component)).filter (· ≠ .here)

theorem said_append (waiting rest : List Pending) :
    said (waiting ++ rest) = said waiting ++ said rest := by
  rw [said, List.map_append, List.filter_append]
  rfl

theorem component?_ne_here {piece : List UInt8} : Path.component? piece ≠ some .here := by
  intro same
  rw [Path.component?] at same
  split at same
  · cases same
  · split at same
    · cases same
    · cases same

/-- A path says its steps, after the root if it begins there. -/
theorem said_pending (path : Path) : said (pending path) =
    (if path.isAbsolute then [.root] else []) ++ (steps path).filterMap Path.component? := by
  have begins : path.start.filter (· ≠ .here) = if path.isAbsolute then [.root] else [] := by
    rw [Path.start]
    split
    · rfl
    · split <;> rfl
  have onward : ((Path.pieces path.bytes).filterMap Path.component?).filter (· ≠ .here) =
      (Path.pieces path.bytes).filterMap Path.component? := by
    refine List.filter_eq_self.mpr fun c member => decide_eq_true ?_
    rintro rfl
    obtain ⟨piece, -, tells⟩ := List.mem_filterMap.mp member
    exact component?_ne_here tells
  have silent : (Path.pieces path.bytes).filterMap Path.component? =
      (steps path).filterMap Path.component? := by
    rw [steps, List.filterMap_filter]
    refine List.filterMap_congr fun piece _ => ?_
    by_cases empty : piece = []
    · rw [empty]
      rfl
    · simp [empty]
  rw [said, pending, List.map_map, ← silent, ← onward, ← begins, ← List.filter_append]
  exact congrArg _ (List.map_id _)

theorem extend_of_said_nil (silent : said waiting = []) :
    extend fs links names waiting = .ok (names, links) := by
  induction waiting with
  | nil => rw [extend]
  | cons first rest ih =>
    obtain ⟨c, source⟩ := first
    cases c with
    | here =>
      rw [extend]
      exact ih silent
    | root => cases silent
    | up => cases silent
    | name name => cases silent

/-- What is said first is what is done first. -/
theorem exists_extend_eq {c : Component} {more : List Component} (tells : said waiting = c :: more) :
    ∃ source rest, said rest = more ∧
      ∀ links names, extend fs links names waiting = extend fs links names (⟨c, source⟩ :: rest) := by
  induction waiting with
  | nil => cases tells
  | cons first rest ih =>
    obtain ⟨c', source⟩ := first
    cases c' with
    | here =>
      obtain ⟨source, rest, tells, same⟩ := ih tells
      refine ⟨source, rest, tells, fun links names => ?_⟩
      rw [extend]
      exact same links names
    | root =>
      cases tells
      exact ⟨source, rest, rfl, fun _ _ => rfl⟩
    | up =>
      cases tells
      exact ⟨source, rest, rfl, fun _ _ => rfl⟩
    | name name =>
      cases tells
      exact ⟨source, rest, rfl, fun _ _ => rfl⟩

/-! ## Names that the system looks at -/

theorem ofNames_ne_nil (names : List Name) : (Path.ofNames names).bytes ≠ [] := by
  cases names with
  | nil => exact List.cons_ne_nil _ _
  | cons first rest => simp [Path.ofNames]

theorem acceptable_nil : IsAcceptable (Path.ofNames []) := ⟨by decide, by decide, by decide⟩

theorem acceptable_dropLast (acceptable : IsAcceptable (Path.ofNames names)) :
    IsAcceptable (Path.ofNames names.dropLast) := by
  rcases List.eq_nil_or_concat names with rfl | ⟨init, last, rfl⟩
  · exact acceptable
  · rw [List.concat_eq_append, List.dropLast_concat]
    rw [List.concat_eq_append, Path.ofNames_append_singleton] at acceptable
    cases init with
    | nil => exact acceptable_nil
    | cons first rest =>
      refine ⟨fun holed => acceptable.plain (List.mem_append_left _ holed), ofNames_ne_nil _, ?_⟩
      refine Nat.lt_of_le_of_lt ?_ acceptable.short
      rw [List.length_append]
      exact Nat.le_add_right _ _

/-- The full name of a path is one that the system looks at, as all names on the way are. -/
theorem acceptable_of_extend (acceptable : IsAcceptable (Path.ofNames names))
    (extended : extend fs links names waiting = .ok (full, left)) :
    IsAcceptable (Path.ofNames full) := by
  fun_induction extend fs links names waiting with
  | case1 links names =>
    cases extended
    exact acceptable
  | case2 links names source rest ih => exact ih acceptable_nil extended
  | case3 links names source rest ih => exact ih acceptable extended
  | case4 => cases extended
  | case5 links names source rest _ ih => exact ih (acceptable_dropLast acceptable) extended
  | case6 links names name source rest path missing ih =>
    refine ih (.of_linkStat fs (ofNames_ne_nil _) fun e error => ?_) extended
    cases missing.symm.trans error
    rfl
  | case7 => cases extended
  | case8 => cases extended
  | case9 names name source rest path target found left ih => exact ih acceptable extended
  | case10 links names name source rest path entry _ found ih =>
    refine ih (.of_linkStat fs (ofNames_ne_nil _) fun e error => ?_) extended
    cases found.symm.trans error

/-! ## Steps -/

/-- Two dots take the last name away. -/
theorem extend_up {more : List Component} (tells : said waiting = .up :: more)
    (extended : extend fs links names waiting = .ok (full, left)) :
    ∃ rest, said rest = more ∧ extend fs links names.dropLast rest = .ok (full, left) := by
  obtain ⟨source, rest, tells, same⟩ := exists_extend_eq tells
  rw [same, extend] at extended
  split at extended
  · cases extended
  · exact ⟨rest, tells, extended⟩

/-- A name is appended, unless it is that of a link: what the link says takes its place then. -/
theorem extend_name (tree : fs.IsTree) (attached : fs.Attached here)
    (looks : LooksUp intent slashed name parts) (isStep : IsStep name)
    (tells : said waiting = (name :: parts).filterMap Path.component?)
    (extended : extend fs links (fs.namesOf here) waiting = .ok (full, left)) :
    ∃ rest, said rest = parts.filterMap Path.component? ∧
      match fs.lookup here name with
      | some (.link target) => ∃ fewer, links = fewer + 1 ∧
          extend fs fewer (fs.namesOf here) (pending target ++ rest) = .ok (full, left)
      | _ => extend fs links (fs.namesOf here ++ [name]) rest = .ok (full, left) := by
  have named := looks.isEntryName isStep
  rw [List.filterMap_cons, named.tells] at tells
  obtain ⟨source, rest, tells, same⟩ := exists_extend_eq tells
  rw [same, extend] at extended
  refine ⟨rest, tells, ?_⟩
  have acceptable : IsAcceptable (Path.ofNames (fs.namesOf here ++ [name])) := by
    refine .of_linkStat fs (ofNames_ne_nil _) fun e error => ?_
    rw [error] at extended
    by_contra other
    cases (if_neg other).symm.trans extended
  rw [tree.linkStat_names attached named acceptable] at extended
  cases found : fs.lookup here name with
  | none =>
    rw [found] at extended
    exact (if_pos rfl).symm.trans extended
  | some entry =>
    rw [found] at extended
    cases entry with
    | directory id => exact extended
    | file id => exact extended
    | link target =>
      cases links with
      | zero => cases extended
      | succ fewer => exact ⟨fewer, rfl, extended⟩

/-- A path starts over at the root or goes on from where it is read. -/
theorem extend_pending (tree : fs.IsTree)
    (extended : extend fs links (fs.namesOf here) (pending path ++ rest) = .ok (full, left)) :
    ∃ waiting, said waiting = (steps path).filterMap Path.component? ++ said rest ∧
      extend fs links (fs.namesOf (if path.isAbsolute then root else here)) waiting =
        .ok (full, left) := by
  have tells := said_append (pending path) rest
  rw [said_pending, List.append_assoc] at tells
  split at tells
  · rename_i rooted
    obtain ⟨source, waiting, tells, same⟩ := exists_extend_eq tells
    rw [same, extend] at extended
    rw [if_pos rooted, tree.namesOf_root]
    exact ⟨waiting, tells, extended⟩
  · rename_i relative
    rw [if_neg relative]
    exact ⟨_, tells, extended⟩

theorem not_final (opens : intent = .reach ∨ intent = .create) :
    ¬ (intent = .rename ∨ intent = .inspect) := by
  obtain rfl | rfl := opens
  · decide
  · decide

/-- The names so far are those of the directory that the walk has come to, and each link that the
walk follows is one that may not be followed any more. -/
theorem extend_of_walks (tree : fs.IsTree) (opens : intent = .reach ∨ intent = .create)
    (walks : fs.Walks intent here parts slashed count place) (attached : fs.Attached here)
    (areSteps : ∀ step ∈ parts, IsStep step)
    (tells : said waiting = parts.filterMap Path.component?)
    (extended : extend fs links (fs.namesOf here) waiting = .ok (full, left)) :
    full = place.names fs ∧ links = left + count := by
  induction walks generalizing links waiting with
  | stop =>
    rw [extend_of_said_nil tells] at extended
    cases extended
    exact ⟨rfl, rfl⟩
  | stay _ ih => exact ih attached (List.forall_mem_cons.mp areSteps).2 tells extended
  | up _ ih =>
    obtain ⟨rest, tells, extended⟩ := extend_up tells extended
    rw [← tree.namesOf_parent attached] at extended
    exact ih (tree.attached_parent attached) (List.forall_mem_cons.mp areSteps).2 tells extended
  | vacant looks found =>
    have isStep := (List.forall_mem_cons.mp areSteps).1
    obtain ⟨rest, tells, extended⟩ := extend_name tree attached looks isStep tells extended
    rw [found, extend_of_said_nil tells] at extended
    cases extended
    exact ⟨rfl, rfl⟩
  | directory looks found _ ih =>
    obtain ⟨isStep, areSteps⟩ := List.forall_mem_cons.mp areSteps
    obtain ⟨rest, tells, extended⟩ := extend_name tree attached looks isStep tells extended
    rw [found, ← tree.namesOf_below attached found] at extended
    exact ih (.inside attached found) areSteps tells extended
  | file looks found _ =>
    have isStep := (List.forall_mem_cons.mp areSteps).1
    obtain ⟨rest, tells, extended⟩ := extend_name tree attached looks isStep tells extended
    rw [found, extend_of_said_nil tells] at extended
    cases extended
    exact ⟨rfl, rfl⟩
  | link _ _ final => exact absurd (IsFinal.intent_eq final) (not_final opens)
  | follow looks found _ _ ih =>
    obtain ⟨isStep, areSteps⟩ := List.forall_mem_cons.mp areSteps
    obtain ⟨rest, tells, followed⟩ := extend_name tree attached looks isStep tells extended
    rw [found] at followed
    obtain ⟨fewer, rfl, followed⟩ := followed
    -- What the link says comes before the steps that are left, for the names as for the walk.
    obtain ⟨waiting, aimed, followed⟩ := extend_pending tree followed
    rw [tells, ← List.filterMap_append] at aimed
    obtain ⟨names, spent⟩ := ih (attached.start _)
      (List.forall_mem_append.mpr ⟨isStep_of_mem_steps _, areSteps⟩) aimed followed
    exact ⟨names, congrArg Nat.succ spent⟩

/-! ## Paths -/

/-- The names of the working directory come before those of a relative path. -/
theorem extend_route (tree : fs.IsTree) (opens : intent = .reach ∨ intent = .create)
    (leads : fs.LeadsTo intent path count place)
    (extended : extend fs links [] (route fs path) = .ok (full, left)) :
    full = place.names fs ∧ links = left + count := by
  have walks := leads.walks
  rw [← tree.namesOf_root] at extended
  rw [route] at extended
  split at extended
  · rename_i rooted
    rw [if_pos rooted] at walks
    rw [← List.append_nil (pending path)] at extended
    obtain ⟨waiting, tells, extended⟩ := extend_pending tree extended
    rw [if_pos rooted] at extended
    exact extend_of_walks tree opens walks .root (isStep_of_mem_steps path)
      (tells.trans (List.append_nil _)) extended
  · rename_i relative
    rw [if_neg relative] at walks
    have areNames := tree.isName_of_mem_namesOf tree.working
    obtain ⟨waiting, tells, extended⟩ := extend_pending tree extended
    rw [isAbsolute_ofNames, if_pos rfl] at extended
    rw [steps_ofNames areNames, said_pending, if_neg relative, List.nil_append,
      ← List.filterMap_append] at tells
    have ends : isSlashed path = true → steps path ≠ [] := fun slashed =>
      of_decide_eq_true (Bool.and_eq_true_iff.mp slashed).2
    have areSteps : ∀ step ∈ fs.namesOf fs.workingDirectory, IsStep step := fun step member =>
      isStep_of_isName (areNames step member)
    exact extend_of_walks tree opens (tree.walks_from_root tree.working ends walks) .root
      (List.forall_mem_append.mpr ⟨areSteps, isStep_of_mem_steps path⟩) tells extended

/-- Where a path leads, whether to something or to a name that an existing directory does not have,
its full name leads by way of no link, and the full name tells whether the path leads there by way
of one. -/
theorem resolve_same_place (tree : fs.IsTree) (opens : intent = .reach ∨ intent = .create)
    {name : FullName} (named : resolve fs limit path = .ok name)
    (resolved : fs.resolve intent path = .ok place) :
    fs.resolve intent name.path = .ok place ∧ fs.LeadsTo intent name.path 0 place ∧
      ∃ count, (∀ n, fs.LeadsTo intent path n place ↔ n = count) ∧
        (name.followedLink = true ↔ 0 < count) := by
  obtain ⟨count, leads⟩ := resolve_eq_ok_iff.mp resolved
  rw [resolve] at named
  split at named
  · cases named
  · rename_i names left extended
    dsimp only at named
    split at named
    · cases named
    · cases named
      obtain ⟨rfl, spent⟩ := extend_route tree opens leads extended
      have acceptable := acceptable_of_extend acceptable_nil extended
      have direct : fs.LeadsTo intent _ 0 place := (leads.stands tree).leadsTo_names tree
        (fun _ _ _ ends => leads.walks.intent_eq ends) acceptable
      refine ⟨direct.resolve_eq, direct, count, fun n => ⟨fun other => ?_, ?_⟩, ?_⟩
      · have spent' := (extend_route tree opens other extended).2
        omega
      · rintro rfl
        exact leads
      · rw [decide_eq_true_iff]
        omega

/-- For instance two dots after a link, which lead away from where the link leads. -/
theorem dots_after_link_lead_on :
    let target : Path := ⟨[0x64, 0x2F, 0x65]⟩
    let fs := empty.run [.makeDirectory ⟨[0x64]⟩, .makeDirectory target, .makeLink target ⟨[0x6C]⟩]
    let path : Path := ⟨[0x6C, 0x2F, 0x2E, 0x2E, 0x2F, 0x78]⟩
    let name : FullName := ⟨⟨[0x2F, 0x64, 0x2F, 0x78]⟩, true⟩
    fs.IsTree ∧ resolve fs 512 path = .ok name ∧ fs.resolve .create path = .ok (.vacant 1 [0x78]) ∧
      fs.resolve .create name.path = .ok (.vacant 1 [0x78]) ∧
      fs.LeadsTo .create name.path 0 (.vacant 1 [0x78]) := by
  intro target fs path name
  have tree : fs.IsTree := isTree_empty.run _
  have named : resolve fs 512 path = .ok name := by
    dsimp +zetaDelta only
    cbv
  have resolved : fs.resolve .create path = .ok (.vacant 1 [0x78]) := by
    dsimp +zetaDelta only
    cbv
  obtain ⟨same, direct, -⟩ := resolve_same_place tree (.inr rfl) named resolved
  exact ⟨tree, named, resolved, same, direct⟩

end MappedStorage.FullName
