import Mathlib.Data.List.Infix
import Mathlib.Logic.Relation
import Mathlib.Order.WellFounded
import MappedStorage.Proofs.Naming.FullName

/-!
Full names are canonical. The resolution of a path goes on in steps (`Progress.Next`), each of which uses up a
waiting component or one of the links that may still be followed, so it ends in every tree, and what is answered
is read from where it ends (`extend_reaches`). No step adds a name that is a link, not even one that turns back or
starts over, so a full name has no link in it and resolves to itself (`resolve_canonical`).
-/

namespace MappedStorage

/-- What a name that a directory can have is not. -/
theorem Path.IsName.plain {name : Name} (isName : IsName name) :
    separator ∉ name ∧ name ≠ [] ∧ name ≠ [dot] ∧ name ≠ [dot, dot] := by
  refine ⟨isName.whole, ?_, ?_, ?_⟩
  · rintro rfl
    exact absurd isName.tells (by decide)
  · rintro rfl
    exact absurd isName.tells (by decide)
  · rintro rfl
    exact absurd isName.tells (by decide)

namespace FullName

/-- How far the resolution of a path has come. -/
structure Progress where
  names : List Name
  waiting : List Pending
  /-- How many links have been followed. -/
  followed : Nat

/-- Nothing is at the end of a path, or something that is no link. -/
def Kept (fs : FileSystem) (path : Path) : Prop :=
  fs.linkStat path = .error (.os Errno.noEntry) ∨
    ∃ entry, fs.linkStat path = .ok entry ∧ ∀ target, entry ≠ .link target

/-- One step of a resolution. -/
inductive Progress.Next (fs : FileSystem) : Progress → Progress → Prop
  | root {names : List Name} {source : Path} {rest : List Pending} {followed : Nat} :
      Next fs ⟨names, ⟨.root, source⟩ :: rest, followed⟩ ⟨[], rest, followed⟩
  | here {names : List Name} {source : Path} {rest : List Pending} {followed : Nat} :
      Next fs ⟨names, ⟨.here, source⟩ :: rest, followed⟩ ⟨names, rest, followed⟩
  | up {names : List Name} {source : Path} {rest : List Pending} {followed : Nat} (below : names ≠ []) :
      Next fs ⟨names, ⟨.up, source⟩ :: rest, followed⟩ ⟨names.dropLast, rest, followed⟩
  | name {names : List Name} {name : Name} {source : Path} {rest : List Pending} {followed : Nat}
      (kept : Kept fs (Path.ofNames (names ++ [name]))) :
      Next fs ⟨names, ⟨.name name, source⟩ :: rest, followed⟩ ⟨names ++ [name], rest, followed⟩
  | link {names : List Name} {name : Name} {source target : Path} {rest : List Pending} {followed : Nat}
      (found : fs.linkStat (Path.ofNames (names ++ [name])) = .ok (.link target))
      (few : followed < maxLinks) :
      Next fs ⟨names, ⟨.name name, source⟩ :: rest, followed⟩
        ⟨names, pending target ++ rest, followed + 1⟩

/-- What is answered where a resolution goes no further. -/
inductive Progress.Ends (fs : FileSystem) : Progress → Except ProviderError (List Name × Nat) → Prop
  | done {names : List Name} {followed : Nat} : Ends fs ⟨names, [], followed⟩ (.ok (names, followed))
  | outside {source : Path} {rest : List Pending} {followed : Nat} :
      Ends fs ⟨[], ⟨.up, source⟩ :: rest, followed⟩ (.error (.cantOpen source .leavesRoot))
  | unreadable {names : List Name} {name : Name} {source : Path} {rest : List Pending} {followed : Nat}
      {e : IoError} (failed : fs.linkStat (Path.ofNames (names ++ [name])) = .error e)
      (other : e ≠ .os Errno.noEntry) :
      Ends fs ⟨names, ⟨.name name, source⟩ :: rest, followed⟩
        (.error (.io .stating (Path.ofNames (names ++ [name])) e))
  | exhausted {names : List Name} {name : Name} {source target : Path} {rest : List Pending}
      (found : fs.linkStat (Path.ofNames (names ++ [name])) = .ok (.link target)) :
      Ends fs ⟨names, ⟨.name name, source⟩ :: rest, maxLinks⟩
        (.error (.cantOpen (Path.ofNames (names ++ [name])) .tooManyLinks))

/-- What a path is answered with, if this is where its names end. -/
def answer (limit : Nat) : Except ProviderError (List Name × Nat) → Except ProviderError FullName
  | .error e => .error e
  | .ok (names, followed) =>
    if limit ≤ (Path.ofNames names).bytes.length then .error (.cantOpen (Path.ofNames names) .tooLong)
    else .ok ⟨Path.ofNames names, 0 < followed⟩

/-- A path that is its own full name. -/
structure Canonical (fs : FileSystem) (limit : Nat) (path : Path) : Prop where
  absolute : path.isAbsolute = true
  /-- It has nothing but names, each after one separator, and leads nowhere by way of a link. -/
  names : ∃ names : List Name, path = Path.ofNames names ∧
    (∀ name ∈ names, Path.separator ∉ name ∧ name ≠ [] ∧ name ≠ [Path.dot] ∧
      name ≠ [Path.dot, Path.dot]) ∧
    path.components = .root :: names.map .name ∧
    ∀ before, before <+: names → ∀ target, fs.linkStat (Path.ofNames before) ≠ .ok (.link target)
  short : path.bytes.length < limit
  again : resolve fs limit path = .ok ⟨path, false⟩

variable {fs : FileSystem} {limit links left : Nat} {names full before : List Name}
  {waiting : List Pending} {path : Path}

theorem Kept.not_link {target : Path} (kept : Kept fs path) : fs.linkStat path ≠ .ok (.link target) := by
  intro found
  obtain missing | ⟨entry, there, other⟩ := id kept
  · cases missing.symm.trans found
  · cases there.symm.trans found
    exact other target rfl

namespace Progress

variable {p p' p'' : Progress} {result : Except ProviderError (List Name × Nat)}

/-! ## Resolutions end -/

/-- How many links may still be followed and how many components wait. -/
def measure (p : Progress) : Nat × Nat := (maxLinks - p.followed, p.waiting.length)

theorem Next.measure_lt (next : Next fs p p') : Prod.Lex (· < ·) (· < ·) p'.measure p.measure := by
  cases next with
  | link found few =>
    apply Prod.Lex.left
    simp only
    omega
  | root | here | up below | name kept =>
    apply Prod.Lex.right
    simp

theorem wellFounded_next (fs : FileSystem) : WellFounded fun p p' => Next fs p' p :=
  Subrelation.wf (fun next => Next.measure_lt next)
    (InvImage.wf measure (Prod.lex ⟨_, wellFounded_lt⟩ ⟨_, wellFounded_lt⟩).wf)

/-- There is one way to go on at most. -/
theorem Next.unique (next : Next fs p p') (next' : Next fs p p'') : p' = p'' := by
  cases next with
  | root => cases next'; rfl
  | here => cases next'; rfl
  | up below => cases next'; rfl
  | name kept =>
    cases next' with
    | name kept' => rfl
    | link found few => exact absurd found kept.not_link
  | link found few =>
    cases next' with
    | name kept => exact absurd found kept.not_link
    | link found' few' =>
      cases found.symm.trans found'
      rfl

theorem Ends.not_next (ends : Ends fs p result) : ¬ Next fs p p' := by
  intro next
  cases ends with
  | done => cases next
  | outside =>
    cases next with
    | up below => exact below rfl
  | unreadable failed other =>
    cases next with
    | name kept =>
      obtain missing | ⟨entry, there, -⟩ := kept
      · cases failed.symm.trans missing
        exact other rfl
      · cases failed.symm.trans there
    | link found few => cases failed.symm.trans found
  | exhausted found =>
    cases next with
    | name kept => exact kept.not_link found
    | link found few => exact Nat.lt_irrefl _ few

theorem Next.followed_le (next : Next fs p p') (few : p.followed ≤ maxLinks) : p'.followed ≤ maxLinks := by
  cases next with
  | link found few' => exact few'
  | root | here | up below | name kept => exact few

theorem reached_followed_le (reached : Relation.ReflTransGen (Next fs) p p')
    (few : p.followed ≤ maxLinks) : p'.followed ≤ maxLinks := by
  induction reached with
  | refl => exact few
  | tail _ last ih => exact last.followed_le ih

/-! ## Links are left behind -/

/-- The root and what each further name leads to are no links. -/
def Direct (fs : FileSystem) (names : List Name) : Prop :=
  ∀ before, before <+: names → Kept fs (Path.ofNames before)

theorem kept_root (fs : FileSystem) : Kept fs (Path.ofNames []) := by
  have leads : fs.LeadsTo .inspect (Path.ofNames []) 0 (.directory FileSystem.root) :=
    ⟨acceptable_nil, Nat.zero_le _, .stop⟩
  refine .inr ⟨.directory FileSystem.root, ?_, nofun⟩
  rw [FileSystem.linkStat, FileSystem.entryAt, leads.resolve_eq]
  rfl

theorem direct_nil (fs : FileSystem) : Direct fs [] := by
  intro before inside
  rw [List.prefix_nil.mp inside]
  exact kept_root fs

theorem Direct.of_prefix (direct : Direct fs names) (inside : before <+: names) : Direct fs before :=
  fun earlier first => direct earlier (first.trans inside)

theorem Direct.concat {name : Name} (direct : Direct fs names)
    (kept : Kept fs (Path.ofNames (names ++ [name]))) : Direct fs (names ++ [name]) := by
  intro before inside
  obtain rfl | shorter := List.prefix_concat_iff.mp inside
  · exact kept
  · exact direct before shorter

/-- No step leads to a link. -/
theorem Next.direct (next : Next fs p p') (direct : Direct fs p.names) : Direct fs p'.names := by
  cases next with
  | root => exact direct_nil fs
  | here => exact direct
  | up below => exact direct.of_prefix (List.dropLast_prefix _)
  | name kept => exact direct.concat kept
  | link found few => exact direct

theorem reached_direct (reached : Relation.ReflTransGen (Next fs) p p') (direct : Direct fs p.names) :
    Direct fs p'.names := by
  induction reached with
  | refl => exact direct
  | tail _ last ih => exact last.direct ih

end Progress

open Progress

/-! ## What is computed -/

/-- Appending components goes on until nothing is left to do or nothing can be done, and answers with what is
found there. -/
theorem extend_reaches (fs : FileSystem) (enough : links ≤ maxLinks) (names : List Name)
    (waiting : List Pending) :
    ∃ last result, Relation.ReflTransGen (Next fs) ⟨names, waiting, maxLinks - links⟩ last ∧
      last.Ends fs result ∧
      extend fs links names waiting = result.map fun (names, followed) => (names, maxLinks - followed) := by
  fun_induction extend fs links names waiting with
  | case1 links names =>
    have unspent : maxLinks - (maxLinks - links) = links := Nat.sub_sub_self enough
    refine ⟨_, _, .refl, .done, ?_⟩
    simp [Except.map, unspent]
  | case2 links names source rest ih =>
    obtain ⟨last, result, reached, ends, computed⟩ := ih enough
    exact ⟨last, result, .head .root reached, ends, computed⟩
  | case3 links names source rest ih =>
    obtain ⟨last, result, reached, ends, computed⟩ := ih enough
    exact ⟨last, result, .head .here reached, ends, computed⟩
  | case4 links source rest => exact ⟨_, _, .refl, .outside, rfl⟩
  | case5 links names source rest below ih =>
    obtain ⟨last, result, reached, ends, computed⟩ := ih enough
    exact ⟨last, result, .head (.up below) reached, ends, computed⟩
  | case6 links names name source rest path missing ih =>
    obtain ⟨last, result, reached, ends, computed⟩ := ih enough
    exact ⟨last, result, .head (.name (.inl missing)) reached, ends, computed⟩
  | case7 links names name source rest path e failed other =>
    exact ⟨_, _, .refl, .unreadable failed other, rfl⟩
  | case8 names name source rest path target found =>
    exact ⟨_, _, .refl, .exhausted found, rfl⟩
  | case9 names name source rest path target found left ih =>
    obtain ⟨last, result, reached, ends, computed⟩ := ih (Nat.le_of_succ_le enough)
    have few : maxLinks - (left + 1) < maxLinks := by omega
    have spent : maxLinks - left = maxLinks - (left + 1) + 1 := by omega
    rw [spent] at reached
    exact ⟨last, result, .head (.link found few) reached, ends, computed⟩
  | case10 links names name source rest path entry other found ih =>
    obtain ⟨last, result, reached, ends, computed⟩ := ih enough
    have kept : Kept fs path := .inr ⟨entry, found, fun target same => other target same⟩
    exact ⟨last, result, .head (.name kept) reached, ends, computed⟩

theorem resolve_reaches (fs : FileSystem) (limit : Nat) (path : Path) :
    ∃ last result, Relation.ReflTransGen (Next fs) ⟨[], route fs path, 0⟩ last ∧
      last.Ends fs result ∧ resolve fs limit path = answer limit result := by
  obtain ⟨last, result, reached, ends, computed⟩ := extend_reaches fs (Nat.le_refl maxLinks) [] (route fs path)
  rw [Nat.sub_self] at reached
  have few : last.followed ≤ maxLinks := reached_followed_le reached (Nat.zero_le _)
  refine ⟨last, result, reached, ends, ?_⟩
  rw [resolve, computed]
  cases ends with
  | done =>
    rename_i followed
    have spent : (maxLinks - followed < maxLinks) = (0 < followed) := by
      have more : 0 < maxLinks := by decide
      exact propext (by simp only at few; omega)
    simp only [Except.map, answer, spent]
  | outside | unreadable failed other | exhausted found => rfl

/-! ## Full names once more -/

/-- Names that lead by way of no link are kept. -/
theorem extend_direct (source : Path) (direct : Direct fs (before ++ names)) :
    extend fs links before (names.map fun name => ⟨.name name, source⟩) = .ok (before ++ names, links) := by
  induction names generalizing before with
  | nil =>
    rw [List.map_nil, extend, List.append_nil]
  | cons first rest ih =>
    have kept : Kept fs (Path.ofNames (before ++ [first])) := direct _ (by simp)
    have onward := ih ((List.append_cons before first rest) ▸ direct)
    rw [← List.append_cons] at onward
    rw [List.map_cons, extend]
    obtain missing | ⟨entry, found, other⟩ := kept
    · rw [missing]
      simpa using onward
    · rw [found]
      cases entry with
      | directory id => exact onward
      | file id => exact onward
      | link target => exact absurd rfl (other target)

theorem resolve_direct (areNames : ∀ name ∈ names, Path.IsName name) (direct : Direct fs names)
    (short : (Path.ofNames names).bytes.length < limit) :
    resolve fs limit (Path.ofNames names) = .ok ⟨Path.ofNames names, false⟩ := by
  have waiting : pending (Path.ofNames names) = ⟨.root, Path.ofNames names⟩ ::
      names.map fun name => ⟨.name name, Path.ofNames names⟩ := by
    rw [pending, Path.components_ofNames areNames, List.map_cons, List.map_map]
    rfl
  have kept : extend fs maxLinks [] (route fs (Path.ofNames names)) = .ok (names, maxLinks) := by
    rw [route, if_pos (FileSystem.isAbsolute_ofNames names), waiting, extend]
    exact extend_direct _ direct
  rw [resolve, kept]
  simp [Nat.not_le.mpr short]

theorem canonical_of_resolve {name : FullName} (named : resolve fs limit path = .ok name) :
    Canonical fs limit name.path := by
  obtain ⟨last, result, reached, ends, computed⟩ := extend_reaches fs (Nat.le_refl maxLinks) [] (route fs path)
  have direct : Direct fs last.names := reached_direct reached (direct_nil fs)
  rw [resolve] at named
  cases ends with
  | outside | unreadable failed other | exhausted found =>
    rw [computed] at named
    cases named
  | @done names followed =>
    have areNames : ∀ name ∈ names, Path.IsName name :=
      extend_names (fun _ member => by cases member) (fun _ _ member => isName_of_mem_route member) computed
    rw [computed] at named
    simp only [Except.map] at named
    split at named
    · cases named
    · rename_i inside
      cases named
      have short := Nat.lt_of_not_le inside
      refine ⟨FileSystem.isAbsolute_ofNames names, ⟨names, rfl, ?_, ?_, ?_⟩, short, ?_⟩
      · intro name member
        exact (areNames name member).plain
      · exact Path.components_ofNames areNames
      · intro before inside target
        exact (direct before inside).not_link
      · exact resolve_direct areNames direct short

/-- In every tree a path is resolved in steps of which each is the only one there is, and which come to an end.
Until then no more links are followed than may be, and the answer is what is found there. A full name is
canonical. -/
theorem resolve_canonical (fs : FileSystem) (limit : Nat) (path : Path) :
    (WellFounded fun p p' => Next fs p' p) ∧ (∀ p p' p'', Next fs p p' → Next fs p p'' → p' = p'') ∧
    (∀ p, Relation.ReflTransGen (Next fs) ⟨[], route fs path, 0⟩ p → p.followed ≤ maxLinks) ∧
    (∃ last result, Relation.ReflTransGen (Next fs) ⟨[], route fs path, 0⟩ last ∧
      last.Ends fs result ∧ (∀ p, ¬ Next fs last p) ∧ resolve fs limit path = answer limit result) ∧
    ∀ name, resolve fs limit path = .ok name → Canonical fs limit name.path := by
  obtain ⟨last, result, reached, ends, computed⟩ := resolve_reaches fs limit path
  refine ⟨wellFounded_next fs, fun _ _ _ => Next.unique, ?_,
    ⟨last, result, reached, ends, fun _ => ends.not_next, computed⟩, ?_⟩
  · intro p between
    exact reached_followed_le between (Nat.zero_le _)
  · intro name named
    exact canonical_of_resolve named

/-- For instance a link to itself leads nowhere. -/
example : resolve (FileSystem.empty.setEntry FileSystem.root [0x6C] (some (.link ⟨[0x6C]⟩))) 512
    ⟨[0x2F, 0x6C]⟩ = .error (.cantOpen ⟨[0x2F, 0x6C]⟩ .tooManyLinks) := by
  cbv

end FullName
end MappedStorage
