import MappedStorage.System.FileSystem

/-!
Walks and the links that they follow. `Walks` has one rule for each way that `FileSystem.walk` goes
on, and counts the links; the two agree (`walk_eq_ok_iff`). So a path leads to a place exactly if it
does with some number of links (`LeadsTo`), and a walk follows none of the links that it could have
followed exactly if that number is zero.
-/

namespace MappedStorage.FileSystem

/-! ## Steps -/

/-- A step that is looked up as a name. -/
structure LooksUp (intent : Intent) (slashed : Bool) (step : List UInt8)
    (rest : List (List UInt8)) : Prop where
  notHere : step ≠ [Path.dot]
  notUp : step ≠ [Path.dot, Path.dot]
  allowed : ¬ (rest = [] ∧ slashed = true ∧ intent = .create)
  short : step.length ≤ maxName

/-- A link after which these steps come is itself what is looked for. -/
def IsFinal (intent : Intent) (slashed : Bool) (rest : List (List UInt8)) : Prop :=
  rest = [] ∧ (intent = .rename ∨ intent = .inspect ∧ slashed = false)

/-- Following some steps from a directory leads to a place by way of so many links. -/
inductive Walks (fs : FileSystem) (intent : Intent) :
    DirectoryId → List (List UInt8) → Bool → Nat → Place → Prop
  | stop {here : DirectoryId} {slashed : Bool} : Walks fs intent here [] slashed 0 (.directory here)
  | stay {here : DirectoryId} {rest : List (List UInt8)} {slashed : Bool} {count : Nat}
      {place : Place} (onward : Walks fs intent here rest slashed count place) :
      Walks fs intent here ([Path.dot] :: rest) slashed count place
  | up {here : DirectoryId} {rest : List (List UInt8)} {slashed : Bool} {count : Nat} {place : Place}
      (onward : Walks fs intent (fs.directory here).parent rest slashed count place) :
      Walks fs intent here ([Path.dot, Path.dot] :: rest) slashed count place
  | vacant {here : DirectoryId} {step : List UInt8} {slashed : Bool}
      (looks : LooksUp intent slashed step []) (found : fs.lookup here step = none) :
      Walks fs intent here [step] slashed 0 (.vacant here step)
  | directory {here : DirectoryId} {step : List UInt8} {rest : List (List UInt8)} {slashed : Bool}
      {id : DirectoryId} {count : Nat} {place : Place} (looks : LooksUp intent slashed step rest)
      (found : fs.lookup here step = some (.directory id))
      (onward : Walks fs intent id rest slashed count place) :
      Walks fs intent here (step :: rest) slashed count place
  | file {here : DirectoryId} {step : List UInt8} {slashed : Bool} {id : FileId}
      (looks : LooksUp intent slashed step []) (found : fs.lookup here step = some (.file id))
      (suits : slashed = false ∨ intent = .rename) :
      Walks fs intent here [step] slashed 0 (.file here step id)
  | link {here : DirectoryId} {step : List UInt8} {slashed : Bool} {target : Path}
      (looks : LooksUp intent slashed step []) (found : fs.lookup here step = some (.link target))
      (final : IsFinal intent slashed []) : Walks fs intent here [step] slashed 0 (.link here step target)
  | follow {here : DirectoryId} {step : List UInt8} {rest : List (List UInt8)} {slashed : Bool}
      {target : Path} {count : Nat} {place : Place} (looks : LooksUp intent slashed step rest)
      (found : fs.lookup here step = some (.link target)) (passed : ¬ IsFinal intent slashed rest)
      (onward : Walks fs intent (if target.isAbsolute then root else here) (steps target ++ rest)
        (slashed || (rest = [] && isSlashed target)) count place) :
      Walks fs intent here (step :: rest) slashed (count + 1) place

instance (intent : Intent) (slashed : Bool) (rest : List (List UInt8)) :
    Decidable (IsFinal intent slashed rest) := inferInstanceAs (Decidable (_ ∧ _))

variable {fs : FileSystem} {intent : Intent} {links count : Nat} {here : DirectoryId}
  {parts : List (List UInt8)} {slashed : Bool} {place : Place} {path : Path}

theorem IsFinal.intent_eq {rest : List (List UInt8)} (final : IsFinal intent slashed rest) :
    intent = .rename ∨ intent = .inspect := final.2.imp_right And.left

/-- Only what changes or inspects names ends at a link. -/
theorem Walks.intent_eq (walks : fs.Walks intent here parts slashed count place)
    {holder : DirectoryId} {name : Name} {target : Path} (ends : place = .link holder name target) :
    intent = .rename ∨ intent = .inspect := by
  induction walks with
  | stop => cases ends
  | stay _ ih => exact ih ends
  | up _ ih => exact ih ends
  | vacant => cases ends
  | directory _ _ _ ih => exact ih ends
  | file => cases ends
  | link _ _ final => exact final.intent_eq
  | follow _ _ _ _ ih => exact ih ends

/-! ## The rules and the function -/

/-- A walk that looks a name up goes on by what it finds. -/
theorem LooksUp.walk_eq {step : List UInt8} {rest : List (List UInt8)}
    (looks : LooksUp intent slashed step rest) : fs.walk intent links here (step :: rest) slashed =
      match fs.lookup here step with
      | none => if rest = [] then .ok (.vacant here step) else .error Errno.noEntry
      | some (.directory id) => fs.walk intent links id rest slashed
      | some (.file id) =>
        if rest = [] ∧ (slashed = false ∨ intent = .rename) then .ok (.file here step id)
        else .error Errno.notDirectory
      | some (.link target) =>
        if IsFinal intent slashed rest then .ok (.link here step target)
        else match links with
          | 0 => .error Errno.tooManyLinks
          | left + 1 =>
            fs.walk intent left (if target.isAbsolute then root else here) (steps target ++ rest)
              (slashed || (rest = [] && isSlashed target)) := by
  rw [walk, if_neg looks.notHere, if_neg looks.notUp, if_neg looks.allowed,
    if_neg (Nat.not_lt.mpr looks.short)]
  rfl

theorem Walks.walk_eq (walks : fs.Walks intent here parts slashed count place)
    (enough : count ≤ links) : fs.walk intent links here parts slashed = .ok place := by
  induction walks generalizing links with
  | stop => rw [walk]
  | stay _ ih =>
    rw [walk, if_pos rfl]
    exact ih enough
  | up _ ih =>
    rw [walk, if_neg (by decide), if_pos rfl]
    exact ih enough
  | vacant looks found => rw [looks.walk_eq, found, if_pos rfl]
  | directory looks found _ ih =>
    rw [looks.walk_eq, found]
    exact ih enough
  | file looks found suits =>
    rw [looks.walk_eq, found]
    exact if_pos ⟨rfl, suits⟩
  | link looks found final =>
    rw [looks.walk_eq, found]
    exact if_pos final
  | follow looks found passed _ ih =>
    cases links with
    | zero => cases enough
    | succ left =>
      rw [looks.walk_eq, found]
      exact (if_neg passed).trans (ih (Nat.le_of_succ_le_succ enough))

theorem walks_of_walk (walked : fs.walk intent links here parts slashed = .ok place) :
    ∃ count ≤ links, fs.Walks intent here parts slashed count place := by
  fun_induction walk fs intent links here parts slashed with
  | case1 links here slashed =>
    cases walked
    exact ⟨0, Nat.zero_le _, .stop⟩
  | case2 links here slashed rest ih =>
    obtain ⟨count, few, onward⟩ := ih walked
    exact ⟨count, few, .stay onward⟩
  | case3 links here slashed rest _ ih =>
    obtain ⟨count, few, onward⟩ := ih walked
    exact ⟨count, few, .up onward⟩
  | case6 links here slashed step notHere notUp short found allowed =>
    cases walked
    exact ⟨0, Nat.zero_le _, .vacant ⟨notHere, notUp, allowed, Nat.le_of_not_lt short⟩ found⟩
  | case8 links here slashed step rest notHere notUp allowed short id found ih =>
    obtain ⟨count, few, onward⟩ := ih walked
    exact ⟨count, few, .directory ⟨notHere, notUp, allowed, Nat.le_of_not_lt short⟩ found onward⟩
  | case9 links here slashed step rest notHere notUp allowed short id found suits =>
    obtain ⟨rfl, suits⟩ := suits
    cases walked
    exact ⟨0, Nat.zero_le _, .file ⟨notHere, notUp, allowed, Nat.le_of_not_lt short⟩ found suits⟩
  | case11 links here slashed step rest notHere notUp allowed short target found final =>
    obtain ⟨rfl, _⟩ := id final
    cases walked
    exact ⟨0, Nat.zero_le _, .link ⟨notHere, notUp, allowed, Nat.le_of_not_lt short⟩ found final⟩
  | case13 here slashed step rest notHere notUp allowed short target found passed left ih =>
    simp only [dite_eq_ite] at ih
    obtain ⟨count, few, onward⟩ := ih walked
    exact ⟨count + 1, Nat.succ_le_succ few,
      .follow ⟨notHere, notUp, allowed, Nat.le_of_not_lt short⟩ found passed onward⟩
  | _ => cases walked

/-- The rules say what the function computes, if enough links may be followed. -/
theorem walk_eq_ok_iff : fs.walk intent links here parts slashed = .ok place ↔
    ∃ count ≤ links, fs.Walks intent here parts slashed count place :=
  ⟨walks_of_walk, fun ⟨_, few, walks⟩ => walks.walk_eq few⟩

/-! ## Paths -/

/-- A path that the system looks at. -/
structure IsAcceptable (path : Path) : Prop where
  plain : 0 ∉ path.bytes
  nonempty : path.bytes ≠ []
  short : path.bytes.length < maxPath

/-- A path leads to a place by way of so many links. -/
structure LeadsTo (fs : FileSystem) (intent : Intent) (path : Path) (count : Nat) (place : Place) :
    Prop where
  acceptable : IsAcceptable path
  few : count ≤ maxLinks
  walks : fs.Walks intent (if path.isAbsolute then root else fs.workingDirectory) (steps path)
    (isSlashed path) count place

theorem IsAcceptable.resolve_eq (acceptable : IsAcceptable path) : fs.resolve intent path =
    match fs.walk intent maxLinks (if path.isAbsolute then root else fs.workingDirectory)
      (steps path) (isSlashed path) with
    | .ok place => .ok place
    | .error errno => .error (.os errno) :=
  (if_neg acceptable.plain).trans <| (if_neg acceptable.nonempty).trans <|
    if_neg (Nat.not_le.mpr acceptable.short)

theorem LeadsTo.resolve_eq (leads : fs.LeadsTo intent path count place) :
    fs.resolve intent path = .ok place := by
  rw [leads.acceptable.resolve_eq, leads.walks.walk_eq leads.few]

theorem resolve_eq_ok_iff :
    fs.resolve intent path = .ok place ↔ ∃ count, fs.LeadsTo intent path count place := by
  refine ⟨fun resolved => ?_, fun ⟨_, leads⟩ => leads.resolve_eq⟩
  rw [resolve] at resolved
  split at resolved
  · cases resolved
  · split at resolved
    · cases resolved
    · split at resolved
      · cases resolved
      · rename_i plain nonempty short
        split at resolved
        · rename_i walked
          cases resolved
          obtain ⟨count, few, walks⟩ := walk_eq_ok_iff.mp walked
          exact ⟨count, ⟨plain, nonempty, Nat.lt_of_not_le short⟩, few, walks⟩
        · cases resolved

/-- Where nothing but a missing name is wrong with a path, the system has looked at it. -/
theorem IsAcceptable.of_linkStat (fs : FileSystem) (nonempty : path.bytes ≠ [])
    (looked : ∀ e, fs.linkStat path = .error e → e = .os Errno.noEntry) : IsAcceptable path := by
  have refused {e : IoError} (error : fs.resolve .inspect path = .error e) :
      e = .os Errno.noEntry :=
    looked e (by rw [linkStat, entryAt, error])
  refine ⟨fun holed => ?_, nonempty, Nat.lt_of_not_le fun long => ?_⟩
  · cases refused (by rw [resolve, if_pos holed])
  · by_cases holed : 0 ∈ path.bytes
    · cases refused (by rw [resolve, if_pos holed])
    · have error := refused (by rw [resolve, if_neg holed, if_neg nonempty, if_pos long])
      exact absurd error (by decide)

end MappedStorage.FileSystem
