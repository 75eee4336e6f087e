import MappedStorage.Proofs.Mapping.Holding
import MappedStorage.Proofs.Mapping.Medium
import MappedStorage.Proofs.System.Vacancy

/-!
The attempts to map a file that are made for a region, in order. A mapper makes two at most, the second
one plainly where a synchronous one is refused for want of support (`Mapper.Course`), and any other
refusal is what the operation fails with (`Mapper.Asks`). Of whatever is asked of a region, the mapping
in place is the one that was granted last, and the medium is that of this mapping (`Region.Maps`,
`run_attempts`).
-/

namespace MappedStorage

/-- An attempt to map a file, and what became of it. -/
structure Attempt where
  mapping : Mapping
  outcome : MapOutcome
  deriving DecidableEq

/-- The attempt to map a file that a call is. -/
def Call.attempt? : Call → Option Attempt
  | .map mapping outcome => some ⟨mapping, outcome⟩
  | _ => none

/-- The attempts on record, earliest first. -/
def Platform.attempts (p : Platform) : List Attempt := (p.calls.filterMap Call.attempt?).reverse

/-- What an operation fails with, if it does. -/
def failureOf {ε α : Type} : Except ε α → Option ε
  | .error e => some e
  | .ok _ => none

namespace Attempt

/-- The mapping that an attempt brings, or why it brings none. A null result counts as a bad address. -/
def result (a : Attempt) : Except MappingError Mapping :=
  match a.outcome with
  | .granted => .ok a.mapping
  | .refused errno => .error ⟨errno⟩
  | .null => .error ⟨Errno.badAddress⟩

/-- The mapping that was granted last. -/
def latest (tried : List Attempt) : Option Mapping :=
  (tried.filterMap fun a => a.result.toOption).getLast?

theorem latest_append (tried more : List Attempt) :
    latest (tried ++ more) = (latest more).or (latest tried) := by
  rw [latest, List.filterMap_append, List.getLast?_append]
  rfl

theorem latest_singleton (a : Attempt) : latest [a] = a.result.toOption := by
  cases granted : a.result <;> simp [latest, granted, Except.toOption]

/-- An attempt that brings a mapping brings the one that was asked for. -/
theorem eq_of_granted {a : Attempt} {m : Mapping} (granted : a.result.toOption = some m) :
    m = a.mapping := by
  rw [result] at granted
  cases outcome : a.outcome <;> rw [outcome] at granted <;> cases granted
  rfl

end Attempt

open Attempt (latest)

/-! ## One mapping -/

namespace Platform

variable {p p' : Platform}

theorem attempts_of_same (calls : p'.calls = p.calls) : p'.attempts = p.attempts ++ [] := by
  rw [attempts, calls, List.append_nil, attempts]

theorem attempts_of_call (call : Call) (made : p'.calls = call :: p.calls) :
    p'.attempts = p.attempts ++ call.attempt?.toList := by
  rw [attempts, made, List.filterMap_cons, attempts]
  cases call.attempt? <;> simp

end Platform

namespace Mapper

/-- A synchronous mapping was refused for want of support. -/
def LacksSupport (m : Mapper) (a : Attempt) : Prop :=
  a.mapping.sharing = .synchronous ∧ ∃ e, a.result = .error e ∧ e.errno ∈ m.unsupported

/-- The attempts that mapping some bytes of a file takes, and what comes of them. -/
inductive Course (m : Mapper) (len : Nat) :
    List Attempt → Except MappingError (Mapping × Medium) → Prop
  | nothing (empty : len = 0) : m.Course len [] (.error ⟨Errno.invalid⟩)
  | once {a : Attempt} (asked : a.mapping.len = len)
      (first : a.mapping.sharing = if m.Detects then .synchronous else .plain)
      (settled : ¬ m.LacksSupport a) :
      m.Course len [a] (a.result.map fun mapping => (mapping, m.mediumOf mapping))
  | twice {a b : Attempt} (detects : m.Detects) (lacks : m.LacksSupport a) (asked : b.mapping.len = len)
      (plain : b.mapping.sharing = .plain) :
      m.Course len [a, b] (b.result.map fun mapping => (mapping, m.mediumOf mapping))

theorem lacksSupport_iff {m : Mapper} {a : Attempt} {e : MappingError} (refused : a.result = .error e) :
    m.LacksSupport a ↔ a.mapping.sharing = .synchronous ∧ e.errno ∈ m.unsupported := by
  simp [LacksSupport, refused]

theorem not_lacksSupport {m : Mapper} {a : Attempt} {mapping : Mapping} (granted : a.result = .ok mapping) :
    ¬ m.LacksSupport a := by
  simp [LacksSupport, granted]

section

variable (m : Mapper) (h : Handle) (len : Nat) (p : Platform)

/-- An attempt goes on record, with what it comes to. -/
theorem attempt_attempts (sharing : Sharing) :
    ∃ a : Attempt, (attempt h len sharing p).2.attempts = p.attempts ++ [a] ∧
      a.mapping.len = len ∧ a.mapping.sharing = sharing ∧ (attempt h len sharing p).1 = a.result := by
  unfold attempt Platform.map
  rcases Platform.planned p.plan sharing with ⟨planned, plan⟩
  dsimp only
  generalize AddressSpace.place len (p.live.map Mapping.range) = room
  generalize Platform.decide plan h len room planned = outcome
  refine ⟨⟨⟨room.getD 0, len, h.file, sharing⟩, outcome⟩, ?_, rfl, rfl, ?_⟩
  · cases outcome <;> exact Platform.attempts_of_call (.map _ _) rfl
  · cases outcome <;> rfl

theorem mapPlain_attempts :
    ∃ a : Attempt, (m.mapPlain h len p).2.attempts = p.attempts ++ [a] ∧ a.mapping.len = len ∧
      a.mapping.sharing = .plain ∧
      (m.mapPlain h len p).1 = a.result.map fun mapping => (mapping, m.mediumOf mapping) := by
  obtain ⟨a, attempts, asked, plain, result⟩ := attempt_attempts h len p .plain
  refine ⟨a, ?_, asked, plain, ?_⟩
  all_goals
    rw [mapPlain]
    rcases attempted : attempt h len .plain p with ⟨_ | mapping, q⟩ <;> rw [attempted] at attempts result
  · exact attempts
  · exact attempts
  · rw [← result]
    rfl
  · have plainly := attempt_sharing attempted
    rw [← result, Except.map, mediumOf, if_neg (by simp [plainly])]

/-- A mapper tries a synchronous mapping first where that tells the medium, and a plain one after it only
where it is refused for want of support. -/
theorem map_course :
    ∃ tried, (m.map h len p).2.attempts = p.attempts ++ tried ∧ m.Course len tried (m.map h len p).1 := by
  rw [map]
  by_cases empty : len = 0
  · rw [if_pos empty]
    exact ⟨[], Platform.attempts_of_same rfl, .nothing empty⟩
  rw [if_neg empty]
  by_cases detects : m.detection = .automatic ∧ m.offersSynchronous = true
  · -- The first attempt is the last one too, unless a synchronous mapping is refused for want of support.
    obtain ⟨a, attempts, asked, synchronous, result⟩ := attempt_attempts h len p .synchronous
    have once (settled : ¬ m.LacksSupport a) :
        m.Course len [a] (a.result.map fun mapping => (mapping, m.mediumOf mapping)) :=
      .once asked (by rw [synchronous, if_pos (c := m.Detects) detects]) settled
    rw [if_pos detects]
    rcases attempted : attempt h len .synchronous p with ⟨e | mapping, q⟩ <;>
      rw [attempted] at attempts result <;> dsimp only at attempts result ⊢
    · by_cases lacks : e.errno ∈ m.unsupported
      · obtain ⟨b, more, asked', plain, outcome⟩ := m.mapPlain_attempts h len q
        rw [if_pos lacks, outcome]
        exact ⟨[a, b], by rw [more, attempts, List.append_assoc]; rfl,
          .twice detects ⟨synchronous, e, result.symm, lacks⟩ asked' plain⟩
      · have settled : ¬ m.LacksSupport a := fun both => lacks ((lacksSupport_iff result.symm).mp both).2
        rw [← result] at once
        rw [if_neg lacks]
        exact ⟨[a], attempts, once settled⟩
    · have medium : m.mediumOf mapping = .persistent := if_pos ⟨detects, attempt_sharing attempted⟩
      rw [← result, Except.map, medium] at once
      exact ⟨[a], attempts, once (not_lacksSupport result.symm)⟩
  · obtain ⟨a, attempts, asked, plain, result⟩ := m.mapPlain_attempts h len p
    rw [if_neg detects, result]
    refine ⟨[a], attempts, .once asked ?_ fun lacks => ?_⟩
    · rw [plain, if_neg (c := m.Detects) detects]
    · cases plain.symm.trans lacks.1

theorem unmap_attempts (mapping : Mapping) : (unmap mapping p).2.attempts = p.attempts := by
  rw [snd_unmap]
  rfl

end

/-- How an operation over the file of a path asks for mappings, and what it fails with if it does: it makes
two attempts at most, a plain one after a synchronous one only where that was refused for want of support,
and any other refusal is reported. -/
structure Asks (m : Mapper) (path : Path) (tried : List Attempt) (failure : Option RegionError) : Prop where
  few : tried.length ≤ 2
  first : ∀ a ∈ tried.head?, a.mapping.sharing = if m.Detects then .synchronous else .plain
  once : ∀ a, tried = [a] → ¬ m.LacksSupport a
  twice : ∀ a b, tried = [a, b] → m.LacksSupport a ∧ b.mapping.sharing = .plain
  reported : ∀ a ∈ tried, ∀ e, a.result = .error e → ¬ m.LacksSupport a →
    failure = some (Region.mapFailure path a.mapping.len e)

variable {m : Mapper} {len : Nat} {tried : List Attempt} {result : Except MappingError (Mapping × Medium)}

theorem Asks.nothing (m : Mapper) (path : Path) (failure : Option RegionError) : m.Asks path [] failure :=
  ⟨Nat.zero_le 2, by simp, by simp, by simp, by simp⟩

/-- The attempts that map a file are those of an operation that fails as the mapping does. -/
theorem Course.asks (course : m.Course len tried result) (path : Path) :
    m.Asks path tried ((failureOf result).map (Region.mapFailure path len)) := by
  cases course with
  | nothing => exact .nothing ..
  | @once a asked first settled =>
    refine ⟨Nat.le_succ 1, ?_, ?_, by simp, ?_⟩
    · rintro _ ⟨⟩
      exact first
    · rintro _ ⟨⟩
      exact settled
    · intro _ member e refused _
      cases List.mem_singleton.mp member
      rw [refused, asked]
      rfl
  | @twice a b detects lacks asked plain =>
    refine ⟨Nat.le_refl 2, ?_, by simp, ?_, ?_⟩
    · rintro _ ⟨⟩
      rw [lacks.1, if_pos detects]
    · rintro _ _ ⟨⟩
      exact ⟨lacks, plain⟩
    · intro c member e refused settled
      rcases List.mem_pair.mp member with rfl | rfl
      · exact absurd lacks settled
      · rw [refused, asked]
        rfl

/-- What is mapped is what was granted last. -/
theorem Course.latest_eq (course : m.Course len tried result) :
    latest tried = result.toOption.map Prod.fst := by
  cases course with
  | nothing => rfl
  | @once a =>
    rw [Attempt.latest_singleton]
    cases a.result <;> rfl
  | @twice a b _ lacks =>
    obtain ⟨-, e, refused, -⟩ := lacks
    rw [← List.singleton_append, Attempt.latest_append, Attempt.latest_singleton, Attempt.latest_singleton,
      refused]
    cases b.result <;> rfl

/-- A synchronous mapping is granted only where one was asked for to find the medium out. -/
theorem Course.detects {mapping : Mapping} (course : m.Course len tried result)
    (granted : latest tried = some mapping) (synchronous : mapping.sharing = .synchronous) : m.Detects := by
  cases course with
  | nothing => cases granted
  | @once a asked first =>
    rw [Attempt.latest_singleton] at granted
    rw [Attempt.eq_of_granted granted, first] at synchronous
    by_contra fixed
    rw [if_neg fixed] at synchronous
    cases synchronous
  | twice detects => exact detects

end Mapper

/-- What a region answers with where it does not do what was asked. -/
def RegionAnswer.failure : RegionAnswer → Option RegionError
  | .wrote result => failureOf result
  | .read result _ | .reserved result | .flushed result => failureOf result

namespace Region

/-- What attempts to map the file of a region make of it, in an operation that fails as said or does not: the
mapping that was granted last is in place and tells the medium, and an operation that fails gets none. -/
structure Maps (r : Region) (tried : List Attempt) (failure : Option RegionError) (r' : Region) : Prop where
  setup : r'.setup = r.setup
  asks : r.setup.mapper.Asks r.path tried failure
  mapped : r'.mapped = (latest tried).or r.mapped
  medium : r'.medium = (latest tried).elim r.medium r.setup.mapper.mediumOf
  detects : ∀ m ∈ latest tried, m.sharing = .synchronous → r.setup.mapper.Detects
  kept : failure ≠ none → latest tried = none

/-- What opening a region over the file of a path comes to, or over an open file that has the path for a
label. -/
inductive Opens (setup : RegionSetup) (path : Path) (p : Platform) :
    Except RegionError Region → Platform → Prop
  | named {result : Except RegionError Region} {p' : Platform}
      (opening : Region.open path setup p = (result, p')) : Opens setup path p result p'
  | attached {h : Handle} {result : Except RegionError Region} {p' : Platform}
      (opening : ofHandle h path setup p = (result, p')) : Opens setup path p result p'

/-- A region at some time of its life, with the attempts to map its file that have been made for it. It is
asked for things on any platform: anything may have happened to files and mappings in between. -/
inductive Tried (setup : RegionSetup) : Region → List Attempt → Prop
  | opened {path : Path} {p p' : Platform} {r : Region} {tried : List Attempt}
      (opens : Opens setup path p (.ok r) p') (attempts : p'.attempts = p.attempts ++ tried) :
      Tried setup r tried
  | served {r r' : Region} {p p' : Platform} {tried more : List Attempt} {request : RegionRequest}
      {answer : RegionAnswer} (before : Tried setup r tried)
      (serving : r.serve p request = (answer, r', p')) (attempts : p'.attempts = p.attempts ++ more) :
      Tried setup r' (tried ++ more)
  | counted {r : Region} {tried : List Attempt} (before : Tried setup r tried) (len : Nat) :
      Tried setup (r.countUsed len) tried
  | closed {r r' : Region} {p p' : Platform} {tried : List Attempt} {result : Except RegionError Unit}
      (before : Tried setup r tried) (closing : r.close p = (result, r', p')) : Tried setup r' tried

variable {r r' : Region} {p p' : Platform} {setup : RegionSetup} {tried : List Attempt}
  {failure : Option RegionError}

theorem Maps.nothing (r : Region) (failure : Option RegionError) : r.Maps [] failure r :=
  ⟨rfl, .nothing .., rfl, rfl, nofun, fun _ => rfl⟩

/-- What is said of the attempts depends on nothing else of the region. -/
theorem Maps.of_same {s : Region} (maps : r.Maps tried failure s) (mapped : r'.mapped = s.mapped)
    (medium : r'.medium = s.medium) (setup : r'.setup = s.setup) : r.Maps tried failure r' :=
  ⟨setup.trans maps.setup, maps.asks, mapped.trans maps.mapped, medium.trans maps.medium, maps.detects,
    maps.kept⟩

/-! ### Growing -/

theorem remap_maps {capacity : Nat} {result : Except RegionError Unit}
    (remapped : r.remap capacity p = (result, r', p')) :
    ∃ tried, p'.attempts = p.attempts ++ tried ∧ r.Maps tried (failureOf result) r' := by
  cases remap_cases remapped with
  | short => exact ⟨[], Platform.attempts_of_same rfl, (Maps.nothing r _).of_same rfl rfl rfl⟩
  | @refused e file files _ _ mapping =>
    obtain ⟨tried, attempts, course⟩ := r.setup.mapper.map_course file.handle capacity { p with files }
    rw [mapping] at attempts course
    have none_granted : latest tried = none := course.latest_eq
    refine ⟨tried, attempts, rfl, course.asks r.path, ?_, ?_, ?_, fun _ => none_granted⟩ <;>
      rw [none_granted]
    · rfl
    · rfl
    · exact nofun
  | @granted m medium file files q _ mapping =>
    obtain ⟨tried, attempts, course⟩ := r.setup.mapper.map_course file.handle capacity { p with files }
    rw [mapping] at attempts course
    have granted : latest tried = some m := course.latest_eq
    have tells := Mapper.map_medium mapping
    refine ⟨tried, ?_, rfl, course.asks r.path, ?_, ?_, ?_, (absurd rfl ·)⟩
    · cases r.mapped with
      | none => exact attempts
      | some old => exact (Mapper.unmap_attempts q old).trans attempts
    all_goals rw [granted]
    · rfl
    · exact tells
    · rintro n ⟨⟩
      exact course.detects granted

theorem reserve_maps {least : Nat} {result : Except RegionError Unit}
    (reserved : r.reserve least p = (result, r', p')) :
    ∃ tried, p'.attempts = p.attempts ++ tried ∧ r.Maps tried (failureOf result) r' := by
  cases reserve_cases reserved with
  | closed | covered | excessive => exact ⟨[], Platform.attempts_of_same rfl, .nothing ..⟩
  | refused _ _ remapped => exact remap_maps remapped
  | enlarged _ _ remapped =>
    obtain ⟨tried, attempts, maps⟩ := remap_maps remapped
    exact ⟨tried, attempts, maps.of_same rfl rfl rfl⟩

theorem write_maps {offset : Nat} {data : Bytes} {result : Except RegionError Span}
    (wrote : r.write offset data p = (result, r', p')) :
    ∃ tried, p'.attempts = p.attempts ++ tried ∧ r.Maps tried (failureOf result) r' := by
  cases write_cases wrote with
  | closed | beyond | empty => exact ⟨[], Platform.attempts_of_same rfl, .nothing ..⟩
  | refused reserved => exact reserve_maps reserved
  | @stored s q _ reserved =>
    obtain ⟨tried, attempts, maps⟩ := reserve_maps reserved
    refine ⟨tried, ?_, maps.of_same rfl rfl rfl⟩
    rw [Platform.attempts, s.put_calls]
    exact attempts

/-- A flush maps nothing. -/
theorem flush_attempts (r : Region) (f : Flush) (p : Platform) :
    (r.flush f p).2.attempts = p.attempts := by
  obtain ⟨_, flushed⟩ | ⟨m, first, count, failure, p', _, _, _, call, flushed⟩ := r.flush_cases f p
  · rw [flushed]
  · have calls := p.flush_calls f.medium m first count
    rw [call] at calls
    rw [flushed]
    exact (Platform.attempts_of_call _ calls).trans (List.append_nil _)

theorem trim_setup (r : Region) (p : Platform) : (r.trim p).2.1.setup = r.setup := by
  unfold trim
  split
  · split <;> rfl
  · rfl

theorem detach_attempts (r : Region) (p : Platform) : (r.detach p).2.2.attempts = p.attempts := by
  unfold detach
  split
  · rfl
  · rename_i m _
    have released := Mapper.unmap_attempts p m
    split <;> rename_i unmapped <;> rw [unmapped] at released <;> exact released

/-- Closing maps nothing, and leaves no mapping unless the region was closed with it. -/
theorem close_attempts {result : Except RegionError Unit} (closing : r.close p = (result, r', p')) :
    p'.attempts = p.attempts ∧ r'.setup = r.setup ∧ (r'.mapped = none ∨ r' = r) := by
  unfold close at closing
  by_cases closed : r.closed = true
  · rw [if_pos closed] at closing
    cases closing
    exact ⟨rfl, rfl, .inr rfl⟩
  · rw [if_neg closed] at closing
    have released := detach_attempts { r with closed := true } p
    obtain ⟨-, detached⟩ := detach_trades { r with closed := true } p
    rcases detaching : ({ r with closed := true } : Region).detach p with ⟨outcome, s, q⟩
    rw [detaching] at closing released detached
    dsimp only at detached
    subst detached
    obtain ⟨-, calls, mapped, -⟩ := trim_same { r with closed := true, mapped := none } q
    have setup := trim_setup { r with closed := true, mapped := none } q
    rcases trimming : ({ r with closed := true, mapped := none } : Region).trim q with ⟨trimmed, t, o⟩
    simp only [trimming] at closing calls mapped setup
    have same : r' = t ∧ p' = o := by cases outcome <;> cases closing <;> exact ⟨rfl, rfl⟩
    obtain ⟨rfl, rfl⟩ := same
    refine ⟨?_, setup, .inl mapped⟩
    rw [Platform.attempts, calls]
    exact released

theorem serve_maps {request : RegionRequest} {answer : RegionAnswer}
    (serving : r.serve p request = (answer, r', p')) :
    ∃ tried, p'.attempts = p.attempts ++ tried ∧ r.Maps tried answer.failure r' := by
  cases request with
  | write offset data =>
    cases serving
    exact write_maps rfl
  | reserve least =>
    cases serving
    exact reserve_maps rfl
  | read offset buffer =>
    cases serving
    exact ⟨[], Platform.attempts_of_same rfl, .nothing ..⟩
  | flush f =>
    cases serving
    exact ⟨[], (r.flush_attempts f p).trans (List.append_nil _).symm, .nothing ..⟩
  | flushWhole =>
    cases serving
    exact ⟨[], (r.flush_attempts _ p).trans (List.append_nil _).symm, .nothing ..⟩

/-! ### Opening -/

/-- A file is mapped for a region that has no mapping yet, and the region is given up if that fails. -/
theorem ofTrackedFile_maps {f : TrackedFile} {result : Except RegionError Region}
    (opened : ofTrackedFile f setup p = (result, p')) :
    ∃ tried, p'.attempts = p.attempts ++ tried ∧ setup.mapper.Asks f.path tried (failureOf result) ∧
      ∀ r, result = .ok r → (unmappedOver f setup).Maps tried none r := by
  unfold ofTrackedFile at opened
  cases sizes : initialSizes setup f.len with
  | error e =>
    rw [sizes] at opened
    cases opened
    exact ⟨[], Platform.attempts_of_same rfl, .nothing .., fun _ opened => by cases opened⟩
  | ok both =>
    obtain ⟨capacity, used⟩ := both
    obtain ⟨rfl, -⟩ := initialSizes_eq_ok sizes
    simp only [sizes] at opened
    by_cases nothing : capacity = 0
    · rw [if_pos nothing] at opened
      cases opened
      refine ⟨[], Platform.attempts_of_same rfl, .nothing .., ?_⟩
      rintro r ⟨⟩
      exact .nothing ..
    · rw [if_neg nothing] at opened
      rcases remapping : (unmappedOver f setup).remap capacity p with ⟨outcome, r, q⟩
      obtain ⟨tried, attempts, maps⟩ := remap_maps remapping
      unfold unmappedOver at remapping
      rw [remapping] at opened
      cases outcome with
      | ok =>
        cases opened
        refine ⟨tried, attempts, maps.asks, ?_⟩
        rintro r ⟨⟩
        exact maps
      | error e =>
        cases opened
        exact ⟨tried, (close_attempts rfl).1.trans attempts, maps.asks, fun _ opened => by cases opened⟩

theorem Opens.maps {path : Path} {result : Except RegionError Region} (opens : Opens setup path p result p') :
    ∃ tried, p'.attempts = p.attempts ++ tried ∧ setup.mapper.Asks path tried (failureOf result) ∧
      ∀ r, result = .ok r → ∃ f, (unmappedOver f setup).Maps tried none r := by
  have tracked {f : TrackedFile} {q : Platform} (opening : ofTrackedFile f setup q = (result, p'))
      (label : f.path = path) (same : q.attempts = p.attempts) :
      ∃ tried, p'.attempts = p.attempts ++ tried ∧ setup.mapper.Asks path tried (failureOf result) ∧
        ∀ r, result = .ok r → ∃ f, (unmappedOver f setup).Maps tried none r := by
    obtain ⟨tried, attempts, asks, maps⟩ := ofTrackedFile_maps opening
    rw [same] at attempts
    rw [label] at asks
    exact ⟨tried, attempts, asks, fun r opened => ⟨f, maps r opened⟩⟩
  cases opens with
  | attached opening => exact tracked opening rfl rfl
  | named opening =>
    rw [Region.open] at opening
    obtain ⟨h, -, -, found⟩ | ⟨holder, name, -, found⟩ | ⟨e, found⟩ :=
      p.files.openOrCreate_cases path <;> rw [found] at opening
    · exact tracked opening rfl rfl
    · exact tracked opening rfl rfl
    · cases opening
      exact ⟨[], Platform.attempts_of_same rfl, .nothing .., fun _ opened => by cases opened⟩

/-! ### Runs -/

/-- What the attempts tell of a region: the mapping in place is the one that was granted last, and the medium
is that of this mapping. -/
structure Accounted (setup : RegionSetup) (r : Region) (tried : List Attempt) : Prop where
  setup_eq : r.setup = setup
  mapped : ∀ m, r.mapped = some m → latest tried = some m
  medium : ∀ m, r.mapped = some m → r.medium = setup.mapper.mediumOf m
  detects : ∀ m, r.mapped = some m → m.sharing = .synchronous → setup.mapper.Detects

theorem Accounted.maps {more : List Attempt} (accounted : r.Accounted setup tried)
    (maps : r.Maps more failure r') : r'.Accounted setup (tried ++ more) := by
  have setup_eq := maps.setup.trans accounted.setup_eq
  have mapped := maps.mapped
  have medium := maps.medium
  have detects := maps.detects
  rw [accounted.setup_eq] at medium detects
  have last := Attempt.latest_append tried more
  -- What was granted last is new, or there is nothing new and all is as it was.
  cases granted : latest more with
  | none =>
    rw [granted, Option.none_or] at mapped last
    rw [granted, Option.elim_none] at medium
    refine ⟨setup_eq, ?_, ?_, ?_⟩ <;> rw [mapped]
    · rw [last]
      exact accounted.mapped
    · rw [medium]
      exact accounted.medium
    · exact accounted.detects
  | some n =>
    rw [granted, Option.some_or] at mapped last
    rw [granted, Option.elim_some] at medium
    refine ⟨setup_eq, ?_, ?_, ?_⟩ <;> rw [mapped] <;> rintro m ⟨⟩
    · exact last
    · exact medium
    · exact detects n granted

theorem Tried.accounted (history : Tried setup r tried) : r.Accounted setup tried := by
  induction history with
  | opened opens attempts =>
    obtain ⟨made, attempts', -, maps⟩ := opens.maps
    obtain ⟨f, maps⟩ := maps _ rfl
    cases List.append_cancel_left (attempts.symm.trans attempts')
    have unmapped : (unmappedOver f setup).Accounted setup [] := ⟨rfl, nofun, nofun, nofun⟩
    exact unmapped.maps maps
  | served before serving attempts accounted =>
    obtain ⟨made, attempts', maps⟩ := serve_maps serving
    cases List.append_cancel_left (attempts.symm.trans attempts')
    exact accounted.maps maps
  | counted before len accounted =>
    exact ⟨accounted.setup_eq, accounted.mapped, accounted.medium, accounted.detects⟩
  | closed before closing accounted =>
    obtain ⟨-, setup_eq, unmapped | rfl⟩ := close_attempts closing
    · refine ⟨setup_eq.trans accounted.setup_eq, ?_, ?_, ?_⟩ <;> rw [unmapped] <;> exact nofun
    · exact accounted

/-- The medium is persistent where that is forced, or found out by the synchronous mapping in place. -/
theorem Accounted.medium_eq_persistent_iff {m : Mapping} (accounted : r.Accounted setup tried)
    (mapped : r.mapped = some m) :
    r.medium = .persistent ↔ setup.mapper.detection = .persistent ∨
      setup.mapper.detection = .automatic ∧ m.sharing = .synchronous := by
  rw [accounted.medium m mapped, Mapper.mediumOf, Mapper.plainMedium]
  by_cases synchronous : m.sharing = .synchronous
  · obtain ⟨automatic, offers⟩ := accounted.detects m mapped synchronous
    rw [if_pos ⟨⟨automatic, offers⟩, synchronous⟩]
    simp [automatic, synchronous]
  · rw [if_neg fun both => synchronous both.2]
    simp [synchronous]

/-- Whatever a region is asked for and whichever attempts are refused, the medium is that of the mapping in
place, which was granted last. Opening and growing make two attempts at most, a plain one after a synchronous
one only where that was refused for want of support. What else is refused is reported, and leaves mapping and
medium as they were. -/
theorem run_attempts (history : Tried setup r tried) :
    (∀ m, r.mapped = some m → latest tried = some m ∧
      (r.medium = .persistent ↔ setup.mapper.detection = .persistent ∨
        setup.mapper.detection = .automatic ∧ m.sharing = .synchronous)) ∧
    (∀ p request,
      let (answer, r', p') := r.serve p request
      ∃ more, p'.attempts = p.attempts ++ more ∧ setup.mapper.Asks r.path more answer.failure ∧
        (answer.failure ≠ none → r'.mapped = r.mapped ∧ r'.medium = r.medium)) ∧
    ∀ path p result p', Opens setup path p result p' →
      ∃ more, p'.attempts = p.attempts ++ more ∧ setup.mapper.Asks path more (failureOf result) := by
  have accounted := history.accounted
  refine ⟨fun m mapped => ⟨accounted.mapped m mapped, accounted.medium_eq_persistent_iff mapped⟩, ?_, ?_⟩
  · intro p request
    rcases serving : r.serve p request with ⟨answer, r', p'⟩
    obtain ⟨more, attempts, maps⟩ := serve_maps serving
    refine ⟨more, attempts, accounted.setup_eq ▸ maps.asks, fun fails => ?_⟩
    have none_granted := maps.kept fails
    rw [maps.mapped, maps.medium, none_granted]
    exact ⟨rfl, rfl⟩
  · intro path p result p' opens
    obtain ⟨more, attempts, asks, -⟩ := opens.maps
    exact ⟨more, attempts, asks⟩

/-- For instance a region that is persistent at first, and not once it has grown: no synchronous mapping of
the longer file is granted. -/
theorem growth_loses_persistence :
    let setup : RegionSetup := {}
    let start : Platform :=
      { files := .empty, plan := { synchronous := [.granted, .refused Errno.notSupported] } }
    ∃ r p r' p' tried, Region.open ⟨[0x78]⟩ setup start = (.ok r, p) ∧ r.medium = .persistent ∧
      r.serve p (.reserve 9000) = (.reserved (.ok ()), r', p') ∧ r'.medium = .emulated ∧
      p'.attempts = tried ∧ tried.length = 3 ∧ Tried setup r' tried ∧
      (∀ m, r'.mapped = some m → latest tried = some m ∧
        (r'.medium = .persistent ↔ setup.mapper.detection = .persistent ∨
          setup.mapper.detection = .automatic ∧ m.sharing = .synchronous)) ∧
      (∀ p request,
        let (answer, r'', p'') := r'.serve p request
        ∃ more, p''.attempts = p.attempts ++ more ∧ setup.mapper.Asks r'.path more answer.failure ∧
          (answer.failure ≠ none → r''.mapped = r'.mapped ∧ r''.medium = r'.medium)) ∧
      ∀ path p result p', Opens setup path p result p' →
        ∃ more, p'.attempts = p.attempts ++ more ∧ setup.mapper.Asks path more (failureOf result) := by
  intro setup start
  have grown : ((Region.open ⟨[0x78]⟩ setup start).1.toOption.map fun r =>
      let made := r.reserve 9000 (Region.open ⟨[0x78]⟩ setup start).2
      (r.medium, made.1.isOk, made.2.1.medium, made.2.2.attempts.length)) =
        some (.persistent, true, .emulated, 3) := by
    dsimp +zetaDelta only
    cbv
  rcases opened : Region.open ⟨[0x78]⟩ setup start with ⟨_ | r, p⟩ <;> rw [opened] at grown
  · cases grown
  dsimp only [Except.toOption, Option.map_some] at grown
  rcases reserved : r.reserve 9000 p with ⟨_ | _, r', p'⟩ <;> rw [reserved] at grown
  · simp [Except.isOk, Except.toBool] at grown
  simp only [Option.some.injEq, Prod.mk.injEq] at grown
  obtain ⟨before, -, after, three⟩ := grown
  have serving : r.serve p (.reserve 9000) = (.reserved (.ok ()), r', p') := by rw [serve, reserved]
  obtain ⟨more, attempts, -⟩ := serve_maps serving
  have history : Tried setup r' (p.attempts ++ more) := .served (.opened (.named opened) rfl) serving attempts
  exact ⟨r, p, r', p', _, rfl, before, serving, after, attempts, attempts ▸ three, history,
    run_attempts history⟩

end Region
end MappedStorage
