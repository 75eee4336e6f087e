import MappedStorage.Proofs.Session
import MappedStorage.Proofs.Store.Holding
import MappedStorage.Session

/-!
Runs of shared indexes. An event makes an index, asks one to do something, or gives it up. The slots that
an index has handed out are kept account of until it is unmapped (`Indexes.handedOut`), and every mapping
in place is that of one index (`run_held`).
-/

namespace MappedStorage

/-- What a shared index is asked to do. -/
inductive IndexRequest where
  | slot (index slotSize : Nat) (extend : Bool)
  /-- Stores a word of a slot. -/
  | storeWord (slot : Slot) (i word : Nat)
  /-- Stores one byte all over a slot. -/
  | fill (slot : Slot) (byte : UInt8)
  | barrier
  | unmap (delete : Bool)

/-- What a shared index answers. -/
inductive IndexAnswer where
  | slot (result : Except ProviderError (Option Slot))
  /-- Whether the bytes were there to be stored to. -/
  | stored (done : Bool)
  | done (result : Except ProviderError Unit)
  /-- No index has the name. -/
  | nobody

/-- The slots that are handed out after an answer. -/
def IndexAnswer.record (slots : List Slot) : IndexAnswer → List Slot
  | .slot (.ok (some new)) => new :: slots
  | _ => slots

namespace SharedIndex

/-- Stores a word of a slot, if it is mapped and has the word. -/
def storeWord? (x : SharedIndex) (slot : Slot) (i word : Nat) (p : Platform) : Option Platform :=
  match x.wordsOf? slot with
  | some words => if i < words.count then some (words.store i word p) else none
  | none => none

/-- Does what is asked of an index. -/
def serve (x : SharedIndex) (p : Platform) : IndexRequest → IndexAnswer × SharedIndex × Platform
  | .slot index slotSize extend =>
    let (result, x, p) := x.requestSlot index slotSize extend p
    (.slot result, x, p)
  | .storeWord slot i word =>
    match x.storeWord? slot i word p with
    | some p => (.stored true, x, p)
    | none => (.stored false, x, p)
  | .fill slot byte =>
    match x.fillSlot? slot byte p with
    | some (_, p) => (.stored true, x, p)
    | none => (.stored false, x, p)
  | .barrier =>
    let (result, p) := x.barrier p
    (.done result, x, p)
  | .unmap delete =>
    let (result, x, p) := x.unmap delete p
    (.done result, x, p)

/-- Gives the index up. -/
def drop (x : SharedIndex) (p : Platform) : Platform := (x.unmap false p).2.2

end SharedIndex

/-- What happens to shared indexes. A new index takes the place of the one that had the name, which is
dropped. -/
inductive IndexEvent where
  | new (name : String) (path : Path) (setup : RegionSetup) (baseSize : Nat)
  | ask (name : String) (request : IndexRequest)
  | drop (name : String)

/-- The name of the index that an event is about. -/
def IndexEvent.name : IndexEvent → String
  | .new name _ _ _ | .ask name _ | .drop name => name

/-- The index of a name is unmapped, given up or replaced. -/
def IndexEvent.ends (name : String) : IndexEvent → Bool
  | .new other .. => other = name
  | .ask other (.unmap _) => other = name
  | .ask .. => false
  | .drop other => other = name

/-- Shared indexes by name, with the platform below them. -/
abbrev Indexes := Session SharedIndex Platform

namespace Indexes

/-- No index is there yet. -/
def start (p : Platform) : Indexes := { state := p }

/-- What one event answers and does. -/
def step (s : Indexes) : IndexEvent → IndexAnswer × Indexes
  | .new name path setup baseSize =>
    (.done (.ok ()), (s.drop name SharedIndex.drop).put name (.new path setup baseSize))
  | .ask name request => (s.act name fun x p => x.serve p request).getD (.nobody, s)
  | .drop name => (.done (.ok ()), s.drop name SharedIndex.drop)

/-- The indexes after some events. -/
def run (s : Indexes) (events : List IndexEvent) : Indexes := events.foldl (fun s e => (s.step e).2) s

/-- The account of the slots that the index of each name has handed out. -/
def note (s : Indexes) (slots : String → List Slot) (e : IndexEvent) : String → List Slot :=
  fun name =>
    if e.ends name then []
    else if e.name = name then (s.step e).1.record (slots name)
    else slots name

/-- The slots that the index of each name has handed out since it was last unmapped. -/
def handedOut (s : Indexes) (slots : String → List Slot) : List IndexEvent → String → List Slot
  | [] => slots
  | e :: rest => handedOut (s.step e).2 (s.note slots e) rest

/-- The regions of all indexes. -/
def regions (s : Indexes) : List Region := s.objects.gather SharedIndex.regions

/-- Every mapping in place is that of one region of an index. -/
structure Held (s : Indexes) : Prop where
  proper : ∀ r ∈ s.regions, r.Proper
  holds : s.state.Holds (Region.mappings s.regions)

variable {s : Indexes} {name : String} {x : SharedIndex}

/-! ## One step -/

theorem step_ask (found : s.find? name = some x) (request : IndexRequest) :
    s.step (.ask name request) = ((x.serve s.state request).1,
      { s.update name (x.serve s.state request).2.1 with state := (x.serve s.state request).2.2 }) := by
  simp only [step, Session.act, found, Option.map_some, Option.getD_some]

theorem step_ask_of_none (absent : s.find? name = none) (request : IndexRequest) :
    s.step (.ask name request) = (.nobody, s) := by
  simp only [step, Session.act, absent, Option.map_none, Option.getD_none]

theorem run_append (s : Indexes) (before after : List IndexEvent) :
    s.run (before ++ after) = (s.run before).run after := List.foldl_append

theorem handedOut_append (s : Indexes) (slots : String → List Slot) (before after : List IndexEvent) :
    s.handedOut slots (before ++ after) = (s.run before).handedOut (s.handedOut slots before) after := by
  induction before generalizing s slots with
  | nil => rfl
  | cons e rest ih => exact ih (s.step e).2 (s.note slots e)

end Indexes

namespace SharedIndex

variable {x : SharedIndex} {p p' : Platform}

theorem storeWord?_same {slot : Slot} {i word : Nat} (stored : x.storeWord? slot i word p = some p') :
    p'.live = p.live ∧ p'.calls = p.calls := by
  unfold storeWord? at stored
  split at stored
  · split at stored
    · cases stored
      exact ⟨rfl, rfl⟩
    · cases stored
  · cases stored

theorem fillSlot?_same {slot : Slot} {byte : UInt8} {n : Nat}
    (filled : x.fillSlot? slot byte p = some (n, p')) : p'.live = p.live ∧ p'.calls = p.calls := by
  unfold fillSlot? at filled
  split at filled
  · cases filled
  · obtain ⟨q, poked, same⟩ := Option.map_eq_some_iff.mp filled
    cases same
    unfold Region.poke? at poked
    split at poked
    · split at poked <;> cases poked <;> exact ⟨rfl, rfl⟩
    · cases poked

theorem Handled.of_same (proper : ∀ r ∈ x.regions, r.Proper) (live : p'.live = p.live)
    (calls : p'.calls = p.calls) : x.Handled p x p' :=
  ⟨.of_same proper live calls, .of_same calls⟩

/-- What is asked of an index besides unmapping replaces its mapping at most. -/
theorem serve_handled (proper : ∀ r ∈ x.regions, r.Proper) {request : IndexRequest}
    (keeps : ∀ delete, request ≠ .unmap delete) (p : Platform) :
    x.Handled p (x.serve p request).2.1 (x.serve p request).2.2 := by
  cases request with
  | slot index slotSize extend => exact requestSlot_handled proper rfl
  | storeWord slot i word =>
    unfold serve
    dsimp only
    split
    · rename_i stored
      obtain ⟨live, calls⟩ := storeWord?_same stored
      exact .of_same proper live calls
    · exact .refl proper p
  | fill slot byte =>
    unfold serve
    dsimp only
    split
    · rename_i filled
      obtain ⟨live, calls⟩ := fillSlot?_same filled
      exact .of_same proper live calls
    · exact .refl proper p
  | barrier => exact barrier_handled proper p
  | unmap delete => exact absurd rfl (keeps delete)

/-- Whatever is asked of an index passes its region on. -/
theorem serve_passes (proper : ∀ r ∈ x.regions, r.Proper) (request : IndexRequest) (p : Platform) :
    p.Passes x.regions (x.serve p request).2.2 (x.serve p request).2.1.regions := by
  by_cases unmaps : ∃ delete, request = .unmap delete
  · obtain ⟨delete, rfl⟩ := unmaps
    show p.Passes x.regions (x.unmap delete p).2.2 (x.unmap delete p).2.1.regions
    rw [regions_of_none (x.region?_unmap delete p)]
    exact unmap_passes proper delete p
  · exact (serve_handled proper (fun delete same => unmaps ⟨delete, same⟩) p).passes

end SharedIndex

namespace Indexes

variable {s : Indexes} {name : String} {x : SharedIndex}

theorem Held.start (files : FileSystem) (plan : CallPlan) : (start { files, plan }).Held :=
  ⟨by simp [regions, Indexes.start, Keyed.gather_empty], .start files plan, .refl _⟩

theorem Held.of_passes {s' : Indexes} (held : s.Held)
    (passes : s.state.Passes s.regions s'.state s'.regions) : s'.Held :=
  ⟨passes.proper, passes.trades.holds held.holds⟩

theorem Held.proper_at (held : s.Held) (found : s.find? name = some x) : ∀ r ∈ x.regions, r.Proper :=
  fun r member => held.proper r (Keyed.mem_gather_iff.mpr ⟨name, x, found, member⟩)

theorem Held.drop (held : s.Held) (name : String) : Held (s.drop name SharedIndex.drop) := by
  unfold Session.drop
  split
  · exact held
  · rename_i x found
    have passes := SharedIndex.unmap_passes (held.proper_at found) false s.state
    exact held.of_passes (passes.erase held.proper found)

theorem step_held (held : s.Held) (e : IndexEvent) : (s.step e).2.Held := by
  cases e with
  | new name path setup baseSize =>
    have dropped := held.drop name
    refine dropped.of_passes (.insert dropped.proper ?_ (.refl (by simp) _))
    exact (s.find?_drop name SharedIndex.drop name).trans (if_pos rfl)
  | ask name request =>
    cases found : s.find? name with
    | none =>
      rw [step_ask_of_none found]
      exact held
    | some x =>
      rw [step_ask found]
      exact held.of_passes
        ((SharedIndex.serve_passes (held.proper_at found) request s.state).modify held.proper found)
  | drop name => exact held.drop name

theorem run_held (held : s.Held) (events : List IndexEvent) : (s.run events).Held := by
  induction events generalizing s with
  | nil => exact held
  | cons e rest ih => exact ih (step_held held e)

end Indexes
end MappedStorage
