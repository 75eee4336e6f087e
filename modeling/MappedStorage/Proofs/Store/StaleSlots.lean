import MappedStorage.Proofs.Store.Slots

/-!
Slots of an index that was unmapped. Unmapping makes every slot resolve to nothing, and so it stays until
the index is mapped again; from then on a slot resolves if the new region reaches as far, whenever it
was handed out (`Indexes.run_resolves`). A slot is its offset and length, which do not tell the mapping that it
was handed out for (`Indexes.stale_slot_resolves`).
-/

namespace MappedStorage

/-- The event asks for a slot in a way that may map the index of a name. -/
def IndexEvent.maps (name : String) : IndexEvent → Bool
  | .ask other (.slot _ _ extend) => other = name && extend
  | _ => false

namespace SharedIndex

/-- A slot resolves to nothing. -/
structure Unresolved (x : SharedIndex) (slot : Slot) (p : Platform) : Prop where
  words : x.wordsOf? slot = none
  bytes : x.readSlot? slot p = none
  filled : ∀ byte, x.fillSlot? slot byte p = none

/-- A slot resolves to its words and bytes. -/
structure Resolved (x : SharedIndex) (slot : Slot) (p : Platform) : Prop where
  words : (x.wordsOf? slot).isSome = true
  bytes : (x.readSlot? slot p).isSome = true
  filled : ∀ byte, (x.fillSlot? slot byte p).isSome = true

variable {x x' : SharedIndex} {p p' : Platform} {r : Region} {slot : Slot}

theorem unresolved_of_none (absent : x.region? = none) (slot : Slot) (p : Platform) :
    x.Unresolved slot p := by
  constructor
  · rw [wordsOf?, absent, Option.bind_none]
  · rw [readSlot?, absent, Option.bind_none]
  · intro byte
    rw [fillSlot?, absent]

/-- A slot that the region does not reach resolves to nothing. -/
theorem unresolved_of_short (found : x.region? = some r) (short : r.capacity < slot.offset + slot.len)
    (p : Platform) : x.Unresolved slot p := by
  have beyond : ¬ slot.span.stop ≤ r.capacity := Nat.not_le.mpr short
  constructor
  · rw [wordsOf?, found, Option.bind_some, Region.words?, if_neg (by simp [beyond])]
  · rw [readSlot?, found, Option.bind_some, Region.bytes?, if_neg (by simp [beyond])]
  · intro byte
    rw [fillSlot?, found]
    dsimp only
    rw [Region.poke?, Array.size_replicate, if_neg (Nat.not_le.mpr short), Option.map_none]

/-- A slot in words that the region reaches resolves. -/
theorem resolved_of_reached (found : x.region? = some r)
    (pages : ∀ m ∈ r.mapped, m.address % AddressSpace.page = 0) (positive : 0 < slot.len)
    (offset : slot.offset % Region.wordSize = 0) (len : slot.len % Region.wordSize = 0)
    (within : slot.offset + slot.len ≤ r.capacity) (p : Platform) : x.Resolved slot p := by
  obtain ⟨m, mapped⟩ := Region.exists_mapping (r := r) (by omega)
  have address : m.address % Region.wordSize = 0 := by
    have page := pages m mapped
    unfold AddressSpace.page at page
    unfold Region.wordSize
    omega
  constructor
  · rw [wordsOf?, found, Option.bind_some]
    exact Option.isSome_of_mem (Region.words?_of_mapped mapped address offset len within)
  · rw [readSlot?, found, Option.bind_some]
    exact Option.isSome_of_mem (Region.bytes?_of_mapped mapped within)
  · intro byte
    rw [fillSlot?, found]
    dsimp only
    rw [Region.poke?, Array.size_replicate, if_pos within, mapped]
    rfl

/-- A slot that is handed out is in words. -/
theorem requestSlot_words {index slotSize : Nat} {extend : Bool}
    (requested : x.requestSlot index slotSize extend p = (.ok (some slot), x', p')) :
    0 < slot.len ∧ slot.offset % Region.wordSize = 0 ∧ slot.len % Region.wordSize = 0 := by
  have here : slot = slotAt index slotSize ∧ 0 < slotSize ∧ slotSize % Region.wordSize = 0 := by
    cases requestSlot_answered requested with
    | refused none => exact absurd rfl (none slot)
    | mapped _ size mapped =>
      cases mapped <;> exact ⟨rfl, size⟩
    | opened _ _ size _ _ _ mapped =>
      cases mapped <;> exact ⟨rfl, size⟩
  obtain ⟨rfl, positive, whole⟩ := here
  refine ⟨positive, ?_, whole⟩
  show index * slotSize % Region.wordSize = 0
  rw [Nat.mul_mod, whole, Nat.mul_zero, Nat.zero_mod]

/-- Nothing but a request that extends maps an index. -/
theorem serve_unmapped {request : IndexRequest} (absent : x.region? = none)
    (quiet : ∀ index slotSize, request ≠ .slot index slotSize true) :
    (x.serve p request).2.1.region? = none := by
  cases request with
  | slot index slotSize extend =>
    rcases requested : x.requestSlot index slotSize extend p with ⟨result, x', p'⟩
    unfold serve
    dsimp only
    rw [requested]
    cases requestSlot_answered requested with
    | refused _ => exact absent
    | unopened _ _ _ => exact absent
    | mapped state _ _ =>
      rw [region?_of_state state] at absent
      cases absent
    | opened _ extending _ _ _ _ _ =>
      rw [extending] at quiet
      exact absurd rfl (quiet index slotSize)
  | storeWord slot i word =>
    unfold serve
    dsimp only
    split <;> exact absent
  | fill slot byte =>
    unfold serve
    dsimp only
    split <;> exact absent
  | barrier => exact absent
  | unmap delete =>
    show (x.unmap delete p).2.1.region? = none
    rw [unmap_of_none absent]
    exact absent

end SharedIndex

namespace Indexes

/-- The answers to some events. -/
def answers (s : Indexes) : List IndexEvent → List IndexAnswer
  | [] => []
  | e :: rest => (s.step e).1 :: answers (s.step e).2 rest

/-- The index of a name, if there is one, has no region. -/
def Unmapped (s : Indexes) (name : String) : Prop := ∀ x, s.find? name = some x → x.region? = none

variable {s : Indexes} {name : String} {x : SharedIndex} {slot : Slot} {e : IndexEvent}

theorem step_unmapped (unmapped : s.Unmapped name) (quiet : e.maps name = false) :
    (s.step e).2.Unmapped name := by
  intro x found
  cases ends : e.ends name with
  | true => exact step_ends ends found
  | false =>
    obtain ⟨y, there⟩ := exists_before ends found
    obtain ⟨same, -⟩ | ⟨request, rfl, -, served, -⟩ := step_stays (fun _ => []) ends there
    · rw [same] at found
      cases found
      exact unmapped _ there
    · rw [served] at found
      cases found
      refine SharedIndex.serve_unmapped (unmapped y there) fun index slotSize same => ?_
      simp [IndexEvent.maps, same] at quiet

theorem run_unmapped {events : List IndexEvent} (unmapped : s.Unmapped name)
    (quiet : ∀ e ∈ events, e.maps name = false) : (s.run events).Unmapped name := by
  induction events generalizing s with
  | nil => exact unmapped
  | cons e rest ih =>
    exact ih (step_unmapped unmapped (quiet e List.mem_cons_self))
      fun e member => quiet e (List.mem_cons_of_mem _ member)

/-- A slot that was handed out at some time is in words. -/
theorem words_of_answer {events : List IndexEvent}
    (handed : .slot (.ok (some slot)) ∈ s.answers events) :
    0 < slot.len ∧ slot.offset % Region.wordSize = 0 ∧ slot.len % Region.wordSize = 0 := by
  induction events generalizing s with
  | nil => cases handed
  | cons e rest ih =>
    rcases List.mem_cons.mp handed with here | later
    · cases e with
      | new | drop => cases here
      | ask name request =>
        cases found : s.find? name with
        | none =>
          rw [step_ask_of_none found] at here
          cases here
        | some x =>
          rw [step_ask found] at here
          cases request with
          | slot index slotSize extend =>
            rcases requested : x.requestSlot index slotSize extend s.state with ⟨result, x', p'⟩
            simp only [SharedIndex.serve, requested] at here
            cases here
            exact SharedIndex.requestSlot_words requested
          | storeWord slot i word =>
            simp only [SharedIndex.serve] at here
            split at here <;> cases here
          | fill slot byte =>
            simp only [SharedIndex.serve] at here
            split at here <;> cases here
          | barrier | unmap delete => cases here
    · exact ih later

/-- After an index was unmapped no slot resolves until a request that extends maps it again. A slot that was
handed out at some time resolves if the index is mapped and reaches as far, and only then. -/
theorem run_resolves (files : FileSystem) (plan : CallPlan) (events : List IndexEvent) :
    (∀ (name : String) (delete : Bool) (after : List IndexEvent), (∀ e ∈ after, e.maps name = false) →
      ∀ x, ((start { files, plan }).run
          (events ++ .ask name (.unmap delete) :: after)).find? name = some x →
        ∀ slot p, x.Unresolved slot p) ∧
    ∀ slot, .slot (.ok (some slot)) ∈ (start { files, plan }).answers events →
      ∀ name x, ((start { files, plan }).run events).find? name = some x →
        (slot.offset + slot.len ≤ x.capacity →
          x.Resolved slot ((start { files, plan }).run events).state) ∧
        (x.capacity < slot.offset + slot.len →
          x.Unresolved slot ((start { files, plan }).run events).state) := by
  constructor
  · intro name delete after quiet x found slot p
    refine SharedIndex.unresolved_of_none ?_ slot p
    rw [run_append] at found
    refine run_unmapped (s := (((start { files, plan }).run events).step
      (.ask name (.unmap delete))).2) (fun y there => ?_) quiet x found
    exact step_ends (by simp [IndexEvent.ends]) there
  · intro slot handed name x found
    obtain ⟨positive, offset, len⟩ := words_of_answer handed
    cases region : x.region? with
    | none =>
      have nothing : x.capacity = 0 := by rw [SharedIndex.capacity, region]
      exact ⟨fun within => by omega, fun _ => SharedIndex.unresolved_of_none region slot _⟩
    | some r =>
      have reach : x.capacity = r.capacity := by rw [SharedIndex.capacity, region]
      have pages := (run_held (Held.start files plan) events).pages found region
      rw [reach]
      exact ⟨fun within => SharedIndex.resolved_of_reached region pages positive offset len within _,
        fun short => SharedIndex.unresolved_of_short region short _⟩

/-- For instance a slot resolves before its index is unmapped, and not after that. -/
theorem unmapped_slot_unresolved :
    let s : Indexes := start { files := .empty, plan := {} }
    let slot : Slot := ⟨0, 0, 8⟩
    let before : List IndexEvent := [.new "x" ⟨[0x78]⟩ {} 8, .ask "x" (.slot 0 8 true)]
    let after : List IndexEvent := [.ask "x" (.slot 0 8 false), .ask "x" .barrier]
    (∃ x, (s.run before).find? "x" = some x ∧ x.Resolved slot (s.run before).state) ∧
      ∃ x, (s.run (before ++ .ask "x" (.unmap false) :: after)).find? "x" = some x ∧
        ∀ p, x.Unresolved slot p := by
  intro s slot before after
  have handed : s.answers before = [.done (.ok ()), .slot (.ok (some slot))] := by
    dsimp +zetaDelta only
    cbv
  have reach : ((s.run before).find? "x").map (·.capacity) = some 8 := by
    dsimp +zetaDelta only
    cbv
  have there : ((s.run (before ++ .ask "x" (.unmap false) :: after)).find? "x").isSome = true := by
    dsimp +zetaDelta only
    cbv
  obtain ⟨unresolved, resolved⟩ := run_resolves .empty {} before
  obtain ⟨x, found, capacity⟩ := Option.map_eq_some_iff.mp reach
  obtain ⟨y, found'⟩ := Option.isSome_iff_exists.mp there
  refine ⟨⟨x, found, (resolved slot ?_ "x" x found).1 ?_⟩, y, found', fun p => ?_⟩
  · show _ ∈ s.answers before
    rw [handed]
    exact List.mem_cons_of_mem _ List.mem_cons_self
  · rw [capacity]
    exact Nat.le_refl 8
  · exact unresolved "x" false after (by decide) y found' slot p

/-- A slot that was handed out before an index was unmapped resolves in the mapping that follows, though it
has slots of another size. -/
theorem stale_slot_resolves :
    let s : Indexes := start { files := .empty, plan := {} }
    let setup : RegionSetup := { mapper := { detection := .emulated } }
    let slot : Slot := ⟨0, 0, 4096⟩
    let before : List IndexEvent := [.new "x" ⟨[0x78]⟩ setup 4096, .ask "x" (.slot 0 4096 true)]
    let after : List IndexEvent := [.ask "x" (.unmap false), .ask "x" (.slot 1 8192 true)]
    .slot (.ok (some slot)) ∈ s.answers before ∧
      ∃ x, (s.run (before ++ after)).find? "x" = some x ∧ x.slotSize? = some 8192 ∧
        x.Resolved slot (s.run (before ++ after)).state := by
  intro s setup slot before after
  have handed : s.answers before = [.done (.ok ()), .slot (.ok (some slot))] := by
    dsimp +zetaDelta only
    cbv
  have sizes : ((s.run (before ++ after)).find? "x").map (fun x => (x.slotSize?, x.capacity)) =
      some (some 8192, 16384) := by
    dsimp +zetaDelta only
    cbv
  obtain ⟨x, found, both⟩ := Option.map_eq_some_iff.mp sizes
  obtain ⟨size, capacity⟩ := Prod.mk.inj both
  obtain ⟨r, state⟩ := SharedIndex.slotSize?_eq_some size
  have region := SharedIndex.region?_of_state state
  have pages := (run_held (Held.start .empty {}) (before ++ after)).pages found region
  have reach : r.capacity = 16384 := by
    rw [SharedIndex.capacity, region] at capacity
    exact capacity
  refine ⟨by rw [handed]; exact List.mem_cons_of_mem _ List.mem_cons_self, x, found, size, ?_⟩
  refine SharedIndex.resolved_of_reached region pages (by decide) (by decide) (by decide) ?_ _
  show 0 + 4096 ≤ r.capacity
  omega

end Indexes
end MappedStorage
