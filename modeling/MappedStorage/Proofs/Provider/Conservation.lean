import Mathlib
import MappedStorage.Proofs.Provider.Resources

/-!
Mappings are conserved. In a run of regions, stores, shared indexes and files the mappings in place are
those of the open regions that have capacity, whichever calls fail (`OpenResources.run_balanced`). When no handle
is left nothing is mapped. When all are closed nothing is mapped either, unless a slot was requested of a
file that was closed: the index of the file is mapped again then, and closing it once more does not unmap it.
-/

namespace MappedStorage

/-- What happens to handles. One that is opened takes the place of the one that had the name, which is
dropped. -/
inductive ResourceEvent where
  | «open» (name : String) (what : Opening)
  | ask (name : String) (request : ResourceRequest)
  | close (name : String)
  | drop (name : String)
  /-- The size of a file is asked for, which opens and closes it. -/
  | sizeOf (hub : String) (v : Provider) (path : Option Path) (flags : OpenFlags)
  /-- The files are changed by others, or deleted. -/
  | outside (files : FileSystem)

/-- Handles by name, with what they share. -/
abbrev OpenResources := Session Resource Grounds

namespace OpenResources

/-- Nothing is open yet. -/
def start (files : FileSystem) (plan : CallPlan) : OpenResources :=
  { state := { platform := { files, plan } } }

/-- The handles after one event. -/
def step (s : OpenResources) : ResourceEvent → OpenResources
  | .open name what =>
    match what.open? s.state with
    | (none, g) => { s with state := g }
    | (some x, g) => (({ s with state := g } : OpenResources).drop name Resource.drop).put name x
  | .ask name request => ((s.act name fun x g => ((), x.serve request g)).map (·.2)).getD s
  | .close name => ((s.act name fun x g => ((), x.close g)).map (·.2)).getD s
  | .drop name => s.drop name Resource.drop
  | .sizeOf hub v path flags =>
    { s with state := s.state.settle hub (v.sizeOf path flags (s.state.shared hub)).2 }
  | .outside files =>
    { s with state := { s.state with platform := { s.state.platform with files } } }

/-- The handles after some events. -/
def run (s : OpenResources) (events : List ResourceEvent) : OpenResources := events.foldl step s

/-- The regions of all handles. -/
def regions (s : OpenResources) : List Region := Resources.regions s.inUse s.state

/-- The account of all handles is in order. -/
abbrev Balanced (s : OpenResources) : Prop := Resources.Balanced s.inUse s.state

/-- No file that is closed has its index mapped. -/
def Quiet (s : OpenResources) : Prop := ∀ x ∈ s.inUse, x.Quiet

/-- The mappings in place are those of the open regions that have capacity, one each. The regions are those
of the handles themselves and those that stores and files of a hub are open on. -/
structure Conserved (s : OpenResources) : Prop where
  orderly : s.state.platform.Orderly
  live : s.state.platform.live.Perm (Region.mappings s.regions)
  mapped : ∀ r ∈ s.regions, r.mapped ≠ none ↔ r.closed = false ∧ 0 < r.capacity
  shows : ∀ r ∈ s.regions, ∀ m ∈ r.mapped, m.file = r.fileId ∧ m.len = r.capacity
  shared : ∀ hub key, (s.state.hub hub).regions.find? key ≠ none ↔ ∃ x ∈ s.inUse, x.holds hub key = true

/-- The event lets go of nothing. -/
def Keeps (s : OpenResources) : ResourceEvent → Prop
  | .open name _ => s.find? name = none
  | .ask _ request => request.closes = false
  | .outside _ => True
  | .close _ | .drop _ | .sizeOf .. => False

/-- A slot is requested of a file only if it is open. -/
def Permits (s : OpenResources) : ResourceEvent → Prop
  | .ask name request => ∀ x, s.find? name = some x → x.Permits request
  | _ => True

/-- In a run no slot is requested of a file that was closed. -/
def Abides (s : OpenResources) : List ResourceEvent → Prop
  | [] => True
  | e :: rest => s.Permits e ∧ Abides (s.step e) rest

/-- What becomes of the handles in one event. -/
inductive Stepped (s : OpenResources) : ResourceEvent → OpenResources → Prop where
  | unopened {name : String} {what : Opening} {g : Grounds} (opens : Resources.Opens s.state none g) :
      Stepped s (.open name what) { s with state := g }
  | opened {name : String} {what : Opening} {x : Resource} {g : Grounds}
      (opens : Resources.Opens s.state (some x) g) :
      Stepped s (.open name what)
        (Session.put (Session.drop { s with state := g } name Resource.drop) name x)
  /-- No handle has the name. -/
  | unasked {name : String} {request : ResourceRequest} : Stepped s (.ask name request) s
  | asked {name : String} {request : ResourceRequest} {x : Resource} (found : s.find? name = some x) :
      Stepped s (.ask name request)
        { s.update name (x.serve request s.state).1 with state := (x.serve request s.state).2 }
  | unclosed {name : String} (absent : s.find? name = none) : Stepped s (.close name) s
  | closed {name : String} {x : Resource} (found : s.find? name = some x) :
      Stepped s (.close name) { s.update name (x.close s.state).1 with state := (x.close s.state).2 }
  | dropped {name : String} : Stepped s (.drop name) (s.drop name Resource.drop)
  | sized {hub : String} {v : Provider} {path : Option Path} {flags : OpenFlags} :
      Stepped s (.sizeOf hub v path flags)
        { s with state := s.state.settle hub (v.sizeOf path flags (s.state.shared hub)).2 }
  | outside {files : FileSystem} :
      Stepped s (.outside files)
        { s with state := { s.state with platform := { s.state.platform with files } } }

variable {s s' : OpenResources} {e : ResourceEvent} {name : String} {x y : Resource} {g : Grounds}

/-! ## One event -/

theorem stepped (s : OpenResources) (e : ResourceEvent) : s.Stepped e (s.step e) := by
  cases e with
  | «open» name what =>
    have opens := Resources.open_opens s.state what
    unfold step
    dsimp only
    rcases opening : what.open? s.state with ⟨_ | x, g⟩ <;> rw [opening] at opens
    · exact .unopened opens
    · exact .opened opens
  | ask name request =>
    cases found : s.find? name with
    | none =>
      simp only [step, Session.act, found, Option.map_none, Option.getD_none]
      exact .unasked
    | some x =>
      simp only [step, Session.act, found, Option.map_some, Option.getD_some]
      exact .asked found
  | close name =>
    cases found : s.find? name with
    | none =>
      simp only [step, Session.act, found, Option.map_none, Option.getD_none]
      exact .unclosed found
    | some x =>
      simp only [step, Session.act, found, Option.map_some, Option.getD_some]
      exact .closed found
  | drop name => exact .dropped
  | sizeOf hub v path flags => exact .sized
  | outside files => exact .outside

theorem absent_drop (s : OpenResources) (name : String) :
    (s.drop name Resource.drop).find? name = none :=
  (Session.find?_drop ..).trans (if_pos rfl)

theorem start_balanced (files : FileSystem) (plan : CallPlan) : (start files plan).Balanced :=
  ⟨List.forall_mem_nil _, ⟨.start files plan, .refl _⟩, fun _ => RegionTable.counts_empty⟩

theorem proper_tables (balanced : s.Balanced) : ∀ r ∈ s.state.regions, r.Proper :=
  fun r member => balanced.proper r (List.mem_append_right _ member)

theorem proper_at (balanced : s.Balanced) (found : s.find? name = some x) : ∀ r ∈ x.regions, r.Proper := by
  intro r member
  refine balanced.proper r (List.mem_append_left _ (List.mem_flatMap.mpr ⟨x, ?_, member⟩))
  exact Session.mem_inUse_iff.mpr ⟨name, found⟩

/-- What is done to one handle is done among all others. -/
theorem balanced_update (balanced : s.Balanced) (found : s.find? name = some x)
    (moves : Resources.Moves [x] s.state [y] g) :
    Balanced { s.update name y with state := g } :=
  (moves _ (balanced.perm (Session.inUse_of_find? found))).perm (Session.inUse_update found y).symm

/-- A handle is given up among all others, and among more that are not under a name yet. -/
theorem balanced_drop (extra : List Resource) (name : String)
    (balanced : Resources.Balanced (extra ++ s.inUse) s.state) :
    Resources.Balanced (extra ++ (s.drop name Resource.drop).inUse) (s.drop name Resource.drop).state := by
  unfold Session.drop
  split
  · exact balanced
  · rename_i x found
    have first : (extra ++ s.inUse).Perm ([x] ++ (extra ++ (s.forget name).inUse)) :=
      ((Session.inUse_of_find? found).append_left extra).trans List.perm_middle
    exact Resources.drop_moves x s.state _ (balanced.perm first)

theorem Stepped.balanced (stepped : s.Stepped e s') (balanced : s.Balanced) : s'.Balanced := by
  cases stepped with
  | unopened opens => exact opens.moves s.inUse balanced
  | @opened name what x g opens =>
    have dropped := balanced_drop (s := { s with state := g }) [x] name (opens.moves s.inUse balanced)
    exact dropped.perm (.of_eq (Session.inUse_put (absent_drop _ name) x).symm)
  | unasked => exact balanced
  | asked found => exact balanced_update balanced found (Resources.serve_moves _ _ s.state)
  | unclosed => exact balanced
  | closed found => exact balanced_update balanced found (Resources.close_moves _ s.state)
  | dropped => exact balanced_drop [] _ balanced
  | sized => exact Resources.sizeOf_moves s.state _ _ _ _ s.inUse balanced
  | outside => exact Resources.files_moves s.state _ s.inUse balanced

/-- While nothing is let go of, a mapping is released only when a longer one has taken its place. -/
theorem Stepped.replaces (stepped : s.Stepped e s') (balanced : s.Balanced) (keeps : s.Keeps e) :
    s.state.platform.Replaces s'.state.platform := by
  cases stepped with
  | unopened opens => exact opens.replaces (proper_tables balanced)
  | @opened name what x g opens =>
    have absent : ({ s with state := g } : OpenResources).find? name = none := keeps
    rw [Session.drop, absent]
    exact opens.replaces (proper_tables balanced)
  | unasked => exact .refl _
  | asked found =>
    exact Resources.serve_replaces (proper_at balanced found) (proper_tables balanced) keeps
  | outside => exact .of_same rfl
  | unclosed | closed | dropped | sized => exact keeps.elim

/-- A handle that is closed is closed, whatever fails. -/
theorem Stepped.closes (stepped : s.Stepped (.close name) s') (balanced : s.Balanced)
    (found : s'.find? name = some x) : x.isClosed = true := by
  cases stepped with
  | unclosed absent =>
    rw [absent] at found
    cases found
  | @closed _ y before =>
    have new : (s.update name (y.close s.state).1).find? name = some (y.close s.state).1 :=
      (Session.find?_update before _).trans (if_pos rfl)
    cases found.symm.trans new
    exact Resources.isClosed_close y s.state (proper_at balanced before)

theorem Quiet.at_name (quiet : s.Quiet) (found : s.find? name = some x) : x.Quiet :=
  quiet x (Session.mem_inUse_iff.mpr ⟨name, found⟩)

theorem Quiet.drop (quiet : s.Quiet) (name : String) : Quiet (s.drop name Resource.drop) := by
  intro x member
  obtain ⟨other, found⟩ := Session.mem_inUse_iff.mp member
  rw [Session.find?_drop] at found
  split at found
  · cases found
  · exact quiet x (Session.mem_inUse_iff.mpr ⟨other, found⟩)

theorem Quiet.update (quiet : s.Quiet) (found : s.find? name = some x) (new : y.Quiet) :
    Quiet { s.update name y with state := g } := by
  intro z member
  rcases List.mem_cons.mp ((Session.inUse_update found y).mem_iff.mp member) with rfl | old
  · exact new
  · exact quiet z ((Session.inUse_of_find? found).mem_iff.mpr (List.mem_cons_of_mem _ old))

/-- A file that is closed has no index mapped, as long as no slot is requested of it. -/
theorem Stepped.quiet (stepped : s.Stepped e s') (balanced : s.Balanced) (quiet : s.Quiet)
    (permits : s.Permits e) : s'.Quiet := by
  cases stepped with
  | unopened opens => exact quiet
  | @opened name what x g opens =>
    intro z member
    have there : z ∈ x :: (({ s with state := g } : OpenResources).drop name Resource.drop).inUse := by
      rwa [← Session.inUse_put (absent_drop _ name)]
    rcases List.mem_cons.mp there with rfl | old
    · exact opens.quiet (proper_tables balanced) z rfl
    · exact Quiet.drop (s := { s with state := g }) quiet name z old
  | unasked => exact quiet
  | asked found =>
    exact quiet.update found (Resources.serve_quiet (quiet.at_name found) (permits _ found) s.state)
  | unclosed => exact quiet
  | closed found => exact quiet.update found (Resources.close_quiet (quiet.at_name found) s.state)
  | dropped => exact quiet.drop _
  | sized | outside => exact quiet

/-! ## Runs -/

theorem run_balanced (balanced : s.Balanced) (events : List ResourceEvent) : (s.run events).Balanced := by
  induction events generalizing s with
  | nil => exact balanced
  | cons e rest ih => exact ih ((s.stepped e).balanced balanced)

theorem run_quiet (balanced : s.Balanced) (quiet : s.Quiet) {events : List ResourceEvent}
    (abides : s.Abides events) : (s.run events).Quiet := by
  induction events generalizing s with
  | nil => exact quiet
  | cons e rest ih =>
    have stepped := s.stepped e
    exact ih (stepped.balanced balanced) (stepped.quiet balanced quiet abides.1) abides.2

theorem Conserved.of_balanced (balanced : s.Balanced) : s.Conserved := by
  have within {r : Region} (member : r ∈ s.regions) {m : Mapping} (mapped : r.mapped = some m) :
      m ∈ s.state.platform.live :=
    balanced.holds.live.mem_iff.mpr (List.mem_filterMap.mpr ⟨r, member, mapped⟩)
  refine ⟨balanced.holds.toOrderly, balanced.holds.live, fun r member => ⟨fun some => ?_, ?_⟩,
    fun r member m mapped => ?_, fun hub key => ?_⟩
  · obtain ⟨m, mapped⟩ := Option.ne_none_iff_exists'.mp some
    refine ⟨Bool.eq_false_iff.mpr fun closed => some ((balanced.proper r member).unmapped closed), ?_⟩
    rw [Region.capacity_eq_of_mapped mapped]
    exact balanced.holds.toOrderly.len_pos (within member mapped)
  · rintro ⟨-, positive⟩ none
    rw [Region.capacity, none] at positive
    cases positive
  · exact ⟨(balanced.proper r member).shows m mapped, (Region.capacity_eq_of_mapped mapped).symm⟩
  · rw [(balanced.counts hub).positive key]
    exact List.countP_pos_iff

/-- In a run with any calls failing, the mappings in place are those of the open regions that have capacity,
each was released once at most and none that was not in place, and what lets go of nothing releases a mapping
only when a longer one of its file has just been granted. A handle that is closed is closed whatever fails.
With no handle left nothing is mapped, and neither with all that are left closed, provided that no slot was
requested of a file after it was closed. -/
theorem run_conserves (files : FileSystem) (plan : CallPlan) (events : List ResourceEvent) :
    let s := (start files plan).run events
    s.Conserved ∧ (∀ e, s.Keeps e → s.state.platform.Replaces (s.step e).state.platform) ∧
      (∀ name x, (s.step (.close name)).find? name = some x → x.isClosed = true) ∧
      (s.inUse = [] → s.state.platform.live = []) ∧
      ((start files plan).Abides events → (∀ x ∈ s.inUse, x.isClosed = true) →
        s.state.platform.live = []) := by
  intro s
  have balanced : s.Balanced := run_balanced (start_balanced files plan) events
  refine ⟨.of_balanced balanced, fun e keeps => (s.stepped e).replaces balanced keeps,
    fun name x found => (s.stepped _).closes balanced found, fun nothing => ?_, fun abides closed => ?_⟩
  · exact balanced.idle (by simp [nothing]) (by simp [nothing])
  · have none : (start files plan).Quiet := List.forall_mem_nil _
    exact balanced.idle closed (run_quiet (start_balanced files plan) none abides)

/-- The first growth of a store is refused, the second one fails to release the old mapping; at the end nothing
is left. -/
theorem all_mappings_released :
    let plan : CallPlan :=
      { plain := [.granted, .granted, .granted, .refused Errno.noMemory], unmap := [some Errno.noMemory] }
    let setup : RegionSetup := { initialCapacity := 4 }
    let v : Provider := { settings := { initialCapacity := 4 }, mapper := {} }
    let opening : ResourceEvent := .open "f" (.file "v" v (some ⟨[0x66]⟩) { kind := .mainDb })
    let growth : ResourceEvent := .ask "w" (.store (.write 3 #[1, 2]))
    let before : List ResourceEvent :=
      [opening, .ask "f" (.file (.requestSlot 0 8 true)), .open "w" (.store "v" ⟨[0x77]⟩ .log setup), growth,
        growth, .open "x" (.index ⟨[0x78]⟩ {} 8), .ask "x" (.index (.slot 0 8 true))]
    let after : List ResourceEvent := [.close "w", .drop "x", .close "f"]
    ((start .empty plan).run before).state.platform.live.length = 4 ∧
      (start .empty plan).Abides (before ++ after) ∧
      (∀ x ∈ ((start .empty plan).run (before ++ after)).inUse, x.isClosed = true) ∧
      ((start .empty plan).run (before ++ after)).state.platform.live = [] := by
  intro plan setup v opening growth before after
  have lives : ((start .empty plan).run before).state.platform.live.length = 4 := by
    dsimp +zetaDelta only
    cbv
  have closed : ((start .empty plan).run (before ++ after)).inUse.all (·.isClosed) = true := by
    dsimp +zetaDelta only
    cbv
  have isOpen : (((start .empty plan).step opening).find? "f").map (·.isClosed) = some false := by
    dsimp +zetaDelta only
    cbv
  have other (x : Resource) : x.Permits (.store (.write 3 #[1, 2])) ∧ x.Permits (.index (.slot 0 8 true)) := by
    cases x <;> exact ⟨trivial, trivial⟩
  have abides : (start .empty plan).Abides (before ++ after) := by
    refine ⟨trivial, fun x found => ?_, trivial, fun x _ => (other x).1, fun x _ => (other x).1, trivial,
      fun x _ => (other x).2, trivial, trivial, trivial, trivial⟩
    rw [found] at isOpen
    cases x with
    | file f hub => exact Option.some.inj isOpen
    | region | store | index => trivial
  have closed := List.all_eq_true.mp closed
  exact ⟨lives, abides, closed, (run_conserves .empty plan (before ++ after)).2.2.2.2 abides closed⟩

/-- A file was closed twice and nothing else is open, and yet its index is mapped: a slot was requested in
between. -/
theorem reopened_index_stays_mapped :
    let v : Provider := { settings := {}, mapper := { detection := .emulated } }
    let s := (start .empty {}).run [.open "a" (.file "v" v (some ⟨[0x61]⟩) { kind := .mainDb }),
      .close "a", .ask "a" (.file (.requestSlot 0 32768 true)), .close "a"]
    (∀ x ∈ s.inUse, x.isClosed = true) ∧ s.state.platform.live ≠ [] := by
  intro v s
  have lives : s.state.platform.live.length = 1 := by
    dsimp +zetaDelta only
    cbv
  have closed : s.inUse.all (·.isClosed) = true := by
    dsimp +zetaDelta only
    cbv
  refine ⟨List.all_eq_true.mp closed, fun none => ?_⟩
  rw [none] at lives
  cases lives

end OpenResources
end MappedStorage
