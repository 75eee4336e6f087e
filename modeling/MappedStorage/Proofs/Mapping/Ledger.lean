import MappedStorage.Proofs.Mapping.Mapper
import MappedStorage.Proofs.System.AddressSpace

/-!
The ledger of mappings. The calls on record tell how often a mapping was granted and how often it was
released; the mappings in place are those that were granted once more than released, and none was
ever in place twice (`Platform.Orderly`). An operation trades the mappings that it was given for those that
it leaves (`Platform.Trades`), and while something grows a mapping is released only when a longer one of
its file has just been granted (`Platform.Replaces`).
-/

namespace MappedStorage

/-- The call put a mapping in place. -/
def Call.grants (m : Mapping) : Call → Bool
  | .map n .granted => n = m
  | _ => false

/-- The call took a mapping down. -/
def Call.releases (m : Mapping) : Call → Bool
  | .unmap n _ => n = m
  | _ => false

/-- Calls, latest first, that release a mapping only to replace it: right before it goes, a longer mapping
of the same file is granted. -/
inductive ReplacesFirst : List Call → Prop
  | none : ReplacesFirst []
  | other {call : Call} {made : List Call} (keeps : ∀ m, call.releases m = false)
      (before : ReplacesFirst made) : ReplacesFirst (call :: made)
  | replaced {m n : Mapping} {failure : Option Errno} {made : List Call} (file : n.file = m.file)
      (longer : m.len < n.len) (before : ReplacesFirst made) :
      ReplacesFirst (.unmap m failure :: .map n .granted :: made)

theorem ReplacesFirst.append {late early : List Call} (first : ReplacesFirst early)
    (second : ReplacesFirst late) : ReplacesFirst (late ++ early) := by
  induction second with
  | none => exact first
  | other keeps _ ih => exact .other keeps ih
  | replaced file longer _ ih => exact .replaced file longer ih

namespace Platform

/-- How often a mapping was granted in some calls. -/
def granted (calls : List Call) (m : Mapping) : Nat := calls.countP (·.grants m)

/-- How often a mapping was released in some calls. -/
def released (calls : List Call) (m : Mapping) : Nat := calls.countP (·.releases m)

/-- The mappings in place are those that were granted and not released since. At no time was one released
that was not in place, or granted where it was in place already; and no two of them overlap. -/
structure Orderly (p : Platform) : Prop where
  laid : AddressSpace.Laid (p.live.map Mapping.range)
  balance : ∀ m, granted p.calls m = released p.calls m + p.live.count m
  history : ∀ earlier, earlier <:+ p.calls → ∀ m,
    released earlier m ≤ granted earlier m ∧ granted earlier m ≤ released earlier m + 1

/-- The mappings in place are some given ones. -/
structure Holds (p : Platform) (ms : List Mapping) : Prop extends Orderly p where
  live : p.live.Perm ms

/-- From one platform to another some mappings are given up for others, and all the rest stay. -/
def Trades (p : Platform) (before : List Mapping) (p' : Platform) (after : List Mapping) : Prop :=
  ∀ rest, p.Holds (before ++ rest) → p'.Holds (after ++ rest)

/-- From one platform to another, mappings are released only to be replaced. -/
def Replaces (p p' : Platform) : Prop := ∃ made, p'.calls = made ++ p.calls ∧ ReplacesFirst made

variable {p q p' : Platform} {ms before middle after : List Mapping} {m : Mapping}

/-! ## Order -/

theorem Orderly.start (files : FileSystem) (plan : CallPlan) :
    Orderly { files, plan } := by
  refine ⟨.nil, fun _ => rfl, fun earlier suffix m => ?_⟩
  rw [List.suffix_nil.mp suffix]
  exact ⟨Nat.le_refl _, Nat.zero_le _⟩

theorem Orderly.pages (orderly : p.Orderly) (member : m ∈ p.live) :
    m.address % AddressSpace.page = 0 :=
  orderly.laid.pages m.range (List.mem_map_of_mem member)

theorem Orderly.len_pos (orderly : p.Orderly) (member : m ∈ p.live) : 0 < m.len := by
  have nonempty := orderly.laid.nonempty m.range (List.mem_map_of_mem member)
  refine Nat.pos_of_ne_zero fun empty => ?_
  rw [Mapping.range, empty] at nonempty
  exact Nat.lt_irrefl _ nonempty

/-- No mapping is in place twice where ranges lie apart. -/
theorem nodup_of_laid {live : List Mapping} (laid : AddressSpace.Laid (live.map Mapping.range)) :
    live.Nodup := by
  refine List.Nodup.of_map Mapping.range (laid.ordered.imp_of_mem ?_)
  rintro a b inside _ above rfl
  have nonempty := laid.nonempty a inside
  unfold Span.Above at above
  omega

theorem granted_cons (call : Call) (calls : List Call) (m : Mapping) :
    granted (call :: calls) m = granted calls m + if call.grants m then 1 else 0 := List.countP_cons

theorem released_cons (call : Call) (calls : List Call) (m : Mapping) :
    released (call :: calls) m = released calls m + if call.releases m then 1 else 0 := List.countP_cons

/-- One more call leaves the order if the ranges lie apart and the balance is right after it. -/
theorem Orderly.after_call {call : Call} (orderly : p.Orderly) (calls : p'.calls = call :: p.calls)
    (laid : AddressSpace.Laid (p'.live.map Mapping.range))
    (balance : ∀ m, granted p'.calls m = released p'.calls m + p'.live.count m) : p'.Orderly := by
  refine ⟨laid, balance, fun earlier suffix m => ?_⟩
  rw [calls, List.suffix_cons_iff] at suffix
  rcases suffix with rfl | suffix
  · have here := balance m
    have once := List.nodup_iff_count_le_one.mp (nodup_of_laid laid) m
    rw [← calls]
    omega
  · exact orderly.history earlier suffix m

/-- What is called besides granting and releasing leaves the order. -/
theorem Orderly.of_call {call : Call} (orderly : p.Orderly) (live : p'.live = p.live)
    (calls : p'.calls = call :: p.calls) (grants : ∀ m, call.grants m = false)
    (releases : ∀ m, call.releases m = false) : p'.Orderly := by
  refine orderly.after_call calls (by rw [live]; exact orderly.laid) fun m => ?_
  rw [calls, granted_cons, released_cons, grants, releases, live]
  exact orderly.balance m

/-- What changes only files leaves the order. -/
theorem Orderly.of_same (orderly : p.Orderly) (live : p'.live = p.live) (calls : p'.calls = p.calls) :
    p'.Orderly :=
  ⟨by rw [live]; exact orderly.laid, by rw [live, calls]; exact orderly.balance,
    by rw [calls]; exact orderly.history⟩

theorem range_enlist (m : Mapping) (live : List Mapping) :
    (enlist m live).map Mapping.range = AddressSpace.insert m.range (live.map Mapping.range) := by
  induction live with
  | nil => rfl
  | cons other rest ih =>
    simp only [enlist, List.map_cons, AddressSpace.insert]
    show _ = if other.address ≤ m.address then _ else _
    split
    · rfl
    · rw [List.map_cons, ih]

/-- A mapping that is granted where there is room is in place from then on. -/
theorem Orderly.grant (orderly : p.Orderly) (positive : 0 < m.len)
    (placed : AddressSpace.place m.len (p.live.map Mapping.range) = some m.address)
    (live : p'.live = enlist m p.live) (calls : p'.calls = .map m .granted :: p.calls) :
    p'.Orderly := by
  refine orderly.after_call calls ?_ fun n => ?_
  · rw [live, range_enlist]
    exact orderly.laid.place positive placed
  · have old := orderly.balance n
    rw [calls, granted_cons, released_cons, live, (perm_enlist m p.live).count_eq, List.count_cons]
    simp only [Call.grants, Call.releases, decide_eq_true_eq, beq_iff_eq, Bool.false_eq_true, if_false]
    omega

/-- A mapping that is in place can be released. -/
theorem Orderly.unmap (orderly : p.Orderly) (member : m ∈ p.live) : (p.unmap m).2.Orderly := by
  have fewer (n : Mapping) :
      (p.unmap m).2.live.count n + (if m = n then 1 else 0) = p.live.count n := by
    show (p.live.erase m).count n + _ = _
    by_cases same : m = n
    · have positive := List.count_pos_iff.mpr member
      rw [← same, if_pos rfl, List.count_erase_self]
      omega
    · rw [if_neg same, List.count_erase_of_ne (Ne.symm same), Nat.add_zero]
  refine orderly.after_call rfl (orderly.laid.sublist (List.erase_sublist.map _)) fun n => ?_
  have old := orderly.balance n
  have here := fewer n
  rw [show (p.unmap m).2.calls = .unmap m (p.unmap m).1 :: p.calls from rfl, granted_cons, released_cons]
  simp only [Call.grants, Call.releases, decide_eq_true_eq, Bool.false_eq_true, if_false]
  omega

/-! ## Trades -/

theorem Holds.perm (holds : p.Holds before) (same : before.Perm after) : p.Holds after :=
  ⟨holds.toOrderly, holds.live.trans same⟩

theorem Trades.refl (p : Platform) (ms : List Mapping) : p.Trades ms p ms := fun _ => id

theorem Trades.trans (first : p.Trades before q middle) (second : q.Trades middle p' after) :
    p.Trades before p' after := fun rest holds => second rest (first rest holds)

/-- Mappings that take no part in a trade are there before and after. -/
theorem Trades.frame (trades : p.Trades before p' after) (others : List Mapping) :
    p.Trades (before ++ others) p' (after ++ others) := by
  intro rest holds
  rw [List.append_assoc] at holds ⊢
  exact trades (others ++ rest) holds

theorem Trades.perm {before' after' : List Mapping} (trades : p.Trades before p' after)
    (given : before'.Perm before) (left : after'.Perm after) : p.Trades before' p' after' :=
  fun rest holds => (trades rest (holds.perm (given.append_right rest))).perm (left.symm.append_right rest)

theorem Trades.of_same (live : p'.live = p.live) (calls : p'.calls = p.calls) (ms : List Mapping) :
    p.Trades ms p' ms :=
  fun _ holds => ⟨holds.toOrderly.of_same live calls, live ▸ holds.live⟩

/-- Files take no part in a trade. -/
theorem Trades.of_files {files : FileSystem} (trades : Trades { p with files } before p' after) :
    p.Trades before p' after :=
  fun rest holds => trades rest ⟨holds.toOrderly.of_same rfl rfl, holds.live⟩

theorem Trades.holds (trades : p.Trades before p' after) (holds : p.Holds before) : p'.Holds after := by
  have traded := trades [] (by rwa [List.append_nil])
  rwa [List.append_nil] at traded

theorem Replaces.refl (p : Platform) : p.Replaces p := ⟨[], rfl, .none⟩

theorem Replaces.of_same (calls : p'.calls = p.calls) : p.Replaces p' := ⟨[], calls, .none⟩

theorem Replaces.trans (first : p.Replaces q) (second : q.Replaces p') : p.Replaces p' := by
  obtain ⟨early, early_eq, early_first⟩ := first
  obtain ⟨late, late_eq, late_first⟩ := second
  exact ⟨late ++ early, by rw [late_eq, early_eq, List.append_assoc], early_first.append late_first⟩

/-- A flush leaves the mappings. -/
theorem flush_trades (p : Platform) (medium : Medium) (m : Mapping) (offset len : Nat)
    (ms : List Mapping) : p.Trades ms (p.flush medium m offset len).2 ms := by
  have live := p.flush_live medium m offset len
  have calls := p.flush_calls medium m offset len
  exact fun _ holds =>
    ⟨holds.toOrderly.of_call live calls (fun _ => rfl) fun _ => rfl, live ▸ holds.live⟩

theorem flush_replaces (p : Platform) (medium : Medium) (m : Mapping) (offset len : Nat) :
    p.Replaces (p.flush medium m offset len).2 :=
  ⟨[_], p.flush_calls medium m offset len, .other (fun _ => rfl) .none⟩

theorem unmap_trades (p : Platform) (m : Mapping) : p.Trades [m] (p.unmap m).2 [] := by
  intro rest holds
  refine ⟨holds.toOrderly.unmap (holds.live.mem_iff.mpr List.mem_cons_self), ?_⟩
  have taken := holds.live.erase m
  rwa [List.singleton_append, List.erase_cons_head] at taken

/-! ## Requests for mappings -/

/-- What a request for a mapping comes to: if it is granted the mapping is in place, and its call was the
last one. -/
structure Grants (p p' : Platform) (new : Option Mapping) : Prop where
  trades : p.Trades [] p' new.toList
  calls : ∃ made, p'.calls = made ++ p.calls ∧ ReplacesFirst made ∧
    ∀ n ∈ new, ∃ rest, made = .map n .granted :: rest ∧ ReplacesFirst rest

variable {new : Option Mapping}

theorem Grants.nothing (p : Platform) : p.Grants p none :=
  ⟨.refl p [], [], rfl, .none, by simp⟩

theorem Grants.replaces (grants : p.Grants p' new) : p.Replaces p' :=
  let ⟨made, calls, first, _⟩ := grants.calls
  ⟨made, calls, first⟩

theorem Grants.retry (first : p.Grants q none) (second : q.Grants p' new) : p.Grants p' new := by
  obtain ⟨early, early_eq, early_first, _⟩ := first.calls
  obtain ⟨late, late_eq, late_first, last⟩ := second.calls
  refine ⟨first.trades.trans second.trades, late ++ early, by rw [late_eq, early_eq, List.append_assoc],
    early_first.append late_first, fun n member => ?_⟩
  obtain ⟨rest, rfl, rest_first⟩ := last n member
  exact ⟨rest ++ early, rfl, early_first.append rest_first⟩

/-- A request that is not granted leaves the mappings. -/
theorem Grants.refused {outcome : MapOutcome} (refused : outcome ≠ .granted) (live : p'.live = p.live)
    (calls : p'.calls = .map m outcome :: p.calls) : p.Grants p' none := by
  have grants (n : Mapping) : Call.grants n (.map m outcome) = false := by
    unfold Call.grants
    split
    · rename_i same
      cases same
      exact absurd rfl refused
    · rfl
  exact ⟨fun _ holds => ⟨holds.toOrderly.of_call live calls grants fun _ => rfl, live ▸ holds.live⟩,
    [_], calls, .other (fun _ => rfl) .none, by simp⟩

theorem decide_eq_granted {plan : CallPlan} {h : Handle} {len : Nat} {room : Option Nat} {o : MapOutcome}
    (granted : decide plan h len room o = .granted) : ∃ address, room = some address := by
  rw [← Option.ne_none_iff_exists']
  rintro rfl
  unfold decide at granted
  split at granted
  · cases granted
  · split at granted
    · cases granted
    · split at granted
      · cases granted
      · cases granted

theorem map_grants (p : Platform) (h : Handle) {len : Nat} (positive : 0 < len) (sharing : Sharing) :
    p.Grants (p.map h len sharing).2 (p.map h len sharing).1.toOption := by
  unfold Platform.map
  split
  rename_i o plan _
  dsimp only
  split
  · rename_i outcome
    exact .refused (by rw [outcome]; exact nofun) rfl rfl
  · rename_i outcome
    exact .refused (by rw [outcome]; exact nofun) rfl rfl
  · rename_i outcome
    obtain ⟨address, placed⟩ := decide_eq_granted outcome
    rw [placed] at outcome ⊢
    refine ⟨fun rest holds => ⟨?_, (perm_enlist ..).trans (holds.live.cons _)⟩, [_], rfl,
      .other (fun _ => rfl) .none, ?_⟩
    · exact holds.toOrderly.grant (m := ⟨address, len, h.file, sharing⟩) positive placed rfl
        (by rw [outcome]; rfl)
    · rintro n ⟨⟩
      exact ⟨[], by rw [outcome], .none⟩

end Platform

namespace Mapper

theorem attempt_grants (h : Handle) {len : Nat} (positive : 0 < len) (sharing : Sharing) (p : Platform) :
    p.Grants (attempt h len sharing p).2 (attempt h len sharing p).1.toOption := by
  have grants := p.map_grants h positive sharing
  unfold attempt
  split <;> rename_i mapped <;> rw [mapped] at grants <;> exact grants

theorem mapPlain_grants (m : Mapper) (h : Handle) {len : Nat} (positive : 0 < len) (p : Platform) :
    p.Grants (m.mapPlain h len p).2 ((m.mapPlain h len p).1.toOption.map (·.1)) := by
  have grants := attempt_grants h positive .plain p
  unfold mapPlain
  split <;> rename_i mapped <;> rw [mapped] at grants <;> exact grants

theorem map_grants (m : Mapper) (h : Handle) (len : Nat) (p : Platform) :
    p.Grants (m.map h len p).2 ((m.map h len p).1.toOption.map (·.1)) := by
  unfold map
  by_cases empty : len = 0
  · rw [if_pos empty]
    exact .nothing p
  · have positive := Nat.pos_of_ne_zero empty
    rw [if_neg empty]
    split
    · have grants := attempt_grants h positive .synchronous p
      split <;> rename_i mapped <;> rw [mapped] at grants
      · exact grants
      · split
        · exact Platform.Grants.retry grants (m.mapPlain_grants h positive _)
        · exact grants
    · exact m.mapPlain_grants h positive p

theorem flush_trades (m : Mapper) (mapping : Mapping) (offset len : Nat) (medium : Medium) (p : Platform)
    (ms : List Mapping) : p.Trades ms (m.flush mapping offset len medium p).2 ms := by
  obtain ⟨_, flushed⟩ | ⟨first, count, failure, p', _, _, _, call, flushed⟩ :=
    m.flush_cases mapping offset len medium p
  · rw [flushed]
    exact .refl p ms
  · have trades := p.flush_trades medium mapping first count ms
    rw [call] at trades
    rw [flushed]
    exact trades

theorem flush_replaces (m : Mapper) (mapping : Mapping) (offset len : Nat) (medium : Medium)
    (p : Platform) : p.Replaces (m.flush mapping offset len medium p).2 := by
  obtain ⟨_, flushed⟩ | ⟨first, count, failure, p', _, _, _, call, flushed⟩ :=
    m.flush_cases mapping offset len medium p
  · rw [flushed]
    exact .refl p
  · have replaces := p.flush_replaces medium mapping first count
    rw [call] at replaces
    rw [flushed]
    exact replaces

theorem unmap_trades (m : Mapping) (p : Platform) : p.Trades [m] (unmap m p).2 [] := by
  rw [snd_unmap]
  exact p.unmap_trades m

end Mapper

/-- A mapping that was just granted takes the place of a shorter one. -/
theorem Platform.Grants.exchange {p q : Platform} {m n : Mapping} (grants : p.Grants q (some n))
    (file : n.file = m.file) (longer : m.len < n.len) :
    p.Trades [m] (Mapper.unmap m q).2 [n] ∧ p.Replaces (Mapper.unmap m q).2 := by
  refine ⟨(grants.trades.frame [m]).trans ?_, ?_⟩
  · exact ((Mapper.unmap_trades m q).frame [n]).perm (.swap ..) (.refl _)
  · obtain ⟨made, calls, -, last⟩ := grants.calls
    obtain ⟨rest, rfl, rest_first⟩ := last n rfl
    refine ⟨.unmap m (q.unmap m).1 :: .map n .granted :: rest, ?_, .replaced file longer rest_first⟩
    rw [Mapper.snd_unmap]
    exact congrArg (Call.unmap m _ :: ·) calls

end MappedStorage
