import MappedStorage.Provider.Settings
import MappedStorage.Proofs.Text.Numeral
import MappedStorage.Proofs.Text.Utf8

/-!
What the environment may say of the settings. Of each variable it is laid down which values spell a setting
(`SpellsCapacity`, `SpellsMedium`, `SpellsLocking`) and by which error all others are refused; its reader
does just that (`Reads`). Put together, an environment gives the settings that it describes, and is refused
for the first variable at fault where it describes none (`ofEnvironment_exact`).
-/

namespace MappedStorage.Settings

/-! ## What the variables may say -/

/-- The value of a variable spells a capacity: text with a numeral between white space, of a number that is a
word. -/
def SpellsCapacity (value : List UInt8) (n : Nat) : Prop :=
  ∃ left numeral right, value = Utf8.encode (String.ofList (left ++ numeral ++ right)) ∧
    Blank.IsBlank left ∧ Blank.IsBlank right ∧ Numeral.Denotes numeral n ∧ n < 2 ^ 64

/-- The value of a variable spells the medium that is forced. -/
inductive SpellsMedium : List UInt8 → Detection → Prop
  | persistent : SpellsMedium (Utf8.encode "1") .persistent
  | emulated : SpellsMedium (Utf8.encode "0") .emulated

/-- The value of a variable spells a locking mode. -/
inductive SpellsLocking : List UInt8 → Exclusion → Prop
  | noop : SpellsLocking (Utf8.encode "noop") .none
  | none : SpellsLocking (Utf8.encode "none") .none
  | inProcess : SpellsLocking (Utf8.encode "in-process") .inProcess
  | process : SpellsLocking (Utf8.encode "process") .inProcess

/-- How the value of the locking variable is refused: by the word if it is text. -/
inductive RefusedLocking : List UInt8 → SettingsError → Prop
  | word (word : String) : RefusedLocking (Utf8.encode word) (.locking word)
  | bytes {value : List UInt8} (unread : ∀ word, Utf8.encode word ≠ value) :
      RefusedLocking value (.invalid .locking value)

/-- What a variable says of a setting: the default where it is unset, else what its value spells. -/
inductive Says {α : Type} (Spells : List UInt8 → α → Prop) (default : α) : Option (List UInt8) → α → Prop
  | unset : Says Spells default none default
  | set {value : List UInt8} {a : α} (spelled : Spells value a) : Says Spells default (some value) a

/-- A variable is set to a value that spells nothing, for which it is refused. -/
def Misspelt {α : Type} (Spells : List UInt8 → α → Prop) (Refused : List UInt8 → SettingsError → Prop)
    (given : Option (List UInt8)) (e : SettingsError) : Prop :=
  ∃ value, given = some value ∧ (∀ a, ¬ Spells value a) ∧ Refused value e

/-- Each variable that is set has a value that it can have. The directory can be any. -/
structure WellFormed (env : Environment) : Prop where
  capacity : ∀ value, env .initialCapacity = some value → ∃ n, SpellsCapacity value n ∧ 0 < n
  medium : ∀ value, env .forceMedium = some value → ∃ d, SpellsMedium value d
  locking : ∀ value, env .locking = some value → ∃ l, SpellsLocking value l

/-- The settings that an environment describes: the defaults but for what the variables say. The directory
counts as unset if it is empty. -/
structure Described (env : Environment) (s : Settings) : Prop where
  capacity : Says SpellsCapacity 8192 (env .initialCapacity) s.initialCapacity
  positive : 0 < s.initialCapacity
  medium : Says SpellsMedium .automatic (env .forceMedium) s.detection
  locking : Says SpellsLocking .none (env .locking) s.locking
  directory : ∀ dir, s.directory = some dir ↔ dir.bytes ≠ [] ∧ env .directory = some dir.bytes
  defaults : s = { directory := s.directory, initialCapacity := s.initialCapacity, detection := s.detection
                   locking := s.locking }

/-- What is wrong with an environment: the first variable that is misspelt, or else a capacity of zero. -/
inductive Fault (env : Environment) (e : SettingsError) : Prop
  | capacity (bad : Misspelt SpellsCapacity (fun value e => e = .invalid .initialCapacity value)
      (env .initialCapacity) e) : Fault env e
  | medium {n : Nat} (capacity : Says SpellsCapacity 8192 (env .initialCapacity) n)
      (bad : Misspelt SpellsMedium (fun value e => e = .invalid .forceMedium value)
        (env .forceMedium) e) : Fault env e
  | locking {n : Nat} {d : Detection} (capacity : Says SpellsCapacity 8192 (env .initialCapacity) n)
      (medium : Says SpellsMedium .automatic (env .forceMedium) d)
      (bad : Misspelt SpellsLocking RefusedLocking (env .locking) e) : Fault env e
  | zero {d : Detection} {l : Exclusion} (capacity : Says SpellsCapacity 8192 (env .initialCapacity) 0)
      (medium : Says SpellsMedium .automatic (env .forceMedium) d)
      (locking : Says SpellsLocking .none (env .locking) l) (which : e = .zero "initial capacity") :
      Fault env e

/-- A reader of values that reads what they spell and refuses all others. -/
structure Reads {α : Type} (read : List UInt8 → Except SettingsError α) (Spells : List UInt8 → α → Prop)
    (Refused : List UInt8 → SettingsError → Prop) : Prop where
  ok_iff : ∀ value a, read value = .ok a ↔ Spells value a
  error_iff : ∀ value e, read value = .error e ↔ (∀ a, ¬ Spells value a) ∧ Refused value e

/-! ## The readers -/

variable {α : Type} {env : Environment} {var : Variable} {value : List UInt8} {e : SettingsError} {a : α}
  {read : List UInt8 → Except SettingsError α} {Spells : List UInt8 → α → Prop}
  {Refused : List UInt8 → SettingsError → Prop}

/-- It is enough that a reader reads what is spelled and refuses as it should, if there is one way to. -/
theorem Reads.of_refuses (ok_iff : ∀ value a, read value = .ok a ↔ Spells value a)
    (refuses : ∀ value e, read value = .error e → Refused value e)
    (unique : ∀ value e e', Refused value e → Refused value e' → e = e') : Reads read Spells Refused := by
  refine ⟨ok_iff, fun value e => ⟨fun refused => ⟨fun a spelled => ?_, refuses value e refused⟩, ?_⟩⟩
  · rw [(ok_iff value a).mpr spelled] at refused
    cases refused
  · rintro ⟨unspelled, refused⟩
    cases found : read value with
    | ok a => exact absurd ((ok_iff value a).mp found) (unspelled a)
    | error e' => rw [unique value e' e (refuses value e' found) refused]

theorem capacityOf_eq_ok_iff {n : Nat} : capacityOf value = .ok n ↔ SpellsCapacity value n := by
  have below : n ≤ Word.max ↔ n < 2 ^ 64 := by
    rw [Word.max]
    omega
  have found : capacityOf value = .ok n ↔
      ((Utf8.decode? value).bind fun cs => Numeral.word? (Blank.trim cs)) = some n := by
    rw [capacityOf]
    split <;> rename_i read <;> simp [read]
  rw [found, Option.bind_eq_some_iff, SpellsCapacity]
  constructor
  · rintro ⟨cs, text, read⟩
    obtain ⟨left, numeral, right, before, after, rfl, denotes, word⟩ := Numeral.word?_trim_eq_some_iff.mp read
    exact ⟨left, numeral, right, (Utf8.decode?_eq_some_iff.mp text).symm, before, after, denotes,
      below.mp word⟩
  · rintro ⟨left, numeral, right, rfl, before, after, denotes, word⟩
    exact ⟨_, Utf8.decode?_eq_some_iff.mpr rfl,
      Numeral.word?_trim_eq_some_iff.mpr ⟨left, numeral, right, before, after, rfl, denotes, below.mpr word⟩⟩

theorem capacityOf_reads :
    Reads capacityOf SpellsCapacity fun value e => e = .invalid .initialCapacity value := by
  refine .of_refuses (fun _ _ => capacityOf_eq_ok_iff) ?_ fun _ _ _ first second => first.trans second.symm
  intro value e refused
  rw [capacityOf] at refused
  split at refused <;> cases refused
  rfl

theorem encode_one : Utf8.encode "1" = [0x31] := (Utf8.encode_ofList ['1']).trans rfl

theorem encode_zero : Utf8.encode "0" = [0x30] := (Utf8.encode_ofList ['0']).trans rfl

theorem forcedMedium_reads :
    Reads forcedMedium SpellsMedium fun value e => e = .invalid .forceMedium value := by
  refine .of_refuses (fun value d => ⟨fun found => ?_, ?_⟩) ?_
    fun _ _ _ first second => first.trans second.symm
  · rw [forcedMedium] at found
    split_ifs at found with one zero <;> cases found
    · rw [one, ← encode_one]
      exact .persistent
    · rw [zero, ← encode_zero]
      exact .emulated
  · rintro (_ | _)
    · rw [encode_one]
      rfl
    · rw [encode_zero]
      rfl
  · intro value e refused
    rw [forcedMedium] at refused
    split_ifs at refused
    cases refused
    rfl

theorem encode_injective {s t : String} (same : Utf8.encode s = Utf8.encode t) : s = t :=
  Option.some.inj ((Utf8.string?_eq_some_iff.mpr rfl).symm.trans (Utf8.string?_eq_some_iff.mpr same.symm))

theorem lockingOf_encode (word : String) : lockingOf (Utf8.encode word) = Exclusion.ofWord word := by
  rw [lockingOf, Utf8.string?_eq_some_iff.mpr rfl]

theorem lockingOf_reads : Reads lockingOf SpellsLocking RefusedLocking := by
  refine .of_refuses (fun value l => ⟨fun found => ?_, ?_⟩) ?_ ?_
  · rw [lockingOf] at found
    split at found
    · rename_i word text
      obtain rfl := Utf8.string?_eq_some_iff.mp text
      rw [Exclusion.ofWord] at found
      split_ifs at found with none inProcess <;> cases found
      · obtain rfl | rfl := none
        · exact .noop
        · exact .none
      · obtain rfl | rfl := inProcess
        · exact .inProcess
        · exact .process
    · cases found
  · rintro (_ | _ | _ | _) <;> rw [lockingOf_encode] <;> rfl
  · intro value e refused
    rw [lockingOf] at refused
    split at refused
    · rename_i word text
      obtain rfl := Utf8.string?_eq_some_iff.mp text
      rw [Exclusion.ofWord] at refused
      split_ifs at refused
      cases refused
      exact .word word
    · rename_i unread
      cases refused
      refine .bytes fun word written => ?_
      rw [Utf8.string?_eq_some_iff.mpr written] at unread
      cases unread
  · rintro value e e' (word | unread) second
    · generalize written : Utf8.encode word = value at second
      obtain word' | unread := second
      · rw [encode_injective written]
      · exact absurd written (unread word)
    · obtain word | _ := second
      · exact absurd rfl (unread word)
      · rfl

/-! ## The environment -/

theorem override_eq_ok_iff {otherwise : α} (reads : Reads read Spells Refused) :
    override env var otherwise read = .ok a ↔ Says Spells otherwise (env var) a := by
  rw [override]
  cases given : env var with
  | none =>
    constructor
    · rintro ⟨⟩
      exact .unset
    · rintro ⟨⟩
      rfl
  | some value =>
    refine (reads.ok_iff value a).trans ⟨.set, ?_⟩
    rintro (_ | spelled)
    exact spelled

theorem override_eq_error_iff {otherwise : α} (reads : Reads read Spells Refused) :
    override env var otherwise read = .error e ↔ Misspelt Spells Refused (env var) e := by
  rw [override]
  cases given : env var with
  | none =>
    refine ⟨nofun, ?_⟩
    rintro ⟨_, ⟨⟩, _⟩
  | some value =>
    refine (reads.error_iff value e).trans ⟨fun bad => ⟨value, rfl, bad⟩, ?_⟩
    rintro ⟨_, ⟨⟩, bad⟩
    exact bad

theorem directoryOf_eq_some_iff {dir : Path} :
    directoryOf env = some dir ↔ dir.bytes ≠ [] ∧ env .directory = some dir.bytes := by
  obtain ⟨bytes⟩ := dir
  rw [directoryOf]
  cases env .directory with
  | none => simp
  | some value => cases value <;> cases bytes <;> simp

/-- Of the settings that can be overridden only the capacity can be one that no provider works with. -/
theorem validate_overridden (directory : Option Path) (initialCapacity : Nat) (detection : Detection)
    (locking : Exclusion) :
    ({ directory, initialCapacity, detection, locking } : Settings).validate =
      if initialCapacity = 0 then .error (.zero "initial capacity") else .ok () := by
  have named : "pmem".utf8ByteSize ≠ 0 := by decide
  by_cases zero : initialCapacity = 0 <;> simp [validate, positives, zero, named]

theorem checked_eq_ok_iff {s c : Settings} : checked s = .ok c ↔ s.validate = .ok () ∧ c = s := by
  rw [checked]
  split <;> rename_i answer <;> simp [answer, eq_comm]

theorem checked_eq_error_iff {s : Settings} : checked s = .error e ↔ s.validate = .error e := by
  rw [checked]
  split <;> rename_i answer <;> simp [answer]

theorem Described.validate_eq {s : Settings} (described : Described env s) : s.validate = .ok () := by
  rw [described.defaults, validate_overridden, if_neg described.positive.ne']

theorem ofEnvironment_eq_ok_iff {s : Settings} : ofEnvironment env = .ok s ↔ Described env s := by
  constructor
  · intro found
    rw [ofEnvironment] at found
    split at found
    · cases found
    · rename_i n capacity
      split at found
      · cases found
      · rename_i d medium
        split at found
        · cases found
        · rename_i l locking
          obtain ⟨valid, rfl⟩ := checked_eq_ok_iff.mp found
          rw [validate_overridden] at valid
          split_ifs at valid with zero
          exact {
            capacity := (override_eq_ok_iff capacityOf_reads).mp capacity
            positive := Nat.pos_of_ne_zero zero
            medium := (override_eq_ok_iff forcedMedium_reads).mp medium
            locking := (override_eq_ok_iff lockingOf_reads).mp locking
            directory := fun _ => directoryOf_eq_some_iff
            defaults := rfl }
  · intro described
    have directory : directoryOf env = s.directory :=
      Option.ext fun dir => directoryOf_eq_some_iff.trans (described.directory dir).symm
    rw [ofEnvironment, (override_eq_ok_iff capacityOf_reads).mpr described.capacity]
    simp only
    rw [(override_eq_ok_iff forcedMedium_reads).mpr described.medium]
    simp only
    rw [(override_eq_ok_iff lockingOf_reads).mpr described.locking]
    simp only
    rw [directory, ← described.defaults]
    exact checked_eq_ok_iff.mpr ⟨described.validate_eq, rfl⟩

theorem Says.exists_iff {otherwise : α} {given : Option (List UInt8)} :
    (∃ a, Says Spells otherwise given a) ↔ ∀ value, given = some value → ∃ a, Spells value a := by
  constructor
  · rintro ⟨a, _ | spelled⟩ value ⟨⟩
    exact ⟨a, spelled⟩
  · intro spelled
    cases given with
    | none => exact ⟨otherwise, .unset⟩
    | some value =>
      obtain ⟨a, spells⟩ := spelled value rfl
      exact ⟨a, .set spells⟩

/-- An environment describes settings if it is well formed. -/
theorem wellFormed_iff_described : WellFormed env ↔ ∃ s, Described env s := by
  constructor
  · intro wellFormed
    obtain ⟨n, capacity, positive⟩ : ∃ n, Says SpellsCapacity 8192 (env .initialCapacity) n ∧ 0 < n := by
      cases given : env .initialCapacity with
      | none => exact ⟨8192, .unset, by decide⟩
      | some value =>
        obtain ⟨n, spelled, positive⟩ := wellFormed.capacity value given
        exact ⟨n, .set spelled, positive⟩
    obtain ⟨d, medium⟩ := Says.exists_iff.mpr wellFormed.medium
    obtain ⟨l, locking⟩ := Says.exists_iff.mpr wellFormed.locking
    exact ⟨{ directory := directoryOf env, initialCapacity := n, detection := d, locking := l },
      { capacity, positive, medium, locking, directory := fun _ => directoryOf_eq_some_iff, defaults := rfl }⟩
  · rintro ⟨s, described⟩
    refine ⟨fun value given => ?_, Says.exists_iff.mp ⟨_, described.medium⟩,
      Says.exists_iff.mp ⟨_, described.locking⟩⟩
    obtain ⟨n, spelled⟩ | ⟨spelled⟩ := given ▸ described.capacity
    exact ⟨_, spelled, described.positive⟩

theorem ofEnvironment_eq_error_iff : ofEnvironment env = .error e ↔ Fault env e := by
  constructor
  · intro refused
    rw [ofEnvironment] at refused
    split at refused
    · rename_i bad
      cases refused
      exact .capacity ((override_eq_error_iff capacityOf_reads).mp bad)
    · rename_i n capacity
      have capacity := (override_eq_ok_iff capacityOf_reads).mp capacity
      split at refused
      · rename_i bad
        cases refused
        exact .medium capacity ((override_eq_error_iff forcedMedium_reads).mp bad)
      · rename_i d medium
        have medium := (override_eq_ok_iff forcedMedium_reads).mp medium
        split at refused
        · rename_i bad
          cases refused
          exact .locking capacity medium ((override_eq_error_iff lockingOf_reads).mp bad)
        · rename_i l locking
          have locking := (override_eq_ok_iff lockingOf_reads).mp locking
          rw [checked_eq_error_iff, validate_overridden] at refused
          split_ifs at refused with zero
          cases refused
          subst zero
          exact .zero capacity medium locking rfl
  · rintro (bad | ⟨capacity, bad⟩ | ⟨capacity, medium, bad⟩ | ⟨capacity, medium, locking, rfl⟩)
    · rw [ofEnvironment, (override_eq_error_iff capacityOf_reads).mpr bad]
    · rw [ofEnvironment, (override_eq_ok_iff capacityOf_reads).mpr capacity]
      simp only
      rw [(override_eq_error_iff forcedMedium_reads).mpr bad]
    · rw [ofEnvironment, (override_eq_ok_iff capacityOf_reads).mpr capacity]
      simp only
      rw [(override_eq_ok_iff forcedMedium_reads).mpr medium]
      simp only
      rw [(override_eq_error_iff lockingOf_reads).mpr bad]
    · rw [ofEnvironment, (override_eq_ok_iff capacityOf_reads).mpr capacity]
      simp only
      rw [(override_eq_ok_iff forcedMedium_reads).mpr medium]
      simp only
      rw [(override_eq_ok_iff lockingOf_reads).mpr locking]
      exact checked_eq_error_iff.mpr (validate_overridden ..)

/-- The environment is read exactly. There are settings if all variables are well formed, and then they are
the ones described, which pass `validate`; else the reading is refused for the first thing at fault. -/
theorem ofEnvironment_exact (env : Environment) :
    ((∃ s, ofEnvironment env = .ok s) ↔ WellFormed env) ∧
      (∀ s, ofEnvironment env = .ok s ↔ Described env s) ∧
        (∀ s, ofEnvironment env = .ok s → s.validate = .ok ()) ∧
          ∀ e, ofEnvironment env = .error e ↔ Fault env e := by
  refine ⟨?_, fun _ => ofEnvironment_eq_ok_iff, ?_, fun _ => ofEnvironment_eq_error_iff⟩
  · simp only [ofEnvironment_eq_ok_iff, wellFormed_iff_described]
  · intro s found
    exact (ofEnvironment_eq_ok_iff.mp found).validate_eq

/-- A capacity may have a no-break space before it, a sign, zeros and a line feed behind it. -/
example : ofEnvironment (fun | .initialCapacity => some [0xC2, 0xA0, 0x2B, 0x30, 0x37, 0x0A] | _ => none) =
    .ok { initialCapacity := 7 } := by cbv

/-- A capacity of zero is passed over where another variable is misspelt. -/
example : ofEnvironment (fun | .initialCapacity => some [0x30] | .locking => some [0xFF] | _ => none) =
    .error (.invalid .locking [0xFF]) := by cbv

end MappedStorage.Settings
