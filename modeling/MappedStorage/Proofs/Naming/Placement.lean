import Mathlib
import MappedStorage.Proofs.Naming.Path
import MappedStorage.Proofs.Provider.OpenFile

/-!
The files of a database by their names. The log and the index have the last name of the database with
a suffix, wherever they are placed (`Placement.placeIn_suffixed`). Opening places them by their kind,
deleting and examining by their name; the two agree where the name is text
(`Provider.resolve_suffixed`). Different databases have different files, unless a directory takes logs
and indexes of one name (`Provider.filesOf_disjoint_iff`).
-/

namespace MappedStorage

namespace Utf8

/-- The bytes are well-formed text. -/
def IsText (bytes : List UInt8) : Prop := (decode? bytes).isSome = true

instance (bytes : List UInt8) : Decidable (IsText bytes) := inferInstanceAs (Decidable (_ = true))

theorem isContinuation_eq_false {c : UInt8} (ascii : c < 0x80) : isContinuation c = false := by
  have low : ¬ (0x80 : UInt8) ≤ c := UInt8.not_le.mpr ascii
  simp [isContinuation, low]

theorem followsFirst_eq_false {b c : UInt8} (ascii : c < 0x80) : followsFirst b c = false := by
  have high : (0x80 : UInt8) ≤ (second b).1 := by
    rw [second]
    split_ifs <;> decide
  have low : ¬ (second b).1 ≤ c :=
    fun above => absurd (UInt8.le_trans high above) (UInt8.not_le.mpr ascii)
  simp [followsFirst, low]

/-- Plain characters after some bytes do not change what these begin with: none of them continues a
character that is broken off. -/
theorem lead_append (b : UInt8) (rest : List UInt8) {suffix : List UInt8}
    (ascii : ∀ c ∈ suffix, c < 0x80) :
    match lead b rest with
    | .char c length => lead b (rest ++ suffix) = .char c length ∧ length - 1 ≤ rest.length
    | .broken _ => ∃ n, lead b (rest ++ suffix) = .broken n := by
  have continues : ∀ c ∈ suffix, isContinuation c = false :=
    fun c member => isContinuation_eq_false (ascii c member)
  have follows : ∀ c ∈ suffix, followsFirst b c = false :=
    fun c member => followsFirst_eq_false (ascii c member)
  clear ascii
  rcases rest with _ | ⟨c, _ | ⟨d, _ | ⟨e, rest⟩⟩⟩ <;> rcases suffix with _ | ⟨x, suffix⟩ <;>
    simp only [List.mem_cons, forall_eq_or_imp, List.nil_append, List.cons_append, List.append_nil]
      at continues follows ⊢ <;>
    unfold lead <;> grind

theorem isText_of_ascii {bytes : List UInt8} (ascii : ∀ c ∈ bytes, c < 0x80) : IsText bytes := by
  induction bytes with
  | nil =>
    rw [IsText, decode?]
    rfl
  | cons b rest ih =>
    have single : lead b rest = .char (Char.ofNat b.toNat) 1 := by
      rw [lead.eq_def, if_pos (ascii b List.mem_cons_self)]
    rw [IsText, decode?, single]
    exact (Option.isSome_map ..).trans (ih fun c member => ascii c (List.mem_cons_of_mem b member))

/-- Plain characters make no text of other bytes, and leave text as text. -/
theorem isText_append_iff {bytes suffix : List UInt8} (ascii : ∀ c ∈ suffix, c < 0x80) :
    IsText (bytes ++ suffix) ↔ IsText bytes := by
  simp only [IsText]
  fun_induction decode? bytes with
  | case1 => exact iff_of_true (isText_of_ascii ascii) rfl
  | case2 b rest c length found ih =>
    have same := lead_append b rest ascii
    rw [found] at same
    rw [List.cons_append, decode?, same.1]
    dsimp only
    rw [List.drop_append_of_le_length same.2, Option.isSome_map, Option.isSome_map]
    exact ih
  | case3 b rest length found =>
    have broken := lead_append b rest ascii
    rw [found] at broken
    obtain ⟨n, broken⟩ := broken
    rw [List.cons_append, decode?, broken]

end Utf8

namespace Placement

open MappedStorage.Path (IsName separator)

/-- The suffix of a file that goes to persistent memory. -/
def IsSuffix (suffix : List UInt8) : Prop := suffix = logSuffix ∨ suffix = indexSuffix

variable {suffix : List UInt8} {db : Path} {directory : Option Path} {rootName : Option Name}

theorem IsSuffix.whole (isSuffix : IsSuffix suffix) : separator ∉ suffix := by
  obtain rfl | rfl := isSuffix <;> decide

theorem IsSuffix.ascii (isSuffix : IsSuffix suffix) : ∀ c ∈ suffix, c < 0x80 := by
  have small : (suffix.all fun c => decide (c < 0x80)) = true := by
    obtain rfl | rfl := isSuffix <;> rfl
  intro c member
  exact of_decide_eq_true (List.all_eq_true.mp small c member)

theorem IsSuffix.isName (isSuffix : IsSuffix suffix) {piece : List UInt8} (whole : separator ∉ piece) :
    IsName (piece ++ suffix) := by
  refine ⟨?_, ?_⟩
  · rw [List.mem_append, not_or]
    exact ⟨whole, isSuffix.whole⟩
  · -- It does not end with a dot, as the pieces that are no names do.
    have other {piece' : List UInt8} (ends : piece'.getLast? = some Path.dot ∨ piece' = []) :
        piece ++ suffix ≠ piece' := by
      rintro rfl
      obtain rfl | rfl := isSuffix <;> simp [logSuffix, indexSuffix, Path.dot] at ends
    rw [Path.component?, if_neg, if_neg (other (.inl rfl))]
    exact not_or.mpr ⟨other (.inr rfl), other (.inl rfl)⟩

theorem isName_lastPiece (isSuffix : IsSuffix suffix) (db : Path) :
    IsName (db.lastPiece ++ suffix) := by
  refine isSuffix.isName ?_
  obtain ⟨init, parts, -⟩ := db.exists_pieces_append isSuffix.whole
  exact Path.whole_of_mem_pieces (parts ▸ List.mem_append_right init (List.mem_singleton_self _))

theorem fileName?_suffixed (isSuffix : IsSuffix suffix) (db : Path) :
    (db.append suffix).fileName? = some (db.lastPiece ++ suffix) :=
  db.fileName?_append isSuffix.whole (isName_lastPiece isSuffix db).tells

theorem isPlaced_suffixed_iff (isSuffix : IsSuffix suffix) :
    isPlaced (db.append suffix) = true ↔ Utf8.IsText db.lastPiece := by
  have named : (logSuffix.isSuffixOf (db.lastPiece ++ suffix) ||
      indexSuffix.isSuffixOf (db.lastPiece ++ suffix)) = true := by
    rw [Bool.or_eq_true]
    obtain rfl | rfl := isSuffix
    · exact .inl (List.isSuffixOf_iff_suffix.mpr (List.suffix_append ..))
    · exact .inr (List.isSuffixOf_iff_suffix.mpr (List.suffix_append ..))
  have placed : isPlaced (db.append suffix) = isPlacedName (db.lastPiece ++ suffix) := by
    rw [isPlaced, fileName?_suffixed isSuffix]
  rw [placed, isPlacedName, named, Bool.and_true]
  exact Utf8.isText_append_iff isSuffix.ascii

/-- The file of a database goes to the directory under its own name. -/
theorem placeIn_suffixed (isSuffix : IsSuffix suffix) :
    placeIn rootName (db.append suffix) directory =
      match directory with
      | some dir => dir.join ⟨db.lastPiece ++ suffix⟩
      | none => db.append suffix := by
  have named : nameOf rootName (db.append suffix) = some (db.lastPiece ++ suffix) := by
    have named := fileName?_suffixed isSuffix db
    rw [nameOf, if_neg, named]
    intro root
    rw [Path.fileName?, root] at named
    cases named
  simp only [placeIn, named]
  cases directory <;> rfl

/-! ## Databases -/

/-- A database: a full name of a file that is neither a log nor an index by its own name. -/
structure IsDatabase (db : Path) (name : Name) : Prop where
  normal : db.IsNormal
  named : db.fileName? = some name
  notLog : ¬ logSuffix <:+ name
  notIndex : ¬ indexSuffix <:+ name

variable {name : Name}

/-- The log and the index of a database have its name and a suffix, in its own directory or another. -/
theorem IsDatabase.key_placeIn (database : IsDatabase db name) (isSuffix : IsSuffix suffix) :
    (placeIn rootName (db.append suffix) directory).key =
      (directory.map (·.key)).getD db.key.dropLast ++ [.name (name ++ suffix)] := by
  obtain ⟨names, areNames, rfl⟩ := database.normal.exists_names database.named
  have whole := (areNames name (List.mem_append_right names (List.mem_singleton_self _))).whole
  have isName := isSuffix.isName whole
  rw [placeIn_suffixed isSuffix, Path.lastPiece_ofNames names whole]
  cases directory with
  | some dir => exact Path.components_join dir isName
  | none =>
    dsimp only
    have suffixed : ∀ n ∈ names ++ [name ++ suffix], IsName n := by
      intro n member
      obtain before | last := List.mem_append.mp member
      · exact areNames n (List.mem_append_left _ before)
      · rw [List.mem_singleton.mp last]
        exact isName
    rw [Path.append_ofNames, Path.key, Path.key, Path.components_ofNames suffixed,
      Path.components_ofNames areNames, List.map_append, List.map_append, ← List.cons_append,
      ← List.cons_append, List.map_singleton, List.map_singleton, Option.map_none, Option.getD_none,
      List.dropLast_concat]

theorem IsDatabase.key_eq (database : IsDatabase db name) :
    db.key = db.key.dropLast ++ [.name name] := Path.components_of_fileName? database.named

theorem IsDatabase.not_placed (database : IsDatabase db name) : isPlaced db = false := by
  have kept (suffix : List UInt8) (other : ¬ suffix <:+ name) : suffix.isSuffixOf name = false :=
    Bool.eq_false_iff.mpr fun ends => other (List.isSuffixOf_iff_suffix.mp ends)
  rw [isPlaced, database.named]
  dsimp only
  rw [isPlacedName, kept _ database.notLog, kept _ database.notIndex, Bool.or_false, Bool.and_false]

end Placement

namespace Provider

open Placement

variable {v : Provider} {db : Path} {suffix : List UInt8} {kind : FileKind}

/-- The file of a database is placed by its name as by its kind, if there is no directory to place it in,
or the name is text. -/
theorem resolve_suffixed (isSuffix : IsSuffix suffix)
    (addressed : kind = .wal ∨ v.settings.directory = none ∨ Utf8.IsText db.lastPiece) :
    v.resolve (db.append suffix) kind = placeIn none (db.append suffix) v.settings.directory := by
  have placed (rootName : Option Name) : placeIn rootName (db.append suffix) v.settings.directory =
      placeIn none (db.append suffix) v.settings.directory := by
    rw [placeIn_suffixed isSuffix, placeIn_suffixed isSuffix]
  rw [resolve]
  split
  · exact placed v.rootName
  · rename_i stays
    rw [isPlaced_suffixed_iff isSuffix] at stays
    obtain wal | nowhere | text := addressed
    · exact absurd (.inl wal) stays
    · rw [placeIn_suffixed isSuffix, nowhere]
    · exact absurd (.inr text) stays

theorem resolve_of_not_isText (isSuffix : IsSuffix suffix) (other : kind ≠ .wal)
    (broken : ¬ Utf8.IsText db.lastPiece) :
    v.resolve (db.append suffix) kind = db.append suffix := by
  rw [resolve, if_neg]
  rintro (same | placed)
  · exact other same
  · exact broken ((isPlaced_suffixed_iff isSuffix).mp placed)

/-- What deleting and examining address is where the file is placed, unless its name is no text and
the directory is not that of the database. -/
theorem key_resolve_eq_iff (isSuffix : IsSuffix suffix) :
    (placeIn none (db.append suffix) v.settings.directory).key =
        (v.resolve (db.append suffix) .mainDb).key ↔
      ∀ dir, v.settings.directory = some dir →
        Utf8.IsText db.lastPiece ∨ dir.key = (db.append suffix).key.dropLast := by
  by_cases text : Utf8.IsText db.lastPiece
  · rw [resolve_suffixed isSuffix (.inr (.inr text))]
    exact iff_of_true rfl fun _ _ => .inl text
  · rw [resolve_of_not_isText isSuffix (by decide) text, placeIn_suffixed isSuffix]
    cases v.settings.directory with
    | none => exact iff_of_true rfl nofun
    | some dir =>
      have parts := Path.components_of_fileName? (fileName?_suffixed isSuffix db)
      have joined := Path.components_join dir (isName_lastPiece isSuffix db)
      constructor
      · rintro same _ ⟨⟩
        rw [Path.key, Path.key, joined, parts] at same
        exact .inr (List.append_cancel_right same)
      · intro inside
        rw [Path.key, Path.key, joined, parts]
        exact congrArg (· ++ _) ((inside dir rfl).resolve_left text)

/-- A file that was opened has its store where the path was resolved to, and the index of a database
where that is placed. -/
theorem openFile_paths {path : Path} {flags : OpenFlags} {s s' : Shared} {f : OpenFile}
    (opened : v.openFile (some path) flags s = (.ok f, s')) :
    f.path = v.resolve path flags.kind ∧ (flags.kind = .mainDb →
      f.index.map (·.path) = some (indexPath path v.settings.directory)) := by
  cases openFile_opened opened with
  | opened leads opening made =>
    cases leads
    have made := assemble_correct made
    refine ⟨?_, fun database => ?_⟩
    · rw [OpenFile.path, made.store]
      obtain ⟨_, _, rfl, _, _⟩ | ⟨_, _, _, rfl, _⟩ := Store.open_correct opening <;> rfl
    · rw [made.index, if_pos database]
      rfl

/-- A log that is opened, and the index of a database, are at the paths that deleting and examining
address, byte for byte, if nothing is placed elsewhere or the database has text for a name. Otherwise
these stay with the database, so they address another file than was opened unless the database lies in
the directory that logs and indexes go to. -/
theorem opened_is_addressed (v : Provider) (db : Path) :
    let log := logPath db
    let index := db.append indexSuffix
    (∀ flags s f s', v.openFile (some log) flags s = (.ok f, s') → flags.kind = .wal →
      f.path = v.resolve log .wal) ∧
    (∀ flags s f s', v.openFile (some db) flags s = (.ok f, s') → flags.kind = .mainDb →
      f.index.map (·.path) = some (indexPath db v.settings.directory)) ∧
    (v.settings.directory = none ∨ Utf8.IsText db.lastPiece →
      v.resolve log .wal = v.resolve log .mainDb ∧
        indexPath db v.settings.directory = v.resolve index .mainDb) ∧
    ((v.resolve log .wal).key = (v.resolve log .mainDb).key ↔ ∀ dir, v.settings.directory = some dir →
      Utf8.IsText db.lastPiece ∨ dir.key = log.key.dropLast) ∧
    ((indexPath db v.settings.directory).key = (v.resolve index .mainDb).key ↔
      ∀ dir, v.settings.directory = some dir →
        Utf8.IsText db.lastPiece ∨ dir.key = index.key.dropLast) := by
  have logs : IsSuffix logSuffix := .inl rfl
  have indexes : IsSuffix indexSuffix := .inr rfl
  have wal : v.resolve (logPath db) .wal = placeIn none (logPath db) v.settings.directory :=
    resolve_suffixed logs (.inl rfl)
  refine ⟨?_, ?_, ?_, ?_, ?_⟩
  · intro flags s f s' opened kind
    rw [(openFile_paths opened).1, kind]
  · intro flags s f s' opened kind
    exact (openFile_paths opened).2 kind
  · intro addressed
    exact ⟨wal.trans (resolve_suffixed logs (.inr addressed)).symm,
      (resolve_suffixed indexes (.inr addressed)).symm⟩
  · rw [wal]
    exact key_resolve_eq_iff logs
  · exact key_resolve_eq_iff indexes

/-- A log whose name is no text is written in the directory for logs, but examining finds nothing
there, and deleting leaves it. -/
theorem unreadable_log_is_overlooked :
    let db : Path := ⟨[0x2F, 0x78, 0xFF]⟩
    let v : Provider := { settings := { directory := some ⟨[0x2F, 0x70]⟩ }, mapper := {} }
    let files := (FileSystem.empty.makeDirectory ⟨[0x2F, 0x70]⟩).toOption.getD .empty
    let written := (OpenFiles.start { files }).run v [.open "log" (some (logPath db)) { kind := .wal },
      .ask "log" (.write 0 #[0x66]), .drop "log"]
    let deleted := written.step v (.delete (logPath db) false)
    (v.access (logPath db) .existence written.state).toOption = some false ∧
      (deleted.state.platform.files.bytesAt (v.resolve (logPath db) .wal)).toList = [0x66] ∧
      (v.resolve (logPath db) .wal).key ≠ (v.resolve (logPath db) .mainDb).key ∧
      (indexPath db v.settings.directory).key ≠ (v.resolve (db.append indexSuffix) .mainDb).key := by
  refine ⟨?_, ?_, ?_, ?_⟩
  · cbv
  · cbv
  · cbv
    intro same
    cases same
  · cbv
    intro same
    cases same

/-! ## The files of different databases -/

variable {p q : Path} {name name' : Name}

/-- The paths of the files of a database: of itself, of its log and of its shared index. -/
def filesOf (v : Provider) (db : Path) : List Path.Key :=
  [(v.resolve db .mainDb).key, (v.resolve (logPath db) .wal).key,
    (indexPath db v.settings.directory).key]

/-- Where the log and the index of a database are. -/
def besides (v : Provider) (db : Path) : Path.Key :=
  (v.settings.directory.map (·.key)).getD db.key.dropLast

theorem filesOf_eq (database : IsDatabase p name) : v.filesOf p = [p.key.dropLast ++ [.name name],
    v.besides p ++ [.name (name ++ logSuffix)], v.besides p ++ [.name (name ++ indexSuffix)]] := by
  have stays : ¬ (FileKind.mainDb = .wal ∨ isPlaced p = true) := by simp [database.not_placed]
  rw [filesOf, besides, resolve, if_neg stays, resolve, if_pos (.inl rfl), logPath, indexPath,
    database.key_placeIn (.inl rfl), database.key_placeIn (.inr rfl), ← database.key_eq]

/-- Different databases have no file in common, unless their logs and indexes go to one directory under
one name. -/
theorem filesOf_disjoint_iff (database : IsDatabase p name) (database' : IsDatabase q name')
    (different : p ≠ q) : (v.filesOf p).Disjoint (v.filesOf q) ↔
      v.settings.directory = none ∨ name ≠ name' := by
  have last {a b : Path.Key} {n m : Name} (same : a ++ [Component.name n] = b ++ [.name m]) :
      a = b ∧ n = m := by simpa using List.append_inj' same rfl
  have ends {suffix n m : List UInt8} (same : n = m ++ suffix) : suffix <:+ n :=
    ⟨m, same.symm⟩
  constructor
  · intro disjoint
    by_contra both
    obtain ⟨placed, rfl⟩ : v.settings.directory ≠ none ∧ name = name' := by simpa using both
    obtain ⟨dir, there⟩ := Option.ne_none_iff_exists'.mp placed
    have log : v.besides p = v.besides q := by rw [besides, besides, there]; rfl
    rw [filesOf_eq database, filesOf_eq database', log] at disjoint
    exact disjoint (List.mem_cons_of_mem _ List.mem_cons_self)
      (List.mem_cons_of_mem _ List.mem_cons_self)
  · intro apart key member member'
    rw [filesOf_eq database] at member
    rw [filesOf_eq database'] at member'
    -- Without a directory the log and the index of a database lie beside it, so they tell which it is.
    have besides_eq (here : v.besides p = v.besides q) (same : name = name') : False := by
      obtain nowhere | other := apart
      · rw [besides, besides, nowhere] at here
        refine different (database.normal.eq_of_key_eq database'.normal ?_)
        rw [database.key_eq, database'.key_eq, same]
        exact congrArg (· ++ _) here
      · exact other same
    simp only [List.mem_cons, List.not_mem_nil, or_false] at member member'
    obtain rfl | rfl | rfl := member
    · obtain same | same | same := member'
      · refine different (database.normal.eq_of_key_eq database'.normal ?_)
        rw [database.key_eq, database'.key_eq]
        exact same
      · exact database.notLog (ends (last same).2)
      · exact database.notIndex (ends (last same).2)
    · obtain same | same | same := member'
      · exact database'.notLog (ends (last same).2.symm)
      · exact besides_eq (last same).1 (List.append_cancel_right (last same).2)
      · exact absurd (List.append_inj' (last same).2 rfl).2 (by decide)
    · obtain same | same | same := member'
      · exact database'.notIndex (ends (last same).2.symm)
      · exact absurd (List.append_inj' (last same).2 rfl).2 (by decide)
      · exact besides_eq (last same).1 (List.append_cancel_right (last same).2)

end Provider
end MappedStorage
