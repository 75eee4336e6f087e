import Mathlib.Data.List.Induction
import Mathlib.Data.Nat.Digits.Defs
import Mathlib.Tactic.Choose
import Mathlib.Tactic.IntervalCases
import Mathlib.Tactic.SplitIfs
import MappedStorage.Text.Blank
import MappedStorage.Text.Numeral

/-!
Numerals and the white space around them. A numeral is read as the number that its digits denote, if that
is a word (`Numeral.word?_eq_some_iff`). Trimming takes off blank characters at both ends and no others, so
with any white space around it a numeral is read as it is without (`Numeral.word?_trim_eq_some_iff`).
-/

namespace MappedStorage

/-! ## White space -/

namespace Blank

/-- White space. -/
def IsBlank (cs : List Char) : Prop := ∀ c ∈ cs, isBlank c = true

variable {left right cs : List Char}

theorem isBlank_reverse (blank : IsBlank cs) : IsBlank cs.reverse := by
  intro c member
  exact blank c (List.mem_reverse.mp member)

theorem isBlank_takeWhile (cs : List Char) : IsBlank (cs.takeWhile isBlank) := by
  intro c member
  exact List.all_eq_true.mp (List.all_takeWhile ..) c member

/-- Characters that are blank are taken off the front, up to one that is not. -/
theorem dropWhile_append (blank : IsBlank left) (starts : ∀ c ∈ cs.head?, isBlank c = false) :
    (left ++ cs).dropWhile isBlank = cs := by
  rw [List.dropWhile_append_of_pos blank]
  cases cs with
  | nil => rfl
  | cons c cs => rw [List.dropWhile_cons_of_neg (by simp [starts c rfl])]

theorem trim_append (before : IsBlank left) (after : IsBlank right)
    (starts : ∀ c ∈ cs.head?, isBlank c = false) (ends : ∀ c ∈ cs.getLast?, isBlank c = false) :
    trim (left ++ cs ++ right) = cs := by
  cases cs with
  | nil =>
    have all : IsBlank (left ++ right) := fun c member => (List.mem_append.mp member).elim (before c) (after c)
    have none : (left ++ right ++ []).dropWhile isBlank = [] := dropWhile_append all (by simp)
    rw [List.append_nil] at none
    rw [trim, List.append_nil, none]
    rfl
  | cons c cs =>
    have front : (left ++ (c :: cs ++ right)).dropWhile isBlank = c :: cs ++ right :=
      dropWhile_append before starts
    have back : (right.reverse ++ (c :: cs).reverse).dropWhile isBlank = (c :: cs).reverse :=
      dropWhile_append (isBlank_reverse after) (by rwa [List.head?_reverse])
    rw [trim, List.append_assoc, front, List.reverse_append, back, List.reverse_reverse]

/-- What is left by trimming has been between white space. -/
theorem exists_trim (cs : List Char) :
    ∃ left right, IsBlank left ∧ IsBlank right ∧ cs = left ++ trim cs ++ right := by
  refine ⟨cs.takeWhile isBlank, ((cs.dropWhile isBlank).reverse.takeWhile isBlank).reverse,
    isBlank_takeWhile cs, isBlank_reverse (isBlank_takeWhile _), ?_⟩
  rw [trim, List.append_assoc, ← List.reverse_append, List.takeWhile_append_dropWhile, List.reverse_reverse,
    List.takeWhile_append_dropWhile]

end Blank

/-! ## Numerals -/

namespace Numeral

/-- The characters are a numeral of a number: perhaps a plus sign, and then at least one decimal digit, the
first of them the highest. -/
def Denotes (cs : List Char) (n : Nat) : Prop :=
  ∃ sign digits, (sign = [] ∨ sign = ['+']) ∧ digits ≠ [] ∧ (∀ d ∈ digits, d < 10) ∧
    cs = sign ++ digits.map Nat.digitChar ∧ n = Nat.ofDigits 10 digits.reverse

variable {c : Char} {cs : List Char} {digits : List Nat} {n : Nat}

theorem isDigit_iff : isDigit c = true ↔ ∃ d < 10, c = Nat.digitChar d := by
  have interval : isDigit c = true ↔ 48 ≤ c.toNat ∧ c.toNat ≤ 57 := by
    simp [isDigit, Char.le_def, UInt32.le_iff_toNat_le]
  rw [interval]
  constructor
  · rintro ⟨low, high⟩
    refine ⟨c.toNat - 48, by omega, Char.toNat_inj.mp ?_⟩
    rw [Nat.toNat_digitChar_of_lt_ten (by omega)]
    omega
  · rintro ⟨d, small, rfl⟩
    rw [Nat.toNat_digitChar_of_lt_ten small]
    omega

theorem value_map_digitChar (small : ∀ d ∈ digits, d < 10) :
    value (digits.map Nat.digitChar) = Nat.ofDigits 10 digits.reverse := by
  induction digits using List.reverseRecOn with
  | nil => rfl
  | append_singleton digits d ih =>
    have last : d < 10 := small d (by simp)
    have before := ih fun e member => small e (by simp [member])
    rw [value] at before ⊢
    rw [List.map_append, List.foldl_append, before, List.reverse_append]
    simp only [List.map_cons, List.map_nil, List.foldl_cons, List.foldl_nil, List.reverse_singleton,
      List.singleton_append, Nat.ofDigits_cons, Nat.toNat_digitChar_of_lt_ten last]
    show _ * 10 + (48 + d - 48) = _
    omega

theorem ofDigits?_eq_some_iff : ofDigits? cs = some n ↔ ∃ digits, digits ≠ [] ∧ (∀ d ∈ digits, d < 10) ∧
    cs = digits.map Nat.digitChar ∧ n = Nat.ofDigits 10 digits.reverse ∧ n ≤ Word.max := by
  rw [ofDigits?]
  constructor
  · intro read
    split_ifs at read with given
    cases read
    obtain ⟨nonempty, decimal, word⟩ := given
    have digit : ∀ c ∈ cs, ∃ d < 10, c = Nat.digitChar d := fun c member =>
      isDigit_iff.mp (List.all_eq_true.mp decimal c member)
    choose! digit small shown using digit
    have spelled : cs = (cs.map digit).map Nat.digitChar := by
      rw [List.map_map]
      exact (List.map_id cs).symm.trans (List.map_congr_left shown)
    have decimals : ∀ d ∈ cs.map digit, d < 10 := by
      intro d read
      obtain ⟨c, member, rfl⟩ := List.mem_map.mp read
      exact small c member
    have number := value_map_digitChar decimals
    rw [← spelled] at number
    exact ⟨cs.map digit, by simpa using nonempty, decimals, spelled, number, word⟩
  · rintro ⟨digits, nonempty, small, rfl, rfl, word⟩
    have number := value_map_digitChar small
    have decimal : (digits.map Nat.digitChar).all isDigit = true := by
      rw [List.all_map, List.all_eq_true]
      intro d member
      exact isDigit_iff.mpr ⟨d, small d member, rfl⟩
    rw [number, if_pos ⟨by simpa using nonempty, decimal, word⟩]

/-- No digit is a plus sign, so a numeral without a sign is not taken for one with a sign. -/
theorem word?_map_digitChar (small : ∀ d ∈ digits, d < 10) :
    word? (digits.map Nat.digitChar) = ofDigits? (digits.map Nat.digitChar) := by
  rw [word?.eq_def]
  split
  · rename_i rest signed
    obtain ⟨d, member, plus⟩ : ∃ d ∈ digits, d.digitChar = '+' := by
      rw [← List.mem_map, signed]
      exact List.mem_cons_self
    have point := congrArg Char.toNat plus
    rw [Nat.toNat_digitChar_of_lt_ten (small d member)] at point
    exact absurd point (by simp; omega)
  · rfl

theorem word?_eq_some_iff : word? cs = some n ↔ Denotes cs n ∧ n ≤ Word.max := by
  constructor
  · intro read
    rw [word?.eq_def] at read
    split at read
    · obtain ⟨digits, nonempty, small, rfl, number, word⟩ := ofDigits?_eq_some_iff.mp read
      exact ⟨⟨['+'], digits, .inr rfl, nonempty, small, rfl, number⟩, word⟩
    · obtain ⟨digits, nonempty, small, rfl, number, word⟩ := ofDigits?_eq_some_iff.mp read
      exact ⟨⟨[], digits, .inl rfl, nonempty, small, rfl, number⟩, word⟩
  · rintro ⟨⟨sign, digits, rfl | rfl, nonempty, small, rfl, number⟩, word⟩
    · rw [List.nil_append, word?_map_digitChar small]
      exact ofDigits?_eq_some_iff.mpr ⟨digits, nonempty, small, rfl, number, word⟩
    · exact ofDigits?_eq_some_iff.mpr ⟨digits, nonempty, small, rfl, number, word⟩

theorem not_isBlank_of_denotes (denotes : Denotes cs n) : ∀ c ∈ cs, Blank.isBlank c = false := by
  obtain ⟨sign, digits, plus, -, small, rfl, -⟩ := denotes
  intro c among
  rcases List.mem_append.mp among with first | shown
  · obtain rfl | rfl := plus
    · cases first
    · obtain rfl := List.mem_singleton.mp first
      rfl
  · obtain ⟨d, member, rfl⟩ := List.mem_map.mp shown
    have last := small d member
    interval_cases d <;> rfl

/-- White space around a numeral makes no difference. -/
theorem word?_trim_eq_some_iff : word? (Blank.trim cs) = some n ↔ ∃ left numeral right,
    Blank.IsBlank left ∧ Blank.IsBlank right ∧ cs = left ++ numeral ++ right ∧
      Denotes numeral n ∧ n ≤ Word.max := by
  constructor
  · intro read
    obtain ⟨left, right, before, after, split⟩ := Blank.exists_trim cs
    exact ⟨left, Blank.trim cs, right, before, after, split, word?_eq_some_iff.mp read⟩
  · rintro ⟨left, numeral, right, before, after, rfl, denotes, word⟩
    have solid := not_isBlank_of_denotes denotes
    rw [Blank.trim_append before after (fun c first => solid c (List.mem_of_mem_head? first))
      fun c last => solid c (List.mem_of_mem_getLast? last)]
    exact word?_eq_some_iff.mpr ⟨denotes, word⟩

end Numeral
end MappedStorage
