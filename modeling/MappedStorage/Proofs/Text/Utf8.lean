import Mathlib.Data.List.Basic
import Mathlib.Tactic.SplitIfs
import MappedStorage.Text.Utf8

/-!
Reading bytes as text undoes writing text as bytes. Bytes begin with a character exactly where they begin
with what that character is written as (`lead_eq_char_iff`). So strict reading finds the one text that is
written as the bytes, and finds none only where there is none (`decode?_eq_some_iff`).
-/

namespace MappedStorage.Utf8

variable {a b d e : UInt8} {c : Char} {n : Nat} {bytes rest : List UInt8} {cs : List Char}

/-! ## Code points -/

theorem toNat_ofNat (valid : n.isValidChar) : (Char.ofNat n).toNat = n := by
  rw [Char.ofNat, dif_pos valid]
  show (UInt32.ofNatLT n _).toNat = n
  simp

theorem eq_ofNat_iff (valid : n.isValidChar) : c = Char.ofNat n ↔ c.toNat = n := by
  rw [← Char.toNat_inj, toNat_ofNat valid]

/-- No character is a surrogate or lies past the last code point. -/
theorem toNat_isValidChar (c : Char) : c.toNat.isValidChar := c.valid

/-! ## Bytes that carry digits -/

/-- A byte is a number above a mark. -/
theorem ofNat_add_eq_iff {k : Nat} (fits : n + k < 256) : UInt8.ofNat (n + k) = a ↔ a.toNat = n + k := by
  rw [← UInt8.toNat_inj, UInt8.toNat_ofNat_of_lt' fits, eq_comm]

/-- The digits to base 64 of a number, of which the first can be any. -/
theorem eq_three_digits_iff {x u v w : Nat} (hv : v < 64) (hw : w < 64) :
    x = (u * 64 + v) * 64 + w ↔ x / 4096 = u ∧ x / 64 % 64 = v ∧ x % 64 = w := by
  constructor
  · rintro rfl
    omega
  · rintro ⟨rfl, rfl, rfl⟩
    omega

theorem eq_four_digits_iff {x t u v w : Nat} (hu : u < 64) (hv : v < 64) (hw : w < 64) :
    x = ((t * 64 + u) * 64 + v) * 64 + w ↔
      x / 262144 = t ∧ x / 4096 % 64 = u ∧ x / 64 % 64 = v ∧ x % 64 = w := by
  rw [eq_three_digits_iff hv hw]
  have first : x / 4096 = t * 64 + u ↔ x / 262144 = t ∧ x / 4096 % 64 = u := by omega
  rw [first, and_assoc]

/-- Three bytes that carry the digits of a number are well formed where the number is a code point from the
range of three bytes. That no code point is a surrogate bounds the second byte after one of the first ones. -/
theorem three_bytes_iff {x a b d : Nat} :
    (0x7FF < x ∧ x ≤ 0xFFFF ∧ x.isValidChar) ∧
        a = x / 4096 + 0xE0 ∧ b = x / 64 % 64 + 0x80 ∧ d = x % 64 + 0x80 ↔
      (0xE0 ≤ a ∧ a ≤ 0xEF) ∧ ((0x80 ≤ b ∧ b ≤ 0xBF) ∧ (a = 0xE0 → 0xA0 ≤ b) ∧ (a = 0xED → b ≤ 0x9F)) ∧
        (0x80 ≤ d ∧ d ≤ 0xBF) ∧ x = (a % 16 * 64 + b % 64) * 64 + d % 64 := by
  have low (m : Nat) : m % 64 < 64 := Nat.mod_lt m (by decide)
  rw [Nat.isValidChar]
  constructor
  · rintro ⟨range, rfl, rfl, rfl⟩
    have digits := (eq_three_digits_iff (low (x / 64)) (low x)).mpr ⟨rfl, rfl, rfl⟩
    have second := low (x / 64)
    have third := low x
    generalize x / 4096 = u at *
    generalize x / 64 % 64 = v at *
    generalize x % 64 = w at *
    subst digits
    omega
  · rintro ⟨first, second, third, point⟩
    obtain ⟨top, middle, last⟩ := (eq_three_digits_iff (low b) (low d)).mp point
    rw [top, middle, last]
    clear top middle last
    subst point
    omega

theorem four_bytes_iff {x a b d e : Nat} :
    (0xFFFF < x ∧ x < 0x110000) ∧ a = x / 262144 + 0xF0 ∧ b = x / 4096 % 64 + 0x80 ∧
        d = x / 64 % 64 + 0x80 ∧ e = x % 64 + 0x80 ↔
      (0xF0 ≤ a ∧ a ≤ 0xF4) ∧ ((0x80 ≤ b ∧ b ≤ 0xBF) ∧ (a = 0xF0 → 0x90 ≤ b) ∧ (a = 0xF4 → b ≤ 0x8F)) ∧
        (0x80 ≤ d ∧ d ≤ 0xBF) ∧ (0x80 ≤ e ∧ e ≤ 0xBF) ∧
        x = ((a % 8 * 64 + b % 64) * 64 + d % 64) * 64 + e % 64 := by
  have low (m : Nat) : m % 64 < 64 := Nat.mod_lt m (by decide)
  constructor
  · rintro ⟨range, rfl, rfl, rfl, rfl⟩
    have digits := (eq_four_digits_iff (low (x / 4096)) (low (x / 64)) (low x)).mpr ⟨rfl, rfl, rfl, rfl⟩
    have second := low (x / 4096)
    have third := low (x / 64)
    have fourth := low x
    generalize x / 262144 = t at *
    generalize x / 4096 % 64 = u at *
    generalize x / 64 % 64 = v at *
    generalize x % 64 = w at *
    subst digits
    omega
  · rintro ⟨first, second, third, fourth, point⟩
    obtain ⟨top, upper, middle, last⟩ := (eq_four_digits_iff (low b) (low d) (low e)).mp point
    rw [top, upper, middle, last]
    clear top upper middle last
    subst point
    omega

/-! ## The bytes of a character -/

theorem isContinuation_iff : isContinuation b = true ↔ 0x80 ≤ b.toNat ∧ b.toNat ≤ 0xBF := by
  simp [isContinuation, UInt8.le_iff_toNat_le]

theorem followsFirst_iff : followsFirst a b = true ↔ (0x80 ≤ b.toNat ∧ b.toNat ≤ 0xBF) ∧
    (a.toNat = 0xE0 → 0xA0 ≤ b.toNat) ∧ (a.toNat = 0xED → b.toNat ≤ 0x9F) ∧
    (a.toNat = 0xF0 → 0x90 ≤ b.toNat) ∧ (a.toNat = 0xF4 → b.toNat ≤ 0x8F) := by
  simp only [followsFirst, second, Bool.and_eq_true, decide_eq_true_eq, UInt8.le_iff_toNat_le,
    ← UInt8.toNat_inj]
  split_ifs <;> simp_all <;> omega

theorem utf8EncodeChar_eq (c : Char) : String.utf8EncodeChar c =
    if c.toNat ≤ 0x7F then [UInt8.ofNat c.toNat]
    else if c.toNat ≤ 0x7FF then
      [UInt8.ofNat (c.toNat / 64 % 32 + 0xC0), UInt8.ofNat (c.toNat % 64 + 0x80)]
    else if c.toNat ≤ 0xFFFF then
      [UInt8.ofNat (c.toNat / 4096 % 16 + 0xE0), UInt8.ofNat (c.toNat / 64 % 64 + 0x80),
        UInt8.ofNat (c.toNat % 64 + 0x80)]
    else
      [UInt8.ofNat (c.toNat / 262144 % 8 + 0xF0), UInt8.ofNat (c.toNat / 4096 % 64 + 0x80),
        UInt8.ofNat (c.toNat / 64 % 64 + 0x80), UInt8.ofNat (c.toNat % 64 + 0x80)] := rfl

theorem utf8EncodeChar_eq_one_iff :
    String.utf8EncodeChar c = [a] ↔ a < 0x80 ∧ c = Char.ofNat a.toNat := by
  rw [utf8EncodeChar_eq, UInt8.lt_iff_toNat_lt]
  simp only [UInt8.reduceToNat]
  constructor
  · intro written
    split_ifs at written <;> simp only [List.cons.injEq, reduceCtorEq, and_false, and_true,
      ← UInt8.toNat_inj, UInt8.toNat_ofNat'] at written
    have point : c.toNat = a.toNat := by omega
    exact ⟨by omega, (eq_ofNat_iff (point ▸ toNat_isValidChar c)).mpr point⟩
  · rintro ⟨first, rfl⟩
    rw [toNat_ofNat (.inl (by omega)), if_pos (by omega)]
    simp

theorem utf8EncodeChar_eq_two_iff : String.utf8EncodeChar c = [a, b] ↔
    (0xC2 ≤ a ∧ a ≤ 0xDF) ∧ isContinuation b = true ∧
      c = Char.ofNat (a.toNat % 32 * 64 + payload b) := by
  rw [utf8EncodeChar_eq, isContinuation_iff, payload, UInt8.le_iff_toNat_le, UInt8.le_iff_toNat_le]
  simp only [UInt8.reduceToNat]
  constructor
  · intro written
    split_ifs at written <;> simp only [List.cons.injEq, reduceCtorEq, and_false, and_true,
      ← UInt8.toNat_inj, UInt8.toNat_ofNat'] at written
    have point : c.toNat = a.toNat % 32 * 64 + b.toNat % 64 := by omega
    exact ⟨by omega, by omega, (eq_ofNat_iff (point ▸ toNat_isValidChar c)).mpr point⟩
  · rintro ⟨first, second, rfl⟩
    rw [toNat_ofNat (.inl (by omega)), if_neg (by omega), if_pos (by omega)]
    simp only [List.cons.injEq, ← UInt8.toNat_inj, UInt8.toNat_ofNat', and_true]
    exact ⟨by omega, by omega⟩

/-- The bytes of a code point from the range of three bytes carry its digits. -/
theorem utf8EncodeChar_eq_three_digits_iff : String.utf8EncodeChar c = [a, b, d] ↔
    (0x7FF < c.toNat ∧ c.toNat ≤ 0xFFFF ∧ c.toNat.isValidChar) ∧ a.toNat = c.toNat / 4096 + 0xE0 ∧
      b.toNat = c.toNat / 64 % 64 + 0x80 ∧ d.toNat = c.toNat % 64 + 0x80 := by
  rw [utf8EncodeChar_eq]
  split_ifs with one two three
  · exact iff_of_false (by simp) (by omega)
  · exact iff_of_false (by simp) (by omega)
  · have top : c.toNat / 4096 % 16 = c.toNat / 4096 := Nat.mod_eq_of_lt (by omega)
    rw [top, List.cons.injEq, List.cons.injEq, List.cons.injEq, ofNat_add_eq_iff (by omega),
      ofNat_add_eq_iff (by omega), ofNat_add_eq_iff (by omega)]
    exact ⟨fun ⟨first, second, third, _⟩ =>
        ⟨⟨Nat.not_le.mp two, three, toNat_isValidChar c⟩, first, second, third⟩,
      fun ⟨_, first, second, third⟩ => ⟨first, second, third, rfl⟩⟩
  · exact iff_of_false (by simp) (by omega)

theorem utf8EncodeChar_eq_three_iff : String.utf8EncodeChar c = [a, b, d] ↔
    (0xE0 ≤ a ∧ a ≤ 0xEF) ∧ followsFirst a b = true ∧ isContinuation d = true ∧
      c = Char.ofNat ((a.toNat % 16 * 64 + payload b) * 64 + payload d) := by
  rw [utf8EncodeChar_eq_three_digits_iff, followsFirst_iff, isContinuation_iff, payload, payload,
    UInt8.le_iff_toNat_le, UInt8.le_iff_toNat_le]
  simp only [UInt8.reduceToNat]
  constructor
  · intro written
    obtain ⟨first, ⟨second, low, high⟩, third, point⟩ := three_bytes_iff.mp written
    refine ⟨first, ⟨second, low, high, by omega, by omega⟩, third, ?_⟩
    exact (eq_ofNat_iff (point ▸ toNat_isValidChar c)).mpr point
  · rintro ⟨first, ⟨second, low, high, -⟩, third, rfl⟩
    obtain ⟨range, digits⟩ := three_bytes_iff.mpr ⟨first, ⟨second, low, high⟩, third, rfl⟩
    rw [toNat_ofNat range.2.2]
    exact ⟨range, digits⟩

theorem utf8EncodeChar_eq_four_digits_iff : String.utf8EncodeChar c = [a, b, d, e] ↔
    (0xFFFF < c.toNat ∧ c.toNat < 0x110000) ∧ a.toNat = c.toNat / 262144 + 0xF0 ∧
      b.toNat = c.toNat / 4096 % 64 + 0x80 ∧ d.toNat = c.toNat / 64 % 64 + 0x80 ∧
      e.toNat = c.toNat % 64 + 0x80 := by
  rw [utf8EncodeChar_eq]
  split_ifs with one two three
  · exact iff_of_false (by simp) (by omega)
  · exact iff_of_false (by simp) (by omega)
  · exact iff_of_false (by simp) (by omega)
  · have last : c.toNat < 0x110000 := by
      have valid := toNat_isValidChar c
      rw [Nat.isValidChar] at valid
      omega
    have top : c.toNat / 262144 % 8 = c.toNat / 262144 := Nat.mod_eq_of_lt (by omega)
    rw [top, List.cons.injEq, List.cons.injEq, List.cons.injEq, List.cons.injEq, ofNat_add_eq_iff (by omega),
      ofNat_add_eq_iff (by omega), ofNat_add_eq_iff (by omega), ofNat_add_eq_iff (by omega)]
    exact ⟨fun ⟨first, second, third, fourth, _⟩ => ⟨⟨Nat.not_le.mp three, last⟩, first, second, third, fourth⟩,
      fun ⟨_, first, second, third, fourth⟩ => ⟨first, second, third, fourth, rfl⟩⟩

theorem utf8EncodeChar_eq_four_iff : String.utf8EncodeChar c = [a, b, d, e] ↔
    (0xF0 ≤ a ∧ a ≤ 0xF4) ∧ followsFirst a b = true ∧ isContinuation d = true ∧
      isContinuation e = true ∧
      c = Char.ofNat (((a.toNat % 8 * 64 + payload b) * 64 + payload d) * 64 + payload e) := by
  rw [utf8EncodeChar_eq_four_digits_iff, followsFirst_iff, isContinuation_iff, isContinuation_iff, payload,
    payload, payload, UInt8.le_iff_toNat_le, UInt8.le_iff_toNat_le]
  simp only [UInt8.reduceToNat]
  constructor
  · intro written
    obtain ⟨first, ⟨second, low, high⟩, third, fourth, point⟩ := four_bytes_iff.mp written
    refine ⟨first, ⟨second, by omega, by omega, low, high⟩, third, fourth, ?_⟩
    exact (eq_ofNat_iff (point ▸ toNat_isValidChar c)).mpr point
  · rintro ⟨first, ⟨second, -, -, low, high⟩, third, fourth, rfl⟩
    obtain ⟨range, digits⟩ := four_bytes_iff.mpr ⟨first, ⟨second, low, high⟩, third, fourth, rfl⟩
    have valid : Nat.isValidChar _ := .inr ⟨Nat.lt_trans (by decide) range.1, range.2⟩
    rw [toNat_ofNat valid]
    exact ⟨range, digits⟩

/-- A character is written as one to four bytes. -/
theorem utf8EncodeChar_cases (c : Char) :
    (∃ a, String.utf8EncodeChar c = [a]) ∨ (∃ a b, String.utf8EncodeChar c = [a, b]) ∨
      (∃ a b d, String.utf8EncodeChar c = [a, b, d]) ∨
      ∃ a b d e, String.utf8EncodeChar c = [a, b, d, e] := by
  rw [utf8EncodeChar_eq]
  split_ifs
  · exact .inl ⟨_, rfl⟩
  · exact .inr (.inl ⟨_, _, rfl⟩)
  · exact .inr (.inr (.inl ⟨_, _, _, rfl⟩))
  · exact .inr (.inr (.inr ⟨_, _, _, _, rfl⟩))

/-! ## Reading -/

/-- Bytes begin with a character where they begin with what it is written as. -/
theorem lead_eq_char_iff : lead b rest = .char c n ↔
    ∃ tail, String.utf8EncodeChar c = b :: tail ∧ tail.length + 1 = n ∧ tail <+: rest := by
  constructor
  · intro found
    unfold lead at found
    split_ifs at found with one two three four
    · cases found
      exact ⟨[], utf8EncodeChar_eq_one_iff.mpr ⟨one, rfl⟩, rfl, List.nil_prefix⟩
    · rw [Bool.and_eq_true, decide_eq_true_eq, decide_eq_true_eq] at two
      split at found
      · rename_i d rest
        split_ifs at found with second
        cases found
        exact ⟨[d], utf8EncodeChar_eq_two_iff.mpr ⟨two, second, rfl⟩, rfl, rest, rfl⟩
      · cases found
    · rw [Bool.and_eq_true, decide_eq_true_eq, decide_eq_true_eq] at three
      split at found
      · split_ifs at found with second
        split at found
        · rename_i d _ e rest
          split_ifs at found with third
          cases found
          exact ⟨[d, e], utf8EncodeChar_eq_three_iff.mpr ⟨three, second, third, rfl⟩, rfl, rest, rfl⟩
        · cases found
      · cases found
    · rw [Bool.and_eq_true, decide_eq_true_eq, decide_eq_true_eq] at four
      split at found
      · split_ifs at found with second
        split at found
        · split_ifs at found with third
          split at found
          · rename_i d _ e _ f rest
            split_ifs at found with fourth
            cases found
            exact ⟨[d, e, f], utf8EncodeChar_eq_four_iff.mpr ⟨four, second, third, fourth, rfl⟩, rfl,
              rest, rfl⟩
          · cases found
        · cases found
      · cases found
  · rintro ⟨tail, written, rfl, rest, rfl⟩
    obtain ⟨a, one⟩ | ⟨a, d, two⟩ | ⟨a, d, e, three⟩ | ⟨a, d, e, f, four⟩ := utf8EncodeChar_cases c
    · rw [one] at written
      cases written
      obtain ⟨first, rfl⟩ := utf8EncodeChar_eq_one_iff.mp one
      unfold lead
      grind
    · rw [two] at written
      cases written
      obtain ⟨first, second, rfl⟩ := utf8EncodeChar_eq_two_iff.mp two
      unfold lead
      grind
    · rw [three] at written
      cases written
      obtain ⟨first, second, third, rfl⟩ := utf8EncodeChar_eq_three_iff.mp three
      unfold lead
      grind
    · rw [four] at written
      cases written
      obtain ⟨first, second, third, fourth, rfl⟩ := utf8EncodeChar_eq_four_iff.mp four
      unfold lead
      grind

theorem decode?_flatMap (cs : List Char) : decode? (cs.flatMap String.utf8EncodeChar) = some cs := by
  induction cs with
  | nil => rw [List.flatMap_nil, decode?]
  | cons c cs ih =>
    obtain ⟨b, tail, written⟩ : ∃ b tail, String.utf8EncodeChar c = b :: tail := by
      obtain ⟨_, h⟩ | ⟨_, _, h⟩ | ⟨_, _, _, h⟩ | ⟨_, _, _, _, h⟩ := utf8EncodeChar_cases c <;>
        exact ⟨_, _, h⟩
    have found : lead b (tail ++ cs.flatMap String.utf8EncodeChar) = .char c (tail.length + 1) :=
      lead_eq_char_iff.mpr ⟨tail, written, rfl, List.prefix_append ..⟩
    rw [List.flatMap_cons, written, List.cons_append, decode?, found]
    dsimp only
    rw [Nat.add_sub_cancel, List.drop_left, ih]
    rfl

theorem eq_flatMap_of_decode? (read : decode? bytes = some cs) :
    bytes = cs.flatMap String.utf8EncodeChar := by
  fun_induction decode? bytes generalizing cs with
  | case1 =>
    cases read
    rfl
  | case2 b rest c n found ih =>
    obtain ⟨tail, written, rfl, rest, rfl⟩ := lead_eq_char_iff.mp found
    obtain ⟨cs, after, rfl⟩ := Option.map_eq_some_iff.mp read
    rw [Nat.add_sub_cancel, List.drop_left] at ih after
    rw [List.flatMap_cons, written, ← ih after]
    rfl
  | case3 => cases read

theorem toList_loop (bytes : ByteArray) (i : Nat) (read : List UInt8) :
    ByteArray.toList.loop bytes i read = read.reverse ++ bytes.data.toList.drop i := by
  fun_induction ByteArray.toList.loop bytes i read with
  | case1 i read more ih =>
    have inside : i < bytes.data.toList.length := more
    have next : bytes.get! i = bytes.data.toList[i] := getElem!_pos bytes.data i more
    rw [ih, List.drop_eq_getElem_cons inside, List.reverse_cons, List.append_assoc, next]
    rfl
  | case2 i read done => rw [List.drop_eq_nil_of_le (Nat.not_lt.mp done), List.append_nil]

theorem encode_ofList (cs : List Char) :
    encode (String.ofList cs) = cs.flatMap String.utf8EncodeChar := by
  have written : (String.ofList cs).toUTF8 = (cs.flatMap String.utf8EncodeChar).toByteArray :=
    String.toByteArray_ofList
  rw [encode, written, ByteArray.toList, toList_loop, List.data_toByteArray]
  rfl

/-- Strict reading finds the text that is written as the bytes, if there is one. -/
theorem decode?_eq_some_iff : decode? bytes = some cs ↔ encode (String.ofList cs) = bytes := by
  rw [encode_ofList]
  constructor
  · intro read
    exact (eq_flatMap_of_decode? read).symm
  · rintro rfl
    exact decode?_flatMap cs

theorem string?_eq_some_iff {s : String} : string? bytes = some s ↔ encode s = bytes := by
  rw [string?, Option.map_eq_some_iff]
  constructor
  · rintro ⟨cs, read, rfl⟩
    exact decode?_eq_some_iff.mp read
  · intro written
    refine ⟨s.toList, decode?_eq_some_iff.mpr ?_, String.ofList_toList⟩
    rw [String.ofList_toList, written]

end MappedStorage.Utf8
