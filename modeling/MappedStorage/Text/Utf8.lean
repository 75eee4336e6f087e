/-!
Text in bytes. `Utf8.lead` says what a list of bytes begins with: a character, or the longest
part of a broken one. Reading strictly (`Utf8.decode?`) and reading leniently (`Utf8.lossy`,
where each broken part shows as U+FFFD) both follow it, so they agree on well-formed text.
-/

namespace MappedStorage.Utf8

/-- What some bytes begin with. -/
inductive Lead where
  /-- A character, written in so many bytes. -/
  | char (c : Char) (length : Nat)
  /-- So many bytes that do not belong to a character. -/
  | broken (length : Nat)
  deriving DecidableEq

/-- A byte that continues a character. -/
def isContinuation (b : UInt8) : Bool := 0x80 ≤ b && b ≤ 0xBF

/-- The six bits that a continuation byte holds. -/
def payload (b : UInt8) : Nat := b.toNat % 64

/-- The second bytes that may follow a first byte: no overlong forms, no surrogates, and
nothing above U+10FFFF. -/
def second (b : UInt8) : UInt8 × UInt8 :=
  if b = 0xE0 then (0xA0, 0xBF)
  else if b = 0xED then (0x80, 0x9F)
  else if b = 0xF0 then (0x90, 0xBF)
  else if b = 0xF4 then (0x80, 0x8F)
  else (0x80, 0xBF)

/-- The byte may be the second after the first byte `b`. -/
def followsFirst (b next : UInt8) : Bool := (second b).1 ≤ next && next ≤ (second b).2

/-- The beginning of a list of bytes whose first byte is `b`. -/
def lead (b : UInt8) (rest : List UInt8) : Lead :=
  if b < 0x80 then .char (Char.ofNat b.toNat) 1
  else if 0xC2 ≤ b && b ≤ 0xDF then
    match rest with
    | c :: _ =>
      if isContinuation c then .char (Char.ofNat (b.toNat % 32 * 64 + payload c)) 2 else .broken 1
    | [] => .broken 1
  else if 0xE0 ≤ b && b ≤ 0xEF then
    match rest with
    | c :: rest =>
      if followsFirst b c then
        match rest with
        | d :: _ =>
          if isContinuation d then
            .char (Char.ofNat ((b.toNat % 16 * 64 + payload c) * 64 + payload d)) 3
          else .broken 2
        | [] => .broken 2
      else .broken 1
    | [] => .broken 1
  else if 0xF0 ≤ b && b ≤ 0xF4 then
    match rest with
    | c :: rest =>
      if followsFirst b c then
        match rest with
        | d :: rest =>
          if isContinuation d then
            match rest with
            | e :: _ =>
              if isContinuation e then
                .char (Char.ofNat
                  (((b.toNat % 8 * 64 + payload c) * 64 + payload d) * 64 + payload e)) 4
              else .broken 3
            | [] => .broken 3
          else .broken 2
        | [] => .broken 2
      else .broken 1
    | [] => .broken 1
  else .broken 1

/-- The characters of well-formed text. -/
def decode? : List UInt8 → Option (List Char)
  | [] => some []
  | b :: rest =>
    match lead b rest with
    | .char c length => (decode? (rest.drop (length - 1))).map (c :: ·)
    | .broken _ => none
termination_by bytes => bytes.length
decreasing_by simp only [List.length_drop, List.length_cons]; omega

/-- The characters of any bytes, each broken part standing as one replacement character. -/
def replaceBroken : List UInt8 → List Char
  | [] => []
  | b :: rest =>
    match lead b rest with
    | .char c length => c :: replaceBroken (rest.drop (length - 1))
    | .broken length => Char.ofNat 0xFFFD :: replaceBroken (rest.drop (length - 1))
termination_by bytes => bytes.length
decreasing_by all_goals (simp only [List.length_drop, List.length_cons]; omega)

/-- Any bytes as text, for messages. -/
def lossy (bytes : List UInt8) : String := String.ofList (replaceBroken bytes)

/-- Well-formed text as a string. -/
def string? (bytes : List UInt8) : Option String := (decode? bytes).map String.ofList

/-- The bytes of a text. -/
def encode (s : String) : List UInt8 := s.toUTF8.toList

/-- Where strict reading succeeds, lenient reading finds the same characters. -/
theorem replaceBroken_eq_of_decode? {bytes : List UInt8} {cs : List Char}
    (h : decode? bytes = some cs) : replaceBroken bytes = cs := by
  fun_induction decode? bytes generalizing cs with
  | case1 => simpa [replaceBroken] using h.symm
  | case2 b rest c length found ih =>
    obtain ⟨tail, htail, rfl⟩ := Option.map_eq_some_iff.mp h
    simp [replaceBroken, found, ih htail]
  | case3 => simp at h

end MappedStorage.Utf8
