/-!
# UTF-8

Texts as bytes, and bytes as text. Reading never fails: each longest run of bytes that starts a
character and does not finish it becomes one replacement character.
-/

namespace SchemaModules

/-- The content of a file. -/
abbrev Bytes := List UInt8

namespace Text.Utf8

/-- The bytes of a text. -/
def encode (s : String) : Bytes :=
  s.toList.flatMap String.utf8EncodeChar

/-- The character that stands for bytes that are none. -/
def replacement : Char := '\uFFFD'

/-- What the first byte of a character announces: its own bits of the code point, how many bytes
follow, and the range of the first of those. -/
structure Lead where
  bits : Nat
  following : Nat
  low : UInt8
  high : UInt8

/-- What a byte announces as the first of a character, if it can be one. -/
def lead? (b : UInt8) : Option Lead :=
  if b ≤ 0x7F then some ⟨b.toNat, 0, 0x80, 0xBF⟩
  else if 0xC2 ≤ b && b ≤ 0xDF then some ⟨b.toNat - 0xC0, 1, 0x80, 0xBF⟩
  else if b = 0xE0 then some ⟨0, 2, 0xA0, 0xBF⟩
  else if b = 0xED then some ⟨0xD, 2, 0x80, 0x9F⟩
  else if 0xE1 ≤ b && b ≤ 0xEF then some ⟨b.toNat - 0xE0, 2, 0x80, 0xBF⟩
  else if b = 0xF0 then some ⟨0, 3, 0x90, 0xBF⟩
  else if 0xF1 ≤ b && b ≤ 0xF3 then some ⟨b.toNat - 0xF0, 3, 0x80, 0xBF⟩
  else if b = 0xF4 then some ⟨4, 3, 0x80, 0x8F⟩
  else none

/-- Read on a character with `following` bytes to come, the first of them in the given range, and
give the character (or its replacement where a byte does not fit) with the bytes after it. -/
def continuation (code : Nat) : (following : Nat) → (low high : UInt8) → Bytes → Char × Bytes
  | 0, _, _, rest => (Char.ofNat code, rest)
  | following + 1, low, high, b :: rest =>
      if low ≤ b && b ≤ high then
        continuation (64 * code + (b.toNat - 0x80)) following 0x80 0xBF rest
      else (replacement, b :: rest)
  | _ + 1, _, _, [] => (replacement, [])

/-- The character that bytes start with, or its replacement, and the bytes after it. -/
def first (b : UInt8) (rest : Bytes) : Char × Bytes :=
  match lead? b with
  | none => (replacement, rest)
  | some lead => continuation lead.bits lead.following lead.low lead.high rest

/-- Reading on never gives back bytes. -/
theorem length_continuation_le (following code : Nat) (low high : UInt8) (rest : Bytes) :
    (continuation code following low high rest).2.length ≤ rest.length := by
  fun_induction continuation code following low high rest with
  | case1 => exact Nat.le_refl _
  | case2 code following low high b rest _ ih => exact Nat.le_succ_of_le ih
  | case3 => exact Nat.le_refl _
  | case4 => exact Nat.le_refl _

/-- A character takes at least its first byte. -/
theorem length_first_le (b : UInt8) (rest : Bytes) : (first b rest).2.length ≤ rest.length := by
  unfold first
  split
  · exact Nat.le_refl _
  · exact length_continuation_le ..

/-- Bytes as text, with a replacement character for each run of bytes that is no character. -/
def decode : Bytes → List Char
  | [] => []
  | b :: rest => (first b rest).1 :: decode (first b rest).2
termination_by bytes => bytes.length
decreasing_by exact Nat.lt_succ_of_le (length_first_le b rest)

end Text.Utf8

end SchemaModules
