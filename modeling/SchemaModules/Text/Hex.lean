/-!
# Hexadecimal text

Bytes and numbers as hexadecimal digits. Writing always uses lower-case digits and a fixed width,
reading takes either case.
-/

namespace SchemaModules.Text.Hex

/-- The lower-case hexadecimal digit of a number below sixteen. -/
def digit (n : Nat) : Char :=
  if n < 10 then Char.ofNat (0x30 + n) else Char.ofNat (0x57 + n)

/-- The value of a hexadecimal digit in either case. -/
def value? (c : Char) : Option Nat :=
  if '0' ≤ c ∧ c ≤ '9' then some (c.toNat - 0x30)
  else if 'a' ≤ c ∧ c ≤ 'f' then some (c.toNat - 0x57)
  else if 'A' ≤ c ∧ c ≤ 'F' then some (c.toNat - 0x37)
  else none

/-- The two digits of a byte. -/
def byteDigits (b : UInt8) : List Char :=
  [digit (b.toNat / 16), digit (b.toNat % 16)]

/-- Bytes as text, two digits each. -/
def encode (bytes : List UInt8) : List Char :=
  bytes.flatMap byteDigits

/-- The bytes a text of digit pairs stands for, if it is one. -/
def decode? : List Char → Option (List UInt8)
  | [] => some []
  | [_] => none
  | high :: low :: rest => do
      let h ← value? high
      let l ← value? low
      let bytes ← decode? rest
      pure (UInt8.ofNat (16 * h + l) :: bytes)

/-- The last `width` hexadecimal digits of a number, most significant first. -/
def ofNat : (width n : Nat) → List Char
  | 0, _ => []
  | width + 1, n => ofNat width (n / 16) ++ [digit (n % 16)]

/-- The number that a text of hexadecimal digits stands for, read on after `start`. -/
def toNatFrom? (start : Nat) : List Char → Option Nat
  | [] => some start
  | c :: rest => do
      let d ← value? c
      toNatFrom? (16 * start + d) rest

/-- The number that a text of hexadecimal digits stands for. -/
def toNat? (digits : List Char) : Option Nat :=
  toNatFrom? 0 digits

/-- Two digits are written for each byte. -/
@[simp]
theorem length_encode (bytes : List UInt8) : (encode bytes).length = 2 * bytes.length := by
  induction bytes with
  | nil => rfl
  | cons b rest ih =>
      simp only [encode, List.flatMap_cons, List.length_append, List.length_cons] at ih ⊢
      rw [ih]
      simp only [byteDigits, List.length_cons, List.length_nil]
      omega

/-- Writing with a width gives that many digits. -/
@[simp]
theorem length_ofNat (width n : Nat) : (ofNat width n).length = width := by
  induction width generalizing n with
  | zero => rfl
  | succ width ih => simp [ofNat, ih]

/-- A digit reads back as the number it was written for. -/
theorem value?_digit : ∀ n, n < 16 → value? (digit n) = some n := by
  decide

/-- Reading pairs of digits gives back the bytes they were written for. -/
theorem decode?_encode (bytes : List UInt8) : decode? (encode bytes) = some bytes := by
  induction bytes with
  | nil => rfl
  | cons b rest ih =>
      have small : b.toNat < 256 := b.toNat_lt
      have high := value?_digit (b.toNat / 16) (by omega)
      have low := value?_digit (b.toNat % 16) (by omega)
      have whole : 16 * (b.toNat / 16) + b.toNat % 16 = b.toNat := Nat.div_add_mod ..
      simp only [encode] at ih
      simp [encode, byteDigits, decode?, high, low, ih, ← UInt8.toNat_inj]
      omega

/-- The value of a digit is below sixteen. -/
theorem value?_lt {c : Char} {n : Nat} (h : value? c = some n) : n < 16 := by
  simp only [value?, Char.le_def, UInt32.le_iff_toNat_le] at h
  split at h
  · next range =>
      have := range.2
      simp only [Option.some.injEq] at h
      have top : ('9' : Char).val.toNat = 0x39 := rfl
      simp only [Char.toNat] at h
      omega
  · split at h
    · next range =>
        have := range.2
        simp only [Option.some.injEq] at h
        have top : ('f' : Char).val.toNat = 0x66 := rfl
        simp only [Char.toNat] at h
        omega
    · split at h
      · next range =>
          have := range.2
          simp only [Option.some.injEq] at h
          have top : ('F' : Char).val.toNat = 0x46 := rfl
          simp only [Char.toNat] at h
          omega
      · simp at h

end SchemaModules.Text.Hex
