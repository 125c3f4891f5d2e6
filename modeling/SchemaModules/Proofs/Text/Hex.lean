import Mathlib.Algebra.Group.Nat.Defs
import Mathlib.Data.List.Induction
import SchemaModules.Text.Hex.Bound

/-! # Hexadecimal digits in either case

A text can be read exactly if it is made of hexadecimal digits (`Text.Hex.exists_toNat?_iff`,
`Text.Hex.exists_decode?_iff`). What is written for a number or for bytes that were read is the text
that was read, in lower case (`Text.Hex.ofNat_of_toNat?`, `Text.Hex.decode?_eq_some_iff`), and so
the case of letters makes no difference for reading.
-/

namespace SchemaModules

namespace Text

/-- Lower case leaves a character as it is, or brings an upper-case letter to where lower-case
letters are. -/
theorem toLower_cases (c : Char) : c.toLower = c ∨
    0x41 ≤ c.toNat ∧ c.toNat ≤ 0x5A ∧ c.toLower.toNat = c.toNat + 0x20 := by
  unfold Char.toLower
  split
  · next range =>
      have first := UInt32.le_iff_toNat_le.mp range.1
      have last := UInt32.le_iff_toNat_le.mp range.2
      have codes : ('A' : Char).val.toNat = 0x41 ∧ ('Z' : Char).val.toNat = 0x5A ∧
          (('a' : Char).val - ('A' : Char).val).toNat = 0x20 := by
        decide
      right
      simp only [Char.toNat, UInt32.toNat_add]
      omega
  · exact .inl rfl

theorem eq_dash_of_toLower {c : Char} (lower : c.toLower = '-') : c = '-' := by
  rcases toLower_cases c with same | ⟨first, last, moved⟩
  · exact same.symm.trans lower
  · rw [lower] at moved
    have dash : ('-' : Char).toNat = 0x2D := rfl
    omega

end Text

namespace Text.Hex

variable {c : Char} {v width n : Nat} {digits : List Char}

/-- A hexadecimal digit, in lower or in upper case. -/
def IsDigit (c : Char) : Prop := c ∈ "0123456789abcdefABCDEF".toList

instance : DecidablePred IsDigit := fun c =>
  inferInstanceAs (Decidable (c ∈ "0123456789abcdefABCDEF".toList))

/-- What holds of the digit of a number, for each of the sixteen there are. -/
theorem digit_cases : ∀ v < 16, (IsDigit (digit v) ∧ IsDigit (digit v).toUpper) ∧
    value? (digit v).toUpper = some v ∧
    (digit v).toLower = digit v ∧ (digit v).toUpper.toLower = digit v := by
  decide

theorem toNat_digit : ∀ v < 16, (digit v).toNat = (if v < 10 then 0x30 else 0x57) + v ∧
    (digit v).toUpper.toNat = (if v < 10 then 0x30 else 0x37) + v := by
  decide

/-- A character has a value exactly if it is the digit of that value or its upper case. -/
theorem value?_eq_some_iff :
    value? c = some v ↔ v < 16 ∧ (c = digit v ∨ c = (digit v).toUpper) := by
  constructor
  · intro read
    have small := value?_lt read
    have codes := toNat_digit v small
    refine ⟨small, ?_⟩
    rw [← Char.toNat_inj, ← Char.toNat_inj, codes.1, codes.2]
    simp only [value?, Char.le_def, UInt32.le_iff_toNat_le] at read
    simp only [Char.toNat] at read ⊢
    split at read
    · next range =>
        have low : ('0' : Char).val.toNat = 0x30 := rfl
        have high : ('9' : Char).val.toNat = 0x39 := rfl
        simp only [Option.some.injEq] at read
        split <;> omega
    · split at read
      · next range =>
          have low : ('a' : Char).val.toNat = 0x61 := rfl
          simp only [Option.some.injEq] at read
          split <;> omega
      · split at read
        · next range =>
            have low : ('A' : Char).val.toNat = 0x41 := rfl
            simp only [Option.some.injEq] at read
            split <;> omega
        · cases read
  · rintro ⟨small, rfl | rfl⟩
    · exact value?_digit v small
    · exact (digit_cases v small).2.1

theorem exists_value?_iff : (∃ v, value? c = some v) ↔ IsDigit c := by
  constructor
  · rintro ⟨v, read⟩
    obtain ⟨small, rfl | rfl⟩ := value?_eq_some_iff.mp read
    · exact (digit_cases v small).1.1
    · exact (digit_cases v small).1.2
  · have valued : "0123456789abcdefABCDEF".toList.all fun c => (value? c).isSome := by decide
    intro isDigit
    exact Option.isSome_iff_exists.mp (List.all_eq_true.mp valued c isDigit)

/-- The digit that is written for a value is the one that was read, in lower case. -/
theorem digit_of_value? (read : value? c = some v) : digit v = c.toLower := by
  obtain ⟨small, rfl | rfl⟩ := value?_eq_some_iff.mp read
  · exact (digit_cases v small).2.2.1.symm
  · exact (digit_cases v small).2.2.2.symm

theorem isDigit_of_toLower (lower : IsDigit c.toLower) : IsDigit c := by
  rcases toLower_cases c with same | ⟨first, last, moved⟩
  · exact same ▸ lower
  · obtain ⟨v, read⟩ := exists_value?_iff.mpr lower
    obtain ⟨small, digit⟩ := value?_eq_some_iff.mp read
    rw [← Char.toNat_inj, ← Char.toNat_inj, moved] at digit
    have codes := toNat_digit v small
    -- The upper case of the digit is the only character at this distance from it.
    have upper : c = (Hex.digit v).toUpper := by
      apply Char.toNat_inj.mp
      split at codes <;> omega
    exact upper ▸ (digit_cases v small).1.2

/-! ## Numbers -/

theorem toNatFrom?_append (start : Nat) (before after : List Char) :
    toNatFrom? start (before ++ after) = (toNatFrom? start before).bind (toNatFrom? · after) := by
  induction before generalizing start with
  | nil => rfl
  | cons c before ih =>
      simp only [List.cons_append, toNatFrom?, Option.bind_eq_bind]
      cases value? c with
      | none => rfl
      | some d => exact ih (16 * start + d)

theorem toNat?_concat (digits : List Char) (c : Char) :
    toNat? (digits ++ [c]) =
      (toNat? digits).bind fun n => (value? c).map fun d => 16 * n + d := by
  rw [toNat?, toNatFrom?_append]
  congr 1
  funext n
  simp only [toNatFrom?, Option.bind_eq_bind]
  cases value? c <;> rfl

/-- A number that has room in its digits is read back from them. -/
theorem toNat?_ofNat (room : n < 16 ^ width) : toNat? (ofNat width n) = some n := by
  induction width generalizing n with
  | zero =>
      obtain rfl : n = 0 := by simpa using room
      rfl
  | succ width ih =>
      have high : n / 16 < 16 ^ width := by
        apply Nat.div_lt_of_lt_mul
        rwa [Nat.pow_succ'] at room
      rw [ofNat, toNat?_concat, ih high, value?_digit (n % 16) (by omega)]
      simp only [Option.bind_some, Option.map_some, Nat.div_add_mod]

/-- Numbers are written with lower-case digits. -/
theorem lower_of_mem_ofNat (written : c ∈ ofNat width n) : c ∈ "0123456789abcdef".toList := by
  have lower : ∀ d < 16, digit d ∈ "0123456789abcdef".toList := by decide
  induction width generalizing n with
  | zero => exact absurd written List.not_mem_nil
  | succ width ih =>
      rcases List.mem_append.mp written with earlier | last
      · exact ih earlier
      · rw [List.mem_singleton.mp last]
        exact lower _ (Nat.mod_lt _ (by decide))

/-- A text spells out a number exactly if it is made of digits. -/
theorem exists_toNat?_iff : (∃ n, toNat? digits = some n) ↔ ∀ c ∈ digits, IsDigit c := by
  induction digits using List.reverseRecOn with
  | nil => simp [toNat?, toNatFrom?]
  | append_singleton digits c ih =>
      rw [List.forall_mem_append, ← ih, List.forall_mem_singleton, ← exists_value?_iff]
      simp only [toNat?_concat, Option.bind_eq_some_iff, Option.map_eq_some_iff]
      constructor
      · rintro ⟨_, n, read, d, last, -⟩
        exact ⟨⟨n, read⟩, d, last⟩
      · rintro ⟨⟨n, read⟩, d, last⟩
        exact ⟨_, n, read, d, last, rfl⟩

/-- The digits that are written for a number are those it was read from, in lower case. -/
theorem ofNat_of_toNat? (read : toNat? digits = some n) :
    ofNat digits.length n = digits.map Char.toLower := by
  induction digits using List.reverseRecOn generalizing n with
  | nil => rfl
  | append_singleton digits c ih =>
      rw [toNat?_concat] at read
      obtain ⟨high, earlier, read⟩ := Option.bind_eq_some_iff.mp read
      obtain ⟨d, last, rfl⟩ := Option.map_eq_some_iff.mp read
      have small := value?_lt last
      have quotient : (16 * high + d) / 16 = high := by omega
      have remainder : (16 * high + d) % 16 = d := by omega
      rw [List.length_append, List.length_singleton, ofNat, quotient, remainder, ih earlier,
        digit_of_value? last, List.map_append, List.map_singleton]

/-- Each digit of a number is written for its place. -/
theorem ofNat_eq_map (width n : Nat) :
    ofNat width n = (List.range width).map fun i => digit (n / 16 ^ (width - 1 - i) % 16) := by
  induction width generalizing n with
  | zero => rfl
  | succ width ih =>
      rw [ofNat, ih, List.range_succ, List.map_append, List.map_singleton]
      congr 1
      · apply List.map_congr_left
        intro i inside
        have place : width - i = width - 1 - i + 1 := by
          have := List.mem_range.mp inside
          omega
        rw [Nat.add_sub_cancel, place, Nat.pow_succ', Nat.div_div_eq_div_mul]
      · simp

/-! ## Bytes -/

/-- A text spells out bytes exactly if it is made of pairs of digits. -/
theorem exists_decode?_iff :
    (∃ bytes, decode? digits = some bytes) ↔ digits.length % 2 = 0 ∧ ∀ c ∈ digits, IsDigit c := by
  fun_induction decode? digits with
  | case1 => simp
  | case2 => simp
  | case3 high low rest ih =>
      have even : (high :: low :: rest).length % 2 = 0 ↔ rest.length % 2 = 0 := by
        simp only [List.length_cons]
        omega
      rw [even, List.forall_mem_cons, List.forall_mem_cons, ← exists_value?_iff,
        ← exists_value?_iff]
      simp only [Option.bind_eq_bind, Option.bind_eq_some_iff, Option.pure_def, Option.some.injEq]
      constructor
      · rintro ⟨_, h, highRead, l, lowRead, bytes, read, -⟩
        have later := ih.mp ⟨bytes, read⟩
        exact ⟨later.1, ⟨h, highRead⟩, ⟨l, lowRead⟩, later.2⟩
      · rintro ⟨pairs, ⟨h, highRead⟩, ⟨l, lowRead⟩, later⟩
        obtain ⟨bytes, read⟩ := ih.mpr ⟨pairs, later⟩
        exact ⟨_, h, highRead, l, lowRead, bytes, read, rfl⟩

/-- The digits that are written for bytes are those they were read from, in lower case. -/
theorem encode_of_decode? {bytes : List UInt8} (read : decode? digits = some bytes) :
    encode bytes = digits.map Char.toLower := by
  fun_induction decode? digits generalizing bytes with
  | case1 =>
      obtain rfl := Option.some.inj read
      rfl
  | case2 => cases read
  | case3 high low rest ih =>
      simp only [Option.bind_eq_bind, Option.bind_eq_some_iff, Option.pure_def] at read
      obtain ⟨h, highRead, l, lowRead, later, restRead, made⟩ := read
      obtain rfl := Option.some.inj made
      have highSmall := value?_lt highRead
      have lowSmall := value?_lt lowRead
      have whole : (UInt8.ofNat (16 * h + l)).toNat = 16 * h + l := by
        rw [UInt8.toNat_ofNat']
        omega
      have quotient : (16 * h + l) / 16 = h := by omega
      have remainder : (16 * h + l) % 16 = l := by omega
      rw [encode, List.flatMap_cons, byteDigits, whole, quotient, remainder,
        digit_of_value? highRead, digit_of_value? lowRead]
      simp only [List.map_cons, List.cons_append, List.nil_append]
      exact congrArg _ (congrArg _ (ih restRead))

/-- A text spells out bytes exactly if it is made of their digits in either case. -/
theorem decode?_eq_some_iff {bytes : List UInt8} : decode? digits = some bytes ↔
    (∀ c ∈ digits, IsDigit c) ∧ encode bytes = digits.map Char.toLower := by
  constructor
  · intro read
    exact ⟨(exists_decode?_iff.mp ⟨bytes, read⟩).2, encode_of_decode? read⟩
  · rintro ⟨hex, written⟩
    have pairs : digits.length % 2 = 0 := by
      have length := congrArg List.length written
      rw [length_encode, List.length_map] at length
      omega
    obtain ⟨others, read⟩ := exists_decode?_iff.mpr ⟨pairs, hex⟩
    have same := decode?_encode others
    rw [encode_of_decode? read, ← written, decode?_encode] at same
    rw [read, same]

end Text.Hex

end SchemaModules
