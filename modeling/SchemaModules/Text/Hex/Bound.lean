import Mathlib.Algebra.Group.Nat.Defs
import SchemaModules.Text.Hex

/-!
# Bounds on numbers read from hexadecimal digits

The number of digits bounds the number that is read from them (`toNat?_lt`).
-/

namespace SchemaModules.Text.Hex

/-- Reading `k` digits after `start` gives a number below `16 ^ k * (start + 1)`. -/
theorem toNatFrom?_lt {digits : List Char} {start n : Nat} (h : toNatFrom? start digits = some n) :
    n < 16 ^ digits.length * (start + 1) := by
  induction digits generalizing start with
  | nil => simp only [toNatFrom?, Option.some.injEq] at h; simp [h]
  | cons c rest ih =>
      simp only [toNatFrom?, Option.bind_eq_bind, Option.bind_eq_some_iff] at h
      obtain ⟨d, hd, h⟩ := h
      have small := value?_lt hd
      calc n < 16 ^ rest.length * (16 * start + d + 1) := ih h
        _ ≤ 16 ^ rest.length * (16 * (start + 1)) := Nat.mul_le_mul_left _ (by omega)
        _ = 16 ^ (rest.length + 1) * (start + 1) := by rw [Nat.pow_succ, Nat.mul_assoc]

/-- Reading `k` digits gives a number below `16 ^ k`. -/
theorem toNat?_lt {digits : List Char} {n : Nat} (h : toNat? digits = some n) :
    n < 16 ^ digits.length := by
  simpa using toNatFrom?_lt h

end SchemaModules.Text.Hex
