import SchemaModules.Identifier.Error
import SchemaModules.Text.Hex

/-!
# Commit ids

A commit id is a number of 128 bits. It is written with thirty-two hexadecimal digits, and read with
or without dashes between its groups of 8, 4, 4, 4 and 12 digits.
-/

namespace SchemaModules

/-- The identifier of a commit on a registry. -/
structure CommitId where
  value : BitVec 128
  deriving DecidableEq

namespace CommitId

/-- The commit id that stands for none. -/
def nil : CommitId := ⟨0⟩

/-- The thirty-two digits of a commit id. -/
def digits (id : CommitId) : List Char := Text.Hex.ofNat 32 id.value.toNat

/-- A commit id as text. -/
def text (id : CommitId) : String := String.ofList id.digits

/-- Digits in groups of 8, 4, 4, 4 and 12 with dashes between them. -/
def dash (digits : List Char) : List Char :=
  digits.take 8 ++ '-' :: (digits.drop 8).take 4 ++ '-' :: (digits.drop 12).take 4
    ++ '-' :: (digits.drop 16).take 4 ++ '-' :: digits.drop 20

/-- A commit id as text with dashes. -/
def dashedText (id : CommitId) : String := String.ofList (dash id.digits)

/-- The digits of a text that has them in dashed groups. -/
def undash? (s : List Char) : Option (List Char) :=
  let digits := s.filter (· ≠ '-')
  if digits.length = 32 ∧ dash digits = s then some digits else none

/-- The commit id that a text spells out. -/
def parse (s : String) : Except IdentifierError CommitId :=
  let digits? := if s.length = 32 then some s.toList else undash? s.toList
  match digits?.bind Text.Hex.toNat? with
  | some value => .ok ⟨BitVec.ofNat 128 value⟩
  | none => .error (.commitId s)

/-- Whether a commit id is at most another as a number. -/
def le (a b : CommitId) : Bool := a.value.toNat ≤ b.value.toNat

end CommitId

end SchemaModules
