import SchemaModules.Text.Hex
import SchemaModules.Text.Reader

/-!
# TOML values that are not made of others

The readers of truth values, dates and times, and numbers. They give back the text they took.
-/

namespace SchemaModules.Toml

open Text (Reader)
open Text.Reader

/-- A decimal digit. -/
def isDigit (c : Char) : Bool := '0' ≤ c && c ≤ '9'

/-- The number that decimal digits stand for. -/
def decimal (digits : List Char) : Nat :=
  digits.foldl (fun n c => 10 * n + (c.toNat - '0'.toNat)) 0

/-- A given number of digits that stand for a number of a range. -/
def digitsIn (width low high : Nat) : Reader (List Char) := do
  let digits ← exactly isDigit width
  if low ≤ decimal digits && decimal digits ≤ high then return digits else failure

/-- The number of days of a month. -/
def daysIn (year month : Nat) : Nat :=
  if month = 2 then
    if year % 4 = 0 ∧ (year % 100 ≠ 0 ∨ year % 400 = 0) then 29 else 28
  else if month ∈ [4, 6, 9, 11] then 30
  else 31

/-- A day of the calendar. -/
def date : Reader (List Char) := do
  let year ← exactly isDigit 4
  char '-'
  let month ← digitsIn 2 1 12
  char '-'
  let day ← digitsIn 2 1 (daysIn (decimal year) (decimal month))
  return year ++ '-' :: month ++ '-' :: day

/-- The part of a second after its point. -/
def secondFraction : Reader (List Char) := do
  char '.'
  let digits ← someOf isDigit
  return '.' :: digits

/-- A time of day. -/
def time : Reader (List Char) := do
  let hour ← digitsIn 2 0 23
  char ':'
  let minute ← digitsIn 2 0 59
  char ':'
  let second ← digitsIn 2 0 60
  let fraction ← maybe secondFraction
  return hour ++ ':' :: minute ++ ':' :: second ++ fraction.getD []

/-- How far a time lies from the universal one. -/
def offset : Reader (List Char) :=
  (do return [← one fun c => c == 'Z' || c == 'z']) <|> do
    let sign ← one fun c => c == '+' || c == '-'
    let hour ← digitsIn 2 0 23
    char ':'
    let minute ← digitsIn 2 0 59
    return sign :: hour ++ ':' :: minute

/-- A time of day after a date, with its offset if there is one. -/
def timeOfDate : Reader (List Char) := do
  let mark ← one fun c => c == 'T' || c == 't' || c == ' '
  let time ← time
  let offset ← maybe offset
  return mark :: time ++ offset.getD []

/-- A date, a time, or both. -/
def dateTime : Reader (List Char) :=
  (do
    let date ← date
    let time ← maybe timeOfDate
    return date ++ time.getD []) <|> time

/-- Digits of a class, with single underscores between them. -/
def spacedDigits (p : Char → Bool) : Reader (List Char) := do
  let groups ← separated (char '_') (someOf p)
  return groups.flatten

/-- The digits of a whole number, which start with zero only if they are zero. -/
def wholeDigits : Reader (List Char) := do
  let digits ← spacedDigits isDigit
  if digits.length = 1 || digits.head? ≠ some '0' then return digits else failure

/-- The exponent of a number. -/
def exponent : Reader (List Char) := do
  let mark ← one fun c => c == 'e' || c == 'E'
  let sign ← maybe (one fun c => c == '+' || c == '-')
  let digits ← spacedDigits isDigit
  return mark :: sign.toList ++ digits

/-- The part of a number after its point. -/
def fraction : Reader (List Char) := do
  char '.'
  let digits ← spacedDigits isDigit
  return '.' :: digits

/-- A number with a part after its point or an exponent, or one that is none. -/
def float : Reader (List Char) := do
  let sign ← maybe (one fun c => c == '+' || c == '-')
  let named (name : String) : Reader (List Char) := do
    chars name.toList
    return name.toList
  let digits : Reader (List Char) := do
    let whole ← wholeDigits
    let part ← maybe fraction
    let exponent ← maybe exponent
    if part.isNone && exponent.isNone then failure
    return whole ++ part.getD [] ++ exponent.getD []
  let rest ← named "inf" <|> named "nan" <|> digits
  return sign.toList ++ rest

/-- The least number that does not fit into sixty-four bits with a sign. -/
def integerBound : Nat := 0x8000000000000000

/-- A whole number of sixty-four bits with a sign, in a base given by a mark. -/
def basedInteger (mark : Char) (base : Nat) : Reader (List Char) := do
  chars ['0', mark]
  let value (c : Char) : Option Nat := (Text.Hex.value? c).filter (· < base)
  let digits ← spacedDigits fun c => (value c).isSome
  let number := digits.foldl (fun n c => base * n + (value c).getD 0) 0
  if number < integerBound then return '0' :: mark :: digits else failure

/-- A whole number of sixty-four bits with a sign. -/
def decimalInteger : Reader (List Char) := do
  let sign ← maybe (one fun c => c == '+' || c == '-')
  let digits ← wholeDigits
  let bound := if sign = some '-' then integerBound + 1 else integerBound
  if decimal digits < bound then return sign.toList ++ digits else failure

/-- A whole number. -/
def integer : Reader (List Char) :=
  basedInteger 'x' 16 <|> basedInteger 'o' 8 <|> basedInteger 'b' 2 <|> decimalInteger

/-- A truth value. -/
def truth : Reader (List Char) :=
  (do chars "true".toList; return "true".toList)
    <|> (do chars "false".toList; return "false".toList)

/-- A truth value, a date or time, or a number. -/
def scalarText : Reader String := do
  return String.ofList (← truth <|> dateTime <|> float <|> integer)

end SchemaModules.Toml
