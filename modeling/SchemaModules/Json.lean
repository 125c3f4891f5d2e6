import SchemaModules.Text.Hex
import SchemaModules.Text.Reader

/-!
# JSON

The values of JSON and their reader. The reader is strict: it takes the grammar as it stands, only
one value, and no string that holds half a surrogate pair. The members of an object keep their order
and may repeat; what to make of that is left to whoever looks at the value.
-/

namespace SchemaModules

/-- A JSON value. A number is kept as it is written. -/
inductive Json where
  | null
  | bool (value : Bool)
  | number (literal : String)
  | text (value : String)
  | array (items : List Json)
  | object (members : List (String × Json))
  deriving Inhabited

namespace Json

open Text (Reader)
open Text.Reader

/-- The characters that may stand between the parts of a value. -/
def isSpace (c : Char) : Bool := c == ' ' || c == '\t' || c == '\n' || c == '\r'

/-- Skip the space before a part. -/
def space : Reader Unit := do
  let _ ← allOf isSpace

/-- A decimal digit. -/
def isDigit (c : Char) : Bool := '0' ≤ c && c ≤ '9'

/-- The code unit of four hexadecimal digits. -/
def codeUnit : Reader Nat := do
  let digits ← exactly (fun c => (Text.Hex.value? c).isSome) 4
  (Text.Hex.toNat? digits : Option Nat)

/-- What a one-letter escape stands for. -/
def escaped? (c : Char) : Option Char :=
  [('"', '"'), ('\\', '\\'), ('/', '/'), ('b', '\x08'), ('f', '\x0C'), ('n', '\n'), ('r', '\r'),
    ('t', '\t')].lookup c

/-- The rest of an escape that gives a code unit. A high surrogate needs its low one next. -/
def codeEscape : Reader Char := do
  let unit ← codeUnit
  if 0xD800 ≤ unit && unit ≤ 0xDBFF then
    chars ['\\', 'u']
    let low ← codeUnit
    if 0xDC00 ≤ low && low ≤ 0xDFFF then
      return Char.ofNat (0x10000 + (unit - 0xD800) * 0x400 + (low - 0xDC00))
    else failure
  else if 0xDC00 ≤ unit && unit ≤ 0xDFFF then failure
  else return Char.ofNat unit

/-- One character of a string, plain or escaped. -/
def stringChar : Reader Char := do
  let c ← one fun c => c ≠ '"' && 0x20 ≤ c.toNat
  if c ≠ '\\' then return c
  let kind ← next
  if kind = 'u' then codeEscape else (escaped? kind : Option Char)

/-- A string between quotation marks. -/
def quotedText : Reader String := do
  char '"'
  let body ← many stringChar
  char '"'
  return String.ofList body

/-- The part of a number before any point: zero, or digits that do not start with it. -/
def wholePart : Reader (List Char) := do
  let first ← one isDigit
  if first = '0' then return [first]
  let rest ← allOf isDigit
  return first :: rest

/-- The part of a number after its point. -/
def fraction : Reader (List Char) := do
  char '.'
  let digits ← someOf isDigit
  return '.' :: digits

/-- The exponent of a number. -/
def exponent : Reader (List Char) := do
  let mark ← one fun c => c == 'e' || c == 'E'
  let sign ← maybe (one fun c => c == '+' || c == '-')
  let digits ← someOf isDigit
  return mark :: sign.toList ++ digits

/-- A number. -/
def numeral : Reader String := do
  let sign ← maybe (one (· == '-'))
  let whole ← wholePart
  let fraction ← maybe fraction
  let exponent ← maybe exponent
  return String.ofList (sign.toList ++ whole ++ fraction.getD [] ++ exponent.getD [])

/-- The items of an array after its opening bracket. -/
def items (value : Reader Json) : Reader (List Json) := do
  space
  let close := char ']'
  (do close; return []) <|> do
    let items ← separated (char ',') (do let v ← value; space; return v)
    close
    return items

/-- A member of an object. -/
def member (value : Reader Json) : Reader (String × Json) := do
  space
  let key ← quotedText
  space
  char ':'
  let v ← value
  space
  return (key, v)

/-- The members of an object after its opening brace. -/
def members (value : Reader Json) : Reader (List (String × Json)) := do
  space
  let close := char '\x7d'
  (do close; return []) <|> do
    let members ← separated (char ',') (member value)
    close
    return members

/-- A value that holds others at most `depth` deep, after any space. -/
def value : (depth : Nat) → Reader Json
  | 0 => failure
  | depth + 1 => do
      space
      match ← peek? with
      | some '"' => return .text (← quotedText)
      | some '[' => char '['; return .array (← items (value depth))
      | some '\x7b' => char '\x7b'; return .object (← members (value depth))
      | some 'n' => chars "null".toList; return .null
      | some 't' => chars "true".toList; return .bool true
      | some 'f' => chars "false".toList; return .bool false
      | _ => return .number (← numeral)

/-- How deep the values of a text may be nested. -/
def maxDepth : Nat := 128

/-- The value that a text spells out. -/
def read? (s : String) : Option Json :=
  Reader.read? (do let v ← value maxDepth; space; return v) s.toList

end Json

end SchemaModules
