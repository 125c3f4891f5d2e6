import SchemaModules.Text.Hex
import SchemaModules.Text.Reader
import SchemaModules.Toml.Scalar

/-!
# TOML values

The values of TOML 1.0 and their readers. A table remembers how it came to be, which decides whether
more may be put into it.
-/

namespace SchemaModules

/-- How a table came to be. -/
inductive TableOrigin where
  /-- By a header of its own, or between braces. -/
  | header
  /-- On the way to a table further down. -/
  | path
  /-- By a dotted key. -/
  | dotted
  deriving DecidableEq, Repr

/-- A TOML value. Numbers, dates and truth values are kept as they are written. -/
inductive Toml where
  | text (value : String)
  | scalar (literal : String)
  | array (items : List Toml)
  /-- A table between braces. -/
  | inlineTable (origin : TableOrigin) (entries : List (String × Toml))
  /-- A table set up by headers and dotted keys. -/
  | table (origin : TableOrigin) (entries : List (String × Toml))
  /-- The tables that headers in double brackets set up. -/
  | tables (members : List (List (String × Toml)))

namespace Toml

open Text (Reader)
open Text.Reader

/-- The characters that may stand between the parts of a line. -/
def isSpace (c : Char) : Bool := c == ' ' || c == '\t'

/-- Skip the space before a part. -/
def space : Reader Unit := do
  let _ ← allOf isSpace

/-- The end of a line. -/
def newline : Reader Char := do
  let _ ← maybe (char '\r')
  char '\n'
  return '\n'

/-- Characters that are no control characters, or a tab. -/
def isPlain (c : Char) : Bool := c == '\t' || (0x20 ≤ c.toNat && c.toNat ≠ 0x7F)

/-- A comment up to the end of its line. -/
def comment : Reader Unit := do
  char '#'
  let _ ← allOf isPlain

/-- Skip space, comments and ends of lines. -/
def blankLines : Reader Unit := do
  let _ ← many do
    match ← peek? with
    | some '#' => comment
    | some '\r' | some '\n' => let _ ← newline
    | _ => let _ ← one isSpace
  return ()

/-- What a one-letter escape stands for. -/
def escaped? (c : Char) : Option Char :=
  [('b', '\x08'), ('t', '\t'), ('n', '\n'), ('f', '\x0C'), ('r', '\r'), ('"', '"'),
    ('\\', '\\')].lookup c

/-- A character that is given by the digits of its code point. -/
def codePoint (width : Nat) : Reader Char := do
  let digits ← exactly (fun c => (Text.Hex.value? c).isSome) width
  let code ← (Text.Hex.toNat? digits : Option Nat)
  if code.isValidChar then return Char.ofNat code else failure

/-- The rest of an escape after its backslash. -/
def escape : Reader Char := do
  let kind ← next
  if kind = 'u' then codePoint 4
  else if kind = 'U' then codePoint 8
  else (escaped? kind : Option Char)

/-- A text between quotation marks on one line. -/
def basicText : Reader (List Char) := do
  char '"'
  let body ← many do
    let c ← one fun c => isPlain c && c ≠ '"'
    if c = '\\' then escape else return c
  char '"'
  return body

/-- A text between apostrophes on one line, without escapes. -/
def literalText : Reader (List Char) := do
  char '\''
  let body ← allOf fun c => isPlain c && c ≠ '\''
  char '\''
  return body

/-- The space and line ends that a backslash at the end of a line takes with it. -/
def lineEnding : Reader Unit := do
  char '\\'
  space
  let _ ← newline
  let _ ← many ((do let _ ← one isSpace) <|> (do let _ ← newline))
  return ()

/-- One piece of a text over several lines, of characters other than quotes. -/
def basicPiece : Reader (List Char) :=
  (do lineEnding; return []) <|> (do return [← newline]) <|> do
    let c ← one fun c => isPlain c && c ≠ '"'
    if c = '\\' then return [← escape] else return [c]

/-- One piece of a text over several lines without escapes. -/
def literalPiece : Reader (List Char) :=
  (do return [← newline]) <|> do
    let c ← one fun c => isPlain c && c ≠ '\''
    return [c]

/-- The rest of a text over several lines after its three opening quotes. Up to two quotes may stand
together in it, also before the three at its end. -/
def multilineText (quote : Char) (piece : Reader (List Char)) : Reader (List Char) := do
  let _ ← maybe newline
  let body ← many (piece <|> do
    let quotes ← someOf (· == quote)
    if quotes.length ≤ 2 then return quotes else failure)
  let quotes ← someOf (· == quote)
  if 3 ≤ quotes.length && quotes.length ≤ 5 then return body.flatten ++ quotes.drop 3
  else failure

/-- A text in any of its four forms. -/
def anyText : Reader String := do
  let body ←
    (do chars ['"', '"', '"']; multilineText '"' basicPiece)
      <|> (do chars ['\'', '\'', '\'']; multilineText '\'' literalPiece)
      <|> basicText <|> literalText
  return String.ofList body

/-- The characters of a key without quotes. -/
def isBareKey (c : Char) : Bool := c.isAlphanum || c == '_' || c == '-'

/-- One part of a key. -/
def keyPart : Reader String := do
  match ← peek? with
  | some '"' => return String.ofList (← basicText)
  | some '\'' => return String.ofList (← literalText)
  | _ => return String.ofList (← someOf isBareKey)

/-- A key of one or more parts with dots between them, with the space around it. -/
def key : Reader (List String) :=
  separated (char '.') (do space; let part ← keyPart; space; return part)

/-- A key and its value. -/
def keyValue (value : Reader Toml) : Reader (List String × Toml) := do
  let key ← key
  char '='
  space
  let v ← value
  return (key, v)

/-- Put a value at a key into entries. Every part of the key but the last leads through a table that
only dotted keys set up; no part may be taken already. -/
def putDotted (value : Toml) : (key : List String) → List (String × Toml) →
    Option (List (String × Toml))
  | [], _ => none
  | [last], entries =>
      if (entries.lookup last).isSome then none else some (entries ++ [(last, value)])
  | part :: rest, entries =>
      match entries.lookup part with
      | none => do return entries ++ [(part, .inlineTable .dotted (← putDotted value rest []))]
      | some (.inlineTable .dotted inner) => do
          let inner ← putDotted value rest inner
          return entries.map fun e => if e.1 = part then (part, .inlineTable .dotted inner) else e
      | some _ => none

/-- The rest of a table between braces after the opening one. -/
def inlineEntries (value : Reader Toml) : Reader Toml := do
  space
  let close := char '\x7d'
  (do close; return .inlineTable .header []) <|> do
    let pairs ← separated (char ',') (do let p ← keyValue value; space; return p)
    close
    let entries ← (pairs.foldlM (fun entries (key, v) => putDotted v key entries) [] :
      Option (List (String × Toml)))
    return .inlineTable .header entries

/-- The rest of an array after its opening bracket. -/
def items (value : Reader Toml) : Reader (List Toml) := do
  blankLines
  let close := char ']'
  (do close; return []) <|> do
    let items ← separated (char ',') (do blankLines; let v ← value; blankLines; return v)
    let _ ← maybe (char ',')
    blankLines
    close
    return items

/-- A value that holds others at most `depth` deep. -/
def value : (depth : Nat) → Reader Toml
  | 0 => failure
  | depth + 1 => do
      match ← peek? with
      | some '"' | some '\'' => return .text (← anyText)
      | some '[' => char '['; return .array (← items (value depth))
      | some '\x7b' => char '\x7b'; inlineEntries (value depth)
      | _ => return .scalar (← scalarText)

/-- How deep the values of a text may be nested. -/
def maxDepth : Nat := 80

end Toml

end SchemaModules
