import SchemaModules.Toml.Value

/-!
# TOML documents

A document is read line by line. A header in brackets says which table the keys after it are put
into; one in double brackets opens a new table of its array.
-/

namespace SchemaModules.Toml

open Text (Reader)
open Text.Reader

/-- The entries of a table. -/
abbrev Entries := List (String × Toml)

/-- What a line of a document says. -/
inductive Line where
  | blank
  | pair (key : List String) (value : Toml)
  | header (key : List String)
  | arrayHeader (key : List String)

/-- The entries with the value at a key replaced. -/
def replace (entries : Entries) (part : String) (value : Toml) : Entries :=
  entries.map fun e => if e.1 = part then (part, value) else e

/-- Change the entries of the table that a key leads to. Tables on the way that are missing are set
up as the given origin; dotted keys lead only through tables that have no header of their own, and
an array of tables leads to its last one. -/
def descend (origin : TableOrigin) (change : TableOrigin → Entries → Option Entries) :
    (key : List String) → (current : TableOrigin) → Entries → Option Entries
  | [], current, entries => change current entries
  | part :: rest, _, entries =>
      match entries.lookup part with
      | none => do return entries ++ [(part, .table origin (← descend origin change rest origin []))]
      | some (.table kind inner) =>
          if origin = .dotted ∧ kind = .header then none
          else do
            return replace entries part (.table kind (← descend origin change rest kind inner))
      | some (.tables members) =>
          match members.getLast? with
          | none => none
          | some last => do
              let last ← descend origin change rest .header last
              return replace entries part (.tables (members.dropLast ++ [last]))
      | some _ => none

/-- Put a value into the table that a dotted key leads to. A dotted key goes only into a table that
dotted keys set up, and a plain one only into another. -/
def putPair (key : List String) (value : Toml) (current : TableOrigin) (entries : Entries) :
    Option Entries :=
  match key.getLast? with
  | none => none
  | some last =>
      let path := key.dropLast
      let put (kind : TableOrigin) (entries : Entries) : Option Entries :=
        if decide (kind = .dotted) = path.isEmpty ∨ (entries.lookup last).isSome then none
        else some (entries ++ [(last, value)])
      descend .dotted put path current entries

/-- Set up a table for a header: a new one, or one that was only on the way to others so far. -/
def openTable (last : String) (_ : TableOrigin) (entries : Entries) : Option Entries :=
  match entries.lookup last with
  | none => some (entries ++ [(last, .table .header [])])
  | some (.table .path inner) =>
      some (entries.filter (·.1 ≠ last) ++ [(last, .table .header inner)])
  | some _ => none

/-- Set up the next table of an array of tables. -/
def openArrayTable (last : String) (_ : TableOrigin) (entries : Entries) : Option Entries :=
  match entries.lookup last with
  | none => some (entries ++ [(last, .tables [[]])])
  | some (.tables members) => some (replace entries last (.tables (members ++ [[]])))
  | some _ => none

/-- What has been read of a document: its entries and the key of the table that is open. -/
structure Document where
  entries : Entries
  openKey : List String

/-- Open the table of a header by the given change of the table above it. -/
def Document.openAt (d : Document) (key : List String)
    (change : String → TableOrigin → Entries → Option Entries) : Option Document := do
  let last ← key.getLast?
  let entries ← descend .path (change last) key.dropLast .header d.entries
  return ⟨entries, key⟩

/-- What a document holds after a further line. -/
def Document.add (d : Document) : Line → Option Document
  | .blank => some d
  | .header key => d.openAt key openTable
  | .arrayHeader key => d.openAt key openArrayTable
  | .pair key value => do
      return { d with entries := ← descend .path (putPair key value) d.openKey .header d.entries }

/-- The header of a table, or of one of an array. -/
def headerLine : Reader Line := do
  char '['
  (do
    char '['
    let key ← key
    chars [']', ']']
    return .arrayHeader key) <|> do
    let key ← key
    char ']'
    return .header key

/-- What a line says, up to a comment. -/
def statement : Reader Line := do
  match ← peek? with
  | none | some '#' | some '\r' | some '\n' => return .blank
  | some '[' => headerLine
  | _ =>
      let (key, v) ← keyValue (value maxDepth)
      return .pair key v

/-- A line with its comment, without its end. -/
def line : Reader Line := do
  space
  let said ← statement
  space
  let _ ← maybe comment
  return said

/-- All lines of a document, after a mark of byte order. -/
def lines : Reader (List Line) := do
  let _ ← maybe (char '\uFEFF')
  separated newline line

/-- The entries of the document that a text spells out. -/
def read? (s : String) : Option Entries := do
  let lines ← Reader.read? lines s.toList
  let document ← lines.foldlM Document.add ⟨[], []⟩
  return document.entries

end SchemaModules.Toml
