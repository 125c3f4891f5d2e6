import SchemaModules.Path.Basic
import SchemaModules.Text.CharClass

/-!
# Import lines of schema files

An import line starts with the word for it and names a path between quotation marks, after a word
for how it is passed on if there is one. `parseImports` picks the paths out of a file line by line.
-/

namespace SchemaModules.Imports

/-- A text without a start, if it starts so. -/
def dropStart? (start s : List Char) : Option (List Char) :=
  if start.isPrefixOf s then some (s.drop start.length) else none

/-- A text without leading blank characters. -/
def dropBlank (s : List Char) : List Char := s.dropWhile Text.isBlank

/-- A text without a word at its start and the blank characters after it, if it starts so. -/
def dropWord (word s : List Char) : List Char :=
  match dropStart? word s with
  | some rest => dropBlank rest
  | none => s

/-- The words that say how an import is passed on. -/
def modifiers : List (List Char) := ["public".toList, "weak".toList]

/-- The text up to the next quotation mark, if there is one. -/
def quotedPath? (s : List Char) : Option (List Char) :=
  if '"' ∈ s then some (s.takeWhile (· ≠ '"')) else none

/-- The path that a line imports, as it is written. -/
def linePath? (line : List Char) : Option (List Char) := do
  let rest ← dropStart? "import".toList (Text.trim line)
  let first ← rest.head?
  if Text.isBlank first || first = '"' then
    let rest := modifiers.foldl (fun rest word => dropWord word rest) (dropBlank rest)
    quotedPath? (← dropStart? ['"'] rest)
  else none

/-- The normal forms of the paths that the lines of a file import, in their order. -/
def parseImports (source : List Char) : List String :=
  (Text.split '\n' source).filterMap fun line =>
    (linePath? line).map fun path => Path.normalize (String.ofList path)

end SchemaModules.Imports
