import SchemaModules.Digest
import SchemaModules.Identifier.CommitId
import SchemaModules.Identifier.FullName
import SchemaModules.Identifier.Visibility
import SchemaModules.Json

/-!
# Identifiers in JSON

An identifier is written as its text, and a visibility as its name or as the only member of an
object with no value.
-/

namespace SchemaModules

namespace Json

/-- The text of a value that is one. -/
def text? : Json → Option String
  | .text s => some s
  | _ => none

/-- The name of a value that is one of several names: written as a text, or as the only member of an
object with no value. -/
def name? : Json → Option String
  | .text s => some s
  | .object [(s, .null)] => some s
  | _ => none

end Json

/-- The full name that a JSON value stands for. -/
def FullName.ofJson? (j : Json) : Option FullName := do
  (FullName.parse (← j.text?)).toOption

/-- The commit id that a JSON value stands for. -/
def CommitId.ofJson? (j : Json) : Option CommitId := do
  (CommitId.parse (← j.text?)).toOption

/-- The digest that a JSON value stands for. -/
def Digest.ofJson? (j : Json) : Option Digest := do
  (Digest.parse (← j.text?)).toOption

/-- The visibility that a JSON value stands for. -/
def Visibility.ofJson? (j : Json) : Option Visibility := do
  (Visibility.parse (← j.name?)).toOption

end SchemaModules
