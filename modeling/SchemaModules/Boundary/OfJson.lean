import SchemaModules.Boundary.Fields
import SchemaModules.Identifier.OfJson

/-!
# Declarations in JSON

A declaration is an object of its fields, or an array of their values in order, of which the last
ones may be missing.
-/

namespace SchemaModules

/-- The version that a JSON value stands for. -/
def FileVersion.ofJson? (j : Json) : Option FileVersion := do
  FileVersion.ofText? (← j.name?)

namespace Declaration

/-- How fields are written in JSON. -/
def jsonFormat : FieldFormat Json where
  version? := FileVersion.ofJson?
  text? := Json.text?
  items?
    | .array items => some items
    | _ => none
  isNull
    | .null => true
    | _ => false

/-- The declaration that a JSON value stands for. -/
def ofJson? : Json → Option Declaration
  | .object fields => jsonFormat.declaration? fields
  | .array values =>
      if values.length ≤ fieldNames.length then
        jsonFormat.declaration? (fieldNames.zip values)
      else none
  | _ => none

/-- The JSON value of a declaration, with all of its fields. -/
def toJson (d : Declaration) : Json :=
  let texts (list : List String) := Json.array (list.map .text)
  .object [("version", .text d.version.text), ("path", (d.path.map .text).getD .null),
    ("name", (d.name.map .text).getD .null), ("roots", (d.roots.map texts).getD .null),
    ("includes", texts d.includes), ("excludes", texts d.excludes)]

end Declaration

/-- The boundary that a declaration in JSON text stands for. -/
def Boundary.ofJsonText (s : String) : Except BoundaryError Boundary :=
  match (Json.read? s).bind Declaration.ofJson? with
  | some declaration => declaration.toBoundary
  | none => .error .unreadable

end SchemaModules
