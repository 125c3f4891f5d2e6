import SchemaModules.Boundary.Fields
import SchemaModules.Toml.Document

/-!
# Declarations in TOML

A declaration is a document of its fields.
-/

namespace SchemaModules

namespace Toml

/-- Whether a value is an array or a table of nothing. -/
def isEmpty : Toml → Bool
  | .array items => items.isEmpty
  | .inlineTable _ entries | .table _ entries => entries.isEmpty
  | .tables members => members.isEmpty
  | .text _ | .scalar _ => false

end Toml

namespace FileVersion

/-- A version is written as its name, or as the only key of a table, with an empty value. -/
def ofToml? : Toml → Option FileVersion
  | .text name => ofText? name
  | .inlineTable _ [(name, value)] | .table _ [(name, value)] =>
      if value.isEmpty then ofText? name else none
  | _ => none

end FileVersion

/-- How fields are written in TOML, which has no null. -/
def Declaration.tomlFormat : FieldFormat Toml where
  version? := FileVersion.ofToml?
  text?
    | .text value => some value
    | _ => none
  items?
    | .array items => some items
    | _ => none
  isNull _ := false

/-- The boundary that a declaration in TOML text stands for. -/
def Boundary.ofTomlText (s : String) : Except BoundaryError Boundary :=
  match (Toml.read? s).bind Declaration.tomlFormat.declaration? with
  | some declaration => declaration.toBoundary
  | none => .error .unreadable

end SchemaModules
