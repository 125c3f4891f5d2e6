import SchemaModules.Boundary.Declaration

/-!
# The fields of a declaration

The two formats in which a declaration can be written share its fields: which there are, which may
be left out, and what is taken for one that is. They differ in the values they have, which is what a
`FieldFormat` says.
-/

namespace SchemaModules.Declaration

/-- How the values of a format are read as field values. -/
structure FieldFormat (α : Type) where
  version? : α → Option FileVersion
  text? : α → Option String
  items? : α → Option (List α)
  isNull : α → Bool

/-- The names of the fields in their order. -/
def fieldNames : List String := ["version", "path", "name", "roots", "includes", "excludes"]

namespace FieldFormat

variable {α : Type} (format : FieldFormat α)

/-- A list of texts. -/
def texts? (value : α) : Option (List String) := do
  (← format.items? value).mapM format.text?

/-- A field that may be left out or be null. -/
def optionalField? {β : Type} (read? : α → Option β) (fields : List (String × α)) (name : String) :
    Option (Option β) :=
  match fields.lookup name with
  | none => some none
  | some value => if format.isNull value then some none else (read? value).map some

/-- A list of texts that is empty if the field is left out. -/
def listField? (fields : List (String × α)) (name : String) : Option (List String) :=
  match fields.lookup name with
  | none => some []
  | some value => format.texts? value

/-- The declaration with the given fields, none of which may be unknown or repeated. -/
def declaration? (fields : List (String × α)) : Option Declaration := do
  let names := fields.map Prod.fst
  if names.all (· ∈ fieldNames) ∧ names.Nodup then
    let version ← format.version? (← fields.lookup "version")
    let path ← format.optionalField? format.text? fields "path"
    let name ← format.optionalField? format.text? fields "name"
    let roots ← format.optionalField? format.texts? fields "roots"
    let includes ← format.listField? fields "includes"
    let excludes ← format.listField? fields "excludes"
    return ⟨version, path, name, roots, includes, excludes⟩
  else none

end FieldFormat

end SchemaModules.Declaration
