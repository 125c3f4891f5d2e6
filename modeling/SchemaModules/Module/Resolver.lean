import SchemaModules.Module.Basic
import SchemaModules.Module.Imports

/-!
# Direct dependencies of modules

A resolver says which modules of a list a module depends on directly: by a table, or by what its
schema files import.
-/

namespace SchemaModules

/-- The ids of the direct dependencies of a module among the modules of a list. -/
abbrev Resolver := Module → List Module → Except ModuleError (List String)

namespace Resolver

/-- Dependencies out of a table by id. A module that is not in it has none. -/
def ofTable (table : List (String × List String)) : Resolver := fun m _ =>
  .ok ((table.lookup m.opaqueId).getD [])

/-- The directory of the imports that no module has to provide. -/
def wellKnownDirectory : String := "google/protobuf/"

/-- Whether an import needs no other module: it is well known, or the module shows it itself. -/
def isProvidedBy (m : Module) (path : String) : Bool :=
  wellKnownDirectory.toList.isPrefixOf path.toList || m.bucket.contains path

/-- The first other module that shows a path. -/
def provider? (m : Module) (modules : List Module) (path : String) : Option Module :=
  modules.find? fun other => other.opaqueId ≠ m.opaqueId && other.bucket.contains path

/-- Add the provider of an import to the dependencies of a module. -/
def addProvider (m : Module) (modules : List Module) (deps : List String) (path : String) :
    Except ModuleError (List String) :=
  if isProvidedBy m path then .ok deps
  else match provider? m modules path with
    | some other =>
        .ok (if other.opaqueId ∈ deps then deps else deps ++ [other.opaqueId])
    | none => .error (.unresolvedImport m.description path)

/-- The dependencies that the schema files of a module import. -/
def scanner : Resolver := fun m modules => do
  let schemas := (← m.bucket.paths).filter fun path => Path.extension path = schemaExtension
  schemas.foldlM (fun deps path => do
    let source := Text.Utf8.decode (← m.bucket.read path)
    (Imports.parseImports source).foldlM (addProvider m modules) deps) []

end Resolver

end SchemaModules
