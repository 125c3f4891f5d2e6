import SchemaModules.Module.Error

/-!
# Module errors laid open

The text that shows an error with all its parts, as it stands in logs.
-/

namespace SchemaModules

namespace Text

/-- A value of one part. -/
def inspectTuple (name part : String) : String := name ++ "(" ++ part ++ ")"

/-- A value of named texts. -/
def inspectFields (name : String) (fields : List (String × String)) : String :=
  let parts := fields.map fun field => field.1 ++ ": " ++ quote field.2
  name ++ " \x7b " ++ ", ".intercalate parts ++ " \x7d"

end Text

open Text (inspectTuple inspectFields quote)

/-- A path error with all its parts. -/
def PathError.inspect : PathError → String
  | .invalid path fault =>
      let kind := match fault with
        | .notRelative => "NotRelative"
        | .contextJump => "ContextJump"
      "Invalid \x7b path: " ++ quote path ++ ", kind: " ++ kind ++ " \x7d"
  | .invalidComponent component fault =>
      inspectFields "InvalidComponent" [("component", component), ("reason", fault.text)]
  | .empty => "Empty"
  | .notNormalized path normalized =>
      inspectFields "NotNormalized" [("path", path), ("normalized", normalized)]
  | .duplicate path => inspectTuple "Duplicate" (quote path)
  | .notRelatable base target =>
      inspectFields "NotRelatable" [("base", base), ("target", target)]

/-- A module error with all its parts. -/
def ModuleError.inspect : ModuleError → String
  | .storage path reason => inspectFields "Io" [("path", path), ("message", reason)]
  | .fileNotFound path => inspectTuple "FileNotFound" (quote path)
  | .invalidPath error => inspectTuple "Path" error.inspect
  | .topPath => inspectTuple "InvalidPath" (quote topPathReason)
  | .duplicatePath path first second =>
      inspectFields "DuplicatePath" [("path", path), ("first", first), ("second", second)]
  | .duplicateModule description => inspectTuple "DuplicateModule" (quote description)
  | .unknownDependency module dependency =>
      inspectFields "UnknownDependency" [("module", module), ("dependency", dependency)]
  | .cycle id => inspectTuple "Cycle" (quote id)
  | .unresolvedImport module path =>
      inspectFields "UnresolvedImport" [("module", module), ("import", path)]
  | .digestMismatch module expected actual =>
      inspectFields "DigestMismatch"
        [("module", module), ("expected", expected), ("actual", actual)]
  | .missingField field context =>
      inspectFields "MissingField" [("field", field), ("context", context)]
  | .invalidField field context reason =>
      inspectFields "InvalidField"
        [("field", field), ("context", context), ("message", reason)]
  | .fault reason => inspectTuple "Internal" (quote reason)

end SchemaModules
