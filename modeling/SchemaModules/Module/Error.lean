import SchemaModules.ErrorKind
import SchemaModules.Path.Error

/-!
# What can go wrong with files and modules
-/

namespace SchemaModules

/-- What can go wrong with the files of a module, with a module, or with a set of modules. -/
inductive ModuleError where
  /-- The storage failed to give a file or a listing. -/
  | storage (path message : String)
  | fileNotFound (path : String)
  | invalidPath (error : PathError)
  /-- The path is valid but is the top, which is no file. -/
  | topPath
  /-- Two files of a workspace belong at one place of a module. -/
  | duplicatePath (path first second : String)
  | duplicateModule (description : String)
  | unknownDependency (module dependency : String)
  | cycle (id : String)
  | unresolvedImport (module path : String)
  | digestMismatch (module expected actual : String)
  /-- A registry left out a field of its answer. -/
  | missingField (field context : String)
  /-- A registry gave a field of its answer that cannot be read. -/
  | invalidField (field context message : String)
  /-- Something that cannot happen has happened. -/
  | fault (message : String)
  deriving DecidableEq, Repr

namespace ModuleError

/-- Why the top is refused as the path of a file. -/
def topPathReason : String := "file path cannot be \".\""

/-- The message of a module error. -/
def message : ModuleError → String
  | .storage path message => s!"failed to read {path}: {message}"
  | .fileNotFound path => s!"file not found: {path}"
  | .invalidPath error => error.message
  | .topPath => s!"invalid path: {topPathReason}"
  | .duplicatePath path first second =>
      s!"{path} is present in multiple roots: {first} and {second}"
  | .duplicateModule description => s!"duplicate module: {description}"
  | .unknownDependency module dependency =>
      s!"module {module} depends on {dependency}, which is not in the module set"
  | .cycle id => s!"dependency cycle detected involving module {id}"
  | .unresolvedImport module path =>
      s!"{module}: import {Text.quote path} was not found in any module"
  | .digestMismatch module expected actual =>
      s!"digest mismatch for {module}: expected {expected}, got {actual}"
  | .missingField field context => s!"{context}: registry response is missing {field}"
  | .invalidField field context message =>
      s!"{context}: registry returned an invalid {field}: {message}"
  | .fault message => s!"internal error: {message}"

/-- The kind of a module error. -/
def kind : ModuleError → ErrorKind
  | .fileNotFound _ => .notFound
  | .storage .. | .fault _ => .system
  | .digestMismatch .. | .missingField .. | .invalidField .. => .consistency
  | .invalidPath _ | .topPath | .duplicatePath .. | .duplicateModule _ | .unknownDependency ..
  | .cycle _ | .unresolvedImport .. => .user

end ModuleError

end SchemaModules
