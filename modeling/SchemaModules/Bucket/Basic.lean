import SchemaModules.Module.Error
import SchemaModules.Text.Utf8

/-!
# Buckets

A bucket holds files by path. It is given by what can be asked of it: whether there is a file, what
is in it, and which files there are. Paths in questions need not be in normal form.
-/

namespace SchemaModules

/-- A read-only collection of files. -/
structure Bucket where
  /-- Whether there is a file at a path. -/
  contains : String → Bool
  /-- The content of the file at a path. -/
  read : String → Except ModuleError Bytes
  /-- The paths of all files in ascending order. -/
  paths : Except ModuleError (List String)

namespace Bucket

/-- The listed files with their contents. -/
def files (b : Bucket) : Except ModuleError (List (String × Bytes)) := do
  (← b.paths).mapM fun path => do return (path, ← b.read path)

end Bucket

end SchemaModules
