import SchemaModules.Bucket.Basic
import SchemaModules.Path.Basic

/-!
# Buckets with some files hidden
-/

namespace SchemaModules.Bucket

/-- The files of a bucket whose path, in normal form, passes a test. -/
def filter (b : Bucket) (visible : String → Bool) : Bucket where
  contains path := visible (Path.normalize path) && b.contains (Path.normalize path)
  read path :=
    if visible (Path.normalize path) then b.read (Path.normalize path)
    else .error (.fileNotFound path)
  paths := do return (← b.paths).filter visible

end SchemaModules.Bucket
