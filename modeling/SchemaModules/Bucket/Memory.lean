import SchemaModules.Bucket.Basic
import SchemaModules.Path.Basic
import SchemaModules.SortedMap

/-!
# Buckets in memory

Files kept by the normal forms of their paths.
-/

namespace SchemaModules

/-- Files in memory, by the normal form of their path. -/
structure MemoryBucket where
  fileMap : SortedMap String Bytes

namespace MemoryBucket

/-- The bucket without files. -/
def empty : MemoryBucket := ⟨SortedMap.empty⟩

/-- The path under which a file can be kept: one that stays inside and is not the top. -/
def filePath (path : String) : Except ModuleError String := do
  let path ← (Path.validate path).mapError .invalidPath
  if path = "." then throw .topPath
  return path

/-- The bucket with a file put in, over a file at the same place. -/
def insert (b : MemoryBucket) (path : String) (content : Bytes) :
    Except ModuleError MemoryBucket := do
  return ⟨b.fileMap.insert (← filePath path) content⟩

/-- The bucket with a file put in if its path allows it. -/
def insertValid (b : MemoryBucket) (path : String) (content : Bytes) : MemoryBucket :=
  match b.insert path content with
  | .ok b => b
  | .error _ => b

/-- The bucket of a list of files, all of whose paths must be valid. -/
def ofFiles (files : List (String × Bytes)) : Except ModuleError MemoryBucket :=
  files.foldlM (fun b file => b.insert file.1 file.2) empty

/-- The number of files. -/
def size (b : MemoryBucket) : Nat := b.fileMap.size

/-- Files in memory as a bucket. -/
def toBucket (b : MemoryBucket) : Bucket where
  contains path := b.fileMap.contains (Path.normalize path)
  read path :=
    match b.fileMap.find? (Path.normalize path) with
    | some content => .ok content
    | none => .error (.fileNotFound path)
  paths := .ok b.fileMap.keys

end MemoryBucket

end SchemaModules
