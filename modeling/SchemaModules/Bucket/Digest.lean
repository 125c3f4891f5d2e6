import SchemaModules.Bucket.Basic
import SchemaModules.Digest
import SchemaModules.Path.Chunk

/-!
# Digests of buckets

The digest of all files of a bucket. A bucket of many files is hashed in chunks of whole
directories, which makes no difference to its digest.
-/

namespace SchemaModules.Bucket

/-- The number of files from which on a bucket is hashed in chunks. -/
def chunkThreshold : Nat := 64

/-- The number of files that a chunk should have. -/
def chunkSize : Int := 32

/-- The paths of files with the hashes of their contents. -/
def hashFiles (b : Bucket) (paths : List String) : Except ModuleError (List (String × String)) :=
  paths.mapM fun path => do return (path, Digest.fileHash (← b.read path))

/-- The paths and hashes of all given files, in chunks if they are many. -/
def hashAll (b : Bucket) (paths : List String) : Except ModuleError (List (String × String)) :=
  if paths.length < chunkThreshold then b.hashFiles paths
  else do return (← (Path.chunkByDir paths chunkSize).mapM b.hashFiles).flatten

/-- The digest of all files of a bucket. -/
def digest (b : Bucket) : Except ModuleError Digest := do
  return Digest.ofFileHashes (← b.hashAll (← b.paths))

end SchemaModules.Bucket
