import SchemaModules.Bucket.Digest
import SchemaModules.Bucket.Filter
import SchemaModules.Bucket.View
import SchemaModules.Identifier.CommitId
import SchemaModules.Identifier.FullName

/-!
# Modules

A module is a set of schema files with a license and a documentation, out of a bucket that may hold
more. It is edited in the workspace, or it was published to a registry in a commit.
-/

namespace SchemaModules

/-- A module: where its files come from, what it is called, and whether it is edited here and is
what the current operation is about. -/
structure Module where
  bucketId : String
  fullName : Option FullName
  commitId : Option CommitId
  isLocal : Bool
  isTarget : Bool
  expectedDigest : Option Digest
  source : Bucket

namespace Module

/-- The path of the license. -/
def licensePath : String := "LICENSE"

/-- The paths at which a documentation is looked for, in this order. -/
def docPaths : List String := ["buf.md", "README.md", "README.markdown"]

/-- Whether a module shows the file at a path, given the path of its documentation. -/
def isShown (doc : Option String) (path : String) : Bool :=
  Path.extension path = schemaExtension || path = licensePath || some path = doc

/-- The path of the documentation in a bucket, if it has one. -/
def docPath? (b : Bucket) : Option String := docPaths.find? b.contains

/-- A module that is edited in the workspace. -/
def edited (bucketId : String) (source : Bucket) (fullName : Option FullName) (isTarget : Bool) :
    Module where
  bucketId := bucketId
  fullName := fullName
  commitId := none
  isLocal := true
  isTarget := isTarget
  expectedDigest := none
  source := source

/-- A module that is edited in the workspace within a boundary. -/
def within (boundary : Boundary) (workspace : Bucket) (isTarget : Bool) : Module :=
  edited boundary.dirPath (boundary.view workspace) boundary.fullName isTarget

/-- A module that was published in a commit. -/
def published (fullName : FullName) (commitId : CommitId) (source : Bucket)
    (expectedDigest : Option Digest) : Module where
  bucketId := fullName.text ++ ":" ++ commitId.text
  fullName := some fullName
  commitId := some commitId
  isLocal := false
  isTarget := false
  expectedDigest := expectedDigest
  source := source

/-- What identifies a module in a set: its full name, or where its files come from. -/
def opaqueId (m : Module) : String :=
  match m.fullName with
  | some name => name.text
  | none => m.bucketId

/-- What a module is called in messages. -/
def description (m : Module) : String :=
  match m.fullName, m.commitId with
  | some name, some id => name.text ++ ":" ++ id.text
  | some name, none => name.text
  | none, _ => "module at " ++ Text.quote m.bucketId

/-- The files that a module shows. -/
def bucket (m : Module) : Bucket :=
  m.source.filter (isShown (docPath? m.source))

/-- The files of a module with their contents, in ascending order of their paths. -/
def files (m : Module) : Except ModuleError (List (String × Bytes)) := m.bucket.files

/-- The digest of the files of a module, which must be the expected one if there is one. -/
def digest (m : Module) : Except ModuleError Digest := do
  let actual ← m.bucket.digest
  match m.expectedDigest with
  | some expected =>
      if expected = actual then return actual
      else throw (.digestMismatch m.description expected.text actual.text)
  | none => return actual

end Module

end SchemaModules
