import SchemaModules.Digest
import SchemaModules.Identifier.CommitId
import SchemaModules.Identifier.FullName
import SchemaModules.Module.Error

/-!
# Commits

A commit says that the content of a module was published under its name at a time. Its digest and
its time may have failed to arrive; that shows only when they are asked for.
-/

namespace SchemaModules

/-- The name and the commit id that content was published under, with its digest. -/
structure ModuleKey where
  fullName : FullName
  commitId : CommitId
  digest : Except ModuleError Digest
  commitId_ne_nil : commitId ≠ CommitId.nil

namespace ModuleKey

/-- The key of a name and a commit id, which must not be the nil one. -/
def make (fullName : FullName) (commitId : CommitId) (digest : Except ModuleError Digest) :
    Except ModuleError ModuleKey :=
  if nil : commitId = CommitId.nil then
    .error (.fault ("nil commit id for module " ++ fullName.text))
  else .ok ⟨fullName, commitId, digest, nil⟩

/-- A key as text. -/
def text (k : ModuleKey) : String := k.fullName.text ++ ":" ++ k.commitId.text

end ModuleKey

/-- A record that content was published, with its time in seconds since the epoch. -/
structure Commit where
  key : ModuleKey
  createTime : Except ModuleError Int

end SchemaModules
