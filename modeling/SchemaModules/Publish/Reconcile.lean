import SchemaModules.Module.Commit
import SchemaModules.Publish.Content

/-!
# Commits out of a registry's answer

The commits that a registry returns are paired with the contents by their place alone. They carry
the names of the contents; of the answer only the ids are taken on trust, if they can be read. A
digest or a time that is missing shows when it is asked for.
-/

namespace SchemaModules.Content

/-- The digest of a commit, if the registry gave one that can be read. -/
def returnedDigest (context : String) (digest : Option String) : Except ModuleError Digest :=
  match digest with
  | none => .error (.missingField "digest" context)
  | some text => (Digest.parse text).mapError fun error =>
      .invalidField "digest" context error.message

/-- The time of a commit, if the registry gave one. -/
def returnedTime (context : String) (time : Option Int) : Except ModuleError Int :=
  match time with
  | none => .error (.missingField "create_time" context)
  | some time => .ok time

/-- The commit of a content that a registry returned. -/
def commit (content : Content) (returned : UploadedCommit) : Except PublishError Commit := do
  let id ← (CommitId.parse returned.id).mapError fun error => .invalidResponse (.commitId error)
  if id = CommitId.nil then throw (.invalidResponse (.nilCommitId content.fullName))
  let context := "commit " ++ id.text ++ " of " ++ content.fullName.text
  let digest := returnedDigest context returned.digest
  let key ← (ModuleKey.make content.fullName id digest).mapError .module
  return ⟨key, returnedTime context returned.createTime⟩

/-- The commits of contents that a registry returned, which must be as many. -/
def reconcile (contents : List Content) (returned : List UploadedCommit) :
    Except PublishError (List Commit) := do
  if returned.length ≠ contents.length then
    throw (.commitCount contents.length returned.length)
  (contents.zip returned).mapM fun pair => pair.1.commit pair.2

end SchemaModules.Content
