/-!
# Kinds of failure

Every error of the library has one kind, so that a caller can tell input to be corrected from a
fault to be reported without looking at the error itself.
-/

namespace SchemaModules

/-- The broad kind of a failure. -/
inductive ErrorKind where
  /-- The caller's input or declaration is wrong and can be corrected. -/
  | user
  /-- A registry answered something that does not fit the request. -/
  | consistency
  /-- Something that this library or its surroundings should guarantee did not hold. -/
  | system
  /-- A module, file, label or organization that was referred to does not exist. -/
  | notFound
  /-- The connection to the registry failed. -/
  | transport
  deriving DecidableEq, Repr

/-- The name of a kind of failure. -/
def ErrorKind.text : ErrorKind → String
  | .user => "user"
  | .consistency => "consistency"
  | .system => "system"
  | .notFound => "not found"
  | .transport => "transport"

end SchemaModules
