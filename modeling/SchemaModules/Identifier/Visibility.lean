import SchemaModules.Identifier.Error

/-!
# Visibility of modules
-/

namespace SchemaModules

/-- Who can read a module on its registry: anyone, or the members of its owner. -/
inductive Visibility where
  | isPublic
  | isPrivate
  deriving DecidableEq, Repr

namespace Visibility

/-- The name of a visibility. -/
def text : Visibility → String
  | .isPublic => "public"
  | .isPrivate => "private"

/-- The visibility of a name. -/
def parse (s : String) : Except IdentifierError Visibility :=
  if s = "public" then .ok .isPublic
  else if s = "private" then .ok .isPrivate
  else .error (.visibility s)

/-- Reading the name of a visibility gives it back. -/
theorem parse_text (v : Visibility) : parse v.text = .ok v := by
  cases v <;> rfl

end Visibility

end SchemaModules
