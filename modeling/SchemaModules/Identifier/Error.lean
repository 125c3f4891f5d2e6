import SchemaModules.Text.Quoted

/-!
# What can be wrong with an identifier
-/

namespace SchemaModules

/-- The three parts of a module's full name. -/
inductive NamePart where
  | registry
  | owner
  | name
  deriving DecidableEq, Repr

/-- What a part of a full name is called. -/
def NamePart.text : NamePart → String
  | .registry => "registry"
  | .owner => "owner"
  | .name => "name"

/-- Why a text is not a module's full name. -/
inductive NameFault where
  /-- The text has not three parts. -/
  | partCount
  | empty (part : NamePart)
  | invalidCharacter (part : NamePart)
  deriving DecidableEq, Repr

/-- What a fault of a full name is, in words. -/
def NameFault.text : NameFault → String
  | .partCount => "expected registry/owner/name"
  | .empty part => s!"{part.text} is empty"
  | .invalidCharacter part => s!"{part.text} contains an invalid character"

/-- Why a text is not a digest. -/
inductive DigestFault where
  | unknownType
  | notHex
  deriving DecidableEq, Repr

/-- What a fault of a digest is, in words. -/
def DigestFault.text : DigestFault → String
  | .unknownType => "unknown digest type"
  | .notHex => "expected 64 hex characters"

/-- What can be wrong with the text of an identifier. -/
inductive IdentifierError where
  | fullName (text : String) (fault : NameFault)
  | commitId (text : String)
  | digest (text : String) (fault : DigestFault)
  | labelName (text : String)
  | visibility (text : String)
  deriving DecidableEq, Repr

/-- The message of an identifier error. -/
def IdentifierError.message : IdentifierError → String
  | .fullName text fault => s!"invalid module full name {Text.quote text}: {fault.text}"
  | .commitId text => s!"invalid commit id {Text.quote text}"
  | .digest text fault => s!"invalid digest {Text.quote text}: {fault.text}"
  | .labelName text => s!"invalid label name {Text.quote text}"
  | .visibility text => s!"invalid module visibility {Text.quote text}"

end SchemaModules
