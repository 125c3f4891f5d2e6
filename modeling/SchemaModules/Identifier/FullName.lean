import SchemaModules.Identifier.Error
import SchemaModules.SortedMap
import SchemaModules.Text.CharClass
import SchemaModules.Text.Split

/-!
# Full names of modules

A module's full name says on which registry it lives, who owns it there and what it is called.
`FullName.parse_text` says that its text determines it.
-/

namespace SchemaModules

/-- A part of a full name is not empty and holds neither a slash nor a blank character. -/
def IsNamePart (s : String) : Prop :=
  s ≠ "" ∧ ∀ c ∈ s.toList, c ≠ '/' ∧ Text.isBlank c = false

instance (s : String) : Decidable (IsNamePart s) :=
  -- Decided along the text: there is an instance that goes through all characters there are.
  have : Decidable (∀ c ∈ s.toList, c ≠ '/' ∧ Text.isBlank c = false) := List.decidableBAll _ _
  inferInstanceAs (Decidable (_ ∧ _))

/-- The name that identifies a module everywhere. -/
structure FullName where
  registry : String
  owner : String
  name : String
  registry_valid : IsNamePart registry
  owner_valid : IsNamePart owner
  name_valid : IsNamePart name
  deriving DecidableEq

namespace FullName

/-- The text of three name parts. -/
def textOf (registry owner name : String) : String :=
  registry ++ "/" ++ owner ++ "/" ++ name

/-- A full name as text. -/
def text (n : FullName) : String := textOf n.registry n.owner n.name

/-- What keeps a text from being a part of a full name. -/
def partFault (part : NamePart) (s : String) : NameFault :=
  if s = "" then .empty part else .invalidCharacter part

/-- The full name of three parts, the first invalid one being reported. -/
def ofParts (registry owner name : String) : Except IdentifierError FullName :=
  let fail (fault : NameFault) := .error (.fullName (textOf registry owner name) fault)
  if validRegistry : IsNamePart registry then
    if validOwner : IsNamePart owner then
      if validName : IsNamePart name then
        .ok ⟨registry, owner, name, validRegistry, validOwner, validName⟩
      else fail (partFault .name name)
    else fail (partFault .owner owner)
  else fail (partFault .registry registry)

/-- The full name that a text spells out. -/
def parse (s : String) : Except IdentifierError FullName :=
  match (Text.split '/' s.toList).map String.ofList with
  | [registry, owner, name] => ofParts registry owner name
  | _ => .error (.fullName s .partCount)

/-- Full names are ordered by registry, then owner, then name. -/
instance : Key FullName where
  texts n := [n.registry, n.owner, n.name]
  texts_injective a b h := by
    cases a
    cases b
    simpa using h

/-- Whether a full name comes before another or is the same. -/
def le (a b : FullName) : Bool := !decide (Key.Before b a)

/-- The parts of a full name make it up. -/
theorem ofParts_eq (n : FullName) : ofParts n.registry n.owner n.name = .ok n := by
  simp [ofParts, n.registry_valid, n.owner_valid, n.name_valid]

/-- The text of a full name has exactly its three parts. -/
theorem split_text (n : FullName) :
    Text.split '/' n.text.toList = [n.registry.toList, n.owner.toList, n.name.toList] := by
  have free : ∀ {s : String}, IsNamePart s → '/' ∉ s.toList := fun valid member =>
    (valid.2 '/' member).1 rfl
  have chars : n.text.toList
      = Text.joined '/' [n.registry.toList, n.owner.toList, n.name.toList] := by
    simp [text, textOf, Text.joined, String.toList_append]
  rw [chars]
  apply Text.split_joined _ (by simp)
  simp [free n.registry_valid, free n.owner_valid, free n.name_valid]

/-- Reading the text of a full name gives it back. -/
theorem parse_text (n : FullName) : parse n.text = .ok n := by
  simp [parse, split_text, ofParts_eq]

end FullName

end SchemaModules
