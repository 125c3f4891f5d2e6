import SchemaModules.Identifier.Error
import SchemaModules.Text.CharClass

/-!
# Names of labels
-/

namespace SchemaModules

/-- A label name is not empty and holds no blank and no control character. -/
def IsLabelName (s : String) : Prop :=
  s ≠ "" ∧ ∀ c ∈ s.toList, Text.isBlank c = false ∧ Text.isControl c = false

instance (s : String) : Decidable (IsLabelName s) :=
  have : Decidable (∀ c ∈ s.toList, Text.isBlank c = false ∧ Text.isControl c = false) :=
    List.decidableBAll _ _
  inferInstanceAs (Decidable (_ ∧ _))

/-- Check that a text can name a label. -/
def checkLabelName (s : String) : Except IdentifierError Unit :=
  if IsLabelName s then .ok () else .error (.labelName s)

end SchemaModules
