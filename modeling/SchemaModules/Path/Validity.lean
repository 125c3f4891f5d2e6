import SchemaModules.Path.Basic

/-!
# Valid path components and lists of paths
-/

namespace SchemaModules.Path

/-- The characters that a path component shows unescaped in a URL. -/
def isUnescaped (c : Char) : Bool :=
  c.isAlphanum || c ∈ ['-', '_', '.', '~', '$', '&', '+', ':', '=', '@']

/-- Whether two dots stand next to each other in a text. -/
def hasTwoDots : List Char → Bool
  | '.' :: '.' :: _ => true
  | _ :: rest => hasTwoDots rest
  | [] => false

/-- What keeps a text from being a single path component, if anything does. -/
def componentFault? (component : String) : Option ComponentFault :=
  let chars := component.toList
  if chars = [] then some .empty
  else if '/' ∈ chars then some .slash
  else if hasTwoDots chars then some .parent
  else if chars.all isUnescaped then none
  else some .escaped

/-- Check that a text can be a single path component. -/
def checkComponent (component : String) : Except PathError Unit :=
  match componentFault? component with
  | none => .ok ()
  | some fault => .error (.invalidComponent component fault)

/-- Check that every text of a list can be a single path component. -/
def checkComponents (components : List String) : Except PathError Unit :=
  components.forM checkComponent

/-- Check that paths are in normal form, stay inside their context directory and differ from each
other and from those seen before. -/
def checkDistinct (seen : List String) : List String → Except PathError Unit
  | [] => .ok ()
  | path :: rest => do
      if path = "" then throw .empty
      let normalized ← validate path
      if normalized ≠ path then throw (.notNormalized path normalized)
      if path ∈ seen then throw (.duplicate path)
      checkDistinct (path :: seen) rest

/-- Check that paths are in normal form, stay inside their context directory and are distinct. -/
def checkAll (paths : List String) : Except PathError Unit :=
  checkDistinct [] paths

end SchemaModules.Path
