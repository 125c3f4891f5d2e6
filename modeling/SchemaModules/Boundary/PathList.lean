import SchemaModules.Boundary.Error
import SchemaModules.Path.Containment

/-!
# Lists of paths in a boundary

The roots, the includes and the excludes of a module are lists of paths none of which lies within
another. `checkApart` finds the first pair that does, and `normalizeList` brings a list as a user
wrote it into ascending order.
-/

namespace SchemaModules.Boundary

/-- Whether one path lies within another or equals it, and if so which (the inner first). -/
def overlap? (a b : String) : Option (String × String) :=
  if Path.equalsOrContains a b .relative then some (b, a)
  else if Path.equalsOrContains b a .relative then some (a, b)
  else none

/-- Check that no path of a list lies within another, the earliest pair being reported. -/
def checkApart (name : String) : List String → Except PlacementError Unit
  | [] => .ok ()
  | a :: rest =>
      match rest.findSome? (overlap? a) with
      | some (inner, outer) => .error (.overlap name inner outer)
      | none => checkApart name rest

/-- Check that every path of a list lies strictly within a root. -/
def checkWithin (root name : String) (paths : List String) : Except PlacementError Unit :=
  match paths.find? fun path => !Path.contains root path .relative with
  | some path => .error (.outsideRoot name path root)
  | none => .ok ()

/-- The first path of a list that occurs in it again. -/
def firstDuplicate? : List String → Option String
  | [] => none
  | a :: rest => if a ∈ rest then some a else firstDuplicate? rest

/-- The normal form of one path of a list, which must not be empty. -/
def normalizeEntry (name path : String) : Except BoundaryError String :=
  if path = "" then .error (.emptyPath name) else (Path.validate path).mapError .path

/-- The normal forms of the paths of a list in ascending order. They must be distinct and none of
them may lie within another. -/
def normalizeList (name : String) (paths : List String) : Except BoundaryError (List String) := do
  let normalized ← paths.mapM (normalizeEntry name)
  let sorted := normalized.mergeSort (· ≤ ·)
  if let some path := firstDuplicate? sorted then throw (.duplicate name path)
  (checkApart name sorted).mapError .placement
  return sorted

end SchemaModules.Boundary
