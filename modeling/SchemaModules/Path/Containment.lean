import SchemaModules.Path.Basic
import SchemaModules.SortedMap

/-!
# Containment of paths

Which directories a path lies in. The directories above a path are found by going up until there is
no way left (`Path.ancestors`), and containment is being one of them.
-/

namespace SchemaModules.Path

/-- Going up from a path that has segments leaves fewer of them. -/
theorem depth_parent (p : Path) : p.parent.depth = p.depth - 1 := by
  simp only [depth, parent, List.length_dropLast]
  split
  · next empty => simp [empty]
  · next nonempty =>
      have := List.length_pos_iff.mpr nonempty
      omega

/-- The directories above a path, from the nearest to the top. -/
def ancestors (p : Path) : List Path :=
  p.parent :: if p.depth ≤ 1 then [] else p.parent.ancestors
termination_by p.depth
decreasing_by rw [depth_parent]; omega

/-- Whether a path text equals another or names a directory above it. The top of the anchor is taken
to contain every path. -/
def equalsOrContains (value path : String) (anchor : Anchor) : Bool :=
  value = anchor.topText || value = path || value ∈ (parse path).ancestors.map text

/-- Whether a path text names a directory above another. A path does not contain itself. -/
def contains (directory path : String) (anchor : Anchor) : Bool :=
  directory ≠ path && equalsOrContains directory (dir path) anchor

/-- Those of a set of path texts that equal a path or contain it, in ascending order. -/
def allEqualOrContaining (set : List String) (path : String) (anchor : Anchor) : List String :=
  SortedMap.sortedSet (set.filter fun value => equalsOrContains value path anchor)

end SchemaModules.Path
