import SchemaModules.Path.Basic
import SchemaModules.SortedMap

/-!
# Groups of paths

Paths grouped by their directory, and the groups packed into chunks of about equal size without
parting a directory.
-/

namespace SchemaModules.Path

/-- Paths in normal form under the directory they lie in, each group in ascending order. -/
def groupByDir (paths : List String) : SortedMap String (List String) :=
  let groups := paths.foldl (fun groups path =>
    let path := normalize path
    groups.insert (dir path) ((groups.find? (dir path)).getD [] ++ [path])) SortedMap.empty
  groups.mapValues fun _ group => group.mergeSort (· ≤ ·)

/-- Fill a chunk up to its target size with whole groups, and give the groups that are left. -/
def fill (target : Nat) (chunk : List String) :
    List (List String) → List String × List (List String)
  | [] => (chunk, [])
  | group :: rest =>
      if chunk.length < target then fill target (chunk ++ group) rest
      else (chunk, group :: rest)

/-- Filling a chunk leaves no more groups than there were. -/
theorem length_fill_le (target : Nat) (chunk : List String) (groups : List (List String)) :
    (fill target chunk groups).2.length ≤ groups.length := by
  fun_induction fill target chunk groups with
  | case1 => exact Nat.le_refl _
  | case2 chunk group rest _ ih => exact Nat.le_succ_of_le ih
  | case3 => exact Nat.le_refl _

/-- Chunks that each start with the first group left and are filled up with groups from the end. -/
def pack (target : Nat) : List (List String) → List (List String)
  | [] => []
  | group :: rest =>
      let filled := fill target group rest.reverse
      filled.1 :: pack target filled.2.reverse
termination_by groups => groups.length
decreasing_by
  have := length_fill_le target group rest.reverse
  simp only [List.unattach_reverse, List.unattach_attach, List.length_reverse,
    List.length_cons] at this ⊢
  omega

/-- Paths in chunks of about the target size, those of a directory always in one chunk. The largest
directories come first, the smallest fill up. Without a positive target size there is one chunk. -/
def chunkByDir (paths : List String) (target : Int) : List (List String) :=
  if paths = [] then []
  else if target ≤ 0 then [paths]
  else
    let groups := (groupByDir paths).entries.map Prod.snd
    pack target.toNat (groups.mergeSort fun a b => b.length ≤ a.length)

end SchemaModules.Path
