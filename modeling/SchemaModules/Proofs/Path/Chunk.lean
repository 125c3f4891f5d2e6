import SchemaModules.Path.Lemmas
import SchemaModules.Proofs.Path.Packing
import SchemaModules.Proofs.SortedMap

/-! # Chunks part a list of paths

The chunks of paths are their groups by directory, from the largest to the smallest, packed together
(`exists_parts`). Neither grouping nor packing loses a path or repeats one: the chunks together are
the normal forms of the paths in another order (`flatten_chunkByDir_perm`).
-/

namespace SchemaModules.Path

open scoped List

/-- The paths of all groups. -/
def grouped (groups : SortedMap String (List String)) : List String :=
  groups.entries.flatMap Prod.snd

theorem grouped_perm (groups : SortedMap String (List String)) (k : String) :
    (grouped groups).Perm ((groups.find? k).getD [] ++ grouped (groups.erase k)) := by
  cases found : groups.find? k with
  | some group => exact (groups.entries_perm found).flatMap_right Prod.snd
  | none =>
      unfold grouped
      rw [groups.erase_of_find?_eq_none found]
      exact List.Perm.refl _

/-- A path put at the end of its group is one more path of all groups. -/
theorem grouped_insert_perm (groups : SortedMap String (List String)) (k path : String) :
    (grouped (groups.insert k ((groups.find? k).getD [] ++ [path]))).Perm
      (grouped groups ++ [path]) := by
  have inserted : (grouped (groups.insert k ((groups.find? k).getD [] ++ [path]))).Perm
      (((groups.find? k).getD [] ++ [path]) ++ grouped (groups.erase k)) :=
    (groups.entries_insert_perm k _).flatMap_right Prod.snd
  calc grouped (groups.insert k ((groups.find? k).getD [] ++ [path]))
    _ ~ ((groups.find? k).getD [] ++ [path]) ++ grouped (groups.erase k) := inserted
    _ = (groups.find? k).getD [] ++ ([path] ++ grouped (groups.erase k)) := List.append_assoc ..
    _ ~ (groups.find? k).getD [] ++ (grouped (groups.erase k) ++ [path]) :=
      List.perm_append_comm.append_left _
    _ = ((groups.find? k).getD [] ++ grouped (groups.erase k)) ++ [path] :=
      (List.append_assoc ..).symm
    _ ~ grouped groups ++ [path] := (grouped_perm groups k).symm.append_right _

/-- A path in normal form put in the group of its directory. -/
def gather (groups : SortedMap String (List String)) (path : String) :
    SortedMap String (List String) :=
  groups.insert (dir (normalize path))
    ((groups.find? (dir (normalize path))).getD [] ++ [normalize path])

theorem groupByDir_eq (paths : List String) :
    groupByDir paths = (paths.foldl gather SortedMap.empty).mapValues fun _ group =>
      group.mergeSort (· ≤ ·) := rfl

theorem grouped_gather_perm (paths : List String) (groups : SortedMap String (List String)) :
    (grouped (paths.foldl gather groups)).Perm (grouped groups ++ paths.map normalize) := by
  induction paths generalizing groups with
  | nil => simp
  | cons path rest ih =>
      refine (ih _).trans (((grouped_insert_perm groups _ _).append_right _).trans ?_)
      simp

theorem flatten_groupByDir_perm (paths : List String) :
    ((groupByDir paths).entries.map Prod.snd).flatten.Perm (paths.map normalize) := by
  have sorted : ∀ groups : SortedMap String (List String),
      ((groups.mapValues fun _ group => group.mergeSort (· ≤ ·)).entries.map Prod.snd).flatten.Perm
        (grouped groups) := by
    intro groups
    simp only [SortedMap.mapValues, List.map_map, grouped, ← List.flatMap_def]
    exact List.Perm.flatMap_left _ fun e _ => List.mergeSort_perm _ _
  rw [groupByDir_eq]
  exact (sorted _).trans (grouped_gather_perm paths SortedMap.empty)

/-! ## Packing the groups -/

/-- The groups of paths by directory, from the largest to the smallest. -/
def sizedGroups (paths : List String) : List (List String) :=
  ((groupByDir paths).entries.map Prod.snd).mergeSort fun a b => b.length ≤ a.length

theorem sizedGroups_perm (paths : List String) :
    sizedGroups paths ~ (groupByDir paths).entries.map Prod.snd :=
  List.mergeSort_perm _ _

theorem descending_sizedGroups (paths : List String) :
    (sizedGroups paths).Pairwise fun a b => b.length ≤ a.length := by
  have sorted := @List.pairwise_mergeSort (List String) (fun a b => b.length ≤ a.length)
    (fun a b c => by simpa using fun first second => Nat.le_trans second first)
    (fun a b => by simpa using Nat.le_total _ _) ((groupByDir paths).entries.map Prod.snd)
  exact sorted.imp of_decide_eq_true

theorem chunkByDir_eq (paths : List String) {target : Int} (positive : 0 < target) :
    chunkByDir paths target = pack target.toNat (sizedGroups paths) := by
  unfold chunkByDir sizedGroups
  by_cases none : paths = []
  · subst none
    simp [groupByDir, SortedMap.mapValues, SortedMap.empty, pack]
  · rw [if_neg none, if_neg (by omega)]

/-- The chunks are the groups of paths by directory packed together. -/
theorem exists_parts (paths : List String) {target : Int} (positive : 0 < target) :
    ∃ parts, Packs target.toNat (sizedGroups paths) parts ∧
      chunkByDir paths target = parts.map List.flatten := by
  rw [chunkByDir_eq paths positive]
  exact exists_packs target.toNat (descending_sizedGroups paths)

/-- The chunks together are the paths in normal form, in another order. -/
theorem flatten_chunkByDir_perm (paths : List String) {target : Int} (positive : 0 < target) :
    (chunkByDir paths target).flatten.Perm (paths.map normalize) := by
  obtain ⟨parts, packs, chunks⟩ := exists_parts paths positive
  calc (chunkByDir paths target).flatten
    _ = parts.flatten.flatten := by rw [chunks, List.flatten_flatten]
    _ ~ (sizedGroups paths).flatten := packs.perm.flatten
    _ ~ ((groupByDir paths).entries.map Prod.snd).flatten := (sizedGroups_perm paths).flatten
    _ ~ paths.map normalize := flatten_groupByDir_perm paths

end SchemaModules.Path
