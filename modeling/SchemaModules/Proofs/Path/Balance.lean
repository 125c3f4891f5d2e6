import Mathlib.Data.List.Induction
import SchemaModules.Proofs.Path.Chunk

/-! # Balanced chunks

The group of a directory is the sorted list of the paths that lie in it (`find?_groupByDir`), whatever
order they are given in (`groupByDir_perm`). Groups being packed as a whole, a directory is in one
chunk, and the sizes of chunks are balanced as packing balances them (`chunkByDir_spec`).
-/

namespace SchemaModules.Path

open scoped List

/-! ## The group of a directory -/

/-- The paths that lie in a directory, in normal form. -/
def inDirectory (paths : List String) (directory : String) : List String :=
  (paths.map normalize).filter (dir · = directory)

theorem find?_foldl_gather (paths : List String) (directory : String) :
    (paths.foldl gather SortedMap.empty).find? directory =
      if inDirectory paths directory = [] then none else some (inDirectory paths directory) := by
  induction paths using List.reverseRecOn with
  | nil => rfl
  | append_singleton paths path ih =>
      have more : inDirectory (paths ++ [path]) directory = inDirectory paths directory ++
          if dir (normalize path) = directory then [normalize path] else [] := by
        simp [inDirectory, List.filter_cons]
      rw [List.foldl_append, List.foldl_cons, List.foldl_nil, gather, SortedMap.find?_insert, more]
      by_cases here : directory = dir (normalize path)
      · subst here
        rw [if_pos rfl, if_pos rfl, if_neg (by simp), ih]
        by_cases first : inDirectory paths (dir (normalize path)) = []
        · simp [first]
        · simp [first]
      · rw [if_neg here, if_neg (Ne.symm here), List.append_nil, ih]

/-- A directory has a group if some path lies in it: those paths in ascending order. -/
theorem find?_groupByDir (paths : List String) (directory : String) :
    (groupByDir paths).find? directory =
      if inDirectory paths directory = [] then none
      else some ((inDirectory paths directory).mergeSort (· ≤ ·)) := by
  rw [groupByDir_eq, SortedMap.find?_mapValues, find?_foldl_gather]
  split
  · rfl
  · rfl

/-- The groups do not depend on the order of the paths. -/
theorem groupByDir_perm {paths others : List String} (perm : paths ~ others) :
    groupByDir paths = groupByDir others := by
  refine SortedMap.eq_of_find?_eq fun directory => ?_
  have same : inDirectory paths directory ~ inDirectory others directory :=
    (perm.map normalize).filter _
  have empty : inDirectory paths directory = [] ↔ inDirectory others directory = [] := by
    rw [← List.length_eq_zero_iff, same.length_eq, List.length_eq_zero_iff]
  simp only [find?_groupByDir, Text.mergeSort_eq_of_perm same, empty]

/-- Chunks of a positive size do not depend on the order of the paths. -/
theorem chunkByDir_perm {paths others : List String} (perm : paths ~ others) {target : Int}
    (positive : 0 < target) : chunkByDir paths target = chunkByDir others target := by
  rw [chunkByDir_eq paths positive, chunkByDir_eq others positive, sizedGroups, sizedGroups,
    groupByDir_perm perm]

/-! ## Directories and chunks -/

/-- The paths of a group lie in one directory. -/
structure IsGroup (group : List String) : Prop where
  nonempty : group ≠ []
  together : ∃ directory, ∀ path ∈ group, dir path = directory

/-- No directory has paths of both lists. -/
def Separate (a b : List String) : Prop := ∀ p ∈ a, ∀ q ∈ b, dir p ≠ dir q

theorem Separate.symm {a b : List String} (separate : Separate a b) : Separate b a :=
  fun p first q second same => separate q second p first same.symm

theorem dir_of_mem_entries {paths group : List String} {directory : String}
    (entry : (directory, group) ∈ (groupByDir paths).entries) :
    group ≠ [] ∧ ∀ path ∈ group, dir path = directory := by
  rw [← SortedMap.find?_eq_some_iff, find?_groupByDir] at entry
  by_cases none : inDirectory paths directory = []
  · rw [if_pos none] at entry
    exact nomatch entry
  · rw [if_neg none] at entry
    obtain rfl := Option.some.inj entry
    constructor
    · intro empty
      exact none (by simpa using congrArg List.length empty)
    · intro path member
      have found := (List.mem_filter.mp (List.mem_mergeSort.mp member)).2
      exact of_decide_eq_true found

theorem isGroup_of_mem_sizedGroups {paths group : List String} (member : group ∈ sizedGroups paths) :
    IsGroup group := by
  obtain ⟨entry, there, rfl⟩ := List.mem_map.mp ((sizedGroups_perm paths).mem_iff.mp member)
  obtain ⟨nonempty, together⟩ := dir_of_mem_entries there
  exact ⟨nonempty, entry.1, together⟩

theorem separate_sizedGroups (paths : List String) : (sizedGroups paths).Pairwise Separate := by
  refine ((sizedGroups_perm paths).pairwise_iff fun separate => separate.symm).mpr ?_
  refine List.pairwise_map.mpr ((groupByDir paths).ascending.imp_of_mem ?_)
  intro a b first second before p left q right same
  rw [(dir_of_mem_entries first).2 p left, (dir_of_mem_entries second).2 q right] at same
  exact before.ne same

/-- Chunks of paths are balanced: they hold the paths and nothing else, none of them is empty and no
two share a directory, all but the last reach the target size, and one with paths of several
directories stays below twice that size. -/
structure IsBalanced (target : Int) (paths : List String) (chunks : List (List String)) : Prop where
  perm : chunks.flatten ~ paths
  nonempty : ∀ chunk ∈ chunks, chunk ≠ []
  separate : chunks.Pairwise Separate
  reached : ∀ chunk ∈ chunks.dropLast, target ≤ chunk.length
  bounded : ∀ chunk ∈ chunks, (∃ p ∈ chunk, ∃ q ∈ chunk, dir p ≠ dir q) →
    chunk.length ≤ 2 * target - 2

theorem flatten_ne_nil {part : List (List String)} (some : part ≠ [])
    (groups : ∀ group ∈ part, IsGroup group) : part.flatten ≠ [] := by
  intro empty
  obtain ⟨group, member⟩ := List.exists_mem_of_ne_nil part some
  exact (groups group member).nonempty (List.flatten_eq_nil_iff.mp empty group member)

/-- Paths of several directories are of several groups. -/
theorem one_lt_length_of_dir_ne {part : List (List String)} (groups : ∀ group ∈ part, IsGroup group)
    {p q : String} (first : p ∈ part.flatten) (second : q ∈ part.flatten) (ne : dir p ≠ dir q) :
    1 < part.length := by
  obtain ⟨a, inPart, left⟩ := List.mem_flatten.mp first
  obtain ⟨b, inPartToo, right⟩ := List.mem_flatten.mp second
  by_contra few
  obtain ⟨group, alone⟩ : ∃ group, part = [group] := by
    apply List.length_eq_one_iff.mp
    have some := List.length_pos_of_mem inPart
    omega
  subst alone
  obtain rfl := List.mem_singleton.mp inPart
  obtain rfl := List.mem_singleton.mp inPartToo
  obtain ⟨directory, together⟩ := (groups _ inPart).together
  exact ne ((together p left).trans (together q right).symm)

/-- Parts of groups that are separate are separate. -/
theorem separate_flatten {parts : List (List (List String))}
    (separate : parts.flatten.Pairwise Separate) :
    (parts.map List.flatten).Pairwise Separate := by
  refine List.pairwise_map.mpr ((List.pairwise_flatten.mp separate).2.imp ?_)
  intro a b apart p first q second
  obtain ⟨group, inFirst, left⟩ := List.mem_flatten.mp first
  obtain ⟨other, inSecond, right⟩ := List.mem_flatten.mp second
  exact apart group inFirst other inSecond p left q right

theorem isBalanced_chunkByDir (paths : List String) {target : Int} (positive : 0 < target) :
    IsBalanced target (paths.map normalize) (chunkByDir paths target) := by
  have perm := flatten_chunkByDir_perm paths positive
  obtain ⟨parts, packs, chunks⟩ := exists_parts paths positive
  have isGroup : ∀ part ∈ parts, ∀ group ∈ part, IsGroup group := fun part there group member =>
    isGroup_of_mem_sizedGroups (packs.perm.mem_iff.mp (List.mem_flatten_of_mem there member))
  rw [chunks] at perm ⊢
  refine ⟨perm, ?_, ?_, ?_, ?_⟩
  · refine List.forall_mem_map.mpr fun part member => ?_
    exact flatten_ne_nil (packs.nonempty part member) (isGroup part member)
  · refine separate_flatten ((packs.perm.pairwise_iff fun separate => separate.symm).mpr ?_)
    exact separate_sizedGroups paths
  · rw [← List.map_dropLast]
    refine List.forall_mem_map.mpr fun part member => ?_
    have reached := packs.reached part member
    omega
  · refine List.forall_mem_map.mpr fun part member => ?_
    rintro ⟨p, first, q, second, ne⟩
    have bounded := packs.bounded part member
      (one_lt_length_of_dir_ne (isGroup part member) first second ne)
    omega

/-- Chunks of a positive size are balanced, whatever order the paths are given in. Without a positive
size the paths make up one chunk as they are. -/
theorem chunkByDir_spec (paths : List String) (target : Int) :
    (0 < target → IsBalanced target (paths.map normalize) (chunkByDir paths target) ∧
      ∀ others, others.Perm paths → chunkByDir others target = chunkByDir paths target) ∧
    (target ≤ 0 → paths ≠ [] → chunkByDir paths target = [paths]) := by
  refine ⟨fun positive => ⟨isBalanced_chunkByDir paths positive, ?_⟩, ?_⟩
  · exact fun others perm => chunkByDir_perm perm positive
  · intro none some
    rw [chunkByDir, if_neg some, if_pos none]

/-- The largest directory starts a chunk and smaller ones fill the next up. A path that is given twice
is there twice. -/
theorem chunkByDir_spec_of_three_directories :
    IsBalanced 3 ["b/1", "a/1", "c/1", "a/1", "a/2"] [["a/1", "a/1", "a/2"], ["b/1", "c/1"]] ∧
      chunkByDir ["a/2", "c/1", "a/1", "b//1", "./a/1"] 3 = [["a/1", "a/1", "a/2"], ["b/1", "c/1"]] ∧
      chunkByDir ["b//1"] 0 = [["b//1"]] := by
  let paths := ["b//1", "./a/1", "c/1", "a/1", "a/2"]
  have gathered : (paths.foldl gather SortedMap.empty).entries =
      [("a", ["a/1", "a/1", "a/2"]), ("b", ["b/1"]), ("c", ["c/1"])] := by decide
  have ascending : ["a/1", "a/1", "a/2"].mergeSort (· ≤ ·) = ["a/1", "a/1", "a/2"] :=
    List.mergeSort_of_pairwise (by decide)
  have descending : sizedGroups paths = [["a/1", "a/1", "a/2"], ["b/1"], ["c/1"]] := by
    simp only [sizedGroups, groupByDir_eq, SortedMap.mapValues, gathered, List.map_cons,
      List.map_nil, ascending, List.mergeSort_singleton]
    exact List.mergeSort_of_pairwise (by decide)
  have chunks : chunkByDir paths 3 = [["a/1", "a/1", "a/2"], ["b/1", "c/1"]] := by
    simp [chunkByDir_eq, descending, pack, fill]
  have normal : paths.map normalize = ["b/1", "a/1", "c/1", "a/1", "a/2"] := by decide
  obtain ⟨isBalanced, reordered⟩ := (chunkByDir_spec paths 3).1 (by decide)
  rw [chunks, normal] at isBalanced
  refine ⟨isBalanced, ?_, (chunkByDir_spec ["b//1"] 0).2 (by decide) (by decide)⟩
  rw [reordered _ (by decide), chunks]

end SchemaModules.Path
