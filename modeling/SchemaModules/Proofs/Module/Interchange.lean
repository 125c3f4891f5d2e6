import SchemaModules.Proofs.Bucket.Tree
import SchemaModules.Proofs.Module.Shown

/-! # A directory and its files in memory

Buckets that hold the same files answer alike, and so do the modules over them
(`Bucket.Holds.interchangeable`). A directory holds the files that names lead to, and a bucket in
memory with just these files holds them as well, so it makes no difference which of both a module
is read from (`FileTree.interchangeable_of_held`).
-/

namespace SchemaModules

/-- Two buckets answer alike, whatever is asked. Both can be listed, in ascending order, and have a
digest. Modules over them show the same files and have the same digest, or the same fault. -/
structure Bucket.Interchangeable (left right : Bucket) : Prop where
  paths : ∃ paths, left.paths = .ok paths ∧ right.paths = .ok paths ∧ paths.Pairwise (· < ·)
  contains : ∀ path, left.contains path = right.contains path
  read : ∀ path content, left.read path = .ok content ↔ right.read path = .ok content
  digest : ∃ digest, left.digest = .ok digest ∧ right.digest = .ok digest
  module_files : ∀ m : Module, ∃ files, { m with source := left }.files = .ok files ∧
    { m with source := right }.files = .ok files
  module_digest : ∀ m : Module, { m with source := left }.digest = { m with source := right }.digest

/-- Buckets that hold the same files are interchangeable. -/
theorem Bucket.Holds.interchangeable {left right : Bucket} {files : List (String × Bytes)}
    (first : left.Holds files) (second : right.Holds files) : left.Interchangeable right := by
  have contains : ∀ path, left.contains path = right.contains path := by
    intro path
    rw [Bool.eq_iff_iff, first.contains_iff_mem, second.contains_iff_mem]
  have documentation : Module.docPath? left = Module.docPath? right := by
    rw [Module.docPath?, Module.docPath?, funext contains]
  have shownLeft (m : Module) : { m with source := left }.bucket.Holds
      (files.filter fun file => Module.isShown (Module.docPath? left) file.1) := first.filter _
  have shownRight (m : Module) : { m with source := right }.bucket.Holds
      (files.filter fun file => Module.isShown (Module.docPath? left) file.1) := by
    rw [documentation]
    exact second.filter _
  refine ⟨⟨_, first.paths, second.paths, first.ascending⟩, contains, ?_,
    ⟨_, first.digest_eq, second.digest_eq⟩, fun m => ?_, fun m => ?_⟩
  · intro path content
    rw [first.read_iff_mem, second.read_iff_mem]
  · exact ⟨_, (shownLeft m).files_eq, (shownRight m).files_eq⟩
  · rw [Module.digest_of_bucket (shownLeft m).digest_eq,
      Module.digest_of_bucket (shownRight m).digest_eq]
    rfl

/-- A bucket in memory has the files of a tree: the same contents under the paths that lead to
them, and no others. -/
def MemoryBucket.HasFilesOf (b : MemoryBucket) (t : FileTree) : Prop :=
  ∀ path content, b.fileMap.find? path = some content ↔
    ∃ names, t.Leads names (.file content) ∧ FileTree.pathOf names = path

namespace FileTree

variable {limits : Limits} {rootSize : Nat} {entries : List (String × FileTree)}

theorem nodup_pathFiles (proper : AreProper entries) :
    ((directory entries).pathFiles.map Prod.fst).Nodup := by
  rw [map_fst_pathFiles proper]
  exact (paths_of_directory proper).1

/-- The files of a tree in memory are the entries of the bucket, in another order. -/
theorem entries_perm_of_hasFilesOf (proper : AreProper entries) {b : MemoryBucket}
    (same : b.HasFilesOf (.directory entries)) :
    b.fileMap.entries.Perm (directory entries).pathFiles := by
  refine (List.perm_ext_iff_of_nodup b.fileMap.nodup_entries
    (nodup_pathFiles proper).of_map).mpr fun file => ?_
  rw [← b.fileMap.find?_eq_some_iff file.1 file.2, same, ← mem_pathFiles_iff]

/-- The files of a tree can be put into memory. -/
theorem exists_hasFilesOf (proper : AreProper entries) :
    ∃ b, MemoryBucket.ofFiles (directory entries).pathFiles = .ok b ∧
      b.HasFilesOf (.directory entries) := by
  have valid : ∀ file ∈ (directory entries).pathFiles, Path.IsFile file.1 := by
    intro file member
    refine (paths_of_directory proper).2 file.1 ?_
    rw [← map_fst_pathFiles proper]
    exact List.mem_map_of_mem member
  obtain ⟨b, made, kept⟩ := MemoryBucket.insert_run (b := .empty) valid (nodup_pathFiles proper)
  refine ⟨b, made, fun path content => ?_⟩
  rw [b.fileMap.find?_eq_some_iff, kept.mem_iff, ← mem_pathFiles_iff]
  rfl

/-- Without bounds a tree can be held if its names can. -/
theorem isHeld_unbounded {t : FileTree} (proper : t.IsProper)
    (names : ∀ names part, t.Leads names part → ∀ name ∈ names, '\x00' ∉ name.toList) :
    t.IsHeld .unbounded rootSize :=
  ⟨proper, fun all part leads name member => ⟨names all part leads name member, rfl⟩,
    fun _ _ _ _ => rfl⟩

/-- In whatever order a system lists the entries of directories, the directory at the top of a tree
and a bucket in memory with the files of the tree are interchangeable, and there is such a bucket.
Directories without files make no difference. -/
theorem interchangeable_of_held (held : (directory entries).IsHeld limits rootSize)
    (rootPath : String) :
    (∃ b, MemoryBucket.ofFiles (directory entries).pathFiles = .ok b ∧
      b.HasFilesOf (.directory entries)) ∧
    ∀ b : MemoryBucket, b.HasFilesOf (.directory entries) →
      (bucketUnder limits rootPath rootSize (some (.directory entries))).Interchangeable
        b.toBucket := by
  refine ⟨exists_hasFilesOf held.proper, fun b same => ?_⟩
  have perm := entries_perm_of_hasFilesOf held.proper same
  have holds := holds_of_perm held rootPath b.fileMap.keys_ascending perm
  refine holds.interchangeable (MemoryBucket.holds fun path member => ?_)
  obtain ⟨file, among, rfl⟩ := List.mem_map.mp member
  exact holds.normal file among

/-- A directory with one that is empty and one with two files. -/
def twoLevels : List (String × FileTree) :=
  [("docs", .directory []), ("a", .directory [("b.proto", .file [1]), ("notes.txt", .file [])]),
    ("README.md", .file [2])]

theorem leads_twoLevels {names : List String} {part : FileTree}
    (leads : (directory twoLevels).Leads names part) :
    names ∈ [[], ["docs"], ["a"], ["a", "b.proto"], ["a", "notes.txt"], ["README.md"]] := by
  cases leads with
  | here => decide
  | down entry further =>
      simp only [twoLevels, List.mem_cons, Prod.mk.injEq, List.not_mem_nil, or_false] at entry
      rcases entry with ⟨rfl, rfl⟩ | ⟨rfl, rfl⟩ | ⟨rfl, rfl⟩
      · cases further with
        | here => decide
        | down entry _ => exact absurd entry List.not_mem_nil
      · cases further with
        | here => decide
        | down entry last =>
            simp only [List.mem_cons, Prod.mk.injEq, List.not_mem_nil, or_false] at entry
            rcases entry with ⟨rfl, rfl⟩ | ⟨rfl, rfl⟩ <;> cases last <;> decide
      · cases further
        decide

theorem interchangeable_of_two_levels :
    (directory twoLevels).IsHeld .usual 15 ∧ (directory twoLevels).IsHeld .unbounded 15 ∧
      ∃ b, MemoryBucket.ofFiles (directory twoLevels).pathFiles = .ok b ∧
        b.HasFilesOf (.directory twoLevels) ∧
        (toBucket "<root>" 15 (some (.directory twoLevels))).Interchangeable b.toBucket ∧
        (bucketUnder .unbounded "<root>" 15 (some (.directory twoLevels))).Interchangeable
          b.toBucket := by
  have proper : (directory twoLevels).IsProper := by
    simp only [IsProper, AreProper, twoLevels]
    decide
  have admitted : ∀ names part, (directory twoLevels).Leads names part →
      (∀ name ∈ names, '\x00' ∉ name.toList ∧ Limits.usual.admitsName name = true) ∧
        (names ≠ [] → Limits.usual.admitsPath 15 (pathOf names) = true) := by
    intro names part leads
    have among := leads_twoLevels leads
    clear leads
    revert names
    decide
  have usual : (directory twoLevels).IsHeld .usual 15 :=
    ⟨proper, fun names part leads => (admitted names part leads).1,
      fun names part leads => (admitted names part leads).2⟩
  have unbounded : (directory twoLevels).IsHeld .unbounded 15 :=
    isHeld_unbounded proper fun names part leads name member =>
      ((admitted names part leads).1 name member).1
  obtain ⟨⟨b, made, same⟩, alike⟩ := interchangeable_of_held usual "<root>"
  exact ⟨usual, unbounded, b, made, same, alike b same,
    (interchangeable_of_held unbounded "<root>").2 b same⟩

end FileTree

end SchemaModules
