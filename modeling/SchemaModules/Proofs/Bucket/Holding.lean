import SchemaModules.Bucket.Filter
import SchemaModules.Proofs.Bucket.FileMap

/-! # Buckets that hold files

All that a bucket answers may come from one list of files: what it lists, what it finds, and what it
reads (`AnswersBy`, `Holds`). Files in memory are such a list, a filter takes some files out of it,
and the digest is that of the files.
-/

namespace SchemaModules

namespace Bucket

/-- Asked for paths in normal form, a bucket answers by files in ascending order of their paths: it
lists these paths, finds them and no others, and reads the contents of the files. -/
structure AnswersBy (b : Bucket) (files : List (String × Bytes)) : Prop where
  ascending : (files.map Prod.fst).Pairwise (· < ·)
  normal : ∀ file ∈ files, Path.normalize file.1 = file.1
  paths : b.paths = .ok (files.map Prod.fst)
  contains_iff : ∀ path, Path.normalize path = path →
    (b.contains path = true ↔ path ∈ files.map Prod.fst)
  read_iff : ∀ path content, Path.normalize path = path →
    (b.read path = .ok content ↔ (path, content) ∈ files)

/-- A bucket holds files if it answers by them, in whatever way a path is written. -/
structure Holds (b : Bucket) (files : List (String × Bytes)) : Prop extends AnswersBy b files where
  contains_normalize : ∀ path, b.contains (Path.normalize path) = b.contains path
  read_normalize : ∀ path content,
    b.read (Path.normalize path) = .ok content ↔ b.read path = .ok content

variable {b : Bucket} {files : List (String × Bytes)}

theorem AnswersBy.nodup (answers : b.AnswersBy files) : (files.map Prod.fst).Nodup := by
  refine answers.ascending.imp ?_
  rintro path _ before rfl
  exact String.lt_irrefl path before

theorem AnswersBy.reads (answers : b.AnswersBy files) :
    ∀ file ∈ files, b.read file.1 = .ok file.2 :=
  fun file member => (answers.read_iff file.1 file.2 (answers.normal file member)).mpr member

/-- The files of a bucket are those that it answers by. -/
theorem AnswersBy.files_eq (answers : b.AnswersBy files) : b.files = .ok files := by
  refine Outcome.bind_eq_ok_iff.mpr ⟨_, answers.paths, ?_⟩
  rw [Outcome.mapM_eq_ok_iff, List.forall₂_map_left_iff, List.forall₂_same]
  intro file member
  rw [answers.reads file member]
  rfl

/-- The digest of a bucket is that of the files that it answers by. -/
theorem AnswersBy.digest_eq (answers : b.AnswersBy files) :
    b.digest = .ok (Digest.ofFiles files) := by
  have normal : ∀ path ∈ files.map Prod.fst, Path.normalize path = path :=
    List.forall_mem_map.mpr answers.normal
  have digests := digestsFiles answers.paths answers.nodup normal
  exact digests.in_any_order files (List.Perm.refl _) answers.reads

theorem Holds.contains_iff_mem (holds : b.Holds files) (path : String) :
    b.contains path = true ↔ Path.normalize path ∈ files.map Prod.fst := by
  rw [← holds.contains_normalize]
  exact holds.contains_iff _ (Path.normalize_normalize path)

theorem Holds.read_iff_mem (holds : b.Holds files) (path : String) (content : Bytes) :
    b.read path = .ok content ↔ (Path.normalize path, content) ∈ files := by
  rw [← holds.read_normalize]
  exact holds.read_iff _ content (Path.normalize_normalize path)

theorem map_fst_filter (visible : String → Bool) :
    (files.filter fun file => visible file.1).map Prod.fst =
      (files.map Prod.fst).filter visible := by
  rw [List.filter_map]
  rfl

/-- Behind a filter there are the files that it lets through. Whatever way a path is written, the
filter goes by its normal form. -/
theorem AnswersBy.filter (answers : b.AnswersBy files) (visible : String → Bool) :
    (b.filter visible).Holds (files.filter fun file => visible file.1) where
  ascending := map_fst_filter visible ▸ answers.ascending.filter visible
  normal file member := answers.normal file (List.mem_filter.mp member).1
  paths := by
    rw [map_fst_filter, Bucket.filter, answers.paths]
    rfl
  contains_iff path normal := by
    have below := answers.contains_iff path normal
    simp only [Bucket.filter, normal, Bool.and_eq_true, below, map_fst_filter, List.mem_filter]
    exact and_comm
  read_iff path content normal := by
    have below := answers.read_iff path content normal
    simp only [Bucket.filter, normal, List.mem_filter, ← below]
    by_cases seen : visible path = true
    · simp [seen]
    · simp [seen]
  contains_normalize path := by
    simp only [Bucket.filter, Path.normalize_normalize]
  read_normalize path content := by
    simp only [Bucket.filter, Path.normalize_normalize]
    by_cases seen : visible (Path.normalize path) = true
    · simp [seen]
    · simp [seen]

end Bucket

/-- A bucket in memory holds its entries if these are kept under paths in normal form. -/
theorem MemoryBucket.holds {b : MemoryBucket}
    (normal : ∀ path ∈ b.fileMap.keys, Path.normalize path = path) :
    b.toBucket.Holds b.fileMap.entries where
  ascending := b.fileMap.keys_ascending
  normal file member := normal file.1 (List.mem_map_of_mem member)
  paths := rfl
  contains_iff path here := by rw [b.contains_iff, here, SortedMap.keys]
  read_iff path content here := by rw [b.read_eq_ok_iff, here, b.fileMap.find?_eq_some_iff]
  contains_normalize path := by
    simp only [toBucket, Path.normalize_normalize]
  read_normalize path content := by
    rw [b.read_eq_ok_iff, b.read_eq_ok_iff, Path.normalize_normalize]

theorem MemoryBucket.IsBuilt.holds {b : MemoryBucket} (built : b.IsBuilt) :
    b.toBucket.Holds b.fileMap.entries :=
  MemoryBucket.holds fun path member => (built.isFile path member).normalize_eq

end SchemaModules
