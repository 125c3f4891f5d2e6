import SchemaModules.Module.Basic
import SchemaModules.Proofs.Bucket.Digest
import SchemaModules.Proofs.Bucket.Directory
import SchemaModules.Proofs.Bucket.View

/-! # Buckets that there are, and the modules made of them

All buckets are files in memory or on disk, seen through filters and boundaries (`IsProvided`). They
list paths of files, each once, so the digest of a module is that of its files
(`IsMade.digest_of_files`).
-/

namespace SchemaModules

open SchemaModules.Path (IsFile)

namespace Bucket

/-- A bucket of files in memory or of a directory, seen through any filters and boundaries. In place
of the directory there may be nothing or a regular file. -/
inductive IsProvided : Bucket → Prop where
  | memory {files : MemoryBucket} (built : files.IsBuilt) : IsProvided files.toBucket
  | directory (rootPath : String) (rootSize : Nat) {entries : List (String × FileTree)}
      (proper : FileTree.AreProper entries) :
      IsProvided (FileTree.toBucket rootPath rootSize (some (.directory entries)))
  | missing (rootPath : String) (rootSize : Nat) :
      IsProvided (FileTree.toBucket rootPath rootSize none)
  | irregular (rootPath : String) (rootSize : Nat) (content : Bytes) :
      IsProvided (FileTree.toBucket rootPath rootSize (some (.file content)))
  | filtered (visible : String → Bool) {below : Bucket} (provided : IsProvided below) :
      IsProvided (below.filter visible)
  | within {boundary : Boundary} (constructed : boundary.IsConstructed) {below : Bucket}
      (provided : IsProvided below) : IsProvided (boundary.view below)

variable {b : Bucket}

/-- What a bucket lists are paths of files, each once. -/
theorem IsProvided.paths (provided : b.IsProvided) {paths : List String}
    (listed : b.paths = .ok paths) : paths.Nodup ∧ ∀ path ∈ paths, IsFile path := by
  induction provided generalizing paths with
  | memory built =>
      obtain rfl := Except.ok.inj listed
      exact ⟨SortedMap.nodup_keys _, built.isFile⟩
  | @directory rootPath rootSize entries proper =>
      obtain rfl := Except.ok.inj listed
      obtain ⟨nodup, files⟩ := FileTree.paths_of_directory proper
      have sorted := List.mergeSort_perm ((FileTree.directory entries).filePaths "") (· ≤ ·)
      exact ⟨sorted.nodup_iff.mpr nodup, fun path member => files path (sorted.mem_iff.mp member)⟩
  | missing rootPath rootSize => cases listed
  | irregular rootPath rootSize content => cases listed
  | filtered visible provided ih =>
      obtain ⟨inner, belowListed, equal⟩ := Outcome.bind_eq_ok_iff.mp listed
      obtain rfl := Outcome.pure_eq_ok_iff.mp equal
      obtain ⟨nodup, files⟩ := ih belowListed
      exact ⟨nodup.filter _, fun path member => files path (List.mem_filter.mp member).1⟩
  | within constructed provided ih =>
      obtain ⟨inner, belowListed, -⟩ := Outcome.bind_eq_ok_iff.mp listed
      obtain ⟨nodup, files⟩ := ih belowListed
      rcases Boundary.paths_view constructed.wellFormed belowListed files nodup with
        ⟨shown, shownListed, noted⟩ | ⟨place, first, second, failed, -⟩
      · obtain rfl := Except.ok.inj (shownListed.symm.trans listed)
        refine ⟨shown.nodup_keys, fun place member => ?_⟩
        obtain ⟨_, _, mapped⟩ := (noted.mem_keys_iff place).mp member
        exact mapped.isFile
      · rw [failed] at listed
        cases listed

/-- A bucket that can be read at all of its paths has its files. -/
theorem exists_files {paths : List String} (listed : b.paths = .ok paths)
    (reads : ∀ path ∈ paths, ∃ content, b.read path = .ok content) :
    ∃ files, b.files = .ok files := by
  have each : ∀ path ∈ paths, ∃ file,
      (do return (path, ← b.read path)) = (.ok file : Except ModuleError (String × Bytes)) := by
    intro path member
    obtain ⟨content, read⟩ := reads path member
    rw [read]
    exact ⟨(path, content), rfl⟩
  obtain ⟨files, all⟩ := Outcome.mapM_total each
  exact ⟨files, Outcome.bind_eq_ok_iff.mpr ⟨paths, listed, all⟩⟩

/-- What can be read at a path, and nothing if that fails. -/
def contentAt (b : Bucket) (path : String) : Bytes := (b.read path).toOption.getD []

theorem contentAt_of_read {path : String} {content : Bytes} (read : b.read path = .ok content) :
    b.contentAt path = content := by
  rw [contentAt, read]
  rfl

/-- The files of a bucket are its paths with what can be read at them. -/
theorem reads_of_files {files : List (String × Bytes)} (read : b.files = .ok files) :
    ∃ paths, b.paths = .ok paths ∧ (∀ path ∈ paths, b.read path = .ok (b.contentAt path)) ∧
      files = paths.map fun path => (path, b.contentAt path) := by
  obtain ⟨paths, listed, reads⟩ := Outcome.bind_eq_ok_iff.mp read
  have each := Outcome.mapM_eq_ok_iff.mp reads
  have known : ∀ path file, (do return (path, ← b.read path)) =
      (.ok file : Except ModuleError (String × Bytes)) →
      b.read path = .ok (b.contentAt path) ∧ file = (path, b.contentAt path) := by
    intro path file made
    obtain ⟨bytes, here, equal⟩ := Outcome.bind_eq_ok_iff.mp made
    obtain rfl := Outcome.pure_eq_ok_iff.mp equal
    rw [contentAt_of_read here]
    exact ⟨here, rfl⟩
  refine ⟨paths, listed, ?_, ?_⟩
  · intro path member
    obtain ⟨file, -, made⟩ := Outcome.exists_of_forall₂ each.flip member
    exact (known path file made).1
  · have same : List.Forall₂ (fun file path => file = (path, b.contentAt path)) files paths :=
      each.flip.imp fun file path made => (known path file made).2
    rw [← List.forall₂_eq_eq_eq, List.forall₂_map_right_iff]
    exact same

/-- The digest of a bucket whose files were read is the digest of these files. -/
theorem IsProvided.digest_of_files (provided : b.IsProvided) {files : List (String × Bytes)}
    (read : b.files = .ok files) : b.digest = .ok (Digest.ofFiles files) := by
  obtain ⟨paths, listed, reads, rfl⟩ := reads_of_files read
  obtain ⟨nodup, valid⟩ := provided.paths listed
  exact digest_of_reads listed nodup (fun path member => (valid path member).normalize_eq) reads

end Bucket

namespace Module

/-- A module that was made of a bucket: edited, by itself or within a boundary, or published. -/
inductive IsMade : Module → Prop where
  | edited (bucketId : String) {source : Bucket} (provided : source.IsProvided)
      (fullName : Option FullName) (isTarget : Bool) :
      IsMade (edited bucketId source fullName isTarget)
  | within {boundary : Boundary} (constructed : boundary.IsConstructed) {workspace : Bucket}
      (provided : workspace.IsProvided) (isTarget : Bool) :
      IsMade (within boundary workspace isTarget)
  | published (fullName : FullName) (commitId : CommitId) {source : Bucket}
      (provided : source.IsProvided) (expectedDigest : Option Digest) :
      IsMade (published fullName commitId source expectedDigest)

variable {m : Module}

theorem IsMade.provided (made : m.IsMade) : m.bucket.IsProvided := by
  cases made with
  | edited bucketId provided => exact .filtered _ provided
  | within constructed provided => exact .filtered _ (.within constructed provided)
  | published fullName commitId provided => exact .filtered _ provided

theorem IsMade.expectedDigest_eq (made : m.IsMade) (here : m.isLocal = true) :
    m.expectedDigest = none := by
  cases made with
  | edited => rfl
  | within => rfl
  | published => cases here

/-- The digest of an edited module whose files were read is the digest of these files. -/
theorem IsMade.digest_of_files (made : m.IsMade) (here : m.isLocal = true)
    {files : List (String × Bytes)} (read : m.files = .ok files) :
    m.digest = .ok (Digest.ofFiles files) := by
  have actual := made.provided.digest_of_files read
  unfold digest
  rw [actual, made.expectedDigest_eq here]
  rfl

end Module

end SchemaModules
