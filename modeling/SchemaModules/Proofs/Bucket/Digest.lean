import SchemaModules.Bucket.Digest
import SchemaModules.Proofs.Bucket.Memory
import SchemaModules.Proofs.Digest.Merge
import SchemaModules.Proofs.Path.Chunk

/-! # Digests of files in memory

Hashing in chunks changes the order of the hashes and nothing else, and the manifest sorts them. So
the digest of a bucket is that of its files (`digest_of_reads`), and it determines them as far as a
manifest does (`digest_determines_files`).
-/

namespace SchemaModules

open SchemaModules.Path (IsFile)

namespace Bucket

variable {b : Bucket} {paths : List String} {content : String → Bytes}

theorem hashFiles_of_reads (reads : ∀ path ∈ paths, b.read path = .ok (content path)) :
    b.hashFiles paths = .ok (paths.map fun path => (path, Digest.fileHash (content path))) := by
  unfold hashFiles
  rw [Outcome.mapM_eq_ok_iff, List.forall₂_map_right_iff, List.forall₂_same]
  intro path member
  rw [reads path member]
  rfl

/-- The files of chunks with the hashes of their contents. -/
def hashInChunks (b : Bucket) (chunks : List (List String)) :
    Except ModuleError (List (String × String)) := do
  return (← chunks.mapM b.hashFiles).flatten

/-- The chunks that files are hashed in: all in one if they are few. -/
def chunksOf (paths : List String) : List (List String) :=
  if paths.length < chunkThreshold then [paths] else Path.chunkByDir paths chunkSize

theorem hashInChunks_singleton (b : Bucket) (paths : List String) :
    b.hashInChunks [paths] = b.hashFiles paths := by
  unfold hashInChunks
  rw [List.mapM_cons, List.mapM_nil]
  cases b.hashFiles paths with
  | error error => rfl
  | ok hashes => exact congrArg Except.ok (List.append_nil hashes)

theorem hashAll_eq (b : Bucket) (paths : List String) :
    b.hashAll paths = b.hashInChunks (chunksOf paths) := by
  unfold hashAll chunksOf
  split
  · exact (b.hashInChunks_singleton paths).symm
  · rfl

theorem flatten_chunkByDir_perm (normal : ∀ path ∈ paths, Path.normalize path = path) :
    (Path.chunkByDir paths chunkSize).flatten.Perm paths := by
  have positive : 0 < chunkSize := by decide
  have parted := Path.flatten_chunkByDir_perm paths positive
  rwa [List.map_congr_left normal, List.map_id'] at parted

theorem flatten_chunksOf_perm (normal : ∀ path ∈ paths, Path.normalize path = path) :
    (chunksOf paths).flatten.Perm paths := by
  unfold chunksOf
  split
  · rw [List.flatten_singleton]
  · exact flatten_chunkByDir_perm normal

/-- Files that can be read are all hashed, chunk by chunk. -/
theorem hashInChunks_of_reads {chunks : List (List String)}
    (reads : ∀ path ∈ chunks.flatten, b.read path = .ok (content path)) :
    b.hashInChunks chunks =
      .ok (chunks.flatten.map fun path => (path, Digest.fileHash (content path))) := by
  have each : chunks.mapM b.hashFiles =
      .ok (chunks.map fun chunk =>
        chunk.map fun path => (path, Digest.fileHash (content path))) := by
    rw [Outcome.mapM_eq_ok_iff, List.forall₂_map_right_iff, List.forall₂_same]
    intro chunk member
    exact hashFiles_of_reads fun path inChunk => reads path (List.mem_flatten_of_mem member inChunk)
  rw [hashInChunks, each, List.map_flatten]
  rfl

/-- Files that are hashed chunk by chunk can all be read. -/
theorem reads_of_hashInChunks {chunks : List (List String)} {hashes : List (String × String)}
    (hashed : b.hashInChunks chunks = .ok hashes) :
    ∀ path ∈ chunks.flatten, ∃ content, b.read path = .ok content := by
  intro path member
  obtain ⟨chunk, listed, inChunk⟩ := List.mem_flatten.mp member
  obtain ⟨found, all, -⟩ := Outcome.bind_eq_ok_iff.mp hashed
  obtain ⟨_, -, each⟩ := Outcome.exists_of_forall₂ (Outcome.mapM_eq_ok_iff.mp all).flip listed
  obtain ⟨_, -, one⟩ := Outcome.exists_of_forall₂ (Outcome.mapM_eq_ok_iff.mp each).flip inChunk
  obtain ⟨content, read, -⟩ := Outcome.bind_eq_ok_iff.mp one
  exact ⟨content, read⟩

/-- In whatever chunks the files of a bucket are hashed, their digest is that of the files. -/
theorem ofFileHashes_of_reads {chunks : List (List String)} (parted : chunks.flatten.Perm paths)
    (distinct : paths.Nodup) (reads : ∀ path ∈ paths, b.read path = .ok (content path)) :
    (b.hashInChunks chunks).map Digest.ofFileHashes =
      .ok (Digest.ofFiles (paths.map fun path => (path, content path))) := by
  have sorted : Digest.ofFiles (chunks.flatten.map fun path => (path, content path)) =
      Digest.ofFiles (paths.map fun path => (path, content path)) := by
    refine Digest.ofFiles_perm ?_ (parted.map _)
    simpa [List.map_map, Function.comp_def] using parted.nodup_iff.mpr distinct
  rw [hashInChunks_of_reads fun path member => reads path (parted.mem_iff.mp member), ← sorted]
  simp only [Except.map, Digest.ofFiles, List.map_map, Function.comp_def]

theorem digest_eq (listed : b.paths = .ok paths) :
    b.digest = (b.hashInChunks (chunksOf paths)).map Digest.ofFileHashes := by
  rw [← hashAll_eq]
  simp only [digest, listed, bind, Except.bind]
  cases b.hashAll paths <;> rfl

/-- The digest of a bucket whose files can be read is that of the files. -/
theorem digest_of_reads (listed : b.paths = .ok paths) (distinct : paths.Nodup)
    (normal : ∀ path ∈ paths, Path.normalize path = path)
    (reads : ∀ path ∈ paths, b.read path = .ok (content path)) :
    b.digest = .ok (Digest.ofFiles (paths.map fun path => (path, content path))) := by
  rw [digest_eq listed]
  exact ofFileHashes_of_reads (flatten_chunksOf_perm normal) distinct reads

end Bucket

namespace MemoryBucket

variable {files : List (String × Bytes)}

theorem insert_of_isFile (b : MemoryBucket) {path : String} (valid : IsFile path)
    (content : Bytes) : b.insert path content = .ok ⟨b.fileMap.insert path content⟩ :=
  insert_eq_ok_iff.mpr ⟨path, filePath_eq_ok_iff.mpr valid, rfl⟩

/-- Files that are put in one after another, at places of their own, are all kept. -/
theorem insert_run {b : MemoryBucket} (valid : ∀ file ∈ files, IsFile file.1)
    (distinct : ((b.fileMap.entries ++ files).map Prod.fst).Nodup) :
    ∃ c, files.foldlM (fun b file => b.insert file.1 file.2) b = .ok c ∧
      c.fileMap.entries.Perm (b.fileMap.entries ++ files) := by
  induction files generalizing b with
  | nil => exact ⟨b, rfl, by rw [List.append_nil]⟩
  | cons file rest ih =>
      obtain ⟨here, later⟩ := List.forall_mem_cons.mp valid
      have fresh : b.fileMap.find? file.1 = none := by
        rw [Option.eq_none_iff_forall_ne_some]
        intro content found
        have member : file.1 ∈ b.fileMap.keys := (SortedMap.mem_keys_iff _ _).mpr ⟨content, found⟩
        rw [List.map_append, List.nodup_append] at distinct
        exact distinct.2.2 file.1 member file.1 (by simp) rfl
      have entries : (b.fileMap.insert file.1 file.2).entries.Perm (b.fileMap.entries ++ [file]) := by
        refine (b.fileMap.entries_insert_perm file.1 file.2).trans ?_
        rw [b.fileMap.erase_of_find?_eq_none fresh]
        exact (List.perm_append_singleton _ _).symm
      have whole : ((b.fileMap.insert file.1 file.2).entries ++ rest).Perm
          (b.fileMap.entries ++ file :: rest) := by
        simpa using entries.append_right rest
      rw [List.foldlM_cons, b.insert_of_isFile here file.2]
      obtain ⟨c, made, kept⟩ := ih (b := ⟨b.fileMap.insert file.1 file.2⟩) later
        ((whole.map Prod.fst).nodup_iff.mpr distinct)
      exact ⟨c, made, kept.trans whole⟩

/-- A bucket of files in memory has the digest of its files. -/
theorem IsBuilt.digest_eq {b : MemoryBucket} (built : b.IsBuilt) :
    b.toBucket.digest = .ok (Digest.ofFiles b.fileMap.entries) := by
  have valid := built.isFile
  have listed : b.toBucket.paths = .ok b.fileMap.keys := rfl
  have reads : ∀ path ∈ b.fileMap.keys,
      b.toBucket.read path = .ok ((b.fileMap.find? path).getD []) := by
    intro path member
    obtain ⟨content, found⟩ := (SortedMap.mem_keys_iff _ _).mp member
    rw [read_eq_ok_iff, (valid path member).normalize_eq, found]
    rfl
  rw [Bucket.digest_of_reads listed b.fileMap.nodup_keys
    (fun path member => (valid path member).normalize_eq) reads]
  have entries : b.fileMap.keys.map (fun path => (path, (b.fileMap.find? path).getD [])) =
      b.fileMap.entries := by
    rw [SortedMap.keys, List.map_map]
    refine (List.map_congr_left fun e member => ?_).trans (List.map_id _)
    have found := (b.fileMap.find?_eq_some_iff e.1 e.2).mpr member
    simp [found]
  rw [entries]

/-- Files with distinct paths make a bucket, with the digest of the files. -/
theorem exists_ofFiles (distinct : (files.map Prod.fst).Nodup)
    (valid : ∀ file ∈ files, IsFile file.1) :
    ∃ b, ofFiles files = .ok b ∧ b.toBucket.digest = .ok (Digest.ofFiles files) := by
  obtain ⟨b, made, kept⟩ := insert_run (b := empty) valid distinct
  refine ⟨b, made, ?_⟩
  rw [(isBuilt_of_ofFiles made).digest_eq, Digest.ofFiles_perm b.fileMap.nodup_keys kept]
  rfl

end MemoryBucket

/-- The digest of files with distinct paths is that of a bucket of them, and where nothing that is
hashed collides, files with one digest are the same exactly if neither manifest overruns the
other. -/
theorem digest_determines_files {left right : List (String × Bytes)}
    (distinctLeft : (left.map Prod.fst).Nodup) (distinctRight : (right.map Prod.fst).Nodup) :
    ((∀ file ∈ left, IsFile file.1) → ∃ b, MemoryBucket.ofFiles left = .ok b ∧
        b.toBucket.digest = .ok (Digest.ofFiles left)) ∧
      ((∀ file ∈ right, IsFile file.1) → ∃ b, MemoryBucket.ofFiles right = .ok b ∧
        b.toBucket.digest = .ok (Digest.ofFiles right)) ∧
      (Digest.ofFiles left = Digest.ofFiles right →
        Digest.Collide (Digest.hashedBytes left right) ∨
          (left.Perm right ↔
            ¬ Digest.Overruns (Digest.sortByPath (Digest.hashed left))
                (Digest.sortByPath (Digest.hashed right)) ∧
              ¬ Digest.Overruns (Digest.sortByPath (Digest.hashed right))
                (Digest.sortByPath (Digest.hashed left)))) :=
  ⟨MemoryBucket.exists_ofFiles distinctLeft, MemoryBucket.exists_ofFiles distinctRight,
    Digest.collide_or_perm_iff distinctLeft distinctRight⟩

namespace Digest

/-- Two empty files. -/
def pair : List (String × Bytes) := [("a", []), ("b", [])]

/-- An empty file whose line in a manifest reads as the two lines of the pair. -/
def merged : List (String × Bytes) := [(mergedPath ("a", []) ("b", []), [])]

/-- What both manifests say. -/
def pairText : String := fileHash [] ++ "  a\n" ++ fileHash [] ++ "  b\n"

theorem manifest_pair : manifest (hashed pair) = pairText := by
  have sorted : sortByPath (hashed pair) = hashed pair := sortByPath_of_pairwise (by decide)
  apply String.toList_injective
  rw [toList_manifest, sorted]
  simp [lines, hashed, pair, manifestLine, pairText]

theorem manifest_merged : manifest (hashed merged) = pairText := by
  have sorted : sortByPath (hashed merged) = hashed merged :=
    sortByPath_of_pairwise (List.pairwise_singleton _ _)
  apply String.toList_injective
  rw [toList_manifest, sorted]
  simp [lines, hashed, merged, mergedPath, manifestLine, pairText]

theorem ofFiles_merged : ofFiles merged = ofFiles pair := by
  change ofFileHashes (hashed merged) = ofFileHashes (hashed pair)
  simp only [ofFileHashes, manifest_merged, manifest_pair]

theorem digest_of_merged_determines_files :
    (merged.map Prod.fst).Nodup ∧ (pair.map Prod.fst).Nodup ∧
      (Collide (hashedBytes merged pair) ∨
        (merged.Perm pair ↔
          ¬ Overruns (sortByPath (hashed merged)) (sortByPath (hashed pair)) ∧
            ¬ Overruns (sortByPath (hashed pair)) (sortByPath (hashed merged)))) := by
  have single : (merged.map Prod.fst).Nodup := List.nodup_singleton _
  have double : (pair.map Prod.fst).Nodup := by decide
  exact ⟨single, double, (digest_determines_files single double).2.2 ofFiles_merged⟩

/-- The pair and the one file have one digest, and nothing that was hashed for it collides. -/
theorem merged_has_digest_of_pair :
    (merged.map Prod.fst).Nodup ∧ (pair.map Prod.fst).Nodup ∧
      (∀ file ∈ merged ++ pair, IsFile file.1) ∧
      ofFiles merged = ofFiles pair ∧ ¬ merged.Perm pair ∧ ¬ Collide (hashedBytes merged pair) := by
  have apart : fileHash [] ≠ fileHash (Text.Utf8.encode pairText) := by decide +kernel
  refine ⟨List.nodup_singleton _, by decide, ?_, ofFiles_merged, ?_, ?_⟩
  · have left : IsFile "a" := by decide
    have right : IsFile "b" := by decide
    simp only [merged, pair, List.cons_append, List.nil_append, List.forall_mem_cons]
    exact ⟨isFile_mergedPath left right, left, right, fun _ none => absurd none List.not_mem_nil⟩
  · intro same
    exact absurd same.length_eq (by decide)
  · have strings : ∀ s ∈ hashedBytes merged pair, s = [] ∨ s = Text.Utf8.encode pairText := by
      simp only [hashedBytes, manifestBytes, manifest_merged, manifest_pair]
      simp [merged, pair]
    rintro ⟨s, first, t, second, differ, same⟩
    rcases strings s first with rfl | rfl <;> rcases strings t second with rfl | rfl
    · exact differ rfl
    · exact apart same
    · exact apart same.symm
    · exact differ rfl

end Digest

end SchemaModules
