import SchemaModules.Proofs.Bucket.Provided

/-! # Digests depend on files only

A bucket has a digest exactly if its files can be read, and it is that of the files in any order and
in any chunks (`Bucket.DigestsFiles`). Files put into memory leave at each place the last of them
(`MemoryBucket.find?_filled`), and what was there on the way makes no difference.
-/

namespace SchemaModules

namespace Bucket

/-- The digest of a bucket is that of the files at its paths. There is one exactly if all of them can
be read; it is the digest of the paths with what is read there, in any order; and whether they are
hashed one after another, or in chunks of directories in any order, makes no difference to it. -/
structure DigestsFiles (b : Bucket) (paths : List String) : Prop where
  exists_iff : (∃ digest, b.digest = .ok digest) ↔
    ∀ path ∈ paths, ∃ content, b.read path = .ok content
  in_any_order : ∀ files : List (String × Bytes), (files.map Prod.fst).Perm paths →
    (∀ file ∈ files, b.read file.1 = .ok file.2) → b.digest = .ok (Digest.ofFiles files)
  one_by_one : ((b.hashFiles paths).map Digest.ofFileHashes).toOption = b.digest.toOption
  in_chunks : ∀ chunks : List (List String), chunks.Perm (Path.chunkByDir paths chunkSize) →
    ((b.hashInChunks chunks).map Digest.ofFileHashes).toOption = b.digest.toOption

variable {b : Bucket} {paths : List String} {chunks others : List (List String)}

/-- Chunks of the same files come to the same digest, or to none. -/
theorem toOption_hashInChunks_congr (distinct : paths.Nodup) (first : chunks.flatten.Perm paths)
    (second : others.flatten.Perm paths) :
    ((b.hashInChunks chunks).map Digest.ofFileHashes).toOption =
      ((b.hashInChunks others).map Digest.ofFileHashes).toOption := by
  by_cases readable : ∀ path ∈ paths, ∃ content, b.read path = .ok content
  · have reads : ∀ path ∈ paths, b.read path = .ok (b.contentAt path) := by
      intro path member
      obtain ⟨content, read⟩ := readable path member
      rw [contentAt_of_read read, read]
    rw [ofFileHashes_of_reads first distinct reads, ofFileHashes_of_reads second distinct reads]
  · have none : ∀ {chunks : List (List String)}, chunks.flatten.Perm paths →
        ((b.hashInChunks chunks).map Digest.ofFileHashes).toOption = none := by
      intro chunks parted
      cases hashed : b.hashInChunks chunks with
      | error error => rfl
      | ok hashes =>
          refine absurd (fun path member => ?_) readable
          exact reads_of_hashInChunks hashed path (parted.mem_iff.mpr member)
    rw [none first, none second]

theorem digestsFiles (listed : b.paths = .ok paths) (distinct : paths.Nodup)
    (normal : ∀ path ∈ paths, Path.normalize path = path) : b.DigestsFiles paths := by
  have parted := flatten_chunksOf_perm normal
  have of_reads : ∀ files : List (String × Bytes), (files.map Prod.fst).Perm paths →
      (∀ file ∈ files, b.read file.1 = .ok file.2) → b.digest = .ok (Digest.ofFiles files) := by
    intro files perm reads
    have known : ∀ file ∈ files, (file.1, b.contentAt file.1) = file := by
      intro file member
      rw [contentAt_of_read (reads file member)]
    have same : (files.map Prod.fst).map (fun path => (path, b.contentAt path)) = files := by
      rw [List.map_map]
      exact (List.map_congr_left known).trans (List.map_id _)
    have each : ∀ path ∈ paths, b.read path = .ok (b.contentAt path) := by
      intro path member
      obtain ⟨file, given, rfl⟩ := List.mem_map.mp (perm.mem_iff.mpr member)
      rw [contentAt_of_read (reads file given), reads file given]
    rw [digest_of_reads listed distinct normal each]
    refine congrArg Except.ok (Digest.ofFiles_perm ?_ (same ▸ (perm.map _).symm))
    simpa [List.map_map, Function.comp_def] using distinct
  refine ⟨⟨?_, ?_⟩, of_reads, ?_, ?_⟩
  · rintro ⟨digest, made⟩ path member
    rw [digest_eq listed] at made
    cases hashed : b.hashInChunks (chunksOf paths) with
    | error error =>
        rw [hashed] at made
        cases made
    | ok hashes => exact reads_of_hashInChunks hashed path (parted.mem_iff.mpr member)
  · intro readable
    refine ⟨_, of_reads (paths.map fun path => (path, b.contentAt path)) ?_ ?_⟩
    · simp [List.map_map, Function.comp_def]
    · intro file member
      obtain ⟨path, given, rfl⟩ := List.mem_map.mp member
      obtain ⟨content, read⟩ := readable path given
      rw [contentAt_of_read read, read]
  · rw [← b.hashInChunks_singleton, digest_eq listed]
    refine toOption_hashInChunks_congr distinct ?_ parted
    rw [List.flatten_singleton]
  · intro chunks perm
    rw [digest_eq listed]
    refine toOption_hashInChunks_congr distinct ?_ parted
    exact perm.flatten.trans (flatten_chunkByDir_perm normal)

end Bucket

namespace MemoryBucket

/-- The files that are left when some are put in one after another, as far as their paths allow. -/
def filled (files : List (String × Bytes)) : MemoryBucket :=
  files.foldl (fun b file => b.insertValid file.1 file.2) empty

/-- The content of the last file that is put in at a place. -/
def lastAt (files : List (String × Bytes)) (place : String) : Option Bytes :=
  (files.reverse.find? fun file => (filePath file.1).toOption = some place).map Prod.snd

theorem find?_insertValid (b : MemoryBucket) (path place : String) (content : Bytes) :
    (b.insertValid path content).fileMap.find? place =
      if (filePath path).toOption = some place then some content else b.fileMap.find? place := by
  unfold insertValid insert
  cases filePath path with
  | error error => rfl
  | ok other =>
      refine (b.fileMap.find?_insert other place content).trans ?_
      simp only [Except.toOption, Option.some.injEq, eq_comm]

theorem find?_filled (files : List (String × Bytes)) (place : String) :
    (filled files).fileMap.find? place = lastAt files place := by
  induction files using List.reverseRecOn with
  | nil => rfl
  | append_singleton before file ih =>
      have step : filled (before ++ [file]) = (filled before).insertValid file.1 file.2 := by
        rw [filled, List.foldl_append]
        rfl
      rw [step, find?_insertValid, ih, lastAt, lastAt, List.reverse_append, List.reverse_singleton,
        List.singleton_append, List.find?_cons]
      by_cases here : (filePath file.1).toOption = some place
      · simp [here]
      · simp [here]

theorem isBuilt_filled (files : List (String × Bytes)) : (filled files).IsBuilt := by
  induction files using List.reverseRecOn with
  | nil => exact .empty
  | append_singleton before file ih =>
      rw [filled, List.foldl_append]
      exact ih.insertValid file.1 file.2

/-- Files put in one after another are one bucket if the last of them at each place are the same. -/
theorem filled_eq {left right : List (String × Bytes)}
    (same : ∀ place, lastAt left place = lastAt right place) : filled left = filled right := by
  have files : (filled left).fileMap = (filled right).fileMap := by
    apply SortedMap.eq_of_find?_eq
    intro place
    rw [find?_filled, find?_filled, same]
  exact congrArg MemoryBucket.mk files

end MemoryBucket

open MemoryBucket (filled lastAt)

/-- The digest of a bucket of distinct paths in normal form depends on its files only; all buckets
that there are list such paths; and files put into memory have one digest if they come to the same
files, in whatever order and over whatever others they are put in. -/
theorem digest_depends_on_files :
    (∀ (b : Bucket) (paths : List String), b.paths = .ok paths → paths.Nodup →
        (∀ path ∈ paths, Path.normalize path = path) → b.DigestsFiles paths) ∧
      (∀ b : Bucket, b.IsProvided → ∀ paths, b.paths = .ok paths →
        paths.Nodup ∧ ∀ path ∈ paths, Path.normalize path = path) ∧
      ∀ left right, (∀ place, lastAt left place = lastAt right place) →
        ∃ digest, (filled left).toBucket.digest = .ok digest ∧
          (filled right).toBucket.digest = .ok digest := by
  refine ⟨fun b paths => Bucket.digestsFiles, ?_, ?_⟩
  · intro b provided paths listed
    obtain ⟨distinct, files⟩ := provided.paths listed
    exact ⟨distinct, fun path member => (files path member).normalize_eq⟩
  · intro left right same
    rw [MemoryBucket.filled_eq same]
    have digest := (MemoryBucket.isBuilt_filled right).digest_eq
    exact ⟨_, digest, digest⟩

/-- Two files that are put in in one order and, over another content and under other spellings, in
the other. -/
theorem digest_depends_on_files_of_two_orders :
    ∃ left right : List (String × Bytes), (∀ place, lastAt left place = lastAt right place) ∧
      (filled left).toBucket.IsProvided ∧ (filled left).toBucket.paths = .ok ["a", "b"] ∧
      ["a", "b"].Nodup ∧ (∀ path ∈ ["a", "b"], Path.normalize path = path) ∧
      (filled left).toBucket.DigestsFiles ["a", "b"] ∧
      (filled left).toBucket.digest = .ok (Digest.ofFiles left) ∧
      (filled right).toBucket.digest = .ok (Digest.ofFiles left) := by
  let left : List (String × Bytes) := [("b", []), ("a", [])]
  let right : List (String × Bytes) := [("a", [1]), ("./a", []), ("a/../b", [])]
  obtain ⟨depends, provided, agree⟩ := digest_depends_on_files
  have first : (filled left).fileMap.entries = [("a", []), ("b", [])] := by decide +kernel
  have second : (filled right).fileMap.entries = [("a", []), ("b", [])] := by decide +kernel
  have same : ∀ place, lastAt left place = lastAt right place := by
    intro place
    rw [← MemoryBucket.find?_filled, ← MemoryBucket.find?_filled, SortedMap.find?, SortedMap.find?,
      first, second]
  have made : (filled left).toBucket.IsProvided := .memory (MemoryBucket.isBuilt_filled left)
  have listed : (filled left).toBucket.paths = .ok ["a", "b"] := by
    rw [MemoryBucket.toBucket, SortedMap.keys, first]
    rfl
  obtain ⟨distinct, normal⟩ := provided _ made _ listed
  have digests := depends _ _ listed distinct normal
  have known : (filled left).toBucket.digest = .ok (Digest.ofFiles left) := by
    refine digests.in_any_order left (List.Perm.swap _ _ _) ?_
    simp only [left, List.forall_mem_cons]
    exact ⟨rfl, rfl, fun _ none => absurd none List.not_mem_nil⟩
  obtain ⟨digest, here, there⟩ := agree left right same
  exact ⟨left, right, same, made, listed, distinct, normal, digests, known,
    there.trans (here.symm.trans known)⟩

end SchemaModules
