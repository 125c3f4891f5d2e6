import SchemaModules.Bucket.Memory
import SchemaModules.Proofs.Outcome
import SchemaModules.Proofs.Path.Composition
import SchemaModules.Proofs.SortedMap

/-! # Files kept in memory

A bucket in memory that was built by putting files in keeps each of them under the path of a file
(`IsBuilt.isFile`), and answers every question by the normal form of the path that is asked for.
-/

namespace SchemaModules

namespace MemoryBucket

/-- A bucket that was built by putting files in. -/
inductive IsBuilt : MemoryBucket → Prop where
  | empty : IsBuilt empty
  | insert {b c : MemoryBucket} {path : String} {content : Bytes} :
      IsBuilt b → b.insert path content = .ok c → IsBuilt c

theorem filePath_eq_ok_iff {path place : String} :
    filePath path = .ok place ↔ Path.validate path = .ok place ∧ place ≠ "." := by
  unfold filePath
  simp only [Outcome.bind_eq_ok_iff, Outcome.mapError_eq_ok_iff, Outcome.guard_eq_ok_iff,
    Outcome.pure_eq_ok_iff]
  constructor
  · rintro ⟨_, valid, notTop, rfl⟩
    exact ⟨valid, notTop⟩
  · rintro ⟨valid, notTop⟩
    exact ⟨place, valid, notTop, rfl⟩

theorem insert_eq_ok_iff {b c : MemoryBucket} {path : String} {content : Bytes} :
    b.insert path content = .ok c ↔ ∃ place, filePath path = .ok place ∧
      c = ⟨b.fileMap.insert place content⟩ := by
  unfold MemoryBucket.insert
  simp only [Outcome.bind_eq_ok_iff, Outcome.pure_eq_ok_iff]
  exact exists_congr fun place => and_congr_right fun _ => eq_comm

/-- Files are kept under the paths of files. -/
theorem IsBuilt.isFile {b : MemoryBucket} (built : b.IsBuilt) :
    ∀ path ∈ b.fileMap.keys, Path.IsFile path := by
  induction built with
  | empty => exact fun path member => absurd member List.not_mem_nil
  | insert _ inserted ih =>
      obtain ⟨place, valid, rfl⟩ := insert_eq_ok_iff.mp inserted
      intro path member
      rcases (SortedMap.mem_keys_insert _ _ _ _).mp member with rfl | earlier
      · obtain ⟨validated, notTop⟩ := filePath_eq_ok_iff.mp valid
        exact ⟨Path.validate_of_validate validated, notTop⟩
      · exact ih path earlier

theorem IsBuilt.insertValid {b : MemoryBucket} (built : b.IsBuilt) (path : String)
    (content : Bytes) : (b.insertValid path content).IsBuilt := by
  unfold MemoryBucket.insertValid
  split
  · next inserted => exact .insert built inserted
  · exact built

/-- A bucket of a list of files is built by putting them in one after another. -/
theorem isBuilt_of_ofFiles {files : List (String × Bytes)} {b : MemoryBucket}
    (made : ofFiles files = .ok b) : b.IsBuilt :=
  Outcome.foldlM_keeps IsBuilt (fun _ _ _ _ built inserted => .insert built inserted) .empty made

variable (b : MemoryBucket)

theorem contains_iff (path : String) :
    b.toBucket.contains path = true ↔ Path.normalize path ∈ b.fileMap.keys :=
  b.fileMap.contains_iff_mem_keys _

theorem read_eq_ok_iff (path : String) (content : Bytes) :
    b.toBucket.read path = .ok content ↔
      b.fileMap.find? (Path.normalize path) = some content := by
  simp only [toBucket]
  split
  · next found => simp [found]
  · next missing => simp [missing]

end MemoryBucket

end SchemaModules
