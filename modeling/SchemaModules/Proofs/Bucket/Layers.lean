import SchemaModules.Bucket.Filter
import SchemaModules.Proofs.Bucket.View

/-! # Lookup and listing through layers of views

Files in memory are seen through any number of filters and boundaries (`Layers`). What such a bucket
lists is what it finds, at every path but the top (`Bucket.Agrees`), and each kind of layer keeps
this. The top is found without being listed exactly where a boundary takes a file for the directory
of its module (`Layers.TopIsFile`).
-/

namespace SchemaModules

open SchemaModules.Path (IsFile)

/-- A bucket of files in memory, seen through filters and boundaries. -/
inductive Layers where
  | memory (files : MemoryBucket) (built : files.IsBuilt)
  | filtered (visible : String → Bool) (below : Layers)
  | within (boundary : Boundary) (constructed : boundary.IsConstructed) (below : Layers)

/-- The bucket that is seen at the top of the layers. -/
def Layers.toBucket : Layers → Bucket
  | .memory files _ => files.toBucket
  | .filtered visible below => below.toBucket.filter visible
  | .within boundary _ below => boundary.view below.toBucket

/-- The directory of a module, as the innermost boundary below the workspace gives it, is itself a
file that is listed there, and no filter hides the top. -/
def Layers.TopIsFile : Layers → Prop
  | .memory .. => False
  | .filtered visible below => visible "." = true ∧ below.TopIsFile
  | .within boundary _ below =>
      if boundary.dirPath = "." then below.TopIsFile
      else ∃ places, below.toBucket.paths = .ok places ∧ boundary.dirPath ∈ places

namespace Bucket

/-- A bucket finds, and reads, what it lists. -/
structure Agrees (b : Bucket) (places : List String) : Prop where
  ascending : places.Pairwise (· < ·)
  isFile : ∀ place ∈ places, IsFile place
  contains_normalize : ∀ path, b.contains (Path.normalize path) = b.contains path
  contains_iff_read : ∀ path, b.contains path = true ↔ ∃ content, b.read path = .ok content
  contains_iff_mem : ∀ path, Path.normalize path ≠ "." →
    (b.contains path = true ↔ Path.normalize path ∈ places)

variable {b : Bucket} {places : List String}

theorem Agrees.nodup (agrees : b.Agrees places) : places.Nodup := by
  refine agrees.ascending.imp ?_
  rintro place _ before rfl
  exact String.lt_irrefl place before

theorem Agrees.contains_file (agrees : b.Agrees places) {file : String} (valid : IsFile file) :
    b.contains file = true ↔ file ∈ places := by
  have normal := valid.normalize_eq
  rw [agrees.contains_iff_mem file (normal.symm ▸ valid.2), normal]

/-- Only the top keeps a bucket from listing everything that it finds. -/
theorem Agrees.contains_iff_mem_everywhere (agrees : b.Agrees places) :
    (∀ path, b.contains path = true ↔ Path.normalize path ∈ places) ↔ b.contains "." = false := by
  have unlisted : "." ∉ places := fun member => (agrees.isFile "." member).2 rfl
  constructor
  · intro everywhere
    have normal : Path.normalize "." = "." := by decide
    rw [← Bool.not_eq_true, everywhere ".", normal]
    exact unlisted
  · intro missing path
    by_cases top : Path.normalize path = "."
    · rw [← agrees.contains_normalize path, top, missing]
      exact iff_of_false Bool.false_ne_true unlisted
    · exact agrees.contains_iff_mem path top

end Bucket

theorem MemoryBucket.IsBuilt.agrees {files : MemoryBucket} (built : files.IsBuilt) :
    files.toBucket.Agrees files.fileMap.keys where
  ascending := files.fileMap.keys_ascending
  isFile := built.isFile
  contains_normalize path := by
    simp only [toBucket, Path.normalize_normalize]
  contains_iff_read path := by
    simp only [MemoryBucket.contains_iff, MemoryBucket.read_eq_ok_iff, SortedMap.mem_keys_iff]
  contains_iff_mem path _ := files.contains_iff path

/-- A filter keeps the agreement of lookup and listing. -/
theorem Bucket.Agrees.filter {b : Bucket} {places : List String} (agrees : b.Agrees places)
    (visible : String → Bool) : (b.filter visible).Agrees (places.filter visible) where
  ascending := agrees.ascending.filter _
  isFile place member := agrees.isFile place (List.mem_filter.mp member).1
  contains_normalize path := by
    simp only [Bucket.filter, Path.normalize_normalize]
  contains_iff_read path := by
    simp only [Bucket.filter, Bool.and_eq_true]
    by_cases seen : visible (Path.normalize path) = true
    · simp only [seen, true_and, if_true]
      exact agrees.contains_iff_read _
    · simp [seen]
  contains_iff_mem path notTop := by
    have below := agrees.contains_iff_mem (Path.normalize path)
    rw [Path.normalize_normalize] at below
    simp only [Bucket.filter, Bool.and_eq_true, List.mem_filter, below notTop]
    exact and_comm

namespace Boundary

variable {b : Boundary} {workspace : Bucket} {files : List String}

/-- A boundary keeps the agreement of lookup and listing. -/
theorem agrees_view (wf : b.WellFormed) (agrees : workspace.Agrees files)
    {shown : SortedMap String String} (noted : b.Noted files shown) :
    (b.view workspace).Agrees shown.keys where
  ascending := shown.keys_ascending
  isFile place member := by
    obtain ⟨_, _, mapped⟩ := (noted.mem_keys_iff place).mp member
    exact mapped.isFile
  contains_normalize path := by
    simp only [view, source?_normalize]
  contains_iff_read path := by
    simp only [view]
    cases found : b.source? workspace path with
    | none => simp
    | some source =>
        simpa using (agrees.contains_iff_read source).mp (contains_of_source? found)
  contains_iff_mem path notTop := by
    simp only [view]
    by_cases file : IsFile (Path.normalize path)
    · rw [source?_isSome_iff wf file rfl, noted.mem_keys_iff]
      refine exists_congr fun source => ?_
      constructor
      · rintro ⟨mapped, kept⟩
        exact ⟨(agrees.contains_file (mapped.isFile_source wf)).mp kept, mapped⟩
      · rintro ⟨member, mapped⟩
        exact ⟨mapped, (agrees.contains_file (mapped.isFile_source wf)).mpr member⟩
    · refine iff_of_false ?_ ?_
      · intro isSome
        obtain ⟨source, found⟩ := Option.isSome_iff_exists.mp isSome
        obtain ⟨place, valid, -⟩ := source?_eq_some_iff.mp found
        obtain rfl := Path.normalize_of_validate valid
        exact file ⟨Path.validate_of_validate valid, notTop⟩
      · intro member
        obtain ⟨_, _, mapped⟩ := (noted.mem_keys_iff _).mp member
        exact file mapped.isFile

/-- The top is found if the workspace finds a file in the place of the module's directory. -/
theorem contains_top (wf : b.WellFormed) :
    (b.view workspace).contains "." = workspace.contains b.dirPath := by
  have topValid : Path.validate "." = .ok "." := by decide
  have source : b.source? workspace "." = [b.dirPath].find? workspace.contains := by
    apply Option.ext
    intro file
    simp [source?_eq_some_iff, topValid, sources_top wf]
  simp only [view, source]
  cases kept : workspace.contains b.dirPath <;> simp [kept]

end Boundary

namespace Layers

/-- Through any layers a bucket that can be listed finds what it lists. -/
theorem agrees (layers : Layers) {places : List String}
    (listed : layers.toBucket.paths = .ok places) : layers.toBucket.Agrees places := by
  induction layers generalizing places with
  | memory files built =>
      obtain rfl := Except.ok.inj listed
      exact built.agrees
  | filtered visible below ih =>
      obtain ⟨inner, belowListed, equal⟩ := Outcome.bind_eq_ok_iff.mp listed
      obtain rfl := Outcome.pure_eq_ok_iff.mp equal
      exact (ih belowListed).filter visible
  | within boundary constructed below ih =>
      have wf := constructed.wellFormed
      obtain ⟨inner, belowListed, -⟩ := Outcome.bind_eq_ok_iff.mp listed
      have agreed := ih belowListed
      rcases Boundary.paths_view wf belowListed agreed.isFile agreed.nodup with
        ⟨shown, shownListed, noted⟩ | ⟨place, first, second, failed, -⟩
      · obtain rfl := Except.ok.inj (shownListed.symm.trans listed)
        exact Boundary.agrees_view wf agreed noted
      · exact absurd (failed.symm.trans listed) (by simp)

/-- Layers can be listed unless a boundary puts two files at one place. -/
theorem paths_eq_error (layers : Layers) {error : ModuleError}
    (failed : layers.toBucket.paths = .error error) :
    ∃ place first second, error = .duplicatePath place first second := by
  induction layers with
  | memory files built => cases failed
  | filtered visible below ih =>
      rcases Outcome.bind_eq_error_iff.mp failed with belowFailed | ⟨_, -, impossible⟩
      · exact ih belowFailed
      · cases impossible
  | within boundary constructed below ih =>
      cases listed : below.toBucket.paths with
      | error other =>
          simp only [toBucket, Boundary.view, listed] at failed
          obtain rfl := Except.error.inj failed
          exact ih listed
      | ok places =>
          have agreed := below.agrees listed
          rcases Boundary.paths_view constructed.wellFormed listed agreed.isFile agreed.nodup with
            ⟨shown, shownListed, -⟩ | ⟨place, first, second, refused, -⟩
          · exact absurd (shownListed.symm.trans failed) (by simp)
          · exact ⟨place, first, second, Except.error.inj (failed.symm.trans refused)⟩

/-- The top is found where it is taken for a file. -/
theorem contains_top_iff (layers : Layers) {places : List String}
    (listed : layers.toBucket.paths = .ok places) :
    layers.toBucket.contains "." = true ↔ layers.TopIsFile := by
  have normal : Path.normalize "." = "." := by decide
  induction layers generalizing places with
  | memory files built =>
      refine iff_of_false ?_ id
      rw [toBucket, MemoryBucket.contains_iff, normal]
      exact fun member => (built.isFile "." member).2 rfl
  | filtered visible below ih =>
      obtain ⟨inner, belowListed, -⟩ := Outcome.bind_eq_ok_iff.mp listed
      simp only [toBucket, Bucket.filter, TopIsFile, Bool.and_eq_true, normal, ih belowListed]
  | within boundary constructed below ih =>
      have wf := constructed.wellFormed
      obtain ⟨inner, belowListed, -⟩ := Outcome.bind_eq_ok_iff.mp listed
      have agreed := below.agrees belowListed
      simp only [toBucket, TopIsFile, Boundary.contains_top wf]
      by_cases atTop : boundary.dirPath = "."
      · rw [if_pos atTop, atTop]
        exact ih belowListed
      · rw [if_neg atTop, agreed.contains_file ⟨wf.dirPath_valid, atTop⟩]
        simp [belowListed]

/-- A bucket behind any layers lists paths of files in ascending order, and reads at a path exactly
if it finds something there. It finds what it lists at every path but those that lead to the top, and
at these as well unless the directory of a module is a file. -/
theorem lookup_agrees_with_listing (layers : Layers) {places : List String}
    (listed : layers.toBucket.paths = .ok places) :
    places.Pairwise (· < ·) ∧ (∀ place ∈ places, IsFile place) ∧
      (∀ path, layers.toBucket.contains path = true ↔
        ∃ content, layers.toBucket.read path = .ok content) ∧
      (∀ path, Path.normalize path ≠ "." →
        (layers.toBucket.contains path = true ↔ Path.normalize path ∈ places)) ∧
      ((∀ path, layers.toBucket.contains path = true ↔ Path.normalize path ∈ places) ↔
        ¬ layers.TopIsFile) := by
  have agreed := layers.agrees listed
  refine ⟨agreed.ascending, agreed.isFile, agreed.contains_iff_read, agreed.contains_iff_mem, ?_⟩
  rw [agreed.contains_iff_mem_everywhere, ← layers.contains_top_iff listed, Bool.not_eq_true]

/-- A module whose directory is a file of the workspace. -/
def fileForDirectory : Layers :=
  .within Boundary.inDirectory Boundary.isConstructed_inDirectory
    (.memory (MemoryBucket.empty.insertValid "proto" [120])
      (MemoryBucket.IsBuilt.empty.insertValid _ _))

theorem fileForDirectory_lookup_agrees :
    fileForDirectory.toBucket.paths = .ok [] ∧
      ((∀ path, fileForDirectory.toBucket.contains path = true ↔ Path.normalize path ∈ []) ↔
        ¬ fileForDirectory.TopIsFile) := by
  have listed : fileForDirectory.toBucket.paths = .ok [] := rfl
  exact ⟨listed, (lookup_agrees_with_listing fileForDirectory listed).2.2.2.2⟩

/-- There the top is found and read, and is not listed. -/
theorem fileForDirectory_finds_top :
    fileForDirectory.toBucket.paths = .ok [] ∧ Path.normalize "." ∉ ([] : List String) ∧
      fileForDirectory.toBucket.contains "." = true ∧
      fileForDirectory.toBucket.read "." = .ok [120] := by
  refine ⟨rfl, List.not_mem_nil, by decide, rfl⟩

end Layers

end SchemaModules
