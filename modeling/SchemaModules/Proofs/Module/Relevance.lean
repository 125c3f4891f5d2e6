import SchemaModules.Proofs.Bucket.Agreement
import SchemaModules.Proofs.Bucket.Provided

/-! # Files that make no difference to a module

A module shows schema files, its license and its documentation. By their last names these are
relevant (`isRelevant`), and a boundary puts relevant files at relevant places
(`Maps.isRelevant_eq`). What else a workspace holds makes no difference to the files and the digest
of a module, unless the boundary puts two such files at one place, which its view refuses
(`relevant_files_determine`).
-/

namespace SchemaModules

open SchemaModules.Path (IsFile)

namespace Module

/-- Whether a module may show a file of the last name that a path has. -/
def isRelevant (path : String) : Bool :=
  Path.extension path = schemaExtension || (licensePath :: docPaths).contains (Path.base path)

theorem isRelevant_top : isRelevant "." = false := by decide

theorem isRelevant_docPaths :
    ∀ path ∈ docPaths, Path.normalize path = path ∧ isRelevant path = true := by
  decide

theorem isRelevant_join {directory path : String}
    (valid : Path.validate directory = .ok directory) (file : IsFile path) :
    isRelevant (Path.join [directory, path]) = isRelevant path := by
  rw [isRelevant, isRelevant, Path.extension_join valid file, Path.base_join valid file]

/-- What a module shows is relevant. -/
theorem isRelevant_of_isShown {b : Bucket} {path : String}
    (shown : isShown (docPath? b) path = true) : isRelevant path = true := by
  simp only [isShown, Bool.or_eq_true, decide_eq_true_eq] at shown
  rcases shown with (schema | rfl) | doc
  · simp [isRelevant, schema]
  · decide
  · exact (isRelevant_docPaths path (List.mem_of_find?_eq_some doc.symm)).2

end Module

/-- A boundary puts relevant files at relevant places, and no others there. -/
theorem Boundary.Maps.isRelevant_eq {b : Boundary} (wf : b.WellFormed) {file place : String}
    (maps : b.Maps file place) : Module.isRelevant file = Module.isRelevant place := by
  obtain ⟨path, pathFile, rfl⟩ := maps.exists_path wf
  rw [Module.isRelevant_join wf.dirPath_valid pathFile]
  rcases (show?_eq_some_iff wf pathFile).mp ((maps_join_iff wf pathFile).mp maps) with
    ⟨root, member, placeFile, -, rfl⟩ | ⟨rfl, -⟩
  · exact Module.isRelevant_join (wf.roots_wellFormed root member).path_valid placeFile
  · rfl

namespace Module

/-! ## Modules of buckets that agree -/

theorem bucket_edited (bucketId : String) (source : Bucket) (fullName : Option FullName)
    (isTarget : Bool) : (edited bucketId source fullName isTarget).bucket =
      source.filter (isShown (docPath? source)) := rfl

section Agree

variable {left right : Bucket} (agree : Bucket.AgreeOn isRelevant left right)
include agree

theorem docPath?_congr : docPath? left = docPath? right := by
  refine List.find?_congr fun path member => ?_
  obtain ⟨normal, relevant⟩ := isRelevant_docPaths path member
  exact agree.contains path normal relevant

/-- Edited modules of buckets that agree on relevant paths show the same. -/
theorem bucket_edited_congr (bucketId : String) (fullName : Option FullName) (isTarget : Bool) :
    (edited bucketId left fullName isTarget).bucket =
      (edited bucketId right fullName isTarget).bucket := by
  rw [bucket_edited, bucket_edited, docPath?_congr agree]
  exact agree.filter_eq fun _ shown => isRelevant_of_isShown shown

theorem files_edited_congr (bucketId : String) (fullName : Option FullName) (isTarget : Bool) :
    (edited bucketId left fullName isTarget).files =
      (edited bucketId right fullName isTarget).files :=
  congrArg Bucket.files (bucket_edited_congr agree bucketId fullName isTarget)

theorem digest_edited_congr (bucketId : String) (fullName : Option FullName) (isTarget : Bool) :
    (edited bucketId left fullName isTarget).digest =
      (edited bucketId right fullName isTarget).digest := by
  unfold digest
  rw [bucket_edited_congr agree]
  rfl

end Agree

/-! ## Modules within a boundary -/

section Within

variable {b : Boundary} (constructed : b.IsConstructed) {files : MemoryBucket}
  (built : files.IsBuilt) (isTarget : Bool)
include constructed built

/-- If a view of files in memory lists its places, the module within has its files. -/
theorem exists_files_within {places : List String}
    (listed : (b.view files.toBucket).paths = .ok places) :
    ∃ all, (within b files.toBucket isTarget).files = .ok all := by
  have wf := constructed.wellFormed
  rcases Boundary.paths_view_toBucket wf built with
    ⟨shown, keys, noted⟩ | ⟨place, first, second, refused, -⟩
  · have below : (within b files.toBucket isTarget).bucket.paths =
        .ok (shown.keys.filter (isShown (docPath? (b.view files.toBucket)))) := by
      rw [within, bucket_edited, Bucket.paths_filter, keys]
      rfl
    refine Bucket.exists_files below fun path member => ?_
    obtain ⟨among, passed⟩ := List.mem_filter.mp member
    obtain ⟨_, content, -, mapped, -, -, read⟩ := noted.reads wf among
    refine ⟨content, ?_⟩
    rw [within, bucket_edited]
    simp only [Bucket.filter, mapped.isFile.normalize_eq, passed, if_true, read]
  · rw [refused] at listed
    cases listed

/-- A module within a boundary has no files exactly if the view refuses, and for the same reason. -/
theorem files_within_eq_error_iff (error : ModuleError) :
    (within b files.toBucket isTarget).files = .error error ↔
      (b.view files.toBucket).paths = .error error := by
  cases listed : (b.view files.toBucket).paths with
  | error other =>
      have refused : (within b files.toBucket isTarget).files = .error other := by
        simp only [Module.files, bucket, within, edited, Bucket.files, Bucket.paths_filter, listed]
        rfl
      rw [refused, Except.error.injEq, Except.error.injEq]
  | ok places =>
      obtain ⟨all, read⟩ := exists_files_within constructed built isTarget listed
      rw [read]
      exact ⟨nofun, nofun⟩

/-- A module within a boundary has no digest exactly if the view refuses, and for the same
reason. -/
theorem digest_within_eq_error_iff (error : ModuleError) :
    (within b files.toBucket isTarget).digest = .error error ↔
      (b.view files.toBucket).paths = .error error := by
  cases listed : (b.view files.toBucket).paths with
  | error other =>
      have refused : (within b files.toBucket isTarget).digest = .error other := by
        simp only [digest, bucket, within, edited, Bucket.digest, Bucket.paths_filter, listed]
        rfl
      rw [refused, Except.error.injEq, Except.error.injEq]
  | ok places =>
      obtain ⟨all, read⟩ := exists_files_within constructed built isTarget listed
      have made : (within b files.toBucket isTarget).IsMade :=
        .within constructed (.memory built) isTarget
      rw [made.digest_of_files rfl read]
      simp only [reduceCtorEq]

/-- A view of files in memory that refuses at a place refuses two files that are mapped there. -/
theorem clash_of_refused {place first second : String}
    (refused : (b.view files.toBucket).paths = .error (.duplicatePath place first second)) :
    b.Clash files.fileMap.keys place first second := by
  rcases Boundary.paths_view_toBucket constructed.wellFormed built with
    ⟨shown, listed, -⟩ | ⟨_, _, _, failed, clash⟩
  · rw [refused] at listed
    cases listed
  · rw [refused] at failed
    cases failed
    exact clash

end Within

/-- Workspaces in memory with the same relevant files make modules with the same files and the same
digest. Modules within a boundary have the same files, and the same digest, exactly if its views of
both refuse alike at irrelevant places, which they do if it puts no two irrelevant files at one
place. -/
theorem relevant_files_determine {left right : MemoryBucket} (leftBuilt : left.IsBuilt)
    (rightBuilt : right.IsBuilt)
    (same : ∀ path, isRelevant path = true →
      left.fileMap.find? path = right.fileMap.find? path) :
    (∀ bucketId fullName isTarget,
      (edited bucketId left.toBucket fullName isTarget).files =
        (edited bucketId right.toBucket fullName isTarget).files ∧
      (edited bucketId left.toBucket fullName isTarget).digest =
        (edited bucketId right.toBucket fullName isTarget).digest) ∧
    ∀ b : Boundary, b.IsConstructed →
      (∀ isTarget,
        ((within b left.toBucket isTarget).files = (within b right.toBucket isTarget).files ↔
          Bucket.RefuseAlike isRelevant (b.view left.toBucket) (b.view right.toBucket)) ∧
        ((within b left.toBucket isTarget).digest = (within b right.toBucket isTarget).digest ↔
          Bucket.RefuseAlike isRelevant (b.view left.toBucket) (b.view right.toBucket))) ∧
      ((∀ place first second, isRelevant place = false →
          ¬ b.Clash left.fileMap.keys place first second ∧
          ¬ b.Clash right.fileMap.keys place first second) →
        Bucket.RefuseAlike isRelevant (b.view left.toBucket) (b.view right.toBucket)) := by
  have agree := Bucket.agreeOn_toBucket same
  refine ⟨fun bucketId fullName isTarget => ⟨files_edited_congr agree bucketId fullName isTarget,
    digest_edited_congr agree bucketId fullName isTarget⟩, fun b constructed => ⟨?_, ?_⟩⟩
  · intro isTarget
    -- Lookups agree in any case; it takes the listings, which refuse alike, to have the same bucket.
    have views := Boundary.agreeOn_view constructed.wellFormed
      (fun _ _ maps => maps.isRelevant_eq constructed.wellFormed) isRelevant_top agree
      (fun _ listed => ((Bucket.IsProvided.memory leftBuilt).paths listed).2)
      (fun _ listed => ((Bucket.IsProvided.memory rightBuilt).paths listed).2)
    refine ⟨⟨?_, fun alike => files_edited_congr (views alike) b.dirPath b.fullName isTarget⟩,
      ⟨?_, fun alike => digest_edited_congr (views alike) b.dirPath b.fullName isTarget⟩⟩
    · intro files place first second _
      rw [← files_within_eq_error_iff constructed leftBuilt isTarget, files,
        files_within_eq_error_iff constructed rightBuilt isTarget]
    · intro digests place first second _
      rw [← digest_within_eq_error_iff constructed leftBuilt isTarget, digests,
        digest_within_eq_error_iff constructed rightBuilt isTarget]
  · intro apart place first second irrelevant
    obtain ⟨leftApart, rightApart⟩ := apart place first second irrelevant
    exact ⟨fun refused => absurd (clash_of_refused constructed leftBuilt refused) leftApart,
      fun refused => absurd (clash_of_refused constructed rightBuilt refused) rightApart⟩

/-- A workspace with a schema file in one of two roots. -/
def schemaOnly : MemoryBucket := ⟨SortedMap.empty.insert "a/x.proto" [1]⟩

/-- The same with a file of notes beside it. -/
def withNote : MemoryBucket := ⟨schemaOnly.fileMap.insert "a/notes.txt" [2]⟩

/-- The same with a file of notes in each of the roots. -/
def withNotes : MemoryBucket := ⟨withNote.fileMap.insert "b/notes.txt" [3]⟩

theorem isBuilt_schemaOnly : schemaOnly.IsBuilt :=
  .insert .empty (MemoryBucket.insert_of_isFile .empty (by decide) [1])

theorem isBuilt_withNote : withNote.IsBuilt :=
  .insert isBuilt_schemaOnly (MemoryBucket.insert_of_isFile schemaOnly (by decide) [2])

theorem isBuilt_withNotes : withNotes.IsBuilt :=
  .insert isBuilt_withNote (MemoryBucket.insert_of_isFile withNote (by decide) [3])

theorem find?_withNote {path : String} (relevant : isRelevant path = true) :
    withNote.fileMap.find? path = schemaOnly.fileMap.find? path := by
  have other : path ≠ "a/notes.txt" := by
    rintro rfl
    exact absurd relevant (by decide)
  exact SortedMap.find?_insert_of_ne _ other _

theorem find?_withNotes {path : String} (relevant : isRelevant path = true) :
    withNotes.fileMap.find? path = schemaOnly.fileMap.find? path := by
  have other : path ≠ "b/notes.txt" := by
    rintro rfl
    exact absurd relevant (by decide)
  exact (SortedMap.find?_insert_of_ne _ other _).trans (find?_withNote relevant)

/-- Two roots without filters. -/
def bothRoots : RootPaths := SortedMap.ofList [("a", []), ("b", [])]

/-- Two roots, which put files of one name at one place. -/
def twoRoots : Boundary := ⟨.v1beta1, ".", none, bothRoots, bothRoots⟩

theorem isConstructed_twoRoots : twoRoots.IsConstructed := by
  have apart : Boundary.checkApart "root" ["a", "b"] = .ok () :=
    (Boundary.checkApart_iff_liesIn (by decide)).mpr (by decide)
  have checked : ∀ root ∈ twoRoots.roots, root.check = .ok () := by
    intro root member
    rcases List.mem_pair.mp member with rfl | rfl <;> rfl
  exact ⟨.v1beta1, ".", none, bothRoots, bothRoots, Boundary.make_eq_ok_iff.mpr
    ⟨".", bothRoots, bothRoots, rfl, .inr rfl, rfl, rfl, rfl, rfl, apart, checked, rfl⟩⟩

/-- Two roots put a file of notes in one of them beside the schema file. -/
theorem no_clash_withNote {place first second : String} :
    ¬ twoRoots.Clash withNote.fileMap.keys place first second := by
  have wf := isConstructed_twoRoots.wellFormed
  have homes : ∀ file ∈ withNote.fileMap.keys,
      file = "a/notes.txt" ∧ twoRoots.Maps file "notes.txt" ∨
        file = "a/x.proto" ∧ twoRoots.Maps file "x.proto" := by decide
  rintro ⟨one, other, differ, left, right⟩
  have apart : ∀ {home away : String}, twoRoots.Maps first home → twoRoots.Maps second away →
      home = away := fun here there =>
    (here.unique wf (here.isFile_source wf) left).trans
      (right.unique wf (right.isFile_source wf) there)
  rcases homes first one with ⟨rfl, here⟩ | ⟨rfl, here⟩ <;>
    rcases homes second other with ⟨rfl, there⟩ | ⟨rfl, there⟩
  · exact differ rfl
  · exact absurd (apart here there) (by decide)
  · exact absurd (apart here there) (by decide)
  · exact differ rfl

/-- Notes make no difference to a module of the whole workspace, nor to one of two roots, as long as
they are in one of these. -/
theorem notes_make_no_difference :
    withNotes.IsBuilt ∧ withNote.IsBuilt ∧ schemaOnly.IsBuilt ∧
      (∀ path, isRelevant path = true →
        withNotes.fileMap.find? path = schemaOnly.fileMap.find? path) ∧
      (edited "a" withNotes.toBucket none true).files =
        (edited "a" schemaOnly.toBucket none true).files ∧
      (edited "a" withNotes.toBucket none true).digest =
        (edited "a" schemaOnly.toBucket none true).digest ∧
      twoRoots.IsConstructed ∧
      (∀ path, isRelevant path = true →
        withNote.fileMap.find? path = schemaOnly.fileMap.find? path) ∧
      (within twoRoots withNote.toBucket true).files =
        (within twoRoots schemaOnly.toBucket true).files ∧
      (within twoRoots withNote.toBucket true).digest =
        (within twoRoots schemaOnly.toBucket true).digest := by
  obtain ⟨whole, -⟩ := relevant_files_determine isBuilt_withNotes isBuilt_schemaOnly
    fun _ => find?_withNotes
  obtain ⟨-, parts⟩ := relevant_files_determine isBuilt_withNote isBuilt_schemaOnly
    fun _ => find?_withNote
  obtain ⟨determined, refuse⟩ := parts twoRoots isConstructed_twoRoots
  have alone : ∀ {place first second : String},
      ¬ twoRoots.Clash schemaOnly.fileMap.keys place first second := by
    rintro place first second ⟨one, other, differ, -⟩
    exact differ ((List.mem_singleton.mp one).trans (List.mem_singleton.mp other).symm)
  have alike := refuse fun _ _ _ _ => ⟨no_clash_withNote, alone⟩
  obtain ⟨files, digest⟩ := whole "a" none true
  exact ⟨isBuilt_withNotes, isBuilt_withNote, isBuilt_schemaOnly, fun _ => find?_withNotes, files,
    digest, isConstructed_twoRoots, fun _ => find?_withNote, (determined true).1.mpr alike,
    (determined true).2.mpr alike⟩

/-- Within two roots the files of notes are refused, since they are mapped to one place. -/
theorem notes_are_refused :
    twoRoots.IsConstructed ∧ withNotes.IsBuilt ∧ schemaOnly.IsBuilt ∧
      (∀ path, isRelevant path = true →
        withNotes.fileMap.find? path = schemaOnly.fileMap.find? path) ∧
      (within twoRoots withNotes.toBucket true).files ≠
        (within twoRoots schemaOnly.toBucket true).files ∧
      (within twoRoots withNotes.toBucket true).digest ≠
        (within twoRoots schemaOnly.toBucket true).digest := by
  have wf := isConstructed_twoRoots.wellFormed
  have clash : twoRoots.Clash withNotes.fileMap.keys "notes.txt" "a/notes.txt" "b/notes.txt" := by
    refine ⟨?_, ?_, ?_, ?_, ?_⟩ <;> decide
  obtain ⟨error, refused⟩ : ∃ error, (twoRoots.view withNotes.toBucket).paths = .error error := by
    rcases Boundary.paths_view_toBucket wf isBuilt_withNotes with
      ⟨shown, -, noted⟩ | ⟨place, first, second, refused, -⟩
    · exact absurd clash noted.no_clash
    · exact ⟨_, refused⟩
  obtain ⟨places, listed⟩ : ∃ places, (twoRoots.view schemaOnly.toBucket).paths = .ok places := by
    rcases Boundary.paths_view_toBucket wf isBuilt_schemaOnly with
      ⟨shown, listed, -⟩ | ⟨_, first, second, -, clash⟩
    · exact ⟨_, listed⟩
    · have one : first = "a/x.proto" := List.mem_singleton.mp clash.1
      have other : second = "a/x.proto" := List.mem_singleton.mp clash.2.1
      exact absurd (one.trans other.symm) clash.2.2.1
  refine ⟨isConstructed_twoRoots, isBuilt_withNotes, isBuilt_schemaOnly, fun _ => find?_withNotes,
    fun same => ?_, fun same => ?_⟩
  · rw [← files_within_eq_error_iff isConstructed_twoRoots isBuilt_withNotes true, same,
      files_within_eq_error_iff isConstructed_twoRoots isBuilt_schemaOnly true, listed] at refused
    cases refused
  · rw [← digest_within_eq_error_iff isConstructed_twoRoots isBuilt_withNotes true, same,
      digest_within_eq_error_iff isConstructed_twoRoots isBuilt_schemaOnly true, listed] at refused
    cases refused

end Module

end SchemaModules
