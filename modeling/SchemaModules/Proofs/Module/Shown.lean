import SchemaModules.Module.Basic
import SchemaModules.Proofs.Bucket.Holding

/-! # What a module shows of its files

A module over a bucket shows the schema files of the bucket, its license at the top, and the first
of three documentations that is there (`IsShownOf`). Its bucket holds just these files, and its
digest is theirs, unless another is expected (`shows_of_answers`).
-/

namespace SchemaModules.Module

variable {m : Module} {files shown : List (String × Bytes)}

/-- The names of documentations, the preferred ones first. -/
def documentationNames : List String := ["buf.md", "README.md", "README.markdown"]

/-- The documentation among paths: the first of the names that is one of them. -/
def IsDocumentationOf (paths : List String) (path : String) : Prop :=
  ∃ preferred others, documentationNames = preferred ++ path :: others ∧ path ∈ paths ∧
    ∀ name ∈ preferred, name ∉ paths

/-- A path is that of a schema file, of the license, or of the documentation among paths. -/
def IsShownOf (paths : List String) (path : String) : Prop :=
  Path.extension path = ".proto" ∨ path = "LICENSE" ∨ IsDocumentationOf paths path

/-- What a module shows of files: those of its kinds, in ascending order of their paths. There is at
most one documentation, and no license and no documentation below the top. All that its bucket
answers comes from them, and so does its digest. -/
structure ShowsOf (m : Module) (files shown : List (String × Bytes)) : Prop where
  listed : m.files = .ok shown
  ascending : (shown.map Prod.fst).Pairwise (· < ·)
  mem_iff : ∀ path content, (path, content) ∈ shown ↔
    (path, content) ∈ files ∧ IsShownOf (files.map Prod.fst) path
  documentation_unique : ∀ first ∈ documentationNames, ∀ second ∈ documentationNames,
    first ∈ shown.map Prod.fst → second ∈ shown.map Prod.fst → first = second
  none_nested : ∀ directory : String, ∀ name ∈ "LICENSE" :: documentationNames,
    directory ++ "/" ++ name ∉ shown.map Prod.fst
  holds : m.bucket.Holds shown
  digest_eq : m.expectedDigest = none → m.digest = .ok (Digest.ofFiles shown)
  digest_expected : ∀ expected, m.expectedDigest = some expected →
    ((∃ digest, m.digest = .ok digest) ↔ Digest.ofFiles shown = expected) ∧
      (∀ digest, m.digest = .ok digest → digest = Digest.ofFiles shown) ∧
      ∀ error, m.digest = .error error → error =
        .digestMismatch m.description expected.text (Digest.ofFiles shown).text

/-! ## The documentation -/

/-- A bucket that answers by files has the documentation among their paths. -/
theorem docPath?_eq_some_iff {b : Bucket} (answers : b.AnswersBy files) {path : String} :
    docPath? b = some path ↔ IsDocumentationOf (files.map Prod.fst) path := by
  have normal : ∀ name ∈ documentationNames, Path.normalize name = name := by decide
  have found : ∀ name ∈ documentationNames,
      (b.contains name = true ↔ name ∈ files.map Prod.fst) :=
    fun name member => answers.contains_iff name (normal name member)
  change documentationNames.find? b.contains = some path ↔ _
  rw [List.find?_eq_some_iff_append]
  constructor
  · rintro ⟨here, preferred, others, split, missing⟩
    have among : path ∈ documentationNames := split ▸ List.mem_append_cons_self
    refine ⟨preferred, others, split, (found path among).mp here, fun name member listed => ?_⟩
    have known : name ∈ documentationNames := split ▸ List.mem_append_left _ member
    simpa [(found name known).mpr listed] using missing name member
  · rintro ⟨preferred, others, split, here, missing⟩
    have among : path ∈ documentationNames := split ▸ List.mem_append_cons_self
    refine ⟨(found path among).mpr here, preferred, others, split, fun name member => ?_⟩
    have known : name ∈ documentationNames := split ▸ List.mem_append_left _ member
    simpa [← found name known] using missing name member

/-- Paths have one documentation at most. -/
theorem IsDocumentationOf.unique {paths : List String} {first second : String}
    (one : IsDocumentationOf paths first) (other : IsDocumentationOf paths second) :
    first = second := by
  have find? : ∀ {path}, IsDocumentationOf paths path →
      documentationNames.find? (· ∈ paths) = some path := by
    rintro path ⟨preferred, others, split, here, missing⟩
    rw [List.find?_eq_some_iff_append]
    exact ⟨by simpa using here, preferred, others, split,
      fun name member => by simpa using missing name member⟩
  exact Option.some.inj ((find? one).symm.trans (find? other))

theorem IsDocumentationOf.mem {paths : List String} {path : String}
    (is : IsDocumentationOf paths path) : path ∈ documentationNames := by
  obtain ⟨preferred, others, split, -⟩ := is
  exact split ▸ List.mem_append_cons_self

theorem isShown_iff {b : Bucket} (answers : b.AnswersBy files) (path : String) :
    isShown (docPath? b) path = true ↔ IsShownOf (files.map Prod.fst) path := by
  rw [IsShownOf, ← docPath?_eq_some_iff answers, @eq_comm _ (docPath? b)]
  simp only [isShown, Bool.or_eq_true, decide_eq_true_eq, or_assoc]
  rfl

/-- What has the name of a documentation is shown as the documentation. -/
theorem isShownOf_iff_of_mem {paths : List String} {name : String}
    (named : name ∈ documentationNames) : IsShownOf paths name ↔ IsDocumentationOf paths name := by
  have plain : ∀ name ∈ documentationNames,
      Path.extension name ≠ ".proto" ∧ name ≠ "LICENSE" := by
    decide
  simp [IsShownOf, plain name named]

/-- A license or a documentation below the top is not shown. -/
theorem not_isShownOf_nested (paths : List String) (directory : String) {name : String}
    (top : name ∈ "LICENSE" :: documentationNames) :
    ¬ IsShownOf paths (directory ++ "/" ++ name) := by
  have plain : ∀ name ∈ "LICENSE" :: documentationNames,
      Path.extension name ≠ ".proto" ∧ '/' ∉ name.toList := by
    decide
  have chars : (directory ++ "/" ++ name).toList = directory.toList ++ '/' :: name.toList := by
    simp
  have extension : Path.extension (directory ++ "/" ++ name) = Path.extension name := by
    rw [Path.extension, Path.extension, chars, Path.lastSegment_append_slash]
  have slash : '/' ∈ (directory ++ "/" ++ name).toList := by simp
  rintro (schema | license | documentation)
  · exact (plain name top).1 (extension ▸ schema)
  · exact (plain _ List.mem_cons_self).2 (license ▸ slash)
  · exact (plain _ (List.mem_cons_of_mem _ documentation.mem)).2 slash

/-! ## The module -/

/-- A module whose bucket has a digest has that digest, unless it expects another. -/
theorem digest_of_bucket {digest : Digest} (known : m.bucket.digest = .ok digest) :
    m.digest = match m.expectedDigest with
      | none => .ok digest
      | some expected =>
          if expected = digest then .ok digest
          else .error (.digestMismatch m.description expected.text digest.text) := by
  rw [Module.digest, known]
  cases m.expectedDigest with
  | none => rfl
  | some expected =>
      by_cases same : expected = digest
      · simp [bind, Except.bind, same, pure, Except.pure]
      · simp [bind, Except.bind, same, throw, throwThe, MonadExceptOf.throw]

/-- A module shows of the files of its bucket the schema files, the license and the
documentation. -/
theorem shows_of_answers (answers : m.source.AnswersBy files) :
    ∃ shown, m.ShowsOf files shown := by
  have holds : m.bucket.Holds _ := answers.filter (isShown (docPath? m.source))
  generalize filtered : (files.filter fun file => isShown (docPath? m.source) file.1) = shown
    at holds
  have mem_iff : ∀ path content, (path, content) ∈ shown ↔
      (path, content) ∈ files ∧ IsShownOf (files.map Prod.fst) path := by
    intro path content
    rw [← filtered, List.mem_filter, isShown_iff answers]
  have isShownOf : ∀ path ∈ shown.map Prod.fst, IsShownOf (files.map Prod.fst) path := by
    intro path member
    obtain ⟨file, among, rfl⟩ := List.mem_map.mp member
    exact ((mem_iff file.1 file.2).mp among).2
  have digests := digest_of_bucket (m := m) holds.digest_eq
  refine ⟨shown, holds.files_eq, holds.ascending, mem_iff, ?_, ?_, holds, ?_, ?_⟩
  · intro first one second other firstShown secondShown
    have preferred := (isShownOf_iff_of_mem one).mp (isShownOf first firstShown)
    exact preferred.unique ((isShownOf_iff_of_mem other).mp (isShownOf second secondShown))
  · intro directory name top member
    exact not_isShownOf_nested _ directory top (isShownOf _ member)
  · intro none
    rw [digests, none]
  · intro expected given
    rw [digests, given]
    by_cases same : expected = Digest.ofFiles shown
    · simp [same]
    · simp [same, Ne.symm same, eq_comm]

/-- A bucket with a license, a schema file, two documentations, one more that is nested, and a file
of another kind. -/
def twoDocumentations : MemoryBucket :=
  MemoryBucket.filled [("docs/buf.md", []), ("./a.proto", [2]), ("README.md", []),
    ("LICENSE", [1]), ("notes.txt", []), ("buf.md", [3])]

theorem isBuilt_twoDocumentations : twoDocumentations.IsBuilt := MemoryBucket.isBuilt_filled _

/-- Of two documentations a module shows the preferred one. -/
theorem shows_of_two_documentations :
    twoDocumentations.fileMap.keys =
        ["LICENSE", "README.md", "a.proto", "buf.md", "docs/buf.md", "notes.txt"] ∧
      twoDocumentations.toBucket.AnswersBy twoDocumentations.fileMap.entries ∧
      (edited "proto" twoDocumentations.toBucket none true).ShowsOf
        twoDocumentations.fileMap.entries
        [("LICENSE", [1]), ("a.proto", [2]), ("buf.md", [3])] := by
  have answers := isBuilt_twoDocumentations.holds.toAnswersBy
  obtain ⟨shown, shows⟩ :=
    shows_of_answers (m := edited "proto" twoDocumentations.toBucket none true) answers
  have read : (edited "proto" twoDocumentations.toBucket none true).files =
      .ok [("LICENSE", [1]), ("a.proto", [2]), ("buf.md", [3])] := by
    decide +kernel
  obtain rfl := Except.ok.inj (shows.listed.symm.trans read)
  exact ⟨by decide +kernel, answers, shows⟩

end SchemaModules.Module
