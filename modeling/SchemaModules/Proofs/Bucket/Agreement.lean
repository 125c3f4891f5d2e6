import Mathlib.Data.List.Find
import SchemaModules.Bucket.Filter
import SchemaModules.Proofs.Bucket.View

/-! # Buckets that agree on some of their paths

Buckets may agree on the paths that pass a test and differ in all others. Behind a filter that lets
none of the others through they are the same (`AgreeOn.filter_eq`).

A boundary keeps that agreement if it puts files that pass at places that pass, and no others there
(`agreeOn_view`). Only the listing can be disturbed by other files, if it refuses two of them.
-/

namespace SchemaModules

open SchemaModules.Path (IsFile)

namespace Bucket

variable {passes visible : String → Bool} {left right : Bucket}

/-- Two buckets agree on the paths, in normal form, that pass a test. -/
structure AgreeOn (passes : String → Bool) (left right : Bucket) : Prop where
  contains : ∀ path, Path.normalize path = path → passes path = true →
    left.contains path = right.contains path
  read : ∀ path, Path.normalize path = path → passes path = true →
    left.read path = right.read path
  paths : left.paths.map (·.filter passes) = right.paths.map (·.filter passes)

/-- Two buckets refuse alike: where a place does not pass a test, the listing of one refuses two
files there if that of the other refuses the same. -/
def RefuseAlike (passes : String → Bool) (left right : Bucket) : Prop :=
  ∀ place first second, passes place = false →
    (left.paths = .error (.duplicatePath place first second) ↔
      right.paths = .error (.duplicatePath place first second))

theorem paths_filter (b : Bucket) : (b.filter visible).paths = b.paths.map (·.filter visible) := by
  cases listed : b.paths <;> simp only [Bucket.filter, listed] <;> rfl

/-- Behind a filter that lets none but paths that pass through, buckets that agree are the same. -/
theorem AgreeOn.filter_eq (agree : AgreeOn passes left right)
    (within : ∀ path, visible path = true → passes path = true) :
    left.filter visible = right.filter visible := by
  have lookups : (left.filter visible).contains = (right.filter visible).contains := by
    funext path
    simp only [Bucket.filter]
    cases shown : visible (Path.normalize path) with
    | false => rfl
    | true => rw [agree.contains _ (Path.normalize_normalize path) (within _ shown)]
  have reads : (left.filter visible).read = (right.filter visible).read := by
    funext path
    simp only [Bucket.filter]
    refine ite_congr rfl (fun shown => ?_) fun _ => rfl
    exact agree.read _ (Path.normalize_normalize path) (within _ shown)
  have listings : (left.filter visible).paths = (right.filter visible).paths := by
    have twice (x : Except ModuleError (List String)) :
        x.map (·.filter visible) = (x.map (·.filter passes)).map (·.filter visible) := by
      cases x with
      | error _ => rfl
      | ok list =>
          refine congrArg Except.ok ?_
          change list.filter visible = (list.filter passes).filter visible
          rw [List.filter_filter]
          refine List.filter_congr fun path _ => ?_
          cases shown : visible path with
          | false => rfl
          | true => rw [within path shown, Bool.and_true]
    rw [paths_filter, paths_filter, twice, agree.paths, ← twice]
  exact Bucket.mk.injEq .. ▸ ⟨lookups, reads, listings⟩

/-- Files in memory that are the same where paths pass make buckets that agree. -/
theorem agreeOn_toBucket {left right : MemoryBucket}
    (same : ∀ path, passes path = true → left.fileMap.find? path = right.fileMap.find? path) :
    AgreeOn passes left.toBucket right.toBucket where
  contains path normal passed := by
    simp only [MemoryBucket.toBucket, SortedMap.contains, normal, same path passed]
  read path normal passed := by
    simp only [MemoryBucket.toBucket, normal, same path passed]
  paths := congrArg Except.ok (SortedMap.keys_filter_congr same)

end Bucket

namespace Boundary

variable {b : Boundary} {passes : String → Bool}

theorem ne_top_of_passes (top : passes "." = false) {path : String} (passed : passes path = true) :
    path ≠ "." := by
  rintro rfl
  exact absurd (top.symm.trans passed) Bool.false_ne_true

section View

variable (wf : b.WellFormed)
  (kept : ∀ file place, b.Maps file place → passes file = passes place)
include wf kept

/-! ## Noting a file -/

/-- A file that passes is noted alike where the places that pass are taken alike. -/
theorem note_congr {s t : SortedMap String String}
    (agree : ∀ place, passes place = true → s.find? place = t.find? place) {file : String}
    (valid : IsFile file) (passed : passes file = true) :
    (∃ error, b.note s file = .error error ∧ b.note t file = .error error) ∨
      ∃ s' t', b.note s file = .ok s' ∧ b.note t file = .ok t' ∧
        ∀ place, passes place = true → s'.find? place = t'.find? place := by
  obtain ⟨found, placed⟩ := place?_total wf valid
  cases found with
  | none => exact .inr ⟨s, t, note_unplaced placed, note_unplaced placed, agree⟩
  | some place =>
      have mapped : b.Maps file place := (place?_eq_ok_some_iff wf valid).mp placed
      have same := agree place (kept file place mapped ▸ passed)
      cases taken : s.find? place with
      | some first =>
          exact .inl ⟨_, note_taken placed taken, note_taken placed (same ▸ taken)⟩
      | none =>
          refine .inr ⟨_, _, note_free placed taken, note_free placed (same ▸ taken), ?_⟩
          intro other passedOther
          rw [SortedMap.find?_insert, SortedMap.find?_insert, agree other passedOther]

/-- A file that does not pass makes no difference to the places that pass, unless it is refused. -/
theorem note_other (s : SortedMap String String) {file : String} (valid : IsFile file)
    (failed : passes file = false) :
    (∃ place first second, passes place = false ∧
        b.note s file = .error (.duplicatePath place first second)) ∨
      ∃ s', b.note s file = .ok s' ∧
        ∀ place, passes place = true → s'.find? place = s.find? place := by
  obtain ⟨found, placed⟩ := place?_total wf valid
  cases found with
  | none => exact .inr ⟨s, note_unplaced placed, fun _ _ => rfl⟩
  | some place =>
      have same := kept file place ((place?_eq_ok_some_iff wf valid).mp placed)
      rw [failed] at same
      cases taken : s.find? place with
      | some first => exact .inl ⟨place, first, file, same.symm, note_taken placed taken⟩
      | none =>
          refine .inr ⟨_, note_free placed taken, fun other passedOther => ?_⟩
          have apart : other ≠ place := by
            rintro rfl
            exact absurd (same.trans passedOther) Bool.false_ne_true
          rw [SortedMap.find?_insert, if_neg apart]

/-! ## The listing -/

/-- Noting files comes to the same at the places that pass as noting those of them that pass, unless
two others are refused. -/
theorem note_run_filter {files : List String} {s t : SortedMap String String}
    (agree : ∀ place, passes place = true → s.find? place = t.find? place)
    (valid : ∀ file ∈ files, IsFile file) :
    (∃ place first second, passes place = false ∧
        files.foldlM b.note s = .error (.duplicatePath place first second)) ∨
      (files.foldlM b.note s).map (·.keys.filter passes) =
        ((files.filter passes).foldlM b.note t).map (·.keys.filter passes) := by
  -- Files that pass are noted in step on both sides, the others on the left side alone.
  induction files generalizing s t with
  | nil => exact .inr (congrArg Except.ok (SortedMap.keys_filter_congr agree))
  | cons file rest ih =>
      have here := valid file List.mem_cons_self
      have later : ∀ other ∈ rest, IsFile other :=
        fun other member => valid other (List.mem_cons_of_mem _ member)
      rw [List.foldlM_cons]
      cases passed : passes file with
      | true =>
          rw [List.filter_cons_of_pos passed, List.foldlM_cons]
          rcases note_congr wf kept agree here passed with
            ⟨error, first, second⟩ | ⟨s', t', first, second, next⟩
          · rw [first, second]
            exact .inr rfl
          · rw [first, second]
            exact ih next later
      | false =>
          rw [List.filter_cons_of_neg (by simp [passed])]
          rcases note_other wf kept s here passed with
            ⟨place, first, second, elsewhere, refused⟩ | ⟨s', noted, same⟩
          · rw [refused]
            exact .inl ⟨place, first, second, elsewhere, rfl⟩
          · rw [noted]
            exact ih (fun place passed => (same place passed).trans (agree place passed)) later

theorem paths_view_filter {workspace : Bucket} {files : List String}
    (listed : workspace.paths = .ok files) (valid : ∀ file ∈ files, IsFile file) :
    (∃ place first second, passes place = false ∧
        (b.view workspace).paths = .error (.duplicatePath place first second)) ∨
      (b.view workspace).paths.map (·.filter passes) =
        ((files.filter passes).foldlM b.note SortedMap.empty).map (·.keys.filter passes) := by
  have whole : (b.view workspace).paths =
      (files.foldlM b.note SortedMap.empty).map SortedMap.keys := by
    simp only [view, listed]
    rfl
  rw [whole]
  rcases note_run_filter wf kept (fun _ _ => rfl) valid with
    ⟨place, first, second, elsewhere, refused⟩ | same
  · rw [refused]
    exact .inl ⟨place, first, second, elsewhere, rfl⟩
  · refine .inr (Eq.trans ?_ same)
    cases files.foldlM b.note SortedMap.empty <;> rfl

/-! ## The view of buckets that agree -/

variable {left right : Bucket} (top : passes "." = false)
  (agree : Bucket.AgreeOn passes left right)
include top agree

theorem source?_congr {path : String} (normal : Path.normalize path = path)
    (passed : passes path = true) : b.source? left path = b.source? right path := by
  unfold source?
  cases valid : Path.validate path with
  | error _ => rfl
  | ok place =>
      obtain rfl : path = place := normal.symm.trans (Path.normalize_of_validate valid)
      have file : IsFile path := ⟨valid, ne_top_of_passes top passed⟩
      refine List.find?_congr fun source member => ?_
      have mapped := (mem_sources_iff wf file).mp member
      exact agree.contains source (mapped.isFile_source wf).normalize_eq
        ((kept source path mapped).trans passed)

/-- Seen through a boundary, buckets that agree still agree, if they refuse alike. -/
theorem agreeOn_view (leftValid : ∀ paths, left.paths = .ok paths → ∀ path ∈ paths, IsFile path)
    (rightValid : ∀ paths, right.paths = .ok paths → ∀ path ∈ paths, IsFile path)
    (alike : Bucket.RefuseAlike passes (b.view left) (b.view right)) :
    Bucket.AgreeOn passes (b.view left) (b.view right) where
  contains path normal passed := by
    simp only [view, source?_congr wf kept top agree normal passed]
  read path normal passed := by
    have same := source?_congr wf kept top agree normal passed
    cases found : b.source? right path with
    | none => simp only [view, same, found]
    | some source =>
        obtain ⟨place, valid, -⟩ := source?_eq_some_iff.mp found
        obtain rfl : path = place := normal.symm.trans (Path.normalize_of_validate valid)
        have mapped := maps_of_source? wf ⟨valid, ne_top_of_passes top passed⟩ normal found
        simp only [view, same, found]
        exact agree.read source (mapped.isFile_source wf).normalize_eq
          ((kept source path mapped).trans passed)
  paths := by
    have listings := agree.paths
    cases first : left.paths with
    | error error =>
        cases second : right.paths with
        | ok _ => rw [first, second] at listings; cases listings
        | error other =>
            rw [first, second] at listings
            cases listings
            simp only [view, first, second, bind, Except.bind]
    | ok files =>
        cases second : right.paths with
        | error _ => rw [first, second] at listings; cases listings
        | ok others =>
            rw [first, second] at listings
            have same : files.filter passes = others.filter passes := Except.ok.inj listings
            rcases paths_view_filter wf kept first (leftValid files first) with
              ⟨place, one, two, elsewhere, refused⟩ | leftListing
            · rw [refused, (alike place one two elsewhere).mp refused]
            · rcases paths_view_filter wf kept second (rightValid others second) with
                ⟨place, one, two, elsewhere, refused⟩ | rightListing
              · rw [refused, (alike place one two elsewhere).mpr refused]
              · rw [leftListing, rightListing, same]

end View

end Boundary

end SchemaModules
