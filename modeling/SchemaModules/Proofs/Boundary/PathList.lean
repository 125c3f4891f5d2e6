import Mathlib.Data.List.Pairwise
import SchemaModules.Proofs.Boundary.Construction

/-! # Lists of paths that lie apart

A list of paths that is accepted as it is declared has a normal form for each of them, and none of
these lies in another (`normalizeList_eq_ok_iff`). Whether it is, and which normal forms it then has
in ascending order, does not depend on the order of the list (`normalizeList_spec`). What is
reported of a list that is not accepted is there: a normal form that occurs again, or two of which
one lies in the other (`normalizeList_error_cases`).
-/

namespace SchemaModules

open SchemaModules.Path (LiesIn)

/-- Paths in normal form, none of which lies in another. -/
structure Path.AreApart (paths : List String) : Prop where
  valid : ∀ path ∈ paths, validate path = .ok path
  eq_of_inner : ∀ a ∈ paths, ∀ b ∈ paths, LiesIn b a → a = b

namespace Path.AreApart

variable {paths : List String}

/-- Of paths that lie apart, a path lies in one at most. -/
theorem eq_of_liesIn (apart : AreApart paths) {a b path : String} (first : a ∈ paths)
    (second : b ∈ paths) (left : LiesIn path a) (right : LiesIn path b) : a = b := by
  rcases List.prefix_or_prefix_of_prefix left right with above | below
  · exact apart.eq_of_inner a first b second above
  · exact (apart.eq_of_inner b second a first below).symm

theorem mono (apart : AreApart paths) {others : List String}
    (fewer : ∀ path ∈ others, path ∈ paths) : AreApart others :=
  ⟨fun path member => apart.valid path (fewer path member),
    fun a first b second => apart.eq_of_inner a (fewer a first) b (fewer b second)⟩

end Path.AreApart

namespace Boundary

open SchemaModules.Path (AreApart)

variable {name : String} {paths : List String}

/-! ## Checks -/

theorem firstDuplicate?_eq_none_iff : firstDuplicate? paths = none ↔ paths.Nodup := by
  induction paths with
  | nil => simp [firstDuplicate?]
  | cons a rest ih =>
      rw [firstDuplicate?, List.nodup_cons]
      by_cases again : a ∈ rest
      · simp [again]
      · simp [again, ih]

/-- Paths in normal form lie apart and are distinct if no two of them lie in each other. -/
theorem pairwise_liesIn_iff (valid : ∀ path ∈ paths, Path.validate path = .ok path) :
    (paths.Pairwise fun a b => ¬ LiesIn b a ∧ ¬ LiesIn a b) ↔ paths.Nodup ∧ AreApart paths := by
  constructor
  · intro separate
    have distinct : paths.Nodup := by
      refine separate.imp ?_
      rintro a _ apart rfl
      exact apart.1 List.prefix_rfl
    have : Std.Symm fun a b : String => ¬ LiesIn b a ∧ ¬ LiesIn a b := ⟨fun _ _ => And.symm⟩
    refine ⟨distinct, valid, fun a first b second inner => ?_⟩
    by_contra differ
    exact (separate.forall first second differ).1 inner
  · rintro ⟨distinct, apart⟩
    refine distinct.pairwise_of_forall_ne fun a first b second differ => ⟨?_, ?_⟩
    · exact fun inner => differ (apart.eq_of_inner a first b second inner)
    · exact fun inner => differ (apart.eq_of_inner b second a first inner).symm

/-- Distinct paths in normal form pass the check of lying apart if they do. -/
theorem checkApart_iff_areApart (valid : ∀ path ∈ paths, Path.validate path = .ok path)
    (distinct : paths.Nodup) : checkApart name paths = .ok () ↔ AreApart paths := by
  rw [checkApart_iff_liesIn valid, pairwise_liesIn_iff valid, and_iff_right distinct]

theorem checkWithin_eq_ok_iff {root : String} : checkWithin root name paths = .ok () ↔
    ∀ path ∈ paths, Path.contains root path .relative = true := by
  refine ⟨contains_of_checkWithin, fun within => ?_⟩
  have none : paths.find? (fun path => !Path.contains root path .relative) = none :=
    List.find?_eq_none.mpr fun path member => by simp [within path member]
  rw [checkWithin, none]

/-! ## Normal forms -/

theorem normalizeEntry_eq_ok_iff {path normal : String} :
    normalizeEntry name path = .ok normal ↔ path ≠ "" ∧ Path.validate path = .ok normal := by
  unfold normalizeEntry
  by_cases empty : path = ""
  · simp [empty]
  · simp [empty]

/-- A list is accepted if each of its paths has a normal form, and these are distinct and lie
apart. -/
theorem normalizeList_eq_ok_iff {normal : List String} :
    normalizeList name paths = .ok normal ↔ ∃ given,
      List.Forall₂ (fun path result => path ≠ "" ∧ Path.validate path = .ok result) paths given ∧
        given.mergeSort (· ≤ ·) = normal ∧ normal.Nodup ∧ AreApart normal := by
  unfold normalizeList
  rw [Outcome.bind_eq_ok_iff]
  refine exists_congr fun given => ?_
  simp only [Outcome.mapM_eq_ok_iff, normalizeEntry_eq_ok_iff]
  refine and_congr_right fun each => ?_
  have valid : ∀ path ∈ given.mergeSort (· ≤ ·), Path.validate path = .ok path := by
    intro path member
    obtain ⟨_, -, -, normal⟩ := Outcome.exists_of_forall₂ each (List.mem_mergeSort.mp member)
    exact Path.validate_of_validate normal
  cases repeated : firstDuplicate? (given.mergeSort (· ≤ ·)) with
  | some path =>
      refine iff_of_false (fun accepted => ?_) ?_
      · simp [Outcome.bind_eq_ok_iff] at accepted
      · rintro ⟨rfl, distinct, -⟩
        rw [firstDuplicate?_eq_none_iff.mpr distinct] at repeated
        cases repeated
  | none =>
      have distinct := firstDuplicate?_eq_none_iff.mp repeated
      simp only [Outcome.bind_eq_ok_iff, Outcome.mapError_eq_ok_iff, Outcome.pure_eq_ok_iff,
        checkApart_iff_areApart valid distinct]
      constructor
      · rintro ⟨⟨⟩, apart, rfl⟩
        exact ⟨rfl, distinct, apart⟩
      · rintro ⟨rfl, -, apart⟩
        exact ⟨(), apart, rfl⟩

/-- Each path of a list has a normal form if it is not empty and validation accepts it. -/
theorem forall₂_validate_iff {given : List String} :
    List.Forall₂ (fun path result => path ≠ "" ∧ Path.validate path = .ok result) paths given ↔
      (∀ path ∈ paths, path ≠ "" ∧ Path.validate path = .ok (Path.normalize path)) ∧
        given = paths.map Path.normalize := by
  constructor
  · intro each
    induction each with
    | nil => simp
    | cons here _ ih =>
        have normal := Path.normalize_of_validate here.2
        subst normal
        exact ⟨List.forall_mem_cons.mpr ⟨here, ih.1⟩, congrArg (_ :: ·) ih.2⟩
  · rintro ⟨usable, rfl⟩
    rw [List.forall₂_map_right_iff, List.forall₂_same]
    exact usable

/-- A list is accepted if each of its paths has a normal form and no two of these lie in each other.
Its result is the normal forms in ascending order. -/
theorem normalizeList_eq_ok_iff_pairwise {normal : List String} :
    normalizeList name paths = .ok normal ↔
      (∀ path ∈ paths, path ≠ "" ∧ Path.validate path = .ok (Path.normalize path)) ∧
      ((paths.map Path.normalize).Pairwise fun a b => ¬ LiesIn b a ∧ ¬ LiesIn a b) ∧
      normal.Perm (paths.map Path.normalize) ∧ normal.Pairwise (· ≤ ·) := by
  have symmetric : ∀ {a b : String}, (¬ LiesIn b a ∧ ¬ LiesIn a b) → ¬ LiesIn a b ∧ ¬ LiesIn b a :=
    And.symm
  simp only [normalizeList_eq_ok_iff, forall₂_validate_iff]
  constructor
  · rintro ⟨_, ⟨usable, rfl⟩, rfl, distinct, apart⟩
    have perm := List.mergeSort_perm (paths.map Path.normalize) (· ≤ ·)
    have separate := (pairwise_liesIn_iff apart.valid).mpr ⟨distinct, apart⟩
    exact ⟨usable, (perm.pairwise_iff symmetric).mp separate, perm, Text.pairwise_mergeSort _⟩
  · rintro ⟨usable, separate, perm, sorted⟩
    have valid : ∀ path ∈ normal, Path.validate path = .ok path := by
      intro path member
      obtain ⟨source, among, rfl⟩ := List.mem_map.mp (perm.mem_iff.mp member)
      exact Path.validate_of_validate (usable source among).2
    obtain ⟨distinct, apart⟩ :=
      (pairwise_liesIn_iff valid).mp ((perm.pairwise_iff symmetric).mpr separate)
    refine ⟨_, ⟨usable, rfl⟩, ?_, distinct, apart⟩
    rw [← Text.mergeSort_eq_of_perm perm]
    exact List.mergeSort_of_pairwise (sorted.imp decide_eq_true)

/-! ## What is reported -/

theorem count_of_firstDuplicate? {path : String} (found : firstDuplicate? paths = some path) :
    2 ≤ paths.count path := by
  induction paths with
  | nil => simp [firstDuplicate?] at found
  | cons a rest ih =>
      rw [firstDuplicate?] at found
      split at found
      · next again =>
          obtain rfl := Option.some.inj found
          have later := List.count_pos_iff.mpr again
          rw [List.count_cons_self]
          omega
      · exact (ih found).trans (List.count_le_count_cons ..)

/-- The inner of two overlapping paths is reported before the outer. -/
theorem overlap?_eq_some {a b inner outer : String} (overlap : overlap? a b = some (inner, outer)) :
    (inner = b ∧ outer = a ∨ inner = a ∧ outer = b) ∧
      Path.equalsOrContains outer inner .relative = true := by
  unfold overlap? at overlap
  split at overlap
  · next above =>
      obtain ⟨rfl, rfl⟩ := Prod.mk.inj (Option.some.inj overlap)
      exact ⟨.inl ⟨rfl, rfl⟩, above⟩
  · split at overlap
    · next below =>
        obtain ⟨rfl, rfl⟩ := Prod.mk.inj (Option.some.inj overlap)
        exact ⟨.inr ⟨rfl, rfl⟩, below⟩
    · cases overlap

/-- Of distinct paths two are reported of which one contains the other. -/
theorem exists_overlap_of_checkApart {error : PlacementError} (distinct : paths.Nodup)
    (failed : checkApart name paths = .error error) : ∃ inner ∈ paths, ∃ outer ∈ paths,
      error = .overlap name inner outer ∧ inner ≠ outer ∧
        Path.equalsOrContains outer inner .relative = true := by
  induction paths with
  | nil => simp [checkApart] at failed
  | cons a rest ih =>
      obtain ⟨fresh, later⟩ := List.nodup_cons.mp distinct
      rw [checkApart] at failed
      split at failed
      · next inner outer found =>
          obtain rfl := Except.error.inj failed
          obtain ⟨b, member, overlap⟩ := List.exists_of_findSome?_eq_some found
          have differ : b ≠ a := ne_of_mem_of_not_mem member fresh
          obtain ⟨⟨rfl, rfl⟩ | ⟨rfl, rfl⟩, contained⟩ := overlap?_eq_some overlap
          · exact ⟨_, List.mem_cons_of_mem _ member, _, List.mem_cons_self, rfl, differ, contained⟩
          · exact ⟨_, List.mem_cons_self, _, List.mem_cons_of_mem _ member, rfl, differ.symm,
              contained⟩
      · obtain ⟨inner, inside, outer, outside, reported⟩ := ih later failed
        exact ⟨inner, List.mem_cons_of_mem _ inside, outer, List.mem_cons_of_mem _ outside,
          reported⟩

/-- A list is refused for one of its paths, or else for its normal forms: one of them occurs again,
or one lies in another. -/
theorem normalizeList_error_cases {error : BoundaryError}
    (failed : normalizeList name paths = .error error) :
    (∃ path ∈ paths, normalizeEntry name path = .error error) ∨
    (∃ path, error = .duplicate name path ∧ 2 ≤ (paths.map Path.normalize).count path) ∨
    ∃ inner ∈ paths.map Path.normalize, ∃ outer ∈ paths.map Path.normalize,
      error = .placement (.overlap name inner outer) ∧ LiesIn inner outer ∧ inner ≠ outer := by
  unfold normalizeList at failed
  rcases Outcome.bind_eq_error_iff.mp failed with entry | ⟨given, normalized, remaining⟩
  · exact .inl (Outcome.exists_of_mapM_error entry)
  simp only [Outcome.mapM_eq_ok_iff, normalizeEntry_eq_ok_iff, forall₂_validate_iff] at normalized
  obtain ⟨usable, rfl⟩ := normalized
  have perm := List.mergeSort_perm (paths.map Path.normalize) (· ≤ ·)
  cases repeated : firstDuplicate? ((paths.map Path.normalize).mergeSort (· ≤ ·)) with
  | some path =>
      simp only [repeated] at remaining
      obtain rfl := Except.error.inj remaining
      exact .inr (.inl ⟨path, rfl, perm.count_eq path ▸ count_of_firstDuplicate? repeated⟩)
  | none =>
      simp only [repeated] at remaining
      rcases Outcome.bind_eq_error_iff.mp remaining with overlap | ⟨_, -, impossible⟩
      · obtain ⟨_, refused, rfl⟩ := Outcome.mapError_eq_error_iff.mp overlap
        obtain ⟨inner, inside, outer, outside, rfl, differ, contained⟩ :=
          exists_overlap_of_checkApart (firstDuplicate?_eq_none_iff.mp repeated) refused
        rw [perm.mem_iff] at inside outside
        have valid : ∀ path ∈ paths.map Path.normalize, Path.validate path = .ok path := by
          intro path member
          obtain ⟨source, among, rfl⟩ := List.mem_map.mp member
          exact Path.validate_of_validate (usable source among).2
        have lies :=
          (Path.equalsOrContains_iff_liesIn (valid outer outside) (valid inner inside)).mp contained
        exact .inr (.inr ⟨inner, inside, outer, outside, rfl, lies, differ⟩)
      · cases impossible

theorem normalizeEntry_eq_error {path : String} {error : BoundaryError}
    (failed : normalizeEntry name path = .error error) :
    error = .emptyPath name ∨ ∃ e, error = .path e := by
  unfold normalizeEntry at failed
  split at failed
  · exact .inl (Except.error.inj failed).symm
  · obtain ⟨e, -, rfl⟩ := Outcome.mapError_eq_error_iff.mp failed
    exact .inr ⟨e, rfl⟩

/-- What is wrong with a list is the doing of who wrote it. -/
theorem kind_of_normalizeList {error : BoundaryError}
    (failed : normalizeList name paths = .error error) : error.kind = .user := by
  rcases normalizeList_error_cases failed with ⟨path, -, entry⟩ | ⟨path, rfl, -⟩ |
    ⟨inner, -, outer, -, rfl, -⟩
  · rcases normalizeEntry_eq_error entry with rfl | ⟨e, rfl⟩ <;> rfl
  · rfl
  · rfl

/-- A list is accepted exactly if its paths are not empty, have normal forms inside, and none of
these equals another or lies in it. Its result is the normal forms in ascending order, whatever the
order of the list, and is accepted as it is. A normal form that is reported to occur again does, and
of two that are reported to overlap the inner lies strictly in the outer. -/
theorem normalizeList_spec (name : String) (paths : List String) :
    (∀ normal, normalizeList name paths = .ok normal ↔
      (∀ path ∈ paths, path ≠ "" ∧ Path.validate path = .ok (Path.normalize path)) ∧
      ((paths.map Path.normalize).Pairwise fun a b => ¬ LiesIn b a ∧ ¬ LiesIn a b) ∧
      normal.Perm (paths.map Path.normalize) ∧ normal.Pairwise (· ≤ ·)) ∧
    (∀ normal others, normalizeList name paths = .ok normal → others.Perm paths →
      normalizeList name others = .ok normal) ∧
    (∀ normal, normalizeList name paths = .ok normal → normalizeList name normal = .ok normal) ∧
    (∀ list path, normalizeList name paths = .error (.duplicate list path) →
      list = name ∧ 2 ≤ (paths.map Path.normalize).count path) ∧
    ∀ list inner outer,
      normalizeList name paths = .error (.placement (.overlap list inner outer)) →
      list = name ∧ inner ∈ paths.map Path.normalize ∧ outer ∈ paths.map Path.normalize ∧
        LiesIn inner outer ∧ inner ≠ outer := by
  refine ⟨fun normal => normalizeList_eq_ok_iff_pairwise, ?_, ?_, ?_, ?_⟩
  · intro normal others accepted perm
    obtain ⟨usable, separate, same, sorted⟩ := normalizeList_eq_ok_iff_pairwise.mp accepted
    have forms := perm.map Path.normalize
    refine normalizeList_eq_ok_iff_pairwise.mpr ⟨?_, ?_, same.trans forms.symm, sorted⟩
    · exact fun path member => usable path (perm.mem_iff.mp member)
    · exact (forms.pairwise_iff And.symm).mpr separate
  · intro normal accepted
    obtain ⟨usable, separate, same, sorted⟩ := normalizeList_eq_ok_iff_pairwise.mp accepted
    have each : ∀ path ∈ normal, path ≠ "" ∧ Path.validate path = .ok path := by
      intro path member
      obtain ⟨source, among, rfl⟩ := List.mem_map.mp (same.mem_iff.mp member)
      exact ⟨Path.text_ne_empty _, Path.validate_of_validate (usable source among).2⟩
    have again : normal.map Path.normalize = normal :=
      (List.map_congr_left fun path member => Path.normalize_of_validate (each path member).2).trans
        (List.map_id _)
    refine normalizeList_eq_ok_iff_pairwise.mpr ⟨?_, ?_, again.symm ▸ .refl _, sorted⟩
    · intro path member
      rw [Path.normalize_of_validate (each path member).2]
      exact each path member
    · rw [again]
      exact (same.pairwise_iff And.symm).mpr separate
  · intro list path refused
    rcases normalizeList_error_cases refused with ⟨_, -, entry⟩ | ⟨_, same, count⟩ |
      ⟨_, -, _, -, impossible, -⟩
    · rcases normalizeEntry_eq_error entry with impossible | ⟨_, impossible⟩ <;> cases impossible
    · obtain ⟨rfl, rfl⟩ := BoundaryError.duplicate.inj same
      exact ⟨rfl, count⟩
    · cases impossible
  · intro list inner outer refused
    rcases normalizeList_error_cases refused with ⟨_, -, entry⟩ | ⟨_, impossible, -⟩ |
      ⟨_, inside, _, outside, same, lies, differ⟩
    · rcases normalizeEntry_eq_error entry with impossible | ⟨_, impossible⟩ <;> cases impossible
    · cases impossible
    · obtain ⟨rfl, rfl, rfl⟩ := PlacementError.overlap.inj (BoundaryError.placement.inj same)
      exact ⟨rfl, inside, outside, lies, differ⟩

/-- An accepted list in two orders, one in which a path is repeated in another spelling, and one in
which a path lies in another. -/
theorem normalizeList_spec_of_three_lists :
    (normalizeList "root" ["b", "./a/", "a-b"] = .ok ["a", "a-b", "b"] ∧
      normalizeList "root" ["a-b", "b", "./a/"] = .ok ["a", "a-b", "b"] ∧
      normalizeList "root" ["a", "a-b", "b"] = .ok ["a", "a-b", "b"]) ∧
    (normalizeList "root" ["a", "./a"] = .error (.duplicate "root" "a") ∧
      2 ≤ (["a", "./a"].map Path.normalize).count "a") ∧
    (normalizeList "root" ["a", "a/b"] = .error (.placement (.overlap "root" "a/b" "a")) ∧
      LiesIn "a/b" "a") := by
  obtain ⟨accepted, perm, again, -⟩ := normalizeList_spec "root" ["b", "./a/", "a-b"]
  have first := (accepted ["a", "a-b", "b"]).mpr
    ⟨by decide, by decide, by decide, by decide⟩
  refine ⟨⟨first, perm _ _ first (by decide), again _ first⟩, ?_, ?_⟩
  · have repeated : normalizeList "root" ["a", "./a"] = .error (.duplicate "root" "a") := by
      have forms : ["a", "./a"].mapM (normalizeEntry "root") = .ok ["a", "a"] := by rfl
      have sorted : ["a", "a"].mergeSort (· ≤ ·) = ["a", "a"] :=
        List.mergeSort_of_pairwise (by decide)
      refine Outcome.bind_eq_error_iff.mpr (.inr ⟨_, forms, ?_⟩)
      simp only [sorted]
      rfl
    obtain ⟨-, -, -, duplicate, -⟩ := normalizeList_spec "root" ["a", "./a"]
    exact ⟨repeated, (duplicate _ _ repeated).2⟩
  · have nested : normalizeList "root" ["a", "a/b"] =
        .error (.placement (.overlap "root" "a/b" "a")) := by
      have forms : ["a", "a/b"].mapM (normalizeEntry "root") = .ok ["a", "a/b"] := by rfl
      have sorted : ["a", "a/b"].mergeSort (· ≤ ·) = ["a", "a/b"] :=
        List.mergeSort_of_pairwise (by decide)
      have inner : Path.equalsOrContains "a" "a/b" .relative = true :=
        (Path.equalsOrContains_iff_liesIn (by decide) (by decide)).mpr (by decide)
      refine Outcome.bind_eq_error_iff.mpr (.inr ⟨_, forms, ?_⟩)
      have apart : checkApart "root" ["a", "a/b"] = .error (.overlap "root" "a/b" "a") := by
        simp [checkApart, overlap?, inner]
      simp only [sorted, apart]
      rfl
    obtain ⟨-, -, -, -, overlap⟩ := normalizeList_spec "root" ["a", "a/b"]
    exact ⟨nested, (overlap _ _ _ nested).2.2.2.1⟩

end Boundary

end SchemaModules
