import SchemaModules.Boundary.Basic
import SchemaModules.Proofs.Outcome
import SchemaModules.Proofs.Path.Containment
import SchemaModules.Proofs.SortedMap

/-! # What the construction of a boundary establishes

`Boundary.make` succeeds on parts that pass its checks, and gives the boundary of their normal forms
(`make_eq_ok_iff`). A boundary that it gives is well formed (`wellFormed_of_make`): its paths are in
normal form, its two maps have the same roots, which lie apart, and its filters lie below their
roots.
-/

namespace SchemaModules

/-- A root with paths in normal form and filters strictly below it. -/
structure Root.WellFormed (root : Root) : Prop where
  path_valid : Path.validate root.path = .ok root.path
  includes_valid : ∀ directory ∈ root.includes, Path.validate directory = .ok directory
  excludes_valid : ∀ directory ∈ root.excludes, Path.validate directory = .ok directory
  excludes_within : ∀ directory ∈ root.excludes,
    Path.contains root.path directory .relative = true

namespace Boundary

/-- A boundary with paths in normal form, which has the same roots for includes and excludes, none of
them in another. -/
structure WellFormed (b : Boundary) : Prop where
  dirPath_valid : Path.validate b.dirPath = .ok b.dirPath
  same_roots : b.includesByRoot.keys = b.excludesByRoot.keys
  roots_wellFormed : ∀ root ∈ b.roots, root.WellFormed
  roots_apart : b.roots.Pairwise fun r s => ¬ Path.LiesIn s.path r.path ∧ ¬ Path.LiesIn r.path s.path

/-- A boundary that was made out of parts. -/
def IsConstructed (b : Boundary) : Prop :=
  ∃ version dirPath fullName includes excludes,
    make version dirPath fullName includes excludes = .ok b

/-! ## The checks -/

/-- Paths pass the check of lying apart if no two of them overlap. -/
theorem checkApart_eq_ok_iff {name : String} {paths : List String} :
    checkApart name paths = .ok () ↔
      paths.Pairwise fun a b => Path.equalsOrContains a b .relative = false ∧
        Path.equalsOrContains b a .relative = false := by
  induction paths with
  | nil => simp [checkApart]
  | cons a rest ih =>
      have free : ∀ b, overlap? a b = none ↔ Path.equalsOrContains a b .relative = false ∧
          Path.equalsOrContains b a .relative = false := by
        intro b
        unfold overlap?
        cases Path.equalsOrContains a b .relative <;>
          cases Path.equalsOrContains b a .relative <;> simp
      rw [List.pairwise_cons, ← ih, checkApart]
      cases overlapping : rest.findSome? (overlap? a) with
      | some pair =>
          obtain ⟨b, member, overlaps⟩ := List.exists_of_findSome?_eq_some overlapping
          refine iff_of_false (nomatch ·) fun both => ?_
          rw [(free b).mpr (both.1 b member)] at overlaps
          cases overlaps
      | none =>
          refine (and_iff_right fun b member => ?_).symm
          exact (free b).mp (List.findSome?_eq_none_iff.mp overlapping b member)

/-- Paths pass the check of lying within a root if the root strictly contains each. -/
theorem contains_of_checkWithin {root name : String} {paths : List String}
    (passed : checkWithin root name paths = .ok ()) :
    ∀ path ∈ paths, Path.contains root path .relative = true := by
  intro path member
  unfold checkWithin at passed
  cases outside : paths.find? fun path => !Path.contains root path .relative with
  | some path => simp [outside] at passed
  | none => simpa using List.find?_eq_none.mp outside path member

/-- Valid paths pass the check of lying apart if none lies in another. -/
theorem checkApart_iff_liesIn {name : String} {paths : List String}
    (valid : ∀ path ∈ paths, Path.validate path = .ok path) :
    checkApart name paths = .ok () ↔
      paths.Pairwise fun a b => ¬ Path.LiesIn b a ∧ ¬ Path.LiesIn a b := by
  rw [checkApart_eq_ok_iff]
  refine List.Pairwise.iff_of_mem fun {a b} first second => ?_
  rw [← Path.equalsOrContains_iff_liesIn (valid a first) (valid b second),
    ← Path.equalsOrContains_iff_liesIn (valid b second) (valid a first),
    Bool.not_eq_true, Bool.not_eq_true]

/-! ## Normal forms -/

theorem valid_of_normalizeSet {paths normalized : List String}
    (given : normalizeSet paths = .ok normalized) :
    ∀ path ∈ normalized, Path.validate path = .ok path := by
  obtain ⟨valid, each, equal⟩ := Outcome.bind_eq_ok_iff.mp given
  obtain rfl := Outcome.pure_eq_ok_iff.mp equal
  intro path member
  rw [SortedMap.mem_sortedSet] at member
  obtain ⟨source, -, result⟩ := Outcome.exists_of_mem_mapM each member
  exact Path.validate_of_validate result

/-- The normal forms of roots are those of the given ones, each with the normal forms of directories
that are given for it. -/
theorem sources_of_normalizeRoots {paths normalized : RootPaths}
    (given : normalizeRoots paths = .ok normalized) :
    (∀ e ∈ normalized.entries, ∃ source ∈ paths.entries, Path.validate source.1 = .ok e.1 ∧
        normalizeSet source.2 = .ok e.2) ∧
      ∀ source ∈ paths.entries, ∃ root ∈ normalized.keys, Path.validate source.1 = .ok root := by
  refine Outcome.foldlM_carries (fun (done : List (String × List String)) (m : RootPaths) =>
    (∀ e ∈ m.entries, ∃ source ∈ done, Path.validate source.1 = .ok e.1 ∧
        normalizeSet source.2 = .ok e.2) ∧
      ∀ source ∈ done, ∃ root ∈ m.keys, Path.validate source.1 = .ok root) ?_ ?_ given
  · intro done source _ _ before after ⟨sources, results⟩ step
    obtain ⟨root, rootValid, remaining⟩ := Outcome.bind_eq_ok_iff.mp step
    obtain ⟨directories, directoriesValid, equal⟩ := Outcome.bind_eq_ok_iff.mp remaining
    obtain rfl := Outcome.pure_eq_ok_iff.mp equal
    refine ⟨?_, ?_⟩
    · intro e member
      rcases SortedMap.mem_insertEntry member with rfl | earlier
      · exact ⟨source, List.mem_append_cons_self, rootValid, directoriesValid⟩
      · obtain ⟨other, among, result⟩ := sources e earlier
        exact ⟨other, List.mem_append_left _ among, result⟩
    · intro other member
      rcases List.mem_append.mp member with earlier | last
      · obtain ⟨known, among, valid⟩ := results other earlier
        exact ⟨known, (SortedMap.mem_keys_insert ..).mpr (.inr among), valid⟩
      · rw [List.mem_singleton.mp last]
        exact ⟨root, (SortedMap.mem_keys_insert ..).mpr (.inl rfl), rootValid⟩
  · exact ⟨fun _ member => absurd member List.not_mem_nil,
      fun _ member => absurd member List.not_mem_nil⟩

/-- The normal forms of roots and of their directories are valid paths. -/
theorem valid_of_normalizeRoots {paths normalized : RootPaths}
    (given : normalizeRoots paths = .ok normalized) :
    ∀ e ∈ normalized.entries, Path.validate e.1 = .ok e.1 ∧
      ∀ path ∈ e.2, Path.validate path = .ok path := by
  intro e member
  obtain ⟨_, -, rootValid, directoriesValid⟩ := (sources_of_normalizeRoots given).1 e member
  exact ⟨Path.validate_of_validate rootValid, valid_of_normalizeSet directoriesValid⟩

/-- Normal forms of the same roots are the same roots. -/
theorem keys_eq_of_normalizeRoots {includes excludes included excluded : RootPaths}
    (same : includes.keys = excludes.keys) (left : normalizeRoots includes = .ok included)
    (right : normalizeRoots excludes = .ok excluded) : included.keys = excluded.keys := by
  have mem_iff : ∀ {paths normalized : RootPaths}, normalizeRoots paths = .ok normalized →
      ∀ root, root ∈ normalized.keys ↔ ∃ given ∈ paths.keys, Path.validate given = .ok root := by
    intro paths normalized given root
    obtain ⟨sources, results⟩ := sources_of_normalizeRoots given
    constructor
    · intro member
      obtain ⟨e, entry, rfl⟩ := List.mem_map.mp member
      obtain ⟨source, among, valid, -⟩ := sources e entry
      exact ⟨source.1, List.mem_map_of_mem among, valid⟩
    · rintro ⟨_, among, valid⟩
      obtain ⟨source, entry, rfl⟩ := List.mem_map.mp among
      obtain ⟨other, member, result⟩ := results source entry
      rwa [Except.ok.inj (valid.symm.trans result)]
  refine SortedMap.eq_of_mem_iff included.keys_before excluded.keys_before fun root => ?_
  rw [mem_iff left, mem_iff right, same]

/-! ## Roots -/

/-- The excludes are those of the roots, if they are given for the same roots as the includes. -/
theorem excludes_of_rootsOf {included excluded : RootPaths}
    (same : included.keys = excluded.keys) :
    (rootsOf included excluded).map (fun root => (root.path, root.excludes)) =
      excluded.entries :=
  calc
    _ = included.keys.map fun root => (root, (excluded.find? root).getD []) := by
      simp [rootsOf, SortedMap.keys, Function.comp_def]
    _ = excluded.entries.map fun e => (e.1, (excluded.find? e.1).getD []) := by
      rw [same, SortedMap.keys, List.map_map]
      rfl
    _ = excluded.entries := by
      refine (List.map_congr_left fun e member => ?_).trans (List.map_id _)
      rw [(excluded.find?_eq_some_iff e.1 e.2).mpr member]
      rfl

/-- What a boundary leaves out is what some root of it that covers the path does. -/
theorem WellFormed.isExcluded_eq {b : Boundary} (wf : b.WellFormed) {path normal : String}
    (valid : Path.validate path = .ok normal) :
    b.isExcluded path = b.roots.any fun root => root.covers normal && root.excludesPath normal := by
  simp only [isExcluded, valid, ← excludes_of_rootsOf wf.same_roots, List.any_map]
  rfl

/-! ## Construction -/

theorem shapeFault?_eq_none_iff {version : FileVersion} {includes excludes : RootPaths} :
    shapeFault? version includes excludes = none ↔
      includes.keys = excludes.keys ∧
        (version.singleRoot = true → excludes.size = 1 ∧ excludes.contains "." = true) ∧
        (version = .v1beta1 → ∀ e ∈ includes.entries, e.2 = []) := by
  unfold shapeFault?
  by_cases same : includes.keys = excludes.keys
  · cases version <;> by_cases count : excludes.size = 1 <;>
      simp [same, count, FileVersion.singleRoot]
  · simp [same]

/-- Construction succeeds on parts that fit the version, whose normal forms are still as many roots
and pass the checks of placement. -/
theorem make_eq_ok_iff {version : FileVersion} {dirPath : String} {fullName : Option FullName}
    {includes excludes : RootPaths} {b : Boundary} :
    make version dirPath fullName includes excludes = .ok b ↔
      ∃ dir included excluded,
        Path.validate dirPath = .ok dir ∧ (version.allowsDirPath = true ∨ dir = ".") ∧
        shapeFault? version (completeRoots includes excludes).1
          (completeRoots includes excludes).2 = none ∧
        normalizeRoots (completeRoots includes excludes).1 = .ok included ∧
        normalizeRoots (completeRoots includes excludes).2 = .ok excluded ∧
        included.size = (completeRoots includes excludes).1.size ∧
        checkApart "root" included.keys = .ok () ∧
        (∀ root ∈ rootsOf included excluded, root.check = .ok ()) ∧
        b = ⟨version, dir, fullName, included, excluded⟩ := by
  unfold make
  obtain ⟨completedIncludes, completedExcludes⟩ := completeRoots includes excludes
  simp only [Outcome.bind_eq_ok_iff, Outcome.mapError_eq_ok_iff, Outcome.guard_eq_ok_iff]
  constructor
  · rintro ⟨dir, validated, allowed, remaining⟩
    cases shape : shapeFault? version completedIncludes completedExcludes with
    | some fault => simp [shape, Outcome.bind_eq_ok_iff] at remaining
    | none =>
        simp only [shape, Outcome.bind_eq_ok_iff, Outcome.mapError_eq_ok_iff,
          Outcome.guard_eq_ok_iff, not_not] at remaining
        obtain ⟨included, left, excluded, right, size, ⟨⟩, apart, ⟨⟩, checked, equal⟩ := remaining
        exact ⟨dir, included, excluded, validated, by simpa [imp_iff_not_or] using allowed, rfl,
          left, right, size, apart, Outcome.forM_eq_ok_iff.mp checked,
          (Outcome.pure_eq_ok_iff.mp equal).symm⟩
  · rintro ⟨dir, included, excluded, validated, allowed, shape, left, right, size, apart, checked,
      rfl⟩
    refine ⟨dir, validated, by simpa [imp_iff_not_or] using allowed, ?_⟩
    simp only [shape, Outcome.bind_eq_ok_iff, Outcome.mapError_eq_ok_iff, Outcome.guard_eq_ok_iff,
      not_not]
    exact ⟨included, left, excluded, right, size, (), apart, (), Outcome.forM_eq_ok_iff.mpr checked,
      rfl⟩

/-- A root passes its check if its includes and its excludes lie apart and within it. -/
theorem check_eq_ok_iff {root : Root} : root.check = .ok () ↔
    checkApart "include" root.includes = .ok () ∧
      checkWithin root.path "include" root.includes = .ok () ∧
      checkApart "exclude" root.excludes = .ok () ∧
      checkWithin root.path "exclude" root.excludes = .ok () := by
  unfold Root.check
  simp only [Outcome.bind_eq_ok_iff]
  constructor
  · rintro ⟨⟨⟩, includesApart, ⟨⟩, includesWithin, ⟨⟩, excludesApart, excludesWithin⟩
    exact ⟨includesApart, includesWithin, excludesApart, excludesWithin⟩
  · rintro ⟨includesApart, includesWithin, excludesApart, excludesWithin⟩
    exact ⟨(), includesApart, (), includesWithin, (), excludesApart, excludesWithin⟩

/-- A boundary that was constructed is well formed. -/
theorem IsConstructed.wellFormed {b : Boundary} (constructed : b.IsConstructed) : b.WellFormed := by
  obtain ⟨version, dirPath, fullName, includes, excludes, made⟩ := constructed
  obtain ⟨dir, included, excluded, validated, -, shape, left, right, -, apart, checked, rfl⟩ :=
    make_eq_ok_iff.mp made
  have same := keys_eq_of_normalizeRoots (shapeFault?_eq_none_iff.mp shape).1 left right
  have rootsValid := valid_of_normalizeRoots left
  have pathsValid : ∀ path ∈ included.keys, Path.validate path = .ok path := by
    intro path member
    obtain ⟨e, entry, rfl⟩ := List.mem_map.mp member
    exact (rootsValid e entry).1
  refine ⟨Path.validate_of_validate validated, same, ?_, ?_⟩
  · intro root member
    have passed := contains_of_checkWithin (check_eq_ok_iff.mp (checked root member)).2.2.2
    obtain ⟨e, entry, rfl⟩ := List.mem_map.mp member
    refine ⟨(rootsValid e entry).1, (rootsValid e entry).2, ?_, passed⟩
    intro directory excludedHere
    cases found : excluded.find? e.1 with
    | none => simp [found] at excludedHere
    | some directories =>
        have listed := (excluded.find?_eq_some_iff e.1 directories).mp found
        exact (valid_of_normalizeRoots right _ listed).2 directory
          (by simpa [found] using excludedHere)
  · have separate := (checkApart_iff_liesIn pathsValid).mp apart
    exact List.pairwise_map.mpr (List.pairwise_map.mp separate)

end Boundary

end SchemaModules
