import SchemaModules.Proofs.Boundary.Assignment

/-! # What a declaration stands for

Whatever is wrong with a declaration is found before its boundary is constructed
(`toBoundary_splits`), and the boundary takes in the files that the declaration selects
(`toBoundary_spec`).
-/

namespace SchemaModules

open SchemaModules.Path (LiesIn AreApart)

namespace Declaration

/-- A declaration selects a path of the module's directory below one of its roots, if it names any,
that lies in one of its includes, if it has any, and in none of its excludes. -/
structure Selects (d : Declaration) (dirPath path : String) : Prop where
  rooted : d.roots.getD [] = [] ∨ ∃ root ∈ d.roots.getD [],
    LiesIn path (Path.normalize root) ∧ path ≠ Path.normalize root
  included : d.includes = [] ∨ ∃ directory ∈ d.includes,
    LiesIn (Path.join [dirPath, path]) (Path.normalize directory)
  not_excluded : ∀ directory ∈ d.excludes,
    ¬ LiesIn (Path.join [dirPath, path]) (Path.normalize directory)

/-- The parts of a declaration that were checked one by one: the name, the directory of the module,
and the roots and directories as they are seen from there. -/
structure Reads (d : Declaration) (fullName : Option FullName) (dirPath : String)
    (roots includes excludes : List String) : Prop where
  named : d.name.mapM FullName.parse = .ok fullName
  supported : d.unsupportedField? = none
  directory : Path.validate (d.path.getD ".") = .ok dirPath
  included : listFromDirectory dirPath "include" d.includes = .ok includes
  excluded : listFromDirectory dirPath "exclude" d.excludes = .ok excludes
  rooted : d.normalizedRoots = .ok roots

variable {d : Declaration} {fullName : Option FullName} {dirPath : String}
  {roots includes excludes : List String}

/-! ## What can be wrong -/

theorem kind_of_listFromDirectory {name : String} {paths : List String} {error : BoundaryError}
    (failed : listFromDirectory dirPath name paths = .error error) : error.kind = .user := by
  rcases Outcome.bind_eq_error_iff.mp failed with refused | ⟨normal, -, remaining⟩
  · exact Boundary.kind_of_normalizeList refused
  · split at remaining
    · cases remaining
    · obtain ⟨path, -, outside⟩ := Outcome.exists_of_mapM_error remaining
      unfold fromDirectory at outside
      split at outside
      · obtain ⟨_, -, rfl⟩ := Outcome.mapError_eq_error_iff.mp outside
        rfl
      · obtain rfl := Except.error.inj outside
        rfl

theorem kind_of_normalizedRoots {error : BoundaryError}
    (failed : d.normalizedRoots = .error error) : error.kind = .user := by
  unfold normalizedRoots at failed
  split at failed
  · exact Boundary.kind_of_normalizeList failed
  · cases failed

theorem kind_of_assignAll {name : String} {paths : List String} {error : BoundaryError}
    (failed : assignAll name roots paths = .error error) : error.kind = .user := by
  obtain ⟨_, path, _, mid, -, -, outside⟩ := Outcome.exists_of_foldlM_error failed
  unfold assign at outside
  split at outside
  · cases outside
  · obtain rfl := Except.error.inj outside
    rfl

/-- A declaration is refused as the doing of who wrote it, or a boundary is constructed out of its
directories as they are assigned to its roots. -/
theorem toBoundary_splits (d : Declaration) :
    (∃ error, d.toBoundary = .error error ∧ error.kind = .user) ∨
      ∃ fullName dirPath roots includes excludes left right,
        d.Reads fullName dirPath roots includes excludes ∧
          assignAll "include" roots includes = .ok left ∧
          assignAll "exclude" roots excludes = .ok right ∧
          d.toBoundary = Boundary.make d.version dirPath fullName left right := by
  -- Each check in turn: where it fails the declaration is refused, else the next one is made.
  unfold toBoundary
  cases named : d.name.mapM FullName.parse with
  | error error => exact .inl ⟨_, rfl, rfl⟩
  | ok fullName =>
  cases supported : d.unsupportedField? with
  | some field => exact .inl ⟨_, rfl, rfl⟩
  | none =>
  cases directory : Path.validate (d.path.getD ".") with
  | error error => exact .inl ⟨_, rfl, rfl⟩
  | ok dirPath =>
  simp only [Except.mapError, bind, Except.bind]
  cases included : listFromDirectory dirPath "include" d.includes with
  | error error => exact .inl ⟨error, rfl, kind_of_listFromDirectory included⟩
  | ok includes =>
  cases excluded : listFromDirectory dirPath "exclude" d.excludes with
  | error error => exact .inl ⟨error, rfl, kind_of_listFromDirectory excluded⟩
  | ok excludes =>
  cases rooted : d.normalizedRoots with
  | error error => exact .inl ⟨error, rfl, kind_of_normalizedRoots rooted⟩
  | ok roots =>
  dsimp only
  cases first : assignAll "include" roots includes with
  | error error => exact .inl ⟨error, rfl, kind_of_assignAll first⟩
  | ok left =>
  cases second : assignAll "exclude" roots excludes with
  | error error => exact .inl ⟨error, rfl, kind_of_assignAll second⟩
  | ok right =>
  exact .inr ⟨fullName, dirPath, roots, includes, excludes, left, right,
    ⟨named, supported, directory, included, excluded, rooted⟩, first, second, rfl⟩

/-! ## What a declaration that was checked says -/

/-- A declaration without unsupported fields has a path, roots and includes only where its version
has them. -/
theorem fields_of_supported (supported : d.unsupportedField? = none) :
    (d.path.isSome = true → d.version.allowsDirPath = true) ∧
      (d.roots.isSome = true → d.version = .v1beta1) ∧ (d.includes ≠ [] → d.version = .v2) := by
  unfold unsupportedField? at supported
  split at supported
  · cases supported
  · next path =>
      split at supported
      · cases supported
      · next roots =>
          split at supported
          · cases supported
          · next includes =>
              simp only [Bool.not_eq_true', not_and, Bool.not_eq_false, ne_eq, not_not]
                at path roots includes
              exact ⟨path, roots, includes⟩

namespace Reads

variable (reads : d.Reads fullName dirPath roots includes excludes)
include reads

theorem dirPath_valid : Path.validate dirPath = .ok dirPath :=
  Path.validate_of_validate reads.directory

theorem standsForIncludes : StandFor dirPath d.includes includes :=
  standFor_of_listFromDirectory reads.dirPath_valid reads.included

theorem standsForExcludes : StandFor dirPath d.excludes excludes :=
  standFor_of_listFromDirectory reads.dirPath_valid reads.excluded

/-- The roots that a declaration names, or the top in their place, fit its version. -/
theorem fits : Boundary.Fits d.version dirPath roots includes := by
  obtain ⟨pathVersion, rootsVersion, includesVersion⟩ :=
    fields_of_supported reads.supported
  have topApart : AreApart ["."] := by
    refine ⟨fun path member => ?_, fun a first b second _ => ?_⟩
    · rw [List.mem_singleton.mp member]
      rfl
    · rw [List.mem_singleton.mp first, List.mem_singleton.mp second]
  have rooted : AreApart roots ∧ roots ≠ [] ∧ (d.version.singleRoot = true → roots = ["."]) := by
    rcases normalizedRoots_cases reads.rooted with ⟨-, rfl⟩ | ⟨given, named, stand⟩
    · exact ⟨topApart, List.cons_ne_nil _ _, fun _ => rfl⟩
    · refine ⟨stand.toAreApart, fun none => named (stand.eq_nil_iff.mp none), fun single => ?_⟩
      rw [rootsVersion given] at single
      cases single
  refine ⟨reads.dirPath_valid, ?_, rooted.1, rooted.2.1, rooted.2.2, ?_⟩
  · cases declared : d.path with
    | some path =>
        rw [declared] at pathVersion
        exact .inl (pathVersion rfl)
    | none =>
        have directory := reads.directory
        rw [declared] at directory
        exact .inr (Except.ok.inj directory).symm
  · intro old
    refine reads.standsForIncludes.eq_nil_iff.mpr ?_
    by_contra given
    rw [includesVersion given] at old
    cases old

/-- A file lies below one of the roots if it lies below one that the declaration names, or if it
names none. -/
theorem exists_root_iff {path : String} (file : Path.IsFile path) :
    (∃ root ∈ roots, LiesIn path root ∧ path ≠ root) ↔
      (d.roots.getD [] = [] ∨ ∃ root ∈ d.roots.getD [],
        LiesIn path (Path.normalize root) ∧ path ≠ Path.normalize root) := by
  rcases normalizedRoots_cases reads.rooted with ⟨none, rfl⟩ | ⟨-, named, stand⟩
  · refine iff_of_true ⟨".", List.mem_singleton_self _, ?_, file.2⟩ (.inl none)
    exact List.nil_prefix
  · rw [or_iff_right named]
    constructor
    · rintro ⟨root, member, below⟩
      obtain ⟨given, declared, same⟩ := stand.exists_declared root member
      rw [Path.top_join (stand.valid root member)] at same
      exact ⟨given, declared, same ▸ below⟩
    · rintro ⟨given, declared, below⟩
      obtain ⟨root, member, same⟩ := stand.exists_directory given declared
      rw [Path.top_join (stand.valid root member)] at same
      exact ⟨root, member, same.symm ▸ below⟩

end Reads

/-- A declaration is either refused as the doing of who wrote it, or stands for a boundary of its
version, name and directory that takes in exactly the files that the declaration selects. -/
theorem toBoundary_spec (d : Declaration) :
    (∀ error, d.toBoundary = .error error → error.kind = .user) ∧
      ∀ b, d.toBoundary = .ok b →
        b.version = d.version ∧ d.name.mapM FullName.parse = .ok b.fullName ∧
          Path.validate (d.path.getD ".") = .ok b.dirPath ∧
          ∀ path, Path.IsFile path →
            ((b.locate? path).isSome = true ↔ d.Selects b.dirPath path) := by
  rcases d.toBoundary_splits with ⟨error, refused, kind⟩ |
    ⟨fullName, dirPath, roots, includes, excludes, left, right, reads, kept, dropped, whole⟩
  · refine ⟨fun other failed => ?_, fun b made => ?_⟩
    · obtain rfl := Except.error.inj (refused.symm.trans failed)
      exact kind
    · rw [refused] at made
      cases made
  · have included := reads.standsForIncludes
    have excluded := reads.standsForExcludes
    have rootsApart := reads.fits.roots_apart
    have first := assigned_of_assignAll rootsApart included.valid kept
    have second := assigned_of_assignAll rootsApart excluded.valid dropped
    have made := Boundary.make_of_assigned reads.fits included.toAreApart excluded.toAreApart
      first second fullName
    have accepts := Boundary.accepts_of_assigned reads.fits included.toAreApart
      excluded.toAreApart first second
    rw [whole, made]
    refine ⟨nofun, fun b same => ?_⟩
    obtain rfl := Except.ok.inj same
    refine ⟨rfl, reads.named, reads.directory, fun path file => ?_⟩
    have wf : Boundary.WellFormed _ := Boundary.IsConstructed.wellFormed ⟨_, _, _, _, _, made⟩
    rw [Boundary.locate?_isSome_iff wf file.1, Boundary.roots, accepts path,
      reads.exists_root_iff file, included.eq_nil_iff,
      included.exists_liesIn_iff reads.dirPath_valid file.1]
    have none_iff : (∀ directory ∈ excludes, ¬ LiesIn path directory) ↔
        ∀ given ∈ d.excludes, ¬ LiesIn (Path.join [dirPath, path]) (Path.normalize given) := by
      have some_iff := excluded.exists_liesIn_iff reads.dirPath_valid file.1
      simpa only [not_exists, not_and] using not_congr some_iff
    rw [none_iff]
    constructor
    · rintro ⟨rooted, inside, outside⟩
      exact ⟨rooted, inside, outside⟩
    · rintro ⟨rooted, inside, outside⟩
      exact ⟨rooted, inside, outside⟩

/-- A declaration with a directory, an include and an exclude in it is accepted, and takes in a file
of the one that the other leaves; one with an include elsewhere is refused. -/
theorem toBoundary_spec_of_nested_paths : ∃ (d other : Declaration) (b : Boundary)
    (error : BoundaryError), d.toBoundary = .ok b ∧ b.dirPath = "proto" ∧
      Path.IsFile "a/y" ∧ (b.locate? "a/y").isSome = true ∧ d.Selects "proto" "a/y" ∧
      other.toBoundary = .error error ∧ error.kind = .user := by
  let d : Declaration := ⟨.v2, some "proto/", none, none, ["./proto/a"], ["proto/a/x"]⟩
  let b : Boundary := ⟨.v2, "proto", none, SortedMap.ofList [(".", ["a"])],
    SortedMap.ofList [(".", ["a/x"])]⟩
  let other : Declaration := ⟨.v2, some "proto", none, none, ["third_party/a"], []⟩
  let error : BoundaryError := .placement (.outsideRoot "include" "third_party/a" "proto")
  have made : d.toBoundary = .ok b := by decide +kernel
  have refused : other.toBoundary = .error error := by decide +kernel
  have file : Path.IsFile "a/y" := by decide
  have selects : d.Selects "proto" "a/y" := by
    refine ⟨.inl rfl, .inr ⟨"./proto/a", List.mem_singleton_self _, by decide⟩, ?_⟩
    intro directory member
    rw [List.mem_singleton.mp member]
    decide
  obtain ⟨-, -, -, located⟩ := (toBoundary_spec d).2 b made
  exact ⟨d, other, b, error, made, rfl, file, (located "a/y" file).mpr selects, selects, refused,
    (toBoundary_spec other).1 error refused⟩

end Declaration

end SchemaModules
