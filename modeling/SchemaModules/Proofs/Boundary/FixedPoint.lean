import SchemaModules.Proofs.Boundary.Construction

/-! # Boundaries are fixed points of their construction

What construction looks at are two maps that keep the same roots all along: as they are given, and
in normal form (`LooksUp.keys_eq`). They are the maps of the boundary that is constructed, which has
all that is documented of one (`Normal`), and out of its own parts the same boundary is constructed
(`make_spec`).
-/

namespace SchemaModules

namespace Boundary

/-- What is constructed out of the parts of a boundary. -/
def remade (b : Boundary) : Except BoundaryError Boundary :=
  make b.version b.dirPath b.fullName b.includesByRoot b.excludesByRoot

/-- Directories of a root: in normal form, strictly ascending, none within another and all of them
strictly below the root. -/
structure AreDirectories (root : String) (paths : List String) : Prop where
  valid : ∀ path ∈ paths, Path.validate path = .ok path
  ascending : paths.Pairwise (· < ·)
  apart : paths.Pairwise fun a b => ¬ Path.LiesIn b a ∧ ¬ Path.LiesIn a b
  below : ∀ path ∈ paths, Path.LiesIn path root ∧ path ≠ root

/-- What is documented of boundaries. -/
structure Normal (b : Boundary) : Prop where
  dirPath_valid : Path.validate b.dirPath = .ok b.dirPath
  dirPath_top : b.version ≠ .v2 → b.dirPath = "."
  same_roots : b.includesByRoot.keys = b.excludesByRoot.keys
  some_root : b.includesByRoot.keys ≠ []
  one_root : b.version ≠ .v1beta1 → b.includesByRoot.keys = ["."]
  no_includes : b.version = .v1beta1 → ∀ e ∈ b.includesByRoot.entries, e.2 = []
  roots_valid : ∀ root ∈ b.includesByRoot.keys, Path.validate root = .ok root
  roots_apart : b.includesByRoot.keys.Pairwise fun r s => ¬ Path.LiesIn s r ∧ ¬ Path.LiesIn r s
  includes : ∀ e ∈ b.includesByRoot.entries, AreDirectories e.1 e.2
  excludes : ∀ e ∈ b.excludesByRoot.entries, AreDirectories e.1 e.2

/-- Includes and excludes of which construction looks up the roots: they fit the version as they are
given, and have normal forms. -/
structure LooksUp (version : FileVersion) (includes excludes included excluded : RootPaths) :
    Prop where
  shape : shapeFault? version (completeRoots includes excludes).1
    (completeRoots includes excludes).2 = none
  included : normalizeRoots (completeRoots includes excludes).1 = .ok included
  excluded : normalizeRoots (completeRoots includes excludes).2 = .ok excluded

variable {version : FileVersion} {includes excludes included excluded : RootPaths}

/-! ## Normal forms of maps -/

/-- Directories in normal form are only sorted. -/
theorem normalizeSet_of_valid {paths : List String}
    (valid : ∀ path ∈ paths, Path.validate path = .ok path) :
    normalizeSet paths = .ok (SortedMap.sortedSet paths) := by
  have each : paths.mapM Path.validate = .ok paths :=
    Outcome.mapM_eq_ok_iff.mpr (List.forall₂_same.mpr valid)
  rw [normalizeSet, each]
  rfl

/-- The directories of each root in ascending order, each once. -/
def sortedValues (paths : RootPaths) : RootPaths :=
  paths.mapValues fun _ => SortedMap.sortedSet

@[simp]
theorem keys_sortedValues (paths : RootPaths) : (sortedValues paths).keys = paths.keys :=
  SortedMap.keys_mapValues ..

/-- Roots and directories in normal form are only sorted. -/
theorem normalizeRoots_of_valid {paths : RootPaths}
    (rootsValid : ∀ root ∈ paths.keys, Path.validate root = .ok root)
    (pathsValid : ∀ e ∈ paths.entries, ∀ path ∈ e.2, Path.validate path = .ok path) :
    normalizeRoots paths = .ok (sortedValues paths) := by
  unfold normalizeRoots
  rw [Outcome.foldlM_eq_foldl fun (m : RootPaths) e => m.insert e.1 (SortedMap.sortedSet e.2)]
  · rw [← SortedMap.ofList_entries (sortedValues paths)]
    simp only [SortedMap.ofList, sortedValues, SortedMap.mapValues, List.foldl_map]
  · intro e entry m
    rw [rootsValid e.1 (List.mem_map_of_mem entry), normalizeSet_of_valid (pathsValid e entry)]
    rfl

/-- Normal forms of directories are their own normal forms. -/
theorem normalizeSet_of_normalizeSet {paths normalized : List String}
    (given : normalizeSet paths = .ok normalized) :
    normalized.Pairwise (· < ·) ∧ normalizeSet normalized = .ok normalized := by
  obtain ⟨_, -, equal⟩ := Outcome.bind_eq_ok_iff.mp given
  have ascending : normalized.Pairwise Key.Before :=
    Outcome.pure_eq_ok_iff.mp equal ▸ SortedMap.sortedSet_ascending _
  refine ⟨ascending.imp Key.before_string_iff.mp, ?_⟩
  rw [normalizeSet_of_valid (valid_of_normalizeSet given), SortedMap.sortedSet_eq_self ascending]

/-- Normal forms of roots are their own normal forms. -/
theorem normalizeRoots_of_normalizeRoots (given : normalizeRoots includes = .ok included) :
    normalizeRoots included = .ok included := by
  have valid := valid_of_normalizeRoots given
  have sorted : sortedValues included = included := by
    refine SortedMap.eq_of_find?_eq fun root => ?_
    rw [sortedValues, SortedMap.find?_mapValues]
    cases found : included.find? root with
    | none => rfl
    | some directories =>
        have entry := (included.find?_eq_some_iff root directories).mp found
        obtain ⟨_, -, -, normal⟩ := (sources_of_normalizeRoots given).1 _ entry
        have again := (normalizeSet_of_normalizeSet normal).2
        rw [normalizeSet_of_valid (valid _ entry).2] at again
        rw [Option.map_some, Except.ok.inj again]
  rw [normalizeRoots_of_valid _ fun e entry => (valid e entry).2, sorted]
  intro root member
  obtain ⟨e, entry, rfl⟩ := List.mem_map.mp member
  exact (valid e entry).1

/-! ## Shapes -/

/-- There are roots where none are lost of those that are given, or of the top in their place. -/
theorem keys_ne_nil_of_size (size : included.size = (completeRoots includes excludes).1.size) :
    included.keys ≠ [] := by
  have some : (completeRoots includes excludes).1.size ≠ 0 := by
    unfold completeRoots
    cases left : includes.entries <;> cases right : excludes.entries
    · exact Nat.one_ne_zero
    all_goals simp [left, right, SortedMap.size, withoutPaths, SortedMap.mapValues]
  rw [← size] at some
  simpa [SortedMap.size, SortedMap.keys] using some

theorem completeRoots_of_nonempty (left : includes.keys ≠ []) (right : excludes.keys ≠ []) :
    completeRoots includes excludes = (includes, excludes) := by
  have some : ∀ {m : RootPaths}, m.keys ≠ [] → m.entries.isEmpty = false := by
    intro m keys
    rw [List.isEmpty_eq_false_iff]
    exact fun none => keys (congrArg (List.map Prod.fst) none)
  unfold completeRoots
  rw [some left, some right]

namespace LooksUp

variable (looks : LooksUp version includes excludes included excluded)
include looks

/-- All roots that are looked up are there. -/
theorem keys_eq : included.keys = excluded.keys :=
  keys_eq_of_normalizeRoots (shapeFault?_eq_none_iff.mp looks.shape).1 looks.included looks.excluded

/-- What is looked up is determined by what is given. -/
theorem unique {others left : RootPaths}
    (other : LooksUp version includes excludes others left) :
    included = others ∧ excluded = left :=
  ⟨Except.ok.inj (looks.included.symm.trans other.included),
    Except.ok.inj (looks.excluded.symm.trans other.excluded)⟩

theorem keys_of_singleRoot (size : included.size = (completeRoots includes excludes).1.size)
    (single : version.singleRoot = true) : included.keys = ["."] := by
  obtain ⟨same, one, -⟩ := shapeFault?_eq_none_iff.mp looks.shape
  obtain ⟨count, top⟩ := one single
  have length : included.keys.length = 1 := by
    simp only [SortedMap.size] at size count
    rw [SortedMap.keys, List.length_map, size, ← count,
      ← List.length_map Prod.fst, ← List.length_map Prod.fst]
    exact congrArg List.length same
  obtain ⟨root, keys⟩ := List.length_eq_one_iff.mp length
  rw [SortedMap.contains_iff_mem_keys, ← same] at top
  obtain ⟨source, entry, isTop⟩ := List.mem_map.mp top
  obtain ⟨other, member, valid⟩ := (sources_of_normalizeRoots looks.included).2 source entry
  have topValid : Path.validate "." = .ok "." := by decide
  rw [isTop, topValid] at valid
  obtain rfl := Except.ok.inj valid
  rw [keys, List.mem_singleton] at member
  rw [keys, member]

theorem includes_eq_nil (old : version = .v1beta1) : ∀ e ∈ included.entries, e.2 = [] := by
  intro e member
  obtain ⟨source, entry, -, normal⟩ := (sources_of_normalizeRoots looks.included).1 e member
  rw [(shapeFault?_eq_none_iff.mp looks.shape).2.2 old source entry] at normal
  exact (Except.ok.inj normal).symm

/-- What is in normal form fits the version as well. -/
theorem shape_of_normal (size : included.size = (completeRoots includes excludes).1.size) :
    shapeFault? version included excluded = none := by
  refine shapeFault?_eq_none_iff.mpr ⟨looks.keys_eq, fun single => ?_, looks.includes_eq_nil⟩
  have keys := looks.keys_eq.symm.trans (looks.keys_of_singleRoot size single)
  refine ⟨?_, ?_⟩
  · rw [SortedMap.size, ← List.length_map Prod.fst]
    exact congrArg List.length keys
  · rw [SortedMap.contains_iff_mem_keys, keys]
    exact List.mem_singleton_self _

end LooksUp

/-! ## Construction again -/

theorem areDirectories_of_checks {root name : String} {given paths : List String}
    (rootValid : Path.validate root = .ok root) (normal : normalizeSet given = .ok paths)
    (apart : checkApart name paths = .ok ()) (within : checkWithin root name paths = .ok ()) :
    AreDirectories root paths := by
  have valid := valid_of_normalizeSet normal
  refine ⟨valid, (normalizeSet_of_normalizeSet normal).1, (checkApart_iff_liesIn valid).mp apart,
    ?_⟩
  intro path member
  exact (Path.contains_iff_liesIn rootValid (valid path member)).mp
    (contains_of_checkWithin within path member)

/-- A boundary has the parts that it was made of, and its maps are those in which its roots were
looked up. -/
theorem parts_of_make {dirPath : String} {fullName : Option FullName} {b : Boundary}
    (made : make version dirPath fullName includes excludes = .ok b) :
    b.version = version ∧ Path.validate dirPath = .ok b.dirPath ∧ b.fullName = fullName ∧
      LooksUp version includes excludes b.includesByRoot b.excludesByRoot := by
  obtain ⟨_, _, _, validated, -, shape, left, right, -, -, -, rfl⟩ := make_eq_ok_iff.mp made
  exact ⟨rfl, validated, rfl, shape, left, right⟩

theorem normal_of_make {dirPath : String} {fullName : Option FullName} {b : Boundary}
    (made : make version dirPath fullName includes excludes = .ok b) : b.Normal := by
  obtain ⟨dir, included, excluded, validated, allowed, shape, left, right, size, apart, checked,
    rfl⟩ := make_eq_ok_iff.mp made
  have looks : LooksUp version includes excludes included excluded := ⟨shape, left, right⟩
  have valid : ∀ root ∈ included.keys, Path.validate root = .ok root := by
    intro root member
    obtain ⟨e, entry, rfl⟩ := List.mem_map.mp member
    exact (valid_of_normalizeRoots left e entry).1
  have checks : ∀ e ∈ included.entries, _ := fun e entry =>
    check_eq_ok_iff.mp (checked _ (List.mem_map_of_mem entry))
  constructor
  case dirPath_valid => exact Path.validate_of_validate validated
  case dirPath_top =>
    intro other
    cases version with
    | v2 => exact absurd rfl other
    | v1 => exact allowed.resolve_left Bool.false_ne_true
    | v1beta1 => exact allowed.resolve_left Bool.false_ne_true
  case same_roots => exact looks.keys_eq
  case some_root => exact keys_ne_nil_of_size size
  case one_root =>
    intro other
    refine looks.keys_of_singleRoot size ?_
    cases version with
    | v1beta1 => exact absurd rfl other
    | v1 => rfl
    | v2 => rfl
  case no_includes => exact looks.includes_eq_nil
  case roots_valid => exact valid
  case roots_apart => exact (checkApart_iff_liesIn valid).mp apart
  case includes =>
    intro e entry
    obtain ⟨_, -, -, normal⟩ := (sources_of_normalizeRoots left).1 e entry
    obtain ⟨includesApart, includesWithin, -⟩ := checks e entry
    exact areDirectories_of_checks (valid e.1 (List.mem_map_of_mem entry)) normal includesApart
      includesWithin
  case excludes =>
    intro e entry
    obtain ⟨_, -, -, normal⟩ := (sources_of_normalizeRoots right).1 e entry
    have member : e.1 ∈ included.keys := looks.keys_eq ▸ List.mem_map_of_mem entry
    obtain ⟨i, there, same⟩ := List.mem_map.mp member
    obtain ⟨-, -, excludesApart, excludesWithin⟩ := checks i there
    have found := (excluded.find?_eq_some_iff e.1 e.2).mpr entry
    simp only [same, found, Option.getD_some] at excludesApart excludesWithin
    exact areDirectories_of_checks (valid e.1 member) normal excludesApart excludesWithin

theorem remade_of_make {dirPath : String} {fullName : Option FullName} {b : Boundary}
    (made : make version dirPath fullName includes excludes = .ok b) : b.remade = .ok b := by
  obtain ⟨dir, included, excluded, validated, allowed, shape, left, right, size, apart, checked,
    rfl⟩ := make_eq_ok_iff.mp made
  have looks : LooksUp version includes excludes included excluded := ⟨shape, left, right⟩
  have complete : completeRoots included excluded = (included, excluded) :=
    completeRoots_of_nonempty (keys_ne_nil_of_size size) (looks.keys_eq ▸ keys_ne_nil_of_size size)
  refine make_eq_ok_iff.mpr
    ⟨dir, included, excluded, Path.validate_of_validate validated, allowed, ?_⟩
  rw [complete]
  exact ⟨looks.shape_of_normal size, normalizeRoots_of_normalizeRoots left,
    normalizeRoots_of_normalizeRoots right, rfl, apart, checked, rfl⟩

theorem make_empty (version : FileVersion) :
    make version "" none SortedMap.empty SortedMap.empty = .ok (whole version) := by
  cases version <;> rfl

/-- What construction gives has the version, the directory and the name that it is given, has the
maps in which it looked up the roots, is normal, and is what is constructed out of its parts; so is
the whole workspace. Whether or not construction succeeds then, both maps have the same roots, so no
root is looked up in vain and none is left behind. -/
theorem make_spec (version : FileVersion) (dirPath : String) (fullName : Option FullName)
    (includes excludes : RootPaths) :
    (∀ b, make version dirPath fullName includes excludes = .ok b →
        b.version = version ∧ Path.validate dirPath = .ok b.dirPath ∧ b.fullName = fullName ∧
        LooksUp version includes excludes b.includesByRoot b.excludesByRoot ∧ b.Normal ∧
        b.remade = .ok b) ∧
      (whole version).remade = .ok (whole version) ∧
      ∀ included excluded, LooksUp version includes excludes included excluded →
        included.keys = excluded.keys ∧
        (∀ root ∈ included.keys, included.contains root = true ∧ excluded.contains root = true) ∧
        ∀ b, make version dirPath fullName includes excludes = .ok b →
          b.includesByRoot = included ∧ b.excludesByRoot = excluded := by
  refine ⟨?parts, remade_of_make (make_empty version), ?lookups⟩
  case parts =>
    intro b made
    obtain ⟨sameVersion, directory, sameName, looks⟩ := parts_of_make made
    exact ⟨sameVersion, directory, sameName, looks, normal_of_make made, remade_of_make made⟩
  case lookups =>
    intro included excluded looks
    refine ⟨looks.keys_eq, fun root member => ?_, fun b made => ?_⟩
    · rw [SortedMap.contains_iff_mem_keys, SortedMap.contains_iff_mem_keys, ← looks.keys_eq]
      exact ⟨member, member⟩
    · obtain ⟨-, -, -, own⟩ := parts_of_make made
      exact own.unique looks

/-- Two roots with the spellings of one directory to leave out are brought into normal form, and are
constructed again as they are then. -/
theorem make_spec_of_two_roots : ∃ (excludes included excluded : RootPaths) (b : Boundary),
    excludes.entries = [("a/", ["./a/y", "a/x/../y"]), ("b", [])] ∧
      make .v1beta1 "./" none SortedMap.empty excludes = .ok b ∧
      b = ⟨.v1beta1, ".", none, included, excluded⟩ ∧
      included.entries = [("a", []), ("b", [])] ∧ excluded.entries = [("a", ["a/y"]), ("b", [])] ∧
      b.Normal ∧ b.remade = .ok b ∧
      LooksUp .v1beta1 SortedMap.empty excludes included excluded ∧
      included.keys = excluded.keys ∧ "a" ∈ included.keys ∧ excluded.contains "a" = true := by
  let excludes : RootPaths := SortedMap.ofList [("a/", ["./a/y", "a/x/../y"]), ("b", [])]
  let included : RootPaths := SortedMap.ofList [("a", []), ("b", [])]
  let excluded : RootPaths := SortedMap.ofList [("a", ["a/y"]), ("b", [])]
  let b : Boundary := ⟨.v1beta1, ".", none, included, excluded⟩
  have apart : checkApart "root" ["a", "b"] = .ok () :=
    (checkApart_iff_liesIn (by decide)).mpr (by decide)
  have looks : LooksUp .v1beta1 SortedMap.empty excludes included excluded := ⟨rfl, rfl, rfl⟩
  have checked : ∀ root ∈ b.roots, root.check = .ok () := by
    intro root member
    rcases List.mem_pair.mp member with rfl | rfl <;> rfl
  have made : make .v1beta1 "./" none SortedMap.empty excludes = .ok b :=
    make_eq_ok_iff.mpr ⟨".", included, excluded, rfl, .inr rfl, looks.shape, looks.included,
      looks.excluded, rfl, apart, checked, rfl⟩
  obtain ⟨construction, -, lookups⟩ := make_spec .v1beta1 "./" none SortedMap.empty excludes
  obtain ⟨-, -, -, -, normal, again⟩ := construction b made
  obtain ⟨same, found, -⟩ := lookups included excluded looks
  have member : "a" ∈ included.keys := List.mem_cons_self
  exact ⟨excludes, included, excluded, b, rfl, made, rfl, rfl, rfl, normal, again, looks, same,
    member, (found "a" member).2⟩

end Boundary

end SchemaModules
