import SchemaModules.Boundary.Declaration
import SchemaModules.Proofs.Boundary.FixedPoint
import SchemaModules.Proofs.Boundary.PathList
import SchemaModules.Proofs.Boundary.Placement

/-! # Directories assigned to roots

The directories of a declaration are first seen from the directory of the module (`StandFor`), then
assigned to the roots that they lie in (`Assigned`). Out of what was assigned a boundary can always
be constructed (`make_of_assigned`), and its roots accept what lies below them, in one of the
includes and in none of the excludes (`accepts_of_assigned`).
-/

namespace SchemaModules

open SchemaModules.Path (LiesIn AreApart)

/-- Directories that lie apart and stand, below the directory of a module, for those that were
declared. -/
structure StandFor (dirPath : String) (declared directories : List String) : Prop
    extends AreApart directories where
  exists_declared : ∀ directory ∈ directories, ∃ path ∈ declared,
    Path.join [dirPath, directory] = Path.normalize path
  exists_directory : ∀ path ∈ declared, ∃ directory ∈ directories,
    Path.join [dirPath, directory] = Path.normalize path

namespace StandFor

variable {dirPath name : String} {declared directories : List String}

theorem eq_nil_iff (stand : StandFor dirPath declared directories) :
    directories = [] ↔ declared = [] := by
  constructor
  · rintro rfl
    refine List.eq_nil_iff_forall_not_mem.mpr fun path member => ?_
    obtain ⟨_, seen, -⟩ := stand.exists_directory path member
    exact absurd seen List.not_mem_nil
  · rintro rfl
    refine List.eq_nil_iff_forall_not_mem.mpr fun directory member => ?_
    obtain ⟨_, source, -⟩ := stand.exists_declared directory member
    exact absurd source List.not_mem_nil

/-- A path lies in one of the directories if, in the workspace, it lies in one that was declared. -/
theorem exists_liesIn_iff (stand : StandFor dirPath declared directories)
    (dirValid : Path.validate dirPath = .ok dirPath) {path : String}
    (valid : Path.validate path = .ok path) : (∃ directory ∈ directories, LiesIn path directory) ↔
      ∃ given ∈ declared, LiesIn (Path.join [dirPath, path]) (Path.normalize given) := by
  constructor
  · rintro ⟨directory, member, lies⟩
    obtain ⟨given, source, same⟩ := stand.exists_declared directory member
    refine ⟨given, source, same ▸ ?_⟩
    exact (Path.liesIn_join_iff dirValid valid (stand.valid directory member)).mpr lies
  · rintro ⟨given, source, lies⟩
    obtain ⟨directory, member, same⟩ := stand.exists_directory given source
    refine ⟨directory, member, ?_⟩
    exact (Path.liesIn_join_iff dirValid valid (stand.valid directory member)).mp (same ▸ lies)

theorem of_normalizeList {normal : List String}
    (accepted : Boundary.normalizeList name declared = .ok normal) :
    StandFor "." declared normal := by
  obtain ⟨given, each, rfl, -, apart⟩ := Boundary.normalizeList_eq_ok_iff.mp accepted
  refine ⟨apart, ?_, ?_⟩
  · intro path member
    obtain ⟨source, listed, -, result⟩ :=
      Outcome.exists_of_forall₂ each (List.mem_mergeSort.mp member)
    refine ⟨source, listed, ?_⟩
    rw [Path.top_join (apart.valid path member), Path.normalize_of_validate result]
  · intro source listed
    obtain ⟨path, member, -, result⟩ := Outcome.exists_of_forall₂ each.flip listed
    have sorted : path ∈ given.mergeSort (· ≤ ·) := List.mem_mergeSort.mpr member
    refine ⟨path, sorted, ?_⟩
    rw [Path.top_join (apart.valid path sorted), Path.normalize_of_validate result]

end StandFor

namespace Declaration

variable {dirPath name : String} {paths : List String}

/-! ## Directories seen from the module -/

theorem join_of_fromDirectory (dirValid : Path.validate dirPath = .ok dirPath)
    {path directory : String} (valid : Path.validate path = .ok path)
    (seen : fromDirectory dirPath name path = .ok directory) :
    Path.validate directory = .ok directory ∧ Path.join [dirPath, directory] = path := by
  obtain ⟨d, inside, rfl⟩ := Path.validate_eq_self_iff.mp dirValid
  obtain ⟨p, inner, rfl⟩ := Path.validate_eq_self_iff.mp valid
  unfold fromDirectory at seen
  split at seen
  · next below =>
      obtain ⟨r, rest, -, rfl⟩ := (Path.contains_text_iff_append inside inner).mp below
      rw [Path.relative_append _ rest] at seen
      obtain rfl := Except.ok.inj seen
      exact ⟨Path.validate_text rest, Path.join_pair d rest⟩
  · cases seen

theorem standFor_of_listFromDirectory (dirValid : Path.validate dirPath = .ok dirPath)
    {directories : List String} (seen : listFromDirectory dirPath name paths = .ok directories) :
    StandFor dirPath paths directories := by
  obtain ⟨normal, accepted, remaining⟩ := Outcome.bind_eq_ok_iff.mp seen
  have stand := StandFor.of_normalizeList accepted
  by_cases atTop : dirPath = "."
  · rw [if_pos atTop] at remaining
    obtain rfl := Outcome.pure_eq_ok_iff.mp remaining
    rwa [atTop]
  · rw [if_neg atTop] at remaining
    have each := Outcome.mapM_eq_ok_iff.mp remaining
    have source : ∀ directory ∈ directories, Path.validate directory = .ok directory ∧
        Path.join [dirPath, directory] ∈ normal := by
      intro directory member
      obtain ⟨path, listed, result⟩ := Outcome.exists_of_forall₂ each member
      obtain ⟨valid, same⟩ := join_of_fromDirectory dirValid (stand.valid path listed) result
      exact ⟨valid, same.symm ▸ listed⟩
    refine ⟨⟨fun directory member => (source directory member).1, ?_⟩, ?_, ?_⟩
    · intro a first b second inner
      obtain ⟨left, outerSource⟩ := source a first
      obtain ⟨right, innerSource⟩ := source b second
      refine (Path.join_right_inj dirValid left right).mp ?_
      refine stand.eq_of_inner _ outerSource _ innerSource ?_
      exact (Path.liesIn_join_iff dirValid right left).mpr inner
    · intro directory member
      obtain ⟨-, listed⟩ := source directory member
      obtain ⟨path, declared, same⟩ := stand.exists_declared _ listed
      rw [Path.top_join (stand.valid _ listed)] at same
      exact ⟨path, declared, same⟩
    · intro path declared
      obtain ⟨normalForm, listed, same⟩ := stand.exists_directory path declared
      obtain ⟨directory, member, result⟩ := Outcome.exists_of_forall₂ each.flip listed
      refine ⟨directory, member, ?_⟩
      rw [(join_of_fromDirectory dirValid (stand.valid _ listed) result).2, ← same,
        Path.top_join (stand.valid _ listed)]

/-- The roots of a declaration are those that it names, or the top alone. -/
theorem normalizedRoots_cases {d : Declaration} {roots : List String}
    (accepted : d.normalizedRoots = .ok roots) :
    (d.roots.getD [] = [] ∧ roots = ["."]) ∨
      (d.roots.isSome = true ∧ d.roots.getD [] ≠ [] ∧ StandFor "." (d.roots.getD []) roots) := by
  unfold normalizedRoots at accepted
  split at accepted
  · next root others declared =>
      refine .inr ?_
      rw [declared]
      exact ⟨rfl, List.cons_ne_nil _ _, StandFor.of_normalizeList accepted⟩
  · next missing =>
      refine .inl ⟨?_, (Except.ok.inj accepted).symm⟩
      cases declared : d.roots with
      | none => rfl
      | some list =>
          cases list with
          | nil => rfl
          | cons root others => exact absurd declared (missing root others)

/-! ## Directories assigned to roots -/

/-- Directories each of which is assigned to the root that it lies in. -/
structure Assigned (roots paths : List String) (assigned : RootPaths) : Prop where
  keys : assigned.keys = SortedMap.sortedSet roots
  within : ∀ path ∈ paths, ∃ root ∈ roots, Path.contains root path .relative = true
  entries : ∀ e ∈ assigned.entries, ∀ path,
    path ∈ e.2 ↔ path ∈ paths ∧ Path.contains e.1 path .relative = true

variable {roots : List String} {assigned next : RootPaths}

theorem Assigned.mem_keys_iff (done : Assigned roots paths assigned) (root : String) :
    root ∈ assigned.keys ↔ root ∈ roots := by
  rw [done.keys, SortedMap.mem_sortedSet]

/-- Assigning one more directory puts it to the only root that contains it. -/
theorem Assigned.assign (before : Assigned roots paths assigned) (apart : AreApart roots)
    {path : String} (valid : Path.validate path = .ok path)
    (step : assign name assigned path = .ok next) : Assigned roots (paths ++ [path]) next := by
  unfold Declaration.assign at step
  split at step
  case h_2 => cases step
  case h_1 root found =>
    obtain rfl := Except.ok.inj step
    have member := List.mem_of_find?_eq_some found
    have holds : Path.contains root path .relative = true := by simpa using List.find?_some found
    have listed := (before.mem_keys_iff root).mp member
    refine ⟨?_, ?_, ?_⟩
    · rw [SortedMap.keys_insert_of_mem _ _ member, before.keys]
    · intro other among
      rcases List.mem_append.mp among with earlier | last
      · exact before.within other earlier
      · exact ⟨root, listed, List.mem_singleton.mp last ▸ holds⟩
    · intro e entry other
      have value := (SortedMap.find?_eq_some_iff _ e.1 e.2).mpr entry
      rw [SortedMap.find?_insert] at value
      rw [List.mem_append, List.mem_singleton]
      by_cases same : e.1 = root
      · obtain ⟨old, there⟩ := (SortedMap.mem_keys_iff ..).mp member
        have known := before.entries (root, old) ((SortedMap.find?_eq_some_iff ..).mp there) other
        rw [if_pos same, there, Option.getD_some] at value
        rw [← Option.some.inj value, List.mem_append, List.mem_singleton, known, same]
        constructor
        · rintro (⟨earlier, contains⟩ | rfl)
          · exact ⟨.inl earlier, contains⟩
          · exact ⟨.inr rfl, holds⟩
        · rintro ⟨earlier | last, contains⟩
          · exact .inl ⟨earlier, contains⟩
          · exact .inr last
      · rw [if_neg same] at value
        rw [before.entries e ((SortedMap.find?_eq_some_iff ..).mp value)]
        refine and_congr_left fun contains => (or_iff_left ?_).symm
        rintro rfl
        -- Another root would contain the path as well.
        have key : e.1 ∈ assigned.keys := (SortedMap.mem_keys_iff ..).mpr ⟨e.2, value⟩
        have alike := (before.mem_keys_iff e.1).mp key
        have there := (Path.contains_iff_liesIn (apart.valid _ alike) valid).mp contains
        have here := (Path.contains_iff_liesIn (apart.valid _ listed) valid).mp holds
        exact same (apart.eq_of_liesIn alike listed there.1 here.1)

/-- A directory that a path lies in is assigned to the root that the path lies in. -/
theorem Assigned.mem_of_liesIn (done : Assigned roots paths assigned) (apart : AreApart roots)
    (pathsApart : AreApart paths) {e : String × List String} (entry : e ∈ assigned.entries)
    {path directory : String} (below : LiesIn path e.1) (given : directory ∈ paths)
    (lies : LiesIn path directory) : directory ∈ e.2 := by
  obtain ⟨root, listed, contains⟩ := done.within directory given
  have rootValid := apart.valid root listed
  have inside := (Path.contains_iff_liesIn rootValid (pathsApart.valid _ given)).mp contains
  have same : e.1 = root := by
    refine apart.eq_of_liesIn ?_ listed below (inside.1.trans lies)
    exact (done.mem_keys_iff e.1).mp (List.mem_map_of_mem entry)
  exact (done.entries e entry directory).mpr ⟨given, same ▸ contains⟩

theorem assigned_of_assignAll (apart : AreApart roots)
    (valid : ∀ path ∈ paths, Path.validate path = .ok path)
    (done : assignAll name roots paths = .ok assigned) : Assigned roots paths assigned := by
  refine Outcome.foldlM_carries (Assigned roots) ?_ ?_ done
  · intro before path rest split s t kept step
    exact kept.assign apart (valid path (split ▸ List.mem_append_cons_self)) step
  · have empty : ∀ e ∈ (SortedMap.ofList (roots.map fun root => (root, ([] : List String)))).entries,
        e.2 = [] := by
      intro e entry
      obtain ⟨_, -, rfl⟩ := List.mem_map.mp (SortedMap.mem_of_mem_entries_ofList entry)
      rfl
    refine ⟨?_, fun _ member => absurd member List.not_mem_nil, fun e entry path => ?_⟩
    · refine SortedMap.eq_of_mem_iff (SortedMap.keys_before _) (SortedMap.sortedSet_ascending _) ?_
      intro root
      rw [SortedMap.mem_keys_ofList, SortedMap.mem_sortedSet, List.map_map, Function.comp_def,
        List.map_id']
    · simp [empty e entry]

end Declaration

namespace Boundary

variable {version : FileVersion} {dirPath : String} {roots includes excludes : List String}

/-- Roots and includes that fit a version. -/
structure Fits (version : FileVersion) (dirPath : String) (roots includes : List String) :
    Prop where
  dirPath_valid : Path.validate dirPath = .ok dirPath
  dirPath_top : version.allowsDirPath = true ∨ dirPath = "."
  roots_apart : AreApart roots
  some_root : roots ≠ []
  one_root : version.singleRoot = true → roots = ["."]
  no_includes : version = .v1beta1 → includes = []

/-! ## Construction out of what was assigned -/

/-- The roots of a boundary are the entries of its two maps, with their values sorted. -/
theorem mem_rootsOf_sortedValues {left right : RootPaths} (same : left.keys = right.keys)
    (root : Root) : root ∈ rootsOf (sortedValues left) (sortedValues right) ↔
      ∃ path kept dropped, (path, kept) ∈ left.entries ∧ (path, dropped) ∈ right.entries ∧
        root = ⟨path, SortedMap.sortedSet kept, SortedMap.sortedSet dropped⟩ := by
  simp only [rootsOf, List.mem_map]
  constructor
  · rintro ⟨_, entry, rfl⟩
    obtain ⟨e, there, rfl⟩ := List.mem_map.mp entry
    have key : e.1 ∈ right.keys := same ▸ List.mem_map_of_mem there
    obtain ⟨dropped, found⟩ := (SortedMap.mem_keys_iff ..).mp key
    refine ⟨e.1, e.2, dropped, there, (SortedMap.find?_eq_some_iff ..).mp found, ?_⟩
    rw [sortedValues, SortedMap.find?_mapValues, found]
    rfl
  · rintro ⟨path, kept, dropped, entry, there, rfl⟩
    refine ⟨_, List.mem_map_of_mem entry, ?_⟩
    rw [sortedValues, SortedMap.find?_mapValues, (SortedMap.find?_eq_some_iff ..).mpr there]
    rfl

/-- Directories that are assigned to a root pass its check. -/
theorem check_of_assigned (name : String) {root : String} {paths assigned : List String}
    (apart : AreApart paths) (here : ∀ path, path ∈ assigned ↔
      path ∈ paths ∧ Path.contains root path .relative = true) :
    checkApart name (SortedMap.sortedSet assigned) = .ok () ∧
      checkWithin root name (SortedMap.sortedSet assigned) = .ok () := by
  have among : ∀ path ∈ SortedMap.sortedSet assigned,
      path ∈ paths ∧ Path.contains root path .relative = true := by
    intro path member
    exact (here path).mp ((SortedMap.mem_sortedSet ..).mp member)
  have fewer := apart.mono fun path member => (among path member).1
  refine ⟨(checkApart_iff_areApart fewer.valid (SortedMap.nodup_keys _)).mpr fewer, ?_⟩
  exact checkWithin_eq_ok_iff.mpr fun path member => (among path member).2

section

open Declaration (Assigned)

variable {left right : RootPaths} (fits : Fits version dirPath roots includes)
  (includesApart : AreApart includes) (excludesApart : AreApart excludes)
  (first : Assigned roots includes left) (second : Assigned roots excludes right)

include fits first second

theorem shape_of_assigned : shapeFault? version left right = none := by
  refine shapeFault?_eq_none_iff.mpr ⟨first.keys.trans second.keys.symm, ?_, ?_⟩
  · intro single
    have keys : right.keys = ["."] := by
      rw [second.keys, fits.one_root single]
      rfl
    refine ⟨?_, ?_⟩
    · rw [SortedMap.size, ← List.length_map Prod.fst]
      exact congrArg List.length keys
    · rw [SortedMap.contains_iff_mem_keys, keys]
      exact List.mem_singleton_self _
  · intro old e entry
    refine List.eq_nil_iff_forall_not_mem.mpr fun path member => ?_
    have listed := ((first.entries e entry path).mp member).1
    rw [fits.no_includes old] at listed
    exact absurd listed List.not_mem_nil

include includesApart excludesApart

/-- Out of directories that are assigned to their roots a boundary can be constructed. -/
theorem make_of_assigned (fullName : Option FullName) :
    make version dirPath fullName left right =
      .ok ⟨version, dirPath, fullName, sortedValues left, sortedValues right⟩ := by
  have same : left.keys = right.keys := first.keys.trans second.keys.symm
  have rootsApart : AreApart left.keys :=
    fits.roots_apart.mono fun root member => (first.mem_keys_iff root).mp member
  have some : left.keys ≠ [] := by
    obtain ⟨root, listed⟩ := List.exists_mem_of_ne_nil roots fits.some_root
    exact List.ne_nil_of_mem ((first.mem_keys_iff root).mpr listed)
  refine make_eq_ok_iff.mpr ⟨dirPath, sortedValues left, sortedValues right, fits.dirPath_valid,
    fits.dirPath_top, ?_⟩
  rw [completeRoots_of_nonempty some (same ▸ some)]
  refine ⟨shape_of_assigned fits first second, ?_, ?_, List.length_map _, ?_, ?_, rfl⟩
  · refine normalizeRoots_of_valid rootsApart.valid fun e entry path member => ?_
    exact includesApart.valid path ((first.entries e entry path).mp member).1
  · refine normalizeRoots_of_valid (same ▸ rootsApart.valid) fun e entry path member => ?_
    exact excludesApart.valid path ((second.entries e entry path).mp member).1
  · rw [keys_sortedValues]
    exact (checkApart_iff_areApart rootsApart.valid left.nodup_keys).mpr rootsApart
  · intro root member
    obtain ⟨_, _, _, entry, there, rfl⟩ := (mem_rootsOf_sortedValues same root).mp member
    obtain ⟨keptApart, keptWithin⟩ :=
      check_of_assigned "include" includesApart (first.entries _ entry)
    obtain ⟨droppedApart, droppedWithin⟩ :=
      check_of_assigned "exclude" excludesApart (second.entries _ there)
    exact check_eq_ok_iff.mpr ⟨keptApart, keptWithin, droppedApart, droppedWithin⟩

/-- A root accepts a path below it that lies in one of all includes, if there are any, and in none
of all excludes: those that the path could lie in are assigned to that root. -/
theorem accepts_of_assigned (path : String) :
    (∃ root ∈ rootsOf (sortedValues left) (sortedValues right), root.Accepts path) ↔
      (∃ root ∈ roots, LiesIn path root ∧ path ≠ root) ∧
        (includes = [] ∨ ∃ directory ∈ includes, LiesIn path directory) ∧
        ∀ directory ∈ excludes, ¬ LiesIn path directory := by
  have same : left.keys = right.keys := first.keys.trans second.keys.symm
  constructor
  · rintro ⟨_, member, below, included, free⟩
    obtain ⟨root, kept, dropped, entry, there, rfl⟩ :=
      (mem_rootsOf_sortedValues same _).mp member
    simp only [SortedMap.mem_sortedSet] at included free
    have listed := (first.mem_keys_iff root).mp (List.mem_map_of_mem entry)
    refine ⟨⟨root, listed, below⟩, ?_, ?_⟩
    · rcases included with none | ⟨directory, assigned, lies⟩
      · refine .inl (List.eq_nil_iff_forall_not_mem.mpr fun directory given => ?_)
        -- Only a version with one root has includes, and that root has them all.
        have one : roots = ["."] := by
          refine fits.one_root ?_
          cases version with
          | v1beta1 => exact absurd given (fits.no_includes rfl ▸ List.not_mem_nil)
          | v1 => rfl
          | v2 => rfl
        obtain ⟨other, among, contains⟩ := first.within directory given
        rw [one, List.mem_singleton] at among listed
        have assigned := (first.entries _ entry directory).mpr ⟨given, listed ▸ among ▸ contains⟩
        rw [← SortedMap.mem_sortedSet, none] at assigned
        exact absurd assigned List.not_mem_nil
      · exact .inr ⟨directory, ((first.entries _ entry directory).mp assigned).1, lies⟩
    · intro directory given lies
      refine free directory ?_ lies
      exact second.mem_of_liesIn fits.roots_apart excludesApart there below.1 given lies
  · rintro ⟨⟨root, listed, below⟩, included, free⟩
    have key := (first.mem_keys_iff root).mpr listed
    obtain ⟨kept, found⟩ := (SortedMap.mem_keys_iff ..).mp key
    obtain ⟨dropped, there⟩ := (SortedMap.mem_keys_iff ..).mp (same ▸ key)
    have entry := (SortedMap.find?_eq_some_iff ..).mp found
    have other := (SortedMap.find?_eq_some_iff ..).mp there
    refine ⟨_, (mem_rootsOf_sortedValues same _).mpr ⟨root, kept, dropped, entry, other, rfl⟩,
      below, ?_, ?_⟩
    · rcases included with rfl | ⟨directory, given, lies⟩
      · refine .inl (List.eq_nil_iff_forall_not_mem.mpr fun directory assigned => ?_)
        rw [SortedMap.mem_sortedSet] at assigned
        exact absurd ((first.entries _ entry directory).mp assigned).1 List.not_mem_nil
      · refine .inr ⟨directory, (SortedMap.mem_sortedSet ..).mpr ?_, lies⟩
        exact first.mem_of_liesIn fits.roots_apart includesApart entry below.1 given lies
    · intro directory assigned
      rw [SortedMap.mem_sortedSet] at assigned
      exact free directory ((second.entries _ other directory).mp assigned).1

end

end Boundary

end SchemaModules
