import Mathlib.Data.List.Pairwise
import SchemaModules.Bucket.View
import SchemaModules.Proofs.Boundary.Construction

/-! # Where a boundary puts the files of a workspace

A boundary maps files of the workspace to places of the module (`Boundary.Maps`): a root puts what
its filters accept where it lies below the root, and a file directly in the module's directory that
is no schema file keeps its name. The listing follows this map from a file to its place
(`place?_eq_ok_some_iff`), the lookup follows it back (`mem_sources_iff`).
-/

namespace SchemaModules

/-- A root accepts a path that lies strictly below it, in one of its includes if it has any, and in
none of its excludes. -/
def Root.Accepts (root : Root) (path : String) : Prop :=
  (Path.LiesIn path root.path ∧ path ≠ root.path) ∧
    (root.includes = [] ∨ ∃ directory ∈ root.includes, Path.LiesIn path directory) ∧
    ∀ directory ∈ root.excludes, ¬ Path.LiesIn path directory

instance (root : Root) (path : String) : Decidable (root.Accepts path) :=
  inferInstanceAs (Decidable ((_ ∧ _) ∧ (_ ∨ _) ∧ _))

/-- A file of the workspace is mapped to a place of the module: below a root that accepts it, or
under its own name if it lies directly in the module's directory, is no schema file, is not left out
and is accepted by no root. -/
def Boundary.Maps (b : Boundary) (file place : String) : Prop :=
  (∃ root ∈ b.roots, Path.IsFile place ∧ root.Accepts (Path.join [root.path, place]) ∧
      file = Path.join [b.dirPath, root.path, place]) ∨
    (Segment.IsName place.toList ∧ Path.extension place ≠ schemaExtension ∧
      file = Path.join [b.dirPath, place] ∧
      (∀ root ∈ b.roots, ∀ directory ∈ root.excludes, ¬ Path.LiesIn place directory) ∧
      ∀ root ∈ b.roots, ¬ root.Accepts place)

instance (b : Boundary) (file place : String) : Decidable (b.Maps file place) :=
  inferInstanceAs (Decidable ((∃ root ∈ b.roots, _ ∧ _ ∧ _) ∨ (_ ∧ _ ∧ _ ∧ _ ∧ _)))

namespace Path

/-- A name is the text of the path to it. -/
theorem isName_text_iff {p : Path} (inside : p.Inside) (some : p.names ≠ []) :
    Segment.IsName p.text.toList ↔ p.parent = top false := by
  have chars : p.text.toList = Text.joined '/' p.names := by
    simp [text, Path.chars, inside.1, inside.segments, some]
  rw [chars]
  constructor
  · intro name
    apply inside.parent.eq_of_names ⟨rfl, rfl⟩
    have parted := Text.split_of_not_mem _ name.2.2.2
    rw [Text.split_joined p.names some fun s member => (p.names_valid s member).2.2.2] at parted
    change p.names.dropLast = []
    rw [parted]
    rfl
  · intro directly
    have names := congrArg names directly
    have single : ∃ s, p.names = [s] := by
      cases list : p.names with
      | nil => exact absurd list some
      | cons s rest =>
          cases rest with
          | nil => exact ⟨s, rfl⟩
          | cons t rest => simp [parent, top, list] at names
    obtain ⟨s, list⟩ := single
    have valid := p.names_valid s (list ▸ List.mem_cons_self)
    simpa [list, Text.joined] using valid

end Path

namespace Root

open SchemaModules.Path (LiesIn)

theorem covers_text_iff {root : Root} {r m : Path} (rootInside : r.Inside)
    (text : r.text = root.path) (inside : m.Inside) :
    root.covers m.text = true ↔ LiesIn m.text root.path ∧ m.text ≠ root.path := by
  rw [covers, ← text, Path.contains_text rootInside inside, LiesIn, Path.parse_text,
    Path.parse_text]
  exact and_congr_right' (not_congr ⟨fun same => congrArg Path.text same.symm,
    fun same => (Path.text_injective same).symm⟩)

/-- No root covers the top. -/
theorem not_covers_top {root : Root} (wf : root.WellFormed) : root.covers "." = false := by
  obtain ⟨r, rootInside, text⟩ := Path.validate_eq_self_iff.mp wf.path_valid
  have top : (Path.top false).text = "." := Path.text_eq_top_iff.mpr rfl
  rw [← Bool.not_eq_true, ← top, covers_text_iff rootInside text ⟨rfl, rfl⟩]
  rintro ⟨lies, differ⟩
  rw [LiesIn, ← text, Path.parse_text, Path.parse_text] at lies
  refine differ (text ▸ congrArg Path.text ?_)
  exact Path.Inside.eq_of_names ⟨rfl, rfl⟩ rootInside (List.prefix_nil.mp lies).symm

/-- The filters of a root are what the code checks a path against. -/
theorem accepts_iff {root : Root} (wf : root.WellFormed) {m : Path} (inside : m.Inside) :
    root.Accepts m.text ↔ root.covers m.text = true ∧
      (root.includesPath m.text && !root.excludesPath m.text) = true := by
  obtain ⟨r, rootInside, text⟩ := Path.validate_eq_self_iff.mp wf.path_valid
  have valid := Path.validate_text inside
  have included : root.includesPath m.text = true ↔
      root.includes = [] ∨ ∃ directory ∈ root.includes, LiesIn m.text directory := by
    simp only [includesPath, Bool.or_eq_true, List.isEmpty_iff, List.any_eq_true]
    refine or_congr_right (exists_congr fun directory => and_congr_right fun member => ?_)
    exact Path.equalsOrContains_iff_liesIn (wf.includes_valid directory member) valid
  have excluded : root.excludesPath m.text = false ↔
      ∀ directory ∈ root.excludes, ¬ LiesIn m.text directory := by
    simp only [excludesPath, List.any_eq_false]
    refine forall₂_congr fun directory member => not_congr ?_
    exact Path.equalsOrContains_iff_liesIn (wf.excludes_valid directory member) valid
  rw [Accepts, covers_text_iff rootInside text inside, Bool.and_eq_true, Bool.not_eq_true',
    included, excluded]

/-- What a root accepts has a place below it. -/
theorem exists_place_of_accepts {root : Root} (wf : root.WellFormed) {path : String}
    (valid : Path.validate path = .ok path) (accepted : root.Accepts path) :
    ∃ place, Path.IsFile place ∧ path = Path.join [root.path, place] := by
  obtain ⟨r, rootInside, text⟩ := Path.validate_eq_self_iff.mp wf.path_valid
  obtain ⟨m, inside, rfl⟩ := Path.validate_eq_self_iff.mp valid
  have covered := ((accepts_iff wf inside).mp accepted).1
  rw [covers, ← text, Path.contains_text_iff_append rootInside inside] at covered
  obtain ⟨q, inner, named, rfl⟩ := covered
  exact ⟨q.text, Path.isFile_text inner named, by rw [← text, Path.join_pair r inner]⟩

/-- Only the root at the top accepts a single name. -/
theorem path_eq_top_of_accepts {root : Root} (wf : root.WellFormed) {path : String}
    (file : Path.IsFile path) (name : Segment.IsName path.toList) (accepted : root.Accepts path) :
    root.path = "." := by
  obtain ⟨r, rootInside, text⟩ := Path.validate_eq_self_iff.mp wf.path_valid
  obtain ⟨m, inside, named, rfl⟩ := Path.isFile_iff.mp file
  have covered := ((accepts_iff wf inside).mp accepted).1
  rw [covers, ← text, Path.contains_text rootInside inside] at covered
  obtain ⟨start, differ⟩ := covered
  have names : r.names ≠ m.names := fun same => differ (rootInside.eq_of_names inside same)
  have above : r.names <+: m.parent.names := (Path.prefix_iff_dropLast.mp start).resolve_left names
  rw [(Path.isName_text_iff inside named).mp name] at above
  rw [← text, Path.text_eq_top_iff]
  exact rootInside.eq_of_names ⟨rfl, rfl⟩ (List.prefix_nil.mp above)

end Root

namespace Boundary

open SchemaModules.Path (LiesIn IsFile)

variable {b : Boundary}

/-- At most one of the roots covers a path. -/
theorem eq_of_liesIn (wf : b.WellFormed) {r s : Root} (first : r ∈ b.roots) (second : s ∈ b.roots)
    {path : String} (left : LiesIn path r.path) (right : LiesIn path s.path) : r = s := by
  by_contra differ
  have : Std.Symm fun r s : Root => ¬ LiesIn s.path r.path ∧ ¬ LiesIn r.path s.path :=
    ⟨fun _ _ => And.symm⟩
  have apart := wf.roots_apart.forall first second differ
  rcases List.prefix_or_prefix_of_prefix left right with above | below
  · exact apart.1 above
  · exact apart.2 below

/-- A file is located where it lies below the root that accepts it. -/
theorem locate?_eq_some_iff (wf : b.WellFormed) {path place : String}
    (valid : Path.validate path = .ok path) :
    b.locate? path = some place ↔ ∃ root ∈ b.roots,
      IsFile place ∧ root.Accepts path ∧ path = Path.join [root.path, place] := by
  obtain ⟨m, inside, rfl⟩ := Path.validate_eq_self_iff.mp valid
  simp only [locate?, locateAmong?, Path.validate_text inside, Except.toOption,
    Option.bind_eq_bind, Option.bind_some]
  constructor
  · intro located
    obtain ⟨root, found, remaining⟩ := Option.bind_eq_some_iff.mp located
    have member := List.mem_of_find?_eq_some found
    have covered := List.find?_some found
    obtain ⟨r, rootInside, text⟩ :=
      Path.validate_eq_self_iff.mp (wf.roots_wellFormed root member).path_valid
    split at remaining
    · next accepted =>
        have below := covered
        rw [Root.covers, ← text, Path.contains_text_iff_append rootInside inside] at below
        obtain ⟨q, inner, named, rfl⟩ := below
        rw [← text, Path.relative_append _ inner] at remaining
        obtain rfl := Option.some.inj remaining
        refine ⟨root, member, Path.isFile_text inner named, ?_, ?_⟩
        · exact (Root.accepts_iff (wf.roots_wellFormed root member) inside).mpr ⟨covered, accepted⟩
        · rw [← text, Path.join_pair r inner]
    · exact absurd remaining (by simp)
  · rintro ⟨root, member, placeFile, accepted, joined⟩
    have rootWf := wf.roots_wellFormed root member
    obtain ⟨r, rootInside, text⟩ := Path.validate_eq_self_iff.mp rootWf.path_valid
    obtain ⟨q, inner, -, rfl⟩ := Path.isFile_iff.mp placeFile
    obtain ⟨covered, filtered⟩ := (Root.accepts_iff rootWf inside).mp accepted
    have found : b.roots.find? (·.covers m.text) = Option.some root := by
      have any : (b.roots.find? (·.covers m.text)).isSome = true :=
        List.find?_isSome.mpr ⟨root, member, covered⟩
      obtain ⟨other, found⟩ := Option.isSome_iff_exists.mp any
      have otherMember := List.mem_of_find?_eq_some found
      obtain ⟨t, otherInside, otherText⟩ :=
        Path.validate_eq_self_iff.mp (wf.roots_wellFormed other otherMember).path_valid
      have otherCovers : other.covers m.text = true := by simpa using List.find?_some found
      have otherLies := (Root.covers_text_iff otherInside otherText inside).mp otherCovers
      rw [found, eq_of_liesIn wf otherMember member otherLies.1 accepted.1.1]
    rw [← text, Path.join_pair r inner] at joined
    rw [found, Option.bind_some, if_pos filtered, ← text, joined,
      Path.relative_append _ inner]

/-- A file is located if some root accepts it. -/
theorem locate?_isSome_iff (wf : b.WellFormed) {path : String}
    (valid : Path.validate path = .ok path) :
    (b.locate? path).isSome = true ↔ ∃ root ∈ b.roots, root.Accepts path := by
  rw [Option.isSome_iff_exists]
  constructor
  · rintro ⟨place, located⟩
    obtain ⟨root, member, -, accepted, -⟩ := (locate?_eq_some_iff wf valid).mp located
    exact ⟨root, member, accepted⟩
  · rintro ⟨root, member, accepted⟩
    obtain ⟨place, file, joined⟩ :=
      Root.exists_place_of_accepts (wf.roots_wellFormed root member) valid accepted
    exact ⟨place, (locate?_eq_some_iff wf valid).mpr ⟨root, member, file, accepted, joined⟩⟩

/-- A path is excluded if it lies in a directory that some root leaves out. -/
theorem isExcluded_iff (wf : b.WellFormed) {path : String} (valid : Path.validate path = .ok path) :
    b.isExcluded path = true ↔ ∃ root ∈ b.roots, ∃ directory ∈ root.excludes,
      LiesIn path directory := by
  obtain ⟨m, inside, rfl⟩ := Path.validate_eq_self_iff.mp valid
  simp only [wf.isExcluded_eq valid, List.any_eq_true, Bool.and_eq_true, Root.excludesPath]
  constructor
  · rintro ⟨root, member, -, directory, excluded, lies⟩
    have normal := (wf.roots_wellFormed root member).excludes_valid directory excluded
    exact ⟨root, member, directory, excluded, (Path.equalsOrContains_iff_liesIn normal valid).mp lies⟩
  · rintro ⟨root, member, directory, excluded, lies⟩
    have rootWf := wf.roots_wellFormed root member
    have normal := rootWf.excludes_valid directory excluded
    refine ⟨root, member, ?_, directory, excluded,
      (Path.equalsOrContains_iff_liesIn normal valid).mpr lies⟩
    -- The directory lies strictly below the root, so whatever lies in it does.
    obtain ⟨r, rootInside, rootText⟩ := Path.validate_eq_self_iff.mp rootWf.path_valid
    obtain ⟨d, inner, text⟩ := Path.validate_eq_self_iff.mp normal
    have below := rootWf.excludes_within directory excluded
    rw [← rootText, ← text, Path.contains_text rootInside inner] at below
    rw [LiesIn, ← text, Path.parse_text, Path.parse_text] at lies
    rw [Root.covers, ← rootText, Path.contains_text rootInside inside]
    refine ⟨below.1.trans lies, ?_⟩
    rintro rfl
    exact below.2 (rootInside.eq_of_names inner (below.1.eq_of_length_le lies.length_le))

theorem isTopLevelExtra_iff (wf : b.WellFormed) {path : String} (file : IsFile path) :
    b.isTopLevelExtra path = true ↔ Segment.IsName path.toList ∧
      Path.extension path ≠ schemaExtension ∧
      ∀ root ∈ b.roots, ∀ directory ∈ root.excludes, ¬ LiesIn path directory := by
  have visible : b.isExcluded path = false ↔
      ∀ root ∈ b.roots, ∀ directory ∈ root.excludes, ¬ LiesIn path directory := by
    rw [← Bool.not_eq_true, isExcluded_iff wf file.1]
    simp only [not_exists, not_and]
  have direct : Path.dir path = "." ↔ Segment.IsName path.toList := by
    obtain ⟨m, inside, named, rfl⟩ := Path.isFile_iff.mp file
    rw [Path.isName_text_iff inside named, Path.dir_text, Path.text_eq_top_iff]
  simp only [isTopLevelExtra, Bool.and_eq_true, decide_eq_true_eq, Bool.not_eq_true', visible,
    direct, and_assoc]

/-- A file is shown where a root that accepts it puts it, and else where it is if it is an extra. -/
theorem show?_eq_some_iff (wf : b.WellFormed) {path place : String} (file : IsFile path) :
    b.show? path = some place ↔
      (∃ root ∈ b.roots, IsFile place ∧ root.Accepts path ∧ path = Path.join [root.path, place]) ∨
      (place = path ∧ b.isTopLevelExtra path = true ∧ ∀ root ∈ b.roots, ¬ root.Accepts path) := by
  rw [← locate?_eq_some_iff wf file.1]
  unfold show?
  cases located : b.locate? path with
  | some other =>
      obtain ⟨root, member, -, accepted, -⟩ := (locate?_eq_some_iff wf file.1).mp located
      have taken : ¬ ∀ root ∈ b.roots, ¬ root.Accepts path := fun none => none root member accepted
      simp [taken]
  | none =>
      have free : ∀ root ∈ b.roots, ¬ root.Accepts path := by
        intro root member accepted
        obtain ⟨place, placeFile, joined⟩ :=
          Root.exists_place_of_accepts (wf.roots_wellFormed root member) file.1 accepted
        have found := (locate?_eq_some_iff wf file.1).mpr ⟨root, member, placeFile, accepted, joined⟩
        exact absurd (located.symm.trans found) (by simp)
      by_cases extra : b.isTopLevelExtra path = true
      · simp only [extra, if_true, Option.some.injEq, reduceCtorEq, false_or, and_iff_left free,
          and_true]
        exact eq_comm
      · simp [extra]

/-! ## From the workspace to the module -/

/-- A file of the workspace is seen from the module's directory if it lies there. -/
theorem fromDirectory?_cases (wf : b.WellFormed) {file : String} (valid : IsFile file) :
    (∃ path, IsFile path ∧ file = Path.join [b.dirPath, path] ∧
        b.fromDirectory? file = .ok (some path)) ∨
      ((∀ path, IsFile path → file ≠ Path.join [b.dirPath, path]) ∧
        b.fromDirectory? file = .ok none) := by
  obtain ⟨w, inside, named, rfl⟩ := Path.isFile_iff.mp valid
  obtain ⟨d, dirInside, dirText⟩ := Path.validate_eq_self_iff.mp wf.dirPath_valid
  unfold fromDirectory?
  by_cases atTop : b.dirPath = "."
  · refine .inl ⟨w.text, valid, ?_, if_pos atTop⟩
    rw [atTop, Path.top_join valid.1]
  · have below : Path.contains b.dirPath w.text .relative = true ↔
        ∃ r : Path, r.Inside ∧ r.names ≠ [] ∧ w = d.append r := by
      rw [← dirText, Path.contains_text_iff_append dirInside inside]
    rw [if_neg atTop]
    by_cases inDirectory : Path.contains b.dirPath w.text .relative = true
    · obtain ⟨r, inner, some, rfl⟩ := below.mp inDirectory
      refine .inl ⟨r.text, Path.isFile_text inner some, ?_, ?_⟩
      · rw [← dirText, Path.join_pair d inner]
      · rw [if_pos inDirectory, ← dirText, Path.relative_append _ inner]
        rfl
    · refine .inr ⟨?_, if_neg inDirectory⟩
      intro path pathFile joined
      obtain ⟨m, inner, some, rfl⟩ := Path.isFile_iff.mp pathFile
      rw [← dirText, Path.join_pair d inner] at joined
      exact inDirectory (below.mpr ⟨m, inner, some, Path.text_injective joined⟩)

theorem join_root (wf : b.WellFormed) {root : Root} (member : root ∈ b.roots) {place : String}
    (file : IsFile place) :
    IsFile (Path.join [root.path, place]) ∧
      Path.join [b.dirPath, root.path, place] =
        Path.join [b.dirPath, Path.join [root.path, place]] := by
  obtain ⟨d, -, dirText⟩ := Path.validate_eq_self_iff.mp wf.dirPath_valid
  obtain ⟨r, inside, rootText⟩ :=
    Path.validate_eq_self_iff.mp (wf.roots_wellFormed root member).path_valid
  obtain ⟨m, inner, named, rfl⟩ := Path.isFile_iff.mp file
  have joined : (r.append m).Inside := inside.append
  rw [← dirText, ← rootText, Path.join_pair r inner, Path.join_pair d joined,
    Path.join_triple d inside inner, Path.append_assoc]
  refine ⟨Path.isFile_text joined ?_, rfl⟩
  exact fun none => named (List.append_eq_nil_iff.mp none).2

/-- A single name is the path of a file. -/
theorem isFile_of_isName {place : String} (name : Segment.IsName place.toList) : IsFile place := by
  refine Path.isFile_iff.mpr ⟨⟨false, 0, [place.toList], ?_, by simp⟩, ⟨rfl, rfl⟩, by simp, ?_⟩
  · simpa using name
  · simp [Path.text, Path.chars, Path.segments, Text.joined]

/-- What is mapped lies in the module's directory. -/
theorem Maps.exists_path (wf : b.WellFormed) {file place : String} (maps : b.Maps file place) :
    ∃ path, IsFile path ∧ file = Path.join [b.dirPath, path] := by
  rcases maps with ⟨root, member, placeFile, -, rfl⟩ | ⟨name, -, rfl, -⟩
  · obtain ⟨joinedFile, joined⟩ := join_root wf member placeFile
    exact ⟨_, joinedFile, joined⟩
  · exact ⟨place, isFile_of_isName name, rfl⟩

theorem Maps.isFile {file place : String} (maps : b.Maps file place) : IsFile place := by
  rcases maps with ⟨_, _, placeFile, -, -⟩ | ⟨name, -⟩
  · exact placeFile
  · exact isFile_of_isName name

/-- What is mapped is a file of the workspace. -/
theorem Maps.isFile_source (wf : b.WellFormed) {file place : String} (maps : b.Maps file place) :
    IsFile file := by
  obtain ⟨path, pathFile, rfl⟩ := maps.exists_path wf
  obtain ⟨d, inside, dirText⟩ := Path.validate_eq_self_iff.mp wf.dirPath_valid
  obtain ⟨m, inner, named, rfl⟩ := Path.isFile_iff.mp pathFile
  rw [← dirText, Path.join_pair d inner]
  exact Path.isFile_text inside.append fun none => named (List.append_eq_nil_iff.mp none).2

/-- A file of the module's directory is mapped to where it is shown. -/
theorem maps_join_iff (wf : b.WellFormed) {path place : String} (file : IsFile path) :
    b.Maps (Path.join [b.dirPath, path]) place ↔ b.show? path = some place := by
  rw [show?_eq_some_iff wf file, Maps]
  refine or_congr (exists_congr fun root => and_congr_right fun member => ?_) ?_
  · refine and_congr_right fun placeFile => ?_
    obtain ⟨joinedFile, joined⟩ := join_root wf member placeFile
    rw [joined, Path.join_right_inj wf.dirPath_valid file.1 joinedFile.1]
    constructor
    · rintro ⟨accepted, rfl⟩
      exact ⟨accepted, rfl⟩
    · rintro ⟨accepted, rfl⟩
      exact ⟨accepted, rfl⟩
  · constructor
    · rintro ⟨name, extension, same, visible, free⟩
      obtain rfl :=
        (Path.join_right_inj wf.dirPath_valid file.1 (isFile_of_isName name).1).mp same
      exact ⟨rfl, (isTopLevelExtra_iff wf file).mpr ⟨name, extension, visible⟩, free⟩
    · rintro ⟨rfl, extra, free⟩
      obtain ⟨name, extension, visible⟩ := (isTopLevelExtra_iff wf file).mp extra
      exact ⟨name, extension, rfl, visible, free⟩

/-- The listing follows the map from a file to its place. -/
theorem place?_eq_ok_some_iff (wf : b.WellFormed) {file place : String} (valid : IsFile file) :
    b.place? file = .ok (some place) ↔ b.Maps file place := by
  unfold place?
  rcases fromDirectory?_cases wf valid with ⟨path, pathFile, rfl, found⟩ | ⟨elsewhere, found⟩
  · rw [found, maps_join_iff wf pathFile]
    exact ⟨fun equal => Except.ok.inj equal, fun equal => congrArg Except.ok equal⟩
  · rw [found]
    constructor
    · rintro ⟨⟩
    · intro maps
      obtain ⟨path, pathFile, joined⟩ := maps.exists_path wf
      exact absurd joined (elsewhere path pathFile)

theorem place?_total (wf : b.WellFormed) {file : String} (valid : IsFile file) :
    ∃ place, b.place? file = .ok place := by
  unfold place?
  rcases fromDirectory?_cases wf valid with ⟨_, _, _, found⟩ | ⟨_, found⟩
  · rw [found]
    exact ⟨_, rfl⟩
  · rw [found]
    exact ⟨_, rfl⟩

/-- A file is mapped to one place. -/
theorem Maps.unique (wf : b.WellFormed) {file place other : String} (valid : IsFile file)
    (first : b.Maps file place) (second : b.Maps file other) : place = other := by
  rw [← place?_eq_ok_some_iff wf valid] at first second
  exact Option.some.inj (Except.ok.inj (first.symm.trans second))

/-- A file further down in the module's directory that no root accepts is mapped nowhere. -/
theorem not_maps_of_not_accepts (wf : b.WellFormed) {path : String} (file : IsFile path)
    (inner : ¬ Segment.IsName path.toList) (free : ∀ root ∈ b.roots, ¬ root.Accepts path)
    (place : String) : ¬ b.Maps (Path.join [b.dirPath, path]) place := by
  rw [maps_join_iff wf file, show?_eq_some_iff wf file]
  rintro (⟨root, member, -, accepted, -⟩ | ⟨-, extra, -⟩)
  · exact free root member accepted
  · exact inner ((isTopLevelExtra_iff wf file).mp extra).1

/-! ## Back from the module to the workspace -/

/-- The lookup follows the map back from a place to the files that could be there. -/
theorem mem_sources_iff (wf : b.WellFormed) {file place : String} (valid : IsFile place) :
    file ∈ b.sources place ↔ b.Maps file place := by
  have inRoots : (∃ root ∈ b.roots, b.locate? (Path.join [root.path, place]) = some place ∧
      Path.join [b.dirPath, Path.join [root.path, place]] = file) ↔
      ∃ root ∈ b.roots, IsFile place ∧ root.Accepts (Path.join [root.path, place]) ∧
        file = Path.join [b.dirPath, root.path, place] := by
    constructor
    · rintro ⟨root, member, located, rfl⟩
      obtain ⟨joinedFile, joined⟩ := join_root wf member valid
      obtain ⟨other, otherMember, -, accepted, same⟩ :=
        (locate?_eq_some_iff wf joinedFile.1).mp located
      refine ⟨other, otherMember, valid, same ▸ accepted, ?_⟩
      rw [same, (join_root wf otherMember valid).2]
    · rintro ⟨root, member, -, accepted, rfl⟩
      obtain ⟨joinedFile, joined⟩ := join_root wf member valid
      exact ⟨root, member,
        (locate?_eq_some_iff wf joinedFile.1).mpr ⟨root, member, valid, accepted, rfl⟩, joined.symm⟩
  have listed : file ∈ b.sources place ↔
      (∃ root ∈ b.roots, b.locate? (Path.join [root.path, place]) = some place ∧
        Path.join [b.dirPath, Path.join [root.path, place]] = file) ∨
      (b.isTopLevelExtra place = true ∧ file = Path.join [b.dirPath, place]) := by
    simp [sources]
  rw [listed, inRoots, isTopLevelExtra_iff wf valid, Maps]
  constructor
  · rintro (inRoot | ⟨⟨name, extension, visible⟩, rfl⟩)
    · exact .inl inRoot
    · by_cases free : ∀ root ∈ b.roots, ¬ root.Accepts place
      · exact .inr ⟨name, extension, rfl, visible, free⟩
      · -- A root that accepts the name lies at the top, and puts it there as well.
        simp only [not_forall, not_not] at free
        obtain ⟨root, member, accepted⟩ := free
        have atTop := Root.path_eq_top_of_accepts (wf.roots_wellFormed root member) valid name accepted
        have same : Path.join [root.path, place] = place := by
          rw [atTop, Path.top_join valid.1]
        refine .inl ⟨root, member, valid, same.symm ▸ accepted, ?_⟩
        rw [(join_root wf member valid).2, same]
  · rintro (inRoot | ⟨name, extension, rfl, visible, -⟩)
    · exact .inl inRoot
    · exact .inr ⟨⟨name, extension, visible⟩, rfl⟩

/-- The one source of the top is the module's directory: no root puts a file there, and the top
passes for a file of the directory that no root takes in. -/
theorem sources_top (wf : b.WellFormed) : b.sources "." = [b.dirPath] := by
  have topValid : Path.validate "." = .ok "." := by decide
  have noRoot : (b.roots.filterMap fun root =>
      if b.locate? (Path.join [root.path, "."]) = some "." then
        some (Path.join [b.dirPath, Path.join [root.path, "."]]) else none) = [] := by
    rw [List.filterMap_eq_nil_iff]
    intro root member
    rw [if_neg]
    intro located
    have rootValid := (wf.roots_wellFormed root member).path_valid
    rw [Path.join_top rootValid, locate?_eq_some_iff wf rootValid] at located
    obtain ⟨_, _, placeFile, -⟩ := located
    exact placeFile.2 rfl
  have visible : b.isExcluded "." = false := by
    rw [wf.isExcluded_eq topValid, List.any_eq_false]
    intro root member
    rw [Root.not_covers_top (wf.roots_wellFormed root member)]
    exact Bool.false_ne_true
  have extra : b.isTopLevelExtra "." = true := by
    have direct : Path.dir "." = "." := by decide
    have extension : Path.extension "." ≠ schemaExtension := by decide
    simp [isTopLevelExtra, direct, extension, visible]
  simp only [sources, noRoot, extra, if_true, Path.join_top wf.dirPath_valid, List.nil_append]

end Boundary

end SchemaModules
