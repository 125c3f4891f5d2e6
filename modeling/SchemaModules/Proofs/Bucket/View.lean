import SchemaModules.Proofs.Boundary.Decision
import SchemaModules.Proofs.Bucket.Memory

/-! # What is seen of a workspace through a boundary

The listing notes the files of the workspace one after another at their places (`note_run`). It
stops exactly when two files are mapped to one place, and the lookup finds the file that the listing
noted (`source?_eq_some_iff`).
-/

namespace SchemaModules.Boundary

open SchemaModules.Path (IsFile)

variable {b : Boundary}

/-- The map from places to files that are mapped to them, of those of a list. -/
def Noted (b : Boundary) (files : List String) (shown : SortedMap String String) : Prop :=
  ∀ place file, shown.find? place = some file ↔ file ∈ files ∧ b.Maps file place

/-- Two different files of a list are mapped to one place. -/
def Clash (b : Boundary) (files : List String) (place first second : String) : Prop :=
  first ∈ files ∧ second ∈ files ∧ first ≠ second ∧ b.Maps first place ∧ b.Maps second place

/-! ## Noting one file -/

theorem note_unplaced {shown : SortedMap String String} {file : String}
    (placed : b.place? file = .ok none) : b.note shown file = .ok shown := by
  unfold note
  rw [placed]
  rfl

theorem note_free {shown : SortedMap String String} {file place : String}
    (placed : b.place? file = .ok (some place)) (free : shown.find? place = none) :
    b.note shown file = .ok (shown.insert place file) := by
  simp only [note, placed, bind, Except.bind, free]
  rfl

theorem note_taken {shown : SortedMap String String} {file place first : String}
    (placed : b.place? file = .ok (some place)) (taken : shown.find? place = some first) :
    b.note shown file = .error (.duplicatePath place first file) := by
  simp only [note, placed, bind, Except.bind, taken]
  rfl

theorem Noted.skip {seen : List String} {shown : SortedMap String String}
    (noted : b.Noted seen shown) {file : String} (unmapped : ∀ place, ¬ b.Maps file place) :
    b.Noted (seen ++ [file]) shown := by
  intro place other
  rw [noted place other, List.mem_append, List.mem_singleton]
  constructor
  · rintro ⟨earlier, mapped⟩
    exact ⟨.inl earlier, mapped⟩
  · rintro ⟨earlier | rfl, mapped⟩
    · exact ⟨earlier, mapped⟩
    · exact absurd mapped (unmapped place)

theorem Noted.insert {seen : List String} {shown : SortedMap String String}
    (noted : b.Noted seen shown) {file place : String}
    (maps : ∀ other, b.Maps file other ↔ other = place)
    (free : shown.find? place = none) : b.Noted (seen ++ [file]) (shown.insert place file) := by
  intro other source
  rw [SortedMap.find?_insert, List.mem_append, List.mem_singleton]
  by_cases same : other = place
  · subst same
    rw [if_pos rfl, Option.some.injEq]
    constructor
    · rintro rfl
      exact ⟨.inr rfl, (maps other).mpr rfl⟩
    · rintro ⟨earlier | rfl, mapped⟩
      · have found := (noted other source).mpr ⟨earlier, mapped⟩
        exact absurd (free.symm.trans found) (by simp)
      · rfl
  · rw [if_neg same, noted other source]
    constructor
    · rintro ⟨earlier, mapped⟩
      exact ⟨.inl earlier, mapped⟩
    · rintro ⟨earlier | rfl, mapped⟩
      · exact ⟨earlier, mapped⟩
      · exact absurd ((maps other).mp mapped) same

/-- One more file is noted at its place, or clashes with a file noted there before. -/
theorem note_step (wf : b.WellFormed) {seen : List String} {shown : SortedMap String String}
    (noted : b.Noted seen shown) {file : String} (valid : IsFile file) (fresh : file ∉ seen) :
    (∃ next, b.note shown file = .ok next ∧ b.Noted (seen ++ [file]) next) ∨
      ∃ place first, b.note shown file = .error (.duplicatePath place first file) ∧
        b.Clash (seen ++ [file]) place first file := by
  obtain ⟨found, placed⟩ := place?_total wf valid
  cases found with
  | none =>
      refine .inl ⟨shown, note_unplaced placed, noted.skip ?_⟩
      intro place mapped
      have found := (place?_eq_ok_some_iff wf valid).mpr mapped
      exact absurd (placed.symm.trans found) (by simp)
  | some place =>
      have here : b.Maps file place := (place?_eq_ok_some_iff wf valid).mp placed
      cases taken : shown.find? place with
      | some first =>
          obtain ⟨earlier, mapped⟩ := (noted place first).mp taken
          refine .inr ⟨place, first, note_taken placed taken, List.mem_append_left _ earlier,
            List.mem_append_right _ List.mem_cons_self, ?_, mapped, here⟩
          rintro rfl
          exact fresh earlier
      | none =>
          refine .inl ⟨_, note_free placed taken, noted.insert (fun other => ?_) taken⟩
          constructor
          · intro mapped
            exact mapped.unique wf valid here
          · rintro rfl
            exact here

/-! ## The listing -/

/-- Files noted one after another are all noted, or two of them clash. -/
theorem note_run (wf : b.WellFormed) {seen files : List String} {shown : SortedMap String String}
    (noted : b.Noted seen shown) (valid : ∀ file ∈ files, IsFile file)
    (distinct : (seen ++ files).Nodup) :
    (∃ final, files.foldlM b.note shown = .ok final ∧ b.Noted (seen ++ files) final) ∨
      ∃ place first second, files.foldlM b.note shown = .error (.duplicatePath place first second) ∧
        b.Clash (seen ++ files) place first second := by
  induction files generalizing seen shown with
  | nil => exact .inl ⟨shown, rfl, by rwa [List.append_nil]⟩
  | cons file rest ih =>
      have split : seen ++ file :: rest = (seen ++ [file]) ++ rest := by simp
      rw [split] at distinct ⊢
      rw [List.foldlM_cons]
      have fresh : file ∉ seen := by
        intro earlier
        have apart := (List.nodup_append.mp (List.nodup_append.mp distinct).1).2.2
        exact apart file earlier file List.mem_cons_self rfl
      rcases note_step wf noted (valid file List.mem_cons_self) fresh with
        ⟨next, step, later⟩ | ⟨place, first, step, clash⟩
      · rw [step]
        exact ih later (fun other member => valid other (List.mem_cons_of_mem _ member)) distinct
      · rw [step]
        refine .inr ⟨place, first, file, rfl, ?_⟩
        exact ⟨List.mem_append_left _ clash.1, List.mem_append_left _ clash.2.1, clash.2.2⟩

/-- A view lists the places at which the files are noted, or fails at two that clash. -/
theorem paths_view (wf : b.WellFormed) {workspace : Bucket} {files : List String}
    (listed : workspace.paths = .ok files) (valid : ∀ file ∈ files, IsFile file)
    (distinct : files.Nodup) :
    (∃ shown : SortedMap String String,
        (b.view workspace).paths = .ok shown.keys ∧ b.Noted files shown) ∨
      ∃ place first second,
        (b.view workspace).paths = .error (.duplicatePath place first second) ∧
        b.Clash files place first second := by
  have nothing : b.Noted [] SortedMap.empty := by simp [Noted]
  rcases note_run wf nothing valid distinct with
    ⟨final, run, noted⟩ | ⟨place, first, second, run, clash⟩
  · refine .inl ⟨final, ?_, noted⟩
    simp only [view, listed, bind, Except.bind, run]
    rfl
  · refine .inr ⟨place, first, second, ?_, clash⟩
    simp only [view, listed, bind, Except.bind, run]

/-- A view of files in memory lists the places at which they are noted, or fails at two that
clash. -/
theorem paths_view_toBucket (wf : b.WellFormed) {files : MemoryBucket} (built : files.IsBuilt) :
    (∃ shown : SortedMap String String,
        (b.view files.toBucket).paths = .ok shown.keys ∧ b.Noted files.fileMap.keys shown) ∨
      ∃ place first second,
        (b.view files.toBucket).paths = .error (.duplicatePath place first second) ∧
        b.Clash files.fileMap.keys place first second :=
  paths_view wf rfl built.isFile files.fileMap.nodup_keys

/-- Where files are noted, no two of them clash. -/
theorem Noted.no_clash {files : List String} {shown : SortedMap String String}
    (noted : b.Noted files shown) {place first second : String} :
    ¬ b.Clash files place first second := by
  rintro ⟨one, other, differ, left, right⟩
  have here := (noted place first).mpr ⟨one, left⟩
  have there := (noted place second).mpr ⟨other, right⟩
  exact differ (Option.some.inj (here.symm.trans there))

theorem Noted.mem_keys_iff {files : List String} {shown : SortedMap String String}
    (noted : b.Noted files shown) (place : String) :
    place ∈ shown.keys ↔ ∃ file ∈ files, b.Maps file place := by
  rw [SortedMap.mem_keys_iff]
  exact exists_congr fun file => noted place file

/-! ## The lookup -/

section Lookup

variable {workspace : Bucket} {path place : String}

/-- What is read at a path is the first source of its normal form that the workspace has. -/
theorem source?_eq_some_iff {source : String} :
    b.source? workspace path = some source ↔
      ∃ place, Path.validate path = .ok place ∧
        (b.sources place).find? workspace.contains = some source := by
  simp only [source?]
  cases Path.validate path with
  | ok place => simp [Except.toOption]
  | error _ => simp [Except.toOption]

/-- Paths with one normal form have the same source. -/
theorem source?_normalize :
    b.source? workspace (Path.normalize path) = b.source? workspace path := by
  apply Option.ext
  intro source
  simp only [source?_eq_some_iff, Path.validate_normalize_eq_ok_iff]

theorem contains_of_source? {source : String} (found : b.source? workspace path = some source) :
    workspace.contains source = true := by
  obtain ⟨_, -, first⟩ := source?_eq_some_iff.mp found
  exact List.find?_some first

theorem maps_of_source? (wf : b.WellFormed) (file : IsFile place)
    (normal : Path.normalize path = place) {source : String}
    (found : b.source? workspace path = some source) : b.Maps source place := by
  obtain ⟨other, valid, first⟩ := source?_eq_some_iff.mp found
  obtain rfl := Except.ok.inj (valid.symm.trans (file.validate_of_normalize normal))
  exact (mem_sources_iff wf file).mp (List.mem_of_find?_eq_some first)

theorem source?_isSome_iff (wf : b.WellFormed) (file : IsFile place)
    (normal : Path.normalize path = place) :
    (b.source? workspace path).isSome = true ↔
      ∃ source, b.Maps source place ∧ workspace.contains source = true := by
  have valid := file.validate_of_normalize normal
  constructor
  · intro isSome
    obtain ⟨source, found⟩ := Option.isSome_iff_exists.mp isSome
    exact ⟨source, maps_of_source? wf file normal found, contains_of_source? found⟩
  · rintro ⟨source, mapped, kept⟩
    have member := (mem_sources_iff wf file).mpr mapped
    have isSome := List.find?_isSome.mpr ⟨source, member, kept⟩
    obtain ⟨first, found⟩ := Option.isSome_iff_exists.mp isSome
    exact Option.isSome_iff_exists.mpr ⟨first, source?_eq_some_iff.mpr ⟨place, valid, found⟩⟩

end Lookup

/-! ## The files of a workspace in memory -/

/-- At a place where a file is noted, that file is found and read. -/
theorem read_of_noted (wf : b.WellFormed) {files : MemoryBucket}
    {shown : SortedMap String String} (noted : b.Noted files.fileMap.keys shown)
    {place file : String} (here : shown.find? place = some file) :
    b.source? files.toBucket place = some file ∧
      ∃ content, files.fileMap.find? file = some content ∧
        (b.view files.toBucket).read place = .ok content := by
  obtain ⟨member, mapped⟩ := (noted place file).mp here
  have fileValid := mapped.isFile_source wf
  have normal := mapped.isFile.normalize_eq
  have kept : files.toBucket.contains file = true := by
    rw [MemoryBucket.contains_iff, fileValid.normalize_eq]
    exact member
  have isSome := (source?_isSome_iff wf mapped.isFile normal).mpr ⟨file, mapped, kept⟩
  obtain ⟨source, found⟩ := Option.isSome_iff_exists.mp isSome
  have sourceMapped := maps_of_source? wf mapped.isFile normal found
  have sourceKept := contains_of_source? found
  rw [MemoryBucket.contains_iff, (sourceMapped.isFile_source wf).normalize_eq] at sourceKept
  have there := (noted place source).mpr ⟨sourceKept, sourceMapped⟩
  obtain rfl := Option.some.inj (here.symm.trans there)
  refine ⟨found, ?_⟩
  obtain ⟨content, held⟩ := (SortedMap.mem_keys_iff _ _).mp member
  refine ⟨content, held, ?_⟩
  simp only [view, found]
  rw [MemoryBucket.read_eq_ok_iff, fileValid.normalize_eq]
  exact held

/-- Each place at which a file is noted reads that file, and no other file is mapped to it. -/
theorem Noted.reads (wf : b.WellFormed) {files : MemoryBucket} {shown : SortedMap String String}
    (noted : b.Noted files.fileMap.keys shown) {place : String} (member : place ∈ shown.keys) :
    ∃ file content, files.fileMap.find? file = some content ∧ b.Maps file place ∧
      (∀ other ∈ files.fileMap.keys, b.Maps other place → other = file) ∧
      b.source? files.toBucket place = some file ∧
      (b.view files.toBucket).read place = .ok content := by
  obtain ⟨file, here⟩ := (SortedMap.mem_keys_iff _ _).mp member
  obtain ⟨found, content, held, read⟩ := read_of_noted wf noted here
  refine ⟨file, content, held, ((noted place file).mp here).2, ?_, found, read⟩
  intro other among mapped
  exact Option.some.inj (((noted place other).mpr ⟨among, mapped⟩).symm.trans here)

/-- Different places at which files are noted read different files. -/
theorem Noted.separates (wf : b.WellFormed) {files : MemoryBucket} (built : files.IsBuilt)
    {shown : SortedMap String String} (noted : b.Noted files.fileMap.keys shown)
    {place other : String} (member : place ∈ shown.keys) (otherMember : other ∈ shown.keys)
    (same : b.source? files.toBucket place = b.source? files.toBucket other) : place = other := by
  obtain ⟨file, here⟩ := (SortedMap.mem_keys_iff _ _).mp member
  obtain ⟨source, there⟩ := (SortedMap.mem_keys_iff _ _).mp otherMember
  rw [(read_of_noted wf noted here).1, (read_of_noted wf noted there).1] at same
  obtain rfl := Option.some.inj same
  obtain ⟨among, left⟩ := (noted place file).mp here
  exact left.unique wf (built.isFile file among) ((noted other file).mp there).2

/-- A view of files in memory fails exactly when two of them are mapped to one place, and names
them. Else it lists the places that files are mapped to, and reads at each of them the one file that
is mapped to it, so that different places are those of different files. -/
theorem view_realises_maps (constructed : b.IsConstructed) {files : MemoryBucket}
    (built : files.IsBuilt) :
    ((∃ place first second,
        (b.view files.toBucket).paths = .error (.duplicatePath place first second)) ↔
      ∃ place first second, b.Clash files.fileMap.keys place first second) ∧
    (∀ error, (b.view files.toBucket).paths = .error error → ∃ place first second,
      error = .duplicatePath place first second ∧ b.Clash files.fileMap.keys place first second) ∧
    ((¬ ∃ place first second, b.Clash files.fileMap.keys place first second) →
      ∃ places, (b.view files.toBucket).paths = .ok places ∧ places.Pairwise (· < ·) ∧
        (∀ place, place ∈ places ↔ ∃ file ∈ files.fileMap.keys, b.Maps file place) ∧
        (∀ place ∈ places, ∃ file content,
          files.fileMap.find? file = some content ∧ b.Maps file place ∧
          (∀ other ∈ files.fileMap.keys, b.Maps other place → other = file) ∧
          b.source? files.toBucket place = some file ∧
          (b.view files.toBucket).read place = .ok content) ∧
        ∀ place ∈ places, ∀ other ∈ places,
          b.source? files.toBucket place = b.source? files.toBucket other → place = other) := by
  have wf := constructed.wellFormed
  have kept : files.toBucket.paths = .ok files.fileMap.keys := rfl
  rcases paths_view wf kept built.isFile (SortedMap.nodup_keys _) with
    ⟨shown, listed, noted⟩ | ⟨place, first, second, failed, clash⟩
  · have succeeds : ∀ error, (b.view files.toBucket).paths ≠ .error error := by
      intro error stopped
      exact absurd (listed.symm.trans stopped) (by simp)
    refine ⟨?_, fun error stopped => absurd stopped (succeeds error), fun _ => ?_⟩
    · constructor
      · rintro ⟨place, first, second, stopped⟩
        exact absurd stopped (succeeds _)
      · rintro ⟨place, first, second, clash⟩
        exact absurd clash noted.no_clash
    · refine ⟨shown.keys, listed, shown.keys_ascending, noted.mem_keys_iff, ?_, ?_⟩
      · intro place member
        exact noted.reads wf member
      · intro place member other otherMember same
        exact noted.separates wf built member otherMember same
  · refine ⟨?_, ?_, ?_⟩
    · exact ⟨fun _ => ⟨place, first, second, clash⟩, fun _ => ⟨place, first, second, failed⟩⟩
    · intro error stopped
      obtain rfl := Except.error.inj (stopped.symm.trans failed)
      exact ⟨place, first, second, rfl, clash⟩
    · intro free
      exact absurd ⟨place, first, second, clash⟩ free

/-- The module in one directory of a workspace. -/
def inDirectory : Boundary := ⟨.v2, "proto", none, topOnly, topOnly⟩

theorem isConstructed_inDirectory : inDirectory.IsConstructed :=
  ⟨.v2, "proto", none, .empty, .empty, rfl⟩

/-- A workspace with files in both roots, one of them left out, and a license. -/
def licensed : MemoryBucket :=
  (((MemoryBucket.empty.insertValid "a/x.proto" [1]).insertValid "a/y/z.proto" [2]).insertValid
    "b/w.proto" [3]).insertValid "LICENSE" [4]

/-- The same with a second file for one of the places. -/
def clashing : MemoryBucket := licensed.insertValid "b/x.proto" [5]

theorem isBuilt_licensed : licensed.IsBuilt :=
  .insertValid (.insertValid (.insertValid (.insertValid .empty _ _) _ _) _ _) _ _

theorem isBuilt_clashing : clashing.IsBuilt := isBuilt_licensed.insertValid _ _

/-- Where the files of both workspaces are mapped to. -/
def homes : List (String × String) :=
  [("LICENSE", "LICENSE"), ("a/x.proto", "x.proto"), ("b/w.proto", "w.proto"),
    ("b/x.proto", "x.proto")]

theorem maps_withExclude_iff {file place : String} (member : file ∈ clashing.fileMap.keys) :
    withExclude.Maps file place ↔ (file, place) ∈ homes := by
  have wf := isConstructed_withExclude.wellFormed
  have mapped : ∀ entry ∈ homes, withExclude.Maps entry.1 entry.2 := by decide
  have known : ∀ file ∈ clashing.fileMap.keys,
      file = "a/y/z.proto" ∨ ∃ entry ∈ homes, entry.1 = file := by decide
  refine ⟨fun maps => ?_, mapped (file, place)⟩
  rcases known file member with rfl | ⟨⟨_, home⟩, listed, rfl⟩
  · have leftOut := @not_maps_of_not_accepts _ wf "a/y/z.proto" (by decide) (by decide) (by decide)
    exact absurd maps (leftOut place)
  · obtain rfl := maps.unique wf (maps.isFile_source wf) (mapped _ listed)
    exact listed

theorem mem_clashing_of_licensed : ∀ file ∈ licensed.fileMap.keys, file ∈ clashing.fileMap.keys := by
  decide

theorem no_clash_licensed {place first second : String} :
    ¬ withExclude.Clash licensed.fileMap.keys place first second := by
  rintro ⟨one, other, differ, left, right⟩
  have single : ∀ e ∈ homes, ∀ f ∈ homes, e.1 ∈ licensed.fileMap.keys →
      f.1 ∈ licensed.fileMap.keys → e.2 = f.2 → e.1 = f.1 := by decide
  exact differ (single _ ((maps_withExclude_iff (mem_clashing_of_licensed first one)).mp left) _
    ((maps_withExclude_iff (mem_clashing_of_licensed second other)).mp right) one other rfl)

theorem exists_maps_licensed_iff {place : String} :
    (∃ file ∈ licensed.fileMap.keys, withExclude.Maps file place) ↔
      place ∈ ["LICENSE", "w.proto", "x.proto"] := by
  constructor
  · rintro ⟨file, member, maps⟩
    have allowed : ∀ e ∈ homes, e.1 ∈ licensed.fileMap.keys →
        e.2 ∈ ["LICENSE", "w.proto", "x.proto"] := by decide
    exact allowed _ ((maps_withExclude_iff (mem_clashing_of_licensed file member)).mp maps) member
  · have taken : ∀ place ∈ ["LICENSE", "w.proto", "x.proto"],
        ∃ file ∈ licensed.fileMap.keys, withExclude.Maps file place := by decide
    exact taken place

theorem place_of_clash {place first second : String}
    (clash : withExclude.Clash clashing.fileMap.keys place first second) : place = "x.proto" := by
  obtain ⟨one, other, differ, left, right⟩ := clash
  have single : ∀ e ∈ homes, ∀ f ∈ homes, e.2 = f.2 → e.1 ≠ f.1 → e.2 = "x.proto" := by decide
  exact single _ ((maps_withExclude_iff one).mp left) _ ((maps_withExclude_iff other).mp right)
    rfl differ

/-- Two roots show their files side by side and a license at the top, but for the file that is left
out. With a second file for one of the places they show nothing. -/
theorem view_of_two_roots_realises_maps :
    withExclude.IsConstructed ∧ licensed.IsBuilt ∧ clashing.IsBuilt ∧
      (withExclude.view licensed.toBucket).paths = .ok ["LICENSE", "w.proto", "x.proto"] ∧
      (withExclude.view licensed.toBucket).read "x.proto" = .ok [1] ∧
      (withExclude.view licensed.toBucket).read "LICENSE" = .ok [4] ∧
      ∃ first second, (withExclude.view clashing.toBucket).paths =
          .error (.duplicatePath "x.proto" first second) ∧
        withExclude.Clash clashing.fileMap.keys "x.proto" first second := by
  have apart : ¬ ∃ place first second,
      withExclude.Clash licensed.fileMap.keys place first second :=
    fun ⟨_, _, _, clash⟩ => no_clash_licensed clash
  obtain ⟨places, listed, ascending, shown, reads, -⟩ :=
    (view_realises_maps isConstructed_withExclude isBuilt_licensed).2.2 apart
  obtain rfl : places = ["LICENSE", "w.proto", "x.proto"] :=
    SortedMap.eq_of_mem_iff_of_ascending ascending (by decide) fun place =>
      (shown place).trans exists_maps_licensed_iff
  have read : ∀ place ∈ ["LICENSE", "w.proto", "x.proto"], ∀ file ∈ licensed.fileMap.keys,
      withExclude.Maps file place → ∀ content, licensed.fileMap.find? file = some content →
        (withExclude.view licensed.toBucket).read place = .ok content := by
    intro place among file member maps content held
    obtain ⟨source, found, kept, -, only, -, here⟩ := reads place among
    obtain rfl := only file member maps
    obtain rfl := Option.some.inj (held.symm.trans kept)
    exact here
  have clash : withExclude.Clash clashing.fileMap.keys "x.proto" "a/x.proto" "b/x.proto" := by
    refine ⟨?_, ?_, ?_, ?_, ?_⟩ <;> decide
  obtain ⟨stops, named, -⟩ := view_realises_maps isConstructed_withExclude isBuilt_clashing
  obtain ⟨place, first, second, failed⟩ := stops.mpr ⟨_, _, _, clash⟩
  obtain ⟨_, _, _, ⟨⟩, found⟩ := named _ failed
  obtain rfl := place_of_clash found
  exact ⟨isConstructed_withExclude, isBuilt_licensed, isBuilt_clashing, listed,
    read "x.proto" (by decide) "a/x.proto" (by decide) (by decide) [1] rfl,
    read "LICENSE" (by decide) "LICENSE" (by decide) (by decide) [4] rfl,
    first, second, failed, found⟩

end SchemaModules.Boundary
