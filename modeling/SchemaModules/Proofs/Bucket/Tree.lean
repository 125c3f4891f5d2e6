import SchemaModules.Proofs.Bucket.Directory
import SchemaModules.Proofs.Bucket.Holding

/-! # Looking files up in a tree

Names lead through a tree to the directories and files in it (`Leads`). The lookup by a path follows
names, and the listing collects them; in a tree that a system can hold (`IsHeld`) both come to the
files that names lead to (`readFile_eq_ok_iff`, `filePaths_along`). So the directory at the top of
such a tree is a bucket that holds these files (`holds_of_perm`).
-/

namespace SchemaModules.FileTree

open SchemaModules.Path (IsFile)
open Segment (IsName)

/-- Names lead from a tree to a part of it. -/
inductive Leads : FileTree → List String → FileTree → Prop where
  | here (t : FileTree) : Leads t [] t
  | down {entries : List (String × FileTree)} {name : String} {inner part : FileTree}
      {rest : List String} (entry : (name, inner) ∈ entries) (further : Leads inner rest part) :
      Leads (.directory entries) (name :: rest) part

/-- The path of what names lead to. -/
def pathOf (names : List String) : String := along (names.map String.toList)

/-- A system with limits can hold a tree at a root: the entries of each directory have names of
their own, and names and paths are such as the system admits. -/
structure IsHeld (limits : Limits) (rootSize : Nat) (t : FileTree) : Prop where
  proper : t.IsProper
  names : ∀ names part, t.Leads names part →
    ∀ name ∈ names, '\x00' ∉ name.toList ∧ limits.admitsName name = true
  paths : ∀ names part, t.Leads names part → names ≠ [] →
    limits.admitsPath rootSize (pathOf names) = true

mutual

/-- The regular files in a tree, with the names that lead to them. -/
def files : FileTree → List (List String × Bytes)
  | .file content => [([], content)]
  | .directory entries => entryFiles entries

/-- The regular files in the entries of a directory, with the names that lead to them. -/
def entryFiles : List (String × FileTree) → List (List String × Bytes)
  | [] => []
  | (name, t) :: entries =>
      (t.files.map fun file => (name :: file.1, file.2)) ++ entryFiles entries

end

/-- The files in a tree with their paths. -/
def pathFiles (t : FileTree) : List (String × Bytes) :=
  t.files.map fun file => (pathOf file.1, file.2)

variable {limits : Limits} {rootSize : Nat} {entries : List (String × FileTree)} {t part : FileTree}
  {names : List String} {name : String} {content : Bytes}

/-! ## Entries -/

theorem AreProper.of_mem (proper : AreProper entries) (entry : (name, t) ∈ entries) :
    IsName name.toList ∧ t.IsProper := by
  induction entries with
  | nil => exact absurd entry List.not_mem_nil
  | cons first rest ih =>
      obtain ⟨named, -, here, others⟩ := proper
      rcases List.mem_cons.mp entry with rfl | later
      · exact ⟨named, here⟩
      · exact ih others later

/-- In a directory a name finds the entry that has it. -/
theorem AreProper.lookup_eq_some_iff (proper : AreProper entries) :
    entries.lookup name = some t ↔ (name, t) ∈ entries := by
  induction entries with
  | nil => simp
  | cons first rest ih =>
      obtain ⟨other, inner⟩ := first
      obtain ⟨-, own, -, others⟩ := proper
      rw [List.lookup_cons, List.mem_cons, Prod.mk.injEq]
      by_cases same : name = other
      · subst same
        have elsewhere : (name, t) ∉ rest := fun member => own (List.mem_map_of_mem member)
        simp [elsewhere, eq_comm]
      · simp [beq_eq_false_iff_ne.mpr same, same, ih others]

theorem Leads.isName (leads : t.Leads names part) (proper : t.IsProper) :
    ∀ name ∈ names.map String.toList, IsName name := by
  induction leads with
  | here => exact fun _ none => absurd none List.not_mem_nil
  | down entry _ ih =>
      obtain ⟨named, inner⟩ := AreProper.of_mem proper entry
      exact List.forall_mem_cons.mpr ⟨named, ih inner⟩

/-! ## Lookup -/

/-- What names come to is what they lead to, where the system admits them. -/
theorem resolve_eq_ok_iff (proper : t.IsProper) (admitted : ∀ names part, t.Leads names part →
    ∀ name ∈ names, limits.admitsName name = true) :
    t.resolve limits names = .ok part ↔ t.Leads names part := by
  induction names generalizing t with
  | nil =>
      rw [resolve, Except.ok.injEq]
      constructor
      · rintro rfl
        exact .here t
      · rintro ⟨⟩
        rfl
  | cons name rest ih =>
      cases t with
      | file content =>
          rw [resolve]
          exact iff_of_false (fun impossible => nomatch impossible) (fun leads => nomatch leads)
      | directory entries =>
          have found : ∀ inner, entries.lookup name = some inner ↔ (name, inner) ∈ entries :=
            fun _ => AreProper.lookup_eq_some_iff proper
          have further : ∀ inner, (name, inner) ∈ entries →
              (inner.resolve limits rest = .ok part ↔ inner.Leads rest part) := by
            intro inner entry
            refine ih (AreProper.of_mem proper entry).2 fun names part leads other member => ?_
            exact admitted _ _ (.down entry leads) other (List.mem_cons_of_mem _ member)
          rw [resolve]
          constructor
          · intro reached
            split at reached
            · cases reached
            · split at reached
              · cases reached
              · next inner known =>
                  have entry := (found inner).mp known
                  exact .down entry ((further inner entry).mp reached)
          · intro leads
            have fits := admitted _ _ leads name List.mem_cons_self
            cases leads with
            | @down _ _ inner _ _ entry later =>
                rw [fits, (found inner).mpr entry]
                exact (further inner entry).mpr later

/-! ## Paths and names -/

theorem parse_along {segments : List Segment} (valid : ∀ name ∈ segments, IsName name) :
    (Path.parse (along segments)).names = segments := by
  by_cases none : segments = []
  · rw [none]
    rfl
  · let p : Path := ⟨false, 0, segments, valid, fun impossible => nomatch impossible⟩
    have text : along segments = p.text := by
      simp [along, Path.text, Path.chars, Path.segments, p, none]
    rw [text, Path.parse_text]

theorem namesOf_pathOf (valid : ∀ name ∈ names.map String.toList, IsName name) :
    namesOf (pathOf names) = names := by
  rw [namesOf, pathOf, parse_along valid, List.map_map]
  exact (List.map_congr_left fun name _ => String.ofList_toList).trans (List.map_id _)

/-- A path that stays inside is that of its names, unless it has none. -/
theorem pathOf_namesOf {path inside : String} (valid : Path.validate path = .ok inside)
    (some : namesOf inside ≠ []) : pathOf (namesOf inside) = inside := by
  obtain ⟨stays, rfl⟩ := Path.validate_eq_ok_iff.mp valid
  rw [namesOf, Path.parse_text] at some ⊢
  have named : (Path.parse path).names ≠ [] := fun none => some (by rw [none, List.map_nil])
  have segments : ((Path.parse path).names.map String.ofList).map String.toList =
      (Path.parse path).names := by
    rw [List.map_map]
    exact (List.map_congr_left fun name _ => String.toList_ofList).trans (List.map_id _)
  rw [pathOf, segments, Path.text_of_relative stays.1, stays.segments, if_neg named, along]

theorem not_mem_pathOf {c : Char} (other : c ≠ '/') (free : ∀ name ∈ names, c ∉ name.toList) :
    c ∉ (pathOf names).toList := by
  have joined : ∀ parts : List Segment, (∀ part ∈ parts, c ∉ part) →
      c ∉ Text.joined '/' parts := by
    intro parts
    induction parts with
    | nil => exact fun _ => List.not_mem_nil
    | cons part rest ih =>
        intro all
        obtain ⟨here, later⟩ := List.forall_mem_cons.mp all
        cases rest with
        | nil => simpa [Text.joined] using here
        | cons next rest => simpa [Text.joined, here, other] using ih later
  rw [pathOf, along, String.toList_ofList]
  exact joined _ (List.forall_mem_map.mpr free)

/-- At a path there is the file that names lead to along it, if there is one. -/
theorem readFile_eq_ok_iff (held : (directory entries).IsHeld limits rootSize)
    {path inside : String} (valid : Path.validate path = .ok inside) :
    readFile limits rootSize (some (.directory entries)) inside = .ok content ↔
      ∃ names, (directory entries).Leads names (.file content) ∧ pathOf names = inside := by
  have follows : ∀ names, (directory entries).resolve limits names = .ok (.file content) ↔
      (directory entries).Leads names (.file content) :=
    fun _ => resolve_eq_ok_iff held.proper fun names part leads name member =>
      (held.names names part leads name member).2
  constructor
  · intro found
    unfold readFile at found
    split at found
    · cases found
    · split at found
      · cases found
      · have reached : (directory entries).resolve limits (namesOf inside) =
            .ok (.file content) := by
          simp only at found
          split at found
          · cases found
          · cases found
          · next reached => rw [reached, Except.ok.inj found]
        have some : namesOf inside ≠ [] := by
          intro none
          rw [none, resolve] at reached
          cases reached
        exact ⟨_, (follows _).mp reached, pathOf_namesOf valid some⟩
  · rintro ⟨names, leads, rfl⟩
    have some : names ≠ [] := by
      rintro rfl
      cases leads
    have plain : '\x00' ∉ (pathOf names).toList :=
      not_mem_pathOf (by decide) fun name member => (held.names names _ leads name member).1
    rw [readFile, if_neg plain, held.paths names _ leads some,
      namesOf_pathOf (leads.isName held.proper)]
    simp only [(follows names).mpr leads, Bool.not_true, Bool.false_eq_true, if_false]

/-! ## Listing -/

mutual

/-- The files of a tree are those that names lead to. -/
theorem mem_files_iff (t : FileTree) (names : List String) (content : Bytes) :
    (names, content) ∈ t.files ↔ t.Leads names (.file content) := by
  cases t with
  | file other =>
      rw [files, List.mem_singleton, Prod.mk.injEq]
      constructor
      · rintro ⟨rfl, rfl⟩
        exact .here _
      · rintro ⟨⟩
        exact ⟨rfl, rfl⟩
  | directory entries =>
      rw [files, mem_entryFiles_iff]
      constructor
      · rintro ⟨name, rest, inner, rfl, entry, further⟩
        exact .down entry further
      · rintro ⟨⟩
        next name inner rest entry further => exact ⟨name, rest, inner, rfl, entry, further⟩

/-- The files of entries are those that their names lead to. -/
theorem mem_entryFiles_iff (entries : List (String × FileTree)) (names : List String)
    (content : Bytes) : (names, content) ∈ entryFiles entries ↔ ∃ name rest inner,
      names = name :: rest ∧ (name, inner) ∈ entries ∧ inner.Leads rest (.file content) := by
  cases entries with
  | nil => simp [entryFiles]
  | cons first others =>
      obtain ⟨name, t⟩ := first
      rw [entryFiles, List.mem_append, mem_entryFiles_iff others]
      constructor
      · rintro (here | ⟨other, rest, inner, rfl, entry, further⟩)
        · obtain ⟨⟨rest, bytes⟩, member, equal⟩ := List.mem_map.mp here
          obtain ⟨rfl, rfl⟩ := Prod.mk.inj equal
          exact ⟨name, rest, t, rfl, List.mem_cons_self, (mem_files_iff t rest bytes).mp member⟩
        · exact ⟨other, rest, inner, rfl, List.mem_cons_of_mem _ entry, further⟩
      · rintro ⟨other, rest, inner, rfl, entry, further⟩
        rcases List.mem_cons.mp entry with first | later
        · obtain ⟨rfl, rfl⟩ := Prod.mk.inj first
          exact .inl (List.mem_map.mpr
            ⟨(rest, content), (mem_files_iff inner rest content).mpr further, rfl⟩)
        · exact .inr ⟨other, rest, inner, rfl, later, further⟩

end

mutual

/-- The listing of a tree that lies along names puts them in front of the names of its files. -/
theorem filePaths_along (t : FileTree) (proper : t.IsProper) (names : List Segment)
    (valid : ∀ name ∈ names, IsName name) : t.filePaths (along names) =
      t.files.map fun file => along (names ++ file.1.map String.toList) := by
  cases t with
  | file content => simp [filePaths, files]
  | directory entries => exact entryPaths_along entries proper names valid

theorem entryPaths_along (entries : List (String × FileTree)) (proper : AreProper entries)
    (names : List Segment) (valid : ∀ name ∈ names, IsName name) :
    entryPaths (along names) entries =
      (entryFiles entries).map fun file => along (names ++ file.1.map String.toList) := by
  cases entries with
  | nil => rfl
  | cons entry entries =>
      obtain ⟨name, t⟩ := entry
      obtain ⟨named, -, here, others⟩ := proper
      have extended : ∀ n ∈ names ++ [name.toList], IsName n :=
        allNames valid named fun _ impossible => nomatch impossible
      have first := filePaths_along t here (names ++ [name.toList]) extended
      rw [along_snoc valid] at first
      rw [entryPaths, entryFiles, first, entryPaths_along entries others names valid,
        List.map_append, List.map_map]
      simp [Function.comp_def]

end

theorem map_fst_pathFiles (proper : AreProper entries) :
    (directory entries).pathFiles.map Prod.fst = (directory entries).filePaths "" := by
  have listed := filePaths_along (directory entries) proper [] fun _ none => nomatch none
  rw [pathFiles, List.map_map]
  exact listed.symm

theorem mem_pathFiles_iff {path : String} :
    (path, content) ∈ t.pathFiles ↔
      ∃ names, t.Leads names (.file content) ∧ pathOf names = path := by
  rw [pathFiles, List.mem_map]
  constructor
  · rintro ⟨⟨names, bytes⟩, member, equal⟩
    obtain ⟨rfl, rfl⟩ := Prod.mk.inj equal
    exact ⟨names, (mem_files_iff t names bytes).mp member, rfl⟩
  · rintro ⟨names, leads, rfl⟩
    exact ⟨(names, content), (mem_files_iff t names content).mpr leads, rfl⟩

/-! ## The directory as a bucket -/

theorem read_bucketUnder_iff {rootPath : String} {root : Option FileTree} {path : String} :
    (bucketUnder limits rootPath rootSize root).read path = .ok content ↔
      ∃ inside, Path.validate path = .ok inside ∧
        readFile limits rootSize root inside = .ok content := by
  simp only [bucketUnder, Outcome.bind_eq_ok_iff, Outcome.mapError_eq_ok_iff]
  refine exists_congr fun inside => and_congr_right fun _ => ?_
  cases found : readFile limits rootSize root inside with
  | ok bytes => simp
  | error obstacle => cases obstacle <;> simp [throw, throwThe, MonadExceptOf.throw]

theorem contains_bucketUnder_iff {rootPath : String} {root : Option FileTree} {path : String} :
    (bucketUnder limits rootPath rootSize root).contains path = true ↔
      ∃ content, (bucketUnder limits rootPath rootSize root).read path = .ok content := by
  simp only [read_bucketUnder_iff]
  simp only [bucketUnder]
  cases valid : Path.validate path with
  | error error => simp
  | ok inside =>
      cases found : readFile limits rootSize root inside with
      | ok bytes => simp [found, Except.isOk, Except.toBool]
      | error obstacle => simp [found, Except.isOk, Except.toBool]

/-- A regular file in place of the directory keeps its content from being found under any path, and
is not listed. -/
theorem bucketUnder_of_file (limits : Limits) (rootPath : String) (rootSize : Nat)
    (content : Bytes) :
    (∀ path, (bucketUnder limits rootPath rootSize (some (.file content))).contains path = false) ∧
      (bucketUnder limits rootPath rootSize (some (.file content))).paths =
        .error (.storage rootPath Obstacle.notDirectory.text) := by
  have nothing : ∀ inside found,
      readFile limits rootSize (some (.file content)) inside ≠ .ok found := by
    intro inside found read
    unfold readFile at read
    split at read
    · cases read
    · split at read <;> cases read
  refine ⟨fun path => ?_, rfl⟩
  rw [← Bool.not_eq_true, contains_bucketUnder_iff]
  rintro ⟨found, read⟩
  obtain ⟨inside, -, there⟩ := read_bucketUnder_iff.mp read
  exact nothing inside found there

/-- The directory at the top of a tree holds the files that names lead to. -/
theorem holds_of_perm (held : (directory entries).IsHeld limits rootSize) (rootPath : String)
    {files : List (String × Bytes)} (ascending : (files.map Prod.fst).Pairwise (· < ·))
    (perm : files.Perm (directory entries).pathFiles) :
    (bucketUnder limits rootPath rootSize (some (.directory entries))).Holds files := by
  obtain ⟨-, valid⟩ := paths_of_directory held.proper
  have paths := (perm.map Prod.fst).trans (List.Perm.of_eq (map_fst_pathFiles held.proper))
  have isFile : ∀ file ∈ files, IsFile file.1 := fun file member =>
    valid file.1 (paths.mem_iff.mp (List.mem_map_of_mem member))
  have read : ∀ path content, (bucketUnder limits rootPath rootSize
      (some (.directory entries))).read path = .ok content ↔
        (Path.normalize path, content) ∈ files := by
    intro path content
    rw [read_bucketUnder_iff, perm.mem_iff, mem_pathFiles_iff]
    constructor
    · rintro ⟨inside, valid, found⟩
      rw [Path.normalize_of_validate valid]
      exact (readFile_eq_ok_iff held valid).mp found
    · intro leads
      have file := isFile _ (perm.mem_iff.mpr (mem_pathFiles_iff.mpr leads))
      have inside := file.validate_of_normalize rfl
      exact ⟨_, inside, (readFile_eq_ok_iff held inside).mpr leads⟩
  have contains : ∀ path, (bucketUnder limits rootPath rootSize
      (some (.directory entries))).contains path = true ↔
        Path.normalize path ∈ files.map Prod.fst := by
    intro path
    simp [contains_bucketUnder_iff, read]
  refine ⟨⟨ascending, fun file member => (isFile file member).normalize_eq, ?_, ?_, ?_⟩, ?_, ?_⟩
  · refine congrArg Except.ok (List.Perm.eq_of_pairwise ?_ (Text.pairwise_mergeSort _)
      (ascending.imp fun before => ?_) ((List.mergeSort_perm _ _).trans paths.symm))
    · exact fun a b _ _ before after => String.le_antisymm before after
    · exact Std.le_of_lt before
  · intro path normal
    rw [contains, normal]
  · intro path content normal
    rw [read, normal]
  · intro path
    rw [Bool.eq_iff_iff, contains, contains, Path.normalize_normalize]
  · intro path content
    rw [read, read, Path.normalize_normalize]

end SchemaModules.FileTree
