import SchemaModules.Proofs.Bucket.Layers
import SchemaModules.Proofs.Module.Building
import SchemaModules.Proofs.Module.Relevance

/-! # Dependencies out of imports

The schema files of a module import paths (`ImportsPath`). An import that is not well known, and
that the module does not show itself, is provided by the first other module of the set that shows it
(`Provides`). The scanner goes through the imports one by one (`scanner_of_files`) and names their
providers, each once (`Names`), or fails at the first import without one. So in a set that the
scanner built, the direct dependencies are the providers of imports and nothing else
(`ModuleSet.direct_deps_are_providers`).
-/

namespace SchemaModules

namespace Module

/-- The files of a module come from memory, through filters and boundaries. -/
def IsInMemory (m : Module) : Prop := ∃ layers : Layers, m.source = layers.toBucket

/-- A module shows a file if the file is among those that it lists. -/
def Shows (m : Module) (path : String) : Prop :=
  ∃ files, m.files = .ok files ∧ path ∈ files.map Prod.fst

/-- A schema file of a module imports a path. -/
def ImportsPath (m : Module) (path : String) : Prop :=
  ∃ files, m.files = .ok files ∧ ∃ file ∈ files, Path.extension file.1 = schemaExtension ∧
    path ∈ Imports.parseImports (Text.Utf8.decode file.2)

/-- An import that no module has to provide. -/
def IsWellKnown (path : String) : Prop :=
  Resolver.wellKnownDirectory.toList <+: path.toList

/-- A module imports a path that another module has to provide. -/
structure Needs (m : Module) (path : String) : Prop where
  imported : m.ImportsPath path
  notWellKnown : ¬ IsWellKnown path
  notOwn : ¬ m.Shows path

/-- The first module of a list, other than the one that imports a path, that shows it. -/
structure Provides (modules : List Module) (m : Module) (path : String) (other : Module) :
    Prop where
  first : ∃ before after, modules = before ++ other :: after ∧
    ∀ earlier ∈ before, earlier.opaqueId ≠ m.opaqueId → ¬ earlier.Shows path
  apart : other.opaqueId ≠ m.opaqueId
  shown : other.Shows path

variable {m : Module} {modules : List Module} {files : List (String × Bytes)} {path : String}

theorem Provides.mem {other : Module} (provides : Provides modules m path other) :
    other ∈ modules := by
  obtain ⟨before, after, rfl, -⟩ := provides.first
  exact List.mem_append_cons_self

/-! ## What a module shows -/

theorem IsInMemory.agrees (inMemory : m.IsInMemory) {places : List String}
    (listed : m.bucket.paths = .ok places) : m.bucket.Agrees places := by
  obtain ⟨layers, source⟩ := inMemory
  rw [bucket, source] at listed ⊢
  exact (Layers.filtered _ layers).agrees listed

/-- A module in memory can be read if it can be listed. -/
theorem IsInMemory.exists_files (inMemory : m.IsInMemory) {places : List String}
    (listed : m.bucket.paths = .ok places) : ∃ files, m.files = .ok files := by
  have agrees := inMemory.agrees listed
  refine Bucket.exists_files listed fun path member => (agrees.contains_iff_read path).mp ?_
  exact (agrees.contains_file (agrees.isFile path member)).mpr member

theorem IsInMemory.paths_eq_error (inMemory : m.IsInMemory) {error : ModuleError}
    (failed : m.bucket.paths = .error error) :
    ∃ place first second, error = .duplicatePath place first second := by
  obtain ⟨layers, source⟩ := inMemory
  rw [bucket, source] at failed
  exact (Layers.filtered _ layers).paths_eq_error failed

theorem map_fst_of_files (read : m.files = .ok files) :
    m.bucket.paths = .ok (files.map Prod.fst) := by
  obtain ⟨paths, listed, -, rfl⟩ := Bucket.reads_of_files read
  rw [listed, List.map_map]
  exact congrArg _ (List.map_id _).symm

/-- What can be found in a module under a path in normal form is what the module shows. -/
theorem IsInMemory.contains_iff_shows (inMemory : m.IsInMemory) (read : m.files = .ok files)
    (normal : Path.normalize path = path) : m.bucket.contains path = true ↔ m.Shows path := by
  have agrees := inMemory.agrees (map_fst_of_files read)
  have listed : m.Shows path ↔ path ∈ files.map Prod.fst := by
    simp only [Shows, read, Except.ok.injEq, exists_eq_left']
  rw [listed]
  by_cases top : path = "."
  · subst top
    refine iff_of_false ?_ fun member => (agrees.isFile "." member).2 rfl
    simp only [bucket, Bucket.filter, Bool.and_eq_true, normal, not_and]
    intro shown
    exact absurd (isRelevant_of_isShown shown) (by simp [isRelevant_top])
  · rw [agrees.contains_iff_mem path (normal.symm ▸ top), normal]

end Module

/-- Imports are in normal form. -/
theorem Imports.normalize_of_mem {source : List Char} {path : String}
    (member : path ∈ parseImports source) : Path.normalize path = path := by
  obtain ⟨line, -, found⟩ := List.mem_filterMap.mp member
  obtain ⟨written, -, rfl⟩ := Option.map_eq_some_iff.mp found
  exact Path.normalize_normalize _

/-- Bytes that are characters by themselves are read one by one. -/
theorem Text.Utf8.decode_of_ascii {bytes : Bytes} (ascii : bytes.all (· ≤ 0x7F) = true) :
    decode bytes = bytes.map fun b => Char.ofNat b.toNat := by
  induction bytes with
  | nil => simp [decode]
  | cons b rest ih =>
      rw [List.all_cons, Bool.and_eq_true, decide_eq_true_eq] at ascii
      simp [decode, first, lead?, ascii.1, continuation, ih ascii.2]

namespace Resolver

open SchemaModules.Module (IsWellKnown Provides)

variable {m : Module} {modules : List Module} {files : List (String × Bytes)} {path : String}

/-! ## One import after another -/

/-- The imports of the schema files among given files, in their order. -/
def importsOf (files : List (String × Bytes)) : List String :=
  (files.filter fun file => Path.extension file.1 = schemaExtension).flatMap fun file =>
    Imports.parseImports (Text.Utf8.decode file.2)

theorem importsOf_cons_of_pos {content : Bytes} (schema : Path.extension path = schemaExtension) :
    importsOf ((path, content) :: files) =
      Imports.parseImports (Text.Utf8.decode content) ++ importsOf files := by
  simp [importsOf, schema]

theorem importsOf_cons_of_neg {content : Bytes} (other : Path.extension path ≠ schemaExtension) :
    importsOf ((path, content) :: files) = importsOf files := by
  simp [importsOf, other]

theorem importsPath_iff (read : m.files = .ok files) :
    m.ImportsPath path ↔ path ∈ importsOf files := by
  simp [Module.ImportsPath, importsOf, read, and_assoc]

theorem normalize_of_mem_importsOf (member : path ∈ importsOf files) :
    Path.normalize path = path := by
  obtain ⟨file, -, among⟩ := List.mem_flatMap.mp member
  exact Imports.normalize_of_mem among

/-- Going through the schema files among those that can be read, and through the imports of each, is
going through all their imports. -/
theorem foldlM_importsOf {paths : List String}
    (reads : ∀ path ∈ paths, m.bucket.read path = .ok (m.bucket.contentAt path))
    (named : List String) :
    ((paths.filter fun path => Path.extension path = schemaExtension).foldlM (fun deps path => do
      let source := Text.Utf8.decode (← m.bucket.read path)
      (Imports.parseImports source).foldlM (addProvider m modules) deps) named) =
    (importsOf (paths.map fun path => (path, m.bucket.contentAt path))).foldlM
      (addProvider m modules) named := by
  induction paths generalizing named with
  | nil => simp [importsOf]
  | cons path rest ih =>
      obtain ⟨here, later⟩ := List.forall_mem_cons.mp reads
      rw [List.map_cons]
      by_cases schema : Path.extension path = schemaExtension
      · rw [importsOf_cons_of_pos schema, List.foldlM_append,
          List.filter_cons_of_pos (by simpa using schema), List.foldlM_cons, here]
        exact bind_congr (ih later)
      · rw [importsOf_cons_of_neg schema, List.filter_cons_of_neg (by simpa using schema),
          ih later]

/-- The scanner takes the imports of the files of a module one by one. -/
theorem scanner_of_files (read : m.files = .ok files) :
    scanner m modules = (importsOf files).foldlM (addProvider m modules) [] := by
  obtain ⟨paths, listed, reads, rfl⟩ := Bucket.reads_of_files read
  rw [← foldlM_importsOf reads, scanner, listed]
  rfl

/-- What an import adds: nothing if it needs no other module or its provider is named already, and
its provider otherwise. -/
theorem addProvider_cases {named next : List String}
    (added : addProvider m modules named path = .ok next) :
    (isProvidedBy m path = true ∧ next = named) ∨
    ∃ other, isProvidedBy m path = false ∧ provider? m modules path = some other ∧
      (other.opaqueId ∈ named ∧ next = named ∨
        other.opaqueId ∉ named ∧ next = named ++ [other.opaqueId]) := by
  unfold addProvider at added
  by_cases own : isProvidedBy m path = true
  · rw [if_pos own] at added
    exact .inl ⟨own, (Except.ok.inj added).symm⟩
  · rw [if_neg own] at added
    cases found : provider? m modules path with
    | none => simp [found] at added
    | some other =>
        simp only [found, Except.ok.injEq] at added
        refine .inr ⟨other, Bool.not_eq_true _ ▸ own, rfl, ?_⟩
        by_cases known : other.opaqueId ∈ named
        · exact .inl ⟨known, by simpa [known] using added.symm⟩
        · exact .inr ⟨known, by simpa [known] using added.symm⟩

/-- An import fails if another module has to provide it and none does. -/
theorem addProvider_eq_error {named : List String} {error : ModuleError}
    (failed : addProvider m modules named path = .error error) :
    isProvidedBy m path = false ∧ provider? m modules path = none ∧
      error = .unresolvedImport m.description path := by
  unfold addProvider at failed
  by_cases own : isProvidedBy m path = true
  · simp [own] at failed
  · rw [if_neg own] at failed
    cases found : provider? m modules path with
    | some other => simp [found] at failed
    | none =>
        simp only [found, Except.error.injEq] at failed
        exact ⟨Bool.not_eq_true _ ▸ own, rfl, failed.symm⟩

/-- What the imports seen so far have named: the ids of their providers, each once. -/
structure Names (modules : List Module) (m : Module) (imports named : List String) : Prop where
  distinct : named.Nodup
  mem_iff : ∀ id, id ∈ named ↔ ∃ path ∈ imports, isProvidedBy m path = false ∧
    ∃ other, provider? m modules path = some other ∧ other.opaqueId = id
  resolved : ∀ path ∈ imports, isProvidedBy m path = false →
    ∃ other, provider? m modules path = some other

theorem Names.add {imports named next : List String} (names : Names modules m imports named)
    (added : addProvider m modules named path = .ok next) :
    Names modules m (imports ++ [path]) next := by
  rcases addProvider_cases added with ⟨own, rfl⟩ | ⟨other, needed, found, known⟩
  · refine ⟨names.distinct, fun id => ?_, ?_⟩
    · simp [names.mem_iff, or_and_right, exists_or, own]
    · intro earlier member
      rcases List.mem_append.mp member with before | last
      · exact names.resolved earlier before
      · simp [List.mem_singleton.mp last, own]
  · have resolved : ∀ earlier ∈ imports ++ [path], isProvidedBy m earlier = false →
        ∃ other, provider? m modules earlier = some other := by
      intro earlier member
      rcases List.mem_append.mp member with before | last
      · exact names.resolved earlier before
      · exact fun _ => ⟨other, List.mem_singleton.mp last ▸ found⟩
    have mem_iff : ∀ id, id ∈ next ↔ id ∈ named ∨ other.opaqueId = id := by
      intro id
      rcases known with ⟨known, rfl⟩ | ⟨-, rfl⟩
      · exact ⟨.inl, fun either => either.elim (fun member => member) (· ▸ known)⟩
      · simp [eq_comm]
    refine ⟨?_, fun id => ?_, resolved⟩
    · rcases known with ⟨-, rfl⟩ | ⟨fresh, rfl⟩
      · exact names.distinct
      · simpa only [List.concat_eq_append] using names.distinct.concat fresh
    · simp [mem_iff, names.mem_iff, or_and_right, exists_or, needed, found]

/-- The scanner names the providers of the imports of a module. -/
theorem names_of_scanner {named : List String} (read : m.files = .ok files)
    (scanned : scanner m modules = .ok named) : Names modules m (importsOf files) named := by
  rw [scanner_of_files read] at scanned
  refine Outcome.foldlM_carries (Names modules m) ?_ ⟨.nil, by simp, by simp⟩ scanned
  exact fun _ _ _ _ _ _ names added => names.add added

/-- The scanner fails at an import without a provider. -/
theorem unresolved_of_scanner {error : ModuleError} (read : m.files = .ok files)
    (failed : scanner m modules = .error error) : ∃ path ∈ importsOf files,
      isProvidedBy m path = false ∧ provider? m modules path = none ∧
        error = .unresolvedImport m.description path := by
  rw [scanner_of_files read] at failed
  obtain ⟨before, path, after, mid, split, -, stopped⟩ := Outcome.exists_of_foldlM_error failed
  exact ⟨path, split ▸ List.mem_append_cons_self, addProvider_eq_error stopped⟩

/-- Where the scanner succeeds, the module could be listed. -/
theorem exists_listing_of_scanner {named : List String} (scanned : scanner m modules = .ok named) :
    ∃ places, m.bucket.paths = .ok places := by
  obtain ⟨places, listed, -⟩ := Outcome.bind_eq_ok_iff.mp scanned
  exact ⟨places, listed⟩

/-- The scanner fails on a module in memory if it cannot be listed, or at an import. -/
theorem scanner_error_cases (inMemory : m.IsInMemory) {error : ModuleError}
    (failed : scanner m modules = .error error) :
    (∃ place first second, error = .duplicatePath place first second) ∨
    ∃ files, m.files = .ok files ∧ ∃ path ∈ importsOf files,
      isProvidedBy m path = false ∧ provider? m modules path = none ∧
        error = .unresolvedImport m.description path := by
  cases listed : m.bucket.paths with
  | error other =>
      simp only [scanner, listed] at failed
      obtain rfl := Except.error.inj failed
      exact .inl (inMemory.paths_eq_error listed)
  | ok places =>
      obtain ⟨files, read⟩ := inMemory.exists_files listed
      exact .inr ⟨files, read, unresolved_of_scanner read failed⟩

/-! ## What the scanner looks for -/

theorem isProvidedBy_iff (finds : m.bucket.contains path = true ↔ m.Shows path) :
    isProvidedBy m path = true ↔ IsWellKnown path ∨ m.Shows path := by
  rw [isProvidedBy, Bool.or_eq_true, finds, List.isPrefixOf_iff_prefix, IsWellKnown]

section Provider

variable (finds : ∀ other ∈ modules, other.bucket.contains path = true ↔ other.Shows path)
include finds

theorem provider?_eq_some_iff {other : Module} :
    provider? m modules path = some other ↔ Provides modules m path other := by
  simp only [provider?, List.find?_eq_some_iff_append, Bool.and_eq_true, decide_eq_true_eq,
    Bool.not_eq_true', Bool.and_eq_false_iff, decide_eq_false_iff_not, not_not]
  constructor
  · rintro ⟨⟨apart, found⟩, before, after, rfl, none⟩
    refine ⟨⟨before, after, rfl, ?_⟩, apart, (finds other List.mem_append_cons_self).mp found⟩
    intro earlier member differ shown
    have found := (finds earlier (List.mem_append_left _ member)).mpr shown
    simpa [differ, found] using none earlier member
  · rintro ⟨⟨before, after, rfl, none⟩, apart, shown⟩
    refine ⟨⟨apart, (finds other List.mem_append_cons_self).mpr shown⟩, before, after, rfl, ?_⟩
    intro earlier member
    refine or_iff_not_imp_left.mpr fun differ => ?_
    rw [← Bool.not_eq_true, finds earlier (List.mem_append_left _ member)]
    exact none earlier member differ

theorem provider?_eq_none_iff : provider? m modules path = none ↔
    ∀ other ∈ modules, other.opaqueId ≠ m.opaqueId → ¬ other.Shows path := by
  simp only [provider?, List.find?_eq_none, Bool.and_eq_true, decide_eq_true_eq, not_and]
  exact forall₂_congr fun other member => by rw [finds other member]

end Provider

/-- Dependencies of a module are the ids of the modules that provide what it needs, each once. -/
structure Justified (modules : List Module) (m : Module) (named : List String) : Prop where
  distinct : named.Nodup
  mem_iff : ∀ id, id ∈ named ↔
    ∃ path other, m.Needs path ∧ Provides modules m path other ∧ other.opaqueId = id
  provided : ∀ path, m.Needs path → ∃ other, Provides modules m path other

section Readable

variable (inMemory : ∀ m ∈ modules, m.IsInMemory)
  (readable : ∀ m ∈ modules, ∃ files, m.files = .ok files)
include inMemory readable

theorem contains_iff_shows_of_normal (normal : Path.normalize path = path) :
    ∀ m ∈ modules, m.bucket.contains path = true ↔ m.Shows path := by
  intro m member
  obtain ⟨files, read⟩ := readable m member
  exact (inMemory m member).contains_iff_shows read normal

/-- What a module imports and does not have is what it needs. -/
theorem needs_iff (member : m ∈ modules) (read : m.files = .ok files) :
    m.Needs path ↔ path ∈ importsOf files ∧ isProvidedBy m path = false := by
  rw [← importsPath_iff read, ← Bool.not_eq_true]
  have provided (imported : m.ImportsPath path) :
      isProvidedBy m path = true ↔ IsWellKnown path ∨ m.Shows path :=
    isProvidedBy_iff (contains_iff_shows_of_normal inMemory readable
      (normalize_of_mem_importsOf ((importsPath_iff read).mp imported)) m member)
  constructor
  · rintro ⟨imported, foreign, notOwn⟩
    exact ⟨imported, (provided imported).not.mpr (not_or.mpr ⟨foreign, notOwn⟩)⟩
  · rintro ⟨imported, missing⟩
    obtain ⟨foreign, notOwn⟩ := not_or.mp ((provided imported).not.mp missing)
    exact ⟨imported, foreign, notOwn⟩

/-- The scanner names for a module the providers of what it needs. -/
theorem justified_of_scanner (member : m ∈ modules) {named : List String}
    (scanned : scanner m modules = .ok named) : Justified modules m named := by
  obtain ⟨files, read⟩ := readable m member
  have names := names_of_scanner read scanned
  have needs (path : String) :
      m.Needs path ↔ path ∈ importsOf files ∧ isProvidedBy m path = false :=
    needs_iff inMemory readable member read
  have provides (path : String) (among : path ∈ importsOf files) (other : Module) :
      provider? m modules path = some other ↔ Provides modules m path other :=
    provider?_eq_some_iff
      (contains_iff_shows_of_normal inMemory readable (normalize_of_mem_importsOf among))
  refine ⟨names.distinct, fun id => (names.mem_iff id).trans ⟨?_, ?_⟩, ?_⟩
  · rintro ⟨path, among, missing, other, found, same⟩
    have needed := (needs path).mpr ⟨among, missing⟩
    exact ⟨path, other, needed, (provides path among other).mp found, same⟩
  · rintro ⟨path, other, needed, provided, same⟩
    obtain ⟨among, missing⟩ := (needs path).mp needed
    exact ⟨path, among, missing, other, (provides path among other).mpr provided, same⟩
  · intro path needed
    obtain ⟨among, missing⟩ := (needs path).mp needed
    obtain ⟨other, found⟩ := names.resolved path among missing
    exact ⟨other, (provides path among other).mp found⟩

/-- The scanner fails on a module that needs something that no other module shows. -/
theorem needs_of_scanner_error (member : m ∈ modules) {error : ModuleError}
    (failed : scanner m modules = .error error) : ∃ path, m.Needs path ∧
      (∀ other ∈ modules, other.opaqueId ≠ m.opaqueId → ¬ other.Shows path) ∧
      error = .unresolvedImport m.description path := by
  obtain ⟨files, read⟩ := readable m member
  obtain ⟨path, among, missing, none, rfl⟩ := unresolved_of_scanner read failed
  have finds := contains_iff_shows_of_normal inMemory readable (normalize_of_mem_importsOf among)
  exact ⟨path, (needs_iff inMemory readable member read).mpr ⟨among, missing⟩,
    (provider?_eq_none_iff finds).mp none, rfl⟩

end Readable

end Resolver

namespace ModuleSet

open SchemaModules.Module (IsWellKnown Provides)
open SchemaModules.Resolver (scanner importsOf)

section InMemory

variable {modules : List Module} (inMemory : ∀ m ∈ modules, m.IsInMemory)
include inMemory

theorem readable_of_build {s : ModuleSet} (built : build modules scanner = .ok s) :
    ∀ m ∈ modules, ∃ files, m.files = .ok files := by
  intro m member
  obtain ⟨named, scanned, -⟩ := (accepted_of_build built).resolved m member
  obtain ⟨places, listed⟩ := Resolver.exists_listing_of_scanner scanned
  exact (inMemory m member).exists_files listed

/-- What the scanner names are ids of the modules. -/
theorem mem_ids_of_scanner {m : Module} (member : m ∈ modules) {named : List String}
    (scanned : scanner m modules = .ok named) : ∀ id ∈ named, id ∈ modules.map (·.opaqueId) := by
  obtain ⟨places, listed⟩ := Resolver.exists_listing_of_scanner scanned
  obtain ⟨files, read⟩ := (inMemory m member).exists_files listed
  intro id among
  obtain ⟨path, -, -, other, found, rfl⟩ :=
    ((Resolver.names_of_scanner read scanned).mem_iff id).mp among
  exact List.mem_map_of_mem (List.mem_of_find?_eq_some found)

/-- The scanner does not lead out of the modules. -/
theorem build_ne_unknownDependency (module dependency : String) :
    build modules scanner ≠ .error (.unknownDependency module dependency) := by
  intro failed
  generalize same : ModuleError.unknownDependency module dependency = error at failed
  cases refused_of_build failed with
  | duplicate => cases same
  | cycle => cases same
  | @unresolved _ _ m _ _ split _ scanFailed =>
      have member : m ∈ modules := split ▸ List.mem_append_cons_self
      rcases Resolver.scanner_error_cases (inMemory m member) scanFailed with
        ⟨_, _, _, rfl⟩ | ⟨_, _, _, _, _, _, rfl⟩ <;> cases same
  | @unknown _ _ m _ _ dep _ split _ named _ missing =>
      have member : m ∈ modules := split ▸ List.mem_append_cons_self
      exact missing (mem_ids_of_scanner inMemory member named dep List.mem_append_cons_self)

/-- Among modules with distinct ids that can be read, an import is reported that no module shows. -/
theorem exists_needs_of_unresolved (readable : ∀ m ∈ modules, ∃ files, m.files = .ok files)
    {module path : String}
    (failed : build modules scanner = .error (.unresolvedImport module path)) :
    ∃ m ∈ modules, m.description = module ∧ m.Needs path ∧
      ∀ other ∈ modules, ¬ other.Shows path := by
  generalize same : ModuleError.unresolvedImport module path = error at failed
  cases refused_of_build failed with
  | duplicate => cases same
  | cycle => cases same
  | unknown => cases same
  | @unresolved _ _ m _ distinct split _ scanFailed =>
      have member : m ∈ modules := split ▸ List.mem_append_cons_self
      obtain ⟨missing, needed, elsewhere, rfl⟩ :=
        Resolver.needs_of_scanner_error inMemory readable member scanFailed
      obtain ⟨rfl, rfl⟩ := ModuleError.unresolvedImport.inj same
      refine ⟨m, member, rfl, needed, fun other among shown => ?_⟩
      by_cases apart : other.opaqueId = m.opaqueId
      · obtain rfl := List.inj_on_of_nodup_map distinct among member apart
        exact needed.notOwn shown
      · exact elsewhere other among apart shown

/-- An import that no module shows stops the scanner. -/
theorem not_resolves_of_missing (readable : ∀ m ∈ modules, ∃ files, m.files = .ok files)
    {m : Module} (member : m ∈ modules) {path : String} (imported : m.ImportsPath path)
    (foreign : ¬ IsWellKnown path) (missing : ∀ other ∈ modules, ¬ other.Shows path) :
    ¬ Resolves scanner modules m := by
  rintro ⟨named, scanned, -⟩
  have justified := Resolver.justified_of_scanner inMemory readable member scanned
  obtain ⟨other, provides⟩ := justified.provided path ⟨imported, foreign, missing m member⟩
  exact missing other provides.mem provides.shown

/-- If the modules have distinct ids and can be read, an import that no module shows is reported. -/
theorem exists_unresolved_of_missing (readable : ∀ m ∈ modules, ∃ files, m.files = .ok files)
    (distinct : (modules.map (·.opaqueId)).Nodup) {m : Module} (member : m ∈ modules)
    {path : String} (imported : m.ImportsPath path) (foreign : ¬ IsWellKnown path)
    (missing : ∀ other ∈ modules, ¬ other.Shows path) :
    ∃ module path, build modules scanner = .error (.unresolvedImport module path) := by
  have stopped := not_resolves_of_missing inMemory readable member imported foreign missing
  cases result : build modules scanner with
  | ok s => exact absurd ((accepted_of_build result).resolved m member) stopped
  | error error =>
      cases refused_of_build result with
      | duplicate split _ again => exact absurd again (fresh_of_split distinct split)
      | cycle _ resolved _ => exact absurd (resolved m member) stopped
      | @unknown _ _ user _ _ dep _ split _ named _ outside =>
          have among : user ∈ modules := split ▸ List.mem_append_cons_self
          have inside := mem_ids_of_scanner inMemory among named dep List.mem_append_cons_self
          exact absurd inside outside
      | @unresolved _ _ user _ _ split _ scanFailed =>
          have among : user ∈ modules := split ▸ List.mem_append_cons_self
          obtain ⟨path, -, -, rfl⟩ :=
            Resolver.needs_of_scanner_error inMemory readable among scanFailed
          exact ⟨_, _, rfl⟩

/-- In a set of modules in memory that the scanner built, each import of a module is well known, or
shown by the module, or by others of which the first is a direct dependency. All direct
dependencies are such modules, each of them once, and not the module itself. The scanner never names
a module outside the set. If ids are distinct and all modules can be read, it fails at an import
exactly if no module shows some import that is not well known. -/
theorem direct_deps_are_providers :
    (∀ s, build modules scanner = .ok s → ∀ m ∈ modules,
      ∃ files deps, m.files = .ok files ∧ s.deps m = .ok deps ∧
        (∀ path, m.ImportsPath path → IsWellKnown path ∨ m.Shows path ∨
          ∃ dep ∈ deps, dep.isDirect = true ∧ Provides modules m path dep.module) ∧
        (∀ dep ∈ deps, dep.isDirect = true → dep.module.opaqueId ≠ m.opaqueId ∧
          ∃ path, m.Needs path ∧ Provides modules m path dep.module) ∧
        (deps.map (·.module.opaqueId)).Nodup) ∧
    (∀ module dependency, build modules scanner ≠ .error (.unknownDependency module dependency)) ∧
    ((modules.map (·.opaqueId)).Nodup → (∀ m ∈ modules, ∃ files, m.files = .ok files) →
      ((∃ module path, build modules scanner = .error (.unresolvedImport module path)) ↔
        ∃ m ∈ modules, ∃ path, m.ImportsPath path ∧ ¬ IsWellKnown path ∧
          ∀ other ∈ modules, ¬ other.Shows path)) := by
  refine ⟨?_, build_ne_unknownDependency inMemory, fun distinct readable => ⟨?_, ?_⟩⟩
  · intro s built m member
    have readable := readable_of_build inMemory built
    obtain ⟨files, read⟩ := readable m member
    obtain ⟨deps, found, lists⟩ := exists_lists_of_build built member
    obtain ⟨named, scanned, -, marked⟩ := lists.direct
    have justified := Resolver.justified_of_scanner inMemory readable member scanned
    refine ⟨files, deps, read, found, fun path imported => ?_, fun dep listed direct => ?_,
      lists.distinct⟩
    · refine or_iff_not_imp_left.mpr fun foreign => or_iff_not_imp_left.mpr fun notOwn => ?_
      obtain ⟨other, provides⟩ := justified.provided path ⟨imported, foreign, notOwn⟩
      have among : other.opaqueId ∈ named :=
        (justified.mem_iff _).mpr ⟨path, other, ⟨imported, foreign, notOwn⟩, provides, rfl⟩
      obtain ⟨dep, listed, rfl⟩ := (lists.reached other provides.mem).mpr
        (.single ⟨m, member, rfl, named, scanned, among⟩)
      exact ⟨dep, listed, (marked dep listed).mpr among, provides⟩
    · obtain ⟨path, other, needed, provides, same⟩ :=
        (justified.mem_iff _).mp ((marked dep listed).mp direct)
      obtain rfl := List.inj_on_of_nodup_map (accepted_of_build built).distinct provides.mem
        (lists.members dep listed) same
      exact ⟨provides.apart, path, needed, provides⟩
  · rintro ⟨module, path, failed⟩
    obtain ⟨m, member, -, needed, missing⟩ :=
      exists_needs_of_unresolved inMemory readable failed
    exact ⟨m, member, path, needed.imported, needed.notWellKnown, missing⟩
  · rintro ⟨m, member, path, imported, foreign, missing⟩
    exact exists_unresolved_of_missing inMemory readable distinct member imported foreign missing

end InMemory

/-! ## A module that imports another -/

/-- A module with one schema file, in memory. -/
def schemaModule (id path content : String) : Module :=
  .edited id (MemoryBucket.empty.insertValid path (Text.Utf8.encode content)).toBucket none true

theorem isInMemory_schemaModule (id path content : String) :
    (schemaModule id path content).IsInMemory :=
  ⟨.memory _ (MemoryBucket.IsBuilt.empty.insertValid path _), rfl⟩

/-- A module that imports a file of another. -/
def userModule : Module := schemaModule "api" "api.proto" "import \"types.proto\";"

def usedModule : Module := schemaModule "types" "types.proto" ""

def userFiles : List (String × Bytes) :=
  [("api.proto", Text.Utf8.encode "import \"types.proto\";")]

theorem importsOf_userFiles : importsOf userFiles = ["types.proto"] := by
  have decoded : Text.Utf8.decode (Text.Utf8.encode "import \"types.proto\";") =
      "import \"types.proto\";".toList :=
    (Text.Utf8.decode_of_ascii (by decide)).trans (by decide)
  rw [userFiles, Resolver.importsOf_cons_of_pos (by decide), decoded]
  decide

theorem files_userModule : userModule.files = .ok userFiles := rfl

theorem importsPath_userModule : userModule.ImportsPath "types.proto" := by
  rw [Resolver.importsPath_iff files_userModule, importsOf_userFiles]
  exact List.mem_singleton_self _

theorem scanner_userModule : scanner userModule [userModule, usedModule] = .ok ["types"] := by
  rw [Resolver.scanner_of_files files_userModule, importsOf_userFiles]
  rfl

theorem scanner_usedModule : scanner usedModule [userModule, usedModule] = .ok [] := by
  have read : usedModule.files = .ok [("types.proto", [])] := rfl
  have imports : importsOf [("types.proto", [])] = [] := by
    rw [Resolver.importsOf_cons_of_pos (by decide), Text.Utf8.decode]
    decide
  rw [Resolver.scanner_of_files read, imports]
  rfl

theorem build_of_userModule : ∃ s, build [userModule, usedModule] scanner = .ok s := by
  let start : Graph := ⟨[("api", []), ("types", [])]⟩
  let g : Graph := ⟨[("api", ["types"]), ("types", [])]⟩
  have edges : addDependencies scanner [userModule, usedModule] start = .ok g := by
    simp only [addDependencies, List.foldlM_cons, scanner_userModule, scanner_usedModule]
    rfl
  have acyclic : g.findCycle = none := by
    simp [g, Graph.findCycle, Graph.searchCycle, Graph.nodes, Graph.directDeps]
  exact ⟨⟨[userModule, usedModule], g⟩, build_eq_ok_iff.mpr ⟨start, rfl, edges, acyclic, rfl⟩⟩

/-- Two modules, one of which imports a file of the other: together it is a direct dependency, and
alone the import is reported. -/
theorem direct_deps_are_providers_of_two_modules :
    (∃ s deps, build [userModule, usedModule] scanner = .ok s ∧ s.deps userModule = .ok deps ∧
      ∃ dep ∈ deps, dep.isDirect = true ∧
        Provides [userModule, usedModule] userModule "types.proto" dep.module) ∧
    ∃ module path, build [userModule] scanner = .error (.unresolvedImport module path) := by
  have user : userModule.IsInMemory := isInMemory_schemaModule ..
  have both : ∀ m ∈ [userModule, usedModule], m.IsInMemory := by
    simp [user, usedModule, isInMemory_schemaModule]
  have alone : ∀ m ∈ [userModule], m.IsInMemory := by simp [user]
  have foreign : ¬ IsWellKnown "types.proto" := by
    unfold IsWellKnown
    decide
  have notOwn : ¬ userModule.Shows "types.proto" := by
    rintro ⟨files, read, member⟩
    obtain rfl := Except.ok.inj (files_userModule.symm.trans read)
    revert member
    decide
  constructor
  · obtain ⟨s, built⟩ := build_of_userModule
    obtain ⟨-, deps, -, found, provided, -⟩ :=
      (direct_deps_are_providers both).1 s built userModule List.mem_cons_self
    rcases provided "types.proto" importsPath_userModule with known | own | direct
    · exact absurd known foreign
    · exact absurd own notOwn
    · exact ⟨s, deps, built, found, direct⟩
  · have readable : ∀ m ∈ [userModule], ∃ files, m.files = .ok files := by
      simp [files_userModule]
    obtain ⟨-, -, unresolved⟩ := direct_deps_are_providers alone
    exact (unresolved (List.nodup_singleton _) readable).mpr
      ⟨userModule, List.mem_singleton_self _, "types.proto", importsPath_userModule, foreign,
        by simpa using notOwn⟩

end ModuleSet

end SchemaModules
