import SchemaModules.Bucket.Memory
import SchemaModules.Proofs.Module.Selection
import SchemaModules.Proofs.Publish.Content

/-! # Selected modules without a name

Of the modules that a set selects, one without a name is refused, or it is left out and then no other
one may depend on it (`select_spec`). Where all selected modules are named, so is all that they
depend on: what is local is selected itself, and what was published has a name.
-/

namespace SchemaModules

namespace ModuleSet

/-- The selected modules that have a name, in the order of the set. -/
def namedContent (s : ModuleSet) : List Module := s.localContent.filter (·.fullName.isSome)

/-- A module without a name that one of a group of modules depends on. -/
structure LeavesUnnamed (s : ModuleSet) (group : List Module) (dep : Module) : Prop where
  unnamed : dep.fullName = none
  reached : ∃ m ∈ group, s.Reaches m dep

variable {s : ModuleSet}

/-- A module without a name that a selected one depends on is selected: only modules that are edited
in the workspace have none. -/
theorem LeavesUnnamed.selects (built : s.IsBuilt) (added : ∀ m ∈ s.modules, m.IsAdded)
    {group : List Module} (selected : ∀ m ∈ group, m ∈ s.localContent) {dep : Module}
    (leaves : s.LeavesUnnamed group dep) : s.Selects dep := by
  obtain ⟨m, member, reached⟩ := leaves.reached
  refine ((mem_localContent_iff built).mp (selected m member)).of_reaches reached ?_
  by_contra remote
  obtain ⟨name, -, named, -⟩ :=
    (added dep reached.1).exists_commit (Bool.eq_false_iff.mpr remote)
  rw [leaves.unnamed] at named
  cases named

end ModuleSet

namespace Content

variable {s : ModuleSet} {options : PublishOptions} {contents : List Content}

/-- Contents are modules in their order, each under its name. -/
structure AreOf (contents : List Content) (modules : List Module) : Prop where
  modules : contents.map (·.module) = modules
  named : ∀ content ∈ contents, content.module.fullName = some content.fullName

/-! ## Modules under their names -/

/-- Modules of which none is without a name, or of which such are left out, have contents. -/
theorem ofModules_total {excludeUnnamed : Bool} {modules : List Module}
    (fits : excludeUnnamed = true ∨ ∀ m ∈ modules, m.fullName.isSome = true) :
    ∃ contents, ofModules excludeUnnamed modules = .ok contents := by
  induction modules with
  | nil => exact ⟨[], rfl⟩
  | cons m rest ih =>
      have later : excludeUnnamed = true ∨ ∀ m ∈ rest, m.fullName.isSome = true :=
        fits.imp_right fun named => (List.forall_mem_cons.mp named).2
      obtain ⟨contents, made⟩ := ih later
      unfold ofModules
      cases name : m.fullName with
      | some fullName =>
          simp only [made]
          exact ⟨⟨m, fullName⟩ :: contents, rfl⟩
      | none =>
          have leftOut : excludeUnnamed = true := by
            refine fits.resolve_right fun named => ?_
            have here := named m List.mem_cons_self
            rw [name] at here
            cases here
          exact ⟨contents, (if_pos leftOut).trans made⟩

/-- The first module without a name is refused, unless such are left out. -/
theorem ofModules_of_unnamed {modules : List Module} {m : Module}
    (first : modules.find? (·.fullName.isNone) = some m) :
    ofModules false modules = .error (.unnamedModule m.description) := by
  induction modules with
  | nil => cases first
  | cons other rest ih =>
      unfold ofModules
      cases name : other.fullName with
      | some fullName =>
          rw [List.find?_cons_of_neg (by simp [name])] at first
          simp only [ih first]
          rfl
      | none =>
          rw [List.find?_cons_of_pos (by simp [name])] at first
          obtain rfl := Option.some.inj first
          simp

theorem areOf_of_ofModules {excludeUnnamed : Bool} {modules : List Module}
    (made : ofModules excludeUnnamed modules = .ok contents) :
    AreOf contents (modules.filter (·.fullName.isSome)) :=
  ⟨(modules_of_ofModules made).1, (modules_of_ofModules made).2⟩

/-! ## What contents leave unnamed -/

/-- The descriptions that are found of contents are those of the unnamed modules that they depend on,
in ascending order. -/
theorem mem_unnamedDependencies_iff (built : s.IsBuilt)
    (inside : ∀ m ∈ contents.map (·.module), m ∈ s.modules) {descriptions : List String}
    (found : unnamedDependencies s contents = .ok descriptions) :
    descriptions.Pairwise (· < ·) ∧ ∀ text, text ∈ descriptions ↔
      ∃ dep, s.LeavesUnnamed (contents.map (·.module)) dep ∧ dep.description = text := by
  obtain ⟨all, gathered, rest⟩ := Outcome.bind_eq_ok_iff.mp found
  obtain rfl := Outcome.pure_eq_ok_iff.mp rest
  have each := Outcome.mapM_eq_ok_iff.mp gathered
  refine ⟨(SortedMap.sortedSet_ascending _).imp Key.before_string_iff.mp, fun text => ?_⟩
  rw [SortedMap.mem_sortedSet, List.mem_map]
  constructor
  · rintro ⟨dep, listed, rfl⟩
    obtain ⟨among, unnamed⟩ := List.mem_filter.mp listed
    obtain ⟨deps, part, member⟩ := List.mem_flatten.mp among
    obtain ⟨content, source, made⟩ := Outcome.exists_of_forall₂ each part
    have inGroup : content.module ∈ contents.map (·.module) := List.mem_map_of_mem source
    have reached := (ModuleSet.mem_deps_iff built (inside _ inGroup) made dep.module).mp
      ⟨dep, member, rfl⟩
    exact ⟨dep.module, ⟨Option.isNone_iff_eq_none.mp unnamed, _, inGroup, reached⟩, rfl⟩
  · rintro ⟨dep, ⟨unnamed, m, inGroup, reached⟩, rfl⟩
    obtain ⟨content, source, rfl⟩ := List.mem_map.mp inGroup
    obtain ⟨deps, part, made⟩ := Outcome.exists_of_forall₂ each.flip source
    obtain ⟨found, member, rfl⟩ :=
      (ModuleSet.mem_deps_iff built (inside _ inGroup) made dep).mpr reached
    refine ⟨found, List.mem_filter.mpr ⟨List.mem_flatten.mpr ⟨deps, part, member⟩, ?_⟩, rfl⟩
    exact Option.isNone_iff_eq_none.mpr unnamed

/-- Modules that have contents are selected, unless these leave some unnamed. -/
theorem select_cases (built : s.IsBuilt)
    (made : ofModules options.excludeUnnamed s.localContent = .ok contents) :
    (select s options = .ok contents ∧
        ¬ ∃ dep, s.LeavesUnnamed (contents.map (·.module)) dep) ∨
      ∃ descriptions, select s options = .error (.unnamedDependencies descriptions) ∧
        (∃ dep, s.LeavesUnnamed (contents.map (·.module)) dep) ∧
        descriptions.Pairwise (· < ·) ∧ ∀ text, text ∈ descriptions ↔
          ∃ dep, s.LeavesUnnamed (contents.map (·.module)) dep ∧ dep.description = text := by
  have inside : ∀ m ∈ contents.map (·.module), m ∈ s.modules := by
    rw [(modules_of_ofModules made).1]
    intro m member
    exact (List.mem_filter.mp (List.mem_filter.mp member).1).1
  obtain ⟨descriptions, found⟩ := unnamedDependencies_total built.wellFormed contents
  obtain ⟨ascending, listed⟩ := mem_unnamedDependencies_iff built inside found
  have selected : select s options =
      if descriptions ≠ [] then .error (.unnamedDependencies descriptions) else .ok contents := by
    simp only [select, made, found, bind, Except.bind, Except.mapError]
    split <;> rfl
  rw [selected]
  by_cases none : descriptions = []
  · subst none
    refine .inl ⟨if_neg (by simp), ?_⟩
    rintro ⟨dep, leaves⟩
    exact absurd ((listed _).mpr ⟨dep, leaves, rfl⟩) List.not_mem_nil
  · obtain ⟨text, first⟩ := List.exists_mem_of_ne_nil _ none
    obtain ⟨dep, leaves, -⟩ := (listed text).mp first
    exact .inr ⟨descriptions, if_pos none, ⟨dep, leaves⟩, ascending, listed⟩

/-- The local targets of a set that was built and the local modules that they depend on are selected
in its order. The first of them without a name is refused, and if there is none all are published. If
such are left out, the others are published, unless some module that one of them depends on has no
name; then all that have none are reported. -/
theorem select_spec (built : s.IsBuilt) (added : ∀ m ∈ s.modules, m.IsAdded)
    (options : PublishOptions) :
    (s.localContent.Sublist s.modules ∧ s.localContent.Nodup ∧
        ∀ m, m ∈ s.localContent ↔ s.Selects m) ∧
      (options.excludeUnnamed = false →
        (∀ m, s.localContent.find? (·.fullName.isNone) = some m →
            select s options = .error (.unnamedModule m.description)) ∧
          (s.localContent.find? (·.fullName.isNone) = none →
            ∃ contents, select s options = .ok contents ∧ AreOf contents s.localContent)) ∧
      (options.excludeUnnamed = true →
        ((∃ error, select s options = .error error) ↔
            ∃ dep, s.LeavesUnnamed s.namedContent dep) ∧
          (∀ contents, select s options = .ok contents → AreOf contents s.namedContent) ∧
          ∀ error, select s options = .error error → ∃ descriptions,
            error = .unnamedDependencies descriptions ∧ descriptions.Pairwise (· < ·) ∧
              ∀ text, text ∈ descriptions ↔
                ∃ dep, s.LeavesUnnamed s.namedContent dep ∧ dep.description = text) := by
  refine ⟨⟨List.filter_sublist, built.nodup.of_map.filter _, fun m =>
    ModuleSet.mem_localContent_iff built⟩, fun strict => ⟨?_, ?_⟩, fun lenient => ?_⟩
  · intro m first
    have refused := ofModules_of_unnamed first
    rw [← strict] at refused
    simp only [select, refused, bind, Except.bind]
  · intro allNamed
    have named : ∀ m ∈ s.localContent, m.fullName.isSome = true := by
      intro m member
      simpa [← Option.isSome_iff_ne_none] using List.find?_eq_none.mp allNamed m member
    obtain ⟨contents, made⟩ :=
      @ofModules_total options.excludeUnnamed s.localContent (.inr named)
    have areOf := areOf_of_ofModules made
    rw [List.filter_eq_self.mpr named] at areOf
    rcases select_cases built made with ⟨selected, -⟩ | ⟨_, -, ⟨dep, leaves⟩, -⟩
    · exact ⟨contents, selected, areOf⟩
    · -- What is left unnamed is selected, but all that is selected is named.
      rw [areOf.modules] at leaves
      have selects := leaves.selects built added fun _ member => member
      have here := named dep ((ModuleSet.mem_localContent_iff built).mpr selects)
      rw [leaves.unnamed] at here
      cases here
  · obtain ⟨contents, made⟩ :=
      @ofModules_total options.excludeUnnamed s.localContent (.inl lenient)
    have areOf : AreOf contents s.namedContent := areOf_of_ofModules made
    rcases select_cases built made with ⟨selected, bare⟩ | ⟨descriptions, failed, some, listed⟩
    · rw [areOf.modules] at bare
      simp only [selected]
      refine ⟨⟨fun ⟨_, failed⟩ => (nomatch failed), fun some => absurd some bare⟩, ?_, ?_⟩
      · intro _ same
        exact Except.ok.inj same ▸ areOf
      · intro _ failed
        cases failed
    · rw [areOf.modules] at some listed
      simp only [failed]
      refine ⟨⟨fun _ => some, fun _ => ⟨_, rfl⟩⟩, ?_, ?_⟩
      · intro _ selected
        cases selected
      · intro _ same
        exact ⟨descriptions, (Except.error.inj same).symm, listed⟩

/-- A module that depends on an unnamed one is not published: the unnamed one is refused, or if such
are left out it is reported. -/
theorem select_spec_of_unnamed_dependency : ∃ (s : ModuleSet) (m dep : Module),
    s.IsBuilt ∧ (∀ m ∈ s.modules, m.IsAdded) ∧
      s.localContent.find? (·.fullName.isNone) = some dep ∧
      select s {} = .error (.unnamedModule dep.description) ∧
      s.Selects m ∧ s.LeavesUnnamed s.namedContent dep ∧ ∃ descriptions,
        select s { excludeUnnamed := true } = .error (.unnamedDependencies descriptions) ∧
        dep.description ∈ descriptions := by
  let name : FullName := ⟨"r.dev", "acme", "a", by decide, by decide, by decide⟩
  let m := Module.edited "app" MemoryBucket.empty.toBucket (some name) true
  let dep := Module.edited "lib" MemoryBucket.empty.toBucket none false
  have apart : m.opaqueId ≠ dep.opaqueId := by decide
  have built := ModuleSet.isBuilt_pair apart
  have added : ∀ other ∈ (ModuleSet.pair m dep).modules, other.IsAdded := by
    simp only [ModuleSet.pair, List.forall_mem_cons]
    exact ⟨.edited .., .edited .., fun _ none => absurd none List.not_mem_nil⟩
  have reached : (ModuleSet.pair m dep).Reaches m dep := by
    refine ⟨List.mem_cons_of_mem _ List.mem_cons_self, .single ?_⟩
    simp [Graph.Edge, Graph.directDeps, ModuleSet.pair]
  have selects : (ModuleSet.pair m dep).Selects m := ⟨List.mem_cons_self, rfl, .inl rfl⟩
  obtain ⟨⟨-, -, listed⟩, strict, -⟩ := select_spec built added {}
  have whole : (ModuleSet.pair m dep).localContent = [m, dep] := by
    have both : ∀ other ∈ [m, dep], other ∈ (ModuleSet.pair m dep).localContent := by
      simp only [List.forall_mem_cons]
      exact ⟨(listed _).mpr selects, (listed _).mpr (selects.of_reaches reached rfl),
        fun _ none => absurd none List.not_mem_nil⟩
    exact List.filter_eq_self.mpr fun other member => (List.mem_filter.mp (both other member)).2
  have first : (ModuleSet.pair m dep).localContent.find? (·.fullName.isNone) = some dep := by
    rw [whole]
    rfl
  have leaves : (ModuleSet.pair m dep).LeavesUnnamed (ModuleSet.pair m dep).namedContent dep := by
    refine ⟨rfl, m, ?_, reached⟩
    rw [ModuleSet.namedContent, whole]
    exact List.mem_cons_self
  obtain ⟨fails, -, reports⟩ := (select_spec built added { excludeUnnamed := true }).2.2 rfl
  obtain ⟨error, failed⟩ := fails.mpr ⟨dep, leaves⟩
  obtain ⟨descriptions, rfl, -, all⟩ := reports error failed
  exact ⟨ModuleSet.pair m dep, m, dep, built, added, first, (strict rfl).1 dep first, selects, leaves,
    descriptions, failed, (all _).mpr ⟨dep, leaves, rfl⟩⟩

end Content

end SchemaModules
