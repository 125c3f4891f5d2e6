import Mathlib.Data.List.Find
import SchemaModules.Proofs.Boundary.Placement

/-! # Which files a boundary takes in and which it leaves out

At most one root of a boundary covers a path (`eq_of_covers`), so it is this root's filters that
take the path in or leave it out (`locate?_isSome_iff_accepts`, `isExcluded_iff_of_liesIn`). Never
do they do both, and a root without includes does one of the two with whatever it covers
(`locates_below_its_root`).
-/

namespace SchemaModules

open SchemaModules.Path (LiesIn)

/-- What lies in an exclude of a root lies in the root. -/
theorem Root.WellFormed.liesIn_of_excludes {root : Root} (wf : root.WellFormed)
    {directory path : String} (excluded : directory ∈ root.excludes)
    (lies : LiesIn path directory) : LiesIn path root.path := by
  have within := wf.excludes_within directory excluded
  rw [Path.contains_iff_liesIn wf.path_valid (wf.excludes_valid directory excluded)] at within
  exact within.1.trans lies

namespace Boundary

variable {b : Boundary}

/-! ## The root that covers a path -/

/-- At most one of the roots covers a path, also one that leads out of the module's directory. -/
theorem eq_of_covers (wf : b.WellFormed) {r s : Root} (first : r ∈ b.roots) (second : s ∈ b.roots)
    {path : String} (left : r.covers (Path.normalize path) = true)
    (right : s.covers (Path.normalize path) = true) : r = s := by
  obtain ⟨p, inside, textR⟩ := Path.validate_eq_self_iff.mp (wf.roots_wellFormed r first).path_valid
  obtain ⟨q, insideToo, textS⟩ :=
    Path.validate_eq_self_iff.mp (wf.roots_wellFormed s second).path_valid
  -- The root at the top covers whatever there is, other roots only what their names lead.
  have comparable : p.names <+: q.names ∨ q.names <+: p.names := by
    rw [Root.covers, ← textR, Path.normalize, Path.contains_iff, Path.equalsOrContains_iff,
      inside.segments] at left
    rw [Root.covers, ← textS, Path.normalize, Path.contains_iff, Path.equalsOrContains_iff,
      insideToo.segments] at right
    rcases left.2 with topR | ⟨-, above⟩
    · rw [Path.text_eq_top_iff.mp topR]
      exact .inl List.nil_prefix
    · rcases right.2 with topS | ⟨-, aboveToo⟩
      · rw [Path.text_eq_top_iff.mp topS]
        exact .inr List.nil_prefix
      · exact List.prefix_or_prefix_of_prefix above aboveToo
  have itself : ∀ path : String, LiesIn path path := fun _ => List.prefix_rfl
  rcases comparable with above | below
  · have inner : LiesIn s.path r.path := by
      rwa [LiesIn, ← textR, ← textS, Path.parse_text, Path.parse_text]
    exact eq_of_liesIn wf first second inner (itself s.path)
  · have outer : LiesIn r.path s.path := by
      rwa [LiesIn, ← textR, ← textS, Path.parse_text, Path.parse_text]
    exact eq_of_liesIn wf first second (itself r.path) outer

/-- The order of the roots makes no difference to where a path is located. -/
theorem locate?_perm (wf : b.WellFormed) {roots : List Root} (perm : roots.Perm b.roots)
    (path : String) : locateAmong? roots path = b.locate? path := by
  unfold locate? locateAmong?
  cases validated : Path.validate path with
  | error _ => rfl
  | ok normal =>
      obtain rfl := Path.normalize_of_validate validated
      have unique : {root ∈ b.roots | root.covers (Path.normalize path) = true}.Subsingleton :=
        fun r first s second => eq_of_covers wf first.1 second.1 first.2 second.2
      have found := List.find?_eq_find?_of_perm perm.symm unique
      simp only [Except.toOption, Option.bind_eq_bind, Option.bind_some, found]

/-! ## What its filters decide -/

section Normal

variable {path normal : String} (valid : Path.validate path = .ok normal)
include valid

theorem locate?_of_validate : b.locate? path = b.locate? normal := by
  simp only [locate?, locateAmong?, valid, Path.validate_of_validate valid]

theorem isExcluded_of_validate : b.isExcluded path = b.isExcluded normal := by
  simp only [isExcluded, valid, Path.validate_of_validate valid]

end Normal

theorem exists_normal_of_locate? {path place : String} (located : b.locate? path = some place) :
    ∃ normal, Path.validate path = .ok normal := by
  unfold locate? locateAmong? at located
  cases validated : Path.validate path with
  | ok normal => exact ⟨normal, rfl⟩
  | error _ => simp [validated, Except.toOption] at located

section Root

variable (wf : b.WellFormed) {root : Root} (member : root ∈ b.roots) {path : String}
  (valid : Path.validate path = .ok path)
include wf member valid

/-- What lies in a root is left out if it lies in one of the excludes of that root. -/
theorem isExcluded_iff_of_liesIn (lies : LiesIn path root.path) :
    b.isExcluded path = true ↔ ∃ directory ∈ root.excludes, LiesIn path directory := by
  rw [isExcluded_iff wf valid]
  constructor
  · rintro ⟨other, otherMember, directory, excluded, lower⟩
    have above := (wf.roots_wellFormed other otherMember).liesIn_of_excludes excluded lower
    obtain rfl := eq_of_liesIn wf otherMember member above lies
    exact ⟨directory, excluded, lower⟩
  · rintro ⟨directory, excluded, lower⟩
    exact ⟨root, member, directory, excluded, lower⟩

/-- What lies in a root is located if that root accepts it. -/
theorem locate?_isSome_iff_accepts (lies : LiesIn path root.path) :
    (b.locate? path).isSome = true ↔ root.Accepts path := by
  rw [locate?_isSome_iff wf valid]
  constructor
  · rintro ⟨other, otherMember, accepted⟩
    obtain rfl := eq_of_liesIn wf otherMember member accepted.1.1 lies
    exact accepted
  · exact fun accepted => ⟨root, member, accepted⟩

/-- What a root without includes covers is located, or else left out. -/
theorem locate?_isSome_of_no_includes (all : root.includes = [])
    (covered : root.covers path = true) : (b.locate? path).isSome = !b.isExcluded path := by
  rw [Root.covers, Path.contains_iff_liesIn (wf.roots_wellFormed root member).path_valid valid]
    at covered
  have located := locate?_isSome_iff_accepts wf member valid covered.1
  have excluded := isExcluded_iff_of_liesIn wf member valid covered.1
  have accepts : root.Accepts path ↔ ¬ ∃ directory ∈ root.excludes, LiesIn path directory := by
    simp [Root.Accepts, covered, all]
  rw [Bool.eq_iff_iff, located, accepts, ← excluded, Bool.not_eq_true', Bool.not_eq_true]

end Root

/-- What is located is not left out. -/
theorem isExcluded_of_locate? (wf : b.WellFormed) {path place : String}
    (located : b.locate? path = some place) : b.isExcluded path = false := by
  obtain ⟨normal, validated⟩ := exists_normal_of_locate? located
  have valid := Path.validate_of_validate validated
  rw [locate?_of_validate validated, locate?_eq_some_iff wf valid] at located
  obtain ⟨root, member, -, accepted, -⟩ := located
  rw [isExcluded_of_validate validated, ← Bool.not_eq_true,
    isExcluded_iff_of_liesIn wf member valid accepted.1.1]
  rintro ⟨directory, excluded, lies⟩
  exact accepted.2.2 directory excluded lies

/-- At most one root of a boundary covers a path, so the order of the roots makes no difference. A
path is located if it has a normal form inside that the root accepts, at a place that joined to the
root gives the normal form. What is located is not left out, and of what a root without includes
covers one of the two holds. -/
theorem locates_below_its_root (constructed : b.IsConstructed) (path : String) :
    (∀ r ∈ b.roots, ∀ s ∈ b.roots, r.covers (Path.normalize path) = true →
      s.covers (Path.normalize path) = true → r = s) ∧
    (∀ roots : List Root, roots.Perm b.roots → locateAmong? roots path = b.locate? path) ∧
    ((b.locate? path).isSome = true ↔
      ∃ normal, Path.validate path = .ok normal ∧ ∃ root ∈ b.roots, root.Accepts normal) ∧
    (∀ place, b.locate? path = some place → ∃ root ∈ b.roots,
      root.Accepts (Path.normalize path) ∧ Path.normalize place = place ∧ place ≠ "." ∧
        Path.join [root.path, place] = Path.normalize path) ∧
    ¬ ((b.locate? path).isSome = true ∧ b.isExcluded path = true) ∧
    ∀ normal, Path.validate path = .ok normal → ∀ root ∈ b.roots, root.includes = [] →
      root.covers normal = true → (b.locate? path).isSome = !b.isExcluded path := by
  have wf := constructed.wellFormed
  refine ⟨fun r first s second => eq_of_covers wf first second,
    fun _ perm => locate?_perm wf perm path, ⟨?_, ?_⟩, ?_, ?_, ?_⟩
  · intro isSome
    obtain ⟨place, located⟩ := Option.isSome_iff_exists.mp isSome
    obtain ⟨normal, validated⟩ := exists_normal_of_locate? located
    rw [locate?_of_validate validated,
      locate?_isSome_iff wf (Path.validate_of_validate validated)] at isSome
    exact ⟨normal, validated, isSome⟩
  · rintro ⟨normal, validated, accepted⟩
    rwa [locate?_of_validate validated,
      locate?_isSome_iff wf (Path.validate_of_validate validated)]
  · intro place located
    obtain ⟨normal, validated⟩ := exists_normal_of_locate? located
    rw [locate?_of_validate validated,
      locate?_eq_some_iff wf (Path.validate_of_validate validated)] at located
    obtain ⟨root, member, file, accepted, joined⟩ := located
    rw [Path.normalize_of_validate validated]
    exact ⟨root, member, accepted, file.normalize_eq, file.2, joined.symm⟩
  · rintro ⟨isSome, excluded⟩
    obtain ⟨place, located⟩ := Option.isSome_iff_exists.mp isSome
    rw [isExcluded_of_locate? wf located] at excluded
    exact absurd excluded Bool.false_ne_true
  · intro normal validated root member all covered
    rw [locate?_of_validate validated, isExcluded_of_validate validated]
    exact locate?_isSome_of_no_includes wf member (Path.validate_of_validate validated) all covered

/-- Two roots, one of which leaves a directory out. -/
def withExclude : Boundary :=
  ⟨.v1beta1, ".", none, SortedMap.ofList [("a", []), ("b", [])],
    SortedMap.ofList [("a", ["a/y"]), ("b", [])]⟩

theorem isConstructed_withExclude : withExclude.IsConstructed := by
  have apart : checkApart "root" ["a", "b"] = .ok () :=
    (checkApart_iff_liesIn (by decide)).mpr (by decide)
  have checked : ∀ root ∈ withExclude.roots, root.check = .ok () := by
    intro root member
    rcases List.mem_pair.mp member with rfl | rfl <;> rfl
  exact ⟨.v1beta1, ".", none, withExclude.includesByRoot, withExclude.excludesByRoot,
    make_eq_ok_iff.mpr ⟨".", _, _, rfl, .inr rfl, rfl, rfl, rfl, rfl, apart, checked, rfl⟩⟩

/-- A file is located below its root however its path is spelled, and one in the excluded directory
is left out. -/
theorem locates_of_two_roots :
    withExclude.IsConstructed ∧ (withExclude.locate? "./a//x.proto").isSome = true ∧
      withExclude.isExcluded "./a//x.proto" = false ∧
      (withExclude.locate? "a/y/z.proto").isSome = !withExclude.isExcluded "a/y/z.proto" ∧
      withExclude.isExcluded "a/y/z.proto" = true := by
  have root : (⟨"a", [], ["a/y"]⟩ : Root) ∈ withExclude.roots := List.mem_cons_self
  have accepts : ∀ path, (LiesIn path "a" ∧ path ≠ "a") → ¬ LiesIn path "a/y" →
      Root.Accepts ⟨"a", [], ["a/y"]⟩ path := by
    intro path below visible
    exact ⟨below, .inl rfl, by simpa using visible⟩
  obtain ⟨-, -, located, -, apart, -⟩ :=
    locates_below_its_root isConstructed_withExclude "./a//x.proto"
  have isSome := located.mpr
    ⟨"a/x.proto", by decide, _, root, accepts _ (by decide) (by decide)⟩
  obtain ⟨-, -, -, -, -, one⟩ := locates_below_its_root isConstructed_withExclude "a/y/z.proto"
  have covered : Root.covers ⟨"a", [], ["a/y"]⟩ "a/y/z.proto" = true :=
    (Path.contains_iff_liesIn (by decide) (by decide)).mpr (by decide)
  have excluded : withExclude.isExcluded "a/y/z.proto" = true :=
    (isExcluded_iff isConstructed_withExclude.wellFormed (by decide)).mpr
      ⟨_, root, "a/y", by decide, by decide⟩
  exact ⟨isConstructed_withExclude, isSome, by simpa [isSome] using apart,
    one _ (by decide) _ root rfl covered, excluded⟩

end Boundary

end SchemaModules
