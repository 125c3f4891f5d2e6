import Mathlib.Data.List.Infix
import SchemaModules.Path.Containment
import SchemaModules.Proofs.Path.Segments

/-! # Containment as the prefix order

The walk upwards from a path meets exactly the prefixes of its segments (`mem_ancestors_iff`). So one
path equals or contains another if it is the top of the anchor, or starts where the other does and its
segments lead those of the other (`equalsOrContains_iff`); strict containment asks besides that the two
differ (`contains_iff`). Between paths that stay inside their context directory this is the prefix
order of the names (`equalsOrContains_text`, `contains_text`).
-/

namespace SchemaModules.Path

/-- A list leads another if it is the other or leads it without its last member. -/
theorem prefix_iff_dropLast {α : Type} {a b : List α} : a <+: b ↔ a = b ∨ a <+: b.dropLast := by
  constructor
  · rintro ⟨rest, rfl⟩
    by_cases none : rest = []
    · exact .inl (by simp [none])
    · rw [List.dropLast_append_of_ne_nil none]
      exact .inr (List.prefix_append _ _)
  · rintro (rfl | start)
    · exact List.prefix_rfl
    · exact start.trans (List.dropLast_prefix _)

theorem length_segments (p : Path) : p.segments.length = p.depth := by
  simp [segments, depth]

/-- The directories above a path start where it does and lie along the segments of its parent. -/
theorem mem_ancestors_iff (p q : Path) :
    q ∈ p.ancestors ↔ q.rooted = p.rooted ∧ q.segments <+: p.segments.dropLast := by
  induction p using ancestors.induct with
  | case1 p ih =>
      have here : q = p.parent ↔ q.rooted = p.rooted ∧ q.segments = p.parent.segments :=
        eq_iff_segments
      rw [ancestors, List.mem_cons, ← segments_parent, prefix_iff_dropLast, and_or_left, ← here]
      by_cases shallow : p.depth ≤ 1
      -- The walk stops at a parent without segments, which is its own parent.
      · have none : p.parent.segments = [] := by
          apply List.eq_nil_of_length_eq_zero
          rw [length_segments, depth_parent]
          omega
        simp [if_pos shallow, here, none]
      · rw [if_neg shallow, ih shallow]
        rfl

theorem dir_text (p : Path) : dir p.text = p.parent.text := by
  rw [dir, parse_text]

/-- A text in normal form equals or contains another if it is the top of the anchor, or if it starts
where the other does and its segments lead those of the other. -/
theorem equalsOrContains_iff (p q : Path) (anchor : Anchor) :
    equalsOrContains p.text q.text anchor = true ↔
      p.text = anchor.topText ∨ p.rooted = q.rooted ∧ p.segments <+: q.segments := by
  have above : p.text ∈ q.ancestors.map text ↔ p ∈ q.ancestors :=
    List.mem_map_of_injective fun _ _ => text_injective
  rw [prefix_iff_dropLast, and_or_left, ← eq_iff_segments, ← mem_ancestors_iff]
  simp only [equalsOrContains, parse_text, Bool.or_eq_true, decide_eq_true_eq, text_inj, above,
    or_assoc]

/-- A text in normal form strictly contains another if it equals or contains it and differs from
it. -/
theorem contains_iff (p q : Path) (anchor : Anchor) :
    contains p.text q.text anchor = true ↔
      p ≠ q ∧ equalsOrContains p.text q.text anchor = true := by
  simp only [contains, Bool.and_eq_true, decide_eq_true_eq, dir_text, ne_eq, text_inj,
    equalsOrContains_iff, segments_parent]
  refine and_congr_right fun ne => or_congr_right (and_congr_right fun start => ?_)
  have differ : p.segments ≠ q.segments := fun same => ne (eq_of_segments start same)
  rw [@prefix_iff_dropLast _ p.segments q.segments, or_iff_right differ]

/-! ## Paths inside -/

/-- Containment of texts in normal form is the prefix order of their names. -/
theorem equalsOrContains_text {p q : Path} (left : p.Inside) (right : q.Inside) :
    equalsOrContains p.text q.text .relative = true ↔ p.names <+: q.names := by
  have topText : p.text = Anchor.relative.topText ↔ p = top false := text_eq_top_iff
  have start : p.rooted = q.rooted := left.1.trans right.1.symm
  rw [equalsOrContains_iff, topText, left.segments, right.segments]
  simp only [start, true_and, or_iff_right_iff_imp]
  rintro rfl
  exact List.nil_prefix

/-- Strict containment of texts in normal form is the strict prefix order of their names. -/
theorem contains_text {p q : Path} (left : p.Inside) (right : q.Inside) :
    contains p.text q.text .relative = true ↔ p.names <+: q.names ∧ p ≠ q := by
  rw [contains_iff, equalsOrContains_text left right, and_comm]

/-- What a directory strictly contains is the directory and a way on from it. -/
theorem contains_text_iff_append {p q : Path} (left : p.Inside) (right : q.Inside) :
    contains p.text q.text .relative = true ↔
      ∃ r : Path, r.Inside ∧ r.names ≠ [] ∧ q = p.append r := by
  rw [contains_text left right]
  constructor
  · rintro ⟨⟨rest, split⟩, ne⟩
    have valid : ∀ s ∈ rest, Segment.IsName s := fun s member =>
      q.names_valid s (split ▸ List.mem_append_right _ member)
    refine ⟨⟨false, 0, rest, valid, by simp⟩, ⟨rfl, rfl⟩, ?_, ?_⟩
    · rintro rfl
      exact ne (left.eq_of_names right (by simpa using split))
    · exact right.eq_of_names (q := p.append _) left split.symm
  · rintro ⟨r, -, some, rfl⟩
    refine ⟨List.prefix_append _ _, fun same => some ?_⟩
    have names := congrArg names same
    simpa [append] using names

/-! ## Lying in a directory -/

/-- A path lies in a directory, or is it, if the directory's names lead its own. -/
def LiesIn (path directory : String) : Prop :=
  (parse directory).names <+: (parse path).names

instance (path directory : String) : Decidable (LiesIn path directory) :=
  inferInstanceAs (Decidable (_ <+: _))

/-- The walk upwards decides whether a path lies in a directory. -/
theorem equalsOrContains_iff_liesIn {directory path : String}
    (left : validate directory = .ok directory) (right : validate path = .ok path) :
    equalsOrContains directory path .relative = true ↔ LiesIn path directory := by
  obtain ⟨p, inner, rfl⟩ := validate_eq_self_iff.mp left
  obtain ⟨q, outer, rfl⟩ := validate_eq_self_iff.mp right
  rw [equalsOrContains_text inner outer, LiesIn, parse_text, parse_text]

/-- A directory contains the other paths that lie in it. -/
theorem contains_iff_liesIn {directory path : String}
    (left : validate directory = .ok directory) (right : validate path = .ok path) :
    contains directory path .relative = true ↔ LiesIn path directory ∧ path ≠ directory := by
  obtain ⟨p, inner, rfl⟩ := validate_eq_self_iff.mp left
  obtain ⟨q, outer, rfl⟩ := validate_eq_self_iff.mp right
  rw [contains_text inner outer, LiesIn, parse_text, parse_text, ne_comm]
  exact and_congr_right fun _ => not_congr ⟨congrArg text, text_injective⟩

/-- Paths lie to each other below a directory as they do without it. -/
theorem liesIn_join_iff {directory path other : String}
    (valid : validate directory = .ok directory) (left : validate path = .ok path)
    (right : validate other = .ok other) :
    LiesIn (join [directory, path]) (join [directory, other]) ↔ LiesIn path other := by
  obtain ⟨d, -, rfl⟩ := validate_eq_self_iff.mp valid
  obtain ⟨p, inner, rfl⟩ := validate_eq_self_iff.mp left
  obtain ⟨q, outer, rfl⟩ := validate_eq_self_iff.mp right
  rw [join_pair d inner, join_pair d outer]
  simp only [LiesIn, parse_text]
  exact List.prefix_append_right_inj d.names

end SchemaModules.Path
