import Mathlib.Order.Defs.Unbundled
import SchemaModules.Proofs.Outcome
import SchemaModules.Proofs.Path.Containment
import SchemaModules.Proofs.SortedMap

/-! # The order of containment

Between the texts in normal form that an anchor admits, containment is the prefix order of their
segments and strict containment its strict part (`equalsOrContains_iff_segments`,
`contains_iff_segments`). What decides it is a walk upwards, directory by directory (`Climbs`). From any
text, in normal form or not, the walk ends, and it finds what containment says
(`climbs_iff_equalsOrContains`).
-/

namespace SchemaModules.Path

/-! ## Texts that are compared -/

/-- The texts that are compared under an anchor: those in normal form that stay inside their context
directory, or those in normal form that start at the root. -/
def Anchor.Admits : Anchor → String → Prop
  | .relative, s => validate s = .ok s
  | .absolute, s => normalize s = s ∧ StartsAtRoot s

instance : (anchor : Anchor) → (s : String) → Decidable (anchor.Admits s)
  | .relative, s => inferInstanceAs (Decidable (validate s = .ok s))
  | .absolute, s => inferInstanceAs (Decidable (normalize s = s ∧ StartsAtRoot s))

variable {anchor : Anchor}

/-- What a text is brought into for comparisons is admitted. The working directory starts at the
root wherever the system gives it. -/
theorem admits_of_normalizeUnder {workingDirectory : Except String String} {s t : String}
    (fromRoot : ∀ directory, workingDirectory = .ok directory → StartsAtRoot directory)
    (done : normalizeUnder workingDirectory anchor s = .ok t) : anchor.Admits t := by
  cases anchor with
  | relative =>
      exact validate_of_validate (Outcome.mapError_eq_ok_iff.mp done)
  | absolute =>
      unfold normalizeUnder at done
      by_cases rooted : (parse s).rooted = true
      · rw [if_pos rooted] at done
        obtain rfl := Except.ok.inj done
        exact ⟨normalize_normalize s, (startsAtRoot_text _).mpr rooted⟩
      · rw [if_neg rooted] at done
        cases workingDirectory with
        | error reason => cases done
        | ok directory =>
            obtain rfl := Except.ok.inj done
            have filled : normalize directory ≠ "" := text_ne_empty _
            have start : StartsAtRoot (normalize directory) :=
              (startsAtRoot_normalize directory).mpr (fromRoot directory rfl)
            simp only [absolute, if_neg rooted]
            refine ⟨normalize_normalize _, (startsAtRoot_normalize _).mpr ?_⟩
            rw [StartsAtRoot, String.toList_append, String.toList_append, List.append_assoc,
              List.head?_append_of_ne_nil _ (by simpa using filled)]
            exact start

/-- The working directory is missed exactly by a relative text that is to be taken from the root. -/
theorem normalizeUnder_eq_noWorkingDirectory_iff {workingDirectory : Except String String}
    {s path reason : String} :
    normalizeUnder workingDirectory anchor s = .error (.noWorkingDirectory path reason) ↔
      anchor = .absolute ∧ ¬ StartsAtRoot s ∧ workingDirectory = .error reason ∧ path = s := by
  cases anchor with
  | relative =>
      unfold normalizeUnder
      cases validate s <;> simp [Except.mapError]
  | absolute =>
      unfold normalizeUnder
      rw [rooted_parse]
      by_cases start : StartsAtRoot s
      · simp [start]
      · cases workingDirectory with
        | ok directory => simp [start]
        | error other => simp [start, and_comm, eq_comm]

theorem normalizeUnder_of_known (workingDirectory : String) (anchor : Anchor) (s : String) :
    normalizeUnder (.ok workingDirectory) anchor s =
      (normalizeFor workingDirectory anchor s).mapError .refused := by
  cases anchor with
  | relative => rfl
  | absolute =>
      simp only [normalizeUnder, normalizeFor, absolute, normalize]
      split <;> rfl

/-- The top of an anchor is a path without segments. -/
theorem exists_top (anchor : Anchor) : ∃ rooted, anchor.topText = (top rooted).text := by
  cases anchor with
  | relative => exact ⟨false, rfl⟩
  | absolute => exact ⟨true, rfl⟩

/-- Texts that one anchor admits are those of paths with a common start. -/
theorem Anchor.Admits.exists_path {s t : String} (left : anchor.Admits s) (right : anchor.Admits t) :
    ∃ p q : Path, p.text = s ∧ q.text = t ∧ p.rooted = q.rooted := by
  cases anchor with
  | relative =>
      obtain ⟨p, inside, rfl⟩ := validate_eq_self_iff.mp left
      obtain ⟨q, insideToo, rfl⟩ := validate_eq_self_iff.mp right
      exact ⟨p, q, rfl, rfl, inside.1.trans insideToo.1.symm⟩
  | absolute =>
      refine ⟨parse s, parse t, left.1, right.1, ?_⟩
      rw [rooted_parse, rooted_parse, decide_eq_true left.2, decide_eq_true right.2]

/-- Between texts that an anchor admits, containment is the prefix order of their segments. -/
theorem equalsOrContains_iff_segments {v p : String} (left : anchor.Admits v)
    (right : anchor.Admits p) :
    equalsOrContains v p anchor = true ↔ segmentsOf v <+: segmentsOf p := by
  obtain ⟨a, b, rfl, rfl, start⟩ := left.exists_path right
  rw [equalsOrContains_iff, segmentsOf_text, segmentsOf_text]
  simp only [start, true_and, or_iff_right_iff_imp]
  intro isTop
  obtain ⟨rooted, topText⟩ := exists_top anchor
  obtain rfl := text_injective (isTop.trans topText)
  exact List.nil_prefix

/-- Strict containment is the strict prefix order of the segments. -/
theorem contains_iff_segments {v p : String} (left : anchor.Admits v) (right : anchor.Admits p) :
    contains v p anchor = true ↔
      segmentsOf v <+: segmentsOf p ∧ segmentsOf v ≠ segmentsOf p := by
  rw [← equalsOrContains_iff_segments left right]
  obtain ⟨a, b, rfl, rfl, start⟩ := left.exists_path right
  have differ : a ≠ b ↔ a.segments ≠ b.segments :=
    not_congr ⟨congrArg segments, eq_of_segments start⟩
  rw [contains_iff, segmentsOf_text, segmentsOf_text, differ, and_comm]

/-- Texts that an anchor admits are one if their segments are. -/
theorem Anchor.Admits.eq_of_segmentsOf {s t : String} (left : anchor.Admits s)
    (right : anchor.Admits t) (same : segmentsOf s = segmentsOf t) : s = t := by
  obtain ⟨p, q, rfl, rfl, start⟩ := left.exists_path right
  rw [segmentsOf_text, segmentsOf_text] at same
  exact congrArg text (eq_of_segments start same)

/-- Containment orders the texts that an anchor admits. -/
theorem isPartialOrder_equalsOrContains (anchor : Anchor) :
    IsPartialOrder {s // anchor.Admits s} fun v p => equalsOrContains v p anchor = true where
  refl p := (equalsOrContains_iff_segments p.2 p.2).mpr List.prefix_rfl
  trans v w p first second := by
    rw [equalsOrContains_iff_segments v.2 w.2] at first
    rw [equalsOrContains_iff_segments w.2 p.2] at second
    exact (equalsOrContains_iff_segments v.2 p.2).mpr (first.trans second)
  antisymm v w first second := by
    rw [equalsOrContains_iff_segments v.2 w.2] at first
    rw [equalsOrContains_iff_segments w.2 v.2] at second
    have same := first.eq_of_length (first.length_le.antisymm second.length_le)
    exact Subtype.ext (v.2.eq_of_segmentsOf w.2 same)

/-- Strict containment orders the texts that an anchor admits strictly. -/
theorem isStrictOrder_contains (anchor : Anchor) :
    IsStrictOrder {s // anchor.Admits s} fun v p => contains v p anchor = true where
  irrefl p within := ((contains_iff_segments p.2 p.2).mp within).2 rfl
  trans v w p first second := by
    rw [contains_iff_segments v.2 w.2] at first
    rw [contains_iff_segments w.2 p.2] at second
    refine (contains_iff_segments v.2 p.2).mpr ⟨first.1.trans second.1, fun same => first.2 ?_⟩
    rw [← same] at second
    exact first.1.eq_of_length (first.1.length_le.antisymm second.1.length_le)

/-- Of two texts that contain a common one, one contains the other. -/
theorem comparable_of_common {v w p : String} (left : anchor.Admits v) (right : anchor.Admits w)
    (common : anchor.Admits p) (first : equalsOrContains v p anchor = true)
    (second : equalsOrContains w p anchor = true) :
    equalsOrContains v w anchor = true ∨ equalsOrContains w v anchor = true := by
  rw [equalsOrContains_iff_segments left common] at first
  rw [equalsOrContains_iff_segments right common] at second
  rw [equalsOrContains_iff_segments left right, equalsOrContains_iff_segments right left]
  exact List.prefix_or_prefix_of_prefix first second

theorem allEqualOrContaining_ascending (set : List String) (path : String) (anchor : Anchor) :
    (allEqualOrContaining set path anchor).Pairwise (· < ·) :=
  (SortedMap.sortedSet_ascending _).imp Key.before_string_iff.mp

theorem mem_allEqualOrContaining {set : List String} {path v : String} {anchor : Anchor} :
    v ∈ allEqualOrContaining set path anchor ↔
      v ∈ set ∧ equalsOrContains v path anchor = true := by
  rw [allEqualOrContaining, SortedMap.mem_sortedSet, List.mem_filter]

/-! ## The walk upwards -/

/-- The walk upwards from a text in search of another, and whether it finds it. The walk ends at the
top of the anchor, at the text searched for, and where going up does not lead on. -/
inductive Climbs (value : String) (anchor : Anchor) : String → Bool → Prop where
  | top : Climbs value anchor anchor.topText false
  | found (below : value ≠ anchor.topText) : Climbs value anchor value true
  | stuck {current : String} (below : current ≠ anchor.topText) (other : current ≠ value)
      (still : dir current = current) : Climbs value anchor current false
  | up {current : String} {answer : Bool} (below : current ≠ anchor.topText)
      (other : current ≠ value) (moves : dir current ≠ current)
      (later : Climbs value anchor (dir current) answer) : Climbs value anchor current answer

theorem parse_dir (s : String) : parse (dir s) = (parse s).parent := parse_text _

/-- How far the walk upwards can still lead: over the segments of a text, and to its normal form. -/
def rise (s : String) : Nat := (parse s).depth + if normalize s = s then 0 else 1

/-- Going up leaves less far to go. -/
theorem rise_dir_lt {s : String} (moves : dir s ≠ s) : rise (dir s) < rise s := by
  have normal : normalize (dir s) = dir s := by rw [normalize, parse_dir, dir]
  simp only [rise, normal, if_true, parse_dir, depth_parent]
  by_cases atTop : (parse s).depth = 0
  -- A top leads on only to its normal form.
  · have none : (parse s).segments = [] := by
      rw [← List.length_eq_zero_iff, length_segments, atTop]
    have still : (parse s).parent = parse s := eq_of_segments rfl (by simp [segments_parent, none])
    have other : normalize s ≠ s := by
      rw [normalize, ← still]
      exact moves
    rw [if_neg other]
    omega
  · omega

/-- From every text the walk upwards ends. -/
theorem exists_climbs (value : String) (anchor : Anchor) (current : String) :
    ∃ answer, Climbs value anchor current answer := by
  by_cases isTop : current = anchor.topText
  · exact ⟨false, isTop ▸ .top⟩
  by_cases isValue : current = value
  · subst isValue
    exact ⟨true, .found isTop⟩
  by_cases still : dir current = current
  · exact ⟨false, .stuck isTop isValue still⟩
  · obtain ⟨answer, later⟩ := exists_climbs value anchor (dir current)
    exact ⟨answer, .up isTop isValue still later⟩
termination_by rise current
decreasing_by exact rise_dir_lt still

/-- The directories above a path are its parent and those above its parent. -/
theorem mem_ancestors_parent_iff (p q : Path) :
    q ∈ p.ancestors ↔ q = p.parent ∨ q ∈ p.parent.ancestors := by
  have here : q = p.parent ↔ q.rooted = p.rooted ∧ q.segments = p.parent.segments :=
    eq_iff_segments
  rw [mem_ancestors_iff, mem_ancestors_iff, ← segments_parent, prefix_iff_dropLast, and_or_left, here]
  rfl

/-- A text equals or contains another text if it equals or contains the directory of that. -/
theorem equalsOrContains_dir {value current : String} (other : current ≠ value) (anchor : Anchor) :
    equalsOrContains value current anchor = equalsOrContains value (dir current) anchor := by
  have above : value ∈ (parse current).ancestors.map text ↔
      value = dir current ∨ value ∈ (parse current).parent.ancestors.map text := by
    simp only [List.mem_map, mem_ancestors_parent_iff (parse current), or_and_right, exists_or,
      exists_eq_left, dir, @eq_comm _ value]
  rw [Bool.eq_iff_iff]
  simp only [equalsOrContains, Bool.or_eq_true, decide_eq_true_eq, parse_dir, other.symm, above,
    or_false, or_assoc]

/-- A text that going up does not lead on from is contained in itself and the top of the anchor
alone. -/
theorem equalsOrContains_of_still {value current : String} (below : value ≠ anchor.topText)
    (other : current ≠ value) (still : dir current = current) :
    equalsOrContains value current anchor = false := by
  have fixed : (parse current).parent = parse current := by rw [← parse_dir, still]
  have none : (parse current).segments = [] := by
    have shorter := congrArg (fun p => p.segments.length) fixed
    simp only [segments_parent, List.length_dropLast] at shorter
    exact List.eq_nil_of_length_eq_zero (by omega)
  have alone : value ∉ (parse current).ancestors.map text := by
    intro member
    obtain ⟨q, above, rfl⟩ := List.mem_map.mp member
    obtain ⟨start, before⟩ := (mem_ancestors_iff _ _).mp above
    rw [none] at before
    have same : q = parse current := eq_of_segments start ((List.prefix_nil.mp before).trans none.symm)
    rw [same, ← fixed] at other
    exact other still.symm
  simp [equalsOrContains, below, other.symm, alone]

theorem dir_topText (anchor : Anchor) : dir anchor.topText = anchor.topText := by
  cases anchor <;> decide

/-- The walk upwards finds what containment says. -/
theorem equalsOrContains_of_climbs {value current : String} {answer : Bool}
    (below : value ≠ anchor.topText) (walk : Climbs value anchor current answer) :
    equalsOrContains value current anchor = answer := by
  induction walk with
  | top => exact equalsOrContains_of_still below below.symm (dir_topText anchor)
  | found => simp [equalsOrContains]
  | stuck _ other still => exact equalsOrContains_of_still below other still
  | up _ other _ _ ih => rw [equalsOrContains_dir other, ih]

/-- From every text the walk upwards ends, with the answer of containment and no other. -/
theorem climbs_iff_equalsOrContains {value : String} (below : value ≠ anchor.topText)
    (current : String) (answer : Bool) :
    Climbs value anchor current answer ↔ equalsOrContains value current anchor = answer := by
  constructor
  · exact equalsOrContains_of_climbs below
  · rintro rfl
    obtain ⟨answer, walk⟩ := exists_climbs value anchor current
    rwa [equalsOrContains_of_climbs below walk]

theorem equalsOrContains_topText (path : String) (anchor : Anchor) :
    equalsOrContains anchor.topText path anchor = true := by
  simp [equalsOrContains]

/-- Between the texts that an anchor admits, containment is the prefix order of their segments: a
partial order, whose strict part is strict containment, in which texts that contain a common one are
comparable. What equals or contains a text is listed in strictly ascending order. For any texts, the
top of the anchor contains all, and for every other value the walk upwards ends and decides. -/
theorem containment_spec (anchor : Anchor) :
    (∀ v p, anchor.Admits v → anchor.Admits p →
      (equalsOrContains v p anchor = true ↔ segmentsOf v <+: segmentsOf p) ∧
      (contains v p anchor = true ↔
        segmentsOf v <+: segmentsOf p ∧ segmentsOf v ≠ segmentsOf p)) ∧
    IsPartialOrder {s // anchor.Admits s} (fun v p => equalsOrContains v p anchor = true) ∧
    IsStrictOrder {s // anchor.Admits s} (fun v p => contains v p anchor = true) ∧
    (∀ v w p, anchor.Admits v → anchor.Admits w → anchor.Admits p →
      equalsOrContains v p anchor = true → equalsOrContains w p anchor = true →
      equalsOrContains v w anchor = true ∨ equalsOrContains w v anchor = true) ∧
    (∀ set p, (∀ v ∈ set, anchor.Admits v) → anchor.Admits p →
      (allEqualOrContaining set p anchor).Pairwise (· < ·) ∧
      ∀ v, v ∈ allEqualOrContaining set p anchor ↔ v ∈ set ∧ segmentsOf v <+: segmentsOf p) ∧
    (∀ p, equalsOrContains anchor.topText p anchor = true) ∧
    ∀ v p answer, v ≠ anchor.topText →
      (Climbs v anchor p answer ↔ equalsOrContains v p anchor = answer) := by
  refine ⟨?_, isPartialOrder_equalsOrContains anchor, isStrictOrder_contains anchor, ?_, ?_, ?_, ?_⟩
  · intro v p left right
    exact ⟨equalsOrContains_iff_segments left right, contains_iff_segments left right⟩
  · intro v w p left right common
    exact comparable_of_common left right common
  · intro set p admitted right
    refine ⟨allEqualOrContaining_ascending set p anchor, fun v => ?_⟩
    rw [mem_allEqualOrContaining]
    refine and_congr_right fun member => ?_
    exact equalsOrContains_iff_segments (admitted v member) right
  · exact fun p => equalsOrContains_topText p anchor
  · exact fun v p answer below => climbs_iff_equalsOrContains below p answer

/-- A directory contains what lies in it and not what its name merely begins, and a directory is listed
before what it contains. The walk upwards ends also from a text that the anchor does not admit. -/
theorem containment_spec_of_nested_directories :
    equalsOrContains "a" "a/b" .relative = true ∧ equalsOrContains "a" "a-b" .relative = false ∧
      contains "a" "a" .relative = false ∧ contains "/" "/a" .absolute = true ∧
      allEqualOrContaining ["a/b", "a-b", "a", "."] "a/b/c" .relative = [".", "a", "a/b"] ∧
      equalsOrContains "x" "/a//b/" .relative = false := by
  obtain ⟨order, -, -, -, lists, -, walks⟩ := containment_spec .relative
  obtain ⟨fromRoot, -⟩ := containment_spec .absolute
  have within := order "a" "a/b" (by decide) (by decide)
  have beside := order "a" "a-b" (by decide) (by decide)
  have itself := order "a" "a" (by decide) (by decide)
  have below := fromRoot "/" "/a" (by decide) (by decide)
  obtain ⟨ascending, members⟩ :=
    lists ["a/b", "a-b", "a", "."] "a/b/c" (by decide) (by decide)
  have climbed : Climbs "x" .relative "/a//b/" false :=
    .up (by decide) (by decide) (by decide) <|
      .up (by decide) (by decide) (by decide) <| .stuck (by decide) (by decide) (by decide)
  refine ⟨within.1.mpr (by decide), ?_, ?_, below.2.mpr (by decide), ?_,
    (walks "x" "/a//b/" false (by decide)).mp climbed⟩
  · exact Bool.eq_false_iff.mpr (mt beside.1.mp (by decide))
  · exact Bool.eq_false_iff.mpr (mt itself.2.mp (by decide))
  · refine SortedMap.eq_of_mem_iff (ascending.imp Key.before_string_iff.mpr) (by decide) fun v => ?_
    rw [members]
    constructor
    · rintro ⟨member, before⟩
      simp only [List.mem_cons, List.not_mem_nil, or_false] at member
      rcases member with rfl | rfl | rfl | rfl
      · decide
      · exact absurd before (by decide)
      · decide
      · decide
    · intro member
      simp only [List.mem_cons, List.not_mem_nil, or_false] at member
      rcases member with rfl | rfl | rfl <;> decide

end SchemaModules.Path
