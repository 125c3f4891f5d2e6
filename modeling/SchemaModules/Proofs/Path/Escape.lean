import SchemaModules.Proofs.Path.Containment
import SchemaModules.Proofs.Path.Reduction

/-! # Paths that leave their context directory

A text leads out of its context directory if, segment by segment, it has at some point led up more
often than down (`Leaves`). That is when its path begins with steps up (`leaves_iff`), and what
validation refuses of the texts that do not start at the root. Whatever it accepts leads from any
directory to that directory or to what it contains (`contains_append`).
-/

namespace SchemaModules

open Segment (IsName)

/-- How many directories a segment leads down: a name one, a step up one less than none, and any
other segment none. -/
def Segment.descent (s : Segment) : Int :=
  if s = up then -1 else if IsName s then 1 else 0

namespace Path

/-- How many directories segments lead down altogether. -/
def balance (parts : List Segment) : Int :=
  parts.foldl (fun level s => level + s.descent) 0

/-- Segments leave the directory that they start in: some first of them lead up more often than
down. -/
def Leaves (parts : List Segment) : Prop := ∃ walked, walked <+: parts ∧ balance walked < 0

instance (parts : List Segment) : Decidable (Leaves parts) :=
  decidable_of_iff (∃ walked ∈ parts.inits, balance walked < 0) (by simp [Leaves])

theorem balance_concat (parts : List Segment) (s : Segment) :
    balance (parts ++ [s]) = balance parts + s.descent := by
  simp [balance]

theorem leaves_concat (parts : List Segment) (s : Segment) :
    Leaves (parts ++ [s]) ↔ Leaves parts ∨ balance (parts ++ [s]) < 0 := by
  unfold Leaves
  simp only [List.prefix_concat_iff, or_and_right, exists_or, exists_eq_left]
  exact or_comm

/-! ## Where segments lead -/

/-- A step up from a relative path that has no names is one more to begin with. -/
theorem ups_follow (p : Path) (relative : p.rooted = false) (s : Segment) :
    (p.follow s).ups = if s = Segment.up ∧ p.names = [] then p.ups + 1 else p.ups := by
  unfold follow ascend
  by_cases up : s = Segment.up
  · by_cases empty : p.names = []
    · simp [up, empty, relative]
    · simp [up, empty, parent]
  · by_cases name : IsName s
    · simp [up, name, child]
    · simp [up, name]

/-- A segment leads as far down as it says, counting steps up to begin with against the names. -/
theorem balance_follow (p : Path) (relative : p.rooted = false) (s : Segment) :
    ((p.follow s).names.length : Int) - (p.follow s).ups =
      p.names.length - p.ups + s.descent := by
  rw [ups_follow p relative]
  unfold follow ascend Segment.descent
  by_cases up : s = Segment.up
  · by_cases empty : p.names = []
    · simp [up, empty]
      omega
    · have some := List.length_pos_iff.mpr empty
      simp [up, empty, parent]
      omega
  · by_cases name : IsName s
    · simp [up, name, child]
      omega
    · simp [up, name]

/-- Segments lead as far down as their path, and leave where they start if their path begins with
steps up. -/
theorem leaves_iff (parts : List Segment) :
    balance parts = ((parts.foldl follow (top false)).names.length : Int) -
      (parts.foldl follow (top false)).ups ∧
    (Leaves parts ↔ (parts.foldl follow (top false)).ups ≠ 0) := by
  induction parts using List.reverseRecOn with
  | nil => simp [balance, Leaves, top]
  | append_singleton parts s ih =>
      obtain ⟨level, left⟩ := ih
      have relative : (parts.foldl follow (top false)).rooted = false := rooted_foldl_follow ..
      have here := balance_follow (parts.foldl follow (top false)) relative s
      have ups := ups_follow (parts.foldl follow (top false)) relative s
      rw [leaves_concat, balance_concat, level, left, List.foldl_append, List.foldl_cons,
        List.foldl_nil]
      refine ⟨here.symm, ?_⟩
      by_cases out : s = Segment.up ∧ (parts.foldl follow (top false)).names = []
      · have first : s.descent = -1 := if_pos out.1
        rw [ups, if_pos out, first, out.2, List.length_nil]
        omega
      · rw [if_neg out] at ups
        omega

/-- A text that does not start at the root begins with steps up if its segments leave where they
start. -/
theorem leaves_parse {s : String} (relative : ¬ StartsAtRoot s) :
    Leaves (Text.split '/' s.toList) ↔ (parse s).ups ≠ 0 := by
  rw [parse_eq, decide_eq_false relative]
  exact (leaves_iff _).2

/-! ## What lies on from a directory -/

theorem append_of_names_nil (p : Path) {q : Path} (none : q.names = []) : p.append q = p := by
  ext1
  · rfl
  · rfl
  · simp [append, none]

/-- A directory equals or contains what further names lead to from it. -/
theorem equalsOrContains_append (p q : Path) (anchor : Anchor) :
    equalsOrContains p.text (p.append q).text anchor = true := by
  rw [equalsOrContains_iff, segments_append]
  exact .inr ⟨rfl, List.prefix_append _ _⟩

/-- A directory contains what further names lead to from it, if there are some. -/
theorem contains_append (p : Path) {q : Path} (some : q.names ≠ []) (anchor : Anchor) :
    contains p.text (p.append q).text anchor = true := by
  refine (contains_iff ..).mpr ⟨?_, equalsOrContains_append p q anchor⟩
  intro same
  have names : p.names = p.names ++ q.names := congrArg names same
  exact some (by simpa using names)

/-! ## Validation -/

section Validation

variable {s : String}

theorem validate_of_startsAtRoot (start : StartsAtRoot s) :
    validate s = .error (.invalid s .notRelative) := by
  simp [validate, rooted_parse, start]

theorem validate_of_leaves (relative : ¬ StartsAtRoot s)
    (left : Leaves (Text.split '/' s.toList)) :
    validate s = .error (.invalid s .contextJump) := by
  simp [validate, rooted_parse, relative, (leaves_parse relative).mp left]

theorem validate_of_stays (relative : ¬ StartsAtRoot s)
    (stays : ¬ Leaves (Text.split '/' s.toList)) : validate s = .ok (normalize s) := by
  rw [leaves_parse relative, not_not] at stays
  simp [validate, rooted_parse, relative, stays, normalize]

/-- From any directory, what validation accepts leads to that directory or to what it contains. -/
theorem join_of_validate {path directory : String} (valid : validate s = .ok path)
    (normal : normalize directory = directory) (anchor : Anchor) :
    join [directory, path] = directory ∨
      contains directory (join [directory, path]) anchor = true := by
  obtain ⟨inside, rfl⟩ := validate_eq_ok_iff.mp valid
  rw [← normal, normalize, join_pair _ inside]
  by_cases none : (parse s).names = []
  · exact .inl (by rw [append_of_names_nil _ none])
  · exact .inr (contains_append _ none anchor)

end Validation

/-- Validation refuses what starts at the root, and of other texts those whose segments leave the
directory that they start in. Any other is normalized, and from any directory leads to that directory
or to what it contains. -/
theorem validate_spec (s : String) :
    (validate s = .error (.invalid s .notRelative) ↔ StartsAtRoot s) ∧
    (validate s = .error (.invalid s .contextJump) ↔
      ¬ StartsAtRoot s ∧ Leaves (Text.split '/' s.toList)) ∧
    (¬ StartsAtRoot s → ¬ Leaves (Text.split '/' s.toList) →
      validate s = .ok (normalize s) ∧ validate (normalize s) = .ok (normalize s)) ∧
    ∀ path, validate s = .ok path → ∀ directory, normalize directory = directory → ∀ anchor,
      join [directory, path] = directory ∨
        contains directory (join [directory, path]) anchor = true := by
  refine ⟨?_, ?_, ?_, fun _ valid _ normal anchor => join_of_validate valid normal anchor⟩
  · by_cases start : StartsAtRoot s
    · simp [validate_of_startsAtRoot start, start]
    · by_cases left : Leaves (Text.split '/' s.toList)
      · simp [validate_of_leaves start left, start]
      · simp [validate_of_stays start left, start]
  · by_cases start : StartsAtRoot s
    · simp [validate_of_startsAtRoot start, start]
    · by_cases left : Leaves (Text.split '/' s.toList)
      · simp [validate_of_leaves start left, start, left]
      · simp [validate_of_stays start left, left]
  · intro start stays
    have valid := validate_of_stays start stays
    exact ⟨valid, validate_of_validate valid⟩

/-- A path that comes back before it goes on is accepted, also with a name that begins with dots, and
one that comes back too late is not. The accepted one stays below the root and below a directory that
lies outside itself. -/
theorem validate_spec_of_dotted_name :
    validate "a/../..b//./c" = .ok "..b/c" ∧ validate "..b/c" = .ok "..b/c" ∧
      contains ".." (join ["..", "..b/c"]) .relative = true ∧
      contains "/x" (join ["/x", "..b/c"]) .absolute = true ∧
      validate "a/../../a/b" = .error (.invalid "a/../../a/b" .contextJump) := by
  have normal : normalize "a/../..b//./c" = "..b/c" := by decide
  obtain ⟨-, -, accepted, below⟩ := validate_spec "a/../..b//./c"
  obtain ⟨valid, again⟩ := accepted (by decide) (by decide)
  rw [normal] at valid again
  refine ⟨valid, again, ?_, ?_, (validate_spec "a/../../a/b").2.1.mpr (by decide)⟩
  · exact (below _ valid ".." (by decide) .relative).resolve_left (by decide)
  · exact (below _ valid "/x" (by decide) .absolute).resolve_left (by decide)

end Path

end SchemaModules
