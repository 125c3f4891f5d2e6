import SchemaModules.Proofs.Path.Composition

/-! # Path texts one after another

Where a text leads on from another depends on the path of the first alone (`parse_append`), and,
unless it starts at the root, on its own path alone (`foldl_follow_normalize`). So the parts of a text
may be normalized before it is (`normalize_append`), and what comes first or last may be joined by
itself (`join_join_left`, `join_join_right`).
-/

namespace SchemaModules

namespace Path

/-! ## Reading on -/

/-- What follows a slash is followed from where the text before it leads. -/
theorem parse_append {s : String} (filled : s ≠ "") (t : String) :
    parse (s ++ "/" ++ t) = (Text.split '/' t.toList).foldl follow (parse s) := by
  have chars : (s ++ "/" ++ t).toList = s.toList ++ '/' :: t.toList := by simp
  have start : StartsAtRoot (s ++ "/" ++ t) ↔ StartsAtRoot s := by
    rw [StartsAtRoot, StartsAtRoot, chars, List.head?_append_of_ne_nil]
    simpa using filled
  rw [parse_eq, parse_eq s, chars, Text.split_append, List.foldl_append]
  simp only [start]

/-- Unless a text starts at the root, its normal form leads on as it does. -/
theorem foldl_follow_normalize (p : Path) {t : String} (relative : ¬ StartsAtRoot t) :
    (Text.split '/' (normalize t).toList).foldl follow p =
      (Text.split '/' t.toList).foldl follow p := by
  have relativeToo : ¬ StartsAtRoot (normalize t) := by rwa [startsAtRoot_normalize]
  rw [foldl_follow_parse p relative, foldl_follow_parse p relativeToo, normalize, parse_text]

/-! ## Normalizing parts -/

theorem normalize_ne_empty (s : String) : normalize s ≠ "" := text_ne_empty _

/-- The first part of a text may be normalized before the text is. -/
theorem normalize_append_left {s : String} (filled : s ≠ "") (t : String) :
    normalize (normalize s ++ "/" ++ t) = normalize (s ++ "/" ++ t) := by
  have first := parse_append (normalize_ne_empty s) t
  rw [normalize, parse_text] at first
  rw [normalize, normalize, normalize, first, parse_append filled]

/-- The last part of a text may be normalized before the text is, unless it starts at the root. -/
theorem normalize_append_right {s t : String} (filled : s ≠ "") (relative : ¬ StartsAtRoot t) :
    normalize (s ++ "/" ++ normalize t) = normalize (s ++ "/" ++ t) := by
  rw [normalize, parse_append filled, foldl_follow_normalize _ relative, normalize,
    parse_append filled]

/-! ## Joining -/

/-- Texts with a slash between each two. -/
def slashed (texts : List String) : String :=
  String.ofList (Text.joined '/' (texts.map String.toList))

theorem slashed_append {texts others : List String} (first : texts ≠ []) (second : others ≠ []) :
    slashed (texts ++ others) = slashed texts ++ "/" ++ slashed others := by
  apply String.toList_injective
  simp [slashed, Text.joined_append, first, second]

theorem slashed_singleton (s : String) : slashed [s] = s := by
  simp [slashed, Text.joined]

theorem head?_slashed_cons {s : String} (filled : s ≠ "") (texts : List String) :
    (slashed (s :: texts)).toList.head? = s.toList.head? := by
  have some : s.toList ≠ [] := by simpa using filled
  cases texts with
  | nil => rw [slashed_singleton]
  | cons t texts => simp [slashed, Text.joined, List.head?_append_of_ne_nil _ some]

theorem slashed_ne_empty {texts : List String} (some : texts ≠ []) (filled : ∀ s ∈ texts, s ≠ "") :
    slashed texts ≠ "" := by
  cases texts with
  | nil => exact absurd rfl some
  | cons s texts =>
      have here := filled s List.mem_cons_self
      intro empty
      have start := head?_slashed_cons here texts
      rw [empty] at start
      exact here (by simpa using start.symm)

/-- Texts start at the root where the first of them does. -/
theorem not_startsAtRoot_slashed {texts : List String} (filled : ∀ s ∈ texts, s ≠ "")
    (relative : ∀ s ∈ texts, ¬ StartsAtRoot s) : ¬ StartsAtRoot (slashed texts) := by
  cases texts with
  | nil => decide
  | cons s texts =>
      rw [StartsAtRoot, head?_slashed_cons (filled s List.mem_cons_self)]
      exact relative s List.mem_cons_self

theorem join_of_filled {texts : List String} (some : texts ≠ []) (filled : ∀ s ∈ texts, s ≠ "") :
    join texts = normalize (slashed texts) := by
  have all : texts.filter (· ≠ "") = texts :=
    List.filter_eq_self.mpr fun s member => decide_eq_true (filled s member)
  simp only [join, all, if_neg some, slashed]

/-- Empty texts make no difference. -/
theorem join_congr {texts others : List String}
    (same : texts.filter (· ≠ "") = others.filter (· ≠ "")) : join texts = join others := by
  simp only [join, same]

theorem join_filter (texts : List String) : join (texts.filter (· ≠ "")) = join texts :=
  join_congr (by simp)

section Filled

variable {texts others : List String} (first : ∀ s ∈ texts, s ≠ "") (second : ∀ s ∈ others, s ≠ "")
include first second

theorem join_join_left_of_filled : join (join texts :: others) = join (texts ++ others) := by
  by_cases none : texts = []
  · subst none
    exact join_congr (by simp [join])
  have head := join_of_filled none first
  have filled : ∀ s ∈ join texts :: others, s ≠ "" :=
    List.forall_mem_cons.mpr ⟨head ▸ normalize_ne_empty _, second⟩
  rw [join_of_filled (List.cons_ne_nil _ _) filled, head]
  by_cases alone : others = []
  · rw [alone, slashed_singleton, normalize_normalize, List.append_nil, head]
  · have whole : ∀ s ∈ texts ++ others, s ≠ "" :=
      fun s member => (List.mem_append.mp member).elim (first s) (second s)
    rw [← List.singleton_append, slashed_append (List.cons_ne_nil _ _) alone, slashed_singleton,
      normalize_append_left (slashed_ne_empty none first), ← slashed_append none alone,
      join_of_filled (List.append_ne_nil_of_left_ne_nil none _) whole]

theorem join_join_right_of_filled (relative : ∀ s ∈ others, ¬ StartsAtRoot s) :
    join (texts ++ [join others]) = join (texts ++ others) := by
  by_cases none : others = []
  · subst none
    exact join_congr (by simp [join])
  have last := join_of_filled none second
  have filled : ∀ s ∈ texts ++ [join others], s ≠ "" := by
    intro s member
    rcases List.mem_append.mp member with earlier | joined
    · exact first s earlier
    · rw [List.mem_singleton.mp joined, last]
      exact normalize_ne_empty _
  rw [join_of_filled (by simp) filled, last]
  by_cases alone : texts = []
  · rw [alone, List.nil_append, slashed_singleton, normalize_normalize, List.nil_append, last]
  · have whole : ∀ s ∈ texts ++ others, s ≠ "" :=
      fun s member => (List.mem_append.mp member).elim (first s) (second s)
    rw [slashed_append alone (List.cons_ne_nil _ _), slashed_singleton,
      normalize_append_right (slashed_ne_empty alone first)
        (not_startsAtRoot_slashed second relative),
      ← slashed_append alone none, join_of_filled (List.append_ne_nil_of_left_ne_nil alone _) whole]

end Filled

theorem ne_empty_of_mem_filter (texts : List String) : ∀ s ∈ texts.filter (· ≠ ""), s ≠ "" :=
  fun _ member => of_decide_eq_true (List.mem_filter.mp member).2

/-- What comes first may be joined by itself. -/
theorem join_join_left (texts others : List String) :
    join (join texts :: others) = join (texts ++ others) := by
  have joined := join_join_left_of_filled (ne_empty_of_mem_filter texts)
    (ne_empty_of_mem_filter others)
  rw [join_filter, ← List.filter_append, join_filter] at joined
  rw [← joined]
  exact join_congr (by simp [List.filter_cons])

/-- What comes last may be joined by itself, unless something of it starts at the root. -/
theorem join_join_right (texts : List String) {others : List String}
    (relative : ∀ s ∈ others, ¬ StartsAtRoot s) :
    join (texts ++ [join others]) = join (texts ++ others) := by
  have joined := join_join_right_of_filled (ne_empty_of_mem_filter texts)
    (ne_empty_of_mem_filter others) fun s member => relative s (List.mem_filter.mp member).1
  rw [join_filter, ← List.filter_append, join_filter] at joined
  rw [← joined]
  exact join_congr (by simp)

/-- A text may be normalized part by part, each by itself, if the last part does not start at the
root. So joining is associative where the later texts do not start there. -/
theorem normalize_append :
    (∀ s t : String, s ≠ "" → ¬ StartsAtRoot t →
      normalize (s ++ "/" ++ t) = normalize (normalize s ++ "/" ++ normalize t)) ∧
    (∀ s t : String, s ≠ "" → normalize (s ++ "/" ++ t) = normalize (normalize s ++ "/" ++ t)) ∧
    ∀ a b c : String, ¬ StartsAtRoot b → ¬ StartsAtRoot c →
      join [a, join [b, c]] = join [a, b, c] ∧ join [a, b, c] = join [join [a, b], c] := by
  refine ⟨?_, ?_, ?_⟩
  · intro s t filled relative
    rw [normalize_append_right (normalize_ne_empty s) relative, normalize_append_left filled]
  · intro s t filled
    exact (normalize_append_left filled t).symm
  · intro a b c second third
    refine ⟨?_, (join_join_left [a, b] [c]).symm⟩
    exact join_join_right [a] (by simpa using ⟨second, third⟩)

/-- Steps up of the last part lead back along names of the first and are lost at the root. Empty
texts make no difference to joining. -/
theorem normalize_append_of_steps_up :
    normalize ("/a/../b" ++ "/" ++ "c/../../..") = "/" ∧
      normalize (normalize "/a/../b" ++ "/" ++ normalize "c/../../..") = "/" ∧
      normalize (normalize "a" ++ "/" ++ "/b") = "a/b" ∧
      join ["a", join ["", "../.."]] = ".." ∧ join [join ["a", ""], "../.."] = ".." := by
  obtain ⟨both, left, joins⟩ := normalize_append
  have up : normalize ("/a/../b" ++ "/" ++ "c/../../..") = "/" := by decide
  have down : normalize ("a" ++ "/" ++ "/b") = "a/b" := by decide
  have outside : join ["a", "", "../.."] = ".." := by decide
  obtain ⟨right, first⟩ := joins "a" "" "../.." (by decide) (by decide)
  refine ⟨up, ?_, ?_, right.trans outside, first.symm.trans outside⟩
  · rw [← both "/a/../b" "c/../../.." (by decide) (by decide), up]
  · rw [← left "a" "/b" (by decide), down]

end Path

end SchemaModules
