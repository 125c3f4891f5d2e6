import SchemaModules.Proofs.Path.Composition

/-! # Paths as lists of segments

A path is determined by where it starts and by its segments (`eq_of_segments`). Going up leaves the
last segment out (`segments_parent`), what goes on from the segments of a path leads on from it
(`foldl_follow_of_segments`), and whatever they end with are the segments of a relative path
(`segments_beyond`). They can be read off the text of the path (`segmentsOf_text`).
-/

namespace SchemaModules.Path

open Segment (IsName)

theorem eq_of_segments {p q : Path} (start : p.rooted = q.rooted)
    (segments : p.segments = q.segments) : p = q := by
  apply text_injective
  rw [text, text, chars, chars, start, segments]

theorem eq_iff_segments {p q : Path} :
    p = q ↔ p.rooted = q.rooted ∧ p.segments = q.segments := by
  constructor
  · rintro rfl
    exact ⟨rfl, rfl⟩
  · exact fun ⟨start, segments⟩ => eq_of_segments start segments

theorem text_inj {p q : Path} : p.text = q.text ↔ p = q := ⟨text_injective, congrArg text⟩

theorem eq_top_of_segments {p : Path} (none : p.segments = []) : p = top p.rooted :=
  eq_of_segments rfl none

/-- Going up leaves the last segment out. -/
theorem segments_parent (p : Path) : p.parent.segments = p.segments.dropLast := by
  unfold segments parent
  by_cases empty : p.names = []
  · simp [empty]
  · simp [empty, List.dropLast_append_of_ne_nil]

/-- What goes on from the segments of a path leads on from that path. -/
theorem foldl_follow_of_segments {p q : Path} {rest : List Segment} (start : p.rooted = q.rooted)
    (split : q.segments = p.segments ++ rest) : rest.foldl follow p = q := by
  have whole := foldl_follow_segments q
  rw [split, List.foldl_append, ← start, foldl_follow_segments] at whole
  exact whole

/-- The relative path along the segments of a path beyond the first `count`. -/
def beyond (p : Path) (count : Nat) : Path where
  rooted := false
  ups := p.ups - count
  names := p.names.drop (count - p.ups)
  names_valid := fun s member => p.names_valid s (List.mem_of_mem_drop member)
  no_ups_of_rooted := by simp

@[simp]
theorem segments_beyond (p : Path) (count : Nat) :
    (p.beyond count).segments = p.segments.drop count := by
  simp [segments, beyond, List.drop_append]

/-- The relative path that goes `count` steps up before it goes along the segments of a path. -/
def raised (p : Path) (count : Nat) : Path where
  rooted := false
  ups := count + p.ups
  names := p.names
  names_valid := p.names_valid
  no_ups_of_rooted := by simp

@[simp]
theorem segments_raised (p : Path) (count : Nat) :
    (p.raised count).segments = List.replicate count Segment.up ++ p.segments := by
  simp [segments, raised, ← List.append_assoc]

/-- The text of a relative path is its segments with slashes between them. -/
theorem text_of_relative {p : Path} (relative : p.rooted = false) :
    p.text = if p.segments = [] then "." else String.ofList (Text.joined '/' p.segments) := by
  simp only [text, chars, relative, Bool.false_eq_true, if_false]
  split
  · rfl
  · rfl

/-! ## Segments of a text -/

/-- The segments of a text: its parts between slashes, without those that lead nowhere. -/
def segmentsOf (s : String) : List Segment :=
  (Text.split '/' s.toList).filter fun part => part ≠ [] ∧ part ≠ Segment.here

/-- The segments of a text in normal form are those of its path. -/
theorem segmentsOf_text (p : Path) : segmentsOf p.text = p.segments := by
  have steps : ∀ s ∈ p.segments, s = Segment.up ∨ IsName s := fun s => isStep_of_mem_segments
  have slashless : ∀ s ∈ p.segments, '/' ∉ s := fun s member =>
    Segment.no_slash_of_isStep (steps s member)
  have kept : p.segments.filter (fun part => part ≠ [] ∧ part ≠ Segment.here) = p.segments := by
    refine List.filter_eq_self.mpr fun s member => ?_
    rcases steps s member with rfl | name
    · decide
    · simp [name.1, name.2.1]
  simp only [segmentsOf, text, String.toList_ofList, chars]
  by_cases rooted : p.rooted = true
  · rw [if_pos rooted, Text.split, if_pos rfl]
    by_cases none : p.segments = []
    · rw [none]
      decide
    · rw [Text.split_joined _ none slashless, List.filter_cons_of_neg (by simp), kept]
  · rw [if_neg rooted]
    by_cases none : p.segments = []
    · rw [if_pos none, none]
      decide
    · rw [if_neg none, Text.split_joined _ none slashless, kept]

theorem segmentsOf_normalize (s : String) : segmentsOf (normalize s) = (parse s).segments :=
  segmentsOf_text _

end SchemaModules.Path
