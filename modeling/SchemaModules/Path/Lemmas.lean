import SchemaModules.Path.Basic

/-!
# Reading back the normal form of a path

Reading the text of a path gives the path back (`parse_text`). So two paths with the same text are
equal (`text_injective`), and normalizing a second time changes nothing (`normalize_normalize`).
-/

namespace SchemaModules

namespace Segment

/-- A segment that leads up, or a name, is not empty. -/
theorem ne_nil_of_isStep {s : Segment} (step : s = up ∨ IsName s) : s ≠ [] := by
  rcases step with rfl | name
  · exact List.cons_ne_nil _ _
  · exact name.1

/-- A segment that leads up, or a name, has no slash. -/
theorem no_slash_of_isStep {s : Segment} (step : s = up ∨ IsName s) : '/' ∉ s := by
  rcases step with rfl | name
  · decide
  · exact name.2.2.2

end Segment

namespace Path

open Segment (IsName)

/-- Every segment of a normal form leads up or is a name. -/
theorem isStep_of_mem_segments {p : Path} {s : Segment} (member : s ∈ p.segments) :
    s = Segment.up ∨ IsName s := by
  rcases List.mem_append.mp member with up | name
  · exact .inl (List.eq_of_mem_replicate up)
  · exact .inr (p.names_valid s name)

/-- A path from the root goes along its names only. -/
theorem segments_of_rooted {p : Path} (rooted : p.rooted = true) : p.segments = p.names := by
  simp [segments, p.no_ups_of_rooted rooted]

/-- Following a name goes down along it. -/
theorem follow_name (p : Path) {s : Segment} (name : IsName s) : p.follow s = p.child s name := by
  have other : s ≠ Segment.up := name.2.2.1
  simp [follow, other, name]

/-- Following the empty segment leads nowhere. -/
theorem follow_nil (p : Path) : p.follow [] = p := by
  simp [follow, Segment.up, IsName]

/-- Following the segment of the directory itself leads nowhere. -/
theorem follow_here (p : Path) : p.follow Segment.here = p := by
  have other : Segment.here ≠ Segment.up := by decide
  simp [follow, other, IsName]

/-- Following names adds them to the names of a path. -/
theorem foldl_follow_names (p : Path) (names : List Segment) (valid : ∀ s ∈ names, IsName s) :
    (names.foldl follow p).rooted = p.rooted ∧ (names.foldl follow p).ups = p.ups ∧
      (names.foldl follow p).names = p.names ++ names := by
  induction names generalizing p with
  | nil => simp
  | cons s rest ih =>
      have name := valid s List.mem_cons_self
      have later := ih (p.child s name) fun t member => valid t (List.mem_cons_of_mem _ member)
      simpa [follow_name p name, child] using later

/-- Following steps up from a relative path that goes up only goes up further. -/
theorem foldl_follow_ups (p : Path) (relative : p.rooted = false) (empty : p.names = [])
    (count : Nat) :
    ((List.replicate count Segment.up).foldl follow p).rooted = false ∧
      ((List.replicate count Segment.up).foldl follow p).ups = p.ups + count ∧
      ((List.replicate count Segment.up).foldl follow p).names = [] := by
  induction count generalizing p with
  | zero => simp [relative, empty]
  | succ count ih =>
      have up : p.follow Segment.up = ⟨false, p.ups + 1, [], by simp, by simp⟩ := by
        ext1 <;> simp [follow, ascend, relative, empty]
      have later := ih (p.follow Segment.up) (by rw [up]) (by rw [up])
      rw [List.replicate_succ, List.foldl_cons]
      have ups : (p.follow Segment.up).ups = p.ups + 1 := by rw [up]
      exact ⟨later.1, by rw [later.2.1, ups]; omega, later.2.2⟩

/-- Segments put together start with a slash only if the first segment is empty or starts so. -/
theorem head?_joined_ne_slash {parts : List Segment}
    (step : ∀ s ∈ parts, s = Segment.up ∨ IsName s) :
    (Text.joined '/' parts).head? ≠ some '/' := by
  cases parts with
  | nil => simp [Text.joined]
  | cons part others =>
      have here := step part List.mem_cons_self
      have slashless := Segment.no_slash_of_isStep here
      cases part with
      | nil => exact absurd rfl (Segment.ne_nil_of_isStep here)
      | cons c rest =>
          have other : c ≠ '/' := fun equal => slashless (by simp [equal])
          cases others <;> simp [Text.joined, other]

/-- A path leads where its segments do. -/
theorem foldl_follow_segments (p : Path) : p.segments.foldl follow (top p.rooted) = p := by
  by_cases rooted : p.rooted = true
  · obtain ⟨start, ups, names⟩ := foldl_follow_names (top true) p.names p.names_valid
    rw [segments_of_rooted rooted, rooted]
    ext1
    · rw [start, rooted]; rfl
    · rw [ups, p.no_ups_of_rooted rooted]; rfl
    · rw [names]; rfl
  · have relative : p.rooted = false := by simpa using rooted
    have up := foldl_follow_ups (top false) rfl rfl p.ups
    have added := foldl_follow_names
      ((List.replicate p.ups Segment.up).foldl follow (top false)) p.names p.names_valid
    rw [segments, List.foldl_append, relative]
    ext1
    · rw [added.1, up.1, relative]
    · rw [added.2.1, up.2.1]; exact Nat.zero_add _
    · rw [added.2.2, up.2.2]; rfl

/-- Reading the normal form of a path gives the path. -/
theorem parse_text (p : Path) : parse p.text = p := by
  have steps : ∀ s ∈ p.segments, s = Segment.up ∨ IsName s := fun s => isStep_of_mem_segments
  have slashless : ∀ s ∈ p.segments, '/' ∉ s := fun s member =>
    Segment.no_slash_of_isStep (steps s member)
  have whole := p.foldl_follow_segments
  simp only [parse, text, String.toList_ofList]
  by_cases rooted : p.rooted = true
  · have start : p.chars = '/' :: Text.joined '/' p.segments := by simp [chars, rooted]
    have first : (p.chars.head? == some '/') = p.rooted := by simp [start, rooted]
    rw [first, start]
    by_cases empty : p.segments = []
    · rw [empty] at whole ⊢
      simpa [Text.joined, Text.split, follow_nil] using whole
    · rwa [Text.split, if_pos rfl, List.foldl_cons, follow_nil, Text.split_joined _ empty slashless]
  · have relative : p.rooted = false := by simpa using rooted
    rw [relative] at whole
    by_cases empty : p.segments = []
    · have start : p.chars = Segment.here := by simp [chars, relative, empty]
      have parted : Text.split '/' Segment.here = [Segment.here] := by decide
      have relative_head : (Segment.here.head? == some '/') = false := by decide
      rw [empty] at whole
      rw [start, parted, relative_head, ← whole]
      exact follow_here _
    · have start : p.chars = Text.joined '/' p.segments := by simp [chars, relative, empty]
      have relative_head : ((Text.joined '/' p.segments).head? == some '/') = false :=
        beq_eq_false_iff_ne.mpr (head?_joined_ne_slash steps)
      rwa [start, relative_head, Text.split_joined _ empty slashless]

/-- Paths with the same normal form are equal. -/
theorem text_injective {p q : Path} (equal : p.text = q.text) : p = q := by
  rw [← parse_text p, equal, parse_text]

/-- Normalizing a second time changes nothing. -/
@[simp]
theorem normalize_normalize (s : String) : normalize (normalize s) = normalize s := by
  rw [normalize, normalize, parse_text]

end Path

end SchemaModules
