import SchemaModules.Proofs.Path.Concatenation
import SchemaModules.Proofs.Path.Segments

/-! # Paths taken apart

A text's directory and last segment, and its components, are put together again by joining
(`join_dir_base`, `join_components`). Stripping takes away components from the front
(`components_stripComponents`), so that stripping twice is stripping once
(`stripComponents_stripComponents`).
-/

namespace SchemaModules.Path

open Segment (IsName)

/-! ## Joining segments -/

theorem slashed_segments (parts : List Segment) :
    slashed (parts.map String.ofList) = String.ofList (Text.joined '/' parts) := by
  simp [slashed, Function.comp_def]

theorem ne_empty_of_mem_segments {parts : List Segment}
    (steps : ∀ s ∈ parts, s = Segment.up ∨ IsName s) : ∀ s ∈ parts.map String.ofList, s ≠ "" := by
  intro s member
  obtain ⟨part, there, rfl⟩ := List.mem_map.mp member
  simpa using Segment.ne_nil_of_isStep (steps part there)

/-- Segments that are joined to a path are followed from it. -/
theorem join_segments (p : Path) {parts : List Segment}
    (steps : ∀ s ∈ parts, s = Segment.up ∨ IsName s) :
    join (p.text :: parts.map String.ofList) = (parts.foldl follow p).text := by
  have filled : ∀ s ∈ p.text :: parts.map String.ofList, s ≠ "" :=
    List.forall_mem_cons.mpr ⟨text_ne_empty p, ne_empty_of_mem_segments steps⟩
  rw [join_of_filled (List.cons_ne_nil _ _) filled, normalize]
  by_cases none : parts = []
  · rw [none, List.map_nil, slashed_singleton, parse_text]
    rfl
  · have some : parts.map String.ofList ≠ [] := by simpa using none
    have slashless : ∀ s ∈ parts, '/' ∉ s := fun s member =>
      Segment.no_slash_of_isStep (steps s member)
    rw [← List.singleton_append, slashed_append (List.cons_ne_nil _ _) some, slashed_singleton,
      parse_append (text_ne_empty p), parse_text, slashed_segments, String.toList_ofList,
      Text.split_joined _ none slashless]

/-- The segments of a relative path, if there are some, are joined to its text. -/
theorem join_map_segments {p : Path} (relative : p.rooted = false) (some : p.segments ≠ []) :
    join (p.segments.map String.ofList) = p.text := by
  have whole : slashed (p.segments.map String.ofList) = p.text := by
    rw [slashed_segments, text_of_relative relative, if_neg some]
  have filled : ∀ s ∈ p.segments.map String.ofList, s ≠ "" :=
    ne_empty_of_mem_segments fun _ => isStep_of_mem_segments
  rw [join_of_filled (by simpa using some) filled, whole, normalize, parse_text]

/-! ## Directory and last segment -/

theorem base_of_segments {s : String} {init : List Segment} {last : Segment}
    (split : (parse s).segments = init ++ [last]) : base s = String.ofList last := by
  simp [base, split]

/-- A text's directory and its last segment are joined to its normal form. -/
theorem join_dir_base (s : String) : join [dir s, base s] = normalize s := by
  rcases List.eq_nil_or_concat' (parse s).segments with none | ⟨init, last, split⟩
  · have isTop := eq_top_of_segments none
    rw [dir, base, normalize, none, isTop]
    cases (parse s).rooted <;> decide
  · have step : ∀ t ∈ [last], t = Segment.up ∨ IsName t := by
      intro t member
      obtain rfl := List.mem_singleton.mp member
      exact isStep_of_mem_segments (split ▸ List.mem_append_right _ member)
    have onward : [last].foldl follow (parse s).parent = parse s :=
      foldl_follow_of_segments rfl (by rw [segments_parent, split, List.dropLast_concat])
    rw [dir, base_of_segments split, normalize, ← List.map_singleton, join_segments _ step, onward]

/-! ## Components -/

theorem components_of_rooted {s : String} (rooted : (parse s).rooted = true) :
    components s = "/" :: (parse s).segments.map String.ofList := by
  simp [components, rooted]

theorem components_of_relative {s : String} (relative : (parse s).rooted = false)
    (some : (parse s).segments ≠ []) : components s = (parse s).segments.map String.ofList := by
  simp [components, relative, some]

theorem components_of_top {s : String} (isTop : parse s = top false) : components s = ["."] := by
  simp [components, isTop, top, segments]

/-- The components of a text are joined to its normal form. -/
theorem join_components (s : String) : join (components s) = normalize s := by
  by_cases rooted : (parse s).rooted = true
  · have start : "/" = (top true).text := rfl
    rw [components_of_rooted rooted, start, join_segments _ fun _ => isStep_of_mem_segments,
      ← rooted, foldl_follow_segments, normalize]
  · have relative : (parse s).rooted = false := by simpa using rooted
    by_cases none : (parse s).segments = []
    · have isTop : parse s = top false := relative ▸ eq_top_of_segments none
      rw [components_of_top isTop, normalize, isTop]
      decide
    · rw [components_of_relative relative none, join_map_segments relative none, normalize]

theorem components_ne_nil (s : String) : components s ≠ [] := by
  simp only [components]
  split
  · exact List.cons_ne_nil _ _
  · split
    · exact List.cons_ne_nil _ _
    · next some => simpa using some

/-- Components without the first ones are the segments of a relative path. -/
theorem exists_of_drop_components (s : String) {count : Nat} (positive : count ≠ 0) :
    ∃ p : Path, p.rooted = false ∧ (components s).drop count = p.segments.map String.ofList := by
  obtain ⟨before, rfl⟩ := Nat.exists_eq_succ_of_ne_zero positive
  by_cases rooted : (parse s).rooted = true
  · refine ⟨(parse s).beyond before, rfl, ?_⟩
    rw [components_of_rooted rooted, List.drop_succ_cons, segments_beyond, List.map_drop]
  · have relative : (parse s).rooted = false := by simpa using rooted
    by_cases none : (parse s).segments = []
    · refine ⟨top false, rfl, ?_⟩
      rw [components_of_top (relative ▸ eq_top_of_segments none), List.drop_succ_cons]
      simp [top, segments]
    · refine ⟨(parse s).beyond (before + 1), rfl, ?_⟩
      rw [components_of_relative relative none, segments_beyond, List.map_drop]

/-- The components of what is joined from later components are these. -/
theorem components_join_drop {s : String} {count : Nat} (positive : count ≠ 0)
    (left : count < (components s).length) :
    components (join ((components s).drop count)) = (components s).drop count := by
  obtain ⟨p, relative, rest⟩ := exists_of_drop_components s positive
  have some : p.segments ≠ [] := by
    intro none
    have length := congrArg List.length rest
    rw [none, List.length_drop, List.map_nil, List.length_nil] at length
    omega
  have again : parse p.text = p := parse_text p
  rw [rest, join_map_segments relative some,
    components_of_relative (by rw [again, relative]) (by rwa [again]), again]

/-- There is something left after stripping exactly if there are more components, and then the later
components are left. -/
theorem components_stripComponents (s : String) (count : Nat) :
    (stripComponents s count).map components =
      if count < (components s).length then some ((components s).drop count) else none := by
  unfold stripComponents
  by_cases zero : count = 0
  · have some : 0 < (components s).length := List.length_pos_iff.mpr (components_ne_nil s)
    simp [zero, some]
  · rw [if_neg zero]
    by_cases left : count < (components s).length
    · rw [if_neg (by omega), if_pos left, Option.map_some, components_join_drop zero left]
    · rw [if_pos (by omega), if_neg left, Option.map_none]

theorem length_le_of_stripComponents {s : String} {count : Nat}
    (stripped : stripComponents s count = none) : (components s).length ≤ count := by
  have left := components_stripComponents s count
  rw [stripped] at left
  by_contra more
  rw [if_pos (by omega)] at left
  exact nomatch left

theorem components_of_stripComponents {s t : String} {count : Nat}
    (stripped : stripComponents s count = some t) :
    count < (components s).length ∧ components t = (components s).drop count := by
  have left := components_stripComponents s count
  rw [stripped] at left
  by_cases more : count < (components s).length
  · rw [if_pos more] at left
    exact ⟨more, Option.some.inj left⟩
  · rw [if_neg more] at left
    exact nomatch left

/-- Stripping twice is stripping once, as far as components tell. -/
theorem stripComponents_stripComponents (s : String) (first second : Nat) :
    ((stripComponents s first).bind (stripComponents · second)).map components =
      (stripComponents s (first + second)).map components := by
  rw [components_stripComponents s (first + second)]
  cases stripped : stripComponents s first with
  | none =>
      have few := length_le_of_stripComponents stripped
      rw [Option.bind_none, Option.map_none, if_neg (by omega)]
  | some t =>
      obtain ⟨left, rest⟩ := components_of_stripComponents stripped
      have more : second < (components s).length - first ↔
          first + second < (components s).length := by omega
      simp only [Option.bind_some, components_stripComponents, rest, List.length_drop,
        List.drop_drop, more]

/-- A text can be put together from its directory and its last segment, and from its components, up to
its normal form. Stripping leaves the later components, if there are any, and so stripping twice is
stripping once. -/
theorem components_spec (s : String) :
    join [dir s, base s] = normalize s ∧ join (components s) = normalize s ∧
    (∀ count, (stripComponents s count).map components =
      if count < (components s).length then some ((components s).drop count) else none) ∧
    ∀ first second, ((stripComponents s first).bind (stripComponents · second)).map components =
      (stripComponents s (first + second)).map components :=
  ⟨join_dir_base s, join_components s, components_stripComponents s,
    stripComponents_stripComponents s⟩

end SchemaModules.Path
