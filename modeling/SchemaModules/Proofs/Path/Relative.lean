import SchemaModules.Proofs.Path.Concatenation
import SchemaModules.Proofs.Path.Segments

/-! # The way from one path to another

From where the segments of two paths part, the way goes up over what is left of the first and down
what is left of the second (`relative_cases`). Going up leads back along names
(`foldl_follow_back`) and not along a step up, so that there is no way where one is left of the first
path. Where there is a way, following it from the first path leads to the second
(`foldl_follow_way`), and so does joining it to the text of the first (`relative_spec`).
-/

namespace SchemaModules.Path

open Segment (IsName)

/-! ## Where two lists part -/

/-- The longest list that leads both of two lists. -/
structure IsSharedStart {α : Type} (start as bs : List α) : Prop where
  left : start <+: as
  right : start <+: bs
  longest : ∀ other, other <+: as → other <+: bs → other <+: start

section SharedStart

variable {α : Type} {a b : α} {start other as bs : List α}

theorem isSharedStart_of_ne (ne : a ≠ b) : IsSharedStart [] (a :: as) (b :: bs) where
  left := List.nil_prefix
  right := List.nil_prefix
  longest := by
    intro other first second
    cases other with
    | nil => exact List.prefix_rfl
    | cons c rest =>
        have here := (List.cons_prefix_cons.mp first).1
        have there := (List.cons_prefix_cons.mp second).1
        exact absurd (here.symm.trans there) ne

theorem IsSharedStart.cons (a : α) (shared : IsSharedStart start as bs) :
    IsSharedStart (a :: start) (a :: as) (a :: bs) where
  left := List.cons_prefix_cons.mpr ⟨rfl, shared.left⟩
  right := List.cons_prefix_cons.mpr ⟨rfl, shared.right⟩
  longest := by
    intro other first second
    cases other with
    | nil => exact List.nil_prefix
    | cons c rest =>
        obtain ⟨rfl, here⟩ := List.cons_prefix_cons.mp first
        have there := (List.cons_prefix_cons.mp second).2
        exact List.cons_prefix_cons.mpr ⟨rfl, shared.longest rest here there⟩

theorem IsSharedStart.unique (first : IsSharedStart start as bs) (second : IsSharedStart other as bs) :
    start = other := by
  have forth := second.longest start first.left first.right
  have back := first.longest other second.left second.right
  exact forth.eq_of_length (forth.length_le.antisymm back.length_le)

theorem isSharedStart_of_nil (ended : as = [] ∨ bs = []) : IsSharedStart [] as bs where
  left := List.nil_prefix
  right := List.nil_prefix
  longest := by
    intro other first second
    rcases ended with rfl | rfl
    · exact first
    · exact second

/-- What two lists share to begin with is what is dropped of both. -/
theorem exists_sharedStart [DecidableEq α] (as bs : List α) :
    ∃ start, IsSharedStart start as bs ∧
      as = start ++ (dropCommon as bs).1 ∧ bs = start ++ (dropCommon as bs).2 := by
  fun_induction dropCommon as bs with
  | case1 as b bs ih =>
      obtain ⟨start, shared, left, right⟩ := ih
      exact ⟨b :: start, shared.cons b, congrArg (b :: ·) left, congrArg (b :: ·) right⟩
  | case2 a as b bs ne => exact ⟨[], isSharedStart_of_ne ne, rfl, rfl⟩
  | case3 as bs ended =>
      refine ⟨[], isSharedStart_of_nil ?_, rfl, rfl⟩
      cases as with
      | nil => exact .inl rfl
      | cons a as =>
          cases bs with
          | nil => exact .inr rfl
          | cons b bs => exact (ended a as b bs rfl rfl).elim

end SharedStart

/-! ## The way back and forth -/

/-- Steps up lead back along names. -/
theorem foldl_follow_back (p : Path) {names : List Segment} (valid : ∀ s ∈ names, IsName s) :
    (List.replicate names.length Segment.up).foldl follow (names.foldl follow p) = p := by
  induction names generalizing p with
  | nil => rfl
  | cons s rest ih =>
      obtain ⟨name, later⟩ := List.forall_mem_cons.mp valid
      simp only [List.length_cons, List.replicate_succ', List.foldl_append, List.foldl_cons,
        List.foldl_nil, ih _ later, follow_name_up p name]

/-- Up over what is left of one path and down what is left of another is the way between them, if no
step up is left of the first. -/
theorem foldl_follow_way {p q : Path} {shared back forth : List Segment}
    (start : p.rooted = q.rooted) (left : p.segments = shared ++ back)
    (right : q.segments = shared ++ forth) (known : Segment.up ∉ back) :
    (List.replicate back.length Segment.up ++ forth).foldl follow p = q := by
  have names : ∀ s ∈ back, IsName s := by
    intro s member
    have step := isStep_of_mem_segments (left ▸ List.mem_append_right _ member)
    exact step.resolve_left fun up => known (up ▸ member)
  -- Going up ends where the shared segments lead, and the rest of the second path goes on there.
  have there : back.foldl follow (shared.foldl follow (top p.rooted)) = p := by
    rw [← List.foldl_append, ← left, foldl_follow_segments]
  calc (List.replicate back.length Segment.up ++ forth).foldl follow p
    _ = forth.foldl follow ((List.replicate back.length Segment.up).foldl follow
          (back.foldl follow (shared.foldl follow (top p.rooted)))) := by
        rw [there, List.foldl_append]
    _ = forth.foldl follow (shared.foldl follow (top q.rooted)) := by
        rw [foldl_follow_back _ names, start]
    _ = q := by rw [← List.foldl_append, ← right, foldl_follow_segments]

/-- A relative path that is joined to a text is followed from the path of that. -/
theorem join_relative (s : String) {way : Path} (relative : way.rooted = false) :
    join [s, way.text] = (way.segments.foldl follow (parse s)).text := by
  by_cases empty : s = ""
  · subst empty
    have filled : ∀ t ∈ [way.text], t ≠ "" := by simp
    have alone : join ["", way.text] = join [way.text] := join_congr (by simp)
    have start : parse "" = top way.rooted := by
      rw [relative]
      exact follow_nil _
    rw [alone, join_of_filled (List.cons_ne_nil _ _) filled, slashed_singleton, normalize,
      parse_text, start, foldl_follow_segments]
  · have filled : ∀ t ∈ [s, way.text], t ≠ "" := by simp [empty]
    have apart : ¬ StartsAtRoot way.text := by simp [startsAtRoot_text, relative]
    have parts := @slashed_append [s] [way.text] (List.cons_ne_nil _ _) (List.cons_ne_nil _ _)
    rw [slashed_singleton, slashed_singleton] at parts
    rw [join_of_filled (List.cons_ne_nil _ _) filled, ← List.singleton_append, parts, normalize,
      parse_append empty, foldl_follow_parse _ apart, parse_text]

/-! ## The way between two texts -/

/-- There is no way from one text to another: only one of them starts at the root, or what the two
share to begin with is followed by a step up in the first. -/
def Unrelated (start target : String) : Prop :=
  ¬ (StartsAtRoot (normalize start) ↔ StartsAtRoot (normalize target)) ∨
    ∃ shared, IsSharedStart shared (segmentsOf (normalize start)) (segmentsOf (normalize target)) ∧
      Segment.up ∈ (segmentsOf (normalize start)).drop shared.length

theorem unrelated_iff (start target : String) :
    Unrelated start target ↔ (parse start).rooted ≠ (parse target).rooted ∨
      Segment.up ∈ (dropCommon (parse start).segments (parse target).segments).1 := by
  obtain ⟨shared, isShared, left, -⟩ :=
    exists_sharedStart (parse start).segments (parse target).segments
  have rooted : ¬ (StartsAtRoot (normalize start) ↔ StartsAtRoot (normalize target)) ↔
      (parse start).rooted ≠ (parse target).rooted := by
    rw [normalize, normalize, startsAtRoot_text, startsAtRoot_text, ← Bool.eq_iff_iff]
  have back : (parse start).segments.drop shared.length =
      (dropCommon (parse start).segments (parse target).segments).1 := by
    conv_lhs => rw [left, List.drop_left]
  rw [Unrelated, rooted, segmentsOf_normalize, segmentsOf_normalize]
  refine or_congr_right ⟨?_, ?_⟩
  · rintro ⟨other, isSharedToo, member⟩
    rwa [isSharedToo.unique isShared, back] at member
  · intro member
    exact ⟨shared, isShared, back ▸ member⟩

/-- Between unrelated texts there is no way. Between others there is a relative path, and following it
from the first leads to the second. -/
theorem relative_cases (start target : String) :
    Unrelated start target ∧ relative start target = .error (.notRelatable start target) ∨
    ¬ Unrelated start target ∧ ∃ way : Path, way.rooted = false ∧
      way.segments.foldl follow (parse start) = parse target ∧
      relative start target = .ok way.text := by
  obtain ⟨shared, -, left, right⟩ :=
    exists_sharedStart (parse start).segments (parse target).segments
  rw [unrelated_iff]
  simp only [relative]
  generalize dropCommon (parse start).segments (parse target).segments = parted at left right ⊢
  obtain ⟨back, forth⟩ := parted
  by_cases none : (parse start).rooted ≠ (parse target).rooted ∨ Segment.up ∈ back
  · exact .inl ⟨none, if_pos none⟩
  · obtain ⟨sameStart, known⟩ := not_or.mp none
    let way := ((parse target).beyond shared.length).raised back.length
    have segments : way.segments = List.replicate back.length Segment.up ++ forth := by
      rw [segments_raised, segments_beyond, right, List.drop_left]
    refine .inr ⟨none, way, rfl, ?_, ?_⟩
    · rw [segments]
      exact foldl_follow_way (not_not.mp sameStart) left right known
    · rw [if_neg none, text_of_relative rfl, segments]

/-- From a directory the way to where a path inside leads on from it is that path. -/
theorem relative_join {directory path : String} (normal : normalize directory = directory)
    (valid : validate path = .ok path) : relative directory (join [directory, path]) = .ok path := by
  obtain ⟨q, inside, rfl⟩ := validate_eq_self_iff.mp valid
  rw [← normal, normalize, join_pair _ inside, relative_append _ inside]

/-- There is a way from one text to another exactly if they are not unrelated. It is a relative path in
normal form, and joined to the first text it leads to the second. From a directory in normal form the
way to what lies on along a path inside is that path. -/
theorem relative_spec (start target : String) :
    (∀ e, relative start target = .error e ↔
      e = .notRelatable start target ∧ Unrelated start target) ∧
    (∀ way, relative start target = .ok way →
      normalize way = way ∧ ¬ StartsAtRoot way ∧ join [start, way] = normalize target) ∧
    ∀ directory path, normalize directory = directory → validate path = .ok path →
      relative directory (join [directory, path]) = .ok path := by
  refine ⟨?_, ?_, fun _ _ normal valid => relative_join normal valid⟩
  · intro e
    rcases relative_cases start target with ⟨unrelated, fails⟩ | ⟨related, way, -, -, found⟩
    · simp [fails, unrelated, eq_comm]
    · simp [found, related]
  · intro text found
    rcases relative_cases start target with ⟨-, fails⟩ | ⟨-, way, relative, leads, is⟩
    · rw [fails] at found
      exact nomatch found
    · rw [is] at found
      obtain rfl := Except.ok.inj found
      refine ⟨by rw [normalize, parse_text], by simp [startsAtRoot_text, relative], ?_⟩
      rw [join_relative start relative, leads, normalize]

/-- The way goes up over what is not shared, also where both texts lead up, but not over a step up. -/
theorem relative_spec_of_steps_up :
    relative "../a//b" "../../c" = .ok "../../../c" ∧
      join ["../a//b", "../../../c"] = normalize "../../c" ∧ Unrelated "../a" "b" ∧
      relative ".." (join ["..", "a/b"]) = .ok "a/b" := by
  have found : relative "../a//b" "../../c" = .ok "../../../c" := by decide
  have fails : relative "../a" "b" = .error (.notRelatable "../a" "b") := by decide
  obtain ⟨-, leads, below⟩ := relative_spec "../a//b" "../../c"
  obtain ⟨unrelated, -⟩ := relative_spec "../a" "b"
  exact ⟨found, (leads _ found).2.2, ((unrelated _).mp fails).2,
    below ".." "a/b" (by decide) (by decide)⟩

end SchemaModules.Path
