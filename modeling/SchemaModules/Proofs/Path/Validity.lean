import SchemaModules.Path.Validity
import SchemaModules.Proofs.Outcome
import SchemaModules.Proofs.Path.Components

/-! # Paths put together from accepted components

A component that is accepted is a name, or else it stands for the directory that it lies in
(`isName_of_checkComponent`). So accepted components with slashes between them lead down along the
names among them (`parse_slashed`) and stay inside. They are a text in normal form, and the
components of that text, exactly if each of them matters to where they lead
(`assembled_of_checkComponents`).
-/

namespace SchemaModules.Path

open Segment (IsName)

/-! ## Accepted components -/

/-- Two dots are found exactly where a text holds them next to each other. -/
theorem hasTwoDots_iff (s : List Char) : hasTwoDots s = true ↔ Segment.up <:+: s := by
  fun_induction hasTwoDots s with
  | case1 rest => simpa [Segment.up] using (List.prefix_append ['.', '.'] rest).isInfix
  | case2 c rest other ih =>
      rw [ih, List.infix_cons_iff]
      refine (or_iff_right fun start => ?_).symm
      obtain ⟨after, split⟩ := start
      obtain ⟨rfl, rfl⟩ := List.cons.inj split
      exact other after rfl rfl
  | case3 => simp [Segment.up]

/-- A component is accepted if it is not empty, has no slash and no two dots next to each other, and
shows unescaped. -/
theorem checkComponent_eq_ok_iff {component : String} : checkComponent component = .ok () ↔
    component ≠ "" ∧ '/' ∉ component.toList ∧ ¬ Segment.up <:+: component.toList ∧
      ∀ c ∈ component.toList, isUnescaped c = true := by
  have passes : checkComponent component = .ok () ↔ componentFault? component = none := by
    unfold checkComponent
    cases componentFault? component <;> simp
  have empty : component.toList = [] ↔ component = "" := by simp
  rw [passes, ← hasTwoDots_iff]
  simp only [componentFault?, empty]
  split_ifs <;> simp_all

/-- An accepted component that does not stand for the directory that it lies in is a name. -/
theorem isName_of_checkComponent {component : String} (accepted : checkComponent component = .ok ())
    (other : component ≠ ".") : IsName component.toList := by
  obtain ⟨filled, slashless, undotted, -⟩ := checkComponent_eq_ok_iff.mp accepted
  refine ⟨by simpa using filled, fun here => other ?_, fun up => undotted ?_, slashless⟩
  · exact String.toList_injective here
  · exact up ▸ List.infix_rfl

/-! ## Where components lead -/

/-- Segments that stand for the directory that they lie in make no difference to where others
lead. -/
theorem foldl_follow_filter (p : Path) (parts : List Segment) :
    (parts.filter (· ≠ Segment.here)).foldl follow p = parts.foldl follow p := by
  rw [List.foldl_filter]
  refine congrArg (fun step => parts.foldl step p) ?_
  funext q s
  by_cases here : s = Segment.here
  · simp [here, follow_here]
  · simp [here]

/-- Texts without slashes are the parts of what is put together from them. -/
theorem split_slashed {texts : List String} (some : texts ≠ [])
    (slashless : ∀ s ∈ texts, '/' ∉ s.toList) :
    Text.split '/' (slashed texts).toList = texts.map String.toList := by
  rw [slashed, String.toList_ofList, Text.split_joined _ (by simpa using some)]
  simpa using slashless

theorem slashed_injective {texts others : List String} (first : texts ≠ []) (second : others ≠ [])
    (left : ∀ s ∈ texts, '/' ∉ s.toList) (right : ∀ s ∈ others, '/' ∉ s.toList)
    (same : slashed texts = slashed others) : texts = others := by
  have parts := congrArg (fun s => Text.split '/' s.toList) same
  simp only [split_slashed first left, split_slashed second right] at parts
  exact List.map_injective_iff.mpr (fun _ _ => String.toList_injective) parts

/-- The components of a relative path, put together, are its normal form. -/
theorem slashed_components {s : String} (relative : (parse s).rooted = false) :
    slashed (components s) = normalize s := by
  rw [normalize, text_of_relative relative]
  by_cases none : (parse s).segments = []
  · rw [if_pos none, components_of_top (relative ▸ eq_top_of_segments none), slashed_singleton]
  · rw [if_neg none, components_of_relative relative none, slashed_segments]

/-! ## Putting accepted components together -/

/-- The components that lead on from the directory that they lie in. If none does, that
directory. -/
def leading (components : List String) : List String :=
  if components.filter (· ≠ ".") = [] then ["."] else components.filter (· ≠ ".")

/-- Each component matters to where they lead: either all of them lead on, or there is but one. -/
def IsTight (components : List String) : Prop := "." ∉ components ∨ components = ["."]

instance (components : List String) : Decidable (IsTight components) :=
  inferInstanceAs (Decidable (_ ∨ _))

theorem leading_ne_nil (components : List String) : leading components ≠ [] := by
  unfold leading
  split
  · exact List.cons_ne_nil _ _
  · next some => exact some

theorem leading_eq_self_iff {components : List String} (some : components ≠ []) :
    leading components = components ↔ IsTight components := by
  unfold leading IsTight
  constructor
  · intro same
    split at same
    · exact .inr same.symm
    · exact .inl fun member => by simpa using List.filter_eq_self.mp same "." member
  · rintro (leads | rfl)
    · have all : components.filter (· ≠ ".") = components :=
        List.filter_eq_self.mpr fun c member => decide_eq_true (ne_of_mem_of_not_mem member leads)
      rw [all, if_neg some]
    · rfl

section Checked

variable {cs : List String} (some : cs ≠ []) (checked : checkComponents cs = .ok ())
include checked

theorem slashless_of_checkComponents : ∀ c ∈ cs, '/' ∉ c.toList := fun c member =>
  (checkComponent_eq_ok_iff.mp (Outcome.forM_eq_ok_iff.mp checked c member)).2.1

theorem slashless_leading : ∀ c ∈ leading cs, '/' ∉ c.toList := by
  intro c member
  unfold leading at member
  split at member
  · rw [List.mem_singleton.mp member]
    decide
  · exact slashless_of_checkComponents checked c (List.mem_filter.mp member).1

include some

/-- Accepted components that are put together lead down along the names among them. -/
theorem parse_slashed : (parse (slashed cs)).Inside ∧
    (parse (slashed cs)).names = (cs.filter (· ≠ ".")).map String.toList := by
  have slashless := slashless_of_checkComponents checked
  have filled : ∀ c ∈ cs, c ≠ "" := fun c member =>
    (checkComponent_eq_ok_iff.mp (Outcome.forM_eq_ok_iff.mp checked c member)).1
  have relative : ¬ StartsAtRoot (slashed cs) :=
    not_startsAtRoot_slashed filled fun c member start =>
      slashless c member (List.mem_of_mem_head? start)
  have names : ∀ s ∈ (cs.filter (· ≠ ".")).map String.toList, IsName s := by
    intro s member
    obtain ⟨c, kept, rfl⟩ := List.mem_map.mp member
    obtain ⟨among, other⟩ := List.mem_filter.mp kept
    exact isName_of_checkComponent (Outcome.forM_eq_ok_iff.mp checked c among)
      (of_decide_eq_true other)
  have kept : (cs.map String.toList).filter (· ≠ Segment.here) =
      (cs.filter (· ≠ ".")).map String.toList := by
    have here : ∀ c : String, c.toList = Segment.here ↔ c = "." := fun c =>
      ⟨fun same => String.toList_injective same, fun same => same ▸ rfl⟩
    simp [List.filter_map, Function.comp_def, here]
  obtain ⟨rooted, ups, along⟩ := foldl_follow_names (top false) _ names
  rw [parse_eq, decide_eq_false relative, split_slashed some slashless, ← foldl_follow_filter, kept]
  exact ⟨⟨rooted, ups⟩, along⟩

/-- The components of what is put together are those that lead on. -/
theorem components_slashed : components (slashed cs) = leading cs := by
  obtain ⟨inside, names⟩ := parse_slashed some checked
  have segments := inside.segments.trans names
  have texts : ((cs.filter (· ≠ ".")).map String.toList).map String.ofList =
      cs.filter (· ≠ ".") := by simp [Function.comp_def]
  unfold leading
  split
  · next none =>
      rw [none, List.map_nil] at segments
      exact components_of_top (inside.1 ▸ eq_top_of_segments segments)
  · next leads =>
      rw [components_of_relative inside.1 (by simpa [segments] using leads), segments, texts]

theorem validate_slashed : validate (slashed cs) = .ok (slashed (leading cs)) := by
  obtain ⟨inside, -⟩ := parse_slashed some checked
  rw [← components_slashed some checked, slashed_components inside.1]
  exact validate_eq_ok_iff.mpr ⟨inside, rfl⟩

end Checked

/-- Accepted components with slashes between them stay inside their context directory. What
validation gives for them, and what they are taken apart into again, are those of them that lead on.
So they are a text in normal form, and its components, exactly if each of them matters to where they
lead. -/
theorem assembled_of_checkComponents {cs : List String} (some : cs ≠ [])
    (checked : checkComponents cs = .ok ()) :
    (IsTight cs → normalize (slashed cs) = slashed cs ∧ validate (slashed cs) = .ok (slashed cs) ∧
      components (slashed cs) = cs) ∧
    (normalize (slashed cs) = slashed cs ∨ components (slashed cs) = cs → IsTight cs) ∧
    validate (slashed cs) = .ok (slashed (leading cs)) ∧ components (slashed cs) = leading cs := by
  have parts := components_slashed some checked
  have valid := validate_slashed some checked
  have normal := normalize_of_validate valid
  refine ⟨?_, ?_, valid, parts⟩
  · intro tight
    rw [(leading_eq_self_iff some).mpr tight] at parts valid normal
    exact ⟨normal, valid, parts⟩
  · rw [normal, parts, ← leading_eq_self_iff some]
    rintro (same | same)
    · exact slashed_injective (leading_ne_nil cs) some (slashless_leading checked)
        (slashless_of_checkComponents checked) same
    · exact same

/-- Components of punctuation are kept, also with a dot at their start or end. -/
theorem assembled_of_punctuation :
    checkComponents ["~", ".a", "b.", "@:="] = .ok () ∧
      normalize "~/.a/b./@:=" = "~/.a/b./@:=" ∧ validate "~/.a/b./@:=" = .ok "~/.a/b./@:=" ∧
      components "~/.a/b./@:=" = ["~", ".a", "b.", "@:="] := by
  have checked : checkComponents ["~", ".a", "b.", "@:="] = .ok () := by decide
  exact ⟨checked, (assembled_of_checkComponents (List.cons_ne_nil _ _) checked).1 (by decide)⟩

/-- A component that stands for the directory that it lies in is accepted beside another, and is
lost. -/
theorem here_lost_of_assembled : checkComponents ["a", "."] = .ok () ∧
    slashed ["a", "."] = "a/." ∧ normalize "a/." ≠ "a/." ∧ validate "a/." = .ok "a" ∧
    components "a/." ≠ ["a", "."] := by
  decide

end SchemaModules.Path
