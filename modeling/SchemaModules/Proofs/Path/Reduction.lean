import Mathlib.Data.List.Induction
import Mathlib.Data.List.Pairwise
import Mathlib.Logic.Relation
import SchemaModules.Path.Lemmas

/-! # Normal forms of paths by rewriting

The segments of a path can be rewritten: one that leads nowhere is left out, a name is cancelled with
a step up right after it, and from the root a first step up is left out. Rewriting does not change
where the segments lead (`foldl_follow_of_rewrites`), and following them one by one is a way to
rewrite them (`rewrites_follow`). So in whatever order they are rewritten, they come to the segments
of the path (`comesTo_segments`), and these are what its normal form spells (`normalize_spec`).
-/

namespace SchemaModules

namespace Segment

theorem not_isName_up : ¬ IsName up := fun name => name.2.2.1 rfl

/-- A segment without a slash that is no name leads up or nowhere. -/
theorem eq_of_not_isName {s : Segment} (slashless : '/' ∉ s) (other : ¬ IsName s) :
    s = up ∨ s = [] ∨ s = here := by
  by_contra none
  simp only [not_or] at none
  exact other ⟨none.2.1, none.2.2, none.1, slashless⟩

end Segment

namespace Path

open Relation (ReflTransGen)
open Segment (IsName)

/-! ## Texts in normal form -/

/-- A text starts at the root. -/
def StartsAtRoot (s : String) : Prop := s.toList.head? = some '/'

instance (s : String) : Decidable (StartsAtRoot s) := inferInstanceAs (Decidable (_ = _))

/-- A text in normal form spells segments: none for the context directory itself, names from the
root, or some steps up and then names, not none of either. -/
inductive Spells : List Segment → String → Prop where
  | here : Spells [] "."
  | rooted {names : List Segment} (valid : ∀ s ∈ names, IsName s) :
      Spells names (String.ofList ('/' :: Text.joined '/' names))
  | relative {ups : Nat} {names : List Segment} (valid : ∀ s ∈ names, IsName s)
      (some : List.replicate ups Segment.up ++ names ≠ []) :
      Spells (List.replicate ups Segment.up ++ names)
        (String.ofList (Text.joined '/' (List.replicate ups Segment.up ++ names)))

theorem spells_text (p : Path) : Spells p.segments p.text := by
  unfold text chars
  by_cases rooted : p.rooted = true
  · rw [if_pos rooted, segments_of_rooted rooted]
    exact .rooted p.names_valid
  · rw [if_neg rooted]
    by_cases none : p.segments = []
    · rw [if_pos none, none]
      exact .here
    · rw [if_neg none]
      exact .relative p.names_valid none

/-- The texts in normal form are those of paths. -/
theorem spells_iff {segments : List Segment} {s : String} :
    Spells segments s ↔ ∃ p : Path, p.text = s ∧ p.segments = segments := by
  constructor
  · intro spelled
    cases spelled with
    | here => exact ⟨top false, rfl, rfl⟩
    | rooted valid => exact ⟨⟨true, 0, _, valid, fun _ => rfl⟩, rfl, rfl⟩
    | @relative ups names valid some =>
        let p : Path := ⟨false, ups, names, valid, by simp⟩
        have filled : p.segments ≠ [] := some
        refine ⟨p, ?_, rfl⟩
        rw [text, chars, if_neg Bool.false_ne_true, if_neg filled]
        rfl
  · rintro ⟨p, rfl, rfl⟩
    exact spells_text p

/-- A text spells one list of segments. -/
theorem Spells.unique {a b : List Segment} {s : String} (left : Spells a s) (right : Spells b s) :
    a = b := by
  obtain ⟨p, rfl, rfl⟩ := spells_iff.mp left
  obtain ⟨q, same, rfl⟩ := spells_iff.mp right
  rw [text_injective same]

/-- A text in normal form is its own normal form. -/
theorem Spells.normalize_eq {segments : List Segment} {s : String} (spelled : Spells segments s) :
    normalize s = s := by
  obtain ⟨p, rfl, -⟩ := spells_iff.mp spelled
  rw [normalize, parse_text]

theorem rooted_follow (p : Path) (s : Segment) : (p.follow s).rooted = p.rooted := by
  unfold follow ascend
  split
  · split <;> rfl
  · split <;> rfl

theorem rooted_foldl_follow (p : Path) (parts : List Segment) :
    (parts.foldl follow p).rooted = p.rooted := by
  induction parts generalizing p with
  | nil => rfl
  | cons s rest ih => rw [List.foldl_cons, ih, rooted_follow]

theorem parse_eq (s : String) :
    parse s = (Text.split '/' s.toList).foldl follow (top (decide (StartsAtRoot s))) := by
  rw [parse, beq_eq_decide]
  rfl

theorem rooted_parse (s : String) : (parse s).rooted = decide (StartsAtRoot s) := by
  rw [parse_eq, rooted_foldl_follow]
  rfl

theorem startsAtRoot_text (p : Path) : StartsAtRoot p.text ↔ p.rooted = true := by
  have same := rooted_parse p.text
  rw [parse_text] at same
  rw [same, decide_eq_true_iff]

/-- A normal form starts at the root if the text does. -/
theorem startsAtRoot_normalize (s : String) : StartsAtRoot (normalize s) ↔ StartsAtRoot s := by
  rw [normalize, startsAtRoot_text, rooted_parse, decide_eq_true_iff]

/-! ## Rewriting segments -/

/-- One rewriting of segments: one that leads nowhere is left out, one that can be cancelled is left
out together with a step up right after it, and from the root a first step up is left out. -/
inductive Rewrites (cancels : Segment → Prop) (rooted : Bool) :
    List Segment → List Segment → Prop where
  | skip (before after : List Segment) {s : Segment} (nowhere : s = [] ∨ s = Segment.here) :
      Rewrites cancels rooted (before ++ s :: after) (before ++ after)
  | cancel (before after : List Segment) {s : Segment} (cancelled : cancels s) :
      Rewrites cancels rooted (before ++ s :: Segment.up :: after) (before ++ after)
  | stay (after : List Segment) (atRoot : rooted = true) :
      Rewrites cancels rooted (Segment.up :: after) after

/-- Segments can be rewritten to others, in no or more steps. -/
abbrev Reduces (cancels : Segment → Prop) (rooted : Bool) : List Segment → List Segment → Prop :=
  ReflTransGen (Rewrites cancels rooted)

/-- Segments come to others by rewriting in whatever order: wherever rewriting has led, it can go on
to them, there is nothing in them to rewrite, and no rewriting goes on for ever. -/
structure ComesTo (cancels : Segment → Prop) (rooted : Bool) (parts result : List Segment) :
    Prop where
  reached : ∀ mid, Reduces cancels rooted parts mid → Reduces cancels rooted mid result
  final : ∀ next, ¬ Rewrites cancels rooted result next
  ends : Acc (fun next parts => Rewrites cancels rooted parts next) parts

variable {cancels : Segment → Prop} {rooted : Bool} {parts next : List Segment}

namespace Rewrites

theorem append_right (step : Rewrites cancels rooted parts next) (rest : List Segment) :
    Rewrites cancels rooted (parts ++ rest) (next ++ rest) := by
  cases step with
  | skip before after nowhere => simpa using skip before (after ++ rest) nowhere
  | cancel before after cancelled => simpa using cancel before (after ++ rest) cancelled
  | stay _ atRoot => exact stay (next ++ rest) atRoot

theorem sublist (step : Rewrites cancels rooted parts next) : next.Sublist parts := by
  cases step with
  | skip before after => exact (List.sublist_cons_self ..).append_left before
  | cancel before after =>
      exact ((List.sublist_cons_self ..).trans (List.sublist_cons_self ..)).append_left before
  | stay => exact List.sublist_cons_self ..

theorem length_lt (step : Rewrites cancels rooted parts next) : next.length < parts.length := by
  cases step with
  | skip => simp
  | cancel =>
      simp only [List.length_append, List.length_cons]
      omega
  | stay => simp

/-- Each rewriting makes fewer segments, so no rewriting goes on for ever. -/
theorem ends (cancels : Segment → Prop) (rooted : Bool) (parts : List Segment) :
    Acc (fun next parts => Rewrites cancels rooted parts next) parts :=
  Subrelation.accessible length_lt ((measure List.length).wf.apply parts)

end Rewrites

theorem Reduces.sublist (steps : Reduces cancels rooted parts next) : next.Sublist parts := by
  induction steps with
  | refl => exact .refl _
  | tail _ step ih => exact step.sublist.trans ih

theorem Reduces.append_right (steps : Reduces cancels rooted parts next) (rest : List Segment) :
    Reduces cancels rooted (parts ++ rest) (next ++ rest) :=
  steps.lift (· ++ rest) fun _ _ step => step.append_right rest

/-! ## Following segments -/

/-- A step up leads back along a name. -/
theorem follow_name_up (p : Path) {s : Segment} (name : IsName s) :
    (p.follow s).follow Segment.up = p := by
  rw [follow_name p name, follow, if_pos rfl]
  ext1 <;> simp [ascend, child, parent]

theorem follow_top_up : (top true).follow Segment.up = top true := by
  rw [follow, if_pos rfl]
  rfl

theorem follow_nowhere (p : Path) {s : Segment} (nowhere : s = [] ∨ s = Segment.here) :
    p.follow s = p := by
  rcases nowhere with rfl | rfl
  · exact follow_nil p
  · exact follow_here p

/-- Rewriting segments does not change where they lead. -/
theorem foldl_follow_of_rewrites (step : Rewrites IsName rooted parts next) (p : Path)
    (atRoot : rooted = true → p = top true) : parts.foldl follow p = next.foldl follow p := by
  cases step with
  | skip before after nowhere =>
      rw [List.foldl_append, List.foldl_cons, follow_nowhere _ nowhere, List.foldl_append]
  | cancel before after name =>
      rw [List.foldl_append, List.foldl_cons, List.foldl_cons, follow_name_up _ name,
        List.foldl_append]
  | stay _ isRoot => rw [atRoot isRoot, List.foldl_cons, follow_top_up]

theorem foldl_follow_of_reduces (steps : Reduces IsName rooted parts next) (p : Path)
    (atRoot : rooted = true → p = top true) : parts.foldl follow p = next.foldl follow p := by
  induction steps with
  | refl => rfl
  | tail _ step ih => rw [ih, foldl_follow_of_rewrites step p atRoot]

theorem segments_child (p : Path) {s : Segment} (name : IsName s) :
    (p.child s name).segments = p.segments ++ [s] := by
  simp [segments, child]

/-- After the segments of a path a further one is rewritten to where it leads. -/
theorem rewrites_follow (p : Path) {s : Segment} (slashless : '/' ∉ s) :
    Reduces IsName p.rooted (p.segments ++ [s]) (p.follow s).segments := by
  by_cases name : IsName s
  · rw [follow_name p name, segments_child]
  rcases Segment.eq_of_not_isName slashless name with rfl | nowhere
  · rw [follow, if_pos rfl]
    by_cases empty : p.names = []
    · rw [ascend, if_pos empty]
      by_cases atRoot : p.rooted = true
      · have none : p.segments = [] := by rw [segments_of_rooted atRoot, empty]
        rw [none]
        simpa [segments, atRoot, empty] using .single (.stay [] rfl)
      · simp [segments, atRoot, empty, List.replicate_succ', ReflTransGen.refl]
    · obtain ⟨init, last, split⟩ := (List.eq_nil_or_concat p.names).resolve_left empty
      have valid : IsName last := p.names_valid last (by simp [split])
      have back : Rewrites IsName p.rooted _ _ :=
        .cancel (List.replicate p.ups Segment.up ++ init) [] valid
      rw [List.append_nil, List.append_assoc] at back
      simpa [ascend, parent, segments, split] using .single back
  · rw [follow_nowhere p nowhere]
    have left : Rewrites IsName p.rooted _ _ := .skip p.segments [] nowhere
    rw [List.append_nil] at left
    exact .single left

/-- Following segments one by one is a way to rewrite them. -/
theorem rewrites_foldl_follow (rooted : Bool) {parts : List Segment}
    (slashless : ∀ s ∈ parts, '/' ∉ s) :
    Reduces IsName rooted parts (parts.foldl follow (top rooted)).segments := by
  induction parts using List.reverseRecOn with
  | nil => exact .refl
  | append_singleton done s ih =>
      have earlier := ih fun t member => slashless t (List.mem_append_left _ member)
      have here : (done.foldl follow (top rooted)).rooted = rooted := rooted_foldl_follow ..
      have last := rewrites_follow (done.foldl follow (top rooted)) (slashless s (by simp))
      rw [here] at last
      rw [List.foldl_append]
      exact (earlier.append_right [s]).trans last

/-- Unless a text starts at the root, it leads on from a path as its own path does. -/
theorem foldl_follow_parse (p : Path) {t : String} (relative : ¬ StartsAtRoot t) :
    (Text.split '/' t.toList).foldl follow p = (parse t).segments.foldl follow p := by
  have slashless : ∀ part ∈ Text.split '/' t.toList, '/' ∉ part :=
    fun part member => Text.not_mem_of_mem_split member
  have steps := rewrites_foldl_follow false slashless
  rw [parse_eq, decide_eq_false relative]
  exact foldl_follow_of_reduces steps p fun impossible => nomatch impossible

/-! ## What segments come to -/

/-- After a name no segment of a path leads up. -/
theorem pairwise_segments (p : Path) :
    p.segments.Pairwise fun a b => IsName a → IsName b := by
  refine List.pairwise_append.mpr ⟨?_, ?_, ?_⟩
  · refine List.pairwise_replicate.mpr (.inr ?_)
    exact fun name => name
  · exact List.pairwise_of_forall_mem_list fun _ _ b second _ => p.names_valid b second
  · intro a up b member _
    exact p.names_valid b member

/-- There is nothing to rewrite in the segments of a path. -/
theorem not_rewrites_segments (p : Path) (next : List Segment) :
    ¬ Rewrites IsName p.rooted p.segments next := by
  intro step
  generalize parted : p.segments = parts at step
  cases step with
  | skip before after nowhere =>
      have member : _ ∈ p.segments := parted ▸ List.mem_append_cons_self
      rcases isStep_of_mem_segments member with rfl | name
      · rcases nowhere with impossible | impossible <;> cases impossible
      · exact nowhere.elim name.1 name.2.1
  | cancel before after name =>
      have ordered := p.pairwise_segments
      rw [parted, List.pairwise_append] at ordered
      have later := (List.pairwise_cons.mp ordered.2.1).1 Segment.up List.mem_cons_self
      exact Segment.not_isName_up (later name)
  | stay _ atRoot =>
      have member : Segment.up ∈ p.names := by
        rw [← segments_of_rooted atRoot, parted]
        exact List.mem_cons_self
      exact Segment.not_isName_up (p.names_valid _ member)

/-- In whatever order segments are rewritten, they come to those of the path that they lead along. -/
theorem comesTo_segments (rooted : Bool) {parts : List Segment} (slashless : ∀ s ∈ parts, '/' ∉ s) :
    ComesTo IsName rooted parts (parts.foldl follow (top rooted)).segments where
  reached := by
    intro mid steps
    have same := foldl_follow_of_reduces steps (top rooted) fun isRoot => isRoot ▸ rfl
    rw [same]
    exact rewrites_foldl_follow rooted fun s member =>
      slashless s (steps.sublist.subset member)
  final := by
    intro next
    have none := not_rewrites_segments (parts.foldl follow (top rooted)) next
    rwa [rooted_foldl_follow] at none
  ends := Rewrites.ends ..

/-! ## Normalizing -/

/-- Normalizing gives a text in normal form, which starts at the root if the text does and spells what
the segments of the text come to. A text in normal form stays as it is. -/
theorem normalize_spec (s : String) :
    (∃ segments, Spells segments (normalize s) ∧
      ComesTo IsName (decide (StartsAtRoot s)) (Text.split '/' s.toList) segments) ∧
    (StartsAtRoot (normalize s) ↔ StartsAtRoot s) ∧
    ((∃ segments, Spells segments s) → normalize s = s) ∧
    normalize (normalize s) = normalize s := by
  refine ⟨⟨(parse s).segments, spells_text _, ?_⟩, startsAtRoot_normalize s, ?_, ?_⟩
  · rw [parse_eq]
    exact comesTo_segments _ fun part member => Text.not_mem_of_mem_split member
  · rintro ⟨segments, spelled⟩
    exact spelled.normalize_eq
  · exact normalize_normalize s

/-- A text from the root with a step up at once, a dot, an empty segment and a name that begins with
dots comes to two names. -/
theorem normalize_spec_of_rooted_text :
    normalize "/../a/./b//../..c/" = "/a/..c" ∧
      ComesTo IsName true (Text.split '/' "/../a/./b//../..c/".toList) [['a'], ['.', '.', 'c']] ∧
      normalize "/a/..c" = "/a/..c" := by
  have normal : normalize "/../a/./b//../..c/" = "/a/..c" := by decide
  have spelled : Spells [['a'], ['.', '.', 'c']] "/a/..c" := .rooted (by decide)
  obtain ⟨⟨segments, spelledToo, comes⟩, -⟩ := normalize_spec "/../a/./b//../..c/"
  rw [normal] at spelledToo
  obtain rfl := spelledToo.unique spelled
  exact ⟨normal, comes, (normalize_spec "/a/..c").2.2.1 ⟨_, spelled⟩⟩

/-- A dot is no name: if it could be cancelled with a step up after it, segments would not come to
those of their path in every order. -/
theorem not_comesTo_of_cancelled_here : normalize "./.." = ".." ∧
    Rewrites (· ≠ Segment.up) false (Text.split '/' "./..".toList) [] ∧
    ¬ ∃ segments, Spells segments (normalize "./..") ∧
      ComesTo (· ≠ Segment.up) (decide (StartsAtRoot "./..")) (Text.split '/' "./..".toList)
        segments := by
  have normal : normalize "./.." = ".." := by decide
  have cancelled : Rewrites (· ≠ Segment.up) false (Text.split '/' "./..".toList) [] :=
    .cancel [] [] (by decide : Segment.here ≠ Segment.up)
  refine ⟨normal, cancelled, ?_⟩
  rintro ⟨segments, spelled, comes⟩
  have spelledUp : Spells (List.replicate 1 Segment.up ++ []) ".." := .relative (by simp) (by simp)
  rw [normal] at spelled
  obtain rfl := spelled.unique spelledUp
  have grown := (comes.reached [] (.single cancelled)).sublist
  cases grown

end Path

end SchemaModules
