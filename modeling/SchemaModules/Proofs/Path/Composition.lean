import Mathlib.Data.List.Basic
import Mathlib.Data.List.TakeWhile
import SchemaModules.Proofs.Path.Reduction

/-! # Paths one after another

A path that stays inside its context directory is a list of names, and its text is one that
validation returns unchanged (`validate_eq_ok_iff`). Joining the texts of such paths appends their
names (`join_texts`), and the way from the first of them to the whole is the rest
(`relative_append`). The last name is that of the last path (`base_join`).
-/

namespace SchemaModules.Path

open Segment (IsName)

/-- The names of a second path followed from where a first leads. -/
def append (p q : Path) : Path where
  rooted := p.rooted
  ups := p.ups
  names := p.names ++ q.names
  names_valid := fun s member =>
    (List.mem_append.mp member).elim (p.names_valid s) (q.names_valid s)
  no_ups_of_rooted := p.no_ups_of_rooted

theorem Inside.append {p q : Path} (inside : p.Inside) : (p.append q).Inside := inside

theorem Inside.parent {p : Path} (inside : p.Inside) : p.parent.Inside := by
  refine ⟨inside.1, ?_⟩
  simp [Path.parent, inside.2]

/-- A path inside is determined by its names. -/
theorem Inside.eq_of_names {p q : Path} (left : p.Inside) (right : q.Inside)
    (names : p.names = q.names) : p = q := by
  ext1
  · rw [left.1, right.1]
  · rw [left.2, right.2]
  · exact names

theorem Inside.segments {p : Path} (inside : p.Inside) : p.segments = p.names := by
  simp [Path.segments, inside.2]

/-- The names of a path are added to the segments of the path that it goes on from. -/
theorem segments_append (p q : Path) : (p.append q).segments = p.segments ++ q.names := by
  simp [segments, append]

theorem append_assoc (p q r : Path) : (p.append q).append r = p.append (q.append r) := by
  ext1 <;> simp [append]

theorem top_append {p : Path} (inside : p.Inside) : (top false).append p = p :=
  Inside.eq_of_names (p := (top false).append p) ⟨rfl, rfl⟩ inside rfl

theorem append_top (p : Path) : p.append (top false) = p := by
  ext1 <;> simp [append, top]

/-- Ways on from a path differ where they lead differs. -/
theorem append_right_inj {p q r : Path} (left : q.Inside) (right : r.Inside) :
    p.append q = p.append r ↔ q = r := by
  constructor
  · intro same
    have names := congrArg names same
    exact left.eq_of_names right (List.append_cancel_left names)
  · rintro rfl
    rfl

theorem joined_eq_nil {parts : List Segment} (empty : Text.joined '/' parts = [])
    (step : ∀ s ∈ parts, s ≠ []) : parts = [] := by
  cases parts with
  | nil => rfl
  | cons part others =>
      cases others with
      | nil => exact absurd (by simpa [Text.joined] using empty) (step part List.mem_cons_self)
      | cons next others => simp [Text.joined] at empty

theorem chars_ne_nil (p : Path) : p.chars ≠ [] := by
  unfold chars
  split
  · exact List.cons_ne_nil _ _
  · split
    · exact List.cons_ne_nil _ _
    · next some =>
        exact fun empty => some (joined_eq_nil empty fun s member =>
          Segment.ne_nil_of_isStep (isStep_of_mem_segments member))

@[simp]
theorem text_ne_empty (p : Path) : p.text ≠ "" := by
  intro empty
  apply p.chars_ne_nil
  have chars := congrArg String.toList empty
  simpa [text] using chars

@[simp]
theorem text_eq_top_iff {p : Path} : p.text = "." ↔ p = top false := by
  constructor
  · intro equal
    apply text_injective
    rw [equal]
    rfl
  · rintro rfl
    rfl

/-! ## Reading on -/

/-- Reading the text of a path inside on from a path appends its names. -/
theorem foldl_follow_inside (p : Path) {q : Path} (inside : q.Inside) :
    (Text.split '/' q.chars).foldl follow p = p.append q := by
  obtain ⟨rooted, ups, names⟩ := foldl_follow_names p q.names q.names_valid
  have relative : ¬ StartsAtRoot q.text := by simp [startsAtRoot_text, inside.1]
  have chars : q.chars = q.text.toList := by simp [text]
  rw [chars, foldl_follow_parse p relative, parse_text, inside.segments]
  ext1
  · exact rooted
  · exact ups
  · exact names

/-- Texts of paths, the later of them inside, lead along all of the paths one after another. -/
theorem parse_joined (p : Path) {rest : List Path} (inside : ∀ q ∈ rest, q.Inside) :
    parse (String.ofList (Text.joined '/' ((p :: rest).map chars))) = rest.foldl append p := by
  have head : (Text.joined '/' ((p :: rest).map chars)).head? = p.chars.head? := by
    cases rest with
    | nil => simp [Text.joined]
    | cons q rest => simp [Text.joined, List.head?_append_of_ne_nil _ p.chars_ne_nil]
  have whole := parse_text p
  simp only [parse, text, String.toList_ofList] at whole ⊢
  rw [head, Text.split_joined_texts _ (by simp), List.map_cons, List.flatMap_cons,
    List.foldl_append, whole]
  clear head whole
  induction rest generalizing p with
  | nil => rfl
  | cons q rest ih =>
      rw [List.map_cons, List.flatMap_cons, List.foldl_append,
        foldl_follow_inside p (inside q List.mem_cons_self)]
      exact ih (p.append q) fun r member => inside r (List.mem_cons_of_mem _ member)

/-- Joining texts of paths, the later of them inside, appends the names of the paths. -/
theorem join_texts (p : Path) {rest : List Path} (inside : ∀ q ∈ rest, q.Inside) :
    join ((p :: rest).map text) = (rest.foldl append p).text := by
  have filled : ((p :: rest).map text).filter (· ≠ "") = (p :: rest).map text := by
    apply List.filter_eq_self.mpr
    intro t member
    obtain ⟨q, -, rfl⟩ := List.mem_map.mp member
    simp
  have chars : ((p :: rest).map text).map String.toList = (p :: rest).map Path.chars := by
    simp [text]
  unfold join
  simp only [filled, chars, normalize]
  rw [if_neg (by simp), parse_joined p inside]

theorem join_pair (p : Path) {q : Path} (inside : q.Inside) :
    join [p.text, q.text] = (p.append q).text :=
  @join_texts p [q] (by simpa using inside)

theorem join_triple (p : Path) {q r : Path} (second : q.Inside) (third : r.Inside) :
    join [p.text, q.text, r.text] = ((p.append q).append r).text :=
  @join_texts p [q, r] (by simpa using ⟨second, third⟩)

/-! ## Validation -/

/-- Validation gives the text of the path that it reads, if that stays inside. -/
theorem validate_eq_ok_iff {s t : String} :
    validate s = .ok t ↔ (parse s).Inside ∧ (parse s).text = t := by
  unfold validate Inside
  by_cases rooted : (parse s).rooted = true
  · simp [rooted]
  · by_cases ups : (parse s).ups = 0
    · simp [rooted, ups]
    · simp [rooted, ups]

theorem validate_text {p : Path} (inside : p.Inside) : validate p.text = .ok p.text := by
  rw [validate_eq_ok_iff, parse_text]
  exact ⟨inside, rfl⟩

/-- The texts that validation leaves as they are are those of the paths inside. -/
theorem validate_eq_self_iff {s : String} :
    validate s = .ok s ↔ ∃ p : Path, p.Inside ∧ p.text = s := by
  constructor
  · intro valid
    exact ⟨parse s, validate_eq_ok_iff.mp valid⟩
  · rintro ⟨p, inside, rfl⟩
    exact validate_text inside

/-- Joining the top to a path on either side gives that path. -/
theorem join_top {s : String} (valid : validate s = .ok s) : join [s, "."] = s := by
  obtain ⟨p, -, rfl⟩ := validate_eq_self_iff.mp valid
  rw [← text_eq_top_iff.mpr rfl, join_pair p ⟨rfl, rfl⟩, append_top]

theorem top_join {s : String} (valid : validate s = .ok s) : join [".", s] = s := by
  obtain ⟨p, inside, rfl⟩ := validate_eq_self_iff.mp valid
  rw [← text_eq_top_iff.mpr rfl, join_pair _ inside, top_append inside]

/-- Paths below a directory differ where they do without it. -/
theorem join_right_inj {directory path other : String}
    (valid : validate directory = .ok directory) (left : validate path = .ok path)
    (right : validate other = .ok other) :
    join [directory, path] = join [directory, other] ↔ path = other := by
  obtain ⟨d, -, rfl⟩ := validate_eq_self_iff.mp valid
  obtain ⟨p, first, rfl⟩ := validate_eq_self_iff.mp left
  obtain ⟨q, second, rfl⟩ := validate_eq_self_iff.mp right
  rw [join_pair d first, join_pair d second]
  constructor
  · intro same
    exact congrArg text ((append_right_inj first second).mp (text_injective same))
  · intro same
    rw [text_injective same]

/-- What validation gives, it leaves as it is. -/
theorem validate_of_validate {s t : String} (valid : validate s = .ok t) : validate t = .ok t := by
  obtain ⟨inside, rfl⟩ := validate_eq_ok_iff.mp valid
  exact validate_text inside

theorem normalize_of_validate {s t : String} (valid : validate s = .ok t) : normalize s = t :=
  (validate_eq_ok_iff.mp valid).2

/-- Validation sees only the normal form of a path. -/
theorem validate_normalize_eq_ok_iff {s t : String} :
    validate (normalize s) = .ok t ↔ validate s = .ok t := by
  rw [validate_eq_ok_iff, validate_eq_ok_iff, normalize, parse_text]

/-! ## Paths of files -/

/-- The text of a file's path: in normal form, inside the context directory and not its top. -/
def IsFile (s : String) : Prop := validate s = .ok s ∧ s ≠ "."

theorem isFile_iff {s : String} : IsFile s ↔ ∃ p : Path, p.Inside ∧ p.names ≠ [] ∧ p.text = s := by
  unfold IsFile
  rw [validate_eq_self_iff]
  constructor
  · rintro ⟨⟨p, inside, rfl⟩, notTop⟩
    refine ⟨p, inside, fun empty => notTop ?_, rfl⟩
    exact text_eq_top_iff.mpr (inside.eq_of_names ⟨rfl, rfl⟩ empty)
  · rintro ⟨p, inside, some, rfl⟩
    refine ⟨⟨p, inside, rfl⟩, fun isTop => some ?_⟩
    rw [text_eq_top_iff.mp isTop]
    rfl

theorem isFile_text {p : Path} (inside : p.Inside) (some : p.names ≠ []) : IsFile p.text :=
  isFile_iff.mpr ⟨p, inside, some, rfl⟩

instance (s : String) : Decidable (IsFile s) := inferInstanceAs (Decidable (_ ∧ _))

/-- A file's path is names with slashes between them. -/
theorem isFile_iff_split {s : String} : IsFile s ↔ ∀ name ∈ Text.split '/' s.toList, IsName name := by
  rw [isFile_iff]
  constructor
  · rintro ⟨p, inside, named, rfl⟩
    have chars : p.text.toList = Text.joined '/' p.names := by
      simp [text, Path.chars, inside.1, inside.segments, named]
    rw [chars, Text.split_joined p.names named fun name member => (p.names_valid name member).2.2.2]
    exact p.names_valid
  · intro names
    have named := @Text.split_ne_nil '/' s.toList
    refine ⟨⟨false, 0, Text.split '/' s.toList, names, by simp⟩, ⟨rfl, rfl⟩, named, ?_⟩
    apply String.toList_injective
    simp [text, chars, segments, named]

/-- A file's path is its own normal form. -/
theorem IsFile.normalize_eq {s : String} (file : IsFile s) : normalize s = s :=
  normalize_of_validate file.1

/-- What normalizes to the path of a file passes validation. -/
theorem IsFile.validate_of_normalize {s t : String} (file : IsFile t) (normal : normalize s = t) :
    validate s = .ok t := by
  obtain ⟨p, inside, -, rfl⟩ := isFile_iff.mp file
  obtain rfl := text_injective normal
  exact validate_eq_ok_iff.mpr ⟨inside, rfl⟩

/-! ## The way from one path to another -/

theorem dropCommon_append {α : Type} [DecidableEq α] (start rest : List α) :
    dropCommon start (start ++ rest) = ([], rest) := by
  induction start with
  | nil => cases rest <;> rfl
  | cons a start ih => simp [dropCommon, ih]

/-- From a path the way to one along further names leads along those names. -/
theorem relative_append (p : Path) {q : Path} (inside : q.Inside) :
    relative p.text (p.append q).text = .ok q.text := by
  have same : p.rooted = (p.append q).rooted := rfl
  simp only [relative, parse_text, segments_append, dropCommon_append]
  rw [if_neg (by simp [same])]
  by_cases empty : q.names = []
  · have isTop : q = top false := inside.eq_of_names ⟨rfl, rfl⟩ empty
    subst isTop
    rfl
  · simp [empty, text, chars, inside.1, inside.segments]

/-! ## The last name of a path -/

theorem lastSegment_append_slash (s t : List Char) :
    lastSegment (s ++ '/' :: t) = lastSegment t := by
  have slash : ('/' :: s.reverse).takeWhile (· ≠ '/') = [] := by simp
  unfold lastSegment
  rw [List.reverse_append, List.reverse_cons, List.append_assoc, List.singleton_append,
    List.takeWhile_append]
  split
  · next whole => rw [slash, List.append_nil, (List.takeWhile_prefix _).eq_of_length whole]
  · rfl

theorem lastSegment_of_no_slash {s : List Char} (free : '/' ∉ s) : lastSegment s = s := by
  have all : s.reverse.takeWhile (· ≠ '/') = s.reverse := by
    rw [List.takeWhile_eq_self_iff]
    intro c member
    rw [List.mem_reverse] at member
    simpa using ne_of_mem_of_not_mem member free
  rw [lastSegment, all, List.reverse_reverse]

theorem lastSegment_joined {parts : List Segment} (some : parts ≠ [])
    (free : ∀ part ∈ parts, '/' ∉ part) :
    lastSegment (Text.joined '/' parts) = parts.getLast some := by
  induction parts with
  | nil => exact absurd rfl some
  | cons part others ih =>
      cases others with
      | nil => exact lastSegment_of_no_slash (free part List.mem_cons_self)
      | cons next others =>
          rw [Text.joined, lastSegment_append_slash,
            ih (List.cons_ne_nil _ _) fun p member => free p (List.mem_cons_of_mem _ member)]
          · rfl
          · exact List.cons_ne_nil _ _

theorem Inside.lastSegment_text {p : Path} (inside : p.Inside) (some : p.names ≠ []) :
    lastSegment p.text.toList = p.names.getLast some := by
  have chars : p.text.toList = Text.joined '/' p.names := by
    simp [text, Path.chars, inside.1, inside.segments, some]
  rw [chars, lastSegment_joined some fun s member => (p.names_valid s member).2.2.2]

/-- The directory that a file lies in does not change its extension. -/
theorem extension_join {directory path : String} (valid : validate directory = .ok directory)
    (file : IsFile path) : extension (join [directory, path]) = extension path := by
  obtain ⟨p, left, rfl⟩ := validate_eq_self_iff.mp valid
  obtain ⟨q, right, some, rfl⟩ := isFile_iff.mp file
  have whole : (p.append q).names ≠ [] := List.append_ne_nil_of_right_ne_nil _ some
  have last : (p.append q).names.getLast whole = q.names.getLast some :=
    List.getLast_append_of_right_ne_nil _ _ some
  rw [join_pair p right, extension, extension,
    Inside.lastSegment_text (p := p.append q) left whole, right.lastSegment_text some, last]

/-- The directory that a file lies in does not change its last name. -/
theorem base_join {directory path : String} (valid : validate directory = .ok directory)
    (file : IsFile path) : base (join [directory, path]) = base path := by
  obtain ⟨p, -, rfl⟩ := validate_eq_self_iff.mp valid
  obtain ⟨q, right, some, rfl⟩ := isFile_iff.mp file
  simp only [join_pair p right, base, parse_text, segments_append, right.segments,
    List.getLast?_append_of_ne_nil _ some, List.getLast?_eq_some_getLast some]

end SchemaModules.Path
