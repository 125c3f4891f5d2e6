import Mathlib.Data.List.DropRight
import SchemaModules.Module.Imports

/-! # Import lines are read back

An import line leaves its author a choice of blanks, of a modifier, and of what follows the path
(`ImportLine`). Whatever the choice, and whatever lines without the keyword stand in between, the
paths that are read from a file are those that its import lines name (`parseImports_lines`).
Lines are read one by one, so the imports of two files put together are those of both.
-/

namespace SchemaModules.Imports

/-- The word that an import line starts with. -/
def keyword : List Char := "import".toList

/-- A line that imports a path: blanks, the keyword, blanks and then possibly a modifier, more
blanks, the path between quotation marks, and any text. -/
structure ImportLine where
  indent : List Char
  gap : List Char
  modifier : Option (List Char)
  later : List Char
  path : List Char
  rest : List Char
  blank : ∀ c ∈ indent ++ gap ++ later, Text.isBlank c = true
  known : ∀ word ∈ modifier, gap ≠ [] ∧ (word = "public".toList ∨ word = "weak".toList)
  unquoted : '"' ∉ path
  oneLine : '\n' ∉ indent ++ gap ++ later ++ path ++ rest

/-- A line whose first text, after blanks, is not the keyword. -/
structure OtherLine where
  chars : List Char
  oneLine : '\n' ∉ chars
  noKeyword : ¬ keyword <+: chars.dropWhile Text.isBlank

/-- A line of a schema file. -/
inductive Line where
  | imports (line : ImportLine)
  | other (line : OtherLine)

namespace ImportLine

/-- The path between quotation marks, and what follows it. -/
def quoted (l : ImportLine) (rest : List Char) : List Char := '"' :: (l.path ++ '"' :: rest)

/-- What stands between the keyword and the quoted path. -/
def lead (l : ImportLine) : List Char := l.gap ++ l.modifier.getD [] ++ l.later

/-- An import line as it is written. -/
def chars (l : ImportLine) : List Char := l.indent ++ (keyword ++ (l.lead ++ l.quoted l.rest))

end ImportLine

namespace Line

/-- A line as it is written. -/
def chars : Line → List Char
  | imports line => line.chars
  | other line => line.chars

/-- The path that a line imports, if it imports one. -/
def path? : Line → Option (List Char)
  | imports line => some line.path
  | other _ => none

end Line

/-! ## Taking texts off -/

variable {s t word : List Char}

theorem dropStart?_append (start s : List Char) : dropStart? start (start ++ s) = some s := by
  simp [dropStart?]

theorem dropStart?_eq_none_iff {start : List Char} : dropStart? start s = none ↔ ¬ start <+: s := by
  simp [dropStart?, List.isPrefixOf_iff_prefix]

theorem dropBlank_append (blank : ∀ c ∈ s, Text.isBlank c = true) (t : List Char) :
    dropBlank (s ++ t) = dropBlank t :=
  List.dropWhile_append_of_pos blank

theorem dropBlank_cons {c : Char} (visible : Text.isBlank c = false) (s : List Char) :
    dropBlank (c :: s) = c :: s := by
  rw [dropBlank, List.dropWhile_cons_of_neg (by simp [visible])]

theorem dropWord_append (word s : List Char) : dropWord word (word ++ s) = dropBlank s := by
  rw [dropWord, dropStart?_append]

theorem dropWord_of_other (other : ¬ word <+: s) : dropWord word s = s := by
  rw [dropWord, dropStart?_eq_none_iff.mpr other]

theorem quotedPath?_append (unquoted : '"' ∉ s) (t : List Char) :
    quotedPath? (s ++ '"' :: t) = some s := by
  have before : ∀ c ∈ s, decide (c ≠ '"') = true := by
    rintro c member
    rw [decide_eq_true_eq]
    rintro rfl
    exact unquoted member
  rw [quotedPath?, if_pos (by simp), List.takeWhile_append_of_pos before,
    List.takeWhile_cons_of_neg (by simp), List.append_nil]

/-- Blanks at the end of a text are taken off behind a character that is none. -/
theorem exists_rdropWhile_eq {c : Char} (visible : Text.isBlank c = false) (s t : List Char) :
    ∃ kept, (s ++ c :: t).rdropWhile Text.isBlank = s ++ c :: kept := by
  induction t using List.reverseRecOn with
  | nil =>
      refine ⟨[], List.rdropWhile_concat_neg _ _ _ ?_⟩
      simp [visible]
  | append_singleton before last ih =>
      have split : s ++ c :: (before ++ [last]) = (s ++ c :: before) ++ [last] := by simp
      rw [split, List.rdropWhile_concat]
      split
      · exact ih
      · exact ⟨before ++ [last], split.symm⟩

/-! ## A line at a time -/

namespace ImportLine

variable (l : ImportLine)

theorem indent_blank : ∀ c ∈ l.indent, Text.isBlank c = true :=
  fun c member => l.blank c (by simp [member])

theorem gap_blank : ∀ c ∈ l.gap, Text.isBlank c = true :=
  fun c member => l.blank c (by simp [member])

theorem later_blank : ∀ c ∈ l.later, Text.isBlank c = true :=
  fun c member => l.blank c (by simp [member])

/-- Trimming takes the indentation off, and blanks at the end, but leaves the quoted path. -/
theorem exists_trim_eq : ∃ kept, Text.trim l.chars = keyword ++ (l.lead ++ l.quoted kept) := by
  have start : l.chars.dropWhile Text.isBlank = keyword ++ (l.lead ++ l.quoted l.rest) :=
    (List.dropWhile_append_of_pos l.indent_blank).trans (List.dropWhile_cons_of_neg (by decide))
  obtain ⟨kept, same⟩ := exists_rdropWhile_eq (by decide : Text.isBlank '"' = false)
    (keyword ++ (l.lead ++ '"' :: l.path)) l.rest
  refine ⟨kept, ?_⟩
  rw [Text.trim, start]
  simpa [List.rdropWhile, quoted] using same

/-- After the keyword an import line goes on with a blank or with the quoted path. -/
theorem head?_lead (kept : List Char) : ∃ first, (l.lead ++ l.quoted kept).head? = some first ∧
    (Text.isBlank first || decide (first = '"')) = true := by
  have followed : ∀ s t : List Char, (∀ c ∈ s, Text.isBlank c = true) → t.head? = some '"' →
      ∃ first, (s ++ t).head? = some first ∧
        (Text.isBlank first || decide (first = '"')) = true := by
    intro s t blank next
    cases s with
    | nil => exact ⟨'"', next, rfl⟩
    | cons c s => exact ⟨c, rfl, by simp [blank c List.mem_cons_self]⟩
  cases given : l.modifier with
  | none =>
      have blank : ∀ c ∈ l.gap ++ l.later, Text.isBlank c = true :=
        fun c member => (List.mem_append.mp member).elim (l.gap_blank c) (l.later_blank c)
      simpa [lead, given] using followed _ (l.quoted kept) blank rfl
  | some word =>
      obtain ⟨c, gap, start⟩ := List.exists_cons_of_ne_nil (l.known word given).1
      refine ⟨c, by simp [lead, start], ?_⟩
      simp [l.gap_blank c (start ▸ List.mem_cons_self)]

theorem dropWord_quoted {first : Char} (letter : first ≠ '"') (word kept : List Char) :
    dropWord (first :: word) (l.quoted kept) = l.quoted kept := by
  refine dropWord_of_other fun start => letter ?_
  exact (List.cons_prefix_cons.mp start).1

/-- Blanks and a modifier are taken off in front of the quoted path. -/
theorem dropWords_lead (kept : List Char) :
    modifiers.foldl (fun rest word => dropWord word rest) (dropBlank (l.lead ++ l.quoted kept)) =
      l.quoted kept := by
  have visible : dropBlank (l.quoted kept) = l.quoted kept := dropBlank_cons (by decide) _
  have path : dropBlank (l.later ++ l.quoted kept) = l.quoted kept := by
    rw [dropBlank_append l.later_blank, visible]
  have isPublic : dropWord "public".toList (l.quoted kept) = l.quoted kept :=
    l.dropWord_quoted (by decide) _ kept
  have isWeak : dropWord "weak".toList (l.quoted kept) = l.quoted kept :=
    l.dropWord_quoted (by decide) _ kept
  rw [lead, List.append_assoc, List.append_assoc, dropBlank_append l.gap_blank]
  simp only [modifiers, List.foldl_cons, List.foldl_nil]
  cases given : l.modifier with
  | none => rw [Option.getD_none, List.nil_append, path, isPublic, isWeak]
  | some word =>
      rw [Option.getD_some]
      rcases (l.known word given).2 with rfl | rfl
      · have here : dropBlank ("public".toList ++ (l.later ++ l.quoted kept)) =
            "public".toList ++ (l.later ++ l.quoted kept) := dropBlank_cons (by decide) _
        rw [here, dropWord_append, path, isWeak]
      · have here : dropBlank ("weak".toList ++ (l.later ++ l.quoted kept)) =
            "weak".toList ++ (l.later ++ l.quoted kept) := dropBlank_cons (by decide) _
        have other : ¬ "public".toList <+: "weak".toList ++ (l.later ++ l.quoted kept) :=
          fun start => absurd (List.cons_prefix_cons.mp start).1 (by decide)
        rw [here, dropWord_of_other other, dropWord_append, path]

theorem linePath?_chars : linePath? l.chars = some l.path := by
  obtain ⟨kept, trimmed⟩ := l.exists_trim_eq
  obtain ⟨first, starts, allowed⟩ := l.head?_lead kept
  have path : dropStart? ['"'] (l.quoted kept) = some (l.path ++ '"' :: kept) :=
    dropStart?_append ['"'] _
  change ((dropStart? keyword (Text.trim l.chars)).bind fun rest => _) = _
  rw [trimmed, dropStart?_append, Option.bind_some, starts]
  simp only [bind, Option.bind_some, allowed, if_true, l.dropWords_lead, path]
  exact quotedPath?_append l.unquoted kept

end ImportLine

theorem OtherLine.linePath?_chars (l : OtherLine) : linePath? l.chars = none := by
  have missing : dropStart? keyword (Text.trim l.chars) = none := by
    refine dropStart?_eq_none_iff.mpr fun start => l.noKeyword (start.trans ?_)
    exact List.rdropWhile_prefix _ _
  change ((dropStart? keyword (Text.trim l.chars)).bind fun rest => _) = none
  rw [missing, Option.bind_none]

namespace Line

variable (l : Line)

/-- A line is read as what it imports. -/
theorem linePath?_chars : linePath? l.chars = l.path? := by
  cases l with
  | imports line => exact line.linePath?_chars
  | other line => exact line.linePath?_chars

theorem not_mem_chars : '\n' ∉ l.chars := by
  cases l with
  | other line => exact line.oneLine
  | imports line =>
      have parts := line.oneLine
      have word : '\n' ∉ line.modifier.getD [] := by
        cases given : line.modifier with
        | none => exact List.not_mem_nil
        | some word => rcases (line.known word given).2 with rfl | rfl <;> decide
      have plain : '\n' ∉ keyword := by decide
      simp only [List.mem_append, not_or] at parts
      simp [chars, ImportLine.chars, ImportLine.lead, ImportLine.quoted, plain, word, parts]

end Line

/-! ## Lines together -/

/-- The imports of two texts on lines of their own are those of the one and of the other. -/
theorem parseImports_append (s t : List Char) :
    parseImports (s ++ '\n' :: t) = parseImports s ++ parseImports t := by
  rw [parseImports, Text.split_append, List.filterMap_append]
  rfl

/-- The imports of lines that are put together are the paths that they import, in normal form. -/
theorem parseImports_lines (lines : List Line) :
    parseImports (Text.joined '\n' (lines.map Line.chars)) =
      (lines.filterMap Line.path?).map fun path => Path.normalize (String.ofList path) := by
  cases lines with
  | nil => rfl
  | cons line lines =>
      have free : ∀ part ∈ (line :: lines).map Line.chars, '\n' ∉ part := by
        intro part member
        obtain ⟨l, -, rfl⟩ := List.mem_map.mp member
        exact l.not_mem_chars
      have parted := Text.split_joined _ (List.map_cons ▸ List.cons_ne_nil _ _) free
      rw [parseImports, parted, List.filterMap_map, List.map_filterMap]
      refine List.filterMap_congr fun l _ => ?_
      rw [Function.comp_apply, l.linePath?_chars]

/-- Reading imports undoes writing lines, and goes on from one text to the next. -/
theorem parseImports_spec :
    (∀ lines : List Line, parseImports (Text.joined '\n' (lines.map Line.chars)) =
      (lines.filterMap Line.path?).map fun path => Path.normalize (String.ofList path)) ∧
    ∀ s t, parseImports (s ++ '\n' :: t) = parseImports s ++ parseImports t :=
  ⟨parseImports_lines, parseImports_append⟩

/-- A line that imports a path with a modifier, and goes on with a comment. -/
def weakLine : ImportLine where
  indent := [' ']
  gap := [' ']
  modifier := some "weak".toList
  later := ['\t']
  path := "./a.proto".toList
  rest := "; // x\r".toList
  blank := List.all_eq_true.mp (by decide)
  known := by
    rintro word ⟨⟩
    exact ⟨List.cons_ne_nil _ _, .inr rfl⟩
  unquoted := by decide
  oneLine := by decide

/-- A line that imports a path without any blanks. -/
def bareLine : ImportLine where
  indent := []
  gap := []
  modifier := none
  later := []
  path := "b.proto".toList
  rest := []
  blank := List.all_eq_true.mp (by decide)
  known := nofun
  unquoted := by decide
  oneLine := by decide

def packageLine : OtherLine where
  chars := "package p;".toList
  oneLine := by decide
  noKeyword := by decide

theorem parseImports_spec_of_three_lines :
    let lines : List Line := [.imports weakLine, .other packageLine, .imports bareLine]
    Text.joined '\n' (lines.map Line.chars) =
        " import weak\t\"./a.proto\"; // x\r\npackage p;\nimport\"b.proto\"".toList ∧
      parseImports (Text.joined '\n' (lines.map Line.chars)) = ["a.proto", "b.proto"] ∧
      parseImports (weakLine.chars ++ '\n' :: packageLine.chars) =
        parseImports weakLine.chars ++ parseImports packageLine.chars := by
  obtain ⟨undoes, goesOn⟩ := parseImports_spec
  refine ⟨by decide, (undoes _).trans (by decide), goesOn _ _⟩

end SchemaModules.Imports
