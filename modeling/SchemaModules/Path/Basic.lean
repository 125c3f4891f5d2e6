import SchemaModules.Path.Error
import SchemaModules.Text.Split

/-!
# Paths

A path is read into a normal form: whether it starts at the root, how many steps it goes up, and the
names it then goes down. Every text has exactly one normal form, and `Path.text` writes it down;
normalizing a text is reading and writing it (`Path.normalize`).
-/

namespace SchemaModules

/-- A part of a path between two slashes. -/
abbrev Segment := List Char

namespace Segment

/-- The segment that leads to the directory above. -/
def up : Segment := ['.', '.']

/-- The segment that stays in its directory. -/
def here : Segment := ['.']

/-- A name is a segment that stands for an entry of its directory. -/
def IsName (s : Segment) : Prop := s ≠ [] ∧ s ≠ here ∧ s ≠ up ∧ '/' ∉ s

instance (s : Segment) : Decidable (IsName s) :=
  inferInstanceAs (Decidable (_ ∧ _ ∧ _ ∧ _))

end Segment

open Segment (IsName)

/-- The normal form of a path: from the root or from a context directory, some steps up, then down
along names. From the root there is no way up. -/
@[ext]
structure Path where
  rooted : Bool
  ups : Nat
  names : List Segment
  names_valid : ∀ s ∈ names, IsName s
  no_ups_of_rooted : rooted = true → ups = 0

namespace Path

/-- The root, or the context directory itself. -/
def top (rooted : Bool) : Path where
  rooted := rooted
  ups := 0
  names := []
  names_valid := by simp
  no_ups_of_rooted := by simp

/-- The number of segments of a path. -/
def depth (p : Path) : Nat := p.ups + p.names.length

/-- The directory that a path lies in; the top lies in itself. -/
def parent (p : Path) : Path where
  rooted := p.rooted
  ups := if p.names = [] then p.ups - 1 else p.ups
  names := p.names.dropLast
  names_valid := fun s member => p.names_valid s (List.dropLast_subset _ member)
  no_ups_of_rooted := fun rooted => by simp [p.no_ups_of_rooted rooted]

/-- The path to an entry of the directory that a path leads to. -/
def child (p : Path) (s : Segment) (name : IsName s) : Path where
  rooted := p.rooted
  ups := p.ups
  names := p.names ++ [s]
  names_valid := by
    intro t member
    rcases List.mem_append.mp member with before | last
    · exact p.names_valid t before
    · rw [List.mem_singleton.mp last]; exact name
  no_ups_of_rooted := p.no_ups_of_rooted

/-- The path one step up: back along the last name, or up from the top of a relative path. -/
def ascend (p : Path) : Path :=
  if p.names = [] then
    ⟨p.rooted, if p.rooted then 0 else p.ups + 1, p.names, p.names_valid, by simp +contextual⟩
  else p.parent

/-- Follow a segment: up, down along a name, or nowhere. -/
def follow (p : Path) (s : Segment) : Path :=
  if s = Segment.up then p.ascend
  else if name : IsName s then p.child s name
  else p

/-- The path that a text leads along. -/
def parse (s : String) : Path :=
  (Text.split '/' s.toList).foldl follow (top (s.toList.head? == some '/'))

/-- The segments of the normal form. -/
def segments (p : Path) : List Segment :=
  List.replicate p.ups Segment.up ++ p.names

/-- The normal form as characters. -/
def chars (p : Path) : List Char :=
  if p.rooted then '/' :: Text.joined '/' p.segments
  else if p.segments = [] then Segment.here
  else Text.joined '/' p.segments

/-- The normal form as text. -/
def text (p : Path) : String := String.ofList p.chars

/-- A path that stays inside its context directory. -/
def Inside (p : Path) : Prop := p.rooted = false ∧ p.ups = 0

instance (p : Path) : Decidable p.Inside := inferInstanceAs (Decidable (_ ∧ _))

/-- The normal form of a path text. -/
def normalize (s : String) : String := (parse s).text

/-- The normal form of a path text that stays inside its context directory. -/
def validate (s : String) : Except PathError String :=
  let p := parse s
  if p.rooted then .error (.invalid s .notRelative)
  else if p.ups ≠ 0 then .error (.invalid s .contextJump)
  else .ok p.text

/-- The normal form of a path text, taken from the given working directory if it is relative. -/
def absolute (workingDirectory s : String) : String :=
  let p := parse s
  if p.rooted then p.text
  else normalize (normalize workingDirectory ++ "/" ++ p.text)

/-- What a path is taken relative to when paths are compared. -/
inductive Anchor where
  /-- Paths inside a context directory. -/
  | relative
  /-- Paths from the root. -/
  | absolute
  deriving DecidableEq, Repr

/-- The path that contains every path of its anchor. -/
def Anchor.topText : Anchor → String
  | .relative => "."
  | .absolute => "/"

/-- The normal form of a path text for comparisons under an anchor. -/
def normalizeFor (workingDirectory : String) (anchor : Anchor) (s : String) :
    Except PathError String :=
  match anchor with
  | .relative => validate s
  | .absolute => .ok (absolute workingDirectory s)

/-- The same where the system may fail to give the working directory, which it is asked for only if a
relative path is to be taken from the root. -/
def normalizeUnder (workingDirectory : Except String String) (anchor : Anchor) (s : String) :
    Except AnchorError String :=
  match anchor with
  | .relative => (validate s).mapError .refused
  | .absolute =>
      if (parse s).rooted then .ok (normalize s)
      else match workingDirectory with
        | .ok directory => .ok (absolute directory s)
        | .error reason => .error (.noWorkingDirectory s reason)

/-- The directory that a path text lies in. -/
def dir (s : String) : String := (parse s).parent.text

/-- The last segment of a path text; a top is its own last segment. -/
def base (s : String) : String :=
  let p := parse s
  match p.segments.getLast? with
  | none => p.text
  | some last => String.ofList last

/-- The part of a text after the last slash, as it is written. -/
def lastSegment (s : List Char) : List Char :=
  (s.reverse.takeWhile (· ≠ '/')).reverse

/-- The extension of the last segment as it is written: from its last dot on, or nothing. -/
def extension (s : String) : String :=
  let last := lastSegment s.toList
  if '.' ∈ last then
    String.ofList ('.' :: (last.reverse.takeWhile (· ≠ '.')).reverse)
  else ""

/-- Path texts one after another, without the empty ones; nothing if all are empty. -/
def join (parts : List String) : String :=
  let parts := parts.filter (· ≠ "")
  if parts = [] then ""
  else normalize (String.ofList (Text.joined '/' (parts.map String.toList)))

/-- The components of a path text: its root if it has one, and its segments. -/
def components (s : String) : List String :=
  let p := parse s
  if p.rooted then "/" :: p.segments.map String.ofList
  else if p.segments = [] then ["."]
  else p.segments.map String.ofList

/-- The path text without its first `count` components, if any are left. -/
def stripComponents (s : String) (count : Nat) : Option String :=
  if count = 0 then some s
  else
    let parts := components s
    if parts.length ≤ count then none
    else some (join (parts.drop count))

/-- Two lists without the longest common start of both. -/
def dropCommon {α : Type} [DecidableEq α] : List α → List α → List α × List α
  | a :: as, b :: bs => if a = b then dropCommon as bs else (a :: as, b :: bs)
  | as, bs => (as, bs)

/-- The path text that leads from one path to another. There is none between a path from the root
and a relative one, nor where the way back from the first would have to go down an unknown name. -/
def relative (start target : String) : Except PathError String :=
  let p := parse start
  let q := parse target
  let (back, forth) := dropCommon p.segments q.segments
  if p.rooted ≠ q.rooted ∨ Segment.up ∈ back then .error (.notRelatable start target)
  else
    let way := List.replicate back.length Segment.up ++ forth
    .ok (if way = [] then "." else String.ofList (Text.joined '/' way))

end Path

end SchemaModules
