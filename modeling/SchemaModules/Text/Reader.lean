/-!
# Reading a text from left to right

A reader takes a value off the front of a text, or refuses it. The readers of the two declaration
formats are put together from the ones here. Repetition ends where the repeated reader refuses or
takes nothing, so every reader comes to an end.
-/

namespace SchemaModules.Text

/-- What takes a value off the front of a text, or refuses the text. -/
abbrev Reader (α : Type) := StateT (List Char) Option α

namespace Reader

variable {α β : Type}

/-- The value that a reader takes a whole text for. -/
def read? (r : Reader α) (s : List Char) : Option α :=
  match r.run s with
  | some (a, []) => some a
  | _ => none

/-- The next character, which stays in place. -/
def peek? : Reader (Option Char) := fun s => some (s.head?, s)

/-- The next character. -/
def next : Reader Char
  | [] => none
  | c :: rest => some (c, rest)

/-- The next character, if it is of a class. -/
def one (p : Char → Bool) : Reader Char
  | [] => none
  | c :: rest => if p c then some (c, rest) else none

/-- A given character. -/
def char (c : Char) : Reader Unit := do
  let _ ← one (· == c)

/-- Given characters one after another. -/
def chars : List Char → Reader Unit
  | [] => pure ()
  | c :: rest => do char c; chars rest

/-- All next characters of a class. -/
def allOf (p : Char → Bool) : Reader (List Char) := fun s => some (s.takeWhile p, s.dropWhile p)

/-- All next characters of a class, at least one. -/
def someOf (p : Char → Bool) : Reader (List Char) := do
  let c ← one p
  let rest ← allOf p
  return c :: rest

/-- A given number of characters of a class. -/
def exactly (p : Char → Bool) : Nat → Reader (List Char)
  | 0 => pure []
  | n + 1 => do
      let c ← one p
      let rest ← exactly p n
      return c :: rest

/-- The value of a reader, or nothing where it refuses. -/
def maybe (r : Reader α) : Reader (Option α) := fun s =>
  match r.run s with
  | some (a, rest) => some (some a, rest)
  | none => some (none, s)

/-- The values of a reader as often as it takes something, at most `limit` times. -/
def manyUpTo (r : Reader α) : (limit : Nat) → Reader (List α)
  | 0 => pure []
  | limit + 1 => fun s =>
      match r.run s with
      | none => some ([], s)
      | some (a, rest) =>
          if rest.length < s.length then
            (manyUpTo r limit).run rest |>.map fun (as, rest) => (a :: as, rest)
          else some ([], s)

/-- The values of a reader as often as it takes something. -/
def many (r : Reader α) : Reader (List α) := fun s => (manyUpTo r s.length).run s

/-- The values of a reader with separators between them, at least one. -/
def separated (separator : Reader β) (r : Reader α) : Reader (List α) := do
  let first ← r
  let rest ← many (do let _ ← separator; r)
  return first :: rest

end Reader

end SchemaModules.Text
