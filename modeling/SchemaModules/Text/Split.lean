/-!
# Parts of a text

A text is parted at a separator, and the parts are put together again with it. The two undo each
other: `joined_split` for every text, `split_joined` for every list of parts without the separator.
-/

namespace SchemaModules.Text

/-- The parts of a text between separators; there is always at least one. -/
def split (separator : Char) : List Char → List (List Char)
  | [] => [[]]
  | c :: rest =>
      if c = separator then [] :: split separator rest
      else match split separator rest with
        | [] => [[c]]
        | part :: parts => (c :: part) :: parts

/-- Parts one after another, with the separator between each two. -/
def joined (separator : Char) : List (List Char) → List Char
  | [] => []
  | [part] => part
  | part :: parts => part ++ separator :: joined separator parts

variable {separator : Char}

/-- A text has at least one part. -/
theorem split_ne_nil (s : List Char) : split separator s ≠ [] := by
  cases s with
  | nil => simp [split]
  | cons c rest =>
      simp only [split]
      split
      · simp
      · split <;> simp

/-- The parts of two texts with a separator between them are the parts of the one and of the
other. -/
theorem split_append (s t : List Char) :
    split separator (s ++ separator :: t) = split separator s ++ split separator t := by
  induction s with
  | nil => simp [split]
  | cons c rest ih =>
      simp only [List.cons_append, split, ih]
      split
      · rfl
      · cases parts : split separator rest with
        | nil => exact absurd parts (split_ne_nil rest)
        | cons part others => rfl

/-- A text without separator is its only part. -/
theorem split_of_not_mem (s : List Char) (free : separator ∉ s) : split separator s = [s] := by
  induction s with
  | nil => rfl
  | cons c rest ih =>
      simp only [List.mem_cons, not_or] at free
      simp [split, Ne.symm free.1, ih free.2]

/-- A separator parts the text before it from the text after it. -/
theorem split_append_separator (s t : List Char) (free : separator ∉ s) :
    split separator (s ++ separator :: t) = s :: split separator t := by
  rw [split_append, split_of_not_mem s free]
  rfl

/-- The parts of texts put together are the parts of each. -/
theorem split_joined_texts (texts : List (List Char)) (nonempty : texts ≠ []) :
    split separator (joined separator texts) = texts.flatMap (split separator) := by
  induction texts with
  | nil => exact absurd rfl nonempty
  | cons text others ih =>
      cases others with
      | nil => simp [joined]
      | cons next others =>
          rw [joined, split_append, ih (List.cons_ne_nil _ _)]
          · rfl
          · exact fun equal => nomatch equal

/-- No part of a text holds the separator. -/
theorem not_mem_of_mem_split {s part : List Char} (member : part ∈ split separator s) :
    separator ∉ part := by
  induction s generalizing part with
  | nil => simp_all [split]
  | cons c rest ih =>
      simp only [split] at member
      split at member
      · rcases List.mem_cons.mp member with rfl | later
        · simp
        · exact ih later
      · next other =>
          split at member
          · next none => exact absurd none (split_ne_nil rest)
          · next first others equal =>
              rcases List.mem_cons.mp member with rfl | later
              · have := ih (equal ▸ List.mem_cons_self)
                simp [this, Ne.symm other]
              · exact ih (equal ▸ List.mem_cons_of_mem _ later)

/-- The parts of a text, put together, are the text. -/
@[simp]
theorem joined_split (s : List Char) : joined separator (split separator s) = s := by
  induction s with
  | nil => rfl
  | cons c rest ih =>
      simp only [split]
      split
      · next equal =>
          subst equal
          cases parts : split c rest with
          | nil => exact absurd parts (split_ne_nil rest)
          | cons part others =>
              rw [parts] at ih
              simp [joined, ih]
      · split
        · next none => exact absurd none (split_ne_nil rest)
        · next part others equal =>
            rw [equal] at ih
            cases others with
            | nil => simpa [joined] using ih
            | cons next others => simpa [joined] using ih

/-- Parts put together with others after them are the two texts with a separator between. -/
theorem joined_append {before after : List (List Char)}
    (first : before ≠ []) (second : after ≠ []) :
    joined separator (before ++ after) =
      joined separator before ++ separator :: joined separator after := by
  induction before with
  | nil => exact absurd rfl first
  | cons part others ih =>
      cases others with
      | nil =>
          cases after with
          | nil => exact absurd rfl second
          | cons next rest => rfl
      | cons next rest =>
          have later := ih (List.cons_ne_nil next rest)
          simp only [List.cons_append, joined] at later ⊢
          rw [later, List.append_assoc, List.cons_append]

/-- Parts without separator, put together, are parted into themselves. -/
theorem split_joined (parts : List (List Char)) (nonempty : parts ≠ [])
    (free : ∀ part ∈ parts, separator ∉ part) : split separator (joined separator parts) = parts := by
  induction parts with
  | nil => exact absurd rfl nonempty
  | cons part others ih =>
      have here := free part List.mem_cons_self
      cases others with
      | nil => simpa [joined] using split_of_not_mem part here
      | cons next others =>
          have later := ih (by simp) fun p member => free p (List.mem_cons_of_mem _ member)
          simp only [joined] at later ⊢
          rw [split_append_separator part _ here, later]

end SchemaModules.Text
