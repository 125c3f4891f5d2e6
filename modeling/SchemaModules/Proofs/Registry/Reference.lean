import SchemaModules.Proofs.Identifier.FullName
import SchemaModules.Registry.Admin

/-! # Texts that refer to something

A text refers to a module if it is the text of its full name (`Admin.parseModule_eq_ok_iff`), and to
a label of a module if it is the text of the two with a colon between them and no colon in the label
(`Admin.parseLabel_eq_ok_iff`).
A text that refers to nothing is reported as it is (`Admin.invalid_of_parseLabel`).
-/

namespace SchemaModules

theorem checkLabelName_eq_ok_iff {s : String} : checkLabelName s = .ok () ↔ IsLabelName s := by
  unfold checkLabelName
  split
  · next valid => exact iff_of_true rfl valid
  · next invalid => exact iff_of_false nofun invalid

namespace Admin

/-- The text of a label of a module. -/
def labelText (n : FullName) (label : String) : String := n.text ++ ":" ++ label

/-! ## The last colon -/

/-- A text parts at a colon that none comes after. -/
theorem splitLastColon?_append {before after : List Char} (last : ':' ∉ after) :
    splitLastColon? (before ++ ':' :: after) = some (before, after) := by
  have tail : ((before ++ ':' :: after).reverse.takeWhile (· ≠ ':')).reverse = after := by
    have reversed : (before ++ ':' :: after).reverse = after.reverse ++ ':' :: before.reverse := by
      simp
    have others : ∀ c ∈ after.reverse, decide (c ≠ ':') = true := by
      intro c member
      rw [decide_eq_true_iff]
      rintro rfl
      exact last (List.mem_reverse.mp member)
    rw [reversed, List.takeWhile_append_of_pos others]
    simp
  have length : (before ++ ':' :: after).length - after.length - 1 = before.length := by
    rw [List.length_append, List.length_cons]
    omega
  unfold splitLastColon?
  simp only [if_pos List.mem_append_cons_self, tail, length, List.take_left]

theorem splitLastColon?_eq_some_iff {s before after : List Char} :
    splitLastColon? s = some (before, after) ↔ ':' ∉ after ∧ s = before ++ ':' :: after := by
  constructor
  · intro found
    have member : ':' ∈ s := by
      refine Decidable.byContradiction fun absent => ?_
      simp [splitLastColon?, absent] at found
    -- The first colon of the text read backwards is the last one.
    obtain ⟨after', before', split, first⟩ :=
      List.eq_append_cons_of_mem (List.mem_reverse.mpr member)
    have forwards : s = before'.reverse ++ ':' :: after'.reverse := by
      rw [← List.reverse_reverse s, split]
      simp
    have last : ':' ∉ after'.reverse := mt List.mem_reverse.mp first
    rw [forwards, splitLastColon?_append last] at found
    cases found
    exact ⟨last, forwards⟩
  · rintro ⟨last, rfl⟩
    exact splitLastColon?_append last

/-! ## Labels of modules -/

/-- What a text before a colon and a text after it refer to. -/
theorem parseLabel_of_split {s before after : String} (last : ':' ∉ after.toList)
    (split : s = before ++ ":" ++ after) {n : FullName} {ref : LabelRef} :
    parseLabel s = .ok (n, ref) ↔
      before = n.text ∧ IsLabelName after ∧ ref = ⟨n.ref, after⟩ := by
  have chars : s.toList = before.toList ++ ':' :: after.toList := by simp [split]
  unfold parseLabel
  rw [chars, splitLastColon?_append last]
  simp only [String.ofList_toList, Outcome.bind_eq_ok_iff, Outcome.mapError_eq_ok_iff,
    FullName.parse_eq_ok_iff, Outcome.pure_eq_ok_iff]
  constructor
  · rintro ⟨m, rfl, ⟨⟩, valid, ⟨⟩⟩
    exact ⟨rfl, checkLabelName_eq_ok_iff.mp valid, rfl⟩
  · rintro ⟨rfl, valid, rfl⟩
    exact ⟨n, rfl, (), checkLabelName_eq_ok_iff.mpr valid, rfl⟩

/-- A text refers to a label of a module if it is the text of these and the label has no colon. -/
theorem parseLabel_eq_ok_iff {s : String} {n : FullName} {ref : LabelRef} :
    parseLabel s = .ok (n, ref) ↔ ref.module = n.ref ∧ IsLabelName ref.label ∧
      ':' ∉ ref.label.toList ∧ s = labelText n ref.label := by
  constructor
  · intro parsed
    cases found : splitLastColon? s.toList with
    | none => simp [parseLabel, found] at parsed
    | some parts =>
        obtain ⟨before, after⟩ := parts
        obtain ⟨last, split⟩ := splitLastColon?_eq_some_iff.mp found
        have last : ':' ∉ (String.ofList after).toList := by simpa using last
        have split : s = String.ofList before ++ ":" ++ String.ofList after := by
          apply String.toList_injective
          simp [split]
        obtain ⟨name, valid, rfl⟩ := (parseLabel_of_split last split).mp parsed
        exact ⟨rfl, valid, last, by rw [split, name]; rfl⟩
  · rintro ⟨owned, valid, free, rfl⟩
    refine (parseLabel_of_split free rfl).mpr ⟨rfl, valid, ?_⟩
    rw [← owned]

/-! ## Modules -/

theorem parseModule_eq_ok_iff {s : String} {n : FullName} :
    parseModule s = .ok n ↔ s = n.text :=
  Outcome.mapError_eq_ok_iff.trans FullName.parse_eq_ok_iff

/-! ## What refers to nothing -/

/-- An error reports a text as one that refers to nothing. -/
def Invalid (s : String) (error : AdminError) : Prop := ∃ fault, error = .invalidReference s fault

variable {s : String} {error : AdminError}

theorem invalid_of_parseModule (failed : parseModule s = .error error) : Invalid s error := by
  obtain ⟨fault, -, rfl⟩ := Outcome.mapError_eq_error_iff.mp failed
  exact ⟨_, rfl⟩

theorem invalid_of_parseLabel (failed : parseLabel s = .error error) : Invalid s error := by
  unfold parseLabel at failed
  split at failed
  · obtain rfl := Except.error.inj failed
    exact ⟨_, rfl⟩
  · rcases Outcome.bind_eq_error_iff.mp failed with module | ⟨n, -, remaining⟩
    · obtain ⟨fault, -, rfl⟩ := Outcome.mapError_eq_error_iff.mp module
      exact ⟨_, rfl⟩
    · rcases Outcome.bind_eq_error_iff.mp remaining with label | ⟨_, -, impossible⟩
      · obtain ⟨fault, -, rfl⟩ := Outcome.mapError_eq_error_iff.mp label
        exact ⟨_, rfl⟩
      · cases impossible

theorem invalid_of_parseOrganization (failed : parseOrganization s = .error error) :
    Invalid s error := by
  unfold parseOrganization at failed
  split at failed
  · split at failed
    · cases failed
    · obtain rfl := Except.error.inj failed
      exact ⟨_, rfl⟩
  · obtain rfl := Except.error.inj failed
    exact ⟨_, rfl⟩

end Admin

end SchemaModules
