import SchemaModules.Identifier.FullName
import SchemaModules.Proofs.Outcome

/-! # Texts that spell out full names

A text spells out a full name exactly if it is the text of that name (`FullName.parse_eq_ok_iff`).
-/

namespace SchemaModules.FullName

variable {n : FullName}

theorem ofParts_eq_ok_iff {registry owner name : String} : ofParts registry owner name = .ok n ↔
    registry = n.registry ∧ owner = n.owner ∧ name = n.name := by
  constructor
  · intro done
    unfold ofParts at done
    split at done
    · split at done
      · split at done
        · obtain rfl := Except.ok.inj done
          exact ⟨rfl, rfl, rfl⟩
        · cases done
      · cases done
    · cases done
  · rintro ⟨rfl, rfl, rfl⟩
    exact ofParts_eq n

/-- A text with two slashes is the text of the three parts. -/
theorem eq_textOf_of_split {s registry owner name : String}
    (parts : (Text.split '/' s.toList).map String.ofList = [registry, owner, name]) :
    s = textOf registry owner name := by
  have chars : Text.split '/' s.toList = [registry.toList, owner.toList, name.toList] := by
    simpa using congrArg (List.map String.toList) parts
  have joined : s.toList = Text.joined '/' [registry.toList, owner.toList, name.toList] := by
    rw [← chars, Text.joined_split]
  apply String.toList_injective
  simp [joined, Text.joined, textOf]

/-- A text spells out a full name exactly if it is its text. -/
theorem parse_eq_ok_iff {s : String} : parse s = .ok n ↔ s = n.text := by
  constructor
  · intro done
    unfold parse at done
    split at done
    · next registry owner name parts =>
        obtain ⟨rfl, rfl, rfl⟩ := ofParts_eq_ok_iff.mp done
        exact eq_textOf_of_split parts
    · cases done
  · rintro rfl
    exact parse_text n

end SchemaModules.FullName
