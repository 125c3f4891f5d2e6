import SchemaModules.Bucket.Memory
import SchemaModules.Module.Basic
import SchemaModules.Proofs.Identifier.FullName

/-! # Modules by the texts of their names

Full names and the texts that spell them out determine each other, whichever of the two a name was
made from, and so named modules are told apart by their ids (`FullName.texts_determine_names`).
-/

namespace SchemaModules.FullName

variable {n : FullName} {registry owner name s : String}

/-- A text has exactly these parts between its slashes. -/
structure HasParts (s : String) (parts : List String) : Prop where
  chars : s.toList = Text.joined '/' (parts.map String.toList)
  slashless : ∀ part ∈ parts, '/' ∉ part.toList

theorem hasParts_text (n : FullName) : HasParts n.text [n.registry, n.owner, n.name] where
  chars := by
    have whole : Text.joined '/' (Text.split '/' n.text.toList) = n.text.toList :=
      Text.joined_split _
    rw [← whole, split_text]
    rfl
  slashless part member := by
    apply Text.not_mem_of_mem_split (s := n.text.toList)
    rw [split_text]
    exact List.mem_map_of_mem member

theorem split_textOf (registry owner name : String) :
    Text.split '/' (textOf registry owner name).toList =
      Text.split '/' registry.toList ++ Text.split '/' owner.toList ++
        Text.split '/' name.toList := by
  have chars : (textOf registry owner name).toList =
      registry.toList ++ '/' :: (owner.toList ++ '/' :: name.toList) := by
    simp [textOf, String.toList_append]
  rw [chars, Text.split_append, Text.split_append, List.append_assoc]

/-- A text with one part is that part. -/
theorem eq_of_split_eq_singleton {t : String}
    (alone : [t.toList] = Text.split '/' s.toList) : s = t := by
  have whole : Text.joined '/' (Text.split '/' s.toList) = s.toList := Text.joined_split _
  rw [← alone] at whole
  exact (String.toList_injective whole).symm

/-- Three texts that have the text of a full name are its parts, although texts may hold slashes
themselves. -/
theorem textOf_eq_text_iff : textOf registry owner name = n.text ↔
    registry = n.registry ∧ owner = n.owner ∧ name = n.name := by
  constructor
  · intro same
    have parts : [n.registry.toList] ++ [n.owner.toList] ++ [n.name.toList] =
        Text.split '/' registry.toList ++ Text.split '/' owner.toList ++
          Text.split '/' name.toList := by
      rw [← split_textOf, same, split_text]
      rfl
    -- Each of the texts has a part at least, so none has a second one.
    have filled : ∀ s : List Char, 0 < (Text.split '/' s).length := fun s =>
      List.length_pos_iff.mpr (Text.split_ne_nil s)
    have count := congrArg List.length parts
    simp only [List.length_append, List.length_singleton] at count
    have one : (Text.split '/' registry.toList).length = 1 ∧
        (Text.split '/' owner.toList).length = 1 := by
      have := filled registry.toList
      have := filled owner.toList
      have := filled name.toList
      omega
    obtain ⟨firstTwo, third⟩ := List.append_inj parts (by simp [one])
    obtain ⟨first, second⟩ := List.append_inj firstTwo one.1.symm
    exact ⟨eq_of_split_eq_singleton first, eq_of_split_eq_singleton second,
      eq_of_split_eq_singleton third⟩
  · rintro ⟨rfl, rfl, rfl⟩
    rfl

/-- Three texts make up a full name exactly if their text spells it out. -/
theorem ofParts_eq_ok_iff_parse :
    ofParts registry owner name = .ok n ↔ parse (textOf registry owner name) = .ok n := by
  rw [ofParts_eq_ok_iff, parse_eq_ok_iff, textOf_eq_text_iff]

/-- A text spells out a full name exactly if it has three parts that are filled and hold no
blank. -/
theorem exists_parse_iff : (∃ n, parse s = .ok n) ↔
    ∃ registry owner name, HasParts s [registry, owner, name] ∧
      ∀ part ∈ [registry, owner, name], part ≠ "" ∧ ∀ c ∈ part.toList, Text.isBlank c = false := by
  constructor
  · rintro ⟨n, read⟩
    obtain rfl := parse_eq_ok_iff.mp read
    refine ⟨n.registry, n.owner, n.name, hasParts_text n, ?_⟩
    have filled : ∀ {part : String}, IsNamePart part →
        part ≠ "" ∧ ∀ c ∈ part.toList, Text.isBlank c = false := fun valid =>
      ⟨valid.1, fun c member => (valid.2 c member).2⟩
    simp only [List.forall_mem_cons]
    exact ⟨filled n.registry_valid, filled n.owner_valid, filled n.name_valid, nofun⟩
  · rintro ⟨registry, owner, name, parts, filled⟩
    have valid : ∀ part ∈ [registry, owner, name], IsNamePart part := by
      intro part member
      refine ⟨(filled part member).1, fun c inside => ⟨?_, (filled part member).2 c inside⟩⟩
      rintro rfl
      exact parts.slashless part member inside
    simp only [List.forall_mem_cons] at valid
    obtain ⟨registry_valid, owner_valid, name_valid, -⟩ := valid
    let n : FullName := ⟨registry, owner, name, registry_valid, owner_valid, name_valid⟩
    refine ⟨n, parse_eq_ok_iff.mpr (String.toList_injective ?_)⟩
    rw [parts.chars, (hasParts_text n).chars]

/-- Full names and their texts are in bijection: three texts make up the name that their text spells
out, a text spells out a name exactly if it has three filled parts without blanks, and reading and
writing undo each other. So the ids of named modules are equal exactly if all parts of the names
are. -/
theorem texts_determine_names :
    (∀ registry owner name n,
      ofParts registry owner name = .ok n ↔ parse (textOf registry owner name) = .ok n) ∧
    (∀ s, (∃ n, parse s = .ok n) ↔
      ∃ registry owner name, HasParts s [registry, owner, name] ∧
        ∀ part ∈ [registry, owner, name],
          part ≠ "" ∧ ∀ c ∈ part.toList, Text.isBlank c = false) ∧
    (∀ s n, parse s = .ok n → n.text = s) ∧
    (∀ n, parse n.text = .ok n) ∧
    ∀ (a b : Module) m n, a.fullName = some m → b.fullName = some n →
      (a.opaqueId = b.opaqueId ↔
        m.registry = n.registry ∧ m.owner = n.owner ∧ m.name = n.name) := by
  refine ⟨fun _ _ _ _ => ofParts_eq_ok_iff_parse, fun _ => exists_parse_iff, ?_, parse_text, ?_⟩
  · intro s n read
    exact (parse_eq_ok_iff.mp read).symm
  · intro a b m n named otherNamed
    have ids : a.opaqueId = m.text ∧ b.opaqueId = n.text := by
      simp [Module.opaqueId, named, otherNamed]
    rw [ids.1, ids.2]
    exact textOf_eq_text_iff

/-- A name is read from its text, and a module that is edited under it has the id of one that was
published under it, but not that of a module with another name. -/
theorem texts_determine_names_of_three_modules :
    let pets : FullName := ⟨"r.dev:8080", "acme", "pets", by decide, by decide, by decide⟩
    let dogs : FullName := ⟨"r.dev:8080", "acme", "dogs", by decide, by decide, by decide⟩
    let source := MemoryBucket.empty.toBucket
    let edited := Module.edited "proto" source (some pets) true
    let published := Module.published pets ⟨7⟩ source none
    let other := Module.edited "proto" source (some dogs) true
    parse "r.dev:8080/acme/pets" = .ok pets ∧ pets.text = "r.dev:8080/acme/pets" ∧
      edited.fullName = some pets ∧ published.fullName = some pets ∧
      other.fullName = some dogs ∧
      edited.opaqueId = published.opaqueId ∧ edited.opaqueId ≠ other.opaqueId := by
  intro pets dogs source edited published other
  obtain ⟨-, -, written, -, told⟩ := texts_determine_names
  have read : parse "r.dev:8080/acme/pets" = .ok pets := by decide
  refine ⟨read, written _ _ read, rfl, rfl, rfl, ?_, fun same => ?_⟩
  · exact (told edited published pets pets rfl rfl).mpr ⟨rfl, rfl, rfl⟩
  · have agree := (told edited other pets dogs rfl rfl).mp same
    exact absurd agree.2.2 (by decide)

end SchemaModules.FullName
