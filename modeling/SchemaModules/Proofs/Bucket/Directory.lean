import Mathlib.Data.List.Nodup
import SchemaModules.Bucket.Directory
import SchemaModules.Proofs.Path.Composition

/-! # What is listed of a directory

Where the entries of every directory have names of their own, the files below it have paths of their
own (`filePaths_spec`).
-/

namespace SchemaModules

open SchemaModules.Path (IsFile)
open Segment (IsName)

namespace FileTree

mutual

/-- In every directory of a tree, the entries have names of their own. -/
def IsProper : FileTree → Prop
  | .file _ => True
  | .directory entries => AreProper entries

/-- Entries have names of their own, and below each of them they do. -/
def AreProper : List (String × FileTree) → Prop
  | [] => True
  | (name, t) :: entries =>
      IsName name.toList ∧ name ∉ entries.map Prod.fst ∧ t.IsProper ∧ AreProper entries

end

/-- The path along names. -/
def along (names : List Segment) : String := String.ofList (Text.joined '/' names)

variable {names others : List Segment}

theorem split_along (some : names ≠ []) (valid : ∀ name ∈ names, IsName name) :
    Text.split '/' (along names).toList = names := by
  rw [along, String.toList_ofList]
  exact Text.split_joined names some fun name member => (valid name member).2.2.2

theorem isFile_along (some : names ≠ []) (valid : ∀ name ∈ names, IsName name) :
    IsFile (along names) := by
  rw [Path.isFile_iff_split, split_along some valid]
  exact valid

theorem along_injective (some : names ≠ []) (valid : ∀ name ∈ names, IsName name)
    (others_some : others ≠ []) (others_valid : ∀ name ∈ others, IsName name)
    (same : along names = along others) : names = others := by
  rw [← split_along some valid, same, split_along others_some others_valid]

/-- The path of an entry, as a directory gives it. -/
theorem along_snoc (valid : ∀ name ∈ names, IsName name) (name : String) :
    along (names ++ [name.toList]) =
      if along names = "" then name else along names ++ "/" ++ name := by
  cases names with
  | nil => simp [along, Text.joined]
  | cons first rest =>
      have some : first :: rest ≠ [] := List.cons_ne_nil _ _
      have filled : along (first :: rest) ≠ "" := by
        intro empty
        have split := split_along some valid
        rw [empty] at split
        exact (valid [] (split ▸ List.mem_cons_self)).1 rfl
      rw [if_neg filled]
      apply String.toList_injective
      have chars : Text.joined '/' (first :: rest ++ [name.toList]) =
          Text.joined '/' (first :: rest) ++ '/' :: name.toList :=
        Text.joined_append some (List.cons_ne_nil _ _)
      rw [List.cons_append] at chars
      simp [along, chars]

theorem allNames {first : Segment} {rest : List Segment} (valid : ∀ name ∈ names, IsName name)
    (named : IsName first) (restValid : ∀ name ∈ rest, IsName name) :
    ∀ name ∈ names ++ first :: rest, IsName name := by
  intro name member
  rcases List.mem_append.mp member with before | after
  · exact valid name before
  · exact List.forall_mem_cons.mpr ⟨named, restValid⟩ name after

mutual

/-- The files of a tree that lies along names have paths of their own, which lead along these. -/
theorem filePaths_spec (t : FileTree) (proper : t.IsProper) (names : List Segment)
    (valid : ∀ name ∈ names, IsName name) :
    (t.filePaths (along names)).Nodup ∧ ∀ path ∈ t.filePaths (along names),
      ∃ rest, (∀ name ∈ rest, IsName name) ∧ path = along (names ++ rest) := by
  cases t with
  | file content =>
      refine ⟨List.nodup_cons.mpr ⟨List.not_mem_nil, .nil⟩, fun path member => ⟨[], ?_, ?_⟩⟩
      · exact fun _ impossible => absurd impossible List.not_mem_nil
      · rw [List.append_nil]
        exact List.mem_singleton.mp member
  | directory entries =>
      obtain ⟨nodup, below⟩ := entryPaths_spec entries proper names valid
      refine ⟨nodup, fun path member => ?_⟩
      obtain ⟨name, -, named, rest, restValid, same⟩ := below path member
      exact ⟨name.toList :: rest, List.forall_mem_cons.mpr ⟨named, restValid⟩, same⟩

/-- The files below entries of a directory that lies along names have paths of their own, which lead
along these and the name of an entry. -/
theorem entryPaths_spec (entries : List (String × FileTree)) (proper : AreProper entries)
    (names : List Segment) (valid : ∀ name ∈ names, IsName name) :
    (entryPaths (along names) entries).Nodup ∧ ∀ path ∈ entryPaths (along names) entries,
      ∃ name ∈ entries.map Prod.fst, IsName name.toList ∧ ∃ rest, (∀ name ∈ rest, IsName name) ∧
        path = along (names ++ name.toList :: rest) := by
  cases entries with
  | nil => exact ⟨.nil, fun _ impossible => absurd impossible List.not_mem_nil⟩
  | cons entry entries =>
      obtain ⟨name, t⟩ := entry
      obtain ⟨named, own, here, others⟩ := proper
      have extended : ∀ n ∈ names ++ [name.toList], IsName n :=
        allNames valid named fun _ impossible => nomatch impossible
      obtain ⟨nodup, below⟩ := filePaths_spec t here (names ++ [name.toList]) extended
      obtain ⟨laterNodup, later⟩ := entryPaths_spec entries others names valid
      rw [along_snoc valid] at nodup below
      refine ⟨List.nodup_append.mpr ⟨nodup, laterNodup, ?_⟩, fun path member => ?_⟩
      · -- Paths through different names differ in these names.
        rintro path first _ second rfl
        obtain ⟨rest, restValid, same⟩ := below path first
        obtain ⟨other, among, otherNamed, otherRest, otherValid, again⟩ := later path second
        rw [List.append_assoc] at same
        have equal := along_injective (by simp) (allNames valid named restValid) (by simp)
          (allNames valid otherNamed otherValid) (same.symm.trans again)
        have heads := List.append_cancel_left equal
        rw [List.cons.injEq, String.toList_inj] at heads
        exact own (heads.1 ▸ among)
      · rcases List.mem_append.mp member with first | second
        · obtain ⟨rest, restValid, same⟩ := below path first
          rw [List.append_assoc] at same
          exact ⟨name, List.mem_cons_self, named, rest, restValid, same⟩
        · obtain ⟨other, among, rest⟩ := later path second
          exact ⟨other, List.mem_cons_of_mem _ among, rest⟩

end

/-- The files of a directory have paths of their own, which are those of files. -/
theorem paths_of_directory {entries : List (String × FileTree)} (proper : AreProper entries) :
    ((directory entries).filePaths "").Nodup ∧
      ∀ path ∈ (directory entries).filePaths "", IsFile path := by
  have none : ∀ name ∈ ([] : List Segment), IsName name := fun _ impossible => nomatch impossible
  obtain ⟨nodup, below⟩ := entryPaths_spec entries proper [] none
  refine ⟨nodup, fun path member => ?_⟩
  obtain ⟨name, -, named, rest, restValid, rfl⟩ := below path member
  exact isFile_along (List.cons_ne_nil _ _) (List.forall_mem_cons.mpr ⟨named, restValid⟩)

end FileTree

end SchemaModules
