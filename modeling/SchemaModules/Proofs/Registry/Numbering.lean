import Mathlib.Order.Nat
import SchemaModules.Proofs.Identifier.CommitId
import SchemaModules.Proofs.Registry.Reachable

/-! # Ids that registries hand out

Every id that registries keep is one that they handed out (`Reachable.numbered`), so the ones to
come are new (`idText_ne_of_keeps`). The counter has as many bits as an id: a run in which it passes
them is none of a real registry (`InRange`).
-/

namespace SchemaModules

namespace Store

/-- An id was handed out. -/
def Issued (s : Store) (id : String) : Prop := ∃ n, 0 < n ∧ n < s.nextId ∧ id = idText n

/-- An id is kept: as that of a module, of a commit or the module of one, of an organization, or of
the module or the commit of a label. -/
def Keeps (s : Store) (id : String) : Prop :=
  s.modules.Any (fun _ module => module.id = id) ∨
    s.commits.Any (fun commitId commit => commitId = id ∨ commit.moduleId = id) ∨
    s.organizations.Any (fun _ organization => organization.id = id) ∨
    s.labels.Any (fun place commitId => place.moduleId = id ∨ commitId = id)

/-- Ids were handed out from one on, and all that are kept are among them. -/
structure Numbered (s : Store) : Prop where
  positive : 0 < s.nextId
  issued : ∀ id, s.Keeps id → s.Issued id

/-- The counter of ids has room for them all. -/
def InRange (s : Store) : Prop := s.nextId < 2 ^ 128

instance (s : Store) : Decidable s.InRange := inferInstanceAs (Decidable (s.nextId < 2 ^ 128))

variable {s t : Store} {registry id : String}

theorem Issued.mono (issued : s.Issued id) (later : s.nextId ≤ t.nextId) : t.Issued id := by
  obtain ⟨n, positive, before, rfl⟩ := issued
  exact ⟨n, positive, before.trans_le later, rfl⟩

theorem Change.nextId_le (change : Change s t) : s.nextId ≤ t.nextId := by
  cases change with
  | addModule => exact Nat.le_succ _
  | addCommit => exact Nat.le_succ _
  | setLabel => exact le_rfl
  | setState => exact le_rfl
  | addOrganization => exact Nat.le_succ _
  | eraseOrganization => exact le_rfl

theorem Changes.nextId_le (changes : s.Changes t) : s.nextId ≤ t.nextId := by
  induction changes with
  | refl => exact le_rfl
  | tail _ change ih => exact ih.trans change.nextId_le

theorem keeps_of_hasModule (kept : s.HasModule registry id) : s.Keeps id := by
  obtain ⟨place, module, found, -, same⟩ := kept
  exact .inl ⟨place, module, found, same⟩

/-- A change keeps no other ids than before but the next one, which is then handed out. -/
theorem Change.keeps (change : Change s t) (kept : t.Keeps id) :
    s.Keeps id ∨ id = idText s.nextId ∧ s.nextId < t.nextId := by
  cases change with
  | addModule registry new =>
      rcases kept with modules | others
      · rcases SortedMap.any_of_insert modules with added | earlier
        · exact .inr ⟨added.symm, Nat.lt_succ_self _⟩
        · exact .inl (.inl earlier)
      · exact .inl (.inr others)
  | addCommit module digest =>
      rcases kept with modules | commits | others
      · exact .inl (.inl modules)
      · rcases SortedMap.any_of_insert commits with (added | same) | earlier
        · exact .inr ⟨added.symm, Nat.lt_succ_self _⟩
        · exact .inl (same ▸ keeps_of_hasModule module)
        · exact .inl (.inr (.inl earlier))
      · exact .inl (.inr (.inr others))
  | setLabel module made same name =>
      rcases kept with modules | commits | organizations | labels
      · exact .inl (.inl modules)
      · exact .inl (.inr (.inl commits))
      · exact .inl (.inr (.inr (.inl organizations)))
      · rcases SortedMap.any_of_insert labels with (owner | target) | earlier
        · exact .inl (owner ▸ keeps_of_hasModule module)
        · exact .inl (.inr (.inl ⟨_, _, made, .inl target⟩))
        · exact .inl (.inr (.inr (.inr earlier)))
  | setState found state =>
      rcases kept with modules | others
      · rcases SortedMap.any_of_insert modules with changed | earlier
        · exact .inl (.inl ⟨_, _, found, changed⟩)
        · exact .inl (.inl earlier)
      · exact .inl (.inr others)
  | addOrganization registry name =>
      rcases kept with modules | commits | organizations | labels
      · exact .inl (.inl modules)
      · exact .inl (.inr (.inl commits))
      · rcases SortedMap.any_of_insert organizations with added | earlier
        · exact .inr ⟨added.symm, Nat.lt_succ_self _⟩
        · exact .inl (.inr (.inr (.inl earlier)))
      · exact .inl (.inr (.inr (.inr labels)))
  | eraseOrganization place =>
      rcases kept with modules | commits | organizations | labels
      · exact .inl (.inl modules)
      · exact .inl (.inr (.inl commits))
      · exact .inl (.inr (.inr (.inl (SortedMap.any_of_erase organizations))))
      · exact .inl (.inr (.inr (.inr labels)))

theorem numbered_empty : empty.Numbered where
  positive := Nat.one_pos
  issued id kept := by
    rcases kept with ⟨_, _, found, -⟩ | ⟨_, _, found, -⟩ | ⟨_, _, found, -⟩ | ⟨_, _, found, -⟩
    all_goals cases found

theorem Numbered.change (numbered : s.Numbered) (change : Change s t) : t.Numbered where
  positive := numbered.positive.trans_le change.nextId_le
  issued id kept := by
    rcases change.keeps kept with earlier | ⟨rfl, handed⟩
    · exact (numbered.issued id earlier).mono change.nextId_le
    · exact ⟨s.nextId, numbered.positive, handed, rfl⟩

theorem Numbered.changes (numbered : s.Numbered) (changes : s.Changes t) : t.Numbered := by
  induction changes with
  | refl => exact numbered
  | tail _ change ih => exact ih.change change

/-- An id that is yet to be handed out is not kept. -/
theorem Numbered.idText_ne_of_keeps (numbered : s.Numbered) {n : Nat} (next : s.nextId ≤ n)
    (room : n < 2 ^ 128) (kept : s.Keeps id) : idText n ≠ id := by
  obtain ⟨m, -, before, rfl⟩ := numbered.issued id kept
  intro same
  have equal := idText_injective room (before.trans_le next |>.trans room) same
  exact absurd before (equal ▸ next).not_gt

end Store

/-- All ids that registries keep were handed out by them. -/
theorem MemoryRegistry.Reachable.numbered {r : MemoryRegistry} (reachable : r.Reachable) :
    r.store.Numbered :=
  Store.numbered_empty.changes reachable.store_changes

end SchemaModules
