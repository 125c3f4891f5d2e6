import SchemaModules.Identifier.CommitId
import SchemaModules.Proofs.Text.Hex
import SchemaModules.Registry.Store

/-! # Ids as text

The texts of commit ids spell out their ids, and the ids that registries hand out are those texts.
-/

namespace SchemaModules

namespace CommitId

/-- Reading the text of a commit id gives it back. -/
theorem parse_text (id : CommitId) : parse id.text = .ok id := by
  have length : id.text.length = 32 := by
    simp [text, digits]
  have read : Text.Hex.toNat? id.text.toList = some id.value.toNat := by
    rw [text, String.toList_ofList, digits]
    exact Text.Hex.toNat?_ofNat id.value.isLt
  unfold parse
  simp only [length, if_true, Option.bind_some, read]
  rw [BitVec.ofNat_toNat, BitVec.setWidth_eq]

theorem text_injective {a b : CommitId} (same : a.text = b.text) : a = b := by
  have read := parse_text a
  rw [same, parse_text b] at read
  exact (Except.ok.inj read).symm

end CommitId

namespace Store

/-- The commit id of a number. -/
def commitId (n : Nat) : CommitId := ⟨BitVec.ofNat 128 n⟩

variable {m n : Nat}

theorem value_commitId (room : n < 2 ^ 128) : (commitId n).value.toNat = n :=
  Nat.mod_eq_of_lt room

/-- Ids are handed out as the texts of commit ids. -/
theorem text_commitId (room : n < 2 ^ 128) : (commitId n).text = idText n := by
  rw [CommitId.text, CommitId.digits, value_commitId room]
  rfl

theorem commitId_ne_nil (positive : 0 < n) (room : n < 2 ^ 128) : commitId n ≠ CommitId.nil := by
  intro nil
  have zero := congrArg (·.value.toNat) nil
  simp only [value_commitId room] at zero
  exact absurd zero (Nat.pos_iff_ne_zero.mp positive)

theorem idText_injective (first : m < 2 ^ 128) (second : n < 2 ^ 128)
    (same : idText m = idText n) : m = n := by
  rw [← text_commitId first, ← text_commitId second] at same
  have ids := CommitId.text_injective same
  rw [← value_commitId first, ids, value_commitId second]

end Store

end SchemaModules
