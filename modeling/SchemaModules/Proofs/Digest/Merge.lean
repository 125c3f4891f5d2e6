import SchemaModules.Proofs.Digest.Manifest
import SchemaModules.Proofs.Path.Composition

/-! # Files that share their digest

The last two lines of a manifest are also the one line of a file whose path holds a line feed. So
every set of two or more files has another with the same manifest, whatever the hash function does
(`exists_same_manifest`).
-/

namespace SchemaModules

open SchemaModules.Path (IsFile)

/-- Texts one after another have the parts of both, but for the parts that meet. -/
theorem Text.split_append_joined {separator : Char} {s t last head : List Char}
    {before after : List (List Char)} (left : split separator s = before ++ [last])
    (right : split separator t = head :: after) :
    split separator (s ++ t) = before ++ (last ++ head) :: after := by
  induction s generalizing before last with
  | nil =>
      cases before with
      | nil =>
          obtain rfl := List.singleton_inj.mp left
          exact right
      | cons first others => simp [split] at left
  | cons c rest ih =>
      simp only [List.cons_append, split] at left ⊢
      by_cases parted : c = separator
      · rw [if_pos parted] at left ⊢
        cases before with
        | nil => exact absurd (List.cons.inj left).2 (split_ne_nil rest)
        | cons first others =>
            obtain ⟨rfl, later⟩ := List.cons.inj left
            rw [ih later]
            rfl
      · rw [if_neg parted] at left ⊢
        cases parts : split separator rest with
        | nil => exact absurd parts (split_ne_nil rest)
        | cons part others =>
            rw [parts] at left
            cases before with
            | nil =>
                obtain ⟨rfl, rfl⟩ := List.cons.inj left
                rw [@ih part [] parts]
                rfl
            | cons first earlier =>
                obtain ⟨rfl, rfl⟩ := List.cons.inj left
                rw [@ih last (part :: earlier) parts]
                rfl

/-- Text that is no slashes and not only dots joins the paths of two files to that of one. -/
theorem Path.IsFile.join_text {a b between : String} (left : IsFile a) (right : IsFile b)
    (slashless : '/' ∉ between.toList) {c : Char} (inside : c ∈ between.toList) (noDot : c ≠ '.') :
    IsFile (a ++ between ++ b) := by
  rw [Path.isFile_iff_split] at left right ⊢
  have leftParts := (List.dropLast_append_getLast (@Text.split_ne_nil '/' a.toList)).symm
  generalize (Text.split '/' a.toList).dropLast = before at leftParts
  generalize (Text.split '/' a.toList).getLast _ = last at leftParts
  cases rightParts : Text.split '/' b.toList with
  | nil => exact absurd rightParts (Text.split_ne_nil _)
  | cons head after =>
      have first := Text.split_append_joined leftParts (Text.split_of_not_mem _ slashless)
      have whole := Text.split_append_joined first rightParts
      rw [leftParts] at left
      rw [rightParts] at right
      simp only [String.toList_append, whole]
      intro name member
      rcases List.mem_append.mp member with earlier | met
      · exact left name (List.mem_append_left _ earlier)
      · rcases List.mem_cons.mp met with rfl | later
        · have slashLast := (left last (by simp)).2.2.2
          have slashHead := (right head List.mem_cons_self).2.2.2
          have here : c ∈ last ++ between.toList ++ head := by simp [inside]
          refine ⟨List.ne_nil_of_mem here, ?_, ?_, by simp [slashLast, slashless, slashHead]⟩
          · intro dot
            rw [dot] at here
            exact noDot (by simpa [Segment.here] using here)
          · intro dots
            rw [dots] at here
            exact noDot (by simpa [Segment.up] using here)
        · exact right name (List.mem_cons_of_mem _ later)

namespace Digest

/-- The one line that two lines of a manifest make up. -/
def mergedPath (first second : String × Bytes) : String :=
  first.1 ++ ("\n" ++ fileHash second.2 ++ "  ") ++ second.1

theorem isFile_mergedPath {first second : String × Bytes} (left : IsFile first.1)
    (right : IsFile second.1) : IsFile (mergedPath first second) := by
  have slashless := (isHash_fileHash second.2).slashless
  have feed : '\n' ∈ ("\n" ++ fileHash second.2 ++ "  ").toList := by simp
  exact left.join_text right (by simpa using slashless) feed (by decide)

theorem le_mergedPath (first second : String × Bytes) : first.1 ≤ mergedPath first second := by
  change ¬ (mergedPath first second).toList < first.1.toList
  simp only [mergedPath, String.toList_append, List.append_assoc]
  exact List.le_append_left

theorem mergedPath_ne (first second : String × Bytes) : mergedPath first second ≠ first.1 := by
  intro same
  have size := congrArg (fun path => path.toList.length) same
  simp only [mergedPath, String.toList_append, List.length_append,
    (isHash_fileHash second.2).length] at size
  omega

theorem lines_append (left right : List (String × String)) :
    lines (left ++ right) = lines left ++ lines right :=
  List.flatMap_append

/-- A line with a merged path reads as the two lines that it was merged from. -/
theorem lines_merged (first second : String × Bytes) :
    lines (hashed [(mergedPath first second, first.2)]) = lines (hashed [first, second]) := by
  simp [lines, hashed, manifestLine, mergedPath]

theorem exists_last_two {α : Type} {list : List α} (several : 2 ≤ list.length) :
    ∃ front first second, list = front ++ [first, second] := by
  cases reversed : list.reverse with
  | nil =>
      rw [List.reverse_eq_nil_iff] at reversed
      simp [reversed] at several
  | cons second earlier =>
      cases earlier with
      | nil =>
          have single := List.reverse_eq_iff.mp reversed
          simp [single] at several
      | cons first front =>
          refine ⟨front.reverse, first, second, ?_⟩
          simpa using List.reverse_eq_iff.mp reversed

/-- Every set of two or more files has another with the same manifest and no new contents. -/
theorem exists_same_manifest {files : List (String × Bytes)} (distinct : (files.map Prod.fst).Nodup)
    (valid : ∀ file ∈ files, IsFile file.1) (several : 2 ≤ files.length) :
    ∃ others : List (String × Bytes), (others.map Prod.fst).Nodup ∧
      (∀ file ∈ others, IsFile file.1 ∧ file.2 ∈ files.map Prod.snd) ∧
      manifest (hashed others) = manifest (hashed files) ∧ ¬ others.Perm files := by
  have perm := sortByPath_perm files
  obtain ⟨front, first, second, split⟩ := exists_last_two (perm.length_eq ▸ several)
  have sorted := pairwise_sortByPath files
  rw [split] at perm sorted
  have members : ∀ file ∈ front ++ [first, second], file ∈ files := fun file => perm.mem_iff.mp
  obtain ⟨frontSorted, -, beforeLast⟩ := List.pairwise_append.mp sorted
  have before : ∀ file ∈ front, file.1 ≤ first.1 := fun file member =>
    beforeLast file member first List.mem_cons_self
  have firstIn := members first (by simp)
  have secondIn := members second (by simp)
  have apart : ((front ++ [(mergedPath first second, first.2)]).map Prod.fst).Nodup := by
    have frontDistinct : (front.map Prod.fst).Nodup := by
      have whole := (perm.map Prod.fst).nodup_iff.mpr distinct
      rw [List.map_append] at whole
      exact (List.nodup_append.mp whole).1
    rw [List.map_append, List.nodup_append]
    refine ⟨frontDistinct, List.nodup_singleton _, ?_⟩
    intro path member other here same
    obtain ⟨file, among, rfl⟩ := List.mem_map.mp member
    obtain rfl := List.mem_singleton.mp here
    have path : file.1 = mergedPath first second := same
    refine mergedPath_ne first second (String.le_antisymm ?_ (le_mergedPath first second))
    rw [← path]
    exact before file among
  refine ⟨front ++ [(mergedPath first second, first.2)], apart, ?_, ?_, ?_⟩
  · intro file member
    rcases List.mem_append.mp member with earlier | last
    · have among := members file (List.mem_append_left _ earlier)
      exact ⟨valid file among, List.mem_map_of_mem among⟩
    · obtain rfl := List.mem_singleton.mp last
      have content : first.2 ∈ files.map Prod.snd := List.mem_map_of_mem firstIn
      exact ⟨isFile_mergedPath (valid first firstIn) (valid second secondIn), content⟩
  · have inOrder : (front ++ [(mergedPath first second, first.2)]).Pairwise fun a b => a.1 ≤ b.1 := by
      refine List.pairwise_append.mpr ⟨frontSorted, List.pairwise_singleton _ _, ?_⟩
      intro file member other here
      obtain rfl := List.mem_singleton.mp here
      exact String.le_trans (before file member) (le_mergedPath first second)
    apply String.toList_injective
    rw [toList_manifest_hashed apart, toList_manifest_hashed distinct, split,
      sortByPath_of_pairwise inOrder]
    have hashedAppend : ∀ last, hashed (front ++ last) = hashed front ++ hashed last :=
      fun last => List.map_append
    rw [hashedAppend, hashedAppend, lines_append, lines_append, lines_merged]
  · intro same
    have lengths := same.length_eq.trans perm.length_eq.symm
    simp at lengths

end Digest

end SchemaModules
