import Mathlib.Data.List.Nodup
import Mathlib.Data.List.Perm.Basic
import SchemaModules.Digest

/-! # What a manifest tells about its files

A line of a manifest is a hash of fixed length, two blanks and a path up to the line feed. The path
is written as it is, so a path that holds a line feed can run over what another file set writes as
the start of the next line (`Overruns`). Nothing else makes two lists of lines read the same
(`lines_cases`).
-/

namespace SchemaModules

theorem Text.Utf8.encode_injective {s t : String} (same : encode s = encode t) : s = t := by
  have bytes : s.toList.utf8Encode = t.toList.utf8Encode := congrArg List.toByteArray same
  have chars := congrArg ByteArray.utf8Decode? bytes
  simp only [List.utf8Decode?_utf8Encode, Option.some.injEq] at chars
  exact String.toList_injective (congrArg Array.toList chars)

theorem Text.Hex.encode_injective {left right : Bytes} (same : encode left = encode right) :
    left = right := by
  have decoded := congrArg decode? same
  rw [decode?_encode, decode?_encode] at decoded
  exact Option.some.inj decoded

theorem Text.Hex.exists_digit_of_mem_encode {bytes : Bytes} {c : Char} (member : c ∈ encode bytes) :
    ∃ n < 16, digit n = c := by
  obtain ⟨b, -, here⟩ := List.mem_flatMap.mp member
  have small : b.toNat < 256 := b.toNat_lt
  rcases List.mem_cons.mp here with high | low
  · exact ⟨b.toNat / 16, by omega, high.symm⟩
  · exact ⟨b.toNat % 16, by omega, (List.mem_singleton.mp low).symm⟩

namespace Digest

/-- What the hashes of a manifest are like: of one length, in one line and without slashes. -/
structure IsHash (hash : String) : Prop where
  length : hash.toList.length = 64
  in_line : '\n' ∉ hash.toList
  slashless : '/' ∉ hash.toList

theorem isHash_fileHash (content : Bytes) : IsHash (fileHash content) := by
  have feed : ∀ n < 16, Text.Hex.digit n ≠ '\n' := by decide
  have slash : ∀ n < 16, Text.Hex.digit n ≠ '/' := by decide
  refine ⟨by simp [fileHash], ?_, ?_⟩
  · intro member
    obtain ⟨n, small, digit⟩ := Text.Hex.exists_digit_of_mem_encode (by simpa [fileHash] using member)
    exact feed n small digit
  · intro member
    obtain ⟨n, small, digit⟩ := Text.Hex.exists_digit_of_mem_encode (by simpa [fileHash] using member)
    exact slash n small digit

/-! ## Lines -/

/-- The lines of files one after another. -/
def lines (hashes : List (String × String)) : List Char :=
  hashes.flatMap fun file => (manifestLine file.1 file.2).toList

theorem toList_manifest (hashes : List (String × String)) :
    (manifest hashes).toList = lines (sortByPath hashes) := by
  simp [manifest, lines, String.toList_join, List.flatMap_map]

theorem lines_cons (file : String × String) (rest : List (String × String)) :
    lines (file :: rest) =
      file.2.toList ++ (' ' :: ' ' :: (file.1.toList ++ '\n' :: lines rest)) := by
  simp [lines, manifestLine]

/-- A file of the second list has a path that goes on, after the path that the first list has in its
place, over the line feed and the start of the first list's next line. -/
def Overruns (left right : List (String × String)) : Prop :=
  ∃ before file next after other others rest,
    left = before ++ file :: next :: after ∧ right = before ++ other :: others ∧
      other.1 = file.1 ++ "\n" ++ next.2 ++ "  " ++ rest

theorem Overruns.cons {left right : List (String × String)} (overrun : Overruns left right)
    (file : String × String) : Overruns (file :: left) (file :: right) := by
  obtain ⟨before, line, next, after, other, others, rest, rfl, rfl, path⟩ := overrun
  exact ⟨file :: before, line, next, after, other, others, rest, rfl, rfl, path⟩

/-- Lists of lines that overrun differ. -/
theorem Overruns.ne {left right : List (String × String)} (overrun : Overruns left right) :
    left ≠ right := by
  obtain ⟨before, file, next, after, other, others, rest, rfl, rfl, path⟩ := overrun
  intro same
  have here := (List.cons.inj (List.append_cancel_left same)).1
  have size := congrArg (fun path => path.toList.length) path
  simp only [← here, String.toList_append, List.length_append] at size
  have feed : "\n".toList.length = 1 := rfl
  omega

/-- Text without a line feed that starts another text ends before the first line feed of that. -/
theorem prefix_of_append_line_feed {start rest before after : List Char}
    (inLine : '\n' ∉ start) (same : start ++ rest = before ++ '\n' :: after) : start <+: before := by
  rcases List.append_eq_append_iff.mp same with ⟨more, longer, -⟩ | ⟨more, longer, remaining⟩
  · exact ⟨more, longer.symm⟩
  · cases more with
    | nil => exact ⟨[], by simpa using longer⟩
    | cons c more =>
        obtain rfl := (List.cons.inj remaining).1
        exact absurd (longer ▸ List.mem_append_right _ List.mem_cons_self) inLine

/-- Of two paths before lines that go on alike, the longer is the shorter or overruns it. -/
theorem path_cases {file other : String × String} {rest others : List (String × String)}
    (hashes : ∀ line ∈ rest, IsHash line.2) (start : file.1.toList <+: other.1.toList)
    (same : file.1.toList ++ '\n' :: lines rest = other.1.toList ++ '\n' :: lines others) :
    file.1 = other.1 ∧ lines rest = lines others ∨
      Overruns (file :: rest) (other :: others) := by
  obtain ⟨more, longer⟩ := start
  rw [← longer, List.append_assoc] at same
  have remaining := List.append_cancel_left same
  cases more with
  | nil =>
      refine .inl ⟨String.toList_injective (by simpa using longer), ?_⟩
      exact (List.cons.inj remaining).2
  | cons c more =>
      obtain ⟨rfl, remaining⟩ := List.cons.inj remaining
      cases rest with
      | nil => simp [lines] at remaining
      | cons next after =>
          rw [lines_cons] at remaining
          have inLine : '\n' ∉ next.2.toList ++ [' ', ' '] := by
            have := (hashes next List.mem_cons_self).in_line
            simp [this]
          have split : (next.2.toList ++ [' ', ' ']) ++ (next.1.toList ++ '\n' :: lines after) =
              more ++ '\n' :: lines others := by simpa using remaining
          obtain ⟨path, within⟩ := prefix_of_append_line_feed inLine split
          refine .inr ⟨[], file, next, after, other, others, String.ofList path, rfl, rfl, ?_⟩
          apply String.toList_injective
          simp [← longer, ← within]

/-- Lists of lines that read the same are the same, or one overruns the other. -/
theorem lines_cases {left right : List (String × String)} (hashesLeft : ∀ line ∈ left, IsHash line.2)
    (hashesRight : ∀ line ∈ right, IsHash line.2) (same : lines left = lines right) :
    left = right ∨ Overruns left right ∨ Overruns right left := by
  induction left generalizing right with
  | nil =>
      cases right with
      | nil => exact .inl rfl
      | cons other others => simp [lines, manifestLine] at same
  | cons file rest ih =>
      cases right with
      | nil => simp [lines, manifestLine] at same
      | cons other others =>
          obtain ⟨hash, hashesRest⟩ := List.forall_mem_cons.mp hashesLeft
          obtain ⟨otherHash, hashesOthers⟩ := List.forall_mem_cons.mp hashesRight
          rw [lines_cons, lines_cons] at same
          obtain ⟨equalHash, equal⟩ := List.append_inj same (hash.length.trans otherHash.length.symm)
          have paths := (List.cons.inj (List.cons.inj equal).2).2
          have further : file.1 = other.1 ∧ lines rest = lines others ∨
              Overruns (file :: rest) (other :: others) ∨
              Overruns (other :: others) (file :: rest) := by
            rcases List.append_eq_append_iff.mp paths with ⟨more, longer, -⟩ | ⟨more, longer, -⟩
            · exact (path_cases hashesRest ⟨more, longer.symm⟩ paths).imp id .inl
            · refine (path_cases hashesOthers ⟨more, longer.symm⟩ paths.symm).imp ?_ .inr
              exact fun ⟨path, later⟩ => ⟨path.symm, later.symm⟩
          rcases further with ⟨path, later⟩ | overrun
          · have here : file = other := Prod.ext path (String.toList_injective equalHash)
            subst here
            rcases ih hashesRest hashesOthers later with rfl | overrun | overrun
            · exact .inl rfl
            · exact .inr (.inl (overrun.cons file))
            · exact .inr (.inr (overrun.cons file))
          · exact .inr overrun

/-! ## The order of lines -/

section Order

variable {α : Type} {left right : List (String × α)}

theorem sortByPath_perm (files : List (String × α)) : (sortByPath files).Perm files :=
  List.mergeSort_perm _ _

theorem pairwise_sortByPath (files : List (String × α)) :
    (sortByPath files).Pairwise fun a b => a.1 ≤ b.1 := by
  have trans : ∀ a b c : String × α, decide (a.1 ≤ b.1) = true → decide (b.1 ≤ c.1) = true →
      decide (a.1 ≤ c.1) = true := by
    intro a b c
    simpa using String.le_trans
  have total : ∀ a b : String × α, (decide (a.1 ≤ b.1) || decide (b.1 ≤ a.1)) = true := by
    intro a b
    simpa using String.le_total a.1 b.1
  exact (List.pairwise_mergeSort trans total files).imp fun before => by simpa using before

/-- Files that are in order stay as they are. -/
theorem sortByPath_of_pairwise {files : List (String × α)}
    (sorted : files.Pairwise fun a b => a.1 ≤ b.1) : sortByPath files = files :=
  List.mergeSort_of_pairwise (sorted.imp fun before => by simpa using before)

/-- Of files with distinct paths, two with one path are one. -/
theorem eq_of_path {files : List (String × α)} (distinct : (files.map Prod.fst).Nodup)
    {a b : String × α} (first : a ∈ files) (second : b ∈ files) (path : a.1 = b.1) : a = b :=
  List.inj_on_of_nodup_map distinct first second path

/-- Files with distinct paths come in the same order however they are given. -/
theorem sortByPath_eq_iff_perm (distinct : (left.map Prod.fst).Nodup) :
    sortByPath left = sortByPath right ↔ left.Perm right := by
  constructor
  · intro same
    exact (sortByPath_perm left).symm.trans (same ▸ sortByPath_perm right)
  · intro same
    refine List.Perm.eq_of_pairwise ?_ (pairwise_sortByPath left) (pairwise_sortByPath right) ?_
    · intro a b first second before after
      have inLeft := (sortByPath_perm left).mem_iff.mp first
      have inRight := same.mem_iff.mpr ((sortByPath_perm right).mem_iff.mp second)
      exact eq_of_path distinct inLeft inRight (String.le_antisymm before after)
    · exact (sortByPath_perm left).trans (same.trans (sortByPath_perm right).symm)

end Order

/-! ## Files with one digest -/

/-- The paths of files with the hashes of their contents. -/
def hashed (files : List (String × Bytes)) : List (String × String) :=
  files.map fun file => (file.1, fileHash file.2)

/-- The bytes that the digest of files is the hash of. -/
def manifestBytes (files : List (String × Bytes)) : Bytes :=
  Text.Utf8.encode (manifest (hashed files))

/-- The bytes that are hashed on the way to the digests of two file sets. -/
def hashedBytes (left right : List (String × Bytes)) : List Bytes :=
  left.map Prod.snd ++ right.map Prod.snd ++ [manifestBytes left, manifestBytes right]

/-- Two different byte strings of a list have one hash. -/
def Collide (strings : List Bytes) : Prop :=
  ∃ s ∈ strings, ∃ t ∈ strings, s ≠ t ∧ fileHash s = fileHash t

variable {left right : List (String × Bytes)}

theorem map_fst_hashed (files : List (String × Bytes)) :
    (hashed files).map Prod.fst = files.map Prod.fst := by
  simp [hashed]

/-- The digest of files does not depend on their order. -/
theorem ofFiles_perm (distinct : (left.map Prod.fst).Nodup) (same : left.Perm right) :
    ofFiles left = ofFiles right := by
  have hashes : (hashed left).Perm (hashed right) := same.map _
  have sorted := (sortByPath_eq_iff_perm (by rwa [map_fst_hashed])).mpr hashes
  have read : manifest (hashed left) = manifest (hashed right) := by
    simp only [manifest, sorted]
  change ofFileHashes (hashed left) = ofFileHashes (hashed right)
  simp only [ofFileHashes, read]

/-- The manifest of files has the lines of the sorted files. -/
theorem toList_manifest_hashed (distinct : (left.map Prod.fst).Nodup) :
    (manifest (hashed left)).toList = lines (hashed (sortByPath left)) := by
  have perm : (hashed (sortByPath left)).Perm (hashed left) := (sortByPath_perm left).map _
  have sorted : (hashed (sortByPath left)).Pairwise fun a b => a.1 ≤ b.1 :=
    List.pairwise_map.mpr (pairwise_sortByPath left)
  rw [toList_manifest, ← (sortByPath_eq_iff_perm (by
    rwa [(perm.map Prod.fst).nodup_iff, map_fst_hashed])).mpr perm, sortByPath_of_pairwise sorted]

theorem isHash_of_mem_sorted (files : List (String × Bytes)) :
    ∀ line ∈ sortByPath (hashed files), IsHash line.2 := by
  intro line member
  obtain ⟨file, -, rfl⟩ := List.mem_map.mp ((sortByPath_perm _).mem_iff.mp member)
  exact isHash_fileHash file.2

/-- Files with the same paths and hashes are the same, or two of their contents collide. -/
theorem perm_or_collide (distinctLeft : (left.map Prod.fst).Nodup)
    (distinctRight : (right.map Prod.fst).Nodup) (same : (hashed left).Perm (hashed right)) :
    left.Perm right ∨ Collide (left.map Prod.snd ++ right.map Prod.snd) := by
  by_cases collide : Collide (left.map Prod.snd ++ right.map Prod.snd)
  · exact .inr collide
  · have equal : ∀ a ∈ left, ∀ b ∈ right, a.1 = b.1 → fileHash a.2 = fileHash b.2 → a = b := by
      intro a first b second path hash
      refine Prod.ext path (by_contra fun differ => collide ?_)
      exact ⟨a.2, List.mem_append_left _ (List.mem_map_of_mem first), b.2,
        List.mem_append_right _ (List.mem_map_of_mem second), differ, hash⟩
    refine .inl ((List.perm_ext_iff_of_nodup distinctLeft.of_map distinctRight.of_map).mpr ?_)
    intro file
    constructor
    · intro member
      have hash := same.mem_iff.mp (List.mem_map_of_mem member)
      obtain ⟨other, otherMember, pair⟩ := List.mem_map.mp hash
      obtain ⟨path, content⟩ := Prod.mk.inj pair
      rw [equal file member other otherMember path.symm content.symm]
      exact otherMember
    · intro member
      have hash := same.mem_iff.mpr (List.mem_map_of_mem member)
      obtain ⟨other, otherMember, pair⟩ := List.mem_map.mp hash
      obtain ⟨path, content⟩ := Prod.mk.inj pair
      rw [← equal other otherMember file member path content]
      exact otherMember

/-- Where nothing collides, file sets with one digest are the same exactly if neither manifest
overruns the other. -/
theorem collide_or_perm_iff (distinctLeft : (left.map Prod.fst).Nodup)
    (distinctRight : (right.map Prod.fst).Nodup) (same : ofFiles left = ofFiles right) :
    Collide (hashedBytes left right) ∨
      (left.Perm right ↔
        ¬ Overruns (sortByPath (hashed left)) (sortByPath (hashed right)) ∧
          ¬ Overruns (sortByPath (hashed right)) (sortByPath (hashed left))) := by
  by_cases bytes : manifestBytes left = manifestBytes right
  · have read : lines (sortByPath (hashed left)) = lines (sortByPath (hashed right)) := by
      rw [← toList_manifest, ← toList_manifest, Text.Utf8.encode_injective bytes]
    by_cases collide : Collide (hashedBytes left right)
    · exact .inl collide
    · refine .inr ⟨?_, ?_⟩
      · intro perm
        have hashes : (hashed left).Perm (hashed right) := perm.map _
        have sorted := (sortByPath_eq_iff_perm (by rwa [map_fst_hashed])).mpr hashes
        exact ⟨fun overrun => overrun.ne sorted, fun overrun => overrun.ne sorted.symm⟩
      · rintro ⟨forth, back⟩
        rcases lines_cases (isHash_of_mem_sorted left) (isHash_of_mem_sorted right) read with
          sorted | overrun | overrun
        · have hashes : (hashed left).Perm (hashed right) :=
            (sortByPath_perm _).symm.trans (sorted ▸ sortByPath_perm _)
          rcases perm_or_collide distinctLeft distinctRight hashes with perm | contents
          · exact perm
          · obtain ⟨s, first, t, second, differ, hash⟩ := contents
            exact absurd ⟨s, List.mem_append_left _ first, t, List.mem_append_left _ second, differ,
              hash⟩ collide
        · exact absurd overrun forth
        · exact absurd overrun back
  · refine .inl ⟨manifestBytes left, ?_, manifestBytes right, ?_, bytes, ?_⟩
    · simp [hashedBytes]
    · simp [hashedBytes]
    · exact congrArg (fun digest => String.ofList (Text.Hex.encode digest.bytes)) same

end Digest

end SchemaModules
