import SchemaModules.Digest
import SchemaModules.Proofs.Identifier.CommitId
import SchemaModules.Proofs.Outcome

/-! # The forms of ids and digests as text

A commit id is read from its thirty-two digits, together or in dashed groups and in either case, and
from nothing else (`CommitId.parse_eq_ok_iff`), and a digest from its scheme and sixty-four digits
(`Digest.parse_eq_ok_iff`). What was read is written in one form only, without dashes and in lower
case, and this reads back as what it was written for (`forms_determine_ids_and_digests`).
-/

namespace SchemaModules

namespace Text

/-- A text is another one with any of its letters put into upper case. -/
def Raises (s raised : String) : Prop :=
  List.Forall₂ (fun c d => d = c ∨ d = c.toUpper) s.toList raised.toList

/-- Characters in groups of the given sizes, with dashes between the groups. -/
def IsGrouped (sizes : List Nat) (chars s : List Char) : Prop :=
  ∃ groups : List (List Char),
    groups.map List.length = sizes ∧ groups.flatten = chars ∧ s = joined '-' groups

variable {separator : Char} {chars s : List Char} {parts : List (List Char)}

theorem toList_toLower (s : String) : s.toLower.toList = s.toList.map Char.toLower :=
  String.toList_map

theorem map_toLower_of_raises {s raised : String} (raises : Raises s raised)
    (lower : ∀ c ∈ s.toList, c.toLower = c ∧ c.toUpper.toLower = c) :
    raised.toList.map Char.toLower = s.toList := by
  unfold Raises at raises
  generalize s.toList = chars at raises lower
  generalize raised.toList = others at raises
  induction raises with
  | nil => rfl
  | @cons c d chars others here later ih =>
      obtain ⟨⟨same, raised⟩, rest⟩ := List.forall_mem_cons.mp lower
      rw [List.map_cons, ih rest]
      rcases here with rfl | rfl
      · rw [same]
      · rw [raised]

theorem filter_joined (free : ∀ part ∈ parts, separator ∉ part) :
    (joined separator parts).filter (· ≠ separator) = parts.flatten := by
  have kept : ∀ part ∈ parts, part.filter (· ≠ separator) = part := by
    intro part member
    rw [List.filter_eq_self]
    intro c inside
    exact decide_eq_true fun equal => free part member (equal ▸ inside)
  induction parts with
  | nil => rfl
  | cons part others ih =>
      have here := kept part List.mem_cons_self
      have later := ih (fun p member => free p (List.mem_cons_of_mem _ member))
        fun p member => kept p (List.mem_cons_of_mem _ member)
      cases others with
      | nil => simpa [joined] using here
      | cons next others =>
          simp only [joined, List.filter_append, List.flatten_cons] at later ⊢
          rw [here, List.filter_cons_of_neg (by simp), later]

/-- Parts that make up the image of a text are the images of parts that make up the text. -/
theorem exists_joined_of_map {f : Char → Char} (reflects : ∀ c, f c = separator → c = separator)
    (nonempty : parts ≠ []) (whole : s.map f = joined separator parts) :
    ∃ originals : List (List Char),
      originals.map (List.map f) = parts ∧ s = joined separator originals := by
  induction parts generalizing s with
  | nil => exact absurd rfl nonempty
  | cons part others ih =>
      cases others with
      | nil => exact ⟨[s], by rw [List.map_singleton, whole]; rfl, rfl⟩
      | cons next others =>
          obtain ⟨first, rest, rfl, rfl, after⟩ := List.map_eq_append_iff.mp whole
          obtain ⟨c, rest, rfl, between, after⟩ := List.map_eq_cons_iff.mp after
          obtain rfl := reflects c between
          obtain ⟨originals, images, rfl⟩ := ih (List.cons_ne_nil _ _) after
          cases originals with
          | nil => cases images
          | cons second originals =>
              exact ⟨first :: second :: originals, by rw [List.map_cons, images], rfl⟩

theorem IsGrouped.length {sizes : List Nat} (grouped : IsGrouped sizes chars s) :
    chars.length = sizes.foldr (· + ·) 0 := by
  obtain ⟨groups, rfl, rfl, -⟩ := grouped
  exact List.length_flatten

/-- Sizes and characters determine the text of the groups. -/
theorem IsGrouped.unique {sizes : List Nat} {t : List Char} (grouped : IsGrouped sizes chars s)
    (other : IsGrouped sizes chars t) : s = t := by
  obtain ⟨groups, rfl, rfl, rfl⟩ := grouped
  obtain ⟨others, sizes, same, rfl⟩ := other
  rw [List.eq_iff_flatten_eq.mpr ⟨same, sizes⟩]

theorem isGrouped_singleton_iff {size : Nat} :
    IsGrouped [size] chars s ↔ chars.length = size ∧ s = chars := by
  constructor
  · rintro ⟨groups, sizes, rfl, rfl⟩
    obtain ⟨group, rest, rfl, rfl, none⟩ := List.map_eq_cons_iff.mp sizes
    obtain rfl := List.map_eq_nil_iff.mp none
    simp [joined]
  · rintro ⟨rfl, rfl⟩
    exact ⟨[s], rfl, List.flatten_singleton, rfl⟩

/-- Characters without a dash are what remains of their groups without the dashes. -/
theorem IsGrouped.filter {sizes : List Nat} (grouped : IsGrouped sizes chars s)
    (free : '-' ∉ chars) : s.filter (· ≠ '-') = chars := by
  obtain ⟨groups, -, rfl, rfl⟩ := grouped
  apply filter_joined
  intro group member inside
  exact free (List.mem_flatten.mpr ⟨group, member, inside⟩)

/-- Groups in lower case come from groups in any case. -/
theorem IsGrouped.exists_of_lower {sizes : List Nat} (nonempty : sizes ≠ [])
    (grouped : IsGrouped sizes chars (s.map Char.toLower)) :
    ∃ originals, IsGrouped sizes originals s ∧ originals.map Char.toLower = chars := by
  obtain ⟨groups, rfl, rfl, whole⟩ := grouped
  obtain ⟨originals, rfl, rfl⟩ := exists_joined_of_map (fun _ => eq_dash_of_toLower)
    (by simpa using nonempty) whole
  refine ⟨originals.flatten, ⟨originals, by simp, rfl, rfl⟩, ?_⟩
  exact List.map_flatten

end Text

open Text (IsGrouped Raises)
open Text.Hex (IsDigit)

namespace CommitId

variable {id : CommitId} {s : String} {digits : List Char}

/-- The two ways in which the digits of a commit id can be written: together, or in five groups. -/
def IsForm (digits s : List Char) : Prop :=
  IsGrouped [32] digits s ∨ IsGrouped [8, 4, 4, 4, 12] digits s

theorem length_dash (length : digits.length = 32) : (dash digits).length = 36 := by
  simp [dash, length]

theorem isGrouped_dash (length : digits.length = 32) :
    IsGrouped [8, 4, 4, 4, 12] digits (dash digits) := by
  refine ⟨[digits.take 8, (digits.drop 8).take 4, (digits.drop 12).take 4,
    (digits.drop 16).take 4, digits.drop 20], by simp [length], ?_, by simp [Text.joined, dash]⟩
  have piece : ∀ start size : Nat,
      (digits.drop start).take size ++ digits.drop (start + size) = digits.drop start := by
    intro start size
    rw [← List.drop_drop, List.take_append_drop]
  simp only [List.flatten_cons, List.flatten_nil, List.append_nil]
  rw [piece 16 4, piece 12 4, piece 8 4, List.take_append_drop]

theorem isGrouped_iff_dash {s : List Char} :
    IsGrouped [8, 4, 4, 4, 12] digits s ↔ digits.length = 32 ∧ s = dash digits := by
  constructor
  · intro grouped
    exact ⟨grouped.length, grouped.unique (isGrouped_dash grouped.length)⟩
  · rintro ⟨length, rfl⟩
    exact isGrouped_dash length

theorem IsForm.length {s : List Char} (form : IsForm digits s) : digits.length = 32 :=
  form.elim (·.length) (·.length)

/-- The digits of a form are what it consists of besides dashes. -/
theorem IsForm.filter {s : List Char} (form : IsForm digits s) (hex : ∀ c ∈ digits, IsDigit c) :
    s.filter (· ≠ '-') = digits := by
  have free : '-' ∉ digits := fun member => absurd (hex _ member) (by decide)
  exact form.elim (·.filter free) (·.filter free)

theorem IsForm.eq_or_mem {s : List Char} {c : Char} (form : IsForm digits s)
    (hex : ∀ c ∈ digits, IsDigit c) (member : c ∈ s) : c = '-' ∨ c ∈ digits := by
  by_cases between : c = '-'
  · exact .inl between
  · right
    rw [← form.filter hex]
    exact List.mem_filter.mpr ⟨member, decide_eq_true between⟩

theorem isForm_of_found
    (found : (if s.length = 32 then some s.toList else undash? s.toList) = some digits) :
    IsForm digits s.toList := by
  split at found
  · next length =>
      obtain rfl := Option.some.inj found
      exact .inl (Text.isGrouped_singleton_iff.mpr ⟨length, rfl⟩)
  · simp only [undash?] at found
    split at found
    · next dashed =>
        obtain rfl := Option.some.inj found
        exact .inr (isGrouped_iff_dash.mpr ⟨dashed.1, dashed.2.symm⟩)
    · cases found

theorem IsForm.found (form : IsForm digits s.toList) (hex : ∀ c ∈ digits, IsDigit c) :
    (if s.length = 32 then some s.toList else undash? s.toList) = some digits := by
  have rest := form.filter hex
  rcases form with together | grouped
  · obtain ⟨length, rfl⟩ := Text.isGrouped_singleton_iff.mp together
    exact if_pos length
  · obtain ⟨length, dashed⟩ := isGrouped_iff_dash.mp grouped
    have longer : s.length = 36 := by
      rw [← String.length_toList, dashed, length_dash length]
    rw [if_neg (by omega), undash?, rest, if_pos ⟨length, dashed.symm⟩]

theorem digits_of_toNat? {n : Nat} (length : digits.length = 32)
    (read : Text.Hex.toNat? digits = some n) :
    (⟨BitVec.ofNat 128 n⟩ : CommitId).digits = digits.map Char.toLower := by
  have room : n < 2 ^ 128 := by
    have bound := Text.Hex.toNat?_lt read
    rwa [length] at bound
  rw [CommitId.digits, BitVec.toNat_ofNat, Nat.mod_eq_of_lt room, ← length,
    Text.Hex.ofNat_of_toNat? read]

theorem exists_parse_of_form (form : IsForm digits s.toList) (hex : ∀ c ∈ digits, IsDigit c) :
    ∃ id, parse s = .ok id ∧ id.digits = digits.map Char.toLower := by
  obtain ⟨n, read⟩ := Text.Hex.exists_toNat?_iff.mpr hex
  refine ⟨⟨BitVec.ofNat 128 n⟩, ?_, digits_of_toNat? form.length read⟩
  simp only [parse, form.found hex, Option.bind_some, read]

/-- A text spells out a commit id exactly if it is a form of digits that are, in lower case, those
of the id. -/
theorem parse_eq_ok_iff : parse s = .ok id ↔ ∃ digits, IsForm digits s.toList ∧
    (∀ c ∈ digits, IsDigit c) ∧ id.digits = digits.map Char.toLower := by
  constructor
  · intro done
    simp only [parse] at done
    split at done
    · next n read =>
        obtain ⟨digits, found, read⟩ := Option.bind_eq_some_iff.mp read
        obtain rfl := Except.ok.inj done
        have form := isForm_of_found found
        exact ⟨digits, form, Text.Hex.exists_toNat?_iff.mp ⟨n, read⟩,
          digits_of_toNat? form.length read⟩
    · cases done
  · rintro ⟨digits, form, hex, written⟩
    obtain ⟨other, done, otherWritten⟩ := exists_parse_of_form form hex
    have same : other = id := by
      apply text_injective
      rw [text, text, otherWritten, written]
    rw [done, same]

theorem exists_parse_iff :
    (∃ id, parse s = .ok id) ↔ ∃ digits, IsForm digits s.toList ∧ ∀ c ∈ digits, IsDigit c := by
  constructor
  · rintro ⟨id, done⟩
    obtain ⟨digits, form, hex, -⟩ := parse_eq_ok_iff.mp done
    exact ⟨digits, form, hex⟩
  · rintro ⟨digits, form, hex⟩
    obtain ⟨id, done, -⟩ := exists_parse_of_form form hex
    exact ⟨id, done⟩

theorem eq_commitId_of_parse {error : IdentifierError} (failed : parse s = .error error) :
    error = .commitId s := by
  simp only [parse] at failed
  split at failed
  · cases failed
  · exact (Except.error.inj failed).symm

/-- What was read is written without dashes and in lower case. -/
theorem text_of_parse (done : parse s = .ok id) :
    id.text = (String.ofList (s.toList.filter (· ≠ '-'))).toLower := by
  obtain ⟨digits, form, hex, written⟩ := parse_eq_ok_iff.mp done
  rw [form.filter hex, text, written]
  apply String.toList_injective
  rw [Text.toList_toLower, String.toList_ofList, String.toList_ofList]

/-! ### Letters in either case -/

theorem lower_of_mem_digits {c : Char} (member : c ∈ id.digits) :
    c ∈ "0123456789abcdef".toList :=
  Text.Hex.lower_of_mem_ofNat member

theorem isForm_text (id : CommitId) : IsForm id.digits id.text.toList := by
  rw [text, String.toList_ofList]
  exact .inl (Text.isGrouped_singleton_iff.mpr ⟨Text.Hex.length_ofNat .., rfl⟩)

theorem isGrouped_dashedText (id : CommitId) :
    IsGrouped [8, 4, 4, 4, 12] id.digits id.dashedText.toList := by
  rw [dashedText, String.toList_ofList]
  exact isGrouped_dash (Text.Hex.length_ofNat ..)

/-- An id is read from its forms with any of their letters in upper case. -/
theorem parse_of_raises {written : String} (form : IsForm id.digits written.toList)
    (raises : Raises written s) : parse s = .ok id := by
  have hex : ∀ c ∈ id.digits, IsDigit c := fun c member =>
    List.mem_append_left "ABCDEF".toList (lower_of_mem_digits member)
  have lowerChars : "0123456789abcdef".toList.all fun c =>
      c.toLower = c ∧ c.toUpper.toLower = c := by
    decide
  have lower : ∀ c ∈ written.toList, c.toLower = c ∧ c.toUpper.toLower = c := by
    intro c member
    rcases form.eq_or_mem hex member with rfl | among
    · decide
    · exact of_decide_eq_true (List.all_eq_true.mp lowerChars c (lower_of_mem_digits among))
  have lowered := Text.map_toLower_of_raises raises lower
  obtain ⟨digits, raised, written⟩ :
      ∃ digits, IsForm digits s.toList ∧ digits.map Char.toLower = id.digits := by
    rw [← lowered] at form
    rcases form with together | grouped
    · obtain ⟨digits, together, written⟩ := together.exists_of_lower (by decide)
      exact ⟨digits, .inl together, written⟩
    · obtain ⟨digits, grouped, written⟩ := grouped.exists_of_lower (by decide)
      exact ⟨digits, .inr grouped, written⟩
  refine parse_eq_ok_iff.mpr ⟨digits, raised, ?_, written.symm⟩
  intro c member
  apply Text.Hex.isDigit_of_toLower
  exact hex _ (written ▸ List.mem_map_of_mem member)

/-! ### Readers of numbers -/

/-- What ids rely on of a reader of numbers of 128 bits: of texts of 32 or 36 bytes it reads those
that are forms of digits, as the numbers with these digits. -/
def ReadsForms (read : String → Option (BitVec 128)) : Prop :=
  ∀ s value, (Text.Utf8.encode s).length = 32 ∨ (Text.Utf8.encode s).length = 36 →
    (read s = some value ↔ ∃ digits, IsForm digits s.toList ∧ (∀ c ∈ digits, IsDigit c) ∧
      (CommitId.mk value).digits = digits.map Char.toLower)

/-- The commit id that a reader of numbers finds in a text, which must be of 32 or 36 bytes. -/
def parseWith (read : String → Option (BitVec 128)) (s : String) :
    Except IdentifierError CommitId :=
  if (Text.Utf8.encode s).length = 32 ∨ (Text.Utf8.encode s).length = 36 then
    match read s with
    | some value => .ok ⟨value⟩
    | none => .error (.commitId s)
  else .error (.commitId s)

theorem length_encode_of_ascii (ascii : ∀ c ∈ s.toList, (String.utf8EncodeChar c).length = 1) :
    (Text.Utf8.encode s).length = s.length := by
  rw [Text.Utf8.encode, List.length_flatMap, List.map_congr_left ascii, List.map_const',
    List.sum_replicate_nat, Nat.mul_one, String.length_toList]

/-- Forms of digits are texts of 32 or 36 bytes. -/
theorem IsForm.length_encode (form : IsForm digits s.toList) (hex : ∀ c ∈ digits, IsDigit c) :
    (Text.Utf8.encode s).length = 32 ∨ (Text.Utf8.encode s).length = 36 := by
  have narrow : "0123456789abcdefABCDEF".toList.all fun c =>
      (String.utf8EncodeChar c).length = 1 := by
    decide
  have ascii : ∀ c ∈ s.toList, (String.utf8EncodeChar c).length = 1 := by
    intro c member
    rcases form.eq_or_mem hex member with rfl | among
    · rfl
    · exact of_decide_eq_true (List.all_eq_true.mp narrow c (hex c among))
  rw [length_encode_of_ascii ascii, ← String.length_toList]
  rcases form with together | grouped
  · obtain ⟨length, rfl⟩ := Text.isGrouped_singleton_iff.mp together
    exact .inl length
  · obtain ⟨length, dashed⟩ := isGrouped_iff_dash.mp grouped
    exact .inr (dashed ▸ length_dash length)

/-- There is a reader on which ids can rely. -/
theorem readsForms_parse : ReadsForms fun s => (parse s).toOption.map CommitId.value := by
  intro s value _
  rw [← parse_eq_ok_iff]
  beta_reduce
  cases parse s with
  | ok id =>
      cases id
      simp [Except.toOption]
  | error error => simp [Except.toOption]

/-- Ids are read as a reader of numbers reads them. -/
theorem parseWith_eq_parse {read : String → Option (BitVec 128)} (reads : ReadsForms read)
    (s : String) : parseWith read s = parse s := by
  cases done : parse s with
  | ok id =>
      obtain ⟨digits, form, hex, written⟩ := parse_eq_ok_iff.mp done
      have size := form.length_encode hex
      have found := (reads s id.value size).mpr ⟨digits, form, hex, written⟩
      simp only [parseWith, if_pos size, found]
  | error error =>
      obtain rfl := eq_commitId_of_parse done
      unfold parseWith
      split
      · next size =>
          cases found : read s with
          | none => rfl
          | some value =>
              have accepted := parse_eq_ok_iff.mpr ((reads s value size).mp found)
              rw [done] at accepted
              cases accepted
      · rfl

end CommitId

namespace Digest

variable {d : Digest} {s : String}

theorem toList_scheme (digits : String) :
    ("sha256:" ++ digits).toList = scheme ++ digits.toList := by
  rw [String.toList_append]
  rfl

theorem parse_scheme (digits : String) :
    parse ("sha256:" ++ digits) = .ok d ↔ Text.Hex.decode? digits.toList = some d.bytes := by
  have schemed : scheme.isPrefixOf (scheme ++ digits.toList) = true :=
    List.isPrefixOf_iff_prefix.mpr (List.prefix_append ..)
  simp only [parse, toList_scheme, schemed, if_true, List.drop_left]
  constructor
  · intro done
    split at done
    · next bytes read =>
        split at done
        · obtain rfl := Except.ok.inj done
          exact read
        · cases done
    · cases done
  · intro read
    simp only [read, d.size, dif_pos]

/-- A text spells out a digest exactly if it is the scheme with the digits of the digest, in either
case. -/
theorem parse_eq_ok_iff : parse s = .ok d ↔ ∃ digits : String, s = "sha256:" ++ digits ∧
    (∀ c ∈ digits.toList, IsDigit c) ∧
    Text.Hex.encode d.bytes = digits.toList.map Char.toLower := by
  simp only [← Text.Hex.decode?_eq_some_iff]
  constructor
  · intro done
    have schemed : scheme.isPrefixOf s.toList = true := by
      unfold parse at done
      split at done
      · assumption
      · cases done
    obtain ⟨rest, whole⟩ := List.isPrefixOf_iff_prefix.mp schemed
    have split : s = "sha256:" ++ String.ofList rest := by
      apply String.toList_injective
      rw [toList_scheme, String.toList_ofList, whole]
    rw [split, parse_scheme] at done
    exact ⟨_, split, done⟩
  · rintro ⟨digits, rfl, read⟩
    exact (parse_scheme digits).mpr read

theorem exists_parse_iff : (∃ d, parse s = .ok d) ↔ ∃ digits : String,
    s = "sha256:" ++ digits ∧ digits.length = 64 ∧ ∀ c ∈ digits.toList, IsDigit c := by
  constructor
  · rintro ⟨d, done⟩
    obtain ⟨digits, rfl, hex, written⟩ := parse_eq_ok_iff.mp done
    have length := congrArg List.length written
    rw [Text.Hex.length_encode, d.size, List.length_map, String.length_toList] at length
    exact ⟨digits, rfl, length.symm, hex⟩
  · rintro ⟨digits, rfl, length, hex⟩
    have pairs : digits.toList.length % 2 = 0 := by
      rw [String.length_toList, length]
    obtain ⟨bytes, read⟩ := Text.Hex.exists_decode?_iff.mpr ⟨pairs, hex⟩
    have size : bytes.length = 32 := by
      have written := congrArg List.length (Text.Hex.encode_of_decode? read)
      rw [Text.Hex.length_encode, List.length_map, String.length_toList, length] at written
      omega
    exact ⟨⟨bytes, size⟩, (parse_scheme digits).mpr read⟩

/-- What was read is written in lower case. -/
theorem text_of_parse (done : parse s = .ok d) : d.text = s.toLower := by
  obtain ⟨digits, rfl, -, written⟩ := parse_eq_ok_iff.mp done
  apply String.toList_injective
  rw [text, String.toList_ofList, written, Text.toList_toLower, toList_scheme, List.map_append]
  rfl

end Digest

/-- Commit ids and digests are read from each of their forms and from nothing else, and written in
one: ids in thirty-two digits from the highest place on, digests with their scheme, in lower
case. As readers of numbers go, ids only rely on how they read forms of digits. -/
theorem forms_determine_ids_and_digests :
    (∀ id : CommitId,
      id.text.toList = (List.range 32).map (fun i =>
        Text.Hex.digit (id.value.toNat / 16 ^ (31 - i) % 16)) ∧
      IsGrouped [8, 4, 4, 4, 12] id.text.toList id.dashedText.toList) ∧
    (∀ (id : CommitId) (s : String), Raises id.text s ∨ Raises id.dashedText s →
      CommitId.parse s = .ok id) ∧
    (∀ s : String, (∃ id, CommitId.parse s = .ok id) ↔
      ∃ digits, CommitId.IsForm digits s.toList ∧ ∀ c ∈ digits, IsDigit c) ∧
    (∀ (s : String) (id : CommitId), CommitId.parse s = .ok id →
      id.text = (String.ofList (s.toList.filter (· ≠ '-'))).toLower) ∧
    (∀ read, CommitId.ReadsForms read → CommitId.parseWith read = CommitId.parse) ∧
    (∀ s : String, (∃ d, Digest.parse s = .ok d) ↔ ∃ digits : String,
      s = "sha256:" ++ digits ∧ digits.length = 64 ∧ ∀ c ∈ digits.toList, IsDigit c) ∧
    (∀ (s : String) (d : Digest), Digest.parse s = .ok d → d.text = s.toLower) ∧
    ∀ d : Digest, Digest.parse d.text = .ok d := by
  refine ⟨?written, ?raised, fun s => CommitId.exists_parse_iff, fun s id => CommitId.text_of_parse,
    ?reader, fun s => Digest.exists_parse_iff, fun s d => Digest.text_of_parse, Digest.parse_text⟩
  case written =>
    intro id
    have chars : id.text.toList = id.digits := String.toList_ofList
    rw [chars]
    exact ⟨Text.Hex.ofNat_eq_map 32 id.value.toNat, id.isGrouped_dashedText⟩
  case raised =>
    rintro id s (raises | raises)
    · exact CommitId.parse_of_raises id.isForm_text raises
    · exact CommitId.parse_of_raises (.inr id.isGrouped_dashedText) raises
  case reader =>
    intro read reads
    funext s
    exact CommitId.parseWith_eq_parse reads s

/-- An id in dashed groups and a digest, each with letters of both cases, are read and written in
lower case. -/
theorem forms_determine_ids_and_digests_of_mixed_case :
    let id : CommitId := ⟨0x0123456789abcdef0123456789abcdef#128⟩
    let dashed := "01234567-89AB-cdef-0123-456789ABCDEF"
    let read := fun s => (CommitId.parse s).toOption.map CommitId.value
    let hash := "E3B0C44298FC1C149AFBF4C8996FB92427AE41E4649B934CA495991B7852b855"
    Raises id.dashedText dashed ∧ CommitId.parse dashed = .ok id ∧
      id.text = "0123456789abcdef0123456789abcdef" ∧
      CommitId.ReadsForms read ∧ CommitId.parseWith read dashed = .ok id ∧
      ∃ d, Digest.parse ("sha256:" ++ hash) = .ok d ∧
        d.text = "sha256:e3b0c44298fc1c149afbf4c8996fb92427ae41e4649b934ca495991b7852b855" := by
  intro id dashed read hash
  obtain ⟨-, raised, -, written, reader, accepted, digestWritten, -⟩ :=
    forms_determine_ids_and_digests
  have raises : Raises id.dashedText dashed := by
    have chars : (id.dashedText.toList.zip dashed.toList).all fun pair =>
        pair.2 = pair.1 ∨ pair.2 = pair.1.toUpper := by
      decide +kernel
    exact List.forall₂_iff_zip.mpr ⟨by decide +kernel, fun member =>
      of_decide_eq_true (List.all_eq_true.mp chars _ member)⟩
  have done := raised id dashed (.inr raises)
  have agree := reader read CommitId.readsForms_parse
  have hex : hash.toList.all fun c => IsDigit c := by decide +kernel
  obtain ⟨d, digestDone⟩ := (accepted ("sha256:" ++ hash)).mpr
    ⟨hash, rfl, by decide +kernel, fun c member =>
      of_decide_eq_true (List.all_eq_true.mp hex c member)⟩
  refine ⟨raises, done, ?_, CommitId.readsForms_parse, ?_, d, digestDone, ?_⟩
  · rw [written dashed id done]
    decide +kernel
  · rw [agree, done]
  · rw [digestWritten _ d digestDone]
    decide +kernel

end SchemaModules
