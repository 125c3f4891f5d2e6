import Mathlib.Data.List.Nodup
import Mathlib.Data.List.Perm.Subperm
import SchemaModules.SortedMap

/-! # Keys of finite maps

The keys of a map are distinct and ascend. What a map holds under a key, and that it has the key,
are the same question (`mem_keys_iff`). Sorting texts, with repeats, forgets the order that they were
given in (`Text.mergeSort_eq_of_perm`).
-/

namespace SchemaModules.SortedMap

variable {κ : Type} [Key κ] {α : Type}

theorem nodup_keys (m : SortedMap κ α) : m.keys.Nodup := by
  refine List.pairwise_map.mpr (m.ascending.imp ?_)
  intro a b before
  exact before.ne

theorem nodup_entries (m : SortedMap κ α) : m.entries.Nodup := m.nodup_keys.of_map

/-- The keys of a map of texts ascend. -/
theorem keys_ascending (m : SortedMap String α) : m.keys.Pairwise (· < ·) := by
  refine List.pairwise_map.mpr (m.ascending.imp ?_)
  intro a b before
  exact Key.before_string_iff.mp before

theorem keys_before (m : SortedMap κ α) : m.keys.Pairwise Key.Before :=
  List.pairwise_map.mpr m.ascending

theorem sortedSet_ascending (list : List κ) : (sortedSet list).Pairwise Key.Before :=
  keys_before _

/-- A map of a list of entries has no others. -/
theorem mem_of_mem_entries_ofList {entries : List (κ × α)} {e : κ × α}
    (member : e ∈ (ofList entries).entries) : e ∈ entries := by
  have added : ∀ start : SortedMap κ α,
      e ∈ (entries.foldl (fun m e => m.insert e.1 e.2) start).entries →
        e ∈ entries ∨ e ∈ start.entries := by
    clear member
    induction entries with
    | nil => exact fun start => .inr
    | cons first rest ih =>
        intro start member
        rcases ih _ member with later | there
        · exact .inl (List.mem_cons_of_mem _ later)
        · rcases mem_insertEntry there with rfl | earlier
          · exact .inl List.mem_cons_self
          · exact .inr earlier
  exact (added empty member).resolve_right List.not_mem_nil

@[simp]
theorem keys_mapValues {β : Type} (f : κ → α → β) (m : SortedMap κ α) :
    (m.mapValues f).keys = m.keys := by
  simp [keys, mapValues]

/-- Keys that ascend are determined by which there are. -/
theorem eq_of_mem_iff {a b : List κ} (first : a.Pairwise Key.Before)
    (second : b.Pairwise Key.Before) (same : ∀ k, k ∈ a ↔ k ∈ b) : a = b := by
  have nodup : ∀ {list : List κ}, list.Pairwise Key.Before → list.Nodup :=
    fun ascending => ascending.imp Key.Before.ne
  refine List.Perm.eq_of_pairwise ?_ first second
    ((List.perm_ext_iff_of_nodup (nodup first) (nodup second)).mpr same)
  intro k l _ _ before after
  exact absurd (before.trans after) (Key.before_irrefl k)

theorem eq_of_mem_iff_of_ascending {a b : List String} (first : a.Pairwise (· < ·))
    (second : b.Pairwise (· < ·)) (same : ∀ text, text ∈ a ↔ text ∈ b) : a = b :=
  eq_of_mem_iff (first.imp Key.before_string_iff.mpr) (second.imp Key.before_string_iff.mpr) same

variable [DecidableEq κ]

theorem mem_keys_iff (m : SortedMap κ α) (k : κ) : k ∈ m.keys ↔ ∃ v, m.find? k = some v := by
  rw [← contains_iff_mem_keys, contains, Option.isSome_iff_exists]

theorem mem_keys_insert (m : SortedMap κ α) (k l : κ) (v : α) :
    l ∈ (m.insert k v).keys ↔ l = k ∨ l ∈ m.keys := by
  simp only [mem_keys_iff, find?_insert]
  by_cases same : l = k <;> simp [same]

/-- An entry put in over another leaves the keys as they are. -/
theorem keys_insert_of_mem (m : SortedMap κ α) {k : κ} (v : α) (member : k ∈ m.keys) :
    (m.insert k v).keys = m.keys := by
  refine eq_of_mem_iff (keys_before _) m.keys_before fun l => ?_
  rw [mem_keys_insert, or_iff_right_of_imp]
  rintro rfl
  exact member

theorem mem_keys_ofList (entries : List (κ × α)) (k : κ) :
    k ∈ (ofList entries).keys ↔ k ∈ entries.map Prod.fst := by
  have added : ∀ m : SortedMap κ α, k ∈ (entries.foldl (fun m e => m.insert e.1 e.2) m).keys ↔
      k ∈ entries.map Prod.fst ∨ k ∈ m.keys := by
    induction entries with
    | nil => simp
    | cons e rest ih =>
        intro m
        rw [List.foldl_cons, ih, mem_keys_insert, List.map_cons, List.mem_cons]
        tauto
  rw [ofList, added]
  simp [keys, empty]

theorem mem_sortedSet (list : List κ) (k : κ) : k ∈ sortedSet list ↔ k ∈ list := by
  rw [sortedSet, mem_keys_ofList]
  simp

theorem sortedSet_eq_singleton_iff {list : List κ} {k : κ} :
    sortedSet list = [k] ↔ list ≠ [] ∧ ∀ l ∈ list, l = k := by
  constructor
  · intro only
    have among : ∀ l, l ∈ list ↔ l = k := fun l => by
      rw [← mem_sortedSet, only, List.mem_singleton]
    exact ⟨List.ne_nil_of_mem ((among k).mpr rfl), fun l member => (among l).mp member⟩
  · rintro ⟨some, shared⟩
    obtain ⟨l, member⟩ := List.exists_mem_of_ne_nil list some
    refine eq_of_mem_iff (sortedSet_ascending _) (List.pairwise_singleton _ _) fun found => ?_
    rw [mem_sortedSet, List.mem_singleton]
    refine ⟨shared found, ?_⟩
    rintro rfl
    exact shared l member ▸ member

/-- Maps with the same values under the keys that pass a test have the same of these keys. -/
theorem keys_filter_congr {m n : SortedMap κ α} {passes : κ → Bool}
    (agree : ∀ k, passes k = true → m.find? k = n.find? k) :
    m.keys.filter passes = n.keys.filter passes := by
  refine eq_of_mem_iff (m.keys_before.filter _) (n.keys_before.filter _) fun k => ?_
  simp only [List.mem_filter, mem_keys_iff]
  refine and_congr_left fun passed => ?_
  rw [agree k passed]

/-- Maps in which the same is found under every key are one. -/
theorem eq_of_find?_eq {m n : SortedMap κ α} (same : ∀ k, m.find? k = n.find? k) : m = n := by
  have entries : m.entries = n.entries := by
    refine List.Perm.eq_of_pairwise ?_ m.ascending n.ascending ?_
    · intro a b _ _ before after
      exact absurd (before.trans after) (Key.before_irrefl _)
    · rw [List.perm_ext_iff_of_nodup m.nodup_entries n.nodup_entries]
      intro e
      rw [← find?_eq_some_iff, ← find?_eq_some_iff, same]
  cases m
  cases n
  cases entries
  rfl

/-- Keys that ascend are the keys in ascending order. -/
theorem sortedSet_eq_self {list : List κ} (ascending : list.Pairwise Key.Before) :
    sortedSet list = list :=
  eq_of_mem_iff (sortedSet_ascending list) ascending (mem_sortedSet list)

/-- In a map of entries with distinct keys, these are found. -/
theorem find?_ofList_iff {entries : List (κ × α)} (distinct : (entries.map Prod.fst).Nodup)
    (k : κ) (v : α) : (ofList entries).find? k = some v ↔ (k, v) ∈ entries := by
  have added : ∀ start : SortedMap κ α,
      (entries.foldl (fun m e => m.insert e.1 e.2) start).find? k = some v ↔
        (k, v) ∈ entries ∨ k ∉ entries.map Prod.fst ∧ start.find? k = some v := by
    induction entries with
    | nil => simp
    | cons e rest ih =>
        intro start
        obtain ⟨once, later⟩ := List.nodup_cons.mp distinct
        rw [List.foldl_cons, ih later, find?_insert]
        by_cases same : k = e.1
        · subst same
          simp [once, Prod.ext_iff, eq_comm, or_comm]
        · simp [same, Prod.ext_iff]
  rw [ofList, added]
  simp

theorem ofList_entries (m : SortedMap κ α) : ofList m.entries = m := by
  refine eq_of_find?_eq fun k => Option.ext fun v => ?_
  rw [find?_ofList_iff m.nodup_keys, find?_eq_some_iff]

theorem find?_mapValues {β : Type} (f : κ → α → β) (m : SortedMap κ α) (k : κ) :
    (m.mapValues f).find? k = (m.find? k).map (f k) := by
  refine Option.ext fun v => ?_
  simp only [find?_eq_some_iff, Option.map_eq_some_iff, mapValues, List.mem_map, Prod.ext_iff]
  constructor
  · rintro ⟨e, member, rfl, equal⟩
    exact ⟨e.2, member, equal⟩
  · rintro ⟨w, member, equal⟩
    exact ⟨(k, w), member, rfl, equal⟩

/-! ## Some entry of a map -/

/-- Some entry of a map has a property. -/
def Any (m : SortedMap κ α) (p : κ → α → Prop) : Prop := ∃ k v, m.find? k = some v ∧ p k v

theorem any_of_insert {m : SortedMap κ α} {k : κ} {v : α} {p : κ → α → Prop}
    (some : (m.insert k v).Any p) : p k v ∨ m.Any p := by
  obtain ⟨l, w, found, holds⟩ := some
  rw [find?_insert] at found
  by_cases same : l = k
  · rw [if_pos same] at found
    obtain rfl := Option.some.inj found
    exact .inl (same ▸ holds)
  · rw [if_neg same] at found
    exact .inr ⟨l, w, found, holds⟩

theorem any_of_erase {m : SortedMap κ α} {k : κ} {p : κ → α → Prop}
    (some : (m.erase k).Any p) : m.Any p := by
  obtain ⟨l, w, found, holds⟩ := some
  rw [find?_erase] at found
  by_cases same : l = k
  · rw [if_pos same] at found
    cases found
  · rw [if_neg same] at found
    exact ⟨l, w, found, holds⟩

/-! ## The entry of a key and the others -/

theorem find?_insert_of_ne (m : SortedMap κ α) {k l : κ} (other : l ≠ k) (v : α) :
    (m.insert k v).find? l = m.find? l := by
  rw [find?_insert, if_neg other]

theorem find?_erase_of_ne (m : SortedMap κ α) {k l : κ} (other : l ≠ k) :
    (m.erase k).find? l = m.find? l := by
  rw [find?_erase, if_neg other]

theorem mem_erase_iff (m : SortedMap κ α) (k : κ) (e : κ × α) :
    e ∈ (m.erase k).entries ↔ e ∈ m.entries ∧ e.1 ≠ k := by
  simp [erase]

theorem entries_perm (m : SortedMap κ α) {k : κ} {v : α} (found : m.find? k = some v) :
    m.entries.Perm ((k, v) :: (m.erase k).entries) := by
  have absent : (k, v) ∉ (m.erase k).entries := fun member =>
    ((m.mem_erase_iff k _).mp member).2 rfl
  refine (List.perm_ext_iff_of_nodup m.nodup_entries
    (List.nodup_cons.mpr ⟨absent, (m.erase k).nodup_entries⟩)).mpr ?_
  intro e
  rw [List.mem_cons, mem_erase_iff]
  constructor
  · intro member
    by_cases same : e.1 = k
    · have here := (m.find?_eq_some_iff e.1 e.2).mpr member
      rw [same, found] at here
      exact .inl (Prod.ext same (Option.some.inj here).symm)
    · exact .inr ⟨member, same⟩
  · rintro (rfl | ⟨member, -⟩)
    · exact (m.find?_eq_some_iff k v).mp found
    · exact member

/-- After an entry was put in, the map holds it and the entries of the other keys. -/
theorem entries_insert_perm (m : SortedMap κ α) (k : κ) (v : α) :
    (m.insert k v).entries.Perm ((k, v) :: (m.erase k).entries) := by
  have found : (m.insert k v).find? k = some v := by rw [find?_insert, if_pos rfl]
  refine ((m.insert k v).entries_perm found).trans (List.Perm.cons _ ?_)
  refine (List.perm_ext_iff_of_nodup (nodup_entries _) (nodup_entries _)).mpr ?_
  intro e
  rw [mem_erase_iff, mem_erase_iff]
  refine and_congr_left fun other => ?_
  rw [← find?_eq_some_iff, ← find?_eq_some_iff, find?_insert, if_neg other]

/-- Putting an entry in adds what is asked of it, and may leave out what was so of another. -/
theorem map_insert_subperm {β : Type} (f : κ × α → β) (m : SortedMap κ α) (k : κ) (v : α) :
    ((m.insert k v).entries.map f).Subperm (f (k, v) :: m.entries.map f) :=
  ⟨f (k, v) :: (m.erase k).entries.map f, ((m.entries_insert_perm k v).map f).symm,
    (List.filter_sublist.map f).cons_cons _⟩

/-- Where a key has no entry, erasing it changes nothing. -/
theorem erase_of_find?_eq_none (m : SortedMap κ α) {k : κ} (missing : m.find? k = none) :
    (m.erase k).entries = m.entries := by
  refine List.filter_eq_self.mpr fun e member => ?_
  have other : e.1 ≠ k := by
    intro same
    have here := (m.find?_eq_some_iff e.1 e.2).mpr member
    rw [same, missing] at here
    exact nomatch here
  simpa using other

end SchemaModules.SortedMap

namespace SchemaModules.Text

/-! ## Texts in ascending order -/

theorem pairwise_mergeSort (texts : List String) : (texts.mergeSort (· ≤ ·)).Pairwise (· ≤ ·) := by
  have trans : ∀ a b c : String, decide (a ≤ b) = true → decide (b ≤ c) = true →
      decide (a ≤ c) = true := by
    intro a b c
    simpa using String.le_trans
  have total : ∀ a b : String, (decide (a ≤ b) || decide (b ≤ a)) = true := by
    intro a b
    simpa using String.le_total a b
  exact (List.pairwise_mergeSort trans total texts).imp of_decide_eq_true

/-- Texts in ascending order are determined by which there are, and how often. -/
theorem mergeSort_eq_of_perm {texts others : List String} (perm : texts.Perm others) :
    texts.mergeSort (· ≤ ·) = others.mergeSort (· ≤ ·) := by
  refine List.Perm.eq_of_pairwise ?_ (pairwise_mergeSort texts) (pairwise_mergeSort others) ?_
  · exact fun a b _ _ before after => String.le_antisymm before after
  · exact (List.mergeSort_perm _ _).trans (perm.trans (List.mergeSort_perm _ _).symm)

end SchemaModules.Text
