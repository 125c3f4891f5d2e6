/-!
# Finite maps in the order of their keys

A finite map kept as the list of its entries, with strictly ascending keys. The lookup is the view
that everything else is stated through: `find?_insert` and `find?_erase` say what an update does to
it, and `find?_eq_some_iff` ties it to the entries.
-/

namespace SchemaModules

/-- A type whose values are identified, and ordered, by the texts they are made of. -/
class Key (κ : Type) where
  texts : κ → List String
  texts_injective : ∀ a b : κ, texts a = texts b → a = b

namespace Key

variable {κ : Type} [Key κ]

/-- The order of keys, text by text from the first. -/
def Before (a b : κ) : Prop := texts a < texts b

instance : DecidableRel (Before (κ := κ)) := fun a b =>
  inferInstanceAs (Decidable (texts a < texts b))

/-- No key is before itself. -/
theorem before_irrefl (a : κ) : ¬ Before a a := List.lt_irrefl _

/-- The order of keys is transitive. -/
theorem Before.trans {a b c : κ} (h : Before a b) (h' : Before b c) : Before a c :=
  List.lt_trans h h'

/-- Neither of two keys before the other means that they are one key. -/
theorem eq_of_not_before {a b : κ} (h : ¬ Before a b) (h' : ¬ Before b a) : a = b :=
  texts_injective a b (Std.Trichotomous.trichotomous _ _ h h')

/-- A key before another differs from it. -/
theorem Before.ne {a b : κ} (h : Before a b) : a ≠ b := by
  rintro rfl
  exact before_irrefl a h

instance : Key String where
  texts s := [s]
  texts_injective _ _ h := by simpa using h

/-- As keys, texts have their usual order. -/
theorem before_string_iff {a b : String} : Before a b ↔ a < b := by
  simp only [Before, texts]
  rw [List.cons_lt_cons_iff]
  simp

end Key

open Key (Before)

/-- A finite map, as its entries in strictly ascending order of their keys. -/
structure SortedMap (κ : Type) [Key κ] (α : Type) where
  entries : List (κ × α)
  ascending : entries.Pairwise (fun a b => Before a.1 b.1)
  deriving DecidableEq

namespace SortedMap

variable {κ : Type} [Key κ] {α : Type}

/-- The map without entries. -/
def empty : SortedMap κ α := ⟨[], .nil⟩

instance : EmptyCollection (SortedMap κ α) := ⟨empty⟩

instance : Inhabited (SortedMap κ α) := ⟨empty⟩

/-- The keys in ascending order. -/
def keys (m : SortedMap κ α) : List κ := m.entries.map Prod.fst

/-- The number of entries. -/
def size (m : SortedMap κ α) : Nat := m.entries.length

/-- Put an entry in its place, over an entry of the same key. -/
def insertEntry (k : κ) (v : α) : List (κ × α) → List (κ × α)
  | [] => [(k, v)]
  | (l, w) :: rest =>
      if Before k l then (k, v) :: (l, w) :: rest
      else if Before l k then (l, w) :: insertEntry k v rest
      else (k, v) :: rest

/-- A key of the entries after putting one in was put in or was there. -/
theorem mem_insertEntry {k : κ} {v : α} {e : κ × α} {entries : List (κ × α)}
    (member : e ∈ insertEntry k v entries) : e = (k, v) ∨ e ∈ entries := by
  induction entries with
  | nil => simpa [insertEntry] using member
  | cons first rest ih =>
      obtain ⟨l, w⟩ := first
      simp only [insertEntry] at member
      split at member
      · simpa using member
      · split at member
        · rcases List.mem_cons.mp member with rfl | later
          · exact .inr List.mem_cons_self
          · exact (ih later).imp id (List.mem_cons_of_mem _)
        · rcases List.mem_cons.mp member with rfl | later
          · exact .inl rfl
          · exact .inr (List.mem_cons_of_mem _ later)

/-- Putting an entry in its place keeps the order. -/
theorem ascending_insertEntry (k : κ) (v : α) {entries : List (κ × α)}
    (ascending : entries.Pairwise (fun a b => Before a.1 b.1)) :
    (insertEntry k v entries).Pairwise (fun a b => Before a.1 b.1) := by
  induction entries with
  | nil => exact List.pairwise_singleton _ _
  | cons first rest ih =>
      obtain ⟨l, w⟩ := first
      obtain ⟨least, tail⟩ := List.pairwise_cons.mp ascending
      simp only [insertEntry]
      split
      · next before =>
          refine List.pairwise_cons.mpr ⟨?_, ascending⟩
          intro e member
          rcases List.mem_cons.mp member with rfl | later
          · exact before
          · exact before.trans (least e later)
      · split
        · next notBefore after =>
            refine List.pairwise_cons.mpr ⟨?_, ih tail⟩
            intro e member
            rcases mem_insertEntry member with rfl | later
            · exact after
            · exact least e later
        · next notBefore notAfter =>
            obtain rfl := Key.eq_of_not_before notBefore notAfter
            exact List.pairwise_cons.mpr ⟨least, tail⟩

/-- The map with the entry put in, over an entry of the same key. -/
def insert (m : SortedMap κ α) (k : κ) (v : α) : SortedMap κ α :=
  ⟨insertEntry k v m.entries, ascending_insertEntry k v m.ascending⟩

/-- The map of a list of entries, in which a later entry replaces an earlier one of its key. -/
def ofList (entries : List (κ × α)) : SortedMap κ α :=
  entries.foldl (fun m e => m.insert e.1 e.2) empty

/-- The map with every value replaced by its image. -/
def mapValues {β : Type} (f : κ → α → β) (m : SortedMap κ α) : SortedMap κ β :=
  ⟨m.entries.map fun e => (e.1, f e.1 e.2), List.pairwise_map.mpr m.ascending⟩

/-- The keys of a list in ascending order, each once. -/
def sortedSet (list : List κ) : List κ :=
  (ofList (list.map fun k => (k, ()))).keys

variable [DecidableEq κ]

/-- The value at a key. -/
def find? (m : SortedMap κ α) (k : κ) : Option α :=
  (m.entries.find? fun e => e.1 = k).map Prod.snd

/-- Whether there is an entry at a key. -/
def contains (m : SortedMap κ α) (k : κ) : Bool :=
  (m.find? k).isSome

/-- The map without the entry at a key. -/
def erase (m : SortedMap κ α) (k : κ) : SortedMap κ α :=
  ⟨m.entries.filter fun e => e.1 ≠ k, m.ascending.filter _⟩

/-- No key is found in the empty map. -/
@[simp]
theorem find?_empty (k : κ) : (empty : SortedMap κ α).find? k = none := rfl

/-- A key is found exactly when it is one of the keys. -/
theorem contains_iff_mem_keys (m : SortedMap κ α) (k : κ) :
    m.contains k = true ↔ k ∈ m.keys := by
  simp [contains, find?, keys, List.find?_isSome]

/-- The lookup after erasing misses that key and finds every other key as before. -/
theorem find?_erase (m : SortedMap κ α) (k l : κ) :
    (m.erase k).find? l = if l = k then none else m.find? l := by
  simp only [find?, erase]
  induction m.entries with
  | nil => simp
  | cons first rest ih =>
      by_cases same : first.1 = k <;> by_cases found : first.1 = l <;> simp_all

/-- The lookup after putting an entry in finds it, and every other key as before. -/
theorem find?_insert (m : SortedMap κ α) (k l : κ) (v : α) :
    (m.insert k v).find? l = if l = k then some v else m.find? l := by
  simp only [find?, insert]
  induction m.entries with
  | nil => by_cases same : k = l <;> simp [insertEntry, same, eq_comm]
  | cons first rest ih =>
      obtain ⟨j, w⟩ := first
      simp only [insertEntry]
      split
      · by_cases same : l = k
        · simp [same]
        · simp [same, Ne.symm same]
      · split
        · next notBefore after =>
            by_cases same : l = k
            · subst same
              simpa [after.ne] using ih
            · by_cases here : j = l
              · simp [here, same]
              · simpa [here, same] using ih
        · next notBefore notAfter =>
            obtain rfl := Key.eq_of_not_before notBefore notAfter
            by_cases same : l = k
            · simp [same]
            · simp [same, Ne.symm same]

/-- The entries of a map are what the lookup finds at their keys. -/
theorem find?_eq_some_iff (m : SortedMap κ α) (k : κ) (v : α) :
    m.find? k = some v ↔ (k, v) ∈ m.entries := by
  obtain ⟨entries, ascending⟩ := m
  simp only [find?]
  induction entries with
  | nil => simp
  | cons first rest ih =>
      obtain ⟨j, w⟩ := first
      obtain ⟨least, tail⟩ := List.pairwise_cons.mp ascending
      by_cases here : j = k
      · subst here
        have elsewhere : (j, v) ∉ rest := fun member => Key.before_irrefl j (least _ member)
        simp [elsewhere, eq_comm]
      · simp [here, Ne.symm here, ih tail]

end SortedMap

end SchemaModules
