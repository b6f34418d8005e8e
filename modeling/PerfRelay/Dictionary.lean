/-!
# Dictionaries and name sets

Finite maps from texts, and finite sets of texts.  Both keep their keys in the order of the texts'
UTF-8 bytes, which is the order of their characters, and hold every key once.  So two dictionaries
with the same look-ups are equal, and everything that is printed from one comes out sorted.

Main results:

- Theorems `Dictionary.get?_insert_self` and `Dictionary.get?_insert_of_ne`: what a look-up gives
  after an insertion.
- Theorem `NameSet.contains_insert`: the names of a set after an insertion.
- Theorem `NameSet.contains_ofList`: the set of some names has just these names.
-/

namespace PerfRelay

universe u v

/-! ## Sorted lists of entries -/

/-- Enters a value under a key, in the place of the value that was there. -/
def insertEntry {α : Type u} (key : String) (value : α) : List (String × α) → List (String × α)
  | [] => [(key, value)]
  | entry :: rest =>
    if key < entry.1 then (key, value) :: entry :: rest
    else if key = entry.1 then (key, value) :: rest
    else entry :: insertEntry key value rest

/-- The value of the first entry with the given key. -/
def lookupEntry {α : Type u} (key : String) : List (String × α) → Option α
  | [] => none
  | entry :: rest => if key = entry.1 then some entry.2 else lookupEntry key rest

theorem lt_of_not_lt_of_ne {a b : String} (hlt : ¬ a < b) (hne : a ≠ b) : b < a := by
  rcases Decidable.em (b < a) with h | h
  · exact h
  · exact absurd (String.le_antisymm (String.not_lt.1 h) (String.not_lt.1 hlt)) hne

theorem mem_keys_insertEntry {α : Type u} {key : String} {value : α} {entries : List (String × α)}
    {entry : String × α} (h : entry ∈ insertEntry key value entries) :
    entry.1 = key ∨ entry ∈ entries := by
  induction entries with
  | nil => simp_all [insertEntry]
  | cons head rest ih =>
    simp only [insertEntry] at h
    split at h
    · rcases List.mem_cons.1 h with rfl | h
      · exact .inl rfl
      · exact .inr h
    · split at h
      · rcases List.mem_cons.1 h with rfl | h
        · exact .inl rfl
        · exact .inr (List.mem_cons_of_mem _ h)
      · rcases List.mem_cons.1 h with rfl | h
        · exact .inr (List.mem_cons_self ..)
        · exact (ih h).imp_right (List.mem_cons_of_mem _)

theorem isSome_lookupEntry_iff {α : Type u} {key : String} {entries : List (String × α)} :
    (lookupEntry key entries).isSome = true ↔ key ∈ entries.map (·.1) := by
  induction entries with
  | nil => simp [lookupEntry]
  | cons head rest ih =>
    by_cases h : key = head.1
    · simp [lookupEntry, h]
    · simp [lookupEntry, h, ih]

theorem sorted_insertEntry {α : Type u} {key : String} {value : α} {entries : List (String × α)}
    (h : entries.Pairwise (·.1 < ·.1)) : (insertEntry key value entries).Pairwise (·.1 < ·.1) := by
  induction entries with
  | nil => simp [insertEntry]
  | cons head rest ih =>
    have ⟨hhead, hrest⟩ := List.pairwise_cons.1 h
    simp only [insertEntry]
    split
    · rename_i hlt
      refine List.pairwise_cons.2 ⟨fun entry hmem => ?_, h⟩
      rcases List.mem_cons.1 hmem with rfl | hmem
      · exact hlt
      · exact String.lt_trans hlt (hhead entry hmem)
    · split
      · rename_i heq
        exact List.pairwise_cons.2 ⟨fun entry hmem => heq ▸ hhead entry hmem, hrest⟩
      · rename_i hlt hne
        refine List.pairwise_cons.2 ⟨fun entry hmem => ?_, ih hrest⟩
        rcases mem_keys_insertEntry hmem with heq | hmem
        · exact heq ▸ lt_of_not_lt_of_ne hlt hne
        · exact hhead entry hmem

theorem lookupEntry_insertEntry_self {α : Type u} (key : String) (value : α)
    (entries : List (String × α)) :
    lookupEntry key (insertEntry key value entries) = some value := by
  induction entries with
  | nil => simp [insertEntry, lookupEntry]
  | cons head rest ih =>
    simp only [insertEntry]
    split
    · simp [lookupEntry]
    · split
      · simp [lookupEntry]
      · rename_i hne
        simp [lookupEntry, hne, ih]

theorem lookupEntry_insertEntry_of_ne {α : Type u} {key other : String} (value : α)
    (entries : List (String × α)) (h : other ≠ key) :
    lookupEntry other (insertEntry key value entries) = lookupEntry other entries := by
  induction entries with
  | nil => simp [insertEntry, lookupEntry, h]
  | cons head rest ih =>
    simp only [insertEntry]
    split
    · simp [lookupEntry, h]
    · split
      · rename_i heq
        simp [lookupEntry, h, ← heq]
      · simp [lookupEntry, ih]

/-! ## Dictionaries -/

/-- A finite map from texts, its entries in the order of their keys. -/
structure Dictionary (α : Type u) where
  entries : List (String × α)
  sorted : entries.Pairwise (·.1 < ·.1)

namespace Dictionary

variable {α : Type u} {β : Type v}

@[ext] theorem ext {a b : Dictionary α} (h : a.entries = b.entries) : a = b := by
  cases a; cases b; simp_all

instance [DecidableEq α] : DecidableEq (Dictionary α) := fun a b =>
  decidable_of_iff (a.entries = b.entries) ⟨ext, fun h => h ▸ rfl⟩

/-- The dictionary without entries. -/
def empty : Dictionary α := ⟨[], .nil⟩

instance : Inhabited (Dictionary α) := ⟨empty⟩

/-- Whether there is no entry. -/
def isEmpty (d : Dictionary α) : Bool := d.entries.isEmpty

/-- The number of entries. -/
def size (d : Dictionary α) : Nat := d.entries.length

/-- The value under a key. -/
def get? (d : Dictionary α) (key : String) : Option α := lookupEntry key d.entries

/-- Enters a value under a key, in the place of the value that was there. -/
def insert (d : Dictionary α) (key : String) (value : α) : Dictionary α :=
  ⟨insertEntry key value d.entries, sorted_insertEntry d.sorted⟩

@[simp] theorem get?_empty (key : String) : (empty : Dictionary α).get? key = none := rfl

@[simp] theorem get?_insert_self (d : Dictionary α) (key : String) (value : α) :
    (d.insert key value).get? key = some value :=
  lookupEntry_insertEntry_self key value d.entries

theorem get?_insert_of_ne (d : Dictionary α) {key other : String} (value : α) (h : other ≠ key) :
    (d.insert key value).get? other = d.get? other :=
  lookupEntry_insertEntry_of_ne value d.entries h

/-- Enters the pairs one after the other, so that of two pairs with one key the later one stays. -/
def insertAll (d : Dictionary α) (pairs : List (String × α)) : Dictionary α :=
  pairs.foldl (fun d (key, value) => d.insert key value) d

@[simp] theorem insertAll_nil (d : Dictionary α) : d.insertAll [] = d := rfl

@[simp] theorem insertAll_cons (d : Dictionary α) (pair : String × α) (pairs : List (String × α)) :
    d.insertAll (pair :: pairs) = (d.insert pair.1 pair.2).insertAll pairs := rfl

theorem insertAll_append (d : Dictionary α) (first second : List (String × α)) :
    d.insertAll (first ++ second) = (d.insertAll first).insertAll second :=
  List.foldl_append

/-- The dictionary of the pairs; of two pairs with one key the later one stays. -/
def ofList (pairs : List (String × α)) : Dictionary α := empty.insertAll pairs

/-- Changes the value under a key; `none` stands for a key that is absent. -/
def alter (d : Dictionary α) (key : String) (f : Option α → α) : Dictionary α :=
  d.insert key (f (d.get? key))

@[simp] theorem get?_alter_self (d : Dictionary α) (key : String) (f : Option α → α) :
    (d.alter key f).get? key = some (f (d.get? key)) :=
  get?_insert_self d key _

theorem get?_alter_of_ne (d : Dictionary α) {key other : String} (f : Option α → α)
    (h : other ≠ key) : (d.alter key f).get? other = d.get? other :=
  get?_insert_of_ne d _ h

/-- The entries whose keys pass. -/
def filterKeys (d : Dictionary α) (passes : String → Bool) : Dictionary α :=
  ⟨d.entries.filter (passes ·.1), d.sorted.filter _⟩

theorem get?_filterKeys (d : Dictionary α) (passes : String → Bool) (key : String) :
    (d.filterKeys passes).get? key = if passes key then d.get? key else none := by
  obtain ⟨entries, hsorted⟩ := d
  simp only [get?, filterKeys]
  clear hsorted
  induction entries with
  | nil => simp [lookupEntry]
  | cons head rest ih =>
    by_cases hpass : passes head.1 = true
    · by_cases hkey : key = head.1
      · subst hkey; simp [lookupEntry, hpass]
      · simp [lookupEntry, hpass, hkey, ih]
    · by_cases hkey : key = head.1
      · subst hkey; simp [ih, hpass]
      · simp [lookupEntry, hpass, hkey, ih]

end Dictionary

/-! ## Name sets -/

/-- A finite set of texts, in order. -/
structure NameSet where
  toDictionary : Dictionary Unit
deriving DecidableEq

namespace NameSet

/-- The set without names. -/
def empty : NameSet := ⟨.empty⟩

instance : Inhabited NameSet := ⟨empty⟩

/-- The names in order. -/
def toList (s : NameSet) : List String := s.toDictionary.entries.map (·.1)

/-- Whether there is no name. -/
def isEmpty (s : NameSet) : Bool := s.toDictionary.isEmpty

/-- Whether a text is one of the names. -/
def contains (s : NameSet) (name : String) : Bool := (s.toDictionary.get? name).isSome

/-- Adds a name. -/
def insert (s : NameSet) (name : String) : NameSet := ⟨s.toDictionary.insert name ()⟩

/-- The set of the given names. -/
def ofList (names : List String) : NameSet := names.foldl insert empty

@[simp] theorem contains_empty (name : String) : empty.contains name = false := rfl

theorem contains_insert (s : NameSet) (name other : String) :
    (s.insert name).contains other = (decide (other = name) || s.contains other) := by
  by_cases h : other = name
  · subst h; simp [contains, insert]
  · simp [contains, insert, Dictionary.get?_insert_of_ne _ _ h, h]

theorem mem_toList {s : NameSet} {name : String} : name ∈ s.toList ↔ s.contains name = true :=
  isSome_lookupEntry_iff.symm

/-- The set of some names has just these names. -/
theorem contains_ofList {names : List String} {name : String} :
    (ofList names).contains name = true ↔ name ∈ names := by
  have hfold : ∀ (names : List String) (s : NameSet),
      (names.foldl insert s).contains name = true ↔ name ∈ names ∨ s.contains name = true := by
    intro names
    induction names with
    | nil => simp
    | cons head rest ih =>
      intro s
      rw [List.foldl_cons, ih, contains_insert, List.mem_cons, Bool.or_eq_true, decide_eq_true_eq]
      constructor
      · rintro (h | h | h)
        · exact .inl (.inr h)
        · exact .inl (.inl h)
        · exact .inr h
      · rintro ((h | h) | h)
        · exact .inr (.inl h)
        · exact .inl h
        · exact .inr (.inr h)
  simp [ofList, hfold]

end NameSet

end PerfRelay
