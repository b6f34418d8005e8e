import Mathlib.Data.List.Dedup
import Mathlib.Data.List.Induction
import Mathlib.Data.List.Nodup
import Mathlib.Data.List.Perm.Subperm
import PerfRelay.Dictionary

/-!
# Keys and look-ups of dictionaries

A dictionary holds every key once and in order, so it is known by its look-ups, and there are no
more entries than names that its keys are among.

Main results:

- Theorem `size_le_of_keys_subset`: a bound on the number of entries.
- Theorem `ext_get?`: dictionaries with the same look-ups are equal.
- Theorem `getLast?_entries_eq_some_iff`: the last entry has the greatest key.
- Theorems `get?_ofList` and `get?_ofList_eq_some_iff`: what a dictionary that was made from pairs
  holds, and what it holds if their keys are distinct.
- Theorem `get?_insertAll`: what a dictionary holds after more pairs.
- Theorems `get?_rename_eq_some_iff` and `rename_rename`: dictionaries with other keys.
-/

namespace PerfRelay

namespace Dictionary

variable {α : Type}

/-! ## Keys -/

/-- The keys of a dictionary. -/
def keys (d : Dictionary α) : List String := d.entries.map (·.1)

theorem nodup_keys (d : Dictionary α) : d.keys.Nodup := by
  rw [keys, List.Nodup, List.pairwise_map]
  apply d.sorted.imp
  intro first second hlt heq
  exact String.lt_irrefl second.1 (heq ▸ hlt)

theorem mem_keys_iff {d : Dictionary α} {key : String} :
    key ∈ d.keys ↔ ∃ value, d.get? key = some value := by
  rw [keys, ← isSome_lookupEntry_iff, Option.isSome_iff_exists]
  rfl

theorem get?_eq_none_iff {d : Dictionary α} {key : String} :
    d.get? key = none ↔ key ∉ d.keys := by
  rw [mem_keys_iff, Option.eq_none_iff_forall_ne_some, not_exists]

theorem mem_keys_insert {d : Dictionary α} {key other : String} {value : α}
    (h : other ∈ (d.insert key value).keys) : other = key ∨ other ∈ d.keys := by
  obtain ⟨entry, hentry, rfl⟩ := List.mem_map.1 h
  rcases mem_keys_insertEntry hentry with hkey | hrest
  · exact .inl hkey
  · exact .inr (List.mem_map_of_mem hrest)

theorem mem_keys_filterKeys {d : Dictionary α} {passes : String → Bool} {key : String}
    (h : key ∈ (d.filterKeys passes).keys) : passes key = true ∧ key ∈ d.keys := by
  obtain ⟨entry, hentry, rfl⟩ := List.mem_map.1 h
  obtain ⟨hmem, hpass⟩ := List.mem_filter.1 hentry
  exact ⟨hpass, List.mem_map_of_mem hmem⟩

theorem isEmpty_of_isSome_get? {d : Dictionary α} {key : String}
    (h : (d.get? key).isSome = true) : d.isEmpty = false := by
  have hkey : key ∈ d.keys := isSome_lookupEntry_iff.1 h
  rw [isEmpty, List.isEmpty_eq_false_iff]
  rintro hnone
  simp [keys, hnone] at hkey

/-- If all keys pass, nothing is dropped. -/
theorem filterKeys_eq_self {d : Dictionary α} {passes : String → Bool}
    (h : ∀ key ∈ d.keys, passes key = true) : d.filterKeys passes = d := by
  apply ext
  apply List.filter_eq_self.2
  intro entry hentry
  exact h entry.1 (List.mem_map_of_mem hentry)

/-- A dictionary has at most one entry for each name that its keys are among. -/
theorem size_le_of_keys_subset {d : Dictionary α} {names : List String}
    (h : ∀ key ∈ d.keys, key ∈ names) : d.size ≤ names.dedup.length := by
  have hsubset : d.keys ⊆ names.dedup := by
    intro key hkey
    exact List.mem_dedup.2 (h key hkey)
  have hlength : d.keys.length ≤ names.dedup.length :=
    (List.subperm_of_subset d.nodup_keys hsubset).length_le
  rwa [keys, List.length_map] at hlength

/-! ## Look-ups -/

theorem nodup_entries (d : Dictionary α) : d.entries.Nodup :=
  List.Nodup.of_map _ d.nodup_keys

/-- The entries of a dictionary are what its look-ups give. -/
theorem mem_entries_iff {d : Dictionary α} {key : String} {value : α} :
    (key, value) ∈ d.entries ↔ d.get? key = some value := by
  obtain ⟨entries, hsorted⟩ := d
  simp only [get?]
  induction entries with
  | nil => simp [lookupEntry]
  | cons head rest ih =>
    obtain ⟨hhead, hrest⟩ := List.pairwise_cons.1 hsorted
    rw [List.mem_cons, ih hrest, lookupEntry]
    split
    · rename_i hkey
      subst hkey
      have hnone : lookupEntry head.1 rest = none := by
        rw [← Option.not_isSome_iff_eq_none, isSome_lookupEntry_iff, List.mem_map]
        rintro ⟨entry, hentry, hkey⟩
        exact String.lt_irrefl entry.1 (hkey ▸ hhead entry hentry)
      simp [hnone, Prod.ext_iff, eq_comm]
    · rename_i hkey
      simp [Prod.ext_iff, hkey]

theorem isEmpty_iff {d : Dictionary α} : d.isEmpty = true ↔ ∀ key, d.get? key = none := by
  constructor
  · intro hempty key
    rw [get?, List.isEmpty_iff.1 hempty, lookupEntry]
  · intro hnone
    by_contra hsome
    obtain ⟨entry, hentry⟩ := List.exists_mem_of_ne_nil _ fun h => hsome (List.isEmpty_iff.2 h)
    have := mem_entries_iff.1 hentry
    rw [hnone] at this
    cases this

/-- The last entry is the one with the greatest key. -/
theorem getLast?_entries_eq_some_iff {d : Dictionary α} {key : String} {value : α} :
    d.entries.getLast? = some (key, value) ↔
      d.get? key = some value ∧ ∀ other ∈ d.keys, other ≤ key := by
  constructor
  · intro hlast
    obtain ⟨front, hentries⟩ := List.getLast?_eq_some_iff.1 hlast
    refine ⟨mem_entries_iff.1 (hentries ▸ List.mem_append_right front List.mem_cons_self), ?_⟩
    intro other hother
    have hsorted := d.sorted
    rw [hentries, List.pairwise_append] at hsorted
    rw [keys, hentries, List.map_append, List.mem_append, List.map_singleton,
      List.mem_singleton] at hother
    rcases hother with hfront | rfl
    · obtain ⟨entry, hentry, rfl⟩ := List.mem_map.1 hfront
      have hlt := hsorted.2.2 entry hentry _ List.mem_cons_self
      exact String.not_lt.1 fun hgt => String.lt_irrefl _ (String.lt_trans hlt hgt)
    · exact String.le_refl _
  · rintro ⟨hget, hgreatest⟩
    have hmem := mem_entries_iff.2 hget
    rcases List.eq_nil_or_concat d.entries with hnil | ⟨front, last, hentries⟩
    · rw [hnil] at hmem
      cases hmem
    · rw [List.concat_eq_append] at hentries
      have hsorted := d.sorted
      rw [hentries, List.mem_append, List.mem_singleton] at hmem
      rw [hentries, List.pairwise_append] at hsorted
      rw [hentries, List.getLast?_concat]
      rcases hmem with hfront | rfl
      · -- An entry before the last one has a smaller key.
        have hlt := hsorted.2.2 _ hfront last List.mem_cons_self
        have hle := hgreatest last.1 (by
          rw [keys, hentries]
          exact List.mem_map_of_mem (List.mem_append_right front List.mem_cons_self))
        exact absurd hlt (String.not_lt.2 hle)
      · rfl

/-- A dictionary is known by its look-ups. -/
theorem ext_get? {a b : Dictionary α} (h : ∀ key, a.get? key = b.get? key) : a = b := by
  apply ext
  have hperm : a.entries.Perm b.entries := by
    rw [List.perm_ext_iff_of_nodup a.nodup_entries b.nodup_entries]
    rintro ⟨key, value⟩
    rw [mem_entries_iff, mem_entries_iff, h]
  apply hperm.eq_of_pairwise _ a.sorted b.sorted
  intro first second _ _ hlt hgt
  exact absurd (String.lt_trans hlt hgt) (String.lt_irrefl first.1)

/-- Of the pairs with one key the last one stays. -/
theorem get?_ofList (pairs : List (String × α)) (key : String) :
    (ofList pairs).get? key = ((pairs.filter (·.1 = key)).getLast?).map (·.2) := by
  induction pairs using List.reverseRecOn with
  | nil => simp [ofList]
  | append_singleton pairs pair ih =>
    rw [ofList] at ih ⊢
    rw [insertAll_append, insertAll_cons, insertAll_nil, List.filter_append]
    by_cases hkey : pair.1 = key
    · simp [← hkey]
    · simp [hkey, get?_insert_of_ne _ _ (Ne.symm hkey), ih]

/-- The keys of a dictionary are those of the pairs that it was made from. -/
theorem mem_keys_ofList {pairs : List (String × α)} {key : String} :
    key ∈ (ofList pairs).keys ↔ key ∈ pairs.map (·.1) := by
  rw [← not_iff_not, ← get?_eq_none_iff, get?_ofList, Option.map_eq_none_iff,
    List.getLast?_eq_none_iff, List.filter_eq_nil_iff, List.mem_map, not_exists]
  apply forall_congr'
  intro pair
  rw [decide_eq_true_eq, not_and]

/-- The entries of a dictionary are among the pairs that it was made from. -/
theorem mem_of_mem_ofList {pairs : List (String × α)} {pair : String × α}
    (h : pair ∈ (ofList pairs).entries) : pair ∈ pairs := by
  have hget : (ofList pairs).get? pair.1 = some pair.2 := mem_entries_iff.1 h
  rw [get?_ofList, Option.map_eq_some_iff] at hget
  obtain ⟨last, hlast, hvalue⟩ := hget
  obtain ⟨hmem, hkey⟩ := List.mem_filter.1 (List.mem_of_getLast? hlast)
  obtain rfl : last = pair := Prod.ext (of_decide_eq_true hkey) hvalue
  exact hmem

/-- Pairs with distinct keys are just the entries of their dictionary. -/
theorem get?_ofList_eq_some_iff {pairs : List (String × α)} (h : (pairs.map (·.1)).Nodup)
    {key : String} {value : α} :
    (ofList pairs).get? key = some value ↔ (key, value) ∈ pairs := by
  constructor
  · intro hget
    exact mem_of_mem_ofList (mem_entries_iff.2 hget)
  · intro hmem
    rw [get?_ofList, Option.map_eq_some_iff]
    have hfilter : (key, value) ∈ pairs.filter (·.1 = key) :=
      List.mem_filter.2 ⟨hmem, decide_eq_true rfl⟩
    cases hlast : (pairs.filter (·.1 = key)).getLast? with
    | none =>
      rw [List.getLast?_eq_none_iff.1 hlast] at hfilter
      cases hfilter
    | some pair =>
      obtain ⟨hpair, hkey⟩ := List.mem_filter.1 (List.mem_of_getLast? hlast)
      have heq : pair = (key, value) :=
        List.inj_on_of_nodup_map h hpair hmem (of_decide_eq_true hkey)
      exact ⟨pair, rfl, by rw [heq]⟩

/-- A dictionary is made again from its entries. -/
theorem ofList_entries (d : Dictionary α) : ofList d.entries = d := by
  apply ext_get?
  intro key
  apply Option.ext
  intro value
  rw [get?_ofList_eq_some_iff d.nodup_keys, mem_entries_iff]

/-- Among pairs with distinct keys, a key that is left out takes its pair along. -/
theorem filterKeys_ofList {front back : List (String × α)} {key : String} {value : α}
    (h : ((front ++ (key, value) :: back).map (·.1)).Nodup) :
    (ofList (front ++ (key, value) :: back)).filterKeys (· ≠ key) = ofList (front ++ back) := by
  have hperm : (front ++ (key, value) :: back).Perm ((key, value) :: (front ++ back)) :=
    List.perm_middle
  have hnodup := (hperm.map (·.1)).nodup_iff.1 h
  rw [List.map_cons, List.nodup_cons] at hnodup
  apply ext_get?
  intro other
  apply Option.ext
  intro a
  rw [get?_filterKeys, get?_ofList_eq_some_iff hnodup.2]
  split_ifs with hother
  · rw [get?_ofList_eq_some_iff h, hperm.mem_iff, List.mem_cons]
    have hne : (other, a) ≠ (key, value) := fun heq => of_decide_eq_true hother (Prod.mk.inj heq).1
    exact or_iff_right hne
  · obtain rfl : other = key := by simpa using hother
    have hgone : other ∉ (front ++ back).map (·.1) := hnodup.1
    refine iff_of_false (by simp) fun hmem => hgone ?_
    exact List.mem_map.2 ⟨(other, a), hmem, rfl⟩

/-- What was entered last is found first. -/
theorem get?_insertAll (d : Dictionary α) (pairs : List (String × α)) (key : String) :
    (d.insertAll pairs).get? key = ((ofList pairs).get? key).or (d.get? key) := by
  induction pairs using List.reverseRecOn with
  | nil => simp [ofList]
  | append_singleton pairs pair ih =>
    rw [ofList, insertAll_append, insertAll_append, insertAll_cons, insertAll_cons, insertAll_nil,
      insertAll_nil, ← ofList]
    by_cases hkey : key = pair.1
    · rw [hkey, get?_insert_self, get?_insert_self, Option.some_or]
    · rw [get?_insert_of_ne _ _ hkey, get?_insert_of_ne _ _ hkey, ih]

/-! ## Other names -/

/-- The dictionary with other keys; of two entries that get one key the later one stays. -/
def rename (f : String → String) (d : Dictionary α) : Dictionary α :=
  .ofList (d.entries.map fun (key, value) => (f key, value))

/-- Different keys stay different. -/
def KeepsApart (f : String → String) (d : Dictionary α) : Prop :=
  ∀ a ∈ d.keys, ∀ b ∈ d.keys, f a = f b → a = b

variable {d : Dictionary α} {f g : String → String}

theorem keys_rename : (d.entries.map fun (key, value) => (f key, value)).map (·.1) =
    d.keys.map f := by
  rw [keys, List.map_map, List.map_map]
  rfl

theorem mem_keys_rename {key : String} : key ∈ (d.rename f).keys ↔ ∃ old ∈ d.keys, f old = key := by
  rw [rename, mem_keys_ofList, keys_rename, List.mem_map]

theorem isEmpty_rename : (d.rename f).isEmpty = true ↔ d.isEmpty = true := by
  simp only [isEmpty_iff, get?_eq_none_iff, mem_keys_rename]
  constructor
  · intro hnone key hkey
    exact hnone (f key) ⟨key, hkey, rfl⟩
  · rintro hnone key ⟨old, hold, -⟩
    exact hnone old hold

/-- Where different keys stay different, every value is found under its new key. -/
theorem get?_rename_eq_some_iff (h : d.KeepsApart f) {key : String} {value : α} :
    (d.rename f).get? key = some value ↔ ∃ old, d.get? old = some value ∧ f old = key := by
  have hnodup : ((d.entries.map fun (key, value) => (f key, value)).map (·.1)).Nodup := by
    rw [keys_rename]
    exact List.Nodup.map_on h d.nodup_keys
  rw [rename, get?_ofList_eq_some_iff hnodup, List.mem_map]
  constructor
  · rintro ⟨⟨old, _⟩, hentry, heq⟩
    obtain ⟨rfl, rfl⟩ := Prod.mk.inj heq
    exact ⟨old, mem_entries_iff.1 hentry, rfl⟩
  · rintro ⟨old, hget, rfl⟩
    exact ⟨(old, value), mem_entries_iff.2 hget, rfl⟩

/-- Keys that are changed twice, while different ones stay different, are changed once. -/
theorem rename_rename (hf : d.KeepsApart f) (hg : d.KeepsApart (g ∘ f)) :
    (d.rename f).rename g = d.rename (g ∘ f) := by
  have hgf : (d.rename f).KeepsApart g := by
    intro a ha b hb heq
    obtain ⟨old, hold, rfl⟩ := mem_keys_rename.1 ha
    obtain ⟨other, hother, rfl⟩ := mem_keys_rename.1 hb
    rw [hg old hold other hother heq]
  apply ext_get?
  intro key
  apply Option.ext
  intro value
  rw [get?_rename_eq_some_iff hgf, get?_rename_eq_some_iff hg]
  constructor
  · rintro ⟨_, hget, rfl⟩
    obtain ⟨old, hold, rfl⟩ := (get?_rename_eq_some_iff hf).1 hget
    exact ⟨old, hold, rfl⟩
  · rintro ⟨old, hold, rfl⟩
    exact ⟨f old, (get?_rename_eq_some_iff hf).2 ⟨old, hold, rfl⟩, rfl⟩

theorem rename_congr (h : ∀ key ∈ d.keys, f key = g key) : d.rename f = d.rename g := by
  rw [rename, rename]
  congr 1
  apply List.map_congr_left
  intro entry hentry
  exact Prod.ext (h entry.1 (List.mem_map_of_mem hentry)) rfl

end Dictionary

/-- The names of a set are listed once each. -/
theorem NameSet.nodup_toList (s : NameSet) : s.toList.Nodup :=
  s.toDictionary.nodup_keys

end PerfRelay
