/-! Tables that keep the order in which their keys came in. -/

namespace LinkTrail

/-- Entries with no key twice. -/
structure Table (κ : Type) (α : Type) where
  entries : List (κ × α)
  nodup_keys : (entries.map Prod.fst).Nodup
deriving DecidableEq, Repr

namespace Table

variable {κ α : Type}

def empty : Table κ α := ⟨[], List.nodup_nil⟩

def keys (t : Table κ α) : List κ := t.entries.map Prod.fst

def values (t : Table κ α) : List α := t.entries.map Prod.snd

def size (t : Table κ α) : Nat := t.entries.length

instance : Membership κ (Table κ α) where
  mem t key := key ∈ t.keys

theorem mem_iff {t : Table κ α} {key : κ} : key ∈ t ↔ key ∈ t.keys := Iff.rfl

theorem eq_of_entries {t s : Table κ α} (h : t.entries = s.entries) : t = s := by
  cases t
  cases s
  cases h
  rfl

theorem eq_empty_of_forall {t : Table κ α} (h : ∀ key, key ∉ t) : t = empty := by
  apply eq_of_entries
  apply List.eq_nil_iff_forall_not_mem.2
  intro entry hmem
  exact h entry.1 (List.mem_map.2 ⟨entry, hmem, rfl⟩)

theorem nodup (t : Table κ α) : t.keys.Nodup := t.nodup_keys

@[simp] theorem length_keys (t : Table κ α) : t.keys.length = t.size := by
  simp [keys, size]

def filterMap (t : Table κ α) (f : κ → α → Option α) : Table κ α where
  entries := t.entries.filterMap fun entry => (f entry.1 entry.2).map (entry.1, ·)
  nodup_keys := by
    obtain ⟨entries, hnodup⟩ := t
    induction entries with
    | nil => simp
    | cons entry rest ih =>
        simp only [List.map_cons, List.nodup_cons] at hnodup
        rw [List.filterMap_cons]
        cases hvalue : f entry.1 entry.2 with
        | none => exact ih hnodup.2
        | some value =>
            simp only [Option.map_some, List.map_cons, List.nodup_cons]
            refine ⟨?_, ih hnodup.2⟩
            intro hmem
            simp only [List.mem_map, List.mem_filterMap, Option.map_eq_some_iff] at hmem
            obtain ⟨_, ⟨other, hother, _, _, rfl⟩, hkey⟩ := hmem
            exact hnodup.1 (List.mem_map.2 ⟨other, hother, hkey⟩)

variable [DecidableEq κ]

instance (key : κ) (t : Table κ α) : Decidable (key ∈ t) :=
  inferInstanceAs (Decidable (key ∈ t.keys))

def get? (t : Table κ α) (key : κ) : Option α := t.entries.lookup key

private theorem map_fst_replace (entries : List (κ × α)) (key : κ) (value : α) :
    (entries.map fun entry => if entry.1 = key then (key, value) else entry).map Prod.fst =
      entries.map Prod.fst := by
  rw [List.map_map]
  apply List.map_congr_left
  intro entry _
  by_cases hkey : entry.1 = key
  · simp [hkey]
  · simp [hkey]

/-- A key already present keeps its place and takes the new value; any other comes last. -/
def insert (t : Table κ α) (key : κ) (value : α) : Table κ α :=
  if h : key ∈ t.keys then
    { entries := t.entries.map fun entry => if entry.1 = key then (key, value) else entry
      nodup_keys := by
        rw [map_fst_replace]
        exact t.nodup_keys }
  else
    { entries := t.entries ++ [(key, value)]
      nodup_keys := by
        rw [List.map_append, List.nodup_append]
        refine ⟨t.nodup_keys, by simp, ?_⟩
        intro other hother last hlast
        obtain rfl : last = key := by simpa using hlast
        rintro rfl
        exact h hother }

def erase (t : Table κ α) (key : κ) : Table κ α where
  entries := t.entries.filter fun entry => entry.1 ≠ key
  nodup_keys := t.nodup_keys.sublist (List.filter_sublist.map Prod.fst)

/-- The entries from left to right, so that the last value given for a key is kept. -/
def ofList (entries : List (κ × α)) : Table κ α :=
  entries.foldl (fun t entry => t.insert entry.1 entry.2) empty

theorem keys_erase (t : Table κ α) (key : κ) :
    (t.erase key).keys = t.keys.filter (· ≠ key) := by
  simp [erase, keys, List.filter_map, Function.comp_def]

theorem keys_insert (t : Table κ α) (key : κ) (value : α) :
    (t.insert key value).keys = if key ∈ t then t.keys else t.keys ++ [key] := by
  by_cases h : key ∈ t.keys
  · simp only [insert, mem_iff, h, dite_true, if_true]
    exact map_fst_replace t.entries key value
  · simp only [insert, mem_iff, h, dite_false, if_false]
    simp [keys]

theorem mem_erase_iff {t : Table κ α} {key other : κ} :
    other ∈ t.erase key ↔ other ∈ t ∧ other ≠ key := by
  simp [mem_iff, keys_erase]

theorem mem_insert_iff {t : Table κ α} {key other : κ} {value : α} :
    other ∈ t.insert key value ↔ other ∈ t ∨ other = key := by
  rw [mem_iff, keys_insert]
  split
  · rename_i h
    constructor
    · exact Or.inl
    · rintro (hmem | rfl)
      · exact hmem
      · exact h
  · simp [mem_iff]

theorem get?_eq_none_iff {t : Table κ α} {key : κ} : t.get? key = none ↔ key ∉ t := by
  simp only [get?, List.lookup_eq_none_iff, mem_iff, keys, List.mem_map, not_exists, not_and]
  constructor
  · intro h entry hmem hkey
    exact absurd (beq_iff_eq.2 hkey.symm) (by simpa using h entry hmem)
  · intro h entry hmem
    simpa using fun hkey : key = entry.1 => h entry hmem hkey.symm

@[simp] theorem get?_empty (key : κ) : (empty : Table κ α).get? key = none := rfl

theorem get?_eq_some_iff {t : Table κ α} {key : κ} {value : α} :
    t.get? key = some value ↔ (key, value) ∈ t.entries := by
  obtain ⟨entries, hnodup⟩ := t
  simp only [get?]
  induction entries with
  | nil => simp
  | cons entry rest ih =>
      obtain ⟨hfirst, hrest⟩ := List.nodup_cons.1 hnodup
      rw [List.lookup_cons, List.mem_cons, ← ih hrest]
      by_cases hkey : key = entry.1
      · have hlookup : rest.lookup key ≠ some value := by
          intro h
          exact hfirst (List.mem_map.2 ⟨(key, value), (ih hrest).1 h, hkey⟩)
        subst hkey
        simp only [beq_self_eq_true, Option.some.injEq, hlookup, or_false]
        exact ⟨fun h => h ▸ rfl, fun h => (congrArg Prod.snd h).symm⟩
      · have hentry : (key, value) ≠ entry := fun h => hkey (congrArg Prod.fst h)
        simp [beq_eq_false_iff_ne.2 hkey, hentry]

theorem mem_iff_get? {t : Table κ α} {key : κ} : key ∈ t ↔ ∃ value, t.get? key = some value := by
  simp [mem_iff, keys, get?_eq_some_iff]

theorem mem_values_iff {t : Table κ α} {value : α} :
    value ∈ t.values ↔ ∃ key, t.get? key = some value := by
  simp [values, get?_eq_some_iff]

theorem mem_of_get? {t : Table κ α} {key : κ} {value : α} (h : t.get? key = some value) :
    key ∈ t := by
  apply Decidable.byContradiction
  intro hmem
  rw [get?_eq_none_iff.2 hmem] at h
  contradiction

private theorem lookup_replace (entries : List (κ × α)) (key other : κ) (value : α) :
    (entries.map fun entry => if entry.1 = key then (key, value) else entry).lookup other =
      if other = key then (entries.lookup key).map fun _ => value else entries.lookup other := by
  induction entries with
  | nil => simp
  | cons entry rest ih =>
      obtain ⟨first, old⟩ := entry
      by_cases hfirst : first = key
      · subst hfirst
        by_cases hkey : other = first
        · subst hkey
          simp
        · simp [List.lookup_cons, beq_eq_false_iff_ne.2 hkey, hkey, ih]
      · by_cases hkey : other = key
        · subst hkey
          simp [List.lookup_cons, beq_eq_false_iff_ne.2 (Ne.symm hfirst), hfirst, ih]
        · simp only [List.map_cons, hfirst, if_false, List.lookup_cons, ih, hkey]

theorem get?_insert (t : Table κ α) (key other : κ) (value : α) :
    (t.insert key value).get? other = if other = key then some value else t.get? other := by
  by_cases h : key ∈ t.keys
  · simp only [insert, h, dite_true, get?, lookup_replace]
    split
    · cases hlookup : t.entries.lookup key with
      | none => exact absurd h (get?_eq_none_iff.1 hlookup)
      | some _ => rfl
    · rfl
  · have hnone : t.entries.lookup key = none := get?_eq_none_iff.2 h
    simp only [insert, h, dite_false, get?, List.lookup_append]
    by_cases hkey : other = key
    · subst hkey
      simp [hnone]
    · simp [hkey, List.lookup_cons, beq_eq_false_iff_ne.2 hkey]

theorem entries_insert_of_not_mem {t : Table κ α} {key : κ} (h : key ∉ t) (value : α) :
    (t.insert key value).entries = t.entries ++ [(key, value)] := by
  have hkeys : key ∉ t.keys := h
  simp only [insert, hkeys, dite_false]

theorem insert_eq_self {t : Table κ α} {key : κ} {value : α} (h : t.get? key = some value) :
    t.insert key value = t := by
  have hsame : ∀ entry ∈ t.entries, (if entry.1 = key then (key, value) else entry) = entry := by
    intro entry hmem
    split
    · rename_i hkey
      have hvalue := get?_eq_some_iff.2 (show (entry.1, entry.2) ∈ t.entries from hmem)
      rw [hkey, h] at hvalue
      exact Prod.ext hkey.symm (Option.some.inj hvalue)
    · rfl
  have hkeys : key ∈ t.keys := mem_of_get? h
  apply eq_of_entries
  simp only [insert, hkeys, dite_true]
  exact (List.map_congr_left hsame).trans (List.map_id t.entries)

theorem erase_insert_of_not_mem {t : Table κ α} {key : κ} (h : key ∉ t) (value : α) :
    (t.insert key value).erase key = t := by
  have hothers : ∀ entry ∈ t.entries, entry.1 ≠ key := fun entry hmem hkey =>
    h (List.mem_map.2 ⟨entry, hmem, hkey⟩)
  apply eq_of_entries
  simpa [erase, entries_insert_of_not_mem h] using hothers

theorem get?_filterMap (t : Table κ α) (f : κ → α → Option α) (key : κ) :
    (t.filterMap f).get? key = (t.get? key).bind (f key) := by
  apply Option.ext
  intro value
  rw [get?_eq_some_iff, Option.bind_eq_some_iff]
  simp only [filterMap, List.mem_filterMap, Option.map_eq_some_iff, Prod.mk.injEq]
  constructor
  · rintro ⟨⟨_, old⟩, hmem, _, hvalue, rfl, rfl⟩
    exact ⟨old, get?_eq_some_iff.2 hmem, hvalue⟩
  · rintro ⟨old, hold, hvalue⟩
    exact ⟨(key, old), get?_eq_some_iff.1 hold, value, hvalue, rfl, rfl⟩

theorem get?_erase (t : Table κ α) (key other : κ) :
    (t.erase key).get? other = if other = key then none else t.get? other := by
  obtain ⟨entries, _⟩ := t
  simp only [get?, erase]
  induction entries with
  | nil => simp
  | cons entry rest ih =>
      rename_i hnodup
      replace ih := ih (List.nodup_cons.1 hnodup).2
      by_cases hentry : entry.1 = key
      · by_cases hkey : other = key
        · subst hkey
          simpa [hentry] using ih
        · have hbeq : (other == entry.1) = false :=
            beq_eq_false_iff_ne.2 (hentry ▸ hkey)
          rw [List.filter_cons_of_neg (by simp [hentry]), ih, List.lookup_cons, hbeq]
      · rw [List.filter_cons_of_pos (by simp [hentry]), List.lookup_cons, List.lookup_cons, ih]
        by_cases hkey : other = key
        · have hbeq : (other == entry.1) = false :=
            beq_eq_false_iff_ne.2 (hkey ▸ Ne.symm hentry)
          simp [hkey ▸ hbeq, hkey]
        · simp [hkey]

theorem size_insert_of_not_mem {t : Table κ α} {key : κ} {value : α} (h : key ∉ t) :
    (t.insert key value).size = t.size + 1 := by
  rw [← length_keys, keys_insert, if_neg h]
  simp

theorem size_insert_of_mem {t : Table κ α} {key : κ} {value : α} (h : key ∈ t) :
    (t.insert key value).size = t.size := by
  rw [← length_keys, keys_insert, if_pos h, length_keys]

theorem size_erase_lt {t : Table κ α} {key : κ} (h : key ∈ t) :
    (t.erase key).size < t.size := by
  simp only [mem_iff, keys, List.mem_map] at h
  obtain ⟨entry, hmem, hkey⟩ := h
  exact List.length_filter_lt_length_iff_exists.2 ⟨entry, hmem, by simp [hkey]⟩

end Table

end LinkTrail
