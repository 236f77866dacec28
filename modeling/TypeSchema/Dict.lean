/-!
# Ordered dictionaries

Entries stay in the order in which their keys first came; storing under a known key replaces the
value where it stands.  JSON objects, schemas, the registry of definitions and the tables of a
program graph all keep this order, because the documents written from them show it.

`Entries` holds the operations on plain lists of pairs.  `Dict` adds that keys differ, so that a
look-up and a position speak of the same entry.
-/

namespace TypeSchema

abbrev Entries (κ α : Type) := List (κ × α)

namespace Entries

variable {κ α : Type}

def keys (entries : Entries κ α) : List κ := entries.map (·.1)

def values (entries : Entries κ α) : List α := entries.map (·.2)

@[simp] theorem keys_nil : keys ([] : Entries κ α) = [] := rfl

@[simp] theorem keys_cons (entry : κ × α) (rest : Entries κ α) :
    keys (entry :: rest) = entry.1 :: keys rest := rfl

variable [DecidableEq κ]

def find? (key : κ) : Entries κ α → Option α
  | [] => none
  | (k, value) :: rest => if k = key then some value else find? key rest

def contains (key : κ) (entries : Entries κ α) : Bool := (find? key entries).isSome

def insert (key : κ) (value : α) : Entries κ α → Entries κ α
  | [] => [(key, value)]
  | (k, old) :: rest =>
    if k = key then (key, value) :: rest else (k, old) :: insert key value rest

def merge (entries later : Entries κ α) : Entries κ α :=
  later.foldl (fun all entry => insert entry.1 entry.2 all) entries

/-! ## Keys -/

theorem keys_insert (key : κ) (value : α) (entries : Entries κ α) :
    keys (insert key value entries) =
      if key ∈ keys entries then keys entries else keys entries ++ [key] := by
  induction entries with
  | nil => simp [insert, keys]
  | cons entry rest ih =>
    obtain ⟨k, old⟩ := entry
    by_cases h : k = key
    · simp [insert, h]
    · have h' : key ≠ k := fun e => h e.symm
      by_cases hm : key ∈ keys rest <;> simp [insert, h, h', ih, hm]

theorem nodup_keys_insert {entries : Entries κ α} (h : (keys entries).Nodup) (key : κ)
    (value : α) : (keys (insert key value entries)).Nodup := by
  rw [keys_insert]
  split
  · exact h
  · rename_i hm
    rw [List.nodup_append]
    refine ⟨h, by simp, ?_⟩
    intro a ha b hb
    simp only [List.mem_singleton] at hb
    subst hb
    exact fun e => hm (e ▸ ha)

theorem nodup_keys_merge {entries : Entries κ α} (h : (keys entries).Nodup)
    (later : Entries κ α) : (keys (merge entries later)).Nodup := by
  induction later generalizing entries with
  | nil => exact h
  | cons entry rest ih => exact ih (nodup_keys_insert h entry.1 entry.2)

theorem insert_append_of_not_mem {key : κ} {entries : Entries κ α} (h : key ∉ keys entries)
    (value : α) (later : Entries κ α) :
    insert key value (entries ++ later) = entries ++ insert key value later := by
  induction entries with
  | nil => rfl
  | cons entry rest ih =>
    obtain ⟨k, old⟩ := entry
    rw [keys_cons, List.mem_cons, not_or] at h
    simp [insert, Ne.symm h.1, ih h.2]

/-- A key that differs from those before it is stored behind them. -/
theorem insert_of_nodup {key : κ} {value : α} {entries later : Entries κ α}
    (h : (keys (entries ++ (key, value) :: later)).Nodup) :
    insert key value entries = entries ++ [(key, value)] := by
  have hnew : key ∉ keys entries := by
    rw [keys, List.map_append, List.nodup_append] at h
    exact fun hold => h.2.2 _ hold key List.mem_cons_self rfl
  have happend := insert_append_of_not_mem hnew value []
  rwa [List.append_nil] at happend

theorem merge_of_nodup {entries later : Entries κ α} (h : (keys (entries ++ later)).Nodup) :
    merge entries later = entries ++ later := by
  induction later generalizing entries with
  | nil => exact (List.append_nil entries).symm
  | cons entry rest ih =>
    change merge (insert entry.1 entry.2 entries) rest = _
    rw [insert_of_nodup h, List.append_cons entries entry rest]
    exact ih (by rwa [← List.append_cons])

/-! ## Look-up -/

@[simp] theorem find?_nil (key : κ) : find? key ([] : Entries κ α) = none := rfl

@[simp] theorem find?_insert_self (key : κ) (value : α) (entries : Entries κ α) :
    find? key (insert key value entries) = some value := by
  induction entries with
  | nil => simp [insert, find?]
  | cons entry rest ih =>
    obtain ⟨k, old⟩ := entry
    by_cases h : k = key <;> simp [insert, find?, h, ih]

theorem find?_insert_of_ne {key other : κ} (h : other ≠ key) (value : α)
    (entries : Entries κ α) :
    find? other (insert key value entries) = find? other entries := by
  induction entries with
  | nil => simp [insert, find?, h.symm]
  | cons entry rest ih =>
    obtain ⟨k, old⟩ := entry
    by_cases hk : k = key
    · subst hk
      simp [insert, find?, h.symm]
    · simp [insert, find?, hk, ih]

theorem find?_eq_none_iff {key : κ} {entries : Entries κ α} :
    find? key entries = none ↔ key ∉ keys entries := by
  induction entries with
  | nil => simp
  | cons entry rest ih =>
    obtain ⟨k, old⟩ := entry
    by_cases h : k = key
    · simp [find?, h]
    · have h' : key ≠ k := fun e => h e.symm
      simp [find?, h, h', ih]

theorem mem_of_find?_eq_some {key : κ} {value : α} {entries : Entries κ α}
    (h : find? key entries = some value) : (key, value) ∈ entries := by
  induction entries with
  | nil => simp at h
  | cons entry rest ih =>
    obtain ⟨k, old⟩ := entry
    by_cases hk : k = key
    · simp only [find?, hk, if_true, Option.some.injEq] at h
      simp [hk, h]
    · simp only [find?, hk, if_false] at h
      exact List.mem_cons_of_mem _ (ih h)

theorem find?_insert (key other : κ) (value : α) (entries : Entries κ α) :
    find? other (insert key value entries) =
      if other = key then some value else find? other entries := by
  by_cases h : other = key
  · simp [h]
  · simp [h, find?_insert_of_ne h]

theorem mem_keys_iff {key : κ} {entries : Entries κ α} :
    key ∈ keys entries ↔ ∃ value, find? key entries = some value := by
  rw [← Option.ne_none_iff_exists', ne_eq, find?_eq_none_iff, Decidable.not_not]

theorem find?_eq_some_iff_mem {key : κ} {value : α} {entries : Entries κ α}
    (h : (keys entries).Nodup) : find? key entries = some value ↔ (key, value) ∈ entries := by
  refine ⟨mem_of_find?_eq_some, fun hm => ?_⟩
  induction entries with
  | nil => simp at hm
  | cons entry rest ih =>
    obtain ⟨k, old⟩ := entry
    rw [keys_cons, List.nodup_cons] at h
    rcases List.mem_cons.1 hm with he | hm
    · cases he
      simp [find?]
    · have hk : k ≠ key := fun e => h.1 (e ▸ List.mem_map.2 ⟨(key, value), hm, rfl⟩)
      simp [find?, hk, ih h.2 hm]

theorem mem_of_mem_insert {key : κ} {value : α} {entry : κ × α} {entries : Entries κ α}
    (h : entry ∈ insert key value entries) : entry = (key, value) ∨ entry ∈ entries := by
  induction entries with
  | nil => simpa [insert] using h
  | cons first rest ih =>
    obtain ⟨k, old⟩ := first
    simp only [insert] at h
    split at h
    · rcases List.mem_cons.1 h with h | h
      · exact .inl h
      · exact .inr (List.mem_cons_of_mem _ h)
    · rcases List.mem_cons.1 h with rfl | h
      · exact .inr List.mem_cons_self
      · exact (ih h).imp_right (List.mem_cons_of_mem _)

/-- An entry that is left out both before and after is as if it were not there. -/
theorem filter_insert {p : κ × α → Bool} {key : κ} {value : α} {entries : Entries κ α}
    (hold : ∀ old, find? key entries = some old → p (key, old) = false)
    (hnew : p (key, value) = false) : (insert key value entries).filter p = entries.filter p := by
  induction entries with
  | nil => simp [insert, hnew]
  | cons entry rest ih =>
    obtain ⟨k, old⟩ := entry
    by_cases hk : k = key
    · subst hk
      simp [insert, hnew, hold old (by simp [find?])]
    · simp [insert, hk, List.filter_cons, ih fun old h => hold old (by simpa [find?, hk] using h)]

theorem mem_of_mem_merge {entry : κ × α} {entries later : Entries κ α}
    (h : entry ∈ merge entries later) : entry ∈ entries ∨ entry ∈ later := by
  induction later generalizing entries with
  | nil => exact .inl h
  | cons first rest ih =>
    rcases ih h with h | h
    · rcases mem_of_mem_insert h with rfl | h
      · exact .inr List.mem_cons_self
      · exact .inl h
    · exact .inr (List.mem_cons_of_mem _ h)

theorem find?_merge {key : κ} {later : Entries κ α} (h : (keys later).Nodup)
    (entries : Entries κ α) :
    find? key (merge entries later) = (find? key later).or (find? key entries) := by
  induction later generalizing entries with
  | nil => rfl
  | cons entry rest ih =>
    obtain ⟨k, value⟩ := entry
    rw [keys_cons, List.nodup_cons] at h
    change find? key (merge (insert k value entries) rest) = _
    rw [ih h.2, find?_insert]
    by_cases hk : k = key
    · subst hk
      simp [find?, find?_eq_none_iff.2 h.1]
    · simp [find?, hk, Ne.symm hk]

theorem keys_merge {later : Entries κ α} (h : (keys later).Nodup) (entries : Entries κ α) :
    keys (merge entries later) = keys entries ++ (keys later).filter (· ∉ keys entries) := by
  induction later generalizing entries with
  | nil => simp [merge]
  | cons entry rest ih =>
    obtain ⟨k, value⟩ := entry
    rw [keys_cons, List.nodup_cons] at h
    change keys (merge (insert k value entries) rest) = _
    rw [ih h.2, keys_insert]
    by_cases hk : k ∈ keys entries
    · simp [hk]
    · -- the new key is none of the rest, so what the rest adds is the same without it
      have hrest : (keys rest).filter (· ∉ keys entries ++ [k]) =
          (keys rest).filter (· ∉ keys entries) := by
        apply List.filter_congr
        intro key hkey
        have hne : key ≠ k := fun e => h.1 (e ▸ hkey)
        simp [hne]
      rw [if_neg hk, hrest, keys_cons, List.filter_cons_of_pos (by simpa using hk)]
      simp

/-- Entries are determined by the order of their keys and by what is found under each of them. -/
theorem eq_of_find? {entries others : Entries κ α} (h : (keys entries).Nodup)
    (hkeys : keys entries = keys others)
    (hfind : ∀ key, find? key entries = find? key others) : entries = others := by
  induction entries generalizing others with
  | nil =>
    cases others with
    | nil => rfl
    | cons other rest => simp at hkeys
  | cons entry rest ih =>
    obtain ⟨k, value⟩ := entry
    cases others with
    | nil => simp at hkeys
    | cons other rest' =>
      obtain ⟨k', value'⟩ := other
      simp only [keys_cons, List.cons.injEq] at hkeys
      obtain ⟨rfl, hrest⟩ := hkeys
      rw [keys_cons, List.nodup_cons] at h
      have hvalue : value = value' := by simpa [find?] using hfind k
      have hfindRest : ∀ key, find? key rest = find? key rest' := by
        intro key
        by_cases hk : k = key
        · rw [← hk, find?_eq_none_iff.2 h.1, find?_eq_none_iff.2 (hrest ▸ h.1)]
        · simpa [find?, hk] using hfind key
      rw [hvalue, ih h.2 hrest hfindRest]

end Entries

structure Dict (κ α : Type) where
  entries : Entries κ α
  nodup : entries.keys.Nodup

namespace Dict

variable {κ α β : Type}

theorem ext {d e : Dict κ α} (h : d.entries = e.entries) : d = e := by
  cases d; cases e; cases h; rfl

instance [DecidableEq κ] [DecidableEq α] : DecidableEq (Dict κ α) := fun d e =>
  decidable_of_iff (d.entries = e.entries) ⟨ext, fun h => h ▸ rfl⟩

def empty : Dict κ α := ⟨[], List.nodup_nil⟩

instance : EmptyCollection (Dict κ α) := ⟨empty⟩

instance : Inhabited (Dict κ α) := ⟨empty⟩

def keys (d : Dict κ α) : List κ := d.entries.keys

def values (d : Dict κ α) : List α := d.entries.values

def size (d : Dict κ α) : Nat := d.entries.length

def isEmpty (d : Dict κ α) : Bool := d.entries.isEmpty

def mapValues (f : α → β) (d : Dict κ α) : Dict κ β where
  entries := d.entries.map fun entry => (entry.1, f entry.2)
  nodup := by
    have h := d.nodup
    simpa [Entries.keys, Function.comp_def] using h

theorem keys_eq_nil_iff {d : Dict κ α} : d.keys = [] ↔ d.isEmpty = true := by
  rw [isEmpty, List.isEmpty_iff]
  exact List.map_eq_nil_iff

theorem isEmpty_iff {d : Dict κ α} : d.isEmpty = true ↔ d = empty := by
  rw [isEmpty, List.isEmpty_iff]
  exact ⟨fun h => ext h, fun h => h ▸ rfl⟩

variable [DecidableEq κ]

def find? (d : Dict κ α) (key : κ) : Option α := Entries.find? key d.entries

def contains (d : Dict κ α) (key : κ) : Bool := Entries.contains key d.entries

def insert (d : Dict κ α) (key : κ) (value : α) : Dict κ α :=
  ⟨Entries.insert key value d.entries, Entries.nodup_keys_insert d.nodup key value⟩

def insertAll (d : Dict κ α) (entries : Entries κ α) : Dict κ α :=
  ⟨Entries.merge d.entries entries, Entries.nodup_keys_merge d.nodup entries⟩

/-- Entries of the later dictionary win; keys of the earlier one keep their places. -/
def merge (d later : Dict κ α) : Dict κ α := d.insertAll later.entries

def ofEntries (entries : Entries κ α) : Dict κ α := Dict.empty.insertAll entries

@[simp] theorem find?_empty (key : κ) : (∅ : Dict κ α).find? key = none := rfl

@[simp] theorem find?_insert_self (d : Dict κ α) (key : κ) (value : α) :
    (d.insert key value).find? key = some value :=
  Entries.find?_insert_self key value d.entries

theorem find?_insert_of_ne (d : Dict κ α) {key other : κ} (h : other ≠ key) (value : α) :
    (d.insert key value).find? other = d.find? other :=
  Entries.find?_insert_of_ne h value d.entries

theorem keys_insert (d : Dict κ α) (key : κ) (value : α) :
    (d.insert key value).keys = if key ∈ d.keys then d.keys else d.keys ++ [key] :=
  Entries.keys_insert key value d.entries

theorem find?_insert (d : Dict κ α) (key other : κ) (value : α) :
    (d.insert key value).find? other = if other = key then some value else d.find? other :=
  Entries.find?_insert key other value d.entries

theorem mem_entries_iff {d : Dict κ α} {key : κ} {value : α} :
    (key, value) ∈ d.entries ↔ d.find? key = some value :=
  (Entries.find?_eq_some_iff_mem d.nodup).symm

theorem mem_keys_iff {d : Dict κ α} {key : κ} : key ∈ d.keys ↔ ∃ value, d.find? key = some value :=
  Entries.mem_keys_iff

theorem eq_empty_of_find? {d : Dict κ α} (h : ∀ key, d.find? key = none) : d = empty := by
  refine isEmpty_iff.1 (keys_eq_nil_iff.1 (List.eq_nil_iff_forall_not_mem.2 fun key hkey => ?_))
  obtain ⟨value, hvalue⟩ := mem_keys_iff.1 hkey
  rw [h key] at hvalue
  cases hvalue

theorem contains_iff_mem_keys {d : Dict κ α} {key : κ} : d.contains key = true ↔ key ∈ d.keys := by
  rw [mem_keys_iff, contains, Entries.contains, Option.isSome_iff_exists]
  rfl

theorem mem_keys_insert {d : Dict κ α} {key other : κ} {value : α} :
    other ∈ (d.insert key value).keys ↔ other = key ∨ other ∈ d.keys := by
  rw [keys_insert]
  split
  · rename_i h
    exact ⟨.inr, fun ho => ho.elim (fun e => e ▸ h) id⟩
  · rw [List.mem_append, List.mem_singleton, or_comm]

@[simp] theorem empty_merge (later : Dict κ α) : empty.merge later = later :=
  ext (Entries.merge_of_nodup later.nodup)

theorem find?_merge (d later : Dict κ α) (key : κ) :
    (d.merge later).find? key = (later.find? key).or (d.find? key) :=
  Entries.find?_merge later.nodup d.entries

theorem keys_merge (d later : Dict κ α) :
    (d.merge later).keys = d.keys ++ later.keys.filter (· ∉ d.keys) :=
  Entries.keys_merge later.nodup d.entries

theorem eq_of_find? {d e : Dict κ α} (hkeys : d.keys = e.keys)
    (hfind : ∀ key, d.find? key = e.find? key) : d = e :=
  ext (Entries.eq_of_find? d.nodup hkeys hfind)

omit [DecidableEq κ] in
@[simp] theorem keys_mapValues (f : α → β) (d : Dict κ α) : (d.mapValues f).keys = d.keys := by
  simp [keys, mapValues, Entries.keys, Function.comp_def]

theorem find?_mapValues (f : α → β) (d : Dict κ α) (key : κ) :
    (d.mapValues f).find? key = (d.find? key).map f := by
  obtain ⟨entries, nodup⟩ := d
  change Entries.find? key (entries.map fun entry => (entry.1, f entry.2)) =
    (Entries.find? key entries).map f
  clear nodup
  induction entries with
  | nil => rfl
  | cons entry rest ih =>
    by_cases h : entry.1 = key <;> simp [Entries.find?, h, ih]

end Dict

end TypeSchema
