import Mathlib.Data.List.Nodup
import Mathlib.Data.List.Basic

/-!
# Insertion-ordered dictionaries

A finite map that remembers the order in which its keys first arrived. Assigning to a
present key replaces the value and keeps the key's place; assigning to an absent key
appends. The pairwise distinctness of the keys is a field of the structure, so a
dictionary with two entries for one key cannot be built.
-/

namespace Steve.Library

variable {K V : Type*}

/-- A finite map with its entries in order of first insertion. -/
structure Dict (K V : Type*) where
  entries : List (K × V)
  keysNodup : (entries.map Prod.fst).Nodup

namespace Dict

/-- Replace the value at a present key in place, or append a new entry. -/
def assign [DecidableEq K] (key : K) (value : V) : List (K × V) → List (K × V)
  | [] => [(key, value)]
  | entry :: rest =>
    if entry.1 = key then (key, value) :: rest else entry :: assign key value rest

/-- The value of the first entry stored under the key. -/
def find [DecidableEq K] (key : K) : List (K × V) → Option V
  | [] => none
  | entry :: rest => if entry.1 = key then some entry.2 else find key rest

/-- Assignment leaves the key sequence alone at a present key and appends an absent one. -/
theorem map_fst_assign [DecidableEq K] (key : K) (value : V) (entries : List (K × V)) :
    (assign key value entries).map Prod.fst =
      if key ∈ entries.map Prod.fst then entries.map Prod.fst
      else entries.map Prod.fst ++ [key] := by
  induction entries with
  | nil => simp [assign]
  | cons entry rest ih =>
    by_cases h : entry.1 = key
    · simp [assign, h]
    · have h' : ¬ key = entry.1 := fun e => h e.symm
      rw [assign, if_neg h, List.map_cons, ih]
      by_cases hrest : key ∈ rest.map Prod.fst
      · simp [hrest]
      · simp only [hrest, List.map_cons, List.mem_cons, h', or_self, if_false, List.cons_append]

/-- The empty dictionary. -/
def empty : Dict K V := ⟨[], List.nodup_nil⟩

/-- The keys in order of first insertion. -/
def keys (d : Dict K V) : List K := d.entries.map Prod.fst

/-- The values in the order of their keys. -/
def values (d : Dict K V) : List V := d.entries.map Prod.snd

/-- The number of keys. -/
def length (d : Dict K V) : ℕ := d.entries.length

/-- Look a key up. -/
def get? [DecidableEq K] (d : Dict K V) (key : K) : Option V := find key d.entries

/-- Assign a value to a key. -/
def set [DecidableEq K] (d : Dict K V) (key : K) (value : V) : Dict K V where
  entries := assign key value d.entries
  keysNodup := by
    rw [map_fst_assign]
    by_cases h : key ∈ d.entries.map Prod.fst
    · rw [if_pos h]
      exact d.keysNodup
    · rw [if_neg h]
      exact List.Nodup.append d.keysNodup (List.nodup_singleton key)
        (by simpa using h)

@[simp] theorem keys_empty : (empty : Dict K V).keys = [] := rfl

@[simp] theorem values_empty : (empty : Dict K V).values = [] := rfl

/-- The length counts the keys. -/
theorem length_eq_keys_length (d : Dict K V) : d.length = d.keys.length := by
  simp [length, keys]

/-- The keys of a dictionary are pairwise distinct. -/
theorem keys_nodup (d : Dict K V) : d.keys.Nodup := d.keysNodup

/-- Assignment adds at most the assigned key, at the end. -/
theorem keys_set [DecidableEq K] (d : Dict K V) (key : K) (value : V) :
    (d.set key value).keys = if key ∈ d.keys then d.keys else d.keys ++ [key] :=
  map_fst_assign key value d.entries

/-- The keys after an assignment are the old ones and the assigned one. -/
theorem mem_keys_set [DecidableEq K] (d : Dict K V) (key other : K) (value : V) :
    other ∈ (d.set key value).keys ↔ other = key ∨ other ∈ d.keys := by
  rw [keys_set]
  by_cases h : key ∈ d.keys
  · rw [if_pos h]
    constructor
    · exact Or.inr
    · rintro (rfl | hother)
      · exact h
      · exact hother
  · rw [if_neg h, List.mem_append, List.mem_singleton, or_comm]

/-- A new key is appended with its value. -/
theorem entries_set_of_notMem [DecidableEq K] (d : Dict K V) (key : K) (value : V)
    (h : key ∉ d.keys) : (d.set key value).entries = d.entries ++ [(key, value)] := by
  obtain ⟨entries, hnodup⟩ := d
  change key ∉ entries.map Prod.fst at h
  change assign key value entries = entries ++ [(key, value)]
  clear hnodup
  induction entries with
  | nil => rfl
  | cons entry rest ih =>
    rw [List.map_cons, List.mem_cons, not_or] at h
    rw [assign, if_neg (fun e => h.1 e.symm), ih h.2, List.cons_append]

/-- A new key's value is appended to the values. -/
theorem values_set_of_notMem [DecidableEq K] (d : Dict K V) (key : K) (value : V)
    (h : key ∉ d.keys) : (d.set key value).values = d.values ++ [value] := by
  simp [values, entries_set_of_notMem d key value h]

/-- The values after an assignment are among the old ones and the assigned one. -/
theorem mem_values_set [DecidableEq K] {d : Dict K V} {key : K} {value other : V}
    (h : other ∈ (d.set key value).values) : other = value ∨ other ∈ d.values := by
  obtain ⟨entries, hnodup⟩ := d
  change other ∈ (assign key value entries).map Prod.snd at h
  change other = value ∨ other ∈ entries.map Prod.snd
  clear hnodup
  induction entries with
  | nil => simpa [assign] using h
  | cons entry rest ih =>
    rw [assign] at h
    split at h
    · rw [List.map_cons, List.mem_cons] at h
      exact h.imp_right (List.mem_cons_of_mem _)
    · rw [List.map_cons, List.mem_cons] at h
      cases h with
      | inl hhead => exact Or.inr (List.mem_cons.mpr (Or.inl hhead))
      | inr hrest => exact (ih hrest).imp_right (List.mem_cons_of_mem _)

/-- A lookup after an assignment sees the new value at its key and the old ones elsewhere. -/
theorem get?_set [DecidableEq K] (d : Dict K V) (key other : K) (value : V) :
    (d.set key value).get? other = if key = other then some value else d.get? other := by
  obtain ⟨entries, hnodup⟩ := d
  change find other (assign key value entries) =
    if key = other then some value else find other entries
  clear hnodup
  induction entries with
  | nil => simp [assign, find]
  | cons entry rest ih =>
    by_cases h : entry.1 = key
    · rw [assign, if_pos h, find, find, h]
      by_cases hk : key = other <;> simp [hk]
    · simp only [assign, if_neg h, find, ih]
      by_cases hk : key = other
      · subst hk
        simp [h]
      · simp [hk]

/-- A key without a value is absent. -/
theorem notMem_keys_of_get?_eq_none [DecidableEq K] {d : Dict K V} {key : K}
    (h : d.get? key = none) : key ∉ d.keys := by
  obtain ⟨entries, hnodup⟩ := d
  change find key entries = none at h
  change key ∉ entries.map Prod.fst
  clear hnodup
  induction entries with
  | nil => exact List.not_mem_nil
  | cons entry rest ih =>
    rw [find] at h
    split at h
    · cases h
    · rename_i hother
      rw [List.map_cons, List.mem_cons, not_or]
      exact ⟨fun hsame => hother hsame.symm, ih h⟩

/-- Assign every entry in turn, as a loop over key and value pairs does. -/
def setAll [DecidableEq K] (d : Dict K V) (entries : List (K × V)) : Dict K V :=
  entries.foldl (fun d entry => d.set entry.1 entry.2) d

/-- Merge another dictionary in, whose values win. -/
def update [DecidableEq K] (d other : Dict K V) : Dict K V := d.setAll other.entries

/-- A key outside a list of entries is not found in it. -/
theorem find_eq_none_of_notMem [DecidableEq K] {key : K} {entries : List (K × V)}
    (h : key ∉ entries.map Prod.fst) : find key entries = none := by
  induction entries with
  | nil => rfl
  | cons entry rest ih =>
    rw [List.map_cons, List.mem_cons, not_or] at h
    rw [find, if_neg fun hsame => h.1 hsame.symm, ih h.2]

/-- What is found under a key is one of its entries. -/
theorem mem_of_find [DecidableEq K] {key : K} {value : V} {entries : List (K × V)}
    (h : find key entries = some value) : (key, value) ∈ entries := by
  induction entries with
  | nil => cases h
  | cons entry rest ih =>
    rw [find] at h
    split at h
    · rename_i hkey
      rw [← hkey, ← Option.some.inj h]
      exact List.mem_cons_self
    · exact List.mem_cons_of_mem entry (ih h)

/-- Among entries with distinct keys every one is found under its key. -/
theorem find_of_mem [DecidableEq K] {key : K} {value : V} {entries : List (K × V)}
    (hnodup : (entries.map Prod.fst).Nodup) (h : (key, value) ∈ entries) :
    find key entries = some value := by
  induction entries with
  | nil => cases h
  | cons entry rest ih =>
    rw [List.map_cons, List.nodup_cons] at hnodup
    rw [find]
    obtain rfl | hrest := List.mem_cons.mp h
    · rw [if_pos rfl]
    · have hkey : entry.1 ≠ key := by
        rintro rfl
        exact hnodup.1 (List.mem_map.mpr ⟨_, hrest, rfl⟩)
      rw [if_neg hkey, ih hnodup.2 hrest]

/-- After assigning distinct keys in turn, each has its new value and the others their old. -/
theorem get?_setAll [DecidableEq K] (d : Dict K V) {entries : List (K × V)}
    (h : (entries.map Prod.fst).Nodup) (key : K) :
    (d.setAll entries).get? key = (find key entries).or (d.get? key) := by
  induction entries generalizing d with
  | nil => rfl
  | cons entry rest ih =>
    rw [List.map_cons, List.nodup_cons] at h
    change ((d.set entry.1 entry.2).setAll rest).get? key = _
    rw [ih _ h.2, get?_set, find]
    by_cases hkey : entry.1 = key
    · rw [if_pos hkey, if_pos hkey, find_eq_none_of_notMem (hkey ▸ h.1)]
      rfl
    · rw [if_neg hkey, if_neg hkey]

/-- Assigning distinct new keys in turn appends the entries. -/
theorem entries_setAll [DecidableEq K] (d : Dict K V) {entries : List (K × V)}
    (h : (entries.map Prod.fst).Nodup) (hnew : ∀ key ∈ entries.map Prod.fst, key ∉ d.keys) :
    (d.setAll entries).entries = d.entries ++ entries := by
  induction entries generalizing d with
  | nil => exact (List.append_nil d.entries).symm
  | cons entry rest ih =>
    rw [List.map_cons, List.nodup_cons] at h
    rw [List.map_cons, List.forall_mem_cons] at hnew
    change ((d.set entry.1 entry.2).setAll rest).entries = _
    rw [ih _ h.2, entries_set_of_notMem d entry.1 entry.2 hnew.1, List.append_assoc]
    · rfl
    · intro key hkey hold
      obtain rfl | hold := (mem_keys_set d entry.1 key entry.2).mp hold
      · exact h.1 hkey
      · exact hnew.2 key hkey hold

/-- A merged dictionary looks keys up in the newer one first. -/
theorem get?_update [DecidableEq K] (d other : Dict K V) (key : K) :
    (d.update other).get? key = (other.get? key).or (d.get? key) :=
  get?_setAll d other.keysNodup key

/-- Entries left out by their keys are not found, the others as before. -/
theorem find_filter [DecidableEq K] (kept : K → Bool) (key : K) (entries : List (K × V)) :
    find key (entries.filter fun entry => kept entry.1) =
      if kept key then find key entries else none := by
  induction entries with
  | nil => simp [find]
  | cons entry rest ih =>
    rw [List.filter_cons]
    by_cases hkey : entry.1 = key
    · subst hkey
      cases hkept : kept entry.1 <;> simp_all [find]
    · cases kept entry.1 <;> simp [find, hkey, ih]

/-- An entry is one that its key looks up. -/
theorem mem_entries_iff [DecidableEq K] (d : Dict K V) (key : K) (value : V) :
    (key, value) ∈ d.entries ↔ d.get? key = some value :=
  ⟨find_of_mem d.keysNodup, mem_of_find⟩

/-- Assigning to a present key replaces its value in place. -/
theorem entries_set_of_get? [DecidableEq K] {d : Dict K V} {key : K} {old : V}
    (h : d.get? key = some old) (value : V) :
    ∃ before after, d.entries = before ++ (key, old) :: after ∧
      (d.set key value).entries = before ++ (key, value) :: after := by
  obtain ⟨entries, hnodup⟩ := d
  change find key entries = some old at h
  change ∃ before after, entries = before ++ (key, old) :: after ∧
    assign key value entries = before ++ (key, value) :: after
  clear hnodup
  induction entries with
  | nil => cases h
  | cons entry rest ih =>
    rw [find] at h
    rw [assign]
    by_cases hkey : entry.1 = key
    · rw [if_pos hkey, Option.some.injEq] at h
      rw [if_pos hkey]
      exact ⟨[], rest, by rw [← hkey, ← h]; rfl, rfl⟩
    · rw [if_neg hkey] at h
      obtain ⟨before, after, hentries, hassign⟩ := ih h
      rw [if_neg hkey, hentries] at *
      exact ⟨entry :: before, after, rfl, by rw [hassign]; rfl⟩

/-- The entries around a key's own are those of the other keys. -/
theorem mem_others_iff [DecidableEq K] {d : Dict K V} {key : K} {old : V}
    {before after : List (K × V)} (hentries : d.entries = before ++ (key, old) :: after)
    (other : K) (kept : V) :
    (other, kept) ∈ before ++ after ↔ d.get? other = some kept ∧ other ≠ key := by
  have hnodup := d.keysNodup
  rw [hentries, List.map_append, List.map_cons, List.nodup_middle, List.nodup_cons,
    ← List.map_append] at hnodup
  rw [← mem_entries_iff, hentries, List.mem_append, List.mem_append, List.mem_cons]
  constructor
  · intro hmem
    have hne : other ≠ key := by
      rintro rfl
      exact hnodup.1 (List.mem_map.mpr ⟨_, List.mem_append.mpr hmem, rfl⟩)
    exact ⟨hmem.imp id Or.inr, hne⟩
  · rintro ⟨hbefore | hsame | hafter, hne⟩
    · exact Or.inl hbefore
    · exact absurd (Prod.mk.inj hsame).1 hne
    · exact Or.inr hafter

/-- Looking up every key gives the values. -/
theorem map_getD_keys [DecidableEq K] (d : Dict K V) (default : V) :
    (d.keys.map fun key => (d.get? key).getD default) = d.values := by
  rw [keys, values, List.map_map]
  apply List.map_congr_left
  intro entry hentry
  rw [Function.comp_apply, (d.mem_entries_iff entry.1 entry.2).mp hentry, Option.getD_some]

@[simp] theorem get?_empty [DecidableEq K] (key : K) : (empty : Dict K V).get? key = none := rfl

end Dict

end Steve.Library
