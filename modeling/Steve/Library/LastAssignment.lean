import Steve.Library.Dict

/-!
# Assigning in turn with repeated keys

Assigning a list of entries to a dictionary one after the other keeps, for every key, the last
entry under it. What the dictionary held under other keys stays.
-/

namespace Steve.Library.Dict

variable {K V : Type*} [DecidableEq K]

/-- The entries that no later entry replaces. -/
def lastEntries : List (K × V) → List (K × V)
  | [] => []
  | entry :: rest =>
    if entry.1 ∈ rest.map Prod.fst then lastEntries rest else entry :: lastEntries rest

/-- An assignment leaves the other keys' entries and one of the key. -/
theorem entries_set_perm (d : Dict K V) (key : K) (value : V) :
    (d.set key value).entries.Perm
      ((d.entries.filter fun entry => entry.1 ≠ key) ++ [(key, value)]) := by
  obtain ⟨entries, hnodup⟩ := d
  change (assign key value entries).Perm _
  induction entries with
  | nil => exact List.Perm.refl _
  | cons entry rest ih =>
    obtain ⟨hentry, hrest⟩ := List.nodup_cons.mp hnodup
    rw [assign]
    by_cases hkey : entry.1 = key
    · have hothers : rest.filter (fun entry => entry.1 ≠ key) = rest := by
        rw [List.filter_eq_self]
        intro other hother
        rw [decide_eq_true_eq]
        intro hsame
        exact hentry (List.mem_map.mpr ⟨other, hother, hsame.trans hkey.symm⟩)
      rw [if_pos hkey, List.filter_cons_of_neg (by simpa using hkey), hothers]
      exact (List.perm_append_singleton _ _).symm
    · rw [if_neg hkey, List.filter_cons_of_pos (by simpa using hkey), List.cons_append]
      exact (ih hrest).cons entry

/-- Assigning in turn leaves the old entries of other keys and each key's last entry. -/
theorem entries_setAll_perm (d : Dict K V) (entries : List (K × V)) :
    (d.setAll entries).entries.Perm
      ((d.entries.filter fun entry => entry.1 ∉ entries.map Prod.fst) ++
        lastEntries entries) := by
  induction entries generalizing d with
  | nil =>
    have hkept : d.entries.filter (fun entry => entry.1 ∉ ([] : List (K × V)).map Prod.fst) =
        d.entries := List.filter_eq_self.mpr fun _ _ => rfl
    rw [hkept, lastEntries, List.append_nil]
    exact List.Perm.refl _
  | cons entry rest ih =>
    have hold : ((d.set entry.1 entry.2).entries.filter fun old => old.1 ∉ rest.map Prod.fst).Perm
        ((d.entries.filter fun old => old.1 ∉ (entry :: rest).map Prod.fst) ++
          [entry].filter fun old => old.1 ∉ rest.map Prod.fst) := by
      have hset := (entries_set_perm d entry.1 entry.2).filter
        fun old => old.1 ∉ rest.map Prod.fst
      rw [List.filter_append, List.filter_filter] at hset
      simpa only [List.map_cons, List.mem_cons, not_or, Bool.decide_and, Bool.and_comm] using hset
    refine (ih (d.set entry.1 entry.2)).trans ((hold.append_right _).trans ?_)
    rw [lastEntries, List.append_assoc]
    split
    · rename_i hlater
      rw [List.filter_cons_of_neg (by simpa using hlater), List.filter_nil, List.nil_append]
    · rename_i hlast
      rw [List.filter_cons_of_pos (by simpa using hlast), List.filter_nil, List.singleton_append]

/-- Assigning in turn to an empty dictionary leaves each key's last entry. -/
theorem entries_setAll_empty_perm (entries : List (K × V)) :
    ((empty : Dict K V).setAll entries).entries.Perm (lastEntries entries) :=
  entries_setAll_perm empty entries

end Steve.Library.Dict
