import Mathlib.Data.List.AList

/-!
# Dictionaries

A finite dictionary is an association list without repeated keys, Mathlib's `AList` with one type of values.  Added
here: dropping the entries that fail a test, and the merge `update`, in which the later dictionary wins.
-/

abbrev Dict (K V : Type) := AList fun _ : K => V

namespace Dict

variable {K V : Type} [DecidableEq K]

/-- Keep the entries that pass the test. -/
def keep (p : V → Bool) (d : Dict K V) : Dict K V where
  entries := d.entries.filter fun x => p x.2
  nodupKeys := d.nodupKeys.sublist List.filter_sublist

/-- `d` overlaid with `extra`: a key of `extra` has the value it has there. -/
def update (d extra : Dict K V) : Dict K V := extra ∪ d

omit [DecidableEq K] in
theorem mem_entries_keep {p : V → Bool} {d : Dict K V} {x : (_ : K) × V} :
    x ∈ (d.keep p).entries ↔ x ∈ d.entries ∧ p x.2 = true := by
  simp [keep]

/-- Writing under a key adds one entry at most. -/
theorem mem_entries_insert {d : Dict K V} {k : K} {v : V} {x : (_ : K) × V} (h : x ∈ (AList.insert k v d).entries) :
    x = ⟨k, v⟩ ∨ x ∈ d.entries := by
  rw [AList.entries_insert] at h
  rcases List.mem_cons.1 h with h | h
  · exact Or.inl h
  · exact Or.inr ((List.kerase_sublist k d.entries).subset h)

theorem mem_entries_erase {d : Dict K V} {k : K} {x : (_ : K) × V} (h : x ∈ (AList.erase k d).entries) :
    x ∈ d.entries :=
  (List.kerase_sublist k d.entries).subset h

theorem lookup_keep (p : V → Bool) (d : Dict K V) (k : K) :
    (d.keep p).lookup k = (d.lookup k).filter p := by
  ext v
  rw [← Option.mem_def, AList.mem_lookup_iff, mem_entries_keep, Option.filter_eq_some_iff, ← Option.mem_def,
    AList.mem_lookup_iff]

/-- Writing under a key: what the dictionary then holds under each key. -/
theorem lookup_insert_eq (d : Dict K V) (k k' : K) (v : V) :
    (AList.insert k v d).lookup k' = Function.update (fun k => d.lookup k) k (some v) k' := by
  by_cases h : k' = k
  · subst h; rw [AList.lookup_insert, Function.update_self]
  · rw [AList.lookup_insert_ne h, Function.update_of_ne h]

theorem lookup_erase_eq (d : Dict K V) (k k' : K) :
    (AList.erase k d).lookup k' = Function.update (fun k => d.lookup k) k none k' := by
  by_cases h : k' = k
  · subst h; rw [AList.lookup_erase, Function.update_self]
  · rw [AList.lookup_erase_ne h, Function.update_of_ne h]

@[simp] theorem update_empty (d : Dict K V) : d.update ∅ = d := AList.empty_union

theorem lookup_update (d extra : Dict K V) (k : K) : (d.update extra).lookup k = (extra.lookup k).or (d.lookup k) := by
  unfold update
  by_cases hmem : k ∈ extra
  · obtain ⟨v, hv⟩ := Option.isSome_iff_exists.1 (AList.lookup_isSome.2 hmem)
    rw [AList.lookup_union_left hmem, hv, Option.some_or]
  · rw [AList.lookup_union_right hmem, AList.lookup_eq_none.2 hmem, Option.none_or]

end Dict
