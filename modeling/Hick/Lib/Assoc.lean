import Mathlib

/-!
# Maps with the operations of a hash map

`Assoc κ β` is a finite map; how its entries are listed says nothing.
-/

abbrev Assoc (κ β : Type) := AList fun _ : κ => β

namespace Assoc
variable {κ β : Type}

def mapAll (f : κ → β → β) (m : Assoc κ β) : Assoc κ β where
  entries := m.entries.map fun e => ⟨e.1, f e.1 e.2⟩
  nodupKeys := by
    have hkeys : (m.entries.map fun e : (_ : κ) × β => (⟨e.1, f e.1 e.2⟩ : (_ : κ) × β)).keys =
        m.entries.keys := by
      simp only [List.keys, List.map_map]
      rfl
    rw [List.NodupKeys, hkeys]
    exact m.keys_nodup

def retain (p : κ → β → Bool) (m : Assoc κ β) : Assoc κ β where
  entries := m.entries.filter fun e => p e.1 e.2
  nodupKeys := m.nodupKeys.sublist List.filter_sublist

variable [DecidableEq κ]

def modify (f : β → β) (k : κ) (m : Assoc κ β) : Assoc κ β :=
  match m.lookup k with
  | some v => m.insert k (f v)
  | none => m

theorem lookup_insert (k j : κ) (v : β) (m : Assoc κ β) :
    (m.insert k v).lookup j = if j = k then some v else m.lookup j := by
  by_cases h : j = k
  · subst h
    rw [AList.lookup_insert, if_pos rfl]
  · rw [AList.lookup_insert_ne h, if_neg h]

theorem lookup_erase (k j : κ) (m : Assoc κ β) :
    (m.erase k).lookup j = if j = k then none else m.lookup j := by
  by_cases h : j = k
  · subst h
    rw [AList.lookup_erase, if_pos rfl]
  · rw [AList.lookup_erase_ne h, if_neg h]

theorem mem_iff (k : κ) (m : Assoc κ β) : k ∈ m ↔ ∃ v, m.lookup k = some v := by
  rw [← AList.lookup_isSome, Option.isSome_iff_exists]

theorem lookup_modify (f : β → β) (k j : κ) (m : Assoc κ β) :
    (modify f k m).lookup j = if j = k then (m.lookup j).map f else m.lookup j := by
  rw [modify]
  cases h : m.lookup k with
  | some v =>
    simp only
    rw [lookup_insert]
    split
    · rename_i hj
      rw [hj, h, Option.map_some]
    · rfl
  | none =>
    simp only
    split
    · rename_i hj
      rw [hj, h, Option.map_none]
    · rfl

theorem lookup_mapAll (f : κ → β → β) (m : Assoc κ β) (j : κ) :
    (mapAll f m).lookup j = (m.lookup j).map (f j) :=
  List.dlookup_map₂ j

theorem lookup_retain (p : κ → β → Bool) (m : Assoc κ β) (j : κ) :
    (retain p m).lookup j = (m.lookup j).filter (p j) := by
  refine Option.ext fun v => ?_
  rw [Option.filter_eq_some_iff, ← Option.mem_def, ← Option.mem_def, AList.mem_lookup_iff,
    AList.mem_lookup_iff, retain, List.mem_filter]

theorem length_keys_insert (k : κ) (v : β) (m : Assoc κ β) :
    (m.insert k v).keys.length = if k ∈ m then m.keys.length else m.keys.length + 1 := by
  rw [AList.keys_insert, List.length_cons]
  split
  · rename_i h
    have hpos : 0 < m.keys.length := List.length_pos_of_mem (AList.mem_keys.mp h)
    rw [List.length_erase_of_mem (AList.mem_keys.mp h)]
    omega
  · rename_i h
    rw [List.erase_of_not_mem (fun hk => h (AList.mem_keys.mpr hk))]

theorem length_keys_modify (f : β → β) (k : κ) (m : Assoc κ β) :
    (modify f k m).keys.length = m.keys.length := by
  rw [modify]
  cases h : m.lookup k with
  | some v => rw [length_keys_insert, if_pos ((mem_iff k m).mpr ⟨v, h⟩)]
  | none => rfl

omit [DecidableEq κ] in
theorem keys_mapAll (f : κ → β → β) (m : Assoc κ β) : (mapAll f m).keys = m.keys := by
  simp only [AList.keys, List.keys, mapAll, List.map_map]
  rfl

theorem length_keys_insert_le (k : κ) (v : β) (m : Assoc κ β) :
    (m.insert k v).keys.length ≤ m.keys.length + 1 := by
  rw [length_keys_insert]
  split
  · omega
  · omega

theorem length_keys_erase_le (k : κ) (m : Assoc κ β) :
    (m.erase k).keys.length ≤ m.keys.length := by
  rw [AList.keys_erase]
  exact List.length_erase_le

omit [DecidableEq κ] in
theorem length_keys_retain_le (p : κ → β → Bool) (m : Assoc κ β) :
    (retain p m).keys.length ≤ m.keys.length := by
  simp only [AList.keys, List.keys, retain, List.length_map]
  exact List.length_filter_le _ _

end Assoc
