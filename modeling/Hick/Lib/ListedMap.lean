import Hick.Lib.RoundRobin

/-!
# Maps in the order in which they list their entries

A map that is neither inserted into nor removed from lists its entries in one order, so an entry may
be named by its place in the list as well as by its key.
-/

open RoundRobin

structure ListedMap (H C : Type) where
  entries : List (H × C)
  distinct : (entries.map Prod.fst).Nodup

namespace ListedMap
variable {H C : Type}

def keys (m : ListedMap H C) : List H := m.entries.map Prod.fst

def modify (m : ListedMap H C) (slot : Nat) (f : C → C) : ListedMap H C where
  entries := m.entries.modify slot (Prod.map id f)
  distinct := by
    have hkeys : (m.entries.modify slot (Prod.map id f)).map Prod.fst = m.entries.map Prod.fst := by
      apply List.ext_getElem
      · simp only [List.length_map, List.length_modify]
      · intro i h₁ h₂
        simp only [List.getElem_map, List.getElem_modify]
        split <;> rfl
    rw [hkeys]
    exact m.distinct

def removeAll (m : ListedMap H C) (p : H → Bool) : ListedMap H C where
  entries := m.entries.filter fun e => !p e.1
  distinct := m.distinct.sublist (List.filter_sublist.map Prod.fst)

theorem entries_modify (m : ListedMap H C) (slot j : Nat) (f : C → C) :
    (m.modify slot f).entries[j]? =
      if slot = j then m.entries[j]?.map (Prod.map id f) else m.entries[j]? := by
  rw [modify, List.getElem?_modify]
  split
  · cases m.entries[j]? <;> rfl
  · cases m.entries[j]? <;> rfl

theorem keys_modify (m : ListedMap H C) (slot : Nat) (f : C → C) :
    (m.modify slot f).keys.length = m.keys.length := by
  simp only [keys, modify, List.length_map, List.length_modify]

theorem slot_unique (m : ListedMap H C) (i j : Nat) (h : H) (c c' : C)
    (hi : m.entries[i]? = some (h, c)) (hj : m.entries[j]? = some (h, c')) : i = j := by
  obtain ⟨hilt, hi'⟩ := List.getElem?_eq_some_iff.mp hi
  obtain ⟨hjlt, hj'⟩ := List.getElem?_eq_some_iff.mp hj
  have hilen : i < (m.entries.map Prod.fst).length := by
    rw [List.length_map]
    exact hilt
  have hjlen : j < (m.entries.map Prod.fst).length := by
    rw [List.length_map]
    exact hjlt
  have hkeys : (m.entries.map Prod.fst)[i] = (m.entries.map Prod.fst)[j] := by
    simp only [List.getElem_map, hi', hj']
  exact (m.distinct.getElem_inj_iff).mp hkeys

theorem removeAll_none (m : ListedMap H C) (f : H → Bool)
    (h : ∀ e ∈ m.entries, f e.1 = false) : m.removeAll f = m := by
  cases m with
  | mk entries distinct =>
    simp only [removeAll]
    congr 1
    apply List.filter_eq_self.mpr
    intro e he
    rw [h e he]
    rfl

def liveAt (live : C → Bool) (m : ListedMap H C) (slot : Nat) : Option H :=
  match m.entries[slot]? with
  | some (h, c) => if live c then some h else none
  | none => none

def ring (live : C → Bool) (m : ListedMap H C) (cursor : Nat) : List H :=
  (places m.keys.length cursor).filterMap (m.liveAt live)

def liveHandles (live : C → Bool) (m : ListedMap H C) : List H :=
  m.ring live 0

theorem liveAt_some (live : C → Bool) (m : ListedMap H C) (slot : Nat) (h : H)
    (hlive : m.liveAt live slot = some h) :
    ∃ c, m.entries[slot]? = some (h, c) ∧ live c = true := by
  unfold liveAt at hlive
  split at hlive
  · rename_i h' c hentry
    split at hlive
    · rename_i hc
      cases hlive
      exact ⟨c, hentry, hc⟩
    · cases hlive
  · cases hlive

theorem liveAt_of_entry (live : C → Bool) (m : ListedMap H C) (slot : Nat) (h : H) (c : C)
    (hentry : m.entries[slot]? = some (h, c)) :
    m.liveAt live slot = if live c then some h else none := by
  simp only [liveAt, hentry]

theorem liveAt_modify_of_ne (live : C → Bool) (m : ListedMap H C) (slot j : Nat) (f : C → C)
    (hne : slot ≠ j) : (m.modify slot f).liveAt live j = m.liveAt live j := by
  simp only [liveAt, entries_modify, if_neg hne]

theorem liveAt_lt (live : C → Bool) (m : ListedMap H C) (slot : Nat) (h : H)
    (hlive : m.liveAt live slot = some h) : slot < m.keys.length := by
  obtain ⟨c, hentry, -⟩ := m.liveAt_some live slot h hlive
  obtain ⟨hlt, -⟩ := List.getElem?_eq_some_iff.mp hentry
  rw [keys, List.length_map]
  exact hlt

theorem mem_ring (live : C → Bool) (m : ListedMap H C) (cursor : Nat) (h : H) :
    h ∈ m.ring live cursor ↔ ∃ slot, m.liveAt live slot = some h := by
  rw [ring, List.mem_filterMap]
  constructor
  · intro hex
    obtain ⟨slot, -, hlive⟩ := hex
    exact ⟨slot, hlive⟩
  · intro hex
    obtain ⟨slot, hlive⟩ := hex
    exact ⟨slot, (mem_places _ cursor slot).mpr (m.liveAt_lt live slot h hlive), hlive⟩

theorem liveAt_unique (live : C → Bool) (m : ListedMap H C) (i j : Nat) (h : H)
    (hi : m.liveAt live i = some h) (hj : m.liveAt live j = some h) : i = j := by
  obtain ⟨c, hc, -⟩ := m.liveAt_some live i h hi
  obtain ⟨c', hc', -⟩ := m.liveAt_some live j h hj
  exact m.slot_unique i j h c c' hc hc'

theorem ring_nodup (live : C → Bool) (m : ListedMap H C) (cursor : Nat) :
    (m.ring live cursor).Nodup := by
  apply List.Nodup.filterMap _ (places_nodup _ cursor)
  intro i j h hi hj
  exact m.liveAt_unique live i j h hi hj

def Shrinks (live : C → Bool) (m m' : ListedMap H C) : Prop :=
  m'.keys.length = m.keys.length ∧
    ∀ slot, m'.liveAt live slot = m.liveAt live slot ∨ m'.liveAt live slot = none

theorem Shrinks.refl (live : C → Bool) (m : ListedMap H C) : Shrinks live m m :=
  ⟨rfl, fun _ => .inl rfl⟩

theorem Shrinks.trans (live : C → Bool) (a b c : ListedMap H C) (hab : Shrinks live a b)
    (hbc : Shrinks live b c) : Shrinks live a c := by
  constructor
  · rw [hbc.1, hab.1]
  · intro slot
    cases hbc.2 slot with
    | inl hsame =>
      rw [hsame]
      exact hab.2 slot
    | inr hnone => exact .inr hnone

theorem Shrinks.live (live : C → Bool) (m m' : ListedMap H C) (h : Shrinks live m m') (slot : Nat)
    (x : H) (hlive : m'.liveAt live slot = some x) : m.liveAt live slot = some x := by
  cases h.2 slot with
  | inl hsame => rw [← hsame, hlive]
  | inr hnone =>
    rw [hnone] at hlive
    cases hlive

theorem Shrinks.same (live : C → Bool) (m m' : ListedMap H C) (h : Shrinks live m m')
    (hlive : ∀ x slot, m.liveAt live slot = some x → ∃ slot', m'.liveAt live slot' = some x)
    (slot : Nat) : m'.liveAt live slot = m.liveAt live slot := by
  cases h.2 slot with
  | inl hsame => exact hsame
  | inr hnone =>
    cases hwas : m.liveAt live slot with
    | none => exact hnone
    | some x =>
      obtain ⟨slot', hstill⟩ := hlive x slot hwas
      have hslot := m.liveAt_unique live slot slot' x hwas (h.live live m m' slot' x hstill)
      rw [← hslot, hnone] at hstill
      cases hstill

theorem Shrinks.between (live : C → Bool) (a b c : ListedMap H C) (hab : Shrinks live a b)
    (hbc : Shrinks live b c) (hlive : c.liveHandles live = a.liveHandles live) :
    b.liveHandles live = a.liveHandles live := by
  have hsame := (hab.trans live a b c hbc).same live a c (fun x slot hx => by
    have hin := (a.mem_ring live 0 x).mpr ⟨slot, hx⟩
    rw [show a.ring live 0 = c.ring live 0 from hlive.symm] at hin
    exact (c.mem_ring live 0 x).mp hin)
  rw [liveHandles, liveHandles, ring, ring, hab.1]
  apply List.filterMap_congr
  intro slot _
  cases hab.2 slot with
  | inl h => exact h
  | inr hnone =>
    cases hwas : a.liveAt live slot with
    | none => exact hnone
    | some x =>
      have hstill := hbc.live live b c slot x (by rw [hsame slot, hwas])
      rw [hnone] at hstill
      cases hstill

theorem liveHandles_eq (live : C → Bool) (m : ListedMap H C) :
    m.liveHandles live = (List.range m.keys.length).filterMap (m.liveAt live) := by
  rw [liveHandles, ring, places_zero]

theorem shrinks_modify (live : C → Bool) (m : ListedMap H C) (slot : Nat) (h : H) (c c' : C)
    (hentry : m.entries[slot]? = some (h, c)) (hlive : live c = true) :
    Shrinks live m (m.modify slot fun _ => c') := by
  refine ⟨m.keys_modify slot _, fun j => ?_⟩
  by_cases hj : slot = j
  · subst hj
    have hnew : (m.modify slot fun _ => c').entries[slot]? = some (h, c') := by
      rw [entries_modify, if_pos rfl, hentry]
      rfl
    rw [liveAt_of_entry live _ slot h c' hnew, liveAt_of_entry live m slot h c hentry, hlive,
      if_pos rfl]
    cases live c' with
    | true => exact .inl rfl
    | false => exact .inr rfl
  · exact .inl (m.liveAt_modify_of_ne live slot j _ hj)

end ListedMap
