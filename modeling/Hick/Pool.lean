import Mathlib
import Hick.Lib.Octets

/-!
# Storage pools and random numbers (pool.rs)

The endpoint is generic over its containers and its random number generator; both come from outside
the crate.
-/

namespace Hick
open Octets

class Pool (P : Type → Type) where
  new {V : Type} : P V
  get {V : Type} : P V → Nat → Option V
  update {V : Type} : P V → Nat → (V → V) → P V
  insert {V : Type} : P V → V → Option (Nat × P V)
  tryRemove {V : Type} : P V → Nat → Option (V × P V)
  iter {V : Type} : P V → List (Nat × V)

/-- What the trait documents: `iter` lists what `get` answers, and the other operations
change the one key they name. -/
class LawfulPool (P : Type → Type) [Pool P] : Prop where
  iter_new {V : Type} : Pool.iter (Pool.new : P V) = []
  mem_iter {V : Type} (p : P V) (k : Nat) (v : V) : (k, v) ∈ Pool.iter p ↔ Pool.get p k = some v
  get_update {V : Type} (p : P V) (k j : Nat) (f : V → V) :
    Pool.get (Pool.update p k f) j = if j = k then (Pool.get p j).map f else Pool.get p j
  get_insert {V : Type} (p p' : P V) (v : V) (k : Nat) (h : Pool.insert p v = some (k, p')) :
    Pool.get p k = none ∧ ∀ j, Pool.get p' j = if j = k then some v else Pool.get p j
  get_tryRemove {V : Type} (p p' : P V) (v : V) (k : Nat) (h : Pool.tryRemove p k = some (v, p')) :
    ∀ j, Pool.get p' j = if j = k then none else Pool.get p j

class ReleasingPool (P : Type → Type) [Pool P] : Prop extends LawfulPool P where
  tryRemove_of_get {V : Type} (p : P V) (v : V) (k : Nat) (h : Pool.get p k = some v) :
    ∃ p', Pool.tryRemove p k = some (v, p')

structure Slab (V : Type) where
  slots : List (Option V)

namespace Slab
variable {V : Type}

def occupied (i : Nat) : List (Option V) → List (Nat × V)
  | [] => []
  | none :: rest => occupied (i + 1) rest
  | some v :: rest => (i, v) :: occupied (i + 1) rest

def vacantKey : List (Option V) → Nat
  | [] => 0
  | none :: _ => 0
  | some _ :: rest => vacantKey rest + 1

def fill (v : V) : List (Option V) → List (Option V)
  | [] => [some v]
  | none :: rest => some v :: rest
  | some w :: rest => some w :: fill v rest

instance : Pool Slab where
  new := ⟨[]⟩
  get p k := p.slots[k]?.join
  update p k f := ⟨p.slots.modify k (·.map f)⟩
  insert p v := some (vacantKey p.slots, ⟨fill v p.slots⟩)
  tryRemove p k := p.slots[k]?.join.map fun v => (v, ⟨p.slots.set k none⟩)
  iter p := occupied 0 p.slots

theorem mem_occupied (slots : List (Option V)) (i k : Nat) (v : V) :
    (k, v) ∈ occupied i slots ↔ i ≤ k ∧ slots[k - i]?.join = some v := by
  induction slots generalizing i with
  | nil => simp [occupied]
  | cons s rest ih =>
    have hrest : i + 1 ≤ k → (s :: rest)[k - i]? = rest[k - (i + 1)]? := by
      intro h
      rw [show k - i = k - (i + 1) + 1 by omega, List.getElem?_cons_succ]
    cases s with
    | none =>
      rw [occupied, ih]
      constructor
      · rintro ⟨hle, h⟩
        exact ⟨by omega, by rw [hrest hle]; exact h⟩
      · rintro ⟨hle, h⟩
        have hne : k ≠ i := by
          rintro rfl
          simp at h
        exact ⟨by omega, by rw [← hrest (by omega)]; exact h⟩
    | some w =>
      rw [occupied, List.mem_cons, ih, Prod.mk.injEq]
      constructor
      · rintro (⟨rfl, rfl⟩ | ⟨hle, h⟩)
        · simp
        · exact ⟨by omega, by rw [hrest hle]; exact h⟩
      · rintro ⟨hle, h⟩
        by_cases hk : k = i
        · subst hk
          simp at h
          exact .inl ⟨rfl, h.symm⟩
        · exact .inr ⟨by omega, by rw [← hrest (by omega)]; exact h⟩

theorem fill_spec (v : V) (slots : List (Option V)) :
    slots[vacantKey slots]?.join = none ∧ ∀ j,
      (fill v slots)[j]?.join = if j = vacantKey slots then some v else slots[j]?.join := by
  induction slots with
  | nil =>
    refine ⟨rfl, fun j => ?_⟩
    cases j <;> simp [fill, vacantKey]
  | cons s rest ih =>
    cases s with
    | none =>
      refine ⟨rfl, fun j => ?_⟩
      cases j <;> simp [fill, vacantKey]
    | some w =>
      refine ⟨?_, fun j => ?_⟩
      · simp only [vacantKey, List.getElem?_cons_succ]
        exact ih.1
      · cases j with
        | zero => simp [fill, vacantKey]
        | succ j =>
          simp only [fill, vacantKey, List.getElem?_cons_succ, ih.2 j, Nat.add_right_cancel_iff]

instance : LawfulPool Slab where
  iter_new := rfl
  mem_iter p k v := by
    rw [Pool.iter, instPool, mem_occupied]
    simp [Pool.get]
  get_update p k j f := by
    simp only [Pool.get, Pool.update, List.getElem?_modify]
    by_cases h : j = k
    · subst h
      cases p.slots[j]? <;> simp
    · have hkj : ¬k = j := fun e => h e.symm
      simp only [h, hkj, if_false, Option.map_eq_map, Option.map_id']
  get_insert p p' v k h := by
    simp only [Pool.insert, Option.some.injEq, Prod.mk.injEq] at h
    obtain ⟨rfl, rfl⟩ := h
    exact fill_spec v p.slots
  get_tryRemove p p' v k h := by
    simp only [Pool.tryRemove, Option.map_eq_some_iff, Prod.mk.injEq] at h
    obtain ⟨w, hw, rfl, rfl⟩ := h
    intro j
    simp only [Pool.get, List.getElem?_set]
    by_cases hj : j = k
    · subst hj
      simp only [if_true]
      split <;> rfl
    · rw [if_neg hj, if_neg (fun e => hj e.symm)]

instance : ReleasingPool Slab where
  tryRemove_of_get p v k h := by
    simp only [Pool.get] at h
    refine ⟨⟨p.slots.set k none⟩, ?_⟩
    simp only [Pool.tryRemove, h, Option.map_some]

end Slab

/-- Entries are listed by increasing keys: both pools of the crate walk their slots in order. -/
class OrderedPool (P : Type → Type) [Pool P] : Prop extends LawfulPool P where
  ordered {V : Type} (p : P V) : (Pool.iter p).Pairwise fun a b => a.1 < b.1

theorem Slab.occupied_ordered {V : Type} (slots : List (Option V)) (i : Nat) :
    (Slab.occupied i slots).Pairwise fun a b => a.1 < b.1 := by
  induction slots generalizing i with
  | nil => exact List.Pairwise.nil
  | cons slot rest ih =>
    cases slot with
    | none => exact ih (i + 1)
    | some v =>
      rw [Slab.occupied]
      apply List.Pairwise.cons _ (ih (i + 1))
      intro entry hentry
      exact ((Slab.mem_occupied rest (i + 1) entry.1 entry.2).mp hentry).1

instance : OrderedPool Slab where
  ordered p := Slab.occupied_ordered p.slots 0

class Rng (R : Type) where
  nextU32 : R → UInt32 × R

class SeedableRng (R : Type) extends Rng R where
  fromSeed : Bytes → R

class SeedSource (G : Type) extends Rng G where
  fillBytes : G → Nat → Bytes × G

structure ZeroRng where
  deriving DecidableEq

instance : SeedableRng ZeroRng where
  nextU32 r := (0, r)
  fromSeed _ := ⟨⟩

instance : SeedSource ZeroRng where
  nextU32 r := (0, r)
  fillBytes r n := (List.replicate n 0, r)

end Hick

/-!
## What a pool holds (pool.rs)

The values a pool lists, whatever keys they are under, and how many it has room for.
-/

namespace Hick

section
variable {P : Type → Type} [Pool P] {V : Type}

def Pool.held (p : P V) : List V := (Pool.iter p).map Prod.snd

def Pool.Capacity (P : Type → Type) [Pool P] (V : Type) (cap : Nat) : Prop :=
  ∀ (p p' : P V) (v : V) (k : Nat), Pool.insert p v = some (k, p') → (Pool.held p').length ≤ cap

def Pool.Accepts (P : Type → Type) [Pool P] (V : Type) (cap : Nat) : Prop :=
  ∀ (p : P V) (v : V), (Pool.held p).length < cap → (Pool.insert p v).isSome = true

theorem iter_nodup [OrderedPool P] (p : P V) : (Pool.iter p).Nodup := by
  apply (OrderedPool.ordered p).imp
  intro a b hlt heq
  rw [heq] at hlt
  exact lt_irrefl _ hlt

theorem insert_perm [OrderedPool P] (p p' : P V) (v : V) (k : Nat)
    (h : Pool.insert p v = some (k, p')) : (Pool.iter p').Perm ((k, v) :: Pool.iter p) := by
  obtain ⟨hvacant, hget⟩ := LawfulPool.get_insert p p' v k h
  have hfresh : (k, v) ∉ Pool.iter p := by
    intro hmem
    rw [LawfulPool.mem_iter, hvacant] at hmem
    cases hmem
  rw [List.perm_ext_iff_of_nodup (iter_nodup p') (List.nodup_cons.mpr ⟨hfresh, iter_nodup p⟩)]
  intro entry
  obtain ⟨j, w⟩ := entry
  rw [LawfulPool.mem_iter, hget, List.mem_cons, LawfulPool.mem_iter, Prod.mk.injEq]
  by_cases hj : j = k
  · subst hj
    rw [if_pos rfl, Option.some.injEq, hvacant]
    simp [eq_comm]
  · rw [if_neg hj]
    simp [hj]

theorem tryRemove_perm [OrderedPool P] (p p' : P V) (v : V) (k : Nat) (hv : Pool.get p k = some v)
    (w : V) (h : Pool.tryRemove p k = some (w, p')) :
    (Pool.iter p).Perm ((k, v) :: Pool.iter p') := by
  have hget := LawfulPool.get_tryRemove p p' w k h
  have hgone : (k, v) ∉ Pool.iter p' := by
    intro hmem
    rw [LawfulPool.mem_iter, hget, if_pos rfl] at hmem
    cases hmem
  rw [List.perm_ext_iff_of_nodup (iter_nodup p) (List.nodup_cons.mpr ⟨hgone, iter_nodup p'⟩)]
  intro entry
  obtain ⟨j, u⟩ := entry
  rw [LawfulPool.mem_iter, List.mem_cons, LawfulPool.mem_iter, hget, Prod.mk.injEq]
  by_cases hj : j = k
  · subst hj
    rw [if_pos rfl, hv, Option.some.injEq]
    simp [eq_comm]
  · rw [if_neg hj]
    simp [hj]

end

end Hick
