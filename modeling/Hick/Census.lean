import Hick.Routing.Reading

/-!
# How many of the values of a pool are so (pool.rs)

The values of a pool are counted by a test. An insert adds one, a removal takes one away, and a
change of one value in its place moves the count by that value alone.
-/

namespace Hick

def Pool.census {P : Type → Type} [Pool P] {V : Type} (p : P V) (test : V → Bool) : Nat :=
  (Pool.iter p).countP fun kv => test kv.2

section
variable {P : Type → Type} [Pool P] {V : Type}

theorem census_new [LawfulPool P] (test : V → Bool) : Pool.census (Pool.new : P V) test = 0 := by
  rw [Pool.census, LawfulPool.iter_new, List.countP_nil]

theorem census_congr [OrderedPool P] (p p' : P V) (h : ∀ j, Pool.get p' j = Pool.get p j)
    (test : V → Bool) : Pool.census p' test = Pool.census p test := by
  have hperm : (Pool.iter p').Perm (Pool.iter p) := by
    rw [List.perm_ext_iff_of_nodup (iter_nodup p') (iter_nodup p)]
    intro kv
    rw [show kv = (kv.1, kv.2) from rfl, LawfulPool.mem_iter, LawfulPool.mem_iter, h]
  exact hperm.countP_eq _

theorem length_congr {W : Type} [OrderedPool P] (p : P V) (p' : P W)
    (h : ∀ j, (Pool.get p' j).isSome = (Pool.get p j).isSome) :
    (Pool.iter p').length = (Pool.iter p).length := by
  have hnodup : ∀ {U : Type} (u : P U), ((Pool.iter u).map Prod.fst).Nodup := by
    intro U u
    rw [List.Nodup, List.pairwise_map]
    apply (OrderedPool.ordered u).imp
    intro a b hlt
    exact Nat.ne_of_lt hlt
  have hkeys : ∀ {U : Type} (u : P U) (j : Nat),
      j ∈ (Pool.iter u).map Prod.fst ↔ (Pool.get u j).isSome = true := by
    intro U u j
    rw [List.mem_map, Option.isSome_iff_exists]
    constructor
    · intro hmem
      obtain ⟨⟨k, v⟩, hkv, rfl⟩ := hmem
      exact ⟨v, (LawfulPool.mem_iter u k v).mp hkv⟩
    · intro hget
      obtain ⟨v, hv⟩ := hget
      exact ⟨(j, v), (LawfulPool.mem_iter u j v).mpr hv, rfl⟩
  have hperm : ((Pool.iter p').map Prod.fst).Perm ((Pool.iter p).map Prod.fst) := by
    rw [List.perm_ext_iff_of_nodup (hnodup p') (hnodup p)]
    intro j
    rw [hkeys, hkeys, h]
  rw [← List.length_map (f := Prod.fst), hperm.length_eq, List.length_map]

theorem census_insert [OrderedPool P] (p p' : P V) (v : V) (k : Nat)
    (h : Pool.insert p v = some (k, p')) (test : V → Bool) :
    Pool.census p' test = Pool.census p test + (test v).toNat := by
  rw [Pool.census, (insert_perm p p' v k h).countP_eq, List.countP_cons, Pool.census]
  cases test v <;> rfl

theorem census_tryRemove [OrderedPool P] (p p' : P V) (v w : V) (k : Nat)
    (hv : Pool.get p k = some v) (h : Pool.tryRemove p k = some (w, p')) (test : V → Bool) :
    Pool.census p test = Pool.census p' test + (test v).toNat := by
  rw [Pool.census, (tryRemove_perm p p' v k hv w h).countP_eq, List.countP_cons, Pool.census]
  cases test v <;> rfl

theorem census_replace [OrderedPool P] [ReleasingPool P] (p p' : P V) (v v' : V) (k : Nat)
    (hv : Pool.get p k = some v)
    (h : ∀ j, Pool.get p' j = if j = k then some v' else Pool.get p j) (test : V → Bool) :
    Pool.census p' test + (test v).toNat = Pool.census p test + (test v').toNat := by
  have hv' : Pool.get p' k = some v' := by rw [h, if_pos rfl]
  obtain ⟨rest, hremove⟩ := ReleasingPool.tryRemove_of_get p v k hv
  obtain ⟨rest', hremove'⟩ := ReleasingPool.tryRemove_of_get p' v' k hv'
  have hsame : ∀ j, Pool.get rest' j = Pool.get rest j := by
    intro j
    rw [LawfulPool.get_tryRemove _ _ _ _ hremove, LawfulPool.get_tryRemove _ _ _ _ hremove', h]
    by_cases hj : j = k
    · rw [if_pos hj, if_pos hj]
    · rw [if_neg hj, if_neg hj, if_neg hj]
  have hleft := census_tryRemove p rest v v k hv hremove test
  have hleft' := census_tryRemove p' rest' v' v' k hv' hremove' test
  have hrest := census_congr rest rest' hsame test
  omega

end
end Hick
