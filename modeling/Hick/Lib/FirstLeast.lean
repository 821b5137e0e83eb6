import Mathlib

/-!
# The first of the least

Some positions of a list hold a rank. The winner is the first position with the least rank; a scan
that keeps the best position seen so far, and gives it up only for a lower rank, ends with it.
-/

namespace FirstLeast

section
variable {κ : Type} [LinearOrder κ]

/-- Position `p` has rank `k`: the least of all ranks, and lower than every rank before it. -/
structure At (ranks : List (Option κ)) (p : ℕ) (k : κ) : Prop where
  here : ranks[p]? = some (some k)
  least : ∀ (q : ℕ) (k' : κ), ranks[q]? = some (some k') → k ≤ k'
  first : ∀ (q : ℕ) (k' : κ), ranks[q]? = some (some k') → q < p → k < k'

variable (ranks : List (Option κ))

theorem At.unique (p q : ℕ) (k l : κ) (hp : At ranks p k)
    (hq : At ranks q l) : p = q ∧ k = l := by
  have hkl : k = l := le_antisymm (hp.least q l hq.here) (hq.least p k hp.here)
  refine ⟨?_, hkl⟩
  rcases lt_trichotomy p q with h | h | h
  · have hlt := hq.first p k hp.here h
    rw [hkl] at hlt
    exact absurd hlt (lt_irrefl l)
  · exact h
  · have hlt := hp.first q l hq.here h
    rw [hkl] at hlt
    exact absurd hlt (lt_irrefl l)

def Bare (ranks : List (Option κ)) : Prop := ∀ (q : ℕ) (k : κ), ranks[q]? ≠ some (some k)

omit [LinearOrder κ] in
theorem bare_nil : Bare ([] : List (Option κ)) := by
  intro q k h
  cases h

theorem getElem?_snoc {α : Type} (xs : List α) (x y : α) (q : ℕ)
    (h : (xs ++ [x])[q]? = some y) :
    q < xs.length ∧ xs[q]? = some y ∨ q = xs.length ∧ y = x := by
  rcases lt_trichotomy q xs.length with hlt | heq | hgt
  · rw [List.getElem?_append_left hlt] at h
    exact .inl ⟨hlt, h⟩
  · subst heq
    rw [List.getElem?_concat_length] at h
    exact .inr ⟨rfl, (Option.some.inj h).symm⟩
  · rw [List.getElem?_eq_none (by rw [List.length_append, List.length_singleton]; omega)] at h
    cases h

theorem getElem?_init {α : Type} (xs : List α) (x y : α) (q : ℕ) (h : xs[q]? = some y) :
    (xs ++ [x])[q]? = some y := by
  obtain ⟨hlt, -⟩ := List.getElem?_eq_some_iff.mp h
  rw [List.getElem?_append_left hlt]
  exact h

omit [LinearOrder κ] in
theorem Bare.snoc_none (h : Bare ranks) : Bare (ranks ++ [none]) := by
  intro q k hq
  rcases getElem?_snoc ranks none _ q hq with ⟨-, hin⟩ | ⟨-, hlast⟩
  · exact h q k hin
  · cases hlast

theorem Bare.snoc_some (h : Bare ranks) (k : κ) :
    At (ranks ++ [some k]) ranks.length k := by
  constructor
  · exact List.getElem?_concat_length
  · intro q k' hq
    rcases getElem?_snoc ranks (some k) _ q hq with ⟨-, hin⟩ | ⟨-, hlast⟩
    · exact absurd hin (h q k')
    · cases hlast
      exact le_refl k
  · intro q k' hq hlt
    rcases getElem?_snoc ranks (some k) _ q hq with ⟨-, hin⟩ | ⟨heq, -⟩
    · exact absurd hin (h q k')
    · omega

theorem At.snoc_keep (p : ℕ) (k : κ) (h : At ranks p k)
    (rank : Option κ) (hrank : ∀ l, rank = some l → k ≤ l) : At (ranks ++ [rank]) p k := by
  obtain ⟨hlt, -⟩ := List.getElem?_eq_some_iff.mp h.here
  constructor
  · exact getElem?_init ranks rank _ p h.here
  · intro q l hq
    rcases getElem?_snoc ranks rank _ q hq with ⟨-, hin⟩ | ⟨-, hlast⟩
    · exact h.least q l hin
    · exact hrank l hlast.symm
  · intro q l hq hqp
    rcases getElem?_snoc ranks rank _ q hq with ⟨-, hin⟩ | ⟨heq, -⟩
    · exact h.first q l hin hqp
    · omega

theorem At.snoc_lower (p : ℕ) (k : κ) (h : At ranks p k) (l : κ)
    (hl : l < k) : At (ranks ++ [some l]) ranks.length l := by
  constructor
  · exact List.getElem?_concat_length
  · intro q k' hq
    rcases getElem?_snoc ranks (some l) _ q hq with ⟨-, hin⟩ | ⟨-, hlast⟩
    · exact hl.le.trans (h.least q k' hin)
    · cases hlast
      exact le_refl l
  · intro q k' hq hqp
    rcases getElem?_snoc ranks (some l) _ q hq with ⟨-, hin⟩ | ⟨heq, -⟩
    · exact lt_of_lt_of_le hl (h.least q k' hin)
    · omega

theorem bare_or_at : Bare ranks ∨ ∃ p k, At ranks p k := by
  induction ranks using List.reverseRecOn with
  | nil => exact .inl bare_nil
  | append_singleton ranks rank ih =>
    rcases ih with hbare | ⟨p, k, hat⟩
    · cases rank with
      | none => exact .inl (hbare.snoc_none ranks)
      | some k => exact .inr ⟨_, k, hbare.snoc_some ranks k⟩
    · cases rank with
      | none => exact .inr ⟨p, k, hat.snoc_keep ranks p k none nofun⟩
      | some l =>
        rcases lt_or_ge l k with hl | hl
        · exact .inr ⟨_, l, hat.snoc_lower ranks p k l hl⟩
        · refine .inr ⟨p, k, hat.snoc_keep ranks p k _ ?_⟩
          intro l' hl'
          cases hl'
          exact hl

end
end FirstLeast
