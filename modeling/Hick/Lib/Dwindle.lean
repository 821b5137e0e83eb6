import Mathlib

/-!
# Processes that can only yield so often

A process is fed inputs, one a step, and now and then a step yields something.
-/

namespace Dwindle

section
variable {σ ι : Type} (step : ι → σ → σ × Bool)

def after (inputs : ℕ → ι) : ℕ → σ → σ
  | 0, s => s
  | n + 1, s => (step (inputs n) (after inputs n s)).1

def yields (inputs : ℕ → ι) (s : σ) (n : ℕ) : Bool :=
  (step (inputs n) (after step inputs n s)).2

def Spends (μ : σ → ℕ) : Prop :=
  ∀ i s, μ (step i s).1 + (step i s).2.toNat ≤ μ s

theorem Spends.count (μ : σ → ℕ) (h : Spends step μ) (inputs : ℕ → ι) (s : σ) (n : ℕ) :
    μ (after step inputs n s) + Nat.count (fun n => yields step inputs s n = true) n ≤ μ s := by
  induction n with
  | zero => simp [after]
  | succ n ih =>
    have hstep := h (inputs n) (after step inputs n s)
    rw [Nat.count_succ, after]
    by_cases hy : yields step inputs s n = true
    · rw [if_pos hy]
      rw [yields] at hy
      rw [hy, Bool.toNat_true] at hstep
      omega
    · rw [if_neg hy]
      omega

theorem Spends.finite (μ : σ → ℕ) (h : Spends step μ) (inputs : ℕ → ι) (s : σ) :
    {n | yields step inputs s n = true}.Finite ∧
      {n | yields step inputs s n = true}.ncard ≤ μ s := by
  have hfinite : {n | yields step inputs s n = true}.Finite := by
    by_contra hinfinite
    have hcount := h.count step μ inputs s
      (Nat.nth (fun n => yields step inputs s n = true) (μ s + 1))
    rw [Nat.count_nth_of_infinite hinfinite] at hcount
    omega
  refine ⟨hfinite, ?_⟩
  obtain ⟨bound, hbound⟩ := hfinite.bddAbove
  have hcount := h.count step μ inputs s (bound + 1)
  have hall : {n | yields step inputs s n = true} =
      ↑((Finset.range (bound + 1)).filter fun n => yields step inputs s n = true) := by
    ext n
    simp only [Set.mem_ofPred_eq, Finset.coe_filter, Finset.mem_range]
    constructor
    · intro hy
      exact ⟨Nat.lt_succ_of_le (hbound hy), hy⟩
    · exact fun hy => hy.2
  rw [hall, Set.ncard_coe_finset, ← Nat.count_eq_card_filter_range]
  omega

theorem stops (P : σ → Prop) (μ : σ → ℕ)
    (h : ∀ i s, P s → (step i s).2 = true → P (step i s).1 ∧ μ (step i s).1 < μ s)
    (inputs : ℕ → ι) (s : σ) (hs : P s) : ∃ n, yields step inputs s n = false := by
  by_contra hnone
  rw [not_exists] at hnone
  have hall : ∀ n, P (after step inputs n s) ∧ μ (after step inputs n s) + n ≤ μ s := by
    intro n
    induction n with
    | zero => exact ⟨hs, le_refl _⟩
    | succ n ih =>
      have hyield := Bool.not_eq_false _ ▸ hnone n
      obtain ⟨hp, hlt⟩ := h (inputs n) (after step inputs n s) ih.1 hyield
      refine ⟨hp, ?_⟩
      rw [after]
      omega
  have hlast := (hall (μ s + 1)).2
  omega

theorem goes_on (P : σ → Prop) (i : ι) (h : ∀ s, P s → (step i s).2 = true ∧ P (step i s).1)
    (s : σ) (hs : P s) (n : ℕ) : yields step (fun _ => i) s n = true := by
  have hall : P (after step (fun _ => i) n s) := by
    induction n with
    | zero => exact hs
    | succ n ih => exact (h _ ih).2
  exact (h _ hall).1

end
end Dwindle
