import Mathlib

/-!
# Walks that get shorter

A walk goes from state to state and hands out an item on the way, until it stops.
-/

namespace Unfolding

structure Walk (σ ω : Type) where
  step : σ → Option (ω × σ)
  size : σ → Nat
  shrinks : ∀ s x t, step s = some (x, t) → size t < size s

variable {σ τ ω : Type}

namespace Walk

def trace (w : Walk σ ω) (s : σ) : List (σ × ω) :=
  match _h : w.step s with
  | none => []
  | some (x, t) => (s, x) :: w.trace t
termination_by w.size s
decreasing_by exact w.shrinks s x t _h

def items (w : Walk σ ω) (s : σ) : List ω := (w.trace s).map Prod.snd

variable (w : Walk σ ω)

theorem trace_none (s : σ) (h : w.step s = none) : w.trace s = [] := by
  rw [trace]
  split
  · rfl
  · rename_i heq
    rw [h] at heq
    cases heq

theorem trace_some (s t : σ) (x : ω) (h : w.step s = some (x, t)) :
    w.trace s = (s, x) :: w.trace t := by
  rw [trace]
  split
  · rename_i heq
    rw [h] at heq
    cases heq
  · rename_i heq
    rw [h] at heq
    cases heq
    rfl

theorem items_none (s : σ) (h : w.step s = none) : w.items s = [] := by
  rw [items, trace_none w s h, List.map_nil]

theorem items_some (s t : σ) (x : ω) (h : w.step s = some (x, t)) :
    w.items s = x :: w.items t := by
  rw [items, trace_some w s t x h, List.map_cons]
  rfl

theorem induction (P : σ → Prop)
    (stop : ∀ s, w.step s = none → P s)
    (go : ∀ s x t, w.step s = some (x, t) → P t → P s) (s : σ) : P s := by
  generalize hn : w.size s = n
  induction n using Nat.strong_induction_on generalizing s with
  | _ n ih =>
    cases hstep : w.step s with
    | none => exact stop s hstep
    | some found =>
      obtain ⟨x, t⟩ := found
      have hlt := w.shrinks s x t hstep
      rw [hn] at hlt
      exact go s x t hstep (ih (w.size t) hlt t rfl)

theorem trace_invariant (P : σ → Prop)
    (keep : ∀ s x t, P s → w.step s = some (x, t) → P t) (s : σ) (hs : P s) :
    ∀ v ∈ w.trace s, P v.1 ∧ ∃ t, w.step v.1 = some (v.2, t) := by
  revert hs
  induction s using w.induction with
  | stop s h =>
    intro hs v hv
    rw [trace_none w s h] at hv
    cases hv
  | go s x t h ih =>
    intro hs v hv
    rw [trace_some w s t x h] at hv
    rcases List.mem_cons.mp hv with rfl | hrest
    · exact ⟨hs, t, h⟩
    · exact ih (keep s x t hs h) v hrest

theorem trace_pairwise (R : σ → σ → Prop)
    (along : ∀ s x t, w.step s = some (x, t) → R s t)
    (compose : ∀ s t u, R s t → R t u → R s u) (s : σ) :
    (w.trace s).Pairwise fun a b => R a.1 b.1 := by
  have hfrom : ∀ r, ∀ v ∈ w.trace r, v.1 = r ∨ R r v.1 := by
    intro r
    induction r using w.induction with
    | stop r h =>
      intro v hv
      rw [trace_none w r h] at hv
      cases hv
    | go r x t h ih =>
      intro v hv
      rw [trace_some w r t x h] at hv
      rcases List.mem_cons.mp hv with rfl | hrest
      · exact Or.inl rfl
      · right
        rcases ih v hrest with heq | hlater
        · rw [heq]
          exact along r x t h
        · exact compose r t v.1 (along r x t h) hlater
  induction s using w.induction with
  | stop s h =>
    rw [trace_none w s h]
    exact List.Pairwise.nil
  | go s x t h ih =>
    rw [trace_some w s t x h, List.pairwise_cons]
    refine ⟨?_, ih⟩
    intro v hv
    rcases hfrom t v hv with heq | hlater
    · rw [heq]
      exact along s x t h
    · exact compose s t v.1 (along s x t h) hlater

theorem trace_last (last : ω → Prop)
    (stops : ∀ s x t, w.step s = some (x, t) → last x → w.step t = none) (s : σ) :
    ∀ before v after, w.trace s = before ++ v :: after → last v.2 → after = [] := by
  induction s using w.induction with
  | stop s h =>
    intro before v after heq
    rw [trace_none w s h] at heq
    cases before <;> cases heq
  | go s x t h ih =>
    intro before v after heq hlast
    rw [trace_some w s t x h] at heq
    cases before with
    | nil =>
      cases heq
      exact trace_none w t (stops s x t h hlast)
    | cons first before =>
      rw [List.cons_append, List.cons.injEq] at heq
      exact ih before v after heq.2 hlast

theorem trace_after (P : σ → Prop)
    (keep : ∀ s x t, P s → w.step s = some (x, t) → P t) (s : σ) (hs : P s)
    (before after : List (σ × ω)) (h : w.trace s = before ++ after) :
    ∃ t, P t ∧ w.trace t = after := by
  induction before generalizing s with
  | nil => exact ⟨s, hs, h⟩
  | cons v before ih =>
    cases hstep : w.step s with
    | none =>
      rw [trace_none w s hstep] at h
      cases h
    | some found =>
      obtain ⟨x, t⟩ := found
      rw [trace_some w s t x hstep, List.cons_append, List.cons.injEq] at h
      exact ih t (keep s x t hs hstep) h.2

def final (w : Walk σ ω) (s : σ) : σ :=
  match _h : w.step s with
  | none => s
  | some (_, t) => w.final t
termination_by w.size s
decreasing_by exact w.shrinks s _ t _h

theorem final_none (s : σ) (h : w.step s = none) : w.final s = s := by
  rw [final]
  split
  · rfl
  · rename_i heq
    rw [h] at heq
    cases heq

theorem final_some (s t : σ) (x : ω) (h : w.step s = some (x, t)) :
    w.final s = w.final t := by
  rw [final]
  split
  · rename_i heq
    rw [h] at heq
    cases heq
  · rename_i heq
    rw [h] at heq
    cases heq
    rfl

end Walk
end Unfolding
