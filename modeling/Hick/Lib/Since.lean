import Mathlib

/-!
# What a log says since an entry

A log is read from its oldest entry on. An entry that meets `a` stays open until one that meets
`c`; a property of a log that grows is kept by looking at its last entry alone.
-/

namespace Since

section
variable {α : Type} (a c b : α → Prop)

/-- There is an entry that meets `a`, and none after it that meets `c`. -/
def Open (log : List α) : Prop :=
  ∃ before x after, log = before ++ x :: after ∧ a x ∧ ∀ y ∈ after, ¬ c y

/-- Between an entry that meets `a` and a later one that meets `b` there is one that meets `c`. -/
def Between (log : List α) : Prop :=
  ∀ before x mid y after, log = before ++ x :: (mid ++ y :: after) → a x → b y → ∃ z ∈ mid, c z

theorem not_open_nil : ¬ Open a c [] := by
  intro h
  obtain ⟨before, x, after, hlog, -⟩ := h
  cases before with
  | nil => cases hlog
  | cons _ _ => cases hlog

theorem between_nil : Between a c b [] := by
  intro before x mid y after hlog
  cases before with
  | nil => cases hlog
  | cons _ _ => cases hlog

theorem open_snoc (log : List α) (e : α) :
    Open a c (log ++ [e]) ↔ a e ∨ (Open a c log ∧ ¬ c e) := by
  constructor
  · intro h
    obtain ⟨before, x, after, hlog, hx, hafter⟩ := h
    cases after using List.reverseRecOn with
    | nil =>
      obtain ⟨-, hlast⟩ := List.append_inj' hlog rfl
      cases hlast
      exact .inl hx
    | append_singleton after last =>
      rw [show before ++ x :: (after ++ [last]) = (before ++ x :: after) ++ [last] by simp] at hlog
      obtain ⟨hinit, hlast⟩ := List.append_inj' hlog rfl
      cases hlast
      refine .inr ⟨⟨before, x, after, hinit, hx, ?_⟩, ?_⟩
      · intro y hy
        exact hafter y (List.mem_append_left _ hy)
      · exact hafter e (List.mem_append_right _ (List.mem_singleton.mpr rfl))
  · intro h
    cases h with
    | inl he => exact ⟨log, e, [], rfl, he, nofun⟩
    | inr h =>
      obtain ⟨⟨before, x, after, hlog, hx, hafter⟩, he⟩ := h
      refine ⟨before, x, after ++ [e], by simp [hlog], hx, ?_⟩
      intro y hy
      rcases List.mem_append.mp hy with hold | hnew
      · exact hafter y hold
      · rw [List.mem_singleton.mp hnew]
        exact he

theorem between_snoc (log : List α) (e : α) :
    Between a c b (log ++ [e]) ↔ Between a c b log ∧ (b e → ¬ Open a c log) := by
  constructor
  · intro h
    constructor
    · intro before x mid y after hlog
      exact h before x mid y (after ++ [e]) (by simp [hlog])
    · intro he hopen
      obtain ⟨before, x, mid, hlog, hx, hmid⟩ := hopen
      obtain ⟨z, hz, hc⟩ := h before x mid e [] (by simp [hlog]) hx he
      exact hmid z hz hc
  · intro h before x mid y after hlog hx hy
    obtain ⟨hold, hlast⟩ := h
    cases after using List.reverseRecOn with
    | nil =>
      rw [show before ++ x :: (mid ++ [y]) = (before ++ x :: mid) ++ [y] by simp] at hlog
      obtain ⟨hinit, hy'⟩ := List.append_inj' hlog rfl
      cases hy'
      by_contra hnone
      apply hlast hy
      refine ⟨before, x, mid, hinit, hx, ?_⟩
      intro z hz hc
      exact hnone ⟨z, hz, hc⟩
    | append_singleton after last =>
      rw [show before ++ x :: (mid ++ y :: (after ++ [last])) =
        (before ++ x :: (mid ++ y :: after)) ++ [last] by simp] at hlog
      obtain ⟨hinit, -⟩ := List.append_inj' hlog rfl
      exact hold before x mid y after hinit hx hy

end
end Since
