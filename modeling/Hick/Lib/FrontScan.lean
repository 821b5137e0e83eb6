import Mathlib

/-!
# Scans that begin at the front each time

A list of members is scanned from its front, and each scan stops at the first member that is busy in
it.
-/

namespace FrontScan

section
variable {α : Type}

def reached (busy : α → Bool) : List α → List α
  | [] => []
  | x :: xs => if busy x then [x] else x :: reached busy xs

attribute [local simp] reached

theorem mem_reached (busy : α → Bool) (members : List α) (x : α) :
    x ∈ reached busy members ↔
      ∃ ahead later, members = ahead ++ x :: later ∧ ∀ y ∈ ahead, busy y = false := by
  induction members with
  | nil =>
    constructor
    · intro h
      cases h
    · intro h
      obtain ⟨ahead, later, hsplit, -⟩ := h
      cases ahead with
      | nil => cases hsplit
      | cons _ _ => cases hsplit
  | cons y ys ih =>
    rw [reached]
    constructor
    · intro h
      split at h
      · rw [List.mem_singleton.mp h]
        exact ⟨[], ys, rfl, nofun⟩
      · rename_i hidle
        cases List.mem_cons.mp h with
        | inl heq =>
          rw [heq]
          exact ⟨[], ys, rfl, nofun⟩
        | inr hlater =>
          obtain ⟨ahead, later, hsplit, hahead⟩ := ih.mp hlater
          refine ⟨y :: ahead, later, by rw [hsplit]; rfl, fun z hz => ?_⟩
          cases List.mem_cons.mp hz with
          | inl heq => rw [heq]; simpa using hidle
          | inr hz => exact hahead z hz
    · intro h
      obtain ⟨ahead, later, hsplit, hahead⟩ := h
      cases ahead with
      | nil =>
        cases hsplit
        split
        · exact List.mem_singleton.mpr rfl
        · exact List.mem_cons_self ..
      | cons z ahead =>
        cases hsplit
        rw [hahead y (List.mem_cons_self ..), if_neg Bool.false_ne_true]
        apply List.mem_cons_of_mem
        exact ih.mpr ⟨ahead, later, rfl, fun w hw => hahead w (List.mem_cons_of_mem _ hw)⟩

theorem reached_all (busy : α → Bool) (members : List α) (h : members.find? busy = none) :
    reached busy members = members := by
  induction members with
  | nil => rfl
  | cons x xs ih =>
    have hall := List.find?_eq_none.mp h
    have hx : busy x = false := by simpa using hall x (List.mem_cons_self ..)
    have hxs : xs.find? busy = none :=
      List.find?_eq_none.mpr fun y hy => hall y (List.mem_cons_of_mem _ hy)
    rw [reached, hx, if_neg Bool.false_ne_true, ih hxs]

theorem reached_append (busy : α → Bool) (front back : List α) :
    reached busy (front ++ back) =
      if (front.find? busy).isSome then reached busy front
      else reached busy front ++ reached busy back := by
  induction front with
  | nil => rfl
  | cons x xs ih =>
    rw [List.cons_append, reached, reached, List.find?_cons]
    cases hx : busy x with
    | true => rfl
    | false =>
      simp only [Bool.false_eq_true, if_false]
      rw [ih]
      split <;> rfl

theorem reached_map {β : Type} (busy : β → Bool) (f : α → β) (members : List α) :
    reached busy (members.map f) = (reached (fun x => busy (f x)) members).map f := by
  induction members with
  | nil => rfl
  | cons x xs ih =>
    rw [List.map_cons, reached, reached]
    split
    · rfl
    · rw [ih, List.map_cons]

end

section
variable {α : Type}

/-- A run of scans: who is busy in each is given, and so is how many are admitted. `none` when
`fuel` scans are not enough. -/
def scans (admits : Nat → Bool) (busy : Nat → α → Bool) (members : List α) :
    Nat → Nat → Option (List α)
  | 0, _ => none
  | fuel + 1, n =>
    if admits n then
      match members.find? (busy n) with
      | some _ => (scans admits busy members fuel (n + 1)).map (reached (busy n) members ++ ·)
      | none => some (reached (busy n) members)
    else some []

theorem mem_scans (admits : Nat → Bool) (busy : Nat → α → Bool) (members : List α)
    (hdown : ∀ n, admits (n + 1) = true → admits n = true) (x : α) (fuel n : Nat)
    (found : List α) (h : scans admits busy members fuel n = some found) :
    x ∈ found ↔ ∃ k, n ≤ k ∧ admits k = true ∧ x ∈ reached (busy k) members := by
  have hearlier (n k : Nat) (hnk : n ≤ k) (hk : admits k = true) : admits n = true := by
    induction hnk with
    | refl => exact hk
    | step hle ih => exact ih (hdown _ hk)
  induction fuel generalizing n found with
  | zero => cases h
  | succ fuel ih =>
    rw [scans] at h
    cases hadmits : admits n with
    | false =>
      rw [hadmits, if_neg Bool.false_ne_true] at h
      cases h
      constructor
      · intro hx
        cases hx
      · intro hex
        obtain ⟨k, hle, hk, -⟩ := hex
        rw [hearlier n k hle hk] at hadmits
        cases hadmits
    | true =>
      rw [hadmits, if_pos rfl] at h
      cases hfind : members.find? (busy n) with
      | none =>
        rw [hfind] at h
        cases h
        constructor
        · intro hx
          exact ⟨n, le_refl n, hadmits, hx⟩
        · intro hex
          obtain ⟨k, -, -, hx⟩ := hex
          obtain ⟨ahead, later, hsplit, -⟩ := (mem_reached (busy k) members x).mp hx
          rw [reached_all (busy n) members hfind, hsplit]
          exact List.mem_append_right _ (List.mem_cons_self ..)
      | some y =>
        rw [hfind] at h
        obtain ⟨rest, hrest, hfound⟩ := Option.map_eq_some_iff.mp h
        have hlater := ih (n + 1) rest hrest
        rw [← hfound, List.mem_append]
        constructor
        · intro hx
          cases hx with
          | inl hnow => exact ⟨n, le_refl n, hadmits, hnow⟩
          | inr hx =>
            obtain ⟨k, hle, hk, hx⟩ := hlater.mp hx
            exact ⟨k, by omega, hk, hx⟩
        · intro hex
          obtain ⟨k, hle, hk, hx⟩ := hex
          by_cases heq : n = k
          · rw [heq]
            exact .inl hx
          · exact .inr (hlater.mpr ⟨k, by omega, hk, hx⟩)

end

end FrontScan
