import Mathlib

/-!
# Taking an element out of a list

Elements are taken out or replaced by position, the first that fits; the lists that matter are the
ones filtered by some other property.
-/

namespace Edits
variable {α β : Type}

theorem filter_eraseIdx (p : α → Bool) (xs : List α) (i : Nat)
    (h : ∀ x, xs[i]? = some x → p x = false) : (xs.eraseIdx i).filter p = xs.filter p := by
  induction xs generalizing i with
  | nil => rfl
  | cons x xs ih =>
    cases i with
    | zero =>
      have hx := h x rfl
      rw [List.eraseIdx_cons_zero, List.filter_cons_of_neg (by simp [hx])]
    | succ i =>
      have hrest := ih i fun y hy => h y (by simpa using hy)
      rw [List.eraseIdx_cons_succ, List.filter_cons, List.filter_cons, hrest]

theorem countP_eraseIdx (p : α → Bool) (xs : List α) (i : Nat) (x : α)
    (hx : xs[i]? = some x) (hp : p x = true) : (xs.eraseIdx i).countP p + 1 = xs.countP p := by
  induction xs generalizing i with
  | nil => simp at hx
  | cons y ys ih =>
    cases i with
    | zero =>
      obtain rfl : y = x := by simpa using hx
      rw [List.eraseIdx_cons_zero, List.countP_cons_of_pos hp]
    | succ i =>
      have hrest := ih i (by simpa using hx)
      rw [List.eraseIdx_cons_succ, List.countP_cons, List.countP_cons]
      omega

theorem eraseIdx_eq_eraseP (p : α → Bool) (xs : List α) (i : Nat) (x : α) (hx : xs[i]? = some x)
    (hp : p x = true) (hfirst : ∀ j y, j < i → xs[j]? = some y → p y = false) :
    xs.eraseIdx i = xs.eraseP p := by
  induction xs generalizing i with
  | nil => simp at hx
  | cons y ys ih =>
    cases i with
    | zero =>
      obtain rfl : y = x := by simpa using hx
      rw [List.eraseIdx_cons_zero, List.eraseP_cons_of_pos hp]
    | succ i =>
      have hy : ¬ p y = true := by simp [hfirst 0 y (by omega) rfl]
      have hrest := ih i (by simpa using hx) fun j z hj hz =>
        hfirst (j + 1) z (by omega) (by simpa using hz)
      rw [List.eraseIdx_cons_succ, List.eraseP_cons_of_neg hy, hrest]

theorem filter_eraseP_and (a b : α → Bool) (xs : List α) :
    (xs.eraseP fun x => a x && b x).filter a = (xs.filter a).eraseP b := by
  induction xs with
  | nil => rfl
  | cons x xs ih =>
    cases ha : a x with
    | false =>
      rw [List.eraseP_cons_of_neg (by simp [ha]), List.filter_cons_of_neg (by simp [ha]),
        List.filter_cons_of_neg (by simp [ha]), ih]
    | true =>
      cases hb : b x with
      | false =>
        rw [List.eraseP_cons_of_neg (by simp [hb]), List.filter_cons_of_pos ha,
          List.filter_cons_of_pos ha, List.eraseP_cons_of_neg (by simp [hb]), ih]
      | true =>
        rw [List.eraseP_cons_of_pos (by simp [ha, hb]), List.filter_cons_of_pos ha,
          List.eraseP_cons_of_pos hb]

theorem filter_set_off (p : α → Bool) (xs : List α) (i : Nat) (x : α) (h : p x = false) :
    (xs.set i x).filter p = (xs.eraseIdx i).filter p := by
  induction xs generalizing i with
  | nil => rfl
  | cons y ys ih =>
    cases i with
    | zero =>
      rw [List.set_cons_zero, List.eraseIdx_cons_zero, List.filter_cons_of_neg (by simp [h])]
    | succ i =>
      rw [List.set_cons_succ, List.eraseIdx_cons_succ, List.filter_cons, List.filter_cons, ih i]

theorem filter_map_set (p : α → Bool) (k : α → β) (xs : List α) (i : Nat) (x y : α)
    (hx : xs[i]? = some x) (hp : p y = p x) (hk : k y = k x) :
    ((xs.set i y).filter p).map k = (xs.filter p).map k := by
  induction xs generalizing i with
  | nil => rfl
  | cons z zs ih =>
    cases i with
    | zero =>
      obtain rfl : z = x := by simpa using hx
      rw [List.set_cons_zero, List.filter_cons, List.filter_cons, hp]
      split
      · rw [List.map_cons, List.map_cons, hk]
      · rfl
    | succ i =>
      have hrest := ih i (by simpa using hx)
      rw [List.set_cons_succ, List.filter_cons, List.filter_cons]
      split
      · rw [List.map_cons, List.map_cons, hrest]
      · exact hrest

end Edits
