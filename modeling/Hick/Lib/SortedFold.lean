import Mathlib

/-!
# Comparing a stream with a sorted list in bounded space

A stream of elements is to be compared, once sorted, with a sorted list of `keep` elements.
-/

namespace SortedFold

variable {α : Type} [LinearOrder α]

def upTo (x : α) (xs : List α) : Nat := (xs.takeWhile fun e => decide (e ≤ x)).length

/-- Inserts `x` behind its equals, unless `keep` smaller elements are already there. -/
def keepSmallest (keep : Nat) (xs : List α) (x : α) : List α :=
  if upTo x xs < keep then (xs.insertIdx (upTo x xs) x).take keep else xs

def ascending (xs : List α) : List α := xs.insertionSort (· ≤ ·)

/-- The first position where the lists differ: whether `peer` is the greater one there. -/
def firstDifference : List α → List α → Option Bool
  | p :: peer, o :: ours => if p = o then firstDifference peer ours else some (o < p)
  | _, _ => none

theorem insertIdx_upTo (x : α) (xs : List α) :
    xs.insertIdx (upTo x xs) x =
      xs.takeWhile (fun e => decide (e ≤ x)) ++ x :: xs.dropWhile (fun e => decide (e ≤ x)) := by
  induction xs with
  | nil => rfl
  | cons y ys ih =>
    unfold upTo at ih ⊢
    by_cases h : y ≤ x
    · simp only [List.takeWhile_cons, List.dropWhile_cons, h, decide_true, if_true,
        List.length_cons, List.insertIdx_succ_cons, ih, List.cons_append]
    · simp only [List.takeWhile_cons, List.dropWhile_cons, h, decide_false, Bool.false_eq_true,
        if_false, List.length_nil, List.insertIdx_zero, List.nil_append]

theorem insertIdx_perm (x : α) (xs : List α) : (xs.insertIdx (upTo x xs) x).Perm (x :: xs) := by
  rw [insertIdx_upTo]
  refine List.perm_middle.trans ?_
  rw [List.takeWhile_append_dropWhile]

theorem insertIdx_sorted (x : α) (xs : List α) (h : xs.Pairwise (· ≤ ·)) :
    (xs.insertIdx (upTo x xs) x).Pairwise (· ≤ ·) := by
  induction xs with
  | nil => simp [upTo]
  | cons y ys ih =>
    obtain ⟨hy, hys⟩ := List.pairwise_cons.mp h
    by_cases hyx : y ≤ x
    · have hup : upTo x (y :: ys) = upTo x ys + 1 := by
        simp only [upTo, List.takeWhile_cons, hyx, decide_true, if_true, List.length_cons]
      rw [hup, List.insertIdx_succ_cons, List.pairwise_cons]
      refine ⟨fun z hz => ?_, ih hys⟩
      rcases List.mem_cons.mp ((insertIdx_perm x ys).mem_iff.mp hz) with rfl | hz
      · exact hyx
      · exact hy z hz
    · have hup : upTo x (y :: ys) = 0 := by
        simp only [upTo, List.takeWhile_cons, hyx, decide_false, Bool.false_eq_true, if_false,
          List.length_nil]
      have hxy : x ≤ y := le_of_lt (not_le.mp hyx)
      rw [hup, List.insertIdx_zero, List.pairwise_cons]
      refine ⟨fun z hz => ?_, h⟩
      rcases List.mem_cons.mp hz with rfl | hz
      · exact hxy
      · exact hxy.trans (hy z hz)

theorem upTo_take (x : α) (keep : Nat) (xs : List α) :
    upTo x (xs.take keep) = min keep (upTo x xs) := by
  induction xs generalizing keep with
  | nil => simp [upTo]
  | cons y ys ih =>
    cases keep with
    | zero => simp [upTo]
    | succ keep =>
      unfold upTo at ih ⊢
      by_cases h : y ≤ x
      · simp only [List.take_succ_cons, List.takeWhile_cons, h, decide_true, if_true,
          List.length_cons, ih]
        omega
      · simp [h]

theorem keepSmallest_take (keep : Nat) (x : α) (xs : List α) :
    keepSmallest keep (xs.take keep) x = (xs.insertIdx (upTo x xs) x).take keep := by
  unfold keepSmallest
  rw [upTo_take]
  have hle : upTo x xs ≤ xs.length := (List.takeWhile_prefix _).length_le
  by_cases h : upTo x xs < keep
  · rw [Nat.min_eq_right (by omega), if_pos h]
    refine List.ext_getElem? fun i => ?_
    rw [List.getElem?_take, List.getElem?_take]
    split
    · rename_i hi
      rw [List.getElem?_insertIdx, List.getElem?_insertIdx]
      rw [List.getElem?_take, List.getElem?_take, List.length_take]
      grind
    · rfl
  · rw [Nat.min_eq_left (by omega), if_neg (Nat.lt_irrefl _)]
    refine List.ext_getElem? fun i => ?_
    rw [List.getElem?_take, List.getElem?_take]
    split
    · rw [List.getElem?_insertIdx_of_lt (by omega)]
    · rfl

theorem fold_keepSmallest (keep : Nat) (xs : List α) :
    xs.foldl (keepSmallest keep) [] = (ascending xs).take keep := by
  have hfold : ∀ seen ys : List α, ys.foldl (keepSmallest keep) ((ascending seen).take keep) =
      (ascending (seen ++ ys)).take keep := by
    intro seen ys
    induction ys generalizing seen with
    | nil => rw [List.append_nil, List.foldl_nil]
    | cons y ys ih =>
      have hsort : (ascending seen).insertIdx (upTo y (ascending seen)) y =
          ascending (seen ++ [y]) := by
        refine List.Perm.eq_of_pairwise' (r := (· ≤ ·))
          (insertIdx_sorted y _ (List.pairwise_insertionSort (· ≤ ·) seen))
          (List.pairwise_insertionSort (· ≤ ·) _) ?_
        refine (insertIdx_perm y _).trans (((List.perm_insertionSort _ seen).cons y).trans ?_)
        exact (List.perm_append_singleton y seen).symm.trans (List.perm_insertionSort _ _).symm
      rw [List.foldl_cons, keepSmallest_take, hsort, ih (seen ++ [y]), List.append_assoc]
      rfl
  simpa only [ascending, List.insertionSort_nil, List.take_nil, List.nil_append] using hfold [] xs

theorem firstDifference_lt (peer ours : List α) :
    (firstDifference (peer.take ours.length) ours).getD
        (decide (ours.length < peer.length)) = true ↔ ours < peer := by
  induction ours generalizing peer with
  | nil =>
    cases peer with
    | nil => simp [firstDifference]
    | cons p peer => simp [firstDifference]
  | cons o ours ih =>
    cases peer with
    | nil => simp [firstDifference]
    | cons p peer =>
      rw [List.length_cons, List.take_succ_cons, firstDifference, List.cons_lt_cons_iff]
      by_cases h : p = o
      · simp only [h, if_true, lt_irrefl, false_or, true_and, List.length_cons,
          Nat.add_lt_add_iff_right, ih]
      · have hne : ¬o = p := fun e => h e.symm
        simp only [h, if_false, Option.getD_some, decide_eq_true_eq, hne, false_and, or_false]

end SortedFold
