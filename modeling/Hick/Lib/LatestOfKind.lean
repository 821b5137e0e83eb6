import Mathlib

/-!
# The latest of each kind

Of a list whose items have kinds only the last item of each kind counts.
-/

namespace LatestOfKind
variable {T K : Type} [DecidableEq K] (kind : T → K)

def latest : List T → List T
  | [] => []
  | x :: rest => if kind x ∈ rest.map kind then latest rest else x :: latest rest

def others (k : K) (xs : List T) : List T := xs.filter fun x => decide (kind x ≠ k)

def put (x : T) (queue : List T) : List T := others kind (kind x) queue ++ [x]

attribute [local simp] latest

theorem mem_others (k : K) (xs : List T) (x : T) :
    x ∈ others kind k xs ↔ x ∈ xs ∧ kind x ≠ k := by
  simp only [others, List.mem_filter, decide_eq_true_eq]

theorem kinds_others (k l : K) (xs : List T) :
    l ∈ (others kind k xs).map kind ↔ l ∈ xs.map kind ∧ l ≠ k := by
  simp only [List.mem_map, mem_others]
  constructor
  · rintro ⟨x, ⟨hx, hne⟩, rfl⟩
    exact ⟨⟨x, hx, rfl⟩, hne⟩
  · rintro ⟨⟨x, hx, rfl⟩, hne⟩
    exact ⟨x, ⟨hx, hne⟩, rfl⟩

theorem others_append (k : K) (xs ys : List T) :
    others kind k (xs ++ ys) = others kind k xs ++ others kind k ys := by
  simp only [others, List.filter_append]

theorem latest_sublist (xs : List T) : (latest kind xs).Sublist xs := by
  induction xs with
  | nil => exact List.Sublist.slnil
  | cons x rest ih =>
    rw [latest]
    split
    · exact ih.cons x
    · exact ih.cons_cons x

theorem kinds_latest (xs : List T) (k : K) :
    k ∈ (latest kind xs).map kind ↔ k ∈ xs.map kind := by
  induction xs with
  | nil => simp [latest]
  | cons x rest ih =>
    rw [latest]
    split
    · rename_i hlater
      rw [ih, List.map_cons, List.mem_cons]
      constructor
      · exact Or.inr
      · rintro (rfl | hrest)
        · exact hlater
        · exact hrest
    · rw [List.map_cons, List.map_cons, List.mem_cons, List.mem_cons, ih]

theorem kinds_latest_nodup (xs : List T) : ((latest kind xs).map kind).Nodup := by
  induction xs with
  | nil => simp [latest]
  | cons x rest ih =>
    rw [latest]
    split
    · exact ih
    · rename_i hnew
      rw [List.map_cons, List.nodup_cons, kinds_latest]
      exact ⟨hnew, ih⟩

theorem latest_others (k : K) (xs : List T) :
    latest kind (others kind k xs) = others kind k (latest kind xs) := by
  induction xs with
  | nil => rfl
  | cons x rest ih =>
    by_cases hkind : kind x = k
    · have hskip : others kind k (x :: rest) = others kind k rest := by
        simp [others, hkind]
      rw [hskip, ih, latest]
      split
      · rfl
      · simp [others, hkind]
    · have hkeep : others kind k (x :: rest) = x :: others kind k rest := by
        simp [others, hkind]
      have hsame : kind x ∈ (others kind k rest).map kind ↔ kind x ∈ rest.map kind := by
        rw [kinds_others]
        exact and_iff_left hkind
      rw [hkeep, latest, latest, ih]
      by_cases hlater : kind x ∈ rest.map kind
      · rw [if_pos (hsame.mpr hlater), if_pos hlater]
      · rw [if_neg fun h => hlater (hsame.mp h), if_neg hlater]
        simp [others, hkind]

theorem latest_snoc (xs : List T) (x : T) :
    latest kind (xs ++ [x]) = put kind x (latest kind xs) := by
  induction xs with
  | nil => rfl
  | cons y rest ih =>
    rw [List.cons_append, latest, latest, ih]
    by_cases hlater : kind y ∈ rest.map kind
    · have hstill : kind y ∈ (rest ++ [x]).map kind := by
        rw [List.map_append]
        exact List.mem_append_left _ hlater
      rw [if_pos hstill, if_pos hlater]
    · rw [if_neg hlater]
      by_cases hkind : kind y = kind x
      · rw [if_pos (by simp [hkind])]
        simp [put, others, hkind]
      · have hnone : ¬kind y ∈ (rest ++ [x]).map kind := by
          simp only [List.map_append, List.map_cons, List.map_nil, List.mem_append,
            List.mem_singleton]
          rintro (h | h)
          · exact hlater h
          · exact hkind h
        rw [if_neg hnone]
        simp [put, others, hkind]

/-- What was taken from the queue and what is pending tell the same as all that was put. -/
structure Tells (put taken pending : List T) : Prop where
  suffix : pending <:+ latest kind put
  same : latest kind (taken ++ pending) = latest kind put

variable {kind}

theorem Tells.empty : Tells kind [] [] [] := ⟨List.suffix_rfl, rfl⟩

theorem Tells.put (sent taken pending : List T) (h : Tells kind sent taken pending) (x : T) :
    Tells kind (sent ++ [x]) taken (LatestOfKind.put kind x pending) where
  suffix := by
    rw [latest_snoc]
    obtain ⟨before, hbefore⟩ := h.suffix
    refine ⟨others kind (kind x) before, ?_⟩
    rw [LatestOfKind.put, LatestOfKind.put, ← hbefore, others_append, List.append_assoc]
  same := by
    have htwice : others kind (kind x) (others kind (kind x) pending) =
        others kind (kind x) pending := by
      simp only [others, List.filter_filter, Bool.and_self]
    calc latest kind (taken ++ LatestOfKind.put kind x pending)
        = LatestOfKind.put kind x (latest kind (taken ++ others kind (kind x) pending)) := by
          rw [LatestOfKind.put, ← List.append_assoc, latest_snoc]
      _ = LatestOfKind.put kind x (latest kind (taken ++ pending)) := by
          unfold LatestOfKind.put
          rw [← latest_others, ← latest_others, others_append, others_append, htwice]
      _ = latest kind (sent ++ [x]) := by rw [h.same, latest_snoc]

theorem Tells.take (sent taken rest : List T) (x : T) (h : Tells kind sent taken (x :: rest)) :
    Tells kind sent (taken ++ [x]) rest where
  suffix := (List.suffix_cons x rest).trans h.suffix
  same := by
    rw [List.append_assoc, List.singleton_append]
    exact h.same

theorem Tells.all (sent taken : List T) (h : Tells kind sent taken []) :
    latest kind taken = latest kind sent := by
  have hsame := h.same
  rwa [List.append_nil] at hsame

theorem Tells.nodup (sent taken pending : List T) (h : Tells kind sent taken pending) :
    (pending.map kind).Nodup :=
  (kinds_latest_nodup kind sent).sublist (h.suffix.sublist.map kind)

end LatestOfKind
