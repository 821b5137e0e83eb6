import Mathlib

/-!
# A ring of the newest values

A ring of `n` slots is written round robin, so it holds the newest `n` values of the sequence that
was written.
-/

namespace Ring
variable {α : Type}

/-- A ring whose next slot is `slot` holds the newest values of `xs`. -/
structure Holds (n : Nat) (ring : List (Option α)) (slot : Nat) (xs : List α) : Prop where
  length : ring.length = n
  cursor : slot = xs.length % n
  recent : ∀ i a, xs[i]? = some a → xs.length ≤ i + n → ring[i % n]? = some (some a)
  vacant : ∀ k, xs.length ≤ k → k < n → ring[k]? = some none

theorem Holds.empty (n : Nat) : Holds n (List.replicate n (none : Option α)) 0 [] := by
  refine ⟨List.length_replicate, (Nat.zero_mod n).symm, ?_, ?_⟩
  · intro i a h
    simp at h
  · intro k _ hk
    simp [hk]

theorem mod_ne (i m n : Nat) (hi : i < m) (hm : m < i + n) : i % n ≠ m % n := by
  intro heq
  have hzero : m - i = 0 := Nat.eq_zero_of_dvd_of_lt
    (Nat.dvd_of_mod_eq_zero (Nat.sub_mod_eq_zero_of_mod_eq heq.symm)) (by omega)
  omega

theorem Holds.push (n : Nat) (ring : List (Option α)) (slot : Nat) (xs : List α)
    (h : Holds n ring slot xs) (hn : 0 < n) (a : α) :
    Holds n (ring.set slot (some a)) ((slot + 1) % n) (xs ++ [a]) := by
  have hslot : slot < ring.length := by
    rw [h.length, h.cursor]
    exact Nat.mod_lt _ hn
  refine ⟨by rw [List.length_set, h.length], ?_, ?_, ?_⟩
  · rw [h.cursor, Nat.mod_add_mod, List.length_append, List.length_singleton]
  · intro i b hb hrecent
    rw [List.length_append, List.length_singleton] at hrecent
    by_cases hi : i = xs.length
    · rw [hi, List.getElem?_concat_length] at hb
      rw [hi, ← h.cursor, List.getElem?_set_self hslot, ← hb]
    · have hlt : i < xs.length := by
        have hbound := (List.getElem?_eq_some_iff.mp hb).1
        rw [List.length_append, List.length_singleton] at hbound
        omega
      rw [List.getElem?_append_left hlt] at hb
      have hother : slot ≠ i % n := by
        rw [h.cursor]
        exact (mod_ne i xs.length n hlt (by omega)).symm
      rw [List.getElem?_set_ne hother]
      exact h.recent i b hb (by omega)
  · intro k hk hkn
    rw [List.length_append, List.length_singleton] at hk
    have hother : slot ≠ k := by
      rw [h.cursor, Nat.mod_eq_of_lt (by omega)]
      omega
    rw [List.getElem?_set_ne hother]
    exact h.vacant k (by omega) hkn

theorem Holds.newest (n : Nat) (ring : List (Option α)) (slot : Nat) (xs : List α)
    (h : Holds n ring slot xs) (hn : 0 < n) :
    (ring[if slot = 0 then n - 1 else slot - 1]?).join = xs.getLast? := by
  rcases List.eq_nil_or_concat' xs with hnil | ⟨past, a, hxs⟩
  · have hslot : slot = 0 := by rw [h.cursor, hnil, List.length_nil, Nat.zero_mod]
    rw [if_pos hslot, h.vacant (n - 1) (by rw [hnil, List.length_nil]; omega) (by omega), hnil]
    rfl
  · have hlen : xs.length = past.length + 1 := by
      rw [hxs, List.length_append, List.length_singleton]
    have hlast : past.length % n = if slot = 0 then n - 1 else slot - 1 := by
      have hcursor := h.cursor
      rw [hlen, Nat.add_mod_eq_ite] at hcursor
      have hlt := Nat.mod_lt past.length hn
      by_cases hone : n = 1
      · rw [hone, Nat.mod_one]
        rw [hone, Nat.mod_one] at hcursor
        simp at hcursor
        rw [if_pos hcursor]
      · rw [Nat.mod_eq_of_lt (show 1 < n by omega)] at hcursor
        split at hcursor <;> split <;> omega
    have hrecent := h.recent past.length a (by rw [hxs, List.getElem?_concat_length]) (by omega)
    rw [← hlast, hrecent, hxs, List.getLast?_concat]
    rfl

theorem Holds.oldest (n : Nat) (ring : List (Option α)) (slot : Nat) (xs : List α)
    (h : Holds n ring slot xs) (hn : 0 < n) :
    (ring[slot]?).join = if n ≤ xs.length then xs[xs.length - n]? else none := by
  by_cases hfull : n ≤ xs.length
  · have hslot : slot = (xs.length - n) % n := by
      rw [h.cursor]
      conv_lhs => rw [show xs.length = xs.length - n + n by omega]
      exact Nat.add_mod_right _ n
    have hbound : xs.length - n < xs.length := by omega
    have hsome : xs[xs.length - n]? = some xs[xs.length - n] := List.getElem?_eq_getElem hbound
    rw [if_pos hfull, hslot, h.recent _ _ hsome (by omega), hsome]
    rfl
  · have hslot : slot = xs.length := by rw [h.cursor, Nat.mod_eq_of_lt (by omega)]
    rw [if_neg hfull, hslot, h.vacant xs.length (le_refl _) (by omega)]
    rfl

/-- The end of `xs` in which each value is near the one before, as long as it can be. -/
structure Current (near : α → α → Prop) (xs run : List α) : Prop where
  part : ∃ past, xs = past ++ run ∧ ∀ p ∈ past.getLast?, ∀ r ∈ run.head?, ¬near p r
  unbroken : run.IsChain near
  nonempty : run = [] → xs = []

variable (near : α → α → Prop)

theorem Current.nil : Current near [] [] :=
  ⟨⟨[], rfl, nofun⟩, List.IsChain.nil, fun _ => rfl⟩

theorem Current.first (a : α) : Current near [a] [a] :=
  ⟨⟨[], rfl, nofun⟩, List.IsChain.singleton a, nofun⟩

theorem Current.joins (xs run : List α) (h : Current near xs run)
    (l a : α) (hl : run.getLast? = some l) (hnear : near l a) :
    Current near (xs ++ [a]) (run ++ [a]) := by
  obtain ⟨past, hxs, hbroken⟩ := h.part
  refine ⟨⟨past, by rw [hxs, List.append_assoc], ?_⟩, ?_, ?_⟩
  · intro p hp r hr
    apply hbroken p hp r
    rw [List.head?_append] at hr
    cases hhead : run.head? with
    | none =>
      rw [List.head?_eq_none_iff.mp hhead] at hl
      cases hl
    | some r' =>
      rw [hhead, Option.some_or] at hr
      exact hr
  · rw [List.isChain_append]
    refine ⟨h.unbroken, List.IsChain.singleton a, ?_⟩
    intro x hx y hy
    rw [hl, Option.mem_some_iff] at hx
    rw [List.head?_singleton, Option.mem_some_iff] at hy
    rw [← hx, ← hy]
    exact hnear
  · intro hnil
    simp at hnil

theorem Current.breaks (xs run : List α) (h : Current near xs run)
    (l a : α) (hl : run.getLast? = some l) (hfar : ¬near l a) : Current near (xs ++ [a]) [a] := by
  obtain ⟨past, hxs, -⟩ := h.part
  refine ⟨⟨xs, rfl, ?_⟩, List.IsChain.singleton a, nofun⟩
  intro p hp r hr
  rw [hxs, List.getLast?_append, hl, Option.some_or, Option.mem_some_iff] at hp
  rw [List.head?_singleton, Option.mem_some_iff] at hr
  rw [← hp, ← hr]
  exact hfar

theorem Current.unique (xs run run' : List α) (h : Current near xs run)
    (h' : Current near xs run') : run = run' := by
  have hlonger : ∀ r r' : List α, Current near xs r → Current near xs r' → ∀ s, r = s ++ r' →
      s = [] := by
    intro r r' hr hr' s hs
    rcases List.eq_nil_or_concat' s with hnil | ⟨s', p, hp⟩
    · exact hnil
    · obtain ⟨past, hxs, -⟩ := hr.part
      obtain ⟨past', hxs', hbroken⟩ := hr'.part
      have hpast : past' = past ++ s := by
        apply @List.append_cancel_right _ _ r' _
        rw [← hxs', hxs, hs, List.append_assoc]
      cases hhead : r' with
      | nil =>
        rw [hr'.nonempty hhead] at hxs
        rw [(List.append_eq_nil_iff.mp hxs.symm).2, hp] at hs
        simp at hs
      | cons b rest =>
        have hchain := hr.unbroken
        rw [hs, List.isChain_append] at hchain
        have hlast : p ∈ s.getLast? := by
          rw [hp, List.getLast?_concat]
          rfl
        refine absurd (hchain.2.2 p hlast b ?_) (hbroken p ?_ b ?_)
        · rw [hhead]
          rfl
        · rw [hpast, hp, ← List.append_assoc, List.getLast?_concat]
          rfl
        · rw [hhead]
          rfl
  obtain ⟨past, hxs, -⟩ := h.part
  obtain ⟨past', hxs', -⟩ := h'.part
  rcases List.append_eq_append_iff.mp (hxs.symm.trans hxs') with ⟨s, -, hs⟩ | ⟨s, -, hs⟩
  · rw [hs, hlonger run run' h h' s hs, List.nil_append]
  · rw [hs, hlonger run' run h' h s hs, List.nil_append]

/-- `t` ends the first `k + 1` values in a row of which the last is near the first. -/
def FirstBurst (near : α → α → Prop) (k : Nat) (xs : List α) (t : α) : Prop :=
  ∃ i a, xs[i]? = some a ∧ xs[i + k]? = some t ∧ near a t ∧
    ∀ j, j < i → ∀ b c, xs[j]? = some b → xs[j + k]? = some c → ¬near b c

theorem firstBurst_exists (k : Nat) (xs : List α) (i : Nat) (a t : α)
    (ha : xs[i]? = some a) (ht : xs[i + k]? = some t) (hnear : near a t) :
    ∃ u, FirstBurst near k xs u := by
  induction i using Nat.strongRecOn generalizing a t with
  | _ i ih =>
    by_cases hearlier : ∃ j, j < i ∧ ∃ b c, xs[j]? = some b ∧ xs[j + k]? = some c ∧ near b c
    · obtain ⟨j, hj, b, c, hb, hc, hbc⟩ := hearlier
      exact ih j hj b c hb hc hbc
    · refine ⟨t, i, a, ha, ht, hnear, ?_⟩
      intro j hj b c hb hc hbc
      exact hearlier ⟨j, hj, b, c, hb, hc, hbc⟩

theorem firstBurst_snoc (k : Nat) (xs : List α) (a t : α) :
    FirstBurst near k (xs ++ [a]) t ↔ FirstBurst near k xs t ∨
      (∀ u, ¬FirstBurst near k xs u) ∧ t = a ∧ k ≤ xs.length ∧
        ∃ b, (xs ++ [a])[xs.length - k]? = some b ∧ near b a := by
  have hold : ∀ (i : Nat) (b : α), xs[i]? = some b → (xs ++ [a])[i]? = some b := by
    intro i b hb
    rw [List.getElem?_append_left (List.getElem?_eq_some_iff.mp hb).1]
    exact hb
  have hback : ∀ (i : Nat) (b : α), i < xs.length → (xs ++ [a])[i]? = some b → xs[i]? = some b := by
    intro i b hi hb
    rw [List.getElem?_append_left hi] at hb
    exact hb
  constructor
  · intro h
    obtain ⟨i, b, hb, ht, hnear, hfirst⟩ := h
    have hlen := (List.getElem?_eq_some_iff.mp ht).1
    rw [List.length_append, List.length_singleton] at hlen
    by_cases hlast : i + k = xs.length
    · right
      rw [hlast, List.getElem?_concat_length] at ht
      refine ⟨?_, (Option.some.inj ht).symm, by omega, b, ?_, ?_⟩
      · intro u hu
        obtain ⟨j, c, hc, hj, hcu, -⟩ := hu
        have hshort := (List.getElem?_eq_some_iff.mp hj).1
        exact hfirst j (by omega) c u (hold j c hc) (hold (j + k) u hj) hcu
      · rw [show xs.length - k = i by omega]
        exact hb
      · rw [Option.some.inj ht]
        exact hnear
    · left
      refine ⟨i, b, hback i b (by omega) hb, hback (i + k) t (by omega) ht, hnear, ?_⟩
      intro j hj c d hc hd
      exact hfirst j hj c d (hold j c hc) (hold (j + k) d hd)
  · intro h
    rcases h with ⟨i, b, hb, ht, hnear, hfirst⟩ | ⟨hnone, rfl, hlen, b, hb, hnear⟩
    · refine ⟨i, b, hold i b hb, hold (i + k) t ht, hnear, ?_⟩
      intro j hj c d hc hd
      have hlt := (List.getElem?_eq_some_iff.mp ht).1
      exact hfirst j hj c d (hback j c (by omega) hc) (hback (j + k) d (by omega) hd)
    · refine ⟨xs.length - k, b, hb, ?_, hnear, ?_⟩
      · rw [Nat.sub_add_cancel hlen, List.getElem?_concat_length]
      · intro j hj c d hc hd hcd
        obtain ⟨u, hu⟩ := firstBurst_exists near k xs j c d (hback j c (by omega) hc)
          (hback (j + k) d (by omega) hd) hcd
        exact hnone u hu

end Ring
