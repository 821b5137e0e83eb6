import Mathlib

/-!
# Turns around a ring

The members of a ring are listed in the order in which they are served next. A turn serves the first
few of them and leaves the ring open after those.
-/

namespace RoundRobin

section
variable {α : Type}

def turn (m : Nat) (ring : List α) : List α := ring.drop m ++ ring.take m

theorem mem_turn (m : Nat) (ring : List α) (x : α) : x ∈ turn m ring ↔ x ∈ ring := by
  rw [turn, List.mem_append, or_comm, ← List.mem_append, List.take_append_drop]

theorem mem_drop_of_waiting (m : Nat) (ring : List α) (x : α) (hx : x ∈ ring)
    (hwaits : x ∉ ring.take m) : x ∈ ring.drop m := by
  rw [← List.take_append_drop m ring] at hx
  cases List.mem_append.mp hx with
  | inl h => exact absurd h hwaits
  | inr h => exact h

variable [DecidableEq α]

def StandsBefore (x y : α) (ring : List α) : Prop := ring.idxOf x < ring.idxOf y

theorem idxOf_waiting (m : Nat) (ring : List α) (x : α) (hwaits : x ∉ ring.take m) :
    ring.idxOf x = (ring.drop m).idxOf x + (ring.take m).length := by
  have hsplit : (ring.take m ++ ring.drop m).idxOf x =
      if x ∈ ring.take m then (ring.take m).idxOf x
      else (ring.drop m).idxOf x + (ring.take m).length := List.idxOf_append
  rw [List.take_append_drop, if_neg hwaits] at hsplit
  exact hsplit

theorem turn_moves_up (m : Nat) (ring : List α) (x : α) (hm : m ≤ ring.length) (hx : x ∈ ring)
    (hwaits : x ∉ ring.take m) : (turn m ring).idxOf x + m = ring.idxOf x := by
  have hlater := mem_drop_of_waiting m ring x hx hwaits
  rw [turn, List.idxOf_append, if_pos hlater, idxOf_waiting m ring x hwaits, List.length_take,
    Nat.min_eq_left hm]

theorem turn_puts_behind (m : Nat) (ring : List α) (x y : α) (hnodup : ring.Nodup) (hx : x ∈ ring)
    (hwaits : x ∉ ring.take m) (hserved : y ∈ ring.take m) : StandsBefore x y (turn m ring) := by
  have hlater := mem_drop_of_waiting m ring x hx hwaits
  have hgone : y ∉ ring.drop m := by
    intro hdrop
    rw [← List.take_append_drop m ring] at hnodup
    exact (List.disjoint_of_nodup_append hnodup) hserved hdrop
  rw [StandsBefore, turn, List.idxOf_append, if_pos hlater, List.idxOf_append, if_neg hgone]
  have hlt := List.idxOf_lt_length_of_mem hlater
  omega

theorem turn_keeps_order (m : Nat) (ring : List α) (x y : α) (hm : m ≤ ring.length) (hx : x ∈ ring)
    (hy : y ∈ ring) (hxwaits : x ∉ ring.take m) (hywaits : y ∉ ring.take m)
    (h : StandsBefore x y ring) : StandsBefore x y (turn m ring) := by
  have hxup := turn_moves_up m ring x hm hx hxwaits
  have hyup := turn_moves_up m ring y hm hy hywaits
  rw [StandsBefore] at h ⊢
  omega

theorem served_before (m : Nat) (ring pre post : List α) (x y : α) (h : StandsBefore x y ring)
    (hserved : ring.take m = pre ++ y :: post) : x ∈ pre := by
  by_contra hnot
  have hsplit : ring = pre ++ (y :: post ++ ring.drop m) := by
    rw [← List.append_assoc, ← hserved, List.take_append_drop]
  have hy : ring.idxOf y ≤ pre.length := by
    rw [hsplit, List.idxOf_append]
    split
    · exact List.idxOf_le_length
    · simp
  have hx : pre.length ≤ ring.idxOf x := by
    rw [hsplit, List.idxOf_append, if_neg hnot]
    omega
  rw [StandsBefore] at h
  omega

end

def places (n cursor : Nat) : List Nat := (List.range n).map fun step => (cursor + step) % n

theorem places_mod (n cursor : Nat) : places n (cursor % n) = places n cursor := by
  simp only [places, Nat.mod_add_mod]

theorem places_length (n cursor : Nat) : (places n cursor).length = n := by
  rw [places, List.length_map, List.length_range]

theorem places_add (n cursor k : Nat) (hk : k ≤ n) :
    places n (cursor + k) = (places n cursor).drop k ++ (places n cursor).take k := by
  have hrotate : places n (cursor + k) = (places n cursor).rotate k := by
    apply List.ext_getElem
    · rw [List.length_rotate, places_length, places_length]
    · intro i h₁ h₂
      rw [List.getElem_rotate]
      simp only [places, List.getElem_map, List.getElem_range, List.length_map, List.length_range]
      rw [Nat.add_mod_mod, Nat.add_assoc, Nat.add_comm k i]
  rw [hrotate, List.rotate_eq_drop_append_take]
  rw [places_length]
  exact hk

theorem places_zero (n : Nat) : places n 0 = List.range n := by
  rw [places]
  conv_rhs => rw [← List.map_id (List.range n)]
  apply List.map_congr_left
  intro step hstep
  rw [Nat.zero_add, Nat.mod_eq_of_lt (List.mem_range.mp hstep)]
  rfl

theorem places_perm (n cursor : Nat) : (places n cursor).Perm (List.range n) := by
  cases n with
  | zero => exact List.Perm.refl _
  | succ n =>
    have hle : cursor % (n + 1) ≤ n + 1 := le_of_lt (Nat.mod_lt cursor (Nat.succ_pos n))
    have hmoved := places_add (n + 1) 0 (cursor % (n + 1)) hle
    rw [Nat.zero_add, places_mod, places_zero] at hmoved
    rw [hmoved]
    have hswap : ((List.range (n + 1)).drop (cursor % (n + 1)) ++
        (List.range (n + 1)).take (cursor % (n + 1))).Perm
          ((List.range (n + 1)).take (cursor % (n + 1)) ++
            (List.range (n + 1)).drop (cursor % (n + 1))) := List.perm_append_comm
    rw [List.take_append_drop] at hswap
    exact hswap

theorem places_nodup (n cursor : Nat) : (places n cursor).Nodup :=
  (places_perm n cursor).nodup_iff.mpr List.nodup_range

theorem mem_places (n cursor place : Nat) : place ∈ places n cursor ↔ place < n := by
  rw [(places_perm n cursor).mem_iff, List.mem_range]

theorem places_getElem (n cursor k : Nat) (hk : k < (places n cursor).length) :
    (places n cursor)[k] = (cursor + k) % n := by
  simp only [places, List.getElem_map, List.getElem_range]

theorem places_of_unreached (n cursor place : Nat) (reached rest : List Nat)
    (h : places n cursor = reached ++ place :: rest) :
    places n place = place :: rest ++ reached := by
  have hlen := congrArg List.length h
  rw [places_length, List.length_append, List.length_cons] at hlen
  have hplace : place = (cursor + reached.length) % n := by
    rw [← places_getElem n cursor reached.length (by rw [places_length]; omega)]
    simp only [h]
    rw [List.getElem_append_right (le_refl _)]
    simp only [Nat.sub_self, List.getElem_cons_zero]
  have hmoved := places_add n cursor reached.length (by omega)
  rw [← places_mod, ← hplace] at hmoved
  rw [hmoved, h, List.drop_left, List.take_left]

theorem places_of_served (n cursor place : Nat) (reached rest : List Nat)
    (h : places n cursor = (reached ++ [place]) ++ rest) :
    places n (place + 1) = rest ++ (reached ++ [place]) := by
  have hlen := congrArg List.length h
  simp only [places_length, List.length_append, List.length_singleton] at hlen
  have hplace : place = (cursor + reached.length) % n := by
    rw [← places_getElem n cursor reached.length (by rw [places_length]; omega)]
    simp only [h, List.append_assoc]
    rw [List.getElem_append_right (le_refl _)]
    simp only [Nat.sub_self, List.singleton_append, List.getElem_cons_zero]
  have hmoved := places_add n cursor (reached ++ [place]).length (by
    rw [List.length_append, List.length_singleton]; omega)
  have hnext : (place + 1) % n = (cursor + (reached ++ [place]).length) % n := by
    rw [hplace, Nat.mod_add_mod, List.length_append, List.length_singleton, Nat.add_assoc]
  rw [← places_mod, hnext, places_mod, hmoved, h, List.drop_left, List.take_left]

section
variable {α : Type} [DecidableEq α]

/-- A turn of a pass over several rings: what the ring was, how many of its members were served,
whether it was the first of the pass, and whether the pass was cut short. -/
structure Turn (α : Type) where
  ring : List α
  served : Nat
  first : Bool
  cut : Bool

namespace Turn

def members (t : Turn α) : List α := t.ring.take t.served

def after (t : Turn α) : List α := turn t.served t.ring

def nextFirst (t : Turn α) : Bool := if t.cut then !t.first else t.first

/-- A pass that is not cut short serves everyone, and the ring that goes first is served. -/
structure Sound (t : Turn α) : Prop where
  within : t.served ≤ t.ring.length
  all : t.cut = false → t.served = t.ring.length
  some : t.first = true → t.ring ≠ [] → 0 < t.served

def Follows (t u : Turn α) : Prop := u.ring = t.after ∧ u.first = t.nextFirst

end Turn

/-- How many more turns a member can wait in which it stands behind `ahead` others. -/
def patience (first : Bool) (ahead : Nat) : Nat := 2 * ahead + if first then 0 else 1

theorem waits_at_most (x : α) (t : Turn α) (ts : List (Turn α))
    (hchain : (t :: ts).IsChain Turn.Follows) (hsound : ∀ u ∈ t :: ts, u.Sound)
    (hx : x ∈ t.ring) (hwaits : ∀ u ∈ t :: ts, x ∉ u.members) :
    (t :: ts).length ≤ patience t.first (t.ring.idxOf x) := by
  induction ts generalizing t with
  | nil =>
    have ht := hsound t (List.mem_cons_self ..)
    have hup := turn_moves_up t.served t.ring x ht.within hx (hwaits t (List.mem_cons_self ..))
    have hring : t.ring ≠ [] := List.ne_nil_of_mem hx
    cases hfirst : t.first with
    | true =>
      have hpos := ht.some hfirst hring
      simp only [List.length_singleton, patience, if_true]
      omega
    | false =>
      simp only [List.length_singleton, patience]
      simp
  | cons u ts ih =>
    have ht := hsound t (List.mem_cons_self ..)
    have hxt := hwaits t (List.mem_cons_self ..)
    have hup := turn_moves_up t.served t.ring x ht.within hx hxt
    obtain ⟨⟨hring, hnext⟩, hlater⟩ := List.isChain_cons_cons.mp hchain
    have hxu : x ∈ u.ring := by
      rw [hring]
      exact (mem_turn t.served t.ring x).mpr hx
    have hrest := ih u hlater (fun v hv => hsound v (List.mem_cons_of_mem _ hv)) hxu
      (fun v hv => hwaits v (List.mem_cons_of_mem _ hv))
    -- who waits was passed over by a cut, so the ring goes first every other time
    have hcut : t.cut = true := by
      by_contra hne
      apply hxt
      rw [Turn.members, ht.all (by simpa using hne), List.take_length]
      exact hx
    rw [hring, Turn.after, hnext, Turn.nextFirst, hcut, if_pos rfl] at hrest
    rw [List.length_cons]
    cases hfirst : t.first with
    | true =>
      have hpos := ht.some hfirst (List.ne_nil_of_mem hx)
      simp only [hfirst, patience, Bool.not_true, Bool.false_eq_true, if_false, if_true] at hrest ⊢
      omega
    | false =>
      simp only [hfirst, patience, Bool.not_false, Bool.false_eq_true, if_false, if_true] at hrest ⊢
      omega

theorem served_within (x : α) (t : Turn α) (ts : List (Turn α))
    (hchain : (t :: ts).IsChain Turn.Follows) (hsound : ∀ u ∈ t :: ts, u.Sound) (hx : x ∈ t.ring)
    (hlong : 2 * t.ring.length ≤ (t :: ts).length) : ∃ u ∈ t :: ts, x ∈ u.members := by
  by_contra hnone
  have hwaits : ∀ u ∈ t :: ts, x ∉ u.members := fun u hu hxu => hnone ⟨u, hu, hxu⟩
  have hfew := waits_at_most x t ts hchain hsound hx hwaits
  have hidx := List.idxOf_lt_length_of_mem hx
  have hpatience : patience t.first (t.ring.idxOf x) < 2 * t.ring.length := by
    rw [patience]
    split <;> omega
  omega

theorem served_in_order (x y : α) (mid : List (Turn α)) (t u : Turn α)
    (hchain : (t :: (mid ++ [u])).IsChain Turn.Follows)
    (hsound : ∀ v ∈ mid ++ [u], v.Sound) (hx : x ∈ t.ring) (hy : y ∈ t.ring)
    (hbefore : StandsBefore x y t.after) (hwaits : ∀ v ∈ mid, x ∉ v.members) (pre post : List α)
    (hserved : u.members = pre ++ y :: post) : x ∈ pre := by
  induction mid generalizing t with
  | nil =>
    obtain ⟨⟨hring, -⟩, -⟩ := List.isChain_cons_cons.mp hchain
    rw [← hring] at hbefore
    exact served_before u.served u.ring pre post x y hbefore hserved
  | cons v mid ih =>
    obtain ⟨⟨hring, -⟩, hlater⟩ := List.isChain_cons_cons.mp hchain
    have hv := hsound v (List.mem_cons_self ..)
    have hxv : x ∈ v.ring := by
      rw [hring]
      exact (mem_turn t.served t.ring x).mpr hx
    have hyv : y ∈ v.ring := by
      rw [hring]
      exact (mem_turn t.served t.ring y).mpr hy
    rw [← hring] at hbefore
    have hxwaits := hwaits v (List.mem_cons_self ..)
    have hywaits : y ∉ v.ring.take v.served := by
      intro hmem
      obtain ⟨p, q, hsplit⟩ := List.append_of_mem hmem
      have hxp := served_before v.served v.ring p q x y hbefore hsplit
      apply hxwaits
      rw [Turn.members, hsplit]
      exact List.mem_append_left _ hxp
    apply ih v hlater (fun w hw => hsound w (List.mem_cons_of_mem _ hw)) hxv hyv
    · exact turn_keeps_order v.served v.ring x y hv.within hxv hyv hxwaits hywaits hbefore
    · exact fun w hw => hwaits w (List.mem_cons_of_mem _ hw)

end

end RoundRobin
