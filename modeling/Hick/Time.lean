import Mathlib

/-!
# Instants and durations (time.rs)

`Instant` is the clock the state machines are generic over (`time.rs:25-32`): a total order
with two checked operations. A clock may be bounded, so an addition can fail.
-/

namespace Hick

abbrev Duration := Nat

def Duration.fromMillis (n : Nat) : Duration := n * 1000000

def Duration.fromSecs (n : Nat) : Duration := n * 1000000000

class Instant (I : Type) extends LinearOrder I where
  checkedAddDuration : I → Duration → Option I
  checkedDurationSince : I → I → Option Duration

export Instant (checkedAddDuration checkedDurationSince)

/-- What the trait's contract says of `checked_add_duration`: it is `self + dur` where it
answers at all. -/
class LawfulInstant (I : Type) [Instant I] : Prop where
  le_add (t u : I) (d : Duration) (h : checkedAddDuration t d = some u) : t ≤ u
  add_mono (s t u v : I) (d e : Duration) (hst : s ≤ t) (hde : d ≤ e)
    (hs : checkedAddDuration s d = some u) (ht : checkedAddDuration t e = some v) : u ≤ v

/-- `now` is at least `d` after `t`: the sum exists on this clock and has been reached. -/
def Elapsed {I : Type} [Instant I] (t : I) (d : Duration) (now : I) : Prop :=
  ∃ u, checkedAddDuration t d = some u ∧ u ≤ now

section
variable {I : Type} [Instant I]

theorem Elapsed.mono (t : I) (d : Duration) (a b : I) (h : Elapsed t d a) (hab : a ≤ b) :
    Elapsed t d b := by
  obtain ⟨u, hu, hle⟩ := h
  exact ⟨u, hu, le_trans hle hab⟩

end

/-- A clock whose sums and differences are those of its readings, as the trait's contract has it:
`now - t` is answered from `t` on, and every part of a sum that exists does. -/
class MeasuredInstant (I : Type) [Instant I] : Prop extends LawfulInstant I where
  since_of_le (t now : I) (h : t ≤ now) :
    ∃ g, checkedDurationSince now t = some g ∧ checkedAddDuration t g = some now
  since_of_lt (t now : I) (h : now < t) : checkedDurationSince now t = none
  add_add (t u v : I) (d e : Duration) (hu : checkedAddDuration t d = some u)
    (hv : checkedAddDuration u e = some v) : checkedAddDuration t (d + e) = some v
  add_part (t v : I) (d e : Duration) (hde : d ≤ e) (hv : checkedAddDuration t e = some v) :
    ∃ u, checkedAddDuration t d = some u
  add_inj (t u : I) (d e : Duration) (hd : checkedAddDuration t d = some u)
    (he : checkedAddDuration t e = some u) : d = e

section
variable {I : Type} [Instant I] [MeasuredInstant I]

theorem elapsed_iff_since (t now : I) (d : Duration) :
    Elapsed t d now ↔ ∃ g, checkedDurationSince now t = some g ∧ d ≤ g := by
  constructor
  · rintro ⟨u, hu, hle⟩
    have hpast : t ≤ now := le_trans (LawfulInstant.le_add t u d hu) hle
    obtain ⟨g, hg, hnow⟩ := MeasuredInstant.since_of_le t now hpast
    refine ⟨g, hg, ?_⟩
    by_contra hshort
    have hback := LawfulInstant.add_mono t t now u g d (le_refl t) (le_of_not_ge hshort) hnow hu
    have hsame : now = u := le_antisymm hback hle
    rw [← hsame] at hu
    exact hshort (le_of_eq (MeasuredInstant.add_inj t now d g hu hnow))
  · rintro ⟨g, hg, hle⟩
    have hpast : t ≤ now := by
      by_contra hnot
      rw [MeasuredInstant.since_of_lt t now (not_le.mp hnot)] at hg
      cases hg
    obtain ⟨g', hg', hnow⟩ := MeasuredInstant.since_of_le t now hpast
    rw [hg] at hg'
    obtain rfl := Option.some.inj hg'
    obtain ⟨u, hu⟩ := MeasuredInstant.add_part t now d g hle hnow
    exact ⟨u, hu, LawfulInstant.add_mono t t u now d g (le_refl t) hle hu hnow⟩

theorem Elapsed.since_earlier (s t now : I) (d : Duration) (hst : s ≤ t) (h : Elapsed t d now) :
    Elapsed s d now := by
  obtain ⟨u, hu, hle⟩ := h
  obtain ⟨g, -, hg⟩ := MeasuredInstant.since_of_le s t hst
  have hsum := MeasuredInstant.add_add s t u g d hg hu
  obtain ⟨v, hv⟩ := MeasuredInstant.add_part s u d (g + d) (Nat.le_add_left d g) hsum
  have hvu := LawfulInstant.add_mono s s v u d (g + d) (le_refl s) (Nat.le_add_left d g) hv hsum
  exact ⟨v, hv, le_trans hvu hle⟩

theorem Elapsed.of_add (t d : I) (short long : Duration) (hle : short ≤ long)
    (h : checkedAddDuration t long = some d) : Elapsed t short d := by
  obtain ⟨u, hu⟩ := MeasuredInstant.add_part t d short long hle h
  exact ⟨u, hu, LawfulInstant.add_mono t t u d short long (le_refl t) hle hu h⟩

end

/-- An uptime counter: the sum of an instant and a duration may not fit. -/
abbrev Uptime := Fin 18446744073709551616

instance instNeZeroUptime : NeZero 18446744073709551616 := ⟨by decide⟩

instance : Instant Uptime where
  checkedAddDuration t d :=
    if h : t.val + d < 18446744073709551616 then some ⟨t.val + d, h⟩ else none
  checkedDurationSince t s := if s ≤ t then some (t.val - s.val) else none

instance : LawfulInstant Uptime where
  le_add t u d h := by
    simp only [checkedAddDuration] at h
    split at h
    · cases h
      exact Fin.le_def.mpr (Nat.le_add_right _ _)
    · cases h
  add_mono s t u v d e hst hde hs ht := by
    simp only [checkedAddDuration] at hs ht
    split at hs
    · split at ht
      · cases hs
        cases ht
        exact Fin.le_def.mpr (Nat.add_le_add (Fin.le_def.mp hst) hde)
      · cases ht
    · cases hs

instance : MeasuredInstant Uptime where
  since_of_le t now h := by
    have hle : t.val ≤ now.val := h
    have hsum : t.val + (now.val - t.val) = now.val := Nat.add_sub_cancel' hle
    refine ⟨now.val - t.val, if_pos h, ?_⟩
    simp only [checkedAddDuration]
    rw [dif_pos (by rw [hsum]; exact now.isLt)]
    exact congrArg some (Fin.ext hsum)
  since_of_lt t now h := if_neg (not_le.mpr h)
  add_add t u v d e hu hv := by
    simp only [checkedAddDuration] at hu hv ⊢
    split at hu
    · rename_i hfits
      cases hu
      split at hv
      · rename_i hfits'
        cases hv
        have hassoc : t.val + (d + e) = t.val + d + e := (Nat.add_assoc _ _ _).symm
        rw [dif_pos (by rw [hassoc]; exact hfits')]
        exact congrArg some (Fin.ext hassoc)
      · cases hv
    · cases hu
  add_part t v d e hde hv := by
    simp only [checkedAddDuration] at hv ⊢
    split at hv
    · rename_i hfits
      exact ⟨_, dif_pos (lt_of_le_of_lt (Nat.add_le_add_left hde t.val) hfits)⟩
    · cases hv
  add_inj t u d e hd he := by
    simp only [checkedAddDuration] at hd he
    split at hd
    · split at he
      · cases hd
        have hval := congrArg Fin.val (Option.some.inj he)
        exact (Nat.add_left_cancel hval).symm
      · cases he
    · cases hd

end Hick
