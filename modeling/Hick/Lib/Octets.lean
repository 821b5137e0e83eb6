import Mathlib

/-!
# Octet strings

Octets are `Fin 256`; a buffer is a list of them.
-/

namespace Octets

abbrev Byte := Fin 256

instance instNeZeroByte : NeZero 256 := ⟨by decide⟩

abbrev Bytes := List Byte

def be16 (v : UInt16) : Bytes :=
  [⟨v.toNat / 256, by have := v.toNat_lt; omega⟩, ⟨v.toNat % 256, Nat.mod_lt _ (by decide)⟩]

def ofBe16 (hi lo : Byte) : UInt16 := UInt16.ofNat (hi.val * 256 + lo.val)

def be32 (v : UInt32) : Bytes :=
  [⟨v.toNat / 16777216, by have := v.toNat_lt; omega⟩,
    ⟨v.toNat / 65536 % 256, Nat.mod_lt _ (by decide)⟩,
    ⟨v.toNat / 256 % 256, Nat.mod_lt _ (by decide)⟩, ⟨v.toNat % 256, Nat.mod_lt _ (by decide)⟩]

def ofBe32 (a b c d : Byte) : UInt32 :=
  UInt32.ofNat (a.val * 16777216 + b.val * 65536 + c.val * 256 + d.val)

@[simp] theorem be16_length (v : UInt16) : (be16 v).length = 2 := rfl

theorem ofBe16_be16 (v : UInt16) (hi lo : Byte) (h : be16 v = [hi, lo]) : ofBe16 hi lo = v := by
  simp only [be16, List.cons.injEq, and_true] at h
  obtain ⟨rfl, rfl⟩ := h
  apply UInt16.toNat_inj.mp
  have hv := v.toNat_lt
  simp only [ofBe16, UInt16.toNat_ofNat']
  omega

theorem be16_ofBe16 (hi lo : Byte) : be16 (ofBe16 hi lo) = [hi, lo] := by
  have hhi := hi.isLt
  have hlo := lo.isLt
  have hv : (ofBe16 hi lo).toNat = hi.val * 256 + lo.val := by
    simp only [ofBe16, UInt16.toNat_ofNat']
    omega
  simp only [be16, hv, List.cons.injEq, and_true]
  exact ⟨Fin.ext (by simp only; omega), Fin.ext (by simp only; omega)⟩

theorem ofBe32_be32 (v : UInt32) (a b c d : Byte) (h : be32 v = [a, b, c, d]) :
    ofBe32 a b c d = v := by
  simp only [be32, List.cons.injEq, and_true] at h
  obtain ⟨rfl, rfl, rfl, rfl⟩ := h
  apply UInt32.toNat_inj.mp
  have hv := v.toNat_lt
  simp only [ofBe32, UInt32.toNat_ofNat']
  omega

def slice (buf : Bytes) (at_ len : Nat) : Option Bytes :=
  if at_ + len ≤ buf.length then some ((buf.drop at_).take len) else none

def readBe16 (buf : Bytes) (at_ : Nat) : Option UInt16 :=
  match slice buf at_ 2 with
  | some [hi, lo] => some (ofBe16 hi lo)
  | _ => none

theorem slice_length (buf : Bytes) (at_ len : Nat) (s : Bytes) (h : slice buf at_ len = some s) :
    s.length = len ∧ at_ + len ≤ buf.length := by
  unfold slice at h
  split at h
  · cases h
    refine ⟨?_, by assumption⟩
    simp only [List.length_take, List.length_drop]
    omega
  · cases h

theorem slice_append (buf ext : Bytes) (at_ len : Nat) (s : Bytes)
    (h : slice buf at_ len = some s) : slice (buf ++ ext) at_ len = some s := by
  have hlen := (slice_length buf at_ len s h).2
  unfold slice at h ⊢
  rw [if_pos hlen] at h
  rw [if_pos (by rw [List.length_append]; omega), List.drop_append_of_le_length (by omega),
    List.take_append_of_le_length (by rw [List.length_drop]; omega)]
  exact h

theorem slice_middle (pre mid post : Bytes) :
    slice (pre ++ (mid ++ post)) pre.length mid.length = some mid := by
  unfold slice
  rw [if_pos (by simp only [List.length_append]; omega), List.drop_left, List.take_left]

theorem readBe16_of_slice (buf : Bytes) (at_ : Nat) (v : UInt16)
    (h : slice buf at_ 2 = some (be16 v)) : readBe16 buf at_ = some v := by
  unfold readBe16
  rw [h]
  exact congrArg some (ofBe16_be16 v _ _ rfl)

/-- Copies `bs` over `buf[at .. at + bs.length]`, refused when the slice does not fit. -/
def overwrite (buf : Bytes) (at_ : Nat) (bs : Bytes) : Option Bytes :=
  if at_ + bs.length ≤ buf.length then
    some (buf.take at_ ++ bs ++ buf.drop (at_ + bs.length))
  else none

theorem overwrite_length (buf : Bytes) (at_ : Nat) (bs out : Bytes)
    (h : overwrite buf at_ bs = some out) : out.length = buf.length := by
  unfold overwrite at h
  split at h
  · cases h
    simp only [List.length_append, List.length_take, List.length_drop]
    omega
  · cases h

theorem overwrite_take (buf : Bytes) (at_ : Nat) (bs out : Bytes)
    (h : overwrite buf at_ bs = some out) :
    out.take (at_ + bs.length) = buf.take at_ ++ bs := by
  unfold overwrite at h
  split at h
  · cases h
    have hl : (buf.take at_ ++ bs).length = at_ + bs.length := by
      simp only [List.length_append, List.length_take]
      omega
    rw [← hl, List.take_left]
  · cases h

end Octets
