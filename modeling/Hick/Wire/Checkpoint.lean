import Mathlib
import Hick.Wire.BuilderSpec

/-!
# What a builder operation leaves alone

Whether it completes or fails part way, an operation started at some cursor changes neither the
octets before that cursor nor the table entries already in use.
-/

namespace Hick.Wire
open Octets LabelSeq EncodeM MessageBuilder

/-- `b` has grown from `base`: what `base` had written, recorded and completed is still there. -/
structure GrownFrom (base b : MessageBuilder) : Prop where
  capacity : b.out.length = base.out.length
  cursor : base.cursor ≤ b.cursor
  octets : b.out.take base.cursor = base.out.take base.cursor
  used : base.compression.used ≤ b.compression.used
  entries : b.compression.entries.take base.compression.used =
    base.compression.entries.take base.compression.used
  pushed : base.pushed <+: b.pushed

theorem GrownFrom.refl (b : MessageBuilder) : GrownFrom b b :=
  ⟨rfl, Nat.le_refl _, rfl, Nat.le_refl _, rfl, List.prefix_refl _⟩

def Keeps {α : Type} (base : MessageBuilder) (m : EncodeM α) : Prop :=
  ∀ b, GrownFrom base b → GrownFrom base (m.exec b).2

section
variable {α β : Type} (base : MessageBuilder)

theorem keeps_bind (m : EncodeM α) (f : α → EncodeM β) (hm : Keeps base m)
    (hf : ∀ a, Keeps base (f a)) : Keeps base (m >>= f) := by
  intro b hb
  have h1 := hm b hb
  rw [exec_bind]
  cases he : m.exec b with
  | mk r b1 =>
    rw [he] at h1
    cases r with
    | ok a => exact hf a b1 h1
    | error e => exact h1

theorem keeps_get_bind (f : MessageBuilder → EncodeM β)
    (hf : ∀ b, GrownFrom base b → GrownFrom base ((f b).exec b).2) :
    Keeps base ((get : EncodeM MessageBuilder) >>= f) := by
  intro b hb
  rw [exec_bind, exec_get]
  exact hf b hb

theorem keeps_pure (a : α) : Keeps base (pure a : EncodeM α) := fun _ hb => hb

theorem keeps_throw (e : EncodeError) : Keeps base (throw e : EncodeM α) := fun _ hb => hb

theorem keeps_ite (c : Prop) [Decidable c] (m n : EncodeM α) (hm : Keeps base m)
    (hn : Keeps base n) : Keeps base (if c then m else n) := by
  split
  · exact hm
  · exact hn

theorem take_overwrite (out out' bs : Bytes) (at_ n : Nat) (hn : n ≤ at_)
    (h : overwrite out at_ bs = some out') : out'.take n = out.take n := by
  have h1 := congrArg (List.take n) (overwrite_take out at_ bs out' h)
  rw [List.take_take, Nat.min_eq_left (by omega)] at h1
  rw [h1]
  unfold overwrite at h
  split at h
  · rw [List.take_append_of_le_length (by rw [List.length_take]; omega), List.take_take,
      Nat.min_eq_left hn]
  · cases h

theorem keeps_writeSlice (bs : Bytes) : Keeps base (writeSlice bs) := by
  refine keeps_get_bind base _ fun b hb => ?_
  cases ho : overwrite b.out b.cursor bs with
  | none => exact hb
  | some out =>
    refine ⟨(overwrite_length _ _ _ _ ho).trans hb.capacity, ?_, ?_, hb.used, hb.entries,
      hb.pushed⟩
    · have := hb.cursor
      simp only [exec_set]
      omega
    · exact (take_overwrite _ _ _ _ _ hb.cursor ho).trans hb.octets

theorem keeps_patch (at_ : Nat) (bs : Bytes) (hat : base.cursor ≤ at_) :
    Keeps base (patch at_ bs) := by
  refine keeps_get_bind base _ fun b hb => ?_
  cases ho : overwrite b.out at_ bs with
  | none => exact hb
  | some out =>
    exact ⟨(overwrite_length _ _ _ _ ho).trans hb.capacity, hb.cursor,
      (take_overwrite _ _ _ _ _ hat ho).trans hb.octets, hb.used, hb.entries, hb.pushed⟩

theorem keeps_writeBytes (bs : Bytes) : Keeps base (writeBytes bs) := by
  induction bs with
  | nil => exact keeps_pure base ()
  | cons x xs ih => exact keeps_bind base _ _ (keeps_writeSlice base [x]) fun _ => ih

theorem keeps_u16TryFrom (n : Nat) : Keeps base (u16TryFrom n) := by
  unfold u16TryFrom
  exact keeps_ite base _ _ _ (keeps_pure base _) (keeps_throw base _)

theorem GrownFrom.insert (b : MessageBuilder) (hash : UInt64) (off : UInt16)
    (h : GrownFrom base b) :
    GrownFrom base { b with compression := b.compression.insert hash off } := by
  refine ⟨h.capacity, h.cursor, h.octets, ?_, ?_, h.pushed⟩
  · have := h.used
    simp only [CompressionTable.insert]
    split
    · simp only
      omega
    · exact this
  · have hu := h.used
    have he := h.entries
    simp only [CompressionTable.insert]
    split
    · simp only
      rw [List.take_set_of_le hu]
      exact he
    · exact he

theorem keeps_writeLabels (n : Nat) (labels : List Label) :
    Keeps base (writeLabels n labels) := by
  induction n generalizing labels with
  | zero => exact keeps_pure base ()
  | succ n ih =>
    cases labels with
    | nil => exact keeps_pure base ()
    | cons label rest =>
      refine keeps_get_bind base _ fun b hb => ?_
      split
      · exact hb
      · rw [exec_bind]
        unfold u16TryFrom
        split
        · rename_i r a b1 heq
          have hb1 : b = b1 := by
            split at heq
            · cases heq
              rfl
            · cases heq
          subst hb1
          rw [exec_bind, exec_set]
          refine keeps_bind base _ _ (keeps_writeSlice base _) (fun _ => ?_) _
            (hb.insert base b _ _)
          exact keeps_bind base _ _ (keeps_writeBytes base _) fun _ => ih rest
        · rename_i r e b1 heq
          split at heq
          · cases heq
          · cases heq
            exact hb

theorem keeps_writeNameEnd (p : Option UInt16) : Keeps base (writeNameEnd p) := by
  cases p with
  | none => exact keeps_writeSlice base _
  | some off =>
    exact keeps_bind base _ _ (keeps_writeSlice base _) fun _ => keeps_writeSlice base _

theorem keeps_writeName (name : Name) : Keeps base (writeName name) := by
  unfold writeName
  refine keeps_ite base _ _ _ (keeps_writeSlice base _) ?_
  refine keeps_get_bind base _ fun b hb => ?_
  simp only
  split
  · exact hb
  · exact keeps_bind base _ _ (keeps_writeLabels base _ _)
      (fun _ => keeps_writeNameEnd base _) b hb

theorem keeps_writeSegments (segments : List Bytes) : Keeps base (writeSegments segments) := by
  induction segments with
  | nil => exact keeps_pure base ()
  | cons s rest ih =>
    unfold writeSegments
    refine keeps_ite base _ _ _ (fun b hb => hb) ?_
    refine keeps_bind base _ _ (keeps_writeSlice base _) fun _ => ?_
    exact keeps_bind base _ _ (keeps_writeBytes base _) fun _ => ih

theorem keeps_writeBitmap (bitmap : Bytes) (n i : Nat) :
    Keeps base (writeBitmap bitmap n i) := by
  induction n generalizing i with
  | zero => exact keeps_pure base ()
  | succ n ih => exact keeps_bind base _ _ (keeps_writeSlice base _) fun _ => ih (i + 1)

theorem keeps_writeNsecRdata (name : Name) (presentTypes : List UInt16) :
    Keeps base (writeNsecRdata name presentTypes) := by
  refine keeps_bind base _ _ (keeps_writeName base name) fun _ => ?_
  split
  · exact keeps_pure base ()
  · refine keeps_bind base _ _ (keeps_writeSlice base _) fun _ => ?_
    exact keeps_bind base _ _ (keeps_writeSlice base _) fun _ => keeps_writeBitmap base _ _ _

theorem keeps_writeRecordHead (e : RecordEntry) : Keeps base (writeRecordHead e) := by
  refine keeps_bind base _ _ (keeps_writeName base _) fun _ => ?_
  refine keeps_bind base _ _ (keeps_writeSlice base _) fun _ => ?_
  exact keeps_bind base _ _ (keeps_writeSlice base _) fun _ => keeps_writeSlice base _

theorem keeps_countRecord (e : RecordEntry) : Keeps base (countRecord e) := by
  intro b hb
  exact ⟨hb.capacity, hb.cursor, hb.octets, hb.used, hb.entries,
    hb.pushed.trans (List.prefix_append _ _)⟩

theorem keeps_pushPatched (e : RecordEntry) (rdata : EncodeM Unit) (hr : Keeps base rdata) :
    Keeps base (pushPatched e rdata) := by
  refine keeps_bind base _ _ (keeps_writeRecordHead base e) fun _ => ?_
  refine keeps_get_bind base _ fun b hb => ?_
  refine keeps_bind base _ _ (keeps_writeSlice base _) (fun _ => ?_) b hb
  refine keeps_get_bind base _ fun b2 hb2 => ?_
  refine keeps_bind base _ _ hr (fun _ => ?_) b2 hb2
  refine keeps_get_bind base _ fun b3 hb3 => ?_
  refine keeps_bind base _ _ (keeps_u16TryFrom base _) (fun _ => ?_) b3 hb3
  exact keeps_bind base _ _ (keeps_patch base _ _ hb.cursor) fun _ => keeps_countRecord base e

theorem keeps_pushNsecAdditional (name : Name) (ttl : UInt32) (types : List UInt16)
    (cacheFlush : Bool) : Keeps base (pushNsecAdditional name ttl types cacheFlush) :=
  keeps_pushPatched base _ _ (keeps_writeNsecRdata base name types)

end

theorem restore_emission (pool : List Label → Prop) (b b1 : MessageBuilder)
    (hf : b.cursor ≤ b.out.length) (h : GrownFrom b b1) :
    Emission pool b (b1.restore b.checkpoint) [] (fun _ => True) := by
  refine ⟨h.capacity, ?_, rfl, ?_, [], rfl, ?_, ?_⟩
  · simp only [restore, checkpoint, h.capacity]
    exact hf
  · obtain ⟨ext, hext⟩ := h.pushed
    simp only [restore, checkpoint, ← hext, List.take_left, List.append_nil]
  · rw [List.append_nil]
    exact h.octets
  · intro _ _ w _ hs
    have hd : (b1.restore b.checkpoint).compression.dict = b.compression.dict := by
      simp only [restore, checkpoint, CompressionTable.dict, CompressionTable.live, h.entries]
    rw [List.append_nil, hd]
    exact ⟨hs, fun _ => trivial⟩

end Hick.Wire
