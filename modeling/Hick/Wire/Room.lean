import Hick.Wire.BuilderSpec
import Hick.Service.Respond

/-!
# How much room a question takes (wire/builder.rs:152-177, 612-737)

An operation of the builder fails only for want of room. A name is valid, so it takes at most 256
octets and a question 260.
-/

namespace Hick.Wire
open Octets LabelSeq MessageBuilder

/-- Where `n` octets are left, the operation completes, and writes no more than these. -/
def Needs (m : EncodeM Unit) (n : Nat) : Prop :=
  ∀ b : MessageBuilder, b.cursor + n ≤ b.out.length → b.cursor + n ≤ 65535 →
    ∃ b', m.exec b = (.ok (), b') ∧ b'.out.length = b.out.length ∧ b'.cursor ≤ b.cursor + n

theorem Needs.mono (m : EncodeM Unit) (n n' : Nat) (h : Needs m n) (hle : n ≤ n') :
    Needs m n' := by
  intro b hroom hword
  obtain ⟨b', hrun, hcapacity, hcursor⟩ := h b (by omega) (by omega)
  exact ⟨b', hrun, hcapacity, by omega⟩

theorem Needs.bind (p : EncodeM Unit) (q : Unit → EncodeM Unit) (m n : Nat) (hp : Needs p m)
    (hq : Needs (q ()) n) : Needs (p >>= q) (m + n) := by
  intro b hroom hword
  obtain ⟨b₁, hrun, hcapacity, hcursor⟩ := hp b (by omega) (by omega)
  obtain ⟨b₂, hrun', hcapacity', hcursor'⟩ := hq b₁ (by omega) (by omega)
  use b₂
  constructor
  · rw [EncodeM.exec_bind, hrun]
    exact hrun'
  · omega

theorem needs_pure : Needs (pure ()) 0 := by
  intro b _ _
  exact ⟨b, rfl, rfl, Nat.le_refl _⟩

theorem needs_modify (f : MessageBuilder → MessageBuilder)
    (h : ∀ b, (f b).out = b.out ∧ (f b).cursor = b.cursor) : Needs (modify f) 0 := by
  intro b _ _
  use f b
  constructor
  · rfl
  · rw [(h b).1, (h b).2]
    omega

theorem writeSlice_needs (bs : Bytes) : Needs (writeSlice bs) bs.length := by
  intro b hroom _
  have hover : overwrite b.out b.cursor bs =
      some (b.out.take b.cursor ++ bs ++ b.out.drop (b.cursor + bs.length)) := by
    rw [overwrite, if_pos hroom]
  have hrun : (writeSlice bs).exec b =
      (.ok (), { b with
        out := b.out.take b.cursor ++ bs ++ b.out.drop (b.cursor + bs.length)
        cursor := b.cursor + bs.length }) := by
    unfold writeSlice
    rw [EncodeM.exec_bind, EncodeM.exec_get]
    simp only [hover]
    rfl
  exact ⟨_, hrun, overwrite_length _ _ _ _ hover, Nat.le_refl _⟩

theorem writeByte_needs (x : Byte) : Needs (writeByte x) 1 := writeSlice_needs [x]

theorem writeU16_needs (v : UInt16) : Needs (writeU16 v) 2 := writeSlice_needs (be16 v)

theorem writeBytes_needs (bs : Bytes) : Needs (writeBytes bs) bs.length := by
  induction bs with
  | nil => exact needs_pure
  | cons x xs ih =>
    have hbind := (writeByte_needs x).bind _ (fun _ => writeBytes xs) _ _ ih
    apply hbind.mono
    rw [List.length_cons]
    omega

def labelRoom (n : Nat) (labels : List Label) : Nat :=
  ((labels.take n).map fun label => label.length + 1).sum

theorem labelRoom_wireLen (labels : List Label) (n : Nat) :
    labelRoom n labels + 1 ≤ wireLen labels := by
  induction labels generalizing n with
  | nil => simp [labelRoom, wireLen]
  | cons label rest ih =>
    cases n with
    | zero => simp [labelRoom, wireLen]
    | succ n =>
      have hrest := ih n
      simp only [labelRoom, wireLen, List.take_succ_cons, List.map_cons, List.sum_cons] at hrest ⊢
      omega

theorem writeLabels_needs (n : Nat) (labels : List Label) (hplain : ∀ l ∈ labels, Plain l) :
    Needs (writeLabels n labels) (labelRoom n labels) := by
  induction labels generalizing n with
  | nil =>
    cases n with
    | zero => exact needs_pure
    | succ n => exact needs_pure
  | cons label rest ih =>
    cases n with
    | zero => exact needs_pure
    | succ n =>
      intro b hroom hword
      obtain ⟨hlabel, hrest⟩ := List.forall_mem_cons.mp hplain
      have hshort : ¬label.length > maxLabelBytes := by
        have := hlabel.2
        simp only [maxLabelBytes]
        omega
      have hlen : labelRoom (n + 1) (label :: rest) =
          1 + (label.length + labelRoom n rest) := by
        simp only [labelRoom, List.take_succ_cons, List.map_cons, List.sum_cons]
        omega
      have hoffset : (u16TryFrom b.cursor).exec b = (.ok (UInt16.ofNat b.cursor), b) := by
        rw [u16TryFrom, if_pos (by omega)]
        rfl
      have hbytes : Needs (writeBytes (lower label)) label.length := by
        have h := writeBytes_needs (lower label)
        rw [lower_length] at h
        exact h
      -- the rest of the operation runs with the suffix recorded
      have htail := (writeByte_needs (Fin.ofNat 256 label.length)).bind _
        (fun _ => writeBytes (lower label) >>= fun _ => writeLabels n rest) _ _
        (hbytes.bind _ (fun _ => writeLabels n rest) _ _ (ih n hrest))
      rw [hlen] at hroom hword ⊢
      obtain ⟨b', hrun, hcapacity, hcursor⟩ := htail
        { b with
          compression :=
            b.compression.insert (hashSuffix (label :: rest)) (UInt16.ofNat b.cursor) } hroom hword
      refine ⟨b', ?_, hcapacity, hcursor⟩
      unfold writeLabels
      rw [EncodeM.exec_bind, EncodeM.exec_get]
      simp only [if_neg hshort]
      rw [EncodeM.exec_bind, hoffset]
      simp only
      rw [EncodeM.exec_bind, EncodeM.exec_set]
      exact hrun

theorem writeNameEnd_needs (p : Option UInt16) : Needs (writeNameEnd p) 2 := by
  cases p with
  | none => exact (writeByte_needs 0).mono _ _ _ (by omega)
  | some off => exact (writeByte_needs _).bind _ (fun _ => writeByte _) _ _ (writeByte_needs _)

theorem writeName_needs (name : Name) : Needs (writeName name) 256 := by
  unfold writeName
  split
  · exact (writeByte_needs 0).mono _ _ _ (by omega)
  · rename_i hne
    have hlabels : splitDot (trim name.text) = name.labels := by
      rw [Name.labels, if_neg hne]
    have hwire := name.labels_wireLen
    have hplain := name.labels_plain
    rw [hlabels]
    intro b hroom hword
    have hcount : ¬name.labels.length > 128 := by
      have htwice : 2 * name.labels.length + 1 ≤ wireLen name.labels := by
        clear hroom hword hwire hlabels
        generalize name.labels = labels at hplain ⊢
        induction labels with
        | nil => simp [wireLen]
        | cons label rest ih =>
          obtain ⟨hlabel, hrest⟩ := List.forall_mem_cons.mp hplain
          have h := ih hrest
          have hpos := hlabel.1
          simp only [wireLen, List.map_cons, List.sum_cons, List.length_cons] at h ⊢
          omega
      omega
    have hroom' := labelRoom_wireLen name.labels (splitKnown b.compression name.labels).1
    have hall := (writeLabels_needs (splitKnown b.compression name.labels).1 name.labels hplain).bind
      _ (fun _ => writeNameEnd (splitKnown b.compression name.labels).2) _ _
      (writeNameEnd_needs _)
    obtain ⟨b', hrun, hcapacity, hcursor⟩ := hall.mono _ _ 256 (by omega) b hroom hword
    refine ⟨b', ?_, hcapacity, hcursor⟩
    rw [EncodeM.exec_bind, EncodeM.exec_get]
    simp only [if_neg hcount]
    exact hrun

theorem pushQuestion_needs (name : Name) (qtype : ResourceType) (qclass : ResourceClass)
    (unicastResponse : Bool) : Needs (pushQuestion name qtype qclass unicastResponse) 260 := by
  have hcount := needs_modify (fun b =>
    { b with
      header := b.header.countQuestion
      pushed := b.pushed ++ [.question ⟨name, qtype, qclass, unicastResponse⟩] })
    fun b => ⟨rfl, rfl⟩
  unfold pushQuestion
  have hclass := Needs.bind _ (fun _ => modify fun b =>
    { b with
      header := b.header.countQuestion
      pushed := b.pushed ++ [.question ⟨name, qtype, qclass, unicastResponse⟩] }) 2 0
    (writeU16_needs (qclass.toU16 ||| if unicastResponse then unicastResponseBit else 0)) hcount
  have htype := Needs.bind _ (fun _ => _) 2 2 (writeU16_needs qtype.toU16) hclass
  exact Needs.bind _ (fun _ => _) 256 4 (writeName_needs name) htype

end Hick.Wire
