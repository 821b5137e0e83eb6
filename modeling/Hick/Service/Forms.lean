import Mathlib
import Hick.Matching
import Hick.Service.RespondSpec

/-!
# The two encoders agree (service/respond.rs, service/proposal.rs)

The responder writes names, TXT rdata and NSEC bitmaps twice: into messages, through the builder,
and into the rdata forms that peers' records are compared with.
-/

namespace Hick
open Octets LabelSeq Wire Respond

theorem writeCanonicalWireName_labels (labels : List Label) (hp : ∀ l ∈ labels, Plain l)
    (hf : ∀ l ∈ labels, lower l = l) :
    labels.flatMap (fun label =>
      if label = [] then [] else Fin.ofNat 256 (min label.length 63) :: lower (label.take 63)) =
      labels.flatMap prefixed := by
  refine List.flatMap_congr fun l hl => ?_
  have hlen := hp l hl
  have hne : l ≠ [] := List.length_pos_iff.mp hlen.1
  rw [if_neg hne, Nat.min_eq_left hlen.2, List.take_of_length_le hlen.2, hf l hl, prefixed]

theorem writeCanonicalWireName_eq (n : Name) :
    writeCanonicalWireName n.text = wireOctets n.labels := by
  unfold writeCanonicalWireName
  by_cases hroot : n.text = []
  · rw [n.labels_eq_nil.mpr hroot, if_pos (n.trim_eq_nil.mpr hroot)]
    rfl
  · have hlab : splitDot (trim n.text) = n.labels := (if_neg hroot).symm
    rw [if_neg (fun h => hroot (n.trim_eq_nil.mp h)), hlab, wireOctets,
      writeCanonicalWireName_labels n.labels n.labels_plain n.labels_folded]

theorem writeCanonicalTxt_eq (segments : List Bytes) (h : ∀ s ∈ segments, s.length ≤ 255) :
    writeCanonicalTxt segments = txtOctets segments := by
  have hkept : segments.filter (fun seg => decide (seg.length ≤ 255)) = segments :=
    List.filter_eq_self.mpr fun s hs => decide_eq_true (h s hs)
  exact congrArg txtOctets hkept

theorem markType_eq : markType = MessageBuilder.setTypeBit := by
  funext st t
  unfold markType MessageBuilder.setTypeBit
  split
  · rfl
  · have hidx : (t >>> 3).toNat = t.toNat / 8 := by
      rw [UInt16.toNat_shiftRight]
      exact Nat.shiftRight_eq_div_pow t.toNat 3
    have hbit : (t &&& 0x07).toNat = t.toNat % 8 := by
      rw [UInt16.toNat_and]
      exact Nat.and_two_pow_sub_one_eq_mod t.toNat 3
    simp only [hidx, hbit]
    cases st.1[t.toNat / 8]? with
    | none => rfl
    | some slot => cases st.2 <;> rfl

theorem writeNsecTypeBitmap_eq (types : List UInt16) :
    writeNsecTypeBitmap types = bitmapOctets types := by
  have hbits : types.foldl markType (List.replicate 32 0, none) = MessageBuilder.typeBits types :=
    congrArg (fun mark => types.foldl mark (List.replicate 32 0, none)) markType_eq
  unfold writeNsecTypeBitmap bitmapOctets
  generalize types.foldl markType (List.replicate 32 0, none) = bits at hbits ⊢
  subst hbits
  rfl

theorem nsecIdentity_eq (records : ServiceRecords) (types : List UInt16) :
    nsecIdentity records types =
      wireOctets records.instanceName.labels ++ bitmapOctets types := by
  rw [nsecIdentity, writeCanonicalWireName_eq, writeNsecTypeBitmap_eq]

theorem srvRdata_eq (records : ServiceRecords) : srvRdata records =
    be16 records.priority ++ be16 records.weight ++ be16 records.port ++
      wireOctets records.host.labels := by
  rw [srvRdata, writeCanonicalWireName_eq]

theorem emittedNsecIdentity_mem (records : ServiceRecords) :
    emittedNsecIdentity records ∈ ourNsecIdentities records := by
  unfold ourNsecIdentities emittedNsecIdentity emittedNsecTypes
  simp only
  split
  · rename_i h
    rwa [List.contains_iff_mem] at h
  · simp

theorem transmitted_subset_canonical (records : ServiceRecords) (rtype : ResourceType)
    (form : Bytes) (h : form ∈ transmittedRdataForms records rtype) :
    form ∈ canonicalRdataForms records rtype := by
  cases rtype with
  | srv => exact h
  | txt => exact h
  | nsec =>
    rw [List.mem_singleton.mp h]
    exact emittedNsecIdentity_mem records
  | _ => cases h

end Hick
