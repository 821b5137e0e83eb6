import Mathlib
import Hick.Lib.Octets

/-!
# Text in UTF-8

The octets of one character are a single octet below 128 or octets of at least 128 only.
-/

namespace Utf8
open Octets

section
variable {χ β : Type} (enc : χ → List β)

theorem split_at_separator (sep : β) (hsep : ∀ c, sep ∈ enc c → enc c = [sep]) (m : List χ)
    (a b : List β) (h : a ++ sep :: b = m.flatMap enc) :
    ∃ m1 m2 : List χ, a = m1.flatMap enc ∧ b = m2.flatMap enc := by
  induction m generalizing a with
  | nil => simp at h
  | cons c m ih =>
    rw [List.flatMap_cons] at h
    rcases List.append_eq_append_iff.mp h with ⟨t, hc, hrest⟩ | ⟨t, ha, hrest⟩
    · cases t with
      | nil =>
        rw [List.append_nil] at hc
        obtain ⟨m1, m2, h1, h2⟩ := ih [] (by rw [hrest, List.nil_append, List.nil_append])
        refine ⟨[c], m2, ?_, h2⟩
        rw [List.flatMap_cons, List.flatMap_nil, List.append_nil, hc]
      | cons x t =>
        rw [List.cons_append, List.cons.injEq] at hrest
        obtain ⟨rfl, hb⟩ := hrest
        have hone := hsep c (by rw [hc]; simp)
        rw [hone] at hc
        have ha : a = [] ∧ t = [] := by
          have := congrArg List.length hc
          simp only [List.length_append, List.length_cons, List.length_nil] at this
          exact ⟨List.eq_nil_of_length_eq_zero (by omega),
            List.eq_nil_of_length_eq_zero (by omega)⟩
        rw [ha.2, List.nil_append] at hb
        exact ⟨[], m, ha.1, hb⟩
    · obtain ⟨m1, m2, h1, h2⟩ := ih t hrest.symm
      refine ⟨c :: m1, m2, ?_, h2⟩
      rw [List.flatMap_cons, ha, h1]

theorem of_image (g : β → β) (hg : ∀ c t, t.map g = enc c → ∃ c', t = enc c') (m : List χ)
    (s : List β) (h : s.map g = m.flatMap enc) : ∃ m' : List χ, s = m'.flatMap enc := by
  induction m generalizing s with
  | nil =>
    rw [List.flatMap_nil, List.map_eq_nil_iff] at h
    exact ⟨[], h⟩
  | cons c m ih =>
    rw [List.flatMap_cons] at h
    obtain ⟨s1, s2, hs, h1, h2⟩ := List.map_eq_append_iff.mp h
    obtain ⟨c', hc'⟩ := hg c s1 h1
    obtain ⟨m', hm'⟩ := ih s2 h2
    exact ⟨c' :: m', by rw [hs, hc', hm', List.flatMap_cons]⟩

end

theorem char_octets (c : Char) :
    (∃ b : UInt8, String.utf8EncodeChar c = [b] ∧ b.toNat < 128) ∨
      ∀ b ∈ String.utf8EncodeChar c, 128 ≤ b.toNat := by
  unfold String.utf8EncodeChar
  dsimp only
  split
  · rename_i h
    refine .inl ⟨_, rfl, ?_⟩
    rw [UInt8.toNat_ofNat']
    omega
  · right
    split
    · simp only [List.mem_cons, List.not_mem_nil, or_false]
      rintro b (rfl | rfl) <;> rw [UInt8.toNat_ofNat'] <;> omega
    · split
      · simp only [List.mem_cons, List.not_mem_nil, or_false]
        rintro b (rfl | rfl | rfl) <;> rw [UInt8.toNat_ofNat'] <;> omega
      · simp only [List.mem_cons, List.not_mem_nil, or_false]
        rintro b (rfl | rfl | rfl | rfl) <;> rw [UInt8.toNat_ofNat'] <;> omega

theorem char_of_low (b : UInt8) (h : b.toNat < 128) :
    ∃ c : Char, String.utf8EncodeChar c = [b] := by
  have hv : (UInt32.ofNat b.toNat).toNat = b.toNat := by
    rw [UInt32.toNat_ofNat']
    omega
  refine ⟨⟨UInt32.ofNat b.toNat, .inl (by rw [hv]; omega)⟩, ?_⟩
  unfold String.utf8EncodeChar
  dsimp only
  rw [if_pos (by rw [hv]; omega), hv, UInt8.ofNat_toNat]

def octet (b : Byte) : UInt8 := UInt8.ofNat b.val

theorem octet_toNat (b : Byte) : (octet b).toNat = b.val := by
  have := b.isLt
  simp only [octet, UInt8.toNat_ofNat']
  omega

def isText (s : Bytes) : Bool := (ByteArray.mk (s.map octet).toArray).validateUTF8

theorem isText_iff (s : Bytes) :
    isText s = true ↔ ∃ m : List Char, s.map octet = m.flatMap String.utf8EncodeChar := by
  unfold isText
  rw [ByteArray.validateUTF8_eq_true_iff]
  constructor
  · rintro ⟨m, hm⟩
    refine ⟨m, ?_⟩
    have hd := congrArg (fun b : ByteArray => b.data.toList) hm
    simpa [List.utf8Encode] using hd
  · rintro ⟨m, hm⟩
    refine ⟨m, ?_⟩
    apply ByteArray.ext
    simp [List.utf8Encode, hm]

theorem isText_split (a b : Bytes) (sep : Byte) (hsep : sep.val < 128)
    (h : isText (a ++ sep :: b) = true) : isText a = true ∧ isText b = true := by
  obtain ⟨m, hm⟩ := (isText_iff _).mp h
  rw [List.map_append, List.map_cons] at hm
  have halone : ∀ c : Char, octet sep ∈ String.utf8EncodeChar c →
      String.utf8EncodeChar c = [octet sep] := by
    intro c hc
    rcases char_octets c with ⟨x, hx, _⟩ | hhigh
    · rw [hx] at hc ⊢
      rw [List.mem_singleton.mp hc]
    · have hge := hhigh _ hc
      rw [octet_toNat] at hge
      omega
  obtain ⟨m1, m2, h1, h2⟩ := split_at_separator _ (octet sep) halone m _ _ hm
  exact ⟨(isText_iff a).mpr ⟨m1, h1⟩, (isText_iff b).mpr ⟨m2, h2⟩⟩

theorem isText_of_map (f : Byte → Byte) (hlow : ∀ b : Byte, b.val < 128 ↔ (f b).val < 128)
    (hhigh : ∀ b : Byte, 128 ≤ b.val → f b = b) (s : Bytes) (h : isText (s.map f) = true) :
    isText s = true := by
  obtain ⟨m, hm⟩ := (isText_iff _).mp h
  let g : UInt8 → UInt8 := fun u => octet (f ⟨u.toNat, u.toNat_lt⟩)
  have hback : ∀ b : Byte, g (octet b) = octet (f b) := by
    intro b
    have hb : (⟨(octet b).toNat, (octet b).toNat_lt⟩ : Byte) = b := Fin.ext (octet_toNat b)
    simp only [g, hb]
  have hg : ∀ (c : Char) (t : List UInt8), t.map g = String.utf8EncodeChar c →
      ∃ c', t = String.utf8EncodeChar c' := by
    intro c t ht
    rcases char_octets c with ⟨x, hx, hlt⟩ | hge
    · rw [hx] at ht
      obtain ⟨y, rfl, hy⟩ := List.map_eq_singleton_iff.mp ht
      have hylow : y.toNat < 128 := by
        rw [← hy, octet_toNat] at hlt
        exact (hlow ⟨y.toNat, y.toNat_lt⟩).mpr hlt
      obtain ⟨c', hc'⟩ := char_of_low y hylow
      exact ⟨c', hc'.symm⟩
    · refine ⟨c, ?_⟩
      rw [← ht]
      conv_lhs => rw [← List.map_id t]
      refine List.map_congr_left fun y hy => ?_
      have hgy : g y ∈ String.utf8EncodeChar c := by
        rw [← ht]
        exact List.mem_map_of_mem hy
      have hfy := hge _ hgy
      simp only [g, octet_toNat] at hfy
      have hhi : 128 ≤ (⟨y.toNat, y.toNat_lt⟩ : Byte).val := by
        by_contra hlt
        have := (hlow ⟨y.toNat, y.toNat_lt⟩).mp (by omega)
        omega
      have hsame : g y = y := by
        apply UInt8.toNat_inj.mp
        simp only [g]
        rw [octet_toNat, hhigh _ hhi]
      rw [hsame, id]
  obtain ⟨m', hm'⟩ := of_image _ g hg m (s.map octet) (by
    rw [← hm, List.map_map, List.map_map]
    exact List.map_congr_left fun b _ => hback b)
  exact (isText_iff s).mpr ⟨m', hm'⟩

end Utf8
