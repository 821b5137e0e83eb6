import Mathlib
import Hick.Service.Timeout

/-!
# The names a rename tries (service/mod.rs:244-273, 4733-4788)

A candidate differs from the current name in its first label only: the stem, a hyphen and the
attempt in decimal.
-/

namespace Hick
open Octets LabelSeq

theorem digit_bounds (n : UInt32) (c : Char) (h : c ∈ Nat.toDigits 10 n.toNat) :
    48 ≤ c.toNat ∧ c.toNat ≤ 57 := by
  have hd := Nat.isDigit_of_mem_toDigits (by decide) (by decide) h
  simp only [Char.isDigit, Bool.and_eq_true, decide_eq_true_eq] at hd
  exact ⟨UInt32.le_iff_toNat_le.mp hd.1, UInt32.le_iff_toNat_le.mp hd.2⟩

theorem mem_decimal (n : UInt32) (b : Byte) (h : b ∈ decimal n) : 48 ≤ b.val ∧ b.val ≤ 57 := by
  obtain ⟨c, hc, rfl⟩ := List.mem_map.mp h
  obtain ⟨hlo, hhi⟩ := digit_bounds n c hc
  have hval : (Fin.ofNat 256 c.toNat).val = c.toNat := Nat.mod_eq_of_lt (by omega)
  omega

theorem decimal_digits (n : UInt32) : (decimal n).all isAsciiDigit = true := by
  rw [List.all_eq_true]
  intro b hb
  obtain ⟨hlo, hhi⟩ := mem_decimal n b hb
  simp only [isAsciiDigit, Bool.and_eq_true, decide_eq_true_eq, Fin.le_def]
  exact ⟨hlo, hhi⟩

theorem decimal_ne_nil (n : UInt32) : decimal n ≠ [] := by
  intro h
  exact Nat.toDigits_ne_nil (List.map_eq_nil_iff.mp h)

theorem decimal_injective (a b : UInt32) (h : decimal a = decimal b) : a = b := by
  have hback : ∀ n : UInt32, (decimal n).map (fun b => Char.ofNat b.val) =
      Nat.toDigits 10 n.toNat := by
    intro n
    rw [decimal, List.map_map]
    conv_rhs => rw [← List.map_id (Nat.toDigits 10 n.toNat)]
    apply List.map_congr_left
    intro c hc
    obtain ⟨hlo, hhi⟩ := digit_bounds n c hc
    have hval : (Fin.ofNat 256 c.toNat).val = c.toNat := Nat.mod_eq_of_lt (by omega)
    simp only [Function.comp_apply, hval, Char.ofNat_toNat, id_eq]
  have hdigits := congrArg (List.map fun b : Byte => Char.ofNat b.val) h
  rw [hback, hback] at hdigits
  have hnat := congrArg (fun ds => Nat.ofDigitChars 10 ds 0) hdigits
  rw [Nat.ofDigitChars_ten_toDigits, Nat.ofDigitChars_ten_toDigits] at hnat
  exact UInt32.toNat_inj.mp hnat

theorem rsplitHyphen_append (stem tail : Bytes) (h : hyphen ∉ tail) :
    rsplitHyphen (stem ++ hyphen :: tail) = some (stem, tail) := by
  have hspan : (stem ++ hyphen :: tail).reverse.span (· ≠ hyphen) =
      (tail.reverse, hyphen :: stem.reverse) := by
    rw [List.reverse_append, List.reverse_cons, List.append_assoc, List.span_eq_takeWhile_dropWhile]
    have hall : ∀ b ∈ tail.reverse, decide (b ≠ hyphen) = true := by
      intro b hb
      rw [decide_eq_true_eq]
      rintro rfl
      exact h (List.mem_reverse.mp hb)
    rw [List.takeWhile_append_of_pos hall, List.dropWhile_append_of_pos hall]
    simp
  rw [rsplitHyphen, hspan]
  simp

theorem rsplitHyphen_some (s stem tail : Bytes) (h : rsplitHyphen s = some (stem, tail)) :
    s = stem ++ hyphen :: tail := by
  unfold rsplitHyphen at h
  rw [List.span_eq_takeWhile_dropWhile] at h
  have hjoin := List.takeWhile_append_dropWhile (p := (· ≠ hyphen)) (l := s.reverse)
  cases hd : s.reverse.dropWhile (· ≠ hyphen) with
  | nil =>
    rw [hd] at h
    cases h
  | cons b head =>
    rw [hd] at h
    cases h
    have hb : b = hyphen := by
      have hne : s.reverse.dropWhile (· ≠ hyphen) ≠ [] := by
        rw [hd]
        exact List.cons_ne_nil _ _
      have hnot := List.head_dropWhile_not (· ≠ hyphen) hne
      simp only [hd, List.head_cons, decide_eq_false_iff_not, not_not] at hnot
      exact hnot
    rw [hd, hb] at hjoin
    have hrev := congrArg List.reverse hjoin
    rw [List.reverse_reverse, List.reverse_append, List.reverse_cons, List.append_assoc] at hrev
    exact hrev.symm

theorem hyphen_not_decimal (n : UInt32) : hyphen ∉ decimal n := by
  intro h
  obtain ⟨hlo, -⟩ := mem_decimal n hyphen h
  exact absurd hlo (by decide)

theorem renameStem_numbered (stem : Bytes) (n : UInt32) :
    renameStem (stem ++ hyphen :: decimal n) = stem := by
  rw [renameStem, rsplitHyphen_append _ _ (hyphen_not_decimal n)]
  exact if_pos ⟨decimal_ne_nil n, decimal_digits n⟩

theorem renameStem_prefix (label : Bytes) : ∃ tail, label = renameStem label ++ tail := by
  unfold renameStem
  split
  · rename_i stem n hs
    split
    · exact ⟨hyphen :: n, rsplitHyphen_some _ _ _ hs⟩
    · exact ⟨[], (List.append_nil _).symm⟩
  · exact ⟨[], (List.append_nil _).symm⟩

def numberedLabel (label : Label) (attempt : UInt32) : Label :=
  renameStem label ++ hyphen :: decimal attempt

theorem numberedLabel_injective (label : Label) (a b : UInt32)
    (h : numberedLabel label a = numberedLabel label b) : a = b :=
  decimal_injective a b (List.cons.inj (List.append_cancel_left h)).2

theorem numberedLabel_eq_iff (label : Label) (n : UInt32) :
    numberedLabel label n = label ↔ ∃ stem, label = stem ++ hyphen :: decimal n := by
  constructor
  · exact fun h => ⟨renameStem label, h.symm⟩
  · rintro ⟨stem, rfl⟩
    rw [numberedLabel, renameStem_numbered]

theorem decimal_plain (n : UInt32) : dot ∉ hyphen :: decimal n := by
  intro h
  rcases List.mem_cons.mp h with h | h
  · exact absurd h (by decide)
  · obtain ⟨hlo, -⟩ := mem_decimal n dot h
    exact absurd hlo (by decide)

theorem splitDot_plain (s : Bytes) (h : dot ∉ s) : splitDot s = [s] := by
  induction s with
  | nil => rfl
  | cons b s ih =>
    have hb : b ≠ dot := fun hb => h (hb ▸ List.mem_cons_self)
    have htail := ih fun hs => h (List.mem_cons_of_mem _ hs)
    simp only [splitDot] at htail ⊢
    rw [List.splitOn_cons_eq_if_modifyHead, if_neg (by simpa using hb), htail]
    rfl

theorem lower_decimal (n : UInt32) : lower (hyphen :: decimal n) = hyphen :: decimal n := by
  have hfix : ∀ b ∈ hyphen :: decimal n, toAsciiLowercase b = b := by
    intro b hb
    have hlt : b.val < 65 := by
      rcases List.mem_cons.mp hb with rfl | hb
      · decide
      · have := (mem_decimal n b hb).2
        omega
    refine if_neg fun hup => ?_
    have hle : 65 ≤ b.val := hup.1
    omega
  rw [lower, List.map_congr_left hfix, List.map_id']

theorem splitOnce_first (s first rest : Bytes) (h : splitOnce s = some (first, rest)) :
    s = first ++ dot :: rest ∧ dot ∉ first := by
  induction s generalizing first with
  | nil => cases h
  | cons b s ih =>
    rw [splitOnce] at h
    split at h
    · rename_i hb
      cases h
      rw [hb]
      exact ⟨rfl, List.not_mem_nil⟩
    · rename_i hb
      cases hs : splitOnce s with
      | none => simp [hs] at h
      | some p =>
        rw [hs] at h
        cases h
        obtain ⟨hj, hn⟩ := ih p.1 (by rw [hs])
        refine ⟨by rw [hj, List.cons_append], ?_⟩
        intro hm
        rcases List.mem_cons.mp hm with hm | hm
        · exact hb hm.symm
        · exact hn hm

theorem splitOnce_none_plain (s : Bytes) (h : splitOnce s = none) : dot ∉ s := by
  induction s with
  | nil => exact List.not_mem_nil
  | cons b s ih =>
    rw [splitOnce] at h
    split at h
    · cases h
    · rename_i hb
      rw [Option.map_eq_none_iff] at h
      intro hm
      rcases List.mem_cons.mp hm with hm | hm
      · exact hb hm.symm
      · exact ih h hm

theorem numberedLabel_plain (label : Label) (n : UInt32) (h : dot ∉ label) :
    dot ∉ numberedLabel label n := by
  obtain ⟨tail, htail⟩ := renameStem_prefix label
  intro hm
  rcases List.mem_append.mp hm with hm | hm
  · rw [htail] at h
    exact h (List.mem_append_left _ hm)
  · exact decimal_plain n hm

theorem numberedLabel_lower (label : Label) (n : UInt32) (h : lower label = label) :
    lower (numberedLabel label n) = numberedLabel label n := by
  obtain ⟨tail, htail⟩ := renameStem_prefix label
  have hstem : lower (renameStem label) = renameStem label := by
    rw [htail, lower_append] at h
    exact (List.append_inj h (lower_length _)).1
  rw [numberedLabel, lower_append, hstem, lower_decimal]

theorem trim_of_not_dot (s : Bytes) (h : s.getLast? ≠ some dot) : trim s = s := if_neg h

theorem getLast_plain (s : Bytes) (h : dot ∉ s) : s.getLast? ≠ some dot :=
  fun hl => h (List.mem_of_getLast? hl)

theorem candidate_trim (current : Bytes) (out : Bytes)
    (h : current.getLast? ≠ some dot → out.getLast? ≠ some dot) :
    trim (if current.getLast? = some dot then out ++ [dot] else out) = out := by
  by_cases hd : current.getLast? = some dot
  · rw [if_pos hd, trim_append _ _ (List.cons_ne_nil _ _)]
    exact List.append_nil out
  · rw [if_neg hd]
    exact trim_of_not_dot out (h hd)

def candidateBody (body : Bytes) (attempt : UInt32) : Bytes :=
  match splitOnce body with
  | some (i, r) => numberedLabel i attempt ++ dot :: r
  | none => numberedLabel body attempt

theorem renameWithSuffix_eq (current : Bytes) (attempt : UInt32) :
    renameWithSuffix current attempt =
      if current.getLast? = some dot then candidateBody (trim current) attempt ++ [dot]
      else candidateBody (trim current) attempt := by
  unfold renameWithSuffix candidateBody
  dsimp only
  cases splitOnce (trim current) with
  | none => rfl
  | some p => rfl

theorem candidateBody_last (current : Bytes) (attempt : UInt32)
    (h : current.getLast? ≠ some dot) :
    (candidateBody (trim current) attempt).getLast? ≠ some dot := by
  rw [trim_of_not_dot current h]
  unfold candidateBody
  cases hs : splitOnce current with
  | none =>
    exact getLast_plain _ (numberedLabel_plain _ _ (splitOnce_none_plain _ hs))
  | some p =>
    obtain ⟨i, r⟩ := p
    have hj := (splitOnce_first _ _ _ hs).1
    rw [hj, List.getLast?_append_of_ne_nil _ (List.cons_ne_nil _ _)] at h
    dsimp only
    rw [List.getLast?_append_of_ne_nil _ (List.cons_ne_nil _ _)]
    exact h

theorem candidateBody_lower (body : Bytes) (attempt : UInt32) (h : lower body = body) :
    lower (candidateBody body attempt) = candidateBody body attempt := by
  unfold candidateBody
  cases hs : splitOnce body with
  | none => exact numberedLabel_lower _ _ h
  | some p =>
    obtain ⟨i, r⟩ := p
    have hj := (splitOnce_first _ _ _ hs).1
    rw [hj, lower_append] at h
    obtain ⟨hi, hr⟩ := List.append_inj h (lower_length _)
    dsimp only
    rw [lower_append, numberedLabel_lower _ _ hi, hr]

theorem candidateBody_split (body : Bytes) (attempt : UInt32) :
    splitDot (candidateBody body attempt) =
      numberedLabel ((splitDot body).headD []) attempt :: (splitDot body).tail := by
  unfold candidateBody
  cases hs : splitOnce body with
  | none =>
    rw [splitOnce_none _ hs]
    exact splitDot_plain _ (numberedLabel_plain _ _ (splitOnce_none_plain _ hs))
  | some p =>
    obtain ⟨i, r⟩ := p
    have hplain := (splitOnce_first _ _ _ hs).2
    rw [(splitOnce_some _ _ _ hs).1]
    dsimp only
    rw [splitDot_append_dot, splitDot_plain _ (numberedLabel_plain _ _ hplain)]
    rfl

theorem candidate_labels (current name : Name) (attempt : UInt32)
    (h : Name.tryFromStr (renameWithSuffix current.text attempt) = .ok name) :
    name.labels =
      numberedLabel (current.labels.headD []) attempt :: current.labels.tail := by
  obtain ⟨-, htext⟩ := Name.tryFromStr_eq_ok _ _ h
  rw [renameWithSuffix_eq] at htext
  have htrim := candidate_trim current.text (candidateBody (trim current.text) attempt)
    (candidateBody_last current.text attempt)
  have hname : trim name.text = candidateBody (trim current.text) attempt := by
    rw [htext, trim_lower, htrim, candidateBody_lower _ _ current.trim_folded]
  have hsplit := candidateBody_split (trim current.text) attempt
  have hne : name.text ≠ [] := by
    rw [Ne, ← name.trim_eq_nil, hname]
    intro hnil
    rw [hnil] at hsplit
    have hhead := (List.cons.inj hsplit).1
    exact List.append_ne_nil_of_right_ne_nil _ (List.cons_ne_nil _ _) hhead.symm
  rw [Name.labels, if_neg hne, hname, hsplit]
  by_cases hroot : current.text = []
  · rw [current.trim_eq_nil.mpr hroot, current.labels_eq_nil.mpr hroot]
    rfl
  · rw [Name.labels, if_neg hroot]

theorem candidate_injective (current : Name) (m n : Name) (a b : UInt32)
    (ha : Name.tryFromStr (renameWithSuffix current.text a) = .ok m)
    (hb : Name.tryFromStr (renameWithSuffix current.text b) = .ok n)
    (h : m.sameOwner n = true) : a = b := by
  rw [Name.sameOwner_iff, candidate_labels _ _ _ ha, candidate_labels _ _ _ hb] at h
  exact numberedLabel_injective _ a b (List.cons.inj h).1

theorem candidate_is_current_iff (current name : Name) (attempt : UInt32)
    (h : Name.tryFromStr (renameWithSuffix current.text attempt) = .ok name) :
    name.sameOwner current = true ↔
      ∃ stem rest, current.labels = (stem ++ hyphen :: decimal attempt) :: rest := by
  rw [Name.sameOwner_iff, candidate_labels _ _ _ h]
  cases hl : current.labels with
  | nil => simp
  | cons l rest =>
    simp only [List.headD_cons, List.tail_cons, List.cons.injEq, and_true, exists_eq_right']
    exact numberedLabel_eq_iff l attempt

theorem chooseName_some (current : Name) (taken : NamesInUse) (tries : Nat)
    (attempt attempt' : UInt32) (name : Name)
    (h : chooseName current taken tries attempt = (some name, attempt')) :
    Name.tryFromStr (renameWithSuffix current.text attempt') = .ok name ∧
      taken.holds name = false := by
  induction tries generalizing attempt with
  | zero => cases h
  | succ tries ih =>
    unfold chooseName at h
    dsimp only at h
    split at h
    · cases h
    · rename_i found hfound
      split at h
      · exact ih _ h
      · rename_i hfree
        cases h
        exact ⟨hfound, Bool.eq_false_iff.mpr hfree⟩

theorem chooseName_tail (current : Name) (taken : NamesInUse) (tries : Nat)
    (attempt attempt' : UInt32) (name : Name)
    (h : chooseName current taken tries attempt = (some name, attempt')) :
    ∃ l, name.labels = l :: current.labels.tail :=
  ⟨_, candidate_labels current name attempt' (chooseName_some _ _ _ _ _ _ h).1⟩

theorem Registrable.renamed (records : ServiceRecords) (name : Name) (h : Registrable records)
    (hname : ∃ l, name.labels = l :: records.instanceName.labels.tail) :
    Registrable (records.setInstance name) where
  ttl := h.ttl
  serviceType := h.serviceType
  parent := by
    obtain ⟨l, hl⟩ := hname
    obtain ⟨first, hfirst⟩ := (records.serviceType.isParentOf_iff _).mp h.parent
    refine (records.serviceType.isParentOf_iff _).mpr ⟨l, ?_⟩
    change name.labels = l :: records.serviceType.labels
    rw [hl, hfirst, List.tail_cons]

end Hick
