import Mathlib
import Hick.Lib.Utf8
import Hick.Wire.NameLabels
import Hick.Cache.Observe

/-!
# One notion of a name (name.rs:189-336, endpoint/matching.rs:22-45)

A name on the wire is compared with a stored one label by label, or made into a `Name` and compared
as one.
-/

namespace Hick
open Octets LabelSeq Wire

def Joinable (l : Bytes) : Prop := dot ∉ l ∧ Utf8.isText l = true

instance (l : Bytes) : Decidable (Joinable l) := inferInstanceAs (Decidable (_ ∧ _))

def joined (ls : List Bytes) : Bytes := ls.flatMap fun l => lower l ++ [dot]

theorem joined_cons (l : Bytes) (ls : List Bytes) :
    joined (l :: ls) = lower l ++ [dot] ++ joined ls := by
  simp only [joined, List.flatMap_cons]

variable (ls : List Bytes)

theorem joined_length : (joined ls).length + 1 = LabelSeq.wireLen ls := by
  induction ls with
  | nil => rfl
  | cons l ls ih =>
    rw [joined_cons, wireLen_cons, ← ih]
    simp only [List.length_append, lower_length, List.length_cons, List.length_nil]
    omega

theorem joinWireLabels_labels (hp : ∀ l ∈ ls, Plain l) (buf : Bytes)
    (wireLen : Nat) (hw : wireLen + LabelSeq.wireLen ls ≤ 256) :
    joinWireLabels (ls.map .ok) buf wireLen =
      if ∀ l ∈ ls, Joinable l then some (buf ++ joined ls) else none := by
  induction ls generalizing buf wireLen with
  | nil => simp [joinWireLabels, joined]
  | cons l ls ih =>
    obtain ⟨hpl, hprest⟩ := List.forall_mem_cons.mp hp
    rw [wireLen_cons] at hw
    have hpos : 1 ≤ LabelSeq.wireLen ls := by
      simp only [LabelSeq.wireLen]
      omega
    have hshort := hpl.2
    rw [List.map_cons, joinWireLabels, if_neg (by simp only [maxLabelBytes]; omega),
      if_neg (by simp only [maxNameBytes]; omega)]
    by_cases hdot : dot ∈ l
    · rw [if_pos (by simpa using hdot), if_neg]
      intro hall
      exact (List.forall_mem_cons.mp hall).1.1 hdot
    · rw [if_neg (by simpa using hdot)]
      change (if !Utf8.isText l then _ else _) = _
      cases htext : Utf8.isText l with
      | false =>
        rw [if_pos (by rfl), if_neg]
        intro hall
        have := (List.forall_mem_cons.mp hall).1.2
        rw [htext] at this
        cases this
      | true =>
        rw [if_neg (by simp), ih hprest _ _ (by omega), joined_cons]
        have hiff : (∀ x ∈ l :: ls, Joinable x) ↔ ∀ x ∈ ls, Joinable x :=
          List.forall_mem_cons.trans (and_iff_right ⟨hdot, htext⟩)
        simp only [hiff, List.append_assoc]

theorem trim_append_dot (s : Bytes) : trim (s ++ [dot]) = s := by
  unfold trim
  rw [List.getLast?_concat, if_pos rfl, List.dropLast_concat]

theorem trim_cases (s : Bytes) : s = trim s ∨ s = trim s ++ [dot] := by
  unfold trim
  split
  · rename_i h
    exact .inr (List.dropLast_append_getLast? dot h).symm
  · exact .inl rfl

theorem dot_mem_lower (l : Bytes) : dot ∈ lower l ↔ dot ∈ l := by
  simp only [lower, List.mem_map]
  constructor
  · rintro ⟨b, hb, he⟩
    rw [(toAsciiLowercase_eq_dot b).mp he] at hb
    exact hb
  · intro h
    exact ⟨dot, h, (toAsciiLowercase_eq_dot dot).mpr rfl⟩

theorem splitDot_joined (h : ∀ l ∈ ls, dot ∉ l) :
    splitDot (joined ls) = ls.map lower ++ [[]] := by
  induction ls with
  | nil => exact List.splitOn_nil dot
  | cons l ls ih =>
    obtain ⟨hl, hrest⟩ := List.forall_mem_cons.mp h
    have hno : dot ∉ lower l := fun hm => hl ((dot_mem_lower l).mp hm)
    rw [joined_cons, List.append_assoc, List.singleton_append]
    unfold splitDot
    rw [List.splitOn_append_cons_self_of_not_mem hno, List.map_cons, List.cons_append]
    exact congrArg _ (ih hrest)

theorem splitDot_trim_joined (hne : ls ≠ []) (h : ∀ l ∈ ls, dot ∉ l) :
    splitDot (trim (joined ls)) = ls.map lower := by
  have hsplit := splitDot_joined ls h
  obtain ⟨rest, l, rfl⟩ := (List.eq_nil_or_concat ls).resolve_left hne
  have hj : joined (rest ++ [l]) = joined rest ++ lower l ++ [dot] := by
    simp only [joined, List.flatMap_append, List.flatMap_cons, List.flatMap_nil, List.append_nil,
      List.append_assoc]
  rw [List.concat_eq_append] at *
  rw [hj, splitDot_append_dot, show splitDot [] = [[]] from List.splitOn_nil dot] at hsplit
  rw [hj, trim_append_dot]
  exact List.append_cancel_right hsplit

theorem lower_joined : lower (joined ls) = joined ls := by
  have hd : lower [dot] = [dot] := by decide
  induction ls with
  | nil => rfl
  | cons l ls ih =>
    rw [joined_cons]
    simp only [lower, List.map_append] at ih hd ⊢
    rw [ih, hd]
    congr 2
    exact lower_idem l

theorem plain_lower (l : Bytes) (h : Plain l) : Plain (lower l) := by
  unfold Plain at h ⊢
  rw [lower_length]
  exact h

theorem wireLen_lower :
    LabelSeq.wireLen (ls.map lower) = LabelSeq.wireLen ls := by
  simp only [LabelSeq.wireLen, List.map_map, Function.comp_def, lower_length]

theorem Name.of_joined (hp : ∀ l ∈ ls, Plain l)
    (hw : LabelSeq.wireLen ls ≤ 255) (hdot : ∀ l ∈ ls, dot ∉ l) :
    ∃ n : Name, Name.tryFromStr (joined ls) = .ok n ∧ n.labels = ls.map lower := by
  have hlen := joined_length ls
  have hvalid : validateName (joined ls) = .ok () := by
    refine (validateName_iff _).mpr ⟨by omega, ?_⟩
    by_cases hne : ls = []
    · exact .inl (by rw [hne]; rfl)
    · rw [splitDot_trim_joined ls hne hdot, wireLen_lower]
      refine .inr ⟨?_, hw⟩
      rintro _ hl
      obtain ⟨l, hmem, rfl⟩ := List.mem_map.mp hl
      exact plain_lower l (hp l hmem)
  obtain ⟨n, hn, ht⟩ := Name.tryFromStr_ok _ hvalid
  rw [lower_joined] at ht
  refine ⟨n, hn, ?_⟩
  unfold Name.labels
  rw [ht]
  by_cases hne : ls = []
  · rw [hne]
    rfl
  · rw [if_neg, splitDot_trim_joined ls hne hdot]
    intro hnil
    have hpos := twice_length_le_wireLen ls hp
    have := List.length_pos_iff.mpr hne
    rw [hnil, List.length_nil] at hlen
    omega

theorem Name.fromWireLabels_iff (hp : ∀ l ∈ ls, Plain l)
    (hw : LabelSeq.wireLen ls ≤ 255) (P : Name → Prop) :
    (∃ n, Name.fromWireLabels (ls.map .ok) = some n ∧ P n) ↔
      (∀ l ∈ ls, Joinable l) ∧
        ∃ n, Name.tryFromStr (joined ls) = .ok n ∧ n.labels = ls.map lower ∧ P n := by
  unfold Name.fromWireLabels
  rw [joinWireLabels_labels ls hp [] 1 (by omega)]
  by_cases hj : ∀ l ∈ ls, Joinable l
  · obtain ⟨n, hn, hl⟩ := Name.of_joined ls hp hw fun l h => (hj l h).1
    rw [if_pos hj]
    simp only [List.nil_append, Option.bind_some, hn, Except.toOption, Option.some.injEq,
      exists_eq_left', Except.ok.injEq, hl, true_and]
    exact (and_iff_right hj).symm
  · simp [hj]

theorem splitDot_joinable (s : Bytes) (h : Utf8.isText s = true) :
    ∀ l ∈ splitDot s, Joinable l := by
  induction hn : s.length using Nat.strong_induction_on generalizing s with
  | _ n ih =>
    by_cases hd : dot ∈ s
    · obtain ⟨a, b, rfl, hno⟩ := List.eq_append_cons_of_mem hd
      obtain ⟨ha, hb⟩ := Utf8.isText_split a b dot (by decide) h
      unfold splitDot
      rw [List.splitOn_append_cons_self_of_not_mem hno]
      rw [List.length_append, List.length_cons] at hn
      exact List.forall_mem_cons.mpr ⟨⟨hno, ha⟩, ih b.length (by omega) b hb rfl⟩
    · unfold splitDot
      rw [List.splitOn_eq_singleton hd]
      rintro l hl
      rw [List.mem_singleton.mp hl]
      exact ⟨hd, h⟩

theorem isText_trim (s : Bytes) (h : Utf8.isText s = true) : Utf8.isText (trim s) = true := by
  rcases trim_cases s with hs | hs
  · rw [← hs]
    exact h
  · rw [hs] at h
    exact (Utf8.isText_split (trim s) [] dot (by decide) h).1

theorem Name.labels_joinable (n : Name) (h : Utf8.isText n.text = true) :
    ∀ l ∈ n.labels, Joinable l := by
  unfold Name.labels
  split
  · simp
  · exact splitDot_joinable _ (isText_trim _ h)

theorem joinable_of_lower (l : Bytes) (h : Joinable (lower l)) : Joinable l := by
  obtain ⟨hdot, htext⟩ := h
  refine ⟨fun hm => hdot ((dot_mem_lower l).mpr hm), ?_⟩
  refine Utf8.isText_of_map toAsciiLowercase ?_ ?_ l htext
  · decide +kernel
  · decide +kernel

def EqualUpToDot (s t : Bytes) : Prop := s = t ∨ s = t ++ [dot] ∨ t = s ++ [dot]

theorem Name.trim_trim (n : Name) (t : Bytes) (h : n.text = t ++ [dot]) : trim t = t := by
  have hne : n.text ≠ [] := by
    rw [h]
    simp
  have hlabels : n.labels = splitDot t := by
    unfold Name.labels
    rw [if_neg hne, h, trim_append_dot]
  rcases trim_cases t with ht | ht
  · exact ht.symm
  · have hp := n.labels_plain
    rw [hlabels, ht, splitDot_append_dot] at hp
    have := (hp [] (by simp [splitDot])).1
    simp at this

theorem Name.sameOwner_iff_upToDot (a b : Name) :
    a.sameOwner b = true ↔ EqualUpToDot a.text b.text := by
  rw [Name.sameOwner_iff, Name.labels_injective]
  constructor
  · intro h
    rcases trim_cases a.text with ha | ha <;> rcases trim_cases b.text with hb | hb
    · exact .inl (by rw [ha, hb, h])
    · exact .inr (.inr (by rw [hb, ← h, ← ha]))
    · exact .inr (.inl (by rw [ha, h, ← hb]))
    · exact .inl (by rw [ha, hb, h])
  · rintro (h | h | h)
    · rw [h]
    · rw [h, trim_append_dot, a.trim_trim b.text h]
    · rw [h, trim_append_dot, b.trim_trim a.text h]

theorem Name.sameOwner_trans (a b c : Name) (h1 : a.sameOwner b = true)
    (h2 : b.sameOwner c = true) : a.sameOwner c = true := by
  rw [Name.sameOwner_iff] at *
  exact h1.trans h2

theorem decoded_labels (wire : NameRef) (hd : nameFullyDecodes wire = true) :
    ∃ ls : List Bytes, wire.labels = ls.map .ok ∧ (∀ l ∈ ls, Plain l) ∧
      LabelSeq.wireLen ls ≤ 255 := by
  obtain ⟨ls, tail, hops, dest, hlabels, htail, -, walk, hw, -⟩ :=
    NameRef.labels_walk wire.message wire.start
  rcases htail with ⟨rfl, -⟩ | ⟨e, rfl⟩
  · rw [List.append_nil] at hlabels
    exact ⟨ls, hlabels, walk.plain _ _ _ _ _, hw⟩
  · unfold nameFullyDecodes at hd
    have hlast := List.all_eq_true.mp hd (.error e) (by
      change _ ∈ (⟨wire.message, wire.start⟩ : NameRef).labels
      rw [hlabels]
      simp)
    cases hlast

theorem namesMatch_iff_labels (stored : Name) (wire : NameRef) (ls : List Bytes)
    (hl : wire.labels = ls.map .ok) (hp : ∀ l ∈ ls, Plain l) :
    namesMatch stored wire = true ↔ stored.text ≠ [] ∧ ls.map lower = stored.labels := by
  unfold namesMatch namesMatchStr
  rw [hl, labelsMatch_iff]
  have hinj : ∀ ls' : List Bytes, ls.map (Except.ok (ε := ParseError)) = ls'.map .ok ↔
      ls = ls' := fun ls' =>
    (List.map_injective_iff.mpr fun a b hab => by injection hab).eq_iff
  simp only [hinj, exists_eq_left']
  by_cases hroot : stored.text = []
  · simp only [hroot, ne_eq, not_true_eq_false, false_and, iff_false]
    intro h
    have hnil : ([] : Bytes) ∈ ls.map lower := by
      rw [h]
      decide
    obtain ⟨l, hmem, hlow⟩ := List.mem_map.mp hnil
    have hpos := (hp l hmem).1
    rw [(lower_eq_nil l).mp hlow] at hpos
    simp at hpos
  · have hlab : splitDot (trim stored.text) = stored.labels := (if_neg hroot).symm
    rw [hlab, map_lower_labels]
    simp only [ne_eq, hroot, not_false_eq_true, true_and]

theorem fromWireLabels_labels (stored : Name) (hs : Utf8.isText stored.text = true)
    (wire : NameRef) (ls : List Bytes) (hl : wire.labels = ls.map .ok) (hp : ∀ l ∈ ls, Plain l)
    (hw : LabelSeq.wireLen ls ≤ 255) :
    (∃ n, Name.fromWireLabels wire.labels = some n ∧ n.sameOwner stored = true) ↔
      ls.map lower = stored.labels := by
  rw [hl, Name.fromWireLabels_iff ls hp hw]
  constructor
  · rintro ⟨-, n, -, hn, hsame⟩
    rw [← hn]
    exact (n.sameOwner_iff stored).mp hsame
  · intro h
    have hj : ∀ l ∈ ls, Joinable l := by
      intro l hmem
      refine joinable_of_lower l (stored.labels_joinable hs (lower l) ?_)
      rw [← h]
      exact List.mem_map_of_mem hmem
    obtain ⟨n, hn, hlabels⟩ := Name.of_joined ls hp hw fun l hmem => (hj l hmem).1
    exact ⟨hj, n, hn, hlabels, (n.sameOwner_iff stored).mpr (hlabels.trans h)⟩

/-- `same_owner` is an equivalence that ignores case and one dot at the end. -/
def OwnersAreNames : Prop :=
  Equivalence (fun a b : Name => a.sameOwner b = true) ∧
    ∀ s t a b, Name.tryFromStr s = .ok a → Name.tryFromStr t = .ok b →
      (a.sameOwner b = true ↔ EqualUpToDot (lower s) (lower t))

theorem owners_are_names : OwnersAreNames := by
  refine ⟨⟨Name.sameOwner_refl, fun {a b} h => ?_, fun {a b c} => a.sameOwner_trans b c⟩, ?_⟩
  · rw [← a.sameOwner_comm b]
    exact h
  · intro s t a b ha hb
    obtain ⟨-, hs⟩ := Name.tryFromStr_eq_ok s a ha
    obtain ⟨-, ht⟩ := Name.tryFromStr_eq_ok t b hb
    rw [Name.sameOwner_iff_upToDot, hs, ht]

/-- The two comparisons agree on a stored text and a name that decodes, and `same_owner` is what
it should be, exactly where the two names are not both the root. -/
theorem one_notion_of_name_iff (stored : Name) (hs : Utf8.isText stored.text = true)
    (wire : NameRef) (hd : nameFullyDecodes wire = true) :
    ((namesMatch stored wire = true ↔
        ∃ n, Name.fromWireLabels wire.labels = some n ∧ n.sameOwner stored = true) ∧
      OwnersAreNames) ↔ ¬ (stored.text = [] ∧ wire.labels = []) := by
  obtain ⟨ls, hl, hp, hw⟩ := decoded_labels wire hd
  rw [and_iff_left owners_are_names, namesMatch_iff_labels stored wire ls hl hp,
    fromWireLabels_labels stored hs wire ls hl hp hw, hl, List.map_eq_nil_iff]
  by_cases hroot : stored.text = []
  · have hlabels : stored.labels = [] := stored.labels_eq_nil.mpr hroot
    simp only [hroot, ne_eq, not_true_eq_false, false_and, hlabels, List.map_eq_nil_iff, true_and,
      false_iff]
  · simp only [ne_eq, hroot, not_false_eq_true, true_and, false_and]

theorem letter_matches_letter :
    ((namesMatch ⟨[97], by decide, by decide⟩ ⟨[1, 65, 0], 0⟩ = true ↔
        ∃ n, Name.fromWireLabels (⟨[1, 65, 0], 0⟩ : NameRef).labels = some n ∧
          n.sameOwner ⟨[97], by decide, by decide⟩ = true) ∧
      OwnersAreNames) ↔
      ¬ (([97] : Bytes) = [] ∧ (⟨[1, 65, 0], 0⟩ : NameRef).labels = []) :=
  one_notion_of_name_iff ⟨[97], by decide, by decide⟩
    ((Utf8.isText_iff [97]).mpr ⟨[Char.ofNat 97], by decide⟩) ⟨[1, 65, 0], 0⟩ (by decide +kernel)

/-- The root of a message is the owner of the stored root, but does not match it. -/
theorem root_does_not_match_root :
    ¬ ∀ (stored : Name) (wire : NameRef), Utf8.isText stored.text = true →
      nameFullyDecodes wire = true →
      (namesMatch stored wire = true ↔
        ∃ n, Name.fromWireLabels wire.labels = some n ∧ n.sameOwner stored = true) := by
  intro h
  have hlabels : (⟨[0], 0⟩ : NameRef).labels = [] := by decide +kernel
  have hmatch := (h ⟨[], rfl, rfl⟩ ⟨[0], 0⟩ ((Utf8.isText_iff []).mpr ⟨[], rfl⟩)
    (by unfold nameFullyDecodes; rw [hlabels]; rfl)).mpr
    ⟨⟨[], rfl, rfl⟩, by rw [hlabels]; rfl, by decide⟩
  unfold namesMatch namesMatchStr at hmatch
  rw [hlabels] at hmatch
  revert hmatch
  decide

end Hick
