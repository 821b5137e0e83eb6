import Mathlib
import Hick.Lib.LabelSeq

/-!
# DNS names (name.rs)

A `Name` is the text of a name that `validate_name` (`name.rs:96-127`) accepted, in ASCII lower
case; one trailing dot is kept as given.
-/

namespace Hick
open Octets LabelSeq

def maxLabelBytes : Nat := 63
def maxNameBytes : Nat := 255

def dot : Byte := 46

def toAsciiLowercase (b : Byte) : Byte := if 65 ≤ b ∧ b ≤ 90 then b + 32 else b

def lower (s : Bytes) : Bytes := s.map toAsciiLowercase

def eqIgnoreAsciiCase (a b : Bytes) : Bool := lower a == lower b

def trim (s : Bytes) : Bytes := if s.getLast? = some dot then s.dropLast else s

def splitDot (s : Bytes) : List Bytes := s.splitOn dot

def splitOnce : Bytes → Option (Bytes × Bytes)
  | [] => none
  | b :: rest =>
    if b = dot then some ([], rest) else (splitOnce rest).map fun p => (b :: p.1, p.2)

inductive NameError where
  | labelTooLong (len : Nat)
  | nameTooLong (len : Nat)
  | emptyLabel
  deriving DecidableEq, Repr

/-- The label loop of `validate_name`; the accumulator is the encoded length so far. -/
def validateLabels : Nat → List Bytes → Except NameError Nat
  | encoded, [] => .ok encoded
  | encoded, label :: rest =>
    if label = [] then .error .emptyLabel
    else if label.length > maxLabelBytes then .error (.labelTooLong label.length)
    else validateLabels (encoded + 1 + label.length) rest

def validateName (s : Bytes) : Except NameError Unit :=
  if s.length > maxNameBytes then .error (.nameTooLong s.length)
  else if s = [] then .ok ()
  else
    match validateLabels 1 (splitDot (trim s)) with
    | .error e => .error e
    | .ok encoded => if encoded > maxNameBytes then .error (.nameTooLong encoded) else .ok ()

structure Name where
  text : Bytes
  valid : validateName text = .ok ()
  folded : lower text = text

theorem Name.ext_text (a b : Name) (h : a.text = b.text) : a = b := by
  cases a
  cases b
  cases h
  rfl

instance : DecidableEq Name := fun a b =>
  decidable_of_iff (a.text = b.text) ⟨Name.ext_text a b, fun h => by rw [h]⟩

theorem toAsciiLowercase_idem (b : Byte) :
    toAsciiLowercase (toAsciiLowercase b) = toAsciiLowercase b := by
  revert b
  decide +kernel

theorem toAsciiLowercase_eq_dot (b : Byte) : toAsciiLowercase b = dot ↔ b = dot := by
  revert b
  decide +kernel

variable (s : Bytes)

@[simp] theorem lower_length : (lower s).length = s.length := List.length_map _

@[simp] theorem lower_nil : lower [] = [] := rfl

theorem lower_idem : lower (lower s) = lower s := by
  simp only [lower, List.map_map]
  exact List.map_congr_left fun b _ => toAsciiLowercase_idem b

theorem lower_eq_nil : lower s = [] ↔ s = [] := List.map_eq_nil_iff

theorem trim_lower : trim (lower s) = lower (trim s) := by
  unfold trim lower
  rw [List.getLast?_map]
  cases h : s.getLast? with
  | none => simp
  | some b =>
    by_cases hb : b = dot
    · simp [hb, toAsciiLowercase, dot]
    · have hn : toAsciiLowercase b ≠ dot := fun he => hb ((toAsciiLowercase_eq_dot b).mp he)
      simp [hb, hn]

theorem splitDot_lower : splitDot (lower s) = (splitDot s).map lower := by
  induction s with
  | nil => simp [splitDot, List.splitOn_nil, lower]
  | cons b s ih =>
    simp only [splitDot, lower, List.map_cons] at ih ⊢
    rw [List.splitOn_cons_eq_if_modifyHead, List.splitOn_cons_eq_if_modifyHead, ih]
    by_cases hb : b = dot
    · have hd : toAsciiLowercase dot = dot := (toAsciiLowercase_eq_dot dot).mpr rfl
      simp [hb, hd]
    · have hn : toAsciiLowercase b ≠ dot := fun he => hb ((toAsciiLowercase_eq_dot b).mp he)
      rw [if_neg (by simpa using hn), if_neg (by simpa using hb)]
      cases hs : List.splitOn dot s with
      | nil => exact absurd hs (List.splitOn_ne_nil dot s)
      | cons l ls => simp [lower]

theorem validateLabels_map_lower (n : Nat) (ls : List Bytes) :
    validateLabels n (ls.map lower) = validateLabels n ls := by
  induction ls generalizing n with
  | nil => rfl
  | cons l ls ih => simp only [List.map_cons, validateLabels, lower_eq_nil, lower_length, ih]

theorem validateName_lower : validateName (lower s) = validateName s := by
  simp only [validateName, lower_length, lower_eq_nil, trim_lower, splitDot_lower,
    validateLabels_map_lower]

def Name.tryFromStr (s : Bytes) : Except NameError Name :=
  match h : validateName s with
  | .error e => .error e
  | .ok () => .ok ⟨lower s, by rw [validateName_lower]; exact h, lower_idem s⟩

theorem Name.tryFromStr_ok (h : validateName s = .ok ()) :
    ∃ n, Name.tryFromStr s = .ok n ∧ n.text = lower s := by
  unfold Name.tryFromStr
  split
  · rename_i e he
    rw [h] at he
    cases he
  · exact ⟨_, rfl, rfl⟩

theorem Name.tryFromStr_error (e : NameError) (h : validateName s = .error e) :
    Name.tryFromStr s = .error e := by
  unfold Name.tryFromStr
  split
  · rename_i e' he
    rw [h] at he
    cases he
    rfl
  · rename_i he
    rw [h] at he
    cases he

theorem Name.tryFromStr_eq_ok (n : Name) (h : Name.tryFromStr s = .ok n) :
    validateName s = .ok () ∧ n.text = lower s := by
  cases hv : validateName s with
  | error e =>
    rw [Name.tryFromStr_error s e hv] at h
    cases h
  | ok u =>
    obtain ⟨m, hm, ht⟩ := Name.tryFromStr_ok s hv
    rw [hm] at h
    cases h
    exact ⟨rfl, ht⟩

def Name.sameOwner (a b : Name) : Bool := eqIgnoreAsciiCase (trim a.text) (trim b.text)

def Name.isParentOf (self other : Name) : Bool :=
  match splitOnce (trim other.text) with
  | some (_, rest) => eqIgnoreAsciiCase (trim self.text) rest
  | none => !(trim other.text).isEmpty && (trim self.text).isEmpty

def Name.labels (n : Name) : List Label := if n.text = [] then [] else splitDot (trim n.text)

theorem validateLabels_spec (n m : Nat) (ls : List Bytes) (h : validateLabels n ls = .ok m) :
    (∀ l ∈ ls, Plain l) ∧ m + 1 = n + LabelSeq.wireLen ls := by
  induction ls generalizing n with
  | nil =>
    cases h
    exact ⟨by simp, rfl⟩
  | cons l ls ih =>
    rw [validateLabels] at h
    split at h
    · cases h
    · rename_i hne
      split at h
      · cases h
      · rename_i hlen
        obtain ⟨hp, hm⟩ := ih _ h
        have hpos : 0 < l.length := List.length_pos_iff.mpr hne
        simp only [maxLabelBytes] at hlen
        refine ⟨List.forall_mem_cons.mpr ⟨⟨hpos, by omega⟩, hp⟩, ?_⟩
        simp only [LabelSeq.wireLen, List.map_cons, List.sum_cons] at hm ⊢
        omega

theorem validateLabels_of_plain (n : Nat) (ls : List Bytes) (h : ∀ l ∈ ls, Plain l) :
    ∃ m, validateLabels n ls = .ok m := by
  induction ls generalizing n with
  | nil => exact ⟨n, rfl⟩
  | cons l ls ih =>
    obtain ⟨hp, hrest⟩ := List.forall_mem_cons.mp h
    have hne : l ≠ [] := List.length_pos_iff.mp hp.1
    rw [validateLabels, if_neg hne, if_neg (by have := hp.2; simp only [maxLabelBytes]; omega)]
    exact ih _ hrest

theorem validateName_iff : validateName s = .ok () ↔
    s.length ≤ 255 ∧ (s = [] ∨
      ((∀ l ∈ splitDot (trim s), Plain l) ∧ LabelSeq.wireLen (splitDot (trim s)) ≤ 255)) := by
  constructor
  · intro h
    unfold validateName at h
    split at h
    · cases h
    · rename_i hlen
      simp only [maxNameBytes] at hlen
      refine ⟨by omega, ?_⟩
      split at h
      · rename_i hnil
        exact .inl hnil
      · split at h
        · cases h
        · rename_i m hm
          obtain ⟨hp, hsum⟩ := validateLabels_spec 1 m _ hm
          split at h
          · cases h
          · rename_i hle
            simp only [maxNameBytes] at hle
            exact .inr ⟨hp, by omega⟩
  · rintro ⟨hlen, hs⟩
    unfold validateName
    rw [if_neg (by simp only [maxNameBytes]; omega)]
    rcases hs with rfl | ⟨hp, hw⟩
    · rfl
    · split
      · rfl
      · obtain ⟨m, hm⟩ := validateLabels_of_plain 1 _ hp
        have hsum := (validateLabels_spec 1 m _ hm).2
        rw [hm]
        exact if_neg (by simp only [maxNameBytes]; omega)

theorem Name.labels_plain (n : Name) : ∀ l ∈ n.labels, Plain l := by
  unfold Name.labels
  split
  · simp
  · rename_i hne
    rcases (validateName_iff n.text).mp n.valid with ⟨_, h | ⟨hp, _⟩⟩
    · exact absurd h hne
    · exact hp

theorem Name.labels_wireLen (n : Name) : LabelSeq.wireLen n.labels ≤ 255 := by
  unfold Name.labels
  split
  · decide
  · rename_i hne
    rcases (validateName_iff n.text).mp n.valid with ⟨_, h | ⟨_, hw⟩⟩
    · exact absurd h hne
    · exact hw

theorem Name.trim_folded (n : Name) : lower (trim n.text) = trim n.text := by
  rw [← trim_lower, n.folded]

theorem splitDot_folded (h : lower s = s) : ∀ l ∈ splitDot s, lower l = l := by
  intro l hl
  have hmap : (splitDot s).map lower = (splitDot s).map id := by
    rw [← splitDot_lower, h, List.map_id]
  exact List.map_inj_left.mp hmap l hl

theorem Name.labels_folded (n : Name) : ∀ l ∈ n.labels, lower l = l := by
  unfold Name.labels
  split
  · simp
  · exact splitDot_folded _ n.trim_folded

theorem splitDot_injective (a b : Bytes) (h : splitDot a = splitDot b) : a = b := by
  have h' := congrArg ([dot].intercalate ·) h
  simpa only [splitDot, List.intercalate_splitOn] using h'

theorem Name.trim_eq_nil (n : Name) : trim n.text = [] ↔ n.text = [] := by
  constructor
  · intro h
    by_contra hne
    have hp := n.labels_plain
    unfold Name.labels at hp
    rw [if_neg hne, h] at hp
    have := (hp [] (by simp [splitDot])).1
    simp at this
  · intro h
    rw [h]
    rfl

theorem Name.labels_eq_nil (n : Name) : n.labels = [] ↔ n.text = [] := by
  unfold Name.labels
  split
  · rename_i h
    simp [h]
  · rename_i h
    simp [h, splitDot]

theorem Name.labels_injective (a b : Name) : a.labels = b.labels ↔ trim a.text = trim b.text := by
  constructor
  · intro h
    by_cases ha : a.text = []
    · have hb : b.text = [] := by
        rw [← Name.labels_eq_nil, ← h, Name.labels_eq_nil]
        exact ha
      rw [ha, hb]
    · have hb : b.text ≠ [] := by
        rw [Ne, ← Name.labels_eq_nil, ← h, Name.labels_eq_nil]
        exact ha
      unfold Name.labels at h
      rw [if_neg ha, if_neg hb] at h
      exact splitDot_injective _ _ h
  · intro h
    have hnil : a.text = [] ↔ b.text = [] := by
      rw [← a.trim_eq_nil, ← b.trim_eq_nil, h]
    unfold Name.labels
    by_cases ha : a.text = []
    · rw [if_pos ha, if_pos (hnil.mp ha)]
    · rw [if_neg ha, if_neg (fun hb => ha (hnil.mpr hb)), h]

theorem Name.sameOwner_iff (a b : Name) : a.sameOwner b = true ↔ a.labels = b.labels := by
  rw [Name.labels_injective, Name.sameOwner, eqIgnoreAsciiCase, beq_iff_eq, a.trim_folded,
    b.trim_folded]

theorem Name.sameOwner_refl (a : Name) : a.sameOwner a = true := (a.sameOwner_iff a).mpr rfl

theorem Name.sameOwner_comm (a b : Name) : a.sameOwner b = b.sameOwner a := by
  rw [Bool.eq_iff_iff, Name.sameOwner_iff, Name.sameOwner_iff]
  exact eq_comm

theorem splitOnce_none (h : splitOnce s = none) : splitDot s = [s] := by
  induction s with
  | nil => rfl
  | cons b s ih =>
    rw [splitOnce] at h
    split at h
    · cases h
    · rename_i hb
      rw [Option.map_eq_none_iff] at h
      simp only [splitDot] at ih ⊢
      rw [List.splitOn_cons_eq_if_modifyHead, if_neg (by simpa using hb), ih h]
      rfl

theorem splitOnce_some (s first rest : Bytes) (h : splitOnce s = some (first, rest)) :
    splitDot s = first :: splitDot rest ∧ rest = s.drop (first.length + 1) := by
  induction s generalizing first with
  | nil => cases h
  | cons b s ih =>
    rw [splitOnce] at h
    split at h
    · rename_i hb
      cases h
      refine ⟨?_, rfl⟩
      simp only [splitDot]
      rw [List.splitOn_cons_eq_if_modifyHead, if_pos (by simpa using hb)]
    · rename_i hb
      cases hs : splitOnce s with
      | none => simp [hs] at h
      | some p =>
        rw [hs] at h
        cases h
        obtain ⟨hd, hr⟩ := ih p.1 (by rw [hs])
        refine ⟨?_, hr⟩
        simp only [splitDot] at hd ⊢
        rw [List.splitOn_cons_eq_if_modifyHead, if_neg (by simpa using hb), hd]
        rfl

theorem lower_drop (n : Nat) : lower (s.drop n) = (lower s).drop n := List.map_drop

theorem Name.isParentOf_iff (p n : Name) :
    p.isParentOf n = true ↔ ∃ l, n.labels = l :: p.labels := by
  unfold Name.isParentOf
  by_cases hn : n.text = []
  · have ht : trim n.text = [] := n.trim_eq_nil.mpr hn
    have hl : n.labels = [] := n.labels_eq_nil.mpr hn
    rw [ht, hl]
    simp [splitOnce]
  · have ht : trim n.text ≠ [] := fun h => hn (n.trim_eq_nil.mp h)
    have hl : n.labels = splitDot (trim n.text) := if_neg hn
    cases hs : splitOnce (trim n.text) with
    | none =>
      have hroot : (trim p.text).isEmpty = true ↔ p.labels = [] := by
        rw [List.isEmpty_iff, p.trim_eq_nil, p.labels_eq_nil]
      have hne : (trim n.text).isEmpty = false := by simpa using ht
      rw [hl, splitOnce_none _ hs]
      simp only [hne, Bool.not_false, Bool.true_and, hroot, List.cons.injEq, exists_eq_left']
      exact eq_comm
    | some q =>
      obtain ⟨first, rest⟩ := q
      obtain ⟨hd, hr⟩ := splitOnce_some _ first rest hs
      have hplain := n.labels_plain
      rw [hl, hd] at hplain ⊢
      have hfold : lower rest = rest := by rw [hr, lower_drop, n.trim_folded]
      have hne : rest ≠ [] := by
        rintro rfl
        have := (hplain [] (List.mem_cons_of_mem _ (List.mem_singleton.mpr rfl))).1
        simp at this
      have hiff : trim p.text = rest ↔ splitDot rest = p.labels := by
        by_cases hp : p.text = []
        · rw [p.trim_eq_nil.mpr hp, p.labels_eq_nil.mpr hp]
          exact ⟨fun h => absurd h.symm hne, fun h => absurd h (List.splitOn_ne_nil dot rest)⟩
        · rw [Name.labels, if_neg hp]
          exact ⟨fun h => by rw [h], fun h => (splitDot_injective _ _ h).symm⟩
      simp only [eqIgnoreAsciiCase, p.trim_folded, hfold, beq_iff_eq, hiff, List.cons.injEq,
        exists_eq_left']

end Hick
