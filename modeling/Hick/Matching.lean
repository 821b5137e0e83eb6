import Mathlib
import Hick.Event
import Hick.Wire.RoundTrip

/-!
# Matching names on the wire (endpoint/matching.rs)

A stored name is compared with a name in a message label by label, without case.
-/

namespace Hick
open Octets LabelSeq Wire

def dnsSdMetaQueryName : Bytes :=
  [95, 115, 101, 114, 118, 105, 99, 101, 115, 46, 95, 100, 110, 115, 45, 115, 100, 46, 95, 117,
    100, 112, 46, 108, 111, 99, 97, 108, 46]

def labelsMatch : List Bytes → List (Except ParseError Bytes) → Bool
  | [], [] => true
  | s :: stored, .ok i :: incoming =>
    s.length == i.length && eqIgnoreAsciiCase s i && labelsMatch stored incoming
  | _, _ => false

def namesMatchStr (stored : Bytes) (incoming : NameRef) : Bool :=
  labelsMatch (splitDot (trim stored)) incoming.labels

def namesMatch (stored : Name) (incoming : NameRef) : Bool := namesMatchStr stored.text incoming

def isMetaQueryName (qname : NameRef) : Bool := namesMatchStr dnsSdMetaQueryName qname

def namesMatchRecord (stored : Name) (r : Ref) : Bool := namesMatch stored r.name

def nameFullyDecodes (name : NameRef) : Bool := name.labels.all fun label => label.isOk

def questionIsAbout (q : QuestionRef) (name : Name) : Bool :=
  (q.qclass == .in_ || q.qclass == .any) && namesMatch name q.qname

theorem labelsMatch_iff (stored : List Bytes) (incoming : List (Except ParseError Bytes)) :
    labelsMatch stored incoming = true ↔
      ∃ ls : List Bytes, incoming = ls.map .ok ∧ ls.map lower = stored.map lower := by
  induction stored generalizing incoming with
  | nil =>
    cases incoming with
    | nil => simp [labelsMatch]
    | cons i incoming => simp [labelsMatch]
  | cons s stored ih =>
    cases incoming with
    | nil => simp [labelsMatch]
    | cons i incoming =>
      cases i with
      | error e =>
        simp only [labelsMatch, Bool.false_eq_true, false_iff, not_exists, not_and]
        intro ls hls
        cases ls with
        | nil => cases hls
        | cons l ls => cases hls
      | ok i =>
        simp only [labelsMatch, Bool.and_eq_true, beq_iff_eq, eqIgnoreAsciiCase, ih]
        constructor
        · rintro ⟨⟨_, hl⟩, ls, rfl, hls⟩
          exact ⟨i :: ls, rfl, by rw [List.map_cons, List.map_cons, hl, hls]⟩
        · rintro ⟨ls, hi, hls⟩
          cases ls with
          | nil => cases hi
          | cons l ls =>
            rw [List.map_cons, List.cons.injEq, Except.ok.injEq] at hi
            rw [List.map_cons, List.map_cons, List.cons.injEq] at hls
            obtain ⟨rfl, rfl⟩ := hi
            refine ⟨⟨?_, hls.1.symm⟩, ls, rfl, hls.2⟩
            have := congrArg List.length hls.1
            simpa using this.symm

theorem map_lower_labels (n : Name) : n.labels.map lower = n.labels := by
  conv_rhs => rw [← List.map_id n.labels]
  exact List.map_congr_left n.labels_folded

theorem namesMatch_names (stored name : Name) (n : NameRef) (h : Names n name) :
    namesMatch stored n = true ↔ stored.text ≠ [] ∧ name.labels = stored.labels := by
  unfold namesMatch namesMatchStr
  rw [h, labelsMatch_iff]
  have hinj : ∀ ls : List Bytes, name.labels.map (Except.ok (ε := ParseError)) = ls.map .ok ↔
      name.labels = ls := by
    intro ls
    exact (List.map_injective_iff.mpr fun a b hab => by injection hab).eq_iff
  simp only [hinj, exists_eq_left', map_lower_labels]
  by_cases hroot : stored.text = []
  · simp only [hroot, ne_eq, not_true_eq_false, false_and, iff_false]
    intro hl
    have hsplit : splitDot (trim ([] : Bytes)) = [[]] := by decide
    rw [hsplit] at hl
    have hp := name.labels_plain [] (by rw [hl]; simp [lower])
    exact absurd hp.1 (by simp)
  · have hlab : splitDot (trim stored.text) = stored.labels := (if_neg hroot).symm
    rw [hlab, map_lower_labels]
    simp only [ne_eq, hroot, not_false_eq_true, true_and]

theorem nameFullyDecodes_names (name : Name) (n : NameRef) (h : Names n name) :
    nameFullyDecodes n = true := by
  unfold nameFullyDecodes
  rw [h, List.all_map]
  exact List.all_eq_true.mpr fun _ _ => rfl

/-! ### The scope of a proposal (matching.rs:135-390) -/

inductive NotOurs where
  | differentClass
  | differentOwner
  | nameOutOfQuestionScope
  deriving DecidableEq, Repr

inductive Admission where
  | notOurs (why : NotOurs)
  | ours
  deriving DecidableEq, Repr

structure QuestionsUnreadable where
  deriving DecidableEq, Repr

def readQuestions (name : Name) :
    List (Except ParseError QuestionRef) → Except QuestionsUnreadable Bool
  | [] => .ok false
  | .error _ :: _ => .error ⟨⟩
  | .ok q :: rest =>
    if !nameFullyDecodes q.qname then .error ⟨⟩
    else
      match readQuestions name rest with
      | .error e => .error e
      | .ok admitted => .ok (questionIsAbout q name || admitted)

/-- `ProposalScope::admits`. The source keeps the answer of the question scan in `scoped`;
the scan reads the same questions each time, so it is computed where it is used. -/
def ProposalScope.admits (questions : List (Except ParseError QuestionRef)) (name : Name)
    (r : Ref) : Except QuestionsUnreadable Admission :=
  if r.rclass ≠ .in_ then .ok (.notOurs .differentClass)
  else if !namesMatchRecord name r then .ok (.notOurs .differentOwner)
  else
    match readQuestions name questions with
    | .error e => .error e
    | .ok true => .ok .ours
    | .ok false => .ok (.notOurs .nameOutOfQuestionScope)

/-! ### Host conflicts (matching.rs:397-434) -/

def isHostConflictRtype (rt : ResourceType) : Bool := rt == .a || rt == .aaaa

end Hick
