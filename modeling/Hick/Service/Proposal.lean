import Mathlib
import Hick.Lib.SortedFold
import Hick.Matching
import Hick.Service.Respond

/-!
# The tiebreak of simultaneous probes (service/proposal.rs)

Two probers of one name compare the record sets they propose, each sorted, as lists of byte
strings. Ours is encoded directly; the peer's is folded out of its probe.
-/

namespace Hick
open Octets Wire Respond

inductive Abandon where
  | unparseableAuthority
  | undecodableOwnerName
  | undecodableRdata
  | unreadableQuestions
  deriving DecidableEq, Repr

inductive Verdict where
  | peerWins
  | weHold
  | abandoned (why : Abandon)
  deriving DecidableEq, Repr

/-! ### Our side (proposal.rs:216-280) -/

def proposalElement (rtype : ResourceType) (rdata : Bytes) : Bytes := be16 rtype.toU16 ++ rdata

def proposedSet (our : ServiceRecords) : List Bytes :=
  proposalElement .srv (srvRdata our) ::
    proposalElement .txt (writeCanonicalTxt our.txt) ::
      if our.instanceName.sameOwner our.host then
        our.aAddrs.map (fun a => proposalElement .a a.octets) ++
          our.aaaaAddrs.map (fun a => proposalElement .aaaa a.octets)
      else []

def ourProposal (our : ServiceRecords) : List Bytes := SortedFold.ascending (proposedSet our)

/-! ### The peer's side (proposal.rs:108-187, 340-389) -/

structure ProposalFold where
  smallest : List Bytes
  count : Nat
  keep : Nat

namespace ProposalFold

def new (keep : Nat) : ProposalFold := ⟨[], 0, keep⟩

def offer (f : ProposalFold) (elem : Bytes) : ProposalFold :=
  { f with
    smallest := SortedFold.keepSmallest f.keep f.smallest elem
    count := f.count + 1 }

def peerWins (f : ProposalFold) (our : List Bytes) : Bool :=
  (SortedFold.firstDifference f.smallest our).getD (decide (our.length < f.count))

end ProposalFold

def foldAuthority (questions : List (Except ParseError QuestionRef)) (name : Name) :
    List (Except ParseError Ref) → ProposalFold → Except Abandon ProposalFold
  | [], f => .ok f
  | .error _ :: _, _ => .error .unparseableAuthority
  | .ok r :: rest, f =>
    if !nameFullyDecodes r.name then .error .undecodableOwnerName
    else
      match ProposalScope.admits questions name r with
      | .error _ => .error .unreadableQuestions
      | .ok (.notOurs _) => foldAuthority questions name rest f
      | .ok .ours =>
        match r.writeCanonicalRdata .asSent with
        | .error _ => .error .undecodableRdata
        | .ok rdata => foldAuthority questions name rest (f.offer (proposalElement r.rtype rdata))

def foldProposal (pp : ProbeProposal) (oursRecords : ServiceRecords) : Except Abandon Verdict :=
  let ours := ourProposal oursRecords
  match foldAuthority pp.questions oursRecords.instanceName pp.authority
      (ProposalFold.new ours.length) with
  | .error why => .error why
  | .ok f => .ok (if f.peerWins ours then .peerWins else .weHold)

def adjudicate (pp : ProbeProposal) (oursRecords : ServiceRecords) : Verdict :=
  match foldProposal pp oursRecords with
  | .ok verdict => verdict
  | .error why => .abandoned why

theorem offers_spec (keep : Nat) (elems : List Bytes) :
    elems.foldl ProposalFold.offer (ProposalFold.new keep) =
      ⟨elems.foldl (SortedFold.keepSmallest keep) [], elems.length, keep⟩ := by
  have hfold : ∀ (f : ProposalFold), elems.foldl ProposalFold.offer f =
      ⟨elems.foldl (SortedFold.keepSmallest f.keep) f.smallest, f.count + elems.length,
        f.keep⟩ := by
    induction elems with
    | nil => exact fun f => rfl
    | cons e es ih =>
      intro f
      rw [List.foldl_cons, ih (f.offer e), List.foldl_cons, List.length_cons]
      simp only [ProposalFold.offer]
      rw [Nat.add_assoc, Nat.add_comm 1]
  rw [hfold]
  simp only [ProposalFold.new, Nat.zero_add]

theorem peerWins_offers (our elems : List Bytes) :
    (elems.foldl ProposalFold.offer (ProposalFold.new our.length)).peerWins our = true ↔
      our < SortedFold.ascending elems := by
  rw [offers_spec, ProposalFold.peerWins, SortedFold.fold_keepSmallest]
  have hlen : elems.length = (SortedFold.ascending elems).length :=
    (List.length_insertionSort _ _).symm
  rw [hlen]
  exact SortedFold.firstDifference_lt _ _

def scopedElement (name : Name) (e : RecordEntry) : Option Bytes :=
  if e.owner.labels = name.labels then some (proposalElement e.data.rtype e.data.canonical)
  else none

theorem questionClassBits_in (q : QuestionEntry) (h : q.qclass = .in_) :
    ResourceClass.fromU16 (questionClassBits q) = .in_ := by
  unfold questionClassBits
  rw [h]
  cases q.unicastResponse <;> decide

theorem readQuestions_reads (name : Name) (hroot : name.text ≠ [])
    (items : List (Except ParseError QuestionRef)) (qs : List QuestionEntry)
    (h : List.Forall₂ IsQuestion items qs) (habout : ∃ q ∈ qs, q.name.labels = name.labels ∧
      ResourceClass.fromU16 (questionClassBits q) = .in_) :
    readQuestions name items = .ok true := by
  have hread : ∀ items qs, List.Forall₂ IsQuestion items qs →
      ∃ b, readQuestions name items = .ok b ∧ ((∃ q ∈ qs, q.name.labels = name.labels ∧
        ResourceClass.fromU16 (questionClassBits q) = .in_) → b = true) := by
    intro items qs h
    induction h with
    | nil => exact ⟨false, rfl, by simp⟩
    | @cons item q items qs hq hqs ih =>
      obtain ⟨r, rfl, hr⟩ := hq
      obtain ⟨b, hb, himp⟩ := ih
      have hdec := nameFullyDecodes_names q.name r.qname hr.qname
      refine ⟨questionIsAbout r name || b, ?_, ?_⟩
      · simp only [readQuestions, hdec, Bool.not_true, Bool.false_eq_true, if_false, hb]
      · rintro ⟨q', hmem, hlab, hcls⟩
        rcases List.mem_cons.mp hmem with rfl | hmem
        · have hm := (namesMatch_names name q'.name r.qname hr.qname).mpr ⟨hroot, hlab⟩
          have hab : questionIsAbout r name = true := by
            simp only [questionIsAbout, hr.qclass, hcls, hm, Bool.and_true, beq_self_eq_true,
              Bool.true_or]
          rw [hab, Bool.true_or]
        · rw [himp ⟨q', hmem, hlab, hcls⟩, Bool.or_true]
  obtain ⟨b, hb, himp⟩ := hread items qs h
  rw [hb, himp habout]

theorem foldAuthority_reads (m : Bytes) (name : Name) (hroot : name.text ≠ [])
    (questions : List (Except ParseError QuestionRef))
    (hq : readQuestions name questions = .ok true) (items : List (Except ParseError Ref))
    (es : List RecordEntry) (h : List.Forall₂ (IsRecord m) items es) (f : ProposalFold) :
    foldAuthority questions name items f =
      .ok ((es.filterMap (scopedElement name)).foldl ProposalFold.offer f) := by
  induction h generalizing f with
  | nil => rfl
  | @cons item e items es he hes ih =>
    obtain ⟨r, rfl, hr, _⟩ := he
    have hdec := nameFullyDecodes_names e.owner r.name hr.name
    have hmatch := namesMatch_names name e.owner r.name hr.name
    simp only [foldAuthority, hdec, Bool.not_true, Bool.false_eq_true, if_false,
      ProposalScope.admits, hr.rclass, ne_eq, not_true_eq_false, namesMatchRecord]
    by_cases ho : e.owner.labels = name.labels
    · have hm : namesMatch name r.name = true := hmatch.mpr ⟨hroot, ho⟩
      simp only [hm, Bool.not_true, Bool.false_eq_true, if_false, hq, hr.canonical, hr.rtype, ih,
        List.filterMap_cons, scopedElement, ho, if_true, List.foldl_cons]
    · have hm : namesMatch name r.name = false := by
        rw [Bool.eq_false_iff]
        exact fun h => ho (hmatch.mp h).2
      simp only [hm, Bool.not_false, if_true, ih, List.filterMap_cons, scopedElement, ho,
        if_false]

end Hick
