import Hick.Service.Events
import Hick.Service.Tiebreak

/-!
# The reference tiebreak (service/proposal.rs:108-187)

What a proposal is worth, said of its records alone: the elements of the records in scope, sorted,
against ours.
-/

namespace Hick
open Octets Wire Respond

def isOwner (n : NameRef) (name : Name) : Bool :=
  decide (n.labels.map (Except.map lower) = name.labels.map .ok)

def asksFor (name : Name) : Except ParseError QuestionRef → Bool
  | .ok q => (q.qclass == .in_ || q.qclass == .any) && isOwner q.qname name
  | .error _ => false

def inScope (questions : List (Except ParseError QuestionRef)) (name : Name) (r : Ref) : Bool :=
  r.rclass == .in_ && isOwner r.name name && questions.any (asksFor name)

def questionReads : Except ParseError QuestionRef → Bool
  | .ok q => nameFullyDecodes q.qname
  | .error _ => false

/-- The record parses, its owner name decodes, and so does its rdata where it is in scope. -/
def recordReads (questions : List (Except ParseError QuestionRef)) (name : Name) :
    Except ParseError Ref → Bool
  | .ok r => nameFullyDecodes r.name &&
      (!inScope questions name r || (r.writeCanonicalRdata .asSent).isOk)
  | .error _ => false

def ProbeProposal.Reads (pp : ProbeProposal) (name : Name) : Prop :=
  (∀ q ∈ pp.questions, questionReads q = true) ∧
    ∀ r ∈ pp.authority, recordReads pp.questions name r = true

instance (pp : ProbeProposal) (name : Name) : Decidable (pp.Reads name) :=
  inferInstanceAs (Decidable (_ ∧ _))

def peerElement (questions : List (Except ParseError QuestionRef)) (name : Name) :
    Except ParseError Ref → Option Bytes
  | .ok r =>
    if inScope questions name r then
      match r.writeCanonicalRdata .asSent with
      | .ok rdata => some (proposalElement r.rtype rdata)
      | .error _ => none
    else none
  | .error _ => none

def ProbeProposal.elements (pp : ProbeProposal) (name : Name) : List Bytes :=
  pp.authority.filterMap (peerElement pp.questions name)

theorem namesMatch_isOwner (name : Name) (hroot : name.text ≠ []) (n : NameRef) :
    namesMatch name n = isOwner n name := by
  have hlab : splitDot (trim name.text) = name.labels := (if_neg hroot).symm
  rw [Bool.eq_iff_iff, isOwner, decide_eq_true_eq]
  unfold namesMatch namesMatchStr
  rw [hlab, labelsMatch_iff, map_lower_labels]
  constructor
  · intro h
    obtain ⟨ls, hls, hlow⟩ := h
    rw [hls, ← hlow, List.map_map, List.map_map]
    rfl
  · intro h
    generalize n.labels = labels at h
    generalize name.labels = stored at h
    induction labels generalizing stored with
    | nil =>
      cases stored with
      | nil => exact ⟨[], rfl, rfl⟩
      | cons s stored => cases h
    | cons item labels ih =>
      cases stored with
      | nil => cases h
      | cons s stored =>
        rw [List.map_cons, List.map_cons, List.cons.injEq] at h
        cases item with
        | error e => cases h.1
        | ok l =>
          obtain ⟨ls, hls, hlow⟩ := ih stored h.2
          have hl : lower l = s := Except.ok.inj h.1
          exact ⟨l :: ls, by rw [hls]; rfl, by rw [List.map_cons, hl, hlow]⟩

theorem readQuestions_asks (name : Name) (hroot : name.text ≠ [])
    (questions : List (Except ParseError QuestionRef)) (asked : Bool)
    (h : readQuestions name questions = .ok asked) : asked = questions.any (asksFor name) := by
  induction questions generalizing asked with
  | nil => exact (Except.ok.inj h).symm
  | cons item rest ih =>
    cases item with
    | error e => cases h
    | ok q =>
      unfold readQuestions at h
      split at h
      · cases h
      · cases hrest : readQuestions name rest with
        | error e =>
          rw [hrest] at h
          cases h
        | ok more =>
          rw [hrest] at h
          rw [List.any_cons, ← ih more hrest, ← Except.ok.inj h]
          unfold questionIsAbout asksFor
          rw [namesMatch_isOwner name hroot]

theorem readQuestions_reads_all (name : Name) (questions : List (Except ParseError QuestionRef))
    (h : ∀ q ∈ questions, questionReads q = true) :
    ∃ asked, readQuestions name questions = .ok asked := by
  induction questions with
  | nil => exact ⟨false, rfl⟩
  | cons item rest ih =>
    obtain ⟨more, hmore⟩ := ih fun q hq => h q (List.mem_cons_of_mem _ hq)
    have hitem := h item List.mem_cons_self
    cases item with
    | error e => cases hitem
    | ok q =>
      have hdec : nameFullyDecodes q.qname = true := hitem
      refine ⟨questionIsAbout q name || more, ?_⟩
      unfold readQuestions
      rw [hdec, Bool.not_true, if_neg Bool.false_ne_true, hmore]

theorem admits_inScope (name : Name) (hroot : name.text ≠ [])
    (questions : List (Except ParseError QuestionRef)) (r : Ref) (admission : Admission)
    (h : ProposalScope.admits questions name r = .ok admission) :
    admission = .ours ↔ inScope questions name r = true := by
  unfold ProposalScope.admits at h
  unfold inScope
  rw [Bool.and_eq_true, Bool.and_eq_true, beq_iff_eq]
  by_cases hclass : r.rclass = .in_
  · rw [if_neg (not_not.mpr hclass)] at h
    rw [show namesMatchRecord name r = isOwner r.name name from
      namesMatch_isOwner name hroot r.name] at h
    cases howner : isOwner r.name name with
    | false =>
      rw [howner, Bool.not_false, if_pos rfl] at h
      rw [← Except.ok.inj h]
      simp
    | true =>
      rw [howner, Bool.not_true, if_neg Bool.false_ne_true] at h
      cases hread : readQuestions name questions with
      | error e =>
        rw [hread] at h
        cases h
      | ok asked =>
        rw [← readQuestions_asks name hroot questions asked hread]
        rw [hread] at h
        cases asked with
        | false =>
          rw [← Except.ok.inj h]
          simp
        | true =>
          rw [← Except.ok.inj h]
          simp [hclass]
  · rw [if_pos hclass] at h
    rw [← Except.ok.inj h]
    simp [hclass]

theorem foldAuthority_elements (name : Name) (hroot : name.text ≠ [])
    (questions : List (Except ParseError QuestionRef))
    (hq : ∀ q ∈ questions, questionReads q = true) (items : List (Except ParseError Ref))
    (h : ∀ r ∈ items, recordReads questions name r = true) (f : ProposalFold) :
    foldAuthority questions name items f =
      .ok ((items.filterMap (peerElement questions name)).foldl ProposalFold.offer f) := by
  induction items generalizing f with
  | nil => rfl
  | cons item rest ih =>
    have hrest := ih fun r hr => h r (List.mem_cons_of_mem _ hr)
    have hitem := h item List.mem_cons_self
    cases item with
    | error e => cases hitem
    | ok r =>
      unfold recordReads at hitem
      rw [Bool.and_eq_true] at hitem
      obtain ⟨hdec, hrdata⟩ := hitem
      obtain ⟨asked, hasked⟩ := readQuestions_reads_all name questions hq
      have hadmits : ∃ admission, ProposalScope.admits questions name r = .ok admission := by
        unfold ProposalScope.admits
        rw [hasked]
        split
        · exact ⟨_, rfl⟩
        · split
          · exact ⟨_, rfl⟩
          · cases asked with
            | false => exact ⟨_, rfl⟩
            | true => exact ⟨_, rfl⟩
      obtain ⟨admission, hadmission⟩ := hadmits
      have hscope := admits_inScope name hroot questions r admission hadmission
      unfold foldAuthority
      rw [hdec, Bool.not_true, if_neg Bool.false_ne_true, hadmission, List.filterMap_cons]
      cases admission with
      | notOurs why =>
        have hout : inScope questions name r = false := by
          rw [Bool.eq_false_iff]
          intro hin
          cases hscope.mpr hin
        have hnone : peerElement questions name (.ok r) = none :=
          if_neg (by rw [hout]; exact Bool.false_ne_true)
        rw [hnone]
        exact hrest f
      | ours =>
        have hin := hscope.mp rfl
        rw [hin, Bool.not_true, Bool.false_or] at hrdata
        cases hcanonical : r.writeCanonicalRdata .asSent with
        | error e =>
          rw [hcanonical] at hrdata
          cases hrdata
        | ok rdata =>
          have hsome : peerElement questions name (.ok r) =
              some (proposalElement r.rtype rdata) := by
            unfold peerElement
            dsimp only
            rw [if_pos hin, hcanonical]
          rw [hsome]
          exact hrest _

theorem adjudicate_elements (ours : ServiceRecords) (hroot : ours.instanceName.text ≠ [])
    (pp : ProbeProposal) (h : pp.Reads ours.instanceName) :
    adjudicate pp ours =
      if ourProposal ours < SortedFold.ascending (pp.elements ours.instanceName)
      then .peerWins else .weHold := by
  have hfold := foldAuthority_elements ours.instanceName hroot pp.questions h.1 pp.authority h.2
    (ProposalFold.new (ourProposal ours).length)
  have hwins := peerWins_offers (ourProposal ours) (pp.elements ours.instanceName)
  unfold adjudicate foldProposal
  dsimp only
  rw [hfold]
  dsimp only
  by_cases hlt : ourProposal ours < SortedFold.ascending (pp.elements ours.instanceName)
  · rw [if_pos hlt]
    exact if_pos (hwins.mpr hlt)
  · rw [if_neg hlt]
    exact if_neg fun hw => hlt (hwins.mp hw)

def unreadable (questions : List (Except ParseError QuestionRef)) (name : Name) :
    Except ParseError Ref → Prop
  | .error _ => True
  | .ok r => nameFullyDecodes r.name = false ∨
      inScope questions name r = true ∧ (r.writeCanonicalRdata .asSent).isOk = false

theorem foldAuthority_unreadable (name : Name) (hroot : name.text ≠ [])
    (questions : List (Except ParseError QuestionRef)) (items : List (Except ParseError Ref))
    (item : Except ParseError Ref) (hmem : item ∈ items)
    (hitem : unreadable questions name item) (f : ProposalFold) :
    ∃ why, foldAuthority questions name items f = .error why := by
  induction items generalizing f with
  | nil => cases hmem
  | cons first rest ih =>
    cases first with
    | error e => exact ⟨_, rfl⟩
    | ok r =>
      unfold foldAuthority
      cases hdec : nameFullyDecodes r.name with
      | false => exact ⟨.undecodableOwnerName, rfl⟩
      | true =>
        rw [Bool.not_true, if_neg Bool.false_ne_true]
        cases hadmits : ProposalScope.admits questions name r with
        | error e => exact ⟨.unreadableQuestions, rfl⟩
        | ok admission =>
          have hscope := admits_inScope name hroot questions r admission hadmits
          have hlater : item ∈ rest ∨ inScope questions name r = true ∧
              (r.writeCanonicalRdata .asSent).isOk = false := by
            rcases List.mem_cons.mp hmem with hfirst | hlater
            · rw [hfirst] at hitem
              rcases hitem with hname | hrdata
              · rw [hdec] at hname
                cases hname
              · exact .inr hrdata
            · exact .inl hlater
          cases admission with
          | notOurs why =>
            rcases hlater with hlater | ⟨hin, -⟩
            · exact ih hlater f
            · cases hscope.mpr hin
          | ours =>
            dsimp only
            cases hcanonical : r.writeCanonicalRdata .asSent with
            | error e => exact ⟨.undecodableRdata, rfl⟩
            | ok rdata =>
              rcases hlater with hlater | ⟨-, hbad⟩
              · exact ih hlater _
              · rw [hcanonical] at hbad
                cases hbad

theorem adjudicate_unreadable (ours : ServiceRecords) (hroot : ours.instanceName.text ≠ [])
    (pp : ProbeProposal) (item : Except ParseError Ref) (hmem : item ∈ pp.authority)
    (hitem : unreadable pp.questions ours.instanceName item) :
    ∃ why, adjudicate pp ours = .abandoned why := by
  obtain ⟨why, hfold⟩ := foldAuthority_unreadable ours.instanceName hroot pp.questions
    pp.authority item hmem hitem (ProposalFold.new (ourProposal ours).length)
  refine ⟨why, ?_⟩
  unfold adjudicate foldProposal
  dsimp only
  rw [hfold]

theorem Service.abandons {I R : Type} {EV : Type → Type} [Instant I] [SeedableRng R] [Pool EV]
    (s : Service I R EV) (pp : ProbeProposal) (why : Abandon)
    (h : adjudicate pp s.records = .abandoned why) (now : I) (flood : ConflictFlood I) :
    s.contestProposed pp now flood = (s, flood) := by
  unfold Service.contestProposed Service.handleProbeProposal
  rw [h]
  rfl

theorem Service.receive_latches {I R : Type} {EV : Type → Type} [Instant I] [SeedableRng R]
    [Pool EV] (s : Service I R EV) (event : ServiceEvent) (now : I) :
    (s.receive event now).records = s.records ∧
      (s.receive event now).tiebreakLost = s.tiebreakLost ∧
      (s.receive event now).probeDefeated = s.probeDefeated := by
  unfold Service.receive
  cases event.datagram with
  | none => exact ⟨rfl, rfl, rfl⟩
  | some datagram =>
    unfold Service.floodEligible
    dsimp only
    split
    · split <;> exact ⟨rfl, rfl, rfl⟩
    · exact ⟨rfl, rfl, rfl⟩

theorem Service.event_abandons {I R : Type} {EV : Type → Type} [Instant I] [SeedableRng R]
    [Pool EV] (s : Service I R EV) (pp : ProbeProposal) (why : Abandon)
    (h : adjudicate pp s.records = .abandoned why) (now : I) (flood : ConflictFlood I) :
    s.handleEvent (.probeProposal pp) now flood = (s.receive (.probeProposal pp) now, flood) := by
  have hrecords := (s.receive_latches (.probeProposal pp) now).1
  unfold Service.handleEvent
  dsimp only
  split
  · rfl
  · rfl
  · rfl
  · unfold Service.dispatchEvent
    dsimp only
    split
    · exact Service.abandons _ pp why (by rw [hrecords]; exact h) now flood
    · rfl

/-- For every record set whose instance name is not the root and every message: where all can be
read, the verdict is that of the sorted lists, whatever the order the records were sent in; where a
record cannot be read, there is none and nothing changes. -/
theorem adjudicate_is_reference_tiebreak (ours : ServiceRecords)
    (hroot : ours.instanceName.text ≠ []) :
    (∀ pp : ProbeProposal, pp.Reads ours.instanceName →
      adjudicate pp ours =
        if ourProposal ours < SortedFold.ascending (pp.elements ours.instanceName)
        then .peerWins else .weHold) ∧
    (∀ pp pp' : ProbeProposal, pp.Reads ours.instanceName → pp'.Reads ours.instanceName →
      (pp.elements ours.instanceName).Perm (pp'.elements ours.instanceName) →
        adjudicate pp ours = adjudicate pp' ours) ∧
    ∀ pp : ProbeProposal, (∃ item ∈ pp.authority,
        unreadable pp.questions ours.instanceName item) →
      (∃ why, adjudicate pp ours = .abandoned why) ∧
        ∀ (I R : Type) (EV : Type → Type) [Instant I] [SeedableRng R] [Pool EV]
          (s : Service I R EV) (now : I) (flood : ConflictFlood I), s.records = ours →
          (s.handleEvent (.probeProposal pp) now flood).2 = flood ∧
            (s.handleEvent (.probeProposal pp) now flood).1.tiebreakLost = s.tiebreakLost ∧
            (s.handleEvent (.probeProposal pp) now flood).1.probeDefeated = s.probeDefeated := by
  refine ⟨adjudicate_elements ours hroot, ?_, ?_⟩
  · intro pp pp' h h' hperm
    have hsorted : SortedFold.ascending (pp.elements ours.instanceName) =
        SortedFold.ascending (pp'.elements ours.instanceName) :=
      List.Perm.eq_of_pairwise' (r := (· ≤ ·)) (List.pairwise_insertionSort (· ≤ ·) _)
        (List.pairwise_insertionSort (· ≤ ·) _)
        ((List.perm_insertionSort _ _).trans (hperm.trans (List.perm_insertionSort _ _).symm))
    rw [adjudicate_elements ours hroot pp h, adjudicate_elements ours hroot pp' h', hsorted]
  · intro pp hbad
    obtain ⟨item, hmem, hitem⟩ := hbad
    obtain ⟨why, hwhy⟩ := adjudicate_unreadable ours hroot pp item hmem hitem
    refine ⟨⟨why, hwhy⟩, ?_⟩
    intro I R EV _ _ _ s now flood hs
    rw [s.event_abandons pp why (by rw [hs]; exact hwhy) now flood]
    exact ⟨rfl, (s.receive_latches _ now).2⟩

def probedProposal (records : ServiceRecords) : Option ProbeProposal :=
  match writeProbe records (List.replicate 256 0) with
  | .error _ => none
  | .ok (msg, _) =>
    match MessageReader.tryParse msg.octets with
    | .error _ => none
    | .ok reader => some ⟨multicastDst, reader, ⟨0⟩⟩

theorem adjudicate_is_reference_tiebreak_printer :
    ∃ pp, probedProposal { ServiceRecords.printer with port := 9100 } = some pp ∧
      adjudicate pp ServiceRecords.printer =
        if ourProposal ServiceRecords.printer <
          SortedFold.ascending (pp.elements ServiceRecords.printer.instanceName)
        then .peerWins else .weHold := by
  obtain ⟨pp, hpp⟩ := Option.isSome_iff_exists.mp (show (probedProposal
    { ServiceRecords.printer with port := 9100 }).isSome = true by decide +kernel)
  have hreads : ∀ pp ∈ probedProposal { ServiceRecords.printer with port := 9100 },
      pp.Reads ServiceRecords.printer.instanceName := by decide +kernel
  exact ⟨pp, hpp, (adjudicate_is_reference_tiebreak ServiceRecords.printer (by decide +kernel)).1
    pp (hreads pp hpp)⟩

/-- At the root no record is in the code's scope, so the later list does not win. -/
theorem root_tiebreak_is_not_reference :
    ∃ pp, probedProposal (rootProber 81) = some pp ∧ pp.Reads (rootProber 80).instanceName ∧
      ourProposal (rootProber 80) <
        SortedFold.ascending (pp.elements (rootProber 80).instanceName) ∧
      adjudicate pp (rootProber 80) = .weHold := by
  obtain ⟨pp, hpp⟩ := Option.isSome_iff_exists.mp
    (show (probedProposal (rootProber 81)).isSome = true by decide +kernel)
  have hall : ∀ pp ∈ probedProposal (rootProber 81), pp.Reads (rootProber 80).instanceName ∧
      ourProposal (rootProber 80) <
        SortedFold.ascending (pp.elements (rootProber 80).instanceName) ∧
      adjudicate pp (rootProber 80) = .weHold := by decide +kernel
  exact ⟨pp, hpp, hall pp hpp⟩

end Hick
