import Mathlib
import Hick.Service.Forms
import Hick.Service.Proposal

/-!
# The tiebreak over real probes (service/proposal.rs, service/respond.rs:152-183)

The set a host compares as its own is the set its probe carries, so two hosts that read each
other's probes compare the same two lists and come to opposite verdicts.
-/

namespace Hick
open Octets LabelSeq Wire Respond

/-- Each authority record owned by `name`, as its type followed by its rdata as sent. -/
def collectOwned (name : Name) : List (Except ParseError Ref) → Except ParseError (List Bytes)
  | [] => .ok []
  | .error e :: _ => .error e
  | .ok r :: rest =>
    if r.name.labels = name.labels.map .ok then
      match r.writeCanonicalRdata .asSent, collectOwned name rest with
      | .ok rdata, .ok elems => .ok (proposalElement r.rtype rdata :: elems)
      | .error e, _ => .error e
      | _, .error e => .error e
    else collectOwned name rest

theorem labels_map_ok (xs ys : List Label) :
    xs.map (Except.ok (ε := ParseError)) = ys.map .ok ↔ xs = ys :=
  (List.map_injective_iff.mpr fun a b hab => by injection hab).eq_iff

theorem collectOwned_reads (m : Bytes) (name : Name) (items : List (Except ParseError Ref))
    (es : List RecordEntry) (h : List.Forall₂ (IsRecord m) items es) :
    collectOwned name items = .ok (es.filterMap (scopedElement name)) := by
  induction h with
  | nil => rfl
  | @cons item e items es he hes ih =>
    obtain ⟨r, rfl, hr, _⟩ := he
    have hname : r.name.labels = e.owner.labels.map .ok := hr.name
    simp only [collectOwned, hname, labels_map_ok, List.filterMap_cons, scopedElement]
    by_cases ho : e.owner.labels = name.labels
    · simp only [ho, if_true, hr.canonical, hr.rtype, ih]
    · simp only [ho, if_false, ih]

theorem probe_txt_fits (m : Bytes) (records : ServiceRecords)
    (items : List (Except ParseError Ref))
    (h : List.Forall₂ (IsRecord m) items (probeContents records).authority) :
    ∀ s ∈ records.txt, s.length ≤ 255 := by
  simp only [probeContents] at h
  obtain ⟨_, _, _, hrest, _⟩ := List.forall₂_cons_right_iff.mp h
  obtain ⟨_, _, ⟨r, _, hr, _⟩, _, _⟩ := List.forall₂_cons_right_iff.mp hrest
  exact hr.fits records.txt rfl

theorem probe_scoped (records : ServiceRecords) (name : Name)
    (hname : name.labels = records.instanceName.labels)
    (hfit : ∀ s ∈ records.txt, s.length ≤ 255) :
    (probeContents records).authority.filterMap (scopedElement name) = proposedSet records := by
  have hsrv : scopedElement name (srvEntry records .authority records.ttlSecs false) =
      some (proposalElement .srv (srvRdata records)) := by
    simp only [scopedElement, srvEntry, hname, if_true, EntryData.rtype, EntryData.canonical,
      srvRdata_eq]
  have htxt : scopedElement name (txtEntry records .authority records.ttlSecs false) =
      some (proposalElement .txt (writeCanonicalTxt records.txt)) := by
    simp only [scopedElement, txtEntry, hname, if_true, EntryData.rtype, EntryData.canonical,
      writeCanonicalTxt_eq records.txt hfit]
  simp only [probeContents, List.filterMap_cons, hsrv, htxt, proposedSet, List.filterMap_append,
    List.filterMap_map]
  by_cases hhost : records.host.labels = records.instanceName.labels
  · have hown : records.instanceName.sameOwner records.host = true :=
      (Name.sameOwner_iff _ _).mpr hhost.symm
    have ha : (scopedElement name ∘ aEntry records .authority records.ttlSecs false) =
        fun a => some (proposalElement .a a.octets) := by
      funext a
      simp only [Function.comp, scopedElement, aEntry, hhost, hname, if_true, EntryData.rtype,
        EntryData.canonical]
    have haaaa : (scopedElement name ∘ aaaaEntry records .authority records.ttlSecs false) =
        fun a => some (proposalElement .aaaa a.octets) := by
      funext a
      simp only [Function.comp, scopedElement, aaaaEntry, hhost, hname, if_true,
        EntryData.rtype, EntryData.canonical]
    simp only [hown, if_true, ha, haaaa]
    simp only [List.filterMap_eq_map']
  · have hown : records.instanceName.sameOwner records.host = false := by
      rw [Bool.eq_false_iff]
      exact fun h => hhost ((Name.sameOwner_iff _ _).mp h).symm
    have ha : (scopedElement name ∘ aEntry records .authority records.ttlSecs false) =
        fun _ => none := by
      funext a
      simp only [Function.comp, scopedElement, aEntry, hhost, hname, if_false]
    have haaaa : (scopedElement name ∘ aaaaEntry records .authority records.ttlSecs false) =
        fun _ => none := by
      funext a
      simp only [Function.comp, scopedElement, aaaaEntry, hhost, hname, if_false]
    simp only [hown, ha, haaaa, Bool.false_eq_true, if_false, List.filterMap_none,
      List.append_nil]

/-- The set that a probe carries, read off the wire and sorted, is `our_proposal`. -/
theorem probe_carries_our_proposal (records : ServiceRecords) (out : Bytes) (msg : Message)
    (h : writeProbe records out = .ok (msg, ())) (hlen : msg.octets.length ≤ 16384)
    (hhash : NoSuffixCollision (ownNames records)) :
    ∃ reader elems, MessageReader.tryParse msg.octets = .ok reader ∧
      collectOwned records.instanceName reader.authority = .ok elems ∧
      SortedFold.ascending elems = ourProposal records := by
  have henc := writeProbe_spec records _ (fun _ hn => hn) out msg h
  obtain ⟨hparse, hreads⟩ := henc.reads hhash hlen
  have hauth := hreads.records .authority
  refine ⟨_, _, hparse, collectOwned_reads _ _ _ _ hauth, ?_⟩
  have hfit := probe_txt_fits _ records _ hauth
  rw [ourProposal]
  exact congrArg _ (probe_scoped records records.instanceName rfl hfit)

theorem printer_probe_carries_its_proposal :
    ∃ msg, writeProbe ServiceRecords.printer (List.replicate 256 0) = .ok (msg, ()) ∧
      ∃ reader elems, MessageReader.tryParse msg.octets = .ok reader ∧
        collectOwned ServiceRecords.printer.instanceName reader.authority = .ok elems ∧
        SortedFold.ascending elems = ourProposal ServiceRecords.printer := by
  have hfits : encodedLength (writeProbe ServiceRecords.printer (List.replicate 256 0)) =
      some 79 := by decide +kernel
  obtain ⟨msg, _, hmsg, hlen⟩ := encodedLength_some _ _ hfits
  exact ⟨msg, hmsg, probe_carries_our_proposal ServiceRecords.printer (List.replicate 256 0) msg
    hmsg (by omega) (by decide +kernel)⟩

theorem adjudicate_probe (ours theirs : ServiceRecords) (out : Bytes) (msg : Message)
    (h : writeProbe theirs out = .ok (msg, ())) (hlen : msg.octets.length ≤ 16384)
    (hhash : NoSuffixCollision (ownNames theirs))
    (hsame : ours.instanceName.sameOwner theirs.instanceName = true)
    (hroot : ours.instanceName.text ≠ []) (src : SocketAddr) (datagram : DatagramId)
    (reader : MessageReader) (hparse : MessageReader.tryParse msg.octets = .ok reader) :
    adjudicate ⟨src, reader, datagram⟩ ours =
      if ourProposal ours < ourProposal theirs then .peerWins else .weHold := by
  have henc := writeProbe_spec theirs _ (fun _ hn => hn) out msg h
  obtain ⟨hparse', hreads⟩ := henc.reads hhash hlen
  rw [hparse] at hparse'
  obtain rfl : reader = ⟨msg.octets, msg.header⟩ := by injection hparse'
  have hlabels := (Name.sameOwner_iff _ _).mp hsame
  have hauth := hreads.records .authority
  have hq : readQuestions ours.instanceName (MessageReader.questions ⟨msg.octets, msg.header⟩) =
      .ok true :=
    readQuestions_reads _ hroot _ _ hreads.questions
      ⟨⟨theirs.instanceName, .any, .in_, true⟩, by simp [probeContents], hlabels.symm,
        questionClassBits_in _ rfl⟩
  have hfold := foldAuthority_reads msg.octets ours.instanceName hroot _ hq _ _ hauth
    (ProposalFold.new (ourProposal ours).length)
  have hscoped := probe_scoped theirs ours.instanceName hlabels (probe_txt_fits _ theirs _ hauth)
  have hsec : (⟨msg.octets, msg.header⟩ : MessageReader).sectionRecords .authority =
      MessageReader.authority ⟨msg.octets, msg.header⟩ := rfl
  have hcont : (probeContents theirs).sectionEntries .authority = (probeContents theirs).authority :=
    rfl
  rw [hsec, hcont, hscoped] at hfold
  unfold adjudicate foldProposal
  simp only [ProbeProposal.questions, ProbeProposal.authority, hfold]
  have hwins := peerWins_offers (ourProposal ours) (proposedSet theirs)
  by_cases hlt : ourProposal ours < ourProposal theirs
  · simp only [hwins.mpr hlt, if_true, hlt]
  · have hf : ((proposedSet theirs).foldl ProposalFold.offer
        (ProposalFold.new (ourProposal ours).length)).peerWins (ourProposal ours) = false := by
      rw [Bool.eq_false_iff]
      exact fun hw => hlt (hwins.mp hw)
    simp only [hf, Bool.false_eq_true, if_false, hlt]

/-- Hosts that read each other's probes for one name, other than the root, agree on the
outcome: both keep it when they propose the same set, else exactly one gives way. -/
theorem tiebreak_antisymmetric (A B : ServiceRecords) (outA outB : Bytes) (msgA msgB : Message)
    (hA : writeProbe A outA = .ok (msgA, ())) (hB : writeProbe B outB = .ok (msgB, ()))
    (hlenA : msgA.octets.length ≤ 16384) (hlenB : msgB.octets.length ≤ 16384)
    (hhashA : NoSuffixCollision (ownNames A)) (hhashB : NoSuffixCollision (ownNames B))
    (hsame : A.instanceName.sameOwner B.instanceName = true)
    (hroot : A.instanceName.text ≠ []) :
    ∃ readerA readerB, MessageReader.tryParse msgA.octets = .ok readerA ∧
      MessageReader.tryParse msgB.octets = .ok readerB ∧
      ∀ srcA srcB datagramA datagramB,
        (ourProposal A = ourProposal B →
          adjudicate ⟨srcB, readerB, datagramB⟩ A = .weHold ∧
            adjudicate ⟨srcA, readerA, datagramA⟩ B = .weHold) ∧
        (ourProposal A ≠ ourProposal B →
          (adjudicate ⟨srcB, readerB, datagramB⟩ A = .peerWins ∧
              adjudicate ⟨srcA, readerA, datagramA⟩ B = .weHold) ∨
            (adjudicate ⟨srcB, readerB, datagramB⟩ A = .weHold ∧
              adjudicate ⟨srcA, readerA, datagramA⟩ B = .peerWins)) ∧
        ∀ why, adjudicate ⟨srcB, readerB, datagramB⟩ A ≠ .abandoned why ∧
          adjudicate ⟨srcA, readerA, datagramA⟩ B ≠ .abandoned why := by
  have hrootB : B.instanceName.text ≠ [] := by
    rw [Ne, ← Name.labels_eq_nil, ← (Name.sameOwner_iff _ _).mp hsame, Name.labels_eq_nil]
    exact hroot
  have hsame' : B.instanceName.sameOwner A.instanceName = true := by
    rw [Name.sameOwner_comm]
    exact hsame
  have hparseA := ((writeProbe_spec A _ (fun _ hn => hn) outA msgA hA).reads hhashA hlenA).1
  have hparseB := ((writeProbe_spec B _ (fun _ hn => hn) outB msgB hB).reads hhashB hlenB).1
  refine ⟨_, _, hparseA, hparseB, fun srcA srcB datagramA datagramB => ?_⟩
  have vA := adjudicate_probe A B outB msgB hB hlenB hhashB hsame hroot srcB datagramB _ hparseB
  have vB := adjudicate_probe B A outA msgA hA hlenA hhashA hsame' hrootB srcA datagramA _ hparseA
  rw [vA, vB]
  refine ⟨fun heq => ?_, fun hne => ?_, fun why => ⟨?_, ?_⟩⟩
  · rw [heq, if_neg (lt_irrefl _)]
    exact ⟨rfl, rfl⟩
  · rcases lt_or_gt_of_ne hne with hlt | hgt
    · rw [if_pos hlt, if_neg (lt_asymm hlt)]
      exact .inl ⟨rfl, rfl⟩
    · rw [if_neg (lt_asymm hgt), if_pos hgt]
      exact .inr ⟨rfl, rfl⟩
  · split <;> simp
  · split <;> simp

theorem printers_settle_their_tiebreak :
    ∃ msgA msgB, writeProbe ServiceRecords.printer (List.replicate 256 0) = .ok (msgA, ()) ∧
      writeProbe { ServiceRecords.printer with port := 9100 } (List.replicate 256 0) =
        .ok (msgB, ()) ∧
      ∃ readerA readerB, MessageReader.tryParse msgA.octets = .ok readerA ∧
        MessageReader.tryParse msgB.octets = .ok readerB ∧
        ∀ src datagram,
          adjudicate ⟨src, readerB, datagram⟩ ServiceRecords.printer = .peerWins ∧
              adjudicate ⟨src, readerA, datagram⟩ { ServiceRecords.printer with port := 9100 } =
                .weHold ∨
            adjudicate ⟨src, readerB, datagram⟩ ServiceRecords.printer = .weHold ∧
              adjudicate ⟨src, readerA, datagram⟩ { ServiceRecords.printer with port := 9100 } =
                .peerWins := by
  have hfitsA : encodedLength (writeProbe ServiceRecords.printer (List.replicate 256 0)) =
      some 79 := by decide +kernel
  have hfitsB : encodedLength (writeProbe { ServiceRecords.printer with port := 9100 }
      (List.replicate 256 0)) = some 79 := by decide +kernel
  obtain ⟨msgA, _, hA, hlenA⟩ := encodedLength_some _ _ hfitsA
  obtain ⟨msgB, _, hB, hlenB⟩ := encodedLength_some _ _ hfitsB
  obtain ⟨readerA, readerB, hpA, hpB, h⟩ := tiebreak_antisymmetric ServiceRecords.printer
    { ServiceRecords.printer with port := 9100 } _ _ msgA msgB hA hB (by omega) (by omega)
    (by decide +kernel) (by decide +kernel) (by decide +kernel) (by decide +kernel)
  refine ⟨msgA, msgB, hA, hB, readerA, readerB, hpA, hpB, fun src datagram => ?_⟩
  exact (h src src datagram datagram).2.1 (by decide +kernel)

def rootName : Name := ⟨[], by decide, by decide⟩

def rootProber (port : UInt16) : ServiceRecords :=
  ServiceRecords.new ServiceRecords.printerType rootName ServiceRecords.printerHost port 120

def verdictOver (ours theirs : ServiceRecords) (out : Bytes) : Option Verdict :=
  match writeProbe theirs out with
  | .error _ => none
  | .ok (msg, _) =>
    match MessageReader.tryParse msg.octets with
    | .error _ => none
    | .ok reader => some (adjudicate ⟨multicastDst, reader, ⟨0⟩⟩ ours)

/-- At the root no name matches, so different proposals are held on both sides. -/
theorem root_probers_both_hold :
    (rootProber 80).instanceName.sameOwner (rootProber 81).instanceName = true ∧
      NoSuffixCollision (ownNames (rootProber 80)) ∧
      NoSuffixCollision (ownNames (rootProber 81)) ∧
      ourProposal (rootProber 80) ≠ ourProposal (rootProber 81) ∧
      verdictOver (rootProber 80) (rootProber 81) (List.replicate 256 0) = some .weHold ∧
      verdictOver (rootProber 81) (rootProber 80) (List.replicate 256 0) = some .weHold := by
  decide +kernel

end Hick
