import Hick.Endpoint.Screen
import Hick.Routing.Verdicts
import Hick.Service.Reports

/-!
# Our own echo (service/mod.rs:2864-2958, service/mod.rs:3870-3922, endpoint/admits.rs:122-141)

A datagram of a service that comes back is routed and adjudicated as a peer's would be.
-/

set_option linter.unusedSectionVars false

namespace Hick
open Octets LabelSeq Wire Respond Drain Runs

inductive ServiceRecords.Holds (records : ServiceRecords) : Name → EntryData → Prop
  | ptr : Holds records records.serviceType (.ptr records.instanceName)
  | subtype (sub : Name) (h : sub ∈ records.subtypes) :
    Holds records sub (.ptr records.instanceName)
  | srv : Holds records records.instanceName
      (.srv records.priority records.weight records.port records.host)
  | txt : Holds records records.instanceName (.txt records.txt)
  | nsec : Holds records records.instanceName
      (.nsec records.instanceName (emittedNsecTypes records))
  | a (addr : Ipv4Addr) (h : addr ∈ records.aAddrs) : Holds records records.host (.a addr)
  | aaaa (addr : Ipv6Addr) (h : addr ∈ records.aaaaAddrs) :
    Holds records records.host (.aaaa addr)

structure RouteView.Of (v : RouteView) (records : ServiceRecords) : Prop where
  name : v.name.labels = records.instanceName.labels
  host : v.host = records.host
  aAddrs : v.aAddrs = records.aAddrs
  aaaaAddrs : v.aaaaAddrs = records.aaaaAddrs

section
variable (records : ServiceRecords)

theorem holds_at_instance (hreg : Registrable records) (owner : Name) (data : EntryData)
    (h : records.Holds owner data) (hat : owner.labels = records.instanceName.labels) :
    data.rtype = .srv ∨ data.rtype = .txt ∨ data.rtype = .nsec ∨
      isHostConflictRtype data.rtype = true := by
  cases h with
  | ptr => exact absurd hat (records.type_ne_instance hreg)
  | subtype _ hsub =>
    exact absurd hat (records.subtype_ne_child _ records.instanceName hsub hreg.parent)
  | srv => exact .inl rfl
  | txt => exact .inr (.inl rfl)
  | nsec => exact .inr (.inr (.inl rfl))
  | a addr _ => exact .inr (.inr (.inr rfl))
  | aaaa addr _ => exact .inr (.inr (.inr rfl))

theorem classifyHostRdata_own (e : RecordEntry) (h : records.Holds e.owner e.data) (r : Ref)
    (hr : Wire.Reads r e) (ht : isHostConflictRtype r.rtype = true) :
    classifyHostRdata records r = .identical := by
  obtain ⟨v, hv, hviews⟩ := hr.view
  rw [hr.rtype] at ht
  have hne : ∀ {α : Type} (xs : List α) (x : α), x ∈ xs → xs.isEmpty = false := by
    intro α xs x hx
    exact List.isEmpty_eq_false_iff.mpr (List.ne_nil_of_mem hx)
  unfold classifyHostRdata
  generalize e.owner = owner at h
  generalize e.data = data at h ht hviews
  cases h with
  | a addr hmem =>
    have hv' : v = .a addr := hviews
    rw [hv, hv']
    simp only [hne _ _ hmem, Bool.false_eq_true, if_false, List.contains_iff_mem.mpr hmem]
    rfl
  | aaaa addr hmem =>
    have hv' : v = .aaaa addr := hviews
    rw [hv, hv']
    simp only [hne _ _ hmem, Bool.false_eq_true, if_false, List.contains_iff_mem.mpr hmem]
    rfl
  | ptr => cases ht
  | subtype sub hsub => cases ht
  | srv => cases ht
  | txt => cases ht
  | nsec => cases ht

theorem classifyInstanceRdata_own (e : RecordEntry) (h : records.Holds e.owner e.data) (r : Ref)
    (hr : Wire.Reads r e)
    (ht : e.data.rtype = .srv ∨ e.data.rtype = .txt ∨ e.data.rtype = .nsec) :
    classifyInstanceRdata records r = .identical := by
  have hrdata : r.canonicalRdataFolded = .ok e.data.canonical := hr.canonical .folded
  have hform : e.data.canonical ∈ canonicalRdataForms records e.data.rtype := by
    have hfits := hr.fits
    generalize e.owner = owner at h
    generalize e.data = data at h ht hfits
    cases h with
    | srv =>
      have hsrv := srvRdata_eq records
      exact List.mem_singleton.mpr hsrv.symm
    | txt =>
      have htxt := writeCanonicalTxt_eq records.txt (hfits records.txt rfl)
      exact List.mem_singleton.mpr htxt.symm
    | nsec =>
      have hnsec := nsecIdentity_eq records (emittedNsecTypes records)
      have hmem := emittedNsecIdentity_mem records
      rw [emittedNsecIdentity, hnsec] at hmem
      exact hmem
    | ptr => simp [EntryData.rtype] at ht
    | subtype sub hsub => simp [EntryData.rtype] at ht
    | a addr _ => simp [EntryData.rtype] at ht
    | aaaa addr _ => simp [EntryData.rtype] at ht
  unfold classifyInstanceRdata
  rw [hrdata, hr.rtype]
  have hany : ((canonicalRdataForms records e.data.rtype).any fun form =>
      form == e.data.canonical) = true :=
    List.any_eq_true.mpr ⟨_, hform, beq_self_eq_true _⟩
  simp only [hany]
  rfl

theorem hostRole_own (v : RouteView) (hv : v.Of records) (e : RecordEntry)
    (h : records.Holds e.owner e.data) (r : Ref) (hr : Wire.Reads r e)
    (ht : isHostConflictRtype e.data.rtype = true) (hat : namesMatchRecord v.name r = true) :
    v.hostRole r = true := by
  have hmatch := namesMatch_names
  obtain ⟨hroot, howner⟩ := (hmatch v.name e.owner r.name hr.name).mp hat
  unfold RouteView.hostRole
  rw [hr.rtype]
  have hname := hr.name
  generalize e.owner = owner at h hname howner
  generalize e.data = data at h ht
  have hhost : owner = records.host → namesMatchRecord v.host r = true := by
    intro heq
    refine (hmatch v.host owner r.name hname).mpr ⟨?_, by rw [hv.host, heq]⟩
    intro hnil
    apply hroot
    rw [← v.name.labels_eq_nil, ← howner, heq, ← hv.host, v.host.labels_eq_nil]
    exact hnil
  cases h with
  | a addr hmem =>
    have hpub : v.publishesHostRtype .a = true := by
      change (!v.aAddrs.isEmpty) = true
      rw [hv.aAddrs, List.isEmpty_eq_false_iff.mpr (List.ne_nil_of_mem hmem)]
      rfl
    rw [hhost rfl]
    exact hpub
  | aaaa addr hmem =>
    have hpub : v.publishesHostRtype .aaaa = true := by
      change (!v.aaaaAddrs.isEmpty) = true
      rw [hv.aaaaAddrs, List.isEmpty_eq_false_iff.mpr (List.ne_nil_of_mem hmem)]
      rfl
    rw [hhost rfl]
    exact hpub
  | ptr => cases ht
  | subtype sub hsub => cases ht
  | srv => cases ht
  | txt => cases ht
  | nsec => cases ht

def CandidateFor (r : Ref) (v : RouteView) (event : ServiceEvent) : Prop :=
  (∃ src origin datagram history, conflictOf src r origin datagram history v = some event) ∨
    ∃ origin datagram, hostConflictOf r origin datagram v = some event

theorem candidate_classified (r : Ref) (v : RouteView) (event : ServiceEvent)
    (h : CandidateFor r v event) :
    (v.hostRole r = true ∧ classifyEvent records event = classifyHostRdata records r) ∨
      (v.hostRole r = false ∧ namesMatchRecord v.name r = true ∧
        classifyEvent records event = classifyInstanceRdata records r) := by
  rcases h with ⟨src, origin, datagram, history, h⟩ | ⟨origin, datagram, h⟩
  · unfold conflictOf at h
    split at h
    · cases h
    · split at h
      · rename_i hrole
        split at h
        · cases h
          exact .inl ⟨hrole, rfl⟩
        · split at h
          · cases h
            exact .inl ⟨hrole, rfl⟩
          · cases h
      · rename_i hrole
        split at h
        · rename_i hname
          cases h
          exact .inr ⟨Bool.eq_false_iff.mpr hrole, hname, rfl⟩
        · cases h
  · unfold hostConflictOf at h
    split at h
    · cases h
    · split at h
      · rename_i hrole
        cases h
        exact .inl ⟨hrole, rfl⟩
      · cases h

theorem hostRole_rtype (v : RouteView) (r : Ref) (h : v.hostRole r = true) :
    isHostConflictRtype r.rtype = true := by
  unfold RouteView.hostRole at h
  exact (Bool.and_eq_true_iff.mp (Bool.and_eq_true_iff.mp h).1).2

theorem own_candidate_identical (hreg : Registrable records) (v : RouteView) (hv : v.Of records)
    (e : RecordEntry) (h : records.Holds e.owner e.data) (r : Ref) (hr : Wire.Reads r e)
    (event : ServiceEvent) (hc : CandidateFor r v event) :
    classifyEvent records event = .identical := by
  rcases candidate_classified records r v event hc with ⟨hrole, hclass⟩ | ⟨hrole, hname, hclass⟩
  · rw [hclass]
    exact classifyHostRdata_own records e h r hr (hostRole_rtype v r hrole)
  · rw [hclass]
    have hat : e.owner.labels = records.instanceName.labels := by
      rw [← hv.name]
      exact ((namesMatch_names v.name e.owner r.name hr.name).mp hname).2
    rcases holds_at_instance records hreg e.owner e.data h hat with ht | ht | ht | ht
    · exact classifyInstanceRdata_own records e h r hr (.inl ht)
    · exact classifyInstanceRdata_own records e h r hr (.inr (.inl ht))
    · exact classifyInstanceRdata_own records e h r hr (.inr (.inr ht))
    · rw [hostRole_own records v hv e h r hr ht hname] at hrole
      cases hrole

theorem undecodable_candidate_invalid (r : Ref) (v : RouteView) (event : ServiceEvent)
    (hc : CandidateFor r v event) (err : ParseError) (h : r.canonicalRdataFolded = .error err) :
    classifyEvent records event = .invalid := by
  rcases candidate_classified records r v event hc with ⟨hrole, hclass⟩ | ⟨hrole, hname, hclass⟩
  · rw [hclass]
    have hview : ∃ err, r.rdataView = .error err := by
      have ht := hostRole_rtype v r hrole
      unfold Ref.canonicalRdataFolded Ref.writeCanonicalRdata at h
      cases hv : r.rdataView with
      | error err => exact ⟨err, rfl⟩
      | ok view =>
        rw [hv] at h
        unfold isHostConflictRtype at ht
        rw [Bool.or_eq_true, beq_iff_eq, beq_iff_eq] at ht
        rcases ht with ht | ht
        · simp only [Ref.rdataView, ht] at hv
          obtain ⟨a, ha⟩ := map_eq_ok _ _ _ hv
          subst ha
          cases h
        · simp only [Ref.rdataView, ht] at hv
          obtain ⟨a, ha⟩ := map_eq_ok _ _ _ hv
          subst ha
          cases h
    obtain ⟨err', hview⟩ := hview
    unfold classifyHostRdata
    rw [hview]
  · rw [hclass]
    unfold classifyInstanceRdata
    rw [h]

end

def ServiceEvent.contests : ServiceEvent → Bool
  | .probeConflict _ | .probeProposal _ | .hostConflict _ => true
  | .question _ | .knownAnswer _ => false

def contestsTo (key : Nat) (outputs : List RouteOutput) : List ServiceEvent :=
  outputs.filterMap fun o =>
    match o with
    | .service k event => if k = key ∧ event.contests = true then some event else none
    | _ => none

theorem mem_contestsTo (key : Nat) (outputs : List RouteOutput) (event : ServiceEvent) :
    event ∈ contestsTo key outputs ↔
      .service key event ∈ outputs ∧ event.contests = true := by
  unfold contestsTo
  rw [List.mem_filterMap]
  constructor
  · rintro ⟨o, ho, h⟩
    split at h
    · split at h
      · rename_i hkey
        cases h
        obtain ⟨rfl, hcontests⟩ := hkey
        exact ⟨ho, hcontests⟩
      · cases h
    · cases h
  · rintro ⟨ho, hcontests⟩
    exact ⟨_, ho, by simp [hcontests]⟩

section
variable {I : Type} {AN EvQ : Type → Type} [Instant I] [Pool AN] [Pool EvQ]

namespace Scene

def Contest (sc : Scene I AN EvQ) (v : RouteView) (event : ServiceEvent) : Prop :=
  (∃ sect r, .ok r ∈ sc.reader.sectionRecords sect ∧ CandidateFor r v event) ∨
    (sc.isResponse = false ∧ event = .probeProposal ⟨sc.src, sc.reader, sc.datagram⟩)

theorem contested_candidate (sc : Scene I AN EvQ) (sect : RecordSection) (r : Ref)
    (v : RouteView) (event : ServiceEvent) (h : sc.contested sect r v = some event) :
    CandidateFor r v event := by
  rw [contested] at h
  split at h
  · exact .inl ⟨_, _, _, _, h⟩
  · cases h

theorem proposed_candidate (sc : Scene I AN EvQ) (r : Ref) (v : RouteView)
    (event : ServiceEvent) (h : sc.proposed r v = some event) : CandidateFor r v event := by
  rw [proposed] at h
  split at h
  · exact .inr ⟨_, _, h⟩
  · cases h

theorem records_found (sc : Scene I AN EvQ) (event : Ref → RouteView → Option ServiceEvent)
    (outputs : Ref → List RouteOutput)
    (houtputs : ∀ r o, o ∈ outputs r → o ∈ sc.services (event r) 0 ∨ o ∈ sc.audience r 0)
    (items : List (Except ParseError Ref)) (key : Nat) (ev : ServiceEvent)
    (h : RouteOutput.service key ev ∈ walk outputs items) :
    ∃ r v, .ok r ∈ items ∧ (key, v) ∈ sc.table ∧ event r v = some ev := by
  obtain ⟨r, hitem, hr⟩ := mem_walk outputs items key ev h
  rcases houtputs r _ hr with hservice | haudience
  · obtain ⟨k, v, ev', htable, hev, heq⟩ := (sc.mem_services _ _).mp hservice
    cases heq
    exact ⟨r, v, hitem, htable, hev⟩
  · exact absurd haudience (sc.mem_audience r 0 key ev)

theorem routed_contest (sc : Scene I AN EvQ) (key : Nat) (event : ServiceEvent)
    (h : RouteOutput.service key event ∈ sc.routed) (hc : event.contests = true) :
    ∃ v, (key, v) ∈ sc.table ∧ sc.Contest v event := by
  rw [routed] at h
  split at h
  · cases h
  · simp only [List.mem_append] at h
    rcases h with (((h | h) | h) | h) | h
    · obtain ⟨sq, rfl⟩ := sc.questionsPart_question key event h
      cases hc
    · obtain ⟨r, v, hitem, htable, hev⟩ := sc.records_found sc.answered sc.answerOutputs
        (fun r o ho => List.mem_append.mp (mem_positive r _ o ho)) _ key event h
      rw [answered] at hev
      split at hev
      · exact ⟨v, htable, .inl ⟨.answer, r, hitem, sc.contested_candidate _ r v event hev⟩⟩
      · split at hev
        · rw [knownAnswerOf] at hev
          split at hev
          · cases hev
          · split at hev
            · cases hev
              cases hc
            · cases hev
        · cases hev
    · obtain ⟨rfl, hresponse, v, htable, -⟩ := sc.proposalsPart_proposal key event h
      exact ⟨v, htable, .inr ⟨hresponse, rfl⟩⟩
    · rw [authorityPart] at h
      split at h
      · obtain ⟨r, v, hitem, htable, hev⟩ := sc.records_found
          (fun r => if sc.isResponse then sc.contested .authority r else sc.proposed r)
          sc.authorityOutputs (fun r o ho => .inl (mem_positive r _ o ho)) _ key event h
        refine ⟨v, htable, .inl ⟨.authority, r, hitem, ?_⟩⟩
        split at hev
        · exact sc.contested_candidate _ r v event hev
        · exact sc.proposed_candidate r v event hev
      · cases h
    · rw [additionalPart] at h
      split at h
      · obtain ⟨r, v, hitem, htable, hev⟩ := sc.records_found (sc.contested .additional)
          sc.additionalOutputs (fun r o ho => List.mem_append.mp (mem_positive r _ o ho)) _ key
          event h
        exact ⟨v, htable, .inl ⟨.additional, r, hitem, sc.contested_candidate _ r v event hev⟩⟩
      · cases h

end Scene
end

namespace Endpoint
section
variable {I G R : Type} {SR EV : Type → Type} [Instant I] [SeedSource G] [SeedableRng R]
  [Pool SR] [Pool EV]

/-- The service of the route could be registered as it is, and the route has its addresses. -/
structure Registered (r : Route I R EV) : Prop where
  registrable : Registrable r.proto.records
  aAddrs : r.aAddrs = r.proto.records.aAddrs
  aaaaAddrs : r.aaaaAddrs = r.proto.records.aaaaAddrs

theorem Registered.same (r r' : Route I R EV) (h : Registered r) (ha : r'.aAddrs = r.aAddrs)
    (haaaa : r'.aaaaAddrs = r.aaaaAddrs) (hrecords : r'.proto.records = r.proto.records) :
    Registered r' := by
  constructor
  · rw [hrecords]
    exact h.registrable
  · rw [ha, hrecords]
    exact h.aAddrs
  · rw [haaaa, hrecords]
    exact h.aaaaAddrs

theorem Registered.timeout (r : Route I R EV) (h : Registered r) (c' : Core I) (now : I)
    (flood : ConflictFlood I) (heffect : TimeoutEffect r.proto.core now flood c') :
    Registrable c'.records ∧ r.aAddrs = c'.records.aAddrs ∧
      r.aaaaAddrs = c'.records.aaaaAddrs := by
  have hkept : Registrable r.proto.core.records ∧ r.aAddrs = r.proto.core.records.aAddrs ∧
      r.aaaaAddrs = r.proto.core.records.aaaaAddrs := ⟨h.registrable, h.aAddrs, h.aaaaAddrs⟩
  cases heffect with
  | waited hd hl => exact hkept
  | renamed hd name hname deadline =>
    exact ⟨Registrable.renamed _ name hkept.1 hname, hkept.2.1, hkept.2.2⟩
  | gaveUp hd => exact hkept
  | ticked hl c' hticks =>
    rw [ticks_records _ _ _ _ _ hticks]
    exact hkept

theorem Registered.moved (e : Endpoint I G R SR EV) (c : HostCall I) (key : Nat)
    (r r' : Route I R EV) (h : Registered r) (hmove : RouteMove e c key r r') :
    Registered r' := by
  obtain ⟨-, ha, haaaa, -⟩ := hmove.host e c key r r'
  rcases hmove.records e c key r r' with ⟨-, hrecords⟩ | ⟨-, c', heffect, hrecords⟩
  · exact h.same r r' ha haaaa hrecords
  · obtain ⟨hreg, ha', haaaa'⟩ := h.timeout r c' c.now e.flood heffect
    constructor
    · rw [hrecords]
      exact hreg
    · rw [ha, hrecords, ha']
    · rw [haaaa, hrecords, haaaa']

theorem registerChecks_ok (e : Endpoint I G R SR EV) (records : ServiceRecords) (u : Unit)
    (h : e.registerChecks records = .ok u) : Registrable records := by
  unfold registerChecks at h
  split at h
  · cases h
  · rename_i httl
    split at h
    · cases h
    · rename_i htype
      split at h
      · cases h
      · rename_i hparent
        have hparent' : records.serviceType.isParentOf records.instanceName = true := by
          simpa using hparent
        exact ⟨UInt32.not_lt.mp httl, htype, hparent'⟩

theorem fills_registered [LawfulPool SR] (e : Endpoint I G R SR EV) (c : HostCall I) (key : Nat)
    (r : Route I R EV) (hvacant : e.route key = none) (h : (e.next c).route key = some r) :
    Registered r := by
  obtain ⟨records, -, hchecks, seed, rfl⟩ := e.next_fills c key r hvacant h
  exact ⟨e.registerChecks_ok records () hchecks, rfl, rfl⟩

theorem registered_reachable [LawfulPool SR] (e : Endpoint I G R SR EV)
    (h : Reachable machine e) (key : Nat) (r : Route I R EV) (hr : e.route key = some r) :
    Registered r := by
  have hall : ∀ key r, e.route key = some r → Registered r := by
    apply Reachable.invariant machine (fun e : Endpoint I G R SR EV =>
      ∀ key r, e.route key = some r → Registered r) _ _ e h
    · intro e hfresh key r hr
      obtain ⟨config, rng, rfl⟩ := hfresh
      rw [tryNew_route] at hr
      cases hr
    · intro e c hinv _ key r hr
      cases hbefore : e.route key with
      | none => exact e.fills_registered c key r hbefore hr
      | some old =>
        rcases e.next_moves c key old hbefore with ⟨r', hr', hmoved⟩ | ⟨hnone, -⟩
        · have hr'' : (e.next c).route key = some r := hr
          rw [hr'] at hr''
          cases hr''
          exact (hinv key old hbefore).moved e c key old r hmoved
        · have hr'' : (e.next c).route key = some r := hr
          rw [hnone] at hr''
          cases hr''
  exact hall key r hr

theorem view_of [LawfulPool SR] (e : Endpoint I G R SR EV) (h : Reachable machine e) (key : Nat)
    (r : Route I R EV) (hr : e.route key = some r) : r.view.Of r.proto.records := by
  have hmirrors := mirrors_reachable e h key r hr
  have hregistered := registered_reachable e h key r hr
  exact ⟨hmirrors.name, hmirrors.host, hregistered.aAddrs, hregistered.aaaaAddrs⟩

end
end Endpoint

/-- The event is no conflict to a service with the records: its record is identical to ours, or
its proposal one we hold against. -/
def ServiceEvent.Harmless (records : ServiceRecords) : ServiceEvent → Prop
  | .probeProposal pp => adjudicate pp records = .weHold
  | event => classifyEvent records event = .identical

theorem ServiceEvent.harmless_of_identical (event : ServiceEvent) (records : ServiceRecords)
    (h : classifyEvent records event = .identical) : event.Harmless records := by
  cases event with
  | probeProposal pp => cases h
  | question sq => exact h
  | probeConflict pc => exact h
  | hostConflict hc => exact h
  | knownAnswer ka => exact h

namespace Service
section
variable {I R : Type} {EV : Type → Type} [Instant I] [SeedableRng R] [Pool EV]

/-- All that has changed is the last instant and the eligibility of the last datagram. -/
def Undisturbed (s s' : Service I R EV) : Prop :=
  s' = { s with
    lastNow := s'.lastNow
    floodEligibility := s'.floodEligibility }

theorem Undisturbed.trans (s₁ s₂ s₃ : Service I R EV) (h : s₁.Undisturbed s₂)
    (h' : s₂.Undisturbed s₃) : s₁.Undisturbed s₃ := by
  unfold Undisturbed at h h' ⊢
  rw [h'.trans (by rw [h])]

theorem Undisturbed.records (s s' : Service I R EV) (h : s.Undisturbed s') :
    s'.records = s.records := by
  unfold Undisturbed at h
  rw [h]

theorem receive_undisturbed (s : Service I R EV) (event : ServiceEvent) (now : I) :
    s.Undisturbed (s.receive event now) := by
  unfold receive
  cases event.datagram with
  | none => rfl
  | some datagram =>
    unfold floodEligible
    dsimp only
    split
    · split <;> rfl
    · rfl

theorem handleEvent_same (s : Service I R EV) (event : ServiceEvent) (now : I)
    (flood : ConflictFlood I)
    (h : classifyEvent s.records event = .identical ∨
      classifyEvent s.records event = .invalid) :
    s.handleEvent event now flood = (s.receive event now, flood) := by
  have hrecords := (s.receive_undisturbed event now).records
  unfold handleEvent
  rcases h with h | h
  · simp only [hrecords, h]
  · simp only [hrecords, h]

theorem handleEvent_held (s : Service I R EV) (pp : ProbeProposal) (now : I)
    (flood : ConflictFlood I) (h : adjudicate pp s.records = .weHold) :
    s.handleEvent (.probeProposal pp) now flood = (s.receive (.probeProposal pp) now, flood) := by
  have hrecords := (s.receive_undisturbed (.probeProposal pp) now).records
  have hdifferent : classifyEvent s.records (.probeProposal pp) = .different := rfl
  unfold handleEvent
  simp only [hrecords, hdifferent]
  unfold dispatchEvent
  dsimp only
  split
  · unfold contestProposed handleProbeProposal
    rw [hrecords, h]
    rfl
  · rfl

theorem handleEvent_harmless (s : Service I R EV) (event : ServiceEvent) (now : I)
    (flood : ConflictFlood I) (h : event.Harmless s.records) :
    s.handleEvent event now flood = (s.receive event now, flood) := by
  cases event with
  | probeProposal pp => exact s.handleEvent_held pp now flood h
  | question sq => exact s.handleEvent_same _ now flood (.inl h)
  | probeConflict pc => exact s.handleEvent_same _ now flood (.inl h)
  | hostConflict hc => exact s.handleEvent_same _ now flood (.inl h)
  | knownAnswer ka => exact s.handleEvent_same _ now flood (.inl h)

def deliver (s : Service I R EV) (now : I) (flood : ConflictFlood I)
    (events : List ServiceEvent) : Service I R EV × ConflictFlood I :=
  events.foldl (fun sf event => sf.1.handleEvent event now sf.2) (s, flood)

theorem deliver_harmless (s : Service I R EV) (now : I) (flood : ConflictFlood I)
    (events : List ServiceEvent) (h : ∀ event ∈ events, event.Harmless s.records) :
    s.Undisturbed (s.deliver now flood events).1 ∧ (s.deliver now flood events).2 = flood := by
  induction events generalizing s with
  | nil => exact ⟨rfl, rfl⟩
  | cons event events ih =>
    obtain ⟨hevent, hevents⟩ := List.forall_mem_cons.mp h
    have hfirst := s.receive_undisturbed event now
    have hstep : s.deliver now flood (event :: events) =
        (s.receive event now).deliver now flood events := by
      unfold deliver
      rw [List.foldl_cons, s.handleEvent_harmless event now flood hevent]
    obtain ⟨hrest, hflood⟩ := ih (s.receive event now) fun event' hmem => by
      rw [hfirst.records]
      exact hevents event' hmem
    rw [hstep]
    exact ⟨hfirst.trans _ _ _ hrest, hflood⟩

end
end Service

inductive OwnDatagram (records : ServiceRecords) (out : Bytes) (msg : Message) : Prop
  | response (emitted : EmittedRecords) (h : Reported records out .multicast msg emitted)
  | probe (h : writeProbe records out = .ok (msg, ()))

section
variable (records : ServiceRecords)

theorem emitted_holds (emitted : EmittedRecords) (ttl : UInt32) (flush : Bool)
    (ha : ∀ ip ∈ emitted.a, ip ∈ records.aAddrs)
    (haaaa : ∀ ip ∈ emitted.aaaa, ip ∈ records.aaaaAddrs) (e : RecordEntry)
    (he : e ∈ emitted.answers records ttl flush ++ emitted.additional records) :
    records.Holds e.owner e.data := by
  rcases mem_emitted records ttl flush emitted e he with rfl | ⟨sub, hsub, rfl⟩ | rfl | rfl |
    ⟨ip, hip, rfl⟩ | ⟨ip, hip, rfl⟩ | rfl
  · exact .ptr
  · exact .subtype sub hsub
  · exact .srv
  · exact .txt
  · exact .a ip (ha ip hip)
  · exact .aaaa ip (haaaa ip hip)
  · exact .nsec

theorem probe_holds (sect : RecordSection) (e : RecordEntry)
    (he : e ∈ (probeContents records).sectionEntries sect) : records.Holds e.owner e.data := by
  cases sect with
  | answer => cases he
  | additional => cases he
  | authority =>
    simp only [Contents.sectionEntries, probeContents, List.mem_cons, List.mem_append,
      List.mem_map] at he
    rcases he with rfl | rfl | ⟨ip, hip, rfl⟩ | ⟨ip, hip, rfl⟩
    · exact .srv
    · exact .txt
    · exact .a ip hip
    · exact .aaaa ip hip

theorem OwnDatagram.found (out : Bytes) (msg : Message) (h : OwnDatagram records out msg)
    (hs : msg.Sound records) (sect : RecordSection) (r : Ref) (hr : msg.Reads sect r) :
    ∃ e, records.Holds e.owner e.data ∧ Wire.Reads r e := by
  cases h with
  | response emitted h =>
    obtain ⟨ha, haaaa⟩ := h.addresses records out .multicast msg emitted
    obtain ⟨e, he, _, hreads⟩ := h.found records out msg emitted hs sect r hr
    exact ⟨e, emitted_holds records emitted _ _ ha haaaa e he, hreads⟩
  | probe h =>
    have hspec := writeProbe_spec records _ (own_subset records msg.names) out msg h
    obtain ⟨_, hfound, _⟩ := reads_iff _ _ msg _ hspec hs.suffixes hs.size
    obtain ⟨e, he, hreads⟩ := hfound sect r hr
    exact ⟨e, probe_holds records sect e he, hreads⟩

theorem OwnDatagram.harmless {I : Type} {AN EvQ : Type → Type} [Instant I] [Pool AN]
    [Pool EvQ] (hreg : Registrable records) (out : Bytes) (msg : Message)
    (h : OwnDatagram records out msg) (hs : msg.Sound records) (sc : Scene I AN EvQ)
    (hreader : MessageReader.tryParse msg.octets = .ok sc.reader) (v : RouteView)
    (hv : v.Of records) (event : ServiceEvent) (hc : sc.Contest v event) :
    event.Harmless records := by
  rcases hc with ⟨sect, r, hmem, hcandidate⟩ | ⟨hquery, rfl⟩
  · obtain ⟨e, hholds, hreads⟩ := h.found records out msg hs sect r ⟨_, hreader, hmem⟩
    have hclass := own_candidate_identical records hreg v hv e hholds r hreads event hcandidate
    exact event.harmless_of_identical _ hclass
  · cases h with
    | response emitted h =>
      have hresponse := h.isResponse records out msg emitted hs sc.reader hreader
      rw [Scene.isResponse, hresponse] at hquery
      cases hquery
    | probe h =>
      have hroot : records.instanceName.text ≠ [] := by
        obtain ⟨l, hl⟩ := (records.serviceType.isParentOf_iff _).mp hreg.parent
        rw [Ne, ← records.instanceName.labels_eq_nil, hl]
        exact List.cons_ne_nil _ _
      have hhash := hs.suffixes.mono (ownNames records) _ (own_subset records msg.names)
      have hverdict := adjudicate_probe records records out msg h hs.size hhash
        (Name.sameOwner_refl _) hroot sc.src sc.datagram sc.reader hreader
      rw [if_neg (lt_irrefl _)] at hverdict
      exact hverdict

end

section
variable {I G R : Type} {SR QS EV AN EvQ : Type → Type} [Instant I] [SeedSource G]
  [SeedableRng R] [Pool SR] [Pool QS] [OrderedPool SR] [OrderedPool QS] [Pool EV] [Pool AN]
  [Pool EvQ]

/-- An announcement, a response or a probe of a service, routed back to an endpoint where the
service or another with its records is registered, is no conflict to it: whatever of it is delivered
leaves the service as it was and the flood uncharged. -/
theorem own_echo_is_harmless (endpoint : Endpoint I G R SR EV)
    (hreach : Reachable Endpoint.machine endpoint) (key : Nat) (route : Route I R EV)
    (hroute : endpoint.route key = some route) (records : ServiceRecords)
    (hrecords : route.proto.records = records) (out : Bytes) (msg : Message)
    (hmsg : OwnDatagram records out msg) (hs : msg.Sound records) (reader : MessageReader)
    (hreader : MessageReader.tryParse msg.octets = .ok reader)
    (queries : QS (Query I AN EvQ)) (src : SocketAddr) (now : I) (datagram : DatagramId)
    (admits : Admits) :
    (∃ (outputs : List RouteOutput) (t : RouteEvents I G R SR QS EV AN EvQ),
      Drains RouteEvents.step
          (RouteEvents.handle endpoint queries src reader now datagram admits) outputs t ∧
        t.step = .stop ∧
      (∀ event ∈ contestsTo key outputs, event.Harmless records) ∧
      ∀ (s : Service I R EV) (at_ : I) (flood : ConflictFlood I), s.records = records →
        s.Undisturbed (s.deliver at_ flood (contestsTo key outputs)).1 ∧
          (s.deliver at_ flood (contestsTo key outputs)).2 = flood) ∧
    ∀ (r : Ref) (v : RouteView) (event : ServiceEvent), CandidateFor r v event →
      (∃ err, r.canonicalRdataFolded = .error err) →
        ∀ (s : Service I R EV) (at_ : I) (flood : ConflictFlood I),
          s.Undisturbed (s.handleEvent event at_ flood).1 ∧
            (s.handleEvent event at_ flood).2 = flood := by
  constructor
  · obtain ⟨t, hdrains, hstop, -⟩ := RouteEvents.new_drains endpoint
      (handledQueries now src reader admits queries) src reader now datagram admits _ rfl
    refine ⟨_, t, hdrains, hstop, ?_⟩
    have hreg := (Endpoint.registered_reachable endpoint hreach key route hroute).registrable
    have hview := endpoint.view_of hreach key route hroute
    rw [hrecords] at hreg hview
    have hharmless : ∀ event ∈ contestsTo key (RouteEvents.new endpoint
        (handledQueries now src reader admits queries) src reader now datagram
        admits).scene.routed, event.Harmless records := by
      intro event hmem
      obtain ⟨hrouted, hcontests⟩ := (mem_contestsTo _ _ _).mp hmem
      obtain ⟨v, htable, hcontest⟩ := Scene.routed_contest _ key event hrouted hcontests
      have hv : v = route.view := (RouteEvents.mem_table_iff endpoint key route hroute v).mp htable
      subst hv
      exact hmsg.harmless records hreg out msg hs _ hreader _ hview event hcontest
    refine ⟨hharmless, ?_⟩
    intro s at_ flood hsame
    exact s.deliver_harmless at_ flood _ fun event hmem => by
      rw [hsame]
      exact hharmless event hmem
  · intro r v event hcandidate hbad s at_ flood
    obtain ⟨err, herr⟩ := hbad
    have hinvalid := undecodable_candidate_invalid s.records r v event hcandidate err herr
    rw [s.handleEvent_same event at_ flood (.inr hinvalid)]
    exact ⟨s.receive_undisturbed event at_, rfl⟩

end

def brokenAddress : Ref where
  message := [1, 104, 5, 108, 111, 99, 97, 108, 0, 10, 0, 0]
  name := ⟨[1, 104, 5, 108, 111, 99, 97, 108, 0, 10, 0, 0], 0⟩
  rtype := .a
  rclass := .in_
  cacheFlush := true
  ttl := 120
  rdataStart := 9
  rdataLen := 3

def printerView : RouteView where
  serviceType := ServiceRecords.printer.serviceType
  name := ServiceRecords.printer.instanceName
  host := ServiceRecords.printer.host
  aAddrs := ServiceRecords.printer.aAddrs
  aaaaAddrs := ServiceRecords.printer.aaaaAddrs
  subtypes := ServiceRecords.printer.subtypes
  withdrawing := false

theorem printer_echo_is_harmless :
    (∃ msg reader, OwnDatagram .printer (List.replicate 512 0) msg ∧
      MessageReader.tryParse msg.octets = .ok reader ∧
      ∃ (outputs : List RouteOutput)
        (t : RouteEvents Uptime ZeroRng ZeroRng Slab Slab Slab Slab Slab),
        Drains RouteEvents.step (RouteEvents.handle RouteEvents.printerEndpoint
          RouteEvents.oneQuery RouteEvents.peer reader 0 ⟨0⟩ (Admits.everything false))
          outputs t ∧
        (queuedPrinter.deliver 0 .new (contestsTo 0 outputs)).2 = .new) ∧
    ∃ event, CandidateFor brokenAddress printerView event ∧
      (queuedPrinter.handleEvent event 0 .new).2 = .new := by
  obtain ⟨msg, nsec, hmsg, hsound⟩ := encoded_ok
    (writeAnnounce .printer (List.replicate 512 0))
    (fun m => decide (m.Sound .printer) && (MessageReader.tryParse m.octets).toOption.isSome)
    (by decide +kernel)
  obtain ⟨hs, hparse⟩ := Bool.and_eq_true_iff.mp hsound
  have hown : OwnDatagram .printer (List.replicate 512 0) msg :=
    .response _ (.announcement msg nsec hmsg)
  have hfresh : Endpoint.Fresh RouteEvents.emptyEndpoint := ⟨_, _, rfl⟩
  have hstart : Run Endpoint.machine [] RouteEvents.emptyEndpoint := Run.start _ hfresh
  have hreach : Reachable Endpoint.machine RouteEvents.printerEndpoint :=
    ⟨_, hstart.step [] _ (⟨0, .register ServiceRecords.printer⟩ : HostCall Uptime) trivial⟩
  have hfound : (RouteEvents.printerEndpoint.route 0).map (fun r => r.proto.records) =
      some .printer := by decide +kernel
  obtain ⟨route, hroute, hrecords⟩ := Option.map_eq_some_iff.mp hfound
  cases hreader : MessageReader.tryParse msg.octets with
  | error e =>
    rw [hreader] at hparse
    cases hparse
  | ok reader =>
    obtain ⟨⟨outputs, t, hdrains, -, -, hquiet⟩, hbroken⟩ := own_echo_is_harmless
      RouteEvents.printerEndpoint hreach 0 route hroute .printer hrecords _ msg hown
      (of_decide_eq_true hs) reader hreader RouteEvents.oneQuery RouteEvents.peer 0 ⟨0⟩
      (Admits.everything false)
    have hcandidate : CandidateFor brokenAddress printerView
        (.hostConflict ⟨brokenAddress, .tentativeProbe, ⟨0⟩⟩) := by
      refine .inr ⟨.tentativeProbe, ⟨0⟩, ?_⟩
      have hrole : printerView.hostRole brokenAddress = true := by decide +kernel
      unfold hostConflictOf
      rw [hrole]
      rfl
    refine ⟨⟨msg, reader, hown, hreader, outputs, t, hdrains, (hquiet queuedPrinter 0 .new rfl).2⟩,
      _, hcandidate, ?_⟩
    exact (hbroken brokenAddress printerView _ hcandidate
      ⟨.bufferTooShort 4 0 3, by decide +kernel⟩ queuedPrinter 0 .new).2

end Hick
