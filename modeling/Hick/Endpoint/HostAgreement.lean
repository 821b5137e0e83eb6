import Hick.Endpoint.Names
import Hick.Routing.OwnEcho

/-!
# Siblings on one host (endpoint/service.rs:89-124, service/mod.rs:2864-2912)

The addresses of a shared host are compared once, where a service is registered.
-/

set_option linter.unusedSectionVars false

namespace Hick
open Octets LabelSeq Wire Respond Drain Runs

structure ServiceRecords.SameAddrs (theirs ours : ServiceRecords) : Prop where
  a : theirs.aAddrs ≠ [] → ours.aAddrs ≠ [] → ∀ ip, ip ∈ theirs.aAddrs ↔ ip ∈ ours.aAddrs
  aaaa : theirs.aaaaAddrs ≠ [] → ours.aaaaAddrs ≠ [] →
    ∀ ip, ip ∈ theirs.aaaaAddrs ↔ ip ∈ ours.aaaaAddrs

namespace Endpoint
section
variable {I G R : Type} {SR EV : Type → Type} [Instant I] [SeedSource G] [SeedableRng R]
  [Pool SR] [Pool EV]

theorem rrsetDisagrees_iff {α : Type} [BEq α] [LawfulBEq α] (theirs ours : List α) :
    rrsetDisagrees theirs ours = false ↔
      (theirs ≠ [] → ours ≠ [] → ∀ x, x ∈ theirs ↔ x ∈ ours) := by
  unfold rrsetDisagrees
  by_cases hempty : (theirs.isEmpty || ours.isEmpty) = true
  · rw [if_pos hempty]
    refine ⟨fun _ htheirs hours => ?_, fun _ => rfl⟩
    rcases Bool.or_eq_true_iff.mp hempty with h | h
    · exact absurd (List.isEmpty_iff.mp h) htheirs
    · exact absurd (List.isEmpty_iff.mp h) hours
  · rw [if_neg hempty]
    obtain ⟨htheirs, hours⟩ := Bool.or_eq_false_iff.mp (Bool.eq_false_iff.mpr hempty)
    have htheirs' : theirs ≠ [] := List.isEmpty_eq_false_iff.mp htheirs
    have hours' : ours ≠ [] := List.isEmpty_eq_false_iff.mp hours
    rw [Bool.not_eq_false', Bool.and_eq_true, List.all_eq_true, List.all_eq_true]
    simp only [List.contains_iff_mem]
    refine ⟨fun h _ _ x => ⟨h.1 x, h.2 x⟩, fun h => ?_⟩
    exact ⟨fun x => (h htheirs' hours' x).mp, fun x => (h htheirs' hours' x).mpr⟩

def HostsAgree (e : Endpoint I G R SR EV) : Prop :=
  ∀ j k r s, e.route j = some r → e.route k = some s → r.withdrawing = false →
    s.withdrawing = false → r.host.labels = s.host.labels →
      rrsetDisagrees r.aAddrs s.aAddrs = false ∧
        rrsetDisagrees r.aaaaAddrs s.aaaaAddrs = false

theorem rrsetDisagrees_self {α : Type} [BEq α] [LawfulBEq α] (xs : List α) :
    rrsetDisagrees xs xs = false := (rrsetDisagrees_iff xs xs).mpr fun _ _ _ => Iff.rfl

theorem rrsetDisagrees_symm {α : Type} [BEq α] [LawfulBEq α] (xs ys : List α)
    (h : rrsetDisagrees xs ys = false) : rrsetDisagrees ys xs = false := by
  rw [rrsetDisagrees_iff] at h ⊢
  exact fun hys hxs x => (h hxs hys x).symm

theorem fills_agree [LawfulPool SR] (e : Endpoint I G R SR EV) (c : HostCall I) (key : Nat)
    (r : Route I R EV) (hvacant : e.route key = none) (h : (e.next c).route key = some r) :
    e.hostAddressesDisagree r.host r.aAddrs r.aaaaAddrs none = false := by
  obtain ⟨records, -, hchecks, seed, rfl⟩ := e.next_fills c key r hvacant h
  change e.hostAddressesDisagree records.host records.aAddrs records.aaaaAddrs none = false
  unfold registerChecks at hchecks
  repeat' split at hchecks
  all_goals first
    | cases hchecks; done
    | exact Bool.eq_false_iff.mpr ‹_›

theorem agrees_with (e : Endpoint I G R SR EV) [LawfulPool SR] (host : Name)
    (aAddrs : List Ipv4Addr) (aaaaAddrs : List Ipv6Addr)
    (h : e.hostAddressesDisagree host aAddrs aaaaAddrs none = false) (key : Nat)
    (r : Route I R EV) (hr : e.route key = some r) (hlive : r.withdrawing = false)
    (hhost : r.host.labels = host.labels) :
    rrsetDisagrees r.aAddrs aAddrs = false ∧ rrsetDisagrees r.aaaaAddrs aaaaAddrs = false := by
  unfold hostAddressesDisagree at h
  rw [List.any_eq_false] at h
  have hat := h (key, r) ((e.mem_routes key r).mpr hr)
  have hsame : r.host.sameOwner host = true := (Name.sameOwner_iff _ _).mpr hhost
  dsimp only at hat
  rw [hlive, hsame] at hat
  exact Bool.or_eq_false_iff.mp (Bool.eq_false_iff.mpr hat)

theorem hosts_agree [LawfulPool SR] (e : Endpoint I G R SR EV) (h : Reachable machine e) :
    e.HostsAgree := by
  apply Reachable.invariant machine HostsAgree _ _ e h
  · intro e hfresh j k r s hr
    obtain ⟨config, rng, rfl⟩ := hfresh
    rw [tryNew_route] at hr
    cases hr
  · intro e c hinv _ j k r s hr hs hlive hlive' hhost
    cases hj : e.route j with
    | none =>
      have hagrees := e.fills_agree c j r hj hr
      obtain ⟨-, -, hothers⟩ := e.next_fills_free c j r hj hr
      by_cases hjk : k = j
      · have hsame : r = s := Option.some.inj (hr.symm.trans (hjk ▸ hs))
        subst hsame
        exact ⟨rrsetDisagrees_self _, rrsetDisagrees_self _⟩
      · have hs' : (e.next c).route k = some s := hs
        rw [hothers k hjk] at hs'
        obtain ⟨ha, haaaa⟩ := e.agrees_with _ _ _ hagrees k s hs' hlive' hhost.symm
        exact ⟨rrsetDisagrees_symm _ _ ha, rrsetDisagrees_symm _ _ haaaa⟩
    | some r₀ =>
      obtain ⟨r', hr', hmoveR⟩ := (e.next_moves c j r₀ hj).resolve_right fun hgone => by
        have hr' : (e.next c).route j = some r := hr
        rw [hgone.1] at hr'
        cases hr'
      have hr'' := hr'.symm.trans hr
      cases hr''
      obtain ⟨hhostR, haR, haaaaR, hliveR⟩ := hmoveR.host e c j r₀ r
      cases hk : e.route k with
      | none =>
        have hagrees := e.fills_agree c k s hk hs
        obtain ⟨-, -, hothers⟩ := e.next_fills_free c k s hk hs
        by_cases hjk : j = k
        · rw [hjk, hk] at hj
          cases hj
        · rw [hothers j hjk, hj] at hr'
          cases hr'
          exact e.agrees_with _ _ _ hagrees j r hj hlive hhost
      | some s₀ =>
        obtain ⟨s', hs', hmoveS⟩ := (e.next_moves c k s₀ hk).resolve_right fun hgone => by
          have hs' : (e.next c).route k = some s := hs
          rw [hgone.1] at hs'
          cases hs'
        have hs'' := hs'.symm.trans hs
        cases hs''
        obtain ⟨hhostS, haS, haaaaS, hliveS⟩ := hmoveS.host e c k s₀ s
        rw [haR, haaaaR, haS, haaaaS]
        exact hinv j k r₀ s₀ hj hk (hliveR hlive) (hliveS hlive')
          (by rw [← hhostR, ← hhostS]; exact hhost)

end
end Endpoint

/-- The instance name of `ours` owns none of the records of `theirs`. -/
structure ServiceRecords.Clear (theirs ours : ServiceRecords) : Prop where
  serviceType : theirs.serviceType.labels ≠ ours.instanceName.labels
  subtypes : ∀ sub ∈ theirs.subtypes, sub.labels ≠ ours.instanceName.labels
  instance_ : theirs.instanceName.labels ≠ ours.instanceName.labels
  host : theirs.host.labels ≠ ours.instanceName.labels

section
variable (theirs ours : ServiceRecords)

theorem Clear.owner (h : theirs.Clear ours) (owner : Name) (data : EntryData)
    (hholds : theirs.Holds owner data) : owner.labels ≠ ours.instanceName.labels := by
  cases hholds with
  | ptr => exact h.serviceType
  | subtype _ hsub => exact h.subtypes _ hsub
  | srv => exact h.instance_
  | txt => exact h.instance_
  | nsec => exact h.instance_
  | a addr _ => exact h.host
  | aaaa addr _ => exact h.host

theorem classifyHostRdata_sibling (hsame : theirs.host.labels = ours.host.labels →
      theirs.SameAddrs ours)
    (v : RouteView) (hv : v.Of ours) (e : RecordEntry) (h : theirs.Holds e.owner e.data) (r : Ref)
    (hr : Wire.Reads r e) (hrole : v.hostRole r = true) :
    classifyHostRdata ours r = .identical := by
  have hsplit := Bool.and_eq_true_iff.mp hrole
  obtain ⟨hname, ht⟩ := Bool.and_eq_true_iff.mp hsplit.1
  have hpub := hsplit.2
  have howner := ((namesMatch_names v.host e.owner r.name hr.name).mp hname).2
  rw [hv.host] at howner
  obtain ⟨data, hview, hviews⟩ := hr.view
  rw [hr.rtype] at ht hpub
  unfold classifyHostRdata
  generalize e.owner = owner at h howner
  generalize e.data = entry at h ht hpub hviews
  cases h with
  | a addr hmem =>
    have hdata : data = .a addr := hviews
    have hours : ours.aAddrs.isEmpty = false := by
      rw [← hv.aAddrs]
      exact (Bool.not_eq_true' _).mp hpub
    have hin := ((hsame howner).a (List.ne_nil_of_mem hmem)
      (List.isEmpty_eq_false_iff.mp hours) addr).mp hmem
    rw [hview, hdata]
    simp only [hours, Bool.false_eq_true, if_false, List.contains_iff_mem.mpr hin]
    rfl
  | aaaa addr hmem =>
    have hdata : data = .aaaa addr := hviews
    have hours : ours.aaaaAddrs.isEmpty = false := by
      rw [← hv.aaaaAddrs]
      exact (Bool.not_eq_true' _).mp hpub
    have hin := ((hsame howner).aaaa (List.ne_nil_of_mem hmem)
      (List.isEmpty_eq_false_iff.mp hours) addr).mp hmem
    rw [hview, hdata]
    simp only [hours, Bool.false_eq_true, if_false, List.contains_iff_mem.mpr hin]
    rfl
  | ptr => cases ht
  | subtype sub hsub => cases ht
  | srv => cases ht
  | txt => cases ht
  | nsec => cases ht

theorem sibling_candidate_identical (hsame : theirs.host.labels = ours.host.labels →
      theirs.SameAddrs ours)
    (hclear : theirs.Clear ours) (v : RouteView) (hv : v.Of ours) (e : RecordEntry)
    (h : theirs.Holds e.owner e.data) (r : Ref) (hr : Wire.Reads r e) (event : ServiceEvent)
    (hc : CandidateFor r v event) : classifyEvent ours event = .identical := by
  rcases candidate_classified ours r v event hc with ⟨hrole, hclass⟩ | ⟨-, hname, -⟩
  · rw [hclass]
    exact classifyHostRdata_sibling theirs ours hsame v hv e h r hr hrole
  · have howner := ((namesMatch_names v.name e.owner r.name hr.name).mp hname).2
    rw [hv.name] at howner
    exact absurd howner (Clear.owner theirs ours hclear e.owner e.data h)

theorem readQuestions_unasked (name : Name) (items : List (Except ParseError QuestionRef))
    (qs : List QuestionEntry) (h : List.Forall₂ IsQuestion items qs)
    (hother : ∀ q ∈ qs, q.name.labels ≠ name.labels) : readQuestions name items = .ok false := by
  induction h with
  | nil => rfl
  | @cons item q items qs hq _ ih =>
    obtain ⟨r, rfl, hr⟩ := hq
    obtain ⟨hfirst, hrest⟩ := List.forall_mem_cons.mp hother
    have hdec := nameFullyDecodes_names q.name r.qname hr.qname
    have hmatch : namesMatch name r.qname = false := by
      rw [Bool.eq_false_iff]
      exact fun h => hfirst ((namesMatch_names name q.name r.qname hr.qname).mp h).2
    simp only [readQuestions, hdec, Bool.not_true, Bool.false_eq_true, if_false, ih hrest,
      questionIsAbout, hmatch, Bool.and_false, Bool.or_false]

theorem proposesFor_unasked (questions : List (Except ParseError QuestionRef)) (name : Name)
    (h : readQuestions name questions = .ok false) (items : List (Except ParseError Ref)) :
    proposesFor questions name items = false := by
  induction items with
  | nil => rfl
  | cons item items ih =>
    cases item with
    | error e => rfl
    | ok r =>
      have hadmits : ∃ why, ProposalScope.admits questions name r = .ok (.notOurs why) := by
        unfold ProposalScope.admits
        rw [h]
        split
        · exact ⟨_, rfl⟩
        · split
          · exact ⟨_, rfl⟩
          · exact ⟨_, rfl⟩
      obtain ⟨why, hwhy⟩ := hadmits
      unfold proposesFor
      rw [hwhy]
      exact ih

theorem probe_proposes_nothing (out : Bytes) (msg : Message)
    (h : writeProbe theirs out = .ok (msg, ())) (hs : msg.Sound theirs)
    (hclear : theirs.Clear ours) (name : Name) (hname : name.labels = ours.instanceName.labels)
    (reader : MessageReader) (hreader : MessageReader.tryParse msg.octets = .ok reader) :
    reader.authorityProposesFor name = false := by
  have hspec := writeProbe_spec theirs _ (own_subset theirs msg.names) out msg h
  obtain ⟨hparse, hreads⟩ := hspec.reads hs.suffixes hs.size
  rw [hreader] at hparse
  obtain rfl : reader = ⟨msg.octets, msg.header⟩ := by injection hparse
  apply proposesFor_unasked
  apply readQuestions_unasked name _ _ hreads.questions
  intro q hq
  have hq' : q = ⟨theirs.instanceName, .any, .in_, true⟩ := List.mem_singleton.mp hq
  rw [hq', hname]
  exact hclear.instance_

end

def eventsTo (key : Nat) (outputs : List RouteOutput) : List ServiceEvent :=
  outputs.filterMap fun o =>
    match o with
    | .service k event => if k = key then some event else none
    | _ => none

theorem mem_eventsTo (key : Nat) (outputs : List RouteOutput) (event : ServiceEvent)
    (h : event ∈ eventsTo key outputs) : .service key event ∈ outputs := by
  obtain ⟨o, ho, hevent⟩ := List.mem_filterMap.mp h
  split at hevent
  · split at hevent
    · rename_i hkey
      cases hevent
      rw [← hkey]
      exact ho
    · cases hevent
  · cases hevent

namespace Service
section
variable {I R : Type} {EV : Type → Type} [Instant I] [SeedableRng R] [Pool EV]

/-- No conflict is latched or reported: all that has changed is what questions and known answers
change. -/
def Uncontested (s s' : Service I R EV) : Prop :=
  s' = { s with
    lastNow := s'.lastNow
    floodEligibility := s'.floodEligibility
    rng := s'.rng
    responseDeadline := s'.responseDeadline
    questionerSrcs := s'.questionerSrcs
    kas := s'.kas
    pendingLegacy := s'.pendingLegacy
    metaResponseDeadline := s'.metaResponseDeadline
    metaQuestionerSrcs := s'.metaQuestionerSrcs
    metaKnownAnswered := s'.metaKnownAnswered }

theorem Uncontested.trans (s₁ s₂ s₃ : Service I R EV) (h : s₁.Uncontested s₂)
    (h' : s₂.Uncontested s₃) : s₁.Uncontested s₃ := by
  unfold Uncontested at h h' ⊢
  rw [h'.trans (by rw [h])]

theorem Uncontested.records (s s' : Service I R EV) (h : s.Uncontested s') :
    s'.records = s.records := by
  unfold Uncontested at h
  rw [h]

theorem Undisturbed.uncontested (s s' : Service I R EV) (h : s.Undisturbed s') :
    s.Uncontested s' := by
  unfold Undisturbed at h
  rw [h]
  rfl

theorem handleQuestion_uncontested (s : Service I R EV) (sq : ServiceQuestion) (now : I) :
    s.Uncontested (s.handleQuestion sq now) := by
  unfold Uncontested
  rw [s.handleQuestion_frame sq now]

theorem handleKnownAnswer_uncontested (s : Service I R EV) (ka : KnownAnswer) (now : I) :
    s.Uncontested (s.handleKnownAnswer ka now) := by
  unfold handleKnownAnswer
  split
  · unfold handleMetaKnownAnswer
    split
    · split <;> rfl
    · rfl
  · split <;> rfl

theorem handleEvent_uncontested (s : Service I R EV) (event : ServiceEvent) (now : I)
    (flood : ConflictFlood I) (h : event.contests = true → event.Harmless s.records) :
    s.Uncontested (s.handleEvent event now flood).1 ∧
      (s.handleEvent event now flood).2 = flood := by
  have hreceive := (s.receive_undisturbed event now).uncontested
  cases event with
  | question sq =>
    have hdifferent : ∀ records, classifyEvent records (.question sq) = .different := fun _ => rfl
    unfold handleEvent
    simp only [hdifferent]
    unfold dispatchEvent
    dsimp only
    split
    · exact ⟨hreceive.trans _ _ _ (handleQuestion_uncontested _ sq now), rfl⟩
    · exact ⟨hreceive, rfl⟩
  | knownAnswer ka =>
    have hdifferent : ∀ records, classifyEvent records (.knownAnswer ka) = .different :=
      fun _ => rfl
    unfold handleEvent
    simp only [hdifferent]
    exact ⟨hreceive.trans _ _ _ (handleKnownAnswer_uncontested _ ka now), rfl⟩
  | probeConflict pc =>
    rw [s.handleEvent_harmless _ now flood (h rfl)]
    exact ⟨hreceive, rfl⟩
  | probeProposal pp =>
    rw [s.handleEvent_harmless _ now flood (h rfl)]
    exact ⟨hreceive, rfl⟩
  | hostConflict hc =>
    rw [s.handleEvent_harmless _ now flood (h rfl)]
    exact ⟨hreceive, rfl⟩

theorem deliver_uncontested (s : Service I R EV) (now : I) (flood : ConflictFlood I)
    (events : List ServiceEvent)
    (h : ∀ event ∈ events, event.contests = true → event.Harmless s.records) :
    s.Uncontested (s.deliver now flood events).1 ∧ (s.deliver now flood events).2 = flood := by
  induction events generalizing s with
  | nil => exact ⟨rfl, rfl⟩
  | cons event events ih =>
    obtain ⟨hevent, hevents⟩ := List.forall_mem_cons.mp h
    obtain ⟨hfirst, hcharge⟩ := s.handleEvent_uncontested event now flood hevent
    have hstep : s.deliver now flood (event :: events) =
        (s.handleEvent event now flood).1.deliver now flood events := by
      unfold deliver
      rw [List.foldl_cons]
      exact congrArg (fun f => events.foldl _ ((s.handleEvent event now flood).1, f)) hcharge
    obtain ⟨hrest, hflood⟩ := ih (s.handleEvent event now flood).1 fun event' hmem => by
      rw [hfirst.records]
      exact hevents event' hmem
    rw [hstep]
    exact ⟨hfirst.trans _ _ _ hrest, hflood⟩

end
end Service

theorem Scene.routed_proposal {I : Type} {AN EvQ : Type → Type} [Instant I] [Pool AN] [Pool EvQ]
    (sc : Scene I AN EvQ) (key : Nat) (pp : ProbeProposal)
    (h : RouteOutput.service key (.probeProposal pp) ∈ sc.routed) :
    ∃ v, (key, v) ∈ sc.table ∧ sc.isResponse = false ∧
      sc.reader.authorityProposesFor v.name = true := by
  rw [routed] at h
  split at h
  · cases h
  · simp only [List.mem_append] at h
    rcases h with (((h | h) | h) | h) | h
    · obtain ⟨sq, hsq⟩ := sc.questionsPart_question key _ h
      cases hsq
    · exact (sc.answersPart_ofRecord key _ h).elim
    · obtain ⟨-, hresponse, v, htable, hproposes⟩ := sc.proposalsPart_proposal key _ h
      exact ⟨v, htable, hresponse, hproposes⟩
    · exact (sc.authorityPart_ofRecord key _ h).elim
    · exact (sc.additionalPart_ofRecord key _ h).elim

theorem OwnDatagram.sibling_harmless {I : Type} {AN EvQ : Type → Type} [Instant I] [Pool AN]
    [Pool EvQ] (theirs ours : ServiceRecords) (hsame : theirs.host.labels = ours.host.labels →
      theirs.SameAddrs ours)
    (hclear : theirs.Clear ours) (out : Bytes) (msg : Message)
    (h : OwnDatagram theirs out msg) (hs : msg.Sound theirs) (sc : Scene I AN EvQ)
    (hreader : MessageReader.tryParse msg.octets = .ok sc.reader) (key : Nat)
    (hviews : ∀ v, (key, v) ∈ sc.table → v.Of ours) (event : ServiceEvent)
    (hrouted : RouteOutput.service key event ∈ sc.routed) (hc : event.contests = true) :
    event.Harmless ours := by
  obtain ⟨v, htable, hcontest⟩ := sc.routed_contest key event hrouted hc
  rcases hcontest with ⟨sect, r, hmem, hcandidate⟩ | ⟨hquery, rfl⟩
  · obtain ⟨e, hholds, hreads⟩ := h.found theirs out msg hs sect r ⟨_, hreader, hmem⟩
    have hclass := sibling_candidate_identical theirs ours hsame hclear v (hviews v htable) e
      hholds r hreads event hcandidate
    exact event.harmless_of_identical _ hclass
  · cases h with
    | response emitted h =>
      have hresponse := h.isResponse theirs out msg emitted hs sc.reader hreader
      rw [Scene.isResponse, hresponse] at hquery
      cases hquery
    | probe h =>
      obtain ⟨v', htable', -, hproposes⟩ := sc.routed_proposal key _ hrouted
      rw [probe_proposes_nothing theirs ours out msg h hs hclear v'.name (hviews v' htable').name
        sc.reader hreader] at hproposes
      cases hproposes

section
variable {I G R : Type} {SR QS EV AN EvQ : Type → Type} [Instant I] [SeedSource G]
  [SeedableRng R] [Pool SR] [Pool QS] [OrderedPool SR] [OrderedPool QS] [Pool EV] [Pool AN]
  [Pool EvQ]

/-- Live services of one host have the same addresses of every type that both give. A datagram of
the one, under the name it has or an earlier one that the other has not taken, that comes back to
the endpoint latches no conflict on the other, unless the other's instance name is the first one's
host, its service type or one of its subtypes. -/
theorem siblings_agree_on_their_host (endpoint : Endpoint I G R SR EV)
    (hreach : Reachable Endpoint.machine endpoint) (key other : Nat) (hother : other ≠ key)
    (route sibling : Route I R EV) (hroute : endpoint.route key = some route)
    (hsibling : endpoint.route other = some sibling) (hlive : route.withdrawing = false)
    (hlive' : sibling.withdrawing = false) (theirs ours : ServiceRecords)
    (htheirs : route.proto.records = theirs) (hours : sibling.proto.records = ours) :
    (theirs.host.labels = ours.host.labels → theirs.SameAddrs ours) ∧
      ∀ name : Name,
        (name = theirs.instanceName ∨ name.labels ≠ ours.instanceName.labels) →
        (∀ n ∈ theirs.host :: theirs.serviceType :: theirs.subtypes,
          n.labels ≠ ours.instanceName.labels) →
        ∀ (out : Bytes) (msg : Message), OwnDatagram (theirs.setInstance name) out msg →
          msg.Sound (theirs.setInstance name) → ∀ reader : MessageReader,
            MessageReader.tryParse msg.octets = .ok reader →
        ∀ (queries : QS (Query I AN EvQ)) (src : SocketAddr) (now : I) (datagram : DatagramId)
          (admits : Admits), ∃ (outputs : List RouteOutput)
            (t : RouteEvents I G R SR QS EV AN EvQ),
            Drains RouteEvents.step
                (RouteEvents.handle endpoint queries src reader now datagram admits) outputs t ∧
              t.step = .stop ∧
            ∀ (s : Service I R EV) (at_ : I) (flood : ConflictFlood I), s.records = ours →
              s.Uncontested (s.deliver at_ flood (eventsTo other outputs)).1 ∧
                (s.deliver at_ flood (eventsTo other outputs)).2 = flood := by
  have hview := endpoint.view_of hreach key route hroute
  have hviewSibling := endpoint.view_of hreach other sibling hsibling
  rw [htheirs] at hview
  rw [hours] at hviewSibling
  have hsame : theirs.host.labels = ours.host.labels → theirs.SameAddrs ours := by
    intro hhost
    have hhosts : route.host.labels = sibling.host.labels := by
      have hr : route.host = theirs.host := hview.host
      have hs : sibling.host = ours.host := hviewSibling.host
      rw [hr, hs, hhost]
    obtain ⟨ha, haaaa⟩ := endpoint.hosts_agree hreach key other route sibling hroute hsibling
      hlive hlive' hhosts
    have hra : route.aAddrs = theirs.aAddrs := hview.aAddrs
    have hsa : sibling.aAddrs = ours.aAddrs := hviewSibling.aAddrs
    have hraaaa : route.aaaaAddrs = theirs.aaaaAddrs := hview.aaaaAddrs
    have hsaaaa : sibling.aaaaAddrs = ours.aaaaAddrs := hviewSibling.aaaaAddrs
    rw [hra, hsa] at ha
    rw [hraaaa, hsaaaa] at haaaa
    exact ⟨(Endpoint.rrsetDisagrees_iff _ _).mp ha, (Endpoint.rrsetDisagrees_iff _ _).mp haaaa⟩
  refine ⟨hsame, ?_⟩
  intro name hname hnames out msg hmsg hs reader hreader queries src now datagram admits
  obtain ⟨t, hdrains, hstop, -⟩ := RouteEvents.new_drains endpoint
    (handledQueries now src reader admits queries) src reader now datagram admits _ rfl
  refine ⟨_, t, hdrains, hstop, ?_⟩
  intro s at_ flood hrecords
  have hinstance : name.labels ≠ ours.instanceName.labels := by
    rcases hname with rfl | hname
    · intro hsameName
      have happart := endpoint.names_are_apart hreach
      have hr : route.name.labels = theirs.instanceName.labels := hview.name
      have hs : sibling.name.labels = ours.instanceName.labels := hviewSibling.name
      exact hother (happart.routes other key sibling route hsibling hroute
        (by rw [hr, hs, hsameName]))
    · exact hname
  have hclear : (theirs.setInstance name).Clear ours :=
    { serviceType := hnames theirs.serviceType (List.mem_cons_of_mem _ List.mem_cons_self)
      subtypes := fun sub hsub =>
        hnames sub (List.mem_cons_of_mem _ (List.mem_cons_of_mem _ hsub))
      instance_ := hinstance
      host := hnames theirs.host List.mem_cons_self }
  have hsame' : (theirs.setInstance name).host.labels = ours.host.labels →
      (theirs.setInstance name).SameAddrs ours := fun h => ⟨(hsame h).a, (hsame h).aaaa⟩
  apply s.deliver_uncontested at_ flood
  intro event hmem hcontests
  rw [hrecords]
  refine hmsg.sibling_harmless _ ours hsame' hclear out msg hs _ hreader other ?_ event
    (mem_eventsTo other _ event hmem) hcontests
  intro v htable
  have hv : v = sibling.view :=
    (RouteEvents.mem_table_iff endpoint other sibling hsibling v).mp htable
  rw [hv]
  exact hviewSibling

end

section
open Endpoint

def nestedInstance : Name :=
  ⟨[98, 46, 97, 46, 95, 112, 46, 108, 111, 99, 97, 108], by decide, by decide⟩

def nestedService : ServiceRecords :=
  (ServiceRecords.new ServiceRecords.printerInstance nestedInstance ServiceRecords.printerHost 80
    120).addA (.new 10 0 0 1)

def probesAt (handle : ServiceHandle) (now : Uptime) : List (HostCall Uptime) :=
  [⟨now, .serviceTimeout handle⟩, ⟨now, .serviceTransmit handle (List.replicate 512 0)⟩,
    ⟨now, .serviceOutcome handle (.accepted now) .noSocket⟩]

/-- The printer has sent its first probe when the other service has an announcement queued. -/
def nestedCalls : List (HostCall Uptime) :=
  [⟨0, .register nestedService⟩, ⟨0, .register .printer⟩, ⟨0, .serviceTimeout ⟨0⟩⟩,
    ⟨0, .serviceTimeout ⟨1⟩⟩] ++ probesAt ⟨0⟩ 0 ++ probesAt ⟨1⟩ 0 ++ probesAt ⟨0⟩ 250000000 ++
    probesAt ⟨0⟩ 500000000 ++
    [⟨750000000, .serviceTimeout ⟨0⟩⟩, ⟨750000000, .serviceTimeout ⟨0⟩⟩]

def nestedAt : Endpoint Uptime ZeroRng ZeroRng Slab Slab :=
  machine.play (tryNew ⟨true, true, 0⟩ ⟨⟩) nestedCalls

def heardBack (reader : MessageReader) (printer : Service Uptime ZeroRng Slab) :
    Service Uptime ZeroRng Slab :=
  (printer.deliver 750000000 nestedAt.flood (eventsTo 1 (RouteEvents.handle nestedAt
    RouteEvents.oneQuery RouteEvents.peer reader 750000000 ⟨1⟩
      (Admits.everything false)).scene.routed)).1

def SentBack (msg : Message) : Bool :=
  decide (msg.Sound nestedService) &&
    decide ((sentOf (nestedAt.pollServiceTransmit ⟨0⟩ 750000000 (List.replicate 512 0)).2).map
      (fun d => d.message.octets) = some msg.octets) &&
    match MessageReader.tryParse msg.octets with
    | .ok reader => (nestedAt.route 1).any fun r => (heardBack reader r.proto).probeDefeated
    | .error _ => false

def NestedLive : Prop :=
  (nestedAt.route 0).map (fun r => (r.withdrawing, r.host.labels, r.name.labels,
      r.proto.records)) = some (false, ServiceRecords.printerHost.labels, nestedInstance.labels,
        nestedService) ∧
    (nestedAt.route 1).map (fun r => (r.withdrawing, r.host.labels, r.name.labels,
      r.proto.probeDefeated)) = some (false, ServiceRecords.printerHost.labels,
        ServiceRecords.printerInstance.labels, false)

set_option synthInstance.maxSize 256 in
instance : Decidable NestedLive := inferInstanceAs (Decidable (_ ∧ _))

/-- Two live services of one host, whose host is the instance name of neither: the announcement of
the one defeats the probe of the other, whose instance name it has for a service type. -/
theorem a_type_at_an_instance_latches :
    ∃ (nested printer : Route Uptime ZeroRng Slab) (msg : Message) (reader : MessageReader)
      (outputs : List RouteOutput)
      (t : RouteEvents Uptime ZeroRng ZeroRng Slab Slab Slab Slab Slab),
      Reachable machine nestedAt ∧ nestedAt.route 0 = some nested ∧
      nestedAt.route 1 = some printer ∧ nested.withdrawing = false ∧
      printer.withdrawing = false ∧ nested.host.labels ≠ printer.name.labels ∧
      printer.host.labels ≠ nested.name.labels ∧
      (sentOf (nestedAt.pollServiceTransmit ⟨0⟩ 750000000 (List.replicate 512 0)).2).map
        (fun d => d.message.octets) = some msg.octets ∧
      OwnDatagram nested.proto.records (List.replicate 512 0) msg ∧
      msg.Sound nested.proto.records ∧ MessageReader.tryParse msg.octets = .ok reader ∧
      Drains RouteEvents.step (RouteEvents.handle nestedAt RouteEvents.oneQuery RouteEvents.peer
        reader 750000000 ⟨1⟩ (Admits.everything false)) outputs t ∧
      printer.proto.probeDefeated = false ∧
      (printer.proto.deliver 750000000 nestedAt.flood
        (eventsTo 1 outputs)).1.probeDefeated = true := by
  obtain ⟨hadmitted, ⟨hnested, hprinter⟩, hsent⟩ :
      machine.Admitted (tryNew ⟨true, true, 0⟩ ⟨⟩ :
        Endpoint Uptime ZeroRng ZeroRng Slab Slab) nestedCalls ∧ NestedLive ∧
      (writeAnnounce nestedService (List.replicate 512 0)).toOption.map
        (fun x => SentBack x.1) = some true := by
    decide +kernel
  obtain ⟨nested, hroute, hn⟩ := Option.map_eq_some_iff.mp hnested
  obtain ⟨printer, hroute', hp⟩ := Option.map_eq_some_iff.mp hprinter
  simp only [Prod.mk.injEq] at hn hp
  obtain ⟨hlive, hhost, hname, hrecords⟩ := hn
  obtain ⟨hlive', hhost', hname', hsafe⟩ := hp
  obtain ⟨msg, nsec, hmsg, hback⟩ := encoded_ok
    (writeAnnounce nestedService (List.replicate 512 0)) SentBack hsent
  obtain ⟨hsound, hheard⟩ := Bool.and_eq_true_iff.mp hback
  obtain ⟨hs, hwire⟩ := Bool.and_eq_true_iff.mp hsound
  cases hreader : MessageReader.tryParse msg.octets with
  | error e =>
    rw [hreader] at hheard
    cases hheard
  | ok reader =>
    rw [hreader] at hheard
    dsimp only at hheard
    rw [hroute'] at hheard
    have hstart : Run machine [] (tryNew ⟨true, true, 0⟩ ⟨⟩ :
        Endpoint Uptime ZeroRng ZeroRng Slab Slab) := Run.start _ ⟨_, _, rfl⟩
    obtain ⟨t, hdrains, -, -⟩ := RouteEvents.new_drains nestedAt
      (handledQueries 750000000 RouteEvents.peer reader (Admits.everything false)
        RouteEvents.oneQuery) RouteEvents.peer reader 750000000 ⟨1⟩ (Admits.everything false) _ rfl
    refine ⟨nested, printer, msg, reader, _, t,
      ⟨_, hstart.play machine [] _ nestedCalls hadmitted⟩, hroute, hroute', hlive, hlive', ?_, ?_,
      of_decide_eq_true hwire, ?_, ?_, hreader, hdrains, hsafe, hheard⟩
    · rw [hhost, hname']
      decide
    · rw [hhost', hname]
      decide
    · rw [hrecords]
      exact .response _ (.announcement msg nsec hmsg)
    · rw [hrecords]
      exact of_decide_eq_true hs

theorem printer_leaves_its_sibling :
    ∃ (nested : Route Uptime ZeroRng Slab) (msg : Message) (reader : MessageReader)
      (outputs : List RouteOutput)
      (t : RouteEvents Uptime ZeroRng ZeroRng Slab Slab Slab Slab Slab),
      nestedAt.route 0 = some nested ∧ ServiceRecords.printer.SameAddrs nested.proto.records ∧
      OwnDatagram .printer (List.replicate 512 0) msg ∧
      Drains RouteEvents.step (RouteEvents.handle nestedAt RouteEvents.oneQuery RouteEvents.peer
        reader 0 ⟨1⟩ (Admits.everything false)) outputs t ∧
      nested.proto.Uncontested (nested.proto.deliver 0 nestedAt.flood
        (eventsTo 0 outputs)).1 := by
  obtain ⟨hadmitted, hnested, hprinter, hsent⟩ :
      machine.Admitted (tryNew ⟨true, true, 0⟩ ⟨⟩ :
        Endpoint Uptime ZeroRng ZeroRng Slab Slab) nestedCalls ∧
      (nestedAt.route 0).map (fun r => (r.withdrawing, r.proto.records)) =
        some (false, nestedService) ∧
      (nestedAt.route 1).map (fun r => (r.withdrawing, r.proto.records)) =
        some (false, .printer) ∧
      (writeAnnounce .printer (List.replicate 512 0)).toOption.map (fun x =>
        decide (x.1.Sound .printer) && (MessageReader.tryParse x.1.octets).toOption.isSome) =
          some true := by
    decide +kernel
  obtain ⟨nested, hroute, hn⟩ := Option.map_eq_some_iff.mp hnested
  obtain ⟨printer, hroute', hp⟩ := Option.map_eq_some_iff.mp hprinter
  simp only [Prod.mk.injEq] at hn hp
  obtain ⟨hlive, hrecords⟩ := hn
  obtain ⟨hlive', hrecords'⟩ := hp
  obtain ⟨msg, nsec, hmsg, hsound⟩ := encoded_ok
    (writeAnnounce .printer (List.replicate 512 0)) (fun m =>
      decide (m.Sound .printer) && (MessageReader.tryParse m.octets).toOption.isSome) hsent
  obtain ⟨hs, hparse⟩ := Bool.and_eq_true_iff.mp hsound
  have hown : OwnDatagram .printer (List.replicate 512 0) msg :=
    .response _ (.announcement msg nsec hmsg)
  have hstart : Run machine [] (tryNew ⟨true, true, 0⟩ ⟨⟩ :
      Endpoint Uptime ZeroRng ZeroRng Slab Slab) := Run.start _ ⟨_, _, rfl⟩
  have hreach : Reachable machine nestedAt := ⟨_, hstart.play machine [] _ nestedCalls hadmitted⟩
  cases hreader : MessageReader.tryParse msg.octets with
  | error e =>
    rw [hreader] at hparse
    cases hparse
  | ok reader =>
    obtain ⟨hsame, hharmless⟩ := @siblings_agree_on_their_host Uptime ZeroRng ZeroRng Slab Slab
      Slab Slab Slab _ _ _ _ _ _ _ _ _ _ nestedAt hreach 1 0 (by decide) printer nested hroute'
      hroute hlive' hlive .printer nestedService hrecords' hrecords
    obtain ⟨outputs, t, hdrains, -, hquiet⟩ := hharmless _ (.inl rfl) (by decide) _ msg hown
      (of_decide_eq_true hs) reader hreader RouteEvents.oneQuery RouteEvents.peer 0 ⟨1⟩
      (Admits.everything false)
    refine ⟨nested, msg, reader, outputs, t, hroute, ?_, hown, hdrains,
      (hquiet nested.proto 0 nestedAt.flood hrecords).1⟩
    rw [hrecords]
    exact hsame rfl

end
end Hick
