import Hick.Endpoint.Moves
import Hick.Routing.Told

/-!
# Routing and the tiebreak (endpoint/route.rs:339-426, service/proposal.rs:108-187)

The router and the tiebreak read one authority section with different stopping rules.
-/

set_option linter.unusedSectionVars false

namespace Hick
open Octets Wire Respond Drain Runs

/-! ### The permissions of a datagram (endpoint/admits.rs, endpoint/received.rs) -/

inductive Provenance where
  | ownEcho
  | ownEchoLikely
  | notFromUs
  | unknown
  deriving DecidableEq, Repr

namespace Admits

def nothing : Admits := ⟨false, false, false, .none⟩

def everything (answerQuestions : Bool) : Admits :=
  ⟨true, true, true, if answerQuestions then .all else .defenceOnly⟩

def forDatagram (provenance : Provenance) (matchedAdvertised answerQuestions : Bool)
    (untrustedResponse : Bool) : Admits :=
  let admits := match provenance with
    | .ownEcho => nothing
    | .ownEchoLikely => ⟨false, false, true, .defenceOnly⟩
    | .notFromUs => everything answerQuestions
    | .unknown =>
      if matchedAdvertised then ⟨false, false, true, .defenceOnly⟩
      else everything answerQuestions
  if untrustedResponse then nothing else admits

theorem forDatagram_defends (provenance : Provenance) (matchedAdvertised : Bool)
    (untrustedResponse : Bool)
    (h : (forDatagram provenance matchedAdvertised false untrustedResponse).adjudication = true) :
    (forDatagram provenance matchedAdvertised false untrustedResponse).answering =
      .defenceOnly := by
  revert h
  cases provenance <;> cases matchedAdvertised <;> cases untrustedResponse <;> decide

end Admits

def EndsAtError {α : Type} : List (Except ParseError α) → Prop
  | [] => True
  | .error _ :: rest => rest = []
  | .ok _ :: rest => EndsAtError rest

theorem questionItems_ends (message : Bytes) (count cursor : Nat) :
    EndsAtError (questionItems message count cursor) := by
  induction count generalizing cursor with
  | zero => trivial
  | succ count ih =>
    rw [questionItems]
    split
    · exact ih _
    · rfl

theorem recordItems_ends (message : Bytes) (count cursor : Nat) :
    EndsAtError (recordItems message count cursor) := by
  induction count generalizing cursor with
  | zero => trivial
  | succ count ih =>
    rw [recordItems]
    split
    · exact ih _
    · rfl

theorem questions_ends (reader : MessageReader) : EndsAtError reader.questions :=
  questionItems_ends _ _ _

theorem authority_ends (reader : MessageReader) : EndsAtError reader.authority := by
  unfold MessageReader.authority
  cases reader.afterAnswers with
  | none => trivial
  | some cursor => exact recordItems_ends _ _ _

def AsksAbout (questions : List (Except ParseError QuestionRef)) (name : Name) : Prop :=
  ∃ q, Except.ok q ∈ questions ∧ questionIsAbout q name = true

def UnreadableQuestions (questions : List (Except ParseError QuestionRef)) : Prop :=
  ∃ item ∈ questions, ∀ q, item = .ok q → nameFullyDecodes q.qname = false

theorem unreadable_cons (q : QuestionRef) (rest : List (Except ParseError QuestionRef)) :
    UnreadableQuestions (.ok q :: rest) ↔
      nameFullyDecodes q.qname = false ∨ UnreadableQuestions rest := by
  constructor
  · intro h
    obtain ⟨item, hmem, hitem⟩ := h
    rcases List.mem_cons.mp hmem with rfl | hmem
    · exact .inl (hitem q rfl)
    · exact .inr ⟨item, hmem, hitem⟩
  · intro h
    rcases h with h | ⟨item, hmem, hitem⟩
    · refine ⟨.ok q, List.mem_cons_self, ?_⟩
      intro q' hq'
      cases hq'
      exact h
    · exact ⟨item, List.mem_cons_of_mem _ hmem, hitem⟩

theorem asksAbout_cons (q : QuestionRef) (rest : List (Except ParseError QuestionRef))
    (name : Name) : AsksAbout (.ok q :: rest) name ↔
      questionIsAbout q name = true ∨ AsksAbout rest name := by
  constructor
  · intro h
    obtain ⟨q', hmem, habout⟩ := h
    rcases List.mem_cons.mp hmem with heq | hmem
    · cases heq
      exact .inl habout
    · exact .inr ⟨q', hmem, habout⟩
  · intro h
    rcases h with h | ⟨q', hmem, habout⟩
    · exact ⟨q, List.mem_cons_self, h⟩
    · exact ⟨q', List.mem_cons_of_mem _ hmem, habout⟩

theorem readQuestions_spec (name : Name) (questions : List (Except ParseError QuestionRef)) :
    match readQuestions name questions with
    | .error _ => UnreadableQuestions questions
    | .ok admitted =>
      ¬UnreadableQuestions questions ∧ (admitted = true ↔ AsksAbout questions name) := by
  induction questions with
  | nil =>
    refine ⟨?_, ?_⟩
    · intro h
      obtain ⟨item, hmem, -⟩ := h
      cases hmem
    · constructor
      · intro h
        cases h
      · intro h
        obtain ⟨q, hmem, -⟩ := h
        cases hmem
  | cons item rest ih =>
    cases item with
    | error e =>
      refine ⟨.error e, List.mem_cons_self, ?_⟩
      intro q hq
      cases hq
    | ok q =>
      rw [readQuestions, unreadable_cons, asksAbout_cons]
      cases hdecodes : nameFullyDecodes q.qname with
      | false => exact .inl rfl
      | true =>
        simp only [Bool.not_true, Bool.false_eq_true, if_false]
        cases hread : readQuestions name rest with
        | error e =>
          rw [hread] at ih
          exact .inr ih
        | ok admitted =>
          rw [hread] at ih
          refine ⟨?_, ?_⟩
          · intro h
            rcases h with h | h
            · cases h
            · exact ih.1 h
          · rw [Bool.or_eq_true, ih.2]

/-- The authority section carries a record of class IN that is owned by the name and is in the
scope of a question; where the questions cannot be read the scope is given to it. -/
def ProposesTo (reader : MessageReader) (name : Name) : Prop :=
  ∃ r, Except.ok r ∈ reader.authority ∧ nameFullyDecodes r.name = true ∧ r.rclass = .in_ ∧
    namesMatchRecord name r = true ∧
      (AsksAbout reader.questions name ∨ UnreadableQuestions reader.questions)

variable (questions : List (Except ParseError QuestionRef))

theorem admits_iff (name : Name) (r : Ref) :
    (∀ why, ProposalScope.admits questions name r ≠ .ok (.notOurs why)) ↔
      r.rclass = .in_ ∧ namesMatchRecord name r = true ∧
        (AsksAbout questions name ∨ UnreadableQuestions questions) := by
  have hspec := readQuestions_spec name questions
  rw [ProposalScope.admits]
  by_cases hclass : r.rclass = .in_
  · rw [if_neg (not_not_intro hclass)]
    cases howner : namesMatchRecord name r with
    | false =>
      constructor
      · intro h
        exact absurd rfl (h .differentOwner)
      · intro h
        cases h.2.1
    | true =>
      simp only [Bool.not_true, Bool.false_eq_true, if_false, hclass, true_and]
      cases hread : readQuestions name questions with
      | error e =>
        rw [hread] at hspec
        constructor
        · intro _
          exact .inr hspec
        · intro _ why h
          cases h
      | ok admitted =>
        rw [hread] at hspec
        obtain ⟨hreadable, habout⟩ := hspec
        cases admitted with
        | false =>
          constructor
          · intro h
            exact absurd rfl (h .nameOutOfQuestionScope)
          · intro h
            rcases h with h | h
            · cases habout.mpr h
            · exact absurd h hreadable
        | true =>
          constructor
          · intro _
            exact .inl (habout.mp rfl)
          · intro _ why h
            cases h
  · rw [if_pos hclass]
    constructor
    · intro h
      exact absurd rfl (h .differentClass)
    · intro h
      exact absurd h.1 hclass

theorem probesFor_iff (name : Name)
    (records : List (Except ParseError Ref)) (h : EndsAtError records) :
    probesFor questions name records = true ↔
      ∃ r, Except.ok r ∈ records ∧ nameFullyDecodes r.name = true ∧ r.rclass = .in_ ∧
        namesMatchRecord name r = true ∧
          (AsksAbout questions name ∨ UnreadableQuestions questions) := by
  induction records with
  | nil =>
    constructor
    · intro h
      cases h
    · intro h
      obtain ⟨r, hmem, -⟩ := h
      cases hmem
  | cons item rest ih =>
    cases item with
    | error e =>
      have hrest : rest = [] := h
      subst hrest
      constructor
      · intro h
        cases h
      · intro h
        obtain ⟨r, hmem, -⟩ := h
        rcases List.mem_cons.mp hmem with heq | hmem
        · cases heq
        · cases hmem
    | ok r =>
      have hrest := ih h
      have hadmits := admits_iff questions name r
      -- a record that is left aside proposes nothing; the rest of the section decides
      have hskip : ¬(nameFullyDecodes r.name = true ∧ r.rclass = .in_ ∧
          namesMatchRecord name r = true ∧
            (AsksAbout questions name ∨ UnreadableQuestions questions)) →
          (probesFor questions name rest = true ↔
            ∃ r', Except.ok r' ∈ Except.ok r :: rest ∧ nameFullyDecodes r'.name = true ∧
              r'.rclass = .in_ ∧ namesMatchRecord name r' = true ∧
                (AsksAbout questions name ∨ UnreadableQuestions questions)) := by
        intro hnot
        rw [hrest]
        constructor
        · intro h
          obtain ⟨r', hmem, hr'⟩ := h
          exact ⟨r', List.mem_cons_of_mem _ hmem, hr'⟩
        · intro h
          obtain ⟨r', hmem, hr'⟩ := h
          rcases List.mem_cons.mp hmem with heq | hmem
          · cases heq
            exact absurd hr' hnot
          · exact ⟨r', hmem, hr'⟩
      rw [probesFor]
      cases hdecodes : nameFullyDecodes r.name with
      | false =>
        simp only [Bool.not_false, if_true]
        apply hskip
        intro hr
        rw [hdecodes] at hr
        cases hr.1
      | true =>
        simp only [Bool.not_true, Bool.false_eq_true, if_false]
        cases hadmission : ProposalScope.admits questions name r with
        | error e =>
          rw [hadmission] at hadmits
          have hr := hadmits.mp (by
            intro why h
            cases h)
          constructor
          · intro _
            exact ⟨r, List.mem_cons_self, hdecodes, hr⟩
          · intro _
            rfl
        | ok admission =>
          rw [hadmission] at hadmits
          cases admission with
          | ours =>
            have hr := hadmits.mp (by
              intro why h
              cases h)
            constructor
            · intro _
              exact ⟨r, List.mem_cons_self, hdecodes, hr⟩
            · intro _
              rfl
          | notOurs why =>
            apply hskip
            intro hr
            exact hadmits.mpr hr.2 why rfl

theorem isProbeFor_iff (reader : MessageReader) (name : Name) :
    reader.isProbeFor name = true ↔ ProposesTo reader name :=
  probesFor_iff reader.questions name reader.authority (authority_ends reader)

theorem foldAuthority_proposes (name : Name)
    (records : List (Except ParseError Ref)) (f f' : ProposalFold)
    (h : foldAuthority questions name records f = .ok f') :
    f' = f ∨ proposesFor questions name records = true := by
  induction records generalizing f with
  | nil =>
    cases h
    exact .inl rfl
  | cons item rest ih =>
    cases item with
    | error e => cases h
    | ok r =>
      rw [foldAuthority] at h
      rw [proposesFor]
      cases hdecodes : nameFullyDecodes r.name with
      | false =>
        rw [hdecodes] at h
        cases h
      | true =>
        rw [hdecodes] at h
        simp only [Bool.not_true, Bool.false_eq_true, if_false] at h
        cases hadmission : ProposalScope.admits questions name r with
        | error e =>
          rw [hadmission] at h
          cases h
        | ok admission =>
          rw [hadmission] at h
          cases admission with
          | ours => exact .inr rfl
          | notOurs why => exact ih f h

theorem new_peerWins (our : List Bytes) :
    (ProposalFold.new our.length).peerWins our = false := by
  rw [ProposalFold.peerWins, ProposalFold.new]
  cases our <;> rfl

theorem peerWins_proposes (pp : ProbeProposal) (records : ServiceRecords)
    (h : adjudicate pp records = .peerWins) :
    pp.reader.authorityProposesFor records.instanceName = true := by
  rw [adjudicate, foldProposal] at h
  cases hfold : foldAuthority pp.questions records.instanceName pp.authority
      (ProposalFold.new (ourProposal records).length) with
  | error why =>
    simp only [hfold] at h
    cases h
  | ok f =>
    simp only [hfold] at h
    rcases foldAuthority_proposes _ _ _ _ _ hfold with hnone | hproposes
    · rw [hnone, new_peerWins] at h
      cases h
    · exact hproposes

theorem namesMatch_labels (a b : Name) (h : a.labels = b.labels) (m : NameRef) :
    namesMatch a m = namesMatch b m := by
  rw [namesMatch, namesMatch, namesMatchStr, namesMatchStr, (Name.labels_injective a b).mp h]

theorem proposesFor_congr (a b : Name) (h : ∀ m, namesMatch a m = namesMatch b m)
    (questions : List (Except ParseError QuestionRef)) (records : List (Except ParseError Ref)) :
    proposesFor questions a records = proposesFor questions b records := by
  induction records with
  | nil => rfl
  | cons item rest ih =>
    cases item with
    | error e => rfl
    | ok r => simp only [proposesFor, admits_congr a b h, ih]

theorem ticks_records {I : Type} [Instant I] (now : I) (flood : ConflictFlood I) (fired : Bool)
    (a b : Core I) (h : Ticks now flood fired a b) : b.records = a.records := by
  induction h with
  | refl => rfl
  | tail _ hmove ih =>
    rw [← ih]
    cases hmove <;> rfl

theorem timeout_records {I : Type} [Instant I] (c c' : Core I) (now : I) (flood : ConflictFlood I)
    (h : TimeoutEffect c now flood c') : c'.records.host = c.records.host := by
  cases h with
  | waited hd hl => rfl
  | renamed hd name hname deadline => rfl
  | gaveUp hd => rfl
  | ticked hl c' hticks =>
    rw [ticks_records _ _ _ _ _ hticks]

namespace Service
variable {I R : Type} {EV : Type → Type} [Instant I] [SeedableRng R] [Pool EV]

theorem handleEvent_records (s : Service I R EV) (event : ServiceEvent) (now : I)
    (flood : ConflictFlood I) : (s.handleEvent event now flood).1.records = s.records := by
  have heffect := s.handleEvent_effect event now flood
  have hcore : (s.handleEvent event now flood).1.core.records = s.core.records := by
    generalize (s.handleEvent event now flood).1.core = c at heffect
    cases heffect <;> rfl
  exact hcore

theorem pollDeferred_records (s : Service I R EV) (now : I) (flood : ConflictFlood I)
    (buf : Bytes) : (s.pollDeferred now flood buf).1.records = s.records := by
  have hdefer := s.deferFirstProbe_effect now flood
  have hpoll := (s.deferFirstProbeUnderFlood now flood).pollTransmit_effect now buf
  have hfirst : (s.deferFirstProbeUnderFlood now flood).core.records = s.core.records := by
    generalize (s.deferFirstProbeUnderFlood now flood).core = c at hdefer
    cases hdefer <;> rfl
  have hcore : (s.pollDeferred now flood buf).1.core.records =
      (s.deferFirstProbeUnderFlood now flood).core.records := by
    rw [pollDeferred]
    generalize sentOf ((s.deferFirstProbeUnderFlood now flood).pollTransmit now buf).2 = sent
      at hpoll
    generalize ((s.deferFirstProbeUnderFlood now flood).pollTransmit now buf).1.core = c at hpoll
    cases hpoll <;> rfl
  exact hcore.trans hfirst

theorem noteTransmitOutcome_records (s : Service I R EV) (now : I) (v4 v6 : FamilyAttempt I) :
    (s.noteTransmitOutcome now v4 v6).1.records = s.records := by
  rcases s.noteTransmitOutcome_effect now v4 v6 with ⟨-, hsame⟩ | ⟨kind, -, heffect⟩
  · rw [hsame]
  · have hcore : (s.noteTransmitOutcome now v4 v6).1.core.records = s.core.records := by
      generalize (s.noteTransmitOutcome now v4 v6).1.core = c at heffect
      cases heffect <;> rfl
    exact hcore

theorem poll_records (s : Service I R EV) : s.poll.1.records = s.records := by
  unfold poll
  split
  · rfl
  · split <;> rfl

end Service

namespace Endpoint
variable {I G R : Type} {SR EV : Type → Type} [Instant I] [SeedSource G] [SeedableRng R]
  [Pool SR] [Pool EV]

structure Mirrors (r : Route I R EV) : Prop where
  name : r.name.labels = r.proto.records.instanceName.labels
  host : r.host = r.proto.records.host

theorem Mirrors.same (r r' : Route I R EV) (h : Mirrors r) (hname : r'.name = r.name)
    (hhost : r'.host = r.host) (hrecords : r'.proto.records = r.proto.records) : Mirrors r' := by
  constructor
  · rw [hname, hrecords]
    exact h.name
  · rw [hhost, hrecords]
    exact h.host

theorem RouteMove.host (e : Endpoint I G R SR EV) (c : HostCall I) (key : Nat)
    (r r' : Route I R EV) (h : RouteMove e c key r r') :
    r'.host = r.host ∧ r'.aAddrs = r.aAddrs ∧ r'.aaaaAddrs = r.aaaaAddrs ∧
      (r'.withdrawing = false → r.withdrawing = false) := by
  cases h with
  | kept => exact ⟨rfl, rfl, rfl, id⟩
  | event event hc => exact ⟨rfl, rfl, rfl, id⟩
  | timeout handle hc hkey hw =>
    unfold Route.mirrorName
    split <;> exact ⟨rfl, rfl, rfl, id⟩
  | polled handle buf hc hkey hw => exact ⟨rfl, rfl, rfl, id⟩
  | confirmed handle v4 v6 hc hkey => exact ⟨rfl, rfl, rfl, id⟩
  | updated handle hc hkey => exact ⟨rfl, rfl, rfl, id⟩
  | drained hc => exact ⟨rfl, rfl, rfl, id⟩
  | withdrawn hc r₁ hr =>
    rcases hr with rfl | rfl
    · exact ⟨rfl, rfl, rfl, fun h => by cases h⟩
    · exact ⟨rfl, rfl, rfl, fun h => by cases h⟩

theorem RouteMove.records (e : Endpoint I G R SR EV) (c : HostCall I) (key : Nat)
    (r r' : Route I R EV) (h : RouteMove e c key r r') :
    (r'.name = r.name ∧ r'.proto.records = r.proto.records) ∨
      (r'.name.labels = r'.proto.records.instanceName.labels ∧
        ∃ c', TimeoutEffect r.proto.core c.now e.flood c' ∧ r'.proto.records = c'.records) := by
  cases h with
  | kept => exact .inl ⟨rfl, rfl⟩
  | event event hc => exact .inl ⟨rfl, r.proto.handleEvent_records event c.now e.flood⟩
  | timeout handle hc hkey hw =>
    refine .inr ⟨?_, _, r.proto.handleTimeout_effect c.now e.flood (e.renameScratch key r), ?_⟩
    · rw [Route.handedOver, mirrorName_proto]
      exact mirrorName_labels _
    · rw [Route.handedOver, mirrorName_proto]
      rfl
  | polled handle buf hc hkey hw =>
    exact .inl ⟨rfl, r.proto.pollDeferred_records c.now e.flood buf⟩
  | confirmed handle v4 v6 hc hkey =>
    exact .inl ⟨rfl, r.proto.noteTransmitOutcome_records c.now v4 v6⟩
  | updated handle hc hkey => exact .inl ⟨rfl, r.proto.poll_records⟩
  | drained hc => exact .inl ⟨rfl, rfl⟩
  | withdrawn hc r' hr => rcases hr with rfl | rfl <;> exact .inl ⟨rfl, rfl⟩

theorem Mirrors.moved (e : Endpoint I G R SR EV) (c : HostCall I) (key : Nat)
    (r r' : Route I R EV) (h : Mirrors r) (hmove : RouteMove e c key r r') : Mirrors r' := by
  obtain ⟨hhost, -⟩ := hmove.host e c key r r'
  rcases hmove.records e c key r r' with ⟨hname, hrecords⟩ | ⟨hname, c', heffect, hrecords⟩
  · exact h.same r r' hname hhost hrecords
  · refine ⟨hname, ?_⟩
    rw [hhost, hrecords, h.host]
    exact (timeout_records _ _ _ _ heffect).symm

theorem mirrors_reachable [LawfulPool SR] (e : Endpoint I G R SR EV) (h : Reachable machine e)
    (key : Nat) (r : Route I R EV) (hr : e.route key = some r) : Mirrors r := by
  have hall : ∀ key r, e.route key = some r → Mirrors r := by
    apply Reachable.invariant machine (fun e : Endpoint I G R SR EV =>
      ∀ key r, e.route key = some r → Mirrors r) _ _ e h
    · intro e hfresh key r hr
      obtain ⟨config, rng, rfl⟩ := hfresh
      rw [tryNew_route] at hr
      cases hr
    · intro e c hinv _ key r hr
      apply e.next_routes Mirrors c _ _ hinv key r hr
      · intro key r r' hmirrors hmove
        exact hmirrors.moved e c key r r' hmove
      · intro records seed
        exact ⟨rfl, rfl⟩
  exact hall key r hr

end Endpoint

def ServiceEvent.OfRecord : ServiceEvent → Prop
  | .probeConflict _ | .hostConflict _ | .knownAnswer _ => True
  | .question _ | .probeProposal _ => False

def proposalsTo (key : Nat) (outputs : List RouteOutput) : List ProbeProposal :=
  outputs.filterMap fun o =>
    match o with
    | .service k (.probeProposal pp) => if k = key then some pp else none
    | _ => none

theorem proposalsTo_append (key : Nat) (a b : List RouteOutput) :
    proposalsTo key (a ++ b) = proposalsTo key a ++ proposalsTo key b := List.filterMap_append

theorem proposalsTo_nil (key : Nat) (outputs : List RouteOutput)
    (h : ∀ k pp, RouteOutput.service k (.probeProposal pp) ∉ outputs) :
    proposalsTo key outputs = [] := by
  rw [proposalsTo, List.filterMap_eq_nil_iff]
  intro o ho
  cases o with
  | service k ev =>
    cases ev with
    | probeProposal pp => exact absurd ho (h k pp)
    | _ => rfl
  | toQuery handle r => rfl
  | failed e => rfl

section
variable {I : Type} {AN EvQ : Type → Type} [Instant I] [Pool AN] [Pool EvQ]

namespace Scene

variable (sc : Scene I AN EvQ)

theorem mem_services (event : RouteView → Option ServiceEvent)
    (o : RouteOutput) : o ∈ sc.services event 0 ↔
      ∃ key v ev, (key, v) ∈ sc.table ∧ event v = some ev ∧ o = .service key ev := by
  rw [services, hits_zero]
  constructor
  · intro h
    obtain ⟨⟨key, ev⟩, hmem, rfl⟩ := List.mem_map.mp h
    obtain ⟨⟨k, v⟩, hentry, hsome⟩ := List.mem_filterMap.mp hmem
    obtain ⟨ev', hev, heq⟩ := Option.map_eq_some_iff.mp hsome
    cases heq
    exact ⟨k, v, ev, hentry, hev, rfl⟩
  · intro h
    obtain ⟨key, v, ev, hentry, hev, rfl⟩ := h
    refine List.mem_map.mpr ⟨(key, ev), ?_, rfl⟩
    refine List.mem_filterMap.mpr ⟨(key, v), hentry, ?_⟩
    rw [hev]
    rfl

theorem mem_audience (r : Ref) (start key : Nat) (ev : ServiceEvent) :
    RouteOutput.service key ev ∉ sc.audience r start := by
  intro h
  rw [audience] at h
  split at h
  · obtain ⟨kh, -, heq⟩ := List.mem_map.mp h
    cases heq
  · cases h

theorem mem_walk {α : Type} (outputs : α → List RouteOutput) (items : List (Except ParseError α))
    (key : Nat) (ev : ServiceEvent) (h : RouteOutput.service key ev ∈ walk outputs items) :
    ∃ a, Except.ok a ∈ items ∧ RouteOutput.service key ev ∈ outputs a := by
  induction items with
  | nil => cases h
  | cons item rest ih =>
    cases item with
    | error e =>
      rw [walk] at h
      cases List.mem_singleton.mp h
    | ok a =>
      rw [walk] at h
      rcases List.mem_append.mp h with h | h
      · exact ⟨a, List.mem_cons_self, h⟩
      · obtain ⟨a', hmem, ha'⟩ := ih h
        exact ⟨a', List.mem_cons_of_mem _ hmem, ha'⟩

theorem walk_mem {α : Type} (outputs : α → List RouteOutput) (items : List (Except ParseError α))
    (hends : EndsAtError items) (a : α) (ha : Except.ok a ∈ items) (o : RouteOutput)
    (ho : o ∈ outputs a) : o ∈ walk outputs items := by
  induction items with
  | nil => cases ha
  | cons item rest ih =>
    cases item with
    | error e =>
      have hrest : rest = [] := hends
      rw [hrest] at ha
      rcases List.mem_cons.mp ha with heq | hmem
      · cases heq
      · cases hmem
    | ok b =>
      rw [walk]
      rcases List.mem_cons.mp ha with heq | hmem
      · cases heq
        exact List.mem_append_left _ ho
      · exact List.mem_append_right _ (ih hends hmem)

theorem conflictOf_ofRecord (src : SocketAddr) (r : Ref) (origin : ConflictOrigin)
    (datagram : DatagramId) (history : ConflictHistory) (v : RouteView) (ev : ServiceEvent)
    (h : conflictOf src r origin datagram history v = some ev) : ev.OfRecord := by
  rw [conflictOf] at h
  split at h
  · cases h
  · split at h
    · split at h
      · cases h
        trivial
      · split at h
        · cases h
          trivial
        · cases h
    · split at h
      · cases h
        trivial
      · cases h

theorem contested_ofRecord (sect : RecordSection) (r : Ref) (v : RouteView)
    (ev : ServiceEvent) (h : sc.contested sect r v = some ev) : ev.OfRecord := by
  rw [contested] at h
  split at h
  · exact conflictOf_ofRecord _ _ _ _ _ _ _ h
  · cases h

theorem proposed_ofRecord (r : Ref) (v : RouteView) (ev : ServiceEvent)
    (h : sc.proposed r v = some ev) : ev.OfRecord := by
  rw [proposed, hostConflictOf] at h
  split at h
  · split at h
    · cases h
    · split at h
      · cases h
        trivial
      · cases h
  · cases h

theorem answered_ofRecord (r : Ref) (v : RouteView) (ev : ServiceEvent)
    (h : sc.answered r v = some ev) : ev.OfRecord := by
  rw [answered] at h
  split at h
  · exact sc.contested_ofRecord _ _ _ _ h
  · split at h
    · rw [knownAnswerOf] at h
      split at h
      · cases h
      · split at h
        · cases h
          trivial
        · cases h
    · cases h

theorem records_ofRecord (event : Ref → RouteView → Option ServiceEvent)
    (hevent : ∀ r v ev, event r v = some ev → ev.OfRecord) (outputs : Ref → List RouteOutput)
    (houtputs : ∀ r o, o ∈ outputs r → o ∈ sc.services (event r) 0 ∨ o ∈ sc.audience r 0)
    (items : List (Except ParseError Ref)) (key : Nat) (ev : ServiceEvent)
    (h : RouteOutput.service key ev ∈ walk outputs items) : ev.OfRecord := by
  obtain ⟨r, -, hr⟩ := mem_walk outputs items key ev h
  rcases houtputs r _ hr with hservice | haudience
  · obtain ⟨k, v, ev', -, hev, heq⟩ := (sc.mem_services _ _).mp hservice
    cases heq
    exact hevent r v ev hev
  · exact absurd haudience (sc.mem_audience r 0 key ev)

theorem mem_positive (r : Ref) (outputs : List RouteOutput) (o : RouteOutput)
    (h : o ∈ positive r outputs) : o ∈ outputs := by
  rw [positive] at h
  split at h
  · cases h
  · exact h

theorem answersPart_ofRecord (key : Nat) (ev : ServiceEvent)
    (h : RouteOutput.service key ev ∈ sc.answersPart) : ev.OfRecord := by
  apply sc.records_ofRecord sc.answered sc.answered_ofRecord sc.answerOutputs _ _ key ev h
  intro r o ho
  exact List.mem_append.mp (mem_positive r _ o ho)

theorem authorityPart_ofRecord (key : Nat) (ev : ServiceEvent)
    (h : RouteOutput.service key ev ∈ sc.authorityPart) : ev.OfRecord := by
  rw [authorityPart] at h
  split at h
  · apply sc.records_ofRecord
      (fun r => if sc.isResponse then sc.contested .authority r else sc.proposed r) _
      sc.authorityOutputs _ _ key ev h
    · intro r v ev hev
      split at hev
      · exact sc.contested_ofRecord _ _ _ _ hev
      · exact sc.proposed_ofRecord _ _ _ hev
    · intro r o ho
      exact .inl (mem_positive r _ o ho)
  · cases h

theorem additionalPart_ofRecord (key : Nat) (ev : ServiceEvent)
    (h : RouteOutput.service key ev ∈ sc.additionalPart) : ev.OfRecord := by
  rw [additionalPart] at h
  split at h
  · apply sc.records_ofRecord (sc.contested .additional) (sc.contested_ofRecord .additional)
      sc.additionalOutputs _ _ key ev h
    intro r o ho
    exact List.mem_append.mp (mem_positive r _ o ho)
  · cases h

theorem questionsPart_question (key : Nat) (ev : ServiceEvent)
    (h : RouteOutput.service key ev ∈ sc.questionsPart) : ∃ sq, ev = .question sq := by
  rw [questionsPart] at h
  split at h
  · obtain ⟨q, -, hq⟩ := mem_walk sc.questionOutputs _ key ev h
    obtain ⟨k, v, ev', -, hev, heq⟩ := (sc.mem_services _ _).mp hq
    cases heq
    exact ⟨_, RouteEvents.asked_event sc q v ev hev⟩
  · cases h

theorem proposalsPart_proposal (key : Nat) (ev : ServiceEvent)
    (h : RouteOutput.service key ev ∈ sc.proposalsPart) :
    ev = .probeProposal ⟨sc.src, sc.reader, sc.datagram⟩ ∧ sc.isResponse = false ∧
      ∃ v, (key, v) ∈ sc.table ∧ sc.reader.authorityProposesFor v.name = true := by
  rw [proposalsPart] at h
  split at h
  · rename_i hquery
    obtain ⟨k, v, ev', htable, hev, heq⟩ := (sc.mem_services _ _).mp h
    cases heq
    rw [proposalOf] at hev
    split at hev
    · cases hev
    · split at hev
      · rename_i hproposes
        cases hev
        exact ⟨rfl, by simpa using (Bool.and_eq_true_iff.mp hquery).1, v, htable, hproposes⟩
      · cases hev
  · cases h

theorem routed_eq (h : sc.admits.adjudication = true) :
    sc.routed = sc.questionsPart ++ sc.answersPart ++ sc.proposalsPart ++ sc.authorityPart ++
      sc.additionalPart := by
  have hdenied : sc.admits.allDenied = false := by
    rw [Admits.allDenied, h, Bool.not_true, Bool.and_false, Bool.false_and]
  rw [routed, hdenied]
  exact if_neg Bool.false_ne_true

theorem proposalsTo_routed (h : sc.admits.adjudication = true) (key : Nat) :
    proposalsTo key sc.routed = proposalsTo key sc.proposalsPart := by
  have hquestions : proposalsTo key sc.questionsPart = [] := by
    apply proposalsTo_nil
    intro k pp hmem
    obtain ⟨sq, hsq⟩ := sc.questionsPart_question k _ hmem
    cases hsq
  have hanswers : proposalsTo key sc.answersPart = [] := by
    apply proposalsTo_nil
    intro k pp hmem
    exact (sc.answersPart_ofRecord k _ hmem).elim
  have hauthority : proposalsTo key sc.authorityPart = [] := by
    apply proposalsTo_nil
    intro k pp hmem
    exact (sc.authorityPart_ofRecord k _ hmem).elim
  have hadditional : proposalsTo key sc.additionalPart = [] := by
    apply proposalsTo_nil
    intro k pp hmem
    exact (sc.additionalPart_ofRecord k _ hmem).elim
  rw [sc.routed_eq h, proposalsTo_append, proposalsTo_append, proposalsTo_append,
    proposalsTo_append, hquestions, hanswers, hauthority, hadditional, List.append_nil,
    List.append_nil, List.nil_append, List.nil_append]

theorem mem_routed_question (h : sc.admits.adjudication = true) (key : Nat)
    (sq : ServiceQuestion) : RouteOutput.service key (.question sq) ∈ sc.routed ↔
      RouteOutput.service key (.question sq) ∈ sc.questionsPart := by
  rw [sc.routed_eq h]
  constructor
  · intro hmem
    rcases List.mem_append.mp hmem with hmem | hadditional
    · rcases List.mem_append.mp hmem with hmem | hauthority
      · rcases List.mem_append.mp hmem with hmem | hproposals
        · rcases List.mem_append.mp hmem with hquestions | hanswers
          · exact hquestions
          · exact (sc.answersPart_ofRecord key _ hanswers).elim
        · obtain ⟨hpp, -⟩ := sc.proposalsPart_proposal key _ hproposals
          cases hpp
      · exact (sc.authorityPart_ofRecord key _ hauthority).elim
    · exact (sc.additionalPart_ofRecord key _ hadditional).elim
  · intro hmem
    exact List.mem_append_left _ (List.mem_append_left _ (List.mem_append_left _
      (List.mem_append_left _ hmem)))

theorem proposalsTo_services (hordered : sc.table.Pairwise fun a b => a.1 < b.1)
    (event : RouteView → Option ServiceEvent) (key : Nat) (v : RouteView) (pp : ProbeProposal)
    (hmem : (key, v) ∈ sc.table) (hevent : event v = some (.probeProposal pp)) :
    proposalsTo key (sc.services event 0) = [pp] := by
  have hothers : ∀ table : List (Nat × RouteView), (∀ entry ∈ table, entry.1 ≠ key) →
      proposalsTo key ((table.filterMap fun entry =>
        (event entry.2).map (entry.1, ·)).map fun ke => .service ke.1 ke.2) = [] := by
    intro table hkeys
    rw [proposalsTo, List.filterMap_eq_nil_iff]
    intro o ho
    obtain ⟨⟨k, ev⟩, hke, rfl⟩ := List.mem_map.mp ho
    obtain ⟨entry, hentry, hsome⟩ := List.mem_filterMap.mp hke
    obtain ⟨ev', -, heq⟩ := Option.map_eq_some_iff.mp hsome
    cases heq
    cases ev with
    | probeProposal pp' => exact if_neg (hkeys entry hentry)
    | _ => rfl
  obtain ⟨before, after, htable⟩ := List.append_of_mem hmem
  rw [htable, List.pairwise_append] at hordered
  obtain ⟨-, hafter, hbefore⟩ := hordered
  have hbeforeKeys : ∀ entry ∈ before, entry.1 ≠ key := by
    intro entry hentry
    exact Nat.ne_of_lt (hbefore entry hentry (key, v) List.mem_cons_self)
  have hafterKeys : ∀ entry ∈ after, entry.1 ≠ key := by
    intro entry hentry
    exact Nat.ne_of_gt ((List.pairwise_cons.mp hafter).1 entry hentry)
  rw [services, hits_zero, htable, List.filterMap_append, List.map_append, proposalsTo_append,
    hothers before hbeforeKeys, List.nil_append, List.filterMap_cons, hevent, Option.map_some,
    List.map_cons]
  have hhead : ∀ rest, proposalsTo key (.service key (.probeProposal pp) :: rest) =
      pp :: proposalsTo key rest := by
    intro rest
    rw [proposalsTo, proposalsTo, List.filterMap_cons]
    dsimp only
    rw [if_pos rfl]
  rw [hhead, hothers after hafterKeys]

theorem mem_questionsPart_iff (hquery : sc.isResponse = false)
    (hport : sc.src.port = mdnsPort) (hanswering : sc.admits.answering = .defenceOnly)
    (key : Nat) (v : RouteView) (hv : ∀ v', (key, v') ∈ sc.table ↔ v' = v)
    (hlive : v.withdrawing = false) (q : QuestionRef) (hq : Except.ok q ∈ sc.reader.questions)
    (name : Name) (hname : namesMatch name q.qname = true)
    (hunique : ∃ other, v.questionedUniqueName q = some other) :
    RouteOutput.service key (.question
        { question := q
          src := sc.src
          queryId := sc.reader.header.id
          truncated := sc.reader.header.flags.isTruncated }) ∈ sc.questionsPart ↔
      sc.reader.isProbeFor name = true := by
  obtain ⟨other, hother⟩ := hunique
  have hsame : sc.reader.isProbeFor other = sc.reader.isProbeFor name :=
    isProbeFor_congr sc.reader other name q.qname (questionedUniqueName_matches v q other hother)
      hname
  have hasked : sc.asked q v = if sc.reader.isProbeFor name then
      some (.question
        { question := q
          src := sc.src
          queryId := sc.reader.header.id
          truncated := sc.reader.header.flags.isTruncated })
      else none := by
    rw [asked, hlive, if_neg Bool.false_ne_true, hanswering, hother, Option.any_some, hsame]
    rfl
  rw [questionsPart]
  constructor
  · intro h
    split at h
    · obtain ⟨q', -, hout⟩ := mem_walk sc.questionOutputs _ key _ h
      obtain ⟨k, v', ev, hmem, hev, heq⟩ := (sc.mem_services _ _).mp hout
      cases heq
      have hevent := RouteEvents.asked_event sc q' v' _ hev
      cases hevent
      rw [(hv v').mp hmem, hasked] at hev
      exact (Option.ite_none_right_eq_some.mp hev).1
    · cases h
  · intro h
    have hcount : 0 < sc.reader.header.authorityCount := by
      rw [isProbeFor_iff] at h
      obtain ⟨r, hr, -⟩ := h
      have hlength := List.length_pos_of_mem hr
      have hbound := recordsAt_length sc.reader sc.reader.header.authorityCount
        sc.reader.afterAnswers
      rw [MessageReader.authority] at hlength
      have hpos : 0 < sc.reader.header.authorityCount.toNat := Nat.lt_of_lt_of_le hlength hbound
      exact UInt16.lt_iff_toNat_lt.mpr hpos
    have hreads : sc.readsQuestions = true := by
      rw [readsQuestions, hanswering]
      simp only [hquery, hport, hcount, Bool.not_false, decide_true, Bool.and_self,
        beq_self_eq_true]
    rw [hreads, if_pos rfl]
    apply walk_mem sc.questionOutputs _ (questions_ends sc.reader) q hq
    rw [questionOutputs, mem_services]
    refine ⟨key, v, _, (hv v).mpr rfl, ?_, rfl⟩
    rw [hasked, h, if_pos rfl]

end Scene
end

namespace RouteEvents
section
variable {I G R : Type} {SR QS EV AN EvQ : Type → Type} [Instant I] [SeedSource G]
  [SeedableRng R] [Pool SR] [Pool QS] [Pool EV] [Pool AN] [Pool EvQ]

/-- A response from another port than the protocol's is not trusted (endpoint/receive.rs). -/
def untrustedResponse (src : SocketAddr) (reader : MessageReader) : Bool :=
  reader.header.flags.isResponse && src.port != mdnsPort

theorem mem_table_iff [LawfulPool SR] (e : Endpoint I G R SR EV) (key : Nat) (r : Route I R EV)
    (hr : e.route key = some r) (v : RouteView) : (key, v) ∈ e.table ↔ v = r.view := by
  rw [Endpoint.table, List.mem_map]
  constructor
  · intro h
    obtain ⟨⟨k, r'⟩, hmem, heq⟩ := h
    rw [Prod.mk.injEq] at heq
    obtain ⟨rfl, rfl⟩ := heq
    have hr' := (e.mem_routes k r').mp hmem
    rw [hr] at hr'
    cases hr'
    rfl
  · intro h
    exact ⟨(key, r), (e.mem_routes key r).mpr hr, by rw [h]⟩

/-- A query from the protocol's port that may be adjudicated is given to every live service that
would lose to it, once. -/
theorem routing_covers_verdicts [OrderedPool SR] [OrderedPool QS] (endpoint : Endpoint I G R SR EV)
    (hreach : Reachable Endpoint.machine endpoint) (queries : QS (Query I AN EvQ))
    (src : SocketAddr) (reader : MessageReader) (now : I) (datagram : DatagramId)
    (provenance : Provenance) (matchedAdvertised answerQuestions : Bool) (admits : Admits)
    (hadmits : admits = Admits.forDatagram provenance matchedAdvertised answerQuestions
      (untrustedResponse src reader))
    (hquery : reader.header.flags.isResponse = false) (hport : src.port = mdnsPort)
    (hadjudicated : admits.adjudication = true) :
    ∃ (outputs : List RouteOutput) (t : RouteEvents I G R SR QS EV AN EvQ),
      Drains step (handle endpoint queries src reader now datagram admits) outputs t ∧
      t.step = .stop ∧ t.endpoint = outputs.foldl (change now) endpoint ∧
      ∀ key route, endpoint.route key = some route → route.withdrawing = false →
        (adjudicate ⟨src, reader, datagram⟩ route.proto.records = .peerWins →
          proposalsTo key outputs = [⟨src, reader, datagram⟩]) ∧
        (answerQuestions = false → ∀ q, Except.ok q ∈ reader.questions → ∀ name,
          name = route.proto.records.instanceName ∨ name = route.proto.records.host →
          namesMatch name q.qname = true →
          (RouteOutput.service key (.question
              { question := q
                src := src
                queryId := reader.header.id
                truncated := reader.header.flags.isTruncated }) ∈ outputs ↔
            ProposesTo reader name)) := by
  obtain ⟨t, hdrains, hstop, hend⟩ :=
    (routing_is_its_specification endpoint queries src reader now datagram admits).1
  refine ⟨_, t, hdrains, hstop, hend, ?_⟩
  intro key route hroute hlive
  generalize hsc : (handle endpoint queries src reader now datagram admits).scene = sc
  have hmirrors := Endpoint.mirrors_reachable endpoint hreach key route hroute
  have hadj : sc.admits.adjudication = true := by
    rw [← hsc]
    exact hadjudicated
  have htable : sc.table = endpoint.table := by
    rw [← hsc]
    rfl
  have hentry : ∀ v, (key, v) ∈ sc.table ↔ v = route.view := by
    intro v
    rw [htable]
    exact mem_table_iff endpoint key route hroute v
  have hresponse : sc.isResponse = false := by
    rw [← hsc]
    exact hquery
  have hsrc : sc.src = src := by
    rw [← hsc]
    rfl
  have hreader : sc.reader = reader := by
    rw [← hsc]
    rfl
  have hdatagram : sc.datagram = datagram := by
    rw [← hsc]
    rfl
  constructor
  · intro hwins
    have hproposes : reader.authorityProposesFor route.name = true := by
      have hown := peerWins_proposes ⟨src, reader, datagram⟩ route.proto.records hwins
      rw [MessageReader.authorityProposesFor] at hown ⊢
      rw [proposesFor_congr route.name route.proto.records.instanceName
        (namesMatch_labels _ _ hmirrors.name)]
      exact hown
    have hevent : proposalOf src reader datagram route.view =
        some (.probeProposal ⟨src, reader, datagram⟩) := by
      have hname : reader.authorityProposesFor route.view.name = true := hproposes
      have hactive : route.view.withdrawing = false := hlive
      rw [proposalOf, hactive, if_neg Bool.false_ne_true, hname, if_pos rfl]
    have hreads : (!sc.isResponse && sc.readsAuthority) = true := by
      rw [hresponse, Scene.readsAuthority, hadj, hsrc, hport]
      rfl
    rw [sc.proposalsTo_routed hadj, Scene.proposalsPart, hreads, if_pos rfl, hsrc, hreader,
      hdatagram]
    apply sc.proposalsTo_services _ _ key route.view _ ((hentry _).mpr rfl) hevent
    rw [htable]
    exact endpoint.table_ordered
  · intro hquiet q hq name hname hmatch
    subst hquiet
    have hanswering : sc.admits.answering = .defenceOnly := by
      have hsame : sc.admits = admits := by
        rw [← hsc]
        rfl
      rw [hsame, hadmits]
      apply Admits.forDatagram_defends
      rw [← hadmits]
      exact hadjudicated
    have hunique : ∃ other, route.view.questionedUniqueName q = some other := by
      rw [RouteView.questionedUniqueName]
      by_cases hinstance : namesMatch route.view.name q.qname = true
      · exact ⟨_, if_pos hinstance⟩
      · have hhost : namesMatch route.view.host q.qname = true := by
          rcases hname with rfl | rfl
          · exact absurd ((namesMatch_labels _ _ hmirrors.name q.qname).trans hmatch) hinstance
          · have hsame : route.view.host = route.proto.records.host := hmirrors.host
            rw [hsame]
            exact hmatch
        exact ⟨_, by rw [if_neg hinstance, if_pos hhost]⟩
    have hiff := sc.mem_questionsPart_iff hresponse (by rw [hsrc, hport]) hanswering key route.view
      hentry hlive q (by rw [hreader]; exact hq) name hmatch hunique
    rw [hsrc, hreader] at hiff
    rw [sc.mem_routed_question hadj, hiff, isProbeFor_iff]

end

def rivalProbe : MessageReader where
  message := [0, 0, 0, 0, 0, 1, 0, 0, 0, 3, 0, 0, 1, 97, 2, 95, 112, 5, 108, 111, 99, 97, 108,
    0, 0, 255, 128, 1, 192, 12, 0, 33, 0, 1, 0, 0, 0, 120, 0, 10, 0, 0, 0, 0, 35, 140, 1, 104,
    192, 17, 192, 12, 0, 16, 0, 1, 0, 0, 0, 120, 0, 1, 0, 192, 46, 0, 1, 0, 1, 0, 0, 0, 120, 0,
    4, 10, 0, 0, 1]
  header := ⟨0, ⟨0⟩, 1, 0, 3, 0⟩

def printerEndpoint : Endpoint Uptime ZeroRng ZeroRng Slab Slab :=
  emptyEndpoint.next ⟨0, .register ServiceRecords.printer⟩

theorem rival_probe_reaches_the_printer :
    ∃ (outputs : List RouteOutput)
      (t : RouteEvents Uptime ZeroRng ZeroRng Slab Slab Slab Slab Slab),
      Drains step (handle printerEndpoint oneQuery peer rivalProbe 0 ⟨0⟩
        (Admits.everything false)) outputs t ∧
      proposalsTo 0 outputs = [⟨peer, rivalProbe, ⟨0⟩⟩] := by
  have hfound : (printerEndpoint.route 0).map (fun route =>
      (route.withdrawing, adjudicate ⟨peer, rivalProbe, ⟨0⟩⟩ route.proto.records)) =
        some (false, .peerWins) := by decide +kernel
  obtain ⟨route, hroute, hverdict⟩ := Option.map_eq_some_iff.mp hfound
  obtain ⟨hlive, hwins⟩ := Prod.mk.inj hverdict
  have hfresh : Endpoint.Fresh emptyEndpoint := ⟨_, _, rfl⟩
  have hstart : Run Endpoint.machine [] emptyEndpoint := Run.start emptyEndpoint hfresh
  have hreach : Reachable Endpoint.machine printerEndpoint :=
    ⟨_, hstart.step [] _ (⟨0, .register ServiceRecords.printer⟩ : HostCall Uptime) trivial⟩
  obtain ⟨outputs, t, hdrains, -, -, h⟩ := routing_covers_verdicts printerEndpoint hreach oneQuery
    peer rivalProbe 0 ⟨0⟩ .notFromUs false false (Admits.everything false) rfl rfl rfl rfl
  exact ⟨outputs, t, hdrains, (h 0 route hroute hlive).1 hwins⟩

end RouteEvents
end Hick
