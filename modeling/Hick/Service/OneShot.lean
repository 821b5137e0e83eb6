import Hick.Endpoint.Screen
import Hick.Service.Drained
import Hick.Service.Reports

/-!
# One-shot queries (service/mod.rs:2809-2820, 4133-4251, 5157-5233, respond.rs:725-781)

A querier that asks from a port of its own does not listen on the group and is owed a reply of its
own.
-/

set_option linter.unusedSectionVars false

namespace Hick
open Octets LabelSeq Wire Respond Runs

def Wire.NameRef.SameOwner (n : NameRef) (name : Name) : Prop :=
  ∃ ls : List Bytes, n.labels = ls.map .ok ∧ ls.map lower = name.labels

def Wire.QuestionRef.Received (q : QuestionRef) : Prop :=
  ∃ message at_ next, QuestionRef.tryParse message at_ = .ok (q, next)

def fullSet (records : ServiceRecords) (ttl : UInt32) (flush : Bool) : List RecordEntry :=
  ptrEntry records ttl :: (records.subtypes.map (subtypeEntry records ttl) ++
    srvEntry records .answer ttl flush :: txtEntry records .answer ttl flush ::
      (records.aAddrs.map (aEntry records .answer ttl flush) ++
        records.aaaaAddrs.map (aaaaEntry records .answer ttl flush)))

/-- The message parses to a response to the one question that was asked, with the full record set as
its answers, capped in TTL and without the cache-flush bit. -/
structure Message.AnswersInFull (m : Message) (records : ServiceRecords) (sq : ServiceQuestion)
    (reader : MessageReader) : Prop where
  parses : MessageReader.tryParse m.octets = .ok reader
  id : reader.header.id = sq.queryId
  response : reader.header.flags.isResponse = true
  question : ∃ q name, reader.questions = [.ok q] ∧ Names q.qname name ∧
    sq.question.qname.SameOwner name ∧ q.qtype = sq.question.qtype ∧
    q.qclass = sq.question.qclass ∧ q.unicastResponse = false
  answers : List.Forall₂ (IsRecord m.octets) (reader.sectionRecords .answer)
    (fullSet records (min records.ttlSecs legacyUnicastMaxTtlSecs) false)
  authority : reader.sectionRecords .authority = []
  additional : reader.sectionRecords .additional = []

theorem announced_answers (records : ServiceRecords) (nsec : Bool) (ttl : UInt32) (flush : Bool) :
    (announced records nsec).answers records ttl flush = fullSet records ttl flush := by
  rw [(announced records nsec).answers_subtypes records ttl flush rfl]
  unfold fullSet announced
  simp only [if_true, List.cons_append, List.nil_append]

theorem received_codes (q : QuestionRef) (h : q.Received) :
    ResourceType.fromU16 q.qtype.toU16 = q.qtype ∧
      ResourceClass.fromU16 q.qclass.toU16 = q.qclass := by
  obtain ⟨message, at_, next, hparse⟩ := h
  unfold QuestionRef.tryParse at hparse
  split at hparse
  · cases hparse
  · dsimp only at hparse
    split at hparse
    · cases hparse
    · rename_i qtype _
      split at hparse
      · cases hparse
      · rename_i raw _
        cases hparse
        constructor
        · dsimp only
          rw [ResourceType.toU16_fromU16]
        · have hcode : (ResourceClass.fromU16 raw).toU16 = raw &&& ~~~cacheFlushBit := by
            rw [ResourceClass.fromU16, toU16_fromU16Raw]
          dsimp only
          rw [hcode]
          unfold ResourceClass.fromU16
          rw [UInt16.and_assoc, UInt16.and_self]

theorem legacyResponse_answers (records : ServiceRecords) (sq : ServiceQuestion) (name : Name)
    (out : Bytes) (msg : Message) (emitted : EmittedRecords)
    (hname : sq.question.qname.SameOwner name) (hreceived : sq.question.Received)
    (h : writeLegacyResponse records sq.queryId name sq.question.qtype sq.question.qclass out =
      .ok (msg, emitted)) (hs : msg.Sound records) : ∃ reader, msg.AnswersInFull records sq reader := by
  have hown := own_subset records msg.names
  -- the question is one of the entries, so its name is among those of the message
  obtain ⟨_, hentries⟩ := writeLegacyResponse_spec records (name :: ownNames records)
    (fun _ h => List.mem_cons_of_mem _ h) sq.queryId name List.mem_cons_self sq.question.qtype
    sq.question.qclass out msg emitted h
  have hq : name ∈ ownNames records ++ msg.names := by
    refine List.mem_append_right _ (List.mem_flatMap.mpr
      ⟨.question ⟨name, sq.question.qtype, sq.question.qclass, false⟩, ?_,
        List.mem_singleton.mpr rfl⟩)
    rw [hentries.entries]
    exact List.mem_append_left _ (List.mem_singleton.mpr rfl)
  obtain ⟨heq, hspec⟩ := writeLegacyResponse_spec records _ hown sq.queryId name hq
    sq.question.qtype sq.question.qclass out msg emitted h
  have hid := writeLegacyResponse_id records _ hown sq.queryId name hq sq.question.qtype
    sq.question.qclass out msg emitted h
  obtain ⟨hparse, hreads⟩ := hspec.reads hs.suffixes hs.size
  have hflags : msg.header.flags = responseHeader.flags := hspec.flags
  refine ⟨⟨msg.octets, msg.header⟩, hparse, hid, ?_, ?_, ?_, ?_, ?_⟩
  · rw [hflags]
    decide
  · have hquestions := hreads.questions
    generalize MessageReader.questions ⟨msg.octets, msg.header⟩ = items at hquestions ⊢
    cases hquestions with
    | cons hitem hrest =>
      cases hrest
      obtain ⟨q, rfl, hreadsq⟩ := hitem
      have hasks := asksFor_of_reads q _ hreadsq
      obtain ⟨htype, hclass⟩ := received_codes sq.question hreceived
      obtain ⟨hqtype, hqclass, hunicast⟩ := hasks.readable htype hclass
      exact ⟨q, name, rfl, hasks.qname, hname, hqtype, hqclass, hunicast⟩
  · have hanswers := hreads.records .answer
    rw [heq] at hanswers
    rw [← announced_answers records false]
    exact hanswers
  · exact List.forall₂_nil_right_iff.mp (hreads.records .authority)
  · have hadditional := hreads.records .additional
    rw [heq] at hadditional
    exact List.forall₂_nil_right_iff.mp hadditional

structure Owed where
  question : ServiceQuestion
  reply : LegacyResp
  records : ServiceRecords

/-- The reply repeats the question: a service's names stand for themselves, the enumeration for all
of them. -/
structure Owed.Fits (o : Owed) : Prop where
  dst : o.reply.dst = o.question.src
  queryId : o.reply.queryId = o.question.queryId
  qtype : o.reply.qtype = o.question.question.qtype
  qclass : o.reply.qclass = o.question.question.qclass
  name : o.reply.isMeta = false → o.question.question.qname.SameOwner o.reply.name

def LegacyResp.repeats (l queued : LegacyResp) : Bool :=
  if l.isMeta then queued.dst == l.dst && queued.queryId == l.queryId && queued.isMeta
  else queued.dst == l.dst && queued.queryId == l.queryId && queued.qtype == l.qtype &&
    queued.qclass == l.qclass && queued.name == l.name

namespace Service
variable {I R : Type} {EV : Type → Type} [Instant I] [SeedableRng R] [Pool EV]

def requested (s : Service I R EV) (sq : ServiceQuestion) : Option LegacyResp :=
  if sq.src.port = mdnsPort ∨ s.state.isPublished = false then none
  else if isMetaQueryName sq.question.qname then
    (Name.tryFromStr dnsSdMetaQueryName).toOption.map fun name =>
      ⟨sq.src, sq.queryId, name, sq.question.qtype, sq.question.qclass, true⟩
  else
    (legacyEcho s.records sq.question.qname).map fun name =>
      ⟨sq.src, sq.queryId, name, sq.question.qtype, sq.question.qclass, false⟩

def takes (s : Service I R EV) (l : LegacyResp) : Bool :=
  decide (s.pendingLegacy.length < maxLegacyResponses) && !s.pendingLegacy.any l.repeats

theorem legacyEcho_spec (records : ServiceRecords) (n : NameRef) :
    (∀ name, legacyEcho records n = some name → name ∈ ownNames records ∧
      namesMatch name n = true) ∧
    (legacyEcho records n = none → ∀ name ∈ ownNames records, namesMatch name n = false) := by
  unfold legacyEcho ownNames
  split
  · rename_i h
    constructor
    · rintro name ⟨⟩
      exact ⟨by simp, h⟩
    · nofun
  · rename_i htype
    split
    · rename_i h
      constructor
      · rintro name ⟨⟩
        exact ⟨by simp, h⟩
      · nofun
    · rename_i hinstance
      split
      · rename_i h
        constructor
        · rintro name ⟨⟩
          exact ⟨by simp, h⟩
        · nofun
      · rename_i hhost
        constructor
        · intro name h
          refine ⟨?_, @List.find?_some _ (fun sub => namesMatch sub n) _ _ h⟩
          exact List.mem_cons_of_mem _ (List.mem_cons_of_mem _ (List.mem_cons_of_mem _
            (List.mem_of_find?_eq_some h)))
        · intro h name hmem
          simp only [List.mem_cons] at hmem
          rcases hmem with rfl | rfl | rfl | hsub
          · exact Bool.eq_false_iff.mpr htype
          · exact Bool.eq_false_iff.mpr hinstance
          · exact Bool.eq_false_iff.mpr hhost
          · exact Bool.eq_false_iff.mpr (List.find?_eq_none.mp h name hsub)

variable (s : Service I R EV)

theorem requested_fits (sq : ServiceQuestion) (l : LegacyResp)
    (h : s.requested sq = some l) : Owed.Fits ⟨sq, l, s.records⟩ := by
  unfold requested at h
  split at h
  · cases h
  · split at h
    · obtain ⟨name, -, rfl⟩ := Option.map_eq_some_iff.mp h
      exact ⟨rfl, rfl, rfl, rfl, nofun⟩
    · obtain ⟨name, hname, rfl⟩ := Option.map_eq_some_iff.mp h
      refine ⟨rfl, rfl, rfl, rfl, ?_⟩
      intro _
      exact ((namesMatch_owner _ _).mp ((legacyEcho_spec _ _).1 name hname).2).2

theorem pushed_replies (l : LegacyResp) :
    (if s.pendingLegacy.length < maxLegacyResponses then
      if s.pendingLegacy.any l.repeats then s
      else { s with pendingLegacy := s.pendingLegacy ++ [l] }
    else s).pendingLegacy = s.pendingLegacy ++ ((some l).filter s.takes).toList := by
  rw [Option.filter_some]
  unfold takes
  by_cases hroom : s.pendingLegacy.length < maxLegacyResponses
  · rw [if_pos hroom, decide_eq_true hroom, Bool.true_and]
    cases hdup : s.pendingLegacy.any l.repeats with
    | true => exact (List.append_nil _).symm
    | false => rfl
  · rw [if_neg hroom, decide_eq_false hroom, Bool.false_and]
    exact (List.append_nil _).symm

theorem handleQuestion_replies (sq : ServiceQuestion) (now : I)
    (hpub : s.state.isPublished = true) :
    (s.handleQuestion sq now).pendingLegacy =
      s.pendingLegacy ++ ((s.requested sq).filter s.takes).toList := by
  unfold handleQuestion requested
  by_cases hport : sq.src.port = mdnsPort
  · rw [if_pos (Or.inl hport), Option.filter_none, Option.toList_none, List.append_nil]
    split
    · unfold handleMetaQuestion
      rw [if_neg (not_not.mpr hport)]
      dsimp only
      split <;> rfl
    · unfold handleMulticastQuestion
      rw [if_neg (not_not.mpr hport)]
      dsimp only
      split <;> rfl
  · rw [if_neg (show ¬(sq.src.port = mdnsPort ∨ s.state.isPublished = false) by simp [hport, hpub])]
    by_cases hmeta : isMetaQueryName sq.question.qname = true
    · rw [if_pos hmeta, if_pos hmeta]
      unfold handleMetaQuestion
      rw [if_pos hport]
      cases hname : Name.tryFromStr dnsSdMetaQueryName with
      | error e =>
        dsimp only
        split <;> exact (List.append_nil _).symm
      | ok name =>
        have hany : (s.pendingLegacy.any fun l =>
            l.dst == sq.src && l.queryId == sq.queryId && l.isMeta) =
              s.pendingLegacy.any (LegacyResp.repeats
                ⟨sq.src, sq.queryId, name, sq.question.qtype, sq.question.qclass, true⟩) := rfl
        dsimp only
        rw [hany, Except.toOption, Option.map_some]
        exact s.pushed_replies _
    · rw [if_neg hmeta, if_neg hmeta, if_pos hport]
      unfold handleLegacyQuestion
      cases hname : legacyEcho s.records sq.question.qname with
      | none =>
        dsimp only
        split <;> exact (List.append_nil _).symm
      | some name =>
        have hany : (s.pendingLegacy.any fun l =>
            l.dst == sq.src && l.queryId == sq.queryId && l.qtype == sq.question.qtype &&
              l.qclass == sq.question.qclass && l.name == name) =
              s.pendingLegacy.any (LegacyResp.repeats
                ⟨sq.src, sq.queryId, name, sq.question.qtype, sq.question.qclass, false⟩) := rfl
        dsimp only
        rw [hany, Option.map_some]
        exact s.pushed_replies _

theorem handleEvent_question (sq : ServiceQuestion) (now : I)
    (flood : ConflictFlood I) :
    (s.handleEvent (.question sq) now flood).1.pendingLegacy =
      s.pendingLegacy ++ ((s.requested sq).filter s.takes).toList := by
  unfold handleEvent receive
  dsimp only [ServiceEvent.datagram, classifyEvent]
  unfold dispatchEvent
  dsimp only
  cases hpub : s.state.isPublished with
  | true =>
    rw [if_pos rfl]
    exact ({ s with lastNow := some now } : Service I R EV).handleQuestion_replies sq now hpub
  | false =>
    have hquiet : s.requested sq = none := by
      unfold requested
      exact if_pos (Or.inr hpub)
    rw [hquiet]
    exact (List.append_nil _).symm

theorem handleEvent_replies (event : ServiceEvent) (now : I)
    (flood : ConflictFlood I) (h : ∀ sq, event ≠ .question sq) :
    (s.handleEvent event now flood).1.pendingLegacy = s.pendingLegacy ∨
      s.state.isPublished = true ∧ (s.handleEvent event now flood).1.state = .init ∧
        (s.handleEvent event now flood).1.pendingLegacy = [] := by
  have hrec := s.receive_core event now
  have hqueue : (s.receive event now).pendingLegacy = s.pendingLegacy :=
    congrArg Core.pendingLegacy hrec
  have hstate : (s.receive event now).state = s.state := congrArg Core.state hrec
  rw [← hqueue, ← hstate]
  unfold handleEvent
  generalize s.receive event now = r
  dsimp only
  split
  · exact Or.inl rfl
  · exact Or.inl rfl
  · exact Or.inl rfl
  · unfold dispatchEvent
    cases event with
    | question sq => exact absurd rfl (h sq)
    | probeConflict pc =>
      dsimp only
      split
      · have hkept : ∀ r' : Service I R EV,
            (r'.handlePreauthoritativeConflict pc).pendingLegacy = r'.pendingLegacy := by
          intro r'
          unfold handlePreauthoritativeConflict
          split
          · rfl
          · cases pc.history <;> rfl
        exact Or.inl ((hkept _).trans
          (congrArg Core.pendingLegacy (r.floodEligible_core pc.datagram)))
      · split
        · rename_i hpub
          unfold contestPublished
          split
          · exact Or.inl rfl
          · split
            · exact Or.inl rfl
            · split
              · exact Or.inl rfl
              · exact Or.inr ⟨hpub, rfl, rfl⟩
        · exact Or.inl rfl
    | probeProposal pp =>
      dsimp only
      split
      · unfold contestProposed handleProbeProposal
        cases adjudicate pp r.records <;> exact Or.inl rfl
      · exact Or.inl rfl
    | knownAnswer ka =>
      dsimp only
      unfold handleKnownAnswer
      split
      · unfold handleMetaKnownAnswer
        split
        · split
          · exact Or.inl rfl
          · exact Or.inl rfl
        · exact Or.inl rfl
      · split
        · exact Or.inl rfl
        · exact Or.inl rfl
    | hostConflict hc =>
      dsimp only
      unfold handleHostConflict
      split
      · exact Or.inl rfl
      · refine Or.inl ?_
        exact (congrArg Core.pendingLegacy (notify_core _ _)).trans
          (congrArg Core.pendingLegacy (r.floodEligible_core _))

theorem sends_nothing {P : Sent → Prop} (d : Sent) (h : (none : Option Sent) = some d) : P d :=
  absurd h.symm (Option.some_ne_none d)

theorem pollMeta_serves (now : I) (buf : Bytes) :
    (s.pollMeta now buf).1.pendingLegacy = s.pendingLegacy ∧
      (∀ d, (s.pollMeta now buf).2 = some d → d.transmit.dst = multicastDst) ∧
      ((s.pollMeta now buf).2 ≠ none → due s.metaResponseDeadline now = true ∧
        (s.pollMeta now buf).1.metaResponseDeadline = none) := by
  unfold pollMeta
  split
  · exact ⟨rfl, sends_nothing, fun h => absurd rfl h⟩
  · rename_i deadline hdeadline
    split
    · exact ⟨rfl, sends_nothing, fun h => absurd rfl h⟩
    · rename_i hdue
      dsimp only
      split
      · exact ⟨rfl, sends_nothing, fun h => absurd rfl h⟩
      · split
        · exact ⟨rfl, sends_nothing, fun h => absurd rfl h⟩
        · split
          · exact ⟨rfl, sends_nothing, fun h => absurd rfl h⟩
          · refine ⟨rfl, ?_, ?_⟩
            · rintro d ⟨⟩
              rfl
            · intro _
              refine ⟨(due_iff _ _).mpr ⟨deadline, hdeadline, not_lt.mp hdue⟩, rfl⟩

theorem pollQueue_serves (now : I) (buf : Bytes) :
    (s.pollQueue now buf).1.pendingLegacy = s.pendingLegacy ∧
      ∀ d, sentOf (s.pollQueue now buf).2 = some d → d.transmit.dst = multicastDst := by
  unfold pollQueue
  dsimp only
  split
  · exact ⟨rfl, sends_nothing⟩
  · split
    · exact ⟨rfl, sends_nothing⟩
    · split
      · split
        · exact ⟨rfl, sends_nothing⟩
        · refine ⟨rfl, ?_⟩
          rintro d ⟨⟩
          rfl
      · split
        · exact ⟨rfl, sends_nothing⟩
        · refine ⟨rfl, ?_⟩
          rintro d ⟨⟩
          rfl
      · split
        · exact ⟨rfl, sends_nothing⟩
        · split
          · exact ⟨rfl, sends_nothing⟩
          · refine ⟨rfl, ?_⟩
            rintro d ⟨⟩
            rfl

end Service

/-- What a poll makes of the queue: it leaves it alone, it sends the oldest reply, or it drops the
one that the encoder refuses. What is sent otherwise goes to the group. -/
inductive Serves (records : ServiceRecords) (buf : Bytes) :
    List LegacyResp → List LegacyResp → Option Sent → Prop
  | kept (queue : List LegacyResp) (sent : Option Sent)
    (hgroup : ∀ d, sent = some d → d.transmit.dst = multicastDst) :
    Serves records buf queue queue sent
  | sent (reply : LegacyResp) (rest : List LegacyResp) (msg : Message) (token : AwaitingConfirm)
    (he : Service.encodeLegacy records reply buf = .ok (msg, token)) :
    Serves records buf (reply :: rest) rest (some (Sent.stamped token reply.dst msg))
  | dropped (reply : LegacyResp) (rest : List LegacyResp) (e : EncodeError)
    (he : Service.encodeLegacy records reply buf = .error e) (sent : Option Sent)
    (hgroup : ∀ d, sent = some d → d.transmit.dst = multicastDst) :
    Serves records buf (reply :: rest) rest sent

namespace Service
variable {I R : Type} {EV : Type → Type} [Instant I] [SeedableRng R] [Pool EV]

theorem pollTransmit_serves (s : Service I R EV) (now : I) (buf : Bytes) :
    Serves s.records buf s.pendingLegacy (s.pollTransmit now buf).1.pendingLegacy
      (sentOf (s.pollTransmit now buf).2) := by
  unfold pollTransmit
  split
  · exact .kept _ _ sends_nothing
  · obtain ⟨hqueue, hgroup, -⟩ := s.pollMeta_serves now buf
    have hnone := s.pollMeta_none now buf
    generalize s.pollMeta now buf = polled at *
    obtain ⟨s₁, _ | d⟩ := polled
    · have hrec : s₁.records = s.records := congrArg Core.records (hnone rfl).1
      rw [← hqueue, ← hrec]
      dsimp only
      unfold pollLegacy
      cases hreplies : s₁.pendingLegacy with
      | nil =>
        have hserves := s₁.pollQueue_serves now buf
        rw [hreplies] at hserves
        dsimp only
        rw [hserves.1]
        exact .kept _ _ hserves.2
      | cons reply rest =>
        dsimp only
        by_cases hopen : s₁.conflictClassifiedUnresolved = true
        · have hserves := s₁.pollQueue_serves now buf
          rw [hreplies] at hserves
          rw [if_pos hopen]
          dsimp only
          rw [hserves.1]
          exact .kept _ _ hserves.2
        · rw [if_neg hopen]
          cases he : encodeLegacy s₁.records reply buf with
          | error e =>
            have hserves := ({ s₁ with pendingLegacy := rest } : Service I R EV).pollQueue_serves
              now buf
            dsimp only
            rw [hserves.1]
            exact .dropped reply rest e he _ hserves.2
          | ok sent => exact .sent reply rest sent.1 sent.2 he
    · have hkept : s₁.pendingLegacy = s.pendingLegacy := hqueue
      dsimp only
      rw [hkept]
      exact .kept _ _ fun d' h => hgroup d' h

theorem pollDeferred_serves (s : Service I R EV) (now : I) (flood : ConflictFlood I) (buf : Bytes) :
    Serves s.records buf s.pendingLegacy (s.pollDeferred now flood buf).1.pendingLegacy
      (sentOf (s.pollDeferred now flood buf).2) := by
  have hkept : (s.deferFirstProbeUnderFlood now flood).records = s.records ∧
      (s.deferFirstProbeUnderFlood now flood).pendingLegacy = s.pendingLegacy := by
    unfold deferFirstProbeUnderFlood
    split
    · exact ⟨rfl, rfl⟩
    · split
      · split <;> exact ⟨rfl, rfl⟩
      · exact ⟨rfl, rfl⟩
  have hserves := (s.deferFirstProbeUnderFlood now flood).pollTransmit_serves now buf
  rw [hkept.1, hkept.2] at hserves
  exact hserves

theorem pollDeferred_serves_head (s : Service I R EV) (now : I) (flood : ConflictFlood I)
    (buf : Bytes) (htoken : s.awaitingConfirm = none) (hl : s.core.latched = false) :
    (s.pollDeferred now flood buf).1.pendingLegacy = s.pendingLegacy.tail ∨
      due s.metaResponseDeadline now = true ∧
        (s.pollDeferred now flood buf).1.metaResponseDeadline = none := by
  unfold pollDeferred
  have hkept : (s.deferFirstProbeUnderFlood now flood).core.latched = s.core.latched ∧
      (s.deferFirstProbeUnderFlood now flood).awaitingConfirm = s.awaitingConfirm ∧
      (s.deferFirstProbeUnderFlood now flood).pendingLegacy = s.pendingLegacy ∧
      (s.deferFirstProbeUnderFlood now flood).metaResponseDeadline = s.metaResponseDeadline := by
    unfold deferFirstProbeUnderFlood
    split
    · exact ⟨rfl, rfl, rfl, rfl⟩
    · split
      · split <;> exact ⟨rfl, rfl, rfl, rfl⟩
      · exact ⟨rfl, rfl, rfl, rfl⟩
  obtain ⟨hlatched, hfree, hqueue, hdeadline⟩ := hkept
  rw [← hqueue, ← hdeadline]
  rw [← hlatched] at hl
  rw [← hfree] at htoken
  generalize s.deferFirstProbeUnderFlood now flood = r at hl htoken
  unfold pollTransmit
  rw [if_neg (by rw [htoken]; exact Bool.false_ne_true)]
  obtain ⟨hqueue', -, hdue⟩ := r.pollMeta_serves now buf
  have hnone := r.pollMeta_none now buf
  generalize r.pollMeta now buf = polled at *
  obtain ⟨s₁, _ | d⟩ := polled
  · refine Or.inl ?_
    have hcore : s₁.core = r.core := (hnone rfl).1
    have hopen : ¬s₁.conflictClassifiedUnresolved = true := by
      rw [show s₁.conflictClassifiedUnresolved = s₁.core.latched from rfl, hcore, hl]
      exact Bool.false_ne_true
    rw [← show s₁.pendingLegacy = r.pendingLegacy from hqueue']
    dsimp only
    unfold pollLegacy
    cases hreplies : s₁.pendingLegacy with
    | nil =>
      dsimp only
      exact ((s₁.pollQueue_serves now buf).1).trans hreplies
    | cons reply rest =>
      dsimp only
      rw [if_neg hopen]
      cases he : encodeLegacy s₁.records reply buf with
      | error e =>
        exact (({ s₁ with pendingLegacy := rest } : Service I R EV).pollQueue_serves now buf).1
      | ok sent => rfl
  · exact Or.inr (hdue (Option.some_ne_none d))

end Service

namespace Session
variable {I R : Type} {EV : Type → Type} [Instant I] [SeedableRng R] [Pool EV]

def accepts (s : Session I R EV) (e : Timed I) : Option Owed :=
  match e.call with
  | .event (.question sq) _ =>
    if s.withdrawing then none
    else ((s.service.requested sq).filter s.service.takes).map fun l => ⟨sq, l, s.service.records⟩
  | _ => none

def reply (s : Session I R EV) (e : Timed I) : Option Sent :=
  (s.sent e).filter fun d => d.transmit.dst.port ≠ mdnsPort

/-- The call begins the probe cycle again, gives the name up, or withdraws the service. -/
def clears (s : Session I R EV) (e : Timed I) : Bool :=
  s.restarts e || match e.call with
    | .withdraw => !s.withdrawing
    | _ => false

inductive ReplyStep (s : Session I R EV) (e : Timed I) : Prop
  | kept (haccepts : s.accepts e = none) (hreply : s.reply e = none)
    (hrecords : (s.next e).service.records = s.service.records)
    (hqueue : (s.next e).service.pendingLegacy = s.service.pendingLegacy)
  | taken (o : Owed) (haccepts : s.accepts e = some o) (hreply : s.reply e = none)
    (hfits : o.Fits) (howed : o.records = s.service.records)
    (hrecords : (s.next e).service.records = s.service.records)
    (hqueue : (s.next e).service.pendingLegacy = s.service.pendingLegacy ++ [o.reply])
  | sent (l : LegacyResp) (haccepts : s.accepts e = none) (buf : Bytes) (msg : Message)
    (token : AwaitingConfirm) (he : Service.encodeLegacy s.service.records l buf = .ok (msg, token))
    (hsent : s.sent e = some (Sent.stamped token l.dst msg))
    (hreply : s.reply e = some (Sent.stamped token l.dst msg))
    (hrecords : (s.next e).service.records = s.service.records)
    (hqueue : s.service.pendingLegacy = l :: (s.next e).service.pendingLegacy)
  | unfit (l : LegacyResp) (haccepts : s.accepts e = none) (hreply : s.reply e = none)
    (flood : ConflictFlood I) (buf : Bytes) (hcall : e.call = .poll flood buf) (error : EncodeError)
    (he : Service.encodeLegacy s.service.records l buf = .error error)
    (hrecords : (s.next e).service.records = s.service.records)
    (hqueue : s.service.pendingLegacy = l :: (s.next e).service.pendingLegacy)
  | cleared (haccepts : s.accepts e = none) (hreply : s.reply e = none) (hclears : s.clears e = true)
    (hqueue : (s.next e).service.pendingLegacy = [])

variable (ts : List (Transition (Session I R EV) (Timed I))) (s : Session I R EV)

theorem next_event (now : I) (event : ServiceEvent) (flood : ConflictFlood I) :
    ReplyStep s ⟨now, .event event flood⟩ := by
  by_cases hw : s.withdrawing = true
  · have haccepts : s.accepts ⟨now, .event event flood⟩ = none := by
      unfold accepts
      cases event with
      | question sq => exact if_pos hw
      | _ => rfl
    have hnext : (s.next ⟨now, .event event flood⟩).service =
        s.service.takeRenameGoodbyeHandoff.1 := by
      simp only [next, served, heeds, hw, Bool.not_true, Bool.false_eq_true, if_false]
    refine .kept haccepts rfl ?_ ?_
    · rw [hnext]
      rfl
    · rw [hnext]
      rfl
  · have hnext : (s.next ⟨now, .event event flood⟩).service =
        (s.service.handleEvent event now flood).1.takeRenameGoodbyeHandoff.1 := by
      simp only [next, served, heeds, hw, Bool.not_false, if_true]
      rfl
    have hrec : (s.service.handleEvent event now flood).1.core.records = s.service.records := by
      have heff := s.service.handleEvent_effect event now flood
      generalize (s.service.handleEvent event now flood).1.core = c at heff
      cases heff <;> rfl
    have hrecords : (s.next ⟨now, .event event flood⟩).service.records = s.service.records := by
      rw [hnext]
      exact hrec
    have hother : (∀ sq, event ≠ .question sq) → ReplyStep s ⟨now, .event event flood⟩ := by
      intro hne
      have haccepts : s.accepts ⟨now, .event event flood⟩ = none := by
        cases event with
        | question sq => exact absurd rfl (hne sq)
        | _ => rfl
      cases s.service.handleEvent_replies event now flood hne with
      | inl hkept =>
        refine .kept haccepts rfl hrecords ?_
        rw [hnext]
        exact hkept
      | inr hrestart =>
        obtain ⟨hpub, hinit, hempty⟩ := hrestart
        refine .cleared haccepts rfl ?_ ?_
        · have hpast : s.service.state ≠ .init := by
            intro h
            rw [h] at hpub
            cases hpub
          have hback : (s.next ⟨now, .event event flood⟩).service.state = .init := by
            rw [hnext]
            exact hinit
          simp only [clears, restarts, hpast, hback, ne_eq, not_false_eq_true, decide_true,
            Bool.and_self, Bool.or_true, Bool.true_or]
        · rw [hnext]
          exact hempty
    cases event with
    | question sq =>
      have hreplies := s.service.handleEvent_question sq now flood
      have haccepts : s.accepts ⟨now, .event (.question sq) flood⟩ =
          ((s.service.requested sq).filter s.service.takes).map
            fun l => ⟨sq, l, s.service.records⟩ := if_neg hw
      cases hasked : (s.service.requested sq).filter s.service.takes with
      | none =>
        rw [hasked] at hreplies haccepts
        refine .kept haccepts rfl hrecords ?_
        rw [hnext]
        exact hreplies.trans (List.append_nil _)
      | some l =>
        rw [hasked] at hreplies haccepts
        refine .taken ⟨sq, l, s.service.records⟩ haccepts rfl ?_ rfl hrecords ?_
        · exact s.service.requested_fits sq l (Option.filter_eq_some_iff.mp hasked).1
        · rw [hnext]
          exact hreplies
    | probeConflict pc => exact hother fun _ h => by cases h
    | probeProposal pp => exact hother fun _ h => by cases h
    | knownAnswer ka => exact hother fun _ h => by cases h
    | hostConflict hc => exact hother fun _ h => by cases h

theorem next_poll (now : I) (flood : ConflictFlood I) (buf : Bytes)
    (hstand : s.service.core.Standing) : ReplyStep s ⟨now, .poll flood buf⟩ := by
  by_cases hw : s.withdrawing = true
  · have hsent : s.sent ⟨now, .poll flood buf⟩ = none := if_pos hw
    have hnext : (s.next ⟨now, .poll flood buf⟩).service =
        s.service.takeRenameGoodbyeHandoff.1 := by
      simp only [next, served, heeds, hw, Bool.not_true, Bool.false_eq_true, if_false]
    refine .kept rfl ?_ ?_ ?_
    · rw [reply, hsent, Option.filter_none]
    · rw [hnext]
      rfl
    · rw [hnext]
      rfl
  · have hsent : s.sent ⟨now, .poll flood buf⟩ = sentOf (s.service.pollDeferred now flood buf).2 :=
      if_neg hw
    have hnext : (s.next ⟨now, .poll flood buf⟩).service =
        (s.service.pollDeferred now flood buf).1.takeRenameGoodbyeHandoff.1 := by
      simp only [next, served, heeds, hw, Bool.not_false, if_true]
      rfl
    have hrecords : (s.next ⟨now, .poll flood buf⟩).service.records = s.service.records := by
      have heff := s.next_effect ⟨now, .poll flood buf⟩
      show (s.next ⟨now, .poll flood buf⟩).service.core.records = s.service.core.records
      generalize (s.next ⟨now, .poll flood buf⟩).service.core = c at heff
      cases heff with
      | idle hsent hconfirm htimeout => rfl
      | poll flood buf he hw c₁ c sent hdefer heff hsent =>
        obtain ⟨hstand', hsame, -, -⟩ := hstand.deferred _ c₁ now _ hdefer
        exact (hstand'.poll c₁ _ now _ _ heff).2.1.trans hsame
      | _ => contradiction
    have hqueue : (s.next ⟨now, .poll flood buf⟩).service.pendingLegacy =
        (s.service.pollDeferred now flood buf).1.pendingLegacy := by
      rw [hnext]
      rfl
    have hserves := s.service.pollDeferred_serves now flood buf
    rw [← hqueue, ← hsent] at hserves
    have hgroup : (∀ d, s.sent ⟨now, .poll flood buf⟩ = some d → d.transmit.dst = multicastDst) →
        s.reply ⟨now, .poll flood buf⟩ = none := by
      intro h
      unfold reply
      rw [Option.filter_eq_none_iff]
      intro d hd
      rw [h d hd]
      decide
    have hport := hstand.oneShot
    generalize hs' : (s.next ⟨now, .poll flood buf⟩).service.pendingLegacy = queue' at hserves
    generalize hq : s.service.pendingLegacy = queue at hserves
    generalize hd : s.sent ⟨now, .poll flood buf⟩ = d at hserves
    cases hserves with
    | kept _ _ hmulticast =>
      refine .kept rfl (hgroup ?_) hrecords (hs'.trans hq.symm)
      rw [hd]
      exact hmulticast
    | sent l rest msg token he =>
      have hunicast : l.dst.port ≠ mdnsPort := hport l (by
        rw [show s.service.core.pendingLegacy = s.service.pendingLegacy from rfl, hq]
        exact List.mem_cons_self)
      refine .sent l rfl buf msg token he hd ?_ hrecords (by rw [hs', hq])
      unfold reply
      rw [hd, Option.filter_some]
      exact if_pos (decide_eq_true hunicast)
    | dropped l rest e he d' hmulticast =>
      refine .unfit l rfl (hgroup ?_) flood buf rfl e he hrecords (by rw [hs', hq])
      rw [hd]
      exact hmulticast

theorem next_replies (e : Timed I) (hstand : s.service.core.Standing) :
    ReplyStep s e := by
  obtain ⟨now, call⟩ := e
  -- the other calls neither ask nor send; they change the queue only by clearing it
  have hquiet : s.accepts ⟨now, call⟩ = none → s.reply ⟨now, call⟩ = none →
      (∀ event flood, call ≠ .event event flood) → (∀ flood buf, call ≠ .poll flood buf) →
      ReplyStep s ⟨now, call⟩ := by
    intro haccepts hreply hevent hpoll
    have heff := s.next_effect ⟨now, call⟩
    have hkept : (s.next ⟨now, call⟩).service.core.records = s.service.core.records →
        (s.next ⟨now, call⟩).service.core.pendingLegacy = s.service.core.pendingLegacy →
        ReplyStep s ⟨now, call⟩ := .kept haccepts hreply
    have hcleared : s.clears ⟨now, call⟩ = true →
        (s.next ⟨now, call⟩).service.core.pendingLegacy = [] → ReplyStep s ⟨now, call⟩ :=
      .cleared haccepts hreply
    generalize (s.next ⟨now, call⟩).service.core = c at heff hkept hcleared
    cases heff with
    | idle hsent hconfirm htimeout => exact hkept rfl rfl
    | event event flood he hw c heff => exact absurd he (hevent event flood)
    | timeout flood taken he hw c heff =>
      have hspends : s.service.core.latched = true → s.clears ⟨now, call⟩ = true := by
        intro hl
        have hcall : call = .timeout flood taken := he
        simp only [clears, restarts, timerFires, hcall, hw, hl, Bool.not_false, Bool.and_self,
          Bool.true_or]
      cases heff with
      | waited hd hl =>
        refine hcleared (hspends ?_) rfl
        rw [Core.latched, hl, Bool.or_true]
      | renamed hd name hname deadline =>
        refine hcleared (hspends ?_) rfl
        rw [Core.latched, hd, Bool.true_or]
      | gaveUp hd =>
        refine hcleared (hspends ?_) rfl
        rw [Core.latched, hd, Bool.true_or]
      | ticked hl c hticks =>
        have hsame : c.records = s.service.core.records ∧
            c.pendingLegacy = s.service.core.pendingLegacy := by
          clear hkept hcleared
          induction hticks with
          | refl => exact ⟨rfl, rfl⟩
          | tail _ hmove ih => cases hmove <;> exact ih
        exact hkept hsame.1 hsame.2
    | poll flood buf he hw c₁ c sent hdefer heff hsent => exact absurd he (hpoll flood buf)
    | confirm v4 v6 he kind hk c heff =>
      cases heff <;> exact hkept rfl rfl
    | withdraw he hw =>
      have hcall : call = .withdraw := he
      refine hcleared ?_ rfl
      simp only [clears, hcall, hw, Bool.not_false, Bool.or_true]
  cases call with
  | event event flood => exact s.next_event now event flood
  | poll flood buf => exact s.next_poll now flood buf hstand
  | timeout flood taken => exact hquiet rfl rfl (fun _ _ h => by cases h) (fun _ _ h => by cases h)
  | outcome v4 v6 => exact hquiet rfl rfl (fun _ _ h => by cases h) (fun _ _ h => by cases h)
  | update => exact hquiet rfl rfl (fun _ _ h => by cases h) (fun _ _ h => by cases h)
  | withdraw => exact hquiet rfl rfl (fun _ _ h => by cases h) (fun _ _ h => by cases h)

def owed (ts : List (Transition (Session I R EV) (Timed I))) : List Owed :=
  ts.filterMap fun t => t.pre.accepts t.call

def replies (ts : List (Transition (Session I R EV) (Timed I))) : List Sent :=
  ts.filterMap fun t => t.pre.reply t.call

inductive Fate where
  | sent (d : Sent)
  | unfit
  | cleared

def Fate.datagram : Fate → Option Sent
  | .sent d => some d
  | _ => none

/-- What a run has to show for the fate of a reply: the datagram that answers the question with the
records it asked, the poll whose buffer the reply did not fit, or the call that cleared it. -/
def Met (ts : List (Transition (Session I R EV) (Timed I))) (o : Owed) : Fate → Prop
  | .sent d => ∃ t ∈ ts, t.pre.sent t.call = some d ∧ t.pre.service.records = o.records ∧
      d.transmit.dst = o.question.src ∧ (o.reply.isMeta = false → o.question.question.Received →
        d.message.Sound o.records → ∃ reader, d.message.AnswersInFull o.records o.question reader)
  | .unfit => ∃ t ∈ ts, t.pre.service.pendingLegacy.head? = some o.reply ∧
      ∃ flood buf e, t.call.call = .poll flood buf ∧
        Service.encodeLegacy o.records o.reply buf = .error e
  | .cleared => ∃ t ∈ ts, o.reply ∈ t.pre.service.pendingLegacy ∧ t.pre.clears t.call = true

theorem Met.later (o : Owed) (fate : Fate)
    (h : Met ts o fate) (ts' : List (Transition (Session I R EV) (Timed I))) :
    Met (ts ++ ts') o fate := by
  cases fate with
  | _ =>
    obtain ⟨t, ht, hmet⟩ := h
    exact ⟨t, List.mem_append_left _ ht, hmet⟩

structure Account (ts : List (Transition (Session I R EV) (Timed I))) (s : Session I R EV)
    (done : List (Owed × Fate)) (queue : List Owed) : Prop where
  owed : owed ts = done.map Prod.fst ++ queue
  pending : queue.map Owed.reply = s.service.pendingLegacy
  standing : ∀ o ∈ queue, o.Fits ∧ o.records = s.service.records
  replies : replies ts = done.filterMap fun p => p.2.datagram
  met : ∀ p ∈ done, Met ts p.1 p.2

theorem owed_snoc (t : Transition (Session I R EV) (Timed I)) :
    owed (ts ++ [t]) = owed ts ++ (t.pre.accepts t.call).toList ∧
      replies (ts ++ [t]) = replies ts ++ (t.pre.reply t.call).toList := by
  unfold owed replies
  simp only [List.filterMap_append, List.filterMap_cons, List.filterMap_nil]
  constructor
  · cases t.pre.accepts t.call <;> rfl
  · cases t.pre.reply t.call <;> rfl

theorem Account.settle (done : List (Owed × Fate)) (queue : List Owed) (h : Account ts s done queue)
    (e : Timed I)
    (l : LegacyResp) (fate : Fate) (haccepts : s.accepts e = none)
    (hreply : (s.reply e) = fate.datagram)
    (hrecords : (s.next e).service.records = s.service.records)
    (hqueue : s.service.pendingLegacy = l :: (s.next e).service.pendingLegacy)
    (hmet : ∀ o : Owed, o.reply = l → o.Fits → o.records = s.service.records →
      Met (ts ++ [⟨s, e, s.next e⟩]) o fate) :
    ∃ done' queue', Account (ts ++ [⟨s, e, s.next e⟩]) (s.next e) done' queue' := by
  obtain ⟨howed, hreplies⟩ := owed_snoc ts ⟨s, e, s.next e⟩
  cases queue with
  | nil =>
    have hempty := h.pending
    rw [hqueue] at hempty
    cases hempty
  | cons o queue =>
    have hpending := h.pending
    rw [hqueue, List.map_cons] at hpending
    obtain ⟨hfits, hasked⟩ := h.standing o List.mem_cons_self
    refine ⟨done ++ [(o, fate)], queue, ?_, (List.cons.inj hpending).2, ?_, ?_, ?_⟩
    · rw [howed, h.owed, haccepts, Option.toList_none, List.append_nil, List.map_append,
        List.append_assoc]
      rfl
    · intro o' ho'
      obtain ⟨hfits', hasked'⟩ := h.standing o' (List.mem_cons_of_mem _ ho')
      exact ⟨hfits', hasked'.trans hrecords.symm⟩
    · rw [hreplies, h.replies, hreply, List.filterMap_append]
      cases fate <;> rfl
    · intro p hp
      rcases List.mem_append.mp hp with hold | hnew
      · exact (h.met p hold).later ts _ _ _
      · rw [List.mem_singleton.mp hnew]
        exact hmet o (List.cons.inj hpending).1 hfits hasked

theorem Account.next (done : List (Owed × Fate)) (queue : List Owed) (h : Account ts s done queue)
    (e : Timed I)
    (hstand : s.service.core.Standing) :
    ∃ done' queue', Account (ts ++ [⟨s, e, s.next e⟩]) (s.next e) done' queue' := by
  obtain ⟨howed, hreplies⟩ := owed_snoc ts ⟨s, e, s.next e⟩
  have hlast : (⟨s, e, s.next e⟩ : Transition (Session I R EV) (Timed I)) ∈
      ts ++ [⟨s, e, s.next e⟩] := List.mem_append_right _ List.mem_cons_self
  have hmet : ∀ p ∈ done, Met (ts ++ [⟨s, e, s.next e⟩]) p.1 p.2 :=
    fun p hp => (h.met p hp).later ts _ _ _
  cases s.next_replies e hstand with
  | kept haccepts hreply hrecords hqueue =>
    refine ⟨done, queue, ?_, h.pending.trans hqueue.symm, ?_, ?_, hmet⟩
    · rw [howed, h.owed, haccepts, Option.toList_none, List.append_nil]
    · rw [hrecords]
      exact h.standing
    · rw [hreplies, h.replies, hreply, Option.toList_none, List.append_nil]
  | taken o haccepts hreply hfits hasked hrecords hqueue =>
    refine ⟨done, queue ++ [o], ?_, ?_, ?_, ?_, hmet⟩
    · rw [howed, h.owed, haccepts, Option.toList_some, List.append_assoc]
    · rw [hqueue, ← h.pending, List.map_append, List.map_singleton]
    · rw [hrecords]
      intro o' ho'
      rcases List.mem_append.mp ho' with hold | hnew
      · exact h.standing o' hold
      · rw [List.mem_singleton.mp hnew]
        exact ⟨hfits, hasked⟩
    · rw [hreplies, h.replies, hreply, Option.toList_none, List.append_nil]
  | sent l haccepts buf msg token he hsent hreply hrecords hqueue =>
    refine h.settle ts s done queue e l (.sent (Sent.stamped token l.dst msg)) haccepts hreply
      hrecords hqueue ?_
    rintro o rfl hfits hasked
    refine ⟨_, hlast, hsent, hasked.symm, hfits.dst, ?_⟩
    intro hplain hreceived hsound
    unfold Service.encodeLegacy at he
    rw [if_neg (by rw [hplain]; exact Bool.false_ne_true), ← hasked, hfits.queryId, hfits.qtype,
      hfits.qclass] at he
    split at he
    · cases he
    · rename_i msg' emitted hwritten
      cases he
      exact legacyResponse_answers o.records o.question o.reply.name buf msg emitted
        (hfits.name hplain) hreceived hwritten hsound
  | unfit l haccepts hreply flood buf hcall error he hrecords hqueue =>
    refine h.settle ts s done queue e l .unfit haccepts hreply hrecords hqueue ?_
    rintro o rfl hfits hasked
    refine ⟨_, hlast, ?_, flood, buf, error, hcall, ?_⟩
    · rw [show (⟨s, e, s.next e⟩ : Transition (Session I R EV) (Timed I)).pre = s from rfl, hqueue]
      rfl
    · rw [hasked]
      exact he
  | cleared haccepts hreply hclears hqueue =>
    refine ⟨done ++ queue.map fun o => (o, .cleared), [], ?_, hqueue.symm,
      fun _ ho => absurd ho List.not_mem_nil, ?_, ?_⟩
    · have hfst : (queue.map fun o => (o, Fate.cleared)).map Prod.fst = queue := by
        rw [List.map_map]
        exact List.map_id queue
      rw [howed, h.owed, haccepts, Option.toList_none, List.append_nil, List.map_append, hfst,
        List.append_nil]
    · have hnone : (queue.map fun o => (o, Fate.cleared)).filterMap (fun p => p.2.datagram) = [] := by
        rw [List.filterMap_map]
        exact List.filterMap_eq_nil_iff.mpr fun o _ => rfl
      rw [hreplies, h.replies, hreply, Option.toList_none, List.append_nil, List.filterMap_append,
        hnone, List.append_nil]
    · intro p hp
      rcases List.mem_append.mp hp with hold | hnew
      · exact hmet p hold
      · obtain ⟨o, ho, rfl⟩ := List.mem_map.mp hnew
        refine ⟨_, hlast, ?_, hclears⟩
        show o.reply ∈ s.service.pendingLegacy
        rw [← h.pending]
        exact List.mem_map_of_mem ho

theorem account_run (probe : Bool) (ts : List (Transition (Session I R EV) (Timed I)))
    (s : Session I R EV) (run : Run (machine probe) ts s) :
    ∃ done queue, Account ts s done queue := by
  induction run with
  | start s hstart =>
    obtain ⟨records, now, seed, reAnnounce, flood, -, rfl⟩ := hstart
    exact ⟨[], [], rfl, rfl, fun _ ho => absurd ho List.not_mem_nil, rfl,
      fun _ hp => absurd hp List.not_mem_nil⟩
  | step ts s e run hadmits ih =>
    obtain ⟨done, queue, h⟩ := ih
    exact h.next ts s done queue e (tracked_run probe ts s run).standing

theorem accepts_new (now : I) (sq : ServiceQuestion) (flood : ConflictFlood I)
    (hw : s.withdrawing = false) (hpub : s.service.state.isPublished = true)
    (hport : sq.src.port ≠ mdnsPort) (hmeta : isMetaQueryName sq.question.qname = false)
    (name : Name) (hname : name ∈ ownNames s.service.records) (hroot : name.text ≠ [])
    (hasked : sq.question.qname.SameOwner name)
    (hroom : s.service.pendingLegacy.length < maxLegacyResponses)
    (hnew : ∀ l ∈ s.service.pendingLegacy, ¬(l.dst = sq.src ∧ l.queryId = sq.queryId ∧
      sq.question.qname.SameOwner l.name ∧ l.qtype = sq.question.qtype ∧
      l.qclass = sq.question.qclass)) :
    ∃ o, s.accepts ⟨now, .event (.question sq) flood⟩ = some o ∧ o.question = sq ∧
      o.reply.isMeta = false ∧ o.records = s.service.records := by
  cases hecho : Service.legacyEcho s.service.records sq.question.qname with
  | none =>
    have hmatch := (namesMatch_owner name sq.question.qname).mpr ⟨hroot, hasked⟩
    rw [(Service.legacyEcho_spec _ _).2 hecho name hname] at hmatch
    cases hmatch
  | some echo =>
    have howner := ((namesMatch_owner _ _).mp
      ((Service.legacyEcho_spec _ _).1 echo hecho).2).2
    have hrequested : s.service.requested sq =
        some ⟨sq.src, sq.queryId, echo, sq.question.qtype, sq.question.qclass, false⟩ := by
      unfold Service.requested
      rw [if_neg (by simp [hport, hpub]), hmeta, if_neg Bool.false_ne_true, hecho]
      rfl
    have htakes : s.service.takes
        ⟨sq.src, sq.queryId, echo, sq.question.qtype, sq.question.qclass, false⟩ = true := by
      unfold Service.takes
      rw [decide_eq_true hroom, Bool.true_and, Bool.not_eq_true', List.any_eq_false]
      intro l hl hdup
      simp only [LegacyResp.repeats, Bool.false_eq_true, if_false, Bool.and_eq_true, beq_iff_eq]
        at hdup
      obtain ⟨⟨⟨⟨hdst, hid⟩, htype⟩, hclass⟩, hqueued⟩ := hdup
      refine hnew l hl ⟨hdst, hid, ?_, htype, hclass⟩
      rw [hqueued]
      exact howner
    refine ⟨⟨sq, ⟨sq.src, sq.queryId, echo, sq.question.qtype, sq.question.qclass, false⟩,
      s.service.records⟩, ?_, rfl, rfl, rfl⟩
    unfold accepts
    dsimp only
    rw [hw, if_neg Bool.false_ne_true, hrequested, Option.filter_some, if_pos htakes]
    rfl

/-- Every one-shot question that a published service has room for is owed a reply, unless a like one
is queued. -/
theorem one_shot_replies_in_order (probe : Bool)
    (ts : List (Transition (Session I R EV) (Timed I))) (s : Session I R EV)
    (run : Run (machine probe) ts s) :
    (∃ done queue, Account ts s done queue) ∧
      (∀ t ∈ ts, ∀ sq flood, t.call.call = .event (.question sq) flood →
        t.pre.withdrawing = false → t.pre.service.state.isPublished = true →
        sq.src.port ≠ mdnsPort → isMetaQueryName sq.question.qname = false →
        ∀ name ∈ ownNames t.pre.service.records, name.text ≠ [] →
          sq.question.qname.SameOwner name →
          t.pre.service.pendingLegacy.length < maxLegacyResponses →
          (∀ l ∈ t.pre.service.pendingLegacy, ¬(l.dst = sq.src ∧ l.queryId = sq.queryId ∧
            sq.question.qname.SameOwner l.name ∧ l.qtype = sq.question.qtype ∧
            l.qclass = sq.question.qclass)) →
          ∃ o, t.pre.accepts t.call = some o ∧ o.question = sq ∧ o.reply.isMeta = false ∧
            o.records = t.pre.service.records) ∧
      (s.service.pendingLegacy ≠ [] → due s.pollTimeout s.clock = true) ∧
      ∀ now flood buf, s.withdrawing = false → s.service.awaitingConfirm = none →
        s.service.core.latched = false →
        (s.next ⟨now, .poll flood buf⟩).service.pendingLegacy = s.service.pendingLegacy.tail ∨
          due s.service.metaResponseDeadline now = true ∧
            (s.next ⟨now, .poll flood buf⟩).service.metaResponseDeadline = none := by
  refine ⟨account_run probe ts s run, ?_, ?_, ?_⟩
  · rintro ⟨pre, ⟨now, call⟩, post⟩ - sq flood rfl hw hpub hport hmeta name hname hroot hasked hroom
      hnew
    exact pre.accepts_new now sq flood hw hpub hport hmeta name hname hroot hasked hroom hnew
  · intro hqueue
    have hpoised := poised_run probe ts s run
    have hw : ¬s.withdrawing = true := fun hw => hqueue (hpoised.withdrawn hw).2.1
    unfold pollTimeout
    rw [if_neg hw]
    exact s.service.pollTimeout_urgent s.clock hpoised.seen (Or.inl hqueue)
  · intro now flood buf hw htoken hl
    have hnext : (s.next ⟨now, .poll flood buf⟩).service =
        (s.service.pollDeferred now flood buf).1.takeRenameGoodbyeHandoff.1 := by
      simp only [next, served, heeds, hw, Bool.not_false, if_true]
      rfl
    rw [hnext]
    exact s.service.pollDeferred_serves_head now flood buf htoken hl

def resolver : SocketAddr := .v4 (.new 10 0 0 9) 5000

/-- A printer whose host has the name is announced without probing. At 950 ms the resolver asks for
`name`, and the printer is polled. -/
def resolving (name : Name) : List (Timed Uptime) :=
  [timer 0, pollAt 0, acceptedAt 0] ++
    (match encode Header.new (List.replicate 512 0)
        (MessageBuilder.pushQuestion name .any .in_ false) with
      | .ok (query, _) => (MessageReader.questions ⟨query.octets, query.header⟩).filterMap fun q =>
        match q with
        | .ok q => some ⟨950000000, .event (.question ⟨q, resolver, 7, false⟩) .new⟩
        | .error _ => none
      | .error _ => []) ++ [pollAt 950000000]

theorem printer_replies_to_resolver :
    let ts := (machine false).trace (printerAt false 0) (resolving ServiceRecords.printerInstance)
    let s := (machine false).play (printerAt false 0) (resolving ServiceRecords.printerInstance)
    ∃ done, Account ts s done [] ∧ (replies ts).length = 1 := by
  intro ts s
  have hrun : Run (machine false) ts s :=
    (Run.start _ (printerAt_registered false 0)).play _ _ _ (resolving ServiceRecords.printerInstance)
      (by decide +kernel)
  obtain ⟨⟨done, queue, h⟩, -⟩ := one_shot_replies_in_order false ts s hrun
  have hempty : s.service.pendingLegacy.length = 0 ∧ (replies ts).length = 1 := by decide +kernel
  cases queue with
  | nil => exact ⟨done, h, hempty.2⟩
  | cons o queue =>
    have hlen := congrArg List.length h.pending
    rw [hempty.1] at hlen
    cases hlen

def hostedAt (host : Name) : Session Uptime ZeroRng Slab :=
  ⟨Service.tryNew { ServiceRecords.printer with host := host } 0 [] false true .new, false, 0, 0⟩

def metaHost : Name :=
  ⟨[95, 115, 101, 114, 118, 105, 99, 101, 115, 46, 95, 100, 110, 115, 45, 115, 100, 46, 95, 117,
    100, 112, 46, 108, 111, 99, 97, 108], by decide, by decide⟩

def rootHost : Name := rootName

theorem hostedAt_run (host : Name) (h : (machine false).Admitted (hostedAt host) (resolving host)) :
    Run (machine false) ((machine false).trace (hostedAt host) (resolving host))
      ((machine false).play (hostedAt host) (resolving host)) := by
  have hreg : Registrable ServiceRecords.printer :=
    ⟨by decide +kernel, by decide, by decide +kernel⟩
  have hstart : Registered false (hostedAt host) :=
    ⟨{ ServiceRecords.printer with host := host }, 0, [], true, .new,
      ⟨hreg.ttl, hreg.serviceType, hreg.parent⟩, rfl⟩
  exact (Run.start _ hstart).play _ _ _ _ h

/-- A question for a host that has the name of the enumeration is answered with the enumeration, and
a question for a host that is the root is not answered. -/
theorem one_shot_question_for_host_is_enumeration_or_ignored :
    (∃ (ts : List (Transition (Session Uptime ZeroRng Slab) (Timed Uptime)))
      (s : Session Uptime ZeroRng Slab) (o : Owed) (d : Sent), Run (machine false) ts s ∧
        owed ts = [o] ∧ replies ts = [d] ∧ o.question.src.port ≠ mdnsPort ∧
        o.question.question.qname.SameOwner o.records.host ∧
        ¬∃ reader, d.message.AnswersInFull o.records o.question reader) ∧
      ∃ (ts : List (Transition (Session Uptime ZeroRng Slab) (Timed Uptime)))
        (s : Session Uptime ZeroRng Slab), Run (machine false) ts s ∧
        (∃ t ∈ ts, ∃ sq flood, t.call.call = .event (.question sq) flood ∧
          sq.src.port ≠ mdnsPort ∧ t.pre.service.state.isPublished = true ∧
          t.pre.service.pendingLegacy = [] ∧
          sq.question.qname.SameOwner t.pre.service.records.host) ∧ owed ts = [] := by
  constructor
  · let ts := (machine false).trace (hostedAt metaHost) (resolving metaHost)
    have hfacts : (machine false).Admitted (hostedAt metaHost) (resolving metaHost) ∧
        (owed ts).length = 1 ∧ (replies ts).length = 1 ∧
        ((owed ts).all fun o => o.question.src.port != mdnsPort &&
          namesMatch o.records.host o.question.question.qname) = true ∧
        ((replies ts).all fun d => match MessageReader.tryParse d.message.octets with
          | .ok reader => (reader.sectionRecords .answer).length == 1
          | .error _ => true) = true := by decide +kernel
    obtain ⟨hadmitted, howed, hreplies, hasks, hanswers⟩ := hfacts
    obtain ⟨o, ho⟩ := List.length_eq_one_iff.mp howed
    obtain ⟨d, hd⟩ := List.length_eq_one_iff.mp hreplies
    rw [ho, List.all_cons, List.all_nil, Bool.and_true, Bool.and_eq_true, bne_iff_ne] at hasks
    rw [hd, List.all_cons, List.all_nil, Bool.and_true] at hanswers
    refine ⟨ts, _, o, d, hostedAt_run metaHost hadmitted, ho, hd, hasks.1, ?_, ?_⟩
    · exact ((namesMatch_owner _ _).mp hasks.2).2
    · rintro ⟨reader, h⟩
      have hlen := h.answers.length_eq
      rw [h.parses] at hanswers
      rw [beq_iff_eq.mp hanswers] at hlen
      unfold fullSet at hlen
      simp only [List.length_cons, List.length_append] at hlen
      omega
  · let ts := (machine false).trace (hostedAt rootHost) (resolving rootHost)
    have hfacts : (machine false).Admitted (hostedAt rootHost) (resolving rootHost) ∧
        (owed ts).length = 0 ∧ (ts.any fun t => match t.call.call with
          | .event (.question sq) _ => sq.src.port != mdnsPort &&
            t.pre.service.state.isPublished && t.pre.service.pendingLegacy.isEmpty &&
            sq.question.qname.labels.isEmpty && t.pre.service.records.host.labels.isEmpty
          | _ => false) = true := by decide +kernel
    obtain ⟨hadmitted, howed, hasks⟩ := hfacts
    refine ⟨ts, _, hostedAt_run rootHost hadmitted, ?_, List.length_eq_zero_iff.mp howed⟩
    obtain ⟨t, ht, hasked⟩ := List.any_eq_true.mp hasks
    refine ⟨t, ht, ?_⟩
    split at hasked
    · rename_i sq flood hcall
      simp only [Bool.and_eq_true, bne_iff_ne, List.isEmpty_iff] at hasked
      obtain ⟨⟨⟨⟨hport, hpub⟩, hqueue⟩, hname⟩, hhost⟩ := hasked
      exact ⟨sq, flood, hcall, hport, hpub, hqueue, [], hname, hhost.symm⟩
    · cases hasked

end Session

end Hick
