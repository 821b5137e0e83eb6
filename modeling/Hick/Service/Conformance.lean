import Hick.Endpoint.Renames
import Hick.Service.OneShot
import Hick.Service.Startup

/-!
# What a service puts on the wire (service/mod.rs:5091-5484, respond.rs:152-781)

A host that joins a link is bound by RFC 6762 in what it sends there: a probe proposes and claims
nothing, a response claims only what the service owns, and a one-shot reply is no use to a cache.
-/

namespace Hick
open Octets Wire Respond Runs

structure Core.GivenUp {I : Type} (c : Core I) (records : ServiceRecords) : Prop where
  records : c.records = records
  state : c.state = .conflicting
  queue : c.pendingTransmits = .empty
  replies : c.pendingLegacy = []
  lifecycle : c.lifecycleDeadline = none
  response : c.responseDeadline = none
  settled : c.latched = false
  askers : c.questionerSrcs = []
  flight : ∀ kind, c.awaitingConfirm = some kind → kind.live = false

section
variable {I : Type} [Instant I] {records : ServiceRecords}

omit [Instant I] in
theorem Core.GivenUp.spent (c : Core I) : c.spent.givenUp.GivenUp c.records where
  records := rfl
  state := rfl
  queue := rfl
  replies := rfl
  lifecycle := rfl
  response := rfl
  settled := rfl
  askers := rfl
  flight kind h := by
    obtain ⟨old, -, rfl⟩ := Option.map_eq_some_iff.mp h
    exact AwaitingConfirm.demoted_live _ old

theorem Core.GivenUp.event (c c' : Core I) (event : ServiceEvent) (now : I) (h : c.GivenUp records)
    (heff : EventEffect c event now c') : c' = c := by
  have htentative : c.tentative = false := by
    unfold Core.tentative
    rw [h.state]
  have hpub : c.state.isPublished = false := by
    rw [h.state]
    rfl
  cases heff with
  | quiet => rfl
  | lost ht =>
    rw [htentative] at ht
    cases ht
  | defeated ht hw =>
    rw [htentative] at ht
    cases ht
  | owed hp legacy hport =>
    rw [hpub] at hp
    cases hp
  | asked hp sq he due =>
    rw [hpub] at hp
    cases hp
  | known ka he hint hk =>
    have hasked := hk.asked
    rw [h.askers] at hasked
    cases hasked
  | restarted hp deadline =>
    rw [hpub] at hp
    cases hp

theorem Core.GivenUp.ticks (c c' : Core I) (now : I) (flood : ConflictFlood I)
    (h : c.GivenUp records)
    (hticks : Ticks now flood (due c.responseDeadline now) c c') : c' = c := by
  have hidle : ∀ c'', TickMove now flood (due c.responseDeadline now) c c'' → False := by
    intro c'' hmove
    have hresponse : due c.responseDeadline now = false := by
      rw [h.response]
      rfl
    have hlifecycle : due c.lifecycleDeadline now = false := by
      rw [h.lifecycle]
      rfl
    have hstate := h.state
    cases hmove with
    | takeResponse hf =>
      rw [hresponse] at hf
      cases hf
    | rearm base hp =>
      unfold Core.startupParked at hp
      rw [hstate, show ServiceState.conflicting.inStartup = false from rfl, Bool.and_false] at hp
      cases hp
    | queueResponse hf =>
      rw [hresponse] at hf
      cases hf
    | hold floor hw hs hdue hf =>
      rw [hlifecycle] at hdue
      cases hdue
    | park hw hs hdue =>
      rw [hlifecycle] at hdue
      cases hdue
    | startProbing hs hdue d =>
      rw [hlifecycle] at hdue
      cases hdue
    | closeSettling n hs hn hdue d =>
      rw [hlifecycle] at hdue
      cases hdue
    | queueProbe n hs hn hdue pending hp d =>
      rw [hlifecycle] at hdue
      cases hdue
    | queueAnnouncement hs hdue pending hp d =>
      rw [hlifecycle] at hdue
      cases hdue
  induction hticks with
  | refl => rfl
  | tail _ hmove ih =>
    rw [ih] at hmove
    exact (hidle _ hmove).elim

theorem Core.GivenUp.confirm (c c' : Core I) (anchor : I) (delivery : TransmitDelivery)
    (advances : Bool) (kind : AwaitingConfirm) (h : c.GivenUp records) (hk : c.awaitingConfirm = some kind)
    (heff : ConfirmEffect { c with awaitingConfirm := none } anchor delivery advances kind c') :
    c'.GivenUp records := by
  have hlive := h.flight kind hk
  have hgone : ∀ kind : AwaitingConfirm, (none : Option AwaitingConfirm) = some kind →
      kind.live = false := fun _ h => by cases h
  cases heff with
  | metaReply => exact { h with flight := hgone }
  | staleEmpty fact => exact { h with flight := hgone }
  | staleSame fact emitted cls => exact { h with flight := hgone }
  | staleOld fact records emitted cls => exact { h with flight := hgone }
  | _ => cases hlive

end

namespace Service
variable {I R : Type} {EV : Type → Type} [Instant I] [SeedableRng R] [Pool EV]
  {records : ServiceRecords}

structure GivenUp (s : Service I R EV) (records : ServiceRecords) : Prop where
  core : s.core.GivenUp records
  enumeration : s.metaResponseDeadline = none

variable (s : Service I R EV)

omit [SeedableRng R] [Pool EV] in
theorem GivenUp.pollTimeout (h : s.GivenUp records) : s.pollTimeout = none := by
  have hreplies : s.pendingLegacy = [] := h.core.replies
  have hsettled : s.conflictClassifiedUnresolved = false := h.core.settled
  have hstartup : s.startupParked = false := by
    have hstate : s.state = .conflicting := h.core.state
    unfold startupParked
    rw [hstate]
    exact Bool.and_false _
  have hlifecycle : s.lifecycleDeadline = none := h.core.lifecycle
  have hresponse : s.responseDeadline = none := h.core.response
  unfold Service.pollTimeout
  rw [hreplies, hsettled, hstartup, hlifecycle, hresponse, h.enumeration]
  rfl

theorem GivenUp.pollDeferred (now : I) (flood : ConflictFlood I) (buf : Bytes)
    (h : s.GivenUp records) : s.pollDeferred now flood buf = (s, .ok none) := by
  have hreplies : s.pendingLegacy = [] := h.core.replies
  have hpeek : s.pendingTransmits.peek = none := congrArg Pending.peek h.core.queue
  have hdefer : s.deferFirstProbeUnderFlood now flood = s := by
    unfold deferFirstProbeUnderFlood
    rw [if_pos]
    rw [hpeek]
    simp
  unfold Service.pollDeferred
  rw [hdefer]
  unfold pollTransmit
  split
  · rfl
  · rw [s.pollMeta_undue now buf h.enumeration]
    have hlegacy : s.pollLegacy buf = (s, none) := by
      unfold pollLegacy
      rw [hreplies]
    dsimp only
    rw [hlegacy]
    unfold pollQueue
    dsimp only
    rw [hpeek]

theorem dispatchEvent_enumeration (event : ServiceEvent) (now : I)
    (flood : ConflictFlood I) (h : s.state = .conflicting) :
    (s.dispatchEvent event now flood).1.metaResponseDeadline = s.metaResponseDeadline := by
  have hpre : ¬s.isPreauthoritative = true := by
    unfold isPreauthoritative
    rw [h]
    exact Bool.false_ne_true
  have hpub : ¬s.state.isPublished = true := by
    rw [h]
    exact Bool.false_ne_true
  unfold dispatchEvent
  cases event with
  | probeConflict pc =>
    dsimp only
    rw [if_neg hpre, if_neg hpub]
  | probeProposal pp =>
    dsimp only
    rw [if_neg hpre]
  | question sq =>
    dsimp only
    rw [if_neg hpub]
  | knownAnswer ka =>
    unfold handleKnownAnswer handleMetaKnownAnswer
    dsimp only
    split
    · split
      · split <;> rfl
      · rfl
    · split <;> rfl
  | hostConflict hc =>
    unfold handleHostConflict
    dsimp only
    split
    · rfl
    · exact congrArg Prod.snd ((notify_aside _ _).trans (s.floodEligible_aside hc.datagram))

theorem GivenUp.handleEvent (event : ServiceEvent) (now : I)
    (flood : ConflictFlood I) (h : s.GivenUp records) : (s.handleEvent event now flood).1.GivenUp records := by
  have hcore := h.core.event _ _ event now (s.handleEvent_effect event now flood)
  refine ⟨by rw [hcore]; exact h.core, ?_⟩
  have hmeta : (s.receive event now).metaResponseDeadline = s.metaResponseDeadline := by
    unfold receive
    split
    · exact congrArg Prod.snd (floodEligible_aside _ _)
    · rfl
  have hstate : (s.receive event now).state = .conflicting :=
    (congrArg Core.state (s.receive_core event now)).trans h.core.state
  unfold Service.handleEvent
  dsimp only
  split
  · exact hmeta.trans h.enumeration
  · exact hmeta.trans h.enumeration
  · exact hmeta.trans h.enumeration
  · exact ((s.receive event now).dispatchEvent_enumeration event now flood hstate).trans
      (hmeta.trans h.enumeration)

theorem GivenUp.tick (now : I) (flood : ConflictFlood I) (h : s.GivenUp records) :
    (s.tick now flood).1.GivenUp records := by
  have hcore := h.core.ticks _ _ now flood (s.tick_ticks now flood)
  refine ⟨by rw [hcore]; exact h.core, ?_⟩
  exact (congrArg Prod.snd (s.tick_aside now flood)).trans h.enumeration

theorem GivenUp.handleTimeout (now : I) (flood : ConflictFlood I)
    (taken : NamesInUse) (h : s.GivenUp records) : (s.handleTimeout now flood taken).1.GivenUp records := by
  have hsettled : ¬({ s with
      lastNow := some now
      kas := s.kas.expire now } : Service I R EV).conflictClassifiedUnresolved = true :=
    Bool.eq_false_iff.mp h.core.settled
  unfold Service.handleTimeout
  dsimp only
  rw [if_neg hsettled]
  exact GivenUp.tick _ now flood ⟨{ h.core with }, h.enumeration⟩

/-- A rename that leaves no name found none among its candidates. -/
theorem rename_givesUp (now : I) (flood : ConflictFlood I)
    (taken : NamesInUse) (h : (s.rename now flood taken).1.state = .conflicting) :
    (chooseName s.records.instanceName taken (taken.len + 1) s.renameAttempt).1 = none ∧
      (s.rename now flood taken).1.metaResponseDeadline = none := by
  have hchosen : chooseName s.handOffInstance.records.instanceName taken (taken.len + 1)
      s.handOffInstance.renameAttempt =
        chooseName s.records.instanceName taken (taken.len + 1) s.renameAttempt := by
    unfold handOffInstance
    split <;> rfl
  unfold rename at h ⊢
  dsimp only at h ⊢
  rw [hchosen] at h ⊢
  cases hc : chooseName s.records.instanceName taken (taken.len + 1) s.renameAttempt with
  | mk chosen attempt =>
    rw [hc] at h
    cases chosen with
    | none => exact ⟨rfl, rfl⟩
    | some name =>
      obtain ⟨deadline, hcore⟩ := ({ s.handOffInstance with
        renameAttempt := attempt } : Service I R EV).takeName_core name now flood
      have hstate := (congrArg Core.state hcore).symm.trans h
      cases hstate

/-- A timer call that leaves a service without a name spends a defeated probe, and its search had
no room. -/
theorem handleTimeout_givesUp (now : I) (flood : ConflictFlood I)
    (taken : NamesInUse) (hpre : s.state ≠ .conflicting)
    (h : (s.handleTimeout now flood taken).1.state = .conflicting) :
    (s.handleTimeout now flood taken).1.GivenUp s.records ∧ s.probeDefeated = true ∧
      ¬Roomy s.records.instanceName taken s.renameAttempt := by
  have hcore : (s.handleTimeout now flood taken).1.core.GivenUp s.records ∧
      s.probeDefeated = true := by
    have heff := s.handleTimeout_effect now flood taken
    have hstate : (s.handleTimeout now flood taken).1.core.state = .conflicting := h
    generalize (s.handleTimeout now flood taken).1.core = c at heff hstate ⊢
    cases heff with
    | waited hd hl => cases hstate
    | renamed hd name hname deadline => cases hstate
    | gaveUp hd => exact ⟨.spent _, hd⟩
    | ticked hl c hticks =>
      refine absurd ?_ hpre
      clear h
      induction hticks with
      | refl => exact hstate
      | tail _ hmove ih =>
        apply ih
        cases hmove with
        | startProbing hs hdue d => cases hstate
        | closeSettling n hs hn hdue d => cases hstate
        | _ => exact hstate
  have hsearch : (chooseName s.records.instanceName taken (taken.len + 1) s.renameAttempt).1 = none ∧
      (s.handleTimeout now flood taken).1.metaResponseDeadline = none := by
    have hlatched : ({ s with
        lastNow := some now
        kas := s.kas.expire now } : Service I R EV).conflictClassifiedUnresolved = true := by
      change (s.probeDefeated || s.tiebreakLost) = true
      rw [hcore.2]
      rfl
    unfold handleTimeout at h ⊢
    dsimp only at h ⊢
    rw [if_pos hlatched] at h ⊢
    unfold spendConflict at h ⊢
    dsimp only at h ⊢
    rw [if_pos hcore.2] at h ⊢
    exact rename_givesUp _ now flood taken h
  refine ⟨⟨hcore.1, hsearch.2⟩, hcore.2, ?_⟩
  intro hroomy
  obtain ⟨name, hname⟩ := chooseName_finds _ _ _ hroomy
  rw [hsearch.1] at hname
  cases hname

theorem GivenUp.noteTransmitOutcome (now : I) (v4 v6 : FamilyAttempt I)
    (h : s.GivenUp records) : (s.noteTransmitOutcome now v4 v6).1.GivenUp records := by
  refine ⟨?_, (congrArg Prod.snd (s.noteTransmitOutcome_aside now v4 v6)).trans h.enumeration⟩
  rcases s.noteTransmitOutcome_effect now v4 v6 with ⟨-, hsame⟩ | ⟨kind, hk, heff⟩
  · rw [hsame]
    exact h.core
  · exact h.core.confirm _ _ _ _ _ kind hk heff

end Service

namespace Session
variable {I R : Type} {EV : Type → Type} [Instant I] [SeedableRng R] [Pool EV]

theorem givenUp_next (s : Session I R EV) (e : Timed I) (records : ServiceRecords)
    (h : s.service.GivenUp records) : (s.next e).service.GivenUp records ∧ s.sent e = none := by
  constructor
  · have hserved : (s.served e).GivenUp records := by
      unfold served
      split
      · unfold serve
        cases e.call with
        | event event flood => exact h.handleEvent _ event e.now flood
        | timeout flood taken => exact h.handleTimeout _ e.now flood taken
        | poll flood buf =>
          dsimp only
          rw [h.pollDeferred _ e.now flood buf]
          exact h
        | outcome v4 v6 => exact h.noteTransmitOutcome _ e.now v4 v6
        | update =>
          refine ⟨?_, (congrArg Prod.snd s.service.poll_aside).trans h.enumeration⟩
          dsimp only
          rw [s.service.poll_core]
          exact h.core
        | withdraw =>
          refine ⟨?_, rfl⟩
          exact
            { h.core with
              queue := rfl
              replies := rfl
              lifecycle := rfl
              response := rfl
              askers := rfl }
      · exact h
    exact ⟨hserved.core, hserved.enumeration⟩
  · unfold sent
    cases e.call with
    | poll flood buf =>
      dsimp only
      split
      · rfl
      · rw [h.pollDeferred _ e.now flood buf]
        rfl
    | _ => rfl

/-- Only a timer call makes a service give its name up. -/
theorem timer_of_givesUp (s : Session I R EV) (e : Timed I) (hpre : s.service.state ≠ .conflicting)
    (h : (s.next e).service.state = .conflicting) :
    ∃ flood taken, e.call = .timeout flood taken ∧ s.withdrawing = false := by
  have heff := s.next_effect e
  have hstate : (s.next e).service.core.state = .conflicting := h
  have hpre : s.service.core.state ≠ .conflicting := hpre
  generalize (s.next e).service.core = c at heff hstate
  cases heff with
  | timeout flood taken he hw c heff => exact ⟨flood, taken, he, hw⟩
  | idle hsent hconfirm htimeout => exact absurd hstate hpre
  | event event flood he hw c heff =>
    cases heff with
    | restarted hs deadline => cases hstate
    | _ => exact absurd hstate hpre
  | poll flood buf he hw c₁ c sent hdefer heff hsent =>
    have hdeferred : c₁.state = s.service.core.state := by cases hdefer <;> rfl
    have hpolled : c.state = c₁.state := by cases heff <;> rfl
    exact absurd (hdeferred.symm.trans (hpolled.symm.trans hstate)) hpre
  | confirm v4 v6 he kind hkind c heff =>
    cases heff with
    | probeAdvanced n hs ha hd hn deadline => cases hstate
    | probeSettled n hs ha hd hn deadline hsettle => cases hstate
    | announced emitted state deadline hp hk hlost =>
      have hstate : state = .conflicting := hstate
      cases hpub : s.service.core.state.isPublished with
      | false => exact absurd ((hk hpub).1.symm.trans hstate) hpre
      | true =>
        have hpublished := hp hpub
        rw [hstate] at hpublished
        cases hpublished
    | _ => exact absurd hstate hpre
  | withdraw he hw => exact absurd hstate hpre

theorem next_givesUp (s : Session I R EV) (e : Timed I) (hpre : s.service.state ≠ .conflicting)
    (h : (s.next e).service.state = .conflicting) :
    (s.next e).service.GivenUp s.service.records ∧ s.service.probeDefeated = true ∧
      ∃ flood taken, e.call = .timeout flood taken ∧
        ¬Roomy s.service.records.instanceName taken s.service.renameAttempt := by
  obtain ⟨flood, taken, hcall, hw⟩ := timer_of_givesUp s e hpre h
  have hserved : s.served e = (s.service.handleTimeout e.now flood taken).1 := by
    simp only [served, heeds, hcall, hw, Bool.not_false, if_true]
    rfl
  have hstate : (s.service.handleTimeout e.now flood taken).1.state = .conflicting := by
    rw [← hserved]
    exact h
  obtain ⟨hgone, hdef, hroom⟩ := s.service.handleTimeout_givesUp e.now flood taken hpre hstate
  rw [← hserved] at hgone
  exact ⟨⟨hgone.core, hgone.enumeration⟩, hdef, flood, taken, hcall, hroom⟩

theorem givenUp_run (probe : Bool) (ts : List (Transition (Session I R EV) (Timed I)))
    (s : Session I R EV) (run : Run (machine probe) ts s) (h : s.service.state = .conflicting) :
    s.service.GivenUp s.service.records := by
  revert h
  apply Reachable.invariant (machine probe)
    (fun s => s.service.state = .conflicting → s.service.GivenUp s.service.records) _ _ s ⟨ts, run⟩
  · rintro s ⟨records, now, seed, reAnnounce, flood, -, rfl⟩ h
    unfold Service.tryNew at h
    cases probe <;> cases h
  · intro s e hs _ h
    have hgone : (s.next e).service.GivenUp s.service.records := by
      by_cases hpre : s.service.state = .conflicting
      · exact (givenUp_next s e _ (hs hpre)).1
      · exact (next_givesUp s e hpre h).1
    have hnamed : (s.next e).service.records = s.service.records := hgone.core.records
    change (s.next e).service.GivenUp (s.next e).service.records
    rw [hnamed]
    exact hgone

/-- Over every run. A service gives its name up in a timer call alone, for a probe that was defeated,
and only where the search for another name ran out of room. It sends nothing from then on, asks for no
timer, and stays as it is, under the name it had, whatever is heard. -/
theorem giving_up_is_final (probe : Bool) (ts : List (Transition (Session I R EV) (Timed I)))
    (s : Session I R EV) (run : Run (machine probe) ts s) :
    (∀ t ∈ ts, t.pre.service.state ≠ .conflicting → t.post.service.state = .conflicting →
      t.pre.service.probeDefeated = true ∧ ∃ flood taken, t.call.call = .timeout flood taken ∧
        ¬Roomy t.pre.service.records.instanceName taken t.pre.service.renameAttempt) ∧
    (∀ t ∈ ts, t.pre.service.state = .conflicting → t.pre.sent t.call = none ∧
      t.post.service.state = .conflicting ∧ t.post.service.records = t.pre.service.records) ∧
    (s.service.state = .conflicting → s.pollTimeout = none) := by
  refine ⟨?_, ?_, ?_⟩
  · intro t ht hpre hpost
    obtain ⟨heq, -⟩ := run.mem _ _ _ t ht
    rw [heq] at hpost
    exact (next_givesUp t.pre t.call hpre hpost).2
  · intro t ht hpre
    obtain ⟨heq, -⟩ := run.mem _ _ _ t ht
    obtain ⟨ts', run'⟩ := run.reached _ _ _ t ht
    have hgone := givenUp_run probe ts' t.pre run' hpre
    obtain ⟨hnext, hsent⟩ := givenUp_next t.pre t.call _ hgone
    rw [heq]
    exact ⟨hsent, hnext.core.state, hnext.core.records⟩
  · intro h
    have hgone := givenUp_run probe ts s run h
    unfold Session.pollTimeout
    split
    · rfl
    · exact hgone.pollTimeout

def fullInstance : Name :=
  ⟨List.replicate 63 98 ++ [46, 95, 112, 46, 108, 111, 99, 97, 108], by decide, by decide⟩

def fullAt (now : Uptime) : Session Uptime ZeroRng Slab :=
  ⟨Service.tryNew { ServiceRecords.printer with instanceName := fullInstance } now [] true true .new,
    false, now, now⟩

def outnamed : List (Timed Uptime) :=
  probing 0 250000000 500000000 750000000 |>.take 5 |>.append
    [hearsSrv 300000000 { ServiceRecords.printer with instanceName := fullInstance, port := 9 },
      timer 300000000]

theorem full_printer_gives_up :
    ((machine true).play (fullAt 0) outnamed).service.state = .conflicting ∧
      ((machine true).play (fullAt 0) outnamed).pollTimeout = none := by
  have hstart : Registered true (fullAt 0) :=
    ⟨{ ServiceRecords.printer with instanceName := fullInstance }, 0, [], true, .new,
      ⟨by decide +kernel, by decide, by decide +kernel⟩, rfl⟩
  have hfacts : (machine true).Admitted (fullAt 0) outnamed ∧
      ((machine true).play (fullAt 0) outnamed).service.state = .conflicting := by decide +kernel
  obtain ⟨hadmitted, hstate⟩ := hfacts
  obtain ⟨-, -, hsilent⟩ := giving_up_is_final true _ _ ((Run.start _ hstart).play _ _ _ _ hadmitted)
  exact ⟨hstate, hsilent hstate⟩

end Session

/-- What a multicast responder that owns `records`, and was asked `asked` by one-shot resolvers, may
send to `dst`, and under which flags. -/
inductive Wire.Contents.Conforms (records : ServiceRecords) (asked : List Owed) (dst : SocketAddr)
    (flags : Flags) (c : Contents) : Prop
  | probe (hdst : dst = multicastDst) (query : flags = Header.new.flags)
    (question : c.questions = [⟨records.instanceName, .any, .in_, true⟩])
    (claims : c.answers = [] ∧ c.additional = [])
    (proposes : c.authority = srvEntry records .authority records.ttlSecs false ::
      txtEntry records .authority records.ttlSecs false ::
        (records.aAddrs.map (aEntry records .authority records.ttlSecs false) ++
          records.aaaaAddrs.map (aaaaEntry records .authority records.ttlSecs false)))
  | response (hdst : dst = multicastDst) (authoritative : flags = responseHeader.flags)
    (question : c.questions = [] ∧ c.authority = [])
    (answers : c.answers ≠ [] ∧ c.answers ⊆ fullSet records records.ttlSecs true)
    (denial : c.additional ⊆ [nsecEntry records])
  | enumeration (hdst : dst = multicastDst) (authoritative : flags = responseHeader.flags)
    (question : c.questions = [] ∧ c.authority = [])
    (metaName : Name) (hm : Name.tryFromStr dnsSdMetaQueryName = .ok metaName)
    (answers : c.answers = [⟨.answer, metaName, records.ttlSecs, false, .ptr records.serviceType⟩])
    (additional : c.additional = [])
  | oneShot (o : Owed) (ho : o ∈ asked) (hfits : o.Fits) (hdst : dst = o.question.src)
    (hport : dst.port ≠ mdnsPort) (authoritative : flags = responseHeader.flags)
    (question : c.questions = [⟨o.reply.name, o.reply.qtype, o.reply.qclass, false⟩] ∧
      c.authority = [] ∧ c.additional = [])
    (answers : c.answers = if o.reply.isMeta then
        [⟨.answer, o.reply.name, min records.ttlSecs legacyUnicastMaxTtlSecs, false,
          .ptr records.serviceType⟩]
      else fullSet records (min records.ttlSecs legacyUnicastMaxTtlSecs) false)

/-- The datagram is one that `records` allow, and a receiver reads its contents as they were
written. -/
structure Sent.Conforms (d : Sent) (records : ServiceRecords) (asked : List Owed) (c : Contents) :
    Prop where
  contents : c.Conforms records asked d.transmit.dst d.message.header.flags
  size : d.transmit.size = d.message.octets.length
  entries : d.message.entries = c.entries
  reads : d.message.Sound records → ∃ reader, MessageReader.tryParse d.message.octets = .ok reader ∧
    reader.header.flags = d.message.header.flags ∧ ReadsAs reader c

section
variable (records : ServiceRecords)

theorem answers_subset (ttl : UInt32) (flush : Bool) (emitted : EmittedRecords)
    (ha : emitted.a ⊆ records.aAddrs) (haaaa : emitted.aaaa ⊆ records.aaaaAddrs) :
    emitted.answers records ttl flush ⊆ fullSet records ttl flush := by
  intro e he
  simp only [EmittedRecords.answers, List.mem_append, List.mem_map] at he
  simp only [fullSet, List.mem_cons, List.mem_append, List.mem_map]
  rcases he with h | h | h | h | ⟨ip, hip, rfl⟩ | ⟨ip, hip, rfl⟩
  · split at h
    · exact .inl (List.mem_singleton.mp h)
    · cases h
  · split at h
    · exact .inr (.inl (List.mem_map.mp h))
    · cases h
  · split at h
    · exact .inr (.inr (.inl (List.mem_singleton.mp h)))
    · cases h
  · split at h
    · exact .inr (.inr (.inr (.inl (List.mem_singleton.mp h))))
    · cases h
  · exact .inr (.inr (.inr (.inr (.inl ⟨ip, ha hip, rfl⟩))))
  · exact .inr (.inr (.inr (.inr (.inr ⟨ip, haaaa hip, rfl⟩))))

theorem ttl_of_fullSet (ttl : UInt32) (flush : Bool) :
    ∀ r ∈ fullSet records ttl flush, r.ttl = ttl := by
  intro r hr
  simp only [fullSet, List.mem_cons, List.mem_append, List.mem_map] at hr
  rcases hr with rfl | ⟨_, _, rfl⟩ | rfl | rfl | ⟨_, _, rfl⟩ | ⟨_, _, rfl⟩ <;> rfl

theorem answers_nonempty (ttl : UInt32) (flush : Bool) (emitted : EmittedRecords)
    (hsub : emitted.subtypes = !records.subtypes.isEmpty) (hne : emitted.isEmpty = false) :
    emitted.answers records ttl flush ≠ [] := by
  intro hnil
  rw [EmittedRecords.answers_subtypes records ttl flush emitted hsub] at hnil
  simp only [List.append_eq_nil_iff, List.map_eq_nil_iff, ite_eq_right_iff, reduceCtorEq, imp_false,
    Bool.not_eq_true] at hnil
  obtain ⟨hptr, hsubs, hsrv, htxt, ha, haaaa⟩ := hnil
  rw [hsubs] at hsub
  unfold EmittedRecords.isEmpty at hne
  rw [hptr, hsrv, htxt, ha, haaaa, hsub] at hne
  cases hne

theorem response_conforms (asked : List Owed) (emitted : EmittedRecords)
    (hsub : emitted.subtypes = !records.subtypes.isEmpty) (ha : emitted.a ⊆ records.aAddrs)
    (haaaa : emitted.aaaa ⊆ records.aaaaAddrs) (hne : emitted.isEmpty = false) :
    (emitted.contents records [] records.ttlSecs true).Conforms records asked multicastDst
      responseHeader.flags := by
  refine .response rfl rfl ⟨rfl, rfl⟩ ⟨answers_nonempty records _ true emitted hsub hne,
    answers_subset records _ true emitted ha haaaa⟩ ?_
  show emitted.additional records ⊆ _
  unfold EmittedRecords.additional
  split
  · exact List.Subset.refl _
  · exact List.nil_subset _

/-- The spec of an encoder, over every pool of names that holds the message's own. -/
theorem conforms_of_spec (asked : List Owed) (dst : SocketAddr) (token : AwaitingConfirm)
    (msg : Message) (header : Header) (c : Contents)
    (hc : c.Conforms records asked dst header.flags)
    (hspec : EncodedAs (ownNames records ++ msg.names) header msg c) :
    (Sent.stamped token dst msg).Conforms records asked c where
  contents := by
    rw [show (Sent.stamped token dst msg).message.header.flags = header.flags from hspec.flags]
    exact hc
  size := rfl
  entries := hspec.entries
  reads hs := by
    obtain ⟨hparse, hreads⟩ := hspec.reads hs.suffixes hs.size
    exact ⟨_, hparse, rfl, hreads⟩

theorem mem_names (msg : Message) (e : Entry) (he : e ∈ msg.entries) (n : Name) (hn : n ∈ e.names) :
    n ∈ ownNames records ++ msg.names :=
  List.mem_append_right _ (List.mem_flatMap.mpr ⟨e, he, hn⟩)

theorem encodeLegacy_conforms (asked : List Owed) (o : Owed) (ho : o ∈ asked) (hfits : o.Fits)
    (hport : o.reply.dst.port ≠ mdnsPort) (buf : Bytes) (msg : Message) (token : AwaitingConfirm)
    (h : Service.encodeLegacy records o.reply buf = .ok (msg, token)) :
    ∃ c, (Sent.stamped token o.reply.dst msg).Conforms records asked c := by
  have hown := own_subset records msg.names
  unfold Service.encodeLegacy at h
  split at h
  · rename_i hmeta
    split at h
    · cases h
    · rename_i he
      cases h
      have hentries := (writeLegacyMetaResponse_spec records (o.reply.name :: ownNames records)
        (fun _ h => List.mem_cons_of_mem _ h) o.reply.queryId o.reply.name List.mem_cons_self
        o.reply.qtype o.reply.qclass buf msg he).entries
      have hname := mem_names records msg
        (.question ⟨o.reply.name, o.reply.qtype, o.reply.qclass, false⟩)
        (by rw [hentries]; exact List.mem_append_left _ (List.mem_singleton.mpr rfl)) o.reply.name
        (List.mem_singleton.mpr rfl)
      refine ⟨_, conforms_of_spec records asked _ _ msg _ _ ?_ (writeLegacyMetaResponse_spec
        records _ hown o.reply.queryId o.reply.name hname o.reply.qtype o.reply.qclass buf msg he)⟩
      exact .oneShot o ho hfits hfits.dst hport rfl ⟨rfl, rfl, rfl⟩ (if_pos hmeta).symm
  · rename_i hplain
    split at h
    · cases h
    · rename_i emitted he
      cases h
      obtain ⟨-, hwritten⟩ := writeLegacyResponse_spec records (o.reply.name :: ownNames records)
        (fun _ h => List.mem_cons_of_mem _ h) o.reply.queryId o.reply.name List.mem_cons_self
        o.reply.qtype o.reply.qclass buf msg emitted he
      have hname := mem_names records msg
        (.question ⟨o.reply.name, o.reply.qtype, o.reply.qclass, false⟩)
        (by rw [hwritten.entries]; exact List.mem_append_left _ (List.mem_singleton.mpr rfl))
        o.reply.name (List.mem_singleton.mpr rfl)
      obtain ⟨hfull, hspec⟩ := writeLegacyResponse_spec records _ hown o.reply.queryId o.reply.name
        hname o.reply.qtype o.reply.qclass buf msg emitted he
      rw [hfull] at hspec
      refine ⟨_, conforms_of_spec records asked _ _ msg (responseHeader.withId o.reply.queryId) _ ?_
        hspec⟩
      refine .oneShot o ho hfits hfits.dst hport rfl ⟨rfl, rfl, rfl⟩ ?_
      rw [if_neg hplain]
      exact announced_answers records false _ false

end


section
variable {I : Type} [Instant I]

theorem PollEffect.conforms (c c' : Core I) (now : I) (buf : Bytes) (d : Sent) (h : c.Standing)
    (asked : List Owed) (hasked : ∀ l ∈ c.pendingLegacy, ∃ o ∈ asked, o.Fits ∧ o.reply = l)
    (heff : PollEffect c now buf c' (some d)) :
    c.awaitingConfirm = none ∧ ∃ contents, d.Conforms c.records asked contents ∧
      (contents.answers = [] ∨ c.state.isPublished = true ∨
        c'.awaitingConfirm = some .metaResponse) := by
  have hown : ∀ msg : Message, ∀ n ∈ ownNames c.records, n ∈ ownNames c.records ++ msg.names :=
    fun msg => own_subset c.records msg.names
  cases heff with
  | metaReply ht metaName hm msg he =>
    have hwritten := (writeMetaResponse_spec c.records (metaName :: ownNames c.records)
      (fun _ h => List.mem_cons_of_mem _ h) metaName List.mem_cons_self buf msg he).entries
    have hname := mem_names c.records msg
      (.record ⟨.answer, metaName, c.records.ttlSecs, false, .ptr c.records.serviceType⟩)
      (by rw [hwritten]; exact List.mem_singleton.mpr rfl) metaName List.mem_cons_self
    refine ⟨ht, _, conforms_of_spec c.records asked _ _ msg _ _ ?_ (writeMetaResponse_spec
      c.records _ (hown msg) metaName hname buf msg he), .inr (.inr rfl)⟩
    exact .enumeration rfl rfl ⟨rfl, rfl⟩ metaName hm rfl rfl
  | legacyReply ht hl legacy rest ho msg token he =>
    have hmem : legacy ∈ c.pendingLegacy := by
      rw [ho]
      exact List.mem_cons_self
    obtain ⟨o, howed, hfits, rfl⟩ := hasked legacy hmem
    obtain ⟨contents, hconf⟩ := encodeLegacy_conforms c.records asked o howed hfits
      (h.oneShot _ hmem) buf msg token he
    exact ⟨ht, contents, hconf, .inr (.inl (h.queued (.inr (.inr (List.ne_nil_of_mem hmem)))))⟩
  | probe ht hl legacy ho hp msg he =>
    have hspec := writeProbe_spec c.records _ (hown msg) buf msg he
    exact ⟨ht, _, conforms_of_spec c.records asked _ _ msg _ _ (.probe rfl rfl rfl ⟨rfl, rfl⟩ rfl)
      hspec, .inl rfl⟩
  | announcement ht hl legacy ho hp msg nsec he =>
    have hspec := writeAnnounce_spec c.records _ (hown msg) buf msg nsec he
    refine ⟨ht, _, conforms_of_spec c.records asked _ _ msg _ _
      (response_conforms c.records asked _ rfl (List.Subset.refl _) (List.Subset.refl _) rfl) hspec,
      .inr (.inl (h.queued (.inl ⟨_, .inl hp, fun h => by cases h⟩)))⟩
  | response ht hl legacy ho hp msg emitted he hne =>
    obtain ⟨heq, hspec⟩ := writeAnnounceFiltered_spec c.records _ (hown msg) buf _ msg emitted he
    have hsub : emitted.subtypes = !c.records.subtypes.isEmpty := by
      rw [heq]
      rfl
    have ha : emitted.a ⊆ c.records.aAddrs := by
      rw [heq]
      exact List.filter_subset_self _
    have haaaa : emitted.aaaa ⊆ c.records.aaaaAddrs := by
      rw [heq]
      exact List.filter_subset_self _
    exact ⟨ht, _, conforms_of_spec c.records asked _ _ msg _ _
      (response_conforms c.records asked _ hsub ha haaaa hne) hspec,
      .inr (.inl (h.queued (.inl ⟨_, .inl hp, fun h => by cases h⟩)))⟩

end

theorem Wire.Contents.Conforms.ttl_pos (records : ServiceRecords) (hreg : Registrable records)
    (asked : List Owed) (dst : SocketAddr) (flags : Flags) (c : Contents)
    (h : c.Conforms records asked dst flags) :
    ∀ r ∈ c.answers ++ c.authority ++ c.additional, r.ttl ≠ 0 := by
  have hown : records.ttlSecs ≠ 0 := by
    intro hzero
    have hle := hreg.ttl
    rw [hzero] at hle
    exact absurd hle (by decide)
  have hcapped : min records.ttlSecs legacyUnicastMaxTtlSecs ≠ 0 := by
    change (if records.ttlSecs ≤ legacyUnicastMaxTtlSecs then records.ttlSecs
      else legacyUnicastMaxTtlSecs) ≠ 0
    split
    · exact hown
    · decide
  intro r hr
  cases h with
  | probe hdst query question claims proposes =>
    rw [claims.1, claims.2, proposes, List.append_nil, List.nil_append] at hr
    simp only [List.mem_cons, List.mem_append, List.mem_map] at hr
    rcases hr with rfl | rfl | ⟨_, _, rfl⟩ | ⟨_, _, rfl⟩ <;> exact hown
  | response hdst authoritative question answers denial =>
    rw [question.2, List.append_nil] at hr
    rcases List.mem_append.mp hr with hanswer | hdenied
    · rw [ttl_of_fullSet records _ true r (answers.2 hanswer)]
      exact hown
    · rw [List.mem_singleton.mp (denial hdenied)]
      exact hown
  | enumeration hdst authoritative question metaName hm answers additional =>
    rw [question.2, additional, answers, List.append_nil, List.append_nil] at hr
    rw [List.mem_singleton.mp hr]
    exact hown
  | oneShot o ho hfits hdst hport authoritative question answers =>
    rw [question.2.1, question.2.2, answers, List.append_nil, List.append_nil] at hr
    split at hr
    · rw [List.mem_singleton.mp hr]
      exact hcapped
    · rw [ttl_of_fullSet records _ false r hr]
      exact hcapped

namespace Session
variable {I R : Type} {EV : Type → Type} [Instant I] [SeedableRng R] [Pool EV]

/-- Over every run. What a service hands out next is a probe for its own name, a response or an
enumeration to the group, or the reply to a one-shot question that it has accepted, to the host that
asked; with the records, the flags and the sections that each has. A reader finds the same in the
octets. No TTL is 0, and only a published service answers. -/
theorem datagrams_conform (probe : Bool) (ts : List (Transition (Session I R EV) (Timed I)))
    (s : Session I R EV) (run : Run (machine probe) ts s) (e : Timed I) (d : Sent)
    (h : s.sent e = some d) :
    ∃ c : Contents, d.Conforms s.service.records (owed ts) c ∧
      (∀ r ∈ c.answers ++ c.authority ++ c.additional, r.ttl ≠ 0) ∧
      (c.answers = [] ∨ s.service.state.isPublished = true) := by
  have hkept := kept_run probe ts s run
  have hasked : ∀ l ∈ s.service.pendingLegacy, ∃ o ∈ owed ts, o.Fits ∧ o.reply = l := by
    obtain ⟨done, queue, haccount⟩ := account_run probe ts s run
    intro l hl
    rw [← haccount.pending] at hl
    obtain ⟨o, ho, rfl⟩ := List.mem_map.mp hl
    refine ⟨o, ?_, (haccount.standing o ho).1, rfl⟩
    rw [haccount.owed]
    exact List.mem_append_right _ ho
  obtain ⟨now, call⟩ := e
  unfold sent at h
  cases call with
  | poll flood buf =>
    dsimp only at h
    split at h
    · cases h
    · have hdefer := s.service.deferFirstProbe_effect now flood
      have heff := (s.service.deferFirstProbeUnderFlood now flood).pollTransmit_effect now buf
      rw [show sentOf ((s.service.deferFirstProbeUnderFlood now flood).pollTransmit now buf).2 = some d
        from h] at heff
      obtain ⟨hstand, hrecords, hstate, hflight⟩ := hkept.standing.deferred _ _ now flood hdefer
      have hqueue : ∀ c', DeferEffect s.service.core now flood c' →
          c'.pendingLegacy = s.service.core.pendingLegacy := by
        intro c' heff
        cases heff <;> rfl
      obtain ⟨hfree, c, hconf, hpub⟩ := heff.conforms _ _ now buf d hstand (owed ts)
        (by rw [hqueue _ hdefer]; exact hasked)
      rw [hrecords] at hconf
      rw [hstate] at hpub
      refine ⟨c, hconf, hconf.contents.ttl_pos _ hkept.standing.registrable _ _ _ _, ?_⟩
      rcases hpub with hnone | hpub | hmeta
      · exact .inl hnone
      · exact .inr hpub
      · have htoken : s.service.awaitingConfirm = none := hflight.symm.trans hfree
        cases hs : s.service.state with
        | announcing n => exact .inr rfl
        | established => exact .inr rfl
        | conflicting =>
          rw [(givenUp_run probe ts s run hs).pollDeferred _ now flood buf] at h
          cases h
        | _ =>
          refine absurd hmeta (polled_token s.service now flood buf hkept.enumeration hkept.standing ?_
            htoken)
          rw [hs]
          rfl
  | _ => cases h

/-- The first probe of the printer. -/
theorem printer_probe_conforms :
    let s := (machine true).play (printerAt true 0) [timer 0, timer 0]
    ∃ d, s.sent (pollAt 0) = some d ∧ ∃ c, d.Conforms s.service.records
      (owed ((machine true).trace (printerAt true 0) [timer 0, timer 0])) c := by
  intro s
  have hrun : Run (machine true) _ s :=
    (Run.start _ (printerAt_registered true 0)).play _ _ _ [timer 0, timer 0] (by decide +kernel)
  have hsome : (s.sent (pollAt 0)).isSome = true := by decide +kernel
  obtain ⟨d, hd⟩ := Option.isSome_iff_exists.mp hsome
  obtain ⟨c, hc, -⟩ := datagrams_conform true _ s hrun (pollAt 0) d hd
  exact ⟨d, hd, c, hc⟩

end Session
end Hick
