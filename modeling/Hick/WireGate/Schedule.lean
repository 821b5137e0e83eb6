import Hick.WireGate.Spacing

/-!
# Whether the gate withholds what the schedule offers (hick-mio driver/sends.rs:270-353)

A driver that offers each datagram as soon as it is queued, through sockets that take it at once,
meets a shut gate only at the first probe of a cycle or at its first announcement.
-/

set_option linter.unusedSectionVars false

namespace Hick
open Octets Wire Respond Runs

namespace GatedService
variable {I R : Type} {EV : Type → Type} [Instant I] [SeedableRng R] [Pool EV]

def takesAt (now : I) : Bool → SocketFate I
  | true => .takes now now now
  | false => .unbound

/-- Every datagram is offered as soon as it is due, and every bound family takes it. A timer is
due once nothing is left to offer, or while a conflict keeps it back. -/
def Prompt (bound : PerFamily Bool)
    (tr : Transition (GatedService I R EV) (GatedStep I)) : Prop :=
  match tr.call.call with
  | .served (.timeout _ _) => ¬ tr.pre.session.service.pendingTransmits.Due ∨
    tr.pre.session.service.conflictClassifiedUnresolved = true
  | .served _ => True
  | .offer _ _ fates settledAt =>
    settledAt = tr.call.now ∧ fates = bound.map (takesAt tr.call.now)

def Withheld (tr : Transition (GatedService I R EV) (GatedStep I)) (f : Family) : Prop :=
  ∃ d report, tr.pre.offered tr.call = some (d, report) ∧ f.pick report = .gated

/-- A datagram that opens a probe cycle or its announcements is offered once every bound family
has been silent for as long as it asks. -/
def OpensInTime (bound : PerFamily Bool)
    (tr : Transition (GatedService I R EV) (GatedStep I)) : Prop :=
  ∀ d report gap, tr.pre.offered tr.call = some (d, report) → d.transmit.minFamilyGap ≠ 0 →
    tr.pre.session.service.core.openingGap = some gap →
    ∀ f, Family.pick f bound = true → ∀ last, Family.pick f tr.pre.gate.lastSent = some last →
      Elapsed last gap tr.call.now

def Spaced (s : GatedService I R EV) : Prop :=
  s.session.service.core.Spaced s.gate.lastSent s.session.clock

section
variable [LawfulInstant I]

theorem served_spaced (session : Session I R EV) (lastSent : PerFamily (Option I)) (now : I)
    (call : Call I) (h : session.service.core.Spaced lastSent now)
    (hpoll : ∀ flood buf, call ≠ .poll flood buf) (houtcome : ∀ v4 v6, call ≠ .outcome v4 v6)
    (htimer : ∀ flood taken, call = .timeout flood taken →
      ¬ session.service.pendingTransmits.Due ∨
        session.service.conflictClassifiedUnresolved = true) :
    (session.next ⟨now, call⟩).service.core.Spaced lastSent now := by
  have heffect := session.next_effect ⟨now, call⟩
  cases hcall : call with
  | timeout flood taken =>
    cases hw : session.withdrawing with
    | true =>
      have hheld : (session.next ⟨now, .timeout flood taken⟩).service.core =
          session.service.core := by
        simp only [Session.next, Session.served, Session.heeds, hw, Bool.not_true,
          Bool.false_eq_true, if_false]
        rfl
      rw [hheld]
      exact h
    | false =>
      have htimed : (session.next ⟨now, .timeout flood taken⟩).service.core =
          (session.service.handleTimeout now flood taken).1.core := by
        simp only [Session.next, Session.served, Session.heeds, hw, Bool.not_false, if_true]
        rfl
      rw [htimed]
      exact session.service.handleTimeout_spaced lastSent now flood taken h
        (htimer flood taken hcall)
  | poll flood buf => exact absurd hcall (hpoll flood buf)
  | outcome v4 v6 => exact absurd hcall (houtcome v4 v6)
  | event event flood =>
    rw [hcall] at heffect
    generalize (session.next ⟨now, .event event flood⟩).service.core = c' at heffect ⊢
    cases heffect with
    | idle _ _ _ => exact h
    | event event' _ he _ _ hevent => exact h.event lastSent _ _ event' now hevent
    | timeout _ _ he => cases he
    | poll _ _ he => cases he
    | confirm _ _ he => cases he
    | withdraw he => cases he
  | update =>
    rw [hcall] at heffect
    generalize (session.next ⟨now, .update⟩).service.core = c' at heffect ⊢
    cases heffect with
    | idle _ _ _ => exact h
    | event _ _ he => cases he
    | timeout _ _ he => cases he
    | poll _ _ he => cases he
    | confirm _ _ he => cases he
    | withdraw he => cases he
  | withdraw =>
    rw [hcall] at heffect
    generalize (session.next ⟨now, .withdraw⟩).service.core = c' at heffect ⊢
    cases heffect with
    | idle _ _ _ => exact h
    | event _ _ he => cases he
    | timeout _ _ he => cases he
    | poll _ _ he => cases he
    | confirm _ _ he => cases he
    | withdraw _ _ => exact h.quiesced lastSent _ now

end

section
variable [MeasuredInstant I]

theorem polled_spaced (session : Session I R EV) (lastSent : PerFamily (Option I)) (now : I)
    (flood : ConflictFlood I) (buf : Bytes) (h : session.service.core.Spaced lastSent now)
    (hstanding : session.service.core.Standing) :
    (session.sent ⟨now, .poll flood buf⟩ = none →
      (session.next ⟨now, .poll flood buf⟩).service.core.Spaced lastSent now) ∧
    ∀ d, session.sent ⟨now, .poll flood buf⟩ = some d →
      ∃ token, Core.InHand lastSent session.service.core
        (session.next ⟨now, .poll flood buf⟩).service.core now d token := by
  have heffect := session.next_effect ⟨now, .poll flood buf⟩
  generalize hsent : session.sent ⟨now, .poll flood buf⟩ = sent at heffect ⊢
  generalize (session.next ⟨now, .poll flood buf⟩).service.core = c' at heffect ⊢
  cases heffect with
  | idle hnone _ _ =>
    refine ⟨fun _ => h, ?_⟩
    intro d hd
    rw [← hsent, hnone] at hd
    cases hd
  | event _ _ he => cases he
  | timeout _ _ he => cases he
  | confirm _ _ he => cases he
  | withdraw he => cases he
  | poll flood' buf' _ _ c₁ _ sent' hdefer hpoll hsent' =>
    have hsame : sent' = sent := hsent'.symm.trans hsent
    rw [hsame] at hpoll
    obtain ⟨hspaced, hopening, howed⟩ := h.deferred lastSent _ c₁ now flood' hdefer
    have hqueued := (hstanding.deferred _ c₁ now flood' hdefer).1.queued
    obtain ⟨hsilent, hstamped⟩ := hspaced.poll lastSent c₁ c' now buf' sent hqueued hpoll
    refine ⟨hsilent, ?_⟩
    intro d hd
    obtain ⟨token, hand⟩ := hstamped d hd
    refine ⟨token, hand.stamped, hand.gap, hand.group, hand.single, hand.reply, hand.probe,
      hand.announce, ?_⟩
    rw [← hopening, ← howed]
    exact hand.ready

theorem offer_next (s : GatedService I R EV) (now settledAt : I) (flood : ConflictFlood I)
    (buf : Bytes) (fates : PerFamily (SocketFate I)) (d : Sent)
    (report : PerFamily (SendOutcome I))
    (h : s.offered ⟨now, .offer flood buf fates settledAt⟩ = some (d, report)) :
    (s.next ⟨now, .offer flood buf fates settledAt⟩).session.service.core =
        ((s.session.next ⟨now, .poll flood buf⟩).service.noteTransmitOutcome settledAt
          report.v4.attempt report.v6.attempt).1.core ∧
      (s.next ⟨now, .offer flood buf fates settledAt⟩).session.clock = settledAt ∧
      (s.next ⟨now, .offer flood buf fates settledAt⟩).gate =
        s.gate.note report d.transmit.minFamilyGap := by
  have hnext : s.next ⟨now, .offer flood buf fates settledAt⟩ = {
      session := (s.session.next ⟨now, .poll flood buf⟩).next ⟨settledAt, confirmOf report⟩
      gate := s.gate.note report d.transmit.minFamilyGap } := by
    simp only [next, h]
  rw [hnext]
  exact ⟨rfl, rfl, rfl⟩

theorem offer_spaced (s : GatedService I R EV) (now settledAt : I) (flood : ConflictFlood I)
    (buf : Bytes) (fates : PerFamily (SocketFate I)) (h : s.Spaced)
    (hstanding : s.session.service.core.Standing)
    (hadmits : s.admits ⟨now, .offer flood buf fates settledAt⟩) (hsettled : settledAt = now) :
    (s.next ⟨now, .offer flood buf fates settledAt⟩).Spaced := by
  obtain ⟨hclock, -, hfates⟩ := hadmits
  subst hsettled
  have hnow : s.session.service.core.Spaced s.gate.lastSent settledAt := h.later _ _ _ _ hclock
  obtain ⟨hsilent, hstamped⟩ := polled_spaced s.session s.gate.lastSent settledAt flood buf hnow
    hstanding
  cases hoffered : s.offered ⟨settledAt, .offer flood buf fates settledAt⟩ with
  | none =>
    have hsent : s.session.sent ⟨settledAt, .poll flood buf⟩ = none :=
      Option.map_eq_none_iff.mp hoffered
    rw [Spaced]
    simp only [next, hoffered]
    exact hsilent hsent
  | some offer =>
    obtain ⟨d, report⟩ := offer
    obtain ⟨hsent, hreport⟩ := s.offered_some settledAt settledAt flood buf fates d report hoffered
    obtain ⟨token, hand⟩ := hstamped d hsent
    obtain ⟨hcore, hclock', hgate⟩ := s.offer_next settledAt settledAt flood buf fates d report
      hoffered
    obtain ⟨h4, h6⟩ := sendTo_within s.gate d.transmit fates settledAt settledAt hfates
    rw [← hreport] at h4 h6
    have hanchor : FamilyAttempt.anchor report.v4.attempt report.v6.attempt settledAt =
        settledAt := by
      rcases FamilyAttempt.anchor_mem report.v4.attempt report.v6.attempt settledAt with
        ht | ht | ht
      · exact le_antisymm (h4 _ ht).2 (h4 _ ht).1
      · exact le_antisymm (h6 _ ht).2 (h6 _ ht).1
      · exact ht
    rw [Spaced, hcore, hclock', hgate]
    apply Service.noteTransmitOutcome_spaced _ token s.gate.lastSent
    · exact hand.stamped
    · exact hanchor
    · exact hand.single
    · exact hnow.past
    · exact hand.reply
    · intro f l hl
      rw [FamilyWireGate.note_lastSent, hand.gap] at hl
      split at hl
      · exact Or.inl hl
      · rename_i hgap
        rcases Option.or_eq_some_iff.mp hl with hwired | ⟨-, hold⟩
        · rw [hreport] at hwired
          obtain ⟨hstart, hstop⟩ := sendTo_wired s.gate d.transmit fates settledAt settledAt
            hfates f l hwired
          exact Or.inr ⟨le_antisymm hstop hstart, hgap⟩
        · exact Or.inl hold
    · exact hand.probe
    · exact hand.announce

theorem next_spaced (bound : PerFamily Bool) (s : GatedService I R EV) (e : GatedStep I)
    (h : s.Spaced) (hstanding : s.session.service.core.Standing) (hadmits : s.admits e)
    (hprompt : Prompt bound ⟨s, e, s.next e⟩) : (s.next e).Spaced := by
  obtain ⟨now, call⟩ := e
  cases call with
  | offer flood buf fates settledAt =>
    exact s.offer_spaced now settledAt flood buf fates h hstanding hadmits hprompt.1
  | served call =>
    obtain ⟨hclock, hcall⟩ := hadmits
    have hnow : s.session.service.core.Spaced s.gate.lastSent now := h.later _ _ _ _ hclock
    apply served_spaced s.session s.gate.lastSent now call hnow
    · rintro flood buf rfl
      exact hcall
    · rintro v4 v6 rfl
      exact hcall
    · rintro flood taken rfl
      exact hprompt

theorem start_spaced (probe : Bool) (s : GatedService I R EV) (h : (machine probe).start s) :
    s.Spaced := by
  obtain ⟨hregistered, hgate⟩ := h
  obtain ⟨records, now, seed, reAnnounce, flood, hreg, hsession⟩ := hregistered
  have hnone : ∀ f l, Family.pick f s.gate.lastSent = some l → False := by
    intro f l hl
    rw [hgate] at hl
    cases f <;> cases hl
  rw [Spaced, hsession]
  refine ⟨rfl, fun f l hl => (hnone f l hl).elim, fun _ => rfl, ?_, nofun,
    fun f l _ hl => (hnone f l hl).elim⟩
  intro hprobe
  exact absurd hprobe (Pending.empty_holds _)

theorem standing_run (probe : Bool)
    (ts : List (Transition (GatedService I R EV) (GatedStep I))) (s : GatedService I R EV)
    (run : Run (machine probe) ts s) : s.session.service.core.Standing := by
  obtain ⟨us, hrun⟩ := session_run probe ts s run
  exact (Session.tracked_run probe us s.session hrun).standing

theorem prompt_run (bound : PerFamily Bool) (probe : Bool)
    (ts : List (Transition (GatedService I R EV) (GatedStep I))) (s : GatedService I R EV)
    (run : Run (machine probe) ts s) (hprompt : ∀ tr ∈ ts, Prompt bound tr) : s.Spaced := by
  induction run with
  | start s h => exact start_spaced probe s h
  | step ts s e run hadmits ih =>
    have hspaced := ih fun tr htr => hprompt tr (List.mem_append_left _ htr)
    have hlast := hprompt _ (List.mem_append_right ts (List.mem_singleton.mpr rfl))
    exact next_spaced bound s e hspaced (standing_run probe ts s run) hadmits hlast

theorem gated_iff (gate : FamilyWireGate I) (transmit : Transmit) (bound : PerFamily Bool) (now : I)
    (f : Family) (hgroup : transmit.minFamilyGap ≠ 0 → transmit.dst = multicastDst) :
    f.pick (gate.sendTo transmit (bound.map (takesAt now))) = .gated ↔
      f.pick bound = true ∧ gate.open_ f now transmit.minFamilyGap = false := by
  have hasked : ∀ t, (f.pick (bound.map (takesAt now))).askedAt = some t ↔
      f.pick bound = true ∧ now = t := by
    intro t
    rw [Family.pick_map]
    cases f.pick bound with
    | false => simp [takesAt, SocketFate.askedAt]
    | true => simp [takesAt, SocketFate.askedAt]
  have hone := gate.sendOne_gated_iff transmit.minFamilyGap f (f.pick (bound.map (takesAt now)))
  constructor
  · intro hgated
    rcases pick_sendTo gate transmit (bound.map (takesAt now)) f with hpick | ⟨hpick, -⟩
    · rw [hpick] at hgated
      obtain ⟨t, ht, hshut⟩ := hone.mp hgated
      obtain ⟨hbound, rfl⟩ := (hasked t).mp ht
      exact ⟨hbound, hshut⟩
    · rw [hpick] at hgated
      cases hgated
  · rintro ⟨hbound, hshut⟩
    have hgap : transmit.minFamilyGap ≠ 0 := by
      intro hzero
      rw [FamilyWireGate.open_, if_pos hzero] at hshut
      cases hshut
    rcases pick_sendTo gate transmit (bound.map (takesAt now)) f with hpick | ⟨-, hother⟩
    · rw [hpick]
      exact hone.mpr ⟨now, (hasked now).mpr ⟨hbound, rfl⟩, hshut⟩
    · exact absurd (hgroup hgap) hother

theorem withheld_iff (bound : PerFamily Bool) (s : GatedService I R EV) (e : GatedStep I)
    (h : s.Spaced) (hstanding : s.session.service.core.Standing) (hadmits : s.admits e)
    (hprompt : Prompt bound ⟨s, e, s.next e⟩) :
    (∀ f, ¬ Withheld ⟨s, e, s.next e⟩ f) ↔ OpensInTime bound ⟨s, e, s.next e⟩ := by
  obtain ⟨now, call⟩ := e
  cases call with
  | served call =>
    constructor
    · intro _ d report gap hoffered
      cases hoffered
    · rintro _ f ⟨d, report, hoffered, -⟩
      cases hoffered
  | offer flood buf fates settledAt =>
    obtain ⟨-, hfates⟩ := hprompt
    have hfates' : fates = bound.map (takesAt now) := hfates
    have hnow : s.session.service.core.Spaced s.gate.lastSent now := h.later _ _ _ _ hadmits.1
    obtain ⟨-, hstamped⟩ := polled_spaced s.session s.gate.lastSent now flood buf hnow hstanding
    constructor
    · intro hnone d report gap hoffered hgated hopening f hbound last hlast
      obtain ⟨hsent, hreport⟩ := s.offered_some now settledAt flood buf fates d report hoffered
      obtain ⟨token, hand⟩ := hstamped d hsent
      have hasked : s.session.service.core.openingGap = some token.minFamilyGap := by
        rcases hand.ready (by rwa [← hand.gap]) with ⟨howed, -⟩ | ⟨-, hasked⟩
        · rw [Core.openingGap_of_owed _ _ howed] at hopening
          cases hopening
        · exact hasked
      have hgap : gap = d.transmit.minFamilyGap := by
        rw [hand.gap]
        exact Option.some.inj (hopening.symm.trans hasked)
      have hopen : s.gate.open_ f now d.transmit.minFamilyGap = true := by
        by_contra hshut
        apply hnone f
        refine ⟨d, report, hoffered, ?_⟩
        rw [hreport, hfates']
        apply (gated_iff s.gate d.transmit bound now f _).mpr ⟨hbound, Bool.eq_false_iff.mpr hshut⟩
        rw [hand.gap]
        exact hand.group
      rw [hgap]
      rcases (s.gate.open_iff f now _).mp hopen with hzero | hwaited
      · exact absurd hzero hgated
      · exact hwaited last hlast
    · rintro hopens f ⟨d, report, hoffered, hgate⟩
      obtain ⟨hsent, hreport⟩ := s.offered_some now settledAt flood buf fates d report hoffered
      obtain ⟨token, hand⟩ := hstamped d hsent
      have hgroup : d.transmit.minFamilyGap ≠ 0 → d.transmit.dst = multicastDst := by
        rw [hand.gap]
        exact hand.group
      rw [hreport, hfates'] at hgate
      obtain ⟨hbound, hshut⟩ := (gated_iff s.gate d.transmit bound now f hgroup).mp hgate
      have hgated : d.transmit.minFamilyGap ≠ 0 := by
        intro hzero
        rw [FamilyWireGate.open_, if_pos hzero] at hshut
        cases hshut
      have hwaited : ∀ last, f.pick s.gate.lastSent = some last →
          Elapsed last d.transmit.minFamilyGap now := by
        intro last hlast
        rw [hand.gap] at hgated ⊢
        rcases hand.ready hgated with ⟨-, helapsed⟩ | ⟨-, hasked⟩
        · exact helapsed f last hlast
        · apply hopens d report token.minFamilyGap hoffered _ hasked f hbound last hlast
          rw [hand.gap]
          exact hgated
      rw [(s.gate.open_iff f now d.transmit.minFamilyGap).mpr (Or.inr hwaited)] at hshut
      cases hshut

def Remembers (s : GatedService I R EV) : Prop :=
  ∀ f l, Family.pick f s.gate.lastSent = some l → l ≤ s.session.clock

theorem next_remembers (s : GatedService I R EV) (e : GatedStep I) (h : s.Remembers)
    (hadmits : s.admits e) : (s.next e).Remembers := by
  obtain ⟨now, call⟩ := e
  obtain ⟨hclock, hcall⟩ := hadmits
  intro f l hl
  cases call with
  | served call => exact le_trans (h f l hl) hclock
  | offer flood buf fates settledAt =>
    cases hoffered : s.offered ⟨now, .offer flood buf fates settledAt⟩ with
    | none =>
      simp only [next, hoffered] at hl ⊢
      exact le_trans (h f l hl) hclock
    | some offer =>
      obtain ⟨d, report⟩ := offer
      obtain ⟨-, hreport⟩ := s.offered_some now settledAt flood buf fates d report hoffered
      obtain ⟨-, hclock', hgate⟩ := s.offer_next now settledAt flood buf fates d report hoffered
      rw [hclock']
      rw [hgate, FamilyWireGate.note_lastSent] at hl
      have hold : Family.pick f s.gate.lastSent = some l → l ≤ settledAt := by
        intro hold
        exact le_trans (le_trans (h f l hold) hclock) hcall.1
      split at hl
      · exact hold hl
      · rcases Option.or_eq_some_iff.mp hl with hwired | ⟨-, hl⟩
        · rw [hreport] at hwired
          exact (sendTo_wired s.gate d.transmit fates now settledAt hcall.2 f l hwired).2
        · exact hold hl

theorem remembers_run (probe : Bool)
    (ts : List (Transition (GatedService I R EV) (GatedStep I))) (s : GatedService I R EV)
    (run : Run (machine probe) ts s) : s.Remembers := by
  induction run with
  | start s h =>
    intro f l hl
    rw [h.2] at hl
    cases f <;> cases hl
  | step ts s e run hadmits ih => exact next_remembers s e ih hadmits

theorem polled_token (session : Session I R EV) (now : I) (flood : ConflictFlood I) (buf : Bytes)
    (hstanding : session.service.core.Standing) (d : Sent)
    (hsent : session.sent ⟨now, .poll flood buf⟩ = some d) :
    ∃ token, (session.next ⟨now, .poll flood buf⟩).service.core.awaitingConfirm = some token ∧
      d.transmit.minFamilyGap = token.minFamilyGap ∧
      ∀ emitted, token = .announcement emitted →
        (session.next ⟨now, .poll flood buf⟩).service.core.state.isPublished = true := by
  have heffect := session.next_effect ⟨now, .poll flood buf⟩
  generalize (session.next ⟨now, .poll flood buf⟩).service.core = c' at heffect ⊢
  cases heffect with
  | idle hnone _ _ =>
    rw [hnone] at hsent
    cases hsent
  | event _ _ he => cases he
  | timeout _ _ he => cases he
  | confirm _ _ he => cases he
  | withdraw he => cases he
  | poll flood' buf' _ _ c₁ _ sent' hdefer hpoll hsent' =>
    have hqueued := (hstanding.deferred _ c₁ now flood' hdefer).1.queued
    have hsome : sent' = some d := hsent'.symm.trans hsent
    rw [hsome] at hpoll
    cases hpoll with
    | metaReply _ _ _ _ _ => exact ⟨.metaResponse, rfl, rfl, fun _ h => by cases h⟩
    | legacyReply _ _ legacy _ _ msg token he =>
      refine ⟨token, rfl, rfl, ?_⟩
      rintro emitted rfl
      rw [Service.encodeLegacy] at he
      split at he
      · split at he <;> cases he
      · split at he <;> cases he
    | probe _ _ _ _ _ _ _ => exact ⟨.probe, rfl, rfl, fun _ h => by cases h⟩
    | announcement _ _ _ _ hp _ nsec _ =>
      refine ⟨.announcement _, rfl, rfl, ?_⟩
      intro _ _
      exact hqueued (Or.inl ⟨.announcement, Or.inl hp, fun h => by cases h⟩)
    | response _ _ _ _ _ _ emitted _ _ =>
      exact ⟨.response emitted .multicast, rfl, rfl, fun _ h => by cases h⟩

theorem settleProbe_due (s : Service I R EV) (anchor d : I) (delivery : TransmitDelivery)
    (hnext : (s.settleProbe anchor delivery).core.nextGap = some probeInterval)
    (hd : (s.settleProbe anchor delivery).core.lifecycleDeadline = some d) :
    Elapsed anchor probeInterval d := by
  -- the phase is still probing, so it was probing before, and it has not settled
  have hprobing : ∃ n, s.state = .probing n := by
    have heffect := s.settleProbe_effect anchor delivery
    generalize (s.settleProbe anchor delivery).core = c' at heffect hnext
    cases heffect with
    | probeElsewhere hother =>
      rw [Core.nextGap] at hnext
      cases hstate : s.core.state with
      | probing n => exact ⟨n, hstate⟩
      | init =>
        rw [hstate] at hnext
        cases hnext
      | announcing n =>
        rw [hstate] at hnext
        cases hnext
      | established =>
        rw [hstate] at hnext
        cases hnext
      | conflicting =>
        rw [hstate] at hnext
        cases hnext
    | probeHeld m hs _ => exact ⟨m, hs⟩
    | probeAdvanced m hs _ _ _ _ => exact ⟨m, hs⟩
    | probeSettled m hs _ _ _ _ _ => exact ⟨m, hs⟩
  obtain ⟨n, hs⟩ := hprobing
  rcases s.settleProbe_deadline anchor delivery n hs with hthird | hdeadline
  · exfalso
    have hcore : (s.settleProbe anchor delivery).core.state = .probing 3 := hthird
    rw [Core.nextGap, hcore] at hnext
    cases hnext
  · have hadd : checkedAddDuration anchor probeInterval = some d := hdeadline.symm.trans hd
    exact ⟨d, hadd, le_refl d⟩

theorem outcome_due (s : Service I R EV) (token : AwaitingConfirm) (now : I)
    (v4 v6 : FamilyAttempt I) (hk : s.awaitingConfirm = some token)
    (hgated : token.minFamilyGap ≠ 0)
    (hannounce : ∀ emitted, token = .announcement emitted → s.state.isPublished = true)
    (hnext : (s.noteTransmitOutcome now v4 v6).1.core.nextGap = some token.minFamilyGap) (d : I)
    (hd : (s.noteTransmitOutcome now v4 v6).1.core.lifecycleDeadline = some d) :
    Elapsed (FamilyAttempt.anchor v4 v6 now) token.minFamilyGap d := by
  have hpost : (s.noteTransmitOutcome now v4 v6).1 =
      ({ s with awaitingConfirm := none } : Service I R EV).settleConfirm
        (FamilyAttempt.anchor v4 v6 now) token (FamilyAttempt.project v4 v6) := by
    simp only [Service.noteTransmitOutcome, hk]
  rw [hpost] at hnext hd
  generalize FamilyAttempt.anchor v4 v6 now = anchor at hnext hd ⊢
  generalize FamilyAttempt.project v4 v6 = delivery at hnext hd
  cases token with
  | response _ _ => exact absurd rfl hgated
  | metaResponse => exact absurd rfl hgated
  | stale _ _ => exact absurd rfl hgated
  | announcement emitted =>
    have hpub := hannounce emitted rfl
    exact ({ s with awaitingConfirm := none } : Service I R EV).settleAnnouncement_elapsed anchor
      emitted delivery hpub d hd
  | probe => exact settleProbe_due { s with awaitingConfirm := none } anchor d delivery hnext hd

theorem gated_reopens (s : GatedService I R EV) (e : GatedStep I) (h : s.Remembers)
    (hstanding : s.session.service.core.Standing) (hadmits : s.admits e) (d : Sent)
    (report : PerFamily (SendOutcome I)) (f : Family)
    (hoffered : s.offered e = some (d, report)) (hgated : f.pick report = .gated)
    (hnext : (s.next e).session.service.core.nextGap = some d.transmit.minFamilyGap) (due : I)
    (hdue : (s.next e).session.service.core.lifecycleDeadline = some due) (later : I)
    (hle : due ≤ later) : (s.next e).gate.open_ f later d.transmit.minFamilyGap = true := by
  obtain ⟨now, call⟩ := e
  cases call with
  | served call => cases hoffered
  | offer flood buf fates settledAt =>
    obtain ⟨hclock, hsettled, hfates⟩ := hadmits
    obtain ⟨hsent, hreport⟩ := s.offered_some now settledAt flood buf fates d report hoffered
    obtain ⟨hcore, -, hgate⟩ := s.offer_next now settledAt flood buf fates d report hoffered
    obtain ⟨token, hk, hgap, hannounce⟩ := polled_token s.session now flood buf hstanding d hsent
    rw [hgate]
    apply (FamilyWireGate.open_iff _ f later _).mpr
    by_cases hzero : d.transmit.minFamilyGap = 0
    · exact Or.inl hzero
    · right
      intro last hlast
      -- the shut family carried nothing since the poll
      rw [FamilyWireGate.note_lastSent, if_neg hzero, hgated] at hlast
      have hpast : last ≤ now := le_trans (h f last hlast) hclock
      rw [hcore, hgap] at hnext
      rw [hcore] at hdue
      rw [hgap] at hzero ⊢
      have helapsed := outcome_due _ token settledAt report.v4.attempt report.v6.attempt hk hzero
        hannounce hnext due hdue
      have hanchor : now ≤ FamilyAttempt.anchor report.v4.attempt report.v6.attempt settledAt := by
        obtain ⟨h4, h6⟩ := sendTo_within s.gate d.transmit fates now settledAt hfates
        rw [← hreport] at h4 h6
        rcases FamilyAttempt.anchor_mem report.v4.attempt report.v6.attempt settledAt with
          ht | ht | ht
        · exact (h4 _ ht).1
        · exact (h6 _ ht).1
        · rw [ht]
          exact hsettled
      have hsince := helapsed.since_earlier last _ due _ (le_trans hpast hanchor)
      exact hsince.mono last _ due later hle

/-- A driver that offers each datagram as soon as it is due finds none withheld exactly when every
probe and every announcement that opens a cycle or its announcements comes late enough. -/
theorem gate_keeps_the_schedule (probe : Bool)
    (ts : List (Transition (GatedService I R EV) (GatedStep I))) (s : GatedService I R EV)
    (run : Run (machine probe) ts s) :
    (∀ bound, (∀ tr ∈ ts, Prompt bound tr) →
      ((∀ tr ∈ ts, ∀ f, ¬ Withheld tr f) ↔ ∀ tr ∈ ts, OpensInTime bound tr)) ∧
    ∀ tr ∈ ts, ∀ d report f, tr.pre.offered tr.call = some (d, report) →
      Family.pick f report = .gated →
      tr.post.session.service.core.nextGap = some d.transmit.minFamilyGap →
      ∀ due, tr.post.session.service.core.lifecycleDeadline = some due → ∀ later, due ≤ later →
        tr.post.gate.open_ f later d.transmit.minFamilyGap = true := by
  induction run with
  | start s h =>
    constructor
    · intro bound _
      constructor
      · intro _ tr htr
        exact absurd htr List.not_mem_nil
      · intro _ tr htr
        exact absurd htr List.not_mem_nil
    · intro tr htr
      exact absurd htr List.not_mem_nil
  | step ts s e run hadmits ih =>
    obtain ⟨ihprompt, ihdue⟩ := ih
    have hstanding := standing_run probe ts s run
    have hnew : (machine probe).transition s e ∈ ts ++ [(machine probe).transition s e] :=
      List.mem_append_right ts (List.mem_singleton.mpr rfl)
    constructor
    · intro bound hprompt
      have hearlier := fun tr htr => hprompt tr (List.mem_append_left _ htr)
      have hspaced := prompt_run bound probe ts s run hearlier
      have hstep := withheld_iff bound s e hspaced hstanding hadmits (hprompt _ hnew)
      constructor
      · intro hnone tr htr
        rcases List.mem_append.mp htr with hold | hlast
        · have hnone' := fun tr h => hnone tr (List.mem_append_left _ h)
          exact (ihprompt bound hearlier).mp hnone' tr hold
        · rw [List.mem_singleton.mp hlast]
          exact hstep.mp (hnone _ hnew)
      · intro hopens tr htr
        rcases List.mem_append.mp htr with hold | hlast
        · have hopens' := fun tr h => hopens tr (List.mem_append_left _ h)
          exact (ihprompt bound hearlier).mpr hopens' tr hold
        · rw [List.mem_singleton.mp hlast]
          exact hstep.mpr (hopens _ hnew)
    · intro tr htr d report f hoffered hgated hnext due hdue later hle
      rcases List.mem_append.mp htr with hold | hlast
      · exact ihdue tr hold d report f hoffered hgated hnext due hdue later hle
      · have hsame := List.mem_singleton.mp hlast
        subst hsame
        exact gated_reopens s e (remembers_run probe ts s run) hstanding hadmits d report f hoffered
          hgated hnext due hdue later hle

end

def printerAt (now : Uptime) : GatedService Uptime ZeroRng Slab :=
  ⟨Session.printerAt true now, .new⟩

def onlyV4 : PerFamily Bool := ⟨true, false⟩

def timerAt (now : Uptime) : GatedStep Uptime := ⟨now, .served (.timeout .new ⟨[]⟩)⟩

def offerAt (now : Uptime) : GatedStep Uptime :=
  ⟨now, .offer .new (List.replicate 512 0) (onlyV4.map (takesAt now)) now⟩

def announcing : List (GatedStep Uptime) :=
  [timerAt 0, timerAt 0, offerAt 0, timerAt 250000000, offerAt 250000000, timerAt 500000000,
    offerAt 500000000, timerAt 750000000, timerAt 750000000, offerAt 750000000]

theorem announcing_run : Run (machine true) ((machine true).trace (printerAt 0) announcing)
    ((machine true).play (printerAt 0) announcing) := by
  have hstart : (machine (I := Uptime) true).start (printerAt 0) :=
    ⟨Session.printerAt_registered true 0, rfl⟩
  exact (Run.start _ hstart).play _ _ _ announcing (by decide +kernel)

theorem timerAt_prompt (bound : PerFamily Bool) (now : Uptime)
    (s s' : GatedService Uptime ZeroRng Slab)
    (h : ¬ s.session.service.pendingTransmits.Due) : Prompt bound ⟨s, timerAt now, s'⟩ :=
  Or.inl h

theorem offerAt_prompt (now : Uptime) (s s' : GatedService Uptime ZeroRng Slab) :
    Prompt onlyV4 ⟨s, offerAt now, s'⟩ :=
  ⟨rfl, rfl⟩

theorem announcing_prompt :
    ∀ tr ∈ (machine true).trace (printerAt 0) announcing, Prompt onlyV4 tr := by
  intro tr htr
  simp only [announcing, Machine.trace, List.mem_cons, List.not_mem_nil, or_false] at htr
  rcases htr with rfl | rfl | rfl | rfl | rfl | rfl | rfl | rfl | rfl | rfl
  · exact timerAt_prompt _ _ _ _ (by decide +kernel)
  · exact timerAt_prompt _ _ _ _ (by decide +kernel)
  · exact offerAt_prompt _ _ _
  · exact timerAt_prompt _ _ _ _ (by decide +kernel)
  · exact offerAt_prompt _ _ _
  · exact timerAt_prompt _ _ _ _ (by decide +kernel)
  · exact offerAt_prompt _ _ _
  · exact timerAt_prompt _ _ _ _ (by decide +kernel)
  · exact timerAt_prompt _ _ _ _ (by decide +kernel)
  · exact offerAt_prompt _ _ _

theorem announcing_withheld :
    ∃ tr ∈ (machine true).trace (printerAt 0) announcing, Withheld tr .v4 := by
  have hgated : ((machine true).trace (printerAt 0) announcing).any (fun tr =>
      (tr.pre.offered tr.call).any fun offer => decide (offer.2.v4 = .gated)) = true := by
    decide +kernel
  obtain ⟨tr, htr, hany⟩ := List.any_eq_true.mp hgated
  obtain ⟨offer, hoffer, hv4⟩ := (Option.any_eq_true _ _).mp hany
  exact ⟨tr, htr, offer.1, offer.2, hoffer, of_decide_eq_true hv4⟩

theorem gate_keeps_the_schedule_printer :
    ¬ ∀ tr ∈ (machine true).trace (printerAt 0) announcing, OpensInTime onlyV4 tr := by
  have hkept := (gate_keeps_the_schedule true _ _ announcing_run).1 onlyV4 announcing_prompt
  intro hopens
  obtain ⟨tr, htr, hwithheld⟩ := announcing_withheld
  exact hkept.mpr hopens tr htr .v4 hwithheld

/-- A prompt driver is kept from its first announcement. -/
theorem first_announcement_withheld :
    ¬ ∀ (ts : List (Transition (GatedService Uptime ZeroRng Slab) (GatedStep Uptime)))
      (s : GatedService Uptime ZeroRng Slab), Run (machine true) ts s →
      ∀ bound, (∀ tr ∈ ts, Prompt bound tr) → ∀ tr ∈ ts, ∀ f, ¬ Withheld tr f := by
  intro h
  obtain ⟨tr, htr, hwithheld⟩ := announcing_withheld
  exact h _ _ announcing_run onlyV4 announcing_prompt tr htr .v4 hwithheld

end GatedService
end Hick
