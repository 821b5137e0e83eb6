import Hick.Service.Drained
import Hick.Service.Flight

/-!
# The startup at the end of a clock (service/mod.rs:1881-1965, 2588-2660, 4540-5043)

A service that probes is woken by its deadline, by what it has queued or in flight, or by the report
that its startup is parked.
-/

set_option linter.unusedSectionVars false

namespace Hick
open Octets Wire Respond Runs

namespace Pending

theorem push_only (p : Pending) (kind : PendingTransmitKind) (h : ∀ k, p.Holds k → k = kind) :
    (p.push kind).Holds kind := by
  unfold push
  split
  · exact Or.inl rfl
  · rename_i hfirst
    split
    · exact Or.inr rfl
    · obtain ⟨k, hk⟩ := Option.ne_none_iff_exists'.mp (mt Option.isNone_iff_eq_none.mpr hfirst)
      rw [← h k (Or.inl hk)]
      exact Or.inl hk

theorem holds_of_nonempty (p : Pending) (h : p.isEmpty = false) : ∃ k, p.Holds k := by
  obtain ⟨first, second⟩ := p
  cases first with
  | some k => exact ⟨k, Or.inl rfl⟩
  | none =>
    cases second with
    | some k => exact ⟨k, Or.inr rfl⟩
    | none => cases h

end Pending

section
variable {I : Type} [Instant I]

/-- A sequence begins with no probe under way, and once one is on the wire nothing else is in
flight. -/
structure Core.Sequenced (c : Core I) : Prop where
  fresh : c.state = .init → c.probeOnWire = false ∧ c.awaitingConfirm ≠ some .probe ∧
    ¬c.pendingTransmits.Holds .probe
  probing : c.state.inStartup = true → c.probeOnWire = true →
    ∀ kind, c.awaitingConfirm = some kind → kind = .probe

def Core.Armed (c : Core I) : Prop :=
  c.state.inStartup = true → c.probeOnWire = true → c.lifecycleDeadline = none →
    c.latched = true ∨ c.pendingTransmits.Holds .probe ∨ c.awaitingConfirm = some .probe

theorem Core.Standing.startup (c : Core I) (h : c.Standing) (hs : c.state.inStartup = true) :
    (∀ kind, c.pendingTransmits.Holds kind → kind = .probe) ∧ c.responseDeadline = none ∧
      c.pendingLegacy = [] := by
  have hnot : ¬c.HasClaims := by
    intro hclaims
    rw [c.state.published_not_startup (h.queued hclaims)] at hs
    cases hs
  refine ⟨?_, ?_, ?_⟩
  · intro kind hk
    by_contra hne
    exact hnot (Or.inl ⟨kind, hk, hne⟩)
  · by_contra hne
    exact hnot (Or.inr (Or.inl hne))
  · by_contra hne
    exact hnot (Or.inr (Or.inr hne))

theorem Core.Standing.startup_pending (c : Core I) (h : c.Standing)
    (hs : c.state.inStartup = true) (hne : c.pendingTransmits.isEmpty = false) :
    c.pendingTransmits.Holds .probe := by
  obtain ⟨kind, hk⟩ := c.pendingTransmits.holds_of_nonempty hne
  rw [← (h.startup c hs).1 kind hk]
  exact hk

theorem Core.Sequenced.restarted (c : Core I) (now : I) (deadline : Option I)
    (renamedFrom : Option ServiceRecords) : (c.restarted now deadline renamedFrom).Sequenced := by
  have hstale : c.awaitingConfirm.map (·.demoted renamedFrom) ≠ some .probe := by
    cases c.awaitingConfirm with
    | none => nofun
    | some kind => cases kind <;> nofun
  refine ⟨?_, ?_⟩
  · intro _
    exact ⟨rfl, hstale, Pending.empty_holds _⟩
  · intro _ hw
    cases hw

variable (c c' : Core I)

theorem Core.Sequenced.event (event : ServiceEvent) (now : I) (h : c.Sequenced)
    (heff : EventEffect c event now c') : c'.Sequenced := by
  cases heff with
  | restarted hs deadline => exact .restarted c now deadline none
  | _ => exact ⟨h.fresh, h.probing⟩

theorem Core.Sequenced.tickMove (now : I) (flood : ConflictFlood I) (fired : Bool)
    (h : c.Sequenced) (hmove : TickMove now flood fired c c') : c'.Sequenced := by
  -- what is queued for another kind is no probe
  have hpush : ∀ kind, kind ≠ .probe → c.state = .init →
      ¬(c.pendingTransmits.push kind).Holds .probe := by
    intro kind hne hs hk
    cases Pending.push_holds _ _ _ hk with
    | inl hk => exact (h.fresh hs).2.2 hk
    | inr heq => exact hne heq.symm
  cases hmove with
  | startProbing hs hdue d =>
    refine ⟨nofun, ?_⟩
    intro _ hw
    rw [show c.probeOnWire = false from (h.fresh hs).1] at hw
    cases hw
  | closeSettling n hs hn hdue d => exact ⟨nofun, nofun⟩
  | queueProbe n hs hn hdue pending hp d =>
    refine ⟨?_, h.probing⟩
    intro hinit
    have hinit' : c.state = .init := hinit
    rw [hs] at hinit'
    cases hinit'
  | queueAnnouncement hs hdue pending hp d =>
    refine ⟨?_, h.probing⟩
    intro hinit
    have hinit' : c.state = .init := hinit
    rw [hinit'] at hs
    cases hs
  | queueResponse hf =>
    refine ⟨?_, h.probing⟩
    intro hinit
    exact ⟨(h.fresh hinit).1, (h.fresh hinit).2.1, hpush .response nofun hinit⟩
  | _ => exact ⟨h.fresh, h.probing⟩

theorem Core.Sequenced.ticks (now : I) (flood : ConflictFlood I) (fired : Bool)
    (h : c.Sequenced) (hticks : Ticks now flood fired c c') : c'.Sequenced := by
  induction hticks with
  | refl => exact h
  | tail _ hmove ih => exact ih.tickMove _ _ now flood fired hmove

theorem Core.Sequenced.timeout (now : I) (flood : ConflictFlood I)
    (h : c.Sequenced) (heff : TimeoutEffect c now flood c') : c'.Sequenced := by
  cases heff with
  | waited hd hl => exact .restarted c now _ none
  | renamed hd name hname deadline =>
    have hrestart := Core.Sequenced.restarted c now deadline (some c.records)
    exact ⟨hrestart.fresh, hrestart.probing⟩
  | gaveUp hd => exact ⟨nofun, nofun⟩
  | ticked hl _ hticks =>
    have hexpired : Core.Sequenced { c with kas := c.kas.expire now } := ⟨h.fresh, h.probing⟩
    exact hexpired.ticks _ _ now flood _ hticks

theorem Core.Sequenced.deferred (now : I) (flood : ConflictFlood I)
    (h : c.Sequenced) (heff : DeferEffect c now flood c') : c'.Sequenced := by
  cases heff with
  | none => exact h
  | dropped hw hp deadline =>
    refine ⟨?_, h.probing⟩
    intro hs
    exact ⟨(h.fresh hs).1, (h.fresh hs).2.1, fun hk => (h.fresh hs).2.2 (Pending.pop_holds _ _ hk)⟩

theorem Core.Sequenced.poll (now : I) (buf : Bytes) (sent : Option Sent)
    (h : c.Sequenced) (hstand : c.Standing) (heff : PollEffect c now buf c' sent)
    (hmeta : c.awaitingConfirm = none → c.state.inStartup = true →
      c'.awaitingConfirm ≠ some .metaResponse) : c'.Sequenced := by
  have hkind : ∀ kind, kind ≠ .probe → c.pendingTransmits.peek = some kind →
      c.state.inStartup = false := by
    intro kind hne hp
    cases hs : c.state.inStartup with
    | false => rfl
    | true => exact absurd ((hstand.startup c hs).1 kind (Pending.peek_holds _ _ hp)) hne
  -- past the startup nothing is asked of it
  have hpast : c'.state = c.state → c.state.inStartup = false → c'.Sequenced := by
    intro hstate hs
    refine ⟨?_, ?_⟩
    · intro hinit
      rw [← hstate, hinit] at hs
      cases hs
    · intro hs'
      rw [hstate, hs] at hs'
      cases hs'
  cases heff with
  | silent legacy ho => exact ⟨h.fresh, h.probing⟩
  | metaReply ht metaName hm msg he =>
    apply hpast rfl
    cases hs : c.state.inStartup with
    | false => rfl
    | true => exact absurd rfl (hmeta ht hs)
  | legacyReply ht hl legacy rest ho msg token he =>
    apply hpast rfl
    cases hs : c.state.inStartup with
    | false => rfl
    | true =>
      rw [(hstand.startup c hs).2.2] at ho
      cases ho
  | probe ht hl legacy ho hp msg he =>
    refine ⟨?_, ?_⟩
    · intro hinit
      exact absurd (Pending.peek_holds _ _ hp) (h.fresh hinit).2.2
    · intro _ _ kind hk
      exact (Option.some.inj hk).symm
  | announcement ht hl legacy ho hp msg nsec he => exact hpast rfl (hkind .announcement nofun hp)
  | response ht hl legacy ho hp msg emitted he hne => exact hpast rfl (hkind .response nofun hp)
  | drained ht hl legacy ho hp msg emitted he hne => exact hpast rfl (hkind .response nofun hp)

theorem Core.Sequenced.confirm (c c' : Core I) (anchor : I) (delivery : TransmitDelivery)
    (advances : Bool) (kind : AwaitingConfirm) (h : c.Sequenced)
    (hk : c.awaitingConfirm = some kind)
    (heff : ConfirmEffect { c with awaitingConfirm := none } anchor delivery advances kind c') :
    c'.Sequenced := by
  have hfree : ∀ c₂ : Core I, c₂.awaitingConfirm = none → (c₂.state = .init → c.state = .init ∧
      c₂.probeOnWire = c.probeOnWire ∧ c₂.pendingTransmits = c.pendingTransmits) →
      c₂.Sequenced := by
    intro c₂ hnone hsame
    refine ⟨?_, ?_⟩
    · intro hinit
      obtain ⟨hs, hw, hp⟩ := hsame hinit
      rw [hw, hp, hnone]
      exact ⟨(h.fresh hs).1, nofun, (h.fresh hs).2.2⟩
    · intro _ _ k hk'
      rw [hnone] at hk'
      cases hk'
  cases heff with
  | probeElsewhere hs =>
    apply hfree _ rfl
    intro hinit
    exact absurd hk (h.fresh hinit).2.1
  | probeHeld n hs ha =>
    apply hfree _ rfl
    intro hinit
    have hinit' : c.state = .init := hinit
    rw [show c.state = .probing n from hs] at hinit'
    cases hinit'
  | probeAdvanced n hs ha hd hn deadline => exact hfree _ rfl nofun
  | probeSettled n hs ha hd hn deadline hsettle => exact hfree _ rfl nofun
  | announced emitted state deadline hp hkeep hlost =>
    apply hfree _ rfl
    intro hinit
    have hinit' : state = .init := hinit
    subst hinit'
    cases hpub : c.state.isPublished with
    | false => exact ⟨(hkeep hpub).1.symm, rfl, rfl⟩
    | true => cases hp hpub
  | _ => exact hfree _ rfl fun hinit => ⟨hinit, rfl, rfl⟩

theorem Core.armed_event (event : ServiceEvent) (now : I) (h : c.Armed)
    (heff : EventEffect c event now c') : c'.Armed := by
  cases heff with
  | lost ht =>
    intro _ _ _
    exact Or.inl (Bool.or_true _)
  | defeated ht hw =>
    intro _ _ _
    exact Or.inl rfl
  | restarted hs deadline =>
    intro _ hw
    cases hw
  | _ => exact h

theorem Core.armed_deferred (now : I) (flood : ConflictFlood I) (h : c.Armed)
    (heff : DeferEffect c now flood c') : c'.Armed := by
  cases heff with
  | none => exact h
  | dropped hw hp deadline =>
    intro _ hwire
    rw [show c.probeOnWire = true from hwire] at hw
    cases hw

theorem Core.armed_poll (now : I) (buf : Bytes) (sent : Option Sent) (h : c.Armed)
    (hstand : c.Standing) (heff : PollEffect c now buf c' sent) : c'.Armed := by
  -- what takes the slot before a queued probe leaves the probe queued
  have hkept : c.awaitingConfirm = none → c.state.inStartup = true → c.probeOnWire = true →
      c.lifecycleDeadline = none → c.latched = true ∨ c.pendingTransmits.Holds .probe := by
    intro ht hs hw hd
    rcases h hs hw hd with hl | hp | hk
    · exact Or.inl hl
    · exact Or.inr hp
    · rw [ht] at hk
      cases hk
  have hkind : ∀ kind, kind ≠ .probe → c.pendingTransmits.peek = some kind →
      ¬c.state.inStartup = true := by
    intro kind hne hp hs
    exact hne ((hstand.startup c hs).1 kind (Pending.peek_holds _ _ hp))
  cases heff with
  | silent legacy ho => exact h
  | metaReply ht metaName hm msg he =>
    intro hs hw hd
    exact (hkept ht hs hw hd).imp_right Or.inl
  | legacyReply ht hl legacy rest ho msg token he =>
    intro hs hw hd
    exact (hkept ht hs hw hd).imp_right Or.inl
  | probe ht hl legacy ho hp msg he =>
    intro _ _ _
    exact Or.inr (Or.inr rfl)
  | announcement ht hl legacy ho hp msg nsec he =>
    intro hs
    exact absurd hs (hkind .announcement nofun hp)
  | response ht hl legacy ho hp msg emitted he hne =>
    intro hs
    exact absurd hs (hkind .response nofun hp)
  | drained ht hl legacy ho hp msg emitted he hne =>
    intro hs
    exact absurd hs (hkind .response nofun hp)

end

namespace Service
variable {I R : Type} {EV : Type → Type} [Instant I] [SeedableRng R] [Pool EV]

variable (s : Service I R EV) (now : I) (flood : ConflictFlood I)

theorem rearmParked_armed (h : s.core.Armed) : (s.rearmParked now flood).core.Armed := by
  unfold rearmParked
  split
  · rename_i hparked
    intro _ hw
    unfold startupParked at hparked
    rw [show s.probeOnWire = true from hw] at hparked
    simp at hparked
  · exact h

theorem holdUnderFlood_armed (h : s.core.Armed) : (s.holdUnderFlood now flood).1.core.Armed := by
  unfold holdUnderFlood
  split
  · rename_i hdue
    have hwire : s.probeOnWire = false := by
      simp only [Bool.and_eq_true, Bool.not_eq_true'] at hdue
      exact hdue.1.1.1
    -- the floor is for a sequence none of whose probes is on the wire
    have hnot : ∀ deadline, ({ s with
        lifecycleDeadline := deadline } : Service I R EV).core.Armed := by
      intro deadline _ hw
      rw [show s.probeOnWire = true from hw] at hwire
      cases hwire
    split
    · split
      · exact hnot _
      · exact h
    · exact hnot none
  · exact h

theorem pushLifecyclePending_armed (hseq : s.core.Sequenced)
    (hstand : s.core.Standing) (hs : s.state.inStartup = true) (hw : s.probeOnWire = true) :
    (s.pushLifecyclePending .probe).pendingTransmits.Holds .probe ∨
      (s.pushLifecyclePending .probe).awaitingConfirm = some .probe := by
  unfold pushLifecyclePending
  cases ht : s.awaitingConfirm with
  | none => exact Or.inl (s.pendingTransmits.push_only .probe (hstand.startup _ hs).1)
  | some kind =>
    rw [Option.isSome_some, if_pos rfl]
    apply Or.inr
    rw [ht, hseq.probing hs hw kind ht]

theorem fireDue_armed (hseq : s.core.Sequenced)
    (hstand : s.core.Standing) (h : s.core.Armed) : (s.fireDue now).core.Armed := by
  unfold fireDue
  split
  · unfold fireLifecycle
    split
    · rename_i hinit
      intro _ hw
      have hfresh := (hseq.fresh hinit).1
      rw [show s.core.probeOnWire = true from hw] at hfresh
      cases hfresh
    · rename_i n hprobing
      split
      · exact nofun
      · intro _ hw _
        have hs : s.state.inStartup = true := by
          rw [hprobing]
          rfl
        have hw' : s.probeOnWire = true := by
          obtain ⟨pending, hcore, -⟩ := s.pushLifecyclePending_core .probe
          exact (congrArg Core.probeOnWire hcore).symm.trans hw
        exact Or.inr (s.pushLifecyclePending_armed hseq hstand hs hw')
    · rename_i n hann
      intro hs
      obtain ⟨pending, hcore, -⟩ := s.pushLifecyclePending_core .announcement
      have hstate : (s.pushLifecyclePending .announcement).state.inStartup = true := hs
      rw [show (s.pushLifecyclePending .announcement).state = s.state from
        congrArg Core.state hcore, hann] at hstate
      cases hstate
    · rename_i hest
      intro hs
      obtain ⟨pending, hcore, -⟩ := s.pushLifecyclePending_core .announcement
      have hstate : (s.pushLifecyclePending .announcement).state.inStartup = true := hs
      rw [show (s.pushLifecyclePending .announcement).state = s.state from
        congrArg Core.state hcore, hest] at hstate
      cases hstate
    · exact h
  · exact h

theorem tick_armed (hseq : s.core.Sequenced) (hstand : s.core.Standing) (h : s.core.Armed) :
    (s.tick now flood).1.core.Armed := by
  have hfired : due s.responseDeadline now = true → s.core.state.isPublished = true :=
    hstand.fired s.core now
  have htake := s.takeResponse_ticks now flood (due s.responseDeadline now)
  have htaken : (s.takeResponse (due s.responseDeadline now)).core.Armed := by
    unfold takeResponse
    split
    · exact h
    · exact h
  unfold tick
  dsimp only
  generalize due s.responseDeadline now = fired at *
  have hrearm := (s.takeResponse fired).rearmParked_ticks now flood fired
  have hrearmed := (s.takeResponse fired).rearmParked_armed now flood htaken
  have hhold := ((s.takeResponse fired).rearmParked now flood).holdUnderFlood_ticks now flood fired
  have hheld := ((s.takeResponse fired).rearmParked now flood).holdUnderFlood_armed now flood
    hrearmed
  have hticks := (htake.trans hrearm).trans hhold
  have hdone := fireDue_armed _ now (hseq.ticks _ _ now flood fired hticks)
    (hstand.ticks _ _ now flood fired hfired hticks).1 hheld
  unfold queueResponse
  split
  · intro hs hw hd
    rcases hdone hs hw hd with hl | hp | hk
    · exact Or.inl hl
    · exact Or.inr (Or.inl (Pending.holds_push _ _ _ hp))
    · exact Or.inr (Or.inr hk)
  · exact hdone

theorem handleTimeout_armed (taken : NamesInUse) (hseq : s.core.Sequenced)
    (hstand : s.core.Standing) (h : s.core.Armed) :
    (s.handleTimeout now flood taken).1.core.Armed := by
  have heff := s.handleTimeout_effect now flood taken
  by_cases hl : s.core.latched = true
  · generalize (s.handleTimeout now flood taken).1.core = c at heff ⊢
    cases heff with
    | waited hd hlost => exact fun _ => nofun
    | renamed hd name hname deadline => exact fun _ => nofun
    | gaveUp hd => exact nofun
    | ticked hnot _ hticks =>
      rw [hl] at hnot
      cases hnot
  · unfold handleTimeout
    dsimp only
    have hl' : ¬({ s with
        lastNow := some now
        kas := s.kas.expire now } : Service I R EV).conflictClassifiedUnresolved = true := hl
    rw [if_neg hl']
    have hexpired : Core.Standing { s.core with kas := s.kas.expire now } :=
      hstand.frame s.core _ rfl hstand.queued (fun _ => id) (fun _ hk _ => hk) rfl
        fun _ hs => ⟨hs, rfl⟩
    exact tick_armed _ now flood ⟨hseq.fresh, hseq.probing⟩ hexpired h


def settlingBase (s : Service I R EV) (anchor : I) (delivery : TransmitDelivery) : Option I :=
  if (classifyAdvance s.partialRounds delivery).1 = .delivered ∨ s.partialAnnounceStreak = 0 then
    announceDeadline anchor 0
  else partialAnnounceDeadline anchor s.partialAnnounceStreak s.records.ttlSecs

/-- Where probe `n` is confirmed at `anchor`, the next instant of the sequence is off the clock. -/
def offClock (s : Service I R EV) (anchor : I) (n : UInt8) (delivery : TransmitDelivery) : Bool :=
  (checkedAddDuration anchor probeInterval).isNone &&
    (!s.roundDone delivery || n < 2 || (s.settlingBase anchor delivery).isNone)

theorem enterSettling_deadline (advance : PhaseAdvance) :
    (s.enterSettling now advance).lifecycleDeadline = none ↔
      checkedAddDuration now probeInterval = none ∧
        (if advance = .delivered ∨ s.partialAnnounceStreak = 0 then announceDeadline now 0
          else partialAnnounceDeadline now s.partialAnnounceStreak s.records.ttlSecs) = none := by
  unfold enterSettling armOnPartialLadder
  dsimp only
  cases checkedAddDuration now probeInterval with
  | some settled =>
    constructor
    · intro h
      cases h
    · rintro ⟨h, -⟩
      cases h
  | none =>
    rw [eq_self_iff_true, true_and]
    by_cases hadv : advance = .delivered
    · rw [if_pos hadv, if_pos (Or.inl hadv)]
    · rw [if_neg hadv]
      by_cases hstreak : s.partialAnnounceStreak = 0
      · rw [if_pos hstreak, if_pos (Or.inr hstreak)]
      · rw [if_neg hstreak, if_neg (not_or.mpr ⟨hadv, hstreak⟩)]

theorem advanceProbe_deadline (anchor : I) (n : UInt8)
    (delivery : TransmitDelivery) :
    (s.advanceProbe anchor n delivery).lifecycleDeadline = none ↔
      s.offClock anchor n delivery = true := by
  unfold advanceProbe offClock roundDone settlingBase
  generalize classifyAdvance s.partialRounds delivery = advanced
  obtain ⟨advance, rounds⟩ := advanced
  dsimp only
  rw [Bool.and_eq_true, Option.isNone_iff_eq_none, Bool.or_eq_true, Bool.or_eq_true,
    decide_eq_true_eq, Option.isNone_iff_eq_none]
  cases hadv : advance.advances with
  | false =>
    rw [Bool.not_false, if_pos rfl]
    exact ⟨fun h => ⟨h, Or.inl (Or.inl rfl)⟩, fun h => h.1⟩
  | true =>
    rw [Bool.not_true, if_neg Bool.false_ne_true]
    by_cases hn : n ≥ 2
    · rw [if_pos hn, enterSettling_deadline]
      have hnot : ¬n < 2 := UInt8.not_lt.mpr hn
      constructor
      · rintro ⟨hadd, hbase⟩
        exact ⟨hadd, Or.inr hbase⟩
      · rintro ⟨hadd, hround | hbase⟩
        · exfalso
          cases hround with
          | inl hfalse => cases hfalse
          | inr hlt => exact hnot hlt
        · exact ⟨hadd, hbase⟩
    · rw [if_neg hn]
      have hlt : n < 2 := UInt8.not_le.mp hn
      have hnext : saturatingSucc8 n ≠ 0 := by
        rw [saturatingSucc8_lt_two n hlt]
        intro hzero
        have hnat := congrArg UInt8.toNat hzero
        rw [UInt8.toNat_add] at hnat
        have hlt' : n.toNat < 2 := hlt
        have hone : (1 : UInt8).toNat = 1 := rfl
        have hzero' : (0 : UInt8).toNat = 0 := rfl
        omega
      have hdeadline : (probeDeadline anchor (saturatingSucc8 n) s.rng).1 =
          checkedAddDuration anchor probeInterval := by
        unfold probeDeadline
        rw [if_neg hnext]
      dsimp only
      rw [hdeadline]
      exact ⟨fun h => ⟨h, Or.inl (Or.inr hlt)⟩, fun h => h.1⟩

/-- The confirm of probe `n` leaves the queue and the latches, counts a probe on the wire where a
family took it, and arms what the clock has. -/
theorem confirm_probe (v4 v6 : FamilyAttempt I) (n : UInt8)
    (hs : s.state = .probing n) (ht : s.awaitingConfirm = some .probe) :
    ∃ m, (s.noteTransmitOutcome now v4 v6).1.core =
        { s.core with
          state := .probing m
          awaitingConfirm := none
          probeOnWire := s.probeOnWire || (FamilyAttempt.project v4 v6).anyDelivered
          lifecycleDeadline := (s.noteTransmitOutcome now v4 v6).1.lifecycleDeadline } ∧
      ((s.noteTransmitOutcome now v4 v6).1.lifecycleDeadline = none ↔
        s.offClock (FamilyAttempt.anchor v4 v6 now) n (FamilyAttempt.project v4 v6) = true) := by
  have hdeadline : (s.noteTransmitOutcome now v4 v6).1.lifecycleDeadline = none ↔
      s.offClock (FamilyAttempt.anchor v4 v6 now) n (FamilyAttempt.project v4 v6) = true := by
    unfold noteTransmitOutcome
    rw [ht]
    dsimp only
    unfold settleConfirm settleProbe
    dsimp only
    rw [hs]
    exact advanceProbe_deadline _ _ n _
  cases s.noteTransmitOutcome_effect now v4 v6 with
  | inl hidle =>
    rw [ht] at hidle
    cases hidle.1
  | inr hsettled =>
    obtain ⟨kind, hkind, heff⟩ := hsettled
    rw [ht] at hkind
    obtain rfl := Option.some.inj hkind
    have hlast : (s.noteTransmitOutcome now v4 v6).1.core.lifecycleDeadline =
        (s.noteTransmitOutcome now v4 v6).1.lifecycleDeadline := rfl
    rw [← hlast] at hdeadline ⊢
    generalize (s.noteTransmitOutcome now v4 v6).1.core = c at heff hdeadline ⊢
    cases heff with
    | probeElsewhere hnot => exact absurd hs (hnot n)
    | probeHeld m hm ha =>
      obtain rfl : n = m := by
        have heq : ServiceState.probing n = .probing m := hs.symm.trans hm
        cases heq
        rfl
      refine ⟨n, ?_, hdeadline⟩
      rw [← hs]
      rfl
    | probeAdvanced m hm ha hd hn deadline =>
      refine ⟨m + 1, ?_, hdeadline⟩
      rw [hd, Bool.or_true]
    | probeSettled m hm ha hd hn deadline hsettle =>
      refine ⟨3, ?_, hdeadline⟩
      rw [hd, Bool.or_true]

def MetaHeld (s : Service I R EV) : Prop :=
  s.state.inStartup = true → s.metaResponseDeadline = none

theorem MetaHeld.same (s s' : Service I R EV) (h : s.MetaHeld) (hstate : s'.state = s.state)
    (haside : s'.aside = s.aside) : s'.MetaHeld := by
  intro hs
  rw [hstate] at hs
  exact (congrArg Prod.snd haside).trans (h hs)

theorem floodEligible_aside (datagram : DatagramId) :
    (s.floodEligible datagram).1.aside = s.aside := by
  unfold floodEligible
  split
  · split <;> rfl
  · rfl

theorem handleQuestion_state (sq : ServiceQuestion) (now : I) :
    (s.handleQuestion sq now).state = s.state := by
  rw [s.handleQuestion_frame sq now]

theorem dispatchEvent_metaHeld (event : ServiceEvent) (now : I)
    (flood : ConflictFlood I) (h : s.MetaHeld) : (s.dispatchEvent event now flood).1.MetaHeld := by
  unfold dispatchEvent
  cases event with
  | probeConflict pc =>
    dsimp only
    split
    · have haside := s.floodEligible_aside pc.datagram
      have hstate : (s.floodEligible pc.datagram).1.state = s.state :=
        congrArg Core.state (s.floodEligible_core pc.datagram)
      unfold contestProbed handlePreauthoritativeConflict
      dsimp only
      split
      · exact h.same _ _ hstate haside
      · split
        · exact h.same _ _ hstate haside
        · exact h.same _ _ hstate haside
    · split
      · unfold contestPublished
        split
        · exact h
        · split
          · exact h
          · split
            · exact h
            · exact fun _ => rfl
      · exact h
  | probeProposal pp =>
    dsimp only
    split
    · unfold contestProposed handleProbeProposal
      cases adjudicate pp s.records with
      | peerWins => exact h.same _ _ rfl rfl
      | weHold => exact h
      | abandoned => exact h
    · exact h
  | question sq =>
    dsimp only
    split
    · rename_i hpub
      intro hs
      rw [s.handleQuestion_state sq now, s.state.published_not_startup hpub] at hs
      cases hs
    · exact h
  | knownAnswer ka =>
    unfold handleKnownAnswer
    dsimp only
    split
    · unfold handleMetaKnownAnswer
      split
      · split
        · exact h.same _ _ rfl rfl
        · exact h
      · exact h
    · split
      · exact h.same _ _ rfl rfl
      · exact h
  | hostConflict hc =>
    unfold handleHostConflict
    dsimp only
    split
    · exact h
    · have hstate : ((s.floodEligible hc.datagram).1.notify .hostConflict).state = s.state := by
        have hnotify := (s.floodEligible hc.datagram).1.notify_core .hostConflict
        exact congrArg Core.state (hnotify.trans (s.floodEligible_core hc.datagram))
      exact h.same _ _ hstate ((notify_aside _ _).trans (s.floodEligible_aside hc.datagram))

theorem handleEvent_metaHeld (event : ServiceEvent) (now : I)
    (flood : ConflictFlood I) (h : s.MetaHeld) : (s.handleEvent event now flood).1.MetaHeld := by
  have hstate : (s.receive event now).state = s.state :=
    congrArg Core.state (s.receive_core event now)
  have hmeta : (s.receive event now).metaResponseDeadline = s.metaResponseDeadline := by
    unfold receive
    split
    · exact congrArg Prod.snd (floodEligible_aside _ _)
    · rfl
  have hreceived : (s.receive event now).MetaHeld := by
    intro hs
    rw [hstate] at hs
    exact hmeta.trans (h hs)
  unfold handleEvent
  dsimp only
  split
  · exact hreceived
  · exact hreceived
  · exact hreceived
  · exact dispatchEvent_metaHeld _ event now flood hreceived

theorem ticks_startup (fired : Bool) (c c' : Core I)
    (h : Ticks now flood fired c c') (hs : c'.state.inStartup = true) :
    c.state.inStartup = true := by
  induction h with
  | refl => exact hs
  | tail _ hmove ih =>
    apply ih
    cases hmove with
    | startProbing hinit hdue d =>
      rw [hinit]
      rfl
    | closeSettling n hprobing hn hdue d => cases hs
    | _ => exact hs

theorem handleTimeout_metaHeld (taken : NamesInUse) (h : s.MetaHeld) :
    (s.handleTimeout now flood taken).1.MetaHeld := by
  unfold handleTimeout
  dsimp only
  split
  · unfold spendConflict
    dsimp only
    split
    · unfold rename
      dsimp only
      split
      · unfold takeName
        dsimp only
        intro _
        exact congrArg Prod.snd (notify_aside _ _)
      · exact fun _ => rfl
    · exact fun _ => rfl
  · intro hs
    have hpre := ticks_startup now flood _ _ _ (tick_ticks ({ s with
      lastNow := some now
      kas := s.kas.expire now } : Service I R EV) now flood) hs
    exact (congrArg Prod.snd (tick_aside _ now flood)).trans (h hpre)

theorem pollMeta_undue (buf : Bytes)
    (h : s.metaResponseDeadline = none) : s.pollMeta now buf = (s, none) := by
  unfold pollMeta
  rw [h]

theorem pollTransmit_metaHeld (buf : Bytes) (h : s.MetaHeld) :
    (s.pollTransmit now buf).1.MetaHeld := by
  have hstate : (s.pollTransmit now buf).1.core.state = s.core.state := by
    have heff := s.pollTransmit_effect now buf
    generalize (s.pollTransmit now buf).1.core = c at heff ⊢
    generalize sentOf (s.pollTransmit now buf).2 = sent at heff
    cases heff <;> rfl
  intro hs
  have hs' : (s.pollTransmit now buf).1.core.state.inStartup = true := hs
  rw [hstate] at hs'
  have hmeta := h hs'
  unfold pollTransmit
  split
  · exact hmeta
  · rw [s.pollMeta_undue now buf hmeta]
    dsimp only
    have hlegacy := s.pollLegacy_aside buf
    generalize s.pollLegacy buf = polled at hlegacy ⊢
    obtain ⟨s₂, _ | sent⟩ := polled
    · have hqueue := (s₂.pollQueue_aside now buf).trans hlegacy
      exact (congrArg Prod.snd hqueue).trans hmeta
    · exact (congrArg Prod.snd hlegacy).trans hmeta

theorem pollQueue_token (buf : Bytes)
    (h : s.awaitingConfirm ≠ some .metaResponse) :
    (s.pollQueue now buf).1.awaitingConfirm ≠ some .metaResponse := by
  unfold pollQueue
  dsimp only
  split
  · exact h
  · split
    · exact h
    · split
      · split
        · exact h
        · nofun
      · split
        · exact h
        · nofun
      · split
        · exact h
        · split
          · exact h
          · nofun

theorem pollTransmit_token (buf : Bytes)
    (hmeta : s.metaResponseDeadline = none) (hreplies : s.pendingLegacy = [])
    (ht : s.awaitingConfirm = none) :
    (s.pollTransmit now buf).1.awaitingConfirm ≠ some .metaResponse := by
  have hnone : s.awaitingConfirm ≠ some .metaResponse := by
    rw [ht]
    nofun
  unfold pollTransmit
  split
  · exact hnone
  · rw [s.pollMeta_undue now buf hmeta]
    dsimp only
    have hlegacy : s.pollLegacy buf = (s, none) := by
      unfold pollLegacy
      rw [hreplies]
    rw [hlegacy]
    exact s.pollQueue_token now buf hnone

end Service

namespace Session
variable {I R : Type} {EV : Type → Type} [Instant I] [SeedableRng R] [Pool EV]

/-- A startup with nothing queued and nothing in flight is due at some instant, or the next timer
call reports an overflow. -/
def Alert (s : Session I R EV) : Prop :=
  s.withdrawing = false → s.service.state.inStartup = true →
    s.service.pendingTransmits.isEmpty = true → s.service.awaitingConfirm = none →
    s.service.pollTimeout.isSome = true ∨ ∀ now flood taken, s.clock ≤ now →
      (s.service.handleTimeout now flood taken).2 = .error .overflow

/-- A probe is confirmed with one on the wire, nothing else queued and no conflict to spend, and the
next instant of the sequence is off the clock. -/
def exhausts (s : Session I R EV) (e : Timed I) : Bool :=
  match e.call, s.service.state, s.service.awaitingConfirm with
  | .outcome v4 v6, .probing n, some .probe =>
    !s.withdrawing && s.service.pendingTransmits.isEmpty && !s.service.core.latched &&
      (s.service.probeOnWire || (FamilyAttempt.project v4 v6).anyDelivered) &&
      s.service.offClock (FamilyAttempt.anchor v4 v6 e.now) n (FamilyAttempt.project v4 v6)
  | _, _, _ => false

structure Kept (s : Session I R EV) : Prop where
  standing : s.service.core.Standing
  sequenced : s.service.core.Sequenced
  enumeration : s.service.MetaHeld

theorem kept_start (probe : Bool) (s : Session I R EV) (h : Registered probe s) : Kept s := by
  have htracked := (tracked_start probe s h).standing
  obtain ⟨records, now, seed, reAnnounce, flood, -, rfl⟩ := h
  refine ⟨htracked, ⟨?_, ?_⟩, fun _ => rfl⟩
  · intro _
    exact ⟨rfl, nofun, Pending.empty_holds _⟩
  · intro _ hw
    cases hw

theorem polled_token (s : Service I R EV) (now : I) (flood : ConflictFlood I) (buf : Bytes)
    (hmeta : s.MetaHeld) (hstand : s.core.Standing) (hs : s.state.inStartup = true)
    (ht : s.awaitingConfirm = none) :
    (s.pollDeferred now flood buf).1.core.awaitingConfirm ≠ some .metaResponse := by
  have heff := s.deferFirstProbe_effect now flood
  have haside := congrArg Prod.snd (s.deferFirstProbe_aside now flood)
  have hkept : (s.deferFirstProbeUnderFlood now flood).core.awaitingConfirm = none ∧
      (s.deferFirstProbeUnderFlood now flood).core.pendingLegacy = [] := by
    generalize (s.deferFirstProbeUnderFlood now flood).core = c at heff
    cases heff with
    | none => exact ⟨ht, (hstand.startup _ hs).2.2⟩
    | dropped hw hp deadline => exact ⟨ht, (hstand.startup _ hs).2.2⟩
  exact Service.pollTransmit_token _ now buf (haside.trans (hmeta hs)) hkept.2 hkept.1

variable (s : Session I R EV)

theorem sequenced_next (e : Timed I) (h : Kept s) :
    (s.next e).service.core.Sequenced := by
  have hpolled : ∀ flood buf, e.call = .poll flood buf → s.withdrawing = false →
      s.service.core.awaitingConfirm = none → s.service.core.state.inStartup = true →
      (s.next e).service.core.awaitingConfirm ≠ some .metaResponse := by
    intro flood buf he hw ht hs
    have hnext : (s.next e).service.core = (s.service.pollDeferred e.now flood buf).1.core := by
      simp only [next, served, heeds, serve, he, hw, Bool.not_false, if_true]
      rfl
    rw [hnext]
    exact polled_token s.service e.now flood buf h.enumeration h.standing hs ht
  have heff := s.next_effect e
  generalize (s.next e).service.core = c' at heff hpolled ⊢
  cases heff with
  | idle hsent hconfirm htimeout => exact h.sequenced
  | event event flood he hw _ heff => exact h.sequenced.event _ _ event e.now heff
  | timeout flood taken he hw _ heff => exact h.sequenced.timeout _ _ e.now flood heff
  | poll flood buf he hw c₁ _ sent hdefer heff hsent =>
    obtain ⟨hstand, -, hstate, htoken⟩ := h.standing.deferred _ c₁ e.now flood hdefer
    apply (h.sequenced.deferred _ c₁ e.now flood hdefer).poll c₁ _ e.now buf sent hstand heff
    intro ht hs
    rw [htoken] at ht
    rw [hstate] at hs
    exact hpolled flood buf he hw ht hs
  | confirm v4 v6 he kind hk _ heff => exact h.sequenced.confirm _ _ _ _ _ kind hk heff
  | withdraw he hw =>
    refine ⟨?_, h.sequenced.probing⟩
    intro hs
    exact ⟨(h.sequenced.fresh hs).1, (h.sequenced.fresh hs).2.1, Pending.empty_holds _⟩

theorem confirm_metaHeld (s : Service I R EV) (now : I) (v4 v6 : FamilyAttempt I)
    (h : s.MetaHeld) : (s.noteTransmitOutcome now v4 v6).1.MetaHeld := by
  have haside := congrArg Prod.snd (s.noteTransmitOutcome_aside now v4 v6)
  intro hs
  refine haside.trans (h ?_)
  have hs' : (s.noteTransmitOutcome now v4 v6).1.core.state.inStartup = true := hs
  cases s.noteTransmitOutcome_effect now v4 v6 with
  | inl hidle =>
    rw [hidle.2] at hs
    exact hs
  | inr hsettled =>
    obtain ⟨kind, -, heff⟩ := hsettled
    generalize (s.noteTransmitOutcome now v4 v6).1.core = c at heff hs'
    cases heff with
    | probeAdvanced n hn ha hd hlt deadline => exact (congrArg ServiceState.inStartup hn).trans rfl
    | probeSettled n hn ha hd hge deadline hsettle =>
      exact (congrArg ServiceState.inStartup hn).trans rfl
    | announced emitted state deadline hp hkeep hlost =>
      cases hpub : s.state.isPublished with
      | false =>
        rw [(hkeep hpub).1] at hs'
        exact hs'
      | true =>
        rw [state.published_not_startup (hp hpub)] at hs'
        cases hs'
    | _ => exact hs'

theorem metaHeld_next (e : Timed I) (h : s.service.MetaHeld) :
    (s.next e).service.MetaHeld := by
  have hserved : (s.served e).MetaHeld := by
    unfold served
    split
    · unfold serve
      cases e.call with
      | event event flood => exact s.service.handleEvent_metaHeld event e.now flood h
      | timeout flood taken => exact s.service.handleTimeout_metaHeld e.now flood taken h
      | poll flood buf =>
        have hstate : (s.service.deferFirstProbeUnderFlood e.now flood).core.state =
            s.service.core.state := by
          have heff := s.service.deferFirstProbe_effect e.now flood
          generalize (s.service.deferFirstProbeUnderFlood e.now flood).core = c at heff ⊢
          cases heff <;> rfl
        exact Service.pollTransmit_metaHeld _ e.now buf
          (h.same _ _ hstate (s.service.deferFirstProbe_aside e.now flood))
      | outcome v4 v6 => exact confirm_metaHeld s.service e.now v4 v6 h
      | update =>
        exact h.same _ _ (congrArg Core.state s.service.poll_core) s.service.poll_aside
      | withdraw => exact fun _ => rfl
    · exact h
  exact hserved

theorem kept_run (probe : Bool) (ts : List (Transition (Session I R EV) (Timed I)))
    (s : Session I R EV) (run : Run (machine probe) ts s) : Kept s := by
  apply Reachable.invariant (machine probe) Kept (kept_start probe) _ s ⟨ts, run⟩
  intro s e h _
  exact ⟨standing_next s e h.standing, sequenced_next s e h, metaHeld_next s e h.enumeration⟩

def Ready (s : Session I R EV) : Prop := s.withdrawing = false → s.service.core.Armed

theorem confirm_armed (e : Timed I) (v4 v6 : FamilyAttempt I)
    (he : e.call = .outcome v4 v6) (h : Kept s) (harmed : s.service.core.Armed)
    (hw : s.withdrawing = false) (hok : s.exhausts e = false) :
    (s.service.noteTransmitOutcome e.now v4 v6).1.core.Armed := by
  by_cases hprobe : ∃ n, s.service.state = .probing n ∧ s.service.awaitingConfirm = some .probe
  · obtain ⟨n, hs, ht⟩ := hprobe
    obtain ⟨m, hcore, hdeadline⟩ := s.service.confirm_probe e.now v4 v6 n hs ht
    rw [hcore]
    intro _ hwire hnone
    have hoff := hdeadline.mp hnone
    by_contra hquiet
    rw [not_or, not_or] at hquiet
    obtain ⟨hlatched, hpending, -⟩ := hquiet
    have hempty : s.service.pendingTransmits.isEmpty = true := by
      by_contra hne
      apply hpending
      apply h.standing.startup_pending _ _ (Bool.eq_false_iff.mpr hne)
      exact (congrArg ServiceState.inStartup hs).trans rfl
    have hcalm : s.service.core.latched = false := Bool.eq_false_iff.mpr hlatched
    have hexhausts : s.exhausts e = true := by
      unfold exhausts
      rw [he, hs, ht]
      dsimp only
      rw [hw, hempty, hcalm, hoff, show (s.service.probeOnWire ||
        (FamilyAttempt.project v4 v6).anyDelivered) = true from hwire]
      rfl
    rw [hok] at hexhausts
    cases hexhausts
  · cases s.service.noteTransmitOutcome_effect e.now v4 v6 with
    | inl hidle =>
      rw [hidle.2]
      exact harmed
    | inr hsettled =>
      obtain ⟨kind, hk, heff⟩ := hsettled
      -- another token is in flight before any probe is on the wire
      have hother : kind ≠ .probe → s.service.core.state.inStartup = true →
          ¬s.service.core.probeOnWire = true := by
        intro hne hs hwire
        exact hne (h.sequenced.probing hs hwire kind hk)
      generalize (s.service.noteTransmitOutcome e.now v4 v6).1.core = c at heff ⊢
      cases heff with
      | probeElsewhere hnot =>
        intro hs
        exfalso
        have hs' : s.service.state.inStartup = true := hs
        cases hstate : s.service.state with
        | init => exact (h.sequenced.fresh hstate).2.1 hk
        | probing n => exact hnot n hstate
        | announcing n =>
          rw [hstate] at hs'
          cases hs'
        | established =>
          rw [hstate] at hs'
          cases hs'
        | conflicting =>
          rw [hstate] at hs'
          cases hs'
      | probeHeld n hs ha => exact absurd ⟨n, hs, hk⟩ hprobe
      | probeAdvanced n hs ha hd hn deadline => exact absurd ⟨n, hs, hk⟩ hprobe
      | probeSettled n hs ha hd hn deadline hsettle => exact absurd ⟨n, hs, hk⟩ hprobe
      | announced emitted state deadline hp hkeep hlost =>
        intro hs hwire
        exfalso
        have hs' : state.inStartup = true := hs
        cases hpub : s.service.state.isPublished with
        | false =>
          rw [(hkeep hpub).1] at hs'
          exact hother nofun hs' hwire
        | true =>
          rw [state.published_not_startup (hp hpub)] at hs'
          cases hs'
      | _ => exact fun hs hwire => absurd hwire (hother nofun hs)

theorem ready_next (e : Timed I) (h : Kept s) (hready : Ready s)
    (hok : s.exhausts e = false) : Ready (s.next e) := by
  intro hnext
  obtain ⟨hw, hcall⟩ := Bool.or_eq_false_iff.mp hnext
  have harmed := hready hw
  have hserved : (s.next e).service.core = (serve s.service e.now e.call).core := by
    have hheeds : s.heeds e.call = true := by
      cases e.call <;> simp only [heeds, hw, Bool.not_false]
    simp only [next, served, hheeds, if_true]
    rfl
  rw [hserved]
  cases he : e.call with
  | event event flood =>
    exact Core.armed_event _ _ event e.now harmed (s.service.handleEvent_effect event e.now flood)
  | timeout flood taken =>
    exact s.service.handleTimeout_armed e.now flood taken h.sequenced h.standing harmed
  | poll flood buf =>
    have hdefer := s.service.deferFirstProbe_effect e.now flood
    exact Core.armed_poll _ _ e.now buf _ (Core.armed_deferred _ _ e.now flood harmed hdefer)
      (h.standing.deferred _ _ e.now flood hdefer).1 (Service.pollTransmit_effect _ e.now buf)
  | outcome v4 v6 => exact confirm_armed s e v4 v6 he h harmed hw hok
  | update =>
    rw [show (serve s.service e.now .update).core = s.service.core from s.service.poll_core]
    exact harmed
  | withdraw =>
    rw [he] at hcall
    cases hcall

theorem ready_run (probe : Bool) (ts : List (Transition (Session I R EV) (Timed I)))
    (s : Session I R EV) (run : Run (machine probe) ts s)
    (hok : ∀ t ∈ ts, t.pre.exhausts t.call = false) : Ready s := by
  induction run with
  | start s hstart =>
    obtain ⟨records, now, seed, reAnnounce, flood, -, rfl⟩ := hstart
    intro _ _ hwire
    cases hwire
  | step ts s e run ha ih =>
    apply ready_next s e (kept_run probe ts s run)
    · exact ih fun t ht => hok t (List.mem_append_left _ ht)
    · exact hok _ (List.mem_append_right _ (List.mem_singleton.mpr rfl))

theorem earliest_isSome (a b : Option I) (h : a.isSome = true) : (earliest a b).isSome = true := by
  cases a with
  | none => cases h
  | some a => cases b <;> rfl

theorem Ready.alert (h : Ready s) (hseen : s.service.lastNow.isSome = true) :
    Alert s := by
  intro hw hs hqueue ht
  apply Or.inl
  have harmed := h hw hs
  unfold Service.pollTimeout
  split
  · exact hseen
  · split
    · exact hseen
    · rename_i hcalm
      split
      · exact hseen
      · rename_i hparked
        apply earliest_isSome
        by_contra hnone
        have hdeadline : s.service.lifecycleDeadline = none :=
          Option.not_isSome_iff_eq_none.mp hnone
        -- unarmed and not parked, the startup has a probe on the wire
        have hwire : s.service.probeOnWire = true := by
          by_contra hwire
          apply hparked
          unfold Service.startupParked
          rw [hdeadline, hqueue, ht, Bool.eq_false_iff.mpr hwire, hs]
          rfl
        rcases harmed hwire hdeadline with hl | hp | hk
        · exact hcalm hl
        · have hempty : s.service.pendingTransmits = .empty := by
            generalize s.service.pendingTransmits = p at hqueue
            obtain ⟨_ | first, _ | second⟩ := p
            · rfl
            · cases hqueue
            · cases hqueue
            · cases hqueue
          exact Pending.empty_holds .probe (hempty ▸ hp)
        · rw [show s.service.core.awaitingConfirm = none from ht] at hk
          cases hk

theorem stalled_is_silent (s : Service I R EV) (hs : s.state.inStartup = true)
    (hstand : s.core.Standing) (hmeta : s.MetaHeld) (hlatched : s.core.latched = false)
    (hwire : s.probeOnWire = true) (hdeadline : s.lifecycleDeadline = none) :
    s.pollTimeout = none ∧ ∀ now flood taken, s.handleTimeout now flood taken =
      ({ s with
        lastNow := some now
        kas := s.kas.expire now }, .ok ()) := by
  obtain ⟨-, hresponse, hreplies⟩ := hstand.startup _ hs
  have hcalm : s.conflictClassifiedUnresolved = false := hlatched
  have hparked : s.startupParked = false := by
    unfold Service.startupParked
    rw [hwire, Bool.not_true, Bool.and_false, Bool.false_and]
  constructor
  · unfold Service.pollTimeout
    rw [show s.pendingLegacy = [] from hreplies, hcalm, hparked, hdeadline,
      show s.responseDeadline = none from hresponse, hmeta hs]
    rfl
  · intro now flood taken
    generalize hr : ({ s with
      lastNow := some now
      kas := s.kas.expire now } : Service I R EV) = r
    have hstart : s.handleTimeout now flood taken = r.tick now flood := by
      unfold Service.handleTimeout
      dsimp only
      rw [hr, show r.conflictClassifiedUnresolved = false by rw [← hr]; exact hcalm,
        if_neg Bool.false_ne_true]
    have hundue : due r.responseDeadline now = false := by
      rw [← hr, show s.responseDeadline = none from hresponse]
      rfl
    have hrearm : r.rearmParked now flood = r := by
      unfold Service.rearmParked
      rw [show r.startupParked = false by rw [← hr]; exact hparked, if_neg Bool.false_ne_true]
    have hhold : r.holdUnderFlood now flood = (r, false) := by
      unfold Service.holdUnderFlood
      rw [show r.probeOnWire = true by rw [← hr]; exact hwire]
      rfl
    have hfire : r.fireDue now = r := by
      unfold Service.fireDue
      rw [show r.lifecycleDeadline = none by rw [← hr]; exact hdeadline]
      rfl
    rw [hstart]
    unfold Service.tick
    dsimp only
    rw [hundue, show r.takeResponse false = r from rfl, hrearm, hhold]
    dsimp only
    rw [hfire, show r.queueResponse false = r from rfl,
      show r.startupParked = false by rw [← hr]; exact hparked]
    rfl

theorem exhausted_stalls (e : Timed I) (h : Kept s)
    (hex : s.exhausts e = true) :
    (s.next e).withdrawing = false ∧ (s.next e).service.state.inStartup = true ∧
      (s.next e).service.pendingTransmits.isEmpty = true ∧
      (s.next e).service.awaitingConfirm = none ∧ (s.next e).service.pollTimeout = none ∧
      ∀ now flood taken, ((s.next e).service.handleTimeout now flood taken).2 = .ok () := by
  unfold exhausts at hex
  split at hex
  · rename_i v4 v6 n he hs ht
    simp only [Bool.and_eq_true, Bool.not_eq_true'] at hex
    obtain ⟨⟨⟨⟨hw, hqueue⟩, hlatched⟩, hwire⟩, hoff⟩ := hex
    obtain ⟨m, hcore, hdeadline⟩ := s.service.confirm_probe e.now v4 v6 n hs ht
    have hnext : (s.next e).service.core = (s.service.noteTransmitOutcome e.now v4 v6).1.core := by
      simp only [next, served, heeds, serve, he, if_true]
      rfl
    rw [hdeadline.mpr hoff] at hcore
    have hleft := hnext.trans hcore
    have hstate : (s.next e).service.state.inStartup = true :=
      (congrArg (fun c => c.state.inStartup) hleft).trans rfl
    have hstalled := stalled_is_silent (s.next e).service hstate (standing_next s e h.standing)
      (metaHeld_next s e h.enumeration) ((congrArg Core.latched hleft).trans hlatched)
      ((congrArg Core.probeOnWire hleft).trans hwire) (congrArg Core.lifecycleDeadline hleft)
    refine ⟨?_, hstate, ?_, congrArg Core.awaitingConfirm hleft, hstalled.1, ?_⟩
    · simp only [next, hw, he, Bool.or_false]
    · exact (congrArg (fun c => c.pendingTransmits.isEmpty) hleft).trans hqueue
    · intro now flood taken
      rw [hstalled.2 now flood taken]
  · cases hex

theorem exhausted_not_alert (e : Timed I) (h : Kept s)
    (hex : s.exhausts e = true) : ¬(s.next e).Alert := by
  obtain ⟨hw, hs, hqueue, ht, hnone, hok⟩ := exhausted_stalls s e h hex
  intro halert
  cases halert hw hs hqueue ht with
  | inl hsome =>
    rw [hnone] at hsome
    cases hsome
  | inr hoverflow =>
    have hover := hoverflow (s.next e).clock .new ⟨[]⟩ (le_refl _)
    rw [hok] at hover
    cases hover

/-- In a run of a service no startup stalls in silence, if and only if no probe is confirmed where
one is on the wire, nothing else is queued, no conflict is left to spend, and the next instant of
the sequence is off the clock. -/
theorem startup_stalls_at_clocks_end (probe : Bool)
    (ts : List (Transition (Session I R EV) (Timed I))) (s : Session I R EV)
    (run : Run (machine probe) ts s) :
    ((∀ t ∈ ts, t.pre.Alert) ∧ s.Alert) ↔ ∀ t ∈ ts, t.pre.exhausts t.call = false := by
  induction run with
  | start s hstart =>
    have hready := ready_run probe [] s (Run.start s hstart) fun _ ht => absurd ht List.not_mem_nil
    have hseen := (poised_run probe [] s (Run.start s hstart)).seen
    constructor
    · intro _ t ht
      cases ht
    · intro _
      refine ⟨fun t ht => absurd ht List.not_mem_nil, hready.alert s ?_⟩
      obtain ⟨t, ht, -⟩ := hseen
      rw [ht]
      rfl
  | step ts s e run ha ih =>
    have hlast : (machine probe).transition s e ∈ ts ++ [(machine probe).transition s e] :=
      List.mem_append_right _ (List.mem_singleton.mpr rfl)
    constructor
    · rintro ⟨hpast, halert⟩ t ht
      have hbefore := ih.mp ⟨fun t ht => hpast t (List.mem_append_left _ ht), hpast _ hlast⟩
      rcases List.mem_append.mp ht with hold | hnew
      · exact hbefore t hold
      · rw [List.mem_singleton.mp hnew]
        apply Bool.eq_false_iff.mpr
        intro hex
        exact exhausted_not_alert s e (kept_run probe ts s run) hex halert
    · intro hok
      obtain ⟨hpast, halert⟩ := ih.mpr fun t ht => hok t (List.mem_append_left _ ht)
      have hrun := run.step ts s e ha
      refine ⟨?_, ?_⟩
      · intro t ht
        rcases List.mem_append.mp ht with hold | hnew
        · exact hpast t hold
        · rw [List.mem_singleton.mp hnew]
          exact halert
      · obtain ⟨t, ht, -⟩ := (poised_run probe _ _ hrun).seen
        apply (ready_run probe _ _ hrun hok).alert
        rw [ht]
        rfl

def firstProbe (now : Uptime) : List (Timed Uptime) :=
  [timer now, timer now, pollAt now, acceptedAt now]

theorem printer_stays_alert :
    ((machine true).play (printerAt true 0) (firstProbe 0)).Alert := by
  have hrun : Run (machine true) _ _ :=
    (Run.start _ (printerAt_registered true 0)).play _ _ _ (firstProbe 0) (by decide +kernel)
  have hok : ((machine true).trace (printerAt true 0) (firstProbe 0)).all
      (fun t => !t.pre.exhausts t.call) = true := by decide +kernel
  apply ((startup_stalls_at_clocks_end true _ _ hrun).mpr _).2
  intro t ht
  have hat := List.all_eq_true.mp hok t ht
  simpa using hat

/-- At the last instant of its clock the printer has its first probe confirmed. It stands in
`Probing(1)` with nothing queued and nothing in flight, has no deadline, and every timer call
answers `Ok`. -/
theorem printer_stalls_in_silence :
    ∃ (ts : List (Transition (Session Uptime ZeroRng Slab) (Timed Uptime)))
      (s : Session Uptime ZeroRng Slab), Run (machine true) ts s ∧ s.service.state = .probing 1 ∧
        s.withdrawing = false ∧ s.service.pendingTransmits.isEmpty = true ∧
        s.service.awaitingConfirm = none ∧ s.service.pollTimeout = none ∧
        (∀ now flood taken, (s.service.handleTimeout now flood taken).2 = .ok ()) ∧ ¬s.Alert := by
  have hbefore : Run (machine true) _ _ :=
    (Run.start _ (printerAt_registered true 18446744073609551615)).play _ _ _
      [timer 18446744073609551615, timer 18446744073609551615, pollAt 18446744073609551615]
      (by decide +kernel)
  have hkept := kept_run true _ _ hbefore
  generalize hs : (machine true).play (printerAt true 18446744073609551615)
    [timer 18446744073609551615, timer 18446744073609551615, pollAt 18446744073609551615] = s at *
  have hnow : s.admits (acceptedAt 18446744073609551615) ∧
      s.exhausts (acceptedAt 18446744073609551615) = true ∧
      (s.next (acceptedAt 18446744073609551615)).service.state = .probing 1 := by
    rw [← hs]
    decide +kernel
  obtain ⟨hadmits, hex, hstate⟩ := hnow
  obtain ⟨hw, -, hqueue, ht, hnone, hok⟩ := exhausted_stalls s _ hkept hex
  exact ⟨_, _, hbefore.step _ _ _ hadmits, hstate, hw, hqueue, ht, hnone, hok,
    exhausted_not_alert s _ hkept hex⟩

end Session
end Hick
