import Mathlib
import Hick.Service.Withholding

/-!
# The end of the settling window (service/mod.rs:3403-3431, 4937-4951)

A conflict may reach a service at the instant its settling window closes. The driver may hand
over the datagram first or call the timer first; the outcome is the same.
-/

set_option linter.unusedSectionVars false

namespace Hick
open Octets Wire Respond Runs

theorem ServiceState.startup_unpublished (state : ServiceState) (h : state.inStartup = true) :
    state.isPublished = false := by
  cases state <;> first | rfl | cases h

section
variable {I : Type} [Instant I]

structure Core.Startup (c : Core I) : Prop where
  onWire : ∀ n, c.state = .probing n → n ≠ 0 → c.probeOnWire = true
  tokens : c.state.isPublished = false → ∀ kind, c.awaitingConfirm = some kind →
    kind.emitted ≠ none → kind.live = false

theorem Core.Startup.frame (c c' : Core I) (h : c.Startup) (hs : c'.state = c.state)
    (hw : c.probeOnWire = true → c'.probeOnWire = true)
    (ht : ∀ kind, c'.awaitingConfirm = some kind → kind.emitted ≠ none →
      c.awaitingConfirm = some kind ∨ c.state.isPublished = true) : c'.Startup where
  onWire n hn hne := by
    rw [hs] at hn
    exact hw (h.onWire n hn hne)
  tokens hunpub kind hk he := by
    rw [hs] at hunpub
    rcases ht kind hk he with hk | hpub
    · exact h.tokens hunpub kind hk he
    · rw [hunpub] at hpub
      cases hpub

theorem Core.Startup.of_published (c : Core I) (h : c.state.isPublished = true) : c.Startup where
  onWire n hn := by
    rw [hn] at h
    cases h
  tokens hunpub := by
    rw [h] at hunpub
    cases hunpub

theorem Core.Startup.restarted (c : Core I) (now : I) (deadline : Option I)
    (renamedFrom : Option ServiceRecords) : (c.restarted now deadline renamedFrom).Startup where
  onWire n hn := by cases hn
  tokens _ kind hk _ := by
    change c.awaitingConfirm.map (·.demoted renamedFrom) = some kind at hk
    obtain ⟨old, -, rfl⟩ := Option.map_eq_some_iff.mp hk
    exact old.demoted_live renamedFrom

theorem Core.Startup.event (c c' : Core I) (event : ServiceEvent) (now : I) (h : c.Startup)
    (heff : EventEffect c event now c') : c'.Startup := by
  cases heff with
  | quiet => exact h
  | lost hs => exact h.frame c _ rfl id fun _ hk _ => .inl hk
  | defeated hs hw => exact h.frame c _ rfl id fun _ hk _ => .inl hk
  | owed hs legacy hport => exact h.frame c _ rfl id fun _ hk _ => .inl hk
  | asked hs sq he due => exact h.frame c _ rfl id fun _ hk _ => .inl hk
  | known ka he hint hh => exact h.frame c _ rfl id fun _ hk _ => .inl hk
  | restarted hs deadline => exact .restarted c now deadline none

theorem Core.Startup.tickMove (now : I) (flood : ConflictFlood I) (fired : Bool) (c c' : Core I)
    (h : c.Startup) (hmove : TickMove now flood fired c c') : c'.Startup := by
  cases hmove with
  | takeResponse hf => exact h.frame c _ rfl id fun _ hk _ => .inl hk
  | rearm base hp => exact h.frame c _ rfl id fun _ hk _ => .inl hk
  | hold floor hw hs hdue hf => exact h.frame c _ rfl id fun _ hk _ => .inl hk
  | park hw hs hdue => exact h.frame c _ rfl id fun _ hk _ => .inl hk
  | startProbing hs hdue d =>
    refine ⟨fun n hn hne => ?_, fun _ => h.tokens (by rw [hs]; rfl)⟩
    cases hn
    exact absurd rfl hne
  | closeSettling n hs hn hdue d => exact .of_published _ rfl
  | queueProbe n hs hn hdue pending hp d => exact h.frame c _ rfl id fun _ hk _ => .inl hk
  | queueAnnouncement hs hdue pending hp d => exact h.frame c _ rfl id fun _ hk _ => .inl hk
  | queueResponse hf => exact h.frame c _ rfl id fun _ hk _ => .inl hk

theorem Core.Startup.timeout (c c' : Core I) (now : I) (flood : ConflictFlood I) (h : c.Startup)
    (heff : TimeoutEffect c now flood c') : c'.Startup := by
  cases heff with
  | waited hd hl => exact .restarted c now _ none
  | renamed hd name hname deadline =>
    exact (Core.Startup.restarted c now deadline (some c.records)).frame _ _ rfl id
      fun _ hk _ => .inl hk
  | gaveUp hd =>
    refine ⟨nofun, fun _ kind hk _ => ?_⟩
    change c.awaitingConfirm.map (·.demoted (some c.records)) = some kind at hk
    obtain ⟨old, -, rfl⟩ := Option.map_eq_some_iff.mp hk
    exact old.demoted_live (some c.records)
  | ticked hl _ hticks =>
    have hexp : Core.Startup { c with kas := c.kas.expire now } :=
      h.frame c _ rfl id fun _ hk _ => .inl hk
    induction hticks with
    | refl => exact hexp
    | tail _ hmove ih => exact ih.tickMove now flood _ _ _ hmove

theorem Core.Startup.deferred (c c' : Core I) (now : I) (flood : ConflictFlood I) (h : c.Startup)
    (heff : DeferEffect c now flood c') : c'.Startup := by
  cases heff with
  | none => exact h
  | dropped hw hp deadline => exact h.frame c _ rfl id fun _ hk _ => .inl hk

theorem Core.Startup.poll (c c' : Core I) (now : I) (buf : Bytes) (sent : Option Sent)
    (h : c.Startup) (hq : c.HasClaims → c.state.isPublished = true)
    (heff : PollEffect c now buf c' sent) : c'.Startup := by
  cases heff with
  | silent legacy ho => exact h.frame c _ rfl id fun _ hk _ => .inl hk
  | metaReply ht metaName hm msg he =>
    refine h.frame c _ rfl id fun kind hk he => ?_
    cases hk
    exact absurd rfl he
  | legacyReply ht hl legacy rest ho msg token he =>
    refine h.frame c _ rfl id fun _ _ _ => .inr (hq (.inr (.inr ?_)))
    rw [ho]
    exact List.cons_ne_nil _ _
  | probe ht hl legacy ho hp msg he =>
    refine h.frame c _ rfl id fun kind hk he => ?_
    cases hk
    exact absurd rfl he
  | announcement ht hl legacy ho hp msg nsec he =>
    exact h.frame c _ rfl id fun _ _ _ =>
      .inr (hq (.inl ⟨.announcement, Pending.peek_holds _ _ hp, nofun⟩))
  | response ht hl legacy ho hp msg emitted he hne =>
    exact h.frame c _ rfl id fun _ _ _ =>
      .inr (hq (.inl ⟨.response, Pending.peek_holds _ _ hp, nofun⟩))
  | drained ht hl legacy ho hp msg emitted he hne => exact h.frame c _ rfl id fun _ hk _ => .inl hk

theorem Core.Startup.confirm (c c' : Core I) (anchor : I) (delivery : TransmitDelivery)
    (advances : Bool) (kind : AwaitingConfirm) (h : c.Startup)
    (heff : ConfirmEffect { c with awaitingConfirm := none } anchor delivery advances kind c') :
    c'.Startup := by
  have hsame : ∀ c₂ : Core I, c₂.state = c.state → c₂.awaitingConfirm = none →
      (c.probeOnWire = true → c₂.probeOnWire = true) → c₂.Startup := by
    intro c₂ hs ht hw
    refine h.frame c c₂ hs hw fun kind hk _ => ?_
    rw [ht] at hk
    cases hk
  cases heff with
  | metaReply => exact hsame _ rfl rfl id
  | probeElsewhere hs =>
    refine hsame _ rfl rfl fun hw => ?_
    rw [Bool.or_eq_true]
    exact .inl hw
  | probeHeld n hs ha =>
    refine hsame _ rfl rfl fun hw => ?_
    rw [Bool.or_eq_true]
    exact .inl hw
  | probeAdvanced n hs ha hd hn deadline => exact ⟨fun _ _ _ => rfl, fun _ _ hk => by cases hk⟩
  | probeSettled n hs ha hd hn deadline hsettle =>
    exact ⟨fun _ _ _ => rfl, fun _ _ hk => by cases hk⟩
  | announced emitted state deadline hp hkeep hlost =>
    cases hpub : c.state.isPublished with
    | true => exact .of_published _ (hp hpub)
    | false =>
      obtain ⟨rfl, -⟩ := hkeep hpub
      exact hsame _ rfl rfl id
  | responded emitted cls => exact hsame _ rfl rfl id
  | staleEmpty fact => exact hsame _ rfl rfl id
  | staleSame fact emitted cls => exact hsame _ rfl rfl id
  | staleOld fact records emitted cls => exact hsame _ rfl rfl id

end

namespace Service
variable {I R : Type} {EV : Type → Type} [Instant I] [SeedableRng R] [Pool EV]

/-- What only a confirm or a restart changes: whether the name was advertised, what paces the
announcements, and the goodbye of a name given up. -/
def kept (s : Service I R EV) : Bool × Bool × PerFamily FamilyPatience × PerFamily (Option I) ×
    Option RenameGoodbyeHandoff :=
  (s.generationAdvertised, s.reAnnounce, s.partialRounds, s.lastDelivered, s.renameGoodbyeHandoff)

def claimed (s : Service I R EV) : (Bool × Bool × PerFamily FamilyPatience ×
    PerFamily (Option I) × Option RenameGoodbyeHandoff) × ServiceState :=
  (s.kept, s.state)

structure Rewound (s s' : Service I R EV) : Prop where
  unpublished : s'.state.isPublished = false
  fresh : s'.state.inStartup = true → s'.generationAdvertised = false
  reAnnounce : s'.reAnnounce = s.reAnnounce
  anchors : ∀ (f : Family) a, f.pick s'.lastDelivered = some a → f.pick s.lastDelivered = some a
  handoff : ∀ h, s'.renameGoodbyeHandoff = some h →
    s.renameGoodbyeHandoff = some h ∨ h.records = s.records

def noted (updates : EV ServiceUpdate) (update : ServiceUpdate) : EV ServiceUpdate :=
  match Pool.insert updates update with
  | some (_, updates) => updates
  | none => updates

variable (s : Service I R EV)

theorem notify_eq (update : ServiceUpdate) :
    s.notify update = { s with pendingUpdates := noted s.pendingUpdates update } := by
  unfold notify noted
  cases Pool.insert s.pendingUpdates update <;> rfl

theorem notify_claimed (update : ServiceUpdate) :
    (s.notify update).claimed = s.claimed := by
  unfold notify
  split <;> rfl

theorem floodEligible_claimed (datagram : DatagramId) :
    (s.floodEligible datagram).1.claimed = s.claimed := by
  unfold floodEligible
  split
  · split <;> rfl
  · rfl

theorem receive_claimed (event : ServiceEvent) (now : I) :
    (s.receive event now).claimed = s.claimed := by
  unfold receive
  split
  · exact floodEligible_claimed _ _
  · rfl

theorem contestProbed_claimed (pc : ProbeConflict) (now : I)
    (flood : ConflictFlood I) : (s.contestProbed pc now flood).1.claimed = s.claimed := by
  rw [← s.floodEligible_claimed pc.datagram]
  unfold contestProbed handlePreauthoritativeConflict
  dsimp only
  split
  · rfl
  · split <;> rfl

theorem contestProposed_claimed (pp : ProbeProposal) (now : I)
    (flood : ConflictFlood I) : (s.contestProposed pp now flood).1.claimed = s.claimed := by
  unfold contestProposed handleProbeProposal
  cases adjudicate pp s.records <;> rfl

theorem contestPublished_claimed (pc : ProbeConflict) (now : I)
    (flood : ConflictFlood I) :
    (s.contestPublished pc now flood).1 = s ∨
      s.Rewound (s.contestPublished pc now flood).1 := by
  unfold contestPublished
  split
  · exact .inl rfl
  · split
    · exact .inl rfl
    · split
      · exact .inl rfl
      · exact .inr ⟨rfl, fun _ => rfl, rfl, fun _ _ h => h, fun _ h => .inl h⟩

theorem handleQuestion_claimed (sq : ServiceQuestion) (now : I) :
    (s.handleQuestion sq now).claimed = s.claimed := by
  rw [s.handleQuestion_frame sq now]
  rfl

theorem handleKnownAnswer_claimed (ka : KnownAnswer) (now : I) :
    (s.handleKnownAnswer ka now).claimed = s.claimed := by
  unfold handleKnownAnswer
  split
  · unfold handleMetaKnownAnswer
    split
    · split <;> rfl
    · rfl
  · split <;> rfl

theorem handleHostConflict_claimed (hc : HostConflict) (now : I)
    (flood : ConflictFlood I) : (s.handleHostConflict hc now flood).1.claimed = s.claimed := by
  unfold handleHostConflict
  split
  · rfl
  · exact (notify_claimed _ _).trans (s.floodEligible_claimed hc.datagram)

theorem Rewound.of_claimed (s r s' : Service I R EV) (hr : r.claimed = s.claimed)
    (hrecords : r.records = s.records) (h : r.Rewound s') : s.Rewound s' := by
  obtain ⟨hkept, -⟩ := Prod.mk.inj hr
  obtain ⟨-, hkept⟩ := Prod.mk.inj hkept
  obtain ⟨hre, hkept⟩ := Prod.mk.inj hkept
  obtain ⟨-, hkept⟩ := Prod.mk.inj hkept
  obtain ⟨hlast, hhandoff⟩ := Prod.mk.inj hkept
  constructor
  · exact h.unpublished
  · exact h.fresh
  · exact h.reAnnounce.trans hre
  · intro f a ha
    rw [← hlast]
    exact h.anchors f a ha
  · rw [← hhandoff, ← hrecords]
    exact h.handoff

theorem handleEvent_claimed (event : ServiceEvent) (now : I)
    (flood : ConflictFlood I) :
    (s.handleEvent event now flood).1.claimed = s.claimed ∨
      s.Rewound (s.handleEvent event now flood).1 := by
  have hquiet := s.receive_claimed event now
  have hrecords : (s.receive event now).records = s.records :=
    congrArg Core.records (s.receive_core event now)
  unfold handleEvent
  dsimp only
  generalize s.receive event now = r at hquiet hrecords ⊢
  have hdispatch : (r.dispatchEvent event now flood).1.claimed = s.claimed ∨
      s.Rewound (r.dispatchEvent event now flood).1 := by
    refine Or.imp_right (Rewound.of_claimed s r _ hquiet hrecords) ?_
    rw [← hquiet]
    unfold dispatchEvent
    cases event with
    | probeConflict pc =>
      dsimp only
      split
      · exact .inl (r.contestProbed_claimed pc now flood)
      · split
        · rcases r.contestPublished_claimed pc now flood with h | h
          · exact .inl (congrArg claimed h)
          · exact .inr h
        · exact .inl rfl
    | probeProposal pp =>
      dsimp only
      split
      · exact .inl (r.contestProposed_claimed pp now flood)
      · exact .inl rfl
    | question sq =>
      dsimp only
      split
      · exact .inl (r.handleQuestion_claimed sq now)
      · exact .inl rfl
    | knownAnswer ka => exact .inl (r.handleKnownAnswer_claimed ka now)
    | hostConflict hc => exact .inl (r.handleHostConflict_claimed hc now flood)
  split
  · exact .inl hquiet
  · exact .inl hquiet
  · exact .inl hquiet
  · exact hdispatch

theorem tick_kept (now : I) (flood : ConflictFlood I) :
    (s.tick now flood).1.kept = s.kept := by
  have htake : ∀ (s : Service I R EV) fired, (s.takeResponse fired).kept = s.kept := by
    intro s fired
    unfold takeResponse
    split <;> rfl
  have hrearm : ∀ s : Service I R EV, (s.rearmParked now flood).kept = s.kept := by
    intro s
    unfold rearmParked
    split <;> rfl
  have hhold : ∀ s : Service I R EV, (s.holdUnderFlood now flood).1.kept = s.kept := by
    intro s
    unfold holdUnderFlood
    split
    · split
      · split <;> rfl
      · rfl
    · rfl
  have hpush : ∀ (s : Service I R EV) kind, (s.pushLifecyclePending kind).kept = s.kept := by
    intro s kind
    unfold pushLifecyclePending
    split <;> rfl
  have hfire : ∀ s : Service I R EV, (s.fireDue now).kept = s.kept := by
    intro s
    unfold fireDue fireLifecycle
    split
    · split
      · rfl
      · split
        · rfl
        · exact hpush s _
      · exact hpush s _
      · exact hpush s _
      · rfl
    · rfl
  have hqueue : ∀ (s : Service I R EV) fired, (s.queueResponse fired).kept = s.kept := by
    intro s fired
    unfold queueResponse
    split <;> rfl
  unfold tick
  dsimp only
  rw [hqueue, hfire, hhold, hrearm, htake]

theorem takeName_rewinds (name : Name) (now : I) (flood : ConflictFlood I) :
    s.Rewound (s.takeName name now flood).1 := by
  unfold takeName
  dsimp only
  rw [notify_eq]
  refine ⟨rfl, fun _ => rfl, rfl, fun f a ha => ?_, fun _ h => .inl h⟩
  change f.pick (PerFamily.both none) = some a at ha
  rw [Family.pick_both] at ha
  cases ha

theorem giveUpName_rewinds : s.Rewound s.giveUpName := by
  unfold giveUpName
  rw [notify_eq]
  exact ⟨rfl, nofun, rfl, fun _ _ h => h, fun _ h => .inl h⟩

theorem rename_rewinds (now : I) (flood : ConflictFlood I)
    (taken : NamesInUse) : s.Rewound (s.rename now flood taken).1 := by
  have hback : ∀ s', s.handOffInstance.Rewound s' → s.Rewound s' := by
    unfold handOffInstance
    intro s' h
    split at h
    · refine ⟨h.unpublished, h.fresh, h.reAnnounce, h.anchors, fun off hoff => ?_⟩
      rcases h.handoff off hoff with hnew | hrecords
      · cases hnew
        exact .inr rfl
      · exact .inr hrecords
    · exact h
  apply hback
  unfold rename
  dsimp only
  generalize s.handOffInstance = r
  cases chooseName r.records.instanceName taken (taken.len + 1) r.renameAttempt with
  | mk chosen attempt =>
    cases chosen with
    | some name =>
      have h := ({ r with renameAttempt := attempt } : Service I R EV).takeName_rewinds name now flood
      exact ⟨h.unpublished, h.fresh, h.reAnnounce, h.anchors, h.handoff⟩
    | none =>
      have h := ({ r with renameAttempt := attempt } : Service I R EV).giveUpName_rewinds
      exact ⟨h.unpublished, h.fresh, h.reAnnounce, h.anchors, h.handoff⟩

theorem handleTimeout_kept (now : I) (flood : ConflictFlood I)
    (taken : NamesInUse) :
    s.Rewound (s.handleTimeout now flood taken).1 ∨
      (s.core.latched = false ∧ (s.handleTimeout now flood taken).1.kept = s.kept) := by
  unfold handleTimeout
  dsimp only
  by_cases hl : s.core.latched = true
  · have hl' : ({ s with
        lastNow := some now
        kas := s.kas.expire now } : Service I R EV).conflictClassifiedUnresolved = true := hl
    rw [if_pos hl']
    refine .inl ?_
    unfold spendConflict
    dsimp only
    split
    · have h := ({ s with
        lastNow := some now
        kas := s.kas.expire now
        probeDefeated := false
        tiebreakLost := false } : Service I R EV).rename_rewinds now flood taken
      exact ⟨h.unpublished, h.fresh, h.reAnnounce, h.anchors, h.handoff⟩
    · exact ⟨rfl, fun _ => rfl, rfl, fun _ _ h => h, fun _ h => .inl h⟩
  · have hl' : ¬({ s with
        lastNow := some now
        kas := s.kas.expire now } : Service I R EV).conflictClassifiedUnresolved = true := hl
    rw [if_neg hl']
    exact .inr ⟨Bool.eq_false_iff.mpr hl, tick_kept _ now flood⟩

theorem pollDeferred_kept (now : I) (flood : ConflictFlood I)
    (buf : Bytes) : (s.pollDeferred now flood buf).1.kept = s.kept := by
  have hdefer : (s.deferFirstProbeUnderFlood now flood).kept = s.kept := by
    unfold deferFirstProbeUnderFlood
    split
    · rfl
    · split
      · split <;> rfl
      · rfl
  unfold pollDeferred
  rw [← hdefer]
  generalize s.deferFirstProbeUnderFlood now flood = r
  unfold pollTransmit
  split
  · rfl
  · have hmeta : (r.pollMeta now buf).1.kept = r.kept := by
      unfold pollMeta
      split
      · rfl
      · dsimp only
        split
        · rfl
        · split
          · rfl
          · split
            · rfl
            · split <;> rfl
    have hlegacy : ∀ r : Service I R EV, (r.pollLegacy buf).1.kept = r.kept := by
      intro r
      unfold pollLegacy
      split
      · rfl
      · split
        · rfl
        · dsimp only
          split <;> rfl
    have hqueue : ∀ r : Service I R EV, (r.pollQueue now buf).1.kept = r.kept := by
      intro r
      unfold pollQueue
      dsimp only
      split
      · rfl
      · split
        · rfl
        · split
          · split <;> rfl
          · split <;> rfl
          · split
            · rfl
            · split <;> rfl
    cases hm : r.pollMeta now buf with
    | mk r₁ sent₁ =>
      rw [hm] at hmeta
      cases sent₁ with
      | some sent => exact hmeta
      | none =>
        cases hl : r₁.pollLegacy buf with
        | mk r₂ sent₂ =>
          have hl' := hlegacy r₁
          rw [hl] at hl'
          dsimp only
          rw [hl]
          cases sent₂ with
          | some sent => exact hl'.trans hmeta
          | none => exact (hqueue r₂).trans (hl'.trans hmeta)

theorem poll_claimed : s.poll.1.claimed = s.claimed := by
  unfold poll
  split
  · rfl
  · split <;> rfl

theorem enterSettling_advertised (now : I) (advance : PhaseAdvance) :
    (s.enterSettling now advance).generationAdvertised = s.generationAdvertised := by
  have hladder : ∀ s : Service I R EV,
      (s.armOnPartialLadder now).generationAdvertised = s.generationAdvertised := by
    intro s
    unfold armOnPartialLadder
    split <;> rfl
  have hadvance : ∀ s : Service I R EV, (if advance = .delivered then
      { s with partialAnnounceStreak := 0 } else s.armOnPartialLadder now).generationAdvertised =
        s.generationAdvertised := by
    intro s
    split
    · rfl
    · exact hladder s
  unfold enterSettling
  dsimp only
  split
  · exact hadvance _
  · exact hadvance _

theorem noteTransmitOutcome_advertised (now : I) (v4 v6 : FamilyAttempt I)
    (h : ∀ kind, s.awaitingConfirm = some kind → kind.emitted ≠ none → kind.live = false) :
    (s.noteTransmitOutcome now v4 v6).1.generationAdvertised = s.generationAdvertised := by
  unfold noteTransmitOutcome
  cases hk : s.awaitingConfirm with
  | none => rfl
  | some kind =>
    dsimp only
    have hlive := h kind hk
    cases kind with
    | probe =>
      unfold settleConfirm settleProbe
      dsimp only
      split
      · unfold advanceProbe
        dsimp only
        split
        · rfl
        · split
          · exact enterSettling_advertised _ _ _
          · rfl
      · rfl
    | announcement e => exact absurd (hlive nofun) nofun
    | response e cls => exact absurd (hlive nofun) nofun
    | metaResponse => rfl
    | stale fact records =>
      unfold settleConfirm settleStale
      dsimp only
      split
      · rfl
      · split
        · rfl
        · rfl
        · split
          · rfl
          · unfold addToHandoff
            split <;> rfl

end Service

namespace Session
variable {I R : Type} {EV : Type → Type} [Instant I] [SeedableRng R] [Pool EV]

structure Unannounced (s : Session I R EV) : Prop where
  startup : s.service.core.Startup
  fresh : s.service.state.inStartup = true → s.service.generationAdvertised = false

theorem unannounced_start (probe : Bool) (s : Session I R EV) (h : Registered probe s) :
    Unannounced s := by
  obtain ⟨records, now, seed, reAnnounce, flood, hreg, rfl⟩ := h
  refine ⟨⟨fun n hn _ => ?_, fun _ kind hk => absurd hk.symm (Option.some_ne_none kind)⟩,
    fun _ => rfl⟩
  cases probe with
  | true => cases hn
  | false => cases hn

theorem startup_step (g : Trail) (s : Session I R EV) (e : Timed I) (ht : Tracked g s)
    (h : s.service.core.Startup) : (s.next e).service.core.Startup := by
  have heff := s.next_effect e
  generalize (s.next e).service.core = c' at heff ⊢
  cases heff with
  | idle hsent hconfirm htimeout => exact h
  | event event flood he hw _ heff => exact h.event _ c' event e.now heff
  | timeout flood taken he hw _ heff => exact h.timeout _ c' e.now flood heff
  | poll flood buf he hw c₁ _ sent hdefer heff hsent =>
    have hd := (ht.standing.deferred _ c₁ e.now flood hdefer).1
    exact (h.deferred _ c₁ e.now flood hdefer).poll c₁ c' e.now buf sent hd.queued heff
  | confirm v4 v6 he kind hk _ heff => exact h.confirm _ c' _ _ _ kind heff
  | withdraw he hw => exact h.frame _ _ rfl id fun _ hk _ => .inl hk

theorem confirm_keeps_startup (c c' : Core I) (anchor : I) (delivery : TransmitDelivery)
    (advances : Bool) (kind : AwaitingConfirm)
    (heff : ConfirmEffect c anchor delivery advances kind c') (h : c'.state.inStartup = true) :
    c.state.inStartup = true := by
  cases heff with
  | metaReply => exact h
  | probeElsewhere hs => exact h
  | probeHeld n hs ha => exact h
  | probeAdvanced n hs ha hd hn deadline =>
    rw [hs]
    rfl
  | probeSettled n hs ha hd hn deadline hsettle =>
    rw [hs]
    rfl
  | announced emitted state deadline hp hkeep hlost =>
    cases hpub : c.state.isPublished with
    | true =>
      have hstart : state.inStartup = false := state.published_not_startup (hp hpub)
      exact absurd (hstart.symm.trans h) nofun
    | false =>
      rw [(hkeep hpub).1] at h
      exact h
  | responded emitted cls => exact h
  | staleEmpty fact => exact h
  | staleSame fact emitted cls => exact h
  | staleOld fact records emitted cls => exact h

theorem Ticked.inStartup (pre post : ServiceState) (h : Ticked pre post)
    (hs : post.inStartup = true) : pre.inStartup = true := by
  cases post with
  | init =>
    rw [h.init rfl]
    rfl
  | probing m =>
    rcases h.probing m rfl with rfl | rfl
    · rfl
    · rfl
  | announcing n => cases hs
  | established => cases hs
  | conflicting => cases hs

theorem serve_fresh (g : Trail) (s : Session I R EV) (now : I) (call : Call I) (ht : Tracked g s)
    (h : Unannounced s) (hstart : (serve s.service now call).state.inStartup = true) :
    (serve s.service now call).generationAdvertised = false := by
  have hsame : ∀ s' : Service I R EV, s'.generationAdvertised = s.service.generationAdvertised →
      s.service.state.inStartup = true → s'.generationAdvertised = false := by
    intro s' hs' hin
    exact hs'.trans (h.fresh hin)
  cases call with
  | event event flood =>
    rcases s.service.handleEvent_claimed event now flood with heq | hback
    · obtain ⟨hkept, hstate⟩ := Prod.mk.inj heq
      refine hsame _ (congrArg Prod.fst hkept) ?_
      rw [← hstate]
      exact hstart
    · exact hback.fresh hstart
  | timeout flood taken =>
    rcases s.service.handleTimeout_kept now flood taken with hback | ⟨hl, hkept⟩
    · exact hback.fresh hstart
    · refine hsame _ (congrArg Prod.fst hkept) ?_
      have heff := s.service.handleTimeout_effect now flood taken
      change (s.service.handleTimeout now flood taken).1.core.state.inStartup = true at hstart
      generalize (s.service.handleTimeout now flood taken).1.core = c' at heff hstart
      cases heff with
      | waited hd hlost =>
        rw [Core.latched, hlost, Bool.or_true] at hl
        cases hl
      | renamed hd name hname deadline =>
        rw [Core.latched, hd, Bool.true_or] at hl
        cases hl
      | gaveUp hd =>
        rw [Core.latched, hd, Bool.true_or] at hl
        cases hl
      | ticked _ _ hticks =>
        have hexp : Core.Standing { s.service.core with kas := s.service.core.kas.expire now } :=
          ht.standing.frame _ _ rfl ht.standing.queued (fun _ => id) (fun _ hk _ => hk) rfl
            fun _ hs => ⟨hs, rfl⟩
        obtain ⟨-, hticked, -, -⟩ := hexp.ticks _ c' now flood _ (ht.standing.fired _ now) hticks
        exact Ticked.inStartup _ _ hticked hstart
  | poll flood buf =>
    refine hsame _ (congrArg Prod.fst (s.service.pollDeferred_kept now flood buf)) ?_
    obtain ⟨hstand, -, hstate, -⟩ := ht.standing.deferred _ _ now flood
      (s.service.deferFirstProbe_effect now flood)
    obtain ⟨-, -, hstate'⟩ := hstand.poll _ _ now buf _
      ((s.service.deferFirstProbeUnderFlood now flood).pollTransmit_effect now buf)
    change s.service.core.state.inStartup = true
    rw [← hstate, ← hstate']
    exact hstart
  | outcome v4 v6 =>
    have hback : s.service.state.inStartup = true := by
      rcases s.service.noteTransmitOutcome_effect now v4 v6 with ⟨-, heq⟩ | ⟨kind, -, heff⟩
      · change (s.service.noteTransmitOutcome now v4 v6).1.state.inStartup = true at hstart
        rw [heq] at hstart
        exact hstart
      · exact confirm_keeps_startup _ _ _ _ _ kind heff hstart
    exact hsame _ (s.service.noteTransmitOutcome_advertised now v4 v6
      (h.startup.tokens (s.service.state.startup_unpublished hback))) hback
  | update =>
    obtain ⟨hkept, hstate⟩ := Prod.mk.inj s.service.poll_claimed
    refine hsame _ (congrArg Prod.fst hkept) ?_
    rw [← hstate]
    exact hstart
  | withdraw => exact hsame _ rfl hstart

theorem unannounced_step (g : Trail) (s : Session I R EV) (e : Timed I) (ht : Tracked g s)
    (h : Unannounced s) : Unannounced (s.next e) := by
  refine ⟨startup_step g s e ht h.startup, fun hstart => ?_⟩
  change (s.served e).state.inStartup = true at hstart
  change (s.served e).generationAdvertised = false
  unfold served at hstart ⊢
  by_cases hheeds : s.heeds e.call = true
  · rw [if_pos hheeds] at hstart ⊢
    exact serve_fresh g s e.now e.call ht h hstart
  · rw [if_neg hheeds] at hstart ⊢
    exact h.fresh hstart

theorem unannounced_run (probe : Bool) (ts : List (Transition (Session I R EV) (Timed I)))
    (s : Session I R EV) (run : Run (machine probe) ts s) : Unannounced s := by
  have h := run.invariant (machine probe) noteTrail ⟨0, 0, none⟩
    (fun g s => Tracked g s ∧ Unannounced s) (fun _ => True)
    (fun s hs => ⟨tracked_start probe s hs, unannounced_start probe s hs⟩)
    (fun g s e ⟨ht, hu⟩ _ _ => ⟨tracked_step g s e ht, unannounced_step g s e ht hu⟩)
    ts s fun _ _ => trivial
  exact h.2

end Session

def defeats (records : ServiceRecords) (event : ServiceEvent) : Bool :=
  match event with
  | .probeConflict pc => classifyEvent records event == .different && pc.history == .unmatched
  | _ => false

/-- A proposal that wins the tiebreak, or a response with records the host gave up itself. -/
def outranks (records : ServiceRecords) (event : ServiceEvent) : Bool :=
  match event with
  | .probeConflict pc => classifyEvent records event == .different && pc.history == .relinquished
  | .probeProposal pp => match adjudicate pp records with
    | .peerWins => true
    | .weHold | .abandoned _ => false
  | _ => false

namespace Service
variable {I R : Type} {EV : Type → Type} [Instant I] [SeedableRng R] [Pool EV]

def phaseless (s : Service I R EV) : Service I R EV :=
  { s with
    state := .init
    lifecycleDeadline := none
    responseDeadline := none
    pendingTransmits := .empty
    kas := .empty
    lastNow := none }

def timersAt (s : Service I R EV) (now : I) (calls : List (ConflictFlood I × NamesInUse)) :
    Service I R EV :=
  calls.foldl (fun s call => (s.handleTimeout now call.1 call.2).1) s

variable (s : Service I R EV) (event : ServiceEvent) (now : I) (flood : ConflictFlood I)
  (taken : NamesInUse)

theorem handleTimeout_phaseless (h : s.conflictClassifiedUnresolved = true) :
    s.handleTimeout now flood taken = s.phaseless.handleTimeout now flood taken := by
  have hleft : ({ s with
      lastNow := some now
      kas := s.kas.expire now } : Service I R EV).conflictClassifiedUnresolved = true := h
  have hright : ({ s.phaseless with
      lastNow := some now
      kas := s.phaseless.kas.expire now } : Service I R EV).conflictClassifiedUnresolved = true := h
  unfold handleTimeout
  dsimp only
  rw [if_pos hleft, if_pos hright]
  unfold spendConflict
  dsimp only
  have hdefeated : s.phaseless.probeDefeated = s.probeDefeated := rfl
  rw [hdefeated]
  cases hd : s.probeDefeated with
  | false => rfl
  | true =>
    rw [if_pos rfl, if_pos rfl]
    unfold rename handOffInstance
    dsimp only
    have hgoodbye : s.phaseless.goodbye = s.goodbye := rfl
    have hrecords : s.phaseless.records = s.records := rfl
    have hattempt : s.phaseless.renameAttempt = s.renameAttempt := rfl
    rw [hgoodbye]
    cases s.goodbye.anyInstance || anyFamily s.goodbye.all.nsec with
    | true | false =>
      simp only [if_true, Bool.false_eq_true, if_false, hrecords, hattempt]
      cases chooseName s.records.instanceName taken (taken.len + 1) s.renameAttempt with
      | mk chosen attempt =>
        cases chosen with
        | some name => rfl
        | none =>
          dsimp only
          unfold giveUpName
          rw [notify_eq, notify_eq]
          rfl

theorem floodEligible_phaseless (datagram : DatagramId) :
    (s.floodEligible datagram).1.phaseless = (s.phaseless.floodEligible datagram).1 ∧
      (s.floodEligible datagram).2 = (s.phaseless.floodEligible datagram).2 := by
  have hseen : s.phaseless.floodEligibility = s.floodEligibility := rfl
  have hwire : s.phaseless.probeOnWire = s.probeOnWire := rfl
  unfold floodEligible
  rw [hseen, hwire]
  cases s.floodEligibility with
  | none => exact ⟨rfl, rfl⟩
  | some entry =>
    dsimp only
    split <;> exact ⟨rfl, rfl⟩

theorem receive_phaseless :
    (s.receive event now).phaseless = (s.phaseless.receive event now).phaseless := by
  unfold receive
  split
  · rename_i datagram hd
    have hleft := (({ s with lastNow := some now } : Service I R EV).floodEligible_phaseless
      datagram).1
    have hright := (({ s.phaseless with lastNow := some now } : Service I R EV).floodEligible_phaseless
      datagram).1
    exact hleft.trans hright.symm
  · rfl

theorem contestProbed_phaseless (pc : ProbeConflict) (now : I)
    (flood : ConflictFlood I) :
    (s.contestProbed pc now flood).1.phaseless = (s.phaseless.contestProbed pc now flood).1 ∧
      (s.contestProbed pc now flood).2 = (s.phaseless.contestProbed pc now flood).2 := by
  obtain ⟨hservice, heligible⟩ := s.floodEligible_phaseless pc.datagram
  have hlatch : ∀ r : Service I R EV, (r.handlePreauthoritativeConflict pc).phaseless =
      r.phaseless.handlePreauthoritativeConflict pc := by
    intro r
    have hwire : r.phaseless.probeOnWire = r.probeOnWire := rfl
    unfold handlePreauthoritativeConflict
    rw [hwire]
    split
    · rfl
    · cases pc.history <;> rfl
  have hrecords : (s.floodEligible pc.datagram).1.records =
      (s.phaseless.floodEligible pc.datagram).1.records := by
    rw [← hservice]
    rfl
  unfold contestProbed
  dsimp only
  rw [← heligible, ← hrecords, ← hservice]
  exact ⟨hlatch _, rfl⟩

theorem contestProposed_phaseless (pp : ProbeProposal) (now : I)
    (flood : ConflictFlood I) :
    (s.contestProposed pp now flood).1.phaseless = (s.phaseless.contestProposed pp now flood).1 ∧
      (s.contestProposed pp now flood).2 = (s.phaseless.contestProposed pp now flood).2 := by
  have hrecords : s.phaseless.records = s.records := rfl
  unfold contestProposed handleProbeProposal
  rw [hrecords]
  cases adjudicate pp s.records <;> exact ⟨rfl, rfl⟩

theorem receive_preauthoritative :
    (s.receive event now).isPreauthoritative = s.isPreauthoritative := by
  obtain ⟨hkept, hstate⟩ := Prod.mk.inj (s.receive_claimed event now)
  have hadv : (s.receive event now).generationAdvertised = s.generationAdvertised :=
    congrArg Prod.fst hkept
  have htoken : (s.receive event now).awaitingConfirm = s.awaitingConfirm :=
    congrArg Core.awaitingConfirm (s.receive_core event now)
  unfold isPreauthoritative
  rw [hadv, hstate, htoken]

theorem handleEvent_contested (hpre : s.isPreauthoritative = true)
    (hev : defeats s.records event = true ∨ outranks s.records event = true) :
    (∃ pc, event = .probeConflict pc ∧ s.handleEvent event now flood =
        (s.receive event now).contestProbed pc now flood) ∨
      ∃ pp, event = .probeProposal pp ∧ s.handleEvent event now flood =
        (s.receive event now).contestProposed pp now flood := by
  have hrecords : (s.receive event now).records = s.records :=
    congrArg Core.records (s.receive_core event now)
  have hpre' : (s.receive event now).isPreauthoritative = true := by
    rw [receive_preauthoritative]
    exact hpre
  cases event with
  | probeConflict pc =>
    have hclass : classifyEvent s.records (.probeConflict pc) = .different := by
      rcases hev with h | h
      · exact beq_iff_eq.mp (Bool.and_eq_true_iff.mp h).1
      · exact beq_iff_eq.mp (Bool.and_eq_true_iff.mp h).1
    refine .inl ⟨pc, rfl, ?_⟩
    unfold handleEvent
    dsimp only
    rw [hrecords, hclass]
    exact if_pos hpre'
  | probeProposal pp =>
    refine .inr ⟨pp, rfl, ?_⟩
    unfold handleEvent
    dsimp only
    rw [hrecords]
    exact if_pos hpre'
  | question sq => rcases hev with h | h <;> cases h
  | knownAnswer ka => rcases hev with h | h <;> cases h
  | hostConflict hc => rcases hev with h | h <;> cases h

theorem handleEvent_phaseless (s t : Service I R EV) (event : ServiceEvent) (now : I)
    (flood : ConflictFlood I) (hs : s.isPreauthoritative = true) (ht : t.isPreauthoritative = true)
    (hsame : s.phaseless = t.phaseless)
    (hev : defeats s.records event = true ∨ outranks s.records event = true) :
    (s.handleEvent event now flood).1.phaseless = (t.handleEvent event now flood).1.phaseless ∧
      (s.handleEvent event now flood).2 = (t.handleEvent event now flood).2 := by
  have hrecords : s.records = t.records :=
    show s.phaseless.records = t.phaseless.records by rw [hsame]
  have hreceived : (s.receive event now).phaseless = (t.receive event now).phaseless := by
    rw [s.receive_phaseless, t.receive_phaseless, hsame]
  have hev' := hev
  rw [hrecords] at hev'
  rcases s.handleEvent_contested event now flood hs hev with ⟨pc, rfl, hleft⟩ | ⟨pp, rfl, hleft⟩
  · rcases t.handleEvent_contested _ now flood ht hev' with ⟨pc', heq, hright⟩ | ⟨pp, heq, -⟩
    · cases heq
      rw [hleft, hright]
      obtain ⟨hl, hlf⟩ := (s.receive (.probeConflict pc) now).contestProbed_phaseless pc now flood
      obtain ⟨hr, hrf⟩ := (t.receive (.probeConflict pc) now).contestProbed_phaseless pc now flood
      rw [hl, hr, hlf, hrf, hreceived]
      exact ⟨rfl, rfl⟩
    · cases heq
  · rcases t.handleEvent_contested _ now flood ht hev' with ⟨pc, heq, -⟩ | ⟨pp', heq, hright⟩
    · cases heq
    · cases heq
      rw [hleft, hright]
      obtain ⟨hl, hlf⟩ := (s.receive (.probeProposal pp) now).contestProposed_phaseless pp now flood
      obtain ⟨hr, hrf⟩ := (t.receive (.probeProposal pp) now).contestProposed_phaseless pp now flood
      rw [hl, hr, hlf, hrf, hreceived]
      exact ⟨rfl, rfl⟩

theorem handleEvent_latches (hpre : s.isPreauthoritative = true) (hwire : s.probeOnWire = true) :
    (defeats s.records event = true →
        (s.handleEvent event now flood).1.probeDefeated = true) ∧
      (outranks s.records event = true →
        (s.handleEvent event now flood).1.tiebreakLost = true ∧
          (s.handleEvent event now flood).1.probeDefeated = s.probeDefeated) := by
  have hcore := s.receive_core event now
  have hwire' : (s.receive event now).probeOnWire = true :=
    (congrArg Core.probeOnWire hcore).trans hwire
  have hdefeated : (s.receive event now).probeDefeated = s.probeDefeated :=
    congrArg Core.probeDefeated hcore
  have hrecords : (s.receive event now).records = s.records := congrArg Core.records hcore
  have hconflict : ∀ pc, event = .probeConflict pc →
      s.handleEvent event now flood = (s.receive event now).contestProbed pc now flood →
      (s.handleEvent event now flood).1 =
        ((s.receive event now).floodEligible pc.datagram).1.handlePreauthoritativeConflict pc := by
    rintro pc - h
    rw [h]
    rfl
  have hwireF : ∀ d, ((s.receive event now).floodEligible d).1.probeOnWire = true := by
    intro d
    exact (congrArg Core.probeOnWire ((s.receive event now).floodEligible_core d)).trans hwire'
  have hdefF : ∀ d, ((s.receive event now).floodEligible d).1.probeDefeated = s.probeDefeated := by
    intro d
    exact (congrArg Core.probeDefeated ((s.receive event now).floodEligible_core d)).trans hdefeated
  constructor
  · intro h
    rcases s.handleEvent_contested event now flood hpre (.inl h) with ⟨pc, he, hout⟩ | ⟨pp, he, -⟩
    · rw [hconflict pc he hout]
      rw [he] at h
      have hhist : pc.history = .unmatched := beq_iff_eq.mp (Bool.and_eq_true_iff.mp h).2
      unfold handlePreauthoritativeConflict
      rw [hwireF, hhist]
      rfl
    · rw [he] at h
      cases h
  · intro h
    rcases s.handleEvent_contested event now flood hpre (.inr h) with ⟨pc, he, hout⟩ | ⟨pp, he, hout⟩
    · rw [hconflict pc he hout]
      rw [he] at h
      have hhist : pc.history = .relinquished := beq_iff_eq.mp (Bool.and_eq_true_iff.mp h).2
      unfold handlePreauthoritativeConflict
      rw [hwireF, hhist]
      exact ⟨rfl, hdefF _⟩
    · rw [hout]
      rw [he] at h
      unfold contestProposed handleProbeProposal
      rw [hrecords]
      unfold outranks at h
      cases hadj : adjudicate pp s.records with
      | peerWins => exact ⟨rfl, hdefeated⟩
      | weHold =>
        simp only [hadj] at h
        cases h
      | abandoned _ =>
        simp only [hadj] at h
        cases h

theorem handleEvent_keeps_names (hpre : s.isPreauthoritative = true)
    (hev : defeats s.records event = true ∨ outranks s.records event = true) :
    (s.handleEvent event now flood).1.records = s.records ∧
      (s.handleEvent event now flood).1.renameAttempt = s.renameAttempt := by
  have hflood : ∀ (s : Service I R EV) datagram, (s.floodEligible datagram).1.records = s.records ∧
      (s.floodEligible datagram).1.renameAttempt = s.renameAttempt := by
    intro s datagram
    unfold floodEligible
    split
    · split <;> exact ⟨rfl, rfl⟩
    · exact ⟨rfl, rfl⟩
  have hreceive : (s.receive event now).records = s.records ∧
      (s.receive event now).renameAttempt = s.renameAttempt := by
    unfold receive
    split
    · exact hflood _ _
    · exact ⟨rfl, rfl⟩
  rw [← hreceive.1, ← hreceive.2]
  rcases s.handleEvent_contested event now flood hpre hev with ⟨pc, -, h⟩ | ⟨pp, -, h⟩
  · rw [h, ← (hflood (s.receive event now) pc.datagram).1,
      ← (hflood (s.receive event now) pc.datagram).2]
    unfold contestProbed handlePreauthoritativeConflict
    dsimp only
    split
    · exact ⟨rfl, rfl⟩
    · split <;> exact ⟨rfl, rfl⟩
  · rw [h]
    unfold contestProposed handleProbeProposal
    cases adjudicate pp (s.receive event now).records <;> exact ⟨rfl, rfl⟩

theorem queueResponse_phaseless (fired : Bool) :
    (s.queueResponse fired).phaseless = s.phaseless ∧ (s.queueResponse fired).state = s.state := by
  unfold queueResponse
  split <;> exact ⟨rfl, rfl⟩

theorem takeResponse_phaseless (fired : Bool) :
    (s.takeResponse fired).phaseless = s.phaseless ∧ (s.takeResponse fired).state = s.state ∧
      (s.takeResponse fired).lifecycleDeadline = s.lifecycleDeadline := by
  unfold takeResponse
  split <;> exact ⟨rfl, rfl, rfl⟩

theorem tick_fires (hparked : s.startupParked = false)
    (hheld : (!s.probeOnWire && s.state.inStartup) = false) :
    (s.tick now flood).1 = ((s.takeResponse (due s.responseDeadline now)).fireDue now).queueResponse
      (due s.responseDeadline now) := by
  have hrearm : (s.takeResponse (due s.responseDeadline now)).rearmParked now flood =
      s.takeResponse (due s.responseDeadline now) := by
    unfold rearmParked
    rw [if_neg]
    have hsame : (s.takeResponse (due s.responseDeadline now)).startupParked = s.startupParked := by
      unfold takeResponse
      split <;> rfl
    rw [hsame, hparked]
    exact Bool.false_ne_true
  have hhold : (s.takeResponse (due s.responseDeadline now)).holdUnderFlood now flood =
      (s.takeResponse (due s.responseDeadline now), false) := by
    unfold holdUnderFlood
    rw [if_neg]
    have hsame : (!(s.takeResponse (due s.responseDeadline now)).probeOnWire &&
        (s.takeResponse (due s.responseDeadline now)).state.inStartup) = false := by
      unfold takeResponse
      split <;> exact hheld
    rw [hsame, Bool.false_and, Bool.false_and]
    exact Bool.false_ne_true
  unfold tick
  dsimp only
  rw [hrearm, hhold]

theorem handleTimeout_fires (now : I) (flood : ConflictFlood I) (taken : NamesInUse)
    (hl : s.conflictClassifiedUnresolved = false) (hparked : s.startupParked = false)
    (hheld : (!s.probeOnWire && s.state.inStartup) = false) :
    ∃ r : Service I R EV, r.phaseless = s.phaseless ∧ r.state = s.state ∧
      r.lifecycleDeadline = s.lifecycleDeadline ∧
      (s.handleTimeout now flood taken).1.state = (r.fireDue now).state ∧
        (s.handleTimeout now flood taken).1.phaseless = (r.fireDue now).phaseless := by
  let woken : Service I R EV := { s with
    lastNow := some now
    kas := s.kas.expire now }
  have hidle : ¬woken.conflictClassifiedUnresolved = true := fun h => by
    rw [show s.conflictClassifiedUnresolved = true from h] at hl
    cases hl
  obtain ⟨htake, hstate, hdeadline⟩ := woken.takeResponse_phaseless (due s.responseDeadline now)
  have htick : (s.handleTimeout now flood taken).1 =
      ((woken.takeResponse (due s.responseDeadline now)).fireDue now).queueResponse
        (due s.responseDeadline now) := by
    rw [← woken.tick_fires now flood hparked hheld]
    exact congrArg Prod.fst (if_neg hidle)
  obtain ⟨hqueue, hphase⟩ := ((woken.takeResponse (due s.responseDeadline now)).fireDue
    now).queueResponse_phaseless (due s.responseDeadline now)
  rw [htick]
  exact ⟨_, htake, hstate, hdeadline, hphase, hqueue⟩

theorem handleTimeout_closes (n : UInt8) (now : I) (flood : ConflictFlood I)
    (taken : NamesInUse) (hs : s.state = .probing n) (hn : 3 ≤ n)
    (hdue : due s.lifecycleDeadline now = true) (hwire : s.probeOnWire = true)
    (hl : s.conflictClassifiedUnresolved = false) :
    (s.handleTimeout now flood taken).1.state = .announcing 0 ∧
      (s.handleTimeout now flood taken).1.phaseless = s.phaseless := by
  have hparked : s.startupParked = false := by
    cases hd : s.lifecycleDeadline with
    | none =>
      rw [hd] at hdue
      cases hdue
    | some d =>
      unfold startupParked
      rw [hd]
      rfl
  have hheld : (!s.probeOnWire && s.state.inStartup) = false := by
    rw [hwire]
    rfl
  obtain ⟨r, htake, hstate, hdeadline, hqueue, hphase⟩ :=
    s.handleTimeout_fires now flood taken hl hparked hheld
  have hfire : r.fireDue now =
      { r with
        state := .announcing 0
        lifecycleDeadline := announceDeadline now 0 } := by
    unfold fireDue
    rw [hdeadline, if_pos hdue]
    unfold fireLifecycle
    rw [hstate, hs]
    exact if_pos hn
  rw [hqueue, hphase, hfire]
  exact ⟨rfl, htake⟩

theorem handleTimeout_announces (n : UInt8) (now : I)
    (flood : ConflictFlood I) (taken : NamesInUse) (hs : s.state = .announcing n)
    (hl : s.conflictClassifiedUnresolved = false) :
    (s.handleTimeout now flood taken).1.state = .announcing n ∧
      (s.handleTimeout now flood taken).1.phaseless = s.phaseless := by
  have hinStartup : s.state.inStartup = false := by
    rw [hs]
    rfl
  have hparked : s.startupParked = false := by
    unfold startupParked
    rw [hinStartup, Bool.and_false]
  have hheld : (!s.probeOnWire && s.state.inStartup) = false := by
    rw [hinStartup, Bool.and_false]
  obtain ⟨r, htake, hstate, -, hqueue, hphase⟩ :=
    s.handleTimeout_fires now flood taken hl hparked hheld
  rw [hqueue, hphase]
  have hannouncing : r.state = .announcing n := hstate.trans hs
  unfold fireDue
  split
  · unfold fireLifecycle
    rw [hannouncing]
    refine ⟨?_, ?_⟩
    · change (r.pushLifecyclePending .announcement).state = .announcing n
      unfold pushLifecyclePending
      split <;> exact hannouncing
    · refine Eq.trans ?_ htake
      change (r.pushLifecyclePending .announcement).phaseless = r.phaseless
      unfold pushLifecyclePending
      split <;> rfl
  · exact ⟨hannouncing, htake⟩

theorem timersAt_announcing (calls : List (ConflictFlood I × NamesInUse))
    (hs : s.state = .announcing 0)
    (hl : s.conflictClassifiedUnresolved = false) :
    (s.timersAt now calls).state = .announcing 0 ∧
      (s.timersAt now calls).phaseless = s.phaseless := by
  induction calls generalizing s with
  | nil => exact ⟨hs, rfl⟩
  | cons call calls ih =>
    obtain ⟨hstate, hsame⟩ := s.handleTimeout_announces 0 now call.1 call.2 hs hl
    have hl' : (s.handleTimeout now call.1 call.2).1.conflictClassifiedUnresolved = false := by
      change (s.handleTimeout now call.1 call.2).1.phaseless.conflictClassifiedUnresolved = false
      rw [hsame]
      exact hl
    obtain ⟨hstate', hsame'⟩ := ih _ hstate hl'
    exact ⟨hstate', hsame'.trans hsame⟩

theorem handleTimeout_lost (hd : s.probeDefeated = false) (hl : s.tiebreakLost = true) :
    (s.handleTimeout now flood taken).1.state = .init ∧
      (s.handleTimeout now flood taken).1.records = s.records ∧
      (s.handleTimeout now flood taken).1.lifecycleDeadline =
        underFlood now now (checkedAddDuration now tiebreakDeferWait) flood := by
  have hlatched : ({ s with
      lastNow := some now
      kas := s.kas.expire now } : Service I R EV).conflictClassifiedUnresolved = true :=
    show (s.probeDefeated || s.tiebreakLost) = true by rw [hl, Bool.or_true]
  unfold handleTimeout
  dsimp only
  rw [if_pos hlatched]
  unfold spendConflict
  dsimp only
  rw [hd]
  exact ⟨rfl, rfl, rfl⟩

theorem handleTimeout_defeated (hd : s.probeDefeated = true) :
    match (chooseName s.records.instanceName taken (taken.len + 1) s.renameAttempt).1 with
    | some name => (s.handleTimeout now flood taken).1.state = .init ∧
        (s.handleTimeout now flood taken).1.records = s.records.setInstance name
    | none => (s.handleTimeout now flood taken).1.state = .conflicting ∧
        (s.handleTimeout now flood taken).1.records = s.records := by
  have hlatched : ({ s with
      lastNow := some now
      kas := s.kas.expire now } : Service I R EV).conflictClassifiedUnresolved = true :=
    show (s.probeDefeated || s.tiebreakLost) = true by rw [hd, Bool.true_or]
  have hrename : (s.handleTimeout now flood taken).1 = (({ s with
      lastNow := some now
      kas := s.kas.expire now
      probeDefeated := false
      tiebreakLost := false } : Service I R EV).rename now flood taken).1 := by
    unfold handleTimeout
    dsimp only
    rw [if_pos hlatched]
    unfold spendConflict
    dsimp only
    rw [if_pos hd]
  rw [hrename]
  generalize hr : ({ s with
      lastNow := some now
      kas := s.kas.expire now
      probeDefeated := false
      tiebreakLost := false } : Service I R EV) = r
  have hrecords : r.handOffInstance.records = s.records := by
    rw [← hr]
    exact congrArg Core.records (handOffInstance_core _)
  have hattempt : r.handOffInstance.renameAttempt = s.renameAttempt := by
    rw [← hr]
    unfold handOffInstance
    split <;> rfl
  have hchosen : chooseName r.handOffInstance.records.instanceName taken (taken.len + 1)
      r.handOffInstance.renameAttempt =
        chooseName s.records.instanceName taken (taken.len + 1) s.renameAttempt := by
    rw [hrecords, hattempt]
  unfold rename
  dsimp only
  rw [hchosen]
  cases chooseName s.records.instanceName taken (taken.len + 1) s.renameAttempt with
  | mk chosen attempt =>
    cases chosen with
    | some name =>
      obtain ⟨deadline, h⟩ := ({ r.handOffInstance with
        renameAttempt := attempt } : Service I R EV).takeName_core name now flood
      refine ⟨congrArg Core.state h, (congrArg Core.records h).trans ?_⟩
      exact congrArg (fun records : ServiceRecords => records.setInstance name) hrecords
    | none =>
      have h := ({ r.handOffInstance with
        renameAttempt := attempt } : Service I R EV).giveUpName_core
      exact ⟨congrArg Core.state h, (congrArg Core.records h).trans hrecords⟩

theorem pollDeferred_hushed
    (h : s.core.latched = true ∨ (s.core.pendingTransmits = .empty ∧ s.core.pendingLegacy = []))
    (now : I) (flood : ConflictFlood I) (buf : Bytes) (d : Sent)
    (hd : sentOf (s.pollDeferred now flood buf).2 = some d) :
    d.message.OnlyEnumerates s.records := by
  have hdefer := s.deferFirstProbe_effect now flood
  have heff := (s.deferFirstProbeUnderFlood now flood).pollTransmit_effect now buf
  change PollEffect _ now buf _ (sentOf (s.pollDeferred now flood buf).2) at heff
  rw [hd] at heff
  have hrec : (s.deferFirstProbeUnderFlood now flood).core.records = s.records := by
    generalize (s.deferFirstProbeUnderFlood now flood).core = c at hdefer
    cases hdefer <;> rfl
  have h₁ : (s.deferFirstProbeUnderFlood now flood).core.latched = true ∨
      ((s.deferFirstProbeUnderFlood now flood).core.pendingTransmits = .empty ∧
        (s.deferFirstProbeUnderFlood now flood).core.pendingLegacy = []) := by
    generalize (s.deferFirstProbeUnderFlood now flood).core = c at hdefer
    cases hdefer with
    | none => exact h
    | dropped hw hp deadline =>
      refine .inl (h.resolve_right fun hn => ?_)
      rw [hn.1] at hp
      cases hp
  rw [← hrec]
  generalize (s.deferFirstProbeUnderFlood now flood).core = c at heff h₁
  have hempty : ∀ kind, c.latched = false → c.pendingTransmits.peek ≠ some kind := by
    intro kind hl hp
    rcases h₁ with h₁ | h₁
    · rw [hl] at h₁
      cases h₁
    · rw [h₁.1] at hp
      cases hp
  generalize (Service.pollTransmit _ now buf).1.core = c' at heff
  cases heff with
  | metaReply ht metaName hm msg he => exact metaResponse_enumerates c.records metaName hm buf msg he
  | legacyReply ht hl legacy rest ho msg token he =>
    rcases h₁ with h₁ | h₁
    · rw [hl] at h₁
      cases h₁
    · rw [h₁.2] at ho
      cases ho
  | probe ht hl legacy ho hp msg he => exact absurd hp (hempty _ hl)
  | announcement ht hl legacy ho hp msg nsec he => exact absurd hp (hempty _ hl)
  | response ht hl legacy ho hp msg emitted he hne => exact absurd hp (hempty _ hl)

theorem handleTimeout_hushes (h : s.core.latched = true) :
    (s.handleTimeout now flood taken).1.core.pendingTransmits = .empty ∧
      (s.handleTimeout now flood taken).1.core.pendingLegacy = [] := by
  have heff := s.handleTimeout_effect now flood taken
  generalize (s.handleTimeout now flood taken).1.core = c' at heff ⊢
  cases heff with
  | waited hd hl => exact ⟨rfl, rfl⟩
  | renamed hd name hname deadline => exact ⟨rfl, rfl⟩
  | gaveUp hd => exact ⟨rfl, rfl⟩
  | ticked hl _ hticks =>
    rw [h] at hl
    cases hl

end Service

namespace Session
variable {I R : Type} {EV : Type → Type} [Instant I] [SeedableRng R] [Pool EV]

/-- At the end of the settling window, with the third probe confirmed and no conflict latched, a
conflict of that instant comes to the same before the timer calls of the instant and after them: the
same service and the same error. -/
theorem window_ends_in_either_order (probe : Bool)
    (ts : List (Transition (Session I R EV) (Timed I))) (s : Session I R EV)
    (run : Run (machine probe) ts s) (n : UInt8) (hstate : s.service.state = .probing n)
    (hlast : 3 ≤ n) (hconfirmed : s.service.awaitingConfirm = none) (now : I)
    (hdue : due s.service.lifecycleDeadline now = true)
    (hfree : s.service.conflictClassifiedUnresolved = false) (event : ServiceEvent)
    (hev : defeats s.service.records event = true ∨ outranks s.service.records event = true)
    (calls : List (ConflictFlood I × NamesInUse)) (hcalls : calls ≠ [])
    (flood flood' : ConflictFlood I) (taken : NamesInUse) :
    let early := s.service.handleEvent event now flood
    let late := (s.service.timersAt now calls).handleEvent event now flood
    let spent := early.1.handleTimeout now flood' taken
    late.2 = early.2 ∧ late.1.handleTimeout now flood' taken = spent ∧
      (defeats s.service.records event = true →
        match (chooseName s.service.records.instanceName taken (taken.len + 1)
          s.service.renameAttempt).1 with
        | some name => spent.1.state = .init ∧ spent.1.records = s.service.records.setInstance name
        | none => spent.1.state = .conflicting ∧ spent.1.records = s.service.records) ∧
      (outranks s.service.records event = true →
        spent.1.state = .init ∧ spent.1.records = s.service.records ∧
          spent.1.lifecycleDeadline =
            underFlood now now (checkedAddDuration now tiebreakDeferWait) flood') ∧
      ∀ r, r = early.1 ∨ r = late.1 ∨ r = spent.1 → ∀ later flood'' buf d,
        sentOf (r.pollDeferred later flood'' buf).2 = some d → d.message.OnlyEnumerates r.records := by
  intro early late spent
  have hun := unannounced_run probe ts s run
  have hwire : s.service.probeOnWire = true := by
    refine hun.startup.onWire n hstate ?_
    rintro rfl
    exact absurd hlast (by decide)
  have hpre : s.service.isPreauthoritative = true := by
    unfold Service.isPreauthoritative
    rw [hstate]
  -- the timer calls of the instant move the phase and the schedule alone
  obtain ⟨hmoved, hsame⟩ : (s.service.timersAt now calls).state = .announcing 0 ∧
      (s.service.timersAt now calls).phaseless = s.service.phaseless := by
    cases calls with
    | nil => exact absurd rfl hcalls
    | cons call calls =>
      obtain ⟨hclosed, hsame⟩ :=
        s.service.handleTimeout_closes n now call.1 call.2 hstate hlast hdue hwire hfree
      have hfree' : (s.service.handleTimeout now call.1 call.2).1.conflictClassifiedUnresolved =
          false := by
        change (s.service.handleTimeout now call.1
          call.2).1.phaseless.conflictClassifiedUnresolved = false
        rw [hsame]
        exact hfree
      obtain ⟨hrest, hsame'⟩ := Service.timersAt_announcing _ now calls hclosed hfree'
      exact ⟨hrest, hsame'.trans hsame⟩
  have hpreLate : (s.service.timersAt now calls).isPreauthoritative = true := by
    have hadv : (s.service.timersAt now calls).generationAdvertised = false := by
      change (s.service.timersAt now calls).phaseless.generationAdvertised = false
      rw [hsame]
      exact hun.fresh (by rw [hstate]; rfl)
    have htoken : (s.service.timersAt now calls).awaitingConfirm = none := by
      change (s.service.timersAt now calls).phaseless.awaitingConfirm = none
      rw [hsame]
      exact hconfirmed
    unfold Service.isPreauthoritative
    rw [hmoved, hadv, htoken]
    rfl
  have hrecLate : (s.service.timersAt now calls).records = s.service.records :=
    show (s.service.timersAt now calls).phaseless.records = s.service.phaseless.records by rw [hsame]
  obtain ⟨hphaseless, hflood⟩ := Service.handleEvent_phaseless _ _ event now flood hpreLate hpre hsame
    (by rw [hrecLate]; exact hev)
  obtain ⟨hdefeat, houtrank⟩ := s.service.handleEvent_latches event now flood hpre hwire
  have hquiet : s.service.probeDefeated = false := (Bool.or_eq_false_iff.mp hfree).1
  have hlatched : early.1.conflictClassifiedUnresolved = true := by
    change (early.1.probeDefeated || early.1.tiebreakLost) = true
    rcases hev with h | h
    · rw [show early.1.probeDefeated = true from hdefeat h, Bool.true_or]
    · rw [show early.1.tiebreakLost = true from (houtrank h).1, Bool.or_true]
  have hlatchedLate : late.1.conflictClassifiedUnresolved = true := by
    change late.1.phaseless.conflictClassifiedUnresolved = true
    rw [show late.1.phaseless = early.1.phaseless from hphaseless]
    exact hlatched
  obtain ⟨hrecords, hattempt⟩ := s.service.handleEvent_keeps_names event now flood hpre hev
  refine ⟨hflood, ?_, ?_, ?_, ?_⟩
  · change late.1.handleTimeout now flood' taken = early.1.handleTimeout now flood' taken
    rw [late.1.handleTimeout_phaseless now flood' taken hlatchedLate,
      early.1.handleTimeout_phaseless now flood' taken hlatched,
      show late.1.phaseless = early.1.phaseless from hphaseless]
  · intro h
    have hspent := early.1.handleTimeout_defeated now flood' taken (hdefeat h)
    rw [hrecords, hattempt] at hspent
    exact hspent
  · intro h
    obtain ⟨hl, hd⟩ := houtrank h
    obtain ⟨hs, hr, hdl⟩ := early.1.handleTimeout_lost now flood' taken (hd.trans hquiet) hl
    exact ⟨hs, hr.trans hrecords, hdl⟩
  · rintro r (rfl | rfl | rfl) later flood'' buf d hd
    · exact early.1.pollDeferred_hushed (.inl hlatched) later flood'' buf d hd
    · exact late.1.pollDeferred_hushed (.inl hlatchedLate) later flood'' buf d hd
    · exact spent.1.pollDeferred_hushed (.inr (early.1.handleTimeout_hushes now flood' taken hlatched))
        later flood'' buf d hd

def settling : List (Timed Uptime) :=
  [timer 0, timer 0, pollAt 0, acceptedAt 0, timer 250000000, pollAt 250000000,
    acceptedAt 250000000, timer 500000000, pollAt 500000000, acceptedAt 500000000]

def heard (e : Timed Uptime) : Option ServiceEvent :=
  match e.call with
  | .event event _ => some event
  | _ => none

theorem heard_any (e : Timed Uptime) (p : ServiceEvent → Bool) (h : (heard e).any p = true) :
    ∃ event, heard e = some event ∧ p event = true := by
  cases he : heard e with
  | none =>
    rw [he] at h
    cases h
  | some event =>
    rw [he] at h
    exact ⟨event, rfl, h⟩

def rival : ServiceRecords := { ServiceRecords.printer with port := 9100 }

theorem printer_yields_in_either_order :
    ∃ event, heard (hearsSrv 750000000 rival) = some event ∧
      ((((machine true).play (printerAt true 0) settling).service.timersAt 750000000
          [(.new, ⟨[]⟩), (.new, ⟨[]⟩)]).handleEvent event 750000000 .new).1.handleTimeout
            750000000 .new ⟨[]⟩ =
        (((machine true).play (printerAt true 0) settling).service.handleEvent event
          750000000 .new).1.handleTimeout 750000000 .new ⟨[]⟩ := by
  have hrun : Run (machine true) _ _ := (Run.start _ (printerAt_registered true 0)).play _ _ _
    settling (by decide +kernel)
  obtain ⟨event, hheard, hdefeats⟩ := heard_any (hearsSrv 750000000 rival)
    (defeats ((machine true).play (printerAt true 0) settling).service.records)
    (by decide +kernel)
  refine ⟨event, hheard, ?_⟩
  exact (window_ends_in_either_order true _ _ hrun 3 (by decide +kernel) (by decide)
    (Option.isNone_iff_eq_none.mp (by decide +kernel)) 750000000 (by decide +kernel)
    (by decide +kernel) event (.inl hdefeats) [(.new, ⟨[]⟩), (.new, ⟨[]⟩)]
    (List.cons_ne_nil _ _) .new .new ⟨[]⟩).2.1

/-- With a tiebreak lost and not yet spent the order matters: called first, the timer spends the
loss, and with no probe of the new cycle sent the rival's response is no conflict; delivered first,
the response makes the printer take another name. -/
theorem printer_yields_in_one_order :
    ∃ (ts : List (Transition (Session Uptime ZeroRng Slab) (Timed Uptime)))
      (s : Session Uptime ZeroRng Slab) (event : ServiceEvent),
      Run (machine true) ts s ∧ s.service.state = .probing 3 ∧
        s.service.awaitingConfirm.isNone = true ∧
        due s.service.lifecycleDeadline 750000000 = true ∧
        defeats s.service.records event = true ∧
        (((s.service.timersAt 750000000 [(.new, ⟨[]⟩)]).handleEvent event 750000000
            .new).1.handleTimeout 750000000 .new ⟨[]⟩).1.records.instanceName ≠
          ((s.service.handleEvent event 750000000 .new).1.handleTimeout 750000000 .new
            ⟨[]⟩).1.records.instanceName := by
  have hrun : Run (machine true) _ _ := (Run.start _ (printerAt_registered true 0)).play _ _ _
    (settling ++ [hearsProbe 750000000 rival]) (by decide +kernel)
  have hboth : (heard (hearsSrv 750000000 rival)).any (fun event =>
      let s := (machine true).play (printerAt true 0) (settling ++ [hearsProbe 750000000 rival])
      defeats s.service.records event &&
        decide ((((s.service.timersAt 750000000 [(.new, ⟨[]⟩)]).handleEvent event 750000000
            .new).1.handleTimeout 750000000 .new ⟨[]⟩).1.records.instanceName ≠
          ((s.service.handleEvent event 750000000 .new).1.handleTimeout 750000000 .new
            ⟨[]⟩).1.records.instanceName)) = true := by
    decide +kernel
  obtain ⟨event, -, h⟩ := heard_any _ _ hboth
  obtain ⟨hdefeats, hdiffer⟩ := Bool.and_eq_true_iff.mp h
  exact ⟨_, _, event, hrun, by decide +kernel, by decide +kernel, by decide +kernel, hdefeats,
    of_decide_eq_true hdiffer⟩

end Session
end Hick
