import Hick.Service.Session

/-!
# What a service keeps outside its core (service/mod.rs:1125, 4540-5043, 5091-5484)

The instant of the last call that brought the clock, and the deadline of the enumeration reply.
-/

set_option linter.unusedSectionVars false

namespace Hick
open Octets Wire Respond

namespace Service
variable {I R : Type} {EV : Type → Type} [Instant I] [SeedableRng R] [Pool EV]

def aside (s : Service I R EV) : Option I × Option I := (s.lastNow, s.metaResponseDeadline)

def unsettled (s : Service I R EV) : (Option I × Option I) × Option RenameGoodbyeHandoff :=
  (s.aside, s.renameGoodbyeHandoff)

variable (s : Service I R EV) (now : I) (flood : ConflictFlood I)

theorem notify_unsettled (update : ServiceUpdate) :
    (s.notify update).unsettled = s.unsettled := by
  unfold notify
  split <;> rfl

theorem notify_aside (update : ServiceUpdate) :
    (s.notify update).aside = s.aside := congrArg Prod.fst (s.notify_unsettled update)

theorem advanceProbe_unsettled (n : UInt8) (delivery : TransmitDelivery) :
    (s.advanceProbe now n delivery).unsettled = s.unsettled := by
  unfold advanceProbe
  dsimp only
  split
  · rfl
  · split
    · unfold enterSettling armOnPartialLadder
      dsimp only
      split <;> split <;> first | rfl | (split <;> rfl)
    · rfl

theorem armAnnouncement_unsettled (advance : PhaseAdvance) :
    (s.armAnnouncement now advance).unsettled = s.unsettled := by
  unfold armAnnouncement
  split
  · split <;> rfl
  · dsimp only
    split <;> rfl
  · rfl

theorem advanceAnnouncing_unsettled :
    (s.advanceAnnouncing now).unsettled = s.unsettled := by
  unfold advanceAnnouncing
  split
  · split
    · exact notify_unsettled _ .established
    · rfl
  · rfl

theorem settleAnnouncement_unsettled (emitted : EmittedRecords)
    (delivery : TransmitDelivery) :
    (s.settleAnnouncement now emitted delivery).unsettled = s.unsettled := by
  unfold settleAnnouncement classifyAnnouncement
  dsimp only
  split
  · unfold retryAnnouncement
    split <;> rfl
  · split
    · exact armAnnouncement_unsettled _ now _
    · split
      · refine (armAnnouncement_unsettled _ now _).trans
          ((advanceAnnouncing_unsettled _ now).trans ?_)
        split <;> rfl
      · refine (armAnnouncement_unsettled _ now _).trans
          ((advanceAnnouncing_unsettled _ now).trans ?_)
        split <;> rfl

theorem settleStale_aside (records : StaleRecords) (delivery : TransmitDelivery) :
    (s.settleStale records delivery).aside = s.aside := by
  unfold settleStale
  split
  · rfl
  · cases records with
    | none => rfl
    | sameName emitted cls => rfl
    | oldName records emitted cls =>
      dsimp only
      split
      · rfl
      · unfold addToHandoff
        split <;> rfl

theorem settleStale_handoff (records : StaleRecords) (delivery : TransmitDelivery)
    (h : RenameGoodbyeHandoff)
    (hh : (s.settleStale records delivery).renameGoodbyeHandoff = some h) :
    (∃ old, s.renameGoodbyeHandoff = some old ∧ h.records = old.records) ∨
      ∃ emitted cls, records = .oldName h.records emitted cls := by
  unfold settleStale at hh
  split at hh
  · exact .inl ⟨h, hh, rfl⟩
  · cases records with
    | none => exact .inl ⟨h, hh, rfl⟩
    | sameName emitted cls => exact .inl ⟨h, hh, rfl⟩
    | oldName records emitted cls =>
      dsimp only at hh
      split at hh
      · exact .inl ⟨h, hh, rfl⟩
      · unfold addToHandoff at hh
        split at hh
        · rename_i old hold
          cases hh
          exact .inl ⟨old, hold, rfl⟩
        · cases hh
          exact .inr ⟨emitted, cls, rfl⟩

theorem settleConfirm_unsettled (kind : AwaitingConfirm)
    (delivery : TransmitDelivery) (h : ∀ fact records, kind ≠ .stale fact records) :
    (s.settleConfirm now kind delivery).unsettled = s.unsettled := by
  cases kind with
  | probe =>
    unfold settleConfirm settleProbe
    dsimp only
    split
    · exact advanceProbe_unsettled _ now _ delivery
    · rfl
  | announcement emitted => exact s.settleAnnouncement_unsettled now emitted delivery
  | response emitted cls =>
    unfold settleConfirm settleResponse
    dsimp only
    split <;> rfl
  | metaResponse => rfl
  | stale fact records => exact absurd rfl (h fact records)

theorem settleConfirm_aside (kind : AwaitingConfirm)
    (delivery : TransmitDelivery) : (s.settleConfirm now kind delivery).aside = s.aside := by
  by_cases h : ∃ fact records, kind = .stale fact records
  · obtain ⟨fact, records, rfl⟩ := h
    exact s.settleStale_aside records delivery
  · exact congrArg Prod.fst (s.settleConfirm_unsettled now kind delivery fun fact records heq =>
      h ⟨fact, records, heq⟩)

theorem noteTransmitOutcome_aside (v4 v6 : FamilyAttempt I) :
    (s.noteTransmitOutcome now v4 v6).1.aside = s.aside := by
  unfold noteTransmitOutcome
  cases s.awaitingConfirm with
  | none => rfl
  | some kind =>
    exact ({ s with awaitingConfirm := none } : Service I R EV).settleConfirm_aside
      (FamilyAttempt.anchor v4 v6 now) kind (FamilyAttempt.project v4 v6)

theorem noteTransmitOutcome_handoff (v4 v6 : FamilyAttempt I)
    (h : RenameGoodbyeHandoff)
    (hh : (s.noteTransmitOutcome now v4 v6).1.renameGoodbyeHandoff = some h) :
    (∃ old, s.renameGoodbyeHandoff = some old ∧ h.records = old.records) ∨
      ∃ fact emitted cls,
        s.awaitingConfirm = some (.stale fact (.oldName h.records emitted cls)) := by
  unfold noteTransmitOutcome at hh
  cases hk : s.awaitingConfirm with
  | none =>
    rw [hk] at hh
    exact .inl ⟨h, hh, rfl⟩
  | some kind =>
    rw [hk] at hh
    by_cases hstale : ∃ fact records, kind = .stale fact records
    · obtain ⟨fact, records, rfl⟩ := hstale
      refine Or.imp_right ?_ (({ s with awaitingConfirm := none } : Service I R
        EV).settleStale_handoff records (FamilyAttempt.project v4 v6) h hh)
      rintro ⟨emitted, cls, rfl⟩
      exact ⟨fact, emitted, cls, rfl⟩
    · have hsame := congrArg Prod.snd (({ s with awaitingConfirm := none } : Service I R
        EV).settleConfirm_unsettled (FamilyAttempt.anchor v4 v6 now) kind
          (FamilyAttempt.project v4 v6) fun fact records heq => hstale ⟨fact, records, heq⟩)
      exact .inl ⟨h, hsame.symm.trans hh, rfl⟩

theorem poll_aside : s.poll.1.aside = s.aside := by
  unfold poll
  split
  · rfl
  · split <;> rfl

theorem deferFirstProbe_aside :
    (s.deferFirstProbeUnderFlood now flood).aside = s.aside := by
  unfold deferFirstProbeUnderFlood
  split
  · rfl
  · split
    · split <;> rfl
    · rfl

theorem pollMeta_lastNow (buf : Bytes) :
    (s.pollMeta now buf).1.lastNow = s.lastNow := by
  unfold pollMeta
  split
  · rfl
  · split
    · rfl
    · dsimp only
      split
      · rfl
      · split
        · rfl
        · split <;> rfl

theorem pollLegacy_aside (buf : Bytes) :
    (s.pollLegacy buf).1.aside = s.aside := by
  unfold pollLegacy
  split
  · rfl
  · split
    · rfl
    · dsimp only
      split <;> rfl

theorem pollQueue_aside (buf : Bytes) :
    (s.pollQueue now buf).1.aside = s.aside := by
  unfold pollQueue
  dsimp only
  split
  · rfl
  · split
    · rfl
    · split
      · split <;> rfl
      · split <;> rfl
      · split
        · rfl
        · split <;> rfl

theorem pollTransmit_lastNow (buf : Bytes) :
    (s.pollTransmit now buf).1.lastNow = s.lastNow := by
  unfold pollTransmit
  split
  · rfl
  · have hmeta := s.pollMeta_lastNow now buf
    generalize s.pollMeta now buf = polled at *
    obtain ⟨s₁, _ | sent⟩ := polled
    · have hlegacy := congrArg Prod.fst (s₁.pollLegacy_aside buf)
      dsimp only
      generalize s₁.pollLegacy buf = replied at *
      obtain ⟨s₂, _ | sent⟩ := replied
      · exact (congrArg Prod.fst (s₂.pollQueue_aside now buf)).trans (hlegacy.trans hmeta)
      · exact hlegacy.trans hmeta
    · exact hmeta

theorem notify_lastNow (update : ServiceUpdate) :
    (s.notify update).lastNow = s.lastNow := congrArg Prod.fst (s.notify_aside update)

theorem tick_aside :
    (s.tick now flood).1.aside = s.aside := by
  have htake : ∀ (s : Service I R EV) fired, (s.takeResponse fired).aside = s.aside := by
    intro s fired
    unfold takeResponse
    split <;> rfl
  have hrearm : ∀ s : Service I R EV, (s.rearmParked now flood).aside = s.aside := by
    intro s
    unfold rearmParked
    split <;> rfl
  have hhold : ∀ s : Service I R EV, (s.holdUnderFlood now flood).1.aside = s.aside := by
    intro s
    unfold holdUnderFlood
    split
    · split
      · split <;> rfl
      · rfl
    · rfl
  have hpush : ∀ (s : Service I R EV) kind, (s.pushLifecyclePending kind).aside = s.aside := by
    intro s kind
    unfold pushLifecyclePending
    split <;> rfl
  have hfire : ∀ s : Service I R EV, (s.fireDue now).aside = s.aside := by
    intro s
    unfold fireDue fireLifecycle
    split
    · split
      · rfl
      · split
        · rfl
        · exact hpush s _
      · exact hpush s _
      · exact hpush s _
      · rfl
    · rfl
  have hqueue : ∀ (s : Service I R EV) fired, (s.queueResponse fired).aside = s.aside := by
    intro s fired
    unfold queueResponse
    split <;> rfl
  unfold tick
  dsimp only
  rw [hqueue, hfire, hhold, hrearm, htake]

theorem tick_lastNow :
    (s.tick now flood).1.lastNow = s.lastNow := congrArg Prod.fst (s.tick_aside now flood)

theorem rename_lastNow (taken : NamesInUse) : (s.rename now flood taken).1.lastNow = s.lastNow := by
  have hoff : s.handOffInstance.lastNow = s.lastNow := by
    unfold handOffInstance
    split <;> rfl
  rw [← hoff]
  unfold rename
  dsimp only
  generalize s.handOffInstance = r
  cases chooseName r.records.instanceName taken (taken.len + 1) r.renameAttempt with
  | mk chosen attempt =>
    cases chosen with
    | some name =>
      unfold takeName
      dsimp only
      exact notify_lastNow _ _
    | none =>
      unfold giveUpName
      exact notify_lastNow _ _

theorem handleTimeout_lastNow (taken : NamesInUse) :
    (s.handleTimeout now flood taken).1.lastNow = some now := by
  unfold handleTimeout
  dsimp only
  split
  · unfold spendConflict
    dsimp only
    split
    · exact rename_lastNow _ now flood taken
    · rfl
  · exact tick_lastNow _ now flood

theorem floodEligible_lastNow (datagram : DatagramId) :
    (s.floodEligible datagram).1.lastNow = s.lastNow := by
  unfold floodEligible
  split
  · split <;> rfl
  · rfl

theorem handleQuestion_lastNow (sq : ServiceQuestion) (now : I) :
    (s.handleQuestion sq now).lastNow = s.lastNow := by
  rw [s.handleQuestion_frame sq now]

theorem dispatchEvent_lastNow (event : ServiceEvent) (now : I)
    (flood : ConflictFlood I) : (s.dispatchEvent event now flood).1.lastNow = s.lastNow := by
  cases event with
  | question sq =>
    unfold dispatchEvent
    dsimp only
    split
    · exact s.handleQuestion_lastNow sq now
    · rfl
  | probeConflict pc =>
    unfold dispatchEvent
    dsimp only
    split
    · rw [← s.floodEligible_lastNow pc.datagram]
      unfold contestProbed handlePreauthoritativeConflict
      dsimp only
      split
      · rfl
      · split <;> rfl
    · split
      · unfold contestPublished
        split
        · rfl
        · split
          · rfl
          · split <;> rfl
      · rfl
  | probeProposal pp =>
    unfold dispatchEvent
    dsimp only
    split
    · unfold contestProposed handleProbeProposal
      cases adjudicate pp s.records <;> rfl
    · rfl
  | hostConflict hc =>
    unfold dispatchEvent handleHostConflict
    dsimp only
    split
    · rfl
    · exact (notify_lastNow _ _).trans (s.floodEligible_lastNow hc.datagram)
  | knownAnswer ka =>
    unfold dispatchEvent handleKnownAnswer
    dsimp only
    split
    · unfold handleMetaKnownAnswer
      split
      · split <;> rfl
      · rfl
    · split <;> rfl

theorem receive_lastNow (event : ServiceEvent) (now : I) :
    (s.receive event now).lastNow = some now := by
  unfold receive
  split
  · exact floodEligible_lastNow _ _
  · rfl

theorem handleEvent_lastNow (event : ServiceEvent) (now : I)
    (flood : ConflictFlood I) : (s.handleEvent event now flood).1.lastNow = some now := by
  rw [← s.receive_lastNow event now]
  unfold handleEvent
  dsimp only
  split
  · rfl
  · rfl
  · rfl
  · exact dispatchEvent_lastNow _ event now flood

end Service
end Hick
