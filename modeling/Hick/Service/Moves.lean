import Mathlib
import Hick.Service.Core
import Hick.Service.Rename

/-!
# What timers, polls and confirms can do

A tick of the timer is a sequence of moves; a spent conflict, a poll and a confirm are one
change each.
-/

set_option linter.unusedSectionVars false

namespace Hick
open Octets Wire Respond

theorem due_iff {I : Type} [Instant I] (deadline : Option I) (now : I) :
    due deadline now = true ↔ ∃ d, deadline = some d ∧ d ≤ now := by
  unfold due
  cases deadline with
  | none => simp
  | some d => simp

theorem probeDeadline_le {I R : Type} [Instant I] [LawfulInstant I] [Rng R] (now d : I)
    (count : UInt8) (rng : R) (h : (probeDeadline now count rng).1 = some d) : now ≤ d := by
  unfold probeDeadline at h
  split at h
  · exact LawfulInstant.le_add _ _ _ h
  · exact LawfulInstant.le_add _ _ _ h

theorem le_raiseTo {I : Type} [Instant I] (floor : I) (deadline : Option I) :
    floor ≤ raiseTo floor deadline := by
  unfold raiseTo
  split
  · exact le_max_right _ _
  · exact le_refl _

/-- One move of a tick at `now`; `fired` says that its response deadline has come. -/
inductive TickMove {I : Type} [Instant I] (now : I) (flood : ConflictFlood I) (fired : Bool) :
    Core I → Core I → Prop
  | takeResponse (c : Core I) (h : fired = true) :
    TickMove now flood fired c { c with responseDeadline := none }
  | rearm (c : Core I) (base : Option I) (h : c.startupParked = true) :
    TickMove now flood fired c
      { c with lifecycleDeadline := underFlood c.sequenceStartedAt now base flood }
  | hold (c : Core I) (floor : I) (hw : c.probeOnWire = false)
    (hs : c.state.inStartup = true) (hdue : due c.lifecycleDeadline now = true)
    (hf : now < floor) :
    TickMove now flood fired c { c with lifecycleDeadline := some floor }
  | park (c : Core I) (hw : c.probeOnWire = false) (hs : c.state.inStartup = true)
    (hdue : due c.lifecycleDeadline now = true) :
    TickMove now flood fired c { c with lifecycleDeadline := none }
  | startProbing (c : Core I) (hs : c.state = .init) (hdue : due c.lifecycleDeadline now = true)
    (d : Option I) :
    TickMove now flood fired c
      { c with
        state := .probing 0
        lifecycleDeadline := d }
  | closeSettling (c : Core I) (n : UInt8) (hs : c.state = .probing n) (hn : 3 ≤ n)
    (hdue : due c.lifecycleDeadline now = true) (d : Option I) :
    TickMove now flood fired c
      { c with
        state := .announcing 0
        lifecycleDeadline := d }
  | queueProbe (c : Core I) (n : UInt8) (hs : c.state = .probing n) (hn : n < 3)
    (hdue : due c.lifecycleDeadline now = true) (pending : Pending)
    (hp : pending = c.pendingTransmits ∨ pending = c.pendingTransmits.push .probe)
    (d : Option I) :
    TickMove now flood fired c
      { c with
        pendingTransmits := pending
        lifecycleDeadline := d }
  | queueAnnouncement (c : Core I) (hs : c.state.isPublished = true)
    (hdue : due c.lifecycleDeadline now = true) (pending : Pending)
    (hp : pending = c.pendingTransmits ∨ pending = c.pendingTransmits.push .announcement)
    (d : Option I) :
    TickMove now flood fired c
      { c with
        pendingTransmits := pending
        lifecycleDeadline := d }
  | queueResponse (c : Core I) (h : fired = true) :
    TickMove now flood fired c
      { c with pendingTransmits := c.pendingTransmits.push .response }

abbrev Ticks {I : Type} [Instant I] (now : I) (flood : ConflictFlood I) (fired : Bool) :
    Core I → Core I → Prop := Relation.ReflTransGen (TickMove now flood fired)

namespace Service
variable {I R : Type} {EV : Type → Type} [Instant I] [SeedableRng R] [Pool EV]

variable (s : Service I R EV)

theorem pushLifecyclePending_core (kind : PendingTransmitKind) :
    ∃ pending, (s.pushLifecyclePending kind).core =
        { s.core with pendingTransmits := pending } ∧
      (pending = s.pendingTransmits ∨ pending = s.pendingTransmits.push kind) := by
  unfold pushLifecyclePending
  split
  · exact ⟨s.pendingTransmits, rfl, .inl rfl⟩
  · exact ⟨_, rfl, .inr rfl⟩

theorem rearmParked_ticks (now : I) (flood : ConflictFlood I)
    (fired : Bool) : Ticks now flood fired s.core (s.rearmParked now flood).core := by
  unfold rearmParked
  split
  · rename_i h
    exact .single (.rearm _ _ h)
  · exact .refl

theorem holdUnderFlood_ticks (now : I) (flood : ConflictFlood I)
    (fired : Bool) : Ticks now flood fired s.core (s.holdUnderFlood now flood).1.core := by
  unfold holdUnderFlood
  split
  · rename_i h
    simp only [Bool.and_eq_true, Bool.not_eq_true'] at h
    obtain ⟨⟨⟨hw, hs⟩, hdue⟩, -⟩ := h
    split
    · split
      · rename_i hf
        exact .single (.hold _ _ hw hs hdue hf)
      · exact .refl
    · exact .single (.park _ hw hs hdue)
  · exact .refl

theorem fireLifecycle_ticks (now : I) (flood : ConflictFlood I)
    (fired : Bool) (hdue : due s.lifecycleDeadline now = true) :
    Ticks now flood fired s.core (s.fireLifecycle now).core := by
  unfold fireLifecycle
  split
  · rename_i hs
    exact .single (.startProbing _ hs hdue _)
  · rename_i n hs
    split
    · rename_i hn
      exact .single (.closeSettling _ n hs hn hdue _)
    · rename_i hn
      obtain ⟨pending, hc, hp⟩ := s.pushLifecyclePending_core .probe
      have hmove : TickMove now flood fired s.core _ := .queueProbe s.core n hs
        (UInt8.not_le.mp hn) hdue pending hp
        (probeDeadline now n (s.pushLifecyclePending .probe).rng).1
      refine .single ?_
      convert hmove using 1
      exact congrArg (fun c : Core I => { c with lifecycleDeadline :=
        (probeDeadline now n (s.pushLifecyclePending .probe).rng).1 }) hc
  · rename_i n hs
    obtain ⟨pending, hc, hp⟩ := s.pushLifecyclePending_core .announcement
    have hmove : TickMove now flood fired s.core _ := .queueAnnouncement s.core
      (show s.state.isPublished = true by rw [hs]; rfl) hdue pending hp (announceDeadline now 1)
    refine .single ?_
    convert hmove using 1
    exact congrArg (fun c : Core I => { c with lifecycleDeadline := announceDeadline now 1 }) hc
  · rename_i hs
    obtain ⟨pending, hc, hp⟩ := s.pushLifecyclePending_core .announcement
    have hmove : TickMove now flood fired s.core _ := .queueAnnouncement s.core
      (show s.state.isPublished = true by rw [hs]; rfl) hdue pending hp
      (reAnnounceDeadline now s.records.ttlSecs)
    refine .single ?_
    convert hmove using 1
    exact congrArg (fun c : Core I => { c with
      lifecycleDeadline := reAnnounceDeadline now s.records.ttlSecs }) hc
  · exact .refl

theorem takeResponse_ticks (now : I) (flood : ConflictFlood I)
    (fired : Bool) : Ticks now flood fired s.core (s.takeResponse fired).core := by
  unfold takeResponse
  split
  · rename_i h
    exact .single (.takeResponse _ h)
  · exact .refl

theorem fireDue_ticks (now : I) (flood : ConflictFlood I) (fired : Bool) :
    Ticks now flood fired s.core (s.fireDue now).core := by
  unfold fireDue
  split
  · rename_i h
    exact s.fireLifecycle_ticks now flood fired h
  · exact .refl

theorem queueResponse_ticks (now : I) (flood : ConflictFlood I)
    (fired : Bool) : Ticks now flood fired s.core (s.queueResponse fired).core := by
  unfold queueResponse
  split
  · rename_i h
    exact .single (.queueResponse _ h)
  · exact .refl

theorem tick_ticks (now : I) (flood : ConflictFlood I) :
    Ticks now flood (due s.responseDeadline now) s.core (s.tick now flood).1.core := by
  have htake := s.takeResponse_ticks now flood (due s.responseDeadline now)
  have hrearm := (s.takeResponse (due s.responseDeadline now)).rearmParked_ticks now flood
    (due s.responseDeadline now)
  have hhold := ((s.takeResponse (due s.responseDeadline now)).rearmParked now
    flood).holdUnderFlood_ticks now flood (due s.responseDeadline now)
  have hfire := (((s.takeResponse (due s.responseDeadline now)).rearmParked now
    flood).holdUnderFlood now flood).1.fireDue_ticks now flood (due s.responseDeadline now)
  have hqueue := ((((s.takeResponse (due s.responseDeadline now)).rearmParked now
    flood).holdUnderFlood now flood).1.fireDue now).queueResponse_ticks now flood
    (due s.responseDeadline now)
  exact (((htake.trans hrearm).trans hhold).trans hfire).trans hqueue

end Service

inductive TimeoutEffect {I : Type} [Instant I] (c : Core I) (now : I) (flood : ConflictFlood I) :
    Core I → Prop
  | waited (hd : c.probeDefeated = false) (hl : c.tiebreakLost = true) :
    TimeoutEffect c now flood
      (c.restarted now (underFlood now now (checkedAddDuration now tiebreakDeferWait) flood) none)
  | renamed (hd : c.probeDefeated = true) (name : Name)
    (hname : ∃ l, name.labels = l :: c.records.instanceName.labels.tail) (deadline : Option I) :
    TimeoutEffect c now flood
      { (c.restarted now deadline (some c.records)) with
        records := c.records.setInstance name
        goodbye := c.goodbye.resetInstance }
  | gaveUp (hd : c.probeDefeated = true) : TimeoutEffect c now flood c.spent.givenUp
  | ticked (hl : c.latched = false) (c' : Core I)
    (h : Ticks now flood (due c.responseDeadline now) { c with kas := c.kas.expire now } c') :
    TimeoutEffect c now flood c'

namespace Service
variable {I R : Type} {EV : Type → Type} [Instant I] [SeedableRng R] [Pool EV]

theorem handOffInstance_core (s : Service I R EV) : s.handOffInstance.core = s.core := by
  unfold handOffInstance
  split <;> rfl

theorem takeName_core (s : Service I R EV) (name : Name) (now : I) (flood : ConflictFlood I) :
    ∃ deadline, (s.takeName name now flood).1.core =
      { (s.core.restarted now deadline (some s.records)) with
        records := s.records.setInstance name
        goodbye := s.goodbye.resetInstance } := by
  have hnotify := ({ { s with rng := (probeDeadline now 0 s.rng).2 }.restartProbeCycle now
    (probeDeadline now 0 s.rng).1 (some s.records) flood |>.1 with
      records := s.records.setInstance name } : Service I R EV).notify_core (.renamed name)
  refine ⟨underFlood now now (probeDeadline now 0 s.rng).1 flood, ?_⟩
  exact congrArg (fun c : Core I => { c with goodbye := c.goodbye.resetInstance }) hnotify

theorem giveUpName_core (s : Service I R EV) : s.giveUpName.core = s.core.givenUp := by
  have hnotify := ({ (s.staleLiveCommitToken (some s.records)) with
    state := .conflicting } : Service I R EV).notify_core .conflict
  exact congrArg (fun c : Core I =>
    { c with
      lifecycleDeadline := none
      responseDeadline := none
      pendingTransmits := .empty
      kas := .empty
      questionerSrcs := []
      goodbye := c.goodbye.resetInstance
      pendingLegacy := [] }) hnotify

theorem rename_effect (s : Service I R EV) (now : I) (flood : ConflictFlood I)
    (taken : NamesInUse) :
    (∃ name deadline, (∃ l, name.labels = l :: s.records.instanceName.labels.tail) ∧
      (s.rename now flood taken).1.core =
        { (s.core.restarted now deadline (some s.records)) with
          records := s.records.setInstance name
          goodbye := s.goodbye.resetInstance }) ∨
      (s.rename now flood taken).1.core = s.core.givenUp := by
  have hoff := s.handOffInstance_core
  have hrec : s.handOffInstance.records = s.records := congrArg Core.records hoff
  have hgood : s.handOffInstance.goodbye = s.goodbye := congrArg Core.goodbye hoff
  unfold rename
  dsimp only
  have htail : ∀ name attempt, chooseName s.handOffInstance.records.instanceName taken
      (taken.len + 1) s.handOffInstance.renameAttempt = (some name, attempt) →
      ∃ l, name.labels = l :: s.records.instanceName.labels.tail := by
    intro name attempt h
    rw [hrec] at h
    exact chooseName_tail _ _ _ _ _ _ h
  generalize chooseName s.handOffInstance.records.instanceName taken (taken.len + 1)
    s.handOffInstance.renameAttempt = chosen at htail ⊢
  obtain ⟨name, attempt⟩ := chosen
  cases name with
  | none =>
    refine .inr ?_
    dsimp only
    rw [giveUpName_core]
    exact congrArg Core.givenUp hoff
  | some name =>
    refine .inl ?_
    obtain ⟨deadline, h⟩ := ({ s.handOffInstance with
      renameAttempt := attempt } : Service I R EV).takeName_core name now flood
    refine ⟨name, deadline, htail name attempt rfl, h.trans ?_⟩
    dsimp only
    rw [hrec, hgood, ← hoff]
    rfl

theorem handleTimeout_effect (s : Service I R EV) (now : I) (flood : ConflictFlood I)
    (taken : NamesInUse) :
    TimeoutEffect s.core now flood (s.handleTimeout now flood taken).1.core := by
  unfold handleTimeout
  dsimp only
  by_cases hl : s.core.latched = true
  · have hl' : ({ s with
        lastNow := some now
        kas := s.kas.expire now } : Service I R EV).conflictClassifiedUnresolved = true := hl
    rw [if_pos hl']
    unfold spendConflict
    dsimp only
    by_cases hd : s.probeDefeated = true
    · rw [if_pos hd]
      rcases rename_effect ({ s with
        lastNow := some now
        kas := s.kas.expire now
        probeDefeated := false
        tiebreakLost := false } : Service I R EV) now flood taken with ⟨name, deadline, hname, h⟩ | h
      · rw [h]
        exact .renamed hd name hname deadline
      · rw [h]
        exact .gaveUp hd
    · rw [if_neg hd]
      have hd' : s.core.probeDefeated = false := Bool.eq_false_iff.mpr hd
      have hlost : s.core.tiebreakLost = true := by
        rw [Core.latched, hd', Bool.false_or] at hl
        exact hl
      exact .waited hd' hlost
  · have hl' : ¬({ s with
        lastNow := some now
        kas := s.kas.expire now } : Service I R EV).conflictClassifiedUnresolved = true := hl
    rw [if_neg hl']
    have hticks := ({ s with
        lastNow := some now
        kas := s.kas.expire now } : Service I R EV).tick_ticks now flood
    exact .ticked (Bool.eq_false_iff.mpr hl) _ hticks

end Service

inductive DeferEffect {I : Type} [Instant I] (c : Core I) (now : I) (flood : ConflictFlood I) :
    Core I → Prop
  | none : DeferEffect c now flood c
  | dropped (hw : c.probeOnWire = false) (hp : c.pendingTransmits.peek = some .probe)
    (deadline : Option I) :
    DeferEffect c now flood
      { c with
        pendingTransmits := c.pendingTransmits.pop
        lifecycleDeadline := deadline }

def Core.Owed {I : Type} (c : Core I) (legacy : List LegacyResp) : Prop :=
  legacy = c.pendingLegacy ∨ legacy = c.pendingLegacy.tail

inductive PollEffect {I : Type} [Instant I] (c : Core I) (now : I) (buf : Bytes) :
    Core I → Option Sent → Prop
  | silent (legacy : List LegacyResp) (ho : c.Owed legacy) :
    PollEffect c now buf { c with pendingLegacy := legacy } none
  | metaReply (ht : c.awaitingConfirm = none) (metaName : Name)
    (hm : Name.tryFromStr dnsSdMetaQueryName = .ok metaName) (msg : Message)
    (he : writeMetaResponse c.records metaName buf = .ok (msg, ())) :
    PollEffect c now buf { c with awaitingConfirm := some .metaResponse }
      (some (Sent.stamped .metaResponse multicastDst msg))
  | legacyReply (ht : c.awaitingConfirm = none) (hl : c.latched = false) (legacy : LegacyResp)
    (rest : List LegacyResp) (ho : c.pendingLegacy = legacy :: rest) (msg : Message)
    (token : AwaitingConfirm) (he : Service.encodeLegacy c.records legacy buf = .ok (msg, token)) :
    PollEffect c now buf
      { c with
        pendingLegacy := rest
        awaitingConfirm := some token }
      (some (Sent.stamped token legacy.dst msg))
  | probe (ht : c.awaitingConfirm = none) (hl : c.latched = false) (legacy : List LegacyResp)
    (ho : c.Owed legacy) (hp : c.pendingTransmits.peek = some .probe) (msg : Message)
    (he : writeProbe c.records buf = .ok (msg, ())) :
    PollEffect c now buf
      { c with
        pendingLegacy := legacy
        pendingTransmits := c.pendingTransmits.pop
        awaitingConfirm := some .probe }
      (some (Sent.stamped .probe multicastDst msg))
  | announcement (ht : c.awaitingConfirm = none) (hl : c.latched = false)
    (legacy : List LegacyResp) (ho : c.Owed legacy)
    (hp : c.pendingTransmits.peek = some .announcement) (msg : Message) (nsec : Bool)
    (he : writeAnnounce c.records buf = .ok (msg, nsec)) :
    PollEffect c now buf
      { c with
        pendingLegacy := legacy
        pendingTransmits := c.pendingTransmits.pop
        awaitingConfirm := some (.announcement (announced c.records nsec)) }
      (some (Sent.stamped (.announcement (announced c.records nsec)) multicastDst msg))
  | response (ht : c.awaitingConfirm = none) (hl : c.latched = false)
    (legacy : List LegacyResp) (ho : c.Owed legacy)
    (hp : c.pendingTransmits.peek = some .response) (msg : Message) (emitted : EmittedRecords)
    (he : writeAnnounceFiltered c.records buf (c.suppresses now) = .ok (msg, emitted))
    (hne : emitted.isEmpty = false) :
    PollEffect c now buf
      { c with
        pendingLegacy := legacy
        pendingTransmits := c.pendingTransmits.pop
        kas := c.kas.drop
        questionerSrcs := []
        awaitingConfirm := some (.response emitted .multicast) }
      (some (Sent.stamped (.response emitted .multicast) multicastDst msg))
  | drained (ht : c.awaitingConfirm = none) (hl : c.latched = false)
    (legacy : List LegacyResp) (ho : c.Owed legacy)
    (hp : c.pendingTransmits.peek = some .response) (msg : Message) (emitted : EmittedRecords)
    (he : writeAnnounceFiltered c.records buf (c.suppresses now) = .ok (msg, emitted))
    (hne : emitted.isEmpty = true) :
    PollEffect c now buf
      { c with
        pendingLegacy := legacy
        pendingTransmits := c.pendingTransmits.pop
        kas := c.kas.drop
        questionerSrcs := [] } none

theorem PollEffect.onto {I : Type} [Instant I] {c c₁ c₂ : Core I} {now : I} {buf : Bytes}
    {sent : Option Sent} (h : PollEffect c now buf c₁ sent) (e : c₁ = c₂) :
    PollEffect c now buf c₂ sent := e ▸ h

def sentOf (outcome : Except TransmitError (Option Sent)) : Option Sent :=
  match outcome with
  | .ok sent => sent
  | .error _ => none

namespace Service
variable {I R : Type} {EV : Type → Type} [Instant I] [SeedableRng R] [Pool EV]

theorem deferFirstProbe_effect (s : Service I R EV) (now : I) (flood : ConflictFlood I) :
    DeferEffect s.core now flood (s.deferFirstProbeUnderFlood now flood).core := by
  unfold deferFirstProbeUnderFlood
  split
  · exact .none
  · rename_i h
    simp only [Bool.or_eq_true, not_or, Bool.not_eq_true, bne_eq_false_iff_eq] at h
    obtain ⟨⟨⟨-, hw⟩, hp⟩, -⟩ := h
    split
    · split
      · exact .dropped hw hp _
      · exact .none
    · exact .dropped hw hp _

theorem pollMeta_effect (s : Service I R EV) (now : I) (buf : Bytes) :
    (s.pollMeta now buf).2 = none ∧ (s.pollMeta now buf).1.core = s.core ∨
      ∃ metaName msg, Name.tryFromStr dnsSdMetaQueryName = .ok metaName ∧
        writeMetaResponse s.records metaName buf = .ok (msg, ()) ∧
        (s.pollMeta now buf).2 = some (Sent.stamped .metaResponse multicastDst msg) ∧
        (s.pollMeta now buf).1.core = { s.core with awaitingConfirm := some .metaResponse } := by
  unfold pollMeta
  split
  · exact .inl ⟨rfl, rfl⟩
  · split
    · exact .inl ⟨rfl, rfl⟩
    · dsimp only
      split
      · exact .inl ⟨rfl, rfl⟩
      · split
        · exact .inl ⟨rfl, rfl⟩
        · rename_i metaName hm
          split
          · exact .inl ⟨rfl, rfl⟩
          · rename_i msg he
            exact .inr ⟨metaName, msg, hm, he, rfl, rfl⟩

theorem pollLegacy_effect (s : Service I R EV) (buf : Bytes) :
    (s.pollLegacy buf).2 = none ∧ (∃ legacy, s.core.Owed legacy ∧
        (s.pollLegacy buf).1.core = { s.core with pendingLegacy := legacy }) ∨
      ∃ legacy rest msg token, s.core.latched = false ∧ s.pendingLegacy = legacy :: rest ∧
        encodeLegacy s.records legacy buf = .ok (msg, token) ∧
        (s.pollLegacy buf).2 = some (Sent.stamped token legacy.dst msg) ∧
        (s.pollLegacy buf).1.core =
          { s.core with
            pendingLegacy := rest
            awaitingConfirm := some token } := by
  unfold pollLegacy
  split
  · exact .inl ⟨rfl, s.pendingLegacy, .inl rfl, rfl⟩
  · rename_i legacy rest hrest
    split
    · exact .inl ⟨rfl, s.pendingLegacy, .inl rfl, rfl⟩
    · rename_i hl
      dsimp only
      split
      · refine .inl ⟨rfl, rest, .inr ?_, rfl⟩
        change rest = s.pendingLegacy.tail
        rw [hrest]
        rfl
      · rename_i msg token he
        exact .inr ⟨legacy, rest, msg, token, Bool.eq_false_iff.mpr hl, hrest, he, rfl, rfl⟩

theorem pollQueue_effect (s : Service I R EV) (c : Core I) (now : I) (buf : Bytes)
    (legacy : List LegacyResp) (ho : c.Owed legacy)
    (hs : s.core = { c with pendingLegacy := legacy }) (ht : c.awaitingConfirm = none) :
    PollEffect c now buf (s.pollQueue now buf).1.core (sentOf (s.pollQueue now buf).2) := by
  have hrec : s.records = c.records := congrArg Core.records hs
  have hpend : s.pendingTransmits = c.pendingTransmits := congrArg Core.pendingTransmits hs
  have hlatched : s.conflictClassifiedUnresolved = c.latched := by
    change s.core.latched = c.latched
    rw [hs]
    rfl
  have hsup : s.suppresses now = c.suppresses now := by
    have hk : s.kas = c.kas := congrArg Core.kas hs
    have hq : s.questionerSrcs = c.questionerSrcs := congrArg Core.questionerSrcs hs
    unfold suppresses Core.suppresses
    rw [hk, hq]
  have hsilent : PollEffect c now buf s.core none := by
    rw [hs]
    exact .silent legacy ho
  unfold pollQueue
  rw [hlatched]
  cases hp : s.pendingTransmits.peek with
  | none => exact hsilent
  | some kind =>
    rw [hpend] at hp
    dsimp only
    by_cases hl : c.latched = true
    · rw [if_pos hl]
      exact hsilent
    · rw [if_neg hl]
      have hl' : c.latched = false := Bool.eq_false_iff.mpr hl
      cases kind with
      | probe =>
        dsimp only
        split
        · exact hsilent
        · rename_i msg he
          rw [hrec] at he
          have heff : PollEffect c now buf _ _ := .probe ht hl' legacy ho hp msg he
          have hcore := congrArg (fun c' : Core I =>
            { c' with
              pendingTransmits := c'.pendingTransmits.pop
              awaitingConfirm := some .probe }) hs
          exact heff.onto hcore.symm
      | announcement =>
        dsimp only
        split
        · exact hsilent
        · rename_i msg nsec he
          rw [hrec] at he
          have heff : PollEffect c now buf _ _ := .announcement ht hl' legacy ho hp msg nsec he
          have hcore := congrArg (fun c' : Core I =>
            { c' with
              pendingTransmits := c'.pendingTransmits.pop
              awaitingConfirm := some (.announcement (announced c.records nsec)) }) hs
          have hann : announced s.records nsec = announced c.records nsec := by rw [hrec]
          rw [hann]
          exact heff.onto hcore.symm
      | response =>
        dsimp only
        split
        · exact hsilent
        · rename_i msg emitted he
          rw [hrec, hsup] at he
          by_cases hne : emitted.isEmpty = true
          · rw [if_pos hne]
            have heff : PollEffect c now buf _ _ := .drained ht hl' legacy ho hp msg emitted he hne
            have hcore := congrArg (fun c' : Core I =>
              { c' with
                pendingTransmits := c'.pendingTransmits.pop
                kas := c'.kas.drop
                questionerSrcs := [] }) hs
            exact heff.onto hcore.symm
          · rw [if_neg hne]
            have heff : PollEffect c now buf _ _ := .response ht hl' legacy ho hp msg emitted he
              (Bool.eq_false_iff.mpr hne)
            have hcore := congrArg (fun c' : Core I =>
              { c' with
                pendingTransmits := c'.pendingTransmits.pop
                kas := c'.kas.drop
                questionerSrcs := []
                awaitingConfirm := some (.response emitted .multicast) }) hs
            exact heff.onto hcore.symm

theorem pollTransmit_effect (s : Service I R EV) (now : I) (buf : Bytes) :
    PollEffect s.core now buf (s.pollTransmit now buf).1.core
      (sentOf (s.pollTransmit now buf).2) := by
  unfold pollTransmit
  split
  · exact .silent s.pendingLegacy (.inl rfl)
  · rename_i htok
    have ht : s.core.awaitingConfirm = none := by
      change s.awaitingConfirm = none
      simpa using htok
    have hmeta := s.pollMeta_effect now buf
    generalize s.pollMeta now buf = polled at hmeta ⊢
    obtain ⟨s₁, sent⟩ := polled
    rcases hmeta with ⟨hnone, hcore⟩ | ⟨metaName, msg, hm, he, hsent, hcore⟩
    · dsimp only at hnone hcore
      subst hnone
      dsimp only
      have hleg := s₁.pollLegacy_effect buf
      rw [hcore] at hleg
      generalize s₁.pollLegacy buf = polled at hleg ⊢
      obtain ⟨s₂, sent⟩ := polled
      rcases hleg with ⟨hnone, legacy, ho, hcore₂⟩ |
        ⟨legacy, rest, msg, token, hl, hrest, he, hsent, hcore₂⟩
      · dsimp only at hnone hcore₂
        subst hnone
        exact s₂.pollQueue_effect s.core now buf legacy ho hcore₂ ht
      · dsimp only at hsent hcore₂
        subst hsent
        have hrest' : s.core.pendingLegacy = legacy :: rest := by
          rw [← hcore]
          exact hrest
        have he' : encodeLegacy s.core.records legacy buf = .ok (msg, token) := by
          rw [← hcore]
          exact he
        have heff : PollEffect s.core now buf _ _ := .legacyReply ht hl legacy rest hrest' msg token he'
        rw [← hcore₂] at heff
        exact heff
    · dsimp only at hsent hcore
      subst hsent
      have heff : PollEffect s.core now buf _ _ := .metaReply ht metaName hm msg he
      rw [← hcore] at heff
      exact heff

end Service
end Hick
