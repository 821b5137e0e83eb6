import Mathlib
import Hick.Service.Moves

/-!
# What a confirm can do

The core after a confirm, one case for each kind of token and each way the phase can go.
-/

set_option linter.unusedSectionVars false

namespace Hick
open Octets Wire Respond

def GoodbyeOwnership.credited (g : GoodbyeOwnership) (emitted : EmittedRecords)
    (delivery : TransmitDelivery) (cls : SendClass) : GoodbyeOwnership :=
  if delivery.anyDelivered then g.recordEmitted emitted delivery.deliveredOn cls else g

def GoodbyeOwnership.creditedHost (g : GoodbyeOwnership) (emitted : EmittedRecords)
    (delivery : TransmitDelivery) (cls : SendClass) : GoodbyeOwnership :=
  if delivery.anyDelivered then g.recordHostEmitted emitted delivery.deliveredOn cls else g

/-- What settling a token can do to a core that has just given it up. `advances` says whether
the round counts as done. -/
inductive ConfirmEffect {I : Type} [Instant I] (c : Core I) (anchor : I)
    (delivery : TransmitDelivery) (advances : Bool) : AwaitingConfirm → Core I → Prop
  | metaReply : ConfirmEffect c anchor delivery advances .metaResponse c
  | probeElsewhere (hs : ∀ n, c.state ≠ .probing n) :
    ConfirmEffect c anchor delivery advances .probe
      { c with probeOnWire := c.probeOnWire || delivery.anyDelivered }
  | probeHeld (n : UInt8) (hs : c.state = .probing n) (ha : advances = false) :
    ConfirmEffect c anchor delivery advances .probe
      { c with
        probeOnWire := c.probeOnWire || delivery.anyDelivered
        lifecycleDeadline := checkedAddDuration anchor probeInterval }
  | probeAdvanced (n : UInt8) (hs : c.state = .probing n) (ha : advances = true)
    (hd : delivery.anyDelivered = true) (hn : n < 2) (deadline : Option I) :
    ConfirmEffect c anchor delivery advances .probe
      { c with
        state := .probing (n + 1)
        probeOnWire := true
        lifecycleDeadline := deadline }
  | probeSettled (n : UInt8) (hs : c.state = .probing n) (ha : advances = true)
    (hd : delivery.anyDelivered = true) (hn : 2 ≤ n) (deadline : Option I)
    (hsettle : ∀ settled, checkedAddDuration anchor probeInterval = some settled →
      ∃ d, deadline = some d ∧ settled ≤ d) :
    ConfirmEffect c anchor delivery advances .probe
      { c with
        state := .probing 3
        probeOnWire := true
        lifecycleDeadline := deadline }
  | announced (emitted : EmittedRecords) (state : ServiceState) (deadline : Option I)
    (hp : c.state.isPublished = true → state.isPublished = true)
    (hk : c.state.isPublished = false →
      state = c.state ∧ deadline = c.lifecycleDeadline)
    (hlost : delivery.anyDelivered = false → state = c.state) :
    ConfirmEffect c anchor delivery advances (.announcement emitted)
      { c with
        state := state
        lifecycleDeadline := deadline
        goodbye := c.goodbye.credited emitted delivery .multicast }
  | responded (emitted : EmittedRecords) (cls : SendClass) :
    ConfirmEffect c anchor delivery advances (.response emitted cls)
      { c with goodbye := c.goodbye.credited emitted delivery cls }
  | staleEmpty (fact : StaleWireFact) :
    ConfirmEffect c anchor delivery advances (.stale fact .none) c
  | staleSame (fact : StaleWireFact) (emitted : EmittedRecords) (cls : SendClass) :
    ConfirmEffect c anchor delivery advances (.stale fact (.sameName emitted cls))
      { c with goodbye := c.goodbye.credited emitted delivery cls }
  | staleOld (fact : StaleWireFact) (records : ServiceRecords) (emitted : EmittedRecords)
    (cls : SendClass) :
    ConfirmEffect c anchor delivery advances (.stale fact (.oldName records emitted cls))
      { c with goodbye := c.goodbye.creditedHost emitted delivery cls }

theorem ConfirmEffect.onto {I : Type} [Instant I] {c c₁ c₂ : Core I} {anchor : I}
    {delivery : TransmitDelivery} {advances : Bool} {kind : AwaitingConfirm}
    (h : ConfirmEffect c anchor delivery advances kind c₁) (e : c₁ = c₂) :
    ConfirmEffect c anchor delivery advances kind c₂ := e ▸ h

theorem saturatingSucc8_lt_two (n : UInt8) (h : n < 2) : saturatingSucc8 n = n + 1 := by
  unfold saturatingSucc8
  rw [if_neg]
  rintro rfl
  exact absurd h (by decide)

namespace Service
variable {I R : Type} {EV : Type → Type} [Instant I] [SeedableRng R] [Pool EV]

def roundDone (s : Service I R EV) (delivery : TransmitDelivery) : Bool :=
  (classifyAdvance s.partialRounds delivery).1.advances

variable (s : Service I R EV)

theorem armOnPartialLadder_core (now : I) :
    ∃ deadline, (s.armOnPartialLadder now).core = { s.core with lifecycleDeadline := deadline } := by
  unfold armOnPartialLadder
  split
  · exact ⟨s.lifecycleDeadline, rfl⟩
  · exact ⟨_, rfl⟩

theorem enterSettling_core (now : I) (advance : PhaseAdvance) :
    ∃ deadline, (s.enterSettling now advance).core =
        { s.core with
          state := .probing 3
          lifecycleDeadline := deadline } ∧
      ∀ settled, checkedAddDuration now probeInterval = some settled →
        ∃ d, deadline = some d ∧ settled ≤ d := by
  unfold enterSettling
  dsimp only
  generalize hs : (if advance = .delivered then
        { s with
          state := .probing 3
          probeCount := 3
          lifecycleDeadline := announceDeadline now 0
          partialAnnounceStreak := 0 }
      else ({ s with
        state := .probing 3
        probeCount := 3
        lifecycleDeadline := announceDeadline now 0 } : Service I R EV).armOnPartialLadder
          now) = s₁
  have hladder : ∃ deadline, s₁.core =
      { s.core with
        state := .probing 3
        lifecycleDeadline := deadline } := by
    rw [← hs]
    split
    · exact ⟨_, rfl⟩
    · exact armOnPartialLadder_core _ now
  obtain ⟨deadline, hcore⟩ := hladder
  cases hadd : checkedAddDuration now probeInterval with
  | none => exact ⟨deadline, hcore, fun _ h => by cases h⟩
  | some settled =>
    refine ⟨some (raiseTo settled s₁.lifecycleDeadline), ?_, ?_⟩
    · exact congrArg (fun c : Core I =>
        { c with lifecycleDeadline := some (raiseTo settled s₁.lifecycleDeadline) }) hcore
    · rintro _ ⟨⟩
      exact ⟨_, rfl, le_raiseTo _ _⟩

theorem advanceProbe_effect (anchor : I) (n : UInt8)
    (delivery : TransmitDelivery) (c : Core I) (hs : c.state = .probing n)
    (hcore : s.core =
      { c with probeOnWire := c.probeOnWire || delivery.anyDelivered }) :
    ConfirmEffect c anchor delivery (s.roundDone delivery) .probe
      (s.advanceProbe anchor n delivery).core := by
  unfold advanceProbe roundDone
  have hdel := classifyAdvance_advances s.partialRounds delivery
  generalize classifyAdvance s.partialRounds delivery = advanced at hdel ⊢
  obtain ⟨advance, rounds⟩ := advanced
  dsimp only at hdel ⊢
  by_cases ha : advance.advances = true
  · rw [ha, Bool.not_true, if_neg Bool.false_ne_true]
    have hd := hdel ha
    rw [hd, Bool.or_true] at hcore
    by_cases hn : n ≥ 2
    · rw [if_pos hn]
      obtain ⟨deadline, hset, hsettle⟩ := ({ s with
        partialRounds := rounds } : Service I R EV).enterSettling_core anchor advance
      have heff : ConfirmEffect c anchor delivery true .probe _ := .probeSettled n hs rfl hd hn deadline
        hsettle
      refine heff.onto (Eq.trans ?_ hset.symm)
      exact congrArg (fun c' : Core I =>
        { c' with
          state := .probing 3
          lifecycleDeadline := deadline }) hcore.symm
    · rw [if_neg hn]
      have hn' : n < 2 := UInt8.not_le.mp hn
      have heff : ConfirmEffect c anchor delivery true .probe _ := .probeAdvanced n hs rfl hd hn'
        (probeDeadline anchor (saturatingSucc8 n) s.rng).1
      refine heff.onto ?_
      rw [← saturatingSucc8_lt_two n hn']
      exact congrArg (fun c' : Core I =>
        { c' with
          state := .probing (saturatingSucc8 n)
          lifecycleDeadline := (probeDeadline anchor (saturatingSucc8 n) s.rng).1 }) hcore.symm
  · have ha' : advance.advances = false := Bool.eq_false_iff.mpr ha
    rw [ha', Bool.not_false, if_pos rfl]
    have heff : ConfirmEffect c anchor delivery false .probe _ := .probeHeld n hs
      (rfl : false = false)
    refine heff.onto ?_
    exact congrArg (fun c' : Core I =>
      { c' with lifecycleDeadline := checkedAddDuration anchor probeInterval }) hcore.symm

theorem settleProbe_effect (anchor : I) (delivery : TransmitDelivery) :
    ConfirmEffect s.core anchor delivery (s.roundDone delivery) .probe
      (s.settleProbe anchor delivery).core := by
  unfold settleProbe
  dsimp only
  split
  · rename_i n hs
    exact advanceProbe_effect ({ s with
      probeOnWire := s.probeOnWire || delivery.anyDelivered } : Service I R EV) anchor n delivery
      s.core hs rfl
  · rename_i hs
    exact .probeElsewhere hs

theorem armAnnouncement_core (now : I) (advance : PhaseAdvance) :
    ∃ deadline, (s.armAnnouncement now advance).core =
        { s.core with lifecycleDeadline := deadline } ∧
      (s.state.isPublished = false → deadline = s.lifecycleDeadline) := by
  unfold armAnnouncement
  dsimp only
  split
  · rename_i hs
    have hpub : s.state.isPublished ≠ false := by
      rw [hs]
      exact Bool.noConfusion
    split
    · exact ⟨none, rfl, fun h => absurd h hpub⟩
    · exact ⟨_, rfl, fun h => absurd h hpub⟩
  · rename_i n hs
    have hpub : s.state.isPublished ≠ false := by
      rw [hs]
      exact Bool.noConfusion
    split
    · exact ⟨_, rfl, fun h => absurd h hpub⟩
    · exact ⟨_, rfl, fun h => absurd h hpub⟩
  · exact ⟨s.lifecycleDeadline, rfl, fun _ => rfl⟩

theorem advanceAnnouncing_core (now : I) :
    ∃ state deadline, (s.advanceAnnouncing now).core =
        { s.core with
          state := state
          lifecycleDeadline := deadline } ∧
      (s.state.isPublished = true → state.isPublished = true) ∧
      (s.state.isPublished = false → state = s.state ∧ deadline = s.lifecycleDeadline) := by
  unfold advanceAnnouncing
  split
  · rename_i n hs
    have hpub : s.state.isPublished ≠ false := by
      rw [hs]
      exact Bool.noConfusion
    split
    · have hnotify := ({ s with
        state := .established
        announceCount := 2 } : Service I R EV).notify_core .established
      generalize ({ s with
        state := .established
        announceCount := 2 } : Service I R EV).notify .established = s₁ at *
      refine ⟨.established, reAnnounceDeadline now s.records.ttlSecs, ?_, fun _ => rfl,
        fun h => absurd h hpub⟩
      exact congrArg (fun c : Core I => { c with
        lifecycleDeadline := reAnnounceDeadline now s.records.ttlSecs }) hnotify
    · exact ⟨.announcing (saturatingSucc8 n), _, rfl, fun _ => rfl, fun h => absurd h hpub⟩
  · exact ⟨s.state, s.lifecycleDeadline, rfl, id, fun _ => ⟨rfl, rfl⟩⟩

/-- The phase and deadline an announcement leaves, with the rest of the core untouched. -/
def Paced (c c' : Core I) : Prop :=
  ∃ state deadline, c' = { c with
      state := state
      lifecycleDeadline := deadline } ∧
    (c.state.isPublished = true → state.isPublished = true) ∧
    (c.state.isPublished = false → state = c.state ∧ deadline = c.lifecycleDeadline)

theorem Paced.refl (c : Core I) : Paced c c :=
  ⟨c.state, c.lifecycleDeadline, rfl, id, fun _ => ⟨rfl, rfl⟩⟩

theorem Paced.trans (c₁ c₂ c₃ : Core I) (h₁ : Paced c₁ c₂) (h₂ : Paced c₂ c₃) : Paced c₁ c₃ := by
  obtain ⟨st₁, d₁, rfl, hp₁, hk₁⟩ := h₁
  obtain ⟨st₂, d₂, rfl, hp₂, hk₂⟩ := h₂
  refine ⟨st₂, d₂, rfl, fun h => hp₂ (hp₁ h), fun h => ?_⟩
  obtain ⟨rfl, rfl⟩ := hk₁ h
  exact hk₂ h

theorem armAnnouncement_paced (now : I) (advance : PhaseAdvance) :
    Paced s.core (s.armAnnouncement now advance).core := by
  obtain ⟨deadline, hcore, hk⟩ := s.armAnnouncement_core now advance
  exact ⟨s.state, deadline, hcore, id, fun h => ⟨rfl, hk h⟩⟩

theorem advanceAnnouncing_paced (now : I) :
    Paced s.core (s.advanceAnnouncing now).core := s.advanceAnnouncing_core now

theorem retryAnnouncement_paced (now : I) :
    Paced s.core (s.retryAnnouncement now).core := by
  unfold retryAnnouncement
  split
  · rename_i hp
    exact ⟨s.state, announceDeadline now 1, rfl, id, fun h => absurd hp (Bool.eq_false_iff.mp h)⟩
  · exact .refl _

theorem settleAnnouncement_lost (anchor : I) (emitted : EmittedRecords)
    (delivery : TransmitDelivery) (h : delivery.anyDelivered = false) :
    (s.settleAnnouncement anchor emitted delivery).state = s.state := by
  have hfailed := (classifyAdvance_failed s.partialRounds delivery).mpr h
  unfold settleAnnouncement classifyAnnouncement
  generalize classifyAdvance s.partialRounds delivery = advanced at hfailed ⊢
  obtain ⟨advance, rounds⟩ := advanced
  dsimp only at hfailed ⊢
  rw [if_pos hfailed]
  unfold retryAnnouncement
  split <;> rfl

theorem settleAnnouncement_effect (anchor : I) (emitted : EmittedRecords)
    (delivery : TransmitDelivery) :
    ConfirmEffect s.core anchor delivery (s.roundDone delivery) (.announcement emitted)
      (s.settleAnnouncement anchor emitted delivery).core := by
  -- whatever the branch, the ledger is credited and then the phase is paced
  suffices h : Paced { s.core with goodbye := s.goodbye.credited emitted delivery .multicast }
      (s.settleAnnouncement anchor emitted delivery).core by
    have hlost := s.settleAnnouncement_lost anchor emitted delivery
    obtain ⟨state, deadline, hcore, hp, hk⟩ := h
    rw [hcore]
    exact .announced emitted state deadline hp hk fun hd =>
      (congrArg Core.state hcore).symm.trans (hlost hd)
  have hfailed := classifyAdvance_failed s.partialRounds delivery
  unfold settleAnnouncement classifyAnnouncement
  generalize classifyAdvance s.partialRounds delivery = advanced at hfailed ⊢
  obtain ⟨advance, rounds⟩ := advanced
  dsimp only at hfailed ⊢
  generalize hs₁ : ({ s with
    partialRounds := rounds
    lastDelivered := s.lastDelivered.zipWith (deliveryAnchor anchor) delivery.families } :
      Service I R EV) = s₁
  have hcore₁ : s₁.core = s.core := by
    rw [← hs₁]
    rfl
  by_cases hf : advance = .failed
  · rw [if_pos hf]
    have hd : delivery.anyDelivered = false := hfailed.mp hf
    have hpaced := s₁.retryAnnouncement_paced anchor
    rw [hcore₁] at hpaced
    rw [GoodbyeOwnership.credited, hd, if_neg Bool.false_ne_true]
    exact hpaced
  · rw [if_neg hf]
    have hd : delivery.anyDelivered = true := by
      cases h : delivery.anyDelivered with
      | true => rfl
      | false => exact absurd (hfailed.mpr h) hf
    rw [GoodbyeOwnership.credited, hd, if_pos rfl]
    have hcredit : (s₁.creditEmitted emitted delivery .multicast).core =
        { s.core with
          goodbye := s.goodbye.recordEmitted emitted delivery.deliveredOn .multicast } := by
      rw [← hs₁]
      rfl
    rw [← hcredit]
    generalize s₁.creditEmitted emitted delivery .multicast = s₂
    by_cases hpart : advance = .partial_
    · rw [if_pos hpart]
      exact s₂.armAnnouncement_paced anchor advance
    · rw [if_neg hpart]
      have hfull : ∀ s₃ : Service I R EV, s₃.core = s₂.core →
          Paced s₂.core (if advance.advancesWithoutDelivery then
            ((s₃.advanceAnnouncing anchor).armAnnouncement anchor advance).climbPartialLadder
            else (s₃.advanceAnnouncing anchor).armAnnouncement anchor advance).core := by
        intro s₃ hs₃
        have hpaced := (s₃.advanceAnnouncing_paced anchor).trans _ _ _
          ((s₃.advanceAnnouncing anchor).armAnnouncement_paced anchor advance)
        rw [hs₃] at hpaced
        split
        · exact hpaced
        · exact hpaced
      apply hfull
      split <;> rfl

theorem settleResponse_effect (anchor : I) (emitted : EmittedRecords)
    (cls : SendClass) (delivery : TransmitDelivery) (advances : Bool) :
    ConfirmEffect s.core anchor delivery advances (.response emitted cls)
      (s.settleResponse emitted cls delivery).core := by
  refine (ConfirmEffect.responded emitted cls).onto ?_
  unfold settleResponse GoodbyeOwnership.credited
  split <;> rfl

theorem addToHandoff_core (records : ServiceRecords)
    (owned multicast : PerFamily EmittedRecords) :
    (s.addToHandoff records owned multicast).core = s.core := by
  unfold addToHandoff
  split <;> rfl

theorem settleStale_effect (anchor : I) (fact : StaleWireFact)
    (records : StaleRecords) (delivery : TransmitDelivery) (advances : Bool) :
    ConfirmEffect s.core anchor delivery advances (.stale fact records)
      (s.settleStale records delivery).core := by
  unfold settleStale
  cases records with
  | none =>
    refine (ConfirmEffect.staleEmpty fact).onto ?_
    split <;> rfl
  | sameName emitted cls =>
    refine (ConfirmEffect.staleSame fact emitted cls).onto ?_
    unfold GoodbyeOwnership.credited
    cases delivery.anyDelivered <;> rfl
  | oldName records emitted cls =>
    refine (ConfirmEffect.staleOld fact records emitted cls).onto ?_
    unfold GoodbyeOwnership.creditedHost
    cases delivery.anyDelivered with
    | false => rfl
    | true =>
      rw [if_pos rfl, Bool.not_true, if_neg Bool.false_ne_true]
      dsimp only
      split
      · rfl
      · rw [addToHandoff_core]
        rfl

theorem settleConfirm_effect (anchor : I) (kind : AwaitingConfirm)
    (delivery : TransmitDelivery) :
    ConfirmEffect s.core anchor delivery (s.roundDone delivery) kind
      (s.settleConfirm anchor kind delivery).core := by
  cases kind with
  | probe => exact s.settleProbe_effect anchor delivery
  | announcement emitted => exact s.settleAnnouncement_effect anchor emitted delivery
  | response emitted cls => exact s.settleResponse_effect anchor emitted cls delivery _
  | metaResponse => exact .metaReply
  | stale fact records => exact s.settleStale_effect anchor fact records delivery _

theorem noteTransmitOutcome_effect (now : I) (v4 v6 : FamilyAttempt I) :
    (s.awaitingConfirm = none ∧ (s.noteTransmitOutcome now v4 v6).1 = s) ∨
      ∃ kind, s.awaitingConfirm = some kind ∧
        ConfirmEffect { s.core with awaitingConfirm := none } (FamilyAttempt.anchor v4 v6 now)
          (FamilyAttempt.project v4 v6) (s.roundDone (FamilyAttempt.project v4 v6)) kind
          (s.noteTransmitOutcome now v4 v6).1.core := by
  unfold noteTransmitOutcome
  cases hk : s.awaitingConfirm with
  | none => exact .inl ⟨rfl, rfl⟩
  | some kind =>
    exact .inr ⟨kind, rfl, settleConfirm_effect ({ s with
      awaitingConfirm := none } : Service I R EV) _ kind _⟩

end Service
end Hick
