import Mathlib
import Hick.Service.WindowEnd

/-!
# How soon a family is refreshed (service/schedule.rs:162-173, 313-362, 516-519)

After a confirmed announcement the next one is due on the phase's own schedule, sooner where a
family in good standing needs it, and never within a second.
-/

set_option linter.unusedSectionVars false

namespace Hick
open Octets Wire Respond Runs

section
variable {I : Type} [Instant I]

def floored (floor : Option I) (capped : I) : Option I :=
  match floor with
  | some floor => if capped < floor then some floor else some capped
  | none => some capped

theorem floored_some (floor : Option I) (capped : I) : ∃ d, floored floor capped = some d := by
  unfold floored
  cases floor with
  | none => exact ⟨_, rfl⟩
  | some floor =>
    dsimp only
    split
    · exact ⟨_, rfl⟩
    · exact ⟨_, rfl⟩

theorem composeAnnounceDeadline_eq_none_iff (now : I) (base due : Option I) :
    composeAnnounceDeadline now base due = none ↔ base = none := by
  unfold composeAnnounceDeadline
  cases base with
  | none => simp
  | some base =>
    refine iff_of_false ?_ fun h => by cases h
    intro hnone
    change floored _ _ = none at hnone
    obtain ⟨d, hd⟩ := floored_some (announceDeadline now 1) _
    rw [hd] at hnone
    cases hnone

theorem composeAnnounceDeadline_bounds (now : I) (base due : Option I) (d : I)
    (h : composeAnnounceDeadline now base due = some d) :
    (∀ floor, announceDeadline now 1 = some floor → floor ≤ d) ∧
      (∀ b, base = some b → d ≤ b ∨ announceDeadline now 1 = some d) ∧
      ∀ x, due = some x → d ≤ x ∨ announceDeadline now 1 = some d := by
  cases base with
  | none => cases h
  | some b =>
    have hcapped : ∃ capped, capped ≤ b ∧ (∀ x, due = some x → capped ≤ x) ∧
        floored (announceDeadline now 1) capped = some d := by
      refine ⟨_, ?_, ?_, h⟩
      · split
        · split
          · rename_i hlt
            exact le_of_lt hlt
          · exact le_refl _
        · exact le_refl _
      · rintro x rfl
        dsimp only
        split
        · exact le_refl _
        · rename_i hge
          exact not_lt.mp hge
    obtain ⟨capped, hb, hx, hd⟩ := hcapped
    cases hfloor : announceDeadline now 1 with
    | none =>
      rw [hfloor] at hd
      cases hd
      refine ⟨(fun _ h => by cases h), ?_, fun x hdue => .inl (hx x hdue)⟩
      rintro _ ⟨⟩
      exact .inl hb
    | some floor =>
      rw [hfloor] at hd
      dsimp only [floored] at hd
      split at hd
      · cases hd
        refine ⟨?_, fun _ _ => .inr rfl, fun _ _ => .inr rfl⟩
        rintro _ ⟨⟩
        exact le_refl _
      · rename_i hge
        cases hd
        refine ⟨?_, ?_, fun x hdue => .inl (hx x hdue)⟩
        · rintro _ ⟨⟩
          exact not_lt.mp hge
        · rintro _ ⟨⟩
          exact .inl hb

theorem stalestRefreshDue_le (last : PerFamily (Option I)) (patience : PerFamily FamilyPatience)
    (ttlSecs : UInt32) (f : Family) (a x : I) (hgood : (f.pick patience).inGoodStanding = true)
    (ha : f.pick last = some a) (hx : reAnnounceDeadline a ttlSecs = some x) :
    ∃ y, stalestRefreshDue last patience ttlSecs = some y ∧ y ≤ x := by
  unfold stalestRefreshDue earliest
  cases f with
  | v4 =>
    have ha' : last.v4 = some a := ha
    have hgood' : patience.v4.inGoodStanding = true := hgood
    simp only [ha', hgood', if_true, Option.bind_some, hx]
    split
    · rename_i h4 h6
      cases h4
      exact ⟨_, rfl, min_le_left _ _⟩
    · rename_i h4 h6
      cases h4
      exact ⟨_, rfl, le_refl _⟩
    · rename_i h4
      cases h4
  | v6 =>
    have ha' : last.v6 = some a := ha
    have hgood' : patience.v6.inGoodStanding = true := hgood
    simp only [ha', hgood', if_true, Option.bind_some, hx]
    split
    · rename_i h4 h6
      cases h6
      exact ⟨_, rfl, min_le_right _ _⟩
    · rename_i h4 h6
      cases h6
    · exact ⟨_, rfl, le_refl _⟩

end

section
variable {I : Type} [Instant I] [LawfulInstant I]

theorem second_le_reAnnounce (now : I) (ttlSecs : UInt32) (floor d : I)
    (hf : announceDeadline now 1 = some floor) (hd : reAnnounceDeadline now ttlSecs = some d) :
    floor ≤ d := by
  refine LawfulInstant.add_mono now now floor d _ _ (le_refl _) ?_ hf hd
  have hsecs : announceIntervalSecs ≤ max (periodicRefreshSecs ttlSecs) announceIntervalSecs :=
    le_max_right _ _
  exact Nat.mul_le_mul_right _ hsecs

theorem second_le_partial (now : I) (streak : UInt8) (ttlSecs : UInt32) (floor d : I)
    (hf : announceDeadline now 1 = some floor)
    (hd : partialAnnounceDeadline now streak ttlSecs = some d) : floor ≤ d := by
  refine LawfulInstant.add_mono now now floor d _ _ (le_refl _) ?_ hf hd
  have hrung : 1 ≤ announceIntervalSecs * 2 ^ min streak.toNat maxPartialAnnounceShift := by
    have hpow := Nat.one_le_two_pow (n := min streak.toNat maxPartialAnnounceShift)
    simp only [announceIntervalSecs]
    omega
  have hcap : 1 ≤ max (periodicRefreshSecs ttlSecs) announceIntervalSecs := le_max_right _ _
  exact Nat.mul_le_mul_right _ (le_min hrung hcap)

end

theorem classifyAdvance_standing (patience : PerFamily FamilyPatience)
    (delivery : TransmitDelivery) (f : Family) (hmiss : f.pick delivery.families = .missed)
    (h : (f.pick (classifyAdvance patience delivery).2).inGoodStanding = true) :
    (f.pick patience).inGoodStanding = true := by
  have hround : (FamilyPatience.afterRound (f.pick patience) .missed).stalled =
      (f.pick patience).stalled := by
    simp only [FamilyPatience.afterRound]
    split <;> rfl
  have hadvance : ∀ p : FamilyPatience, p.afterAdvance.stalled = false → p.stalled = false := by
    intro p hp
    exact (Bool.or_eq_false_iff.mp hp).1
  unfold FamilyPatience.inGoodStanding at h ⊢
  rw [Bool.not_eq_true'] at h ⊢
  unfold classifyAdvance at h
  split at h
  · rw [Family.pick_zipWith, hmiss] at h
    exact h
  · rw [← hround, ← hmiss]
    dsimp only at h
    split at h
    · rw [Family.pick_map, Family.pick_zipWith] at h
      exact hadvance _ h
    · split at h
      · rw [Family.pick_map, Family.pick_zipWith] at h
        exact hadvance _ h
      · split at h
        · rw [Family.pick_map, Family.pick_zipWith] at h
          exact hadvance _ h
        · rw [Family.pick_zipWith] at h
          exact h

namespace Service
variable {I R : Type} {EV : Type → Type} [Instant I] [SeedableRng R] [Pool EV]

/-- The phase's own schedule after a round some family took: a second after the first
announcement, the rung of the partial ladder while families are missing, and the periodic refresh
once established. -/
def roundSchedule (s : Service I R EV) (now : I) (delivery : TransmitDelivery) : Option I :=
  let advance := (classifyAdvance s.partialRounds delivery).1
  let ladder := partialAnnounceDeadline now s.partialAnnounceStreak s.records.ttlSecs
  match s.state with
  | .established => reAnnounceDeadline now s.records.ttlSecs
  | .announcing n =>
    if advance = .partial_ then ladder
    else if n ≥ 1 then reAnnounceDeadline now s.records.ttlSecs
    else if advance ≠ .delivered ∧ s.partialAnnounceStreak > 0 then ladder
    else announceDeadline now 1
  | _ => none

structure RoundClosed (s s' : Service I R EV) (now : I) (delivery : TransmitDelivery) : Prop where
  published : s'.state.isPublished = true
  patience : s'.partialRounds = (classifyAdvance s.partialRounds delivery).2
  anchors : s'.lastDelivered = s.lastDelivered.zipWith (deliveryAnchor now) delivery.families
  records : s'.records = s.records
  retried : delivery.anyDelivered = false → s'.lifecycleDeadline = announceDeadline now 1
  /-- Some family took the round. -/
  composed : delivery.anyDelivered = true → s.reAnnounce = true →
    s'.lifecycleDeadline = composeAnnounceDeadline now (s.roundSchedule now delivery)
      (stalestRefreshDue s'.lastDelivered s'.partialRounds s.records.ttlSecs)

variable (s : Service I R EV)

theorem armAnnouncement_established (now : I) (advance : PhaseAdvance)
    (hs : s.state = .established) (hre : s.reAnnounce = true) :
    (s.armAnnouncement now advance).lifecycleDeadline =
      composeAnnounceDeadline now (reAnnounceDeadline now s.records.ttlSecs)
        (stalestRefreshDue s.lastDelivered s.partialRounds s.records.ttlSecs) := by
  unfold armAnnouncement
  rw [hs]
  dsimp only
  rw [hre]
  rfl

theorem armAnnouncement_announcing (n : UInt8) (now : I)
    (advance : PhaseAdvance) (hs : s.state = .announcing n) :
    (s.armAnnouncement now advance).lifecycleDeadline =
      composeAnnounceDeadline now
        (if s.onPartialLadder advance then
          partialAnnounceDeadline now s.partialAnnounceStreak s.records.ttlSecs
        else s.lifecycleDeadline)
        (stalestRefreshDue s.lastDelivered s.partialRounds s.records.ttlSecs) := by
  unfold armAnnouncement
  rw [hs]
  dsimp only
  split <;> rfl

theorem armAnnouncement_keeps (now : I) (advance : PhaseAdvance) :
    ∃ deadline, s.armAnnouncement now advance = { s with lifecycleDeadline := deadline } := by
  unfold armAnnouncement
  dsimp only
  split
  · split <;> exact ⟨_, rfl⟩
  · split <;> exact ⟨_, rfl⟩
  · exact ⟨s.lifecycleDeadline, rfl⟩

theorem advanceAnnouncing_armed (now : I) (advance : PhaseAdvance)
    (hpub : s.state.isPublished = true) (hre : s.reAnnounce = true) :
    ((s.advanceAnnouncing now).armAnnouncement now advance).lifecycleDeadline =
      composeAnnounceDeadline now
        (match s.state with
          | .announcing n =>
            if n ≥ 1 then reAnnounceDeadline now s.records.ttlSecs
            else if s.onPartialLadder advance then
              partialAnnounceDeadline now s.partialAnnounceStreak s.records.ttlSecs
            else announceDeadline now 1
          | _ => reAnnounceDeadline now s.records.ttlSecs)
        (stalestRefreshDue s.lastDelivered s.partialRounds s.records.ttlSecs) := by
  cases hs : s.state with
  | init =>
    rw [hs] at hpub
    cases hpub
  | probing n =>
    rw [hs] at hpub
    cases hpub
  | conflicting =>
    rw [hs] at hpub
    cases hpub
  | established =>
    unfold advanceAnnouncing
    rw [hs]
    exact s.armAnnouncement_established now advance hs hre
  | announcing n =>
    unfold advanceAnnouncing
    rw [hs]
    dsimp only
    by_cases hn : n ≥ 1
    · rw [if_pos hn, if_pos hn, notify_eq]
      exact armAnnouncement_established _ now advance rfl hre
    · rw [if_neg hn, if_neg hn]
      have hzero : n = 0 := by
        refine UInt8.toNat_inj.mp ?_
        have hlt : n.toNat < 1 := Nat.lt_of_not_le fun h => hn (UInt8.le_iff_toNat_le.mpr h)
        exact Nat.lt_one_iff.mp hlt
      subst hzero
      rw [armAnnouncement_announcing _ (saturatingSucc8 0) now advance rfl]
      rfl

theorem advanceAnnouncing_keeps (now : I)
    (hpub : s.state.isPublished = true) :
    (s.advanceAnnouncing now).state.isPublished = true ∧
      (s.advanceAnnouncing now).partialRounds = s.partialRounds ∧
      (s.advanceAnnouncing now).lastDelivered = s.lastDelivered ∧
      (s.advanceAnnouncing now).records = s.records := by
  unfold advanceAnnouncing
  split
  · split
    · rw [notify_eq]
      exact ⟨rfl, rfl, rfl, rfl⟩
    · exact ⟨rfl, rfl, rfl, rfl⟩
  · exact ⟨hpub, rfl, rfl, rfl⟩

theorem settleAnnouncement_closes (now : I) (emitted : EmittedRecords)
    (delivery : TransmitDelivery) (hpub : s.state.isPublished = true) :
    s.RoundClosed (s.settleAnnouncement now emitted delivery) now delivery := by
  have hfailed := classifyAdvance_failed s.partialRounds delivery
  unfold settleAnnouncement classifyAnnouncement
  cases hc : classifyAdvance s.partialRounds delivery with
  | mk advance rounds =>
    rw [hc] at hfailed
    dsimp only at hfailed ⊢
    have hrounds : rounds = (classifyAdvance s.partialRounds delivery).2 := by rw [hc]
    by_cases hf : advance = .failed
    · rw [if_pos hf]
      have hnone := hfailed.mp hf
      unfold retryAnnouncement
      rw [if_pos (show ServiceState.isPublished _ = true from hpub)]
      exact ⟨hpub, hrounds, rfl, rfl, fun _ => rfl, fun h => by rw [hnone] at h; cases h⟩
    · rw [if_neg hf]
      have hany : delivery.anyDelivered ≠ false := fun hd => hf (hfailed.mpr hd)
      by_cases hp : advance = .partial_
      · rw [if_pos hp]
        generalize hcr : creditEmitted _ emitted delivery .multicast = c
        have hstate : c.state = s.state := by rw [← hcr]; rfl
        have hre' : c.reAnnounce = s.reAnnounce := by rw [← hcr]; rfl
        obtain ⟨deadline, harm⟩ := c.armAnnouncement_keeps now advance
        have hsame : (c.armAnnouncement now advance).climbPartialLadder.lifecycleDeadline =
            (c.armAnnouncement now advance).lifecycleDeadline := rfl
        refine ⟨?_, ?_, ?_, ?_, fun hd => absurd hd hany, fun _ hre => ?_⟩
        · rw [harm]
          exact (congrArg ServiceState.isPublished hstate).trans hpub
        · rw [harm, ← hcr]
          exact hrounds
        · rw [harm, ← hcr]
          rfl
        · rw [harm, ← hcr]
          rfl
        · rw [hsame]
          have hparts : (c.armAnnouncement now advance).climbPartialLadder.lastDelivered =
              c.lastDelivered ∧ (c.armAnnouncement now advance).climbPartialLadder.partialRounds =
                c.partialRounds := by
            rw [harm]
            exact ⟨rfl, rfl⟩
          rw [hparts.1, hparts.2]
          have hrec : c.records = s.records := by rw [← hcr]; rfl
          have hstreak : c.partialAnnounceStreak = s.partialAnnounceStreak := by rw [← hcr]; rfl
          unfold roundSchedule
          rw [hc, hp]
          cases hs : s.state with
          | established =>
            rw [c.armAnnouncement_established now .partial_ (hstate.trans hs) (hre'.trans hre), hrec]
          | announcing n =>
            rw [c.armAnnouncement_announcing n now .partial_ (hstate.trans hs), hrec, hstreak]
            rfl
          | init =>
            rw [hs] at hpub
            cases hpub
          | probing n =>
            rw [hs] at hpub
            cases hpub
          | conflicting =>
            rw [hs] at hpub
            cases hpub
      · rw [if_neg hp]
        generalize hcr : (if advance = .delivered then _ else creditEmitted _ emitted delivery
          .multicast : Service I R EV) = c
        have hstate : c.state = s.state := by
          rw [← hcr]
          split <;> rfl
        have hre' : c.reAnnounce = s.reAnnounce := by
          rw [← hcr]
          split <;> rfl
        have hrec : c.records = s.records := by
          rw [← hcr]
          split <;> rfl
        have hpatience : c.partialRounds = rounds := by
          rw [← hcr]
          split <;> rfl
        have hanchors : c.lastDelivered =
            s.lastDelivered.zipWith (deliveryAnchor now) delivery.families := by
          rw [← hcr]
          split <;> rfl
        have hstreak : c.partialAnnounceStreak =
            if advance = .delivered then 0 else s.partialAnnounceStreak := by
          rw [← hcr]
          split <;> rfl
        have hpub' : c.state.isPublished = true := by rw [hstate]; exact hpub
        obtain ⟨hpub₂, hround₂, hlast₂, hrec₂⟩ := c.advanceAnnouncing_keeps now hpub'
        obtain ⟨deadline, harm⟩ := (c.advanceAnnouncing now).armAnnouncement_keeps now advance
        have hclimb : ∀ r : Service I R EV, ∃ streak, (if advance.advancesWithoutDelivery = true then
            r.climbPartialLadder else r) = { r with partialAnnounceStreak := streak } := by
          intro r
          split
          · exact ⟨_, rfl⟩
          · exact ⟨r.partialAnnounceStreak, rfl⟩
        obtain ⟨streak, hfinal⟩ := hclimb ((c.advanceAnnouncing now).armAnnouncement now advance)
        rw [hfinal]
        refine ⟨?_, ?_, ?_, ?_, fun hd => absurd hd hany, fun _ hre => ?_⟩
        · rw [harm]
          exact hpub₂
        · rw [harm]
          exact hround₂.trans (hpatience.trans hrounds)
        · rw [harm]
          exact hlast₂.trans hanchors
        · rw [harm]
          exact hrec₂.trans hrec
        · have hlast₃ : ((c.advanceAnnouncing now).armAnnouncement now advance).lastDelivered =
              c.lastDelivered := by
            rw [harm]
            exact hlast₂
          have hround₃ : ((c.advanceAnnouncing now).armAnnouncement now advance).partialRounds =
              c.partialRounds := by
            rw [harm]
            exact hround₂
          change ((c.advanceAnnouncing now).armAnnouncement now advance).lifecycleDeadline = _
          rw [c.advanceAnnouncing_armed now advance hpub' (hre'.trans hre), hrec]
          dsimp only
          rw [hlast₃, hround₃]
          congr 1
          unfold roundSchedule
          rw [hc, hstate]
          dsimp only
          cases hs : s.state with
          | established => rfl
          | announcing n =>
            dsimp only
            rw [if_neg hp]
            have hladder : c.onPartialLadder advance = true ↔
                advance ≠ .delivered ∧ s.partialAnnounceStreak > 0 := by
              unfold onPartialLadder
              rw [hstreak]
              cases advance with
              | delivered => simp
              | covered => simp
              | excused => simp
              | partial_ => exact absurd rfl hp
              | failed => exact absurd rfl hf
            by_cases hl : c.onPartialLadder advance = true
            · have hl' := hladder.mp hl
              rw [if_pos hl, if_pos hl', hstreak, if_neg hl'.1]
            · rw [if_neg hl, if_neg fun h => hl (hladder.mpr h)]
          | init =>
            rw [hs] at hpub
            cases hpub
          | probing n =>
            rw [hs] at hpub
            cases hpub
          | conflicting =>
            rw [hs] at hpub
            cases hpub

theorem second_le_roundSchedule [LawfulInstant I] (s : Service I R EV) (now floor d : I)
    (delivery : TransmitDelivery) (hf : announceDeadline now 1 = some floor)
    (hd : s.roundSchedule now delivery = some d) : floor ≤ d := by
  unfold roundSchedule at hd
  cases hs : s.state with
  | established =>
    rw [hs] at hd
    exact second_le_reAnnounce now _ floor d hf hd
  | announcing n =>
    rw [hs] at hd
    dsimp only at hd
    split at hd
    · exact second_le_partial now _ _ floor d hf hd
    · split at hd
      · exact second_le_reAnnounce now _ floor d hf hd
      · split at hd
        · exact second_le_partial now _ _ floor d hf hd
        · rw [hf] at hd
          cases hd
          exact le_refl _
  | init =>
    rw [hs] at hd
    cases hd
  | probing n =>
    rw [hs] at hd
    cases hd
  | conflicting =>
    rw [hs] at hd
    cases hd

theorem noteTransmitOutcome_anchors (now : I) (v4 v6 : FamilyAttempt I)
    (h : ∀ e, s.awaitingConfirm ≠ some (.announcement e)) :
    (s.noteTransmitOutcome now v4 v6).1.lastDelivered = s.lastDelivered ∧
      (s.noteTransmitOutcome now v4 v6).1.reAnnounce = s.reAnnounce ∧
      (s.state.isPublished = true →
        (s.noteTransmitOutcome now v4 v6).1.partialRounds = s.partialRounds) := by
  have hladder : ∀ (s : Service I R EV) now,
      (s.armOnPartialLadder now).lastDelivered = s.lastDelivered ∧
        (s.armOnPartialLadder now).reAnnounce = s.reAnnounce := by
    intro s now
    unfold armOnPartialLadder
    split <;> exact ⟨rfl, rfl⟩
  have hsettling : ∀ (s : Service I R EV) now advance,
      (s.enterSettling now advance).lastDelivered = s.lastDelivered ∧
        (s.enterSettling now advance).reAnnounce = s.reAnnounce := by
    intro s now advance
    have hstreak : ∀ s : Service I R EV, (if advance = .delivered then
        { s with partialAnnounceStreak := 0 } else s.armOnPartialLadder now).lastDelivered =
          s.lastDelivered ∧ (if advance = .delivered then
        { s with partialAnnounceStreak := 0 } else s.armOnPartialLadder now).reAnnounce =
          s.reAnnounce := by
      intro s
      split
      · exact ⟨rfl, rfl⟩
      · exact hladder s now
    unfold enterSettling
    dsimp only
    split
    · exact hstreak _
    · exact hstreak _
  unfold noteTransmitOutcome
  cases hk : s.awaitingConfirm with
  | none => exact ⟨rfl, rfl, fun _ => rfl⟩
  | some kind =>
    dsimp only
    cases kind with
    | probe =>
      unfold settleConfirm settleProbe
      dsimp only
      split
      · rename_i n hs
        have hunpub : s.state.isPublished ≠ true := by
          rw [show s.state = .probing n from hs]
          exact Bool.false_ne_true
        unfold advanceProbe
        dsimp only
        split
        · exact ⟨rfl, rfl, fun hp => absurd hp hunpub⟩
        · split
          · exact ⟨(hsettling _ _ _).1, (hsettling _ _ _).2, fun hp => absurd hp hunpub⟩
          · exact ⟨rfl, rfl, fun hp => absurd hp hunpub⟩
      · exact ⟨rfl, rfl, fun _ => rfl⟩
    | announcement e => exact absurd hk (h e)
    | response e cls =>
      unfold settleConfirm settleResponse
      dsimp only
      split <;> exact ⟨rfl, rfl, fun _ => rfl⟩
    | metaResponse => exact ⟨rfl, rfl, fun _ => rfl⟩
    | stale fact records =>
      unfold settleConfirm settleStale
      dsimp only
      split
      · exact ⟨rfl, rfl, fun _ => rfl⟩
      · split
        · exact ⟨rfl, rfl, fun _ => rfl⟩
        · exact ⟨rfl, rfl, fun _ => rfl⟩
        · split
          · exact ⟨rfl, rfl, fun _ => rfl⟩
          · unfold addToHandoff
            split <;> exact ⟨rfl, rfl, fun _ => rfl⟩

theorem settleAnnouncement_reAnnounce (now : I) (emitted : EmittedRecords)
    (delivery : TransmitDelivery) :
    (s.settleAnnouncement now emitted delivery).reAnnounce = s.reAnnounce := by
  have harm : ∀ (s : Service I R EV) advance,
      (s.armAnnouncement now advance).reAnnounce = s.reAnnounce := by
    intro s advance
    obtain ⟨deadline, h⟩ := s.armAnnouncement_keeps now advance
    rw [h]
  have hadvance : ∀ s : Service I R EV, (s.advanceAnnouncing now).reAnnounce = s.reAnnounce := by
    intro s
    unfold advanceAnnouncing
    split
    · split
      · rw [notify_eq]
      · rfl
    · rfl
  unfold settleAnnouncement classifyAnnouncement
  dsimp only
  split
  · unfold retryAnnouncement
    split <;> rfl
  · split
    · exact harm _ _
    · split
      · refine (harm _ _).trans ((hadvance _).trans ?_)
        split <;> rfl
      · refine (harm _ _).trans ((hadvance _).trans ?_)
        split <;> rfl

end Service

/-- The rounds of a published stretch: when the first and the last were confirmed, and when the
next falls due. -/
structure Cadence (I : Type) where
  first : I
  last : I
  armed : Option I

namespace Session
variable {I R : Type} {EV : Type → Type} [Instant I] [SeedableRng R] [Pool EV]

def round (s : Session I R EV) (e : Timed I) : Option (Confirmed I) :=
  match s.confirm e with
  | some r =>
    match r.token with
    | .announcement _ => some r
    | _ => none
  | none => none

def noteRound (k : Option (Cadence I)) (t : Transition (Session I R EV) (Timed I)) :
    Option (Cadence I) :=
  match t.pre.round t.call with
  | some r => some ⟨(k.map (·.first)).getD r.anchor, r.anchor, t.post.service.lifecycleDeadline⟩
  | none => if t.post.service.state.isPublished then k else none

def cadence (ts : List (Transition (Session I R EV) (Timed I))) : Option (Cadence I) :=
  summary noteRound none ts

variable (s : Session I R EV) (e : Timed I)

theorem round_outcome (r : Confirmed I)
    (h : s.round e = some r) :
    ∃ v4 v6 emitted, e.call = .outcome v4 v6 ∧
      s.service.awaitingConfirm = some (.announcement emitted) ∧
      r = ⟨.announcement emitted, FamilyAttempt.anchor v4 v6 e.now, FamilyAttempt.project v4 v6⟩ := by
  unfold round at h
  cases hc : s.confirm e with
  | none =>
    rw [hc] at h
    cases h
  | some r' =>
    rw [hc] at h
    dsimp only at h
    unfold confirm at hc
    cases he : e.call with
    | outcome v4 v6 =>
      rw [he] at hc
      obtain ⟨token, htoken, rfl⟩ := Option.map_eq_some_iff.mp hc
      cases token with
      | announcement emitted =>
        cases h
        exact ⟨v4, v6, emitted, rfl, htoken, rfl⟩
      | probe => cases h
      | response e cls => cases h
      | metaResponse => cases h
      | stale fact records => cases h
    | event event flood =>
      rw [he] at hc
      cases hc
    | timeout flood taken =>
      rw [he] at hc
      cases hc
    | poll flood buf =>
      rw [he] at hc
      cases hc
    | update =>
      rw [he] at hc
      cases hc
    | withdraw =>
      rw [he] at hc
      cases hc

theorem round_none (now : I) (v4 v6 : FamilyAttempt I)
    (h : s.round ⟨now, .outcome v4 v6⟩ = none) (emitted : EmittedRecords) :
    s.service.awaitingConfirm ≠ some (.announcement emitted) := by
  intro hk
  unfold round confirm at h
  rw [hk] at h
  cases h

theorem next_round (r : Confirmed I)
    (hr : s.round e = some r) (hpub : s.service.state.isPublished = true) :
    s.service.RoundClosed (s.next e).service r.anchor r.delivery := by
  obtain ⟨v4, v6, emitted, he, hk, rfl⟩ := s.round_outcome e r hr
  have hserved : s.served e = ({ s.service with awaitingConfirm := none } : Service I R
      EV).settleAnnouncement (FamilyAttempt.anchor v4 v6 e.now) emitted
        (FamilyAttempt.project v4 v6) := by
    unfold served
    rw [he]
    change (s.service.noteTransmitOutcome e.now v4 v6).1 = _
    unfold Service.noteTransmitOutcome
    rw [hk]
    rfl
  have hclosed := ({ s.service with awaitingConfirm := none } : Service I R
    EV).settleAnnouncement_closes (FamilyAttempt.anchor v4 v6 e.now) emitted
      (FamilyAttempt.project v4 v6) hpub
  rw [← hserved] at hclosed
  exact ⟨hclosed.published, hclosed.patience, hclosed.anchors, hclosed.records, hclosed.retried,
    hclosed.composed⟩

structure Unpaced (s s' : Service I R EV) : Prop where
  reAnnounce : s'.reAnnounce = s.reAnnounce
  anchors : ∀ (f : Family) a, f.pick s'.lastDelivered = some a → f.pick s.lastDelivered = some a
  same : s.state.isPublished = true → s'.state.isPublished = true →
    s'.lastDelivered = s.lastDelivered ∧ s'.partialRounds = s.partialRounds

theorem Unpaced.of_kept (s s' : Service I R EV) (h : s'.kept = s.kept) : Unpaced s s' := by
  obtain ⟨-, hkept⟩ := Prod.mk.inj h
  obtain ⟨hre, hkept⟩ := Prod.mk.inj hkept
  obtain ⟨hrounds, hkept⟩ := Prod.mk.inj hkept
  obtain ⟨hlast, -⟩ := Prod.mk.inj hkept
  refine ⟨hre, fun f a ha => ?_, fun _ _ => ⟨hlast, hrounds⟩⟩
  rw [← hlast]
  exact ha

theorem Unpaced.of_rewound (s s' : Service I R EV) (h : s.Rewound s') : Unpaced s s' := by
  refine ⟨h.reAnnounce, h.anchors, fun _ hpub => ?_⟩
  rw [h.unpublished] at hpub
  cases hpub

theorem serve_unpaced (now : I) (call : Call I)
    (h : s.round ⟨now, call⟩ = none) : Unpaced s.service (serve s.service now call) := by
  cases call with
  | event event flood =>
    rcases s.service.handleEvent_claimed event now flood with heq | hback
    · exact .of_kept _ _ (congrArg Prod.fst heq)
    · exact .of_rewound _ _ hback
  | timeout flood taken =>
    rcases s.service.handleTimeout_kept now flood taken with hback | ⟨-, hkept⟩
    · exact .of_rewound _ _ hback
    · exact .of_kept _ _ hkept
  | poll flood buf => exact .of_kept _ _ (s.service.pollDeferred_kept now flood buf)
  | outcome v4 v6 =>
    obtain ⟨hlast, hre, hrounds⟩ :=
      s.service.noteTransmitOutcome_anchors now v4 v6 (s.round_none now v4 v6 h)
    refine ⟨hre, fun f a ha => ?_, fun hpub _ => ⟨hlast, hrounds hpub⟩⟩
    rw [← hlast]
    exact ha
  | update => exact .of_kept _ _ (congrArg Prod.fst s.service.poll_claimed)
  | withdraw => exact .of_kept _ _ rfl

theorem next_unpaced (h : s.round e = none) :
    Unpaced s.service (s.next e).service := by
  have hserved : Unpaced s.service (s.served e) := by
    unfold served
    split
    · exact s.serve_unpaced e.now e.call h
    · exact .of_kept _ _ rfl
  exact ⟨hserved.reAnnounce, hserved.anchors, hserved.same⟩

theorem next_reAnnounce :
    (s.next e).service.reAnnounce = s.service.reAnnounce := by
  cases hr : s.round e with
  | none => exact (s.next_unpaced e hr).reAnnounce
  | some r =>
    obtain ⟨v4, v6, emitted, he, hk, rfl⟩ := s.round_outcome e r hr
    change (s.served e).reAnnounce = _
    unfold served
    rw [he]
    change (s.service.noteTransmitOutcome e.now v4 v6).1.reAnnounce = _
    unfold Service.noteTransmitOutcome
    rw [hk]
    exact Service.settleAnnouncement_reAnnounce _ _ emitted _

theorem next_ttl :
    (s.next e).service.records.ttlSecs = s.service.records.ttlSecs := by
  have heff := s.next_effect e
  change (s.next e).service.core.records.ttlSecs = s.service.core.records.ttlSecs
  generalize (s.next e).service.core = c' at heff ⊢
  cases heff with
  | idle hsent hconfirm htimeout => rfl
  | event event flood he hw _ heff => cases heff <;> rfl
  | timeout flood taken he hw _ heff =>
    cases heff with
    | waited hd hl => rfl
    | renamed hd name hname deadline => rfl
    | gaveUp hd => rfl
    | ticked hl _ hticks =>
      have hrec : c'.records = s.service.core.records := by
        induction hticks with
        | refl => rfl
        | tail _ hmove ih => exact hmove.keeps.1.trans ih
      rw [hrec]
  | poll flood buf he hw c₁ _ sent hdefer heff hsent =>
    have h₁ : c₁.records = s.service.core.records := by cases hdefer <;> rfl
    rw [← h₁]
    cases heff <;> rfl
  | confirm v4 v6 he kind hk _ heff => cases heff <;> rfl
  | withdraw he hw => rfl

theorem deliveryAnchor_some (now a : I) (anchor : Option I) (d : FamilyDelivery)
    (h : Service.deliveryAnchor now anchor d = some a) :
    a = now ∨ (d = .missed ∧ anchor = some a) := by
  cases d with
  | delivered => exact .inl (Option.some.inj h).symm
  | unobligated => cases h
  | missed =>
    cases anchor with
    | none => exact .inl (Option.some.inj h).symm
    | some b =>
      cases h
      exact .inr ⟨rfl, rfl⟩

theorem RoundClosed.anchor_cases (s s' : Service I R EV) (now : I) (delivery : TransmitDelivery)
    (h : s.RoundClosed s' now delivery) (f : Family) (a : I)
    (ha : f.pick s'.lastDelivered = some a) :
    a = now ∨ (f.pick delivery.families = .missed ∧ f.pick s.lastDelivered = some a) := by
  rw [h.anchors, Family.pick_zipWith] at ha
  exact deliveryAnchor_some now a _ _ ha

structure Anchored (s : Session I R EV) : Prop where
  polled : s.polledAt ≤ s.clock
  past : ∀ (f : Family) a, f.pick s.service.lastDelivered = some a →
    a ≤ s.clock ∧ (s.service.awaitingConfirm ≠ none → a ≤ s.polledAt)

theorem next_token (h : (s.next e).service.awaitingConfirm ≠ none) :
    s.service.awaitingConfirm ≠ none ∨ ∃ flood buf, e.call = .poll flood buf := by
  have heff := s.next_effect e
  have hstand : (s.next e).service.core.awaitingConfirm ≠ none := h
  change s.service.core.awaitingConfirm ≠ none ∨ _
  generalize (s.next e).service.core = c' at heff hstand
  cases heff with
  | idle hsent hconfirm htimeout => exact .inl hstand
  | event event flood he hw _ heff =>
    refine .inl fun hn => hstand ?_
    cases heff with
    | restarted hs deadline =>
      change s.service.core.awaitingConfirm.map _ = none
      rw [hn]
      rfl
    | quiet => exact hn
    | lost hs => exact hn
    | defeated hs hw => exact hn
    | owed hs legacy hport => exact hn
    | asked hs sq he due => exact hn
    | known ka he hint hh => exact hn
  | timeout flood taken he hw _ heff =>
    refine .inl fun hn => hstand ?_
    cases heff with
    | waited hd hl =>
      change s.service.core.awaitingConfirm.map _ = none
      rw [hn]
      rfl
    | renamed hd name hname deadline =>
      change s.service.core.awaitingConfirm.map _ = none
      rw [hn]
      rfl
    | gaveUp hd =>
      change s.service.core.awaitingConfirm.map _ = none
      rw [hn]
      rfl
    | ticked hl _ hticks =>
      have htok : c'.awaitingConfirm = s.service.core.awaitingConfirm := by
        induction hticks with
        | refl => rfl
        | tail _ hmove ih =>
          exact hmove.keeps.2.trans (ih fun h => hstand (hmove.keeps.2.trans h))
      rw [htok]
      exact hn
  | poll flood buf he hw c₁ _ sent hdefer heff hsent => exact .inr ⟨flood, buf, he⟩
  | confirm v4 v6 he kind hk _ heff =>
    refine .inl fun hn => ?_
    rw [show s.service.core.awaitingConfirm = some kind from hk] at hn
    cases hn
  | withdraw he hw => exact .inl hstand

theorem next_polledAt :
    (s.next e).polledAt = e.now ∨ (s.next e).polledAt = s.polledAt := by
  unfold next
  dsimp only
  split
  · exact .inl rfl
  · exact .inr rfl

theorem anchored_step (g : Trail) (s : Session I R EV) (e : Timed I) (htr : Tracked g s)
    (hu : Unannounced s) (h : Anchored s) (ha : s.admits e) : Anchored (s.next e) := by
  have hpolled : (s.next e).polledAt ≤ (s.next e).clock := by
    rcases s.next_polledAt e with hp | hp
    · rw [hp]
      exact le_refl _
    · rw [hp]
      exact le_trans h.polled ha.1
  refine ⟨hpolled, fun f a hf => ?_⟩
  cases hr : s.round e with
  | none =>
    have hf' := (s.next_unpaced e hr).anchors f a hf
    refine ⟨le_trans (h.past f a hf').1 ha.1, fun ht => ?_⟩
    rcases s.next_token e ht with htok | ⟨flood, buf, he⟩
    · rcases s.next_polledAt e with hp | hp
      · rw [hp]
        exact le_trans (h.past f a hf').1 ha.1
      · rw [hp]
        exact (h.past f a hf').2 htok
    · rw [show (s.next e).polledAt = e.now by simp only [next, he]]
      exact le_trans (h.past f a hf').1 ha.1
  | some r =>
    obtain ⟨v4, v6, emitted, he, hk, hreq⟩ := s.round_outcome e r hr
    have hpub : s.service.state.isPublished = true := by
      cases hp : s.service.state.isPublished with
      | true => rfl
      | false =>
        cases hu.startup.tokens hp _ hk fun h => by cases h
    have hclosed := s.next_round e r hr hpub
    have hnow : r.anchor ≤ e.now := by
      obtain ⟨now, call⟩ := e
      cases he
      rw [hreq]
      exact (s.anchor_bounds now v4 v6 ha h.polled).2
    refine ⟨?_, fun ht => absurd ?_ ht⟩
    · rcases RoundClosed.anchor_cases _ _ _ _ hclosed f a hf with rfl | ⟨-, hpre⟩
      · exact hnow
      · exact le_trans (h.past f a hpre).1 ha.1
    · -- the confirm has spent its token
      change (s.served e).awaitingConfirm = none
      unfold served
      rw [he]
      rcases s.service.noteTransmitOutcome_effect e.now v4 v6 with ⟨hnone, -⟩ | ⟨kind, -, heff⟩
      · rw [hnone] at hk
        cases hk
      · exact (htr.standing.confirm _ _ _ _ _ kind heff).2.1

theorem anchored_run (probe : Bool) (ts : List (Transition (Session I R EV) (Timed I)))
    (s : Session I R EV) (run : Run (machine probe) ts s) : Anchored s := by
  induction run with
  | start s h =>
    obtain ⟨records, now, seed, reAnnounce, flood, -, rfl⟩ := h
    refine ⟨le_refl _, fun f a ha => ?_⟩
    change f.pick (PerFamily.both none) = some a at ha
    rw [Family.pick_both] at ha
    cases ha
  | step ts s e run ha ih =>
    exact anchored_step _ s e (tracked_run probe ts s run) (unannounced_run probe ts s run) ih ha

/-- A family still waited for: in good standing, and due a refresh since `a`. -/
structure Waiting (s : Service I R EV) (f : Family) (a : I) : Prop where
  good : (f.pick s.partialRounds).inGoodStanding = true
  since : f.pick s.lastDelivered = some a

/-- A round of the stretch is confirmed when it falls due, and reaches every family that has
waited longest. -/
structure Punctual (k : Option (Cadence I)) (s : Session I R EV) (r : Confirmed I) : Prop where
  onTime : ∀ c, k = some c → c.armed = some r.anchor
  serves : ∀ f a, Waiting s.service f a → (∀ g b, Waiting s.service g b → a ≤ b) →
    f.pick r.delivery.deliveredOn = true

def AllPunctual (ts : List (Transition (Session I R EV) (Timed I))) : Prop :=
  ∀ us t vs, ts = us ++ t :: vs → ∀ r, t.pre.round t.call = some r → Punctual (cadence us) t.pre r

structure OnTime (k : Cadence I) (s : Service I R EV) : Prop where
  published : s.state.isPublished = true
  spread : ∀ f a, Waiting s f a → a ≤ k.last
  recent : ∀ f g a b, Waiting s f a → Waiting s g b → f ≠ g → a = k.last ∨ b = k.last
  soon : ∀ f a x, Waiting s f a → k.first ≤ a →
    reAnnounceDeadline a s.records.ttlSecs = some x → k.last ≤ x
  due : ∀ d, k.armed = some d → ∀ f a x, Waiting s f a →
    reAnnounceDeadline a s.records.ttlSecs = some x → d ≤ x ∨ announceDeadline k.last 1 = some d

theorem RoundClosed.deadline (s s' : Service I R EV) (now : I) (delivery : TransmitDelivery)
    (h : s.RoundClosed s' now delivery) (hre : s.reAnnounce = true) (d : I)
    (hd : s'.lifecycleDeadline = some d) (f : Family) (a x : I) (hw : Waiting s' f a)
    (hx : reAnnounceDeadline a s.records.ttlSecs = some x) :
    d ≤ x ∨ announceDeadline now 1 = some d := by
  cases hany : delivery.anyDelivered with
  | false =>
    rw [h.retried hany] at hd
    exact .inr hd
  | true =>
    rw [h.composed hany hre] at hd
    obtain ⟨y, hy, hle⟩ := stalestRefreshDue_le _ _ _ f a x hw.good hw.since hx
    rcases (composeAnnounceDeadline_bounds now _ _ d hd).2.2 y hy with hdy | hfloor
    · exact .inl (le_trans hdy hle)
    · exact .inr hfloor

theorem RoundClosed.waiting (s s' : Service I R EV) (now : I) (delivery : TransmitDelivery)
    (h : s.RoundClosed s' now delivery) (f : Family) (a : I) (hw : Waiting s' f a) :
    a = now ∨ (Waiting s f a ∧ f.pick delivery.deliveredOn = false) := by
  rcases RoundClosed.anchor_cases s s' now delivery h f a hw.since with heq | ⟨hmiss, hpre⟩
  · exact .inl heq
  · refine .inr ⟨⟨?_, hpre⟩, ?_⟩
    · have hgood := hw.good
      rw [h.patience] at hgood
      exact classifyAdvance_standing _ delivery f hmiss hgood
    · unfold TransmitDelivery.deliveredOn
      rw [Family.pick_map, hmiss]
      rfl

theorem OnTime.gap [LawfulInstant I] (k : Cadence I) (s : Session I R EV) (r : Confirmed I)
    (h : OnTime k s.service) (hp : Punctual (some k) s r) (f : Family) (a x y : I)
    (hw : Waiting s.service f a) (hfirst : k.first ≤ a)
    (hx : reAnnounceDeadline a s.service.records.ttlSecs = some x)
    (hy : announceDeadline x 1 = some y) : r.anchor ≤ y := by
  rcases h.due r.anchor (hp.onTime k rfl) f a x hw hx with hle | hfloor
  · exact le_trans hle (LawfulInstant.le_add _ _ _ hy)
  · exact LawfulInstant.add_mono k.last x r.anchor y _ _ (h.soon f a x hw hfirst hx) (le_refl _)
      hfloor hy

theorem OnTime.step [LawfulInstant I] (k : Option (Cadence I)) (s : Session I R EV) (e : Timed I)
    (r : Confirmed I) (hr : s.round e = some r) (hpub : s.service.state.isPublished = true)
    (hre : s.service.reAnnounce = true) (hpast : ∀ f a, Waiting s.service f a → a ≤ r.anchor)
    (hp : Punctual k s r) (h : ∀ c, k = some c → OnTime c s.service) :
    OnTime ⟨(k.map (·.first)).getD r.anchor, r.anchor, (s.next e).service.lifecycleDeadline⟩
      (s.next e).service := by
  have hclosed := s.next_round e r hr hpub
  generalize (s.next e).service = s' at hclosed ⊢
  have hwaiting := RoundClosed.waiting _ _ _ _ hclosed
  -- of two families that both missed the round, the one that waited longer would have been served
  have hserved : ∀ f a, Waiting s.service f a → f.pick r.delivery.deliveredOn = false →
      ∃ g b, Waiting s.service g b ∧ b < a := by
    intro f a hw hmiss
    by_contra hnone
    have hall : ∀ g b, Waiting s.service g b → a ≤ b := by
      intro g b hgb
      exact not_lt.mp fun hlt => hnone ⟨g, b, hgb, hlt⟩
    rw [hp.serves f a hw hall] at hmiss
    cases hmiss
  refine ⟨hclosed.published, ?_, ?_, ?_, ?_⟩
  · intro f a hw
    rcases hwaiting f a hw with heq | ⟨hpre, -⟩
    · exact le_of_eq heq
    · exact hpast f a hpre
  · intro f g a b hf hg hne
    rcases hwaiting f a hf with heq | ⟨hpref, hmissf⟩
    · exact .inl heq
    · rcases hwaiting g b hg with heq | ⟨hpreg, hmissg⟩
      · exact .inr heq
      · exfalso
        have hother : ∀ f g a b, Waiting s.service f a → Waiting s.service g b → f ≠ g →
            f.pick r.delivery.deliveredOn = false → b < a := by
          intro f g a b hf hg hne hmiss
          obtain ⟨g', b', hgb, hlt⟩ := hserved f a hf hmiss
          have hg' : g' ≠ f := by
            rintro rfl
            have heq : a = b' := Option.some.inj (hf.since.symm.trans hgb.since)
            exact absurd hlt (by rw [heq]; exact lt_irrefl b')
          have hsame : g' = g := by
            cases f <;> cases g <;> cases g' <;> first | rfl | exact absurd rfl hne |
              exact absurd rfl hg'
          subst hsame
          have heq : b = b' := Option.some.inj (hg.since.symm.trans hgb.since)
          rw [heq]
          exact hlt
        exact absurd (hother f g a b hpref hpreg hne hmissf)
          (not_lt.mpr (le_of_lt (hother g f b a hpreg hpref hne.symm hmissg)))
  · intro f a x hw hfirst hx
    rw [hclosed.records] at hx
    rcases hwaiting f a hw with rfl | ⟨hpre, hmiss⟩
    · exact LawfulInstant.le_add _ _ _ hx
    · cases k with
      | none => exact le_trans hfirst (LawfulInstant.le_add _ _ _ hx)
      | some c =>
        have hc := h c rfl
        obtain ⟨g, b, hgb, hlt⟩ := hserved f a hpre hmiss
        have hne : f ≠ g := by
          rintro rfl
          have heq : a = b := Option.some.inj (hpre.since.symm.trans hgb.since)
          exact absurd hlt (by rw [heq]; exact lt_irrefl b)
        have hlast : a = c.last := by
          rcases hc.recent f g a b hpre hgb hne with heq | heq
          · exact heq
          · exact absurd (hc.spread f a hpre) (not_le.mpr (heq ▸ hlt))
        rcases hc.due r.anchor (hp.onTime c rfl) f a x hpre hx with hle | hfloor
        · exact hle
        · rw [← hlast] at hfloor
          exact second_le_reAnnounce a _ r.anchor x hfloor hx
  · intro d hd f a x hw hx
    rw [hclosed.records] at hx
    exact RoundClosed.deadline _ _ _ _ hclosed hre d hd f a x hw hx

theorem OnTime.carried (k : Cadence I) (s s' : Service I R EV) (h : OnTime k s)
    (hu : Unpaced s s') (hpub : s'.state.isPublished = true)
    (hrec : s'.records.ttlSecs = s.records.ttlSecs) : OnTime k s' := by
  obtain ⟨hlast, hrounds⟩ := hu.same h.published hpub
  have hwaiting : ∀ f a, Waiting s' f a → Waiting s f a := by
    intro f a hw
    refine ⟨?_, ?_⟩
    · rw [← hrounds]
      exact hw.good
    · rw [← hlast]
      exact hw.since
  refine ⟨hpub, fun f a hw => h.spread f a (hwaiting f a hw), ?_, ?_, ?_⟩
  · intro f g a b hf hg
    exact h.recent f g a b (hwaiting f a hf) (hwaiting g b hg)
  · intro f a x hw hfirst hx
    rw [hrec] at hx
    exact h.soon f a x (hwaiting f a hw) hfirst hx
  · intro d hd f a x hw hx
    rw [hrec] at hx
    exact h.due d hd f a x (hwaiting f a hw) hx

theorem allPunctual_prefix (ts us : List (Transition (Session I R EV) (Timed I)))
    (h : AllPunctual (ts ++ us)) : AllPunctual ts := by
  intro vs t ws heq r hr
  refine h vs t (ws ++ us) ?_ r hr
  rw [heq, List.append_assoc, List.cons_append]

theorem round_state (probe : Bool) (ts : List (Transition (Session I R EV) (Timed I)))
    (s : Session I R EV) (run : Run (machine probe) ts s) (e : Timed I) (ha : s.admits e)
    (r : Confirmed I) (hr : s.round e = some r) :
    s.service.state.isPublished = true ∧ ∀ f a, Waiting s.service f a → a ≤ r.anchor := by
  have hanchored := anchored_run probe ts s run
  obtain ⟨v4, v6, emitted, he, hk, hreq⟩ := s.round_outcome e r hr
  constructor
  · cases hp : s.service.state.isPublished with
    | true => rfl
    | false => exact absurd ((unannounced_run probe ts s run).startup.tokens hp _ hk nofun) nofun
  · intro f a hw
    obtain ⟨now, call⟩ := e
    cases he
    have hbounds := s.anchor_bounds now v4 v6 ha hanchored.polled
    rw [hreq]
    refine le_trans ((hanchored.past f a hw.since).2 ?_) hbounds.1
    rw [hk]
    exact nofun

theorem onTime_run [LawfulInstant I] (probe : Bool)
    (ts : List (Transition (Session I R EV) (Timed I))) (s : Session I R EV)
    (run : Run (machine probe) ts s) (hp : AllPunctual ts) (hre : s.service.reAnnounce = true)
    (k : Cadence I) (hk : cadence ts = some k) : OnTime k s.service := by
  induction run generalizing k with
  | start s h => cases hk
  | step ts s e run ha ih =>
    have hre' : s.service.reAnnounce = true := (s.next_reAnnounce e).symm.trans hre
    have hpast := allPunctual_prefix ts _ hp
    rw [cadence, summary_snoc] at hk
    change noteRound (cadence ts) ((machine probe).transition s e) = some k at hk
    unfold noteRound at hk
    cases hr : s.round e with
    | some r =>
      rw [show ((machine probe).transition s e).pre.round ((machine probe).transition s e).call =
        some r from hr] at hk
      cases hk
      obtain ⟨hpub, hbefore⟩ := round_state probe ts s run e ha r hr
      exact OnTime.step (cadence ts) s e r hr hpub hre' hbefore
        (hp ts ((machine probe).transition s e) [] rfl r hr) (ih hpast hre')
    | none =>
      rw [show ((machine probe).transition s e).pre.round ((machine probe).transition s e).call =
        none from hr] at hk
      dsimp only at hk
      split at hk
      · rename_i hpub
        exact (ih hpast hre' k hk).carried k _ _ (s.next_unpaced e hr) hpub (s.next_ttl e)
      · cases hk

/-- With periodic announcements on, after any run: a confirmed announcement that some family took
leaves a deadline where the phase's own schedule has one, at least a second after the round, no
later than that schedule, and for every family in good standing no later than its own refresh or the
second. -/
theorem refreshes_keep_pace [LawfulInstant I] (probe : Bool)
    (ts : List (Transition (Session I R EV) (Timed I))) (s : Session I R EV)
    (run : Run (machine probe) ts s) (hre : s.service.reAnnounce = true) (e : Timed I)
    (ha : s.admits e) (r : Confirmed I) (hr : s.round e = some r) :
    (r.delivery.anyDelivered = true →
      ((s.next e).service.lifecycleDeadline = none ↔
        s.service.roundSchedule r.anchor r.delivery = none) ∧
      ∀ d, (s.next e).service.lifecycleDeadline = some d →
        (∀ floor, announceDeadline r.anchor 1 = some floor → floor ≤ d) ∧
        (∀ base, s.service.roundSchedule r.anchor r.delivery = some base → d ≤ base) ∧
        ∀ f a x, Waiting (s.next e).service f a →
          reAnnounceDeadline a s.service.records.ttlSecs = some x →
            d ≤ x ∨ announceDeadline r.anchor 1 = some d) ∧
      (AllPunctual ts → Punctual (cadence ts) s r →
        ∀ k, cadence ts = some k → ∀ f a x y, Waiting s.service f a → k.first ≤ a →
          reAnnounceDeadline a s.service.records.ttlSecs = some x →
            announceDeadline x 1 = some y → r.anchor ≤ y) := by
  obtain ⟨hpub, -⟩ := round_state probe ts s run e ha r hr
  have hclosed := s.next_round e r hr hpub
  refine ⟨fun hany => ⟨?_, fun d hd => ⟨?_, ?_, ?_⟩⟩, ?_⟩
  · rw [hclosed.composed hany hre]
    exact composeAnnounceDeadline_eq_none_iff _ _ _
  · rw [hclosed.composed hany hre] at hd
    exact (composeAnnounceDeadline_bounds _ _ _ d hd).1
  · intro base hbase
    rw [hclosed.composed hany hre] at hd
    rcases (composeAnnounceDeadline_bounds _ _ _ d hd).2.1 base hbase with hle | hfloor
    · exact hle
    · exact s.service.second_le_roundSchedule r.anchor d base r.delivery hfloor hbase
  · intro f a x hw hx
    exact RoundClosed.deadline _ _ _ _ hclosed hre d hd f a x hw hx
  · intro hall hp k hk f a x y hw hfirst hx hy
    rw [hk] at hp
    exact (onTime_run probe ts s run hall hre k hk).gap k s r hp f a x y hw hfirst hx hy

theorem allPunctual_snoc (ts : List (Transition (Session I R EV) (Timed I)))
    (t : Transition (Session I R EV) (Timed I)) (h : AllPunctual ts)
    (ht : ∀ r, t.pre.round t.call = some r → Punctual (cadence ts) t.pre r) :
    AllPunctual (ts ++ [t]) := by
  intro us u vs heq
  rcases List.eq_nil_or_concat vs with rfl | ⟨ws, w, rfl⟩
  · obtain ⟨rfl, hlast⟩ := List.append_inj' heq rfl
    cases hlast
    exact ht
  · rw [List.concat_eq_append, ← List.cons_append, ← List.append_assoc] at heq
    obtain ⟨rfl, -⟩ := List.append_inj' heq rfl
    exact h us u ws rfl

theorem allPunctual_quiet (probe : Bool) (ts : List (Transition (Session I R EV) (Timed I)))
    (s : Session I R EV) (e : Timed I) (h : AllPunctual ts) (hq : (s.round e).isNone = true) :
    AllPunctual (ts ++ [(machine probe).transition s e]) := by
  refine allPunctual_snoc ts _ h fun r hr => ?_
  rw [show s.round e = some r from hr] at hq
  cases hq

def announcing : List (Timed Uptime) :=
  [timer 0, pollAt 0, acceptedAt 0, timer 1000000000, pollAt 1000000000]

theorem printer_announces_on_time :
    ∃ r, ((machine false).play (printerAt false 0) announcing).round (acceptedAt 1000000000) =
        some r ∧
      (∀ d, (((machine false).play (printerAt false 0) announcing).next
          (acceptedAt 1000000000)).service.lifecycleDeadline = some d →
        ∀ floor, announceDeadline r.anchor 1 = some floor → floor ≤ d) ∧
      ∀ x y, reAnnounceDeadline (0 : Uptime) 120 = some x → announceDeadline x 1 = some y →
        r.anchor ≤ y := by
  have hrun : Run (machine false) _ _ := (Run.start _ (printerAt_registered false 0)).play _ _ _
    announcing (by decide +kernel)
  have hsome : (((machine false).play (printerAt false 0) announcing).round
      (acceptedAt 1000000000)).isSome = true := by decide +kernel
  obtain ⟨r, hr⟩ := Option.isSome_iff_exists.mp hsome
  have hanchor : (((machine false).play (printerAt false 0) announcing).round
      (acceptedAt 1000000000)).map (fun r => (r.anchor, r.delivery)) =
        some (1000000000, ⟨⟨.delivered, .unobligated⟩⟩) := by decide +kernel
  rw [hr] at hanchor
  obtain ⟨hat, hdelivery⟩ := Prod.mk.inj (Option.some.inj hanchor)
  obtain ⟨hdeadline, hgap⟩ := refreshes_keep_pace false _ _ hrun (by decide +kernel)
    (acceptedAt 1000000000) (by decide +kernel) r hr
  refine ⟨r, hr, fun d hd => ((hdeadline (by rw [hdelivery]; rfl)).2 d hd).1, ?_⟩
  have hlast : ((machine false).play (printerAt false 0) announcing).service.lastDelivered =
      ⟨some 0, none⟩ := by decide +kernel
  have hall : AllPunctual ([] ++ (machine false).trace (printerAt false 0) announcing) := by
    have h₀ : AllPunctual ([] : List (Transition (Session Uptime ZeroRng Slab) (Timed Uptime))) :=
      fun us t vs heq => absurd heq.symm (List.append_ne_nil_of_right_ne_nil us (List.cons_ne_nil t vs))
    have h₁ := allPunctual_quiet false [] (printerAt false 0) (timer 0) h₀ (by decide +kernel)
    have h₂ := allPunctual_quiet false _ ((machine false).play (printerAt false 0) [timer 0])
      (pollAt 0) h₁ (by decide +kernel)
    have h₃ := allPunctual_snoc _ ((machine false).transition
      ((machine false).play (printerAt false 0) [timer 0, pollAt 0]) (acceptedAt 0)) h₂ (by
        intro r₁ _
        have hfirst : (cadence ([] ++ [(machine false).transition (printerAt false 0) (timer 0)] ++
            [(machine false).transition ((machine false).play (printerAt false 0) [timer 0])
              (pollAt 0)])).isNone = true := by decide +kernel
        have hnone : ((machine false).play (printerAt false 0)
            [timer 0, pollAt 0]).service.lastDelivered = .both none := by decide +kernel
        refine ⟨fun c hc => ?_, fun f a hw _ => ?_⟩
        · rw [hc] at hfirst
          cases hfirst
        · have hsince := hw.since
          rw [show (((machine false).transition ((machine false).play (printerAt false 0)
            [timer 0, pollAt 0]) (acceptedAt 0)).pre.service.lastDelivered) = .both none from hnone,
            Family.pick_both] at hsince
          cases hsince)
    have h₄ := allPunctual_quiet false _ ((machine false).play (printerAt false 0)
      [timer 0, pollAt 0, acceptedAt 0]) (timer 1000000000) h₃ (by decide +kernel)
    exact allPunctual_quiet false _ ((machine false).play (printerAt false 0)
      [timer 0, pollAt 0, acceptedAt 0, timer 1000000000]) (pollAt 1000000000) h₄ (by decide +kernel)
  have hnow : Punctual (cadence ([] ++ (machine false).trace (printerAt false 0) announcing))
      ((machine false).play (printerAt false 0) announcing) r := by
    refine ⟨fun c hc => ?_, fun f a hw _ => ?_⟩
    · have harmed : (cadence ([] ++ (machine false).trace (printerAt false 0) announcing)).map
          (·.armed) = some (some 1000000000) := by decide +kernel
      rw [hc] at harmed
      rw [hat]
      exact Option.some.inj harmed
    · have hsince := hw.since
      rw [hlast] at hsince
      rw [hdelivery]
      cases f with
      | v4 => rfl
      | v6 => cases hsince
  have hcadence : (cadence ([] ++ (machine false).trace (printerAt false 0) announcing)).map
      (·.first) = some 0 := by decide +kernel
  obtain ⟨k, hk, hfirst⟩ := Option.map_eq_some_iff.mp hcadence
  intro x y hx hy
  have hwaits : Waiting ((machine false).play (printerAt false 0) announcing).service .v4 0 :=
    ⟨by decide +kernel, by rw [hlast]; rfl⟩
  have httl : ((machine false).play (printerAt false 0) announcing).service.records.ttlSecs = 120 := by
    decide +kernel
  rw [← httl] at hx
  exact hgap hall hnow k hk .v4 0 x y hwaits (le_of_eq hfirst) hx hy

def settledAt (now : Uptime) (v4 v6 : FamilyAttempt Uptime) : Timed Uptime := ⟨now, .outcome v4 v6⟩

/-- The printer is established 97 seconds before its clock ends, and announces again a second
before the end. -/
def lastRefresh : List (Timed Uptime) :=
  let t₀ : Uptime := 18446743975709551615
  let t₁ : Uptime := 18446743976709551615
  let t₂ : Uptime := 18446744072709551615
  [timer t₀, pollAt t₀, settledAt t₀ (.accepted t₀) (.accepted t₀),
    timer t₁, pollAt t₁, settledAt t₁ (.accepted t₁) (.accepted t₁), timer t₂, pollAt t₂]

/-- A periodic refresh from here is off the clock, and the printer is left with no deadline: the
family that missed this round is not refreshed, though its own refresh is due. -/
theorem late_printer_forgets_a_family :
    ∃ (ts : List (Transition (Session Uptime ZeroRng Slab) (Timed Uptime)))
      (s : Session Uptime ZeroRng Slab) (e : Timed Uptime) (r : Confirmed Uptime) (f : Family)
      (a x floor : Uptime), Run (machine false) ts s ∧ s.admits e ∧ s.round e = some r ∧
        s.service.reAnnounce = true ∧ r.delivery.anyDelivered = true ∧
        Waiting (s.next e).service f a ∧
        reAnnounceDeadline a s.service.records.ttlSecs = some x ∧
        announceDeadline r.anchor 1 = some floor ∧
        ¬∃ d, (s.next e).service.lifecycleDeadline = some d ∧ d ≤ max x floor := by
  have hrun : Run (machine false) _ _ :=
    (Run.start _ (printerAt_registered false 18446743975709551615)).play _ _ _ lastRefresh
      (by decide +kernel)
  have hround : (((machine false).play (printerAt false 18446743975709551615) lastRefresh).round
      (settledAt 18446744072709551615 (.accepted 18446744072709551615) .wouldBlock)).map
        (fun r => (r.anchor, r.delivery)) =
      some (18446744072709551615, ⟨⟨.delivered, .missed⟩⟩) := by decide +kernel
  obtain ⟨r, hr, hval⟩ := Option.map_eq_some_iff.mp hround
  obtain ⟨hat, hdelivery⟩ := Prod.mk.inj hval
  refine ⟨_, _, settledAt 18446744072709551615 (.accepted 18446744072709551615) .wouldBlock, r,
    .v6, 18446743976709551615, 18446744072709551615, 18446744073709551615, hrun, by decide +kernel,
    hr, by decide +kernel, ?_, ⟨by decide +kernel, by decide +kernel⟩, by decide +kernel, ?_, ?_⟩
  · rw [hdelivery]
    rfl
  · rw [hat]
    decide +kernel
  · rintro ⟨d, hd, -⟩
    have hnone : (((machine false).play (printerAt false 18446743975709551615) lastRefresh).next
        (settledAt 18446744072709551615 (.accepted 18446744072709551615)
          .wouldBlock)).service.lifecycleDeadline = none := by decide +kernel
    rw [hnone] at hd
    cases hd

end Session
end Hick
