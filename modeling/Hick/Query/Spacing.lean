import Hick.Query.Run

/-!
# How often a query asks (query/mod.rs:643-698, 948-1092, query/retry.rs)

The interval after a question is a rung of a ladder: the slots spent so far and, on top of them, the
rounds that reached some family but not all.
-/

set_option linter.unusedSectionVars false

namespace Hick
open Octets Wire Runs

theorem retrySecs_pos (i : Nat) : 1 ≤ retrySecs i := by
  have hpow : 1 ≤ 2 ^ min (i - 1) 6 := Nat.one_le_two_pow
  simp only [retrySecs, initialSecs, maxSecs]
  omega

theorem retrySecs_double (i j : Nat) (hi : 1 ≤ i) (h : i < j) :
    min maxSecs (2 * retrySecs i) ≤ retrySecs j := by
  simp only [retrySecs, initialSecs, maxSecs, Nat.one_mul]
  by_cases hlow : i ≤ 6
  · have hdouble : 2 * 2 ^ (i - 1) = 2 ^ i := by
      obtain ⟨k, rfl⟩ := Nat.exists_eq_add_of_le' hi
      rw [Nat.add_sub_cancel, Nat.pow_succ]
      omega
    have hup : 2 ^ i ≤ 2 ^ min (j - 1) 6 := Nat.pow_le_pow_right (by omega) (by omega)
    rw [Nat.min_eq_left (by omega : i - 1 ≤ 6)]
    omega
  · rw [Nat.min_eq_right (by omega : 6 ≤ j - 1)]
    omega

/-- The anchor of the last question that some family accepted, the seconds scheduled after it
unless a slot was suppressed since, and how many questions the open slot has cost. -/
structure Asked (I : Type) where
  lastAnchor : Option I
  lastSecs : Option Nat
  slotCost : Nat

section
variable {I : Type} {AN EV : Type → Type} [Instant I] [Pool AN] [Pool EV]

def Asked.add (g : Asked I) (tr : Transition (QueryRun I AN EV) (QueryStep I)) : Asked I :=
  match tr.call.call with
  | .outcome v4 v6 =>
    if tr.pre.query.Awaits ∧ (FamilyAttempt.project v4 v6).anyDelivered = true then
      { lastAnchor := some (FamilyAttempt.anchor v4 v6 tr.call.now)
        lastSecs := some (tr.pre.query.scheduledSecs v4 v6)
        slotCost := if (tr.pre.query.advance v4 v6).advances then 0 else g.slotCost + 1 }
    else g
  | .duplicate =>
    if (tr.pre.query.noteDuplicateQuestion tr.call.now).2 then
      { g with
        lastSecs := none
        slotCost := 0 }
    else g
  | _ => g

def askedSoFar (ts : List (Transition (QueryRun I AN EV) (QueryStep I))) : Asked I :=
  summary Asked.add ⟨none, none, 0⟩ ts

structure Pace (I : Type) where
  retryCount : Nat
  nextDeadline : Option I
  done : Bool
  transmitPending : Bool
  awaitingSendConfirm : Bool
  partialSendStreak : Nat
  partialRounds : PerFamily FamilyPatience

def Query.pace (q : Query I AN EV) : Pace I where
  retryCount := q.retryCount
  nextDeadline := q.nextDeadline
  done := q.done
  transmitPending := q.transmitPending
  awaitingSendConfirm := q.awaitingSendConfirm
  partialSendStreak := q.partialSendStreak
  partialRounds := q.partialRounds

inductive PaceEffect (q : Query I AN EV) (now : I) (g : Asked I) : QueryCall I → Pace I →
    Asked I → Prop
  | same (call : QueryCall I) : PaceEffect q now g call q.pace g
  | settled (v4 v6 : FamilyAttempt I) (h : ¬ q.Awaits) :
    PaceEffect q now g (.outcome v4 v6) { q.pace with awaitingSendConfirm := false } g
  | ended (call : QueryCall I) (hdone : q.done = false)
    (hwhy : call = .retire ∨ q.callerWindowShut now = true ∨ maxRetries < q.retryCount) :
    PaceEffect q now g call { q.pace with
      done := true
      transmitPending := false
      nextDeadline := none } g
  | armed (d : I) (hdone : q.done = false) (hd : q.nextDeadline = some d) (hdue : d ≤ now)
    (hleft : q.retryCount ≤ maxRetries) : PaceEffect q now g .timeout { q.pace with
      transmitPending := true
      nextDeadline := none } g
  | asks (buf : Bytes) (hdone : q.done = false) (hpending : q.transmitPending = true) :
    PaceEffect q now g (.transmit buf) { q.pace with
      transmitPending := false
      awaitingSendConfirm := true } g
  | failed (v4 v6 : FamilyAttempt I) (h : q.Awaits)
    (hnone : (FamilyAttempt.project v4 v6).anyDelivered = false) :
    PaceEffect q now g (.outcome v4 v6) { q.pace with
      awaitingSendConfirm := false
      partialRounds := (classifyAdvance q.partialRounds (FamilyAttempt.project v4 v6)).2
      nextDeadline := checkedAddDuration (FamilyAttempt.anchor v4 v6 now)
        (Duration.fromSecs (q.scheduledSecs v4 v6)) } g
  | onWire (v4 v6 : FamilyAttempt I) (h : q.Awaits) (streak : Nat)
    (hany : (FamilyAttempt.project v4 v6).anyDelivered = true)
    (hstreak : streak = if q.advance v4 v6 = .delivered then 0 else q.partialSendStreak + 1) :
    PaceEffect q now g (.outcome v4 v6) { q.pace with
      awaitingSendConfirm := false
      partialRounds := (classifyAdvance q.partialRounds (FamilyAttempt.project v4 v6)).2
      retryCount := if (q.advance v4 v6).advances then q.retryCount + 1 else q.retryCount
      partialSendStreak := streak
      nextDeadline := checkedAddDuration (FamilyAttempt.anchor v4 v6 now)
        (Duration.fromSecs (q.scheduledSecs v4 v6)) }
      { lastAnchor := some (FamilyAttempt.anchor v4 v6 now)
        lastSecs := some (q.scheduledSecs v4 v6)
        slotCost := if (q.advance v4 v6).advances then 0 else g.slotCost + 1 }
  | suppressed (deadline : Option I) (done : Bool) (h : q.Suppresses now)
    (hend : done = true → maxRetries < q.retryCount + 1)
    (hgoes : done = false → q.retryCount + 1 ≤ maxRetries ∧
      deadline = nextDeadline now (q.retryCount + 1))
    (hnone : done = true → deadline = none) :
    PaceEffect q now g .duplicate
      { retryCount := q.retryCount + 1
        nextDeadline := deadline
        done := done
        transmitPending := false
        awaitingSendConfirm := q.awaitingSendConfirm
        partialSendStreak := 0
        partialRounds := .both .default }
      { g with
        lastSecs := none
        slotCost := 0 }

namespace QueryRun

theorem hear_pace (q : Query I AN EV) (now : I) (r : Ref) : (q.hear now r).pace = q.pace := by
  obtain ⟨answers, nextSeq, heq⟩ := q.hear_only now r
  rw [heq]
  rfl

theorem records_pace (records : List Ref) (q : Query I AN EV) (now : I) :
    (records.foldl (fun q r => q.hear now r) q).pace = q.pace := by
  induction records generalizing q with
  | nil => rfl
  | cons r rest ih => rw [List.foldl_cons, ih, hear_pace]

theorem pollQuery_pace (q : Query I AN EV) : q.pollQuery.1.pace = q.pace := by
  have hpoll : q.poll.1.pace = q.pace := by
    rw [Query.poll]
    split
    · rfl
    · split <;> rfl
  rw [Query.pollQuery]
  split
  · rfl
  · revert hpoll
    rcases q.poll with ⟨q', _ | update⟩
    · intro hpoll
      simp only
      split
      · exact hpoll
      · exact hpoll
    · intro hpoll
      exact hpoll

theorem step_pace (s : QueryRun I AN EV) (e : QueryStep I) (g : Asked I) (q₀ : Query I AN EV) :
    PaceEffect s.query e.now g e.call (s.next e).query.pace
      (g.add ((machine q₀).transition s e)) := by
  obtain ⟨now, call⟩ := e
  obtain ⟨q, clock⟩ := s
  cases call with
  | records records =>
    have hpace := records_pace records q now
    show PaceEffect q now g _ (records.foldl (fun q r => q.hear now r) q).pace g
    rw [hpace]
    exact .same _
  | update =>
    show PaceEffect q now g _ q.pollQuery.1.pace g
    rw [pollQuery_pace]
    exact .same _
  | retire =>
    show PaceEffect q now g _ (q.terminate .timeout).pace g
    cases hdone : q.done with
    | true =>
      have hidle : q.terminate .timeout = q := by rw [Query.terminate, if_pos hdone]
      rw [hidle]
      exact .same _
    | false =>
      rw [Query.terminate_of_live q hdone]
      exact .ended _ hdone (Or.inl rfl)
  | timeout =>
    have heffect := q.handleTimeout_effect now
    show PaceEffect q now g _ (q.handleTimeout now).pace g
    generalize q.handleTimeout now = q' at heffect ⊢
    cases heffect with
    | idle _ => exact .same _
    | window hdone hshut =>
      rw [Query.terminate_of_live q hdone]
      exact .ended _ hdone (Or.inr (Or.inl hshut))
    | budget d hdone hopen hd hdue hspent =>
      rw [Query.terminate_of_live q hdone]
      exact .ended _ hdone (Or.inr (Or.inr hspent))
    | arm d hdone hopen hd hdue hleft => exact .armed d hdone hd hdue hleft
  | transmit buf =>
    have heffect := q.pollTransmit_effect now buf
    show PaceEffect q now g _ (q.pollTransmit now buf).1.pace g
    generalize (q.pollTransmit now buf).1 = q' at heffect ⊢
    generalize sentOf (q.pollTransmit now buf).2 = sent at heffect
    cases heffect with
    | nothing => exact .same _
    | asks sent hdone hpending hopen => exact .asks buf hdone hpending
  | outcome v4 v6 =>
    show PaceEffect q now g _ (q.noteTransmitOutcome now v4 v6).1.pace
      (if q.Awaits ∧ (FamilyAttempt.project v4 v6).anyDelivered = true then _ else g)
    by_cases hawaits : q.Awaits
    · rw [q.noteTransmitOutcome_heard now v4 v6 hawaits]
      have hfailed := classifyAdvance_failed q.partialRounds (FamilyAttempt.project v4 v6)
      cases hany : (FamilyAttempt.project v4 v6).anyDelivered with
      | false =>
        have hadvance : q.advance v4 v6 = .failed := hfailed.mpr hany
        have hnot : ¬ (q.Awaits ∧ false = true) := by simp
        rw [if_neg hnot, hadvance]
        exact .failed v4 v6 hawaits hany
      | true =>
        have hand : q.Awaits ∧ true = true := ⟨hawaits, rfl⟩
        rw [if_pos hand]
        refine .onWire v4 v6 hawaits _ hany ?_
        cases hadvance : q.advance v4 v6 with
        | failed =>
          have hnone := hfailed.mp hadvance
          rw [hany] at hnone
          cases hnone
        | delivered => rfl
        | covered => rfl
        | excused => rfl
        | partial_ => rfl
    · rw [q.noteTransmitOutcome_unheard now v4 v6 hawaits, if_neg fun h => hawaits h.1]
      exact .settled v4 v6 hawaits
  | duplicate =>
    show PaceEffect q now g _ (q.noteDuplicateQuestion now).1.pace
      (if (q.noteDuplicateQuestion now).2 then _ else g)
    by_cases hspends : q.Suppresses now
    · rw [q.noteDuplicateQuestion_suppresses now hspends, if_pos rfl]
      by_cases hspent : maxRetries < q.retryCount + 1
      · have hends := Query.terminate_of_live { q with
          transmitPending := false
          retryCount := q.retryCount + 1
          partialSendStreak := 0
          partialRounds := .both .default } hspends.1 .timeout
        rw [if_pos hspent, hends]
        exact .suppressed none true hspends (fun _ => hspent) (fun h => by cases h) fun _ => rfl
      · rw [if_neg hspent]
        exact .suppressed _ q.done hspends (fun h => by rw [hspends.1] at h; cases h)
          (fun _ => ⟨Nat.le_of_not_lt hspent, rfl⟩) fun h => by rw [hspends.1] at h; cases h
    · have hnot : ¬ (q, false).2 = true := Bool.false_ne_true
      rw [q.noteDuplicateQuestion_idle now hspends, if_neg hnot]
      exact .same _

theorem asked_pending (s : QueryRun I AN EV) (e : QueryStep I) (sent : Sent)
    (h : s.asked e = some sent) : s.query.done = false ∧ s.query.transmitPending = true ∧
      s.query.callerWindowShut e.now = false := by
  obtain ⟨now, call⟩ := e
  cases call with
  | transmit buf =>
    have heffect := s.query.pollTransmit_effect now buf
    have hsent : sentOf (s.query.pollTransmit now buf).2 = some sent := h
    rw [hsent] at heffect
    generalize (s.query.pollTransmit now buf).1 = q' at heffect
    cases heffect with
    | asks _ hdone hpending hopen => exact ⟨hdone, hpending, hopen⟩
  | records _ | duplicate | timeout | outcome _ _ | update | retire => cases h

end QueryRun

structure Paced (g : Asked I) (p : Pace I) (clock : I) : Prop where
  spaced : ∀ t u, g.lastAnchor = some t → checkedAddDuration t minQueryGap = some u →
    (p.transmitPending = true → u ≤ clock) ∧ (p.awaitingSendConfirm = true → u ≤ clock) ∧
      ∀ d, p.nextDeadline = some d → u ≤ d
  rung : ∀ secs, g.lastSecs = some secs → ∃ i, 1 ≤ i ∧ i ≤ p.retryCount + p.partialSendStreak ∧
    secs = retrySecs i
  spent : p.done = false → p.retryCount ≤ maxRetries + 1
  left : p.done = false → p.transmitPending = true ∨ p.awaitingSendConfirm = true →
    p.retryCount ≤ maxRetries
  unscheduled : p.transmitPending = true ∨ p.awaitingSendConfirm = true → p.nextDeadline = none
  single : p.awaitingSendConfirm = true → p.transmitPending = false

variable [LawfulInstant I]

theorem secs_spaced (t u d : I) (secs : Nat) (hsecs : 1 ≤ secs)
    (hu : checkedAddDuration t minQueryGap = some u)
    (hd : checkedAddDuration t (Duration.fromSecs secs) = some d) : u ≤ d := by
  apply LawfulInstant.add_mono t t u d minQueryGap (Duration.fromSecs secs) (le_refl t) _ hu hd
  exact Nat.mul_le_mul_right _ hsecs

theorem scheduledSecs_pos (q : Query I AN EV) (v4 v6 : FamilyAttempt I) :
    1 ≤ q.scheduledSecs v4 v6 := retrySecs_pos _

theorem scheduledSecs_rung (q : Query I AN EV) (v4 v6 : FamilyAttempt I)
    (h : q.advance v4 v6 ≠ .delivered) (hf : q.advance v4 v6 ≠ .failed) :
    q.scheduledSecs v4 v6 = retrySecs (q.retryCount + 1 + q.partialSendStreak) := by
  rw [Query.scheduledSecs]
  cases hadvance : q.advance v4 v6 with
  | delivered => exact absurd hadvance h
  | failed => exact absurd hadvance hf
  | covered => rfl
  | excused => rfl
  | partial_ => rfl

theorem anchor_of_none (v4 v6 : FamilyAttempt I) (now : I)
    (h : (FamilyAttempt.project v4 v6).anyDelivered = false) :
    FamilyAttempt.anchor v4 v6 now = now := by
  simp only [TransmitDelivery.anyDelivered, FamilyAttempt.project, Bool.or_eq_false_iff,
    beq_eq_false_iff_ne] at h
  rw [FamilyAttempt.anchor]
  cases v4 with
  | accepted _ => exact absurd rfl h.1
  | refused _ | gateShut | noSocket | notAddressed | wouldBlock =>
    cases v6 with
    | accepted _ => exact absurd rfl h.2
    | refused _ | gateShut | noSocket | notAddressed | wouldBlock => rfl

theorem onWire_rung (q : Query I AN EV) (v4 v6 : FamilyAttempt I) (streak : Nat)
    (hany : (FamilyAttempt.project v4 v6).anyDelivered = true)
    (hstreak : streak = if q.advance v4 v6 = .delivered then 0 else q.partialSendStreak + 1) :
    ∃ i, 1 ≤ i ∧
      i ≤ (if (q.advance v4 v6).advances then q.retryCount + 1 else q.retryCount) + streak ∧
      q.scheduledSecs v4 v6 = retrySecs i := by
  have hfailed : q.advance v4 v6 ≠ .failed := by
    intro h
    have hnone := (classifyAdvance_failed q.partialRounds _).mp h
    rw [hany] at hnone
    cases hnone
  cases hadvance : q.advance v4 v6 with
  | failed => exact absurd hadvance hfailed
  | delivered =>
    refine ⟨q.retryCount + 1, by omega, ?_, by rw [Query.scheduledSecs, hadvance]⟩
    simp only [PhaseAdvance.advances, if_true]
    omega
  | covered | excused | partial_ =>
    rw [hadvance] at hstreak
    simp only [reduceCtorEq, if_false] at hstreak
    refine ⟨q.retryCount + 1 + q.partialSendStreak, by omega, ?_, ?_⟩
    · simp only [PhaseAdvance.advances, Bool.false_eq_true, if_true, if_false]
      omega
    · exact scheduledSecs_rung q v4 v6 (by simp [hadvance]) (by simp [hadvance])

theorem paced_effect (q : Query I AN EV) (clock now : I) (g g' : Asked I) (call : QueryCall I)
    (p : Pace I) (hclock : clock ≤ now) (h : Paced g q.pace clock)
    (heffect : PaceEffect q now g call p g') : Paced g' p now := by
  have hspaced (t u : I) (ht : g.lastAnchor = some t)
      (hu : checkedAddDuration t minQueryGap = some u) :
      (q.transmitPending = true → u ≤ now) ∧ (q.awaitingSendConfirm = true → u ≤ now) ∧
        ∀ d, q.nextDeadline = some d → u ≤ d := by
    obtain ⟨hpending, hawaits, hdeadline⟩ := h.spaced t u ht hu
    exact ⟨fun hp => le_trans (hpending hp) hclock, fun ha => le_trans (hawaits ha) hclock,
      hdeadline⟩
  cases heffect with
  | same _ => exact ⟨hspaced, h.rung, h.spent, h.left, h.unscheduled, h.single⟩
  | settled v4 v6 hnot =>
    have hpending {P : Prop} (hor : q.transmitPending = true ∨ false = true)
        (hp : q.transmitPending = true → P) : P := by
      rcases hor with hor | hor
      · exact hp hor
      · cases hor
    refine ⟨?_, h.rung, h.spent, ?_, ?_, ?_⟩
    · intro t u ht hu
      obtain ⟨hp, -, hdeadline⟩ := hspaced t u ht hu
      exact ⟨hp, nofun, hdeadline⟩
    · intro hdone hor
      exact hpending hor fun hp => h.left hdone (Or.inl hp)
    · intro hor
      exact hpending hor fun hp => h.unscheduled (Or.inl hp)
    · intro ha
      cases ha
  | ended _ hdone _ =>
    refine ⟨?_, h.rung, nofun, nofun, fun _ => rfl, fun _ => rfl⟩
    intro t u ht hu
    obtain ⟨-, hawaits, -⟩ := hspaced t u ht hu
    exact ⟨nofun, hawaits, nofun⟩
  | armed d hdone hd hdue hleft =>
    refine ⟨?_, h.rung, h.spent, fun _ _ => hleft, fun _ => rfl, ?_⟩
    · intro t u ht hu
      obtain ⟨-, hawaits, hdeadline⟩ := hspaced t u ht hu
      exact ⟨fun _ => le_trans (hdeadline d hd) hdue, hawaits, nofun⟩
    · -- a question in flight leaves no deadline to arm
      intro ha
      have hnone : q.nextDeadline = none := h.unscheduled (Or.inr ha)
      rw [hd] at hnone
      cases hnone
  | asks buf hdone hpending =>
    refine ⟨?_, h.rung, h.spent, fun _ _ => h.left hdone (Or.inl hpending),
      fun _ => h.unscheduled (Or.inl hpending), fun _ => rfl⟩
    intro t u ht hu
    obtain ⟨hp, -, hdeadline⟩ := hspaced t u ht hu
    exact ⟨nofun, fun _ => hp hpending, hdeadline⟩
  | failed v4 v6 hawaits hnone =>
    have hpending : q.transmitPending = false := h.single hawaits.1
    have hidle {P : Prop} (hor : q.transmitPending = true ∨ false = true) : P := by
      rw [hpending] at hor
      rcases hor with hor | hor <;> cases hor
    refine ⟨?_, h.rung, h.spent, fun _ hor => hidle hor, fun hor => hidle hor, nofun⟩
    intro t u ht hu
    obtain ⟨hp, ha, -⟩ := hspaced t u ht hu
    refine ⟨hp, nofun, ?_⟩
    intro d hd
    simp only [anchor_of_none v4 v6 now hnone] at hd
    exact le_trans (ha hawaits.1) (LawfulInstant.le_add now d _ hd)
  | onWire v4 v6 hawaits streak hany hstreak =>
    have hpending : q.transmitPending = false := h.single hawaits.1
    have hleft : q.retryCount ≤ maxRetries := h.left hawaits.2 (Or.inr hawaits.1)
    have hidle {P : Prop} (hor : q.transmitPending = true ∨ false = true) : P := by
      rw [hpending] at hor
      rcases hor with hor | hor <;> cases hor
    refine ⟨?_, ?_, ?_, fun _ hor => hidle hor, fun hor => hidle hor, nofun⟩
    · intro t u ht hu
      obtain rfl := Option.some.inj ht
      refine ⟨fun hp => hidle (Or.inl hp), nofun, ?_⟩
      intro d hd
      exact secs_spaced _ u d _ (scheduledSecs_pos q v4 v6) hu hd
    · intro secs hsecs
      obtain rfl := Option.some.inj hsecs
      exact onWire_rung q v4 v6 streak hany hstreak
    · intro _
      simp only
      split <;> omega
  | suppressed deadline done hspends hend hgoes hnone =>
    have hidle {P : Prop} (hor : false = true ∨ q.awaitingSendConfirm = true) : P := by
      rw [hspends.2.1] at hor
      rcases hor with hor | hor <;> cases hor
    refine ⟨?_, nofun, ?_, fun _ hor => hidle hor, fun hor => hidle hor, fun _ => rfl⟩
    · intro t u ht hu
      obtain ⟨hp, -, hdeadline⟩ := hspaced t u ht hu
      refine ⟨nofun, fun ha => hidle (Or.inr ha), ?_⟩
      intro d hd
      have hnow : u ≤ now := by
        rcases hspends.2.2.2 with h | ⟨d', hd', hle⟩
        · exact hp h
        · exact le_trans (hdeadline d' hd') hle
      cases done with
      | true =>
        rw [hnone rfl] at hd
        cases hd
      | false =>
        rw [(hgoes rfl).2] at hd
        exact le_trans hnow (LawfulInstant.le_add now d _ hd)
    · intro hd
      have hle := (hgoes hd).1
      simp only
      omega

def Steady (obliged : PerFamily Bool) (tr : Transition (QueryRun I AN EV) (QueryStep I)) : Prop :=
  ∀ v4 v6, tr.call.call = .outcome v4 v6 → tr.pre.query.Awaits → ∀ f : Family,
    f.pick (FamilyAttempt.project v4 v6).families = .unobligated ↔ f.pick obliged = false

/-- After `n` rounds of a slot, a family that is owed the question and has not been reached in it
has missed all of them. -/
structure SlotWaits (obliged : PerFamily Bool) (rounds : PerFamily FamilyPatience) (n : Nat) :
    Prop where
  few : n ≤ 2
  missed : ∀ f : Family, f.pick obliged = true → (f.pick rounds).covered = false →
    (f.pick rounds).missed.toNat = n

theorem saturatingSucc8_small (v : UInt8) (h : v.toNat ≤ 2) :
    (saturatingSucc8 v).toNat = v.toNat + 1 := by
  rw [saturatingSucc8]
  split
  · rename_i hv
    rw [hv] at h
    exact absurd h (by decide)
  · rw [UInt8.toNat_add]
    have hone : (1 : UInt8).toNat = 1 := rfl
    omega

theorem waitsFor_iff (p : FamilyPatience) (d : FamilyDelivery) :
    p.waitsFor d = true ↔ d = .missed ∧ p.covered = false ∧ p.missed < maxPartialRounds ∧
      p.stalled = false := by
  cases d <;> simp [FamilyPatience.waitsFor, and_assoc]

theorem classifyAdvance_advances_iff (rounds : PerFamily FamilyPatience) (d : TransmitDelivery) :
    (classifyAdvance rounds d).1.advances = true ↔ d.anyDelivered = true ∧
      ∀ f : Family, f.pick d.families = .missed →
        (f.pick rounds).waitsFor .missed = false := by
  have hwait : (∀ f : Family, f.pick d.families = .missed →
      (f.pick rounds).waitsFor .missed = false) ↔
      (rounds.v4.waitsFor d.families.v4 || rounds.v6.waitsFor d.families.v6) = false := by
    rw [Bool.or_eq_false_iff]
    constructor
    · intro h
      refine ⟨?_, ?_⟩
      · cases hd : d.families.v4 with
        | missed => exact h .v4 hd
        | delivered | unobligated => rfl
      · cases hd : d.families.v6 with
        | missed => exact h .v6 hd
        | delivered | unobligated => rfl
    · rintro ⟨h4, h6⟩ f hf
      cases f with
      | v4 =>
        have hf' : d.families.v4 = .missed := hf
        rw [hf'] at h4
        exact h4
      | v6 =>
        have hf' : d.families.v6 = .missed := hf
        rw [hf'] at h6
        exact h6
  rw [hwait]
  unfold classifyAdvance
  cases hany : d.anyDelivered with
  | false => simp [PhaseAdvance.advances]
  | true =>
    simp only [Bool.not_true, Bool.false_eq_true, if_false, true_and]
    by_cases hmissed : d.anyMissed = true
    · simp only [hmissed, Bool.not_true, Bool.false_eq_true, if_false]
      split
      · -- both families have been reached in the slot
        rename_i hcovered
        simp only [PhaseAdvance.advances, true_iff, Bool.or_eq_false_iff]
        have hnot (p : FamilyPatience) (x : FamilyDelivery)
            (hp : (p.afterRound x).covered = true) : p.waitsFor x = false := by
          cases x with
          | delivered | unobligated => rfl
          | missed =>
            cases hc : p.covered with
            | true => simp [FamilyPatience.waitsFor, hc]
            | false => simp [FamilyPatience.afterRound, hc] at hp
        simp only [PerFamily.zipWith, Bool.and_eq_true] at hcovered
        exact ⟨hnot _ _ hcovered.1, hnot _ _ hcovered.2⟩
      · split
        · rename_i hfree
          simpa [PhaseAdvance.advances, PerFamily.zipWith] using hfree
        · rename_i hheld
          have hwaits : (rounds.v4.waitsFor d.families.v4 || rounds.v6.waitsFor d.families.v6) =
              true := by
            by_contra hw
            apply hheld
            simpa [PerFamily.zipWith] using hw
          rw [hwaits]
          simp [PhaseAdvance.advances]
    · simp only [hmissed, Bool.not_false, if_true, PhaseAdvance.advances, true_iff]
      simp only [TransmitDelivery.anyMissed, Bool.or_eq_true, beq_iff_eq, not_or] at hmissed
      have hnot (p : FamilyPatience) (x : FamilyDelivery) (hx : x ≠ .missed) :
          p.waitsFor x = false := by
        cases x with
        | missed => exact absurd rfl hx
        | delivered | unobligated => rfl
      rw [hnot _ _ hmissed.1, hnot _ _ hmissed.2]
      rfl

theorem classifyAdvance_rounds (rounds : PerFamily FamilyPatience) (d : TransmitDelivery)
    (f : Family) :
    (d.anyDelivered = false → f.pick (classifyAdvance rounds d).2 =
      (f.pick rounds).afterFailure (f.pick d.families)) ∧
    (d.anyDelivered = true → (classifyAdvance rounds d).1.advances = true →
      f.pick (classifyAdvance rounds d).2 =
        ((f.pick rounds).afterRound (f.pick d.families)).afterAdvance) ∧
    (d.anyDelivered = true → (classifyAdvance rounds d).1.advances = false →
      f.pick (classifyAdvance rounds d).2 =
        (f.pick rounds).afterRound (f.pick d.families)) := by
  unfold classifyAdvance
  cases d.anyDelivered with
  | false => simp
  | true =>
    simp only [Bool.not_true, Bool.false_eq_true, if_false]
    split
    · simp [PhaseAdvance.advances]
    · split
      · simp [PhaseAdvance.advances]
      · split <;> simp [PhaseAdvance.advances]

theorem slotWaits_classify (obliged : PerFamily Bool) (rounds : PerFamily FamilyPatience) (n : Nat)
    (d : TransmitDelivery) (h : SlotWaits obliged rounds n)
    (hsteady : ∀ f : Family, f.pick d.families = .unobligated ↔ f.pick obliged = false) :
    (d.anyDelivered = false → SlotWaits obliged (classifyAdvance rounds d).2 n) ∧
    (d.anyDelivered = true → SlotWaits obliged (classifyAdvance rounds d).2
      (if (classifyAdvance rounds d).1.advances then 0 else n + 1)) := by
  have howed (f : Family) (hf : f.pick obliged = true) : f.pick d.families ≠ .unobligated := by
    intro hd
    rw [(hsteady f).mp hd] at hf
    cases hf
  constructor
  · intro hnone
    refine ⟨h.few, ?_⟩
    intro f hf hcovered
    rw [(classifyAdvance_rounds rounds d f).1 hnone] at hcovered ⊢
    have hkept : (f.pick rounds).afterFailure (f.pick d.families) = f.pick rounds := by
      have hne := howed f hf
      revert hne
      cases f.pick d.families with
      | unobligated => intro hne; exact absurd rfl hne
      | delivered | missed => intro _; rfl
    rw [hkept] at hcovered ⊢
    exact h.missed f hf hcovered
  · intro hany
    cases hadvances : (classifyAdvance rounds d).1.advances with
    | true =>
      rw [if_pos rfl]
      refine ⟨Nat.zero_le 2, ?_⟩
      intro f _ _
      rw [(classifyAdvance_rounds rounds d f).2.1 hany hadvances]
      rfl
    | false =>
      rw [if_neg (by decide)]
      have hholds : ∃ f : Family, f.pick d.families = .missed ∧
          (f.pick rounds).waitsFor .missed = true := by
        by_contra hnot
        have hall : ∀ f : Family, f.pick d.families = .missed →
            (f.pick rounds).waitsFor .missed = false := by
          intro f hf
          by_contra hw
          exact hnot ⟨f, hf, by simpa using hw⟩
        rw [(classifyAdvance_advances_iff rounds d).mpr ⟨hany, hall⟩] at hadvances
        cases hadvances
      obtain ⟨f, hf, hw⟩ := hholds
      obtain ⟨-, hcovered, hpatient, -⟩ := (waitsFor_iff _ _).mp hw
      have hfo : f.pick obliged = true := by
        cases ho : f.pick obliged with
        | true => rfl
        | false =>
          have hun := (hsteady f).mpr ho
          rw [hf] at hun
          cases hun
      have hn := h.missed f hfo hcovered
      have hlt : (f.pick rounds).missed.toNat < 2 := hpatient
      refine ⟨by omega, ?_⟩
      intro g hg hgc
      rw [(classifyAdvance_rounds rounds d g).2.2 hany hadvances] at hgc ⊢
      have hgn := h.missed g hg
      have hne := howed g hg
      revert hgc hne
      cases g.pick d.families with
      | unobligated => intro _ hne; exact absurd rfl hne
      | delivered => intro hgc; cases hgc
      | missed =>
        intro hgc _
        cases hc : (g.pick rounds).covered with
        | true =>
          simp only [FamilyPatience.afterRound, hc, if_true] at hgc
          cases hgc
        | false =>
          have hcount := hgn hc
          simp only [FamilyPatience.afterRound, hc, Bool.false_eq_true, if_false]
          rw [saturatingSucc8_small _ (by omega), hcount]

namespace QueryRun

theorem paced_run (q₀ : Query I AN EV) (hstart : Started q₀)
    (ts : List (Transition (QueryRun I AN EV) (QueryStep I))) (s : QueryRun I AN EV)
    (run : Run (machine q₀) ts s) : Paced (askedSoFar ts) s.query.pace s.clock := by
  apply run.invariant (machine q₀) Asked.add ⟨none, none, 0⟩
    (fun g s => Paced g s.query.pace s.clock) (fun _ => True)
  · rintro s rfl
    obtain ⟨handle, qname, qtype, qclass, txid, unicast, deadline, max, heq⟩ := hstart
    rw [heq]
    exact ⟨nofun, nofun, fun _ => Nat.zero_le _, fun _ _ => Nat.zero_le _, fun _ => rfl, nofun⟩
  · intro g s e h hadmits _
    exact paced_effect s.query s.clock e.now g _ e.call _ hadmits h (step_pace s e g q₀)
  · intro _ _
    trivial

theorem slot_run (q₀ : Query I AN EV) (hstart : Started q₀) (obliged : PerFamily Bool)
    (ts : List (Transition (QueryRun I AN EV) (QueryStep I))) (s : QueryRun I AN EV)
    (run : Run (machine q₀) ts s) (hsteady : ∀ tr ∈ ts, Steady obliged tr) :
    SlotWaits obliged s.query.partialRounds (askedSoFar ts).slotCost := by
  have hfresh : SlotWaits obliged (.both .default) 0 := ⟨Nat.zero_le 2, by
    intro f _ _
    cases f <;> rfl⟩
  apply run.invariant (machine q₀) Asked.add ⟨none, none, 0⟩
    (fun g s => SlotWaits obliged s.query.partialRounds g.slotCost) (Steady obliged)
  · rintro s rfl
    obtain ⟨handle, qname, qtype, qclass, txid, unicast, deadline, max, heq⟩ := hstart
    rw [heq]
    exact hfresh
  · intro g s e h _ hfair
    have heffect := step_pace s e g q₀
    have hrounds : (s.next e).query.partialRounds = (s.next e).query.pace.partialRounds := rfl
    show SlotWaits obliged (s.next e).query.partialRounds _
    rw [hrounds]
    have hround (v4 v6 : FamilyAttempt I) (hcall : e.call = .outcome v4 v6)
        (hawaits : s.query.Awaits) :=
      slotWaits_classify obliged s.query.partialRounds g.slotCost (FamilyAttempt.project v4 v6) h
        (hfair v4 v6 hcall hawaits)
    generalize hcall : e.call = call at heffect hround
    generalize (s.next e).query.pace = p at heffect ⊢
    generalize g.add ((machine q₀).transition s e) = g' at heffect ⊢
    cases heffect with
    | same _ => exact h
    | settled v4 v6 _ => exact h
    | ended _ _ _ => exact h
    | armed d _ _ _ _ => exact h
    | asks buf _ _ => exact h
    | failed v4 v6 hawaits hnone => exact (hround v4 v6 rfl hawaits).1 hnone
    | onWire v4 v6 hawaits streak hany _ => exact (hround v4 v6 rfl hawaits).2 hany
    | suppressed deadline done _ _ _ _ => exact hfresh
  · exact hsteady

theorem retryCount_step (s : QueryRun I AN EV) (e : QueryStep I) (q₀ : Query I AN EV)
    (h : (s.next e).query.retryCount ≠ s.query.retryCount) :
    (s.next e).query.retryCount = s.query.retryCount + 1 ∧
    ((∃ v4 v6, e.call = .outcome v4 v6 ∧
      (FamilyAttempt.project v4 v6).anyDelivered = true ∧
      ∀ f : Family, f.pick (FamilyAttempt.project v4 v6).families = .missed →
        (f.pick s.query.partialRounds).covered = true ∨
        maxPartialRounds ≤ (f.pick s.query.partialRounds).missed ∨
        (f.pick s.query.partialRounds).stalled = true) ∨
    (e.call = .duplicate ∧ s.query.Suppresses e.now)) := by
  have heffect := step_pace s e ⟨none, none, 0⟩ q₀
  have hcount : (s.next e).query.retryCount = (s.next e).query.pace.retryCount := rfl
  rw [hcount] at h ⊢
  generalize hcall : e.call = call at heffect
  generalize (s.next e).query.pace = p at heffect h ⊢
  generalize Asked.add (⟨none, none, 0⟩ : Asked I) ((machine q₀).transition s e) = g' at heffect
  cases heffect with
  | same _ => exact absurd rfl h
  | settled v4 v6 _ => exact absurd rfl h
  | ended _ _ _ => exact absurd rfl h
  | armed d _ _ _ _ => exact absurd rfl h
  | asks buf _ _ => exact absurd rfl h
  | failed v4 v6 _ _ => exact absurd rfl h
  | onWire v4 v6 hawaits streak hany _ =>
    cases hadvances : (s.query.advance v4 v6).advances with
    | false =>
      simp only [hadvances, Bool.false_eq_true, if_false] at h
      exact absurd rfl h
    | true =>
      refine ⟨by simp, Or.inl ⟨v4, v6, rfl, hany, ?_⟩⟩
      intro f hf
      have hfree := ((classifyAdvance_advances_iff _ _).mp hadvances).2 f hf
      by_contra hnot
      simp only [not_or, Bool.not_eq_true, UInt8.not_le] at hnot
      rw [(waitsFor_iff _ _).mpr ⟨rfl, hnot.1, hnot.2.1, hnot.2.2⟩] at hfree
      cases hfree
  | suppressed deadline done hspends _ _ _ => exact ⟨rfl, Or.inr ⟨rfl, hspends⟩⟩

theorem done_step (s : QueryRun I AN EV) (e : QueryStep I) (q₀ : Query I AN EV)
    (hlive : s.query.done = false) (h : (s.next e).query.done = true) :
    e.call = .retire ∨ s.query.callerWindowShut e.now = true ∨
      maxRetries < (s.next e).query.retryCount := by
  have heffect := step_pace s e ⟨none, none, 0⟩ q₀
  have hlive' : s.query.pace.done = false := hlive
  have hpost : (s.next e).query.done = (s.next e).query.pace.done := rfl
  have hcount : (s.next e).query.retryCount = (s.next e).query.pace.retryCount := rfl
  rw [hpost] at h
  rw [hcount]
  generalize hcall : e.call = call at heffect
  generalize (s.next e).query.pace = p at heffect h ⊢
  generalize Asked.add (⟨none, none, 0⟩ : Asked I) ((machine q₀).transition s e) = g' at heffect
  cases heffect with
  | ended _ _ hwhy => exact hwhy
  | suppressed deadline done _ hend _ _ => exact Or.inr (Or.inr (hend h))
  | same _ => cases hlive'.symm.trans h
  | settled _ _ _ => cases hlive'.symm.trans h
  | armed _ _ _ _ _ => cases hlive'.symm.trans h
  | asks _ _ _ => cases hlive'.symm.trans h
  | failed _ _ _ _ => cases hlive'.symm.trans h
  | onWire _ _ _ _ _ _ => cases hlive'.symm.trans h

/-- Over every run of a query. A question follows the last one some family accepted, at `t`, not
before `t + 1 s`; the interval after a question that reached a family but not all of them is at
least double the one after the question that reached a family before it, up to a minute, unless a
slot was suppressed in between. -/
theorem query_spacing_and_budget (q₀ : Query I AN EV) (hstart : Started q₀)
    (ts : List (Transition (QueryRun I AN EV) (QueryStep I))) (s : QueryRun I AN EV)
    (run : Run (machine q₀) ts s) :
    (∀ e sent t u, s.clock ≤ e.now → s.asked e = some sent →
      (askedSoFar ts).lastAnchor = some t → checkedAddDuration t minQueryGap = some u →
      u ≤ e.now) ∧
    (∀ now v4 v6, s.query.Awaits →
      (s.query.noteTransmitOutcome now v4 v6).1.nextDeadline =
        checkedAddDuration (FamilyAttempt.anchor v4 v6 now)
          (Duration.fromSecs (s.query.scheduledSecs v4 v6)) ∧
      ∀ secs, (askedSoFar ts).lastSecs = some secs →
        (FamilyAttempt.project v4 v6).anyDelivered = true →
        (FamilyAttempt.project v4 v6).anyMissed = true →
        min maxSecs (2 * secs) ≤ s.query.scheduledSecs v4 v6) ∧
    (∀ e, (s.next e).query.retryCount ≠ s.query.retryCount →
      (s.next e).query.retryCount = s.query.retryCount + 1 ∧
      ((∃ v4 v6, e.call = .outcome v4 v6 ∧
        (FamilyAttempt.project v4 v6).anyDelivered = true ∧
        ∀ f : Family, f.pick (FamilyAttempt.project v4 v6).families = .missed →
          (f.pick s.query.partialRounds).covered = true ∨
          maxPartialRounds ≤ (f.pick s.query.partialRounds).missed ∨
          (f.pick s.query.partialRounds).stalled = true) ∨
      (e.call = .duplicate ∧ s.query.Suppresses e.now))) ∧
    (∀ e, s.query.done = false → (s.next e).query.done = true → e.call ≠ .retire →
      s.query.callerWindowShut e.now = false → maxRetries + 1 ≤ (s.next e).query.retryCount) ∧
    (s.query.done = false → s.query.retryCount ≤ maxRetries + 1 ∧
      (s.query.retryCount = maxRetries + 1 → (∀ e, s.asked e = none) ∧
        ∀ now d, s.query.nextDeadline = some d → d ≤ now →
          (s.query.handleTimeout now).done = true)) ∧
    (∀ obliged, (∀ tr ∈ ts, Steady obliged tr) → (askedSoFar ts).slotCost + 1 ≤ 3) := by
  have hpaced := paced_run q₀ hstart ts s run
  refine ⟨?_, ?_, fun e h => retryCount_step s e q₀ h, ?_, ?_, ?_⟩
  · intro e sent t u hclock hasked ht hu
    have hpending := (asked_pending s e sent hasked).2.1
    exact le_trans ((hpaced.spaced t u ht hu).1 hpending) hclock
  · intro now v4 v6 hawaits
    refine ⟨by rw [Query.noteTransmitOutcome_heard _ _ _ _ hawaits], ?_⟩
    intro secs hsecs hany hmissed
    obtain ⟨i, hi, hle, rfl⟩ := hpaced.rung secs hsecs
    have hfailed : s.query.advance v4 v6 ≠ .failed := by
      intro h
      rw [(classifyAdvance_failed _ _).mp h] at hany
      cases hany
    have hpartial : s.query.advance v4 v6 ≠ .delivered := by
      simp only [Query.advance, classifyAdvance, hany, hmissed, Bool.not_true,
        Bool.false_eq_true, if_false]
      split
      · simp
      · split <;> simp
    rw [scheduledSecs_rung _ _ _ hpartial hfailed]
    apply retrySecs_double i _ hi
    have hle' : i ≤ s.query.retryCount + s.query.partialSendStreak := hle
    omega
  · intro e hlive hdone hretire hopen
    rcases done_step s e q₀ hlive hdone with h | h | h
    · exact absurd h hretire
    · rw [hopen] at h
      cases h
    · exact h
  · intro hlive
    refine ⟨hpaced.spent hlive, ?_⟩
    intro hspent
    constructor
    · intro e
      cases hasked : s.asked e with
      | none => rfl
      | some sent =>
        have hleft := hpaced.left hlive (Or.inl (asked_pending s e sent hasked).2.1)
        have hcount : s.query.retryCount ≤ maxRetries := hleft
        omega
    · intro now d hd hdue
      have heffect := s.query.handleTimeout_effect now
      generalize s.query.handleTimeout now = q' at heffect ⊢
      cases heffect with
      | idle h =>
        rcases h with h | ⟨-, h⟩
        · rw [hlive] at h
          cases h
        · exact absurd (h d hd) (not_lt.mpr hdue)
      | window _ _ =>
        rw [Query.terminate_of_live _ hlive]
      | budget _ _ _ _ _ _ =>
        rw [Query.terminate_of_live _ hlive]
      | arm _ _ _ _ _ hleft => omega
  · intro obliged hsteady
    have hfew := (slot_run q₀ hstart obliged ts s run hsteady).few
    omega

end QueryRun

end

namespace QueryRun

def hostQuery : Query Uptime Slab Slab :=
  (Query.tryNew ⟨1⟩ ServiceRecords.printerHost .a .in_ 7 false none).setMaxAnswers 256

def onlyV4ThenAgain : List (QueryStep Uptime) :=
  [⟨0, .transmit (List.replicate 25 0)⟩, ⟨0, .outcome (.accepted 0) .wouldBlock⟩,
    ⟨1000000000, .timeout⟩, ⟨1000000000, .transmit (List.replicate 25 0)⟩]

theorem onlyV4ThenAgain_run : Run (machine hostQuery)
    ((machine hostQuery).trace ⟨hostQuery, 0⟩ onlyV4ThenAgain)
    ((machine hostQuery).play ⟨hostQuery, 0⟩ onlyV4ThenAgain) := by
  have hplay := Run.play (machine hostQuery) [] ⟨hostQuery, 0⟩ (.start _ rfl) onlyV4ThenAgain
  rw [List.nil_append] at hplay
  apply hplay
  have hsecond : (0 : Uptime) ≤ 1000000000 := by decide
  exact ⟨le_refl (0 : Uptime), le_refl (0 : Uptime), hsecond, le_refl (1000000000 : Uptime),
    trivial⟩

theorem query_spacing_and_budget_host :
    (askedSoFar ((machine hostQuery).trace ⟨hostQuery, 0⟩ onlyV4ThenAgain)).slotCost + 1 ≤ 3 := by
  apply (query_spacing_and_budget hostQuery ⟨_, _, _, _, _, _, _, _, rfl⟩ _ _
    onlyV4ThenAgain_run).2.2.2.2.2 (.both true)
  intro tr htr v4 v6 hcall hawaits f
  simp only [onlyV4ThenAgain, Machine.trace, List.mem_cons, List.not_mem_nil, or_false] at htr
  rcases htr with rfl | rfl | rfl | rfl
  · cases hcall
  · cases hcall
    cases f <;> decide
  · cases hcall
  · cases hcall

/-- The interval after a round that reached no wire does not double: 1 s again. -/
theorem no_wire_keeps_the_interval :
    ¬ ∀ (ts : List (Transition (QueryRun Uptime Slab Slab) (QueryStep Uptime)))
      (s : QueryRun Uptime Slab Slab), Run (machine hostQuery) ts s →
      (∀ tr ∈ ts, tr.call.call ≠ .duplicate ∧ ∀ v4 v6, tr.call.call = .outcome v4 v6 →
        tr.pre.query.advance v4 v6 ≠ .delivered) →
      ∀ v4 v6 secs, s.query.Awaits → s.query.advance v4 v6 ≠ .delivered →
        (askedSoFar ts).lastSecs = some secs →
        min maxSecs (2 * secs) ≤ s.query.scheduledSecs v4 v6 := by
  intro h
  have hdoubled := h _ _ onlyV4ThenAgain_run (by
    intro tr htr
    simp only [onlyV4ThenAgain, Machine.trace, List.mem_cons, List.not_mem_nil, or_false] at htr
    constructor
    · intro hcall
      rcases htr with rfl | rfl | rfl | rfl <;> cases hcall
    · intro v4 v6 hcall
      rcases htr with rfl | rfl | rfl | rfl
      · cases hcall
      · cases hcall
        decide +kernel
      · cases hcall
      · cases hcall)
    .wouldBlock .wouldBlock 1 (by decide +kernel) (by decide +kernel) (by decide +kernel)
  revert hdoubled
  decide +kernel

end QueryRun
end Hick
