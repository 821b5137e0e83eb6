import Hick.Driver.Goodbyes
import Hick.Reactor.TransmitDrain
import Hick.Compio.PumpTurns

/-!
# Goodbyes behind transmits (hick-reactor/src/driver/mod.rs:1638-1846,
hick-compio/src/driver/mod.rs:2751-2966)

Transmits and goodbyes share the budget of a pass, and the transmits go first.
-/

namespace Hick
open Octets Respond

namespace Reactor

def PollAnswer.sends : PollAnswer → Nat
  | .datagram sends _ => sends
  | _ => 0

def PollAnswer.isDatagram : PollAnswer → Bool
  | .datagram _ _ => true
  | _ => false

section
variable {I : Type} [Instant I]

def PassInput.sends (p : PassInput I) : Nat → Nat
  | 0 => 0
  | n + 1 => p.sends n + (p.answer n).sends

def PassInput.offered (p : PassInput I) : Nat → Bool
  | 0 => false
  | n + 1 => p.offered n || (p.answer n).isDatagram

def PassInput.budgetAfter (p : PassInput I) (n : Nat) : DrainBudget I where
  credits := maxSendCreditsPerDrain - p.sends n
  deadline := (DrainBudget.new p.start).deadline
  started := p.offered n

def Tally.Paid (p : PassInput I) (t : Tally I) : Prop := t.budget = p.budgetAfter t.polls

theorem Tally.Paid.datagram (p : PassInput I) (t : Tally I) (h : t.Paid p) (sends : Nat)
    (retireProducer : Bool) (hanswer : p.answer t.polls = .datagram sends retireProducer) :
    (t.read.polled.charge sends).Paid p := by
  change t.budget.charge sends = p.budgetAfter (t.polls + 1)
  rw [h]
  simp only [DrainBudget.charge, PassInput.budgetAfter, PassInput.sends, PassInput.offered, hanswer,
    PollAnswer.sends, PollAnswer.isDatagram, Bool.or_true, Nat.sub_sub]

theorem Tally.Paid.none (p : PassInput I) (t : Tally I) (h : t.Paid p)
    (hsends : (p.answer t.polls).sends = 0) (hnone : (p.answer t.polls).isDatagram = false) :
    t.read.polled.Paid p := by
  change t.budget = p.budgetAfter (t.polls + 1)
  rw [h]
  simp only [PassInput.budgetAfter, PassInput.sends, PassInput.offered, hsends, hnone, Bool.or_false,
    Nat.add_zero]

theorem pollHandle_paid {C : Type} (p : PassInput I) (producer : Producer C) (fuel : Nat)
    (servedHere : Bool) (polls : Nat) (t : Tally I) (c : C) (turn : HandlePolls I C)
    (hpaid : t.Paid p) (h : pollHandle p producer fuel servedHere polls t c = some turn) :
    turn.tally.Paid p := by
  induction fuel generalizing servedHere polls t c with
  | zero => cases h
  | succ fuel ih =>
    simp only [pollHandle] at h
    split at h
    · split at h
      · rename_i sends retireProducer hanswer
        have hnext := hpaid.datagram p t sends retireProducer hanswer
        split at h
        · cases h
          exact hnext
        · exact ih _ _ _ _ hnext h
      · rename_i hanswer
        cases h
        exact hpaid.none p t (by rw [hanswer]; rfl) (by rw [hanswer]; rfl)
      · rename_i hanswer
        have hnext := hpaid.none p t (by rw [hanswer]; rfl) (by rw [hanswer]; rfl)
        split at h
        · cases h
          exact hnext
        · cases h
          exact hnext
    · cases h
      exact hpaid

theorem drainSlots_paid {H C : Type} (p : PassInput I) (producer : Producer C) (slots : List Nat)
    (d d' : ClassDrain I H C) (hpaid : d.tally.Paid p)
    (h : drainSlots p producer slots d = some d') : d'.tally.Paid p := by
  induction slots generalizing d with
  | nil =>
    cases h
    exact hpaid
  | cons slot slots ih =>
    simp only [drainSlots] at h
    split at h
    · split at h
      · exact ih { d with tally := d.tally.read } hpaid h
      · split at h
        · obtain ⟨turn, hturn, h⟩ := Option.bind_eq_some_iff.mp h
          have hnext := pollHandle_paid p producer _ false 0 d.tally.read _ turn hpaid hturn
          split at h
          · cases h
            exact hnext
          · exact ih _ hnext h
          · exact ih _ hnext h
        · exact ih { d with tally := d.tally.read } hpaid h
    · cases h
      exact hpaid

variable {SH QH : Type} [DecidableEq QH]

theorem drainTransmits_paid (p : PassInput I) (s : DriverState SH QH) (r : Drained I SH QH)
    (h : drainTransmits p s = some r) : r.tally.budget = p.budgetAfter r.tally.polls := by
  have hservices (r r' : Drained I SH QH) (hr : r.tally.Paid p)
      (h : drainServiceTransmits p r = some r') : r'.tally.Paid p := by
    obtain ⟨d, hd, hr'⟩ := Option.bind_eq_some_iff.mp h
    cases hr'
    exact drainSlots_paid p _ _ _ d hr hd
  have hqueries (r r' : Drained I SH QH) (hr : r.tally.Paid p)
      (h : drainQueryTransmits p r = some r') : r'.tally.Paid p := by
    obtain ⟨d, hd, hr'⟩ := Option.bind_eq_some_iff.mp h
    cases hr'
    exact drainSlots_paid p _ _ _ d hr hd
  have hopen : (Tally.open_ p).Paid p := rfl
  obtain ⟨last, hlast, hr⟩ := Option.bind_eq_some_iff.mp h
  cases hr
  unfold drainClasses at hlast
  dsimp only at hlast
  split at hlast
  · obtain ⟨mid, hmid, hlast⟩ := Option.bind_eq_some_iff.mp hlast
    exact hservices mid last (hqueries _ mid hopen hmid) hlast
  · obtain ⟨mid, hmid, hlast⟩ := Option.bind_eq_some_iff.mp hlast
    exact hqueries mid last (hservices _ mid hopen hmid) hlast

def accepted : FamilyAttempt I → Nat
  | .accepted _ => 1
  | _ => 0

def goodbyeRules : PumpBudget I (DrainBudget I) where
  mayStart := DrainBudget.mayStartFanout
  charge b v4 v6 := b.charge (accepted v4 + accepted v6)

def goodbyeSends (g : GoodbyeInput I) (n : Nat) : Nat → Nat
  | 0 => 0
  | k + 1 => accepted (g.v4 n) + accepted (g.v6 n) + goodbyeSends g (n + 1) k

theorem goodbyes_spent (g : GoodbyeInput I) (n k : Nat) (b : DrainBudget I) :
    g.spent goodbyeRules n b k =
      ⟨b.credits - goodbyeSends g n k, b.deadline, b.started || decide (0 < k)⟩ := by
  induction k generalizing n b with
  | zero => simp [GoodbyeInput.spent, goodbyeSends]
  | succ k ih =>
    rw [GoodbyeInput.spent, ih]
    simp [goodbyeRules, DrainBudget.charge, goodbyeSends, Nat.sub_sub]

variable [MeasuredInstant I]

theorem mayStartFanout_iff (b : DrainBudget I) (now : I) :
    b.mayStartFanout now = true ↔
      0 < b.credits ∧ (b.started = false ∨ Elapsed now sendAttemptTimeout b.deadline) := by
  rw [elapsed_iff_since, DrainBudget.mayStartFanout, Bool.and_eq_true, Bool.or_eq_true,
    decide_eq_true_iff, Bool.not_eq_true']
  cases checkedDurationSince b.deadline now with
  | none => simp
  | some left => simp

theorem goodbyes_wane (g : GoodbyeInput I) (hclock : Monotone g.clock) :
    g.Wanes goodbyeRules 0 := by
  intro m b _ h
  obtain ⟨hcredits, htime⟩ := (mayStartFanout_iff _ _).mp h
  apply (mayStartFanout_iff b _).mpr
  constructor
  · exact lt_of_lt_of_le hcredits (Nat.sub_le _ _)
  · cases htime with
    | inl hfresh => cases hfresh
    | inr hleft =>
      exact .inr (hleft.since_earlier _ _ _ _ (hclock (Nat.le_succ m)))

/-- The goodbye of `token` is sent in a pass whose transmits were these exactly when its turn comes
with fewer than 64 sends made before it, and with the pass's first fan-out or with 250 ms left. -/
theorem goodbye_sent_iff {G R : Type} {SR EV : Type → Type} [SeedSource G] [SeedableRng R]
    [Pool SR] [Pool EV] (p : PassInput I) (s : DriverState SH QH) (r : Drained I SH QH)
    (htransmits : drainTransmits p s = some r) (g : GoodbyeInput I) (hclock : Monotone g.clock)
    (e : Endpoint I G R SR EV) (w : GoodbyesPumped (Endpoint I G R SR EV) (DrainBudget I))
    (hpump : g.pump goodbyeRules r.tally.budget e = some w) (token : WithdrawalToken) :
    token ∈ w.polled ↔
      ∃ k, g.IsRound token 0 e k ∧
        p.sends r.tally.polls + goodbyeSends g 0 k < maxSendCreditsPerDrain ∧
          (p.offered r.tally.polls = false ∧ k = 0 ∨
            Elapsed (g.clock k) sendAttemptTimeout (DrainBudget.new p.start).deadline) := by
  rw [g.mem_pumpFrom goodbyeRules token g.rounds 0 _ e w (goodbyes_wane g hclock) hpump]
  apply exists_congr
  intro k
  apply and_congr_right
  intro _
  rw [goodbyes_spent, drainTransmits_paid p s r htransmits, Nat.zero_add]
  change DrainBudget.mayStartFanout _ _ = true ↔ _
  rw [mayStartFanout_iff]
  simp only [PassInput.budgetAfter, Bool.or_eq_false_iff, decide_eq_false_iff_not, Nat.pos_iff_ne_zero,
    not_not]
  apply and_congr_left
  intro _
  omega

end

end Reactor

namespace Compio

section
variable {I SH QH : Type} [Instant I] [DecidableEq SH] [DecidableEq QH]

theorem pumpFrom_budget (p : PassInput I SH QH) (fuel n : Nat) (s : State SH QH)
    (r : Pumped I SH QH) (h : pumpFrom p fuel n (p.budgetAt n) s = some r) :
    r.budget = p.budgetAt r.fanouts := by
  induction fuel generalizing n s r with
  | zero => cases h
  | succ fuel ih =>
    rw [pumpFrom] at h
    split at h
    · dsimp only at h
      split at h
      · cases h
        rfl
      · obtain ⟨rest, hrest, hr⟩ := Option.map_eq_some_iff.mp h
        rw [PassInput.budgetAt_charge] at hrest
        rw [← hr]
        exact ih (n + 1) _ rest hrest
    · cases h
      rfl

def goodbyeRules : PumpBudget I (DrainBudget I) where
  mayStart := DrainBudget.mayStartFanout
  charge b _ _ := b.charge

omit [DecidableEq SH] [DecidableEq QH] in
theorem goodbyes_spent (g : GoodbyeInput I) (p : PassInput I SH QH) (n m k : Nat) :
    g.spent goodbyeRules n (p.budgetAt m) k = p.budgetAt (m + k) := by
  induction k generalizing n m with
  | zero => rfl
  | succ k ih =>
    rw [GoodbyeInput.spent]
    change g.spent goodbyeRules (n + 1) (p.budgetAt m).charge k = _
    rw [PassInput.budgetAt_charge, ih, show m + 1 + k = m + (k + 1) by omega]

theorem mayStartFanout_iff (b : DrainBudget I) (now : I) :
    b.mayStartFanout now = true ↔ 0 < b.credits ∧ (b.started = false ∨ now < b.deadline) := by
  rw [DrainBudget.mayStartFanout, Bool.and_eq_true, Bool.or_eq_true, decide_eq_true_iff,
    decide_eq_true_iff, Bool.not_eq_true']

theorem goodbyes_wane (g : GoodbyeInput I) (hclock : Monotone g.clock) :
    g.Wanes goodbyeRules 0 := by
  intro m b _ h
  obtain ⟨hcredits, htime⟩ := (mayStartFanout_iff _ _).mp h
  apply (mayStartFanout_iff b _).mpr
  constructor
  · exact lt_of_lt_of_le hcredits (Nat.sub_le _ _)
  · cases htime with
    | inl hfresh => cases hfresh
    | inr hlt => exact .inr (lt_of_le_of_lt (hclock (Nat.le_succ m)) hlt)

/-- The goodbye of `token` is sent in a pass whose transmits were these exactly when its turn comes
with fewer than 64 fan-outs made before it, and with the pass's first or before its time is over. -/
theorem goodbye_sent_iff {G R : Type} {SR EV : Type → Type} [SeedSource G] [SeedableRng R]
    [Pool SR] [Pool EV] (p : PassInput I SH QH) (s : State SH QH) (r : Pumped I SH QH)
    (htransmits : pumpTransmits p s = some r) (g : GoodbyeInput I) (hclock : Monotone g.clock)
    (e : Endpoint I G R SR EV) (w : GoodbyesPumped (Endpoint I G R SR EV) (DrainBudget I))
    (hpump : g.pump goodbyeRules r.budget e = some w) (token : WithdrawalToken) :
    token ∈ w.polled ↔
      ∃ k, g.IsRound token 0 e k ∧ r.fanouts + k < maxTransmitCreditsPerPass ∧
        (r.fanouts + k = 0 ∨ g.clock k < (DrainBudget.new p.start).deadline) := by
  rw [g.mem_pumpFrom goodbyeRules token g.rounds 0 _ e w (goodbyes_wane g hclock) hpump]
  apply exists_congr
  intro k
  apply and_congr_right
  intro _
  have hstart : DrainBudget.new p.start = p.budgetAt 0 := rfl
  rw [pumpTransmits, hstart] at htransmits
  rw [pumpFrom_budget p p.walks 0 s r htransmits, goodbyes_spent, Nat.zero_add]
  change DrainBudget.mayStartFanout _ _ = true ↔ _
  rw [mayStartFanout_iff]
  simp only [PassInput.budgetAt, decide_eq_false_iff_not, Nat.pos_iff_ne_zero, not_not]
  apply and_congr_left
  intro _
  omega

end

end Compio

/-- A goodbye round is sent in a pass, by either driver, exactly when what the pass sends before it
leaves the budget for it: its due transmits, and the rounds that the endpoint has due ahead of it. -/
theorem goodbye_sent_iff_affordable {I G R SH QH : Type} {SR EV : Type → Type} [Instant I]
    [MeasuredInstant I] [SeedSource G] [SeedableRng R] [Pool SR] [Pool EV] [DecidableEq SH]
    [DecidableEq QH] (g : GoodbyeInput I) (hclock : Monotone g.clock) (e : Endpoint I G R SR EV)
    (token : WithdrawalToken) :
    (∀ (p : Reactor.PassInput I) (s : Reactor.DriverState SH QH) (r : Reactor.Drained I SH QH) (w),
        Reactor.drainTransmits p s = some r →
          g.pump Reactor.goodbyeRules r.tally.budget e = some w →
            (token ∈ w.polled ↔
              ∃ k, g.IsRound token 0 e k ∧
                p.sends r.tally.polls + Reactor.goodbyeSends g 0 k <
                    Reactor.maxSendCreditsPerDrain ∧
                  (p.offered r.tally.polls = false ∧ k = 0 ∨
                    Elapsed (g.clock k) Reactor.sendAttemptTimeout
                      (Reactor.DrainBudget.new p.start).deadline))) ∧
      ∀ (p : Compio.PassInput I SH QH) (s : Compio.State SH QH) (r : Compio.Pumped I SH QH) (w),
        Compio.pumpTransmits p s = some r →
          g.pump Compio.goodbyeRules r.budget e = some w →
            (token ∈ w.polled ↔
              ∃ k, g.IsRound token 0 e k ∧ r.fanouts + k < Compio.maxTransmitCreditsPerPass ∧
                (r.fanouts + k = 0 ∨ g.clock k < (Compio.DrainBudget.new p.start).deadline)) := by
  constructor
  · intro p s r w htransmits hpump
    exact Reactor.goodbye_sent_iff p s r htransmits g hclock e w hpump token
  · intro p s r w htransmits hpump
    exact Compio.goodbye_sent_iff p s r htransmits g hclock e w hpump token

def announcedGoodbye : WithdrawalItem Uptime where
  records := ServiceRecords.printer
  owned := .both { (.default : EmittedRecords) with ptr := true, srv := true, txt := true }
  multicast := .both { (.default : EmittedRecords) with ptr := true, srv := true, txt := true }
  owed := .both withdrawalSends
  nextAt := 0
  ceilingAt := (checkedAddDuration (0 : Uptime) withdrawalCeiling).getD 0
  finalAttempt := false
  route := none
  holdsName := true
  leftBy := ⟨0⟩

def leavingPrinter : Endpoint Uptime ZeroRng ZeroRng Slab Slab :=
  { (.tryNew ⟨true, true, 0⟩ ⟨⟩ : Endpoint Uptime ZeroRng ZeroRng Slab Slab) with
    withdrawals := [(⟨0⟩, announcedGoodbye)] }

def RoundDue (e : Endpoint Uptime ZeroRng ZeroRng Slab Slab) (now : Uptime) (scratch : Bytes)
    (token : WithdrawalToken) : Prop :=
  (e.pollWithdrawalTransmit now scratch).2.map (·.token) = some token

def millis (n : Nat) : Uptime := Fin.ofNat _ (n * 1000000)

def goodbyesAt (start checked : Nat) : GoodbyeInput Uptime where
  now _ := millis start
  clock _ := millis checked
  scratch := List.replicate 512 0
  v4 _ := .wouldBlock
  v6 _ := .wouldBlock
  fannedOutAt _ := millis checked
  rounds := 2

theorem goodbyesAt_clock (start checked : Nat) : Monotone (goodbyesAt start checked).clock := by
  intro m n _
  exact le_refl _

/-- A pass of the reactor in which the fan-out of a question takes 260 ms, as one family does not
accept it. -/
def slowQuestion (start : Nat) : Reactor.PassInput Uptime where
  start := millis start
  clock n := if n ≤ 1 then millis start else millis (start + 260)
  answer _ := .datagram 1 false
  pollsPerHandle := 2

def twoQueries : Reactor.DriverState Nat Nat :=
  ⟨⟨[], List.nodup_nil⟩, ⟨[(1, ⟨false⟩), (2, ⟨false⟩)], by decide⟩, 0, 0, false⟩

/-- A pass of the compio driver in which the question of `who` is due and takes 600 ms. -/
def slowerQuestion (start who : Nat) : Compio.PassInput Uptime Nat Nat where
  start := millis start
  clock n := if n = 0 then millis start else millis (start + 600)
  service _ _ := .nothing
  query _ h := if h = who then .datagram else .nothing
  retireProducer _ := false
  walks := 2

def twoQuestions : Compio.State Nat Nat :=
  ⟨⟨[], List.nodup_nil⟩, ⟨[(1, ⟨false, false⟩), (2, ⟨false, false⟩)], by decide⟩⟩

theorem leavingPrinter_roundDue (start : Uptime) (h : start = millis 0) :
    RoundDue leavingPrinter start (List.replicate 512 0) ⟨0⟩ := by
  rw [h]
  unfold RoundDue
  decide +kernel

/-- The question of one query spends the budget of a pass, and that of another the budget of the
next one: the goodbye that was due at the end of the first is sent in neither. -/
theorem goodbye_is_deferred_again :
    (¬ ∀ (p₁ p₂ : Reactor.PassInput Uptime) (g₁ g₂ : GoodbyeInput Uptime)
        (s : Reactor.DriverState Nat Nat) (e : Endpoint Uptime ZeroRng ZeroRng Slab Slab)
        (r₁ r₂ : Reactor.Drained Uptime Nat Nat) (w₁ w₂) (token : WithdrawalToken),
        Reactor.drainTransmits p₁ s = some r₁ →
        g₁.pump Reactor.goodbyeRules r₁.tally.budget e = some w₁ →
        w₁.stopped = true → RoundDue w₁.endpoint (g₁.now 0) g₁.scratch token →
        Reactor.drainTransmits p₂ r₁.driver = some r₂ →
        g₂.pump Reactor.goodbyeRules r₂.tally.budget
          (w₁.endpoint.drainCompletedWithdrawals (g₁.now 0)).1 = some w₂ →
        token ∈ w₂.polled) ∧
      ¬ ∀ (p₁ p₂ : Compio.PassInput Uptime Nat Nat) (g₁ g₂ : GoodbyeInput Uptime)
        (s : Compio.State Nat Nat) (e : Endpoint Uptime ZeroRng ZeroRng Slab Slab)
        (r₁ r₂ : Compio.Pumped Uptime Nat Nat) (w₁ w₂) (token : WithdrawalToken),
        Compio.pumpTransmits p₁ s = some r₁ →
        g₁.pump Compio.goodbyeRules r₁.budget e = some w₁ →
        w₁.stopped = true → RoundDue w₁.endpoint (g₁.now 0) g₁.scratch token →
        Compio.pumpTransmits p₂ r₁.state = some r₂ →
        g₂.pump Compio.goodbyeRules r₂.budget
          (w₁.endpoint.drainCompletedWithdrawals (g₁.now 0)).1 = some w₂ →
        token ∈ w₂.polled := by
  constructor
  · intro hall
    have hfirst := hall (slowQuestion 0) (slowQuestion 300) (goodbyesAt 0 260) (goodbyesAt 300 560)
      twoQueries leavingPrinter _ _ ⟨leavingPrinter, _, [], true⟩ ⟨leavingPrinter, _, [], true⟩ ⟨0⟩
      rfl rfl rfl (leavingPrinter_roundDue _ rfl) rfl rfl
    cases hfirst
  · intro hall
    have hfirst := hall (slowerQuestion 0 1) (slowerQuestion 600 2) (goodbyesAt 0 600)
      (goodbyesAt 600 1200) twoQuestions leavingPrinter _ _ ⟨leavingPrinter, _, [], true⟩
      ⟨leavingPrinter, _, [], true⟩ ⟨0⟩ rfl rfl rfl (leavingPrinter_roundDue _ rfl) rfl rfl
    cases hfirst

theorem slow_question_leaves_nothing :
    (¬ ∃ k, (goodbyesAt 0 260).IsRound ⟨0⟩ 0 leavingPrinter k ∧
        (slowQuestion 0).sends 1 + Reactor.goodbyeSends (goodbyesAt 0 260) 0 k <
            Reactor.maxSendCreditsPerDrain ∧
          ((slowQuestion 0).offered 1 = false ∧ k = 0 ∨
            Elapsed ((goodbyesAt 0 260).clock k) Reactor.sendAttemptTimeout
              (Reactor.DrainBudget.new (slowQuestion 0).start).deadline)) ∧
      ¬ ∃ k, (goodbyesAt 0 600).IsRound ⟨0⟩ 0 leavingPrinter k ∧
        1 + k < Compio.maxTransmitCreditsPerPass ∧
          (1 + k = 0 ∨ (goodbyesAt 0 600).clock k <
            (Compio.DrainBudget.new (slowerQuestion 0 1).start).deadline) := by
  constructor
  · intro hex
    have hsent := (goodbye_sent_iff_affordable (goodbyesAt 0 260) (goodbyesAt_clock _ _)
      leavingPrinter ⟨0⟩).1 (slowQuestion 0) twoQueries
      ⟨{ twoQueries with queryResume := 1, queriesFirst := true },
        ⟨(slowQuestion 0).budgetAfter 1, 3, 1⟩, [], [(1, 1)], true⟩
      ⟨leavingPrinter, _, [], true⟩ rfl rfl
    cases hsent.mpr hex
  · intro hex
    have hsent := (goodbye_sent_iff_affordable (goodbyesAt 0 600) (goodbyesAt_clock _ _) leavingPrinter
      ⟨0⟩).2 (slowerQuestion 0 1) twoQuestions
      ⟨twoQuestions, (slowerQuestion 0 1).budgetAt 1, 1, [.inr 1], true⟩
      ⟨leavingPrinter, _, [], true⟩ rfl rfl
    cases hsent.mpr hex

end Hick
