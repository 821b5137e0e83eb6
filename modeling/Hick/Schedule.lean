import Mathlib
import Hick.Pool
import Hick.Transmit

/-!
# Deadlines and phase advance (service/schedule.rs)
-/

namespace Hick

/-! ### RFC constants (schedule.rs:14-42) -/

def initialProbeWaitMaxMs : UInt32 := 250
def probeInterval : Duration := Duration.fromMillis 250
def tiebreakDeferWait : Duration := Duration.fromSecs 1
def firstAnnounceDelay : Duration := Duration.fromSecs 0
def announceInterval : Duration := Duration.fromSecs 1
def announceIntervalSecs : Nat := 1

section
variable {I : Type} [Instant I]

def probeDeadline {R : Type} [Rng R] (now : I) (probeCount : UInt8) (rng : R) : Option I × R :=
  if probeCount = 0 then
    let (draw, rng) := Rng.nextU32 rng
    let ms := draw % (initialProbeWaitMaxMs + 1)
    (checkedAddDuration now (Duration.fromMillis ms.toNat), rng)
  else (checkedAddDuration now probeInterval, rng)

def probeRetryDeadline (now : I) : Option I := checkedAddDuration now probeInterval

def announceDeadline (now : I) (announceCount : Nat) : Option I :=
  checkedAddDuration now (if announceCount = 0 then firstAnnounceDelay else announceInterval)

def maxPartialAnnounceShift : Nat := 6

def periodicRefreshSecs (ttlSecs : UInt32) : Nat := ttlSecs.toNat * 80 / 100

def partialAnnounceDeadline (now : I) (streak : UInt8) (ttlSecs : UInt32) : Option I :=
  let shift := min streak.toNat maxPartialAnnounceShift
  let rung := announceIntervalSecs * 2 ^ shift
  let cap := max (periodicRefreshSecs ttlSecs) announceIntervalSecs
  checkedAddDuration now (Duration.fromSecs (min rung cap))

def reAnnounceDeadline (now : I) (ttlSecs : UInt32) : Option I :=
  checkedAddDuration now
    (Duration.fromSecs (max (periodicRefreshSecs ttlSecs) announceIntervalSecs))

/-! ### Per-family patience (schedule.rs:207-325) -/

def maxPartialRounds : UInt8 := 2

structure FamilyPatience where
  missed : UInt8
  covered : Bool
  stalled : Bool
  deriving DecidableEq, Repr

namespace FamilyPatience

def default : FamilyPatience := ⟨0, false, false⟩

def inGoodStanding (p : FamilyPatience) : Bool := !p.stalled

end FamilyPatience

def earliest : Option I → Option I → Option I
  | some a, some b => some (min a b)
  | some a, none => some a
  | none, b => b

def stalestRefreshDue (lastDelivered : PerFamily (Option I)) (patience : PerFamily FamilyPatience)
    (ttlSecs : UInt32) : Option I :=
  let due (at_ : Option I) (p : FamilyPatience) : Option I :=
    if p.inGoodStanding then at_.bind fun t => reAnnounceDeadline t ttlSecs else none
  earliest (due lastDelivered.v4 patience.v4) (due lastDelivered.v6 patience.v6)

def composeAnnounceDeadline (now : I) (base due : Option I) : Option I :=
  match base with
  | none => none
  | some base =>
    let capped := match due with
      | some d => if d < base then d else base
      | none => base
    match announceDeadline now 1 with
    | some floor => if capped < floor then some floor else some capped
    | none => some capped

end

/-! ### Phase advance (schedule.rs:369-503) -/

inductive PhaseAdvance where
  | delivered
  | covered
  | excused
  | partial_
  | failed
  deriving DecidableEq, Repr

namespace PhaseAdvance

def advances : PhaseAdvance → Bool
  | delivered | covered | excused => true
  | partial_ | failed => false

def advancesWithoutDelivery : PhaseAdvance → Bool
  | covered | excused => true
  | _ => false

end PhaseAdvance

def saturatingSucc8 (v : UInt8) : UInt8 := if v = 255 then v else v + 1

def FamilyPatience.afterRound (p : FamilyPatience) : FamilyDelivery → FamilyPatience
  | .delivered | .unobligated => ⟨0, true, false⟩
  | .missed => if p.covered then p else { p with missed := saturatingSucc8 p.missed }

def FamilyPatience.waitsFor (p : FamilyPatience) : FamilyDelivery → Bool
  | .missed => !p.covered && p.missed < maxPartialRounds && !p.stalled
  | _ => false

def FamilyPatience.afterAdvance (p : FamilyPatience) : FamilyPatience :=
  { missed := 0, covered := false, stalled := p.stalled || !p.covered }

def FamilyPatience.afterFailure (p : FamilyPatience) : FamilyDelivery → FamilyPatience
  | .unobligated => FamilyPatience.default
  | _ => p

def classifyAdvance (patience : PerFamily FamilyPatience) (delivery : TransmitDelivery) :
    PhaseAdvance × PerFamily FamilyPatience :=
  if !delivery.anyDelivered then
    (.failed, patience.zipWith FamilyPatience.afterFailure delivery.families)
  else
    let waiting := patience.zipWith FamilyPatience.waitsFor delivery.families
    let excusable := !(waiting.v4 || waiting.v6)
    let round := patience.zipWith FamilyPatience.afterRound delivery.families
    let advanced := round.map FamilyPatience.afterAdvance
    if !delivery.anyMissed then (.delivered, advanced)
    else if round.v4.covered && round.v6.covered then (.covered, advanced)
    else if excusable then (.excused, advanced)
    else (.partial_, round)

theorem classifyAdvance_failed (patience : PerFamily FamilyPatience)
    (delivery : TransmitDelivery) :
    (classifyAdvance patience delivery).1 = .failed ↔ delivery.anyDelivered = false := by
  unfold classifyAdvance
  cases h : delivery.anyDelivered with
  | false => simp
  | true =>
    simp only [Bool.not_true, Bool.false_eq_true, if_false]
    split
    · simp
    · split
      · simp
      · split <;> simp

theorem classifyAdvance_advances (patience : PerFamily FamilyPatience)
    (delivery : TransmitDelivery)
    (h : (classifyAdvance patience delivery).1.advances = true) :
    delivery.anyDelivered = true := by
  cases hd : delivery.anyDelivered with
  | true => rfl
  | false =>
    rw [(classifyAdvance_failed patience delivery).mpr hd] at h
    cases h

end Hick
