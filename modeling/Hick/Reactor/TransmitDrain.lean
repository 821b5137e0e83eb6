import Hick.Driver.Producer
import Hick.Lib.ListedMap
import Hick.Time

/-!
# The transmit drain of a pass (hick-reactor/src/driver/mod.rs:1100-1521)

Each class of producers is drained from its cursor on, handle by handle, and each handle until it
has nothing more to send.
-/

/-!
## What one driver pass may spend (hick-reactor/src/driver/mod.rs:1763-1846)

A pass has a number of send credits and a stretch of wall clock.
-/

namespace Hick

namespace Reactor

def maxSendCreditsPerDrain : Nat := 64

def sendAttemptTimeout : Duration := Duration.fromMillis 250

def drainPassBudget : Duration := Duration.fromMillis 500

structure DrainBudget (I : Type) where
  credits : Nat
  deadline : I
  started : Bool
deriving DecidableEq

namespace DrainBudget
variable {I : Type} [Instant I]

def new (passStart : I) : DrainBudget I where
  credits := maxSendCreditsPerDrain
  deadline := (checkedAddDuration passStart drainPassBudget).getD passStart
  started := false

def mayStartFanout (b : DrainBudget I) (now : I) : Bool :=
  0 < b.credits &&
    (!b.started ||
      match checkedDurationSince b.deadline now with
      | some left => sendAttemptTimeout ≤ left
      | none => false)

def charge (b : DrainBudget I) (sends : Nat) : DrainBudget I :=
  { b with credits := b.credits - sends, started := true }

end DrainBudget

end Reactor

end Hick

/-! ## The transmit drain of a pass -/

namespace Hick
open RoundRobin

namespace Reactor

/-- What a poll of a producer comes to: a datagram, with the sends its fan-out made and whether its
confirm retires the producer, nothing, or an encode error. -/
inductive PollAnswer where
  | datagram (sends : Nat) (retireProducer : Bool)
  | nothing
  | unencodable
deriving DecidableEq

/-- One pass: its start, the clock as it is read one time after another, what the polls answer, and
a bound on the polls of one handle. -/
structure PassInput (I : Type) where
  start : I
  clock : Nat → I
  answer : Nat → PollAnswer
  pollsPerHandle : Nat

structure Tally (I : Type) where
  budget : DrainBudget I
  reads : Nat
  polls : Nat

namespace Tally
variable {I : Type} [Instant I]

def open_ (p : PassInput I) : Tally I := ⟨.new p.start, 0, 0⟩

def mayStartFanout (p : PassInput I) (t : Tally I) : Bool :=
  t.budget.mayStartFanout (p.clock t.reads)

def read (t : Tally I) : Tally I := { t with reads := t.reads + 1 }

def polled (t : Tally I) : Tally I := { t with polls := t.polls + 1 }

def charge (t : Tally I) (sends : Nat) : Tally I := { t with budget := t.budget.charge sends }

end Tally

structure ServiceCtx where
  doorbellClosed : Bool
  withdrawing : Bool
  encodeFailures : Nat
deriving DecidableEq

structure QueryCtx where
  doorbellClosed : Bool
deriving DecidableEq

/-- The service half: encode errors in a row are counted, and enough of them withdraw. -/
def serviceProducer : Producer ServiceCtx where
  live c := !c.doorbellClosed && !c.withdrawing
  answered c := { c with encodeFailures := 0 }
  failed c := { c with encodeFailures := min (c.encodeFailures + 1) 255 }
  givesUp c := maxConsecutiveEncodeErrors ≤ c.encodeFailures
  retire c := { c with withdrawing := true }

def queryProducer : Producer QueryCtx where
  live c := !c.doorbellClosed
  answered c := c
  failed c := c
  givesUp _ := true
  retire c := c

/-- How the polls of one handle end: at a spent budget, after which the cursor is parked past a
handle that was served and on one that was not, or with the handle done or retired. -/
inductive HandleEnd where
  | cut (servedHere : Bool)
  | done
  | retired
deriving DecidableEq

structure HandlePolls (I C : Type) where
  tally : Tally I
  ctx : C
  polls : Nat
  ended : HandleEnd

section
variable {I C : Type} [Instant I]

def pollHandle (p : PassInput I) (producer : Producer C) :
    Nat → Bool → Nat → Tally I → C → Option (HandlePolls I C)
  | 0, _, _, _, _ => none
  | fuel + 1, servedHere, polls, t, c =>
    if t.mayStartFanout p then
      let asked := t.read.polled
      match p.answer t.polls with
      | .datagram sends retireProducer =>
        if retireProducer then
          some ⟨asked.charge sends, producer.retire (producer.answered c), polls + 1, .retired⟩
        else
          pollHandle p producer fuel true (polls + 1) (asked.charge sends) (producer.answered c)
      | .nothing => some ⟨asked, producer.answered c, polls + 1, .done⟩
      | .unencodable =>
        if producer.givesUp (producer.failed c) then
          some ⟨asked, producer.retire (producer.failed c), polls + 1, .retired⟩
        else some ⟨asked, producer.failed c, polls + 1, .done⟩
    else some ⟨t.read, c, polls, .cut servedHere⟩

end

/-- The drain of one class: `polled` lists the handles that were polled, with their polls, and
`retired` those that were given up. -/
structure ClassDrain (I H C : Type) where
  tally : Tally I
  producers : ListedMap H C
  resume : Nat
  morePending : Bool
  polled : List (H × Nat)
  retired : List H

section
variable {I H C : Type} [Instant I]

/-- The handles to visit from `slot` on: the rest of the `for` loop over the slots. -/
def drainSlots (p : PassInput I) (producer : Producer C) :
    List Nat → ClassDrain I H C → Option (ClassDrain I H C)
  | [], d => some d
  | slot :: slots, d =>
    if d.tally.mayStartFanout p then
      match d.producers.entries[slot]? with
      | none => drainSlots p producer slots { d with tally := d.tally.read }
      | some (h, c) =>
        if producer.live c then do
          let turn ← pollHandle p producer p.pollsPerHandle false 0 d.tally.read c
          let log := if turn.polls = 0 then d.polled else d.polled ++ [(h, turn.polls)]
          let d := { d with
            tally := turn.tally
            producers := d.producers.modify slot fun _ => turn.ctx
            polled := log }
          match turn.ended with
          | .cut servedHere =>
            some { d with resume := if servedHere then slot + 1 else slot, morePending := true }
          | .done => drainSlots p producer slots d
          | .retired => drainSlots p producer slots { d with retired := d.retired ++ [h] }
        else drainSlots p producer slots { d with tally := d.tally.read }
    else some { d with tally := d.tally.read, resume := slot, morePending := true }

def drainClass (p : PassInput I) (producer : Producer C) (producers : ListedMap H C) (resume : Nat)
    (t : Tally I) : Option (ClassDrain I H C) :=
  drainSlots p producer (places producers.keys.length resume) ⟨t, producers, resume, false, [], []⟩

end

structure DriverState (SH QH : Type) where
  services : ListedMap SH ServiceCtx
  queries : ListedMap QH QueryCtx
  svcResume : Nat
  queryResume : Nat
  queriesFirst : Bool

/-- What a pass leaves: the driver, the handles that were polled, and whether it was cut short. -/
structure Drained (I SH QH : Type) where
  driver : DriverState SH QH
  tally : Tally I
  servicesPolled : List (SH × Nat)
  queriesPolled : List (QH × Nat)
  morePending : Bool

section
variable {I SH QH : Type} [Instant I] [DecidableEq QH]

def drainServiceTransmits (p : PassInput I) (r : Drained I SH QH) : Option (Drained I SH QH) := do
  let d ← drainClass p serviceProducer r.driver.services r.driver.svcResume r.tally
  let driver := { r.driver with services := d.producers, svcResume := d.resume }
  return { r with
    driver := driver
    tally := d.tally
    servicesPolled := d.polled
    morePending := r.morePending || d.morePending }

def drainQueryTransmits (p : PassInput I) (r : Drained I SH QH) : Option (Drained I SH QH) := do
  let d ← drainClass p queryProducer r.driver.queries r.driver.queryResume r.tally
  let left := d.producers.removeAll fun h => d.retired.contains h
  let driver := { r.driver with queries := left, queryResume := d.resume }
  return { r with
    driver := driver
    tally := d.tally
    queriesPolled := d.polled
    morePending := r.morePending || d.morePending }

def drainClasses (p : PassInput I) (s : DriverState SH QH) : Option (Drained I SH QH) :=
  let fresh : Drained I SH QH := ⟨s, .open_ p, [], [], false⟩
  if s.queriesFirst then drainQueryTransmits p fresh >>= drainServiceTransmits p
  else drainServiceTransmits p fresh >>= drainQueryTransmits p

def drainTransmits (p : PassInput I) (s : DriverState SH QH) : Option (Drained I SH QH) := do
  let r ← drainClasses p s
  let driver := { r.driver with
    queriesFirst := if r.morePending then !s.queriesFirst else r.driver.queriesFirst }
  return { r with driver := driver }

end

end Reactor

end Hick
