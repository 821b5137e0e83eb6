import Hick.Driver.Producer
import Hick.Lib.ListedMap
import Hick.Time

/-!
# The transmit pump (hick-compio/src/driver/mod.rs:770-968, 1675-1770)

The pump takes one datagram at a time. Each time it walks the services and then the queries from the
front, and takes the first datagram that one of them has due.
-/

/-!
## What one pass of the compio driver may spend (hick-compio/src/driver/mod.rs:41, 2749-2794)
-/

namespace Hick

namespace Compio

def maxTransmitCreditsPerPass : Nat := 64

def drainPassBudget : Duration := Duration.fromMillis 500

structure DrainBudget (I : Type) where
  credits : Nat
  deadline : I
  started : Bool
deriving DecidableEq

namespace DrainBudget
variable {I : Type} [Instant I]

def new (passStart : I) : DrainBudget I where
  credits := maxTransmitCreditsPerPass
  deadline := (checkedAddDuration passStart drainPassBudget).getD passStart
  started := false

def mayStartFanout (b : DrainBudget I) (now : I) : Bool :=
  0 < b.credits && (!b.started || decide (now < b.deadline))

def charge (b : DrainBudget I) : DrainBudget I :=
  { b with credits := b.credits - 1, started := true }

end DrainBudget

end Compio

end Hick

/-! ## The transmit pump -/

namespace Hick

namespace Compio

structure ServiceCtx where
  cancelled : Bool
  errored : Bool
  encodeFailures : Nat
deriving DecidableEq

structure QueryCtx where
  cancelled : Bool
  errored : Bool
deriving DecidableEq

/-- Enough encode errors in a row begin the withdrawal of a service, which marks it errored. -/
def serviceProducer : Producer ServiceCtx where
  live c := !c.cancelled && !c.errored
  answered c := { c with encodeFailures := 0 }
  failed c := { c with encodeFailures := min (c.encodeFailures + 1) 255 }
  givesUp c := maxConsecutiveEncodeErrors ≤ c.encodeFailures
  retire c := { c with errored := true }

def queryProducer : Producer QueryCtx where
  live c := !c.cancelled && !c.errored
  answered c := c
  failed c := c
  givesUp _ := true
  retire c := { c with errored := true }

inductive PollAnswer where
  | datagram
  | nothing
  | unencodable
deriving DecidableEq

structure State (SH QH : Type) where
  services : ListedMap SH ServiceCtx
  queries : ListedMap QH QueryCtx

/-- One pass: the clock at each check of the budget, what the producers answer in each walk, whether
the confirm of the datagram taken there retires its producer, and a bound on the walks. -/
structure PassInput (I SH QH : Type) where
  start : I
  clock : Nat → I
  service : Nat → SH → PollAnswer
  query : Nat → QH → PollAnswer
  retireProducer : Nat → Bool
  walks : Nat

structure Walk (H C : Type) where
  producers : ListedMap H C
  polled : List H
  drawn : Option H

section
variable {H C : Type}

def walkSlots (producer : Producer C) (answer : H → PollAnswer) :
    List Nat → ListedMap H C → Walk H C
  | [], m => ⟨m, [], none⟩
  | slot :: slots, m =>
    match m.entries[slot]? with
    | none => walkSlots producer answer slots m
    | some (h, c) =>
      if producer.live c then
        match answer h with
        | .datagram => ⟨m.modify slot fun _ => producer.answered c, [h], some h⟩
        | .nothing =>
          let w := walkSlots producer answer slots (m.modify slot fun _ => producer.answered c)
          { w with polled := h :: w.polled }
        | .unencodable =>
          let w := walkSlots producer answer slots (m.modify slot fun _ => producer.unencodable c)
          { w with polled := h :: w.polled }
      else walkSlots producer answer slots m

def walk (producer : Producer C) (answer : H → PollAnswer) (m : ListedMap H C) : Walk H C :=
  walkSlots producer answer (List.range m.keys.length) m

def updateHandle [DecidableEq H] (m : ListedMap H C) (h : H) (f : C → C) : ListedMap H C :=
  match m.keys.idxOf? h with
  | some slot => m.modify slot f
  | none => m

end

/-- What `poll_one_transmit` leaves: the handles it polled, services first, and the origin of the
datagram. -/
structure Polled (SH QH : Type) where
  state : State SH QH
  polled : List (SH ⊕ QH)
  origin : Option (SH ⊕ QH)

section
variable {I SH QH : Type}

def pollOneTransmit (p : PassInput I SH QH) (n : Nat) (s : State SH QH) : Polled SH QH :=
  let a := walk serviceProducer (p.service n) s.services
  match a.drawn with
  | some h => ⟨{ s with services := a.producers }, a.polled.map .inl, some (.inl h)⟩
  | none =>
    let b := walk queryProducer (p.query n) s.queries
    ⟨⟨a.producers, b.producers⟩, a.polled.map .inl ++ b.polled.map .inr, b.drawn.map .inr⟩

structure Pumped (I SH QH : Type) where
  state : State SH QH
  budget : DrainBudget I
  fanouts : Nat
  polled : List (SH ⊕ QH)
  exhausted : Bool

variable [Instant I] [DecidableEq SH] [DecidableEq QH]

def retireOrigin (s : State SH QH) : SH ⊕ QH → State SH QH
  | .inl h => { s with services := updateHandle s.services h serviceProducer.retire }
  | .inr h => { s with queries := updateHandle s.queries h queryProducer.retire }

def pumpFrom (p : PassInput I SH QH) :
    Nat → Nat → DrainBudget I → State SH QH → Option (Pumped I SH QH)
  | 0, _, _, _ => none
  | fuel + 1, n, budget, s =>
    if budget.mayStartFanout (p.clock n) then
      let drawn := pollOneTransmit p n s
      match drawn.origin with
      | none => some ⟨drawn.state, budget, n, drawn.polled, false⟩
      | some origin =>
        let s := if p.retireProducer n then retireOrigin drawn.state origin else drawn.state
        (pumpFrom p fuel (n + 1) budget.charge s).map fun r =>
          { r with polled := drawn.polled ++ r.polled }
    else some ⟨s, budget, n, [], true⟩

def pumpTransmits (p : PassInput I SH QH) (s : State SH QH) : Option (Pumped I SH QH) :=
  pumpFrom p p.walks 0 (.new p.start) s

end

end Compio

end Hick
