import Mathlib
import Hick.Event

/-!
# The conflict flood (endpoint/flood.rs)

An endpoint counts the conflicts it accepts in a ring of fifteen instants.
-/

namespace Hick

def conflictBurstLen : Nat := 15
def conflictBurstWindow : Duration := Duration.fromSecs 10
def conflictBackoffMinWait : Duration := Duration.fromSecs 5

structure ConflictFlood (I : Type) where
  ring : List (Option I)
  slot : Nat
  latchedAt : Option I
  datagram : Option DatagramId
  accepted : List Name
  length_eq : ring.length = conflictBurstLen
  slot_lt : slot < conflictBurstLen

namespace ConflictFlood

def new {I : Type} : ConflictFlood I where
  ring := List.replicate conflictBurstLen none
  slot := 0
  latchedAt := none
  datagram := none
  accepted := []
  length_eq := List.length_replicate
  slot_lt := by decide

variable {I : Type} [Instant I]

def newest (f : ConflictFlood I) : Option I :=
  (f.ring[if f.slot = 0 then conflictBurstLen - 1 else f.slot - 1]?).join

/-- The first half of `accept`: a conflict of a datagram not yet charged for this owner. -/
def charge (f : ConflictFlood I) (datagram : DatagramId) (owner : Name) :
    Option (ConflictFlood I) :=
  let f := if f.datagram ≠ some datagram then
    { f with datagram := some datagram, accepted := [] } else f
  if f.accepted.any fun n => n.sameOwner owner then none
  else some { f with accepted := f.accepted ++ [owner] }

def expire (f : ConflictFlood I) (now : I) : ConflictFlood I :=
  match f.newest.bind (checkedDurationSince now) with
  | some since =>
    if since > conflictBurstWindow then
      { f with
        ring := List.replicate conflictBurstLen none
        slot := 0
        latchedAt := none
        length_eq := List.length_replicate
        slot_lt := by decide }
    else f
  | none => f

def store (f : ConflictFlood I) (now : I) : ConflictFlood I :=
  { f with
    ring := f.ring.set f.slot (some now)
    slot := (f.slot + 1) % conflictBurstLen
    length_eq := by rw [List.length_set, f.length_eq]
    slot_lt := Nat.mod_lt _ (by decide) }

def latch (f : ConflictFlood I) (now : I) : ConflictFlood I :=
  match ((f.ring[f.slot]?).join).bind (checkedDurationSince now) with
  | some span =>
    if span ≤ conflictBurstWindow ∧ f.latchedAt.isNone then { f with latchedAt := some now } else f
  | none => f

def accept (f : ConflictFlood I) (now : I) (datagram : DatagramId) (owner : Name) :
    ConflictFlood I × Bool :=
  match f.charge datagram owner with
  | none =>
    (if f.datagram ≠ some datagram then
      { f with datagram := some datagram, accepted := [] } else f, false)
  | some f => (((f.expire now).store now).latch now, true)

def latchEpoch (f : ConflictFlood I) (now : I) : Option I :=
  match f.latchedAt, f.newest with
  | some latched, some newest =>
    match checkedDurationSince now newest with
    | some since => if since ≤ conflictBurstWindow then some latched else none
    | none => some latched
  | _, _ => none

def inForce (f : ConflictFlood I) (now : I) : Bool := (f.latchEpoch now).isSome

end ConflictFlood

end Hick
