import Mathlib
import Hick.Transmit

/-!
# The log of what was sent (hick-udp/src/selfsend.rs)

The kernel loops every multicast back to its sender. The tracker keeps a credit for each send, by
address family and with the octets sent; a datagram that matches a live credit is the host's own
echo and takes it. A credit ages from the seal that follows its send, on the monotonic clock; its
order with a kernel receive stamp is a matter of the wall clock, which may step.
-/

namespace Hick
open Octets

/-- `std::time::Instant`, in nanoseconds; `saturating_duration_since` is the difference. -/
abbrev StdInstant := Nat

abbrev SystemTime := Int

def selfSendTtl : Duration := Duration.fromSecs 2
def maxSelfSendEntries : Nat := 65536
def maxSelfSendBytes : Nat := 1048576
def wallStepTolerance : Duration := Duration.fromMillis 50

structure ClockPair where
  wall : SystemTime
  mono : StdInstant
  deriving DecidableEq

inductive MatchMode where
  | ordered
  | degraded
  deriving DecidableEq

inductive SelfSendMatch where
  | ordered
  | degraded
  | superseded
  | noCredit
  deriving DecidableEq

def SelfSendMatch.fromMode : MatchMode → SelfSendMatch
  | .ordered => .ordered
  | .degraded => .degraded

def SelfSendMatch.isClaim : SelfSendMatch → Bool
  | .ordered | .degraded => true
  | .superseded | .noCredit => false

/-! ### What a datagram asserts (selfsend.rs:953-971) -/

inductive SelfSendClass where
  | assertion
  | question
  deriving DecidableEq

def SelfSendClass.of (body : Bytes) : SelfSendClass :=
  match body with
  | _ :: _ :: flagsHi :: _ :: _ :: _ :: _ :: _ :: nsHi :: nsLo :: arHi :: arLo :: _ =>
    if flagsHi &&& 128 ≠ 0 then .assertion
    else if nsHi ||| nsLo ||| arHi ||| arLo ≠ 0 then .assertion
    else .question
  | _ => .assertion

structure Credit where
  family : Family
  body : Bytes
  generation : UInt64
  cls : SelfSendClass
  sent : ClockPair
  agedFrom : Option StdInstant
  deriving DecidableEq

/-! ### Evidence (selfsend.rs:1918-2018) -/

def stillLive (now : StdInstant) (agedFrom : Option StdInstant) : Bool :=
  match agedFrom with
  | none => true
  | some from_ => decide (now - from_ ≤ selfSendTtl)

def absDiff (a b : Duration) : Duration := a - b + (b - a)

def wallStepped (sent now : ClockPair) : Bool :=
  let elapsed := now.mono - sent.mono
  if sent.wall ≤ now.wall then
    decide (wallStepTolerance < absDiff (now.wall - sent.wall).toNat elapsed)
  else decide (wallStepTolerance < (sent.wall - now.wall).toNat + elapsed)

def evidenceMode (rx : Option SystemTime) (sent now : ClockPair) : MatchMode :=
  match rx with
  | none => .degraded
  | some _ => if wallStepped sent now then .degraded else .ordered

def referenceOrdered (grain : Duration) (rx : Option SystemTime) (sent : ClockPair)
    (mode : MatchMode) : Bool :=
  match mode, rx with
  | .ordered, some rx =>
    if sent.wall ≤ rx then true else decide ((sent.wall - rx).toNat ≤ grain)
  | _, _ => true

/-! ### The tracker (selfsend.rs:1043-1819) -/

structure SelfSendTracker where
  entries : List Credit
  bytes : Nat
  generation : UInt64
  sealGeneration : UInt64

namespace SelfSendTracker

def new : SelfSendTracker := ⟨[], 0, 0, 0⟩

def supersede (t : SelfSendTracker) : SelfSendTracker :=
  { t with generation := t.generation + 1 }

def bodyBytes (entries : List Credit) : Nat := (entries.map fun c => c.body.length).sum

def reclaimExpiredSealed (t : SelfSendTracker) (now : StdInstant) : SelfSendTracker :=
  let kept := t.entries.filter fun c => stillLive now c.agedFrom
  { t with
    entries := kept
    bytes := bodyBytes kept }

def fits (t : SelfSendTracker) (reclaimable freed len : Nat) : Bool :=
  t.entries.length - reclaimable < maxSelfSendEntries &&
    t.bytes - freed + len ≤ maxSelfSendBytes

/-- The loop of `admit`, at the front `rest`: how many credits to drop and what they free. Each
front is weighed on a reading of its own. -/
def admitLoop (t : SelfSendTracker) (clock : Nat → StdInstant) (len : Nat) :
    Nat → Nat → List Credit → Option (Nat × Nat)
  | reclaimable, freed, rest =>
    if t.fits reclaimable freed len then some (reclaimable, freed)
    else
      match rest with
      | front :: rest =>
        if stillLive (clock reclaimable) front.agedFrom then none
        else admitLoop t clock len (reclaimable + 1) (freed + front.body.length) rest
      | [] => none

def admitBody (t : SelfSendTracker) (clock : Nat → StdInstant) (len : Nat) : Option SelfSendTracker :=
  (t.admitLoop clock len 0 0 t.entries).map fun (reclaimable, freed) =>
    { t with
      entries := t.entries.drop reclaimable
      bytes := t.bytes - freed }

def sweptFor (t : SelfSendTracker) (sweepNow : StdInstant) (len : Nat) : SelfSendTracker :=
  if maxSelfSendEntries ≤ t.entries.length || maxSelfSendBytes < t.bytes + len then
    t.reclaimExpiredSealed sweepNow
  else t

def creditOf (t : SelfSendTracker) (family : Family) (body : Bytes) (sent : ClockPair) : Credit where
  family := family
  body := body
  generation := t.generation
  cls := .of body
  sent := sent
  agedFrom := none

def recordBy (t : SelfSendTracker) (family : Family) (body : Bytes) (sent : ClockPair)
    (sweepNow : StdInstant) (clock : Nat → StdInstant) : SelfSendTracker :=
  let t := t.sweptFor sweepNow body.length
  match t.admitBody clock body.length with
  | some t =>
    { t with
      bytes := t.bytes + body.length
      entries := t.entries ++ [t.creditOf family body sent] }
  | none => t

def anchored (openedAt : StdInstant) (c : Credit) : Credit :=
  { c with agedFrom := some (c.agedFrom.getD openedAt) }

def openWindowAt (t : SelfSendTracker) (openedAt : StdInstant) : SelfSendTracker :=
  { t with
    entries := t.entries.map (anchored openedAt)
    sealGeneration := t.sealGeneration + 1 }

def seal_ (t : SelfSendTracker) (sweepNow openedAt : StdInstant) : SelfSendTracker :=
  (t.reclaimExpiredSealed sweepNow).openWindowAt openedAt

def matches_ (family : Family) (body : Bytes) (c : Credit) : Bool :=
  c.family == family && c.body == body

def passes (grain : Duration) (rx : Option SystemTime) (now : ClockPair) (c : Credit) : Bool :=
  stillLive now.mono c.agedFrom && referenceOrdered grain rx c.sent (evidenceMode rx c.sent now)

def isCurrent (generation : UInt64) (c : Credit) : Bool :=
  c.generation == generation || c.cls == .question

/-- The scan of `claim_by` from position `pos`, the `k`-th reading next: the current match, if
there is one, and whether a superseded one was passed. -/
def scanClaim (grain : Duration) (family : Family) (body : Bytes) (rx : Option SystemTime)
    (generation : UInt64) (clock : Nat → ClockPair) :
    List Credit → Nat → Nat → Bool → Option (Nat × MatchMode) × Bool
  | [], _, _, superseded => (none, superseded)
  | c :: rest, pos, k, superseded =>
    if !matches_ family body c then
      scanClaim grain family body rx generation clock rest (pos + 1) k superseded
    else if !passes grain rx (clock k) c then
      scanClaim grain family body rx generation clock rest (pos + 1) (k + 1) superseded
    else if isCurrent generation c then
      (some (pos, evidenceMode rx c.sent (clock k)), superseded)
    else scanClaim grain family body rx generation clock rest (pos + 1) (k + 1) true

def claimBy (t : SelfSendTracker) (grain : Duration) (family : Family) (body : Bytes)
    (rx : Option SystemTime) (clock : Nat → ClockPair) : SelfSendTracker × SelfSendMatch :=
  match scanClaim grain family body rx t.generation clock t.entries 0 0 false with
  | (some (pos, mode), _) =>
    ({ t with
      entries := t.entries.eraseIdx pos
      bytes := t.bytes - (t.entries[pos]?.map fun c => c.body.length).getD 0 }, .fromMode mode)
  | (none, true) => (t, .superseded)
  | (none, false) => (t, .noCredit)

end SelfSendTracker
end Hick

/-!
## The embedded log of what was sent (hick-smoltcp/src/engine/mod.rs:120-200, 839-1358)

One entry for a datagram, with a flag for each family: on which it went out, and on which the echo
is still owed. There is no wall clock here and no receive stamp.
-/

namespace Hick
open Octets

def recentSendBytes : Nat := 16384
def recentSendTtl : Duration := Duration.fromSecs 5

def recentSendClass (data : Bytes) : SelfSendClass := .of data

structure SelfSend (I : Type) where
  data : Bytes
  at_ : I
  generation : UInt64
  cls : SelfSendClass
  sentOn : PerFamily Bool
  owed : PerFamily Bool
  deriving DecidableEq

inductive SelfLog where
  | current
  | superseded
  | none
  deriving DecidableEq

structure Multicaster (I : Type) where
  recent : List (SelfSend I)
  recentBytes : Nat
  generation : UInt64

namespace Multicaster
variable {I : Type} [Instant I]

def new : Multicaster I := ⟨[], 0, 0⟩

def supersede (m : Multicaster I) : Multicaster I :=
  { m with generation := m.generation + 1 }

def expired (now : I) (s : SelfSend I) : Bool :=
  (checkedDurationSince now s.at_).any fun age => decide (recentSendTtl < age)

def withinTtl (now : I) (s : SelfSend I) : Bool :=
  (checkedDurationSince now s.at_).any fun age => decide (age ≤ recentSendTtl)

def pruneExpired (now : I) : List (SelfSend I) → Nat → List (SelfSend I) × Nat
  | front :: rest, bytes =>
    if expired now front then pruneExpired now rest (bytes - front.data.length)
    else (front :: rest, bytes)
  | [], bytes => ([], bytes)

def evictFor (len : Nat) : List (SelfSend I) → Nat → List (SelfSend I) × Nat
  | front :: rest, bytes =>
    if recentSendBytes < bytes + len then evictFor len rest (bytes - front.data.length)
    else (front :: rest, bytes)
  | [], bytes => ([], bytes)

def record (m : Multicaster I) (data : Bytes) (now : I) (acceptedBy : PerFamily Bool) :
    Multicaster I :=
  let pruned := pruneExpired now m.recent m.recentBytes
  let kept := evictFor data.length pruned.1 pruned.2
  { m with
    recent := kept.1 ++ [{
      data := data
      at_ := now
      generation := m.generation
      cls := recentSendClass data
      sentOn := acceptedBy
      owed := acceptedBy }]
    recentBytes := kept.2 + data.length }

def recordSend (m : Multicaster I) (data : Bytes) (now : I) (acceptedBy : PerFamily Bool) :
    Multicaster I :=
  if acceptedBy.v4 || acceptedBy.v6 then m.record data now acceptedBy else m

def scanClaim (family : Family) (data : Bytes) (now : I) (generation : UInt64) :
    List (SelfSend I) → Nat → Bool → Option Nat × Bool
  | [], _, superseded => (none, superseded)
  | s :: rest, pos, superseded =>
    if s.data != data then scanClaim family data now generation rest (pos + 1) superseded
    else if !withinTtl now s then scanClaim family data now generation rest (pos + 1) superseded
    else if !family.pick s.sentOn then
      scanClaim family data now generation rest (pos + 1) superseded
    else
      let owedHere := family.pick s.owed
      if s.generation == generation || s.cls == .question then
        if owedHere then (some pos, superseded)
        else scanClaim family data now generation rest (pos + 1) superseded
      else if !owedHere then scanClaim family data now generation rest (pos + 1) superseded
      else scanClaim family data now generation rest (pos + 1) true

def spent (family : Family) (s : SelfSend I) : SelfSend I :=
  { s with
    owed :=
      match family with
      | .v4 => { s.owed with v4 := false }
      | .v6 => { s.owed with v6 := false } }

def spendAt (m : Multicaster I) (family : Family) (pos : Nat) : Multicaster I :=
  match m.recent[pos]? with
  | some entry =>
    let entry := spent family entry
    if !entry.owed.v4 && !entry.owed.v6 then
      { m with
        recent := m.recent.eraseIdx pos
        recentBytes := m.recentBytes - entry.data.length }
    else { m with recent := m.recent.set pos entry }
  | none => m

def claim (m : Multicaster I) (family : Family) (data : Bytes) (now : I) :
    Multicaster I × SelfLog :=
  match scanClaim family data now m.generation m.recent 0 false with
  | (some pos, _) => (m.spendAt family pos, .current)
  | (none, true) => (m, .superseded)
  | (none, false) => (m, .none)

end Multicaster
end Hick
