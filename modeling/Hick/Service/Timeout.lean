import Mathlib
import Hick.Service.State

/-!
# The timer of a service (service/mod.rs:193-273, 4540-5043)

A timer call first spends a latched conflict: a lost tiebreak waits a second and probes the same
name again, a defeat renames.
-/

/-!
## Confirming a datagram (service/mod.rs:1819-2458)

`note_transmit_outcome` takes the commit token of the datagram in flight and settles it: a
probe or an announcement moves the phase, and what was delivered is credited to the ledger.
-/

namespace Hick
open Octets Wire Respond

namespace Service
variable {I R : Type} {EV : Type → Type} [Instant I] [SeedableRng R] [Pool EV]

def armOnPartialLadder (s : Service I R EV) (now : I) : Service I R EV :=
  if s.partialAnnounceStreak = 0 then s
  else { s with
    lifecycleDeadline :=
      partialAnnounceDeadline now s.partialAnnounceStreak s.records.ttlSecs }

/-- The third probe is out: the settling window before the first announcement opens. -/
def enterSettling (s : Service I R EV) (now : I) (advance : PhaseAdvance) : Service I R EV :=
  let s := { s with
    state := .probing 3
    probeCount := 3
    lifecycleDeadline := announceDeadline now 0 }
  let s := if advance = .delivered then { s with partialAnnounceStreak := 0 }
    else s.armOnPartialLadder now
  -- where the window's end is not on the clock the announcement deadline stands as it is
  match checkedAddDuration now probeInterval with
  | some settled => { s with lifecycleDeadline := some (raiseTo settled s.lifecycleDeadline) }
  | none => s

def advanceProbe (s : Service I R EV) (now : I) (n : UInt8) (delivery : TransmitDelivery) :
    Service I R EV :=
  let (advance, rounds) := classifyAdvance s.partialRounds delivery
  let s := { s with partialRounds := rounds }
  if !advance.advances then { s with lifecycleDeadline := probeRetryDeadline now }
  else if n ≥ 2 then s.enterSettling now advance
  else
    let newN := saturatingSucc8 n
    let (deadline, rng) := probeDeadline now newN s.rng
    { s with
      state := .probing newN
      probeCount := newN
      lifecycleDeadline := deadline
      rng := rng }

def settleProbe (s : Service I R EV) (now : I) (delivery : TransmitDelivery) :
    Service I R EV :=
  let s := { s with probeOnWire := s.probeOnWire || delivery.anyDelivered }
  match s.state with
  | .probing n => s.advanceProbe now n delivery
  | _ => s

def deliveryAnchor (now : I) (anchor : Option I) : FamilyDelivery → Option I
  | .delivered => some now
  | .missed => some (anchor.getD now)
  | .unobligated => none

def classifyAnnouncement (s : Service I R EV) (now : I) (delivery : TransmitDelivery) :
    Service I R EV × PhaseAdvance :=
  let (advance, rounds) := classifyAdvance s.partialRounds delivery
  ({ s with
    partialRounds := rounds
    lastDelivered := s.lastDelivered.zipWith (deliveryAnchor now) delivery.families }, advance)

def onPartialLadder (s : Service I R EV) : PhaseAdvance → Bool
  | .partial_ => true
  | .covered | .excused => s.partialAnnounceStreak > 0
  | _ => false

def armAnnouncement (s : Service I R EV) (now : I) (advance : PhaseAdvance) : Service I R EV :=
  let ttl := s.records.ttlSecs
  let arm (base : Option I) : Service I R EV :=
    { s with
      lifecycleDeadline :=
        composeAnnounceDeadline now base (stalestRefreshDue s.lastDelivered s.partialRounds ttl) }
  match s.state with
  | .established =>
    if !s.reAnnounce then { s with lifecycleDeadline := none }
    else arm (reAnnounceDeadline now ttl)
  | .announcing _ =>
    if s.onPartialLadder advance then arm (partialAnnounceDeadline now s.partialAnnounceStreak ttl)
    else arm s.lifecycleDeadline
  | _ => s

def advanceAnnouncing (s : Service I R EV) (now : I) : Service I R EV :=
  match s.state with
  | .announcing n =>
    if n ≥ 1 then
      { { s with
          state := .established
          announceCount := 2 }.notify .established with
        lifecycleDeadline := reAnnounceDeadline now s.records.ttlSecs }
    else
      let newN := saturatingSucc8 n
      { s with
        state := .announcing newN
        announceCount := newN
        lifecycleDeadline := announceDeadline now newN.toNat }
  | _ => s

def retryAnnouncement (s : Service I R EV) (now : I) : Service I R EV :=
  if s.state.isPublished then { s with lifecycleDeadline := announceDeadline now 1 } else s

def climbPartialLadder (s : Service I R EV) : Service I R EV :=
  { s with partialAnnounceStreak := saturatingSucc8 s.partialAnnounceStreak }

def creditEmitted (s : Service I R EV) (emitted : EmittedRecords) (delivery : TransmitDelivery)
    (cls : SendClass) : Service I R EV :=
  { s with
    goodbye := s.goodbye.recordEmitted emitted delivery.deliveredOn cls
    generationAdvertised := s.generationAdvertised || emitted.claimsInstanceName }

def settleAnnouncement (s : Service I R EV) (now : I) (emitted : EmittedRecords)
    (delivery : TransmitDelivery) : Service I R EV :=
  let (s, advance) := s.classifyAnnouncement now delivery
  if advance = .failed then s.retryAnnouncement now
  else
    let s := s.creditEmitted emitted delivery .multicast
    if advance = .partial_ then (s.armAnnouncement now advance).climbPartialLadder
    else
      let s := if advance = .delivered then
          { s with
            partialAnnounceStreak := 0
            fullyAnnounced := true }
        else s
      let s := (s.advanceAnnouncing now).armAnnouncement now advance
      if advance.advancesWithoutDelivery then s.climbPartialLadder else s

def settleResponse (s : Service I R EV) (emitted : EmittedRecords) (cls : SendClass)
    (delivery : TransmitDelivery) : Service I R EV :=
  if delivery.anyDelivered then s.creditEmitted emitted delivery cls else s

def instanceOnly (e : EmittedRecords) : EmittedRecords := { e with a := [], aaaa := [] }

/-- The instance half of a stale datagram joins the goodbye of the name it was sent under. -/
def addToHandoff (s : Service I R EV) (records : ServiceRecords)
    (owned multicast : PerFamily EmittedRecords) : Service I R EV :=
  match s.renameGoodbyeHandoff with
  | some h =>
    { s with
      renameGoodbyeHandoff := some { h with
        owned := h.owned.zipWith EmittedRecords.mergeInstance owned
        multicast := h.multicast.zipWith EmittedRecords.mergeInstance multicast } }
  | none => { s with renameGoodbyeHandoff := some ⟨records, owned, multicast⟩ }

def settleStale (s : Service I R EV) (records : StaleRecords) (delivery : TransmitDelivery) :
    Service I R EV :=
  if !delivery.anyDelivered then s
  else
    match records with
    | .none => s
    | .sameName emitted cls =>
      { s with goodbye := s.goodbye.recordEmitted emitted delivery.deliveredOn cls }
    | .oldName records emitted cls =>
      let s := { s with
        goodbye := s.goodbye.recordHostEmitted emitted delivery.deliveredOn cls }
      let instance_ := instanceOnly emitted
      if instance_.isEmpty then s
      else
        let owned := perFamilyInstance instance_ delivery.deliveredOn
        s.addToHandoff records owned
          (if cls = .multicast then owned else .both EmittedRecords.default)

def settleConfirm (s : Service I R EV) (now : I) (kind : AwaitingConfirm)
    (delivery : TransmitDelivery) : Service I R EV :=
  match kind with
  | .probe => s.settleProbe now delivery
  | .announcement emitted => s.settleAnnouncement now emitted delivery
  | .response emitted cls => s.settleResponse emitted cls delivery
  | .metaResponse => s
  | .stale _ records => s.settleStale records delivery

def noteTransmitOutcome (s : Service I R EV) (now : I) (v4 v6 : FamilyAttempt I) :
    Service I R EV × TransmitConfirm :=
  match s.awaitingConfirm with
  | none => (s, TransmitConfirm.nothing)
  | some kind =>
    let delivery := FamilyAttempt.project v4 v6
    let anchor := FamilyAttempt.anchor v4 v6 now
    ({ s with awaitingConfirm := none }.settleConfirm anchor kind delivery,
      ⟨delivery.anyDelivered, kind.sustained && FamilyAttempt.undeliverable v4 v6⟩)

end Service
end Hick

/-! ## The timer of a service -/

namespace Hick
open Octets Wire Respond

structure NamesInUse where
  names : List Name

namespace NamesInUse

def holds (taken : NamesInUse) (candidate : Name) : Bool :=
  taken.names.any fun n => n.sameOwner candidate

def len (taken : NamesInUse) : Nat := taken.names.length

end NamesInUse

def hyphen : Byte := 45

def isAsciiDigit (b : Byte) : Bool := 48 ≤ b && b ≤ 57

def decimal (n : UInt32) : Bytes := (Nat.toDigits 10 n.toNat).map fun c => Fin.ofNat 256 c.toNat

def rsplitHyphen (s : Bytes) : Option (Bytes × Bytes) :=
  match s.reverse.span (· ≠ hyphen) with
  | (tail, _ :: head) => some (head.reverse, tail.reverse)
  | (_, []) => none

def renameStem (instance_ : Bytes) : Bytes :=
  match rsplitHyphen instance_ with
  | some (stem, n) => if n ≠ [] ∧ n.all isAsciiDigit then stem else instance_
  | none => instance_

def renameWithSuffix (current : Bytes) (attempt : UInt32) : Bytes :=
  let trailingDot := current.getLast? = some dot
  let body := trim current
  let (instance_, rest) := match splitOnce body with
    | some (i, r) => (i, some r)
    | none => (body, none)
  let out := renameStem instance_ ++ hyphen :: decimal attempt
  let out := match rest with
    | some r => out ++ dot :: r
    | none => out
  if trailingDot then out ++ [dot] else out

def saturatingSucc32 (v : UInt32) : UInt32 := if v = 4294967295 then v else v + 1

/-- The search loop of `handle_timeout` (mod.rs:4739-4757): the name found, and the attempt
counter it leaves. -/
def chooseName (current : Name) (taken : NamesInUse) : Nat → UInt32 → Option Name × UInt32
  | 0, attempt => (none, attempt)
  | tries + 1, attempt =>
    let attempt := saturatingSucc32 attempt
    match Name.tryFromStr (renameWithSuffix current.text attempt) with
    | .error _ => (none, attempt)
    | .ok name =>
      if taken.holds name then chooseName current taken tries attempt else (some name, attempt)

def due {I : Type} [Instant I] (deadline : Option I) (now : I) : Bool :=
  match deadline with
  | some d => decide (d ≤ now)
  | none => false

namespace Service
variable {I R : Type} {EV : Type → Type} [Instant I] [SeedableRng R] [Pool EV]

/-! ### Spending a latched conflict (mod.rs:4589-4814) -/

def spendTiebreakLoss (s : Service I R EV) (now : I) (flood : ConflictFlood I) :
    Service I R EV × Except HandleTimeoutError Unit :=
  s.restartProbeCycle now (checkedAddDuration now tiebreakDeferWait) none flood

def handOffInstance (s : Service I R EV) : Service I R EV :=
  if s.goodbye.anyInstance || anyFamily s.goodbye.all.nsec then
    { s with
      renameGoodbyeHandoff := some
        { records := s.records
          owned := s.goodbye.perFamily.map instanceOnly
          multicast := s.goodbye.perFamilyMulticast.map instanceOnly } }
  else s

def takeName (s : Service I R EV) (newName : Name) (now : I) (flood : ConflictFlood I) :
    Service I R EV × Except HandleTimeoutError Unit :=
  let renamedFrom := s.records
  let (deadline, rng) := probeDeadline now 0 s.rng
  let (s, outcome) :=
    { s with rng := rng }.restartProbeCycle now deadline (some renamedFrom) flood
  let s := { s with records := s.records.setInstance newName }
  ((s.notify (.renamed newName)).resetAdvertisedNameState, outcome)

def giveUpName (s : Service I R EV) : Service I R EV :=
  let s := { (s.staleLiveCommitToken (some s.records)) with state := .conflicting }.notify
    .conflict
  { s with
    lifecycleDeadline := none
    pendingTransmits := .empty
    responseDeadline := none
    goodbye := s.goodbye.resetInstance
    fullyAnnounced := false
    partialAnnounceStreak := 0 }.clearResponseCycleState

def rename (s : Service I R EV) (now : I) (flood : ConflictFlood I) (taken : NamesInUse) :
    Service I R EV × Except HandleTimeoutError Unit :=
  let s := s.handOffInstance
  let (chosen, attempt) := chooseName s.records.instanceName taken (taken.len + 1) s.renameAttempt
  let s := { s with renameAttempt := attempt }
  match chosen with
  | some newName => s.takeName newName now flood
  | none => (s.giveUpName, .ok ())

def spendConflict (s : Service I R EV) (now : I) (flood : ConflictFlood I)
    (taken : NamesInUse) : Service I R EV × Except HandleTimeoutError Unit :=
  let spent := { s with
    probeDefeated := false
    tiebreakLost := false }
  if s.probeDefeated then spent.rename now flood taken else spent.spendTiebreakLoss now flood

/-! ### The tick (mod.rs:4826-5042) -/

def rearmParked (s : Service I R EV) (now : I) (flood : ConflictFlood I) : Service I R EV :=
  if s.startupParked then
    let (base, rng) := probeDeadline now 0 s.rng
    { s with
      rng := rng
      lifecycleDeadline := s.applyBackoffFloor now base flood }
  else s

/-- The flood floor for a first probe that is due; the flag says it has no place on the
clock. -/
def holdUnderFlood (s : Service I R EV) (now : I) (flood : ConflictFlood I) :
    Service I R EV × Bool :=
  if !s.probeOnWire && s.state.inStartup && due s.lifecycleDeadline now && flood.inForce now then
    match s.backoffFloor now flood with
    | some floor =>
      if now < floor then ({ s with lifecycleDeadline := some floor }, false) else (s, false)
    | none => ({ s with lifecycleDeadline := none }, true)
  else (s, false)

def fireLifecycle (s : Service I R EV) (now : I) : Service I R EV :=
  match s.state with
  | .init =>
    let (deadline, rng) := probeDeadline now 0 s.rng
    { s with
      state := .probing 0
      lifecycleDeadline := deadline
      rng := rng }
  | .probing n =>
    if n ≥ 3 then
      { s with
        state := .announcing 0
        lifecycleDeadline := announceDeadline now 0 }
    else
      let s := s.pushLifecyclePending .probe
      let (deadline, rng) := probeDeadline now n s.rng
      { s with
        lifecycleDeadline := deadline
        rng := rng }
  | .announcing _ =>
    { (s.pushLifecyclePending .announcement) with
      lifecycleDeadline := announceDeadline now 1 }
  | .established =>
    { (s.pushLifecyclePending .announcement) with
      lifecycleDeadline := reAnnounceDeadline now s.records.ttlSecs }
  | .conflicting => s

def takeResponse (s : Service I R EV) (fired : Bool) : Service I R EV :=
  if fired then { s with responseDeadline := none } else s

def fireDue (s : Service I R EV) (now : I) : Service I R EV :=
  if due s.lifecycleDeadline now then s.fireLifecycle now else s

def queueResponse (s : Service I R EV) (fired : Bool) : Service I R EV :=
  if fired then { s with pendingTransmits := s.pendingTransmits.push .response } else s

def tick (s : Service I R EV) (now : I) (flood : ConflictFlood I) :
    Service I R EV × Except HandleTimeoutError Unit :=
  let fired := due s.responseDeadline now
  let (s, parked) := ((s.takeResponse fired).rearmParked now flood).holdUnderFlood now flood
  let s := (s.fireDue now).queueResponse fired
  (s, if parked || s.startupParked then .error .overflow else .ok ())

def handleTimeout (s : Service I R EV) (now : I) (flood : ConflictFlood I)
    (taken : NamesInUse) : Service I R EV × Except HandleTimeoutError Unit :=
  let s := { s with
    lastNow := some now
    kas := s.kas.expire now }
  if s.conflictClassifiedUnresolved then s.spendConflict now flood taken else s.tick now flood

end Service
end Hick
