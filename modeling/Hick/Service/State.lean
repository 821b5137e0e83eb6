import Mathlib
import Hick.Flood
import Hick.Schedule
import Hick.Service.Ledger

/-!
# The state of a service (service/mod.rs:1080-1493, service/state.rs)

A service probes for its instance name, announces it, then answers for it. The fields follow
the source's; `kas_hints` and `kas_next_slot` are one ring, and the two-slot transmit queue
is one `Pending`.
-/

namespace Hick
open Octets Wire Respond

inductive ServiceState where
  | init
  | probing (n : UInt8)
  | announcing (n : UInt8)
  | established
  | conflicting
  deriving DecidableEq, Repr

namespace ServiceState

def inStartup : ServiceState → Bool
  | init | probing _ => true
  | _ => false

def isPublished : ServiceState → Bool
  | announcing _ | established => true
  | _ => false

end ServiceState

/-! ### The transmit queue (mod.rs:283-295, 2672-2753) -/

inductive PendingTransmitKind where
  | probe
  | announcement
  | response
  deriving DecidableEq, Repr

structure Pending where
  first : Option PendingTransmitKind
  second : Option PendingTransmitKind
  deriving DecidableEq, Repr

namespace Pending

def empty : Pending := ⟨none, none⟩

def isEmpty (p : Pending) : Bool := p.first.isNone && p.second.isNone

def push (p : Pending) (kind : PendingTransmitKind) : Pending :=
  if p.first.isNone then { p with first := some kind }
  else if p.second.isNone then { p with second := some kind }
  else p

def pop (p : Pending) : Pending :=
  if p.first.isSome then ⟨p.second, none⟩ else p

def peek (p : Pending) : Option PendingTransmitKind := p.first

def Holds (p : Pending) (kind : PendingTransmitKind) : Prop :=
  p.first = some kind ∨ p.second = some kind

@[simp] theorem empty_holds (kind : PendingTransmitKind) : ¬empty.Holds kind := by
  simp [empty, Holds]

theorem push_holds (p : Pending) (kind k : PendingTransmitKind) (h : (p.push kind).Holds k) :
    p.Holds k ∨ k = kind := by
  unfold push at h
  split at h
  · rcases h with h | h
    · exact .inr (Option.some.inj h).symm
    · exact .inl (.inr h)
  · split at h
    · rcases h with h | h
      · exact .inl (.inl h)
      · exact .inr (Option.some.inj h).symm
    · exact .inl h

theorem holds_push (p : Pending) (kind k : PendingTransmitKind) (h : p.Holds k) :
    (p.push kind).Holds k := by
  obtain ⟨first, second⟩ := p
  cases h with
  | inl hfirst =>
    obtain rfl : first = some k := hfirst
    cases second with
    | none => exact Or.inl rfl
    | some k' => exact Or.inl rfl
  | inr hsecond =>
    obtain rfl : second = some k := hsecond
    cases first with
    | none => exact Or.inr rfl
    | some k' => exact Or.inr rfl

theorem pop_holds (p : Pending) (k : PendingTransmitKind) (h : p.pop.Holds k) : p.Holds k := by
  unfold pop at h
  split at h
  · rcases h with h | h
    · exact .inr h
    · cases h
  · exact h

theorem peek_holds (p : Pending) (k : PendingTransmitKind) (h : p.peek = some k) : p.Holds k :=
  .inl h

end Pending

/-! ### Known answers (mod.rs:35-55, 126-139) -/

def hashRdata (bytes : Bytes) : UInt64 :=
  bytes.foldl (fun h b => (h ^^^ UInt64.ofNat b.val) * 0x100000001b3) 0xcbf29ce484222325

structure KasHint (I : Type) where
  rtype : ResourceType
  rdataHash : UInt64
  expiresAt : I

def kasRingSize : Nat := 16
def maxQuestionerSrcs : Nat := 8
def maxLegacyResponses : Nat := 8

structure KasRing (I : Type) where
  hints : List (Option (KasHint I))
  nextSlot : Nat
  length_eq : hints.length = kasRingSize
  slot_lt : nextSlot < kasRingSize

namespace KasRing
variable {I : Type}

def empty : KasRing I where
  hints := List.replicate kasRingSize none
  nextSlot := 0
  length_eq := List.length_replicate
  slot_lt := by decide

def drop (r : KasRing I) : KasRing I :=
  { r with
    hints := List.replicate kasRingSize none
    length_eq := List.length_replicate }

def store (r : KasRing I) (hint : KasHint I) : KasRing I where
  hints := r.hints.set r.nextSlot (some hint)
  nextSlot := (r.nextSlot + 1) % kasRingSize
  length_eq := by rw [List.length_set, r.length_eq]
  slot_lt := Nat.mod_lt _ (by decide)

def expire [Instant I] (r : KasRing I) (now : I) : KasRing I :=
  { r with
    hints := r.hints.map fun slot => slot.filter fun hint => !decide (hint.expiresAt ≤ now)
    length_eq := by rw [List.length_map, r.length_eq] }

def covers [Instant I] (r : KasRing I) (now : I) (rtype : ResourceType) (rdata : Bytes) : Bool :=
  let h := hashRdata rdata
  r.hints.any fun slot =>
    match slot with
    | some hint => hint.rtype == rtype && hint.rdataHash == h && decide (now < hint.expiresAt)
    | none => false

end KasRing

structure LegacyResp where
  dst : SocketAddr
  queryId : UInt16
  name : Name
  qtype : ResourceType
  qclass : ResourceClass
  isMeta : Bool
  deriving DecidableEq

/-! ### Commit tokens (mod.rs:344-511) -/

inductive StaleWireFact where
  | probe
  | announcement
  | response
  deriving DecidableEq, Repr

inductive StaleRecords where
  | none
  | sameName (emitted : EmittedRecords) (cls : SendClass)
  | oldName (records : ServiceRecords) (emitted : EmittedRecords) (cls : SendClass)

def StaleRecords.renamed (records : StaleRecords) (renamedFrom : Option ServiceRecords) :
    StaleRecords :=
  match records, renamedFrom with
  | sameName emitted cls, some old => oldName old emitted cls
  | records, _ => records

inductive AwaitingConfirm where
  | probe
  | announcement (emitted : EmittedRecords)
  | response (emitted : EmittedRecords) (cls : SendClass)
  | metaResponse
  | stale (fact : StaleWireFact) (records : StaleRecords)

namespace AwaitingConfirm

def obligation : AwaitingConfirm → TransmitObligation
  | probe | announcement _ => .sustained
  | response .. | metaResponse | stale .. => .oneShot

def minFamilyGap : AwaitingConfirm → Duration
  | probe => probeInterval
  | announcement _ => announceInterval
  | response .. | metaResponse | stale .. => 0

def sustained : AwaitingConfirm → Bool
  | probe | announcement _ | stale .probe _ | stale .announcement _ => true
  | response .. | metaResponse | stale .response _ => false

/-- What `stale_live_commit_token` (mod.rs:2302-2345) makes of a token. -/
def demoted (renamedFrom : Option ServiceRecords) : AwaitingConfirm → AwaitingConfirm
  | probe => stale .probe .none
  | announcement e =>
    stale .announcement (StaleRecords.renamed (.sameName e .multicast) renamedFrom)
  | response e cls => stale .response (StaleRecords.renamed (.sameName e cls) renamedFrom)
  | metaResponse => metaResponse
  | stale fact records => stale fact (records.renamed renamedFrom)

end AwaitingConfirm

structure RenameGoodbyeHandoff where
  records : ServiceRecords
  owned : PerFamily EmittedRecords
  multicast : PerFamily EmittedRecords

structure WithdrawalSnapshot where
  records : ServiceRecords
  owned : PerFamily EmittedRecords
  multicast : PerFamily EmittedRecords

structure Service (I R : Type) (EV : Type → Type) where
  state : ServiceState
  probeCount : UInt8
  announceCount : UInt8
  reAnnounce : Bool
  records : ServiceRecords
  lifecycleDeadline : Option I
  responseDeadline : Option I
  renameAttempt : UInt32
  pendingTransmits : Pending
  rng : R
  pendingUpdates : EV ServiceUpdate
  lastNow : Option I
  kas : KasRing I
  questionerSrcs : List SocketAddr
  probeOnWire : Bool
  generationAdvertised : Bool
  tiebreakLost : Bool
  probeDefeated : Bool
  goodbye : GoodbyeOwnership
  fullyAnnounced : Bool
  partialAnnounceStreak : UInt8
  partialRounds : PerFamily FamilyPatience
  lastDelivered : PerFamily (Option I)
  awaitingConfirm : Option AwaitingConfirm
  pendingLegacy : List LegacyResp
  lastConflictReprobe : Option I
  sequenceStartedAt : I
  floodEligibility : Option (DatagramId × Bool)
  renameGoodbyeHandoff : Option RenameGoodbyeHandoff
  metaResponseDeadline : Option I
  metaQuestionerSrcs : List SocketAddr
  metaKnownAnswered : Option I

inductive HandleTimeoutError where
  | overflow
  deriving DecidableEq, Repr

structure BufferTooSmallDetail where
  needed : Nat
  have_ : Nat
  deriving DecidableEq, Repr

inductive TransmitError where
  | bufferTooSmall (detail : BufferTooSmallDetail)
  deriving DecidableEq, Repr

def raiseTo {I : Type} [Instant I] (floor : I) : Option I → I
  | some d => max d floor
  | none => floor

def floorFrom {I : Type} [Instant I] (startedAt now : I) (flood : ConflictFlood I) : Option I :=
  let anchor := match flood.latchEpoch now with
    | some epoch => if startedAt < epoch then epoch else startedAt
    | none => startedAt
  checkedAddDuration anchor conflictBackoffMinWait

def underFlood {I : Type} [Instant I] (startedAt now : I) (deadline : Option I)
    (flood : ConflictFlood I) : Option I :=
  if !flood.inForce now then deadline
  else (floorFrom startedAt now flood).map fun floor => raiseTo floor deadline

namespace Service
variable {I R : Type} {EV : Type → Type} [Instant I] [SeedableRng R] [Pool EV]

def tryNew (records : ServiceRecords) (now : I) (rngSeed : Bytes) (probe reAnnounce : Bool)
    (flood : ConflictFlood I) : Service I R EV :=
  let rng : R := SeedableRng.fromSeed rngSeed
  let start : ServiceState × Option I × R :=
    if probe then
      let (base, rng) := probeDeadline now 0 rng
      let deadline := match flood.latchEpoch now with
        | some epoch =>
          (checkedAddDuration (max now epoch) conflictBackoffMinWait).map fun floor =>
            raiseTo floor base
        | none => base
      (.init, deadline, rng)
    else (.announcing 0, announceDeadline now 0, rng)
  { state := start.1
    probeCount := 0
    announceCount := 0
    reAnnounce := reAnnounce
    records := records
    lifecycleDeadline := start.2.1
    responseDeadline := none
    renameAttempt := 0
    pendingTransmits := .empty
    rng := start.2.2
    pendingUpdates := Pool.new
    lastNow := some now
    kas := .empty
    questionerSrcs := []
    probeOnWire := false
    generationAdvertised := false
    tiebreakLost := false
    probeDefeated := false
    goodbye := .default
    fullyAnnounced := false
    partialAnnounceStreak := 0
    partialRounds := .both .default
    lastDelivered := .both none
    awaitingConfirm := none
    pendingLegacy := []
    lastConflictReprobe := none
    sequenceStartedAt := now
    floodEligibility := none
    renameGoodbyeHandoff := none
    metaResponseDeadline := none
    metaQuestionerSrcs := []
    metaKnownAnswered := none }

def conflictClassifiedUnresolved (s : Service I R EV) : Bool := s.probeDefeated || s.tiebreakLost

def renameImminent (s : Service I R EV) : Bool := s.probeDefeated

def isPreauthoritative (s : Service I R EV) : Bool :=
  match s.state with
  | .init | .probing _ => true
  | .announcing n => n == 0 && !s.generationAdvertised && s.awaitingConfirm.isNone
  | _ => false

def startupParked (s : Service I R EV) : Bool :=
  s.lifecycleDeadline.isNone && s.pendingTransmits.isEmpty && s.awaitingConfirm.isNone &&
    !s.probeOnWire && s.state.inStartup

def pollTimeout (s : Service I R EV) : Option I :=
  if !s.pendingLegacy.isEmpty then s.lastNow
  else if s.conflictClassifiedUnresolved then s.lastNow
  else if s.startupParked then s.lastNow
  else earliest s.lifecycleDeadline (earliest s.responseDeadline s.metaResponseDeadline)

def pushLifecyclePending (s : Service I R EV) (kind : PendingTransmitKind) : Service I R EV :=
  if s.awaitingConfirm.isSome then s
  else { s with pendingTransmits := s.pendingTransmits.push kind }

def notify (s : Service I R EV) (update : ServiceUpdate) : Service I R EV :=
  match Pool.insert s.pendingUpdates update with
  | some (_, updates) => { s with pendingUpdates := updates }
  | none => s

def poll (s : Service I R EV) : Service I R EV × Option ServiceUpdate :=
  match Pool.iter s.pendingUpdates with
  | [] => (s, none)
  | (entry, _) :: _ =>
    match Pool.tryRemove s.pendingUpdates entry with
    | some (update, updates) => ({ s with pendingUpdates := updates }, some update)
    | none => (s, none)

def clearResponseCycleState (s : Service I R EV) : Service I R EV :=
  { s with
    pendingLegacy := []
    kas := .empty
    questionerSrcs := []
    metaResponseDeadline := none
    metaQuestionerSrcs := []
    metaKnownAnswered := none }

def resetAdvertisedNameState (s : Service I R EV) : Service I R EV :=
  { s with
    goodbye := s.goodbye.resetInstance
    fullyAnnounced := false
    partialAnnounceStreak := 0
    lastDelivered := .both none }

def takeRenameGoodbyeHandoff (s : Service I R EV) :
    Service I R EV × Option RenameGoodbyeHandoff :=
  ({ s with renameGoodbyeHandoff := none }, s.renameGoodbyeHandoff)

def withdrawalSnapshot (s : Service I R EV) : WithdrawalSnapshot :=
  ⟨s.records, s.goodbye.perFamily, s.goodbye.perFamilyMulticast⟩

def quiesceForWithdrawal (s : Service I R EV) : Service I R EV :=
  { s with
    pendingTransmits := .empty
    lifecycleDeadline := none
    responseDeadline := none }.clearResponseCycleState

def floodEligible (s : Service I R EV) (datagram : DatagramId) : Service I R EV × Bool :=
  match s.floodEligibility with
  | some (seen, eligible) =>
    if seen = datagram then (s, eligible)
    else ({ s with floodEligibility := some (datagram, s.probeOnWire) }, s.probeOnWire)
  | none => ({ s with floodEligibility := some (datagram, s.probeOnWire) }, s.probeOnWire)

/-! ### The flood floor (mod.rs:3100-3273) -/

def backoffFloor (s : Service I R EV) (now : I) (flood : ConflictFlood I) : Option I :=
  floorFrom s.sequenceStartedAt now flood

def applyBackoffFloor (s : Service I R EV) (now : I) (deadline : Option I)
    (flood : ConflictFlood I) : Option I :=
  underFlood s.sequenceStartedAt now deadline flood

def deferFirstProbeUnderFlood (s : Service I R EV) (now : I) (flood : ConflictFlood I) :
    Service I R EV :=
  if s.awaitingConfirm.isSome || s.probeOnWire || s.pendingTransmits.peek != some .probe ||
      !flood.inForce now then s
  else
    match s.backoffFloor now flood with
    | some floor =>
      if now < floor then
        { s with
          pendingTransmits := s.pendingTransmits.pop
          lifecycleDeadline := some floor }
      else s
    | none => { s with pendingTransmits := s.pendingTransmits.pop }

def staleLiveCommitToken (s : Service I R EV) (renamedFrom : Option ServiceRecords) :
    Service I R EV :=
  { s with awaitingConfirm := s.awaitingConfirm.map (·.demoted renamedFrom) }

def restartProbeCycle (s : Service I R EV) (now : I) (deadline : Option I)
    (renamedFrom : Option ServiceRecords) (flood : ConflictFlood I) :
    Service I R EV × Except HandleTimeoutError Unit :=
  let s := { (s.staleLiveCommitToken renamedFrom) with
    state := .init
    probeCount := 0
    announceCount := 0
    probeOnWire := false
    probeDefeated := false
    tiebreakLost := false
    generationAdvertised := false
    pendingTransmits := .empty
    responseDeadline := none
    partialRounds := .both .default }.clearResponseCycleState
  let s := { s with sequenceStartedAt := now }
  let s := { s with lifecycleDeadline := s.applyBackoffFloor now deadline flood }
  (s, if s.lifecycleDeadline.isNone then .error .overflow else .ok ())

end Service
end Hick
