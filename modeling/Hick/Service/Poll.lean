import Mathlib
import Hick.Matching
import Hick.Service.State

/-!
# The transmit poll of a service (service/mod.rs:5091-5484)

At most one datagram is in flight.
-/

namespace Hick
open Octets Wire Respond

/-- A datagram handed to the driver; `message` is what it left in the buffer. -/
structure Sent where
  transmit : Transmit
  message : Message

def Message.size (m : Message) : Nat := m.octets.length

def Sent.stamped (token : AwaitingConfirm) (dst : SocketAddr) (msg : Message) : Sent where
  transmit :=
    { dst := dst
      srcIp := none
      size := msg.size
      obligation := token.obligation
      minFamilyGap := token.minFamilyGap }
  message := msg

namespace Service
variable {I R : Type} {EV : Type → Type} [Instant I] [SeedableRng R] [Pool EV]

def stampedObligation (s : Service I R EV) : TransmitObligation :=
  match s.awaitingConfirm with
  | some token => token.obligation
  | none => .oneShot

def stampedMinFamilyGap (s : Service I R EV) : Duration :=
  match s.awaitingConfirm with
  | some token => token.minFamilyGap
  | none => 0

def commit (s : Service I R EV) (token : AwaitingConfirm) (dst : SocketAddr) (msg : Message) :
    Service I R EV × Sent :=
  let s := { s with awaitingConfirm := some token }
  (s,
    { transmit :=
        { dst := dst
          srcIp := none
          size := msg.size
          obligation := s.stampedObligation
          minFamilyGap := s.stampedMinFamilyGap }
      message := msg })

omit [Instant I] [SeedableRng R] [Pool EV] in
def metaSuppressed (s : Service I R EV) (now : I) : Bool :=
  (match s.metaKnownAnswered with
    | some until_ => decide (now < until_)
    | none => false) && s.metaQuestionerSrcs.length == 1

/-- The enumeration reply (mod.rs:5121-5156). -/
def pollMeta (s : Service I R EV) (now : I) (buf : Bytes) : Service I R EV × Option Sent :=
  match s.metaResponseDeadline with
  | none => (s, none)
  | some due =>
    if now < due then (s, none)
    else
      let suppressed := s.metaSuppressed now
      let s := { s with
        metaResponseDeadline := none
        metaQuestionerSrcs := []
        metaKnownAnswered := none }
      if suppressed then (s, none)
      else
        match Name.tryFromStr dnsSdMetaQueryName with
        | .error _ => (s, none)
        | .ok meta_ =>
          match writeMetaResponse s.records meta_ buf with
          | .error _ => (s, none)
          | .ok (msg, ()) =>
            let (s, sent) := s.commit .metaResponse multicastDst msg
            (s, some sent)

def encodeLegacy (records : ServiceRecords) (legacy : LegacyResp) (buf : Bytes) :
    Except EncodeError (Message × AwaitingConfirm) :=
  if legacy.isMeta then
    match writeLegacyMetaResponse records legacy.queryId legacy.name legacy.qtype legacy.qclass
        buf with
    | .error e => .error e
    | .ok (msg, ()) => .ok (msg, .metaResponse)
  else
    match writeLegacyResponse records legacy.queryId legacy.name legacy.qtype legacy.qclass
        buf with
    | .error e => .error e
    | .ok (msg, emitted) => .ok (msg, .response emitted .unicast)

/-- The oldest one-shot reply; one that does not fit is dropped (mod.rs:5164-5233). -/
def pollLegacy (s : Service I R EV) (buf : Bytes) : Service I R EV × Option Sent :=
  match s.pendingLegacy with
  | [] => (s, none)
  | legacy :: rest =>
    if s.conflictClassifiedUnresolved then (s, none)
    else
      let s := { s with pendingLegacy := rest }
      match encodeLegacy s.records legacy buf with
      | .error _ => (s, none)
      | .ok (msg, token) =>
        let (s, sent) := s.commit token legacy.dst msg
        (s, some sent)

def suppresses (s : Service I R EV) (now : I) (rtype : ResourceType) (rdata : Bytes) : Bool :=
  s.questionerSrcs.length ≤ 1 && s.kas.covers now rtype rdata

/-- The head of the transmit queue (mod.rs:5236-5484). -/
def pollQueue (s : Service I R EV) (now : I) (buf : Bytes) :
    Service I R EV × Except TransmitError (Option Sent) :=
  let tooSmall : TransmitError := .bufferTooSmall ⟨buf.length, buf.length⟩
  let popped := { s with pendingTransmits := s.pendingTransmits.pop }
  match s.pendingTransmits.peek with
  | none => (s, .ok none)
  | some kind =>
    if s.conflictClassifiedUnresolved then (s, .ok none)
    else
      match kind with
      | .probe =>
        match writeProbe s.records buf with
        | .error _ => (s, .error tooSmall)
        | .ok (msg, ()) =>
          let (s, sent) := popped.commit .probe multicastDst msg
          (s, .ok (some sent))
      | .announcement =>
        match writeAnnounce s.records buf with
        | .error _ => (s, .error tooSmall)
        | .ok (msg, nsec) =>
          let (s, sent) := popped.commit (.announcement (announced s.records nsec))
            multicastDst msg
          (s, .ok (some sent))
      | .response =>
        match writeAnnounceFiltered s.records buf (s.suppresses now) with
        | .error _ => (s, .error tooSmall)
        | .ok (msg, emitted) =>
          let drained := { popped with
            kas := s.kas.drop
            questionerSrcs := [] }
          if emitted.isEmpty then (drained, .ok none)
          else
            let (s, sent) := drained.commit (.response emitted .multicast) multicastDst msg
            (s, .ok (some sent))

def pollTransmit (s : Service I R EV) (now : I) (buf : Bytes) :
    Service I R EV × Except TransmitError (Option Sent) :=
  if s.awaitingConfirm.isSome then (s, .ok none)
  else
    match s.pollMeta now buf with
    | (s, some sent) => (s, .ok (some sent))
    | (s, none) =>
      match s.pollLegacy buf with
      | (s, some sent) => (s, .ok (some sent))
      | (s, none) => s.pollQueue now buf

end Service
end Hick
