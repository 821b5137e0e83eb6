import Mathlib
import Hick.Transmit
import Hick.Wire.Reader

/-!
# Events a datagram routes to a service (event.rs)
-/

namespace Hick
open Octets Wire

structure ServiceQuestion where
  question : QuestionRef
  src : SocketAddr
  queryId : UInt16
  truncated : Bool

inductive ConflictOrigin where
  | tentativeProbe
  | authoritativeResponse
  deriving DecidableEq, Repr

inductive ConflictHistory where
  | unmatched
  | relinquished
  deriving DecidableEq, Repr

inductive ConflictRole where
  | instance_
  | instanceAndHost
  deriving DecidableEq, Repr

structure DatagramId where
  raw : UInt64
  deriving DecidableEq, Repr

structure ProbeConflict where
  src : SocketAddr
  record : Ref
  datagram : DatagramId
  history : ConflictHistory
  role : ConflictRole

structure ProbeProposal where
  src : SocketAddr
  reader : MessageReader
  datagram : DatagramId

namespace ProbeProposal

def authority (pp : ProbeProposal) : List (Except ParseError Ref) := pp.reader.authority

def questions (pp : ProbeProposal) : List (Except ParseError QuestionRef) := pp.reader.questions

end ProbeProposal

structure HostConflict where
  record : Ref
  origin : ConflictOrigin
  datagram : DatagramId

structure KnownAnswer where
  src : SocketAddr
  record : Ref

inductive ServiceEvent where
  | question (sq : ServiceQuestion)
  | probeConflict (pc : ProbeConflict)
  | probeProposal (pp : ProbeProposal)
  | hostConflict (hc : HostConflict)
  | knownAnswer (ka : KnownAnswer)

def ServiceEvent.datagram : ServiceEvent → Option DatagramId
  | probeConflict pc => some pc.datagram
  | probeProposal pp => some pp.datagram
  | hostConflict hc => some hc.datagram
  | question _ | knownAnswer _ => none

inductive ServiceUpdate where
  | established
  | renamed (newName : Name)
  | conflict
  | hostConflict
  deriving DecidableEq

end Hick
