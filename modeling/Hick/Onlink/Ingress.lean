import Mathlib
import Hick.Lib.Prefix
import Hick.Transmit

/-!
# Which datagrams are let in (hick-onlink/src/lib.rs)

A datagram comes with what the receive path witnessed of it: the destination in its IP header, the
interface it arrived on, how the link delivered it.
-/

namespace Hick
open Octets

namespace Ipv4Addr

def isLoopback (a : Ipv4Addr) : Bool := a.octets[0]? == some 127

def isUnspecified (a : Ipv4Addr) : Bool := a.octets == [0, 0, 0, 0]

def isBroadcast (a : Ipv4Addr) : Bool := a.octets == [255, 255, 255, 255]

def isMulticast (a : Ipv4Addr) : Bool := a.octets[0]?.any fun b => 224 ≤ b && b ≤ 239

end Ipv4Addr

namespace Ipv6Addr

def isLoopback (a : Ipv6Addr) : Bool := a.octets == List.replicate 15 0 ++ [1]

def isUnspecified (a : Ipv6Addr) : Bool := a.octets == List.replicate 16 0

def isMulticast (a : Ipv6Addr) : Bool := a.octets[0]? == some 255

def isIpv4Mapped (a : Ipv6Addr) : Bool :=
  a.octets.take 12 == List.replicate 10 0 ++ [255, 255]

end Ipv6Addr

def IpAddr.isLoopback : IpAddr → Bool
  | .v4 a => a.isLoopback
  | .v6 a => a.isLoopback

/-! ### Evidence (lib.rs:150-1330) -/

inductive LinkDelivery where
  | unicast
  | multicast
  | broadcast
  deriving DecidableEq

inductive DestinationWitness where
  | witnessed (dst : IpAddr)
  | lost
  | declined
  | blind
  deriving DecidableEq

structure NonZeroU32 where
  get : UInt32
  ne_zero : get ≠ 0
  deriving DecidableEq

def NonZeroU32.new (n : UInt32) : Option NonZeroU32 := if h : n ≠ 0 then some ⟨n, h⟩ else none

inductive IfaceWitness where
  | witnessed (index : NonZeroU32)
  | lost
  | declined
  | blind
  deriving DecidableEq

def IfaceWitness.witnessedIndex : IfaceWitness → Option NonZeroU32
  | .witnessed index => some index
  | .lost | .declined | .blind => none

structure BoundLink where
  iface : UInt32
  isLoopback : Bool
  localAddrs : List (IpAddr × UInt8)
  onlinkPrefixes : List (IpAddr × UInt8)
  deriving DecidableEq

def BoundLink.new (iface : UInt32) (isLoopback : Bool) (localAddrs : List (IpAddr × UInt8)) :
    BoundLink := ⟨iface, isLoopback, localAddrs, localAddrs⟩

inductive Admit where
  | mdnsGroup
  | unscopedMdnsGroup
  | heldDestination
  | unenumeratedDestination
  | blindMulticastDelivery
  | blindSourceOnLink
  deriving DecidableEq

inductive Refuse where
  | foreignLink
  | linkWitnessLost
  | destinationWitnessLost
  | foreignGroup
  | broadcastAddressed
  | broadcastDelivery
  | unspecifiedDestination
  | loopbackDestinationOffLoopbackBinding
  | ipv4MappedDestination
  | destinationNotHeld
  | sourceOffLink
  | unscopedGroupSourceOffLink
  deriving DecidableEq

inductive IngressVerdict where
  | admitted (why : Admit)
  | refuse (why : Refuse)
  deriving DecidableEq

def IngressVerdict.isAdmit : IngressVerdict → Bool
  | .admitted _ => true
  | .refuse _ => false

/-! ### The link (lib.rs:1765-1923) -/

inductive LinkProvenance where
  | established
  | unbound
  | unproven
  deriving DecidableEq

def scopeOf : SocketAddr → UInt32
  | .v6 _ _ _ scopeId => scopeId
  | .v4 _ _ => 0

/-- The witnesses of an index in turn: whether there was one, when none names another link. -/
def scanWitnesses (iface : UInt32) (witnessed : Bool) :
    List (Option NonZeroU32) → Except Refuse Bool
  | [] => .ok witnessed
  | none :: rest => scanWitnesses iface witnessed rest
  | some witness :: rest =>
    if witness.get ≠ iface then .error .foreignLink else scanWitnesses iface true rest

def arrivedOnBoundInterface (src : SocketAddr) (link : BoundLink) (iface : IfaceWitness) :
    Except Refuse LinkProvenance :=
  if link.iface = 0 then .ok .unbound
  else
    match scanWitnesses link.iface false [iface.witnessedIndex, NonZeroU32.new (scopeOf src)] with
    | .error refusal => .error refusal
    | .ok true => .ok .established
    | .ok false =>
      if link.isLoopback && src.ip.isLoopback then .ok .established
      else
        match iface with
        | .lost => .error .linkWitnessLost
        | .declined | .blind => .ok .unproven
        | .witnessed _ => .ok .established

/-! ### Destinations (lib.rs:1925-1942, 2391-2523) -/

def mdnsIpv6Group : Ipv6Addr := ⟨[255, 2] ++ List.replicate 13 0 ++ [251], rfl⟩

def isMdnsGroup : IpAddr → Bool
  | .v4 a => a == mdnsIpv4Group
  | .v6 a => a == mdnsIpv6Group

def classifyUnheld (dst : IpAddr) (link : BoundLink) : Refuse :=
  match dst with
  | .v4 a =>
    if a.isLoopback && !link.isLoopback then .loopbackDestinationOffLoopbackBinding
    else if a.isUnspecified then .unspecifiedDestination
    else if a.isBroadcast then .broadcastAddressed
    else if a.isMulticast then .foreignGroup
    else .destinationNotHeld
  | .v6 a =>
    if a.isLoopback && !link.isLoopback then .loopbackDestinationOffLoopbackBinding
    else if a.isUnspecified then .unspecifiedDestination
    else if a.isIpv4Mapped then .ipv4MappedDestination
    else if a.isMulticast then .foreignGroup
    else .destinationNotHeld

def isBoundAddress (dst : IpAddr) (link : BoundLink) : Bool :=
  if dst.isLoopback then link.isLoopback else link.localAddrs.any fun held => held.1 == dst

/-! ### Sources (lib.rs:2525-2739) -/

def prefixMatch (net addr : Bytes) (prefix_ : UInt8) (max : Nat) : Bool :=
  if max < prefix_.toNat then false else samePrefix net addr prefix_.toNat

def addrInSubnet (net : IpAddr) (prefix_ : UInt8) (addr : IpAddr) : Bool :=
  match net, addr with
  | .v4 n, .v4 a => prefixMatch n.octets a.octets prefix_ 32
  | .v6 n, .v6 a => prefixMatch n.octets a.octets prefix_ 128
  | _, _ => false

def linkLocalV6Net : Ipv6Addr := ⟨[254, 128] ++ List.replicate 14 0, rfl⟩
def linkLocalV6PrefixLen : UInt8 := 64

def srcOnLocalLink (src : SocketAddr) (link : BoundLink) (iface : IfaceWitness)
    (provenance : LinkProvenance) : Bool :=
  if src.ip.isLoopback then
    link.isLoopback && (arrivedOnBoundInterface src link iface).toBool
  else if provenance == .established &&
      addrInSubnet (.v6 linkLocalV6Net) linkLocalV6PrefixLen src.ip then true
  else link.onlinkPrefixes.any fun np => addrInSubnet np.1 np.2 src.ip

/-! ### The verdict (lib.rs:2049-2357) -/

def sourceArm (src : SocketAddr) (link : BoundLink) (iface : IfaceWitness)
    (provenance : LinkProvenance) (admitAs : Admit) (refuse : Refuse) : IngressVerdict :=
  if srcOnLocalLink src link iface provenance then .admitted admitAs else .refuse refuse

def unscopedGroupArm (src : SocketAddr) (delivery : Option LinkDelivery) (link : BoundLink)
    (iface : IfaceWitness) (provenance : LinkProvenance) : IngressVerdict :=
  match delivery with
  | some .broadcast => .refuse .broadcastDelivery
  | some .multicast => .admitted .unscopedMdnsGroup
  | some .unicast | none =>
    sourceArm src link iface provenance .unscopedMdnsGroup .unscopedGroupSourceOffLink

def witnessedArm (src : SocketAddr) (dst : IpAddr) (delivery : Option LinkDelivery)
    (link : BoundLink) (iface : IfaceWitness) (provenance : LinkProvenance) : IngressVerdict :=
  if isMdnsGroup dst then
    match provenance with
    | .established | .unbound => .admitted .mdnsGroup
    | .unproven => unscopedGroupArm src delivery link iface provenance
  else if isBoundAddress dst link then
    sourceArm src link iface provenance .heldDestination .sourceOffLink
  else if link.localAddrs.isEmpty then
    match classifyUnheld dst link with
    | .destinationNotHeld =>
      sourceArm src link iface provenance .unenumeratedDestination .sourceOffLink
    | named => .refuse named
  else .refuse (classifyUnheld dst link)

def blindArm (src : SocketAddr) (delivery : Option LinkDelivery) (link : BoundLink)
    (iface : IfaceWitness) (provenance : LinkProvenance) : IngressVerdict :=
  match delivery with
  | some .broadcast => .refuse .broadcastDelivery
  | some .multicast => .admitted .blindMulticastDelivery
  | some .unicast | none =>
    sourceArm src link iface provenance .blindSourceOnLink .sourceOffLink

def admitsIngress (src : SocketAddr) (destination : DestinationWitness)
    (delivery : Option LinkDelivery) (link : BoundLink) (iface : IfaceWitness) : IngressVerdict :=
  match arrivedOnBoundInterface src link iface with
  | .error refusal => .refuse refusal
  | .ok provenance =>
    match destination with
    | .witnessed dst => witnessedArm src dst delivery link iface provenance
    | .lost => .refuse .destinationWitnessLost
    | .declined | .blind => blindArm src delivery link iface provenance

end Hick
