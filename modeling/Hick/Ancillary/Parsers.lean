import Hick.Ancillary.CmsgIter
import Hick.Onlink.Ingress

/-!
# What a control buffer tells of a datagram (hick-udp/src/multicast.rs:405-500, 1240-1702,
2085-2230, hick-onlink/src/lib.rs:734-1018)

Each parser walks the buffer for the entries of its own type and reads the first one. An error of
the walk ends the search.
-/

namespace Hick
open Octets Unfolding

def DestinationWitness.fromReportingPath (destination : Option IpAddr) (controlTruncated : Bool) :
    DestinationWitness :=
  match destination with
  | some dst => .witnessed dst
  | none => if controlTruncated then .lost else .declined

def IfaceWitness.fromReportingPath (index : UInt32) (controlTruncated : Bool) : IfaceWitness :=
  match NonZeroU32.new index with
  | some idx => .witnessed idx
  | none => if controlTruncated then .lost else .declined

def IfaceWitness.fromReportingPathSigned (index : Int32) (controlTruncated : Bool) : IfaceWitness :=
  let index := if index < 0 then 0 else index.toUInt32
  IfaceWitness.fromReportingPath index controlTruncated

def Ipv4Addr.unspecified : Ipv4Addr := ⟨[0, 0, 0, 0], rfl⟩

def Ipv6Addr.unspecified : Ipv6Addr := ⟨List.replicate 16 0, List.length_replicate⟩

namespace Ancillary

/-- What the platform fixes beside the layout: its byte order, the numbers of its levels and types,
and how a timestamp stands in memory. -/
structure Target where
  layout : Layout
  littleEndian : Bool
  ipprotoIp : Int32
  ipprotoIpv6 : Int32
  solSocket : Int32
  ipPktinfo : Int32
  ipRecvdstaddr : Int32
  ipRecvif : Int32
  ipTtl : Int32
  ipRecvttl : Int32
  ipv6Pktinfo : Int32
  ipv6Hoplimit : Int32
  scmTimestamp : Int32
  stampSize : Nat
  readStamp : Bytes → Int × Int
  pair_apart : ipRecvdstaddr ≠ ipRecvif

def Target.ofNe (t : Target) (bs : Bytes) : Nat := ofLe (if t.littleEndian then bs else bs.reverse)

structure SystemTime where
  secs : Nat
  nanos : Nat
  deriving DecidableEq

def SystemTime.sinceEpoch (secs nanos : Nat) : Option SystemTime :=
  if secs < 2 ^ 63 then some ⟨secs, nanos⟩ else none

structure RecvMeta where
  len : Nat
  peer : SocketAddr
  localIp : IpAddr
  destination : DestinationWitness
  iface : IfaceWitness
  rxTime : Option SystemTime
  hopLimit : Option Byte
  delivery : Option LinkDelivery
  deriving DecidableEq

def RecvMeta.new (len : Nat) (peer : SocketAddr) (localIp : IpAddr)
    (destination : DestinationWitness) (iface : IfaceWitness) (rxTime : Option SystemTime) :
    RecvMeta := ⟨len, peer, localIp, destination, iface, rxTime, none, none⟩

def chunk (data : Bytes) (at_ n : Nat) : Except ParseRecvMetaError {b : Bytes // b.length = n} :=
  if h : at_ + n ≤ data.length then
    .ok ⟨(data.drop at_).take n, by rw [List.length_take, List.length_drop]; omega⟩
  else .error (.bufferTooShort n data.length)

def firstOf {A : Type} (wanted : ParsedCmsg → Bool) (found : ParsedCmsg → A)
    (broken : ParseRecvMetaError → A) (absent : A) : List CmsgItem → A
  | [] => absent
  | .error e :: _ => broken e
  | .ok c :: rest => if wanted c then found c else firstOf wanted found broken absent rest

def decodePktinfoV4 (t : Target) (len : Nat) (peer : SocketAddr) (data : Bytes) :
    Except ParseRecvMetaError RecvMeta :=
  if data.length < 12 then .error (.bufferTooShort 12 data.length)
  else do
    let idx ← chunk data 0 4
    let addr ← chunk data 4 4
    let dst ← chunk data 8 4
    .ok (RecvMeta.new len peer (.v4 ⟨addr.1, addr.2⟩) (.witnessed (.v4 ⟨dst.1, dst.2⟩))
      (IfaceWitness.fromReportingPathSigned (UInt32.ofNat (t.ofNe idx.1)).toInt32 false) none)

def isPktinfoV4 (t : Target) (c : ParsedCmsg) : Bool :=
  c.level == t.ipprotoIp && c.ty == t.ipPktinfo

def parsePktinfoV4 (t : Target) (cmsgs : Bytes) (len : Nat) (peer : SocketAddr) :
    Except ParseRecvMetaError RecvMeta :=
  firstOf (isPktinfoV4 t) (fun c => decodePktinfoV4 t len peer c.data) .error
    (.error .missingPktinfo) (CmsgIter.items t.layout cmsgs)

def decodePktinfoV6 (t : Target) (len : Nat) (peer : SocketAddr) (data : Bytes) :
    Except ParseRecvMetaError RecvMeta :=
  if data.length < 20 then .error (.bufferTooShort 20 data.length)
  else do
    let addr ← chunk data 0 16
    let idx ← chunk data 16 4
    .ok (RecvMeta.new len peer (.v6 ⟨addr.1, addr.2⟩) (.witnessed (.v6 ⟨addr.1, addr.2⟩))
      (IfaceWitness.fromReportingPathSigned (UInt32.ofNat (t.ofNe idx.1)).toInt32 false) none)

def isPktinfoV6 (t : Target) (c : ParsedCmsg) : Bool :=
  c.level == t.ipprotoIpv6 && c.ty == t.ipv6Pktinfo

def parsePktinfoV6 (t : Target) (cmsgs : Bytes) (len : Nat) (peer : SocketAddr) :
    Except ParseRecvMetaError RecvMeta :=
  firstOf (isPktinfoV6 t) (fun c => decodePktinfoV6 t len peer c.data) .error
    (.error .missingPktinfo) (CmsgIter.items t.layout cmsgs)

def decodeRecvdstaddr (data : Bytes) : Option Ipv4Addr :=
  match chunk data 0 4 with
  | .ok addr => some ⟨addr.1, addr.2⟩
  | .error _ => none

def sdlIndexOffset : Nat := 2

def sockaddrDlFixedLen : Nat := 8

def decodeRecvifIndex (t : Target) (data : Bytes) : Option UInt32 :=
  if data.length < sockaddrDlFixedLen then none
  else
    match chunk data sdlIndexOffset 2 with
    | .ok index => some (UInt32.ofNat (t.ofNe index.1))
    | .error _ => none

def scanPair (t : Target) (dstaddrTy recvifTy : Int32) (destination : Option Ipv4Addr)
    (iface : Option UInt32) : List CmsgItem → Option Ipv4Addr × Option UInt32
  | [] => (destination, iface)
  | .error _ :: _ => (destination, iface)
  | .ok c :: rest =>
    if c.level ≠ t.ipprotoIp then scanPair t dstaddrTy recvifTy destination iface rest
    else if c.ty = dstaddrTy ∧ destination.isNone then
      scanPair t dstaddrTy recvifTy (decodeRecvdstaddr c.data) iface rest
    else if c.ty = recvifTy ∧ iface.isNone then
      scanPair t dstaddrTy recvifTy destination (decodeRecvifIndex t c.data) rest
    else scanPair t dstaddrTy recvifTy destination iface rest

def scanDstaddrRecvif (t : Target) (cmsgs : Bytes) (dstaddrTy recvifTy : Int32) :
    Option Ipv4Addr × Option UInt32 :=
  scanPair t dstaddrTy recvifTy none none (CmsgIter.items t.layout cmsgs)

def dstaddrRecvifMeta (t : Target) (cmsgs : Bytes) (dstaddrTy recvifTy : Int32) (len : Nat)
    (peer : SocketAddr) : Except ParseRecvMetaError RecvMeta :=
  let (destination, iface) := scanDstaddrRecvif t cmsgs dstaddrTy recvifTy
  if destination.isNone && iface.isNone then .error .missingPktinfo
  else
    .ok (RecvMeta.new len peer (.v4 .unspecified)
      (DestinationWitness.fromReportingPath (destination.map .v4) false)
      (IfaceWitness.fromReportingPath (iface.getD 0) false) none)

def parseDstaddrRecvifV4 (t : Target) (cmsgs : Bytes) (len : Nat) (peer : SocketAddr) :
    Except ParseRecvMetaError RecvMeta :=
  dstaddrRecvifMeta t cmsgs t.ipRecvdstaddr t.ipRecvif len peer

def netbsdInPktinfoLen : Nat := 8

def netbsdIpiIfindexOffset : Nat := 4

def decodeNetbsdPktinfo (t : Target) (data : Bytes) : Option (Ipv4Addr × UInt32) :=
  if data.length ≠ netbsdInPktinfoLen then none
  else
    match chunk data 0 4, chunk data netbsdIpiIfindexOffset 4 with
    | .ok addr, .ok index => some (⟨addr.1, addr.2⟩, UInt32.ofNat (t.ofNe index.1))
    | _, _ => none

def scanNetbsdPktinfo (t : Target) (cmsgs : Bytes) (pktinfoTy : Int32) :
    Option (Ipv4Addr × UInt32) :=
  firstOf (fun c => c.level == t.ipprotoIp && c.ty == pktinfoTy)
    (fun c => decodeNetbsdPktinfo t c.data) (fun _ => none) none (CmsgIter.items t.layout cmsgs)

def isHopLimit (t : Target) (isV4 : Bool) (c : ParsedCmsg) : Bool :=
  if isV4 then c.level == t.ipprotoIp && (c.ty == t.ipTtl || c.ty == t.ipRecvttl)
  else c.level == t.ipprotoIpv6 && c.ty == t.ipv6Hoplimit

def decodeHopLimit (t : Target) (data : Bytes) : Option Byte :=
  match chunk data 0 4 with
  | .ok four => some ⟨t.ofNe four.1 % 256, Nat.mod_lt _ (by decide)⟩
  | .error _ => data.head?

def parseHopLimit (t : Target) (cmsgs : Bytes) (isV4 : Bool) : Option Byte :=
  firstOf (isHopLimit t isV4) (fun c => decodeHopLimit t c.data) (fun _ => none) none
    (CmsgIter.items t.layout cmsgs)

def isStamp (t : Target) (c : ParsedCmsg) : Bool :=
  c.level == t.solSocket && c.ty == t.scmTimestamp

/-- A stamp with a fraction in units of so many nanoseconds, of which `modulus` are a second. -/
def decodeStamp (t : Target) (modulus unit : Nat) (data : Bytes) : Option SystemTime :=
  if data.length < t.stampSize then none
  else
    let (secs, fraction) := t.readStamp (data.take t.stampSize)
    if secs < 0 ∨ ¬(0 ≤ fraction ∧ fraction < modulus) then none
    else SystemTime.sinceEpoch secs.toNat (fraction.toNat * unit)

def parseRxTimeNs (t : Target) (cmsgs : Bytes) : Option SystemTime :=
  firstOf (isStamp t) (fun c => decodeStamp t 1000000000 1 c.data) (fun _ => none) none
    (CmsgIter.items t.layout cmsgs)

def parseRxTimeUs (t : Target) (cmsgs : Bytes) : Option SystemTime :=
  firstOf (isStamp t) (fun c => decodeStamp t 1000000 1000 c.data) (fun _ => none) none
    (CmsgIter.items t.layout cmsgs)

theorem firstOf_append {A : Type} (wanted : ParsedCmsg → Bool) (found : ParsedCmsg → A)
    (broken : ParseRecvMetaError → A) (absent : A) (entries : List ParsedCmsg)
    (tail : List CmsgItem) :
    firstOf wanted found broken absent (entries.map .ok ++ tail) =
      ((entries.find? wanted).map found).getD (firstOf wanted found broken absent tail) := by
  induction entries with
  | nil => rfl
  | cons c rest ih =>
    rw [List.map_cons, List.cons_append, firstOf, ih]
    cases hwanted : wanted c with
    | true =>
      rw [List.find?_cons_of_pos hwanted]
      rfl
    | false => rw [List.find?_cons_of_neg (by rw [hwanted]; decide), if_neg (by decide)]

theorem firstOf_entries {A : Type} (wanted : ParsedCmsg → Bool) (found : ParsedCmsg → A)
    (broken : ParseRecvMetaError → A) (absent : A) (entries : List ParsedCmsg) :
    firstOf wanted found broken absent (entries.map .ok) =
      ((entries.find? wanted).map found).getD absent := by
  have happend := firstOf_append wanted found broken absent entries []
  rw [List.append_nil] at happend
  exact happend

def destinationOf (t : Target) (dstaddrTy : Int32) (c : ParsedCmsg) : Option Ipv4Addr :=
  if c.level = t.ipprotoIp ∧ c.ty = dstaddrTy then decodeRecvdstaddr c.data else none

def indexOf (t : Target) (recvifTy : Int32) (c : ParsedCmsg) : Option UInt32 :=
  if c.level = t.ipprotoIp ∧ c.ty = recvifTy then decodeRecvifIndex t c.data else none

theorem scanPair_append (t : Target) (dstaddrTy recvifTy : Int32) (hapart : dstaddrTy ≠ recvifTy)
    (entries : List ParsedCmsg) (tail : List CmsgItem) (destination : Option Ipv4Addr)
    (iface : Option UInt32) :
    scanPair t dstaddrTy recvifTy destination iface (entries.map .ok ++ tail) =
      scanPair t dstaddrTy recvifTy
        (destination.or (entries.findSome? (destinationOf t dstaddrTy)))
        (iface.or (entries.findSome? (indexOf t recvifTy))) tail := by
  induction entries generalizing destination iface with
  | nil => simp only [List.map_nil, List.nil_append, List.findSome?_nil, Option.or_none]
  | cons c rest ih =>
    rw [List.map_cons, List.cons_append, scanPair, ih, ih, ih, List.findSome?_cons,
      List.findSome?_cons]
    unfold destinationOf indexOf
    by_cases hlevel : c.level = t.ipprotoIp
    · rw [if_neg (not_not.mpr hlevel)]
      by_cases hdst : c.ty = dstaddrTy
      · have hnot : ¬c.ty = recvifTy := fun hif => hapart (hdst.symm.trans hif)
        cases destination with
        | none =>
          simp only [hlevel, hdst, hapart, Option.isNone_none, and_self, and_false, if_true,
            if_false, Option.none_or]
          cases decodeRecvdstaddr c.data <;> rfl
        | some dst => simp [hlevel, hdst, hapart]
      · by_cases hif : c.ty = recvifTy
        · cases iface with
          | none =>
            simp only [hlevel, hif, hapart.symm, Option.isNone_none, and_self, and_false, if_true,
              if_false, false_and, Option.none_or]
            cases decodeRecvifIndex t c.data <;> rfl
          | some index => simp [hlevel, hif, hapart.symm]
        · simp [hdst, hif]
    · simp [hlevel]

theorem scanPair_entries (t : Target) (dstaddrTy recvifTy : Int32) (hapart : dstaddrTy ≠ recvifTy)
    (entries : List ParsedCmsg) (destination : Option Ipv4Addr) (iface : Option UInt32) :
    scanPair t dstaddrTy recvifTy destination iface (entries.map .ok) =
      (destination.or (entries.findSome? (destinationOf t dstaddrTy)),
        iface.or (entries.findSome? (indexOf t recvifTy))) := by
  have happend := scanPair_append t dstaddrTy recvifTy hapart entries [] destination iface
  rw [List.append_nil] at happend
  exact happend

end Ancillary
end Hick

/-!
## The walk is exact on what was encoded and safe on anything (hick-udp/src/multicast.rs:1240-1702,
2085-2391)
-/

namespace Hick
open Octets Unfolding

namespace Ancillary

theorem CmsgIter.items_bound (l : Layout) (buf : Bytes) :
    (items l buf).length * l.headerSize ≤ buf.length := by
  unfold items
  induction buf using (walk l).induction with
  | stop buf h =>
    rw [(walk l).items_none buf h, List.length_nil, Nat.zero_mul]
    exact Nat.zero_le _
  | go buf item rest h ih =>
    have hstep := (next_suffix l buf rest item h).2
    rw [(walk l).items_some buf rest item h, List.length_cons, Nat.add_mul, Nat.one_mul]
    omega

/-- On any bytes the walk ends, each header it reads is inside the buffer and behind the one before
it, each payload is inside the length that its header tells, and an error is the last item. -/
theorem ancillary_walk_is_exact (t : Target) (buf : Bytes) :
    (CmsgIter.items t.layout buf).length * t.layout.headerSize ≤ buf.length ∧
    (∀ v ∈ (CmsgIter.walk t.layout).trace buf,
      v.1 <:+ buf ∧ t.layout.headerSize ≤ v.1.length) ∧
    (((CmsgIter.walk t.layout).trace buf).Pairwise fun v w =>
      w.1.length + t.layout.headerSize ≤ v.1.length) ∧
    (∀ v ∈ (CmsgIter.walk t.layout).trace buf, ∀ c, v.2 = .ok c →
      (t.layout.read (v.1.take t.layout.headerSize)).len ≤ v.1.length ∧
      c.level = (t.layout.read (v.1.take t.layout.headerSize)).level ∧
      c.ty = (t.layout.read (v.1.take t.layout.headerSize)).ty ∧
      c.data = (v.1.take (t.layout.read (v.1.take t.layout.headerSize)).len).drop
        (t.layout.cmsgLen 0)) ∧
    (∀ before e after, CmsgIter.items t.layout buf = before ++ .error e :: after → after = []) ∧
    ∀ entries, Encodes t.layout entries buf → (∀ c ∈ entries, t.layout.Holds c.data.length) →
      CmsgIter.items t.layout buf = entries.map .ok ∧
      (∀ len peer, parsePktinfoV4 t buf len peer =
        ((entries.find? (isPktinfoV4 t)).map fun c => decodePktinfoV4 t len peer c.data).getD
          (.error .missingPktinfo)) ∧
      (∀ len peer, parsePktinfoV6 t buf len peer =
        ((entries.find? (isPktinfoV6 t)).map fun c => decodePktinfoV6 t len peer c.data).getD
          (.error .missingPktinfo)) ∧
      scanDstaddrRecvif t buf t.ipRecvdstaddr t.ipRecvif =
        (entries.findSome? (destinationOf t t.ipRecvdstaddr),
          entries.findSome? (indexOf t t.ipRecvif)) ∧
      scanNetbsdPktinfo t buf t.ipPktinfo =
        (entries.find? (isPktinfoV4 t)).bind (fun c => decodeNetbsdPktinfo t c.data) ∧
      (∀ isV4, parseHopLimit t buf isV4 =
        (entries.find? (isHopLimit t isV4)).bind fun c => decodeHopLimit t c.data) ∧
      parseRxTimeNs t buf =
        (entries.find? (isStamp t)).bind (fun c => decodeStamp t 1000000000 1 c.data) ∧
      parseRxTimeUs t buf =
        (entries.find? (isStamp t)).bind (fun c => decodeStamp t 1000000 1000 c.data) := by
  obtain ⟨hinside, hbehind⟩ := CmsgIter.headers_advance t.layout buf
  refine ⟨CmsgIter.items_bound t.layout buf, hinside, hbehind,
    CmsgIter.payloads_inside t.layout buf,
    fun before e after => CmsgIter.error_last t.layout buf before after e, ?_⟩
  intro entries hencoded hholds
  have hitems := CmsgIter.items_encoded t.layout entries buf hencoded hholds
  have hbind : ∀ {A : Type} (wanted : ParsedCmsg → Bool) (found : ParsedCmsg → Option A),
      firstOf wanted found (fun _ => none) none (CmsgIter.items t.layout buf) =
        (entries.find? wanted).bind found := by
    intro A wanted found
    rw [hitems, firstOf_entries]
    cases entries.find? wanted <;> rfl
  refine ⟨hitems, ?_, ?_, ?_, ?_, ?_, ?_, ?_⟩
  · intro len peer
    rw [parsePktinfoV4, hitems, firstOf_entries]
  · intro len peer
    rw [parsePktinfoV6, hitems, firstOf_entries]
  · rw [scanDstaddrRecvif, hitems,
      scanPair_entries t t.ipRecvdstaddr t.ipRecvif t.pair_apart entries none none,
      Option.none_or, Option.none_or]
  · exact hbind _ _
  · intro isV4
    exact hbind _ _
  · exact hbind _ _
  · exact hbind _ _

theorem payload_of_length (n : Nat) : ∃ data : Bytes, data.length = n :=
  ⟨List.replicate n 0, List.length_replicate⟩

/-- An entry of almost 2³² octets that nothing follows is encoded in full, and the walk hands out an
error in its place: the stride past it does not fit into 32 bits. -/
theorem an_untold_stride_is_an_error :
    ¬∀ (entries : List ParsedCmsg) (buf : Bytes), Encodes linux64 entries buf →
      CmsgIter.items linux64 buf = entries.map .ok := by
  intro hall
  obtain ⟨data, hlength⟩ := payload_of_length 4294967279
  have hgap : linux64.headerSize + ([] : Bytes).length = linux64.cmsgLen 0 := by decide
  have hencoded := Encodes.last (l := linux64) ⟨0, 0, data⟩ [] [] hgap (Nat.zero_le _)
  rw [List.append_nil] at hencoded
  have huntold := CmsgIter.items_untold linux64 ⟨0, 0, data⟩ [] hgap
    (by dsimp only; rw [hlength]; decide) (by dsimp only; rw [hlength]; decide)
  rw [hall _ _ hencoded] at huntold
  cases huntold

end Ancillary
end Hick
