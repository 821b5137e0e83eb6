import Hick.Ancillary.Parsers

/-!
# Two decoders of one control buffer (hick-udp/src/multicast.rs:1861-1995,
hick-compio/src/socket/mod.rs:70-181, hick-compio/src/socket/unix.rs:197-354, 633-921)

One crate walks what is left of the buffer, the other one keeps an offset into it and goes on only
where a whole header follows.
-/

namespace Hick
open Octets Unfolding

def SocketAddr.isV4 : SocketAddr → Bool
  | .v4 .. => true
  | .v6 .. => false

namespace Ancillary

inductive V4Shape where
  | pktinfo
  | dstaddrRecvif
  | unreported
  deriving DecidableEq

structure Build where
  target : Target
  v4 : V4Shape
  hasIpv6Pktinfo : Bool
  hasRecvHoplimit : Bool
  stampNs : Option Bool

def reportsRxInterfaceV4 (b : Build) : Bool := b.v4 != .unreported

def reportsRxInterfaceV6 (b : Build) : Bool := b.hasIpv6Pktinfo

def witnessAbsent (b : Build) (isV4 : Bool) (n : Nat) (peer : SocketAddr)
    (controlTruncated : Bool) : RecvMeta :=
  let localIp : IpAddr := if isV4 then .v4 .unspecified else .v6 .unspecified
  if (if isV4 then reportsRxInterfaceV4 b else reportsRxInterfaceV6 b) then
    RecvMeta.new n peer localIp (DestinationWitness.fromReportingPath none controlTruncated)
      (IfaceWitness.fromReportingPath 0 controlTruncated) none
  else RecvMeta.new n peer localIp .blind .blind none

def parseV4 (b : Build) (cmsgs : Bytes) (n : Nat) (peer : SocketAddr) :
    Except ParseRecvMetaError RecvMeta :=
  match b.v4 with
  | .pktinfo => parsePktinfoV4 b.target cmsgs n peer
  | .dstaddrRecvif => parseDstaddrRecvifV4 b.target cmsgs n peer
  | .unreported => .error .missingPktinfo

def parseV6 (b : Build) (cmsgs : Bytes) (n : Nat) (peer : SocketAddr) :
    Except ParseRecvMetaError RecvMeta :=
  if b.hasIpv6Pktinfo then parsePktinfoV6 b.target cmsgs n peer else .error .missingPktinfo

def parseRxTime (b : Build) (cmsgs : Bytes) : Option SystemTime :=
  match b.stampNs with
  | some true => parseRxTimeNs b.target cmsgs
  | some false => parseRxTimeUs b.target cmsgs
  | none => none

def recvWithMeta (b : Build) (isV4 : Bool) (n : Nat) (peer : SocketAddr) (control : Bytes)
    (controlTruncated : Bool) (delivery : Option LinkDelivery) : RecvMeta :=
  if controlTruncated then { witnessAbsent b isV4 n peer true with delivery := delivery }
  else
    let parsed := if isV4 then parseV4 b control n peer else parseV6 b control n peer
    let received :=
      match parsed with
      | .ok received => received
      | .error _ => witnessAbsent b isV4 n peer false
    { received with
      rxTime := parseRxTime b control
      hopLimit := if b.hasRecvHoplimit then parseHopLimit b.target control isV4 else none
      delivery := delivery }

end Ancillary

namespace Compio
open Ancillary

namespace CMsgIter

def new (l : Layout) (buf : Bytes) : Option Nat :=
  if l.headerSize ≤ buf.length then some 0 else none

def successor (l : Layout) (off cmsgLen dataLen len : Nat) : Option Nat :=
  if dataLen < 2 ^ 32 then
    let stride := l.cmsgSpace dataLen
    if stride < cmsgLen then none
    else
      let next := off + stride
      if next + l.headerSize ≤ len then some next else none
  else none

def next (l : Layout) (buf : Bytes) : Option Nat → Option (ParsedCmsg × Option Nat)
  | none => none
  | some off =>
    let remaining := buf.length - off
    if remaining < l.headerSize then none
    else
      let hdr := l.read ((buf.drop off).take l.headerSize)
      if hdr.len < l.headerSize ∨ remaining < hdr.len then none
      else
        let dataStart := l.cmsgLen 0
        if remaining < dataStart then none
        else
          let dataLen := min (hdr.len - dataStart) (remaining - dataStart)
          some (⟨hdr.level, hdr.ty, ((buf.drop off).drop dataStart).take dataLen⟩,
            successor l off hdr.len dataLen buf.length)

theorem successor_ahead (l : Layout) (off cmsgLen dataLen len next : Nat)
    (h : successor l off cmsgLen dataLen len = some next) :
    off + cmsgLen ≤ next ∧ next + l.headerSize ≤ len := by
  unfold successor at h
  dsimp only at h
  split at h
  · split at h
    · cases h
    · split at h
      · cases h
        omega
      · cases h
  · cases h

def ahead (buf : Bytes) : Option Nat → Nat
  | none => 0
  | some off => buf.length + 1 - off

theorem next_shrinks (l : Layout) (buf : Bytes) (s t : Option Nat) (c : ParsedCmsg)
    (h : next l buf s = some (c, t)) : ahead buf t < ahead buf s := by
  have hpos := l.headerSize_pos
  cases s with
  | none => cases h
  | some off =>
    unfold next at h
    dsimp only at h
    split at h
    · cases h
    · rename_i hroom
      split at h
      · cases h
      · rename_i hlen
        split at h
        · cases h
        · cases h
          rw [not_or] at hlen
          cases hnext : successor l off (l.read ((buf.drop off).take l.headerSize)).len
              (min ((l.read ((buf.drop off).take l.headerSize)).len - l.cmsgLen 0)
                (buf.length - off - l.cmsgLen 0)) buf.length with
          | none =>
            change 0 < buf.length + 1 - off
            omega
          | some further =>
            have hahead := successor_ahead l off _ _ _ further hnext
            change buf.length + 1 - further < buf.length + 1 - off
            omega

def walk (l : Layout) (buf : Bytes) :
    Unfolding.Walk (Option Nat) ParsedCmsg where
  step := next l buf
  size := ahead buf
  shrinks := fun s c t h => next_shrinks l buf s t c h

def items (l : Layout) (buf : Bytes) : List ParsedCmsg := (walk l buf).items (new l buf)

end CMsgIter

structure RecvMeta where
  peer : SocketAddr
  localIp : IpAddr
  destination : DestinationWitness
  iface : IfaceWitness
  hopLimit : Option Byte
  delivery : Option LinkDelivery
  len : Nat
  truncated : Bool
  deriving DecidableEq

def rxInterfaceReported (b : Build) (peer : SocketAddr) : Bool :=
  if peer.isV4 then b.v4 != .unreported else b.hasIpv6Pktinfo

namespace RecvMeta

def empty (peer : SocketAddr) : RecvMeta where
  peer := peer
  localIp := if peer.isV4 then .v4 .unspecified else .v6 .unspecified
  destination := .blind
  iface := .blind
  hopLimit := none
  delivery := none
  len := 0
  truncated := false

def declareCmsgAbsent (b : Build) (received : RecvMeta) (controlTruncated : Bool) : RecvMeta :=
  if rxInterfaceReported b received.peer then
    { received with
      destination := DestinationWitness.fromReportingPath none controlTruncated
      iface := IfaceWitness.fromReportingPath 0 controlTruncated }
  else received

end RecvMeta

/-- `decode_bsd_ipv4_dstaddr_recvif`: of what the parser found only what it witnessed is taken. -/
def decodeBsdIpv4DstaddrRecvif (b : Build) (ctrl : Bytes) (received : RecvMeta) : RecvMeta :=
  match parseDstaddrRecvifV4 b.target ctrl received.len received.peer with
  | .error _ => received
  | .ok parsed =>
    { received with
      iface :=
        match parsed.iface with
        | .witnessed index => .witnessed index
        | .lost | .declined | .blind => received.iface
      destination :=
        match parsed.destination with
        | .witnessed dst => .witnessed dst
        | .lost | .declined | .blind => received.destination }

/-- The fields of an `in_pktinfo`: the receiving address, the destination and the index. -/
def inPktinfo (t : Target) (data : Bytes) : Option (Ipv4Addr × Ipv4Addr × Int32) :=
  match chunk data 0 4, chunk data 4 4, chunk data 8 4 with
  | .ok index, .ok ⟨spec, hspec⟩, .ok ⟨dst, hdst⟩ =>
    some (⟨spec, hspec⟩, ⟨dst, hdst⟩, (UInt32.ofNat (t.ofNe index.1)).toInt32)
  | _, _, _ => none

def in6Pktinfo (t : Target) (data : Bytes) : Option (Ipv6Addr × Int32) :=
  match chunk data 0 16, chunk data 16 4 with
  | .ok ⟨addr, haddr⟩, .ok index =>
    some (⟨addr, haddr⟩, (UInt32.ofNat (t.ofNe index.1)).toInt32)
  | _, _ => none

def decodeCmsg (b : Build) (controlTruncated : Bool) (received : RecvMeta) (c : ParsedCmsg) :
    RecvMeta :=
  if b.v4 = .pktinfo ∧ isPktinfoV4 b.target c then
    match inPktinfo b.target c.data with
    | none => received
    | some (spec, dst, index) =>
      { received with
        localIp := .v4 spec
        destination := .witnessed (.v4 dst)
        iface := IfaceWitness.fromReportingPathSigned index controlTruncated }
  else if b.hasIpv6Pktinfo ∧ isPktinfoV6 b.target c then
    match in6Pktinfo b.target c.data with
    | none => received
    | some (dst, index) =>
      { received with
        localIp := .v6 dst
        destination := .witnessed (.v6 dst)
        iface := IfaceWitness.fromReportingPathSigned index controlTruncated }
  else if b.hasRecvHoplimit ∧ (isHopLimit b.target true c ∨ isHopLimit b.target false c) then
    match chunk c.data 0 4 with
    | .ok four =>
      { received with hopLimit := some ⟨b.target.ofNe four.1 % 256, Nat.mod_lt _ (by decide)⟩ }
    | .error _ => received
  else received

def decodeUnixCmsgs (b : Build) (ctrl : Bytes) (received : RecvMeta) (controlTruncated : Bool) :
    RecvMeta :=
  if ctrl.isEmpty then received
  else
    let received :=
      if b.v4 = .dstaddrRecvif then decodeBsdIpv4DstaddrRecvif b ctrl received else received
    (CMsgIter.items b.target.layout ctrl).foldl (decodeCmsg b controlTruncated) received

/-- What `Socket::recv` makes of a control buffer: the absence is declared, then what is there is
decoded. -/
def recvMeta (b : Build) (peer : SocketAddr) (len : Nat) (truncated : Bool)
    (delivery : Option LinkDelivery) (ctrl : Bytes) (controlTruncated : Bool) : RecvMeta :=
  decodeUnixCmsgs b ctrl
    (RecvMeta.declareCmsgAbsent b { RecvMeta.empty peer with
      len := len
      truncated := truncated
      delivery := delivery } controlTruncated) controlTruncated

end Compio

namespace Ancillary

/-- An entry that a walk reads, which stands in the buffer with all of the length its header
tells. -/
def Present (l : Layout) (buf : Bytes) (c : ParsedCmsg) : Prop :=
  (.ok c ∈ CmsgIter.items l buf ∨ c ∈ Compio.CMsgIter.items l buf) ∧ ∃ off, l.headerSize ≤ (l.read ((buf.drop off).take l.headerSize)).len ∧
    off + (l.read ((buf.drop off).take l.headerSize)).len ≤ buf.length ∧
    c = ⟨(l.read ((buf.drop off).take l.headerSize)).level,
      (l.read ((buf.drop off).take l.headerSize)).ty,
      ((buf.drop off).take (l.read ((buf.drop off).take l.headerSize)).len).drop (l.cmsgLen 0)⟩

def okItems : List CmsgItem → List ParsedCmsg
  | [] => []
  | .ok c :: rest => c :: okItems rest
  | .error _ :: rest => okItems rest

theorem mem_okItems (items : List CmsgItem) (c : ParsedCmsg) :
    c ∈ okItems items ↔ .ok c ∈ items := by
  induction items with
  | nil => simp [okItems]
  | cons item rest ih => cases item <;> simp [okItems, ih]

theorem CmsgIter.next_measured (l : Layout) (rest : Bytes) (hmeasured : l.Holds rest.length)
    (hroom : l.headerSize ≤ rest.length)
    (hcovers : l.headerSize ≤ (l.read (rest.take l.headerSize)).len)
    (hinside : (l.read (rest.take l.headerSize)).len ≤ rest.length) :
    next l rest = some (.ok ⟨(l.read (rest.take l.headerSize)).level,
      (l.read (rest.take l.headerSize)).ty,
      (rest.take (l.read (rest.take l.headerSize)).len).drop (l.cmsgLen 0)⟩,
      rest.drop (l.cmsgSpace ((l.read (rest.take l.headerSize)).len - l.cmsgLen 0))) := by
  have hstart := l.dataStart_eq
  generalize hhdr : l.read (rest.take l.headerSize) = hdr at hcovers hinside ⊢
  have hholds := hmeasured.mono l (hdr.len - l.cmsgLen 0) rest.length (by omega)
  have hspace := hholds.space
  have hfits := l.le_align (hdr.len - l.cmsgLen 0)
  have hlimit : l.align (hdr.len - l.cmsgLen 0) + l.align l.headerSize < 2 ^ 32 := hholds
  have hadvance : cmsgAdvance l hdr.len (l.cmsgLen 0) =
      some (l.cmsgSpace (hdr.len - l.cmsgLen 0)) := by
    unfold cmsgAdvance
    dsimp only
    rw [if_pos (by omega), if_pos (by omega)]
  have hdata : (if l.cmsgLen 0 ≤ hdr.len then (rest.take hdr.len).drop (l.cmsgLen 0) else []) =
      (rest.take hdr.len).drop (l.cmsgLen 0) := by
    split
    · rfl
    · rw [List.drop_eq_nil_of_le]
      rw [List.length_take]
      omega
  have hrest : rest.drop (min (l.cmsgSpace (hdr.len - l.cmsgLen 0)) rest.length) =
      rest.drop (l.cmsgSpace (hdr.len - l.cmsgLen 0)) := by
    rcases Nat.le_total (l.cmsgSpace (hdr.len - l.cmsgLen 0)) rest.length with hle | hle
    · rw [Nat.min_eq_left hle]
    · rw [Nat.min_eq_right hle, List.drop_length, List.drop_eq_nil_of_le hle]
  unfold next
  rw [if_neg (by omega), hhdr]
  dsimp only
  rw [if_neg (by omega), if_neg (by omega), hadvance, hdata]
  dsimp only
  rw [hrest]

theorem CmsgIter.next_refused (l : Layout) (rest : Bytes)
    (h : (l.read (rest.take l.headerSize)).len < l.headerSize ∨
      rest.length < (l.read (rest.take l.headerSize)).len)
    (hroom : l.headerSize ≤ rest.length) : ∃ e, next l rest = some (.error e, []) := by
  unfold next
  rw [if_neg (by omega)]
  dsimp only
  by_cases hshort : (l.read (rest.take l.headerSize)).len < l.headerSize
  · rw [if_pos hshort]
    exact ⟨_, rfl⟩
  · have hover := h.resolve_left hshort
    rw [if_neg hshort, if_pos hover]
    exact ⟨_, rfl⟩

theorem CmsgIter.items_present (l : Layout) (buf : Bytes) (c : ParsedCmsg)
    (h : .ok c ∈ items l buf) : Present l buf c := by
  obtain ⟨v, hv, hok⟩ := List.mem_map.mp h
  obtain ⟨⟨skipped, hsuffix⟩, hroom⟩ := (headers_advance l buf).1 v hv
  obtain ⟨hinside, hlevel, hty, hdata⟩ := payloads_inside l buf v hv c hok
  obtain ⟨-, rest', hstep⟩ := (walk l).trace_invariant (fun _ => True)
    (fun _ _ _ _ _ => trivial) buf trivial v hv
  have hdrop : buf.drop skipped.length = v.1 := by
    rw [← hsuffix]
    exact List.drop_left
  have hlength : skipped.length + v.1.length = buf.length := by
    rw [← hsuffix, List.length_append]
  refine ⟨.inl h, skipped.length, ?_, ?_, ?_⟩
  · rw [hdrop]
    obtain ⟨-, ⟨e, herror, -⟩ | ⟨advance, hcovers, -⟩⟩ := next_cases l v.1 rest' v.2 hstep
    · rw [hok] at herror
      cases herror
    · exact hcovers
  · rw [hdrop]
    omega
  · rw [hdrop, ← hlevel, ← hty, ← hdata]

end Ancillary

namespace Compio
open Ancillary

namespace CMsgIter

def at_ (l : Layout) (buf : Bytes) (off : Nat) : Option Nat :=
  if off + l.headerSize ≤ buf.length then some off else none

theorem payload_eq (rest : Bytes) (len start : Nat) (hlen : len ≤ rest.length) :
    (rest.drop start).take (min (len - start) (rest.length - start)) =
      (rest.take len).drop start := by
  rw [Nat.min_eq_left (by omega), ← List.drop_take]

theorem next_entry (l : Layout) (buf : Bytes) (off : Nat) (t : Option Nat) (c : ParsedCmsg)
    (h : next l buf (some off) = some (c, t)) :
    l.headerSize ≤ (l.read ((buf.drop off).take l.headerSize)).len ∧
    (l.read ((buf.drop off).take l.headerSize)).len ≤ (buf.drop off).length ∧
    c = ⟨(l.read ((buf.drop off).take l.headerSize)).level,
      (l.read ((buf.drop off).take l.headerSize)).ty,
      ((buf.drop off).take (l.read ((buf.drop off).take l.headerSize)).len).drop
        (l.cmsgLen 0)⟩ := by
  have hlength : (buf.drop off).length = buf.length - off := List.length_drop
  unfold next at h
  dsimp only at h
  rw [← hlength] at h
  split at h
  · cases h
  · split at h
    · cases h
    · rename_i hlen
      rw [not_or] at hlen
      split at h
      · cases h
      · cases h
        refine ⟨Nat.not_lt.mp hlen.1, Nat.not_lt.mp hlen.2, ?_⟩
        rw [payload_eq _ _ _ (Nat.not_lt.mp hlen.2)]

theorem items_present (l : Layout) (buf : Bytes) (c : ParsedCmsg) (h : c ∈ items l buf) :
    Present l buf c := by
  obtain ⟨v, hv, rfl⟩ := List.mem_map.mp h
  obtain ⟨-, t, hstep⟩ := (walk l buf).trace_invariant (fun _ => True)
    (fun _ _ _ _ _ => trivial) (new l buf) trivial v hv
  obtain ⟨_ | off, c⟩ := v
  · cases hstep
  · obtain ⟨hcovers, hinside, heq⟩ := next_entry l buf off t c hstep
    have hpos := l.headerSize_pos
    rw [List.length_drop] at hinside
    exact ⟨.inr h, off, hcovers, by omega, heq⟩

theorem next_measured (l : Layout) (buf : Bytes) (off : Nat) (hmeasured : l.Holds buf.length)
    (hroom : l.headerSize ≤ (buf.drop off).length)
    (hcovers : l.headerSize ≤ (l.read ((buf.drop off).take l.headerSize)).len)
    (hinside : (l.read ((buf.drop off).take l.headerSize)).len ≤ (buf.drop off).length)
    (hstart : l.cmsgLen 0 ≤ (buf.drop off).length) :
    next l buf (some off) = some (⟨(l.read ((buf.drop off).take l.headerSize)).level,
      (l.read ((buf.drop off).take l.headerSize)).ty,
      ((buf.drop off).take (l.read ((buf.drop off).take l.headerSize)).len).drop (l.cmsgLen 0)⟩,
      at_ l buf (off +
        l.cmsgSpace ((l.read ((buf.drop off).take l.headerSize)).len - l.cmsgLen 0))) := by
  have hlength : (buf.drop off).length = buf.length - off := List.length_drop
  have hdata := l.dataStart_eq
  unfold next
  dsimp only
  rw [← hlength]
  generalize l.read ((buf.drop off).take l.headerSize) = hdr at hcovers hinside ⊢
  have hlen : min (hdr.len - l.cmsgLen 0) ((buf.drop off).length - l.cmsgLen 0) =
      hdr.len - l.cmsgLen 0 := by omega
  have hholds := hmeasured.mono l (hdr.len - l.cmsgLen 0) buf.length (by omega)
  have hspace := hholds.space
  have hfits := l.le_align (hdr.len - l.cmsgLen 0)
  have hlimit : l.align (hdr.len - l.cmsgLen 0) + l.align l.headerSize < 2 ^ 32 := hholds
  have hnext : successor l off hdr.len (hdr.len - l.cmsgLen 0) buf.length =
      at_ l buf (off + l.cmsgSpace (hdr.len - l.cmsgLen 0)) := by
    unfold successor at_
    dsimp only
    rw [if_pos (by omega), if_neg (by omega)]
  rw [if_neg (by omega), if_neg (by omega), if_neg (by omega), payload_eq _ _ _ hinside, hlen,
    hnext]

theorem next_stops (l : Layout) (buf : Bytes) (off : Nat)
    (h : (buf.drop off).length < l.headerSize ∨
      (l.read ((buf.drop off).take l.headerSize)).len < l.headerSize ∨
      (buf.drop off).length < (l.read ((buf.drop off).take l.headerSize)).len ∨
      (buf.drop off).length < l.cmsgLen 0) : next l buf (some off) = none := by
  have hlength : (buf.drop off).length = buf.length - off := List.length_drop
  unfold next
  dsimp only
  rw [← hlength]
  split
  · rfl
  · split
    · rfl
    · rename_i hlen
      rw [not_or] at hlen
      rw [if_pos (by omega)]

def nonempty (c : ParsedCmsg) : Bool := !c.data.isEmpty

theorem items_agree (l : Layout) (buf : Bytes) (hmeasured : l.Holds buf.length) :
    (items l buf).filter nonempty =
      (okItems (Ancillary.CmsgIter.items l buf)).filter nonempty := by
  have hpos := l.headerSize_pos
  have hall : ∀ rest off, rest = buf.drop off →
      ((walk l buf).items (at_ l buf off)).filter nonempty =
        (okItems ((Ancillary.CmsgIter.walk l).items rest)).filter nonempty := by
    intro rest
    induction rest using (Ancillary.CmsgIter.walk l).induction with
    | stop rest h =>
      intro off hrest
      have hshort : rest.length < l.headerSize := by
        by_contra hroom
        by_cases hrefused : (l.read (rest.take l.headerSize)).len < l.headerSize ∨
            rest.length < (l.read (rest.take l.headerSize)).len
        · obtain ⟨e, he⟩ := Ancillary.CmsgIter.next_refused l rest hrefused (by omega)
          exact absurd (h.symm.trans he) nofun
        · rw [not_or] at hrefused
          have hle : rest.length ≤ buf.length := by
            rw [hrest, List.length_drop]
            omega
          have hnext := Ancillary.CmsgIter.next_measured l rest
            (hmeasured.mono l rest.length buf.length hle) (by omega) (by omega) (by omega)
          exact absurd (h.symm.trans hnext) nofun
      have hnone : at_ l buf off = none := by
        rw [hrest, List.length_drop] at hshort
        unfold at_
        rw [if_neg (by omega)]
      rw [hnone, (walk l buf).items_none none rfl,
        (Ancillary.CmsgIter.walk l).items_none rest h]
      rfl
    | go rest item rest' h ih =>
      intro off hrest
      have hroom := (Ancillary.CmsgIter.next_cases l rest rest' item h).1
      have hsome : at_ l buf off = some off := by
        rw [hrest, List.length_drop] at hroom
        unfold at_
        rw [if_pos (by omega)]
      rw [hsome, (Ancillary.CmsgIter.walk l).items_some rest rest' item h]
      by_cases hrefused : (l.read (rest.take l.headerSize)).len < l.headerSize ∨
          rest.length < (l.read (rest.take l.headerSize)).len
      · obtain ⟨e, he⟩ := Ancillary.CmsgIter.next_refused l rest hrefused hroom
        cases h.symm.trans he
        have hend : Ancillary.CmsgIter.next l [] = none := if_pos hpos
        have hstop : next l buf (some off) = none := by
          apply next_stops
          rw [← hrest]
          rcases hrefused with hshort | hover
          · exact Or.inr (Or.inl hshort)
          · exact Or.inr (Or.inr (Or.inl hover))
        rw [(walk l buf).items_none (some off) hstop,
          (Ancillary.CmsgIter.walk l).items_none [] hend]
        rfl
      · rw [not_or] at hrefused
        have hle : rest.length ≤ buf.length := by
          rw [hrest, List.length_drop]
          omega
        have hcovers := Nat.not_lt.mp hrefused.1
        have hinside := Nat.not_lt.mp hrefused.2
        have hstep := Ancillary.CmsgIter.next_measured l rest
          (hmeasured.mono l rest.length buf.length hle) hroom hcovers hinside
        cases h.symm.trans hstep
        by_cases hstart : l.cmsgLen 0 ≤ rest.length
        · have hnext := next_measured l buf off hmeasured (by rw [← hrest]; exact hroom)
            (by rw [← hrest]; exact hcovers) (by rw [← hrest]; exact hinside)
            (by rw [← hrest]; exact hstart)
          rw [← hrest] at hnext
          have hgo : (walk l buf).step (some off) = some (_, _) := hnext
          rw [(walk l buf).items_some (some off) _ _ hgo]
          have hmore := ih (off + l.cmsgSpace ((l.read (rest.take l.headerSize)).len - l.cmsgLen 0))
            (by rw [hrest, List.drop_drop])
          rw [okItems, List.filter_cons, List.filter_cons, hmore]
        · -- The place of the payload is behind the buffer: this walk stops, the other one hands
          -- out an entry without a payload, and stops.
          have hstop : next l buf (some off) = none := by
            apply next_stops
            rw [← hrest]
            exact Or.inr (Or.inr (Or.inr (Nat.not_le.mp hstart)))
          have hspace := (hmeasured.mono l
            ((l.read (rest.take l.headerSize)).len - l.cmsgLen 0) buf.length (by omega)).space
          have hdata := l.dataStart_eq
          have hrest' : rest.drop
              (l.cmsgSpace ((l.read (rest.take l.headerSize)).len - l.cmsgLen 0)) = [] := by
            apply List.drop_eq_nil_of_le
            omega
          have hempty : (rest.take (l.read (rest.take l.headerSize)).len).drop (l.cmsgLen 0) =
              [] := by
            apply List.drop_eq_nil_of_le
            rw [List.length_take]
            omega
          have hend : Ancillary.CmsgIter.next l [] = none := if_pos hpos
          rw [(walk l buf).items_none (some off) hstop, hrest', hempty,
            (Ancillary.CmsgIter.walk l).items_none [] hend]
          rfl
  have hnew : new l buf = at_ l buf 0 := by
    unfold new at_
    rw [Nat.zero_add]
  unfold items Ancillary.CmsgIter.items
  rw [hnew]
  exact hall buf 0 rfl

end CMsgIter

end Compio
end Hick
