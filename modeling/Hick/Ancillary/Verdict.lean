import Hick.Ancillary.Decoders

/-!
# What both decoders tell of one buffer (hick-udp/src/multicast.rs:1902-1995,
hick-compio/src/socket/unix.rs:264-354, 767-921)

One decoder takes the first entry that informs its socket, the other one the last entry that tells
anything. Of a buffer in which one entry informs the two are the same.
-/

namespace Hick
open Octets Unfolding

namespace Compio
open Ancillary

def told (b : Build) (c : ParsedCmsg) : Option (IpAddr × IpAddr × Int32) :=
  if b.v4 = .pktinfo ∧ isPktinfoV4 b.target c then
    (inPktinfo b.target c.data).map fun (spec, dst, index) => (.v4 spec, .v4 dst, index)
  else if b.hasIpv6Pktinfo ∧ isPktinfoV6 b.target c then
    (in6Pktinfo b.target c.data).map fun (dst, index) => (.v6 dst, .v6 dst, index)
  else none

abbrev Facts := IpAddr × DestinationWitness × IfaceWitness

def RecvMeta.facts (received : RecvMeta) : Facts :=
  (received.localIp, received.destination, received.iface)

def factsOf (controlTruncated : Bool) (found : IpAddr × IpAddr × Int32) : Facts :=
  (found.1, .witnessed found.2.1, IfaceWitness.fromReportingPathSigned found.2.2 controlTruncated)

theorem decodeCmsg_facts (b : Build) (controlTruncated : Bool) (received : RecvMeta)
    (c : ParsedCmsg) :
    (decodeCmsg b controlTruncated received c).facts =
      ((told b c).map (factsOf controlTruncated)).getD received.facts := by
  unfold decodeCmsg told
  split
  · cases inPktinfo b.target c.data <;> rfl
  · split
    · cases in6Pktinfo b.target c.data <;> rfl
    · split
      · cases chunk c.data 0 4 <;> rfl
      · rfl

theorem loop_facts (b : Build) (controlTruncated : Bool) (entries : List ParsedCmsg)
    (received : RecvMeta) :
    (entries.foldl (decodeCmsg b controlTruncated) received).facts =
      ((entries.filterMap (told b)).getLast?.map (factsOf controlTruncated)).getD
        received.facts := by
  induction entries generalizing received with
  | nil => rfl
  | cons c rest ih =>
    rw [List.foldl_cons, ih, decodeCmsg_facts, List.filterMap_cons]
    cases told b c with
    | none => rfl
    | some found =>
      dsimp only
      rw [List.getLast?_cons]
      cases (rest.filterMap (told b)).getLast? <;> rfl

theorem chunk_nil (at_ n : Nat) (h : 0 < n) : chunk [] at_ n = .error (.bufferTooShort n 0) := by
  unfold chunk
  rw [dif_neg (by rw [List.length_nil]; omega)]
  rfl

theorem told_empty (b : Build) (c : ParsedCmsg) (h : CMsgIter.nonempty c = false) :
    told b c = none := by
  have hnil : c.data = [] := by simpa [CMsgIter.nonempty] using h
  have hv4 : inPktinfo b.target [] = none := by
    unfold inPktinfo
    rw [chunk_nil 0 4 (by decide)]
  have hv6 : in6Pktinfo b.target [] = none := by
    unfold in6Pktinfo
    rw [chunk_nil 0 16 (by decide)]
  unfold told
  rw [hnil, hv4, hv6]
  simp

theorem told_nonempty (b : Build) (entries : List ParsedCmsg) :
    (entries.filter CMsgIter.nonempty).filterMap (told b) = entries.filterMap (told b) := by
  induction entries with
  | nil => rfl
  | cons c rest ih =>
    rw [List.filter_cons]
    split
    · rw [List.filterMap_cons, List.filterMap_cons, ih]
    · rename_i hempty
      rw [List.filterMap_cons, told_empty b c (Bool.eq_false_iff.mpr hempty), ih]

theorem decodeUnixCmsgs_eq (b : Build) (ctrl : Bytes) (received : RecvMeta)
    (controlTruncated : Bool) :
    decodeUnixCmsgs b ctrl received controlTruncated =
      (CMsgIter.items b.target.layout ctrl).foldl (decodeCmsg b controlTruncated)
        (if b.v4 = .dstaddrRecvif then decodeBsdIpv4DstaddrRecvif b ctrl received
          else received) := by
  unfold decodeUnixCmsgs
  split
  · rename_i hempty
    have hnil : ctrl = [] := List.isEmpty_iff.mp hempty
    have hpos := b.target.layout.headerSize_pos
    have hnew : CMsgIter.new b.target.layout [] = none := by
      unfold CMsgIter.new
      rw [if_neg (by rw [List.length_nil]; omega)]
    have hcompio : CMsgIter.items b.target.layout [] = [] := by
      unfold CMsgIter.items
      rw [hnew]
      exact (CMsgIter.walk b.target.layout []).items_none none rfl
    have hudp : Ancillary.CmsgIter.items b.target.layout [] = [] :=
      (Ancillary.CmsgIter.walk b.target.layout).items_none [] (if_pos hpos)
    have hbsd : decodeBsdIpv4DstaddrRecvif b [] received = received := by
      unfold decodeBsdIpv4DstaddrRecvif parseDstaddrRecvifV4 dstaddrRecvifMeta scanDstaddrRecvif
      rw [hudp]
      rfl
    rw [hnil, hcompio, hbsd]
    split <;> rfl
  · rfl

theorem recvMeta_facts (b : Build) (peer : SocketAddr) (len : Nat) (truncated : Bool)
    (delivery : Option LinkDelivery) (ctrl : Bytes) (controlTruncated : Bool) :
    ∃ declared : RecvMeta,
      declared = RecvMeta.declareCmsgAbsent b { RecvMeta.empty peer with
        len := len
        truncated := truncated
        delivery := delivery } controlTruncated ∧
      (recvMeta b peer len truncated delivery ctrl controlTruncated).facts =
        (((CMsgIter.items b.target.layout ctrl).filterMap (told b)).getLast?.map
          (factsOf controlTruncated)).getD
          (if b.v4 = .dstaddrRecvif then decodeBsdIpv4DstaddrRecvif b ctrl declared
            else declared).facts := by
  refine ⟨_, rfl, ?_⟩
  unfold recvMeta
  rw [decodeUnixCmsgs_eq, loop_facts]

end Compio

namespace Ancillary

theorem items_shape (items : List CmsgItem)
    (h : ∀ before e after, items = before ++ .error e :: after → after = []) :
    ∃ tail, items = (okItems items).map .ok ++ tail ∧ (tail = [] ∨ ∃ e, tail = [.error e]) := by
  induction items with
  | nil => exact ⟨[], rfl, Or.inl rfl⟩
  | cons item rest ih =>
    cases item with
    | error e =>
      have hrest := h [] e rest rfl
      rw [hrest]
      exact ⟨[.error e], rfl, Or.inr ⟨e, rfl⟩⟩
    | ok c =>
      obtain ⟨tail, hshape, htail⟩ := ih fun before e after heq =>
        h (.ok c :: before) e after (by rw [heq, List.cons_append])
      refine ⟨tail, ?_, htail⟩
      rw [okItems, List.map_cons, List.cons_append, ← hshape]

theorem walk_shape (l : Layout) (buf : Bytes) :
    ∃ tail, CmsgIter.items l buf = (okItems (CmsgIter.items l buf)).map .ok ++ tail ∧
      (tail = [] ∨ ∃ e, tail = [.error e]) :=
  items_shape _ fun before e after => CmsgIter.error_last l buf before after e

theorem firstOf_found {A : Type} (wanted : ParsedCmsg → Bool)
    (decode : ParsedCmsg → Except ParseRecvMetaError A) (l : Layout) (buf : Bytes) :
    (firstOf wanted decode .error (.error .missingPktinfo) (CmsgIter.items l buf)).toOption =
      ((okItems (CmsgIter.items l buf)).find? wanted).bind fun c => (decode c).toOption := by
  obtain ⟨tail, hshape, htail⟩ := walk_shape l buf
  rw [hshape, firstOf_append, ← hshape]
  cases (okItems (CmsgIter.items l buf)).find? wanted with
  | some c => rfl
  | none =>
    rcases htail with rfl | ⟨e, rfl⟩
    · rfl
    · rfl

theorem scanDstaddrRecvif_found (t : Target) (buf : Bytes) :
    scanDstaddrRecvif t buf t.ipRecvdstaddr t.ipRecvif =
      ((okItems (CmsgIter.items t.layout buf)).findSome? (destinationOf t t.ipRecvdstaddr),
        (okItems (CmsgIter.items t.layout buf)).findSome? (indexOf t t.ipRecvif)) := by
  obtain ⟨tail, hshape, htail⟩ := walk_shape t.layout buf
  unfold scanDstaddrRecvif
  rw [hshape, scanPair_append t _ _ t.pair_apart, ← hshape, Option.none_or, Option.none_or]
  rcases htail with rfl | ⟨e, rfl⟩
  · rfl
  · rfl

/-- The entries of a socket's family that tell of the destination and the interface, where one
entry tells of both. -/
def informs (b : Build) (isV4 : Bool) (c : ParsedCmsg) : Bool :=
  if isV4 then decide (b.v4 = .pktinfo) && isPktinfoV4 b.target c
  else b.hasIpv6Pktinfo && isPktinfoV6 b.target c

/-- The entries that tell of the destination or of the interface and belong to the other family. -/
def foreign (b : Build) (isV4 : Bool) (c : ParsedCmsg) : Bool :=
  if isV4 then b.hasIpv6Pktinfo && isPktinfoV6 b.target c
  else
    (decide (b.v4 = .pktinfo) && isPktinfoV4 b.target c) ||
      (decide (b.v4 = .dstaddrRecvif) && c.level == b.target.ipprotoIp &&
        (c.ty == b.target.ipRecvdstaddr || c.ty == b.target.ipRecvif))

def RecvMeta.facts (received : RecvMeta) : Compio.Facts :=
  (received.localIp, received.destination, received.iface)

theorem decodePktinfoV4_facts (t : Target) (len : Nat) (peer : SocketAddr) (data : Bytes) :
    (decodePktinfoV4 t len peer data).toOption.map RecvMeta.facts =
      (Compio.inPktinfo t data).map fun (spec, dst, index) =>
        Compio.factsOf false (.v4 spec, .v4 dst, index) := by
  unfold decodePktinfoV4 Compio.inPktinfo chunk
  by_cases hshort : data.length < 12
  · rw [if_pos hshort, dif_neg (show ¬8 + 4 ≤ data.length by omega)]
    split
    · rename_i heq
      cases heq
    · rfl
  · rw [if_neg hshort, dif_pos (show 0 + 4 ≤ data.length by omega),
      dif_pos (show 4 + 4 ≤ data.length by omega), dif_pos (show 8 + 4 ≤ data.length by omega)]
    rfl

theorem decodePktinfoV6_facts (t : Target) (len : Nat) (peer : SocketAddr) (data : Bytes) :
    (decodePktinfoV6 t len peer data).toOption.map RecvMeta.facts =
      (Compio.in6Pktinfo t data).map fun (dst, index) =>
        Compio.factsOf false (.v6 dst, .v6 dst, index) := by
  unfold decodePktinfoV6 Compio.in6Pktinfo chunk
  by_cases hshort : data.length < 20
  · rw [if_pos hshort, dif_neg (show ¬16 + 4 ≤ data.length by omega)]
    split
    · rename_i heq
      cases heq
    · rfl
  · rw [if_neg hshort, dif_pos (show 0 + 16 ≤ data.length by omega),
      dif_pos (show 16 + 4 ≤ data.length by omega)]
    rfl

theorem recvWithMeta_facts (b : Build) (isV4 : Bool) (n : Nat) (peer : SocketAddr)
    (control : Bytes) (delivery : Option LinkDelivery) :
    (recvWithMeta b isV4 n peer control false delivery).facts =
      ((if isV4 then parseV4 b control n peer else parseV6 b control n peer).toOption.map
        RecvMeta.facts).getD (witnessAbsent b isV4 n peer false).facts := by
  unfold recvWithMeta
  rw [if_neg (by decide)]
  cases (if isV4 then parseV4 b control n peer else parseV6 b control n peer) <;> rfl

end Ancillary

namespace Compio
open Ancillary

variable (b : Build)

theorem told_own (isV4 : Bool) (c : ParsedCmsg) (hforeign : foreign b isV4 c = false) :
    told b c =
      if informs b isV4 c then
        if isV4 then
          (inPktinfo b.target c.data).map fun (spec, dst, index) => (.v4 spec, .v4 dst, index)
        else (in6Pktinfo b.target c.data).map fun (dst, index) => (.v6 dst, .v6 dst, index)
      else none := by
  unfold told informs
  unfold foreign at hforeign
  cases isV4 with
  | true =>
    simp only [if_true, Bool.and_eq_false_iff] at hforeign
    by_cases hown : b.v4 = .pktinfo ∧ isPktinfoV4 b.target c
    · simp [hown]
    · rw [if_neg hown, if_neg, if_neg]
      · simpa using hown
      · rintro ⟨hhas, his⟩
        rcases hforeign with hno | hno
        · rw [hno] at hhas
          cases hhas
        · rw [hno] at his
          cases his
  | false =>
    simp only [Bool.false_eq_true, if_false, Bool.or_eq_false_iff] at hforeign
    have hnot : ¬(b.v4 = .pktinfo ∧ isPktinfoV4 b.target c) := by
      rintro ⟨hv4, his⟩
      rw [hv4, his] at hforeign
      exact absurd hforeign.1 (by decide)
    rw [if_neg hnot]
    simp only [Bool.false_eq_true, if_false, Bool.and_eq_true]

theorem filter_single {A : Type} (p : A → Bool) (xs : List A) (h : (xs.filter p).length ≤ 1) :
    xs.filter p = (xs.find? p).toList := by
  rw [← List.head?_filter]
  generalize xs.filter p = ys at h ⊢
  match ys, h with
  | [], _ => rfl
  | [y], _ => rfl

theorem told_single (isV4 : Bool) (entries : List ParsedCmsg)
    (hforeign : ∀ c ∈ entries, foreign b isV4 c = false)
    (hsingle : (entries.filter (informs b isV4)).length ≤ 1) :
    (entries.filterMap (told b)).getLast? = (entries.find? (informs b isV4)).bind (told b) := by
  have hfilter : entries.filterMap (told b) =
      (entries.filter (informs b isV4)).filterMap (told b) := by
    rw [List.filterMap_filter]
    apply List.filterMap_congr
    intro c hc
    rw [told_own b isV4 c (hforeign c hc)]
    split <;> rfl
  rw [hfilter, filter_single _ _ hsingle]
  cases entries.find? (informs b isV4) with
  | none => rfl
  | some c =>
    rw [Option.toList_some, List.filterMap_cons, List.filterMap_nil, Option.bind_some]
    cases told b c <;> rfl

theorem told_agree (ctrl : Bytes)
    (hmeasured : b.target.layout.Holds ctrl.length) :
    (CMsgIter.items b.target.layout ctrl).filterMap (told b) =
      (okItems (Ancillary.CmsgIter.items b.target.layout ctrl)).filterMap (told b) := by
  rw [← told_nonempty b (CMsgIter.items b.target.layout ctrl),
    CMsgIter.items_agree b.target.layout ctrl hmeasured, told_nonempty]

theorem declared_facts (peer : SocketAddr) (len : Nat) (truncated : Bool)
    (delivery : Option LinkDelivery) :
    (RecvMeta.declareCmsgAbsent b { RecvMeta.empty peer with
      len := len
      truncated := truncated
      delivery := delivery } false).facts = (witnessAbsent b peer.isV4 len peer false).facts := by
  obtain ⟨target, v4, hasIpv6Pktinfo, -, -⟩ := b
  cases peer with
  | v4 => cases v4 <;> rfl
  | v6 => cases hasIpv6Pktinfo <;> rfl

theorem bsd_foreign (ctrl : Bytes) (received : RecvMeta) (hv4 : b.v4 = .dstaddrRecvif)
    (hforeign : ∀ c ∈ okItems (Ancillary.CmsgIter.items b.target.layout ctrl),
      foreign b false c = false) : decodeBsdIpv4DstaddrRecvif b ctrl received = received := by
  have hnot : ∀ c ∈ okItems (Ancillary.CmsgIter.items b.target.layout ctrl),
      destinationOf b.target b.target.ipRecvdstaddr c = none ∧
        indexOf b.target b.target.ipRecvif c = none := by
    intro c hc
    have hc' := hforeign c hc
    unfold foreign at hc'
    rw [hv4] at hc'
    unfold destinationOf indexOf
    by_cases hlevel : c.level = b.target.ipprotoIp
    · simp [hlevel] at hc'
      rw [if_neg (fun h => hc'.1 h.2), if_neg (fun h => hc'.2 h.2)]
      exact ⟨rfl, rfl⟩
    · rw [if_neg (fun h => hlevel h.1), if_neg (fun h => hlevel h.1)]
      exact ⟨rfl, rfl⟩
  have hdst := List.findSome?_eq_none_iff.mpr fun c hc => (hnot c hc).1
  have hif := List.findSome?_eq_none_iff.mpr fun c hc => (hnot c hc).2
  unfold decodeBsdIpv4DstaddrRecvif parseDstaddrRecvifV4 dstaddrRecvifMeta
  rw [scanDstaddrRecvif_found, hdst, hif]
  rfl

theorem bsd_facts (ctrl : Bytes) (received : RecvMeta) (localIp : IpAddr)
    (hlocal : localIp = .v4 .unspecified)
    (hfacts : received.facts = (localIp, .declined, .declined)) :
    (decodeBsdIpv4DstaddrRecvif b ctrl received).facts =
      ((parseDstaddrRecvifV4 b.target ctrl received.len received.peer).toOption.map
        Ancillary.RecvMeta.facts).getD (localIp, .declined, .declined) := by
  unfold RecvMeta.facts at hfacts
  rw [Prod.mk.injEq, Prod.mk.injEq] at hfacts
  obtain ⟨hip, hdestination, hiface⟩ := hfacts
  unfold decodeBsdIpv4DstaddrRecvif parseDstaddrRecvifV4 dstaddrRecvifMeta
  generalize scanDstaddrRecvif b.target ctrl b.target.ipRecvdstaddr b.target.ipRecvif = scanned
  obtain ⟨destination, index⟩ := scanned
  dsimp only
  split
  · rename_i heq
    split at heq
    · rename_i hnone
      rw [if_pos hnone]
      change (received.localIp, received.destination, received.iface) = _
      rw [hip, hdestination, hiface]
      rfl
    · cases heq
  · rename_i parsed heq
    split at heq
    · cases heq
    · rename_i hsome
      cases heq
      rw [if_neg hsome]
      unfold RecvMeta.facts
      dsimp only [RecvMeta.new]
      rw [hip, hdestination, hiface, hlocal]
      unfold DestinationWitness.fromReportingPath IfaceWitness.fromReportingPath
      cases destination <;> cases NonZeroU32.new (index.getD 0) <;> rfl

theorem recvMeta_agrees (peer : SocketAddr) (n : Nat) (truncated : Bool)
    (delivery : Option LinkDelivery) (ctrl : Bytes)
    (hmeasured : b.target.layout.Holds ctrl.length)
    (hforeign : ∀ c ∈ okItems (Ancillary.CmsgIter.items b.target.layout ctrl),
      foreign b peer.isV4 c = false)
    (hsingle : ((okItems (Ancillary.CmsgIter.items b.target.layout ctrl)).filter
      (informs b peer.isV4)).length ≤ 1) :
    (recvMeta b peer n truncated delivery ctrl false).facts =
      (recvWithMeta b peer.isV4 n peer ctrl false delivery).facts := by
  obtain ⟨declared, hdeclared, hfacts⟩ :=
    recvMeta_facts b peer n truncated delivery ctrl false
  have habsent := declared_facts b peer n truncated delivery
  rw [← hdeclared] at habsent
  rw [hfacts, told_agree b ctrl hmeasured, told_single b peer.isV4 _ hforeign hsingle,
    recvWithMeta_facts]
  have hmem : ∀ c, (okItems (Ancillary.CmsgIter.items b.target.layout ctrl)).find?
      (informs b peer.isV4) = some c → foreign b peer.isV4 c = false ∧
        informs b peer.isV4 c = true := fun c hc =>
    ⟨hforeign c (List.mem_of_find?_eq_some hc), List.find?_some hc⟩
  cases hfamily : peer.isV4 with
  | true =>
    rw [hfamily] at hmem habsent
    rw [if_pos rfl]
    unfold parseV4
    cases hv4 : b.v4 with
    | pktinfo =>
      have hwanted : informs b true = isPktinfoV4 b.target := by
        funext c
        simp [informs, hv4]
      rw [if_neg nofun, habsent]
      dsimp only
      unfold parsePktinfoV4
      rw [firstOf_found]
      rw [hwanted] at hmem ⊢
      cases hfind : (okItems (Ancillary.CmsgIter.items b.target.layout ctrl)).find?
          (isPktinfoV4 b.target) with
      | none => rfl
      | some c =>
        obtain ⟨hnot, hinforms⟩ := hmem c hfind
        rw [Option.bind_some, Option.bind_some, decodePktinfoV4_facts, told_own b true c hnot,
          hwanted, hinforms, if_pos rfl, if_pos rfl, Option.map_map]
        rfl
    | dstaddrRecvif =>
      have hnone : (okItems (Ancillary.CmsgIter.items b.target.layout ctrl)).find?
          (informs b true) = none := by
        rw [List.find?_eq_none]
        intro c hc
        simp [informs, hv4]
      have hlen : declared.len = n ∧ declared.peer = peer := by
        rw [hdeclared]
        unfold RecvMeta.declareCmsgAbsent
        split <;> exact ⟨rfl, rfl⟩
      have hwitness : (witnessAbsent b true n peer false).facts =
          (.v4 .unspecified, .declined, .declined) := by
        unfold witnessAbsent reportsRxInterfaceV4
        rw [hv4]
        rfl
      rw [hwitness] at habsent
      rw [hnone, if_pos rfl, bsd_facts b ctrl declared _ rfl habsent, hlen.1, hlen.2, hwitness]
      rfl
    | unreported =>
      have hnone : (okItems (Ancillary.CmsgIter.items b.target.layout ctrl)).find?
          (informs b true) = none := by
        rw [List.find?_eq_none]
        intro c hc
        simp [informs, hv4]
      rw [hnone, if_neg nofun, habsent]
      rfl
  | false =>
    rw [hfamily] at hmem habsent hforeign
    have hbase : (if b.v4 = .dstaddrRecvif then decodeBsdIpv4DstaddrRecvif b ctrl declared
        else declared) = declared := by
      split
      · rename_i hv4
        exact bsd_foreign b ctrl declared hv4 hforeign
      · rfl
    rw [hbase, habsent, if_neg (by decide)]
    unfold parseV6
    cases hhas : b.hasIpv6Pktinfo with
    | false =>
      have hnone : (okItems (Ancillary.CmsgIter.items b.target.layout ctrl)).find?
          (informs b false) = none := by
        rw [List.find?_eq_none]
        intro c hc
        simp [informs, hhas]
      rw [hnone]
      rfl
    | true =>
      have hwanted : informs b false = isPktinfoV6 b.target := by
        funext c
        simp [informs, hhas]
      rw [if_pos rfl]
      unfold parsePktinfoV6
      rw [firstOf_found]
      rw [hwanted] at hmem ⊢
      cases hfind : (okItems (Ancillary.CmsgIter.items b.target.layout ctrl)).find?
          (isPktinfoV6 b.target) with
      | none => rfl
      | some c =>
        obtain ⟨hnot, hinforms⟩ := hmem c hfind
        rw [Option.bind_some, Option.bind_some, decodePktinfoV6_facts, told_own b false c hnot,
          hwanted, hinforms, if_pos rfl, if_neg (by decide), Option.map_map]
        rfl

def TellsDestination (b : Build) (c : ParsedCmsg) (dst : IpAddr) : Prop :=
  (∃ localIp index, told b c = some (localIp, dst, index)) ∨
    (b.v4 = .dstaddrRecvif ∧
      (destinationOf b.target b.target.ipRecvdstaddr c).map IpAddr.v4 = some dst)

def TellsIface (b : Build) (c : ParsedCmsg) (index : NonZeroU32) : Prop :=
  (∃ localIp dst signed, told b c = some (localIp, dst, signed) ∧
    IfaceWitness.fromReportingPathSigned signed true = .witnessed index) ∨
    (b.v4 = .dstaddrRecvif ∧
      (indexOf b.target b.target.ipRecvif c).bind NonZeroU32.new = some index)

theorem fromReportingPath_truncated (index : UInt32) :
    IfaceWitness.fromReportingPath index true = .lost ∨
      ∃ idx, NonZeroU32.new index = some idx ∧
        IfaceWitness.fromReportingPath index true = .witnessed idx := by
  unfold IfaceWitness.fromReportingPath
  cases NonZeroU32.new index with
  | none => exact Or.inl rfl
  | some idx => exact Or.inr ⟨idx, rfl, rfl⟩

theorem declared_truncated (peer : SocketAddr) (len : Nat) (truncated : Bool)
    (delivery : Option LinkDelivery) (ctrl : Bytes) :
    ((recvWithMeta b peer.isV4 len peer ctrl true delivery).destination = .lost →
      (RecvMeta.declareCmsgAbsent b { RecvMeta.empty peer with
        len := len
        truncated := truncated
        delivery := delivery } true).destination = .lost) ∧
    ((recvWithMeta b peer.isV4 len peer ctrl true delivery).iface = .lost →
      (RecvMeta.declareCmsgAbsent b { RecvMeta.empty peer with
        len := len
        truncated := truncated
        delivery := delivery } true).iface = .lost) := by
  obtain ⟨target, v4, hasIpv6Pktinfo, -, -⟩ := b
  cases peer with
  | v4 => cases v4 <;> exact ⟨id, id⟩
  | v6 => cases hasIpv6Pktinfo <;> exact ⟨id, id⟩

theorem bsd_truncated (ctrl : Bytes) (received : RecvMeta)
    (hv4 : b.v4 = .dstaddrRecvif) :
    ((decodeBsdIpv4DstaddrRecvif b ctrl received).destination = received.destination ∨
      ∃ c dst, Present b.target.layout ctrl c ∧ TellsDestination b c dst ∧
        (decodeBsdIpv4DstaddrRecvif b ctrl received).destination = .witnessed dst) ∧
    ((decodeBsdIpv4DstaddrRecvif b ctrl received).iface = received.iface ∨
      ∃ c index, Present b.target.layout ctrl c ∧ TellsIface b c index ∧
        (decodeBsdIpv4DstaddrRecvif b ctrl received).iface = .witnessed index) := by
  unfold decodeBsdIpv4DstaddrRecvif parseDstaddrRecvifV4 dstaddrRecvifMeta
  rw [scanDstaddrRecvif_found]
  dsimp only
  split
  · exact ⟨Or.inl rfl, Or.inl rfl⟩
  · rename_i parsed heq
    split at heq
    · cases heq
    · cases heq
      dsimp only [RecvMeta.new]
      constructor
      · cases hdst : (okItems (Ancillary.CmsgIter.items b.target.layout ctrl)).findSome?
            (destinationOf b.target b.target.ipRecvdstaddr) with
        | none => exact Or.inl rfl
        | some dst =>
          obtain ⟨c, hc, htells⟩ := List.exists_of_findSome?_eq_some hdst
          refine Or.inr ⟨c, .v4 dst, ?_, Or.inr ⟨hv4, by rw [htells]; rfl⟩, rfl⟩
          exact Ancillary.CmsgIter.items_present _ _ _ ((mem_okItems _ c).mp hc)
      · cases hif : (okItems (Ancillary.CmsgIter.items b.target.layout ctrl)).findSome?
            (indexOf b.target b.target.ipRecvif) with
        | none => exact Or.inl rfl
        | some index =>
          obtain ⟨c, hc, htells⟩ := List.exists_of_findSome?_eq_some hif
          unfold IfaceWitness.fromReportingPath
          rw [Option.getD_some]
          cases hindex : NonZeroU32.new index with
          | none => exact Or.inl rfl
          | some idx =>
            refine Or.inr ⟨c, idx, ?_, Or.inr ⟨hv4, by rw [htells]; exact hindex⟩, rfl⟩
            exact Ancillary.CmsgIter.items_present _ _ _ ((mem_okItems _ c).mp hc)

/-- With `MSG_CTRUNC` set, each witness is what was declared or the value of an entry that is wholly
there. -/
theorem recvMeta_truncated (peer : SocketAddr) (n : Nat) (truncated : Bool)
    (delivery : Option LinkDelivery) (ctrl : Bytes) :
    ((recvMeta b peer n truncated delivery ctrl true).destination =
        (RecvMeta.declareCmsgAbsent b { RecvMeta.empty peer with
          len := n
          truncated := truncated
          delivery := delivery } true).destination ∨
      ∃ c dst, Present b.target.layout ctrl c ∧ TellsDestination b c dst ∧
        (recvMeta b peer n truncated delivery ctrl true).destination = .witnessed dst) ∧
    ((recvMeta b peer n truncated delivery ctrl true).iface =
        (RecvMeta.declareCmsgAbsent b { RecvMeta.empty peer with
          len := n
          truncated := truncated
          delivery := delivery } true).iface ∨
      (recvMeta b peer n truncated delivery ctrl true).iface = .lost ∨
      ∃ c index, Present b.target.layout ctrl c ∧ TellsIface b c index ∧
        (recvMeta b peer n truncated delivery ctrl true).iface = .witnessed index) := by
  obtain ⟨declared, hdeclared, hfacts⟩ := recvMeta_facts b peer n truncated delivery ctrl true
  rw [← hdeclared]
  unfold RecvMeta.facts at hfacts
  cases hlast : ((CMsgIter.items b.target.layout ctrl).filterMap (told b)).getLast? with
  | some found =>
    rw [hlast] at hfacts
    obtain ⟨localIp, dst, signed⟩ := found
    rw [Option.map_some, Option.getD_some, factsOf, Prod.mk.injEq, Prod.mk.injEq] at hfacts
    obtain ⟨-, hdst, hif⟩ := hfacts
    obtain ⟨c, hc, htold⟩ := List.mem_filterMap.mp (List.mem_of_getLast? hlast)
    have hpresent := CMsgIter.items_present b.target.layout ctrl c hc
    refine ⟨Or.inr ⟨c, dst, hpresent, Or.inl ⟨localIp, signed, htold⟩, hdst⟩, Or.inr ?_⟩
    have hsigned := hif
    unfold IfaceWitness.fromReportingPathSigned at hsigned
    rcases fromReportingPath_truncated (if signed < 0 then 0 else signed.toUInt32) with
      hnone | ⟨idx, -, hsome⟩
    · exact Or.inl (hsigned.trans hnone)
    · refine Or.inr ⟨c, idx, hpresent, Or.inl ⟨localIp, dst, signed, htold, ?_⟩,
        hsigned.trans hsome⟩
      exact hsome
  | none =>
    rw [hlast, Option.map_none, Option.getD_none] at hfacts
    split at hfacts
    · rename_i hv4
      rw [Prod.mk.injEq, Prod.mk.injEq] at hfacts
      obtain ⟨-, hdst, hif⟩ := hfacts
      rw [hdst, hif]
      obtain ⟨hdestination, hiface⟩ := bsd_truncated b ctrl declared hv4
      refine ⟨hdestination, ?_⟩
      rcases hiface with heq | hfound
      · exact Or.inl heq
      · exact Or.inr (Or.inr hfound)
    · rw [Prod.mk.injEq, Prod.mk.injEq] at hfacts
      exact ⟨Or.inl hfacts.2.1, Or.inl hfacts.2.2⟩

end Compio

namespace Ancillary

/-- Both walks read the same entries, up to those without a payload. With `MSG_CTRUNC` clear, of a
buffer in which one entry at most informs a socket of this family and none belongs to the other
family, both tell the same local address, destination and interface. -/
theorem two_decoders_one_verdict (b : Build) (peer : SocketAddr) (n : Nat) (truncated : Bool)
    (delivery : Option LinkDelivery) (ctrl : Bytes)
    (hmeasured : b.target.layout.Holds ctrl.length) :
    (Compio.CMsgIter.items b.target.layout ctrl).filter Compio.CMsgIter.nonempty =
      (okItems (CmsgIter.items b.target.layout ctrl)).filter Compio.CMsgIter.nonempty ∧
    ((∀ c ∈ okItems (CmsgIter.items b.target.layout ctrl), foreign b peer.isV4 c = false) →
      ((okItems (CmsgIter.items b.target.layout ctrl)).filter (informs b peer.isV4)).length ≤ 1 →
      let one := recvWithMeta b peer.isV4 n peer ctrl false delivery
      let other := Compio.recvMeta b peer n truncated delivery ctrl false
      other.localIp = one.localIp ∧ other.destination = one.destination ∧
        other.iface = one.iface) ∧
    let one := recvWithMeta b peer.isV4 n peer ctrl true delivery
    let other := Compio.recvMeta b peer n truncated delivery ctrl true
    (one.destination = .lost →
      other.destination = .lost ∨
        ∃ c dst, Present b.target.layout ctrl c ∧ Compio.TellsDestination b c dst ∧
          other.destination = .witnessed dst) ∧
    (one.iface = .lost →
      other.iface = .lost ∨
        ∃ c index, Present b.target.layout ctrl c ∧ Compio.TellsIface b c index ∧
          other.iface = .witnessed index) := by
  refine ⟨Compio.CMsgIter.items_agree b.target.layout ctrl hmeasured, ?_, ?_⟩
  · intro hforeign hsingle one other
    have hfacts := Compio.recvMeta_agrees b peer n truncated delivery ctrl hmeasured hforeign
      hsingle
    unfold Compio.RecvMeta.facts RecvMeta.facts at hfacts
    rw [Prod.mk.injEq, Prod.mk.injEq] at hfacts
    exact hfacts
  · intro one other
    obtain ⟨hdst, hif⟩ := Compio.recvMeta_truncated b peer n truncated delivery ctrl
    obtain ⟨hdstLost, hifLost⟩ := Compio.declared_truncated b peer n truncated delivery ctrl
    constructor
    · intro hlost
      rcases hdst with heq | hfound
      · exact Or.inl (heq.trans (hdstLost hlost))
      · exact Or.inr hfound
    · intro hlost
      rcases hif with heq | hfound
      · exact Or.inl (heq.trans (hifLost hlost))
      · exact hfound

def linuxTarget : Target where
  layout := linux64
  littleEndian := true
  ipprotoIp := 0
  ipprotoIpv6 := 41
  solSocket := 1
  ipPktinfo := 8
  ipRecvdstaddr := -1
  ipRecvif := -2
  ipTtl := 2
  ipRecvttl := 12
  ipv6Pktinfo := 50
  ipv6Hoplimit := 52
  scmTimestamp := 35
  stampSize := 16
  readStamp := fun bs =>
    ((UInt64.ofNat (ofLe (bs.take 8))).toInt64.toInt,
      (UInt64.ofNat (ofLe (bs.drop 8))).toInt64.toInt)
  pair_apart := by decide

def linuxBuild : Build where
  target := linuxTarget
  v4 := .pktinfo
  hasIpv6Pktinfo := true
  hasRecvHoplimit := true
  stampNs := some true

def groupEntry : ParsedCmsg := ⟨0, 8, [2, 0, 0, 0, 192, 168, 1, 2, 224, 0, 0, 251]⟩

def v4Peer : SocketAddr := .v4 ⟨[192, 168, 1, 9], rfl⟩ 5353

def v6Peer : SocketAddr := .v6 ⟨254 :: 128 :: List.replicate 14 0, rfl⟩ 5353 0 2

theorem groupEntry_items :
    okItems (CmsgIter.items linux64 (linux64.encode [groupEntry])) = [groupEntry] := by
  rw [CmsgIter.items_encoded linux64 [groupEntry] _ (encode_encodes linux64 [groupEntry])
    (by decide)]
  rfl

theorem group_is_one_verdict :
    linuxTarget.layout.Holds (linux64.encode [groupEntry]).length ∧
    let one := recvWithMeta linuxBuild true 60 v4Peer (linux64.encode [groupEntry]) false none
    let other := Compio.recvMeta linuxBuild v4Peer 60 false none
      (linux64.encode [groupEntry]) false
    other.localIp = one.localIp ∧ other.destination = one.destination ∧
      other.iface = one.iface := by
  have hmeasured : linuxTarget.layout.Holds (linux64.encode [groupEntry]).length := by decide
  have hverdict := (two_decoders_one_verdict linuxBuild v4Peer 60 false none
    (linux64.encode [groupEntry]) hmeasured).2.1
  change (∀ c ∈ okItems (CmsgIter.items linux64 (linux64.encode [groupEntry])), _) →
    ((okItems (CmsgIter.items linux64 (linux64.encode [groupEntry]))).filter _).length ≤ 1 →
      _ at hverdict
  rw [groupEntry_items] at hverdict
  exact ⟨hmeasured, hverdict (by decide) (by decide)⟩

/-- An IPv4 entry on an IPv6 socket is not of its family. One decoder tells what it holds, the other
one does not read it. -/
theorem an_entry_of_the_other_family_is_taken :
    ¬∀ (b : Build) (peer : SocketAddr) (n : Nat) (ctrl : Bytes),
      ((okItems (CmsgIter.items b.target.layout ctrl)).filter
        (informs b peer.isV4)).length ≤ 1 →
      (Compio.recvMeta b peer n false none ctrl false).destination =
        (recvWithMeta b peer.isV4 n peer ctrl false none).destination := by
  intro hall
  have hitems : okItems (CmsgIter.items linuxBuild.target.layout (linux64.encode [groupEntry])) =
      [groupEntry] := groupEntry_items
  have hagree := hall linuxBuild v6Peer 60 (linux64.encode [groupEntry])
    (by rw [hitems]; decide)
  obtain ⟨declared, -, hfacts⟩ := Compio.recvMeta_facts linuxBuild v6Peer 60 false none
    (linux64.encode [groupEntry]) false
  rw [Compio.told_agree linuxBuild _ (by decide), hitems] at hfacts
  have hone : (recvWithMeta linuxBuild false 60 v6Peer (linux64.encode [groupEntry]) false
      none).facts = (witnessAbsent linuxBuild false 60 v6Peer false).facts := by
    rw [recvWithMeta_facts, if_neg (by decide)]
    change ((parsePktinfoV6 linuxTarget (linux64.encode [groupEntry]) 60 v6Peer).toOption.map
      RecvMeta.facts).getD _ = _
    unfold parsePktinfoV6
    rw [firstOf_found, show linuxTarget.layout = linux64 from rfl, groupEntry_items]
    rfl
  have hother : (Compio.recvMeta linuxBuild v6Peer 60 false none (linux64.encode [groupEntry])
      false).destination = .witnessed (.v4 ⟨[224, 0, 0, 251], rfl⟩) :=
    congrArg (fun facts : Compio.Facts => facts.2.1) hfacts
  have hdeclined : (recvWithMeta linuxBuild false 60 v6Peer (linux64.encode [groupEntry]) false
      none).destination = .declined := congrArg (fun facts : Compio.Facts => facts.2.1) hone
  have hclash := hother.symm.trans (hagree.trans hdeclined)
  cases hclash

end Ancillary
end Hick
