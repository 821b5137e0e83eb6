import Mathlib
import Hick.Onlink.Ingress

/-!
# What is let in

An admission rests on the destination: an mDNS group, an address the binding holds, or, where no
address could be enumerated, one that might be held.
-/

namespace Hick
open Octets

def NamesForeignLink (src : SocketAddr) (link : BoundLink) (iface : IfaceWitness) : Prop :=
  link.iface ≠ 0 ∧ ((∃ index, iface.witnessedIndex = some index ∧ index.get ≠ link.iface) ∨
    (scopeOf src ≠ 0 ∧ scopeOf src ≠ link.iface))

theorem scan_two (iface : UInt32) (a b : Option NonZeroU32) :
    scanWitnesses iface false [a, b] =
      if (a.any fun w => w.get != iface) || b.any fun w => w.get != iface then .error .foreignLink
      else .ok (a.isSome || b.isSome) := by
  cases a with
  | none =>
    cases b with
    | none => rfl
    | some w =>
      simp only [scanWitnesses, Option.any_none, Option.any_some, Bool.false_or, bne_iff_ne]
      split <;> rfl
  | some v =>
    by_cases hv : v.get = iface
    · cases b with
      | none => simp [scanWitnesses, hv]
      | some w =>
        simp only [scanWitnesses, hv, ne_eq, not_true_eq_false, if_false, Option.any_some,
          bne_self_eq_false, Bool.false_or, bne_iff_ne]
        split <;> rfl
    · simp [scanWitnesses, hv]

variable (src : SocketAddr) (dst : IpAddr) (link : BoundLink)

theorem arrived_foreign (iface : IfaceWitness)
    (h : NamesForeignLink src link iface) :
    arrivedOnBoundInterface src link iface = .error .foreignLink := by
  obtain ⟨hbound, hnames⟩ := h
  have hscan : scanWitnesses link.iface false [iface.witnessedIndex, NonZeroU32.new (scopeOf src)] =
      .error .foreignLink := by
    rw [scan_two, if_pos]
    rw [Bool.or_eq_true]
    rcases hnames with ⟨index, hindex, hne⟩ | ⟨hz, hne⟩
    · left
      rw [hindex]
      simp [hne]
    · right
      unfold NonZeroU32.new
      rw [dif_pos hz]
      simp [hne]
  unfold arrivedOnBoundInterface
  rw [if_neg hbound, hscan]

/-- The addresses agree under the netmask of a prefix of their family: `I AND M = P AND M`. -/
def InPrefix (net : IpAddr) (p : UInt8) (addr : IpAddr) : Prop :=
  match net, addr with
  | .v4 n, .v4 a => p.toNat ≤ 32 ∧
    beNat a.octets &&& netmask 32 p.toNat = beNat n.octets &&& netmask 32 p.toNat
  | .v6 n, .v6 a => p.toNat ≤ 128 ∧
    beNat a.octets &&& netmask 128 p.toNat = beNat n.octets &&& netmask 128 p.toNat
  | _, _ => False

theorem prefixMatch_iff (net addr : Bytes) (p : UInt8) (n : Nat) (hnet : net.length = n)
    (haddr : addr.length = n) :
    prefixMatch net addr p (8 * n) = true ↔ p.toNat ≤ 8 * n ∧
      beNat addr &&& netmask (8 * n) p.toNat = beNat net &&& netmask (8 * n) p.toNat := by
  unfold prefixMatch
  by_cases hp : 8 * n < p.toNat
  · rw [if_pos hp]
    simp [Nat.not_le.mpr hp]
  · have hle : p.toNat ≤ 8 * net.length := by omega
    rw [if_neg hp, samePrefix_iff net addr p.toNat (by omega) hle, hnet]
    constructor
    · intro h
      exact ⟨by omega, h.symm⟩
    · intro h
      exact h.2.symm

theorem addrInSubnet_iff (net : IpAddr) (p : UInt8) (addr : IpAddr) :
    addrInSubnet net p addr = true ↔ InPrefix net p addr := by
  cases net with
  | v4 n =>
    cases addr with
    | v4 a => exact prefixMatch_iff n.octets a.octets p 4 n.length_eq a.length_eq
    | v6 a => simp [addrInSubnet, InPrefix]
  | v6 n =>
    cases addr with
    | v4 a => simp [addrInSubnet, InPrefix]
    | v6 a => exact prefixMatch_iff n.octets a.octets p 16 n.length_eq a.length_eq

instance (net : IpAddr) (p : UInt8) (addr : IpAddr) : Decidable (InPrefix net p addr) :=
  decidable_of_iff _ (addrInSubnet_iff net p addr)

/-- A source that is on the link: the endpoint's own loopback traffic where loopback is its link,
and else an address under an on-link prefix, or a link-local one once the link is established. -/
def OnLink (src : SocketAddr) (link : BoundLink) (provenance : LinkProvenance) : Prop :=
  if src.ip.isLoopback = true then link.isLoopback = true
  else (provenance = .established ∧
      InPrefix (.v6 linkLocalV6Net) linkLocalV6PrefixLen src.ip) ∨
    ∃ np ∈ link.onlinkPrefixes, InPrefix np.1 np.2 src.ip

theorem srcOnLocalLink_iff (iface : IfaceWitness)
    (provenance : LinkProvenance) (harrived : arrivedOnBoundInterface src link iface = .ok provenance) :
    srcOnLocalLink src link iface provenance = true ↔ OnLink src link provenance := by
  unfold srcOnLocalLink OnLink
  by_cases hloop : src.ip.isLoopback = true
  · rw [if_pos hloop, if_pos hloop, harrived]
    simp [Except.toBool]
  · rw [if_neg hloop, if_neg hloop]
    by_cases hseed : (provenance == .established &&
        addrInSubnet (.v6 linkLocalV6Net) linkLocalV6PrefixLen src.ip) = true
    · rw [if_pos hseed]
      obtain ⟨hprov, hnet⟩ := Bool.and_eq_true_iff.mp hseed
      have hin := (addrInSubnet_iff _ _ _).mp hnet
      exact iff_of_true rfl (.inl ⟨beq_iff_eq.mp hprov, hin⟩)
    · rw [if_neg hseed, List.any_eq_true]
      constructor
      · intro h
        obtain ⟨np, hmem, hnp⟩ := h
        exact .inr ⟨np, hmem, (addrInSubnet_iff _ _ _).mp hnp⟩
      · intro h
        rcases h with ⟨hprov, hin⟩ | ⟨np, hmem, hin⟩
        · have hnet := (addrInSubnet_iff _ _ _).mpr hin
          rw [hprov, hnet] at hseed
          exact absurd rfl hseed
        · exact ⟨np, hmem, (addrInSubnet_iff _ _ _).mpr hin⟩

theorem OnLink.loopback (provenance : LinkProvenance)
    (h : OnLink src link provenance) (hsrc : src.ip.isLoopback = true) :
    link.isLoopback = true := by
  unfold OnLink at h
  rwa [if_pos hsrc] at h

/-- The binding holds the destination: every loopback address where it is loopback's, and else
what it enumerated. -/
def Holds (link : BoundLink) (dst : IpAddr) : Prop :=
  if dst.isLoopback = true then link.isLoopback = true else ∃ held ∈ link.localAddrs, held.1 = dst

theorem isBoundAddress_iff :
    isBoundAddress dst link = true ↔ Holds link dst := by
  unfold isBoundAddress Holds
  by_cases hloop : dst.isLoopback = true
  · rw [if_pos hloop, if_pos hloop]
  · rw [if_neg hloop, if_neg hloop, List.any_eq_true]
    simp only [beq_iff_eq]

/-- An address that is nobody's own: a multicast group that is not mDNS's, the broadcast, an
unspecified or an IPv4-mapped address. -/
inductive Nobodys : IpAddr → Prop
  | foreignGroup4 (a : Ipv4Addr) (h : a.isMulticast = true)
    (hgroup : isMdnsGroup (.v4 a) = false) : Nobodys (.v4 a)
  | foreignGroup6 (a : Ipv6Addr) (h : a.isMulticast = true)
    (hgroup : isMdnsGroup (.v6 a) = false) : Nobodys (.v6 a)
  | broadcast (a : Ipv4Addr) (h : a.isBroadcast = true) : Nobodys (.v4 a)
  | unspecified4 (a : Ipv4Addr) (h : a.isUnspecified = true) : Nobodys (.v4 a)
  | unspecified6 (a : Ipv6Addr) (h : a.isUnspecified = true) : Nobodys (.v6 a)
  | ipv4Mapped (a : Ipv6Addr) (h : a.isIpv4Mapped = true) : Nobodys (.v6 a)

theorem isMdnsGroup_cases (h : isMdnsGroup dst = true) :
    dst = .v4 mdnsIpv4Group ∨ dst = .v6 mdnsIpv6Group := by
  cases dst with
  | v4 a => exact .inl (congrArg IpAddr.v4 (beq_iff_eq.mp h))
  | v6 a => exact .inr (congrArg IpAddr.v6 (beq_iff_eq.mp h))

theorem loopback_not_group (h : dst.isLoopback = true) :
    isMdnsGroup dst = false := by
  rw [Bool.eq_false_iff]
  intro hg
  rcases isMdnsGroup_cases dst hg with rfl | rfl
  · exact absurd h (by decide)
  · exact absurd h (by decide)

theorem Nobodys.not_group (h : Nobodys dst) : isMdnsGroup dst = false := by
  cases h with
  | foreignGroup4 a h hgroup => exact hgroup
  | foreignGroup6 a h hgroup => exact hgroup
  | broadcast a h =>
    rw [Bool.eq_false_iff]
    intro hg
    rw [show a = mdnsIpv4Group from beq_iff_eq.mp hg] at h
    exact absurd h (by decide)
  | unspecified4 a h =>
    rw [Bool.eq_false_iff]
    intro hg
    rw [show a = mdnsIpv4Group from beq_iff_eq.mp hg] at h
    exact absurd h (by decide)
  | unspecified6 a h =>
    rw [Bool.eq_false_iff]
    intro hg
    rw [show a = mdnsIpv6Group from beq_iff_eq.mp hg] at h
    exact absurd h (by decide)
  | ipv4Mapped a h =>
    rw [Bool.eq_false_iff]
    intro hg
    rw [show a = mdnsIpv6Group from beq_iff_eq.mp hg] at h
    exact absurd h (by decide)

theorem Nobodys.not_loopback (h : Nobodys dst) : dst.isLoopback = false := by
  have h6 : ∀ a : Ipv6Addr, IpAddr.isLoopback (.v6 a) = true →
      a.octets = List.replicate 15 0 ++ [1] := by
    intro a ha
    exact beq_iff_eq.mp ha
  rw [Bool.eq_false_iff]
  intro hl
  cases h with
  | foreignGroup4 a h hgroup =>
    have hhead : a.octets[0]? = some 127 := beq_iff_eq.mp hl
    unfold Ipv4Addr.isMulticast at h
    rw [hhead] at h
    exact absurd h (by decide)
  | foreignGroup6 a h hgroup =>
    unfold Ipv6Addr.isMulticast at h
    rw [h6 a hl] at h
    exact absurd h (by decide)
  | broadcast a h =>
    have hhead : a.octets[0]? = some 127 := beq_iff_eq.mp hl
    rw [show a.octets = [255, 255, 255, 255] from beq_iff_eq.mp h] at hhead
    exact absurd hhead (by decide)
  | unspecified4 a h =>
    have hhead : a.octets[0]? = some 127 := beq_iff_eq.mp hl
    rw [show a.octets = [0, 0, 0, 0] from beq_iff_eq.mp h] at hhead
    exact absurd hhead (by decide)
  | unspecified6 a h =>
    unfold Ipv6Addr.isUnspecified at h
    rw [h6 a hl] at h
    exact absurd h (by decide)
  | ipv4Mapped a h =>
    unfold Ipv6Addr.isIpv4Mapped at h
    rw [h6 a hl] at h
    exact absurd h (by decide)

theorem Nobodys.named (dst : IpAddr) (h : Nobodys dst) :
    classifyUnheld dst link ≠ .destinationNotHeld := by
  cases h with
  | foreignGroup4 a h hgroup => simp only [classifyUnheld, h]; split_ifs <;> exact nofun
  | foreignGroup6 a h hgroup => simp only [classifyUnheld, h]; split_ifs <;> exact nofun
  | broadcast a h => simp only [classifyUnheld, h]; split_ifs <;> exact nofun
  | unspecified4 a h => simp only [classifyUnheld, h]; split_ifs <;> exact nofun
  | unspecified6 a h => simp only [classifyUnheld, h]; split_ifs <;> exact nofun
  | ipv4Mapped a h => simp only [classifyUnheld, h]; split_ifs <;> exact nofun

theorem loopback_named (dst : IpAddr) (h : dst.isLoopback = true)
    (hlink : link.isLoopback = false) : classifyUnheld dst link ≠ .destinationNotHeld := by
  cases dst with
  | v4 a =>
    have hl : a.isLoopback = true := h
    simp [classifyUnheld, hl, hlink]
  | v6 a =>
    have hl : a.isLoopback = true := h
    simp [classifyUnheld, hl, hlink]

theorem sourceArm_admits (iface : IfaceWitness)
    (provenance : LinkProvenance) (admitAs : Admit) (refuse : Refuse)
    (harrived : arrivedOnBoundInterface src link iface = .ok provenance) :
    (sourceArm src link iface provenance admitAs refuse).isAdmit = true ↔
      OnLink src link provenance := by
  rw [← srcOnLocalLink_iff src link iface provenance harrived]
  unfold sourceArm
  cases srcOnLocalLink src link iface provenance <;> simp [IngressVerdict.isAdmit]

theorem arrived_witnessed (link : BoundLink) (index : NonZeroU32) :
    arrivedOnBoundInterface src link (.witnessed index) ≠ .ok .unproven := by
  intro h
  unfold arrivedOnBoundInterface at h
  split at h
  · cases h
  · split at h
    · cases h
    · cases h
    · split at h <;> cases h

theorem admits_witnessed (delivery : Option LinkDelivery)
    (link : BoundLink) (iface : IfaceWitness)
    (h : (admitsIngress src (.witnessed dst) delivery link iface).isAdmit = true) :
    ∃ provenance, arrivedOnBoundInterface src link iface = .ok provenance ∧
      (witnessedArm src dst delivery link iface provenance).isAdmit = true := by
  unfold admitsIngress at h
  cases harrived : arrivedOnBoundInterface src link iface with
  | error refusal =>
    rw [harrived] at h
    cases h
  | ok provenance =>
    rw [harrived] at h
    exact ⟨provenance, rfl, h⟩

theorem witnessedArm_admits (delivery : Option LinkDelivery)
    (link : BoundLink) (iface : IfaceWitness) (provenance : LinkProvenance)
    (harrived : arrivedOnBoundInterface src link iface = .ok provenance)
    (h : (witnessedArm src dst delivery link iface provenance).isAdmit = true) :
    isMdnsGroup dst = true ∨ (isMdnsGroup dst = false ∧ OnLink src link provenance ∧
      (Holds link dst ∨
        (link.localAddrs = [] ∧ classifyUnheld dst link = .destinationNotHeld))) := by
  unfold witnessedArm at h
  cases hgroup : isMdnsGroup dst with
  | true => exact .inl rfl
  | false =>
    right
    refine ⟨rfl, ?_⟩
    rw [hgroup, if_neg Bool.false_ne_true] at h
    cases hbound : isBoundAddress dst link with
    | true =>
      rw [hbound, if_pos rfl] at h
      have hsrc := (sourceArm_admits src link iface provenance _ _ harrived).mp h
      exact ⟨hsrc, .inl ((isBoundAddress_iff dst link).mp hbound)⟩
    | false =>
      rw [hbound, if_neg Bool.false_ne_true] at h
      cases hempty : link.localAddrs.isEmpty with
      | false =>
        rw [hempty] at h
        cases h
      | true =>
        rw [hempty, if_pos rfl] at h
        cases hclass : classifyUnheld dst link with
        | destinationNotHeld =>
          rw [hclass] at h
          have hsrc := (sourceArm_admits src link iface provenance _ _ harrived).mp h
          exact ⟨hsrc, .inr ⟨List.isEmpty_iff.mp hempty, rfl⟩⟩
        | _ =>
          rw [hclass] at h
          cases h

theorem witnessedArm_group (delivery : Option LinkDelivery)
    (link : BoundLink) (iface : IfaceWitness) (provenance : LinkProvenance)
    (h : witnessedArm src dst delivery link iface provenance = .admitted .mdnsGroup) :
    provenance = .established ∨ provenance = .unbound := by
  have hsource : ∀ admitAs refuse, admitAs ≠ .mdnsGroup →
      sourceArm src link iface provenance admitAs refuse ≠ .admitted .mdnsGroup := by
    intro admitAs refuse hne heq
    unfold sourceArm at heq
    split at heq
    · exact hne (IngressVerdict.admitted.inj heq)
    · cases heq
  cases provenance with
  | established => exact .inl rfl
  | unbound => exact .inr rfl
  | unproven =>
    exfalso
    unfold witnessedArm at h
    dsimp only at h
    split_ifs at h with hgroup hbound hempty
    · unfold unscopedGroupArm at h
      cases delivery with
      | none => exact hsource .unscopedMdnsGroup _ nofun h
      | some way =>
        cases way with
        | unicast => exact hsource .unscopedMdnsGroup _ nofun h
        | multicast => cases h
        | broadcast => cases h
    · exact hsource .heldDestination _ nofun h
    · cases hclass : classifyUnheld dst link with
      | destinationNotHeld =>
        rw [hclass] at h
        exact hsource .unenumeratedDestination _ nofun h
      | _ =>
        rw [hclass] at h
        cases h

/-- What an admission of a datagram with a witnessed destination rests on. The destination is an
mDNS group; or the binding holds it and the source is on the link; or no address was enumerated, the
destination has no refusal of its own, and the source is on the link. -/
theorem admits_ingress_spec (src : SocketAddr) (dst : IpAddr) (delivery : Option LinkDelivery)
    (link : BoundLink) (iface : IfaceWitness) :
    ((admitsIngress src (.witnessed dst) delivery link iface).isAdmit = true →
      ∃ provenance, arrivedOnBoundInterface src link iface = .ok provenance ∧
        (∀ index, iface = .witnessed index → provenance ≠ .unproven) ∧
        (isMdnsGroup dst = true ∨ (Holds link dst ∧ OnLink src link provenance) ∨
          (link.localAddrs = [] ∧ classifyUnheld dst link = .destinationNotHeld ∧
            OnLink src link provenance))) ∧
      (admitsIngress src (.witnessed dst) delivery link iface = .admitted .mdnsGroup →
        arrivedOnBoundInterface src link iface = .ok .established ∨
          arrivedOnBoundInterface src link iface = .ok .unbound) ∧
      (Nobodys dst → (∀ held ∈ link.localAddrs, held.1 ≠ dst) →
        (admitsIngress src (.witnessed dst) delivery link iface).isAdmit = false) ∧
      (dst.isLoopback = true → link.isLoopback = false →
        (admitsIngress src (.witnessed dst) delivery link iface).isAdmit = false) ∧
      (link.isLoopback = false → src.ip.isLoopback = true →
        (admitsIngress src (.witnessed dst) delivery link iface).isAdmit = true →
          isMdnsGroup dst = true) := by
  refine ⟨?_, ?_, ?_, ?_, ?_⟩
  · intro h
    obtain ⟨provenance, harrived, harm⟩ := admits_witnessed src dst delivery link iface h
    refine ⟨provenance, harrived, ?_, ?_⟩
    · rintro index rfl rfl
      exact arrived_witnessed src link index harrived
    rcases witnessedArm_admits src dst delivery link iface provenance harrived harm with
      hgroup | ⟨_, hsrc, hheld | ⟨hempty, hclass⟩⟩
    · exact .inl hgroup
    · exact .inr (.inl ⟨hheld, hsrc⟩)
    · exact .inr (.inr ⟨hempty, hclass, hsrc⟩)
  · intro h
    have hadmit := congrArg IngressVerdict.isAdmit h
    obtain ⟨provenance, harrived, _⟩ := admits_witnessed src dst delivery link iface hadmit
    unfold admitsIngress at h
    rw [harrived] at h ⊢
    rcases witnessedArm_group src dst delivery link iface provenance h with rfl | rfl
    · exact .inl rfl
    · exact .inr rfl
  · intro hnobody hlist
    rw [Bool.eq_false_iff]
    intro h
    obtain ⟨provenance, harrived, harm⟩ := admits_witnessed src dst delivery link iface h
    rcases witnessedArm_admits src dst delivery link iface provenance harrived harm with
      hgroup | ⟨_, _, hheld | ⟨_, hclass⟩⟩
    · rw [hnobody.not_group dst] at hgroup
      cases hgroup
    · unfold Holds at hheld
      rw [hnobody.not_loopback dst, if_neg Bool.false_ne_true] at hheld
      obtain ⟨held, hmem, heq⟩ := hheld
      exact hlist held hmem heq
    · exact hnobody.named link dst hclass
  · intro hloop hlink
    rw [Bool.eq_false_iff]
    intro h
    obtain ⟨provenance, harrived, harm⟩ := admits_witnessed src dst delivery link iface h
    rcases witnessedArm_admits src dst delivery link iface provenance harrived harm with
      hgroup | ⟨_, _, hheld | ⟨_, hclass⟩⟩
    · rw [loopback_not_group dst hloop] at hgroup
      cases hgroup
    · unfold Holds at hheld
      rw [if_pos hloop, hlink] at hheld
      cases hheld
    · exact loopback_named link dst hloop hlink hclass
  · intro hlink hsrc h
    obtain ⟨provenance, harrived, harm⟩ := admits_witnessed src dst delivery link iface h
    rcases witnessedArm_admits src dst delivery link iface provenance harrived harm with
      hgroup | ⟨_, honlink, _⟩
    · exact hgroup
    · have hl := honlink.loopback src link provenance hsrc
      rw [hlink] at hl
      cases hl

def v4Addr (a b c d : Byte) : IpAddr := .v4 (.new a b c d)

/-- `::1`. -/
def localhostV6 : Ipv6Addr := ⟨List.replicate 15 0 ++ [1], rfl⟩

def loopbackLink : BoundLink := .new 1 true [(v4Addr 127 0 0 1, 8)]

def broadcastLister : BoundLink :=
  .new 2 false [(v4Addr 192 168 1 2, 24), (v4Addr 255 255 255 255, 32)]

/-- A loopback source needs no prefix on an endpoint bound to loopback, and a listed broadcast is
an address held. -/
theorem admitted_beyond_the_prefixes :
    ((admitsIngress (.v6 localhostV6 5353 0 0) (.witnessed (.v6 localhostV6)) none loopbackLink
        (.witnessed ⟨1, by decide⟩)).isAdmit = true ∧
      isMdnsGroup (.v6 localhostV6) = false ∧ loopbackLink.localAddrs ≠ [] ∧
      ¬InPrefix (.v6 linkLocalV6Net) linkLocalV6PrefixLen (.v6 localhostV6) ∧
      ∀ np ∈ loopbackLink.onlinkPrefixes, ¬InPrefix np.1 np.2 (.v6 localhostV6)) ∧
    ((admitsIngress (.v4 ⟨[192, 168, 1, 9], rfl⟩ 5353) (.witnessed (v4Addr 255 255 255 255)) none
        broadcastLister (.witnessed ⟨2, by decide⟩)).isAdmit = true ∧
      Nobodys (v4Addr 255 255 255 255)) := by
  refine ⟨⟨by decide +kernel, by decide, by decide, by decide +kernel, by decide +kernel⟩,
    by decide +kernel, ?_⟩
  exact .broadcast _ (by decide)

end Hick

/-!
## More evidence never shuts out what less let in

Two runs of the decision that differ in one piece of evidence.
-/

namespace Hick
open Octets

variable (src : SocketAddr) (link : BoundLink)

theorem arrived_declined :
    arrivedOnBoundInterface src link .declined = arrivedOnBoundInterface src link .blind := rfl

theorem declined_is_blind (destination : DestinationWitness)
    (delivery : Option LinkDelivery) (link : BoundLink) (iface : IfaceWitness) :
    admitsIngress src .declined delivery link iface =
        admitsIngress src .blind delivery link iface ∧
      admitsIngress src destination delivery link .declined =
        admitsIngress src destination delivery link .blind := by
  constructor
  · rfl
  · unfold admitsIngress
    rw [arrived_declined]
    cases arrivedOnBoundInterface src link .blind with
    | error refusal => rfl
    | ok provenance =>
      cases destination with
      | witnessed dst => rfl
      | lost => rfl
      | declined => rfl
      | blind => rfl

def DestinationWitness.unwitnessed (d : DestinationWitness) : Prop :=
  ∀ dst, d ≠ .witnessed dst

theorem sourceArm_isAdmit (iface : IfaceWitness)
    (provenance : LinkProvenance) (admitAs admitAs' : Admit) (refuse refuse' : Refuse) :
    (sourceArm src link iface provenance admitAs refuse).isAdmit =
      (sourceArm src link iface provenance admitAs' refuse').isAdmit := by
  unfold sourceArm
  cases srcOnLocalLink src link iface provenance <;> rfl

theorem group_of_blind (group : IpAddr) (hgroup : isMdnsGroup group = true)
    (delivery : Option LinkDelivery) (link : BoundLink) (iface : IfaceWitness)
    (provenance : LinkProvenance)
    (h : (blindArm src delivery link iface provenance).isAdmit = true) :
    (witnessedArm src group delivery link iface provenance).isAdmit = true := by
  unfold witnessedArm
  rw [if_pos hgroup]
  cases provenance with
  | established => rfl
  | unbound => rfl
  | unproven =>
    have hsource := sourceArm_isAdmit src link iface .unproven .blindSourceOnLink
      .unscopedMdnsGroup .sourceOffLink .unscopedGroupSourceOffLink
    cases delivery with
    | none =>
      change (sourceArm ..).isAdmit = true at h
      rw [hsource] at h
      exact h
    | some way =>
      cases way with
      | unicast =>
        change (sourceArm ..).isAdmit = true at h
        rw [hsource] at h
        exact h
      | multicast => rfl
      | broadcast => cases h

theorem group_of_unwitnessed (destination : DestinationWitness)
    (hnone : destination.unwitnessed) (group : IpAddr) (hgroup : isMdnsGroup group = true)
    (delivery : Option LinkDelivery) (link : BoundLink) (iface : IfaceWitness)
    (h : (admitsIngress src destination delivery link iface).isAdmit = true) :
    (admitsIngress src (.witnessed group) delivery link iface).isAdmit = true := by
  unfold admitsIngress at h ⊢
  cases harrived : arrivedOnBoundInterface src link iface with
  | error refusal =>
    rw [harrived] at h
    cases h
  | ok provenance =>
    rw [harrived] at h
    cases destination with
    | witnessed dst => exact absurd rfl (hnone dst)
    | lost => cases h
    | declined => exact group_of_blind src group hgroup delivery link iface provenance h
    | blind => exact group_of_blind src group hgroup delivery link iface provenance h

theorem arrived_bound (index : NonZeroU32)
    (hindex : index.get = link.iface) (iface : IfaceWitness) (provenance : LinkProvenance)
    (hnone : iface.witnessedIndex = none)
    (h : arrivedOnBoundInterface src link iface = .ok provenance) :
    arrivedOnBoundInterface src link (.witnessed index) = .ok .established ∧
      (provenance = .established ∨ provenance = .unproven) := by
  have hbound : link.iface ≠ 0 := by
    rw [← hindex]
    exact index.ne_zero
  unfold arrivedOnBoundInterface at h ⊢
  rw [if_neg hbound] at h ⊢
  rw [scan_two] at h ⊢
  rw [hnone] at h
  simp only [IfaceWitness.witnessedIndex, Option.any_none, Option.any_some, Option.isSome_none,
    Option.isSome_some, Bool.false_or, Bool.true_or, hindex, bne_self_eq_false] at h ⊢
  by_cases hforeign : ((NonZeroU32.new (scopeOf src)).any fun w => w.get != link.iface) = true
  · rw [if_pos hforeign] at h
    cases h
  · rw [if_neg hforeign] at h
    rw [if_neg hforeign]
    refine ⟨rfl, ?_⟩
    cases hscope : (NonZeroU32.new (scopeOf src)).isSome with
    | true =>
      rw [hscope] at h
      cases h
      exact .inl rfl
    | false =>
      rw [hscope] at h
      dsimp only at h
      split_ifs at h with hloop
      · cases h
        exact .inl rfl
      · cases iface with
        | witnessed i => cases hnone
        | lost => cases h
        | declined =>
          cases h
          exact .inr rfl
        | blind =>
          cases h
          exact .inr rfl

theorem OnLink.established (provenance : LinkProvenance)
    (h : OnLink src link provenance) : OnLink src link .established := by
  unfold OnLink at h ⊢
  split_ifs at h ⊢
  · exact h
  · rcases h with ⟨_, hin⟩ | hprefix
    · exact .inl ⟨rfl, hin⟩
    · exact .inr hprefix

theorem sourceArm_established (iface iface' : IfaceWitness)
    (provenance : LinkProvenance) (admitAs admitAs' : Admit) (refuse refuse' : Refuse)
    (harrived : arrivedOnBoundInterface src link iface = .ok provenance)
    (harrived' : arrivedOnBoundInterface src link iface' = .ok .established)
    (h : (sourceArm src link iface provenance admitAs refuse).isAdmit = true) :
    (sourceArm src link iface' .established admitAs' refuse').isAdmit = true := by
  rw [sourceArm_admits src link iface provenance _ _ harrived] at h
  rw [sourceArm_admits src link iface' .established _ _ harrived']
  exact h.established src link provenance

theorem witnessedArm_established (dst : IpAddr)
    (delivery : Option LinkDelivery) (link : BoundLink) (iface iface' : IfaceWitness)
    (provenance : LinkProvenance)
    (harrived : arrivedOnBoundInterface src link iface = .ok provenance)
    (harrived' : arrivedOnBoundInterface src link iface' = .ok .established)
    (h : (witnessedArm src dst delivery link iface provenance).isAdmit = true) :
    (witnessedArm src dst delivery link iface' .established).isAdmit = true := by
  unfold witnessedArm at h ⊢
  by_cases hgroup : isMdnsGroup dst = true
  · rw [if_pos hgroup]
    rfl
  · rw [if_neg hgroup] at h ⊢
    split_ifs at h ⊢ with hheld hempty
    · exact sourceArm_established src link iface iface' provenance _ _ _ _ harrived harrived' h
    · cases hclass : classifyUnheld dst link with
      | destinationNotHeld =>
        rw [hclass] at h
        exact sourceArm_established src link iface iface' provenance _ _ _ _ harrived harrived' h
      | _ =>
        rw [hclass] at h
        cases h
    · cases h

theorem blindArm_established (delivery : Option LinkDelivery)
    (link : BoundLink) (iface iface' : IfaceWitness) (provenance : LinkProvenance)
    (harrived : arrivedOnBoundInterface src link iface = .ok provenance)
    (harrived' : arrivedOnBoundInterface src link iface' = .ok .established)
    (h : (blindArm src delivery link iface provenance).isAdmit = true) :
    (blindArm src delivery link iface' .established).isAdmit = true := by
  unfold blindArm at h ⊢
  cases delivery with
  | none =>
    exact sourceArm_established src link iface iface' provenance _ _ _ _ harrived harrived' h
  | some way =>
    cases way with
    | unicast =>
      exact sourceArm_established src link iface iface' provenance _ _ _ _ harrived harrived' h
    | multicast => rfl
    | broadcast => cases h

theorem admits_bound_witness (destination : DestinationWitness)
    (delivery : Option LinkDelivery) (link : BoundLink) (iface : IfaceWitness)
    (hnone : iface.witnessedIndex = none) (index : NonZeroU32) (hindex : index.get = link.iface)
    (h : (admitsIngress src destination delivery link iface).isAdmit = true) :
    (admitsIngress src destination delivery link (.witnessed index)).isAdmit = true := by
  unfold admitsIngress at h ⊢
  cases harrived : arrivedOnBoundInterface src link iface with
  | error refusal =>
    rw [harrived] at h
    cases h
  | ok provenance =>
    obtain ⟨harrived', _⟩ := arrived_bound src link index hindex iface provenance hnone harrived
    rw [harrived] at h
    rw [harrived']
    cases destination with
    | witnessed dst =>
      exact witnessedArm_established src dst delivery link iface _ provenance harrived harrived' h
    | lost => cases h
    | declined =>
      exact blindArm_established src delivery link iface _ provenance harrived harrived' h
    | blind =>
      exact blindArm_established src delivery link iface _ provenance harrived harrived' h

/-- A declined witness decides as a blind one. What is let in with no destination witnessed is
let in with an mDNS group witnessed, and what is let in with no interface witnessed is let in
with the bound one witnessed. A witness of another link is refused as such, whatever else is
known. -/
theorem evidence_is_monotone (src : SocketAddr) (delivery : Option LinkDelivery)
    (link : BoundLink) :
    (∀ destination iface, admitsIngress src .declined delivery link iface =
          admitsIngress src .blind delivery link iface ∧
        admitsIngress src destination delivery link .declined =
          admitsIngress src destination delivery link .blind) ∧
      (∀ destination iface group, destination.unwitnessed → isMdnsGroup group = true →
        (admitsIngress src destination delivery link iface).isAdmit = true →
          (admitsIngress src (.witnessed group) delivery link iface).isAdmit = true) ∧
      (∀ destination iface index, iface.witnessedIndex = none → index.get = link.iface →
        (admitsIngress src destination delivery link iface).isAdmit = true →
          (admitsIngress src destination delivery link (.witnessed index)).isAdmit = true) ∧
      ∀ destination iface, NamesForeignLink src link iface →
        admitsIngress src destination delivery link iface = .refuse .foreignLink := by
  refine ⟨?_, ?_, ?_, ?_⟩
  · intro destination iface
    exact declined_is_blind src destination delivery link iface
  · intro destination iface group hnone hgroup h
    exact group_of_unwitnessed src destination hnone group hgroup delivery link iface h
  · intro destination iface index hnone hindex h
    exact admits_bound_witness src destination delivery link iface hnone index hindex h
  · intro destination iface hforeign
    unfold admitsIngress
    rw [arrived_foreign src link iface hforeign]

end Hick
