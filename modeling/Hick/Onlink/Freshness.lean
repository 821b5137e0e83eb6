import Hick.Driver.Flush
import Hick.Onlink.Ingress

/-!
# The interface as it is (hick-udp/src/onlink.rs:100-200, hick-reactor/src/driver/mod.rs:608-637)

The link gate of the drivers compares with a snapshot of the bound interface, which it reads again
once it is a second old.
-/

namespace Hick
open Runs

/-- What `getifs` tells of an interface; a family that could not be read is `none`. -/
structure ReadInterface where
  ipv4Addrs : Option (List (Ipv4Addr × UInt8))
  ipv6Addrs : Option (List (Ipv6Addr × UInt8))

/-- `getifs::interface_by_index`: a failed read, no such interface, or the interface. -/
abbrev InterfaceTable := UInt32 → Except Unit (Option ReadInterface)

def collectLocalSubnets (table : InterfaceTable) (ifaceIndex : UInt32) : List (IpAddr × UInt8) :=
  if ifaceIndex = 0 then []
  else
    match table ifaceIndex with
    | .ok (some iface) =>
      ((iface.ipv4Addrs.getD []).map fun n => (.v4 n.1, n.2)) ++
        (iface.ipv6Addrs.getD []).map fun n => (.v6 n.1, n.2)
    | .ok none | .error () => []

def subnetRefreshInterval : Duration := Duration.fromSecs 1

structure LinkGate (I : Type) where
  boundInterface : UInt32
  boundIsLoopback : Bool
  localSubnets : List (IpAddr × UInt8)
  subnetsRefreshedAt : I

/-- A datagram, with what the clock and the host's interfaces are when it is weighed. -/
structure GateInput (I : Type) where
  now : I
  table : InterfaceTable
  src : SocketAddr
  destination : DestinationWitness
  delivery : Option LinkDelivery
  iface : IfaceWitness

namespace LinkGate
variable {I : Type} [Instant I]

def refreshSubnetsIfStale (g : LinkGate I) (a : GateInput I) : LinkGate I × Bool :=
  if saturatingDurationSince a.now g.subnetsRefreshedAt < subnetRefreshInterval then (g, false)
  else ({ g with
    localSubnets := collectLocalSubnets a.table g.boundInterface
    subnetsRefreshedAt := a.now }, true)

def against (g : LinkGate I) (subnets : List (IpAddr × UInt8)) (a : GateInput I) : IngressVerdict :=
  admitsIngress a.src a.destination a.delivery (.new g.boundInterface g.boundIsLoopback subnets)
    a.iface

def verdict (g : LinkGate I) (a : GateInput I) : IngressVerdict :=
  (g.refreshSubnetsIfStale a).1.against (g.refreshSubnetsIfStale a).1.localSubnets a

end LinkGate

/-- A gate, with what the bound interface was at its opening and at every arrival, and with the
instants it was read at, the last one first. -/
structure WatchedGate (I : Type) where
  gate : LinkGate I
  held : List (I × List (IpAddr × UInt8))
  reads : List I

namespace WatchedGate
variable {I : Type} [Instant I]

def opened (iface : UInt32) (loopback : Bool) (now : I) (table : InterfaceTable) : WatchedGate I :=
  ⟨⟨iface, loopback, collectLocalSubnets table iface, now⟩,
    [(now, collectLocalSubnets table iface)], [now]⟩

def next (w : WatchedGate I) (a : GateInput I) : WatchedGate I where
  gate := (w.gate.refreshSubnetsIfStale a).1
  held := (a.now, collectLocalSubnets a.table w.gate.boundInterface) :: w.held
  reads := if (w.gate.refreshSubnetsIfStale a).2 then a.now :: w.reads else w.reads

def machine (iface : UInt32) (loopback : Bool) : Machine (WatchedGate I) (GateInput I) where
  start w := ∃ now table, w = opened iface loopback now table
  admits _ _ := True
  next := next

/-- The snapshot is one of what the interface was, of the instant of the last read. -/
structure Fresh (iface : UInt32) (w : WatchedGate I) : Prop where
  bound : w.gate.boundInterface = iface
  snapshot : (w.gate.subnetsRefreshedAt, w.gate.localSubnets) ∈ w.held
  last : w.reads.head? = some w.gate.subnetsRefreshedAt
  apart : w.reads.Pairwise fun later earlier => Elapsed earlier subnetRefreshInterval later

section
variable [MeasuredInstant I]

theorem stale_iff (now refreshedAt : I) :
    ¬saturatingDurationSince now refreshedAt < subnetRefreshInterval ↔
      Elapsed refreshedAt subnetRefreshInterval now := by
  have hpos : 0 < subnetRefreshInterval := by decide
  rw [elapsed_iff_since, not_lt]
  unfold saturatingDurationSince
  cases checkedDurationSince now refreshedAt with
  | none =>
    refine iff_of_false (not_le.mpr hpos) ?_
    rintro ⟨g, hg, -⟩
    cases hg
  | some g =>
    constructor
    · intro h
      exact ⟨g, rfl, h⟩
    · rintro ⟨_, ⟨⟩, h⟩
      exact h

theorem Fresh.next (iface : UInt32) (w : WatchedGate I) (a : GateInput I) (h : w.Fresh iface) :
    (w.next a).Fresh iface ∧
      ¬Elapsed (w.next a).gate.subnetsRefreshedAt subnetRefreshInterval a.now := by
  have hpos : 0 < subnetRefreshInterval := by decide
  by_cases hstale : saturatingDurationSince a.now w.gate.subnetsRefreshedAt < subnetRefreshInterval
  · have hsame : w.gate.refreshSubnetsIfStale a = (w.gate, false) := if_pos hstale
    unfold WatchedGate.next
    rw [hsame]
    refine ⟨⟨h.bound, List.mem_cons_of_mem _ h.snapshot, h.last, h.apart⟩, fun helapsed => ?_⟩
    exact (stale_iff a.now _).mpr helapsed hstale
  · have hread : w.gate.refreshSubnetsIfStale a = ({ w.gate with
        localSubnets := collectLocalSubnets a.table w.gate.boundInterface
        subnetsRefreshedAt := a.now }, true) := if_neg hstale
    have helapsed := (stale_iff a.now _).mp hstale
    unfold WatchedGate.next
    rw [hread]
    refine ⟨⟨h.bound, List.mem_cons_self, rfl, ?_⟩, fun hself => ?_⟩
    · obtain ⟨rest, hreads⟩ : ∃ rest, w.reads = w.gate.subnetsRefreshedAt :: rest := by
        have hlast := h.last
        cases hw : w.reads with
        | nil =>
          rw [hw] at hlast
          cases hlast
        | cons r rest =>
          rw [hw] at hlast
          exact ⟨rest, by rw [Option.some.inj hlast]⟩
      have hapart := h.apart
      rw [hreads] at hapart
      refine List.pairwise_cons.mpr ⟨fun r hr => ?_, h.apart⟩
      rw [hreads] at hr
      rcases List.mem_cons.mp hr with rfl | hr
      · exact helapsed
      · obtain ⟨u, hu, hle⟩ := helapsed
        exact ((List.pairwise_cons.mp hapart).1 r hr).mono _ _ _ _
          (le_trans (LawfulInstant.le_add _ _ _ hu) hle)
    · rw [← stale_iff] at hself
      apply hself
      unfold saturatingDurationSince
      obtain ⟨g, hg, hadd⟩ := MeasuredInstant.since_of_le a.now a.now (le_refl a.now)
      rw [hg, Option.getD_some, MeasuredInstant.add_inj _ _ g 0 hadd (add_zero_self a.now)]
      exact hpos

end

end WatchedGate
end Hick
