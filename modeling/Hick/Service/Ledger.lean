import Mathlib
import Hick.Service.Respond

/-!
# What a service has put on the wire (service/mod.rs:551-872)

A confirmed datagram is credited to the families that delivered it. `all` keeps every
credit, `multicast` those of datagrams sent to the group.
-/

namespace Hick
open Octets Respond

/-- What a goodbye can name. The subtype pointers of a service are one kind; each address is
its own. -/
inductive RecordKind where
  | ptr
  | subtype
  | srv
  | txt
  | nsec
  | a (addr : Ipv4Addr)
  | aaaa (addr : Ipv6Addr)
  deriving DecidableEq

def RecordKind.isInstance : RecordKind → Bool
  | ptr | subtype | srv | txt | nsec => true
  | a _ | aaaa _ => false

def Respond.EmittedRecords.names (e : EmittedRecords) : RecordKind → Bool
  | .ptr => e.ptr
  | .subtype => e.subtypes
  | .srv => e.srv
  | .txt => e.txt
  | .nsec => e.nsec
  | .a addr => addr ∈ e.a
  | .aaaa addr => addr ∈ e.aaaa

def anyFamily (mask : PerFamily Bool) : Bool := mask.v4 || mask.v6

def orOn (mask : PerFamily Bool) (emitted : Bool) (on : PerFamily Bool) : PerFamily Bool :=
  if emitted then mask.zipWith (· || ·) on else mask

theorem pick_orOn (mask on : PerFamily Bool) (emitted : Bool) (f : Family) :
    f.pick (orOn mask emitted on) = (f.pick mask || (emitted && f.pick on)) := by
  unfold orOn
  cases emitted <;> simp

theorem anyFamily_iff (mask : PerFamily Bool) :
    anyFamily mask = true ↔ ∃ f : Family, f.pick mask = true := by
  unfold anyFamily
  rw [Bool.or_eq_true]
  constructor
  · rintro (h | h)
    · exact ⟨.v4, h⟩
    · exact ⟨.v6, h⟩
  · rintro ⟨f, h⟩
    cases f with
    | v4 => exact .inl h
    | v6 => exact .inr h

def latchAddr {α : Type} [DecidableEq α] (ip : α) (on : PerFamily Bool) :
    List (α × PerFamily Bool) → List (α × PerFamily Bool)
  | [] => [(ip, on)]
  | (x, mask) :: rest =>
    if x = ip then (x, orOn mask true on) :: rest else (x, mask) :: latchAddr ip on rest

def familyAddrs {α : Type} (addrs : List (α × PerFamily Bool)) (family : Family) : List α :=
  (addrs.filter fun entry => family.pick entry.2).map Prod.fst

theorem mem_familyAddrs {α : Type} (addrs : List (α × PerFamily Bool)) (f : Family) (ip : α) :
    ip ∈ familyAddrs addrs f ↔ ∃ mask, (ip, mask) ∈ addrs ∧ f.pick mask = true := by
  simp [familyAddrs]

theorem mem_familyAddrs_latchAddr {α : Type} [DecidableEq α] (ip : α) (on : PerFamily Bool)
    (addrs : List (α × PerFamily Bool)) (f : Family) (x : α) :
    x ∈ familyAddrs (latchAddr ip on addrs) f ↔
      x ∈ familyAddrs addrs f ∨ (x = ip ∧ f.pick on = true) := by
  induction addrs with
  | nil => simp [latchAddr, mem_familyAddrs, and_comm]
  | cons entry rest ih =>
    obtain ⟨y, mask⟩ := entry
    have hcons : ∀ (m : PerFamily Bool) (l : List (α × PerFamily Bool)),
        x ∈ familyAddrs ((y, m) :: l) f ↔ (x = y ∧ f.pick m = true) ∨ x ∈ familyAddrs l f := by
      intro m l
      simp only [mem_familyAddrs, List.mem_cons, Prod.mk.injEq]
      constructor
      · rintro ⟨m', ⟨rfl, rfl⟩ | h, hf⟩
        · exact .inl ⟨rfl, hf⟩
        · exact .inr ⟨m', h, hf⟩
      · rintro (⟨rfl, hf⟩ | ⟨m', h, hf⟩)
        · exact ⟨m, .inl ⟨rfl, rfl⟩, hf⟩
        · exact ⟨m', .inr h, hf⟩
    unfold latchAddr
    by_cases hy : y = ip
    · rw [if_pos hy, hcons, hcons, pick_orOn, hy, Bool.true_and, Bool.or_eq_true]
      tauto
    · rw [if_neg hy, hcons, hcons, ih]
      tauto

def latchAddrs {α : Type} [DecidableEq α] (on : PerFamily Bool)
    (addrs : List (α × PerFamily Bool)) (ips : List α) : List (α × PerFamily Bool) :=
  ips.foldl (fun addrs ip => latchAddr ip on addrs) addrs

theorem mem_familyAddrs_latchAddrs {α : Type} [DecidableEq α] (on : PerFamily Bool)
    (addrs : List (α × PerFamily Bool)) (ips : List α) (f : Family) (x : α) :
    x ∈ familyAddrs (latchAddrs on addrs ips) f ↔
      x ∈ familyAddrs addrs f ∨ (x ∈ ips ∧ f.pick on = true) := by
  unfold latchAddrs
  induction ips generalizing addrs with
  | nil => simp
  | cons ip ips ih =>
    rw [List.foldl_cons, ih, mem_familyAddrs_latchAddr, List.mem_cons]
    tauto

structure RecordExposure where
  ptr : PerFamily Bool
  srv : PerFamily Bool
  txt : PerFamily Bool
  subtypes : PerFamily Bool
  a : List (Ipv4Addr × PerFamily Bool)
  aaaa : List (Ipv6Addr × PerFamily Bool)
  nsec : PerFamily Bool
  deriving DecidableEq

namespace RecordExposure

def default : RecordExposure :=
  ⟨.both false, .both false, .both false, .both false, [], [], .both false⟩

def recordHostEmitted (x : RecordExposure) (e : EmittedRecords) (on : PerFamily Bool) :
    RecordExposure :=
  if !anyFamily on then x
  else
    { x with
      a := latchAddrs on x.a e.a
      aaaa := latchAddrs on x.aaaa e.aaaa }

def recordEmitted (x : RecordExposure) (e : EmittedRecords) (on : PerFamily Bool) :
    RecordExposure :=
  recordHostEmitted
    { x with
      ptr := orOn x.ptr e.ptr on
      srv := orOn x.srv e.srv on
      txt := orOn x.txt e.txt on
      subtypes := orOn x.subtypes e.subtypes on
      nsec := orOn x.nsec e.nsec on } e on

def resetInstance (x : RecordExposure) : RecordExposure :=
  { x with
    ptr := .both false
    srv := .both false
    txt := .both false
    subtypes := .both false
    nsec := .both false }

def anyInstance (x : RecordExposure) : Bool :=
  anyFamily x.ptr || anyFamily x.srv || anyFamily x.txt || anyFamily x.subtypes

def project (x : RecordExposure) (family : Family) : EmittedRecords where
  ptr := family.pick x.ptr
  srv := family.pick x.srv
  txt := family.pick x.txt
  a := familyAddrs x.a family
  aaaa := familyAddrs x.aaaa family
  subtypes := family.pick x.subtypes
  nsec := family.pick x.nsec

def perFamily (x : RecordExposure) : PerFamily EmittedRecords := ⟨x.project .v4, x.project .v6⟩

def has (x : RecordExposure) (k : RecordKind) (f : Family) : Bool := (x.project f).names k

@[simp] theorem default_has (k : RecordKind) (f : Family) : default.has k f = false := by
  cases k <;> cases f <;> rfl

theorem has_a (x : RecordExposure) (addr : Ipv4Addr) (f : Family) :
    x.has (.a addr) f = true ↔ addr ∈ familyAddrs x.a f := decide_eq_true_iff

theorem has_aaaa (x : RecordExposure) (addr : Ipv6Addr) (f : Family) :
    x.has (.aaaa addr) f = true ↔ addr ∈ familyAddrs x.aaaa f := decide_eq_true_iff

theorem has_recordHostEmitted (x : RecordExposure) (e : EmittedRecords) (on : PerFamily Bool)
    (k : RecordKind) (f : Family) :
    (x.recordHostEmitted e on).has k f = true ↔
      x.has k f = true ∨ (k.isInstance = false ∧ e.names k = true ∧ f.pick on = true) := by
  unfold recordHostEmitted
  by_cases hon : anyFamily on = true
  · rw [hon, Bool.not_true, if_neg Bool.false_ne_true]
    cases k with
    | a addr =>
      rw [has_a, has_a, mem_familyAddrs_latchAddrs]
      simp [EmittedRecords.names, RecordKind.isInstance]
    | aaaa addr =>
      rw [has_aaaa, has_aaaa, mem_familyAddrs_latchAddrs]
      simp [EmittedRecords.names, RecordKind.isInstance]
    | _ => simp [has, project, EmittedRecords.names, RecordKind.isInstance]
  · have hnone : f.pick on ≠ true := fun hf => hon ((anyFamily_iff on).mpr ⟨f, hf⟩)
    rw [Bool.eq_false_iff.mpr hon]
    simp [hnone]

theorem has_recordEmitted (x : RecordExposure) (e : EmittedRecords) (on : PerFamily Bool)
    (k : RecordKind) (f : Family) :
    (x.recordEmitted e on).has k f = true ↔
      x.has k f = true ∨ (e.names k = true ∧ f.pick on = true) := by
  unfold recordEmitted
  rw [has_recordHostEmitted]
  cases k with
  | a addr => simp [has_a, RecordKind.isInstance]
  | aaaa addr => simp [has_aaaa, RecordKind.isInstance]
  | _ => simp [has, project, EmittedRecords.names, RecordKind.isInstance, pick_orOn]

theorem has_resetInstance (x : RecordExposure) (k : RecordKind) (f : Family) :
    x.resetInstance.has k f = true ↔ k.isInstance = false ∧ x.has k f = true := by
  cases k with
  | a addr => simp [has_a, resetInstance, RecordKind.isInstance]
  | aaaa addr => simp [has_aaaa, resetInstance, RecordKind.isInstance]
  | _ =>
    cases f <;>
      simp [has, project, resetInstance, EmittedRecords.names, RecordKind.isInstance,
        PerFamily.both, Family.pick]

end RecordExposure

inductive SendClass where
  | multicast
  | unicast
  deriving DecidableEq, Repr

structure GoodbyeOwnership where
  all : RecordExposure
  multicast : RecordExposure
  deriving DecidableEq

namespace GoodbyeOwnership

def default : GoodbyeOwnership := ⟨.default, .default⟩

def recordEmitted (g : GoodbyeOwnership) (e : EmittedRecords) (on : PerFamily Bool)
    (cls : SendClass) : GoodbyeOwnership where
  all := g.all.recordEmitted e on
  multicast := if cls = .multicast then g.multicast.recordEmitted e on else g.multicast

def recordHostEmitted (g : GoodbyeOwnership) (e : EmittedRecords) (on : PerFamily Bool)
    (cls : SendClass) : GoodbyeOwnership where
  all := g.all.recordHostEmitted e on
  multicast := if cls = .multicast then g.multicast.recordHostEmitted e on else g.multicast

def resetInstance (g : GoodbyeOwnership) : GoodbyeOwnership :=
  ⟨g.all.resetInstance, g.multicast.resetInstance⟩

def anyInstance (g : GoodbyeOwnership) : Bool := g.all.anyInstance

def perFamily (g : GoodbyeOwnership) : PerFamily EmittedRecords := g.all.perFamily

def perFamilyMulticast (g : GoodbyeOwnership) : PerFamily EmittedRecords := g.multicast.perFamily

def side (g : GoodbyeOwnership) (onlyMulticast : Bool) : RecordExposure :=
  if onlyMulticast then g.multicast else g.all

def SendClass.counts (cls : SendClass) (onlyMulticast : Bool) : Bool :=
  !onlyMulticast || cls == .multicast

theorem has_recordEmitted (g : GoodbyeOwnership) (e : EmittedRecords) (on : PerFamily Bool)
    (cls : SendClass) (m : Bool) (k : RecordKind) (f : Family) :
    ((g.recordEmitted e on cls).side m).has k f = true ↔ (g.side m).has k f = true ∨
      (SendClass.counts cls m = true ∧ e.names k = true ∧ f.pick on = true) := by
  cases m <;> cases cls <;>
    simp [side, SendClass.counts, recordEmitted, RecordExposure.has_recordEmitted]

theorem has_resetInstance (g : GoodbyeOwnership) (m : Bool) (k : RecordKind) (f : Family) :
    ((g.resetInstance).side m).has k f = true ↔
      k.isInstance = false ∧ (g.side m).has k f = true := by
  cases m <;> simp [side, resetInstance, RecordExposure.has_resetInstance]

end GoodbyeOwnership

def perFamilyInstance (instance_ : EmittedRecords) (on : PerFamily Bool) :
    PerFamily EmittedRecords :=
  on.map fun carried => if carried then instance_ else EmittedRecords.default

end Hick
