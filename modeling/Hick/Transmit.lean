import Mathlib
import Hick.Records
import Hick.Time

/-!
# Datagrams out and what became of them (transmit.rs)

A datagram is offered to both address families; the driver reports one `FamilyAttempt` for
each, and `project` reduces the pair to what a state machine counts.
-/

namespace Hick
open Octets

inductive IpAddr where
  | v4 (addr : Ipv4Addr)
  | v6 (addr : Ipv6Addr)
  deriving DecidableEq

inductive SocketAddr where
  | v4 (ip : Ipv4Addr) (port : UInt16)
  | v6 (ip : Ipv6Addr) (port : UInt16) (flowinfo scopeId : UInt32)
  deriving DecidableEq

namespace SocketAddr

def ip : SocketAddr → IpAddr
  | v4 ip _ => .v4 ip
  | v6 ip _ _ _ => .v6 ip

def port : SocketAddr → UInt16
  | v4 _ port => port
  | v6 _ port _ _ => port

end SocketAddr

def mdnsPort : UInt16 := 5353

def mdnsIpv4Group : Ipv4Addr := ⟨[224, 0, 0, 251], rfl⟩

def multicastDst : SocketAddr := .v4 mdnsIpv4Group mdnsPort

inductive TransmitObligation where
  | sustained
  | oneShot
  deriving DecidableEq, Repr

structure Transmit where
  dst : SocketAddr
  srcIp : Option IpAddr
  size : Nat
  obligation : TransmitObligation
  minFamilyGap : Duration
  deriving DecidableEq

/-! ### Address families (transmit.rs:640-682) -/

inductive Family where
  | v4
  | v6
  deriving DecidableEq, Repr

structure PerFamily (α : Type) where
  v4 : α
  v6 : α
  deriving DecidableEq, Repr

namespace PerFamily
variable {α β γ : Type}

def both (a : α) : PerFamily α := ⟨a, a⟩

def map (f : α → β) (p : PerFamily α) : PerFamily β := ⟨f p.v4, f p.v6⟩

def zipWith (f : α → β → γ) (p : PerFamily α) (q : PerFamily β) : PerFamily γ :=
  ⟨f p.v4 q.v4, f p.v6 q.v6⟩

end PerFamily

namespace Family

def of : SocketAddr → Family
  | .v4 .. => v4
  | .v6 .. => v6

def pick {α : Type} (f : Family) (pair : PerFamily α) : α :=
  match f with
  | v4 => pair.v4
  | v6 => pair.v6

@[simp] theorem pick_map {α β : Type} (f : Family) (g : α → β) (p : PerFamily α) :
    f.pick (p.map g) = g (f.pick p) := by cases f <;> rfl

@[simp] theorem pick_both {α : Type} (f : Family) (a : α) : f.pick (.both a) = a := by
  cases f <;> rfl

@[simp] theorem pick_zipWith {α β γ : Type} (f : Family) (g : α → β → γ) (p : PerFamily α)
    (q : PerFamily β) : f.pick (p.zipWith g q) = g (f.pick p) (f.pick q) := by cases f <;> rfl

end Family

/-! ### Delivery (transmit.rs:271-510, 602-892) -/

inductive FamilyDelivery where
  | unobligated
  | delivered
  | missed
  deriving DecidableEq, Repr

inductive FamilyAttempt (I : Type) where
  | accepted (at_ : I)
  | refused (permanent : Bool)
  | gateShut
  | noSocket
  | notAddressed
  | wouldBlock
  deriving DecidableEq

structure TransmitDelivery where
  families : PerFamily FamilyDelivery
  deriving DecidableEq

namespace TransmitDelivery

def anyDelivered (d : TransmitDelivery) : Bool :=
  d.families.v4 == .delivered || d.families.v6 == .delivered

def anyMissed (d : TransmitDelivery) : Bool :=
  d.families.v4 == .missed || d.families.v6 == .missed

def deliveredOn (d : TransmitDelivery) : PerFamily Bool := d.families.map (· == .delivered)

theorem anyDelivered_iff (d : TransmitDelivery) :
    d.anyDelivered = true ↔ ∃ f : Family, f.pick d.deliveredOn = true := by
  simp only [anyDelivered, Bool.or_eq_true, deliveredOn, Family.pick_map]
  constructor
  · rintro (h | h)
    · exact ⟨.v4, h⟩
    · exact ⟨.v6, h⟩
  · rintro ⟨f, h⟩
    cases f with
    | v4 => exact .inl h
    | v6 => exact .inr h

end TransmitDelivery

namespace FamilyAttempt
variable {I : Type}

def delivery : FamilyAttempt I → FamilyDelivery
  | accepted _ => .delivered
  | refused _ | gateShut | wouldBlock => .missed
  | noSocket | notAddressed => .unobligated

def acceptedAt : FamilyAttempt I → Option I
  | accepted at_ => some at_
  | _ => none

def project (v4 v6 : FamilyAttempt I) : TransmitDelivery := ⟨⟨v4.delivery, v6.delivery⟩⟩

/-- The instant the phase is timed from: the earlier acceptance, or the confirm itself. -/
def anchor [Instant I] (v4 v6 : FamilyAttempt I) (fallback : I) : I :=
  match v4.acceptedAt, v6.acceptedAt with
  | some a, some b => if a ≤ b then a else b
  | some a, none => a
  | none, some a => a
  | none, none => fallback

def undeliverable (v4 v6 : FamilyAttempt I) : Bool :=
  let passes : FamilyAttempt I → Bool
    | refused true | noSocket | notAddressed => true
    | _ => false
  let permanent : FamilyAttempt I → Bool
    | refused true => true
    | _ => false
  passes v4 && passes v6 && (permanent v4 || permanent v6)

def Within [Instant I] (a : FamilyAttempt I) (lo hi : I) : Prop :=
  ∀ t, a.acceptedAt = some t → lo ≤ t ∧ t ≤ hi

instance [Instant I] (a : FamilyAttempt I) (lo hi : I) : Decidable (a.Within lo hi) :=
  match h : a.acceptedAt with
  | some t => decidable_of_iff (lo ≤ t ∧ t ≤ hi)
      ⟨fun ht u hu => by rw [h] at hu; cases hu; exact ht, fun hw => hw t h⟩
  | none => isTrue fun u hu => by rw [h] at hu; cases hu

theorem anchor_mem [Instant I] (v4 v6 : FamilyAttempt I) (fallback : I) :
    v4.acceptedAt = some (anchor v4 v6 fallback) ∨ v6.acceptedAt = some (anchor v4 v6 fallback) ∨
      anchor v4 v6 fallback = fallback := by
  unfold anchor
  cases h4 : v4.acceptedAt with
  | none =>
    cases h6 : v6.acceptedAt with
    | none => exact .inr (.inr rfl)
    | some b => exact .inr (.inl rfl)
  | some a =>
    cases h6 : v6.acceptedAt with
    | none => exact .inl rfl
    | some b =>
      by_cases hab : a ≤ b
      · simp only [hab, if_true, true_or]
      · simp only [hab, if_false, true_or, or_true]

end FamilyAttempt

structure TransmitConfirm where
  anyDelivered : Bool
  retireProducer : Bool
  deriving DecidableEq, Repr

def TransmitConfirm.nothing : TransmitConfirm := ⟨false, false⟩

end Hick
