import Hick.Service.State

/-!
# The wire gate of a producer (hick-mio driver/sends.rs:270-353, socket.rs:1757-1925)

The driver offers each datagram to its sockets, one family after the other.
-/

namespace Hick
open Octets

structure FamilyWireGate (I : Type) where
  lastSent : PerFamily (Option I)

/-- What one socket does with a datagram. A socket that is asked has three readings of the clock:
at the offer, before the call that carried the datagram, and after it. -/
inductive SocketFate (I : Type) where
  | unbound
  | takes (offeredAt submittedAt wireAt : I)
  | refuses (offeredAt : I) (tooLarge : Bool)

inductive SendOutcome (I : Type) where
  | sent (submittedAt wireAt : I)
  | gated
  | failed
  | tooLarge
  | noSocket
  deriving DecidableEq

namespace PerFamily
variable {α : Type}

def put (p : PerFamily α) (f : Family) (a : α) : PerFamily α :=
  match f with
  | .v4 => { p with v4 := a }
  | .v6 => { p with v6 := a }

theorem pick_put (p : PerFamily α) (f g : Family) (a : α) :
    g.pick (p.put f a) = if g = f then a else g.pick p := by
  cases f <;> cases g <;> rfl

end PerFamily

section
variable {I : Type} [Instant I]

def SocketFate.askedAt : SocketFate I → Option I
  | .unbound => none
  | .takes offeredAt _ _ => some offeredAt
  | .refuses offeredAt _ => some offeredAt

namespace SendOutcome

def wireTime : SendOutcome I → Option I
  | .sent _ wireAt => some wireAt
  | _ => none

def attempt : SendOutcome I → FamilyAttempt I
  | .sent submittedAt _ => .accepted submittedAt
  | .gated => .gateShut
  | .failed => .refused false
  | .tooLarge => .refused true
  | .noSocket => .noSocket

end SendOutcome

namespace FamilyWireGate

def new : FamilyWireGate I := ⟨.both none⟩

def open_ (gate : FamilyWireGate I) (f : Family) (now : I) (minGap : Duration) : Bool :=
  if minGap = 0 then true
  else
    match f.pick gate.lastSent with
    | some last => (checkedDurationSince now last).any fun gap => decide (minGap ≤ gap)
    | none => true

def record (gate : FamilyWireGate I) (f : Family) (at_ : I) (minGap : Duration) :
    FamilyWireGate I :=
  if minGap = 0 then gate else ⟨gate.lastSent.put f (some at_)⟩

def noteOne (gate : FamilyWireGate I) (minGap : Duration) (f : Family) (outcome : SendOutcome I) :
    FamilyWireGate I :=
  match outcome.wireTime with
  | some at_ => gate.record f at_ minGap
  | none => gate

def note (gate : FamilyWireGate I) (report : PerFamily (SendOutcome I)) (minGap : Duration) :
    FamilyWireGate I :=
  (gate.noteOne minGap .v4 report.v4).noteOne minGap .v6 report.v6

def sendOne (gate : FamilyWireGate I) (minGap : Duration) (f : Family) :
    SocketFate I → SendOutcome I
  | .unbound => .noSocket
  | .takes offeredAt submittedAt wireAt =>
    if gate.open_ f offeredAt minGap then .sent submittedAt wireAt else .gated
  | .refuses offeredAt tooLarge =>
    if gate.open_ f offeredAt minGap then if tooLarge then .tooLarge else .failed else .gated

/-- `Sockets::send_to`: a datagram to the group goes to every family, another to the family of
its destination. -/
def sendTo (gate : FamilyWireGate I) (transmit : Transmit) (fates : PerFamily (SocketFate I)) :
    PerFamily (SendOutcome I) :=
  if transmit.dst = multicastDst then
    ⟨gate.sendOne transmit.minFamilyGap .v4 fates.v4, gate.sendOne transmit.minFamilyGap .v6 fates.v6⟩
  else
    match Family.of transmit.dst with
    | .v4 => ⟨gate.sendOne transmit.minFamilyGap .v4 fates.v4, .noSocket⟩
    | .v6 => ⟨.noSocket, gate.sendOne transmit.minFamilyGap .v6 fates.v6⟩

theorem open_iff [MeasuredInstant I] (gate : FamilyWireGate I) (f : Family) (now : I)
    (minGap : Duration) : gate.open_ f now minGap = true ↔
      minGap = 0 ∨ ∀ last, f.pick gate.lastSent = some last → Elapsed last minGap now := by
  rw [open_]
  by_cases hzero : minGap = 0
  · rw [if_pos hzero]
    exact iff_of_true rfl (Or.inl hzero)
  · rw [if_neg hzero, or_iff_right hzero]
    cases hlast : f.pick gate.lastSent with
    | none => exact iff_of_true rfl nofun
    | some last =>
      simp only [Option.any_eq_true, decide_eq_true_eq, Option.some.injEq, forall_eq']
      exact (elapsed_iff_since last now minGap).symm

theorem sendOne_gated_iff (gate : FamilyWireGate I) (minGap : Duration) (f : Family)
    (fate : SocketFate I) : gate.sendOne minGap f fate = .gated ↔
      ∃ t, fate.askedAt = some t ∧ gate.open_ f t minGap = false := by
  cases fate with
  | unbound => simp [sendOne, SocketFate.askedAt]
  | takes offeredAt submittedAt wireAt =>
    rw [sendOne]
    cases hopen : gate.open_ f offeredAt minGap <;> simp [SocketFate.askedAt, hopen]
  | refuses offeredAt tooLarge =>
    rw [sendOne]
    cases hopen : gate.open_ f offeredAt minGap <;> cases tooLarge <;>
      simp [SocketFate.askedAt, hopen]

omit [Instant I] in
theorem noteOne_lastSent (gate : FamilyWireGate I) (minGap : Duration) (f g : Family)
    (outcome : SendOutcome I) : g.pick (gate.noteOne minGap f outcome).lastSent =
      if g = f ∧ minGap ≠ 0 then outcome.wireTime.or (g.pick gate.lastSent)
      else g.pick gate.lastSent := by
  rw [noteOne]
  cases hwire : outcome.wireTime with
  | none => simp
  | some at_ =>
    simp only [record]
    by_cases hzero : minGap = 0
    · simp [hzero]
    · simp only [hzero, if_false, ne_eq, not_false_eq_true, and_true, PerFamily.pick_put]
      rfl

omit [Instant I] in
theorem note_lastSent (gate : FamilyWireGate I) (report : PerFamily (SendOutcome I))
    (minGap : Duration) (f : Family) : f.pick (gate.note report minGap).lastSent =
      if minGap = 0 then f.pick gate.lastSent
      else (f.pick report).wireTime.or (f.pick gate.lastSent) := by
  rw [note, noteOne_lastSent, noteOne_lastSent]
  by_cases hzero : minGap = 0
  · simp [hzero]
  · cases f <;> simp [hzero, Family.pick]

end FamilyWireGate
end
end Hick
