import Hick.Service.Flight
import Hick.WireGate.Gate

/-!
# A service sent through its wire gate (hick-mio driver.rs:1123-1230, driver/sends.rs:475-580)

The driver polls the service, offers the datagram to its sockets through the gate, and confirms it
before anything else is done with the service.
-/

namespace Hick
open Octets Wire Respond Runs

structure GatedService (I R : Type) (EV : Type → Type) where
  session : Session I R EV
  gate : FamilyWireGate I

inductive GatedCall (I : Type) where
  | served (call : Call I)
  | offer (flood : ConflictFlood I) (buf : Bytes) (fates : PerFamily (SocketFate I))
    (settledAt : I)

structure GatedStep (I : Type) where
  now : I
  call : GatedCall I

/-- The readings a socket is sent with follow one another between `start` and `stop`. -/
def SocketFate.Within {I : Type} [Instant I] (start stop : I) : SocketFate I → Prop
  | .unbound => True
  | .takes offeredAt submittedAt wireAt =>
    start ≤ offeredAt ∧ offeredAt ≤ submittedAt ∧ submittedAt ≤ wireAt ∧ wireAt ≤ stop
  | .refuses offeredAt _ => start ≤ offeredAt ∧ offeredAt ≤ stop

instance {I : Type} [Instant I] (start stop : I) : (fate : SocketFate I) →
    Decidable (fate.Within start stop)
  | .unbound => isTrue trivial
  | .takes offeredAt submittedAt wireAt => inferInstanceAs (Decidable
    (start ≤ offeredAt ∧ offeredAt ≤ submittedAt ∧ submittedAt ≤ wireAt ∧ wireAt ≤ stop))
  | .refuses offeredAt _ => inferInstanceAs (Decidable (start ≤ offeredAt ∧ offeredAt ≤ stop))

namespace GatedService
variable {I R : Type} {EV : Type → Type} [Instant I] [SeedableRng R] [Pool EV]

def offered (s : GatedService I R EV) (e : GatedStep I) :
    Option (Sent × PerFamily (SendOutcome I)) :=
  match e.call with
  | .served _ => none
  | .offer flood buf fates _ =>
    (s.session.sent ⟨e.now, .poll flood buf⟩).map fun sent =>
      (sent, s.gate.sendTo sent.transmit fates)

def confirmOf (report : PerFamily (SendOutcome I)) : Call I :=
  .outcome report.v4.attempt report.v6.attempt

def next (s : GatedService I R EV) (e : GatedStep I) : GatedService I R EV :=
  match e.call with
  | .served call => { s with session := s.session.next ⟨e.now, call⟩ }
  | .offer flood buf _ settledAt =>
    let polled := s.session.next ⟨e.now, .poll flood buf⟩
    match s.offered e with
    | none => { s with session := polled }
    | some (sent, report) =>
      { session := polled.next ⟨settledAt, confirmOf report⟩
        gate := s.gate.note report sent.transmit.minFamilyGap }

def admits (s : GatedService I R EV) (e : GatedStep I) : Prop :=
  s.session.clock ≤ e.now ∧
    match e.call with
    | .served (.poll _ _) | .served (.outcome _ _) => False
    | .served _ => True
    | .offer _ _ fates settledAt =>
      e.now ≤ settledAt ∧ fates.v4.Within e.now settledAt ∧ fates.v6.Within e.now settledAt

instance (s : GatedService I R EV) (e : GatedStep I) : Decidable (s.admits e) := by
  unfold admits
  cases e.call with
  | served call => cases call <;> infer_instance
  | offer _ _ _ _ => infer_instance

def machine (probe : Bool) : Machine (GatedService I R EV) (GatedStep I) where
  start s := Session.Registered probe s.session ∧ s.gate = .new
  admits := admits
  next := next

instance (probe : Bool) (s : GatedService I R EV) (e : GatedStep I) :
    Decidable ((machine probe).admits s e) := inferInstanceAs (Decidable (s.admits e))

variable (gate : FamilyWireGate I)

theorem sendOne_within (minGap : Duration) (f : Family)
    (fate : SocketFate I) (start stop : I) (h : fate.Within start stop) :
    (gate.sendOne minGap f fate).attempt.Within start stop := by
  intro t ht
  cases fate with
  | unbound => cases ht
  | takes offeredAt submittedAt wireAt =>
    obtain ⟨hstart, hoffer, hwire, hstop⟩ := h
    rw [FamilyWireGate.sendOne] at ht
    split at ht
    · cases ht
      exact ⟨le_trans hstart hoffer, le_trans hwire hstop⟩
    · cases ht
  | refuses offeredAt tooLarge =>
    rw [FamilyWireGate.sendOne] at ht
    split at ht
    · split at ht <;> cases ht
    · cases ht

theorem sendTo_within (transmit : Transmit)
    (fates : PerFamily (SocketFate I)) (start stop : I)
    (h : fates.v4.Within start stop ∧ fates.v6.Within start stop) :
    (gate.sendTo transmit fates).v4.attempt.Within start stop ∧
      (gate.sendTo transmit fates).v6.attempt.Within start stop := by
  have h4 := sendOne_within gate transmit.minFamilyGap .v4 fates.v4 start stop h.1
  have h6 := sendOne_within gate transmit.minFamilyGap .v6 fates.v6 start stop h.2
  rw [FamilyWireGate.sendTo]
  split
  · exact ⟨h4, h6⟩
  · split
    · exact ⟨h4, nofun⟩
    · exact ⟨nofun, h6⟩

theorem sendOne_wired (minGap : Duration) (f : Family)
    (fate : SocketFate I) (start stop t : I) (h : fate.Within start stop)
    (ht : (gate.sendOne minGap f fate).wireTime = some t) : start ≤ t ∧ t ≤ stop := by
  cases fate with
  | unbound => cases ht
  | takes offeredAt submittedAt wireAt =>
    obtain ⟨hstart, hoffer, hwire, hstop⟩ := h
    rw [FamilyWireGate.sendOne] at ht
    split at ht
    · cases ht
      exact ⟨le_trans (le_trans hstart hoffer) hwire, hstop⟩
    · cases ht
  | refuses offeredAt tooLarge =>
    rw [FamilyWireGate.sendOne] at ht
    split at ht
    · split at ht
      · cases ht
      · cases ht
    · cases ht

theorem pick_sendTo (transmit : Transmit)
    (fates : PerFamily (SocketFate I)) (f : Family) :
    f.pick (gate.sendTo transmit fates) =
        gate.sendOne transmit.minFamilyGap f (f.pick fates) ∨
      f.pick (gate.sendTo transmit fates) = .noSocket ∧ transmit.dst ≠ multicastDst := by
  rw [FamilyWireGate.sendTo]
  by_cases hgroup : transmit.dst = multicastDst
  · rw [if_pos hgroup]
    cases f <;> exact Or.inl rfl
  · rw [if_neg hgroup]
    cases Family.of transmit.dst <;> cases f
    · exact Or.inl rfl
    · exact Or.inr ⟨rfl, hgroup⟩
    · exact Or.inr ⟨rfl, hgroup⟩
    · exact Or.inl rfl

theorem sendTo_wired (transmit : Transmit)
    (fates : PerFamily (SocketFate I)) (start stop : I)
    (h : fates.v4.Within start stop ∧ fates.v6.Within start stop) (f : Family) (t : I)
    (ht : (f.pick (gate.sendTo transmit fates)).wireTime = some t) : start ≤ t ∧ t ≤ stop := by
  have hwithin : (f.pick fates).Within start stop := by
    cases f
    · exact h.1
    · exact h.2
  rcases pick_sendTo gate transmit fates f with hone | ⟨hnone, -⟩
  · rw [hone] at ht
    exact sendOne_wired gate transmit.minFamilyGap f _ start stop t hwithin ht
  · rw [hnone] at ht
    cases ht

omit [SeedableRng R] [Pool EV] in
theorem offered_some (s : GatedService I R EV) (now settledAt : I) (flood : ConflictFlood I)
    (buf : Bytes) (fates : PerFamily (SocketFate I)) (sent : Sent)
    (report : PerFamily (SendOutcome I))
    (h : s.offered ⟨now, .offer flood buf fates settledAt⟩ = some (sent, report)) :
    s.session.sent ⟨now, .poll flood buf⟩ = some sent ∧
      report = s.gate.sendTo sent.transmit fates := by
  obtain ⟨d, hsent, heq⟩ := Option.map_eq_some_iff.mp h
  cases heq
  exact ⟨hsent, rfl⟩

theorem session_run (probe : Bool) (ts : List (Transition (GatedService I R EV) (GatedStep I)))
    (s : GatedService I R EV) (run : Run (machine probe) ts s) :
    Reachable (Session.machine probe) s.session := by
  induction run with
  | start s h => exact ⟨[], .start _ h.1⟩
  | step ts s e run hadmits ih =>
    obtain ⟨us, hrun⟩ := ih
    obtain ⟨now, call⟩ := e
    obtain ⟨hclock, hcall⟩ := hadmits
    show Reachable (Session.machine probe) (s.next ⟨now, call⟩).session
    cases call with
    | served call =>
      refine ⟨_, hrun.step us s.session ⟨now, call⟩ ⟨hclock, ?_⟩⟩
      cases call with
      | poll flood buf => exact hcall.elim
      | outcome v4 v6 => exact hcall.elim
      | event _ _ => trivial
      | timeout _ _ => trivial
      | update => trivial
      | withdraw => trivial
    | offer flood buf fates settledAt =>
      have hpolled := hrun.step us s.session ⟨now, .poll flood buf⟩ ⟨hclock, trivial⟩
      rw [next]
      cases hoffered : s.offered ⟨now, .offer flood buf fates settledAt⟩ with
      | none => exact ⟨_, hpolled⟩
      | some sent =>
        obtain ⟨d, report⟩ := sent
        obtain ⟨-, rfl⟩ := s.offered_some now settledAt flood buf fates d report hoffered
        have hwithin := sendTo_within s.gate d.transmit fates now settledAt hcall.2
        have hconfirm : Session.admits (s.session.next ⟨now, .poll flood buf⟩)
            ⟨settledAt, confirmOf (s.gate.sendTo d.transmit fates)⟩ := ⟨hcall.1, hwithin⟩
        exact ⟨_, hpolled.step _ _ _ hconfirm⟩

end GatedService
end Hick
