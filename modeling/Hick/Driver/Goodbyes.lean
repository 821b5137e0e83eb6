import Hick.Endpoint.Goodbye

/-!
# The goodbye pump of a pass (hick-reactor/src/driver/mod.rs:1638-1751,
hick-compio/src/driver/mod.rs:2796-2966)

After its transmits a pass asks the endpoint for one due goodbye after another, offers each to the
families it is for, and reports how that went, while the budget of the pass lets it start another
fan-out.
-/

namespace Hick
open Octets Wire Respond

structure PumpBudget (I B : Type) where
  mayStart : B → I → Bool
  charge : B → FamilyAttempt I → FamilyAttempt I → B

/-- What the pump of one pass meets: the instant each round is asked for with, the clock at each
check of the budget, what each fan-out comes to and when it ends, and a bound on the rounds. -/
structure GoodbyeInput (I : Type) where
  now : Nat → I
  clock : Nat → I
  scratch : Bytes
  v4 : Nat → FamilyAttempt I
  v6 : Nat → FamilyAttempt I
  fannedOutAt : Nat → I
  rounds : Nat

/-- What the pump leaves: `polled` are the rounds it sent, and `stopped` says that the budget ended
it. -/
structure GoodbyesPumped (E B : Type) where
  endpoint : E
  budget : B
  polled : List WithdrawalToken
  stopped : Bool

namespace GoodbyeInput
variable {I G R : Type} {SR EV : Type → Type} [Instant I] [SeedSource G] [SeedableRng R]
  [Pool SR] [Pool EV] {B : Type}

def round (g : GoodbyeInput I) (n : Nat) (e : Endpoint I G R SR EV) :
    Endpoint I G R SR EV × Option WithdrawalToken :=
  match e.pollWithdrawalTransmit (g.now n) g.scratch with
  | (e, none) => (e, none)
  | (e, some round) =>
    (e.noteWithdrawalResult round.token (g.fannedOutAt n) (g.v4 n) (g.v6 n), some round.token)

def pumpFrom (g : GoodbyeInput I) (rules : PumpBudget I B) :
    Nat → Nat → B → Endpoint I G R SR EV → Option (GoodbyesPumped (Endpoint I G R SR EV) B)
  | 0, _, _, _ => none
  | fuel + 1, n, budget, e =>
    if rules.mayStart budget (g.clock n) then
      match g.round n e with
      | (e, none) => some ⟨e, budget, [], false⟩
      | (e, some token) =>
        (pumpFrom g rules fuel (n + 1) (rules.charge budget (g.v4 n) (g.v6 n)) e).map fun r =>
          { r with polled := token :: r.polled }
    else some ⟨e, budget, [], true⟩

def pump (g : GoodbyeInput I) (rules : PumpBudget I B) (budget : B) (e : Endpoint I G R SR EV) :
    Option (GoodbyesPumped (Endpoint I G R SR EV) B) :=
  pumpFrom g rules g.rounds 0 budget e

def IsRound (g : GoodbyeInput I) (token : WithdrawalToken) :
    Nat → Endpoint I G R SR EV → Nat → Prop
  | n, e, 0 => (g.round n e).2 = some token
  | n, e, k + 1 => (g.round n e).2 ≠ none ∧ IsRound g token (n + 1) (g.round n e).1 k

def spent (g : GoodbyeInput I) (rules : PumpBudget I B) : Nat → B → Nat → B
  | _, budget, 0 => budget
  | n, budget, k + 1 => spent g rules (n + 1) (rules.charge budget (g.v4 n) (g.v6 n)) k

def Wanes (g : GoodbyeInput I) (rules : PumpBudget I B) (n : Nat) : Prop :=
  ∀ (m : Nat) (budget : B), n ≤ m →
    rules.mayStart (rules.charge budget (g.v4 m) (g.v6 m)) (g.clock (m + 1)) = true →
      rules.mayStart budget (g.clock m) = true

omit [Instant I] in
theorem mayStart_of_spent (g : GoodbyeInput I) (rules : PumpBudget I B) (n k : Nat) (budget : B)
    (hwanes : g.Wanes rules n)
    (h : rules.mayStart (g.spent rules n budget k) (g.clock (n + k)) = true) :
    rules.mayStart budget (g.clock n) = true := by
  induction k generalizing n budget with
  | zero => exact h
  | succ k ih =>
    apply hwanes n budget (le_refl n)
    apply ih (n + 1) _ (fun m b hm => hwanes m b (by omega))
    rw [show n + 1 + k = n + (k + 1) by omega]
    exact h

omit [SeedSource G] [SeedableRng R] [Pool EV] in
theorem mem_pumpFrom (g : GoodbyeInput I) (rules : PumpBudget I B) (token : WithdrawalToken)
    (fuel n : Nat) (budget : B) (e : Endpoint I G R SR EV)
    (r : GoodbyesPumped (Endpoint I G R SR EV) B) (hwanes : g.Wanes rules n)
    (h : pumpFrom g rules fuel n budget e = some r) :
    token ∈ r.polled ↔
      ∃ k, g.IsRound token n e k ∧
        rules.mayStart (g.spent rules n budget k) (g.clock (n + k)) = true := by
  induction fuel generalizing n budget e r with
  | zero => cases h
  | succ fuel ih =>
    rw [pumpFrom] at h
    cases hmay : rules.mayStart budget (g.clock n) with
    | false =>
      rw [hmay, if_neg Bool.false_ne_true] at h
      cases h
      constructor
      · intro hmem
        cases hmem
      · intro hex
        obtain ⟨k, -, hk⟩ := hex
        rw [mayStart_of_spent g rules n k budget hwanes hk] at hmay
        cases hmay
    | true =>
      rw [hmay, if_pos rfl] at h
      cases hround : g.round n e with
      | mk e' sent =>
        rw [hround] at h
        cases sent with
        | none =>
          cases h
          constructor
          · intro hmem
            cases hmem
          · intro hex
            obtain ⟨k, hturn, -⟩ := hex
            cases k with
            | zero =>
              rw [IsRound, hround] at hturn
              cases hturn
            | succ k =>
              rw [IsRound, hround] at hturn
              exact absurd rfl hturn.1
        | some first =>
          obtain ⟨rest, hrest, hr⟩ := Option.map_eq_some_iff.mp h
          have hlater := ih (n + 1) _ e' rest (fun m b hm => hwanes m b (by omega)) hrest
          rw [← hr, List.mem_cons, hlater]
          constructor
          · intro hmem
            cases hmem with
            | inl heq =>
              refine ⟨0, ?_, hmay⟩
              rw [IsRound, hround, heq]
            | inr hex =>
              obtain ⟨k, hturn, hk⟩ := hex
              refine ⟨k + 1, ?_, ?_⟩
              · rw [IsRound, hround]
                exact ⟨Option.some_ne_none first, hturn⟩
              · rw [spent, show n + (k + 1) = n + 1 + k by omega]
                exact hk
          · intro hex
            obtain ⟨k, hturn, hk⟩ := hex
            cases k with
            | zero =>
              left
              rw [IsRound, hround] at hturn
              exact (Option.some.inj hturn).symm
            | succ k =>
              right
              rw [IsRound, hround] at hturn
              rw [spent, show n + (k + 1) = n + 1 + k by omega] at hk
              exact ⟨k, hturn.2, hk⟩

end GoodbyeInput

end Hick
