import Hick.Driver.Contexts
import Hick.Driver.GoodbyeTurns
import Hick.Endpoint.GoodbyeRounds

/-!
# The flush of a driver that shuts down (hick-reactor/src/driver/mod.rs:2946-2990,
hick-compio/src/driver/mod.rs:1883-1918, endpoint/receive.rs:654-660)

A driver that has left its main loop goes on with the goodbyes alone: it sends those that are due,
drops those that are done, and sleeps until the next has to be sent, for ten seconds at most.
-/

namespace Hick
open Octets Wire Respond Runs

def Endpoint.nextWithdrawalDeadline {I G R : Type} {SR EV : Type → Type} [Instant I]
    (e : Endpoint I G R SR EV) : Option I :=
  (e.withdrawals.map fun tw => tw.2.deadline).min?

def saturatingDurationSince {I : Type} [Instant I] (later earlier : I) : Duration :=
  (checkedDurationSince later earlier).getD 0

def shutdownBackstop : Duration := Duration.fromSecs 10

section
variable {I : Type} [Instant I] [MeasuredInstant I]

theorem add_zero_self (t : I) : checkedAddDuration t 0 = some t := by
  obtain ⟨g, -, hg⟩ := MeasuredInstant.since_of_le t t (le_refl t)
  obtain ⟨u, hu⟩ := MeasuredInstant.add_part t t 0 g (Nat.zero_le g) hg
  have hup := LawfulInstant.le_add t u 0 hu
  have hdown := LawfulInstant.add_mono t t u t 0 g (le_refl t) (Nat.zero_le g) hu hg
  rw [hu, le_antisymm hdown hup]

theorem saturating_pos (later earlier : I) :
    0 < saturatingDurationSince later earlier ↔ earlier < later := by
  unfold saturatingDurationSince
  constructor
  · intro hpos
    by_contra hnot
    rcases lt_or_eq_of_le (not_lt.mp hnot) with hlt | heq
    · rw [MeasuredInstant.since_of_lt earlier later hlt] at hpos
      exact Nat.lt_irrefl 0 hpos
    · obtain ⟨g, hg, hadd⟩ := MeasuredInstant.since_of_le earlier later (le_of_eq heq.symm)
      rw [hg] at hpos
      rw [heq] at hadd
      have hzero := MeasuredInstant.add_inj earlier earlier g 0 hadd (add_zero_self earlier)
      exact absurd hpos (by rw [Option.getD_some, hzero]; exact Nat.lt_irrefl 0)
  · intro hlt
    obtain ⟨g, hg, hadd⟩ := MeasuredInstant.since_of_le earlier later (le_of_lt hlt)
    rw [hg, Option.getD_some]
    apply Nat.pos_of_ne_zero
    intro hzero
    rw [hzero, add_zero_self] at hadd
    exact absurd (Option.some.inj hadd) (ne_of_lt hlt)

theorem add_saturating (later earlier : I) (h : earlier ≤ later) :
    checkedAddDuration earlier (saturatingDurationSince later earlier) = some later := by
  obtain ⟨g, hg, hadd⟩ := MeasuredInstant.since_of_le earlier later h
  unfold saturatingDurationSince
  rw [hg, Option.getD_some]
  exact hadd

theorem min_saturating (a b earlier : I) :
    min (saturatingDurationSince a earlier) (saturatingDurationSince b earlier) =
      saturatingDurationSince (min a b) earlier := by
  have hmono : ∀ a b : I, a ≤ b →
      saturatingDurationSince a earlier ≤ saturatingDurationSince b earlier := by
    intro a b hab
    rcases lt_or_ge a earlier with hlt | hge
    · unfold saturatingDurationSince
      rw [MeasuredInstant.since_of_lt earlier a hlt]
      exact Nat.zero_le _
    · by_contra hlong
      have hle := LawfulInstant.add_mono earlier earlier b a _ _ (le_refl earlier)
        (le_of_lt (not_le.mp hlong)) (add_saturating b earlier (le_trans hge hab))
        (add_saturating a earlier hge)
      rw [le_antisymm hle hab] at hlong
      exact hlong (le_refl _)
  rcases le_total a b with hab | hba
  · rw [min_eq_left hab, min_eq_left (hmono a b hab)]
  · rw [min_eq_right hba, min_eq_right (hmono b a hba)]

/-- A span measured at `now` and slept from `at_` on ends by its end exactly when the sleep began at
`now`. -/
theorem slept_iff (now at_ limit : I) (hlt : now < limit) (hle : now ≤ at_) :
    Elapsed at_ (saturatingDurationSince limit now) limit ↔ at_ = now := by
  have hlimit := add_saturating limit now (le_of_lt hlt)
  constructor
  · intro h
    obtain ⟨woken, hwoken, hby⟩ := h
    have hlate := add_saturating at_ now hle
    have hsum := MeasuredInstant.add_add now at_ woken _ _ hlate hwoken
    by_contra hne
    have hpos := (saturating_pos at_ now).mpr (lt_of_le_of_ne hle (Ne.symm hne))
    have hback := LawfulInstant.add_mono now now limit woken _ _ (le_refl now)
      (Nat.le_add_left _ (saturatingDurationSince at_ now)) hlimit hsum
    rw [le_antisymm hby hback] at hsum
    have hzero := Nat.add_eq_right.mp (MeasuredInstant.add_inj now limit _ _ hlimit hsum).symm
    rw [hzero] at hpos
    exact Nat.lt_irrefl 0 hpos
  · intro heq
    rw [heq]
    exact ⟨limit, hlimit, le_refl limit⟩

end

/-- What one pass meets: the clock before and after each of its fan-outs, and what they come to.
Nothing else in it takes time. -/
structure FlushPass (I : Type) [Instant I] where
  clock : Nat → I
  timely : Monotone clock
  scratch : Bytes
  v4 : Nat → FamilyAttempt I
  v6 : Nat → FamilyAttempt I
  rounds : Nat

def FlushPass.goodbyes {I : Type} [Instant I] (p : FlushPass I) (now : Nat → I) :
    GoodbyeInput I where
  now := now
  clock := p.clock
  scratch := p.scratch
  v4 := p.v4
  v6 := p.v6
  fannedOutAt n := p.clock (n + 1)
  rounds := p.rounds

/-- How a pass ends: with nothing left to send, at the backstop, or with a sleep. -/
inductive FlushEnd where
  | settled
  | backstop
  | sleeps (d : Duration)
deriving DecidableEq

/-- What a pass leaves: the state at each of its stages, and the instant at which its sleep would
begin. -/
structure FlushTurn (C I G R : Type) (SR EV : Type → Type) where
  pumped : Hosted C I G R SR EV
  drained : Hosted C I G R SR EV
  hosted : Hosted C I G R SR EV
  parkedAt : I
  ended : FlushEnd

section
variable {C I G R : Type} {SR EV : Type → Type} [Instant I] [SeedSource G] [SeedableRng R]
  [Pool SR] [Pool EV]

def Hosted.flushEnd (d : Hosted C I G R SR EV) (backstop now : I) : FlushEnd :=
  match d.endpoint.nextWithdrawalDeadline with
  | none => .settled
  | some next =>
    if backstop ≤ now then .backstop
    else .sleeps (min (saturatingDurationSince next now) (saturatingDurationSince backstop now))

namespace Reactor

def retiring : Retiring ServiceCtx where
  retired c := c.withdrawing
  retire c := { c with withdrawing := true }
  retired_retire _ := rfl

def beginEveryWithdrawal (d : Hosted ServiceCtx I G R SR EV) (now : I) :
    Hosted ServiceCtx I G R SR EV :=
  d.services.keys.foldl (fun d handle => d.beginServiceWithdrawal retiring handle now) d

def flushPass (p : FlushPass I) (backstop : I) (d : Hosted ServiceCtx I G R SR EV) :
    Option (FlushTurn ServiceCtx I G R SR EV) :=
  let now := p.clock 0
  ((p.goodbyes fun _ => now).pump goodbyeRules (.new now) d.endpoint).map fun w =>
    let pumped := { d with endpoint := w.endpoint }
    let drained := pumped.drainCompletedWithdrawals now
    { pumped := pumped
      drained := drained
      hosted := drained
      parkedAt := p.clock w.polled.length
      ended := drained.flushEnd backstop now }

end Reactor

namespace Compio

def retiring : Retiring ServiceCtx where
  retired c := c.errored
  retire c := { c with errored := true }
  retired_retire _ := rfl

def sweepCancelledServices (d : Hosted ServiceCtx I G R SR EV) (now : I) :
    Hosted ServiceCtx I G R SR EV :=
  let cancelled := (d.services.entries.filter fun e => e.2.cancelled && !e.2.errored).map (·.1)
  cancelled.foldl (fun d handle => d.beginServiceWithdrawal retiring handle now) d

def flushPass (p : FlushPass I) (backstop : I) (d : Hosted ServiceCtx I G R SR EV) :
    Option (FlushTurn ServiceCtx I G R SR EV) :=
  ((p.goodbyes p.clock).pump goodbyeRules (.new (p.clock 0)) d.endpoint).map fun w =>
    let now := p.clock w.polled.length
    let pumped := { d with endpoint := w.endpoint }
    let drained := pumped.drainCompletedWithdrawals now
    let swept := sweepCancelledServices drained now
    { pumped := pumped
      drained := drained
      hosted := swept
      parkedAt := now
      ended := swept.flushEnd backstop now }

end Compio

/-- These passes follow one another from `t` on, each at the instant at which the sleep before it is
over. -/
def Flushes (pass : FlushPass I → I → Hosted C I G R SR EV → Option (FlushTurn C I G R SR EV))
    (backstop : I) : Hosted C I G R SR EV → I → List (FlushPass I × FlushTurn C I G R SR EV) → Prop
  | _, _, [] => True
  | d, t, (p, turn) :: rest => p.clock 0 = t ∧ pass p backstop d = some turn ∧
    (rest = [] ∨ ∃ dur woken, turn.ended = .sleeps dur ∧
      checkedAddDuration turn.parkedAt dur = some woken ∧
        Flushes pass backstop turn.hosted woken rest)

namespace FlushTurn

/-- Where the turn ends with a sleep, it is awake again by the backstop and by the deadline of every
item that is left. -/
def Prompt (turn : FlushTurn C I G R SR EV) (backstop : I) : Prop :=
  ∀ dur, turn.ended = .sleeps dur → 0 < dur → Elapsed turn.parkedAt dur backstop ∧
    ∀ tw ∈ turn.hosted.endpoint.withdrawals, Elapsed turn.parkedAt dur tw.2.deadline

def EndsRight (turn : FlushTurn C I G R SR EV) (backstop : I) : Prop :=
  (turn.ended = .settled → turn.hosted.endpoint.withdrawals = []) ∧
    (turn.ended = .backstop → backstop ≤ turn.parkedAt)

def endpoints (turn : FlushTurn C I G R SR EV) : List (Endpoint I G R SR EV) :=
  [turn.pumped.endpoint, turn.drained.endpoint, turn.hosted.endpoint]

end FlushTurn

/-- How often a goodbye for the service of `handle` is begun along these endpoints. -/
def Endpoint.begins (handle : ServiceHandle) : List (Endpoint I G R SR EV) → Nat
  | e :: e' :: rest =>
    (if e.farewells handle < e'.farewells handle then 1 else 0) +
      Endpoint.begins handle (e' :: rest)
  | _ => 0

end

end Hick
