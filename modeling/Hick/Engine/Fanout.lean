import Hick.Lib.Runs
import Hick.SelfSend.Tracker
import Hick.WireGate.Gate

/-!
# The fan-out of the embedded engine (hick-smoltcp/src/engine/mod.rs:560-1030)

A datagram is offered to both families, the family that has been failing for longer first. How
long a family has been failing is kept once for all producers.
-/

namespace Hick
open Octets Runs

inductive SendError where
  | busy
  | unsupported
  | tooLarge
  deriving DecidableEq

inductive FamilySend (I : Type) where
  | sent (bytes : Nat) (at_ : I)
  | gated
  | failed
  | unsupported
  | busy
  | notOwed
  deriving DecidableEq

namespace FamilySend
variable {I : Type}

def isSent : FamilySend I → Bool
  | sent _ _ => true
  | _ => false

def attempt : FamilySend I → FamilyAttempt I
  | sent _ at_ => .accepted at_
  | busy => .refused false
  | failed => .refused true
  | gated | notOwed => .gateShut
  | unsupported => .noSocket

end FamilySend

/-- What the engine meets during one fan-out: the readings of the clock in their order, and the
answers of the transport to the sends in theirs. -/
structure Surroundings (I : Type) where
  reading : Nat → I
  answer : Nat → Family → Except SendError Unit

/-- `Multicaster`: since when each family has been failing, and the log of the sends. -/
structure Caster (I : Type) where
  failingSince : PerFamily (Option I)
  log : Multicaster I

structure Casting (I : Type) where
  failingSince : PerFamily (Option I)
  gate : FamilyWireGate I
  readings : Nat
  sends : Nat
  results : PerFamily (FamilySend I)
  earliestAccepted : Option I
  acceptedBy : PerFamily Bool

section
variable {I : Type} [Instant I]

def v6First (failingSince : PerFamily (Option I)) : Bool :=
  match failingSince.v4, failingSince.v6 with
  | some v4Since, some v6Since => decide (v6Since < v4Since)
  | none, some _ => true
  | _, none => false

def familyOrder (failingSince : PerFamily (Option I)) : Family × Family :=
  if v6First failingSince then (.v6, .v4) else (.v4, .v6)

namespace Casting

def startStreak (c : Casting I) (f : Family) (at_ : I) : Casting I :=
  { c with failingSince := c.failingSince.put f (some ((f.pick c.failingSince).getD at_)) }

def offer (data : Bytes) (minGap : Duration) (env : Surroundings I) (f : Family) (c : Casting I) :
    Casting I :=
  let offeredAt := env.reading c.readings
  let c := { c with readings := c.readings + 1 }
  if !c.gate.open_ f offeredAt minGap then { c with results := c.results.put f .gated }
  else
    let answer := env.answer c.sends f
    let c := { c with sends := c.sends + 1 }
    match answer with
    | .ok () =>
      { c with
        failingSince := c.failingSince.put f none
        gate := c.gate.record f (env.reading c.readings) minGap
        readings := c.readings + 1
        results := c.results.put f (.sent data.length offeredAt)
        earliestAccepted := some (match c.earliestAccepted with
          | some first => if first ≤ offeredAt then first else offeredAt
          | none => offeredAt)
        acceptedBy := c.acceptedBy.put f true }
    | .error .busy =>
      let c := c.startStreak f offeredAt
      { c with results := c.results.put f .busy }
    | .error .unsupported => { c with results := c.results.put f .unsupported }
    | .error .tooLarge => { c with results := c.results.put f .failed }

end Casting

namespace Caster

def new : Caster I := ⟨.both none, .new⟩

def casting (m : Caster I) (data : Bytes) (gate : FamilyWireGate I) (minGap : Duration)
    (env : Surroundings I) : Casting I :=
  let order := familyOrder m.failingSince
  ((Casting.mk m.failingSince gate 0 0 (.both .unsupported) none (.both false)).offer data minGap
    env order.1 |>.offer data minGap env order.2)

def sendMulticast (m : Caster I) (data : Bytes) (gate : FamilyWireGate I) (minGap : Duration)
    (env : Surroundings I) : PerFamily (FamilySend I) × FamilyWireGate I × Caster I :=
  let c := m.casting data gate minGap env
  (c.results, c.gate,
    { failingSince := c.failingSince
      log :=
        match c.earliestAccepted with
        | some at_ => m.log.record data at_ c.acceptedBy
        | none => m.log })

end Caster

structure FanoutCall (P I : Type) where
  producer : P
  data : Bytes
  minGap : Duration
  env : Surroundings I

structure Fanouts (P I : Type) where
  caster : Caster I
  gate : P → FamilyWireGate I

namespace Fanouts
variable {P : Type} [DecidableEq P]

def outcome (s : Fanouts P I) (c : FanoutCall P I) :
    PerFamily (FamilySend I) × FamilyWireGate I × Caster I :=
  s.caster.sendMulticast c.data (s.gate c.producer) c.minGap c.env

def next (s : Fanouts P I) (c : FanoutCall P I) : Fanouts P I where
  caster := (s.outcome c).2.2
  gate := Function.update s.gate c.producer (s.outcome c).2.1

def OneSlot (env : Surroundings I) : Prop :=
  ∀ f, env.answer 0 f = .ok () ∧ env.answer 1 f = .error .busy

def Ungated (s : Fanouts P I) (c : FanoutCall P I) : Prop :=
  ∀ f : Family, f.pick (s.outcome c).1 ≠ .gated

def machine : Machine (Fanouts P I) (FanoutCall P I) where
  start _ := True
  admits s c := OneSlot c.env ∧ s.Ungated c
  next := next

def accepted (tr : Transition (Fanouts P I) (FanoutCall P I)) (f : Family) : Bool :=
  (f.pick (tr.pre.outcome tr.call).1).isSent

def other : Family → Family
  | .v4 => .v6
  | .v6 => .v4

theorem familyOrder_other (failingSince : PerFamily (Option I)) :
    (familyOrder failingSince).2 = other (familyOrder failingSince).1 := by
  rw [familyOrder]
  split <;> rfl

theorem familyOrder_failing (failingSince : PerFamily (Option I)) (f : Family)
    (hgood : f.pick failingSince = none) (hbad : (other f).pick failingSince ≠ none) :
    (familyOrder failingSince).1 = other f := by
  obtain ⟨v4, v6⟩ := failingSince
  cases f with
  | v4 =>
    cases v6 with
    | none => exact absurd rfl hbad
    | some since =>
      have hv4 : v4 = none := hgood
      subst hv4
      rfl
  | v6 =>
    have hv6 : v6 = none := hgood
    subst hv6
    cases v4 with
    | none => exact absurd rfl hbad
    | some since => rfl

theorem other_ne (f : Family) : f ≠ other f := by
  cases f <;> exact nofun

theorem offer_other (data : Bytes) (minGap : Duration) (env : Surroundings I) (f g : Family)
    (h : g ≠ f) (c : Casting I) :
    g.pick (c.offer data minGap env f).results = g.pick c.results ∧
      g.pick (c.offer data minGap env f).failingSince = g.pick c.failingSince := by
  unfold Casting.offer
  simp only
  split
  · exact ⟨by rw [PerFamily.pick_put, if_neg h], rfl⟩
  · split
    · exact ⟨by rw [PerFamily.pick_put, if_neg h], by rw [PerFamily.pick_put, if_neg h]⟩
    · rw [Casting.startStreak]
      exact ⟨by rw [PerFamily.pick_put, if_neg h], by rw [PerFamily.pick_put, if_neg h]⟩
    · exact ⟨by rw [PerFamily.pick_put, if_neg h], rfl⟩
    · exact ⟨by rw [PerFamily.pick_put, if_neg h], rfl⟩

theorem offer_taken (data : Bytes) (minGap : Duration) (env : Surroundings I) (f : Family)
    (c : Casting I) (hungated : f.pick (c.offer data minGap env f).results ≠ .gated)
    (htaken : env.answer c.sends f = .ok ()) :
    (f.pick (c.offer data minGap env f).results).isSent = true ∧
      f.pick (c.offer data minGap env f).failingSince = none ∧
      (c.offer data minGap env f).sends = c.sends + 1 := by
  unfold Casting.offer at hungated ⊢
  simp only [htaken] at hungated ⊢
  split
  · rename_i hshut
    rw [if_pos hshut, PerFamily.pick_put, if_pos rfl] at hungated
    exact absurd rfl hungated
  · refine ⟨?_, ?_, rfl⟩
    · rw [PerFamily.pick_put, if_pos rfl]
      rfl
    · rw [PerFamily.pick_put, if_pos rfl]

theorem offer_busy (data : Bytes) (minGap : Duration) (env : Surroundings I) (f : Family)
    (c : Casting I) (hungated : f.pick (c.offer data minGap env f).results ≠ .gated)
    (hbusy : env.answer c.sends f = .error .busy) :
    (f.pick (c.offer data minGap env f).results).isSent = false ∧
      f.pick (c.offer data minGap env f).failingSince ≠ none := by
  unfold Casting.offer at hungated ⊢
  simp only [hbusy] at hungated ⊢
  split
  · rename_i hshut
    rw [if_pos hshut, PerFamily.pick_put, if_pos rfl] at hungated
    exact absurd rfl hungated
  · rw [PerFamily.pick_put, if_pos rfl, Casting.startStreak, PerFamily.pick_put, if_pos rfl]
    exact ⟨rfl, nofun⟩

theorem outcome_one_slot (s : Fanouts P I) (c : FanoutCall P I) (hslot : OneSlot c.env)
    (hungated : s.Ungated c) (f : Family) (hf : (familyOrder s.caster.failingSince).1 = f) :
    (f.pick (s.outcome c).1).isSent = true ∧
      ((other f).pick (s.outcome c).1).isSent = false ∧
      f.pick (s.next c).caster.failingSince = none ∧
      (other f).pick (s.next c).caster.failingSince ≠ none := by
  have horder : (familyOrder s.caster.failingSince).2 = other f := by
    rw [familyOrder_other, hf]
  have hfirst := hungated f
  have hsecond := hungated (other f)
  simp only [next, outcome, Caster.sendMulticast, Caster.casting, hf, horder] at hfirst hsecond ⊢
  generalize hc : Casting.mk s.caster.failingSince (s.gate c.producer) 0 0 (.both .unsupported) none
    (.both false) = c₀ at hfirst hsecond ⊢
  have hsends : c₀.sends = 0 := by rw [← hc]
  obtain ⟨hresult, hfailing⟩ := offer_other c.data c.minGap c.env (other f) f (other_ne f)
    (c₀.offer c.data c.minGap c.env f)
  rw [hresult] at hfirst
  obtain ⟨htaken, hgood, hcount⟩ := offer_taken c.data c.minGap c.env f c₀ hfirst
    (by rw [hsends]; exact (hslot f).1)
  obtain ⟨hnone, hbad⟩ := offer_busy c.data c.minGap c.env (other f)
    (c₀.offer c.data c.minGap c.env f) hsecond
    (by rw [hcount, hsends]; exact (hslot (other f)).2)
  rw [hresult, hfailing]
  exact ⟨htaken, hnone, hgood, hbad⟩

def taker (tr : Transition (Fanouts P I) (FanoutCall P I)) : Family :=
  (familyOrder tr.pre.caster.failingSince).1

theorem accepted_iff_taker (tr : Transition (Fanouts P I) (FanoutCall P I))
    (hslot : OneSlot tr.call.env) (hungated : tr.pre.Ungated tr.call) (f : Family) :
    accepted tr f = true ↔ f = taker tr := by
  obtain ⟨htaken, hnone, -, -⟩ := outcome_one_slot tr.pre tr.call hslot hungated (taker tr) rfl
  rw [accepted]
  constructor
  · intro hsent
    by_contra hne
    have hother : f = other (taker tr) := by
      cases hf : f <;> cases ht : taker tr <;> simp_all [other]
    rw [hother, hnone] at hsent
    cases hsent
  · rintro rfl
    exact htaken

theorem taker_next (s : Fanouts P I) (c c' : FanoutCall P I) (hslot : OneSlot c.env)
    (hungated : s.Ungated c) :
    taker (machine.transition (s.next c) c') = other (taker (machine.transition s c)) := by
  obtain ⟨-, -, hgood, hbad⟩ := outcome_one_slot s c hslot hungated _ rfl
  exact familyOrder_failing _ _ hgood hbad

theorem takers_alternate (ts : List (Transition (Fanouts P I) (FanoutCall P I)))
    (s : Fanouts P I) (run : Run machine ts s) :
    ts.IsChain fun a b => taker b = other (taker a) := by
  apply List.IsChain.imp_of_mem_imp _ (run.chain machine ts s).1
  intro a b ha hb hpost
  obtain ⟨haeq, hslot, hungated⟩ := run.mem machine ts s a ha
  obtain ⟨hbeq, -, -⟩ := run.mem machine ts s b hb
  have hnext := taker_next a.pre a.call b.call hslot hungated
  have hpre : a.pre.next a.call = b.pre := by
    rw [← hpost, haeq]
    rfl
  rw [hpre, ← haeq, ← hbeq] at hnext
  exact hnext

omit [DecidableEq P] in
theorem taker_after (a b : Transition (Fanouts P I) (FanoutCall P I))
    (mid : List (Transition (Fanouts P I) (FanoutCall P I)))
    (h : (a :: (mid ++ [b])).IsChain fun a b => taker b = other (taker a)) :
    taker b = if Even mid.length then other (taker a) else taker a := by
  induction mid generalizing a with
  | nil =>
    rw [List.length_nil, if_pos Even.zero]
    exact (List.isChain_cons_cons.mp h).1
  | cons c mid ih =>
    obtain ⟨hc, hrest⟩ := List.isChain_cons_cons.mp h
    rw [ih c hrest, hc, List.length_cons]
    by_cases heven : Even mid.length
    · have hodd : ¬ Even (mid.length + 1) := fun h => Nat.even_add_one.mp h heven
      rw [if_pos heven, if_neg hodd]
      cases taker a <;> rfl
    · rw [if_neg heven, if_pos (Nat.even_add_one.mpr heven)]

structure Consecutive (ts : List (Transition (Fanouts P I) (FanoutCall P I))) (p : P)
    (a : Transition (Fanouts P I) (FanoutCall P I))
    (mid : List (Transition (Fanouts P I) (FanoutCall P I)))
    (b : Transition (Fanouts P I) (FanoutCall P I)) : Prop where
  within : (a :: (mid ++ [b])) <:+: ts
  first : a.call.producer = p
  second : b.call.producer = p
  others : ∀ t ∈ mid, t.call.producer ≠ p

/-- Over a transport with one slot, two consecutive fan-outs of a producer reach both groups between
them exactly where the others made an even number of fan-outs in between. -/
theorem fanouts_reach_both (ts : List (Transition (Fanouts P I) (FanoutCall P I)))
    (s : Fanouts P I) (run : Run machine ts s) (p : P)
    (a : Transition (Fanouts P I) (FanoutCall P I))
    (mid : List (Transition (Fanouts P I) (FanoutCall P I)))
    (b : Transition (Fanouts P I) (FanoutCall P I)) (h : Consecutive ts p a mid b) :
    (∀ f, accepted a f = true ∨ accepted b f = true) ↔ Even mid.length := by
  have ha : a ∈ ts := h.within.subset List.mem_cons_self
  have hb : b ∈ ts := h.within.subset (List.mem_cons_of_mem _ (List.mem_append_right _
    (List.mem_singleton.mpr rfl)))
  obtain ⟨-, haslot, haungated⟩ := run.mem machine ts s a ha
  obtain ⟨-, hbslot, hbungated⟩ := run.mem machine ts s b hb
  have hchain : (a :: (mid ++ [b])).IsChain fun a b => taker b = other (taker a) := by
    obtain ⟨before, after, hts⟩ := h.within
    have hall := takers_alternate ts s run
    rw [← hts, List.append_assoc, List.isChain_append] at hall
    exact (List.isChain_append.mp hall.2.1).1
  have htaker := taker_after a b mid hchain
  constructor
  · intro hboth
    by_contra hodd
    rw [if_neg hodd] at htaker
    rcases hboth (other (taker a)) with hsent | hsent
    · have heq := (accepted_iff_taker a haslot haungated _).mp hsent
      exact other_ne (taker a) heq.symm
    · have heq := (accepted_iff_taker b hbslot hbungated _).mp hsent
      rw [htaker] at heq
      exact other_ne (taker a) heq.symm
  · intro heven f
    rw [if_pos heven] at htaker
    by_cases hf : f = taker a
    · exact Or.inl ((accepted_iff_taker a haslot haungated f).mpr hf)
    · have hother : f = other (taker a) := by
        cases hf' : f <;> cases ht : taker a <;> simp_all [other]
      exact Or.inr ((accepted_iff_taker b hbslot hbungated f).mpr (hother.trans htaker.symm))

end Fanouts
end

namespace Fanouts

def oneSlotAt (producer : Nat) (at_ : Uptime) : FanoutCall Nat Uptime where
  producer := producer
  data := []
  minGap := 0
  env :=
    { reading := fun _ => at_
      answer := fun i _ => if i = 0 then .ok () else .error .busy }

def idle : Fanouts Nat Uptime := ⟨.new, fun _ => .new⟩

instance (p : Family → Prop) [∀ f, Decidable (p f)] : Decidable (∀ f, p f) :=
  decidable_of_iff (p .v4 ∧ p .v6)
    ⟨fun h f => match f with | .v4 => h.1 | .v6 => h.2, fun h => ⟨h .v4, h .v6⟩⟩

instance (answer expected : Except SendError Unit) : Decidable (answer = expected) :=
  match answer, expected with
  | .ok (), .ok () => isTrue rfl
  | .ok (), .error _ => isFalse nofun
  | .error _, .ok () => isFalse nofun
  | .error a, .error b => decidable_of_iff (a = b) ⟨congrArg _, Except.error.inj⟩

instance (s : Fanouts Nat Uptime) (c : FanoutCall Nat Uptime) :
    Decidable (machine.admits s c) := by
  unfold machine OneSlot Ungated
  infer_instance

def aroundTwo : List (FanoutCall Nat Uptime) :=
  [oneSlotAt 0 1, oneSlotAt 1 2, oneSlotAt 1 3, oneSlotAt 0 4]

def inTurn : List (FanoutCall Nat Uptime) := [oneSlotAt 0 1, oneSlotAt 1 2, oneSlotAt 0 3]

theorem idle_run (cs : List (FanoutCall Nat Uptime)) (h : machine.Admitted idle cs) :
    Run machine (machine.trace idle cs) (machine.play idle cs) := by
  have hplay := Run.play machine [] idle (.start _ trivial) cs h
  rw [List.nil_append] at hplay
  exact hplay

theorem fanouts_around_two_reach_both :
    let first := machine.transition idle (oneSlotAt 0 1)
    let last := machine.transition (machine.play idle (aroundTwo.take 3)) (oneSlotAt 0 4)
    (accepted first .v4 = true ∨ accepted last .v4 = true) ∧
      (accepted first .v6 = true ∨ accepted last .v6 = true) := by
  intro first last
  have hwithin : Consecutive (machine.trace idle aroundTwo) 0 first
      [machine.transition (idle.next (oneSlotAt 0 1)) (oneSlotAt 1 2),
        machine.transition ((idle.next (oneSlotAt 0 1)).next (oneSlotAt 1 2)) (oneSlotAt 1 3)]
      last := by
    refine ⟨List.infix_rfl, rfl, rfl, ?_⟩
    intro t ht
    rcases List.mem_cons.mp ht with rfl | hsecond
    · exact (by decide : (1 : Nat) ≠ 0)
    · rw [List.mem_singleton.mp hsecond]
      exact (by decide : (1 : Nat) ≠ 0)
  have hboth := (fanouts_reach_both _ _ (idle_run aroundTwo (by decide +kernel)) 0 _ _ _
    hwithin).mpr ⟨1, rfl⟩
  exact ⟨hboth .v4, hboth .v6⟩

/-- Of two producers in turn, the first reaches one group only. -/
theorem in_turn_starves : ¬ ∀ (ts : List (Transition (Fanouts Nat Uptime) (FanoutCall Nat Uptime)))
    (s : Fanouts Nat Uptime), Run machine ts s → ∀ p a mid b, Consecutive ts p a mid b →
      ∀ f, accepted a f = true ∨ accepted b f = true := by
  intro h
  have hwithin : Consecutive (machine.trace idle inTurn) 0
      (machine.transition idle (oneSlotAt 0 1))
      [machine.transition (idle.next (oneSlotAt 0 1)) (oneSlotAt 1 2)]
      (machine.transition ((idle.next (oneSlotAt 0 1)).next (oneSlotAt 1 2)) (oneSlotAt 0 3)) := by
    refine ⟨List.infix_rfl, rfl, rfl, ?_⟩
    intro t ht
    rw [List.mem_singleton.mp ht]
    exact (by decide : (1 : Nat) ≠ 0)
  have hboth := h _ _ (idle_run inTurn (by decide +kernel)) 0 _ _ _ hwithin .v6
  revert hboth
  decide +kernel

end Fanouts
end Hick
