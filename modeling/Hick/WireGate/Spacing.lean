import Hick.Service.Refresh
import Hick.WireGate.Driver

/-!
# The schedule of a service against its wire gate (service/mod.rs:503-511, 1879-2268)

The gap a datagram asks for is that of its kind; the gate remembers when the last one of any kind
was carried.
-/

set_option linter.unusedSectionVars false

namespace Hick
open Octets Wire Respond Runs

namespace Pending

def Due (p : Pending) : Prop := p.Holds .probe ∨ p.Holds .announcement

instance (p : Pending) : Decidable p.Due := by
  unfold Due Holds
  infer_instance

def Single (p : Pending) : Prop := ∀ kind, p.peek = some kind → kind ≠ .response → ¬ p.pop.Due

theorem not_due_empty : ¬ Pending.empty.Due := by
  rintro (h | h)
  · exact empty_holds _ h
  · exact empty_holds _ h

theorem Due.of_pop (p : Pending) (h : p.pop.Due) : p.Due := by
  rcases h with h | h
  · exact Or.inl (p.pop_holds _ h)
  · exact Or.inr (p.pop_holds _ h)

theorem due_of_peek (p : Pending) (kind : PendingTransmitKind) (h : p.peek = some kind)
    (hkind : kind ≠ .response) : p.Due := by
  cases kind with
  | probe => exact Or.inl (Or.inl h)
  | announcement => exact Or.inr (Or.inl h)
  | response => exact absurd rfl hkind

theorem pop_pop_not_due (p : Pending) (h : p.peek ≠ none) : ¬ p.pop.pop.Due := by
  obtain ⟨first, second⟩ := p
  cases first with
  | none => exact absurd rfl h
  | some k =>
    cases second with
    | none => simp [pop, Due, Holds]
    | some k' => simp [pop, Due, Holds]

theorem Single.of_pop (p : Pending) (h : p.peek ≠ none) : p.pop.Single := by
  intro kind _ _
  exact p.pop_pop_not_due h

theorem Single.of_push (p : Pending) (h : ¬ p.Due) (kind : PendingTransmitKind) :
    (p.push kind).Single := by
  obtain ⟨first, second⟩ := p
  intro k hk hresponse hdue
  cases first with
  | none =>
    apply h
    simp only [push, pop, Due, Holds] at hdue ⊢
    rcases hdue with (hd | hd) | (hd | hd)
    · exact Or.inl (Or.inr hd)
    · cases hd
    · exact Or.inr (Or.inr hd)
    · cases hd
  | some k' =>
    have hfirst : k' = k := by
      cases second <;> exact Option.some.inj hk
    apply h
    rw [hfirst]
    exact due_of_peek _ k rfl hresponse

theorem Single.push_response (p : Pending) (h : p.Single) : (p.push .response).Single := by
  obtain ⟨first, second⟩ := p
  intro k hk hresponse
  cases first with
  | none =>
    have hkind : PendingTransmitKind.response = k := Option.some.inj hk
    exact absurd hkind.symm hresponse
  | some k' =>
    cases second with
    | none => simp [push, pop, Due, Holds]
    | some k'' => exact h k hk hresponse

theorem Due.of_push_response (p : Pending) (h : (p.push .response).Due) : p.Due := by
  rcases h with h | h
  · rcases p.push_holds _ _ h with h | h
    · exact Or.inl h
    · cases h
  · rcases p.push_holds _ _ h with h | h
    · exact Or.inr h
    · cases h

end Pending

section
variable {I : Type} [Instant I]

namespace Core

/-- The gap between what is queued in this phase and what was sent before it: none for the first
probe of a cycle, nor for its first announcement. -/
def owedGap (c : Core I) : Option Duration :=
  match c.state with
  | .probing n => if c.probeOnWire && decide (n < 3) then some probeInterval else none
  | .announcing n => if n ≥ 1 then some announceInterval else none
  | .established => some announceInterval
  | _ => none

def openingGap (c : Core I) : Option Duration :=
  match c.state with
  | .probing _ => if c.probeOnWire then none else some probeInterval
  | .announcing n => if n ≥ 1 then none else some announceInterval
  | _ => none

def nextGap (c : Core I) : Option Duration :=
  match c.state with
  | .probing n => if n < 3 then some probeInterval else none
  | .announcing _ | .established => some announceInterval
  | _ => none

variable (lastSent : PerFamily (Option I)) (c : Core I)

theorem openingGap_of_owed (gap : Duration) (h : c.owedGap = some gap) :
    c.openingGap = none := by
  rw [owedGap] at h
  rw [openingGap]
  cases hstate : c.state with
  | init => rfl
  | probing n =>
    simp only [hstate] at h ⊢
    cases hwire : c.probeOnWire with
    | true => rfl
    | false =>
      rw [hwire] at h
      cases h
  | announcing n =>
    simp only [hstate] at h ⊢
    split at h
    · rename_i hn
      rw [if_pos hn]
    · cases h
  | established => rfl
  | conflicting => rfl

/-- The service as its gate finds it. `lastSent` is what the gate remembers. -/
structure Spaced (lastSent : PerFamily (Option I)) (c : Core I) (clock : I) : Prop where
  idle : c.awaitingConfirm = none
  past : ∀ f l, Family.pick f lastSent = some l → l ≤ clock
  fresh : c.state = .init → c.probeOnWire = false
  asking : c.pendingTransmits.Holds .probe → ∃ n, c.state = .probing n ∧ n < 3
  single : c.pendingTransmits.Single
  waited : ∀ f l gap, Family.pick f lastSent = some l → c.owedGap = some gap →
    (c.pendingTransmits.Due → Elapsed l gap clock) ∧
      (¬ c.pendingTransmits.Due → ∀ d, c.lifecycleDeadline = some d → Elapsed l gap d)

theorem Spaced.later (clock now : I)
    (h : c.Spaced lastSent clock) (hle : clock ≤ now) : c.Spaced lastSent now where
  idle := h.idle
  past f l hl := le_trans (h.past f l hl) hle
  fresh := h.fresh
  asking := h.asking
  single := h.single
  waited f l gap hl hgap := by
    obtain ⟨hdue, hnot⟩ := h.waited f l gap hl hgap
    exact ⟨fun hd => (hdue hd).mono l gap clock now hle, hnot⟩

theorem Spaced.same (c c' : Core I) (clock : I)
    (h : c.Spaced lastSent clock) (hidle : c'.awaitingConfirm = none)
    (hstate : c'.state = c.state) (hpending : c'.pendingTransmits = c.pendingTransmits)
    (hdeadline : c'.lifecycleDeadline = c.lifecycleDeadline)
    (hwire : c'.probeOnWire = c.probeOnWire) : c'.Spaced lastSent clock := by
  have howed : c'.owedGap = c.owedGap := by rw [owedGap, owedGap, hstate, hwire]
  refine ⟨hidle, h.past, ?_, ?_, ?_, ?_⟩
  · rw [hstate, hwire]
    exact h.fresh
  · rw [hpending, hstate]
    exact h.asking
  · rw [hpending]
    exact h.single
  · rw [howed, hpending, hdeadline]
    exact h.waited

theorem Spaced.free (clock : I)
    (hidle : c.awaitingConfirm = none) (hpast : ∀ f l, Family.pick f lastSent = some l → l ≤ clock)
    (hfresh : c.state = .init → c.probeOnWire = false)
    (hpending : ¬ c.pendingTransmits.Due) (hsingle : c.pendingTransmits.Single)
    (howed : c.owedGap = none) : c.Spaced lastSent clock := by
  refine ⟨hidle, hpast, hfresh, ?_, hsingle, ?_⟩
  · intro hprobe
    exact absurd (Or.inl hprobe) hpending
  · intro f l gap _ hgap
    rw [howed] at hgap
    cases hgap

theorem Spaced.restarted (clock now : I)
    (h : c.Spaced lastSent clock) (deadline : Option I) (renamedFrom : Option ServiceRecords) :
    (c.restarted now deadline renamedFrom).Spaced lastSent clock := by
  apply Spaced.free
  · show c.awaitingConfirm.map _ = none
    rw [h.idle]
    rfl
  · exact h.past
  · intro _
    rfl
  · exact Pending.not_due_empty
  · intro kind hk
    cases hk
  · rfl

theorem Spaced.event (c c' : Core I) (event : ServiceEvent)
    (clock : I) (h : c.Spaced lastSent clock) (heffect : EventEffect c event clock c') :
    c'.Spaced lastSent clock := by
  cases heffect with
  | quiet => exact h
  | lost _ => exact h.same lastSent c _ clock h.idle rfl rfl rfl rfl
  | defeated _ _ => exact h.same lastSent c _ clock h.idle rfl rfl rfl rfl
  | owed _ legacy _ => exact h.same lastSent c _ clock h.idle rfl rfl rfl rfl
  | asked _ sq _ due => exact h.same lastSent c _ clock h.idle rfl rfl rfl rfl
  | known ka _ hint _ => exact h.same lastSent c _ clock h.idle rfl rfl rfl rfl
  | restarted _ deadline => exact h.restarted lastSent c clock clock deadline none

theorem Spaced.quiesced (clock : I)
    (h : c.Spaced lastSent clock) : c.quiesced.Spaced lastSent clock := by
  refine ⟨h.idle, h.past, h.fresh, ?_, ?_, ?_⟩
  · intro hprobe
    exact absurd hprobe (Pending.empty_holds _)
  · intro kind hk
    cases hk
  · intro f l gap _ _
    exact ⟨fun hdue => absurd hdue Pending.not_due_empty, nofun⟩

theorem owedGap_startup (hs : c.state.inStartup = true)
    (hw : c.probeOnWire = false) : c.owedGap = none := by
  rw [owedGap]
  cases hstate : c.state with
  | init => rfl
  | probing n =>
    rw [hw]
    rfl
  | announcing n =>
    rw [hstate] at hs
    cases hs
  | established =>
    rw [hstate] at hs
    cases hs
  | conflicting => rfl

theorem Spaced.redated (clock : I)
    (h : c.Spaced lastSent clock) (hs : c.state.inStartup = true) (hw : c.probeOnWire = false)
    (deadline : Option I) : Spaced lastSent { c with lifecycleDeadline := deadline } clock := by
  refine ⟨h.idle, h.past, h.fresh, h.asking, h.single, ?_⟩
  intro f l gap _ hgap
  have hnone : owedGap { c with lifecycleDeadline := deadline } = none :=
    owedGap_startup _ hs hw
  rw [hnone] at hgap
  cases hgap

theorem Spaced.queued (clock : I)
    (h : c.Spaced lastSent clock) : Spaced lastSent { c with
      pendingTransmits := c.pendingTransmits.push .response } clock := by
  refine ⟨h.idle, h.past, h.fresh, ?_, Pending.Single.push_response _ h.single, ?_⟩
  · intro hprobe
    rcases Pending.push_holds _ _ _ hprobe with hprobe | hprobe
    · exact h.asking hprobe
    · cases hprobe
  · intro f l gap hl hgap
    obtain ⟨hdue, hnot⟩ := h.waited f l gap hl hgap
    refine ⟨fun hpush => hdue hpush.of_push_response, ?_⟩
    intro hpush
    apply hnot
    rintro (hold | hold)
    · exact hpush (Or.inl (Pending.holds_push _ _ _ hold))
    · exact hpush (Or.inr (Pending.holds_push _ _ _ hold))

theorem Spaced.fired (now : I)
    (h : c.Spaced lastSent now) (hnot : ¬ c.pendingTransmits.Due)
    (hdue : due c.lifecycleDeadline now = true) (kind : PendingTransmitKind)
    (hasking : kind = .probe → ∃ n, c.state = .probing n ∧ n < 3) (deadline : Option I)
    (hlater : ∀ d, deadline = some d → now ≤ d) : Spaced lastSent { c with
      pendingTransmits := c.pendingTransmits.push kind
      lifecycleDeadline := deadline } now := by
  refine ⟨h.idle, h.past, h.fresh, ?_, Pending.Single.of_push _ hnot kind, ?_⟩
  · intro hprobe
    rcases Pending.push_holds _ _ _ hprobe with hprobe | hprobe
    · exact h.asking hprobe
    · exact hasking hprobe.symm
  · intro f l gap hl hgap
    obtain ⟨d, hd, hle⟩ := (due_iff _ _).mp hdue
    have helapsed := ((h.waited f l gap hl hgap).2 hnot d hd).mono l gap d now hle
    exact ⟨fun _ => helapsed, fun _ d' hd' => helapsed.mono l gap now d' (hlater d' hd')⟩

end Core

namespace Service
variable {R : Type} {EV : Type → Type} [SeedableRng R] [Pool EV] [LawfulInstant I]

variable (s : Service I R EV) (lastSent : PerFamily (Option I))

theorem rearmParked_spaced (now : I)
    (flood : ConflictFlood I) (h : s.core.Spaced lastSent now) :
    (s.rearmParked now flood).core.Spaced lastSent now := by
  rw [rearmParked]
  split
  · rename_i hparked
    simp only [startupParked, Bool.and_eq_true, Bool.not_eq_true'] at hparked
    exact h.redated lastSent s.core now hparked.2 hparked.1.2 _
  · exact h

theorem holdUnderFlood_spaced (now : I)
    (flood : ConflictFlood I) (h : s.core.Spaced lastSent now) :
    (s.holdUnderFlood now flood).1.core.Spaced lastSent now := by
  rw [holdUnderFlood]
  split
  · rename_i hheld
    simp only [Bool.and_eq_true, Bool.not_eq_true'] at hheld
    have hredated := h.redated lastSent s.core now hheld.1.1.2 hheld.1.1.1
    split
    · split
      · exact hredated _
      · exact h
    · exact hredated none
  · exact h

theorem fireLifecycle_spaced (now : I)
    (h : s.core.Spaced lastSent now) (hnot : ¬ s.pendingTransmits.Due)
    (hdue : due s.lifecycleDeadline now = true) :
    (s.fireLifecycle now).core.Spaced lastSent now := by
  have hpush (kind : PendingTransmitKind) : s.pushLifecyclePending kind = { s with
      pendingTransmits := s.pendingTransmits.push kind } := by
    have hidle : s.awaitingConfirm = none := h.idle
    simp [pushLifecyclePending, hidle]
  rw [fireLifecycle]
  cases hstate : s.state with
  | init =>
    apply Core.Spaced.free
    · exact h.idle
    · exact h.past
    · exact nofun
    · exact hnot
    · exact h.single
    · have hw : s.probeOnWire = false := h.fresh hstate
      show Core.owedGap { s.core with state := .probing 0, lifecycleDeadline := _ } = none
      exact Core.owedGap_startup _ rfl hw
  | probing n =>
    simp only
    split
    · apply Core.Spaced.free
      · exact h.idle
      · exact h.past
      · exact nofun
      · exact hnot
      · exact h.single
      · rfl
    · rename_i hn
      rw [hpush]
      apply h.fired lastSent s.core now hnot hdue .probe
      · intro _
        exact ⟨n, hstate, UInt8.not_le.mp hn⟩
      · intro d hd
        exact probeDeadline_le now d n s.rng hd
  | announcing n =>
    simp only
    rw [hpush]
    apply h.fired lastSent s.core now hnot hdue .announcement nofun
    intro d hd
    exact LawfulInstant.le_add now d _ hd
  | established =>
    simp only
    rw [hpush]
    apply h.fired lastSent s.core now hnot hdue .announcement nofun
    intro d hd
    exact LawfulInstant.le_add now d _ hd
  | conflicting => exact h

theorem tick_spaced (now : I)
    (flood : ConflictFlood I) (h : s.core.Spaced lastSent now)
    (hnot : ¬ s.pendingTransmits.Due) : (s.tick now flood).1.core.Spaced lastSent now := by
  have htake : (s.takeResponse (due s.responseDeadline now)).core.Spaced lastSent now ∧
      ¬ (s.takeResponse (due s.responseDeadline now)).pendingTransmits.Due := by
    rw [takeResponse]
    split
    · exact ⟨h.same lastSent _ _ now h.idle rfl rfl rfl rfl, hnot⟩
    · exact ⟨h, hnot⟩
  have hrearm : ∀ s' : Service I R EV, (s'.rearmParked now flood).pendingTransmits =
      s'.pendingTransmits := by
    intro s'
    rw [rearmParked]
    split <;> rfl
  have hhold : ∀ s' : Service I R EV, (s'.holdUnderFlood now flood).1.pendingTransmits =
      s'.pendingTransmits := by
    intro s'
    rw [holdUnderFlood]
    split
    · split
      · split <;> rfl
      · rfl
    · rfl
  obtain ⟨hspaced, hqueue⟩ := htake
  have hparked := rearmParked_spaced _ lastSent now flood hspaced
  have hheld := holdUnderFlood_spaced _ lastSent now flood hparked
  rw [← hrearm, ← hhold] at hqueue
  rw [tick]
  simp only
  generalize ((s.takeResponse (due s.responseDeadline now)).rearmParked now
    flood).holdUnderFlood now flood = held at hheld hqueue ⊢
  have hfired : (held.1.fireDue now).core.Spaced lastSent now := by
    rw [fireDue]
    split
    · rename_i hdue
      exact held.1.fireLifecycle_spaced lastSent now hheld hqueue hdue
    · exact hheld
  generalize held.1.fireDue now = fired at hfired ⊢
  rw [queueResponse]
  split
  · exact hfired.queued lastSent _ now
  · exact hfired

theorem handleTimeout_spaced (now : I)
    (flood : ConflictFlood I) (taken : NamesInUse) (h : s.core.Spaced lastSent now)
    (hoffered : ¬ s.pendingTransmits.Due ∨ s.conflictClassifiedUnresolved = true) :
    (s.handleTimeout now flood taken).1.core.Spaced lastSent now := by
  cases hlatched : s.conflictClassifiedUnresolved with
  | false =>
    have hnot : ¬ s.pendingTransmits.Due := by
      rcases hoffered with hnot | hconflict
      · exact hnot
      · rw [hlatched] at hconflict
        cases hconflict
    have htick : (s.handleTimeout now flood taken).1 = (({ s with
        lastNow := some now
        kas := s.kas.expire now } : Service I R EV).tick now flood).1 := by
      simp only [handleTimeout]
      rw [if_neg]
      exact Bool.eq_false_iff.mp hlatched
    rw [htick]
    have hsame := h.same lastSent s.core { s.core with kas := s.kas.expire now } now h.idle rfl
      rfl rfl rfl
    exact tick_spaced ({ s with
      lastNow := some now
      kas := s.kas.expire now } : Service I R EV) lastSent now flood hsame hnot
  | true =>
    have heffect := s.handleTimeout_effect now flood taken
    generalize (s.handleTimeout now flood taken).1.core = c' at heffect ⊢
    cases heffect with
    | waited _ _ => exact h.restarted lastSent s.core now now _ none
    | renamed _ name _ deadline =>
      have hrestarted := h.restarted lastSent s.core now now deadline (some s.core.records)
      exact hrestarted.same lastSent _ _ now hrestarted.idle rfl rfl rfl rfl
    | gaveUp _ =>
      apply Core.Spaced.free
      · show s.awaitingConfirm.map _ = none
        rw [show s.awaitingConfirm = none from h.idle]
        rfl
      · exact h.past
      · exact nofun
      · exact Pending.not_due_empty
      · intro kind hk
        cases hk
      · rfl
    | ticked hnone _ _ =>
      have hsame : s.core.latched = s.conflictClassifiedUnresolved := rfl
      rw [hsame, hlatched] at hnone
      cases hnone

end Service

section
variable [MeasuredInstant I]

theorem composeAnnounceDeadline_elapsed (now : I) (base due : Option I) (d : I)
    (hbase : ∀ b, base = some b → Elapsed now announceInterval b)
    (h : composeAnnounceDeadline now base due = some d) : Elapsed now announceInterval d := by
  cases hb : base with
  | none =>
    rw [hb] at h
    cases h
  | some b =>
    obtain ⟨floor, hfloor, -⟩ := hbase b hb
    exact ⟨floor, hfloor, (composeAnnounceDeadline_bounds now base due d h).1 floor hfloor⟩

theorem reAnnounceDeadline_elapsed (now d : I) (ttlSecs : UInt32)
    (h : reAnnounceDeadline now ttlSecs = some d) : Elapsed now announceInterval d := by
  apply Elapsed.of_add now d announceInterval _ _ h
  have hsecs : announceIntervalSecs ≤ max (periodicRefreshSecs ttlSecs) announceIntervalSecs :=
    le_max_right _ _
  exact Nat.mul_le_mul_right _ hsecs

theorem partialAnnounceDeadline_elapsed (now d : I) (streak : UInt8) (ttlSecs : UInt32)
    (h : partialAnnounceDeadline now streak ttlSecs = some d) :
    Elapsed now announceInterval d := by
  apply Elapsed.of_add now d announceInterval _ _ h
  have hrung : 1 ≤ announceIntervalSecs * 2 ^ min streak.toNat maxPartialAnnounceShift := by
    have hpow := Nat.one_le_two_pow (n := min streak.toNat maxPartialAnnounceShift)
    simp only [announceIntervalSecs]
    omega
  have hcap : 1 ≤ max (periodicRefreshSecs ttlSecs) announceIntervalSecs := le_max_right _ _
  exact Nat.mul_le_mul_right _ (le_min hrung hcap)

theorem announceDeadline_elapsed (now d : I) (count : Nat) (hcount : count ≠ 0)
    (h : announceDeadline now count = some d) : Elapsed now announceInterval d := by
  rw [announceDeadline, if_neg hcount] at h
  exact ⟨d, h, le_refl d⟩

namespace Service
variable {R : Type} {EV : Type → Type} [SeedableRng R] [Pool EV]

theorem armAnnouncement_elapsed (s : Service I R EV) (now : I) (advance : PhaseAdvance)
    (hpub : s.state.isPublished = true)
    (hbase : s.onPartialLadder advance = false → (∃ n, s.state = .announcing n) →
      ∀ d, s.lifecycleDeadline = some d → Elapsed now announceInterval d) (d : I)
    (h : (s.armAnnouncement now advance).lifecycleDeadline = some d) :
    Elapsed now announceInterval d := by
  cases hstate : s.state with
  | init =>
    rw [hstate] at hpub
    cases hpub
  | probing n =>
    rw [hstate] at hpub
    cases hpub
  | conflicting =>
    rw [hstate] at hpub
    cases hpub
  | announcing n =>
    rw [s.armAnnouncement_announcing n now advance hstate] at h
    apply composeAnnounceDeadline_elapsed now _ _ d _ h
    intro b hb
    cases hladder : s.onPartialLadder advance with
    | true =>
      rw [hladder, if_pos rfl] at hb
      exact partialAnnounceDeadline_elapsed now b _ _ hb
    | false =>
      rw [hladder, if_neg Bool.false_ne_true] at hb
      exact hbase hladder ⟨n, hstate⟩ b hb
  | established =>
    rw [armAnnouncement, hstate] at h
    simp only at h
    split at h
    · cases h
    · exact composeAnnounceDeadline_elapsed now _ _ d
        (fun b hb => reAnnounceDeadline_elapsed now b _ hb) h

theorem advanceAnnouncing_elapsed (s : Service I R EV) (now : I)
    (hpub : s.state.isPublished = true) (n : UInt8)
    (hstate : (s.advanceAnnouncing now).state = .announcing n) (d : I)
    (h : (s.advanceAnnouncing now).lifecycleDeadline = some d) :
    Elapsed now announceInterval d := by
  rw [advanceAnnouncing] at hstate h
  cases hs : s.state with
  | init =>
    rw [hs] at hpub
    cases hpub
  | probing n =>
    rw [hs] at hpub
    cases hpub
  | conflicting =>
    rw [hs] at hpub
    cases hpub
  | established =>
    simp only [hs] at hstate
    cases hstate
  | announcing m =>
    simp only [hs] at hstate h
    split at hstate
    · rw [notify_eq] at hstate
      cases hstate
    · rename_i hm
      rw [if_neg hm] at h
      apply announceDeadline_elapsed now d _ _ h
      have hzero : m = 0 := by
        apply UInt8.toNat_inj.mp
        have hlt : m.toNat < 1 := Nat.lt_of_not_le fun h => hm (UInt8.le_iff_toNat_le.mpr h)
        exact Nat.lt_one_iff.mp hlt
      subst hzero
      decide

theorem settleAnnouncement_elapsed (s : Service I R EV) (now : I) (emitted : EmittedRecords)
    (delivery : TransmitDelivery) (hpub : s.state.isPublished = true) (d : I)
    (h : (s.settleAnnouncement now emitted delivery).lifecycleDeadline = some d) :
    Elapsed now announceInterval d := by
  rw [settleAnnouncement] at h
  have hclassify : ∀ s' advance, s.classifyAnnouncement now delivery = (s', advance) →
      s'.state = s.state := by
    intro s' advance heq
    cases heq
    rfl
  revert h hclassify
  rcases s.classifyAnnouncement now delivery with ⟨s', advance⟩
  intro h hclassify
  have hpub' : s'.state.isPublished = true := by rw [hclassify s' advance rfl, hpub]
  simp only at h
  split at h
  · rw [retryAnnouncement, if_pos hpub'] at h
    exact announceDeadline_elapsed now d 1 Nat.one_ne_zero h
  · have hcredit : (s'.creditEmitted emitted delivery .multicast).state.isPublished = true := hpub'
    generalize s'.creditEmitted emitted delivery .multicast = credited at h hcredit
    split at h
    · rename_i hpartial
      subst hpartial
      exact credited.armAnnouncement_elapsed now .partial_ hcredit nofun d h
    · have hfull : ∀ s₃ : Service I R EV, s₃.state.isPublished = true →
          ((s₃.advanceAnnouncing now).armAnnouncement now advance).lifecycleDeadline = some d →
          Elapsed now announceInterval d := by
        intro s₃ hs₃ harmed
        apply armAnnouncement_elapsed _ now advance (s₃.advanceAnnouncing_keeps now hs₃).1 _ d harmed
        rintro - ⟨n, hn⟩ b hb
        exact s₃.advanceAnnouncing_elapsed now hs₃ n hn b hb
      have hlast : ∀ s₃ : Service I R EV, s₃.state.isPublished = true →
          (if advance.advancesWithoutDelivery then
            ((s₃.advanceAnnouncing now).armAnnouncement now advance).climbPartialLadder
            else (s₃.advanceAnnouncing now).armAnnouncement now advance).lifecycleDeadline = some d →
          Elapsed now announceInterval d := by
        intro s₃ hs₃ hd
        split at hd
        · exact hfull s₃ hs₃ hd
        · exact hfull s₃ hs₃ hd
      apply hlast _ _ h
      split
      · exact hcredit
      · exact hcredit

theorem settleProbe_deadline (s : Service I R EV) (now : I) (delivery : TransmitDelivery)
    (n : UInt8) (hs : s.state = .probing n) :
    (s.settleProbe now delivery).state = .probing 3 ∨
      (s.settleProbe now delivery).lifecycleDeadline = checkedAddDuration now probeInterval := by
  simp only [settleProbe, hs]
  rw [advanceProbe]
  rcases classifyAdvance _ delivery with ⟨advance, rounds⟩
  simp only
  split
  · exact Or.inr rfl
  · split
    · obtain ⟨deadline, hcore, -⟩ := ({ s with
        probeOnWire := s.probeOnWire || delivery.anyDelivered
        partialRounds := rounds } : Service I R EV).enterSettling_core now advance
      exact Or.inl (congrArg Core.state hcore)
    · rename_i hn
      have hsucc : saturatingSucc8 n ≠ 0 := by
        rw [saturatingSucc8_lt_two n (UInt8.not_le.mp hn)]
        intro hzero
        have hlt : n.toNat < 2 := UInt8.lt_iff_toNat_lt.mp (UInt8.not_le.mp hn)
        have hval := congrArg UInt8.toNat hzero
        rw [UInt8.toNat_add] at hval
        simp at hval
        omega
      refine Or.inr ?_
      rw [probeDeadline, if_neg hsucc]

end Service

namespace Core

theorem Spaced.confirmed (lastSent : PerFamily (Option I)) (c : Core I) (now : I)
    (hidle : c.awaitingConfirm = none)
    (hpast : ∀ f l, Family.pick f lastSent = some l → l ≤ now)
    (hfresh : c.state ≠ .init) (hnot : ¬ c.pendingTransmits.Due)
    (hsingle : c.pendingTransmits.Single)
    (hwait : ∀ gap, c.owedGap = some gap → ∀ d, c.lifecycleDeadline = some d →
      Elapsed now gap d) : c.Spaced lastSent now := by
  refine ⟨hidle, hpast, fun hinit => absurd hinit hfresh, ?_, hsingle, ?_⟩
  · intro hprobe
    exact absurd (Or.inl hprobe) hnot
  · intro f l gap hl hgap
    refine ⟨fun hdue => absurd hdue hnot, ?_⟩
    intro _ d hd
    exact (hwait gap hgap d hd).since_earlier l now d gap (hpast f l hl)

theorem Spaced.forget (lastSent lastSent' : PerFamily (Option I)) (c : Core I) (now : I)
    (h : c.Spaced lastSent now)
    (hless : ∀ f l, Family.pick f lastSent' = some l → Family.pick f lastSent = some l) :
    c.Spaced lastSent' now :=
  ⟨h.idle, fun f l hl => h.past f l (hless f l hl), h.fresh, h.asking, h.single,
    fun f l gap hl => h.waited f l gap (hless f l hl)⟩

theorem owedGap_probing (c : Core I) (n : UInt8) (hs : c.state = .probing n) (gap : Duration)
    (h : c.owedGap = some gap) : gap = probeInterval := by
  simp only [owedGap, hs] at h
  split at h
  · exact (Option.some.inj h).symm
  · cases h

theorem owedGap_published (c : Core I) (hs : c.state.isPublished = true) (gap : Duration)
    (h : c.owedGap = some gap) : gap = announceInterval := by
  rw [owedGap] at h
  cases hstate : c.state with
  | init =>
    rw [hstate] at hs
    cases hs
  | probing n =>
    rw [hstate] at hs
    cases hs
  | conflicting =>
    rw [hstate] at hs
    cases hs
  | announcing n =>
    simp only [hstate] at h
    split at h
    · exact (Option.some.inj h).symm
    · cases h
  | established =>
    simp only [hstate] at h
    exact (Option.some.inj h).symm

end Core

namespace Service
variable {R : Type} {EV : Type → Type} [SeedableRng R] [Pool EV]

theorem settleProbe_spaced (s : Service I R EV) (lastSent' : PerFamily (Option I)) (now : I)
    (delivery : TransmitDelivery) (hidle : s.awaitingConfirm = none)
    (hsingle : s.pendingTransmits.Single)
    (hpast : ∀ f l, Family.pick f lastSent' = some l → l ≤ now)
    (hasking : ∃ n, s.state = .probing n ∧ n < 3) (hnot : ¬ s.pendingTransmits.Due) :
    (s.settleProbe now delivery).core.Spaced lastSent' now := by
  obtain ⟨n, hstate, -⟩ := hasking
  have hdeadline := s.settleProbe_deadline now delivery n hstate
  have hstatePost : (s.settleProbe now delivery).state = (s.settleProbe now delivery).core.state :=
    rfl
  have hdeadlinePost : (s.settleProbe now delivery).lifecycleDeadline =
      (s.settleProbe now delivery).core.lifecycleDeadline := rfl
  rw [hstatePost, hdeadlinePost] at hdeadline
  have heffect := s.settleProbe_effect now delivery
  generalize (s.settleProbe now delivery).core = c' at heffect hdeadline ⊢
  cases heffect with
  | probeElsewhere hother => exact absurd hstate (hother n)
  | probeHeld m hs _ =>
    apply Core.Spaced.confirmed
    · exact hidle
    · exact hpast
    · intro hinit
      rw [hs] at hinit
      cases hinit
    · exact hnot
    · exact hsingle
    · intro gap hgap d hd
      rw [Core.owedGap_probing _ m (by exact hs) gap hgap]
      exact ⟨d, hd, le_refl d⟩
  | probeAdvanced m hs _ _ hm deadline =>
    apply Core.Spaced.confirmed
    · exact hidle
    · exact hpast
    · exact nofun
    · exact hnot
    · exact hsingle
    · intro gap hgap d hd
      rw [Core.owedGap_probing _ (m + 1) rfl gap hgap]
      rcases hdeadline with hthird | hdeadline
      · -- the count of probes has not reached three
        exfalso
        have hcount : m + 1 = 3 := ServiceState.probing.inj hthird
        have htwo : m = 2 := by
          have hback := congrArg (fun k => k - 1) hcount
          simpa using hback
        rw [htwo] at hm
        exact absurd hm (by decide)
      · have hd' : checkedAddDuration now probeInterval = some d := hdeadline.symm.trans hd
        exact ⟨d, hd', le_refl d⟩
  | probeSettled m hs _ _ _ deadline _ =>
    apply Core.Spaced.free
    · exact hidle
    · exact hpast
    · exact nofun
    · exact hnot
    · exact hsingle
    · rfl

theorem settleAnnouncement_spaced (s : Service I R EV) (lastSent' : PerFamily (Option I)) (now : I)
    (emitted : EmittedRecords) (delivery : TransmitDelivery) (hidle : s.awaitingConfirm = none)
    (hsingle : s.pendingTransmits.Single)
    (hpast : ∀ f l, Family.pick f lastSent' = some l → l ≤ now)
    (hpub : s.state.isPublished = true) (hnot : ¬ s.pendingTransmits.Due) :
    (s.settleAnnouncement now emitted delivery).core.Spaced lastSent' now := by
  have hdeadline := s.settleAnnouncement_elapsed now emitted delivery hpub
  have hdeadlinePost : (s.settleAnnouncement now emitted delivery).lifecycleDeadline =
      (s.settleAnnouncement now emitted delivery).core.lifecycleDeadline := rfl
  rw [hdeadlinePost] at hdeadline
  have heffect := s.settleAnnouncement_effect now emitted delivery
  generalize (s.settleAnnouncement now emitted delivery).core = c' at heffect hdeadline ⊢
  cases heffect with
  | announced _ state deadline hpublished _ _ =>
    have hpub' : state.isPublished = true := hpublished hpub
    apply Core.Spaced.confirmed
    · exact hidle
    · exact hpast
    · intro hinit
      have hstate : state = .init := hinit
      rw [hstate] at hpub'
      cases hpub'
    · exact hnot
    · exact hsingle
    · intro gap hgap d hd
      rw [Core.owedGap_published _ hpub' gap hgap]
      exact hdeadline d hd

theorem noteTransmitOutcome_spaced (s : Service I R EV) (token : AwaitingConfirm)
    (lastSent lastSent' : PerFamily (Option I)) (now : I) (v4 v6 : FamilyAttempt I)
    (hk : s.awaitingConfirm = some token)
    (hanchor : FamilyAttempt.anchor v4 v6 now = now) (hsingle : s.pendingTransmits.Single)
    (hpast : ∀ f l, Family.pick f lastSent = some l → l ≤ now)
    (hreply : token.minFamilyGap = 0 →
      Core.Spaced lastSent { s.core with awaitingConfirm := none } now)
    (hlast : ∀ f l, Family.pick f lastSent' = some l →
      Family.pick f lastSent = some l ∨ (l = now ∧ token.minFamilyGap ≠ 0))
    (hprobe : token = .probe → (∃ n, s.state = .probing n ∧ n < 3) ∧ ¬ s.pendingTransmits.Due)
    (hannounce : ∀ emitted, token = .announcement emitted →
      s.state.isPublished = true ∧ ¬ s.pendingTransmits.Due) :
    (s.noteTransmitOutcome now v4 v6).1.core.Spaced lastSent' now := by
  have hpost : (s.noteTransmitOutcome now v4 v6).1 =
      ({ s with awaitingConfirm := none } : Service I R EV).settleConfirm now token
        (FamilyAttempt.project v4 v6) := by
    simp only [noteTransmitOutcome, hk, hanchor]
  rw [hpost]
  have hpast' : ∀ f l, Family.pick f lastSent' = some l → l ≤ now := by
    intro f l hl
    rcases hlast f l hl with hold | ⟨rfl, -⟩
    · exact hpast f l hold
    · exact le_refl l
  have hungated (hzero : token.minFamilyGap = 0) :
      Core.Spaced lastSent' { s.core with awaitingConfirm := none } now := by
    apply (hreply hzero).forget lastSent lastSent' _ now
    intro f l hl
    rcases hlast f l hl with hold | ⟨-, hgated⟩
    · exact hold
    · exact absurd hzero hgated
  have heffect := ({ s with awaitingConfirm := none } : Service I R EV).settleConfirm_effect now
    token (FamilyAttempt.project v4 v6)
  cases token with
  | probe =>
    obtain ⟨hasking, hnot⟩ := hprobe rfl
    exact settleProbe_spaced _ lastSent' now _ rfl hsingle hpast' hasking hnot
  | announcement emitted =>
    obtain ⟨hpub, hnot⟩ := hannounce emitted rfl
    exact settleAnnouncement_spaced _ lastSent' now emitted _ rfl hsingle hpast' hpub hnot
  | response emitted cls =>
    generalize (({ s with awaitingConfirm := none } : Service I R EV).settleConfirm now (.response emitted cls)
      (FamilyAttempt.project v4 v6)).core = c' at heffect ⊢
    cases heffect with
    | responded _ _ =>
      have hsame := hungated rfl
      exact hsame.same lastSent' _ _ now hsame.idle rfl rfl rfl rfl
  | metaResponse =>
    generalize (({ s with awaitingConfirm := none } : Service I R EV).settleConfirm now .metaResponse
      (FamilyAttempt.project v4 v6)).core = c' at heffect ⊢
    cases heffect with
    | metaReply => exact hungated rfl
  | stale fact records =>
    generalize (({ s with awaitingConfirm := none } : Service I R EV).settleConfirm now (.stale fact records)
      (FamilyAttempt.project v4 v6)).core = c' at heffect ⊢
    have hsame := hungated rfl
    cases heffect with
    | staleEmpty _ => exact hsame
    | staleSame _ _ _ => exact hsame.same lastSent' _ _ now hsame.idle rfl rfl rfl rfl
    | staleOld _ _ _ _ => exact hsame.same lastSent' _ _ now hsame.idle rfl rfl rfl rfl

end Service

namespace Core

structure InHand (lastSent : PerFamily (Option I)) (c c' : Core I) (now : I) (sent : Sent)
    (token : AwaitingConfirm) : Prop where
  stamped : c'.awaitingConfirm = some token
  gap : sent.transmit.minFamilyGap = token.minFamilyGap
  group : token.minFamilyGap ≠ 0 → sent.transmit.dst = multicastDst
  single : c'.pendingTransmits.Single
  reply : token.minFamilyGap = 0 → Spaced lastSent { c' with awaitingConfirm := none } now
  probe : token = .probe → (∃ n, c'.state = .probing n ∧ n < 3) ∧ ¬ c'.pendingTransmits.Due
  announce : ∀ emitted, token = .announcement emitted →
    c'.state.isPublished = true ∧ ¬ c'.pendingTransmits.Due
  ready : token.minFamilyGap ≠ 0 →
    (c.owedGap = some token.minFamilyGap ∧
      ∀ f l, Family.pick f lastSent = some l → Elapsed l token.minFamilyGap now) ∨
    (c.owedGap = none ∧ c.openingGap = some token.minFamilyGap)

theorem owedGap_asking (c : Core I) (n : UInt8) (hs : c.state = .probing n) (hn : n < 3) :
    c.owedGap = some probeInterval ∨ (c.owedGap = none ∧ c.openingGap = some probeInterval) := by
  simp only [owedGap, openingGap, hs, hn, decide_true, Bool.and_true]
  cases c.probeOnWire with
  | true => exact Or.inl rfl
  | false => exact Or.inr ⟨rfl, rfl⟩

theorem owedGap_claiming (c : Core I) (hs : c.state.isPublished = true) :
    c.owedGap = some announceInterval ∨
      (c.owedGap = none ∧ c.openingGap = some announceInterval) := by
  rw [owedGap, openingGap]
  cases hstate : c.state with
  | init =>
    rw [hstate] at hs
    cases hs
  | probing n =>
    rw [hstate] at hs
    cases hs
  | conflicting =>
    rw [hstate] at hs
    cases hs
  | announcing n =>
    simp only
    by_cases hn : n ≥ 1
    · rw [if_pos hn]
      exact Or.inl rfl
    · rw [if_neg hn, if_neg hn]
      exact Or.inr ⟨rfl, rfl⟩
  | established => exact Or.inl rfl

theorem Spaced.deferred (lastSent : PerFamily (Option I)) (c c' : Core I) (now : I)
    (flood : ConflictFlood I) (h : c.Spaced lastSent now) (heffect : DeferEffect c now flood c') :
    c'.Spaced lastSent now ∧ c'.openingGap = c.openingGap ∧ c'.owedGap = c.owedGap := by
  cases heffect with
  | none => exact ⟨h, rfl, rfl⟩
  | dropped hw hp deadline =>
    obtain ⟨n, hstate, -⟩ := h.asking (Or.inl hp)
    have hnone : owedGap { c with
        pendingTransmits := c.pendingTransmits.pop
        lifecycleDeadline := deadline } = none := by
      apply owedGap_startup _ _ hw
      show c.state.inStartup = true
      rw [hstate]
      rfl
    refine ⟨?_, rfl, rfl⟩
    apply Spaced.free
    · exact h.idle
    · exact h.past
    · exact h.fresh
    · exact h.single .probe hp nofun
    · apply Pending.Single.of_pop
      rw [hp]
      exact Option.some_ne_none _
    · exact hnone

theorem Spaced.popped (lastSent : PerFamily (Option I)) (c : Core I) (now : I)
    (h : c.Spaced lastSent now) (hp : c.pendingTransmits.peek = some .response) :
    Spaced lastSent { c with pendingTransmits := c.pendingTransmits.pop } now := by
  have hfirst : c.pendingTransmits.first = some .response := hp
  have hdue : c.pendingTransmits.Due → c.pendingTransmits.pop.Due := by
    intro hdue
    have hpop : c.pendingTransmits.pop = ⟨c.pendingTransmits.second, none⟩ := by
      simp [Pending.pop, hfirst]
    rw [hpop]
    rcases hdue with (hd | hd) | (hd | hd)
    · rw [hfirst] at hd
      cases hd
    · exact Or.inl (Or.inl hd)
    · rw [hfirst] at hd
      cases hd
    · exact Or.inr (Or.inl hd)
  refine ⟨h.idle, h.past, h.fresh, fun hprobe => h.asking (Pending.pop_holds _ _ hprobe), ?_, ?_⟩
  · apply Pending.Single.of_pop
    rw [hp]
    exact Option.some_ne_none _
  · intro f l gap hl hgap
    obtain ⟨hready, hnot⟩ := h.waited f l gap hl hgap
    exact ⟨fun hpop => hready hpop.of_pop, fun hpop => hnot fun hd => hpop (hdue hd)⟩

theorem Spaced.poll (lastSent : PerFamily (Option I)) (c c' : Core I) (now : I) (buf : Bytes)
    (sent : Option Sent) (h : c.Spaced lastSent now)
    (hqueued : c.HasClaims → c.state.isPublished = true) (heffect : PollEffect c now buf c' sent) :
    (sent = none → c'.Spaced lastSent now) ∧
      ∀ d, sent = some d → ∃ token, InHand lastSent c c' now d token := by
  cases heffect with
  | silent legacy _ => exact ⟨fun _ => h.same lastSent c _ now h.idle rfl rfl rfl rfl, nofun⟩
  | drained _ _ legacy _ hp _ _ _ _ =>
    refine ⟨?_, nofun⟩
    intro _
    have hpopped := h.popped lastSent c now hp
    exact hpopped.same lastSent _ _ now h.idle rfl rfl rfl rfl
  | metaReply _ metaName _ msg _ =>
    refine ⟨nofun, ?_⟩
    rintro _ ⟨⟩
    exact ⟨.metaResponse, rfl, rfl, fun hz => absurd rfl hz, h.single,
      fun _ => h.same lastSent c _ now rfl rfl rfl rfl rfl, nofun, nofun,
      fun hz => absurd rfl hz⟩
  | legacyReply _ _ legacy rest _ msg token he =>
    refine ⟨nofun, ?_⟩
    rintro _ ⟨⟩
    have hzero : token.minFamilyGap = 0 ∧ token ≠ .probe ∧
        ∀ emitted, token ≠ .announcement emitted := by
      rw [Service.encodeLegacy] at he
      split at he
      · split at he
        · cases he
        · cases he
          exact ⟨rfl, nofun, nofun⟩
      · split at he
        · cases he
        · cases he
          exact ⟨rfl, nofun, nofun⟩
    exact ⟨token, rfl, rfl, fun hz => absurd hzero.1 hz, h.single,
      fun _ => h.same lastSent c _ now rfl rfl rfl rfl rfl, fun hp => absurd hp hzero.2.1,
      fun emitted hp => absurd hp (hzero.2.2 emitted), fun hz => absurd hzero.1 hz⟩
  | probe _ _ legacy _ hp msg _ =>
    refine ⟨nofun, ?_⟩
    rintro _ ⟨⟩
    obtain ⟨n, hstate, hn⟩ := h.asking (Or.inl hp)
    have hnot : ¬ c.pendingTransmits.pop.Due := h.single .probe hp nofun
    have hsingle : c.pendingTransmits.pop.Single := by
      apply Pending.Single.of_pop
      rw [hp]
      exact Option.some_ne_none _
    refine ⟨.probe, rfl, rfl, fun _ => rfl, hsingle, ?_, fun _ => ⟨⟨n, hstate, hn⟩, hnot⟩,
      nofun, ?_⟩
    · intro hz
      exact absurd hz (by decide)
    · intro _
      rcases c.owedGap_asking n hstate hn with howed | hopening
      · refine Or.inl ⟨howed, ?_⟩
        intro f l hl
        exact (h.waited f l probeInterval hl howed).1 (Or.inl (Or.inl hp))
      · exact Or.inr hopening
  | announcement _ _ legacy _ hp msg nsec _ =>
    refine ⟨nofun, ?_⟩
    rintro _ ⟨⟩
    have hpub : c.state.isPublished = true := hqueued (Or.inl ⟨.announcement, Or.inl hp, nofun⟩)
    have hnot : ¬ c.pendingTransmits.pop.Due := h.single .announcement hp nofun
    have hsingle : c.pendingTransmits.pop.Single := by
      apply Pending.Single.of_pop
      rw [hp]
      exact Option.some_ne_none _
    refine ⟨.announcement _, rfl, rfl, fun _ => rfl, hsingle, ?_, nofun, fun _ _ => ⟨hpub, hnot⟩, ?_⟩
    · intro hz
      have hsecond : announceInterval ≠ 0 := by decide
      exact absurd hz hsecond
    · intro _
      rcases c.owedGap_claiming hpub with howed | hopening
      · refine Or.inl ⟨howed, ?_⟩
        intro f l hl
        exact (h.waited f l announceInterval hl howed).1 (Or.inr (Or.inl hp))
      · exact Or.inr hopening
  | response _ _ legacy _ hp msg emitted _ _ =>
    refine ⟨nofun, ?_⟩
    rintro _ ⟨⟩
    have hpopped := h.popped lastSent c now hp
    exact ⟨.response emitted .multicast, rfl, rfl, fun hz => absurd rfl hz, hpopped.single,
      fun _ => hpopped.same lastSent _ _ now rfl rfl rfl rfl rfl, nofun, nofun,
      fun hz => absurd rfl hz⟩

end Core
end
end
end Hick
